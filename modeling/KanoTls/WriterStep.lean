import KanoTls.WriterTurn

/-! Each step of the writer is a `Turn`: one lemma for each procedure of the loop, and
`stepLine` over all of them. -/
namespace KanoTls.Writer
open Wire Shaper Uot State

section Pc

@[simp] theorem drainNext (requests : List Request) : drainOf (nextRequest requests) = none := by
  cases requests <;> rfl

@[simp] theorem handNext (requests : List Request) : handOf (nextRequest requests) = [] := by
  cases requests <;> rfl

@[simp] theorem afterNext (requests : List Request) :
    afterOf (nextRequest requests) = requests.flatMap Request.frames := by
  cases requests <;> rfl

end Pc

section Steps
variable {s t : State} {x : Split} {d : Drain} {draw : Draw} {a : Action}

theorem consumedSome {pc : Pc} (draining : drainOf pc = some d) : consumedOf pc = d.consumed := by
  rw [consumedOf,draining]
  rfl

theorem drainLive {pc : Pc} (draining : drainOf pc = some d) : pc.live = true := by
  cases pc <;> first | rfl | contradiction

structure Recorded (s t : State) (d : Drain) (policy : ShapePolicy) (shaper : TrafficShaper) : Prop where
  left : d.consumed < s.pending.length
  pending : t.pending = s.pending
  queues : SameQueue s t
  shaper : t.shaper = shaper.advance
  pc : t.pc = if policy.delay then .window (s.afterRecord d policy) else .drain (s.afterRecord d policy)
  out : emitted t = emitted s ++ values ((inlineRecords d policy).flatMap (·.payload)) ++
    values ((s.pending.drop d.consumed).take (s.takeFor d policy))

theorem recorded (moved : s.recordStep d draw .none = some t) :
    Recorded s t d (s.policyFor d draw).1 (s.policyFor d draw).2 := by
  unfold recordStep at moved
  split at moved
  · contradiction
  · rename_i left
    generalize s.policyFor d draw = chosen at moved ⊢
    obtain ⟨policy,shaper⟩ := chosen
    simp only [reduceCtorEq,false_and,if_false] at moved
    have out : emitted (s.prepared (inlineRecords d policy ++ [s.dataRecord d policy])) =
        emitted s ++ values ((inlineRecords d policy).flatMap (·.payload)) ++
          values ((s.pending.drop d.consumed).take (s.takeFor d policy)) := by
      rw [emittedPrepared,payloadsAppend,valuesAppend,← List.append_assoc]
      simp [dataRecord,record]
    split at moved
    · cases Option.some.inj moved
      exact ⟨Nat.lt_of_not_le left,rfl,⟨rfl,rfl,rfl⟩,rfl,rfl,(emittedFlushed _).trans out⟩
    · cases Option.some.inj moved
      exact ⟨Nat.lt_of_not_le left,rfl,⟨rfl,rfl,rfl⟩,rfl,rfl,out⟩

theorem recordLine (held : Held s x) (here : s.pc = .drain d) (moved : s.recordStep d draw .none = some t) :
    ∃ y, Held t y ∧ Turn s a t x y := by
  have was : drainOf s.pc = some d := by rw [here]; rfl
  have sound := held.sound d was
  have quiet := inlineAtBoundary draw sound
  have steady := policyDelay draw sound
  obtain ⟨_,pending,queues,shaper,pc,out⟩ := recorded moved
  generalize (s.policyFor d draw).1 = policy at *
  generalize (s.policyFor d draw).2 = next at *
  have now : drainOf t.pc = some (s.afterRecord d policy) := by
    rw [pc]
    split <;> rfl
  have none : (s.afterRecord d policy).first = none := rfl
  have sound' : Sound t (s.afterRecord d policy) (x.front ++ x.rest) := by
    refine ⟨sound.boundaries,?_,?_,?_,?_,sound.staying⟩
    · intro some
      rw [none] at some
      contradiction
    · intro zero
      rw [shaper] at zero
      simp [TrafficShaper.advance] at zero
    · intro p some
      rw [none] at some
      contradiction
    · intro p some
      rw [none] at some
      contradiction
  have drains : t.pc = .drain (s.afterRecord d policy) ∨
      t.pc = .window (s.afterRecord d policy) ∧ (s.afterRecord d policy).sticky = false := by
    rw [pc]
    split
    · exact .inr ⟨rfl,steady ‹_›⟩
    · exact .inl rfl
  have most : s.takeFor d policy ≤ s.pending.length - d.consumed := Nat.min_le_right _ _
  have hand : handOf s.pc = [] ∧ handOf t.pc = [] := by
    rw [here,pc]
    refine ⟨rfl,?_⟩
    split <;> rfl
  have after : afterOf t.pc = afterOf s.pc := by
    rw [here,pc]
    split <;> rfl
  have drain : SameDrain s t := by
    intro e draining
    cases Option.some.inj (now.symm.trans draining)
    exact ⟨d,was,rfl,rfl,rfl⟩
  have live : s.pc.live = true := by rw [here]; rfl
  obtain ⟨pads,padding,payload,nothing⟩ := inlinePayload d policy
  by_cases inline : inlineRecords d policy = []
  · rw [inline] at out
    refine ⟨x,heldRecord held was now rfl most pending (by simpa using out) sound' drains,?_⟩
    exact .emit [] [] (by simp) (by simp) (.inl (by simp)) (by simp [Pads]) hand after queues drain (fun _ => live)
  · obtain ⟨gone,left,split,cut,whole,_⟩ := held.atBoundary was (quiet inline)
    have put := heldInsert cut _ payload whole
    refine ⟨⟨x.log ++ gone ++ pads,x.front ++ gone,left⟩,?_,?_⟩
    · refine heldRecord put was now rfl most pending ?_ ?_ drains
      · rw [out,emittedPrepared]
        rfl
      · rw [List.append_assoc,← split]
        exact sound'
    · exact .emit gone pads rfl split (.inl rfl) padding hand after queues drain (fun _ => live)

theorem finishLine (held : Held s x) (here : s.pc = .drain d) {made : Nat} (all : d.fakes.length ≤ made)
    (moved : s.finishStep d made = some t) : ∃ y, Held t y ∧ Turn s a t x y := by
  have was : drainOf s.pc = some d := by rw [here]; rfl
  unfold finishStep at moved
  split at moved
  · contradiction
  · rename_i drained
    rw [if_neg (by rw [(held.sound d was).staying]; exact Bool.false_ne_true)] at moved
    have length := congrArg List.length held.pending
    rw [valuesLength,encodeAllAppend,List.length_append] at length
    have high := held.high
    have whole : emitted s = encodeAll (x.log ++ x.rest) := by
      rw [held.out,consumedSome was,encodeAllAppend,List.take_of_length_le (by omega)]
    have fakes : (d.fakes.take made).map (fun responses => paddingRecord (paddingRequest responses)) =
        (d.fakes.map paddingRequest).map paddingRecord := by
      rw [List.take_of_length_le all,List.map_map]
      rfl
    rw [fakes] at moved
    have out : emitted (s.prepared ((d.fakes.map paddingRequest).map paddingRecord)) =
        encodeAll (x.log ++ x.rest ++ d.fakes.map paddingRequest) := by
      rw [emittedPrepared,paddingsPayload,whole,← encodeAllAppend]
    cases Option.some.inj moved
    refine ⟨⟨x.log ++ x.rest ++ d.fakes.map paddingRequest,[],[]⟩,heldIdle rfl (drainNext _) out,?_⟩
    refine .emit x.rest (d.fakes.map paddingRequest) rfl (List.append_nil _).symm (.inr ⟨rfl,rfl⟩) ?_
      ⟨by rw [here]; rfl,handNext _⟩ ?_ ⟨rfl,rfl,rfl⟩ ?_ (fun _ => by rw [here]; rfl)
    · intro f member
      obtain ⟨n,_,rfl⟩ := List.mem_map.mp member
      rfl
    · rw [here]
      exact afterNext _
    · intro e draining
      rw [drainNext] at draining
      contradiction

theorem headerFree {r : Request} {pinned : List Nat} (free : controlWriteCanPassThrough r pinned = true) :
    ∀ f ∈ r.frames, isLifecycle f.cmd = true ∧ f.sid ∉ pinned := by
  unfold controlWriteCanPassThrough at free
  rw [Bool.and_eq_true,List.all_eq_true,requestHeaders] at free
  intro f member
  have both := free.2 _ (List.mem_map_of_mem member)
  simpa [Frame.header] using both

theorem arriveLine (held : Held s x) (here : s.pc = .window d) (moved : s.arriveStep d = some t) :
    ∃ y, Held t y ∧ Turn s .arrive t x y := by
  have was : drainOf s.pc = some d := by rw [here]; rfl
  have staying := (held.sound d was).staying
  have unsticky : d.sticky = false := held.delayed d (.inl here)
  unfold arriveStep at moved
  rw [if_neg (by rw [staying]; exact Bool.false_ne_true)] at moved
  split at moved
  · contradiction
  · rename_i r rest found
    have takes : ∀ {t : State}, t.sent = s.sent → t.settings = false → Takes s t (s.withSettings r) rest :=
      fun sent settings => ⟨⟨r,found,rfl⟩,sent,settings⟩
    dsimp only at moved
    split at moved
    · rename_i may
      rw [Bool.and_eq_true,Bool.and_eq_true] at may
      obtain ⟨⟨alone,boundary⟩,free⟩ := may
      have at' : d.atBoundary = true := by
        rw [Drain.atBoundary,boundary,Bool.or_true]
      have positive : 0 < d.consumed :=
        ((held.sound d was).boundaries _ (List.contains_iff_mem.mp boundary)).1
      obtain ⟨gone,left,split,cut,whole,moves⟩ := held.atBoundary was at'
      cases Option.some.inj moved
      have kept : Held {s with pc := .through d (s.withSettings r) (s.withSettings r).packets}
          ⟨x.log ++ gone,x.front ++ gone,left⟩ := heldMoved cut was rfl (.inl unsticky) (fun _ => whole)
      refine ⟨⟨x.log ++ gone,x.front ++ gone,left⟩,heldSame kept rfl rfl rfl rfl,?_⟩
      refine .pass (s.withSettings r) rest gone d rfl (takes rfl rfl) rfl rfl split rfl
        (fun blank _ => moves positive blank) ⟨by rw [here]; rfl,rfl⟩ (by rw [here]; rfl) ?_ was
        (List.isEmpty_iff.mp alone) unsticky (headerFree free) (by rw [here]; rfl)
      intro e draining
      cases Option.some.inj draining
      exact ⟨d,was,rfl,rfl,rfl⟩
    · cases Option.some.inj moved
      have sound := held.sound d was
      refine ⟨x,⟨held.pending,?_,?_,?_,?_,?_,?_,?_⟩,?_⟩
      · have low := held.low
        rwa [consumedSome was] at low
      · have high := held.high
        rwa [consumedSome was] at high
      · have out := held.out
        rwa [consumedSome was] at out
      · intro idle
        contradiction
      · intro e draining
        cases Option.some.inj draining
        exact ⟨sound.boundaries,sound.fresh,sound.seq,sound.full,sound.wide,sound.staying⟩
      · rintro e (same | ⟨r,todo,same⟩)
        · cases same
          exact unsticky
        · contradiction
      · intro e r todo same
        contradiction
      · refine .defer (s.withSettings r) rest d _ rfl (takes rfl rfl) rfl rfl ⟨by rw [here]; rfl,rfl⟩ ?_ was rfl rfl rfl rfl
          (by rw [here]; rfl)
        rw [here]
        simp [afterOf,drainOf,Drain.waiting]

theorem packetLine (held : Held s x) {draws : List (Nat × Nat)} (moved : s.packetStep draws none = some t) :
    ∃ y, Held t y ∧ Turn s a t x y := by
  unfold packetStep at moved
  split at moved
  · rename_i d r p todo here
    obtain ⟨records,made,rfl⟩ := Option.map_eq_some_iff.mp moved
    have was : drainOf s.pc = some d := by rw [here]; rfl
    have payload : values (records.flatMap (·.payload)) = encodeAll p.frames := by
      rw [controlPayload made,packetValues]
    have whole : emitted s = encodeAll x.log := held.through d r (p::todo) here
    have put := heldInsert held records payload whole
    have kept : Held {s.prepared records with pc := .through d r todo} ⟨x.log ++ p.frames,x.front,x.rest⟩ :=
      heldMoved put was rfl (.inl (held.delayed d (.inr ⟨r,p::todo,here⟩))) (fun _ => put.through d r (p::todo) here)
    refine ⟨⟨x.log ++ p.frames,x.front,x.rest⟩,heldSame kept rfl rfl rfl rfl,?_⟩
    refine .through p.frames rfl rfl rfl ?_ (by rw [here]; rfl) ⟨rfl,rfl,rfl⟩ ?_ (by rw [here]; rfl)
    · rw [here]
      exact List.flatMap_cons
    · intro e draining
      cases Option.some.inj draining
      exact ⟨d,was,rfl,rfl,rfl⟩
  · rename_i r p todo rest here
    obtain ⟨records,made,rfl⟩ := Option.map_eq_some_iff.mp moved
    have was : drainOf s.pc = none := by rw [here]; rfl
    have payload : values (records.flatMap (·.payload)) = encodeAll p.frames := by
      rw [controlPayload made,packetValues]
    obtain ⟨noFront,noRest,whole⟩ := held.whole was
    have out : emitted (s.prepared records) = encodeAll (x.log ++ p.frames) := by
      rw [emittedPrepared,payload,whole,← encodeAllAppend]
    refine ⟨⟨x.log ++ p.frames,[],[]⟩,heldIdle (held.idle was) rfl out,?_⟩
    refine .prepare p.frames was rfl rfl noRest.symm noFront.symm ⟨by rw [here]; rfl,rfl⟩ ?_ ⟨rfl,rfl,rfl⟩
      (by rw [here]; rfl)
    rw [here]
    simp [afterOf]
  · contradiction

theorem idleStill (held : Held s x) (was : drainOf s.pc = none) (now : drainOf t.pc = none)
    (pending : t.pending = s.pending) (out : emitted t = emitted s) (queues : SameQueue s t)
    (hand : handOf t.pc = handOf s.pc) (after : afterOf t.pc = afterOf s.pc)
    (stays : t.pc.live = true → s.pc.live = true) : ∃ y, Held t y ∧ Turn s a t x y := by
  obtain ⟨noFront,noRest,whole⟩ := held.whole was
  have kept := heldIdle (pending.trans (held.idle was)) now (out.trans whole)
  obtain ⟨log,front,rest⟩ := x
  cases noFront
  cases noRest
  refine ⟨_,kept,.still rfl hand after queues ?_ stays⟩
  intro d draining
  rw [now] at draining
  contradiction

theorem drainStill (held : Held s x) (was : drainOf s.pc = some d) (now : drainOf t.pc = some d)
    (unsticky : d.sticky = false ∨ t.pc = .drain d) (whole : ∀ d r todo, t.pc ≠ .through d r todo)
    (pending : t.pending = s.pending) (out : emitted t = emitted s) (shaper : t.shaper = s.shaper)
    (queues : SameQueue s t) (hand : handOf t.pc = handOf s.pc) (after : afterOf t.pc = afterOf s.pc) :
    ∃ y, Held t y ∧ Turn s a t x y := by
  have kept : Held {s with pc := t.pc} x := heldMoved held was now unsticky (by
    rintro ⟨r,todo,here⟩
    exact absurd here (whole d r todo))
  refine ⟨x,heldSame kept pending rfl out shaper,.still rfl hand after queues ?_ (fun _ => drainLive was)⟩
  intro e draining
  cases Option.some.inj (now.symm.trans draining)
  exact ⟨d,was,rfl,rfl,rfl⟩

theorem flushLine (held : Held s x) (moved : s.flushStep true = some t) : ∃ y, Held t y ∧ Turn s a t x y := by
  unfold flushStep at moved
  split at moved
  · rename_i d r here
    cases Option.some.inj moved
    have was : drainOf s.pc = some d := by rw [here]; rfl
    refine drainStill held was rfl (.inl (held.delayed d (.inr ⟨r,[],here⟩))) ?_ rfl
      (emittedFlushed _) rfl ⟨rfl,rfl,rfl⟩ (by rw [here]; rfl) (by rw [here]; rfl)
    intro d r todo same
    contradiction
  · rename_i here
    have was : drainOf s.pc = none := by rw [here]; rfl
    split at moved
    · cases Option.some.inj moved
      exact idleStill held was rfl rfl rfl ⟨rfl,rfl,rfl⟩ (by rw [here]; rfl) (by rw [here]; rfl)
          (fun _ => by rw [here]; rfl)
    · split at moved
      · cases Option.some.inj moved
        exact idleStill held was rfl rfl rfl ⟨rfl,rfl,rfl⟩ (by rw [here]; rfl) (by rw [here]; rfl)
          (fun _ => by rw [here]; rfl)
      · cases Option.some.inj moved
        exact idleStill held was rfl rfl (emittedFlushed _) ⟨rfl,rfl,rfl⟩ (by rw [here]; rfl) (by rw [here]; rfl)
          (fun _ => by rw [here]; rfl)
  · rename_i here
    have was : drainOf s.pc = none := by rw [here]; rfl
    cases Option.some.inj moved
    exact idleStill held was rfl rfl (emittedFlushed _) ⟨rfl,rfl,rfl⟩ (by rw [here]; rfl) (by rw [here]; rfl)
      (by simp [Pc.live])
  · contradiction

theorem goawayLine (held : Held s x) (here : s.pc = .goaway) {last : Nat} (moved : s.goawayStep last true = some t) :
    ∃ y, Held t y ∧ Turn s a t x y := by
  have was : drainOf s.pc = none := by rw [here]; rfl
  unfold goawayStep at moved
  split at moved
  · cases Option.some.inj moved
    exact idleStill held was rfl rfl rfl ⟨rfl,rfl,rfl⟩ (by rw [here]; rfl) (by rw [here]; rfl)
      (by simp [Pc.live])
  · cases Option.some.inj moved
    obtain ⟨noFront,noRest,whole⟩ := held.whole was
    have out : emitted (s.prepared [paddingRecord (goawayFrame last)]) = encodeAll (x.log ++ [goawayFrame last]) := by
      rw [emittedPrepared,encodeAllAppend,← whole,← paddingsPayload]
      rfl
    refine ⟨⟨x.log ++ [goawayFrame last],[],[]⟩,heldIdle (held.idle was) rfl ((emittedFlushed _).trans out),?_⟩
    refine .emit [] [goawayFrame last] (by simp) noRest (.inr ⟨rfl,rfl⟩) ?_ ⟨by rw [here]; rfl,rfl⟩
      (by rw [here]; rfl) ⟨rfl,rfl,rfl⟩ ?_ (by simp [Pc.live])
    · intro f member
      rw [List.mem_singleton.mp member]
      rfl
    · intro d draining
      contradiction

structure Queued (s t : State) (requests queue : List Request) : Prop where
  pending : t.pending = s.pending ++ requests.flatMap Request.bytes
  queue : t.queue = queue
  sent : t.sent = s.sent
  settings : t.settings = s.settings
  pc : t.pc = s.pc
  wire : t.wire = s.wire
  buffer : t.buffer = s.buffer
  records : t.records = s.records
  closed : t.closeRequested = s.closeRequested
  batch : t.batch = s.batch
  answers : t.answers = s.answers ++ (requests.filter (·.auto)).map (fun r => (r.id,true))
  responders : t.responders = s.responders ++ (requests.filter (fun r => !r.auto)).map (·.id)

theorem Queued.out {requests queue : List Request} (queued : Queued s t requests queue) : emitted t = emitted s := by
  rw [emitted,emitted,queued.wire,queued.buffer]

theorem queuedOne (s : State) (r : Request) : Queued s (s.queueBulkRequest r) [r] s.queue := by
  unfold queueBulkRequest
  split
  · rename_i auto
    exact ⟨by simp,rfl,rfl,rfl,rfl,rfl,rfl,rfl,rfl,rfl,by simp [auto],by simp [auto]⟩
  · rename_i waits
    exact ⟨by simp,rfl,rfl,rfl,rfl,rfl,rfl,rfl,rfl,rfl,by simp [waits],by simp [waits]⟩

theorem queuedAll (requests : List Request) (s : State) :
    Queued s (requests.foldl queueBulkRequest s) requests s.queue := by
  induction requests generalizing s with
  | nil => exact ⟨by simp,rfl,rfl,rfl,rfl,rfl,rfl,rfl,rfl,rfl,by simp,by simp⟩
  | cons r rest ih =>
    have later := ih (s.queueBulkRequest r)
    have first := queuedOne s r
    rw [List.foldl_cons]
    refine ⟨?_,later.queue.trans first.queue,later.sent.trans first.sent,later.settings.trans first.settings,
      later.pc.trans first.pc,later.wire.trans first.wire,later.buffer.trans first.buffer,
      later.records.trans first.records,later.closed.trans first.closed,later.batch.trans first.batch,?_,?_⟩
    · rw [later.pending,first.pending]
      simp
    · rw [later.answers,first.answers,List.append_assoc,← List.map_append,← List.filter_append]
      rfl
    · rw [later.responders,first.responders,List.append_assoc,← List.map_append,← List.filter_append]
      rfl

theorem drained (s : State) : Queued s s.drainBulk (bulkOf s.queue) (controlOf s.queue) := by
  obtain ⟨a,_,c,d,e,f,g,h,i,j,k,l⟩ := queuedAll (bulkOf s.queue) s
  exact ⟨a,rfl,c,d,e,f,g,h,i,j,k,l⟩

section Start
variable {log frames : List Frame} (pinned : List Nat) (current : Option Request) (draw : Draw)

theorem endsOrNone {positions : List Nat} {sticky : Bool} (ends : Ends frames positions) :
    Ends frames (if sticky then [] else positions) := by
  cases sticky
  · exact ends
  · intro n member
    contradiction

theorem startHeld (pending : values s.pending = encodeAll frames) (out : emitted s = encodeAll log) :
    Held (s.startDrain pinned current false draw) ⟨log,[],frames⟩ := by
  refine ⟨pending,Nat.zero_le _,Nat.zero_le _,?_,?_,?_,?_,?_⟩
  · exact out.trans (List.append_nil _).symm
  · intro idle
    contradiction
  · intro d draining
    cases Option.some.inj draining
    refine ⟨?_,fun _ => rfl,fun _ => rfl,?_,?_,rfl⟩
    · refine endsOrNone ?_
      rw [pending,walkEncoded]
      exact offsetsEnd [] frames
    · intro p first
      dsimp only at first ⊢
      rw [first]
      refine ⟨rfl,?_⟩
      split at first
      · contradiction
      · cases Option.some.inj first
        exact TrafficShaper.fullBlockAtOnce _ _ _
    · intro p first
      dsimp only at first
      split at first
      · contradiction
      · rename_i some'
        cases Option.some.inj first
        refine TrafficShaper.targetWide _ _ _ (List.length_pos_iff.mpr ?_)
        intro empty
        exact some' (List.isEmpty_iff.mpr empty)
  · rintro d (same | ⟨r,todo,same⟩) <;> contradiction
  · intro d r todo same
    contradiction

theorem startPinned (pending : values s.pending = encodeAll frames) {d : Drain}
    (draining : drainOf (s.startDrain pinned current false draw).pc = some d) :
    d.deferred = [] ∧ (d.sticky = false →
      (∀ sid ∈ pinned, sid ∈ d.pinned) ∧ ∀ f ∈ frames, f.cmd = cmdPsh → f.sid ∈ d.pinned) := by
  cases Option.some.inj draining
  refine ⟨rfl,?_⟩
  intro unsticky
  dsimp only at unsticky ⊢
  rw [unsticky,if_neg Bool.false_ne_true,pending,walkEncoded]
  refine ⟨fun sid member => List.mem_append_left _ member,?_⟩
  intro f member psh
  apply List.mem_append_right
  refine List.mem_map.mpr ⟨f.header,?_,rfl⟩
  exact List.mem_filter.mpr ⟨List.mem_map_of_mem member,by simp [Frame.header,psh]⟩

end Start

theorem takeControlPerm {queue rest : List Request} {r : Request} (found : takeControl queue = some (r,rest)) :
    queue.Perm (r::rest) := by
  induction queue generalizing rest with
  | nil => contradiction
  | cons first later ih =>
    unfold takeControl at found
    split at found
    · cases Option.some.inj found
      exact .refl _
    · obtain ⟨⟨r',rest'⟩,more,same⟩ := Option.map_eq_some_iff.mp found
      cases same
      exact ((ih more).cons first).trans (.swap _ _ _)

theorem takeControlParts {queue rest : List Request} {r : Request} (found : takeControl queue = some (r,rest)) :
    bulkOf queue = bulkOf rest ∧ controlOf queue = r::controlOf rest := by
  induction queue generalizing rest with
  | nil => contradiction
  | cons first more ih =>
    unfold takeControl at found
    split at found
    · rename_i control
      cases Option.some.inj found
      simp [bulkOf,controlOf,control]
    · rename_i bulk
      obtain ⟨⟨r',rest'⟩,again,same⟩ := Option.map_eq_some_iff.mp found
      cases same
      have parts := ih again
      simpa [bulkOf,controlOf,bulk] using parts

theorem controlCases (moved : s.controlStep draw = some t) : ∃ r rest, takeControl s.queue = some (r,rest) ∧
    (s.closeRequested = true ∧ t = s.refuse r rest ∨ s.closeRequested = false ∧
      ∃ u, u = State.drainBulk {s with queue := rest,settings := false} ∧
        (t = (u.queueBulkRequest (s.withSettings r)).startDrain (s.withSettings r).sids none false draw ∧
            (s.withSettings r).carriesStreamData = true ∨
          (s.withSettings r).carriesStreamData = false ∧
            (u.pending = [] ∧ t = {u with pc := .prepare (s.withSettings r) (s.withSettings r).packets []} ∨
              u.pending ≠ [] ∧ t = u.startDrain (s.withSettings r).sids (some (s.withSettings r)) false draw))) := by
  unfold controlStep at moved
  split at moved
  · contradiction
  · rename_i r rest found
    refine ⟨r,rest,found,?_⟩
    split at moved
    · exact .inl ⟨‹_›,(Option.some.inj moved).symm⟩
    · rename_i opened
      refine .inr ⟨Bool.eq_false_iff.mpr opened,_,rfl,?_⟩
      dsimp only at moved
      split at moved
      · exact .inl ⟨(Option.some.inj moved).symm,‹_›⟩
      · rename_i plain
        refine .inr ⟨Bool.eq_false_iff.mpr plain,?_⟩
        split at moved
        · exact .inl ⟨List.isEmpty_iff.mp ‹_›,(Option.some.inj moved).symm⟩
        · rename_i waits
          exact .inr ⟨fun empty => waits (List.isEmpty_iff.mpr empty),(Option.some.inj moved).symm⟩

theorem allBulk {queue : List Request} (empty : controlOf queue = []) : bulkOf queue = queue := by
  rw [bulkOf,List.filter_eq_self]
  intro r member
  have bulk := List.filter_eq_nil_iff.mp empty r member
  simpa using bulk

theorem bulkCases (moved : s.bulkStep draw = some t) : controlOf s.queue = [] ∧ bulkOf s.queue = s.queue ∧
    ∃ r rest, s.queue = r::rest ∧
      (s.closeRequested = true ∧ t = s.refuse r rest ∨ s.closeRequested = false ∧
        (s.drainBulk.pending = [] ∧ t = {s.drainBulk with pc := .merge} ∨
          t = s.drainBulk.startDrain [] none false draw)) := by
  unfold bulkStep at moved
  split at moved
  · rename_i noControl
    have noControl := List.isEmpty_iff.mp noControl
    refine ⟨noControl,allBulk noControl,?_⟩
    cases first : s.queue with
    | nil =>
      rw [first] at moved
      contradiction
    | cons r rest =>
      rw [first] at moved
      refine ⟨r,rest,rfl,?_⟩
      dsimp only at moved
      split at moved
      · exact .inl ⟨‹_›,(Option.some.inj moved).symm⟩
      · rename_i opened
        refine .inr ⟨Bool.eq_false_iff.mpr opened,?_⟩
        split at moved
        · exact .inl ⟨List.isEmpty_iff.mp ‹_›,(Option.some.inj moved).symm⟩
        · exact .inr (Option.some.inj moved).symm
  · contradiction

theorem refusedLine (held : Held s x) (here : s.pc = .select) (closed : s.closeRequested = true) {r : Request}
    {rest : List Request} (found : s.queue.Perm (r::rest)) : ∃ y, Held (s.refuse r rest) y ∧ Turn s a (s.refuse r rest) x y := by
  have was : drainOf s.pc = none := by rw [here]; rfl
  obtain ⟨noFront,noRest,whole⟩ := held.whole was
  refine ⟨x,?_,.refuse r rest rfl found rfl rfl rfl (by simp [State.refuse]) closed here rfl⟩
  obtain ⟨log,front,rest⟩ := x
  cases noFront
  cases noRest
  exact heldIdle (held.idle was) rfl whole

theorem controlLine (held : Held s x) (here : s.pc = .select) (moved : s.controlStep draw = some t) :
    ∃ y, Held t y ∧ Turn s (.control draw) t x y := by
  have was : drainOf s.pc = none := by rw [here]; rfl
  obtain ⟨_,_,whole⟩ := held.whole was
  have idle : drainOf s.pc = none ∧ afterOf s.pc = [] ∧ handOf s.pc = [] := by rw [here]; exact ⟨rfl,rfl,rfl⟩
  obtain ⟨r,rest,found,⟨closed,rfl⟩ | ⟨_,u,same,outcome⟩⟩ := controlCases moved
  · exact refusedLine held here closed (takeControlPerm found)
  · have takes : ∀ {t : State}, t.sent = s.sent → t.settings = false → Takes s t (s.withSettings r) rest :=
      fun sent settings => ⟨⟨r,found,rfl⟩,sent,settings⟩
    generalize s.withSettings r = full at outcome takes
    have taken := drained {s with queue := rest,settings := false}
    rw [← same] at taken
    have out := taken.out
    obtain ⟨pending,queue,sent,settings,_⟩ := taken
    rw [show (State.pending {s with queue := rest,settings := false}) = [] from held.idle was,List.nil_append] at pending
    have bulk : values u.pending = encodeAll ((bulkOf rest).flatMap Request.frames) := by
      rw [pending,requestsValues]
    have out' : emitted u = encodeAll x.log := out.trans whole
    obtain ⟨rfl,_⟩ | ⟨_,⟨empty,rfl⟩ | ⟨waits,rfl⟩⟩ := outcome
    · have queued := queuedOne u full
      have both : values (u.queueBulkRequest full).pending =
          encodeAll ((bulkOf rest).flatMap Request.frames ++ full.frames) := by
        rw [queued.pending,valuesAppend,bulk,encodeAllAppend,requestsValues]
        simp
      refine ⟨_,startHeld full.sids none draw both (queued.out.trans out'),?_⟩
      exact .control full rest draw rfl (takes (queued.sent.trans sent) (queued.settings.trans settings))
        (queued.queue.trans queue) idle
        rfl rfl rfl (.inl ⟨rfl,rfl⟩) (fun d draining => startPinned full.sids none draw both draining) here
    · have none' : (bulkOf rest).flatMap Request.frames = [] := by
        rw [empty,valuesNil] at bulk
        exact encodeEmpty (by rw [← bulk]; rfl)
      refine ⟨⟨x.log,[],[]⟩,heldIdle empty rfl out',?_⟩
      refine .control full rest draw rfl (takes sent settings) queue idle rfl rfl rfl
        (.inr ⟨none'.symm,by simp [afterOf,Request.frames],.inl rfl⟩) ?_ here
      intro d draining
      contradiction
    · have backlog : (bulkOf rest).flatMap Request.frames ≠ [] := by
        intro none'
        rw [none',encodeAllNil] at bulk
        exact waits (List.map_eq_nil_iff.mp bulk)
      refine ⟨_,startHeld full.sids (some full) draw bulk out',?_⟩
      exact .control full rest draw rfl (takes sent settings) queue idle rfl rfl rfl
        (.inr ⟨rfl,by simp [afterOf,drainOf,startDrain,Drain.waiting],.inr backlog⟩)
        (fun d draining => startPinned full.sids (some full) draw bulk draining) here

theorem bulkLine (held : Held s x) (here : s.pc = .select) (moved : s.bulkStep draw = some t) :
    ∃ y, Held t y ∧ Turn s a t x y := by
  have was : drainOf s.pc = none := by rw [here]; rfl
  obtain ⟨_,_,whole⟩ := held.whole was
  have idle : drainOf s.pc = none ∧ afterOf s.pc = [] ∧ handOf s.pc = [] := by rw [here]; exact ⟨rfl,rfl,rfl⟩
  obtain ⟨noControl,allBulk,r,rest,first,⟨closed,rfl⟩ | ⟨_,outcome⟩⟩ := bulkCases moved
  · exact refusedLine held here closed (by rw [first])
  · obtain ⟨pending,queue,sent,settings,_⟩ := drained s
    have out := (drained s).out
    rw [held.idle was,List.nil_append,allBulk] at pending
    generalize s.drainBulk = u at *
    have bulk : values u.pending = encodeAll (s.queue.flatMap Request.frames) := by
      rw [pending,requestsValues]
    obtain ⟨empty,rfl⟩ | rfl := outcome
    · have none' : s.queue.flatMap Request.frames = [] := by
        rw [empty,valuesNil] at bulk
        exact encodeEmpty (by rw [← bulk]; rfl)
      refine ⟨⟨x.log,[],[]⟩,heldIdle empty rfl (out.trans whole),?_⟩
      refine .bulk noControl (queue.trans noControl) sent settings idle rfl rfl rfl rfl none'.symm ?_ here
      intro d draining
      contradiction
    · refine ⟨_,startHeld [] none draw bulk (out.trans whole),?_⟩
      refine .bulk noControl (queue.trans noControl) sent settings idle rfl rfl rfl rfl rfl ?_ here
      intro d draining
      obtain ⟨a,b⟩ := startPinned [] none draw bulk draining
      exact ⟨a,fun unsticky => (b unsticky).2⟩

theorem stepLine (held : Held s x) (clean : faultless s a = true) (moved : step s a = some t) :
    ∃ y, Held t y ∧ Turn s a t x y := by
  cases a with
  | send control auto packets =>
    simp only [step] at moved
    split at moved
    · contradiction
    · cases Option.some.inj moved
      exact ⟨x,heldSame held rfl rfl rfl rfl,.send control auto packets rfl rfl rfl rfl rfl rfl⟩
  | close =>
    cases Option.some.inj moved
    refine ⟨x,heldSame held rfl rfl rfl rfl,.still rfl rfl rfl ⟨rfl,rfl,rfl⟩ (fun d draining => ⟨d,draining,rfl,rfl,rfl⟩) id⟩
  | hangUp =>
    cases Option.some.inj moved
    refine ⟨x,heldSame held rfl rfl rfl rfl,.still rfl rfl rfl ⟨rfl,rfl,rfl⟩ (fun d draining => ⟨d,draining,rfl,rfl,rfl⟩) id⟩
  | exit =>
    simp only [step] at moved
    split at moved
    · rename_i here
      cases Option.some.inj moved
      exact idleStill held (by rw [here.1]; rfl) rfl rfl rfl ⟨rfl,rfl,rfl⟩ (by rw [here.1]; rfl) (by rw [here.1]; rfl)
        (by simp [Pc.live])
    · contradiction
  | control draw =>
    simp only [step] at moved
    split at moved
    · exact controlLine held ‹_› moved
    · contradiction
  | bulk draw =>
    simp only [step] at moved
    split at moved
    · exact bulkLine held ‹_› moved
    · contradiction
  | record draw fault =>
    simp only [step] at moved
    split at moved
    · cases of_decide_eq_true clean
      exact recordLine held ‹_› moved
    · contradiction
  | finish made =>
    simp only [step] at moved
    split at moved
    · rename_i d here
      simp only [faultless,here,drainOf,Option.all_some,decide_eq_true_eq] at clean
      exact finishLine held here clean moved
    · contradiction
  | arrive =>
    simp only [step] at moved
    split at moved
    · exact arriveLine held ‹_› moved
    · contradiction
  | windowEnd =>
    simp only [step] at moved
    split at moved
    · rename_i d here
      cases Option.some.inj moved
      refine drainStill held (by rw [here]; rfl) rfl (.inr rfl) ?_ rfl rfl rfl ⟨rfl,rfl,rfl⟩ (by rw [here]; rfl)
        (by rw [here]; rfl)
      intro d r todo same
      contradiction
    · contradiction
  | packet draws fault =>
    cases fault with
    | none => exact packetLine held moved
    | some made => contradiction
  | ready =>
    simp only [step] at moved
    split at moved
    · rename_i r rest here
      cases Option.some.inj moved
      exact idleStill held (by rw [here]; rfl) (drainNext rest) rfl rfl ⟨rfl,rfl,rfl⟩ (by rw [here]; exact handNext rest)
        (by rw [here]; exact afterNext rest) (fun _ => by rw [here]; rfl)
    · contradiction
  | flush ok =>
    cases ok with
    | true => exact flushLine held moved
    | false => contradiction
  | leave draw =>
    simp only [step] at moved
    split at moved
    · rename_i here
      have was : drainOf s.pc = none := by rw [here]; rfl
      rw [if_pos (List.isEmpty_iff.mpr (held.idle was))] at moved
      cases Option.some.inj moved
      exact idleStill held was rfl rfl rfl ⟨rfl,rfl,rfl⟩ (by rw [here]; rfl) (by rw [here]; rfl)
        (by simp [Pc.live])
    · contradiction
  | goaway last ok =>
    simp only [step] at moved
    split at moved
    · cases ok with
      | true => exact goawayLine held ‹_› moved
      | false => contradiction
    · contradiction

theorem startLine (client postScriptOff : Bool) (script : List ScriptRule) (stop : Nat) :
    Held (start client postScriptOff script stop) ⟨[],[],[]⟩ := heldIdle rfl rfl rfl

end Steps

end KanoTls.Writer
