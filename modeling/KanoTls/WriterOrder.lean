import KanoTls.WriterStream

/-! The order of a stream's frames on the wire. `Ordered` says that the frames of a
stream come in the order of their requests, wherever they are: on the wire, in the
backlog, waiting for the drain or in the channels. It needs that no frame overtakes one
of its stream on the way from the two channels, which is the condition `Orderly`. -/
namespace KanoTls.Writer
open Wire Shaper Uot State

def tracked (cmd : UInt8) : Bool := cmd == cmdSyn || cmd == cmdSynack || cmd == cmdPsh || cmd == cmdFin

def ofStream (sid : Nat) (frames : List Frame) : List Frame := frames.filter (fun f => f.sid == sid && tracked f.cmd)

def apart (one two : Request) : Bool :=
  one.frames.all (fun f => two.frames.all (fun g => !(tracked f.cmd && tracked g.cmd && f.sid == g.sid)))

/- A control request is apart from the bulk requests behind it. -/
def sorted : List Request → Bool
  | [] => true
  | r::rest => (!r.control || (bulkOf rest).all (apart r)) && sorted rest

/- The first control request is apart from the bulk requests before it. -/
def clear (queue : List Request) : Bool :=
  (takeControl queue).all (fun found => (queue.takeWhile (fun r => !r.control)).all (apart found.1))

def orderly (s : State) : Action → Bool
  | .send control _ packets => control || packets.all (fun frames => frames.all (fun f => f.cmd == cmdPsh))
  | .control _ => sorted s.queue && (!s.settings || (bulkOf s.queue).isEmpty)
  | .arrive => clear s.queue
  | _ => true

abbrev Orderly (s : State) (a : Action) : Prop := faultless s a = true ∧ orderly s a = true

def flow (s : State) (x : Split) : List Frame := x.log ++ handOf s.pc ++ x.rest ++ afterOf s.pc

section Streams
variable (sid : Nat)

@[simp] theorem ofStreamNil : ofStream sid [] = [] := rfl

@[simp] theorem ofStreamAppend (front back : List Frame) :
    ofStream sid (front ++ back) = ofStream sid front ++ ofStream sid back := List.filter_append ..

theorem ofStreamPads {pads : List Frame} (padding : Pads pads) : ofStream sid pads = [] := by
  unfold ofStream
  rw [List.filter_eq_nil_iff]
  intro f member
  rw [padding f member]
  simp [show tracked cmdPadding = false from rfl]

theorem ofStreamSettings (s : State) : ofStream sid (settingsOf s) = [] := by
  unfold settingsOf
  split
  · rw [ofStream,List.filter_eq_nil_iff]
    intro f member
    rw [List.mem_singleton.mp member]
    simp [show tracked settingsFrame.cmd = false from rfl]
  · rfl

theorem apartStream {one two : Request} (apart' : apart one two = true) :
    ofStream sid one.frames = [] ∨ ofStream sid two.frames = [] := by
  by_cases none : ofStream sid one.frames = []
  · exact .inl none
  · obtain ⟨f,member⟩ := List.exists_mem_of_ne_nil _ none
    obtain ⟨inside,same⟩ := List.mem_filter.mp member
    refine .inr (List.filter_eq_nil_iff.mpr ?_)
    intro g inside' same'
    have away := List.all_eq_true.mp (List.all_eq_true.mp apart' f inside) g inside'
    simp only [Bool.and_eq_true,beq_iff_eq,Bool.not_eq_true',Bool.and_eq_false_iff] at same same' away
    rcases away with (away | away) | away
    · rw [same.2] at away
      contradiction
    · rw [same'.2] at away
      contradiction
    · exact absurd (same.1.trans same'.1.symm) (by simpa using away)

theorem apartAll {one : Request} {others : List Request} (all : others.all (apart one) = true) :
    ofStream sid one.frames = [] ∨ ofStream sid (framesOf others) = [] := by
  induction others with
  | nil => exact .inr rfl
  | cons r rest ih =>
    rw [List.all_cons,Bool.and_eq_true] at all
    rcases ih all.2 with none | none
    · exact .inl none
    · refine (apartStream sid all.1).imp id ?_
      intro none'
      simp only [framesOf,List.flatMap_cons,ofStreamAppend] at none ⊢
      rw [none',none]
      rfl

theorem sortedStream {queue : List Request} (sorted' : sorted queue = true) :
    ofStream sid (framesOf (bulkOf queue)) ++ ofStream sid (framesOf (controlOf queue)) = ofStream sid (framesOf queue) := by
  induction queue with
  | nil => rfl
  | cons r rest ih =>
    rw [sorted,Bool.and_eq_true] at sorted'
    have rest' := ih sorted'.2
    have whole : ofStream sid (framesOf (r::rest)) = ofStream sid r.frames ++ ofStream sid (framesOf rest) := by
      simp [framesOf]
    rw [whole,← rest']
    cases control : r.control with
    | false =>
      have moved : bulkOf (r::rest) = r::bulkOf rest ∧ controlOf (r::rest) = controlOf rest := by
        simp [bulkOf,controlOf,control]
      rw [moved.1,moved.2]
      simp [framesOf]
    | true =>
      have moved : bulkOf (r::rest) = bulkOf rest ∧ controlOf (r::rest) = r::controlOf rest := by
        simp [bulkOf,controlOf,control]
      have away : (bulkOf rest).all (apart r) = true := by simpa [control] using sorted'.1
      rw [moved.1,moved.2,show framesOf (r::controlOf rest) = r.frames ++ framesOf (controlOf rest) from rfl,ofStreamAppend]
      rcases apartAll sid away with none | none <;> rw [none] <;> simp

theorem takeControlSplit {queue rest : List Request} {r : Request} (found : takeControl queue = some (r,rest)) :
    ∃ later, queue = queue.takeWhile (fun r => !r.control) ++ r::later ∧
      rest = queue.takeWhile (fun r => !r.control) ++ later := by
  induction queue generalizing rest with
  | nil => contradiction
  | cons first more ih =>
    unfold takeControl at found
    split at found
    · rename_i control
      cases Option.some.inj found
      exact ⟨more,by simp [control],by simp [control]⟩
    · rename_i bulk
      obtain ⟨⟨r',rest'⟩,again,same⟩ := Option.map_eq_some_iff.mp found
      cases same
      obtain ⟨later,whole,without⟩ := ih again
      refine ⟨later,?_,?_⟩
      · simpa [bulk] using whole
      · simpa [bulk] using without

end Streams

structure Ordered (s : State) (x : Split) : Prop where
  behind : ∀ sid, ofStream sid (flow s x) <+: ofStream sid (framesOf s.sent)
  line : s.pc.live = true → ∀ sid,
    ofStream sid (flow s x) ++ ofStream sid (framesOf s.queue) = ofStream sid (framesOf s.sent)
  bulk : ∀ r ∈ s.queue, r.control = false → ∀ f ∈ r.frames, f.cmd = cmdPsh
  pinned : ∀ d, drainOf s.pc = some d → d.sticky = false → ∀ f ∈ x.rest ++ afterOf s.pc,
    tracked f.cmd = true → f.sid ∈ d.pinned

section Step
variable {s t : State} {x y : Split} {a : Action}

theorem orderedLive (line : ∀ sid, ofStream sid (flow t y) ++ ofStream sid (framesOf t.queue) = ofStream sid (framesOf t.sent))
    (bulk : ∀ r ∈ t.queue, r.control = false → ∀ f ∈ r.frames, f.cmd = cmdPsh)
    (pinned : ∀ d, drainOf t.pc = some d → d.sticky = false → ∀ f ∈ y.rest ++ afterOf t.pc,
      tracked f.cmd = true → f.sid ∈ d.pinned) : Ordered t y :=
  ⟨fun sid => ⟨_,line sid⟩,fun _ => line,bulk,pinned⟩

theorem orderedSame (ordered : Ordered s x) (queues : SameQueue s t) (drain : SameDrain s t)
    (stays : t.pc.live = true → s.pc.live = true) (same : ∀ sid, ofStream sid (flow t y) = ofStream sid (flow s x))
    (fewer : ∀ f ∈ y.rest ++ afterOf t.pc, f ∈ x.rest ++ afterOf s.pc) : Ordered t y := by
  refine ⟨?_,?_,?_,?_⟩
  · intro sid
    rw [same,queues.sent]
    exact ordered.behind sid
  · intro live sid
    rw [same,queues.sent,queues.queue]
    exact ordered.line (stays live) sid
  · rw [queues.queue]
    exact ordered.bulk
  · intro e draining unsticky f member track
    obtain ⟨d,was,pinned,sticky,_⟩ := drain e draining
    rw [pinned]
    exact ordered.pinned d was (sticky ▸ unsticky) f (fewer f member) track

theorem clearStream {first : Request} {queue : List Request} (clear' : clear s.queue = true)
    (found : takeControl s.queue = some (first,queue)) (sid : Nat) :
    ofStream sid first.frames ++ ofStream sid (framesOf queue) = ofStream sid (framesOf s.queue) := by
  have away : (s.queue.takeWhile (fun r => !r.control)).all (apart first) = true := by
    rw [clear,found] at clear'
    exact clear'
  obtain ⟨later,whole,without⟩ := takeControlSplit found
  generalize s.queue.takeWhile (fun r => !r.control) = bulks at *
  rw [whole,without]
  simp only [framesAppend,ofStreamAppend]
  have cons : ofStream sid (framesOf (first::later)) = ofStream sid first.frames ++ ofStream sid (framesOf later) := by
    simp [framesOf]
  rw [cons]
  rcases apartAll sid away with none | none <;> rw [none] <;> simp

theorem sortedTaken {first : Request} {queue : List Request} (sorted' : sorted s.queue = true)
    (found : takeControl s.queue = some (first,queue)) (sid : Nat) :
    ofStream sid (framesOf (bulkOf queue)) ++ ofStream sid first.frames ++ ofStream sid (framesOf (controlOf queue)) =
      ofStream sid (framesOf s.queue) := by
  obtain ⟨bulks,controls⟩ := takeControlParts found
  rw [← sortedStream sid sorted',bulks,controls]
  simp [framesOf]

theorem stillBulk (ordered : Ordered s x) {r : Request} {queue : List Request} (takes : Takes s t r queue)
    (fewer : ∀ q ∈ t.queue, q ∈ queue) : ∀ q ∈ t.queue, q.control = false → ∀ f ∈ q.frames, f.cmd = cmdPsh := by
  obtain ⟨first,found,_⟩ := takes.found
  intro q member
  exact ordered.bulk q ((takeControlPerm found).symm.subset (List.mem_cons_of_mem _ (fewer q member)))

theorem freeStream {one two : List Frame} {pinned : List Nat} (free : ∀ f ∈ one, f.sid ∉ pinned)
    (covered : ∀ f ∈ two, tracked f.cmd = true → f.sid ∈ pinned) (sid : Nat) :
    ofStream sid one = [] ∨ ofStream sid two = [] := by
  by_cases inside : sid ∈ pinned
  · refine .inl (List.filter_eq_nil_iff.mpr ?_)
    intro f member same
    rw [Bool.and_eq_true,beq_iff_eq] at same
    exact free f member (same.1 ▸ inside)
  · refine .inr (List.filter_eq_nil_iff.mpr ?_)
    intro f member same
    rw [Bool.and_eq_true,beq_iff_eq] at same
    exact inside (same.1 ▸ covered f member same.2)

theorem takenStream {r : Request} {queue : List Request} (takes : Takes s t r queue) (sid : Nat) : ∃ first,
    takeControl s.queue = some (first,queue) ∧ ofStream sid r.frames = ofStream sid first.frames := by
  obtain ⟨first,found,rfl⟩ := takes.found
  exact ⟨first,found,by rw [withSettingsFrames,ofStreamAppend,ofStreamSettings,List.nil_append]⟩

theorem bulkFrames (ordered : Ordered s x) {requests : List Request} (inside : ∀ r ∈ requests, r ∈ s.queue) :
    ∀ f ∈ framesOf (bulkOf requests), f.cmd = cmdPsh := by
  intro f member
  obtain ⟨r,here,member⟩ := List.mem_flatMap.mp member
  obtain ⟨listed,control⟩ := List.mem_filter.mp here
  exact ordered.bulk r (inside r listed) (by simpa using control) f member

theorem orderedSend {control auto : Bool} {packets : List (List Frame)} (ordered : Ordered s x) (meets : Orderly s a)
    (submits : a = .send control auto packets) (same : y = x) (pc : t.pc = s.pc)
    (queue : t.queue = s.queue ++ [s.newRequest control auto packets])
    (sent : t.sent = s.sent ++ [s.newRequest control auto packets]) : Ordered t y := by
  have flows : flow t y = flow s x := by rw [flow,same,pc]; rfl
  refine ⟨?_,?_,?_,?_⟩
  · intro sid
    rw [flows,sent,framesAppend,ofStreamAppend]
    exact (ordered.behind sid).trans (List.prefix_append _ _)
  · intro live sid
    rw [flows,sent,queue,framesAppend,framesAppend,ofStreamAppend,ofStreamAppend,← List.append_assoc,
      ordered.line (pc ▸ live) sid]
  · rw [queue]
    intro r member bulk
    rcases List.mem_append.mp member with old | new
    · exact ordered.bulk r old bulk
    · cases List.mem_singleton.mp new
      have promise := meets.2
      rw [submits,orderly,show control = false from bulk,Bool.false_or] at promise
      intro f inside
      obtain ⟨p,listed,inside⟩ := List.mem_flatMap.mp inside
      obtain ⟨frames,asked,rfl⟩ := List.mem_map.mp listed
      exact beq_iff_eq.mp (List.all_eq_true.mp (List.all_eq_true.mp promise frames asked) f inside)
  · rw [same,pc]
    exact ordered.pinned

/- A control request passes the window: none of its streams is pinned, so nothing of them waits
in the backlog, and nothing of them is queued in front of it. -/
theorem orderedPass {r : Request} {queue : List Request} {gone : List Frame} {d : Drain} (ordered : Ordered s x)
    (meets : Orderly s a) (arrives : a = .arrive) (takes : Takes s t r queue) (rest : t.queue = queue)
    (log : y.log = x.log ++ gone) (split : x.rest = gone ++ y.rest)
    (hand : handOf s.pc = [] ∧ handOf t.pc = r.frames) (after : afterOf t.pc = afterOf s.pc) (drain : SameDrain s t)
    (draining : drainOf s.pc = some d) (delayed : d.sticky = false)
    (free : ∀ f ∈ r.frames, isLifecycle f.cmd = true ∧ f.sid ∉ d.pinned) (live : s.pc.live = true) : Ordered t y := by
  have clear' : clear s.queue = true := by
    have promise := meets.2
    rwa [arrives] at promise
  have covered : ∀ f ∈ y.rest ++ afterOf s.pc, tracked f.cmd = true → f.sid ∈ d.pinned := by
    intro f member
    refine ordered.pinned d draining delayed f ?_
    rw [split]
    rcases List.mem_append.mp member with inside | inside
    · exact List.mem_append_left _ (List.mem_append_right _ inside)
    · exact List.mem_append_right _ inside
  refine orderedLive ?_ (stillBulk ordered takes (by rw [rest]; exact fun _ => id)) ?_
  · intro sid
    obtain ⟨first,found,same⟩ := takenStream takes sid
    have line := ordered.line live sid
    have queues := clearStream clear' found sid
    have swap := freeStream (fun f member => (free f member).2) covered sid
    rw [ofStreamAppend,same] at swap
    rw [takes.sent,← line,← queues,rest]
    simp only [flow,log,split,hand.1,hand.2,after,same,ofStreamAppend,List.append_nil]
    rcases swap with none | none
    · rw [none]
      simp
    · obtain ⟨noRest,noAfter⟩ := List.append_eq_nil_iff.mp none
      rw [noRest,noAfter]
      simp
  · intro e now _ f member track
    obtain ⟨d',was,pinned,_⟩ := drain e now
    cases Option.some.inj (draining.symm.trans was)
    rw [pinned]
    rw [after] at member
    exact covered f member track

theorem orderedDefer {r : Request} {queue : List Request} {d e : Drain} (ordered : Ordered s x) (meets : Orderly s a)
    (arrives : a = .arrive) (takes : Takes s t r queue) (rest : t.queue = queue) (same : y = x)
    (hand : handOf s.pc = [] ∧ handOf t.pc = []) (after : afterOf t.pc = afterOf s.pc ++ r.frames)
    (was : drainOf s.pc = some d) (now : drainOf t.pc = some e) (sticky : e.sticky = d.sticky)
    (pinned : e.pinned = d.pinned ++ r.sids) (live : s.pc.live = true) : Ordered t y := by
  have clear' : clear s.queue = true := by
    have promise := meets.2
    rwa [arrives] at promise
  refine orderedLive ?_ (stillBulk ordered takes (by rw [rest]; exact fun _ => id)) ?_
  · intro sid
    obtain ⟨first,found,alike⟩ := takenStream takes sid
    have line := ordered.line live sid
    have queues := clearStream clear' found sid
    rw [takes.sent,← line,← queues,rest]
    simp only [flow,same,hand.1,hand.2,after,alike,ofStreamAppend,List.append_assoc]
  · intro e' draining unsticky f member track
    cases Option.some.inj (now.symm.trans draining)
    rw [same,after,← List.append_assoc] at member
    rw [pinned]
    rcases List.mem_append.mp member with inside | inside
    · exact List.mem_append_left _ (ordered.pinned d was (sticky ▸ unsticky) f inside track)
    · rw [requestSids]
      exact List.mem_append_right _ (List.mem_map_of_mem inside)

/- The select takes a control request, and the bulk requests that wait go in front of it. -/
theorem orderedControl {r : Request} {queue : List Request} {draw : Draw} (ordered : Ordered s x) (held : Held s x)
    (meets : Orderly s a) (chosen : a = .control draw) (takes : Takes s t r queue) (rest : t.queue = controlOf queue)
    (was : drainOf s.pc = none ∧ afterOf s.pc = [] ∧ handOf s.pc = []) (log : y.log = x.log) (hand : handOf t.pc = [])
    (frames : y.rest = (bulkOf queue).flatMap Request.frames ++ r.frames ∧ afterOf t.pc = [] ∨
      y.rest = (bulkOf queue).flatMap Request.frames ∧ afterOf t.pc = r.frames ∧ (drainOf t.pc = none ∨ y.rest ≠ []))
    (pinned : ∀ d, drainOf t.pc = some d → d.deferred = [] ∧ (d.sticky = false →
      (∀ sid ∈ r.sids, sid ∈ d.pinned) ∧ ∀ f ∈ y.rest, f.cmd = cmdPsh → f.sid ∈ d.pinned)) (live : s.pc = .select) :
    Ordered t y := by
  have sorted' : sorted s.queue = true := by
    have promise := meets.2
    rw [chosen,orderly,Bool.and_eq_true] at promise
    exact promise.1
  obtain ⟨_,noRest,_⟩ := held.whole was.1
  have bulks : ∀ f ∈ framesOf (bulkOf queue), f.cmd = cmdPsh := by
    obtain ⟨first,found,_⟩ := takes.found
    exact bulkFrames ordered (fun q member => (takeControlPerm found).symm.subset (List.mem_cons_of_mem _ member))
  refine orderedLive ?_ (stillBulk ordered takes (by rw [rest]; exact fun q member => (List.mem_filter.mp member).1)) ?_
  · intro sid
    obtain ⟨first,found,alike⟩ := takenStream takes sid
    have line := ordered.line (by rw [live]; rfl) sid
    have queues := sortedTaken sorted' found sid
    rw [takes.sent,← line,← queues,rest]
    have flows : ofStream sid (flow t y) = ofStream sid x.log ++ ofStream sid (framesOf (bulkOf queue)) ++
        ofStream sid first.frames := by
      obtain ⟨now,later⟩ | ⟨now,later,_⟩ := frames
      all_goals
        simp only [flow,log,hand,now,later,ofStreamAppend,alike,List.append_nil,List.append_assoc]
        rfl
    rw [flows,flow,noRest,was.2.1,was.2.2]
    simp
  · intro d draining unsticky f member track
    obtain ⟨own,data⟩ := (pinned d draining).2 unsticky
    have either : (f ∈ y.rest ∧ f ∈ framesOf (bulkOf queue)) ∨ f ∈ r.frames := by
      obtain ⟨now,later⟩ | ⟨now,later,_⟩ := frames
      · rw [later,List.append_nil] at member
        rw [now] at member ⊢
        rcases List.mem_append.mp member with inside | inside
        · exact .inl ⟨List.mem_append_left _ inside,inside⟩
        · exact .inr inside
      · rw [later] at member
        rcases List.mem_append.mp member with inside | inside
        · exact .inl ⟨inside,by rw [now] at inside; exact inside⟩
        · exact .inr inside
    rcases either with ⟨here,inside⟩ | inside
    · exact data f here (bulks f inside)
    · exact own _ (by rw [requestSids]; exact List.mem_map_of_mem inside)

theorem orderedBulk (ordered : Ordered s x) (held : Held s x) (empty : controlOf s.queue = []) (rest : t.queue = [])
    (sent : t.sent = s.sent) (was : drainOf s.pc = none ∧ afterOf s.pc = [] ∧ handOf s.pc = []) (log : y.log = x.log)
    (hand : handOf t.pc = []) (after : afterOf t.pc = []) (frames : y.rest = s.queue.flatMap Request.frames)
    (pinned : ∀ d, drainOf t.pc = some d → d.deferred = [] ∧
      (d.sticky = false → ∀ f ∈ y.rest, f.cmd = cmdPsh → f.sid ∈ d.pinned)) (live : s.pc = .select) : Ordered t y := by
  obtain ⟨_,noRest,_⟩ := held.whole was.1
  refine orderedLive ?_ ?_ ?_
  · intro sid
    have line := ordered.line (by rw [live]; rfl) sid
    rw [sent,← line,rest,flow,flow,log,hand,after,frames,noRest,was.2.1,was.2.2]
    simp [framesOf]
  · rw [rest]
    intro r member
    contradiction
  · intro d draining unsticky f member _
    rw [after,List.append_nil] at member
    refine (pinned d draining).2 unsticky f member ?_
    rw [frames] at member
    obtain ⟨r,listed,inside⟩ := List.mem_flatMap.mp member
    refine ordered.bulk r listed ?_ f inside
    have bulk := List.filter_eq_nil_iff.mp empty r listed
    simpa using bulk

theorem orderedRefuse {r : Request} {queue : List Request} (ordered : Ordered s x) (same : y = x)
    (found : s.queue.Perm (r::queue)) (rest : t.queue = queue) (sent : t.sent = s.sent) (idle : s.pc = .select)
    (leaving : t.pc = .leaving) : Ordered t y := by
  refine ⟨?_,?_,?_,?_⟩
  · intro sid
    have behind := ordered.behind sid
    rw [flow,idle] at behind
    rw [sent,flow,same,leaving]
    exact behind
  · intro live
    rw [leaving] at live
    contradiction
  · rw [rest]
    exact fun q member => ordered.bulk q (found.symm.subset (List.mem_cons_of_mem _ member))
  · intro d draining
    rw [leaving] at draining
    contradiction

theorem orderedStep (ordered : Ordered s x) (held : Held s x) (meets : Orderly s a)
    (turn : Turn s a t x y) : Ordered t y := by
  cases turn with
  | still same hand after queues drain stays =>
    refine orderedSame ordered queues drain stays ?_ ?_
    · intro sid
      rw [flow,same,hand,after]
      rfl
    · rw [same,after]
      exact fun _ => id
  | send control auto packets submits same pc queue sent settings =>
    exact orderedSend ordered meets submits same pc queue sent
  | emit gone pads log split front padding hand after queues drain stays =>
    refine orderedSame ordered queues drain stays ?_ ?_
    · intro sid
      simp only [flow,log,split,hand.1,hand.2,after,ofStreamAppend,ofStreamPads sid padding,List.append_nil,
        List.nil_append,List.append_assoc]
    · rw [split,after]
      intro f member
      rcases List.mem_append.mp member with inside | inside
      · exact List.mem_append_left _ (List.mem_append_right _ inside)
      · exact List.mem_append_right _ inside
  | pass r queue gone d arrives takes rest log split front moves hand after drain draining alone delayed free live =>
    exact orderedPass ordered meets arrives takes rest log split hand after drain draining delayed free live
  | through frames log rest front hand after queues drain live =>
    refine orderedSame ordered queues drain (fun _ => live) ?_ ?_
    · intro sid
      simp only [flow,log,rest,hand,after,ofStreamAppend,List.append_assoc]
    · rw [rest,after]
      exact fun _ => id
  | defer r queue d e arrives takes rest same hand after was now sticky pinned deferred live =>
    exact orderedDefer ordered meets arrives takes rest same hand after was now sticky pinned live
  | control r queue draw chosen takes rest was log front hand frames pinned live =>
    exact orderedControl ordered held meets chosen takes rest was log hand frames pinned live
  | bulk empty rest sent settings was log front hand after frames pinned live =>
    exact orderedBulk ordered held empty rest sent was log hand after frames pinned live
  | refuse r queue same found rest sent settings told closed idle leaving =>
    exact orderedRefuse ordered same found rest sent idle leaving
  | prepare frames was now log rest front hand after queues live =>
    obtain ⟨_,noRest,_⟩ := held.whole was
    refine orderedSame ordered queues ?_ (fun _ => live) ?_ ?_
    · intro d draining
      rw [now] at draining
      contradiction
    · intro sid
      simp only [flow,log,rest,hand.1,hand.2,after,noRest,ofStreamAppend,List.append_nil,List.append_assoc]
    · rw [rest,after]
      intro f member
      rcases List.mem_append.mp member with inside | inside
      · exact List.mem_append_left _ inside
      · exact List.mem_append_right _ (List.mem_append_right _ inside)

end Step

end KanoTls.Writer
