import KanoTls.WriterOrder

/-! On a client the SETTINGS frame leads. It joins the first control request that is
taken, and nothing with a SYN passes a delay window before it. -/
namespace KanoTls.Writer
open Wire Shaper Uot State

def NoSyn (frames : List Frame) : Prop := ∀ f ∈ frames, f.cmd ≠ cmdSyn

def Leads (frames : List Frame) : Prop :=
  NoSyn frames ∨ ∃ before later, frames = before ++ settingsFrame::later ∧ NoSyn before

section Leads
variable {front back : List Frame}

theorem noSynAppend : NoSyn (front ++ back) ↔ NoSyn front ∧ NoSyn back := by
  simp only [NoSyn,List.mem_append,or_imp,forall_and]

theorem pshNoSyn (data : ∀ f ∈ front, f.cmd = cmdPsh) : NoSyn front := by
  intro f member
  rw [data f member]
  decide

theorem padsNoSyn (padding : Pads front) : NoSyn front := by
  intro f member
  rw [padding f member]
  decide

theorem leadsHere (quiet : NoSyn front) : Leads (front ++ settingsFrame::back) := .inr ⟨front,back,rfl,quiet⟩

theorem leadsAfter (leads : Leads front) (there : settingsFrame ∈ front) : Leads (front ++ back) := by
  rcases leads with quiet | ⟨before,later,rfl,quiet⟩
  · obtain ⟨before,later,rfl⟩ := List.append_of_mem there
    rw [List.append_assoc]
    exact leadsHere (noSynAppend.mp quiet).1
  · rw [List.append_assoc]
    exact leadsHere quiet

theorem leadsFront (leads : Leads (front ++ back)) : Leads front := by
  rcases leads with quiet | ⟨before,later,same,quiet⟩
  · exact .inl (noSynAppend.mp quiet).1
  · rcases List.append_eq_append_iff.mp same with ⟨more,rfl,_⟩ | ⟨more,rfl,cut⟩
    · exact .inl (noSynAppend.mp quiet).1
    · cases more with
      | nil =>
        rw [List.append_nil]
        exact .inl quiet
      | cons f more =>
        rw [List.cons_append,List.cons_eq_cons] at cut
        rw [← cut.1]
        exact leadsHere quiet

theorem leadsInsert {middle : List Frame} (leads : Leads (front ++ back)) (quiet : NoSyn middle) :
    Leads (front ++ middle ++ back) := by
  rcases leads with none | ⟨before,later,same,none⟩
  · obtain ⟨one,two⟩ := noSynAppend.mp none
    exact .inl (noSynAppend.mpr ⟨noSynAppend.mpr ⟨one,quiet⟩,two⟩)
  · rcases List.append_eq_append_iff.mp same with ⟨more,rfl,rfl⟩ | ⟨more,rfl,cut⟩
    · obtain ⟨one,two⟩ := noSynAppend.mp none
      rw [← List.append_assoc]
      exact leadsHere (noSynAppend.mpr ⟨noSynAppend.mpr ⟨one,quiet⟩,two⟩)
    · cases more with
      | nil =>
        rw [List.nil_append] at cut
        rw [List.append_nil,← cut]
        exact leadsHere (noSynAppend.mpr ⟨none,quiet⟩)
      | cons f more =>
        rw [List.cons_append,List.cons_eq_cons] at cut
        rw [← cut.1,List.append_assoc,List.append_assoc]
        exact leadsHere none

theorem leadsBefore (leads : Leads front) {before later : List Frame} {f : Frame} (here : before ++ f::later <+: front)
    (syn : f.cmd = cmdSyn) : settingsFrame ∈ before := by
  obtain ⟨tail,rfl⟩ := here
  rcases leads with quiet | ⟨before',later',same,quiet⟩
  · exact absurd syn (quiet f (by simp))
  · have other : f ≠ settingsFrame := by
      rintro rfl
      exact absurd syn (by decide)
    rw [List.append_assoc,List.cons_append] at same
    rcases List.append_eq_append_iff.mp same with ⟨more,rfl,cut⟩ | ⟨more,rfl,cut⟩
    · cases more with
      | nil =>
        rw [List.nil_append,List.cons_eq_cons] at cut
        exact absurd cut.1 other
      | cons g more =>
        rw [List.cons_append,List.cons_eq_cons] at cut
        exact absurd syn (quiet f (by rw [cut.1]; simp))
    · cases more with
      | nil =>
        rw [List.nil_append,List.cons_eq_cons] at cut
        exact absurd cut.1.symm other
      | cons g more =>
        rw [List.cons_append,List.cons_eq_cons] at cut
        rw [← cut.1]
        simp

end Leads

/- Where the SETTINGS frame is once it was taken: on its way, at the head of the backlog,
or behind a drain that lets nothing pass. -/
def Placed (s : State) (x : Split) : Prop :=
  settingsFrame ∈ x.log ∨ settingsFrame ∈ handOf s.pc ∨ (x.front = [] ∧ ∃ later, x.rest = settingsFrame::later) ∨
    (settingsFrame ∈ afterOf s.pc ∧ ∀ d, drainOf s.pc = some d → d.deferred ≠ [])

structure Led (s : State) (x : Split) : Prop where
  quiet : s.settings = true → NoSyn (flow s x)
  leads : s.settings = false → Leads (flow s x)
  placed : s.settings = false → Placed s x

section Step
variable {s t : State} {x y : Split} {a : Action}

theorem placedFlow (placed : Placed s x) : settingsFrame ∈ flow s x := by
  unfold flow
  rcases placed with here | here | ⟨_,later,here⟩ | ⟨here,_⟩
  · simp [here]
  · simp [here]
  · simp [here]
  · simp [here]

theorem ledSame (led : Led s x) (settings : t.settings = s.settings) (same : flow t y = flow s x)
    (placed : Placed s x → Placed t y) : Led t y := by
  refine ⟨?_,?_,?_⟩
  · rw [settings,same]
    exact led.quiet
  · rw [settings,same]
    exact led.leads
  · rw [settings]
    exact fun taken => placed (led.placed taken)

theorem takenLeads {r : Request} {queue : List Request} (takes : Takes s t r queue) (waiting : s.settings = true) :
    ∃ first, takeControl s.queue = some (first,queue) ∧ r.frames = settingsFrame::first.frames := by
  obtain ⟨first,found,rfl⟩ := takes.found
  refine ⟨first,found,?_⟩
  rw [withSettingsFrames,settingsOf,waiting]
  rfl

theorem ledTaken {r : Request} {queue : List Request} (takes : Takes s t r queue) (leads : Leads (flow t y))
    (placed : Placed t y) : Led t y := by
  refine ⟨?_,fun _ => leads,fun _ => placed⟩
  intro waiting
  rw [takes.settings] at waiting
  contradiction

theorem deferredStill (drain : SameDrain s t) (after : afterOf t.pc = afterOf s.pc)
    (late : settingsFrame ∈ afterOf s.pc ∧ ∀ d, drainOf s.pc = some d → d.deferred ≠ []) :
    settingsFrame ∈ afterOf t.pc ∧ ∀ d, drainOf t.pc = some d → d.deferred ≠ [] := by
  refine ⟨after ▸ late.1,?_⟩
  intro e now
  obtain ⟨d,was,_,_,same⟩ := drain e now
  rw [same]
  exact late.2 d was

theorem idleFlow (held : Held s x) (was : drainOf s.pc = none ∧ afterOf s.pc = [] ∧ handOf s.pc = []) :
    flow s x = x.log := by
  obtain ⟨_,noRest,_⟩ := held.whole was.1
  rw [flow,noRest,was.2.1,was.2.2]
  simp

theorem idlePlaced (held : Held s x) (was : drainOf s.pc = none ∧ afterOf s.pc = [] ∧ handOf s.pc = [])
    (placed : Placed s x) : settingsFrame ∈ x.log := by
  have there := placedFlow placed
  rwa [idleFlow held was] at there

theorem ledEmit {gone pads : List Frame} (led : Led s x) (log : y.log = x.log ++ gone ++ pads) (split : x.rest = gone ++ y.rest)
    (front : y.front = x.front ++ gone ∨ y.front = [] ∧ y.rest = []) (padding : Pads pads)
    (hand : handOf s.pc = [] ∧ handOf t.pc = []) (after : afterOf t.pc = afterOf s.pc) (queues : SameQueue s t)
    (drain : SameDrain s t) : Led t y := by
  have before : flow s x = x.log ++ gone ++ (y.rest ++ afterOf s.pc) := by
    rw [flow,split,hand.1]
    simp
  have now : flow t y = x.log ++ gone ++ pads ++ (y.rest ++ afterOf s.pc) := by
    rw [flow,log,hand.2,after]
    simp
  refine ⟨?_,?_,?_⟩
  · rw [queues.settings,now]
    intro waiting
    have quiet := led.quiet waiting
    rw [before] at quiet
    obtain ⟨one,two⟩ := noSynAppend.mp quiet
    exact noSynAppend.mpr ⟨noSynAppend.mpr ⟨one,padsNoSyn padding⟩,two⟩
  · rw [queues.settings,now]
    intro taken
    have leads := led.leads taken
    rw [before] at leads
    exact leadsInsert leads (padsNoSyn padding)
  · rw [queues.settings]
    intro taken
    rcases led.placed taken with here | here | ⟨blank,later,here⟩ | here
    · exact .inl (by rw [log]; simp [here])
    · rw [hand.1] at here
      contradiction
    · rw [split] at here
      cases gone with
      | nil =>
        refine .inr (.inr (.inl ⟨?_,later,here⟩))
        rcases front with same | ⟨same,_⟩
        · rw [same,blank]
          rfl
        · exact same
      | cons f gone =>
        rw [List.cons_append,List.cons_eq_cons] at here
        exact .inl (by rw [log,here.1]; simp)
    · exact .inr (.inr (.inr (deferredStill drain after here)))

/- A control request passes the window: it takes the SETTINGS frame along, or that is out. -/
theorem ledPass {r : Request} {queue : List Request} {gone : List Frame} {d : Drain} (led : Led s x) (takes : Takes s t r queue)
    (log : y.log = x.log ++ gone) (split : x.rest = gone ++ y.rest) (moves : x.front = [] → x.rest ≠ [] → gone ≠ [])
    (hand : handOf s.pc = [] ∧ handOf t.pc = r.frames) (after : afterOf t.pc = afterOf s.pc) (draining : drainOf s.pc = some d)
    (alone : d.deferred = []) : Led t y := by
  have before : flow s x = x.log ++ gone ++ (y.rest ++ afterOf s.pc) := by
    rw [flow,split,hand.1]
    simp
  have now : flow t y = x.log ++ gone ++ r.frames ++ (y.rest ++ afterOf s.pc) := by
    rw [flow,log,hand.2,after]
    simp
  cases waiting : s.settings with
  | true =>
    obtain ⟨first,_,frames⟩ := takenLeads takes waiting
    have quiet := led.quiet waiting
    rw [before] at quiet
    refine ledTaken takes ?_ (.inr (.inl (by rw [hand.2,frames]; simp)))
    rw [now,frames,List.append_assoc,List.cons_append]
    exact leadsHere (noSynAppend.mp quiet).1
  | false =>
    have out : settingsFrame ∈ x.log ++ gone := by
      rcases led.placed waiting with here | here | ⟨blank,later,here⟩ | here
      · exact List.mem_append_left _ here
      · rw [hand.1] at here
        contradiction
      · have some' := moves blank (by rw [here]; exact List.cons_ne_nil _ _)
        rw [split] at here
        cases gone with
        | nil => contradiction
        | cons f gone =>
          rw [List.cons_append,List.cons_eq_cons] at here
          rw [here.1]
          simp
      · exact absurd alone (here.2 d draining)
    have leads := led.leads waiting
    rw [before] at leads
    refine ledTaken takes ?_ (.inl (by rw [log]; exact out))
    rw [now,List.append_assoc]
    exact leadsAfter (leadsFront leads) out

theorem ledDefer {r : Request} {queue : List Request} {d e : Drain} (led : Led s x) (takes : Takes s t r queue) (same : y = x)
    (hand : handOf s.pc = [] ∧ handOf t.pc = []) (after : afterOf t.pc = afterOf s.pc ++ r.frames) (now : drainOf t.pc = some e)
    (deferred : e.deferred = d.deferred ++ [r]) : Led t y := by
  have grows : flow t y = flow s x ++ r.frames := by
    rw [flow,flow,same,hand.1,hand.2,after]
    simp
  have waits : ∀ e', drainOf t.pc = some e' → e'.deferred ≠ [] := by
    intro e' draining
    cases Option.some.inj (now.symm.trans draining)
    rw [deferred]
    simp
  cases waiting : s.settings with
  | true =>
    obtain ⟨first,_,frames⟩ := takenLeads takes waiting
    refine ledTaken takes ?_ (.inr (.inr (.inr ⟨by rw [after,frames]; simp,waits⟩)))
    rw [grows,frames]
    exact leadsHere (led.quiet waiting)
  | false =>
    have placed := led.placed waiting
    refine ledTaken takes ?_ ?_
    · rw [grows]
      exact leadsAfter (led.leads waiting) (placedFlow placed)
    · rcases placed with here | here | here | ⟨here,_⟩
      · exact .inl (by rw [same]; exact here)
      · rw [hand.1] at here
        contradiction
      · exact .inr (.inr (.inl (by rw [same]; exact here)))
      · exact .inr (.inr (.inr ⟨by rw [after]; simp [here],waits⟩))

/- The select takes a control request behind the bulk requests that wait, of which there are
none while SETTINGS is still to be sent. -/
theorem ledControl {r : Request} {queue : List Request} {draw : Draw} (led : Led s x) (held : Held s x) (meets : Orderly s a)
    (chosen : a = .control draw) (takes : Takes s t r queue)
    (was : drainOf s.pc = none ∧ afterOf s.pc = [] ∧ handOf s.pc = []) (log : y.log = x.log) (front : y.front = [])
    (hand : handOf t.pc = [])
    (frames : y.rest = (bulkOf queue).flatMap Request.frames ++ r.frames ∧ afterOf t.pc = [] ∨
      y.rest = (bulkOf queue).flatMap Request.frames ∧ afterOf t.pc = r.frames ∧ (drainOf t.pc = none ∨ y.rest ≠ [])) : Led t y := by
  have promise := meets.2
  rw [chosen,orderly,Bool.and_eq_true] at promise
  have idle := idleFlow held was
  have now : flow t y = x.log ++ (framesOf (bulkOf queue) ++ r.frames) := by
    obtain ⟨inside,later⟩ | ⟨inside,later,_⟩ := frames <;> rw [flow,log,hand,inside,later] <;> simp [framesOf]
  cases waiting : s.settings with
  | true =>
    obtain ⟨first,found,own⟩ := takenLeads takes waiting
    have none' : bulkOf queue = [] := by
      have empty := promise.2
      rw [waiting] at empty
      rw [← (takeControlParts found).1]
      simpa using empty
    have quiet := led.quiet waiting
    rw [idle] at quiet
    refine ledTaken takes ?_ ?_
    · rw [now,none',own]
      exact leadsHere quiet
    · rw [none',own] at frames
      obtain ⟨inside,_⟩ | ⟨inside,later,idle'⟩ := frames
      · exact .inr (.inr (.inl ⟨front,_,inside⟩))
      · refine .inr (.inr (.inr ⟨by rw [later]; simp,?_⟩))
        intro d draining
        rcases idle' with idle' | some'
        · rw [idle'] at draining
          contradiction
        · exact absurd inside some'
  | false =>
    have there := idlePlaced held was (led.placed waiting)
    have leads := led.leads waiting
    rw [idle] at leads
    refine ledTaken takes ?_ (.inl (by rw [log]; exact there))
    rw [now]
    exact leadsAfter leads there

theorem ledBulk (led : Led s x) (ordered : Ordered s x) (held : Held s x) (empty : controlOf s.queue = [])
    (settings : t.settings = s.settings) (was : drainOf s.pc = none ∧ afterOf s.pc = [] ∧ handOf s.pc = [])
    (log : y.log = x.log) (hand : handOf t.pc = []) (after : afterOf t.pc = [])
    (frames : y.rest = s.queue.flatMap Request.frames) : Led t y := by
  have idle := idleFlow held was
  have now : flow t y = x.log ++ framesOf s.queue := by
    rw [flow,log,hand,after,frames]
    simp [framesOf]
  have data : NoSyn (framesOf s.queue) := by
    rw [← allBulk empty]
    exact pshNoSyn (bulkFrames ordered (fun _ => id))
  refine ⟨?_,?_,?_⟩
  · rw [settings,now]
    intro waiting
    have quiet := led.quiet waiting
    rw [idle] at quiet
    exact noSynAppend.mpr ⟨quiet,data⟩
  · rw [settings,now]
    intro taken
    have leads := led.leads taken
    rw [idle] at leads
    exact leadsAfter leads (idlePlaced held was (led.placed taken))
  · rw [settings]
    intro taken
    exact .inl (by rw [log]; exact idlePlaced held was (led.placed taken))

theorem ledPrepare {frames : List Frame} (led : Led s x) (held : Held s x) (was : drainOf s.pc = none) (now : drainOf t.pc = none)
    (log : y.log = x.log ++ frames) (rest : y.rest = x.rest) (front : y.front = x.front)
    (hand : handOf s.pc = [] ∧ handOf t.pc = []) (after : afterOf s.pc = frames ++ afterOf t.pc) (queues : SameQueue s t) :
    Led t y := by
  obtain ⟨_,noRest,_⟩ := held.whole was
  refine ledSame led queues.settings ?_ ?_
  · rw [flow,flow,log,rest,hand.1,hand.2,after,noRest]
    simp
  · rintro (here | here | ⟨blank,later,here⟩ | ⟨here,_⟩)
    · exact .inl (by rw [log]; simp [here])
    · rw [hand.1] at here
      contradiction
    · exact .inr (.inr (.inl ⟨front.trans blank,later,rest.trans here⟩))
    · rw [after] at here
      rcases List.mem_append.mp here with inside | inside
      · exact .inl (by rw [log]; simp [inside])
      · refine .inr (.inr (.inr ⟨inside,?_⟩))
        intro d draining
        rw [now] at draining
        contradiction

theorem ledStep (led : Led s x) (ordered : Ordered s x) (held : Held s x) (meets : Orderly s a)
    (turn : Turn s a t x y) : Led t y := by
  cases turn with
  | still same hand after queues drain stays =>
    refine ledSame led queues.settings (by rw [flow,same,hand,after]; rfl) ?_
    rw [same]
    rintro (here | here | here | here)
    · exact .inl here
    · exact .inr (.inl (hand ▸ here))
    · exact .inr (.inr (.inl here))
    · exact .inr (.inr (.inr (deferredStill drain after here)))
  | send control auto packets submits same pc queue sent settings =>
    refine ledSame led settings (by rw [flow,same,pc]; rfl) ?_
    unfold Placed
    rw [same,pc]
    exact id
  | emit gone pads log split front padding hand after queues drain stays =>
    exact ledEmit led log split front padding hand after queues drain
  | pass r queue gone d arrives takes rest log split front moves hand after drain draining alone delayed free live =>
    exact ledPass led takes log split moves hand after draining alone
  | through frames log rest front hand after queues drain live =>
    refine ledSame led queues.settings ?_ ?_
    · rw [flow,flow,log,rest,hand,after]
      simp
    · rintro (here | here | ⟨blank,later,here⟩ | here)
      · exact .inl (by rw [log]; simp [here])
      · rw [hand] at here
        rcases List.mem_append.mp here with inside | inside
        · exact .inl (by rw [log]; simp [inside])
        · exact .inr (.inl inside)
      · exact .inr (.inr (.inl ⟨front.trans blank,later,rest.trans here⟩))
      · exact .inr (.inr (.inr (deferredStill drain after here)))
  | defer r queue d e arrives takes rest same hand after was now sticky pinned deferred live =>
    exact ledDefer led takes same hand after now deferred
  | control r queue draw chosen takes rest was log front hand frames pinned live =>
    exact ledControl led held meets chosen takes was log front hand frames
  | bulk empty rest sent settings was log front hand after frames pinned live =>
    exact ledBulk led ordered held empty settings was log hand after frames
  | refuse r queue same found rest sent settings told closed idle leaving =>
    refine ledSame led settings (by rw [flow,flow,same,idle,leaving]; rfl) ?_
    unfold Placed
    rw [same,idle,leaving]
    exact id
  | prepare frames was now log rest front hand after queues live =>
    exact ledPrepare led held was now log rest front hand after queues

end Step

def onWire (s : State) : List Frame := (decodeAll (values (s.wire.flatMap (·.payload)))).1

section Run
variable {client off : Bool} {script : List ScriptRule} {stop : Nat} {s : State} {x : Split}

theorem wireBytes (s : State) : ∃ n, values (s.wire.flatMap (·.payload)) = (emitted s).take n := by
  refine ⟨(values (s.wire.flatMap (·.payload))).length,?_⟩
  rw [emitted,payloadsAppend,valuesAppend,List.take_left]

theorem heldCut (held : Held s x) : ∃ frames n, emitted s = (encodeAll frames).take n ∧ frames <+: flow s x := by
  by_cases hand : handOf s.pc = []
  · refine ⟨x.log ++ x.rest,(encodeAll x.log).length + (consumedOf s.pc - (encodeAll x.front).length),?_,?_⟩
    · rw [held.out,encodeAllAppend,List.take_length_add_append]
    · rw [flow,hand,List.append_nil]
      exact List.prefix_append _ _
  · cases here : s.pc with
    | through d r todo =>
      refine ⟨x.log,(encodeAll x.log).length,?_,?_⟩
      · rw [held.through d r todo here,List.take_length]
      · rw [flow,List.append_assoc,List.append_assoc]
        exact List.prefix_append _ _
    | _ => exact absurd (by rw [here]; rfl) hand

theorem wireFlow (held : Held s x) : onWire s <+: flow s x := by
  obtain ⟨n,wire⟩ := wireBytes s
  obtain ⟨frames,m,out,inside⟩ := heldCut held
  rw [onWire,wire,out,List.take_take]
  exact (decodeAllCut frames _).trans inside

theorem orderKept (run : Run Orderly client off script stop s) :
    ∃ x, Held s x ∧ Ordered s x ∧ (client = true → Led s x) := by
  refine Machine.reachInvariant (I := fun s => ∃ x, Held s x ∧ Ordered s x ∧ (client = true → Led s x)) ?_ ?_ run
  · refine ⟨_,startLine client off script stop,⟨fun _ => List.prefix_refl _,fun _ _ => rfl,?_,?_⟩,?_⟩
    · intro r member
      contradiction
    · intro d draining
      contradiction
    · rintro rfl
      refine ⟨?_,?_,?_⟩
      · intro _ f member
        contradiction
      · intro taken
        contradiction
      · intro taken
        contradiction
  · rintro s a t ⟨x,held,ordered,led⟩ meets moved
    obtain ⟨y,held',turn⟩ := stepLine held meets.1 moved
    exact ⟨y,held',orderedStep ordered held meets turn,fun is => ledStep (led is) ordered held meets turn⟩

theorem wireOrdered (run : Run Orderly client off script stop s) :
    (∀ sid, ofStream sid (onWire s) <+: ofStream sid (framesOf s.sent)) ∧
    (client = true → ∀ before f later, onWire s = before ++ f::later → f.cmd = cmdSyn → settingsFrame ∈ before) := by
  obtain ⟨x,held,ordered,led⟩ := orderKept run
  have inside := wireFlow held
  refine ⟨?_,?_⟩
  · intro sid
    exact (inside.filter _).trans (ordered.behind sid)
  · intro is before f later same syn
    rw [same] at inside
    cases waiting : s.settings with
    | true =>
      have quiet := (led is).quiet waiting
      exact absurd syn (quiet f (inside.subset (by simp)))
    | false => exact leadsBefore ((led is).leads waiting) inside syn

end Run

def openAndWrite : List Action := firstOpen ++
  [Action.send false true [[pshOf 1 oneFits]],.bulk ⟨200,false,0,false⟩,.record ⟨200,false,0,false⟩ .none,.finish 0,
    .flush true]

def wroteInOrder (s : State) : Bool :=
  decide (onWire s = [settingsFrame,synOne,pshOf 1 oneFits])

theorem openAndWriteOrdered : ∃ s, Run Orderly true false [] 0 s ∧
    onWire s = [settingsFrame,synOne,pshOf 1 oneFits] ∧
    ofStream 1 (onWire s) <+: ofStream 1 (framesOf s.sent) ∧
    (∀ before f later, onWire s = before ++ f::later → f.cmd = cmdSyn → settingsFrame ∈ before) := by
  have ran : (Machine.checked step Orderly (start true false [] 0) openAndWrite).any wroteInOrder = true := rfl
  obtain ⟨s,run,here⟩ := Machine.checkedReaches ran
  obtain ⟨streams,leads⟩ := wireOrdered run
  exact ⟨s,run,of_decide_eq_true here,streams 1,leads rfl⟩

/- The writer of a server is in the delay window after a record of stream 1. A write of
stream 2 waits in the bulk channel and its future is dropped; the FIN of stream 2 comes
through the control channel and passes the window. -/
def finOvertakes : List Action :=
  [Action.send false true [[pshOf 1 oneFits]],.bulk ⟨200,true,0,false⟩,.record ⟨200,false,0,false⟩ .none,
    .send false true [[pshOf 2 twoFits]],.send true false [[finOf 2 twoFits]],.arrive,
    .packet [(300,300)] none,.flush true,.windowEnd,.finish 0,.flush true,.bulk ⟨200,false,0,false⟩,
    .record ⟨200,false,0,false⟩ .none,.finish 0,.flush true]

def delayed : List ScriptRule := [⟨100,400,true,0,0⟩]

def overtaken (s : State) : Bool :=
  decide (ofStream 2 (framesOf s.sent) = [pshOf 2 twoFits,finOf 2 twoFits]) &&
  decide (ofStream 2 (onWire s) = [finOf 2 twoFits,pshOf 2 twoFits])

theorem finBeforeData : ∃ s, Run Faultless false false delayed 5 s ∧
    ofStream 2 (framesOf s.sent) = [pshOf 2 twoFits,finOf 2 twoFits] ∧
    ofStream 2 (onWire s) = [finOf 2 twoFits,pshOf 2 twoFits] := by
  have ran : (Machine.checked step Faultless (start false false delayed 5) finOvertakes).any overtaken = true := rfl
  obtain ⟨s,run,here⟩ := Machine.checkedReaches ran
  rw [overtaken,Bool.and_eq_true,decide_eq_true_eq,decide_eq_true_eq] at here
  exact ⟨s,run,here.1,here.2⟩

end KanoTls.Writer
