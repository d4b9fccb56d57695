import KanoTls.WindowCredit

/-! Closing a session. Close is a flag and a `notify_waiters` on one `Notify`: a loop
between its look at the flag and the creation of its future misses it, the tasks in
`acquire_credit` wait on other notifies, and `force_close` does nothing once the
writer has set the flag. The runs in which a close still wakes everyone are named here. -/
namespace KanoTls.Window
open Pending Gate Tasks

def ClosePc.due : ClosePc → Bool
  | .swap => false
  | _ => true

def ReadPc.closeDue : ReadPc → Bool
  | .closing pc => pc.due
  | _ => false

namespace Gate

def closersDue (closers : List (Option ClosePc)) : Bool := closers.any (fun c => c.any ClosePc.due)

def closeDue (s : Gate) : Bool := closersDue s.closers || s.reader.closeDue

/- Past its look at the flag, with no wake-up that will bring it back there. -/
def exposed (s : Gate) (a : Acquirer) : Bool :=
  match a.pc with
  | .unarmed => true
  | .connArmed => !(a.toldConn || s.reader == .dueConn)
  | .armed | .connLoaded _ | .debited | .streamLoaded _ | .rollback | .parked => !s.outstanding a
  | _ => false

def loopsAway (s : Gate) : Bool := s.reader != .checked && s.writer != .checked

def closeHeard (s : Gate) (rest : Bool) : ClosePc → Bool
  | .swap | .store _ => s.closeRequested || s.tasks.all (fun a => !s.exposed a)
  | .notify false | .notifyAgain => rest || s.loopsAway
  | .markDead | .notify true => true

end Gate

/- The flag is first set while no task is exposed; the last notification comes while
no loop stands between its check and its future; and the read loop's own `force_close`
finds the flag unset or the session already dead. -/
def closeHeeded (s : Gate) : Action → Bool
  | .closer j =>
    match s.closers[j]? with
    | some (some pc) => s.closeHeard (closersDue (s.closers.set j none) || s.reader.closeDue) pc
    | _ => true
  | .reader .advance =>
    match s.reader with
    | .closing pc => s.closeHeard (closersDue s.closers) pc && (pc != ClosePc.swap || !s.closeRequested || !s.alive)
    | _ => true
  | _ => true

def CloseHeeded (s : Gate) (a : Action) : Prop := closeHeeded s a = true

instance (s : Gate) (a : Action) : Decidable (CloseHeeded s a) := inferInstanceAs (Decidable (_ = true))

structure Woken (s : Gate) : Prop where
  reader : s.closeRequested = true → s.reader = .checked ∨ s.reader = .parked false → s.closeDue = true
  writer : s.closeRequested = true → s.writer = .checked ∨ s.writer = .parked false → s.closeDue = true
  tasks : s.closeRequested = true → ∀ a ∈ s.tasks, s.exposed a = false
  dying : ∀ pc, s.reader = .closing pc → pc ≠ .swap → pc ≠ .markDead → s.alive = false
  returned : s.reader = .returned → s.alive = false

section Woken
variable {s t : Gate} {a b : Acquirer}

theorem exposedSame (told : b.toldConn = a.toldConn ∧ b.toldStream = a.toldStream) (sid : b.sid = a.sid)
    (pc : b.pc = a.pc) (reader : t.reader = s.reader) : t.exposed b = s.exposed a := by
  unfold exposed outstanding due
  rw [told.1,told.2,sid,pc,reader]

theorem exposedIdle (here : s.reader ≠ .dueConn ∧ ∀ sid, s.reader ≠ .dueStream sid) (same : s.exposed a = false) :
    t.exposed a = false := by
  have first : (s.reader == ReadPc.dueConn) = false := beq_eq_false_iff_ne.mpr here.1
  have second : (s.reader == ReadPc.dueStream a.sid) = false := beq_eq_false_iff_ne.mpr (here.2 a.sid)
  unfold exposed outstanding due at same ⊢
  rw [first,second] at same
  cases pc : a.pc <;> rw [pc] at same <;> simp_all

theorem gateExposed {i} (closed : s.closeRequested = true) (hidden : s.exposed a = false)
    (moved : s.gateStep i a = some t) : ∃ b, t.tasks = s.tasks.set i b ∧ s.exposed b = false := by
  obtain ⟨sid,len,pc,toldConn,toldStream⟩ := a
  cases pc <;> simp only [gateStep] at moved <;> try contradiction
  case start =>
    cases Option.some.inj moved
    refine ⟨_,rfl,?_⟩
    cases s.peerFlowControl <;> rfl
  case top =>
    cases Option.some.inj moved
    refine ⟨_,rfl,?_⟩
    rw [closed]
    rfl
  case connArmed =>
    cases Option.some.inj moved
    refine ⟨_,rfl,?_⟩
    simp only [exposed,outstanding,due,Bool.not_eq_false',Bool.or_eq_true,beq_iff_eq] at hidden ⊢
    exact hidden.elim (fun told => .inl (.inl told)) (fun due => .inr (.inl due))
  all_goals
    repeat' split at moved
    all_goals cases Option.some.inj moved; refine ⟨_,rfl,?_⟩
    all_goals first | exact hidden | rfl

theorem gateFrame {i} (moved : s.gateStep i a = some t) : t.reader = s.reader ∧ t.writer = s.writer ∧
    t.closers = s.closers ∧ t.alive = s.alive ∧ t.closeRequested = s.closeRequested := by
  unfold gateStep at moved
  repeat' split at moved
  all_goals try contradiction
  all_goals cases Option.some.inj moved; exact ⟨rfl,rfl,rfl,rfl,rfl⟩

theorem wokenTasks (woken : Woken s) (reader : t.reader = s.reader) (writer : t.writer = s.writer)
    (closers : t.closers = s.closers) (alive : t.alive = s.alive) (closed : t.closeRequested = s.closeRequested)
    (tasks : s.closeRequested = true → ∀ a ∈ t.tasks, s.exposed a = false) : Woken t := by
  have due : t.closeDue = s.closeDue := by
    rw [closeDue,closeDue,reader,closers]
  refine ⟨?_,?_,?_,?_,?_⟩
  · rw [closed,reader,due]
    exact woken.reader
  · rw [closed,writer,due]
    exact woken.writer
  · intro closed' a member
    rw [exposedSame ⟨rfl,rfl⟩ rfl rfl reader]
    exact tasks (closed ▸ closed') a member
  · rw [reader,alive]
    exact woken.dying
  · rw [reader,alive]
    exact woken.returned

theorem closersKept {closers : List (Option ClosePc)} {j : Nat} {old new : Option ClosePc}
    (found : closers[j]? = some old) (kept : old.any ClosePc.due = true → new.any ClosePc.due = true)
    (due : closersDue closers = true) : closersDue (closers.set j new) = true := by
  unfold closersDue at due ⊢
  obtain ⟨c,member,dueC⟩ := List.any_eq_true.mp due
  obtain ⟨k,here⟩ := List.getElem?_of_mem member
  rw [List.any_eq_true]
  have inside := (List.getElem?_eq_some_iff.mp found).1
  by_cases same : k = j
  · subst same
    cases Option.some.inj (here.symm.trans found)
    exact ⟨new,List.mem_of_getElem? (List.getElem?_set_self inside),kept dueC⟩
  · refine ⟨c,List.mem_of_getElem? (i := k) ?_,dueC⟩
    rw [List.getElem?_set_ne (Ne.symm same)]
    exact here

theorem closersNow {closers : List (Option ClosePc)} {j : Nat} {old new : Option ClosePc}
    (found : closers[j]? = some old) (due : new.any ClosePc.due = true) : closersDue (closers.set j new) = true := by
  have inside := (List.getElem?_eq_some_iff.mp found).1
  unfold closersDue
  rw [List.any_eq_true]
  exact ⟨new,List.mem_of_getElem? (List.getElem?_set_self inside),due⟩

theorem tellReaderSilent {pc : ReadPc} (silent : tellReader pc = .checked ∨ tellReader pc = .parked false) :
    pc = .checked := by
  cases pc <;> simp_all [tellReader]

theorem tellWriterSilent {pc : WriterPc} (silent : tellWriter pc = .checked ∨ tellWriter pc = .parked false) :
    pc = .checked := by
  cases pc <;> simp_all [tellWriter]

theorem tellReaderDue (pc : ReadPc) : (tellReader pc).closeDue = pc.closeDue := by
  cases pc <;> rfl

theorem tellLoopsExposed (s : Gate) (a : Acquirer) : s.tellLoops.exposed a = s.exposed a := by
  unfold exposed outstanding due tellLoops tellReader
  cases s.reader <;> rfl

theorem loopsAwayIff : s.loopsAway = true ↔ s.reader ≠ .checked ∧ s.writer ≠ .checked := by
  simp [loopsAway]

theorem hiddenAll (hidden : (s.tasks.all fun a => !s.exposed a) = true) : ∀ a ∈ s.tasks, s.exposed a = false := by
  intro a member
  have here := List.all_eq_true.mp hidden a member
  rwa [Bool.not_eq_true'] at here

theorem hiddenOnSet {rest : Bool} {pc : ClosePc} (woken : Woken s) (setting : pc = .swap ∨ ∃ again, pc = .store again)
    (ok : s.closeHeard rest pc = true) : ∀ a ∈ s.tasks, s.exposed a = false := by
  have either : s.closeRequested = true ∨ (s.tasks.all fun a => !s.exposed a) = true := by
    rcases setting with rfl | ⟨again,rfl⟩ <;> exact (Bool.or_eq_true _ _).mp ok
  exact either.elim woken.tasks hiddenAll

theorem wokenCloser {j : Nat} {pc : ClosePc} (woken : Woken s) (found : s.closers[j]? = some (some pc))
    (ok : s.closeHeard (closersDue (s.closers.set j none) || s.reader.closeDue) pc = true) :
    Woken {(s.closeStep pc).1 with closers := s.closers.set j (s.closeStep pc).2} := by
  have keep {new : Option ClosePc} (kept : pc.due = true → new.any ClosePc.due = true) (due : s.closeDue = true) :
      (closersDue (s.closers.set j new) || s.reader.closeDue) = true := by
    rcases (Bool.or_eq_true _ _).mp due with closers | reader
    · rw [closersKept found kept closers]
      rfl
    · rw [reader,Bool.or_true]
  have now {new : Option ClosePc} (due : new.any ClosePc.due = true) :
      (closersDue (s.closers.set j new) || s.reader.closeDue) = true := by
    rw [closersNow found due]
    rfl
  -- the last notification of this close
  have last (ok : ((closersDue (s.closers.set j none) || s.reader.closeDue) || s.loopsAway) = true) :
      Woken {s.tellLoops with closers := s.closers.set j none} := by
    have due (silent : s.reader = .checked ∨ s.writer = .checked) :
        (closersDue (s.closers.set j none) || (tellReader s.reader).closeDue) = true := by
      rw [tellReaderDue]
      rcases (Bool.or_eq_true _ _).mp ok with rest | away
      · exact rest
      · have away := loopsAwayIff.mp away
        exact absurd silent (fun or => or.elim away.1 away.2)
    refine ⟨fun _ silent => due (.inl (tellReaderSilent silent)),fun _ silent => due (.inr (tellWriterSilent silent)),
      fun closed a member => (tellLoopsExposed s a).trans (woken.tasks closed a member),?_,?_⟩
    · intro pc' here
      refine woken.dying pc' ?_
      cases reader : s.reader <;> simp_all [tellLoops,tellReader]
    · intro here
      refine woken.returned ?_
      cases reader : s.reader <;> simp_all [tellLoops,tellReader]
  cases pc with
  | swap =>
    have hidden := hiddenOnSet woken (.inl rfl) ok
    cases closed : s.closeRequested with
    | true =>
      simp only [closeStep,closed,if_true]
      exact ⟨fun _ silent => keep (fun h => by cases h) (woken.reader closed silent),
        fun _ silent => keep (fun h => by cases h) (woken.writer closed silent),
        fun _ => hidden,woken.dying,woken.returned⟩
    | false =>
      simp only [closeStep,closed,Bool.false_eq_true,if_false]
      exact ⟨fun _ _ => now rfl,fun _ _ => now rfl,fun _ => hidden,woken.dying,woken.returned⟩
  | markDead =>
    exact ⟨fun _ _ => now rfl,fun _ _ => now rfl,woken.tasks,fun _ _ _ _ => rfl,fun _ => rfl⟩
  | store again =>
    have hidden := hiddenOnSet woken (.inr ⟨again,rfl⟩) ok
    exact ⟨fun _ _ => now rfl,fun _ _ => now rfl,fun _ => hidden,woken.dying,woken.returned⟩
  | notify again =>
    cases again with
    | false => exact last ok
    | true =>
      refine ⟨fun _ _ => ?_,fun _ _ => ?_,fun closed a member => (tellLoopsExposed s a).trans (woken.tasks closed a member),
        ?_,?_⟩
      · show (closersDue _ || (tellReader s.reader).closeDue) = true
        rw [tellReaderDue]
        exact now rfl
      · show (closersDue _ || (tellReader s.reader).closeDue) = true
        rw [tellReaderDue]
        exact now rfl
      · intro pc' here
        refine woken.dying pc' ?_
        cases reader : s.reader <;> simp_all [closeStep,tellLoops,tellReader]
      · intro here
        refine woken.returned ?_
        cases reader : s.reader <;> simp_all [closeStep,tellLoops,tellReader]
  | notifyAgain => exact last ok

theorem wokenOwnClose {pc : ClosePc} (woken : Woken s) (here : s.reader = .closing pc)
    (ok : (s.closeHeard (closersDue s.closers) pc && (pc != ClosePc.swap || !s.closeRequested || !s.alive)) = true) :
    Woken {(s.closeStep pc).1 with reader := afterClose (s.closeStep pc).2} := by
  rw [Bool.and_eq_true] at ok
  obtain ⟨ok,own⟩ := ok
  have idle : s.reader ≠ .dueConn ∧ ∀ sid, s.reader ≠ .dueStream sid := by
    rw [here]
    exact ⟨(by simp),(by simp)⟩
  have others (due : s.closeDue = true) (silent : pc = .swap) : closersDue s.closers = true := by
    rw [closeDue,here,silent] at due
    exact ((Bool.or_eq_true _ _).mp due).resolve_right (fun h => by cases h)
  have dead (past : pc ≠ .swap) (past' : pc ≠ .markDead) : s.alive = false := woken.dying pc here past past'
  have last (ok : (closersDue s.closers || s.loopsAway) = true) (past : pc ≠ .swap) (past' : pc ≠ .markDead) :
      Woken {s.tellLoops with reader := .returned} := by
    refine ⟨(by simp),fun _ silent => ?_,fun closed a member => exposedIdle idle (woken.tasks closed a member),(by simp),
      fun _ => dead past past'⟩
    show (closersDue s.closers || false) = true
    rcases (Bool.or_eq_true _ _).mp ok with rest | away
    · rw [rest]
      rfl
    · exact absurd (tellWriterSilent silent) (loopsAwayIff.mp away).2
  cases pc with
  | swap =>
    have hidden := hiddenOnSet woken (.inl rfl) ok
    cases closed : s.closeRequested with
    | true =>
      simp only [closeStep,closed,if_true,afterClose]
      refine ⟨(by simp),fun _ silent => ?_,fun _ a member => exposedIdle idle (hidden a member),(by simp),fun _ => ?_⟩
      · show (closersDue s.closers || false) = true
        rw [others (woken.writer closed silent) rfl]
        rfl
      · rw [closed] at own
        simpa using own
    | false =>
      simp only [closeStep,closed,Bool.false_eq_true,if_false,afterClose]
      refine ⟨(by simp),fun _ _ => Bool.or_true _,fun _ a member => exposedIdle idle (hidden a member),?_,(by simp)⟩
      rintro pc ⟨⟩ _ past
      exact absurd rfl past
  | markDead =>
    refine ⟨fun _ silent => ?_,fun _ _ => Bool.or_true _,fun closed a member => exposedIdle idle (woken.tasks closed a member),?_,?_⟩
    · rcases silent with here | here <;> cases here
    · exact fun _ _ _ _ => rfl
    · intro returned
      cases returned
  | store again =>
    have hidden := hiddenOnSet woken (.inr ⟨again,rfl⟩) ok
    refine ⟨fun _ silent => ?_,fun _ _ => Bool.or_true _,fun _ a member => exposedIdle idle (hidden a member),
      fun _ _ _ _ => dead (fun h => by cases h) (fun h => by cases h),(fun h => by cases h)⟩
    rcases silent with here | here <;> cases here
  | notify again =>
    cases again with
    | false => exact last ok (by simp) (by simp)
    | true =>
      refine ⟨fun _ silent => ?_,fun _ _ => Bool.or_true _,fun closed a member => exposedIdle idle (woken.tasks closed a member),
        fun _ _ _ _ => dead (fun h => by cases h) (fun h => by cases h),(fun h => by cases h)⟩
      rcases silent with here | here <;> cases here
  | notifyAgain => exact last ok (by simp) (by simp)

theorem wokenReader (woken : Woken s) {pc : ReadPc} (idle : s.reader ≠ .dueConn ∧ ∀ sid, s.reader ≠ .dueStream sid)
    (quiet : s.reader.closeDue = false) {fc : Bool}
    (silent : s.closeRequested = true → pc = .checked ∨ pc = .parked false → s.reader = .checked)
    (running : pc ≠ .returned ∧ ∀ c, pc = .closing c → c = .swap) :
    Woken {s with reader := pc,peerFlowControl := fc} := by
  have due (was : s.closeDue = true) : (closersDue s.closers || pc.closeDue) = true := by
    rw [closeDue,quiet,Bool.or_false] at was
    rw [was]
    rfl
  refine ⟨fun closed here => due (woken.reader closed (.inl (silent closed here))),
    fun closed here => due (woken.writer closed here),
    fun closed a member => exposedIdle idle (woken.tasks closed a member),?_,?_⟩
  · intro c here past _
    exact absurd (running.2 c here) past
  · intro here
    exact absurd here running.1

theorem wokenTold (woken : Woken s) {f : Acquirer → Acquirer} (owing : s.reader.closeDue = false)
    (hidden : ∀ a, s.exposed a = false → ({s with reader := .busy} : Gate).exposed (f a) = false) :
    Woken {s with tasks := s.tasks.map f,reader := .busy} := by
  refine ⟨(by simp),fun closed silent => ?_,fun closed a member => ?_,(by simp),(by simp)⟩
  · have was := woken.writer closed silent
    rw [closeDue,owing] at was
    exact was
  · obtain ⟨b,member',rfl⟩ := List.mem_map.mp member
    rw [show Gate.exposed {s with tasks := s.tasks.map f,reader := .busy} (f b) =
      ({s with reader := .busy} : Gate).exposed (f b) from exposedSame ⟨rfl,rfl⟩ rfl rfl rfl]
    exact hidden b (woken.tasks closed b member')

theorem toldConnHidden (hidden : s.exposed a = false) :
    ({s with reader := .busy} : Gate).exposed a.hearConn = false := by
  obtain ⟨sid,len,pc,toldConn,toldStream⟩ := a
  cases pc <;> first | exact hidden | rfl | skip
  all_goals simp only [exposed,outstanding,Acquirer.hearConn,GatePc.hearsConn,Bool.or_true,Bool.true_or,Bool.not_true]

theorem toldStreamHidden {sid} (here : s.reader = .dueStream sid) (hidden : s.exposed a = false) :
    ({s with reader := .busy} : Gate).exposed (a.hearStream sid) = false := by
  obtain ⟨own,len,pc,toldConn,toldStream⟩ := a
  have kept (told : (toldConn || toldStream || s.due ⟨own,len,pc,toldConn,toldStream⟩) = true) :
      (toldConn || (toldStream || decide (own = sid))) = true := by
    rw [due,here] at told
    simp only [Bool.or_eq_true,beq_iff_eq,reduceCtorEq,false_or,ReadPc.dueStream.injEq,decide_eq_true_eq] at told ⊢
    rcases told with (conn | stream) | mine
    · exact .inl conn
    · exact .inr (.inl stream)
    · exact .inr (.inr mine.symm)
  cases pc <;> first | exact hidden | rfl | skip
  case connArmed =>
    simp only [exposed,here,Bool.not_eq_false',Bool.or_eq_true,beq_iff_eq,reduceCtorEq,or_false] at hidden
    simp only [exposed,Acquirer.hearStream,hidden,Bool.true_or,Bool.not_true]
  all_goals
    simp only [exposed,outstanding,Bool.not_eq_false'] at hidden
    simp only [exposed,outstanding,Acquirer.hearStream,GatePc.hearsStream,Bool.true_and,kept hidden,Bool.true_or,
      Bool.not_true]

theorem wokenRead {e} (woken : Woken s) (ok : CloseHeeded s (.reader e)) (moved : s.readStep e = some t) : Woken t := by
  have plain {pc : ReadPc} (pc' : ReadPc) (here : s.reader = pc) (calm : pc ≠ .dueConn ∧ ∀ sid, pc ≠ .dueStream sid)
      (quiet : pc.closeDue = false) (silent : s.closeRequested = true → pc' = .checked ∨ pc' = .parked false → pc = .checked)
      (running : pc' ≠ .returned ∧ ∀ c, pc' = .closing c → c = .swap) : Woken {s with reader := pc'} :=
    wokenReader woken (by rw [here]; exact calm) (by rw [here]; exact quiet) (by rw [here]; exact silent) running
  have begins {c : ClosePc} (here : ReadPc.closing .swap = .closing c) : c = .swap := by
    cases here
    rfl
  cases e with
  | advance =>
    simp only [readStep,readAdvance] at moved
    split at moved <;> try contradiction
    case h_1 here =>
      cases Option.some.inj moved
      split
      · exact plain _ here ⟨(by simp),(by simp)⟩ rfl (by simp) ⟨(by simp),fun _ => begins⟩
      · rename_i unset
        exact plain _ here ⟨(by simp),(by simp)⟩ rfl (fun closed => absurd closed unset) ⟨(by simp),(by simp)⟩
    case h_2 here =>
      cases Option.some.inj moved
      exact plain _ here ⟨(by simp),(by simp)⟩ rfl (fun _ _ => rfl) ⟨(by simp),(by simp)⟩
    case h_3 here =>
      cases Option.some.inj moved
      exact wokenTold woken (by rw [here]; rfl) (fun _ => toldConnHidden)
    case h_4 sid here =>
      cases Option.some.inj moved
      exact wokenTold woken (by rw [here]; rfl) (fun _ => toldStreamHidden here)
    case h_5 pc here =>
      cases Option.some.inj moved
      refine wokenOwnClose woken here ?_
      simpa [CloseHeeded,closeHeeded,here] using ok
  | connCredit increment =>
    simp only [readStep] at moved
    split at moved <;> try contradiction
    rename_i here
    cases Option.some.inj moved
    have after := plain .dueConn here.1 ⟨(by simp),(by simp)⟩ rfl (by simp) ⟨(by simp),(by simp)⟩
    exact wokenTasks after rfl rfl rfl rfl rfl after.tasks
  | streamCredit sid increment =>
    simp only [readStep] at moved
    split at moved <;> try contradiction
    rename_i here
    cases Option.some.inj moved
    have after := plain (.dueStream sid) here.1 ⟨(by simp),(by simp)⟩ rfl (by simp) ⟨(by simp),(by simp)⟩
    exact wokenTasks after rfl rfl rfl rfl rfl after.tasks
  | settings fc =>
    simp only [readStep] at moved
    split at moved <;> try contradiction
    cases Option.some.inj moved
    exact wokenTasks woken rfl rfl rfl rfl rfl woken.tasks
  | notified =>
    simp only [readStep] at moved
    split at moved <;> try contradiction
    rename_i here
    cases Option.some.inj moved
    exact plain _ here ⟨(by simp),(by simp)⟩ rfl (by simp) ⟨(by simp),fun _ => begins⟩
  | stop =>
    simp only [readStep] at moved
    split at moved <;> try contradiction
    all_goals
      rename_i here
      cases Option.some.inj moved
      exact plain _ here ⟨(by simp),(by simp)⟩ rfl (by simp) ⟨(by simp),fun _ => begins⟩
  | _ =>
    simp only [readStep] at moved
    split at moved <;> try contradiction
    rename_i here
    cases Option.some.inj moved
    exact plain _ here ⟨(by simp),(by simp)⟩ rfl (by simp) ⟨(by simp),(by simp)⟩

theorem wokenWriter (woken : Woken s) {pc : WriterPc}
    (silent : s.closeRequested = true → pc = .checked ∨ pc = .parked false → s.writer = .checked) :
    Woken {s with writer := pc} :=
  ⟨woken.reader,fun closed here => woken.writer closed (.inl (silent closed here)),woken.tasks,woken.dying,woken.returned⟩

theorem wokenWrite {e} (woken : Woken s) (moved : s.writerStep e = some t) : Woken t := by
  cases e with
  | advance =>
    simp only [writerStep] at moved
    split at moved <;> try contradiction
    all_goals cases Option.some.inj moved
    case h_1 =>
      refine wokenWriter woken (fun closed here => ?_)
      rw [closed] at here
      exact here.elim (by simp) (by simp)
    case h_2 here => exact wokenWriter woken (fun _ _ => here)
    case h_3 =>
      refine wokenWriter woken (fun closed here => ?_)
      rw [closed] at here
      exact here.elim (by simp) (by simp)
  | written failed =>
    simp only [writerStep] at moved
    split at moved <;> try contradiction
    cases Option.some.inj moved
    cases failed <;> exact wokenWriter woken (fun _ here => here.elim (by simp) (by simp))
  | _ =>
    simp only [writerStep] at moved
    split at moved <;> try contradiction
    cases Option.some.inj moved
    exact wokenWriter woken (fun _ here => here.elim (by simp) (by simp))

theorem wokenKept {action} (woken : Woken s) (ok : CloseHeeded s action) (moved : step s action = some t) : Woken t := by
  cases action with
  | acquire sid len =>
    simp only [step] at moved
    split at moved <;> try contradiction
    cases Option.some.inj moved
    exact wokenTasks woken rfl rfl rfl rfl rfl (fun closed => everyPush (woken.tasks closed) rfl)
  | gate i =>
    obtain ⟨a,found,moved⟩ := Option.bind_eq_some_iff.mp moved
    obtain ⟨reader,writer,closers,alive,closed⟩ := gateFrame moved
    refine wokenTasks woken reader writer closers alive closed (fun closed => ?_)
    obtain ⟨b,tasks,hidden⟩ := gateExposed closed (woken.tasks closed a (List.mem_of_getElem? found)) moved
    rw [tasks]
    exact everySet (woken.tasks closed) hidden
  | wake i stream =>
    obtain ⟨a,found,moved⟩ := Option.bind_eq_some_iff.mp moved
    simp only [wakeStep] at moved
    split at moved <;> try contradiction
    cases Option.some.inj moved
    exact wokenTasks woken rfl rfl rfl rfl rfl (fun closed => everySet (woken.tasks closed) rfl)
  | bypass sid len =>
    cases Option.some.inj moved
    refine wokenTasks woken rfl rfl rfl rfl rfl (fun closed => everyPush (woken.tasks closed) ?_)
    cases s.peerFlowControl <;> rfl
  | submit i =>
    obtain ⟨a,found,moved⟩ := Option.bind_eq_some_iff.mp moved
    simp only [submitStep] at moved
    repeat' split at moved
    all_goals try contradiction
    all_goals
      cases Option.some.inj moved
      exact wokenTasks woken rfl rfl rfl rfl rfl (fun closed => everySet (woken.tasks closed) rfl)
  | cancel i =>
    obtain ⟨a,found,moved⟩ := Option.bind_eq_some_iff.mp moved
    simp only [dropStep] at moved
    split at moved <;> try contradiction
    all_goals
      cases Option.some.inj moved
      exact wokenTasks woken rfl rfl rfl rfl rfl (fun closed => everySet (woken.tasks closed) rfl)
  | close force =>
    cases Option.some.inj moved
    have due (was : s.closeDue = true) :
        (closersDue (s.closers ++ [some (if force then ClosePc.swap else ClosePc.store false)]) || s.reader.closeDue) = true := by
      rcases (Bool.or_eq_true _ _).mp was with closers | reader
      · have more : closersDue (s.closers ++ [some (if force then ClosePc.swap else ClosePc.store false)]) = true := by
          unfold closersDue at closers ⊢
          rw [List.any_append,closers]
          rfl
        rw [more]
        rfl
      · rw [reader,Bool.or_true]
    exact ⟨fun closed silent => due (woken.reader closed silent),fun closed silent => due (woken.writer closed silent),
      woken.tasks,woken.dying,woken.returned⟩
  | closer j =>
    obtain ⟨c,found,moved⟩ := Option.bind_eq_some_iff.mp moved
    obtain ⟨pc,rfl,rfl⟩ := Option.map_eq_some_iff.mp moved
    refine wokenCloser woken found ?_
    simpa only [CloseHeeded,closeHeeded,found] using ok
  | exhaust =>
    cases Option.some.inj moved
    exact ⟨woken.reader,woken.writer,woken.tasks,fun _ _ _ _ => rfl,fun _ => rfl⟩
  | reader e => exact wokenRead woken ok moved
  | writer e => exact wokenWrite woken moved

end Woken

def forced : List Action :=
  [.reader .advance,.reader .advance,.writer .advance,.writer .advance,.close true,
   .closer 0,.closer 0,.closer 0,.closer 0,.closer 0,.writer .notified,.reader .notified,.reader .advance]

/- A failed write closes the session through its writer while a task waits for credit;
the read loop then finds the flag set and skips the body of its own `force_close`. -/
def writerFirst : List Action :=
  flowControlled (.acquire 1 40000000::looks 0
    [.close false,.closer 0,.closer 0,.reader .handled,.reader .advance,.reader .advance])

end KanoTls.Window
