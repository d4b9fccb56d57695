import KanoTls.ReceiveOrder
import KanoTls.PendingExact

/-! What a step of a session does to what a stream has heard. Only a frame brings a payload,
and only CMD_SYN and `open_stream` open a stream. What a stream holds and has delivered is in
bytes never more than what has arrived for it, in whatever order its reads take it. -/
namespace KanoTls.Receive
open Pending Session

section Tasks
variable {s t : Session} {sid : StreamId} {a : Action}

def takesSyn (s : Session) : Bool := s.loop.any (fun here => here.2.atSyn)

/- The read loop is the only one to take a frame. It opens a stream for a SYN, and a client's
`open_stream` opens one. -/
def isTask (s : Session) : Action → Bool
  | .frame _ _ | .openStream _ => false
  | .loop => !takesSyn s
  | _ => true

structure TaskFrame (v w : View) : Prop where
  opened : w.st.opened = v.st.opened
  arrived : w.st.arrived = v.st.arrived
  hand : w.hand = v.hand ∨ w.hand = []
  syn : w.pc.any HandlerPc.atSyn = true → w.pc = v.pc

theorem TaskFrame.same {v w : View} (opened : w.st.opened = v.st.opened) (arrived : w.st.arrived = v.st.arrived) (pc : w.pc = v.pc) :
    TaskFrame v w := ⟨opened,arrived,.inl (by rw [View.hand,View.hand,pc]),fun _ => pc⟩

theorem loopHand {client : Bool} {v w : View} {pc : HandlerPc} {e : Event} (here : v.pc = some pc) (m : LoopMove client v pc e w) :
    w.hand = v.hand ∨ w.hand = [] := by
  rw [View.hand,View.hand,here]
  cases m with
  | psh m => cases m <;> first | exact .inl rfl | exact .inr rfl
  | close m => cases m <;> exact .inr rfl
  | fin m => cases m <;> exact .inr rfl
  | synack m => cases m <;> exact .inr rfl
  | flush m => cases m <;> exact .inr rfl

theorem atSynLoop (task : ¬ isTask s .loop = true) : ∃ here : StreamId × Bool, s.loop = some (here.1,.syn here.2) := by
  simp only [isTask,takesSyn,Bool.not_eq_true',Bool.not_eq_false,Option.any_eq_true] at task
  obtain ⟨⟨k,pc⟩,stands,syn⟩ := task
  cases pc with
  | syn queued => exact ⟨(k,queued),stands⟩
  | _ => contradiction

theorem loopLeavesSyn {client : Bool} {v w : View} {pc : HandlerPc} {e : Event} (m : LoopMove client v pc e w) :
    w.pc.any HandlerPc.atSyn = false := by
  cases m with
  | psh m => cases m <;> rfl
  | close m => cases m <;> rfl
  | fin m => cases m <;> rfl
  | synack m => cases m <;> rfl
  | flush m => cases m <;> rfl

theorem taskFrame (task : isTask s a = true) (moved : step s a = some t) (here : target s a = some sid) :
    TaskFrame (view s sid) (view t sid) := by
  cases a with
  | openStream k => contradiction
  | frame f queued => contradiction
  | acquire task => contradiction
  | loop =>
    obtain ⟨⟨k,pc⟩,stands,rfl⟩ := Option.map_eq_some_iff.mp here
    have m := loopMoves stands (by simpa [isTask,takesSyn,stands] using task) moved
    refine ⟨(loopFrame m).opened,(loopFrame m).arrived,loopHand (by simp [view,onLoop,stands]) m,fun syn => ?_⟩
    exact absurd ((loopLeavesSyn m).symm.trans syn) Bool.false_ne_true
  | accept k =>
    cases Option.some.inj here
    have same := acceptFrame (acceptMoves rfl moved)
    exact .same same.opened same.arrived same.pc
  | reader k =>
    cases Option.some.inj here
    have same := readerFrame (readerMoves rfl moved)
    exact .same same.opened same.arrived same.pc
  | wake k source =>
    cases Option.some.inj here
    have same := readerFrame (wakeMoves moved).2
    exact .same same.opened same.arrived same.pc
  | teardown k tombstone =>
    cases Option.some.inj here
    have same := sideFrame (teardownMoves moved)
    exact .same same.opened same.arrived same.pc
  | dropReadHalf k marks =>
    cases Option.some.inj here
    simp only [step] at moved
    split at moved <;> try contradiction
    cases marks <;> cases Option.some.inj moved
    · rw [if_neg Bool.false_ne_true,viewStream]
      exact .same rfl rfl rfl
    · have after := congrArg View.st (marked s sid)
      rw [if_pos rfl,viewStream,marked,show (s.markStreamReadClosed sid).stream sid = _ from after]
      exact .same rfl rfl rfl
  | sweepData k =>
    cases Option.some.inj here
    simp only [step,sweepData] at moved
    repeat' split at moved
    all_goals first | contradiction | (cases Option.some.inj moved; exact .same rfl rfl rfl)
  | sweepFin k =>
    cases Option.some.inj here
    simp only [step,sweepFin] at moved
    repeat' split at moved
    all_goals first | contradiction | (cases Option.some.inj moved; exact .same rfl rfl rfl)
  | _ =>
    cases Option.some.inj here
    simp only [step] at moved
    split at moved <;> try contradiction
    cases Option.some.inj moved
    rw [viewStream]
    exact .same rfl rfl rfl

theorem frameQuiet {queued : Bool} {seen : Frame} (idle : s.loop = none) (other : ∀ k payload, seen ≠ .psh k payload)
    (moved : s.handleFrame queued seen = some t) (sid : StreamId) : (t.stream sid).arrived = (s.stream sid).arrived ∧
      (view t sid).hand = [] ∧ ((t.stream sid).opened = false → (s.stream sid).opened = false) := by
  have none' : (view s sid).hand = [] := by simp [View.hand,view,onLoop,idle]
  cases seen with
  | psh k payload => exact absurd rfl (other k payload)
  | syn k =>
    simp only [Session.handleFrame] at moved
    split at moved <;> cases Option.some.inj moved
    · exact ⟨rfl,none',id⟩
    · refine ⟨rfl,?_,id⟩
      by_cases same : k = sid
      · simp [View.hand,view,onLoop,goto,same,HandlerPc.hand]
      · simp [View.hand,view,onLoop,goto,same]
  | fin k =>
    cases Option.some.inj moved
    refine ⟨?_,?_,?_⟩
    · by_cases same : sid = k
      · subst same
        simp [setStream,goto]
      · simp [setStream,goto,same]
    · by_cases same : k = sid
      · simp [View.hand,view,onLoop,goto,same,HandlerPc.hand]
      · simp [View.hand,view,onLoop,goto,same]
    · by_cases same : sid = k
      · subst same
        simp [setStream,goto]
      · simp [setStream,goto,same]
  | synack k reason =>
    cases Option.some.inj moved
    refine ⟨rfl,?_,id⟩
    by_cases same : k = sid
    · simp [View.hand,view,onLoop,goto,same,HandlerPc.hand]
    · simp [View.hand,view,onLoop,goto,same]
  | settings fc =>
    cases Option.some.inj moved
    exact ⟨rfl,none',id⟩
  | windowUpdate k =>
    simp only [Session.handleFrame] at moved
    split at moved <;> cases Option.some.inj moved
    · refine ⟨?_,by simpa [View.hand,view,onLoop,setStream] using none',?_⟩
      all_goals
        by_cases same : sid = k
        · subst same
          simp [setStream,Stream.notifyWaiters]
        · simp [setStream,same]
    · exact ⟨rfl,none',id⟩

theorem synFrame {client : Bool} {v w : View} {e : Event} (m : SynMove client v e w) : w.st.arrived = v.st.arrived ∧
    w.hand = [] ∧ (w.st.opened = false → v.st.opened = false) ∧ w.pc.any HandlerPc.atSyn = false := by
  cases m with
  | opened => exact ⟨rfl,rfl,fun shut => absurd shut.symm Bool.false_ne_true,rfl⟩
  | _ => exact ⟨rfl,rfl,id,rfl⟩

theorem synServer {client : Bool} {v w : View} {e : Event} (m : SynMove client v e w) (was : v.st.opened = false)
    (now : w.st.opened = true) : client = false := by
  cases m with
  | refused => exact absurd (was.symm.trans now) Bool.false_ne_true
  | opened server => exact server
  | again server => exact server

theorem synQuiet {k : StreamId} {queued : Bool} (here : s.loop = some (k,.syn queued)) (moved : step s .loop = some t)
    (sid : StreamId) : (t.stream sid).arrived = (s.stream sid).arrived ∧ (view t sid).hand = [] ∧
      ((t.stream sid).opened = false → (s.stream sid).opened = false) ∧ (view t sid).pc.any HandlerPc.atSyn = false := by
  by_cases same : sid = k
  · subst same
    exact synFrame (synMoves here moved)
  · have apart : view t sid = view s sid := stepApart moved (by simp [target,here,Ne.symm same])
    have off : (view s sid).pc = none := by simp [view,onLoop,here,Ne.symm same]
    have st : t.stream sid = s.stream sid := congrArg View.st apart
    refine ⟨by rw [st],?_,by rw [st]; exact id,?_⟩
    · rw [apart,View.hand,off]
      rfl
    · rw [apart,off]
      rfl

theorem frameHeard {queued : Bool} {k : StreamId} {payload : Payload} (moved : s.handleFrame queued (.psh k payload) = some t) :
    (∀ sid, (t.stream sid).opened = (s.stream sid).opened) ∧ (view t k).hand = [payload] ∧
      (t.stream k).arrived = (s.stream k).arrived ++ (if (s.stream k).opened then [payload] else []) ∧
      ∀ sid, sid ≠ k → (t.stream sid).arrived = (s.stream sid).arrived ∧ (view t sid).hand = [] := by
  cases Option.some.inj moved
  refine ⟨?_,?_,?_,?_⟩
  · intro sid
    by_cases same : sid = k
    · subst same
      cases opened : (s.stream sid).opened <;> simp [goto,setStream,opened]
    · simp [goto,setStream,same]
  · simp [View.hand,view,onLoop,goto,HandlerPc.hand]
  · cases (s.stream k).opened <;> simp [goto,setStream]
  · intro sid other
    exact ⟨by simp [goto,setStream,other],by simp [View.hand,view,onLoop,goto,Ne.symm other]⟩

theorem openedHeard (moved : step s (.openStream sid) = some t) : (s.stream sid).opened = false ∧
    (t.stream sid).arrived = (view s sid).hand ∧ (view t sid).hand = (view s sid).hand ∧ (t.stream sid).opened = true := by
  simp only [step] at moved
  split at moved <;> try contradiction
  rename_i live
  simp only [Bool.and_eq_true,Bool.not_eq_true'] at live
  cases Option.some.inj moved
  exact ⟨live.1.2,by simp [registerStream,setStream,View.hand,view],rfl,by simp [registerStream,setStream]⟩

theorem quietHeard (plain : ∀ k payload queued, a ≠ .frame (.psh k payload) queued) (moved : step s a = some t) (sid : StreamId) :
    ((view t sid).hand = (view s sid).hand ∨ (view t sid).hand = []) ∧
      ((t.stream sid).arrived = (s.stream sid).arrived ∨ (t.stream sid).arrived = (view s sid).hand) := by
  by_cases here : target s a = some sid
  · by_cases task : isTask s a = true
    · have same := taskFrame task moved here
      exact ⟨same.hand,.inl same.arrived⟩
    · cases a with
      | frame f queued =>
        obtain ⟨idle,moved⟩ := Option.ite_none_right_eq_some.mp moved
        have quiet := frameQuiet (Option.isNone_iff_eq_none.mp idle) (fun k payload is => plain k payload queued (by rw [is])) moved sid
        exact ⟨.inr quiet.2.1,.inl quiet.1⟩
      | openStream k =>
        cases Option.some.inj here
        obtain ⟨_,arrived,hand,_⟩ := openedHeard moved
        exact ⟨.inl hand,.inr arrived⟩
      | loop =>
        obtain ⟨_,stands⟩ := atSynLoop task
        have quiet := synQuiet stands moved sid
        exact ⟨.inr quiet.2.1,.inl quiet.1⟩
      | _ => exact absurd rfl task
  · have same := stepApart moved here
    exact ⟨.inl (congrArg View.hand same),.inl (congrArg (fun v => v.st.arrived) same)⟩

end Tasks

section Held
variable {client : Bool} {v w : View} {e : Event}

theorem bytesSublist {front back : List Payload} (inside : front.Sublist back) : bytes front ≤ bytes back := by
  induction inside with
  | slnil => exact Nat.le_refl _
  | cons payload _ ih =>
    rw [bytesCons]
    omega
  | cons_cons payload _ ih =>
    rw [bytesCons,bytesCons]
    omega

def View.held (v : View) : Nat := bytes v.core + bytes v.hand

theorem shiftHeld (shifted : Shift v e w) (known : v.held ≤ bytes v.st.arrived) : w.held ≤ bytes w.st.arrived := by
  unfold View.held at *
  rcases shifted with ⟨c,h,a,_⟩ | ⟨payload,c,before,h,a,_⟩ | ⟨c,h,a,_⟩ | ⟨c,h,a,_⟩ | ⟨c,h,a,_⟩ | ⟨_,c,h,a,_⟩ |
    ⟨_,c,h,_,a⟩ | ⟨_,c,a⟩
  · rw [c,h,a]
    exact known
  · rw [before,bytesNil] at known
    rw [c,h,a,bytesAppend]
    omega
  · rw [c,h,a,bytesAppend,bytesNil]
    exact known
  · rw [c,h,a,bytesNil]
    omega
  · have less := bytesSublist c.sublist
    rw [h,a]
    omega
  · have less := bytesSublist c
    rw [h,a]
    omega
  · have less := bytesSublist c
    have fewer := bytesSublist h
    rw [a]
    omega
  · rw [c,a,bytesNil,Nat.zero_add]

/- A pop takes from the pending queue what it hands out, whether the channel is empty or not. -/
theorem readerHeld {pc} (shape : Shape client v) (here : v.st.reader.pc = pc) (m : ReaderMove client v pc e w)
    (known : v.held ≤ bytes v.st.arrived) : w.held ≤ bytes w.st.arrived := by
  by_cases pop : e = .pop
  · subst pop
    cases m with
    | popLast payload c last =>
      simp only [View.held,View.core,View.preData,View.mid,View.hand,here,ReaderPc.out,Stream.setPc,last,bytesAppend,
        bytesCons,bytesNil] at known ⊢
      omega
    | popSome payload rest found =>
      simp only [View.held,View.core,View.preData,View.mid,View.hand,here,ReaderPc.out,Stream.returnSome,Stream.setPc,
        found,bytesAppend,bytesCons,bytesNil] at known ⊢
      omega
  · exact shiftHeld (readerShift shape (fun is => absurd is pop) here m) known

theorem openedHeld (shape : Shape client v) (m : Move client v e w) (was : v.st.opened = false) (opened : w.st.opened = true) :
    w.held ≤ bytes w.st.arrived := by
  have still (same : w.st.opened = v.st.opened) : False := absurd ((was.symm.trans same.symm).trans opened) Bool.false_ne_true
  have empty := (untouchedLine shape was).1
  have st := (shape.fresh was).st
  cases m with
  | frame m =>
    cases m
    case openStream =>
      simp only [View.core,View.preData,View.mid,st,List.append_eq_nil_iff] at empty
      simp [View.held,View.core,View.preData,View.mid,View.hand,st,ReaderPc.out,AcceptPc.hand,empty]
    all_goals exact (still rfl).elim
  | syn here m =>
    cases m
    case opened =>
      have pending := (shape.fresh was).pending
      simp [View.held,View.core,View.preData,View.mid,View.hand,st,pending,ReaderPc.out,AcceptPc.hand]
    all_goals exact (still rfl).elim
  | loop here m => exact (still (loopFrame m).opened).elim
  | accept here m => exact (still (acceptFrame m).opened).elim
  | reader here m => exact (still (readerFrame m).opened).elim
  | side m => exact (still (sideFrame m).opened).elim

theorem heldKept (shape : Shape client v) (m : Move client v e w) (known : v.st.opened = true → v.held ≤ bytes v.st.arrived)
    (opened : w.st.opened = true) : w.held ≤ bytes w.st.arrived := by
  cases was : v.st.opened with
  | false => exact openedHeld shape m was opened
  | true =>
    cases m with
    | reader here m => exact readerHeld shape here m (known was)
    | frame m => exact shiftHeld (frameShift shape opened m) (known was)
    | loop here m => exact shiftHeld (loopShift shape here m) (known was)
    | syn here m => exact shiftHeld (synShift shape here m) (known was)
    | accept here m => exact shiftHeld (acceptShift shape here m) (known was)
    | side m => exact shiftHeld (sideShift shape m) (known was)

theorem runHeld {okv client max sid s} (reach : Run (Meets sid okv) client max s) (opened : (s.stream sid).opened = true) :
    (view s sid).held ≤ bytes (s.stream sid).arrived := by
  have both : Shape client (view s sid) ∧ ((view s sid).st.opened = true → (view s sid).held ≤ bytes (view s sid).st.arrived) := by
    refine streamInvariant (I := fun v => Shape client v ∧ (v.st.opened = true → v.held ≤ bytes v.st.arrived)) ?_ ?_ reach
    · exact ⟨shapeStart client max sid,fun opened => absurd opened Bool.false_ne_true⟩
    · intro v e w known _ m
      exact ⟨shapeKept known.1 m,heldKept known.1 m known.2⟩
  exact both.2 opened

theorem deliveredGrows (m : Move client v e w) : v.st.delivered <+: w.st.delivered := by
  cases m with
  | frame m => cases m <;> exact List.prefix_rfl
  | loop here m => rw [(loopFrame m).delivered]
  | syn here m => cases m <;> exact List.prefix_rfl
  | accept here m => rw [(acceptFrame m).delivered]
  | reader here m => cases m <;> first | exact List.prefix_rfl | exact List.prefix_append _ _
  | side m => rw [(sideFrame m).delivered]

theorem stepDelivered {s t : Session} {a : Action} (moved : step s a = some t) (sid : StreamId) :
    (s.stream sid).delivered <+: (t.stream sid).delivered := by
  by_cases here : target s a = some sid
  · exact deliveredGrows (stepMoves moved here)
  · have same := congrArg (fun v => v.st.delivered) (stepApart moved here)
    exact (show (t.stream sid).delivered = (s.stream sid).delivered from same) ▸ List.prefix_rfl

end Held
end KanoTls.Receive
