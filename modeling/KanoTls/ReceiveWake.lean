import KanoTls.ReceiveEof

/-! Wake-ups of a parked reader. `notify_waiters` leaves no permit, so whatever fills
the pending queue or `pending_fin` after the reader has looked there must notify it
afterwards. The invariant follows the reader from its look at each queue to the select. -/
namespace KanoTls.Receive
open Pending Session

def HandlerPc.due : HandlerPc → Bool
  | .psh .notify _ | .flush (.notify _) | .flush .finNotify => true
  | _ => false

def View.outstanding (v : View) : Bool :=
  v.st.reader.notified || !v.st.data.isEmpty || v.st.finQueued || v.pc.any HandlerPc.due

def ReaderPc.pastDrain : ReaderPc → Bool
  | .finTry none | .finLocked none | .decide | .parked => true
  | _ => false

def ReaderPc.pastFin : ReaderPc → Bool
  | .decide | .parked => true
  | _ => false

/- A failed `try_lock` and an unnotified store meet a reader only when nothing is
hidden from it by them, when a wake-up is outstanding, or when it is about to end. -/
structure FinWakes (v : View) (e : Event) : Prop where
  busy : e = .finBusy → v.st.reader.pc = .finTry none →
    v.st.reader.readClosed = true ∨ v.outstanding = true ∨ v.finPending = false
  dataBusy : e = .dataBusy → v.st.reader.readClosed = true ∨ v.outstanding = true ∨ v.finPending = false
  store : e = .preSynackFin → v.st.reader.pc.pastFin = true →
    v.st.reader.readClosed = true ∨ v.outstanding = true

structure DataWakes (v : View) (e : Event) : Prop where
  busy : e = .dataBusy → v.st.reader.readClosed = true ∨ v.outstanding = true ∨ v.pending = []
  store : e = .preSynackData → v.st.reader.pc.pastDrain = true →
    v.st.reader.readClosed = true ∨ v.outstanding = true

instance (v : View) (e : Event) : Decidable (FinWakes v e) :=
  decidable_of_iff
    ((e = .finBusy → v.st.reader.pc = .finTry none →
        v.st.reader.readClosed = true ∨ v.outstanding = true ∨ v.finPending = false) ∧
      (e = .dataBusy → v.st.reader.readClosed = true ∨ v.outstanding = true ∨ v.finPending = false) ∧
      (e = .preSynackFin → v.st.reader.pc.pastFin = true → v.st.reader.readClosed = true ∨ v.outstanding = true))
    ⟨fun ⟨a,b,c⟩ => ⟨a,b,c⟩,fun ⟨a,b,c⟩ => ⟨a,b,c⟩⟩

instance (v : View) (e : Event) : Decidable (DataWakes v e) :=
  decidable_of_iff
    ((e = .dataBusy → v.st.reader.readClosed = true ∨ v.outstanding = true ∨ v.pending = []) ∧
      (e = .preSynackData → v.st.reader.pc.pastDrain = true → v.st.reader.readClosed = true ∨ v.outstanding = true))
    ⟨fun ⟨a,b⟩ => ⟨a,b⟩,fun ⟨a,b⟩ => ⟨a,b⟩⟩

def Wakes (v : View) (e : Event) : Prop := FinWakes v e ∧ DataWakes v e

instance (v : View) (e : Event) : Decidable (Wakes v e) := inferInstanceAs (Decidable (_ ∧ _))

theorem outstandingIff {v : View} : v.outstanding = true ↔ v.st.reader.notified = true ∨ v.st.data ≠ [] ∨
    v.st.finQueued = true ∨ ∃ pc, v.pc = some pc ∧ pc.due = true := by
  simp only [View.outstanding,Bool.or_eq_true,Bool.not_eq_true',List.isEmpty_eq_false_iff,Option.any_eq_true,
    or_assoc]

section Wake
variable {client : Bool} {v w : View} {e : Event}

structure Louder (v w : View) : Prop where
  notified : v.st.reader.notified = true → w.st.reader.notified = true
  data : v.st.data ≠ [] → w.st.data ≠ []
  fin : v.st.finQueued = true → w.st.finQueued = true

theorem loopLouder {pc} (m : LoopMove client v pc e w) : Louder v w := by
  have queued {q : Bool} (was : v.st.finQueued = true) : (v.st.finQueued || q) = true := by rw [was]; rfl
  have told {q : Bool} (was : v.st.reader.notified = true) : (v.st.reader.notified || q) = true := by rw [was]; rfl
  have longer {payload : Payload} (_ : v.st.data ≠ []) : v.st.data ++ [payload] ≠ [] := by simp
  cases m with
  | psh m => cases m <;> first | exact ⟨id,id,id⟩ | exact ⟨id,longer,id⟩ | exact ⟨told,id,id⟩
  | close m => cases m <;> exact ⟨id,id,id⟩
  | fin m => cases m <;> first | exact ⟨id,id,id⟩ | exact ⟨id,id,queued⟩
  | synack m => cases m <;> exact ⟨id,id,id⟩
  | flush m =>
    cases m <;> first | exact ⟨id,id,id⟩ | exact ⟨id,longer,id⟩ | exact ⟨told,id,id⟩ | exact ⟨id,id,queued⟩

theorem loopNotifies {pc} (m : LoopMove client v pc e w) (due : pc.due = true)
    (registered : v.st.reader.pc.registered = true) : w.st.reader.notified = true := by
  have told : (v.st.reader.notified || v.st.reader.pc.registered) = true := by rw [registered,Bool.or_true]
  cases m with
  | psh m => cases m <;> first | exact told | contradiction
  | flush m => cases m <;> first | exact told | contradiction
  | _ => contradiction

theorem pastRegistered {pc : ReaderPc} (past : pc.pastDrain = true) : pc.registered = true := by
  cases pc <;> first | rfl | contradiction

theorem pastFinDrain {pc : ReaderPc} (past : pc.pastFin = true) : pc.pastDrain = true := by
  cases pc <;> first | rfl | contradiction

theorem outstandingLoop {pc} (here : v.pc = some pc) (m : LoopMove client v pc e w)
    (past : v.st.reader.pc.pastDrain = true) (out : v.outstanding = true) : w.outstanding = true := by
  have louder := loopLouder m
  rw [outstandingIff] at out ⊢
  rcases out with notified | data | fin | ⟨pc',here',due⟩
  · exact .inl (louder.notified notified)
  · exact .inr (.inl (louder.data data))
  · exact .inr (.inr (.inl (louder.fin fin)))
  · cases Option.some.inj (here.symm.trans here')
    exact .inl (loopNotifies m due (pastRegistered past))

theorem outstandingFrame (m : FrameMove client v w) (past : w.st.reader.pc.pastDrain = true)
    (out : v.outstanding = true) : w.outstanding = true := by
  have ready (idle : v.pc = none) :
      v.st.reader.notified = true ∨ v.st.data ≠ [] ∨ v.st.finQueued = true := by
    rcases outstandingIff.mp out with notified | data | fin | ⟨pc,here,_⟩
    · exact .inl notified
    · exact .inr (.inl data)
    · exact .inr (.inr fin)
    · exact absurd (idle.symm.trans here) (by simp)
  have kept {u : View} (same : u.st.reader.notified = v.st.reader.notified ∧ u.st.data = v.st.data ∧
      u.st.finQueued = v.st.finQueued) (idle : v.pc = none) : u.outstanding = true := by
    rw [outstandingIff,same.1,same.2.1,same.2.2]
    rcases ready idle with notified | data | fin
    · exact .inl notified
    · exact .inr (.inl data)
    · exact .inr (.inr (.inl fin))
  cases m
  case ignored => exact out
  case openStream => contradiction
  case psh idle _ => exact kept ⟨rfl,rfl,rfl⟩ idle
  case pshUnknown idle _ => exact kept ⟨rfl,rfl,rfl⟩ idle
  case syn idle => exact kept ⟨rfl,rfl,rfl⟩ idle
  case fin idle => exact kept ⟨rfl,rfl,rfl⟩ idle
  case synack idle => exact kept ⟨rfl,rfl,rfl⟩ idle
  case windowUpdate =>
    refine outstandingIff.mpr (.inl ?_)
    have registered : v.st.reader.pc.registered = true := pastRegistered past
    show (v.st.reader.notified || v.st.reader.pc.registered) = true
    rw [registered,Bool.or_true]

theorem outstandingSyn {queued} (here : v.pc = some (.syn queued)) (m : SynMove client v e w)
    (out : v.outstanding = true) : w.outstanding = true := by
  have ready : v.st.reader.notified = true ∨ v.st.data ≠ [] ∨ v.st.finQueued = true := by
    rcases outstandingIff.mp out with notified | data | fin | ⟨pc,here',due⟩
    · exact .inl notified
    · exact .inr (.inl data)
    · exact .inr (.inr fin)
    · cases Option.some.inj (here.symm.trans here')
      contradiction
  have same : w.st.reader.notified = v.st.reader.notified ∧ w.st.data = v.st.data ∧
      w.st.finQueued = v.st.finQueued := by cases m <;> exact ⟨rfl,rfl,rfl⟩
  rw [outstandingIff,same.1,same.2.1,same.2.2]
  rcases ready with notified | data | fin
  · exact .inl notified
  · exact .inr (.inl data)
  · exact .inr (.inr (.inl fin))

theorem outstandingSide (m : LocalMove v e w) (past : w.st.reader.pc.pastDrain = true)
    (out : v.outstanding = true) : w.outstanding = true := by
  cases m <;> first | exact out | contradiction

structure DataHeard (v : View) : Prop where
  data : v.st.reader.pc.pastDrain = true → v.st.reader.readClosed = false → v.outstanding = true ∨ v.pending = []

structure FinHeard (v : View) : Prop where
  fin : v.st.reader.pc.pastFin = true → v.st.reader.readClosed = false → v.outstanding = true ∨ v.finPending = false

theorem stillOpen {a : Prop} (open' : v.st.reader.readClosed = false) (or : v.st.reader.readClosed = true ∨ a) : a :=
  or.resolve_left (fun closed => Bool.false_ne_true (open'.symm.trans closed))

theorem loopFillsData {pc} (here : v.pc = some pc) (m : LoopMove client v pc e w) :
    w.pending = v.pending ∨ w.pending = [] ∨ e = .preSynackData ∨ w.outstanding = true := by
  have due {u : View} {pc} (here : u.pc = some pc) (due : pc.due = true) : u.outstanding = true :=
    outstandingIff.mpr (.inr (.inr (.inr ⟨pc,here,due⟩)))
  cases m with
  | psh m =>
    cases m <;> first | exact .inl rfl | exact .inr (.inr (.inl rfl)) | exact .inr (.inr (.inr (due rfl rfl)))
  | close m => cases m <;> first | exact .inl rfl | exact .inr (.inl rfl)
  | fin m => cases m <;> exact .inl rfl
  | synack m => cases m <;> exact .inl rfl
  | flush m =>
    cases m <;> first | exact .inl rfl | exact .inr (.inl rfl) | exact .inr (.inr (.inr (due rfl rfl)))

theorem loopFillsFin {pc} (here : v.pc = some pc) (m : LoopMove client v pc e w) :
    w.finPending = v.finPending ∨ w.finPending = false ∨ e = .preSynackFin ∨ w.outstanding = true := by
  have due {u : View} {pc} (here : u.pc = some pc) (due : pc.due = true) : u.outstanding = true :=
    outstandingIff.mpr (.inr (.inr (.inr ⟨pc,here,due⟩)))
  cases m with
  | psh m => cases m <;> exact .inl rfl
  | close m => cases m <;> first | exact .inl rfl | exact .inr (.inl rfl)
  | fin m => cases m <;> first | exact .inl rfl | exact .inr (.inr (.inl rfl))
  | synack m => cases m <;> exact .inl rfl
  | flush m =>
    cases m <;> first | exact .inl rfl | exact .inr (.inl rfl) | exact .inr (.inr (.inr (due rfl rfl)))

theorem dataHeardKept (shape : Shape client v) (heard : DataHeard v) (ok : DataWakes v e) (m : Move client v e w) :
    DataHeard w := by
  refine ⟨fun past open' => ?_⟩
  have known := heard.data
  cases m with
  | frame m =>
    have same : w.pending = v.pending := by cases m <;> rfl
    have before : v.st.reader.pc.pastDrain = true ∧ v.st.reader.readClosed = false := by
      cases m <;> first | exact ⟨past,open'⟩ | contradiction
    rw [same]
    exact (known before.1 before.2).imp_left (outstandingFrame m past)
  | loop here m =>
    rw [(loopFrame m).reader.1] at past
    rw [(loopFrame m).reader.2] at open'
    have keep := outstandingLoop here m past
    rcases loopFillsData here m with same | empty | early | out
    · rw [same]
      exact (known past open').imp_left keep
    · exact .inr empty
    · exact .inl (keep (stillOpen open' (ok.store early past)))
    · exact .inl out
  | syn here m =>
    have same : w.pending = v.pending ∧ w.st.reader = v.st.reader := by cases m <;> exact ⟨rfl,rfl⟩
    rw [same.2] at past open'
    rw [same.1]
    exact (known past open').imp_left (outstandingSyn here m)
  | accept here m =>
    have absent := shape.accepting.absent (acceptBusy here m)
    cases m <;> first | contradiction | (rw [absent] at past; contradiction)
  | reader here m =>
    cases m <;> first | exact known (by rw [here]; rfl) open' | contradiction | skip
    case lockBusy => exact stillOpen open' (ok.busy rfl)
    case popNone empty => exact .inr empty
    case finFree out =>
      cases out
      · exact known (by rw [here]; rfl) open'
      · contradiction
  | side m =>
    have before : v.st.reader.pc.pastDrain = true := by cases m <;> first | exact past | contradiction
    rw [(sideFrame m).readClosed] at open'
    rcases known before open' with out | empty
    · exact .inl (outstandingSide m past out)
    · refine .inr (List.eq_nil_of_suffix_nil ?_)
      rw [← empty]
      exact (sideFrame m).pending

theorem finHeardKept (shape : Shape client v) (heard : FinHeard v) (ok : FinWakes v e) (m : Move client v e w) :
    FinHeard w := by
  refine ⟨fun past open' => ?_⟩
  have known := heard.fin
  cases m with
  | frame m =>
    have same : w.finPending = v.finPending := by cases m <;> rfl
    have before : v.st.reader.pc.pastFin = true ∧ v.st.reader.readClosed = false := by
      cases m <;> first | exact ⟨past,open'⟩ | contradiction
    rw [same]
    exact (known before.1 before.2).imp_left (outstandingFrame m (pastFinDrain past))
  | loop here m =>
    rw [(loopFrame m).reader.1] at past
    rw [(loopFrame m).reader.2] at open'
    have keep := outstandingLoop here m (pastFinDrain past)
    rcases loopFillsFin here m with same | empty | early | out
    · rw [same]
      exact (known past open').imp_left keep
    · exact .inr empty
    · exact .inl (keep (stillOpen open' (ok.store early past)))
    · exact .inl out
  | syn here m =>
    have same : w.finPending = v.finPending ∧ w.st.reader = v.st.reader := by cases m <;> exact ⟨rfl,rfl⟩
    rw [same.2] at past open'
    rw [same.1]
    exact (known past open').imp_left (outstandingSyn here m)
  | accept here m =>
    have absent := shape.accepting.absent (acceptBusy here m)
    cases m <;> first | contradiction | (rw [absent] at past; contradiction)
  | reader here m =>
    cases m <;> first | exact known (by rw [here]; rfl) open' | contradiction | skip
    case lockBusy => exact stillOpen open' (ok.dataBusy rfl)
    case popNone =>
      cases client
      · exact .inr (shape.serving rfl).finPending
      · contradiction
    case finBusy => exact stillOpen open' (ok.busy rfl here)
    case finAbsent absent => exact .inr rfl
  | side m =>
    have before : v.st.reader.pc.pastFin = true := by cases m <;> first | exact past | contradiction
    rw [(sideFrame m).readClosed] at open'
    rcases known before open' with out | empty
    · exact .inl (outstandingSide m (pastFinDrain past) out)
    · refine .inr ?_
      cases m <;> first | exact empty | rfl

end Wake

structure Heard (client : Bool) (v : View) : Prop where
  shape : Shape client v
  pledge : Pledge v
  data : DataHeard v
  fin : FinHeard v

theorem runHeard {client max sid s} (reach : Run (Meets sid Wakes) client max s) : Heard client (view s sid) := by
  refine streamInvariant ?_ ?_ reach
  · exact ⟨shapeStart client max sid,pledgeStart client max sid,⟨(fun h => by cases h)⟩,⟨(fun h => by cases h)⟩⟩
  · intro v e w known ok m
    exact ⟨shapeKept known.shape m,pledgeKept known.shape known.pledge m,dataHeardKept known.shape known.data ok.2 m,
      finHeardKept known.shape known.fin ok.1 m⟩

theorem parkedHasNothing {client max sid s} (reach : Run (Meets sid Wakes) client max s)
    (parked : (s.stream sid).reader.pc = .parked) (silent : (view s sid).outstanding = false) :
    (s.stream sid).data = [] ∧ s.pendingData.items sid = [] ∧ sid ∉ s.pendingFin ∧
      (s.stream sid).finQueued = false := by
  have heard := runHeard reach
  have open' := heard.pledge.parked parked
  have past : (view s sid).st.reader.pc.pastFin = true := by
    rw [show (view s sid).st.reader.pc = .parked from parked]
    rfl
  have quiet {a : Prop} (or : (view s sid).outstanding = true ∨ a) : a :=
    or.resolve_left (fun out => Bool.false_ne_true (silent.symm.trans out))
  have pending := quiet (heard.data.data (pastFinDrain past) open')
  have fin := quiet (heard.fin.fin past open')
  simp only [View.outstanding,Bool.or_eq_false_iff,Bool.not_eq_false',List.isEmpty_iff] at silent
  exact ⟨silent.1.1.2,pending,of_decide_eq_false fin,silent.1.2⟩

def wokenByData : List Action :=
  .openStream 1::synacked 1 (parks 1
    (.frame (.psh 1 [65]) true::.loop::.loop::.loop::.loop::.loop::.wake 1 .data::parks 1 []))

theorem parkedHasNothingAgain : ∃ s, Run (Meets 1 Wakes) true 8 s ∧ (s.stream 1).delivered = [[65]] ∧
    (s.stream 1).reader.pc = .parked ∧ (s.stream 1).data = [] ∧ s.pendingData.items 1 = [] ∧
    1 ∉ s.pendingFin ∧ (s.stream 1).finQueued = false := by
  have ran : (Machine.checked step (Meets 1 Wakes) (start true 8) wokenByData).any (fun s =>
      decide ((s.stream 1).delivered = [[65]] ∧ (s.stream 1).reader.pc = .parked ∧
        (view s 1).outstanding = false)) = true := by rfl
  obtain ⟨s,run,here⟩ := Machine.checkedReaches ran
  obtain ⟨delivered,parked,silent⟩ := of_decide_eq_true here
  exact ⟨s,run,delivered,parked,parkedHasNothing run parked silent⟩

/- `store_pending_fin` tells nobody: a reader that parked before the FIN sleeps on. -/
def finBeforeSynack : List Action :=
  .openStream 1::parks 1 [.frame (.fin 1) true,.loop,.acquire .loop,.loop]

theorem finBeforeSynackSleeps : ∃ s, Run Machine.Always true 8 s ∧ (s.stream 1).reader.pc = .parked ∧
    1 ∈ s.pendingFin ∧ (view s 1).outstanding = false := by
  have ran : (Machine.checked step Machine.Always (start true 8) finBeforeSynack).any (fun s =>
      decide ((s.stream 1).reader.pc = .parked ∧ 1 ∈ s.pendingFin ∧ (view s 1).outstanding = false)) = true := by rfl
  obtain ⟨s,run,here⟩ := Machine.checkedReaches ran
  exact ⟨s,run,of_decide_eq_true here⟩

end KanoTls.Receive
