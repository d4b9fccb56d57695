import KanoTls.ReceiveCapacity
import KanoTls.ReceiveWake

/-! Refused streams. A client stream is refused by a SYNACK with a reason or by a FIN
before its SYNACK. The reason goes to the write half alone; the read half learns of
the refusal from `pending_fin`, from its own flag or from the removed handle, and from
each of these its own steps lead to the end of stream. -/
namespace KanoTls.Receive
open Pending Session

def HandlerPc.refusing : HandlerPc → Bool
  | .fin .store | .synack .probeData | .synack .probeFin | .synack (.reply _) | .close .unregister _ => true
  | _ => false

/- No SYNACK refuses the stream while its write half lives, no FIN meets a full
`pending_fin`, and no FIN is hidden from the reader. -/
structure RefusalHeard (v : View) (e : Event) : Prop where
  answered : e ≠ .refusal
  stored : e ≠ .finLost
  wakes : FinWakes v e

instance (v : View) (e : Event) : Decidable (RefusalHeard v e) :=
  decidable_of_iff (e ≠ .refusal ∧ e ≠ .finLost ∧ FinWakes v e)
    ⟨fun ⟨a,b,c⟩ => ⟨a,b,c⟩,fun ⟨a,b,c⟩ => ⟨a,b,c⟩⟩

def Recorded (v : View) : Prop := v.st.refused = true → v.st.reader.pc ≠ .gone →
  v.st.reader.readClosed = true ∨ v.finPending = true ∨ v.st.handle = none ∨
    ∃ pc, v.pc = some pc ∧ pc.refusing = true

section Recorded
variable {v w : View} {e : Event}

theorem recordedKept (shape : Shape true v) (pledge : Pledge v) (recorded : Recorded v) (ok : RefusalHeard v e)
    (m : Move true v e w) : Recorded w := by
  intro refused reading
  have known (was : v.st.refused = true) := recorded was (fun gone => reading (goneStays shape m gone))
  -- the loop is not carrying the refusal, so one of the three records stands
  have passed (past : ∀ pc, v.pc = some pc → pc.refusing = false) (was : v.st.refused = true) :
      v.st.reader.readClosed = true ∨ v.finPending = true ∨ v.st.handle = none := by
    rcases known was with closed | fin | gone | ⟨pc,here,still⟩
    · exact .inl closed
    · exact .inr (.inl fin)
    · exact .inr (.inr gone)
    · exact absurd ((past pc here).symm.trans still) Bool.false_ne_true
  have kept {u : View} (same : u.st.reader.readClosed = v.st.reader.readClosed ∧ u.finPending = v.finPending ∧
      u.st.handle = v.st.handle) (or : v.st.reader.readClosed = true ∨ v.finPending = true ∨ v.st.handle = none) :
      u.st.reader.readClosed = true ∨ u.finPending = true ∨ u.st.handle = none ∨
        ∃ pc, u.pc = some pc ∧ pc.refusing = true := by
    rw [same.1,same.2.1,same.2.2]
    rcases or with closed | fin | gone
    · exact .inl closed
    · exact .inr (.inl fin)
    · exact .inr (.inr (.inl gone))
  cases m with
  | frame m =>
    have nowhere (idle : v.pc = none) : ∀ pc, v.pc = some pc → pc.refusing = false :=
      fun pc here => absurd (idle.symm.trans here) (by simp)
    cases m <;> first | exact known refused | skip
    case openStream fresh =>
      have blank := (shape.fresh fresh).st
      rw [show v.st = {} from blank] at refused
      contradiction
    case psh idle _ => exact kept ⟨rfl,rfl,rfl⟩ (passed (nowhere idle) refused)
    case pshUnknown idle _ => exact kept ⟨rfl,rfl,rfl⟩ (passed (nowhere idle) refused)
    case fin idle => exact kept ⟨rfl,rfl,rfl⟩ (passed (nowhere idle) refused)
    case synack idle => exact kept ⟨rfl,rfl,rfl⟩ (passed (nowhere idle) refused)
    case syn idle => exact kept ⟨rfl,rfl,rfl⟩ (passed (nowhere idle) refused)
  | loop here m =>
    have only {pc'} (here : v.pc = some pc') (past : pc'.refusing = false) :
        ∀ pc, v.pc = some pc → pc.refusing = false := by
      intro pc here'
      cases Option.some.inj (here.symm.trans here')
      exact past
    cases m with
    | psh m => cases m <;> exact kept ⟨rfl,rfl,rfl⟩ (passed (only here rfl) refused)
    | close m =>
      cases m
      case remember => exact kept ⟨rfl,rfl,rfl⟩ (passed (only here rfl) refused)
      case unregister => exact .inr (.inr (.inl rfl))
      case removeData => exact kept ⟨rfl,rfl,rfl⟩ (passed (only here rfl) refused)
      case removeFin => exact .inr (.inr (.inl (shape.severed _ here rfl)))
    | fin m =>
      cases m <;> first | exact kept ⟨rfl,rfl,rfl⟩ (passed (only here rfl) refused) | skip
      case take => exact .inr (.inr (.inr ⟨_,rfl,rfl⟩))
      case lost => exact absurd rfl ok.stored
      case store => exact .inr (.inl rfl)
      case mark h found =>
        rcases passed (only here rfl) refused with closed | fin | gone
        · exact .inl closed
        · exact .inr (.inl fin)
        · exact absurd (gone.symm.trans found) (by simp)
    | synack m =>
      cases m <;> first | exact .inr (.inr (.inr ⟨_,rfl,rfl⟩)) | skip
      case takeNone => exact kept ⟨rfl,rfl,rfl⟩ (passed (only here rfl) refused)
      all_goals exact absurd (if_pos refused) ok.answered
    | flush m =>
      cases m <;> first | exact kept ⟨rfl,rfl,rfl⟩ (passed (only here rfl) refused) | exact .inr (.inr (.inl rfl)) | skip
      case takeFin =>
        have none := (pledge.flushing _ here rfl).1
        exact kept ⟨rfl,none.symm,rfl⟩ (passed (only here rfl) refused)
      case keepFin => exact .inr (.inl rfl)
  | syn here m =>
    have past : ∀ pc, v.pc = some pc → pc.refusing = false := by
      intro pc here'
      cases Option.some.inj (here.symm.trans here')
      rfl
    cases m with
    | refused => exact kept ⟨rfl,rfl,rfl⟩ (passed past refused)
    | opened c => contradiction
    | again c => contradiction
  | accept here m =>
    have busy := acceptBusy here m
    rw [shape.accepting.server rfl] at busy
    contradiction
  | reader here m =>
    cases m <;> first | exact known refused | skip
    case finWith =>
      rcases known refused with closed | fin | gone | still
      · exact .inl (show (v.st.reader.readClosed || v.finPending) = true by rw [closed]; rfl)
      · exact .inl (show (v.st.reader.readClosed || v.finPending) = true by rw [fin,Bool.or_true])
      · exact .inr (.inr (.inl gone))
      · exact .inr (.inr (.inr still))
    case finTaken => exact .inl rfl
    case finAbsent absent =>
      rcases known refused with closed | fin | gone | still
      · exact .inl closed
      · exact absurd (absent.symm.trans fin) Bool.false_ne_true
      · exact .inr (.inr (.inl gone))
      · exact .inr (.inr (.inr still))
    case wakeFin => exact .inl rfl
  | side m =>
    cases m <;> first | exact known refused | skip
    case dropReadHalf => exact absurd rfl reading
    case unregister => exact .inr (.inr (.inl rfl))
    case removeFin here =>
      refine .inr (.inr (.inl (shape.tornHandle ?_)))
      rw [here]
      rfl
    case sweepFin gone => exact absurd gone reading

theorem presentKept (shape : Shape true v) (known : v.st.opened = true → v.st.reader.pc ≠ .absent)
    (m : Move true v e w) (opened : w.st.opened = true) : w.st.reader.pc ≠ .absent := by
  cases m with
  | frame m => cases m <;> first | exact known opened | exact ReaderPc.noConfusion
  | loop here m =>
    rw [(loopFrame m).reader.1]
    exact known ((loopFrame m).opened ▸ opened)
  | syn here m => cases m <;> first | exact known opened | contradiction
  | accept here m =>
    have busy := acceptBusy here m
    rw [shape.accepting.server rfl] at busy
    contradiction
  | reader here m => cases m <;> exact ReaderPc.noConfusion
  | side m => cases m <;> first | exact known opened | exact ReaderPc.noConfusion

end Recorded

/- The loop is not on this stream, and no other task holds a lock the reader tries. -/
structure Resting (s : Session) (sid : StreamId) : Prop where
  handled : s.onLoop sid = none
  dataFree : s.dataLock = none ∨ s.dataLock = some (.reader sid) ∧ (s.stream sid).reader.pc = .locked
  finFree : s.finLock = none ∨ s.finLock = some (.reader sid) ∧ ∃ out, (s.stream sid).reader.pc = .finLocked out

/- The steps of one consumer that keeps reading. -/
inductive Reads (sid : StreamId) : Action → Prop where
  | read : Reads sid (.read sid)
  | reader : Reads sid (.reader sid)
  | wake (source) : Reads sid (.wake sid source)

def ReturnsNone (sid : StreamId) (s t : Session) : Prop := t.stream sid = (s.stream sid).returnNone

def ReaderPc.running : ReaderPc → Bool
  | .tryRecv | .empty | .armed | .locked | .finTry _ | .finLocked _ | .decide => true
  | _ => false

def ReaderPc.rank : ReaderPc → Nat
  | .idle => 9 | .tryRecv => 8 | .empty => 7 | .armed => 6 | .locked => 5
  | .finTry _ => 4 | .finLocked _ => 3 | .decide => 2 | .parked => 1 | .absent | .gone => 0

/- Each payload is read once, the stream closes once, and a notification is used once. -/
def View.effort (v : View) : Nat :=
  60 * (v.st.data.length + v.pending.length + v.st.reader.pc.out.length) + 40 * (!v.st.reader.readClosed).toNat +
    20 * (v.st.reader.notified && v.st.reader.pc.registered).toNat + v.st.reader.pc.rank

section Ends
variable {s t : Session} {sid : StreamId} {a : Action}

theorem Resting.dataLock (rest : Resting s sid) (away : (s.stream sid).reader.pc ≠ .locked) : s.dataLock = none :=
  rest.dataFree.resolve_right (fun held => away held.2)

theorem Resting.finLock (rest : Resting s sid) (away : ∀ out, (s.stream sid).reader.pc ≠ .finLocked out) :
    s.finLock = none :=
  rest.finFree.resolve_right (fun ⟨_,out,here⟩ => away out here)

theorem effortLowers {v w : View} {pc e} (here : v.st.reader.pc = pc) (m : ReaderMove true v pc e w)
    (pledge : Pledge v) (uncancelled : e ≠ .cancelled) : w.st = v.st.returnNone ∨ w.effort < v.effort := by
  have woken := Bool.toNat_le (v.st.reader.notified && v.st.reader.pc.registered)
  cases m <;> first | exact .inl rfl | exact absurd rfl uncancelled | right
  case finFree out =>
    cases out <;>
      simp [View.effort,here,ReaderPc.out,ReaderPc.rank,ReaderPc.registered,Stream.setPc]
  case finWith payload =>
    have closes : (!(v.st.reader.readClosed || v.finPending)).toNat ≤ (!v.st.reader.readClosed).toNat := by
      cases v.st.reader.readClosed <;> cases v.finPending <;> decide
    simp only [View.effort,here,ReaderPc.out,ReaderPc.rank,ReaderPc.registered,Stream.setPc,Stream.returnSome,
      Bool.and_false,Bool.toNat_false,List.length_nil,List.length_cons]
    omega
  case wakeFin =>
    have unclosed := pledge.parked here
    simp only [View.effort,here,unclosed,ReaderPc.out,ReaderPc.rank,ReaderPc.registered,Bool.and_false,Bool.not_true,
      Bool.not_false,Bool.toNat_false,Bool.toNat_true]
    omega
  all_goals
    simp_all [View.effort,ReaderPc.out,ReaderPc.rank,ReaderPc.registered,Stream.setPc,Stream.returnSome]
    try omega

theorem readerCalm {client v pc e w} (m : ReaderMove client v pc e w) :
    e ≠ .refusal ∧ e ≠ .finLost ∧ e ≠ .preSynackFin := by
  cases m <;> exact ⟨(by simp),(by simp),(by simp)⟩

theorem readerStays {client v pc e w} (m : ReaderMove client v pc e w) :
    w.st.reader.pc ≠ .gone ∧ w.st.reader.pc ≠ .absent := by
  cases m
  case popNone => cases client <;> exact ⟨ReaderPc.noConfusion,ReaderPc.noConfusion⟩
  all_goals exact ⟨ReaderPc.noConfusion,ReaderPc.noConfusion⟩

theorem readerEnabled (running : (s.stream sid).reader.pc.running = true) : ∃ t, s.readerStep sid = some t := by
  rw [← Option.isSome_iff_exists]
  cases here : (s.stream sid).reader.pc <;> rw [here] at running <;> (try contradiction) <;>
    simp only [readerStep,here]
  all_goals first | rfl | (split <;> rfl)

theorem readerRests (rest : Resting s sid) (moved : s.readerStep sid = some t) :
    Resting t sid ∧ readerEvent s sid ≠ .dataBusy ∧ readerEvent s sid ≠ .finBusy := by
  obtain ⟨handled,_,_⟩ := id rest
  cases here : (s.stream sid).reader.pc <;> simp only [readerStep,readerEvent,here] at moved ⊢ <;> try contradiction
  case locked =>
    have fin := rest.finLock (by rw [here]; simp)
    refine ⟨?_,by split <;> simp,by split <;> simp⟩
    split at moved <;> cases Option.some.inj moved <;> exact ⟨handled,.inl rfl,.inl fin⟩
  case finLocked out =>
    have data := rest.dataLock (by rw [here]; simp)
    cases Option.some.inj moved
    refine ⟨⟨handled,.inl data,.inl rfl⟩,?_⟩
    cases out with
    | none => dsimp only; split <;> exact ⟨(by simp),(by simp)⟩
    | some payload => exact ⟨(by simp),(by simp)⟩
  all_goals
    have data := rest.dataLock (by rw [here]; simp)
    have fin := rest.finLock (by rw [here]; simp)
  case armed =>
    simp only [data,Option.isSome_none,Bool.false_eq_true,if_false] at moved ⊢
    cases Option.some.inj moved
    exact ⟨⟨handled,.inr ⟨rfl,by simp [setStream,Stream.setPc]⟩,.inl fin⟩,(by simp),(by simp)⟩
  case finTry out =>
    simp only [fin,Option.isSome_none,Bool.false_eq_true,if_false] at moved ⊢
    cases Option.some.inj moved
    exact ⟨⟨handled,.inl data,.inr ⟨rfl,out,by simp [setStream,Stream.setPc]⟩⟩,(by simp),(by simp)⟩
  all_goals
    refine ⟨?_,(by simp),(by simp)⟩
    (try split at moved) <;> cases Option.some.inj moved <;> exact ⟨handled,.inl data,.inl fin⟩

theorem readsMove (rest : Resting s sid) (reads : Reads sid a) (moved : step s a = some t) :
    Resting t sid ∧ event s a ≠ .dataBusy ∧ event s a ≠ .finBusy ∧ event s a ≠ .cancelled ∧
      ∃ pc, (s.stream sid).reader.pc = pc ∧ ReaderMove s.isClient (view s sid) pc (event s a) (view t sid) := by
  have rested {st : Stream} (away : (s.stream sid).reader.pc ≠ .locked)
      (away' : ∀ out, (s.stream sid).reader.pc ≠ .finLocked out) : Resting (s.setStream sid st) sid :=
    ⟨rest.handled,.inl (rest.dataLock away),.inl (rest.finLock away')⟩
  cases reads with
  | read =>
    simp only [step] at moved
    split at moved <;> try contradiction
    rename_i idle
    cases Option.some.inj moved
    refine ⟨rested (by rw [idle]; simp) (by rw [idle]; simp),(fun h => by cases h),(fun h => by cases h),
      (fun h => by cases h),.idle,idle,?_⟩
    rw [viewStream]
    exact .start
  | reader =>
    obtain ⟨rests,data,fin⟩ := readerRests rest moved
    refine ⟨rests,data,fin,?_,_,rfl,readerMoves rfl moved⟩
    show readerEvent s sid ≠ .cancelled
    unfold readerEvent
    split <;> (try split) <;> simp
  | wake source =>
    obtain ⟨parked,m⟩ := wakeMoves moved
    refine ⟨?_,(fun h => by cases h),(fun h => by cases h),(fun h => by cases h),.parked,parked,m⟩
    simp only [step,wakeStep] at moved
    repeat' split at moved
    all_goals try contradiction
    all_goals
      cases Option.some.inj moved
      exact rested (by rw [parked]; simp) (by rw [parked]; simp)

structure Ready (sid : StreamId) (s : Session) : Prop where
  client : s.isClient = true
  rest : Resting s sid
  shape : Shape true (view s sid)
  pledge : Pledge (view s sid)
  fin : FinHeard (view s sid)
  recorded : Recorded (view s sid)
  refused : (s.stream sid).refused = true
  reading : (s.stream sid).reader.pc ≠ .gone
  present : (s.stream sid).reader.pc ≠ .absent

theorem readyKept (ready : Ready sid s) (reads : Reads sid a) (moved : step s a = some t) :
    ReturnsNone sid s t ∨ (Ready sid t ∧ (view t sid).effort < (view s sid).effort) := by
  obtain ⟨rest,dataFree,finFree,uncancelled,pc,here,m⟩ := readsMove ready.rest reads moved
  rw [ready.client] at m
  have move : Move true (view s sid) (event s a) (view t sid) := .reader here m
  have calm := readerCalm m
  have wakes : FinWakes (view s sid) (event s a) :=
    ⟨fun busy => absurd busy finFree,fun busy => absurd busy dataFree,fun store => absurd store calm.2.2⟩
  have ok : RefusalHeard (view s sid) (event s a) := ⟨calm.1,calm.2.1,wakes⟩
  have present := readerStays m
  refine (effortLowers here m ready.pledge uncancelled).imp id (fun lower => ⟨?_,lower⟩)
  exact ⟨(stepClient moved).trans ready.client,rest,shapeKept ready.shape move,
    pledgeKept ready.shape ready.pledge move,finHeardKept ready.shape ready.fin wakes move,
    recordedKept ready.shape ready.pledge ready.recorded ok move,((readerFrame m).refused).trans ready.refused,
    present.1,present.2⟩

theorem readyEnabled (ready : Ready sid s) : ∃ a t, Reads sid a ∧ step s a = some t := by
  have going (running : (s.stream sid).reader.pc.running = true) : ∃ a t, Reads sid a ∧ step s a = some t := by
    obtain ⟨t,moved⟩ := readerEnabled running
    exact ⟨.reader sid,t,.reader,moved⟩
  cases here : (s.stream sid).reader.pc with
  | absent => exact absurd here ready.present
  | gone => exact absurd here ready.reading
  | idle => exact ⟨.read sid,_,.read,if_pos here⟩
  | parked =>
    have unclosed := ready.pledge.parked here
    have woken (source) (open' : (s.wakeStep sid source).isSome = true) : ∃ a t, Reads sid a ∧ step s a = some t := by
      obtain ⟨t,moved⟩ := Option.isSome_iff_exists.mp open'
      exact ⟨.wake sid source,t,.wake source,moved⟩
    have fin (ready' : (s.stream sid).finQueued = true ∨ s.finClosed sid = true) :
        (s.wakeStep sid .fin).isSome = true := by
      have either : ((s.stream sid).finQueued || s.finClosed sid) = true := by rwa [Bool.or_eq_true]
      simp [wakeStep,here,either]
    rcases ready.recorded ready.refused ready.reading with closed | pending | gone | ⟨pc,onLoop,_⟩
    · exact absurd (unclosed.symm.trans closed) Bool.false_ne_true
    · have heard := (ready.fin.fin (by rw [show (view s sid).st.reader.pc = .parked from here]; rfl) unclosed).resolve_right
        (fun absent => Bool.false_ne_true (absent.symm.trans pending))
      rcases outstandingIff.mp heard with notified | data | queued | ⟨pc,onLoop,_⟩
      · refine woken .notified ?_
        simp [wakeStep,here,show (s.stream sid).reader.notified = true from notified]
      · refine woken .data ?_
        obtain ⟨payload,rest,found⟩ := List.exists_cons_of_ne_nil data
        simp [wakeStep,here,show (s.stream sid).data = payload::rest from found]
      · exact woken .fin (fin (.inl queued))
      · exact absurd (ready.rest.handled.symm.trans onLoop) (by simp)
    · refine woken .fin (fin (.inr ?_))
      simp [finClosed,ready.rest.handled,show (s.stream sid).handle = none from gone]
    · exact absurd (ready.rest.handled.symm.trans onLoop) (by simp)
  | _ => exact going (by rw [here]; rfl)

end Ends

structure Told (v : View) : Prop where
  shape : Shape true v
  pledge : Pledge v
  fin : FinHeard v
  recorded : Recorded v
  present : v.st.opened = true → v.st.reader.pc ≠ .absent

theorem runTold {max sid s} (reach : Run (Meets sid RefusalHeard) true max s) : Told (view s sid) := by
  refine streamInvariant ?_ ?_ reach
  · exact ⟨shapeStart true max sid,pledgeStart true max sid,⟨(fun h => by cases h)⟩,(fun h => by cases h),
      (fun h => by cases h)⟩
  · intro v e w known ok m
    exact ⟨shapeKept known.shape m,pledgeKept known.shape known.pledge m,finHeardKept known.shape known.fin ok.wakes m,
      recordedKept known.shape known.pledge known.recorded ok m,presentKept known.shape known.present m⟩

theorem refusedStreamEnds {max sid s} (reach : Run (Meets sid RefusalHeard) true max s)
    (refused : (s.stream sid).refused = true) :
    ((s.stream sid).reader.pc ≠ .gone → Resting s sid →
      Machine.Inevitable step (Reads sid) (ReturnsNone sid) s) ∧
    ∃ counted : Finset StreamId, (∀ k, k ∈ counted ↔ (s.stream k).counted = true) ∧
      s.capacity = counted.card ∧ ((s.stream sid).teardown.severed = true → sid ∉ counted) := by
  have told := runTold reach
  constructor
  · intro reading rest
    have client : s.isClient = true := by
      refine Machine.reachInvariant (I := fun s => s.isClient = true) rfl ?_ reach
      exact fun known _ moved => (stepClient moved).trans known
    have opened : (s.stream sid).opened = true := by
      by_contra unopened
      have blank := (told.shape.fresh (Bool.eq_false_iff.mpr unopened)).st
      rw [show s.stream sid = {} from blank] at refused
      contradiction
    refine Machine.inevitableByRank (I := Ready sid) (fun s => (view s sid).effort) readyEnabled readyKept ?_
    exact ⟨client,rest,told.shape,told.pledge,told.fin,told.recorded,refused,reading,told.present opened⟩
  · obtain ⟨counted,exact',total⟩ := runTally reach
    refine ⟨counted,exact',total,fun torn => ?_⟩
    have gone := told.shape.tornHandle torn
    rw [exact',Stream.counted,show (s.stream sid).handle = none from gone]
    exact Bool.false_ne_true

def refusedUnread : List Action := .openStream 1::[.frame (.fin 1) true,.loop,.acquire .loop,.loop]

theorem refusedUnreadEnds : ∃ s, Run (Meets 1 RefusalHeard) true 8 s ∧ (s.stream 1).refused = true ∧
    (s.stream 1).reader.pc = .idle ∧ Machine.Inevitable step (Reads 1) (ReturnsNone 1) s := by
  have ran : (Machine.checked step (Meets 1 RefusalHeard) (start true 8) refusedUnread).any (fun s =>
      decide ((s.stream 1).refused = true ∧ (s.stream 1).reader.pc = .idle ∧ s.onLoop 1 = none ∧
        s.dataLock = none ∧ s.finLock = none)) = true := by rfl
  obtain ⟨s,run,here⟩ := Machine.checkedReaches ran
  obtain ⟨refused,idle,handled,data,fin⟩ := of_decide_eq_true here
  have reading : (s.stream 1).reader.pc ≠ .gone := by
    rw [idle]
    exact ReaderPc.noConfusion
  exact ⟨s,run,refused,idle,(refusedStreamEnds run refused).1 reading ⟨handled,.inl data,.inl fin⟩⟩

def refusedParked : List Action :=
  .openStream 1::parks 1 [.frame (.synack 1 [82]) true,.loop,.acquire .loop,.loop,.acquire .loop,.loop,.loop]

theorem refusedParkedNeverEnds : ∃ s, Run Machine.Always true 8 s ∧ (s.stream 1).refused = true ∧
    (s.stream 1).reader.pc = .parked ∧ Resting s 1 ∧ ¬ Machine.Inevitable step (Reads 1) (ReturnsNone 1) s := by
  have ran : (Machine.checked step Machine.Always (start true 8) refusedParked).any (fun s =>
      decide ((s.stream 1).refused = true ∧ (s.stream 1).reader.pc = .parked ∧ s.onLoop 1 = none ∧
        s.dataLock = none ∧ s.finLock = none ∧ (step s (.read 1)).isNone = true ∧ (step s (.reader 1)).isNone = true ∧
        (step s (.wake 1 .data)).isNone = true ∧ (step s (.wake 1 .notified)).isNone = true ∧
        (step s (.wake 1 .fin)).isNone = true)) = true := by rfl
  obtain ⟨s,run,here⟩ := Machine.checkedReaches ran
  obtain ⟨refused,parked,handled,data,fin,read,reader,wakeData,wakeNotified,wakeFin⟩ := of_decide_eq_true here
  refine ⟨s,run,refused,parked,⟨handled,.inl data,.inl fin⟩,Machine.neverWhenStuck ?_⟩
  intro a reads
  cases reads with
  | read => exact Option.isNone_iff_eq_none.mp read
  | reader => exact Option.isNone_iff_eq_none.mp reader
  | wake source =>
    cases source
    · exact Option.isNone_iff_eq_none.mp wakeData
    · exact Option.isNone_iff_eq_none.mp wakeNotified
    · exact Option.isNone_iff_eq_none.mp wakeFin

end KanoTls.Receive
