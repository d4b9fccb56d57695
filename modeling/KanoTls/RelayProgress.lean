import KanoTls.RelayWrite
import KanoTls.LinkSize

/-! Progress of the relays at the two ends of a stream. When nothing is queued or in the
tunnel, the credit that a parked write lacks lies with the peer's relay, and a relay
whose reading goes on by itself can take it from there. -/
namespace KanoTls.Relays
open Pending Window Link Tasks Link.Side

/- A TCP relay loses its first payload at most, and what it holds fits a frame. -/
structure Leak (q : Bool) (sid : StreamId) (s : State) : Prop where
  nonneg : 0 ≤ lost q sid s
  fresh : (∀ r, s.relay q sid = some r → r.pc = .first ∨ ∃ payload, r.pc = .opening payload) → lost q sid s = 0
  tcp : ∀ r, s.relay q sid = some r → r.network = .tcp → (r.pc = .select ∨ ∃ payload, r.pc = .holding payload) →
    lost q sid s ≤ maxPayloadLen
  small : ∀ r, s.relay q sid = some r → r.pc.hand ≤ maxPayloadLen

section Leak
variable {s t : State} {a : Action} {q : Bool} {sid : StreamId} {n : Nat}

theorem leakKept (leak : Leak q sid s) (sized : Sized (s.link q))
    (turns : ReaderTurn q sid s a (s.relay q sid) (t.relay q sid) n) (more : lost q sid t = lost q sid s + n) :
    Leak q sid t := by
  obtain ⟨nonneg,fresh,tcp,small⟩ := leak
  have positive : 0 ≤ lost q sid t := by omega
  generalize s.relay q sid = old at turns fresh tcp small
  have same (zero : n = 0) : lost q sid t = lost q sid s := by omega
  refine ⟨positive,?_,?_,?_⟩
  · generalize t.relay q sid = new at turns
    intro first
    cases turns with
    | still => exact (same rfl).trans (fresh first)
    | start stream begins idle => exact (same rfl).trans (fresh (by simp))
    | take head turns =>
      rcases turns with ⟨old,rfl⟩ | ⟨_,_,rfl⟩
      · refine (same rfl).trans (fresh ?_)
        rintro r ⟨⟩
        exact .inl old
      · rcases first _ rfl with impossible | ⟨_,impossible⟩ <;> contradiction
    | connected opening => rcases first _ rfl with impossible | ⟨_,impossible⟩ <;> contradiction
    | returned holding => rcases first _ rfl with impossible | ⟨_,impossible⟩ <;> contradiction
    | unreturned holding gone => rcases first _ rfl with impossible | ⟨_,impossible⟩ <;> contradiction
    | drained reads which => rcases first _ rfl with impossible | ⟨_,impossible⟩ <;> contradiction
    | ended past holds idle =>
      rcases first _ rfl with at' | ⟨_,at'⟩ <;> exact absurd (past.symm.trans at') (by simp)
    | aside keeps holds =>
      refine (same rfl).trans (fresh ?_)
      rintro r ⟨⟩
      rw [← keeps.1]
      exact first _ rfl
  · generalize t.relay q sid = new at turns
    intro r' here network reads
    cases turns with
    | still =>
      rw [same rfl]
      exact tcp r' here network reads
    | start stream begins idle =>
      rw [same rfl,fresh (by simp)]
      exact Int.natCast_nonneg _
    | take head turns =>
      cases Option.some.inj here
      rcases turns with ⟨_,rfl⟩ | ⟨old,_,rfl⟩
      · rcases reads with impossible | ⟨_,impossible⟩ <;> contradiction
      · rw [same rfl]
        exact tcp _ rfl network (.inl old)
    | connected opening =>
      have none := fresh (by
        rintro r ⟨⟩
        exact .inr ⟨_,opening⟩)
      have short := small _ rfl
      rw [opening] at short
      simp only [RelayPc.hand] at short
      omega
    | returned holding =>
      cases Option.some.inj here
      rw [same rfl]
      exact tcp _ rfl network (.inr ⟨_,holding⟩)
    | @unreturned r payload _ _ holding gone =>
      cases Option.some.inj here
      have plain : r.network = .tcp := network
      rw [Relay.returns,plain] at gone
      contradiction
    | drained reads' which =>
      cases Option.some.inj here
      rcases reads with impossible | ⟨_,impossible⟩ <;> contradiction
    | ended past holds idle =>
      cases Option.some.inj here
      rcases reads with at' | ⟨_,at'⟩ <;> exact absurd (past.symm.trans at') (by simp)
    | aside keeps holds =>
      cases Option.some.inj here
      rw [same rfl]
      exact tcp _ rfl (keeps.2 ▸ network) (keeps.1 ▸ reads)
  · generalize t.relay q sid = new at turns
    intro r' here
    cases turns with
    | still => exact small r' here
    | start stream begins idle =>
      cases Option.some.inj here
      rcases begins with at' | ⟨at',_⟩ <;> rw [at'] <;> exact Nat.zero_le _
    | take head turns =>
      cases Option.some.inj here
      have short := sized.buffered sid _ head
      rcases turns with ⟨_,rfl⟩ | ⟨_,_,rfl⟩ <;> exact short
    | ended past holds idle =>
      cases Option.some.inj here
      rw [past]
      exact Nat.zero_le _
    | aside keeps holds =>
      cases Option.some.inj here
      rw [keeps.1]
      exact small _ rfl
    | _ =>
      cases Option.some.inj here
      exact Nat.zero_le _

end Leak

/- A session's step in which attempts do not overlap and no charged write is given up. -/
def unhurried (s : Link.State) : Link.Action → Bool
  | .own p (.gate b) =>
    alone (s p).gate b &&
    match b with
    | .cancel i => !(s p).gate.tasks[i]?.any (fun a => a.pc == .released)
    | _ => true
  | _ => true

section Gates
variable {s t : Link.State} {a : Link.Action} {p : Bool}

theorem causesAlone {b} (ok : unhurried s a = true) (causes : Causes s p a b) : alone (s p).gate b = true := by
  cases causes with
  | own own => exact (Bool.and_eq_true_iff.mp ok).1
  | write =>
    unfold writeAction
    cases p || (s p).registered _ <;> rfl
  | submit => rfl
  | frame wire reads => cases reads <;> rfl

theorem heardDriven (books : Books s) (heard : Heard (s p).gate) (ok : unhurried s a = true)
    (moved : Link.step s a = some t) : Heard (t p).gate := by
  rcases gateMoves moved p with same | ⟨b,causes,stepped⟩
  · rw [same]
    exact heard
  · exact heardKept (books.account p) heard (causesAlone ok causes) (creditMoves stepped)

theorem wholeDriven (whole : ∀ task ∈ (s p).gate.tasks, task.pc ≠ .abandoned) (ok : unhurried s a = true)
    (moved : Link.step s a = some t) : ∀ task ∈ (t p).gate.tasks, task.pc ≠ .abandoned := by
  rcases gateMoves moved p with same | ⟨b,causes,stepped⟩
  · rw [same]
    exact whole
  · generalize (t p).gate = gate at stepped
    cases causes with
    | own own =>
      have tasks := (ownMoves own stepped).tasks
      generalize gate.tasks = new at tasks
      cases tasks with
      | quiet => exact whole
      | told f same =>
        intro task member
        obtain ⟨old,here,rfl⟩ := List.mem_map.mp member
        rw [(same old).1]
        exact whole old here
      | turn found same undone early passes bypasses drops waits =>
        refine everySet whole (fun abandoned => ?_)
        obtain ⟨rfl,released⟩ := drops abandoned
        simp [unhurried,found,released] at ok
    | write =>
      obtain ⟨pc,opens,rfl⟩ := writeMoves stepped
      refine everyPush whole ?_
      cases opens <;> simp
    | submit =>
      obtain ⟨task,found,_⟩ := Option.bind_eq_some_iff.mp stepped
      obtain ⟨_,pc,turns,rfl⟩ := submitMoves found stepped
      refine everySet whole ?_
      generalize task.pc = old at turns
      cases turns <;> simp
    | frame wire reads =>
      rw [readsTasks reads stepped]
      exact whole

end Gates

/- The peer's relay awaits a write, and takes nothing until it is through. -/
def crossing (s : State) (p : Bool) (sid : StreamId) : Bool :=
  (s.relay (!p) sid).any (fun r => r.frozen && r.writing.isSome)

def flowing (sid : StreamId) (s : State) : Action → Bool
  | .session a =>
    modest s.link a && unhurried s.link a && defers sid s.link a && keeps true sid s.link a && keeps false sid s.link a
  -- of two relays that cannot read while they write, the second finds its credit
  | .write p on target data =>
    on != sid || (decide (target ≤ maxPayloadLen) &&
      (!crossing s p sid || !(s.relay p sid).any Relay.frozen ||
        decide (((target + data : Nat) : Int) ≤ (s.link p).gate.credit sid)))
  | .finish p on => on != sid || !crossing s p sid || (awaited p sid s).isNone
  | .deliver p on sent accepted =>
    on != sid || ((sent || !crossing s p sid || (awaited p sid s).isNone) &&
      (accepted || decide ((s.link p).streamConsumed sid + handOf (s.relay p sid) + slack ≤ streamWindowBytes)))
  | _ => true

def Flowing (sid : StreamId) (s : State) (a : Action) : Prop := flowing sid s a = true

instance (sid : StreamId) (s : State) (a : Action) : Decidable (Flowing sid s a) :=
  inferInstanceAs (Decidable (_ = true))

structure Going (sid : StreamId) (s : State) : Prop where
  books : Books s.link
  heard : ∀ p, Heard (s.link p).gate
  whole : ∀ p, ∀ task ∈ (s.link p).gate.tasks, task.pc ≠ .abandoned
  counted : ∀ p, Counted sid (s.link p)
  sized : ∀ p, Sized (s.link p)
  lossless : ∀ q, Lossless q sid s.link
  stream : ∀ q r, s.relay q sid = some r → sid ≠ 0
  leak : ∀ q, Leak q sid s
  writer : ∀ p, Writer p sid s
  duel : ∀ p, Duel sid s p

section Going
variable {s t : State} {a : Action} {sid : StreamId}

theorem flowingSession (ok : Flowing sid s a) : onSession modest s a = true ∧ onSession unhurried s a = true ∧
    onSession (defers sid) s a = true ∧ ∀ q, onSession (keeps q sid) s a = true := by
  cases a <;> try exact ⟨rfl,rfl,rfl,fun _ => rfl⟩
  simp only [Flowing,flowing,Bool.and_eq_true] at ok
  obtain ⟨⟨⟨⟨modest,unhurried⟩,defers⟩,client⟩,server⟩ := ok
  refine ⟨modest,unhurried,defers,fun q => ?_⟩
  cases q
  · exact server
  · exact client

theorem flowingDriven (ok : Flowing sid s a) {b : Link.Action} (driven : Drives s a b) :
    unhurried s.link b = true ∧ defers sid s.link b = true := by
  obtain ⟨_,calm,few,_⟩ := flowingSession ok
  cases driven with
  | session own => exact ⟨calm,few⟩
  | take => exact ⟨rfl,rfl⟩
  | write => exact ⟨rfl,rfl⟩
  | @note p on r payload sent accepted here holding =>
    refine ⟨rfl,?_⟩
    by_cases mine : on = sid
    · subst mine
      have hand : handOf (s.relay p on) = payload.length := by simp [handOf,here,holding,RelayPc.hand]
      simp only [Flowing,flowing,hand,bne_self_eq_false,Bool.false_or,Bool.and_eq_true] at ok
      simpa only [defers,bne_self_eq_false,Bool.false_or] using ok.2
    · simp [defers,mine]

theorem goingKept (going : Going sid s) (ok : Flowing sid s a) (moved : RelayMove s a t) : Going sid t := by
  obtain ⟨modest,_,_,keeps⟩ := flowingSession ok
  have turns (q : Bool) := readerTurns q sid moved
  have link {P : Link.State → Prop} (same : P s.link) (driven : ∀ b, Drives s a b → Link.step s.link b = some t.link →
      P t.link) :
      P t.link := by
    rcases linkDriven moved with unchanged | ⟨b,drives,stepped⟩
    · rw [unchanged]
      exact same
    · exact driven b drives stepped
  refine ⟨booksDriven going.books modest moved,?_,?_,?_,?_,fun q => losslessDriven (going.lossless q) (keeps q) moved,
    ?_,?_,?_,?_⟩
  · exact link (P := fun link => ∀ p, Heard (link p).gate) going.heard
      (fun b drives stepped p => heardDriven going.books (going.heard p) (flowingDriven ok drives).1 stepped)
  · exact link (P := fun link => ∀ p, ∀ task ∈ (link p).gate.tasks, task.pc ≠ .abandoned) going.whole
      (fun b drives stepped p => wholeDriven (going.whole p) (flowingDriven ok drives).1 stepped)
  · exact link (P := fun link => ∀ p, Counted sid (link p)) going.counted
      (fun b drives stepped => countedKept going.counted (flowingDriven ok drives).2 stepped)
  · exact link (P := fun link => ∀ p, Sized (link p)) going.sized
      (fun b drives stepped => sizedKept going.sized stepped)
  · intro q
    obtain ⟨n,turn,_⟩ := turns q
    exact streamNonzero turn (going.stream q)
  · intro q
    obtain ⟨n,turn,more⟩ := turns q
    exact leakKept (going.leak q) (going.sized q) turn more
  · intro p
    refine writerKept going.books (going.writer p) moved ?_
    rintro target data rfl
    simp [Flowing,flowing] at ok
    exact ok.1
  · intro p
    refine duelKept going.books going.writer moved (going.duel p) ?_ ?_
    · rintro p target data j rfl ⟨peer,there,stuck,writing⟩ r here frozen
      have cross : crossing s p sid = true := by simp [crossing,there,stuck,writing]
      simp [Flowing,flowing,cross,here,frozen] at ok
      exact_mod_cast ok.2
    · rintro p i j which awaits ⟨peer,there,stuck,writing⟩
      have cross : crossing s p sid = true := by simp [crossing,there,stuck,writing]
      rcases which with rfl | ⟨accepted,rfl⟩
      · simp [Flowing,flowing,cross,awaits] at ok
      · simp [Flowing,flowing,cross,awaits] at ok

end Going

theorem countedStart {sid : StreamId} : Counted sid {} := by
  have first : 0 + slack ≤ h2SessionWindowBytes ∧ 0 + slack ≤ streamWindowBytes := by decide
  exact ⟨first.1,first.2⟩

theorem runGoing {sid : StreamId} {s} (reach : Run (Flowing sid) s) : Going sid s := by
  refine Machine.reachInvariant ?_ (fun going ok moved => goingKept going ok (relayMoves moved)) reach
  have sized : Sized {} := by
    refine ⟨?_,?_,?_,?_⟩ <;> intros <;> contradiction
  have leak (q : Bool) : Leak q sid start := by
    refine ⟨Int.le_refl 0,fun _ => rfl,?_,?_⟩ <;> intros <;> contradiction
  have writer (p : Bool) : Writer p sid start := by
    refine ⟨?_,?_,?_⟩
    · intro j a found
      contradiction
    · intro i awaits
      contradiction
    · intro r here
      contradiction
  refine ⟨booksStart,fun _ => heardStart,?_,fun _ => countedStart,fun _ => sized,fun _ => ⟨rfl,rfl,rfl⟩,?_,leak,writer,?_⟩
  · intro p task member
    contradiction
  · intro q r here
    contradiction
  · rintro p i j ⟨r,here,_⟩
    contradiction

/- The relay's write sleeps in `acquire_credit`, and nobody is about to wake it. -/
def Parked (p : Bool) (sid : StreamId) (s : State) : Prop :=
  ∃ (i : Nat) (a : Acquirer), awaited p sid s = some i ∧ (s.link p).gate.tasks[i]? = some a ∧ a.pc = .parked ∧
    (s.link p).gate.outstanding a = false

def Silent (x : Side) : Prop := x.control = [] ∧ x.bulk = [] ∧ x.wire = [] ∧ ∀ a ∈ x.gate.tasks, a.pc ≠ .released

def Stuck (p : Bool) (sid : StreamId) (s : State) : Prop :=
  step s (.take p sid) = none ∧ ∀ sent accepted, step s (.deliver p sid sent accepted) = none

def Deadlocked (sid : StreamId) (s : State) : Prop :=
  (∀ p, Parked p sid s) ∧ (∀ p, Silent (s.link p)) ∧ ∀ p, Stuck p sid s

section Progress
variable {s : State} {p : Bool} {sid : StreamId} {x : Side}

theorem silentOut (silent : Silent x) (w : Msg → Int) : x.out w = 0 := by
  unfold out
  rw [silent.1,silent.2.1,silent.2.2.1]
  rfl

theorem silentHeld (silent : Silent x) : x.gate.bytes GatePc.held = 0 := by
  refine totalZero (fun a member => ?_)
  have here := silent.2.2.2 a member
  unfold Acquirer.bytes
  cases pc : a.pc <;> first | rfl | exact absurd pc here

theorem wholeNone (whole : ∀ task ∈ x.gate.tasks, task.pc ≠ .abandoned) : x.gate.bytes GatePc.abandons = 0 := by
  refine totalZero (fun a member => ?_)
  have here := whole a member
  unfold Acquirer.bytes
  cases pc : a.pc <;> first | rfl | exact absurd pc here

/- In silence the connection has credit for any write of a relay. -/
theorem silentConn (going : Going sid s) (silent : ∀ p, Silent (s.link p)) :
    2 * (maxPayloadLen : Int) ≤ (s.link p).gate.settled := by
  have sum := connBooks (going.books.account p) (going.books.conserved p)
  have loose := gateBytesNonneg (s.link p).gate GatePc.uncharged
  have counted := (going.counted (!p)).conn
  have room : 2 * maxPayloadLen ≤ slack := by decide
  rw [silentHeld (silent p),wholeNone (going.whole p),silentOut (silent p)] at sum
  unfold Side.returning at sum
  rw [silentOut (silent (!p))] at sum
  omega

/- So what a parked write lacks is credit of its stream. -/
theorem parkedLacks (going : Going sid s) (silent : ∀ p, Silent (s.link p)) (parked : Parked p sid s) :
    ∃ (i : Nat) (a : Acquirer), awaited p sid s = some i ∧ (s.link p).gate.tasks[i]? = some a ∧
      a.pc.waiting = true ∧ a.len ≤ 2 * maxPayloadLen ∧ (s.link p).gate.credit sid < a.len := by
  obtain ⟨i,a,awaits,found,pc,quiet⟩ := parked
  obtain ⟨b,there,mine,short⟩ := (going.writer p).asks awaits
  cases Option.some.inj (found.symm.trans there)
  have conn := silentConn (p := p) going silent
  have hears := (going.heard p).hears found
  rw [Hears,pc] at hears
  refine ⟨i,a,awaits,found,by rw [pc]; rfl,short,?_⟩
  rcases hears with less | less | out
  · omega
  · rw [mine] at less
    exact less
  · exact absurd (quiet.symm.trans out) (by simp)

/- What the peer lacks is buffered here, in the relay's hand or lost with its first payload. -/
theorem silentStream (going : Going sid s) (silent : ∀ p, Silent (s.link p)) (stream : sid ≠ 0) :
    streamWindowBytes ≤ (s.link (!p)).gate.credit sid + (s.link p).bufferedBytes sid + lost p sid s +
      handOf (s.relay p sid) + (s.link p).streamConsumed sid := by
  have back := going.books.conserved (!p)
  rw [Bool.not_not] at back
  have sum := streamBooks (going.books.account (!p)) back stream
  have loose := gateBytesOnNonneg (s.link (!p)).gate GatePc.uncharged sid
  have less := gateBytesOnLe (s.link (!p)).gate GatePc.held sid
  rw [silentHeld (silent (!p))] at less
  obtain ⟨dropped,ignored,abandons⟩ := going.lossless p
  rw [abandons,ignored,silentOut (silent (!p))] at sum
  unfold returningOn at sum
  rw [dropped,silentOut (silent p)] at sum
  unfold lost
  omega

theorem takesBuffered {r : Relay} {payload rest} (here : s.relay p sid = some r) (select : r.pc = .select)
    (network : r.network = .tcp) (head : (s.link p).buffered sid = payload::rest) : step s (.take p sid) ≠ none := by
  simp [step,here,takeStep,head,select,Relay.reads,network,Link.step,localStep,Side.take]

theorem returnsHeld {r : Relay} {payload} (here : s.relay p sid = some r) (holding : r.pc = .holding payload)
    (network : r.network = .tcp) (stream : sid ≠ 0) (taken : (s.link p).noted sid + payload.length ≤ (s.link p).taken sid) :
    step s (.deliver p sid true false) ≠ none := by
  have passes : r.returns p payload = true := by rw [Relay.returns,network]
  simp only [step,here,Option.bind_some,deliverStep,holding,passes,Link.step,localStep,Side.note,taken,noteConsumed]
  simp [stream]

/- A relay that reads in a task of its own can always take or return what is missing. -/
theorem readerMovesOn (going : Going sid s) (silent : ∀ p, Silent (s.link p)) {r : Relay} (here : s.relay p sid = some r)
    (network : r.network = .tcp) (reads : r.pc = .select ∨ ∃ payload, r.pc = .holding payload)
    (lacks : (s.link (!p)).gate.credit sid < 2 * maxPayloadLen) : ¬ Stuck p sid s := by
  rintro ⟨noTake,noDeliver⟩
  have stream := going.stream p r here
  have sum := silentStream (p := p) going silent stream
  have counted := (going.counted p).stream
  obtain ⟨nonneg,_,tcp,_⟩ := going.leak p
  have little := tcp r here network reads
  have room : 4 * maxPayloadLen ≤ slack := by decide
  rcases reads with select | ⟨payload,holding⟩
  · have empty : handOf (s.relay p sid) = 0 := by simp [handOf,here,select,RelayPc.hand]
    cases buffered : (s.link p).buffered sid with
    | nil =>
      have none : (s.link p).bufferedBytes sid = 0 := by rw [bufferedBytes,buffered]; rfl
      omega
    | cons payload rest => exact takesBuffered here select network buffered noTake
  · have hand : handOf (s.relay p sid) = payload.length := by simp [handOf,here,holding,RelayPc.hand]
    refine returnsHeld here holding network stream ?_ (noDeliver true false)
    unfold lost at nonneg
    omega

theorem frozenOf {i : Nat} {r : Relay} (here : s.relay p sid = some r) (writing : r.writing = some i)
    (live : Live r.pc) (frozen : ¬ (r.network = .tcp ∧ (r.pc = .select ∨ ∃ payload, r.pc = .holding payload))) :
    Frozen p sid s i := by
  refine ⟨r,here,?_,writing⟩
  unfold Relay.frozen
  cases network : r.network with
  | udp => rfl
  | tcp =>
    rcases live with select | holding | drained
    · exact absurd ⟨network,.inl select⟩ frozen
    · exact absurd ⟨network,.inr holding⟩ frozen
    · rw [drained]
      rfl

end Progress

theorem neverDeadlocked {sid : StreamId} {s} (reach : Run (Flowing sid) s) : ¬ Deadlocked sid s := by
  rintro ⟨parked,silent,stuck⟩
  have going := runGoing reach
  have lacks (p : Bool) := parkedLacks going silent (parked p)
  have frozen (p : Bool) {i : Nat} (awaits : awaited p sid s = some i) : Frozen p sid s i := by
    obtain ⟨r,here,writing⟩ := Option.bind_eq_some_iff.mp awaits
    refine frozenOf here writing ((going.writer p).live here (by rw [writing]; simp)) ?_
    rintro ⟨network,reads⟩
    obtain ⟨j,b,_,_,_,short,less⟩ := lacks (!p)
    exact readerMovesOn going silent here network reads (by omega) (stuck p)
  obtain ⟨i,a,awaits,found,waits,_,less⟩ := lacks true
  obtain ⟨j,b,awaits',found',waits',_,less'⟩ := lacks false
  rcases going.duel true i j (frozen true awaits) (frozen false awaits') with covered | covered
  · have enough := covered a found waits
    omega
  · have enough := covered b found' waits'
    exact absurd less' (Int.not_lt.mpr enough)

theorem neverDeadlockedReply : ∃ s, Run (Flowing 1) s ∧ (s.link true).noted 1 = 3 ∧ ¬ Deadlocked 1 s := by
  have ran : (Machine.checked step (Flowing 1) start
      (opensStream (writesOn false 1 0 none [1,2,3] [.take true 1,.deliver true 1 true true]))).any (fun s =>
      decide ((s.link true).noted 1 = 3)) = true := by rfl
  obtain ⟨s,run,here⟩ := Machine.checkedReaches ran
  exact ⟨s,run,of_decide_eq_true here,neverDeadlocked run⟩

end KanoTls.Relays
