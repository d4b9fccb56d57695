import KanoTls.LinkFlow

/-! Connection credit between two sessions. Every run keeps the books as long as what
goes past the gate uncharged stays small; credit and bytes under way add up to the
window but for the bytes sent past the gate and the charged bytes that are never sent. -/
namespace KanoTls.Link
open Pending Window Tasks Side

inductive Causes (s : State) (p : Bool) : Action → Window.Action → Prop where
  | own {a} (own : isOwn a = true) : Causes s p (.own p (.gate a)) a
  | write {sid len} : Causes s p (.own p (.write sid len)) ((s p).writeAction p sid len)
  | submit {i target data control} : Causes s p (.own p (.submit i target data control)) (.submit i)
  | frame {kept accepted m rest b} (wire : (s (!p)).wire = m::rest) (reads : Reads (s p) m b) :
      Causes s p (.receive p kept accepted) b

section Causes
variable {s t : State} {a : Action} {p : Bool} {x y : Side}

theorem noteConsumedGate {sid len accepted} (moved : x.noteConsumed sid len accepted = some y) : y.gate = x.gate := by
  obtain ⟨_,_,rfl,_⟩ := noteReturns moved
  exact enqueueGate _ _ _

theorem localGate {l : LocalAction} (moved : (s p).localStep p l = some y) :
    y.gate = (s p).gate ∨ ∃ b, Causes s p (.own p l) b ∧ Window.step (s p).gate b = some y.gate := by
  cases l with
  | gate b =>
    simp only [localStep] at moved
    split at moved <;> try contradiction
    rename_i own
    obtain ⟨gate,stepped,rfl⟩ := Option.map_eq_some_iff.mp moved
    exact .inr ⟨b,.own own,stepped⟩
  | write sid len =>
    obtain ⟨gate,stepped,rfl⟩ := Option.map_eq_some_iff.mp moved
    exact .inr ⟨_,.write,stepped⟩
  | submit i target data control =>
    obtain ⟨a,found,moved⟩ := Option.bind_eq_some_iff.mp moved
    split at moved <;> try contradiction
    obtain ⟨gate,stepped,rfl⟩ := Option.map_eq_some_iff.mp moved
    rw [enqueueGate]
    exact .inr ⟨_,.submit,stepped⟩
  | send control fc =>
    simp only [localStep] at moved
    split at moved <;> try contradiction
    cases Option.some.inj moved
    exact .inl (enqueueGate _ _ _)
  | sendOther control =>
    simp only [localStep] at moved
    split at moved <;> try contradiction
    cases Option.some.inj moved
    exact .inl (enqueueGate _ _ _)
  | transmit control =>
    simp only [localStep,transmit] at moved
    split at moved <;> try contradiction
    split at moved <;> try contradiction
    cases Option.some.inj moved
    cases control <;> exact .inl rfl
  | register sid =>
    cases Option.some.inj moved
    exact .inl rfl
  | unregister sid =>
    cases Option.some.inj moved
    exact .inl rfl
  | take sid =>
    simp only [localStep,take] at moved
    split at moved <;> try contradiction
    cases Option.some.inj moved
    exact .inl rfl
  | note sid len accepted =>
    simp only [localStep,note] at moved
    split at moved <;> try contradiction
    have same := noteConsumedGate moved
    exact .inl same

theorem frameGate {kept accepted m rest} (wire : (s (!p)).wire = m::rest) (moved : FrameMove (s p) kept accepted m y) :
    y.gate = (s p).gate ∨ ∃ b, Causes s p (.receive p kept accepted) b ∧ Window.step (s p).gate b = some y.gate := by
  cases moved with
  | psh counted =>
    rw [storeGate,enqueueGate]
    exact .inl rfl
  | gate reads stepped => exact .inr ⟨_,.frame wire reads,stepped⟩
  | gone stream gone => exact .inl rfl
  | other => exact .inl rfl

theorem gateMoves (moved : step s a = some t) (p : Bool) :
    (t p).gate = (s p).gate ∨ ∃ b, Causes s p a b ∧ Window.step (s p).gate b = some (t p).gate := by
  cases linkMoves moved with
  | @own q _ _ here =>
    rcases Bool.eq_or_eq_not p q with rfl | rfl
    · rw [Function.update_self]
      exact localGate here
    · rw [updatePeer]
      exact .inl rfl
  | @receive q _ _ _ _ _ wire here =>
    rcases Bool.eq_or_eq_not p q with rfl | rfl
    · rw [Function.update_self]
      exact frameGate wire (frameMoves here)
    · rw [updatePeer,Function.update_self]
      exact .inl rfl

end Causes

def spare : Nat := maxU32 - h2SessionWindowBytes

/- The bytes let past the gate uncharged so far leave room for a window. -/
def modest (s : State) : Action → Bool
  | .own p (.submit _ _ _ _) => decide ((s p).gate.bytes GatePc.loose ≤ spare)
  | _ => true

structure Books (s : State) : Prop where
  account : ∀ p, Account (s p).gate
  conserved : ∀ p, Conserved (s p) (s (!p))
  spare : ∀ p, (s p).gate.bytes GatePc.uncharged ≤ spare
  noted : ∀ p sid, (s p).noted sid ≤ (s p).taken sid

section Books
variable {s t : State} {a : Action} {p : Bool} {x y : Side} {sid : StreamId}

theorem connBooks (account : Account x.gate) (conserved : Conserved x y) :
    x.gate.settled + x.gate.bytes GatePc.held + x.gate.bytes GatePc.abandons + x.out Msg.pshBytes + y.returning =
      h2SessionWindowBytes + x.gate.bytes GatePc.uncharged := by
  have conn : x.gate.settled + x.gate.bytes GatePc.charged = h2SessionWindowBytes + x.gate.connGranted := account.conn
  have flow := conserved.conn
  have split := chargedSplit x.gate
  unfold unreturned at flow
  omega

theorem streamBooks (account : Account x.gate) (conserved : Conserved x y) (stream : sid ≠ 0) :
    x.gate.credit sid + x.gate.bytesOn GatePc.held sid + x.gate.bytesOn GatePc.abandons sid +
        x.out (Msg.pshBytesOn sid) + x.ignored sid + y.returningOn sid =
      streamWindowBytes + x.gate.bytesOn GatePc.uncharged sid := by
  have credit : x.gate.credit sid + x.gate.bytesOn GatePc.charged sid = streamWindowBytes + x.gate.granted sid :=
    account.stream sid
  have flow := conserved.stream sid stream
  have split := chargedSplitOn x.gate sid
  unfold unreturnedOn at flow
  omega

theorem settledNonneg (account : Account x.gate) : 0 ≤ x.gate.settled := by
  have conn := account.nonneg.1
  have flying : 0 ≤ total Acquirer.inFlight x.gate.tasks := totalNonneg inFlightNonneg
  unfold Gate.settled
  omega

theorem connLimit (books : Books s) (p : Bool) :
    (s p).gate.settled + (s p).out Msg.pshBytes + (s (!p)).returning ≤ maxU32 := by
  have sum := connBooks (books.account p) (books.conserved p)
  have held := gateBytesNonneg (s p).gate GatePc.held
  have abandons := gateBytesNonneg (s p).gate GatePc.abandons
  have few := books.spare p
  have fits : (h2SessionWindowBytes : Int) + spare = maxU32 := by decide
  omega

theorem streamLimit (books : Books s) (p : Bool) (stream : sid ≠ 0) :
    (s p).gate.credit sid + (s p).out (Msg.pshBytesOn sid) + (s (!p)).returningOn sid ≤ maxU32 := by
  have sum := streamBooks (books.account p) (books.conserved p) stream
  have held := gateBytesOnNonneg (s p).gate GatePc.held sid
  have abandons := gateBytesOnNonneg (s p).gate GatePc.abandons sid
  have less := gateBytesOnLe (s p).gate GatePc.uncharged sid
  have few := books.spare p
  have fits : (streamWindowBytes : Int) + spare = maxU32 := by decide
  omega

theorem bufferedNonneg (x : Side) (sid : StreamId) : 0 ≤ x.bufferedBytes sid :=
  totalNonneg (fun _ => Int.natCast_nonneg _)

theorem causesRoomy (books : Books s) {b} (causes : Causes s p a b) : roomy (s p).gate b = true := by
  have large : (maxU32 : Int) ≤ maxI64 := by decide
  cases causes with
  | own own =>
    cases b <;> try rfl
    rename_i e
    cases e <;> first | rfl | contradiction
  | write =>
    unfold writeAction
    cases p || (s p).registered _ <;> rfl
  | submit => rfl
  | frame wire reads =>
    cases reads with
    | connCredit =>
      have limit := connLimit books p
      have out := outNonneg (x := s p) pshBytesNonneg
      have head := headLeOut (creditsNonneg 0) wire
      simp only [roomy,decide_eq_true_eq]
      simp only [Msg.credits,beq_self_eq_true,cond_true] at head
      unfold returning at limit
      omega
    | @streamCredit on _ stream registered =>
      have limit := streamLimit books p stream
      have out := outNonneg (x := s p) (pshBytesOnNonneg on)
      have head := headLeOut (creditsNonneg on) wire
      have buffered := bufferedNonneg (s (!p)) on
      have noted := books.noted (!p) on
      simp only [roomy,decide_eq_true_eq]
      simp only [Msg.credits,beq_self_eq_true,cond_true] at head
      unfold returningOn at limit
      omega
    | settings => rfl

theorem unchargedOwn {b t' : Gate} {c} (moved : OwnMove b c t') : t'.bytes GatePc.uncharged = b.bytes GatePc.uncharged :=
  totalOwn (sentWeightBytes unchargedWithin) moved.tasks

theorem readsTasks {g gate : Gate} {m b} (reads : Reads x m b) (moved : Window.step g b = some gate) :
    gate.tasks = g.tasks := by
  cases reads <;> simp only [Window.step,Gate.readStep] at moved <;> split at moved <;>
    first | contradiction | (cases Option.some.inj moved; rfl)

theorem unchargedMoved {b} {gate : Gate} (causes : Causes s p a b) (moved : Window.step (s p).gate b = some gate)
    (few : (s p).gate.bytes GatePc.uncharged ≤ spare) (ok : modest s a = true) : gate.bytes GatePc.uncharged ≤ spare := by
  cases causes with
  | own own =>
    rw [unchargedOwn (ownMoves own moved)]
    exact few
  | write =>
    obtain ⟨pc,opens,rfl⟩ := writeMoves moved
    show total _ (_ ++ [_]) ≤ _
    rw [totalPush,(sentWeightBytes unchargedWithin).undone (opensUndone opens),Int.add_zero]
    exact few
  | @submit i =>
    obtain ⟨a,found,_⟩ := Option.bind_eq_some_iff.mp moved
    obtain ⟨_,pc,turns,rfl⟩ := submitMoves found moved
    have same : Acquirer.bytes GatePc.loose {a with pc := pc} = a.bytes GatePc.loose := by
      unfold Acquirer.bytes
      generalize here : a.pc = old at turns
      cases turns <;> rfl
    have loose : ((s p).gate.setTask i {a with pc := pc}).bytes GatePc.loose = (s p).gate.bytes GatePc.loose := by
      show total _ (List.set _ _ _) = _
      rw [totalSet _ found,same,Gate.bytes]
      omega
    have less : ((s p).gate.setTask i {a with pc := pc}).bytes GatePc.uncharged ≤
        ((s p).gate.setTask i {a with pc := pc}).bytes GatePc.loose := totalMono unchargedLoose
    have room : (s p).gate.bytes GatePc.loose ≤ spare := of_decide_eq_true ok
    omega
  | frame wire reads =>
    rw [Gate.bytes,readsTasks reads moved]
    exact few

theorem localNoted {l : LocalAction} (moved : ReaderMove x l y) (noted : ∀ sid, x.noted sid ≤ x.taken sid) (sid) :
    y.noted sid ≤ y.taken sid := by
  cases moved with
  | same quiet same =>
    rw [same.noted,same.taken]
    exact noted sid
  | @take on d rest here =>
    by_cases mine : sid = on
    · subst mine
      simp only [Function.update_self]
      exact Nat.le_trans (noted sid) (Nat.le_add_right _ _)
    · simp only [Function.update_of_ne mine]
      exact noted sid
  | @note on len _ _ _ stream room counted =>
    simp only [enqueueNoted,enqueueTaken]
    by_cases mine : sid = on
    · subst mine
      simp only [Function.update_self]
      exact room
    · simp only [Function.update_of_ne mine]
      exact noted sid

theorem frameReader {kept accepted m} (moved : FrameMove x kept accepted m y) :
    y.taken = x.taken ∧ y.noted = x.noted ∧ y.streamConsumed = x.streamConsumed := by
  cases moved with
  | psh counted => exact ⟨by simp,by simp,by simp⟩
  | gate reads stepped => exact ⟨rfl,rfl,rfl⟩
  | gone stream gone => exact ⟨rfl,rfl,rfl⟩
  | other => exact ⟨rfl,rfl,rfl⟩

theorem booksKept (books : Books s) (ok : modest s a = true) (moved : step s a = some t) : Books t := by
  refine ⟨fun p => ?_,?_,fun p => ?_,?_⟩
  · rcases gateMoves moved p with same | ⟨b,causes,stepped⟩
    · rw [same]
      exact books.account p
    · exact accountKept (books.account p) (causesRoomy books causes) (creditMoves stepped)
  · cases linkMoves moved with
    | @own p l y here =>
      have balanced : Balanced (s p) y := by
        refine localBalanced here ?_
        rintro sid len accepted rfl
        simp only [localStep,note] at here
        split at here <;> try contradiction
        rename_i allowed
        have limit := streamLimit books (!p) allowed.1
        have credit := (books.account (!p)).nonneg.2 sid
        have out := outNonneg (x := s (!p)) (pshBytesOnNonneg sid)
        have credits := outNonneg (x := s p) (creditsNonneg sid)
        have buffered := bufferedNonneg (s p) sid
        rw [Bool.not_not] at limit
        unfold returningOn at limit
        omega
      refine sidesMoved (R := Conserved) ?_ ?_
      · exact conservedOwn (books.conserved p) balanced (balancedRefl _)
      · have back := books.conserved (!p)
        rw [Bool.not_not] at back
        exact conservedOwn back (balancedRefl _) balanced
    | @receive p kept accepted m rest y wire here =>
      have handles : Handles m (s p) y := by
        refine frameHandles ?_ (frameMoves here)
        have limit := connLimit books (!p)
        have settled := settledNonneg (books.account (!p))
        have head := headLeOut pshBytesNonneg wire
        have credits := outNonneg (x := s p) (creditsNonneg 0)
        rw [Bool.not_not] at limit
        unfold returning at limit
        omega
      refine sidesBothMoved (R := Conserved) ?_ ?_
      · exact conservedBack (books.conserved p) wire handles
      · have forth := books.conserved (!p)
        rw [Bool.not_not] at forth
        exact conservedForth forth wire handles
  · rcases gateMoves moved p with same | ⟨b,causes,stepped⟩
    · rw [same]
      exact books.spare p
    · exact unchargedMoved causes stepped (books.spare p) ok
  · cases linkMoves moved with
    | @own p l y here =>
      intro q
      rcases Bool.eq_or_eq_not q p with rfl | rfl
      · rw [Function.update_self]
        exact localNoted (readerMoves here) (books.noted q)
      · rw [updatePeer]
        exact books.noted _
    | @receive p kept accepted m rest y wire here =>
      intro q sid
      rcases Bool.eq_or_eq_not q p with rfl | rfl
      · have same := frameReader (frameMoves here)
        rw [Function.update_self,same.1,same.2.1]
        exact books.noted q sid
      · rw [updatePeer,Function.update_self]
        exact books.noted _ sid

theorem booksStart : Books start :=
  ⟨fun _ => accountStart,fun _ => ⟨rfl,fun _ _ => rfl⟩,fun _ => Int.natCast_nonneg spare,fun _ _ => Nat.le_refl _⟩

theorem runBooks {s} (reach : Run (fun s a => modest s a = true) s) : Books s :=
  Machine.reachInvariant booksStart (fun books ok moved => booksKept books ok moved) reach

end Books

/- Every byte is charged once `fc=1` is known, and every charged byte is sent. -/
def charging (s : State) : Action → Bool
  -- the server's write finds its stream registered
  | .own p (.write sid _) => !(s p).gate.peerFlowControl || p || (s p).registered sid
  -- no write is given up between its charge and its submission
  | .own p (.gate (.cancel i)) => !(s p).gate.tasks[i]?.any (fun a => a.pc == .released)
  -- no write that passed the gate is still to be submitted when `fc=1` arrives
  | .receive p _ _ =>
    match (s (!p)).wire with
    | .settings true::_ => (s p).gate.peerFlowControl || (s p).gate.tasks.all (fun a => a.pc != .passed)
    | _ => true
  | _ => true

def Charging (s : State) (a : Action) : Prop := modest s a = true ∧ charging s a = true

instance (s : State) (a : Action) : Decidable (Charging s a) := inferInstanceAs (Decidable (_ ∧ _))

/- What was sent uncharged was sent before `fc=1` was known, and nothing was given up. -/
structure Early (x : Side) : Prop where
  unknown : x.gate.peerFlowControl = false → ∀ a ∈ x.gate.tasks, a.pc.early = true
  known : x.gate.peerFlowControl = true → ∀ a ∈ x.gate.tasks, a.pc = .passed → x.gate.closeRequested = true
  asked : ∀ a ∈ x.gate.tasks, a.pc ≠ .bypassed ∧ a.pc ≠ .abandoned
  counted : x.gate.bytes GatePc.uncharged = x.early

section Early
variable {s t : State} {a : Action} {p : Bool} {x y : Side}

theorem earlyOwn {b} {gate : Gate} (early : Early x) (moved : OwnMove x.gate b gate)
    (kept : ∀ i a, b = .cancel i → x.gate.tasks[i]? = some a → a.pc ≠ .released) : Early {x with gate := gate} := by
  have counted : gate.bytes GatePc.uncharged = x.early := (unchargedOwn moved).trans early.counted
  obtain ⟨_,_,flowControl,closed,tasks,_⟩ := moved
  have old {P : Acquirer → Prop} {f : Acquirer → Acquirer} (every : ∀ a ∈ x.gate.tasks, P a)
      (same : ∀ a, P a → P (f a)) : ∀ a ∈ x.gate.tasks.map f, P a := by
    intro a member
    obtain ⟨b,here,rfl⟩ := List.mem_map.mp member
    exact same b (every b here)
  refine ⟨fun unknown => ?_,fun known => ?_,?_,counted⟩
  · rw [flowControl] at unknown
    have was := early.unknown unknown
    show ∀ a ∈ gate.tasks, _
    generalize gate.tasks = new at tasks ⊢
    cases tasks with
    | quiet => exact was
    | told f same => exact old was (fun a here => by rw [(same a).1]; exact here)
    | turn found same undone early passes bypasses drops waits =>
      exact everySet was (early unknown (was _ (List.mem_of_getElem? found)))
  · rw [flowControl] at known
    have was := early.known known
    have later : ∀ a ∈ x.gate.tasks, a.pc = .passed → gate.closeRequested = true :=
      fun a member passed => closed (was a member passed)
    show ∀ a ∈ gate.tasks, _
    generalize gate.tasks = new at tasks ⊢
    cases tasks with
    | quiet => exact later
    | told f same => exact old later (fun a here => by rw [(same a).1]; exact here)
    | turn found same undone early passes bypasses drops waits =>
      refine everySet later (fun passed => closed ((passes passed).resolve_left ?_))
      rw [known]
      simp
  · have was := early.asked
    show ∀ a ∈ gate.tasks, _
    generalize gate.tasks = new at tasks ⊢
    cases tasks with
    | quiet => exact was
    | told f same => exact old was (fun a here => by rw [(same a).1]; exact here)
    | turn found same undone early passes bypasses drops waits =>
      refine everySet was ⟨bypasses,fun abandoned => ?_⟩
      obtain ⟨rfl,released⟩ := drops abandoned
      exact kept _ _ rfl found released

theorem earlyWrite {sid len} {gate : Gate} (early : Early x)
    (ok : (!x.gate.peerFlowControl || p || x.registered sid) = true)
    (moved : Window.step x.gate (x.writeAction p sid len) = some gate) : Early {x with gate := gate} := by
  obtain ⟨pc,opens,rfl⟩ := writeMoves moved
  refine ⟨fun unknown => ?_,fun known => ?_,?_,?_⟩
  · refine everyPush (early.unknown unknown) ?_
    cases opens with
    | start asked => rfl
    | passed away _ => rfl
    | bypassed away known => exact absurd (known.symm.trans unknown) (by simp)
  · refine everyPush (early.known known) ?_
    cases opens with
    | start asked =>
      intro passed
      cases passed
    | passed away unknown => exact absurd (known.symm.trans unknown) (by simp)
    | bypassed away _ =>
      intro passed
      cases passed
  · refine everyPush early.asked ?_
    cases opens with
    | start asked => exact ⟨(by simp),(by simp)⟩
    | passed away unknown => exact ⟨(by simp),(by simp)⟩
    | bypassed away known =>
      rw [Bool.or_assoc,away,known] at ok
      contradiction
  · show total _ (_ ++ [_]) = _
    rw [totalPush,(sentWeightBytes unchargedWithin).undone (opensUndone opens),Int.add_zero]
    exact early.counted

theorem earlySubmit {i target data control} (early : Early x) (moved : x.submit i target data control = some y) :
    Early y := by
  obtain ⟨a,found,moved⟩ := Option.bind_eq_some_iff.mp moved
  split at moved <;> try contradiction
  obtain ⟨gate,submitted,rfl⟩ := Option.map_eq_some_iff.mp moved
  obtain ⟨openNow,pc,turns,rfl⟩ := submitMoves found submitted
  have member := List.mem_of_getElem? found
  have here := early.asked a member
  have moved : x.gate.bytes GatePc.uncharged + Acquirer.bytes GatePc.uncharged {a with pc := pc} =
      bif x.gate.peerFlowControl then (x.early : Int) else x.early + a.len := by
    rw [early.counted]
    generalize old : a.pc = pc' at turns here
    cases turns with
    | released =>
      cases known : x.gate.peerFlowControl
      · have was := early.unknown known a member
        rw [old] at was
        contradiction
      · exact Int.add_zero _
    | passed =>
      cases known : x.gate.peerFlowControl
      · rfl
      · have closed := early.known known a member old
        exact absurd (openNow.symm.trans closed) (by simp)
    | bypassed => exact absurd rfl here.1
  refine ⟨?_,?_,?_,?_⟩ <;> simp only [enqueueGate,enqueueEarly]
  · intro unknown
    have was := early.unknown unknown
    refine everySet was ?_
    have mine := was a member
    generalize a.pc = pc' at turns mine
    cases turns <;> first | rfl | contradiction
  · intro known
    refine everySet (early.known known) ?_
    generalize a.pc = pc' at turns
    cases turns <;> simp
  · refine everySet early.asked ?_
    generalize a.pc = pc' at turns
    cases turns <;> exact ⟨(by simp),(by simp)⟩
  · have undone : a.bytes GatePc.uncharged = 0 := by
      unfold Acquirer.bytes
      generalize a.pc = pc' at turns
      cases turns <;> rfl
    show total _ (List.set _ _ _) = _
    rw [totalSet _ found,undone]
    unfold Gate.bytes at moved
    cases known : x.gate.peerFlowControl <;> rw [known] at moved <;>
      simp only [cond_true,cond_false,Int.natCast_add] at moved ⊢ <;> omega

theorem earlySame (early : Early x) (same : y.gate = x.gate ∧ y.early = x.early) : Early y := by
  obtain ⟨gate,count⟩ := same
  refine ⟨?_,?_,?_,?_⟩
  · rw [gate]
    exact early.unknown
  · rw [gate]
    exact early.known
  · rw [gate]
    exact early.asked
  · rw [gate,count]
    exact early.counted

theorem earlyFrame {kept accepted m} (early : Early x) (moved : FrameMove x kept accepted m y)
    (ok : m = .settings true → (x.gate.peerFlowControl || x.gate.tasks.all (fun a => a.pc != .passed)) = true) :
    Early y := by
  cases moved with
  | psh counted => exact earlySame early ⟨by simp,by simp⟩
  | gone stream gone => exact earlySame early ⟨rfl,rfl⟩
  | other => exact early
  | gate reads stepped =>
    cases reads with
    | settings =>
      simp only [Window.step,Gate.readStep] at stepped
      split at stepped <;> try contradiction
      cases Option.some.inj stepped
      refine ⟨fun unknown => ?_,fun known => ?_,early.asked,early.counted⟩
      · exact early.unknown (Bool.or_eq_false_iff.mp unknown).1
      · cases before : x.gate.peerFlowControl
        · have now := known
          simp only [before,Bool.false_or] at now
          subst now
          intro a member passed
          have none := ok rfl
          simp only [before,Bool.false_or,List.all_eq_true,bne_iff_ne] at none
          exact absurd passed (none a member)
        · exact early.known before
    | connCredit =>
      simp only [Window.step,Gate.readStep] at stepped
      split at stepped <;> try contradiction
      cases Option.some.inj stepped
      exact ⟨early.unknown,early.known,early.asked,early.counted⟩
    | streamCredit =>
      simp only [Window.step,Gate.readStep] at stepped
      split at stepped <;> try contradiction
      cases Option.some.inj stepped
      exact ⟨early.unknown,early.known,early.asked,early.counted⟩

theorem localEarly {l : LocalAction} (early : Early (s p)) (ok : charging s (.own p l) = true)
    (moved : (s p).localStep p l = some y) : Early y := by
  cases l with
  | gate b =>
    simp only [localStep] at moved
    split at moved <;> try contradiction
    rename_i own
    obtain ⟨gate,stepped,rfl⟩ := Option.map_eq_some_iff.mp moved
    refine earlyOwn early (ownMoves own stepped) ?_
    rintro i a rfl found released
    simp [charging,found,released] at ok
  | write sid len =>
    obtain ⟨gate,stepped,rfl⟩ := Option.map_eq_some_iff.mp moved
    exact earlyWrite early ok stepped
  | submit i target data control => exact earlySubmit early moved
  | send control fc =>
    simp only [localStep] at moved
    split at moved <;> try contradiction
    cases Option.some.inj moved
    exact earlySame early ⟨enqueueGate _ _ _,enqueueEarly _ _ _⟩
  | sendOther control =>
    simp only [localStep] at moved
    split at moved <;> try contradiction
    cases Option.some.inj moved
    exact earlySame early ⟨enqueueGate _ _ _,enqueueEarly _ _ _⟩
  | transmit control =>
    simp only [localStep,transmit] at moved
    split at moved <;> try contradiction
    split at moved <;> try contradiction
    cases Option.some.inj moved
    cases control <;> exact earlySame early ⟨rfl,rfl⟩
  | register sid =>
    cases Option.some.inj moved
    exact earlySame early ⟨rfl,rfl⟩
  | unregister sid =>
    cases Option.some.inj moved
    exact earlySame early ⟨rfl,rfl⟩
  | take sid =>
    cases readerMoves moved with
    | same quiet same => contradiction
    | take here => exact earlySame early ⟨rfl,rfl⟩
  | note sid len accepted =>
    cases readerMoves moved with
    | same quiet same => contradiction
    | note stream room counted => exact earlySame early ⟨enqueueGate _ _ _,enqueueEarly _ _ _⟩

theorem earlyKept (early : ∀ p, Early (s p)) (ok : charging s a = true) (moved : step s a = some t) (p : Bool) :
    Early (t p) := by
  cases linkMoves moved with
  | @own q l y here =>
    rcases Bool.eq_or_eq_not p q with rfl | rfl
    · rw [Function.update_self]
      exact localEarly (early p) ok here
    · rw [updatePeer]
      exact early _
  | @receive q kept accepted m rest y wire here =>
    rcases Bool.eq_or_eq_not p q with rfl | rfl
    · rw [Function.update_self]
      refine earlyFrame (early p) (frameMoves here) ?_
      rintro rfl
      simpa only [charging,wire] using ok
    · rw [updatePeer,Function.update_self]
      exact earlySame (early _) ⟨rfl,rfl⟩

theorem earlyNone (early : Early x) : x.gate.bytes GatePc.abandons = 0 := by
  refine totalZero (fun a member => ?_)
  have here := (early.asked a member).2
  unfold Acquirer.bytes
  cases pc : a.pc <;> first | rfl | exact absurd pc here

end Early

/- In every state the window is the credit at hand, the bytes charged and not yet
received, the bytes the peer has counted and the increments under way, but for the
bytes that went out before `fc=1` was known. -/
theorem connCreditConserved {s} (reach : Run Charging s) (p : Bool) :
    (s p).gate.conn + total Acquirer.inFlight (s p).gate.tasks + (s p).gate.bytes GatePc.held +
        (s p).out Msg.pshBytes + (s (!p)).consumed + (s (!p)).out (Msg.credits 0) =
      h2SessionWindowBytes + (s p).early := by
  have books := runBooks (Machine.reachWeaken (fun _ _ ok => ok.1) reach)
  have early : ∀ p, Early (s p) := by
    refine Machine.reachInvariant (I := fun s => ∀ p, Early (s p)) ?_ ?_ reach
    · refine fun _ => ⟨?_,?_,?_,rfl⟩ <;> intros <;> contradiction
    · exact fun early ok moved => earlyKept early ok.2 moved
  have sum := connBooks (books.account p) (books.conserved p)
  rw [earlyNone (early p),(early p).counted] at sum
  unfold returning Gate.settled at sum
  omega

def awake (p : Bool) (later : List Action) : List Action :=
  .own p (.gate (.reader .advance))::.own p (.gate (.reader .advance))::.own p (.gate (.reader .arrived))::
  .own p (.gate (.writer .advance))::.own p (.gate (.writer .advance))::.own p (.gate (.writer .request))::
  .own p (.gate (.writer .advance))::later

def announces (p : Bool) (later : List Action) : List Action :=
  .own p (.send true true)::.own p (.transmit true)::.receive (!p) true true::later

def acquires (p : Bool) (i : Nat) (later : List Action) : List Action :=
  List.replicate 8 (.own p (.gate (.gate i))) ++ later

def earlyThenCharged : List Action :=
  awake true (awake false (.own true (.write 1 4)::.own true (.gate (.gate 0))::
    .own true (.submit 0 none [1,2,3,4] false)::.own true (.transmit false)::.receive false true true::
    announces false (announces true (.own true (.write 1 2)::acquires true 1 [.own true (.submit 1 none [5,6] false)]))))

theorem connCreditConservedEarly : ∃ s, Run Charging s ∧ (∀ p, (s p).gate.peerFlowControl = true) ∧
    (s true).early = 4 ∧ (s true).gate.conn + total Acquirer.inFlight (s true).gate.tasks +
        (s true).gate.bytes GatePc.held + (s true).out Msg.pshBytes + (s false).consumed + (s false).out (Msg.credits 0) =
      h2SessionWindowBytes + (s true).early := by
  have ran : (Machine.checked step Charging start earlyThenCharged).any (fun s =>
      decide ((∀ p, (s p).gate.peerFlowControl = true) ∧ (s true).early = 4)) = true := by rfl
  obtain ⟨s,run,here⟩ := Machine.checkedReaches ran
  obtain ⟨known,count⟩ := of_decide_eq_true here
  exact ⟨s,run,known,count,connCreditConserved run true⟩

def writesAfterClose : List Action :=
  awake true (awake false (announces false (announces true (.own false (.register 1)::.own false (.unregister 1)::
    .own false (.write 1 10)::[.own false (.submit 0 none (List.replicate 10 0) false)]))))

theorem unregisteredWriteFree : ∃ s, Run Machine.Always s ∧ (∀ p, (s p).gate.peerFlowControl = true) ∧
    (s false).gate.conn + total Acquirer.inFlight (s false).gate.tasks + (s false).gate.bytes GatePc.held +
        (s false).out Msg.pshBytes + (s true).consumed + (s true).out (Msg.credits 0) ≠
      h2SessionWindowBytes + (s false).early := by
  have ran : (Machine.checked step Machine.Always start writesAfterClose).any (fun s =>
      decide ((∀ p, (s p).gate.peerFlowControl = true) ∧
        (s false).gate.conn + total Acquirer.inFlight (s false).gate.tasks + (s false).gate.bytes GatePc.held +
            (s false).out Msg.pshBytes + (s true).consumed + (s true).out (Msg.credits 0) ≠
          h2SessionWindowBytes + (s false).early)) = true := by rfl
  obtain ⟨s,run,here⟩ := Machine.checkedReaches ran
  obtain ⟨known,differs⟩ := of_decide_eq_true here
  exact ⟨s,run,known,differs⟩

end KanoTls.Link
