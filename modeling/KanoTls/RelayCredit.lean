import KanoTls.Relay
import KanoTls.LinkStream

/-! Stream credit through the relays. What a relay has taken out of its stream it has
passed to `note_consumed`, holds in its hand, or has lost: the server's first payload,
a packet that does not decode, a packet for a peer not known yet. -/
namespace KanoTls.Relays
open Pending Window Link Tasks Link.Side

def RelayPc.hand : RelayPc → Nat
  | .opening payload | .holding payload => payload.length
  | _ => 0

inductive Drives (s : State) : Action → Link.Action → Prop where
  | session {a} (own : isSession a = true) : Drives s (.session a) a
  | take {p sid} : Drives s (.take p sid) (.own p (.take sid))
  | note {p sid r payload sent accepted} (here : s.relay p sid = some r) (holding : r.pc = .holding payload) :
      Drives s (.deliver p sid sent accepted) (.own p (.note sid payload.length accepted))
  | write {p sid target data} : Drives s (.write p sid target data) (.own p (.write sid (target + data)))

theorem linkDriven {s t : State} {a : Action} (moved : RelayMove s a t) :
    t.link = s.link ∨ ∃ b, Drives s a b ∧ Link.step s.link b = some t.link := by
  cases moved with
  | session own moved => exact .inr ⟨_,.session own,moved⟩
  | take here head turns moved => exact .inr ⟨_,.take,moved⟩
  | returned here holding returns moved => exact .inr ⟨_,.note here holding,moved⟩
  | write here writes small moved => exact .inr ⟨_,.write,moved⟩
  | _ => exact .inl rfl

def onSession (ok : Link.State → Link.Action → Bool) (s : State) : Action → Bool
  | .session a => ok s.link a
  | _ => true

theorem drivenOk {ok : Link.State → Link.Action → Bool} {s : State} {a : Action} {b : Link.Action}
    (driven : Drives s a b) (met : onSession ok s a = true) (free : ∀ b, isSession b = false → ok s.link b = true) :
    ok s.link b = true := by
  cases driven with
  | session own => exact met
  | take => exact free _ rfl
  | note here holding => exact free _ rfl
  | write => exact free _ rfl

theorem booksDriven {s t : State} {a : Action} (books : Books s.link) (ok : onSession modest s a = true)
    (moved : RelayMove s a t) : Books t.link := by
  rcases linkDriven moved with same | ⟨b,driven,stepped⟩
  · rw [same]
    exact books
  · refine booksKept books (drivenOk driven ok (fun b free => ?_)) stepped
    cases b with
    | receive p kept accepted => contradiction
    | own p l => cases l <;> first | rfl | contradiction

def handOf (r : Option Relay) : Nat := r.elim 0 (fun r => r.pc.hand)

/- Taken out of the stream, and neither passed on nor in the relay's hand. -/
def lost (q : Bool) (sid : StreamId) (s : State) : Int :=
  (s.link q).taken sid - (s.link q).noted sid - handOf (s.relay q sid)

section Lost
variable {s t : State} {a : Action} {p q : Bool} {sid on : StreamId} {r : Relay}

theorem setRelaySelf : (s.setRelay p sid r).relay p sid = some r := by
  simp [State.setRelay]

theorem setRelayOther (away : ¬ (q = p ∧ sid = on)) : (s.setRelay p on r).relay q sid = s.relay q sid := by
  unfold State.setRelay
  by_cases side : q = p
  · subst side
    have stream : sid ≠ on := fun same => away ⟨rfl,same⟩
    simp [Function.update_of_ne stream]
  · simp [Function.update_of_ne side]

theorem readersStill {link link' : Link.State} {b : Link.Action} (moved : Link.step link b = some link')
    (quiet : ∀ p l, b = .own p l → l.reads = false) (q : Bool) :
    (link' q).taken = (link q).taken ∧ (link' q).noted = (link q).noted := by
  cases linkMoves moved with
  | @own p l y here =>
    rcases Bool.eq_or_eq_not q p with rfl | rfl
    · rw [Function.update_self]
      have quiet := quiet q l rfl
      cases readerMoves here with
      | same _ same => exact ⟨same.taken,same.noted⟩
      | take here => contradiction
      | note stream room counted => contradiction
    · rw [updatePeer]
      exact ⟨rfl,rfl⟩
  | @receive p kept accepted m rest y wire here =>
    rcases Bool.eq_or_eq_not q p with rfl | rfl
    · rw [Function.update_self]
      have same := frameReader (frameMoves here)
      exact ⟨same.1,same.2.1⟩
    · rw [updatePeer,Function.update_self]
      exact ⟨rfl,rfl⟩

theorem takeMoved {link link' : Link.State} {payload rest} (moved : Link.step link (.own p (.take sid)) = some link')
    (head : (link p).buffered sid = payload::rest) : link' = Function.update link p {link p with
      buffered := Function.update (link p).buffered sid rest
      taken := Function.update (link p).taken sid ((link p).taken sid + payload.length)} := by
  obtain ⟨y,took,rfl⟩ := Option.map_eq_some_iff.mp moved
  simp only [localStep,Side.take,head] at took
  cases Option.some.inj took
  rfl

theorem noteMoved {link link' : Link.State} {len accepted}
    (moved : Link.step link (.own p (.note sid len accepted)) = some link') : ∃ y, link' = Function.update link p y ∧
      y.taken = (link p).taken ∧ y.noted = Function.update (link p).noted sid ((link p).noted sid + len) := by
  obtain ⟨y,noted,rfl⟩ := Option.map_eq_some_iff.mp moved
  cases readerMoves noted with
  | same quiet same => contradiction
  | note stream room counted => exact ⟨_,rfl,enqueueTaken _ _ _,enqueueNoted _ _ _⟩

inductive ReaderTurn (q : Bool) (sid : StreamId) (s : State) : Action → Option Relay → Option Relay → Nat → Prop where
  | still {b r} : ReaderTurn q sid s b r r 0
  | start {b r} (stream : sid ≠ 0) (begins : r.pc = .select ∨ r.pc = .first ∧ r.network = .tcp)
      (idle : r.writing = none) : ReaderTurn q sid s b none (some r) 0
  | take {r payload pc} (head : payload ∈ (s.link q).buffered sid)
      (turns : r.pc = .first ∧ pc = .opening payload ∨ r.pc = .select ∧ r.reads = true ∧ pc = .holding payload) :
      ReaderTurn q sid s (.take q sid) (some r) (some {r with pc := pc}) 0
  | connected {r payload} (opening : r.pc = .opening payload) : ReaderTurn q sid s (.opened q sid true) (some r)
      (some {r with network := targetNetwork payload,pc := .select}) payload.length
  | returned {r payload sent accepted} (holding : r.pc = .holding payload) :
      ReaderTurn q sid s (.deliver q sid sent accepted) (some r) (some {r with pc := .select}) 0
  | unreturned {r payload sent accepted} (holding : r.pc = .holding payload) (lost : r.returns q payload = false) :
      ReaderTurn q sid s (.deliver q sid sent accepted) (some r) (some {r with pc := .select}) payload.length
  | drained {b r} (reads : r.pc = .select ∨ ∃ payload, r.pc = .holding payload)
      (which : b = .finish q sid ∨ ∃ accepted, b = .deliver q sid false accepted) :
      ReaderTurn q sid s b (some r) (some {r with pc := .drained}) r.pc.hand
  | ended {b r r'} (past : r'.pc = .ended) (holds : r'.writing = r.writing ∨ r'.writing = none ∧ b = .written q sid)
      (idle : r'.writing = none ∨ r.pc = .first ∨ ∃ payload, r.pc = .opening payload) :
      ReaderTurn q sid s b (some r) (some r') r.pc.hand
  | aside {b r r'} (same : r'.pc = r.pc ∧ r'.network = r.network) (holds : r'.writing = r.writing ∨
        r'.writing = none ∧ b = .written q sid ∨ ∃ target data, b = .write q sid target data) :
      ReaderTurn q sid s b (some r) (some r') 0

theorem updateElsewhere {link : Link.State} {y : Side} {f : Side → StreamId → Nat} {count : Nat}
    (away : ¬ (q = p ∧ sid = on)) (at' : f y = Function.update (f (link p)) on count) :
    f (Function.update link p y q) sid = f (link q) sid := by
  by_cases side : q = p
  · subst side
    rw [Function.update_self,at',Function.update_of_ne (fun same => away ⟨rfl,same⟩)]
  · rw [Function.update_of_ne side]

theorem updateSame {link : Link.State} {y : Side} {f : Side → StreamId → Nat} (same : f y = f (link p)) :
    f (Function.update link p y q) sid = f (link q) sid := by
  by_cases side : q = p
  · subst side
    rw [Function.update_self,same]
  · rw [Function.update_of_ne side]

theorem relayTurned (link : Link.State) (n : Nat) {r' : Relay} (here : s.relay p on = some r)
    (elsewhere : ¬ (q = p ∧ sid = on) →
      (link q).taken sid = (s.link q).taken sid ∧ (link q).noted sid = (s.link q).noted sid)
    (counts : ((link p).taken on : Int) - (link p).noted on - r'.pc.hand =
      (s.link p).taken on - (s.link p).noted on - r.pc.hand + n)
    (turn : q = p → sid = on → ReaderTurn q sid s a (some r) (some r') n) : ∃ n : Nat,
      ReaderTurn q sid s a (s.relay q sid) (({s with link := link}.setRelay p on r').relay q sid) n ∧
      lost q sid ({s with link := link}.setRelay p on r') = lost q sid s + n := by
  by_cases mine : q = p ∧ sid = on
  · obtain ⟨rfl,rfl⟩ := mine
    refine ⟨n,?_,?_⟩
    · rw [here,setRelaySelf]
      exact turn rfl rfl
    · unfold lost
      rw [setRelaySelf,here]
      exact counts
  · have still := elsewhere mine
    refine ⟨0,?_,?_⟩
    · rw [setRelayOther mine]
      exact .still
    · unfold lost
      rw [setRelayOther mine]
      show ((link q).taken sid : Int) - (link q).noted sid - _ = _
      rw [still.1,still.2]
      exact (Int.add_zero _).symm

theorem relaySettled (n : Nat) {r' : Relay} (here : s.relay p on = some r) (counts : r.pc.hand = r'.pc.hand + n)
    (turn : q = p → sid = on → ReaderTurn q sid s a (some r) (some r') n) : ∃ n : Nat,
      ReaderTurn q sid s a (s.relay q sid) ((s.setRelay p on r').relay q sid) n ∧
      lost q sid (s.setRelay p on r') = lost q sid s + n := by
  refine relayTurned s.link n here (fun _ => ⟨rfl,rfl⟩) ?_ turn
  omega

theorem readerTurns (q : Bool) (sid : StreamId) (moved : RelayMove s a t) : ∃ n : Nat,
    ReaderTurn q sid s a (s.relay q sid) (t.relay q sid) n ∧ lost q sid t = lost q sid s + n := by
  cases moved with
  | @session b link own moved =>
    have same := readersStill moved (by
      rintro p l rfl
      cases l <;> first | rfl | contradiction) q
    refine ⟨0,.still,?_⟩
    unfold lost
    simp only [same.1,same.2]
    omega
  | @start p on network r stream fresh begins =>
    by_cases mine : q = p ∧ sid = on
    · obtain ⟨rfl,rfl⟩ := mine
      refine ⟨0,?_,?_⟩
      · rw [setRelaySelf,fresh]
        rcases begins with rfl | rfl
        · exact .start stream (.inl rfl) rfl
        · exact .start stream (.inr ⟨rfl,rfl⟩) rfl
      · unfold lost
        rw [setRelaySelf,fresh]
        rcases begins with rfl | rfl <;> exact (Int.add_zero _).symm
    · refine ⟨0,?_,?_⟩
      · rw [setRelayOther mine]
        exact .still
      · unfold lost
        rw [setRelayOther mine]
        exact (Int.add_zero _).symm
  | @take p on r payload rest pc link here head turns moved =>
    cases takeMoved moved head
    have empty : r.pc.hand = 0 ∧ pc.hand = payload.length := by
      rcases turns with ⟨old,rfl⟩ | ⟨old,_,rfl⟩ <;> rw [old] <;> exact ⟨rfl,rfl⟩
    refine relayTurned _ 0 here (fun away => ?_) ?_ ?_
    · exact ⟨updateElsewhere (f := Side.taken) away rfl,updateSame (f := Side.noted) rfl⟩
    · simp only [Function.update_self,empty.1,empty.2,Int.natCast_add]
      omega
    · rintro rfl rfl
      exact .take (head ▸ List.mem_cons_self) turns
  | @returned p on r payload sent accepted link here holding returns moved =>
    obtain ⟨y,rfl,taken,noted⟩ := noteMoved moved
    refine relayTurned _ 0 here (fun away => ?_) ?_ ?_
    · exact ⟨updateSame (f := Side.taken) taken,updateElsewhere (f := Side.noted) away noted⟩
    · simp only [Function.update_self,taken,noted,holding,RelayPc.hand,Int.natCast_add]
      omega
    · rintro rfl rfl
      exact .returned holding
  | @write p on r target data link here writes small moved =>
    have same := readersStill moved (by
      rintro p l ⟨⟩
      rfl)
    refine relayTurned _ 0 here (fun _ => ?_) ?_ ?_
    · exact ⟨congrFun (same q).1 sid,congrFun (same q).2 sid⟩
    · rw [(same p).1,(same p).2]
      exact (Int.add_zero _).symm
    · rintro rfl rfl
      exact .aside ⟨rfl,rfl⟩ (.inr (.inr ⟨target,data,rfl⟩))
  | learnPeer here => exact relaySettled 0 here rfl (fun _ _ => .aside ⟨rfl,rfl⟩ (.inl rfl))
  | @connected p on r payload here opening =>
    refine relaySettled payload.length here ?_ ?_
    · rw [opening]
      exact (Nat.zero_add _).symm
    · rintro rfl rfl
      exact .connected opening
  | @lost p on r payload sent accepted here holding gone =>
    refine relaySettled payload.length here ?_ ?_
    · rw [holding]
      exact (Nat.zero_add _).symm
    · rintro rfl rfl
      exact .unreturned holding gone
  | @refused p on r payload here opening =>
    refine relaySettled r.pc.hand here (Nat.zero_add _).symm (fun _ _ => ?_)
    exact .ended rfl (.inl rfl) (.inr (.inr ⟨payload,opening⟩))
  | @failed p on r payload accepted here holding tcp =>
    refine relaySettled r.pc.hand here (Nat.zero_add _).symm ?_
    rintro rfl rfl
    exact .drained (.inr ⟨payload,holding⟩) (.inr ⟨accepted,rfl⟩)
  | @finished p on r here waits =>
    by_cases quits : r.pc = .first ∨ r.network = .udp
    · have past : r.afterRead = .ended := if_pos quits
      refine relaySettled r.pc.hand here (by rw [past]; exact (Nat.zero_add _).symm) (fun _ _ => .ended past (.inl rfl) ?_)
      rcases waits with first | ⟨select,reads⟩
      · exact .inr (.inl first)
      · rcases quits with first | udp
        · exact .inr (.inl first)
        · simp only [Relay.reads,udp,Bool.or_eq_true,Option.isNone_iff_eq_none] at reads
          exact .inl (reads.resolve_left (by simp))
    · have drains : r.afterRead = .drained := if_neg quits
      rw [drains]
      refine relaySettled r.pc.hand here (Nat.zero_add _).symm ?_
      rintro rfl rfl
      exact .drained (.inl (waits.resolve_left (fun first => quits (.inl first))).1) (.inl rfl)
  | @written p on r i b succeeded here awaits found done =>
    by_cases broken : succeeded = false ∧ r.network = .udp
    · refine relaySettled r.pc.hand here ?_ ?_
      · simp [afterWrite,broken,RelayPc.hand]
      · rintro rfl rfl
        exact .ended (if_pos broken) (.inr ⟨rfl,rfl⟩) (.inl rfl)
    · have pc : (afterWrite r succeeded).pc = r.pc := if_neg broken
      refine relaySettled 0 here (by rw [pc,Nat.add_zero]) ?_
      rintro rfl rfl
      exact .aside ⟨pc,rfl⟩ (.inr (.inl ⟨rfl,rfl⟩))

end Lost

def Over (q : Bool) (sid : StreamId) (s : State) : Prop :=
  ∃ r, s.relay q sid = some r ∧ (r.pc = .drained ∨ r.pc = .ended)

theorem overStays {s t : State} {a : Action} {q : Bool} {sid : StreamId} {n : Nat}
    (turns : ReaderTurn q sid s a (s.relay q sid) (t.relay q sid) n) (past : Over q sid s) : Over q sid t := by
  obtain ⟨r,here,past⟩ := past
  have away {pc : RelayPc} (old : r.pc = pc) (reads : pc ≠ .drained ∧ pc ≠ .ended) : False := by
    rcases past with at' | at'
    · exact reads.1 (old.symm.trans at')
    · exact reads.2 (old.symm.trans at')
  generalize before : s.relay q sid = old at turns here
  generalize after : t.relay q sid = new at turns
  cases turns with
  | still => exact ⟨r,after.trans here,past⟩
  | start stream begins idle => contradiction
  | take head turns =>
    cases Option.some.inj here
    rcases turns with ⟨old,_⟩ | ⟨old,_,_⟩ <;> exact (away old ⟨(by simp),(by simp)⟩).elim
  | connected opening =>
    cases Option.some.inj here
    exact (away opening ⟨(by simp),(by simp)⟩).elim
  | returned holding =>
    cases Option.some.inj here
    exact (away holding ⟨(by simp),(by simp)⟩).elim
  | unreturned holding lost =>
    cases Option.some.inj here
    exact (away holding ⟨(by simp),(by simp)⟩).elim
  | drained reads which => exact ⟨_,after,.inl rfl⟩
  | ended past holds idle => exact ⟨_,after,.inr past⟩
  | aside same holds =>
    cases Option.some.inj here
    exact ⟨_,after,by rw [same.1]; exact past⟩

theorem streamNonzero {s t : State} {a : Action} {q : Bool} {sid : StreamId} {n : Nat}
    (turns : ReaderTurn q sid s a (s.relay q sid) (t.relay q sid) n)
    (nonzero : ∀ r, s.relay q sid = some r → sid ≠ 0) : ∀ r, t.relay q sid = some r → sid ≠ 0 := by
  intro r here
  generalize s.relay q sid = old at turns nonzero
  generalize t.relay q sid = new at turns here
  cases turns with
  | still => exact nonzero r here
  | start stream begins idle => exact stream
  | _ => exact nonzero _ rfl

/- Every payload that the relay takes is one whose branch returns its credit, and the
sessions lose none of it. -/
def returning (q : Bool) (sid : StreamId) (s : State) : Action → Bool
  -- the server's first payload is not returned
  | .opened p on true => !(p == q && on == sid) || (s.relay p on).all (fun r => r.pc.hand == 0)
  | .deliver p on _ _ =>
    !(p == q && on == sid) || (s.relay p on).all (fun r =>
      match r.pc with
      | .holding payload => r.returns p payload || payload.isEmpty
      | _ => true)
  | .session a => modest s.link a && keeps q sid s.link a && chargesOn q sid s.link a
  | _ => true

def Returning (q : Bool) (sid : StreamId) (s : State) (a : Action) : Prop := returning q sid s a = true

instance (q : Bool) (sid : StreamId) (s : State) (a : Action) : Decidable (Returning q sid s a) :=
  inferInstanceAs (Decidable (_ = true))

structure Returned (q : Bool) (sid : StreamId) (s : State) : Prop where
  books : Books s.link
  lossless : Lossless q sid s.link
  charged : (s.link (!q)).gate.bytesOn GatePc.uncharged sid = 0
  ledger : Over q sid s ∨ lost q sid s = 0
  stream : ∀ r, s.relay q sid = some r → sid ≠ 0

section Returned
variable {s t : State} {a : Action} {q : Bool} {sid : StreamId}

theorem returningSession (ok : Returning q sid s a) :
    onSession modest s a = true ∧ onSession (keeps q sid) s a = true ∧ onSession (chargesOn q sid) s a = true := by
  cases a <;> try exact ⟨rfl,rfl,rfl⟩
  obtain ⟨both,charges⟩ := Bool.and_eq_true_iff.mp ok
  obtain ⟨modest,keeps⟩ := Bool.and_eq_true_iff.mp both
  exact ⟨modest,keeps,charges⟩

theorem losslessDriven (lossless : Lossless q sid s.link) (ok : onSession (keeps q sid) s a = true)
    (moved : RelayMove s a t) : Lossless q sid t.link := by
  rcases linkDriven moved with same | ⟨b,driven,stepped⟩
  · rw [same]
    exact lossless
  · refine losslessKept lossless (drivenOk driven ok (fun b free => ?_)) stepped
    cases b with
    | receive p kept accepted => contradiction
    | own p l => cases l <;> first | rfl | contradiction

theorem chargedDriven (charged : (s.link (!q)).gate.bytesOn GatePc.uncharged sid = 0)
    (ok : onSession (chargesOn q sid) s a = true) (moved : RelayMove s a t) :
    (t.link (!q)).gate.bytesOn GatePc.uncharged sid = 0 := by
  rcases linkDriven moved with same | ⟨b,driven,stepped⟩
  · rw [same]
    exact charged
  · have met : chargesOn q sid s.link b = true := drivenOk driven ok (fun b free => by
      cases b with
      | receive p kept accepted => contradiction
      | own p l => cases l <;> first | rfl | contradiction)
    rcases gateMoves stepped (!q) with same | ⟨c,causes,gate⟩
    · rw [same]
      exact charged
    · refine unchargedOnKept causes gate ?_ charged
      rintro i target data queue task rfl found
      simpa [chargesOn,found] using met

theorem returnedKept (known : Returned q sid s) (ok : Returning q sid s a) (moved : RelayMove s a t) :
    Returned q sid t := by
  obtain ⟨modest,keeps,charges⟩ := returningSession ok
  obtain ⟨n,turns,more⟩ := readerTurns q sid moved
  refine ⟨booksDriven known.books modest moved,losslessDriven known.lossless keeps moved,
    chargedDriven known.charged charges moved,?_,streamNonzero turns known.stream⟩
  rcases known.ledger with past | none
  · exact .inl (overStays turns past)
  · generalize before : s.relay q sid = old at turns
    generalize after : t.relay q sid = new at turns
    cases turns with
    | drained reads which => exact .inl ⟨_,after,.inl rfl⟩
    | ended past holds idle => exact .inl ⟨_,after,.inr past⟩
    | connected opening =>
      simp [Returning,returning,before,opening,RelayPc.hand] at ok
      exact .inr (by simp [more,none,ok])
    | unreturned holding gone =>
      simp [Returning,returning,before,holding,gone] at ok
      exact .inr (by simp [more,none,ok])
    | _ => exact .inr (by omega)

end Returned

theorem runReturned {q : Bool} {sid : StreamId} {s} (reach : Run (Returning q sid) s) : Returned q sid s := by
  refine Machine.reachInvariant ?_ (fun known ok moved => returnedKept known ok (relayMoves moved)) reach
  exact ⟨booksStart,⟨rfl,rfl,rfl⟩,rfl,.inr rfl,(fun _ h => by cases h)⟩

/- A relay that is back at its read has returned all that it took, and the stream's
window is the credit at hand, the bytes charged and not yet taken, the bytes counted and
the increments under way. -/
theorem streamCreditConserved {q : Bool} {sid : StreamId} {s r} (reach : Run (Returning q sid) s)
    (here : s.relay q sid = some r) (waits : r.pc = .first ∨ r.pc = .select) :
    (s.link q).noted sid = (s.link q).taken sid ∧
    (s.link (!q)).gate.credit sid + (s.link (!q)).gate.bytesOn GatePc.held sid +
        (s.link (!q)).out (Msg.pshBytesOn sid) + (s.link q).bufferedBytes sid + (s.link q).streamConsumed sid +
        (s.link q).out (Msg.credits sid) = streamWindowBytes := by
  have known := runReturned reach
  have empty : r.pc.hand = 0 := by
    rcases waits with at' | at' <;> rw [at'] <;> rfl
  have none : lost q sid s = 0 := by
    rcases known.ledger with ⟨r',there,past⟩ | none
    · cases Option.some.inj (here.symm.trans there)
      rcases waits with at' | at' <;> rw [at'] at past <;> simp at past
    · exact none
  have noted : (s.link q).noted sid = (s.link q).taken sid := by
    simp only [lost,here,handOf,Option.elim_some,empty] at none
    omega
  refine ⟨noted,?_⟩
  have back := known.books.conserved (!q)
  rw [Bool.not_not] at back
  have sum := streamBooks (known.books.account (!q)) back (known.stream r here)
  rw [known.lossless.abandons,known.lossless.ignored,known.charged] at sum
  unfold Side.returningOn at sum
  rw [known.lossless.dropped] at sum
  omega

def established (later : List Action) : List Action :=
  (awake true (awake false (announces false (announces true [])))).map Action.session ++ later

def writesOn (p : Bool) (sid : StreamId) (i : Nat) (target : Option Payload) (data : Payload) (later : List Action) :
    List Action :=
  .write p sid (target.getD []).length data.length::(acquires p i []).map Action.session ++
    .session (.own p (.submit i target data true))::.written p sid::.session (.own p (.transmit true))::
    .session (.receive (!p) true true)::later

def opensStream (later : List Action) : List Action :=
  established (.session (.own true (.register 1))::.start true 1 .tcp::
    writesOn true 1 0 (some [0x61,0x3a,0x38,0x30]) []
      (.session (.own false (.register 1))::.start false 1 .tcp::.take false 1::.opened false 1 true::later))

theorem streamCreditConservedClient : ∃ s r, Run (Returning true 1) s ∧ s.relay true 1 = some r ∧ r.pc = .select ∧
    (s.link true).taken 1 = 3 ∧ (s.link true).noted 1 = (s.link true).taken 1 ∧
    (s.link false).gate.credit 1 + (s.link false).gate.bytesOn GatePc.held 1 +
        (s.link false).out (Msg.pshBytesOn 1) + (s.link true).bufferedBytes 1 + (s.link true).streamConsumed 1 +
        (s.link true).out (Msg.credits 1) = streamWindowBytes := by
  have ran : (Machine.checked step (Returning true 1) start
      (opensStream (writesOn false 1 0 none [1,2,3] [.take true 1,.deliver true 1 true true]))).any (fun s =>
      decide (s.relay true 1 = some {network := .tcp,pc := .select} ∧ (s.link true).taken 1 = 3)) = true := by rfl
  obtain ⟨s,run,here⟩ := Machine.checkedReaches ran
  obtain ⟨relay,taken⟩ := of_decide_eq_true here
  obtain ⟨noted,sum⟩ := streamCreditConserved run relay (.inr rfl)
  exact ⟨s,_,run,relay,rfl,taken,noted,sum⟩

theorem firstPayloadLeaks : ∃ s r, Run Machine.Always s ∧ s.relay false 1 = some r ∧ r.pc = .select ∧
    (s.link false).noted 1 ≠ (s.link false).taken 1 ∧
    (s.link true).gate.credit 1 + (s.link true).gate.bytesOn GatePc.held 1 +
        (s.link true).out (Msg.pshBytesOn 1) + (s.link false).bufferedBytes 1 + (s.link false).streamConsumed 1 +
        (s.link false).out (Msg.credits 1) ≠ streamWindowBytes := by
  have ran : (Machine.checked step Machine.Always start (opensStream [])).any (fun s =>
      decide (s.relay false 1 = some {network := .tcp,pc := .select} ∧ (s.link false).noted 1 ≠ (s.link false).taken 1 ∧
        (s.link true).gate.credit 1 + (s.link true).gate.bytesOn GatePc.held 1 +
            (s.link true).out (Msg.pshBytesOn 1) + (s.link false).bufferedBytes 1 + (s.link false).streamConsumed 1 +
            (s.link false).out (Msg.credits 1) ≠ (streamWindowBytes : Int))) = true := by rfl
  obtain ⟨s,run,here⟩ := Machine.checkedReaches ran
  obtain ⟨relay,unnoted,short⟩ := of_decide_eq_true here
  exact ⟨s,_,run,relay,rfl,unnoted,short⟩

end KanoTls.Relays
