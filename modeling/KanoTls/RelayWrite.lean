import KanoTls.RelayCredit

/-! The writing half of a relay: the task it awaits at the gate is the only one of its
stream that still asks for credit, so stream credit that covers it stays there for it. -/
namespace KanoTls.Relays
open Pending Window Link Tasks Link.Side

def Follows (old new : List Acquirer) : Prop :=
  new.length = old.length ∧ ∀ (j : Nat) (a' : Acquirer), new[j]? = some a' → ∃ a : Acquirer, old[j]? = some a ∧
    a'.sid = a.sid ∧ a'.len = a.len ∧ (a'.pc.waiting = true → a.pc.waiting = true)

section Follows
variable {old new : List Acquirer} {g t : Gate}

theorem followsRefl : Follows old old := ⟨rfl,fun _ a here => ⟨a,here,rfl,rfl,id⟩⟩

theorem followsSet {i a b} (found : old[i]? = some a) (same : b.sid = a.sid ∧ b.len = a.len)
    (waits : b.pc.waiting = true → a.pc.waiting = true) : Follows old (old.set i b) := by
  refine ⟨List.length_set,fun j a' here => ?_⟩
  rw [List.getElem?_set] at here
  split at here
  · rename_i this
    subst this
    split at here <;> try contradiction
    cases Option.some.inj here
    exact ⟨a,found,same.1,same.2,waits⟩
  · exact ⟨a',here,rfl,rfl,id⟩

theorem followsOwn {b} (moved : TaskMove g b new) : Follows g.tasks new := by
  cases moved with
  | quiet => exact followsRefl
  | told f same =>
    refine ⟨List.length_map _,fun j a' here => ?_⟩
    rw [List.getElem?_map] at here
    obtain ⟨a,found,rfl⟩ := Option.map_eq_some_iff.mp here
    exact ⟨a,found,(same a).2.1,(same a).2.2,by rw [(same a).1]; exact id⟩
  | turn found same undone early passes bypasses drops waits => exact followsSet found same waits

theorem followsForth (follows : Follows old new) {j : Nat} {a : Acquirer} (here : old[j]? = some a) :
    ∃ a' : Acquirer, new[j]? = some a' ∧ a'.sid = a.sid ∧ a'.len = a.len := by
  have inside : j < new.length := by
    rw [follows.1]
    exact (List.getElem?_eq_some_iff.mp here).1
  obtain ⟨b,there,sid,len,_⟩ := follows.2 j _ (List.getElem?_eq_getElem inside)
  cases Option.some.inj (here.symm.trans there)
  exact ⟨_,List.getElem?_eq_getElem inside,sid,len⟩

end Follows

def Only (g : Gate) (sid : StreamId) (awaited : Option Nat) : Prop :=
  ∀ (j : Nat) (a : Acquirer), g.tasks[j]? = some a → a.sid = sid → a.pc.waiting = true → awaited = some j

def Covered (g : Gate) (sid : StreamId) (i : Nat) : Prop :=
  ∀ a, g.tasks[i]? = some a → a.pc.waiting = true → (a.len : Int) ≤ g.credit sid

section Covered
variable {s t : Link.State} {a : Link.Action} {p : Bool} {sid : StreamId} {awaited : Option Nat} {i : Nat}

inductive GateTurn (s : Link.State) (p : Bool) (a : Link.Action) (gate : Gate) : Prop where
  | further (follows : Follows (s p).gate.tasks gate.tasks)
      (credit : (∀ sid, (s p).gate.credit sid ≤ gate.credit sid) ∨
        ∃ (i : Nat) (a b : Acquirer), (s p).gate.tasks[i]? = some a ∧ a.pc.waiting = true ∧ b.pc.waiting = false ∧
          gate.tasks = (s p).gate.tasks.set i b ∧ ∀ sid, sid ≠ a.sid → gate.credit sid = (s p).gate.credit sid)
  | asks {sid len pc} (written : a = .own p (.write sid len))
      (same : gate = {(s p).gate with tasks := (s p).gate.tasks ++ [{sid := sid,len := len,pc := pc}]})

theorem gateTurns (books : Books s) (moved : Link.step s a = some t) (p : Bool) : GateTurn s p a (t p).gate := by
  rcases gateMoves moved p with same | ⟨b,causes,stepped⟩
  · rw [same]
    exact .further followsRefl (.inl (fun _ => Int.le_refl _))
  · have roomy := causesRoomy books causes
    generalize (t p).gate = gate at stepped
    cases causes with
    | own own =>
      have m := ownMoves own stepped
      refine .further (followsOwn m.tasks) ?_
      rcases m.credit with same | released
      · exact .inl (fun sid => Int.le_of_eq (by rw [same]))
      · exact .inr released
    | write =>
      obtain ⟨pc,_,rfl⟩ := writeMoves stepped
      exact .asks rfl rfl
    | @submit i target data queue =>
      obtain ⟨task,found,_⟩ := Option.bind_eq_some_iff.mp stepped
      obtain ⟨_,pc,turns,rfl⟩ := submitMoves found stepped
      refine .further (followsSet found ⟨rfl,rfl⟩ ?_) (.inl (fun _ => Int.le_refl _))
      generalize task.pc = old at turns
      cases turns <;> simp [GatePc.waiting]
    | frame wire reads =>
      refine .further (by rw [readsTasks reads stepped]; exact followsRefl) (.inl (fun on => ?_))
      cases reads with
      | connCredit =>
        simp only [Window.step,Gate.readStep] at stepped
        split at stepped <;> try contradiction
        cases Option.some.inj stepped
        exact Int.le_refl _
      | @streamCredit sid increment stream registered =>
        simp only [Window.step,Gate.readStep] at stepped
        split at stepped <;> try contradiction
        cases Option.some.inj stepped
        by_cases mine : on = sid
        · subst mine
          have nonneg := (books.account p).nonneg.2 on
          have room : (s p).gate.credit on + increment ≤ maxI64 := of_decide_eq_true roomy
          simp only [Function.update_self]
          rw [wrapSmall (by omega) room]
          omega
        · exact Int.le_of_eq (Function.update_of_ne mine _ _).symm
      | settings =>
        simp only [Window.step,Gate.readStep] at stepped
        split at stepped <;> try contradiction
        cases Option.some.inj stepped
        exact Int.le_refl _

theorem onlyTurned {gate : Gate} (only : Only (s p).gate sid awaited) (turn : GateTurn s p a gate)
    (elsewhere : ∀ len, a ≠ .own p (.write sid len)) : Only gate sid awaited := by
  intro j task here mine waits
  cases turn with
  | further follows credit =>
    obtain ⟨old,found,same,_,waited⟩ := follows.2 j task here
    exact only j old found (same ▸ mine) (waited waits)
  | @asks on len pc written same =>
    subst same
    rcases Nat.lt_or_ge j (s p).gate.tasks.length with old | new
    · rw [List.getElem?_append_left old] at here
      exact only j task here mine waits
    · rw [List.getElem?_append_right new] at here
      have member := List.mem_singleton.mp (List.mem_of_getElem? here)
      subst member
      subst mine
      exact absurd written (elsewhere len)

theorem coveredTurned {gate : Gate} (only : Only (s p).gate sid (some i)) (covered : Covered (s p).gate sid i)
    (inside : i < (s p).gate.tasks.length) (turn : GateTurn s p a gate) : Covered gate sid i := by
  intro task here waits
  cases turn with
  | further follows credit =>
    obtain ⟨old,found,_,len,waited⟩ := follows.2 i task here
    have enough := covered old found (waited waits)
    rcases credit with grows | ⟨j,released,b,there,waiting,done,set,others⟩
    · have more := grows sid
      omega
    · by_cases mine : released.sid = sid
      · -- the released task is the awaited one, which asks no more
        cases only j released there mine waiting
        rw [set,List.getElem?_set_self inside] at here
        cases Option.some.inj here
        exact absurd (done.symm.trans waits) (by simp)
      · rw [others sid (Ne.symm mine)]
        omega
  | asks written same =>
    subst same
    rw [List.getElem?_append_left inside] at here
    exact covered task here waits

end Covered

def Live (pc : RelayPc) : Prop := pc = .select ∨ (∃ payload, pc = .holding payload) ∨ pc = .drained

def awaited (p : Bool) (sid : StreamId) (s : State) : Option Nat := (s.relay p sid).bind Relay.writing

structure Writer (p : Bool) (sid : StreamId) (s : State) : Prop where
  only : Only (s.link p).gate sid (awaited p sid s)
  asks : ∀ {i}, awaited p sid s = some i → ∃ a : Acquirer, (s.link p).gate.tasks[i]? = some a ∧ a.sid = sid ∧
    a.len ≤ 2 * maxPayloadLen
  live : ∀ {r}, s.relay p sid = some r → r.writing ≠ none → Live r.pc

section Writer
variable {s t : State} {a : Action} {p : Bool} {sid : StreamId} {n : Nat}

theorem awaitedStill (turns : ReaderTurn p sid s a (s.relay p sid) (t.relay p sid) n)
    (quiet : a ≠ .written p sid ∧ ∀ target data, a ≠ .write p sid target data) : awaited p sid t = awaited p sid s := by
  unfold awaited
  generalize s.relay p sid = old at turns
  generalize t.relay p sid = new at turns
  cases turns with
  | start stream begins idle => exact idle
  | ended past holds idle => exact holds.resolve_right (fun written => quiet.1 written.2)
  | aside same holds =>
    refine holds.resolve_right ?_
    rintro (written | ⟨target,data,write⟩)
    · exact quiet.1 written.2
    · exact quiet.2 target data write
  | _ => rfl

theorem liveStill (turns : ReaderTurn p sid s a (s.relay p sid) (t.relay p sid) n)
    (live : ∀ {r}, s.relay p sid = some r → r.writing ≠ none → Live r.pc)
    (quiet : a ≠ .written p sid ∧ ∀ target data, a ≠ .write p sid target data) {r} (here : t.relay p sid = some r)
    (writing : r.writing ≠ none) : Live r.pc := by
  generalize s.relay p sid = old at turns live
  generalize t.relay p sid = new at turns here
  cases turns with
  | still => exact live here writing
  | start stream begins idle =>
    cases Option.some.inj here
    exact absurd idle writing
  | take head turns =>
    cases Option.some.inj here
    rcases turns with ⟨first,rfl⟩ | ⟨_,_,rfl⟩
    · have was := live rfl writing
      rw [first] at was
      simp [Live] at was
    · exact .inr (.inl ⟨_,rfl⟩)
  | connected opening =>
    cases Option.some.inj here
    exact .inl rfl
  | returned holding =>
    cases Option.some.inj here
    exact .inl rfl
  | unreturned holding lost =>
    cases Option.some.inj here
    exact .inl rfl
  | drained reads which =>
    cases Option.some.inj here
    exact .inr (.inr rfl)
  | @ended _ r _ past holds idle =>
    cases Option.some.inj here
    have same := holds.resolve_right (fun written => quiet.1 written.2)
    have was := live rfl (same ▸ writing)
    rcases idle with none | first | ⟨payload,opening⟩
    · exact absurd none writing
    · rw [first] at was
      simp [Live] at was
    · rw [opening] at was
      simp [Live] at was
  | aside same holds =>
    cases Option.some.inj here
    have kept := holds.resolve_right (by
      rintro (written | ⟨target,data,write⟩)
      · exact quiet.1 written.2
      · exact quiet.2 target data write)
    rw [same.1]
    exact live rfl (kept ▸ writing)

theorem gateDriven (books : Books s.link) (moved : RelayMove s a t) (p : Bool) :
    (t.link p).gate = (s.link p).gate ∨ ∃ b, Drives s a b ∧ GateTurn s.link p b (t.link p).gate := by
  rcases linkDriven moved with same | ⟨b,driven,stepped⟩
  · rw [same]
    exact .inl rfl
  · exact .inr ⟨b,driven,gateTurns books stepped p⟩

theorem onlyDriven {i : Option Nat} (books : Books s.link) (moved : RelayMove s a t) (only : Only (s.link p).gate sid i)
    (quiet : ∀ target data, a ≠ .write p sid target data) : Only (t.link p).gate sid i := by
  rcases gateDriven books moved p with same | ⟨b,driven,turn⟩
  · rw [same]
    exact only
  · refine onlyTurned only turn ?_
    rintro len rfl
    cases driven with
    | session own => contradiction
    | write => exact quiet _ _ rfl

theorem taskDriven (books : Books s.link) (moved : RelayMove s a t) {i : Nat} {task : Acquirer}
    (found : (s.link p).gate.tasks[i]? = some task) :
    ∃ later : Acquirer, (t.link p).gate.tasks[i]? = some later ∧ later.sid = task.sid ∧ later.len = task.len := by
  rcases gateDriven books moved p with same | ⟨b,driven,turn⟩
  · rw [same]
    exact ⟨task,found,rfl,rfl⟩
  · generalize (t.link p).gate = gate at turn
    cases turn with
    | further follows credit => exact followsForth follows found
    | asks written same =>
      subst same
      exact ⟨task,(List.getElem?_append_left (List.getElem?_eq_some_iff.mp found).1).trans found,rfl,rfl⟩

theorem asksDriven {link link' : Link.State} {len : Nat} (moved : Link.step link (.own p (.write sid len)) = some link') :
    ∃ pc, (link' p).gate =
      {(link p).gate with tasks := (link p).gate.tasks ++ [{sid := sid,len := len,pc := pc}]} := by
  obtain ⟨y,wrote,rfl⟩ := Option.map_eq_some_iff.mp moved
  obtain ⟨gate,stepped,rfl⟩ := Option.map_eq_some_iff.mp wrote
  obtain ⟨pc,_,rfl⟩ := writeMoves stepped
  exact ⟨pc,by rw [Function.update_self]⟩

theorem awaitedSet {r : Relay} : awaited p sid (s.setRelay p sid r) = r.writing := by
  unfold awaited
  rw [setRelaySelf]
  rfl

theorem writerWrites {target data : Nat} (writer : Writer p sid s) (moved : RelayMove s (.write p sid target data) t)
    (small : target ≤ maxPayloadLen) : Writer p sid t := by
  cases moved with
  | @write _ _ r _ _ link here writes short moved =>
    obtain ⟨pc,gate⟩ := asksDriven moved
    obtain ⟨idle,place⟩ := Bool.and_eq_true_iff.mp writes
    have before : awaited p sid s = none := by
      unfold awaited
      rw [here]
      exact Option.isNone_iff_eq_none.mp idle
    refine ⟨?_,?_,?_⟩
    · rw [awaitedSet]
      show Only (link p).gate sid _
      rw [gate]
      intro j task found mine waits
      rcases Nat.lt_or_ge j (s.link p).gate.tasks.length with old | new
      · rw [List.getElem?_append_left old] at found
        exact absurd (before.symm.trans (writer.only j task found mine waits)) (by simp)
      · have bound := (List.getElem?_eq_some_iff.mp found).1
        rw [List.length_append,List.length_singleton] at bound
        exact congrArg some (by omega)
    · intro i awaits
      rw [awaitedSet] at awaits
      cases Option.some.inj awaits
      show ∃ a : Acquirer, (link p).gate.tasks[_]? = some a ∧ _
      rw [gate]
      refine ⟨{sid := sid,len := target + data,pc := pc},by simp,rfl,?_⟩
      unfold relayChunkSize at short
      show target + data ≤ _
      omega
    · intro r' there _
      rw [setRelaySelf] at there
      cases Option.some.inj there
      show Live r.pc
      cases at' : r.pc <;> rw [at'] at place <;> first | contradiction | simp [Live]

theorem writerWritten (writer : Writer p sid s) (moved : RelayMove s (.written p sid) t) : Writer p sid t := by
  cases moved with
  | @written _ _ r i task succeeded here awaits found done =>
    have before : awaited p sid s = some i := by
      unfold awaited
      rw [here]
      exact awaits
    have after : awaited p sid (s.setRelay p sid (afterWrite r succeeded)) = none := awaitedSet
    refine ⟨?_,?_,?_⟩
    · intro j other there mine waits
      cases before.symm.trans (writer.only j other there mine waits)
      cases Option.some.inj (found.symm.trans there)
      cases at' : task.pc <;> rw [at'] at done waits <;> contradiction
    · intro j awaits
      exact absurd (after.symm.trans awaits) (by simp)
    · intro r' there writing
      rw [setRelaySelf] at there
      cases Option.some.inj there
      exact absurd rfl writing

theorem writerKept (books : Books s.link) (writer : Writer p sid s) (moved : RelayMove s a t)
    (small : ∀ target data, a = .write p sid target data → target ≤ maxPayloadLen) : Writer p sid t := by
  obtain ⟨n,turns,_⟩ := readerTurns p sid moved
  by_cases writes : ∃ target data, a = .write p sid target data
  · obtain ⟨target,data,rfl⟩ := writes
    exact writerWrites writer moved (small target data rfl)
  · by_cases written : a = .written p sid
    · subst written
      exact writerWritten writer moved
    · have quiet : a ≠ .written p sid ∧ ∀ target data, a ≠ .write p sid target data :=
        ⟨written,fun target data same => writes ⟨target,data,same⟩⟩
      have same := awaitedStill turns quiet
      refine ⟨?_,?_,fun here writing => liveStill turns writer.live quiet here writing⟩
      · rw [same]
        exact onlyDriven books moved writer.only quiet.2
      · intro i awaits
        rw [same] at awaits
        obtain ⟨task,found,mine,short⟩ := writer.asks awaits
        obtain ⟨later,there,sid',len'⟩ := taskDriven books moved found
        exact ⟨later,there,sid'.trans mine,len' ▸ short⟩

end Writer

def Relay.frozen (r : Relay) : Bool := r.network == .udp || r.pc == .drained

def Frozen (p : Bool) (sid : StreamId) (s : State) (i : Nat) : Prop :=
  ∃ r, s.relay p sid = some r ∧ r.frozen = true ∧ r.writing = some i

/- Of two frozen relays of a stream, one finds its stream credit. -/
def Duel (sid : StreamId) (s : State) (p : Bool) : Prop :=
  ∀ i j, Frozen p sid s i → Frozen (!p) sid s j →
    Covered (s.link p).gate sid i ∨ Covered (s.link (!p)).gate sid j

section Duel
variable {s t : State} {a : Action} {p : Bool} {sid : StreamId} {n i : Nat}

theorem frozenAwaits (frozen : Frozen p sid s i) : awaited p sid s = some i := by
  obtain ⟨r,here,_,writing⟩ := frozen
  unfold awaited
  rw [here]
  exact writing

theorem frozenBefore (turns : ReaderTurn p sid s a (s.relay p sid) (t.relay p sid) n)
    (live : ∀ {r}, s.relay p sid = some r → r.writing ≠ none → Live r.pc) (frozen : Frozen p sid t i) :
    Frozen p sid s i ∨ (∃ target data, a = .write p sid target data) ∨
      ((a = .finish p sid ∨ ∃ accepted, a = .deliver p sid false accepted) ∧ awaited p sid s = some i) := by
  obtain ⟨r',after,stuck,writing⟩ := frozen
  have awake {pc : RelayPc} (at' : r'.pc = pc) (open' : pc ≠ .drained) : r'.network = .udp := by
    simpa [Relay.frozen,at',open'] using stuck
  unfold awaited
  generalize before : s.relay p sid = old at turns live
  generalize t.relay p sid = new at turns after
  have thaw {r : Relay} (here : old = some r) (udp : r.network = .udp) (same : r.writing = some i) : Frozen p sid s i :=
    ⟨r,before.trans here,by simp [Relay.frozen,udp],same⟩
  cases turns with
  | still => exact .inl ⟨r',before.trans after,stuck,writing⟩
  | start stream begins idle =>
    cases Option.some.inj after
    exact absurd (idle.symm.trans writing) (by simp)
  | take head turns =>
    cases Option.some.inj after
    rcases turns with ⟨_,rfl⟩ | ⟨_,_,rfl⟩ <;> exact .inl (thaw rfl (awake rfl (by simp)) writing)
  | connected opening =>
    cases Option.some.inj after
    have was := live rfl (fun none => absurd (none.symm.trans writing) (by simp))
    rw [opening] at was
    simp [Live] at was
  | returned holding =>
    cases Option.some.inj after
    exact .inl (thaw rfl (awake rfl (by simp)) writing)
  | unreturned holding lost =>
    cases Option.some.inj after
    exact .inl (thaw rfl (awake rfl (by simp)) writing)
  | drained reads which =>
    cases Option.some.inj after
    exact .inr (.inr ⟨which,writing⟩)
  | @ended _ r _ past holds idle =>
    cases Option.some.inj after
    have same := holds.resolve_right (fun none => absurd (none.1.symm.trans writing) (by simp))
    have was := live rfl (fun none => absurd ((same.trans none).symm.trans writing) (by simp))
    rcases idle with none | first | ⟨payload,opening⟩
    · exact absurd (none.symm.trans writing) (by simp)
    · rw [first] at was
      simp [Live] at was
    · rw [opening] at was
      simp [Live] at was
  | @aside _ r _ same holds =>
    cases Option.some.inj after
    rcases holds with kept | none | wrote
    · refine .inl ⟨r,before,?_,kept.symm.trans writing⟩
      rw [Relay.frozen,← same.1,← same.2]
      exact stuck
    · exact absurd (none.1.symm.trans writing) (by simp)
    · exact .inr (.inl wrote)

theorem coveredDriven (books : Books s.link) (writer : Writer p sid s) (moved : RelayMove s a t)
    (awaits : awaited p sid s = some i) (covered : Covered (s.link p).gate sid i) : Covered (t.link p).gate sid i := by
  rcases gateDriven books moved p with same | ⟨b,driven,turn⟩
  · rw [same]
    exact covered
  · obtain ⟨task,found,_⟩ := writer.asks awaits
    exact coveredTurned (awaits ▸ writer.only) covered (List.getElem?_eq_some_iff.mp found).1 turn

theorem coveredWritten {target data : Nat} (moved : RelayMove s (.write p sid target data) t) (frozen : Frozen p sid t i)
    (enough : ∀ r, s.relay p sid = some r → r.frozen = true → ((target + data : Nat) : Int) ≤ (s.link p).gate.credit sid) :
    Covered (t.link p).gate sid i := by
  cases moved with
  | @write _ _ r _ _ link here writes short moved =>
    obtain ⟨pc,gate⟩ := asksDriven moved
    obtain ⟨r',there,stuck,writing⟩ := frozen
    rw [setRelaySelf] at there
    cases Option.some.inj there
    cases Option.some.inj writing
    have room := enough r here stuck
    show Covered (link p).gate sid _
    rw [gate]
    intro task found _
    simp only [List.getElem?_concat_length,Option.some.injEq] at found
    subst found
    exact room

/- When the second of two frozen relays starts its write, its credit is there; and no
reading ends between them. -/
theorem duelKept (books : Books s.link) (writer : ∀ p, Writer p sid s) (moved : RelayMove s a t) (duel : Duel sid s p)
    (enough : ∀ p target data j, a = .write p sid target data → Frozen (!p) sid s j →
      ∀ r, s.relay p sid = some r → r.frozen = true → ((target + data : Nat) : Int) ≤ (s.link p).gate.credit sid)
    (reading : ∀ p i j, (a = .finish p sid ∨ ∃ accepted, a = .deliver p sid false accepted) →
      awaited p sid s = some i → Frozen (!p) sid s j → False) : Duel sid t p := by
  intro i j first second
  obtain ⟨n,turns,_⟩ := readerTurns p sid moved
  obtain ⟨m,turns',_⟩ := readerTurns (!p) sid moved
  have differ : p ≠ !p := (Bool.not_ne_self p).symm
  rcases frozenBefore turns (writer p).live first with old | ⟨target,data,rfl⟩ | ⟨which,awaits⟩
  · rcases frozenBefore turns' (writer (!p)).live second with old' | ⟨target,data,rfl⟩ | ⟨which,awaits⟩
    · rcases duel i j old old' with covered | covered
      · exact .inl (coveredDriven books (writer p) moved (frozenAwaits old) covered)
      · exact .inr (coveredDriven books (writer (!p)) moved (frozenAwaits old') covered)
    · exact .inr (coveredWritten moved second (enough (!p) target data i rfl (by rw [Bool.not_not]; exact old)))
    · exact (reading (!p) j i which awaits (by rw [Bool.not_not]; exact old)).elim
  · rcases frozenBefore turns' (writer (!p)).live second with old' | ⟨target',data',same⟩ | ⟨same | ⟨_,same⟩,_⟩
    · exact .inl (coveredWritten moved first (enough p target data j rfl old'))
    · exact absurd (Action.write.inj same).1 differ
    · contradiction
    · contradiction
  · rcases frozenBefore turns' (writer (!p)).live second with old' | ⟨target',data',rfl⟩ | ⟨which',_⟩
    · exact (reading p i j which awaits old').elim
    · rcases which with same | ⟨_,same⟩ <;> contradiction
    · rcases which with rfl | ⟨_,rfl⟩ <;> rcases which' with same | ⟨_,same⟩ <;>
        first | contradiction | exact absurd (Action.finish.inj same).1 differ | exact absurd (Action.deliver.inj same).1 differ

end Duel

end KanoTls.Relays
