import KanoTls.WriterAcks

/-! What stands behind an answer. `Backed` says of every responder where the bytes of its
request are: in the backlog, in the write buffer or flushed. -/
namespace KanoTls.Writer
open Wire Shaper Uot State

def outBytes (s : State) : List Byte := (s.wire ++ s.buffer).flatMap (·.payload)
def wireOut (s : State) : List Byte := s.wire.flatMap (·.payload)

def requestsOf : Pc → List Request
  | .drain d | .window d => d.current.toList ++ d.deferred
  | .through d r _ => r::(d.current.toList ++ d.deferred)
  | .prepare r _ rest => r::rest
  | _ => []

def Vouched (s : State) (id : Nat) (bytes : List Byte) : Prop := ∀ q ∈ s.sent, q.id = id → q.bytes.Sublist bytes

/- A request that `queue_bulk_request` appends to the backlog: one of the bulk channel, or
a control write with stream data. An auto-mode one is acknowledged there. -/
def Request.bulk (r : Request) : Bool := !r.control || r.carriesStreamData

def AtEntry (s : State) (q : Request) : Prop :=
  q.auto = true ∧ q.bulk = true ∧ (q.bytes.Sublist s.pending ∨ q.bytes.Sublist (outBytes s))

def Paid (s : State) (id : Nat) : Prop := ∀ q ∈ s.sent, q.id = id → q.bytes.Sublist (wireOut s) ∨ AtEntry s q

structure Backed (s : State) : Prop where
  hold : ∀ r ∈ requestsOf s.pc, Vouched s r.id r.bytes
  begun : ∀ r todo, (∃ d, s.pc = .through d r todo) ∨ (∃ rest, s.pc = .prepare r todo rest) →
    ∃ gone, r.packets = gone ++ todo ∧ (gone.flatMap Packet.bytes).Sublist (outBytes s)
  batch : ∀ id ∈ s.batch, Vouched s id (outBytes s)
  responders : ∀ id ∈ s.responders, Vouched s id s.pending
  answers : ∀ id, (id,true) ∈ s.answers → Paid s id
  drained : ∀ d, drainOf s.pc = some d → (s.pending.take d.consumed).Sublist (outBytes s)
  idle : drainOf s.pc = none → s.pending ≠ [] → s.responders = []
  leaving : ∀ d, drainOf s.pc = some d → d.exiting = true → s.responders = []

section Backed
variable {s t : State} {a : Action} {d : Drain} {draw : Draw}

theorem Vouched.more {id : Nat} {front back : List Byte} (vouched : Vouched s id front) (inside : front.Sublist back) :
    Vouched s id back := fun q member same => (vouched q member same).trans inside

theorem outPrepared (s : State) (records : List Record) :
    outBytes (s.prepared records) = outBytes s ++ records.flatMap (·.payload) := by
  simp only [outBytes,prepared,← List.append_assoc,payloadsAppend]

theorem wireInside (s : State) : (wireOut s).Sublist (outBytes s) := by
  rw [wireOut,outBytes,payloadsAppend]
  exact List.sublist_append_left _ _

structure Keeps (s t : State) : Prop where
  sent : t.sent = s.sent
  wire : (wireOut s).Sublist (wireOut t)
  out : (outBytes s).Sublist (outBytes t)
  pending : ∀ bytes : List Byte, bytes.Sublist s.pending → bytes.Sublist t.pending ∨ bytes.Sublist (outBytes t)

theorem Keeps.paid (keeps : Keeps s t) {id : Nat} (paid : Paid s id) : Paid t id := by
  intro q member same
  rw [keeps.sent] at member
  rcases paid q member same with flushed | ⟨auto,bulk,entered⟩
  · exact .inl (flushed.trans keeps.wire)
  · refine .inr ⟨auto,bulk,?_⟩
    rcases entered with inside | inside
    · exact keeps.pending _ inside
    · exact .inr (inside.trans keeps.out)

theorem Keeps.vouched (keeps : Keeps s t) {id : Nat} {bytes : List Byte} (vouched : Vouched s id bytes) :
    Vouched t id bytes := by
  intro q member
  rw [keeps.sent] at member
  exact vouched q member

theorem backedFrom (backed : Backed s) (keeps : Keeps s t) (hold : ∀ r ∈ requestsOf t.pc, Vouched s r.id r.bytes)
    (begun : ∀ r todo, (∃ d, t.pc = .through d r todo) ∨ (∃ rest, t.pc = .prepare r todo rest) →
      ∃ gone, r.packets = gone ++ todo ∧ (gone.flatMap Packet.bytes).Sublist (outBytes t))
    (batch : ∀ id ∈ t.batch, id ∈ s.batch ∨ Vouched s id (outBytes t))
    (responders : ∀ id ∈ t.responders, Vouched s id t.pending)
    (answers : ∀ id, (id,true) ∈ t.answers → (id,true) ∈ s.answers ∨ Paid t id)
    (drained : ∀ d, drainOf t.pc = some d → (t.pending.take d.consumed).Sublist (outBytes t))
    (idle : drainOf t.pc = none → t.pending ≠ [] → t.responders = [])
    (leaving : ∀ d, drainOf t.pc = some d → d.exiting = true → t.responders = []) : Backed t := by
  refine ⟨fun r member => keeps.vouched (hold r member),begun,?_,?_,?_,drained,idle,leaving⟩
  · intro id member
    rcases batch id member with old | new
    · exact keeps.vouched ((backed.batch id old).more keeps.out)
    · exact keeps.vouched new
  · intro id member
    exact keeps.vouched (responders id member)
  · intro id member
    rcases answers id member with old | new
    · exact keeps.paid (backed.answers id old)
    · exact new

theorem falseAnswers {ids : List Nat} {id : Nat} : (id,true) ∉ answerAll ids false := by
  simp [answerAll]

theorem errorAnswer {answers : List (Nat × Bool)} {id other : Nat} (member : (id,true) ∈ answers ++ [(other,false)]) :
    (id,true) ∈ answers := by
  simpa using member

theorem trueAnswers {ids : List Nat} {id : Nat} (member : (id,true) ∈ answerAll ids true) : id ∈ ids := by
  simpa [answerAll] using member

theorem backedIdle (backed : Backed s) (keeps : Keeps s t) (here : drainOf t.pc = none) (none : requestsOf t.pc = [])
    (batch : ∀ id ∈ t.batch, id ∈ s.batch ∨ Vouched s id (outBytes t))
    (responders : ∀ id ∈ t.responders, Vouched s id t.pending) (idle : t.pending ≠ [] → t.responders = [])
    (answers : ∀ id, (id,true) ∈ t.answers → (id,true) ∈ s.answers ∨ Paid t id) : Backed t := by
  refine backedFrom backed keeps ?_ ?_ batch responders answers ?_ (fun _ => idle) ?_
  · rw [none]
    intro r member
    contradiction
  · rintro r todo (⟨d,same⟩ | ⟨rest,same⟩) <;> rw [same] at none <;> contradiction
  · intro d draining
    rw [here] at draining
    contradiction
  · intro d draining
    rw [here] at draining
    contradiction

theorem backedNone (backed : Backed s) (keeps : Keeps s t) (here : drainOf t.pc = none) (none : requestsOf t.pc = [])
    (batch : ∀ id ∈ t.batch, id ∈ s.batch ∨ Vouched s id (outBytes t)) (responders : t.responders = [])
    (answers : ∀ id, (id,true) ∈ t.answers → (id,true) ∈ s.answers ∨ Paid t id) : Backed t := by
  refine backedIdle backed keeps here none batch ?_ (fun _ => responders) answers
  rw [responders]
  intro id member
  contradiction

theorem keepsSame (sent : t.sent = s.sent) (wire : t.wire = s.wire) (buffer : ∃ more, t.buffer = s.buffer ++ more)
    (pending : t.pending = s.pending) : Keeps s t := by
  obtain ⟨more,buffer⟩ := buffer
  refine ⟨sent,by rw [wireOut,wireOut,wire],?_,fun bytes inside => .inl (by rw [pending]; exact inside)⟩
  rw [outBytes,outBytes,wire,buffer,← List.append_assoc,payloadsAppend (s.wire ++ s.buffer)]
  exact List.sublist_append_left _ _

theorem backedFailed (backed : Backed s) {u : State} (keeps : Keeps s u) {e : Drain} (was : drainOf s.pc = some e)
    (same : e.exiting = d.exiting) (batch : ∀ id ∈ u.batch, id ∈ s.batch) (responders : u.responders = s.responders)
    (answers : ∀ id, (id,true) ∈ u.answers → (id,true) ∈ s.answers ∨ Paid u id) : Backed (u.failDrain d) := by
  unfold failDrain
  split
  · rename_i exiting
    have none : u.responders = [] := responders.trans (backed.leaving e was (same.trans exiting))
    have keeps' : Keeps s {u with batch := u.batch ++ u.responders,responders := [],pc := .closing} :=
      ⟨keeps.sent,keeps.wire,keeps.out,keeps.pending⟩
    refine backedNone backed keeps' rfl rfl ?_ rfl answers
    intro id member
    rw [show (u.batch ++ u.responders) = u.batch by rw [none,List.append_nil]] at member
    exact .inl (batch id member)
  · refine backedNone backed ⟨keeps.sent,keeps.wire,keeps.out,keeps.pending⟩ rfl rfl ?_ rfl ?_
    · intro id member
      contradiction
    · intro id member
      simp only [List.mem_append] at member
      rcases member with ((old | new) | new) | new
      · exact answers id old
      · exact absurd new falseAnswers
      · exact absurd new falseAnswers
      · exact absurd new falseAnswers

theorem keepsFlushed (sent : t.sent = s.sent) (wire : ∃ more, t.wire = s.wire ++ s.buffer ++ more)
    (pending : t.pending = s.pending) : Keeps s t ∧ (outBytes s).Sublist (wireOut t) := by
  obtain ⟨more,wire⟩ := wire
  have covers : (outBytes s).Sublist (wireOut t) := by
    rw [outBytes,wireOut,wire,payloadsAppend (s.wire ++ s.buffer)]
    exact List.sublist_append_left _ _
  exact ⟨⟨sent,(wireInside s).trans covers,covers.trans (wireInside t),fun bytes inside => .inl (by rw [pending]; exact inside)⟩,
    covers⟩

theorem flushedAnswers (backed : Backed s) (sent : t.sent = s.sent) (covers : (outBytes s).Sublist (wireOut t)) {id : Nat}
    (member : (id,true) ∈ s.answers ++ answerAll s.batch true) : (id,true) ∈ s.answers ∨ Paid t id := by
  rcases List.mem_append.mp member with old | new
  · exact .inl old
  · refine .inr ?_
    intro q listed same
    rw [sent] at listed
    exact .inl ((backed.batch id (trueAnswers new) q listed same).trans covers)

/- The record is in the buffer, and the writer goes on in its drain. -/
theorem backedRecorded (backed : Backed s) (here : s.pc = .drain d) {policy : ShapePolicy} (keeps : Keeps s t)
    (pending : t.pending = s.pending) (responders : t.responders = s.responders)
    (same : outBytes t = outBytes (s.prepared (inlineRecords d policy ++ [s.dataRecord d policy])))
    (pc : t.pc = (if policy.delay then .window (s.afterRecord d policy) else .drain (s.afterRecord d policy)))
    (batch : ∀ id ∈ t.batch, id ∈ s.batch)
    (answers : ∀ id, (id,true) ∈ t.answers → (id,true) ∈ s.answers ∨ Paid t id) : Backed t := by
  have was : drainOf s.pc = some d := by rw [here]; rfl
  have hold := backed.hold
  rw [here] at hold
  have out : outBytes (s.prepared (inlineRecords d policy ++ [s.dataRecord d policy])) =
      outBytes s ++ (inlineRecords d policy).flatMap (·.payload) ++
        (s.pending.drop d.consumed).take (s.takeFor d policy) := by
    rw [outPrepared,payloadsAppend,← List.append_assoc]
    simp [dataRecord,record]
  have further : (s.pending.take (d.consumed + s.takeFor d policy)).Sublist
      (outBytes (s.prepared (inlineRecords d policy ++ [s.dataRecord d policy]))) := by
    rw [out,List.take_add]
    exact ((backed.drained d was).trans (List.sublist_append_left _ _)).append (List.Sublist.refl _)
  have now : drainOf t.pc = some (s.afterRecord d policy) := by
    rw [pc]
    split <;> rfl
  have waiting : requestsOf t.pc = d.current.toList ++ d.deferred := by
    rw [pc]
    split <;> rfl
  refine backedFrom backed keeps (by rw [waiting]; exact hold) ?_ (fun id member => .inl (batch id member)) ?_ answers
    ?_ ?_ ?_
  · intro r todo which
    rw [pc] at which
    split at which <;> rcases which with ⟨_,same⟩ | ⟨_,same⟩ <;> contradiction
  · rw [responders,pending]
    exact backed.responders
  · intro e draining
    cases Option.some.inj (now.symm.trans draining)
    rw [pending,same]
    exact further
  · intro idle
    rw [now] at idle
    contradiction
  · intro e draining exiting
    cases Option.some.inj (now.symm.trans draining)
    rw [responders]
    exact backed.leaving d was exiting

theorem backedRecordFlushed (backed : Backed s) (here : s.pc = .drain d) {policy : ShapePolicy} (sent : t.sent = s.sent)
    (wire : t.wire = s.wire ++ s.buffer ++ (inlineRecords d policy ++ [s.dataRecord d policy])) (buffer : t.buffer = [])
    (pending : t.pending = s.pending) (responders : t.responders = s.responders)
    (pc : t.pc = (if policy.delay then .window (s.afterRecord d policy) else .drain (s.afterRecord d policy)))
    (batch : t.batch = []) (answers : t.answers = s.answers ++ answerAll s.batch true) : Backed t := by
  obtain ⟨keeps,covers⟩ := keepsFlushed sent ⟨_,wire⟩ pending
  refine backedRecorded backed here keeps pending responders ?_ pc ?_ ?_
  · simp only [outBytes,wire,buffer,prepared,List.append_nil,List.append_assoc]
  · rw [batch]
    intro id member
    contradiction
  · rw [answers]
    exact fun id member => flushedAnswers backed sent covers member

theorem backedRecord (backed : Backed s) (here : s.pc = .drain d) {fault : Fault}
    (moved : s.recordStep d draw fault = some t) : Backed t := by
  have was : drainOf s.pc = some d := by rw [here]; rfl
  unfold recordStep at moved
  split at moved
  · contradiction
  · dsimp only at moved
    generalize s.policyFor d draw = chosen at moved
    obtain ⟨policy,shaper⟩ := chosen
    split at moved
    · cases Option.some.inj moved
      exact backedFailed backed (keepsSame rfl rfl ⟨[],(List.append_nil _).symm⟩ rfl) was rfl (fun _ => id) rfl
        (fun _ => .inl)
    · split at moved
      · cases Option.some.inj moved
        exact backedFailed backed (keepsSame rfl rfl ⟨_,rfl⟩ rfl) was rfl (fun _ => id) rfl (fun _ => .inl)
      · have kept : ∀ {u : State}, u.sent = s.sent → u.wire = s.wire →
            u.buffer = s.buffer ++ (inlineRecords d policy ++ [s.dataRecord d policy]) → u.pending = s.pending → Keeps s u :=
          fun sent wire buffer pending => keepsSame sent wire ⟨_,buffer⟩ pending
        split at moved
        · split at moved
          · cases Option.some.inj moved
            refine backedFailed backed (kept rfl rfl rfl rfl) was rfl ?_ rfl ?_
            · intro id member
              contradiction
            · intro id member
              rcases List.mem_append.mp member with old | new
              · exact .inl old
              · exact absurd new falseAnswers
          · cases Option.some.inj moved
            exact backedRecordFlushed backed here rfl (List.append_assoc ..).symm rfl rfl rfl rfl rfl rfl
        · cases Option.some.inj moved
          exact backedRecorded backed here (kept rfl rfl rfl rfl) rfl rfl rfl rfl (fun _ => id) (fun _ => .inl)

theorem backedFinish (backed : Backed s) (here : s.pc = .drain d) {made : Nat} (moved : s.finishStep d made = some t) :
    Backed t := by
  have was : drainOf s.pc = some d := by rw [here]; rfl
  have hold := backed.hold
  rw [here] at hold
  unfold finishStep at moved
  split at moved
  · contradiction
  · rename_i done
    have all : s.pending.Sublist (outBytes s) := by
      have drained := backed.drained d was
      rwa [List.take_of_length_le (Nat.not_lt.mp done)] at drained
    have ends : ∀ {u : State}, u.sent = s.sent → u.wire = s.wire → (∃ more, u.buffer = s.buffer ++ more) →
        u.batch = s.batch ++ s.responders → u.responders = [] → u.answers = s.answers →
        u.pc = .closing ∨ u.pc = nextRequest (d.current.toList ++ d.deferred) → Backed u := by
      intro u sent wire buffer batch responders answers pc
      have out : (outBytes s).Sublist (outBytes u) := by
        obtain ⟨more,buffer⟩ := buffer
        rw [outBytes,outBytes,wire,buffer,← List.append_assoc,payloadsAppend (s.wire ++ s.buffer)]
        exact List.sublist_append_left _ _
      have keeps : Keeps s u := ⟨sent,by rw [wireOut,wireOut,wire],out,fun bytes inside => .inr (inside.trans (all.trans out))⟩
      have idle : drainOf u.pc = none := by
        rcases pc with pc | pc <;> rw [pc]
        · rfl
        · exact drainNext _
      have waiting : ∀ r ∈ requestsOf u.pc, r ∈ d.current.toList ++ d.deferred := by
        rcases pc with pc | pc <;> rw [pc]
        · intro r member
          contradiction
        · cases d.current.toList ++ d.deferred <;> exact fun _ => id
      refine backedFrom backed keeps (fun r member => hold r (waiting r member)) ?_ ?_ ?_ ?_ ?_ (fun _ _ => responders)
        (fun _ _ _ => responders)
      · intro r todo which
        rcases pc with pc | pc <;> rw [pc] at which
        · rcases which with ⟨_,same⟩ | ⟨_,same⟩ <;> contradiction
        · cases requests : d.current.toList ++ d.deferred <;> rw [requests] at which <;>
            rcases which with ⟨_,same⟩ | ⟨_,same⟩ <;> try contradiction
          cases same
          exact ⟨[],rfl,List.nil_sublist _⟩
      · rw [batch]
        intro id member
        rcases List.mem_append.mp member with old | new
        · exact .inl old
        · exact .inr ((backed.responders id new).more (all.trans out))
      · rw [responders]
        intro id member
        contradiction
      · rw [answers]
        exact fun _ => .inl
      · intro e draining
        rw [idle] at draining
        contradiction
    split at moved
    · cases Option.some.inj moved
      exact ends rfl rfl ⟨[],(List.append_nil _).symm⟩ rfl rfl rfl (.inl rfl)
    · cases Option.some.inj moved
      exact ends rfl rfl ⟨_,rfl⟩ rfl rfl rfl (.inr rfl)

theorem begunMore {r : Request} {p : Packet} {todo : List Packet} {records : List Record} {draws : List (Nat × Nat)}
    (begun : ∃ gone, r.packets = gone ++ p::todo ∧ (gone.flatMap Packet.bytes).Sublist (outBytes s))
    (made : controlRecords draws p.bytes = some records) :
    ∃ gone, r.packets = gone ++ todo ∧ (gone.flatMap Packet.bytes).Sublist (outBytes (s.prepared records)) := by
  obtain ⟨gone,packets,inside⟩ := begun
  refine ⟨gone ++ [p],by rw [packets,List.append_assoc]; rfl,?_⟩
  rw [outPrepared,controlPayload made,List.flatMap_append,List.flatMap_singleton]
  exact inside.append (List.Sublist.refl _)

theorem backedPacket (backed : Backed s) {draws : List (Nat × Nat)} {fault : Option Nat}
    (moved : s.packetStep draws fault = some t) : Backed t := by
  have hold := backed.hold
  unfold packetStep at moved
  split at moved
  · rename_i d r p todo here
    have was : drainOf s.pc = some d := by rw [here]; rfl
    obtain ⟨records,made,rfl⟩ := Option.map_eq_some_iff.mp moved
    cases fault with
    | some made =>
      exact backedFailed backed (keepsSame rfl rfl ⟨_,rfl⟩ rfl) was rfl (fun _ => id) rfl
        (fun _ member => .inl (errorAnswer member))
    | none =>
      rw [here] at hold
      have keeps : Keeps s (s.prepared records) := keepsSame rfl rfl ⟨_,rfl⟩ rfl
      refine backedFrom backed ⟨rfl,keeps.wire,keeps.out,keeps.pending⟩ hold ?_ (fun _ => .inl) backed.responders
        (fun _ => .inl) ?_ ?_ ?_
      · intro r' todo' which
        rcases which with ⟨_,same⟩ | ⟨_,same⟩ <;> cases same
        exact begunMore (backed.begun r (p::todo) (.inl ⟨d,here⟩)) made
      · intro e draining
        cases Option.some.inj draining
        exact (backed.drained d was).trans keeps.out
      · intro idle
        contradiction
      · intro e draining
        cases Option.some.inj draining
        exact backed.leaving d was
  · rename_i r p todo rest here
    have was : drainOf s.pc = none := by rw [here]; rfl
    obtain ⟨records,made,rfl⟩ := Option.map_eq_some_iff.mp moved
    cases fault with
    | some made =>
      have keeps : Keeps s (s.prepared (records.take made)) := keepsSame rfl rfl ⟨_,rfl⟩ rfl
      exact backedIdle backed ⟨rfl,keeps.wire,keeps.out,keeps.pending⟩ rfl rfl (fun _ => .inl) backed.responders
        (backed.idle was) (fun _ member => .inl (errorAnswer member))
    | none =>
      rw [here] at hold
      have keeps : Keeps s (s.prepared records) := keepsSame rfl rfl ⟨_,rfl⟩ rfl
      refine backedFrom backed ⟨rfl,keeps.wire,keeps.out,keeps.pending⟩ hold ?_ (fun _ => .inl) backed.responders
        (fun _ => .inl) ?_ (fun _ => backed.idle was) ?_
      · intro r' todo' which
        rcases which with ⟨_,same⟩ | ⟨_,same⟩ <;> cases same
        exact begunMore (backed.begun r (p::todo) (.inr ⟨rest,here⟩)) made
      · intro e draining
        contradiction
      · intro e draining
        contradiction
  · contradiction

theorem begunAll (backed : Backed s) {r : Request} (hold : r ∈ requestsOf s.pc)
    (which : (∃ d, s.pc = .through d r []) ∨ (∃ rest, s.pc = .prepare r [] rest)) : Vouched s r.id (outBytes s) := by
  obtain ⟨gone,packets,inside⟩ := backed.begun r [] which
  refine (backed.hold r hold).more ?_
  rw [Request.bytes,packets,List.append_nil]
  exact inside

theorem backedFlush (backed : Backed s) {ok : Bool} (moved : s.flushStep ok = some t) : Backed t := by
  -- a flush with nothing to drain: the batch is answered, and nothing is held
  have settles : ∀ {u : State}, drainOf s.pc = none → u.sent = s.sent → u.pending = s.pending →
      u.responders = s.responders → u.batch = [] → drainOf u.pc = none → requestsOf u.pc = [] →
      (u.wire = s.wire ++ s.buffer ∧ u.answers = s.answers ++ answerAll s.batch true ∨
        u.wire = s.wire ∧ u.buffer = s.buffer ∧ u.answers = s.answers ++ answerAll s.batch false) → Backed u := by
    intro u was sent pending responders batch now none which
    have noBatch : ∀ id ∈ u.batch, id ∈ s.batch ∨ Vouched s id (outBytes u) := by
      rw [batch]
      intro id member
      contradiction
    have waiting : ∀ id ∈ u.responders, Vouched s id u.pending := by
      rw [responders,pending]
      exact backed.responders
    have idle : u.pending ≠ [] → u.responders = [] := by
      rw [responders,pending]
      exact backed.idle was
    rcases which with ⟨wire,answers⟩ | ⟨wire,buffer,answers⟩
    · obtain ⟨keeps,covers⟩ := keepsFlushed sent ⟨[],by rw [wire,List.append_nil]⟩ pending
      refine backedIdle backed keeps now none noBatch waiting idle ?_
      rw [answers]
      exact fun id member => flushedAnswers backed sent covers member
    · refine backedIdle backed (keepsSame sent wire ⟨[],by rw [buffer,List.append_nil]⟩ pending) now none noBatch waiting idle ?_
      rw [answers]
      intro id member
      rcases List.mem_append.mp member with old | new
      · exact .inl old
      · exact absurd new falseAnswers
  unfold flushStep at moved
  split at moved
  · rename_i d r here
    have was : drainOf s.pc = some d := by rw [here]; rfl
    have written : Vouched s r.id (outBytes s) :=
      begunAll backed (by rw [here]; exact List.mem_cons_self) (.inl ⟨d,here⟩)
    have passes : ∀ {u : State}, u.sent = s.sent → u.pending = s.pending → u.responders = s.responders → u.batch = [] →
        u.pc = .window d → u.wire = s.wire ++ s.buffer → u.answers = s.answers ++ answerAll (s.batch ++ [r.id]) true →
        Backed u := by
      intro u sent pending responders batch pc wire answers
      obtain ⟨keeps,covers⟩ := keepsFlushed sent ⟨[],by rw [wire,List.append_nil]⟩ pending
      have hold := backed.hold
      rw [here] at hold
      refine backedFrom backed keeps ?_ ?_ ?_ ?_ ?_ ?_ ?_ ?_
      · rw [pc]
        exact fun q member => hold q (List.mem_cons_of_mem _ member)
      · rw [pc]
        rintro r' todo (⟨_,same⟩ | ⟨_,same⟩) <;> contradiction
      · rw [batch]
        intro id member
        contradiction
      · rw [responders,pending]
        exact backed.responders
      · rw [answers]
        intro id member
        rcases List.mem_append.mp member with old | new
        · exact .inl old
        · refine .inr ?_
          intro q listed same
          rw [sent] at listed
          rcases List.mem_append.mp (trueAnswers new) with batched | own
          · exact .inl ((backed.batch id batched q listed same).trans covers)
          · rw [List.mem_singleton.mp own] at same
            exact .inl ((written q listed same).trans covers)
      · rw [pc,pending]
        intro e draining
        cases Option.some.inj draining
        exact (backed.drained d was).trans keeps.out
      · rw [pc]
        intro idle
        contradiction
      · rw [pc,responders]
        intro e draining
        cases Option.some.inj draining
        exact backed.leaving d was
    cases Option.some.inj moved
    cases ok
    · refine backedFailed backed (keepsSame rfl rfl ⟨[],(List.append_nil _).symm⟩ rfl) was rfl ?_ rfl ?_
      · intro id member
        contradiction
      · intro id member
        rcases List.mem_append.mp member with old | new
        · exact .inl old
        · exact absurd new falseAnswers
    · exact passes rfl rfl rfl rfl rfl rfl rfl
  · rename_i here
    have was : drainOf s.pc = none := by rw [here]; rfl
    have still : ∀ {u : State}, u = {s with pc := .select} → Backed u := by
      rintro u rfl
      exact backedIdle backed (keepsSame rfl rfl ⟨[],(List.append_nil _).symm⟩ rfl) rfl rfl (fun _ => .inl)
        backed.responders (backed.idle was) (fun _ => .inl)
    split at moved
    · exact still (Option.some.inj moved).symm
    · split at moved
      · exact still (Option.some.inj moved).symm
      · cases Option.some.inj moved
        cases ok
        · exact settles was rfl rfl rfl rfl rfl rfl (.inr ⟨rfl,rfl,rfl⟩)
        · exact settles was rfl rfl rfl rfl rfl rfl (.inl ⟨rfl,rfl⟩)
  · rename_i here
    have was : drainOf s.pc = none := by rw [here]; rfl
    cases Option.some.inj moved
    cases ok
    · exact settles was rfl rfl rfl rfl rfl rfl (.inr ⟨rfl,rfl,rfl⟩)
    · exact settles was rfl rfl rfl rfl rfl rfl (.inl ⟨rfl,rfl⟩)
  · contradiction

end Backed

structure Ids (s : State) : Prop where
  ids : s.sent.map (·.id) = List.range s.sent.length
  few : ∀ id, (holders s).count id ≤ 1
  known : ∀ id ∈ holders s, id < s.sent.length
  queued : ∀ r ∈ s.queue, r ∈ s.sent

section Taken
variable {s t : State} {a : Action} {d : Drain} {draw : Draw}

theorem Ids.same (known : Ids s) {q r : Request} (one : q ∈ s.sent) (two : r ∈ s.sent) (same : q.id = r.id) : q = r := by
  have distinct : (s.sent.map (·.id)).Nodup := by
    rw [known.ids]
    exact List.nodup_range
  exact List.inj_on_of_nodup_map distinct one two same

theorem Ids.own (known : Ids s) {r : Request} (member : r ∈ s.sent) : Vouched s r.id r.bytes := by
  intro q listed same
  rw [known.same listed member same]

theorem Ids.settled (known : Ids s) {r : Request} (member : r ∈ s.sent) :
    Vouched s (s.withSettings r).id (s.withSettings r).bytes := by
  have own := known.own member
  rw [settledId]
  unfold withSettings
  split
  · refine own.more ?_
    rw [Request.bytes,Request.bytes,List.flatMap_cons]
    exact List.sublist_append_right _ _
  · exact own

theorem settledCarries (s : State) (r : Request) : (s.withSettings r).carriesStreamData = r.carriesStreamData := by
  unfold Request.carriesStreamData
  rw [requestHeaders,requestHeaders,withSettingsFrames,List.map_append,List.any_append]
  unfold settingsOf
  split <;> rfl

theorem settledAuto (s : State) (r : Request) : (s.withSettings r).auto = r.auto := by
  unfold withSettings
  split <;> rfl

theorem bytesInside {requests : List Request} {r : Request} (member : r ∈ requests) :
    r.bytes.Sublist (requests.flatMap Request.bytes) := by
  obtain ⟨before,later,rfl⟩ := List.append_of_mem member
  rw [List.flatMap_append,List.flatMap_cons]
  exact (List.sublist_append_left _ _).trans (List.sublist_append_right _ _)

structure Entered (s u : State) : Prop where
  keeps : Keeps s u
  responders : ∀ id ∈ u.responders, Vouched s id u.pending
  answers : ∀ id, (id,true) ∈ u.answers → (id,true) ∈ s.answers ∨ Paid u id
  batch : u.batch = s.batch

theorem enteredQueued (backed : Backed s) (known : Ids s) {u v : State} {requests queue : List Request}
    (queued : Queued u v requests queue) (same : u = s ∨ ∃ rest, u = {s with queue := rest,settings := false})
    (own : ∀ r ∈ requests, r ∈ s.sent ∧ r.control = false) : Entered s v := by
  have alike : u.pending = s.pending ∧ u.sent = s.sent ∧ u.wire = s.wire ∧ u.buffer = s.buffer ∧ u.batch = s.batch ∧
      u.answers = s.answers ∧ u.responders = s.responders := by
    rcases same with rfl | ⟨rest,rfl⟩ <;> exact ⟨rfl,rfl,rfl,rfl,rfl,rfl,rfl⟩
  obtain ⟨pending,sent,wire,buffer,batch,answers,responders⟩ := alike
  have pending := queued.pending.trans (by rw [pending])
  have keeps : Keeps s v := by
    refine ⟨queued.sent.trans sent,by rw [wireOut,wireOut,queued.wire,wire],?_,?_⟩
    · rw [outBytes,outBytes,queued.wire,queued.buffer,wire,buffer]
    · intro bytes inside
      rw [pending]
      exact .inl (inside.trans (List.sublist_append_left _ _))
  have inside : ∀ r ∈ requests, r.bytes.Sublist v.pending := by
    intro r member
    rw [pending]
    exact (bytesInside member).trans (List.sublist_append_right _ _)
  refine ⟨keeps,?_,?_,queued.batch.trans batch⟩
  · intro id member
    rw [queued.responders,responders] at member
    rcases List.mem_append.mp member with old | new
    · refine (backed.responders id old).more ?_
      rw [pending]
      exact List.sublist_append_left _ _
    · obtain ⟨r,listed,rfl⟩ := List.mem_map.mp new
      have listed := (List.mem_filter.mp listed).1
      exact (known.own (own r listed).1).more (inside r listed)
  · intro id member
    rw [queued.answers,answers] at member
    rcases List.mem_append.mp member with old | new
    · exact .inl old
    · obtain ⟨r,listed,here⟩ := List.mem_map.mp new
      cases here
      obtain ⟨listed,auto⟩ := List.mem_filter.mp listed
      refine .inr ?_
      intro q member here
      rw [keeps.sent] at member
      rw [known.same member (own r listed).1 here]
      exact .inr ⟨auto,by rw [Request.bulk,(own r listed).2]; rfl,.inl (inside r listed)⟩

theorem enteredMore {u : State} (entered : Entered s u) {r : Request} (vouched : Vouched s r.id r.bytes)
    (bulk : ∀ q ∈ s.sent, q.id = r.id → q.auto = r.auto ∧ q.bulk = true) : Entered s (u.queueBulkRequest r) := by
  have queued := queuedOne u r
  have more : u.pending.Sublist (u.queueBulkRequest r).pending := by
    rw [queued.pending]
    exact List.sublist_append_left _ _
  have mine : r.bytes.Sublist (u.queueBulkRequest r).pending := by
    rw [queued.pending]
    simp
  have keeps : Keeps u (u.queueBulkRequest r) := by
    refine ⟨queued.sent,by rw [wireOut,wireOut,queued.wire],?_,fun bytes inside => .inl (inside.trans more)⟩
    rw [outBytes,outBytes,queued.wire,queued.buffer]
  refine ⟨⟨queued.sent.trans entered.keeps.sent,entered.keeps.wire.trans keeps.wire,entered.keeps.out.trans keeps.out,?_⟩,
    ?_,?_,queued.batch.trans entered.batch⟩
  · intro bytes inside
    rcases entered.keeps.pending bytes inside with here | here
    · exact keeps.pending bytes here
    · exact .inr (here.trans keeps.out)
  · intro id member
    rw [queued.responders] at member
    rcases List.mem_append.mp member with old | new
    · exact (entered.responders id old).more more
    · obtain ⟨q,listed,rfl⟩ := List.mem_map.mp new
      rw [List.mem_singleton.mp (List.mem_filter.mp listed).1]
      exact vouched.more mine
  · intro id member
    rw [queued.answers] at member
    rcases List.mem_append.mp member with old | new
    · rcases entered.answers id old with before | here
      · exact .inl before
      · exact .inr (keeps.paid here)
    · obtain ⟨p,listed,same⟩ := List.mem_map.mp new
      cases same
      obtain ⟨listed,auto⟩ := List.mem_filter.mp listed
      rw [List.mem_singleton.mp listed] at auto ⊢
      refine .inr ?_
      intro q member here
      rw [queued.sent,entered.keeps.sent] at member
      obtain ⟨alike,data⟩ := bulk q member here
      exact .inr ⟨alike.trans auto,data,.inl ((vouched q member here).trans mine)⟩

theorem backedStart (backed : Backed s) {u : State} (entered : Entered s u) {pinned : List Nat} {current : Option Request}
    (hold : ∀ r ∈ current.toList, Vouched s r.id r.bytes) : Backed (u.startDrain pinned current false draw) := by
  refine backedFrom backed ⟨entered.keeps.sent,entered.keeps.wire,entered.keeps.out,entered.keeps.pending⟩ ?_ ?_ ?_
    entered.responders entered.answers ?_ ?_ ?_
  · intro r member
    rw [show requestsOf (u.startDrain pinned current false draw).pc = current.toList ++ [] from rfl,
      List.append_nil] at member
    exact hold r member
  · rintro r todo (⟨_,same⟩ | ⟨_,same⟩) <;> contradiction
  · intro id member
    rw [show (u.startDrain pinned current false draw).batch = s.batch from entered.batch] at member
    exact .inl member
  · intro e draining
    cases Option.some.inj draining
    exact List.nil_sublist _
  · intro idle
    contradiction
  · intro e draining exiting
    cases Option.some.inj draining
    contradiction

theorem backedRefused (backed : Backed s) {r : Request} {rest : List Request} : Backed (s.refuse r rest) := by
  refine backedNone backed (keepsSame rfl rfl ⟨[],(List.append_nil _).symm⟩ rfl) rfl rfl ?_ rfl ?_
  · intro id member
    contradiction
  · intro id member
    have member := errorAnswer member
    simp only [List.mem_append] at member
    rcases member with (old | new) | new
    · exact .inl old
    · exact absurd new falseAnswers
    · exact absurd new falseAnswers

theorem backedControl (backed : Backed s) (known : Ids s) (here : s.pc = .select)
    (moved : s.controlStep draw = some t) : Backed t := by
  have was : drainOf s.pc = none := by rw [here]; rfl
  obtain ⟨r,rest,found,⟨_,rfl⟩ | ⟨_,u,same,outcome⟩⟩ := controlCases moved
  · exact backedRefused backed
  · have inside : ∀ q ∈ r::rest, q ∈ s.sent := fun q member =>
      known.queued q ((takeControlPerm found).symm.subset member)
    have mine := inside r List.mem_cons_self
    have queued := drained {s with queue := rest,settings := false}
    rw [← same] at queued
    have entered : Entered s u := by
      refine enteredQueued backed known queued (.inr ⟨rest,rfl⟩) ?_
      intro q member
      obtain ⟨listed,bulk⟩ := List.mem_filter.mp member
      exact ⟨inside q (List.mem_cons_of_mem _ listed),by simpa using bulk⟩
    have vouched := known.settled mine
    obtain ⟨rfl,data⟩ | ⟨_,⟨empty,rfl⟩ | ⟨_,rfl⟩⟩ := outcome
    · have bulk : ∀ q ∈ s.sent, q.id = (s.withSettings r).id → q.auto = (s.withSettings r).auto ∧ q.bulk = true := by
        intro q member same
        rw [settledId] at same
        rw [known.same member mine same,settledAuto,Request.bulk,← settledCarries s r,data,Bool.or_true]
        exact ⟨rfl,rfl⟩
      refine backedStart backed (enteredMore entered vouched bulk) ?_
      intro q member
      contradiction
    · refine backedFrom backed ⟨entered.keeps.sent,entered.keeps.wire,entered.keeps.out,entered.keeps.pending⟩ ?_ ?_ ?_
        entered.responders entered.answers ?_ (fun _ some' => absurd empty some') ?_
      · intro q member
        rw [List.mem_singleton.mp member]
        exact vouched
      · intro r' todo which
        rcases which with ⟨_,same⟩ | ⟨_,same⟩ <;> cases same
        exact ⟨[],rfl,List.nil_sublist _⟩
      · intro id member
        rw [show State.batch {u with pc := .prepare (s.withSettings r) (s.withSettings r).packets []} = s.batch
          from entered.batch] at member
        exact .inl member
      · intro e draining
        contradiction
      · intro e draining
        contradiction
    · refine backedStart backed entered ?_
      intro q member
      rw [Option.toList_some,List.mem_singleton] at member
      rw [member]
      exact vouched

theorem backedBulk (backed : Backed s) (known : Ids s) (moved : s.bulkStep draw = some t) : Backed t := by
  obtain ⟨_,allBulk,r,rest,_,⟨_,rfl⟩ | ⟨_,outcome⟩⟩ := bulkCases moved
  · exact backedRefused backed
  · have entered : Entered s s.drainBulk := by
      refine enteredQueued backed known (drained s) (.inl rfl) ?_
      intro q member
      obtain ⟨listed,bulk⟩ := List.mem_filter.mp member
      exact ⟨known.queued q listed,by simpa using bulk⟩
    obtain ⟨empty,rfl⟩ | rfl := outcome
    · refine backedIdle backed ⟨entered.keeps.sent,entered.keeps.wire,entered.keeps.out,entered.keeps.pending⟩ rfl rfl ?_
        entered.responders (fun some' => absurd empty some') entered.answers
      intro id member
      rw [show State.batch {s.drainBulk with pc := .merge} = s.batch from entered.batch] at member
      exact .inl member
    · refine backedStart backed entered ?_
      intro q member
      contradiction

end Taken

end KanoTls.Writer
