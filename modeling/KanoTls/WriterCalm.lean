import KanoTls.WriterPlain

/-! A run without an I/O error, byte by byte: each step encodes the next bytes of what is
ahead, and what the records hold of a request is a prefix of it. -/
namespace KanoTls.Writer
open Wire Shaper Uot State

def packetBytes (packets : List Packet) : List Byte := packets.flatMap Packet.bytes
def queueBytes (requests : List Request) : List Byte := requests.flatMap Request.bytes

def frontOf : Pc → List Packet
  | .through _ _ todo => todo
  | _ => []

def laterOf : Pc → List Packet
  | .drain d | .window d | .through d _ _ => d.packets
  | .prepare _ todo rest => todo ++ rest.flatMap (·.packets)
  | _ => []

def ahead (s : State) : List Byte :=
  packetBytes (frontOf s.pc) ++ s.pending.drop (consumedOf s.pc) ++ packetBytes (laterOf s.pc) ++ queueBytes s.queue

section Content
variable {s t : State} {a : Action} {d : Drain} {draw : Draw}

theorem contentSame (wire : t.wire = s.wire) (buffer : t.buffer = s.buffer) : content t = content s := by
  rw [content,content,wire,buffer]

theorem contentPrepared (s : State) (records : List Record) :
    content (s.prepared records) = content s ++ plaintext records := by
  simp only [content,prepared,← List.append_assoc,plaintextAppend]

theorem contentFlushed (s : State) : content s.flushed = content s := by
  simp [content,flushed]

theorem contentFailDrain (s : State) (d : Drain) : content (s.failDrain d) = content s := by
  unfold failDrain
  split <;> rfl

theorem inlinePlain (d : Drain) (policy : ShapePolicy) : plaintext (inlineRecords d policy) = [] := by
  unfold inlineRecords
  exact paddingsPlain _

/- The backlog may be sliced anywhere: no slice is taken for padding. -/
theorem dataPlain (all : Marked s.pending) (d : Drain) (policy : ShapePolicy) :
    plaintext [s.dataRecord d policy] = (s.pending.drop d.consumed).take (s.takeFor d policy) := by
  have sliced : ∀ r ∈ [s.dataRecord d policy],Sliced r.payload := by
    intro r member
    rw [List.mem_singleton.mp member]
    exact slicedTake (markedDrop all d.consumed) (s.takeFor d policy)
  rw [slicedPlain sliced]
  simp [dataRecord,record]

theorem recordsPlain (all : Marked s.pending) (d : Drain) (policy : ShapePolicy) :
    plaintext (inlineRecords d policy ++ [s.dataRecord d policy]) =
      (s.pending.drop d.consumed).take (s.takeFor d policy) := by
  rw [plaintextAppend,inlinePlain,dataPlain all,List.nil_append]

theorem contentRecord (all : Marked s.pending) (moved : s.recordStep d draw .none = some t) :
    content t = content s ++ (s.pending.drop d.consumed).take (s.takeFor d (s.policyFor d draw).1) := by
  unfold recordStep at moved
  split at moved
  · contradiction
  · dsimp only at moved
    simp only [reduceCtorEq,false_and,if_false] at moved
    have out := contentPrepared s (inlineRecords d (s.policyFor d draw).1 ++ [s.dataRecord d (s.policyFor d draw).1])
    rw [recordsPlain all] at out
    split at moved
    · cases Option.some.inj moved
      exact (contentFlushed _).trans out
    · cases Option.some.inj moved
      exact out

theorem contentFinish {made : Nat} (moved : s.finishStep d made = some t) : content t = content s := by
  unfold finishStep at moved
  split at moved
  · contradiction
  · split at moved
    · cases Option.some.inj moved
      rfl
    · cases Option.some.inj moved
      exact (contentPrepared s _).trans (by rw [paddingsPlain,List.append_nil])

theorem contentGoaway {last : Nat} {ok : Bool} (moved : s.goawayStep last ok = some t) : content t = content s := by
  have padding : content (s.prepared [paddingRecord (goawayFrame last)]) = content s := by
    rw [contentPrepared,paddingPlain,List.append_nil]
    · rfl
    · simp [goawayFrame,paddingHeaderLen]
    · have len : (goawayFrame last).encodedLen = 17 := by
        simp [Frame.encodedLen,goawayFrame,frameHeaderSize,sidBytes,toBeBytes]
        decide
      rw [len]
      decide
  unfold goawayStep at moved
  split at moved
  · cases Option.some.inj moved
    rfl
  · cases Option.some.inj moved
    cases ok with
    | true => exact (by simp [content,prepared] : _ = content (s.prepared _)).trans padding
    | false => exact padding

end Content

section Taken
variable {s t : State} {draw : Draw}

structure Took (s t : State) (entered hand queue : List Request) : Prop where
  queue : t.queue = queue
  sent : t.sent = s.sent
  wire : t.wire = s.wire
  buffer : t.buffer = s.buffer
  pending : t.pending = s.pending ++ queueBytes entered
  consumed : consumedOf t.pc = 0
  front : frontOf t.pc = []
  later : laterOf t.pc = hand.flatMap (fun r => r.packets)

theorem Took.of {v : State} {entered hand queue : List Request} (took : Took v t entered hand queue)
    (pending : v.pending = s.pending) (sent : v.sent = s.sent) (wire : v.wire = s.wire) (buffer : v.buffer = s.buffer) :
    Took s t entered hand queue :=
  ⟨took.queue,took.sent.trans sent,took.wire.trans wire,took.buffer.trans buffer,pending ▸ took.pending,took.consumed,
    took.front,took.later⟩

theorem queuedTook {u : State} {requests queue : List Request} (queued : Queued s u requests queue) (pinned : List Nat)
    (current : Option Request) : Took s (u.startDrain pinned current false draw) requests current.toList queue := by
  refine ⟨queued.queue,queued.sent,queued.wire,queued.buffer,queued.pending,rfl,rfl,?_⟩
  show (current.toList ++ []).flatMap _ = _
  rw [List.append_nil]

theorem queuedBoth {u : State} {requests queue : List Request} (queued : Queued s u requests queue) (r : Request) :
    Queued s (u.queueBulkRequest r) (requests ++ [r]) queue := by
  have one := queuedOne u r
  refine ⟨?_,one.queue.trans queued.queue,one.sent.trans queued.sent,one.settings.trans queued.settings,
    one.pc.trans queued.pc,one.wire.trans queued.wire,one.buffer.trans queued.buffer,one.records.trans queued.records,
    one.closed.trans queued.closed,one.batch.trans queued.batch,?_,?_⟩
  · rw [one.pending,queued.pending,List.flatMap_append,List.append_assoc]
  · rw [one.answers,queued.answers,List.filter_append,List.map_append,List.append_assoc]
  · rw [one.responders,queued.responders,List.filter_append,List.map_append,List.append_assoc]

theorem controlTook (moved : s.controlStep draw = some t) : ∃ r queue, takeControl s.queue = some (r,queue) ∧
    (t = s.refuse r queue ∨ Took s t (bulkOf queue ++ [s.withSettings r]) [] (controlOf queue) ∨
      Took s t (bulkOf queue) [s.withSettings r] (controlOf queue)) := by
  obtain ⟨r,rest,found,⟨-,rfl⟩ | ⟨-,u,same,outcome⟩⟩ := controlCases moved
  · exact ⟨r,rest,found,.inl rfl⟩
  · refine ⟨r,rest,found,.inr ?_⟩
    have bulk := drained {s with queue := rest,settings := false}
    rw [← same] at bulk
    obtain ⟨rfl,-⟩ | ⟨-,⟨empty,rfl⟩ | ⟨-,rfl⟩⟩ := outcome
    · exact .inl ((queuedTook (queuedBoth bulk (s.withSettings r)) (s.withSettings r).sids none).of rfl rfl rfl rfl)
    · refine .inr ⟨bulk.queue,bulk.sent,bulk.wire,bulk.buffer,bulk.pending,rfl,rfl,?_⟩
      show (s.withSettings r).packets ++ [] = _
      rw [List.append_nil,List.flatMap_singleton]
    · exact .inr ((queuedTook bulk (s.withSettings r).sids (some (s.withSettings r))).of rfl rfl rfl rfl)

theorem bulkTook (moved : s.bulkStep draw = some t) : controlOf s.queue = [] ∧ ∃ r queue, s.queue = r::queue ∧
    (t = s.refuse r queue ∨ Took s t s.queue [] []) := by
  obtain ⟨none',all,r,rest,found,⟨-,rfl⟩ | ⟨-,outcome⟩⟩ := bulkCases moved
  · exact ⟨none',r,rest,found,.inl rfl⟩
  · refine ⟨none',r,rest,found,.inr ?_⟩
    have bulk := drained s
    rw [none',all] at bulk
    obtain ⟨-,rfl⟩ | rfl := outcome
    · exact ⟨bulk.queue,bulk.sent,bulk.wire,bulk.buffer,bulk.pending,rfl,rfl,rfl⟩
    · exact queuedTook bulk [] none

end Taken

section Marks
variable {s t : State} {a : Action} {d : Drain} {draw : Draw}

def Tagged (s : State) : Prop := ∀ r ∈ s.sent, ∀ p ∈ r.packets, p.owner = some r.id

theorem newTagged (s : State) (control auto : Bool) (packets : List (List Frame)) :
    ∀ p ∈ (s.newRequest control auto packets).packets, p.owner = some (s.newRequest control auto packets).id := by
  intro p inside
  obtain ⟨frames,-,rfl⟩ := List.mem_map.mp inside
  rfl

theorem taggedStep (tagged : Tagged s) (moved : step s a = some t) : Tagged t := by
  cases quiet : sends a with
  | false =>
    rw [Tagged,sentOnly quiet moved]
    exact tagged
  | true =>
    cases a with
    | send control auto packets =>
      simp only [step] at moved
      split at moved <;> try contradiction
      cases Option.some.inj moved
      intro r member
      obtain old | new := List.mem_append.mp member
      · exact tagged r old
      · rw [List.mem_singleton.mp new]
        exact newTagged s control auto packets
    | _ => contradiction

structure Marks (s : State) : Prop where
  stock : Stock s
  pending : Marked s.pending
  tagged : Tagged s

theorem packetMarked (tagged : Tagged s) {r : Request} (sent : r ∈ s.sent) {p : Packet} (member : p ∈ r.packets) :
    Marked p.bytes := by
  refine markedOwned ?_
  intro b byte
  obtain ⟨value,-,rfl⟩ := List.mem_map.mp byte
  rw [tagged r sent p member]
  rfl

theorem knownMarked (marks : Marks s) {p : Packet} (known : Known s p) : Marked p.bytes := by
  obtain rfl | ⟨r,sent,member⟩ := known
  · decide
  · exact packetMarked marks.tagged sent member

theorem flatMarked {α : Type} {items : List α} {bytes : α → List Byte} (all : ∀ x ∈ items, Marked (bytes x)) :
    Marked (items.flatMap bytes) := by
  induction items with
  | nil => rfl
  | cons x rest ih =>
    rw [List.flatMap_cons]
    exact markedAppend (all x List.mem_cons_self) (ih (fun x member => all x (List.mem_cons_of_mem _ member)))

theorem requestMarked (marks : Marks s) {r : Request} (member : r ∈ s.queue) : Marked (s.withSettings r).bytes :=
  flatMarked (fun p inside => knownMarked marks (settledKnown marks.stock member p inside))

theorem queueMarked (marks : Marks s) {queue : List Request} (inside : ∀ r ∈ queue, r ∈ s.queue) :
    Marked (queueBytes queue) :=
  flatMarked (fun r member => flatMarked (fun _ => packetMarked marks.tagged (marks.stock.queue r (inside r member))))

theorem tookMarked {entered hand queue : List Request} (took : Took s t entered hand queue) (pending : Marked s.pending)
    (all : Marked (queueBytes entered)) : Marked t.pending := by
  rw [took.pending]
  exact markedAppend pending all

theorem controlMarks (marks : Marks s) (moved : s.controlStep draw = some t) : Marked t.pending := by
  obtain ⟨r,queue,found,outcome⟩ := controlTook moved
  have perm := takeControlPerm found
  have bulk : Marked (queueBytes (bulkOf queue)) := by
    refine queueMarked marks ?_
    intro q member
    exact perm.symm.subset (List.mem_cons_of_mem _ (List.mem_of_mem_filter member))
  obtain rfl | took | took := outcome
  · exact marks.pending
  · refine tookMarked took marks.pending ?_
    rw [queueBytes,List.flatMap_append,List.flatMap_singleton]
    exact markedAppend bulk (requestMarked marks (perm.symm.subset List.mem_cons_self))
  · exact tookMarked took marks.pending bulk

theorem bulkMarks (marks : Marks s) (moved : s.bulkStep draw = some t) : Marked t.pending := by
  obtain ⟨-,r,queue,-,rfl | took⟩ := bulkTook moved
  · exact marks.pending
  · exact tookMarked took marks.pending (queueMarked marks (fun _ => id))

theorem calmStill (marks : Marks s) (wire : t.wire = s.wire) (buffer : t.buffer = s.buffer)
    (pending : t.pending = s.pending) :
    content t = content s ++ [] ∧ Marked t.pending := by
  rw [List.append_nil,pending]
  exact ⟨contentSame wire buffer,marks.pending⟩

theorem tookCalm (marks : Marked t.pending) {entered hand queue : List Request} (took : Took s t entered hand queue) :
    content t = content s ++ [] ∧ Marked t.pending :=
  ⟨(contentSame took.wire took.buffer).trans (List.append_nil _).symm,marks⟩

theorem packetCalm (marks : Marks s) {draws : List (Nat × Nat)} (moved : s.packetStep draws none = some t) :
    content t = content s ++ added s (.packet draws none) ∧ Marked t.pending := by
  have known := marks.stock.packets
  unfold packetStep at moved
  split at moved
  · rename_i d r p todo here
    obtain ⟨records,made,rfl⟩ := Option.map_eq_some_iff.mp moved
    rw [here] at known
    have all := knownMarked marks (known p List.mem_cons_self)
    refine ⟨?_,marks.pending⟩
    simp only [added,here]
    exact (contentPrepared s records).trans (by rw [controlPlain made all])
  · rename_i r p todo rest here
    obtain ⟨records,made,rfl⟩ := Option.map_eq_some_iff.mp moved
    rw [here] at known
    have all := knownMarked marks (known p List.mem_cons_self)
    refine ⟨?_,marks.pending⟩
    simp only [added,here]
    exact (contentPrepared s records).trans (by rw [controlPlain made all])
  · contradiction

theorem flushCalm (marks : Marks s) (moved : s.flushStep true = some t) :
    content t = content s ++ [] ∧ Marked t.pending := by
  rw [List.append_nil]
  unfold flushStep at moved
  split at moved
  · cases Option.some.inj moved
    exact ⟨contentFlushed _,marks.pending⟩
  · split at moved
    · cases Option.some.inj moved
      exact ⟨rfl,marks.pending⟩
    · split at moved
      · cases Option.some.inj moved
        exact ⟨rfl,marks.pending⟩
      · cases Option.some.inj moved
        exact ⟨contentFlushed _,marks.pending⟩
  · cases Option.some.inj moved
    exact ⟨contentFlushed _,marks.pending⟩
  · contradiction

theorem calmStep (marks : Marks s) (calm : faultless s a = true) (moved : step s a = some t) :
    content t = content s ++ added s a ∧ Marked t.pending := by
  cases a with
  | send control auto packets =>
    simp only [step] at moved
    split at moved <;> try contradiction
    cases Option.some.inj moved
    exact calmStill marks rfl rfl rfl
  | close =>
    cases Option.some.inj moved
    exact calmStill marks rfl rfl rfl
  | hangUp =>
    cases Option.some.inj moved
    exact calmStill marks rfl rfl rfl
  | exit =>
    simp only [step] at moved
    split at moved <;> try contradiction
    cases Option.some.inj moved
    exact calmStill marks rfl rfl rfl
  | control draw =>
    simp only [step] at moved
    split at moved <;> try contradiction
    obtain ⟨r,queue,-,rfl | took | took⟩ := controlTook moved
    · exact calmStill marks rfl rfl rfl
    · exact tookCalm (controlMarks marks moved) took
    · exact tookCalm (controlMarks marks moved) took
  | bulk draw =>
    simp only [step] at moved
    split at moved <;> try contradiction
    obtain ⟨-,r,queue,-,rfl | took⟩ := bulkTook moved
    · exact calmStill marks rfl rfl rfl
    · exact tookCalm (bulkMarks marks moved) took
  | record draw fault =>
    have none' : fault = .none := by simpa [faultless] using calm
    subst none'
    simp only [step] at moved
    split at moved <;> try contradiction
    rename_i d here
    simp only [added,here]
    refine ⟨contentRecord marks.pending moved,?_⟩
    rw [(recorded moved).pending]
    exact marks.pending
  | finish made =>
    simp only [step] at moved
    split at moved <;> try contradiction
    refine ⟨(contentFinish moved).trans (List.append_nil _).symm,?_⟩
    unfold finishStep at moved
    repeat' split at moved
    all_goals first
      | contradiction
      | (cases Option.some.inj moved; rfl)
  | arrive =>
    simp only [step] at moved
    split at moved <;> try contradiction
    unfold arriveStep at moved
    split at moved <;> try contradiction
    split at moved <;> try contradiction
    dsimp only at moved
    split at moved
    · cases Option.some.inj moved
      exact calmStill marks rfl rfl rfl
    · cases Option.some.inj moved
      exact calmStill marks rfl rfl rfl
  | windowEnd =>
    simp only [step] at moved
    split at moved <;> try contradiction
    cases Option.some.inj moved
    exact calmStill marks rfl rfl rfl
  | packet draws fault =>
    have none' : fault = none := by simpa [faultless] using calm
    subst none'
    exact packetCalm marks moved
  | ready =>
    simp only [step] at moved
    split at moved <;> try contradiction
    cases Option.some.inj moved
    exact calmStill marks rfl rfl rfl
  | flush ok =>
    have fine : ok = true := calm
    subst fine
    exact flushCalm marks moved
  | leave draw =>
    simp only [step] at moved
    split at moved <;> try contradiction
    split at moved
    · cases Option.some.inj moved
      exact calmStill marks rfl rfl rfl
    · cases Option.some.inj moved
      exact calmStill marks rfl rfl rfl
  | goaway last ok =>
    simp only [step] at moved
    split at moved <;> try contradiction
    refine ⟨(contentGoaway moved).trans (List.append_nil _).symm,?_⟩
    unfold goawayStep at moved
    split at moved
    · cases Option.some.inj moved
      exact marks.pending
    · cases Option.some.inj moved
      cases ok <;> exact marks.pending

end Marks

section Own
variable {s t : State} {a : Action} {d : Drain} {draw : Draw} {x : Split} {id : Nat}

def own (id : Nat) (bytes : List Byte) : List Byte := bytes.filter (fun b => decide (b.owner = some id))

@[simp] theorem ownAppend (front back : List Byte) : own id (front ++ back) = own id front ++ own id back :=
  List.filter_append ..

@[simp] theorem ownNil : own id [] = [] := rfl

theorem ownMapped (bytes : Bytes) (owner : Option Nat) :
    own id (bytes.map (fun b => ⟨b,owner⟩)) = if owner = some id then bytes.map (fun b => ⟨b,owner⟩) else [] := by
  split
  · rename_i same
    refine List.filter_eq_self.mpr ?_
    intro b member
    obtain ⟨value,-,rfl⟩ := List.mem_map.mp member
    exact decide_eq_true same
  · rename_i other
    refine List.filter_eq_nil_iff.mpr ?_
    intro b member
    obtain ⟨value,-,rfl⟩ := List.mem_map.mp member
    simpa using other

theorem ownFlat {α : Type} (items : List α) (bytes : α → List Byte) :
    own id (items.flatMap bytes) = items.flatMap (fun item => own id (bytes item)) := by
  induction items with
  | nil => rfl
  | cons item rest ih => rw [List.flatMap_cons,List.flatMap_cons,ownAppend,ih]

theorem ownContent (s : State) : own id (outBytes s) = own id (content s) := by
  rw [outBytes,content,plaintext,ownFlat,ownFlat]
  refine congrArg (fun payload => (s.wire ++ s.buffer).flatMap payload) ?_
  funext r
  split
  · rename_i padding
    simp only [ownPadding,Bool.and_eq_true] at padding
    refine List.filter_eq_nil_iff.mpr ?_
    intro b member
    have none' := List.all_eq_true.mp padding.1.2 b member
    rw [Option.isNone_iff_eq_none] at none'
    simp [none']
  · rfl

theorem ownSettled (id : Nat) (s : State) (r : Request) : own id (s.withSettings r).bytes = own id r.bytes := by
  unfold withSettings
  split
  · have none' : own id (Packet.bytes ⟨none,[settingsFrame]⟩) = [] := by
      rw [Packet.bytes,ownMapped]
      rfl
    rw [Request.bytes,List.flatMap_cons,ownAppend,none',List.nil_append,Request.bytes]
  · rfl

theorem ownRequest {r : Request} (tagged : ∀ p ∈ r.packets, p.owner = some r.id) :
    own id r.bytes = if r.id = id then r.bytes else [] := by
  have each : ∀ p ∈ r.packets, own id p.bytes = if r.id = id then p.bytes else [] := by
    intro p member
    rw [Packet.bytes,ownMapped,tagged p member]
    simp only [Option.some.injEq]
  rw [Request.bytes,ownFlat]
  split
  · rename_i same
    simp only [if_pos same] at each
    exact List.flatMap_congr each
  · rename_i other
    simp only [if_neg other] at each
    rw [List.flatMap_congr each]
    simp

theorem ownAll {requests : List Request} (tagged : ∀ r ∈ requests, ∀ p ∈ r.packets, p.owner = some r.id)
    (distinct : (requests.map (·.id)).Nodup) {r : Request} (member : r ∈ requests) :
    own r.id (queueBytes requests) = r.bytes := by
  induction requests with
  | nil => contradiction
  | cons first rest ih =>
    simp only [List.map_cons,List.nodup_cons] at distinct
    have later : ∀ q ∈ rest, ∀ p ∈ q.packets, p.owner = some q.id := fun q inside => tagged q (List.mem_cons_of_mem _ inside)
    rw [queueBytes,List.flatMap_cons,ownAppend,ownRequest (tagged first List.mem_cons_self)]
    obtain rfl | member := List.mem_cons.mp member
    · have none' : own r.id (rest.flatMap Request.bytes) = [] := by
        rw [ownFlat,List.flatMap_eq_nil_iff]
        intro q inside
        rw [ownRequest (later q inside),if_neg]
        intro same
        exact distinct.1 (List.mem_map.mpr ⟨q,inside,same⟩)
      rw [if_pos rfl,none',List.append_nil]
    · have other : first.id ≠ r.id := fun same => distinct.1 (List.mem_map.mpr ⟨r,member,same.symm⟩)
      rw [if_neg other,List.nil_append]
      exact ih later distinct.2 member

theorem ownSent (known : Ids s) (tagged : Tagged s) {r : Request} (member : r ∈ s.sent) :
    own r.id (queueBytes s.sent) = r.bytes :=
  ownAll tagged (by rw [known.ids]; exact List.nodup_range) member

theorem ownEither (id : Nat) (known : Ids s) (tagged : Tagged s) {r : Request} (member : r ∈ s.sent) :
    own id r.bytes = [] ∨ own id r.bytes = own id (queueBytes s.sent) := by
  rw [ownRequest (tagged r member)]
  split
  · rename_i same
    rw [← same,ownSent known tagged member]
    exact .inr rfl
  · exact .inl rfl

/- Requests may change places: for one of them, each other is nothing. -/
theorem flatPerm {α : Type} {left right : List α} (perm : left.Perm right) {part : α → List Byte} {whole : List Byte}
    (each : ∀ item ∈ left, part item = [] ∨ part item = whole) : left.flatMap part = right.flatMap part := by
  induction perm with
  | nil => rfl
  | cons item rest ih =>
    rw [List.flatMap_cons,List.flatMap_cons,ih (fun other member => each other (List.mem_cons_of_mem _ member))]
  | swap one two rest =>
    have first := each two List.mem_cons_self
    have second := each one (List.mem_cons_of_mem _ List.mem_cons_self)
    simp only [List.flatMap_cons,← List.append_assoc]
    obtain first | first := first
    · rw [first,List.nil_append,List.append_nil]
    · obtain second | second := second
      · rw [second,List.nil_append,List.append_nil]
      · rw [first,second]
  | trans front back first second =>
    rw [first each]
    exact second (fun item member => each item (front.symm.subset member))

theorem queueMoves (id : Nat) (known : Ids s) (tagged : Tagged s) {left right : List Request} (perm : left.Perm right)
    (inside : ∀ r ∈ left, r ∈ s.sent) : own id (queueBytes left) = own id (queueBytes right) := by
  rw [queueBytes,queueBytes,ownFlat,ownFlat]
  exact flatPerm perm (fun r member => ownEither id known tagged (inside r member))

end Own

section Once
variable {s t : State} {a : Action} {d : Drain} {draw : Draw} {x : Split} {id : Nat}

/- What is out of a request and what is ahead of it do not overlap. -/
def Once (s : State) : Prop := ∀ id, own id (content s) ++ own id (ahead s) <+: own id (queueBytes s.sent)

def Passes (s : State) (a : Action) (t : State) : Prop := ∀ id, own id (added s a) ++ own id (ahead t) = own id (ahead s)

theorem passesOnce (once : Once s) (sent : t.sent = s.sent) (out : content t = content s ++ added s a)
    (passes : Passes s a t) : Once t := by
  intro id
  rw [out,ownAppend,List.append_assoc,passes id,sent]
  exact once id

theorem wholeAlone {front back whole : List Byte} (fits : front ++ (whole ++ back) <+: whole) : front = [] ∧ back = [] := by
  have len := fits.length_le
  simp only [List.length_append] at len
  exact ⟨List.eq_nil_of_length_eq_zero (by omega),List.eq_nil_of_length_eq_zero (by omega)⟩

theorem selectAhead (here : s.pc = .select) : own id (ahead s) = own id s.pending ++ own id (queueBytes s.queue) := by
  simp [ahead,here,frontOf,laterOf,consumedOf,drainOf,packetBytes]

theorem tookAhead {entered hand queue : List Request} (took : Took s t entered hand queue) : own id (ahead t) =
    own id s.pending ++ own id (queueBytes entered) ++ own id (queueBytes hand) ++ own id (queueBytes queue) := by
  have packets : packetBytes (hand.flatMap (fun r => r.packets)) = queueBytes hand := by
    rw [packetBytes,List.flatMap_assoc]
    rfl
  rw [ahead,took.front,took.consumed,took.later,took.queue,took.pending,packets]
  simp [packetBytes]

theorem channelsPerm (queue : List Request) (r : Request) : (bulkOf queue ++ r::controlOf queue).Perm (r::queue) :=
  List.perm_middle.trans ((List.perm_append_comm.trans (List.filter_append_perm Request.control queue)).cons r)

theorem refusePasses (known : Ids s) (tagged : Tagged s) (once : Once s) (here : s.pc = .select) {r : Request}
    {queue : List Request} (perm : s.queue.Perm (r::queue)) : Once (s.refuse r queue) := by
  intro id
  have before := once id
  have split := queueMoves id known tagged perm known.queued
  rw [queueBytes,queueBytes,List.flatMap_cons,ownAppend] at split
  rw [selectAhead here,queueBytes,split] at before
  have after : own id (ahead (s.refuse r queue)) = own id s.pending ++ own id (queueBytes queue) := by
    simp [ahead,State.refuse,State.failed,frontOf,laterOf,consumedOf,drainOf,packetBytes]
  show own id (content s) ++ own id (ahead (s.refuse r queue)) <+: own id (queueBytes s.sent)
  rw [after]
  obtain gone | whole := ownEither id known tagged (known.queued r (perm.symm.subset List.mem_cons_self))
  · rw [gone,List.nil_append] at before
    exact before
  · rw [whole,← List.append_assoc] at before
    obtain ⟨blank,later⟩ := wholeAlone before
    rw [← List.append_assoc,blank,queueBytes,later]
    exact List.nil_prefix

theorem controlOnce (known : Ids s) (tagged : Tagged s) (once : Once s) (here : s.pc = .select)
    (moved : s.controlStep draw = some t) : Once t := by
  obtain ⟨r,queue,found,outcome⟩ := controlTook moved
  have perm := takeControlPerm found
  have passes : ∀ id, own id (queueBytes (bulkOf queue)) ++ (own id (s.withSettings r).bytes ++
      own id (queueBytes (controlOf queue))) = own id (queueBytes s.queue) := by
    intro id
    rw [ownSettled,queueMoves id known tagged (perm.trans (channelsPerm queue r).symm) known.queued,queueBytes,
      queueBytes,queueBytes,
      List.flatMap_append,List.flatMap_cons,ownAppend,ownAppend]
  obtain rfl | took | took := outcome
  · exact refusePasses known tagged once here perm
  · intro id
    have before := once id
    rw [contentSame took.wire took.buffer,took.sent,tookAhead took]
    rw [selectAhead here,← passes id] at before
    simpa [queueBytes] using before
  · intro id
    have before := once id
    rw [contentSame took.wire took.buffer,took.sent,tookAhead took]
    rw [selectAhead here,← passes id] at before
    simpa [queueBytes] using before

theorem bulkOnce (known : Ids s) (tagged : Tagged s) (once : Once s) (here : s.pc = .select)
    (moved : s.bulkStep draw = some t) : Once t := by
  obtain ⟨-,r,queue,found,rfl | took⟩ := bulkTook moved
  · exact refusePasses known tagged once here (by rw [found])
  · intro id
    have before := once id
    rw [contentSame took.wire took.buffer,took.sent,tookAhead took]
    rw [selectAhead here] at before
    simpa [queueBytes] using before

theorem drainAhead (here : s.pc = .drain d ∨ s.pc = .window d) : own id (ahead s) =
    own id (s.pending.drop d.consumed) ++ own id (packetBytes d.packets) ++ own id (queueBytes s.queue) := by
  rcases here with here | here
  · simp [ahead,here,frontOf,laterOf,consumedOf,drainOf,packetBytes]
  · simp [ahead,here,frontOf,laterOf,consumedOf,drainOf,packetBytes]

theorem recordPasses (here : s.pc = .drain d) (moved : s.recordStep d draw .none = some t) :
    Passes s (.record draw .none) t := by
  intro id
  obtain ⟨-,pending,queues,-,pc,-⟩ := recorded moved
  have now : t.pc = .drain (s.afterRecord d (s.policyFor d draw).1) ∨
      t.pc = .window (s.afterRecord d (s.policyFor d draw).1) := by
    rw [pc]
    split
    · exact .inr rfl
    · exact .inl rfl
  rw [drainAhead now,drainAhead (.inl here),pending,queues.queue]
  simp only [added,here]
  have slice : own id ((s.pending.drop d.consumed).take (s.takeFor d (s.policyFor d draw).1)) ++
      own id (s.pending.drop (d.consumed + s.takeFor d (s.policyFor d draw).1)) = own id (s.pending.drop d.consumed) := by
    rw [← ownAppend,← List.drop_drop,List.take_append_drop]
  rw [← slice]
  simp only [List.append_assoc]
  rfl

theorem finishPasses (held : Held s x) (here : s.pc = .drain d) {made : Nat} (moved : s.finishStep d made = some t) :
    Passes s (.finish made) t := by
  intro id
  have staying := (held.sound d (by rw [here]; rfl)).staying
  rw [drainAhead (.inl here)]
  unfold finishStep at moved
  split at moved
  · contradiction
  · rename_i drained
    rw [if_neg (by rw [staying]; decide)] at moved
    cases Option.some.inj moved
    have none' : s.pending.drop d.consumed = [] := List.drop_eq_nil_of_le (by omega)
    have later : ∀ requests : List Request, frontOf (nextRequest requests) = [] ∧
        laterOf (nextRequest requests) = requests.flatMap (·.packets) := by
      intro requests
      cases requests <;> exact ⟨rfl,rfl⟩
    rw [none']
    simp only [ahead,later,prepared,List.drop_nil]
    simp [added,packetBytes,Drain.packets]

/- A request that passes the window goes before the backlog, which holds none of it. -/
theorem arriveOnce (known : Ids s) (tagged : Tagged s) (once : Once s) (here : s.pc = .window d)
    (moved : s.arriveStep d = some t) : Once t := by
  unfold arriveStep at moved
  split at moved
  · contradiction
  · split at moved
    · contradiction
    · rename_i r queue found
      have perm := takeControlPerm found
      have split := fun id => queueMoves id known tagged perm known.queued
      dsimp only at moved
      split at moved
      · cases Option.some.inj moved
        intro id
        have before := once id
        rw [drainAhead (.inr here),split id,queueBytes,List.flatMap_cons,ownAppend] at before
        show own id (content s) ++ own id (packetBytes (s.withSettings r).packets ++ s.pending.drop d.consumed ++
          packetBytes d.packets ++ queueBytes queue) <+: own id (queueBytes s.sent)
        have settled : own id (packetBytes (s.withSettings r).packets) = own id r.bytes := ownSettled id s r
        simp only [ownAppend,settled]
        obtain gone | whole := ownEither id known tagged (known.queued r (perm.symm.subset List.mem_cons_self))
        · rw [gone,List.nil_append] at before ⊢
          exact before
        · rw [whole,← List.append_assoc] at before
          obtain ⟨blank,later⟩ := wholeAlone before
          simp only [List.append_eq_nil_iff] at blank
          obtain ⟨out,backlog,waiting⟩ := blank
          have last : own id (queueBytes queue) = [] := later
          rw [out,backlog,waiting,whole,last]
          simp
      · cases Option.some.inj moved
        intro id
        have before := once id
        rw [drainAhead (.inr here),split id,queueBytes,List.flatMap_cons,ownAppend,← ownSettled id s r] at before
        have after : own id (packetBytes (Drain.packets {d with pinned := d.pinned ++ (s.withSettings r).sids
                                                                deferred := d.deferred ++ [s.withSettings r]})) =
            own id (packetBytes d.packets) ++ own id (s.withSettings r).bytes := by
          simp [Drain.packets,packetBytes,Request.bytes]
        rw [drainAhead (.inr rfl),after]
        show own id (content s) ++ (own id (s.pending.drop d.consumed) ++ (_ ++ _) ++ own id (queueBytes queue)) <+:
          own id (queueBytes s.sent)
        simpa [queueBytes] using before

theorem packetPasses (held : Held s x) {draws : List (Nat × Nat)} (moved : s.packetStep draws none = some t) :
    Passes s (.packet draws none) t := by
  intro id
  unfold packetStep at moved
  split at moved
  · rename_i d r p todo here
    obtain ⟨records,-,rfl⟩ := Option.map_eq_some_iff.mp moved
    simp [added,here,ahead,frontOf,laterOf,consumedOf,drainOf,packetBytes,prepared]
  · rename_i r p todo rest here
    have blank := held.idle (by rw [here]; rfl)
    obtain ⟨records,-,rfl⟩ := Option.map_eq_some_iff.mp moved
    simp [added,here,ahead,frontOf,laterOf,consumedOf,drainOf,packetBytes,prepared,blank]
  · contradiction

theorem flushPasses (moved : s.flushStep true = some t) : Passes s (.flush true) t := by
  intro id
  unfold flushStep at moved
  split at moved
  · rename_i d r here
    cases Option.some.inj moved
    simp [added,here,ahead,frontOf,laterOf,consumedOf,drainOf,packetBytes,flushed]
  · rename_i here
    have same : ∀ {u : State}, u.pc = .select → u.pending = s.pending → u.queue = s.queue →
        own id (ahead u) = own id (ahead s) := by
      intro u pc pending queue
      simp [ahead,here,pc,pending,queue,frontOf,laterOf,consumedOf,drainOf]
    split at moved
    · cases Option.some.inj moved
      exact same rfl rfl rfl
    · split at moved
      · cases Option.some.inj moved
        exact same rfl rfl rfl
      · cases Option.some.inj moved
        exact same rfl rfl rfl
  · rename_i here
    cases Option.some.inj moved
    simp [added,here,ahead,frontOf,laterOf,consumedOf,drainOf,flushed]
  · contradiction

theorem sendOnce (known : Ids s) (tagged : Tagged s) (once : Once s) {control auto : Bool} {packets : List (List Frame)}
    (moved : step s (.send control auto packets) = some t) : Once t := by
  simp only [step] at moved
  split at moved <;> try contradiction
  cases Option.some.inj moved
  intro id
  have before := once id
  show own id (content s) ++ own id (packetBytes (frontOf s.pc) ++ s.pending.drop (consumedOf s.pc) ++
    packetBytes (laterOf s.pc) ++ queueBytes (s.queue ++ [s.newRequest control auto packets])) <+:
    own id (queueBytes (s.sent ++ [s.newRequest control auto packets]))
  simp only [ahead,queueBytes,List.flatMap_append,ownAppend,List.flatMap_singleton,← List.append_assoc] at before ⊢
  have mine : own id (s.newRequest control auto packets).bytes =
      if s.sent.length = id then (s.newRequest control auto packets).bytes else [] :=
    ownRequest (newTagged s control auto packets)
  rw [mine]
  split
  · -- nothing was submitted under this number before
    rename_i fresh
    have none' : own id (s.sent.flatMap Request.bytes) = [] := by
      rw [ownFlat,List.flatMap_eq_nil_iff]
      intro r member
      rw [ownRequest (tagged r member),if_neg]
      intro same
      have listed : r.id ∈ s.sent.map (·.id) := List.mem_map.mpr ⟨r,member,rfl⟩
      rw [known.ids,List.mem_range,same] at listed
      omega
    rw [none'] at before ⊢
    rw [List.prefix_nil.mp before]
  · rw [List.append_nil,List.append_nil]
    exact before

theorem onceStep (held : Held s x) (marks : Marks s) (known : Ids s) (tagged : Tagged s) (once : Once s)
    (calm : faultless s a = true) (moved : step s a = some t) : Once t := by
  have out := (calmStep marks calm moved).1
  cases a with
  | send control auto packets => exact sendOnce known tagged once moved
  | close =>
    cases Option.some.inj moved
    exact once
  | hangUp =>
    cases Option.some.inj moved
    exact once
  | exit =>
    refine passesOnce once (sentOnly rfl moved) out ?_
    intro id
    simp only [step] at moved
    split at moved <;> try contradiction
    rename_i here
    cases Option.some.inj moved
    simp [added,ahead,here.1,frontOf,laterOf,consumedOf,drainOf]
  | control draw =>
    simp only [step] at moved
    split at moved <;> try contradiction
    exact controlOnce known tagged once ‹_› moved
  | bulk draw =>
    simp only [step] at moved
    split at moved <;> try contradiction
    exact bulkOnce known tagged once ‹_› moved
  | record draw fault =>
    have none' : fault = .none := by simpa [faultless] using calm
    subst none'
    refine passesOnce once (sentOnly rfl moved) out ?_
    simp only [step] at moved
    split at moved <;> try contradiction
    exact recordPasses ‹_› moved
  | finish made =>
    refine passesOnce once (sentOnly rfl moved) out ?_
    simp only [step] at moved
    split at moved <;> try contradiction
    exact finishPasses held ‹_› moved
  | arrive =>
    simp only [step] at moved
    split at moved <;> try contradiction
    exact arriveOnce known tagged once ‹_› moved
  | windowEnd =>
    refine passesOnce once (sentOnly rfl moved) out ?_
    intro id
    simp only [step] at moved
    split at moved <;> try contradiction
    rename_i d here
    cases Option.some.inj moved
    rw [drainAhead (.inr here),@drainAhead _ d id (.inl rfl)]
    exact List.nil_append _
  | packet draws fault =>
    have none' : fault = none := by simpa [faultless] using calm
    subst none'
    exact passesOnce once (sentOnly rfl moved) out (packetPasses held moved)
  | ready =>
    refine passesOnce once (sentOnly rfl moved) out ?_
    intro id
    simp only [step] at moved
    split at moved <;> try contradiction
    rename_i r rest here
    cases Option.some.inj moved
    cases rest <;> simp [added,ahead,here,nextRequest,frontOf,laterOf,consumedOf,drainOf,packetBytes]
  | flush ok =>
    have fine : ok = true := calm
    subst fine
    exact passesOnce once (sentOnly rfl moved) out (flushPasses moved)
  | leave draw =>
    refine passesOnce once (sentOnly rfl moved) out ?_
    intro id
    simp only [step] at moved
    split at moved <;> try contradiction
    rename_i here
    split at moved
    · cases Option.some.inj moved
      simp [added,ahead,here,frontOf,laterOf,consumedOf,drainOf]
    · cases Option.some.inj moved
      simp [added,ahead,here,startDrain,frontOf,laterOf,consumedOf,drainOf,Drain.packets,packetBytes]
  | goaway last ok =>
    refine passesOnce once (sentOnly rfl moved) out ?_
    intro id
    simp only [step] at moved
    split at moved <;> try contradiction
    rename_i here
    have same : ∀ {u : State}, u.pc = .done → u.pending = s.pending → u.queue = s.queue →
        own id (ahead u) = own id (ahead s) := by
      intro u pc pending queue
      simp [ahead,here,pc,pending,queue,frontOf,laterOf,consumedOf,drainOf]
    unfold goawayStep at moved
    split at moved
    · cases Option.some.inj moved
      exact same rfl rfl rfl
    · cases Option.some.inj moved
      cases ok <;> exact same rfl rfl rfl

end Once

section Run
variable {client off : Bool} {script : List ScriptRule} {stop : Nat} {s : State}

theorem marksStart (client off : Bool) (script : List ScriptRule) (stop : Nat) : Marks (start client off script stop) := by
  refine ⟨⟨?_,?_⟩,rfl,?_⟩
  · intro r member
    contradiction
  · intro p member
    contradiction
  · intro r member
    contradiction

theorem calmMarks (run : Run Faultless client off script stop s) : Marks s := by
  refine Machine.reachInvariant (marksStart client off script stop) ?_ run
  intro s a t marks calm moved
  exact ⟨stockStep marks.stock moved,(calmStep marks calm moved).2,taggedStep marks.tagged moved⟩

theorem ownKept (run : Run Faultless client off script stop s) {r : Request} (member : r ∈ s.sent) :
    own r.id (content s) <+: r.bytes := by
  have known : ∀ {s}, Run Faultless client off script stop s → Ids s := by
    intro s run
    exact (backedKept (Machine.reachWeaken (fun _ _ _ => trivial) run)).2.1
  have once : Once s := by
    refine Machine.reachInvariantFrom (J := fun s => (∃ x, Held s x) ∧ Marks s ∧ Ids s) ?_ ?_ ?_ run
    · intro s run
      obtain ⟨x,-,-,held,-,-⟩ := framesKept run
      exact ⟨⟨x,held⟩,calmMarks run,known run⟩
    · intro id
      exact List.nil_prefix
    · rintro s a t ⟨⟨x,held⟩,marks,known⟩ once calm moved
      exact onceStep held marks known marks.tagged once calm moved
  rw [← ownSent (known run) (calmMarks run).tagged member]
  exact (List.prefix_append _ _).trans (once r.id)

end Run

end KanoTls.Writer
