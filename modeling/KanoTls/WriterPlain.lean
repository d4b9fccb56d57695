import KanoTls.WriterAnswers
import Mathlib.Data.List.Perm.Subperm

/-! The plaintext of the records without the writer's own padding, and the writer without
its bookkeeping: what it has counted, buffered, flushed and answered decides when it
flushes, never which bytes come next. -/
namespace KanoTls.Writer
open Wire Shaper Uot State

/- A record of the writer's own: one CMD_PADDING frame that belongs to no request. Every
record is within the capacity. -/
def ownPadding (r : Record) : Bool :=
  selfSizedPadding (values r.payload) && r.payload.all (fun b => b.owner.isNone) &&
  decide (r.payload.length ≤ dataRecordCapacity)

def plaintext (records : List Record) : List Byte := records.flatMap (fun r => if ownPadding r then [] else r.payload)

def content (s : State) : List Byte := plaintext (s.wire ++ s.buffer)

/- Bytes of which no slice is taken for padding. The SETTINGS frame is the writer's own too,
and the low byte of its length is the command of a padding frame: what follows it there
would be the length of a frame that no record holds. -/
def marked : List Byte → Bool
  | [] => true
  | b::rest => (b.owner.isSome || b.value != cmdPadding || [118,61,50,59,102,99].isPrefixOf (values rest)) && marked rest

abbrev Marked (bytes : List Byte) : Prop := marked bytes = true

def Sliced (bytes : List Byte) : Prop := ∃ back, Marked (bytes ++ back)

section Plaintext

@[simp] theorem plaintextAppend (front back : List Record) : plaintext (front ++ back) = plaintext front ++ plaintext back :=
  List.flatMap_append

theorem markedAppend {front back : List Byte} (left : Marked front) (right : Marked back) : Marked (front ++ back) := by
  induction front with
  | nil => exact right
  | cons b rest ih =>
    simp only [Marked,marked,Bool.and_eq_true,Bool.or_eq_true,List.isPrefixOf_iff_prefix,List.cons_append,valuesAppend]
      at left ih ⊢
    refine ⟨?_,ih left.2⟩
    exact left.1.imp_right (fun front => front.trans (List.prefix_append _ _))

theorem markedOwned {bytes : List Byte} (owned : ∀ b ∈ bytes, b.owner.isSome = true) : Marked bytes := by
  induction bytes with
  | nil => rfl
  | cons b rest ih =>
    simp only [Marked,marked,Bool.and_eq_true,Bool.or_eq_true]
    exact ⟨.inl (.inl (owned b List.mem_cons_self)),ih (fun b member => owned b (List.mem_cons_of_mem _ member))⟩

theorem markedDrop {bytes : List Byte} (all : Marked bytes) (n : Nat) : Marked (bytes.drop n) := by
  induction n generalizing bytes with
  | zero => exact all
  | succ n ih =>
    cases bytes with
    | nil => rfl
    | cons b rest =>
      simp only [Marked,marked,Bool.and_eq_true] at all
      exact ih all.2

theorem slicedTake {bytes : List Byte} (all : Marked bytes) (n : Nat) : Sliced (bytes.take n) :=
  ⟨bytes.drop n,by rw [List.take_append_drop]; exact all⟩

/- A slice that begins like a padding frame of the writer's own is too long for a record. -/
theorem slicedOwn {r : Record} (sliced : Sliced r.payload) : ownPadding r = false := by
  rw [Bool.eq_false_iff]
  intro own
  obtain ⟨back,all⟩ := sliced
  simp only [ownPadding,Bool.and_eq_true,decide_eq_true_eq] at own
  obtain ⟨⟨padding,none'⟩,fits⟩ := own
  generalize r.payload = payload at *
  unfold selfSizedPadding at padding
  split at padding
  · rename_i cmd a b c d high low rest shape
    simp only [Bool.and_eq_true,beq_iff_eq,decide_eq_true_eq] at padding
    obtain ⟨⟨command,len⟩,-⟩ := padding
    have size : (values payload).length = rest.length + 7 := by rw [shape]; rfl
    rw [valuesLength] at size
    cases payload with
    | nil => contradiction
    | cons first others =>
      have head : first.value = cmd := by
        simp only [values,List.map_cons,List.cons.injEq] at shape
        exact shape.1
      have tail : values others = a::b::c::d::high::low::rest := by
        simp only [values,List.map_cons,List.cons.injEq] at shape
        exact shape.2
      have owner : first.owner.isSome = false := by
        have none' := List.all_eq_true.mp none' first List.mem_cons_self
        simpa using none'
      simp only [Marked,List.cons_append,marked,Bool.and_eq_true,Bool.or_eq_true,owner,head,command,
        List.isPrefixOf_iff_prefix,valuesAppend,tail] at all
      obtain ⟨⟨absent | wrong⟩ | next,-⟩ := all
      · contradiction
      · simp at wrong
      · simp only [List.cons_prefix_cons] at next
        obtain ⟨-,-,-,-,rfl,rfl,-⟩ := next
        have long : fromBeBytes 102 99 = 26211 := by decide
        have capacity : dataRecordCapacity = 16382 := by decide
        omega
  · contradiction

theorem slicedPlain {records : List Record} (sliced : ∀ r ∈ records, Sliced r.payload) :
    plaintext records = records.flatMap (·.payload) := by
  induction records with
  | nil => rfl
  | cons r rest ih =>
    have first := slicedOwn (sliced r List.mem_cons_self)
    have later := ih (fun r member => sliced r (List.mem_cons_of_mem _ member))
    simp only [plaintext,List.flatMap_cons,first,Bool.false_eq_true,if_false] at later ⊢
    rw [later]

theorem paddingPlain (f : Frame) (cmd : f.cmd = cmdPadding) (long : paddingHeaderLen ≤ f.payload.length)
    (fits : f.encodedLen ≤ dataRecordCapacity) :
    plaintext [paddingRecord f] = [] := by
  have own : ownPadding (paddingRecord f) = true := by
    simp only [ownPadding,Bool.and_eq_true,decide_eq_true_eq]
    refine ⟨⟨?_,?_⟩,?_⟩
    · rw [paddingPayload]
      obtain ⟨a,b,c,d,high,low,shape,-,len⟩ := encodeShape f []
      rw [encodeAllCons,encodeAllNil,shape,selfSizedPadding]
      simp [cmd,len,long]
    · simp [paddingRecord,record,Packet.bytes]
    · have size : (paddingRecord f).payload.length = f.encodedLen := by
        rw [← encodeLength,← valuesLength,paddingPayload]
        simp
      omega
  simp [plaintext,own]

theorem paddingsPlain (responses : List Nat) :
    plaintext (responses.map (fun m => paddingRecord (paddingRequest m))) = [] := by
  induction responses with
  | nil => rfl
  | cons m rest ih =>
    rw [List.map_cons,← List.singleton_append,plaintextAppend,ih,paddingPlain]
    · rfl
    · rfl
    · simp [paddingRequest,paddingHeaderLen]
    · have len : (paddingRequest m).encodedLen = 17 := by simp [Frame.encodedLen,paddingRequest,frameHeaderSize]; decide
      rw [len]
      decide

theorem cutsSliced {draws : List (Nat × Nat)} {packet : List Byte} {records : List Record}
    (cut : controlCuts draws packet = some records) (all : Marked packet) : ∀ r ∈ records, Sliced r.payload := by
  induction draws generalizing packet records with
  | nil => simp [controlCuts] at cut
  | cons draw draws ih =>
    obtain ⟨controlTarget,chunk⟩ := draw
    simp only [controlCuts] at cut
    generalize (if packet.length ≤ controlTarget - controlRecordMinOverhead then (controlTarget,packet.length)
      else if packet.length ≥ dataRecordCapacity then (maxDataRecordWireLen,dataRecordCapacity)
      else (dataRecordWireLen chunk,min packet.length chunk)) = choice at cut
    obtain ⟨target,take⟩ := choice
    dsimp only at cut
    split at cut
    · cases Option.some.inj cut
      intro r member
      rw [List.mem_singleton.mp member]
      exact slicedTake all take
    · obtain ⟨later,more,rfl⟩ := Option.map_eq_some_iff.mp cut
      intro r member
      obtain rfl | member := List.mem_cons.mp member
      · exact slicedTake all take
      · exact ih more (markedDrop all take) r member

theorem controlSliced {draws : List (Nat × Nat)} {packet : List Byte} {records : List Record}
    (made : controlRecords draws packet = some records) (all : Marked packet) : ∀ r ∈ records, Sliced r.payload := by
  obtain ⟨found,cut,fits⟩ := Option.bind_eq_some_iff.mp made
  split at fits <;> try contradiction
  cases Option.some.inj fits
  split at cut
  · cases Option.some.inj cut
    intro r member
    rw [List.mem_singleton.mp member]
    exact ⟨[],by rw [List.append_nil]; exact all⟩
  · exact cutsSliced cut all

theorem controlPlain {draws : List (Nat × Nat)} {packet : List Byte} {records : List Record}
    (made : controlRecords draws packet = some records) (all : Marked packet) : plaintext records = packet :=
  (slicedPlain (controlSliced made all)).trans (controlPayload made)

end Plaintext

def plain (s : State) : State := {s with responders := [],batch := [],records := 0,buffer := [],wire := [],answers := []}

def clean (s : State) : Action → Action
  | .record draw _ => .record draw .none
  | .finish _ => .finish (((drainOf s.pc).map (·.fakes.length)).getD 0)
  | .packet draws _ => .packet draws none
  | .flush _ => .flush true
  | .goaway last _ => .goaway last true
  | a => a

def added (s : State) : Action → List Byte
  | .record draw _ =>
    match s.pc with
    | .drain d => (s.pending.drop d.consumed).take (s.takeFor d (s.policyFor d draw).1)
    | _ => []
  | .packet _ _ =>
    match s.pc with
    | .through _ _ (p::_) | .prepare _ (p::_) _ => p.bytes
    | _ => []
  | _ => []

section Plain
variable {s u t : State} {a : Action} {d : Drain} {draw : Draw}

theorem cleanFaultless (s : State) (a : Action) : faultless s (clean s a) = true := by
  cases a <;> try rfl
  unfold clean faultless
  cases drainOf s.pc with
  | none => rfl
  | some d => simp

theorem samePlain (same : plain s = plain u) : s.pending = u.pending ∧ s.pc = u.pc ∧ s.queue = u.queue ∧
    s.shaper = u.shaper ∧ s.sent = u.sent ∧ s.hungUp = u.hungUp := by
  simp only [plain,State.mk.injEq] at same
  tauto

theorem addedSame (same : plain s = plain u) (a : Action) : added s a = added u a := by
  obtain ⟨pending,pc,-,shaper,-,-⟩ := samePlain same
  have take : ∀ d policy, s.takeFor d policy = u.takeFor d policy := by
    intro d policy
    unfold takeFor
    rw [pending]
  have policy : ∀ d draw, (s.policyFor d draw).1 = (u.policyFor d draw).1 := by
    intro d draw
    unfold policyFor
    rw [pending,shaper]
  unfold added
  simp only [pc,pending,take,policy]

theorem plainQueue (s : State) (r : Request) : plain (s.queueBulkRequest r) =
    {plain s with pending := s.pending ++ r.bytes} := by
  unfold queueBulkRequest
  split <;> rfl

theorem plainQueues (requests : List Request) (s : State) : plain (requests.foldl queueBulkRequest s) =
    {plain s with pending := s.pending ++ requests.flatMap Request.bytes} := by
  induction requests generalizing s with
  | nil => simp [plain]
  | cons r rest ih =>
    have pending : (s.queueBulkRequest r).pending = s.pending ++ r.bytes := (queuedOne s r).pending.trans (by simp)
    rw [List.foldl_cons,ih,plainQueue,pending,List.flatMap_cons,List.append_assoc]

theorem plainDrained (s : State) : plain s.drainBulk =
    {plain s with pending := s.pending ++ (bulkOf s.queue).flatMap Request.bytes,queue := controlOf s.queue} := by
  have all := plainQueues (bulkOf s.queue) s
  unfold drainBulk
  simp only [plain,State.mk.injEq] at all ⊢
  tauto

theorem plainStart (s : State) (pinned : List Nat) (current : Option Request) (exiting : Bool) (draw : Draw) :
    plain (s.startDrain pinned current exiting draw) = (plain s).startDrain pinned current exiting draw := rfl

theorem startSame (same : plain s = plain u) (pinned : List Nat) (current : Option Request) (exiting : Bool) (draw : Draw) :
    plain (s.startDrain pinned current exiting draw) = plain (u.startDrain pinned current exiting draw) := by
  rw [plainStart,plainStart,same]

theorem mergeSame (same : plain s = plain u) (pc : Pc) : plain {s with pc := pc} = plain {u with pc := pc} := by
  simp only [plain,State.mk.injEq] at same ⊢
  tauto

theorem takenSame (same : plain s = plain u) (r : Request) (draw : Draw) :
    Option.map plain (if r.carriesStreamData then some ((s.queueBulkRequest r).startDrain r.sids none false draw)
      else if s.pending.isEmpty then some {s with pc := nextRequest [r]}
      else some (s.startDrain r.sids (some r) false draw)) =
    Option.map plain (if r.carriesStreamData then some ((u.queueBulkRequest r).startDrain r.sids none false draw)
      else if u.pending.isEmpty then some {u with pc := nextRequest [r]}
      else some (u.startDrain r.sids (some r) false draw)) := by
  have pending := (samePlain same).1
  have empty : s.pending.isEmpty = u.pending.isEmpty := by rw [pending]
  split
  · refine congrArg some (startSame ?_ _ _ _ _)
    rw [plainQueue,plainQueue,same,pending]
  · rw [empty]
    split
    · exact congrArg some (mergeSame same _)
    · exact congrArg some (startSame same _ _ _ _)

theorem plainControl (s : State) (draw : Draw) :
    (s.controlStep draw).map plain = ((plain s).controlStep draw).map plain := by
  have queue : (plain s).queue = s.queue := rfl
  unfold controlStep
  rw [queue]
  cases takeControl s.queue with
  | none => rfl
  | some found =>
    obtain ⟨r,rest⟩ := found
    have closed : (plain s).closeRequested = s.closeRequested := rfl
    have drained : plain (State.drainBulk {s with queue := rest,settings := false}) =
        plain (State.drainBulk {plain s with queue := rest,settings := false}) := by
      rw [plainDrained,plainDrained]
      rfl
    dsimp only
    rw [closed]
    split
    · rfl
    · exact takenSame drained (s.withSettings r) draw

theorem plainBulk (s : State) (draw : Draw) : (s.bulkStep draw).map plain = ((plain s).bulkStep draw).map plain := by
  have queue : (plain s).queue = s.queue := rfl
  have closed : (plain s).closeRequested = s.closeRequested := rfl
  have drained : plain s.drainBulk = plain (plain s).drainBulk := by
    rw [plainDrained,plainDrained]
    rfl
  have empty : s.drainBulk.pending.isEmpty = (plain s).drainBulk.pending.isEmpty := by rw [(samePlain drained).1]
  unfold bulkStep
  rw [queue,closed]
  split
  · split
    · rfl
    · split
      · rfl
      · dsimp only
        rw [empty]
        split
        · exact congrArg some (mergeSame drained _)
        · exact congrArg some (startSame drained _ _ _ _)
  · rfl

theorem plainRecorded (left : d.consumed < s.pending.length) : (s.recordStep d draw .none).map plain =
    some {plain s with
      shaper := (s.policyFor d draw).2.advance
      pc := if (s.policyFor d draw).1.delay then .window (s.afterRecord d (s.policyFor d draw).1)
        else .drain (s.afterRecord d (s.policyFor d draw).1)} := by
  unfold recordStep
  rw [if_neg (Nat.not_le_of_lt left)]
  dsimp only
  simp only [reduceCtorEq,false_and,if_false]
  split <;> rfl

theorem plainRecord (s : State) (d : Drain) (draw : Draw) :
    (s.recordStep d draw .none).map plain = ((plain s).recordStep d draw .none).map plain := by
  by_cases left : d.consumed < s.pending.length
  · rw [plainRecorded left,@plainRecorded (plain s) d draw left]
    rfl
  · unfold recordStep
    rw [if_pos (Nat.le_of_not_lt left),if_pos (show d.consumed ≥ (plain s).pending.length from Nat.le_of_not_lt left)]

theorem plainFinish (s : State) (d : Drain) (made : Nat) :
    (s.finishStep d made).map plain = ((plain s).finishStep d made).map plain := by
  unfold finishStep
  show Option.map plain (if d.consumed < s.pending.length then none else _) =
    Option.map plain (if d.consumed < s.pending.length then none else _)
  split
  · rfl
  · split <;> rfl

theorem plainArrive (s : State) (d : Drain) : (s.arriveStep d).map plain = ((plain s).arriveStep d).map plain := by
  have queue : (plain s).queue = s.queue := rfl
  unfold arriveStep
  rw [queue]
  split
  · rfl
  · cases takeControl s.queue with
    | none => rfl
    | some found =>
      obtain ⟨r,rest⟩ := found
      have settled : (plain s).withSettings r = s.withSettings r := rfl
      dsimp only
      rw [settled]
      split <;> rfl

theorem plainPacket (s : State) (draws : List (Nat × Nat)) :
    (s.packetStep draws none).map plain = ((plain s).packetStep draws none).map plain := by
  have pc : (plain s).pc = s.pc := rfl
  unfold packetStep
  rw [pc]
  split
  · rename_i p todo _
    cases controlRecords draws p.bytes <;> rfl
  · rename_i p todo rest _
    cases controlRecords draws p.bytes <;> rfl
  · rfl

theorem plainFlush (s : State) : (s.flushStep true).map plain = ((plain s).flushStep true).map plain := by
  have pc : (plain s).pc = s.pc := rfl
  unfold flushStep
  rw [pc]
  split
  · rfl
  · have idle : (plain s).records = 0 ∧ (plain s).batch = [] := ⟨rfl,rfl⟩
    rw [if_pos idle]
    split
    · rfl
    · split <;> rfl
  · rfl
  · rfl

theorem plainGoaway (s : State) (last : Nat) :
    (s.goawayStep last true).map plain = ((plain s).goawayStep last true).map plain := by
  unfold goawayStep
  show Option.map plain (if s.shaper.postScriptOff = true then _ else _) =
    Option.map plain (if s.shaper.postScriptOff = true then _ else _)
  split <;> rfl

theorem plainStep (s : State) (a : Action) (calm : faultless s a = true) :
    (step s a).map plain = (step (plain s) a).map plain := by
  have pc : (plain s).pc = s.pc := rfl
  cases a with
  | send control auto packets =>
    unfold step
    show Option.map plain (if s.hungUp || s.pc = .done then none else _) =
      Option.map plain (if s.hungUp || s.pc = .done then none else _)
    split <;> rfl
  | close => rfl
  | hangUp => rfl
  | exit =>
    unfold step
    show Option.map plain (if s.pc = .select ∧ (s.closeRequested = true ∨ s.hungUp = true ∧ controlOf s.queue = []) then _
      else none) = Option.map plain (if s.pc = .select ∧ (s.closeRequested = true ∨ s.hungUp = true ∧
        controlOf s.queue = []) then _ else none)
    split <;> rfl
  | control draw =>
    simp only [step,pc]
    split
    · exact plainControl s draw
    · rfl
  | bulk draw =>
    simp only [step,pc]
    split
    · exact plainBulk s draw
    · rfl
  | record draw fault =>
    have none' : fault = .none := by simpa [faultless] using calm
    subst none'
    simp only [step,pc]
    split
    · exact plainRecord s _ draw
    · rfl
  | finish made =>
    simp only [step,pc]
    split
    · exact plainFinish s _ made
    · rfl
  | arrive =>
    simp only [step,pc]
    split
    · exact plainArrive s _
    · rfl
  | windowEnd =>
    simp only [step,pc]
    split <;> rfl
  | packet draws fault =>
    have none' : fault = none := by simpa [faultless] using calm
    subst none'
    exact plainPacket s draws
  | ready =>
    simp only [step,pc]
    split <;> rfl
  | flush ok =>
    have fine : ok = true := calm
    subst fine
    exact plainFlush s
  | leave draw =>
    simp only [step,pc]
    split
    · show Option.map plain (if s.pending.isEmpty then _ else _) = Option.map plain (if s.pending.isEmpty then _ else _)
      split <;> rfl
    · rfl
  | goaway last ok =>
    have fine : ok = true := calm
    subst fine
    simp only [step,pc]
    split
    · exact plainGoaway s last
    · rfl

theorem sameStep (same : plain s = plain u) (calm : faultless s a = true) (moved : step s a = some t) :
    ∃ v, step u a = some v ∧ plain v = plain t := by
  have calm' : faultless u a = true := by
    have pc : s.pc = u.pc := (samePlain same).2.1
    cases a <;> first | exact calm | (unfold faultless at calm ⊢; rw [← pc]; exact calm)
  have both : (step u a).map plain = some (plain t) := by
    rw [plainStep u a calm',← same,← plainStep s a calm,moved]
    rfl
  obtain ⟨v,stepped,equal⟩ := Option.map_eq_some_iff.mp both
  exact ⟨v,stepped,equal⟩

end Plain

end KanoTls.Writer
