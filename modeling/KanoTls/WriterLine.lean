import KanoTls.Writer

/-! The writer's bytes as frames. `Held` splits what has been emitted and the backlog
into frames: `log` is wholly on its way, `front` is the part of the backlog inside it,
`rest` the part that is not, of which some bytes may be out already. `Turn` lists what
a step does to the frames; the byte positions are gone from it. -/
namespace KanoTls.Writer
open Wire Shaper Uot State

def emitted (s : State) : Bytes := values ((s.wire ++ s.buffer).flatMap (·.payload))

def drainOf : Pc → Option Drain
  | .drain d | .window d | .through d _ _ => some d
  | _ => none

def Pc.live : Pc → Bool
  | .leaving | .closing | .goaway | .done => false
  | _ => true

def consumedOf (pc : Pc) : Nat := ((drainOf pc).map (·.consumed)).getD 0

def Request.frames (r : Request) : List Frame := r.packets.flatMap (·.frames)

/- The frames that will follow: of the request that passes a delay window, and of those
that wait for the end of the drain. -/
def handOf : Pc → List Frame
  | .through _ _ todo => todo.flatMap (·.frames)
  | _ => []

def Drain.waiting (d : Drain) : List Frame := (d.current.toList ++ d.deferred).flatMap Request.frames

def afterOf : Pc → List Frame
  | .prepare _ todo rest => todo.flatMap (·.frames) ++ rest.flatMap Request.frames
  | pc => ((drainOf pc).map Drain.waiting).getD []

section Bytes

@[simp] theorem valuesNil : values [] = [] := rfl
@[simp] theorem valuesAppend (front back : List Byte) : values (front ++ back) = values front ++ values back :=
  List.map_append
@[simp] theorem valuesLength (bytes : List Byte) : (values bytes).length = bytes.length := List.length_map _
theorem valuesTake (bytes : List Byte) (n : Nat) : values (bytes.take n) = (values bytes).take n := List.map_take
theorem valuesDrop (bytes : List Byte) (n : Nat) : values (bytes.drop n) = (values bytes).drop n := List.map_drop

@[simp] theorem packetValues (p : Packet) : values p.bytes = encodeAll p.frames := by
  rw [values,Packet.bytes,List.map_map]
  exact List.map_id _

theorem packetsValues (packets : List Packet) :
    values (packets.flatMap Packet.bytes) = encodeAll (packets.flatMap (·.frames)) := by
  induction packets with
  | nil => rfl
  | cons p rest ih => rw [List.flatMap_cons,List.flatMap_cons,valuesAppend,encodeAllAppend,packetValues,ih]

theorem requestValues (r : Request) : values r.bytes = encodeAll r.frames := packetsValues r.packets

theorem requestsValues (requests : List Request) :
    values (requests.flatMap Request.bytes) = encodeAll (requests.flatMap Request.frames) := by
  induction requests with
  | nil => rfl
  | cons r rest ih => rw [List.flatMap_cons,List.flatMap_cons,valuesAppend,encodeAllAppend,requestValues,ih]

theorem requestHeaders (r : Request) : r.headers = r.frames.map Frame.header := by
  unfold Request.headers Request.frames
  induction r.packets with
  | nil => rfl
  | cons p rest ih => rw [List.flatMap_cons,List.flatMap_cons,List.map_append,packetValues,walkEncoded,ih]

theorem requestSids (r : Request) : r.sids = r.frames.map (·.sid) := by
  rw [Request.sids,requestHeaders,List.map_map]
  rfl

theorem encodePositive (f : Frame) : 0 < f.encode.length := by
  rw [encodeLength,Frame.encodedLen,frameHeaderSize]
  omega

theorem encodeEmpty {frames : List Frame} (none : (encodeAll frames).length = 0) : frames = [] := by
  have few := framesFit frames
  exact List.length_eq_zero_iff.mp (by omega)

theorem payloadsAppend (front back : List Record) :
    (front ++ back).flatMap (·.payload) = front.flatMap (·.payload) ++ back.flatMap (·.payload) :=
  List.flatMap_append

theorem cutsPayload {draws : List (Nat × Nat)} {packet : List Byte} {records : List Record}
    (cut : controlCuts draws packet = some records) : records.flatMap (·.payload) = packet := by
  induction draws generalizing packet records with
  | nil => simp [controlCuts] at cut
  | cons draw draws ih =>
    obtain ⟨controlTarget,chunk⟩ := draw
    simp only [controlCuts] at cut
    generalize (if packet.length ≤ controlTarget - controlRecordMinOverhead then (controlTarget,packet.length)
      else if packet.length ≥ dataRecordCapacity then (maxDataRecordWireLen,dataRecordCapacity)
      else (dataRecordWireLen chunk,min packet.length chunk)) = choice at cut
    obtain ⟨target,take⟩ := choice
    dsimp only at cut
    split at cut
    · rename_i whole
      cases Option.some.inj cut
      simp [record,List.take_of_length_le whole]
    · obtain ⟨later,more,rfl⟩ := Option.map_eq_some_iff.mp cut
      rw [List.flatMap_cons,ih more]
      exact List.take_append_drop _ _

theorem controlPayload {draws : List (Nat × Nat)} {packet : List Byte} {records : List Record}
    (made : controlRecords draws packet = some records) : records.flatMap (·.payload) = packet := by
  obtain ⟨all,cut,fits⟩ := Option.bind_eq_some_iff.mp made
  split at fits <;> try contradiction
  cases Option.some.inj fits
  split at cut
  · cases Option.some.inj cut
    simp [record]
  · exact cutsPayload cut

theorem paddingPayload (f : Frame) : values (paddingRecord f).payload = encodeAll [f] := by
  simp [paddingRecord,record]

theorem paddingsPayload (frames : List Frame) :
    values ((frames.map paddingRecord).flatMap (·.payload)) = encodeAll frames := by
  induction frames with
  | nil => rfl
  | cons f rest ih =>
    rw [List.map_cons,List.flatMap_cons,valuesAppend,ih,paddingPayload,← encodeAllAppend]
    rfl

end Bytes

def Ends (frames : List Frame) (positions : List Nat) : Prop :=
  ∀ n ∈ positions, 0 < n ∧ ∃ k, n = (encodeAll (frames.take k)).length

theorem offsetsEnd (before frames : List Frame) :
    Ends (before ++ frames) (offsets (encodeAll before).length (frames.map Frame.header)) := by
  induction frames generalizing before with
  | nil =>
    intro n member
    simp [offsets] at member
  | cons f rest ih =>
    have here : (encodeAll before).length + f.header.2.2 = (encodeAll (before ++ [f])).length := by
      rw [encodeAllAppend,List.length_append,encodeAllCons,encodeAllNil,List.append_nil,encodeLength]
      rfl
    intro n member
    rw [List.map_cons,offsets,here] at member
    rcases List.mem_cons.mp member with rfl | later
    · refine ⟨?_,before.length + 1,?_⟩
      · rw [encodeAllAppend,List.length_append,encodeAllCons,List.length_append]
        have := encodePositive f
        omega
      · rw [List.take_append,List.take_of_length_le (Nat.le_succ _)]
        simp
    · have again := ih (before ++ [f]) n later
      rwa [List.append_assoc] at again

structure Sound (s : State) (d : Drain) (frames : List Frame) : Prop where
  boundaries : Ends frames d.boundaries
  fresh : d.first.isSome = true → d.consumed = 0
  seq : s.shaper.packetSeq = 0 → d.consumed = 0
  full : ∀ p, d.first = some p → p.allowFullBlock = d.sticky ∧ (p.allowFullBlock = true → p.delay = false)
  wide : ∀ p, d.first = some p → minDataWireLen < p.targetWireLen
  staying : d.exiting = false

structure Split where
  log : List Frame := []
  front : List Frame := []
  rest : List Frame := []

structure Held (s : State) (x : Split) : Prop where
  pending : values s.pending = encodeAll (x.front ++ x.rest)
  low : (encodeAll x.front).length ≤ consumedOf s.pc
  high : consumedOf s.pc ≤ s.pending.length
  out : emitted s = encodeAll x.log ++ (encodeAll x.rest).take (consumedOf s.pc - (encodeAll x.front).length)
  idle : drainOf s.pc = none → s.pending = []
  sound : ∀ d, drainOf s.pc = some d → Sound s d (x.front ++ x.rest)
  delayed : ∀ d, s.pc = .window d ∨ (∃ r todo, s.pc = .through d r todo) → d.sticky = false
  through : ∀ d r todo, s.pc = .through d r todo → emitted s = encodeAll x.log

section Held
variable {s t : State} {x : Split}

theorem Held.whole (held : Held s x) (idle : drainOf s.pc = none) :
    x.front = [] ∧ x.rest = [] ∧ emitted s = encodeAll x.log := by
  have none := held.pending
  rw [held.idle idle,valuesNil] at none
  have both := encodeEmpty (show (encodeAll (x.front ++ x.rest)).length = 0 by rw [← none]; rfl)
  obtain ⟨noFront,noRest⟩ := List.append_eq_nil_iff.mp both
  refine ⟨noFront,noRest,?_⟩
  rw [held.out,noRest]
  simp

theorem splitAt (front rest : List Frame) (k : Nat)
    (low : (encodeAll front).length ≤ (encodeAll ((front ++ rest).take k)).length) :
    ∃ gone left, rest = gone ++ left ∧
      (encodeAll ((front ++ rest).take k)).length = (encodeAll (front ++ gone)).length := by
  by_cases inside : front.length ≤ k
  · refine ⟨rest.take (k - front.length),rest.drop (k - front.length),(List.take_append_drop _ _).symm,?_⟩
    rw [List.take_append,List.take_of_length_le inside]
  · -- a shorter cut would be strictly before the end of `front`
    have short : k < front.length := by omega
    have cut : (front ++ rest).take k = front.take k := by
      rw [List.take_append,Nat.sub_eq_zero_of_le (by omega),List.take_zero,List.append_nil]
    rw [cut] at low
    have parts : encodeAll front = encodeAll (front.take k) ++ encodeAll (front.drop k) := by
      rw [← encodeAllAppend,List.take_append_drop]
    have none : (encodeAll (front.drop k)).length = 0 := by
      rw [parts,List.length_append] at low
      omega
    have dropped := encodeEmpty none
    rw [List.drop_eq_nil_iff] at dropped
    omega

theorem Held.atBoundary (held : Held s x) {d : Drain} (draining : drainOf s.pc = some d)
    (boundary : d.atBoundary = true) : ∃ gone left, x.rest = gone ++ left ∧
      Held s ⟨x.log ++ gone,x.front ++ gone,left⟩ ∧ emitted s = encodeAll (x.log ++ gone) ∧
      (0 < d.consumed → x.front = [] → gone ≠ []) := by
  have consumed : consumedOf s.pc = d.consumed := by rw [consumedOf,draining]; rfl
  have low := held.low
  rw [consumed] at low
  have found : ∃ k, d.consumed = (encodeAll ((x.front ++ x.rest).take k)).length := by
    unfold Drain.atBoundary at boundary
    rw [Bool.or_eq_true] at boundary
    rcases boundary with zero | listed
    · exact ⟨0,by simpa using zero⟩
    · exact ((held.sound d draining).boundaries _ (List.contains_iff_mem.mp listed)).2
  obtain ⟨k,at'⟩ := found
  obtain ⟨gone,left,split,len⟩ := splitAt x.front x.rest k (at' ▸ low)
  have position : d.consumed = (encodeAll (x.front ++ gone)).length := at'.trans len
  have out : emitted s = encodeAll (x.log ++ gone) := by
    rw [held.out,consumed,position,encodeAllAppend,List.length_append,Nat.add_sub_cancel_left,split,
      encodeAllAppend,encodeAllAppend,List.take_left]
  refine ⟨gone,left,split,⟨?_,?_,held.high,?_,held.idle,?_,held.delayed,fun _ _ _ _ => out⟩,out,?_⟩
  · rw [held.pending,split,List.append_assoc]
  · rw [consumed,position]
  · rw [out,consumed,position,Nat.sub_self,List.take_zero,List.append_nil]
  · intro d' draining'
    rw [List.append_assoc,← split]
    exact held.sound d' draining'
  · intro positive blank none
    rw [position,blank,none] at positive
    simp at positive

end Held

end KanoTls.Writer
