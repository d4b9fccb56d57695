import KanoTls.Writer
import KanoTls.Record
import KanoTls.Patch

/-! The self-sized CMD_PADDING frames of `frame.rs`: a packet whose own length says how long
its record is to be, with a value of the protocol in front of the junk. -/
namespace KanoTls.Padding
open Wire Uot Shaper Writer Patch

def paddingFlagRequest : UInt8 := 0
def paddingFlagReply : UInt8 := 1
def paddingFlagGoaway : UInt8 := 2
def paddingFlagWindowUpdate : UInt8 := 3
def goawayLastStreamIdLen : Nat := 4
def windowUpdateIncrementLen : Nat := 4
def minGoawayRecordWireLen : Nat := minPaddingRecordWireLen + goawayLastStreamIdLen

def paddingJunkLenForWire (targetWireLen : Nat) : Nat := targetWireLen - minPaddingRecordWireLen

def encodePaddingFrameSized (flag m : UInt8) (targetWireLen : Nat) : Bytes :=
  let payloadLen := paddingHeaderLen + paddingJunkLenForWire targetWireLen
  let dst := List.replicate (frameHeaderSize + payloadLen) (0 : UInt8)
  let dst := put dst 0 [cmdPadding]
  let dst := put dst 1 (sidBytes 0)
  let dst := put dst 5 (toBeBytes payloadLen)
  let dst := put dst 7 [flag]
  put dst 8 [m]

def encodePaddingRequestSized (m : UInt8) (targetWireLen : Nat) : Bytes :=
  encodePaddingFrameSized paddingFlagRequest m targetWireLen
def encodePaddingReplySized (targetWireLen : Nat) : Bytes := encodePaddingFrameSized paddingFlagReply 0 targetWireLen

/- `get_mut` on the `len` bytes behind flag and m: a packet without room for them stays. -/
def putValue (len : Nat) (dst : Bytes) (value : UInt32) : Bytes :=
  let start := frameHeaderSize + paddingHeaderLen
  if start + len ≤ dst.length then put dst start (sidBytes value.toNat) else dst

def encodePaddingGoawaySized (lastStreamId : UInt32) (targetWireLen : Nat) : Bytes :=
  putValue goawayLastStreamIdLen (encodePaddingFrameSized paddingFlagGoaway 0 targetWireLen) lastStreamId

def encodePaddingWindowUpdateSized (streamId increment : UInt32) (targetWireLen : Nat) : Bytes :=
  let dst := encodePaddingFrameSized paddingFlagWindowUpdate 0 targetWireLen
  putValue windowUpdateIncrementLen (put dst 1 (sidBytes streamId.toNat)) increment

def decodePaddingValue (flag : UInt8) (payload : Bytes) : Option Nat :=
  if payload.head? = some flag then
    match payload.drop paddingHeaderLen with
    | a::b::c::d::_ => some (sidOf a b c d)
    | _ => none
  else none

def decodePaddingGoaway : Bytes → Option Nat := decodePaddingValue paddingFlagGoaway
def decodePaddingWindowUpdate : Bytes → Option Nat := decodePaddingValue paddingFlagWindowUpdate

def selfSizedPaddingWireLen (packet : Bytes) : Option Nat :=
  if packet.length < frameHeaderSize ∨ packet.head? ≠ some cmdPadding then none
  else
    let payloadLen := fromBeBytes (packet.getD 5 0) (packet.getD 6 0)
    if frameHeaderSize + payloadLen ≠ packet.length ∨ payloadLen < paddingHeaderLen then none
    else some (packet.length + controlRecordMinOverhead)

inductive Role where
  | request (m : UInt8)
  | reply
  | goaway (lastStreamId : UInt32)
  | windowUpdate (streamId increment : UInt32)
  deriving DecidableEq, Repr

namespace Role

def encodeSized : Role → Nat → Bytes
  | request m => encodePaddingRequestSized m
  | reply => encodePaddingReplySized
  | goaway lastStreamId => encodePaddingGoawaySized lastStreamId
  | windowUpdate streamId increment => encodePaddingWindowUpdateSized streamId increment

def least : Role → Nat
  | request _ | reply => minPaddingRecordWireLen
  | goaway _ | windowUpdate .. => minGoawayRecordWireLen

def streamId : Role → Nat
  | windowUpdate streamId _ => streamId.toNat
  | _ => 0

def flag : Role → UInt8
  | request _ => paddingFlagRequest
  | reply => paddingFlagReply
  | goaway _ => paddingFlagGoaway
  | windowUpdate .. => paddingFlagWindowUpdate

def m : Role → UInt8
  | request m => m
  | _ => 0

def value : Role → Bytes
  | request _ | reply => []
  | goaway lastStreamId => sidBytes lastStreamId.toNat
  | windowUpdate _ increment => sidBytes increment.toNat

end Role

section Layout
variable {target : Nat}

theorem frameSized (flag m : UInt8) (target : Nat) : encodePaddingFrameSized flag m target =
    cmdPadding::(sidBytes 0 ++ toBeBytes (2 + paddingJunkLenForWire target) ++
      (flag::m::List.replicate (paddingJunkLenForWire target) 0)) := by
  unfold encodePaddingFrameSized
  simp only [frameHeaderSize,paddingHeaderLen]
  have zeros : List.replicate (7 + (2 + paddingJunkLenForWire target)) (0 : UInt8) =
      [0,0,0,0,0,0,0,0,0] ++ List.replicate (paddingJunkLenForWire target) 0 := by
    rw [← Nat.add_assoc,List.replicate_add]
    rfl
  rw [zeros]
  rfl

theorem valuePut (sid : Nat) (len : List UInt8) (two : len.length = 2) (flag m : UInt8) (value : UInt32) {junk : Nat}
    (room : 4 ≤ junk) : putValue 4 (cmdPadding::(sidBytes sid ++ len ++ (flag::m::List.replicate junk 0))) value =
      cmdPadding::(sidBytes sid ++ len ++ (flag::m::(sidBytes value.toNat ++ List.replicate (junk - 4) 0))) := by
  obtain ⟨high,low,rfl⟩ := List.length_eq_two.mp two
  have zeros : List.replicate junk (0 : UInt8) = [0,0,0,0] ++ List.replicate (junk - 4) 0 := by
    conv_lhs => rw [← Nat.sub_add_cancel room,Nat.add_comm,List.replicate_add]
    rfl
  have long : frameHeaderSize + paddingHeaderLen + 4 ≤
      (cmdPadding::(sidBytes sid ++ [high,low] ++ (flag::m::List.replicate junk 0))).length := by
    simp only [sidBytes,toBeBytes,frameHeaderSize,paddingHeaderLen,List.length_cons,List.length_append,List.length_nil,
      List.length_replicate]
    omega
  rw [putValue,if_pos long,zeros]
  rfl

theorem sizedFrame (role : Role) (least : role.least ≤ target) (most : target ≤ maxDataRecordWireLen) :
    ∃ f : Frame, role.encodeSized target = f.encode ∧ f.cmd = cmdPadding ∧ f.sid = role.streamId ∧
      f.payload = role.flag::role.m::(role.value ++
        List.replicate (paddingJunkLenForWire target - role.value.length) 0) ∧
      f.payload.length = target - minPaddingRecordWireLen + 2 := by
  have floor : minPaddingRecordWireLen = 33 := by decide
  have top : maxDataRecordWireLen = 16406 := by decide
  have junk : paddingJunkLenForWire target = target - minPaddingRecordWireLen := rfl
  have fits : ∀ value : Bytes, value.length ≤ target - minPaddingRecordWireLen → ∀ flag m : UInt8,
      (flag::m::(value ++ List.replicate (paddingJunkLenForWire target - value.length) (0 : UInt8))).length =
        target - minPaddingRecordWireLen + 2 := by
    intro value room flag m
    simp only [List.length_cons,List.length_append,List.length_replicate]
    omega
  have small : target - minPaddingRecordWireLen + 2 ≤ maxPayloadLen := by
    rw [maxPayloadLen]
    omega
  have room : role.value.length ≤ target - minPaddingRecordWireLen := by
    cases role with
    | request m => exact Nat.zero_le _
    | reply => exact Nat.zero_le _
    | goaway last => exact Nat.le_sub_of_add_le' least
    | windowUpdate streamId increment => exact Nat.le_sub_of_add_le' least
  have sidFits : role.streamId < 2^32 := by
    cases role with
    | windowUpdate streamId increment => exact streamId.toNat_lt
    | _ => exact Nat.two_pow_pos 32
  refine ⟨⟨cmdPadding,role.streamId,_,sidFits,(fits role.value room role.flag role.m).trans_le small⟩,?_,rfl,rfl,rfl,
    fits role.value room role.flag role.m⟩
  rw [Frame.encode]
  dsimp only
  rw [fits role.value room role.flag role.m,Nat.add_comm]
  cases role with
  | request m => exact frameSized paddingFlagRequest m target
  | reply => exact frameSized paddingFlagReply 0 target
  | goaway last =>
    show putValue goawayLastStreamIdLen (encodePaddingFrameSized paddingFlagGoaway 0 target) last = _
    rw [frameSized]
    exact valuePut 0 _ rfl paddingFlagGoaway 0 last room
  | windowUpdate streamId increment =>
    show putValue windowUpdateIncrementLen (put (encodePaddingFrameSized paddingFlagWindowUpdate 0 target) 1 (sidBytes streamId.toNat)) increment = _
    rw [frameSized]
    exact valuePut streamId.toNat _ rfl paddingFlagWindowUpdate 0 increment room

end Layout

namespace Role

def goawayValue : Role → Option Nat
  | goaway lastStreamId => some lastStreamId.toNat
  | _ => none

def incrementValue : Role → Option Nat
  | windowUpdate _ increment => some increment.toNat
  | _ => none

end Role

section Sized
variable {target : Nat} {packet : Bytes}

theorem decodeValue (flag m : UInt8) (value : UInt32) (tail : Bytes) :
    decodePaddingValue flag (flag::m::(sidBytes value.toNat ++ tail)) = some value.toNat := by
  show (if some flag = some flag then some (sidOf _ _ _ _) else none) = some value.toNat
  rw [if_pos rfl]
  exact congrArg some (sidOfBytes value.toNat_lt)

theorem decodeOther {asked flag : UInt8} (other : flag ≠ asked) (rest : Bytes) :
    decodePaddingValue asked (flag::rest) = none := by
  rw [decodePaddingValue]
  exact if_neg (fun same => other (Option.some.inj same))

theorem roleDecodes (role : Role) (tail : Bytes) :
    decodePaddingGoaway (role.flag::role.m::(role.value ++ tail)) = role.goawayValue ∧
    decodePaddingWindowUpdate (role.flag::role.m::(role.value ++ tail)) = role.incrementValue := by
  have request : paddingFlagRequest ≠ paddingFlagGoaway ∧ paddingFlagRequest ≠ paddingFlagWindowUpdate := by decide
  have reply : paddingFlagReply ≠ paddingFlagGoaway ∧ paddingFlagReply ≠ paddingFlagWindowUpdate := by decide
  have apart : paddingFlagGoaway ≠ paddingFlagWindowUpdate := by decide
  cases role with
  | request m => exact ⟨decodeOther request.1 _,decodeOther request.2 _⟩
  | reply => exact ⟨decodeOther reply.1 _,decodeOther reply.2 _⟩
  | goaway last => exact ⟨decodeValue _ _ _ _,decodeOther apart _⟩
  | windowUpdate streamId increment => exact ⟨decodeOther apart.symm _,decodeValue _ _ _ _⟩

theorem selfSizedFrame {f : Frame} (padding : f.cmd = cmdPadding) (long : paddingHeaderLen ≤ f.payload.length) :
    selfSizedPaddingWireLen f.encode = some (f.encode.length + controlRecordMinOverhead) := by
  obtain ⟨a,b,c,d,high,low,shape,_,len⟩ := encodeShape f []
  simp only [List.append_nil] at shape
  rw [shape,padding,selfSizedPaddingWireLen,if_neg]
  · show (if frameHeaderSize + fromBeBytes high low ≠ _ ∨ fromBeBytes high low < paddingHeaderLen then none else _) = _
    rw [len,if_neg]
    simp only [frameHeaderSize,List.length_cons]
    omega
  · simp only [frameHeaderSize,List.length_cons,List.head?_cons,ne_eq,not_true_eq_false,or_false]
    omega

theorem framesNotSized {frames : List Frame} (several : 2 ≤ frames.length) :
    selfSizedPaddingWireLen (encodeAll frames) = none := by
  obtain ⟨f,rest,rfl⟩ := List.exists_cons_of_length_pos (Nat.lt_of_lt_of_le Nat.zero_lt_two several)
  obtain ⟨g,more,rfl⟩ := List.exists_cons_of_length_pos (Nat.lt_of_succ_lt_succ several)
  obtain ⟨a,b,c,d,high,low,shape,_,len⟩ := encodeShape f (encodeAll (g::more))
  have second : 7 ≤ g.encode.length := by
    rw [encodeLength,Frame.encodedLen,frameHeaderSize]
    omega
  rw [encodeAllCons,shape,selfSizedPaddingWireLen]
  split
  · rfl
  · show (if frameHeaderSize + fromBeBytes high low ≠ _ ∨ fromBeBytes high low < paddingHeaderLen then none else _) = _
    rw [len,if_pos]
    refine .inl ?_
    simp only [frameHeaderSize,List.length_cons,List.length_append,encodeAllCons]
    omega

theorem preparedWire {noise : Record.Noise} (undoes : noise.Undoes) (w : Record.WriteHalf) {payload : Bytes}
    (fits : payload.length + minDataWireLen ≤ target) (most : target ≤ maxDataRecordWireLen) :
    ∃ ok w', Record.prepareControlRecord noise w payload target = some (ok,w') ∧
      w'.buffer.length = w.buffer.length + target ∧ (ok = false → ∃ n plain, noise.encrypt n plain = none) := by
  have plain : Record.targetPlaintext payload target = target - 21 ∧ 21 ≤ target ∧
      payload.length + blockLenPrefixSize + innerContentTypeLen ≤ target - 21 ∧ target - 21 ≤ blockPlaintextSize := by
    simp only [minDataWireLen,maxDataRecordWireLen,blockPlaintextSize,tlsRecordHeaderLen,blockLenPrefixSize,
      innerContentTypeLen,aeadTagLen] at fits most
    simp only [Record.targetPlaintext,blockPlaintextSize,tlsRecordHeaderLen,blockLenPrefixSize,innerContentTypeLen,
      aeadTagLen]
    omega
  obtain ⟨same,above,room,below⟩ := plain
  rw [Record.prepareControlRecord,same,Record.encryptVariableBlock,if_neg (Nat.not_lt.mpr room),
    if_neg (Nat.not_lt.mpr below)]
  dsimp only
  cases found : noise.encrypt w.nonce (Record.block payload (target - 21)) with
  | none =>
    refine ⟨_,_,rfl,?_,fun _ => ⟨_,_,found⟩⟩
    simp only [List.length_append,List.length_replicate,tlsRecordHeaderLen,aeadTagLen]
    omega
  | some cipher =>
    have size := undoes.tagged found
    rw [Record.blockLength room] at size
    refine ⟨_,_,rfl,?_,fun failed => by contradiction⟩
    simp only [List.length_append,Record.recordHeader,toBeBytes,List.length_cons,List.length_nil,size,aeadTagLen]
    omega

end Sized

theorem selfSizedExact :
    (∀ (role : Role) (target : Nat), role.least ≤ target → target ≤ maxDataRecordWireLen →
      (∀ (noise : Record.Noise) (w : Record.WriteHalf), noise.Undoes →
        ∃ ok w', Record.prepareControlRecord noise w (role.encodeSized target) target = some (ok,w') ∧
          w'.buffer.length = w.buffer.length + target) ∧
      selfSizedPaddingWireLen (role.encodeSized target) = some target ∧
      ∃ f : Frame, decode (role.encodeSized target) = some (f,[]) ∧ f.cmd = cmdPadding ∧ f.sid = role.streamId ∧
        f.payload.take paddingHeaderLen = [role.flag,role.m] ∧
        decodePaddingGoaway f.payload = role.goawayValue ∧ decodePaddingWindowUpdate f.payload = role.incrementValue) ∧
    ∀ frames : List Frame, 2 ≤ frames.length → selfSizedPaddingWireLen (encodeAll frames) = none := by
  refine ⟨?_,fun frames several => framesNotSized several⟩
  intro role target least most
  obtain ⟨f,packet,padding,sid,payload,len⟩ := sizedFrame role least most
  have floor : minPaddingRecordWireLen ≤ target := by
    cases role with
    | request m => exact least
    | reply => exact least
    | goaway last => exact (Nat.le_add_right _ _).trans least
    | windowUpdate streamId increment => exact (Nat.le_add_right _ _).trans least
  have whole : f.encode.length + minDataWireLen = target := by
    rw [encodeLength,Frame.encodedLen,len]
    have numbers : minPaddingRecordWireLen = 33 ∧ frameHeaderSize = 7 ∧ minDataWireLen = 24 := by decide
    omega
  refine ⟨?_,?_,f,?_,padding,sid,?_,?_⟩
  · intro noise w undoes
    rw [packet]
    obtain ⟨ok,next,prepared,long,-⟩ := preparedWire undoes w (Nat.le_of_eq whole) most
    exact ⟨ok,next,prepared,long⟩
  · rw [packet,selfSizedFrame padding (by rw [len,paddingHeaderLen]; omega)]
    exact congrArg some whole
  · rw [packet]
    have decoded := decodeEncode f []
    rwa [List.append_nil] at decoded
  · rw [payload]
    rfl
  · rw [payload]
    exact roleDecodes role _

theorem selfSizedExactUpdate :
    selfSizedPaddingWireLen (encodePaddingWindowUpdateSized 5 65536 37) = some 37 ∧
    ∃ f : Frame, decode (encodePaddingWindowUpdateSized 5 65536 37) = some (f,[]) ∧ f.sid = 5 ∧
      decodePaddingGoaway f.payload = none ∧ decodePaddingWindowUpdate f.payload = some 65536 := by
  obtain ⟨-,sized,f,decoded,-,sid,-,goaway,update⟩ := selfSizedExact.1 (.windowUpdate 5 65536) 37 (by decide) (by decide)
  exact ⟨sized,f,decoded,sid,goaway,update⟩

end KanoTls.Padding
