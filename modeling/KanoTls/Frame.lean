import KanoTls.Uot
import Mathlib.Algebra.Order.Ring.Int

/-! `Frame` of `frame.rs` and the bytes it stands for. The tunnel marks no record
boundaries: the peer joins the payloads of the records and decodes frames from the
front until what is left is less than a frame. -/
namespace KanoTls.Wire
open Pending Uot

abbrev Bytes := List UInt8

def frameHeaderSize : Nat := 7
def maxPayloadLen : Nat := 65535

def cmdSyn : UInt8 := 0x01
def cmdPsh : UInt8 := 0x02
def cmdFin : UInt8 := 0x03
def cmdSettings : UInt8 := 0x04
def cmdSynack : UInt8 := 0x07
def cmdPadding : UInt8 := 0x08

/- A frame that `encode` does not refuse. -/
structure Frame where
  cmd : UInt8
  sid : Nat
  payload : Payload
  sidFits : sid < 2^32
  payloadFits : payload.length ≤ maxPayloadLen
  deriving DecidableEq, Repr

def sidBytes (sid : Nat) : Bytes := toBeBytes (sid / 65536) ++ toBeBytes sid
def sidOf (a b c d : UInt8) : Nat := fromBeBytes a b * 65536 + fromBeBytes c d

def Frame.encode (f : Frame) : Bytes := f.cmd::(sidBytes f.sid ++ toBeBytes f.payload.length ++ f.payload)

def Frame.encodedLen (f : Frame) : Nat := frameHeaderSize + f.payload.length

theorem fromBeBytesSmall (high low : UInt8) : fromBeBytes high low < 65536 := by
  have := high.toNat_lt
  have := low.toNat_lt
  simp only [fromBeBytes]
  omega

theorem sidOfSmall (a b c d : UInt8) : sidOf a b c d < 2^32 := by
  have := fromBeBytesSmall a b
  have := fromBeBytesSmall c d
  simp only [sidOf]
  omega

def decode : Bytes → Option (Frame × Bytes)
  | cmd::a::b::c::d::high::low::rest =>
    if rest.length < fromBeBytes high low then none
    else some (⟨cmd,sidOf a b c d,rest.take (fromBeBytes high low),sidOfSmall a b c d,by
      have := fromBeBytesSmall high low
      simp only [List.length_take,maxPayloadLen]
      omega⟩,rest.drop (fromBeBytes high low))
  | _ => none

def decodeUpTo : Nat → Bytes → List Frame × Bytes
  | 0,bytes => ([],bytes)
  | fuel+1,bytes =>
    match decode bytes with
    | none => ([],bytes)
    | some (frame,rest) =>
      let later := decodeUpTo fuel rest
      (frame::later.1,later.2)

def decodeAll (bytes : Bytes) : List Frame × Bytes := decodeUpTo bytes.length bytes

def encodeAll (frames : List Frame) : Bytes := frames.flatMap Frame.encode

/- `walk_frame_headers`: command, stream and length of each whole frame. -/
def walkUpTo : Nat → Bytes → List (UInt8 × Nat × Nat)
  | 0,_ => []
  | fuel+1,bytes =>
    match bytes with
    | cmd::a::b::c::d::high::low::rest =>
      if rest.length < fromBeBytes high low then []
      else (cmd,sidOf a b c d,frameHeaderSize + fromBeBytes high low)::
        walkUpTo fuel (rest.drop (fromBeBytes high low))
    | _ => []

def walkFrameHeaders (bytes : Bytes) : List (UInt8 × Nat × Nat) := walkUpTo bytes.length bytes

def Frame.header (f : Frame) : UInt8 × Nat × Nat := (f.cmd,f.sid,f.encodedLen)

@[simp] theorem encodeAllNil : encodeAll [] = [] := rfl

@[simp] theorem encodeAllCons (f : Frame) (frames : List Frame) :
    encodeAll (f::frames) = f.encode ++ encodeAll frames := rfl

@[simp] theorem encodeAllAppend (front back : List Frame) :
    encodeAll (front ++ back) = encodeAll front ++ encodeAll back := by
  simp [encodeAll]

theorem encodeLength (f : Frame) : f.encode.length = f.encodedLen := by
  simp [Frame.encode,sidBytes,toBeBytes,Frame.encodedLen,frameHeaderSize]
  omega

theorem sidOfBytes {sid : Nat} (small : sid < 2^32) :
    sidOf (UInt8.ofNat (sid / 65536 / 256)) (UInt8.ofNat (sid / 65536)) (UInt8.ofNat (sid / 256)) (UInt8.ofNat sid) =
      sid := by
  simp only [sidOf,fromBeBytes,UInt8.toNat_ofNat']
  omega

theorem encodeShape (f : Frame) (tail : Bytes) : ∃ a b c d high low,
    f.encode ++ tail = f.cmd::a::b::c::d::high::low::(f.payload ++ tail) ∧
    sidOf a b c d = f.sid ∧ fromBeBytes high low = f.payload.length := by
  have fits := f.payloadFits
  rw [maxPayloadLen] at fits
  refine ⟨_,_,_,_,_,_,?_,sidOfBytes f.sidFits,fromToBeBytes (by omega)⟩
  simp [Frame.encode,sidBytes,toBeBytes]

theorem decodeEncode (f : Frame) (tail : Bytes) : decode (f.encode ++ tail) = some (f,tail) := by
  obtain ⟨a,b,c,d,high,low,shape,sid,len⟩ := encodeShape f tail
  rw [shape]
  simp only [decode,len,sid]
  rw [if_neg (by simp)]
  simp

theorem decodeUpToEncoded (frames : List Frame) (tail : Bytes) (fuel : Nat) (enough : frames.length ≤ fuel) :
    decodeUpTo fuel (encodeAll frames ++ tail) =
      (frames ++ (decodeUpTo (fuel - frames.length) tail).1,(decodeUpTo (fuel - frames.length) tail).2) := by
  induction frames generalizing fuel with
  | nil => simp
  | cons f rest ih =>
    cases fuel with
    | zero => simp at enough
    | succ fuel =>
      have more := ih fuel (by simpa using enough)
      rw [encodeAllCons,List.append_assoc,decodeUpTo,decodeEncode]
      simp only [more,List.length_cons,List.cons_append,Nat.succ_sub_succ_eq_sub]

theorem framesFit (frames : List Frame) : frames.length ≤ (encodeAll frames).length := by
  induction frames with
  | nil => simp
  | cons f rest ih =>
    rw [encodeAllCons,List.length_append,encodeLength,List.length_cons,Frame.encodedLen,frameHeaderSize]
    omega

theorem decodeAllEncoded (frames : List Frame) : decodeAll (encodeAll frames) = (frames,[]) := by
  have all := decodeUpToEncoded frames [] _ (framesFit frames)
  have nothing : ∀ fuel, decodeUpTo fuel [] = ([],[]) := by
    intro fuel
    cases fuel <;> rfl
  rw [List.append_nil,nothing,List.append_nil] at all
  exact all

theorem decodeShort (f : Frame) (tail : Bytes) {n : Nat} (short : n < f.encode.length) :
    decode ((f.encode ++ tail).take n) = none := by
  obtain ⟨a,b,c,d,high,low,shape,_,len⟩ := encodeShape f tail
  rw [shape]
  rw [encodeLength,Frame.encodedLen,frameHeaderSize] at short
  rcases n with _ | _ | _ | _ | _ | _ | _ | m <;> try rfl
  simp only [List.take_succ_cons,decode,len]
  rw [if_pos]
  rw [List.length_take]
  omega

theorem decodeUpToCut (frames : List Frame) (n fuel : Nat) :
    (decodeUpTo fuel ((encodeAll frames).take n)).1 <+: frames := by
  induction frames generalizing n fuel with
  | nil => cases fuel <;> simp [decodeUpTo,decode]
  | cons f rest ih =>
    cases fuel with
    | zero => exact List.nil_prefix
    | succ fuel =>
      rw [encodeAllCons,decodeUpTo]
      by_cases short : n < f.encode.length
      · rw [decodeShort f _ short]
        exact List.nil_prefix
      · rw [List.take_append,List.take_of_length_le (Nat.not_lt.mp short),decodeEncode]
        exact List.cons_prefix_cons.mpr ⟨rfl,ih _ _⟩

theorem decodeAllCut (frames : List Frame) (n : Nat) : (decodeAll ((encodeAll frames).take n)).1 <+: frames :=
  decodeUpToCut frames n _
theorem walkUpToEncoded (frames : List Frame) (fuel : Nat) (enough : frames.length ≤ fuel) :
    walkUpTo fuel (encodeAll frames) = frames.map Frame.header := by
  induction frames generalizing fuel with
  | nil => cases fuel <;> rfl
  | cons f rest ih =>
    cases fuel with
    | zero => simp at enough
    | succ fuel =>
      obtain ⟨a,b,c,d,high,low,shape,sid,len⟩ := encodeShape f (encodeAll rest)
      rw [encodeAllCons,shape]
      simp only [walkUpTo,len,sid]
      rw [if_neg (by simp),List.drop_left,ih fuel (by simpa using enough)]
      rfl

theorem walkEncoded (frames : List Frame) : walkFrameHeaders (encodeAll frames) = frames.map Frame.header :=
  walkUpToEncoded frames _ (framesFit frames)

end KanoTls.Wire
