import KanoTls.Patch
import KanoTls.InboundExact
import KanoTls.RecordStream

/-! The third flight of the client: a ChangeCipherSpec, a record in the shape of a Finished and
one in that of an HTTP/2 preface, and the server's reader that takes them off the socket. -/
namespace KanoTls.Flight3
open Wire Shaper Record Patch
open Uot (fromBeBytes fromToBeBytes)
open Inbound (Socket Stream Matches SameRest readExactMatches)

def flight3CcsRecord : Bytes := [0x14,0x03,0x03,0x00,0x01,0x01]
def flight3FinishedPlaintextLen : Nat := 37
def flight3FinishedRecordLen : Nat := tlsRecordHeaderLen + flight3FinishedPlaintextLen + aeadTagLen

/- `PRI * HTTP/2.0`, an empty line, `SM` and another one. -/
def h2Preface : Bytes :=
  [0x50,0x52,0x49,0x20,0x2a,0x20,0x48,0x54,0x54,0x50,0x2f,0x32,0x2e,0x30,0x0d,0x0a,0x0d,0x0a,0x53,0x4d,0x0d,0x0a,0x0d,0x0a]

structure H2GhostVariant where
  plaintext : Bytes
  plaintextLen : Nat
  deriving DecidableEq, Repr

def makeH2GhostVariant (settings wu : Bytes) (trailer : UInt8) (plaintextLen : Nat) : H2GhostVariant :=
  let buf := put (List.replicate plaintextLen 0) 0 h2Preface
  let delta := 24 + settings.length
  let buf := put buf 24 settings
  let buf := put buf delta wu
  ⟨buf.set (delta + wu.length) trailer,plaintextLen⟩

def h2GhostVariants : List H2GhostVariant :=
  [makeH2GhostVariant
      [0x00,0x00,0x12,0x04,0x00,0x00,0x00,0x00,0x00,0x00,0x01,0x00,0x01,0x00,0x00,0x00,0x03,0x00,0x00,0x03,0xe8,0x00,
        0x04,0x00,
        0x00,0x60,0x00]
      [0x00,0x00,0x04,0x08,0x00,0x00,0x00,0x00,0x00,0x7f,0x00,0x00,0x01] 0x17 65,
    makeH2GhostVariant
      [0x00,0x00,0x18,0x04,0x00,0x00,0x00,0x00,0x00,0x00,0x01,0x00,0x01,0x00,0x00,0x00,0x02,0x00,0x00,0x00,0x00,0x00,
        0x03,0x00,
        0x00,0x03,0xe8,0x00,0x04,0x00,0x00,0x60,0x00]
      [0x00,0x00,0x04,0x08,0x00,0x00,0x00,0x00,0x00,0x7f,0x00,0x00,0x01] 0x17 71,
    makeH2GhostVariant
      [0x00,0x00,0x12,0x04,0x00,0x00,0x00,0x00,0x00,0x00,0x03,0x00,0x00,0x03,0xe8,0x00,0x04,0x00,0x00,0x60,0x00,0x00,
        0x06,0x00,
        0x04,0x00,0x00]
      [0x00,0x00,0x04,0x08,0x00,0x00,0x00,0x00,0x00,0xbf,0x00,0x00,0x01] 0x1e 65,
    makeH2GhostVariant
      [0x00,0x00,0x1e,0x04,0x00,0x00,0x00,0x00,0x00,0x00,0x01,0x00,0x01,0x00,0x00,0x00,0x02,0x00,0x00,0x00,0x00,0x00,
        0x03,0x00,
        0x00,0x03,0xe8,0x00,0x04,0x00,0x00,0x60,0x00,0x00,0x05,0x00,0x00,0x40,0x00]
      [0x00,0x00,0x04,0x08,0x00,0x00,0x00,0x00,0x00,0x7f,0x00,0x00,0x01] 0x17 77]

def buildH2GhostPlaintext (contextHash : Nat) : Bytes :=
  let variant := h2GhostVariants.getD (contextHash % h2GhostVariants.length) ⟨[],0⟩
  variant.plaintext.take variant.plaintextLen

def maxH2GhostPlaintextLen : Nat := (h2GhostVariants.map (·.plaintextLen)).foldl max 0
def maxH2GhostRecordLen : Nat := tlsRecordHeaderLen + maxH2GhostPlaintextLen + aeadTagLen
def maxFlight3TotalWireLen : Nat := flight3CcsRecord.length + flight3FinishedRecordLen + maxH2GhostRecordLen

/- The bytes of both segments and the sender's nonce behind them; `none` is an error of the cipher or a
ciphertext of another length. -/
def sendClientFlight3Ghost (noise : Noise) (nonce contextHash : Nat) : Option (Bytes × Nat) := do
  let finished ← noise.encrypt nonce (List.replicate flight3FinishedPlaintextLen 0)
  if finished.length ≠ flight3FinishedPlaintextLen + aeadTagLen then none
  else
    let plaintext := buildH2GhostPlaintext contextHash
    let h2 ← noise.encrypt (bump nonce) plaintext
    if h2.length ≠ plaintext.length + aeadTagLen then none
    else some (flight3CcsRecord ++ (recordHeader finished.length ++ finished) ++ (recordHeader h2.length ++ h2),
      bump (bump nonce))

inductive Error where
  | read (e : Inbound.Error)
  | outOfRange
  | ccsMismatch
  | finishedType
  | finishedLength (length : Nat)
  | finishedDecrypt
  | h2Type
  | h2Length (length : Nat)
  | h2Decrypt
  deriving DecidableEq, Repr

def minimumNeeded : Nat := flight3CcsRecord.length + flight3FinishedRecordLen + tlsRecordHeaderLen

def finStart : Nat := flight3CcsRecord.length
def h2Start : Nat := finStart + flight3FinishedRecordLen

def checkFinished (noise : Noise) (nonce : Nat) (wire : Bytes) : Except Error Nat :=
  if slice wire 0 flight3CcsRecord.length ≠ flight3CcsRecord then .error .ccsMismatch
  else if wire.getD finStart 0 ≠ 0x17 then .error .finishedType
  else
    let finPayloadLen := fromBeBytes (wire.getD (finStart + 3) 0) (wire.getD (finStart + 4) 0)
    if finPayloadLen ≠ flight3FinishedPlaintextLen + aeadTagLen then .error (.finishedLength finPayloadLen)
    else
      match noise.decrypt nonce (slice wire (finStart + tlsRecordHeaderLen) h2Start) with
      | none => .error .finishedDecrypt
      | some _ => .ok (bump nonce)

def checkH2Header (wire : Bytes) : Except Error Nat :=
  if wire.getD h2Start 0 ≠ 0x17 then .error .h2Type
  else
    let h2PayloadLen := fromBeBytes (wire.getD (h2Start + 3) 0) (wire.getD (h2Start + 4) 0)
    if ¬ (aeadTagLen ≤ h2PayloadLen ∧ h2PayloadLen ≤ 16384 + 256) then .error (.h2Length h2PayloadLen) else .ok h2PayloadLen

def checkH2 (noise : Noise) (nonce : Nat) (wire : Bytes) (h2End : Nat) : Except Error Nat :=
  match noise.decrypt nonce (slice wire (h2Start + tlsRecordHeaderLen) h2End) with
  | none => .error .h2Decrypt
  | some _ => .ok (bump nonce)

def readAll (n : Nat) (s : Socket) : Except Error (Bytes × Socket) :=
  match s.readExact n with
  | .error e => .error (.read e)
  | .ok got => .ok got

/- Both loops read up to their end and no further; the buffer of the first has room for the largest flight. -/
def consumeClientFlight3Ghost (noise : Noise) (nonce : Nat) (s : Socket) : Except Error (Socket × Nat) := do
  if maxFlight3TotalWireLen < minimumNeeded then .error .outOfRange
  else
    let (wire,s) ← readAll minimumNeeded s
    let nonce ← checkFinished noise nonce wire
    let h2PayloadLen ← checkH2Header wire
    let h2End := h2Start + (tlsRecordHeaderLen + h2PayloadLen)
    let (more,s) ← readAll (h2End - minimumNeeded) s
    let nonce ← checkH2 noise nonce (wire ++ more) h2End
    .ok (s,nonce)

section Agreement
variable {noise : Noise} {nonce contextHash : Nat} {s : Socket} {rest : Bytes}

theorem readAllTakes {front back : Bytes} (whole : s.Whole) (bytes : s.stream.bytes = front ++ back) :
    ∃ t : Socket, readAll front.length s = .ok (front,t) ∧ t.Whole ∧ t.stream = ⟨back,s.closed⟩ := by
  have found := readExactMatches front.length whole
  have there : front.length ≤ s.stream.bytes.length := by
    rw [bytes,List.length_append]
    exact Nat.le_add_right _ _
  rw [Stream.readExact,if_pos there,bytes,List.take_left,List.drop_left] at found
  rw [readAll]
  generalize s.readExact front.length = x at found
  cases found with
  | @ok p _ same =>
    obtain ⟨got,t⟩ := p
    obtain ⟨rfl,isWhole,rest⟩ := same
    exact ⟨t,rfl,isWhole,rest.symm⟩

example : h2GhostVariants.all (fun variant => variant.plaintext.length == variant.plaintextLen) = true := by decide +kernel

theorem ghostLength (contextHash : Nat) : (buildH2GhostPlaintext contextHash).length ≤ maxH2GhostPlaintextLen := by
  have all : (List.range h2GhostVariants.length).all (fun i =>
      decide ((buildH2GhostPlaintext i).length ≤ maxH2GhostPlaintextLen)) = true := by decide +kernel
  have small : contextHash % h2GhostVariants.length < h2GhostVariants.length := Nat.mod_lt _ (by decide)
  have same : buildH2GhostPlaintext (contextHash % h2GhostVariants.length) = buildH2GhostPlaintext contextHash := by
    rw [buildH2GhostPlaintext,Nat.mod_mod]
    rfl
  have bound := of_decide_eq_true (List.all_eq_true.mp all _ (List.mem_range.mpr small))
  rw [same] at bound
  exact bound

theorem headerFields (len : Nat) (small : len < 65536) (body : Bytes) : (recordHeader len ++ body).getD 0 0 = 0x17 ∧
    fromBeBytes ((recordHeader len ++ body).getD 3 0) ((recordHeader len ++ body).getD 4 0) = len :=
  ⟨rfl,fromToBeBytes small⟩

theorem finishedPasses {finished header : Bytes} (long : finished.length = flight3FinishedPlaintextLen + aeadTagLen)
    (opens : (noise.decrypt nonce finished).isSome = true) :
    checkFinished noise nonce (flight3CcsRecord ++ (recordHeader finished.length ++ finished) ++ header) = .ok (bump nonce) := by
  have ccs : slice (flight3CcsRecord ++ (recordHeader finished.length ++ finished) ++ header) 0 flight3CcsRecord.length =
      flight3CcsRecord := rfl
  have fields := headerFields finished.length (by rw [long]; decide) (finished ++ header)
  have body : slice (flight3CcsRecord ++ (recordHeader finished.length ++ finished) ++ header) (finStart + tlsRecordHeaderLen) h2Start =
      finished := by
    show ((flight3CcsRecord ++ recordHeader finished.length ++ (finished ++ header)).take h2Start).drop 11 = finished
    have split : h2Start = (flight3CcsRecord ++ recordHeader finished.length).length + finished.length := by
      rw [long]
      rfl
    rw [split,List.take_length_add_append,List.take_left]
    rfl
  have length : fromBeBytes ((flight3CcsRecord ++ (recordHeader finished.length ++ finished) ++ header).getD (finStart + 3) 0)
      ((flight3CcsRecord ++ (recordHeader finished.length ++ finished) ++ header).getD (finStart + 4) 0) =
      flight3FinishedPlaintextLen + aeadTagLen := fields.2.trans long
  obtain ⟨plain,opened⟩ := Option.isSome_iff_exists.mp opens
  have kind : (flight3CcsRecord ++ (recordHeader finished.length ++ finished) ++ header).getD finStart 0 = 0x17 := rfl
  rw [checkFinished,if_neg (not_not_intro ccs),if_neg (not_not_intro kind)]
  dsimp only
  rw [if_neg (not_not_intro length),body,opened]

theorem h2Passes {front : Bytes} {len : Nat} (long : front.length = h2Start) (least : aeadTagLen ≤ len)
    (most : len ≤ 16384 + 256) :
    checkH2Header (front ++ recordHeader len) = .ok len := by
  have at' (i : Nat) : (front ++ recordHeader len).getD (h2Start + i) 0 = (recordHeader len).getD i 0 := by
    rw [List.getD_eq_getElem?_getD,List.getElem?_append_right (by omega),long,Nat.add_sub_cancel_left,
      List.getD_eq_getElem?_getD]
  have start : (front ++ recordHeader len).getD h2Start 0 = 0x17 := at' 0
  have length : fromBeBytes ((front ++ recordHeader len).getD (h2Start + 3) 0)
      ((front ++ recordHeader len).getD (h2Start + 4) 0) = len := by
    rw [at',at']
    exact fromToBeBytes (by omega)
  rw [checkH2Header,if_neg (not_not_intro start)]
  dsimp only
  rw [length,if_neg (not_not_intro ⟨least,most⟩)]

theorem sentFlight {bytes : Bytes} {after : Nat}
    (sent : sendClientFlight3Ghost noise nonce contextHash = some (bytes,after)) :
    ∃ finished h2, noise.encrypt nonce (List.replicate flight3FinishedPlaintextLen 0) = some finished ∧
      finished.length = flight3FinishedPlaintextLen + aeadTagLen ∧
      noise.encrypt (bump nonce) (buildH2GhostPlaintext contextHash) = some h2 ∧
      h2.length = (buildH2GhostPlaintext contextHash).length + aeadTagLen ∧
      bytes = flight3CcsRecord ++ (recordHeader finished.length ++ finished) ++ (recordHeader h2.length ++ h2) ∧
      after = bump (bump nonce) := by
  obtain ⟨finished,sealed,rest⟩ := Option.bind_eq_some_iff.mp sent
  by_cases long : finished.length = flight3FinishedPlaintextLen + aeadTagLen
  · rw [if_neg (not_not_intro long)] at rest
    obtain ⟨h2,second,rest⟩ := Option.bind_eq_some_iff.mp rest
    by_cases size : h2.length = (buildH2GhostPlaintext contextHash).length + aeadTagLen
    · rw [if_neg (not_not_intro size)] at rest
      obtain ⟨rfl,rfl⟩ := Prod.mk.inj (Option.some.inj rest)
      exact ⟨finished,h2,sealed,long,second,size,rfl,rfl⟩
    · rw [if_pos size] at rest
      contradiction
  · rw [if_pos long] at rest
    contradiction

theorem flight3Agrees (undoes : noise.Undoes) {bytes : Bytes} {after : Nat}
    (sent : sendClientFlight3Ghost noise nonce contextHash = some (bytes,after)) (whole : s.Whole)
    (arrives : s.stream.bytes = bytes ++ rest) :
    ∃ t, consumeClientFlight3Ghost noise nonce s = .ok (t,after) ∧ t.Whole ∧ t.stream = ⟨rest,s.closed⟩ := by
  obtain ⟨finished,h2,sealed,long,second,size,rfl,rfl⟩ := sentFlight sent
  have most : h2.length ≤ 16384 + 256 := by
    have bound := ghostLength contextHash
    have total : maxH2GhostPlaintextLen + aeadTagLen ≤ 16384 + 256 := by decide +kernel
    omega
  have front : (flight3CcsRecord ++ (recordHeader finished.length ++ finished)).length = h2Start := by
    rw [List.length_append,List.length_append,long]
    rfl
  have head : (flight3CcsRecord ++ (recordHeader finished.length ++ finished) ++ recordHeader h2.length).length = minimumNeeded := by
    rw [List.length_append,front]
    rfl
  have split : s.stream.bytes =
      flight3CcsRecord ++ (recordHeader finished.length ++ finished) ++ recordHeader h2.length ++ (h2 ++ rest) := by
    rw [arrives]
    simp only [List.append_assoc]
  obtain ⟨t,first,tWhole,tStream⟩ := readAllTakes whole split
  rw [head] at first
  obtain ⟨u,later,uWhole,uStream⟩ := @readAllTakes t h2 rest tWhole (by rw [tStream])
  have body : slice (flight3CcsRecord ++ (recordHeader finished.length ++ finished) ++ recordHeader h2.length ++ h2)
      (h2Start + tlsRecordHeaderLen) (h2Start + (tlsRecordHeaderLen + h2.length)) = h2 := by
    have end' : h2Start + (tlsRecordHeaderLen + h2.length) =
        (flight3CcsRecord ++ (recordHeader finished.length ++ finished) ++ recordHeader h2.length ++ h2).length := by
      rw [List.length_append,head]
      show h2Start + (tlsRecordHeaderLen + h2.length) = h2Start + tlsRecordHeaderLen + h2.length
      omega
    have start : h2Start + tlsRecordHeaderLen =
        (flight3CcsRecord ++ (recordHeader finished.length ++ finished) ++ recordHeader h2.length).length := head.symm
    rw [slice,end',List.take_length,start,List.drop_left]
  refine ⟨u,?_,uWhole,?_⟩
  · rw [consumeClientFlight3Ghost,if_neg (by decide +kernel),first]
    show (checkFinished noise nonce _ >>= _) = _
    rw [finishedPasses long (by rw [undoes.undone sealed]; rfl)]
    show (checkH2Header _ >>= _) = _
    rw [h2Passes front (by omega) most]
    show (readAll (h2Start + (tlsRecordHeaderLen + h2.length) - minimumNeeded) t >>= _) = _
    rw [show h2Start + (tlsRecordHeaderLen + h2.length) - minimumNeeded = h2.length by
      show h2Start + (tlsRecordHeaderLen + h2.length) - (h2Start + tlsRecordHeaderLen) = h2.length
      omega,later]
    show (checkH2 noise (bump nonce) _ _ >>= _) = _
    rw [checkH2,body,undoes.undone second]
    rfl
  · rw [uStream,← show t.closed = s.closed from congrArg Stream.closed tStream]

def sampleFlight : Bytes := ((sendClientFlight3Ghost tagNoise 0 3).map (·.1)).getD []

def sampleSocket : Socket := ⟨[sampleFlight.take 66,sampleFlight.drop 66 ++ [1,2,3]],false⟩

theorem flight3AgreesCut : ∃ t, consumeClientFlight3Ghost tagNoise 0 sampleSocket = .ok (t,2) ∧ t.Whole ∧ t.stream =
    ⟨[1,2,3],false⟩ := by
  have sent : sendClientFlight3Ghost tagNoise 0 3 = some (sampleFlight,2) := by decide +kernel
  have whole : sampleSocket.Whole := by
    intro fragment member
    have tests : (sampleSocket.fragments.all (fun fragment => !fragment.isEmpty)) = true := by decide +kernel
    have test := List.all_eq_true.mp tests fragment member
    intro empty
    rw [empty] at test
    exact absurd test (by decide)
  exact flight3Agrees tagNoiseUndoes sent whole (by decide +kernel)

end Agreement

end KanoTls.Flight3
