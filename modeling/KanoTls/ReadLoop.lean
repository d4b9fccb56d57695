import KanoTls.FrameStream
import KanoTls.Machine
import Mathlib.Data.List.GetD

/-! `run_read_loop` and its reassembly buffer. What the peer sends, how much a read returns,
which branch of the select is ready and what `handle_frame` answers are labels, so a run of
the machine is any peer, any sequence of reads and any handler. -/
namespace KanoTls.ReadLoop
open Machine Wire Uot

def maxSessionReassemblyBytes : Nat := 1024 * 1024
def tunnelReadChunk : Nat := 16384

inductive Ended where
  | closeRequested | idle | eof | readError | reassemblyExceeded | protocolError
  deriving DecidableEq, Repr

/- `selecting` is the top of the loop and the select below it, `arrived` the point before the
length test, `decoding` the inner loop. -/
inductive Phase where
  | selecting | arrived | decoding
  | ended (why : Ended)
  deriving DecidableEq, Repr

structure Reader where
  isClient : Bool
  postScriptOff : Bool
  phase : Phase
  buf : Bytes
  deriving DecidableEq

def opened (isClient postScriptOff : Bool) : Reader := ⟨isClient,postScriptOff,.selecting,[]⟩

/- `closed` is the flag at the top or the notification in the select. `chunk` is the result of
`read_tunnel_chunk`; `handled` is whether `handle_frame` returned `Ok`, read when there was a
frame. -/
inductive Event where
  | closed
  | idleTimeout (eligible : Bool)
  | exchangeTimer
  | chunk (read : Option Bytes)
  | lengthTest
  | decode (handled : Bool)
  deriving DecidableEq

def select (r : Reader) : Event → Option Reader
  | .closed => some { r with phase := .ended .closeRequested }
  | .idleTimeout eligible =>
    -- Idle teardown is the server's; a client's idle tunnels are drained by the pool.
    if r.isClient then none
    else if eligible then some { r with phase := .ended .idle }
    else some r
  | .exchangeTimer => if r.isClient ∧ r.postScriptOff = false then some r else none
  | .chunk none => some { r with phase := .ended .readError }
  | .chunk (some read) =>
    if read.length > tunnelReadChunk then none
    else if read = [] then some { r with phase := .ended .eof }
    else some { r with phase := .arrived, buf := r.buf ++ read }
  | _ => none

def step (r : Reader) (e : Event) : Option Reader :=
  match r.phase,e with
  | .selecting,e => select r e
  | .arrived,.lengthTest =>
    if r.buf.length > maxSessionReassemblyBytes then some { r with phase := .ended .reassemblyExceeded }
    else some { r with phase := .decoding }
  | .decoding,.decode handled =>
    match decodeBuffer r.buf with
    | (none,buf) => some { r with phase := .selecting, buf := buf }
    | (some _,buf) => some { r with phase := if handled then .decoding else .ended .protocolError, buf := buf }
  | _,_ => none

section Decoder

theorem waitingCases {src : Bytes} (waits : (decodeBuffer src).1 = none) : src.length < frameHeaderSize ∨
    src.length < frameHeaderSize + fromBeBytes (src.getD 5 0) (src.getD 6 0) := by
  unfold decodeBuffer at waits
  split at waits
  · rename_i short
    exact .inl short
  · dsimp only at waits
    split at waits
    · rename_i short
      exact .inr short
    · contradiction

theorem decodedCases {src rest : Bytes} {frame : Frame} (found : decodeBuffer src = (some frame,rest)) :
    frameHeaderSize + fromBeBytes (src.getD 5 0) (src.getD 6 0) ≤ src.length ∧
    rest.length = src.length - (frameHeaderSize + fromBeBytes (src.getD 5 0) (src.getD 6 0)) := by
  unfold decodeBuffer at found
  split at found
  · cases (Prod.mk.inj found).1
  · dsimp only at found
    split at found
    · cases (Prod.mk.inj found).1
    · rename_i long
      obtain ⟨_,left⟩ := Prod.mk.inj found
      rw [← left,List.length_drop,List.length_drop,Nat.sub_sub]
      exact ⟨Nat.le_of_not_lt long,rfl⟩

theorem waitingShort {src : Bytes} (waits : (decodeBuffer src).1 = none) : src.length < 65542 := by
  have small := fromBeBytesSmall (src.getD 5 0) (src.getD 6 0)
  have cases := waitingCases waits
  rw [frameHeaderSize] at cases
  omega

/- The first frame out of a buffer takes more than what stood there before the read: only
bytes of the read are left. -/
theorem firstFrameTakes {old read rest : Bytes} {frame : Frame} (waits : (decodeBuffer old).1 = none)
    (found : decodeBuffer (old ++ read) = (some frame,rest)) : rest.length < read.length := by
  obtain ⟨inside,left⟩ := decodedCases found
  rw [List.length_append] at inside left
  rcases waitingCases waits with noHeader | cut
  · omega
  · by_cases noHeader : old.length < frameHeaderSize
    · omega
    · have five : 5 < old.length := by
        rw [frameHeaderSize] at noHeader
        omega
      have six : 6 < old.length := by
        rw [frameHeaderSize] at noHeader
        omega
      rw [List.getD_append _ _ _ _ five,List.getD_append _ _ _ _ six] at inside left
      omega

end Decoder

section Runs

def JustRead (buf : Bytes) : Prop :=
  ∃ old read, buf = old ++ read ∧ (decodeBuffer old).1 = none ∧ read.length ≤ tunnelReadChunk

def Reassembling (r : Reader) : Prop :=
  match r.phase with
  | .selecting => (decodeBuffer r.buf).1 = none
  | .arrived => JustRead r.buf
  | .decoding => JustRead r.buf ∨ r.buf.length < tunnelReadChunk
  | .ended .reassemblyExceeded => False
  | .ended .protocolError => r.buf.length < tunnelReadChunk
  | .ended _ => True

theorem justReadShort {buf : Bytes} (here : JustRead buf) : buf.length < 65542 + 16384 := by
  obtain ⟨old,read,rfl,waits,few⟩ := here
  have short := waitingShort waits
  rw [tunnelReadChunk] at few
  rw [List.length_append]
  omega

theorem decodedShort {buf rest : Bytes} {frame : Frame} (here : JustRead buf ∨ buf.length < tunnelReadChunk)
    (found : decodeBuffer buf = (some frame,rest)) : rest.length < tunnelReadChunk := by
  rcases here with ⟨old,read,rfl,waits,few⟩ | few
  · exact Nat.lt_of_lt_of_le (firstFrameTakes waits found) few
  · have left := (decodedCases found).2
    omega

theorem selectKeeps {r s : Reader} {e : Event} (here : (decodeBuffer r.buf).1 = none) (at' : r.phase = .selecting)
    (moved : select r e = some s) : Reassembling s := by
  have stays : Reassembling r := by
    unfold Reassembling
    rw [at']
    exact here
  unfold select at moved
  split at moved
  · cases Option.some.inj moved
    trivial
  · split at moved
    · contradiction
    · split at moved
      · cases Option.some.inj moved
        trivial
      · cases Option.some.inj moved
        exact stays
  · split at moved
    · cases Option.some.inj moved
      exact stays
    · contradiction
  · cases Option.some.inj moved
    trivial
  · rename_i read
    split at moved
    · contradiction
    · rename_i few
      split at moved
      · cases Option.some.inj moved
        trivial
      · cases Option.some.inj moved
        exact ⟨r.buf,read,rfl,here,Nat.le_of_not_lt few⟩
  · contradiction

theorem stepKeeps {r s : Reader} {e : Event} (here : Reassembling r) (moved : step r e = some s) : Reassembling s := by
  unfold step at moved
  unfold Reassembling at here
  split at moved
  · rename_i at'
    rw [at'] at here
    exact selectKeeps here at' moved
  · rename_i at'
    rw [at'] at here
    have short := justReadShort here
    have below : ¬ r.buf.length > maxSessionReassemblyBytes := by
      rw [maxSessionReassemblyBytes]
      omega
    rw [if_neg below] at moved
    cases Option.some.inj moved
    exact Or.inl here
  · rename_i handled at'
    rw [at'] at here
    split at moved
    · rename_i buf found
      cases Option.some.inj moved
      have waits : (decodeBuffer r.buf).1 = none := by rw [found]
      have same := decodeBufferNone waits
      rw [found] at same
      cases same
      exact waits
    · rename_i frame buf found
      cases Option.some.inj moved
      have short := decodedShort here found
      cases handled
      · exact short
      · exact Or.inr short
  · contradiction

theorem reassemblyBounded (isClient postScriptOff : Bool) {r : Reader}
    (reach : Reach step Always (opened isClient postScriptOff) r) :
    (r.phase = .selecting ∨ r.phase = .ended .protocolError → r.buf.length < 65542) ∧
    (r.phase = .arrived → r.buf.length < 65542 + 16384 ∧ ¬ r.buf.length > maxSessionReassemblyBytes) ∧
    r.phase ≠ .ended .reassemblyExceeded := by
  have here : Reassembling r := reachInvariant (by rfl) (fun kept _ moved => stepKeeps kept moved) reach
  unfold Reassembling at here
  refine ⟨?_,?_,?_⟩
  · rintro (waiting | failed)
    · rw [waiting] at here
      exact waitingShort here
    · rw [failed] at here
      have few : r.buf.length < tunnelReadChunk := here
      rw [tunnelReadChunk] at few
      omega
  · intro arrived
    rw [arrived] at here
    have short := justReadShort here
    refine ⟨short,?_⟩
    rw [maxSessionReassemblyBytes]
    omega
  · intro exceeded
    rw [exceeded] at here
    exact here

theorem reassemblyBoundedOfCut : ∃ r, Reach step Always (opened false false) r ∧ r.phase = .selecting ∧ r.buf = [9] ∧
    r.buf.length < 65542 := by
  have ran : (checked step Always (opened false false) [.chunk (some [cmdPsh,0,0]),.lengthTest,.decode true,
      .idleTimeout false,.chunk (some [0,3,0,1,7,9]),.lengthTest,.decode true,.decode true]).any
        (fun r => decide (r.phase = .selecting ∧ r.buf = [9])) = true := by decide +kernel
  obtain ⟨r,reach,here⟩ := checkedReaches ran
  have both := of_decide_eq_true here
  exact ⟨r,reach,both.1,both.2,(reassemblyBounded false false reach).1 (.inl both.1)⟩

end Runs

end KanoTls.ReadLoop
