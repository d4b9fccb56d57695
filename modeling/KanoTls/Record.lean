import KanoTls.Frame
import KanoTls.Machine
import KanoTls.Shaper

/-! The record stream of `SnowyStream`: the write half seals blocks into 0x17 records,
TCP carries the bytes, and `poll_read` of the read half takes records apart again. Noise
is a parameter; what the socket takes, hands over and when is the environment's. -/
namespace KanoTls.Record
open Uot Wire Shaper

def maxTlsRecordPayloadLen : Nat := 16384 + 256
def innerContentTypeAppData : UInt8 := 0x17
def innerContentTypeAlert : UInt8 := 0x15

/- `StatelessTransportState`: one direction, the nonce passed in. -/
structure Noise where
  encrypt : Nat → Bytes → Option Bytes
  decrypt : Nat → Bytes → Option Bytes

structure Noise.Undoes (noise : Noise) : Prop where
  tagged : ∀ {n plain cipher}, noise.encrypt n plain = some cipher → cipher.length = plain.length + aeadTagLen
  undone : ∀ {n plain cipher}, noise.encrypt n plain = some cipher → noise.decrypt n cipher = some plain

/- `saturating_add(1)` on a u64. -/
def bump (n : Nat) : Nat := min (n + 1) (2^64 - 1)

structure WriteHalf where
  nonce : Nat := 0
  buffer : Bytes := []
  offset : Nat := 0
  controlFrameCount : Nat := 0
  closed : Bool := false
  closeNotifyWritten : Bool := false
  deriving DecidableEq, Repr

def recordHeader (len : Nat) : Bytes := 0x17::0x03::0x03::toBeBytes len

def block (payload : Bytes) (targetPlaintextLen : Nat) : Bytes :=
  toBeBytes payload.length ++ payload ++
    List.replicate (targetPlaintextLen - 1 - (blockLenPrefixSize + payload.length)) 0 ++ [innerContentTypeAppData]

/- `none` is a failed assertion; `false` is the error of the cipher, which leaves the
zeros of the resize behind. -/
def encryptVariableBlock (noise : Noise) (w : WriteHalf) (payload : Bytes) (targetPlaintextLen : Nat) :
    Option (Bool × WriteHalf) :=
  if targetPlaintextLen < payload.length + blockLenPrefixSize + innerContentTypeLen then none
  else if targetPlaintextLen > blockPlaintextSize then none
  else
    match noise.encrypt w.nonce (block payload targetPlaintextLen) with
    | none => some (false,{ w with
        buffer := w.buffer ++ List.replicate (tlsRecordHeaderLen + (targetPlaintextLen + aeadTagLen)) 0 })
    | some cipher => some (true,{ w with
        nonce := bump w.nonce
        buffer := w.buffer ++ (recordHeader cipher.length ++ cipher) })

def targetPlaintext (payload : Bytes) (targetWireLen : Nat) : Nat :=
  min (max (targetWireLen - (tlsRecordHeaderLen + aeadTagLen))
    (payload.length + blockLenPrefixSize + innerContentTypeLen)) blockPlaintextSize

def prepareDataRecord (noise : Noise) (w : WriteHalf) (payload : Bytes) (targetWireLen : Nat) :
    Option (Bool × WriteHalf) :=
  encryptVariableBlock noise w payload (targetPlaintext payload targetWireLen)

def prepareControlRecord (noise : Noise) (w : WriteHalf) (payload : Bytes) (targetWireLen : Nat) :
    Option (Bool × WriteHalf) :=
  encryptVariableBlock noise { w with controlFrameCount := bump w.controlFrameCount } payload
    (targetPlaintext payload targetWireLen)

def closeNotify : Bytes := [0x01,0x00,innerContentTypeAlert]
def fatalAlert : Bytes := [0x02,0x14,innerContentTypeAlert]

/- `poll_shutdown` once its first flush is done. -/
def writeCloseNotify (noise : Noise) (w : WriteHalf) : WriteHalf :=
  if w.closeNotifyWritten ∨ w.closed then w
  else
    match noise.encrypt w.nonce closeNotify with
    | none => { w with closeNotifyWritten := true, closed := true }
    | some cipher => { w with
        nonce := bump w.nonce
        buffer := w.buffer ++ (recordHeader cipher.length ++ cipher)
        closeNotifyWritten := true
        closed := true }

/- One `Ready(n)` of the socket in `try_flush_write_buffer`. -/
def flushed (w : WriteHalf) (n : Nat) : WriteHalf :=
  if w.offset + n < w.buffer.length then { w with offset := w.offset + n }
  else { w with offset := 0, buffer := [] }

structure ReadHalf where
  nonce : Nat := 0
  readBufInner : Bytes := []
  readOffset : Nat := 0
  tlsRxBuf : Bytes := []
  tlsRxOffset : Nat := 0
  deriving DecidableEq, Repr

def ReadHalf.unread (r : ReadHalf) : Bytes := r.readBufInner.drop r.readOffset
def ReadHalf.received (r : ReadHalf) : Bytes := r.tlsRxBuf.drop r.tlsRxOffset

inductive Parsed where
  | tooLarge
  | partly
  | whole (total : Nat) (frameType : UInt8)
  deriving DecidableEq, Repr

def parseTlsRecord (buf : Bytes) : Parsed :=
  if buf.length < tlsRecordHeaderLen then .partly
  else
    let length := fromBeBytes (buf.getD 3 0) (buf.getD 4 0)
    if length > maxTlsRecordPayloadLen then .tooLarge
    else if buf.length < tlsRecordHeaderLen + length then .partly
    else .whole (tlsRecordHeaderLen + length) (buf.getD 0 0)

def dataRange (plain : Bytes) : Bytes :=
  if plain.length ≥ blockLenPrefixSize + innerContentTypeLen then
    let prefixDataLen := fromBeBytes (plain.getD 0 0) (plain.getD 1 0)
    (plain.drop blockLenPrefixSize).take
      (min prefixDataLen (plain.length - blockLenPrefixSize - innerContentTypeLen))
  else plain

/- Where a `poll_read` stands: at the head of `'outer`, at the head of the inner loop, or
at the socket. -/
inductive Pc where
  | outer
  | inner
  | socket
  deriving DecidableEq, Repr

/- A `poll_read` under way: what it has put into the caller's buffer and the room left. -/
structure Call where
  pc : Pc := .outer
  filled : Bytes := []
  remaining : Nat
  progress : Bool := false
  deriving DecidableEq, Repr

inductive Outcome where
  | ready (bytes : Bytes)
  | pending
  | error
  deriving DecidableEq, Repr

/- How a turn of the loop ends: it goes on, or the call returns, with `closed` stored or
not. -/
inductive Turn where
  | go (call : Call)
  | back (outcome : Outcome) (closes : Bool)
  deriving DecidableEq, Repr

def consumeFrame (r : ReadHalf) (frameEnd : Nat) : ReadHalf :=
  if frameEnd = r.tlsRxBuf.length then { r with tlsRxOffset := 0, tlsRxBuf := [] }
  else { r with tlsRxOffset := frameEnd }

def putData (r : ReadHalf) (c : Call) (data : Bytes) : ReadHalf × Call :=
  if data = [] then (r,c)
  else if r.readOffset ≥ r.readBufInner.length ∧ c.remaining > 0 then
    let n := min data.length c.remaining
    ({ r with readBufInner := r.readBufInner ++ data.drop n },
      { c with filled := c.filled ++ data.take n, remaining := c.remaining - n, progress := true })
  else ({ r with readBufInner := r.readBufInner ++ data },c)

def outerTurn (r : ReadHalf) (c : Call) : ReadHalf × Turn :=
  if r.readOffset < r.readBufInner.length then
    let n := min (r.readBufInner.length - r.readOffset) c.remaining
    let offset := r.readOffset + n
    let c := { c with
      pc := .inner
      filled := c.filled ++ r.unread.take n
      remaining := c.remaining - n
      progress := true }
    let r := if offset ≥ r.readBufInner.length then { r with readOffset := 0, readBufInner := [] }
      else { r with readOffset := offset }
    if c.remaining = 0 then (r,.back (.ready c.filled) false) else (r,.go c)
  else (r,.go { c with pc := .inner })

def innerTurn (noise : Noise) (r : ReadHalf) (c : Call) : ReadHalf × Turn :=
  match parseTlsRecord r.received with
  | .tooLarge => (r,.back .error false)
  | .partly => if c.progress then (r,.back (.ready c.filled) false) else (r,.go { c with pc := .socket })
  | .whole consumed frameType =>
    let frameEnd := r.tlsRxOffset + consumed
    if frameType = 0x17 ∧ tlsRecordHeaderLen < consumed then
      match noise.decrypt r.nonce ((r.received.take consumed).drop tlsRecordHeaderLen) with
      | none => (r,.back .error true)
      | some plain =>
        let r := { r with nonce := bump r.nonce }
        if plain = closeNotify ∨ plain = fatalAlert then (consumeFrame r frameEnd,.back (.ready c.filled) true)
        else
          let put := putData r c (dataRange plain)
          let r := consumeFrame put.1 frameEnd
          if plain.length > 0 then (r,.go { put.2 with pc := .outer }) else (r,.go put.2)
    else if frameType = 0x15 then (r,.back (.ready c.filled) true)
    else (consumeFrame r frameEnd,.go c)

def socketTurn (r : ReadHalf) (bytes : Bytes) : ReadHalf :=
  { r with tlsRxBuf := r.received ++ bytes, tlsRxOffset := 0 }

section Format

/- A sealed record: a block with its payload, or the close_notify. -/
inductive Rec where
  | data (payload : Bytes) (target : Nat) (fits : payload.length + blockLenPrefixSize + innerContentTypeLen ≤ target)
      (small : target ≤ blockPlaintextSize)
  | alert

def Rec.plain : Rec → Bytes
  | .data payload target _ _ => block payload target
  | .alert => closeNotify

/- The records in `bytes`, sealed with the nonces from the first to the last number. -/
inductive Stream (noise : Noise) : Nat → List Rec → Bytes → Nat → Prop where
  | nil (n : Nat) : Stream noise n [] [] n
  | cons {n m rec rest cipher bytes} (sealed : noise.encrypt n (Rec.plain rec) = some cipher)
      (later : Stream noise (bump n) rest bytes m) :
      Stream noise n (rec::rest) (recordHeader cipher.length ++ (cipher ++ bytes)) m

theorem streamSnoc {noise : Noise} {n m : Nat} {recs : List Rec} {bytes cipher : Bytes} {rec : Rec}
    (stream : Stream noise n recs bytes m) (sealed : noise.encrypt m rec.plain = some cipher) :
    Stream noise n (recs ++ [rec]) (bytes ++ (recordHeader cipher.length ++ cipher)) (bump m) := by
  induction stream with
  | nil n =>
    have one := Stream.cons sealed (.nil (bump n))
    rwa [List.append_nil] at one
  | cons first later ih =>
    have more := Stream.cons first (ih sealed)
    rwa [← List.append_assoc,← List.append_assoc,List.append_assoc (recordHeader _)] at more

theorem blockLength {payload : Bytes} {target : Nat}
    (fits : payload.length + blockLenPrefixSize + innerContentTypeLen ≤ target) : (block payload target).length = target := by
  simp only [block,toBeBytes,List.length_append,List.length_cons,List.length_nil,List.length_replicate]
  simp only [blockLenPrefixSize,innerContentTypeLen] at fits ⊢
  omega

theorem plainSmall (rec : Rec) : 0 < rec.plain.length ∧ rec.plain.length ≤ blockPlaintextSize := by
  cases rec with
  | data payload target fits small =>
    rw [Rec.plain,blockLength fits]
    simp only [blockLenPrefixSize,innerContentTypeLen] at fits
    exact ⟨by omega,small⟩
  | alert => decide

theorem blockNoAlert (payload : Bytes) (target : Nat) : block payload target ≠ closeNotify ∧
    block payload target ≠ fatalAlert := by
  have last : (block payload target).getLast? = some innerContentTypeAppData := List.getLast?_concat
  constructor <;>
  · intro same
    rw [same] at last
    revert last
    decide

theorem blockData {payload : Bytes} {target : Nat}
    (fits : payload.length + blockLenPrefixSize + innerContentTypeLen ≤ target) (small : target ≤ blockPlaintextSize) :
    dataRange (block payload target) = payload := by
  have long := blockLength fits
  simp only [blockLenPrefixSize,innerContentTypeLen,blockPlaintextSize] at fits small
  have len : fromBeBytes ((block payload target).getD 0 0) ((block payload target).getD 1 0) = payload.length :=
    fromToBeBytes (by omega)
  unfold dataRange
  rw [if_pos (by rw [long,blockLenPrefixSize,innerContentTypeLen]; omega),len,long]
  dsimp only
  have room : min payload.length (target - blockLenPrefixSize - innerContentTypeLen) = payload.length := by
    rw [blockLenPrefixSize,innerContentTypeLen]
    omega
  rw [room]
  have body : (block payload target).drop blockLenPrefixSize =
      payload ++ (List.replicate (target - 1 - (blockLenPrefixSize + payload.length)) 0 ++ [innerContentTypeAppData]) := by
    simp [block,toBeBytes,blockLenPrefixSize]
  rw [body,List.take_left]

theorem parseRecord {front back cipher tail : Bytes} (whole : front ++ back = recordHeader cipher.length ++ (cipher ++ tail))
    (small : cipher.length ≤ maxTlsRecordPayloadLen) :
    (front.length < tlsRecordHeaderLen + cipher.length ∧ parseTlsRecord front = .partly) ∨
    (∃ more, front = recordHeader cipher.length ++ (cipher ++ more) ∧ more ++ back = tail ∧
      parseTlsRecord front = .whole (tlsRecordHeaderLen + cipher.length) 0x17) := by
  have header : (recordHeader cipher.length).length = tlsRecordHeaderLen := rfl
  by_cases five : front.length < tlsRecordHeaderLen
  · left
    refine ⟨by omega,?_⟩
    rw [parseTlsRecord,if_pos five]
  · obtain ⟨body,rfl,rest⟩ : ∃ body, front = recordHeader cipher.length ++ body ∧ body ++ back = cipher ++ tail := by
      rcases List.append_eq_append_iff.mp whole with ⟨gap,shape,split⟩ | ⟨gap,shape,split⟩
      · have : gap = [] := by
          rw [← List.length_eq_zero_iff]
          have := congrArg List.length shape
          rw [List.length_append,header] at this
          omega
        subst this
        refine ⟨[],?_,?_⟩
        · rw [shape,List.append_nil]
          exact (List.append_nil _).symm
        · exact split.symm ▸ rfl
      · exact ⟨gap,shape,split.symm⟩
    have len : fromBeBytes ((recordHeader cipher.length ++ body).getD 3 0) ((recordHeader cipher.length ++ body).getD 4 0) =
        cipher.length := by
      rw [maxTlsRecordPayloadLen] at small
      exact fromToBeBytes (by omega)
    have parsed : parseTlsRecord (recordHeader cipher.length ++ body) =
        if body.length < cipher.length then .partly else .whole (tlsRecordHeaderLen + cipher.length) 0x17 := by
      unfold parseTlsRecord
      rw [if_neg five]
      dsimp only
      rw [len,if_neg (Nat.not_lt.mpr small),List.length_append,header]
      by_cases short : body.length < cipher.length
      · rw [if_pos short,if_pos (by omega)]
      · rw [if_neg short,if_neg (by omega)]
        rfl
    by_cases short : body.length < cipher.length
    · left
      rw [parsed,if_pos short,List.length_append,header]
      exact ⟨by omega,rfl⟩
    · right
      rcases List.append_eq_append_iff.mp rest with ⟨gap,shape,split⟩ | ⟨more,shape,split⟩
      · have : gap = [] := by
          rw [← List.length_eq_zero_iff]
          have := congrArg List.length shape
          rw [List.length_append] at this
          omega
        subst this
        rw [List.append_nil] at shape
        rw [parsed,if_neg short,shape]
        exact ⟨[],by rw [List.append_nil],split.symm ▸ rfl,rfl⟩
      · rw [parsed,if_neg short]
        exact ⟨more,by rw [shape],split.symm,rfl⟩

end Format

end KanoTls.Record
