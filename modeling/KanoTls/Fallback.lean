import KanoTls.HelloName
import KanoTls.Machine
import KanoTls.TlsRecord

/-! A connection that does not authenticate is handed to the camouflage endpoint with the bytes
read so far, and relayed from there on. The labels are what the client sends, what each call on
a socket returns and the passing of time, so a run is one fragmentation with one failure. -/
namespace KanoTls.Fallback
open Uot Wire Patch Hello Text Tls

inductive FailureClass where
  | nonTlsFirstRecord | authFailed | handshakeTimeout | invalidFirstRecord | missingSni | sniMismatch | capacityLimited
  deriving DecidableEq, Repr

/- What `server_accept` is given; `reads` is the Noise responder. Without a PSK it returns before it
reads. -/
structure Config where
  hash : KeyedHash
  reads : Bytes → Bytes → Bool
  derivedPsks : List Bytes
  camouflageHost : Text

/- In milliseconds, from the accept. -/
structure InitialRecordDeadlines where
  zeroByte : Nat
  partialRecord : Nat
  deriving DecidableEq, Repr

def initialRecordDeadlines (now : Nat) : InitialRecordDeadlines := ⟨now + 2000,now + 5000⟩

def preAuthFallbackIdleTimeout : Nat := 300000

def eqIgnoreAsciiCase (a b : Text) : Bool := a.map Char.toLower == b.map Char.toLower

/- `copy_and_propagate_eof` towards the endpoint: `writing n done` is inside `write_all(&buf[..n])`. -/
inductive Forth where
  | reading
  | writing (n done : Nat)
  | shut
  | broken
  deriving DecidableEq, Repr

/- `relay_pre_auth_fallback`. Of the other direction only its writes and its end matter here. -/
structure Relay where
  buf : Bytes
  forth : Forth
  backEnded : Bool
  activity : Nat
  seen : Nat
  wakeAt : Nat
  deriving DecidableEq, Repr

/- `reading` is inside `read_into_with_deadline`, whose buffer is already resized; the type is
known once the header was read. -/
inductive Phase where
  | reading (typ : Option UInt8) (buf : Bytes) (filled : Nat)
  | judging (typ : UInt8) (rxBuf : Bytes)
  | served
  | fallback (reason : FailureClass) (initialData : Bytes)
  | forwarding (initialData : Bytes) (done : Nat)
  | relaying (r : Relay)
  | finished
  | closing
  deriving DecidableEq, Repr

/- `sent` is what the client has sent, `unread` what of it the server has not read, `written` what
the endpoint's connection has taken. `failed` is set when a call on either connection fails or
the endpoint's connection does not come up. -/
structure State where
  sent : Bytes
  unread : Bytes
  written : Bytes
  ended : Bool
  failed : Bool
  idled : Bool
  now : Nat
  deadlines : InitialRecordDeadlines
  phase : Phase
  deriving DecidableEq, Repr

inductive Opening where
  | peerGone | refused | unresolved | unconnected | untuned | connected
  deriving DecidableEq, Repr

inductive Label where
  | sends (chunk : Bytes)
  | finishes
  | passes (time : Nat)
  | reads (n : Nat)
  | eof
  | readFails (timedOut : Bool)
  | deadline
  | judges (fresh : Bytes → Candidate → Bool) (room : Bool)
  | opens (how : Opening)
  | writes (n : Nat)
  | writeFails
  | answers
  | answersEnd (clean : Bool)
  | joins
  | timer

/- `while filled < target`, for the body and for the header. -/
def bodyTurn (typ : UInt8) (buf : Bytes) (filled : Nat) : Phase :=
  if filled < buf.length then .reading (some typ) buf filled else .judging typ buf

def headerTurn (buf : Bytes) (filled : Nat) : Phase :=
  if filled < buf.length then .reading none buf filled
  else
    let typ := byteAt buf 0
    if typ ≠ 0x16 then .judging typ buf
    else
      let len := u16At buf 3
      -- the rest of an oversized record stays in the socket
      if len > maxTlsRecordPayloadLen then .judging typ buf
      else bodyTurn typ (buf ++ List.replicate len 0) buf.length

def turn : Option UInt8 → Bytes → Nat → Phase
  | none => headerTurn
  | some typ => bodyTurn typ

def start (now : Nat) : State where
  sent := []
  unread := []
  written := []
  ended := false
  failed := false
  idled := false
  now := now
  deadlines := initialRecordDeadlines now
  phase := headerTurn (List.replicate 5 0) 0

/- The checks of `server_accept` on a first record; `room` is a permit for the session. -/
def judge (cfg : Config) (fresh : Bytes → Candidate → Bool) (room : Bool) (typ : UInt8) (rxBuf : Bytes) : Option FailureClass :=
  if typ ≠ 0x16 then some .nonTlsFirstRecord
  else
    match authenticateClientHello cfg.hash cfg.reads fresh rxBuf cfg.derivedPsks with
    | none => some .authFailed
    | some _ =>
      match extractClientHelloServerName rxBuf with
      | none => some .missingSni
      | some serverName =>
        if eqIgnoreAsciiCase serverName cfg.camouflageHost = false then some .sniMismatch
        else if room then none
        else some .capacityLimited

def startRelay (now : Nat) : Relay := ⟨List.replicate 16384 0,.reading,false,0,0,now + preAuthFallbackIdleTimeout⟩

def readStep (s : State) (n : Nat) : Option State :=
  if 0 < n ∧ n ≤ s.unread.length then
    let taken := { s with unread := s.unread.drop n }
    match s.phase with
    | .reading typ buf filled =>
      if filled + n ≤ buf.length then
        some { taken with phase := turn typ (put buf filled (s.unread.take n)) (filled + n) }
      else none
    | .relaying r =>
      if r.forth = .reading ∧ n ≤ r.buf.length then
        some { taken with phase := .relaying { r with buf := put r.buf 0 (s.unread.take n), forth := .writing n 0 } }
      else none
    -- `emit_indistinguishable_close` drains
    | .closing => some taken
    | _ => none
  else none

/- After an error a read may return 0 whatever the client had sent. -/
def eofStep (s : State) : Option State :=
  if s.failed ∨ (s.unread = [] ∧ s.ended) then
    match s.phase with
    | .reading _ buf filled => some { s with phase := .fallback .invalidFirstRecord (buf.take filled) }
    | .relaying r => if r.forth = .reading then some { s with phase := .relaying { r with forth := .shut } } else none
    | _ => none
  else none

def readFailsStep (s : State) (timedOut : Bool) : Option State :=
  let failed := { s with failed := true }
  match s.phase with
  | .reading _ buf filled =>
    some { failed with phase := .fallback (if timedOut then .handshakeTimeout else .invalidFirstRecord) (buf.take filled) }
  | .relaying r => if r.forth = .reading then some { failed with phase := .relaying { r with forth := .broken } } else none
  | _ => none

def deadlineStep (s : State) : Option State :=
  match s.phase with
  | .reading _ buf filled =>
    if (if filled = 0 then s.deadlines.zeroByte else s.deadlines.partialRecord) ≤ s.now then
      some { s with phase := .fallback .handshakeTimeout (buf.take filled) }
    else none
  | _ => none

def judgeStep (cfg : Config) (s : State) (fresh : Bytes → Candidate → Bool) (room : Bool) : Option State :=
  match s.phase with
  | .judging typ rxBuf =>
    match judge cfg fresh room typ rxBuf with
    | none => some { s with phase := .served }
    | some reason => some { s with phase := .fallback reason rxBuf }
  | _ => none

def openStep (s : State) (how : Opening) : Option State :=
  match s.phase with
  | .fallback _ initialData =>
    if how = .connected then
      some { s with phase := if initialData = [] then .relaying (startRelay s.now) else .forwarding initialData 0 }
    else some { s with failed := true, phase := .closing }
  | _ => none

/- One write of a `write_all`, which takes at least a byte. -/
def writeStep (s : State) (n : Nat) : Option State :=
  if 0 < n then
    match s.phase with
    | .forwarding initialData done =>
      if done + n ≤ initialData.length then
        some { s with
          written := s.written ++ slice initialData done (done + n)
          phase := if done + n < initialData.length then .forwarding initialData (done + n) else .relaying (startRelay s.now) }
      else none
    | .relaying r =>
      match r.forth with
      | .writing m done =>
        if done + n ≤ m then
          some { s with
            written := s.written ++ slice r.buf done (done + n)
            phase := .relaying (if done + n < m then { r with forth := .writing m (done + n) }
              else { r with forth := .reading, activity := r.activity + 1 }) }
        else none
      | _ => none
    | _ => none
  else none

def writeFailsStep (s : State) : Option State :=
  let failed := { s with failed := true }
  match s.phase with
  | .forwarding _ _ => some { failed with phase := .closing }
  | .relaying r =>
    match r.forth with
    | .writing _ _ => some { failed with phase := .relaying { r with forth := .broken } }
    | _ => none
  | _ => none

def relayStep (s : State) (change : Relay → Option State) : Option State :=
  match s.phase with
  | .relaying r => change r
  | _ => none

/- `tokio::time::sleep` came first in the `select!`. -/
def timerStep (s : State) (r : Relay) : Option State :=
  if r.wakeAt ≤ s.now then
    if r.activity = r.seen then some { s with idled := true, phase := .finished }
    else some { s with phase := .relaying { r with seen := r.activity, wakeAt := s.now + preAuthFallbackIdleTimeout } }
  else none

def step (cfg : Config) (s : State) : Label → Option State
  | .sends chunk => if s.ended then none else some { s with sent := s.sent ++ chunk, unread := s.unread ++ chunk }
  | .finishes => some { s with ended := true }
  | .passes time => some { s with now := s.now + time }
  | .reads n => readStep s n
  | .eof => eofStep s
  | .readFails timedOut => readFailsStep s timedOut
  | .deadline => deadlineStep s
  | .judges fresh room => judgeStep cfg s fresh room
  | .opens how => openStep s how
  | .writes n => writeStep s n
  | .writeFails => writeFailsStep s
  | .answers => relayStep s (fun r =>
    if r.backEnded then none else some { s with phase := .relaying { r with activity := r.activity + 1 } })
  | .answersEnd clean => relayStep s (fun r =>
    if r.backEnded then none
    else some { s with failed := s.failed || !clean, phase := .relaying { r with backEnded := true } })
  | .joins => relayStep s (fun r =>
    if r.backEnded ∧ (r.forth = .shut ∨ r.forth = .broken) then some { s with phase := .finished } else none)
  | .timer => relayStep s (timerStep s)

end KanoTls.Fallback
