import KanoTls.CamouflageReplay
import KanoTls.Duplex
import KanoTls.Fallback
import KanoTls.Flight3

/-! The handshake of the tunnel from end to end: `client_tunnel` and `server_accept`, joined by a
connection that splits what they write in any way. The client hides its Noise message in a
ClientHello, the server its answer in a replayed flight, and a third flight closes it. No
deadline passes: those of the first record, of the client's reads and of the whole handshake
are left out, and with them what a side does when it gives up. -/
namespace KanoTls.Handshake
open Duplex Wire Patch Hello Tls Camouflage Flight3 Shaper
open Fallback (FailureClass judge)
open Record (Noise recordHeader bump)

/- The library behind both ends, with what it draws: a message either way under a key that both
know. `accept` builds the responder and has it read a message without payload; `respond` and
`finish` leave the keys of the transport, of which `cipher` is the client's direction. -/
structure Snow (I R K : Type) where
  initiate (derivedPsk ephemeral : Bytes) : Option (Bytes × I)
  accept (derivedPsk message : Bytes) : Option R
  respond (responder : R) (ephemeral payload : Bytes) : Option (Bytes × K)
  finish (initiator : I) (reply : Bytes) : Option (Bytes × K)
  cipher (keys : K) : Noise

variable {I R K : Type}

/- The initiator takes whatever the responder answers, and both end up with the same keys. -/
def Snow.Hears (snow : Snow I R K) (initiator : I) (responder : R) : Prop :=
  ∀ {ephemeral payload reply keys}, snow.respond responder ephemeral payload = some (reply,keys) →
    reply.length = payload.length + noiseResponseOverheadLen ∧ snow.finish initiator reply = some (payload,keys)

/- What the pattern promises to two ends that know the same key. -/
structure Snow.Agrees (snow : Snow I R K) : Prop where
  nonzero : ∀ {derivedPsk ephemeral message initiator}, snow.initiate derivedPsk ephemeral = some (message,initiator) →
    message.take 32 ≠ List.replicate 32 0
  hears : ∀ {derivedPsk ephemeral message initiator}, snow.initiate derivedPsk ephemeral = some (message,initiator) →
    ∃ responder, snow.accept derivedPsk message = some responder ∧ snow.Hears initiator responder
  undoes : ∀ keys, (snow.cipher keys).Undoes
  seals : ∀ keys {nonce}, nonce < 2 → ∀ plain, (snow.cipher keys).encrypt nonce plain ≠ none

section Client

inductive ClientError where
  | initiator | initLength (length : Nat) | template
  | tunnel (error : TunnelConnectError)
  | transport | finishedEncrypt | finishedLength (length : Nat) | h2Encrypt | h2Length (length : Nat)
  deriving DecidableEq, Repr

abbrev Client := Party UInt8 ClientError

def recordBody (failed : ReadError → TunnelConnectError) (limits : TlsRecordReadLimits) (state : TlsRecordReadState) (header : Bytes) :
    Client (UInt8 × Bytes × TlsRecordReadState) :=
  if u16At header 3 > maxTlsRecordPayloadLen then .fail (.tunnel (failed .tooLarge))
  else if state.bytes + (5 + u16At header 3) > limits.maxBytes then .fail (.tunnel (failed .byteCount))
  else .read (u16At header 3) (.tunnel (failed .ended)) (fun body =>
    .done (byteAt header 0,header ++ body,⟨state.records + 1,state.bytes + (5 + u16At header 3)⟩))

def readTlsRecordBounded (failed : ReadError → TunnelConnectError) (limits : TlsRecordReadLimits) (state : TlsRecordReadState) :
    Client (UInt8 × Bytes × TlsRecordReadState) :=
  if state.records ≥ limits.maxRecords then .fail (.tunnel (failed .recordCount))
  else .read 5 (.tunnel (failed .ended)) (recordBody failed limits state)

def unmasked (mask record : Bytes) : Bytes := xorInPlace (record.drop 5) mask

def awaitTurn (finish : Bytes → Option (Bytes × K)) (mask : Bytes) (goOn : ClientLoop → Client (Nat × K))
    (got : UInt8 × Bytes × TlsRecordReadState) (s : ClientLoop) : Client (Nat × K) :=
  match clientRecord (fun b => (finish b).map Prod.fst) mask got.1 got.2.1 { s with readState := got.2.2 } with
  | .more s => goOn s
  | .response ghostCount =>
    match finish (unmasked mask got.2.1) with
    | some (_,keys) => .done (ghostCount,keys)
    | none => .fail .transport
  | .fail error => .fail (.tunnel error)

def awaitResponse (finish : Bytes → Option (Bytes × K)) (mask : Bytes) : Nat → ClientLoop → Client (Nat × K)
  | 0,_ => .fail (.tunnel (.read .recordCount))
  | turns+1,s => do
    let got ← readTlsRecordBounded .read handshakeLimits s.readState
    awaitTurn finish mask (awaitResponse finish mask turns) got s

def drainGhosts (limits : TlsRecordReadLimits) : Nat → Nat → TlsRecordReadState → Client Unit
  | 0,_,_ => .done ()
  | count+1,i,state => do
    let got ← readTlsRecordBounded (.ghostRead i) limits state
    if got.1 ≠ 0x17 then .fail (.tunnel (.ghostType i got.1)) else drainGhosts limits count (i + 1) got.2.2

def send {ε : Type} (data : Bytes) : Party UInt8 ε Unit := .write data (.done ())

def sendH2Ghost (noise : Noise) (nonce contextHash : Nat) : Client Nat :=
  match noise.encrypt nonce (buildH2GhostPlaintext contextHash) with
  | none => .fail .h2Encrypt
  | some h2 =>
    if h2.length ≠ (buildH2GhostPlaintext contextHash).length + aeadTagLen then .fail (.h2Length h2.length)
    else do
      send (recordHeader h2.length ++ h2)
      .done (bump nonce)

/- The first segment is written before the second is encrypted. -/
def sendClientFlight3Ghost (noise : Noise) (nonce contextHash : Nat) : Client Nat :=
  match noise.encrypt nonce (List.replicate flight3FinishedPlaintextLen 0) with
  | none => .fail .finishedEncrypt
  | some finished =>
    if finished.length ≠ flight3FinishedPlaintextLen + aeadTagLen then .fail (.finishedLength finished.length)
    else do
      send (flight3CcsRecord ++ (recordHeader finished.length ++ finished))
      sendH2Ghost noise (bump nonce) contextHash

structure ClientSide where
  template : ClientHelloTemplate
  derivedPsk : Bytes
  ephemeral : Bytes
  counter : Nat
  draws : Draws
  contextHash : Nat

def clientReply (hash : KeyedHash) (snow : Snow I R K) (c : ClientSide) (message : Bytes) (initiator : I) : Client (K × Nat) := do
  let mask := deriveNoiseEMask hash c.derivedPsk (slice message 32 48)
  let got ← awaitResponse (snow.finish initiator) mask (clientHandshakeMaxRecords + 1) {}
  drainGhosts ⟨got.1,got.1 * (5 + maxTlsRecordPayloadLen)⟩ got.1 0 {}
  let nonce ← sendClientFlight3Ghost (snow.cipher got.2) 0 c.contextHash
  .done (got.2,nonce)

def clientTunnel (hash : KeyedHash) (snow : Snow I R K) (c : ClientSide) : Client (K × Nat) :=
  match snow.initiate c.derivedPsk c.ephemeral with
  | none => .fail .initiator
  | some (message,initiator) =>
    if message.length ≠ 48 then .fail (.initLength message.length)
    else
      match instantiate hash c.template c.derivedPsk message c.counter c.draws with
      | none => .fail .template
      | some hello => do
        send hello
        clientReply hash snow c message initiator

end Client

section Server

inductive ServerError where
  | initialRecord | counterCommit | responder | sampling | flight
  | flight3 (error : Flight3.Error)
  deriving DecidableEq, Repr

abbrev Server := Party UInt8 ServerError

/- `forwarded` hands the connection to the endpoint, with the bytes read so far. -/
inductive Accepted (K : Type) where
  | forwarded (reason : FailureClass) (rxBuf : Bytes)
  | established (derivedPsk : Bytes) (keys : K) (nonce : Nat)
  deriving DecidableEq, Repr

/- What `server_accept` is given, finds in the tables and draws: `fresh` are the two replay checks,
`room` a permit for the session, `commits` the commit of the counter and `profile` the
flight that was fetched. -/
structure ServerSide where
  derivedPsks : List Bytes
  camouflageHost : Text.Text
  fresh : Bytes → Candidate → Bool
  room : Bool
  commits : Bool
  profile : Option CamouflageProfile
  ephemeral : Bytes
  draws : ServerDraws

def initialBody (header : Bytes) : Server (UInt8 × Bytes) :=
  if byteAt header 0 ≠ 0x16 then .done (byteAt header 0,header)
  else if u16At header 3 > maxTlsRecordPayloadLen then .done (byteAt header 0,header)
  else .read (u16At header 3) .initialRecord (fun body => .done (byteAt header 0,header ++ body))

def readInitialClientRecord : Server (UInt8 × Bytes) := .read 5 .initialRecord initialBody

def significantReplayGapUs : Nat := 5000

def bursts (p : CamouflageProfile) : Nat → Bytes → List TlsRecord → List Bytes
  | _,burst,[] => if burst = [] then [] else [burst]
  | idx,burst,record::rest =>
    if replayGapBeforeUs p idx ≥ significantReplayGapUs then
      (if burst = [] then [] else [burst]) ++ bursts p (idx + 1) record.bytes rest
    else bursts p (idx + 1) (burst ++ record.bytes) rest

def writeAll : List Bytes → Server Unit
  | [] => .done ()
  | burst::rest => do
    send burst
    writeAll rest

def checked {α : Type} : Except Flight3.Error α → Server α
  | .error error => .fail (.flight3 error)
  | .ok result => .done result

def readFlight3 (n : Nat) : Server Bytes := .read n (.flight3 (.read .unexpectedEof)) .done

def consumeClientFlight3Ghost (noise : Noise) (nonce : Nat) : Server Nat :=
  if maxFlight3TotalWireLen < minimumNeeded then .fail (.flight3 .outOfRange)
  else do
    let wire ← readFlight3 minimumNeeded
    let nonce ← checked (checkFinished noise nonce wire)
    let h2PayloadLen ← checked (checkH2Header wire)
    let more ← readFlight3 (h2Start + (tlsRecordHeaderLen + h2PayloadLen) - minimumNeeded)
    checked (checkH2 noise nonce (wire ++ more) (h2Start + (tlsRecordHeaderLen + h2PayloadLen)))

def responsePayload (p : CamouflageProfile) : Option Bytes :=
  match remaining17Sizes p.appDataSizes with
  | [] => none
  | firstSize::ghosts =>
    some (put (List.replicate (firstSize - noiseResponseOverheadLen) 0) 0 (makeControlPayload ghosts.length))

/- The keys that the responder ends up with are those of the response that it wrote. -/
def responseKeys (snow : Snow I R K) (side : ServerSide) (responder : R) (p : CamouflageProfile) : Option K := do
  let payload ← responsePayload p
  let (_,keys) ← snow.respond responder side.ephemeral payload
  some keys

def syntheticFlight (hash : KeyedHash) (snow : Snow I R K) (side : ServerSide) (rxBuf derivedPsk noiseTag : Bytes) (responder : R)
    (p : CamouflageProfile) : Option (Bytes × List TlsRecord) :=
  establishSyntheticCamouflageTunnel (fun plain => (snow.respond responder side.ephemeral plain).map Prod.fst)
    (deriveNoiseEMask hash derivedPsk noiseTag) rxBuf side.draws p

def replay (snow : Snow I R K) (derivedPsk : Bytes) (p : CamouflageProfile) : Option (Bytes × List TlsRecord) → Option K → Server (Accepted K)
  | some (serverRecords,appRecords),some keys => do
    writeAll (bursts p 0 serverRecords appRecords)
    let nonce ← consumeClientFlight3Ghost (snow.cipher keys) 0
    .done (.established derivedPsk keys nonce)
  | _,_ => .fail .flight

/- Behind the authentication; `found` holds the message of the initiator in two parts. -/
def establish (hash : KeyedHash) (snow : Snow I R K) (side : ServerSide) (rxBuf derivedPsk : Bytes) (found : Candidate) :
    Server (Accepted K) :=
  if side.commits = false then .fail .counterCommit
  else
    match side.profile with
    | none => .fail .sampling
    | some p =>
      match snow.accept derivedPsk (found.recoveredE ++ found.noiseTag) with
      | none => .fail .responder
      | some responder =>
        replay snow derivedPsk p (syntheticFlight hash snow side rxBuf derivedPsk found.noiseTag responder p)
          (responseKeys snow side responder p)

def classify (hash : KeyedHash) (snow : Snow I R K) (side : ServerSide) (typ : UInt8) (rxBuf : Bytes) : Option FailureClass :=
  judge ⟨hash,fun derivedPsk message => (snow.accept derivedPsk message).isSome,side.derivedPsks,side.camouflageHost⟩ side.fresh
    side.room typ rxBuf

def authenticated (hash : KeyedHash) (snow : Snow I R K) (side : ServerSide) (rxBuf : Bytes) : Option (Bytes × Candidate) :=
  authenticateClientHello hash (fun derivedPsk message => (snow.accept derivedPsk message).isSome) side.fresh rxBuf side.derivedPsks

def judged (hash : KeyedHash) (snow : Snow I R K) (side : ServerSide) (got : UInt8 × Bytes) : Server (Accepted K) :=
  match classify hash snow side got.1 got.2,authenticated hash snow side got.2 with
  | none,some (derivedPsk,found) => establish hash snow side got.2 derivedPsk found
  | some reason,_ => .done (.forwarded reason got.2)
  | none,none => .done (.forwarded .authFailed got.2)

def serverAccept (hash : KeyedHash) (snow : Snow I R K) (side : ServerSide) : Server (Accepted K) :=
  readInitialClientRecord >>= judged hash snow side

end Server

end KanoTls.Handshake
