import KanoTls.Camouflage

/-! The client's side of the flight: `client_tunnel` reads records until one of them is the
Noise response, and drains the ghost records behind it. -/
namespace KanoTls.Camouflage
open Uot Wire Patch Hello Tls

def clientHandshakeMaxRecords : Nat := 64
def clientHandshakeMaxBytes : Nat := 256 * 1024
def clientHandshakeMaxCcsRecords : Nat := 1
def clientHandshakeMaxHandshakeRecords : Nat := 8
def clientHandshakeMaxAppDataProbes : Nat := 8

inductive TunnelConnectError where
  | read (e : ReadError)
  | tooManyHandshakeRecords
  | tooManyCcsRecords
  | noResponse
  | appDataBeforeServerHello
  | unexpectedType (typ : UInt8)
  | ghostRead (i : Nat) (e : ReadError)
  | ghostType (i : Nat) (typ : UInt8)
  deriving DecidableEq, Repr

structure ClientLoop where
  readState : TlsRecordReadState := {}
  foundServerHello : Bool := false
  ccsRecords : Nat := 0
  handshakeRecords : Nat := 0
  appDataProbes : Nat := 0
  deriving DecidableEq, Repr

inductive ClientTurn where
  | more (s : ClientLoop) | response (ghostCount : Nat) | fail (e : TunnelConnectError)
  deriving DecidableEq, Repr

def ghostCountOf (eEe : Bytes) : Nat :=
  if handshakeControlLen ≤ eEe.length ∧ eEe.take 4 = handshakeControlMagic then fromBeBytes (byteAt eEe 4) (byteAt eEe 5) else 0

section Client
/- `read` is `read_message` of the client's Noise state. -/
variable (read : Bytes → Option Bytes) (serverEMask : Bytes)

def clientAppData (payload : Bytes) (s : ClientLoop) : ClientTurn :=
  if s.foundServerHello then
    let s := { s with appDataProbes := s.appDataProbes + 1 }
    if s.appDataProbes > clientHandshakeMaxAppDataProbes then .fail .noResponse
    else if payload.length < 32 then .more s
    else
      match read (xorInPlace payload serverEMask) with
      | some eEe => .response (ghostCountOf eEe)
      | none => .more s
  else .fail .appDataBeforeServerHello

def clientRecord (typ : UInt8) (record : Bytes) (s : ClientLoop) : ClientTurn :=
  if typ = 0x16 then
    let s := { s with handshakeRecords := s.handshakeRecords + 1 }
    if s.handshakeRecords > clientHandshakeMaxHandshakeRecords then .fail .tooManyHandshakeRecords
    else .more { s with foundServerHello := s.foundServerHello || isServerHello record }
  else if typ = 0x14 then
    let s := { s with ccsRecords := s.ccsRecords + 1 }
    if s.ccsRecords > clientHandshakeMaxCcsRecords then .fail .tooManyCcsRecords else .more s
  else if typ = 0x17 then clientAppData read serverEMask (record.drop 5) s
  else .fail (.unexpectedType typ)

def handshakeLimits : TlsRecordReadLimits := ⟨clientHandshakeMaxRecords,clientHandshakeMaxBytes⟩

def settle (rest : Bytes) (goOn : ClientLoop → Except TunnelConnectError (Nat × Bytes)) :
    ClientTurn → Except TunnelConnectError (Nat × Bytes)
  | .more s => goOn s
  | .response ghostCount => .ok (ghostCount,rest)
  | .fail e => .error e

def clientLoop : Nat → Bytes → ClientLoop → Except TunnelConnectError (Nat × Bytes)
  | 0,_,_ => .error (.read .ended)
  | fuel+1,stream,s =>
    match readTlsRecordBounded handshakeLimits s.readState stream with
    | .error e => .error (.read e)
    | .ok got =>
      settle got.rest (clientLoop fuel got.rest) (clientRecord read serverEMask got.typ got.record { s with readState := got.state })

def drainGhosts (limits : TlsRecordReadLimits) : Nat → Nat → TlsRecordReadState → Bytes → Except TunnelConnectError Bytes
  | 0,_,_,stream => .ok stream
  | count+1,i,state,stream =>
    match readTlsRecordBounded limits state stream with
    | .error e => .error (.ghostRead i e)
    | .ok got => if got.typ ≠ 0x17 then .error (.ghostType i got.typ) else drainGhosts limits count (i + 1) got.state got.rest

def clientTunnel (stream : Bytes) : Except TunnelConnectError (Nat × Bytes) := do
  let (ghostCount,rest) ← clientLoop read serverEMask (stream.length + 1) stream {}
  let rest ← drainGhosts ⟨ghostCount,ghostCount * (5 + maxTlsRecordPayloadLen)⟩ ghostCount 0 {} rest
  pure (ghostCount,rest)

end Client

end KanoTls.Camouflage
