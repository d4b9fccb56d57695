import KanoTls.Target
import KanoTls.Frame

/-! The SOCKS5 and HTTP CONNECT handshakes of the local inbounds. A socket is the fragments
that its reads deliver one after another; behind the last one the peer has closed, or the
next read waits. The replies that are written are left out. -/
namespace KanoTls.Inbound
open Text Target Wire IpText
open Uot (fromBeBytes)

inductive Error where
  | waits | unexpectedEof | utf8
  | socksVersion (version : UInt8) | methodCount (count : Nat) | noAuthNotOffered | requestHeader
  | domainLength (length : Nat) | unknownAtyp (atyp : UInt8) | unsupportedCmd (cmd : UInt8)
  | lineTooLarge | invalidRequest (line : Text) | headerBlockTooLarge | onlyConnect | authorityForm
  | connect (error : AuthorityError)
  deriving DecidableEq, Repr

structure Socket where
  fragments : List Bytes
  closed : Bool
  deriving DecidableEq, Repr

/- A read with room for `room` bytes; no bytes are the end of the stream. -/
def Socket.read (room : Nat) (s : Socket) : Except Error (Bytes × Socket) :=
  match s.fragments with
  | [] => if s.closed then .ok ([],s) else .error .waits
  | fragment::rest =>
    if fragment.length ≤ room then .ok (fragment,{ s with fragments := rest })
    else .ok (fragment.take room,{ s with fragments := fragment.drop room::rest })

/- `read_exact`, with `n` bytes to go; every read brings one at least. -/
def readExactFrom : Nat → Nat → Bytes → Socket → Except Error (Bytes × Socket)
  | _,0,got,s => .ok (got,s)
  | 0,_+1,_,_ => .error .unexpectedEof
  | fuel+1,n+1,got,s =>
    match s.read (n + 1) with
    | .error e => .error e
    | .ok (more,s) => if more = [] then .error .unexpectedEof else readExactFrom fuel (n + 1 - more.length) (got ++ more) s

def Socket.readExact (n : Nat) (s : Socket) : Except Error (Bytes × Socket) := readExactFrom n n [] s

/- The bytes of a socket without their fragments. -/
structure Stream where
  bytes : Bytes
  closed : Bool
  deriving DecidableEq, Repr

def Socket.stream (s : Socket) : Stream := ⟨s.fragments.flatten,s.closed⟩

def Stream.readExact (n : Nat) (s : Stream) : Except Error (Bytes × Stream) :=
  if n ≤ s.bytes.length then .ok (s.bytes.take n,{ s with bytes := s.bytes.drop n })
  else if s.closed then .error .unexpectedEof else .error .waits

section Socks5
variable {σ : Type} (readExact : Nat → σ → Except Error (Bytes × σ))

def octets4 (data : Bytes) : Ipv4Addr := ⟨data.getD 0 0,data.getD 1 0,data.getD 2 0,data.getD 3 0⟩

def octets16 (data : Bytes) : Ipv6Addr :=
  ⟨(List.range 8).map (fun i => word (data.getD (2 * i) 0) (data.getD (2 * i + 1) 0)),
    by rw [List.length_map,List.length_range]⟩

def portAt (data : Bytes) (i : Nat) : UInt16 := word (data.getD i 0) (data.getD (i + 1) 0)

def readAddress (atyp : UInt8) (s : σ) : Except Error (Host × UInt16 × σ) :=
  if atyp = 0x01 then do
    let (data,s) ← readExact 6 s
    .ok (.ipv4 (octets4 data),portAt data 4,s)
  else if atyp = 0x03 then do
    let (len,s) ← readExact 1 s
    let domainLen := (len.getD 0 0).toNat
    if domainLen = 0 ∨ domainLen > 253 then .error (.domainLength domainLen)
    else
      let (domain,s) ← readExact domainLen s
      let (portBuf,s) ← readExact 2 s
      match fromUtf8 domain with
      | none => .error .utf8
      | some domain => .ok (.domain domain,portAt portBuf 0,s)
  else if atyp = 0x04 then do
    let (data,s) ← readExact 18 s
    .ok (.ipv6 (octets16 data),portAt data 16,s)
  else .error (.unknownAtyp atyp)

/- The socket of a UDP association is bound. -/
def socks5Target (cmd : UInt8) (host : Host) (port : UInt16) : Except Error Target :=
  if cmd = 0x01 then .ok ⟨host,port,.tcp⟩
  else if cmd = 0x03 then .ok ⟨host,port,.udp⟩
  else .error (.unsupportedCmd cmd)

def socks5Handshake (s : σ) : Except Error (Target × σ) := do
  let (head,s) ← readExact 2 s
  if head.getD 0 0 ≠ 0x05 then .error (.socksVersion (head.getD 0 0))
  else
    let nmethods := (head.getD 1 0).toNat
    if nmethods = 0 ∨ nmethods > 16 then .error (.methodCount nmethods)
    else
      let (methods,s) ← readExact nmethods s
      if !methods.contains 0x00 then .error .noAuthNotOffered
      else
        let (req,s) ← readExact 4 s
        if req.getD 0 0 ≠ 0x05 ∨ req.getD 2 0 ≠ 0x00 then .error .requestHeader
        else
          let (host,port,s) ← readAddress readExact (req.getD 3 0) s
          let target ← socks5Target (req.getD 1 0) host port
          .ok (target,s)

end Socks5

def maxRequestLine : Nat := 8192
def maxHeaderBlock : Nat := 32 * 1024
def bufReaderCapacity : Nat := 8 * 1024

def lineLen (bytes : Bytes) : Nat := min (bytes.findIdx (· == 0x0a) + 1) bytes.length

structure BufReader where
  buffer : Bytes
  socket : Socket
  deriving DecidableEq, Repr

def BufReader.fillBuf (r : BufReader) : Except Error BufReader :=
  if r.buffer = [] then (r.socket.read bufReaderCapacity).map (fun got => ⟨got.1,got.2⟩) else .ok r

/- Every turn takes a byte at least, so that the line is too large before the fuel ends. -/
def readLimitedLineFrom : Nat → Text → Nat → BufReader → Except Error (Text × Nat × BufReader)
  | 0,_,_,_ => .error .lineTooLarge
  | fuel+1,line,total,r =>
    match r.fillBuf with
    | .error e => .error e
    | .ok r =>
      if r.buffer = [] then .ok (line,total,r)
      else
        let take := lineLen r.buffer
        if total + take > maxRequestLine then .error .lineTooLarge
        else
          match fromUtf8 (r.buffer.take take) with
          | none => .error .utf8
          | some piece =>
            let r := { r with buffer := r.buffer.drop take }
            if (line ++ piece).getLast? = some '\n' then .ok (line ++ piece,total + take,r)
            else readLimitedLineFrom fuel (line ++ piece) (total + take) r

def BufReader.readLimitedLine (r : BufReader) : Except Error (Text × Nat × BufReader) :=
  readLimitedLineFrom (maxRequestLine + 1) [] 0 r

def Stream.readLimitedLine (s : Stream) : Except Error (Text × Nat × Stream) :=
  if s.bytes = [] then if s.closed then .ok ([],0,s) else .error .waits
  else if lineLen s.bytes > maxRequestLine then .error .lineTooLarge
  else
    match fromUtf8 (s.bytes.take (lineLen s.bytes)) with
    | none => .error .utf8
    | some line =>
      if line.getLast? = some '\n' ∨ s.closed then .ok (line,lineLen s.bytes,
        { s with bytes := s.bytes.drop (lineLen s.bytes) })
      else .error .waits

def isWhitespace (ch : Char) : Bool :=
  (9 ≤ ch.toNat && ch.toNat ≤ 13) || ch.toNat == 0x20 || ch.toNat == 0x85 || ch.toNat == 0xa0 || ch.toNat == 0x1680 ||
    (0x2000 ≤ ch.toNat && ch.toNat ≤ 0x200a) || ch.toNat == 0x2028 || ch.toNat == 0x2029 || ch.toNat == 0x202f ||
    ch.toNat == 0x205f || ch.toNat == 0x3000

def splitWhitespace (text : Text) : List Text := (text.splitOnP isWhitespace).filter (· ≠ [])

/- The errors of `parse_authority_target` under their CONNECT texts. -/
def parseConnectTarget (target : Text) : Except Error (Text × UInt16) :=
  if target.contains '/' then .error .authorityForm
  else
    match parseAuthority target false with
    | .error e => .error (.connect e)
    | .ok found => .ok found

def connectMethod : Text := ['C','O','N','N','E','C','T']

def httpTarget (method target : Text) : Except Error Target :=
  if method ≠ connectMethod then .error .onlyConnect
  else
    match parseConnectTarget target with
    | .error e => .error e
    | .ok (host,port) => .ok ⟨.ofText host,port,.tcp⟩

section Http
variable {σ : Type} (readLine : σ → Except Error (Text × Nat × σ))

/- Every header adds to the block, so that it is too large before the fuel ends. -/
def headerLoop : Nat → Nat → σ → Except Error σ
  | 0,_,_ => .error .headerBlockTooLarge
  | fuel+1,headerBlockLen,s =>
    match readLine s with
    | .error e => .error e
    | .ok (_,n,s) =>
      if n ≤ 2 then .ok s
      else if headerBlockLen + n > maxHeaderBlock then .error .headerBlockTooLarge
      else headerLoop fuel (headerBlockLen + n) s

def httpHandshake (s : σ) : Except Error (Target × σ) :=
  match readLine s with
  | .error e => .error e
  | .ok (line,n,s) =>
    match splitWhitespace line with
    | method::target::_::_ =>
      match headerLoop readLine (maxHeaderBlock + 1) n s with
      | .error e => .error e
      | .ok s =>
        match httpTarget method target with
        | .error e => .error e
        | .ok target => .ok (target,s)
    | _ => .error (.invalidRequest line)

end Http

/- `reader.into_inner()` hands on the socket without the buffer. -/
def httpInbound (s : Socket) : Except Error (Target × Socket) :=
  (httpHandshake BufReader.readLimitedLine ⟨[],s⟩).map (fun done => (done.1,done.2.socket))

def socks5Request (name : Text) : Bytes := [5,1,0,5,1,0,3,UInt8.ofNat (toUtf8 name).length] ++ toUtf8 name ++ [0x01,0xbb]

theorem udpHostMistaken :
    socks5Handshake Socket.readExact ⟨[socks5Request ['u','d','p']],false⟩ = .ok (⟨.domain ['u','d','p'],443,.tcp⟩,
      ⟨[],false⟩) ∧
    Target.decodeWire (Target.encodeWire ⟨.domain ['u','d','p'],443,.tcp⟩) = .error (.authority .missingPort) ∧
    socks5Handshake Socket.readExact ⟨[socks5Request ['u','d','p',':','a']],false⟩ =
      .ok (⟨.domain ['u','d','p',':','a'],443,.tcp⟩,⟨[],false⟩) ∧
    Target.decodeWire (Target.encodeWire ⟨.domain ['u','d','p',':','a'],443,.tcp⟩) = .ok ⟨.domain ['a'],443,.udp⟩ ∧
    ¬ Target.RoundTrips ⟨.domain ['u','d','p'],443,.tcp⟩ ∧ ¬ Target.RoundTrips ⟨.domain ['u','d','p',':','a'],443,.tcp⟩ := by
  have one : Target.decodeWire (Target.encodeWire ⟨.domain ['u','d','p'],443,.tcp⟩) = .error (.authority .missingPort) := by
    decide +kernel
  have two : Target.decodeWire (Target.encodeWire ⟨.domain ['u','d','p',':','a'],443,.tcp⟩) = .ok ⟨.domain ['a'],443,
    .udp⟩ := by
    decide +kernel
  refine ⟨by decide +kernel,one,by decide +kernel,two,?_,?_⟩
  · rintro ⟨back,decoded,_⟩
    rw [one] at decoded
    contradiction
  · rintro ⟨back,decoded,network,_⟩
    rw [two] at decoded
    cases decoded
    contradiction

end KanoTls.Inbound
