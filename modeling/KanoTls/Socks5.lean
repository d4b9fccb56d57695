import KanoTls.Duplex
import KanoTls.Inbound
import KanoTls.Outbound

/-! Both ends of SOCKS5: the handshake of the local inbound with its replies, and the client by
which the server reaches an upstream proxy. The two are joined by a connection that splits
what they write in any way, and no deadline passes. -/
namespace KanoTls.Socks5
open Duplex Machine Text Wire IpText Target
open Destination (SocketAddr)
open Inbound (octets4 octets16 portAt)
open Outbound (Resolver ResolveError resolveRemoteTarget)

def socksVersion : UInt8 := 0x05
def methodNoAuth : UInt8 := 0x00
def methodUserPass : UInt8 := 0x02
def methodNoAcceptable : UInt8 := 0xff
def cmdConnect : UInt8 := 0x01
def cmdUdpAssociate : UInt8 := 0x03
def repSucceeded : UInt8 := 0x00
def repCommandNotSupported : UInt8 := 0x07

def portBytes (port : UInt16) : Bytes := [highByte port,lowByte port]
def octets (ip : Ipv4Addr) : Bytes := [ip.a,ip.b,ip.c,ip.d]
def octets6 (ip : Ipv6Addr) : Bytes := ip.segments.flatMap (fun segment => [highByte segment,lowByte segment])

def addrBytes (addr : SocketAddr) : Bytes :=
  match addr.ip with
  | .v4 ip => 0x01::(octets ip ++ portBytes addr.port)
  | .v6 ip => 0x04::(octets6 ip ++ portBytes addr.port)

def send {ε : Type} (data : Bytes) : Party UInt8 ε Unit := .write data (.done ())

section Server

inductive ServerError where
  | handshake (error : Inbound.Error)
  | notOpened
  deriving DecidableEq, Repr

abbrev Server := Party UInt8 ServerError

def refuse {α : Type} (error : Inbound.Error) : Server α := .fail (.handshake error)

def take (n : Nat) : Server Bytes := .read n (.handshake .unexpectedEof) .done

def socksReply (code : UInt8) : Bytes := [socksVersion,code,0x00,0x01,0,0,0,0,0,0]
def connectSuccessReply : Bytes := socksReply repSucceeded
def socksUdpReply (addr : SocketAddr) : Bytes := [socksVersion,repSucceeded,0x00] ++ addrBytes addr

def readDomain (domainLen : Nat) : Server (Host × UInt16) :=
  if domainLen = 0 ∨ domainLen > 253 then refuse (.domainLength domainLen)
  else do
    let domain ← take domainLen
    let portBuf ← take 2
    match fromUtf8 domain with
    | none => refuse .utf8
    | some domain => pure (.domain domain,portAt portBuf 0)

def readAddress (atyp : UInt8) : Server (Host × UInt16) :=
  if atyp = 0x01 then do
    let data ← take 6
    pure (.ipv4 (octets4 data),portAt data 4)
  else if atyp = 0x03 then do
    let len ← take 1
    readDomain (len.getD 0 0).toNat
  else if atyp = 0x04 then do
    let data ← take 18
    pure (.ipv6 (octets16 data),portAt data 16)
  else refuse (.unknownAtyp atyp)

def commandTarget (cmd : UInt8) (addr : Host × UInt16) : Server Target :=
  if cmd = cmdConnect then pure ⟨addr.1,addr.2,.tcp⟩
  else if cmd = cmdUdpAssociate then pure ⟨addr.1,addr.2,.udp⟩
  else do
    send (socksReply repCommandNotSupported)
    refuse (.unsupportedCmd cmd)

def readRequest : Server Target := do
  let req ← take 4
  if req.getD 0 0 ≠ socksVersion ∨ req.getD 2 0 ≠ 0x00 then refuse .requestHeader
  else do
    let addr ← readAddress (req.getD 3 0)
    commandTarget (req.getD 1 0) addr

def handshakeInner : Server Target := do
  let head ← take 2
  if head.getD 0 0 ≠ socksVersion then refuse (.socksVersion (head.getD 0 0))
  else
    let nmethods := (head.getD 1 0).toNat
    if nmethods = 0 ∨ nmethods > 16 then refuse (.methodCount nmethods)
    else do
      let methods ← take nmethods
      if !methods.contains methodNoAuth then do
        send [socksVersion,methodNoAcceptable]
        refuse .noAuthNotOffered
      else do
        send [socksVersion,methodNoAuth]
        readRequest

def replySuccess (bound : SocketAddr) (target : Target) : Server Unit :=
  match target.network with
  | .tcp => send connectSuccessReply
  | .udp => send (socksUdpReply bound)

/- `opened` is whether the pool has opened a stream for it, `bound` the address of the socket
for its datagrams. -/
def answer (bound : SocketAddr) (opened : Bool) (target : Target) : Server Target :=
  if opened then do
    replySuccess bound target
    pure target
  else .fail .notOpened

def handleInboundConnection (bound : SocketAddr) (opened : Bool) : Server Target := do
  let target ← handshakeInner
  answer bound opened target

end Server

section Client
variable {ε : Type}

inductive ClientError (ε : Type) where
  | unexpectedEof
  | rejectedNoAuth (version method : UInt8) | noUserPass (version method : UInt8)
  | usernameTooLong | passwordTooLong | authenticationFailed
  | replyVersion (version : UInt8) | requestFailed (rep : UInt8) | reservedByte (byte : UInt8)
  | emptyDomain | utf8 | replyAtyp (atyp : UInt8)
  | hostnameTooLong (length : Nat)
  | resolve (error : ResolveError ε) | portZero

abbrev Client (ε : Type) := Party UInt8 (ClientError ε)

def get (n : Nat) : Client ε Bytes := .read n .unexpectedEof .done

inductive Socks5Target where
  | ip (addr : SocketAddr)
  | domain (name : Text) (port : UInt16)

def Socks5Target.of (target : Target) : Socks5Target :=
  match target.host with
  | .ipv4 bits => .ip ⟨.v4 bits,target.port⟩
  | .ipv6 bits => .ip ⟨.v6 bits,target.port⟩
  | .domain name => .domain name target.port

def userPassRequest (username password : Bytes) : Bytes :=
  [0x01,UInt8.ofNat username.length] ++ username ++ [UInt8.ofNat password.length] ++ password

def socks5Handshake (auth : Option (Text × Text)) : Client ε Unit :=
  match auth with
  | none => do
    send [socksVersion,1,methodNoAuth]
    let resp ← get 2
    if resp.getD 0 0 ≠ socksVersion ∨ resp.getD 1 0 ≠ methodNoAuth then
      .fail (.rejectedNoAuth (resp.getD 0 0) (resp.getD 1 0))
    else pure ()
  | some (username,password) => do
    send [socksVersion,1,methodUserPass]
    let resp ← get 2
    if resp.getD 0 0 ≠ socksVersion ∨ resp.getD 1 0 ≠ methodUserPass then
      .fail (.noUserPass (resp.getD 0 0) (resp.getD 1 0))
    else if (toUtf8 username).length > 255 then .fail .usernameTooLong
    else if (toUtf8 password).length > 255 then .fail .passwordTooLong
    else do
      send (userPassRequest (toUtf8 username) (toUtf8 password))
      let authResp ← get 2
      if authResp.getD 1 0 ≠ 0x00 then .fail .authenticationFailed else pure ()

inductive Socks5ReplyAddr where
  | ip (addr : SocketAddr)
  | domain (name : Text) (port : UInt16)

def readSocks5ReplyAddr : Client ε Socks5ReplyAddr := do
  let head ← get 4
  if head.getD 0 0 ≠ socksVersion then .fail (.replyVersion (head.getD 0 0))
  else if head.getD 1 0 ≠ repSucceeded then .fail (.requestFailed (head.getD 1 0))
  else if head.getD 2 0 ≠ 0x00 then .fail (.reservedByte (head.getD 2 0))
  else if head.getD 3 0 = 0x01 then do
    let bind ← get 6
    pure (.ip ⟨.v4 (octets4 bind),portAt bind 4⟩)
  else if head.getD 3 0 = 0x03 then do
    let len ← get 1
    let len := (len.getD 0 0).toNat
    if len = 0 then .fail .emptyDomain
    else do
      let name ← get len
      let port ← get 2
      match fromUtf8 name with
      | none => .fail .utf8
      | some name => pure (.domain name (portAt port 0))
  else if head.getD 3 0 = 0x04 then do
    let bind ← get 18
    pure (.ip ⟨.v6 (octets16 bind),portAt bind 16⟩)
  else .fail (.replyAtyp (head.getD 3 0))

def connectRequest : Socks5Target → Option Bytes
  | .ip addr => some ([socksVersion,cmdConnect,0x00] ++ addrBytes addr)
  | .domain host port =>
    if (toUtf8 host).length > 255 then none
    else some ([socksVersion,cmdConnect,0x00,0x03,UInt8.ofNat (toUtf8 host).length] ++ toUtf8 host ++ portBytes port)

def Socks5Target.hostLength : Socks5Target → Nat
  | .ip _ => 0
  | .domain host _ => (toUtf8 host).length

def socks5SendConnect (target : Socks5Target) : Client ε Unit :=
  match connectRequest target with
  | none => .fail (.hostnameTooLong target.hostLength)
  | some request => do
    send request
    let _ ← readSocks5ReplyAddr
    pure ()

/- `peer` is `stream.peer_addr()`. -/
def resolveZeroBind (peer addr : SocketAddr) : SocketAddr :=
  let unspecified :=
    match addr.ip with
    | .v4 ip => Destination.isUnspecified ip
    | .v6 ip => Destination.isUnspecified6 ip
  if unspecified then ⟨peer.ip,addr.port⟩ else addr

def usable (peer addr : SocketAddr) : Client ε SocketAddr :=
  let relayAddr := resolveZeroBind peer addr
  if relayAddr.port = 0 then .fail .portZero else pure relayAddr

def associateRequest : Bytes := [socksVersion,cmdUdpAssociate,0x00,0x01,0,0,0,0,0,0]

def socks5SendUdpAssociate (resolve : Resolver ε) (peer : SocketAddr) : Client ε SocketAddr := do
  send associateRequest
  -- the list of a target that resolved is not empty
  match ← (readSocks5ReplyAddr : Client ε Socks5ReplyAddr) with
  | .ip addr => usable peer addr
  | .domain host port =>
    match resolveRemoteTarget resolve ⟨.ofText host,port,.udp⟩ with
    | .error e => .fail (.resolve e)
    | .ok [] => .fail (.resolve .unresolved)
    | .ok (addr::_) => usable peer addr

/- `connect` and `udp_associate` of the upstream proxy, once the guard on the target has let it
through and the proxy is connected. -/
def connectThrough (auth : Option (Text × Text)) (target : Target) : Client ε Unit := do
  socks5Handshake auth
  socks5SendConnect (.of target)

def associateThrough (auth : Option (Text × Text)) (resolve : Resolver ε) (peer : SocketAddr) : Client ε SocketAddr := do
  socks5Handshake auth
  socks5SendUdpAssociate resolve peer

end Client

section Bytes
variable {ip : Ipv4Addr} {ip6 : Ipv6Addr} {port : UInt16}

theorem octetsBack (rest : Bytes) : octets4 (octets ip ++ rest) = ip := rfl

theorem octets6Length : (octets6 ip6).length = 16 := by
  rw [octets6,List.length_flatMap]
  simp [ip6.eight]

theorem octets6Back (rest : Bytes) : octets16 (octets6 ip6 ++ rest) = ip6 := by
  obtain ⟨segments,eight⟩ := ip6
  rcases segments with _ | ⟨a,_ | ⟨b,_ | ⟨c,_ | ⟨d,_ | ⟨e,_ | ⟨f,_ | ⟨g,_ | ⟨h,_ | ⟨i,more⟩⟩⟩⟩⟩⟩⟩⟩⟩ <;> simp at eight
  have words : (octets16 (octets6 ⟨[a,b,c,d,e,f,g,h],rfl⟩ ++ rest)).segments =
      [word (highByte a) (lowByte a),word (highByte b) (lowByte b),word (highByte c) (lowByte c),word (highByte d) (lowByte d),
        word (highByte e) (lowByte e),word (highByte f) (lowByte f),word (highByte g) (lowByte g),word (highByte h) (lowByte h)] := rfl
  simp only [wordBack] at words
  cases back : octets16 (octets6 ⟨[a,b,c,d,e,f,g,h],rfl⟩ ++ rest) with
  | mk segments eight =>
    rw [back] at words
    subst words
    rfl

theorem portBack (port : UInt16) (front rest : Bytes) : portAt (front ++ (portBytes port ++ rest)) front.length = port := by
  unfold portAt portBytes
  rw [List.getD_eq_getElem?_getD,List.getD_eq_getElem?_getD,List.getElem?_append_right (Nat.le_refl _),
    List.getElem?_append_right (Nat.le_succ _),Nat.sub_self,Nat.succ_eq_add_one,Nat.add_sub_cancel_left]
  exact wordBack port

end Bytes

section Phases
variable {ε α β : Type} {K : Unit → Client ε α} {L : Target → Server β}

theorem greeted : Runs ⟨socks5Handshake none >>= K,handshakeInner >>= L,[],[]⟩ ⟨K (),readRequest >>= L,[],[]⟩ := by
  refine (clientWrites [] [socksVersion,1,methodNoAuth]).trans ?_
  refine (serverReads [socksVersion,1] [methodNoAuth] rfl).trans ?_
  refine (serverReads [methodNoAuth] [] rfl).trans ?_
  refine (serverWrites [] [socksVersion,methodNoAuth]).trans ?_
  exact clientReads [socksVersion,methodNoAuth] [] rfl

theorem notOffered (username password : Text) :
    Runs ⟨socks5Handshake (some (username,password)) >>= K,handshakeInner >>= L,[],[]⟩
      ⟨.fail (.noUserPass socksVersion methodNoAcceptable),refuse .noAuthNotOffered,[],[]⟩ := by
  refine (clientWrites [] [socksVersion,1,methodUserPass]).trans ?_
  refine (serverReads [socksVersion,1] [methodUserPass] rfl).trans ?_
  refine (serverReads [methodUserPass] [] rfl).trans ?_
  refine (serverWrites [] [socksVersion,methodNoAcceptable]).trans ?_
  exact clientReads [socksVersion,methodNoAcceptable] [] rfl

def hostType : Host → UInt8
  | .ipv4 _ => 0x01
  | .domain _ => 0x03
  | .ipv6 _ => 0x04

def hostBody : Host → Bytes
  | .ipv4 ip => octets ip
  | .domain name => UInt8.ofNat (toUtf8 name).length::toUtf8 name
  | .ipv6 ip => octets6 ip

/- What the inbound takes. -/
def fits : Host → Bool
  | .domain name => decide (0 < (toUtf8 name).length ∧ (toUtf8 name).length ≤ 253)
  | _ => true

def command : Network → UInt8
  | .tcp => cmdConnect
  | .udp => cmdUdpAssociate

section Request
variable {γ : Type} {client : Party UInt8 γ α} {M : Host × UInt16 → Server β} {host : Host} {name : Text} {port : UInt16}
  {down rest : Bytes}

theorem domainRead (positive : 0 < (toUtf8 name).length) (most : (toUtf8 name).length ≤ 253) :
    Runs ⟨client,readDomain (toUtf8 name).length >>= M,toUtf8 name ++ (portBytes port ++ rest),down⟩
      ⟨client,M (.domain name,port),rest,down⟩ := by
  rw [readDomain,if_neg (by omega)]
  refine (serverReads _ _ rfl).trans ?_
  refine (serverReads (portBytes port) rest rfl).trans ?_
  have back : portAt (portBytes port) 0 = port := (congrArg (portAt · 0) (List.append_nil _)).symm.trans (portBack port [] [])
  have same : ((match fromUtf8 (toUtf8 name) with
      | none => refuse .utf8
      | some domain => pure (.domain domain,portAt (portBytes port) 0) : Server (Host × UInt16)) >>= M) = M (.domain name,port) := by
    rw [fromToUtf8,back]
    rfl
  exact same ▸ .refl

theorem lengthBack {n : Nat} (most : n ≤ 255) : (UInt8.ofNat n).toNat = n := by
  rw [UInt8.toNat_ofNat']
  omega

theorem addressRead (fit : fits host = true) :
    Runs ⟨client,readAddress (hostType host) >>= M,hostBody host ++ (portBytes port ++ rest),down⟩ ⟨client,M (host,port),rest,down⟩ := by
  cases host with
  | ipv4 ip =>
    have back := portBack port (octets ip) []
    rw [List.append_nil] at back
    refine (serverReads (octets ip ++ portBytes port) rest rfl).trans ?_
    show Runs ⟨client,M (.ipv4 (octets4 (octets ip ++ portBytes port)),portAt (octets ip ++ portBytes port) (octets ip).length),rest,down⟩ _
    rw [octetsBack,back]
    exact .refl
  | domain name =>
    obtain ⟨positive,most⟩ := of_decide_eq_true fit
    refine (serverReads [UInt8.ofNat (toUtf8 name).length] (toUtf8 name ++ (portBytes port ++ rest)) rfl).trans ?_
    show Runs ⟨client,readDomain (UInt8.ofNat (toUtf8 name).length).toNat >>= M,_,down⟩ _
    rw [lengthBack (Nat.le_trans most (by decide))]
    exact domainRead positive most
  | ipv6 ip =>
    have back := portBack port (octets6 ip) []
    rw [List.append_nil,octets6Length] at back
    have length : (octets6 ip ++ portBytes port).length = 18 := by rw [List.length_append,octets6Length]; rfl
    refine (List.append_assoc _ _ _ ▸ serverReads (octets6 ip ++ portBytes port) rest length).trans ?_
    show Runs ⟨client,M (.ipv6 (octets16 (octets6 ip ++ portBytes port)),portAt (octets6 ip ++ portBytes port) 16),rest,down⟩ _
    rw [octets6Back,back]
    exact .refl

theorem requestRead (network : Network) (port : UInt16) (rest : Bytes) (fit : fits host = true) : Runs
    ⟨client,readRequest >>= L,[socksVersion,command network,0x00,hostType host] ++ (hostBody host ++ (portBytes port ++ rest)),down⟩
    ⟨client,L ⟨host,port,network⟩,rest,down⟩ := by
  refine (serverReads [socksVersion,command network,0x00,hostType host] (hostBody host ++ (portBytes port ++ rest)) rfl).trans ?_
  show Runs ⟨client,readAddress (hostType host) >>= commandTarget (command network) >>= L,_,down⟩ _
  rw [Party.bindAssoc]
  cases network with
  | tcp => exact addressRead fit
  | udp => exact addressRead fit

theorem requestRefused (network : Network) (rest : Bytes) (unfit : fits (.domain name) = false) (most : (toUtf8 name).length ≤ 255) : ∃ up, Runs
    ⟨client,readRequest >>= L,[socksVersion,command network,0x00,0x03] ++ (hostBody (.domain name) ++ rest),down⟩
    ⟨client,refuse (.domainLength (toUtf8 name).length),up,down⟩ := by
  refine ⟨toUtf8 name ++ rest,?_⟩
  refine (serverReads [socksVersion,command network,0x00,0x03] (hostBody (.domain name) ++ rest) rfl).trans ?_
  refine (serverReads [UInt8.ofNat (toUtf8 name).length] (toUtf8 name ++ rest) rfl).trans ?_
  show Runs ⟨client,readDomain (UInt8.ofNat (toUtf8 name).length).toNat >>= commandTarget (command network) >>= L,_,down⟩ _
  have unfit := of_decide_eq_false unfit
  rw [lengthBack most,readDomain,if_pos (by omega)]
  exact .refl

end Request

theorem requestOf (target : Target) : connectRequest (.of target) = none ∨
    connectRequest (.of target) =
      some ([socksVersion,cmdConnect,0x00,hostType target.host] ++ (hostBody target.host ++ portBytes target.port)) := by
  obtain ⟨host,port,network⟩ := target
  cases host with
  | ipv4 ip => exact .inr rfl
  | ipv6 ip => exact .inr rfl
  | domain name =>
    by_cases long : (toUtf8 name).length > 255
    · exact .inl (if_pos long)
    · refine .inr ((if_neg long).trans ?_)
      rw [List.append_assoc]
      rfl

theorem requestNone {target : Target} (none : connectRequest (.of target) = none) : fits target.host = false := by
  obtain ⟨host,port,network⟩ := target
  cases host with
  | ipv4 ip => contradiction
  | ipv6 ip => contradiction
  | domain name =>
    refine decide_eq_false ?_
    intro fit
    have request : connectRequest (.of ⟨.domain name,port,network⟩) = some _ := if_neg (Nat.not_lt_of_le (Nat.le_trans fit.2 (by decide)))
    rw [none] at request
    contradiction

theorem replyRead {γ : Type} {F : Socks5ReplyAddr → Client ε α} {server : Party UInt8 γ β} {up : Bytes} (bound : SocketAddr) :
    Runs ⟨readSocks5ReplyAddr >>= F,server,up,socksUdpReply bound⟩ ⟨F (.ip bound),server,up,[]⟩ := by
  obtain ⟨ip,port⟩ := bound
  cases ip with
  | v4 ip =>
    have back := portBack port (octets ip) []
    rw [List.append_nil] at back
    refine (clientReads [socksVersion,repSucceeded,0x00,0x01] (octets ip ++ portBytes port) rfl).trans ?_
    refine (List.append_nil (octets ip ++ portBytes port) ▸ clientReads (octets ip ++ portBytes port) [] rfl).trans ?_
    show Runs ⟨F (.ip ⟨.v4 (octets4 (octets ip ++ portBytes port)),portAt (octets ip ++ portBytes port) (octets ip).length⟩),server,up,[]⟩ _
    rw [octetsBack,back]
    exact .refl
  | v6 ip =>
    have back := portBack port (octets6 ip) []
    rw [List.append_nil,octets6Length] at back
    have length : (octets6 ip ++ portBytes port).length = 18 := by rw [List.length_append,octets6Length]; rfl
    refine (clientReads [socksVersion,repSucceeded,0x00,0x04] (octets6 ip ++ portBytes port) rfl).trans ?_
    refine (List.append_nil (octets6 ip ++ portBytes port) ▸ clientReads (octets6 ip ++ portBytes port) [] length).trans ?_
    show Runs ⟨F (.ip ⟨.v6 (octets16 (octets6 ip ++ portBytes port)),portAt (octets6 ip ++ portBytes port) 16⟩),server,up,[]⟩ _
    rw [octets6Back,back]
    exact .refl

end Phases

section Agreement
variable {ε : Type}

abbrev Joined (ε α : Type) := Pair UInt8 (ClientError ε) ServerError α Target

theorem connectGreeted (target : Target) (bound : SocketAddr) (opened : Bool) :
    Runs (⟨connectThrough none target,handleInboundConnection bound opened,[],[]⟩ : Joined ε Unit)
      ⟨socks5SendConnect (.of target),readRequest >>= answer bound opened,[],[]⟩ :=
  greeted (K := fun _ => socks5SendConnect (.of target))

theorem connectUnsent {target : Target} (long : connectRequest (.of target) = none) (bound : SocketAddr) (opened : Bool) : ∃ error,
    Runs (⟨connectThrough none target,handleInboundConnection bound opened,[],[]⟩ : Joined ε Unit)
      ⟨.fail error,.fail (.handshake .unexpectedEof),[],[]⟩ := by
  refine ⟨.hostnameTooLong (Socks5Target.of target).hostLength,(connectGreeted target bound opened).trans ?_⟩
  rw [socks5SendConnect,long]
  exact serverEof (by decide)

def awaitReply : Client ε Unit := do
  let _ ← readSocks5ReplyAddr
  pure ()

theorem connectSent {target : Target} (request : connectRequest (.of target) =
      some ([socksVersion,cmdConnect,0x00,hostType target.host] ++ (hostBody target.host ++ portBytes target.port)))
    (bound : SocketAddr) (opened : Bool) :
    Runs (⟨connectThrough none target,handleInboundConnection bound opened,[],[]⟩ : Joined ε Unit)
      ⟨awaitReply,readRequest >>= answer bound opened,
        [socksVersion,cmdConnect,0x00,hostType target.host] ++ (hostBody target.host ++ portBytes target.port),[]⟩ := by
  refine (connectGreeted target bound opened).trans ?_
  rw [socks5SendConnect,request]
  exact clientWrites [] _

theorem connectTaken {target : Target} (fit : fits target.host = true) (bound : SocketAddr) (opened : Bool) :
    Runs (⟨awaitReply,readRequest >>= answer bound opened,
        [socksVersion,cmdConnect,0x00,hostType target.host] ++ (hostBody target.host ++ portBytes target.port),[]⟩ : Joined ε Unit)
      (if opened then ⟨.done (),.done ⟨target.host,target.port,.tcp⟩,[],[]⟩ else ⟨.fail .unexpectedEof,.fail .notOpened,[],[]⟩) := by
  have read : Runs (⟨awaitReply,readRequest >>= answer bound opened,_,[]⟩ : Joined ε Unit) _ := requestRead .tcp target.port [] fit
  rw [List.append_nil] at read
  cases opened with
  | false => exact read.trans (clientEof (by decide))
  | true => exact read.trans ((serverWrites [] connectSuccessReply).trans (replyRead ⟨.v4 ⟨0,0,0,0⟩,0⟩))

theorem connectRefused {target : Target} (unfit : fits target.host = false) (request : connectRequest (.of target) ≠ none)
    (bound : SocketAddr) (opened : Bool) : ∃ error up,
    Runs (⟨awaitReply,readRequest >>= answer bound opened,
        [socksVersion,cmdConnect,0x00,hostType target.host] ++ (hostBody target.host ++ portBytes target.port),[]⟩ : Joined ε Unit)
      ⟨.fail .unexpectedEof,.fail error,up,[]⟩ := by
  obtain ⟨host,port,network⟩ := target
  cases host with
  | ipv4 ip => contradiction
  | ipv6 ip => contradiction
  | domain name =>
    have most : (toUtf8 name).length ≤ 255 := by
      by_contra long
      exact request (if_pos (Nat.lt_of_not_le long))
    have refused : ∃ up, Runs (⟨awaitReply,readRequest >>= answer bound opened,_,[]⟩ : Joined ε Unit) ⟨_,_,up,_⟩ :=
      requestRefused .tcp (portBytes port) unfit most
    obtain ⟨up,read⟩ := refused
    exact ⟨_,up,read.trans (clientEof (by decide))⟩

theorem connectRuns (auth : Option (Text × Text)) (target : Target) (bound : SocketAddr) (opened : Bool) : ∃ finish : Joined ε Unit,
    Runs ⟨connectThrough auth target,handleInboundConnection bound opened,[],[]⟩ finish ∧
      if auth = none ∧ fits target.host = true ∧ opened = true then
        finish = ⟨.done (),.done ⟨target.host,target.port,.tcp⟩,[],[]⟩
      else finish.client.closed = true ∧ finish.server.closed = true := by
  cases auth with
  | some auth =>
    refine ⟨_,notOffered auth.1 auth.2,?_⟩
    rw [if_neg (by rintro ⟨_,_⟩; contradiction)]
    exact ⟨rfl,rfl⟩
  | none =>
    obtain long | request := requestOf target
    · obtain ⟨error,run⟩ := connectUnsent (ε := ε) long bound opened
      refine ⟨_,run,?_⟩
      rw [if_neg (by rw [requestNone long]; rintro ⟨_,_,_⟩; contradiction)]
      exact ⟨rfl,rfl⟩
    · have sent := connectSent (ε := ε) request bound opened
      cases fit : fits target.host with
      | false =>
        obtain ⟨error,up,run⟩ := connectRefused (ε := ε) fit (by rw [request]; exact Option.some_ne_none _) bound opened
        refine ⟨_,sent.trans run,?_⟩
        rw [if_neg (by rintro ⟨_,_,_⟩; contradiction)]
        exact ⟨rfl,rfl⟩
      | true =>
        refine ⟨_,sent.trans (connectTaken fit bound opened),?_⟩
        cases opened with
        | false => exact ⟨rfl,rfl⟩
        | true => rfl

theorem closedEnded {γ δ α : Type} {p : Party γ δ α} (closed : p.closed = true) : p.ended = true := by
  cases p <;> first | rfl | contradiction

theorem connectAgrees (auth : Option (Text × Text)) (target : Target) (bound : SocketAddr) (opened : Bool) : ∃ finish : Joined ε Unit,
    (∀ s, Reach pairStep Always ⟨connectThrough auth target,handleInboundConnection bound opened,[],[]⟩ s →
      s = finish ∨ Inevitable pairStep (fun _ => True) (fun _ t => t = finish) s) ∧
    if auth = none ∧ fits target.host = true ∧ opened = true then
      finish = ⟨.done (),.done ⟨target.host,target.port,.tcp⟩,[],[]⟩
    else finish.client.closed = true ∧ finish.server.closed = true := by
  obtain ⟨finish,run,ends⟩ := connectRuns (ε := ε) auth target bound opened
  refine ⟨finish,fun s reach => inevitablyEnds run ?_ (reachRuns reach),ends⟩
  split at ends
  · rw [ends]
    exact endedAtRest rfl rfl
  · exact endedAtRest (closedEnded ends.1) (closedEnded ends.2)

theorem associateRead (resolve : Resolver ε) (peer bound : SocketAddr) (opened : Bool) :
    Runs (⟨associateThrough none resolve peer,handleInboundConnection bound opened,[],[]⟩ : Joined ε SocketAddr)
      (if opened then ⟨usable peer bound,.done ⟨.ipv4 ⟨0,0,0,0⟩,0,.udp⟩,[],[]⟩ else ⟨.fail .unexpectedEof,.fail .notOpened,[],[]⟩) := by
  have greeted : Runs (⟨associateThrough none resolve peer,handleInboundConnection bound opened,[],[]⟩ : Joined ε SocketAddr) _ :=
    greeted (K := fun _ => socks5SendUdpAssociate resolve peer)
  refine (greeted.trans (clientWrites [] associateRequest)).trans ?_
  refine (requestRead .udp 0 [] (show fits (.ipv4 ⟨0,0,0,0⟩) = true from rfl)).trans ?_
  cases opened with
  | false => exact clientEof (by decide)
  | true => exact (serverWrites [] (socksUdpReply bound)).trans (replyRead bound)

theorem usableEnds (peer addr : SocketAddr) : (usable peer addr : Client ε SocketAddr) =
    if addr.port = 0 then .fail .portZero else .done (resolveZeroBind peer addr) := by
  have port : (resolveZeroBind peer addr).port = addr.port := by
    unfold resolveZeroBind
    dsimp only
    split <;> split <;> rfl
  rw [usable,port]
  rfl

/- A relay that the proxy gives by name is one that the guard admits, so no unspecified address;
one that it gives by address is not looked at. -/
theorem namedRelayAdmitted {resolve : Resolver ε} {host : Text} {port : UInt16} {addr : SocketAddr} {rest : List SocketAddr}
    (peer : SocketAddr) (resolved : resolveRemoteTarget resolve ⟨.ofText host,port,.udp⟩ = .ok (addr::rest)) :
    resolveZeroBind peer addr = addr ∧ Outbound.Admitted addr := by
  have admitted := (Outbound.resolvedAdmitted resolved).2 addr List.mem_cons_self
  refine ⟨?_,admitted⟩
  obtain ⟨ip,port⟩ := addr
  unfold Outbound.Admitted Destination.isBlockedDestination at admitted
  cases ip with
  | v4 bits =>
    refine if_neg (fun unspecified => ?_)
    dsimp only at admitted unspecified
    simp [Destination.isBlockedIpv4,unspecified] at admitted
  | v6 bits =>
    refine if_neg (fun unspecified => ?_)
    dsimp only at admitted unspecified
    have zeros : bits.segments = [0,0,0,0,0,0,0,0] := of_decide_eq_true unspecified
    have unmapped : toIpv4Mapped bits.segments = none := by rw [zeros]; rfl
    rw [unmapped] at admitted
    simp [unspecified] at admitted

theorem associateAgrees (auth : Option (Text × Text)) (resolve : Resolver ε) (peer bound : SocketAddr) (opened : Bool) :
    ∃ finish : Joined ε SocketAddr,
    (∀ s, Reach pairStep Always ⟨associateThrough auth resolve peer,handleInboundConnection bound opened,[],[]⟩ s →
      s = finish ∨ Inevitable pairStep (fun _ => True) (fun _ t => t = finish) s) ∧
    if auth = none ∧ opened = true then
      finish = ⟨if bound.port = 0 then .fail .portZero else .done (resolveZeroBind peer bound),
        .done ⟨.ipv4 ⟨0,0,0,0⟩,0,.udp⟩,[],[]⟩
    else finish.client.closed = true ∧ finish.server.closed = true := by
  cases auth with
  | some auth =>
    refine ⟨_,fun s reach => inevitablyEnds (notOffered auth.1 auth.2) (endedAtRest rfl rfl) (reachRuns reach),?_⟩
    rw [if_neg (by rintro ⟨_,_⟩; contradiction)]
    exact ⟨rfl,rfl⟩
  | none =>
    have run := associateRead resolve peer bound opened
    cases opened with
    | false => exact ⟨_,fun s reach => inevitablyEnds run (endedAtRest rfl rfl) (reachRuns reach),rfl,rfl⟩
    | true =>
      rw [usableEnds] at run
      refine ⟨_,fun s reach => inevitablyEnds run (endedAtRest ?_ rfl) (reachRuns reach),rfl⟩
      by_cases zero : bound.port = 0
      · rw [if_pos zero]
        rfl
      · rw [if_neg zero]
        rfl

end Agreement

section Handshake
variable {α : Type} {data : Bytes}

def outcome : Option (Except ServerError α × Bytes) → Except Inbound.Error (α × Bytes)
  | some (.ok result,rest) => .ok (result,rest)
  | some (.error (.handshake error),_) => .error error
  | _ => .error .waits

theorem streamReads (n : Nat) : Inbound.Stream.readExact n ⟨data,false⟩ =
    if n ≤ data.length then .ok (data.take n,⟨data.drop n,false⟩) else .error .waits := rfl

theorem takeReads (n : Nat) (f : Bytes → Server α) : (take n >>= f).alone data =
    if n ≤ data.length then (f (data.take n)).alone (data.drop n) else none := rfl

theorem addressReads (atyp : UInt8) (f : Host × UInt16 → Server α) : outcome ((readAddress atyp >>= f).alone data) =
    (Inbound.readAddress Inbound.Stream.readExact atyp ⟨data,false⟩).bind (fun got => outcome ((f (got.1,got.2.1)).alone got.2.2.bytes)) := by
  unfold readAddress Inbound.readAddress
  by_cases v4 : atyp = 0x01
  · rw [if_pos v4,if_pos v4,streamReads]
    show outcome (if 6 ≤ data.length then _ else none) = _
    split <;> rfl
  rw [if_neg v4,if_neg v4]
  by_cases domain : atyp = 0x03
  · rw [if_pos domain,if_pos domain,streamReads]
    show outcome (if 1 ≤ data.length then _ else none) = _
    split
    · show outcome ((readDomain ((data.take 1).getD 0 0).toNat >>= f).alone (data.drop 1)) = _
      rw [readDomain]
      show _ = Except.bind (if _ ∨ _ then _ else _) _
      split
      · rfl
      · rw [streamReads]
        show outcome (if ((data.take 1).getD 0 0).toNat ≤ (data.drop 1).length then _ else none) = _
        split
        · show _ = Except.bind (Except.bind (Inbound.Stream.readExact 2 ⟨_,false⟩) _) _
          rw [streamReads]
          show outcome (if 2 ≤ ((data.drop 1).drop _).length then _ else none) = _
          split
          · cases fromUtf8 ((data.drop 1).take ((data.take 1).getD 0 0).toNat) <;> rfl
          · rfl
        · rfl
    · rfl
  rw [if_neg domain,if_neg domain]
  by_cases v6 : atyp = 0x04
  · rw [if_pos v6,if_pos v6,streamReads]
    show outcome (if 18 ≤ data.length then _ else none) = _
    split <;> rfl
  · rw [if_neg v6,if_neg v6]
    rfl

theorem commandReads (cmd : UInt8) (host : Host) (port : UInt16) (s : Inbound.Stream) :
    outcome ((commandTarget cmd (host,port)).alone s.bytes) =
      ((Inbound.socks5Target cmd host port).bind (fun target => .ok (target,s))).map (fun got => (got.1,got.2.bytes)) := by
  unfold commandTarget cmdConnect cmdUdpAssociate Inbound.socks5Target
  by_cases tcp : cmd = 0x01
  · rw [if_pos tcp,if_pos tcp]
    rfl
  by_cases udp : cmd = 0x03
  · rw [if_neg tcp,if_neg tcp,if_pos udp,if_pos udp]
    rfl
  · rw [if_neg tcp,if_neg tcp,if_neg udp,if_neg udp]
    rfl

theorem handshakeReads : outcome (handshakeInner.alone data) =
    (Inbound.socks5Handshake Inbound.Stream.readExact ⟨data,false⟩).map (fun got => (got.1,got.2.bytes)) := by
  unfold handshakeInner Inbound.socks5Handshake socksVersion methodNoAuth
  rw [takeReads,streamReads]
  split
  · show outcome (Party.alone (if _ then _ else if _ ∨ _ then _ else _) _) = Except.map _ (if _ then _ else if _ ∨ _ then _ else _)
    split
    · rfl
    split
    · rfl
    rw [takeReads,streamReads]
    split
    · show outcome (Party.alone (if _ then _ else _) _) = Except.map _ (if _ then _ else _)
      split
      · rfl
      · show outcome (readRequest.alone _) = _
        unfold readRequest socksVersion
        rw [takeReads,streamReads]
        split
        · show outcome (Party.alone (if _ ∨ _ then _ else _) _) = Except.map _ (if _ ∨ _ then _ else _)
          split
          · rfl
          · rw [addressReads]
            cases Inbound.readAddress Inbound.Stream.readExact _ _ with
            | error e => rfl
            | ok got =>
              show outcome (Party.alone (commandTarget _ _) _) = Except.map _ (Except.bind (Inbound.socks5Target _ _ _) _)
              exact commandReads _ got.1 got.2.1 got.2.2
        · rfl
    · rfl
  · rfl

end Handshake

end KanoTls.Socks5
