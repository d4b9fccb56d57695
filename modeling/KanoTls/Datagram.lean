import KanoTls.FrameStream

/-! UDP over the tunnel: the SOCKS5 datagrams of `uot.rs` and the path that the two UDP
relays give them. Nothing but the one PSH frame of a datagram marks where it ends. -/
namespace KanoTls.Datagram
open Pending Uot Wire

def encodeSocks5Udp (data : Bytes) (addr : SocketAddr) : Bytes := [0x00,0x00,0x00] ++ encodeAddr addr ++ data

def socks5Addr (make : List UInt8 → Nat → SocketAddr) (ipLen : Nat) (rest : Bytes) : Option (SocketAddr × Bytes) :=
  match rest.drop ipLen with
  | high::low::data =>
    if fromBeBytes high low = 0 then none else some (make (rest.take ipLen) (fromBeBytes high low),data)
  | _ => none

def decodeSocks5Udp (data : Bytes) : Option (SocketAddr × Bytes) :=
  match data with
  | 0x00::0x00::0x00::atyp::rest =>
    if atyp = 0x01 then if data.length < 10 then none else socks5Addr .v4 4 rest
    else if atyp = 0x04 then if data.length < 22 then none else socks5Addr .v6 16 rest
    else none
  | _ => none

/- A datagram into the tunnel: `encode_udp_packet` and the PSH frames of the write. -/
def sendUdp (sid : Nat) (pair : SocketAddr × Bytes) : Option (List Bytes) := do
  let packet ← encodeUdpPacket pair.2 pair.1 maxPayloadLen
  encodePshFrames sid packet

/- `relay_udp_client_mode` on a datagram of its peer, and on a payload of the tunnel. -/
def relayUdpClientUp (sid : Nat) (datagram : Bytes) : Option (List Bytes) := (decodeSocks5Udp datagram).bind (sendUdp sid)

def relayUdpClientDown (payload : Bytes) : Option Bytes :=
  (decodeUdpPacket payload).map (fun pair => encodeSocks5Udp pair.2 pair.1)

def Fits (pair : SocketAddr × Bytes) : Prop := (encodeAddr pair.1).length + 2 + pair.2.length ≤ maxPayloadLen

instance (pair : SocketAddr × Bytes) : Decidable (Fits pair) := inferInstanceAs (Decidable (_ ≤ _))

section Socks5

theorem socks5AddrBack {make : List UInt8 → Nat → SocketAddr} {ip : List UInt8} {port : Nat} (positive : 0 < port)
    (small : port < 65536) (data : Bytes) :
    socks5Addr make ip.length (ip ++ toBeBytes port ++ data) = some (make ip port,data) := by
  have again := fromToBeBytes small
  have rest : (ip ++ toBeBytes port ++ data).drop ip.length = UInt8.ofNat (port / 256)::UInt8.ofNat port::data := by
    rw [List.append_assoc,List.drop_left]
    rfl
  have first : (ip ++ toBeBytes port ++ data).take ip.length = ip := by
    rw [List.append_assoc,List.take_left]
  simp only [socks5Addr,rest,again,first,Nat.ne_of_gt positive,if_false]

theorem socks5AddrFormed {make : List UInt8 → Nat → SocketAddr} {ipLen : Nat} {rest data : Bytes} {addr : SocketAddr}
    (found : socks5Addr make ipLen rest = some (addr,data)) :
    ∃ ip port, addr = make ip port ∧ ip.length = ipLen ∧ 0 < port ∧ port < 65536 := by
  unfold socks5Addr at found
  cases after : rest.drop ipLen with
  | nil =>
    rw [after] at found
    contradiction
  | cons high more =>
    cases more with
    | nil =>
      rw [after] at found
      contradiction
    | cons low tail =>
      rw [after] at found
      obtain ⟨nonzero,built⟩ := Option.ite_none_left_eq_some.mp found
      cases Option.some.inj built
      have long := congrArg List.length after
      rw [List.length_drop,List.length_cons] at long
      refine ⟨_,_,rfl,?_,Nat.pos_of_ne_zero nonzero,fromBeBytesSmall high low⟩
      rw [List.length_take]
      omega

theorem decodeEncodeSocks5 {addr : SocketAddr} (formed : addr.wellFormed) (data : Bytes) :
    decodeSocks5Udp (encodeSocks5Udp data addr) = some (addr,data) := by
  cases addr with
  | v4 ip port =>
    obtain ⟨four,positive,small⟩ := formed
    have long : ¬ (0x00::0x00::0x00::0x01::(ip ++ toBeBytes port ++ data)).length < 10 := by
      simp only [List.length_cons,List.length_append,toBeBytes,List.length_nil]
      omega
    have back := @socks5AddrBack .v4 ip port positive small data
    rw [four] at back
    show decodeSocks5Udp (0x00::0x00::0x00::0x01::(ip ++ toBeBytes port ++ data)) = _
    rw [decodeSocks5Udp,if_pos rfl,if_neg long,back]
  | v6 ip port =>
    obtain ⟨sixteen,positive,small⟩ := formed
    have long : ¬ (0x00::0x00::0x00::0x04::(ip ++ toBeBytes port ++ data)).length < 22 := by
      simp only [List.length_cons,List.length_append,toBeBytes,List.length_nil]
      omega
    have back := @socks5AddrBack .v6 ip port positive small data
    rw [sixteen] at back
    show decodeSocks5Udp (0x00::0x00::0x00::0x04::(ip ++ toBeBytes port ++ data)) = _
    rw [decodeSocks5Udp,if_neg (by decide),if_pos rfl,if_neg long,back]

theorem decodedFormed {datagram data : Bytes} {addr : SocketAddr} (found : decodeSocks5Udp datagram = some (addr,data)) :
    addr.wellFormed := by
  unfold decodeSocks5Udp at found
  split at found
  · split at found
    · obtain ⟨_,address⟩ := Option.ite_none_left_eq_some.mp found
      obtain ⟨ip,port,rfl,size,positive,small⟩ := socks5AddrFormed address
      exact ⟨size,positive,small⟩
    · obtain ⟨_,more⟩ := Option.ite_none_right_eq_some.mp found
      obtain ⟨_,address⟩ := Option.ite_none_left_eq_some.mp more
      obtain ⟨ip,port,rfl,size,positive,small⟩ := socks5AddrFormed address
      exact ⟨size,positive,small⟩
  · contradiction

end Socks5

section Tunnel
variable {sid : Nat} {pairs : List (SocketAddr × Bytes)}

theorem chunksWhole {packet : Bytes} (nonempty : packet ≠ []) (small : packet.length ≤ maxPayloadLen) :
    Link.chunks packet.length packet = [packet] := by
  cases packet with
  | nil => exact absurd rfl nonempty
  | cons first rest =>
    have whole : (first::rest).take Link.maxPayloadLen = first::rest := List.take_of_length_le small
    have nothing : (first::rest).drop Link.maxPayloadLen = [] := List.drop_eq_nil_of_le small
    rw [List.length_cons,Link.chunks,whole,nothing]
    · cases rest <;> rfl
    · exact List.cons_ne_nil first rest

structure Carries (sid : Nat) (f : Frame) (pair : SocketAddr × Bytes) : Prop where
  sent : sendUdp sid pair = some [f.encode]
  psh : f.cmd = cmdPsh
  stream : f.sid = sid
  formed : pair.1.wellFormed
  decoded : decodeUdpPacket f.payload = some pair

theorem carried (fits : sid < 2^32) {pair : SocketAddr × Bytes} (formed : pair.1.wellFormed) (room : Fits pair) :
    ∃ f, Carries sid f pair := by
  obtain ⟨addr,data⟩ := pair
  rw [Fits] at room
  dsimp only at room formed
  have encoded : encodeUdpPacket data addr maxPayloadLen = some (encodeAddr addr ++ toBeBytes data.length ++ data) := by
    rw [encodeUdpPacket,if_neg (by omega)]
  have small : (encodeAddr addr ++ toBeBytes data.length ++ data).length ≤ maxPayloadLen := by
    rw [List.length_append,List.length_append,toBeBytes]
    exact room
  have nonempty : encodeAddr addr ++ toBeBytes data.length ++ data ≠ [] := by
    cases addr <;> exact List.cons_ne_nil _ _
  have decoded := Uot.decodeEncode formed (by rw [maxPayloadLen] at room; omega) encoded
  generalize encodeAddr addr ++ toBeBytes data.length ++ data = packet at encoded small nonempty decoded
  refine ⟨pshFrame sid fits packet small,?_,rfl,rfl,formed,decoded⟩
  have pushed : encodePshInto [] sid packet = some (pshFrame sid fits packet small).encode := by
    rw [encodePshInto,if_neg (Nat.not_lt.mpr small)]
    rfl
  rw [sendUdp]
  dsimp only
  rw [encoded,Option.bind_eq_bind,Option.bind_some,encodePshFrames,chunksWhole nonempty small,List.mapM_cons,pushed]
  rfl

theorem allCarried (fits : sid < 2^32) (formed : ∀ pair ∈ pairs, pair.1.wellFormed ∧ Fits pair) :
    ∃ frames : List Frame, List.Forall₂ (Carries sid) frames pairs := by
  induction pairs with
  | nil => exact ⟨[],.nil⟩
  | cons pair rest ih =>
    obtain ⟨address,room⟩ := formed pair List.mem_cons_self
    obtain ⟨f,carries⟩ := carried fits address room
    obtain ⟨frames,others⟩ := ih (fun other member => formed other (List.mem_cons_of_mem _ member))
    exact ⟨f::frames,.cons carries others⟩

theorem sentAll {frames : List Frame} (carried : List.Forall₂ (Carries sid) frames pairs) :
    pairs.mapM (sendUdp sid) = some (frames.map (fun f => [f.encode])) := by
  induction carried with
  | nil => rfl
  | cons carries _ ih =>
    rw [List.mapM_cons,carries.sent,ih]
    rfl

theorem decodedAll {frames : List Frame} (carried : List.Forall₂ (Carries sid) frames pairs) :
    frames.map (fun f => decodeUdpPacket f.payload) = pairs.map some := by
  induction carried with
  | nil => rfl
  | cons carries _ ih => rw [List.map_cons,carries.decoded,ih,List.map_cons]

theorem downAll {frames : List Frame} (carried : List.Forall₂ (Carries sid) frames pairs) :
    frames.map (fun f => (relayUdpClientDown f.payload).bind decodeSocks5Udp) = pairs.map some := by
  induction carried with
  | nil => rfl
  | cons carries _ ih =>
    rw [List.map_cons,relayUdpClientDown,carries.decoded,Option.map_some,Option.bind_some,
      decodeEncodeSocks5 carries.formed,ih,
      List.map_cons]

theorem allPsh {frames : List Frame} (carried : List.Forall₂ (Carries sid) frames pairs) :
    ∀ f ∈ frames, f.cmd = cmdPsh ∧ f.sid = sid := by
  induction carried with
  | nil =>
    intro f member
    contradiction
  | cons carries _ ih =>
    intro f member
    rcases List.mem_cons.mp member with rfl | later
    · exact ⟨carries.psh,carries.stream⟩
    · exact ih f later

theorem upAll {datagrams : List Bytes} (accepted : datagrams.mapM decodeSocks5Udp = some pairs) :
    datagrams.mapM (relayUdpClientUp sid) = pairs.mapM (sendUdp sid) := by
  induction datagrams generalizing pairs with
  | nil =>
    cases Option.some.inj accepted
    rfl
  | cons datagram rest ih =>
    rw [List.mapM_cons] at accepted
    obtain ⟨pair,first,more⟩ := Option.bind_eq_some_iff.mp accepted
    obtain ⟨others,later,done⟩ := Option.bind_eq_some_iff.mp more
    cases Option.some.inj done
    rw [List.mapM_cons,List.mapM_cons,ih later,relayUdpClientUp,first]
    rfl

theorem acceptedFormed {datagrams : List Bytes} (accepted : datagrams.mapM decodeSocks5Udp = some pairs) :
    ∀ pair ∈ pairs, pair.1.wellFormed := by
  induction datagrams generalizing pairs with
  | nil =>
    cases Option.some.inj accepted
    intro pair member
    contradiction
  | cons datagram rest ih =>
    rw [List.mapM_cons] at accepted
    obtain ⟨first,found,more⟩ := Option.bind_eq_some_iff.mp accepted
    obtain ⟨others,later,done⟩ := Option.bind_eq_some_iff.mp more
    cases Option.some.inj done
    intro pair member
    rcases List.mem_cons.mp member with rfl | here
    · exact decodedFormed found
    · exact ih later pair here

end Tunnel

theorem datagramsSurvive {sid : Nat} (fits : sid < 2^32) :
    (∀ (datagrams : List Bytes) (pairs : List (SocketAddr × Bytes)), datagrams.mapM decodeSocks5Udp = some pairs →
      (∀ pair ∈ pairs, Fits pair) →
      ∃ frames : List Frame, datagrams.mapM (relayUdpClientUp sid) = some (frames.map (fun f => [f.encode])) ∧
        (∀ f ∈ frames, f.cmd = cmdPsh ∧ f.sid = sid) ∧
        ∀ chunks : List Bytes, chunks.flatten = encodeAll frames →
          feed [] chunks = (frames,[]) ∧ frames.map (fun f => decodeUdpPacket f.payload) = pairs.map some) ∧
    ∀ pairs : List (SocketAddr × Bytes), (∀ pair ∈ pairs, pair.1.wellFormed ∧ Fits pair) →
      ∃ frames : List Frame, pairs.mapM (sendUdp sid) = some (frames.map (fun f => [f.encode])) ∧
        (∀ f ∈ frames, f.cmd = cmdPsh ∧ f.sid = sid) ∧
        ∀ chunks : List Bytes, chunks.flatten = encodeAll frames →
          feed [] chunks = (frames,[]) ∧
          frames.map (fun f => (relayUdpClientDown f.payload).bind decodeSocks5Udp) = pairs.map some := by
  constructor
  · intro datagrams pairs accepted room
    have formed := acceptedFormed accepted
    obtain ⟨frames,carried⟩ := allCarried fits (fun pair member => ⟨formed pair member,room pair member⟩)
    refine ⟨frames,?_,allPsh carried,fun chunks cut => ⟨feedWhole chunks [] frames rfl cut,decodedAll carried⟩⟩
    rw [upAll accepted,sentAll carried]
  · intro pairs formed
    obtain ⟨frames,carried⟩ := allCarried fits formed
    exact ⟨frames,sentAll carried,allPsh carried,fun chunks cut => ⟨feedWhole chunks [] frames rfl cut,downAll carried⟩⟩

def sampleDatagrams : List Bytes :=
  [[0,0,0,0x01,8,8,8,8,0,53,1,2],[0,0,0,0x04] ++ List.replicate 16 1 ++ [0xff,0xff]]

theorem datagramsSurviveTwo : ∃ frames : List Frame,
    sampleDatagrams.mapM (relayUdpClientUp 3) = some (frames.map (fun f => [f.encode])) ∧
    feed [] [(encodeAll frames).take 3,(encodeAll frames).drop 3] = (frames,[]) ∧
    frames.map (fun f => decodeUdpPacket f.payload) =
      [some (.v4 [8,8,8,8] 53,[1,2]),some (.v6 (List.replicate 16 1) 65535,[])] := by
  obtain ⟨frames,sent,_,arrives⟩ := (@datagramsSurvive 3 (by decide)).1 sampleDatagrams
    [(.v4 [8,8,8,8] 53,[1,2]),(.v6 (List.replicate 16 1) 65535,[])] (by decide) (by decide)
  have whole : [(encodeAll frames).take 3,(encodeAll frames).drop 3].flatten = encodeAll frames := by simp
  exact ⟨frames,sent,arrives _ whole⟩

end KanoTls.Datagram
