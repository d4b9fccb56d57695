import KanoTls.Pending

/-! The UoT packet of `uot.rs`: an address, a two-byte length and the payload. A relay
returns the credit of a packet only when it decodes. -/
namespace KanoTls.Uot
open Pending

inductive SocketAddr where
  | v4 (ip : List UInt8) (port : Nat)
  | v6 (ip : List UInt8) (port : Nat)
  deriving DecidableEq, Repr

def fromBeBytes (high low : UInt8) : Nat := high.toNat * 256 + low.toNat
def toBeBytes (n : Nat) : List UInt8 := [UInt8.ofNat (n / 256),UInt8.ofNat n]

def encodeAddr : SocketAddr → List UInt8
  | .v4 ip port => 0x01::ip ++ toBeBytes port
  | .v6 ip port => 0x04::ip ++ toBeBytes port

def encodeUdpPacket (data : Payload) (addr : SocketAddr) (maxPayload : Nat) : Option Payload :=
  if data.length > maxPayload - ((encodeAddr addr).length + 2) then none
  else some (encodeAddr addr ++ toBeBytes data.length ++ data)

def decodeAddr : Payload → Option (SocketAddr × Payload)
  | 0x01::rest =>
    if rest.length < 7 then none else
    match rest.drop 4 with
    | high::low::tail =>
      if fromBeBytes high low = 0 then none else some (.v4 (rest.take 4) (fromBeBytes high low),tail)
    | _ => none
  | 0x04::rest =>
    if rest.length < 19 then none else
    match rest.drop 16 with
    | high::low::tail =>
      if fromBeBytes high low = 0 then none else some (.v6 (rest.take 16) (fromBeBytes high low),tail)
    | _ => none
  | _ => none

def decodeUdpPacket (data : Payload) : Option (SocketAddr × Payload) :=
  match decodeAddr data with
  | some (addr,high::low::tail) =>
    if tail.length < fromBeBytes high low then none else some (addr,tail.take (fromBeBytes high low))
  | _ => none

def SocketAddr.wellFormed : SocketAddr → Prop
  | .v4 ip port => ip.length = 4 ∧ 0 < port ∧ port < 65536
  | .v6 ip port => ip.length = 16 ∧ 0 < port ∧ port < 65536

theorem fromToBeBytes {n : Nat} (small : n < 65536) : fromBeBytes (UInt8.ofNat (n / 256)) (UInt8.ofNat n) = n := by
  simp only [fromBeBytes,UInt8.toNat_ofNat']
  omega

theorem decodeEncodeAddr {addr : SocketAddr} (formed : addr.wellFormed) (tail : Payload) (room : 1 ≤ tail.length) :
    decodeAddr (encodeAddr addr ++ tail) = some (addr,tail) := by
  cases addr with
  | v4 ip port =>
    obtain ⟨four,positive,small⟩ := formed
    have again := fromToBeBytes small
    have rest : (ip ++ toBeBytes port ++ tail).drop 4 = UInt8.ofNat (port / 256)::UInt8.ofNat port::tail := by
      rw [List.append_assoc,← four,List.drop_left]
      rfl
    have first : (ip ++ toBeBytes port ++ tail).take 4 = ip := by
      rw [List.append_assoc,← four,List.take_left]
    have long : ¬ (ip ++ toBeBytes port ++ tail).length < 7 := by
      simp only [List.length_append,toBeBytes,List.length_cons,List.length_nil]
      omega
    show decodeAddr (0x01::(ip ++ toBeBytes port ++ tail)) = _
    simp only [decodeAddr,long,if_false,rest,again,first,Nat.ne_of_gt positive]
  | v6 ip port =>
    obtain ⟨sixteen,positive,small⟩ := formed
    have again := fromToBeBytes small
    have rest : (ip ++ toBeBytes port ++ tail).drop 16 = UInt8.ofNat (port / 256)::UInt8.ofNat port::tail := by
      rw [List.append_assoc,← sixteen,List.drop_left]
      rfl
    have first : (ip ++ toBeBytes port ++ tail).take 16 = ip := by
      rw [List.append_assoc,← sixteen,List.take_left]
    have long : ¬ (ip ++ toBeBytes port ++ tail).length < 19 := by
      simp only [List.length_append,toBeBytes,List.length_cons,List.length_nil]
      omega
    show decodeAddr (0x04::(ip ++ toBeBytes port ++ tail)) = _
    simp only [decodeAddr,long,if_false,rest,again,first,Nat.ne_of_gt positive]

theorem decodeEncode {addr : SocketAddr} {data packet : Payload} {maxPayload : Nat} (formed : addr.wellFormed)
    (small : data.length < 65536) (encoded : encodeUdpPacket data addr maxPayload = some packet) :
    decodeUdpPacket packet = some (addr,data) := by
  unfold encodeUdpPacket at encoded
  split at encoded
  · contradiction
  · cases Option.some.inj encoded
    have address := decodeEncodeAddr formed (toBeBytes data.length ++ data) (by simp [toBeBytes])
    rw [← List.append_assoc] at address
    have again := fromToBeBytes small
    unfold decodeUdpPacket
    rw [address]
    simp only [toBeBytes,List.cons_append,List.nil_append,again,Nat.lt_irrefl,if_false,List.take_length]

end KanoTls.Uot
