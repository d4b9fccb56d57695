import KanoTls.Destination
import KanoTls.Inbound
import KanoTls.Datagram
import KanoTls.Relay

/-! The ways out of the server: `DirectOutbound::connect`, which dials every address that the
resolver gives and the guard admits, and `relay_udp_server`, which sends what the packets of a
stream ask for. -/
namespace KanoTls.Outbound
open Text IpText Target Destination
open Wire (Bytes fromBeBytesSmall)
open Uot (decodeUdpPacket)
open Datagram (encodeSocks5Udp)

/- The answer of `dns::resolve`; `ε` is an error of the system. -/
abbrev Resolver (ε : Type) := Text → UInt16 → Except ε (List SocketAddr)

inductive ResolveError (ε : Type) where
  | blocked (addr : SocketAddr) | lookup (error : ε) | unresolved
  deriving DecidableEq, Repr

section Direct
variable {ε : Type}

def check (addr : SocketAddr) : Except (ResolveError ε) (List SocketAddr) :=
  if isBlockedDestination addr then .error (.blocked addr) else .ok [addr]

def resolveRemoteTarget (resolve : Resolver ε) (target : Target) : Except (ResolveError ε) (List SocketAddr) :=
  match target.host with
  | .ipv4 ip => check ⟨.v4 ip,target.port⟩
  | .ipv6 ip => check ⟨.v6 ip,target.port⟩
  | .domain name =>
    match resolve name target.port with
    | .error e => .error (.lookup e)
    | .ok resolved =>
      let allowed := resolved.filter (fun addr => !isBlockedDestination addr)
      if allowed = [] then .error .unresolved else .ok allowed

/- A task of the race has not yet run, has called `TcpStream::connect`, or is joined. -/
inductive TaskPc where
  | spawned | dialing | joined
  deriving DecidableEq, Repr

inductive DialError (ε : Type) where
  | failed (addr : SocketAddr) (error : ε) | timedOut (addr : SocketAddr) | task (error : ε)
  deriving DecidableEq, Repr

/- How a task ends. `connected` is with the answer of `set_nodelay`. -/
inductive Joined (ε : Type) where
  | connected (nodelay : Except ε Unit) | refused (error : ε) | timedOut | broken (error : ε)

inductive ConnectError (ε : Type) where
  | resolve (error : ResolveError ε) | nodelay (error : ε) | dial (error : DialError ε) | noUsableAddress (target : Target)

structure Race (ε : Type) where
  target : Target
  tasks : List (SocketAddr × TaskPc) := []
  lastErr : Option (DialError ε) := none
  result : Option (Except (ConnectError ε) SocketAddr) := none

inductive RaceLabel (ε : Type) where
  | dial (i : Nat) | join (i : Nat) (outcome : Joined ε) | exhausted

/- `connect` up to the loop: one task for every address. -/
def connect (resolve : Resolver ε) (target : Target) : Race ε :=
  match resolveRemoteTarget resolve target with
  | .error e => {target,result := some (.error (.resolve e))}
  | .ok addrs => {target,tasks := addrs.map (fun addr => (addr,.spawned))}

/- `join_next` on a task. The first stream wins; what the others do is dropped. -/
def joins (r : Race ε) (i : Nat) (addr : SocketAddr) (outcome : Joined ε) : Race ε :=
  let r := {r with tasks := r.tasks.set i (addr,.joined)}
  match outcome with
  | .connected (.ok _) => {r with result := some (.ok addr)}
  | .connected (.error e) => {r with result := some (.error (.nodelay e))}
  | .refused e => {r with lastErr := some (.failed addr e)}
  | .timedOut => {r with lastErr := some (.timedOut addr)}
  | .broken e => {r with lastErr := some (.task e)}

def raceStep (r : Race ε) (label : RaceLabel ε) : Option (Race ε) :=
  if r.result.isSome then none
  else
    match label with
    | .dial i =>
      match r.tasks[i]? with
      | some (addr,.spawned) => some {r with tasks := r.tasks.set i (addr,.dialing)}
      | _ => none
    | .join i outcome =>
      match r.tasks[i]? with
      | some (addr,.dialing) => some (joins r i addr outcome)
      | _ => none
    | .exhausted =>
      if r.tasks.all (fun task => task.2 = .joined) then
        let error := match r.lastErr with
          | some e => .dial e
          | none => .noUsableAddress r.target
        some {r with result := some (.error error)}
      else none

def Race.dialed (r : Race ε) : List SocketAddr := (r.tasks.filter (fun task => task.2 ≠ .spawned)).map Prod.fst

abbrev Races (resolve : Resolver ε) (target : Target) : Race ε → Prop :=
  Machine.Reach raceStep Machine.Always (connect resolve target)

end Direct

section Udp

def ofPacket : Uot.SocketAddr → SocketAddr
  | .v4 ip port => ⟨.v4 (Inbound.octets4 ip),UInt16.ofNat port⟩
  | .v6 ip port => ⟨.v6 (Inbound.octets16 ip),UInt16.ofNat port⟩

def toPacket (addr : SocketAddr) : Uot.SocketAddr :=
  match addr.ip with
  | .v4 ip => .v4 [ip.a,ip.b,ip.c,ip.d] addr.port.toNat
  | .v6 ip => .v6 (ip.segments.flatMap (fun segment => [highByte segment,lowByte segment])) addr.port.toNat

/- The upstream proxy names the address of its own relay. -/
inductive UdpRelay where
  | direct | socks5 (relayAddr : SocketAddr)
  deriving DecidableEq, Repr

def UdpRelay.sendTo (relay : UdpRelay) (payload : Bytes) (target : SocketAddr) : SocketAddr × Bytes :=
  match relay with
  | .direct => (target,payload)
  | .socks5 relayAddr => (relayAddr,encodeSocks5Udp payload (toPacket target))

/- `sent` are the calls of `send_to`, `consumed` those of `note_consumed`. -/
structure UdpServer where
  relay : UdpRelay
  sent : List (Bytes × SocketAddr) := []
  consumed : List Nat := []
  written : List Bytes := []
  ended : Bool := false
  deriving DecidableEq, Repr

inductive UdpLabel where
  | read (data : Option Bytes) | packet (packet : Bytes) (accepted : Bool) | idle | controlClosed
  deriving DecidableEq, Repr

def passesOn (s : UdpServer) (data : Bytes) : UdpServer :=
  match decodeUdpPacket data with
  | none => s
  | some (addr,payload) =>
    if isBlockedDestination (ofPacket addr) then {s with consumed := s.consumed ++ [data.length]}
    else {s with sent := s.sent ++ [(payload,ofPacket addr)],consumed := s.consumed ++ [data.length]}

def udpStep (s : UdpServer) (label : UdpLabel) : Option UdpServer :=
  if s.ended then none
  else
    match label with
    | .read (some data) => some (passesOn s data)
    | .read none => some {s with ended := true}
    | .packet packet accepted =>
      some (if accepted then {s with written := s.written ++ [packet]} else {s with ended := true})
    | .idle => some {s with ended := true}
    | .controlClosed => if s.relay = .direct then none else some {s with ended := true}

def UdpServer.datagrams (s : UdpServer) : List (SocketAddr × Bytes) := s.sent.map (fun call => s.relay.sendTo call.1 call.2)

abbrev RelaysUdp (relay : UdpRelay) : UdpServer → Prop := Machine.Reach udpStep Machine.Always {relay}

end Udp

def Admitted (addr : SocketAddr) : Prop := isBlockedDestination addr = false

section Dialed
variable {ε : Type} {resolve : Resolver ε} {target : Target} {addrs : List SocketAddr}

theorem checkAdmitted {addr : SocketAddr} (checked : check addr = (.ok addrs : Except (ResolveError ε) _)) :
    addrs = [addr] ∧ Admitted addr := by
  unfold check at checked
  split at checked
  · contradiction
  · rename_i open'
    cases checked
    exact ⟨rfl,Bool.eq_false_iff.mpr open'⟩

theorem resolvedAdmitted (resolved : resolveRemoteTarget resolve target = .ok addrs) :
    addrs ≠ [] ∧ ∀ addr ∈ addrs, Admitted addr := by
  unfold resolveRemoteTarget at resolved
  split at resolved
  · obtain ⟨rfl,admitted⟩ := checkAdmitted resolved
    exact ⟨List.cons_ne_nil _ _,List.forall_mem_singleton.mpr admitted⟩
  · obtain ⟨rfl,admitted⟩ := checkAdmitted resolved
    exact ⟨List.cons_ne_nil _ _,List.forall_mem_singleton.mpr admitted⟩
  · split at resolved
    · contradiction
    · dsimp only at resolved
      split at resolved
      · contradiction
      · rename_i some
        cases resolved
        refine ⟨some,?_⟩
        intro addr member
        simpa [Admitted] using (List.mem_filter.mp member).2

theorem setAddresses {tasks : List (SocketAddr × TaskPc)} {i : Nat} {addr : SocketAddr} {pc : TaskPc}
    (found : tasks[i]? = some (addr,pc)) (new : TaskPc) : (tasks.set i (addr,new)).map Prod.fst = tasks.map Prod.fst := by
  rw [List.map_set]
  have here : (tasks.map Prod.fst)[i]? = some addr := by rw [List.getElem?_map,found]; rfl
  obtain ⟨inside,same⟩ := List.getElem?_eq_some_iff.mp here
  rw [← same]
  exact List.set_getElem_self inside

theorem joinsTasks (r : Race ε) (i : Nat) (addr : SocketAddr) (outcome : Joined ε) :
    (joins r i addr outcome).tasks = r.tasks.set i (addr,.joined) := by
  unfold joins
  cases outcome with
  | connected nodelay => cases nodelay <;> rfl
  | refused e => rfl
  | timedOut => rfl
  | broken e => rfl

theorem raceAddresses {r t : Race ε} {label : RaceLabel ε} (moved : raceStep r label = some t) :
    t.tasks.map Prod.fst = r.tasks.map Prod.fst := by
  unfold raceStep at moved
  split at moved
  · contradiction
  · split at moved
    · split at moved
      · rename_i found
        cases Option.some.inj moved
        exact setAddresses found _
      · contradiction
    · split at moved
      · rename_i found
        cases Option.some.inj moved
        rw [joinsTasks]
        exact setAddresses found _
      · contradiction
    · split at moved
      · cases Option.some.inj moved
        rfl
      · contradiction

def Race.Guarded (r : Race ε) : Prop := ∀ addr ∈ r.tasks.map Prod.fst, Admitted addr

theorem connectGuarded : (connect resolve target).Guarded := by
  unfold connect
  split
  · intro addr member
    exact absurd member List.not_mem_nil
  · rename_i addrs resolved
    intro addr member
    rw [List.map_map] at member
    obtain ⟨one,found,rfl⟩ := List.mem_map.mp member
    exact (resolvedAdmitted resolved).2 one found

theorem dialedAdmitted {r : Race ε} (reached : Races resolve target r) : ∀ addr ∈ r.dialed, Admitted addr := by
  have kept : r.Guarded := by
    refine Machine.reachInvariant connectGuarded ?_ reached
    intro s label t guarded _ moved
    rwa [Race.Guarded,raceAddresses moved]
  intro addr member
  obtain ⟨task,found,rfl⟩ := List.mem_map.mp member
  exact kept _ (List.mem_map_of_mem (List.mem_of_mem_filter found))

end Dialed

section Packet

theorem wordBytes (a b : UInt8) : highByte (word a b) = a ∧ lowByte (word a b) = b := by
  have high := a.toNat_lt
  have low := b.toNat_lt
  unfold highByte lowByte word
  rw [UInt16.toNat_ofNat']
  constructor
  · refine UInt8.toNat_inj.mp ?_
    rw [UInt8.toNat_ofNat']
    omega
  · refine UInt8.toNat_inj.mp ?_
    rw [UInt8.toNat_ofNat']
    omega

theorem wordsBack (n : Nat) (ip : Bytes) (even : ip.length = 2*n) :
    ((List.range n).map (fun i => word (ip.getD (2*i) 0) (ip.getD (2*i + 1) 0))).flatMap
      (fun segment => [highByte segment,lowByte segment]) = ip := by
  induction n generalizing ip with
  | zero => rw [List.eq_nil_of_length_eq_zero even,List.range_zero,List.map_nil,List.flatMap_nil]
  | succ n ih =>
    rcases ip with _ | ⟨a,_ | ⟨b,rest⟩⟩
    · simp at even
    · simp at even
      omega
    · have again := ih rest (by simp at even; omega)
      obtain ⟨high,low⟩ := wordBytes a b
      have shift : ∀ i, (a::b::rest).getD (2*(i + 1)) 0 = rest.getD (2*i) 0 := fun i => by
        rw [Nat.mul_add,List.getD_cons_succ,List.getD_cons_succ]
      have shiftLow : ∀ i, (a::b::rest).getD (2*(i + 1) + 1) 0 = rest.getD (2*i + 1) 0 := fun i => by
        rw [Nat.mul_add,Nat.add_right_comm,List.getD_cons_succ,List.getD_cons_succ]
      rw [List.range_succ_eq_map,List.map_cons,List.map_map,List.flatMap_cons]
      simp only [Function.comp_def,Nat.succ_eq_add_one,shift,shiftLow]
      rw [again,Nat.mul_zero,List.getD_cons_zero,Nat.zero_add,List.getD_cons_succ,List.getD_cons_zero,high,low]
      rfl

theorem packetBack {addr : Uot.SocketAddr} (formed : addr.wellFormed) : toPacket (ofPacket addr) = addr := by
  cases addr with
  | v4 ip port =>
    obtain ⟨four,positive,small⟩ := formed
    rcases ip with _ | ⟨a,_ | ⟨b,_ | ⟨c,_ | ⟨d,_ | ⟨e,rest⟩⟩⟩⟩⟩ <;> simp at four
    simp only [ofPacket,toPacket,Inbound.octets4,UInt16.toNat_ofNat',Nat.mod_eq_of_lt small]
    rfl
  | v6 ip port =>
    obtain ⟨sixteen,positive,small⟩ := formed
    simp only [ofPacket,toPacket,Inbound.octets16,UInt16.toNat_ofNat',Nat.mod_eq_of_lt small]
    rw [wordsBack 8 ip sixteen]

theorem addrFormed {data tail : Bytes} {addr : Uot.SocketAddr} (found : Uot.decodeAddr data = some (addr,tail)) :
    addr.wellFormed := by
  have taken : ∀ {rest : Bytes} {n : Nat}, ¬ rest.length < n + 3 → (rest.take n).length = n := by
    intro rest n long
    rw [List.length_take]
    omega
  unfold Uot.decodeAddr at found
  split at found
  · obtain ⟨long,rest⟩ := Option.ite_none_left_eq_some.mp found
    split at rest
    · rename_i high low tail _
      obtain ⟨nonzero,same⟩ := Option.ite_none_left_eq_some.mp rest
      cases Option.some.inj same
      exact ⟨taken long,Nat.pos_of_ne_zero nonzero,fromBeBytesSmall high low⟩
    · contradiction
  · obtain ⟨long,rest⟩ := Option.ite_none_left_eq_some.mp found
    split at rest
    · rename_i high low tail _
      obtain ⟨nonzero,same⟩ := Option.ite_none_left_eq_some.mp rest
      cases Option.some.inj same
      exact ⟨taken long,Nat.pos_of_ne_zero nonzero,fromBeBytesSmall high low⟩
    · contradiction
  · contradiction

theorem packetFormed {data payload : Bytes} {addr : Uot.SocketAddr} (found : decodeUdpPacket data = some (addr,payload)) :
    addr.wellFormed := by
  unfold decodeUdpPacket at found
  split at found
  · rename_i decoded
    obtain ⟨_,same⟩ := Option.ite_none_left_eq_some.mp found
    cases Option.some.inj same
    exact addrFormed decoded
  · contradiction

end Packet

section Sent
variable {relay : UdpRelay} {s t : UdpServer} {label : UdpLabel} {P : Bytes × SocketAddr → Prop}

def Passing (P : Bytes × SocketAddr → Prop) : Prop :=
  ∀ {data payload : Bytes} {addr : Uot.SocketAddr}, decodeUdpPacket data = some (addr,payload) →
    Admitted (ofPacket addr) → P (payload,ofPacket addr)

theorem passesSent (passing : Passing P) (before : ∀ call ∈ s.sent, P call) (data : Bytes) :
    ∀ call ∈ (passesOn s data).sent, P call := by
  unfold passesOn
  split
  · exact before
  · rename_i addr payload decoded
    split
    · exact before
    · rename_i admitted
      intro call member
      rcases List.mem_append.mp member with old | last
      · exact before call old
      · rw [List.mem_singleton.mp last]
        exact passing decoded (Bool.eq_false_iff.mpr admitted)

theorem udpMoves (moved : udpStep s label = some t) :
    t.relay = s.relay ∧ (t.sent = s.sent ∨ ∃ data, t = passesOn s data) := by
  unfold udpStep at moved
  split at moved
  · contradiction
  · split at moved
    · cases Option.some.inj moved
      refine ⟨?_,.inr ⟨_,rfl⟩⟩
      unfold passesOn
      split
      · rfl
      · split <;> rfl
    · cases Option.some.inj moved
      exact ⟨rfl,.inl rfl⟩
    · cases Option.some.inj moved
      split <;> exact ⟨rfl,.inl rfl⟩
    · cases Option.some.inj moved
      exact ⟨rfl,.inl rfl⟩
    · split at moved
      · contradiction
      · cases Option.some.inj moved
        exact ⟨rfl,.inl rfl⟩

theorem sentPassing (passing : Passing P) (reached : RelaysUdp relay s) : s.relay = relay ∧ ∀ call ∈ s.sent, P call := by
  refine Machine.reachInvariant (I := fun s => s.relay = relay ∧ ∀ call ∈ s.sent, P call) ⟨rfl,?_⟩ ?_ reached
  · intro call member
    exact absurd member List.not_mem_nil
  · intro s label t held _ moved
    obtain ⟨relay,same | ⟨data,rfl⟩⟩ := udpMoves moved
    · refine ⟨relay.trans held.1,?_⟩
      rw [same]
      exact held.2
    · exact ⟨relay.trans held.1,passesSent passing held.2 data⟩

theorem sentAdmitted (reached : RelaysUdp relay s) : ∀ call ∈ s.sent, Admitted call.2 :=
  (@sentPassing relay s (fun call => Admitted call.2) (fun _ admitted => admitted) reached).2

theorem sentNamed (reached : RelaysUdp relay s) :
    ∀ call ∈ s.sent, ∃ data, decodeUdpPacket data = some (toPacket call.2,call.1) := by
  refine (sentPassing ?_ reached).2
  intro data payload addr decoded _
  exact ⟨data,by rw [packetBack (packetFormed decoded),decoded]⟩

/- The datagrams themselves go where the guard admits, unless an upstream proxy names a relay
that it would not: `socks5_send_udp_associate` filters the answer for a name only. -/
theorem datagramsAdmitted (open' : ∀ relayAddr, relay = .socks5 relayAddr → Admitted relayAddr) (reached : RelaysUdp relay s) :
    ∀ datagram ∈ s.datagrams, Admitted datagram.1 := by
  obtain ⟨same,admitted⟩ := @sentPassing relay s (fun call => Admitted call.2) (fun _ admitted => admitted) reached
  intro datagram member
  obtain ⟨call,found,rfl⟩ := List.mem_map.mp member
  rw [same]
  cases relay with
  | direct => exact admitted call found
  | socks5 relayAddr => exact open' relayAddr rfl

def query : Bytes := [0x01,8,8,8,8,0,53,0,1,0]

theorem queryPassed (relay : UdpRelay) :
    ∃ s, RelaysUdp relay s ∧ s.datagrams = [relay.sendTo [0] ⟨.v4 ⟨8,8,8,8⟩,53⟩] :=
  ⟨passesOn {relay} query,.next .start (a := .read (some query)) trivial rfl,rfl⟩

/- The credit is what the relays of a link return, whether the packet is blocked or not. -/
theorem consumedReturns (r : Relays.Relay) (udp : r.network = .udp) (data : Bytes) :
    (passesOn s data).consumed = s.consumed ++ (if r.returns false data then [data.length] else []) := by
  unfold passesOn Relays.Relay.returns
  rw [udp]
  cases decoded : decodeUdpPacket data with
  | none => simp
  | some pair =>
    dsimp only
    split <;> rfl

end Sent

section Guard
variable {ε : Type}

/- Every way out is guarded, but for the addresses that escape the guard and for a blocked
relay of an upstream proxy. -/
theorem guardedExactly (resolve : Resolver ε) (target : Target) (relay : UdpRelay) (ip : Ipv6Addr) (port : UInt16) :
    ((∀ r, Races resolve target r → ∀ addr ∈ r.dialed, isBlockedDestination addr = false) ∧
      (∀ s, RelaysUdp relay s → ∀ call ∈ s.sent, isBlockedDestination call.2 = false) ∧
      (∀ s, RelaysUdp relay s → ∀ datagram ∈ s.datagrams, isBlockedDestination datagram.1 = false) ∧
      Unwrapped ip port) ↔
    ¬ Escapes ip ∧ ∀ relayAddr, relay = .socks5 relayAddr → isBlockedDestination relayAddr = false := by
  rw [← unwrappedExactly ip port]
  constructor
  · rintro ⟨_,_,sent,unwrapped⟩
    refine ⟨unwrapped,?_⟩
    rintro relayAddr rfl
    obtain ⟨s,reached,here⟩ := queryPassed (.socks5 relayAddr)
    exact sent s reached _ (by rw [here]; exact List.mem_singleton.mpr rfl)
  · rintro ⟨unwrapped,open'⟩
    refine ⟨?_,?_,?_,unwrapped⟩
    · intro r reached
      exact dialedAdmitted reached
    · intro s reached
      exact sentAdmitted reached
    · intro s reached
      exact datagramsAdmitted open' reached

end Guard

def Reached (e : Embedding) (ip : Ipv6Addr) (v4 : Ipv4Addr) : Prop :=
  e.carried ip.segments = some v4 ∧ isBlockedDestination ⟨.v4 v4,80⟩ = true ∧ isBlockedDestination ⟨.v6 ip,80⟩ = false ∧
    (raceStep (connect (fun _ _ => .error ()) ⟨.ipv6 ip,80,.tcp⟩) (.dial 0)).map Race.dialed = some [⟨.v6 ip,80⟩]

theorem loopbackDialed :
    Reached .compatible ⟨[0,0,0,0,0,0,0x7f00,1],rfl⟩ ⟨127,0,0,1⟩ ∧
    Reached .translated ⟨[0x64,0xff9b,0,0,0,0,0x7f00,1],rfl⟩ ⟨127,0,0,1⟩ ∧
    Reached .sixToFour ⟨[0x2002,0x7f00,1,0,0,0,0,1],rfl⟩ ⟨127,0,0,1⟩ ∧
    ∃ s, RelaysUdp (.socks5 ⟨.v4 ⟨10,0,0,5⟩,1080⟩) s ∧ ∃ datagram ∈ s.datagrams, isBlockedDestination datagram.1 = true := by
  obtain ⟨s,reached,here⟩ := queryPassed (.socks5 ⟨.v4 ⟨10,0,0,5⟩,1080⟩)
  have proxied : ∃ datagram ∈ s.datagrams, isBlockedDestination datagram.1 = true := by
    rw [here]
    exact ⟨_,List.mem_singleton.mpr rfl,by decide +kernel⟩
  unfold Reached
  exact ⟨by decide +kernel,by decide +kernel,by decide +kernel,s,reached,proxied⟩

end KanoTls.Outbound
