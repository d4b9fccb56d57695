import KanoTls.Datagram
import KanoTls.Destination
import KanoTls.Machine
import KanoTls.Outbound

/-! The local end of a UDP association, `relay_udp_client_mode`: a task that takes datagrams
from the local socket, and the relay that joins its channel to the stream. The labels are what
a call returns, so the two interleave in any way. `judged` and `payloads` are not of the code:
they list what was taken from the socket and from the stream. -/
namespace KanoTls.UdpAssociation
open IpText Machine
open Destination (SocketAddr)
open Datagram (decodeSocks5Udp encodeSocks5Udp)
open Uot (encodeUdpPacket decodeUdpPacket)
open Wire (Bytes maxPayloadLen)

def relayChunkSize : Nat := maxPayloadLen
def udpChannelCapacity : Nat := 128

structure Datagram where
  source : SocketAddr
  data : Bytes
  deriving DecidableEq, Repr

def packetOf (datagram : Bytes) : Option Bytes :=
  (decodeSocks5Udp datagram).bind (fun pair => encodeUdpPacket pair.2 pair.1 maxPayloadLen)

/- `loading` is before the first lock of `peer`, `storing` before the second. -/
inductive RecvPc where
  | receiving
  | loading (datagram : Datagram)
  | storing (datagram : Datagram)
  | sending (packet : Bytes)
  | stopped
  deriving DecidableEq, Repr

structure Association where
  clientIp : IpAddr
  peer : Option SocketAddr := none
  recv : RecvPc := .receiving
  channel : List Bytes := []
  written : List Bytes := []
  replies : List (SocketAddr × Bytes) := []
  consumed : List Nat := []
  ended : Bool := false
  judged : List Datagram := []
  payloads : List Bytes := []

inductive Label where
  | datagram (source : SocketAddr) (data : Bytes)
  | recvFails
  | load | store | push
  | read (data : Option Bytes)
  | write (accepted : Bool)
  | control (closed : Bool)
  | idle

/- Encoded, a datagram waits for room in the channel; what does not fit a frame is left out. -/
def encoded (datagram : Bytes) : RecvPc :=
  match packetOf datagram with
  | none => .receiving
  | some packet => .sending packet

/- A datagram against what the first lock gave: only the peer may use the association, and
before there is one only the client that holds the control connection. -/
def judge (clientIp : IpAddr) (locked : Option SocketAddr) (datagram : Datagram) : RecvPc :=
  match locked with
  | some expected =>
    if expected ≠ datagram.source then .receiving
    else if (decodeSocks5Udp datagram.data).isSome then encoded datagram.data
    else .receiving
  | none =>
    if datagram.source.ip ≠ clientIp then .receiving
    else if (decodeSocks5Udp datagram.data).isSome then .storing datagram
    else .receiving

/- A payload of the stream: without a peer, or undecodable, it is dropped, its credit kept. -/
def delivers (s : Association) (data : Bytes) : Association :=
  match decodeUdpPacket data,s.peer with
  | some (addr,payload),some peer =>
    { s with replies := s.replies ++ [(peer,encodeSocks5Udp payload addr)],consumed := s.consumed ++ [data.length] }
  | _,_ => s

def recvStep (s : Association) : Label → Option Association
  | .datagram source data =>
    if s.recv = .receiving then some { s with recv := .loading ⟨source,data.take relayChunkSize⟩ } else none
  | .recvFails => if s.recv = .receiving then some { s with recv := .stopped } else none
  | .load =>
    match s.recv with
    | .loading datagram => some { s with recv := judge s.clientIp s.peer datagram,judged := s.judged ++ [datagram] }
    | _ => none
  | .store =>
    match s.recv with
    | .storing datagram => some { s with peer := some datagram.source,recv := encoded datagram.data }
    | _ => none
  | .push =>
    match s.recv with
    | .sending packet =>
      if s.channel.length < udpChannelCapacity then some { s with recv := .receiving,channel := s.channel ++ [packet] } else none
    | _ => none
  | _ => none

def relayStep (s : Association) : Label → Option Association
  | .read (some data) => some { delivers s data with payloads := s.payloads ++ [data] }
  | .read none => some { s with ended := true }
  | .write accepted =>
    match s.channel with
    | [] => none
    | packet::rest =>
      some (if accepted then { s with channel := rest,written := s.written ++ [packet] } else { s with channel := rest,ended := true })
  | .control closed => some { s with ended := closed }
  | .idle => some { s with ended := true }
  | _ => none

/- The end of the relay aborts the task. -/
def step (s : Association) (label : Label) : Option Association :=
  if s.ended then none
  else
    match label with
    | .datagram _ _ | .recvFails | .load | .store | .push => recvStep s label
    | _ => relayStep s label

abbrev Relays (clientIp : IpAddr) : Association → Prop := Reach step Always { clientIp := clientIp }

section Owner
variable {clientIp : IpAddr} {ds : List Datagram} {d : Datagram} {addr : SocketAddr}

def opens (clientIp : IpAddr) (d : Datagram) : Bool := decide (d.source.ip = clientIp) && (decodeSocks5Udp d.data).isSome

/- The association belongs to whoever opened it first. -/
def owner (clientIp : IpAddr) (ds : List Datagram) : Option SocketAddr := (ds.find? (opens clientIp)).map Datagram.source

def forwarded (clientIp : IpAddr) (ds : List Datagram) : List Bytes :=
  (owner clientIp ds).toList.flatMap (fun addr => (ds.filter (fun d => d.source = addr)).filterMap (fun d => packetOf d.data))

theorem undecoded {datagram : Bytes} (none' : (decodeSocks5Udp datagram).isSome = false) : packetOf datagram = none := by
  rw [packetOf,Option.isSome_eq_false_iff.mp none' |> Option.isNone_iff_eq_none.mp]
  rfl

theorem ownerKept (owned : owner clientIp ds = some addr) : owner clientIp (ds ++ [d]) = some addr := by
  obtain ⟨first,found,rfl⟩ := Option.map_eq_some_iff.mp owned
  rw [owner,List.find?_append,found]
  rfl

theorem ownerIp (owned : owner clientIp ds = some addr) : addr.ip = clientIp := by
  obtain ⟨first,found,rfl⟩ := Option.map_eq_some_iff.mp owned
  have opened := List.find?_some found
  exact of_decide_eq_true (Bool.and_eq_true_iff.mp opened).1

theorem unowned : owner clientIp ds = none ↔ ∀ d ∈ ds, opens clientIp d = false := by
  rw [owner,Option.map_eq_none_iff,List.find?_eq_none]
  simp

theorem ownerOpened (none' : owner clientIp ds = none) : owner clientIp (ds ++ [d]) = if opens clientIp d then some d.source else none := by
  have missing : ds.find? (opens clientIp) = none := Option.map_eq_none_iff.mp none'
  rw [owner,List.find?_append,missing]
  cases opened : opens clientIp d <;> simp [opened]

theorem forwardedMore (owned : owner clientIp ds = some addr) : forwarded clientIp (ds ++ [d]) =
    forwarded clientIp ds ++ (if d.source = addr then (packetOf d.data).toList else []) := by
  rw [forwarded,forwarded,ownerKept owned,owned]
  simp only [Option.toList_some,List.flatMap_singleton,List.filter_append,List.filterMap_append]
  by_cases mine : d.source = addr
  · rw [if_pos mine,List.filter_cons_of_pos (by simpa using mine)]
    cases found : packetOf d.data <;> simp [found]
  · rw [if_neg mine,List.filter_cons_of_neg (by simpa using mine)]
    rfl

theorem forwardedNone (none' : owner clientIp ds = none) : forwarded clientIp ds = [] := by
  rw [forwarded,none']
  rfl

theorem forwardedOpened (none' : owner clientIp ds = none) (opened : opens clientIp d = true) :
    forwarded clientIp (ds ++ [d]) = (packetOf d.data).toList := by
  have before : (ds.filter (fun e => e.source = d.source)).filterMap (fun e => packetOf e.data) = [] := by
    refine List.filterMap_eq_nil_iff.mpr ?_
    intro e member
    obtain ⟨there,same⟩ := List.mem_filter.mp member
    have closed := unowned.mp none' e there
    rw [opens,of_decide_eq_true same,(Bool.and_eq_true_iff.mp opened).1,Bool.true_and] at closed
    exact undecoded closed
  rw [forwarded,ownerOpened none',if_pos opened]
  simp only [Option.toList_some,List.flatMap_singleton,List.filter_append,List.filterMap_append,before,List.nil_append]
  rw [List.filter_cons_of_pos (by simp)]
  cases found : packetOf d.data <;> simp [found]

end Owner

section Runs
variable {s t : Association} {clientIp : IpAddr} {label : Label}

def RecvPc.held : RecvPc → List Bytes
  | .storing d => (packetOf d.data).toList
  | .sending packet => [packet]
  | _ => []

def locked (s : Association) : Option SocketAddr :=
  match s.recv with
  | .storing d => some d.source
  | _ => s.peer

structure Exact (clientIp : IpAddr) (s : Association) : Prop where
  client : s.clientIp = clientIp
  owned : locked s = owner clientIp s.judged
  first : ∀ d, s.recv = .storing d → s.peer = none
  onward : s.ended = false → s.written ++ s.channel ++ s.recv.held = forwarded clientIp s.judged
  begun : s.written <+: forwarded clientIp s.judged
  replied : ∀ reply ∈ s.replies, s.peer = some reply.1
  carried : (s.replies.map Prod.snd).Sublist (s.payloads.filterMap Datagram.relayUdpClientDown)

theorem encodedHeld (datagram : Bytes) : (encoded datagram).held = (packetOf datagram).toList := by
  unfold encoded
  split
  · rename_i none'
    rw [none']
    rfl
  · rename_i packet found
    rw [found]
    rfl

theorem encodedPlain (datagram : Bytes) (d : Datagram) : encoded datagram ≠ .storing d := by
  unfold encoded
  split <;> exact fun same => by cases same

theorem judgeOwned (clientIp : IpAddr) (addr : SocketAddr) (d : Datagram) :
    (judge clientIp (some addr) d).held = (if d.source = addr then (packetOf d.data).toList else []) ∧
      ∀ e, judge clientIp (some addr) d ≠ .storing e := by
  unfold judge
  dsimp only
  by_cases mine : d.source = addr
  · rw [if_neg (by simpa using mine.symm),if_pos mine]
    cases decodes : (decodeSocks5Udp d.data).isSome with
    | false =>
      rw [undecoded decodes]
      exact ⟨rfl,fun e same => by cases same⟩
    | true => exact ⟨encodedHeld _,encodedPlain _⟩
  · rw [if_pos (Ne.symm mine),if_neg mine]
    exact ⟨rfl,fun e same => by cases same⟩

theorem judgeFree (d : Datagram) : judge clientIp none d = if opens clientIp d then .storing d else .receiving := by
  unfold judge opens
  dsimp only
  by_cases mine : d.source.ip = clientIp
  · rw [if_neg (not_not.mpr mine),decide_eq_true mine,Bool.true_and]
  · rw [if_pos mine,decide_eq_false mine]
    rfl

theorem lockedPlain (plain : ∀ d, s.recv ≠ .storing d) : locked s = s.peer := by
  unfold locked
  split
  · rename_i d here
    exact absurd here (plain d)
  · rfl

theorem forwardedGrows (ds : List Datagram) (d : Datagram) : forwarded clientIp ds <+: forwarded clientIp (ds ++ [d]) := by
  cases owned : owner clientIp ds with
  | none =>
    rw [forwardedNone owned]
    exact List.nil_prefix
  | some addr =>
    rw [forwardedMore owned]
    exact List.prefix_append _ _

theorem exactLoad {d : Datagram} (exact : Exact clientIp s) (unended : s.ended = false) (here : s.recv = .loading d) :
    Exact clientIp { s with recv := judge s.clientIp s.peer d,judged := s.judged ++ [d] } := by
  have owned : s.peer = owner clientIp s.judged := by
    rw [← exact.owned,lockedPlain (by rw [here]; exact fun d same => by cases same)]
  have onward : s.written ++ s.channel = forwarded clientIp s.judged := by
    rw [← exact.onward unended,here]
    exact (List.append_nil _).symm
  have begun := exact.begun.trans (forwardedGrows s.judged d)
  rcases Option.eq_none_or_eq_some s.peer with peer | ⟨addr,peer⟩
  · have free := owned.symm.trans peer
    have nothing : s.written ++ s.channel = [] := onward.trans (forwardedNone free)
    have next : judge s.clientIp s.peer d = if opens clientIp d then .storing d else .receiving := by
      rw [exact.client,peer,judgeFree]
    cases opened : opens clientIp d with
    | true =>
      rw [opened,if_pos rfl] at next
      rw [next]
      refine ⟨exact.client,?_,fun _ _ => peer,fun _ => ?_,begun,exact.replied,exact.carried⟩
      · rw [ownerOpened free,if_pos opened]
        rfl
      · rw [forwardedOpened free opened,nothing]
        rfl
    | false =>
      rw [opened,if_neg Bool.false_ne_true] at next
      rw [next]
      have still : owner clientIp (s.judged ++ [d]) = none := by
        rw [ownerOpened free,opened]
        rfl
      refine ⟨exact.client,?_,(fun _ storing => by cases storing),fun _ => ?_,begun,exact.replied,exact.carried⟩
      · rw [still]
        exact peer
      · rw [forwardedNone still,nothing]
        rfl
  · have mine := owned.symm.trans peer
    have next := judgeOwned s.clientIp addr d
    rw [← peer] at next
    obtain ⟨held,plain⟩ := next
    refine ⟨exact.client,?_,fun e storing => absurd storing (plain e),fun _ => ?_,begun,exact.replied,exact.carried⟩
    · rw [ownerKept mine]
      exact (lockedPlain plain).trans peer
    · show s.written ++ s.channel ++ (judge s.clientIp s.peer d).held = _
      rw [held,forwardedMore mine,onward]

theorem exactRecv (exact : Exact clientIp s) (unended : s.ended = false) (moved : recvStep s label = some t) : Exact clientIp t := by
  cases label with
  | datagram source data =>
    obtain ⟨here,moved⟩ := Option.ite_none_right_eq_some.mp moved
    cases Option.some.inj moved
    have owned := exact.owned
    have onward := exact.onward
    rw [locked,here] at owned
    rw [here] at onward
    exact ⟨exact.client,owned,(fun _ storing => by cases storing),onward,exact.begun,exact.replied,exact.carried⟩
  | recvFails =>
    obtain ⟨here,moved⟩ := Option.ite_none_right_eq_some.mp moved
    cases Option.some.inj moved
    have owned := exact.owned
    have onward := exact.onward
    rw [locked,here] at owned
    rw [here] at onward
    exact ⟨exact.client,owned,(fun _ storing => by cases storing),onward,exact.begun,exact.replied,exact.carried⟩
  | load =>
    unfold recvStep at moved
    dsimp only at moved
    split at moved <;> try contradiction
    rename_i d here
    cases Option.some.inj moved
    exact exactLoad exact unended here
  | store =>
    unfold recvStep at moved
    dsimp only at moved
    split at moved <;> try contradiction
    rename_i d here
    cases Option.some.inj moved
    have owned := exact.owned
    have onward := exact.onward
    have absent := exact.first d here
    rw [locked,here] at owned
    rw [here] at onward
    refine ⟨exact.client,?_,fun e storing => absurd storing (encodedPlain _ e),?_,exact.begun,?_,exact.carried⟩
    · rw [lockedPlain (encodedPlain d.data)]
      exact owned
    · rw [encodedHeld]
      exact onward
    · intro reply member
      have before := exact.replied reply member
      rw [absent] at before
      contradiction
  | push =>
    unfold recvStep at moved
    dsimp only at moved
    split at moved <;> try contradiction
    rename_i packet here
    obtain ⟨_,moved⟩ := Option.ite_none_right_eq_some.mp moved
    cases Option.some.inj moved
    have owned := exact.owned
    have onward := exact.onward
    rw [locked,here] at owned
    rw [here] at onward
    refine ⟨exact.client,owned,(fun _ storing => by cases storing),?_,exact.begun,exact.replied,exact.carried⟩
    intro unended
    rw [← onward unended]
    show s.written ++ (s.channel ++ [packet]) ++ [] = s.written ++ s.channel ++ [packet]
    rw [List.append_nil,List.append_assoc]
  | _ => contradiction

theorem deliversExact (exact : Exact clientIp s) (data : Bytes) :
    Exact clientIp { delivers s data with payloads := s.payloads ++ [data] } := by
  have carried : (s.replies.map Prod.snd).Sublist ((s.payloads ++ [data]).filterMap Datagram.relayUdpClientDown) := by
    rw [List.filterMap_append]
    exact exact.carried.trans (List.sublist_append_left _ _)
  unfold delivers
  split
  · rename_i addr payload peer decoded here
    refine ⟨exact.client,exact.owned,exact.first,exact.onward,exact.begun,?_,?_⟩
    · intro reply member
      rcases List.mem_append.mp member with before | new
      · exact exact.replied reply before
      · rw [List.mem_singleton.mp new]
        exact here
    · have down : Datagram.relayUdpClientDown data = some (encodeSocks5Udp payload addr) := by
        rw [Datagram.relayUdpClientDown,decoded]
        rfl
      rw [List.filterMap_append,List.map_append,List.filterMap_cons_some down]
      exact exact.carried.append (List.Sublist.refl _)
  · exact ⟨exact.client,exact.owned,exact.first,exact.onward,exact.begun,exact.replied,carried⟩

theorem exactRelay (exact : Exact clientIp s) (unended : s.ended = false) (moved : relayStep s label = some t) : Exact clientIp t := by
  have stops : Exact clientIp { s with ended := true } :=
    ⟨exact.client,exact.owned,exact.first,fun no => by contradiction,exact.begun,exact.replied,exact.carried⟩
  cases label with
  | read data =>
    cases data <;> cases Option.some.inj moved
    · exact stops
    · exact deliversExact exact _
  | write accepted =>
    unfold relayStep at moved
    dsimp only at moved
    split at moved <;> try contradiction
    rename_i packet rest here
    have onward := exact.onward unended
    rw [here] at onward
    split at moved <;> cases Option.some.inj moved
    · have same : s.written ++ [packet] ++ rest ++ s.recv.held = forwarded clientIp s.judged := by
        rw [← onward]
        simp
      refine ⟨exact.client,exact.owned,exact.first,fun _ => same,?_,exact.replied,exact.carried⟩
      rw [← same,List.append_assoc]
      exact List.prefix_append _ _
    · exact ⟨exact.client,exact.owned,exact.first,fun no => by contradiction,exact.begun,exact.replied,exact.carried⟩
  | control closed =>
    cases Option.some.inj moved
    refine ⟨exact.client,exact.owned,exact.first,fun _ => exact.onward unended,exact.begun,exact.replied,exact.carried⟩
  | idle =>
    cases Option.some.inj moved
    exact stops
  | _ => contradiction

theorem exactKept (reach : Relays clientIp s) : Exact clientIp s := by
  have start : Exact clientIp { clientIp := clientIp } := by
    refine ⟨rfl,rfl,fun _ no => by contradiction,fun _ => rfl,List.nil_prefix,?_,List.nil_sublist _⟩
    intro reply member
    contradiction
  refine reachInvariant start ?_ reach
  · intro s label t exact _ moved
    obtain ⟨unended,moved⟩ := Option.ite_none_left_eq_some.mp moved
    have unended := Bool.eq_false_iff.mpr unended
    cases label <;> first | exact exactRecv exact unended moved | exact exactRelay exact unended moved

/- The association has one owner: whoever sent the first datagram that decodes from the address
of the control connection. In every run just the owner's datagrams go into the stream, each
that fits, once and in order, and every reply goes to the owner. -/
theorem associationOwned (reach : Relays clientIp s) :
    (∀ addr, s.peer = some addr → owner clientIp s.judged = some addr ∧ addr.ip = clientIp) ∧
    s.written <+: forwarded clientIp s.judged ∧
    (s.ended = false → s.written ++ s.channel ++ s.recv.held = forwarded clientIp s.judged) ∧
    (∀ reply ∈ s.replies, s.peer = some reply.1) ∧
    (s.replies.map Prod.snd).Sublist (s.payloads.filterMap Datagram.relayUdpClientDown) := by
  have exact := exactKept reach
  refine ⟨?_,exact.begun,exact.onward,exact.replied,exact.carried⟩
  intro addr peer
  have plain : ∀ d, s.recv ≠ .storing d := by
    intro d storing
    rw [exact.first d storing] at peer
    contradiction
  have owned := exact.owned
  rw [lockedPlain plain,peer] at owned
  exact ⟨owned.symm,ownerIp owned.symm⟩

def strangerFirst : List Label :=
  [.datagram ⟨.v4 ⟨10,0,0,9⟩,5⟩ [0,0,0,1,1,2,3,4,0,53,7],.load,.datagram ⟨.v4 ⟨127,0,0,1⟩,5⟩ [0,0,0,1,1,2,3,4,0,53,8],.load,.store,
    .push,.write true,.read (some [1,1,2,3,4,0,53,0,1,9])]

theorem associationOwnedFirst : ∃ s, Relays (.v4 ⟨127,0,0,1⟩) s ∧ s.written = [[1,1,2,3,4,0,53,0,1,8]] ∧
    s.written <+: forwarded (.v4 ⟨127,0,0,1⟩) s.judged ∧ s.replies.map Prod.fst = [⟨.v4 ⟨127,0,0,1⟩,5⟩] := by
  have ran : (checked step Always { clientIp := .v4 ⟨127,0,0,1⟩ } strangerFirst).any (fun s =>
      decide (s.written = [[1,1,2,3,4,0,53,0,1,8]] ∧ s.replies.map Prod.fst = [⟨.v4 ⟨127,0,0,1⟩,5⟩])) = true := by
    decide +kernel
  obtain ⟨s,reach,both⟩ := checkedReaches ran
  obtain ⟨written,replies⟩ := of_decide_eq_true both
  exact ⟨s,reach,written,(associationOwned reach).2.1,replies⟩

end Runs

end KanoTls.UdpAssociation
