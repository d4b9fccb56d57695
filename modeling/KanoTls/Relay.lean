import KanoTls.Link
import KanoTls.Uot

/-! The relays at the two ends of a stream. A TCP relay reads and writes in two tasks; a
UDP relay does both in one `select!`, so that it takes nothing while it awaits a write.
Each of them returns the credit of a payload after it has passed it on. -/
namespace KanoTls.Relays
open Pending Window Link Uot

inductive Network where
  | tcp | udp
  deriving DecidableEq, Repr

def relayChunkSize : Nat := maxPayloadLen

/- `Target::decode_wire`: the prefix `udp:` decides; the rest of the check is an answer. -/
def targetNetwork (first : Payload) : Network :=
  if [0x75,0x64,0x70,0x3a] <+: first then .udp else .tcp

/- `first` and `opening` are the first read of `handle_server_stream_inner` and what it
does with the target; at `select` the relay is at its read. The reading task of a TCP
relay is `drained` while the other one goes on; a relay that has `ended` is over. -/
inductive RelayPc where
  | first | opening (payload : Payload) | select | holding (payload : Payload) | drained | ended
  deriving DecidableEq, Repr

/- `writing` is the gate's task that the relay awaits. `peerKnown` is the client's UDP
peer: the local address its packets go back to. -/
structure Relay where
  network : Network
  pc : RelayPc
  writing : Option Nat := none
  peerKnown : Bool := false
  deriving DecidableEq, Repr

/- Whether passing on a payload ends in `note_consumed`. A packet that is blocked, or
that could not be sent, counts as passed on. -/
def Relay.returns (isClient : Bool) (r : Relay) (payload : Payload) : Bool :=
  match r.network with
  | .tcp => true
  | .udp => (decodeUdpPacket payload).isSome && (!isClient || r.peerKnown)

def Relay.reads (r : Relay) : Bool := r.network == .tcp || r.writing.isNone

def Relay.writes (r : Relay) : Bool :=
  r.writing.isNone &&
  match r.pc with
  | .first | .opening _ | .ended => false
  | .select => true
  | .holding _ | .drained => r.network == .tcp

def Relay.afterRead (r : Relay) : RelayPc := if r.pc = .first ∨ r.network = .udp then .ended else .drained

structure State where
  link : Link.State := Link.start
  relay : Bool → StreamId → Option Relay := fun _ _ => none

def State.setRelay (s : State) (p : Bool) (sid : StreamId) (r : Relay) : State :=
  {s with relay := Function.update s.relay p (Function.update (s.relay p) sid (some r))}

inductive Action where
  | session (a : Link.Action)
  | start (p : Bool) (sid : StreamId) (network : Network)
  | take (p : Bool) (sid : StreamId)
  | opened (p : Bool) (sid : StreamId) (connected : Bool)
  | deliver (p : Bool) (sid : StreamId) (sent accepted : Bool)
  | learnPeer (p : Bool) (sid : StreamId)
  | finish (p : Bool) (sid : StreamId)
  | write (p : Bool) (sid : StreamId) (target data : Nat)
  | written (p : Bool) (sid : StreamId)
  deriving DecidableEq, Repr

/- What the sessions do by themselves; reading and writing a stream is its relay's. -/
def isSession : Link.Action → Bool
  | .own _ (.write _ _) | .own _ (.take _) | .own _ (.note _ _ _) => false
  | _ => true

def outcome : GatePc → Option Bool
  | .submitted | .passedOn | .bypassedOn => some true
  | .dropped | .abandoned => some false
  | _ => none

def afterWrite (r : Relay) (succeeded : Bool) : Relay :=
  {r with writing := none,pc := if succeeded = false ∧ r.network = .udp then .ended else r.pc}

def takeStep (s : State) (p : Bool) (sid : StreamId) (r : Relay) : Option State :=
  match ((s.link p).buffered sid).head?,r.pc with
  | some payload,.first =>
    (Link.step s.link (.own p (.take sid))).map (fun link =>
      {s with link := link}.setRelay p sid {r with pc := .opening payload})
  | some payload,.select =>
    if r.reads then
      (Link.step s.link (.own p (.take sid))).map (fun link =>
        {s with link := link}.setRelay p sid {r with pc := .holding payload})
    else none
  | _,_ => none

def openedStep (s : State) (p : Bool) (sid : StreamId) (r : Relay) (connected : Bool) : Option State :=
  match r.pc with
  | .opening payload =>
    some (s.setRelay p sid
      (bif connected then {r with network := targetNetwork payload,pc := .select} else {r with pc := .ended}))
  | _ => none

def deliverStep (s : State) (p : Bool) (sid : StreamId) (r : Relay) (sent accepted : Bool) : Option State :=
  match r.pc with
  | .holding payload =>
    -- a TCP relay whose local end fails gives up reading
    if r.network = .tcp ∧ sent = false then some (s.setRelay p sid {r with pc := .drained})
    else if r.returns p payload then
      (Link.step s.link (.own p (.note sid payload.length accepted))).map (fun link =>
        {s with link := link}.setRelay p sid {r with pc := .select})
    else some (s.setRelay p sid {r with pc := .select})
  | _ => none

def writeStep (s : State) (p : Bool) (sid : StreamId) (r : Relay) (target data : Nat) : Option State :=
  if r.writes = true ∧ data ≤ relayChunkSize then
    (Link.step s.link (.own p (.write sid (target + data)))).map (fun link =>
      {s with link := link}.setRelay p sid {r with writing := some (s.link p).gate.tasks.length})
  else none

def writtenStep (s : State) (p : Bool) (sid : StreamId) (r : Relay) : Option State :=
  r.writing.bind (fun i => (s.link p).gate.tasks[i]?.bind (fun a => (outcome a.pc).map (fun succeeded =>
    s.setRelay p sid (afterWrite r succeeded))))

def step (s : State) : Action → Option State
  | .session a => if isSession a then (Link.step s.link a).map (fun link => {s with link := link}) else none
  | .start p sid network =>
    if sid ≠ 0 ∧ s.relay p sid = none then
      some (s.setRelay p sid
        (bif p then {network := network,pc := .select} else {network := .tcp,pc := .first}))
    else none
  | .take p sid => (s.relay p sid).bind (takeStep s p sid)
  | .opened p sid connected => (s.relay p sid).bind (fun r => openedStep s p sid r connected)
  | .deliver p sid sent accepted => (s.relay p sid).bind (fun r => deliverStep s p sid r sent accepted)
  | .learnPeer p sid => (s.relay p sid).map (fun r => s.setRelay p sid {r with peerKnown := true})
  | .finish p sid =>
    (s.relay p sid).bind (fun r =>
      if r.pc = .first ∨ (r.pc = .select ∧ r.reads = true) then some (s.setRelay p sid {r with pc := r.afterRead})
      else none)
  | .write p sid target data => (s.relay p sid).bind (fun r => writeStep s p sid r target data)
  | .written p sid => (s.relay p sid).bind (writtenStep s p sid)

def start : State := {}

abbrev Run (ok : State → Action → Prop) : State → Prop := Machine.Reach step ok start

inductive RelayMove (s : State) : Action → State → Prop where
  | session {a link} (own : isSession a = true) (moved : Link.step s.link a = some link) :
      RelayMove s (.session a) {s with link := link}
  | start {p sid network r} (stream : sid ≠ 0) (fresh : s.relay p sid = none)
      (begins : r = {network := network,pc := .select} ∨ r = {network := .tcp,pc := .first}) :
      RelayMove s (.start p sid network) (s.setRelay p sid r)
  | take {p sid r payload rest pc link} (here : s.relay p sid = some r)
      (head : (s.link p).buffered sid = payload::rest)
      (turns : r.pc = .first ∧ pc = .opening payload ∨ r.pc = .select ∧ r.reads = true ∧ pc = .holding payload)
      (moved : Link.step s.link (.own p (.take sid)) = some link) :
      RelayMove s (.take p sid) ({s with link := link}.setRelay p sid {r with pc := pc})
  | connected {p sid r payload} (here : s.relay p sid = some r) (opening : r.pc = .opening payload) :
      RelayMove s (.opened p sid true) (s.setRelay p sid {r with network := targetNetwork payload,pc := .select})
  | refused {p sid r payload} (here : s.relay p sid = some r) (opening : r.pc = .opening payload) :
      RelayMove s (.opened p sid false) (s.setRelay p sid {r with pc := .ended})
  | finished {p sid r} (here : s.relay p sid = some r) (waits : r.pc = .first ∨ r.pc = .select ∧ r.reads = true) :
      RelayMove s (.finish p sid) (s.setRelay p sid {r with pc := r.afterRead})
  | failed {p sid r payload accepted} (here : s.relay p sid = some r) (holding : r.pc = .holding payload)
      (tcp : r.network = .tcp) : RelayMove s (.deliver p sid false accepted) (s.setRelay p sid {r with pc := .drained})
  | returned {p sid r payload sent accepted link} (here : s.relay p sid = some r) (holding : r.pc = .holding payload)
      (returns : r.returns p payload = true)
      (moved : Link.step s.link (.own p (.note sid payload.length accepted)) = some link) :
      RelayMove s (.deliver p sid sent accepted) ({s with link := link}.setRelay p sid {r with pc := .select})
  | lost {p sid r payload sent accepted} (here : s.relay p sid = some r) (holding : r.pc = .holding payload)
      (lost : r.returns p payload = false) :
      RelayMove s (.deliver p sid sent accepted) (s.setRelay p sid {r with pc := .select})
  | learnPeer {p sid r} (here : s.relay p sid = some r) :
      RelayMove s (.learnPeer p sid) (s.setRelay p sid {r with peerKnown := true})
  | write {p sid r target data link} (here : s.relay p sid = some r) (writes : r.writes = true)
      (small : data ≤ relayChunkSize) (moved : Link.step s.link (.own p (.write sid (target + data))) = some link) :
      RelayMove s (.write p sid target data)
        ({s with link := link}.setRelay p sid {r with writing := some (s.link p).gate.tasks.length})
  | written {p sid r i a succeeded} (here : s.relay p sid = some r) (awaits : r.writing = some i)
      (found : (s.link p).gate.tasks[i]? = some a) (done : outcome a.pc = some succeeded) :
      RelayMove s (.written p sid) (s.setRelay p sid (afterWrite r succeeded))

theorem relayMoves {s t : State} {a : Action} (moved : step s a = some t) : RelayMove s a t := by
  cases a with
  | session a =>
    simp only [step] at moved
    split at moved <;> try contradiction
    rename_i own
    obtain ⟨link,here,rfl⟩ := Option.map_eq_some_iff.mp moved
    exact .session own here
  | start p sid network =>
    simp only [step] at moved
    split at moved <;> try contradiction
    rename_i fresh
    cases Option.some.inj moved
    refine .start fresh.1 fresh.2 ?_
    cases p
    · exact .inr rfl
    · exact .inl rfl
  | take p sid =>
    obtain ⟨r,here,moved⟩ := Option.bind_eq_some_iff.mp moved
    simp only [takeStep] at moved
    split at moved <;> try contradiction
    · rename_i payload head first
      obtain ⟨link,took,rfl⟩ := Option.map_eq_some_iff.mp moved
      obtain ⟨rest,head⟩ := List.head?_eq_some_iff.mp head
      exact .take here head (.inl ⟨first,rfl⟩) took
    · rename_i payload head select
      split at moved <;> try contradiction
      rename_i reads
      obtain ⟨link,took,rfl⟩ := Option.map_eq_some_iff.mp moved
      obtain ⟨rest,head⟩ := List.head?_eq_some_iff.mp head
      exact .take here head (.inr ⟨select,reads,rfl⟩) took
  | opened p sid connected =>
    obtain ⟨r,here,moved⟩ := Option.bind_eq_some_iff.mp moved
    simp only [openedStep] at moved
    split at moved <;> try contradiction
    rename_i payload opening
    cases Option.some.inj moved
    cases connected
    · exact .refused here opening
    · exact .connected here opening
  | deliver p sid sent accepted =>
    obtain ⟨r,here,moved⟩ := Option.bind_eq_some_iff.mp moved
    simp only [deliverStep] at moved
    split at moved <;> try contradiction
    rename_i payload holding
    split at moved
    · rename_i failed
      cases Option.some.inj moved
      rw [failed.2]
      exact .failed here holding failed.1
    · split at moved
      · rename_i returns
        obtain ⟨link,noted,rfl⟩ := Option.map_eq_some_iff.mp moved
        exact .returned here holding returns noted
      · rename_i lost
        cases Option.some.inj moved
        exact .lost here holding (Bool.not_eq_true _ ▸ lost)
  | learnPeer p sid =>
    obtain ⟨r,here,rfl⟩ := Option.map_eq_some_iff.mp moved
    exact .learnPeer here
  | finish p sid =>
    obtain ⟨r,here,moved⟩ := Option.bind_eq_some_iff.mp moved
    split at moved <;> try contradiction
    rename_i waits
    cases Option.some.inj moved
    exact .finished here waits
  | write p sid target data =>
    obtain ⟨r,here,moved⟩ := Option.bind_eq_some_iff.mp moved
    simp only [writeStep] at moved
    split at moved <;> try contradiction
    rename_i allowed
    obtain ⟨link,wrote,rfl⟩ := Option.map_eq_some_iff.mp moved
    exact .write here allowed.1 allowed.2 wrote
  | written p sid =>
    obtain ⟨r,here,moved⟩ := Option.bind_eq_some_iff.mp moved
    obtain ⟨i,awaits,moved⟩ := Option.bind_eq_some_iff.mp moved
    obtain ⟨a,found,moved⟩ := Option.bind_eq_some_iff.mp moved
    obtain ⟨succeeded,done,rfl⟩ := Option.map_eq_some_iff.mp moved
    exact .written here awaits found done

end KanoTls.Relays
