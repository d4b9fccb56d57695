import KanoTls.Machine
import KanoTls.Pending
import Mathlib.Data.List.AList
import Mathlib.Algebra.Order.Ring.Int

/-! The streams of one session: the `streams` map with `capacity_stream_count`, and the
streams of the peer that wait for `accept_stream`, with `pending_inbound_streams`. A
section under the `streams` lock is one step, at its last change of the counter: nobody
sees the map before. Whoever holds a stream may unregister it or mark it read-closed at
any time, so these steps are free. -/
namespace KanoTls.Registry
open Pending

/- `orphaned`: the receivers of its three channels are gone. -/
structure StreamHandle where
  synackTx : Bool := false
  readClosed : Bool := false
  orphaned : Bool := false
  deriving DecidableEq, Repr

abbrev Streams := AList (fun _ : StreamId => StreamHandle)

inductive Frame where
  | settings
  | syn (sid : StreamId)
  | psh (sid : StreamId) (payload : Payload)
  | fin (sid : StreamId)
  | synack (sid : StreamId)
  deriving DecidableEq, Repr

/- The read loop inside `handle_frame`, command by command, and in its teardown. -/
inductive LoopPc where
  | ready
  | synStreams (sid : StreamId) | synPending (sid : StreamId) | synActive (sid : StreamId)
  | synLoad (sid : StreamId) (active : Nat) | synCas (sid : StreamId) (active pending : Nat)
  | synInsert (sid : StreamId) | synCall (sid : StreamId) | synRemove (sid : StreamId) | synRelease
  | pshOpen (sid : StreamId) (payload : Payload) | pshDeliver (sid : StreamId)
  | finSynack (sid : StreamId) | finOpen (sid : StreamId) | finRelease | finMark (sid : StreamId)
  | synacked (sid : StreamId)
  | clear | zero | forget | done
  deriving DecidableEq, Repr

inductive AcceptPc where
  | begin | register | release | releaseCount
  | take (delivered : Bool)
  | mark | unregister | remove | done
  deriving DecidableEq, Repr

/- `closed` is `!is_alive() || is_closing()`. The counter is a `usize`: a value below
zero is one that has wrapped. `opening` has passed the check of `open_stream`, `handed`
is the history of the calls of `on_new_stream`. -/
structure Session where
  isClient : Bool
  maxStreams : Nat
  closed : Bool := false
  nextStreamId : Nat
  settingsReceived : Bool := false
  streams : Streams := ∅
  count : Int := 0
  pendingOpen : PendingOpenStreams := {}
  pendingInbound : Nat := 0
  highWater : Nat := 0
  queue : List StreamId := []
  opening : List StreamId := []
  accepts : List (StreamId × AcceptPc) := []
  loop : LoopPc := .ready
  handed : List StreamId := []

def newStreamChannelCapacity : Nat := 128
def maxStreamId : Nat := 4294967295
def usizeRange : Int := 18446744073709551616

def counted (h : StreamHandle) : Bool := !h.readClosed

def orphans (streams : Streams) : List StreamId :=
  (streams.entries.filter (fun e => e.2.orphaned)).map (·.1)

namespace Session

def activeStreamCount (s : Session) : Nat := (if s.count < 0 then s.count + usizeRange else s.count).toNat

def registerStream (s : Session) (sid : StreamId) (h : StreamHandle) : Session :=
  {s with streams := s.streams.insert sid h,count := s.count + 1}

def unregisterStream (s : Session) (sid : StreamId) : Session :=
  match s.streams.lookup sid with
  | none => s
  | some h => {s with streams := s.streams.erase sid,count := if h.readClosed then s.count else s.count - 1}

def markStreamReadClosed (s : Session) (sid : StreamId) : Session :=
  match s.streams.lookup sid with
  | none => s
  | some h => if h.readClosed then s else
      {s with streams := s.streams.insert sid {h with readClosed := true},count := s.count - 1}

def pruneOrphanedStreams (s : Session) : Session := (orphans s.streams).foldl unregisterStream s

def goto (s : Session) (pc : LoopPc) : Session := {s with loop := pc}

/- A frame has been decoded. `CMD_SYN` raises the high-water mark before any check. -/
def handleFrame (s : Session) : Frame → Session
  | .settings => {s with settingsReceived := true}
  | .syn sid =>
    let s := {s with highWater := max s.highWater sid}
    if s.settingsReceived then s.goto (.synStreams sid) else s
  | .psh sid payload => s.goto (.pshOpen sid payload)
  | .fin sid => s.goto (if s.isClient then .finSynack sid else .finOpen sid)
  | .synack sid =>
    match s.streams.lookup sid with
    | some h => if h.synackTx then
        {s with streams := s.streams.insert sid {h with synackTx := false}}.goto (.synacked sid) else s
    | none => s

/- `store_pending_open_fin`, up to the counter. -/
def storePendingOpenFin (s : Session) (sid : StreamId) : Session :=
  match s.pendingOpen.setBufferedFin sid with
  | none => s.goto (.finMark sid)
  | some next =>
    match next.releaseReservation sid with
    | some (true,released) => {s with pendingOpen := released}.goto .finRelease
    | _ => {s with pendingOpen := next}.goto .ready

def releaseInboundStreamReservation (s : Session) : Session := {s with pendingInbound := s.pendingInbound - 1}

/- The answer is the environment's: that the compare-exchange does not fail spuriously,
that the stream handler takes the id, that the payload finds room in the receive
buffers, that the id is not a closing tombstone, that the opener waits for its SYNACK. -/
def loopStep (s : Session) (answer : Bool) : Option Session :=
  match s.loop with
  | .ready | .done => none
  | .synStreams sid => some (s.goto (if (s.streams.lookup sid).isSome then .ready else .synPending sid))
  | .synPending sid => some (s.goto (if s.pendingOpen.contains sid then .ready else .synActive sid))
  | .synActive sid => some (s.goto (.synLoad sid s.activeStreamCount))
  | .synLoad sid active =>
    some (s.goto (if active + s.pendingInbound ≥ s.maxStreams then .ready else .synCas sid active s.pendingInbound))
  | .synCas sid active pending =>
    if answer && s.pendingInbound == pending then some ({s with pendingInbound := pending + 1}.goto (.synInsert sid))
    else some (s.goto (.synLoad sid active))
  | .synInsert sid => some ({s with pendingOpen := s.pendingOpen.insertNew sid}.goto (.synCall sid))
  | .synCall sid =>
    if s.isClient then some (s.goto (.synRemove sid))
    else if answer && decide (s.queue.length < newStreamChannelCapacity) then
      some ({s with queue := s.queue ++ [sid],handed := s.handed ++ [sid]}.goto .ready)
    else some ({s with handed := s.handed ++ [sid]}.goto (.synRemove sid))
  | .synRemove sid => some ({s with pendingOpen := s.pendingOpen.remove sid}.goto .synRelease)
  | .synRelease | .finRelease => some (s.releaseInboundStreamReservation.goto .ready)
  | .pshOpen sid payload =>
    match storePendingOpenData s.pendingOpen sid payload with
    | .absent => some (s.goto (.pshDeliver sid))
    | .dropped => some (s.goto .ready)
    | .kept next => some ({s with pendingOpen := next}.goto .ready)
  | .pshDeliver sid => some ((if answer then s else s.unregisterStream sid).goto .ready)
  | .finSynack sid =>
    match s.streams.lookup sid with
    | some h => if h.synackTx then
        some ({s with streams := s.streams.insert sid {h with synackTx := false}}.goto .ready)
        else some (s.goto (.finOpen sid))
    | none => some (s.goto (.finOpen sid))
  | .finOpen sid => some (s.storePendingOpenFin sid)
  | .finMark sid => some ((if answer then s.markStreamReadClosed sid else s).goto .ready)
  | .synacked sid => some ((if answer then s else s.unregisterStream sid).goto .ready)
  | .clear => some ({s with streams := ∅}.goto .zero)
  | .zero => some ({s with count := 0}.goto .forget)
  | .forget => some ({s with pendingOpen := {}}.goto .done)

def setAccept (s : Session) (i : Nat) (sid : StreamId) (pc : AcceptPc) : Session :=
  {s with accepts := s.accepts.set i (sid,pc)}

/- `accept_stream` after its `recv`, with `flush_pending_accept_stream`. -/
def acceptStep (s : Session) (i : Nat) : Option Session :=
  match s.accepts[i]? with
  | none => none
  | some (sid,pc) =>
    match pc with
    | .done => none
    | .begin => some (s.setAccept i sid (if s.pendingOpen.contains sid then .register else .done))
    | .register => some ((s.registerStream sid {}).setAccept i sid .release)
    | .release =>
      match s.pendingOpen.releaseReservation sid with
      | some (true,next) => some ({s with pendingOpen := next}.setAccept i sid .releaseCount)
      | _ => some (s.setAccept i sid (.take false))
    | .releaseCount => some (s.releaseInboundStreamReservation.setAccept i sid (.take false))
    | .take delivered =>
      match s.pendingOpen.takeReady sid with
      | none => some (s.setAccept i sid .done)
      | some (payloads,fin,next) =>
        let delivered := delivered || !payloads.isEmpty
        if payloads.isEmpty && !fin then some ({s with pendingOpen := next.remove sid}.setAccept i sid .done)
        else some ({s with pendingOpen := next}.setAccept i sid
          (if !fin then .take delivered else if delivered then .mark else .unregister))
    | .mark => some ((s.markStreamReadClosed sid).setAccept i sid .remove)
    | .unregister => some ((s.unregisterStream sid).setAccept i sid .remove)
    | .remove => some ({s with pendingOpen := s.pendingOpen.remove sid}.setAccept i sid .done)

/- `open_stream` up to its id. On the server the first id is 0, which is none. -/
def openCheck (s : Session) : Option Session :=
  if s.closed then none
  else if s.nextStreamId = 0 ∨ s.nextStreamId = maxStreamId then some {s with closed := true}
  else some {s with opening := s.opening ++ [s.nextStreamId],nextStreamId := s.nextStreamId + 1}

def openRegister (s : Session) (sid : StreamId) : Option Session :=
  if sid ∈ s.opening then
    let s := {s with opening := s.opening.erase sid}.pruneOrphanedStreams
    if s.activeStreamCount ≥ s.maxStreams then some s else some (s.registerStream sid {synackTx := true})
  else none

end Session

inductive Action where
  | frame (f : Frame)
  | loop (answer : Bool)
  | stop | close
  | openCheck
  | openRegister (sid : StreamId)
  | openCancel (sid : StreamId)
  | acceptTake
  | accept (i : Nat)
  | unregister (sid : StreamId)
  | mark (sid : StreamId)
  | abandon (sid : StreamId)
  | prune
  deriving DecidableEq, Repr

/- `stop` is the end of the read loop, for whatever reason, with its `force_close`. -/
def step (s : Session) : Action → Option Session
  | .frame f => if s.loop = .ready then some (s.handleFrame f) else none
  | .loop answer => s.loopStep answer
  | .stop => if s.loop = .ready then some ({s with closed := true}.goto .clear) else none
  | .close => some {s with closed := true}
  | .openCheck => s.openCheck
  | .openRegister sid => s.openRegister sid
  | .openCancel sid => some {s with opening := s.opening.erase sid}
  | .acceptTake =>
    match s.queue with
    | [] => none
    | sid::rest => some {s with queue := rest,accepts := s.accepts ++ [(sid,.begin)]}
  | .accept i => s.acceptStep i
  | .unregister sid => some (s.unregisterStream sid)
  | .mark sid => some (s.markStreamReadClosed sid)
  | .abandon sid =>
    match s.streams.lookup sid with
    | none => none
    | some h => some {s with streams := s.streams.insert sid {h with orphaned := true}}
  | .prune => some s.pruneOrphanedStreams

def start (isClient : Bool) (maxStreams : Nat) : Session :=
  {isClient := isClient,maxStreams := maxStreams,nextStreamId := if isClient then 1 else 0}

abbrev Run (ok : Session → Action → Prop) (isClient : Bool) (maxStreams : Nat) : Session → Prop :=
  Machine.Reach step ok (start isClient maxStreams)

end KanoTls.Registry
