import KanoTls.Machine
import KanoTls.Pending
import Mathlib.Data.Finset.Card
import Mathlib.Logic.Function.Basic

/-! The receive side of one session, client or server. Every step is one lock
section, channel operation or flag access of the source: `handle_frame` and
`flush_client_pending_stream` (the read loop), `accept_stream` with
`flush_pending_accept_stream`, `StreamReadHalf::read` / `ServerStream::read`, and
the local teardown. The `pending_data` and `pending_fin` mutexes are explicit,
because a failed `try_lock` takes another branch. A second SYN of an id that passes
both checks of CMD_SYN ends the model's run: the id then names two streams. -/
namespace KanoTls.Receive
open Pending

structure StreamHandle where
  synackTx : Bool
  readClosed : Bool
  deriving DecidableEq, Repr

inductive Frame where
  | psh (sid : StreamId) (payload : Payload)
  | syn (sid : StreamId)
  | fin (sid : StreamId)
  | synack (sid : StreamId) (reason : Payload)
  | settings (fc : Bool)
  | windowUpdate (sid : StreamId)
  deriving DecidableEq, Repr

/- Where `handle_frame` stands, command by command. `ClosePc` is the tail shared by
`close_stream_fire_and_forget` and `remove_stream_state`. -/
inductive PshPc where
  | isOpen | storeOpen | dispatch | preSynack | probe | probed | send | store | notify
  deriving DecidableEq, Repr

inductive ClosePc where
  | remember | unregister | removeData | removeFin
  deriving DecidableEq, Repr

inductive FinPc where
  | takeSynack | store | isOpen | closing | mark | send | clear
  deriving DecidableEq, Repr

inductive SynackPc where
  | take (reason : Payload) | probeData | probeFin | reply (hasPending : Bool)
  deriving DecidableEq, Repr

inductive FlushPc where
  | takeData | takeFin (todo : List Payload)
  | send (todo remaining : List Payload) (fin : Bool)
  | restore (remaining : List Payload) (fin : Bool)
  | notify (fin : Bool) | fin | unregister | clear | keepFin | finNotify
  deriving DecidableEq, Repr

inductive HandlerPc where
  | psh (pc : PshPc) (payload : Payload)
  | close (pc : ClosePc) (sender : Bool)
  | fin (pc : FinPc)
  | synack (pc : SynackPc)
  | flush (pc : FlushPc)
  | syn (queued : Bool)
  | reopened
  deriving DecidableEq, Repr

def HandlerPc.dataSender : HandlerPc → Bool
  | .psh .probe _ | .psh .probed _ | .psh .send _ | .psh .store _ | .psh .notify _ => true
  | .close _ sender => sender
  | .flush _ => true
  | _ => false

def HandlerPc.finSender : HandlerPc → Bool
  | .fin .send | .fin .clear | .flush _ => true
  | _ => false

def HandlerPc.hand : HandlerPc → List Payload
  | .psh .notify _ => []
  | .psh _ payload => [payload]
  | _ => []

def HandlerPc.isFin : HandlerPc → Bool
  | .fin _ => true
  | _ => false

def HandlerPc.wantsData : HandlerPc → Bool
  | .psh .preSynack _ | .psh .store _ | .close .removeData _ | .synack .probeData
  | .flush .takeData | .flush (.restore ..) => true
  | _ => false

def HandlerPc.wantsFin : HandlerPc → Bool
  | .close .removeFin _ | .fin .store | .synack .probeFin | .flush (.takeFin _) | .flush .keepFin => true
  | _ => false

/- Where a `read` call stands. From `armed` to `parked` its `Notified` future exists. -/
inductive ReaderPc where
  | absent | idle | tryRecv | empty | armed | locked
  | finTry (out : Option Payload) | finLocked (out : Option Payload)
  | decide | parked | gone
  deriving DecidableEq, Repr

def ReaderPc.registered : ReaderPc → Bool
  | .armed | .locked | .finTry _ | .finLocked _ | .decide | .parked => true
  | _ => false

structure Reader where
  pc : ReaderPc := .absent
  readClosed : Bool := false
  notified : Bool := false
  deriving DecidableEq, Repr

inductive AcceptPc where
  | none | queued | register | release
  | flushTake (delivered : Bool)
  | flushSend (todo overflow : List Payload) (fin delivered : Bool)
  | flushStore (overflow : List Payload) (fin delivered : Bool)
  | flushFin (delivered : Bool)
  | flushMark | flushUnregister | flushRemove
  | done
  deriving DecidableEq, Repr

inductive TeardownPc where
  | none | unregister | removeData | removeFin | done
  deriving DecidableEq, Repr

/- `arrived`, `delivered`, `accepted`, `finSeen`, `eof` and `refused` are history:
no step reads them. -/
structure Stream where
  opened : Bool := false
  handle : Option StreamHandle := none
  data : List Payload := []
  finQueued : Bool := false
  synackRx : Bool := false
  reader : Reader := {}
  accept : AcceptPc := .none
  teardown : TeardownPc := .none
  arrived : List Payload := []
  delivered : List Payload := []
  accepted : List Payload := []
  finSeen : Bool := false
  eof : Bool := false
  refused : Bool := false
  deriving DecidableEq, Repr

inductive Task where
  | loop | reader (sid : StreamId) | accept (sid : StreamId) | teardown (sid : StreamId)
  deriving DecidableEq, Repr

structure Session where
  isClient : Bool
  maxStreams : Nat
  peerFlowControl : Bool := false
  settingsReceived : Bool := false
  capacity : Int := 0
  pendingInbound : Nat := 0
  pendingData : PendingData := {}
  pendingFin : Finset StreamId := ∅
  pendingOpen : PendingOpenStreams := {}
  closing : Finset StreamId := ∅
  dataLock : Option Task := none
  finLock : Option Task := none
  loop : Option (StreamId × HandlerPc) := none
  stream : StreamId → Stream := fun _ => {}

def hasFin (fins : Finset StreamId) (sid : StreamId) : Bool := decide (sid ∈ fins)

def Stream.notifyWaiters (st : Stream) : Stream :=
  {st with reader := {st.reader with notified := st.reader.notified || st.reader.pc.registered}}
def Stream.setPc (st : Stream) (pc : ReaderPc) : Stream := {st with reader := {st.reader with pc := pc}}
def Stream.returnSome (st : Stream) (payload : Payload) : Stream :=
  {st.setPc .idle with delivered := st.delivered ++ [payload]}
def Stream.returnNone (st : Stream) : Stream := {st.setPc .idle with eof := true}
def Stream.accepting (st : Stream) (payload : Payload) : Stream :=
  {st with accepted := if st.finSeen then st.accepted else st.accepted ++ [payload]}

namespace Session

def setStream (s : Session) (sid : StreamId) (st : Stream) : Session :=
  {s with stream := Function.update s.stream sid st}

def registerStream (s : Session) (sid : StreamId) (st : Stream) (synack : Bool) : Session :=
  {s.setStream sid {st with handle := some ⟨synack,false⟩} with capacity := s.capacity + 1}

def unregisterStream (s : Session) (sid : StreamId) : Session :=
  match (s.stream sid).handle with
  | none => s
  | some h => {s.setStream sid {s.stream sid with handle := none} with
      capacity := if h.readClosed then s.capacity else s.capacity - 1}

def markStreamReadClosed (s : Session) (sid : StreamId) : Session :=
  match (s.stream sid).handle with
  | none => s
  | some h => if h.readClosed then s else
      {s.setStream sid {s.stream sid with handle := some {h with readClosed := true}} with
        capacity := s.capacity - 1}

def onLoop (s : Session) (sid : StreamId) : Option HandlerPc :=
  match s.loop with
  | some (k,pc) => if k = sid then some pc else none
  | none => none

def dataClosed (s : Session) (sid : StreamId) : Bool :=
  (s.stream sid).handle.isNone && !((s.onLoop sid).any HandlerPc.dataSender)
def finClosed (s : Session) (sid : StreamId) : Bool :=
  (s.stream sid).handle.isNone && !((s.onLoop sid).any HandlerPc.finSender)

def goto (s : Session) (sid : StreamId) (pc : HandlerPc) : Session := {s with loop := some (sid,pc)}
def handled (s : Session) : Session := {s with loop := none}

/- A frame has been decoded: `handle_frame` enters the branch of its command. The
flag is the answer of the `on_new_stream` callback, read by CMD_SYN only. -/
def handleFrame (s : Session) (queued : Bool) : Frame → Option Session
  | .psh sid payload =>
    let st := s.stream sid
    let st := if st.opened then {st with arrived := st.arrived ++ [payload]} else st
    some ((s.setStream sid st).goto sid (.psh .isOpen payload))
  | .syn sid =>
    if !s.settingsReceived || (s.stream sid).handle.isSome then some s else some (s.goto sid (.syn queued))
  | .fin sid =>
    let st := s.stream sid
    let st := {st with finSeen := st.finSeen || st.opened}
    some ((s.setStream sid st).goto sid (.fin (if s.isClient then .takeSynack else .isOpen)))
  | .synack sid reason => some (s.goto sid (.synack (.take reason)))
  | .settings fc => some {s with settingsReceived := true,peerFlowControl := s.peerFlowControl || fc}
  | .windowUpdate sid =>
    if (s.stream sid).handle.isSome then some (s.setStream sid (s.stream sid).notifyWaiters) else some s

/- CMD_SYN after `streams.read()` has been released: `is_pending_open_stream` and
`try_reserve_inbound_stream` look again at a session that has moved on. -/
def synStep (s : Session) (sid : StreamId) (queued : Bool) : Option Session :=
  let st := s.stream sid
  if s.pendingOpen.contains sid then some s.handled
  else if s.capacity + s.pendingInbound ≥ s.maxStreams then some s.handled
  else if s.isClient || !queued then some s.handled
  else if st.opened then some (s.goto sid .reopened)
  else some {s.setStream sid {st with opened := true,accept := .queued} with
    pendingInbound := s.pendingInbound + 1,pendingOpen := s.pendingOpen.insertNew sid}.handled

def pshStep (s : Session) (sid : StreamId) (payload : Payload) : PshPc → Option Session
  | .isOpen => some (s.goto sid (.psh (if s.pendingOpen.contains sid then .storeOpen else .dispatch) payload))
  | .storeOpen =>
    match storePendingOpenData s.pendingOpen sid payload with
    | .absent => some (s.goto sid (.psh .dispatch payload))
    | .dropped => some s.handled
    | .kept next => some {s.setStream sid ((s.stream sid).accepting payload) with pendingOpen := next}.handled
  | .dispatch =>
    match (s.stream sid).handle with
    | none => some s.handled
    | some h =>
      if s.isClient && h.synackTx then some (s.goto sid (.psh .preSynack payload))
      else if h.readClosed then some s.handled
      else some (s.goto sid (.psh .probe payload))
  | .preSynack =>
    if s.dataLock = some .loop then
      match storePendingData s.peerFlowControl s.pendingData sid payload with
      | none => some {s with dataLock := none}.handled
      | some next => some {s.setStream sid ((s.stream sid).accepting payload) with
          pendingData := next,dataLock := none}.handled
    else none
  | .probe =>
    match s.dataLock with
    | none => some ({s with dataLock := some .loop}.goto sid (.psh .probed payload))
    | some _ => some (s.goto sid (.psh .store payload))
  | .probed =>
    some ({s with dataLock := none}.goto sid
      (.psh (if s.pendingData.contains sid then .store else .send) payload))
  | .send =>
    let st := s.stream sid
    if st.reader.pc = .gone then some s.handled
    else if st.data.length < streamChannelCapacity then
      some (s.setStream sid {st.accepting payload with data := st.data ++ [payload]}).handled
    else some (s.goto sid (.psh .store payload))
  | .store =>
    if s.dataLock = some .loop then
      match storePendingData s.peerFlowControl s.pendingData sid payload with
      | none => some ({s with dataLock := none}.goto sid (.close .remember true))
      | some next => some ({s.setStream sid ((s.stream sid).accepting payload) with
          pendingData := next,dataLock := none}.goto sid (.psh .notify payload))
    else none
  | .notify => some (s.setStream sid (s.stream sid).notifyWaiters).handled

def closeStep (s : Session) (sid : StreamId) (sender : Bool) : ClosePc → Option Session
  | .remember => some ({s with closing := insert sid s.closing}.goto sid (.close .unregister sender))
  | .unregister => some ((s.unregisterStream sid).goto sid (.close .removeData sender))
  | .removeData =>
    if s.dataLock = some .loop then
      some ({s with pendingData := (s.pendingData.remove sid).1,dataLock := none}.goto sid (.close .removeFin sender))
    else none
  | .removeFin =>
    if s.finLock = some .loop then
      some {s with pendingFin := s.pendingFin.erase sid,finLock := none}.handled
    else none

def finStep (s : Session) (sid : StreamId) : FinPc → Option Session
  | .takeSynack =>
    match (s.stream sid).handle with
    | some ⟨true,closed⟩ =>
      some ((s.setStream sid {s.stream sid with
        handle := some ⟨false,closed⟩,refused := true}).goto sid (.fin .store))
    | _ => some (s.goto sid (.fin .isOpen))
  | .store =>
    if s.finLock = some .loop then
      if s.pendingFin.card ≥ maxPendingStreams ∧ sid ∉ s.pendingFin then
        some {s with finLock := none}.handled
      else some {s with pendingFin := insert sid s.pendingFin,finLock := none}.handled
    else none
  | .isOpen =>
    match s.pendingOpen.setBufferedFin sid with
    | none => some (s.goto sid (.fin .closing))
    | some next =>
      match next.releaseReservation sid with
      | some (true,released) =>
        some {s with pendingOpen := released,pendingInbound := s.pendingInbound - 1}.handled
      | _ => some {s with pendingOpen := next}.handled
  | .closing =>
    if sid ∈ s.closing then some {s with closing := s.closing.erase sid}.handled
    else some (s.goto sid (.fin .mark))
  | .mark =>
    if (s.stream sid).handle.isSome then some ((s.markStreamReadClosed sid).goto sid (.fin .send))
    else some s.handled
  | .send =>
    let st := s.stream sid
    some ((s.setStream sid {st with
      finQueued := st.finQueued || decide (st.reader.pc ≠ .gone)}).goto sid (.fin .clear))
  | .clear =>
    if (s.stream sid).handle.isSome then some {s with closing := s.closing.erase sid}.handled
    else some s.handled

def synackStep (s : Session) (sid : StreamId) : SynackPc → Option Session
  | .take reason =>
    match (s.stream sid).handle with
    | some ⟨true,closed⟩ =>
      let st := s.stream sid
      some ((s.setStream sid {st with
        handle := some ⟨false,closed⟩,refused := st.refused || !reason.isEmpty}).goto sid (.synack .probeData))
    | _ => some s.handled
  | .probeData =>
    if s.dataLock = some .loop then
      some ({s with dataLock := none}.goto sid
        (.synack (if s.pendingData.contains sid then .reply true else .probeFin)))
    else none
  | .probeFin =>
    if s.finLock = some .loop then
      some ({s with finLock := none}.goto sid (.synack (.reply (hasFin s.pendingFin sid))))
    else none
  | .reply hasPending =>
    if !(s.stream sid).synackRx then some (s.goto sid (.close .unregister false))
    else if hasPending && (s.stream sid).handle.isSome then some (s.goto sid (.flush .takeData))
    else some s.handled

def flushStep (s : Session) (sid : StreamId) : FlushPc → Option Session
  | .takeData =>
    if s.dataLock = some .loop then
      let taken := s.pendingData.remove sid
      some ({s with pendingData := taken.1,dataLock := none}.goto sid (.flush (.takeFin taken.2)))
    else none
  | .takeFin todo =>
    if s.finLock = some .loop then
      some ({s with pendingFin := s.pendingFin.erase sid,finLock := none}.goto sid
        (.flush (.send todo [] (hasFin s.pendingFin sid))))
    else none
  | .send [] remaining fin =>
    if !remaining.isEmpty then some (s.goto sid (.flush (.restore remaining fin)))
    else if fin then some (s.goto sid (.flush .fin))
    else some s.handled
  | .send (payload::rest) remaining fin =>
    let st := s.stream sid
    if !remaining.isEmpty then some (s.goto sid (.flush (.send rest (remaining ++ [payload]) fin)))
    else if st.reader.pc = .gone then some (s.goto sid (.close .remember true))
    else if st.data.length < streamChannelCapacity then
      some ((s.setStream sid {st with data := st.data ++ [payload]}).goto sid (.flush (.send rest [] fin)))
    else some (s.goto sid (.flush (.send rest [payload] fin)))
  | .restore remaining fin =>
    if s.dataLock = some .loop then
      let restored := remaining.foldl (fun d payload => d.pushBack sid payload) s.pendingData
      some ({s with pendingData := restored,dataLock := none}.goto sid (.flush (.notify fin)))
    else none
  | .notify fin =>
    let s := s.setStream sid (s.stream sid).notifyWaiters
    if fin then some (s.goto sid (.flush .keepFin)) else some s.handled
  | .fin =>
    let st := s.stream sid
    some ((s.setStream sid {st with
      finQueued := st.finQueued || decide (st.reader.pc ≠ .gone)}).goto sid (.flush .unregister))
  | .unregister => some ((s.unregisterStream sid).goto sid (.flush .clear))
  | .clear => some {s with closing := s.closing.erase sid}.handled
  | .keepFin =>
    if s.finLock = some .loop then
      some ({s with pendingFin := insert sid s.pendingFin,finLock := none}.goto sid (.flush .finNotify))
    else none
  | .finNotify => some (s.setStream sid (s.stream sid).notifyWaiters).handled

def loopStep (s : Session) : Option Session :=
  match s.loop with
  | none => none
  | some (sid,.psh pc payload) => s.pshStep sid payload pc
  | some (sid,.close pc sender) => s.closeStep sid sender pc
  | some (sid,.fin pc) => s.finStep sid pc
  | some (sid,.synack pc) => s.synackStep sid pc
  | some (sid,.flush pc) => s.flushStep sid pc
  | some (sid,.syn queued) => s.synStep sid queued
  | some (_,.reopened) => none

def acceptStep (s : Session) (sid : StreamId) : Option Session :=
  let st := s.stream sid
  match st.accept with
  | .none | .done => none
  | .queued =>
    some (s.setStream sid {st with accept := if s.pendingOpen.contains sid then .register else .done})
  | .register => some (s.registerStream sid {st with accept := .release} false)
  | .release =>
    let s := s.setStream sid {st with accept := .flushTake false}
    match s.pendingOpen.releaseReservation sid with
    | some (true,next) => some {s with pendingOpen := next,pendingInbound := s.pendingInbound - 1}
    | _ => some s
  | .flushTake delivered =>
    match s.pendingOpen.takeReady sid with
    | none => some (s.setStream sid {st.setPc .idle with accept := .done})
    | some (payloads,fin,next) =>
      if payloads.isEmpty && !fin then
        some {s.setStream sid {st.setPc .idle with accept := .done} with pendingOpen := next.remove sid}
      else some {s.setStream sid {st with accept := .flushSend payloads [] fin delivered} with pendingOpen := next}
  | .flushSend [] overflow fin delivered =>
    some (s.setStream sid {st with accept := .flushStore overflow fin delivered})
  | .flushSend (payload::rest) overflow fin _ =>
    if st.data.length < streamChannelCapacity then
      some (s.setStream sid {st with data := st.data ++ [payload],accept := .flushSend rest overflow fin true})
    else some (s.setStream sid {st with accept := .flushSend rest (overflow ++ [payload]) fin true})
  | .flushStore [] fin delivered =>
    some (s.setStream sid {st with accept := if fin then .flushFin delivered else .flushTake delivered})
  | .flushStore (payload::rest) fin delivered =>
    if s.dataLock = some (.accept sid) then
      -- the answer of store_pending_data is not read here
      let stored := (storePendingData s.peerFlowControl s.pendingData sid payload).getD s.pendingData
      some {s.setStream sid {st with accept := .flushStore rest fin delivered} with
        pendingData := stored,dataLock := none}
    else none
  | .flushFin delivered =>
    some (s.setStream sid {st with
      finQueued := true,accept := if delivered then .flushMark else .flushUnregister})
  | .flushMark =>
    let s := s.markStreamReadClosed sid
    some (s.setStream sid {s.stream sid with accept := .flushRemove})
  | .flushUnregister =>
    let s := s.unregisterStream sid
    some (s.setStream sid {s.stream sid with accept := .flushRemove})
  | .flushRemove =>
    some {s.setStream sid {st with accept := .done,reader := {st.reader with pc := .idle,readClosed := true}} with
      pendingOpen := s.pendingOpen.remove sid}

def finishDrain (st : Stream) : Option Payload → Stream
  | none => st.setPc .decide
  | some payload => st.returnSome payload

def readerStep (s : Session) (sid : StreamId) : Option Session :=
  let st := s.stream sid
  match st.reader.pc with
  | .tryRecv =>
    match st.data with
    | [] => some (s.setStream sid (st.setPc .empty))
    | payload::rest => some (s.setStream sid {st.returnSome payload with data := rest})
  | .empty => some (s.setStream sid {st with reader := {st.reader with pc := .armed,notified := false}})
  | .armed =>
    match s.dataLock with
    | none => some {s.setStream sid (st.setPc .locked) with dataLock := some (.reader sid)}
    | some _ => some (s.setStream sid (st.setPc .decide))
  | .locked =>
    match s.pendingData.popFront sid with
    | none =>
      some {s.setStream sid (st.setPc (if s.isClient then .finTry none else .decide)) with dataLock := none}
    | some (payload,next) =>
      let st := if s.isClient && !next.contains sid then st.setPc (.finTry (some payload))
        else st.returnSome payload
      some {s.setStream sid st with pendingData := next,dataLock := none}
  | .finTry out =>
    match s.finLock with
    | none => some {s.setStream sid (st.setPc (.finLocked out)) with finLock := some (.reader sid)}
    | some _ => some (s.setStream sid (finishDrain st out))
  | .finLocked out =>
    let st := {st with reader := {st.reader with readClosed := st.reader.readClosed || hasFin s.pendingFin sid}}
    some {s.setStream sid (finishDrain st out) with pendingFin := s.pendingFin.erase sid,finLock := none}
  | .decide => some (s.setStream sid (if st.reader.readClosed then st.returnNone else st.setPc .parked))
  | _ => none

inductive WakeSource where
  | data | notified | fin
  deriving DecidableEq, Repr

/- One branch of the `select!`. A closed data channel answers `None`, a closed fin
channel takes the fin branch without a token. -/
def wakeStep (s : Session) (sid : StreamId) (source : WakeSource) : Option Session :=
  let st := s.stream sid
  if st.reader.pc ≠ .parked then none else
  match source with
  | .data =>
    match st.data with
    | payload::rest => some (s.setStream sid {st.returnSome payload with data := rest})
    | [] => if s.dataClosed sid then some (s.setStream sid st.returnNone) else none
  | .notified => if st.reader.notified then some (s.setStream sid (st.setPc .tryRecv)) else none
  | .fin =>
    if st.finQueued || s.finClosed sid then
      some (s.setStream sid {st with
        finQueued := false,reader := {st.reader with pc := .tryRecv,readClosed := true}})
    else none

def teardownStep (s : Session) (sid : StreamId) (tombstone : Bool) : Option Session :=
  let st := s.stream sid
  match st.teardown with
  | .none | .done =>
    if st.opened && decide (st.reader.pc ≠ .absent) then
      some {s.setStream sid {st with teardown := .unregister} with
        closing := if tombstone then insert sid s.closing else s.closing}
    else none
  | .unregister =>
    let s := s.unregisterStream sid
    some (s.setStream sid {s.stream sid with teardown := .removeData})
  | .removeData =>
    if s.dataLock = some (.teardown sid) then
      some {s.setStream sid {st with teardown := .removeFin} with
        pendingData := (s.pendingData.remove sid).1,dataLock := none}
    else none
  | .removeFin =>
    if s.finLock = some (.teardown sid) then
      some {s.setStream sid {st with teardown := .done} with
        pendingFin := s.pendingFin.erase sid,finLock := none}
    else none

/- The `try_lock` removals of `half_dropped`, once the read half is gone. -/
def sweepData (s : Session) (sid : StreamId) : Option Session :=
  if (s.stream sid).reader.pc = .gone then
    match s.dataLock with
    | none => some {s with pendingData := (s.pendingData.remove sid).1}
    | some _ => some s
  else none
def sweepFin (s : Session) (sid : StreamId) : Option Session :=
  if (s.stream sid).reader.pc = .gone then
    match s.finLock with
    | none => some {s with pendingFin := s.pendingFin.erase sid}
    | some _ => some s
  else none

def wantsData (s : Session) : Task → Bool
  | .loop => s.loop.any (fun here => here.2.wantsData)
  | .accept sid => match (s.stream sid).accept with | .flushStore (_::_) _ _ => true | _ => false
  | .teardown sid => decide ((s.stream sid).teardown = .removeData)
  | .reader _ => false

def wantsFin (s : Session) : Task → Bool
  | .loop => s.loop.any (fun here => here.2.wantsFin)
  | .teardown sid => decide ((s.stream sid).teardown = .removeFin)
  | .accept _ | .reader _ => false

/- A blocking `lock().await` of the loop, the accept or the teardown task. -/
def acquire (s : Session) (task : Task) : Option Session :=
  if s.wantsData task && s.dataLock.isNone then some {s with dataLock := some task}
  else if s.wantsFin task && s.finLock.isNone then some {s with finLock := some task}
  else none

end Session

inductive Action where
  | openStream (sid : StreamId)
  | frame (f : Frame) (queued : Bool)
  | loop
  | acquire (task : Task)
  | accept (sid : StreamId)
  | read (sid : StreamId)
  | reader (sid : StreamId)
  | wake (sid : StreamId) (source : Session.WakeSource)
  | cancel (sid : StreamId)
  | dropWriteHalf (sid : StreamId)
  | dropReadHalf (sid : StreamId) (marked : Bool)
  | teardown (sid : StreamId) (tombstone : Bool)
  | sweepData (sid : StreamId)
  | sweepFin (sid : StreamId)
  deriving DecidableEq, Repr

open Session in
def step (s : Session) : Action → Option Session
  | .openStream sid =>
    let st := s.stream sid
    if s.isClient && !st.opened && decide (s.capacity < s.maxStreams) then
      -- a frame the loop is still handling belongs to the stream that opens now
      some (s.registerStream sid {st with
        opened := true,synackRx := true,reader := {pc := .idle}
        arrived := ((s.onLoop sid).map HandlerPc.hand).getD []
        finSeen := (s.onLoop sid).any HandlerPc.isFin} true)
    else none
  | .frame f queued => if s.loop.isNone then s.handleFrame queued f else none
  | .loop => s.loopStep
  | .acquire task => s.acquire task
  | .accept sid => s.acceptStep sid
  | .read sid =>
    if (s.stream sid).reader.pc = .idle then some (s.setStream sid ((s.stream sid).setPc .tryRecv)) else none
  | .reader sid => s.readerStep sid
  | .wake sid source => s.wakeStep sid source
  | .cancel sid =>
    if (s.stream sid).reader.pc = .parked then some (s.setStream sid ((s.stream sid).setPc .idle)) else none
  | .dropWriteHalf sid =>
    if (s.stream sid).opened then some (s.setStream sid {s.stream sid with synackRx := false}) else none
  | .dropReadHalf sid marked =>
    if (s.stream sid).reader.pc = .idle then
      let s := if marked then s.markStreamReadClosed sid else s
      some (s.setStream sid {(s.stream sid).setPc .gone with data := [],finQueued := false})
    else none
  | .teardown sid tombstone => s.teardownStep sid tombstone
  | .sweepData sid => s.sweepData sid
  | .sweepFin sid => s.sweepFin sid

def start (isClient : Bool) (maxStreams : Nat) : Session := {isClient := isClient,maxStreams := maxStreams}

abbrev Run (ok : Session → Action → Prop) (isClient : Bool) (maxStreams : Nat) : Session → Prop :=
  Machine.Reach step ok (start isClient maxStreams)

end KanoTls.Receive
