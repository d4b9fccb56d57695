import KanoTls.Receive

/-! What one step of the session can do to one stream. `view` projects the session
to a stream; `Move` lists every change a step may make to that view, one family
for each task of the source; `stepMoves` and `stepApart` say that nothing else
happens. The invariants of a stream are proved by cases on `Move`. -/
namespace KanoTls.Receive
open Pending Session

structure View where
  st : Stream
  pending : List Payload
  finPending : Bool
  pre : Option PendingOpenStream
  pc : Option HandlerPc

def view (s : Session) (sid : StreamId) : View :=
  ⟨s.stream sid,s.pendingData.items sid,hasFin s.pendingFin sid,s.pendingOpen.entry sid,s.onLoop sid⟩

/- What a condition on runs may speak about: limits that were hit, a failed
`try_lock`, an answer to a receiver that is gone, a local teardown. -/
inductive Event where
  | quiet
  | dropOpen | dropPreSynack | dropMigrate | overflow
  | pop | dataBusy | finBusy
  | preSynackData | preSynackFin | finLost | takeFin | synackGone | refusal
  | tearUnregister | tearData | cancelled | reopened
  deriving DecidableEq, Repr

def target (s : Session) : Action → Option StreamId
  | .openStream sid | .accept sid | .read sid | .reader sid | .wake sid _ | .cancel sid
  | .dropWriteHalf sid | .dropReadHalf sid _ | .teardown sid _ | .sweepData sid | .sweepFin sid => some sid
  | .frame (.psh sid _) _ | .frame (.syn sid) _ | .frame (.fin sid) _ | .frame (.synack sid _) _
  | .frame (.windowUpdate sid) _ => some sid
  | .frame (.settings _) _ | .acquire _ => none
  | .loop => s.loop.map (·.1)

def stores (s : Session) (sid : StreamId) (payload : Payload) : Bool :=
  (storePendingData s.peerFlowControl s.pendingData sid payload).isSome

def reopens (s : Session) (sid : StreamId) (queued : Bool) : Bool :=
  !s.pendingOpen.contains sid && !decide (s.capacity + s.pendingInbound ≥ s.maxStreams) &&
    !(s.isClient || !queued) && (s.stream sid).opened

def loopEvent (s : Session) : Event :=
  match s.loop with
  | some (sid,.psh .storeOpen payload) =>
    match storePendingOpenData s.pendingOpen sid payload with
    | .dropped => .dropOpen
    | _ => .quiet
  | some (sid,.psh .preSynack payload) => if stores s sid payload then .preSynackData else .dropPreSynack
  | some (sid,.psh .store payload) => if stores s sid payload then .quiet else .overflow
  | some (sid,.fin .store) =>
    if s.pendingFin.card ≥ maxPendingStreams ∧ sid ∉ s.pendingFin then .finLost else .preSynackFin
  | some (sid,.synack (.reply _)) =>
    if !(s.stream sid).synackRx then .synackGone
    else if (s.stream sid).refused then .refusal else .quiet
  | some (sid,.syn queued) => if reopens s sid queued then .reopened else .quiet
  | _ => .quiet

def readerEvent (s : Session) (sid : StreamId) : Event :=
  match (s.stream sid).reader.pc with
  | .armed => if s.dataLock.isSome then .dataBusy else .quiet
  | .locked => if (s.pendingData.popFront sid).isSome then .pop else .quiet
  | .finTry _ => if s.finLock.isSome then .finBusy else .quiet
  | .finLocked none => if hasFin s.pendingFin sid then .takeFin else .quiet
  | _ => .quiet

def acceptEvent (s : Session) (sid : StreamId) : Event :=
  match (s.stream sid).accept with
  | .flushStore (payload::_) _ _ => if stores s sid payload then .quiet else .dropMigrate
  | _ => .quiet

def teardownEvent (s : Session) (sid : StreamId) : Event :=
  match (s.stream sid).teardown with
  | .unregister => .tearUnregister
  | .removeData => .tearData
  | _ => .quiet

def event (s : Session) : Action → Event
  | .loop => loopEvent s
  | .reader sid => readerEvent s sid
  | .accept sid => acceptEvent s sid
  | .teardown sid _ => teardownEvent s sid
  | .cancel _ => .cancelled
  | _ => .quiet

inductive FrameMove (client : Bool) (v : View) : View → Prop where
  | ignored : FrameMove client v v
  | openStream (c : client = true) (fresh : v.st.opened = false) :
      FrameMove client v {v with st := {v.st with
        opened := true,synackRx := true,reader := {pc := .idle},handle := some ⟨true,false⟩
        arrived := (v.pc.map HandlerPc.hand).getD [],finSeen := v.pc.any HandlerPc.isFin}}
  | psh (payload) (idle : v.pc = none) (known : v.st.opened = true) :
      FrameMove client v {v with
        st := {v.st with arrived := v.st.arrived ++ [payload]},pc := some (.psh .isOpen payload)}
  | pshUnknown (payload) (idle : v.pc = none) (unknown : v.st.opened = false) :
      FrameMove client v {v with pc := some (.psh .isOpen payload)}
  | syn (queued) (idle : v.pc = none) : FrameMove client v {v with pc := some (.syn queued)}
  | fin (idle : v.pc = none) :
      FrameMove client v {v with
        st := {v.st with finSeen := v.st.finSeen || v.st.opened}
        pc := some (.fin (if client then .takeSynack else .isOpen))}
  | synack (reason) (idle : v.pc = none) : FrameMove client v {v with pc := some (.synack (.take reason))}
  | windowUpdate (registered : v.st.handle.isSome = true) : FrameMove client v {v with st := v.st.notifyWaiters}

inductive PshMove (client : Bool) (payload : Payload) (v : View) : PshPc → Event → View → Prop where
  | isOpen (found : v.pre.isSome = true) :
      PshMove client payload v .isOpen .quiet {v with pc := some (.psh .storeOpen payload)}
  | isNotOpen (absent : v.pre = none) :
      PshMove client payload v .isOpen .quiet {v with pc := some (.psh .dispatch payload)}
  | openGone (absent : v.pre = none) :
      PshMove client payload v .storeOpen .quiet {v with pc := some (.psh .dispatch payload)}
  | openDropped : PshMove client payload v .storeOpen .dropOpen {v with pc := none}
  | openKept (e) (found : v.pre = some e) :
      PshMove client payload v .storeOpen .quiet {v with
        st := v.st.accepting payload
        pre := some {e with bufferedData := e.bufferedData ++ [payload],bytes := e.bytes + payload.length}
        pc := none}
  | notFound (absent : v.st.handle = none) : PshMove client payload v .dispatch .quiet {v with pc := none}
  | preSynack (h) (c : client = true) (found : v.st.handle = some h) (waits : h.synackTx = true) :
      PshMove client payload v .dispatch .quiet {v with pc := some (.psh .preSynack payload)}
  | closing (h) (found : v.st.handle = some h) (answered : client = true → h.synackTx = false)
      (closed : h.readClosed = true) :
      PshMove client payload v .dispatch .quiet {v with pc := none}
  | deliver (h) (found : v.st.handle = some h) (answered : client = true → h.synackTx = false)
      (unclosed : h.readClosed = false) :
      PshMove client payload v .dispatch .quiet {v with pc := some (.psh .probe payload)}
  | preSynackDropped : PshMove client payload v .preSynack .dropPreSynack {v with pc := none}
  | preSynackKept :
      PshMove client payload v .preSynack .preSynackData {v with
        st := v.st.accepting payload,pending := v.pending ++ [payload],pc := none}
  | probeFree : PshMove client payload v .probe .quiet {v with pc := some (.psh .probed payload)}
  | probeBusy : PshMove client payload v .probe .quiet {v with pc := some (.psh .store payload)}
  | probedPending : PshMove client payload v .probed .quiet {v with pc := some (.psh .store payload)}
  | probedEmpty (empty : v.pending = []) :
      PshMove client payload v .probed .quiet {v with pc := some (.psh .send payload)}
  | sendGone (gone : v.st.reader.pc = .gone) : PshMove client payload v .send .quiet {v with pc := none}
  | sendOk (alive : v.st.reader.pc ≠ .gone) :
      PshMove client payload v .send .quiet {v with
        st := {v.st.accepting payload with data := v.st.data ++ [payload]},pc := none}
  | sendFull : PshMove client payload v .send .quiet {v with pc := some (.psh .store payload)}
  | storeDropped : PshMove client payload v .store .overflow {v with pc := some (.close .remember true)}
  | storeKept :
      PshMove client payload v .store .quiet {v with
        st := v.st.accepting payload,pending := v.pending ++ [payload],pc := some (.psh .notify payload)}
  | notify : PshMove client payload v .notify .quiet {v with st := v.st.notifyWaiters,pc := none}

inductive CloseMove (sender : Bool) (v : View) : ClosePc → View → Prop where
  | remember : CloseMove sender v .remember {v with pc := some (.close .unregister sender)}
  | unregister : CloseMove sender v .unregister {v with
      st := {v.st with handle := none},pc := some (.close .removeData sender)}
  | removeData : CloseMove sender v .removeData {v with pending := [],pc := some (.close .removeFin sender)}
  | removeFin : CloseMove sender v .removeFin {v with finPending := false,pc := none}

inductive FinMove (v : View) : FinPc → Event → View → Prop where
  | take (closed) (found : v.st.handle = some ⟨true,closed⟩) :
      FinMove v .takeSynack .quiet {v with
        st := {v.st with handle := some ⟨false,closed⟩,refused := true},pc := some (.fin .store)}
  | takeNone (answered : ∀ h, v.st.handle = some h → h.synackTx = false) :
      FinMove v .takeSynack .quiet {v with pc := some (.fin .isOpen)}
  | lost : FinMove v .store .finLost {v with pc := none}
  | store : FinMove v .store .preSynackFin {v with finPending := true,pc := none}
  | notOpen (absent : v.pre = none) : FinMove v .isOpen .quiet {v with pc := some (.fin .closing)}
  | isOpen (e e') (found : v.pre = some e)
      (kept : e'.bufferedData = e.bufferedData ∧ e'.bufferedFin = true) :
      FinMove v .isOpen .quiet {v with pre := some e',pc := none}
  | tombstone : FinMove v .closing .quiet {v with pc := none}
  | closing : FinMove v .closing .quiet {v with pc := some (.fin .mark)}
  | markNone (absent : v.st.handle = none) : FinMove v .mark .quiet {v with pc := none}
  | mark (h) (found : v.st.handle = some h) :
      FinMove v .mark .quiet {v with
        st := {v.st with handle := some {h with readClosed := true}},pc := some (.fin .send)}
  | send : FinMove v .send .quiet {v with
      st := {v.st with finQueued := v.st.finQueued || decide (v.st.reader.pc ≠ .gone)},pc := some (.fin .clear)}
  | clear : FinMove v .clear .quiet {v with pc := none}

inductive SynackMove (v : View) : SynackPc → Event → View → Prop where
  | take (reason closed) (found : v.st.handle = some ⟨true,closed⟩) :
      SynackMove v (.take reason) .quiet {v with
        st := {v.st with handle := some ⟨false,closed⟩,refused := v.st.refused || !reason.isEmpty}
        pc := some (.synack .probeData)}
  | takeNone (reason) : SynackMove v (.take reason) .quiet {v with pc := none}
  | hasData : SynackMove v .probeData .quiet {v with pc := some (.synack (.reply true))}
  | noData (empty : v.pending = []) : SynackMove v .probeData .quiet {v with pc := some (.synack .probeFin)}
  | probeFin : SynackMove v .probeFin .quiet {v with pc := some (.synack (.reply v.finPending))}
  | gone (hasPending) (dropped : v.st.synackRx = false) :
      SynackMove v (.reply hasPending) .synackGone {v with pc := some (.close .unregister false)}
  | flush (alive : v.st.synackRx = true) (registered : v.st.handle.isSome = true) :
      SynackMove v (.reply true) (if v.st.refused then .refusal else .quiet) {v with pc := some (.flush .takeData)}
  | done (hasPending) (alive : v.st.synackRx = true) (nothing : hasPending = true → v.st.handle = none) :
      SynackMove v (.reply hasPending) (if v.st.refused then .refusal else .quiet) {v with pc := none}

inductive FlushMove (v : View) : FlushPc → View → Prop where
  | takeData : FlushMove v .takeData {v with pending := [],pc := some (.flush (.takeFin v.pending))}
  | takeFin (todo) : FlushMove v (.takeFin todo) {v with
      finPending := false,pc := some (.flush (.send todo [] v.finPending))}
  | sentFin : FlushMove v (.send [] [] true) {v with pc := some (.flush .fin)}
  | sent : FlushMove v (.send [] [] false) {v with pc := none}
  | kept (remaining fin) (kept : remaining ≠ []) :
      FlushMove v (.send [] remaining fin) {v with pc := some (.flush (.restore remaining fin))}
  | keep (payload rest remaining fin) (kept : remaining ≠ []) :
      FlushMove v (.send (payload::rest) remaining fin) {v with
        pc := some (.flush (.send rest (remaining ++ [payload]) fin))}
  | gone (payload rest fin) (gone : v.st.reader.pc = .gone) :
      FlushMove v (.send (payload::rest) [] fin) {v with pc := some (.close .remember true)}
  | send (payload rest fin) (alive : v.st.reader.pc ≠ .gone) :
      FlushMove v (.send (payload::rest) [] fin) {v with
        st := {v.st with data := v.st.data ++ [payload]},pc := some (.flush (.send rest [] fin))}
  | full (payload rest fin) :
      FlushMove v (.send (payload::rest) [] fin) {v with pc := some (.flush (.send rest [payload] fin))}
  | restore (remaining fin) : FlushMove v (.restore remaining fin) {v with
      pending := v.pending ++ remaining,pc := some (.flush (.notify fin))}
  | notify : FlushMove v (.notify false) {v with st := v.st.notifyWaiters,pc := none}
  | notifyFin : FlushMove v (.notify true) {v with st := v.st.notifyWaiters,pc := some (.flush .keepFin)}
  | fin : FlushMove v .fin {v with
      st := {v.st with finQueued := v.st.finQueued || decide (v.st.reader.pc ≠ .gone)}
      pc := some (.flush .unregister)}
  | unregister : FlushMove v .unregister {v with st := {v.st with handle := none},pc := some (.flush .clear)}
  | clear : FlushMove v .clear {v with pc := none}
  | keepFin : FlushMove v .keepFin {v with finPending := true,pc := some (.flush .finNotify)}
  | finNotify : FlushMove v .finNotify {v with st := v.st.notifyWaiters,pc := none}

inductive AcceptMove (v : View) : AcceptPc → Event → View → Prop where
  | begin (found : v.pre.isSome = true) : AcceptMove v .queued .quiet {v with st := {v.st with accept := .register}}
  | missing (absent : v.pre = none) : AcceptMove v .queued .quiet {v with st := {v.st with accept := .done}}
  | register : AcceptMove v .register .quiet {v with
      st := {v.st with accept := .release,handle := some ⟨false,false⟩}}
  | release (pre) (kept : pre.map (fun e => (e.bufferedData,e.bufferedFin)) =
        v.pre.map (fun e => (e.bufferedData,e.bufferedFin))) :
      AcceptMove v .release .quiet {v with st := {v.st with accept := .flushTake false},pre := pre}
  | vanished (delivered) (absent : v.pre = none) :
      AcceptMove v (.flushTake delivered) .quiet {v with st := {v.st.setPc .idle with accept := .done}}
  | opened (delivered e) (found : v.pre = some e) (nothing : e.bufferedData = [] ∧ e.bufferedFin = false) :
      AcceptMove v (.flushTake delivered) .quiet {v with st := {v.st.setPc .idle with accept := .done},pre := none}
  | take (delivered e) (found : v.pre = some e) (something : e.bufferedData ≠ [] ∨ e.bufferedFin = true) :
      AcceptMove v (.flushTake delivered) .quiet {v with
        st := {v.st with accept := .flushSend e.bufferedData [] e.bufferedFin delivered}
        pre := some {e with bufferedData := [],bytes := 0,bufferedFin := false}}
  | sent (overflow fin delivered) : AcceptMove v (.flushSend [] overflow fin delivered) .quiet {v with
      st := {v.st with accept := .flushStore overflow fin delivered}}
  | send (payload rest overflow fin delivered) (room : v.st.data.length < streamChannelCapacity) :
      AcceptMove v (.flushSend (payload::rest) overflow fin delivered) .quiet {v with
        st := {v.st with data := v.st.data ++ [payload],accept := .flushSend rest overflow fin true}}
  | full (payload rest overflow fin delivered) (full : streamChannelCapacity ≤ v.st.data.length) :
      AcceptMove v (.flushSend (payload::rest) overflow fin delivered) .quiet {v with
        st := {v.st with accept := .flushSend rest (overflow ++ [payload]) fin true}}
  | stored (delivered) : AcceptMove v (.flushStore [] false delivered) .quiet {v with
      st := {v.st with accept := .flushTake delivered}}
  | storedFin (delivered) : AcceptMove v (.flushStore [] true delivered) .quiet {v with
      st := {v.st with accept := .flushFin delivered}}
  | store (payload rest fin delivered) : AcceptMove v (.flushStore (payload::rest) fin delivered) .quiet {v with
      st := {v.st with accept := .flushStore rest fin delivered},pending := v.pending ++ [payload]}
  | dropped (payload rest fin delivered) :
      AcceptMove v (.flushStore (payload::rest) fin delivered) .dropMigrate {v with
        st := {v.st with accept := .flushStore rest fin delivered}}
  | finHalf : AcceptMove v (.flushFin true) .quiet {v with st := {v.st with finQueued := true,accept := .flushMark}}
  | finClosed : AcceptMove v (.flushFin false) .quiet {v with
      st := {v.st with finQueued := true,accept := .flushUnregister}}
  | mark : AcceptMove v .flushMark .quiet {v with st := {v.st with
      handle := v.st.handle.map (fun h => {h with readClosed := true}),accept := .flushRemove}}
  | unregister : AcceptMove v .flushUnregister .quiet {v with st := {v.st with handle := none,accept := .flushRemove}}
  | remove : AcceptMove v .flushRemove .quiet {v with
      st := {v.st with accept := .done,reader := {v.st.reader with pc := .idle,readClosed := true}},pre := none}

inductive ReaderMove (client : Bool) (v : View) : ReaderPc → Event → View → Prop where
  | recvEmpty (empty : v.st.data = []) : ReaderMove client v .tryRecv .quiet {v with st := v.st.setPc .empty}
  | recvSome (payload rest) (found : v.st.data = payload::rest) :
      ReaderMove client v .tryRecv .quiet {v with st := {v.st.returnSome payload with data := rest}}
  | arm : ReaderMove client v .empty .quiet {v with
      st := {v.st with reader := {v.st.reader with pc := .armed,notified := false}}}
  | lockFree : ReaderMove client v .armed .quiet {v with st := v.st.setPc .locked}
  | lockBusy : ReaderMove client v .armed .dataBusy {v with st := v.st.setPc .decide}
  | popNone (empty : v.pending = []) :
      ReaderMove client v .locked .quiet {v with st := v.st.setPc (if client then .finTry none else .decide)}
  | popLast (payload) (c : client = true) (last : v.pending = [payload]) :
      ReaderMove client v .locked .pop {v with st := v.st.setPc (.finTry (some payload)),pending := []}
  | popSome (payload rest) (found : v.pending = payload::rest) :
      ReaderMove client v .locked .pop {v with st := v.st.returnSome payload,pending := rest}
  | finBusy : ReaderMove client v (.finTry none) .finBusy {v with st := v.st.setPc .decide}
  | finBusyWith (payload) :
      ReaderMove client v (.finTry (some payload)) .finBusy {v with st := v.st.returnSome payload}
  | finFree (out) : ReaderMove client v (.finTry out) .quiet {v with st := v.st.setPc (.finLocked out)}
  | finWith (payload) : ReaderMove client v (.finLocked (some payload)) .quiet {v with
      st := Stream.returnSome {v.st with
        reader := {v.st.reader with readClosed := v.st.reader.readClosed || v.finPending}} payload
      finPending := false}
  | finTaken (found : v.finPending = true) : ReaderMove client v (.finLocked none) .takeFin {v with
      st := {v.st with reader := {v.st.reader with pc := .decide,readClosed := true}},finPending := false}
  | finAbsent (absent : v.finPending = false) :
      ReaderMove client v (.finLocked none) .quiet {v with st := v.st.setPc .decide,finPending := false}
  | eof (closed : v.st.reader.readClosed = true) : ReaderMove client v .decide .quiet {v with st := v.st.returnNone}
  | park (unclosed : v.st.reader.readClosed = false) :
      ReaderMove client v .decide .quiet {v with st := v.st.setPc .parked}
  | start : ReaderMove client v .idle .quiet {v with st := v.st.setPc .tryRecv}
  | wakeData (payload rest) (found : v.st.data = payload::rest) :
      ReaderMove client v .parked .quiet {v with st := {v.st.returnSome payload with data := rest}}
  | wakeClosed (empty : v.st.data = []) (closed : v.st.handle = none)
      (released : v.pc.any HandlerPc.dataSender = false) :
      ReaderMove client v .parked .quiet {v with st := v.st.returnNone}
  | wakeNotified (notified : v.st.reader.notified = true) :
      ReaderMove client v .parked .quiet {v with st := v.st.setPc .tryRecv}
  | wakeFin (fin : v.st.finQueued = true ∨ v.st.handle = none) :
      ReaderMove client v .parked .quiet {v with st := {v.st with
        finQueued := false,reader := {v.st.reader with pc := .tryRecv,readClosed := true}}}
  | cancel : ReaderMove client v .parked .cancelled {v with st := v.st.setPc .idle}

inductive SynMove (client : Bool) (v : View) : Event → View → Prop where
  | refused : SynMove client v .quiet {v with pc := none}
  | opened (c : client = false) (fresh : v.st.opened = false) (absent : v.pre = none) :
      SynMove client v .quiet {v with
        st := {v.st with opened := true,accept := .queued},pre := some {},pc := none}
  | again (c : client = false) (known : v.st.opened = true) :
      SynMove client v .reopened {v with pc := some .reopened}

inductive LocalMove (v : View) : Event → View → Prop where
  | dropWriteHalf (opened : v.st.opened = true) : LocalMove v .quiet {v with st := {v.st with synackRx := false}}
  | dropReadHalf (handle) (idle : v.st.reader.pc = .idle)
      (marked : handle = v.st.handle ∨ handle = v.st.handle.map (fun h => {h with readClosed := true})) :
      LocalMove v .quiet {v with st := {v.st.setPc .gone with handle := handle,data := [],finQueued := false}}
  | start (opened : v.st.opened = true) (present : v.st.reader.pc ≠ .absent) :
      LocalMove v .quiet {v with st := {v.st with teardown := .unregister}}
  | unregister (here : v.st.teardown = .unregister) :
      LocalMove v .tearUnregister {v with st := {v.st with handle := none,teardown := .removeData}}
  | removeData (here : v.st.teardown = .removeData) :
      LocalMove v .tearData {v with st := {v.st with teardown := .removeFin},pending := []}
  | removeFin (here : v.st.teardown = .removeFin) :
      LocalMove v .quiet {v with st := {v.st with teardown := .done},finPending := false}
  | sweepData (gone : v.st.reader.pc = .gone) : LocalMove v .quiet {v with pending := []}
  | sweepFin (gone : v.st.reader.pc = .gone) : LocalMove v .quiet {v with finPending := false}

inductive LoopMove (client : Bool) (v : View) : HandlerPc → Event → View → Prop where
  | psh {pc payload e w} (m : PshMove client payload v pc e w) : LoopMove client v (.psh pc payload) e w
  | close {pc sender w} (m : CloseMove sender v pc w) : LoopMove client v (.close pc sender) .quiet w
  | fin {pc e w} (m : FinMove v pc e w) : LoopMove client v (.fin pc) e w
  | synack {pc e w} (m : SynackMove v pc e w) : LoopMove client v (.synack pc) e w
  | flush {pc w} (m : FlushMove v pc w) : LoopMove client v (.flush pc) .quiet w

def HandlerPc.atSyn : HandlerPc → Bool
  | .syn _ => true
  | _ => false

inductive Move (client : Bool) (v : View) : Event → View → Prop where
  | frame {w} (m : FrameMove client v w) : Move client v .quiet w
  | loop {pc e w} (here : v.pc = some pc) (m : LoopMove client v pc e w) : Move client v e w
  | syn {queued e w} (here : v.pc = some (.syn queued)) (m : SynMove client v e w) : Move client v e w
  | accept {pc e w} (here : v.st.accept = pc) (m : AcceptMove v pc e w) : Move client v e w
  | reader {pc e w} (here : v.st.reader.pc = pc) (m : ReaderMove client v pc e w) : Move client v e w
  | side {e w} (m : LocalMove v e w) : Move client v e w

end KanoTls.Receive
