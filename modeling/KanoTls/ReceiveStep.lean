import KanoTls.ReceiveMove

/-! Every step of the session is one `Move` of its target stream and leaves the
view of every other stream alone. One lemma for each function of the source. -/
namespace KanoTls.Receive
open Pending Session

variable {s t : Session} {sid : StreamId}

theorem hasFinErase (fins : Finset StreamId) (sid : StreamId) : hasFin (fins.erase sid) sid = false := by
  simp [hasFin]

theorem hasFinInsert (fins : Finset StreamId) (sid : StreamId) : hasFin (insert sid fins) sid = true := by
  simp [hasFin]

theorem viewStream (s : Session) (sid : StreamId) (st : Stream) :
    view (s.setStream sid st) sid = {view s sid with st := st} := by
  simp [view,setStream,onLoop]

theorem unregistered (s : Session) (sid : StreamId) :
    view (s.unregisterStream sid) sid = {view s sid with st := {s.stream sid with handle := none}} := by
  unfold unregisterStream
  split
  · rename_i absent
    have same : {s.stream sid with handle := none} = s.stream sid := by rw [← absent]
    rw [same]
    rfl
  · simp [view,setStream,onLoop]

theorem marked (s : Session) (sid : StreamId) :
    view (s.markStreamReadClosed sid) sid = {view s sid with st := {s.stream sid with
      handle := (s.stream sid).handle.map (fun h => {h with readClosed := true})}} := by
  have eta (h) (same : h = (s.stream sid).handle) : {s.stream sid with handle := h} = s.stream sid := by
    rw [same]
  unfold markStreamReadClosed
  split
  · rename_i absent
    rw [eta _ (by rw [absent]; rfl)]
    rfl
  · rename_i h found
    split
    · rename_i closed
      have same : {h with readClosed := true} = h := by rw [← closed]
      rw [eta _ (by rw [found,Option.map_some,same])]
      rfl
    · simp [view,setStream,onLoop,found]

theorem pshMoves {payload pc} (here : s.loop = some (sid,.psh pc payload))
    (moved : s.pshStep sid payload pc = some t) :
    PshMove s.isClient payload (view s sid) pc (loopEvent s) (view t sid) := by
  cases pc <;> simp only [pshStep] at moved <;> simp only [loopEvent,here]
  case isOpen =>
    rw [PendingOpenStreams.containsEntry] at moved
    cases found : s.pendingOpen.entry sid <;> rw [found] at moved <;> cases Option.some.inj moved
    · simp only [view,goto,onLoop,if_true]
      exact .isNotOpen found
    · simp only [view,goto,onLoop,if_true]
      exact .isOpen (by simp [found])
  case storeOpen =>
    split at moved
    · rename_i absent
      cases Option.some.inj moved
      simp only [absent,view,goto,onLoop,if_true]
      exact .openGone (storedAbsent absent)
    · rename_i dropped
      cases Option.some.inj moved
      simp only [dropped]
      exact .openDropped
    · rename_i next kept
      obtain ⟨e,found,now,_⟩ := PendingOpenStreams.pushedEntry (storedKept kept)
      cases Option.some.inj moved
      simp only [kept,view,handled,setStream,onLoop,Function.update_self,now]
      exact .openKept e found
  case dispatch =>
    split at moved
    · rename_i absent
      cases Option.some.inj moved
      exact .notFound absent
    · rename_i h found
      split at moved
      · rename_i waits
        rw [Bool.and_eq_true] at waits
        cases Option.some.inj moved
        simp only [view,goto,onLoop,if_true]
        exact .preSynack h waits.1 found waits.2
      · rename_i answered
        have answered : s.isClient = true → h.synackTx = false := by simpa using answered
        split at moved
        · rename_i closed
          cases Option.some.inj moved
          exact .closing h found answered closed
        · rename_i unclosed
          cases Option.some.inj moved
          simp only [view,goto,onLoop,if_true]
          exact .deliver h found answered (by simpa using unclosed)
  case preSynack =>
    split at moved <;> try contradiction
    split at moved
    · rename_i refused
      cases Option.some.inj moved
      simp only [stores,refused]
      exact .preSynackDropped
    · rename_i next kept
      cases Option.some.inj moved
      simp only [stores,kept,view,handled,setStream,onLoop,Function.update_self,storedPushes kept,
        PendingData.itemsPushSame]
      exact .preSynackKept
  case probe =>
    split at moved
    · cases Option.some.inj moved
      simp only [view,goto,onLoop,if_true]
      exact .probeFree
    · cases Option.some.inj moved
      simp only [view,goto,onLoop,if_true]
      exact .probeBusy
  case probed =>
    cases has : s.pendingData.contains sid <;> rw [has] at moved <;> cases Option.some.inj moved
    · simp only [view,goto,onLoop,if_true]
      exact .probedEmpty (PendingData.itemsOfAbsent has)
    · simp only [view,goto,onLoop,if_true]
      exact .probedPending
  case send =>
    split at moved
    · rename_i gone
      cases Option.some.inj moved
      exact .sendGone gone
    · rename_i alive
      split at moved
      · cases Option.some.inj moved
        simp only [view,handled,setStream,onLoop,Function.update_self]
        exact .sendOk alive
      · cases Option.some.inj moved
        simp only [view,goto,onLoop,if_true]
        exact .sendFull
  case store =>
    split at moved <;> try contradiction
    split at moved
    · rename_i refused
      cases Option.some.inj moved
      simp only [stores,refused,view,goto,onLoop,if_true]
      exact .storeDropped
    · rename_i next kept
      cases Option.some.inj moved
      simp only [stores,kept,view,goto,setStream,onLoop,Function.update_self,if_true,storedPushes kept,
        PendingData.itemsPushSame]
      exact .storeKept
  case notify =>
    cases Option.some.inj moved
    simp only [view,handled,setStream,onLoop,Function.update_self]
    exact .notify

theorem closeMoves {sender pc} (moved : s.closeStep sid sender pc = some t) :
    CloseMove sender (view s sid) pc (view t sid) := by
  cases pc <;> simp only [closeStep] at moved
  case remember =>
    cases Option.some.inj moved
    simp only [view,goto,onLoop,if_true]
    exact .remember
  case unregister =>
    cases Option.some.inj moved
    have after : view ((s.unregisterStream sid).goto sid (.close .removeData sender)) sid =
        {view (s.unregisterStream sid) sid with pc := some (.close .removeData sender)} := by
      simp [view,goto,onLoop]
    rw [after,unregistered]
    exact .unregister
  case removeData =>
    split at moved <;> try contradiction
    cases Option.some.inj moved
    simp only [view,goto,onLoop,if_true,PendingData.itemsRemoveSame]
    exact .removeData
  case removeFin =>
    split at moved <;> try contradiction
    cases Option.some.inj moved
    simp only [view,handled,onLoop,hasFinErase]
    exact .removeFin

theorem finMoves {pc} (here : s.loop = some (sid,.fin pc)) (moved : s.finStep sid pc = some t) :
    FinMove (view s sid) pc (loopEvent s) (view t sid) := by
  cases pc <;> simp only [finStep] at moved <;> simp only [loopEvent,here]
  case takeSynack =>
    split at moved
    · rename_i closed found
      cases Option.some.inj moved
      simp only [view,goto,setStream,onLoop,Function.update_self,if_true]
      exact .take closed found
    · rename_i answered
      cases Option.some.inj moved
      simp only [view,goto,onLoop,if_true]
      refine .takeNone ?_
      rintro ⟨tx,closed⟩ found
      cases tx
      · rfl
      · exact absurd found (answered closed)
  case store =>
    split at moved <;> try contradiction
    split at moved
    · rename_i full
      cases Option.some.inj moved
      rw [if_pos full]
      exact .lost
    · rename_i room
      cases Option.some.inj moved
      rw [if_neg room]
      simp only [view,handled,onLoop,hasFinInsert]
      exact .store
  case isOpen =>
    cases marked : s.pendingOpen.setBufferedFin sid with
    | none =>
      rw [marked] at moved
      cases Option.some.inj moved
      simp only [view,goto,onLoop,if_true]
      exact .notOpen (PendingOpenStreams.finAbsent marked)
    | some next =>
      rw [marked] at moved
      obtain ⟨e,found,now,_⟩ := PendingOpenStreams.finEntry marked
      simp only at moved
      split at moved
      · rename_i released first
        obtain ⟨e',found',now',_⟩ := PendingOpenStreams.releasedEntry first
        cases Option.some.inj (now.symm.trans found')
        cases Option.some.inj moved
        simp only [view,handled,onLoop,now']
        exact .isOpen e _ found ⟨rfl,rfl⟩
      · cases Option.some.inj moved
        simp only [view,handled,onLoop,now]
        exact .isOpen e _ found ⟨rfl,rfl⟩
  case closing =>
    split at moved
    · cases Option.some.inj moved
      exact .tombstone
    · cases Option.some.inj moved
      simp only [view,goto,onLoop,if_true]
      exact .closing
  case mark =>
    cases found : (s.stream sid).handle with
    | none =>
      rw [found] at moved
      cases Option.some.inj moved
      exact .markNone found
    | some h =>
      rw [found] at moved
      cases Option.some.inj moved
      have after : view ((s.markStreamReadClosed sid).goto sid (.fin .send)) sid =
          {view (s.markStreamReadClosed sid) sid with pc := some (.fin .send)} := by
        simp [view,goto,onLoop]
      rw [after,Receive.marked,found]
      exact .mark h found
  case send =>
    cases Option.some.inj moved
    simp only [view,goto,setStream,onLoop,Function.update_self,if_true]
    exact .send
  case clear =>
    split at moved <;> cases Option.some.inj moved <;> exact .clear

theorem synackMoves {pc} (here : s.loop = some (sid,.synack pc)) (moved : s.synackStep sid pc = some t) :
    SynackMove (view s sid) pc (loopEvent s) (view t sid) := by
  cases pc <;> simp only [synackStep] at moved <;> simp only [loopEvent,here]
  case take reason =>
    split at moved
    · rename_i closed found
      cases Option.some.inj moved
      simp only [view,goto,setStream,onLoop,Function.update_self,if_true]
      exact .take reason closed found
    · cases Option.some.inj moved
      exact .takeNone reason
  case probeData =>
    split at moved <;> try contradiction
    cases has : s.pendingData.contains sid <;> rw [has] at moved <;> cases Option.some.inj moved
    · simp only [view,goto,onLoop,if_true]
      exact .noData (PendingData.itemsOfAbsent has)
    · simp only [view,goto,onLoop,if_true]
      exact .hasData
  case probeFin =>
    split at moved <;> try contradiction
    cases Option.some.inj moved
    simp only [view,goto,onLoop,if_true]
    exact .probeFin
  case reply hasPending =>
    cases alive : (s.stream sid).synackRx <;> rw [alive] at moved
    · cases Option.some.inj moved
      simp only [view,goto,onLoop,if_true]
      exact .gone hasPending alive
    · simp only [Bool.not_true,Bool.false_eq_true,if_false] at moved ⊢
      split at moved
      · rename_i both
        rw [Bool.and_eq_true] at both
        cases Option.some.inj moved
        cases both.1
        simp only [view,goto,onLoop,if_true]
        exact .flush alive both.2
      · rename_i nothing
        have nothing : hasPending = true → (s.stream sid).handle = none := by simpa using nothing
        cases Option.some.inj moved
        exact .done hasPending alive nothing

theorem itemsPushAll (remaining : List Payload) (d : PendingData) (sid : StreamId) :
    (remaining.foldl (fun d payload => d.pushBack sid payload) d).items sid = d.items sid ++ remaining := by
  induction remaining generalizing d with
  | nil => simp
  | cons payload rest ih => rw [List.foldl_cons,ih,PendingData.itemsPushSame,List.append_assoc]; rfl

theorem flushMoves {pc} (moved : s.flushStep sid pc = some t) : FlushMove (view s sid) pc (view t sid) := by
  cases pc with
  | takeData =>
    simp only [flushStep] at moved
    split at moved <;> try contradiction
    cases Option.some.inj moved
    simp only [view,goto,onLoop,if_true,PendingData.itemsRemoveSame,PendingData.removed]
    exact .takeData
  | takeFin todo =>
    simp only [flushStep] at moved
    split at moved <;> try contradiction
    cases Option.some.inj moved
    simp only [view,goto,onLoop,if_true,hasFinErase]
    exact .takeFin todo
  | send todo remaining fin =>
    cases todo with
    | nil =>
      simp only [flushStep] at moved
      cases remaining with
      | nil =>
        cases fin <;> cases Option.some.inj moved
        · exact .sent
        · simp only [view,goto,onLoop,if_true]
          exact .sentFin
      | cons first later =>
        cases Option.some.inj moved
        simp only [view,goto,onLoop,if_true]
        exact .kept _ fin (List.cons_ne_nil _ _)
    | cons payload rest =>
      simp only [flushStep] at moved
      cases remaining with
      | cons first later =>
        cases Option.some.inj moved
        simp only [view,goto,onLoop,if_true]
        exact .keep payload rest _ fin (List.cons_ne_nil _ _)
      | nil =>
        rw [if_neg (by simp)] at moved
        split at moved
        · rename_i gone
          cases Option.some.inj moved
          simp only [view,goto,onLoop,if_true]
          exact .gone payload rest fin gone
        · rename_i alive
          split at moved
          · cases Option.some.inj moved
            simp only [view,goto,setStream,onLoop,Function.update_self,if_true]
            exact .send payload rest fin alive
          · cases Option.some.inj moved
            simp only [view,goto,onLoop,if_true]
            exact .full payload rest fin
  | restore remaining fin =>
    simp only [flushStep] at moved
    split at moved <;> try contradiction
    cases Option.some.inj moved
    simp only [view,goto,onLoop,if_true,itemsPushAll]
    exact .restore remaining fin
  | notify fin =>
    cases fin <;> cases Option.some.inj moved
    · simp only [view,handled,setStream,onLoop,Function.update_self]
      exact .notify
    · simp only [view,goto,setStream,onLoop,Function.update_self,if_true]
      exact .notifyFin
  | fin =>
    cases Option.some.inj moved
    simp only [view,goto,setStream,onLoop,Function.update_self,if_true]
    exact .fin
  | unregister =>
    cases Option.some.inj moved
    have after : view ((s.unregisterStream sid).goto sid (.flush .clear)) sid =
        {view (s.unregisterStream sid) sid with pc := some (.flush .clear)} := by
      simp [view,goto,onLoop]
    rw [after,unregistered]
    exact .unregister
  | clear =>
    cases Option.some.inj moved
    exact .clear
  | keepFin =>
    simp only [flushStep] at moved
    split at moved <;> try contradiction
    cases Option.some.inj moved
    simp only [view,goto,onLoop,if_true,hasFinInsert]
    exact .keepFin
  | finNotify =>
    cases Option.some.inj moved
    simp only [view,handled,setStream,onLoop,Function.update_self]
    exact .finNotify

theorem acceptMoves {pc} (here : (s.stream sid).accept = pc) (moved : s.acceptStep sid = some t) :
    AcceptMove (view s sid) pc (acceptEvent s sid) (view t sid) := by
  simp only [acceptStep,here] at moved
  simp only [acceptEvent,here]
  cases pc with
  | none => contradiction
  | done => contradiction
  | queued =>
    rw [PendingOpenStreams.containsEntry] at moved
    cases found : s.pendingOpen.entry sid <;> rw [found] at moved <;> cases Option.some.inj moved
    · simp only [view,setStream,onLoop,Function.update_self]
      exact .missing found
    · simp only [view,setStream,onLoop,Function.update_self]
      exact .begin (by simp [found])
  | register =>
    cases Option.some.inj moved
    simp only [view,registerStream,setStream,onLoop,Function.update_self]
    exact .register
  | release =>
    simp only at moved
    split at moved
    · rename_i next first
      obtain ⟨e,found,now,_⟩ := PendingOpenStreams.releasedEntry first
      have found : s.pendingOpen.entry sid = some e := found
      cases Option.some.inj moved
      simp only [view,setStream,onLoop,Function.update_self,now]
      exact .release _ (by simp [found])
    · cases Option.some.inj moved
      simp only [view,setStream,onLoop,Function.update_self]
      exact .release _ rfl
  | flushTake delivered =>
    simp only at moved
    split at moved
    · rename_i missing
      cases Option.some.inj moved
      simp only [view,setStream,onLoop,Function.update_self]
      exact .vanished delivered (PendingOpenStreams.takenAbsent missing)
    · rename_i payloads fin next taken
      obtain ⟨e,found,rfl,rfl,now,_⟩ := PendingOpenStreams.takenEntry taken
      split at moved
      · rename_i nothing
        rw [Bool.and_eq_true,List.isEmpty_iff,Bool.not_eq_true'] at nothing
        cases Option.some.inj moved
        simp only [view,setStream,onLoop,Function.update_self,PendingOpenStreams.entryRemove,if_true]
        exact .opened delivered e found nothing
      · rename_i something
        rw [Bool.and_eq_true,List.isEmpty_iff,Bool.not_eq_true'] at something
        cases Option.some.inj moved
        simp only [view,setStream,onLoop,Function.update_self,now]
        refine .take delivered e found ?_
        cases fin : e.bufferedFin
        · exact .inl (fun empty => something ⟨empty,fin⟩)
        · exact .inr rfl
  | flushSend todo overflow fin delivered =>
    cases todo with
    | nil =>
      cases Option.some.inj moved
      simp only [view,setStream,onLoop,Function.update_self]
      exact .sent overflow fin delivered
    | cons payload rest =>
      simp only at moved
      split at moved
      · rename_i room
        cases Option.some.inj moved
        simp only [view,setStream,onLoop,Function.update_self]
        exact .send payload rest overflow fin delivered room
      · rename_i full
        cases Option.some.inj moved
        simp only [view,setStream,onLoop,Function.update_self]
        exact .full payload rest overflow fin delivered (by simpa using full)
  | flushStore overflow fin delivered =>
    cases overflow with
    | nil =>
      cases fin <;> cases Option.some.inj moved
      · simp only [view,setStream,onLoop,Function.update_self]
        exact .stored delivered
      · simp only [view,setStream,onLoop,Function.update_self]
        exact .storedFin delivered
    | cons payload rest =>
      simp only at moved
      split at moved <;> try contradiction
      cases Option.some.inj moved
      cases kept : storePendingData s.peerFlowControl s.pendingData sid payload with
      | none =>
        simp only [stores,kept,view,setStream,onLoop,Function.update_self,Option.getD_none]
        exact .dropped payload rest fin delivered
      | some next =>
        simp only [stores,kept,view,setStream,onLoop,Function.update_self,Option.getD_some,
          storedPushes kept,PendingData.itemsPushSame]
        exact .store payload rest fin delivered
  | flushFin delivered =>
    cases delivered <;> cases Option.some.inj moved
    · simp only [view,setStream,onLoop,Function.update_self]
      exact .finClosed
    · simp only [view,setStream,onLoop,Function.update_self]
      exact .finHalf
  | flushMark =>
    cases Option.some.inj moved
    have after := congrArg View.st (marked s sid)
    rw [viewStream,marked,show (s.markStreamReadClosed sid).stream sid = _ from after]
    exact .mark
  | flushUnregister =>
    cases Option.some.inj moved
    have after := congrArg View.st (unregistered s sid)
    rw [viewStream,unregistered,show (s.unregisterStream sid).stream sid = _ from after]
    exact .unregister
  | flushRemove =>
    cases Option.some.inj moved
    simp only [view,setStream,onLoop,Function.update_self,PendingOpenStreams.entryRemove,if_true]
    exact .remove

theorem readerMoves {pc} (here : (s.stream sid).reader.pc = pc) (moved : s.readerStep sid = some t) :
    ReaderMove s.isClient (view s sid) pc (readerEvent s sid) (view t sid) := by
  simp only [readerStep,here] at moved
  simp only [readerEvent,here]
  cases pc with
  | tryRecv =>
    simp only at moved
    split at moved
    · rename_i empty
      cases Option.some.inj moved
      simp only [view,setStream,onLoop,Function.update_self]
      exact .recvEmpty empty
    · rename_i payload rest found
      cases Option.some.inj moved
      simp only [view,setStream,onLoop,Function.update_self]
      exact .recvSome payload rest found
  | empty =>
    cases Option.some.inj moved
    simp only [view,setStream,onLoop,Function.update_self]
    exact .arm
  | armed =>
    cases busy : s.dataLock <;> rw [busy] at moved <;> cases Option.some.inj moved
    · simp only [view,setStream,onLoop,Function.update_self]
      exact .lockFree
    · simp only [view,setStream,onLoop,Function.update_self]
      exact .lockBusy
  | locked =>
    cases popped : s.pendingData.popFront sid with
    | none =>
      rw [popped] at moved
      cases Option.some.inj moved
      simp only [view,setStream,onLoop,Function.update_self]
      exact .popNone (PendingData.popFrontNone popped)
    | some taken =>
      obtain ⟨payload,next⟩ := taken
      obtain ⟨found,_⟩ := PendingData.popFrontSome popped
      rw [popped] at moved
      simp only at moved
      split at moved
      · rename_i last
        rw [Bool.and_eq_true,Bool.not_eq_true'] at last
        have empty := PendingData.itemsOfAbsent last.2
        rw [empty] at found
        cases Option.some.inj moved
        simp only [view,setStream,onLoop,Function.update_self,empty]
        exact .popLast payload last.1 found
      · cases Option.some.inj moved
        simp only [view,setStream,onLoop,Function.update_self]
        exact .popSome payload _ found
  | finTry out =>
    cases busy : s.finLock <;> rw [busy] at moved <;> cases Option.some.inj moved
    · simp only [view,setStream,onLoop,Function.update_self]
      exact .finFree out
    · cases out with
      | none =>
        simp only [view,setStream,onLoop,Function.update_self,finishDrain]
        exact .finBusy
      | some payload =>
        simp only [view,setStream,onLoop,Function.update_self,finishDrain]
        exact .finBusyWith payload
  | finLocked out =>
    cases Option.some.inj moved
    cases out with
    | some payload =>
      simp only [view,setStream,onLoop,Function.update_self,hasFinErase,finishDrain]
      exact .finWith payload
    | none =>
      cases found : hasFin s.pendingFin sid
      · simp only [view,setStream,onLoop,Function.update_self,hasFinErase,finishDrain,Bool.or_false]
        exact .finAbsent found
      · simp only [view,setStream,onLoop,Function.update_self,hasFinErase,finishDrain,Bool.or_true]
        exact .finTaken found
  | decide =>
    cases Option.some.inj moved
    cases closed : (s.stream sid).reader.readClosed
    · simp only [view,setStream,onLoop,Function.update_self,Bool.false_eq_true,if_false]
      exact .park closed
    · simp only [view,setStream,onLoop,Function.update_self,if_true]
      exact .eof closed
  | _ => contradiction

theorem wakeMoves {source} (moved : s.wakeStep sid source = some t) :
    (s.stream sid).reader.pc = .parked ∧ ReaderMove s.isClient (view s sid) .parked .quiet (view t sid) := by
  simp only [wakeStep] at moved
  split at moved <;> try contradiction
  rename_i parked
  refine ⟨not_not.mp parked,?_⟩
  cases source with
  | data =>
    simp only at moved
    split at moved
    · rename_i payload rest found
      cases Option.some.inj moved
      rw [viewStream]
      exact .wakeData payload rest found
    · rename_i empty
      split at moved <;> try contradiction
      rename_i closed
      rw [dataClosed,Bool.and_eq_true,Option.isNone_iff_eq_none,Bool.not_eq_true'] at closed
      cases Option.some.inj moved
      rw [viewStream]
      exact .wakeClosed empty closed.1 closed.2
  | notified =>
    simp only at moved
    split at moved <;> try contradiction
    rename_i notified
    cases Option.some.inj moved
    rw [viewStream]
    exact .wakeNotified notified
  | fin =>
    simp only at moved
    split at moved <;> try contradiction
    rename_i fin
    rw [finClosed,Bool.or_eq_true,Bool.and_eq_true,Option.isNone_iff_eq_none] at fin
    cases Option.some.inj moved
    rw [viewStream]
    exact .wakeFin (fin.imp_right And.left)

theorem teardownMoves {tombstone} (moved : s.teardownStep sid tombstone = some t) :
    LocalMove (view s sid) (teardownEvent s sid) (view t sid) := by
  have start (quiet : teardownEvent s sid = .quiet)
      (moved : (if (s.stream sid).opened && decide ((s.stream sid).reader.pc ≠ .absent) then
        some {s.setStream sid {s.stream sid with teardown := .unregister} with
          closing := if tombstone then insert sid s.closing else s.closing}
        else none) = some t) : LocalMove (view s sid) (teardownEvent s sid) (view t sid) := by
    split at moved <;> try contradiction
    rename_i live
    rw [Bool.and_eq_true,decide_eq_true_iff] at live
    cases Option.some.inj moved
    rw [quiet]
    simp only [view,setStream,onLoop,Function.update_self]
    exact .start live.1 live.2
  unfold teardownStep at moved
  cases here : (s.stream sid).teardown with
  | none => exact start (by simp [teardownEvent,here]) (by simpa only [here] using moved)
  | done => exact start (by simp [teardownEvent,here]) (by simpa only [here] using moved)
  | unregister =>
    simp only [here] at moved
    simp only [teardownEvent,here]
    cases Option.some.inj moved
    have after := congrArg View.st (unregistered s sid)
    rw [viewStream,unregistered,show (s.unregisterStream sid).stream sid = _ from after]
    exact .unregister here
  | removeData =>
    simp only [here] at moved
    simp only [teardownEvent,here]
    split at moved <;> try contradiction
    cases Option.some.inj moved
    simp only [view,setStream,onLoop,Function.update_self,PendingData.itemsRemoveSame]
    exact .removeData here
  | removeFin =>
    simp only [here] at moved
    simp only [teardownEvent,here]
    split at moved <;> try contradiction
    cases Option.some.inj moved
    simp only [view,setStream,onLoop,Function.update_self,hasFinErase]
    exact .removeFin here

theorem synMoves {queued} (here : s.loop = some (sid,.syn queued)) (moved : s.loopStep = some t) :
    SynMove s.isClient (view s sid) (loopEvent s) (view t sid) := by
  simp only [loopStep,here,synStep] at moved
  simp only [loopEvent,here]
  split at moved
  · rename_i pending
    have first : reopens s sid queued = false := by simp [reopens,pending]
    rw [first]
    cases Option.some.inj moved
    exact .refused
  · rename_i absent
    split at moved
    · rename_i full
      have first : reopens s sid queued = false := by simp [reopens,full]
      rw [first]
      cases Option.some.inj moved
      exact .refused
    · rename_i room
      split at moved
      · rename_i unserved
        have first : reopens s sid queued = false := by simp [reopens,unserved]
        rw [first]
        cases Option.some.inj moved
        exact .refused
      · rename_i served
        have asks : reopens s sid queued = (s.stream sid).opened := by simp [reopens,absent,room,served]
        rw [asks]
        simp only [Bool.or_eq_true,not_or] at served
        have server : s.isClient = false := by simpa using served.1
        have noEntry : s.pendingOpen.entry sid = none := by
          simpa only [PendingOpenStreams.containsEntry,Option.isSome_iff_ne_none,Ne,not_not] using absent
        split at moved
        · rename_i known
          rw [known]
          cases Option.some.inj moved
          simp only [view,goto,onLoop,if_true]
          exact .again server known
        · rename_i fresh
          have fresh : (s.stream sid).opened = false := by simpa using fresh
          rw [fresh]
          cases Option.some.inj moved
          simp only [view,handled,setStream,onLoop,Function.update_self,PendingOpenStreams.entryInsertNew,if_true]
          exact .opened server fresh noEntry

theorem frameMoves {f : Frame} {queued : Bool} (idle : s.loop = none) (moved : s.handleFrame queued f = some t)
    (here : target s (.frame f queued) = some sid) : FrameMove s.isClient (view s sid) (view t sid) := by
  have resting : (view s sid).pc = none := by simp [view,onLoop,idle]
  cases f with
  | psh k payload =>
    cases Option.some.inj here
    simp only [handleFrame] at moved
    cases Option.some.inj moved
    by_cases known : (s.stream sid).opened = true
    · rw [if_pos known]
      simp only [view,goto,setStream,onLoop,Function.update_self,if_true]
      exact .psh payload resting known
    · rw [if_neg known]
      simp only [view,goto,setStream,onLoop,Function.update_self,if_true]
      exact .pshUnknown payload resting (by simpa using known)
  | syn k =>
    cases Option.some.inj here
    simp only [handleFrame] at moved
    split at moved
    · cases Option.some.inj moved
      exact .ignored
    · cases Option.some.inj moved
      simp only [view,goto,onLoop,if_true]
      exact .syn queued resting
  | fin k =>
    cases Option.some.inj here
    cases Option.some.inj moved
    simp only [view,goto,setStream,onLoop,Function.update_self,if_true]
    exact .fin resting
  | synack k reason =>
    cases Option.some.inj here
    cases Option.some.inj moved
    simp only [view,goto,onLoop,if_true]
    exact .synack reason resting
  | settings fc => contradiction
  | windowUpdate k =>
    cases Option.some.inj here
    simp only [handleFrame] at moved
    split at moved
    · rename_i registered
      cases Option.some.inj moved
      rw [viewStream]
      exact .windowUpdate registered
    · cases Option.some.inj moved
      exact .ignored

theorem loopMoves {pc} (here : s.loop = some (sid,pc)) (other : pc.atSyn = false) (moved : s.loopStep = some t) :
    LoopMove s.isClient (view s sid) pc (loopEvent s) (view t sid) := by
  simp only [loopStep,here] at moved
  cases pc with
  | psh pc payload => exact .psh (pshMoves here moved)
  | close pc sender =>
    have quiet : loopEvent s = .quiet := by simp [loopEvent,here]
    rw [quiet]
    exact .close (closeMoves moved)
  | fin pc => exact .fin (finMoves here moved)
  | synack pc => exact .synack (synackMoves here moved)
  | flush pc =>
    have quiet : loopEvent s = .quiet := by simp [loopEvent,here]
    rw [quiet]
    exact .flush (flushMoves moved)
  | syn queued => contradiction
  | reopened => contradiction

theorem stepMoves {a} (moved : step s a = some t) (here : target s a = some sid) :
    Move s.isClient (view s sid) (event s a) (view t sid) := by
  cases a with
  | openStream k =>
    cases Option.some.inj here
    simp only [step] at moved
    split at moved <;> try contradiction
    rename_i live
    simp only [Bool.and_eq_true,Bool.not_eq_true'] at live
    cases Option.some.inj moved
    simp only [view,registerStream,setStream,onLoop,Function.update_self]
    exact .frame (.openStream live.1.1 live.1.2)
  | frame f queued =>
    simp only [step] at moved
    split at moved <;> try contradiction
    rename_i idle
    exact .frame (frameMoves (Option.isNone_iff_eq_none.mp idle) moved here)
  | loop =>
    obtain ⟨⟨k,pc⟩,stands,rfl⟩ := Option.map_eq_some_iff.mp here
    have here : (view s k).pc = some pc := by simp [view,onLoop,stands]
    cases syn : pc.atSyn with
    | false => exact .loop here (loopMoves stands syn moved)
    | true =>
      cases pc with
      | syn queued => exact .syn here (synMoves stands moved)
      | _ => contradiction
  | acquire task => contradiction
  | accept k =>
    cases Option.some.inj here
    exact .accept rfl (acceptMoves rfl moved)
  | read k =>
    cases Option.some.inj here
    simp only [step] at moved
    split at moved <;> try contradiction
    rename_i idle
    cases Option.some.inj moved
    rw [viewStream]
    exact .reader idle .start
  | reader k =>
    cases Option.some.inj here
    exact .reader rfl (readerMoves rfl moved)
  | wake k source =>
    cases Option.some.inj here
    obtain ⟨parked,woken⟩ := wakeMoves moved
    exact .reader parked woken
  | cancel k =>
    cases Option.some.inj here
    simp only [step] at moved
    split at moved <;> try contradiction
    rename_i parked
    cases Option.some.inj moved
    rw [viewStream]
    exact .reader parked .cancel
  | dropWriteHalf k =>
    cases Option.some.inj here
    simp only [step] at moved
    split at moved <;> try contradiction
    rename_i opened
    cases Option.some.inj moved
    rw [viewStream]
    exact .side (.dropWriteHalf opened)
  | dropReadHalf k marks =>
    cases Option.some.inj here
    simp only [step] at moved
    split at moved <;> try contradiction
    rename_i idle
    cases marks <;> cases Option.some.inj moved
    · simp only [Bool.false_eq_true,if_false]
      rw [viewStream]
      exact .side (.dropReadHalf _ idle (.inl rfl))
    · simp only [if_true]
      have after := congrArg View.st (marked s sid)
      rw [viewStream,marked,show (s.markStreamReadClosed sid).stream sid = _ from after]
      exact .side (.dropReadHalf _ idle (.inr rfl))
  | teardown k tombstone =>
    cases Option.some.inj here
    exact .side (teardownMoves moved)
  | sweepData k =>
    cases Option.some.inj here
    simp only [step,sweepData] at moved
    split at moved <;> try contradiction
    rename_i gone
    split at moved
    · cases Option.some.inj moved
      simp only [view,onLoop,PendingData.itemsRemoveSame]
      exact .side (.sweepData gone)
    · cases Option.some.inj moved
      exact .frame .ignored
  | sweepFin k =>
    cases Option.some.inj here
    simp only [step,sweepFin] at moved
    split at moved <;> try contradiction
    rename_i gone
    split at moved
    · cases Option.some.inj moved
      simp only [view,onLoop,hasFinErase]
      exact .side (.sweepFin gone)
    · cases Option.some.inj moved
      exact .frame .ignored

section Apart
variable {other : StreamId} (different : other ≠ sid)
include different

theorem apartStream (st : Stream) : view (s.setStream sid st) other = view s other := by
  simp [view,setStream,onLoop,different]

theorem apartUnregister : view (s.unregisterStream sid) other = view s other := by
  unfold unregisterStream
  split
  · rfl
  · exact apartStream different _

theorem apartMark : view (s.markStreamReadClosed sid) other = view s other := by
  unfold markStreamReadClosed
  split
  · rfl
  · split
    · rfl
    · exact apartStream different _

theorem apartGoto (pc : HandlerPc) (away : s.onLoop other = none) : view (s.goto sid pc) other = view s other := by
  unfold view
  rw [away]
  simp [goto,onLoop,different.symm]

theorem apartStored {fc d d' payload} (stored : storePendingData fc d sid payload = some d') :
    d'.items other = d.items other := by
  rw [storedPushes stored]
  exact PendingData.itemsPushOther d payload different

theorem apartPushAll (remaining : List Payload) (d : PendingData) :
    (remaining.foldl (fun d payload => d.pushBack sid payload) d).items other = d.items other := by
  induction remaining generalizing d with
  | nil => rfl
  | cons payload rest ih => rw [List.foldl_cons,ih,PendingData.itemsPushOther d payload different]

theorem hasFinEraseOther (fins : Finset StreamId) : hasFin (fins.erase sid) other = hasFin fins other := by
  simp [hasFin,different]

theorem hasFinInsertOther (fins : Finset StreamId) : hasFin (insert sid fins) other = hasFin fins other := by
  simp [hasFin,different]

end Apart

theorem apartHandled {other} (away : s.onLoop other = none) : view s.handled other = view s other := by
  unfold view
  rw [away]
  rfl

theorem pshApart {other payload pc} (different : other ≠ sid) (away : s.onLoop other = none)
    (moved : s.pshStep sid payload pc = some t) : view t other = view s other := by
  have entries {next} (kept : storePendingOpenData s.pendingOpen sid payload = .kept next) :
      next.entry other = s.pendingOpen.entry other := by
    obtain ⟨_,_,_,same⟩ := PendingOpenStreams.pushedEntry (storedKept kept)
    exact same other different
  cases pc <;> simp only [pshStep] at moved <;> (repeat' split at moved) <;> try contradiction
  all_goals cases Option.some.inj moved
  all_goals simp [view,goto,handled,setStream,onLoop] at *
  all_goals grind [apartStored]

theorem closeApart {other sender pc} (different : other ≠ sid) (away : s.onLoop other = none)
    (moved : s.closeStep sid sender pc = some t) : view t other = view s other := by
  cases pc <;> simp only [closeStep] at moved
  case remember =>
    cases Option.some.inj moved
    exact apartGoto (s := {s with closing := _}) different _ away
  case unregister =>
    cases Option.some.inj moved
    have same := apartUnregister (s := s) different
    rw [apartGoto different _ ((congrArg View.pc same).trans away),same]
  case removeData =>
    split at moved <;> try contradiction
    cases Option.some.inj moved
    refine (apartGoto different _ (by exact away)).trans ?_
    simp [view,onLoop,PendingData.itemsRemoveOther _ different]
  case removeFin =>
    split at moved <;> try contradiction
    cases Option.some.inj moved
    refine (apartHandled (by exact away)).trans ?_
    simp [view,onLoop,hasFinEraseOther different]

theorem finApart {other pc} (different : other ≠ sid) (away : s.onLoop other = none)
    (moved : s.finStep sid pc = some t) : view t other = view s other := by
  cases pc <;> simp only [finStep] at moved
  case isOpen =>
    cases marked : s.pendingOpen.setBufferedFin sid with
    | none =>
      rw [marked] at moved
      cases Option.some.inj moved
      exact apartGoto different _ away
    | some next =>
      rw [marked] at moved
      obtain ⟨_,_,_,same⟩ := PendingOpenStreams.finEntry marked
      simp only at moved
      split at moved
      · rename_i released first
        obtain ⟨_,_,_,same'⟩ := PendingOpenStreams.releasedEntry first
        cases Option.some.inj moved
        refine (apartHandled (by exact away)).trans ?_
        simp [view,onLoop,same other different,same' other different]
      · cases Option.some.inj moved
        refine (apartHandled (by exact away)).trans ?_
        simp [view,onLoop,same other different]
  case mark =>
    split at moved
    · cases Option.some.inj moved
      have same := apartMark (s := s) different
      rw [apartGoto different _ ((congrArg View.pc same).trans away),same]
    · cases Option.some.inj moved
      exact apartHandled away
  all_goals (repeat' split at moved) <;> try contradiction
  all_goals cases Option.some.inj moved
  all_goals simp [view,goto,handled,setStream,onLoop] at *
  all_goals grind [hasFinInsertOther]

theorem synackApart {other pc} (different : other ≠ sid) (away : s.onLoop other = none)
    (moved : s.synackStep sid pc = some t) : view t other = view s other := by
  cases pc <;> simp only [synackStep] at moved <;> (repeat' split at moved) <;> try contradiction
  all_goals cases Option.some.inj moved
  all_goals simp [view,goto,handled,setStream,onLoop] at *
  all_goals grind

theorem flushApart {other pc} (different : other ≠ sid) (away : s.onLoop other = none)
    (moved : s.flushStep sid pc = some t) : view t other = view s other := by
  cases pc with
  | takeData =>
    simp only [flushStep] at moved
    split at moved <;> try contradiction
    cases Option.some.inj moved
    refine (apartGoto different _ (by exact away)).trans ?_
    simp [view,onLoop,PendingData.itemsRemoveOther _ different]
  | takeFin todo =>
    simp only [flushStep] at moved
    split at moved <;> try contradiction
    cases Option.some.inj moved
    refine (apartGoto different _ (by exact away)).trans ?_
    simp [view,onLoop,hasFinEraseOther different]
  | send todo remaining fin =>
    cases todo <;> simp only [flushStep] at moved <;> (repeat' split at moved) <;> cases Option.some.inj moved
    all_goals simp [view,goto,handled,setStream,onLoop] at *
    all_goals grind
  | restore remaining fin =>
    simp only [flushStep] at moved
    split at moved <;> try contradiction
    cases Option.some.inj moved
    refine (apartGoto different _ (by exact away)).trans ?_
    simp [view,onLoop,apartPushAll different]
  | notify fin =>
    have same := apartStream (s := s) different (s.stream sid).notifyWaiters
    have away := (congrArg View.pc same).trans away
    cases fin <;> cases Option.some.inj moved
    · rw [apartHandled away,same]
    · rw [apartGoto different _ away,same]
  | fin =>
    cases Option.some.inj moved
    have same := apartStream (s := s) different {s.stream sid with
      finQueued := (s.stream sid).finQueued || decide ((s.stream sid).reader.pc ≠ .gone)}
    rw [apartGoto different _ ((congrArg View.pc same).trans away),same]
  | unregister =>
    cases Option.some.inj moved
    have same := apartUnregister (s := s) different
    rw [apartGoto different _ ((congrArg View.pc same).trans away),same]
  | clear =>
    cases Option.some.inj moved
    exact apartHandled (s := {s with closing := _}) away
  | keepFin =>
    simp only [flushStep] at moved
    split at moved <;> try contradiction
    cases Option.some.inj moved
    refine (apartGoto different _ (by exact away)).trans ?_
    simp [view,onLoop,hasFinInsertOther different]
  | finNotify =>
    cases Option.some.inj moved
    have same := apartStream (s := s) different (s.stream sid).notifyWaiters
    rw [apartHandled ((congrArg View.pc same).trans away),same]

theorem acceptApart {other} (different : other ≠ sid) (moved : s.acceptStep sid = some t) :
    view t other = view s other := by
  unfold acceptStep at moved
  cases here : (s.stream sid).accept with
  | none => simp [here] at moved
  | done => simp [here] at moved
  | release =>
    simp only [here] at moved
    split at moved
    · rename_i next first
      obtain ⟨_,_,_,same⟩ := PendingOpenStreams.releasedEntry first
      have same : next.entry other = s.pendingOpen.entry other := same other different
      cases Option.some.inj moved
      simp [view,setStream,onLoop,different,same]
    · cases Option.some.inj moved
      exact apartStream different _
  | flushTake delivered =>
    simp only [here] at moved
    split at moved
    · cases Option.some.inj moved
      exact apartStream different _
    · rename_i payloads fin next taken
      obtain ⟨_,_,_,_,_,same⟩ := PendingOpenStreams.takenEntry taken
      split at moved <;> cases Option.some.inj moved <;>
        simp [view,setStream,onLoop,different,same other different,PendingOpenStreams.entryRemove]
  | flushStore overflow fin delivered =>
    cases overflow with
    | nil =>
      simp only [here] at moved
      cases Option.some.inj moved
      exact apartStream different _
    | cons payload rest =>
      simp only [here] at moved
      split at moved <;> try contradiction
      cases Option.some.inj moved
      cases kept : storePendingData s.peerFlowControl s.pendingData sid payload with
      | none => simp [view,setStream,onLoop,different]
      | some next => simp [view,setStream,onLoop,different,apartStored different kept]
  | flushMark =>
    simp only [here] at moved
    cases Option.some.inj moved
    rw [apartStream different,apartMark different]
  | flushUnregister =>
    simp only [here] at moved
    cases Option.some.inj moved
    rw [apartStream different,apartUnregister different]
  | flushSend todo overflow fin delivered =>
    cases todo <;> simp only [here] at moved <;> (repeat' split at moved) <;> cases Option.some.inj moved <;>
      exact apartStream different _
  | _ =>
    simp only [here] at moved
    cases Option.some.inj moved
    simp [view,registerStream,setStream,onLoop,different,PendingOpenStreams.entryRemove]

theorem readerApart {other} (different : other ≠ sid) (moved : s.readerStep sid = some t) :
    view t other = view s other := by
  unfold readerStep at moved
  cases here : (s.stream sid).reader.pc with
  | locked =>
    simp only [here] at moved
    cases popped : s.pendingData.popFront sid with
    | none =>
      rw [popped] at moved
      cases Option.some.inj moved
      simp [view,setStream,onLoop,different]
    | some taken =>
      obtain ⟨payload,next⟩ := taken
      obtain ⟨_,same⟩ := PendingData.popFrontSome popped
      rw [popped] at moved
      cases Option.some.inj moved
      simp [view,setStream,onLoop,different,same other different]
  | finLocked out =>
    simp only [here] at moved
    cases Option.some.inj moved
    simp [view,setStream,onLoop,different,hasFinEraseOther different]
  | _ =>
    simp only [here] at moved
    repeat' split at moved
    all_goals try contradiction
    all_goals cases Option.some.inj moved
    all_goals simp [view,setStream,onLoop,different]

theorem wakeApart {other source} (different : other ≠ sid) (moved : s.wakeStep sid source = some t) :
    view t other = view s other := by
  simp only [wakeStep] at moved
  repeat' split at moved
  all_goals try contradiction
  all_goals cases Option.some.inj moved
  all_goals exact apartStream different _

theorem teardownApart {other tombstone} (different : other ≠ sid) (moved : s.teardownStep sid tombstone = some t) :
    view t other = view s other := by
  unfold teardownStep at moved
  cases here : (s.stream sid).teardown with
  | unregister =>
    simp only [here] at moved
    cases Option.some.inj moved
    rw [apartStream different,apartUnregister different]
  | _ =>
    simp only [here] at moved
    split at moved <;> try contradiction
    cases Option.some.inj moved
    simp [view,setStream,onLoop,different,PendingData.itemsRemoveOther _ different,hasFinEraseOther different]

theorem synApart {other queued} (different : other ≠ sid) (away : s.onLoop other = none)
    (moved : s.synStep sid queued = some t) : view t other = view s other := by
  simp only [synStep] at moved
  repeat' split at moved
  all_goals cases Option.some.inj moved
  any_goals exact apartHandled away
  · exact apartGoto different _ away
  · refine (apartHandled (by exact away)).trans ?_
    simp [view,setStream,onLoop,different,PendingOpenStreams.entryInsertNew]

theorem frameApart {other} {f : Frame} {queued : Bool} (idle : s.loop = none)
    (moved : s.handleFrame queued f = some t) (away : target s (.frame f queued) ≠ some other) :
    view t other = view s other := by
  have resting : s.onLoop other = none := by simp [onLoop,idle]
  cases f with
  | psh k payload =>
    have different : other ≠ k := fun same => away (by rw [same]; rfl)
    cases Option.some.inj moved
    have same := apartStream (s := s) different
      (if (s.stream k).opened then {s.stream k with arrived := (s.stream k).arrived ++ [payload]} else s.stream k)
    refine (apartGoto different _ ?_).trans same
    exact (congrArg View.pc same).trans resting
  | syn k =>
    have different : other ≠ k := fun same => away (by rw [same]; rfl)
    simp only [handleFrame] at moved
    split at moved <;> cases Option.some.inj moved
    · rfl
    · exact apartGoto different _ resting
  | fin k =>
    have different : other ≠ k := fun same => away (by rw [same]; rfl)
    cases Option.some.inj moved
    have same := apartStream (s := s) different
      {s.stream k with finSeen := (s.stream k).finSeen || (s.stream k).opened}
    refine (apartGoto different _ ?_).trans same
    exact (congrArg View.pc same).trans resting
  | synack k reason =>
    have different : other ≠ k := fun same => away (by rw [same]; rfl)
    cases Option.some.inj moved
    exact apartGoto different _ resting
  | settings fc =>
    cases Option.some.inj moved
    rfl
  | windowUpdate k =>
    have different : other ≠ k := fun same => away (by rw [same]; rfl)
    simp only [handleFrame] at moved
    split at moved <;> cases Option.some.inj moved
    · exact apartStream different _
    · rfl

theorem loopApart {other} (moved : s.loopStep = some t) (away : target s .loop ≠ some other) :
    view t other = view s other := by
  cases here : s.loop with
  | none =>
    simp only [loopStep,here] at moved
    contradiction
  | some at' =>
    obtain ⟨k,pc⟩ := at'
    have different : other ≠ k := fun same => away (by simp [target,here,same])
    have resting : s.onLoop other = none := by simp [onLoop,here,different.symm]
    simp only [loopStep,here] at moved
    cases pc with
    | psh pc payload => exact pshApart different resting moved
    | close pc sender => exact closeApart different resting moved
    | fin pc => exact finApart different resting moved
    | synack pc => exact synackApart different resting moved
    | flush pc => exact flushApart different resting moved
    | syn queued => exact synApart different resting moved
    | reopened => contradiction

theorem acquireApart {other task} (moved : s.acquire task = some t) : view t other = view s other := by
  simp only [acquire] at moved
  split at moved
  · cases Option.some.inj moved
    rfl
  · split at moved <;> try contradiction
    cases Option.some.inj moved
    rfl

theorem stepApart {a other} (moved : step s a = some t) (away : target s a ≠ some other) :
    view t other = view s other := by
  cases a with
  | frame f queued =>
    simp only [step] at moved
    split at moved <;> try contradiction
    rename_i idle
    exact frameApart (Option.isNone_iff_eq_none.mp idle) moved away
  | loop => exact loopApart moved away
  | acquire task => exact acquireApart moved
  | accept k => exact acceptApart (fun same => away (by rw [same]; rfl)) moved
  | reader k => exact readerApart (fun same => away (by rw [same]; rfl)) moved
  | wake k source => exact wakeApart (fun same => away (by rw [same]; rfl)) moved
  | teardown k tombstone => exact teardownApart (fun same => away (by rw [same]; rfl)) moved
  | openStream k =>
    have different : other ≠ k := fun same => away (by rw [same]; rfl)
    simp only [step] at moved
    split at moved <;> try contradiction
    cases Option.some.inj moved
    simp [view,registerStream,setStream,onLoop,different]
  | dropReadHalf k marks =>
    have different : other ≠ k := fun same => away (by rw [same]; rfl)
    simp only [step] at moved
    split at moved <;> try contradiction
    cases marks <;> cases Option.some.inj moved
    · exact apartStream different _
    · exact (apartStream different _).trans (apartMark different)
  | sweepData k =>
    have different : other ≠ k := fun same => away (by rw [same]; rfl)
    simp only [step,sweepData] at moved
    repeat' split at moved
    all_goals try contradiction
    all_goals cases Option.some.inj moved
    all_goals simp [view,onLoop,PendingData.itemsRemoveOther _ different]
  | sweepFin k =>
    have different : other ≠ k := fun same => away (by rw [same]; rfl)
    simp only [step,sweepFin] at moved
    repeat' split at moved
    all_goals try contradiction
    all_goals cases Option.some.inj moved
    all_goals simp [view,onLoop,hasFinEraseOther different]
  | _ =>
    rename_i k
    have different : other ≠ k := fun same => away (by rw [same]; rfl)
    simp only [step] at moved
    split at moved <;> try contradiction
    cases Option.some.inj moved
    exact apartStream different _

end KanoTls.Receive
