import KanoTls.ReceiveHeard

/-! Payloads that the ledgers refuse. Their limits are read off running counters; in
every run the counters are the sums over what waits, so that a step refuses a payload
exactly when what waits leaves no room for it. -/
namespace KanoTls.Receive
open Pending Session

inductive Ledger where
  | preAccept | backlog
  deriving DecidableEq, Repr

/- The payload that the next step offers to `store_pending_open_data` or to
`store_pending_data`. -/
def storing (s : Session) : Action → Option (Ledger × StreamId × Payload)
  | .loop =>
    match s.loop with
    | some (sid,.psh .storeOpen payload) =>
      if s.pendingOpen.contains sid then some (.preAccept,sid,payload) else none
    | some (sid,.psh .preSynack payload) | some (sid,.psh .store payload) => some (.backlog,sid,payload)
    | _ => none
  | .accept sid =>
    match (s.stream sid).accept with
    | .flushStore (payload::_) _ _ => some (.backlog,sid,payload)
    | _ => none
  | _ => none

/- What waits in the ledger leaves room for one payload more: bytes of all streams,
streams, bytes of this stream, payloads of this stream. -/
def roomFor (s : Session) : Ledger → StreamId → Payload → Prop
  | .preAccept,sid,payload =>
    s.pendingOpen.waitingBytes + payload.length ≤ maxPendingStreamBytes ∧
    (s.pendingOpen.buffered sid).length < maxPendingStreamFrames
  | .backlog,sid,payload =>
    s.pendingData.waitingBytes + payload.length ≤ maxPendingStreamBytes ∧
    (s.pendingData.contains sid = true ∨ s.pendingData.len < maxPendingStreams) ∧
    bytes (s.pendingData.items sid) + payload.length ≤ overflowLimit s.peerFlowControl ∧
    (s.pendingData.items sid).length < maxPendingStreamFrames

instance (s : Session) (ledger : Ledger) (sid : StreamId) (payload : Payload) :
    Decidable (roomFor s ledger sid payload) := by
  cases ledger <;> unfold roomFor <;> infer_instance

def Roomy (s : Session) (a : Action) : Prop :=
  ∀ ledger sid payload, storing s a = some (ledger,sid,payload) → roomFor s ledger sid payload

instance (s : Session) (a : Action) : Decidable (Roomy s a) :=
  match found : storing s a with
  | none => .isTrue (fun ledger sid payload here => by rw [found] at here; contradiction)
  | some (ledger,sid,payload) =>
    decidable_of_iff (roomFor s ledger sid payload) ⟨fun room ledger' sid' payload' here => by
      cases Option.some.inj (found.symm.trans here)
      exact room,fun all => all ledger sid payload found⟩

def Event.drops : Event → Bool
  | .dropOpen | .dropPreSynack | .dropMigrate | .overflow => true
  | _ => false

structure Ledgers (s : Session) : Prop where
  data : s.pendingData.Exact
  pre : s.pendingOpen.Exact

section Ledgers
variable {s t : Session} {sid : StreamId} {payload : Payload}

theorem storedWithRoom {fc : Bool} {d : PendingData} (exact' : d.Exact) :
    (storePendingData fc d sid payload).isSome = true ↔
      d.waitingBytes + payload.length ≤ maxPendingStreamBytes ∧
      (d.contains sid = true ∨ d.len < maxPendingStreams) ∧
      bytes (d.items sid) + payload.length ≤ overflowLimit fc ∧ (d.items sid).length < maxPendingStreamFrames := by
  have total := exact'.total
  have counted := exact'.stream sid
  have frames := d.framesItems sid
  unfold storePendingData
  rw [total,counted,frames]
  split
  · simp; omega
  split
  · rename_i crowded
    simp only [Bool.not_eq_true] at crowded
    simp [crowded.1]; omega
  split
  · simp; omega
  split
  · simp; omega
  · rename_i small few fits short
    simp only [Option.isSome_some,true_iff]
    refine ⟨by omega,?_,by omega,by omega⟩
    by_cases known : d.contains sid = true
    · exact .inl known
    · exact .inr (Nat.lt_of_not_le (fun many => few ⟨known,many⟩))

theorem openDropped {o : PendingOpenStreams} (payload : Payload) (exact' : o.Exact) (known : o.contains sid = true) :
    storePendingOpenData o sid payload = .dropped ↔
      ¬ (o.waitingBytes + payload.length ≤ maxPendingStreamBytes ∧
        (o.buffered sid).length < maxPendingStreamFrames) := by
  have total := exact'.total
  have frames := o.framesBuffered sid
  unfold storePendingOpenData
  rw [total,frames,if_neg (by simp [known])]
  split
  · simp only [true_iff]; omega
  split
  · simp only [true_iff]; omega
  · split
    · simp only [reduceCtorEq,false_iff]; omega
    · simp only [reduceCtorEq,false_iff]; omega

theorem roomyOffer {a : Action} {ledger : Ledger} (found : storing s a = some (ledger,sid,payload)) :
    Roomy s a ↔ roomFor s ledger sid payload := by
  refine ⟨fun all => all ledger sid payload found,fun room ledger' sid' payload' here => ?_⟩
  cases Option.some.inj (found.symm.trans here)
  exact room

theorem roomyNone {a : Action} (nothing : storing s a = none) : Roomy s a := by
  intro ledger sid payload here
  rw [nothing] at here
  contradiction

theorem storesWithRoom (ledgers : Ledgers s) : stores s sid payload = true ↔ roomFor s .backlog sid payload :=
  storedWithRoom ledgers.data

theorem nothingOffered {a : Action} (nothing : storing s a = none) (quiet : (event s a).drops = false) :
    (event s a).drops = true ↔ ¬ Roomy s a := by
  rw [quiet]
  exact ⟨fun no => absurd no Bool.false_ne_true,fun no => absurd (roomyNone nothing) no⟩

theorem backlogOffered {a : Action} (sid : StreamId) (payload : Payload) (ledgers : Ledgers s)
    (found : storing s a = some (.backlog,sid,payload))
    (drops : (event s a).drops = !stores s sid payload) : (event s a).drops = true ↔ ¬ Roomy s a := by
  rw [drops,roomyOffer found,← storesWithRoom ledgers]
  simp

theorem loopRefuses {pc : HandlerPc} (ledgers : Ledgers s) (here : s.loop = some (sid,pc)) :
    (event s .loop).drops = true ↔ ¬ Roomy s .loop := by
  cases pc with
  | psh pc payload =>
    cases pc with
    | storeOpen =>
      cases known : s.pendingOpen.contains sid with
      | false =>
        refine nothingOffered (by simp [storing,here,known]) ?_
        simp [event,loopEvent,here,storePendingOpenData,known,Event.drops]
      | true =>
        have found : storing s .loop = some (.preAccept,sid,payload) := by simp [storing,here,known]
        have dropped := openDropped payload ledgers.pre known
        rw [roomyOffer found]
        simp only [roomFor,event,loopEvent,here]
        split
        · rename_i refused
          exact iff_of_true rfl (dropped.mp refused)
        · rename_i kept
          exact iff_of_false Bool.false_ne_true (fun full => kept (dropped.mpr full))
    | preSynack =>
      refine backlogOffered sid payload ledgers (by simp only [storing,here]) ?_
      simp only [event,loopEvent,here]
      cases stores s sid payload <;> rfl
    | store =>
      refine backlogOffered sid payload ledgers (by simp only [storing,here]) ?_
      simp only [event,loopEvent,here]
      cases stores s sid payload <;> rfl
    | _ =>
      refine nothingOffered (by simp only [storing,here]) ?_
      simp only [event,loopEvent,here]
      rfl
  | fin pc =>
    cases pc <;> refine nothingOffered (by simp only [storing,here]) ?_ <;> simp only [event,loopEvent,here]
    all_goals first | rfl | (split <;> rfl)
  | synack pc =>
    cases pc <;> refine nothingOffered (by simp only [storing,here]) ?_ <;> simp only [event,loopEvent,here]
    all_goals first | rfl | (split <;> first | rfl | (split <;> rfl))
  | syn queued =>
    refine nothingOffered (by simp only [storing,here]) ?_
    simp only [event,loopEvent,here]
    split <;> rfl
  | _ =>
    refine nothingOffered (by simp only [storing,here]) ?_
    simp only [event,loopEvent,here]
    rfl

theorem refusedWithoutRoom (ledgers : Ledgers s) (a : Action) : (event s a).drops = true ↔ ¬ Roomy s a := by
  cases a with
  | loop =>
    cases here : s.loop with
    | none => exact nothingOffered (by simp only [storing,here]) (by simp only [event,loopEvent,here]; rfl)
    | some place => exact loopRefuses ledgers here
  | accept sid =>
    cases here : (s.stream sid).accept with
    | flushStore overflow fin delivered =>
      cases overflow with
      | nil => exact nothingOffered (by simp only [storing,here]) (by simp only [event,acceptEvent,here]; rfl)
      | cons payload rest =>
        refine backlogOffered sid payload ledgers (by simp only [storing,here]) ?_
        simp only [event,acceptEvent,here]
        cases stores s sid payload <;> rfl
    | _ => exact nothingOffered (by simp only [storing,here]) (by simp only [event,acceptEvent,here]; rfl)
  | reader sid =>
    refine nothingOffered rfl ?_
    simp only [event,readerEvent]
    split <;> first | rfl | (split <;> rfl)
  | teardown sid tombstone =>
    refine nothingOffered rfl ?_
    simp only [event,teardownEvent]
    split <;> rfl
  | _ => exact nothingOffered rfl rfl

theorem ledgersUnregister (ledgers : Ledgers s) (sid : StreamId) : Ledgers (s.unregisterStream sid) := by
  unfold unregisterStream
  split <;> exact ⟨ledgers.data,ledgers.pre⟩

theorem ledgersMark (ledgers : Ledgers s) (sid : StreamId) : Ledgers (s.markStreamReadClosed sid) := by
  unfold markStreamReadClosed
  split
  · exact ledgers
  · split <;> exact ⟨ledgers.data,ledgers.pre⟩

theorem exactStored {fc : Bool} {d next : PendingData} (exact' : d.Exact)
    (stored : storePendingData fc d sid payload = some next) : next.Exact := by
  rw [storedPushes stored]
  exact PendingData.exactPush exact' sid payload

theorem ledgersPsh {pc : PshPc} (ledgers : Ledgers s) (moved : s.pshStep sid payload pc = some t) : Ledgers t := by
  have ⟨data,pre⟩ := ledgers
  cases pc <;> simp only [pshStep] at moved <;> (repeat' split at moved) <;> try contradiction
  all_goals cases Option.some.inj moved
  all_goals first | exact ⟨data,pre⟩ | exact ⟨exactStored data ‹_›,pre⟩ |
    exact ⟨data,PendingOpenStreams.exactPush pre (storedKept ‹_›)⟩

theorem ledgersClose {pc : ClosePc} {sender : Bool} (ledgers : Ledgers s)
    (moved : s.closeStep sid sender pc = some t) : Ledgers t := by
  have ⟨data,pre⟩ := ledgers
  cases pc <;> simp only [closeStep] at moved <;> (repeat' split at moved) <;> try contradiction
  all_goals cases Option.some.inj moved
  case unregister => exact ⟨(ledgersUnregister ledgers sid).data,(ledgersUnregister ledgers sid).pre⟩
  all_goals first | exact ⟨data,pre⟩ | exact ⟨PendingData.exactRemove data sid,pre⟩

theorem ledgersFin {pc : FinPc} (ledgers : Ledgers s) (moved : s.finStep sid pc = some t) : Ledgers t := by
  have ⟨data,pre⟩ := ledgers
  cases pc with
  | isOpen =>
    simp only [finStep] at moved
    split at moved
    · cases Option.some.inj moved
      exact ⟨data,pre⟩
    · rename_i next buffered
      have kept := PendingOpenStreams.exactFin pre buffered
      split at moved
      · rename_i released first
        cases Option.some.inj moved
        exact ⟨data,PendingOpenStreams.exactRelease kept first⟩
      · cases Option.some.inj moved
        exact ⟨data,kept⟩
  | mark =>
    simp only [finStep] at moved
    split at moved <;> cases Option.some.inj moved
    · exact ⟨(ledgersMark ledgers sid).data,(ledgersMark ledgers sid).pre⟩
    · exact ⟨data,pre⟩
  | _ =>
    simp only [finStep] at moved
    repeat' split at moved
    all_goals try contradiction
    all_goals cases Option.some.inj moved; exact ⟨data,pre⟩

theorem ledgersSynack {pc : SynackPc} (ledgers : Ledgers s) (moved : s.synackStep sid pc = some t) : Ledgers t := by
  have ⟨data,pre⟩ := ledgers
  cases pc <;> simp only [synackStep] at moved <;> (repeat' split at moved) <;> try contradiction
  all_goals cases Option.some.inj moved; exact ⟨data,pre⟩

theorem ledgersFlush {pc : FlushPc} (ledgers : Ledgers s) (moved : s.flushStep sid pc = some t) : Ledgers t := by
  have ⟨data,pre⟩ := ledgers
  unfold flushStep at moved
  split at moved <;> (try dsimp only at moved) <;> (repeat' split at moved) <;> try contradiction
  all_goals cases Option.some.inj moved
  all_goals first | exact ⟨data,pre⟩ | exact ⟨PendingData.exactRemove data sid,pre⟩ |
    exact ⟨PendingData.exactPushes data sid _,pre⟩ |
    exact ⟨(ledgersUnregister ledgers sid).data,(ledgersUnregister ledgers sid).pre⟩

theorem exactOffered {fc : Bool} {d : PendingData} (exact' : d.Exact) (sid : StreamId) (payload : Payload) :
    ((storePendingData fc d sid payload).getD d).Exact := by
  cases stored : storePendingData fc d sid payload with
  | none => exact exact'
  | some next => exact exactStored exact' stored

theorem ledgersAccept (ledgers : Ledgers s) (moved : s.acceptStep sid = some t) : Ledgers t := by
  have ⟨data,pre⟩ := ledgers
  have ⟨dataGone,preGone⟩ := ledgersUnregister ledgers sid
  have ⟨dataMarked,preMarked⟩ := ledgersMark ledgers sid
  unfold acceptStep at moved
  dsimp only at moved
  split at moved <;> (repeat' split at moved) <;> try contradiction
  all_goals cases Option.some.inj moved
  all_goals first | exact ⟨data,pre⟩ | exact ⟨dataGone,preGone⟩ | exact ⟨dataMarked,preMarked⟩ |
    exact ⟨exactOffered data sid _,pre⟩ | exact ⟨data,PendingOpenStreams.exactRemove pre sid⟩ |
    exact ⟨data,PendingOpenStreams.exactRelease pre ‹_›⟩ | exact ⟨data,PendingOpenStreams.exactTake pre ‹_›⟩ |
    exact ⟨data,PendingOpenStreams.exactRemove (PendingOpenStreams.exactTake pre ‹_›) sid⟩

theorem ledgersReader (ledgers : Ledgers s) (moved : s.readerStep sid = some t) : Ledgers t := by
  have ⟨data,pre⟩ := ledgers
  unfold readerStep at moved
  dsimp only at moved
  split at moved <;> (repeat' split at moved) <;> try contradiction
  all_goals cases Option.some.inj moved
  all_goals first | exact ⟨data,pre⟩ | exact ⟨PendingData.exactPop data ‹_›,pre⟩

theorem ledgersSyn {queued} (ledgers : Ledgers s) (moved : s.synStep sid queued = some t) : Ledgers t := by
  have ⟨data,pre⟩ := ledgers
  simp only [synStep] at moved
  repeat' split at moved
  all_goals cases Option.some.inj moved
  all_goals first | exact ⟨data,pre⟩ | exact ⟨data,PendingOpenStreams.exactInsertNew pre _⟩

theorem ledgersStep {a} (ledgers : Ledgers s) (moved : step s a = some t) : Ledgers t := by
  have ⟨data,pre⟩ := ledgers
  cases a with
  | loop =>
    simp only [step,loopStep] at moved
    split at moved
    · contradiction
    · exact ledgersPsh ledgers moved
    · exact ledgersClose ledgers moved
    · exact ledgersFin ledgers moved
    · exact ledgersSynack ledgers moved
    · exact ledgersFlush ledgers moved
    · exact ledgersSyn ledgers moved
    · contradiction
  | accept sid => exact ledgersAccept ledgers moved
  | reader sid => exact ledgersReader ledgers moved
  | frame f queued =>
    simp only [step] at moved
    split at moved <;> try contradiction
    cases f <;> simp only [handleFrame] at moved <;> (repeat' split at moved) <;> try contradiction
    all_goals cases Option.some.inj moved
    all_goals exact ⟨data,pre⟩
  | dropReadHalf sid marked =>
    simp only [step] at moved
    split at moved <;> try contradiction
    cases Option.some.inj moved
    cases marked
    · exact ⟨data,pre⟩
    · exact ⟨(ledgersMark ledgers sid).data,(ledgersMark ledgers sid).pre⟩
  | teardown sid tombstone =>
    simp only [step,teardownStep] at moved
    repeat' split at moved
    all_goals try contradiction
    all_goals cases Option.some.inj moved
    all_goals first | exact ⟨data,pre⟩ | exact ⟨PendingData.exactRemove data sid,pre⟩ |
      exact ⟨(ledgersUnregister ledgers sid).data,(ledgersUnregister ledgers sid).pre⟩
  | sweepData sid =>
    simp only [step,sweepData] at moved
    repeat' split at moved
    all_goals try contradiction
    all_goals cases Option.some.inj moved
    all_goals first | exact ⟨data,pre⟩ | exact ⟨PendingData.exactRemove data sid,pre⟩
  | _ =>
    simp only [step,acquire,wakeStep,sweepFin] at moved
    repeat' split at moved
    all_goals try contradiction
    all_goals cases Option.some.inj moved; exact ⟨data,pre⟩

end Ledgers

end KanoTls.Receive
