import KanoTls.Machine
import KanoTls.PendingExact

/-! The two ledgers with the payloads outside them, in a channel or in the hands of a task,
and the counter `buffered_stream_bytes` of all of them. -/
namespace KanoTls.Pending
open Std Machine

def subtractBufferedStreamBytes (counter bytes : Nat) : Nat := if bytes = 0 then counter else counter - bytes

structure BufferedPayload where
  data : Payload
  accounted : Bool
  deriving DecidableEq, Repr

namespace BufferedPayload

def new (data : Payload) (counter : Nat) : BufferedPayload × Nat := (⟨data,true⟩,counter + data.length)

def release (p : BufferedPayload) (counter : Nat) : BufferedPayload × Nat :=
  if p.accounted then ({ p with accounted := false },subtractBufferedStreamBytes counter p.data.length) else (p,counter)

def drop (p : BufferedPayload) (counter : Nat) : Nat := (p.release counter).2

/- The payload is released, and dropped when the call returns. -/
def intoBytes (p : BufferedPayload) (counter : Nat) : Payload × Nat :=
  let released := p.release counter
  (released.1.data,drop { released.1 with data := [] } released.2)

end BufferedPayload

def PendingData.clear (d : PendingData) : PendingData × List Payload := ({},d.queues.toList.flatMap (·.2.items))

def PendingOpenStreams.clear (o : PendingOpenStreams) : PendingOpenStreams × List Payload :=
  ({},o.streams.toList.flatMap (·.2.bufferedData))

structure Buffers where
  data : PendingData := {}
  opens : PendingOpenStreams := {}
  held : List BufferedPayload := []
  bufferedStreamBytes : Nat := 0

inductive Op where
  | create (payload : Payload) | intoBytes (i : Nat) | drop (i : Nat)
  | pushBack (sid : StreamId) (i : Nat) | popFront (sid : StreamId) | removeData (sid : StreamId) | clearData
  | insertNew (sid : StreamId) | removeOpen (sid : StreamId) | clearOpens | pushData (sid : StreamId) (i : Nat)
  | takeReady (sid : StreamId) | setBufferedFin (sid : StreamId) | releaseReservation (sid : StreamId)
  deriving DecidableEq, Repr

def wrapped (payloads : List Payload) : List BufferedPayload := payloads.map (fun data => ⟨data,true⟩)

/- The payloads of a removed or replaced entry are dropped one after another: until then they are held. -/
def step (s : Buffers) : Op → Option Buffers
  | .create payload =>
    let created := BufferedPayload.new payload s.bufferedStreamBytes
    some { s with held := s.held ++ [created.1],bufferedStreamBytes := created.2 }
  | .intoBytes i => s.held[i]?.map (fun p =>
    { s with held := s.held.eraseIdx i,bufferedStreamBytes := (p.intoBytes s.bufferedStreamBytes).2 })
  | .drop i => s.held[i]?.map (fun p =>
    { s with held := s.held.eraseIdx i,bufferedStreamBytes := p.drop s.bufferedStreamBytes })
  | .pushBack sid i => s.held[i]?.map (fun p => { s with data := s.data.pushBack sid p.data,held := s.held.eraseIdx i })
  | .popFront sid => (s.data.popFront sid).map (fun popped =>
    { s with data := popped.2,held := s.held ++ wrapped [popped.1] })
  | .removeData sid => some { s with data := (s.data.remove sid).1,held := s.held ++ wrapped (s.data.remove sid).2 }
  | .clearData => some { s with data := s.data.clear.1,held := s.held ++ wrapped s.data.clear.2 }
  | .insertNew sid => some { s with opens := s.opens.insertNew sid,held := s.held ++ wrapped (s.opens.buffered sid) }
  | .removeOpen sid => some { s with opens := s.opens.remove sid,held := s.held ++ wrapped (s.opens.buffered sid) }
  | .clearOpens => some { s with opens := s.opens.clear.1,held := s.held ++ wrapped s.opens.clear.2 }
  | .pushData sid i => s.held[i]?.map (fun p =>
    match s.opens.pushData sid p.data with
    | some next => { s with opens := next,held := s.held.eraseIdx i }
    | none => { s with held := s.held.eraseIdx i,bufferedStreamBytes := p.drop s.bufferedStreamBytes })
  | .takeReady sid => (s.opens.takeReady sid).map (fun taken =>
    { s with opens := taken.2.2,held := s.held ++ wrapped taken.1 })
  | .setBufferedFin sid => (s.opens.setBufferedFin sid).map (fun next => { s with opens := next })
  | .releaseReservation sid => (s.opens.releaseReservation sid).map (fun released => { s with opens := released.2 })

def subtractions (s : Buffers) : Op → List (Nat × Nat)
  | .intoBytes i | .drop i => (s.held[i]?.map (fun p => (s.bufferedStreamBytes,p.data.length))).toList
  | .pushData sid i =>
    if s.opens.contains sid then [] else (s.held[i]?.map (fun p => (s.bufferedStreamBytes,p.data.length))).toList
  | .popFront sid =>
    match s.data.queues[sid]? with
    | none => []
    | some q => (q.items.head?.map (fun payload => [(q.bytes,payload.length),(s.data.totalBytes,payload.length)])).getD []
  | .removeData sid => (s.data.queues[sid]?.map (fun q => (s.data.totalBytes,q.bytes))).toList
  | .insertNew sid | .removeOpen sid | .takeReady sid =>
    (s.opens.streams[sid]?.map (fun e => (s.opens.totalBytes,e.bytes))).toList
  | _ => []

def Buffers.aliveBytes (s : Buffers) : Nat := bytes (s.held.map (·.data)) + s.data.waitingBytes + s.opens.waitingBytes

structure Accounted (s : Buffers) : Prop where
  data : s.data.Exact
  opens : s.opens.Exact
  queued : ∀ sid, s.data.contains sid = true → s.data.items sid ≠ []
  accounted : ∀ p ∈ s.held, p.accounted = true
  buffered : s.bufferedStreamBytes = s.aliveBytes

section Ledgers
variable {s : Buffers} {p : BufferedPayload} {i counter : Nat}

theorem bytesFlatMap {β : Type} (entries : List β) (payloads : β → List Payload) :
    bytes (entries.flatMap payloads) = (entries.map (fun entry => bytes (payloads entry))).sum := by
  induction entries with
  | nil => rfl
  | cons entry rest ih => rw [List.flatMap_cons,bytesAppend,ih,List.map_cons,List.sum_cons]

theorem mapBytes {β : Type} (m : ExtTreeMap StreamId β) (payloads : β → List Payload) :
    m.keys.toFinset.sum (fun sid => bytes ((m[sid]?.map payloads).getD [])) =
      bytes (m.toList.flatMap (fun entry => payloads entry.2)) := by
  rw [bytesFlatMap,List.sum_toFinset _ m.nodup_keys,← ExtTreeMap.map_fst_toList_eq_keys,List.map_map]
  refine congrArg List.sum (List.map_congr_left (fun entry member => ?_))
  have found : m[entry.1]? = some entry.2 := ExtTreeMap.mem_toList_iff_getElem?_eq_some.mp member
  show bytes ((m[entry.1]?.map payloads).getD []) = _
  rw [found]
  rfl

theorem clearData (d : PendingData) : bytes d.clear.2 = d.waitingBytes := (mapBytes d.queues _).symm

theorem clearOpens (o : PendingOpenStreams) : bytes o.clear.2 = o.waitingBytes := (mapBytes o.streams _).symm

theorem heldWrapped (held : List BufferedPayload) (payloads : List Payload) :
    bytes ((held ++ wrapped payloads).map (·.data)) = bytes (held.map (·.data)) + bytes payloads := by
  rw [List.map_append,bytesAppend,wrapped,List.map_map]
  show _ + bytes (payloads.map id) = _
  rw [List.map_id]

theorem wrappedAccounted {held : List BufferedPayload} (payloads : List Payload) (known : ∀ p ∈ held, p.accounted = true) :
    ∀ p ∈ held ++ wrapped payloads, p.accounted = true := by
  intro p member
  rcases List.mem_append.mp member with before | added
  · exact known p before
  · obtain ⟨data,_,rfl⟩ := List.mem_map.mp added
    rfl

theorem heldErased {held : List BufferedPayload} (found : held[i]? = some p) :
    bytes (held.map (·.data)) = p.data.length + bytes ((held.eraseIdx i).map (·.data)) := by
  induction held generalizing i with
  | nil => contradiction
  | cons first rest ih =>
    cases i with
    | zero =>
      cases Option.some.inj found
      rw [List.eraseIdx_cons_zero,List.map_cons,bytesCons]
    | succ i =>
      rw [List.eraseIdx_cons_succ,List.map_cons,List.map_cons,bytesCons,bytesCons,ih found]
      omega

theorem dropCounts (accounted : p.accounted = true) (enough : p.data.length ≤ counter) :
    p.drop counter + p.data.length = counter := by
  rw [BufferedPayload.drop,BufferedPayload.release,if_pos accounted]
  show subtractBufferedStreamBytes counter p.data.length + p.data.length = counter
  rw [subtractBufferedStreamBytes]
  by_cases zero : p.data.length = 0
  · rw [if_pos zero,zero]
    rfl
  · rw [if_neg zero]
    omega

theorem intoBytesDrops (accounted : p.accounted = true) : p.intoBytes counter = (p.data,p.drop counter) := by
  rw [BufferedPayload.intoBytes,BufferedPayload.drop,BufferedPayload.drop,BufferedPayload.release,if_pos accounted]
  rfl

theorem heldLeast (inv : Accounted s) (found : s.held[i]? = some p) :
    p.accounted = true ∧ p.data.length ≤ s.bufferedStreamBytes := by
  have erased := heldErased found
  have buffered := inv.buffered
  rw [Buffers.aliveBytes] at buffered
  exact ⟨inv.accounted p (List.mem_of_getElem? found),by omega⟩

theorem movedKeeps (inv : Accounted s) {data : PendingData} {opens : PendingOpenStreams} {held : List BufferedPayload}
    (dataExact : data.Exact) (opensExact : opens.Exact) (queued : ∀ sid, data.contains sid = true → data.items sid ≠ [])
    (accounted : ∀ p ∈ held, p.accounted = true)
    (same : (⟨data,opens,held,s.bufferedStreamBytes⟩ : Buffers).aliveBytes = s.aliveBytes) :
    Accounted ⟨data,opens,held,s.bufferedStreamBytes⟩ :=
  ⟨dataExact,opensExact,queued,accounted,inv.buffered.trans same.symm⟩

theorem erasedAccounted (inv : Accounted s) (i : Nat) : ∀ p ∈ s.held.eraseIdx i, p.accounted = true :=
  fun p member => inv.accounted p (List.mem_of_mem_eraseIdx member)

theorem droppedKeeps (inv : Accounted s) (found : s.held[i]? = some p) :
    Accounted { s with held := s.held.eraseIdx i,bufferedStreamBytes := p.drop s.bufferedStreamBytes } := by
  obtain ⟨accounted,enough⟩ := heldLeast inv found
  have counts := dropCounts accounted enough
  have erased := heldErased found
  have buffered := inv.buffered
  refine ⟨inv.data,inv.opens,inv.queued,erasedAccounted inv i,?_⟩
  rw [Buffers.aliveBytes] at buffered ⊢
  dsimp only
  omega

end Ledgers

section Queues
variable {d : PendingData} {sid : StreamId}

def Queued (d : PendingData) : Prop := ∀ sid, d.contains sid = true → d.items sid ≠ []

theorem pushQueued (queued : Queued d) (sid : StreamId) (payload : Payload) : Queued (d.pushBack sid payload) := by
  intro k known
  by_cases same : k = sid
  · rw [same,PendingData.itemsPushSame]
    exact List.append_ne_nil_of_right_ne_nil _ (List.cons_ne_nil _ _)
  · rw [PendingData.containsPushOther _ _ same] at known
    rw [PendingData.itemsPushOther _ _ same]
    exact queued k known

theorem removeQueued (queued : Queued d) (sid : StreamId) : Queued (d.remove sid).1 := by
  intro k known
  cases found : d.queues[sid]? with
  | none =>
    have same : (d.remove sid).1 = d := by rw [PendingData.remove,found]
    rw [same] at known ⊢
    exact queued k known
  | some q =>
    have different : k ≠ sid := by
      rintro rfl
      simp [PendingData.remove,found,PendingData.contains] at known
    have before : d.contains k = true := by
      simpa [PendingData.remove,found,PendingData.contains,ExtTreeMap.contains_erase,different.symm] using known
    rw [PendingData.itemsRemoveOther _ different]
    exact queued k before

theorem popQueued {payload : Payload} {rest : PendingData} (queued : Queued d)
    (popped : d.popFront sid = some (payload,rest)) :
    Queued rest := by
  intro k known
  have shape := PendingData.popFrontSome popped
  unfold PendingData.popFront at popped
  cases found : d.queues[sid]? with
  | none =>
    rw [found] at popped
    contradiction
  | some q =>
    cases items : q.items with
    | nil =>
      simp only [found,items] at popped
      contradiction
    | cons first later =>
      simp only [found,items] at popped
      by_cases drained : later.isEmpty = true
      · rw [if_pos drained] at popped
        obtain ⟨rfl,rfl⟩ := Prod.mk.inj (Option.some.inj popped)
        have different : k ≠ sid := by
          rintro rfl
          simp [PendingData.contains] at known
        rw [shape.2 k different]
        exact queued k (by simpa [PendingData.contains,ExtTreeMap.contains_erase,different.symm] using known)
      · rw [if_neg drained] at popped
        obtain ⟨rfl,rfl⟩ := Prod.mk.inj (Option.some.inj popped)
        by_cases same : k = sid
        · rw [same]
          intro empty
          have nothing : later = [] := by simpa [PendingData.items] using empty
          exact drained (by rw [nothing]; rfl)
        · rw [shape.2 k same]
          exact queued k (by simpa [PendingData.contains,ExtTreeMap.contains_insert,Ne.symm same] using known)

end Queues

section Steps
variable {s t : Buffers} {sid : StreamId} {i : Nat}

theorem pushBackKeeps (inv : Accounted s) {p : BufferedPayload} (found : s.held[i]? = some p) :
    Accounted { s with data := s.data.pushBack sid p.data,held := s.held.eraseIdx i } := by
  refine movedKeeps inv (PendingData.exactPush inv.data sid p.data) inv.opens (pushQueued inv.queued sid p.data)
    (erasedAccounted inv i) ?_
  have erased := heldErased found
  have change := @PendingData.waitingChanged s.data (s.data.pushBack sid p.data) sid
    (fun k different => PendingData.itemsPushOther _ _ different)
  rw [PendingData.itemsPushSame,bytesAppend,bytesSingle] at change
  rw [Buffers.aliveBytes,Buffers.aliveBytes]
  dsimp only
  omega

theorem popFrontKeeps (inv : Accounted s) {payload : Payload} {rest : PendingData}
    (popped : s.data.popFront sid = some (payload,rest)) :
    Accounted { s with data := rest,held := s.held ++ wrapped [payload] } := by
  refine movedKeeps inv (PendingData.exactPop inv.data popped) inv.opens (popQueued inv.queued popped)
    (wrappedAccounted _ inv.accounted) ?_
  obtain ⟨front,others⟩ := PendingData.popFrontSome popped
  have change := PendingData.waitingChanged sid others
  rw [front,bytesCons] at change
  rw [Buffers.aliveBytes,Buffers.aliveBytes,heldWrapped,bytesSingle]
  dsimp only
  omega

theorem removeDataKeeps (inv : Accounted s) (sid : StreamId) :
    Accounted { s with data := (s.data.remove sid).1,held := s.held ++ wrapped (s.data.remove sid).2 } := by
  refine movedKeeps inv (PendingData.exactRemove inv.data sid) inv.opens (removeQueued inv.queued sid)
    (wrappedAccounted _ inv.accounted) ?_
  have change := @PendingData.waitingChanged s.data (s.data.remove sid).1 sid
    (fun k different => PendingData.itemsRemoveOther _ different)
  rw [PendingData.itemsRemoveSame,bytesNil] at change
  rw [Buffers.aliveBytes,Buffers.aliveBytes,heldWrapped,PendingData.removed]
  dsimp only
  omega

theorem clearDataKeeps (inv : Accounted s) :
    Accounted { s with data := s.data.clear.1,held := s.held ++ wrapped s.data.clear.2 } := by
  refine movedKeeps inv PendingData.exactEmpty inv.opens (fun sid known => ?_) (wrappedAccounted _ inv.accounted) ?_
  · simp [PendingData.clear,PendingData.contains] at known
  · rw [Buffers.aliveBytes,Buffers.aliveBytes,heldWrapped,clearData]
    show _ + 0 + s.opens.waitingBytes = _
    omega

theorem opensKeeps (inv : Accounted s) {next : PendingOpenStreams} {taken : List Payload} (exact' : next.Exact)
    (others : ∀ k, k ≠ sid → next.entry k = s.opens.entry k)
    (here : bytes (s.opens.buffered sid) = bytes (next.buffered sid) + bytes taken) :
    Accounted { s with opens := next,held := s.held ++ wrapped taken } := by
  refine movedKeeps inv inv.data exact' inv.queued (wrappedAccounted _ inv.accounted) ?_
  have change := PendingOpenStreams.waitingChanged sid others
  rw [Buffers.aliveBytes,Buffers.aliveBytes,heldWrapped]
  dsimp only
  omega

theorem removeOpenKeeps (inv : Accounted s) (sid : StreamId) :
    Accounted { s with opens := s.opens.remove sid,held := s.held ++ wrapped (s.opens.buffered sid) } := by
  refine opensKeeps inv (PendingOpenStreams.exactRemove inv.opens sid)
    (fun k different => by rw [PendingOpenStreams.entryRemove,if_neg different]) ?_
  rw [show (s.opens.remove sid).buffered sid = [] by
    rw [PendingOpenStreams.buffered,PendingOpenStreams.entryRemove,if_pos rfl]; rfl,bytesNil,Nat.zero_add]

theorem insertNewKeeps (inv : Accounted s) (sid : StreamId) :
    Accounted { s with opens := s.opens.insertNew sid,held := s.held ++ wrapped (s.opens.buffered sid) } := by
  refine opensKeeps inv (PendingOpenStreams.exactInsertNew inv.opens sid)
    (fun k different => by rw [PendingOpenStreams.entryInsertNew,if_neg different]) ?_
  have fresh : (s.opens.insertNew sid).entry sid = some {} := by rw [PendingOpenStreams.entryInsertNew,if_pos rfl]
  rw [PendingOpenStreams.bufferedEntry fresh,bytesNil,Nat.zero_add]

theorem takeReadyKeeps (inv : Accounted s) {payloads : List Payload} {fin : Bool} {next : PendingOpenStreams}
    (taken : s.opens.takeReady sid = some (payloads,fin,next)) :
    Accounted { s with opens := next,held := s.held ++ wrapped payloads } := by
  obtain ⟨e,found,rfl,_,here,others⟩ := PendingOpenStreams.takenEntry taken
  refine opensKeeps inv (PendingOpenStreams.exactTake inv.opens taken) others ?_
  rw [PendingOpenStreams.bufferedEntry found,PendingOpenStreams.bufferedEntry here,bytesNil,Nat.zero_add]

theorem clearOpensKeeps (inv : Accounted s) :
    Accounted { s with opens := s.opens.clear.1,held := s.held ++ wrapped s.opens.clear.2 } := by
  refine movedKeeps inv inv.data PendingOpenStreams.exactEmpty inv.queued (wrappedAccounted _ inv.accounted) ?_
  rw [Buffers.aliveBytes,Buffers.aliveBytes,heldWrapped,clearOpens]
  show _ + s.data.waitingBytes + 0 = _
  omega

theorem pushDataKeeps (inv : Accounted s) {p : BufferedPayload} {next : PendingOpenStreams} (found : s.held[i]? = some p)
    (pushed : s.opens.pushData sid p.data = some next) : Accounted { s with opens := next,held := s.held.eraseIdx i } := by
  refine movedKeeps inv inv.data (PendingOpenStreams.exactPush inv.opens pushed) inv.queued (erasedAccounted inv i) ?_
  obtain ⟨e,before,here,others⟩ := PendingOpenStreams.pushedEntry pushed
  have change := PendingOpenStreams.waitingChanged sid others
  rw [PendingOpenStreams.bufferedEntry before,PendingOpenStreams.bufferedEntry here,bytesAppend,bytesSingle] at change
  have erased := heldErased found
  rw [Buffers.aliveBytes,Buffers.aliveBytes]
  dsimp only
  omega

theorem flagsKeep (inv : Accounted s) {next : PendingOpenStreams} {e e' : PendingOpenStream} (exact' : next.Exact)
    (before : s.opens.entry sid = some e) (here : next.entry sid = some e') (data : e'.bufferedData = e.bufferedData)
    (others : ∀ k, k ≠ sid → next.entry k = s.opens.entry k) : Accounted { s with opens := next } := by
  refine movedKeeps inv inv.data exact' inv.queued inv.accounted ?_
  have change := PendingOpenStreams.waitingChanged sid others
  rw [PendingOpenStreams.bufferedEntry before,PendingOpenStreams.bufferedEntry here,data] at change
  rw [Buffers.aliveBytes,Buffers.aliveBytes]
  dsimp only
  omega

theorem createKeeps (inv : Accounted s) (payload : Payload) : Accounted { s with
    held := s.held ++ wrapped [payload],bufferedStreamBytes := s.bufferedStreamBytes + payload.length } := by
  refine ⟨inv.data,inv.opens,inv.queued,wrappedAccounted _ inv.accounted,?_⟩
  have buffered := inv.buffered
  rw [Buffers.aliveBytes] at buffered ⊢
  rw [heldWrapped,bytesSingle]
  dsimp only
  omega

theorem stepAccounts {op : Op} (inv : Accounted s) (moved : step s op = some t) : Accounted t := by
  cases op with
  | create payload =>
    cases Option.some.inj moved
    exact createKeeps inv payload
  | intoBytes i =>
    obtain ⟨p,found,rfl⟩ := Option.map_eq_some_iff.mp moved
    rw [intoBytesDrops (heldLeast inv found).1]
    exact droppedKeeps inv found
  | drop i =>
    obtain ⟨p,found,rfl⟩ := Option.map_eq_some_iff.mp moved
    exact droppedKeeps inv found
  | pushBack sid i =>
    obtain ⟨p,found,rfl⟩ := Option.map_eq_some_iff.mp moved
    exact pushBackKeeps inv found
  | popFront sid =>
    obtain ⟨⟨payload,rest⟩,popped,rfl⟩ := Option.map_eq_some_iff.mp moved
    exact popFrontKeeps inv popped
  | removeData sid =>
    cases Option.some.inj moved
    exact removeDataKeeps inv sid
  | clearData =>
    cases Option.some.inj moved
    exact clearDataKeeps inv
  | insertNew sid =>
    cases Option.some.inj moved
    exact insertNewKeeps inv sid
  | removeOpen sid =>
    cases Option.some.inj moved
    exact removeOpenKeeps inv sid
  | clearOpens =>
    cases Option.some.inj moved
    exact clearOpensKeeps inv
  | pushData sid i =>
    obtain ⟨p,found,rfl⟩ := Option.map_eq_some_iff.mp moved
    cases pushed : s.opens.pushData sid p.data with
    | none => exact droppedKeeps inv found
    | some next => exact pushDataKeeps inv found pushed
  | takeReady sid =>
    obtain ⟨⟨payloads,fin,next⟩,taken,rfl⟩ := Option.map_eq_some_iff.mp moved
    exact takeReadyKeeps inv taken
  | setBufferedFin sid =>
    obtain ⟨next,set,rfl⟩ := Option.map_eq_some_iff.mp moved
    obtain ⟨e,before,here,others⟩ := PendingOpenStreams.finEntry set
    exact flagsKeep inv (PendingOpenStreams.exactFin inv.opens set) before here rfl others
  | releaseReservation sid =>
    obtain ⟨⟨first,next⟩,released,rfl⟩ := Option.map_eq_some_iff.mp moved
    obtain ⟨e,before,here,others⟩ := PendingOpenStreams.releasedEntry released
    exact flagsKeep inv (PendingOpenStreams.exactRelease inv.opens released) before here rfl others

theorem initialAccounted : Accounted {} := by
  refine ⟨PendingData.exactEmpty,PendingOpenStreams.exactEmpty,fun sid known => ?_,fun p none => ?_,rfl⟩
  · simp [PendingData.contains] at known
  · exact absurd none List.not_mem_nil

theorem reachAccounted (reach : Reach step Always {} s) : Accounted s :=
  reachInvariant initialAccounted (fun inv _ moved => stepAccounts inv moved) reach

/- No subtraction goes below zero, so that none of them saturates. -/
theorem subtractionsFit (inv : Accounted s) (op : Op) : ∀ pair ∈ subtractions s op, pair.2 ≤ pair.1 := by
  have released : ∀ i : Nat, ∀ pair ∈ (s.held[i]?.map (fun p => (s.bufferedStreamBytes,
    p.data.length))).toList, pair.2 ≤ pair.1 := by
    intro i pair member
    obtain ⟨p,found,rfl⟩ := Option.map_eq_some_iff.mp (Option.mem_toList.mp member)
    exact (heldLeast inv found).2
  have emptied : ∀ sid : StreamId, ∀ pair ∈ (s.opens.streams[sid]?.map (fun e => (s.opens.totalBytes,
    e.bytes))).toList, pair.2 ≤ pair.1 := by
    intro sid pair member
    obtain ⟨e,found,rfl⟩ := Option.map_eq_some_iff.mp (Option.mem_toList.mp member)
    have held := PendingOpenStreams.waitingHolds s.opens sid
    rw [PendingOpenStreams.bufferedEntry (show s.opens.entry sid = some e from found),← inv.opens.stream sid e found,
      ← inv.opens.total] at held
    exact held
  have queue : ∀ {sid : StreamId} {q}, s.data.queues[sid]? = some q → q.bytes = bytes q.items ∧
      q.bytes ≤ s.data.totalBytes := by
    intro sid q found
    have counted := inv.data.stream sid
    have held := PendingData.waitingHolds s.data sid
    simp only [PendingData.streamBytes,PendingData.items,found,Option.map_some,Option.getD_some] at counted held
    rw [← counted,← inv.data.total] at held
    exact ⟨counted,held⟩
  intro pair member
  cases op with
  | intoBytes i => exact released i pair member
  | drop i => exact released i pair member
  | pushData sid i =>
    rw [subtractions] at member
    by_cases known : s.opens.contains sid = true
    · rw [if_pos known] at member
      exact absurd member List.not_mem_nil
    · rw [if_neg known] at member
      exact released i pair member
  | popFront sid =>
    rw [subtractions] at member
    cases found : s.data.queues[sid]? with
    | none =>
      rw [found] at member
      exact absurd member List.not_mem_nil
    | some q =>
      obtain ⟨counted,least⟩ := queue found
      rw [found] at member
      dsimp only at member
      cases items : q.items with
      | nil =>
        rw [items] at member
        exact absurd member List.not_mem_nil
      | cons payload rest =>
        rw [items,bytesCons] at counted
        rw [items] at member
        simp only [List.head?_cons,Option.map_some,Option.getD_some,List.mem_cons,List.not_mem_nil,or_false] at member
        rcases member with rfl | rfl
        · dsimp only
          omega
        · dsimp only
          omega
  | removeData sid =>
    obtain ⟨q,found,rfl⟩ := Option.map_eq_some_iff.mp (Option.mem_toList.mp member)
    exact (queue found).2
  | insertNew sid => exact emptied sid pair member
  | removeOpen sid => exact emptied sid pair member
  | takeReady sid => exact emptied sid pair member
  | create payload => exact absurd member List.not_mem_nil
  | pushBack sid i => exact absurd member List.not_mem_nil
  | clearData => exact absurd member List.not_mem_nil
  | clearOpens => exact absurd member List.not_mem_nil
  | setBufferedFin sid => exact absurd member List.not_mem_nil
  | releaseReservation sid => exact absurd member List.not_mem_nil

theorem bufferAccounting (reach : Reach step Always {} s) :
    s.data.totalBytes = s.data.waitingBytes ∧ (∀ sid, s.data.streamBytes sid = bytes (s.data.items sid)) ∧
    s.opens.totalBytes = s.opens.waitingBytes ∧ (∀ sid e, s.opens.entry sid = some e → e.bytes = bytes e.bufferedData) ∧
    (∀ sid, s.data.contains sid = true → s.data.items sid ≠ []) ∧
    s.bufferedStreamBytes = s.aliveBytes ∧ ∀ op, ∀ pair ∈ subtractions s op, pair.2 ≤ pair.1 := by
  have inv := reachAccounted reach
  exact ⟨inv.data.total,inv.data.stream,inv.opens.total,inv.opens.stream,inv.queued,inv.buffered,subtractionsFit inv⟩

def deliveredRun : List Op :=
  [.insertNew 1,.create [1,2,3],.pushData 1 0,.create [4],.takeReady 1,.pushBack 1 1,.popFront 1,.intoBytes 1]

theorem bufferAccountingDelivered : ∃ s, Reach step Always {} s ∧ s.bufferedStreamBytes = 1 ∧ s.aliveBytes = 1 := by
  have ran : (checked step Always {} deliveredRun).any (fun s => s.bufferedStreamBytes == 1) = true := by decide +kernel
  obtain ⟨s,reach,left⟩ := checkedReaches ran
  obtain ⟨_,_,_,_,_,buffered,_⟩ := bufferAccounting reach
  have one := eq_of_beq left
  exact ⟨s,reach,one,buffered.symm.trans one⟩

end Steps

end KanoTls.Pending
