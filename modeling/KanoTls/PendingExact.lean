import KanoTls.Pending
import Mathlib.Algebra.Order.BigOperators.Group.Finset
import Mathlib.Algebra.Order.Ring.Int

/-! The running counters of the two ledgers against what the ledgers hold. A counter
is changed beside the queue it counts, so that the limits are read in constant time;
`Exact` says that it still is the sum, and every operation keeps that. -/
namespace KanoTls.Pending
open Std

def bytes (payloads : List Payload) : Nat := payloads.flatten.length

@[simp] theorem bytesNil : bytes [] = 0 := rfl

@[simp] theorem bytesSingle (payload : Payload) : bytes [payload] = payload.length := by simp [bytes]

@[simp] theorem bytesAppend (front back : List Payload) : bytes (front ++ back) = bytes front + bytes back := by
  simp [bytes]

@[simp] theorem bytesCons (payload : Payload) (rest : List Payload) :
    bytes (payload::rest) = payload.length + bytes rest := by
  simp [bytes]

theorem sumChanged {ids ids' : Finset StreamId} {f f' : StreamId → Nat} (sid : StreamId)
    (outside : ∀ k, k ∉ ids → f k = 0) (outside' : ∀ k, k ∉ ids' → f' k = 0)
    (others : ∀ k, k ≠ sid → f' k = f k) :
    ids'.sum f' + f sid = ids.sum f + f' sid := by
  have here : sid ∈ insert sid (ids ∪ ids') := Finset.mem_insert_self _ _
  have left : ids.sum f = (insert sid (ids ∪ ids')).sum f :=
    Finset.sum_subset (fun k inside => by simp [inside]) (fun k _ out => outside k out)
  have right : ids'.sum f' = (insert sid (ids ∪ ids')).sum f' :=
    Finset.sum_subset (fun k inside => by simp [inside]) (fun k _ out => outside' k out)
  have rest : ((insert sid (ids ∪ ids')).erase sid).sum f' = ((insert sid (ids ∪ ids')).erase sid).sum f :=
    Finset.sum_congr rfl (fun k inside => others k (Finset.ne_of_mem_erase inside))
  have whole : f sid + ((insert sid (ids ∪ ids')).erase sid).sum f = _ := Finset.add_sum_erase _ f here
  have whole' : f' sid + ((insert sid (ids ∪ ids')).erase sid).sum f' = _ := Finset.add_sum_erase _ f' here
  rw [left,right,← whole,← whole',rest]
  omega

namespace PendingData

def streams (d : PendingData) : Finset StreamId := d.queues.keys.toFinset
def waitingBytes (d : PendingData) : Nat := d.streams.sum (fun sid => bytes (d.items sid))

structure Exact (d : PendingData) : Prop where
  total : d.totalBytes = d.waitingBytes
  stream : ∀ sid, d.streamBytes sid = bytes (d.items sid)

theorem memStreams (d : PendingData) (sid : StreamId) : sid ∈ d.streams ↔ d.contains sid = true := by
  simp [streams,contains,ExtTreeMap.mem_keys,ExtTreeMap.contains_iff_mem]

theorem framesItems (d : PendingData) (sid : StreamId) : d.streamFrames sid = (d.items sid).length := by
  cases h : d.queues[sid]? <;> simp [streamFrames,items,h]

theorem waitingChanged {d d' : PendingData} (sid : StreamId) (others : ∀ k, k ≠ sid → d'.items k = d.items k) :
    d'.waitingBytes + bytes (d.items sid) = d.waitingBytes + bytes (d'.items sid) := by
  have outside : ∀ (d : PendingData) k, k ∉ d.streams → bytes (d.items k) = 0 := by
    intro d k out
    rw [memStreams,Bool.not_eq_true] at out
    rw [itemsOfAbsent out]
    rfl
  exact sumChanged sid (outside d) (outside d') (fun k different => by rw [others k different])

theorem exactEmpty : Exact {} := ⟨rfl,fun _ => rfl⟩

theorem exactChanged {d d' : PendingData} (exact' : Exact d) (sid : StreamId)
    (others : ∀ k, k ≠ sid → d'.items k = d.items k ∧ d'.streamBytes k = d.streamBytes k)
    (here : d'.streamBytes sid = bytes (d'.items sid))
    (total : d'.totalBytes + bytes (d.items sid) = d.totalBytes + bytes (d'.items sid)) : Exact d' := by
  have change := waitingChanged sid (fun k different => (others k different).1)
  refine ⟨?_,fun k => ?_⟩
  · have was := exact'.total
    omega
  · by_cases same : k = sid
    · rw [same,here]
    · rw [(others k same).1,(others k same).2,exact'.stream]

theorem bytesOther {d d' : PendingData} {k : StreamId} (same : d'.queues[k]? = d.queues[k]?) :
    d'.items k = d.items k ∧ d'.streamBytes k = d.streamBytes k := by
  simp [items,streamBytes,same]

theorem waitingHolds (d : PendingData) (sid : StreamId) : bytes (d.items sid) ≤ d.waitingBytes := by
  by_cases known : sid ∈ d.streams
  · exact Finset.single_le_sum (f := fun sid => bytes (d.items sid)) (fun _ _ => Nat.zero_le _) known
  · rw [memStreams,Bool.not_eq_true] at known
    rw [itemsOfAbsent known]
    exact Nat.zero_le _

theorem exactPush {d : PendingData} (exact' : Exact d) (sid : StreamId) (payload : Payload) :
    Exact (d.pushBack sid payload) := by
  refine exactChanged exact' sid (fun k different => bytesOther ?_) ?_ ?_
  · simp [pushBack,ExtTreeMap.getElem?_insert,different.symm]
  · rw [bytesPush,itemsPushSame,exact'.stream,bytesAppend,bytesSingle]
  · rw [itemsPushSame,bytesAppend,bytesSingle]
    show d.totalBytes + payload.length + _ = _
    omega

theorem exactPushes {d : PendingData} (exact' : Exact d) (sid : StreamId) (payloads : List Payload) :
    Exact (payloads.foldl (fun d payload => d.pushBack sid payload) d) := by
  induction payloads generalizing d with
  | nil => exact exact'
  | cons payload rest ih => exact ih (exactPush exact' sid payload)

theorem exactRemove {d : PendingData} (exact' : Exact d) (sid : StreamId) : Exact (d.remove sid).1 := by
  have held := waitingHolds d sid
  have total := exact'.total
  have counted := exact'.stream sid
  refine exactChanged exact' sid (fun k different => bytesOther ?_) ?_ ?_
  · cases h : d.queues[sid]? <;> simp [remove,h,ExtTreeMap.getElem?_erase,different.symm]
  · rw [itemsRemoveSame]
    cases h : d.queues[sid]? <;> simp [remove,h,streamBytes]
  · rw [itemsRemoveSame,bytesNil]
    cases h : d.queues[sid]? with
    | none => simp [remove,h,items]
    | some q =>
      simp only [streamBytes,h,Option.map_some,Option.getD_some] at counted
      simp only [remove,h]
      omega

theorem exactPop {d rest : PendingData} {sid : StreamId} {payload : Payload} (exact' : Exact d)
    (popped : d.popFront sid = some (payload,rest)) : Exact rest := by
  have held := waitingHolds d sid
  have total := exact'.total
  have counted := exact'.stream sid
  have front := (popFrontSome popped).1
  rw [front,bytesCons] at held counted
  unfold popFront at popped
  cases hq : d.queues[sid]? with
  | none => simp [hq] at popped
  | some q =>
    cases hi : q.items with
    | nil => simp [hq,hi] at popped
    | cons first later =>
      simp only [streamBytes,hq,Option.map_some,Option.getD_some] at counted
      simp only [hq,hi] at popped
      split at popped
      · cases Option.some.inj popped
        refine exactChanged exact' sid (fun k different => bytesOther ?_) ?_ ?_
        · simp [ExtTreeMap.getElem?_erase,different.symm]
        · simp [streamBytes,items]
        · rw [front,bytesCons]
          dsimp only
          omega
      · cases Option.some.inj popped
        refine exactChanged exact' sid (fun k different => bytesOther ?_) ?_ ?_
        · simp [ExtTreeMap.getElem?_insert,different.symm]
        · simp only [streamBytes,ExtTreeMap.getElem?_insert_self,Option.map_some,Option.getD_some]
          omega
        · rw [front,bytesCons]
          dsimp only
          omega

end PendingData

namespace PendingOpenStreams

def buffered (o : PendingOpenStreams) (sid : StreamId) : List Payload := ((o.entry sid).map (·.bufferedData)).getD []
def entries (o : PendingOpenStreams) : Finset StreamId := o.streams.keys.toFinset
def waitingBytes (o : PendingOpenStreams) : Nat := o.entries.sum (fun sid => bytes (o.buffered sid))

structure Exact (o : PendingOpenStreams) : Prop where
  total : o.totalBytes = o.waitingBytes
  stream : ∀ sid e, o.entry sid = some e → e.bytes = bytes e.bufferedData

theorem memEntries (o : PendingOpenStreams) (sid : StreamId) : sid ∈ o.entries ↔ o.contains sid = true := by
  simp [entries,contains,ExtTreeMap.mem_keys,ExtTreeMap.contains_iff_mem]

theorem framesBuffered (o : PendingOpenStreams) (sid : StreamId) : o.streamFrames sid = (o.buffered sid).length := by
  cases h : o.streams[sid]? <;> simp [streamFrames,buffered,entry,h]

theorem bufferedOfAbsent {o : PendingOpenStreams} {sid : StreamId} (absent : o.contains sid = false) :
    o.buffered sid = [] := by
  rw [containsEntry,Option.isSome_eq_false_iff,Option.isNone_iff_eq_none] at absent
  rw [buffered,absent]
  rfl

theorem waitingHolds (o : PendingOpenStreams) (sid : StreamId) : bytes (o.buffered sid) ≤ o.waitingBytes := by
  by_cases known : sid ∈ o.entries
  · exact Finset.single_le_sum (f := fun sid => bytes (o.buffered sid)) (fun _ _ => Nat.zero_le _) known
  · rw [memEntries,Bool.not_eq_true] at known
    rw [bufferedOfAbsent known]
    exact Nat.zero_le _

theorem exactEmpty : Exact {} := ⟨rfl,fun _ _ none => by simp [entry] at none⟩

theorem waitingChanged {o o' : PendingOpenStreams} (sid : StreamId) (others : ∀ k, k ≠ sid → o'.entry k = o.entry k) :
    o'.waitingBytes + bytes (o.buffered sid) = o.waitingBytes + bytes (o'.buffered sid) := by
  have outside : ∀ (o : PendingOpenStreams) k, k ∉ o.entries → bytes (o.buffered k) = 0 := by
    intro o k out
    rw [memEntries,Bool.not_eq_true] at out
    rw [bufferedOfAbsent out]
    rfl
  exact sumChanged sid (outside o) (outside o') (fun k different => by rw [buffered,buffered,others k different])

theorem exactChanged {o o' : PendingOpenStreams} (exact' : Exact o) (sid : StreamId)
    (others : ∀ k, k ≠ sid → o'.entry k = o.entry k)
    (here : ∀ e, o'.entry sid = some e → e.bytes = bytes e.bufferedData)
    (total : o'.totalBytes + bytes (o.buffered sid) = o.totalBytes + bytes (o'.buffered sid)) : Exact o' := by
  have change := waitingChanged sid others
  refine ⟨?_,fun k e found => ?_⟩
  · have was := exact'.total
    omega
  · by_cases same : k = sid
    · exact here e (same ▸ found)
    · exact exact'.stream k e (by rw [← others k same,found])

theorem bufferedEntry {o : PendingOpenStreams} {sid : StreamId} {e : PendingOpenStream} (found : o.entry sid = some e) :
    o.buffered sid = e.bufferedData := by
  rw [buffered,found]
  rfl

theorem exactRemove {o : PendingOpenStreams} (exact' : Exact o) (sid : StreamId) : Exact (o.remove sid) := by
  have gone : (o.remove sid).entry sid = none := by rw [entryRemove,if_pos rfl]
  refine exactChanged exact' sid (fun k different => by rw [entryRemove,if_neg different]) ?_ ?_
  · intro e found
    rw [gone] at found
    contradiction
  · rw [show (o.remove sid).buffered sid = [] by rw [buffered,gone]; rfl,bytesNil]
    have held := waitingHolds o sid
    have total := exact'.total
    cases h : o.streams[sid]? with
    | none => simp [remove,h,buffered,entry]
    | some e =>
      have counted := exact'.stream sid e h
      rw [bufferedEntry (show o.entry sid = some e from h)] at held ⊢
      simp only [remove,h]
      omega

theorem exactInsertNew {o : PendingOpenStreams} (exact' : Exact o) (sid : StreamId) : Exact (o.insertNew sid) := by
  have fresh : (o.insertNew sid).entry sid = some {} := by rw [entryInsertNew,if_pos rfl]
  have gone : (o.remove sid).entry sid = none := by rw [entryRemove,if_pos rfl]
  refine exactChanged (exactRemove exact' sid) sid ?_ ?_ ?_
  · intro k different
    rw [entryInsertNew,entryRemove,if_neg different,if_neg different]
  · intro e found
    cases Option.some.inj (fresh.symm.trans found)
    rfl
  · rw [bufferedEntry fresh,show (o.remove sid).buffered sid = [] by rw [buffered,gone]; rfl]
    rfl

theorem exactPush {o next : PendingOpenStreams} {sid : StreamId} {payload : Payload} (exact' : Exact o)
    (pushed : o.pushData sid payload = some next) : Exact next := by
  obtain ⟨e,found,here,others⟩ := pushedEntry pushed
  refine exactChanged exact' sid others ?_ ?_
  · intro e' found'
    cases Option.some.inj (here.symm.trans found')
    have counted := exact'.stream sid e found
    rw [bytesAppend,bytesSingle]
    dsimp only
    omega
  · rw [bufferedEntry found,bufferedEntry here,bytesAppend,bytesSingle]
    have total : next.totalBytes = o.totalBytes + payload.length := by
      unfold pushData at pushed
      split at pushed <;> try contradiction
      cases Option.some.inj pushed
      rfl
    omega

theorem exactTake {o next : PendingOpenStreams} {sid : StreamId} {payloads : List Payload} {fin : Bool}
    (exact' : Exact o) (taken : o.takeReady sid = some (payloads,fin,next)) : Exact next := by
  obtain ⟨e,found,_,_,here,others⟩ := takenEntry taken
  refine exactChanged exact' sid others ?_ ?_
  · intro e' found'
    cases Option.some.inj (here.symm.trans found')
    rfl
  · have held := waitingHolds o sid
    have counted := exact'.stream sid e found
    have was := exact'.total
    rw [bufferedEntry found] at held
    rw [bufferedEntry found,bufferedEntry here,bytesNil]
    have total : next.totalBytes = o.totalBytes - e.bytes := by
      have found : o.streams[sid]? = some e := found
      simp only [takeReady,found,Option.some.injEq,Prod.mk.injEq] at taken
      rw [← taken.2.2]
    omega

theorem exactFlags {o next : PendingOpenStreams} {sid : StreamId} {e e' : PendingOpenStream} (exact' : Exact o)
    (found : o.entry sid = some e) (here : next.entry sid = some e')
    (others : ∀ k, k ≠ sid → next.entry k = o.entry k) (data : e'.bufferedData = e.bufferedData)
    (count : e'.bytes = e.bytes) (total : next.totalBytes = o.totalBytes) : Exact next := by
  refine exactChanged exact' sid others ?_ ?_
  · intro last found'
    cases Option.some.inj (here.symm.trans found')
    rw [count,data,exact'.stream sid e found]
  · rw [bufferedEntry found,bufferedEntry here,data,total]

theorem exactFin {o next : PendingOpenStreams} {sid : StreamId} (exact' : Exact o)
    (set : o.setBufferedFin sid = some next) : Exact next := by
  obtain ⟨e,found,here,others⟩ := finEntry set
  refine exactFlags exact' found here others rfl rfl ?_
  unfold setBufferedFin at set
  split at set <;> try contradiction
  cases Option.some.inj set
  rfl

theorem exactRelease {o next : PendingOpenStreams} {sid : StreamId} {first : Bool} (exact' : Exact o)
    (released : o.releaseReservation sid = some (first,next)) : Exact next := by
  obtain ⟨e,found,here,others⟩ := releasedEntry released
  refine exactFlags exact' found here others rfl rfl ?_
  unfold releaseReservation at released
  split at released <;> try contradiction
  split at released <;> cases Option.some.inj released <;> rfl

end PendingOpenStreams

end KanoTls.Pending
