import Mathlib.Data.List.Basic
import Mathlib.Data.Finset.Basic

/-! The two buffering ledgers of a session. `PendingData` holds what the read loop
could not push into a stream's channel; `PendingOpenStreams` holds what arrived for
a stream the application has not accepted yet. Both keep running byte counters.
The global `buffered_stream_bytes` counter is a third, separate account. -/
namespace KanoTls.Pending
open Std

abbrev StreamId := Nat
abbrev Payload := List UInt8

def maxPendingStreamFrames : Nat := 4096
def maxPendingStreamBytes : Nat := 64*1024*1024
def maxPendingStreams : Nat := 1024
def maxStreamOverflowBytes : Nat := 32*1024*1024
def streamChannelCapacity : Nat := 128

structure StreamQueue where
  items : List Payload := []
  bytes : Nat := 0
  deriving DecidableEq, Repr

structure PendingData where
  queues : ExtTreeMap StreamId StreamQueue := ∅
  totalBytes : Nat := 0

namespace PendingData

def contains (d : PendingData) (sid : StreamId) : Bool := d.queues.contains sid
def len (d : PendingData) : Nat := d.queues.size
def streamBytes (d : PendingData) (sid : StreamId) : Nat := (d.queues[sid]?.map (·.bytes)).getD 0
def streamFrames (d : PendingData) (sid : StreamId) : Nat := (d.queues[sid]?.map (·.items.length)).getD 0

def remove (d : PendingData) (sid : StreamId) : PendingData × List Payload :=
  match d.queues[sid]? with
  | none => (d,[])
  | some q => (⟨d.queues.erase sid,d.totalBytes - q.bytes⟩,q.items)

def pushBack (d : PendingData) (sid : StreamId) (payload : Payload) : PendingData :=
  let q := (d.queues[sid]?).getD {}
  ⟨d.queues.insert sid ⟨q.items ++ [payload],q.bytes + payload.length⟩,d.totalBytes + payload.length⟩

def popFront (d : PendingData) (sid : StreamId) : Option (Payload × PendingData) :=
  match d.queues[sid]? with
  | none => none
  | some q => match q.items with
    | [] => none
    | payload::rest =>
      let total := d.totalBytes - payload.length
      if rest.isEmpty then some (payload,⟨d.queues.erase sid,total⟩)
      else some (payload,⟨d.queues.insert sid ⟨rest,q.bytes - payload.length⟩,total⟩)

def items (d : PendingData) (sid : StreamId) : List Payload := (d.queues[sid]?.map (·.items)).getD []

@[simp] theorem itemsPushSame (d : PendingData) (sid : StreamId) (payload : Payload) :
    (d.pushBack sid payload).items sid = d.items sid ++ [payload] := by
  cases h : d.queues[sid]? <;> simp [items,pushBack,h]

theorem itemsPushOther (d : PendingData) {sid other : StreamId} (payload : Payload)
    (different : other ≠ sid) : (d.pushBack sid payload).items other = d.items other := by
  simp [items,pushBack,ExtTreeMap.getElem?_insert,different.symm]

@[simp] theorem itemsRemoveSame (d : PendingData) (sid : StreamId) : (d.remove sid).1.items sid = [] := by
  cases h : d.queues[sid]? <;> simp [items,remove,h]

theorem itemsRemoveOther (d : PendingData) {sid other : StreamId} (different : other ≠ sid) :
    (d.remove sid).1.items other = d.items other := by
  cases h : d.queues[sid]? <;> simp [items,remove,h,ExtTreeMap.getElem?_erase,different.symm]

@[simp] theorem removed (d : PendingData) (sid : StreamId) : (d.remove sid).2 = d.items sid := by
  cases h : d.queues[sid]? <;> simp [items,remove,h]

theorem itemsOfAbsent {d : PendingData} {sid : StreamId} (absent : d.contains sid = false) :
    d.items sid = [] := by
  have h : d.queues[sid]? = none := ExtTreeMap.getElem?_eq_none_of_contains_eq_false absent
  simp [items,h]

theorem popFrontNone {d : PendingData} {sid : StreamId} (h : d.popFront sid = none) : d.items sid = [] := by
  unfold popFront at h
  cases hq : d.queues[sid]? with
  | none => simp [items,hq]
  | some q =>
    cases hi : q.items with
    | nil => simp [items,hq,hi]
    | cons payload rest =>
      simp only [hq,hi] at h
      split at h <;> contradiction

theorem popFrontSome {d rest : PendingData} {sid : StreamId} {payload : Payload}
    (h : d.popFront sid = some (payload,rest)) :
    d.items sid = payload::rest.items sid ∧ ∀ other, other ≠ sid → rest.items other = d.items other := by
  unfold popFront at h
  cases hq : d.queues[sid]? with
  | none => simp [hq] at h
  | some q =>
    cases hi : q.items with
    | nil => simp [hq,hi] at h
    | cons first later =>
      simp only [hq,hi] at h
      split at h
      · rename_i drained
        cases Option.some.inj h
        have none : later = [] := by simpa using drained
        exact ⟨by simp [items,hq,hi,none],fun other different => by
          simp [items,ExtTreeMap.getElem?_erase,different.symm]⟩
      · cases Option.some.inj h
        exact ⟨by simp [items,hq,hi],fun other different => by
          simp [items,ExtTreeMap.getElem?_insert,different.symm]⟩

theorem popFrontLast {d : PendingData} {sid : StreamId} {payload : Payload} (only : d.items sid = [payload]) :
    ∃ next, d.popFront sid = some (payload,next) ∧ next.contains sid = false := by
  unfold items at only
  cases hq : d.queues[sid]? with
  | none => simp [hq] at only
  | some q =>
    simp only [hq,Option.map_some,Option.getD_some] at only
    exact ⟨⟨d.queues.erase sid,d.totalBytes - payload.length⟩,by simp [popFront,hq,only],by simp [contains]⟩

theorem bytesPush (d : PendingData) (sid : StreamId) (payload : Payload) :
    (d.pushBack sid payload).streamBytes sid = d.streamBytes sid + payload.length := by
  cases h : d.queues[sid]? <;> simp [streamBytes,pushBack,h]

theorem framesPush (d : PendingData) (sid : StreamId) (payload : Payload) :
    (d.pushBack sid payload).streamFrames sid = d.streamFrames sid + 1 := by
  cases h : d.queues[sid]? <;> simp [streamFrames,pushBack,h]

theorem lenPush (d : PendingData) (sid : StreamId) (payload : Payload) :
    (d.pushBack sid payload).len = if d.contains sid then d.len else d.len + 1 := by
  simp [len,pushBack,contains,ExtTreeMap.size_insert]

theorem containsPushSame (d : PendingData) (sid : StreamId) (payload : Payload) :
    (d.pushBack sid payload).contains sid = true := by
  simp [pushBack,contains]

theorem containsPushOther (d : PendingData) {sid other : StreamId} (payload : Payload) (different : other ≠ sid) :
    (d.pushBack sid payload).contains other = d.contains other := by
  simp [pushBack,contains,ExtTreeMap.contains_insert,different.symm]

theorem absentCounts {d : PendingData} {sid : StreamId} (absent : d.contains sid = false) :
    d.streamBytes sid = 0 ∧ d.streamFrames sid = 0 := by
  have h : d.queues[sid]? = none := ExtTreeMap.getElem?_eq_none_of_contains_eq_false absent
  simp [streamBytes,streamFrames,h]

end PendingData

def overflowLimit (peerFlowControl : Bool) : Nat :=
  if peerFlowControl then maxStreamOverflowBytes*2 else maxStreamOverflowBytes

/- `store_pending_data`: the four limits, then the push. `none` is a rejected payload. -/
def storePendingData (peerFlowControl : Bool) (d : PendingData) (sid : StreamId) (payload : Payload) :
    Option PendingData :=
  if d.totalBytes + payload.length > maxPendingStreamBytes then none
  else if ¬ d.contains sid ∧ d.len ≥ maxPendingStreams then none
  else if d.streamBytes sid + payload.length > overflowLimit peerFlowControl then none
  else if d.streamFrames sid ≥ maxPendingStreamFrames then none
  else some (d.pushBack sid payload)

theorem storedPushes {fc d sid payload d'} (h : storePendingData fc d sid payload = some d') :
    d' = d.pushBack sid payload := by
  unfold storePendingData at h
  split at h <;> try contradiction
  split at h <;> try contradiction
  split at h <;> try contradiction
  split at h <;> try contradiction
  exact (Option.some.inj h).symm

structure PendingOpenStream where
  bufferedData : List Payload := []
  bytes : Nat := 0
  bufferedFin : Bool := false
  reservationReleased : Bool := false
  deriving DecidableEq, Repr

structure PendingOpenStreams where
  streams : ExtTreeMap StreamId PendingOpenStream := ∅
  totalBytes : Nat := 0

namespace PendingOpenStreams

def contains (o : PendingOpenStreams) (sid : StreamId) : Bool := o.streams.contains sid
def streamFrames (o : PendingOpenStreams) (sid : StreamId) : Nat :=
  (o.streams[sid]?.map (·.bufferedData.length)).getD 0

def remove (o : PendingOpenStreams) (sid : StreamId) : PendingOpenStreams :=
  match o.streams[sid]? with
  | none => o
  | some e => ⟨o.streams.erase sid,o.totalBytes - e.bytes⟩

def insertNew (o : PendingOpenStreams) (sid : StreamId) : PendingOpenStreams :=
  let o := o.remove sid
  ⟨o.streams.insert sid {},o.totalBytes⟩

def pushData (o : PendingOpenStreams) (sid : StreamId) (payload : Payload) : Option PendingOpenStreams :=
  match o.streams[sid]? with
  | none => none
  | some e => some ⟨o.streams.insert sid {e with
      bufferedData := e.bufferedData ++ [payload],bytes := e.bytes + payload.length},o.totalBytes + payload.length⟩

def takeReady (o : PendingOpenStreams) (sid : StreamId) : Option (List Payload × Bool × PendingOpenStreams) :=
  match o.streams[sid]? with
  | none => none
  | some e => some (e.bufferedData,e.bufferedFin,⟨o.streams.insert sid {e with
      bufferedData := [],bytes := 0,bufferedFin := false},o.totalBytes - e.bytes⟩)

def setBufferedFin (o : PendingOpenStreams) (sid : StreamId) : Option PendingOpenStreams :=
  match o.streams[sid]? with
  | none => none
  | some e => some ⟨o.streams.insert sid {e with bufferedFin := true},o.totalBytes⟩

/- The flag says whether this call is the first release; `none` is no entry. -/
def releaseReservation (o : PendingOpenStreams) (sid : StreamId) : Option (Bool × PendingOpenStreams) :=
  match o.streams[sid]? with
  | none => none
  | some e => if e.reservationReleased then some (false,o) else
      some (true,⟨o.streams.insert sid {e with reservationReleased := true},o.totalBytes⟩)

def entry (o : PendingOpenStreams) (sid : StreamId) : Option PendingOpenStream := o.streams[sid]?

theorem containsEntry (o : PendingOpenStreams) (sid : StreamId) :
    o.contains sid = (o.entry sid).isSome := by
  simp [contains,entry]

theorem entryRemove (o : PendingOpenStreams) (sid other : StreamId) :
    (o.remove sid).entry other = if other = sid then none else o.entry other := by
  by_cases same : other = sid
  · subst other
    cases h : o.streams[sid]? <;> simp [entry,remove,h]
  · cases h : o.streams[sid]? <;> simp [entry,remove,h,ExtTreeMap.getElem?_erase,Ne.symm same,same]

theorem entryInsertNew (o : PendingOpenStreams) (sid other : StreamId) :
    (o.insertNew sid).entry other = if other = sid then some {} else o.entry other := by
  have removedOther := entryRemove o sid other
  by_cases same : other = sid
  · subst other; simp [entry,insertNew]
  · simp only [entry,same,if_false] at removedOther
    simp [entry,insertNew,ExtTreeMap.getElem?_insert,Ne.symm same,same,removedOther]

theorem pushedEntry {o next : PendingOpenStreams} {sid : StreamId} {payload : Payload}
    (h : o.pushData sid payload = some next) : ∃ e, o.entry sid = some e ∧
      next.entry sid = some {e with
        bufferedData := e.bufferedData ++ [payload],bytes := e.bytes + payload.length} ∧
      ∀ other, other ≠ sid → next.entry other = o.entry other := by
  unfold pushData at h
  split at h <;> try contradiction
  rename_i e he
  cases Option.some.inj h
  exact ⟨e,he,by simp [entry],fun other different => by
    simp [entry,ExtTreeMap.getElem?_insert,different.symm]⟩

theorem takenEntry {o next : PendingOpenStreams} {sid : StreamId} {payloads : List Payload} {fin : Bool}
    (h : o.takeReady sid = some (payloads,fin,next)) : ∃ e, o.entry sid = some e ∧
      payloads = e.bufferedData ∧ fin = e.bufferedFin ∧
      next.entry sid = some {e with bufferedData := [],bytes := 0,bufferedFin := false} ∧
      ∀ other, other ≠ sid → next.entry other = o.entry other := by
  unfold takeReady at h
  split at h <;> try contradiction
  rename_i e he
  cases Option.some.inj h
  exact ⟨e,he,rfl,rfl,by simp [entry],fun other different => by
    simp [entry,ExtTreeMap.getElem?_insert,different.symm]⟩

theorem takenAbsent {o : PendingOpenStreams} {sid : StreamId} (h : o.takeReady sid = none) :
    o.entry sid = none := by
  unfold takeReady at h
  split at h <;> try contradiction
  rename_i absent
  exact absent

theorem finEntry {o next : PendingOpenStreams} {sid : StreamId}
    (h : o.setBufferedFin sid = some next) : ∃ e, o.entry sid = some e ∧
      next.entry sid = some {e with bufferedFin := true} ∧
      ∀ other, other ≠ sid → next.entry other = o.entry other := by
  unfold setBufferedFin at h
  split at h <;> try contradiction
  rename_i e he
  cases Option.some.inj h
  exact ⟨e,he,by simp [entry],fun other different => by
    simp [entry,ExtTreeMap.getElem?_insert,different.symm]⟩

theorem finAbsent {o : PendingOpenStreams} {sid : StreamId} (h : o.setBufferedFin sid = none) :
    o.entry sid = none := by
  unfold setBufferedFin at h
  split at h <;> try contradiction
  rename_i absent
  exact absent

theorem releasedEntry {o next : PendingOpenStreams} {sid : StreamId} {first : Bool}
    (h : o.releaseReservation sid = some (first,next)) : ∃ e, o.entry sid = some e ∧
      next.entry sid = some {e with reservationReleased := true} ∧
      ∀ other, other ≠ sid → next.entry other = o.entry other := by
  unfold releaseReservation at h
  split at h <;> try contradiction
  rename_i e he
  split at h
  · rename_i released
    cases Option.some.inj h
    exact ⟨e,he,by simp [entry,he,← released],fun _ _ => rfl⟩
  · cases Option.some.inj h
    exact ⟨e,he,by simp [entry],fun other different => by
      simp [entry,ExtTreeMap.getElem?_insert,different.symm]⟩

end PendingOpenStreams

inductive Stored where
  | absent | dropped | kept (next : PendingOpenStreams)

/- `store_pending_open_data`: a payload over a limit is dropped, and the call still
answers `true` to the read loop. -/
def storePendingOpenData (o : PendingOpenStreams) (sid : StreamId) (payload : Payload) : Stored :=
  if ¬ o.contains sid then .absent
  else if o.totalBytes + payload.length > maxPendingStreamBytes then .dropped
  else if o.streamFrames sid ≥ maxPendingStreamFrames then .dropped
  else match o.pushData sid payload with
    | none => .absent
    | some next => .kept next

theorem storedAbsent {o : PendingOpenStreams} {sid : StreamId} {payload : Payload}
    (h : storePendingOpenData o sid payload = .absent) : o.entry sid = none := by
  unfold storePendingOpenData at h
  split at h
  · rename_i absent
    simpa [PendingOpenStreams.containsEntry] using absent
  · split at h <;> try contradiction
    split at h <;> try contradiction
    split at h <;> try contradiction
    rename_i missing
    unfold PendingOpenStreams.pushData at missing
    split at missing <;> try contradiction
    rename_i found
    exact found

theorem storedKept {o next : PendingOpenStreams} {sid : StreamId} {payload : Payload}
    (h : storePendingOpenData o sid payload = .kept next) : o.pushData sid payload = some next := by
  unfold storePendingOpenData at h
  split at h <;> try contradiction
  split at h <;> try contradiction
  split at h <;> try contradiction
  split at h <;> try contradiction
  rename_i found
  cases h
  exact found

end KanoTls.Pending
