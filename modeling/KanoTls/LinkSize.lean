import KanoTls.LinkStream

/-! Bounds on what two sessions hold: a payload fits one frame, and what a side has
counted and not yet credited stays well below the window as long as a WINDOW_UPDATE
that the control queue refuses leaves little deferred. -/
namespace KanoTls.Link
open Pending Window Tasks Side

def Msg.Small : Msg → Prop
  | .psh _ payload => payload.length ≤ maxPayloadLen
  | _ => True

structure Sized (x : Side) : Prop where
  control : ∀ m ∈ x.control, m.Small
  bulk : ∀ m ∈ x.bulk, m.Small
  wire : ∀ m ∈ x.wire, m.Small
  buffered : ∀ sid, ∀ d ∈ x.buffered sid, d.length ≤ maxPayloadLen

section Sized
variable {s t : State} {a : Action} {p : Bool} {x y : Side} {l : LocalAction}

theorem encodeSmall (sid : StreamId) (data : Payload) : ∀ m ∈ encodePshFrames sid data, m.Small := by
  intro m member
  obtain ⟨d,chunk,rfl⟩ := List.mem_map.mp member
  exact chunksSmall _ _ d chunk

theorem framesSmall (sid : StreamId) (target : Option Payload) (data : Payload) :
    ∀ m ∈ writeFrames sid target data, m.Small := by
  cases target with
  | some target =>
    intro m member
    rcases List.mem_append.mp member with first | second
    · exact encodeSmall sid target m first
    · exact encodeSmall sid data m second
  | none =>
    cases data with
    | nil =>
      intro m member
      cases List.mem_singleton.mp member
      exact Nat.zero_le _
    | cons head rest => exact encodeSmall sid _

theorem sizedEnqueue (control : Bool) {frames : List Msg} (sized : Sized x) (small : ∀ m ∈ frames, m.Small) :
    Sized (x.enqueue control frames) := by
  have both {queue : List Msg} (old : ∀ m ∈ queue, m.Small) : ∀ m ∈ queue ++ frames, m.Small := by
    intro m member
    rcases List.mem_append.mp member with was | new
    · exact old m was
    · exact small m new
  cases control
  · exact ⟨sized.control,both sized.bulk,sized.wire,sized.buffered⟩
  · exact ⟨both sized.control,sized.bulk,sized.wire,sized.buffered⟩

theorem sizedTransmit {control : Bool} (sized : Sized x) (moved : x.transmit control = some y) : Sized y := by
  unfold transmit at moved
  split at moved <;> try contradiction
  split at moved <;> try contradiction
  rename_i m rest queue
  cases Option.some.inj moved
  have later {queue : List Msg} (here : queue = m::rest) (old : ∀ m ∈ queue, m.Small) :
      m.Small ∧ ∀ m ∈ rest, m.Small := by
    subst here
    exact ⟨old m List.mem_cons_self,fun n member => old n (List.mem_cons_of_mem _ member)⟩
  cases control
  · obtain ⟨first,others⟩ := later queue sized.bulk
    exact ⟨sized.control,others,everyPush sized.wire first,sized.buffered⟩
  · obtain ⟨first,others⟩ := later queue sized.control
    exact ⟨others,sized.bulk,everyPush sized.wire first,sized.buffered⟩

theorem sizedLocal {isClient : Bool} (sized : Sized x) (moved : x.localStep isClient l = some y) : Sized y := by
  cases l with
  | gate b =>
    simp only [localStep] at moved
    split at moved <;> try contradiction
    obtain ⟨gate,_,rfl⟩ := Option.map_eq_some_iff.mp moved
    exact ⟨sized.control,sized.bulk,sized.wire,sized.buffered⟩
  | write sid len =>
    obtain ⟨gate,_,rfl⟩ := Option.map_eq_some_iff.mp moved
    exact ⟨sized.control,sized.bulk,sized.wire,sized.buffered⟩
  | submit i target data control =>
    obtain ⟨task,_,moved⟩ := Option.bind_eq_some_iff.mp moved
    split at moved <;> try contradiction
    obtain ⟨gate,_,rfl⟩ := Option.map_eq_some_iff.mp moved
    exact sizedEnqueue control ⟨sized.control,sized.bulk,sized.wire,sized.buffered⟩ (framesSmall _ target data)
  | send control fc =>
    simp only [localStep] at moved
    split at moved <;> try contradiction
    cases Option.some.inj moved
    exact sizedEnqueue control sized (fun m member => by cases List.mem_singleton.mp member; trivial)
  | sendOther control =>
    simp only [localStep] at moved
    split at moved <;> try contradiction
    cases Option.some.inj moved
    exact sizedEnqueue control sized (fun m member => by cases List.mem_singleton.mp member; trivial)
  | transmit control => exact sizedTransmit sized moved
  | register sid =>
    cases Option.some.inj moved
    exact ⟨sized.control,sized.bulk,sized.wire,sized.buffered⟩
  | unregister sid =>
    cases Option.some.inj moved
    exact ⟨sized.control,sized.bulk,sized.wire,sized.buffered⟩
  | take sid =>
    cases readerMoves moved with
    | same quiet same => contradiction
    | @take _ d rest here =>
      refine ⟨sized.control,sized.bulk,sized.wire,fun on => ?_⟩
      by_cases mine : on = sid
      · subst mine
        simp only [Function.update_self]
        intro e member
        exact sized.buffered on e (here ▸ List.mem_cons_of_mem _ member)
      · simp only [Function.update_of_ne mine]
        exact sized.buffered on
  | note sid len accepted =>
    cases readerMoves moved with
    | same quiet same => contradiction
    | note stream room counted =>
      refine sizedEnqueue true ⟨sized.control,sized.bulk,sized.wire,sized.buffered⟩ (fun m member => ?_)
      rcases counted with ⟨_,_,rfl⟩ | ⟨_,rfl⟩
      · contradiction
      · cases List.mem_singleton.mp member
        trivial

theorem sizedFrame {kept accepted m} (sized : Sized x) (small : m.Small) (moved : FrameMove x kept accepted m y) :
    Sized y := by
  cases moved with
  | @psh sid payload count frames counted =>
    have queued : Sized (({x with consumed := count} : Side).enqueue true frames) := by
      refine sizedEnqueue true ⟨sized.control,sized.bulk,sized.wire,sized.buffered⟩ (fun m member => ?_)
      rcases counted with ⟨_,_,rfl⟩ | ⟨_,_,rfl⟩ | ⟨_,_,rfl⟩
      · contradiction
      · contradiction
      · cases List.mem_singleton.mp member
        trivial
    cases kept
    · exact ⟨queued.control,queued.bulk,queued.wire,queued.buffered⟩
    · refine ⟨queued.control,queued.bulk,queued.wire,fun on => ?_⟩
      by_cases mine : on = sid
      · subst mine
        simp only [store,cond_true,Function.update_self]
        exact everyPush (queued.buffered on) small
      · simp only [store,cond_true,Function.update_of_ne mine]
        exact queued.buffered on
  | gate reads stepped => exact ⟨sized.control,sized.bulk,sized.wire,sized.buffered⟩
  | gone stream gone => exact ⟨sized.control,sized.bulk,sized.wire,sized.buffered⟩
  | other => exact sized

theorem sizedKept (sized : ∀ p, Sized (s p)) (moved : step s a = some t) (p : Bool) : Sized (t p) := by
  cases linkMoves moved with
  | @own q l y here =>
    rcases Bool.eq_or_eq_not p q with rfl | rfl
    · rw [Function.update_self]
      exact sizedLocal (sized p) here
    · rw [updatePeer]
      exact sized _
  | @receive q kept accepted m rest y wire here =>
    have peer := sized (!q)
    rcases Bool.eq_or_eq_not p q with rfl | rfl
    · rw [Function.update_self]
      exact sizedFrame (sized p) (peer.wire m (wire ▸ List.mem_cons_self)) (frameMoves here)
    · rw [updatePeer,Function.update_self]
      exact ⟨peer.control,peer.bulk,fun n member => peer.wire n (wire ▸ List.mem_cons_of_mem _ member),peer.buffered⟩

end Sized

def slack : Nat := 2^18

def defers (sid : StreamId) (s : State) : Action → Bool
  | .receive p _ accepted =>
    match (s (!p)).wire with
    | .psh _ payload::_ => accepted || decide ((s p).consumed + payload.length + slack ≤ h2SessionWindowBytes)
    | _ => true
  | .own p (.note on len accepted) =>
    on != sid || accepted || decide ((s p).streamConsumed sid + len + slack ≤ streamWindowBytes)
  | _ => true

structure Counted (sid : StreamId) (x : Side) : Prop where
  conn : x.consumed + slack ≤ h2SessionWindowBytes
  stream : x.streamConsumed sid + slack ≤ streamWindowBytes

section Counted
variable {s t : State} {a : Action} {p : Bool} {x y : Side} {sid : StreamId} {l : LocalAction}

theorem thresholds : connWuThreshold + slack ≤ h2SessionWindowBytes ∧ streamWuThreshold + slack ≤ streamWindowBytes := by
  decide

theorem countedLocal (counted : Counted sid x) (moved : ReaderMove x l y)
    (ok : ∀ len, l = .note sid len false → x.streamConsumed sid + len + slack ≤ streamWindowBytes) : Counted sid y := by
  cases moved with
  | same quiet same =>
    refine ⟨?_,?_⟩
    · rw [same.consumed]
      exact counted.conn
    · rw [same.streamConsumed]
      exact counted.stream
  | take here => exact ⟨counted.conn,counted.stream⟩
  | @note on len accepted count frames stream room how =>
    refine ⟨?_,?_⟩
    · rw [enqueueConsumed]
      exact counted.conn
    · rw [enqueueStreamConsumed]
      by_cases mine : sid = on
      · subst mine
        simp only [Function.update_self]
        have few := thresholds.2
        have less := Nat.mod_le (x.streamConsumed sid + len) (2^64)
        rcases how with ⟨rfl,below | refused,_⟩ | ⟨rfl,_⟩
        · omega
        · subst refused
          have room := ok len rfl
          omega
        · omega
      · simp only [Function.update_of_ne mine]
        exact counted.stream

theorem countedFrame {kept accepted m} (counted : Counted sid x) (moved : FrameMove x kept accepted m y)
    (ok : ∀ on payload, m = .psh on payload → accepted = false →
      x.consumed + payload.length + slack ≤ h2SessionWindowBytes) : Counted sid y := by
  cases moved with
  | @psh on payload count frames how =>
    refine ⟨?_,?_⟩
    · rw [storeConsumed,enqueueConsumed]
      have few := thresholds.1
      show count + slack ≤ _
      rcases how with ⟨_,below,_⟩ | ⟨rfl,refused,_⟩ | ⟨rfl,_,_⟩
      · omega
      · have room := ok on payload rfl refused
        omega
      · omega
    · rw [storeStreamConsumed,enqueueStreamConsumed]
      exact counted.stream
  | gate reads stepped => exact ⟨counted.conn,counted.stream⟩
  | gone stream gone => exact ⟨counted.conn,counted.stream⟩
  | other => exact counted

theorem countedKept (counted : ∀ p, Counted sid (s p)) (ok : defers sid s a = true) (moved : step s a = some t)
    (p : Bool) : Counted sid (t p) := by
  cases linkMoves moved with
  | @own q l y here =>
    rcases Bool.eq_or_eq_not p q with rfl | rfl
    · rw [Function.update_self]
      refine countedLocal (counted p) (readerMoves here) ?_
      rintro len rfl
      simpa [defers] using ok
    · rw [updatePeer]
      exact counted _
  | @receive q kept accepted m rest y wire here =>
    rcases Bool.eq_or_eq_not p q with rfl | rfl
    · rw [Function.update_self]
      refine countedFrame (counted p) (frameMoves here) ?_
      rintro on payload rfl refused
      simpa [defers,wire,refused] using ok
    · rw [updatePeer,Function.update_self]
      exact ⟨(counted _).conn,(counted _).stream⟩

end Counted

end KanoTls.Link
