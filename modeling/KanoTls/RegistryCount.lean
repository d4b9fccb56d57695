import KanoTls.Registry
import KanoTls.Entries

/-! `capacity_stream_count` and the map. Every section that changes one changes the other
with it; only the end of the read loop sets them apart. -/
namespace KanoTls.Registry
open Pending Entries Session

def live (streams : Streams) : Nat := countWhere counted streams

/- How far the counter is ahead of the map. -/
def balance (s : Session) : Int := s.count - live s.streams

section Sections
variable {s t : Session} {sid : StreamId}

@[simp] theorem weightCounted (h : StreamHandle) : weight counted h = if h.readClosed then 0 else 1 := by
  unfold weight counted
  cases h.readClosed <;> rfl

theorem unregisterBalance (s : Session) (sid : StreamId) : balance (s.unregisterStream sid) = balance s := by
  unfold unregisterStream
  split
  · rfl
  · rename_i h found
    have fewer := countErase (p := counted) found
    simp only [balance,live,weightCounted] at fewer ⊢
    split at fewer
    · simp_all
    · simp_all
      omega

theorem markBalance (s : Session) (sid : StreamId) : balance (s.markStreamReadClosed sid) = balance s := by
  unfold markStreamReadClosed
  split
  · rfl
  · rename_i h found
    split
    · rfl
    · rename_i opened
      have replaced := countReplace (p := counted) (b := {h with readClosed := true}) found
      simp only [balance,live,weightCounted,opened,if_true,Bool.false_eq_true,if_false] at replaced ⊢
      omega

theorem pruneBalance (s : Session) : balance s.pruneOrphanedStreams = balance s := by
  unfold pruneOrphanedStreams
  generalize orphans s.streams = sids
  induction sids generalizing s with
  | nil => rfl
  | cons sid rest ih =>
    rw [List.foldl_cons,ih,unregisterBalance]

theorem registerBalance (sid : StreamId) {h : StreamHandle} (opened : h.readClosed = false) :
    balance s ≤ balance (s.registerStream sid h) ∧
      ((s.streams.lookup sid).any counted = false → balance (s.registerStream sid h) = balance s) := by
  cases found : s.streams.lookup sid with
  | none =>
    have more := countInsertNew (p := counted) (b := h) found
    simp only [balance,live,registerStream,weightCounted,opened,Bool.false_eq_true,if_false] at more ⊢
    exact ⟨by omega,fun _ => by omega⟩
  | some old =>
    have more := countReplace (p := counted) (b := h) found
    simp only [balance,live,registerStream,weightCounted,opened,Bool.false_eq_true,if_false] at more ⊢
    refine ⟨by split at more <;> omega,?_⟩
    intro closed
    have closed : old.readClosed = true := by simpa [counted] using closed
    rw [closed,if_pos rfl] at more
    omega

theorem flagsBalance {h g : StreamHandle} (found : s.streams.lookup sid = some h) (alike : g.readClosed = h.readClosed)
    (streams : t.streams = s.streams.insert sid g) (count : t.count = s.count) : balance t = balance s := by
  have replaced := countReplace (p := counted) (b := g) found
  rw [weightCounted,weightCounted,alike] at replaced
  rw [balance,balance,count,streams,live,live]
  omega

end Sections

/- The id that a step registers. `open_stream` gives up when the session is full. -/
def registers (s : Session) : Action → Option StreamId
  | .openRegister sid => if s.pruneOrphanedStreams.activeStreamCount ≥ s.maxStreams then none else some sid
  | .accept i =>
    match s.accepts[i]? with
    | some (sid,.register) => some sid
    | _ => none
  | _ => none

def Fresh (s : Session) (a : Action) : Prop := ∀ sid, registers s a = some sid → (s.streams.lookup sid).any counted = false

section Steps
variable {s t : Session} {a : Action} {sid : StreamId}

theorem frameBalance (f : Frame) : balance (s.handleFrame f) = balance s := by
  cases f with
  | settings | psh sid payload | fin sid => rfl
  | syn sid =>
    simp only [handleFrame]
    split <;> rfl
  | synack sid =>
    simp only [handleFrame]
    split
    · rename_i h found
      split
      · exact flagsBalance (g := {h with synackTx := false}) found rfl rfl rfl
      · rfl
    · rfl

theorem loopBalance {answer : Bool} (moved : s.loopStep answer = some t) (here : s.loop ≠ .clear ∧ s.loop ≠ .zero) :
    balance t = balance s := by
  have dropped : ∀ sid, balance ((if answer then s else s.unregisterStream sid).goto .ready) = balance s := by
    intro sid
    split
    · rfl
    · exact unregisterBalance s sid
  cases pc : s.loop with
  | ready | done =>
    simp only [loopStep,pc] at moved
    contradiction
  | clear => exact absurd pc here.1
  | zero => exact absurd pc here.2
  | synStreams sid | synPending sid | synActive sid | synLoad sid active | synInsert sid | synRemove sid | synRelease
  | finRelease | forget =>
    simp only [loopStep,pc] at moved
    cases Option.some.inj moved
    rfl
  | synCas sid active pending =>
    simp only [loopStep,pc] at moved
    split at moved <;> cases Option.some.inj moved <;> rfl
  | synCall sid =>
    simp only [loopStep,pc] at moved
    split at moved
    · cases Option.some.inj moved
      rfl
    · split at moved <;> cases Option.some.inj moved <;> rfl
  | pshOpen sid payload =>
    simp only [loopStep,pc] at moved
    split at moved <;> cases Option.some.inj moved <;> rfl
  | pshDeliver sid | synacked sid =>
    simp only [loopStep,pc] at moved
    cases Option.some.inj moved
    exact dropped sid
  | finSynack sid =>
    simp only [loopStep,pc] at moved
    split at moved
    · rename_i h found
      split at moved
      · cases Option.some.inj moved
        exact flagsBalance (g := {h with synackTx := false}) found rfl rfl rfl
      · cases Option.some.inj moved
        rfl
    · cases Option.some.inj moved
      rfl
  | finOpen sid =>
    simp only [loopStep,pc] at moved
    cases Option.some.inj moved
    unfold storePendingOpenFin
    split
    · rfl
    · split <;> rfl
  | finMark sid =>
    simp only [loopStep,pc] at moved
    cases Option.some.inj moved
    split
    · exact markBalance s sid
    · rfl

theorem acceptBalance {i : Nat} (moved : s.acceptStep i = some t) :
    balance s ≤ balance t ∧ (Fresh s (.accept i) → balance t = balance s) := by
  have still : balance t = balance s → balance s ≤ balance t ∧ (Fresh s (.accept i) → balance t = balance s) :=
    fun same => ⟨Int.le_of_eq same.symm,fun _ => same⟩
  unfold acceptStep at moved
  split at moved
  · contradiction
  · rename_i sid pc found
    cases pc with
    | done => contradiction
    | begin | releaseCount | remove =>
      cases Option.some.inj moved
      exact still rfl
    | register =>
      cases Option.some.inj moved
      obtain ⟨grows,exact'⟩ := registerBalance (s := s) sid (h := {}) rfl
      refine ⟨grows,?_⟩
      intro fresh
      exact exact' (fresh sid (by simp only [registers,found]))
    | release =>
      dsimp only at moved
      split at moved <;> cases Option.some.inj moved <;> exact still rfl
    | take delivered =>
      dsimp only at moved
      split at moved
      · cases Option.some.inj moved
        exact still rfl
      · split at moved <;> cases Option.some.inj moved <;> exact still rfl
    | mark =>
      cases Option.some.inj moved
      exact still (markBalance s sid)
    | unregister =>
      cases Option.some.inj moved
      exact still (unregisterBalance s sid)

theorem unregisterLookup (s : Session) (sid other : StreamId) :
    (s.unregisterStream sid).streams.lookup other = none ∨
      (s.unregisterStream sid).streams.lookup other = s.streams.lookup other := by
  unfold unregisterStream
  split
  · exact .inr rfl
  · by_cases same : other = sid
    · rw [same]
      exact .inl (AList.lookup_erase sid s.streams)
    · exact .inr (AList.lookup_erase_ne same)

theorem pruneLookup (s : Session) (other : StreamId) :
    s.pruneOrphanedStreams.streams.lookup other = none ∨
      s.pruneOrphanedStreams.streams.lookup other = s.streams.lookup other := by
  unfold pruneOrphanedStreams
  generalize orphans s.streams = sids
  induction sids generalizing s with
  | nil => exact .inr rfl
  | cons sid rest ih =>
    rcases ih (s.unregisterStream sid) with gone | same
    · exact .inl gone
    · rcases unregisterLookup s sid other with gone | kept
      · exact .inl (same.trans gone)
      · exact .inr (same.trans kept)

theorem pruneOpening (s : Session) (opening : List StreamId) :
    {s with opening := opening}.pruneOrphanedStreams = {s.pruneOrphanedStreams with opening := opening} := by
  unfold pruneOrphanedStreams
  rw [show orphans (Session.streams {s with opening := opening}) = orphans s.streams from rfl]
  generalize orphans s.streams = sids
  induction sids generalizing s with
  | nil => rfl
  | cons sid rest ih =>
    rw [List.foldl_cons,List.foldl_cons,← ih]
    congr 1
    unfold unregisterStream
    dsimp only
    split <;> rfl

theorem pruneLimit (s : Session) : s.pruneOrphanedStreams.maxStreams = s.maxStreams := by
  unfold pruneOrphanedStreams
  generalize orphans s.streams = sids
  induction sids generalizing s with
  | nil => rfl
  | cons sid rest ih =>
    rw [List.foldl_cons,ih]
    unfold unregisterStream
    split <;> rfl

theorem openCases (moved : s.openRegister sid = some t) :
    ∃ u : Session, u = {s.pruneOrphanedStreams with opening := s.opening.erase sid} ∧
      (registers s (.openRegister sid) = none ∧ t = u ∨
        registers s (.openRegister sid) = some sid ∧ t = u.registerStream sid {synackTx := true}) := by
  unfold openRegister at moved
  split at moved
  · refine ⟨_,rfl,?_⟩
    rw [pruneOpening] at moved
    dsimp only at moved
    rw [registers,← pruneLimit s]
    split at moved
    · rename_i full
      cases Option.some.inj moved
      exact .inl ⟨if_pos full,rfl⟩
    · rename_i room
      cases Option.some.inj moved
      exact .inr ⟨if_neg room,rfl⟩
  · contradiction

theorem openBalance (moved : s.openRegister sid = some t) :
    balance s ≤ balance t ∧ (Fresh s (.openRegister sid) → balance t = balance s) := by
  obtain ⟨u,same,outcome⟩ := openCases moved
  have pruned : balance u = balance s := by
    rw [same]
    exact pruneBalance s
  rcases outcome with ⟨_,rfl⟩ | ⟨here,rfl⟩
  · exact ⟨Int.le_of_eq pruned.symm,fun _ => pruned⟩
  · obtain ⟨grows,exact'⟩ := registerBalance (s := u) sid (h := {synackTx := true}) rfl
    refine ⟨by rw [← pruned]; exact grows,?_⟩
    intro fresh
    rw [← pruned]
    refine exact' ?_
    rw [same]
    rcases pruneLookup s sid with gone | kept
    · exact congrArg (Option.any counted) gone
    · exact (congrArg (Option.any counted) kept).trans (fresh sid here)

def loops : Action → Bool
  | .loop _ => true
  | _ => false

theorem stepBalance (moved : step s a = some t) (here : loops a = true → s.loop ≠ .clear ∧ s.loop ≠ .zero) :
    balance s ≤ balance t ∧ (Fresh s a → balance t = balance s) := by
  have still : balance t = balance s → balance s ≤ balance t ∧ (Fresh s a → balance t = balance s) :=
    fun same => ⟨Int.le_of_eq same.symm,fun _ => same⟩
  cases a with
  | frame f =>
    simp only [step] at moved
    split at moved
    · cases Option.some.inj moved
      exact still (frameBalance f)
    · contradiction
  | loop answer => exact still (loopBalance moved (here rfl))
  | stop =>
    simp only [step] at moved
    split at moved
    · cases Option.some.inj moved
      exact still rfl
    · contradiction
  | close | openCancel sid =>
    cases Option.some.inj moved
    exact still rfl
  | openCheck =>
    simp only [step,openCheck] at moved
    repeat' split at moved
    all_goals first | contradiction | (cases Option.some.inj moved; exact still rfl)
  | openRegister sid => exact openBalance moved
  | acceptTake =>
    simp only [step] at moved
    split at moved
    · contradiction
    · cases Option.some.inj moved
      exact still rfl
  | accept i => exact acceptBalance moved
  | unregister sid =>
    cases Option.some.inj moved
    exact still (unregisterBalance s sid)
  | mark sid =>
    cases Option.some.inj moved
    exact still (markBalance s sid)
  | abandon sid =>
    simp only [step] at moved
    split at moved
    · contradiction
    · rename_i h found
      cases Option.some.inj moved
      exact still (flagsBalance (g := {h with orphaned := true}) found rfl rfl rfl)
  | prune =>
    cases Option.some.inj moved
    exact still (pruneBalance s)

end Steps

structure Aside (s t : Session) : Prop where
  loop : t.loop = s.loop
  accepts : t.accepts = s.accepts
  queue : t.queue = s.queue
  pendingOpen : t.pendingOpen = s.pendingOpen
  pendingInbound : t.pendingInbound = s.pendingInbound
  maxStreams : t.maxStreams = s.maxStreams
  isClient : t.isClient = s.isClient
  highWater : t.highWater = s.highWater
  handed : t.handed = s.handed

section Aside
variable {s t u : Session} {a : Action} {sid : StreamId}

theorem Aside.refl (s : Session) : Aside s s := ⟨rfl,rfl,rfl,rfl,rfl,rfl,rfl,rfl,rfl⟩

theorem Aside.trans (one : Aside s t) (two : Aside t u) : Aside s u :=
  ⟨two.loop.trans one.loop,two.accepts.trans one.accepts,two.queue.trans one.queue,
    two.pendingOpen.trans one.pendingOpen,two.pendingInbound.trans one.pendingInbound,
    two.maxStreams.trans one.maxStreams,two.isClient.trans one.isClient,two.highWater.trans one.highWater,
    two.handed.trans one.handed⟩

theorem unregisterAside (s : Session) (sid : StreamId) : Aside s (s.unregisterStream sid) := by
  unfold unregisterStream
  split <;> exact ⟨rfl,rfl,rfl,rfl,rfl,rfl,rfl,rfl,rfl⟩

theorem markAside (s : Session) (sid : StreamId) : Aside s (s.markStreamReadClosed sid) := by
  unfold markStreamReadClosed
  split
  · exact .refl s
  · split <;> exact ⟨rfl,rfl,rfl,rfl,rfl,rfl,rfl,rfl,rfl⟩

theorem pruneAside (s : Session) : Aside s s.pruneOrphanedStreams := by
  unfold pruneOrphanedStreams
  generalize orphans s.streams = sids
  induction sids generalizing s with
  | nil => exact .refl s
  | cons sid rest ih => exact (unregisterAside s sid).trans (ih _)

theorem registerAside (s : Session) (sid : StreamId) (h : StreamHandle) : Aside s (s.registerStream sid h) :=
  ⟨rfl,rfl,rfl,rfl,rfl,rfl,rfl,rfl,rfl⟩

theorem openAside (moved : s.openRegister sid = some t) : Aside s t := by
  obtain ⟨u,same,outcome⟩ := openCases moved
  have pruned : Aside s u := by
    rw [same]
    exact (pruneAside s).trans ⟨rfl,rfl,rfl,rfl,rfl,rfl,rfl,rfl,rfl⟩
  rcases outcome with ⟨_,rfl⟩ | ⟨_,rfl⟩
  · exact pruned
  · exact pruned.trans (registerAside u sid _)

theorem loopZero {answer : Bool} (moved : s.loopStep answer = some t) (here : s.loop ≠ .clear) : t.loop ≠ .zero := by
  cases pc : s.loop with
  | ready | done =>
    simp only [loopStep,pc] at moved
    contradiction
  | clear => exact absurd pc here
  | synActive sid | synInsert sid | synRemove sid | synRelease | finRelease | pshDeliver sid | synacked sid | finMark sid
  | zero | forget =>
    simp only [loopStep,pc] at moved
    cases Option.some.inj moved
    exact LoopPc.noConfusion
  | synStreams sid | synPending sid | synLoad sid active =>
    simp only [loopStep,pc] at moved
    cases Option.some.inj moved
    simp only [goto]
    split <;> exact LoopPc.noConfusion
  | synCas sid active pending =>
    simp only [loopStep,pc] at moved
    split at moved <;> cases Option.some.inj moved <;> exact LoopPc.noConfusion
  | synCall sid =>
    simp only [loopStep,pc] at moved
    split at moved
    · cases Option.some.inj moved
      exact LoopPc.noConfusion
    · split at moved <;> cases Option.some.inj moved <;> exact LoopPc.noConfusion
  | pshOpen sid payload =>
    simp only [loopStep,pc] at moved
    split at moved <;> cases Option.some.inj moved <;> exact LoopPc.noConfusion
  | finSynack sid =>
    simp only [loopStep,pc] at moved
    split at moved
    · split at moved <;> cases Option.some.inj moved <;> exact LoopPc.noConfusion
    · cases Option.some.inj moved
      exact LoopPc.noConfusion
  | finOpen sid =>
    simp only [loopStep,pc] at moved
    cases Option.some.inj moved
    unfold storePendingOpenFin
    split
    · exact LoopPc.noConfusion
    · split <;> exact LoopPc.noConfusion

theorem acceptLoop {i : Nat} (moved : s.acceptStep i = some t) : t.loop = s.loop := by
  unfold acceptStep at moved
  split at moved
  · contradiction
  · rename_i sid pc found
    cases pc with
    | done => contradiction
    | begin | releaseCount | remove | register =>
      cases Option.some.inj moved
      rfl
    | release =>
      dsimp only at moved
      split at moved <;> cases Option.some.inj moved <;> rfl
    | take delivered =>
      dsimp only at moved
      split at moved
      · cases Option.some.inj moved
        rfl
      · split at moved <;> cases Option.some.inj moved <;> rfl
    | mark =>
      cases Option.some.inj moved
      exact (markAside s sid).loop
    | unregister =>
      cases Option.some.inj moved
      exact (unregisterAside s sid).loop

def LoopPc.entry : LoopPc → Bool
  | .ready | .synStreams _ | .pshOpen .. | .finSynack _ | .finOpen _ | .synacked _ => true
  | _ => false

theorem frameEntry (ready : s.loop = .ready) (f : Frame) : (s.handleFrame f).loop.entry = true := by
  have here : s.loop.entry = true := by
    rw [ready]
    rfl
  cases f with
  | settings => exact here
  | psh sid payload => rfl
  | fin sid =>
    simp only [handleFrame,goto]
    split <;> rfl
  | syn sid =>
    simp only [handleFrame,goto]
    split
    · rfl
    · exact here
  | synack sid =>
    simp only [handleFrame,goto]
    split
    · split
      · rfl
      · exact here
    · exact here

theorem otherLoop (moved : step s a = some t) (other : loops a = false) :
    t.loop = s.loop ∨ s.loop = .ready ∧ (t.loop = .clear ∨ t.loop.entry = true) := by
  cases a with
  | loop answer => contradiction
  | frame f =>
    simp only [step] at moved
    split at moved
    · rename_i ready
      cases Option.some.inj moved
      exact .inr ⟨ready,.inr (frameEntry ready f)⟩
    · contradiction
  | stop =>
    simp only [step] at moved
    split at moved
    · rename_i ready
      cases Option.some.inj moved
      exact .inr ⟨ready,.inl rfl⟩
    · contradiction
  | close | openCancel sid =>
    cases Option.some.inj moved
    exact .inl rfl
  | openCheck =>
    simp only [step,openCheck] at moved
    repeat' split at moved
    all_goals first | contradiction | (cases Option.some.inj moved; exact .inl rfl)
  | openRegister sid => exact .inl (openAside moved).loop
  | acceptTake =>
    simp only [step] at moved
    split at moved
    · contradiction
    · cases Option.some.inj moved
      exact .inl rfl
  | accept i => exact .inl (acceptLoop moved)
  | unregister sid =>
    cases Option.some.inj moved
    exact .inl (unregisterAside s sid).loop
  | mark sid =>
    cases Option.some.inj moved
    exact .inl (markAside s sid).loop
  | abandon sid =>
    simp only [step] at moved
    split at moved
    · contradiction
    · cases Option.some.inj moved
      exact .inl rfl
  | prune =>
    cases Option.some.inj moved
    exact .inl (pruneAside s).loop

end Aside

section Emptied
variable {s t : Session} {a : Action} {sid : StreamId}

theorem unregisterEmpty (empty : s.streams = ∅) (sid : StreamId) : s.unregisterStream sid = s := by
  unfold unregisterStream
  rw [empty]
  rfl

theorem markEmpty (empty : s.streams = ∅) (sid : StreamId) : s.markStreamReadClosed sid = s := by
  unfold markStreamReadClosed
  rw [empty]
  rfl

theorem pruneEmpty (empty : s.streams = ∅) : s.pruneOrphanedStreams = s := by
  unfold pruneOrphanedStreams
  rw [empty]
  rfl

theorem emptyStep (moved : step s a = some t) (other : loops a = false) (here : s.loop = .zero) (empty : s.streams = ∅)
    (quiet : registers s a = none) : t.streams = ∅ ∧ t.count = s.count := by
  have still : t.streams = s.streams → t.count = s.count → t.streams = ∅ ∧ t.count = s.count :=
    fun streams count => ⟨streams.trans empty,count⟩
  cases a with
  | loop answer => contradiction
  | openRegister sid =>
    obtain ⟨u,same,⟨_,rfl⟩ | ⟨some',_⟩⟩ := openCases moved
    · rw [same,pruneEmpty empty]
      exact ⟨empty,rfl⟩
    · rw [quiet] at some'
      contradiction
  | frame f | stop =>
    simp only [step,here] at moved
    contradiction
  | close | openCancel sid =>
    cases Option.some.inj moved
    exact still rfl rfl
  | openCheck =>
    simp only [step,openCheck] at moved
    repeat' split at moved
    all_goals first | contradiction | (cases Option.some.inj moved; exact still rfl rfl)
  | acceptTake =>
    simp only [step] at moved
    split at moved
    · contradiction
    · cases Option.some.inj moved
      exact still rfl rfl
  | accept i =>
    simp only [step,acceptStep] at moved
    split at moved
    · contradiction
    · rename_i sid pc found
      cases pc with
      | done => contradiction
      | begin | releaseCount | remove =>
        cases Option.some.inj moved
        exact still rfl rfl
      | register =>
        simp only [registers,found] at quiet
        contradiction
      | release =>
        dsimp only at moved
        split at moved <;> cases Option.some.inj moved <;> exact still rfl rfl
      | take delivered =>
        dsimp only at moved
        split at moved
        · cases Option.some.inj moved
          exact still rfl rfl
        · split at moved <;> cases Option.some.inj moved <;> exact still rfl rfl
      | mark =>
        rw [markEmpty empty] at moved
        cases Option.some.inj moved
        exact still rfl rfl
      | unregister =>
        rw [unregisterEmpty empty] at moved
        cases Option.some.inj moved
        exact still rfl rfl
  | unregister sid =>
    simp only [step,unregisterEmpty empty] at moved
    cases Option.some.inj moved
    exact still rfl rfl
  | mark sid =>
    simp only [step,markEmpty empty] at moved
    cases Option.some.inj moved
    exact still rfl rfl
  | abandon sid =>
    simp only [step,empty,AList.lookup_empty] at moved
    contradiction
  | prune =>
    simp only [step,pruneEmpty empty] at moved
    cases Option.some.inj moved
    exact still rfl rfl

end Emptied

/- The counter is the number of entries that are not read-closed, except while the read
loop stands between the two halves of its teardown, and never below zero. -/
structure Exact (s : Session) : Prop where
  count : s.loop ≠ .zero → s.count = live s.streams
  emptied : s.loop = .zero → s.streams = ∅
  positive : 0 ≤ s.count

/- No registration overwrites a counted entry, and none falls between the clearing of
the map and the store of zero. -/
def alone (s : Session) (a : Action) : Bool :=
  match registers s a with
  | none => true
  | some sid => decide (s.loop ≠ .zero) && !(s.streams.lookup sid).any counted

abbrev Alone (s : Session) (a : Action) : Prop := alone s a = true

section Run
variable {s t : Session} {a : Action} {isClient : Bool} {maxStreams : Nat}

theorem exactOf (zero : t.loop ≠ .zero) (balanced : balance t = 0) : Exact t := by
  have same : t.count = live t.streams := by
    unfold balance at balanced
    omega
  exact ⟨fun _ => same,fun here => absurd here zero,by omega⟩

theorem exactStep (exact' : Exact s) (meets : Alone s a) (moved : step s a = some t) : Exact t := by
  have fresh : Fresh s a := by
    intro sid found
    simp only [Alone,alone,found,Bool.and_eq_true,Bool.not_eq_true'] at meets
    exact meets.2
  have balanced : s.loop ≠ .zero → balance s = 0 := by
    intro here
    rw [balance,exact'.count here,Int.sub_self]
  cases own : loops a with
  | false =>
    by_cases here : s.loop = .zero
    · have quiet : registers s a = none := by
        cases found : registers s a with
        | none => rfl
        | some sid =>
          simp only [Alone,alone,found,here,ne_eq,not_true_eq_false,decide_false,Bool.false_and] at meets
          contradiction
      obtain ⟨empty,count⟩ := emptyStep moved own here (exact'.emptied here) quiet
      refine ⟨?_,fun _ => empty,by rw [count]; exact exact'.positive⟩
      intro out
      rcases otherLoop moved own with same | ⟨ready,_⟩
      · exact absurd (same.trans here) out
      · rw [ready] at here
        contradiction
    · have zero : t.loop ≠ .zero := by
        rcases otherLoop moved own with same | ⟨_,clear | entry⟩
        · rw [same]
          exact here
        · rw [clear]
          exact LoopPc.noConfusion
        · intro zero
          rw [zero] at entry
          contradiction
      refine exactOf zero ?_
      rw [(stepBalance moved (by rw [own]; exact fun no => absurd no Bool.false_ne_true)).2 fresh,balanced here]
  | true =>
    cases a <;> try contradiction
    rename_i answer
    by_cases clear : s.loop = .clear
    · simp only [step,loopStep,clear] at moved
      cases Option.some.inj moved
      exact ⟨fun out => absurd rfl out,fun _ => rfl,exact'.positive⟩
    · by_cases zero : s.loop = .zero
      · simp only [step,loopStep,zero] at moved
        cases Option.some.inj moved
        refine ⟨fun _ => ?_,fun here => by contradiction,Int.le_refl 0⟩
        have empty : live s.streams = 0 := by
          rw [exact'.emptied zero]
          rfl
        show (0 : Int) = (live s.streams : Int)
        rw [empty]
        rfl
      · refine exactOf ?_ ?_
        · exact loopZero moved clear
        · rw [(stepBalance moved (fun _ => ⟨clear,zero⟩)).2 fresh,balanced zero]

theorem capacityExact (run : Run Alone isClient maxStreams s) :
    (s.loop ≠ .zero → s.count = live s.streams) ∧ 0 ≤ s.count := by
  have exact' : Exact s := by
    refine Machine.reachInvariant ?_ ?_ run
    · exact ⟨fun _ => rfl,fun here => by contradiction,Int.le_refl 0⟩
    · intro s a t exact' meets moved
      exact exactStep exact' meets moved
  exact ⟨exact'.count,exact'.positive⟩

end Run

def opensAndEnds : List Action :=
  [.openCheck,.openRegister 1,.openCheck,.openRegister 2,.mark 1,.stop,.loop true,.unregister 2,.loop true,.loop true]

theorem capacityExactAtEnd : ∃ s, Run Alone true 8 s ∧ s.loop = .done ∧ s.count = live s.streams ∧ 0 ≤ s.count := by
  have ran : (Machine.checked step Alone (start true 8) opensAndEnds).any (fun s => decide (s.loop = .done)) = true := rfl
  obtain ⟨s,run,here⟩ := Machine.checkedReaches ran
  have done := of_decide_eq_true here
  obtain ⟨count,positive⟩ := capacityExact run
  exact ⟨s,run,done,count (by rw [done]; exact LoopPc.noConfusion),positive⟩

/- `open_stream` has passed its check when the session ends, and registers between the
clearing of the map and the store of zero. -/
def opensBetween : List Action :=
  [.openCheck,.stop,.loop true,.openRegister 1,.loop true,.loop true]

theorem openBetweenLost : ∃ s, Run Machine.Always true 8 s ∧ s.loop = .done ∧ s.count ≠ live s.streams ∧
    ∃ t, step s (.unregister 1) = some t ∧ t.count < 0 := by
  have ran : (Machine.checked step Machine.Always (start true 8) opensBetween).any (fun s : Session =>
      decide (s.loop = .done) && decide (s.count ≠ (live s.streams : Int)) && decide ((s.unregisterStream 1).count < 0)) = true :=
    rfl
  obtain ⟨s,run,here⟩ := Machine.checkedReaches ran
  simp only [Bool.and_eq_true,decide_eq_true_eq] at here
  exact ⟨s,run,here.1.1,here.1.2,_,rfl,here.2⟩

end KanoTls.Registry
