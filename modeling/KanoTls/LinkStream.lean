import KanoTls.LinkCredit

/-! Stream credit between two sessions, in the direction that ends at `q`. A payload
that is dropped, an increment for a stream that is gone and a charged write that is
given up take credit away for good; a write that is not charged adds some. -/
namespace KanoTls.Link
open Pending Window Tasks Side

def keeps (q : Bool) (sid : StreamId) (s : State) : Action → Bool
  | .receive p kept _ =>
    match (s (!p)).wire with
    | .psh on payload::_ => !(p == q && on == sid) || kept || payload.isEmpty
    | .windowUpdate on _::_ => !(p == !q && on == sid) || (s p).registered sid
    | _ => true
  | .own p (.gate (.cancel i)) =>
    !(p == !q) || !(s p).gate.tasks[i]?.any (fun a => a.pc == .released && a.sid == sid)
  | _ => true

def chargesOn (q : Bool) (sid : StreamId) (s : State) : Action → Bool
  | .own p (.submit i _ _ _) => !(p == !q) || (s p).gate.tasks[i]?.all (fun a => a.pc == .released || a.sid != sid)
  | _ => true

structure Lossless (q : Bool) (sid : StreamId) (s : State) : Prop where
  dropped : (s q).dropped sid = 0
  ignored : (s (!q)).ignored sid = 0
  abandons : (s (!q)).gate.bytesOn GatePc.abandons sid = 0

section Lossless
variable {s t : State} {a : Action} {q p : Bool} {x y : Side} {sid : StreamId} {l : LocalAction}

theorem localLost (moved : ReaderMove x l y) : y.dropped = x.dropped ∧ y.ignored = x.ignored := by
  cases moved with
  | same quiet same => exact ⟨same.dropped,same.ignored⟩
  | take here => exact ⟨rfl,rfl⟩
  | note stream room counted => exact ⟨enqueueDropped _ _ _,enqueueIgnored _ _ _⟩

theorem frameDropped {kept accepted m} (moved : FrameMove x kept accepted m y)
    (ok : ∀ payload, m = .psh sid payload → kept = true ∨ payload = []) : y.dropped sid = x.dropped sid := by
  cases moved with
  | @psh on payload count frames counted =>
    cases kept
    · simp only [store,cond_false,enqueueDropped]
      by_cases mine : sid = on
      · subst mine
        rcases ok payload rfl with impossible | rfl
        · contradiction
        · rw [Function.update_self]
          rfl
      · rw [Function.update_of_ne mine]
    · simp [store]
  | gate reads stepped => rfl
  | gone stream gone => rfl
  | other => rfl

theorem frameIgnored {kept accepted m} (moved : FrameMove x kept accepted m y)
    (ok : ∀ increment, m = .windowUpdate sid increment → x.registered sid = true) : y.ignored sid = x.ignored sid := by
  cases moved with
  | psh counted => simp
  | gate reads stepped => rfl
  | @gone on increment stream gone =>
    by_cases mine : sid = on
    · subst mine
      exact absurd (gone.symm.trans (ok increment rfl)) (by simp)
    · exact Function.update_of_ne mine _ _
  | other => rfl

theorem abandonsOwn {b} {g gate : Gate} (moved : OwnMove g b gate)
    (ok : ∀ i a, b = .cancel i → g.tasks[i]? = some a → a.pc = .released → a.sid ≠ sid)
    (none : g.bytesOn GatePc.abandons sid = 0) : gate.bytesOn GatePc.abandons sid = 0 := by
  have tasks := moved.tasks
  unfold Gate.bytesOn at none ⊢
  generalize gate.tasks = new at tasks
  cases tasks with
  | quiet => exact none
  | told f same =>
    refine (totalMap _ (fun b => ?_)).trans none
    rw [Acquirer.bytesOn,Acquirer.bytesOn,(same b).1,(same b).2.1,(same b).2.2]
  | @turn i a b found same undone early passes bypasses drops waits =>
    have before : a.bytesOn GatePc.abandons sid ≤ 0 := by
      rw [← none]
      exact weightLeTotal bytesOnNonneg (List.mem_of_getElem? found)
    have zero : b.bytesOn GatePc.abandons sid = 0 := by
      unfold Acquirer.bytesOn
      cases pc : b.pc <;> try rfl
      obtain ⟨cancels,released⟩ := drops pc
      have away := ok i a cancels found released
      rw [same.1]
      simp [GatePc.abandons,beq_eq_false_iff_ne.mpr away]
    have positive : 0 ≤ a.bytesOn GatePc.abandons sid := bytesOnNonneg a
    rw [totalSet _ found,none,zero]
    omega

theorem abandonsKept {b} {gate : Gate} (causes : Causes s p a b) (moved : Window.step (s p).gate b = some gate)
    (ok : ∀ i task, a = .own p (.gate (.cancel i)) → (s p).gate.tasks[i]? = some task → task.pc = .released → task.sid ≠ sid)
    (none : (s p).gate.bytesOn GatePc.abandons sid = 0) : gate.bytesOn GatePc.abandons sid = 0 := by
  cases causes with
  | own own =>
    refine abandonsOwn (ownMoves own moved) ?_ none
    rintro i task rfl found released
    exact ok i task rfl found released
  | write =>
    obtain ⟨pc,opens,rfl⟩ := writeMoves moved
    show total _ (_ ++ [_]) = _
    rw [totalPush]
    cases opens <;> exact (Int.add_zero _).trans none
  | @submit i =>
    obtain ⟨task,found,_⟩ := Option.bind_eq_some_iff.mp moved
    obtain ⟨_,pc,turns,rfl⟩ := submitMoves found moved
    have same : task.bytesOn GatePc.abandons sid = 0 ∧
        Acquirer.bytesOn GatePc.abandons sid {task with pc := pc} = 0 := by
      unfold Acquirer.bytesOn
      generalize task.pc = old at turns
      cases turns <;> exact ⟨rfl,rfl⟩
    show total _ (List.set _ _ _) = _
    rw [totalSet _ found,same.1,same.2]
    unfold Gate.bytesOn at none
    omega
  | frame wire reads =>
    rw [Gate.bytesOn,readsTasks reads moved]
    exact none

theorem losslessKept (lossless : Lossless q sid s) (ok : keeps q sid s a = true) (moved : step s a = some t) :
    Lossless q sid t := by
  refine ⟨?_,?_,?_⟩
  · cases linkMoves moved with
    | @own p l y here =>
      rcases Bool.eq_or_eq_not q p with rfl | rfl
      · rw [Function.update_self,(localLost (readerMoves here)).1]
        exact lossless.dropped
      · rw [updatePeer]
        exact lossless.dropped
    | @receive p kept accepted m rest y wire here =>
      rcases Bool.eq_or_eq_not q p with rfl | rfl
      · rw [Function.update_self,frameDropped (frameMoves here)]
        · exact lossless.dropped
        · rintro payload rfl
          simpa [keeps,wire] using ok
      · rw [updatePeer,Function.update_self]
        exact lossless.dropped
  · cases linkMoves moved with
    | @own p l y here =>
      rcases Bool.eq_or_eq_not q p with rfl | rfl
      · rw [updatePeer]
        exact lossless.ignored
      · have was := lossless.ignored
        rw [Bool.not_not] at was ⊢
        rw [Function.update_self,(localLost (readerMoves here)).2]
        exact was
    | @receive p kept accepted m rest y wire here =>
      rcases Bool.eq_or_eq_not q p with rfl | rfl
      · rw [updatePeer,Function.update_self]
        exact lossless.ignored
      · have was := lossless.ignored
        rw [Bool.not_not] at was ⊢
        rw [Function.update_self,frameIgnored (frameMoves here)]
        · exact was
        · rintro increment rfl
          simpa [keeps,wire] using ok
  · rcases gateMoves moved (!q) with same | ⟨b,causes,stepped⟩
    · rw [same]
      exact lossless.abandons
    · refine abandonsKept causes stepped ?_ lossless.abandons
      rintro i task rfl found released mine
      simp [keeps,found,released,mine] at ok

theorem unchargedOnKept {b} {gate : Gate} (causes : Causes s p a b) (moved : Window.step (s p).gate b = some gate)
    (ok : ∀ i target data control task, a = .own p (.submit i target data control) → (s p).gate.tasks[i]? = some task →
      task.pc = .released ∨ task.sid ≠ sid)
    (none : (s p).gate.bytesOn GatePc.uncharged sid = 0) : gate.bytesOn GatePc.uncharged sid = 0 := by
  have weight := sentWeightBytesOn unchargedWithin sid
  cases causes with
  | own own => exact (totalOwn weight (ownMoves own moved).tasks).trans none
  | write =>
    obtain ⟨pc,opens,rfl⟩ := writeMoves moved
    show total _ (_ ++ [_]) = _
    rw [totalPush,weight.undone (opensUndone opens),Int.add_zero]
    exact none
  | @submit i target data queue =>
    obtain ⟨task,found,_⟩ := Option.bind_eq_some_iff.mp moved
    obtain ⟨_,pc,turns,rfl⟩ := submitMoves found moved
    have charged := ok i target data queue task rfl found
    have same : task.bytesOn GatePc.uncharged sid = 0 ∧
        Acquirer.bytesOn GatePc.uncharged sid {task with pc := pc} = 0 := by
      unfold Acquirer.bytesOn
      rcases charged with released | away
      · rw [released] at turns ⊢
        cases turns
        exact ⟨rfl,rfl⟩
      · simp [beq_eq_false_iff_ne.mpr away]
    show total _ (List.set _ _ _) = _
    rw [totalSet _ found,same.1,same.2]
    unfold Gate.bytesOn at none
    omega
  | frame wire reads =>
    rw [Gate.bytesOn,readsTasks reads moved]
    exact none

end Lossless

end KanoTls.Link
