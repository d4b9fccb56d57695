import KanoTls.PoolGrowth
import Mathlib.Tactic.Ring

/-! The replenisher of the pool's machine, left alone from the moment it has the lock, and one
call of `replenish_locked` on the snapshot that it takes. -/
namespace KanoTls.Pool
open Number (usizeMax)
open Outcome (saturatingAdd)

def Replenishing (_ : State) (a : Action) : Prop :=
  a ∈ [Action.count,.loadPending,.loadWaiters,.recount,.reload,.spawn]

abbrev Replenishes (s t : State) : Prop := Machine.Reach step Replenishing s t

/- A snapshot of what the machine holds, of which no sum passes a `usize`. -/
structure Taken (s : State) (n : Snapshot) : Prop where
  target : n.limits.targetPoolSize = s.config.targetPoolSize
  live : n.limits.maxLiveConnections = s.config.maxLiveConnections
  initial : n.limits.initialConnectionCount = s.config.initialConnectionCount
  streams : n.limits.maxStreamsPerSession = s.config.maxStreamsPerSession
  connections : n.connections = s.connections
  waiters : n.waiters = s.waiters
  pending : (n.pending : Int) = s.pending
  sums : n.waiters + (n.connections.map inUse).sum + n.limits.streamsPerConnectionTarget ≤ usizeMax

section
variable {s : State} {n : Snapshot}

theorem pendingPlain {pending : Int} (counted : 0 ≤ pending) : pendingSpawns pending = pending.toNat := by
  rw [pendingSpawns,if_neg (by omega)]

theorem Taken.plain (taken : Taken s n) : pendingSpawns s.pending = n.pending := by
  have same := taken.pending
  rw [pendingPlain (by omega)]
  omega

theorem spawnRun (count later : Nat) (here : s.replenish = .spawning (count + 1) later) :
    ∃ t, Replenishes s t ∧ t.replenish = next later ∧ t.pending = s.pending + (count + 1 : Nat) ∧
      t.connections = s.connections ∧ t.config = s.config := by
  induction count generalizing s with
  | zero =>
    refine ⟨_,.next .start (by simp [Replenishing]) (show step s .spawn = some _ by simp only [step,here]; rfl),?_⟩
    exact ⟨rfl,rfl,rfl,rfl⟩
  | succ count ih =>
    have moved : step s .spawn = some {s with
        pending := s.pending + 1,spawns := s.spawns ++ [.connecting],replenish := .spawning (count + 1) later} := by
      simp [step,here]
    obtain ⟨t,reach,there,pending,same,config⟩ := @ih {s with
      pending := s.pending + 1,spawns := s.spawns ++ [.connecting],replenish := .spawning (count + 1) later} rfl
    refine ⟨t,Machine.reachAfter (.next .start (by simp [Replenishing]) moved) reach,there,?_,same,config⟩
    rw [pending]
    push_cast
    ring

theorem scheduleRun {count later : Nat} (here : s.replenish = .recount count later) (positive : 0 < count)
    (counted : 0 ≤ s.pending)
    (room : (liveCount s : Int) + s.pending + count ≤ s.config.maxLiveConnections) :
    ∃ t, Replenishes s t ∧ t.replenish = next later ∧ t.pending = s.pending + (count : Nat) ∧
      t.connections = s.connections ∧ t.config = s.config := by
  obtain ⟨count,rfl⟩ : ∃ k, count = k + 1 := ⟨count - 1,by omega⟩
  have recounted : step s .recount = some {s with replenish := .reload (count + 1) later (liveCount s)} := by
    simp only [step,here]
  have reloaded : step {s with replenish := .reload (count + 1) later (liveCount s)} .reload =
      some {s with replenish := .spawning (count + 1) later} := by
    have whole : min (count + 1) (s.config.maxLiveConnections - (liveCount s + pendingSpawns s.pending)) = count + 1 := by
      rw [pendingPlain counted]
      omega
    simp only [step,whole]
    rfl
  obtain ⟨t,reach,rest⟩ := @spawnRun {s with replenish := .spawning (count + 1) later} count later rfl
  refine ⟨t,Machine.reachAfter (.next (.next .start ?_ recounted) ?_ reloaded) reach,rest⟩ <;> simp [Replenishing]

theorem callsRun {count later : Nat} (here : s.replenish = .recount count later) (positive : 0 < count)
    (counted : 0 ≤ s.pending)
    (room : (liveCount s : Int) + s.pending + (count + later) ≤ s.config.maxLiveConnections) :
    ∃ t, Replenishes s t ∧ t.replenish = .idle ∧ t.pending = s.pending + (count + later) ∧
      t.connections = s.connections ∧ t.config = s.config := by
  obtain ⟨t,first,there,added,connections,config⟩ := scheduleRun here positive counted (by omega)
  by_cases last : later = 0
  · subst last
    exact ⟨t,first,there,by omega,connections,config⟩
  · rw [next,if_neg last] at there
    have live : liveCount t = liveCount s := by rw [liveCount,connections,liveCount]
    obtain ⟨u,second,idle,more,same,limits⟩ := scheduleRun there (Nat.pos_of_ne_zero last) (by omega)
      (by rw [live,config]; omega)
    exact ⟨u,Machine.reachAfter first second,idle,by omega,same.trans connections,limits.trans config⟩

theorem desiredTaken (taken : Taken s n) (active : Nat) :
    n.limits.desiredActiveConnectionCount n.waiters active (min (n.connections.map inUse).sum usizeMax) =
      desiredActiveConnectionCount s.config s.waiters active (streamsInUse s) := by
  have sums := taken.sums
  have positive := @targetPositive n.limits
  have target : n.limits.streamsPerConnectionTarget = s.config.streamsPerConnectionTarget := by
    rw [Limits.streamsPerConnectionTarget,taken.streams,Config.streamsPerConnectionTarget]
  have demand : saturatingAdd usizeMax
      (max (saturatingAdd usizeMax n.waiters (min (n.connections.map inUse).sum usizeMax)) 1)
      (n.limits.streamsPerConnectionTarget - 1) =
      max (n.waiters + (n.connections.map inUse).sum) 1 + (n.limits.streamsPerConnectionTarget - 1) := by
    unfold saturatingAdd
    omega
  unfold Limits.desiredActiveConnectionCount desiredActiveConnectionCount streamsInUse
  dsimp only
  rw [demand,target,taken.target,taken.waiters,taken.connections]

theorem missingTaken (taken : Taken s n) : missing n =
    min (desiredActiveConnectionCount s.config s.waiters (activeCount s) (streamsInUse s) -
        (activeCount s + pendingSpawns s.pending))
      (s.config.maxLiveConnections - (liveCount s + pendingSpawns s.pending)) := by
  unfold missing
  dsimp only
  rw [desiredTaken taken,taken.live,taken.connections,taken.plain]
  rfl

theorem planRuns (here : s.replenish = .locked) :
    Replenishes s {s with replenish := plan s (activeCount s) (liveCount s) (streamsInUse s) s.pending} := by
  have counted : step s .count = some {s with replenish := .counted (activeCount s) (liveCount s) (streamsInUse s)} := by
    simp only [step,here,if_true]
  have loaded : step {s with replenish := .counted (activeCount s) (liveCount s) (streamsInUse s)} .loadPending =
      some {s with replenish := .loaded (activeCount s) (liveCount s) (streamsInUse s) s.pending} := rfl
  have planned : step {s with replenish := .loaded (activeCount s) (liveCount s) (streamsInUse s) s.pending} .loadWaiters =
      some {s with replenish := plan s (activeCount s) (liveCount s) (streamsInUse s) s.pending} := rfl
  refine .next (.next (.next .start ?_ counted) ?_ loaded) ?_ planned <;> simp [Replenishing]

theorem callRuns (gap : Nat → Nat) (taken : Taken s n) (here : s.replenish = .locked) :
    ∃ t, Replenishes s t ∧ t.replenish = .idle ∧ t.pending = (replenishLocked gap n).pending ∧
      t.connections = s.connections ∧ t.config = s.config := by
  have reach := planRuns here
  have pending : (replenishLocked gap n).pending = n.pending + missing n := (replenishAdds n).pending
  have same := taken.pending
  have asked := missingTaken taken
  have capped : missing n ≤ s.config.maxLiveConnections - (liveCount s + pendingSpawns s.pending) := by
    rw [asked]
    exact Nat.min_le_right _ _
  unfold plan at reach
  dsimp only at reach
  rw [← asked] at reach
  rw [taken.plain] at reach capped
  split at reach
  · exact ⟨_,reach,rfl,by dsimp only; omega,rfl,rfl⟩
  · have calls : ∀ {count later : Nat}, 0 < count → count + later = missing n →
        Replenishes s {s with replenish := .recount count later} →
        ∃ t, Replenishes s t ∧ t.replenish = .idle ∧ t.pending = (replenishLocked gap n).pending ∧
          t.connections = s.connections ∧ t.config = s.config := by
      intro count later positive whole reach
      obtain ⟨t,rest,idle,added,kept⟩ := @callsRun {s with replenish := .recount count later} count later rfl positive
        (by dsimp only; omega) (by dsimp only [liveCount] at capped ⊢; omega)
      exact ⟨t,Machine.reachAfter reach rest,idle,by rw [added]; dsimp only; omega,kept⟩
    split at reach
    · exact calls (by omega) (by omega) reach
    · exact calls (by omega) (Nat.add_zero _) reach

end

end KanoTls.Pool
