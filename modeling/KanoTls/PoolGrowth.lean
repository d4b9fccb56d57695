import KanoTls.Pool
import KanoTls.Outcome
import KanoTls.Number

/-! One call of `replenish_locked` on what it finds: how many connections the waiting
callers and the open streams ask for, and the tasks it spawns for them. -/
namespace KanoTls.Pool
open Number (usizeMax u64Max)
open Outcome (saturatingAdd)

structure Limits where
  targetPoolSize : Nat
  maxLiveConnections : Nat
  initialConnectionCount : Nat
  maxStreamsPerSession : Nat
  isUsize : maxStreamsPerSession ≤ usizeMax

def Limits.streamsPerConnectionTarget (l : Limits) : Nat := max l.maxStreamsPerSession 1

def Limits.desiredActiveConnectionCount (l : Limits) (waiters active streams : Nat) : Nat :=
  if waiters = 0 then 0
  else
    let target := l.streamsPerConnectionTarget
    let demand := max (saturatingAdd usizeMax waiters streams) 1
    let desired := saturatingAdd usizeMax demand (target - 1)/target
    if active = 0 then min (min desired 1) l.targetPoolSize else min desired l.targetPoolSize

structure Tally where
  active : Nat := 0
  live : Nat := 0
  streams : Nat := 0

def tally (t : Tally) (c : Connection) : Tally :=
  if c.state = .closed ∨ c.alive = false then t
  else
    let t := {t with live := t.live + 1}
    if c.closing then t
    else
      let t := {t with streams := saturatingAdd usizeMax t.streams c.streams}
      if c.state = .active then {t with active := t.active + 1} else t

/- What a call finds. Every connection and every pending task is an allocation of its own,
so that the sums of their counts fit a `usize`. -/
structure Snapshot where
  limits : Limits
  connections : List Connection := []
  waiters : Nat := 0
  pending : Nat := 0
  nextSpawnSlot : Nat := 0
  countsFit : connections.length + pending ≤ usizeMax

/- What it leaves: the two counters, and the delay of every task it spawned. -/
structure Spawned where
  pending : Nat
  nextSpawnSlot : Nat
  delays : List Nat := []
  deriving DecidableEq, Repr

/- `staggered_delays`: the gaps before the slots add up. A gap is drawn from the seed of its
slot. -/
def staggeredDelays (gap : Nat → Nat) (slot total : Nat) : Nat → List Nat
  | 0 => []
  | count + 1 =>
    let total := saturatingAdd u64Max total (gap slot)
    total::staggeredDelays gap (slot + 1) total count

def spawn (s : Spawned) (delay : Nat) : Spawned := {s with pending := s.pending + 1,delays := s.delays ++ [delay]}

section
variable (gap : Nat → Nat) (l : Limits) (connections : List Connection)

def scheduleSpawnsLocked (s : Spawned) (count : Nat) (staggered : Bool) : Spawned :=
  if count = 0 then s
  else
    let capacity := l.maxLiveConnections - (connections.countP live + s.pending)
    let count := min count capacity
    if count = 0 then s
    else if staggered then
      let slot := (s.nextSpawnSlot + count) % (u64Max + 1)
      (staggeredDelays gap s.nextSpawnSlot 0 count).foldl spawn {s with nextSpawnSlot := slot}
    else (List.replicate count 0).foldl spawn s

def replenishLocked (s : Snapshot) : Spawned :=
  let found := s.connections.foldl tally {}
  let unchanged : Spawned := {pending := s.pending,nextSpawnSlot := s.nextSpawnSlot}
  let desired := s.limits.desiredActiveConnectionCount s.waiters found.active found.streams
  if desired = 0 then unchanged
  else if desired ≤ found.active + s.pending then unchanged
  else
    let missingActive := desired - (found.active + s.pending)
    let missingLive := s.limits.maxLiveConnections - (found.live + s.pending)
    let missing := min missingActive missingLive
    if missing = 0 then unchanged
    else if found.live + s.pending = 0 then
      let immediate := min missing (max s.limits.initialConnectionCount 1)
      let first := scheduleSpawnsLocked gap s.limits s.connections unchanged immediate false
      let delayed := missing - immediate
      if delayed = 0 then first else scheduleSpawnsLocked gap s.limits s.connections first delayed true
    else scheduleSpawnsLocked gap s.limits s.connections unchanged missing true

end

def missing (s : Snapshot) : Nat :=
  let active := s.connections.countP active
  let desired := s.limits.desiredActiveConnectionCount s.waiters active (min (s.connections.map inUse).sum usizeMax)
  min (desired - (active + s.pending)) (s.limits.maxLiveConnections - (s.connections.countP live + s.pending))

section
variable {gap : Nat → Nat} {l : Limits} {connections : List Connection}

theorem tallyAdds (t : Tally) (c : Connection) : tally t c =
    {active := t.active + (if active c then 1 else 0),live := t.live + (if live c then 1 else 0),
     streams := if open' c then min (t.streams + c.streams) usizeMax else t.streams} := by
  cases c with
  | mk state alive closing streams =>
    cases state <;> cases alive <;> cases closing <;> simp [tally,active,open',live,saturatingAdd]

theorem tallied (cs : List Connection) (t : Tally) (fits : t.streams ≤ usizeMax) : cs.foldl tally t =
    {active := t.active + cs.countP active,live := t.live + cs.countP live,
     streams := min (t.streams + (cs.map inUse).sum) usizeMax} := by
  induction cs generalizing t with
  | nil => simp [Nat.min_eq_left fits]
  | cons c cs ih =>
    rw [List.foldl_cons,tallyAdds,ih _ (by dsimp only; split <;> omega)]
    simp only [List.countP_cons,List.map_cons,List.sum_cons,inUse,Tally.mk.injEq]
    refine ⟨by omega,by omega,?_⟩
    split <;> omega

theorem spawnedAll (delays : List Nat) (s : Spawned) : delays.foldl spawn s =
    {s with pending := s.pending + delays.length,delays := s.delays ++ delays} := by
  induction delays generalizing s with
  | nil => simp
  | cons delay delays ih =>
    rw [List.foldl_cons,ih]
    simp only [spawn,List.length_cons,List.append_assoc,List.singleton_append,Spawned.mk.injEq,and_true]
    omega

theorem staggeredLength (slot total count : Nat) : (staggeredDelays gap slot total count).length = count := by
  induction count generalizing slot total with
  | zero => rfl
  | succ count ih => simp only [staggeredDelays,List.length_cons,ih]

structure Adds (s t : Spawned) (n : Nat) : Prop where
  pending : t.pending = s.pending + n
  tasks : t.delays.length = s.delays.length + n

theorem Adds.then {s t u : Spawned} {m n : Nat} (first : Adds s t m) (second : Adds t u n) : Adds s u (m + n) :=
  ⟨by rw [second.pending,first.pending,Nat.add_assoc],by rw [second.tasks,first.tasks,Nat.add_assoc]⟩

theorem scheduleAdds (s : Spawned) (count : Nat) (staggered : Bool) :
    Adds s (scheduleSpawnsLocked gap l connections s count staggered)
      (min count (l.maxLiveConnections - (connections.countP live + s.pending))) := by
  unfold scheduleSpawnsLocked
  split
  · rename_i none
    subst none
    rw [Nat.zero_min]
    exact ⟨rfl,rfl⟩
  · dsimp only
    split
    · rename_i full
      rw [full]
      exact ⟨rfl,rfl⟩
    · split
      · rw [spawnedAll]
        exact ⟨by simp only [staggeredLength],by simp only [List.length_append,staggeredLength]⟩
      · rw [spawnedAll]
        exact ⟨by simp only [List.length_replicate],by simp only [List.length_append,List.length_replicate]⟩

theorem scheduleAll {s : Spawned} {count : Nat} (staggered : Bool)
    (room : connections.countP live + s.pending + count ≤ l.maxLiveConnections) :
    Adds s (scheduleSpawnsLocked gap l connections s count staggered) count := by
  have adds := @scheduleAdds gap l connections s count staggered
  rwa [Nat.min_eq_left (by omega)] at adds

/- A cold start makes two calls; the second one finds the room that the first one left. -/
theorem replenishAdds (s : Snapshot) :
    Adds {pending := s.pending,nextSpawnSlot := s.nextSpawnSlot} (replenishLocked gap s) (missing s) := by
  unfold replenishLocked missing
  rw [tallied s.connections {} (Nat.zero_le _)]
  simp only [Nat.zero_add]
  generalize s.limits.desiredActiveConnectionCount s.waiters _ _ = desired
  split
  · rename_i none
    rw [none,Nat.zero_sub,Nat.zero_min]
    exact ⟨rfl,rfl⟩
  · split
    · rename_i enough
      rw [Nat.sub_eq_zero_of_le enough,Nat.zero_min]
      exact ⟨rfl,rfl⟩
    · have capped := Nat.min_le_right (desired - (s.connections.countP active + s.pending))
        (s.limits.maxLiveConnections - (s.connections.countP live + s.pending))
      revert capped
      generalize min (desired - _) _ = missing
      intro capped
      split
      · rename_i none
        rw [none]
        exact ⟨rfl,rfl⟩
      · split
        · rename_i cold
          generalize split : min missing (max s.limits.initialConnectionCount 1) = immediate
          have first := @scheduleAll gap s.limits s.connections
            {pending := s.pending,nextSpawnSlot := s.nextSpawnSlot} immediate false (by dsimp only; omega)
          split
          · rename_i whole
            have same : immediate = missing := by omega
            rwa [same] at first ⊢
          · have second := @scheduleAll gap s.limits s.connections _ (missing - immediate) true
              (by rw [first.pending]; dsimp only; omega)
            have both := first.then second
            rwa [show immediate + (missing - immediate) = missing by omega] at both
        · exact scheduleAll true (by dsimp only; omega)

theorem fullUse {most : Nat} (full : ∀ c ∈ connections, active c = true → most ≤ c.streams) :
    connections.countP active*most ≤ (connections.map inUse).sum := by
  induction connections with
  | nil => simp
  | cons c cs ih =>
    have rest := ih (fun d member => full d (List.mem_cons_of_mem _ member))
    rw [List.countP_cons,List.map_cons,List.sum_cons,Nat.add_mul]
    by_cases here : active c = true
    · have used : inUse c = c.streams := if_pos (Bool.and_eq_true_iff.mp here).1
      have least := full c List.mem_cons_self here
      rw [if_pos here,used]
      omega
    · rw [if_neg here]
      omega

theorem desiredCapped (waiters active streams : Nat) :
    l.desiredActiveConnectionCount waiters active streams ≤ l.targetPoolSize := by
  unfold Limits.desiredActiveConnectionCount
  split
  · exact Nat.zero_le _
  · dsimp only
    split <;> exact Nat.min_le_right _ _

theorem targetPositive : 0 < l.streamsPerConnectionTarget := Nat.le_max_right _ _

theorem desiredMore {waiters active streams : Nat} (waited : 1 ≤ waiters) (below : active < l.targetPoolSize)
    (fits : (active + 1)*l.streamsPerConnectionTarget ≤ usizeMax)
    (full : active*l.streamsPerConnectionTarget ≤ streams) :
    active < l.desiredActiveConnectionCount waiters active (min streams usizeMax) := by
  have demand : (active + 1)*l.streamsPerConnectionTarget ≤
      saturatingAdd usizeMax (max (saturatingAdd usizeMax waiters (min streams usizeMax)) 1)
        (l.streamsPerConnectionTarget - 1) := by
    have positive := @targetPositive l
    rw [Nat.add_mul,Nat.one_mul] at fits ⊢
    unfold saturatingAdd
    omega
  have more := (Nat.le_div_iff_mul_le targetPositive).mpr demand
  unfold Limits.desiredActiveConnectionCount
  rw [if_neg (by omega)]
  dsimp only
  split <;> omega

theorem desiredEnough {waiters active streams : Nat} (present : 0 < active)
    (fits : waiters + streams ≤ active*l.streamsPerConnectionTarget) :
    l.desiredActiveConnectionCount waiters active (min streams usizeMax) ≤ active := by
  have positive := @targetPositive l
  have least := Nat.mul_le_mul present positive
  have demand : saturatingAdd usizeMax (max (saturatingAdd usizeMax waiters (min streams usizeMax)) 1)
      (l.streamsPerConnectionTarget - 1) < (active + 1)*l.streamsPerConnectionTarget := by
    rw [Nat.add_mul,Nat.one_mul]
    unfold saturatingAdd
    omega
  have less := (Nat.div_lt_iff_lt_mul targetPositive).mpr demand
  unfold Limits.desiredActiveConnectionCount
  split
  · exact Nat.zero_le _
  · dsimp only
    split <;> omega

end

/- Callers wait, no task is on its way, and no connection takes another stream. -/
structure Starved (s : Snapshot) : Prop where
  waited : 1 ≤ s.waiters
  none : s.pending = 0
  full : ∀ c ∈ s.connections, active c = true → s.limits.maxStreamsPerSession ≤ c.streams
  below : s.connections.countP active < s.limits.targetPoolSize
  room : s.connections.countP live < s.limits.maxLiveConnections

/- A limit that a session can have, with as many streams of one more connection as a `usize`
counts. -/
def Sized (s : Snapshot) : Prop :=
  s.connections.countP active = 0 ∨
    1 ≤ s.limits.maxStreamsPerSession ∧ (s.connections.countP active + 1)*s.limits.maxStreamsPerSession ≤ usizeMax

section
variable {s : Snapshot}

theorem starvedMissing (starved : Starved s) (sized : Sized s) : 0 < missing s := by
  have room := starved.room
  have more : s.connections.countP active < s.limits.desiredActiveConnectionCount s.waiters
      (s.connections.countP active) (min (s.connections.map inUse).sum usizeMax) := by
    rcases sized with none | ⟨limited,fits⟩
    · rw [none]
      refine desiredMore starved.waited (by have := starved.below; omega) ?_ (by simp)
      have usize := s.limits.isUsize
      unfold Limits.streamsPerConnectionTarget
      have one : 1 ≤ usizeMax := by decide
      omega
    · have same : s.limits.streamsPerConnectionTarget = s.limits.maxStreamsPerSession := Nat.max_eq_left limited
      refine desiredMore starved.waited starved.below ?_ ?_
      · rwa [same]
      · rw [same]
        exact fullUse starved.full
  unfold missing
  dsimp only
  rw [starved.none]
  omega

theorem servedMissing (present : 0 < s.connections.countP active)
    (fits : s.waiters + (s.connections.map inUse).sum ≤ s.connections.countP active*s.limits.maxStreamsPerSession) :
    missing s = 0 := by
  have wider := Nat.mul_le_mul_left (s.connections.countP active) (Nat.le_max_left s.limits.maxStreamsPerSession 1)
  have enough := desiredEnough present (fits.trans wider)
  unfold missing
  dsimp only
  omega

/- Demand opens connections, and both caps hold: a pool that cannot serve its callers grows,
one that can does not, and the growth ends at the sizes it was given. -/
theorem growthFollowsDemand (gap : Nat → Nat) (s : Snapshot) :
    (Starved s → Sized s → (replenishLocked gap s).delays ≠ []) ∧
    (0 < s.connections.countP active →
      s.waiters + (s.connections.map inUse).sum ≤ s.connections.countP active*s.limits.maxStreamsPerSession →
      (replenishLocked gap s).delays = []) ∧
    (replenishLocked gap s).pending = s.pending + (replenishLocked gap s).delays.length ∧
    s.connections.countP active + (replenishLocked gap s).pending ≤
      max (s.connections.countP active + s.pending) s.limits.targetPoolSize ∧
    s.connections.countP live + (replenishLocked gap s).pending ≤
      max (s.connections.countP live + s.pending) s.limits.maxLiveConnections := by
  have adds := @replenishAdds gap s
  have tasks : (replenishLocked gap s).delays.length = missing s := by
    rw [adds.tasks]
    exact Nat.zero_add _
  refine ⟨?_,?_,?_,?_,?_⟩
  · intro starved sized
    rw [← List.length_pos_iff,tasks]
    exact starvedMissing starved sized
  · intro present fits
    rw [← List.length_eq_zero_iff,tasks]
    exact servedMissing present fits
  · rw [adds.pending,tasks]
  · have capped := @desiredCapped s.limits s.waiters (s.connections.countP active)
      (min (s.connections.map inUse).sum usizeMax)
    rw [adds.pending]
    unfold missing
    dsimp only
    omega
  · rw [adds.pending]
    unfold missing
    dsimp only
    omega

end

def sessionLimits (streams : Nat) (usize : streams ≤ usizeMax) : Limits :=
  {targetPoolSize := 2,maxLiveConnections := 3,initialConnectionCount := 1,maxStreamsPerSession := streams,
   isUsize := usize}

theorem streamsUsize : 256 ≤ usizeMax := by decide
theorem pairUsize : 2 ≤ usizeMax := by decide

def busy (limits : Limits) (streams draining : Nat) : Snapshot :=
  {limits,waiters := 1,connections := [{streams},{state := .draining,streams := draining}],countsFit := pairUsize}

theorem growthFollowsDemandOfBusy :
    (replenishLocked (fun _ => 150) (busy (sessionLimits 256 streamsUsize) 256 40)).delays ≠ [] ∧
    (replenishLocked (fun _ => 150) (busy (sessionLimits 256 streamsUsize) 215 40)).delays = [] :=
  ⟨(growthFollowsDemand _ _).1 ⟨by decide,rfl,by decide,by decide,by decide⟩ (Or.inr ⟨by decide,by decide⟩),
   (growthFollowsDemand _ _).2.1 (by decide) (by decide)⟩

theorem starvedUnserved :
    (Starved (busy (sessionLimits 0 (Nat.zero_le _)) 0 0) ∧
      (replenishLocked (fun _ => 150) (busy (sessionLimits 0 (Nat.zero_le _)) 0 0)).delays = []) ∧
    (Starved (busy (sessionLimits usizeMax (Nat.le_refl _)) usizeMax 0) ∧
      (replenishLocked (fun _ => 150) (busy (sessionLimits usizeMax (Nat.le_refl _)) usizeMax 0)).delays = []) :=
  ⟨⟨⟨by decide,rfl,by decide,by decide,by decide⟩,by decide +kernel⟩,
   ⟨⟨by decide,rfl,by decide +kernel,by decide,by decide⟩,by decide +kernel⟩⟩

end KanoTls.Pool
