import KanoTls.Pool

/-! The counter of the spawned tasks, the cap on live connections, and when the pool of a
cold start keeps to one tunnel. -/
namespace KanoTls.Pool
open Tasks

structure Counted (s : State) : Prop where
  pending : s.pending = s.spawns.countP unfinished
  live : liveCount s ≤ s.config.maxLiveConnections

section
variable {s t : State} {i : Nat} {pc : SpawnPc}

theorem taskMoves (found : s.spawns[i]? = some pc) (new : SpawnPc) (p : SpawnPc → Bool) :
    (s.spawns.set i new).countP p + (if p pc then 1 else 0) = s.spawns.countP p + (if p new then 1 else 0) :=
  countSet new p found

theorem changedLive {f : Connection → Connection} (changed : changes s i f = some t)
    (less : ∀ c, live (f c) = true → live c = true) :
    liveCount t ≤ liveCount s := by
  unfold changes at changed
  split at changed
  · contradiction
  · rename_i c found
    cases Option.some.inj changed
    have moves := countSet (f c) live found
    have weigh : (if live (f c) then 1 else 0) ≤ (if live c then 1 else 0) := by
      by_cases now : live (f c) = true
      · rw [if_pos now,if_pos (less c now)]
      · rw [if_neg now]
        exact Nat.zero_le _
    unfold liveCount
    dsimp only
    omega

theorem changedRest {f : Connection → Connection} (changed : changes s i f = some t) :
    t.config = s.config ∧ t.pending = s.pending ∧ t.spawns = s.spawns ∧ t.waiters = s.waiters ∧ t.replenish = s.replenish := by
  unfold changes at changed
  split at changed
  · contradiction
  · cases Option.some.inj changed
    exact ⟨rfl,rfl,rfl,rfl,rfl⟩

theorem changedCounted (counted : Counted s) {f : Connection → Connection} (changed : changes s i f = some t)
    (less : ∀ c, live (f c) = true → live c = true) : Counted t ∧ t.config = s.config := by
  obtain ⟨config,pending,spawns,_⟩ := changedRest changed
  refine ⟨⟨?_,?_⟩,config⟩
  · rw [pending,spawns]
    exact counted.pending
  · rw [config]
    exact (changedLive changed less).trans counted.live

theorem goesCounted (counted : Counted s) (found : s.spawns[i]? = some pc) {new : SpawnPc} {pending : Int}
    (moves : pending + (if unfinished pc then 1 else 0) = s.pending + (if unfinished new then 1 else 0)) :
    Counted {goes s i new with pending := pending} := by
  refine ⟨?_,counted.live⟩
  have tasks := taskMoves found new unfinished
  have was := counted.pending
  show pending = ((s.spawns.set i new).countP unfinished : Int)
  by_cases old : unfinished pc = true <;> by_cases now : unfinished new = true <;>
    simp only [old,now,if_true,Bool.false_eq_true,if_false] at moves tasks <;> omega

theorem countedStep {a : Action} (counted : Counted s) (moved : step s a = some t) : Counted t ∧ t.config = s.config := by
  have replenishes : ∀ {r : ReplenishPc}, Counted {s with replenish := r} := ⟨counted.pending,counted.live⟩
  cases a with
  | arrive =>
    cases Option.some.inj moved
    exact ⟨⟨counted.pending,counted.live⟩,rfl⟩
  | leave =>
    simp only [step] at moved
    split at moved
    · contradiction
    · cases Option.some.inj moved
      exact ⟨⟨counted.pending,counted.live⟩,rfl⟩
  | lock | count =>
    simp only [step] at moved
    split at moved
    · cases Option.some.inj moved
      exact ⟨replenishes,rfl⟩
    · contradiction
  | abandon | loadPending | loadWaiters | recount | reload =>
    simp only [step] at moved
    split at moved
    all_goals first | contradiction | (cases Option.some.inj moved; exact ⟨replenishes,rfl⟩)
  | spawn =>
    simp only [step] at moved
    split at moved
    · cases Option.some.inj moved
      refine ⟨⟨?_,counted.live⟩,rfl⟩
      have was := counted.pending
      show s.pending + 1 = ((s.spawns ++ [SpawnPc.connecting]).countP unfinished : Int)
      rw [List.countP_append,was]
      rfl
    · contradiction
  | connect j ok =>
    simp only [step] at moved
    split at moved
    · rename_i found
      cases Option.some.inj moved
      refine ⟨?_,rfl⟩
      cases ok <;> exact goesCounted counted found rfl
    · contradiction
  | register j =>
    simp only [step] at moved
    split at moved
    · rename_i found
      cases Option.some.inj moved
      have goes' : Counted (goes s j .registered) := goesCounted counted found rfl
      split
      · exact ⟨goes',rfl⟩
      · rename_i room
        refine ⟨⟨goes'.pending,?_⟩,rfl⟩
        have one : (s.connections ++ [newConnection]).countP live = s.connections.countP live + 1 := by
          rw [List.countP_append]
          rfl
        have room : s.connections.countP live < s.config.maxLiveConnections := Nat.lt_of_not_le room
        show (s.connections ++ [newConnection]).countP live ≤ s.config.maxLiveConnections
        omega
    · contradiction
  | finish j =>
    simp only [step] at moved
    split at moved
    · rename_i found
      cases Option.some.inj moved
      refine ⟨?_,rfl⟩
      rcases found with found | found <;> refine goesCounted counted found ?_ <;> simp [unfinished]
    · contradiction
  | openStream j | endStream j => exact changedCounted counted moved (fun c => id)
  | drain j =>
    refine changedCounted counted moved ?_
    intro c
    by_cases here : c.state = .active
    · simp [live,here]
    · simp [live,here]
  | close j =>
    refine changedCounted counted moved ?_
    intro c here
    simp [live] at here
  | die j =>
    refine changedCounted counted moved ?_
    intro c here
    simp [live] at here
  | remove j =>
    simp only [step] at moved
    split at moved
    · cases Option.some.inj moved
      refine ⟨⟨counted.pending,?_⟩,rfl⟩
      have fewer := (List.eraseIdx_sublist s.connections j).countP_le (p := live)
      exact fewer.trans counted.live
    · contradiction

theorem unfinishedSplit (tasks : List SpawnPc) : tasks.countP unfinished = tasks.countP outside + tasks.countP inside := by
  induction tasks with
  | nil => rfl
  | cons head rest ih =>
    rw [List.countP_cons,List.countP_cons,List.countP_cons,ih]
    cases head <;> simp [unfinished,outside,inside] <;> omega

end

/- The demand of the pool stays within one session, no connection dies or is drained;
between a replenisher's count of the connections and its load of `pending_spawns` no task
counts itself out whose connection came after the count; and no stream ends before it has
loaded the waiters. -/
def calmStep (s : State) (a : Action) : Bool :=
  decide (streamsInUse s + s.waiters ≤ s.config.maxStreamsPerSession) &&
  match a,s.replenish with
  | .drain _,_ | .close _,_ | .die _,_ | .remove _,_ => false
  | .finish i,.counted _ live _ => decide (s.spawns[i]? ≠ some .registered) || decide (liveCount s ≤ live)
  | .endStream _,.counted _ _ _ | .endStream _,.loaded _ _ _ _ => false
  | _,_ => true

abbrev Calm (s : State) (a : Action) : Prop := calmStep s a = true

def Seen (s : State) : Prop :=
  match s.replenish with
  | .idle | .locked => True
  | .counted active live streams =>
    active = live ∧ live ≤ liveCount s ∧ liveCount s ≤ live + s.spawns.countP inside ∧ streams ≤ streamsInUse s
  | .loaded active live streams pending =>
    active = live ∧ live ≤ 1 ∧ 0 ≤ pending ∧ streams ≤ streamsInUse s ∧
      (live + pending = 0 → liveCount s + s.spawns.countP outside = 0)
  | .recount count later | .reload count later _ => liveCount s + s.spawns.countP outside + count + later ≤ 1
  | .spawning count later => 1 ≤ count ∧ liveCount s + s.spawns.countP outside + count + later ≤ 1

structure Single (s : State) : Prop where
  counted : Counted s
  fresh : ∀ c ∈ s.connections, c.state = .active ∧ c.alive = true ∧ c.closing = false
  one : liveCount s + s.spawns.countP outside ≤ 1
  seen : Seen s

section
variable {s t : State} {i : Nat} {pc : SpawnPc}

theorem seenKept (seen : Seen s) (same : t.replenish = s.replenish) (grows : liveCount s ≤ liveCount t)
    (total : liveCount t + t.spawns.countP outside ≤ liveCount s + s.spawns.countP outside)
    (backed : ∀ a l u, s.replenish = .counted a l u → liveCount t ≤ l + t.spawns.countP inside)
    (streams : (∃ a l u, s.replenish = .counted a l u) ∨ (∃ a l u p, s.replenish = .loaded a l u p) →
      streamsInUse s ≤ streamsInUse t) : Seen t := by
  unfold Seen at seen ⊢
  rw [same]
  split at seen
  · trivial
  · trivial
  · rename_i a l u here
    obtain ⟨equal,less,_,used⟩ := seen
    exact ⟨equal,less.trans grows,backed a l u here,used.trans (streams (.inl ⟨a,l,u,here⟩))⟩
  · rename_i a l u p here
    obtain ⟨equal,less,positive,used,none⟩ := seen
    refine ⟨equal,less,positive,used.trans (streams (.inr ⟨a,l,u,p,here⟩)),?_⟩
    intro zero
    have was := none zero
    omega
  · exact (Nat.add_le_add_right (Nat.add_le_add_right total _) _).trans seen
  · exact (Nat.add_le_add_right (Nat.add_le_add_right total _) _).trans seen
  · exact ⟨seen.1,(Nat.add_le_add_right (Nat.add_le_add_right total _) _).trans seen.2⟩

theorem freshCounts (fresh : ∀ c ∈ s.connections, c.state = .active ∧ c.alive = true ∧ c.closing = false) :
    activeCount s = liveCount s := by
  refine List.countP_congr ?_
  intro c member
  obtain ⟨state,alive,closing⟩ := fresh c member
  simp [active,open',live,state,alive,closing]

theorem desiredOne {c : Config} {waiters streams : Nat} (active : Nat)
    (within : streams + waiters ≤ c.maxStreamsPerSession) :
    desiredActiveConnectionCount c waiters active streams ≤ 1 := by
  unfold desiredActiveConnectionCount
  split
  · exact Nat.zero_le 1
  · rename_i some'
    have target : c.streamsPerConnectionTarget = c.maxStreamsPerSession := by
      unfold Config.streamsPerConnectionTarget
      omega
    have one : (max (waiters + streams) 1 + (c.maxStreamsPerSession - 1)) / c.maxStreamsPerSession ≤ 1 := by
      rw [← Nat.lt_succ_iff,Nat.div_lt_iff_lt_mul (by omega)]
      omega
    dsimp only
    rw [target]
    split <;> omega

theorem planOne {active live streams : Nat} {pending : Int} (within : streams + s.waiters ≤ s.config.maxStreamsPerSession)
    (equal : active = live) (positive : 0 ≤ pending) : plan s active live streams pending = .idle ∨
      (live + pending = 0 ∧ plan s active live streams pending = .recount 1 0) := by
  have desired := desiredOne active within
  have same : (pendingSpawns pending : Int) = pending := by
    unfold pendingSpawns
    rw [if_neg (Int.not_lt.mpr positive)]
    omega
  unfold plan
  dsimp only
  generalize desiredActiveConnectionCount s.config s.waiters active streams = wanted at *
  split
  · exact .inl rfl
  · rename_i missing
    have none : active + pendingSpawns pending = 0 := by omega
    have zero : live + pendingSpawns pending = 0 := by omega
    have one : min (wanted - (active + pendingSpawns pending))
        (s.config.maxLiveConnections - (live + pendingSpawns pending)) = 1 := by omega
    have all : min 1 (max s.config.initialConnectionCount 1) = 1 := by omega
    rw [if_pos zero,one,all,Nat.sub_self]
    exact .inr ⟨by omega,rfl⟩

theorem replenishSingle (single : Single s) {r : ReplenishPc} (seen : Seen {s with replenish := r}) :
    Single {s with replenish := r} :=
  ⟨⟨single.counted.pending,single.counted.live⟩,single.fresh,single.one,seen⟩

theorem nextSeen {later : Nat} (room : liveCount s + s.spawns.countP outside + later ≤ 1) :
    Seen {s with replenish := next later} := by
  unfold next
  split
  · trivial
  · show liveCount s + s.spawns.countP outside + later + 0 ≤ 1
    omega

theorem streamSingle (single : Single s) {f : Connection → Connection} (changed : changes s i f = some t)
    (kept : ∀ c, (f c).state = c.state ∧ (f c).alive = c.alive ∧ (f c).closing = c.closing)
    (grows : (∃ a l u, s.replenish = .counted a l u) ∨ (∃ a l u p, s.replenish = .loaded a l u p) →
      ∀ c, c.streams ≤ (f c).streams) (counted : Counted t) : Single t := by
  unfold changes at changed
  split at changed
  · contradiction
  · rename_i c found
    cases Option.some.inj changed
    have same : ∀ c, live (f c) = live c := by
      intro c
      simp only [live,(kept c).1,(kept c).2.1]
    have lives : (s.connections.set i (f c)).countP live = s.connections.countP live := by
      have moves := countSet (f c) live found
      rw [same c] at moves
      omega
    refine ⟨counted,?_,?_,?_⟩
    · intro d member
      rcases List.mem_or_eq_of_mem_set member with old | new
      · exact single.fresh d old
      · rw [new,(kept c).1,(kept c).2.1,(kept c).2.2]
        exact single.fresh c (List.mem_of_getElem? found)
    · show (s.connections.set i (f c)).countP live + s.spawns.countP outside ≤ 1
      rw [lives]
      exact single.one
    · refine seenKept single.seen rfl (Nat.le_of_eq lives.symm) (Nat.le_of_eq (congrArg (· + _) lives)) ?_ ?_
      · intro a l u here
        have seen := single.seen
        unfold Seen at seen
        rw [here] at seen
        exact (Nat.le_of_eq lives).trans seen.2.2.1
      · intro busy
        refine sumSetGrows inUse found ?_
        unfold inUse
        rw [show open' (f c) = open' c by simp only [open',same c,(kept c).2.2]]
        split
        · exact grows busy c
        · exact Nat.le_refl 0

theorem Single.backed (single : Single s) {active live streams : Nat} (here : s.replenish = .counted active live streams) :
    liveCount s ≤ live + s.spawns.countP inside := by
  have seen := single.seen
  unfold Seen at seen
  rw [here] at seen
  exact seen.2.2.1

theorem taskSingle (single : Single s) {spawns : List SpawnPc} {connections : List Connection} {pending : Int}
    (adds : connections = s.connections ∧ spawns.countP outside ≤ s.spawns.countP outside ∨
      connections = s.connections ++ [newConnection] ∧ spawns.countP outside + 1 ≤ s.spawns.countP outside)
    (backed : ∀ a l u, s.replenish = .counted a l u → connections.countP live ≤ l + spawns.countP inside)
    (counted : Counted {s with spawns := spawns,connections := connections,pending := pending}) :
    Single {s with spawns := spawns,connections := connections,pending := pending} := by
  have one := single.one
  rcases adds with ⟨rfl,fewer⟩ | ⟨rfl,fewer⟩
  · refine ⟨counted,single.fresh,(Nat.add_le_add_left fewer _).trans one,?_⟩
    exact seenKept single.seen rfl (Nat.le_refl _) (Nat.add_le_add_left fewer _) backed (fun _ => Nat.le_refl _)
  · have more : (s.connections ++ [newConnection]).countP live = liveCount s + 1 := by
      rw [List.countP_append]
      rfl
    have total : (s.connections ++ [newConnection]).countP live + spawns.countP outside ≤
        liveCount s + s.spawns.countP outside := by
      rw [more]
      omega
    refine ⟨counted,?_,total.trans one,?_⟩
    · intro c member
      rcases List.mem_append.mp member with old | new
      · exact single.fresh c old
      · rw [List.mem_singleton.mp new]
        exact ⟨rfl,rfl,rfl⟩
    · refine seenKept single.seen rfl ?_ total backed ?_
      · show liveCount s ≤ (s.connections ++ [newConnection]).countP live
        omega
      · intro _
        show (s.connections.map inUse).sum ≤ ((s.connections ++ [newConnection]).map inUse).sum
        rw [List.map_append,List.sum_append]
        exact Nat.le_add_right _ _

theorem plannedSingle (single : Single s) (within : streamsInUse s + s.waiters ≤ s.config.maxStreamsPerSession)
    (moved : step s .loadWaiters = some t) : Single t := by
  have seen := single.seen
  simp only [step] at moved
  split at moved
  · rename_i active live streams pending' here
    cases Option.some.inj moved
    unfold Seen at seen
    rw [here] at seen
    obtain ⟨equal,_,positive,used,none⟩ := seen
    rcases planOne (s := s) (Nat.le_trans (Nat.add_le_add_right used _) within) equal positive with rests | ⟨zero,plans⟩
    · rw [rests]
      exact replenishSingle single trivial
    · rw [plans]
      refine replenishSingle single ?_
      show liveCount s + s.spawns.countP outside + 1 + 0 ≤ 1
      rw [none zero]
  · contradiction

theorem spawnedSingle (single : Single s) (counted : Counted t) (moved : step s .spawn = some t) : Single t := by
  have one := single.one
  have seen := single.seen
  simp only [step] at moved
  split at moved
  · rename_i count later here
    cases Option.some.inj moved
    unfold Seen at seen
    rw [here] at seen
    have more : (s.spawns ++ [SpawnPc.connecting]).countP outside = s.spawns.countP outside + 1 := by
      rw [List.countP_append]
      rfl
    refine ⟨counted,single.fresh,?_,?_⟩
    · show liveCount s + (s.spawns ++ [SpawnPc.connecting]).countP outside ≤ 1
      omega
    · rw [if_pos (by omega : count ≤ 1)]
      refine nextSeen (s := {s with pending := s.pending + 1,spawns := s.spawns ++ [SpawnPc.connecting]}) ?_
      show liveCount s + (s.spawns ++ [SpawnPc.connecting]).countP outside + later ≤ 1
      omega
  · contradiction

theorem connectedSingle {j : Nat} {ok : Bool} (single : Single s) (counted : Counted t)
    (moved : step s (.connect j ok) = some t) : Single t := by
  simp only [step] at moved
  split at moved
  · rename_i found
    cases Option.some.inj moved
    have same : ∀ new, outside new = true → inside new = false →
        (s.spawns.set j new).countP outside = s.spawns.countP outside ∧
        (s.spawns.set j new).countP inside = s.spawns.countP inside := by
      intro new out in'
      have outs := taskMoves found new outside
      have ins := taskMoves found new inside
      rw [out,show outside .connecting = true from rfl] at outs
      rw [in',show inside .connecting = false from rfl] at ins
      omega
    have keeps := same (if ok then .registering else .failed) (by cases ok <;> rfl) (by cases ok <;> rfl)
    refine taskSingle single (.inl ⟨rfl,Nat.le_of_eq keeps.1⟩) ?_ counted
    intro a l u here
    rw [keeps.2]
    exact single.backed here
  · contradiction

theorem registeredSingle {j : Nat} (single : Single s) (counted : Counted t) (moved : step s (.register j) = some t) :
    Single t := by
  simp only [step] at moved
  split at moved
  · rename_i found
    cases Option.some.inj moved
    have fewer := taskMoves found .registered outside
    have more := taskMoves found .registered inside
    simp only [outside,inside,reduceCtorEq,decide_false,decide_true,Bool.or_false,Bool.or_true,Bool.false_eq_true,if_false,
      if_true,Nat.add_zero] at fewer more
    split at counted
    · rename_i full
      rw [if_pos full]
      refine taskSingle single (.inl ⟨rfl,Nat.le.intro fewer⟩) ?_ counted
      intro a l u here
      have backed := single.backed here
      show liveCount s ≤ l + (s.spawns.set j .registered).countP inside
      omega
    · rename_i room
      rw [if_neg room]
      refine taskSingle single (.inr ⟨rfl,Nat.le_of_eq fewer⟩) ?_ counted
      intro a l u here
      have backed := single.backed here
      rw [List.countP_append]
      show liveCount s + 1 ≤ l + (s.spawns.set j .registered).countP inside
      omega
  · contradiction

theorem finishedSingle {j : Nat} (single : Single s) (counted : Counted t) (calm : calmStep s (.finish j) = true)
    (moved : step s (.finish j) = some t) : Single t := by
  unfold calmStep at calm
  rw [Bool.and_eq_true,decide_eq_true_eq] at calm
  obtain ⟨_,calm⟩ := calm
  simp only [step] at moved
  split at moved
  · rename_i found
    cases Option.some.inj moved
    rcases found with found | found
    · have outs := taskMoves found .done outside
      simp only [outside,reduceCtorEq,decide_false,Bool.or_false,Bool.false_eq_true,if_false,Nat.add_zero] at outs
      refine taskSingle single (.inl ⟨rfl,Nat.le_of_eq outs⟩) ?_ counted
      intro a l u here
      rw [here] at calm
      simp only [found,ne_eq,not_true_eq_false,decide_false,Bool.false_or,decide_eq_true_eq] at calm
      exact calm.trans (Nat.le_add_right _ _)
    · have outs := taskMoves found .done outside
      have ins := taskMoves found .done inside
      simp only [outside,inside,reduceCtorEq,decide_false,decide_true,Bool.or_false,Bool.or_true,Bool.false_eq_true,
        if_false,
        if_true,Nat.add_zero] at outs ins
      refine taskSingle single (.inl ⟨rfl,Nat.le.intro outs⟩) ?_ counted
      intro a l u here
      have same : (s.spawns.set j .done).countP inside = s.spawns.countP inside := ins
      show liveCount s ≤ l + (s.spawns.set j .done).countP inside
      rw [same]
      exact single.backed here
  · contradiction

theorem singleStep {a : Action} (single : Single s) (calm : Calm s a) (moved : step s a = some t) : Single t := by
  obtain ⟨counted,config⟩ := countedStep single.counted moved
  have split' := unfinishedSplit s.spawns
  have pending := single.counted.pending
  have one := single.one
  have seen := single.seen
  have whole : calmStep s a = true := calm
  unfold Calm calmStep at calm
  rw [Bool.and_eq_true,decide_eq_true_eq] at calm
  obtain ⟨within,calm⟩ := calm
  cases a with
  | arrive =>
    cases Option.some.inj moved
    exact ⟨counted,single.fresh,one,seen⟩
  | leave =>
    simp only [step] at moved
    split at moved
    · contradiction
    · cases Option.some.inj moved
      exact ⟨counted,single.fresh,one,seen⟩
  | lock =>
    simp only [step] at moved
    split at moved
    · cases Option.some.inj moved
      exact replenishSingle single trivial
    · contradiction
  | abandon =>
    simp only [step] at moved
    split at moved
    all_goals first | contradiction | (cases Option.some.inj moved; exact replenishSingle single trivial)
  | count =>
    simp only [step] at moved
    split at moved
    · cases Option.some.inj moved
      exact replenishSingle single ⟨freshCounts single.fresh,Nat.le_refl _,Nat.le_add_right _ _,Nat.le_refl _⟩
    · contradiction
  | loadPending =>
    simp only [step] at moved
    split at moved
    · rename_i active live streams here
      cases Option.some.inj moved
      unfold Seen at seen
      rw [here] at seen
      obtain ⟨equal,less,backed,used⟩ := seen
      refine replenishSingle single ⟨equal,by omega,by omega,used,?_⟩
      intro zero
      show liveCount s + s.spawns.countP outside = 0
      omega
    · contradiction
  | loadWaiters => exact plannedSingle single within moved
  | recount =>
    simp only [step] at moved
    split at moved
    · rename_i count later here
      cases Option.some.inj moved
      unfold Seen at seen
      rw [here] at seen
      exact replenishSingle single seen
    · contradiction
  | reload =>
    simp only [step] at moved
    split at moved
    · rename_i count later live here
      cases Option.some.inj moved
      unfold Seen at seen
      rw [here] at seen
      refine replenishSingle single ?_
      split
      · exact nextSeen (by omega)
      · refine ⟨by omega,?_⟩
        show liveCount s + s.spawns.countP outside + min count _ + later ≤ 1
        omega
    · contradiction
  | spawn => exact spawnedSingle single counted moved
  | connect j ok => exact connectedSingle single counted moved
  | register j => exact registeredSingle single counted moved
  | finish j => exact finishedSingle single counted whole moved
  | openStream j =>
    exact streamSingle single moved (fun _ => ⟨rfl,rfl,rfl⟩) (fun _ c => Nat.le_succ c.streams) counted
  | endStream j =>
    refine streamSingle single moved (fun _ => ⟨rfl,rfl,rfl⟩) ?_ counted
    intro busy
    rcases busy with ⟨a,l,u,here⟩ | ⟨a,l,u,p,here⟩ <;> rw [here] at calm <;> contradiction
  | drain j | close j | die j | remove j => contradiction

variable {config : Config}

theorem countedKept (run : Run Machine.Always config s) : Counted s ∧ s.config = config := by
  refine Machine.reachInvariant (I := fun s => Counted s ∧ s.config = config) ?_ ?_ run
  · exact ⟨⟨rfl,Nat.zero_le _⟩,rfl⟩
  · intro s a t kept _ moved
    obtain ⟨counted,same⟩ := countedStep kept.1 moved
    exact ⟨counted,same.trans kept.2⟩

theorem singleKept (run : Run Calm config s) : Single s := by
  refine Machine.reachInvariant ?_ ?_ run
  · refine ⟨⟨rfl,Nat.zero_le _⟩,?_,Nat.zero_le 1,trivial⟩
    intro c member
    contradiction
  · intro s a t single calm moved
    exact singleStep single calm moved

end

theorem poolBounded (config : Config) :
    (∀ s, Run Machine.Always config s →
      s.pending = s.spawns.countP unfinished ∧ liveCount s ≤ config.maxLiveConnections) ∧
    (∀ s, Run Calm config s → liveCount s + s.spawns.countP outside ≤ 1) := by
  constructor
  · intro s run
    obtain ⟨counted,same⟩ := countedKept run
    exact ⟨counted.pending,same ▸ counted.live⟩
  · intro s run
    exact (singleKept run).one

def coldStart : List Action :=
  [.arrive,.lock,.count,.loadPending,.loadWaiters,.recount,.reload,.spawn,.connect 0 true,.register 0,.finish 0]

def small : Config := {targetPoolSize := 2,initialConnectionCount := 1,maxStreamsPerSession := 2}

theorem poolBoundedColdStart : ∃ s, Run Calm small s ∧ liveCount s = 1 ∧ s.pending = 0 ∧
    liveCount s ≤ small.maxLiveConnections ∧ liveCount s + s.spawns.countP outside ≤ 1 := by
  have ran : (Machine.checked step Calm (start small) coldStart).any (fun s : State =>
      decide (liveCount s = 1) && decide (s.pending = 0)) = true := rfl
  obtain ⟨s,run,here⟩ := Machine.checkedReaches ran
  simp only [Bool.and_eq_true,decide_eq_true_eq] at here
  have free : Run Machine.Always small s := Machine.reachWeaken (fun _ _ _ => trivial) run
  exact ⟨s,run,here.1,here.2,((poolBounded small).1 s free).2,(poolBounded small).2 s run⟩

/- A second replenisher counts no connection; the task of the first registers its own and
counts itself out; the second then finds no pending task and spawns another one. -/
def spawnsTwice : List Action :=
  [.arrive,.lock,.count,.loadPending,.loadWaiters,.recount,.reload,.spawn,.connect 0 true,.lock,.count,.register 0]

def countsOut : List Action := [.finish 0,.loadPending,.loadWaiters,.recount,.reload,.spawn]

theorem poolOverOne :
    (∃ s, Run Machine.Always small s ∧ liveCount s + s.pending = 2 ∧ s.connections.length + s.spawns.countP outside = 1) ∧
    (∃ s, Run Machine.Always small s ∧ liveCount s + s.pending = 2 ∧ s.connections.length + s.spawns.countP outside = 2) := by
  constructor
  · have ran : (Machine.checked step Machine.Always (start small) spawnsTwice).any (fun s : State =>
        decide (liveCount s + s.pending = 2) && decide (s.connections.length + s.spawns.countP outside = 1)) = true := rfl
    obtain ⟨s,run,here⟩ := Machine.checkedReaches ran
    simp only [Bool.and_eq_true,decide_eq_true_eq] at here
    exact ⟨s,run,here.1,here.2⟩
  · have ran : (Machine.checked step Machine.Always (start small) (spawnsTwice ++ countsOut)).any (fun s : State =>
        decide (liveCount s + s.pending = 2) && decide (s.connections.length + s.spawns.countP outside = 2)) = true := rfl
    obtain ⟨s,run,here⟩ := Machine.checkedReaches ran
    simp only [Bool.and_eq_true,decide_eq_true_eq] at here
    exact ⟨s,run,here.1,here.2⟩

end KanoTls.Pool
