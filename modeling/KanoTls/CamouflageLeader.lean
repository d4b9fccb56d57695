import KanoTls.CamouflageRuns
import KanoTls.Target

/-! What the refresh gate is for. A task that sleeps behind it is woken by its leader, dropped
or not; and while the tables are not full, one task of a family samples at a time, and those
that waited for it come back with what it stored. -/
namespace KanoTls.CamouflageFetch
open Uot Wire Text Lru Program Camouflage Machine Tasks

section Histories

def ledBy : (e : Op) × Answer e → Option Nat
  | ⟨.acquire _,some (gate,true)⟩ => some gate
  | _ => none

def joinedBy : (e : Op) × Answer e → Option Nat
  | ⟨.acquire _,some (gate,false)⟩ => some gate
  | _ => none

def isSample : (e : Op) × Answer e → Bool
  | ⟨.sample _ _ _,_⟩ => true
  | _ => false

def isFailure : (e : Op) × Answer e → Bool
  | ⟨.sample _ _ _,some none⟩ => true
  | _ => false

def isDrop : (e : Op) × Answer e → Bool
  | ⟨.getEntry _,none⟩ | ⟨.coolingDown _,none⟩ | ⟨.noteFailure _,none⟩ | ⟨.clearFailure _,none⟩ | ⟨.store _ _,none⟩
  | ⟨.acquire _,none⟩ | ⟨.sample _ _ _,none⟩ | ⟨.sleep _ _,none⟩ => true
  | _ => false

abbrev History := List ((e : Op) × Answer e)

def ledGate (history : History) : Option Nat := history.findSome? ledBy
def joinedGate (history : History) : Option Nat := history.findSome? joinedBy

def hasSampled (history : History) : Bool := history.any isSample
def hasFailed (history : History) : Bool := history.any isFailure
def wasDropped (history : History) : Bool := history.any isDrop

variable {v w : View} {e : Op} {a : Answer e}

structure Moved (v w : View) (x : (e : Op) × Answer e) : Prop where
  leads : w.stage.leads = v.stage.leads.or (ledBy x)
  follows : w.stage.follows = v.stage.follows.or (joinedBy x)
  failed : w.failed = (v.failed || isFailure x)
  dropped : w.dropped = (v.dropped || isDrop x)
  missed : v.missed = true → w.missed = true
  keys : w.keys = v.keys
  rounds : w.rounds = v.rounds

theorem Moved.quiet {x : (e : Op) × Answer e} {stage : Stage} {based : Bool} (led : ledBy x = none) (joined : joinedBy x = none)
    (failure : isFailure x = false) (drop : isDrop x = false) (leads : stage.leads = v.stage.leads)
    (follows : stage.follows = v.stage.follows) : Moved v { v with stage := stage,based := based } x :=
  ⟨by simp [led,leads],by simp [joined,follows],by simp [failure],by simp [drop],id,rfl,rfl⟩

theorem Moved.drop {x : (e : Op) × Answer e} (led : ledBy x = none) (joined : joinedBy x = none) (failure : isFailure x = false)
    (drop : isDrop x = true) : Moved v v.drop x :=
  ⟨by simp [led,View.drop],by simp [joined,View.drop],by simp [failure,View.drop],by simp [drop,View.drop],id,rfl,rfl⟩

theorem moved (allowed : allows v e) (after' : after v e a = some w) : Moved v w ⟨e,a⟩ := by
  cases e with
  | getEntry key =>
    rcases a with _ | _ | p
    · cases Option.some.inj after'
      exact .drop rfl rfl rfl rfl
    · cases Option.some.inj after'
      obtain ⟨missed,same,stays,_⟩ := missCases v key
      rw [same]
      exact ⟨by simp [ledBy],by simp [joinedBy],by simp [isFailure],by simp [isDrop],stays,rfl,rfl⟩
    · obtain ⟨_,same⟩ := Option.ite_none_left_eq_some.mp after'
      cases Option.some.inj same
      exact .quiet rfl rfl rfl rfl rfl rfl
  | coolingDown key =>
    rcases a with _ | _ <;> cases Option.some.inj after'
    · exact .drop rfl rfl rfl rfl
    · exact .quiet rfl rfl rfl rfl rfl rfl
  | noteFailure key =>
    rcases a with _ | _ <;> cases Option.some.inj after'
    · exact .drop rfl rfl rfl rfl
    · exact .quiet rfl rfl rfl rfl rfl rfl
  | clearFailure key =>
    rcases a with _ | _ <;> cases Option.some.inj after'
    · exact .drop rfl rfl rfl rfl
    · exact .quiet rfl rfl rfl rfl rfl rfl
  | store key p =>
    rcases a with _ | _ <;> cases Option.some.inj after'
    · exact .drop rfl rfl rfl rfl
    · exact .quiet rfl rfl rfl rfl rfl rfl
  | acquire key =>
    have leads : v.stage.leads = none := by rw [allowed.1]; rfl
    have follows : v.stage.follows = none := by rw [allowed.1]; rfl
    rcases a with _ | ⟨gate,_ | _⟩ <;> cases Option.some.inj after'
    · exact .drop rfl rfl rfl rfl
    · exact ⟨by rw [leads]; rfl,by rw [follows]; rfl,by simp [isFailure],by simp [isDrop],id,rfl,rfl⟩
    · exact ⟨by rw [leads]; rfl,by rw [follows]; rfl,by simp [isFailure],by simp [isDrop],id,rfl,rfl⟩
  | sample site fast expectedFirst =>
    rcases a with _ | _ | p
    · cases Option.some.inj after'
      exact .drop rfl rfl rfl rfl
    · cases Option.some.inj after'
      exact ⟨by simp [ledBy],by simp [joinedBy],by simp [isFailure],by simp [isDrop],id,rfl,rfl⟩
    · obtain ⟨_,same⟩ := Option.ite_none_left_eq_some.mp after'
      cases Option.some.inj same
      exact .quiet rfl rfl rfl rfl rfl rfl
  | load gate =>
    have stands : v.stage.leads = none ∧ v.stage.follows = some gate := by
      rcases allowed with stands | ⟨seen,stands⟩ | stands <;> rw [stands] <;> exact ⟨rfl,rfl⟩
    cases a with
    | true =>
      cases Option.some.inj after'
      exact .quiet rfl rfl rfl rfl stands.1.symm stands.2.symm
    | false =>
      simp only [after,afterLoad,Bool.false_eq_true,if_false] at after'
      split at after' <;> try contradiction
      · cases Option.some.inj after'
        exact .quiet rfl rfl rfl rfl rfl rfl
      · cases Option.some.inj after'
        exact .quiet rfl rfl rfl rfl stands.1.symm stands.2.symm
  | notified gate =>
    cases Option.some.inj after'
    have stands : v.stage = .joined gate := allowed
    exact .quiet rfl rfl rfl rfl (by rw [stands]; rfl) (by rw [stands]; rfl)
  | sleep gate seen =>
    have stands : v.stage = .listening gate seen := allowed
    rcases a with _ | _ <;> cases Option.some.inj after'
    · exact .drop rfl rfl rfl rfl
    · exact .quiet rfl rfl rfl rfl (by rw [stands]; rfl) (by rw [stands]; rfl)
  | complete gate =>
    cases Option.some.inj after'
    exact .quiet rfl rfl rfl rfl (by rw [allowed.1]; rfl) (by rw [allowed.1]; rfl)
  | notifyWaiters gate =>
    cases Option.some.inj after'
    have stands : v.stage = .completed gate := allowed
    exact .quiet rfl rfl rfl rfl (by rw [stands]; rfl) (by rw [stands]; rfl)
  | cleanup key gate =>
    cases Option.some.inj after'
    exact .quiet rfl rfl rfl rfl (by rw [allowed.1]; rfl) (by rw [allowed.1]; rfl)

structure Recorded (start : View) (history : History) (v : View) : Prop where
  rounds : v.rounds = start.rounds
  keys : v.keys = start.keys
  keyed : v.keys = none → v.stage.leads = none ∧ v.stage.follows = none
  leads : v.stage.leads = ledGate history
  follows : v.stage.follows = joinedGate history
  failed : v.failed = hasFailed history
  dropped : v.dropped = wasDropped history
  sampled : hasSampled history = true → v.keys = none ∨ v.stage.leads.isSome = true ∨ v.missed = true

theorem recorded {start : View} {history : History} (free : start.stage = .free) (calm : start.failed = false ∧ start.dropped = false)
    (led : Led protocol start history v) : Recorded start history v := by
  induction led with
  | start => exact ⟨rfl,rfl,fun _ => by rw [free]; exact ⟨rfl,rfl⟩,by rw [free]; rfl,by rw [free]; rfl,calm.1,calm.2,by intro no; contradiction⟩
  | step before allowed after' ih =>
    rename_i history v e a w
    obtain ⟨leads,follows,failed,dropped,missed,keys,rounds⟩ := moved allowed after'
    refine ⟨rounds.trans ih.rounds,keys.trans ih.keys,?_,?_,?_,?_,?_,?_⟩
    · intro background
      rw [keys] at background
      have idle := ih.keyed background
      rw [leads,follows,idle.1,idle.2]
      cases e with
      | acquire key =>
        have mine := allowed.2
        rw [View.gateKey,background] at mine
        contradiction
      | _ => exact ⟨rfl,rfl⟩
    · rw [leads,ih.leads,ledGate,ledGate,List.findSome?_append,List.findSome?_singleton]
    · rw [follows,ih.follows,joinedGate,joinedGate,List.findSome?_append,List.findSome?_singleton]
    · rw [failed,ih.failed]
      simp [hasFailed]
    · rw [dropped,ih.dropped]
      simp [wasDropped]
    · intro sampled
      have entitled : v.keys = none ∨ v.stage.leads.isSome = true ∨ v.missed = true := by
        simp only [hasSampled,List.any_append,Bool.or_eq_true] at sampled
        rcases sampled with earlier | now
        · exact ih.sampled earlier
        · cases e with
          | sample site fast expectedFirst =>
            rcases allowed with background | ⟨gate,stands⟩ | ⟨_,missed⟩
            · exact .inl background
            · exact .inr (.inl (by rw [stands]; rfl))
            · exact .inr (.inr missed)
          | _ => simp [isSample] at now
      rcases entitled with background | leader | late
      · exact .inl (keys ▸ background)
      · refine .inr (.inl ?_)
        rw [leads,Option.isSome_or,leader,Bool.true_or]
      · exact .inr (.inr (missed late))

end Histories

section Runs
variable {s : Fetches} {ok : Fetches → Label Job Choice → Prop}

theorem freshFree (job : Job) : (fresh job).stage = .free ∧ (fresh job).failed = false ∧ (fresh job).dropped = false := by
  cases job <;> exact ⟨rfl,rfl,rfl⟩

theorem soundEmpty : Sound {} [] := by
  refine ⟨⟨?_,?_,?_,?_,?_,?_⟩,?_⟩
  · exact fun e member => by contradiction
  · intro gate
    exact (if_neg (Nat.not_lt_zero gate)).symm
  all_goals intro x member
  all_goals contradiction

theorem soundSpawned {s : Caches} {views : List View} (job : Job) (sound : Sound s views) : Sound s (views ++ [fresh job]) := by
  obtain ⟨free,_⟩ := freshFree job
  have leads : (fresh job).stage.leads = none := by rw [free]; rfl
  have gates : (fresh job).stage.gate = none := by rw [free]; rfl
  have more {P : View → Prop} (there : ∃ v ∈ views, P v) : ∃ v ∈ views ++ [fresh job], P v := by
    obtain ⟨v,member,holds⟩ := there
    exact ⟨v,List.mem_append_left _ member,holds⟩
  refine ⟨⟨sound.stocked,?_,?_,?_,?_,?_⟩,?_⟩
  · intro gate
    have idle : leadsAt gate (fresh job) = false := by simp [leadsAt,leads]
    rw [List.countP_append,sound.leaders,List.countP_singleton,idle]
    rfl
  · refine everyPush sound.settled ?_
    rw [free]
    intro no
    contradiction
  · intro v vIn w wIn gate vLeads wGate
    rcases List.mem_append.mp vIn with vOld | vNew
    · rcases List.mem_append.mp wIn with wOld | wNew
      · exact sound.keyed v vOld w wOld gate vLeads wGate
      · rw [List.mem_singleton.mp wNew,gates] at wGate
        contradiction
    · rw [List.mem_singleton.mp vNew,leads] at vLeads
      contradiction
  · exact fun e inside => more (sound.table e inside)
  · refine everyPush sound.made ?_
    intro keys mine
    cases job with
    | fetch rounds site fingerprint =>
      obtain ⟨fingerprint,_,rfl⟩ := Option.map_eq_some_iff.mp mine
      exact ⟨site,fingerprint,rfl⟩
    | daemon site fingerprint => contradiction
    | startup site fingerprint => contradiction
  · refine everyPush sound.fits ?_
    rw [free]
    trivial

theorem soundDrifted {s t : Caches} {views : List View} {choice : Choice} (sound : Sound s views) (drifted : drift s choice = some t) :
    Sound t views := by
  cases choice <;> try contradiction
  · cases Option.some.inj drifted
    exact sound.caches rfl sound.stocked sound.table
  · obtain ⟨⟨key,gate⟩,_,same⟩ := Option.bind_eq_some_iff.mp drifted
    cases Option.some.inj same
    refine Sound.cleanup ?_
    exact sound.caches rfl sound.stocked sound.table

theorem fetchesAgree (reach : Reach (poolStep world body) ok ⟨{},[]⟩ s) : Agrees protocol ends fresh Sound s :=
  poolKeeps soundEmpty bodyFollows soundSpawned (fun sound here _ _ _ allowed acted => soundActed sound here allowed acted)
    (fun sound _ drifted => soundDrifted sound drifted) reach

theorem fetchedFlightUsable {i : Nat} {task : Task Job Op Answer (Except FetchError (Option Flight))}
    {result : Except FetchError (Option Flight)} (reach : Reach (poolStep world body) Always ⟨{},[]⟩ s)
    (there : s.tasks[i]? = some task) (finished : task.program.outcome = some result) :
    (∀ flight, result = .ok (some flight) → flight.serverRecords ≠ [] ∧ flight.profile.serverRecords ≠ []) ∧
    (∀ rounds site fingerprint, task.job = .fetch (rounds + 1) site fingerprint → result ≠ .error .stalled) := by
  obtain ⟨views,stand,_⟩ := fetchesAgree reach
  obtain ⟨v,_,stands⟩ := forallGet stand there
  have ended := stands.owes
  rw [outcomeDone finished] at ended
  refine ⟨?_,?_⟩
  · rintro flight rfl
    exact ended.2 flight rfl
  · rintro rounds site fingerprint job rfl
    have zero := ended.2 rfl
    obtain ⟨free,calm⟩ := freshFree task.job
    rw [(recorded free calm stands.led).rounds,job] at zero
    contradiction

def twoFetches : List (Label Job Choice) :=
  let job : Job := .fetch 1 ⟨['h'],443⟩ (some [0,1,2,3])
  [Label.spawn job,.spawn job] ++ List.replicate 6 (Label.move 0 (Choice.draw 0)) ++ List.replicate 6 (Label.move 1 (Choice.draw 0)) ++
    ([.move 0 .run,.move 0 .run,.move 1 .run,.move 1 .run] : List (Label Job Choice))

def smallFlight : Bytes := [0x16,3,3,0,4,2,0,0,0] ++ [0x17,3,3,0,20] ++ List.replicate 20 7 ++ [0x17,3,3,0,60] ++ List.replicate 60 7

theorem fetchedFlightUsableOnce : ∃ (s : Fetches) (task : Task Job Op Answer (Except FetchError (Option Flight))) (flight : Flight),
    Reach (poolStep world body) Always ⟨{},[]⟩ s ∧ s.tasks[0]? = some task ∧ task.program.outcome = some (.ok (some flight)) ∧
      flight.serverRecords ≠ [] := by
  have ran : (checked (poolStep world body) Always ⟨{},[]⟩ (twoFetches ++ ([.move 0 (.endpoint id smallFlight),.move 0 .run,.move 0 .run,
      .move 0 .run,.move 0 .run,.move 0 .run,.move 0 .run] : List (Label Job Choice)))).any (fun s => (s.tasks[0]?).any (fun task =>
        task.program.outcome.any (fun result => result.toOption.any Option.isSome))) = true := by
    decide +kernel
  obtain ⟨s,reach,first⟩ := checkedReaches ran
  obtain ⟨task,there,some⟩ := (Option.any_eq_true _ _).mp first
  obtain ⟨result,finished,ok⟩ := (Option.any_eq_true _ _).mp some
  cases result with
  | error e => cases ok
  | ok found =>
    obtain ⟨flight,rfl⟩ := Option.isSome_iff_exists.mp ok
    exact ⟨s,task,flight,reach,there,finished,((fetchedFlightUsable reach there finished).1 flight rfl).1⟩

theorem actEnabled {s : Caches} {e : Op} (awake : ∀ gate seen, e ≠ .sleep gate seen) : ∃ choice r, act s e choice = some r := by
  cases e with
  | sleep gate seen => exact absurd rfl (awake gate seen)
  | getEntry key => exact ⟨.drop,_,rfl⟩
  | sample site fast expectedFirst => exact ⟨.drop,_,rfl⟩
  | _ => exact ⟨.run,_,rfl⟩

def awakened (s : Caches) (gate : Nat) : Bool := (s.gates[gate]?.map (·.notified)).getD 0 ≠ 0

abbrev FetchTask := Task Job Op Answer (Except FetchError (Option Flight))

def Asleep (task : FetchTask) (gate seen : Nat) : Prop := task.program.upcoming = some (.sleep gate seen)

instance (task : FetchTask) (gate seen : Nat) : Decidable (Asleep task gate seen) := inferInstanceAs (Decidable (_ = _))

variable {i j gate seen : Nat} {task leader : FetchTask}

theorem asleepAt (reach : Reach (poolStep world body) ok ⟨{},[]⟩ s) (there : s.tasks[i]? = some task) (asleep : Asleep task gate seen) :
    gate < s.shared.gates.length ∧ seen = 0 := by
  obtain ⟨views,stand,sound⟩ := fetchesAgree reach
  obtain ⟨v,here,stands⟩ := forallGet stand there
  obtain ⟨next,program⟩ := upcomingCall asleep
  have owes := stands.owes
  rw [program] at owes
  have stage : v.stage = .listening gate seen := owes.1
  have fits := sound.fits v (List.mem_of_getElem? here)
  rwa [stage] at fits

theorem sleeperMoves (reach : Reach (poolStep world body) ok ⟨{},[]⟩ s) (there : s.tasks[i]? = some task) (asleep : Asleep task gate seen)
    (awake : awakened s.shared gate = true) : ∃ t, poolStep world body s (.move i .run) = some t := by
  obtain ⟨_,rfl⟩ := asleepAt reach there asleep
  obtain ⟨next,program⟩ := upcomingCall asleep
  obtain ⟨job,history,program'⟩ := task
  cases program
  have acted : act s.shared (.sleep gate 0) .run = some (some (),s.shared) := if_neg (by simpa [awakened] using awake)
  exact ⟨_,moveRuns there acted⟩

theorem leaderAtWork (reach : Reach (poolStep world body) ok ⟨{},[]⟩ s) (there : s.tasks[j]? = some leader)
    (led : ledGate leader.history = some gate) (quiet : awakened s.shared gate = false) :
    ∃ e next, leader.program = call e next ∧ ∀ gate seen, e ≠ .sleep gate seen := by
  obtain ⟨views,stand,sound⟩ := fetchesAgree reach
  obtain ⟨v,here,stands⟩ := forallGet stand there
  obtain ⟨free,calm⟩ := freshFree leader.job
  have leads : v.stage.leads = some gate := (recorded free calm stands.led).leads.trans led
  have fits := sound.fits v (List.mem_of_getElem? here)
  have owes := stands.owes
  have working : (v.stage = .holding gate ∨ v.stage = .completed gate) := by
    unfold Stage.leads at leads
    split at leads
    all_goals first | contradiction | cases Option.some.inj leads
    all_goals rename_i stage
    · exact .inl stage
    · exact .inr stage
    all_goals rw [stage,Stage.fits] at fits; simp [awakened,fits] at quiet
  cases program : leader.program with
  | done result =>
    rw [program] at owes
    have down : v.stage.settledDown := by
      cases result with
      | ok a => exact owes.1
      | error e => exact owes.1
    rcases working with stage | stage <;> (rw [stage] at down; contradiction)
  | call e next =>
    refine ⟨e,next,rfl,?_⟩
    rintro k n rfl
    rw [program] at owes
    have listening : v.stage = .listening k n := owes.1
    rcases working with stage | stage <;> (rw [stage] at listening; contradiction)

/- The steps of the leader alone come to one that announces the gate, whatever the endpoint,
the caches or a drop answer on the way. -/
theorem leaderAnnounces (reach : Reach (poolStep world body) Always ⟨{},[]⟩ s) (there : s.tasks[j]? = some leader)
    (led : ledGate leader.history = some gate) (quiet : awakened s.shared gate = false) :
    Inevitable (poolStep world body) (fun label => ∃ choice, label = .move j choice) (fun _ t => awakened t.shared gate = true) s := by
  generalize shape : leader.program = program
  induction program generalizing s leader with
  | done result =>
    obtain ⟨e,next,running,_⟩ := leaderAtWork reach there led quiet
    rw [shape] at running
    contradiction
  | call e next ih =>
    obtain ⟨e',next',running,awake⟩ := leaderAtWork reach there led quiet
    rw [shape] at running
    cases running
    obtain ⟨job,history,program⟩ := leader
    cases shape
    refine .intro ?_ ?_
    · obtain ⟨choice,⟨a,shared⟩,acted⟩ := @actEnabled s.shared e awake
      exact ⟨_,_,⟨choice,rfl⟩,moveRuns there acted⟩
    · rintro label t ⟨choice,rfl⟩ stepped unmet
      obtain ⟨job',history',e',next',a,shared,found,acted,rfl⟩ := moveCases stepped
      cases Option.some.inj (there.symm.trans found)
      have moved := List.getElem?_set_self (a := (⟨job,history ++ [⟨e,a⟩],next a⟩ : FetchTask)) (List.getElem?_eq_some_iff.mp there).1
      refine ih a (.next reach trivial stepped) moved ?_ ?_ rfl
      · have grown : ledGate (history ++ [⟨e,a⟩]) = (ledGate history).or (ledBy ⟨e,a⟩) := by
          rw [ledGate,ledGate,List.findSome?_append,List.findSome?_singleton]
        rw [grown,led]
        rfl
      · simpa using unmet

/- No task sleeps behind the gate for good: its leader is at work and the leader's own steps
come to the announcement; from then on the sleeper can go on. -/
theorem sleeperIsWoken (reach : Reach (poolStep world body) Always ⟨{},[]⟩ s) (there : s.tasks[i]? = some task)
    (asleep : Asleep task gate seen) :
    (∃ t, poolStep world body s (.move i .run) = some t) ∨
    ∃ j leader, s.tasks[j]? = some leader ∧ ledGate leader.history = some gate ∧ i ≠ j ∧
      Inevitable (poolStep world body) (fun label => ∃ choice, label = .move j choice)
        (fun _ t => ∃ u, poolStep world body t (.move i .run) = some u) s := by
  by_cases awake : awakened s.shared gate = true
  · exact .inl (sleeperMoves reach there asleep awake)
  · right
    have quiet : awakened s.shared gate = false := by simpa using awake
    obtain ⟨below,_⟩ := asleepAt reach there asleep
    obtain ⟨views,stand,sound⟩ := fetchesAgree reach
    obtain ⟨v,member,leads⟩ := sound.leader below
    obtain ⟨j,place⟩ := List.mem_iff_getElem?.mp member
    obtain ⟨leader,found,stands⟩ := forallGet stand.flip place
    obtain ⟨free,calm⟩ := freshFree leader.job
    have led : ledGate leader.history = some gate := (recorded free calm stands.led).leads.symm.trans leads
    have apart : i ≠ j := by
      rintro rfl
      cases Option.some.inj (there.symm.trans found)
      obtain ⟨e,next,running,awake⟩ := leaderAtWork reach there led quiet
      obtain ⟨rest,program⟩ := upcomingCall asleep
      rw [program] at running
      cases running
      exact awake gate seen rfl
    refine ⟨j,leader,found,led,apart,?_⟩
    refine inevitableMono (I := fun t => Reach (poolStep world body) Always ⟨{},[]⟩ t ∧ t.tasks[i]? = some task) ?_ ?_
      ⟨reach,there⟩ (leaderAnnounces reach found led quiet)
    · rintro t label u ⟨reached,still⟩ ⟨choice,rfl⟩ stepped
      refine ⟨.next reached trivial stepped,?_⟩
      obtain ⟨_,_,_,_,_,_,_,_,rfl⟩ := moveCases stepped
      exact (List.getElem?_set_ne apart.symm).trans still
    · rintro t u ⟨reached,still⟩ awake
      exact sleeperMoves reached still asleep awake

theorem sleeperIsWokenOnce : ∃ (s : Fetches) (task : FetchTask), Reach (poolStep world body) Always ⟨{},[]⟩ s ∧ s.tasks[1]? = some task ∧
    Asleep task 0 0 ∧ ((∃ t, poolStep world body s (.move 1 .run) = some t) ∨
      ∃ j leader, s.tasks[j]? = some leader ∧ ledGate leader.history = some 0 ∧ 1 ≠ j ∧
        Inevitable (poolStep world body) (fun label => ∃ choice, label = .move j choice)
          (fun _ t => ∃ u, poolStep world body t (.move 1 .run) = some u) s) := by
  have ran : (checked (poolStep world body) Always ⟨{},[]⟩ (twoFetches ++ ([.move 1 .run,.move 1 .run,.move 1 .run] : List (Label Job Choice)))).any
      (fun s => (s.tasks[1]?).any (fun task => decide (Asleep task 0 0))) = true := by
    decide +kernel
  obtain ⟨s,reach,second⟩ := checkedReaches ran
  obtain ⟨task,there,asleep⟩ := (Option.any_eq_true _ _).mp second
  have asleep : Asleep task 0 0 := of_decide_eq_true asleep
  exact ⟨s,task,reach,there,asleep,sleeperIsWoken reach there asleep⟩

end Runs

section Families
variable {site other : Site} {one two : Bytes}

theorem hexPlain (fingerprint : Bytes) : ∀ ch ∈ hexEncodeFingerprint fingerprint, ch ≠ ':' := by
  have plain : ∀ n < 16, (hexChars[n]?).getD '0' ≠ ':' := by decide
  intro ch member
  obtain ⟨b,_,written⟩ := List.mem_flatMap.mp member
  have high := plain (b.toNat / 16) (by have := b.toNat_lt; omega)
  have low := plain (b.toNat % 16) (Nat.mod_lt _ (by decide))
  rcases List.mem_cons.mp written with rfl | last
  · exact high
  · rw [List.mem_singleton.mp last]
    exact low

theorem familyPlain (fingerprint : Bytes) : ':' ∉ familyOf (hexEncodeFingerprint fingerprint) := by
  unfold familyOf
  split
  · exact fun member => hexPlain fingerprint ':' (List.mem_of_mem_take member) rfl
  · decide

/- Tasks that meet at a gate share the baseline of their family: a key is taken apart at its
last colon. -/
theorem baselineOfGate (same : (camouflageCacheKeys site one).refreshGate = (camouflageCacheKeys other two).refreshGate) :
    (camouflageCacheKeys site one).familyBaseline = (camouflageCacheKeys other two).familyBaseline := by
  have cut (site : Site) (fingerprint : Bytes) : (camouflageCacheKeys site fingerprint).refreshGate =
      (site.text ++ ":gate".toList) ++ ':'::familyOf (hexEncodeFingerprint fingerprint) := by
    simp [camouflageCacheKeys,camouflageRefreshGateKey]
  have parts := congrArg (rsplitOnce ':') same
  rw [cut,cut,rsplitOnceAppend _ (familyPlain one),rsplitOnceAppend _ (familyPlain two)] at parts
  obtain ⟨front,family⟩ := Prod.mk.inj (Option.some.inj parts)
  have site := List.append_cancel_right front
  simp only [camouflageCacheKeys,camouflageBaselineKey,site,family]

end Families

section Coalescing

def Unfilled (s : Fetches) (_ : Label Job Choice) : Prop :=
  s.shared.profiles.entries.length < s.shared.profiles.capacity ∧ s.shared.inflight.entries.length < s.shared.inflight.capacity

instance : DecidableRel Unfilled := fun _ _ => instDecidableAnd

/- Nothing is evicted: a leader at work stands in the table, and what a leader stored is found
by those that waited for it. -/
structure Coalesced (s : Caches) (views : List View) : Prop extends Sound s views where
  atTable : ∀ v ∈ views, ∀ gate key, v.stage = .holding gate → v.gateKey = some key → s.inflight.lookup key = some gate
  stored : ∀ v ∈ views, v.based = true → ∀ key, v.baseline = some key → s.profiles.lookup key ≠ none
  early : ∀ v ∈ views, v.missed = true → v.isPast = true
  missed : ∀ v ∈ views, v.missed = true → ∀ gate, v.stage.follows = some gate → ∀ w ∈ views, w.stage.leads = some gate →
    w.failed = true ∨ w.dropped = true
  left : ∀ c ∈ s.cleanups, isCompleted s c.2 = true

variable {s t : Caches} {views : List View} {v w : View} {i gate : Nat} {key : Text}

theorem followsGate {stage : Stage} (follows : stage.follows = some gate) : stage.gate = some gate := by
  cases stage <;> first | contradiction | exact follows

theorem leadsAlone {stage : Stage} (follows : stage.follows = some gate) : stage.leads = none := by
  cases stage <;> first | contradiction | rfl

theorem completedOf {g : Gate} (found : t.gates[gate]? = some g) (completed : g.completed = true) : isCompleted t gate = true := by
  rw [isCompleted,found]
  exact completed

theorem Coalesced.set (old : Coalesced s views) (here : views[i]? = some v) (sound : Sound t (views.set i w))
    (table : ∀ key gate, s.inflight.lookup key = some gate → isCompleted s gate = false → t.inflight.lookup key = some gate)
    (profiles : ∀ key, s.profiles.lookup key ≠ none → t.profiles.lookup key ≠ none)
    (left : ∀ c ∈ t.cleanups, isCompleted t c.2 = true)
    (holds : ∀ gate key, w.stage = .holding gate → w.gateKey = some key → t.inflight.lookup key = some gate)
    (stores : w.based = true → ∀ key, w.baseline = some key → t.profiles.lookup key ≠ none)
    (past : w.missed = true → w.isPast = true)
    (grows : (v.failed = true → w.failed = true) ∧ (v.dropped = true → w.dropped = true))
    (leads : ∀ gate, w.stage.leads = some gate → v.stage.leads = some gate ∨ gate = s.gates.length)
    (misses : w.missed = true → ∀ gate, w.stage.follows = some gate → ∀ u ∈ views, u.stage.leads = some gate →
      u.failed = true ∨ u.dropped = true) : Coalesced t (views.set i w) := by
  have member := List.mem_of_getElem? here
  refine ⟨sound,?_,?_,everySet old.early past,?_,left⟩
  · intro u uIn gate key holding mine
    rcases List.mem_or_eq_of_mem_set uIn with uOld | rfl
    · refine table key gate (old.atTable u uOld gate key holding mine) ?_
      have fits := old.fits u uOld
      rw [holding] at fits
      simp only [Stage.fits] at fits
      simp [isCompleted,fits]
    · exact holds gate key holding mine
  · intro u uIn based key mine
    rcases List.mem_or_eq_of_mem_set uIn with uOld | rfl
    · exact profiles key (old.stored u uOld based key mine)
    · exact stores based key mine
  · intro u uIn uMissed gate follows x xIn xLeads
    rcases List.mem_or_eq_of_mem_set uIn with uOld | rfl
    · rcases List.mem_or_eq_of_mem_set xIn with xOld | rfl
      · exact old.missed u uOld uMissed gate follows x xOld xLeads
      · rcases leads gate xLeads with was | rfl
        · exact (old.missed u uOld uMissed gate follows v member was).imp grows.1 grows.2
        · exact absurd (fitsBelow (old.fits u uOld) (followsGate follows)) (Nat.lt_irrefl _)
    · rcases List.mem_or_eq_of_mem_set xIn with xOld | rfl
      · exact misses uMissed gate follows x xOld xLeads
      · rw [leadsAlone follows] at xLeads
        contradiction

theorem Coalesced.stay (old : Coalesced s views) (here : views[i]? = some v) (sound : Sound t (views.set i w))
    (table : ∀ key, t.inflight.lookup key = s.inflight.lookup key) (profiles : ∀ key, t.profiles.lookup key = s.profiles.lookup key)
    (gates : t.gates = s.gates) (cleanups : t.cleanups = s.cleanups) (stage : w.stage = v.stage) (keys : w.keys = v.keys)
    (based : w.based = v.based) (missed : w.missed = v.missed)
    (grows : (v.failed = true → w.failed = true) ∧ (v.dropped = true → w.dropped = true)) : Coalesced t (views.set i w) := by
  have member := List.mem_of_getElem? here
  refine old.set here sound ?_ ?_ ?_ ?_ ?_ ?_ grows ?_ ?_
  · intro key gate found _
    exact (table key).trans found
  · intro key found
    rwa [profiles]
  · intro c inside
    have done := old.left c (cleanups ▸ inside)
    rwa [isCompleted,gates]
  · intro gate key holding mine
    rw [table]
    exact old.atTable v member gate key (stage ▸ holding) (by rw [View.gateKey,← keys]; exact mine)
  · intro stored key mine
    rw [profiles]
    exact old.stored v member (based ▸ stored) key (by rw [View.baseline,← keys]; exact mine)
  · intro late
    rw [View.isPast,stage]
    exact old.early v member (missed ▸ late)
  · intro gate leads
    exact .inl (stage ▸ leads)
  · intro late gate follows
    exact old.missed v member (missed ▸ late) gate (stage ▸ follows)

theorem Coalesced.advance (old : Coalesced s views) (here : views[i]? = some v) {stage : Stage}
    (sound : Sound t (views.set i { v with stage := stage })) (early : v.isPast = false) (notHolding : ∀ gate, stage ≠ .holding gate)
    (leads : stage.leads = v.stage.leads)
    (table : ∀ key gate, s.inflight.lookup key = some gate → isCompleted s gate = false → t.inflight.lookup key = some gate)
    (profiles : t.profiles = s.profiles) (left : ∀ c ∈ t.cleanups, isCompleted t c.2 = true) :
    Coalesced t (views.set i { v with stage := stage }) := by
  have member := List.mem_of_getElem? here
  have never : v.missed ≠ true := by
    intro late
    rw [old.early v member late] at early
    contradiction
  refine old.set here sound table ?_ left ?_ ?_ ?_ ⟨id,id⟩ ?_ ?_
  · intro key found
    rwa [profiles]
  · intro gate key holding
    exact absurd holding (notHolding gate)
  · intro based key mine
    rw [profiles]
    exact old.stored v member based key mine
  · exact fun late => absurd late never
  · intro gate mine
    exact .inl (leads ▸ mine)
  · exact fun late => absurd late never

theorem Coalesced.dropped (old : Coalesced s views) (here : views[i]? = some v) : Coalesced s (views.set i v.drop) :=
  old.stay here (old.toSound.drop here) (fun _ => rfl) (fun _ => rfl) rfl rfl rfl rfl rfl rfl ⟨id,fun _ => rfl⟩

/- A follower misses the baseline only behind a leader that put nothing there. -/
theorem Coalesced.missing (old : Coalesced s views) (here : views[i]? = some v) (past : v.isPast = true) (mine : v.baseline = some key)
    (absent : s.profiles.lookup key = none) (follows : v.stage.follows = some gate) (member : w ∈ views)
    (leads : w.stage.leads = some gate) : w.failed = true ∨ w.dropped = true := by
  have vIn := List.mem_of_getElem? here
  have released : w.stage.isReleased = true := by
    -- the gate of a task behind it is completed, so its leader does not hold it any more
    have fits := old.fits v vIn
    unfold View.isPast at past
    split at past
    · rename_i k stage
      rw [stage] at fits follows
      cases Option.some.inj follows
      obtain ⟨g,found,done⟩ := fits
      have leader := old.fits w member
      unfold Stage.leads at leads
      split at leads
      all_goals first | contradiction | cases Option.some.inj leads
      all_goals rename_i stands; rw [stands] at leader ⊢
      all_goals first | rfl | skip
      rw [Stage.fits,found] at leader
      rw [Option.some.inj leader] at done
      contradiction
    · contradiction
  rcases old.settled w member released with based | others
  · exfalso
    obtain ⟨keys,has,rfl⟩ := Option.map_eq_some_iff.mp mine
    have sameKey := old.keyed w member v vIn gate leads (followsGate follows)
    rw [View.gateKey,View.gateKey,has] at sameKey
    obtain ⟨theirs,has',meet⟩ := Option.map_eq_some_iff.mp sameKey
    obtain ⟨site,one,rfl⟩ := old.made v vIn keys has
    obtain ⟨other,two,rfl⟩ := old.made w member theirs has'
    refine old.stored w member based (camouflageCacheKeys site one).familyBaseline ?_ absent
    rw [View.baseline,has',Option.map_some,baselineOfGate meet]
  · exact others

theorem Coalesced.looked (old : Coalesced s views) (here : views[i]? = some v) (absent : s.profiles.lookup key = none)
    (sound : Sound t (views.set i (v.miss key))) (table : t.inflight = s.inflight) (profiles : ∀ key, t.profiles.lookup key = s.profiles.lookup key)
    (gates : t.gates = s.gates) (cleanups : t.cleanups = s.cleanups) : Coalesced t (views.set i (v.miss key)) := by
  have same (key : Text) : t.inflight.lookup key = s.inflight.lookup key := by rw [table]
  unfold View.miss at sound ⊢
  split
  · rename_i now
    rw [if_pos now] at sound
    obtain ⟨past,mine⟩ := Bool.and_eq_true_iff.mp now
    have mine : v.baseline = some key := by simpa using mine
    have member := List.mem_of_getElem? here
    refine old.set here sound ?_ ?_ ?_ ?_ ?_ ?_ ⟨id,id⟩ ?_ ?_
    · exact fun key gate found _ => (same key).trans found
    · intro key found
      rwa [profiles]
    · intro c inside
      rw [isCompleted,gates]
      exact old.left c (cleanups ▸ inside)
    · intro gate key holding its
      rw [same]
      exact old.atTable v member gate key holding its
    · intro based key its
      rw [profiles]
      exact old.stored v member based key its
    · exact fun _ => past
    · exact fun gate leads => .inl leads
    · exact fun _ gate follows u uIn leads => old.missing here past mine absent follows uIn leads
  · rename_i other
    rw [if_neg other] at sound
    exact old.stay here sound same profiles gates cleanups rfl rfl rfl rfl ⟨id,id⟩

theorem Coalesced.put (old : Coalesced s views) (here : views[i]? = some v) {p : CamouflageProfile}
    (spare : s.profiles.entries.length < s.profiles.capacity) (sound : Sound (storeProfile s key p) (views.set i (v.keep key))) :
    Coalesced (storeProfile s key p) (views.set i (v.keep key)) := by
  have member := List.mem_of_getElem? here
  have here' : (storeProfile s key p).profiles.lookup key ≠ none := by
    rw [storeProfile,Cache.lookupPut]
    simp
  have others (other : Text) (found : s.profiles.lookup other ≠ none) : (storeProfile s key p).profiles.lookup other ≠ none := by
    by_cases same : other = key
    · rw [same]
      exact here'
    · rw [storeProfile,Cache.lookupPutOther (Cache.roomyGet spare) same,Cache.lookupGet]
      exact found
  refine old.set here sound ?_ others ?_ ?_ ?_ ?_ ⟨id,id⟩ ?_ ?_
  · exact fun _ _ found _ => found
  · exact old.left
  · exact fun gate key holding mine => old.atTable v member gate key holding mine
  · intro based other mine
    simp only [View.keep,Bool.or_eq_true,decide_eq_true_eq] at based
    rcases based with before | now
    · exact others other (old.stored v member before other mine)
    · cases Option.some.inj (now.symm.trans mine)
      exact here'
  · exact old.early v member
  · exact fun gate leads => .inl leads
  · exact fun late gate follows => old.missed v member late gate follows

theorem Coalesced.acquired (old : Coalesced s views) (here : views[i]? = some v) (free : v.stage = .free) (mine : v.gateKey = some key)
    (spare : s.inflight.entries.length < s.inflight.capacity) {answer : Nat × Bool} (took : (acquireGate s key).1 = answer)
    (after' : after v (.acquire key) (some answer) = some w) (sound : Sound (acquireGate s key).2 (views.set i w)) :
    Coalesced (acquireGate s key).2 (views.set i w) := by
  have member := List.mem_of_getElem? here
  have notPast : v.isPast = false := by rw [View.isPast,free]
  have never : v.missed ≠ true := by
    intro late
    rw [old.early v member late] at notPast
    contradiction
  -- a new gate under the key leaves the gates of the other keys, and any that is at work
  have made (inflight : Cache Text Nat) (room : inflight.roomy key = true)
      (kept : ∀ other, other ≠ key → inflight.lookup other = s.inflight.lookup other)
      (idle : ∀ gate, s.inflight.lookup key = some gate → isCompleted s gate = true)
      (is : acquireGate s key = newGate s inflight key) : Coalesced (acquireGate s key).2 (views.set i w) := by
    rw [is] at took sound ⊢
    cases took
    cases Option.some.inj after'
    refine old.set here sound ?_ (fun _ found => found) ?_ ?_ ?_ ?_ ⟨id,id⟩ ?_ ?_
    · intro other gate found working
      have differ : other ≠ key := by
        rintro rfl
        rw [idle gate found] at working
        contradiction
      show (inflight.put key s.gates.length).lookup other = some gate
      rw [Cache.lookupPutOther room differ,kept other differ,found]
    · intro c inside
      obtain ⟨g,found,completed⟩ := completedAt (old.left c inside)
      refine completedOf ?_ completed
      exact (List.getElem?_append_left (List.getElem?_eq_some_iff.mp found).1).trans found
    · intro gate other holding its
      cases holding
      cases Option.some.inj (mine.symm.trans its)
      exact Cache.lookupPut
    · exact fun based other its => old.stored v member based other its
    · exact fun late => absurd late never
    · intro gate leads
      exact .inr (Option.some.inj leads).symm
    · exact fun late => absurd late never
  cases found : s.inflight.lookup key with
  | none =>
    refine made s.inflight (Cache.roomyOfSpare spare) (fun _ _ => rfl) (by rw [found]; rintro gate ⟨⟩) ?_
    rw [acquireGate,Cache.get,found]
  | some existing =>
    have get : s.inflight.get key = (some existing,(s.inflight.get key).2) := by rw [← found,← Cache.getFound]
    cases done : isCompleted s existing with
    | true =>
      refine made ((s.inflight.get key).2.pop key) (Cache.roomyPop spare) ?_ ?_ ?_
      · intro other differ
        rw [Cache.lookupPopOther differ,Cache.lookupGet]
      · rw [found]
        rintro gate ⟨⟩
        exact done
      · rw [acquireGate,get]
        exact if_pos done
    | false =>
      have is : acquireGate s key = ((existing,false),{ s with inflight := (s.inflight.get key).2 }) := by
        rw [acquireGate,get]
        exact if_neg (by rw [done]; simp)
      rw [is] at took sound ⊢
      cases took
      cases Option.some.inj after'
      refine old.advance here sound notPast (by rintro gate ⟨⟩) (by rw [free]; rfl) ?_ rfl old.left
      intro other gate there _
      exact Cache.lookupGet.trans there

theorem completedUpdate {change : Gate → Gate} {other : Nat} (completes : ∀ g, g.completed = true → (change g).completed = true)
    (done : isCompleted s other = true) : isCompleted (updateGate s gate change) other = true := by
  obtain ⟨g,found,completed⟩ := completedAt done
  by_cases same : gate = other
  · subst same
    exact completedOf (modifiedAt found) (completes g completed)
  · exact completedOf ((List.getElem?_modify_ne _ _ same).trans found) completed

theorem cleanupLookup {other : Text} {working : Nat} (done : isCompleted s gate = true) (found : s.inflight.lookup other = some working)
    (atWork : isCompleted s working = false) : (cleanupGate s key gate).inflight.lookup other = some working := by
  unfold cleanupGate
  split
  · rename_i stands
    have differ : other ≠ key := by
      rintro rfl
      cases Option.some.inj (stands.symm.trans found)
      rw [done] at atWork
      contradiction
    exact (Cache.lookupPopOther differ).trans found
  · exact found

theorem cleanupSame (s : Caches) (key : Text) (gate : Nat) : (cleanupGate s key gate).gates = s.gates ∧
    (cleanupGate s key gate).profiles = s.profiles ∧ (cleanupGate s key gate).cleanups = s.cleanups := by
  unfold cleanupGate
  split <;> exact ⟨rfl,rfl,rfl⟩

theorem Coalesced.got (old : Coalesced s views) (here : views[i]? = some v) {n : Nat}
    (after' : after v (.getEntry key) (some ((s.profiles.get key).1.bind (sampleCamouflageProfile n))) = some w)
    (sound : Sound { s with profiles := (s.profiles.get key).2 } (views.set i w)) :
    Coalesced { s with profiles := (s.profiles.get key).2 } (views.set i w) := by
  have answer : (s.profiles.get key).1.bind (sampleCamouflageProfile n) = (s.profiles.lookup key).bind (sampleCamouflageProfile n) := by
    rw [Cache.getFound]
  rw [answer] at after'
  cases found : s.profiles.lookup key with
  | none =>
    rw [found] at after'
    cases Option.some.inj after'
    exact old.looked here found sound rfl (fun _ => Cache.lookupGet) rfl rfl
  | some pool =>
    obtain ⟨p,picked,records⟩ := stockedPick (old.stocked.lookup found) n
    rw [found,Option.bind_some,picked] at after'
    obtain ⟨_,same⟩ := Option.ite_none_left_eq_some.mp after'
    cases Option.some.inj same
    exact old.stay here sound (fun _ => rfl) (fun _ => Cache.lookupGet) rfl rfl rfl rfl rfl rfl ⟨id,id⟩

theorem Coalesced.sampled (old : Coalesced s views) (here : views[i]? = some v) {site : Site} {fast : Bool} {first : Option Nat}
    {read : Option CamouflageProfile} (after' : after v (.sample site fast first) (some read) = some w)
    (sound : Sound s (views.set i w)) : Coalesced s (views.set i w) := by
  cases read with
  | none =>
    cases Option.some.inj after'
    exact old.stay here sound (fun _ => rfl) (fun _ => rfl) rfl rfl rfl rfl rfl rfl ⟨fun _ => rfl,id⟩
  | some p =>
    obtain ⟨_,same⟩ := Option.ite_none_left_eq_some.mp after'
    cases Option.some.inj same
    exact old.stay here sound (fun _ => rfl) (fun _ => rfl) rfl rfl rfl rfl rfl rfl ⟨id,id⟩

theorem Coalesced.loaded (old : Coalesced s views) (here : views[i]? = some v) (allowed : allows v (.load gate))
    (after' : after v (.load gate) (isCompleted s gate) = some w) (sound : Sound s (views.set i w)) : Coalesced s (views.set i w) := by
  have stands : v.stage.leads = none ∧ v.isPast = false := by
    rcases allowed with stands | ⟨seen,stands⟩ | stands <;> rw [View.isPast,stands] <;> exact ⟨rfl,rfl⟩
  have table (key : Text) (gate : Nat) (found : s.inflight.lookup key = some gate) (_ : isCompleted s gate = false) :
      s.inflight.lookup key = some gate := found
  cases completed : isCompleted s gate with
  | true =>
    rw [completed] at after'
    cases Option.some.inj after'
    exact old.advance here sound stands.2 (by rintro gate ⟨⟩) stands.1.symm table rfl old.left
  | false =>
    rw [completed] at after'
    simp only [after,afterLoad,Bool.false_eq_true,if_false] at after'
    split at after' <;> try contradiction
    · cases Option.some.inj after'
      exact old.stay here sound (fun _ => rfl) (fun _ => rfl) rfl rfl rfl rfl rfl rfl ⟨id,id⟩
    · cases Option.some.inj after'
      exact old.advance here sound stands.2 (by rintro gate ⟨⟩) stands.1.symm table rfl old.left

theorem Coalesced.cleaned (old : Coalesced s views) (here : views[i]? = some v) {choice : Choice} (allowed : allows v (.cleanup key gate))
    (acted : act s (.cleanup key gate) choice = some ((),t)) (sound : Sound t (views.set i { v with stage := .released gate })) :
    Coalesced t (views.set i { v with stage := .released gate }) := by
  have stands := allowed.1
  have done : isCompleted s gate = true := by
    have fits := old.fits v (List.mem_of_getElem? here)
    rw [stands] at fits
    exact completedOf fits rfl
  have early : v.isPast = false := by rw [View.isPast,stands]
  have leads : (Stage.released gate).leads = v.stage.leads := by rw [stands]; rfl
  cases choice <;> cases acted
  case run.refl =>
    obtain ⟨gates,profiles,cleanups⟩ := cleanupSame s key gate
    refine old.advance here sound early (by rintro gate ⟨⟩) leads (fun _ _ found working => cleanupLookup done found working) profiles ?_
    intro c inside
    rw [isCompleted,gates]
    exact old.left c (cleanups ▸ inside)
  case contended.refl =>
    refine old.advance here sound early (by rintro gate ⟨⟩) leads (fun _ _ found _ => found) rfl ?_
    intro c inside
    rcases List.mem_append.mp inside with before | new
    · exact old.left c before
    · rw [List.mem_singleton.mp new]
      exact done
  case noRuntime.refl =>
    exact old.advance here sound early (by rintro gate ⟨⟩) leads (fun _ _ found _ => found) rfl old.left

theorem coalescedActed {e : Op} {choice : Choice} {a : Answer e} (old : Coalesced s views) (here : views[i]? = some v)
    (allowed : allows v e) (spare : s.profiles.entries.length < s.profiles.capacity ∧ s.inflight.entries.length < s.inflight.capacity)
    (acted : act s e choice = some (a,t)) : ∃ w, after v e a = some w ∧ Coalesced t (views.set i w) := by
  obtain ⟨w,after',sound⟩ := soundActed old.toSound here allowed acted
  refine ⟨w,after',?_⟩
  cases e with
  | getEntry key =>
    cases choice <;> cases acted
    case drop.refl =>
      cases Option.some.inj after'
      exact old.dropped here
    case draw.refl n => exact old.got here after' sound
  | coolingDown key =>
    cases choice <;> cases acted
    case drop.refl =>
      cases Option.some.inj after'
      exact old.dropped here
    case run.refl =>
      cases Option.some.inj after'
      obtain ⟨failures,same⟩ := coolingKeeps s key
      rw [same] at sound ⊢
      exact old.stay here sound (fun _ => rfl) (fun _ => rfl) rfl rfl rfl rfl rfl rfl ⟨id,id⟩
  | noteFailure key =>
    cases choice <;> cases acted
    case drop.refl =>
      cases Option.some.inj after'
      exact old.dropped here
    case run.refl =>
      cases Option.some.inj after'
      exact old.stay here sound (fun _ => rfl) (fun _ => rfl) rfl rfl rfl rfl rfl rfl ⟨id,id⟩
  | clearFailure key =>
    cases choice <;> cases acted
    case drop.refl =>
      cases Option.some.inj after'
      exact old.dropped here
    case run.refl =>
      cases Option.some.inj after'
      exact old.stay here sound (fun _ => rfl) (fun _ => rfl) rfl rfl rfl rfl rfl rfl ⟨id,id⟩
  | store key p =>
    cases choice <;> cases acted
    case drop.refl =>
      cases Option.some.inj after'
      exact old.dropped here
    case run.refl =>
      cases Option.some.inj after'
      exact old.put here spare.1 sound
  | acquire key =>
    cases choice <;> cases acted
    case drop.refl =>
      cases Option.some.inj after'
      exact old.dropped here
    case run.refl => exact old.acquired here allowed.1 allowed.2 spare.2 rfl after' sound
  | sample site fast expectedFirst =>
    cases choice <;> cases acted
    case drop.refl =>
      cases Option.some.inj after'
      exact old.dropped here
    case unreachable.refl =>
      cases Option.some.inj after'
      exact old.stay here sound (fun _ => rfl) (fun _ => rfl) rfl rfl rfl rfl rfl rfl ⟨fun _ => rfl,id⟩
    case endpoint.refl clock stream => exact old.sampled here after' sound
  | load gate =>
    cases choice <;> cases acted
    exact old.loaded here allowed after' sound
  | notified gate =>
    cases choice <;> cases acted
    cases Option.some.inj after'
    have stands : v.stage = .joined gate := allowed
    exact old.advance here sound (by rw [View.isPast,stands]) (by rintro gate ⟨⟩) (by rw [stands]; rfl) (fun _ _ found _ => found) rfl old.left
  | sleep gate seen =>
    have stands : v.stage = .listening gate seen := allowed
    cases choice <;> try cases acted
    case drop.refl =>
      cases Option.some.inj after'
      exact old.dropped here
    case run =>
      obtain ⟨_,same⟩ := Option.ite_none_left_eq_some.mp acted
      cases Option.some.inj same
      cases Option.some.inj after'
      exact old.advance here sound (by rw [View.isPast,stands]) (by rintro gate ⟨⟩) (by rw [stands]; rfl) (fun _ _ found _ => found) rfl old.left
  | complete gate =>
    cases choice <;> cases acted
    cases Option.some.inj after'
    have stands := allowed.1
    exact old.advance here sound (by rw [View.isPast,stands]) (by rintro gate ⟨⟩) (by rw [stands]; rfl) (fun _ _ found _ => found) rfl
      (fun c inside => completedUpdate (fun _ _ => rfl) (old.left c inside))
  | notifyWaiters gate =>
    cases choice <;> cases acted
    cases Option.some.inj after'
    have stands : v.stage = .completed gate := allowed
    exact old.advance here sound (by rw [View.isPast,stands]) (by rintro gate ⟨⟩) (by rw [stands]; rfl) (fun _ _ found _ => found) rfl
      (fun c inside => completedUpdate (fun _ done => done) (old.left c inside))
  | cleanup key gate =>
    cases Option.some.inj after'
    exact old.cleaned here allowed acted sound

theorem coalescedDrifted {choice : Choice} (old : Coalesced s views) (drifted : drift s choice = some t) : Coalesced t views := by
  have sound := soundDrifted old.toSound drifted
  cases choice <;> try contradiction
  · cases Option.some.inj drifted
    exact ⟨sound,old.atTable,old.stored,old.early,old.missed,old.left⟩
  · rename_i place
    obtain ⟨⟨key,gate⟩,found,same⟩ := Option.bind_eq_some_iff.mp drifted
    cases Option.some.inj same
    obtain ⟨gates,profiles,cleanups⟩ := cleanupSame { s with cleanups := s.cleanups.eraseIdx place } key gate
    have done : isCompleted s gate = true := old.left (key,gate) (List.mem_of_getElem? found)
    refine ⟨sound,?_,?_,old.early,old.missed,?_⟩
    · intro v member working other holding mine
      refine cleanupLookup done (old.atTable v member working other holding mine) ?_
      have fits := old.fits v member
      rw [holding] at fits
      simp only [Stage.fits] at fits
      simp [isCompleted,fits]
    · intro v member based other mine
      rw [profiles]
      exact old.stored v member based other mine
    · intro c inside
      rw [isCompleted,gates]
      exact old.left c (List.mem_of_mem_eraseIdx (cleanups ▸ inside))

theorem coalescedSpawned (job : Job) (old : Coalesced s views) : Coalesced s (views ++ [fresh job]) := by
  obtain ⟨free,_⟩ := freshFree job
  have calm : (fresh job).based = false ∧ (fresh job).missed = false := by cases job <;> exact ⟨rfl,rfl⟩
  refine ⟨soundSpawned job old.toSound,?_,?_,?_,?_,old.left⟩
  · refine everyPush old.atTable ?_
    rw [free]
    rintro gate key ⟨⟩
  · refine everyPush old.stored ?_
    rw [calm.1]
    intro no
    contradiction
  · refine everyPush old.early ?_
    rw [calm.2]
    intro no
    contradiction
  · intro v vIn late gate follows w wIn leads
    rcases List.mem_append.mp vIn with vOld | vNew
    · rcases List.mem_append.mp wIn with wOld | wNew
      · exact old.missed v vOld late gate follows w wOld leads
      · rw [List.mem_singleton.mp wNew,free] at leads
        contradiction
    · rw [List.mem_singleton.mp vNew,calm.2] at late
      contradiction

theorem fetchesCoalesce {s : Fetches} (reach : Reach (poolStep world body) Unfilled ⟨{},[]⟩ s) : Agrees protocol ends fresh Coalesced s := by
  refine poolKeeps ⟨soundEmpty,?_,?_,?_,?_,?_⟩ bodyFollows coalescedSpawned
    (fun old here _ _ spare allowed acted => coalescedActed old here allowed spare acted) (fun old _ drifted => coalescedDrifted old drifted) reach
  all_goals intro x member
  all_goals contradiction

def Contacting (task : FetchTask) : Prop := ∃ site fast first, task.program.upcoming = some (.sample site fast first)

def gateKeyOf (job : Job) : Option Text := (fresh job).gateKey

variable {s : Fetches} {i j gate : Nat} {one two : FetchTask}

/- While the tables are not full, the leaders of one family contact the endpoint one after
the other. -/
theorem oneLeaderContacts (reach : Reach (poolStep world body) Unfilled ⟨{},[]⟩ s) (here : s.tasks[i]? = some one)
    (there : s.tasks[j]? = some two) (leads : ledGate one.history ≠ none) (also : ledGate two.history ≠ none) (contacts : Contacting one)
    (meanwhile : Contacting two) (family : gateKeyOf one.job = gateKeyOf two.job) : i = j := by
  obtain ⟨views,stand,old⟩ := fetchesCoalesce reach
  have atWork {k : Nat} {task : FetchTask} (found : s.tasks[k]? = some task) (led : ledGate task.history ≠ none)
      (contacts : Contacting task) : ∃ v gate key, views[k]? = some v ∧ v.stage = .holding gate ∧ v.gateKey = some key ∧
        gateKeyOf task.job = some key := by
    obtain ⟨v,place,stands⟩ := forallGet stand found
    obtain ⟨free,calm⟩ := freshFree task.job
    have record := recorded free calm stands.led
    obtain ⟨site,fast,first,asked⟩ := contacts
    obtain ⟨next,program⟩ := upcomingCall asked
    have owes := stands.owes
    rw [program] at owes
    have leads : v.stage.leads ≠ none := by
      rw [record.leads]
      exact led
    rcases owes.1 with background | ⟨gate,holding⟩ | ⟨past,_⟩
    · exact absurd (record.keyed background).1 leads
    · obtain ⟨keys,mine⟩ := Option.ne_none_iff_exists'.mp (fun none => leads (record.keyed none).1)
      refine ⟨v,gate,keys.refreshGate,place,holding,by rw [View.gateKey,mine]; rfl,?_⟩
      rw [gateKeyOf,View.gateKey,← record.keys,mine]
      rfl
    · unfold View.isPast at past
      split at past
      · rename_i stage
        rw [stage] at leads
        exact absurd rfl leads
      · contradiction
  obtain ⟨v,gate,key,place,holding,mine,ours⟩ := atWork here leads contacts
  obtain ⟨w,gate',key',place',holding',mine',theirs⟩ := atWork there also meanwhile
  cases Option.some.inj (ours.symm.trans (family.trans theirs))
  have table := old.atTable v (List.mem_of_getElem? place) gate key holding mine
  have table' := old.atTable w (List.mem_of_getElem? place') gate' key holding' mine'
  cases Option.some.inj (table.symm.trans table')
  exact old.place place place' (by rw [holding]; rfl) (by rw [holding']; rfl)

theorem oneLeaderContactsOnce : ∃ (s : Fetches) (j : Nat) (one two : FetchTask), Reach (poolStep world body) Unfilled ⟨{},[]⟩ s ∧
    s.tasks[0]? = some one ∧ s.tasks[j]? = some two ∧ ledGate one.history ≠ none ∧ ledGate two.history ≠ none ∧ Contacting one ∧
    Contacting two ∧ gateKeyOf one.job = gateKeyOf two.job ∧ 0 = j := by
  have ran : (checked (poolStep world body) Unfilled ⟨{},[]⟩ twoFetches).any (fun s => (s.tasks[0]?).any (fun task =>
      decide (ledGate task.history ≠ none) && decide (task.program.upcoming = some (.sample ⟨['h'],443⟩ false none)))) = true := by
    decide +kernel
  obtain ⟨s,reach,first⟩ := checkedReaches ran
  obtain ⟨task,there,both⟩ := (Option.any_eq_true _ _).mp first
  obtain ⟨leads,contacts⟩ := Bool.and_eq_true_iff.mp both
  have leads := of_decide_eq_true leads
  have contacts : Contacting task := ⟨_,_,_,of_decide_eq_true contacts⟩
  exact ⟨s,0,task,task,reach,there,there,leads,leads,contacts,contacts,rfl,
    oneLeaderContacts reach there there leads leads contacts contacts rfl⟩

theorem followerContactsLast (reach : Reach (poolStep world body) Unfilled ⟨{},[]⟩ s) (here : s.tasks[i]? = some one)
    (there : s.tasks[j]? = some two) (leads : ledGate one.history = some gate) (joined : joinedGate two.history = some gate)
    (contacted : hasSampled two.history = true) : hasFailed one.history = true ∨ wasDropped one.history = true := by
  obtain ⟨views,stand,old⟩ := fetchesCoalesce reach
  obtain ⟨v,place,stands⟩ := forallGet stand here
  obtain ⟨w,place',stands'⟩ := forallGet stand there
  obtain ⟨free,calm⟩ := freshFree one.job
  obtain ⟨free',calm'⟩ := freshFree two.job
  have record := recorded free calm stands.led
  have record' := recorded free' calm' stands'.led
  have follows : w.stage.follows = some gate := record'.follows.trans joined
  rw [← record.failed,← record.dropped]
  rcases record'.sampled contacted with background | leader | late
  · rw [(record'.keyed background).2] at follows
    contradiction
  · rw [leadsAlone follows] at leader
    contradiction
  · exact old.missed w (List.mem_of_getElem? place') late gate follows v (List.mem_of_getElem? place) (record.leads.trans leads)

theorem followerContactsLastOnce : ∃ (s : Fetches) (one two : FetchTask), Reach (poolStep world body) Unfilled ⟨{},[]⟩ s ∧
    s.tasks[0]? = some one ∧ s.tasks[1]? = some two ∧ ledGate one.history = some 0 ∧ joinedGate two.history = some 0 ∧
    hasSampled two.history = true ∧ (hasFailed one.history = true ∨ wasDropped one.history = true) := by
  have ran : (checked (poolStep world body) Unfilled ⟨{},[]⟩ (twoFetches ++ ([.move 1 .run,.move 1 .run,.move 1 .run,
      .move 0 .unreachable,.move 0 .run,.move 0 .run,.move 0 .run,.move 0 .contended,.drift (.pass 31000000000),.move 1 .run,.move 1 .run,
      .move 1 (.draw 0),.move 1 (.draw 0),.move 1 (.draw 0),.move 1 .run,.move 1 .unreachable] : List (Label Job Choice)))).any (fun s =>
        (s.tasks[0]?).any (fun task => decide (ledGate task.history = some 0)) &&
          (s.tasks[1]?).any (fun task => decide (joinedGate task.history = some 0) && hasSampled task.history)) = true := by
    decide +kernel
  obtain ⟨s,reach,both⟩ := checkedReaches ran
  obtain ⟨first,second⟩ := Bool.and_eq_true_iff.mp both
  obtain ⟨one,here,leads⟩ := (Option.any_eq_true _ _).mp first
  obtain ⟨two,there,follower⟩ := (Option.any_eq_true _ _).mp second
  obtain ⟨joined,contacted⟩ := Bool.and_eq_true_iff.mp follower
  have leads := of_decide_eq_true leads
  have joined := of_decide_eq_true joined
  exact ⟨s,one,two,reach,here,there,leads,joined,contacted,followerContactsLast reach here there leads joined contacted⟩

end Coalescing

end KanoTls.CamouflageFetch
