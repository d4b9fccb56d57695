import KanoTls.RegistryLimit

/-! A session that is closed because nothing happens on it: by its own read loop, on the
server, after `is_idle_timeout_eligible`; by the monitor of the pool, on the client, which
drains a connection and closes it when it has no active streams. -/
namespace KanoTls.Lifecycle
open Registry Pending Entries

inductive ConnectionState where
  | active | draining | closed
  deriving DecidableEq, Repr

/- The monitor has loaded `active_streams`; or is about to close the connection. -/
inductive MonitorPc where
  | watching | loaded (active : Nat) | closing
  deriving DecidableEq, Repr

/- The checks of `is_idle_timeout_eligible`, each under its own lock. -/
inductive IdlePc where
  | off | counted | inbound | eligible
  deriving DecidableEq, Repr

/- `writing` are the streams whose own FIN is still to come; `selected` counts the callers
that `select_active_connection` has given this connection and that have not opened on it
yet. -/
structure State where
  session : Session
  writing : List StreamId := []
  pool : ConnectionState := .active
  selected : Nat := 0
  monitor : MonitorPc := .watching
  idle : IdlePc := .off

inductive Action where
  | session (a : Registry.Action)
  | finish (sid : StreamId)
  | select
  | visit
  | monitor (expired : Bool)
  | drainClose
  | idleCount | idleInbound | idleOpen | idleClose
  deriving DecidableEq, Repr

/- What the read loop does itself, and so not while it is in its idle check. -/
def readLoop : Registry.Action → Bool
  | .frame _ | .loop _ | .stop => true
  | _ => false

def sessionStep (s : State) (a : Registry.Action) : Option State :=
  (Registry.step s.session a).map (fun session =>
    {s with session := session,writing := s.writing ++ (registers s.session a).toList})

/- On the client an open comes from a caller that has selected the connection. -/
def step (s : State) : Action → Option State
  | .session a =>
    if readLoop a ∧ s.idle ≠ .off then none
    else if a = .openCheck ∧ s.session.isClient then
      if s.selected = 0 then none else sessionStep {s with selected := s.selected - 1} a
    else sessionStep s a
  | .finish sid => some {s with writing := s.writing.filter (· ≠ sid)}
  | .select => if s.pool = .active ∧ s.session.closed = false then some {s with selected := s.selected + 1} else none
  | .visit =>
    if s.session.isClient ∧ s.monitor = .watching ∧ s.pool ≠ .closed ∧ s.session.closed = false then
      some {s with monitor := .loaded s.session.activeStreamCount}
    else none
  | .monitor expired =>
    match s.monitor with
    | .loaded active =>
      match s.pool with
      | .active => some {s with monitor := .watching,pool := if expired then .draining else .active}
      | .draining => some {s with monitor := if active = 0 then .closing else .watching}
      | .closed => some {s with monitor := .watching}
    | _ => none
  | .drainClose =>
    if s.monitor = .closing then
      (Registry.step s.session .close).map (fun session => {s with session := session,pool := .closed,monitor := .watching})
    else none
  | .idleCount =>
    if s.session.isClient = false ∧ s.idle = .off ∧ s.session.loop = .ready then
      (Registry.step s.session .prune).map (fun session =>
        {s with session := session,idle := if session.activeStreamCount > 0 then .off else .counted})
    else none
  | .idleInbound =>
    if s.idle = .counted then some {s with idle := if s.session.pendingInbound > 0 then .off else .inbound} else none
  | .idleOpen =>
    if s.idle = .inbound then some {s with idle := if s.session.pendingOpen.streams.isEmpty then .eligible else .off} else none
  | .idleClose =>
    if s.idle = .eligible then
      (Registry.step s.session .stop).map (fun session => {s with session := session,idle := .off})
    else none

def start (isClient : Bool) (maxStreams : Nat) : State := {session := Registry.start isClient maxStreams}

abbrev Run (ok : State → Action → Prop) (isClient : Bool) (maxStreams : Nat) : State → Prop :=
  Machine.Reach step ok (start isClient maxStreams)

def closes : Action → Bool
  | .drainClose | .idleClose => true
  | _ => false

/- No stream of the peer is reserved or waits for `accept_stream`. -/
structure NoneWaits (s : Session) : Prop where
  reserved : s.pendingInbound = 0
  waiting : s.pendingOpen.streams = ∅

/- No stream is open in either direction; on a server none is still to be accepted. What a
client's read loop puts among the waiting streams it takes away itself. -/
structure Empty (s : State) : Prop where
  streams : keysWhere counted s.session.streams = ∅
  writing : s.writing = []
  server : s.session.isClient = false → NoneWaits s.session

def armed (s : State) : Bool :=
  s.monitor = .closing || s.monitor = .loaded 0 && s.pool = .draining || s.idle ≠ .off

/- The count is zero only where no half-closed stream still writes; from then to the close
nothing registers; and the registrations keep the count exact. -/
def okStep (s : State) : Action → Bool
  | .session a => alone s.session a && (!armed s || (registers s.session a).isNone)
  | .visit => s.pool ≠ .draining || s.session.activeStreamCount > 0 || s.writing.isEmpty
  | .idleCount => s.session.pruneOrphanedStreams.activeStreamCount > 0 || s.writing.isEmpty
  | _ => true

abbrev Ok (s : State) (a : Action) : Prop := okStep s a = true

/- The first check leaves no stream open; the second and the third add that none is
reserved and that none waits. -/
structure Spared (s : State) : Prop where
  exact' : Exact s.session
  quiet : armed s = true → keysWhere counted s.session.streams = ∅ ∧ s.writing = []
  pooled : s.monitor ≠ .watching → s.session.isClient = true
  serving : s.idle ≠ .off → s.session.isClient = false
  reserved : s.idle = .inbound ∨ s.idle = .eligible → s.session.pendingInbound = 0
  waiting : s.idle = .eligible → s.session.pendingOpen.streams = ∅

section
variable {s t : State}

theorem countedNone {u : Session} (exact' : Exact u) (zero : u.activeStreamCount = 0) : keysWhere counted u.streams = ∅ := by
  by_cases here : u.loop = .zero
  · rw [exact'.emptied here]
    rfl
  · have positive := exact'.positive
    have count := exact'.count here
    have none : live u.streams = 0 := by
      unfold Session.activeStreamCount at zero
      rw [if_neg (Int.not_lt.mpr positive)] at zero
      omega
    rw [← Finset.card_eq_zero,cardKeysWhere]
    exact none

theorem countedKept {u v : Session} {a : Registry.Action} (moved : Registry.step u a = some v) (quiet : registers u a = none)
    (none : keysWhere counted u.streams = ∅) : keysWhere counted v.streams = ∅ := by
  rw [Finset.eq_empty_iff_forall_notMem]
  intro sid member
  rcases countedStep moved member with old | new
  · rw [none] at old
    exact absurd old (Finset.notMem_empty sid)
  · rw [quiet] at new
    contradiction

theorem acceptWaits {u v : Session} {i : Nat} (moved : u.acceptStep i = some v) :
    v.pendingInbound ≤ u.pendingInbound ∧ (u.pendingOpen.streams = ∅ → v.pendingOpen.streams = ∅) := by
  have removed {o : PendingOpenStreams} (sid : StreamId) (none : o.streams = ∅) : (o.remove sid).streams = ∅ := by
    simp [PendingOpenStreams.remove,none]
  unfold Session.acceptStep at moved
  split at moved
  · contradiction
  · rename_i sid pc found
    cases pc with
    | done => contradiction
    | begin | register =>
      cases Option.some.inj moved
      exact ⟨Nat.le_refl _,id⟩
    | release =>
      dsimp only at moved
      split at moved
      · rename_i next first
        cases Option.some.inj moved
        refine ⟨Nat.le_refl _,fun none => ?_⟩
        simp [PendingOpenStreams.releaseReservation,none] at first
      · cases Option.some.inj moved
        exact ⟨Nat.le_refl _,id⟩
    | releaseCount =>
      cases Option.some.inj moved
      exact ⟨Nat.sub_le _ _,id⟩
    | take delivered =>
      dsimp only at moved
      split at moved
      · cases Option.some.inj moved
        exact ⟨Nat.le_refl _,id⟩
      · rename_i payloads fin next taken
        have gone : u.pendingOpen.streams ≠ ∅ := by
          intro none
          simp [PendingOpenStreams.takeReady,none] at taken
        split at moved <;> cases Option.some.inj moved <;> exact ⟨Nat.le_refl _,fun none => absurd none gone⟩
    | mark =>
      cases Option.some.inj moved
      have aside := markAside u sid
      exact ⟨Nat.le_of_eq aside.pendingInbound,fun none => aside.pendingOpen ▸ none⟩
    | unregister =>
      cases Option.some.inj moved
      have aside := unregisterAside u sid
      exact ⟨Nat.le_of_eq aside.pendingInbound,fun none => aside.pendingOpen ▸ none⟩
    | remove =>
      cases Option.some.inj moved
      exact ⟨Nat.le_refl _,removed sid⟩

theorem waitsKept {u v : Session} {a : Registry.Action} (outside : readLoop a = false) (moved : Registry.step u a = some v) :
    v.pendingInbound ≤ u.pendingInbound ∧ (u.pendingOpen.streams = ∅ → v.pendingOpen.streams = ∅) := by
  have beside (aside : Aside u v) :
      v.pendingInbound ≤ u.pendingInbound ∧ (u.pendingOpen.streams = ∅ → v.pendingOpen.streams = ∅) :=
    ⟨Nat.le_of_eq aside.pendingInbound,fun none => aside.pendingOpen ▸ none⟩
  cases a with
  | frame f | loop answer | stop => contradiction
  | accept i => exact acceptWaits moved
  | openRegister sid => exact beside (openAside moved)
  | unregister sid =>
    cases Option.some.inj moved
    exact beside (unregisterAside u sid)
  | mark sid =>
    cases Option.some.inj moved
    exact beside (markAside u sid)
  | prune =>
    cases Option.some.inj moved
    exact beside (pruneAside u)
  | close | openCancel sid =>
    cases Option.some.inj moved
    exact ⟨Nat.le_refl _,id⟩
  | openCheck =>
    simp only [Registry.step,Session.openCheck] at moved
    repeat' split at moved
    all_goals first | contradiction | (cases Option.some.inj moved; exact ⟨Nat.le_refl _,id⟩)
  | acceptTake | abandon sid =>
    simp only [Registry.step] at moved
    split at moved
    · contradiction
    · cases Option.some.inj moved
      exact ⟨Nat.le_refl _,id⟩

theorem sessionSpared (spared : Spared s) {selected : Nat} {a : Registry.Action} (meets : Ok s (.session a))
    (outside : s.idle ≠ .off → readLoop a = false) (went : sessionStep {s with selected := selected} a = some t) : Spared t := by
  obtain ⟨session,moved,rfl⟩ := Option.map_eq_some_iff.mp went
  simp only [Ok,okStep,Bool.and_eq_true,Bool.or_eq_true,Bool.not_eq_eq_eq_not,Bool.not_true,
    Option.isNone_iff_eq_none] at meets
  have client := (fixedKept moved).isClient
  constructor
  case exact' => exact exactStep spared.exact' meets.1 moved
  case quiet =>
    intro here
    have here : armed s = true := here
    obtain ⟨none,quiet⟩ := spared.quiet here
    have unregistered : registers s.session a = Option.none := by
      refine meets.2.resolve_left ?_
      rw [here]
      exact Bool.noConfusion
    refine ⟨countedKept moved unregistered none,?_⟩
    show s.writing ++ (registers s.session a).toList = []
    rw [unregistered,quiet]
    rfl
  case pooled => exact fun busy => client.trans (spared.pooled busy)
  case serving => exact fun busy => client.trans (spared.serving busy)
  case reserved =>
    intro past
    have idle : s.idle ≠ .off := by rcases past with here | here <;> exact fun off => absurd (off.symm.trans here) IdlePc.noConfusion
    have less := (waitsKept (outside idle) moved).1
    exact Nat.le_zero.mp (less.trans_eq (spared.reserved past))
  case waiting =>
    intro past
    have idle : s.idle ≠ .off := fun off => absurd (off.symm.trans past) IdlePc.noConfusion
    exact (waitsKept (outside idle) moved).2 (spared.waiting past)

theorem restSpared (spared : Spared s) (session : t.session = s.session) (writing : t.writing = s.writing)
    (idle : t.idle = s.idle) (arms : armed t = true → armed s = true)
    (pooled : t.monitor ≠ .watching → s.session.isClient = true) : Spared t := by
  refine ⟨session ▸ spared.exact',?_,session ▸ pooled,?_,?_,?_⟩
  · rw [session,writing]
    exact fun here => spared.quiet (arms here)
  all_goals rw [session,idle]
  · exact spared.serving
  · exact spared.reserved
  · exact spared.waiting

theorem loadedArmed {active : Nat} (here : s.monitor = .loaded active) (zero : active = 0) (draining : s.pool = .draining) :
    armed s = true := by
  simp only [armed,here,zero,draining,decide_true,Bool.true_and,Bool.or_true,Bool.true_or]

theorem idleArmed (here : s.idle ≠ .off) : armed s = true := by
  simp only [armed,here,decide_true,ne_eq,not_false_eq_true,Bool.or_true]

theorem visitSpared (spared : Spared s) (meets : Ok s .visit) (moved : step s .visit = some t) : Spared t := by
  simp only [step] at moved
  split at moved
  · rename_i ready
    cases Option.some.inj moved
    refine ⟨spared.exact',?_,fun _ => ready.1,spared.serving,spared.reserved,spared.waiting⟩
    intro here
    by_cases was : armed s = true
    · exact spared.quiet was
    · -- the load itself is what arms
      have loads : s.session.activeStreamCount = 0 ∧ s.pool = .draining := by
        simp only [armed,ready.2.1,Bool.or_eq_true,Bool.and_eq_true,decide_eq_true_eq,MonitorPc.loaded.injEq,reduceCtorEq,
          false_or,decide_false,Bool.false_and] at here was
        rcases here with loads | idle
        · exact loads
        · exact absurd idle was
      simp only [Ok,okStep,loads.1,loads.2,ne_eq,not_true_eq_false,decide_false,gt_iff_lt,Nat.lt_irrefl,Bool.false_or,
        List.isEmpty_iff] at meets
      exact ⟨countedNone spared.exact' loads.1,meets⟩
  · contradiction

theorem monitorSpared (spared : Spared s) {expired : Bool} (moved : step s (.monitor expired) = some t) : Spared t := by
  simp only [step] at moved
  split at moved
  · rename_i active here
    have client := spared.pooled (fun watching => absurd (watching.symm.trans here) MonitorPc.noConfusion)
    split at moved
    · cases Option.some.inj moved
      refine restSpared spared rfl rfl rfl ?_ (fun _ => client)
      intro arms
      simp only [armed,reduceCtorEq,decide_false,Bool.false_and,Bool.false_or,decide_eq_true_eq] at arms
      exact idleArmed arms
    · rename_i draining
      cases Option.some.inj moved
      refine restSpared spared rfl rfl rfl ?_ (fun _ => client)
      intro arms
      by_cases zero : active = 0
      · exact loadedArmed here zero draining
      · simp only [armed,zero,if_false,reduceCtorEq,decide_false,Bool.false_and,Bool.false_or,decide_eq_true_eq] at arms
        exact idleArmed arms
    · cases Option.some.inj moved
      refine restSpared spared rfl rfl rfl ?_ (fun _ => client)
      intro arms
      simp only [armed,reduceCtorEq,decide_false,Bool.false_and,Bool.false_or,decide_eq_true_eq] at arms
      exact idleArmed arms
  · contradiction

theorem drainSpared (spared : Spared s) (moved : step s .drainClose = some t) : Spared t := by
  simp only [step] at moved
  split at moved
  · rename_i here
    obtain ⟨session,closed,rfl⟩ := Option.map_eq_some_iff.mp moved
    obtain ⟨none,quiet⟩ := spared.quiet (by simp only [armed,here,decide_true,Bool.true_or])
    have none := countedKept closed rfl none
    have exact' := exactStep spared.exact' rfl closed
    cases Option.some.inj closed
    exact ⟨exact',fun _ => ⟨none,quiet⟩,fun busy => absurd rfl busy,spared.serving,spared.reserved,spared.waiting⟩
  · contradiction

theorem countSpared (spared : Spared s) (meets : Ok s .idleCount) (moved : step s .idleCount = some t) : Spared t := by
  simp only [step] at moved
  split at moved
  · rename_i ready
    obtain ⟨session,pruned,rfl⟩ := Option.map_eq_some_iff.mp moved
    have exact' := exactStep spared.exact' rfl pruned
    have client := (fixedKept pruned).isClient
    have early {pc : IdlePc} (past : pc = .inbound ∨ pc = .eligible)
        (here : (if session.activeStreamCount > 0 then .off else .counted) = pc) : False := by
      split at here <;> subst here <;> rcases past with is | is <;> contradiction
    refine ⟨exact',?_,fun busy => client.trans (spared.pooled busy),fun _ => client.trans ready.1,
      fun past => (early past rfl).elim,fun past => (early (.inr past) rfl).elim⟩
    intro here
    by_cases was : armed s = true
    · obtain ⟨none,quiet⟩ := spared.quiet was
      exact ⟨countedKept pruned rfl none,quiet⟩
    · -- the count itself is what arms
      have zero : session.activeStreamCount = 0 := by
        by_contra some'
        refine was ?_
        rw [if_pos (Nat.pos_of_ne_zero some')] at here
        rw [← here]
        unfold armed
        rw [ready.2.1]
      cases Option.some.inj pruned
      simp only [Ok,okStep,zero,gt_iff_lt,Nat.lt_irrefl,decide_false,Bool.false_or,List.isEmpty_iff] at meets
      exact ⟨countedNone exact' zero,meets⟩
  · contradiction

theorem inboundSpared (spared : Spared s) (moved : step s .idleInbound = some t) : Spared t := by
  simp only [step] at moved
  split at moved
  · rename_i here
    cases Option.some.inj moved
    have busy : s.idle ≠ .off := fun off => absurd (off.symm.trans here) IdlePc.noConfusion
    refine ⟨spared.exact',fun _ => spared.quiet (idleArmed busy),spared.pooled,fun _ => spared.serving busy,?_,?_⟩
    · intro past
      by_contra more
      have off : (if s.session.pendingInbound > 0 then IdlePc.off else .inbound) = .off := if_pos (Nat.pos_of_ne_zero more)
      rcases past with is | is <;> exact absurd (off.symm.trans is) IdlePc.noConfusion
    · intro past
      dsimp only at past
      split at past <;> contradiction
  · contradiction

theorem openSpared (spared : Spared s) (moved : step s .idleOpen = some t) : Spared t := by
  simp only [step] at moved
  split at moved
  · rename_i here
    cases Option.some.inj moved
    have busy : s.idle ≠ .off := fun off => absurd (off.symm.trans here) IdlePc.noConfusion
    refine ⟨spared.exact',fun _ => spared.quiet (idleArmed busy),spared.pooled,fun _ => spared.serving busy,
      fun _ => spared.reserved (.inl here),?_⟩
    intro past
    by_contra more
    have waits : s.session.pendingOpen.streams.isEmpty = false := Std.ExtTreeMap.isEmpty_eq_false_iff.mpr more
    dsimp only at past
    rw [waits] at past
    contradiction
  · contradiction

theorem closeSpared (spared : Spared s) (moved : step s .idleClose = some t) : Spared t := by
  simp only [step] at moved
  split at moved
  · rename_i here
    obtain ⟨session,stopped,rfl⟩ := Option.map_eq_some_iff.mp moved
    have busy : s.idle ≠ .off := fun off => absurd (off.symm.trans here) IdlePc.noConfusion
    obtain ⟨none,quiet⟩ := spared.quiet (idleArmed busy)
    have client := (fixedKept stopped).isClient
    refine ⟨exactStep spared.exact' rfl stopped,fun _ => ⟨countedKept stopped rfl none,quiet⟩,
      fun watched => client.trans (spared.pooled watched),fun on => absurd rfl on,?_,fun past => by contradiction⟩
    rintro (past | past) <;> contradiction
  · contradiction

theorem sparedStep (spared : Spared s) {a : Action} (meets : Ok s a) (moved : step s a = some t) : Spared t := by
  cases a with
  | session a =>
    simp only [step] at moved
    split at moved
    · contradiction
    · rename_i free
      have outside (busy : s.idle ≠ .off) : readLoop a = false := Bool.eq_false_iff.mpr (fun loops => free ⟨loops,busy⟩)
      split at moved
      · split at moved
        · contradiction
        · exact sessionSpared spared meets outside moved
      · exact sessionSpared spared meets outside moved
  | finish sid =>
    cases Option.some.inj moved
    refine ⟨spared.exact',?_,spared.pooled,spared.serving,spared.reserved,spared.waiting⟩
    intro here
    obtain ⟨none,quiet⟩ := spared.quiet here
    refine ⟨none,?_⟩
    rw [quiet]
    rfl
  | select =>
    simp only [step] at moved
    split at moved
    · cases Option.some.inj moved
      exact restSpared spared rfl rfl rfl id spared.pooled
    · contradiction
  | visit => exact visitSpared spared meets moved
  | monitor expired => exact monitorSpared spared moved
  | drainClose => exact drainSpared spared moved
  | idleCount => exact countSpared spared meets moved
  | idleInbound => exact inboundSpared spared moved
  | idleOpen => exact openSpared spared moved
  | idleClose => exact closeSpared spared moved

theorem sparedKept {isClient : Bool} {maxStreams : Nat} (run : Run Ok isClient maxStreams s) : Spared s := by
  refine Machine.reachInvariant ?_ ?_ run
  · refine ⟨⟨fun _ => rfl,fun here => by contradiction,Int.le_refl 0⟩,fun here => by contradiction,fun busy => absurd rfl busy,
      fun busy => absurd rfl busy,?_,fun past => by contradiction⟩
    rintro (past | past) <;> contradiction
  · intro s a t spared meets moved
    exact sparedStep spared meets moved

theorem closedWhenEmpty {isClient : Bool} {maxStreams : Nat} (run : Run Ok isClient maxStreams s) {a : Action}
    (closing : closes a = true) (moved : step s a = some t) : Empty s := by
  have spared := sparedKept run
  cases a <;> try contradiction
  · simp only [step] at moved
    split at moved
    · rename_i here
      obtain ⟨none,quiet⟩ := spared.quiet (by simp only [armed,here,decide_true,Bool.true_or])
      have client := spared.pooled (fun watching => absurd (watching.symm.trans here) MonitorPc.noConfusion)
      exact ⟨none,quiet,fun server => absurd (client.symm.trans server) Bool.noConfusion⟩
    · contradiction
  · simp only [step] at moved
    split at moved
    · rename_i here
      obtain ⟨none,quiet⟩ := spared.quiet (idleArmed (fun off => absurd (off.symm.trans here) IdlePc.noConfusion))
      exact ⟨none,quiet,fun _ => ⟨spared.reserved (.inr here),spared.waiting here⟩⟩
    · contradiction

end

def drainsAfter : List Action :=
  [.select,.session .openCheck,.session (.openRegister 1),.finish 1,.session (.mark 1),.visit,.monitor true,.visit,
    .monitor false]

def idleAfter : List Action :=
  acceptsOne.map (fun a => Action.session a) ++ [.finish 1,.session (.mark 1),.idleCount,.idleInbound,.idleOpen]

theorem bothCloseEmpty : (∃ s t, Run Ok true 8 s ∧ step s .drainClose = some t ∧ Empty s) ∧
    ∃ s t, Run Ok false 8 s ∧ step s .idleClose = some t ∧ Empty s := by
  have drained : (Machine.checked step Ok (start true 8) drainsAfter).any (fun s : State => (step s .drainClose).isSome) = true :=
    rfl
  have idled : (Machine.checked step Ok (start false 8) idleAfter).any (fun s : State => (step s .idleClose).isSome) = true := rfl
  refine ⟨?_,?_⟩
  · obtain ⟨s,run,here⟩ := Machine.checkedReaches drained
    obtain ⟨t,moved⟩ := Option.isSome_iff_exists.mp here
    exact ⟨s,t,run,moved,closedWhenEmpty run rfl moved⟩
  · obtain ⟨s,run,here⟩ := Machine.checkedReaches idled
    obtain ⟨t,moved⟩ := Option.isSome_iff_exists.mp here
    exact ⟨s,t,run,moved,closedWhenEmpty run rfl moved⟩

def drainsHalfClosed : List Action :=
  [.select,.session .openCheck,.session (.openRegister 1),.session (.mark 1),.visit,.monitor true,.visit,.monitor false]

theorem drainCutsUpload : ∃ s, Run Machine.Always true 8 s ∧ (step s .drainClose).isSome = true ∧ s.writing = [1] := by
  have ran : (Machine.checked step Machine.Always (start true 8) drainsHalfClosed).any (fun s : State =>
      (step s .drainClose).isSome && decide (s.writing = [1])) = true := rfl
  obtain ⟨s,run,here⟩ := Machine.checkedReaches ran
  simp only [Bool.and_eq_true,decide_eq_true_eq] at here
  exact ⟨s,run,here.1,here.2⟩

end KanoTls.Lifecycle
