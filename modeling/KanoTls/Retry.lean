import KanoTls.RegistryLimit

/-! A client and a server session joined by a channel that keeps the order. The writer of
the server loads the high-water mark when it exits and sends it in its GOAWAY, while the
read loop goes on with the frames it has; the client takes a stream above the mark for
one that was never processed. -/
namespace KanoTls.Retry
open Registry Pending

inductive WriterPc where
  | running | sampled (last : Nat) | gone (last : Nat)
  deriving DecidableEq, Repr

def WriterPc.mark : WriterPc → Option Nat
  | .running => none
  | .sampled last | .gone last => some last

/- `buffer` is what the read loop of the server has read and not yet decoded; `reading`,
that it has found `close_requested` unset and waits for the tunnel. `submitted` are the
SYNs the client has handed to its writer. -/
structure State where
  client : Session
  server : Session
  closeRequested : Bool := false
  reading : Bool := false
  submitted : List StreamId := []
  uplink : List Frame := []
  buffer : List Frame := []
  writer : WriterPc := .running
  downlink : List Nat := []
  goaway : Option Nat := none

def isSyn : Frame → Bool
  | .syn _ => true
  | _ => false

/- `GOAWAY_NOT_RECEIVED` is above every id, so the first mark wins. -/
def notePeerGoaway (seen : Option Nat) (last : Nat) : Option Nat := some (min (seen.getD last) last)

def peerNeverProcessed (s : State) (sid : StreamId) : Bool :=
  match s.goaway with
  | none => false
  | some last => decide (sid > last)

inductive Action where
  | client (a : Registry.Action)
  | submit (sid : StreamId)
  | upload (f : Frame)
  | server (a : Registry.Action)
  | close
  | poll
  | chunk (count : Nat)
  | decode
  | sample
  | emit (ok : Bool)
  | receive
  deriving DecidableEq, Repr

/- Frames reach a session through the channel only. -/
def ownStep (s : Session) (a : Registry.Action) : Option Session :=
  match a with
  | .frame _ => none
  | a => Registry.step s a

def step (s : State) : Action → Option State
  | .client a => (ownStep s.client a).map (fun client => {s with client := client})
  | .submit sid =>
    if (s.client.streams.lookup sid).isSome ∧ sid ∉ s.submitted then
      some {s with submitted := s.submitted ++ [sid],uplink := s.uplink ++ [.syn sid]}
    else none
  | .upload f => if isSyn f then none else some {s with uplink := s.uplink ++ [f]}
  | .server a => (ownStep s.server a).map (fun server => {s with server := server})
  | .close => some {s with closeRequested := true}
  | .poll =>
    if s.server.loop = .ready ∧ s.buffer = [] ∧ s.closeRequested = false then some {s with reading := true} else none
  | .chunk count =>
    if s.reading then some {s with reading := false,buffer := s.uplink.take count,uplink := s.uplink.drop count} else none
  | .decode =>
    match s.buffer with
    | [] => none
    | f::rest => (Registry.step s.server (.frame f)).map (fun server => {s with server := server,buffer := rest})
  | .sample =>
    match s.writer with
    | .running => some {s with writer := .sampled s.server.highWater}
    | _ => none
  | .emit ok =>
    match s.writer with
    | .sampled last => some {s with writer := .gone last,downlink := if ok then s.downlink ++ [last] else s.downlink}
    | _ => none
  | .receive =>
    match s.downlink with
    | [] => none
    | last::rest => some {s with downlink := rest,goaway := notePeerGoaway s.goaway last}

def start (clientMax serverMax : Nat) : State :=
  {client := Registry.start true clientMax,server := Registry.start false serverMax}

abbrev Run (ok : State → Action → Prop) (clientMax serverMax : Nat) : State → Prop :=
  Machine.Reach step ok (start clientMax serverMax)

def admits (s : State) : Action → Option StreamId
  | .server a =>
    match s.server.loop with
    | .synCas sid _ _ => if reserves s.server a then some sid else none
    | _ => none
  | _ => none

def fenced (s : State) (a : Action) : Bool :=
  match admits s a,s.writer.mark with
  | some sid,some last => decide (sid ≤ last)
  | _,_ => true

abbrev Fenced (s : State) (a : Action) : Prop := fenced s a = true

def synOf : LoopPc → Option StreamId
  | .synStreams sid | .synPending sid | .synActive sid | .synLoad sid _ | .synCas sid _ _ | .synInsert sid
  | .synCall sid => some sid
  | _ => none

def admitted : LoopPc → Option StreamId
  | .synInsert sid | .synCall sid => some sid
  | _ => none

structure Syns (s : Session) (a : Registry.Action) (t : Session) : Prop where
  handed : t.handed = s.handed ∨ ∃ sid, s.loop = .synCall sid ∧ t.handed = s.handed ++ [sid]
  water : s.highWater ≤ t.highWater
  syn : ∀ sid, synOf t.loop = some sid → synOf s.loop = some sid ∨ sid ≤ t.highWater
  admitted : ∀ sid, admitted t.loop = some sid → admitted s.loop = some sid ∨
    reserves s a = true ∧ ∃ active pending, s.loop = .synCas sid active pending

section Server
variable {s t : Session} {a : Registry.Action}
open Session

theorem frameSyns (ready : s.loop = .ready) (f : Frame) : Syns s (.frame f) (s.handleFrame f) := by
  have still : ∀ {u : Session}, u.handed = s.handed → u.highWater = s.highWater → synOf u.loop = none →
      Syns s (.frame f) u := by
    intro u handed water none
    refine ⟨.inl handed,Nat.le_of_eq water.symm,?_,?_⟩
    · intro sid here
      rw [none] at here
      contradiction
    · intro sid here
      have inside : synOf u.loop = some sid := by
        cases pc : u.loop <;> rw [pc] at here <;> first | contradiction | exact here
      rw [none] at inside
      contradiction
  have none : synOf s.loop = none := by
    rw [ready]
    rfl
  cases f with
  | settings => exact still rfl rfl none
  | psh sid payload => exact still rfl rfl rfl
  | fin sid =>
    refine still rfl rfl ?_
    simp only [handleFrame,goto]
    split <;> rfl
  | syn sid =>
    simp only [handleFrame]
    split
    · refine ⟨.inl rfl,Nat.le_max_left _ _,?_,?_⟩
      · intro k here
        cases Option.some.inj here
        exact .inr (Nat.le_max_right _ _)
      · intro k here
        contradiction
    · refine ⟨.inl rfl,Nat.le_max_left _ _,?_,?_⟩
      · intro k here
        rw [show synOf s.loop = some k from here] at none
        contradiction
      · intro k here
        exact .inl here
  | synack sid =>
    simp only [handleFrame]
    split
    · split
      · exact still rfl rfl rfl
      · exact still rfl rfl none
    · exact still rfl rfl none

theorem otherSyns (handed : t.handed = s.handed) (water : t.highWater = s.highWater) (loop : t.loop = s.loop) :
    Syns s a t := by
  refine ⟨.inl handed,Nat.le_of_eq water.symm,?_,?_⟩ <;> rw [loop] <;> exact fun _ => .inl

theorem acceptSyns {i : Nat} (moved : s.acceptStep i = some t) : t.handed = s.handed ∧ t.highWater = s.highWater := by
  unfold acceptStep at moved
  split at moved
  · contradiction
  · rename_i sid pc found
    cases pc with
    | done => contradiction
    | begin | releaseCount | remove | register =>
      cases Option.some.inj moved
      exact ⟨rfl,rfl⟩
    | release =>
      dsimp only at moved
      split at moved <;> cases Option.some.inj moved <;> exact ⟨rfl,rfl⟩
    | take delivered =>
      dsimp only at moved
      split at moved
      · cases Option.some.inj moved
        exact ⟨rfl,rfl⟩
      · split at moved <;> cases Option.some.inj moved <;> exact ⟨rfl,rfl⟩
    | mark =>
      cases Option.some.inj moved
      exact ⟨(markAside s sid).handed,(markAside s sid).highWater⟩
    | unregister =>
      cases Option.some.inj moved
      exact ⟨(unregisterAside s sid).handed,(unregisterAside s sid).highWater⟩

theorem finOpenSyns (s : Session) (sid : StreamId) :
    (s.storePendingOpenFin sid).handed = s.handed ∧ (s.storePendingOpenFin sid).highWater = s.highWater ∧
      synOf (s.storePendingOpenFin sid).loop = none ∧ admitted (s.storePendingOpenFin sid).loop = none := by
  unfold storePendingOpenFin
  split
  · exact ⟨rfl,rfl,rfl,rfl⟩
  · split <;> exact ⟨rfl,rfl,rfl,rfl⟩

theorem loopSyns {answer : Bool} (moved : s.loopStep answer = some t) : Syns s (.loop answer) t := by
  -- outside CMD_SYN, and at its refusals
  have quits : t.handed = s.handed → t.highWater = s.highWater → synOf t.loop = none → admitted t.loop = none →
      Syns s (.loop answer) t := by
    intro handed water none out
    refine ⟨.inl handed,Nat.le_of_eq water.symm,?_,?_⟩
    · intro sid here
      rw [none] at here
      contradiction
    · intro sid here
      rw [out] at here
      contradiction
  -- on to the next check of the same SYN
  have goes : t.handed = s.handed → t.highWater = s.highWater → synOf t.loop = synOf s.loop ∨ synOf t.loop = none →
      admitted t.loop = none → Syns s (.loop answer) t := by
    intro handed water next out
    refine ⟨.inl handed,Nat.le_of_eq water.symm,?_,?_⟩
    · intro sid here
      rcases next with same | none
      · exact .inl (same.symm.trans here)
      · rw [none] at here
        contradiction
    · intro sid here
      rw [out] at here
      contradiction
  cases pc : s.loop with
  | ready | done =>
    simp only [loopStep,pc] at moved
    contradiction
  | synStreams sid | synPending sid | synLoad sid active =>
    simp only [loopStep,pc] at moved
    cases Option.some.inj moved
    refine goes rfl rfl ?_ ?_ <;> simp only [goto,pc] <;> split
    · exact .inr rfl
    · exact .inl rfl
    · rfl
    · rfl
  | synActive sid =>
    simp only [loopStep,pc] at moved
    cases Option.some.inj moved
    exact goes rfl rfl (.inl (by rw [pc]; rfl)) rfl
  | synCas sid active pending =>
    have here : reserves s (.loop answer) = (answer && s.pendingInbound == pending) := by simp only [reserves,pc]
    simp only [loopStep,pc] at moved
    split at moved
    · rename_i through
      cases Option.some.inj moved
      refine ⟨.inl rfl,Nat.le_refl _,?_,?_⟩
      · intro k same
        rw [pc]
        exact .inl same
      · intro k same
        cases Option.some.inj same
        exact .inr ⟨here.trans through,active,pending,pc⟩
    · cases Option.some.inj moved
      exact goes rfl rfl (.inl (by rw [pc]; rfl)) rfl
  | synInsert sid =>
    simp only [loopStep,pc] at moved
    cases Option.some.inj moved
    refine ⟨.inl rfl,Nat.le_refl _,?_,?_⟩ <;> rw [pc] <;> exact fun _ => .inl
  | synCall sid =>
    have calls : t.handed = s.handed ++ [sid] → t.highWater = s.highWater → synOf t.loop = none → admitted t.loop = none →
        Syns s (.loop answer) t := by
      intro handed water none out
      refine ⟨.inr ⟨sid,pc,handed⟩,Nat.le_of_eq water.symm,?_,?_⟩
      · intro k here
        rw [none] at here
        contradiction
      · intro k here
        rw [out] at here
        contradiction
    simp only [loopStep,pc] at moved
    split at moved
    · cases Option.some.inj moved
      exact quits rfl rfl rfl rfl
    · split at moved <;> cases Option.some.inj moved <;> exact calls rfl rfl rfl rfl
  | synRemove sid | synRelease | finRelease | clear | zero | forget =>
    simp only [loopStep,pc] at moved
    cases Option.some.inj moved
    exact quits rfl rfl rfl rfl
  | pshOpen sid payload =>
    simp only [loopStep,pc] at moved
    split at moved <;> cases Option.some.inj moved <;> exact quits rfl rfl rfl rfl
  | pshDeliver sid | synacked sid =>
    simp only [loopStep,pc] at moved
    cases Option.some.inj moved
    have aside := unregisterAside s sid
    refine quits ?_ ?_ rfl rfl <;> split
    · rfl
    · exact aside.handed
    · rfl
    · exact aside.highWater
  | finSynack sid =>
    simp only [loopStep,pc] at moved
    split at moved
    · split at moved <;> cases Option.some.inj moved <;> exact quits rfl rfl rfl rfl
    · cases Option.some.inj moved
      exact quits rfl rfl rfl rfl
  | finOpen sid =>
    simp only [loopStep,pc] at moved
    have aside := finOpenSyns s sid
    have here := Option.some.inj moved
    refine quits ?_ ?_ ?_ ?_ <;> rw [← here]
    · exact aside.1
    · exact aside.2.1
    · exact aside.2.2.1
    · exact aside.2.2.2
  | finMark sid =>
    simp only [loopStep,pc] at moved
    cases Option.some.inj moved
    have aside := markAside s sid
    refine quits ?_ ?_ rfl rfl <;> split
    · exact aside.handed
    · rfl
    · exact aside.highWater
    · rfl

theorem stepSyns (moved : Registry.step s a = some t) : Syns s a t := by
  have aside : Aside s t → Syns s a t := fun aside => otherSyns aside.handed aside.highWater aside.loop
  cases a with
  | frame f =>
    simp only [Registry.step] at moved
    split at moved
    · cases Option.some.inj moved
      exact frameSyns ‹_› f
    · contradiction
  | loop answer => exact loopSyns moved
  | stop =>
    simp only [Registry.step] at moved
    split at moved
    · cases Option.some.inj moved
      refine ⟨.inl rfl,Nat.le_refl _,?_,?_⟩ <;> intro sid here <;> contradiction
    · contradiction
  | close | openCancel sid =>
    cases Option.some.inj moved
    exact otherSyns rfl rfl rfl
  | openCheck =>
    simp only [Registry.step,openCheck] at moved
    repeat' split at moved
    all_goals first | contradiction | (cases Option.some.inj moved; exact otherSyns rfl rfl rfl)
  | openRegister sid => exact aside (openAside moved)
  | acceptTake =>
    simp only [Registry.step] at moved
    split at moved
    · contradiction
    · cases Option.some.inj moved
      exact otherSyns rfl rfl rfl
  | accept i =>
    obtain ⟨handed,water⟩ := acceptSyns moved
    exact otherSyns handed water (acceptLoop moved)
  | unregister sid =>
    cases Option.some.inj moved
    exact aside (unregisterAside s sid)
  | mark sid =>
    cases Option.some.inj moved
    exact aside (markAside s sid)
  | abandon sid =>
    simp only [Registry.step] at moved
    split at moved
    · contradiction
    · cases Option.some.inj moved
      exact otherSyns rfl rfl rfl
  | prune =>
    cases Option.some.inj moved
    exact aside (pruneAside s)

end Server

/- Everything handed over is at or below the mark, and the marks on their way are the
one that was loaded. -/
structure Below (s : State) : Prop where
  raised : ∀ sid ∈ s.server.handed, sid ≤ s.server.highWater
  busy : ∀ sid, synOf s.server.loop = some sid → sid ≤ s.server.highWater
  handed : ∀ last, s.writer.mark = some last → ∀ sid ∈ s.server.handed, sid ≤ last
  admitted : ∀ last, s.writer.mark = some last → ∀ sid, Retry.admitted s.server.loop = some sid → sid ≤ last
  sent : ∀ last ∈ s.downlink, s.writer.mark = some last
  seen : ∀ last, s.goaway = some last → s.writer.mark = some last

section Run
variable {s t : State} {a : Action}

theorem admittedSyn {pc : LoopPc} {sid : StreamId} (here : admitted pc = some sid) : synOf pc = some sid := by
  cases pc <;> first | contradiction | exact here

theorem belowServer (below : Below s) {own : Registry.Action} {server : Session} (syns : Syns s.server own server)
    (fence : ∀ last sid active pending, s.writer.mark = some last → reserves s.server own = true →
      s.server.loop = .synCas sid active pending → sid ≤ last)
    (same : t.server = server ∧ t.writer = s.writer ∧ t.downlink = s.downlink ∧ t.goaway = s.goaway) : Below t := by
  obtain ⟨rfl,writer,downlink,goaway⟩ := same
  have more : ∀ {sid}, sid ≤ s.server.highWater → sid ≤ t.server.highWater := fun le => le.trans syns.water
  refine ⟨?_,?_,?_,?_,?_,?_⟩
  · intro sid member
    rcases syns.handed with still | ⟨k,here,now⟩
    · rw [still] at member
      exact more (below.raised sid member)
    · rw [now] at member
      rcases List.mem_append.mp member with old | new
      · exact more (below.raised sid old)
      · rw [List.mem_singleton.mp new]
        exact more (below.busy k (by rw [here]; rfl))
  · intro sid here
    rcases syns.syn sid here with old | le
    · exact more (below.busy sid old)
    · exact le
  · intro last mark sid member
    rw [writer] at mark
    rcases syns.handed with still | ⟨k,here,now⟩
    · rw [still] at member
      exact below.handed last mark sid member
    · rw [now] at member
      rcases List.mem_append.mp member with old | new
      · exact below.handed last mark sid old
      · rw [List.mem_singleton.mp new]
        exact below.admitted last mark k (by rw [here]; rfl)
  · intro last mark sid here
    rw [writer] at mark
    rcases syns.admitted sid here with old | ⟨reserve,active,pending,cas⟩
    · exact below.admitted last mark sid old
    · exact fence last sid active pending mark reserve cas
  · rw [downlink,writer]
    exact below.sent
  · rw [goaway,writer]
    exact below.seen

theorem belowStep (below : Below s) (meets : Fenced s a) (moved : step s a = some t) : Below t := by
  have still : t.server = s.server → t.writer = s.writer → t.downlink = s.downlink → t.goaway = s.goaway → Below t := by
    intro server writer downlink goaway
    refine ⟨?_,?_,?_,?_,?_,?_⟩
    · rw [server]
      exact below.raised
    · rw [server]
      exact below.busy
    · rw [server,writer]
      exact below.handed
    · rw [server,writer]
      exact below.admitted
    · rw [downlink,writer]
      exact below.sent
    · rw [goaway,writer]
      exact below.seen
  cases a with
  | client own =>
    obtain ⟨client,_,rfl⟩ := Option.map_eq_some_iff.mp moved
    exact still rfl rfl rfl rfl
  | submit sid | upload f | poll | chunk count =>
    simp only [step] at moved
    split at moved
    all_goals first | contradiction | (cases Option.some.inj moved; exact still rfl rfl rfl rfl)
  | close =>
    cases Option.some.inj moved
    exact still rfl rfl rfl rfl
  | server own =>
    obtain ⟨server,own',rfl⟩ := Option.map_eq_some_iff.mp moved
    have moved' : Registry.step s.server own = some server := by
      unfold ownStep at own'
      split at own'
      · contradiction
      · exact own'
    refine belowServer below (stepSyns moved') ?_ ⟨rfl,rfl,rfl,rfl⟩
    intro last sid active pending mark reserve here
    have admits' : admits s (.server own) = some sid := by simp only [admits,here,reserve,if_true]
    simp only [Fenced,fenced,admits',mark,decide_eq_true_eq] at meets
    exact meets
  | decode =>
    simp only [step] at moved
    split at moved
    · contradiction
    · obtain ⟨server,moved',rfl⟩ := Option.map_eq_some_iff.mp moved
      refine belowServer below (stepSyns moved') ?_ ⟨rfl,rfl,rfl,rfl⟩
      intro last sid active pending mark reserve
      contradiction
  | sample =>
    simp only [step] at moved
    split at moved
    · rename_i running
      cases Option.some.inj moved
      have none : s.writer.mark = none := by
        rw [running]
        rfl
      refine ⟨below.raised,below.busy,?_,?_,?_,?_⟩
      · intro last mark
        cases Option.some.inj mark
        exact below.raised
      · intro last mark sid here
        cases Option.some.inj mark
        exact below.busy sid (admittedSyn here)
      · intro last member
        rw [below.sent last member] at none
        contradiction
      · intro last member
        rw [below.seen last member] at none
        contradiction
    · contradiction
  | emit ok =>
    simp only [step] at moved
    split at moved
    · rename_i last here
      cases Option.some.inj moved
      have mark : s.writer.mark = some last := by
        rw [here]
        rfl
      have same : ∀ k, s.writer.mark = some k ↔ WriterPc.mark (.gone last) = some k := by
        intro k
        rw [mark]
        rfl
      refine ⟨below.raised,below.busy,?_,?_,?_,?_⟩
      · intro k here
        exact below.handed k ((same k).mpr here)
      · intro k here
        exact below.admitted k ((same k).mpr here)
      · intro k member
        refine (same k).mp ?_
        dsimp only at member
        split at member
        · rcases List.mem_append.mp member with old | new
          · exact below.sent k old
          · rw [List.mem_singleton.mp new]
            exact mark
        · exact below.sent k member
      · intro k here
        exact (same k).mp (below.seen k here)
    · contradiction
  | receive =>
    simp only [step] at moved
    split at moved
    · contradiction
    · rename_i last rest waiting
      cases Option.some.inj moved
      have mark := below.sent last (by rw [waiting]; exact List.mem_cons_self)
      refine ⟨below.raised,below.busy,below.handed,below.admitted,?_,?_⟩
      · intro k member
        exact below.sent k (by rw [waiting]; exact List.mem_cons_of_mem _ member)
      · intro k here
        simp only [notePeerGoaway,Option.some.injEq] at here
        cases seen : s.goaway with
        | none =>
          rw [seen,Option.getD_none,Nat.min_self] at here
          rw [← here]
          exact mark
        | some old =>
          have same := below.seen old seen
          rw [mark] at same
          cases Option.some.inj same
          rw [seen,Option.getD_some,Nat.min_self] at here
          rw [← here]
          exact mark

theorem markKept (moved : step s a = some t) {last : Nat} (mark : s.writer.mark = some last) :
    t.writer.mark = some last := by
  cases a with
  | client own | server own =>
    obtain ⟨_,_,rfl⟩ := Option.map_eq_some_iff.mp moved
    exact mark
  | submit sid | upload f | poll | chunk count =>
    simp only [step] at moved
    split at moved
    all_goals first | contradiction | (cases Option.some.inj moved; exact mark)
  | close =>
    cases Option.some.inj moved
    exact mark
  | decode =>
    simp only [step] at moved
    split at moved
    · contradiction
    · obtain ⟨_,_,rfl⟩ := Option.map_eq_some_iff.mp moved
      exact mark
  | sample =>
    simp only [step] at moved
    split at moved
    · rename_i running
      rw [running] at mark
      contradiction
    · contradiction
  | emit ok =>
    simp only [step] at moved
    split at moved
    · rename_i here
      cases Option.some.inj moved
      rw [here] at mark
      exact mark
    · contradiction
  | receive =>
    simp only [step] at moved
    split at moved
    · contradiction
    · cases Option.some.inj moved
      exact mark

variable {clientMax serverMax : Nat}

theorem belowKept (run : Run Fenced clientMax serverMax s) : Below s := by
  refine Machine.reachInvariant ?_ ?_ run
  · refine ⟨?_,?_,?_,?_,?_,?_⟩
    · intro sid member
      contradiction
    · intro sid here
      contradiction
    · intro last mark
      contradiction
    · intro last mark
      contradiction
    · intro last member
      contradiction
    · intro last here
      contradiction
  · intro s a t below meets moved
    exact belowStep below meets moved

theorem retrySafe (run : Run Fenced clientMax serverMax s) {sid : StreamId} (never : peerNeverProcessed s sid = true) :
    sid ∉ s.server.handed ∧ ∀ t, Machine.Reach step Fenced s t → sid ∉ t.server.handed := by
  unfold peerNeverProcessed at never
  split at never
  · contradiction
  · rename_i last seen
    have over' := of_decide_eq_true never
    have mark := (belowKept run).seen last seen
    have later : ∀ t, Machine.Reach step Fenced s t → sid ∉ t.server.handed := by
      intro t after member
      have still : t.writer.mark = some last := by
        refine Machine.reachInvariant (I := fun t => t.writer.mark = some last) mark ?_ after
        intro s a t mark _ moved
        exact markKept moved mark
      have le := (belowKept (Machine.reachAfter run after)).handed last still sid member
      exact Nat.not_le_of_lt over' le
    exact ⟨later s .start,later⟩

end Run

def opens (sid : StreamId) : List Action := [.client .openCheck,.client (.openRegister sid),.submit sid]

def handles : List Action := .decode :: synSteps.map .server

def leavesTwo : List Action :=
  [Action.upload .settings] ++ opens 1 ++ opens 2 ++ [Action.poll,.chunk 2,.decode] ++ handles ++ [Action.close,.sample,.emit true,.receive]

theorem retrySafeTwo : ∃ s, Run Fenced 4 4 s ∧ peerNeverProcessed s 2 = true ∧ s.server.handed = [1] ∧
    ∀ t, Machine.Reach step Fenced s t → 2 ∉ t.server.handed := by
  have ran : (Machine.checked step Fenced (start 4 4) leavesTwo).any (fun s : State =>
      peerNeverProcessed s 2 && decide (s.server.handed = [1])) = true := rfl
  obtain ⟨s,run,here⟩ := Machine.checkedReaches ran
  simp only [Bool.and_eq_true,decide_eq_true_eq] at here
  exact ⟨s,run,here.1,here.2,(retrySafe run here.1).2⟩

/- The writer loads mark 1 while the SYN of stream 2 is in the buffer of the read loop. -/
def sampleBeforeSyn : List Action :=
  [Action.upload .settings] ++ opens 1 ++ opens 2 ++ [Action.poll,.chunk 3,.decode] ++ handles ++ [Action.close,.sample,.emit true] ++
    handles ++ [Action.receive]

theorem retriedStreamHandled : ∃ s, Run Machine.Always 4 4 s ∧ peerNeverProcessed s 2 = true ∧ 2 ∈ s.server.handed := by
  have ran : (Machine.checked step Machine.Always (start 4 4) sampleBeforeSyn).any (fun s : State =>
      peerNeverProcessed s 2 && decide (2 ∈ s.server.handed)) = true := rfl
  obtain ⟨s,run,here⟩ := Machine.checkedReaches ran
  simp only [Bool.and_eq_true,decide_eq_true_eq] at here
  exact ⟨s,run,here.1,here.2⟩

end KanoTls.Retry
