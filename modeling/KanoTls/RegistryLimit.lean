import KanoTls.RegistryInbound

/-! How many streams of the peer there are at once. A stream counts from its reservation
until its read side is closed, and once while it is handed over. -/
namespace KanoTls.Registry
open Pending Entries Session Tasks

def used (s : Session) : Finset StreamId := keysWhere counted s.streams ∪ reserved s.pendingOpen

def LoopPc.serving : LoopPc → Bool
  | .clear | .zero | .forget | .done => false
  | _ => true

def LoopPc.booked : LoopPc → Nat
  | .synInsert _ => 1
  | _ => 0

/- The check of `try_reserve_inbound_stream`, on the counters as they are now. -/
def room (s : Session) : Bool := decide (s.activeStreamCount + s.pendingInbound < s.maxStreams)

def reserves (s : Session) : Action → Bool
  | .loop answer =>
    match s.loop with
    | .synCas _ _ pending => answer && s.pendingInbound == pending
    | _ => false
  | _ => false

/- The check still holds when the reservation is made, and when a stream is registered
whose reservation is gone. -/
def roomy (s : Session) (a : Action) : Bool :=
  (!reserves s a || room s) &&
  match registers s a with
  | none => true
  | some sid => decide (sid ∈ used s) || room s

abbrev Roomy (s : Session) (a : Action) : Prop := roomy s a = true

section Sets
variable {s t : Session} {a : Action} {sid k : StreamId}

theorem unregisterCounted (member : k ∈ keysWhere counted (s.unregisterStream sid).streams) :
    k ∈ keysWhere counted s.streams := by
  obtain ⟨h,found,here⟩ := memKeysWhere.mp member
  rcases unregisterLookup s sid k with gone | same
  · rw [gone] at found
    contradiction
  · exact memKeysWhere.mpr ⟨h,same.symm.trans found,here⟩

theorem pruneCounted (member : k ∈ keysWhere counted s.pruneOrphanedStreams.streams) : k ∈ keysWhere counted s.streams := by
  obtain ⟨h,found,here⟩ := memKeysWhere.mp member
  rcases pruneLookup s k with gone | same
  · rw [gone] at found
    contradiction
  · exact memKeysWhere.mpr ⟨h,same.symm.trans found,here⟩

theorem insertCounted {m : Streams} {h : StreamHandle} (member : k ∈ keysWhere counted (m.insert sid h)) :
    k = sid ∧ counted h = true ∨ k ∈ keysWhere counted m := by
  obtain ⟨g,found,here⟩ := memKeysWhere.mp member
  by_cases same : k = sid
  · rw [same,AList.lookup_insert] at found
    cases Option.some.inj found
    exact .inl ⟨same,here⟩
  · rw [AList.lookup_insert_ne same] at found
    exact .inr (memKeysWhere.mpr ⟨g,found,here⟩)

theorem flagsCounted {h g : StreamHandle} (found : s.streams.lookup sid = some h)
    (less : counted g = true → counted h = true)
    (member : k ∈ keysWhere counted (s.streams.insert sid g)) : k ∈ keysWhere counted s.streams := by
  rcases insertCounted member with ⟨rfl,here⟩ | old
  · exact memKeysWhere.mpr ⟨h,found,less here⟩
  · exact old

theorem markCounted (member : k ∈ keysWhere counted (s.markStreamReadClosed sid).streams) :
    k ∈ keysWhere counted s.streams := by
  unfold markStreamReadClosed at member
  split at member
  · exact member
  · rename_i h found
    split at member
    · exact member
    · exact flagsCounted (g := {h with readClosed := true}) found (fun no => by simp [counted] at no) member

theorem loopCounted {answer : Bool} (moved : s.loopStep answer = some t) (member : k ∈ keysWhere counted t.streams) :
    k ∈ keysWhere counted s.streams := by
  cases pc : s.loop with
  | ready | done =>
    simp only [loopStep,pc] at moved
    contradiction
  | synStreams sid | synPending sid | synActive sid | synLoad sid active | synInsert sid | synRemove sid | synRelease
  | finRelease | zero | forget =>
    simp only [loopStep,pc] at moved
    cases Option.some.inj moved
    exact member
  | synCas sid active pending =>
    simp only [loopStep,pc] at moved
    split at moved <;> cases Option.some.inj moved <;> exact member
  | synCall sid =>
    simp only [loopStep,pc] at moved
    split at moved
    · cases Option.some.inj moved
      exact member
    · split at moved <;> cases Option.some.inj moved <;> exact member
  | pshOpen sid payload =>
    simp only [loopStep,pc] at moved
    split at moved <;> cases Option.some.inj moved <;> exact member
  | pshDeliver sid | synacked sid =>
    simp only [loopStep,pc] at moved
    cases Option.some.inj moved
    simp only [goto] at member
    split at member
    · exact member
    · exact unregisterCounted member
  | finSynack sid =>
    simp only [loopStep,pc] at moved
    split at moved
    · rename_i h found
      split at moved
      · cases Option.some.inj moved
        exact flagsCounted (g := {h with synackTx := false}) found id member
      · cases Option.some.inj moved
        exact member
    · cases Option.some.inj moved
      exact member
  | finOpen sid =>
    simp only [loopStep,pc] at moved
    cases Option.some.inj moved
    unfold storePendingOpenFin at member
    split at member
    · exact member
    · split at member <;> exact member
  | finMark sid =>
    simp only [loopStep,pc] at moved
    cases Option.some.inj moved
    simp only [goto] at member
    split at member
    · exact markCounted member
    · exact member
  | clear =>
    simp only [loopStep,pc] at moved
    cases Option.some.inj moved
    contradiction

theorem frameCounted (f : Frame) (member : k ∈ keysWhere counted (s.handleFrame f).streams) :
    k ∈ keysWhere counted s.streams := by
  cases f with
  | settings | psh sid payload | fin sid => exact member
  | syn sid =>
    simp only [handleFrame] at member
    split at member <;> exact member
  | synack sid =>
    simp only [handleFrame] at member
    split at member
    · rename_i h found
      split at member
      · exact flagsCounted (g := {h with synackTx := false}) found id member
      · exact member
    · exact member

theorem acceptCounted {i : Nat} (moved : s.acceptStep i = some t) (member : k ∈ keysWhere counted t.streams) :
    k ∈ keysWhere counted s.streams ∨ registers s (.accept i) = some k := by
  unfold acceptStep at moved
  split at moved
  · contradiction
  · rename_i sid pc found
    cases pc with
    | done => contradiction
    | begin | releaseCount | remove =>
      cases Option.some.inj moved
      exact .inl member
    | register =>
      cases Option.some.inj moved
      rcases insertCounted member with ⟨rfl,_⟩ | old
      · exact .inr (by simp only [registers,found])
      · exact .inl old
    | release =>
      dsimp only at moved
      split at moved <;> cases Option.some.inj moved <;> exact .inl member
    | take delivered =>
      dsimp only at moved
      split at moved
      · cases Option.some.inj moved
        exact .inl member
      · split at moved <;> cases Option.some.inj moved <;> exact .inl member
    | mark =>
      cases Option.some.inj moved
      exact .inl (markCounted member)
    | unregister =>
      cases Option.some.inj moved
      exact .inl (unregisterCounted member)

theorem countedStep (moved : step s a = some t) (member : k ∈ keysWhere counted t.streams) :
    k ∈ keysWhere counted s.streams ∨ registers s a = some k := by
  cases a with
  | frame f =>
    simp only [step] at moved
    split at moved
    · cases Option.some.inj moved
      exact .inl (frameCounted f member)
    · contradiction
  | loop answer => exact .inl (loopCounted moved member)
  | stop =>
    simp only [step] at moved
    split at moved
    · cases Option.some.inj moved
      exact .inl member
    · contradiction
  | close | openCancel sid =>
    cases Option.some.inj moved
    exact .inl member
  | openCheck =>
    simp only [step,openCheck] at moved
    repeat' split at moved
    all_goals first | contradiction | (cases Option.some.inj moved; exact .inl member)
  | openRegister sid =>
    obtain ⟨u,same,outcome⟩ := openCases moved
    have pruned : ∀ {k}, k ∈ keysWhere counted u.streams → k ∈ keysWhere counted s.streams := by
      intro k member
      rw [same] at member
      exact pruneCounted member
    rcases outcome with ⟨_,rfl⟩ | ⟨here,rfl⟩
    · exact .inl (pruned member)
    · rcases insertCounted member with ⟨rfl,_⟩ | old
      · exact .inr here
      · exact .inl (pruned old)
  | acceptTake =>
    simp only [step] at moved
    split at moved
    · contradiction
    · cases Option.some.inj moved
      exact .inl member
  | accept i => exact acceptCounted moved member
  | unregister sid =>
    cases Option.some.inj moved
    exact .inl (unregisterCounted member)
  | mark sid =>
    cases Option.some.inj moved
    exact .inl (markCounted member)
  | abandon sid =>
    simp only [step] at moved
    split at moved
    · contradiction
    · rename_i h found
      cases Option.some.inj moved
      exact .inl (flagsCounted (g := {h with orphaned := true}) found id member)
  | prune =>
    cases Option.some.inj moved
    exact .inl (pruneCounted member)

theorem reservedLess (sid : StreamId) {o next : PendingOpenStreams} (others : ∀ k, k ≠ sid → next.entry k = o.entry k)
    (falls : holds (next.entry sid) = true → holds (o.entry sid) = true) (member : k ∈ reserved next) : k ∈ reserved o := by
  rw [memReserved] at member ⊢
  by_cases same : k = sid
  · rw [same] at member ⊢
    exact falls member
  · rw [← others k same]
    exact member

theorem removeReserved {o next : PendingOpenStreams} (others : ∀ k, k ≠ sid → next.entry k = o.entry k)
    (member : k ∈ reserved (next.remove sid)) : k ∈ reserved o := by
  refine reservedLess sid ?_ ?_ member
  · intro k different
    rw [PendingOpenStreams.entryRemove,if_neg different]
    exact others k different
  · rw [PendingOpenStreams.entryRemove,if_pos rfl]
    intro no
    contradiction

theorem loopReserved {answer : Bool} (moved : s.loopStep answer = some t) (member : k ∈ reserved t.pendingOpen) :
    k ∈ reserved s.pendingOpen ∨ s.loop = .synInsert k := by
  have aside : ∀ {u : Session} {pc : LoopPc}, Aside s u → k ∈ reserved (u.goto pc).pendingOpen →
      k ∈ reserved s.pendingOpen := by
    intro u pc aside member
    rw [← aside.pendingOpen]
    exact member
  cases pc : s.loop with
  | ready | done =>
    simp only [loopStep,pc] at moved
    contradiction
  | synStreams sid | synPending sid | synActive sid | synLoad sid active | synRelease | finRelease | clear | zero =>
    simp only [loopStep,pc] at moved
    cases Option.some.inj moved
    exact .inl member
  | synCas sid active pending =>
    simp only [loopStep,pc] at moved
    split at moved <;> cases Option.some.inj moved <;> exact .inl member
  | synInsert sid =>
    simp only [loopStep,pc] at moved
    cases Option.some.inj moved
    by_cases same : k = sid
    · rw [same]
      exact .inr rfl
    · refine .inl (memReserved.mpr ?_)
      have here := memReserved.mp member
      simp only [goto,PendingOpenStreams.entryInsertNew,if_neg same] at here
      exact here
  | synCall sid =>
    simp only [loopStep,pc] at moved
    split at moved
    · cases Option.some.inj moved
      exact .inl member
    · split at moved <;> cases Option.some.inj moved <;> exact .inl member
  | synRemove sid =>
    simp only [loopStep,pc] at moved
    cases Option.some.inj moved
    exact .inl (removeReserved (fun _ _ => rfl) member)
  | pshOpen sid payload =>
    simp only [loopStep,pc] at moved
    split at moved
    · cases Option.some.inj moved
      exact .inl member
    · cases Option.some.inj moved
      exact .inl member
    · rename_i next stored
      cases Option.some.inj moved
      obtain ⟨e,found,now,others⟩ := PendingOpenStreams.pushedEntry (storedKept stored)
      refine .inl (reservedLess sid others ?_ member)
      rw [found,now]
      exact id
  | pshDeliver sid | synacked sid =>
    simp only [loopStep,pc] at moved
    cases Option.some.inj moved
    refine .inl (aside ?_ member)
    split
    · exact .refl s
    · exact unregisterAside s sid
  | finSynack sid =>
    simp only [loopStep,pc] at moved
    split at moved
    · split at moved <;> cases Option.some.inj moved <;> exact .inl member
    · cases Option.some.inj moved
      exact .inl member
  | finOpen sid =>
    simp only [loopStep,pc] at moved
    cases Option.some.inj moved
    unfold storePendingOpenFin at member
    split at member
    · exact .inl member
    · rename_i next stored
      obtain ⟨e,found,now,others⟩ := PendingOpenStreams.finEntry stored
      have alike : holds (next.entry sid) = true → holds (s.pendingOpen.entry sid) = true := by
        rw [found,now]
        exact id
      split at member
      · rename_i released first
        obtain ⟨held,_,_,further⟩ := releasedFirst first
        exact .inl (reservedLess sid others alike (reservedLess sid further (fun _ => held) member))
      · exact .inl (reservedLess sid others alike member)
  | finMark sid =>
    simp only [loopStep,pc] at moved
    cases Option.some.inj moved
    refine .inl (aside ?_ member)
    split
    · exact markAside s sid
    · exact .refl s
  | forget =>
    simp only [loopStep,pc] at moved
    cases Option.some.inj moved
    have here := memReserved.mp member
    simp [goto,holds,PendingOpenStreams.entry] at here

theorem acceptReserved {i : Nat} (moved : s.acceptStep i = some t) (member : k ∈ reserved t.pendingOpen) :
    k ∈ reserved s.pendingOpen := by
  unfold acceptStep at moved
  split at moved
  · contradiction
  · rename_i sid pc found
    cases pc with
    | done => contradiction
    | begin | register | releaseCount =>
      cases Option.some.inj moved
      exact member
    | release =>
      dsimp only at moved
      split at moved
      · rename_i next first
        cases Option.some.inj moved
        obtain ⟨held,_,_,others⟩ := releasedFirst first
        exact reservedLess sid others (fun _ => held) member
      · cases Option.some.inj moved
        exact member
    | take delivered =>
      dsimp only at moved
      split at moved
      · cases Option.some.inj moved
        exact member
      · rename_i payloads fin next taken
        obtain ⟨e,was,_,_,now,others⟩ := PendingOpenStreams.takenEntry taken
        split at moved
        · cases Option.some.inj moved
          exact removeReserved others member
        · cases Option.some.inj moved
          refine reservedLess sid others ?_ member
          rw [was,now]
          exact id
    | mark =>
      cases Option.some.inj moved
      rw [← (markAside s sid).pendingOpen]
      exact member
    | unregister =>
      cases Option.some.inj moved
      rw [← (unregisterAside s sid).pendingOpen]
      exact member
    | remove =>
      cases Option.some.inj moved
      exact removeReserved (fun _ _ => rfl) member

theorem reservedStep (moved : step s a = some t) (member : k ∈ reserved t.pendingOpen) :
    k ∈ reserved s.pendingOpen ∨ loops a = true ∧ s.loop = .synInsert k := by
  have still : Aside s t → k ∈ reserved s.pendingOpen ∨ loops a = true ∧ s.loop = .synInsert k := by
    intro aside
    rw [aside.pendingOpen] at member
    exact .inl member
  cases a with
  | frame f =>
    simp only [step] at moved
    split at moved
    · cases Option.some.inj moved
      refine .inl ?_
      cases f with
      | settings | psh sid payload | fin sid => exact member
      | syn sid =>
        simp only [handleFrame] at member
        split at member <;> exact member
      | synack sid =>
        simp only [handleFrame] at member
        split at member
        · split at member <;> exact member
        · exact member
    · contradiction
  | loop answer =>
    rcases loopReserved moved member with old | here
    · exact .inl old
    · exact .inr ⟨rfl,here⟩
  | stop =>
    simp only [step] at moved
    split at moved
    · cases Option.some.inj moved
      exact .inl member
    · contradiction
  | close | openCancel sid =>
    cases Option.some.inj moved
    exact .inl member
  | openCheck =>
    simp only [step,openCheck] at moved
    repeat' split at moved
    all_goals first | contradiction | (cases Option.some.inj moved; exact .inl member)
  | openRegister sid => exact still (openAside moved)
  | acceptTake =>
    simp only [step] at moved
    split at moved
    · contradiction
    · cases Option.some.inj moved
      exact .inl member
  | accept i => exact .inl (acceptReserved moved member)
  | unregister sid =>
    cases Option.some.inj moved
    exact still (unregisterAside s sid)
  | mark sid =>
    cases Option.some.inj moved
    exact still (markAside s sid)
  | abandon sid =>
    simp only [step] at moved
    split at moved
    · contradiction
    · cases Option.some.inj moved
      exact .inl member
  | prune =>
    cases Option.some.inj moved
    exact still (pruneAside s)

end Sets

section Loop
variable {s t : Session} {a : Action}

structure Fixed (s t : Session) : Prop where
  maxStreams : t.maxStreams = s.maxStreams
  isClient : t.isClient = s.isClient

theorem Aside.fixed (aside : Aside s t) : Fixed s t := ⟨aside.maxStreams,aside.isClient⟩

structure Goes (s t : Session) (answer : Bool) : Prop where
  fixed : Fixed s t
  booked : t.loop.booked = 0 ∨ reserves s (.loop answer) = true
  serving : t.loop.serving = true → s.loop.serving = true

theorem loopGoes {answer : Bool} (moved : s.loopStep answer = some t) : Goes s t answer := by
  have plain : Fixed s t → t.loop.booked = 0 → s.loop.serving = true → Goes s t answer :=
    fun fixed booked serving => ⟨fixed,.inl booked,fun _ => serving⟩
  have torn : Fixed s t → t.loop.booked = 0 → t.loop.serving = false → Goes s t answer :=
    fun fixed booked gone => ⟨fixed,.inl booked,fun here => by rw [gone] at here; contradiction⟩
  cases pc : s.loop with
  | ready | done =>
    simp only [loopStep,pc] at moved
    contradiction
  | synActive sid | synInsert sid | synRemove sid | synRelease | finRelease =>
    simp only [loopStep,pc] at moved
    cases Option.some.inj moved
    exact plain ⟨rfl,rfl⟩ rfl (by rw [pc]; rfl)
  | synStreams sid | synPending sid | synLoad sid active =>
    simp only [loopStep,pc] at moved
    cases Option.some.inj moved
    refine plain ⟨rfl,rfl⟩ ?_ (by rw [pc]; rfl)
    simp only [goto]
    split <;> rfl
  | synCas sid active pending =>
    have here : reserves s (.loop answer) = (answer && s.pendingInbound == pending) := by simp only [reserves,pc]
    simp only [loopStep,pc] at moved
    split at moved
    · rename_i through
      cases Option.some.inj moved
      exact ⟨⟨rfl,rfl⟩,.inr (here.trans through),fun _ => by rw [pc]; rfl⟩
    · cases Option.some.inj moved
      exact plain ⟨rfl,rfl⟩ rfl (by rw [pc]; rfl)
  | synCall sid =>
    simp only [loopStep,pc] at moved
    split at moved
    · cases Option.some.inj moved
      exact plain ⟨rfl,rfl⟩ rfl (by rw [pc]; rfl)
    · split at moved <;> cases Option.some.inj moved <;> exact plain ⟨rfl,rfl⟩ rfl (by rw [pc]; rfl)
  | pshOpen sid payload =>
    simp only [loopStep,pc] at moved
    split at moved <;> cases Option.some.inj moved <;> exact plain ⟨rfl,rfl⟩ rfl (by rw [pc]; rfl)
  | pshDeliver sid | synacked sid =>
    simp only [loopStep,pc] at moved
    cases Option.some.inj moved
    refine plain ?_ rfl (by rw [pc]; rfl)
    split
    · exact ⟨rfl,rfl⟩
    · exact ⟨(unregisterAside s sid).maxStreams,(unregisterAside s sid).isClient⟩
  | finSynack sid =>
    simp only [loopStep,pc] at moved
    split at moved
    · split at moved <;> cases Option.some.inj moved <;> exact plain ⟨rfl,rfl⟩ rfl (by rw [pc]; rfl)
    · cases Option.some.inj moved
      exact plain ⟨rfl,rfl⟩ rfl (by rw [pc]; rfl)
  | finOpen sid =>
    simp only [loopStep,pc] at moved
    cases Option.some.inj moved
    have serving : s.loop.serving = true := by rw [pc]; rfl
    unfold storePendingOpenFin at plain ⊢
    split
    · exact ⟨⟨rfl,rfl⟩,.inl rfl,fun _ => serving⟩
    · split <;> exact ⟨⟨rfl,rfl⟩,.inl rfl,fun _ => serving⟩
  | finMark sid =>
    simp only [loopStep,pc] at moved
    cases Option.some.inj moved
    refine plain ?_ rfl (by rw [pc]; rfl)
    split
    · exact ⟨(markAside s sid).maxStreams,(markAside s sid).isClient⟩
    · exact ⟨rfl,rfl⟩
  | clear | zero | forget =>
    simp only [loopStep,pc] at moved
    cases Option.some.inj moved
    exact torn ⟨rfl,rfl⟩ rfl rfl

theorem acceptFixed {i : Nat} (moved : s.acceptStep i = some t) : Fixed s t := by
  unfold acceptStep at moved
  split at moved
  · contradiction
  · rename_i sid pc found
    cases pc with
    | done => contradiction
    | begin | releaseCount | remove | register =>
      cases Option.some.inj moved
      exact ⟨rfl,rfl⟩
    | release =>
      dsimp only at moved
      split at moved <;> cases Option.some.inj moved <;> exact ⟨rfl,rfl⟩
    | take delivered =>
      dsimp only at moved
      split at moved
      · cases Option.some.inj moved
        exact ⟨rfl,rfl⟩
      · split at moved <;> cases Option.some.inj moved <;> exact ⟨rfl,rfl⟩
    | mark =>
      cases Option.some.inj moved
      exact ⟨(markAside s sid).maxStreams,(markAside s sid).isClient⟩
    | unregister =>
      cases Option.some.inj moved
      exact ⟨(unregisterAside s sid).maxStreams,(unregisterAside s sid).isClient⟩

theorem fixedKept (moved : step s a = some t) : Fixed s t := by
  cases a with
  | frame f =>
    simp only [step] at moved
    split at moved
    · cases Option.some.inj moved
      cases f with
      | settings | psh sid payload | fin sid => exact ⟨rfl,rfl⟩
      | syn sid =>
        simp only [handleFrame]
        split <;> exact ⟨rfl,rfl⟩
      | synack sid =>
        simp only [handleFrame]
        split
        · split <;> exact ⟨rfl,rfl⟩
        · exact ⟨rfl,rfl⟩
    · contradiction
  | loop answer => exact (loopGoes moved).fixed
  | stop =>
    simp only [step] at moved
    split at moved
    · cases Option.some.inj moved
      exact ⟨rfl,rfl⟩
    · contradiction
  | close | openCancel sid =>
    cases Option.some.inj moved
    exact ⟨rfl,rfl⟩
  | openCheck =>
    simp only [step,openCheck] at moved
    repeat' split at moved
    all_goals first | contradiction | (cases Option.some.inj moved; exact ⟨rfl,rfl⟩)
  | openRegister sid => exact (openAside moved).fixed
  | acceptTake =>
    simp only [step] at moved
    split at moved
    · contradiction
    · cases Option.some.inj moved
      exact ⟨rfl,rfl⟩
  | accept i => exact acceptFixed moved
  | unregister sid =>
    cases Option.some.inj moved
    exact (unregisterAside s sid).fixed
  | mark sid =>
    cases Option.some.inj moved
    exact (markAside s sid).fixed
  | abandon sid =>
    simp only [step] at moved
    split at moved
    · contradiction
    · cases Option.some.inj moved
      exact ⟨rfl,rfl⟩
  | prune =>
    cases Option.some.inj moved
    exact (pruneAside s).fixed

theorem entryBooked {pc : LoopPc} (entry : pc.entry = true) : pc.booked = 0 := by
  cases pc <;> first | rfl | contradiction

theorem servingBack (moved : step s a = some t) (serving : t.loop.serving = true) : s.loop.serving = true := by
  cases own : loops a with
  | false =>
    rcases otherLoop moved own with same | ⟨ready,_⟩
    · rw [← same]
      exact serving
    · rw [ready]
      rfl
  | true =>
    cases a <;> try contradiction
    exact (loopGoes moved).serving serving

theorem bookedStep (moved : step s a = some t) :
    t.loop.booked = 0 ∨ loops a = false ∧ t.loop.booked = s.loop.booked ∨ reserves s a = true := by
  cases own : loops a with
  | true =>
    cases a <;> try contradiction
    rcases (loopGoes moved).booked with none | here
    · exact .inl none
    · exact .inr (.inr here)
  | false =>
    rcases otherLoop moved own with same | ⟨_,clear | entry⟩
    · exact .inr (.inl ⟨rfl,by rw [same]⟩)
    · rw [clear]
      exact .inl rfl
    · exact .inl (entryBooked entry)

end Loop

/- What the server knows of its peer's streams, while its read loop runs. -/
structure Limited (s : Session) : Prop where
  inbound : Inbound s
  ahead : s.loop.serving = true → 0 ≤ balance s
  bound : s.loop.serving = true → (used s).card + s.loop.booked ≤ s.maxStreams

section Limited
variable {s t : Session} {a : Action} {sid : StreamId}

theorem bookedOwes (pc : LoopPc) : pc.booked ≤ pc.owes := by
  cases pc <;> first | exact Nat.le_refl _ | exact Nat.zero_le _

theorem roomUsed (limited : Limited s) (serving : s.loop.serving = true) (here : room s = true) :
    (used s).card + s.loop.booked < s.maxStreams := by
  have free := of_decide_eq_true here
  have enough := limited.inbound.enough
  have ahead := limited.ahead serving
  have booked := bookedOwes s.loop
  have both : (used s).card ≤ live s.streams + (reserved s.pendingOpen).card := by
    refine (Finset.card_union_le _ _).trans ?_
    rw [cardKeysWhere]
    exact Nat.le_refl _
  have active : live s.streams ≤ s.activeStreamCount := by
    unfold balance at ahead
    unfold activeStreamCount
    have positive : ¬ s.count < 0 := by omega
    rw [if_neg positive]
    omega
  rw [owed] at enough
  omega

theorem usedInsert (inside : used t ⊆ insert sid (used s)) : (used t).card ≤ (used s).card + 1 :=
  (Finset.card_le_card inside).trans (Finset.card_insert_le _ _)

theorem boundStep (limited : Limited s) (meets : Roomy s a) (moved : step s a = some t) (serving : t.loop.serving = true) :
    (used t).card + t.loop.booked ≤ t.maxStreams := by
  have was := servingBack moved serving
  have bound := limited.bound was
  rw [(fixedKept moved).maxStreams]
  simp only [Roomy,roomy,Bool.and_eq_true] at meets
  obtain ⟨reserving,registering⟩ := meets
  have grows : ∀ k, k ∈ used t → k ∈ used s ∨ registers s a = some k ∨ loops a = true ∧ s.loop = .synInsert k := by
    intro k member
    rcases Finset.mem_union.mp member with here | here
    · rcases countedStep moved here with old | new
      · exact .inl (Finset.mem_union_left _ old)
      · exact .inr (.inl new)
    · rcases reservedStep moved here with old | new
      · exact .inl (Finset.mem_union_right _ old)
      · exact .inr (.inr new)
  have inside : ∀ sid, (∀ k, registers s a = some k ∨ loops a = true ∧ s.loop = .synInsert k → k = sid) →
      used t ⊆ insert sid (used s) := by
    intro sid only k member
    rcases grows k member with old | new
    · exact Finset.mem_insert_of_mem old
    · rw [only k new]
      exact Finset.mem_insert_self _ _
  have booked := bookedStep moved
  cases registered : registers s a with
  | some sid =>
    -- a registration: the reservation is handed over, or there is room
    have other : loops a = false := by
      cases a <;> first | rfl | contradiction
    have quiet : reserves s a = false := by
      cases a <;> first | rfl | contradiction
    have one := inside sid (by
      rintro k (here | ⟨loop,_⟩)
      · rw [registered] at here
        exact (Option.some.inj here).symm
      · rw [other] at loop
        contradiction)
    have same : t.loop.booked ≤ s.loop.booked := by
      rcases booked with none | ⟨_,same⟩ | here
      · omega
      · omega
      · rw [quiet] at here
        contradiction
    rw [registered] at registering
    simp only [Bool.or_eq_true,decide_eq_true_eq] at registering
    rcases registering with known | free
    · have less : (used t).card ≤ (used s).card := by
        rw [Finset.insert_eq_of_mem known] at one
        exact Finset.card_le_card one
      omega
    · have free := roomUsed limited was free
      have more := usedInsert one
      omega
  | none =>
    by_cases inserting : loops a = true ∧ ∃ sid, s.loop = .synInsert sid
    · obtain ⟨own,sid,here⟩ := inserting
      have one := inside sid (by
        rintro k (no | ⟨_,same⟩)
        · rw [registered] at no
          contradiction
        · rw [here] at same
          exact (LoopPc.synInsert.inj same).symm)
      have more := usedInsert one
      have none : t.loop.booked = 0 := by
        rcases booked with none | ⟨other,_⟩ | reserve
        · exact none
        · rw [own] at other
          contradiction
        · cases a <;> first | contradiction | simp [reserves,here] at reserve
      rw [here] at bound
      simp only [LoopPc.booked] at bound
      omega
    · have less : (used t).card ≤ (used s).card := by
        refine Finset.card_le_card ?_
        intro k member
        rcases grows k member with old | no | ⟨own,here⟩
        · exact old
        · rw [registered] at no
          contradiction
        · exact absurd ⟨own,k,here⟩ inserting
      rcases booked with none | ⟨_,same⟩ | reserve
      · omega
      · omega
      · rw [reserve] at reserving
        have free := roomUsed limited was (by simpa using reserving)
        have one : t.loop.booked ≤ 1 := by
          unfold LoopPc.booked
          split <;> omega
        omega

theorem limitedStep (limited : Limited s) (meets : Roomy s a) (moved : step s a = some t) : Limited t := by
  refine ⟨inboundStep limited.inbound moved,?_,boundStep limited meets moved⟩
  intro serving
  have was := servingBack moved serving
  have calm : loops a = true → s.loop ≠ .clear ∧ s.loop ≠ .zero := by
    intro _
    refine ⟨?_,?_⟩ <;> intro here <;> rw [here] at was <;> contradiction
  exact (limited.ahead was).trans (stepBalance moved calm).1

end Limited

def settled (s : Session) : Prop := owed s = 0

def releasing (s : Session) : Prop :=
  s.loop = .synRelease ∨ s.loop = .finRelease ∨ ∃ sid, (sid,AcceptPc.releaseCount) ∈ s.accepts

section Run
variable {s : Session} {maxStreams : Nat}

theorem limitKeptInRun (run : Run Roomy false maxStreams s) : Limited s ∧ s.maxStreams = maxStreams := by
  refine Machine.reachInvariant (I := fun s => Limited s ∧ s.maxStreams = maxStreams) ?_ ?_ run
  · have empty : reserved {} = ∅ := by
      ext k
      rw [memReserved]
      simp [holds,PendingOpenStreams.entry]
    refine ⟨⟨⟨?_,?_,?_,?_,?_,?_,?_⟩,fun _ => Int.le_refl 0,?_⟩,rfl⟩
    · exact fun _ => Nat.zero_le 1
    · intro _ sid some'
      contradiction
    · intro sid here
      contradiction
    · intro sid here
      contradiction
    · intro task member
      contradiction
    · rw [show (start false maxStreams).pendingOpen = {} from rfl,empty]
      exact Nat.le_refl 0
    · intro _
      rw [show (start false maxStreams).pendingOpen = {} from rfl,empty]
      rfl
    · intro _
      rw [used,show (start false maxStreams).pendingOpen = {} from rfl,empty]
      exact Nat.zero_le _
  · rintro s a t ⟨limited,same⟩ meets moved
    exact ⟨limitedStep limited meets moved,(fixedKept moved).maxStreams.trans same⟩

end Run

def synSteps : List Action := List.replicate 7 (.loop true)

def acceptsOne : List Action :=
  [Action.frame .settings,.frame (.syn 1)] ++ synSteps ++ [Action.acceptTake] ++ List.replicate 5 (Action.accept 0)

def acceptedOne (s : Session) : Bool :=
  decide (s.loop = .ready) && decide (s.accepts = [(1,.done)]) && decide (owed s = 0) && decide (live s.streams = 1)

/- With room for one: the FIN of stream 1 releases its reservation before the accept,
stream 2 takes the room, and stream 1 is accepted all the same. -/
def finBeforeAccept : List Action :=
  [Action.frame .settings,.frame (.syn 1)] ++ synSteps ++ [Action.frame (.fin 1),.loop true,.loop true,.frame (.syn 2)] ++ synSteps ++
    [Action.acceptTake,.accept 0,.accept 0]

end KanoTls.Registry
