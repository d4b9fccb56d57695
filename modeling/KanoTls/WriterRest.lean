import KanoTls.WriterFrames

/-! The writer comes to rest. At rest nothing is buffered; left alone, it gets there
whatever it draws, for every step without an I/O error lowers `rank`. -/
namespace KanoTls.Writer
open Wire Shaper Uot State

def AtRest (s : State) : Prop := s.pc = .select ∧ s.queue = []

/- Records are counted until they are flushed, so a batch is never forgotten. -/
structure Tidy (s : State) : Prop where
  counted : s.pc.live = true → s.records = 0 → s.buffer = []
  waiting : s.pc = .select → s.queue = [] → s.buffer = []
  gone : s.pc = .goaway ∨ s.pc = .done → s.buffer = []

section Tidy
variable {s t : State} {x : Split} {a : Action}

theorem tidyBusy (counted : t.records = 0 → t.buffer = []) (live : t.pc.live = true) (busy : t.pc ≠ .select) :
    Tidy t := by
  refine ⟨fun _ => counted,fun here => absurd here busy,?_⟩
  rintro (here | here) <;> rw [here] at live <;> contradiction

theorem tidyLeaving (leaving : t.pc = .leaving ∨ t.pc = .closing) : Tidy t := by
  rcases leaving with here | here
  all_goals
    refine ⟨?_,?_,?_⟩ <;> rw [here]
    · intro live
      contradiction
    · intro same
      contradiction
    · rintro (same | same) <;> contradiction

theorem tidyFlushed (flushed : t.buffer = []) : Tidy t := ⟨fun _ _ => flushed,fun _ _ => flushed,fun _ => flushed⟩

theorem liveNext (requests : List Request) : (nextRequest requests).live = true ∧ nextRequest requests ≠ .select := by
  cases requests with
  | nil => exact ⟨rfl,Pc.noConfusion⟩
  | cons r rest => exact ⟨rfl,Pc.noConfusion⟩

theorem tidyTake (tidy : Tidy s) (here : s.pc = .select) {draw : Draw}
    (moved : s.controlStep draw = some t ∨ s.bulkStep draw = some t) : Tidy t := by
  have counted : s.records = 0 → s.buffer = [] := tidy.counted (by rw [here]; rfl)
  have drains : ∀ {u : State} {pinned current}, u.records = s.records → u.buffer = s.buffer →
      Tidy (u.startDrain pinned current false draw) := by
    intro u pinned current records buffer
    refine tidyBusy ?_ rfl Pc.noConfusion
    show u.records = 0 → u.buffer = []
    rw [records,buffer]
    exact counted
  rcases moved with moved | moved
  · obtain ⟨r,rest,_,⟨_,rfl⟩ | ⟨_,u,same,outcome⟩⟩ := controlCases moved
    · exact tidyLeaving (.inl rfl)
    · have drained := drained {s with queue := rest,settings := false}
      rw [← same] at drained
      obtain ⟨rfl,_⟩ | ⟨_,⟨_,rfl⟩ | ⟨_,rfl⟩⟩ := outcome
      · have queued := queuedOne u (s.withSettings r)
        exact drains (queued.records.trans drained.records) (queued.buffer.trans drained.buffer)
      · refine tidyBusy ?_ rfl Pc.noConfusion
        show u.records = 0 → u.buffer = []
        rw [drained.records,drained.buffer]
        exact counted
      · exact drains drained.records drained.buffer
  · obtain ⟨_,_,r,rest,_,⟨_,rfl⟩ | ⟨_,⟨_,rfl⟩ | rfl⟩⟩ := bulkCases moved
    · exact tidyLeaving (.inl rfl)
    · refine tidyBusy ?_ rfl Pc.noConfusion
      show s.drainBulk.records = 0 → s.drainBulk.buffer = []
      rw [(drained s).records,(drained s).buffer]
      exact counted
    · exact drains (drained s).records (drained s).buffer

theorem tidyRecord {d : Drain} {draw : Draw}
    (moved : s.recordStep d draw .none = some t) : Tidy t := by
  have pc := (recorded moved).pc
  have live : t.pc.live = true ∧ t.pc ≠ .select := by
    rw [pc]
    split <;> exact ⟨rfl,Pc.noConfusion⟩
  refine tidyBusy ?_ live.1 live.2
  unfold recordStep at moved
  split at moved
  · contradiction
  · simp only [reduceCtorEq,false_and,if_false] at moved
    split at moved
    · cases Option.some.inj moved
      exact fun _ => rfl
    · cases Option.some.inj moved
      intro none
      simp at none

theorem tidyPacket (counted : s.records = 0 → s.buffer = []) {draws : List (Nat × Nat)}
    (moved : s.packetStep draws none = some t) : Tidy t := by
  have more : ∀ records : List Record, s.records + records.length = 0 → s.buffer ++ records = [] := by
    intro records none
    rw [List.length_eq_zero_iff.mp (Nat.add_eq_zero_iff.mp none).2,List.append_nil]
    exact counted (Nat.add_eq_zero_iff.mp none).1
  unfold packetStep at moved
  split at moved
  · obtain ⟨records,_,rfl⟩ := Option.map_eq_some_iff.mp moved
    exact tidyBusy (more records) rfl Pc.noConfusion
  · obtain ⟨records,_,rfl⟩ := Option.map_eq_some_iff.mp moved
    exact tidyBusy (more records) rfl Pc.noConfusion
  · contradiction

theorem tidyFinish (held : Held s x) (counted : s.records = 0 → s.buffer = []) {d : Drain} (here : s.pc = .drain d)
    {made : Nat} (all : d.fakes.length ≤ made) (moved : s.finishStep d made = some t) : Tidy t := by
  unfold finishStep at moved
  split at moved
  · contradiction
  · rw [(held.sound d (by rw [here]; rfl)).staying,if_neg Bool.false_ne_true] at moved
    cases Option.some.inj moved
    have next := liveNext (d.current.toList ++ d.deferred)
    refine tidyBusy ?_ next.1 next.2
    dsimp only
    rw [if_neg (Nat.not_lt.mpr all)]
    intro none
    have both := Nat.add_eq_zero_iff.mp none
    show s.buffer ++ _ = []
    rw [counted both.1,List.length_eq_zero_iff.mp both.2]
    rfl

theorem tidyFlush (tidy : Tidy s) (moved : s.flushStep true = some t) : Tidy t := by
  unfold flushStep at moved
  split at moved
  · cases Option.some.inj moved
    exact tidyFlushed rfl
  · rename_i here
    have counted : s.records = 0 → s.buffer = [] := tidy.counted (by rw [here]; rfl)
    split at moved
    · rename_i idle
      cases Option.some.inj moved
      exact tidyFlushed (counted idle.1)
    · split at moved
      · rename_i more
        cases Option.some.inj moved
        refine ⟨fun _ => counted,fun _ empty => absurd empty more.1,?_⟩
        rintro (same | same) <;> contradiction
      · cases Option.some.inj moved
        exact tidyFlushed rfl
  · cases Option.some.inj moved
    exact tidyFlushed rfl
  · contradiction

theorem tidyStep (tidy : Tidy s) (held : Held s x) (clean : faultless s a = true) (moved : step s a = some t) : Tidy t := by
  cases a with
  | send control auto packets =>
    simp only [step] at moved
    split at moved
    · contradiction
    · cases Option.some.inj moved
      exact ⟨tidy.counted,fun _ empty => absurd empty (by simp),tidy.gone⟩
  | close =>
    cases Option.some.inj moved
    exact ⟨tidy.counted,tidy.waiting,tidy.gone⟩
  | hangUp =>
    cases Option.some.inj moved
    exact ⟨tidy.counted,tidy.waiting,tidy.gone⟩
  | exit =>
    simp only [step] at moved
    split at moved
    · cases Option.some.inj moved
      exact tidyLeaving (.inl rfl)
    · contradiction
  | control draw =>
    simp only [step] at moved
    split at moved
    · exact tidyTake tidy ‹_› (.inl moved)
    · contradiction
  | bulk draw =>
    simp only [step] at moved
    split at moved
    · exact tidyTake tidy ‹_› (.inr moved)
    · contradiction
  | record draw fault =>
    simp only [step] at moved
    split at moved
    · cases of_decide_eq_true clean
      exact tidyRecord moved
    · contradiction
  | finish made =>
    simp only [step] at moved
    split at moved
    · rename_i d here
      simp only [faultless,here,drainOf,Option.all_some,decide_eq_true_eq] at clean
      exact tidyFinish held (tidy.counted (by rw [here]; rfl)) here clean moved
    · contradiction
  | arrive =>
    simp only [step] at moved
    split at moved
    · rename_i d here
      have counted : s.records = 0 → s.buffer = [] := tidy.counted (by rw [here]; rfl)
      unfold arriveStep at moved
      split at moved
      · contradiction
      · split at moved
        · contradiction
        · dsimp only at moved
          split at moved <;> cases Option.some.inj moved <;> exact tidyBusy counted rfl Pc.noConfusion
    · contradiction
  | windowEnd =>
    simp only [step] at moved
    split at moved
    · rename_i d here
      cases Option.some.inj moved
      exact tidyBusy (tidy.counted (by rw [here]; rfl)) rfl Pc.noConfusion
    · contradiction
  | packet draws fault =>
    cases fault with
    | some made => contradiction
    | none =>
      have live : s.pc.live = true := by
        simp only [step,packetStep] at moved
        split at moved
        · rename_i here
          rw [here]
          rfl
        · rename_i here
          rw [here]
          rfl
        · contradiction
      exact tidyPacket (tidy.counted live) moved
  | ready =>
    simp only [step] at moved
    split at moved
    · rename_i r rest here
      cases Option.some.inj moved
      exact tidyBusy (tidy.counted (by rw [here]; rfl)) (liveNext rest).1 (liveNext rest).2
    · contradiction
  | flush ok =>
    cases ok with
    | true => exact tidyFlush tidy moved
    | false => contradiction
  | leave draw =>
    simp only [step] at moved
    split at moved
    · rename_i here
      rw [if_pos (List.isEmpty_iff.mpr (held.idle (by rw [here]; rfl)))] at moved
      cases Option.some.inj moved
      exact tidyLeaving (.inr rfl)
    · contradiction
  | goaway last ok =>
    simp only [step] at moved
    split at moved
    · rename_i here
      cases ok with
      | false => contradiction
      | true =>
        unfold goawayStep at moved
        split at moved
        · cases Option.some.inj moved
          exact tidyFlushed (tidy.gone (.inl here))
        · cases Option.some.inj moved
          exact tidyFlushed rfl
    · contradiction

end Tidy

end KanoTls.Writer
