import KanoTls.WriterProgress
import KanoTls.ShaperFakes

/-! The shaped drain of `drive_shaper`: from any state of the shaper and over any backlog,
every record has the size its policy asks for and the drain comes to its end. -/
namespace KanoTls.Shaper.TrafficShaper

theorem wireLenMost {payload : Nat} (fits : payload ≤ dataRecordCapacity) :
    dataRecordWireLen payload ≤ maxDataRecordWireLen := by
  have most : maxDataRecordWireLen = dataRecordWireLen dataRecordCapacity := by decide
  rw [most]
  simp only [dataRecordWireLen]
  omega

theorem genRangeHigh {lo hi drawn : Int} (ordered : lo ≤ hi) : genRange lo hi drawn ≤ hi := by
  unfold genRange
  omega

/- No policy asks for more than a record can be: the exact sizes are those of a backlog
below the capacity. -/
theorem targetMost (sh : TrafficShaper) (draw : Draw) (pendingLen : Nat) :
    (sh.nextDataPolicy draw pendingLen).1.targetWireLen ≤ maxDataRecordWireLen := by
  unfold nextDataPolicy
  rw [releasedTarget]
  have drawn : ∀ {lo hi : Nat}, lo ≤ hi → hi ≤ dataRecordCapacity →
      dataRecordWireLen (genRange lo hi draw.payload).toNat ≤ maxDataRecordWireLen := by
    intro lo hi ordered fits
    have high : genRange lo hi draw.payload ≤ hi := genRangeHigh (by omega)
    exact wireLenMost (by omega)
  unfold rawPolicy
  split
  · exact drawn (by decide) (by decide)
  · split
    · exact Nat.le_refl _
    · rename_i bulk
      have below : pendingLen < dataRecordCapacity := Nat.not_le.mp (fun full => bulk (.inr full))
      split
      · exact wireLenMost (Nat.le_of_lt below)
      · split
        · exact wireLenMost (Nat.le_of_lt below)
        · split
          · exact drawn (by decide) (by decide)
          · split
            · exact wireLenMost (Nat.min_le_right _ _)
            · exact drawn (by decide) (by decide)

end KanoTls.Shaper.TrafficShaper

namespace KanoTls.Writer
open Wire Shaper Uot State

def InRange (target : Nat) : Prop := minDataWireLen < target ∧ target ≤ maxDataRecordWireLen

/- What a drain holds between its steps: a first policy that was fetched keeps to the range,
and only lifecycle frames pass a delay window. -/
structure SizedPc (pc : Pc) : Prop where
  first : ∀ d, drainOf pc = some d → ∀ policy, d.first = some policy → InRange policy.targetWireLen
  through : ∀ d r todo, pc = .through d r todo → ∀ p ∈ todo, ∀ f ∈ p.frames, isLifecycle f.cmd = true

section Sized
variable {s t : State} {d : Drain} {draw : Draw} {pc : Pc} {a : Action}

theorem sizedIdle (idle : drainOf pc = none) : SizedPc pc := by
  refine ⟨?_,?_⟩
  · intro d here
    rw [idle] at here
    contradiction
  · intro d r todo here
    rw [here] at idle
    contradiction

theorem sizedDrain (first : ∀ policy, d.first = some policy → InRange policy.targetWireLen) :
    SizedPc (.drain d) ∧ SizedPc (.window d) := by
  refine ⟨⟨?_,?_⟩,⟨?_,?_⟩⟩
  · intro e here
    cases Option.some.inj here
    exact first
  · intro e r todo here
    contradiction
  · intro e here
    cases Option.some.inj here
    exact first
  · intro e r todo here
    contradiction

theorem sizedStart (s : State) (pinned : List Nat) (current : Option Request) (exiting : Bool) (draw : Draw) :
    SizedPc (s.startDrain pinned current exiting draw).pc := by
  refine (sizedDrain ?_).1
  intro policy first
  dsimp only at first
  split at first
  · contradiction
  · rename_i some'
    cases Option.some.inj first
    have positive : 0 < s.pending.length := List.length_pos_iff.mpr (fun empty => some' (List.isEmpty_iff.mpr empty))
    exact ⟨TrafficShaper.targetWide _ _ _ positive,TrafficShaper.targetMost _ _ _⟩

theorem sizedFail (s : State) (d : Drain) : SizedPc (s.failDrain d).pc := by
  refine sizedIdle ?_
  rw [failDrainPc]
  split <;> rfl

theorem sizedRecord {fault : Fault} (moved : s.recordStep d draw fault = some t) : SizedPc t.pc := by
  unfold recordStep at moved
  split at moved
  · contradiction
  · generalize s.policyFor d draw = chosen at moved
    obtain ⟨policy,shaper⟩ := chosen
    obtain ⟨drain,window⟩ := @sizedDrain (s.afterRecord d policy) (fun policy first => by contradiction)
    dsimp only at moved
    repeat' split at moved
    all_goals cases Option.some.inj moved
    all_goals first | exact sizedFail _ _ | exact window | exact drain

theorem sizedArrive (sized : SizedPc (.window d)) (moved : s.arriveStep d = some t) : SizedPc t.pc := by
  have first := sized.first d rfl
  unfold arriveStep at moved
  split at moved
  · contradiction
  · split at moved
    · contradiction
    · rename_i r rest _
      dsimp only at moved
      split at moved
      · rename_i free
        cases Option.some.inj moved
        refine ⟨?_,?_⟩
        · intro e here
          cases Option.some.inj here
          exact first
        · intro e other todo here
          cases here
          intro p member f inside
          exact (headerFree (Bool.and_eq_true_iff.mp free).2 f (List.mem_flatMap_of_mem member inside)).1
      · cases Option.some.inj moved
        refine (sizedDrain ?_).2
        exact first

theorem sizedPacket {draws : List (Nat × Nat)} {fault : Option Nat} (sized : SizedPc s.pc)
    (moved : s.packetStep draws fault = some t) : SizedPc t.pc := by
  unfold packetStep at moved
  split at moved
  · rename_i d r p todo here
    obtain ⟨records,_,rfl⟩ := Option.map_eq_some_iff.mp moved
    rw [here] at sized
    cases fault with
    | some made => exact sizedFail _ _
    | none =>
      refine ⟨?_,?_⟩
      · intro e now
        cases Option.some.inj now
        exact sized.first d rfl
      · intro e other rest now
        cases now
        intro q member
        exact sized.through d r _ rfl q (List.mem_cons_of_mem _ member)
  · obtain ⟨records,_,rfl⟩ := Option.map_eq_some_iff.mp moved
    cases fault <;> exact sizedIdle rfl
  · contradiction

theorem sizedFlush {ok : Bool} (sized : SizedPc s.pc) (moved : s.flushStep ok = some t) : SizedPc t.pc := by
  unfold flushStep at moved
  split at moved
  · rename_i d r here
    rw [here] at sized
    cases Option.some.inj moved
    cases ok with
    | true => exact (sizedDrain (sized.first d rfl)).2
    | false => exact sizedFail _ _
  · repeat' split at moved
    all_goals cases Option.some.inj moved
    all_goals cases ok <;> exact sizedIdle rfl
  · cases Option.some.inj moved
    cases ok <;> exact sizedIdle rfl
  · contradiction

theorem sizedStep (sized : SizedPc s.pc) (moved : step s a = some t) : SizedPc t.pc := by
  cases a with
  | send control auto packets =>
    simp only [step] at moved
    split at moved
    · contradiction
    · cases Option.some.inj moved
      exact sized
  | close | hangUp =>
    cases Option.some.inj moved
    exact sized
  | exit =>
    simp only [step] at moved
    split at moved
    · cases Option.some.inj moved
      exact sizedIdle rfl
    · contradiction
  | control draw =>
    simp only [step] at moved
    split at moved
    · obtain ⟨r,rest,_,⟨-,rfl⟩ | ⟨-,u,-,⟨rfl,-⟩ | ⟨-,⟨-,rfl⟩ | ⟨-,rfl⟩⟩⟩⟩ := controlCases moved
      · exact sizedIdle rfl
      · exact sizedStart _ _ _ _ _
      · exact sizedIdle rfl
      · exact sizedStart _ _ _ _ _
    · contradiction
  | bulk draw =>
    simp only [step] at moved
    split at moved
    · obtain ⟨-,-,r,rest,-,⟨-,rfl⟩ | ⟨-,⟨-,rfl⟩ | rfl⟩⟩ := bulkCases moved
      · exact sizedIdle rfl
      · exact sizedIdle rfl
      · exact sizedStart _ _ _ _ _
    · contradiction
  | record draw fault =>
    simp only [step] at moved
    split at moved
    · exact sizedRecord moved
    · contradiction
  | finish made =>
    simp only [step] at moved
    split at moved
    · unfold finishStep at moved
      repeat' split at moved
      all_goals first | contradiction | cases Option.some.inj moved
      all_goals first | exact sizedIdle rfl | exact sizedIdle (drainNext _)
    · contradiction
  | arrive =>
    simp only [step] at moved
    split at moved
    · rename_i d here
      exact sizedArrive (here ▸ sized) moved
    · contradiction
  | windowEnd =>
    simp only [step] at moved
    split at moved
    · rename_i d here
      rw [here] at sized
      cases Option.some.inj moved
      exact (sizedDrain (sized.first d rfl)).1
    · contradiction
  | packet draws fault => exact sizedPacket sized moved
  | ready =>
    simp only [step] at moved
    split at moved
    · cases Option.some.inj moved
      exact sizedIdle (drainNext _)
    · contradiction
  | flush ok => exact sizedFlush sized moved
  | leave draw =>
    simp only [step] at moved
    repeat' split at moved
    all_goals first | contradiction | cases Option.some.inj moved
    · exact sizedIdle rfl
    · exact sizedStart _ _ _ _ _
  | goaway last ok =>
    simp only [step,goawayStep] at moved
    repeat' split at moved
    all_goals first | contradiction | cases Option.some.inj moved
    · exact sizedIdle rfl
    · cases ok <;> exact sizedIdle rfl

end Sized

def recordsOf (s : State) : List Record := s.wire ++ s.buffer

/- One turn of the drain under a policy: a size in the range, at least a byte taken and no
more than fits. -/
structure Exact (s : State) (d : Drain) (policy : ShapePolicy) : Prop where
  target : InRange policy.targetWireLen
  takes : 1 ≤ s.takeFor d policy
  fits : s.takeFor d policy + minDataWireLen ≤ policy.targetWireLen ∧ s.takeFor d policy ≤ dataRecordCapacity
  within : d.consumed + s.takeFor d policy ≤ s.pending.length

/- What that turn does: behind the fake interactions that go out inline it makes one record,
with the next bytes of the backlog and exactly as long as the policy says. -/
structure Turned (s t : State) (d : Drain) (policy : ShapePolicy) : Prop where
  exact' : Exact s d policy
  grown : ∃ r, recordsOf t = recordsOf s ++ inlineRecords d policy ++ [r] ∧ r.wireLen = policy.targetWireLen ∧
    r.payload = (s.pending.drop d.consumed).take (s.takeFor d policy)
  goes : ∃ e, drainOf t.pc = some e ∧ e.consumed = d.consumed + s.takeFor d policy
  backlog : t.pending = s.pending

/- A run inside one drain, with the last record of each of its turns. -/
inductive Drains (s : State) : List Record → State → Prop where
  | start : Drains s [] s
  | turn {data t u draw fault r} (before : Drains s data t) (moved : step t (.record draw fault) = some u)
      (inside : (drainOf u.pc).isSome = true) (last : (recordsOf u).getLast? = some r) : Drains s (data ++ [r]) u
  | other {data t u a} (before : Drains s data t) (others : ∀ draw fault, a ≠ .record draw fault)
      (moved : step t a = some u) (inside : (drainOf u.pc).isSome = true) : Drains s data u

section Turns
variable {s t u : State} {d : Drain} {a : Action} {draw : Draw}

theorem policyMost (draw : Draw) (first : ∀ policy, d.first = some policy → InRange policy.targetWireLen) :
    (s.policyFor d draw).1.targetWireLen ≤ maxDataRecordWireLen := by
  unfold policyFor
  cases fetched : d.first with
  | some policy => exact (first policy fetched).2
  | none =>
    dsimp only
    split
    · dsimp only
      split
      · exact Nat.le_refl _
      · exact TrafficShaper.wireLenMost (Nat.min_le_right _ _)
    · exact TrafficShaper.targetMost _ _ _

theorem recordExact {payload : List Byte} {target : Nat} (fits : payload.length + minDataWireLen ≤ target)
    (most : target ≤ maxDataRecordWireLen) : (record payload target).wireLen = target := by
  simp only [minDataWireLen,maxDataRecordWireLen,blockPlaintextSize,tlsRecordHeaderLen,blockLenPrefixSize,
    innerContentTypeLen,aeadTagLen] at fits most
  simp only [record,blockPlaintextSize,tlsRecordHeaderLen,blockLenPrefixSize,innerContentTypeLen,aeadTagLen]
  omega

theorem turnExact (draw : Draw) (sized : SizedPc s.pc) (was : drainOf s.pc = some d)
    (left : d.consumed < s.pending.length) : Exact s d (s.policyFor d draw).1 := by
  have first := sized.first d was
  have wide := policyWide draw (fun policy fetched => (first policy fetched).1) left
  have most := @policyMost s d draw first
  generalize (s.policyFor d draw).1 = policy at wide most ⊢
  have takes := takePositive wide left
  have bound : s.takeFor d policy + minDataWireLen ≤ policy.targetWireLen ∧ s.takeFor d policy ≤ dataRecordCapacity ∧
      d.consumed + s.takeFor d policy ≤ s.pending.length := by
    unfold takeFor
    omega
  exact ⟨⟨wide,most⟩,takes,⟨bound.1,bound.2.1⟩,bound.2.2⟩

theorem recordMade (moved : s.recordStep d draw .none = some t) :
    recordsOf t = recordsOf s ++ inlineRecords d (s.policyFor d draw).1 ++ [s.dataRecord d (s.policyFor d draw).1] := by
  unfold recordStep at moved
  split at moved
  · contradiction
  · dsimp only at moved
    simp only [reduceCtorEq,false_and,if_false] at moved
    split at moved <;> cases Option.some.inj moved <;> simp [recordsOf,prepared,flushed]

theorem turned (sized : SizedPc s.pc) (was : drainOf s.pc = some d) (moved : s.recordStep d draw .none = some t) :
    Turned s t d (s.policyFor d draw).1 := by
  have turn := recorded moved
  have exact' := turnExact draw sized was turn.left
  refine ⟨exact',⟨_,recordMade moved,recordExact ?_ exact'.target.2,rfl⟩,⟨s.afterRecord d (s.policyFor d draw).1,?_,rfl⟩,turn.pending⟩
  · have cut : ((s.pending.drop d.consumed).take (s.takeFor d (s.policyFor d draw).1)).length ≤
        s.takeFor d (s.policyFor d draw).1 := List.length_take_le _ _
    have fits := exact'.fits.1
    omega
  · rw [turn.pc]
    split <;> rfl

theorem recordEnabled (draw : Draw) (left : d.consumed < s.pending.length) : ∃ t, s.recordStep d draw .none = some t := by
  simp only [recordStep,if_neg (Nat.not_le.mpr left),reduceCtorEq,false_and,if_false]
  split <;> exact ⟨_,rfl⟩

theorem recordInside {fault : Fault} (moved : s.recordStep d draw fault = some t) (inside : (drainOf t.pc).isSome = true) :
    s.recordStep d draw .none = some t := by
  have failed {u : State} {e : Drain} (gone : (drainOf (u.failDrain e).pc).isSome = true) : False := by
    rw [failDrainPc] at gone
    split at gone <;> contradiction
  unfold recordStep at moved ⊢
  split at moved
  · contradiction
  · rename_i left
    rw [if_neg left]
    dsimp only at moved ⊢
    simp only [reduceCtorEq,false_and,if_false]
    split at moved
    · cases Option.some.inj moved
      exact (failed inside).elim
    · split at moved
      · cases Option.some.inj moved
        exact (failed inside).elim
      · split at moved
        · rename_i flushes
          rw [if_pos flushes]
          split at moved
          · cases Option.some.inj moved
            exact (failed inside).elim
          · exact moved
        · rename_i stays
          rw [if_neg stays]
          exact moved

structure Beside (s t : State) (d e : Drain) : Prop where
  consumed : e.consumed = d.consumed
  pending : t.pending = s.pending
  records : recordsOf s <+: recordsOf t

theorem besideStill {e : Drain} (was : drainOf s.pc = some d) (now : drainOf t.pc = some e) (pc : t.pc = s.pc)
    (pending : t.pending = s.pending) (records : recordsOf t = recordsOf s) : Beside s t d e := by
  rw [pc,was] at now
  cases now
  exact ⟨rfl,pending,records ▸ List.prefix_rfl⟩

theorem besideArrive {w e : Drain} (here : s.pc = .window w) (was : drainOf s.pc = some d) (now : drainOf t.pc = some e)
    (moved : s.arriveStep w = some t) : Beside s t d e := by
  rw [here] at was
  cases was
  unfold arriveStep at moved
  dsimp only at moved
  repeat' split at moved
  all_goals first | contradiction | skip
  all_goals cases Option.some.inj moved
  all_goals cases now
  all_goals exact ⟨rfl,rfl,List.prefix_rfl⟩

theorem besidePacket {e : Drain} {draws : List (Nat × Nat)} {fault : Option Nat} (was : drainOf s.pc = some d)
    (now : drainOf t.pc = some e) (moved : s.packetStep draws fault = some t) : Beside s t d e := by
  unfold packetStep at moved
  split at moved
  · rename_i w r p todo here
    rw [here] at was
    cases was
    obtain ⟨records,_,rfl⟩ := Option.map_eq_some_iff.mp moved
    cases fault with
    | some broken =>
      dsimp only at now
      rw [failDrainPc] at now
      split at now <;> contradiction
    | none =>
      cases now
      exact ⟨rfl,rfl,by simp [recordsOf,prepared]⟩
  · rename_i here
    rw [here] at was
    contradiction
  · contradiction

theorem besideFlush {e : Drain} {ok : Bool} (was : drainOf s.pc = some d) (now : drainOf t.pc = some e)
    (moved : s.flushStep ok = some t) : Beside s t d e := by
  unfold flushStep at moved
  split at moved
  · rename_i w r here
    rw [here] at was
    cases was
    cases Option.some.inj moved
    cases ok with
    | true =>
      cases now
      exact ⟨rfl,rfl,by simp [recordsOf,flushed]⟩
    | false =>
      simp only [cond_false] at now
      rw [failDrainPc] at now
      split at now <;> contradiction
  · rename_i here
    rw [here] at was
    contradiction
  · rename_i here
    rw [here] at was
    contradiction
  · contradiction

theorem besideTurn {e : Drain} (was : drainOf s.pc = some d) (now : drainOf t.pc = some e)
    (others : ∀ draw fault, a ≠ .record draw fault) (moved : step s a = some t) : Beside s t d e := by
  have off {pc : Pc} (here : s.pc = pc) (none : drainOf pc = none) : False := by
    rw [here,none] at was
    contradiction
  cases a with
  | record draw fault => exact absurd rfl (others draw fault)
  | send control auto packets =>
    simp only [step] at moved
    split at moved
    · contradiction
    · cases Option.some.inj moved
      exact besideStill was now rfl rfl rfl
  | close | hangUp =>
    cases Option.some.inj moved
    exact besideStill was now rfl rfl rfl
  | exit =>
    simp only [step] at moved
    split at moved
    · rename_i here
      exact (off here.1 rfl).elim
    · contradiction
  | control draw | bulk draw | leave draw | ready | goaway last ok =>
    simp only [step] at moved
    split at moved
    · rename_i here
      exact (off here rfl).elim
    · contradiction
  | finish n =>
    simp only [step] at moved
    split at moved
    · unfold finishStep at moved
      repeat' split at moved
      all_goals first | contradiction | cases Option.some.inj moved
      all_goals first | contradiction | exact absurd ((drainNext _).symm.trans now) (Option.some_ne_none e).symm
    · contradiction
  | arrive =>
    simp only [step] at moved
    split at moved
    · rename_i w here
      exact besideArrive here was now moved
    · contradiction
  | windowEnd =>
    simp only [step] at moved
    split at moved
    · rename_i w here
      rw [here] at was
      cases was
      cases Option.some.inj moved
      cases now
      exact ⟨rfl,rfl,List.prefix_rfl⟩
    · contradiction
  | packet draws fault => exact besidePacket was now moved
  | flush ok => exact besideFlush was now moved

/- Where a run inside a drain stands: its data records are the front of the backlog. -/
structure Drained (s : State) (data : List Record) (t : State) : Prop where
  sized : SizedPc t.pc
  inside : ∃ d, drainOf t.pc = some d ∧ data.flatMap (·.payload) = s.pending.take d.consumed
  backlog : t.pending = s.pending
  among : data.Sublist (recordsOf t)

theorem drainsKept {data : List Record} (sized : SizedPc s.pc) (was : drainOf s.pc = some d) (none : d.consumed = 0)
    (run : Drains s data t) : Drained s data t := by
  induction run with
  | start => exact ⟨sized,⟨d,was,by rw [none]; rfl⟩,rfl,List.nil_sublist _⟩
  | @turn data t u draw fault r before moved inside last ih =>
    obtain ⟨sized,⟨e,here,front⟩,backlog,among⟩ := ih
    have after := sizedStep sized moved
    simp only [step] at moved
    split at moved
    · rename_i f at'
      rw [at'] at here
      cases here
      obtain ⟨exact',⟨made',grown,_,payload⟩,⟨g,goes,further⟩,kept⟩ :=
        @turned _ _ _ draw sized (by rw [at']; rfl) (recordInside moved inside)
      have same : made' = r := by
        rw [grown,List.getLast?_append] at last
        simpa using last
      subst same
      refine ⟨after,⟨g,goes,?_⟩,kept.trans backlog,?_⟩
      · rw [List.flatMap_append,front,further,List.take_add,List.flatMap_singleton,payload,backlog]
      · rw [grown]
        exact (among.trans (List.sublist_append_left _ _)).append (List.Sublist.refl _)
    · contradiction
  | @other data t u a before others moved inside ih =>
    obtain ⟨sized,⟨e,here,front⟩,backlog,among⟩ := ih
    obtain ⟨g,goes⟩ := Option.isSome_iff_exists.mp inside
    obtain ⟨same,kept,grown⟩ := besideTurn here goes others moved
    exact ⟨sizedStep sized moved,⟨g,goes,by rw [same]; exact front⟩,kept.trans backlog,among.trans grown.sublist⟩

theorem finished {data : List Record} {n : Nat} (done : Drained s data t) (moved : step t (.finish n) = some u) :
    data.flatMap (·.payload) = s.pending := by
  obtain ⟨_,⟨d,here,front⟩,backlog,_⟩ := done
  simp only [step] at moved
  split at moved
  · rename_i e at'
    rw [at'] at here
    cases here
    unfold finishStep at moved
    split at moved
    · contradiction
    · rename_i all
      rw [front]
      exact List.take_of_length_le (by rw [← backlog]; exact Nat.le_of_not_lt all)
  · contradiction

theorem selfSizedHead {cmd : UInt8} {rest : Bytes} (padding : selfSizedPadding (cmd::rest) = true) : cmd = cmdPadding := by
  unfold selfSizedPadding at padding
  split at padding
  · rename_i same
    cases same
    simp only [Bool.and_eq_true,beq_iff_eq] at padding
    exact padding.1.1
  · contradiction

theorem lifecycleRecordable {p : Packet} (plain : ∀ f ∈ p.frames, isLifecycle f.cmd = true) : Recordable p := by
  intro padding
  exfalso
  rw [packetValues] at padding
  cases frames : p.frames with
  | nil =>
    rw [frames] at padding
    contradiction
  | cons f rest =>
    have mark := plain f (by rw [frames]; exact List.mem_cons_self)
    rw [frames] at padding
    have first : f.cmd = cmdPadding := by
      rw [encodeAllCons] at padding
      exact selfSizedHead padding
    rw [first] at mark
    contradiction

theorem drainGoes (sized : SizedPc s.pc) (was : drainOf s.pc = some d) : ∃ a t, cleanStep s a = some t := by
  cases here : s.pc with
  | drain e => exact drainEnabled here
  | window e => exact enabledBy .windowEnd rfl (by simp [step,here])
  | through e r todo =>
    cases todo with
    | nil => exact enabledBy (.flush true) rfl (by simp [step,flushStep,here])
    | cons p todo =>
      have plain := sized.through e r _ here p List.mem_cons_self
      obtain ⟨draws,records,made⟩ := recordsExist (lifecycleRecordable plain)
      exact enabledBy (.packet draws none) rfl (by simp [step,packetStep,here,made])
  | _ =>
    rw [here] at was
    contradiction

theorem drainLowers (sized : SizedPc s.pc) (was : drainOf s.pc = some d) (moved : cleanStep s a = some t) :
    (drainOf t.pc = none ∧ t.pending = []) ∨ ((∃ e, drainOf t.pc = some e) ∧ rank t < rank s) := by
  unfold cleanStep at moved
  split at moved
  · rename_i both
    obtain ⟨own,clean⟩ := Bool.and_eq_true_iff.mp both
    cases a with
    | record draw fault =>
      simp only [step] at moved
      split at moved
      · rename_i e here
        cases of_decide_eq_true clean
        have turn := recorded moved
        have takes := (turnExact draw sized (by rw [here]; rfl) turn.left).takes
        refine .inr ⟨⟨s.afterRecord e (s.policyFor e draw).1,?_⟩,(takeLowers here takes moved).1⟩
        rw [turn.pc]
        split <;> rfl
      · contradiction
    | finish made =>
      simp only [step] at moved
      split at moved
      · unfold finishStep at moved
        repeat' split at moved
        all_goals first | contradiction | cases Option.some.inj moved
        all_goals first | exact .inl ⟨rfl,rfl⟩ | exact .inl ⟨drainNext _,rfl⟩
      · contradiction
    | arrive =>
      simp only [step] at moved
      split at moved
      · rename_i e here
        refine .inr ⟨?_,(arriveLowers here moved).1⟩
        unfold arriveStep at moved
        dsimp only at moved
        repeat' split at moved
        all_goals first | contradiction | skip
        all_goals cases Option.some.inj moved
        all_goals exact ⟨_,rfl⟩
      · contradiction
    | windowEnd =>
      simp only [step] at moved
      split at moved
      · rename_i e here
        cases Option.some.inj moved
        refine .inr ⟨⟨e,rfl⟩,rankLess rfl rfl ?_⟩
        rw [here]
        exact Nat.add_lt_add_right (Nat.lt_succ_self 4) (e.left s.pending.length)
      · contradiction
    | packet draws fault =>
      cases fault with
      | some made => contradiction
      | none =>
        refine .inr ⟨?_,(packetLowers moved).1⟩
        simp only [step,packetStep] at moved
        split at moved
        · obtain ⟨records,_,rfl⟩ := Option.map_eq_some_iff.mp moved
          exact ⟨_,rfl⟩
        · rename_i here
          rw [here] at was
          contradiction
        · contradiction
    | flush ok =>
      cases ok with
      | false => contradiction
      | true =>
        refine .inr ⟨?_,(flushLowers (drainLive was) moved).1⟩
        simp only [step,flushStep] at moved
        split at moved
        · cases Option.some.inj moved
          exact ⟨_,rfl⟩
        · rename_i here
          rw [here] at was
          contradiction
        · rename_i here
          rw [here] at was
          contradiction
        · contradiction
    | control draw | bulk draw =>
      simp only [step] at moved
      split at moved
      · rename_i here
        rw [here] at was
        contradiction
      · contradiction
    | ready =>
      simp only [step] at moved
      split at moved
      · rename_i here
        rw [here] at was
        contradiction
      · contradiction
    | _ => contradiction
  · contradiction

theorem drainEnds (sized : SizedPc s.pc) (was : drainOf s.pc = some d) :
    Machine.Inevitable cleanStep (fun _ => True) (fun _ t => drainOf t.pc = none ∧ t.pending = []) s := by
  refine Machine.inevitableByRank (I := fun s => SizedPc s.pc ∧ ∃ d, drainOf s.pc = some d) rank ?_ ?_ ⟨sized,d,was⟩
  · rintro s ⟨sized,d,was⟩
    obtain ⟨a,t,moved⟩ := drainGoes sized was
    exact ⟨a,t,trivial,moved⟩
  · rintro s a t ⟨sized,d,was⟩ _ moved
    obtain done | ⟨still,lower⟩ := drainLowers sized was moved
    · exact .inl done
    · refine .inr ⟨⟨?_,still⟩,lower⟩
      unfold cleanStep at moved
      split at moved
      · exact sizedStep sized moved
      · contradiction

end Turns

/- Over every accepted script and from every state of its shaper: every range of lengths it
draws from has a value and the policies keep to theirs; a drain of any backlog, whatever happens
on the way, makes its turns with the next bytes of the backlog, at least one at a time and in
records as long as the policy says; it is finished when these records hold the backlog, and left
alone it comes to that end. -/
theorem drainShaped {build : Script.Build} {lines : List Text.Text} {parsed : Script.ParsedScript}
    (read : Script.parseTrafficScript build lines = .ok parsed) (client postScriptOff : Bool)
    (scriptDraw : ScriptDraw) (made : List TrafficShaper.Call) :
    let sh := (TrafficShaper.new client (some (.ofScript parsed)) postScriptOff scriptDraw).calls made
    ((∀ rule ∈ (ParsedScript.ofScript parsed).rules,rule.lenLo ≤ rule.lenHi) ∧ TrafficShaper.Usable sh.script) ∧
    (∀ draw pendingLen, 1 ≤ pendingLen → InRange (sh.nextDataPolicy draw pendingLen).1.targetWireLen) ∧
    ∀ (s : State) (pinned : List Nat) (current : Option Request) (exiting : Bool) (draw : Draw),
      s.shaper = sh → s.pending ≠ [] →
      (∀ t d, Machine.Reach step Machine.Always (s.startDrain pinned current exiting draw) t → t.pc = .drain d →
        d.consumed < t.pending.length → ∀ draw, ∃ u, step t (.record draw .none) = some u ∧
          Turned t u d (t.policyFor d draw).1) ∧
      (∀ data t, Drains (s.startDrain pinned current exiting draw) data t → data.Sublist (recordsOf t) ∧
        ∀ n u, step t (.finish n) = some u → data.flatMap (·.payload) = s.pending) ∧
      Machine.Inevitable cleanStep (fun _ => True) (fun _ t => drainOf t.pc = none ∧ t.pending = [])
        (s.startDrain pinned current exiting draw) := by
  intro sh
  refine ⟨⟨?_,?_⟩,?_,?_⟩
  · intro rule member
    obtain ⟨source,known,rfl⟩ := List.mem_map.mp member
    obtain ⟨-,-,_,usable⟩ := Script.scriptUsable read
    exact (usable.rules source known).len
  · have script : sh.script = (TrafficShaper.new client (some (.ofScript parsed)) postScriptOff scriptDraw).script :=
      TrafficShaper.callsScript made _
    rw [script]
    exact TrafficShaper.randomizeUsable _ _
  · intro draw pendingLen some'
    exact ⟨TrafficShaper.targetWide _ _ _ some',TrafficShaper.targetMost _ _ _⟩
  · intro s pinned current exiting draw _ _
    have start := sizedStart s pinned current exiting draw
    refine ⟨?_,?_,drainEnds start rfl⟩
    · intro t d run here left draw
      have sized : SizedPc t.pc :=
        Machine.reachInvariant (I := fun s => SizedPc s.pc) start (fun sized _ moved => sizedStep sized moved) run
      obtain ⟨u,moved⟩ := recordEnabled draw left
      have stepped : step t (.record draw .none) = some u := by
        simp only [step,here]
        exact moved
      exact ⟨u,stepped,turned sized (by rw [here]; rfl) moved⟩
    · intro data t run
      have done := drainsKept start rfl rfl run
      exact ⟨done.among,fun n u moved => (finished done moved).trans rfl⟩

def backlogState : State where
  client := false
  settings := false
  shaper := (TrafficShaper.new false (some (.ofScript deferringParsed)) false
    {offset := 0,rule := fun _ => {fixed := 0,scaled := fun len => len}}).calls [.nextDataPolicy {payload := 200} 64,.advance]
  pending := Packet.bytes ⟨some 0,[⟨cmdFin,3,[],by decide,by decide⟩]⟩

theorem drainShapedBacklog : Machine.Inevitable cleanStep (fun _ => True) (fun _ t => drainOf t.pc = none ∧ t.pending = [])
      (backlogState.startDrain [] none false {payload := 220}) ∧
    (∀ data t n u, Drains (backlogState.startDrain [] none false {payload := 220}) data t → step t (.finish n) = some u →
      data.flatMap (·.payload) = backlogState.pending) ∧
    InRange (backlogState.shaper.nextDataPolicy {payload := 220} 7).1.targetWireLen := by
  have read : Script.parseTrafficScript ⟨true,fun v => v⟩ deferringLines = .ok deferringParsed := rfl
  obtain ⟨-,range,drain⟩ := drainShaped read false false {offset := 0,rule := fun _ => {fixed := 0,scaled := fun len => len}}
    [.nextDataPolicy {payload := 200} 64,.advance]
  obtain ⟨-,whole,ends⟩ := drain backlogState [] none false {payload := 220} rfl (by decide)
  exact ⟨ends,fun data t n u run moved => (whole data t run).2 n u moved,range {payload := 220} 7 (by decide)⟩

end KanoTls.Writer
