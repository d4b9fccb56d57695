import Mathlib.Data.List.MinMax
import KanoTls.Camouflage
import KanoTls.Machine

/-! The pool of camouflage profiles over whole runs of pushes. The clock of a run never
goes back. -/
namespace KanoTls.Camouflage
open Machine Wire

section Lists
variable {α : Type} {test : α → Bool} {change : α → α} {pool : List α}

theorem updateFirstAll {P : α → Prop} (all : ∀ x ∈ pool, P x) (changed : ∀ x ∈ pool, test x = true → P (change x)) :
    ∀ x ∈ updateFirst test change pool, P x := by
  induction pool with
  | nil =>
    intro x member
    contradiction
  | cons first rest ih =>
    intro x member
    rw [updateFirst] at member
    split at member
    · rename_i hit
      rcases List.mem_cons.mp member with rfl | later
      · exact changed first List.mem_cons_self hit
      · exact all x (List.mem_cons_of_mem _ later)
    · rcases List.mem_cons.mp member with rfl | later
      · exact all x List.mem_cons_self
      · exact ih (fun y inside => all y (List.mem_cons_of_mem _ inside))
          (fun y inside => changed y (List.mem_cons_of_mem _ inside)) x later

theorem updateFirstLength : (updateFirst test change pool).length = pool.length := by
  induction pool with
  | nil => rfl
  | cons first rest ih =>
    rw [updateFirst]
    split
    · rfl
    · rw [List.length_cons,ih,List.length_cons]

theorem updateFirstMember (found : pool.any test = true) : ∃ x ∈ pool, change x ∈ updateFirst test change pool := by
  induction pool with
  | nil => contradiction
  | cons first rest ih =>
    rw [updateFirst]
    by_cases hit : test first = true
    · rw [if_pos hit]
      exact ⟨first,List.mem_cons_self,List.mem_cons_self⟩
    · rw [if_neg hit]
      rw [List.any_cons,Bool.eq_false_iff.mpr hit,Bool.false_or] at found
      obtain ⟨x,inside,kept⟩ := ih found
      exact ⟨x,List.mem_cons_of_mem _ inside,List.mem_cons_of_mem _ kept⟩

theorem updateFirstPairwise {R : α → α → Prop} (apart : pool.Pairwise R)
    (left : ∀ x y, test x = true → R x y → R (change x) y) (right : ∀ x y, test y = true → R x y → R x (change y)) :
    (updateFirst test change pool).Pairwise R := by
  induction pool with
  | nil => exact .nil
  | cons first rest ih =>
    obtain ⟨here,later⟩ := List.pairwise_cons.mp apart
    rw [updateFirst]
    split
    · rename_i hit
      exact .cons (fun y inside => left first y hit (here y inside)) later
    · exact .cons (updateFirstAll here (fun y inside hit => right first y hit (here y inside))) (ih later)

end Lists

section Sanitize

theorem filterTakeTwice (sizes : List Nat) (most : Nat) :
    (((sizes.filter plausibleSize).take most).filter plausibleSize).take most = (sizes.filter plausibleSize).take most := by
  have inRange : ∀ size ∈ (sizes.filter plausibleSize).take most, plausibleSize size = true :=
    fun size member => (List.mem_filter.mp (List.mem_of_mem_take member)).2
  rw [List.filter_eq_self.mpr inRange,List.take_take,Nat.min_self]

theorem sanitizeTwice (p : CamouflageProfile) :
    sanitizeCamouflageProfile (sanitizeCamouflageProfile p) = sanitizeCamouflageProfile p := by
  have sizes := filterTakeTwice p.appDataSizes maxCamouflageAppDataRecords
  have prefixes := filterTakeTwice p.prefixAppDataSizes maxCamouflagePrefixAppDataRecords
  unfold sanitizeCamouflageProfile
  dsimp only
  rw [sizes,prefixes,List.take_take,Nat.min_self]

theorem sanitizeSizes {p : CamouflageProfile} (inRange : ∀ size ∈ p.appDataSizes, plausibleSize size = true)
    (few : p.appDataSizes.length ≤ maxCamouflageAppDataRecords) :
    (sanitizeCamouflageProfile p).appDataSizes = p.appDataSizes := by
  show (p.appDataSizes.filter plausibleSize).take maxCamouflageAppDataRecords = p.appDataSizes
  rw [List.filter_eq_self.mpr inRange,List.take_of_length_le few]

theorem saneSizes {p : CamouflageProfile} (sane : sanitizeCamouflageProfile p = p) :
    (∀ size ∈ p.appDataSizes, plausibleSize size = true) ∧ p.appDataSizes.length ≤ maxCamouflageAppDataRecords := by
  rw [← sane]
  refine ⟨?_,?_⟩
  · intro size member
    exact (List.mem_filter.mp (List.mem_of_mem_take member)).2
  · exact List.length_take_le _ _

theorem rankThree {p : CamouflageProfile} :
    camouflageProfileRank p = 3 ↔ p.serverRecords ≠ [] ∧ 1 < p.appDataSizes.length := by
  unfold camouflageProfileRank
  cases p.serverRecords with
  | nil => by_cases none : p.appDataSizes.isEmpty = true <;> simp [none]
  | cons first rest =>
    by_cases few : p.appDataSizes.length ≤ 1
    · simp [few]
    · simp [few,Nat.lt_of_not_le few]

end Sanitize

section Merge
variable {cached sampled : CamouflageProfile}

theorem mergedFull (records : cached.serverRecords ≠ []) (many : 1 < cached.appDataSizes.length) :
    (mergedProfile cached sampled).serverRecords ≠ [] ∧
    ((mergedProfile cached sampled).appDataSizes = cached.appDataSizes ∨
      (∃ first ∈ sampled.appDataSizes, (mergedProfile cached sampled).appDataSizes = cached.appDataSizes.set 0 first) ∨
      (1 < sampled.appDataSizes.length ∧ (mergedProfile cached sampled).appDataSizes = sampled.appDataSizes)) := by
  unfold mergedProfile
  have refreshed : ∃ base : CamouflageProfile, (if sampled.serverRecords.isEmpty then cached
      else { cached with
        serverRecords := sampled.serverRecords
        visibleServerRecordCount := sampled.visibleServerRecordCount
        hasCcs := sampled.hasCcs }) = base ∧ base.serverRecords ≠ [] ∧ base.appDataSizes = cached.appDataSizes := by
    split
    · exact ⟨cached,rfl,records,rfl⟩
    · rename_i fresh
      exact ⟨_,rfl,fun none => fresh (List.isEmpty_iff.mpr none),rfl⟩
  obtain ⟨base,made,baseRecords,baseSizes⟩ := refreshed
  rw [made]
  dsimp only
  rw [← baseSizes] at many ⊢
  split
  · exact ⟨baseRecords,.inl rfl⟩
  · split
    · split
      · exact ⟨baseRecords,.inl rfl⟩
      · rename_i first found
        exact ⟨baseRecords,.inr (.inl ⟨first,List.mem_of_mem_head? found,rfl⟩)⟩
    · rename_i several
      refine ⟨baseRecords,.inr (.inr ⟨?_,rfl⟩)⟩
      simp only [Bool.and_eq_true,decide_eq_true_eq,not_and] at several
      exact Nat.lt_of_not_le (fun few => several few many)

theorem mergeRankThree (sane : sanitizeCamouflageProfile cached = cached) (full : camouflageProfileRank cached = 3) :
    camouflageProfileRank (mergeCamouflageProfile cached sampled) = 3 := by
  obtain ⟨records,many⟩ := rankThree.mp full
  obtain ⟨inRange,few⟩ := saneSizes sane
  obtain ⟨sampledRange,sampledFew⟩ := saneSizes (sanitizeTwice sampled)
  obtain ⟨kept,sizes⟩ := @mergedFull cached (sanitizeCamouflageProfile sampled) records many
  refine rankThree.mpr ⟨kept,?_⟩
  unfold mergeCamouflageProfile
  rcases sizes with same | ⟨first,member,same⟩ | ⟨more,same⟩
  · rw [sanitizeSizes (same ▸ inRange) (same ▸ few),same]
    exact many
  · have range : ∀ size ∈ cached.appDataSizes.set 0 first, plausibleSize size = true := by
      intro size inside
      rcases List.mem_or_eq_of_mem_set inside with old | rfl
      · exact inRange size old
      · exact sampledRange size member
    have count : (cached.appDataSizes.set 0 first).length ≤ maxCamouflageAppDataRecords := by
      rw [List.length_set]
      exact few
    rw [sanitizeSizes (same ▸ range) (same ▸ count),same,List.length_set]
    exact many
  · rw [sanitizeSizes (same ▸ sampledRange) (same ▸ sampledFew),same]
    exact more

end Merge

section Pushes
variable {ι : Type}

structure ProfilePool (ι : Type) where
  clock : Nat
  profiles : List (PooledProfile ι)

/- A push reads the clock; the tag only says which push it was. -/
structure Push (ι : Type) where
  now : Nat
  profile : CamouflageProfile
  tag : ι

def emptyPool : ProfilePool ι := ⟨0,[]⟩

def pushStep (pool : ProfilePool ι) (a : Push ι) : Option (ProfilePool ι) :=
  if a.now < pool.clock then none else some ⟨a.now,pushProfileVariant a.now pool.profiles a.profile a.tag⟩

structure WellPooled (pool : ProfilePool ι) : Prop where
  sane : ∀ e ∈ pool.profiles, sanitizeCamouflageProfile e.profile = e.profile
  distinct : pool.profiles.Pairwise (fun a b => sameVariant a.profile b.profile = false)
  few : pool.profiles.length ≤ maxCamouflageProfileVariants
  past : ∀ e ∈ pool.profiles, e.fetchedAt ≤ pool.clock

theorem sameVariantIff (a b : CamouflageProfile) : sameVariant a b = true ↔
    (a.serverRecords,a.prefixAppDataSizes,a.appDataSizes,a.earlyAppDataGapUs,a.firstAppDataDelayUs,a.hasCcs) =
      (b.serverRecords,b.prefixAppDataSizes,b.appDataSizes,b.earlyAppDataGapUs,b.firstAppDataDelayUs,b.hasCcs) := by
  simp only [sameVariant,Bool.and_eq_true,beq_iff_eq,Prod.mk.injEq,and_assoc]

theorem sameVariantSwap {a b c : CamouflageProfile} (same : sameVariant a b = true) :
    sameVariant b c = sameVariant a c ∧ sameVariant c b = sameVariant c a := by
  rw [sameVariantIff] at same
  constructor
  · rw [Bool.eq_iff_iff,sameVariantIff,sameVariantIff,same]
  · rw [Bool.eq_iff_iff,sameVariantIff,sameVariantIff,same]

theorem oldestBefore (pool : List (PooledProfile ι)) (latest : PooledProfile ι) (some : pool ≠ [])
    (past : ∀ e ∈ pool, e.fetchedAt ≤ latest.fetchedAt) : oldest (pool ++ [latest]) < pool.length := by
  obtain ⟨least,found⟩ := Option.ne_none_iff_exists'.mp (fun none =>
    some ((List.argmin_eq_none (f := PooledProfile.fetchedAt)).mp none))
  have member := List.argmin_mem found
  have below : ∀ e ∈ pool ++ [latest], least.fetchedAt ≤ e.fetchedAt := by
    intro e inside
    rcases List.mem_append.mp inside with old | new
    · exact List.le_of_mem_argmin old found
    · rw [List.mem_singleton.mp new]
      exact past least member
  have meets : (pool ++ [latest]).all (fun other => least.fetchedAt ≤ other.fetchedAt) = true :=
    List.all_eq_true.mpr (fun e inside => decide_eq_true (below e inside))
  unfold oldest
  rw [List.findIdx_append,if_pos (List.findIdx_lt_length_of_exists ⟨least,member,meets⟩)]
  exact List.findIdx_lt_length_of_exists ⟨least,member,meets⟩

variable {pool : List (PooledProfile ι)} {now : Nat} {p : CamouflageProfile} {tag : ι}

/- What a push can do: refresh the entry of the same variant, or append, at the cost of one
older entry when the pool is full. -/
theorem pushCases (past : ∀ e ∈ pool, e.fetchedAt ≤ now) :
    (pool.any (fun e => sameVariant e.profile (sanitizeCamouflageProfile p)) = true ∧
      pushProfileVariant now pool p tag = updateFirst (fun e => sameVariant e.profile (sanitizeCamouflageProfile p))
        (fun _ => ⟨sanitizeCamouflageProfile p,now,tag⟩) pool) ∨
    ((∀ e ∈ pool, sameVariant e.profile (sanitizeCamouflageProfile p) = false) ∧
      ∃ kept : List (PooledProfile ι), kept.Sublist pool ∧ (pool.length ≤ maxCamouflageProfileVariants →
        kept.length < maxCamouflageProfileVariants) ∧
        pushProfileVariant now pool p tag = kept ++ [⟨sanitizeCamouflageProfile p,now,tag⟩]) := by
  unfold pushProfileVariant
  dsimp only
  by_cases known : pool.any (fun e => sameVariant e.profile (sanitizeCamouflageProfile p)) = true
  · exact .inl ⟨known,if_pos known⟩
  · refine .inr ⟨?_,?_⟩
    · intro e member
      exact Bool.eq_false_iff.mpr (fun same => known (List.any_eq_true.mpr ⟨e,member,same⟩))
    · rw [if_neg known,List.length_append,List.length_singleton]
      by_cases full : pool.length + 1 > maxCamouflageProfileVariants
      · have some : pool ≠ [] := by
          intro none
          rw [none,maxCamouflageProfileVariants] at full
          contradiction
        have before := oldestBefore pool ⟨sanitizeCamouflageProfile p,now,tag⟩ some past
        rw [if_pos full,List.eraseIdx_append_of_lt_length before]
        refine ⟨_,List.eraseIdx_sublist _ _,?_,rfl⟩
        intro few
        rw [List.length_eraseIdx_of_lt before]
        omega
      · rw [if_neg full]
        exact ⟨pool,List.Sublist.refl _,fun _ => by omega,rfl⟩

theorem pushedMember (past : ∀ e ∈ pool, e.fetchedAt ≤ now) :
    ⟨sanitizeCamouflageProfile p,now,tag⟩ ∈ pushProfileVariant now pool p tag := by
  rcases @pushCases ι pool now p tag past with ⟨known,made⟩ | ⟨_,kept,_,_,made⟩
  · rw [made]
    obtain ⟨_,_,inside⟩ := @updateFirstMember _ _ (fun _ => ⟨sanitizeCamouflageProfile p,now,tag⟩) _ known
    exact inside
  · rw [made]
    exact List.mem_append_right _ (List.mem_singleton_self _)

theorem pushWell {s t : ProfilePool ι} {a : Push ι} (here : WellPooled s) (moved : pushStep s a = some t) : WellPooled t := by
  obtain ⟨later,made⟩ := Option.ite_none_left_eq_some.mp moved
  cases Option.some.inj made
  have past : ∀ e ∈ s.profiles, e.fetchedAt ≤ a.now :=
    fun e member => Nat.le_trans (here.past e member) (Nat.le_of_not_lt later)
  have sanitized := sanitizeTwice a.profile
  rcases @pushCases ι s.profiles a.now a.profile a.tag past with ⟨_,pushed⟩ | ⟨fresh,kept,sub,fewer,pushed⟩
  · constructor <;> dsimp only <;> rw [pushed]
    · exact updateFirstAll here.sane (fun _ _ _ => sanitized)
    · refine updateFirstPairwise here.distinct ?_ ?_
      · intro x y same apart
        rw [(sameVariantSwap same).1]
        exact apart
      · intro x y same apart
        rw [(sameVariantSwap same).2]
        exact apart
    · rw [updateFirstLength]
      exact here.few
    · exact updateFirstAll past (fun _ _ _ => Nat.le_refl _)
  · constructor <;> dsimp only <;> rw [pushed]
    · intro e member
      rcases List.mem_append.mp member with old | new
      · exact here.sane e (sub.mem old)
      · cases List.mem_singleton.mp new
        exact sanitized
    · refine List.pairwise_append.mpr ⟨here.distinct.sublist sub,List.pairwise_singleton _ _,?_⟩
      intro e old last new
      cases List.mem_singleton.mp new
      exact fresh e (sub.mem old)
    · rw [List.length_append,List.length_singleton]
      exact fewer here.few
    · intro e member
      rcases List.mem_append.mp member with old | new
      · exact past e (sub.mem old)
      · cases List.mem_singleton.mp new
        exact Nat.le_refl _

end Pushes

section Sample
variable {ι : Type}

theorem foldlMax (ranks : List Nat) (start : Nat) : start ≤ ranks.foldl max start ∧ (∀ r ∈ ranks, r ≤ ranks.foldl max start) ∧
    (ranks.foldl max start = start ∨ ranks.foldl max start ∈ ranks) := by
  induction ranks generalizing start with
  | nil => exact ⟨Nat.le_refl _,fun r member => by contradiction,.inl rfl⟩
  | cons first rest ih =>
    obtain ⟨above,all,from'⟩ := ih (max start first)
    rw [List.foldl_cons]
    refine ⟨Nat.le_trans (Nat.le_max_left _ _) above,?_,?_⟩
    · intro r member
      rcases List.mem_cons.mp member with rfl | later
      · exact Nat.le_trans (Nat.le_max_right _ _) above
      · exact all r later
    · rcases from' with same | inside
      · rcases Nat.le_total first start with low | high
        · exact .inl (same.trans (Nat.max_eq_left low))
        · exact .inr (List.mem_cons.mpr (.inl (same.trans (Nat.max_eq_right high))))
      · exact .inr (List.mem_cons_of_mem _ inside)

theorem sampleBest (draw : Nat) (pool : List (PooledProfile ι)) :
    ((∀ e ∈ pool, camouflageProfileRank e.profile = 0) ∧ pickVariant draw pool = none) ∨
    ∃ e ∈ pool, pickVariant draw pool = some e ∧ 0 < camouflageProfileRank e.profile ∧
      ∀ other ∈ pool, camouflageProfileRank other.profile ≤ camouflageProfileRank e.profile := by
  obtain ⟨_,above,attained⟩ := foldlMax (pool.map (fun e => camouflageProfileRank e.profile)) 0
  unfold pickVariant
  dsimp only
  generalize (pool.map (fun e => camouflageProfileRank e.profile)).foldl max 0 = best at above attained
  have bounded : ∀ e ∈ pool, camouflageProfileRank e.profile ≤ best :=
    fun e member => above _ (List.mem_map_of_mem member)
  by_cases zero : best = 0
  · exact .inl ⟨fun e member => Nat.le_zero.mp (zero ▸ bounded e member),if_pos zero⟩
  · rw [if_neg zero]
    obtain ⟨e,member,rank⟩ := List.mem_map.mp (attained.resolve_left zero)
    have usable : e ∈ pool.filter (fun e => camouflageProfileRank e.profile = best) :=
      List.mem_filter.mpr ⟨member,decide_eq_true rank⟩
    have inside := Nat.mod_lt draw (List.length_pos_of_mem usable)
    have found := List.getElem?_eq_getElem inside
    obtain ⟨pooled,ranked⟩ := List.mem_filter.mp (List.mem_of_getElem? found)
    have top := of_decide_eq_true ranked
    refine .inr ⟨_,pooled,found,?_,?_⟩
    · rw [top]
      exact Nat.pos_of_ne_zero zero
    · intro other there
      rw [top]
      exact bounded other there

end Sample

/- The pool over any run of pushes. A sample has the highest rank in the pool, and there is
one exactly when that rank is not zero. -/
theorem poolWellFormed {ι : Type} {s : ProfilePool ι} (reach : Reach pushStep Always emptyPool s) :
    (∀ p, sanitizeCamouflageProfile (sanitizeCamouflageProfile p) = sanitizeCamouflageProfile p) ∧
    (∀ e ∈ s.profiles, sanitizeCamouflageProfile e.profile = e.profile) ∧
    s.profiles.Pairwise (fun a b => sameVariant a.profile b.profile = false) ∧
    s.profiles.length ≤ maxCamouflageProfileVariants ∧
    (∀ a t, pushStep s a = some t → ∃ e ∈ t.profiles, e.profile = sanitizeCamouflageProfile a.profile) ∧
    (∀ draw, (∃ e ∈ s.profiles, 0 < camouflageProfileRank e.profile) →
      ∃ p, sampleCamouflageProfile draw s.profiles = some p ∧ (∃ e ∈ s.profiles, e.profile = p) ∧
        ∀ e ∈ s.profiles, camouflageProfileRank e.profile ≤ camouflageProfileRank p) ∧
    (∀ draw, (∀ e ∈ s.profiles, camouflageProfileRank e.profile = 0) → sampleCamouflageProfile draw s.profiles = none) ∧
    ∀ cached sampled, sanitizeCamouflageProfile cached = cached → camouflageProfileRank cached = 3 →
      camouflageProfileRank (mergeCamouflageProfile cached sampled) = 3 := by
  have here : WellPooled s := reachInvariant
    ⟨fun _ member => by contradiction,.nil,Nat.zero_le _,fun _ member => by contradiction⟩
    (fun kept _ moved => pushWell kept moved) reach
  refine ⟨sanitizeTwice,here.sane,here.distinct,here.few,?_,?_,?_,fun cached sampled => mergeRankThree⟩
  · intro a t moved
    obtain ⟨later,made⟩ := Option.ite_none_left_eq_some.mp moved
    cases Option.some.inj made
    exact ⟨_,pushedMember (fun e member => Nat.le_trans (here.past e member) (Nat.le_of_not_lt later)),rfl⟩
  · rintro draw ⟨ranked,inside,positive⟩
    rcases sampleBest draw s.profiles with ⟨zero,_⟩ | ⟨e,member,picked,_,top⟩
    · rw [zero ranked inside] at positive
      contradiction
    · refine ⟨e.profile,?_,⟨e,member,rfl⟩,top⟩
      rw [sampleCamouflageProfile,picked,Option.map_some,here.sane e member]
  · intro draw zero
    rcases sampleBest draw s.profiles with ⟨_,none⟩ | ⟨e,member,_,positive,_⟩
    · rw [sampleCamouflageProfile,none,Option.map_none]
    · rw [zero e member] at positive
      contradiction

def delayed (records : Bytes) (sizes : List Nat) (delay : Nat) : CamouflageProfile :=
  ⟨records,[],sizes,sizes.head?,sizes.length,false,1,delay,[]⟩

theorem poolWellFormedOfFive : ∃ s : ProfilePool Unit, Reach pushStep Always emptyPool s ∧
    s.profiles.map PooledProfile.fetchedAt = [1,2,3,4] ∧ s.profiles.length ≤ maxCamouflageProfileVariants := by
  have ran : (checked pushStep Always emptyPool ((List.range 5).map (fun n => Push.mk n (delayed [1] [17,20] n) ()))).any
      (fun s => decide (s.profiles.map PooledProfile.fetchedAt = [1,2,3,4])) = true := by decide +kernel
  obtain ⟨s,reach,here⟩ := checkedReaches ran
  obtain ⟨_,_,_,few,_⟩ := poolWellFormed reach
  exact ⟨s,reach,of_decide_eq_true here,few⟩

theorem unrankedNotSampled : ∃ s : ProfilePool Unit, Reach pushStep Always emptyPool s ∧ s.profiles ≠ [] ∧
    ∀ draw, ¬ ∃ p, sampleCamouflageProfile draw s.profiles = some p ∧
      ∀ e ∈ s.profiles, camouflageProfileRank e.profile ≤ camouflageProfileRank p := by
  refine ⟨⟨0,[⟨delayed [] [] 0,0,()⟩]⟩,.next (a := ⟨0,delayed [] [] 0,()⟩) .start trivial rfl,List.cons_ne_nil _ _,?_⟩
  rintro draw ⟨p,sampled,_⟩
  have nothing : sampleCamouflageProfile draw [(⟨delayed [] [] 0,0,()⟩ : PooledProfile Unit)] = none := rfl
  rw [nothing] at sampled
  contradiction

end KanoTls.Camouflage
