import Mathlib.Data.List.TakeWhile
import KanoTls.CamouflageFlight
import KanoTls.Machine

/-! Profiles that are sampled, sanitized, merged and pooled, and the flight they are
replayed as. A sampled flight is the sizes of its records of application data with the
instants at which they were read. -/
namespace KanoTls.Camouflage
open Uot Wire Patch Hello Tls Machine

def small (size : Nat) : Bool := size < minNoiseResponseRecordLen

def gapsBetween (flight : List (Nat × Nat)) : List Nat :=
  List.zipWith (fun before after => micros (after.2 - before.2)) flight flight.tail

theorem gapsLength (flight : List (Nat × Nat)) : (gapsBetween flight).length = flight.length - 1 := by
  rw [gapsBetween,List.length_zipWith,List.length_tail]
  omega

theorem gapsAppend (flight : List (Nat × Nat)) (size now : Nat) :
    gapsBetween (flight ++ [(size,now)]) =
      gapsBetween flight ++ ((flight.getLast?.map (·.2)).map (fun seen => micros (now - seen))).toList := by
  induction flight with
  | nil => rfl
  | cons first rest ih =>
    cases rest with
    | nil => rfl
    | cons second rest =>
      rw [List.getLast?_cons_cons]
      exact congrArg (micros (second.2 - first.2)::·) ih

section Sampler
variable {fast : Bool} {expected : Option Nat} {now : Nat} {s t : Sampling} {flight : List (Nat × Nat)}

structure Leading (leading : List Nat) (inPrefixRun : Bool) (sizes : List Nat) : Prop where
  prefixes : leading = (sizes.takeWhile small).take maxCamouflagePrefixAppDataRecords
  running : inPrefixRun = true → leading = sizes ∧ sizes.takeWhile small = sizes
  settled : inPrefixRun = false → maxCamouflagePrefixAppDataRecords ≤ (sizes.takeWhile small).length ∨
    (sizes.takeWhile small).length ≠ sizes.length

structure Sampling.Follows (s : Sampling) (flight : List (Nat × Nat)) : Prop where
  sizes : s.appDataSizes = flight.map (·.1)
  gaps : s.earlyAppDataGapUs = gapsBetween flight
  last : s.lastAppDataSeen = flight.getLast?.map (·.2)
  leading : Leading s.prefixAppDataSizes s.inPrefixRun s.appDataSizes

theorem noteFollows (now : Nat) (got : Got) (follows : s.Follows flight) : (noteRecord now got s).Follows flight := by
  unfold noteRecord
  cases got.typ == 0x16 && isServerHello got.record <;> cases got.typ == 0x14 <;>
    exact ⟨follows.sizes,follows.gaps,follows.last,follows.leading⟩

theorem takeWhileMore {sizes : List Nat} (len : Nat) (settled : (sizes.takeWhile small).length ≠ sizes.length) :
    (sizes ++ [len]).takeWhile small = sizes.takeWhile small := by
  rw [List.takeWhile_append,if_neg settled]

theorem takeWhileAll {sizes : List Nat} (len : Nat) (all : sizes.takeWhile small = sizes) :
    (sizes ++ [len]).takeWhile small = sizes ++ [len].takeWhile small := by
  rw [List.takeWhile_append,if_pos (congrArg List.length all)]

theorem takeWhileOne (len : Nat) : [len].takeWhile small = if small len then [len] else [] := by
  rw [List.takeWhile_cons,List.takeWhile_nil]

theorem leadingLength {leading sizes : List Nat} {inPrefixRun : Bool} (kept : Leading leading inPrefixRun sizes) :
    leading.length ≤ maxCamouflagePrefixAppDataRecords := by
  rw [kept.prefixes]
  exact List.length_take_le _ _

theorem prefixLeading (len : Nat) (kept : Leading s.prefixAppDataSizes s.inPrefixRun s.appDataSizes) :
    Leading (samplePrefix len s).prefixAppDataSizes (samplePrefix len s).inPrefixRun (s.appDataSizes ++ [len]) := by
  have bounded := leadingLength kept
  cases run : s.inPrefixRun with
  | true =>
    obtain ⟨same,all⟩ := kept.running run
    have whole := takeWhileAll len all
    rw [takeWhileOne] at whole
    cases tiny : small len with
    | true =>
      have short : len < minNoiseResponseRecordLen := of_decide_eq_true tiny
      rw [tiny,if_pos rfl] at whole
      by_cases room : s.prefixAppDataSizes.length < maxCamouflagePrefixAppDataRecords
      · have ran : samplePrefix len s = { s with prefixAppDataSizes := s.prefixAppDataSizes ++ [len] } := by
          rw [samplePrefix,run,decide_eq_true short,if_pos room]
          rfl
        rw [ran]
        refine ⟨?_,fun _ => ⟨congrArg (· ++ [len]) same,whole⟩,fun stopped => ?_⟩
        · rw [whole,← same,List.take_of_length_le (by rw [List.length_append]; exact room)]
        · exact absurd (run.symm.trans stopped) (by decide)
      · have ran : samplePrefix len s = { s with inPrefixRun := false } := by
          rw [samplePrefix,run,decide_eq_true short,if_neg room]
          rfl
        rw [ran]
        refine ⟨?_,fun running => by contradiction,fun _ => .inl ?_⟩
        · rw [whole,← same,List.take_left' (Nat.le_antisymm bounded (Nat.le_of_not_lt room))]
        · rw [whole,← same,List.length_append]
          omega
    | false =>
      have long : ¬ len < minNoiseResponseRecordLen := of_decide_eq_false tiny
      rw [tiny,if_neg (by decide),List.append_nil] at whole
      have ran : samplePrefix len s = { s with inPrefixRun := false } := by
        rw [samplePrefix,run,decide_eq_false long]
        rfl
      rw [ran]
      refine ⟨?_,fun running => by contradiction,fun _ => .inr ?_⟩
      · rw [whole,← all]
        exact kept.prefixes
      · rw [whole,List.length_append,List.length_singleton]
        omega
  | false =>
    have ran : samplePrefix len s = { s with inPrefixRun := false } := by
      rw [samplePrefix,run]
      rfl
    rw [ran]
    by_cases whole : (s.appDataSizes.takeWhile small).length = s.appDataSizes.length
    · have all : s.appDataSizes.takeWhile small = s.appDataSizes := (List.takeWhile_prefix _).eq_of_length whole
      have four := (kept.settled run).resolve_right (fun differ => differ whole)
      rw [all] at four
      refine ⟨?_,fun running => by contradiction,fun _ => .inl ?_⟩
      · rw [takeWhileAll len all,List.take_append_of_le_length four]
        exact all ▸ kept.prefixes
      · rw [takeWhileAll len all,List.length_append]
        omega
    · refine ⟨?_,fun running => by contradiction,fun _ => .inr ?_⟩
      · rw [takeWhileMore len whole]
        exact kept.prefixes
      · have fewer : (s.appDataSizes.takeWhile small).length ≤ s.appDataSizes.length := (List.takeWhile_prefix _).length_le
        rw [takeWhileMore len whole,List.length_append,List.length_singleton]
        omega

def Turn.All (P : Sampling → Prop) : Turn → Prop
  | .more s => P s
  | .stop s => P s
  | .fail => True

def takenUp (now : Nat) (got : Got) (s t : Sampling) : List (Nat × Nat) :=
  if s.appDataSizes.length < t.appDataSizes.length then [(got.len,now)] else []

theorem followsSame {got : Got} (sizes : t.appDataSizes = s.appDataSizes) (follows : t.Follows flight) :
    t.Follows (flight ++ takenUp now got s t) := by
  rw [takenUp,sizes,if_neg (Nat.lt_irrefl _),List.append_nil]
  exact follows

theorem followsMore {got : Got} (more : t.appDataSizes.length = s.appDataSizes.length + 1)
    (follows : t.Follows (flight ++ [(got.len,now)])) : t.Follows (flight ++ takenUp now got s t) := by
  rw [takenUp,if_pos (by omega)]
  exact follows

theorem prefixKeeps (len : Nat) (s : Sampling) :
    (samplePrefix len s).appDataSizes = s.appDataSizes ∧ (samplePrefix len s).earlyAppDataGapUs = s.earlyAppDataGapUs ∧
      (samplePrefix len s).lastAppDataSeen = s.lastAppDataSeen := by
  unfold samplePrefix
  split
  · split <;> exact ⟨rfl,rfl,rfl⟩
  · exact ⟨rfl,rfl,rfl⟩

/- With all sizes taken up the run of small ones is long over. -/
theorem prefixFull (len : Nat) (follows : s.Follows flight) (full : s.appDataSizes.length ≥ maxCamouflageAppDataRecords) :
    samplePrefix len s = s := by
  have done : s.inPrefixRun = false := by
    by_contra run
    have bounded := leadingLength follows.leading
    rw [(follows.leading.running (by simpa using run)).1] at bounded
    exact absurd (Nat.le_trans full bounded) (by decide)
  rw [samplePrefix,done]
  exact congrArg (fun run => { s with inPrefixRun := run }) done.symm

theorem appDataFollows (got : Got) (follows : s.Follows flight) :
    (sampleAppData fast expected now got.len s).All (fun t => t.Follows (flight ++ takenUp now got s t)) := by
  unfold sampleAppData
  by_cases full : s.appDataSizes.length ≥ maxCamouflageAppDataRecords
  · rw [prefixFull got.len follows full]
    dsimp only
    rw [if_pos full]
    exact followsSame rfl follows
  · have leading := prefixLeading got.len follows.leading
    obtain ⟨sizes,gaps,last⟩ := prefixKeeps got.len s
    generalize samplePrefix got.len s = u at leading sizes gaps last
    rw [← sizes] at full
    dsimp only
    rw [if_neg full]
    have grown : ({ u with
        firstAppDataDelayUs := some (u.firstAppDataDelayUs.getD ((u.serverHelloSeen.map (fun seen => micros (now - seen))).getD 0))
        earlyAppDataGapUs := u.earlyAppDataGapUs ++ (u.lastAppDataSeen.map (fun seen => micros (now - seen))).toList
        lastAppDataSeen := some now
        appDataSizes := u.appDataSizes ++ [got.len] } : Sampling).Follows (flight ++ [(got.len,now)]) := by
      refine ⟨?_,?_,?_,?_⟩
      · rw [List.map_append,← follows.sizes,← sizes]
        rfl
      · rw [gapsAppend,← follows.gaps,← follows.last,← gaps,← last]
      · rw [List.getLast?_append_of_ne_nil _ (List.cons_ne_nil _ _)]
        rfl
      · exact sizes ▸ leading
    have more : (u.appDataSizes ++ [got.len]).length = s.appDataSizes.length + 1 := by rw [List.length_append,sizes,
      List.length_singleton]
    split
    · exact followsMore more grown
    · exact followsMore more grown

theorem visibleFollows (got : Got) (follows : s.Follows flight) :
    (sampleVisible got.record s).All (fun t => t.Follows (flight ++ takenUp now got s t)) := by
  unfold sampleVisible
  dsimp only
  split
  · exact followsSame rfl ⟨follows.sizes,follows.gaps,follows.last,follows.leading⟩
  · exact followsSame rfl ⟨follows.sizes,follows.gaps,follows.last,follows.leading⟩

theorem noteSizes (now : Nat) (got : Got) (s : Sampling) : (noteRecord now got s).appDataSizes = s.appDataSizes := by
  unfold noteRecord
  cases got.typ == 0x16 && isServerHello got.record <;> cases got.typ == 0x14 <;> rfl

theorem recordFollows (got : Got) (follows : s.Follows flight) :
    (sampleRecord fast expected now got s).All (fun t => t.Follows (flight ++ takenUp now got s t)) := by
  have counted : ({ s with readState := got.state,totalRecords := s.totalRecords + 1 } : Sampling).Follows flight :=
    ⟨follows.sizes,follows.gaps,follows.last,follows.leading⟩
  unfold sampleRecord
  dsimp only
  split
  · exact followsSame rfl counted
  · split
    · trivial
    · have noted := noteFollows now got counted
      have same := noteSizes now got { s with readState := got.state,totalRecords := s.totalRecords + 1 }
      generalize noteRecord now got { s with readState := got.state,totalRecords := s.totalRecords + 1 } = u at noted same
      have taken : ∀ t, takenUp now got u t = takenUp now got s t := fun t => by rw [takenUp,takenUp,same]
      split
      · simpa only [taken] using @appDataFollows fast expected now u flight got noted
      · simpa only [taken] using @visibleFollows now u flight got noted

def flightSeen (fast : Bool) (expected : Option Nat) (clock : Nat → Nat) : Nat → Bytes → Sampling → List (Nat × Nat)
  | 0,_,_ => []
  | fuel+1,stream,s =>
    match readTlsRecordBounded sampleLimits s.readState stream with
    | .error _ => []
    | .ok got =>
      let now := clock s.totalRecords
      match sampleRecord fast expected now got s with
      | .more t => takenUp now got s t ++ flightSeen fast expected clock fuel got.rest t
      | .stop t => takenUp now got s t
      | .fail => []

theorem loopFollows {clock : Nat → Nat} {fuel : Nat} {stream : Bytes} (follows : s.Follows flight)
    (ran : sampleLoop fast expected clock fuel stream s = some t) :
    t.Follows (flight ++ flightSeen fast expected clock fuel stream s) := by
  induction fuel generalizing stream s flight with
  | zero =>
    rw [flightSeen,List.append_nil]
    exact Option.some.inj ran ▸ follows
  | succ fuel ih =>
    rw [sampleLoop] at ran
    rw [flightSeen]
    cases read : readTlsRecordBounded sampleLimits s.readState stream with
    | error e =>
      rw [read] at ran
      dsimp only
      rw [List.append_nil]
      exact Option.some.inj ran ▸ follows
    | ok got =>
      rw [read] at ran
      have turn := @recordFollows fast expected (clock s.totalRecords) s flight got follows
      dsimp only
      cases took : sampleRecord fast expected (clock s.totalRecords) got s with
      | more u =>
        simp only [took] at ran turn ⊢
        rw [← List.append_assoc]
        exact ih turn ran
      | stop u =>
        simp only [took] at ran turn ⊢
        exact Option.some.inj ran ▸ turn
      | fail =>
        simp only [took] at ran
        contradiction

end Sampler

/- `records` are the sizes and instants of the records of application data, `delay` the time
from the ServerHello to the first of them. -/
structure SampledFlight where
  delay : Nat
  records : List (Nat × Nat)
  deriving DecidableEq, Repr

def sampleFlight (fast : Bool) (expected : Option Nat) (clock : Nat → Nat) (endpoint : Bytes) :
    Option (CamouflageProfile × SampledFlight) := do
  let p ← readCamouflageServerRecords fast expected clock endpoint
  some (p,⟨p.firstAppDataDelayUs,flightSeen fast expected clock (endpoint.length + 1) endpoint {}⟩)

section Profiles
variable {samples : List SampledFlight} {p q cached sampled : CamouflageProfile}

/- The three lists of a profile agree, and are those of one sampled flight; the size of its
first record and the delay in front of it may be those of a later sampling. -/
structure Faithful (samples : List SampledFlight) (p : CamouflageProfile) : Prop where
  inRange : ∀ size ∈ p.appDataSizes, plausibleSize size = true
  count : p.appDataSizes.length ≤ maxCamouflageAppDataRecords
  prefixes : p.prefixAppDataSizes = (p.appDataSizes.takeWhile small).take maxCamouflagePrefixAppDataRecords
  flight : ∃ f ∈ samples, f.records.length = p.appDataSizes.length ∧ p.appDataSizes.tail = (f.records.map (·.1)).tail ∧
    p.earlyAppDataGapUs = gapsBetween f.records
  first : ∃ f ∈ samples, f.records.head?.map (·.1) = p.appDataSizes.head? ∧ f.delay = p.firstAppDataDelayUs

structure SameLists (p q : CamouflageProfile) : Prop where
  sizes : q.appDataSizes = p.appDataSizes
  prefixes : q.prefixAppDataSizes = p.prefixAppDataSizes
  gaps : q.earlyAppDataGapUs = p.earlyAppDataGapUs
  delay : q.firstAppDataDelayUs = p.firstAppDataDelayUs

theorem SameLists.faithful (same : SameLists p q) (faithful : Faithful samples p) : Faithful samples q := by
  constructor
  · rw [same.sizes]
    exact faithful.inRange
  · rw [same.sizes]
    exact faithful.count
  · rw [same.prefixes,same.sizes]
    exact faithful.prefixes
  · rw [same.sizes,same.gaps]
    exact faithful.flight
  · rw [same.sizes,same.delay]
    exact faithful.first

theorem Faithful.more (flight : SampledFlight) (faithful : Faithful samples p) : Faithful (flight::samples) p := by
  obtain ⟨f,member,whole⟩ := faithful.flight
  obtain ⟨g,earlier,head⟩ := faithful.first
  exact ⟨faithful.inRange,faithful.count,faithful.prefixes,⟨f,List.mem_cons_of_mem _ member,whole⟩,
    ⟨g,List.mem_cons_of_mem _ earlier,head⟩⟩

theorem sampledFaithful {fast : Bool} {expected : Option Nat} {clock : Nat → Nat} {endpoint : Bytes} {flight : SampledFlight}
    (ran : sampleFlight fast expected clock endpoint = some (p,flight)) (inRange : p.appDataSizes.all plausibleSize = true) :
    Faithful (flight::samples) p := by
  obtain ⟨_,read,seen⟩ := Option.bind_eq_some_iff.mp ran
  cases Option.some.inj seen
  obtain ⟨s,looped,kept⟩ := Option.bind_eq_some_iff.mp read
  obtain ⟨_,built⟩ := Option.ite_none_left_eq_some.mp kept
  cases Option.some.inj built
  have start : ({} : Sampling).Follows [] := ⟨rfl,rfl,rfl,rfl,fun _ => ⟨rfl,rfl⟩,fun stopped => by contradiction⟩
  have follows := loopFollows start looped
  rw [List.nil_append] at follows
  have sizes := (loopOk initialOk looped).sizes
  refine ⟨List.all_eq_true.mp inRange,sizes,follows.leading.prefixes,⟨_,List.mem_cons_self,?_,?_,follows.gaps⟩,
    ⟨_,List.mem_cons_self,?_,rfl⟩⟩
  · exact (List.length_map _).symm.trans (congrArg List.length follows.sizes.symm)
  · exact congrArg List.tail follows.sizes
  · exact List.head?_map.symm.trans (congrArg List.head? follows.sizes.symm)

theorem keptWhole {sizes : List Nat} {most : Nat} (inRange : ∀ size ∈ sizes, plausibleSize size = true)
    (count : sizes.length ≤ most) :
    (sizes.filter plausibleSize).take most = sizes := by
  rw [List.filter_eq_self.mpr inRange,List.take_of_length_le count]

theorem sanitizeSame (faithful : Faithful samples p) : SameLists p (sanitizeCamouflageProfile p) := by
  have sizes := keptWhole faithful.inRange faithful.count
  refine ⟨sizes,?_,?_,rfl⟩
  · refine keptWhole (fun size member => faithful.inRange size ?_) ?_
    · rw [faithful.prefixes] at member
      exact (List.takeWhile_sublist _).mem (List.mem_of_mem_take member)
    · rw [faithful.prefixes]
      exact List.length_take_le _ _
  · obtain ⟨f,_,length,_,gaps⟩ := faithful.flight
    show p.earlyAppDataGapUs.take (((p.appDataSizes.filter plausibleSize).take maxCamouflageAppDataRecords).length - 1) = _
    rw [sizes,List.take_of_length_le]
    rw [gaps,gapsLength,length]

theorem sanitizeFaithful (faithful : Faithful samples p) : Faithful samples (sanitizeCamouflageProfile p) :=
  (sanitizeSame faithful).faithful faithful

/- A sampling that stopped at its first record leaves the small records of the cached
profile behind it unknown. -/
def mergeKeeps (cached sampled : CamouflageProfile) : Bool :=
  match sampled.appDataSizes,cached.appDataSizes with
  | [first],_::second::_ => !(small first && small second)
  | _,_ => true

theorem refreshedFaithful {first second other : Nat} {rest : List Nat} (cachedFaithful : Faithful samples cached)
    (sampledFaithful : Faithful samples sampled) (one : sampled.appDataSizes = [first])
    (many : cached.appDataSizes = other::second::rest) (keeps : (small first && small second) = false)
    (sizes : q.appDataSizes = first::second::rest) (prefixes : q.prefixAppDataSizes = sampled.prefixAppDataSizes)
    (gaps : q.earlyAppDataGapUs = cached.earlyAppDataGapUs) (delay : q.firstAppDataDelayUs = sampled.firstAppDataDelayUs) :
    Faithful samples q := by
  constructor
  · intro size member
    rw [sizes] at member
    rcases List.mem_cons.mp member with rfl | later
    · exact sampledFaithful.inRange size (one ▸ List.mem_singleton_self size)
    · exact cachedFaithful.inRange size (many ▸ List.mem_cons_of_mem other later)
  · have count := cachedFaithful.count
    rw [many] at count
    exact sizes ▸ count
  · rw [prefixes,sampledFaithful.prefixes,one,sizes,takeWhileOne,List.takeWhile_cons]
    cases tiny : small first with
    | true =>
      have big : small second = false := by rwa [tiny,Bool.true_and] at keeps
      rw [if_pos rfl,if_pos rfl,List.takeWhile_cons,big,if_neg (by decide)]
    | false => rfl
  · obtain ⟨f,member,length,tail,between⟩ := cachedFaithful.flight
    rw [many] at length tail
    exact ⟨f,member,sizes ▸ length,sizes ▸ tail,gaps.trans between⟩
  · obtain ⟨f,member,head,late⟩ := sampledFaithful.first
    rw [one] at head
    exact ⟨f,member,sizes ▸ head,late.trans delay.symm⟩

theorem mergedFaithful (cachedFaithful : Faithful samples cached) (sampledFaithful : Faithful samples sampled)
    (keeps : mergeKeeps cached sampled = true) : Faithful samples (mergedProfile cached sampled) := by
  unfold mergedProfile
  have recordsOnly : SameLists cached (if sampled.serverRecords.isEmpty then cached
      else { cached with
        serverRecords := sampled.serverRecords
        visibleServerRecordCount := sampled.visibleServerRecordCount
        hasCcs := sampled.hasCcs }) := by
    split <;> exact ⟨rfl,rfl,rfl,rfl⟩
  generalize (if sampled.serverRecords.isEmpty then cached
      else { cached with
        serverRecords := sampled.serverRecords
        visibleServerRecordCount := sampled.visibleServerRecordCount
        hasCcs := sampled.hasCcs }) = base at recordsOnly
  dsimp only
  rw [recordsOnly.sizes]
  by_cases nothing : (sampled.prefixAppDataSizes.isEmpty && sampled.appDataSizes.isEmpty) = true
  · rw [if_pos nothing]
    exact recordsOnly.faithful cachedFaithful
  · rw [if_neg nothing]
    by_cases refresh : (decide (sampled.appDataSizes.length ≤ 1) && decide (cached.appDataSizes.length > 1)) = true
    · rw [if_pos refresh]
      obtain ⟨few,many⟩ := Bool.and_eq_true_iff.mp refresh
      have few := of_decide_eq_true few
      have many := of_decide_eq_true many
      cases sizes : sampled.appDataSizes with
      | nil =>
        have empty := sampledFaithful.prefixes
        rw [sizes] at empty
        exact absurd (by rw [empty,sizes]; rfl) nothing
      | cons first later =>
        cases later with
        | cons second rest =>
          rw [sizes] at few
          exact absurd few (by simp)
        | nil =>
          cases others : cached.appDataSizes with
          | nil => exact absurd many (by simp [others])
          | cons other later =>
            cases later with
            | nil => exact absurd many (by simp [others])
            | cons second rest =>
              rw [mergeKeeps,sizes,others] at keeps
              exact refreshedFaithful cachedFaithful sampledFaithful sizes others (Bool.not_eq_true_eq_eq_false _ ▸ keeps) rfl rfl
                recordsOnly.gaps rfl
    · rw [if_neg refresh]
      have taken : SameLists sampled { base with
          prefixAppDataSizes := sampled.prefixAppDataSizes
          appDataSizes := sampled.appDataSizes
          earlyAppDataGapUs := sampled.earlyAppDataGapUs
          firstAppDataDelayUs := sampled.firstAppDataDelayUs } := ⟨rfl,rfl,rfl,rfl⟩
      exact taken.faithful sampledFaithful

theorem mergeFaithful (cachedFaithful : Faithful samples cached) (sampledFaithful : Faithful samples sampled)
    (keeps : mergeKeeps cached sampled = true) : Faithful samples (mergeCamouflageProfile cached sampled) := by
  refine sanitizeFaithful (mergedFaithful cachedFaithful (sanitizeFaithful sampledFaithful) ?_)
  rw [mergeKeeps,(sanitizeSame sampledFaithful).sizes]
  exact keeps

end Profiles

def Replayable (p : CamouflageProfile) : Prop :=
  (∃ size ∈ p.appDataSizes, minNoiseResponseRecordLen ≤ size) ∧
    (p.appDataSizes.takeWhile small).length ≤ maxCamouflagePrefixAppDataRecords

instance (p : CamouflageProfile) : Decidable (Replayable p) := inferInstanceAs (Decidable (_ ∧ _))

section Emission
variable {write : Bytes → Option Bytes} {serverEMask : Bytes} {draws : ServerDraws} {samples : List SampledFlight}
  {p : CamouflageProfile}

theorem appDataLengths (draw : Nat → Nat → UInt8) (sizes : List Nat) :
    (sizes.mapIdx (fun k size => appDataRecord (draw k) size)).map (·.payload.length) = sizes := by
  refine List.ext_getElem (by simp) (fun k inside _ => ?_)
  rw [List.getElem_map,List.getElem_mapIdx]
  exact fillBytesLength _ _

theorem responseLengths {firstSize : Nat} {ghosts : List Nat} {records : List TlsRecord}
    (overhead : ∀ plain reply, write plain = some reply → reply.length = plain.length + noiseResponseOverheadLen)
    (built : buildNoiseResponseSequence write serverEMask draws (firstSize::ghosts) = some records) :
    records.map (·.payload.length) = firstSize::ghosts := by
  rw [buildNoiseResponseSequence] at built
  dsimp only at built
  obtain ⟨long,sent⟩ := Option.ite_none_left_eq_some.mp built
  obtain ⟨reply,wrote,answered⟩ := Option.bind_eq_some_iff.mp sent
  obtain ⟨_,all⟩ := Option.ite_none_left_eq_some.mp answered
  have size := overhead _ _ wrote
  have control : (makeControlPayload ghosts.length).length = handshakeControlLen := rfl
  rw [putLength (by rw [List.length_replicate,control]; omega),List.length_replicate] at size
  rw [handshakeControlLen] at long
  have whole : reply.length = firstSize := by omega
  rw [← Option.some.inj all,List.map_cons,appDataLengths,xorInPlaceLength,whole]

theorem emittedSizes {clientHello serverRecords : Bytes} {appRecords : List TlsRecord} (faithful : Faithful samples p)
    (fit : Replayable p) (overhead : ∀ plain reply, write plain = some reply → reply.length = plain.length + noiseResponseOverheadLen)
    (established : establishSyntheticCamouflageTunnel write serverEMask clientHello draws p = some (serverRecords,
      appRecords)) :
    appRecords.map (·.payload.length) = p.appDataSizes := by
  obtain ⟨id,_,patching⟩ := Option.bind_eq_some_iff.mp established
  obtain ⟨patched,_,building⟩ := Option.bind_eq_some_iff.mp patching
  obtain ⟨response,built,flown⟩ := Option.bind_eq_some_iff.mp building
  cases Option.some.inj flown
  have sanitized : sanitizeWasteRecordSizes p.appDataSizes = p.appDataSizes := List.filter_eq_self.mpr faithful.inRange
  have remaining : remaining17Sizes p.appDataSizes = p.appDataSizes.dropWhile small := by
    have nonempty : ¬ (p.appDataSizes.dropWhile small).isEmpty = true := by
      intro empty
      obtain ⟨size,member,big⟩ := fit.1
      have all := List.dropWhile_eq_nil_iff.mp (List.isEmpty_iff.mp empty) size member
      exact absurd (of_decide_eq_true all) (Nat.not_lt.mpr big)
    rw [remaining17Sizes,sanitized]
    exact if_neg nonempty
  have front : p.prefixAppDataSizes = p.appDataSizes.takeWhile small := by
    rw [faithful.prefixes,List.take_of_length_le fit.2]
  rw [remaining] at built
  have back : response.map (·.payload.length) = p.appDataSizes.dropWhile small := by
    cases sizes : p.appDataSizes.dropWhile small with
    | nil =>
      rw [sizes] at built
      cases Option.some.inj built
      rfl
    | cons firstSize ghosts =>
      rw [sizes] at built
      exact responseLengths overhead built
  rw [List.map_append,back,prefixRecords,appDataLengths,front,List.takeWhile_append_dropWhile]

end Emission

section Runs

/- `known` are the profiles at hand, in any task; a pool for each cache key. -/
structure Store where
  samples : List SampledFlight := []
  known : List CamouflageProfile := []
  pools : String → List (PooledProfile Unit) := fun _ => []

inductive Action where
  | sample (fast : Bool) (expected : Option Nat) (clock : Nat → Nat) (endpoint : Bytes)
  | sanitize (i : Nat)
  | merge (i j : Nat)
  | push (key : String) (i now : Nat)
  | pick (key : String) (draw : Nat)

def step (s : Store) : Action → Option Store
  | .sample fast expected clock endpoint => do
    let (p,flight) ← sampleFlight fast expected clock endpoint
    some { s with samples := flight::s.samples,known := s.known ++ [p] }
  | .sanitize i => do
    let p ← s.known[i]?
    some { s with known := s.known ++ [sanitizeCamouflageProfile p] }
  | .merge i j => do
    let cached ← s.known[i]?
    let sampled ← s.known[j]?
    some { s with known := s.known ++ [mergeCamouflageProfile cached sampled] }
  | .push key i now => do
    let p ← s.known[i]?
    some { s with pools := fun other => if other = key then pushProfileVariant now (s.pools key) p () else s.pools other }
  | .pick key draw => do
    let p ← sampleCamouflageProfile draw (s.pools key)
    some { s with known := s.known ++ [p] }

/- Only inRange sizes are sampled, and no small record of a cached flight is lost behind a
sampling that stopped at its first record. -/
def faithful (s : Store) : Action → Bool
  | .sample fast expected clock endpoint =>
    (sampleFlight fast expected clock endpoint).all (fun found => found.1.appDataSizes.all plausibleSize)
  | .merge i j => s.known[i]?.all (fun cached => s.known[j]?.all (fun sampled => mergeKeeps cached sampled))
  | _ => true

def Store.Holds (s : Store) (p : CamouflageProfile) : Prop := p ∈ s.known ∨ ∃ key, ∃ e ∈ s.pools key, e.profile = p

variable {s t : Store} {p : CamouflageProfile}

theorem updatedFrom {α : Type} {test : α → Bool} {change : α → α} {pool : List α} {e : α}
    (member : e ∈ updateFirst test change pool) : e ∈ pool ∨ ∃ old, e = change old := by
  induction pool with
  | nil => contradiction
  | cons first rest ih =>
    rw [updateFirst] at member
    split at member
    · rcases List.mem_cons.mp member with rfl | later
      · exact .inr ⟨first,rfl⟩
      · exact .inl (List.mem_cons_of_mem _ later)
    · rcases List.mem_cons.mp member with rfl | later
      · exact .inl List.mem_cons_self
      · rcases ih later with old | changed
        · exact .inl (List.mem_cons_of_mem _ old)
        · exact .inr changed

theorem pushedFrom {ι : Type} {now : Nat} {pool : List (PooledProfile ι)} {tag : ι} {e : PooledProfile ι}
    (member : e ∈ pushProfileVariant now pool p tag) : e ∈ pool ∨ e.profile = sanitizeCamouflageProfile p := by
  unfold pushProfileVariant at member
  dsimp only at member
  split at member
  · rcases updatedFrom member with old | ⟨old,rfl⟩
    · exact .inl old
    · exact .inr rfl
  · have appended : e ∈ pool ++ [⟨sanitizeCamouflageProfile p,now,tag⟩] := by
      split at member
      · exact List.mem_of_mem_eraseIdx member
      · exact member
    rcases List.mem_append.mp appended with old | new
    · exact .inl old
    · exact .inr (List.mem_singleton.mp new ▸ rfl)

theorem pickedFrom {ι : Type} {draw : Nat} {pool : List (PooledProfile ι)}
    (picked : sampleCamouflageProfile draw pool = some p) :
    ∃ e ∈ pool, p = sanitizeCamouflageProfile e.profile := by
  obtain ⟨e,chosen,rfl⟩ := Option.map_eq_some_iff.mp picked
  obtain ⟨_,drawn⟩ := Option.ite_none_left_eq_some.mp chosen
  exact ⟨e,(List.mem_filter.mp (List.mem_of_getElem? drawn)).1,rfl⟩

theorem stepFaithful {a : Action} (all : ∀ p, s.Holds p → Faithful s.samples p) (meets : faithful s a = true)
    (moved : step s a = some t) : ∀ p, t.Holds p → Faithful t.samples p := by
  have known {q : CamouflageProfile} (added : Faithful s.samples q) :
      ∀ p, ({ s with known := s.known ++ [q] } : Store).Holds p → Faithful s.samples p := by
    intro p held
    rcases held with member | pooled
    · rcases List.mem_append.mp member with old | new
      · exact all p (.inl old)
      · exact List.mem_singleton.mp new ▸ added
    · exact all p (.inr pooled)
  cases a with
  | sample fast expected clock endpoint =>
    obtain ⟨⟨q,flight⟩,ran,stored⟩ := Option.bind_eq_some_iff.mp moved
    cases Option.some.inj stored
    rw [faithful,ran] at meets
    intro p held
    rcases held with member | pooled
    · rcases List.mem_append.mp member with old | new
      · exact (all p (.inl old)).more flight
      · cases List.mem_singleton.mp new
        exact sampledFaithful ran meets
    · exact (all p (.inr pooled)).more flight
  | sanitize i =>
    obtain ⟨q,found,stored⟩ := Option.bind_eq_some_iff.mp moved
    cases Option.some.inj stored
    exact known (sanitizeFaithful (all q (.inl (List.mem_of_getElem? found))))
  | merge i j =>
    obtain ⟨cached,found,stored⟩ := Option.bind_eq_some_iff.mp moved
    obtain ⟨sampled,later,stored⟩ := Option.bind_eq_some_iff.mp stored
    cases Option.some.inj stored
    rw [faithful,found,later] at meets
    exact known (mergeFaithful (all cached (.inl (List.mem_of_getElem? found))) (all sampled (.inl (List.mem_of_getElem? later))) meets)
  | push key i now =>
    obtain ⟨q,found,stored⟩ := Option.bind_eq_some_iff.mp moved
    cases Option.some.inj stored
    intro p held
    rcases held with member | ⟨other,e,pooled,rfl⟩
    · exact all p (.inl member)
    · dsimp only at pooled
      split at pooled
      · rcases pushedFrom pooled with old | new
        · exact all e.profile (.inr ⟨key,e,old,rfl⟩)
        · exact new ▸ sanitizeFaithful (all q (.inl (List.mem_of_getElem? found)))
      · exact all e.profile (.inr ⟨other,e,pooled,rfl⟩)
  | pick key draw =>
    obtain ⟨q,picked,stored⟩ := Option.bind_eq_some_iff.mp moved
    cases Option.some.inj stored
    obtain ⟨e,pooled,rfl⟩ := pickedFrom picked
    exact known (sanitizeFaithful (all e.profile (.inr ⟨key,e,pooled,rfl⟩)))

theorem reachFaithful (reach : Reach step (fun s a => faithful s a = true) {} s) : ∀ p, s.Holds p →
    Faithful s.samples p := by
  refine reachInvariant ?_ stepFaithful reach
  intro p held
  rcases held with member | ⟨key,e,pooled,_⟩ <;> contradiction

theorem gapAt {flight : List (Nat × Nat)} {before after : Nat × Nat} {i : Nat} (here : flight[i]? = some before)
    (next : flight[i+1]? = some after) : (gapsBetween flight)[i]? = some (micros (after.2 - before.2)) := by
  rw [gapsBetween,List.getElem?_zipWith,here,List.getElem?_tail,next]

/- In every run whose steps are faithful ones, every profile that is sampled, sanitized,
merged or pooled is replayed as the flight it was sampled from: its sizes in order, its gaps
between the same two records. -/
theorem flightReplayed {write : Bytes → Option Bytes} {serverEMask clientHello serverRecords : Bytes} {draws : ServerDraws}
    {appRecords : List TlsRecord} (reach : Reach step (fun s a => faithful s a = true) {} s) (held : s.Holds p)
    (fit : Replayable p) (overhead : ∀ plain reply, write plain = some reply → reply.length = plain.length + noiseResponseOverheadLen)
    (established : establishSyntheticCamouflageTunnel write serverEMask clientHello draws p = some (serverRecords,
      appRecords)) :
    appRecords.map (·.payload.length) = p.appDataSizes ∧
    replayGapBeforeUs p 0 = p.firstAppDataDelayUs ∧
    (∃ f ∈ s.samples, f.delay = p.firstAppDataDelayUs ∧ f.records.head?.map (·.1) = p.appDataSizes.head?) ∧
    ∃ f ∈ s.samples, f.records.length = appRecords.length ∧
      ∀ i before after, f.records[i]? = some before → f.records[i+1]? = some after →
        appRecords[i+1]?.map (·.payload.length) = some after.1 ∧ replayGapBeforeUs p (i + 1) = micros (after.2 - before.2) := by
  have faithful := reachFaithful reach p held
  have sizes := emittedSizes faithful fit overhead established
  obtain ⟨first,earlier,head,delay⟩ := faithful.first
  obtain ⟨f,member,length,tail,gaps⟩ := faithful.flight
  refine ⟨sizes,rfl,⟨first,earlier,delay,head⟩,f,member,?_,?_⟩
  · rw [length,← sizes,List.length_map]
  · intro i before after here next
    refine ⟨?_,?_⟩
    · have same := congrArg (fun sizes : List Nat => sizes[i]?) tail
      simp only [List.getElem?_tail,List.getElem?_map,next] at same
      rw [← List.getElem?_map,sizes,same]
      rfl
    · rw [replayGapBeforeUs,if_neg (Nat.succ_ne_zero i),Nat.add_sub_cancel,List.getD_eq_getElem?_getD,gaps,gapAt here next]
      rfl

end Runs

def endpointOf (sizes : List Nat) : Bytes :=
  (sampleEndpoint 1).take 127 ++ sizes.flatMap (fun size => [0x17,0x03,0x03] ++ toBeBytes size ++ List.replicate size 4)

def quadratic (n : Nat) : Nat := 1000000 * n * n

def replaySample (p : CamouflageProfile) : Option (Bytes × List TlsRecord) :=
  establishSyntheticCamouflageTunnel sampleWrite (List.replicate 32 12) sampleHello sampleServerDraws p

theorem refreshReplayed : ∃ s p serverRecords appRecords, Reach step (fun s a => faithful s a = true) {} s ∧ s.Holds p ∧
    s.samples.length = 2 ∧ replaySample p = some (serverRecords,appRecords) ∧
    appRecords.map (·.payload.length) = [40,100,60] ∧ appRecords.map (·.payload.length) = p.appDataSizes := by
  have ran : (checked step (fun s a => faithful s a = true) {}
      [.sample false none quadratic (endpointOf [40,100,60]),.sample true (some 40) quadratic (endpointOf [40,100,60]),
        .merge 0 1,.push "host:443" 2 7,.pick "host:443" 0]).any (fun s => s.samples.length = 2 ∧ s.known[3]?.any (fun p =>
        Replayable p ∧ (replaySample p).any (fun flight => flight.2.map (·.payload.length) = [40,100,
          60]) = true) = true) = true := by
    decide +kernel
  obtain ⟨s,reach,here⟩ := checkedReaches ran
  obtain ⟨two,kept⟩ := of_decide_eq_true here
  obtain ⟨p,found,good⟩ := (Option.any_eq_true _ _).mp kept
  obtain ⟨fit,flown⟩ := of_decide_eq_true good
  obtain ⟨⟨serverRecords,appRecords⟩,established,lengths⟩ := (Option.any_eq_true _ _).mp flown
  have held : s.Holds p := .inl (List.mem_of_getElem? found)
  exact ⟨s,p,serverRecords,appRecords,reach,held,two,established,of_decide_eq_true lengths,
    (flightReplayed reach held fit sampleNoise.overhead established).1⟩

/- A fast sampling stops at the first of two small records, and the merged profile is
replayed without the second; a record that is too short is dropped from the sizes, and the
gap in front of it takes the place of the one behind it. -/
theorem replayDiffers : NoisePair sampleWrite sampleRead ∧
    (∃ s p serverRecords appRecords, Reach step Always {} s ∧ s.Holds p ∧ Replayable p ∧
      replaySample p = some (serverRecords,appRecords) ∧
      p.appDataSizes = [30,40,100] ∧ appRecords.map (·.payload.length) = [30,100]) ∧
    ∃ s p serverRecords appRecords, Reach step Always {} s ∧ s.Holds p ∧ Replayable p ∧
      replaySample p = some (serverRecords,appRecords) ∧
      s.samples.map (·.records) = [[(10,4000000),(100,9000000),(60,16000000)]] ∧
      appRecords.map (·.payload.length) = [100,60] ∧ replayGapBeforeUs p 1 = 5000 ∧ micros (16000000 - 9000000) = 7000 := by
  refine ⟨sampleNoise,?_,?_⟩
  · have ran : (checked step Always {}
        [.sample false none quadratic (endpointOf [30,40,100]),.sample true (some 30) quadratic (endpointOf [30,40,100]),
          .merge 0 1]).any (fun s => s.known[2]?.any (fun p => Replayable p ∧ p.appDataSizes = [30,40,100] ∧
          (replaySample p).any (fun flight => flight.2.map (·.payload.length) = [30,100]) = true)) = true := by
      decide +kernel
    obtain ⟨s,reach,here⟩ := checkedReaches ran
    obtain ⟨p,found,good⟩ := (Option.any_eq_true _ _).mp here
    obtain ⟨fit,sizes,flown⟩ := of_decide_eq_true good
    obtain ⟨⟨serverRecords,appRecords⟩,established,lengths⟩ := (Option.any_eq_true _ _).mp flown
    exact ⟨s,p,serverRecords,appRecords,reach,.inl (List.mem_of_getElem? found),fit,established,sizes,
      of_decide_eq_true lengths⟩
  · have ran : (checked step Always {} [.sample false none quadratic (endpointOf [10,100,60]),.sanitize 0]).any (fun s =>
        s.samples.map (·.records) = [[(10,4000000),(100,9000000),(60,16000000)]] ∧ s.known[1]?.any (fun p =>
          Replayable p ∧ replayGapBeforeUs p 1 = 5000 ∧
          (replaySample p).any (fun flight => flight.2.map (·.payload.length) = [100,60]) = true) = true) = true := by
      decide +kernel
    obtain ⟨s,reach,here⟩ := checkedReaches ran
    obtain ⟨seen,kept⟩ := of_decide_eq_true here
    obtain ⟨p,found,good⟩ := (Option.any_eq_true _ _).mp kept
    obtain ⟨fit,gap,flown⟩ := of_decide_eq_true good
    obtain ⟨⟨serverRecords,appRecords⟩,established,lengths⟩ := (Option.any_eq_true _ _).mp flown
    exact ⟨s,p,serverRecords,appRecords,reach,.inl (List.mem_of_getElem? found),fit,established,seen,
      of_decide_eq_true lengths,gap,rfl⟩

end KanoTls.Camouflage
