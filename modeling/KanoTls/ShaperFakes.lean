import KanoTls.ShaperSizes
import KanoTls.ScriptUsable
import KanoTls.Machine
import Mathlib.Data.List.Perm.Subperm

/-! The fake interactions a script asks for: scheduled when a rule fires, sent with a record
or put off to a later one. The books of a run say that none is lost and that the queue of
those put off stays short. -/
namespace KanoTls.Shaper
open Text

/- What `TrafficShaper::new` takes over from a parsed rule. -/
def ParsedRule.ofScript (rule : Script.ScriptRule) : ParsedRule where
  lenLo := rule.lenLo
  lenHi := rule.lenHi
  delays := decide (rule.delay ≠ .none)
  expectResponses := rule.expectResponses
  fakeJitter := rule.fakeJitter
  lenPinned := rule.lenPinned

def ParsedScript.ofScript (parsed : Script.ParsedScript) : ParsedScript where
  rules := parsed.rules.map ParsedRule.ofScript
  stop := parsed.stop

namespace TrafficShaper

def maxFakeJitterOffset : Nat := 64

def queued (entries : List (Nat × Nat)) : Nat := (entries.map (·.2)).sum

/- The `total` of `release_due_fakes`, before it is cut to a byte. -/
def releaseTotal (sh : TrafficShaper) (draw : Draw) (pendingLen : Nat) : Nat :=
  let raw := sh.rawPolicy draw pendingLen
  raw.1.fake.getD 0 + queued (raw.2.deferredFakes.filter raw.2.fakeDue)

def scheduledBy (rule : Option ScriptRule) : Nat := (rule.map (·.expectResponses)).getD 0
def emittedBy (policy : ShapePolicy) : Nat := policy.fake.getD 0 + policy.preFake.getD 0

end TrafficShaper

open TrafficShaper

/- A run with its books. `owed` is the `advance` that a policy waits for; `fits` says that no
release has passed a byte. -/
structure Ledger where
  shaper : TrafficShaper
  owed : Bool := false
  scheduled : Nat := 0
  emitted : Nat := 0
  fits : Bool := true

def Ledger.step (l : Ledger) : Call → Option Ledger
  | .beginDrain => some {l with shaper := l.shaper.beginDrain}
  | .advance => some {l with shaper := l.shaper.advance,owed := false}
  | .nextDataPolicy draw pendingLen =>
    if l.owed then none else
    let next := l.shaper.nextDataPolicy draw pendingLen
    some {
      shaper := next.2,owed := true
      scheduled := l.scheduled + scheduledBy (l.shaper.appliedRule draw pendingLen)
      emitted := l.emitted + emittedBy next.1
      fits := l.fits && decide (l.shaper.releaseTotal draw pendingLen ≤ maxU8)}

section Release
variable {sh : TrafficShaper} {draw : Draw} {pendingLen : Nat}

theorem queuedSplit (due : Nat × Nat → Bool) (entries : List (Nat × Nat)) :
    queued (entries.filter due) + queued (entries.filter (fun entry => !due entry)) = queued entries := by
  induction entries with
  | nil => rfl
  | cons entry rest ih =>
    cases here : due entry with
    | true => simp_all [queued]; omega
    | false => simp_all [queued]; omega

theorem rawCases : (sh.appliedRule draw pendingLen = none ∧ (sh.rawPolicy draw pendingLen).1.fake = none ∧
      (sh.rawPolicy draw pendingLen).1.preFake = none ∧
      (sh.rawPolicy draw pendingLen).2.deferredFakes = sh.deferredFakes) ∨
    ∃ rule ∈ sh.script, sh.appliedRule draw pendingLen = some rule ∧
      sh.rawPolicy draw pendingLen = sh.scriptPolicy rule draw := by
  by_cases ways : ((decide (sh.packetSeq = 0) && sh.client) || sh.fullBlock pendingLen || sh.bulkTail pendingLen ||
      sh.switchedOff) = true
  · refine .inl ⟨by rw [appliedRule,if_pos ways],?_⟩
    unfold rawPolicy
    split
    · exact ⟨rfl,rfl,rfl⟩
    · rename_i first
      split
      · exact ⟨rfl,rfl,rfl⟩
      · rename_i bulk
        split
        · exact ⟨rfl,rfl,rfl⟩
        · rename_i tail
          split
          · exact ⟨rfl,rfl,rfl⟩
          · rename_i off
            exfalso
            simp only [fullBlock,bulkTail,switchedOff,Bool.or_eq_true,Bool.and_eq_true,decide_eq_true_eq] at ways
            obtain ((opening | ⟨-,full⟩) | last) | switch := ways
            · exact first opening
            · exact bulk full
            · exact tail last
            · exact off switch
  · simp only [Bool.not_eq_true,Bool.or_eq_false_iff] at ways
    obtain ⟨⟨⟨opening,full⟩,tail⟩,off⟩ := ways
    have first : ¬ (sh.packetSeq = 0 ∧ sh.client = true) := by simpa using opening
    have raw := rawShaped sh draw full tail off
    have applied : sh.appliedRule draw pendingLen =
        if sh.usesScript draw then sh.script[sh.packetSeq % sh.script.length]? else none := by
      rw [appliedRule,opening,full,tail,off]
      exact if_neg Bool.false_ne_true
    rw [raw,applied]
    unfold shapedPolicy
    rw [if_neg first]
    cases found : sh.script[sh.packetSeq % sh.script.length]? with
    | none =>
      refine .inl ⟨?_,rfl,rfl,rfl⟩
      split <;> rfl
    | some rule =>
      by_cases uses : sh.usesScript draw = true
      · refine .inr ⟨rule,List.mem_of_getElem? found,?_⟩
        rw [if_pos uses]
        exact ⟨rfl,if_pos uses⟩
      · rw [if_neg uses]
        exact .inl ⟨rfl,by simp [uses,interactivePolicy],by simp [uses,interactivePolicy],by simp [uses]⟩

theorem rawBalanced : emittedBy (sh.rawPolicy draw pendingLen).1 + queued (sh.rawPolicy draw pendingLen).2.deferredFakes =
    scheduledBy (sh.appliedRule draw pendingLen) + queued sh.deferredFakes := by
  obtain ⟨applied,fake,preFake,kept⟩ | ⟨rule,-,applied,raw⟩ := @rawCases sh draw pendingLen
  · rw [emittedBy,fake,preFake,kept,applied]
    rfl
  · rw [raw,applied,scriptPolicy]
    simp only [emittedBy,scheduledBy,Option.map_some,Option.getD_some]
    by_cases expects : rule.expectResponses > 0
    · obtain before | same | after := Int.lt_trichotomy
          (genRange (min 0 rule.fakeJitter) (max 0 rule.fakeJitter) draw.offset) 0
      · simp [expects,before,Int.lt_asymm before,Int.ne_of_lt before]
      · simp [expects,same]
      · simp [expects,after,Int.lt_asymm after,(Int.ne_of_lt after).symm,queued]
        omega
    · have none' : rule.expectResponses = 0 := by omega
      simp [none']

theorem releaseBalanced {policy : ShapePolicy}
    (fits : policy.fake.getD 0 + queued (sh.deferredFakes.filter sh.fakeDue) ≤ maxU8) :
    emittedBy (sh.releaseDueFakes policy).1 + queued (sh.releaseDueFakes policy).2.deferredFakes =
      emittedBy policy + queued sh.deferredFakes := by
  have split := queuedSplit sh.fakeDue sh.deferredFakes
  have rest : (sh.releaseDueFakes policy).2.deferredFakes = sh.deferredFakes.filter (fun entry => !sh.fakeDue entry) := rfl
  rw [rest,emittedBy,(releasedPolicy sh policy).2.2.2,emittedBy]
  unfold releaseDueFakes
  dsimp only
  split
  · rename_i nothing
    have none' : queued (sh.deferredFakes.filter sh.fakeDue) = 0 := by
      rcases Bool.or_eq_true_iff.mp nothing with empty | zero
      · rw [List.isEmpty_iff.mp empty]
        rfl
      · have zero := of_decide_eq_true zero
        rw [← queued] at zero
        omega
    omega
  · show min (policy.fake.getD 0 + queued (sh.deferredFakes.filter sh.fakeDue)) maxU8 + _ + _ = _
    omega

end Release

section Run
variable {sh : TrafficShaper} {draw : Draw} {pendingLen : Nat} {l t : Ledger}

/- The entries of the queue with the record that scheduled each: one entry a record, at most
`maxFakeJitterOffset` records ahead, none due before `bound`. -/
structure Tagged (bound : Nat) (tagged : List (Nat × Nat × Nat)) : Prop where
  apart : (tagged.map (·.1)).Nodup
  ahead : ∀ entry ∈ tagged,entry.1 < bound ∧ bound ≤ entry.2.1 ∧ entry.2.1 ≤ entry.1 + maxFakeJitterOffset

theorem Tagged.short {bound : Nat} {tagged : List (Nat × Nat × Nat)} (held : Tagged bound tagged) :
    tagged.length ≤ maxFakeJitterOffset := by
  have window : tagged.map (·.1) ⊆ List.range' (bound - maxFakeJitterOffset) maxFakeJitterOffset := by
    intro fired member
    obtain ⟨entry,inside,rfl⟩ := List.mem_map.mp member
    obtain ⟨before,later,near⟩ := held.ahead entry inside
    rw [List.mem_range'_1]
    omega
  have fewer := (held.apart.subperm window).length_le
  rwa [List.length_map,List.length_range'] at fewer

structure Kept (l : Ledger) : Prop where
  balanced : l.fits = true → l.scheduled = l.emitted + queued l.shaper.deferredFakes
  jitter : ∀ rule ∈ l.shaper.script,rule.fakeJitter ≤ maxFakeJitterOffset
  line : ∃ bound tagged, Tagged bound tagged ∧ tagged.map (·.2) = l.shaper.deferredFakes ∧
    bound ≤ l.shaper.packetSeq + 1 ∧ (l.owed = false → bound ≤ l.shaper.packetSeq)

theorem rawSame : (sh.rawPolicy draw pendingLen).2.packetSeq = sh.packetSeq ∧
    (sh.rawPolicy draw pendingLen).2.scriptStop = sh.scriptStop ∧
    (sh.rawPolicy draw pendingLen).2.script = sh.script := by
  unfold rawPolicy
  repeat' split
  all_goals exact ⟨rfl,rfl,rfl⟩

theorem queueAfter : (sh.nextDataPolicy draw pendingLen).2.deferredFakes =
    (sh.rawPolicy draw pendingLen).2.deferredFakes.filter (fun entry => !sh.fakeDue entry) := by
  obtain ⟨seq,stop,-⟩ := @rawSame sh draw pendingLen
  show List.filter (fun entry => !(sh.rawPolicy draw pendingLen).2.fakeDue entry) _ = _
  simp only [fakeDue,seq,stop]

theorem rawQueue (jitter : ∀ rule ∈ sh.script,rule.fakeJitter ≤ maxFakeJitterOffset) :
    (sh.rawPolicy draw pendingLen).2.deferredFakes = sh.deferredFakes ∨
    ∃ target responses, sh.packetSeq < target ∧ target ≤ sh.packetSeq + maxFakeJitterOffset ∧
      (sh.rawPolicy draw pendingLen).2.deferredFakes = sh.deferredFakes ++ [(target,responses)] := by
  obtain ⟨-,-,-,kept⟩ | ⟨rule,member,-,raw⟩ := @rawCases sh draw pendingLen
  · exact .inl kept
  · rw [raw,scriptPolicy]
    dsimp only
    split
    · rename_i deferred
      have positive := of_decide_eq_true (Bool.and_eq_true_iff.mp deferred).2
      have bound := jitter rule member
      have high : genRange (min 0 rule.fakeJitter) (max 0 rule.fakeJitter) draw.offset ≤ max 0 rule.fakeJitter := by
        unfold genRange
        omega
      exact .inr ⟨_,_,by omega,by omega,rfl⟩
    · exact .inl rfl

theorem policyTagged (kept : Kept l) (free : l.owed = false) : ∃ tagged, Tagged (l.shaper.packetSeq + 1) tagged ∧
    tagged.map (·.2) = (l.shaper.nextDataPolicy draw pendingLen).2.deferredFakes := by
  obtain ⟨bound,tagged,held,same,-,below⟩ := kept.line
  have below := below free
  have raised : ∀ tagged : List (Nat × Nat × Nat), (tagged.map (·.1)).Nodup →
      (∀ entry ∈ tagged,entry.1 < l.shaper.packetSeq + 1 ∧ entry.2.1 ≤ entry.1 + maxFakeJitterOffset) →
      Tagged (l.shaper.packetSeq + 1) (tagged.filter (fun entry => !l.shaper.fakeDue entry.2)) := by
    intro tagged apart near
    refine ⟨apart.sublist (List.filter_sublist.map _),?_⟩
    intro entry member
    obtain ⟨inside,waits⟩ := List.mem_filter.mp member
    obtain ⟨before,far⟩ := near entry inside
    simp only [fakeDue,Bool.not_eq_true',Bool.or_eq_false_iff,decide_eq_false_iff_not] at waits
    exact ⟨before,by omega,far⟩
  have filtered : ∀ {tagged : List (Nat × Nat × Nat)},
      tagged.map (·.2) = (l.shaper.rawPolicy draw pendingLen).2.deferredFakes →
      (tagged.filter (fun entry => !l.shaper.fakeDue entry.2)).map (·.2) =
        (l.shaper.nextDataPolicy draw pendingLen).2.deferredFakes := by
    intro tagged here
    rw [queueAfter,← here,List.filter_map]
    rfl
  obtain stays | ⟨target,responses,above,near,grown⟩ := @rawQueue l.shaper draw pendingLen kept.jitter
  · refine ⟨_,raised tagged held.apart ?_,filtered (same.trans stays.symm)⟩
    intro entry member
    obtain ⟨before,-,far⟩ := held.ahead entry member
    exact ⟨by omega,far⟩
  · refine ⟨_,raised (tagged ++ [(l.shaper.packetSeq,target,responses)]) ?_ ?_,filtered ?_⟩
    · rw [List.map_append,List.nodup_append]
      refine ⟨held.apart,by simp,?_⟩
      intro fired member other last
      obtain ⟨entry,inside,rfl⟩ := List.mem_map.mp member
      have before := (held.ahead entry inside).1
      cases List.mem_singleton.mp last
      show entry.1 ≠ l.shaper.packetSeq
      omega
    · intro entry member
      rcases List.mem_append.mp member with old | new
      · obtain ⟨before,-,far⟩ := held.ahead entry old
        exact ⟨by omega,far⟩
      · cases List.mem_singleton.mp new
        exact ⟨Nat.lt_succ_self _,near⟩
    · rw [List.map_append,same,grown]
      rfl

theorem policyBalanced (kept : Kept l)
    (fits : (l.fits && decide (l.shaper.releaseTotal draw pendingLen ≤ maxU8)) = true) :
    l.scheduled + scheduledBy (l.shaper.appliedRule draw pendingLen) =
      l.emitted + emittedBy (l.shaper.nextDataPolicy draw pendingLen).1 +
        queued (l.shaper.nextDataPolicy draw pendingLen).2.deferredFakes := by
  obtain ⟨before,now⟩ := Bool.and_eq_true_iff.mp fits
  have raw := @rawBalanced l.shaper draw pendingLen
  have released := releaseBalanced (of_decide_eq_true now)
  have books := kept.balanced before
  rw [← nextDataPolicy] at released
  omega

theorem policyMoved (moved : l.step (.nextDataPolicy draw pendingLen) = some t) : l.owed = false ∧ t = {
    shaper := (l.shaper.nextDataPolicy draw pendingLen).2,owed := true
    scheduled := l.scheduled + scheduledBy (l.shaper.appliedRule draw pendingLen)
    emitted := l.emitted + emittedBy (l.shaper.nextDataPolicy draw pendingLen).1
    fits := l.fits && decide (l.shaper.releaseTotal draw pendingLen ≤ maxU8)} := by
  simp only [Ledger.step] at moved
  split at moved
  · contradiction
  · rename_i free
    exact ⟨by simpa using free,(Option.some.inj moved).symm⟩

theorem keptStep {made : Call} (kept : Kept l) (moved : l.step made = some t) : Kept t := by
  obtain ⟨bound,tagged,held,same,near,below⟩ := kept.line
  cases made with
  | beginDrain =>
    cases Option.some.inj moved
    exact ⟨kept.balanced,kept.jitter,bound,tagged,held,same,near,below⟩
  | advance =>
    cases Option.some.inj moved
    refine ⟨kept.balanced,kept.jitter,bound,tagged,held,same,?_,fun _ => ?_⟩
    · exact Nat.le_succ_of_le near
    · exact near
  | nextDataPolicy draw pendingLen =>
    obtain ⟨free,rfl⟩ := policyMoved moved
    obtain ⟨tagged,held,same⟩ := @policyTagged draw pendingLen l kept free
    obtain ⟨seq,-,script⟩ := @rawSame l.shaper draw pendingLen
    refine ⟨fun fits => policyBalanced kept fits,?_,_,tagged,held,same,?_,fun owes => by contradiction⟩
    · intro rule member
      have known : rule ∈ (l.shaper.rawPolicy draw pendingLen).2.script := member
      rw [script] at known
      exact kept.jitter rule known
    · exact Nat.le_of_eq (congrArg (· + 1) seq.symm)

end Run

theorem rotateMember {α : Type} {xs : List α} {n : Nat} {x : α} (member : x ∈ xs.rotateLeft n) : x ∈ xs := by
  unfold List.rotateLeft at member
  dsimp only at member
  split at member
  · exact member
  · rcases List.mem_append.mp member with back | front
    · exact List.mem_of_mem_drop back
    · exact List.mem_of_mem_take front

theorem newJitter {build : Script.Build} {lines : List Text} {parsed : Script.ParsedScript}
    (read : Script.parseTrafficScript build lines = .ok parsed) (client postScriptOff : Bool) (draw : ScriptDraw) :
    ∀ rule ∈ (new client (some (.ofScript parsed)) postScriptOff draw).script,rule.fakeJitter ≤ maxFakeJitterOffset := by
  intro rule member
  obtain ⟨entry,inside,rfl⟩ := List.mem_map.mp member
  obtain ⟨-,-,_,usable⟩ := Script.scriptUsable read
  have rotated : entry.1 ∈ parsed.rules.map ParsedRule.ofScript := rotateMember (List.fst_mem_of_mem_zipIdx inside)
  obtain ⟨source,known,same⟩ := List.mem_map.mp rotated
  have high := (usable.rules source known).jitterHigh
  show entry.1.fakeJitter ≤ _
  rw [← same]
  exact high

theorem fakesConserved {build : Script.Build} {lines : List Text} {parsed : Script.ParsedScript}
    (read : Script.parseTrafficScript build lines = .ok parsed) (client postScriptOff : Bool) (scriptDraw : ScriptDraw)
    {l : Ledger}
    (run : Machine.Reach Ledger.step Machine.Always {shaper := new client (some (.ofScript parsed)) postScriptOff scriptDraw} l) :
    (l.fits = true → l.scheduled = l.emitted + queued l.shaper.deferredFakes) ∧
    (∀ draw pendingLen t, l.step (.nextDataPolicy draw pendingLen) = some t →
      ∀ entry ∈ t.shaper.deferredFakes,l.shaper.packetSeq < entry.1 ∧ l.shaper.packetSeq < l.shaper.scriptStop) ∧
    l.shaper.deferredFakes.length ≤ maxFakeJitterOffset := by
  have start : Kept {shaper := new client (some (.ofScript parsed)) postScriptOff scriptDraw} := by
    refine ⟨fun _ => rfl,newJitter read client postScriptOff scriptDraw,0,[],⟨List.nodup_nil,?_⟩,rfl,?_,fun _ => ?_⟩
    · intro entry absent
      contradiction
    · exact Nat.zero_le _
    · exact Nat.zero_le _
  have kept : Kept l := Machine.reachInvariant start (fun kept _ moved => keptStep kept moved) run
  obtain ⟨bound,tagged,held,same,-⟩ := kept.line
  refine ⟨kept.balanced,?_,?_⟩
  · intro draw pendingLen t moved entry member
    obtain ⟨-,rfl⟩ := policyMoved moved
    rw [queueAfter] at member
    obtain ⟨-,waits⟩ := List.mem_filter.mp member
    simp only [fakeDue,Bool.not_eq_true',Bool.or_eq_false_iff,decide_eq_false_iff_not] at waits
    exact ⟨by omega,by omega⟩
  · rw [← same,List.length_map]
    exact held.short

def deferringLines : List Text := ["0=L:200-250,F:2?3".toList,"stop=4".toList]
def deferringParsed : Script.ParsedScript := ⟨[⟨200,250,false,.none,2,3⟩],4⟩
def deferringStart : Ledger :=
  {shaper := new false (some (.ofScript deferringParsed)) false
    {offset := 0,rule := fun _ => {fixed := 0,scaled := fun len => len}}}

theorem fakesConservedDeferring : ∃ l, Machine.Reach Ledger.step Machine.Always deferringStart l ∧
    l.scheduled = 6 ∧ l.emitted = 4 ∧ l.shaper.deferredFakes.length ≤ maxFakeJitterOffset ∧
    l.scheduled = l.emitted + queued l.shaper.deferredFakes := by
  have read : Script.parseTrafficScript ⟨true,fun v => v⟩ deferringLines = .ok deferringParsed := rfl
  have ran : (Machine.checked Ledger.step Machine.Always deferringStart [.beginDrain,
      .nextDataPolicy {payload := 200,offset := 2} 64,.advance,.nextDataPolicy {payload := 210,offset := 0} 64,.advance,
      .nextDataPolicy {payload := 220,offset := 3} 64]).any
      (fun l => decide (l.scheduled = 6 ∧ l.emitted = 4 ∧ l.fits = true)) = true := by
    decide +kernel
  obtain ⟨l,run,here⟩ := Machine.checkedReaches ran
  obtain ⟨scheduled,emitted,fits⟩ := of_decide_eq_true here
  obtain ⟨books,-,short⟩ := fakesConserved read false false _ run
  exact ⟨l,run,scheduled,emitted,short,books fits⟩

end KanoTls.Shaper
