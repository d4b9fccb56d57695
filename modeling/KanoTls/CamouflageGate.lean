import KanoTls.CamouflageFetch

/-! Where a task of the camouflage fetch stands to its gate. The protocol below is kept by
every program of the fetch, whatever the caches answer; what it keeps of the caches holds in
every interleaving. -/
namespace KanoTls.CamouflageFetch
open Uot Wire Text Lru Program Camouflage

/- A follower goes from `joined` to `passed`, a leader from `holding` to `released`. -/
inductive Stage where
  | free
  | joined (gate : Nat)
  | armed (gate seen : Nat)
  | listening (gate seen : Nat)
  | woken (gate : Nat)
  | passed (gate : Nat)
  | holding (gate : Nat)
  | completed (gate : Nat)
  | announced (gate : Nat)
  | released (gate : Nat)
  deriving DecidableEq, Repr

def Stage.leads : Stage → Option Nat
  | .holding gate | .completed gate | .announced gate | .released gate => some gate
  | _ => none

def Stage.follows : Stage → Option Nat
  | .joined gate | .armed gate _ | .listening gate _ | .woken gate | .passed gate => some gate
  | _ => none

/- `missed` is that the baseline of the family was looked up in vain behind the gate, `based`
that this task has put a profile there. A background job has no keys. -/
structure View where
  keys : Option CamouflageCacheKeys
  rounds : Nat := 0
  stage : Stage := .free
  missed : Bool := false
  based : Bool := false
  failed : Bool := false
  dropped : Bool := false
  deriving DecidableEq, Repr

def View.settled (v : View) : Prop := v.based = true ∨ v.failed = true ∨ v.dropped = true

def View.gateKey (v : View) : Option Text := v.keys.map (·.refreshGate)

def View.baseline (v : View) : Option Text := v.keys.map (·.familyBaseline)

def View.drop (v : View) : View := { v with dropped := true }

def View.isPast (v : View) : Bool := match v.stage with | .passed _ => true | _ => false

def View.miss (v : View) (key : Text) : View :=
  if v.isPast && v.baseline = some key then { v with missed := true } else v

def View.keep (v : View) (key : Text) : View := { v with based := v.based || v.baseline = some key }

def allows (v : View) : Op → Prop
  | .store _ profile => profile.serverRecords ≠ []
  | .acquire key => v.stage = .free ∧ v.gateKey = some key
  | .sample _ _ _ => v.keys = none ∨ (∃ gate, v.stage = .holding gate) ∨ (v.isPast = true ∧ v.missed = true)
  | .load gate => v.stage = .joined gate ∨ (∃ seen, v.stage = .armed gate seen) ∨ v.stage = .woken gate
  | .notified gate => v.stage = .joined gate
  | .sleep gate seen => v.stage = .listening gate seen
  | .complete gate => v.stage = .holding gate ∧ v.settled
  | .notifyWaiters gate => v.stage = .completed gate
  | .cleanup key gate => v.stage = .announced gate ∧ v.gateKey = some key
  | _ => True

def afterLoad (v : View) (gate : Nat) (completed : Bool) : Option View :=
  if completed then some { v with stage := .passed gate }
  else
    match v.stage with
    | .joined _ => some v
    | .armed _ seen => some { v with stage := .listening gate seen }
    | _ => none

def after (v : View) : (e : Op) → Answer e → Option View
  | .getEntry _,none | .coolingDown _,none | .noteFailure _,none | .clearFailure _,none | .store _ _,none
  | .acquire _,none | .sample _ _ _,none | .sleep _ _,none => some v.drop
  | .getEntry key,some none => some (v.miss key)
  | .getEntry _,some (some profile) | .sample _ _ _,some (some profile) =>
    if profile.serverRecords.isEmpty then none else some v
  | .coolingDown _,some _ | .noteFailure _,some () | .clearFailure _,some () => some v
  | .store key _,some () => some (v.keep key)
  | .acquire _,some (gate,true) => some { v with stage := .holding gate }
  | .acquire _,some (gate,false) => some { v with stage := .joined gate }
  | .sample _ _ _,some none => some { v with failed := true }
  | .load gate,completed => afterLoad v gate completed
  | .notified gate,seen => some { v with stage := .armed gate seen }
  | .sleep gate _,some () => some { v with stage := .woken gate }
  | .complete gate,() => some { v with stage := .completed gate }
  | .notifyWaiters gate,() => some { v with stage := .announced gate }
  | .cleanup _ gate,() => some { v with stage := .released gate }

def protocol : Protocol Op Answer View := ⟨allows,after⟩

def fresh : Job → View
  | .fetch rounds site fingerprint => { keys := fingerprint.map (camouflageCacheKeys site),rounds := rounds }
  | .daemon _ _ | .startup _ _ => { keys := none }

def Stage.settledDown : Stage → Prop
  | .holding _ | .completed _ | .announced _ => False
  | _ => True

def Flight.Usable (flight : Flight) : Prop := flight.serverRecords ≠ [] ∧ flight.profile.serverRecords ≠ []

def good {α : Type} (usable : α → Prop) (v : View) (a : α) : Prop := v.stage.settledDown ∧ usable a

def bad (v : View) (e : FetchError) : Prop := v.stage.settledDown ∧ (e = .stalled → v.rounds = 0)

def ends : View → Except FetchError (Option Flight) → Prop := onResult (good (fun flight => ∀ f, flight = some f → f.Usable)) bad

def onAwait {α : Type} (good : View → α → Prop) (bad : View → FetchError → Prop) (v : View) : Option α → Prop
  | some a => good v a
  | none => bad v .dropped

section Calls
variable {v : View} {key : Text} {gate : Nat} {bad : View → FetchError → Prop}

theorem followsAwaited {α : Type} {asked : Program Op Answer (Option α)} {good : View → α → Prop}
    (follows : Follows protocol (onAwait good bad) v asked) : Follows protocol (onResult good bad) v (awaited asked).run := by
  refine followsBind (followsWeaken ?_ follows)
  intro w answer came
  cases answer with
  | none => exact came
  | some a => exact came

theorem followsGetEntry {good : View → Option CamouflageProfile → Prop}
    (hit : ∀ p : CamouflageProfile, p.serverRecords ≠ [] → good v (some p)) (miss : good (v.miss key) none)
    (drop : bad v.drop .dropped) : Follows protocol (onResult good bad) v (getCachedCamouflageProfileEntry key).run := by
  refine followsAwaited (followsPerform trivial ?_)
  intro a w moved
  rcases a with _ | _ | p
  · cases Option.some.inj moved
    exact drop
  · cases Option.some.inj moved
    exact miss
  · obtain ⟨kept,same⟩ := Option.ite_none_left_eq_some.mp moved
    cases Option.some.inj same
    exact hit p (by simpa using kept)

theorem followsCooling {good : View → Bool → Prop} (answered : ∀ cooling, good v cooling) (drop : bad v.drop .dropped) :
    Follows protocol (onResult good bad) v (camouflageRefreshIsCoolingDown key).run := by
  refine followsAwaited (followsPerform trivial ?_)
  intro a w moved
  rcases a with _ | cooling
  · cases Option.some.inj moved
    exact drop
  · cases Option.some.inj moved
    exact answered cooling

theorem followsNote {good : View → Unit → Prop} (answered : good v ()) (drop : bad v.drop .dropped) :
    Follows protocol (onResult good bad) v (noteCamouflageRefreshFailure key).run := by
  refine followsAwaited (followsPerform trivial ?_)
  intro a w moved
  rcases a with _ | _
  · cases Option.some.inj moved
    exact drop
  · cases Option.some.inj moved
    exact answered

theorem followsClear {good : View → Unit → Prop} (answered : good v ()) (drop : bad v.drop .dropped) :
    Follows protocol (onResult good bad) v (clearCamouflageRefreshFailure key).run := by
  refine followsAwaited (followsPerform trivial ?_)
  intro a w moved
  rcases a with _ | _
  · cases Option.some.inj moved
    exact drop
  · cases Option.some.inj moved
    exact answered

theorem followsStore {p : CamouflageProfile} {good : View → Unit → Prop} (records : p.serverRecords ≠ [])
    (answered : good (v.keep key) ()) (drop : bad v.drop .dropped) :
    Follows protocol (onResult good bad) v (storeCamouflageProfile key p).run := by
  refine followsAwaited (followsPerform records ?_)
  intro a w moved
  rcases a with _ | _
  · cases Option.some.inj moved
    exact drop
  · cases Option.some.inj moved
    exact answered

theorem followsAcquire {good : View → Nat × Bool → Prop} (free : v.stage = .free) (mine : v.gateKey = some key)
    (leads : ∀ gate, good { v with stage := .holding gate } (gate,true))
    (joins : ∀ gate, good { v with stage := .joined gate } (gate,false)) (drop : bad v.drop .dropped) :
    Follows protocol (onResult good bad) v (acquireCamouflageRefreshGate key).run := by
  refine followsAwaited (followsPerform ⟨free,mine⟩ ?_)
  intro a w moved
  rcases a with _ | ⟨gate,_ | _⟩
  · cases Option.some.inj moved
    exact drop
  · cases Option.some.inj moved
    exact joins gate
  · cases Option.some.inj moved
    exact leads gate

theorem followsSample {site : Site} {fast : Bool} {expectedFirst : Option Nat} {good : View → Option CamouflageProfile → Prop}
    (allowed : allows v (.sample site fast expectedFirst))
    (sampled : ∀ p : CamouflageProfile, p.serverRecords ≠ [] → good v (some p)) (failed : good { v with failed := true } none)
    (drop : bad v.drop .dropped) :
    Follows protocol (onResult good bad) v (sampleCamouflageServer site fast expectedFirst).run := by
  refine followsAwaited (followsPerform allowed ?_)
  intro a w moved
  rcases a with _ | _ | p
  · cases Option.some.inj moved
    exact drop
  · cases Option.some.inj moved
    exact failed
  · obtain ⟨kept,same⟩ := Option.ite_none_left_eq_some.mp moved
    cases Option.some.inj same
    exact sampled p (by simpa using kept)

def lookedUp (v : View) (best : Option CamouflageProfile) (keys : List Text) (w : View) (result : Option CamouflageProfile) : Prop :=
  (∃ missed, w = { v with missed := missed }) ∧ (v.missed = true → w.missed = true) ∧
    (∀ p, result = some p → p.serverRecords ≠ []) ∧
    (result = none → best = none ∧ (v.isPast = true → ∀ key ∈ keys, v.baseline = some key → w.missed = true))

theorem missCases (v : View) (key : Text) : ∃ missed, v.miss key = { v with missed := missed } ∧ (v.missed = true → missed = true) ∧
    (v.isPast = true → v.baseline = some key → missed = true) := by
  unfold View.miss
  split
  · exact ⟨true,rfl,fun _ => rfl,fun _ _ => rfl⟩
  · rename_i other
    refine ⟨v.missed,rfl,id,?_⟩
    intro past same
    exact absurd (by simp [past,same]) other

theorem rankOfRecords {p : CamouflageProfile} (records : p.serverRecords ≠ []) : 0 < camouflageProfileRank p := by
  unfold camouflageProfileRank
  rw [if_neg (by simpa using records)]
  split <;> decide

theorem followsLookupFrom {bad : View → FetchError → Prop} {keys : List Text} {best : Option CamouflageProfile} {bestRank : Nat}
    (records : ∀ p, best = some p → p.serverRecords ≠ []) (unranked : best = none → bestRank = 0)
    (drop : ∀ missed, bad ({ v with missed := missed } : View).drop .dropped) :
    Follows protocol (onResult (lookedUp v best keys) bad) v (lookupFrom keys best bestRank).run := by
  induction keys generalizing v best bestRank with
  | nil => exact ⟨⟨v.missed,rfl⟩,id,records,fun none => ⟨none,fun _ _ absurd => by contradiction⟩⟩
  | cons key rest ih =>
    refine followsThen (followsGetEntry ?_ ?_ (drop v.missed))
    · intro p held
      dsimp only
      split
      · exact ⟨⟨v.missed,rfl⟩,id,by rintro q ⟨⟩; exact held,by rintro ⟨⟩⟩
      · split
        · have held' : ∀ q, some p = some q → q.serverRecords ≠ [] := by
            rintro q ⟨⟩
            exact held
          refine followsWeaken ?_ (ih held' (by rintro ⟨⟩) drop)
          rintro w (e | result) came
          · exact came
          · exact ⟨came.1,came.2.1,came.2.2.1,fun none => absurd (came.2.2.2 none).1 (by simp)⟩
        · rename_i low
          refine followsWeaken ?_ (ih (v := v) records unranked drop)
          rintro w (e | result) came
          · exact came
          · refine ⟨came.1,came.2.1,came.2.2.1,?_⟩
            intro none
            have zero := unranked (came.2.2.2 none).1
            have ranked := rankOfRecords held
            omega
    · obtain ⟨missed,same,stays,past⟩ := missCases v key
      rw [same]
      refine followsWeaken ?_ (ih (v := { v with missed := missed }) records unranked drop)
      rintro w (e | result) came
      · exact came
      · obtain ⟨⟨later,rfl⟩,kept,held,nothing⟩ := came
        refine ⟨⟨later,rfl⟩,fun before => kept (stays before),held,?_⟩
        intro none
        refine ⟨(nothing none).1,?_⟩
        intro isPast other member based
        rcases List.mem_cons.mp member with rfl | further
        · exact kept (past isPast based)
        · exact (nothing none).2 isPast other further based

theorem followsLookup {bad : View → FetchError → Prop} {keys : CamouflageCacheKeys}
    (drop : ∀ missed, bad ({ v with missed := missed } : View).drop .dropped) :
    Follows protocol (onResult (lookedUp v none [keys.profile,keys.familyBaseline,keys.probeBaseline]) bad) v
      (lookupCachedCamouflageProfile keys).run :=
  followsLookupFrom (by rintro p ⟨⟩) (fun _ => rfl) drop

end Calls

section Programs
variable {v : View} {keys : CamouflageCacheKeys} {gate rounds : Nat} {site : Site} {found : Found}

structure Found.Held (found : Found) : Prop where
  cached : ∀ p, found.cached = some p → p.serverRecords ≠ []
  specific : ∀ p, found.specific = some p → p.serverRecords ≠ []
  family : ∀ p, found.family = some p → p.serverRecords ≠ []
  probe : ∀ p, found.probe = some p → p.serverRecords ≠ []

theorem Found.Held.handshake {p : CamouflageProfile} (held : found.Held) (handshake : found.handshake = some p) :
    (cachedFlight p).Usable := by
  have records := held.cached p (Option.filter_eq_some_iff.mp handshake).1
  exact ⟨records,records⟩

theorem bestMember {candidates : List CamouflageProfile} {p : CamouflageProfile} (picked : pickBestCamouflageProfile candidates = some p) :
    p ∈ candidates := by
  have walk (best : Option CamouflageProfile × Nat) (rest : List CamouflageProfile) (here : ∀ p, best.1 = some p → p ∈ candidates)
      (inside : ∀ p ∈ rest, p ∈ candidates) (last : (rest.foldl (fun best candidate =>
        let rank := camouflageProfileRank candidate
        if rank > best.2 then (some candidate,rank) else best) best).1 = some p) : p ∈ candidates := by
    induction rest generalizing best with
    | nil => exact here p last
    | cons first rest ih =>
      refine ih _ ?_ (fun p member => inside p (List.mem_cons_of_mem _ member)) last
      intro q found
      dsimp only at found
      split at found
      · exact Option.some.inj found ▸ inside first List.mem_cons_self
      · exact here q found
  exact walk (none,0) candidates (by rintro p ⟨⟩) (fun _ member => member) picked

theorem Found.Held.complete {p : CamouflageProfile} (held : found.Held) (complete : found.complete = some p) :
    (cachedFlight p).Usable := by
  have records : p.serverRecords ≠ [] := by
    unfold Found.complete at complete
    split at complete
    · rename_i q picked
      cases Option.some.inj complete
      have member := (List.mem_filter.mp (bestMember picked)).1
      rcases List.mem_append.mp member with specific | family
      · exact held.specific p (Option.mem_toList.mp specific)
      · exact held.family p (Option.mem_toList.mp family)
    · obtain ⟨_,picked⟩ := Option.ite_none_right_eq_some.mp complete
      exact held.probe p (Option.filter_eq_some_iff.mp picked).1
  exact ⟨records,records⟩

theorem followsLookups {bad : View → FetchError → Prop} (drop : ∀ missed, bad ({ v with missed := missed } : View).drop .dropped) :
    Follows protocol (onResult (fun w found => (∃ missed, w = { v with missed := missed }) ∧ Found.Held found) bad) v
      (lookups keys).run := by
  refine followsSeq (followsLookup drop) ?_
  rintro w cached ⟨⟨missed,rfl⟩,-,heldCached,-⟩
  -- the three entries are looked up one after the other, each of which may only set `missed`
  have entry {good : View → Option CamouflageProfile → Prop} {key : Text} (missed : Bool)
      (answered : ∀ missed found, (∀ p : CamouflageProfile, found = some p → p.serverRecords ≠ []) → good { v with missed := missed } found) :
      Follows protocol (onResult good bad) { v with missed := missed } (getCachedCamouflageProfileEntry key).run := by
    refine followsGetEntry ?_ ?_ (drop missed)
    · intro p held
      exact answered missed (some p) (by rintro q ⟨⟩; exact held)
    · obtain ⟨later,same,-,-⟩ := missCases { v with missed := missed } key
      rw [same]
      exact answered later none (by rintro q ⟨⟩)
  refine followsThen (entry missed ?_)
  intro missed specific heldSpecific
  refine followsThen (entry missed ?_)
  intro missed family heldFamily
  refine followsThen (entry missed ?_)
  intro missed probe heldProbe
  exact ⟨⟨missed,rfl⟩,heldCached,heldSpecific,heldFamily,heldProbe⟩

theorem mergeRecords {cached sampled : CamouflageProfile} (records : sampled.serverRecords ≠ []) :
    (mergeCamouflageProfile cached sampled).serverRecords = sampled.serverRecords := by
  have sampledKept : (sanitizeCamouflageProfile sampled).serverRecords = sampled.serverRecords := rfl
  have merged : (mergedProfile cached (sanitizeCamouflageProfile sampled)).serverRecords = sampled.serverRecords := by
    have records : (sanitizeCamouflageProfile sampled).serverRecords.isEmpty = false := by
      rw [sampledKept]
      simpa using records
    simp only [mergedProfile,records,Bool.false_eq_true,if_false]
    split
    · rfl
    · split
      · split <;> rfl
      · rfl
  exact merged

def droppedFrom (v w : View) (e : FetchError) : Prop :=
  e = .dropped ∧ ∃ missed based failed, w = { v with missed := missed,based := based,failed := failed,dropped := true }

theorem followsKeepSampled {sampled : CamouflageProfile} (records : sampled.serverRecords ≠ []) (mine : v.keys = some keys) :
    Follows protocol (onResult (fun w flight => (∃ missed, (v.missed = true → missed = true) ∧ w = { v with missed := missed,based := true }) ∧ flight.Usable)
      (droppedFrom v)) v (keepSampled keys found sampled).run := by
  have baseline (u : View) (same : u.keys = v.keys) : u.keep keys.familyBaseline = { u with based := true } := by
    simp [View.keep,View.baseline,same,mine]
  have twice {p : CamouflageProfile} {flight : Flight} (missed : Bool) (stays : v.missed = true → missed = true)
      (held : p.serverRecords ≠ []) (usable : flight.Usable) :
      Follows protocol (onResult (fun w flight => (∃ missed, (v.missed = true → missed = true) ∧ w = { v with missed := missed,based := true }) ∧ flight.Usable)
        (droppedFrom v)) { v with missed := missed } (do
          storeCamouflageProfile keys.profile p
          storeCamouflageProfile keys.familyBaseline p
          pure flight : Fetch Flight).run := by
    refine followsThen (followsStore held ?_ ⟨rfl,missed,v.based,v.failed,rfl⟩)
    refine followsThen (followsStore held ?_ ⟨rfl,missed,_,v.failed,rfl⟩)
    rw [baseline (View.keep { v with missed := missed } keys.profile) rfl]
    exact ⟨⟨missed,stays,rfl⟩,usable⟩
  unfold keepSampled
  split
  · have merged (cached : CamouflageProfile) : (mergeCamouflageProfile cached sampled).serverRecords ≠ [] := by
      rw [mergeRecords records]
      exact records
    refine followsThen (followsGetEntry ?_ ?_ ⟨rfl,v.missed,v.based,v.failed,rfl⟩)
    · intro p _
      exact twice v.missed id (merged _) ⟨records,merged _⟩
    · obtain ⟨missed,same,stays,-⟩ := missCases v keys.profile
      rw [same]
      exact twice missed stays (merged _) ⟨records,merged _⟩
  · exact twice v.missed id records ⟨records,records⟩

theorem followsRelease {key : Text} {ends : View → Unit → Prop} (holding : v.stage = .holding gate) (mine : v.gateKey = some key)
    (settled : v.settled) (released : ends { v with stage := .released gate } ()) :
    Follows protocol ends v (releaseLease ⟨key,gate⟩) := by
  refine followsBind (followsPerform ⟨holding,settled⟩ ?_)
  intro _ w moved
  cases Option.some.inj moved
  refine followsBind (followsPerform rfl ?_)
  intro _ w moved
  cases Option.some.inj moved
  refine followsPerform ⟨rfl,mine⟩ ?_
  intro _ w moved
  cases Option.some.inj moved
  exact released

/- Who may sample: the leader with its lease, or a follower that has missed the baseline. -/
def Entitled (v : View) : Option CamouflageRefreshGateLease → Prop
  | some lease => v.stage = .holding lease.gate ∧ v.gateKey = some lease.key
  | none => v.isPast = true ∧ v.missed = true

theorem Entitled.sample {lease : Option CamouflageRefreshGateLease} {fast : Bool} {expectedFirst : Option Nat}
    (entitled : Entitled v lease) : allows v (.sample site fast expectedFirst) := by
  cases lease with
  | none => exact .inr (.inr entitled)
  | some lease => exact .inr (.inl ⟨_,entitled.1⟩)

theorem Entitled.flags {lease : Option CamouflageRefreshGateLease} {missed based failed : Bool} (entitled : Entitled v lease)
    (stays : v.missed = true → missed = true) :
    Entitled { v with missed := missed,based := based,failed := failed } lease := by
  cases lease with
  | none => exact ⟨entitled.1,stays entitled.2⟩
  | some lease => exact entitled

theorem pastSettled (past : v.isPast = true) : v.stage.settledDown := by
  unfold View.isPast at past
  split at past
  · rename_i stands
    rw [stands]
    trivial
  · contradiction

theorem followsReleaseNow {lease : Option CamouflageRefreshGateLease} {bad : View → FetchError → Prop} {good : View → Unit → Prop}
    (entitled : Entitled v lease) (settled : v.settled) (released : ∀ stage, stage.settledDown → good { v with stage := stage } ()) :
    Follows protocol (onResult good bad) v (releaseNow lease).run := by
  cases lease with
  | none => exact released v.stage (pastSettled entitled.1)
  | some lease =>
    refine followsBind (followsRelease entitled.1 entitled.2 settled ?_)
    exact released (.released lease.gate) trivial

theorem followsRefresh {lease : Option CamouflageRefreshGateLease} (held : found.Held) (mine : v.keys = some keys)
    (entitled : Entitled v lease) :
    Follows protocol (onResult (good Flight.Usable) (fun w e => e = .sampling ∧ w.stage.settledDown ∨ droppedFrom v w e)) v
      (refreshFlight site keys found lease).run := by
  refine followsThen (followsSample (Entitled.sample entitled) ?_ ?_ (.inr ⟨rfl,_,_,_,rfl⟩))
  · intro sampled records
    refine followsThen (followsClear ?_ (.inr ⟨rfl,_,_,_,rfl⟩))
    refine followsThen (followsWeaken ?_ (followsKeepSampled records mine))
    rintro w (e | flight) came
    · exact .inr came
    obtain ⟨⟨missed,stays,rfl⟩,usable⟩ := came
    refine followsThen (followsReleaseNow (Entitled.flags entitled stays) (.inl rfl) ?_)
    intro stage down
    exact ⟨down,usable⟩
  · refine followsThen (followsNote ?_ (.inr ⟨rfl,_,_,_,rfl⟩))
    refine followsThen (followsReleaseNow (Entitled.flags entitled id) (.inr (.inl rfl)) ?_)
    intro stage down
    split
    · rename_i p handshake
      exact ⟨down,held.handshake handshake⟩
    · exact .inl ⟨rfl,down⟩

theorem followsLoad {ends : View → Bool → Prop} (allowed : allows v (.load gate))
    (next : ∀ completed w, afterLoad v gate completed = some w → ends w completed) :
    Follows protocol ends v (perform (Op.load gate) : Program Op Answer Bool) := followsPerform allowed next

/- Behind the gate of its leader, one round is always enough: a woken task finds the gate
completed. -/
theorem followsWait {bad : View → FetchError → Prop} {good : View → Unit → Prop} (joined : v.stage = .joined gate)
    (past : good { v with stage := .passed gate } ()) (drop : ∀ seen, bad ({ v with stage := .listening gate seen } : View).drop .dropped)
    (stalls : rounds = 0 → bad v .stalled) :
    Follows protocol (onResult good bad) v (waitForCamouflageRefreshGate rounds gate).run := by
  refine followsLift (followsLoad (.inl joined) ?_)
  intro completed w moved
  cases completed with
  | true =>
    cases Option.some.inj moved
    exact past
  | false =>
    have same : w = v := by
      simp only [afterLoad,joined,Bool.false_eq_true,if_false] at moved
      exact (Option.some.inj moved).symm
    subst same
    simp only [Bool.false_eq_true,if_false]
    cases rounds with
    | zero => exact stalls rfl
    | succ rounds =>
      refine followsLift (followsPerform joined ?_)
      intro seen w moved
      cases Option.some.inj moved
      refine followsLift (followsLoad (.inr (.inl ⟨seen,rfl⟩)) ?_)
      intro completed w moved
      cases completed with
      | true =>
        cases Option.some.inj moved
        exact past
      | false =>
        cases Option.some.inj moved
        simp only [Bool.false_eq_true,if_false]
        refine followsThen (followsAwaited (followsPerform rfl ?_))
        intro a w moved
        rcases a with _ | _
        · cases Option.some.inj moved
          exact drop seen
        · cases Option.some.inj moved
          refine followsLift (followsLoad (.inr (.inr rfl)) ?_)
          intro completed w moved
          cases completed with
          | true =>
            cases Option.some.inj moved
            exact past
          | false => simp [afterLoad] at moved

theorem followsFollow (held : found.Held) (mine : v.keys = some keys) (joined : v.stage = .joined gate) (same : v.rounds = rounds) :
    Follows protocol (onResult (good Flight.Usable) bad) v (followFlight rounds site keys found gate).run := by
  refine followsThen (followsWait joined ?_ ?_ ?_)
  · refine followsSeq (followsLookup (fun _ => ⟨trivial,by simp⟩)) ?_
    · rintro w cached ⟨⟨missed,rfl⟩,-,records,nothing⟩
      dsimp only
      split
      · rename_i p usable
        have records := records p (Option.filter_eq_some_iff.mp usable).1
        exact ⟨trivial,records,records⟩
      · rename_i empty
        have none : cached = none := by
          cases cached with
          | none => rfl
          | some p => exact absurd empty (by simp [Option.filter,records p rfl])
        have missed : missed = true := (nothing none).2 rfl keys.familyBaseline (by simp) (by simp [View.baseline,mine])
        subst missed
        refine followsThen (followsCooling ?_ ⟨trivial,by simp⟩)
        intro cooling
        cases cooling with
        | true => exact ⟨trivial,by simp⟩
        | false =>
          simp only [Bool.false_eq_true,if_false]
          refine followsWeaken ?_ (followsRefresh (v := { v with stage := .passed gate,missed := true }) held mine ⟨rfl,rfl⟩)
          rintro w (e | flight) came
          · rcases came with ⟨rfl,down⟩ | ⟨rfl,_,_,_,rfl⟩
            · exact ⟨down,by simp⟩
            · exact ⟨trivial,by simp⟩
          · exact came
  · intro seen
    exact ⟨trivial,by simp⟩
  · intro zero
    exact ⟨by rw [joined]; trivial,fun _ => same.trans zero⟩

theorem followsLead (held : found.Held) (mine : v.keys = some keys) (holding : v.stage = .holding gate) :
    Follows protocol (onResult (good Flight.Usable) bad) v
      (withLease ⟨keys.refreshGate,gate⟩ (refreshFlight site keys found (some ⟨keys.refreshGate,gate⟩))).run := by
  have key : v.gateKey = some keys.refreshGate := by simp [View.gateKey,mine]
  refine followsBind (followsWeaken ?_ (followsRefresh held mine ⟨holding,key⟩))
  rintro w (e | flight) came
  · rcases came with ⟨rfl,down⟩ | ⟨rfl,missed,based,failed,rfl⟩
    · exact ⟨down,by simp⟩
    · refine followsBind (followsRelease holding key (.inr (.inr rfl)) ?_)
      exact ⟨trivial,by simp⟩
  · exact came

theorem followsFetch (fingerprint : Option Bytes) :
    Follows protocol (onResult (good Flight.Usable) bad) (fresh (.fetch rounds site fingerprint))
      (fetchCamouflageFlight rounds site fingerprint).run := by
  cases fingerprint with
  | none => exact ⟨trivial,by simp⟩
  | some fingerprint =>
    refine followsSeq (followsLookups (fun _ => ⟨trivial,by simp⟩)) ?_
    rintro w found ⟨⟨missed,rfl⟩,held⟩
    dsimp only
    split
    · rename_i p complete
      exact ⟨trivial,held.complete complete⟩
    · refine followsThen (followsCooling ?_ ⟨trivial,by simp⟩)
      intro cooling
      cases cooling with
      | true =>
        simp only [if_true]
        split
        · rename_i p handshake
          exact ⟨trivial,held.handshake handshake⟩
        · exact ⟨trivial,by simp⟩
      | false =>
        simp only [Bool.false_eq_true,if_false]
        refine followsThen (followsAcquire rfl rfl ?_ ?_ ⟨trivial,by simp⟩)
        · intro gate
          exact followsLead held rfl rfl
        · intro gate
          exact followsFollow held rfl rfl rfl

theorem followsDaemon (fingerprint : Option Bytes) :
    Follows protocol (onResult (good (fun _ => True)) bad) (fresh (.daemon site fingerprint))
      (refreshDaemonRound site fingerprint).run := by
  cases fingerprint with
  | none => exact ⟨trivial,trivial⟩
  | some fingerprint =>
    have rest (cached : Option CamouflageProfile) {key : Text} {fast : Bool} {first : Option Nat} :
        Follows protocol (onResult (good (fun _ => True)) bad) (fresh (.daemon site (some fingerprint)))
          (resampleProfile site key cached fast first).run := by
      refine followsThen (followsSample (.inl rfl) ?_ ⟨trivial,trivial⟩ ⟨trivial,by simp⟩)
      intro p records
      refine followsStore ?_ ⟨trivial,trivial⟩ ⟨trivial,by simp⟩
      cases cached with
      | none => exact records
      | some cached =>
        rw [Option.map_some,Option.getD_some,mergeRecords records]
        exact records
    refine followsThen (followsGetEntry ?_ ?_ ⟨trivial,by simp⟩)
    · intro p _
      exact rest (some p)
    · exact rest none

theorem followsSampleStartup {count : Nat} {sampled : List CamouflageProfile} (background : v.keys = none) (down : v.stage.settledDown)
    (records : ∀ p ∈ sampled, p.serverRecords ≠ []) :
    Follows protocol (onResult (fun w sampled => w = v ∧ ∀ p ∈ sampled, p.serverRecords ≠ []) bad) v
      (sampleStartup site count sampled).run := by
  induction count generalizing sampled with
  | zero => exact ⟨rfl,records⟩
  | succ count ih =>
    refine followsThen (followsSample (.inl background) ?_ ⟨down,by simp⟩ ⟨down,by simp⟩)
    intro p held
    refine ih ?_
    intro q member
    split at member
    · rcases List.mem_append.mp member with old | new
      · exact records q old
      · exact List.mem_singleton.mp new ▸ held
    · exact records q member

theorem followsStoreStartup {hex : Text} {sampled : List CamouflageProfile} (background : v.keys = none) (down : v.stage.settledDown)
    (records : ∀ p ∈ sampled, p.serverRecords ≠ []) :
    Follows protocol (onResult (good (fun _ => True)) bad) v (storeStartup site hex sampled).run := by
  induction sampled generalizing v with
  | nil => exact ⟨down,trivial⟩
  | cons p rest ih =>
    have held := records p List.mem_cons_self
    refine followsThen (followsStore held ?_ ⟨down,by simp⟩)
    refine followsThen (followsStore held ?_ ⟨down,by simp⟩)
    exact ih background down (fun q member => records q (List.mem_cons_of_mem _ member))

theorem followsStartup (fingerprint : Option Bytes) :
    Follows protocol (onResult (good (fun _ => True)) bad) (fresh (.startup site fingerprint))
      (validateCamouflageTls13Flight site fingerprint).run := by
  cases fingerprint with
  | none => exact ⟨trivial,by simp⟩
  | some fingerprint =>
    refine followsSeq (followsSampleStartup rfl trivial (by simp)) ?_
    rintro w sampled ⟨rfl,records⟩
    split
    · exact ⟨trivial,by simp⟩
    · exact followsStoreStartup rfl trivial records

theorem bodyFollows (job : Job) : Follows protocol ends (fresh job) (body job) := by
  cases job with
  | fetch rounds site fingerprint =>
    refine followsMap (followsWeaken ?_ (followsFetch fingerprint))
    rintro w (e | flight) came
    · exact came
    · exact ⟨came.1,by rintro f ⟨⟩; exact came.2⟩
  | daemon site fingerprint =>
    refine followsMap (followsWeaken ?_ (followsDaemon fingerprint))
    rintro w (e | _) came
    · exact came
    · exact ⟨came.1,by rintro f ⟨⟩⟩
  | startup site fingerprint =>
    refine followsMap (followsWeaken ?_ (followsStartup fingerprint))
    rintro w (e | _) came
    · exact came
    · exact ⟨came.1,by rintro f ⟨⟩⟩

end Programs
end KanoTls.CamouflageFetch
