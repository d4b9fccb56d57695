import KanoTls.CamouflageGate
import KanoTls.CamouflagePool
import KanoTls.CamouflageReplay
import KanoTls.Tasks

/-! The camouflage fetch over whole runs: any number of fetches, daemon rounds and startup
probes in any order of their steps, each of them dropped at any `await`. -/
namespace KanoTls.CamouflageFetch
open Uot Wire Text Lru Program Camouflage Machine Tls Tasks

section Sampled
variable {fast : Bool} {expected : Option Nat}

def Keeps (s : Sampling) : Prop := s.foundServerHello = true → s.serverRecords ≠ []

def TurnKeeps : Turn → Prop
  | .more s => Keeps s
  | .stop s => Keeps s
  | .fail => True

theorem prefixHello (len : Nat) (s : Sampling) :
    (samplePrefix len s).serverRecords = s.serverRecords ∧ (samplePrefix len s).foundServerHello = s.foundServerHello := by
  unfold samplePrefix
  split
  · split <;> exact ⟨rfl,rfl⟩
  · exact ⟨rfl,rfl⟩

theorem appDataKeeps {s : Sampling} {now len : Nat} (kept : Keeps s) : TurnKeeps (sampleAppData fast expected now len s) := by
  obtain ⟨records,hello⟩ := prefixHello len s
  have keptPrefix : Keeps (samplePrefix len s) := by
    unfold Keeps
    rwa [records,hello]
  unfold sampleAppData
  dsimp only
  split
  · exact keptPrefix
  · split <;> exact keptPrefix

theorem visibleKeeps {s : Sampling} {r : TlsRecord} (small : r.payload.length ≤ maxTlsRecordPayloadLen) :
    TurnKeeps (sampleVisible r.bytes s) := by
  unfold sampleVisible
  dsimp only
  split
  · rename_i long
    intro _ empty
    have size : r.bytes.length = r.payload.length + 5 := by simp [TlsRecord.bytes,toBeBytes]
    rw [show s.serverRecords = [] from empty,size] at long
    simp only [maxCamouflageServerRecordBytes,List.length_nil] at long
    simp only [maxTlsRecordPayloadLen] at small
    omega
  · intro _
    simp [TlsRecord.bytes]

theorem recordKeeps {s : Sampling} {now : Nat} {got : Got} {r : TlsRecord} (small : r.payload.length ≤ maxTlsRecordPayloadLen)
    (record : got.record = r.bytes) (kept : Keeps s) : TurnKeeps (sampleRecord fast expected now got s) := by
  unfold sampleRecord
  dsimp only
  split
  · exact kept
  · split
    · trivial
    · split
      · rename_i appData
        refine appDataKeeps ?_
        have seen := (Bool.and_eq_true_iff.mp appData).2
        intro found
        rw [noteFound] at found
        have old : s.foundServerHello = true := by
          have not16 : (got.typ == 0x16) = false := by
            rw [eq_of_beq seen]
            rfl
          simpa [not16] using found
        have same (u : Sampling) : (noteRecord now got u).serverRecords = u.serverRecords := by
          unfold noteRecord
          split <;> split <;> rfl
        rw [same]
        exact kept old
      · rw [record]
        exact visibleKeeps small

theorem loopKeeps {clock : Nat → Nat} {fuel : Nat} {stream : Bytes} {s t : Sampling} (kept : Keeps s)
    (ran : sampleLoop fast expected clock fuel stream s = some t) : Keeps t := by
  induction fuel generalizing stream s with
  | zero => exact Option.some.inj ran ▸ kept
  | succ fuel ih =>
    rw [sampleLoop] at ran
    cases read : readTlsRecordBounded sampleLimits s.readState stream with
    | error e =>
      rw [read] at ran
      exact Option.some.inj ran ▸ kept
    | ok got =>
      rw [read] at ran
      obtain ⟨r,small,_,_,_,record⟩ := readGot read
      have turn : TurnKeeps (sampleRecord fast expected (clock s.totalRecords) got s) := recordKeeps small record kept
      cases took : sampleRecord fast expected (clock s.totalRecords) got s with
      | more u =>
        simp only [took] at ran turn
        exact ih turn ran
      | stop u =>
        simp only [took] at ran turn
        exact Option.some.inj ran ▸ turn
      | fail =>
        simp only [took] at ran
        contradiction

theorem sampledRecords {clock : Nat → Nat} {stream : Bytes} {p : CamouflageProfile}
    (read : readCamouflageServerRecords fast expected clock stream = some p) : p.serverRecords ≠ [] := by
  obtain ⟨s,ran,made⟩ := Option.bind_eq_some_iff.mp read
  obtain ⟨found,same⟩ := Option.ite_none_left_eq_some.mp made
  cases Option.some.inj same
  exact loopKeeps (fun no => by contradiction) ran (by simpa using found)

end Sampled

section Pools
variable {pool : List (PooledProfile Unit)} {p : CamouflageProfile}

structure Stocked (pool : List (PooledProfile Unit)) : Prop where
  some : pool ≠ []
  records : ∀ e ∈ pool, e.profile.serverRecords ≠ []

theorem stockedPush {now : Nat} (all : ∀ e ∈ pool, e.profile.serverRecords ≠ []) (records : p.serverRecords ≠ []) :
    Stocked (pushProfileVariant now pool p ()) := by
  refine ⟨?_,?_⟩
  · intro empty
    have short := congrArg List.length empty
    unfold pushProfileVariant at short
    dsimp only at short
    split at short
    · rename_i found
      rw [updateFirstLength] at short
      obtain ⟨e,member,_⟩ := List.any_eq_true.mp found
      exact absurd (List.length_eq_zero_iff.mp short ▸ member) (by simp)
    · split at short
      · rename_i long
        have erased := List.length_eraseIdx (l := pool ++ [⟨sanitizeCamouflageProfile p,now,()⟩])
          (i := oldest (pool ++ [⟨sanitizeCamouflageProfile p,now,()⟩]))
        rw [erased] at short
        simp only [maxCamouflageProfileVariants,List.length_nil] at long short
        split at short <;> omega
      · simp at short
  · intro e member
    rcases pushedFrom member with old | new
    · exact all e old
    · exact new ▸ records

theorem stockedPick (stocked : Stocked pool) (draw : Nat) :
    ∃ p, sampleCamouflageProfile draw pool = some p ∧ p.serverRecords ≠ [] := by
  rcases sampleBest draw pool with ⟨zero,_⟩ | ⟨e,member,picked,_,_⟩
  · obtain ⟨e,member⟩ := List.exists_mem_of_ne_nil pool stocked.some
    exact absurd (zero e member) (Nat.ne_of_gt (rankOfRecords (stocked.records e member)))
  · refine ⟨sanitizeCamouflageProfile e.profile,?_,stocked.records e member⟩
    rw [sampleCamouflageProfile,picked,Option.map_some]

end Pools

section Invariant

def Stage.gate (stage : Stage) : Option Nat := stage.leads.or stage.follows

def Stage.isReleased : Stage → Bool
  | .completed _ | .announced _ | .released _ => true
  | _ => false

def Stage.fits (gates : List Gate) : Stage → Prop
  | .free => True
  | .joined gate => gate < gates.length
  | .armed gate seen => ∃ g, gates[gate]? = some g ∧ seen ≤ g.notified
  | .listening gate seen => gate < gates.length ∧ seen = 0
  | .woken gate | .passed gate => ∃ g, gates[gate]? = some g ∧ g.completed = true
  | .holding gate => gates[gate]? = some ⟨false,0⟩
  | .completed gate => gates[gate]? = some ⟨true,0⟩
  | .announced gate | .released gate => gates[gate]? = some ⟨true,1⟩

def leadsAt (gate : Nat) (v : View) : Bool := v.stage.leads = some gate

structure Tied (s : Caches) (views : List View) : Prop where
  stocked : s.profiles.All (fun _ pool => Stocked pool)
  leaders : ∀ gate, views.countP (leadsAt gate) = if gate < s.gates.length then 1 else 0
  settled : ∀ v ∈ views, v.stage.isReleased = true → v.settled
  keyed : ∀ v ∈ views, ∀ w ∈ views, ∀ gate, v.stage.leads = some gate → w.stage.gate = some gate → v.gateKey = w.gateKey
  table : s.inflight.All (fun key gate => ∃ v ∈ views, v.stage.leads = some gate ∧ v.gateKey = some key)
  made : ∀ v ∈ views, ∀ keys, v.keys = some keys → ∃ site fingerprint, keys = camouflageCacheKeys site fingerprint

structure Sound (s : Caches) (views : List View) : Prop extends Tied s views where
  fits : ∀ v ∈ views, v.stage.fits s.gates

variable {s : Caches} {views : List View} {v w : View} {i gate : Nat}

theorem Tied.leader (tied : Tied s views) (made : gate < s.gates.length) : ∃ v ∈ views, v.stage.leads = some gate := by
  have one := tied.leaders gate
  rw [if_pos made] at one
  obtain ⟨v,member,leads⟩ := List.countP_pos_iff.mp (one ▸ Nat.one_pos)
  exact ⟨v,member,by simpa [leadsAt] using leads⟩

theorem Tied.place (tied : Tied s views) {j : Nat} (here : views[i]? = some v) (there : views[j]? = some w)
    (leads : v.stage.leads = some gate) (also : w.stage.leads = some gate) : i = j := by
  refine placeOfOne ?_ here there (by simpa [leadsAt] using leads : leadsAt gate v = true) (by simpa [leadsAt] using also)
  rw [tied.leaders]
  split <;> decide

theorem Sound.gateCases (sound : Sound s views) {g : Gate} (found : s.gates[gate]? = some g) :
    g = ⟨false,0⟩ ∨ g = ⟨true,0⟩ ∨ g = ⟨true,1⟩ := by
  obtain ⟨v,member,leads⟩ := sound.leader (List.getElem?_eq_some_iff.mp found).1
  have fits := sound.fits v member
  unfold Stage.leads at leads
  split at leads
  all_goals first | contradiction | cases Option.some.inj leads
  all_goals rename_i stands; rw [stands,Stage.fits,found] at fits; have same := Option.some.inj fits
  · exact .inl same
  · exact .inr (.inl same)
  · exact .inr (.inr same)
  · exact .inr (.inr same)

theorem Tied.set (tied : Tied s views) (here : views[i]? = some v) (leads : w.stage.leads = v.stage.leads)
    (follows : w.stage.follows = v.stage.follows) (keys : w.keys = v.keys) (settled : w.stage.isReleased = true → w.settled) :
    Tied s (views.set i w) := by
  have key : w.gateKey = v.gateKey := by rw [View.gateKey,View.gateKey,keys]
  have member := List.mem_of_getElem? here
  have gates : w.stage.gate = v.stage.gate := by rw [Stage.gate,Stage.gate,leads,follows]
  -- every member of the new list leads, follows and is keyed as a member of the old one
  have old {x : View} (member' : x ∈ views.set i w) : ∃ y ∈ views, x.stage.leads = y.stage.leads ∧
      x.stage.gate = y.stage.gate ∧ x.gateKey = y.gateKey ∧ x.keys = y.keys := by
    rcases List.mem_or_eq_of_mem_set member' with before | rfl
    · exact ⟨x,before,rfl,rfl,rfl,rfl⟩
    · exact ⟨v,member,leads,gates,key,keys⟩
  refine ⟨tied.stocked,?_,everySet tied.settled settled,?_,?_,?_⟩
  · intro gate
    have counted := countSet w (leadsAt gate) here
    rw [show leadsAt gate w = leadsAt gate v by rw [leadsAt,leadsAt,leads]] at counted
    rw [← tied.leaders gate]
    omega
  · intro x xIn y yIn gate xLeads yGate
    obtain ⟨x',xOld,xl,_,xk,_⟩ := old xIn
    obtain ⟨y',yOld,_,yg,yk,_⟩ := old yIn
    rw [xk,yk]
    exact tied.keyed x' xOld y' yOld gate (xl ▸ xLeads) (yg ▸ yGate)
  · intro e inside
    exact existsSet here (fun was => ⟨leads.trans was.1,key.trans was.2⟩) (tied.table e inside)
  · intro x xIn
    obtain ⟨y,yOld,_,_,_,same⟩ := old xIn
    rw [same]
    exact tied.made y yOld

theorem Tied.caches {t : Caches} (tied : Tied s views) (gates : t.gates.length = s.gates.length)
    (profiles : t.profiles.All (fun _ pool => Stocked pool))
    (table : t.inflight.All (fun key gate => ∃ v ∈ views, v.stage.leads = some gate ∧ v.gateKey = some key)) : Tied t views :=
  ⟨profiles,gates ▸ tied.leaders,tied.settled,tied.keyed,table,tied.made⟩

theorem Sound.set (sound : Sound s views) (here : views[i]? = some v) (leads : w.stage.leads = v.stage.leads)
    (follows : w.stage.follows = v.stage.follows) (keys : w.keys = v.keys) (fits : w.stage.fits s.gates)
    (settled : w.stage.isReleased = true → w.settled) : Sound s (views.set i w) :=
  ⟨sound.toTied.set here leads follows keys settled,everySet sound.fits fits⟩

theorem Sound.caches {t : Caches} (sound : Sound s views) (gates : t.gates = s.gates)
    (profiles : t.profiles.All (fun _ pool => Stocked pool))
    (table : t.inflight.All (fun key gate => ∃ v ∈ views, v.stage.leads = some gate ∧ v.gateKey = some key)) : Sound t views :=
  ⟨sound.toTied.caches (congrArg _ gates) profiles table,gates ▸ sound.fits⟩

theorem fitsModify {gates : List Gate} {stage : Stage} {change : Gate → Gate} (completes : ∀ g, g.completed = true → (change g).completed = true)
    (notifies : ∀ g, g.notified ≤ (change g).notified) (other : stage.leads ≠ some gate) (fits : stage.fits gates) :
    stage.fits (gates.modify gate change) := by
  have seen {k : Nat} {g : Gate} (found : gates[k]? = some g) :
      ∃ h, (gates.modify gate change)[k]? = some h ∧ (g.completed = true → h.completed = true) ∧ g.notified ≤ h.notified := by
    rw [List.getElem?_modify,found]
    split
    · exact ⟨change g,rfl,completes g,notifies g⟩
    · exact ⟨g,rfl,id,Nat.le_refl _⟩
  have apart {k : Nat} (leads : stage.leads = some k) : (gates.modify gate change)[k]? = gates[k]? := by
    have differ : gate ≠ k := by
      rintro rfl
      exact other leads
    exact List.getElem?_modify_ne _ _ differ
  cases stage with
  | free => trivial
  | joined k => rwa [Stage.fits,List.length_modify]
  | armed k n =>
    obtain ⟨g,found,le⟩ := fits
    obtain ⟨h,found,_,more⟩ := seen found
    exact ⟨h,found,Nat.le_trans le more⟩
  | listening k n => rwa [Stage.fits,List.length_modify]
  | woken k =>
    obtain ⟨g,found,done⟩ := fits
    obtain ⟨h,found,still,_⟩ := seen found
    exact ⟨h,found,still done⟩
  | passed k =>
    obtain ⟨g,found,done⟩ := fits
    obtain ⟨h,found,still,_⟩ := seen found
    exact ⟨h,found,still done⟩
  | holding k => rwa [Stage.fits,apart rfl]
  | completed k => rwa [Stage.fits,apart rfl]
  | announced k => rwa [Stage.fits,apart rfl]
  | released k => rwa [Stage.fits,apart rfl]

theorem fitsAppend {gates more : List Gate} {stage : Stage} (fits : stage.fits gates) : stage.fits (gates ++ more) := by
  have seen {k : Nat} {g : Gate} (found : gates[k]? = some g) : (gates ++ more)[k]? = some g := by
    rw [List.getElem?_append_left (List.getElem?_eq_some_iff.mp found).1,found]
  have inside {k : Nat} (below : k < gates.length) : k < (gates ++ more).length := by
    rw [List.length_append]
    omega
  cases stage with
  | free => trivial
  | joined k => exact inside fits
  | armed k n =>
    obtain ⟨g,found,le⟩ := fits
    exact ⟨g,seen found,le⟩
  | listening k n => exact ⟨inside fits.1,fits.2⟩
  | woken k =>
    obtain ⟨g,found,done⟩ := fits
    exact ⟨g,seen found,done⟩
  | passed k =>
    obtain ⟨g,found,done⟩ := fits
    exact ⟨g,seen found,done⟩
  | holding k => exact seen fits
  | completed k => exact seen fits
  | announced k => exact seen fits
  | released k => exact seen fits

theorem Sound.update (sound : Sound s views) (here : views[i]? = some v) {stage : Stage} {change : Gate → Gate}
    (leads : v.stage.leads = some gate) (same : stage.leads = some gate) (follows : stage.follows = v.stage.follows)
    (completes : ∀ g, g.completed = true → (change g).completed = true) (notifies : ∀ g, g.notified ≤ (change g).notified)
    (fits : stage.fits (s.gates.modify gate change)) (settled : v.settled) :
    Sound (updateGate s gate change) (views.set i { v with stage := stage }) := by
  refine ⟨Tied.caches ?_ (List.length_modify _ _ _) sound.stocked ?_,?_⟩
  · exact sound.toTied.set here (same.trans leads.symm) follows rfl (fun _ => settled)
  · intro e inside
    exact existsSet here (fun was => ⟨same.trans (leads.symm.trans was.1),was.2⟩) (sound.table e inside)
  · intro u member
    obtain ⟨j,place⟩ := List.mem_iff_getElem?.mp member
    by_cases aside : i = j
    · subst aside
      rw [List.getElem?_set_self (List.getElem?_eq_some_iff.mp here).1] at place
      cases Option.some.inj place
      exact fits
    · rw [List.getElem?_set_ne aside] at place
      refine fitsModify completes notifies ?_ (sound.fits u (List.mem_of_getElem? place))
      intro also
      exact aside (sound.place here place leads also)

theorem fitsBelow {gates : List Gate} {stage : Stage} (fits : stage.fits gates) (gateOf : stage.gate = some gate) : gate < gates.length := by
  have inside {g : Gate} (found : gates[gate]? = some g) : gate < gates.length := (List.getElem?_eq_some_iff.mp found).1
  cases stage with
  | free => contradiction
  | joined k =>
    cases Option.some.inj gateOf
    exact fits
  | listening k n =>
    cases Option.some.inj gateOf
    exact fits.1
  | armed k n =>
    cases Option.some.inj gateOf
    exact inside fits.choose_spec.1
  | woken k =>
    cases Option.some.inj gateOf
    exact inside fits.choose_spec.1
  | passed k =>
    cases Option.some.inj gateOf
    exact inside fits.choose_spec.1
  | holding k =>
    cases Option.some.inj gateOf
    exact inside fits
  | completed k =>
    cases Option.some.inj gateOf
    exact inside fits
  | announced k =>
    cases Option.some.inj gateOf
    exact inside fits
  | released k =>
    cases Option.some.inj gateOf
    exact inside fits

theorem leadsGate {stage : Stage} (leads : stage.leads = some gate) : stage.gate = some gate := by
  rw [Stage.gate,leads]
  rfl

variable {key : Text}

theorem Sound.newGate {inflight : Cache Text Nat} (sound : Sound s views) (here : views[i]? = some v) (free : v.stage = .free)
    (mine : v.gateKey = some key)
    (table : inflight.All (fun key gate => ∃ v ∈ views, v.stage.leads = some gate ∧ v.gateKey = some key)) :
    Sound (newGate s inflight key).2 (views.set i { v with stage := .holding s.gates.length }) := by
  have idle : v.stage.leads = none := by rw [free]; rfl
  have inside := (List.getElem?_eq_some_iff.mp here).1
  have new : ({ v with stage := .holding s.gates.length } : View) ∈ views.set i { v with stage := .holding s.gates.length } :=
    List.mem_of_getElem? (List.getElem?_set_self inside)
  have below {u : View} {gate : Nat} (member : u ∈ views) (gateOf : u.stage.gate = some gate) : gate < s.gates.length :=
    fitsBelow (sound.fits u member) gateOf
  refine ⟨⟨sound.stocked,?_,everySet sound.settled (by intro no; contradiction),?_,?_,?_⟩,?_⟩
  · intro gate
    have counted := countSet { v with stage := .holding s.gates.length } (leadsAt gate) here
    have old := sound.leaders gate
    have leaves : leadsAt gate v = false := by simp [leadsAt,idle]
    have takes : leadsAt gate { v with stage := .holding s.gates.length } = decide (s.gates.length = gate) := by
      simp [leadsAt,Stage.leads]
    rw [leaves,takes] at counted
    simp only [CamouflageFetch.newGate,List.length_append,List.length_singleton,decide_eq_true_eq,Bool.false_eq_true,if_false] at counted ⊢
    rw [old] at counted
    split at counted <;> split at counted <;> split <;> omega
  · intro x xIn y yIn gate xLeads yGate
    rcases List.mem_or_eq_of_mem_set xIn with xOld | rfl
    · rcases List.mem_or_eq_of_mem_set yIn with yOld | rfl
      · exact sound.keyed x xOld y yOld gate xLeads yGate
      · cases Option.some.inj yGate
        exact absurd (below xOld (leadsGate xLeads)) (Nat.lt_irrefl _)
    · rcases List.mem_or_eq_of_mem_set yIn with yOld | rfl
      · cases Option.some.inj xLeads
        exact absurd (below yOld yGate) (Nat.lt_irrefl _)
      · rfl
  · refine Cache.All.put ?_ ⟨_,new,rfl,mine⟩
    intro e inside
    refine existsSet here ?_ (table e inside)
    rintro ⟨leads,_⟩
    rw [idle] at leads
    contradiction
  · exact everySet sound.made (sound.made v (List.mem_of_getElem? here))
  · refine everySet (fun u member => fitsAppend (sound.fits u member)) ?_
    exact List.getElem?_concat_length

theorem Sound.join (sound : Sound s views) (here : views[i]? = some v) (free : v.stage = .free) (mine : v.gateKey = some key)
    (found : s.inflight.lookup key = some gate) : Sound s (views.set i { v with stage := .joined gate }) := by
  obtain ⟨leader,member,leads,same⟩ := sound.table.lookup found
  have idle : v.stage.leads = none := by rw [free]; rfl
  refine ⟨⟨sound.stocked,?_,everySet sound.settled (by intro no; contradiction),?_,?_,?_⟩,?_⟩
  · intro k
    have counted := countSet { v with stage := .joined gate } (leadsAt k) here
    have leaves : leadsAt k v = false := by simp [leadsAt,idle]
    have takes : leadsAt k { v with stage := .joined gate } = false := by simp [leadsAt,Stage.leads]
    rw [leaves,takes,sound.leaders] at counted
    simpa using counted
  · intro x xIn y yIn k xLeads yGate
    rcases List.mem_or_eq_of_mem_set xIn with xOld | rfl
    · rcases List.mem_or_eq_of_mem_set yIn with yOld | rfl
      · exact sound.keyed x xOld y yOld k xLeads yGate
      · cases Option.some.inj yGate
        exact (sound.keyed x xOld leader member gate xLeads (leadsGate leads)).trans (same.trans mine.symm)
    · contradiction
  · intro e inside
    refine existsSet here ?_ (sound.table e inside)
    rintro ⟨leads,_⟩
    rw [idle] at leads
    contradiction
  · exact everySet sound.made (sound.made v (List.mem_of_getElem? here))
  · exact everySet sound.fits (fitsBelow (sound.fits leader member) (leadsGate leads))

theorem Sound.acquire (sound : Sound s views) (here : views[i]? = some v) (free : v.stage = .free) (mine : v.gateKey = some key) :
    ∃ w, after v (.acquire key) (some (acquireGate s key).1) = some w ∧ Sound (acquireGate s key).2 (views.set i w) := by
  cases found : s.inflight.lookup key with
  | none =>
    have made : acquireGate s key = CamouflageFetch.newGate s s.inflight key := by rw [acquireGate,Cache.get,found]
    rw [made]
    exact ⟨_,rfl,sound.newGate here free mine sound.table⟩
  | some existing =>
    have kept : (s.inflight.get key).2.All (fun key gate => ∃ v ∈ views, v.stage.leads = some gate ∧ v.gateKey = some key) :=
      sound.table.get
    have took : s.inflight.get key = (some existing,(s.inflight.get key).2) := by
      rw [← found,← Cache.getFound]
    rw [acquireGate,took]
    dsimp only
    split
    · exact ⟨_,rfl,sound.newGate here free mine kept.pop⟩
    · refine ⟨_,rfl,Sound.caches (sound.join here free mine found) rfl sound.stocked ?_⟩
      intro e inside
      refine existsSet here ?_ (kept e inside)
      rintro ⟨leads,_⟩
      rw [free] at leads
      contradiction

theorem Sound.flags (sound : Sound s views) (here : views[i]? = some v) (stage : w.stage = v.stage) (keys : w.keys = v.keys)
    (settled : v.settled → w.settled) : Sound s (views.set i w) := by
  have member := List.mem_of_getElem? here
  refine sound.set here (congrArg _ stage) (congrArg _ stage) keys ?_ ?_
  · rw [stage]
    exact sound.fits v member
  · rw [stage]
    exact fun released => settled (sound.settled v member released)

theorem Sound.drop (sound : Sound s views) (here : views[i]? = some v) : Sound s (views.set i v.drop) :=
  sound.flags here rfl rfl (fun _ => .inr (.inr rfl))

theorem Sound.stay (sound : Sound s views) (here : views[i]? = some v) : Sound s (views.set i v) := sound.flags here rfl rfl id

theorem completedAt (completed : isCompleted s gate = true) : ∃ g, s.gates[gate]? = some g ∧ g.completed = true := by
  unfold isCompleted at completed
  cases found : s.gates[gate]? with
  | none =>
    rw [found] at completed
    contradiction
  | some g =>
    rw [found] at completed
    exact ⟨g,rfl,completed⟩

theorem Sound.load (sound : Sound s views) (here : views[i]? = some v) (allowed : allows v (.load gate)) :
    ∃ w, after v (.load gate) (isCompleted s gate) = some w ∧ Sound s (views.set i w) := by
  have member := List.mem_of_getElem? here
  have follows : v.stage.follows = some gate ∧ v.stage.leads = none ∧ v.stage.isReleased = false := by
    rcases allowed with stands | ⟨seen,stands⟩ | stands <;> rw [stands] <;> exact ⟨rfl,rfl,rfl⟩
  cases completed : isCompleted s gate with
  | true =>
    refine ⟨{ v with stage := .passed gate },rfl,?_⟩
    exact sound.set here follows.2.1.symm follows.1.symm rfl (completedAt completed) (by intro no; contradiction)
  | false =>
    have fits := sound.fits v member
    rcases allowed with stands | ⟨seen,stands⟩ | stands
    · refine ⟨v,?_,sound.stay here⟩
      simp [after,afterLoad,stands]
    · refine ⟨{ v with stage := .listening gate seen },?_,?_⟩
      · simp [after,afterLoad,stands]
      · refine sound.set here follows.2.1.symm follows.1.symm rfl ?_ (by intro no; contradiction)
        rw [stands] at fits
        obtain ⟨g,found,le⟩ := fits
        refine ⟨(List.getElem?_eq_some_iff.mp found).1,?_⟩
        -- the gate is not completed, so nobody has been notified yet
        rcases sound.gateCases found with rfl | rfl | rfl
        · exact Nat.le_zero.mp le
        · simp [isCompleted,found] at completed
        · simp [isCompleted,found] at completed
    · rw [stands] at fits
      obtain ⟨g,found,done⟩ := fits
      simp [isCompleted,found,done] at completed

theorem modifiedAt {change : Gate → Gate} {g : Gate} (found : s.gates[gate]? = some g) :
    (s.gates.modify gate change)[gate]? = some (change g) := by
  rw [List.getElem?_modify_eq,found]
  rfl

theorem coolingKeeps (s : Caches) (key : Text) : ∃ failures, (coolingDown s key).2 = { s with failures := failures } := by
  unfold coolingDown
  split
  · exact ⟨s.failures,rfl⟩
  · split <;> exact ⟨_,rfl⟩

theorem Tied.stored {p : CamouflageProfile} (tied : Tied s views) (records : p.serverRecords ≠ []) :
    (storeProfile s key p).profiles.All (fun _ pool => Stocked pool) := by
  have pooled : ∀ e ∈ (s.profiles.get key).1.getD [], e.profile.serverRecords ≠ [] := ?_
  · exact tied.stocked.get.put (stockedPush pooled records)
  rw [Cache.getFound]
  cases found : s.profiles.lookup key with
  | none => exact fun e member => by contradiction
  | some pool => exact (tied.stocked.lookup found).records

theorem Sound.cleanup (sound : Sound s views) : Sound (cleanupGate s key gate) views := by
  unfold cleanupGate
  split
  · exact sound.caches rfl sound.stocked sound.table.pop
  · exact sound

theorem soundActed {e : Op} {choice : Choice} {a : Answer e} {t : Caches} (sound : Sound s views) (here : views[i]? = some v)
    (allowed : allows v e) (acted : act s e choice = some (a,t)) : ∃ w, after v e a = some w ∧ Sound t (views.set i w) := by
  have member := List.mem_of_getElem? here
  have fits := sound.fits v member
  cases e with
  | getEntry key =>
    cases choice <;> cases acted
    case drop.refl => exact ⟨_,rfl,sound.drop here⟩
    case draw.refl n =>
      have kept : Sound { s with profiles := (s.profiles.get key).2 } views := sound.caches rfl sound.stocked.get sound.table
      show ∃ w, after v (.getEntry key) (some ((s.profiles.get key).1.bind (sampleCamouflageProfile n))) = some w ∧
        Sound { s with profiles := (s.profiles.get key).2 } (views.set i w)
      rw [Cache.getFound]
      cases found : s.profiles.lookup key with
      | none =>
        refine ⟨_,rfl,kept.flags here ?_ ?_ ?_⟩ <;> (obtain ⟨missed,same,_⟩ := missCases v key; rw [same])
        exact id
      | some pool =>
        obtain ⟨p,picked,records⟩ := stockedPick (sound.stocked.lookup found) n
        refine ⟨v,?_,kept.stay here⟩
        rw [Option.bind_some,picked]
        exact if_neg (by simpa using records)
  | coolingDown key =>
    cases choice <;> cases acted
    case drop.refl => exact ⟨_,rfl,sound.drop here⟩
    case run.refl =>
      obtain ⟨failures,same⟩ := coolingKeeps s key
      rw [same]
      exact ⟨v,rfl,Sound.caches (sound.stay here) rfl sound.stocked (sound.stay here).table⟩
  | noteFailure key =>
    cases choice <;> cases acted
    case drop.refl => exact ⟨_,rfl,sound.drop here⟩
    case run.refl => exact ⟨v,rfl,Sound.caches (sound.stay here) rfl sound.stocked (sound.stay here).table⟩
  | clearFailure key =>
    cases choice <;> cases acted
    case drop.refl => exact ⟨_,rfl,sound.drop here⟩
    case run.refl => exact ⟨v,rfl,Sound.caches (sound.stay here) rfl sound.stocked (sound.stay here).table⟩
  | store key p =>
    cases choice <;> cases acted
    case drop.refl => exact ⟨_,rfl,sound.drop here⟩
    case run.refl =>
      have kept : Sound s (views.set i (v.keep key)) := sound.flags here rfl rfl ?_
      · exact ⟨_,rfl,kept.caches rfl (sound.stored allowed) kept.table⟩
      · intro settled
        rcases settled with based | others
        · exact .inl (by simp [View.keep,based])
        · exact .inr others
  | acquire key =>
    cases choice <;> cases acted
    case drop.refl => exact ⟨_,rfl,sound.drop here⟩
    case run.refl => exact sound.acquire here allowed.1 allowed.2
  | sample site fast expectedFirst =>
    cases choice <;> cases acted
    case drop.refl => exact ⟨_,rfl,sound.drop here⟩
    case unreachable.refl => exact ⟨_,rfl,sound.flags here rfl rfl (fun _ => .inr (.inl rfl))⟩
    case endpoint.refl clock stream =>
      cases read : readCamouflageServerRecords fast expectedFirst clock stream with
      | none => exact ⟨_,rfl,sound.flags here rfl rfl (fun _ => .inr (.inl rfl))⟩
      | some p => exact ⟨v,if_neg (by simpa using sampledRecords read),sound.stay here⟩
  | load gate =>
    cases choice <;> cases acted
    exact sound.load here allowed
  | notified gate =>
    cases choice <;> cases acted
    have stands : v.stage = .joined gate := allowed
    rw [stands] at fits
    refine ⟨_,rfl,sound.set here (by rw [stands]; rfl) (by rw [stands]; rfl) rfl ?_ (by intro no; contradiction)⟩
    refine ⟨s.gates.get ⟨gate,fits⟩,List.getElem?_eq_getElem fits,?_⟩
    rw [List.getElem?_eq_getElem fits]
    exact Nat.le_refl _
  | sleep gate seen =>
    have stands : v.stage = .listening gate seen := allowed
    rw [stands] at fits
    cases choice <;> try cases acted
    case drop.refl => exact ⟨_,rfl,sound.drop here⟩
    case run =>
      obtain ⟨moved,same⟩ := Option.ite_none_left_eq_some.mp acted
      cases Option.some.inj same
      refine ⟨_,rfl,sound.set here (by rw [stands]; rfl) (by rw [stands]; rfl) rfl ?_ (by intro no; contradiction)⟩
      obtain ⟨below,rfl⟩ := fits
      have found := List.getElem?_eq_getElem below
      refine ⟨_,found,?_⟩
      rw [found] at moved
      rcases sound.gateCases found with same | same | same <;> rw [same] at moved ⊢
      exact absurd rfl moved
  | complete gate =>
    cases choice <;> cases acted
    obtain ⟨stands,settled⟩ := allowed
    rw [stands] at fits
    refine ⟨_,rfl,sound.update here (by rw [stands]; rfl) rfl (by rw [stands]; rfl) (fun _ _ => rfl) (fun _ => Nat.le_refl _) ?_ settled⟩
    exact modifiedAt fits
  | notifyWaiters gate =>
    cases choice <;> cases acted
    have stands : v.stage = .completed gate := allowed
    rw [stands] at fits
    refine ⟨_,rfl,sound.update here (by rw [stands]; rfl) rfl (by rw [stands]; rfl) (fun _ done => done) (fun _ => Nat.le_succ _) ?_ ?_⟩
    · exact modifiedAt fits
    · exact sound.settled v member (by rw [stands]; rfl)
  | cleanup key gate =>
    obtain ⟨stands,_⟩ := allowed
    rw [stands] at fits
    have moved : Sound s (views.set i { v with stage := .released gate }) :=
      sound.set here (by rw [stands]; rfl) (by rw [stands]; rfl) rfl fits (fun _ => sound.settled v member (by rw [stands]; rfl))
    cases choice <;> cases acted
    case run.refl => exact ⟨_,rfl,moved.cleanup⟩
    case contended.refl => exact ⟨_,rfl,moved.caches rfl moved.stocked moved.table⟩
    case noRuntime.refl => exact ⟨_,rfl,moved⟩

end Invariant

end KanoTls.CamouflageFetch
