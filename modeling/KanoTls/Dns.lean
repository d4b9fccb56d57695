import KanoTls.Destination
import KanoTls.Lru
import KanoTls.Program
import KanoTls.Target
import KanoTls.Tasks

/-! The resolver cache `dns.rs`: one table for all tasks, with the lookups and stores of
different tasks in any order. `stores` is not of the code: it lists what was ever stored, with
the instant, the latest first, and is what the table is compared with. -/
namespace KanoTls.Dns
open Text Lru Program Machine
open Destination (SocketAddr)

/- Instants are in nanoseconds. -/
def dnsCacheTtl : Nat := 30 * 1000000000
def dnsCacheEntries : Nat := 4096

structure CacheEntry where
  addrs : List SocketAddr
  expiresAt : Nat
  deriving DecidableEq, Repr

structure Stored where
  key : Text
  addrs : List SocketAddr
  storedAt : Nat
  deriving DecidableEq, Repr

structure DnsCache where
  cache : Cache Text CacheEntry := ⟨dnsCacheEntries,[]⟩
  now : Nat := 0
  stores : List Stored := []

/- `format!("{}:{}", host, port)`. -/
def cacheKey (host : Text) (port : UInt16) : Text := host ++ ':'::IpText.decimal port.toNat

def lookup (s : DnsCache) (key : Text) : Option (List SocketAddr) × DnsCache :=
  match s.cache.get key with
  | (none,cache) => (none,{ s with cache := cache })
  | (some entry,cache) =>
    if entry.expiresAt ≤ s.now then (none,{ s with cache := cache.pop key }) else (some entry.addrs,{ s with cache := cache })

def store (s : DnsCache) (key : Text) (addrs : List SocketAddr) : DnsCache :=
  { s with
    cache := s.cache.put key ⟨addrs,s.now + dnsCacheTtl⟩
    stores := ⟨key,addrs,s.now⟩::s.stores }

inductive Op where
  | lookup (key : Text)
  | lookupHost (host : Text) (port : UInt16)
  | store (key : Text) (addrs : List SocketAddr)
  deriving DecidableEq

/- `lookup_host` is the only `await`: `none` is that the task was dropped there. -/
abbrev Answer : Op → Type
  | .lookup _ => Option (List SocketAddr)
  | .lookupHost _ _ => Option (Except Unit (List SocketAddr))
  | .store _ _ => Unit

inductive Choice where
  | run
  | poisoned
  | drop
  | answer (resolved : Except Unit (List SocketAddr))
  | pass (nanos : Nat)

def act (s : DnsCache) : (e : Op) → Choice → Option (Answer e × DnsCache)
  | .lookup key,.run => some ((lookup s key).1,(lookup s key).2)
  | .lookup _,.poisoned => some (none,s)
  | .lookupHost _ _,.drop => some (none,s)
  | .lookupHost _ _,.answer resolved => some (some resolved,s)
  | .store key addrs,.run => some ((),store s key addrs)
  | .store _ _,.poisoned => some ((),s)
  | _,_ => none

def drift (s : DnsCache) : Choice → Option DnsCache
  | .pass nanos => some { s with now := s.now + nanos }
  | _ => none

def world : World Op Answer DnsCache Choice := ⟨act,drift⟩

inductive ResolveEnd where
  | resolved (addrs : List SocketAddr)
  | failed
  | dropped
  deriving DecidableEq, Repr

structure Query where
  host : Text
  port : UInt16
  deriving DecidableEq, Repr

def Query.key (query : Query) : Text := cacheKey query.host query.port

def lookedUp (query : Query) : Option (Except Unit (List SocketAddr)) → Program Op Answer ResolveEnd
  | none => pure .dropped
  | some (.error _) => pure .failed
  | some (.ok addrs) => do
    if addrs.isEmpty then pure (.resolved addrs)
    else do
      perform (Op.store query.key addrs)
      pure (.resolved addrs)

def resolve (query : Query) : Program Op Answer ResolveEnd := do
  match ← (perform (Op.lookup query.key) : Program Op Answer (Option (List SocketAddr))) with
  | some hit => pure (.resolved hit)
  | none => do
    let resolved ← (perform (Op.lookupHost query.host query.port) : Program Op Answer (Option (Except Unit (List SocketAddr))))
    lookedUp query resolved

abbrev Resolves := Pool Query Op Answer ResolveEnd DnsCache

structure View where
  query : Query
  told : Option (List SocketAddr) := none
  served : Option (List SocketAddr) := none
  deriving DecidableEq, Repr

def allows (v : View) : Op → Prop
  | .lookup key => key = v.query.key
  | .lookupHost host port => v.query = ⟨host,port⟩ ∧ v.told = none
  | .store key addrs => key = v.query.key ∧ v.told = some addrs ∧ addrs ≠ []

def after (v : View) : (e : Op) → Answer e → Option View
  | .lookup _,served => some { v with served := served }
  | .lookupHost _ _,some (.ok addrs) => some { v with told := some addrs }
  | .lookupHost _ _,_ => some v
  | .store _ _,() => some v

def protocol : Protocol Op Answer View := ⟨allows,after⟩

def fresh (query : Query) : View := { query := query }

def ends (v : View) : ResolveEnd → Prop
  | .resolved addrs => v.told = some addrs ∨ v.served = some addrs
  | _ => True

theorem resolveFollows (query : Query) : Follows protocol ends (fresh query) (resolve query) := by
  refine followsBind (followsPerform rfl ?_)
  intro hit w moved
  cases Option.some.inj moved
  cases hit with
  | some addrs => exact .inr rfl
  | none =>
    refine followsBind (followsPerform ⟨rfl,rfl⟩ ?_)
    intro resolved w moved
    rcases resolved with _ | _ | addrs
    · trivial
    · trivial
    · cases Option.some.inj moved
      unfold lookedUp
      dsimp only
      split
      · exact .inl rfl
      · rename_i some
        refine followsBind (followsPerform ⟨rfl,rfl,by simpa using some⟩ ?_)
        intro _ w moved
        cases Option.some.inj moved
        exact .inl rfl

theorem keyInjective {one two : Query} (same : one.key = two.key) : one = two := by
  obtain ⟨host,port⟩ := one
  obtain ⟨host',port'⟩ := two
  have parts := congrArg (rsplitOnce ':') same
  simp only [Query.key,cacheKey] at parts
  rw [rsplitOnceAppend _ (Target.decimalColon port),rsplitOnceAppend _ (Target.decimalColon port')] at parts
  obtain ⟨rfl,digits⟩ := Prod.mk.inj (Option.some.inj parts)
  have number := congrArg (valueFrom 10 0) digits
  rw [IpText.decimal,IpText.decimal,digitsValue (by decide) (by decide),digitsValue (by decide) (by decide)] at number
  rw [UInt16.toNat_inj.mp number]

def freshAnswer (s : DnsCache) (key : Text) : Option (List SocketAddr) :=
  match s.stores.find? (fun stored => stored.key = key) with
  | none => none
  | some stored => if stored.storedAt + dnsCacheTtl ≤ s.now then none else some stored.addrs

def Latest (s : DnsCache) (key : Text) (entry : CacheEntry) : Prop :=
  ∃ stored, s.stores.find? (fun stored => stored.key = key) = some stored ∧ stored.addrs = entry.addrs ∧
    stored.storedAt + dnsCacheTtl = entry.expiresAt

structure Backed (s : DnsCache) (views : List View) : Prop where
  bounded : s.cache.capacity = dnsCacheEntries ∧ s.cache.Bounded
  latest : s.cache.All (Latest s)
  past : ∀ stored ∈ s.stores, stored.storedAt ≤ s.now
  told : ∀ stored ∈ s.stores, stored.addrs ≠ [] ∧ ∃ v ∈ views, v.query.key = stored.key ∧ v.told = some stored.addrs
  served : ∀ v ∈ views, ∀ addrs, v.served = some addrs → addrs ≠ [] ∧ ∃ w ∈ views, w.query = v.query ∧ w.told = some addrs

section Steps
variable {s t : DnsCache} {views : List View} {v w : View} {i : Nat} {key : Text}

theorem Backed.set (backed : Backed s views) (here : views[i]? = some v) (query : w.query = v.query)
    (told : ∀ addrs, v.told = some addrs → w.told = some addrs)
    (served : ∀ addrs, w.served = some addrs → addrs ≠ [] ∧ ∃ u ∈ views, u.query = v.query ∧ u.told = some addrs) :
    Backed s (views.set i w) := by
  refine ⟨backed.bounded,backed.latest,backed.past,?_,?_⟩
  · intro stored member
    obtain ⟨some,there⟩ := backed.told stored member
    exact ⟨some,Tasks.existsSet here (fun was => ⟨by rw [query]; exact was.1,told _ was.2⟩) there⟩
  · intro u uIn addrs its
    rcases List.mem_or_eq_of_mem_set uIn with uOld | rfl
    · obtain ⟨some,there⟩ := backed.served u uOld addrs its
      exact ⟨some,Tasks.existsSet here (fun was => ⟨query.trans was.1,told _ was.2⟩) there⟩
    · obtain ⟨some,there⟩ := served addrs its
      rw [query]
      exact ⟨some,Tasks.existsSet here (fun was => ⟨query.trans was.1,told _ was.2⟩) there⟩

theorem lookupCases (s : DnsCache) (key : Text) :
    (s.cache.lookup key = none ∧ lookup s key = (none,{ s with cache := (s.cache.get key).2 })) ∨
    ∃ entry, s.cache.lookup key = some entry ∧
      ((entry.expiresAt ≤ s.now ∧ lookup s key = (none,{ s with cache := (s.cache.get key).2.pop key })) ∨
        (s.now < entry.expiresAt ∧ lookup s key = (some entry.addrs,{ s with cache := (s.cache.get key).2 }))) := by
  unfold lookup
  rw [← Cache.getFound]
  split
  · rename_i cache found
    exact .inl ⟨by rw [found],by rw [found]⟩
  · rename_i entry cache found
    rw [found]
    refine .inr ⟨entry,rfl,?_⟩
    by_cases old : entry.expiresAt ≤ s.now
    · exact .inl ⟨old,if_pos old⟩
    · exact .inr ⟨Nat.lt_of_not_le old,if_neg old⟩

theorem Backed.lookup (backed : Backed s views) : Backed (lookup s key).2 views := by
  have got : (s.cache.get key).2.All (Latest s) := backed.latest.get
  have small : (s.cache.get key).2.Bounded := backed.bounded.2.get
  have whole : (s.cache.get key).2.capacity = dnsCacheEntries := Cache.getCapacity.trans backed.bounded.1
  obtain ⟨_,eq⟩ | ⟨_,_,⟨_,eq⟩ | ⟨_,eq⟩⟩ := lookupCases s key
  · rw [eq]
    exact ⟨⟨whole,small⟩,got,backed.past,backed.told,backed.served⟩
  · rw [eq]
    exact ⟨⟨whole,small.pop⟩,got.pop,backed.past,backed.told,backed.served⟩
  · rw [eq]
    exact ⟨⟨whole,small⟩,got,backed.past,backed.told,backed.served⟩

theorem Backed.serves {addrs : List SocketAddr} (backed : Backed s views) (hit : (Dns.lookup s key).1 = some addrs) :
    freshAnswer s key = some addrs := by
  obtain ⟨_,eq⟩ | ⟨entry,found,⟨_,eq⟩ | ⟨alive,eq⟩⟩ := lookupCases s key <;> rw [eq] at hit <;> cases hit
  obtain ⟨stored,last,same,expires⟩ := backed.latest.lookup found
  rw [freshAnswer,last]
  dsimp only
  rw [if_neg (by rw [expires]; exact Nat.not_le_of_lt alive),same]

theorem freshLast {addrs : List SocketAddr} (answer : freshAnswer s key = some addrs) :
    ∃ stored, s.stores.find? (fun stored => stored.key = key) = some stored ∧ s.now < stored.storedAt + dnsCacheTtl ∧
      stored.addrs = addrs := by
  unfold freshAnswer at answer
  split at answer
  · contradiction
  · rename_i stored found
    obtain ⟨young,same⟩ := Option.ite_none_left_eq_some.mp answer
    exact ⟨stored,found,Nat.lt_of_not_le young,Option.some.inj same⟩

theorem freshStored {addrs : List SocketAddr} (answer : freshAnswer s key = some addrs) :
    ∃ stored ∈ s.stores, stored.key = key ∧ stored.addrs = addrs := by
  obtain ⟨stored,last,_,same⟩ := freshLast answer
  exact ⟨stored,List.mem_of_find?_eq_some last,by simpa using List.find?_some last,same⟩

theorem Backed.store {addrs : List SocketAddr} (backed : Backed s views) (member : v ∈ views) (mine : v.query.key = key)
    (told : v.told = some addrs) (some : addrs ≠ []) : Backed (store s key addrs) views := by
  refine ⟨⟨Cache.putCapacity.trans backed.bounded.1,backed.bounded.2.put (by rw [backed.bounded.1]; decide)⟩,?_,?_,?_,backed.served⟩
  · refine Cache.All.replace ?_ ⟨⟨key,addrs,s.now⟩,List.find?_cons_of_pos (by simp),rfl,rfl⟩
    intro e member differ
    obtain ⟨stored,last,rest⟩ := backed.latest e member
    exact ⟨stored,(List.find?_cons_of_neg (by simpa using differ.symm)).trans last,rest⟩
  · intro stored inside
    rcases List.mem_cons.mp inside with rfl | before
    · exact Nat.le_refl _
    · exact backed.past stored before
  · intro stored inside
    rcases List.mem_cons.mp inside with rfl | before
    · exact ⟨some,v,member,mine,told⟩
    · exact backed.told stored before

theorem backedActed {e : Op} {choice : Choice} {a : Answer e} (backed : Backed s views) (here : views[i]? = some v)
    (allowed : allows v e) (acted : act s e choice = some (a,t)) : ∃ w, after v e a = some w ∧ Backed t (views.set i w) := by
  have member := List.mem_of_getElem? here
  cases e with
  | lookup key =>
    cases allowed
    cases choice <;> cases acted
    case run.refl =>
      refine ⟨_,rfl,backed.lookup.set here rfl (fun _ => id) ?_⟩
      intro addrs hit
      obtain ⟨stored,inside,mine,rfl⟩ := freshStored (backed.serves hit)
      obtain ⟨some,u,uIn,same,told⟩ := backed.told stored inside
      exact ⟨some,u,uIn,keyInjective (same.trans mine),told⟩
    case poisoned.refl => exact ⟨_,rfl,backed.set here rfl (fun _ => id) (fun _ no => by contradiction)⟩
  | lookupHost host port =>
    have keeps : ∀ addrs, v.served = some addrs → addrs ≠ [] ∧ ∃ u ∈ views, u.query = v.query ∧ u.told = some addrs :=
      backed.served v member
    cases choice <;> cases acted
    case drop.refl => exact ⟨v,rfl,backed.set here rfl (fun _ => id) keeps⟩
    case answer.refl resolved =>
      cases resolved with
      | error e => exact ⟨v,rfl,backed.set here rfl (fun _ => id) keeps⟩
      | ok addrs =>
        refine ⟨_,rfl,backed.set here rfl ?_ keeps⟩
        intro before told
        rw [allowed.2] at told
        contradiction
  | store key addrs =>
    have stay : Backed s (views.set i v) := backed.set here rfl (fun _ => id) (backed.served v member)
    cases choice <;> cases acted
    case run.refl =>
      refine ⟨v,rfl,stay.store ?_ allowed.1.symm allowed.2.1 allowed.2.2⟩
      exact List.mem_of_getElem? (List.getElem?_set_self (List.getElem?_eq_some_iff.mp here).1)
    case poisoned.refl => exact ⟨v,rfl,stay⟩

theorem backedDrifted {choice : Choice} (backed : Backed s views) (drifted : drift s choice = some t) : Backed t views := by
  cases choice <;> try contradiction
  cases Option.some.inj drifted
  exact ⟨backed.bounded,backed.latest,fun stored member => Nat.le_trans (backed.past stored member) (Nat.le_add_right _ _),backed.told,backed.served⟩

theorem backedSpawned (query : Query) (backed : Backed s views) : Backed s (views ++ [fresh query]) := by
  have more {P : View → Prop} (there : ∃ v ∈ views, P v) : ∃ v ∈ views ++ [fresh query], P v := by
    obtain ⟨v,member,holds⟩ := there
    exact ⟨v,List.mem_append_left _ member,holds⟩
  refine ⟨backed.bounded,backed.latest,backed.past,?_,?_⟩
  · intro stored member
    exact (backed.told stored member).imp id more
  · intro v member addrs its
    rcases List.mem_append.mp member with old | new
    · exact (backed.served v old addrs its).imp id more
    · rw [List.mem_singleton.mp new] at its
      contradiction

theorem backedStart : Backed {} [] := by
  refine ⟨⟨rfl,Nat.zero_le _⟩,?_,?_,?_,?_⟩
  all_goals intro x member
  all_goals contradiction

theorem resolvesBacked {s : Resolves} {ok : Resolves → Label Query Choice → Prop} (reach : Reach (poolStep world resolve) ok ⟨{},[]⟩ s) :
    Agrees protocol ends fresh Backed s :=
  poolKeeps backedStart resolveFollows backedSpawned (fun backed here _ _ _ allowed acted => backedActed backed here allowed acted)
    (fun backed _ drifted => backedDrifted backed drifted) reach

end Steps

def twoResolves : List (Label Query Choice) :=
  [.spawn ⟨['h'],443⟩,.spawn ⟨['h'],443⟩,.move 0 .run,.move 0 (.answer (.ok [⟨.v4 ⟨203,0,113,9⟩,443⟩])),.move 0 .run,
    .drift (.pass 29999999999),.move 1 .run]

section Runs
variable {s : Resolves} {i : Nat} {addrs : List SocketAddr} {task : Task Query Op Answer ResolveEnd}

def Told (task : Task Query Op Answer ResolveEnd) (addrs : List SocketAddr) : Prop :=
  ⟨.lookupHost task.job.host task.job.port,some (.ok addrs)⟩ ∈ task.history

theorem toldRecorded {query : Query} {history : List ((e : Op) × Answer e)} {v : View} (led : Led protocol (fresh query) history v) :
    v.query = query ∧ ∀ addrs, v.told = some addrs → ⟨.lookupHost query.host query.port,some (.ok addrs)⟩ ∈ history := by
  induction led with
  | start => exact ⟨rfl,fun addrs no => by contradiction⟩
  | step before allowed moved ih =>
    rename_i history v e a w
    have more {addrs : List SocketAddr} (told : v.told = some addrs) :
        ⟨.lookupHost query.host query.port,some (.ok addrs)⟩ ∈ history ++ [⟨e,a⟩] := List.mem_append_left _ (ih.2 addrs told)
    cases e with
    | lookup key =>
      cases Option.some.inj moved
      exact ⟨ih.1,fun addrs told => more told⟩
    | store key addrs =>
      cases Option.some.inj moved
      exact ⟨ih.1,fun addrs told => more told⟩
    | lookupHost host port =>
      rcases a with _ | _ | addrs <;> cases Option.some.inj moved
      · exact ⟨ih.1,fun addrs told => more told⟩
      · exact ⟨ih.1,fun addrs told => more told⟩
      · refine ⟨ih.1,?_⟩
        rintro addrs ⟨⟩
        have mine : query = ⟨host,port⟩ := ih.1.symm.trans allowed.1
        rw [mine]
        exact List.mem_append_right _ (List.mem_singleton.mpr rfl)

theorem resolvedWasTold (reach : Reach (poolStep world resolve) Always ⟨{},[]⟩ s) (there : s.tasks[i]? = some task)
    (finished : task.program.outcome = some (.resolved addrs)) : ∃ teller ∈ s.tasks, teller.job = task.job ∧ Told teller addrs := by
  obtain ⟨views,stand,backed⟩ := resolvesBacked reach
  obtain ⟨v,here,stands⟩ := forallGet stand there
  have owes := stands.owes
  rw [outcomeDone finished] at owes
  have teller {u : View} (member : u ∈ views) (told : u.told = some addrs) :
      ∃ teller ∈ s.tasks, teller.job = u.query ∧ Told teller addrs := by
    obtain ⟨j,place⟩ := List.mem_iff_getElem?.mp member
    obtain ⟨other,found,its⟩ := forallGet stand.flip place
    obtain ⟨job,recorded⟩ := toldRecorded its.led
    exact ⟨other,List.mem_of_getElem? found,job.symm,recorded addrs told⟩
  have mine : v.query = task.job := (toldRecorded stands.led).1
  rcases owes with told | served
  · exact mine ▸ teller (List.mem_of_getElem? here) told
  · obtain ⟨_,u,member,same,told⟩ := backed.served v (List.mem_of_getElem? here) addrs served
    exact mine ▸ same ▸ teller member told

theorem resolvedWasToldOnce : ∃ (s : Resolves) (task : Task Query Op Answer ResolveEnd),
    Reach (poolStep world resolve) Always ⟨{},[]⟩ s ∧ s.tasks[1]? = some task ∧
      task.program.outcome = some (.resolved [⟨.v4 ⟨203,0,113,9⟩,443⟩]) ∧
      ∃ teller ∈ s.tasks, teller.job = task.job ∧ Told teller [⟨.v4 ⟨203,0,113,9⟩,443⟩] := by
  have ran : (checked (poolStep world resolve) Always ⟨{},[]⟩ twoResolves).any (fun s => (s.tasks[1]?).any (fun task =>
      decide (task.program.outcome = some (.resolved [⟨.v4 ⟨203,0,113,9⟩,443⟩])))) = true := by
    decide +kernel
  obtain ⟨s,reach,second⟩ := checkedReaches ran
  obtain ⟨task,there,finished⟩ := (Option.any_eq_true _ _).mp second
  have finished := of_decide_eq_true finished
  exact ⟨s,task,reach,there,finished,resolvedWasTold reach there finished⟩

/- Whatever the table serves, in any interleaving, is the list that was last stored under the
key, and less than `dnsCacheTtl` ago; the table never outgrows `dnsCacheEntries`. -/
theorem servedIsFresh (reach : Reach (poolStep world resolve) Always ⟨{},[]⟩ s) :
    s.shared.cache.entries.length ≤ dnsCacheEntries ∧
      ∀ key addrs, (lookup s.shared key).1 = some addrs → freshAnswer s.shared key = some addrs := by
  obtain ⟨views,_,backed⟩ := resolvesBacked reach
  refine ⟨?_,fun key addrs hit => backed.serves hit⟩
  rw [← backed.bounded.1]
  exact backed.bounded.2

theorem servedIsFreshOnce : ∃ s : Resolves, Reach (poolStep world resolve) Always ⟨{},[]⟩ s ∧
    (lookup s.shared (cacheKey ['h'] 443)).1 = some [⟨.v4 ⟨203,0,113,9⟩,443⟩] ∧
    freshAnswer s.shared (cacheKey ['h'] 443) = some [⟨.v4 ⟨203,0,113,9⟩,443⟩] := by
  have ran : (checked (poolStep world resolve) Always ⟨{},[]⟩ twoResolves).any (fun s =>
      decide ((lookup s.shared (cacheKey ['h'] 443)).1 = some [⟨.v4 ⟨203,0,113,9⟩,443⟩])) = true := by
    decide +kernel
  obtain ⟨s,reach,hit⟩ := checkedReaches ran
  have hit := of_decide_eq_true hit
  exact ⟨s,reach,hit,(servedIsFresh reach).2 _ _ hit⟩

end Runs

section Exact
variable {s t : DnsCache} {views : List View} {key : Text}

def Unfilled (s : Resolves) (_ : Label Query Choice) : Prop := s.shared.cache.entries.length < s.shared.cache.capacity

instance : DecidableRel Unfilled := fun _ _ => Nat.decLt _ _

def Kept (s : DnsCache) : Prop :=
  ∀ key stored, s.stores.find? (fun stored => stored.key = key) = some stored → s.now < stored.storedAt + dnsCacheTtl →
    s.cache.lookup key ≠ none

theorem Kept.lookup (kept : Kept s) (backed : Backed s views) : Kept (lookup s key).2 := by
  have same (other : Text) : (s.cache.get key).2.lookup other = s.cache.lookup other := Cache.lookupGet
  obtain ⟨_,eq⟩ | ⟨entry,found,⟨old,eq⟩ | ⟨_,eq⟩⟩ := lookupCases s key
  · rw [eq]
    exact fun other stored last young => same other ▸ kept other stored last young
  · rw [eq]
    intro other stored last young
    have differ : other ≠ key := by
      rintro rfl
      obtain ⟨latest,its,_,expires⟩ := backed.latest.lookup found
      cases Option.some.inj (its.symm.trans last)
      exact absurd old (expires ▸ Nat.not_le_of_lt young)
    exact (Cache.lookupPopOther differ).trans (same other) ▸ kept other stored last young
  · rw [eq]
    exact fun other stored last young => same other ▸ kept other stored last young

theorem Kept.store {addrs : List SocketAddr} (kept : Kept s) (room : s.cache.entries.length < s.cache.capacity) :
    Kept (store s key addrs) := by
  intro other stored last young
  by_cases same : other = key
  · subst same
    exact Option.ne_none_iff_exists'.mpr ⟨_,Cache.lookupPut⟩
  · have before : s.stores.find? (fun stored => stored.key = other) = some stored := by
      rw [← last]
      exact (List.find?_cons_of_neg (by simpa using Ne.symm same)).symm
    exact (Cache.lookupPutOther (Cache.roomyOfSpare room) same).symm ▸ kept other stored before young

theorem Kept.answers (kept : Kept s) (backed : Backed s views) : (Dns.lookup s key).1 = freshAnswer s key := by
  cases fresh : freshAnswer s key with
  | none =>
    cases hit : (Dns.lookup s key).1 with
    | none => rfl
    | some addrs =>
      rw [backed.serves hit] at fresh
      contradiction
  | some addrs =>
    obtain ⟨stored,last,young,same⟩ := freshLast fresh
    obtain ⟨missing,_⟩ | ⟨entry,found,⟨old,_⟩ | ⟨_,eq⟩⟩ := lookupCases s key
    · exact absurd missing (kept key stored last young)
    · obtain ⟨latest,its,_,expires⟩ := backed.latest.lookup found
      cases Option.some.inj (its.symm.trans last)
      exact absurd old (expires ▸ Nat.not_le_of_lt young)
    · obtain ⟨latest,its,addresses,_⟩ := backed.latest.lookup found
      cases Option.some.inj (its.symm.trans last)
      rw [eq,← addresses,same]

structure Exact (s : DnsCache) (views : List View) : Prop extends Backed s views where
  kept : Kept s

theorem keptActed {e : Op} {choice : Choice} {a : Answer e} (kept : Kept s) (backed : Backed s views)
    (room : s.cache.entries.length < s.cache.capacity) (acted : act s e choice = some (a,t)) : Kept t := by
  cases e with
  | lookup key =>
    cases choice <;> cases acted
    case run.refl => exact kept.lookup backed
    case poisoned.refl => exact kept
  | lookupHost host port => cases choice <;> cases acted <;> exact kept
  | store key addrs =>
    cases choice <;> cases acted
    case run.refl => exact kept.store room
    case poisoned.refl => exact kept

theorem resolvesExact {s : Resolves} (reach : Reach (poolStep world resolve) Unfilled ⟨{},[]⟩ s) :
    Agrees protocol ends fresh Exact s := by
  refine poolKeeps ⟨backedStart,fun _ _ none => by contradiction⟩ resolveFollows ?_ ?_ ?_ reach
  · exact fun query exact => ⟨backedSpawned query exact.toBacked,exact.kept⟩
  · intro s views i v task e next choice a shared exact here _ _ room allowed acted
    obtain ⟨w,moved,backed⟩ := backedActed exact.toBacked here allowed acted
    exact ⟨w,moved,backed,keptActed exact.kept exact.toBacked room acted⟩
  · intro s views choice shared exact _ drifted
    refine ⟨backedDrifted exact.toBacked drifted,?_⟩
    change drift s.shared choice = some shared at drifted
    cases choice <;> try contradiction
    cases Option.some.inj drifted
    exact fun key stored last young => exact.kept key stored last (Nat.lt_of_le_of_lt (Nat.le_add_right _ _) young)

theorem lookupIsFreshAnswer {s : Resolves} (reach : Reach (poolStep world resolve) Unfilled ⟨{},[]⟩ s) :
    (lookup s.shared key).1 = freshAnswer s.shared key := by
  obtain ⟨views,_,exact⟩ := resolvesExact reach
  exact exact.kept.answers exact.toBacked

theorem lookupIsFreshAnswerOnce : ∃ s t : Resolves, Reach (poolStep world resolve) Unfilled ⟨{},[]⟩ s ∧
    Reach (poolStep world resolve) Unfilled ⟨{},[]⟩ t ∧ (lookup s.shared (cacheKey ['h'] 443)).1 = some [⟨.v4 ⟨203,0,113,9⟩,443⟩] ∧
    (lookup t.shared (cacheKey ['h'] 443)).1 = none := by
  have ran : (checked (poolStep world resolve) Unfilled ⟨{},[]⟩ twoResolves).any (fun s =>
      decide (freshAnswer s.shared (cacheKey ['h'] 443) = some [⟨.v4 ⟨203,0,113,9⟩,443⟩])) = true := by
    decide +kernel
  have later : (checked (poolStep world resolve) Unfilled ⟨{},[]⟩ (twoResolves ++ ([.drift (.pass 1)] : List (Label Query Choice)))).any (fun s =>
      decide (freshAnswer s.shared (cacheKey ['h'] 443) = none)) = true := by
    decide +kernel
  obtain ⟨s,reach,found⟩ := checkedReaches ran
  obtain ⟨t,reached,missed⟩ := checkedReaches later
  have found := of_decide_eq_true found
  have missed := of_decide_eq_true missed
  exact ⟨s,t,reach,reached,(lookupIsFreshAnswer reach).trans found,(lookupIsFreshAnswer reached).trans missed⟩

end Exact

end KanoTls.Dns
