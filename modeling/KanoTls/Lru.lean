import Mathlib.Data.List.DropRight

/-! A cache with a capacity and a use order: the most recently used entry comes first. -/
namespace KanoTls.Lru
variable {κ α : Type} [DecidableEq κ]

structure Cache (κ α : Type) where
  capacity : Nat
  entries : List (κ × α)

namespace Cache

def lookup (cache : Cache κ α) (key : κ) : Option α := (cache.entries.find? (fun e => e.1 = key)).map Prod.snd

def contains (cache : Cache κ α) (key : κ) : Bool := (cache.lookup key).isSome

def promote (cache : Cache κ α) (key : κ) (value : α) : Cache κ α :=
  { cache with entries := (key,value)::cache.entries.filter (fun e => e.1 ≠ key) }

def get (cache : Cache κ α) (key : κ) : Option α × Cache κ α :=
  match cache.lookup key with
  | none => (none,cache)
  | some value => (some value,cache.promote key value)

def put (cache : Cache κ α) (key : κ) (value : α) : Cache κ α :=
  if cache.contains key then cache.promote key value
  else if cache.entries.length < cache.capacity then { cache with entries := (key,value)::cache.entries }
  else { cache with entries := (key,value)::cache.entries.dropLast }

def pop (cache : Cache κ α) (key : κ) : Cache κ α := { cache with entries := cache.entries.filter (fun e => e.1 ≠ key) }

def expire (cache : Cache κ α) (stale : α → Bool) : Cache κ α :=
  { cache with entries := cache.entries.rdropWhile (fun e => stale e.2) }

def roomy (cache : Cache κ α) (key : κ) : Bool := cache.contains key || cache.entries.length < cache.capacity

variable {cache : Cache κ α} {key other : κ} {value : α}

theorem lookupPromote : (cache.promote key value).lookup key = some value := by
  rw [lookup,promote,List.find?_cons_of_pos (by simp)]
  rfl

theorem lookupPromoteOther (differ : other ≠ key) : (cache.promote key value).lookup other = cache.lookup other := by
  rw [lookup,promote,List.find?_cons_of_neg (by simpa using differ.symm),List.find?_filter,lookup]
  congr 2
  funext e
  by_cases same : e.1 = other
  · simp [same,differ]
  · simp [same]

theorem lookupGet : (cache.get key).2.lookup other = cache.lookup other := by
  cases found : cache.lookup key with
  | none => rw [get,found]
  | some value =>
    rw [get,found]
    by_cases same : other = key
    · rw [same,lookupPromote,found]
    · exact lookupPromoteOther same

theorem lookupPut : (cache.put key value).lookup key = some value := by
  rw [put]
  split
  · exact lookupPromote
  · split <;> (rw [lookup,List.find?_cons_of_pos (by simp)]; rfl)

theorem lookupPutOther (room : cache.roomy key = true) (differ : other ≠ key) :
    (cache.put key value).lookup other = cache.lookup other := by
  rw [put]
  split
  · exact lookupPromoteOther differ
  · rename_i absent
    have room : cache.entries.length < cache.capacity := by simpa [roomy,absent] using room
    rw [if_pos room,lookup,List.find?_cons_of_neg (by simpa using differ.symm),lookup]

theorem memPut (room : cache.roomy key = true) (absent : cache.contains key = false) :
    (cache.put key value).entries = (key,value)::cache.entries := by
  have room : cache.entries.length < cache.capacity := by simpa [roomy,absent] using room
  rw [put,absent,if_neg Bool.false_ne_true,if_pos room]

theorem containsOfMem (member : (key,value) ∈ cache.entries) : cache.contains key = true := by
  rw [contains,lookup,Option.isSome_map,List.find?_isSome]
  exact ⟨_,member,by simp⟩

theorem expireDrops {stale : α → Bool} {e : κ × α} (member : e ∈ cache.entries) (gone : e ∉ (cache.expire stale).entries) :
    stale e.2 = true := by
  have parts : (cache.expire stale).entries ++ cache.entries.rtakeWhile (fun e => stale e.2) = cache.entries :=
    List.rdropWhile_append_rtakeWhile
  rw [← parts] at member
  rcases List.mem_append.mp member with kept | dropped
  · exact absurd kept gone
  · exact List.mem_rtakeWhile_imp (p := fun e : κ × α => stale e.2) dropped

theorem lookupPopOther (differ : other ≠ key) : (cache.pop key).lookup other = cache.lookup other := by
  rw [lookup,pop,List.find?_filter,lookup]
  congr 2
  funext e
  by_cases same : e.1 = other
  · simp [same,differ]
  · simp [same]

theorem popSpare : (cache.pop key).entries.length ≤ cache.entries.length := List.length_filter_le _ _

theorem roomyOfSpare (spare : cache.entries.length < cache.capacity) : cache.roomy key = true := by
  rw [roomy,Bool.or_eq_true]
  exact .inr (by simpa using spare)

theorem roomyGet (spare : cache.entries.length < cache.capacity) : (cache.get key).2.roomy key = true := by
  cases found : cache.lookup key with
  | none =>
    rw [get,found]
    exact roomyOfSpare spare
  | some value =>
    rw [get,found,roomy,contains,lookupPromote]
    rfl

theorem getCapacity : (cache.get key).2.capacity = cache.capacity := by
  cases found : cache.lookup key <;> rw [get,found] <;> rfl

theorem putCapacity : (cache.put key value).capacity = cache.capacity := by
  rw [put]
  split
  · rfl
  · split <;> rfl

theorem roomyPop (spare : cache.entries.length < cache.capacity) : ((cache.get key).2.pop key).roomy key = true := by
  refine roomyOfSpare ?_
  have popped : ((cache.get key).2.pop key).entries = (cache.pop key).entries := by
    cases found : cache.lookup key with
    | none => rw [get,found]
    | some value => simp [get,found,pop,promote]
  have whole : ((cache.get key).2.pop key).capacity = cache.capacity := getCapacity
  rw [popped,whole]
  exact Nat.lt_of_le_of_lt popSpare spare

def All (P : κ → α → Prop) (cache : Cache κ α) : Prop := ∀ e ∈ cache.entries, P e.1 e.2

section All
variable {P : κ → α → Prop}

theorem All.lookup (all : All P cache) (found : cache.lookup key = some value) : P key value := by
  obtain ⟨e,first,rfl⟩ := Option.map_eq_some_iff.mp found
  have same : e.1 = key := by simpa using List.find?_some first
  exact same ▸ all e (List.mem_of_find?_eq_some first)

theorem All.pop (all : All P cache) : All P (cache.pop key) := fun e member => all e (List.mem_filter.mp member).1

theorem All.promote (all : All P cache) (here : P key value) : All P (cache.promote key value) := by
  intro e member
  rcases List.mem_cons.mp member with rfl | kept
  · exact here
  · exact all e (List.mem_filter.mp kept).1

theorem All.get (all : All P cache) : All P (cache.get key).2 := by
  cases found : cache.lookup key with
  | none => rwa [Cache.get,found]
  | some value =>
    rw [Cache.get,found]
    exact all.promote (all.lookup found)

/- What is put takes the place of the entry of its key; the others need only be looked at
under their own keys. -/
theorem All.replace (others : ∀ e ∈ cache.entries, e.1 ≠ key → P e.1 e.2) (here : P key value) : All P (cache.put key value) := by
  rw [Cache.put]
  split
  · intro e member
    rcases List.mem_cons.mp member with rfl | kept
    · exact here
    · obtain ⟨old,differ⟩ := List.mem_filter.mp kept
      exact others e old (by simpa using differ)
  · rename_i absent
    have differ {e : κ × α} (old : e ∈ cache.entries) : e.1 ≠ key := by
      rintro rfl
      exact absent (containsOfMem old)
    split
    · intro e member
      rcases List.mem_cons.mp member with rfl | kept
      · exact here
      · exact others e kept (differ kept)
    · intro e member
      rcases List.mem_cons.mp member with rfl | kept
      · exact here
      · have old := List.dropLast_subset _ kept
        exact others e old (differ old)

theorem All.put (all : All P cache) (here : P key value) : All P (cache.put key value) :=
  All.replace (fun e member _ => all e member) here

end All

def Bounded (cache : Cache κ α) : Prop := cache.entries.length ≤ cache.capacity

theorem promoteLength (found : cache.contains key = true) : (cache.promote key value).entries.length ≤ cache.entries.length := by
  obtain ⟨old,looked⟩ := Option.isSome_iff_exists.mp found
  obtain ⟨e,first,_⟩ := Option.map_eq_some_iff.mp looked
  have same : e.1 = key := by simpa using List.find?_some first
  have fewer : (cache.entries.filter (fun e => e.1 ≠ key)).length < cache.entries.length :=
    List.length_filter_lt_length_iff_exists.mpr ⟨e,List.mem_of_find?_eq_some first,by simp [same]⟩
  rw [promote,List.length_cons]
  exact fewer

theorem Bounded.get (bounded : Bounded cache) : Bounded (cache.get key).2 := by
  cases found : cache.lookup key with
  | none => rwa [Cache.get,found]
  | some value =>
    rw [Cache.get,found]
    exact Nat.le_trans (promoteLength (by rw [contains,found]; rfl)) bounded

theorem Bounded.pop (bounded : Bounded cache) : Bounded (cache.pop key) := Nat.le_trans popSpare bounded

theorem Bounded.put (bounded : Bounded cache) (room : 0 < cache.capacity) : Bounded (cache.put key value) := by
  rw [Cache.put]
  split
  · rename_i found
    exact Nat.le_trans (promoteLength found) bounded
  · split
    · rename_i spare
      exact spare
    · rw [Bounded,List.length_cons,List.length_dropLast]
      rw [Bounded] at bounded
      show cache.entries.length - 1 + 1 ≤ cache.capacity
      omega

theorem getFound : (cache.get key).1 = cache.lookup key := by
  cases found : cache.lookup key <;> rw [get,found]

end Cache

end KanoTls.Lru
