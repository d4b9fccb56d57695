import Mathlib.Data.List.AList
import Mathlib.Data.Finset.Card

/-! Counting the entries of a finite map. A key is there at most once, so an operation on
one key changes the count by what its old and its new value weigh. -/
namespace KanoTls.Entries

variable {α β : Type} {p : β → Bool} {m : AList (fun _ : α => β)} {a : α} {b : β}

def weight (p : β → Bool) (b : β) : Nat := if p b then 1 else 0

def countWhere (p : β → Bool) (m : AList (fun _ : α => β)) : Nat := m.entries.countP (fun e => p e.2)

def keysWhere [DecidableEq α] (p : β → Bool) (m : AList (fun _ : α => β)) : Finset α :=
  ((m.entries.filter (fun e => p e.2)).map (·.1)).toFinset

theorem countCons (e : (_ : α) × β) (rest : List ((_ : α) × β)) :
    (e::rest).countP (fun e => p e.2) = rest.countP (fun e => p e.2) + weight p e.2 := by
  rw [List.countP_cons,weight]

variable [DecidableEq α]

theorem countErase (found : m.lookup a = some b) : countWhere p m = countWhere p (m.erase a) + weight p b := by
  have member : (⟨a,b⟩ : (_ : α) × β) ∈ m.entries := AList.mem_lookup_iff.mp found
  obtain ⟨c,front,back,_,entries,erased⟩ := List.exists_of_kerase (List.mem_keys_of_mem member)
  have same : c = b := by
    refine m.nodupKeys.eq_of_mk_mem ?_ member
    rw [entries]
    exact List.mem_append_right _ List.mem_cons_self
  have rest : (m.erase a).entries = front ++ back := erased
  rw [countWhere,countWhere,rest,entries,List.countP_append,List.countP_append,countCons,same,Nat.add_assoc]

theorem countInsertNew (absent : m.lookup a = none) : countWhere p (m.insert a b) = countWhere p m + weight p b := by
  rw [countWhere,AList.entries_insert_of_notMem (AList.lookup_eq_none.mp absent),countCons]
  rfl

theorem countReplace {old : β} (found : m.lookup a = some old) :
    countWhere p (m.insert a b) + weight p old = countWhere p m + weight p b := by
  have rest : countWhere p (m.insert a b) = countWhere p (m.erase a) + weight p b := by
    rw [countWhere,AList.entries_insert,countCons]
    rfl
  rw [rest,countErase found]
  omega

theorem memKeysWhere : a ∈ keysWhere p m ↔ ∃ b, m.lookup a = some b ∧ p b = true := by
  simp only [keysWhere,List.mem_toFinset,List.mem_map,List.mem_filter]
  constructor
  · rintro ⟨⟨c,b⟩,⟨member,here⟩,rfl⟩
    exact ⟨b,AList.mem_lookup_iff.mpr member,here⟩
  · rintro ⟨b,found,here⟩
    exact ⟨⟨a,b⟩,⟨AList.mem_lookup_iff.mp found,here⟩,rfl⟩

theorem cardKeysWhere (p : β → Bool) (m : AList (fun _ : α => β)) : (keysWhere p m).card = countWhere p m := by
  have distinct : ((m.entries.filter (fun e => p e.2)).map (·.1)).Nodup := by
    refine List.Nodup.sublist ?_ m.nodupKeys
    exact List.filter_sublist.map _
  rw [keysWhere,List.toFinset_card_of_nodup distinct,List.length_map,countWhere,List.countP_eq_length_filter]

end KanoTls.Entries
