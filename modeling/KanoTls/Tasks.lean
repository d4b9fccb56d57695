import Mathlib.Algebra.BigOperators.Group.List.Basic
import Mathlib.Algebra.Order.BigOperators.Group.List
import Mathlib.Algebra.Order.Ring.Int

/-! A list of tasks of which one moves at a time. `total` adds a weight over all of
them; moving, starting or waking tasks changes it by what the task that moved weighs. -/
namespace KanoTls.Tasks

variable {τ : Type} {tasks : List τ} {i : Nat} {old new : τ}

def total (weight : τ → Int) (tasks : List τ) : Int := (tasks.map weight).sum

theorem totalSet (weight : τ → Int) (found : tasks[i]? = some old) :
    total weight (tasks.set i new) = total weight tasks - weight old + weight new := by
  induction tasks generalizing i with
  | nil => simp at found
  | cons head rest ih =>
    cases i with
    | zero =>
      rw [List.getElem?_cons_zero] at found
      cases Option.some.inj found
      simp only [total,List.set_cons_zero,List.map_cons,List.sum_cons]
      omega
    | succ i =>
      rw [List.getElem?_cons_succ] at found
      have rest := ih found
      simp only [total,List.set_cons_succ,List.map_cons,List.sum_cons] at rest ⊢
      omega

theorem totalAppend (weight : τ → Int) (more : List τ) :
    total weight (tasks ++ more) = total weight tasks + total weight more := by
  simp [total]

theorem totalCons (weight : τ → Int) : total weight (new::tasks) = weight new + total weight tasks := by
  simp [total]

theorem totalPush (weight : τ → Int) : total weight (tasks ++ [new]) = total weight tasks + weight new := by
  simp [total]

theorem totalMap (weight : τ → Int) {f : τ → τ} (same : ∀ a, weight (f a) = weight a) :
    total weight (tasks.map f) = total weight tasks := by
  simp only [total,List.map_map]
  congr 1
  exact List.map_congr_left (fun a _ => same a)

theorem totalNonneg {weight : τ → Int} (nonneg : ∀ a, 0 ≤ weight a) : 0 ≤ total weight tasks := by
  induction tasks with
  | nil => exact Int.le_refl 0
  | cons head rest ih =>
    have first := nonneg head
    simp only [total,List.map_cons,List.sum_cons] at ih ⊢
    omega

theorem weightLeTotal {weight : τ → Int} (nonneg : ∀ a, 0 ≤ weight a) (member : old ∈ tasks) :
    weight old ≤ total weight tasks := by
  induction tasks with
  | nil => contradiction
  | cons head rest ih =>
    have first := nonneg head
    have others : 0 ≤ total weight rest := totalNonneg nonneg
    simp only [total,List.map_cons,List.sum_cons] at ih others ⊢
    rcases List.mem_cons.mp member with rfl | later
    · omega
    · have := ih later
      omega

theorem totalMono {weight bound : τ → Int} (le : ∀ a, weight a ≤ bound a) : total weight tasks ≤ total bound tasks := by
  induction tasks with
  | nil => exact Int.le_refl 0
  | cons head rest ih =>
    have first := le head
    simp only [total,List.map_cons,List.sum_cons] at ih ⊢
    omega

theorem totalAdd (weight more : τ → Int) : total
    (fun a => weight a + more a) tasks = total weight tasks + total more tasks :=
  List.sum_map_add

theorem totalCongr {weight other : τ → Int} (same : ∀ a, weight a = other a) : total weight tasks = total other tasks := by
  rw [funext same]

theorem totalZero {weight : τ → Int} (zero : ∀ a ∈ tasks, weight a = 0) : total weight tasks = 0 := by
  have same : tasks.map weight = tasks.map (fun _ => 0) := List.map_congr_left zero
  rw [total,same]
  simp

theorem countSet (new : τ) (p : τ → Bool) (found : tasks[i]? = some old) :
    (tasks.set i new).countP p + (if p old then 1 else 0) = tasks.countP p + (if p new then 1 else 0) := by
  induction tasks generalizing i with
  | nil => simp at found
  | cons head rest ih =>
    cases i with
    | zero =>
      rw [List.getElem?_cons_zero] at found
      cases Option.some.inj found
      rw [List.set_cons_zero,List.countP_cons,List.countP_cons]
      omega
    | succ i =>
      rw [List.getElem?_cons_succ] at found
      have rest := ih found
      rw [List.set_cons_succ,List.countP_cons,List.countP_cons]
      omega

theorem everySet {P : τ → Prop} (every : ∀ a ∈ tasks, P a) (here : P new) : ∀ a ∈ tasks.set i new, P a := by
  intro a member
  rcases List.mem_or_eq_of_mem_set member with old | rfl
  · exact every a old
  · exact here

theorem everyPush {P : τ → Prop} (every : ∀ a ∈ tasks, P a) (here : P new) : ∀ a ∈ tasks ++ [new], P a := by
  intro a member
  rcases List.mem_append.mp member with old | fresh
  · exact every a old
  · rw [List.mem_singleton.mp fresh]
    exact here

theorem existsSet {P : τ → Prop} (found : tasks[i]? = some old) (stays : P old → P new) (there : ∃ a ∈ tasks, P a) :
    ∃ a ∈ tasks.set i new, P a := by
  obtain ⟨a,member,here⟩ := there
  obtain ⟨j,place⟩ := List.mem_iff_getElem?.mp member
  by_cases same : i = j
  · subst same
    cases Option.some.inj (found.symm.trans place)
    refine ⟨new,?_,stays here⟩
    have inside := (List.getElem?_eq_some_iff.mp found).1
    exact List.mem_of_getElem? (List.getElem?_set_self inside)
  · exact ⟨a,List.mem_of_getElem? ((List.getElem?_set_ne same).trans place),here⟩

theorem placeOfOne {p : τ → Bool} {j : Nat} {other : τ} (once : tasks.countP p ≤ 1) (found : tasks[i]? = some old)
    (also : tasks[j]? = some other) (here : p old = true) (there : p other = true) : i = j := by
  induction tasks generalizing i j with
  | nil => contradiction
  | cons head rest ih =>
    have some {k : Nat} {a : τ} (place : rest[k]? = some a) (counted : p a = true) : 0 < rest.countP p :=
      List.countP_pos_iff.mpr ⟨a,List.mem_of_getElem? place,counted⟩
    rw [List.countP_cons] at once
    cases i with
    | zero =>
      cases j with
      | zero => rfl
      | succ j =>
        rw [List.getElem?_cons_zero] at found
        rw [List.getElem?_cons_succ] at also
        cases Option.some.inj found
        have more := some also there
        rw [if_pos here] at once
        omega
    | succ i =>
      rw [List.getElem?_cons_succ] at found
      cases j with
      | zero =>
        rw [List.getElem?_cons_zero] at also
        cases Option.some.inj also
        have more := some found here
        rw [if_pos there] at once
        omega
      | succ j =>
        rw [List.getElem?_cons_succ] at also
        rw [ih (by omega) found also]

theorem sumSetGrows (weight : τ → Nat) (found : tasks[i]? = some old) (grows : weight old ≤ weight new) :
    (tasks.map weight).sum ≤ ((tasks.set i new).map weight).sum := by
  induction tasks generalizing i with
  | nil => simp at found
  | cons head rest ih =>
    cases i with
    | zero =>
      rw [List.getElem?_cons_zero] at found
      cases Option.some.inj found
      simp only [List.set_cons_zero,List.map_cons,List.sum_cons]
      omega
    | succ i =>
      rw [List.getElem?_cons_succ] at found
      have rest := ih found
      simp only [List.set_cons_succ,List.map_cons,List.sum_cons]
      omega

end KanoTls.Tasks
