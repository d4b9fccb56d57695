import KanoTls.Patch

/-! A function as the machine runs it: an index out of bounds or an overflow stops the task,
a loop may use up the turns it is given, and otherwise there is a value or none. -/
namespace KanoTls

inductive Outcome (α : Type) where
  | panics | spins | absent | found (a : α)
  deriving DecidableEq, Repr

namespace Outcome
open Patch
variable {α β : Type}

def andThen : Outcome α → (α → Outcome β) → Outcome β
  | panics,_ => panics
  | spins,_ => spins
  | absent,_ => absent
  | found a,next => next a

instance : Monad Outcome where
  pure := found
  bind := andThen

/- The `?` operator. -/
def ofOption : Option α → Outcome α
  | none => absent
  | some a => found a

/- `let Some(a) = .. else`. -/
def attempt : Outcome α → Outcome (Option α)
  | panics => panics
  | spins => spins
  | absent => found none
  | found a => found (some a)

/- `a + b` and `a - b` of `usize`, whose largest value is `max`. -/
def add (max a b : Nat) : Outcome Nat := if a + b ≤ max then found (a + b) else panics
def sub (a b : Nat) : Outcome Nat := if b ≤ a then found (a - b) else panics

def checkedAdd (max a b : Nat) : Option Nat := if a + b ≤ max then some (a + b) else none
def checkedSub (a b : Nat) : Option Nat := if b ≤ a then some (a - b) else none
def saturatingAdd (max a b : Nat) : Nat := min (a + b) max

/- `list[i]` and `&list[range]`. -/
def index (list : List α) (i : Nat) : Outcome α := if inside : i < list.length then found list[i] else panics
def range (list : List α) (start stop : Nat) : Outcome (List α) :=
  if start ≤ stop ∧ stop ≤ list.length then found (slice list start stop) else panics

/- `list.split_at_mut(k)`. -/
def splitAt (list : List α) (k : Nat) : Outcome (List α × List α) :=
  if k ≤ list.length then found (list.take k,list.drop k) else panics

/- `list[start..stop].copy_from_slice(chunk)`. -/
def copyFromSlice (list : List α) (start stop : Nat) (chunk : List α) : Outcome (List α) := do
  let target ← range list start stop
  if target.length = chunk.length then found (put list start chunk) else panics

/- `for range in ranges { list[range].fill(value) }`. -/
def fillRanges (value : α) : List (Nat × Nat) → List α → Outcome (List α)
  | [],list => found list
  | one::rest,list => do
    let _ ← range list one.1 one.2
    fillRanges value rest (fill value list one)

@[simp] theorem foundThen (a : α) (next : α → Outcome β) : (found a >>= next) = next a := rfl
@[simp] theorem ofSome (a : α) : ofOption (some a) = found a := rfl
@[simp] theorem attemptOption (one : Option α) : attempt (ofOption one) = found one := by
  cases one with
  | none => rfl
  | some a => rfl

section Fits
variable {max a b i : Nat} {list chunk : List α} {start stop : Nat}

theorem addFits (fits : a + b ≤ max) : add max a b = found (a + b) := if_pos fits
theorem subFits (fits : b ≤ a) : sub a b = found (a - b) := if_pos fits
theorem checkedFits (fits : a + b ≤ max) : checkedAdd max a b = some (a + b) := if_pos fits
theorem saturatingFits (fits : a + b ≤ max) : saturatingAdd max a b = a + b := Nat.min_eq_left fits

theorem rangeFits (ordered : start ≤ stop) (fits : stop ≤ list.length) :
    range list start stop = found (slice list start stop) := if_pos ⟨ordered,fits⟩

theorem splitFits {k : Nat} (fits : k ≤ list.length) : splitAt list k = found (list.take k,list.drop k) := if_pos fits

theorem copyFits (ordered : start ≤ stop) (fits : stop ≤ list.length) (size : chunk.length = stop - start) :
    copyFromSlice list start stop chunk = found (put list start chunk) := by
  rw [copyFromSlice,rangeFits ordered fits,foundThen,if_pos (by rw [sliceLength fits,size])]

theorem fillFits {value : α} {ranges : List (Nat × Nat)}
    (fit : ∀ range ∈ ranges, range.1 ≤ range.2 ∧ range.2 ≤ list.length) :
    fillRanges value ranges list = found (fillAll value list ranges) := by
  induction ranges generalizing list with
  | nil => rfl
  | cons one rest ih =>
    obtain ⟨ordered,within⟩ := fit one List.mem_cons_self
    have size := @fillLength _ value _ _ ordered within
    have later := @ih (fill value list one) (fun other member => by
      rw [size]
      exact fit other (List.mem_cons_of_mem _ member))
    rw [fillRanges,rangeFits ordered within,foundThen,later]
    rfl

end Fits

end Outcome

end KanoTls
