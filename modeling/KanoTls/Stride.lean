import Mathlib.Data.Nat.Init

/-! Positions that follow one another: each one says how long it is, and the next begins
behind it as long as it is whole. -/
namespace KanoTls

inductive Stride (first : Nat) (size : Nat → Nat) (whole : Nat → Prop) : Nat → Prop where
  | first : Stride first size whole first
  | next {o : Nat} (before : Stride first size whole o) (fits : whole o) : Stride first size whole (o + size o)

namespace Stride
variable {first : Nat} {size size' : Nat → Nat} {whole whole' : Nat → Prop}

theorem least {o : Nat} (here : Stride first size whole o) : first ≤ o := by
  induction here with
  | first => exact Nat.le_refl _
  | next _ _ before => exact Nat.le_trans before (Nat.le_add_right _ _)

theorem apart (positive : ∀ o, 0 < size o) {p q : Nat} (here : Stride first size whole p) (there : Stride first size whole q)
    (before : p < q) : p + size p ≤ q ∧ whole p := by
  induction q using Nat.strongRecOn generalizing p with
  | _ q ih =>
    cases there with
    | first => exact absurd here.least (Nat.not_le.mpr before)
    | next previous fits =>
      rename_i o
      have shorter := positive o
      rcases Nat.lt_trichotomy p o with less | rfl | more
      · obtain ⟨behind,ok⟩ := ih o (by omega) here previous less
        exact ⟨by omega,ok⟩
      · exact ⟨Nat.le_refl _,fits⟩
      · -- Between a position and the next one there is none.
        have passed := (ih p before previous here more).1
        omega

theorem congr {o : Nat} (here : Stride first size whole o) (sizes : ∀ o, Stride first size whole o → size' o = size o)
    (wholes : ∀ o, Stride first size whole o → whole o → whole' o) : Stride first size' whole' o := by
  induction here with
  | first => exact .first
  | next before fits ih =>
    rw [← sizes _ before]
    exact .next ih (wholes _ before fits)

theorem congrBack {o : Nat} (here : Stride first size' whole' o) (sizes : ∀ o, Stride first size whole o → size' o = size o)
    (wholes : ∀ o, Stride first size whole o → whole' o → whole o) : Stride first size whole o := by
  induction here with
  | first => exact .first
  | next before fits ih =>
    rw [sizes _ ih]
    exact .next ih (wholes _ ih fits)

end Stride

end KanoTls
