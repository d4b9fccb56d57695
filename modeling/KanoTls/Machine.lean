import Mathlib.Logic.Basic
import Mathlib.Data.List.Basic

/-! Runs of a deterministic-per-label machine `step : σ → α → Option σ`. A label
names who moves and what the environment answers, so that every interleaving is
a list of labels. `Reach` keeps only the runs whose every step meets `ok`, a
condition on the state before the step and on the label. -/
namespace KanoTls.Machine

variable {σ α : Type}

inductive Reach (step : σ → α → Option σ) (ok : σ → α → Prop) (start : σ) : σ → Prop where
  | start : Reach step ok start start
  | next {s a t} (before : Reach step ok start s) (meets : ok s a)
      (moved : step s a = some t) : Reach step ok start t

def Always (_ : σ) (_ : α) : Prop := True

theorem reachInvariant {step : σ → α → Option σ} {ok : σ → α → Prop} {start : σ} {I : σ → Prop}
    (base : I start) (keeps : ∀ {s a t}, I s → ok s a → step s a = some t → I t)
    {s} (reach : Reach step ok start s) : I s := by
  induction reach with
  | start => exact base
  | next before meets moved ih => exact keeps ih meets moved

/- The run that reaches a state may be used again when the next step is judged:
an invariant may lean on another one that every reached state already has. -/
theorem reachInvariantFrom {step : σ → α → Option σ} {ok : σ → α → Prop} {start : σ} {I J : σ → Prop}
    (known : ∀ {s}, Reach step ok start s → J s) (base : I start)
    (keeps : ∀ {s a t}, J s → I s → ok s a → step s a = some t → I t)
    {s} (reach : Reach step ok start s) : I s := by
  induction reach with
  | start => exact base
  | next before meets moved ih => exact keeps (known before) ih meets moved

theorem reachWeaken {step : σ → α → Option σ} {ok weaker : σ → α → Prop} {start s : σ}
    (weaken : ∀ s a, ok s a → weaker s a) (reach : Reach step ok start s) :
    Reach step weaker start s := by
  induction reach with
  | start => exact .start
  | next before meets moved ih => exact .next ih (weaken _ _ meets) moved

theorem reachAfter {step : σ → α → Option σ} {ok : σ → α → Prop} {start s t : σ}
    (before : Reach step ok start s) (later : Reach step ok s t) : Reach step ok start t := by
  induction later with
  | start => exact before
  | next _ meets moved ih => exact .next ih meets moved

def checked (step : σ → α → Option σ) (ok : σ → α → Prop) [∀ s a, Decidable (ok s a)] : σ → List α → Option σ
  | s,[] => some s
  | s,a::rest => if ok s a then (step s a).bind (fun t => checked step ok t rest) else none

instance : DecidableRel (Always : σ → α → Prop) := fun _ _ => .isTrue trivial

theorem checkedReach {step : σ → α → Option σ} {ok : σ → α → Prop} [∀ s a, Decidable (ok s a)]
    {s t : σ} {labels : List α} (ran : checked step ok s labels = some t) : Reach step ok s t := by
  induction labels generalizing s with
  | nil =>
    cases Option.some.inj ran
    exact .start
  | cons a rest ih =>
    unfold checked at ran
    split at ran <;> try contradiction
    rename_i meets
    obtain ⟨u,moved,later⟩ := Option.bind_eq_some_iff.mp ran
    exact reachAfter (.next .start meets moved) (ih later)

theorem checkedReaches {step : σ → α → Option σ} {ok : σ → α → Prop} [∀ s a, Decidable (ok s a)]
    {start : σ} {labels : List α} {P : σ → Bool} (ran : (checked step ok start labels).any P = true) :
    ∃ s, Reach step ok start s ∧ P s = true := by
  obtain ⟨s,found,here⟩ := (Option.any_eq_true _ _).mp ran
  exact ⟨s,checkedReach found,here⟩

/- Whoever takes the labels of `mine`, in any order, comes to a step that meets `goal`
and is never stuck before it. No other label is needed on the way. -/
inductive Inevitable (step : σ → α → Option σ) (mine : α → Prop) (goal : σ → σ → Prop) : σ → Prop where
  | intro {s} (enabled : ∃ a t, mine a ∧ step s a = some t)
      (next : ∀ a t, mine a → step s a = some t → ¬ goal s t → Inevitable step mine goal t) :
      Inevitable step mine goal s

theorem inevitableByRank {step : σ → α → Option σ} {mine : α → Prop} {goal : σ → σ → Prop} {I : σ → Prop}
    (rank : σ → Nat) (enabled : ∀ {s}, I s → ∃ a t, mine a ∧ step s a = some t)
    (lowers : ∀ {s a t}, I s → mine a → step s a = some t → goal s t ∨ (I t ∧ rank t < rank s))
    {s} (here : I s) : Inevitable step mine goal s := by
  induction bound : rank s using Nat.strongRecOn generalizing s with
  | _ n ih =>
    refine .intro (enabled here) ?_
    intro a t mine moved unmet
    obtain ⟨kept,lower⟩ := (lowers here mine moved).resolve_left unmet
    exact ih (rank t) (bound ▸ lower) kept rfl

theorem inevitableMono {step : σ → α → Option σ} {mine : α → Prop} {goal later : σ → σ → Prop} {I : σ → Prop}
    (keeps : ∀ {s a t}, I s → mine a → step s a = some t → I t) (implies : ∀ {s t}, I t → goal s t → later s t)
    {s} (here : I s) (inevitable : Inevitable step mine goal s) : Inevitable step mine later s := by
  induction inevitable with
  | intro enabled _ ih =>
    refine .intro enabled ?_
    intro a t label moved unmet
    have kept := keeps here label moved
    exact ih a t label moved (fun met => unmet (implies kept met)) kept

theorem neverWhenStuck {step : σ → α → Option σ} {mine : α → Prop} {goal : σ → σ → Prop} {s : σ}
    (stuck : ∀ a, mine a → step s a = none) : ¬ Inevitable step mine goal s := by
  intro inevitable
  obtain ⟨⟨a,t,mine,moved⟩,_⟩ := inevitable
  exact absurd ((stuck a mine).symm.trans moved) (by simp)

end KanoTls.Machine
