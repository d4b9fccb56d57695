import Mathlib.Data.List.Forall2
import KanoTls.Machine

/-! Programs that call the operations of a shared state, one call at a time, and pools of
them in which any task may be the next to move. A protocol says which calls a program may
make where it stands; `Follows` is what a program owes it for every answer it can get. What
the calls of a protocol keep holds in every interleaving of programs that follow it. -/
namespace KanoTls
open Machine

inductive Program (ε : Type) (answer : ε → Type) (α : Type) where
  | done (result : α)
  | call (e : ε) (next : answer e → Program ε answer α)

namespace Program
variable {ε : Type} {answer : ε → Type} {α β ν : Type}

def bind : Program ε answer α → (α → Program ε answer β) → Program ε answer β
  | done result,rest => rest result
  | call e next,rest => call e (fun a => (next a).bind rest)

instance : Monad (Program ε answer) where
  pure := done
  bind := bind

/- The call that the program makes next, or what it has come back with. -/
def upcoming : Program ε answer α → Option ε
  | done _ => none
  | call e _ => some e

def outcome : Program ε answer α → Option α
  | done result => some result
  | call _ _ => none

theorem upcomingCall {program : Program ε answer α} {e : ε} (next : program.upcoming = some e) : ∃ rest, program = call e rest := by
  cases program with
  | done result => contradiction
  | call e rest =>
    cases Option.some.inj next
    exact ⟨rest,rfl⟩

theorem outcomeDone {program : Program ε answer α} {result : α} (finished : program.outcome = some result) : program = done result := by
  cases program with
  | done result =>
    cases Option.some.inj finished
    rfl
  | call e rest => contradiction

def perform (e : ε) : Program ε answer (answer e) := call e done

/- `after v e a` is where the program stands once `e` was answered with `a`, and `none` for an
answer that it cannot get there. -/
structure Protocol (ε : Type) (answer : ε → Type) (ν : Type) where
  allows : ν → ε → Prop
  after : ν → (e : ε) → answer e → Option ν

def Follows (p : Protocol ε answer ν) (ends : ν → α → Prop) : ν → Program ε answer α → Prop
  | v,done result => ends v result
  | v,call e next => p.allows v e ∧ ∀ a w, p.after v e a = some w → Follows p ends w (next a)

section Rules
variable {p : Protocol ε answer ν} {ends : ν → α → Prop} {v : ν}

theorem followsBind {ends : ν → β → Prop} {first : Program ε answer α} {rest : α → Program ε answer β}
    (follows : Follows p (fun w result => Follows p ends w (rest result)) v first) : Follows p ends v (first >>= rest) := by
  induction first generalizing v with
  | done result => exact follows
  | call e next ih => exact ⟨follows.1,fun a w moved => ih a (follows.2 a w moved)⟩

theorem followsPerform {e : ε} {ends : ν → answer e → Prop} (allowed : p.allows v e)
    (next : ∀ a w, p.after v e a = some w → ends w a) : Follows p ends v (perform e) := ⟨allowed,next⟩

theorem followsWeaken {weaker : ν → α → Prop} {first : Program ε answer α} (weaken : ∀ w result, ends w result → weaker w result)
    (follows : Follows p ends v first) : Follows p weaker v first := by
  induction first generalizing v with
  | done result => exact weaken _ _ follows
  | call e next ih => exact ⟨follows.1,fun a w moved => ih a (follows.2 a w moved)⟩

def onResult {δ : Type} (good : ν → α → Prop) (bad : ν → δ → Prop) (v : ν) : Except δ α → Prop
  | .ok a => good v a
  | .error e => bad v e

theorem followsThen {δ : Type} {good : ν → β → Prop} {bad : ν → δ → Prop} {first : ExceptT δ (Program ε answer) α}
    {rest : α → ExceptT δ (Program ε answer) β}
    (follows : Follows p (onResult (fun w a => Follows p (onResult good bad) w (rest a).run) bad) v first.run) :
    Follows p (onResult good bad) v (first >>= rest).run := by
  refine followsBind (followsWeaken ?_ follows)
  intro w result came
  cases result with
  | ok a => exact came
  | error e => exact came

theorem followsSeq {δ : Type} {middle : ν → α → Prop} {good : ν → β → Prop} {bad : ν → δ → Prop}
    {first : ExceptT δ (Program ε answer) α} {rest : α → ExceptT δ (Program ε answer) β}
    (follows : Follows p (onResult middle bad) v first.run)
    (next : ∀ w a, middle w a → Follows p (onResult good bad) w (rest a).run) :
    Follows p (onResult good bad) v (first >>= rest).run := by
  refine followsThen (followsWeaken ?_ follows)
  intro w result came
  cases result with
  | ok a => exact next w a came
  | error e => exact came

theorem followsLift {δ : Type} {good : ν → β → Prop} {bad : ν → δ → Prop} {first : Program ε answer α}
    {rest : α → ExceptT δ (Program ε answer) β}
    (follows : Follows p (fun w a => Follows p (onResult good bad) w (rest a).run) v first) :
    Follows p (onResult good bad) v (liftM first >>= rest : ExceptT δ (Program ε answer) β).run :=
  followsThen (followsBind (followsWeaken (fun _ _ came => came) follows))

theorem followsMap {δ : Type} {f : α → β} {good : ν → β → Prop} {bad : ν → δ → Prop} {first : ExceptT δ (Program ε answer) α}
    (follows : Follows p (onResult (fun w a => good w (f a)) bad) v first.run) :
    Follows p (onResult good bad) v (f <$> first).run := by
  refine followsBind (followsWeaken ?_ follows)
  intro w result came
  cases result with
  | ok a => exact came
  | error e => exact came

end Rules

/- What the calls do to the state they share, `choice` being what the environment decides.
`drift` are the moves of the environment itself. -/
structure World (ε : Type) (answer : ε → Type) (σ ω : Type) where
  act : σ → (e : ε) → ω → Option (answer e × σ)
  drift : σ → ω → Option σ

/- A task remembers what it was started for and which answers it got. -/
structure Task (κ ε : Type) (answer : ε → Type) (α : Type) where
  job : κ
  history : List ((e : ε) × answer e)
  program : Program ε answer α

structure Pool (κ ε : Type) (answer : ε → Type) (α σ : Type) where
  shared : σ
  tasks : List (Task κ ε answer α)

inductive Label (κ ω : Type) where
  | spawn (job : κ)
  | move (i : Nat) (choice : ω)
  | drift (choice : ω)

inductive Led (p : Protocol ε answer ν) (start : ν) : List ((e : ε) × answer e) → ν → Prop where
  | start : Led p start [] start
  | step {history v e a w} (before : Led p start history v) (allowed : p.allows v e) (moved : p.after v e a = some w) :
      Led p start (history ++ [⟨e,a⟩]) w

section Pools
variable {σ ω κ : Type} {world : World ε answer σ ω} {body : κ → Program ε answer α}

def poolStep (world : World ε answer σ ω) (body : κ → Program ε answer α) (s : Pool κ ε answer α σ) :
    Label κ ω → Option (Pool κ ε answer α σ)
  | .spawn job => some { s with tasks := s.tasks ++ [⟨job,[],body job⟩] }
  | .move i choice =>
    match s.tasks[i]? with
    | some ⟨job,history,call e next⟩ =>
      (world.act s.shared e choice).map (fun r => ⟨r.2,s.tasks.set i ⟨job,history ++ [⟨e,r.1⟩],next r.1⟩⟩)
    | _ => none
  | .drift choice => (world.drift s.shared choice).map (fun shared => { s with shared := shared })

variable {s t : Pool κ ε answer α σ} {i : Nat} {choice : ω}

theorem moveCases (moved : poolStep world body s (.move i choice) = some t) :
    ∃ job history e next a shared, s.tasks[i]? = some ⟨job,history,call e next⟩ ∧
      world.act s.shared e choice = some (a,shared) ∧ t = ⟨shared,s.tasks.set i ⟨job,history ++ [⟨e,a⟩],next a⟩⟩ := by
  unfold poolStep at moved
  dsimp only at moved
  split at moved
  · rename_i job history e next found
    obtain ⟨⟨a,shared⟩,acted,rfl⟩ := Option.map_eq_some_iff.mp moved
    exact ⟨job,history,e,next,a,shared,found,acted,rfl⟩
  · contradiction

theorem moveRuns {job : κ} {history : List ((e : ε) × answer e)} {e : ε} {next : answer e → Program ε answer α} {a : answer e}
    {shared : σ} (found : s.tasks[i]? = some ⟨job,history,call e next⟩) (acted : world.act s.shared e choice = some (a,shared)) :
    poolStep world body s (.move i choice) = some ⟨shared,s.tasks.set i ⟨job,history ++ [⟨e,a⟩],next a⟩⟩ := by
  unfold poolStep
  dsimp only
  rw [found]
  dsimp only
  rw [acted]
  rfl

structure Stands (p : Protocol ε answer ν) (ends : ν → α → Prop) (fresh : κ → ν) (v : ν) (task : Task κ ε answer α) : Prop where
  led : Led p (fresh task.job) task.history v
  owes : Follows p ends v task.program

def Agrees (p : Protocol ε answer ν) (ends : ν → α → Prop) (fresh : κ → ν) (inv : σ → List ν → Prop)
    (s : Pool κ ε answer α σ) : Prop :=
  ∃ views, List.Forall₂ (Stands p ends fresh) views s.tasks ∧ inv s.shared views

theorem forallSet {R : ν → α → Prop} {views : List ν} {tasks : List α} {w : ν} {b : α} (all : List.Forall₂ R views tasks)
    (here : R w b) (i : Nat) : List.Forall₂ R (views.set i w) (tasks.set i b) := by
  induction all generalizing i with
  | nil => exact .nil
  | cons first _ ih =>
    cases i with
    | zero => exact .cons here ‹_›
    | succ i => exact .cons first (ih i)

theorem forallGet {R : ν → α → Prop} {views : List ν} {tasks : List α} {b : α} (all : List.Forall₂ R views tasks)
    {i : Nat} (found : tasks[i]? = some b) : ∃ v, views[i]? = some v ∧ R v b := by
  induction all generalizing i with
  | nil => contradiction
  | cons first _ ih =>
    cases i with
    | zero =>
      cases Option.some.inj found
      exact ⟨_,rfl,first⟩
    | succ i => exact ih found

theorem countRelated {R : ν → α → Prop} {views : List ν} {tasks : List α} {p : ν → Bool} {q : α → Bool} (all : List.Forall₂ R views tasks)
    (implies : ∀ v b, R v b → q b = true → p v = true) : tasks.countP q ≤ views.countP p := by
  induction all with
  | nil => exact Nat.le_refl 0
  | @cons v b _ _ first _ ih =>
    rw [List.countP_cons,List.countP_cons]
    cases counts : q b with
    | false => exact Nat.le_trans ih (Nat.le_add_right _ _)
    | true =>
      rw [implies v b first counts]
      exact Nat.add_le_add_right ih 1

/- An invariant of the shared state and the views is one of every run: each call that the
protocol allows keeps it, in any task. -/
theorem poolKeeps {p : Protocol ε answer ν} {ends : ν → α → Prop} {fresh : κ → ν} {inv : σ → List ν → Prop}
    {ok : Pool κ ε answer α σ → Label κ ω → Prop} {start : σ} (base : inv start [])
    (starts : ∀ job, Follows p ends (fresh job) (body job))
    (spawned : ∀ {s views} job, inv s views → inv s (views ++ [fresh job]))
    (acted : ∀ {s : Pool κ ε answer α σ} {views i v task e next choice a shared}, inv s.shared views → views[i]? = some v →
      s.tasks[i]? = some task → task.program = call e next → ok s (.move i choice) → p.allows v e →
      world.act s.shared e choice = some (a,shared) → ∃ w, p.after v e a = some w ∧ inv shared (views.set i w))
    (drifted : ∀ {s : Pool κ ε answer α σ} {views choice shared}, inv s.shared views → ok s (.drift choice) →
      world.drift s.shared choice = some shared → inv shared views)
    (reach : Reach (poolStep world body) ok ⟨start,[]⟩ s) : Agrees p ends fresh inv s := by
  refine reachInvariant ⟨[],.nil,base⟩ ?_ reach
  intro s a t here meets moved
  obtain ⟨views,stand,holds⟩ := here
  cases a with
  | spawn job =>
    cases Option.some.inj moved
    exact ⟨views ++ [fresh job],List.rel_append stand (.cons ⟨.start,starts job⟩ .nil),spawned job holds⟩
  | move i choice =>
    obtain ⟨job,history,e,next,a,shared,found,answered,rfl⟩ := moveCases moved
    obtain ⟨v,seen,stands⟩ := forallGet stand found
    obtain ⟨w,after,kept⟩ := acted holds seen found rfl meets stands.owes.1 answered
    exact ⟨views.set i w,forallSet stand ⟨.step stands.led stands.owes.1 after,stands.owes.2 a w after⟩ i,kept⟩
  | drift choice =>
    obtain ⟨shared,answered,rfl⟩ := Option.map_eq_some_iff.mp moved
    exact ⟨views,stand,drifted holds meets answered⟩

end Pools

end Program

end KanoTls
