import KanoTls.Number
import KanoTls.Config

/-! `script.rs`: the parser of a traffic script. An entry is text of the user; a fault is a
refusal with its message, or the panic of an arithmetic overflow. -/
namespace KanoTls.Script
open Text Number
open Config (trim)

section Loop
variable {σ α β ε : Type} {x : Except ε α} {f : α → Except ε β} {b : β} {step other : σ → α → Except ε σ} {s t : σ} {xs : List α} {error : ε}

theorem bindOk (ran : x >>= f = .ok b) : ∃ a, x = .ok a ∧ f a = .ok b := by
  cases x with
  | error error => contradiction
  | ok a => exact ⟨a,rfl,ran⟩

theorem bindFails (failed : x >>= f = .error error) : x = .error error ∨ ∃ a, x = .ok a ∧ f a = .error error := by
  cases x with
  | error found => exact .inl (congrArg Except.error (Except.error.inj failed))
  | ok a => exact .inr ⟨a,rfl,failed⟩

theorem loopKeeps {I : List α → σ → Prop} (base : I [] s)
    (keeps : ∀ {front s x t}, I front s → step s x = .ok t → I (front ++ [x]) t) (ran : xs.foldlM step s = .ok t) :
    I xs t := by
  have along : ∀ (xs front : List α) (s : σ), I front s → xs.foldlM step s = .ok t → I (front ++ xs) t := by
    intro xs
    induction xs with
    | nil =>
      intro front s here ran
      cases ran
      rwa [List.append_nil]
    | cons x rest ih =>
      intro front s here ran
      rw [List.foldlM_cons] at ran
      cases first : step s x with
      | error _ =>
        rw [first] at ran
        contradiction
      | ok next =>
        rw [first] at ran
        have later := ih (front ++ [x]) next (keeps here first) ran
        rwa [List.append_assoc] at later
  exact along xs [] s base ran

theorem loopFails : xs.foldlM step s = .error error ↔ ∃ front x back t, xs = front ++ x::back ∧
    front.foldlM step s = .ok t ∧ step t x = .error error := by
  induction xs generalizing s with
  | nil =>
    constructor
    · intro failed
      contradiction
    · rintro ⟨front,x,back,_,same,_⟩
      exact absurd same (by simp)
  | cons x rest ih =>
    rw [List.foldlM_cons]
    cases first : step s x with
    | error found =>
      constructor
      · intro failed
        cases failed
        exact ⟨[],x,rest,s,rfl,rfl,first⟩
      · rintro ⟨front,y,back,t,same,before,failed⟩
        cases front with
        | nil =>
          cases same
          cases before
          exact first.symm.trans failed
        | cons z front =>
          cases same
          rw [List.foldlM_cons,first] at before
          contradiction
    | ok next =>
      refine (ih (s := next)).trans ?_
      constructor
      · rintro ⟨front,y,back,t,rfl,before,failed⟩
        refine ⟨x::front,y,back,t,rfl,?_,failed⟩
        rw [List.foldlM_cons,first]
        exact before
      · rintro ⟨front,y,back,t,same,before,failed⟩
        cases front with
        | nil =>
          cases same
          cases before
          exact absurd (first.symm.trans failed) (by simp)
        | cons z front =>
          cases same
          rw [List.foldlM_cons,first] at before
          exact ⟨front,y,back,t,rfl,before,failed⟩

theorem loopAgrees (agrees : ∀ s x, step s x ≠ .error error → other s x = step s x)
    (clear : xs.foldlM step s ≠ .error error) : xs.foldlM other s = xs.foldlM step s := by
  induction xs generalizing s with
  | nil => rfl
  | cons x rest ih =>
    rw [List.foldlM_cons] at clear ⊢
    rw [List.foldlM_cons]
    cases first : step s x with
    | error found =>
      rw [first] at clear
      rw [agrees s x (by rw [first]; exact clear),first]
      rfl
    | ok next =>
      rw [first] at clear
      rw [agrees s x (by rw [first]; simp),first]
      exact ih clear

end Loop

def maxDelayMedianMs : ℚ := 500
def maxDelaySigma : ℚ := 2
def maxFakeJitterOffset : Int := 64

inductive DelaySpec where
  | none
  | logNormal (muMs sigmaMs : F64)
  deriving DecidableEq

structure ScriptRule where
  lenLo : Nat
  lenHi : Nat
  lenPinned : Bool
  delay : DelaySpec
  expectResponses : Nat
  fakeJitter : Int
  deriving DecidableEq

structure ParsedScript where
  rules : List ScriptRule
  stop : Nat
  deriving DecidableEq

inductive ScriptError where
  | emptyEntry
  | missingEquals (line : Text)
  | duplicateStop
  | badStop (body : Text) (error : IntErrorKind)
  | stopZero
  | badIndex (head : Text) (error : IntErrorKind)
  | outOfOrder (index expected : Nat)
  | noRules
  | unknownField (part : Text)
  | missingLen (body : Text)
  | badInt (field : Text) (error : IntErrorKind)
  | badFloat (field : Text) (error : ParseFloatError)
  | lenOrder (lo hi : Nat)
  | medianValue (median : F64)
  | medianLimit (median : F64)
  | sigmaValue (sigma : F64)
  | sigmaLimit (sigma : F64)
  | jitterBound (jitter : Int)
  deriving DecidableEq

/- The message of an error; `float` prints an `f64`. -/
def ScriptError.message (float : F64 → Text) : ScriptError → Text
  | emptyEntry => "empty script entry".toList
  | missingEquals line => "entry '".toList ++ line ++ "' is missing '='".toList
  | duplicateStop => "duplicate stop entry".toList
  | badStop body error => "bad stop value '".toList ++ body ++ "': ".toList ++ error.display
  | stopZero => "stop must be >= 1".toList
  | badIndex head error => "bad rule index '".toList ++ head ++ "': ".toList ++ error.display
  | outOfOrder index expected =>
    "rule index ".toList ++ Nat.toDigits 10 index ++ " out of order (expected ".toList ++ Nat.toDigits 10 expected ++
      ")".toList
  | noRules => "script contains no rules".toList
  | unknownField part => "unknown field '".toList ++ part ++ "'".toList
  | missingLen body => "missing L field in '".toList ++ body ++ "'".toList
  | badInt field error => "bad ".toList ++ field ++ ": ".toList ++ error.display
  | badFloat field error => "bad ".toList ++ field ++ ": ".toList ++ error.display
  | lenOrder lo hi => "len_lo ".toList ++ Nat.toDigits 10 lo ++ " > len_hi ".toList ++ Nat.toDigits 10 hi
  | medianValue median =>
    "delay median '".toList ++ float median ++ "' must be a positive, finite number of milliseconds".toList
  | medianLimit median =>
    "delay median ".toList ++ float median ++ "ms exceeds the ".toList ++ float (.finite maxDelayMedianMs) ++
      "ms limit".toList
  | sigmaValue sigma => "delay sigma '".toList ++ float sigma ++ "' must be finite and >= 0".toList
  | sigmaLimit sigma =>
    "delay sigma ".toList ++ float sigma ++ " exceeds the ".toList ++ float (.finite maxDelaySigma) ++ " limit".toList
  | jitterBound jitter =>
    "fake jitter ".toList ++ (toString jitter).toList ++ " exceeds the ±".toList ++ (toString maxFakeJitterOffset).toList ++
      " record bound".toList

inductive Fault where
  | refused (error : ScriptError)
  | panicked
  deriving DecidableEq

def refuse {α : Type} (error : ScriptError) : Except Fault α := .error (.refused error)

def intField {α : Type} (field : String) : Except IntErrorKind α → Except Fault α
  | .ok value => .ok value
  | .error error => refuse (.badInt field.toList error)

def floatField (field : String) : Except ParseFloatError F64 → Except Fault F64
  | .ok value => .ok value
  | .error error => refuse (.badFloat field.toList error)

/- How the crate was built: whether an overflow panics or wraps around, and the `ln` of the
platform. -/
structure Build where
  overflowChecks : Bool
  ln : F64 → F64

section Parser
variable (build : Build)

/- `i32::abs` has no value for the least number. -/
def absI32 (n : Int) : Except Fault Int :=
  if n = i32Min then (if build.overflowChecks then .error .panicked else .ok i32Min) else .ok |n|

def parseFakeSpec (rest : Text) : Except Fault (Nat × Int) :=
  match splitOnce '?' rest with
  | some (countText,jitterText) => do
    let count ← intField "fake count" (parseU8 (trim countText))
    let jitter ← intField "fake jitter" (parseI32 (trim jitterText))
    let size ← absI32 build jitter
    if size > maxFakeJitterOffset then refuse (.jitterBound jitter) else .ok (count,jitter)
  | none => do
    let count ← intField "fake" (parseU8 (trim rest))
    .ok (count,0)

def medianMsToMu (median : F64) : Except Fault F64 :=
  if !median.isFinite || median.le 0 then refuse (.medianValue median)
  else if median.gt maxDelayMedianMs then refuse (.medianLimit median)
  else .ok (build.ln median)

def defaultSigma : F64 := .finite (1/2)

def parseDelaySpec (rest : Text) : Except Fault DelaySpec :=
  if (parseF64 rest).toOption.any F64.eqZero then .ok .none
  else match splitOnce '-' rest with
    | some (medianText,sigmaText) => do
      let median ← floatField "delay median" (parseF64 (trim medianText))
      let sigma ← floatField "delay sigma" (parseF64 (trim sigmaText))
      if !sigma.isFinite || sigma.lt 0 then refuse (.sigmaValue sigma)
      else if sigma.gt maxDelaySigma then refuse (.sigmaLimit sigma)
      else do
        let mu ← medianMsToMu build median
        .ok (.logNormal mu sigma)
    | none => do
      let median ← floatField "delay" (parseF64 rest)
      let mu ← medianMsToMu build median
      .ok (.logNormal mu defaultSigma)

def parseLenSpec (rest : Text) : Except Fault (Nat × Nat × Bool) :=
  match splitOnce '-' rest with
  | some (loText,hiText) => do
    let lo ← intField "len_lo" (parseUsize (trim loText))
    let hi ← intField "len_hi" (parseUsize (trim hiText))
    if lo > hi then refuse (.lenOrder lo hi) else .ok (lo,hi,false)
  | none =>
    match splitOnce '?' rest with
    | some (baseText,rangeText) => do
      let base ← intField "len base" (parseUsize (trim baseText))
      let range ← intField "len range" (parseUsize (trim rangeText))
      .ok (base,min (base + range) usizeMax,true)
    | none => do
      let fixed ← intField "fixed len" (parseUsize (trim rest))
      .ok (fixed,fixed,false)

/- What the fields of a rule set so far; a later field replaces an earlier one. -/
structure Fields where
  lenRange : Option (Nat × Nat × Bool) := none
  delay : DelaySpec := .none
  fakeResponse : Nat := 0
  fakeJitter : Int := 0
  deriving DecidableEq

def parsePart (fields : Fields) (text : Text) : Except Fault Fields :=
  let part := trim text
  match stripPrefix ['L',':'] part with
  | some rest => do
    let range ← parseLenSpec (trim rest)
    .ok {fields with lenRange := some range}
  | none =>
    match stripPrefix ['D',':'] part with
    | some rest => do
      let delay ← parseDelaySpec build (trim rest)
      .ok {fields with delay := delay}
    | none =>
      match stripPrefix ['F',':'] part with
      | some rest => do
        let (count,jitter) ← parseFakeSpec build (trim rest)
        .ok {fields with fakeResponse := count,fakeJitter := jitter}
      | none => refuse (.unknownField part)

def parseRuleBody (body : Text) : Except Fault ScriptRule := do
  let fields ← (split ',' body).foldlM (parsePart build) {}
  match fields.lenRange with
  | none => refuse (.missingLen body)
  | some (lenLo,lenHi,lenPinned) =>
    .ok ⟨lenLo,lenHi,lenPinned,fields.delay,fields.fakeResponse,fields.fakeJitter⟩

def stopText : Text := ['s','t','o','p']

abbrev Entries := List ScriptRule × Option Nat

def parseEntry (entries : Entries) (text : Text) : Except Fault Entries :=
  let line := trim text
  if line = [] then refuse .emptyEntry else
  match splitOnce '=' line with
  | none => refuse (.missingEquals line)
  | some (headText,bodyText) =>
    let head := trim headText
    let body := trim bodyText
    if head = stopText then
      if entries.2.isSome then refuse .duplicateStop else
      match parseU64 body with
      | .error error => refuse (.badStop body error)
      | .ok n => if n = 0 then refuse .stopZero else .ok (entries.1,some n)
    else
      match parseUsize head with
      | .error error => refuse (.badIndex head error)
      | .ok index =>
        if index ≠ entries.1.length then refuse (.outOfOrder index entries.1.length)
        else do
          let rule ← parseRuleBody build body
          .ok (entries.1 ++ [rule],entries.2)

def parseTrafficScript (lines : List Text) : Except Fault ParsedScript := do
  let entries ← lines.foldlM (parseEntry build) ([],none)
  if entries.1 = [] then refuse .noRules else .ok ⟨entries.1,entries.2.getD entries.1.length⟩

end Parser

end KanoTls.Script
