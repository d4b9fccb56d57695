import KanoTls.Text
import Mathlib.Algebra.Order.Ring.Rat

/-! Numbers in text as the standard library of the source reads them: the pieces of a
`split`, the integers of any width and `f64`. -/
namespace KanoTls.Number
open Text

/- `str::split` on one character: never empty. -/
def split (sep : Char) : Text → List Text
  | [] => [[]]
  | ch::rest => if ch = sep then []::split sep rest else
    match split sep rest with
    | [] => [[ch]]
    | first::later => (ch::first)::later

inductive IntErrorKind where
  | empty | invalidDigit | posOverflow | negOverflow
  deriving DecidableEq, Repr

namespace IntErrorKind

def display : IntErrorKind → Text
  | empty => "cannot parse integer from empty string".toList
  | invalidDigit => "invalid digit found in string".toList
  | posOverflow => "number too large to fit in target type".toList
  | negOverflow => "number too small to fit in target type".toList

end IntErrorKind

/- The digits behind `acc`, checked against the bound at every one of them: `overflow` is
the error of the side. -/
def parseDigits (most : Nat) (overflow : IntErrorKind) (acc : Nat) : Text → Except IntErrorKind Nat
  | [] => .ok acc
  | ch::rest =>
    match toDigit 10 ch with
    | none => .error .invalidDigit
    | some d => if acc*10 + d > most then .error overflow else parseDigits most overflow (acc*10 + d) rest

def u8Max : Nat := 2^8 - 1
def u64Max : Nat := 2^64 - 1
def usizeMax : Nat := u64Max
def i32Max : Nat := 2^31 - 1
def i32Min : Int := -2^31

/- `from_str` of an unsigned integer: a sign must be `+` and cannot stand alone. -/
def parseUnsigned (most : Nat) (text : Text) : Except IntErrorKind Nat :=
  if text = [] then .error .empty
  else if text = ['+'] ∨ text = ['-'] then .error .invalidDigit
  else if text.head? = some '+' then parseDigits most .posOverflow 0 text.tail
  else parseDigits most .posOverflow 0 text

def parseU8 : Text → Except IntErrorKind Nat := parseUnsigned u8Max
def parseU64 : Text → Except IntErrorKind Nat := parseUnsigned u64Max
def parseUsize : Text → Except IntErrorKind Nat := parseUnsigned usizeMax

def parseI32 (text : Text) : Except IntErrorKind Int :=
  if text.head? = some '-' ∧ text ≠ ['-'] then
    (parseDigits (i32Max + 1) .negOverflow 0 text.tail).map (fun n => -(n : Int))
  else (parseUnsigned i32Max text).map (fun n => (n : Int))

section Bounds
variable {most acc n : Nat} {overflow : IntErrorKind} {text : Text}

theorem parseDigitsBound (small : acc ≤ most) (parsed : parseDigits most overflow acc text = .ok n) : n ≤ most := by
  induction text generalizing acc with
  | nil =>
    cases Except.ok.inj parsed
    exact small
  | cons ch rest ih =>
    rw [parseDigits] at parsed
    cases digit : toDigit 10 ch with
    | none =>
      rw [digit] at parsed
      contradiction
    | some d =>
      rw [digit] at parsed
      dsimp only at parsed
      split at parsed
      · contradiction
      · rename_i fits
        exact ih (Nat.not_lt.mp fits) parsed

theorem parseUnsignedBound (parsed : parseUnsigned most text = .ok n) : n ≤ most := by
  unfold parseUnsigned at parsed
  repeat' split at parsed
  all_goals first | contradiction | exact parseDigitsBound (Nat.zero_le _) parsed

end Bounds

/- The values of `f64`; the sign of a zero is left out, no comparison sees it. -/
inductive F64 where
  | nan
  | inf (negative : Bool)
  | finite (value : ℚ)
  deriving DecidableEq

namespace F64

def isFinite : F64 → Bool
  | finite _ => true
  | _ => false

def neg : F64 → F64
  | nan => nan
  | inf negative => inf (!negative)
  | finite value => finite (-value)

/- Comparisons with a constant; every one is false for NaN. -/
def eqZero : F64 → Bool
  | finite value => decide (value = 0)
  | _ => false
def le (bound : ℚ) : F64 → Bool
  | nan => false
  | inf negative => negative
  | finite value => decide (value ≤ bound)
def lt (bound : ℚ) : F64 → Bool
  | nan => false
  | inf negative => negative
  | finite value => decide (value < bound)
def gt (bound : ℚ) : F64 → Bool
  | nan => false
  | inf negative => !negative
  | finite value => decide (bound < value)

def mantissaDigits : Nat := 53
def minExponent : Int := -1074
def maxExponent : Nat := 1024

def roundEven (num den : Nat) : Nat :=
  let low := num / den
  let twice := 2*(num % den)
  if twice < den then low else if twice > den then low + 1 else low + low % 2

def shifted (num den : Nat) (power : Int) : Nat × Nat :=
  if power ≥ 0 then (num*2^power.toNat,den) else (num,den*2^(-power).toNat)

/- The nearest value to a nonnegative fraction: 53 digits, fewer for a subnormal one. -/
def rounded (num den : Nat) : F64 :=
  let guess : Int := (num.log2 : Int) - den.log2
  let level := shifted num den (-guess)
  let exponent := if level.1 < level.2 then guess - 1 else guess
  let unit := max (exponent - (mantissaDigits - 1)) minExponent
  let scaled := shifted num den (-unit)
  let value := shifted (roundEven scaled.1 scaled.2) 1 unit
  if num = 0 then finite 0
  else if value.1 ≥ value.2*2^maxExponent then inf false
  else finite (mkRat value.1 value.2)

end F64

inductive ParseFloatError where
  | empty | invalid
  deriving DecidableEq, Repr

def ParseFloatError.display : ParseFloatError → Text
  | empty => "cannot parse float from empty string".toList
  | invalid => "invalid float literal".toList

/- The exponent stops growing once it passes 65536, as in `parse_scientific`. -/
def parseScientific (text : Text) : Option Int :=
  let negative := text.head? = some '-'
  let digits := if text.head? = some '-' ∨ text.head? = some '+' then text.tail else text
  if digits ≠ [] ∧ digits.all (isDigit 10) then
    let n := digits.foldl (fun acc ch => if acc < 0x10000 then acc*10 + (toDigit 10 ch).getD 0 else acc) 0
    some (if negative then -(n : Int) else n)
  else none

def parseNumber (text : Text) : Option F64 :=
  let whole := text.takeWhile (isDigit 10)
  let behind := text.dropWhile (isDigit 10)
  let dotted := decide (behind.head? = some '.')
  let fraction := if dotted then behind.tail.takeWhile (isDigit 10) else []
  let rest := if dotted then behind.tail.dropWhile (isDigit 10) else behind
  let exponent : Option Int := if rest = [] then some 0
    else if rest.head? = some 'e' ∨ rest.head? = some 'E' then parseScientific rest.tail
    else none
  if whole ++ fraction = [] then none
  else exponent.map (fun exponent =>
    let power : Int := exponent - fraction.length
    let digits := valueFrom 10 0 (whole ++ fraction)
    if power ≥ 0 then F64.rounded (digits*10^power.toNat) 1 else F64.rounded digits (10^(-power).toNat))

def parseInfNan (text : Text) : Option F64 :=
  let lower := text.map Char.toLower
  if lower = "nan".toList then some .nan
  else if lower = "inf".toList ∨ lower = "infinity".toList then some (.inf false)
  else none

def parseF64 (text : Text) : Except ParseFloatError F64 :=
  if text = [] then .error .empty
  else
    let negative := decide (text.head? = some '-')
    let body := if negative ∨ text.head? = some '+' then text.tail else text
    match (parseNumber body).or (parseInfNan body) with
    | none => .error .invalid
    | some value => .ok (if negative then value.neg else value)

end KanoTls.Number
