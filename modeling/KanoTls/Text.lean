import Mathlib.Data.List.TakeWhile

/-! Text as the standard library of the source has it: UTF-8, digits, the integer parser and
the splitting of strings. A string is the list of its characters. -/
namespace KanoTls.Text

abbrev Text := List Char

def toUtf8 (text : Text) : List UInt8 := text.flatMap String.utf8EncodeChar

def fromUtf8 (bytes : List UInt8) : Option Text := bytes.toByteArray.utf8Decode?.map Array.toList

section Utf8
variable {bytes front back : List UInt8} {text first second : Text}

theorem toUtf8Append (first second : Text) : toUtf8 (first ++ second) = toUtf8 first ++ toUtf8 second :=
  List.flatMap_append

theorem fromToUtf8 (text : Text) : fromUtf8 (toUtf8 text) = some text := by
  show (text.utf8Encode.utf8Decode?).map Array.toList = some text
  rw [List.utf8Decode?_utf8Encode]
  rfl

theorem fromUtf8Iff : fromUtf8 bytes = some text ↔ bytes = toUtf8 text := by
  constructor
  · intro decoded
    obtain ⟨chars,found,rfl⟩ := Option.map_eq_some_iff.mp decoded
    have whole : bytes.toByteArray = chars.toList.utf8Encode := by
      have back := @ByteArray.utf8Encode_get_utf8Decode? bytes.toByteArray (by rw [found]; rfl)
      simp only [found,Option.get_some] at back
      exact back.symm
    exact List.toByteArray_inj.mp whole
  · rintro rfl
    exact fromToUtf8 text

theorem fromUtf8Append (one : fromUtf8 front = some first) (two : fromUtf8 back = some second) :
    fromUtf8 (front ++ back) = some (first ++ second) := by
  rw [fromUtf8Iff] at one two ⊢
  rw [one,two,toUtf8Append]

end Utf8

/- `char::to_digit`. -/
def digitValue (ch : Char) : Option Nat :=
  if '0' ≤ ch ∧ ch ≤ '9' then some (ch.toNat - 48)
  else if 'a' ≤ ch ∧ ch ≤ 'z' then some (ch.toNat - 97 + 10)
  else if 'A' ≤ ch ∧ ch ≤ 'Z' then some (ch.toNat - 65 + 10)
  else none

def toDigit (radix : Nat) (ch : Char) : Option Nat := (digitValue ch).filter (· < radix)

def isDigit (radix : Nat) (ch : Char) : Bool := (toDigit radix ch).isSome

def valueFrom (radix acc : Nat) (digits : Text) : Nat :=
  digits.foldl (fun acc ch => acc * radix + (toDigit radix ch).getD 0) acc

section Digits
variable {radix n d acc : Nat} {ch : Char} {digits : Text}

theorem digitValueBack : ∀ d < 16, digitValue (Nat.digitChar d) = some d := by
  decide

theorem digitZero : ∀ d < 16, Nat.digitChar d = '0' → d = 0 := by
  decide

theorem digitBack (small : d < radix) (most : radix ≤ 16) : toDigit radix (Nat.digitChar d) = some d := by
  rw [toDigit,digitValueBack d (Nat.lt_of_lt_of_le small most)]
  exact Option.filter_some_pos (decide_eq_true small)

theorem digitsAll (least : 1 < radix) (most : radix ≤ 16) : ∀ ch ∈ Nat.toDigits radix n, isDigit radix ch = true := by
  induction n using Nat.strongRecOn with
  | _ n ih =>
    rw [Nat.toDigits_eq_if least]
    by_cases small : n < radix
    · rw [if_pos small]
      intro ch member
      rw [List.mem_singleton.mp member,isDigit,digitBack small most]
      rfl
    · rw [if_neg small]
      intro ch member
      rcases List.mem_append.mp member with front | last
      · exact ih (n / radix) (Nat.div_lt_self (by omega) least) ch front
      · rw [List.mem_singleton.mp last,isDigit,digitBack (Nat.mod_lt n (by omega)) most]
        rfl

theorem digitsValue (least : 1 < radix) (most : radix ≤ 16) : valueFrom radix 0 (Nat.toDigits radix n) = n := by
  induction n using Nat.strongRecOn with
  | _ n ih =>
    rw [Nat.toDigits_eq_if least]
    by_cases small : n < radix
    · rw [if_pos small]
      show 0 * radix + (toDigit radix (Nat.digitChar n)).getD 0 = n
      rw [digitBack small most,Nat.zero_mul,Nat.zero_add]
      rfl
    · have front := ih (n / radix) (Nat.div_lt_self (by omega) least)
      rw [valueFrom] at front
      rw [if_neg small,valueFrom,List.foldl_append,front]
      show n / radix * radix + (toDigit radix (Nat.digitChar (n % radix))).getD 0 = n
      rw [digitBack (Nat.mod_lt n (by omega)) most]
      exact Nat.div_add_mod' n radix

theorem digitsHead (least : 1 < radix) (most : radix ≤ 16) (zero : (Nat.toDigits radix n).head? = some '0') : n = 0 := by
  induction n using Nat.strongRecOn with
  | _ n ih =>
    rw [Nat.toDigits_eq_if least] at zero
    by_cases small : n < radix
    · rw [if_pos small] at zero
      exact digitZero n (Nat.lt_of_lt_of_le small most) (Option.some.inj zero)
    · have front : (Nat.toDigits radix (n / radix)).head? = some '0' := by
        cases digits : Nat.toDigits radix (n / radix) with
        | nil => exact absurd digits Nat.toDigits_ne_nil
        | cons first rest =>
          rw [if_neg small,digits] at zero
          exact zero
      have none := ih (n / radix) (Nat.div_lt_self (by omega) least) front
      exact absurd (Nat.div_eq_zero_iff.mp none) (by omega)

theorem valueGrows (least : 1 ≤ radix) : acc ≤ valueFrom radix acc digits := by
  induction digits generalizing acc with
  | nil => exact Nat.le_refl _
  | cons ch rest ih =>
    have more := @ih (acc * radix + (toDigit radix ch).getD 0)
    have grown : acc * 1 ≤ acc * radix := Nat.mul_le_mul_left acc least
    rw [valueFrom,List.foldl_cons]
    rw [valueFrom] at more
    omega

end Digits

inductive ParseIntError where
  | empty | invalidDigit | posOverflow
  deriving DecidableEq, Repr

/- The digits of `u16::from_str`, with the overflow checked at every one of them. -/
def parseU16From (acc : Nat) : Text → Except ParseIntError Nat
  | [] => .ok acc
  | ch::rest =>
    match toDigit 10 ch with
    | none => .error .invalidDigit
    | some d => if acc * 10 + d > 65535 then .error .posOverflow else parseU16From (acc * 10 + d) rest

def parseU16 (text : Text) : Except ParseIntError Nat :=
  if text = [] then .error .empty
  else if text = ['+'] ∨ text = ['-'] then .error .invalidDigit
  else if text.head? = some '+' then parseU16From 0 text.tail
  else parseU16From 0 text

section Integers
variable {acc n v : Nat} {text : Text}

theorem parseU16FromDigits (digits : ∀ ch ∈ text, isDigit 10 ch = true) (fits : valueFrom 10 acc text ≤ 65535) :
    parseU16From acc text = .ok (valueFrom 10 acc text) := by
  induction text generalizing acc with
  | nil => rfl
  | cons ch rest ih =>
    obtain ⟨d,digit⟩ := Option.isSome_iff_exists.mp (digits ch List.mem_cons_self)
    have shift : valueFrom 10 acc (ch::rest) = valueFrom 10 (acc * 10 + d) rest := by
      rw [valueFrom,List.foldl_cons,digit]
      rfl
    have grows := @valueGrows 10 (acc * 10 + d) rest (by decide)
    rw [shift] at fits ⊢
    rw [parseU16From,digit]
    dsimp only
    rw [if_neg (by omega)]
    exact ih (fun other member => digits other (List.mem_cons_of_mem _ member)) fits

theorem parseU16FromOnly (parsed : parseU16From acc text = .ok v) : ∀ ch ∈ text, isDigit 10 ch = true := by
  induction text generalizing acc with
  | nil =>
    intro ch member
    contradiction
  | cons first rest ih =>
    rw [parseU16From] at parsed
    cases digit : toDigit 10 first with
    | none =>
      rw [digit] at parsed
      contradiction
    | some d =>
      rw [digit] at parsed
      dsimp only at parsed
      by_cases large : acc * 10 + d > 65535
      · rw [if_pos large] at parsed
        contradiction
      · rw [if_neg large] at parsed
        intro ch member
        rcases List.mem_cons.mp member with rfl | later
        · rw [isDigit,digit]
          rfl
        · exact ih parsed ch later

theorem parseU16Digits (fits : n ≤ 65535) : parseU16 (Nat.toDigits 10 n) = .ok n := by
  have digits := @digitsAll 10 n (by decide) (by decide)
  have value := @digitsValue 10 n (by decide) (by decide)
  have parsed := parseU16FromDigits digits (by rw [value]; exact fits)
  rw [value] at parsed
  cases text : Nat.toDigits 10 n with
  | nil => exact absurd text Nat.toDigits_ne_nil
  | cons first rest =>
    rw [text] at digits parsed
    have digit := digits first List.mem_cons_self
    have plus : first ≠ '+' := fun same => by rw [same] at digit; exact absurd digit (by decide)
    have minus : first ≠ '-' := fun same => by rw [same] at digit; exact absurd digit (by decide)
    have unsigned : ¬ (first::rest).head? = some '+' := fun same => plus (Option.some.inj same)
    rw [parseU16,if_neg (List.cons_ne_nil _ _),if_neg,if_neg unsigned,parsed]
    rintro (same | same)
    · exact plus (List.cons.inj same).1
    · exact minus (List.cons.inj same).1

theorem parseU16Only (parsed : parseU16 text = .ok v) : ':' ∉ text := by
  have colon : isDigit 10 ':' = false := by decide
  intro member
  unfold parseU16 at parsed
  split at parsed
  · contradiction
  · split at parsed
    · contradiction
    · split at parsed
      · rename_i plus
        cases text with
        | nil => contradiction
        | cons first rest =>
          cases Option.some.inj plus
          rcases List.mem_cons.mp member with same | later
          · exact absurd same (by decide)
          · exact absurd (parseU16FromOnly parsed ':' later) (by rw [colon]; decide)
      · exact absurd (parseU16FromOnly parsed ':' member) (by rw [colon]; decide)

end Integers

def stripPrefix (front text : Text) : Option Text := if front.isPrefixOf text then some (text.drop front.length) else none

/- At the first `sep`: `find` and the two sides of it. -/
def splitOnce (sep : Char) : Text → Option (Text × Text)
  | [] => none
  | ch::rest => if ch = sep then some ([],rest) else (splitOnce sep rest).map (fun sides => (ch::sides.1,sides.2))

/- At the last `sep`. -/
def rsplitOnce (sep : Char) : Text → Option (Text × Text)
  | [] => none
  | ch::rest =>
    match rsplitOnce sep rest with
    | some sides => some (ch::sides.1,sides.2)
    | none => if ch = sep then some ([],rest) else none

section Split
variable {sep : Char} {text front back : Text}

theorem stripPrefixAppend (front back : Text) : stripPrefix front (front ++ back) = some back := by
  rw [stripPrefix,if_pos (List.isPrefixOf_iff_prefix.mpr (List.prefix_append front back)),List.drop_left]

theorem splitOnceAppend (absent : sep ∉ front) (back : Text) : splitOnce sep (front ++ sep::back) = some (front,back) := by
  induction front with
  | nil => exact if_pos rfl
  | cons ch rest ih =>
    have other : ch ≠ sep := fun same => absent (same ▸ List.mem_cons_self)
    have later := ih (fun member => absent (List.mem_cons_of_mem _ member))
    rw [List.cons_append,splitOnce,if_neg other,later]
    rfl

theorem splitOnceSome (split : splitOnce sep text = some (front,back)) : text = front ++ sep::back := by
  induction text generalizing front with
  | nil => contradiction
  | cons ch rest ih =>
    rw [splitOnce] at split
    by_cases here : ch = sep
    · rw [if_pos here] at split
      cases Option.some.inj split
      rw [here]
      rfl
    · rw [if_neg here] at split
      obtain ⟨sides,later,same⟩ := Option.map_eq_some_iff.mp split
      cases same
      exact congrArg (ch::·) (ih later)

theorem stripPrefixSome (stripped : stripPrefix front text = some back) : text = front ++ back := by
  obtain ⟨prefixed,rest⟩ := Option.ite_none_right_eq_some.mp stripped
  obtain ⟨more,rfl⟩ := List.isPrefixOf_iff_prefix.mp prefixed
  rw [List.drop_left] at rest
  rw [Option.some.inj rest]

theorem rsplitOnceNone (absent : sep ∉ text) : rsplitOnce sep text = none := by
  induction text with
  | nil => rfl
  | cons ch rest ih =>
    have other : ch ≠ sep := fun same => absent (same ▸ List.mem_cons_self)
    rw [rsplitOnce,ih (fun member => absent (List.mem_cons_of_mem _ member))]
    exact if_neg other

theorem rsplitOnceAppend (front : Text) (absent : sep ∉ back) : rsplitOnce sep (front ++ sep::back) = some (front,back) := by
  induction front with
  | nil =>
    rw [List.nil_append,rsplitOnce,rsplitOnceNone absent]
    exact if_pos rfl
  | cons ch rest ih => rw [List.cons_append,rsplitOnce,ih]

end Split

end KanoTls.Text
