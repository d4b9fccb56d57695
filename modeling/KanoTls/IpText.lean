import KanoTls.Text

/-! IP addresses as text: `Display` of `Ipv4Addr` and `Ipv6Addr` and the parser of
`std::net`. A reader returns what it read and what is left, or nothing with the input as it
was. -/
namespace KanoTls.IpText
open Text

structure Ipv4Addr where
  a : UInt8
  b : UInt8
  c : UInt8
  d : UInt8
  deriving DecidableEq, Repr

structure Ipv6Addr where
  segments : List UInt16
  eight : segments.length = 8
  deriving DecidableEq, Repr

inductive IpAddr where
  | v4 (ip : Ipv4Addr) | v6 (ip : Ipv6Addr)
  deriving DecidableEq, Repr

def decimal (n : Nat) : Text := Nat.toDigits 10 n
def hex (segment : UInt16) : Text := Nat.toDigits 16 segment.toNat

def Ipv4Addr.display (ip : Ipv4Addr) : Text :=
  decimal ip.a.toNat ++ '.'::(decimal ip.b.toNat ++ '.'::(decimal ip.c.toNat ++ '.'::decimal ip.d.toNat))

def fmtSubslice : List UInt16 → Text
  | [] => []
  | first::tail => hex first ++ tail.flatMap (fun segment => ':'::hex segment)

structure Span where
  start : Nat := 0
  len : Nat := 0
  deriving DecidableEq, Repr

/- The longest run of zeros so far, and the run that the last segment ends. -/
def spanStep (longest current : Span) (i : Nat) (segment : UInt16) : Span × Span :=
  if segment = 0 then
    let current := { start := if current.len = 0 then i else current.start,len := current.len + 1 : Span }
    (if current.len > longest.len then current else longest,current)
  else (longest,{})

def zeroesFrom (longest current : Span) (i : Nat) : List UInt16 → Span
  | [] => longest
  | segment::rest =>
    let next := spanStep longest current i segment
    zeroesFrom next.1 next.2 (i + 1) rest

def zeroes (segments : List UInt16) : Span := zeroesFrom {} {} 0 segments

def word (high low : UInt8) : UInt16 := UInt16.ofNat (high.toNat * 256 + low.toNat)

def highByte (segment : UInt16) : UInt8 := UInt8.ofNat (segment.toNat / 256)
def lowByte (segment : UInt16) : UInt8 := UInt8.ofNat segment.toNat

def toIpv4Mapped : List UInt16 → Option Ipv4Addr
  | [0,0,0,0,0,0xffff,high,low] => some ⟨highByte high,lowByte high,highByte low,lowByte low⟩
  | _ => none

def Ipv6Addr.display (ip : Ipv6Addr) : Text :=
  match toIpv4Mapped ip.segments with
  | some ipv4 => [':',':','f','f','f','f',':'] ++ ipv4.display
  | none =>
    let span := zeroes ip.segments
    if span.len > 1 then fmtSubslice (ip.segments.take span.start) ++ [':',
      ':'] ++ fmtSubslice (ip.segments.drop (span.start + span.len))
    else fmtSubslice ip.segments

def readGivenChar (target : Char) : Text → Option Text
  | [] => none
  | ch::rest => if ch = target then some rest else none

/- `most` is the largest value of the type that is read. -/
def readNumber (radix maxDigits : Nat) (allowZeroPrefix : Bool) (most : Nat) (text : Text) : Option (Nat × Text) :=
  let digits := text.takeWhile (isDigit radix)
  if digits.length > maxDigits then none
  else if digits.length = 0 then none
  else if !allowZeroPrefix && text.head? = some '0' && digits.length > 1 then none
  else if valueFrom radix 0 digits > most then none
  else some (valueFrom radix 0 digits,text.dropWhile (isDigit radix))

/- The separator is read in front of everything but the first. -/
def readSeparator {α : Type} (sep : Char) (first : Bool) (inner : Text → Option (α × Text)) (text : Text) : Option
    (α × Text) :=
  if first then inner text else (readGivenChar sep text).bind inner

def readOctet (first : Bool) (text : Text) : Option (UInt8 × Text) :=
  (readSeparator '.' first (readNumber 10 3 false 255) text).map (fun found => (UInt8.ofNat found.1,found.2))

def readIpv4Addr (text : Text) : Option (Ipv4Addr × Text) := do
  let (a,text) ← readOctet true text
  let (b,text) ← readOctet false text
  let (c,text) ← readOctet false text
  let (d,text) ← readOctet false text
  some (⟨a,b,c,d⟩,text)

/- `read_groups` with `left` groups to go: the groups, whether an embedded IPv4 address ended
them, and the rest. -/
def readGroups : Nat → Bool → Text → List UInt16 × Bool × Text
  | 0,_,text => ([],false,text)
  | left+1,first,text =>
    match if 1 ≤ left then readSeparator ':' first readIpv4Addr text else none with
    | some (ipv4,rest) => ([word ipv4.a ipv4.b,word ipv4.c ipv4.d],true,rest)
    | none =>
      match readSeparator ':' first (readNumber 16 4 true 65535) text with
      | some (group,rest) =>
        let more := readGroups left false rest
        (UInt16.ofNat group::more.1,more.2)
      | none => ([],false,text)

def readIpv6Segments (text : Text) : Option (List UInt16 × Text) :=
  let head := readGroups 8 true text
  if head.1.length = 8 then some (head.1,head.2.2)
  else if head.2.1 then none
  else do
    let text ← readGivenChar ':' head.2.2
    let text ← readGivenChar ':' text
    let tail := readGroups (8 - (head.1.length + 1)) true text
    some (head.1 ++ List.replicate (8 - head.1.length - tail.1.length) 0 ++ tail.1,tail.2.2)

/- `parse::<IpAddr>`. -/
def parseIpAddr (text : Text) : Option IpAddr :=
  match readIpv4Addr text with
  | some (ip,rest) => if rest = [] then some (.v4 ip) else none
  | none =>
    match readIpv6Segments text with
    | some (segments,rest) => if eight : segments.length = 8 then if rest = [] then some (.v6 ⟨segments,
      eight⟩) else none else none
    | none => none

def Ends (radix : Nat) (text : Text) : Prop := ∀ ch, text.head? = some ch → isDigit radix ch = false

section Numbers
variable {radix maxDigits most n : Nat} {allow : Bool} {rest text : Text}

theorem takeEnds (ends : Ends radix rest) : rest.takeWhile (isDigit radix) = [] ∧ rest.dropWhile (isDigit radix) = rest := by
  cases rest with
  | nil => exact ⟨rfl,rfl⟩
  | cons ch more =>
    have no := ends ch rfl
    constructor
    · rw [List.takeWhile_cons,no]
      rfl
    · rw [List.dropWhile_cons,no]
      rfl

theorem readDigits (least : 1 < radix) (base : radix ≤ 16) (ends : Ends radix rest) (fits : n ≤ most)
    (short : (Nat.toDigits radix n).length ≤ maxDigits) :
    readNumber radix maxDigits allow most (Nat.toDigits radix n ++ rest) = some (n,rest) := by
  have all := @digitsAll radix n least base
  have value := @digitsValue radix n least base
  have taken : (Nat.toDigits radix n ++ rest).takeWhile (isDigit radix) = Nat.toDigits radix n := by
    rw [List.takeWhile_append_of_pos all,(takeEnds ends).1,List.append_nil]
  have dropped : (Nat.toDigits radix n ++ rest).dropWhile (isDigit radix) = rest := by
    rw [List.dropWhile_append_of_pos all,(takeEnds ends).2]
  have nonempty : ¬ (Nat.toDigits radix n).length = 0 := fun zero => Nat.toDigits_ne_nil (List.length_eq_zero_iff.mp zero)
  have leading : ¬ (!allow && decide ((Nat.toDigits radix n ++ rest).head? = some '0') &&
      decide ((Nat.toDigits radix n).length > 1)) = true := by
    intro padded
    simp only [Bool.and_eq_true,decide_eq_true_eq] at padded
    have head : (Nat.toDigits radix n).head? = some '0' := by
      cases digits : Nat.toDigits radix n with
      | nil => exact absurd digits Nat.toDigits_ne_nil
      | cons first more =>
        rw [digits] at padded
        exact padded.1.2
    rw [digitsHead least base head,Nat.toDigits_zero] at padded
    exact absurd padded.2 (by decide)
  rw [readNumber,taken,dropped,value,if_neg (by omega),if_neg nonempty,if_neg leading,if_neg (by omega)]

theorem readNone (ends : Ends radix text) : readNumber radix maxDigits allow most text = none := by
  rw [readNumber,(takeEnds ends).1]
  by_cases many : ([] : Text).length > maxDigits
  · rw [if_pos many]
  · rw [if_neg many,if_pos List.length_nil]

end Numbers

section V4
variable {rest text : Text} {ip : Ipv4Addr}

theorem dotEnds (rest : Text) : Ends 10 ('.'::rest) := by
  intro ch same
  cases Option.some.inj same
  decide

theorem readOctetBack (first : Bool) (octet : UInt8) (ends : Ends 10 rest) :
    readOctet first ((if first then [] else ['.']) ++ decimal octet.toNat ++ rest) = some (octet,rest) := by
  have small := octet.toNat_lt
  have read := @readDigits 10 3 255 octet.toNat false rest (by decide) (by decide) ends (by omega)
    ((Nat.length_toDigits_le_iff (by decide) (by decide)).mpr (by omega))
  have back : UInt8.ofNat octet.toNat = octet := UInt8.ofNat_toNat
  cases first with
  | true =>
    show (readNumber 10 3 false 255 (decimal octet.toNat ++ rest)).map _ = _
    rw [decimal,read,Option.map_some,back]
  | false =>
    show (readNumber 10 3 false 255 (decimal octet.toNat ++ rest)).map _ = _
    rw [decimal,read,Option.map_some,back]

theorem readIpv4Display (ip : Ipv4Addr) (ends : Ends 10 rest) : readIpv4Addr (ip.display ++ rest) = some (ip,rest) := by
  have one := @readOctetBack ('.'::(decimal ip.b.toNat ++ '.'::(decimal ip.c.toNat ++ '.'::(decimal ip.d.toNat ++ rest)))) true ip.a
    (dotEnds _)
  have two := @readOctetBack ('.'::(decimal ip.c.toNat ++ '.'::(decimal ip.d.toNat ++ rest))) false ip.b (dotEnds _)
  have three := @readOctetBack ('.'::(decimal ip.d.toNat ++ rest)) false ip.c (dotEnds _)
  have four := readOctetBack false ip.d ends
  simp only [if_true,Bool.false_eq_true,if_false,List.nil_append,List.cons_append] at one two three four
  have text : ip.display ++ rest =
      decimal ip.a.toNat ++ '.'::(decimal ip.b.toNat ++ '.'::(decimal ip.c.toNat ++ '.'::(decimal ip.d.toNat ++ rest))) := by
    simp only [Ipv4Addr.display,List.append_assoc,List.cons_append]
  rw [readIpv4Addr,text,one]
  dsimp only [Option.bind_eq_bind,Option.bind_some]
  rw [two]
  dsimp only [Option.bind_eq_bind,Option.bind_some]
  rw [three]
  dsimp only [Option.bind_eq_bind,Option.bind_some]
  rw [four]
  rfl

theorem noIpv4 (undotted : (text.dropWhile (isDigit 10)).head? ≠ some '.') : readIpv4Addr text = none := by
  rw [readIpv4Addr]
  cases first : readOctet true text with
  | none => rfl
  | some found =>
    obtain ⟨a,rest⟩ := found
    have left : rest = text.dropWhile (isDigit 10) := by
      obtain ⟨number,read,same⟩ := Option.map_eq_some_iff.mp first
      change readNumber 10 3 false 255 text = some number at read
      rw [readNumber] at read
      obtain ⟨_,read⟩ := Option.ite_none_left_eq_some.mp read
      obtain ⟨_,read⟩ := Option.ite_none_left_eq_some.mp read
      obtain ⟨_,read⟩ := Option.ite_none_left_eq_some.mp read
      obtain ⟨_,read⟩ := Option.ite_none_left_eq_some.mp read
      rw [← Option.some.inj read] at same
      exact (congrArg Prod.snd same).symm
    have second : readOctet false rest = none := by
      rw [left]
      cases after : text.dropWhile (isDigit 10) with
      | nil => rfl
      | cons ch more =>
        rw [after] at undotted
        have other : ch ≠ '.' := fun same => undotted (congrArg some same)
        show ((if ch = '.' then some more else none : Option Text).bind (readNumber 10 3 false 255)).map _ = _
        rw [if_neg other]
        rfl
    dsimp only [Option.bind_eq_bind,Option.bind_some]
    rw [second]
    rfl

end V4

section V6
variable {rest text : Text} {groups segments done : List UInt16} {first : Bool} {left i : Nat} {longest current : Span}

def ColonOrEnd (text : Text) : Prop := ∀ ch, text.head? = some ch → ch = ':'

theorem colonEnds {radix : Nat} (colon : ColonOrEnd text) : Ends radix text := by
  intro ch here
  rw [colon ch here,isDigit,toDigit]
  have none : digitValue ':' = none := by decide
  rw [none]
  rfl

theorem hexDigits (segment : UInt16) : ∀ ch ∈ hex segment, isDigit 16 ch = true := digitsAll (by decide) (by decide)

theorem noDot {digits : Text} (all : ∀ ch ∈ digits, isDigit 16 ch = true) (colon : ColonOrEnd rest) :
    ((digits ++ rest).dropWhile (isDigit 10)).head? ≠ some '.' := by
  induction digits with
  | nil =>
    rw [List.nil_append,(takeEnds (colonEnds colon)).2]
    intro dot
    exact absurd (colon '.' dot) (by decide)
  | cons ch more ih =>
    rw [List.cons_append,List.dropWhile_cons]
    cases digit : isDigit 10 ch with
    | true =>
      rw [if_pos rfl]
      exact ih (fun other member => all other (List.mem_cons_of_mem _ member))
    | false =>
      rw [if_neg (by decide)]
      intro dot
      have hexadecimal := all ch List.mem_cons_self
      rw [Option.some.inj dot] at hexadecimal
      exact absurd hexadecimal (by decide)

theorem readHex (segment : UInt16) (colon : ColonOrEnd rest) :
    readNumber 16 4 true 65535 (hex segment ++ rest) = some (segment.toNat,rest) := by
  have small := segment.toNat_lt
  exact readDigits (by decide) (by decide) (colonEnds colon) (by omega)
    ((Nat.length_toDigits_le_iff (by decide) (by decide)).mpr (by omega))

def joined (first : Bool) (groups : List UInt16) : Text :=
  if first then fmtSubslice groups else groups.flatMap (fun segment => ':'::hex segment)

def Stops (text : Text) : Prop := text = [] ∨ ∃ more, text = ':':: ':'::more

theorem stopsColon (stops : Stops text) : ColonOrEnd text := by
  rcases stops with rfl | ⟨more,rfl⟩
  · intro ch here
    contradiction
  · intro ch here
    exact (Option.some.inj here).symm

theorem joinedColon (groups : List UInt16) (stops : Stops rest) : ColonOrEnd (joined false groups ++ rest) := by
  cases groups with
  | nil => exact stopsColon stops
  | cons segment more =>
    intro ch here
    exact (Option.some.inj here).symm

theorem noIpv4Colon (colon : ColonOrEnd text) : readIpv4Addr text = none := by
  refine noIpv4 ?_
  exact @noDot text [] (fun ch member => by contradiction) colon

theorem groupsEnd (left : Nat) (first : Bool) (stops : Stops rest) : readGroups left first rest = ([],false,rest) := by
  cases left with
  | zero => rfl
  | succ left =>
    have nothing {α : Type} (inner : Text → Option (α × Text)) (empty : ∀ text, ColonOrEnd text → inner text = none) :
        readSeparator ':' first inner rest = none := by
      cases first with
      | true => exact empty rest (stopsColon stops)
      | false =>
        rcases stops with rfl | ⟨more,rfl⟩
        · rfl
        · exact empty (':'::more) (fun ch here => (Option.some.inj here).symm)
    have four : (if 1 ≤ left then readSeparator ':' first readIpv4Addr rest else none) = none := by
      rw [nothing readIpv4Addr (fun text colon => noIpv4Colon colon)]
      exact ite_self none
    have number := nothing (readNumber 16 4 true 65535) (fun text colon => readNone (colonEnds colon))
    rw [readGroups,four,number]

theorem groupsRead (enough : groups.length ≤ left) (stops : Stops rest) :
    readGroups left first (joined first groups ++ rest) = (groups,false,rest) := by
  induction groups generalizing left first with
  | nil =>
    have nothing : joined first [] ++ rest = rest := by cases first <;> rfl
    rw [nothing]
    exact groupsEnd left first stops
  | cons segment more ih =>
    cases left with
    | zero => exact absurd enough (by simp)
    | succ left =>
      have colon := joinedColon more stops
      have separated {α : Type} (inner : Text → Option (α × Text)) :
          readSeparator ':' first inner (joined first (segment::more) ++ rest) = inner (hex segment ++ (joined false more ++ rest)) := by
        cases first with
        | true =>
          show inner (hex segment ++ joined false more ++ rest) = _
          rw [List.append_assoc]
        | false =>
          show inner (hex segment ++ joined false more ++ rest) = _
          rw [List.append_assoc]
      have four : (if 1 ≤ left then readSeparator ':' first readIpv4Addr (joined first (segment::more) ++ rest) else none) = none := by
        rw [separated,noIpv4 (noDot (hexDigits segment) colon)]
        exact ite_self none
      have later := @ih false left (Nat.le_of_succ_le_succ enough)
      rw [readGroups,four,separated,readHex segment colon]
      dsimp only
      rw [later,UInt16.ofNat_toNat]

structure SpanIn (done : List UInt16) (span : Span) : Prop where
  inside : span.start + span.len ≤ done.length
  zero : ∀ k < span.len, done[span.start + k]? = some 0

theorem SpanIn.more {span : Span} (segment : UInt16) (spanIn : SpanIn done span) : SpanIn (done ++ [segment]) span := by
  have inside := spanIn.inside
  refine ⟨?_,fun k below => ?_⟩
  · rw [List.length_append]
    omega
  · rw [List.getElem?_append_left (by omega)]
    exact spanIn.zero k below

theorem zeroesSpan (one : SpanIn done longest) (two : SpanIn done current)
    (ended : 0 < current.len → current.start + current.len = done.length) :
    SpanIn (done ++ segments) (zeroesFrom longest current done.length segments) := by
  induction segments generalizing done longest current with
  | nil =>
    rw [List.append_nil]
    exact one
  | cons segment rest ih =>
    have shift : done ++ segment::rest = (done ++ [segment]) ++ rest := by simp
    have count : done.length + 1 = (done ++ [segment]).length := by simp
    rw [zeroesFrom,shift,count]
    unfold spanStep
    by_cases zero : segment = 0
    · rw [if_pos zero]
      have grown : SpanIn (done ++ [segment]) ⟨if current.len = 0 then done.length else current.start,current.len + 1⟩ ∧
          (if current.len = 0 then done.length else current.start) + (current.len + 1) = (done ++ [segment]).length := by
        by_cases fresh : current.len = 0
        · rw [if_pos fresh,fresh]
          refine ⟨⟨?_,fun k below => ?_⟩,count⟩
          · rw [← count]
          · have k0 : k = 0 := Nat.lt_one_iff.mp below
            rw [k0,zero]
            exact List.getElem?_concat_length
        · have whole := ended (Nat.pos_of_ne_zero fresh)
          rw [if_neg fresh]
          refine ⟨⟨?_,fun k below => ?_⟩,by rw [← count]; omega⟩
          · rw [← count]
            show current.start + (current.len + 1) ≤ done.length + 1
            omega
          · show (done ++ [segment])[current.start + k]? = some 0
            by_cases last : k < current.len
            · rw [List.getElem?_append_left (by omega)]
              exact two.zero k last
            · have same : current.start + k = done.length := by
                change k < current.len + 1 at below
                omega
              rw [same,zero]
              exact List.getElem?_concat_length
      refine ih ?_ grown.1 (fun _ => grown.2)
      dsimp only
      by_cases longer : current.len + 1 > longest.len
      · rw [if_pos longer]
        exact grown.1
      · rw [if_neg longer]
        exact one.more segment
    · rw [if_neg zero]
      refine ih (one.more segment) ⟨Nat.zero_le _,fun k below => ?_⟩ (fun some => ?_)
      · exact absurd below (Nat.not_lt_zero k)
      · exact absurd some (Nat.lt_irrefl 0)

theorem zeroesInside (segments : List UInt16) : SpanIn segments (zeroes segments) := by
  have empty : SpanIn [] {} := ⟨Nat.le_refl _,fun k below => absurd below (Nat.not_lt_zero k)⟩
  exact zeroesSpan empty empty (fun some => absurd some (Nat.lt_irrefl 0))

theorem spanSplit {span : Span} (spanIn : SpanIn segments span) :
    segments.take span.start ++ List.replicate span.len 0 ++ segments.drop (span.start + span.len) = segments := by
  have inside := spanIn.inside
  have middle : (segments.drop span.start).take span.len = List.replicate span.len 0 := by
    refine List.eq_replicate_iff.mpr ⟨?_,fun segment member => ?_⟩
    · rw [List.length_take,List.length_drop]
      omega
    · obtain ⟨k,below,rfl⟩ := List.getElem_of_mem member
      rw [List.length_take,List.length_drop] at below
      have here := spanIn.zero k (by omega)
      rw [List.getElem_take,List.getElem_drop]
      exact (List.getElem?_eq_some_iff.mp here).2
  rw [← middle,← List.drop_drop,List.append_assoc,List.take_append_drop,List.take_append_drop]

end V6

section Parse
variable {text : Text}

theorem wordBack (segment : UInt16) : word (highByte segment) (lowByte segment) = segment := by
  have small := segment.toNat_lt
  rw [word,highByte,lowByte]
  refine UInt16.toNat_inj.mp ?_
  rw [UInt16.toNat_ofNat',UInt8.toNat_ofNat',UInt8.toNat_ofNat']
  omega

theorem mappedSegments {segments : List UInt16} {ipv4 : Ipv4Addr} (mapped : toIpv4Mapped segments = some ipv4) :
    segments = [0,0,0,0,0,0xffff,word ipv4.a ipv4.b,word ipv4.c ipv4.d] := by
  unfold toIpv4Mapped at mapped
  split at mapped
  · rw [← Option.some.inj mapped,wordBack,wordBack]
  · contradiction

theorem readMapped (ipv4 : Ipv4Addr) : readIpv6Segments ([':',':','f','f','f','f',':'] ++ ipv4.display) =
    some ([0,0,0,0,0,0xffff,word ipv4.a ipv4.b,word ipv4.c ipv4.d],[]) := by
  have front := @groupsEnd ([':',':','f','f','f','f',':'] ++ ipv4.display) 8 true (.inr ⟨_,rfl⟩)
  have four : readIpv4Addr ipv4.display = some (ipv4,[]) := by
    have read := @readIpv4Display [] ipv4 (fun ch here => by contradiction)
    rwa [List.append_nil] at read
  have colon : ColonOrEnd (':'::ipv4.display) := fun ch here => (Option.some.inj here).symm
  have none : (if 1 ≤ 6 then readSeparator ':' true readIpv4Addr (hex 0xffff ++ ':'::ipv4.display) else none) = none :=
    noIpv4 (noDot (hexDigits 0xffff) colon)
  have tail : readGroups 7 true (hex 0xffff ++ ':'::ipv4.display) =
      ([0xffff,word ipv4.a ipv4.b,word ipv4.c ipv4.d],true,[]) := by
    have embedded : readGroups 6 false (':'::ipv4.display) = ([word ipv4.a ipv4.b,word ipv4.c ipv4.d],true,[]) := by
      have dotted : (if 1 ≤ 5 then readSeparator ':' false readIpv4Addr (':'::ipv4.display) else Option.none) = some (ipv4,[]) := four
      rw [readGroups,dotted]
    have number : readSeparator ':' true (readNumber 16 4 true 65535) (hex 0xffff ++ ':'::ipv4.display) =
        some ((0xffff : UInt16).toNat,':'::ipv4.display) := readHex 0xffff colon
    rw [readGroups,none,number]
    dsimp only
    rw [embedded]
    rfl
  rw [readIpv6Segments,front]
  show (some _).bind _ = _
  rw [Option.bind_some]
  show (some _).bind _ = _
  rw [Option.bind_some]
  show some ([] ++ List.replicate (8 - 0 - (readGroups 7 true (hex 0xffff ++ ':'::ipv4.display)).1.length) 0 ++
    (readGroups 7 true (hex 0xffff ++ ':'::ipv4.display)).1,(readGroups 7 true (hex 0xffff ++ ':'::ipv4.display)).2.2) = _
  rw [tail]
  rfl

theorem readPlain {segments : List UInt16} (eight : segments.length = 8) :
    readIpv6Segments (fmtSubslice segments) = some (segments,[]) := by
  have read := @groupsRead [] segments true 8 (Nat.le_of_eq eight) (.inl rfl)
  rw [List.append_nil] at read
  change readGroups 8 true (fmtSubslice segments) = _ at read
  rw [readIpv6Segments,read]
  exact if_pos eight

theorem readCompressed {segments : List UInt16} {span : Span} (eight : segments.length = 8) (spanIn : SpanIn segments span)
    (long : span.len > 1) :
    readIpv6Segments (fmtSubslice (segments.take span.start) ++ [':',':'] ++ fmtSubslice (segments.drop (span.start + span.len))) =
      some (segments,[]) := by
  have inside := spanIn.inside
  have whole := spanSplit spanIn
  have headLength : (segments.take span.start).length = span.start := by
    rw [List.length_take]
    omega
  have tailLength : (segments.drop (span.start + span.len)).length = 8 - (span.start + span.len) := by rw [List.length_drop,eight]
  generalize segments.take span.start = front at headLength whole
  generalize segments.drop (span.start + span.len) = back at tailLength whole
  have head := @groupsRead (':':: ':'::fmtSubslice back) front true 8 (by omega) (.inr ⟨_,rfl⟩)
  have tail := @groupsRead [] back true (8 - (front.length + 1)) (by omega) (.inl rfl)
  rw [List.append_nil] at tail
  change readGroups 8 true (fmtSubslice front ++ ':':: ':'::fmtSubslice back) = _ at head
  change readGroups _ true (fmtSubslice back) = _ at tail
  have text : fmtSubslice front ++ [':',':'] ++ fmtSubslice back = fmtSubslice front ++ ':':: ':'::fmtSubslice back := by simp
  rw [readIpv6Segments,text,head]
  dsimp only
  rw [if_neg (by omega),if_neg (by decide)]
  show (some (':'::fmtSubslice back)).bind _ = _
  rw [Option.bind_some]
  show (some (fmtSubslice back)).bind _ = _
  rw [Option.bind_some,tail]
  dsimp only
  have zeros : 8 - front.length - back.length = span.len := by omega
  rw [zeros,whole]

theorem parseSegments {ip : Ipv6Addr} (undotted : readIpv4Addr text = none)
    (read : readIpv6Segments text = some (ip.segments,[])) :
    parseIpAddr text = some (.v6 ip) := by
  rw [parseIpAddr,undotted,read]
  dsimp only
  rw [dif_pos ip.eight,if_pos rfl]

theorem fmtUndotted (segments : List UInt16) {rest : Text} (stops : Stops rest) : readIpv4Addr
    (fmtSubslice segments ++ rest) = none := by
  cases segments with
  | nil => exact noIpv4Colon (stopsColon stops)
  | cons first more =>
    have colon := joinedColon more stops
    have text : fmtSubslice (first::more) ++ rest = hex first ++ (joined false more ++ rest) := List.append_assoc _ _ _
    rw [text]
    exact noIpv4 (noDot (hexDigits first) colon)

theorem parseDisplay4 (ip : Ipv4Addr) : parseIpAddr ip.display = some (.v4 ip) := by
  have read := @readIpv4Display [] ip (fun ch here => by contradiction)
  rw [List.append_nil] at read
  rw [parseIpAddr,read]
  exact if_pos rfl

theorem parseDisplay6 (ip : Ipv6Addr) : parseIpAddr ip.display = some (.v6 ip) := by
  rw [Ipv6Addr.display]
  cases mapped : toIpv4Mapped ip.segments with
  | some ipv4 =>
    have segments := mappedSegments mapped
    refine parseSegments (noIpv4Colon (fun ch here => (Option.some.inj here).symm)) ?_
    rw [segments]
    exact readMapped ipv4
  | none =>
    dsimp only
    by_cases long : (zeroes ip.segments).len > 1
    · rw [if_pos long]
      refine parseSegments ?_ (readCompressed ip.eight (zeroesInside ip.segments) long)
      rw [List.append_assoc]
      exact fmtUndotted _ (.inr ⟨_,rfl⟩)
    · rw [if_neg long]
      have undotted := @fmtUndotted ip.segments [] (.inl rfl)
      rw [List.append_nil] at undotted
      exact parseSegments undotted (readPlain ip.eight)

end Parse

end KanoTls.IpText
