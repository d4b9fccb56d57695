import KanoTls.IpText

/-! `Target` of `target.rs` and its wire form, the first payload of a stream: an authority
without any escaping, with `udp:` in front of a UDP one. -/
namespace KanoTls.Target
open Text IpText

inductive Host where
  | domain (name : Text) | ipv4 (ip : Ipv4Addr) | ipv6 (ip : Ipv6Addr)
  deriving DecidableEq, Repr

inductive Network where
  | tcp | udp
  deriving DecidableEq, Repr

structure Target where
  host : Host
  port : UInt16
  network : Network
  deriving DecidableEq, Repr

def Host.authority : Host → Text
  | .domain name => name
  | .ipv4 ip => ip.display
  | .ipv6 ip => '['::(ip.display ++ [']'])

def Host.ofIp : IpAddr → Host
  | .v4 ip => .ipv4 ip
  | .v6 ip => .ipv6 ip

/- `From<&str>`. -/
def Host.ofText (text : Text) : Host :=
  match parseIpAddr text with
  | some ip => .ofIp ip
  | none => .domain text

def Target.authority (t : Target) : Text := t.host.authority ++ ':'::decimal t.port.toNat

def udpMark : Text := ['u','d','p',':']

def Target.encodeWire (t : Target) : List UInt8 :=
  match t.network with
  | .tcp => toUtf8 t.authority
  | .udp => toUtf8 (udpMark ++ t.authority)

inductive AuthorityError where
  | bracketedIpv6 | missingPort | emptyHost | port (error : ParseIntError) | portZero
  deriving DecidableEq, Repr

def withPort (allowZeroPort : Bool) (host portPart : Text) : Except AuthorityError (Text × UInt16) :=
  match parseU16 portPart with
  | .error e => .error (.port e)
  | .ok port => if port = 0 ∧ allowZeroPort = false then .error .portZero else .ok (host,UInt16.ofNat port)

def parseAuthority (target : Text) (allowZeroPort : Bool) : Except AuthorityError (Text × UInt16) :=
  match stripPrefix ['['] target with
  | some rest =>
    match splitOnce ']' rest with
    | none => .error .bracketedIpv6
    | some (host,after) =>
      match stripPrefix [':'] after with
      | none => .error .missingPort
      | some portPart => withPort allowZeroPort host portPart
  | none =>
    match rsplitOnce ':' target with
    | none => .error .missingPort
    | some (host,portPart) => if host = [] then .error .emptyHost else withPort allowZeroPort host portPart

inductive WireError where
  | utf8 | authority (error : AuthorityError)
  deriving DecidableEq, Repr

def decodeAuthority (network : Network) (authority : Text) : Except WireError Target :=
  match parseAuthority authority (network == .udp) with
  | .error e => .error (.authority e)
  | .ok (host,port) => .ok ⟨.ofText host,port,network⟩

def Target.decodeWire (bytes : List UInt8) : Except WireError Target :=
  match fromUtf8 bytes with
  | none => .error .utf8
  | some text =>
    match stripPrefix udpMark text with
    | some rest => decodeAuthority .udp rest
    | none => decodeAuthority .tcp text

/- The host of a target that comes back: a domain that is an IP literal may come back as the
address. -/
inductive SameHost : Host → Host → Prop where
  | same (host : Host) : SameHost host host
  | literal {name : Text} {ip : IpAddr} (parsed : parseIpAddr name = some ip) : SameHost (.domain name) (.ofIp ip)

def Target.RoundTrips (t : Target) : Prop :=
  ∃ back, Target.decodeWire t.encodeWire = .ok back ∧ back.network = t.network ∧ back.port = t.port ∧ SameHost t.host back.host

/- A domain that the wire form does not mistake for its own syntax. -/
def Target.plain (t : Target) : Bool :=
  match t.host with
  | .domain name => name ≠ [] && name.head? ≠ some '[' && (t.network == .udp || !udpMark.isPrefixOf (name ++ [':']))
  | _ => true

section Authority
variable {name rest portPart host : Text} {port : UInt16} {allow : Bool}

theorem decimalColon (port : UInt16) : ':' ∉ decimal port.toNat := by
  intro member
  have digit := @digitsAll 10 port.toNat (by decide) (by decide) ':' member
  exact absurd digit (by decide)

theorem parsePort (port : UInt16) : parseU16 (decimal port.toNat) = .ok port.toNat := by
  have small := port.toNat_lt
  exact parseU16Digits (by omega)

theorem withPortBack (port : UInt16) (nonzero : allow = false → port ≠ 0) (host : Text) :
    withPort allow host (decimal port.toNat) = .ok (host,port) := by
  have allowed : ¬ (port.toNat = 0 ∧ allow = false) := by
    rintro ⟨zero,strict⟩
    exact nonzero strict (UInt16.toNat_inj.mp zero)
  rw [withPort,parsePort]
  dsimp only
  rw [if_neg allowed,UInt16.ofNat_toNat]

theorem stripNone {front text : Text} (no : front.isPrefixOf text = false) : stripPrefix front text = none := by
  rw [stripPrefix,no]
  rfl

theorem stripHead {ch : Char} {text : Text} (other : text.head? ≠ some ch) : stripPrefix [ch] text = none := by
  refine stripNone ?_
  cases text with
  | nil => rfl
  | cons first more =>
    have differ : (ch == first) = false := beq_eq_false_iff_ne.mpr (fun same => other (congrArg some same.symm))
    rw [List.isPrefixOf,differ]
    rfl

theorem parsePlain (nonempty : name ≠ []) (unbracketed : name.head? ≠ some '[') (nonzero : allow = false → port ≠ 0) :
    parseAuthority (name ++ ':'::decimal port.toNat) allow = .ok (name,port) := by
  have head : (name ++ ':'::decimal port.toNat).head? ≠ some '[' := by
    cases name with
    | nil => exact absurd rfl nonempty
    | cons first more => exact unbracketed
  rw [parseAuthority,stripHead head,rsplitOnceAppend name (decimalColon port)]
  dsimp only
  rw [if_neg nonempty,withPortBack port nonzero]

theorem parseBracketed (absent : ']' ∉ name) (nonzero : allow = false → port ≠ 0) :
    parseAuthority ('['::(name ++ [']']) ++ ':'::decimal port.toNat) allow = .ok (name,port) := by
  have text : '['::(name ++ [']']) ++ ':'::decimal port.toNat = ['['] ++ (name ++ ']'::([':'] ++ decimal port.toNat)) := by simp
  rw [parseAuthority,text,stripPrefixAppend]
  dsimp only
  rw [splitOnceAppend absent]
  dsimp only
  rw [stripPrefixAppend]
  exact withPortBack port nonzero name

end Authority

section Literals
variable {ch : Char}

def ipChar (ch : Char) : Bool := isDigit 16 ch || ch == ':' || ch == '.'

theorem decimalChars (n : Nat) : ∀ ch ∈ decimal n, isDigit 10 ch = true := digitsAll (by decide) (by decide)

theorem hexOfDecimal (digit : isDigit 10 ch = true) : isDigit 16 ch = true := by
  rw [isDigit,toDigit] at digit ⊢
  cases value : digitValue ch with
  | none =>
    rw [value] at digit
    contradiction
  | some d =>
    rw [value] at digit
    have below : d < 10 := by
      by_contra large
      rw [Option.filter_some_neg (by simpa using large)] at digit
      contradiction
    rw [Option.filter_some_pos (by simp only [decide_eq_true_eq]; omega)]
    rfl

theorem display4Chars (ip : Ipv4Addr) : ∀ ch ∈ ip.display, ipChar ch = true := by
  have number (n : Nat) : ∀ ch ∈ decimal n, ipChar ch = true := by
    intro ch member
    rw [ipChar,hexOfDecimal (decimalChars n ch member)]
    rfl
  intro ch member
  simp only [Ipv4Addr.display,List.mem_append,List.mem_cons] at member
  rcases member with here | rfl | here | rfl | here | rfl | here
  · exact number _ ch here
  · rfl
  · exact number _ ch here
  · rfl
  · exact number _ ch here
  · rfl
  · exact number _ ch here

theorem fmtChars (segments : List UInt16) : ∀ ch ∈ fmtSubslice segments, ipChar ch = true := by
  have group (segment : UInt16) : ∀ ch ∈ hex segment, ipChar ch = true := by
    intro ch member
    rw [ipChar,hexDigits segment ch member]
    rfl
  cases segments with
  | nil =>
    intro ch member
    exact absurd member List.not_mem_nil
  | cons first more =>
    intro ch member
    simp only [fmtSubslice,List.mem_append,List.mem_flatMap,List.mem_cons] at member
    rcases member with here | ⟨segment,_,rfl | here⟩
    · exact group first ch here
    · rfl
    · exact group segment ch here

theorem display6Chars (ip : Ipv6Addr) : ∀ ch ∈ ip.display, ipChar ch = true := by
  rw [Ipv6Addr.display]
  cases mapped : toIpv4Mapped ip.segments with
  | some ipv4 =>
    intro ch member
    rcases List.mem_append.mp member with front | back
    · simp only [List.mem_cons,List.not_mem_nil,or_false] at front
      rcases front with rfl | rfl | rfl | rfl | rfl | rfl | rfl <;> rfl
    · exact display4Chars ipv4 ch back
  | none =>
    dsimp only
    split
    · intro ch member
      simp only [List.mem_append,List.mem_cons,List.not_mem_nil,or_false] at member
      rcases member with (here | rfl | rfl) | here
      · exact fmtChars _ ch here
      · rfl
      · rfl
      · exact fmtChars _ ch here
    · exact fmtChars ip.segments

theorem display6Closing (ip : Ipv6Addr) : ']' ∉ ip.display :=
  fun member => absurd (display6Chars ip ']' member) (by decide)

theorem decimalHead (n : Nat) : ∃ first more, decimal n = first::more ∧ isDigit 10 first = true := by
  cases digits : decimal n with
  | nil => exact absurd digits Nat.toDigits_ne_nil
  | cons first more => exact ⟨first,more,rfl,decimalChars n first (digits ▸ List.mem_cons_self)⟩

theorem display4Head (ip : Ipv4Addr) : ∃ first more, ip.display = first::more ∧ isDigit 10 first = true := by
  obtain ⟨first,more,digits,digit⟩ := decimalHead ip.a.toNat
  refine ⟨first,more ++ '.'::(decimal ip.b.toNat ++ '.'::(decimal ip.c.toNat ++ '.'::decimal ip.d.toNat)),?_,digit⟩
  rw [Ipv4Addr.display,digits]
  rfl

theorem bracketNoIp (text : Text) : parseIpAddr ('['::text) = none := by
  have four : readIpv4Addr ('['::text) = none := noIpv4 (by
    rw [List.dropWhile_cons,if_neg (by decide)]
    intro same
    exact absurd (Option.some.inj same) (by decide))
  have nothing : readNumber 16 4 true 65535 ('['::text) = none := readNone (fun ch here => by
    cases Option.some.inj here
    decide)
  have dotted : (if 1 ≤ 7 then readSeparator ':' true readIpv4Addr ('['::text) else none) = none := four
  have number : readSeparator ':' true (readNumber 16 4 true 65535) ('['::text) = none := nothing
  have groups : readGroups 8 true ('['::text) = ([],false,'['::text) := by
    rw [readGroups,dotted,number]
  have six : readIpv6Segments ('['::text) = none := by
    rw [readIpv6Segments,groups]
    rfl
  rw [parseIpAddr,four,six]

theorem ofTextSame (name : Text) : SameHost (.domain name) (.ofText name) := by
  rw [Host.ofText]
  cases parsed : parseIpAddr name with
  | none => exact .same _
  | some ip => exact .literal parsed

end Literals

section RoundTrip
variable {t : Target} {name : Text}

theorem decodeTcp {text : Text} (unmarked : udpMark.isPrefixOf text = false) :
    Target.decodeWire (toUtf8 text) = decodeAuthority .tcp text := by
  rw [Target.decodeWire,fromToUtf8]
  dsimp only
  rw [stripNone unmarked]

theorem decodeUdp (text : Text) : Target.decodeWire (toUtf8 (udpMark ++ text)) = decodeAuthority .udp text := by
  rw [Target.decodeWire,fromToUtf8]
  dsimp only
  rw [stripPrefixAppend]

theorem markedIff (name digits : Text) : udpMark.isPrefixOf (name ++ ':'::digits) = udpMark.isPrefixOf (name ++ [':']) := by
  have short : ∀ front : Text, ':' ∉ front →
      (front ++ [':']).isPrefixOf (name ++ ':'::digits) = (front ++ [':']).isPrefixOf (name ++ [':']) := by
    induction name with
    | nil =>
      intro front absent
      cases front with
      | nil => rfl
      | cons ch more =>
        have differ : (ch == ':') = false := beq_eq_false_iff_ne.mpr (fun same => absent (same ▸ List.mem_cons_self))
        simp [List.isPrefixOf,differ]
    | cons first rest ih =>
      intro front absent
      cases front with
      | nil => simp [List.isPrefixOf]
      | cons ch more =>
        have later := ih more (fun member => absent (List.mem_cons_of_mem _ member))
        simp only [List.cons_append,List.isPrefixOf]
        rw [later]
  exact short ['u','d','p'] (by decide)

theorem decodeBack {network : Network} {authority : Text} {port : UInt16}
    (parsed : parseAuthority authority (network == .udp) = .ok (name,port)) :
    decodeAuthority network authority = .ok ⟨.ofText name,port,network⟩ := by
  rw [decodeAuthority,parsed]

theorem decodeNetwork {network : Network} {authority : Text} {back : Target}
    (decoded : decodeAuthority network authority = .ok back) :
    back.network = network ∧ ∃ name, parseAuthority authority (network == .udp) = .ok (name,
      back.port) ∧ back.host = .ofText name := by
  rw [decodeAuthority] at decoded
  cases parsed : parseAuthority authority (network == .udp) with
  | error e =>
    rw [parsed] at decoded
    contradiction
  | ok found =>
    rw [parsed] at decoded
    cases decoded
    exact ⟨rfl,found.1,rfl,rfl⟩

/- Whoever parses the authority of a target: its own mark is taken off, and a TCP one must
not look marked. -/
theorem decodeEncoded (unmarked : t.network = .tcp → udpMark.isPrefixOf t.authority = false) :
    Target.decodeWire t.encodeWire = decodeAuthority t.network t.authority := by
  rw [Target.encodeWire]
  cases network : t.network with
  | tcp => exact decodeTcp (unmarked network)
  | udp => exact decodeUdp t.authority

theorem headUnmarked {text : Text} (other : text.head? ≠ some 'u') : udpMark.isPrefixOf text = false := by
  cases text with
  | nil => rfl
  | cons first more =>
    have differ : ('u' == first) = false := beq_eq_false_iff_ne.mpr (fun same => other (congrArg some same.symm))
    rw [udpMark,List.isPrefixOf,differ]
    rfl

theorem nonzeroFor (nonzero : t.network = .tcp → t.port ≠ 0) : (t.network == .udp) = false → t.port ≠ 0 := by
  intro strict
  cases network : t.network with
  | tcp => exact nonzero network
  | udp =>
    rw [network] at strict
    contradiction

theorem domainBack (domain : t.host = .domain name) (nonzero : t.network = .tcp → t.port ≠ 0) (nonempty : name ≠ [])
    (unbracketed : name.head? ≠ some '[') (unmarked : t.network = .tcp → udpMark.isPrefixOf (name ++ [':']) = false) : t.RoundTrips := by
  have authority : t.authority = name ++ ':'::decimal t.port.toNat := by
    rw [Target.authority,domain]
    rfl
  refine ⟨⟨.ofText name,t.port,t.network⟩,?_,rfl,rfl,?_⟩
  · rw [decodeEncoded (fun tcp => by rw [authority,markedIff]; exact unmarked tcp)]
    refine decodeBack ?_
    rw [authority]
    exact parsePlain nonempty unbracketed (nonzeroFor nonzero)
  · rw [domain]
    exact ofTextSame name

theorem ipv4Back {ip : Ipv4Addr} (host : t.host = .ipv4 ip) (nonzero : t.network = .tcp → t.port ≠ 0) : t.RoundTrips := by
  obtain ⟨first,more,display,digit⟩ := display4Head ip
  have authority : t.authority = ip.display ++ ':'::decimal t.port.toNat := by
    rw [Target.authority,host]
    rfl
  have head (ch : Char) (other : isDigit 10 ch = false) : ip.display.head? ≠ some ch := by
    rw [display]
    intro same
    rw [Option.some.inj same,other] at digit
    contradiction
  refine ⟨⟨.ofText ip.display,t.port,t.network⟩,?_,rfl,rfl,?_⟩
  · rw [decodeEncoded (fun _ => headUnmarked (by
      have front := head 'u' (by decide)
      rw [display] at front
      rw [authority,display]
      exact front))]
    refine decodeBack ?_
    rw [authority]
    exact parsePlain (by rw [display]; exact List.cons_ne_nil _ _) (head '[' (by decide)) (nonzeroFor nonzero)
  · rw [host]
    show SameHost _ (Host.ofText ip.display)
    rw [Host.ofText,parseDisplay4]
    exact .same _

theorem ipv6Back {ip : Ipv6Addr} (host : t.host = .ipv6 ip) (nonzero : t.network = .tcp → t.port ≠ 0) : t.RoundTrips := by
  have authority : t.authority = '['::(ip.display ++ [']']) ++ ':'::decimal t.port.toNat := by
    rw [Target.authority,host]
    rfl
  refine ⟨⟨.ofText ip.display,t.port,t.network⟩,?_,rfl,rfl,?_⟩
  · rw [decodeEncoded (fun _ => headUnmarked (by rw [authority]; exact fun same => absurd (Option.some.inj same) (by decide)))]
    refine decodeBack ?_
    rw [authority]
    exact parseBracketed (display6Closing ip) (nonzeroFor nonzero)
  · rw [host]
    show SameHost _ (Host.ofText ip.display)
    rw [Host.ofText,parseDisplay6]
    exact .same _

theorem bracketRead {more host : Text} {port found : UInt16} {allow : Bool}
    (parsed : parseAuthority ('['::more ++ ':'::decimal port.toNat) allow = .ok (host,found)) : more = host ++ [']'] := by
  have text : '['::more ++ ':'::decimal port.toNat = ['['] ++ (more ++ ':'::decimal port.toNat) := rfl
  rw [parseAuthority,text,stripPrefixAppend] at parsed
  dsimp only at parsed
  cases split : splitOnce ']' (more ++ ':'::decimal port.toNat) with
  | none =>
    rw [split] at parsed
    contradiction
  | some sides =>
    obtain ⟨inner,after⟩ := sides
    rw [split] at parsed
    dsimp only at parsed
    cases stripped : stripPrefix [':'] after with
    | none =>
      rw [stripped] at parsed
      contradiction
    | some portPart =>
      rw [stripped] at parsed
      dsimp only at parsed
      rw [withPort] at parsed
      cases number : parseU16 portPart with
      | error e =>
        rw [number] at parsed
        contradiction
      | ok value =>
        rw [number] at parsed
        dsimp only at parsed
        have same : inner = host := by
          by_cases zero : value = 0 ∧ allow = false
          · rw [if_pos zero] at parsed
            contradiction
          · rw [if_neg zero] at parsed
            cases parsed
            rfl
        have whole := splitOnceSome split
        rw [stripPrefixSome stripped,same] at whole
        have twice := congrArg (rsplitOnce ':') whole
        have regroup : host ++ ']'::([':'] ++ portPart) = (host ++ [']']) ++ ':'::portPart := by simp
        rw [rsplitOnceAppend more (decimalColon port),regroup,rsplitOnceAppend (host ++ [']']) (parseU16Only number)] at twice
        exact congrArg Prod.fst (Option.some.inj twice)

theorem bracketFails {more : Text} (domain : t.host = .domain ('['::more)) : ¬ t.RoundTrips := by
  rintro ⟨back,decoded,_,_,same⟩
  have authority : t.authority = '['::more ++ ':'::decimal t.port.toNat := by
    rw [Target.authority,domain]
    rfl
  rw [decodeEncoded (fun _ => headUnmarked (by rw [authority]; exact fun same => absurd (Option.some.inj same) (by decide)))] at decoded
  obtain ⟨_,name,parsed,host⟩ := decodeNetwork decoded
  rw [authority] at parsed
  have inner := bracketRead parsed
  rw [domain,host] at same
  have whole : Host.ofText name = .domain ('['::more) := by
    generalize Host.ofText name = found at same
    cases same with
    | same => rfl
    | literal parsed =>
      rw [bracketNoIp] at parsed
      contradiction
  rw [Host.ofText] at whole
  cases literal : parseIpAddr name with
  | some ip =>
    rw [literal] at whole
    cases ip <;> contradiction
  | none =>
    rw [literal] at whole
    have longer := congrArg List.length (Host.domain.inj whole)
    rw [inner,List.length_cons,List.length_append] at longer
    omega

theorem emptyFails (domain : t.host = .domain []) : ¬ t.RoundTrips := by
  rintro ⟨back,decoded,_,_,_⟩
  have authority : t.authority = [] ++ ':'::decimal t.port.toNat := by
    rw [Target.authority,domain]
    rfl
  rw [decodeEncoded (fun _ => headUnmarked (by rw [authority]; exact fun same => absurd (Option.some.inj same) (by decide)))] at decoded
  obtain ⟨_,name,parsed,_⟩ := decodeNetwork decoded
  have head : ([] ++ ':'::decimal t.port.toNat).head? ≠ some '[' := fun same => absurd (Option.some.inj same) (by decide)
  rw [authority,parseAuthority,stripHead head,rsplitOnceAppend [] (decimalColon t.port)] at parsed
  contradiction

theorem markedFails (domain : t.host = .domain name) (tcp : t.network = .tcp)
    (marked : udpMark.isPrefixOf (name ++ [':']) = true) :
    ¬ t.RoundTrips := by
  rintro ⟨back,decoded,network,_,_⟩
  have authority : t.authority = name ++ ':'::decimal t.port.toNat := by
    rw [Target.authority,domain]
    rfl
  rw [← markedIff name (decimal t.port.toNat),← authority] at marked
  obtain ⟨rest,whole⟩ := List.isPrefixOf_iff_prefix.mp marked
  rw [Target.encodeWire,tcp] at decoded
  dsimp only at decoded
  rw [← whole,decodeUdp] at decoded
  have udp := (decodeNetwork decoded).1
  rw [network,tcp] at udp
  contradiction

end RoundTrip

theorem wireRoundTrip (t : Target) (nonzero : t.network = .tcp → t.port ≠ 0) : t.RoundTrips ↔ t.plain = true := by
  cases host : t.host with
  | ipv4 ip =>
    rw [Target.plain,host]
    exact ⟨fun _ => rfl,fun _ => ipv4Back host nonzero⟩
  | ipv6 ip =>
    rw [Target.plain,host]
    exact ⟨fun _ => rfl,fun _ => ipv6Back host nonzero⟩
  | domain name =>
    rw [Target.plain,host]
    simp only [Bool.and_eq_true,Bool.or_eq_true,decide_eq_true_eq,Bool.not_eq_true',beq_iff_eq]
    constructor
    · intro back
      refine ⟨⟨?_,?_⟩,?_⟩
      · rintro rfl
        exact emptyFails host back
      · intro bracket
        cases name with
        | nil => contradiction
        | cons first more =>
          cases Option.some.inj bracket
          exact bracketFails host back
      · cases network : t.network with
        | udp => exact .inl rfl
        | tcp =>
          refine .inr ?_
          by_contra marked
          exact markedFails host network (by simpa using marked) back
    · rintro ⟨⟨nonempty,unbracketed⟩,unmarked⟩
      refine domainBack host nonzero nonempty unbracketed (fun tcp => ?_)
      rcases unmarked with udp | unmarked
      · rw [tcp] at udp
        contradiction
      · exact unmarked

theorem wireRoundTripMapped : (⟨.ipv6 ⟨[0,0,0,0,0,0xffff,0x0102,0x0304],rfl⟩,443,.tcp⟩ : Target).RoundTrips :=
  (wireRoundTrip _ (by decide)).mpr rfl

end KanoTls.Target
