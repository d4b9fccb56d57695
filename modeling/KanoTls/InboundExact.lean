import KanoTls.Inbound

/-! What the inbound handshakes take of a socket, against the same handshakes on its bytes
without fragments. -/
namespace KanoTls.Inbound
open Text Target Wire

inductive Matches {α β : Type} (rel : α → β → Prop) : Except Error α → Except Error β → Prop where
  | error (e : Error) : Matches rel (.error e) (.error e)
  | ok {a : α} {b : β} (related : rel a b) : Matches rel (.ok a) (.ok b)

section Matching
variable {α β γ δ : Type} {rel : α → β → Prop} {next : γ → δ → Prop}

theorem Matches.bind {x : Except Error α} {y : Except Error β} {f : α → Except Error γ} {g : β → Except Error δ}
    (found : Matches rel x y) (more : ∀ {a b}, rel a b → Matches next (f a) (g b)) : Matches next (x >>= f) (y >>= g) := by
  cases found with
  | error e => exact .error e
  | ok related => exact more related

end Matching

def Socket.Whole (s : Socket) : Prop := ∀ fragment ∈ s.fragments, fragment ≠ []

section Socks5

def SameRest (p : Bytes × Socket) (q : Bytes × Stream) : Prop := p.1 = q.1 ∧ p.2.Whole ∧ q.2 = p.2.stream

theorem readFrom (fuel : Nat) {n : Nat} (got : Bytes) {s : Socket} (whole : s.Whole) (enough : n ≤ fuel) :
    Matches SameRest (readExactFrom fuel n got s) (if n ≤ s.stream.bytes.length then
      .ok (got ++ s.stream.bytes.take n,{ s.stream with bytes := s.stream.bytes.drop n })
      else if s.closed then .error .unexpectedEof else .error .waits) := by
  induction fuel generalizing n got s with
  | zero =>
    cases Nat.le_zero.mp enough
    rw [if_pos (Nat.zero_le _),readExactFrom]
    exact .ok ⟨(List.append_nil got).symm,whole,rfl⟩
  | succ fuel ih =>
    cases n with
    | zero =>
      rw [if_pos (Nat.zero_le _),readExactFrom]
      exact .ok ⟨(List.append_nil got).symm,whole,rfl⟩
    | succ n =>
      obtain ⟨fragments,closed⟩ := s
      rw [readExactFrom]
      cases fragments with
      | nil =>
        have none : ¬ n + 1 ≤ (⟨[],closed⟩ : Socket).stream.bytes.length := Nat.not_succ_le_zero n
        rw [if_neg none]
        cases closed with
        | true => exact .error _
        | false => exact .error _
      | cons fragment rest =>
        have nonempty := whole fragment List.mem_cons_self
        have others : (⟨rest,closed⟩ : Socket).Whole := fun other member => whole other (List.mem_cons_of_mem _ member)
        have positive : 0 < fragment.length := List.length_pos_iff.mpr nonempty
        have bytes : (⟨fragment::rest,closed⟩ : Socket).stream.bytes = fragment ++ rest.flatten := rfl
        by_cases short : fragment.length ≤ n + 1
        · have read : Socket.read (n + 1) ⟨fragment::rest,closed⟩ = .ok (fragment,⟨rest,closed⟩) := if_pos short
          have more := @ih (n + 1 - fragment.length) (got ++ fragment) ⟨rest,closed⟩ others (by omega)
          rw [read]
          dsimp only
          rw [if_neg nonempty]
          have inside : n + 1 - fragment.length ≤ rest.flatten.length ↔ n + 1 ≤ (fragment ++ rest.flatten).length := by
            rw [List.length_append]
            omega
          have taken : got ++ (fragment ++ rest.flatten).take (n + 1) = got ++ fragment ++ rest.flatten.take (n + 1 - fragment.length) := by
            rw [List.take_append,List.take_of_length_le short,List.append_assoc]
          have dropped : (fragment ++ rest.flatten).drop (n + 1) = rest.flatten.drop (n + 1 - fragment.length) := by
            rw [List.drop_append,List.drop_eq_nil_of_le short,List.nil_append]
          rw [bytes,taken,dropped]
          simp only [← inside]
          exact more
        · have read : Socket.read (n + 1) ⟨fragment::rest,closed⟩ = .ok (fragment.take (n + 1),
            ⟨fragment.drop (n + 1)::rest,closed⟩) :=
            if_neg short
          have size : (fragment.take (n + 1)).length = n + 1 := by
            rw [List.length_take]
            omega
          have some : fragment.take (n + 1) ≠ [] := by
            intro empty
            rw [empty] at size
            contradiction
          rw [read]
          dsimp only
          rw [if_neg some,size,Nat.sub_self,bytes,if_pos (by rw [List.length_append]; omega),
            List.take_append_of_le_length (by omega),List.drop_append_of_le_length (by omega)]
          cases fuel <;> rw [readExactFrom]
          all_goals
            refine .ok ⟨rfl,fun other member => ?_,rfl⟩
            rcases List.mem_cons.mp member with rfl | later
            · intro empty
              have length := congrArg List.length empty
              rw [List.length_drop,List.length_nil] at length
              omega
            · exact others other later

theorem readExactMatches (n : Nat) {s : Socket} (whole : s.Whole) :
    Matches SameRest (s.readExact n) (s.stream.readExact n) := by
  have read := readFrom n [] whole (Nat.le_refl n)
  rw [List.nil_append] at read
  exact read

theorem readAddressMatches (atyp : UInt8) {s : Socket} (whole : s.Whole) :
    Matches (fun p q => p.1 = q.1 ∧ p.2.1 = q.2.1 ∧ p.2.2.Whole ∧ q.2.2 = p.2.2.stream)
      (readAddress Socket.readExact atyp s) (readAddress Stream.readExact atyp s.stream) := by
  unfold readAddress
  by_cases ipv4 : atyp = 0x01
  · rw [if_pos ipv4,if_pos ipv4]
    refine (readExactMatches 6 whole).bind ?_
    rintro ⟨data,s⟩ ⟨_,_⟩ ⟨rfl,whole,rfl⟩
    exact .ok ⟨rfl,rfl,whole,rfl⟩
  · rw [if_neg ipv4,if_neg ipv4]
    by_cases domain : atyp = 0x03
    · rw [if_pos domain,if_pos domain]
      refine (readExactMatches 1 whole).bind ?_
      rintro ⟨len,s⟩ ⟨_,_⟩ ⟨rfl,whole,rfl⟩
      dsimp only
      by_cases refused : (len.getD 0 0).toNat = 0 ∨ (len.getD 0 0).toNat > 253
      · rw [if_pos refused,if_pos refused]
        exact .error _
      · rw [if_neg refused,if_neg refused]
        refine (readExactMatches _ whole).bind ?_
        rintro ⟨name,s⟩ ⟨_,_⟩ ⟨rfl,whole,rfl⟩
        refine (readExactMatches 2 whole).bind ?_
        rintro ⟨portBuf,s⟩ ⟨_,_⟩ ⟨rfl,whole,rfl⟩
        dsimp only
        cases fromUtf8 name with
        | none => exact .error _
        | some text => exact .ok ⟨rfl,rfl,whole,rfl⟩
    · rw [if_neg domain,if_neg domain]
      by_cases ipv6 : atyp = 0x04
      · rw [if_pos ipv6,if_pos ipv6]
        refine (readExactMatches 18 whole).bind ?_
        rintro ⟨data,s⟩ ⟨_,_⟩ ⟨rfl,whole,rfl⟩
        exact .ok ⟨rfl,rfl,whole,rfl⟩
      · rw [if_neg ipv6,if_neg ipv6]
        exact .error _

theorem socks5Matches {s : Socket} (whole : s.Whole) :
    Matches (fun p q => p.1 = q.1 ∧ q.2 = p.2.stream) (socks5Handshake Socket.readExact s)
      (socks5Handshake Stream.readExact s.stream) := by
  unfold socks5Handshake
  refine (readExactMatches 2 whole).bind ?_
  rintro ⟨head,s⟩ ⟨_,_⟩ ⟨rfl,whole,rfl⟩
  dsimp only
  by_cases version : head.getD 0 0 ≠ 0x05
  · rw [if_pos version,if_pos version]
    exact .error _
  · rw [if_neg version,if_neg version]
    by_cases count : (head.getD 1 0).toNat = 0 ∨ (head.getD 1 0).toNat > 16
    · rw [if_pos count,if_pos count]
      exact .error _
    · rw [if_neg count,if_neg count]
      refine (readExactMatches _ whole).bind ?_
      rintro ⟨methods,s⟩ ⟨_,_⟩ ⟨rfl,whole,rfl⟩
      dsimp only
      by_cases offered : (!methods.contains 0x00) = true
      · rw [if_pos offered,if_pos offered]
        exact .error _
      · rw [if_neg offered,if_neg offered]
        refine (readExactMatches 4 whole).bind ?_
        rintro ⟨req,s⟩ ⟨_,_⟩ ⟨rfl,whole,rfl⟩
        dsimp only
        by_cases header : req.getD 0 0 ≠ 0x05 ∨ req.getD 2 0 ≠ 0x00
        · rw [if_pos header,if_pos header]
          exact .error _
        · rw [if_neg header,if_neg header]
          refine (readAddressMatches _ whole).bind ?_
          rintro ⟨host,port,s⟩ ⟨_,_,_⟩ ⟨rfl,rfl,whole,rfl⟩
          dsimp only
          cases socks5Target (req.getD 1 0) host port with
          | error e => exact .error e
          | ok target => exact .ok ⟨rfl,rfl⟩

end Socks5

section Fills
variable {s : Socket} {r : BufReader}

/- A fragment as reads of the buffer's size take it. -/
def fillsOf : Nat → Bytes → List Bytes
  | 0,_ => []
  | fuel+1,bytes => if bytes = [] then [] else bytes.take bufReaderCapacity::fillsOf fuel (bytes.drop bufReaderCapacity)

def Socket.fills (s : Socket) : List Bytes := s.fragments.flatMap (fun fragment => fillsOf fragment.length fragment)

def BufReader.fills (r : BufReader) : List Bytes := (if r.buffer = [] then [] else [r.buffer]) ++ r.socket.fills

theorem fillsFuel (fuel : Nat) (bytes : Bytes) (enough : bytes.length ≤ fuel) :
    fillsOf fuel bytes = fillsOf bytes.length bytes := by
  induction fuel using Nat.strongRecOn generalizing bytes with
  | _ fuel ih =>
    cases fuel with
    | zero =>
      rw [List.length_eq_zero_iff.mp (Nat.le_zero.mp enough)]
      rfl
    | succ fuel =>
      cases bytes with
      | nil => rfl
      | cons byte rest =>
        have shorter : ((byte::rest).drop bufReaderCapacity).length ≤ rest.length := by
          rw [List.length_drop,List.length_cons,bufReaderCapacity]
          omega
        rw [List.length_cons] at enough
        rw [fillsOf,if_neg (List.cons_ne_nil _ _),List.length_cons,fillsOf,if_neg (List.cons_ne_nil _ _),
          ih fuel (Nat.lt_succ_self fuel) _ (by omega),ih rest.length (by omega) _ shorter]

theorem fillsFlatten (fuel : Nat) (bytes : Bytes) (enough : bytes.length ≤ fuel) : (fillsOf fuel bytes).flatten = bytes := by
  induction fuel generalizing bytes with
  | zero => rw [List.length_eq_zero_iff.mp (Nat.le_zero.mp enough),fillsOf,List.flatten_nil]
  | succ fuel ih =>
    rw [fillsOf]
    by_cases empty : bytes = []
    · rw [if_pos empty,empty,List.flatten_nil]
    · have positive := List.length_pos_iff.mpr empty
      have fewer : (bytes.drop bufReaderCapacity).length ≤ fuel := by
        rw [List.length_drop,bufReaderCapacity]
        omega
      rw [if_neg empty,List.flatten_cons,ih _ fewer,List.take_append_drop]

theorem fillsNonempty (fuel : Nat) (bytes : Bytes) : ∀ fill ∈ fillsOf fuel bytes, fill ≠ [] := by
  induction fuel generalizing bytes with
  | zero =>
    intro fill member
    contradiction
  | succ fuel ih =>
    rw [fillsOf]
    intro fill member
    by_cases empty : bytes = []
    · rw [if_pos empty] at member
      contradiction
    · rw [if_neg empty] at member
      rcases List.mem_cons.mp member with rfl | later
      · cases bytes with
        | nil => exact absurd rfl empty
        | cons byte rest => exact List.cons_ne_nil _ _
      · exact ih _ fill later

theorem socketFillsNonempty (s : Socket) : ∀ fill ∈ s.fills, fill ≠ [] := by
  intro fill member
  obtain ⟨fragment,_,here⟩ := List.mem_flatMap.mp member
  exact fillsNonempty _ _ fill here

theorem socketFillsFlatten (s : Socket) : s.fills.flatten = s.stream.bytes := by
  obtain ⟨fragments,closed⟩ := s
  show (fragments.flatMap (fun fragment => fillsOf fragment.length fragment)).flatten = fragments.flatten
  induction fragments with
  | nil => rfl
  | cons fragment rest ih =>
    rw [List.flatMap_cons,List.flatten_append,fillsFlatten _ _ (Nat.le_refl _),ih,List.flatten_cons]

theorem readFill (whole : s.Whole) : (s.fragments = [] ∧ s.fills = []) ∨ ∃ fill later, s.fills = fill::later ∧
    ∃ t : Socket, s.read bufReaderCapacity = .ok (fill,t) ∧ t.fills = later ∧ t.Whole ∧ t.closed = s.closed := by
  obtain ⟨fragments,closed⟩ := s
  cases fragments with
  | nil => exact .inl ⟨rfl,rfl⟩
  | cons fragment rest =>
    refine .inr ?_
    have nonempty := whole fragment List.mem_cons_self
    have others : (⟨rest,closed⟩ : Socket).Whole := fun other member => whole other (List.mem_cons_of_mem _ member)
    have positive := List.length_pos_iff.mpr nonempty
    obtain ⟨size,length⟩ : ∃ size, fragment.length = size + 1 := ⟨fragment.length - 1,by omega⟩
    have fewer : (fragment.drop bufReaderCapacity).length ≤ size := by
      rw [List.length_drop,bufReaderCapacity]
      omega
    have fills : (⟨fragment::rest,closed⟩ : Socket).fills = fragment.take bufReaderCapacity::
        (fillsOf (fragment.drop bufReaderCapacity).length (fragment.drop bufReaderCapacity) ++ (⟨rest,
          closed⟩ : Socket).fills) := by
      show fillsOf fragment.length fragment ++ _ = _
      rw [length,fillsOf,if_neg nonempty,fillsFuel size _ fewer]
      rfl
    refine ⟨_,_,fills,?_⟩
    by_cases short : fragment.length ≤ bufReaderCapacity
    · refine ⟨⟨rest,closed⟩,?_,?_,others,rfl⟩
      · rw [List.take_of_length_le short]
        exact if_pos short
      · rw [List.drop_eq_nil_of_le short]
        rfl
    · refine ⟨⟨fragment.drop bufReaderCapacity::rest,closed⟩,if_neg short,rfl,?_,rfl⟩
      intro other member
      rcases List.mem_cons.mp member with rfl | later
      · intro empty
        have none := congrArg List.length empty
        rw [List.length_drop,List.length_nil] at none
        omega
      · exact others other later

def Placed (all : List Bytes) (r : BufReader) : Prop :=
  (r.buffer = [] ∧ r.socket.fills <:+ all) ∨ ∃ taken, taken ≠ [] ∧ (taken ++ r.buffer)::r.socket.fills <:+ all

structure ReaderAt (all : List Bytes) (closed : Bool) (r : BufReader) (fills : List Bytes) : Prop where
  whole : r.socket.Whole
  closed : r.socket.closed = closed
  fills : r.fills = fills
  placed : Placed all r

def pushBack (bytes : Bytes) (fills : List Bytes) : List Bytes := if bytes = [] then fills else bytes::fills

variable {all fills : List Bytes} {closed : Bool}

structure Filled (all : List Bytes) (closed : Bool) (fill : Bytes) (later : List Bytes) (r : BufReader) : Prop where
  buffer : r.buffer = fill
  nonempty : fill ≠ []
  rest : r.socket.fills = later
  whole : r.socket.Whole
  closed : r.socket.closed = closed
  inside : ∃ taken, (taken ++ fill)::later <:+ all

theorem fillBufSpec (at' : ReaderAt all closed r fills) :
    (fills = [] ∧ r.buffer = [] ∧ r.fillBuf = if closed then .ok r else .error .waits) ∨
      ∃ fill later r', fills = fill::later ∧ r.fillBuf = .ok r' ∧ Filled all closed fill later r' := by
  obtain ⟨whole,isClosed,isFills,placed⟩ := at'
  obtain ⟨buffer,socket⟩ := r
  by_cases empty : buffer = []
  · subst empty
    have suffix' : socket.fills <:+ all := by
      rcases placed with ⟨_,found⟩ | ⟨taken,_,found⟩
      · exact found
      · exact (List.suffix_cons _ _).trans found
    have same : fills = socket.fills := isFills.symm
    rcases readFill whole with ⟨none,nothing⟩ | ⟨fill,later,split,t,read,rest,tWhole,tClosed⟩
    · refine .inl ⟨same.trans nothing,rfl,?_⟩
      show (socket.read bufReaderCapacity).map _ = _
      rw [Socket.read,none]
      dsimp only
      rw [isClosed]
      cases closed <;> rfl
    · refine .inr ⟨fill,later,⟨fill,t⟩,same.trans split,?_,rfl,?_,rest,tWhole,tClosed.trans isClosed,[],?_⟩
      · show (socket.read bufReaderCapacity).map _ = _
        rw [read]
        rfl
      · exact socketFillsNonempty socket fill (split ▸ List.mem_cons_self)
      · rw [List.nil_append,← split]
        exact suffix'
  · refine .inr ⟨buffer,socket.fills,⟨buffer,socket⟩,?_,if_neg empty,rfl,empty,rfl,whole,isClosed,?_⟩
    · rw [← isFills,BufReader.fills,if_neg empty]
      rfl
    · rcases placed with ⟨none,_⟩ | ⟨taken,_,found⟩
      · exact absurd none empty
      · exact ⟨taken,found⟩

theorem consumed {fill : Bytes} {later : List Bytes} (filled : Filled all closed fill later r) {n : Nat} (least : 1 ≤ n) :
    ReaderAt all closed { r with buffer := r.buffer.drop n } (pushBack (fill.drop n) later) := by
  obtain ⟨taken,inside⟩ := filled.inside
  refine ⟨filled.whole,filled.closed,?_,.inr ⟨taken ++ fill.take n,?_,?_⟩⟩
  · rw [BufReader.fills,filled.buffer,filled.rest,pushBack]
    dsimp only
    by_cases empty : fill.drop n = []
    · rw [if_pos empty,if_pos empty]
      rfl
    · rw [if_neg empty,if_neg empty]
      rfl
  · intro nothing
    have front := (List.append_eq_nil_iff.mp nothing).2
    have length := congrArg List.length front
    have positive := List.length_pos_iff.mpr filled.nonempty
    rw [List.length_take,List.length_nil] at length
    omega
  · show (taken ++ fill.take n ++ r.buffer.drop n)::r.socket.fills <:+ all
    rw [filled.buffer,filled.rest,List.append_assoc,List.take_append_drop]
    exact inside

end Fills

section Lines

def newline : UInt8 := 0x0a

def splitLine : List Bytes → List Bytes × List Bytes
  | [] => ([],[])
  | fill::later =>
    if newline ∈ fill then ([fill.take (lineLen fill)],pushBack (fill.drop (lineLen fill)) later)
    else
      let more := splitLine later
      (fill::more.1,more.2)

def judge (closed : Bool) (line : Text) (total : Nat) : List Bytes → Except Error (Text × Nat)
  | [] => if line.getLast? = some '\n' ∨ closed = true then .ok (line,total) else .error .waits
  | slice::rest =>
    if total + slice.length > maxRequestLine then .error .lineTooLarge
    else
      match fromUtf8 slice with
      | none => .error .utf8
      | some piece => judge closed (line ++ piece) (total + slice.length) rest

def fillsLine (closed : Bool) (fills : List Bytes) : Except Error (Text × Nat × List Bytes) :=
  (judge closed [] 0 (splitLine fills).1).map (fun done => (done.1,done.2,(splitLine fills).2))

theorem lineLenBounds {bytes : Bytes} (nonempty : bytes ≠ []) : 1 ≤ lineLen bytes ∧ lineLen bytes ≤ bytes.length := by
  have positive := List.length_pos_iff.mpr nonempty
  exact ⟨Nat.le_min.mpr ⟨Nat.le_add_left 1 _,positive⟩,Nat.min_le_right _ _⟩

theorem lineLenNone {bytes : Bytes} (absent : newline ∉ bytes) : lineLen bytes = bytes.length := by
  have none : bytes.findIdx (· == 0x0a) = bytes.length := by
    refine List.findIdx_eq_length.mpr (fun byte member => ?_)
    exact beq_eq_false_iff_ne.mpr (fun same => absent ((show byte = newline from same) ▸ member))
  rw [lineLen,none]
  omega

theorem lineLenLast {bytes : Bytes} (present : newline ∈ bytes) : (bytes.take (lineLen bytes)).getLast? = some newline := by
  have found : bytes.findIdx (· == 0x0a) < bytes.length := List.findIdx_lt_length.mpr ⟨newline,present,rfl⟩
  have here : bytes[bytes.findIdx (· == 0x0a)] = newline := by
    have test := @List.findIdx_getElem _ (fun byte : UInt8 => byte == 0x0a) bytes found
    exact eq_of_beq test
  have length : lineLen bytes = bytes.findIdx (· == 0x0a) + 1 := Nat.min_eq_left found
  rw [length,List.take_add_one,List.getElem?_eq_getElem found,here]
  exact List.getLast?_concat

/- Of all characters only the newline has its byte at the end. -/
theorem encodeLast {ch : Char} (last : (String.utf8EncodeChar ch).getLast? = some newline) : ch = '\n' := by
  have continuation (v : Nat) : UInt8.ofNat (v % 0x40 + 0x80) ≠ newline := by
    intro same
    have number := congrArg UInt8.toNat same
    rw [UInt8.toNat_ofNat'] at number
    change (v % 0x40 + 0x80) % 2 ^ 8 = 10 at number
    omega
  unfold String.utf8EncodeChar at last
  dsimp only at last
  split at last
  · rename_i small
    have byte : UInt8.ofNat ch.val.toNat = newline := Option.some.inj last
    have number := congrArg UInt8.toNat byte
    rw [UInt8.toNat_ofNat'] at number
    change ch.val.toNat % 2 ^ 8 = 10 at number
    refine Char.ext (UInt32.toNat_inj.mp ?_)
    change ch.val.toNat = 10
    omega
  · split at last
    · exact absurd (Option.some.inj last) (continuation _)
    · split at last
      · exact absurd (Option.some.inj last) (continuation _)
      · exact absurd (Option.some.inj last) (continuation _)

theorem textLast {bytes : Bytes} {text : Text} (decoded : fromUtf8 bytes = some text) :
    bytes.getLast? = some newline ↔ text.getLast? = some '\n' := by
  rw [fromUtf8Iff] at decoded
  subst decoded
  rcases List.eq_nil_or_concat text with rfl | ⟨front,ch,rfl⟩
  · exact ⟨fun none => by contradiction,fun none => by contradiction⟩
  · have nonempty : String.utf8EncodeChar ch ≠ [] := String.utf8EncodeChar_ne_nil
    have split : toUtf8 (front.concat ch) = toUtf8 front ++ String.utf8EncodeChar ch := by
      rw [List.concat_eq_append,toUtf8Append]
      simp [toUtf8]
    rw [split,List.getLast?_append_of_ne_nil _ nonempty,List.concat_eq_append,List.getLast?_concat]
    constructor
    · intro last
      rw [encodeLast last]
    · intro same
      cases Option.some.inj same
      rfl

variable {all fills : List Bytes} {closed : Bool} {r : BufReader}

theorem lineFrom (fuel : Nat) {line : Text} {total : Nat} (at' : ReaderAt all closed r fills)
    (open' : line.getLast? ≠ some '\n')
    (small : total ≤ maxRequestLine) (enough : maxRequestLine < fuel + total) :
    Matches (fun p q => p.1 = q.1 ∧ p.2.1 = q.2 ∧ ReaderAt all closed p.2.2 (splitLine fills).2)
      (readLimitedLineFrom fuel line total r) (judge closed line total (splitLine fills).1) := by
  induction fills generalizing fuel line total r with
  | nil =>
    cases fuel with
    | zero => omega
    | succ fuel =>
      rcases fillBufSpec at' with ⟨_,empty,filled⟩ | ⟨fill,later,r',no,_⟩
      · rw [readLimitedLineFrom,filled]
        cases closed with
        | true =>
          have done : judge true line total [] = .ok (line,total) := if_pos (.inr rfl)
          show Matches _ (if r.buffer = [] then _ else _) (judge true line total [])
          rw [if_pos empty,done]
          exact .ok ⟨rfl,rfl,at'⟩
        | false =>
          have waits : judge false line total [] = .error .waits := if_neg (by
            rintro (ends | no)
            · exact open' ends
            · contradiction)
          show Matches _ (.error .waits) (judge false line total [])
          rw [waits]
          exact .error _
      · contradiction
  | cons fill later ih =>
    cases fuel with
    | zero => omega
    | succ fuel =>
      rcases fillBufSpec at' with ⟨no,_,_⟩ | ⟨fill',later',r',same,ran,filled⟩
      · contradiction
      · cases same
        obtain ⟨least,most⟩ := lineLenBounds filled.nonempty
        have rest := consumed filled least
        rw [readLimitedLineFrom,ran]
        dsimp only
        rw [if_neg (by rw [filled.buffer]; exact filled.nonempty),filled.buffer]
        rw [filled.buffer] at rest
        have size : (fill.take (lineLen fill)).length = lineLen fill := by rw [List.length_take,Nat.min_eq_left most]
        by_cases present : newline ∈ fill
        · have pieces : splitLine (fill::later) = ([fill.take (lineLen fill)],
            pushBack (fill.drop (lineLen fill)) later) := if_pos present
          rw [pieces,judge,size]
          by_cases large : total + lineLen fill > maxRequestLine
          · rw [if_pos large,if_pos large]
            exact .error _
          · rw [if_neg large,if_neg large]
            cases decoded : fromUtf8 (fill.take (lineLen fill)) with
            | none => exact .error _
            | some piece =>
              have ends : (line ++ piece).getLast? = some '\n' := by
                have last := (textLast decoded).mp (lineLenLast present)
                rw [List.getLast?_append,last]
                rfl
              dsimp only
              rw [if_pos ends,judge,if_pos (.inl ends)]
              exact .ok ⟨rfl,rfl,rest⟩
        · have pieces : splitLine (fill::later) = (fill::(splitLine later).1,(splitLine later).2) := if_neg present
          have all' := lineLenNone present
          rw [pieces,judge,all',List.take_length]
          by_cases large : total + fill.length > maxRequestLine
          · rw [if_pos large,if_pos large]
            exact .error _
          · rw [if_neg large,if_neg large]
            cases decoded : fromUtf8 fill with
            | none => exact .error _
            | some piece =>
              have nonempty : piece ≠ [] := by
                rintro rfl
                exact filled.nonempty (fromUtf8Iff.mp decoded)
              have ends : (line ++ piece).getLast? ≠ some '\n' := by
                rw [List.getLast?_append_of_ne_nil _ nonempty]
                intro last
                exact present (List.mem_of_getLast? ((textLast decoded).mpr last))
              have behind : ReaderAt all closed { r' with buffer := fill.drop fill.length } later := by
                rw [all',List.drop_length,pushBack,if_pos rfl] at rest
                rw [List.drop_length]
                exact rest
              dsimp only
              rw [if_neg ends]
              exact ih fuel behind ends (by omega) (by have := List.length_pos_iff.mpr filled.nonempty; omega)

theorem lineMatches (at' : ReaderAt all closed r fills) :
    Matches (fun p q => p.1 = q.1 ∧ p.2.1 = q.2.1 ∧ ReaderAt all closed p.2.2 q.2.2) r.readLimitedLine (fillsLine closed fills) := by
  have found := @lineFrom all fills closed r (maxRequestLine + 1) [] 0 at' (by decide) (Nat.zero_le _) (by omega)
  rw [BufReader.readLimitedLine,fillsLine]
  generalize readLimitedLineFrom (maxRequestLine + 1) [] 0 r = x at found
  generalize judge closed [] 0 (splitLine fills).1 = y at found
  cases found with
  | error e => exact .error e
  | ok related => exact .ok related

end Lines

section Clean
variable {fills : List Bytes} {closed : Bool} {line : Text} {total : Nat}

theorem lineLenAppend (front back : Bytes) :
    lineLen (front ++ back) = if newline ∈ front then lineLen front else front.length + lineLen back := by
  rw [lineLen,List.findIdx_append,List.length_append]
  by_cases present : newline ∈ front
  · have found : front.findIdx (· == 0x0a) < front.length := List.findIdx_lt_length.mpr ⟨newline,present,rfl⟩
    rw [if_pos present,if_pos found,lineLen]
    omega
  · have none : front.findIdx (· == 0x0a) = front.length := by
      refine List.findIdx_eq_length.mpr (fun byte member => ?_)
      exact beq_eq_false_iff_ne.mpr (fun same => present ((show byte = newline from same) ▸ member))
    rw [if_neg present,if_neg (by omega),lineLen]
    omega

theorem splitFlatten (fills : List Bytes) : (splitLine fills).1.flatten = fills.flatten.take (lineLen fills.flatten) ∧
    (splitLine fills).2.flatten = fills.flatten.drop (lineLen fills.flatten) := by
  induction fills with
  | nil => exact ⟨rfl,rfl⟩
  | cons fill later ih =>
    rw [List.flatten_cons,lineLenAppend]
    by_cases present : newline ∈ fill
    · have most : lineLen fill ≤ fill.length := Nat.min_le_right _ _
      rw [if_pos present,splitLine,if_pos present,List.take_append_of_le_length most,List.drop_append_of_le_length most]
      refine ⟨List.append_nil _,?_⟩
      dsimp only
      rw [pushBack]
      by_cases empty : fill.drop (lineLen fill) = []
      · rw [if_pos empty,empty]
        rfl
      · rw [if_neg empty]
        rfl
    · rw [if_neg present,splitLine,if_neg present]
      dsimp only
      rw [List.flatten_cons,ih.1,ih.2,List.take_length_add_append,List.drop_length_add_append]
      exact ⟨rfl,rfl⟩

theorem splitRest (unended : (splitLine fills).1.flatten.getLast? ≠ some newline) : (splitLine fills).2 = [] := by
  induction fills with
  | nil => rfl
  | cons fill later ih =>
    by_cases present : newline ∈ fill
    · rw [splitLine,if_pos present] at unended
      dsimp only at unended
      rw [List.flatten_singleton,lineLenLast present] at unended
      exact absurd rfl unended
    · rw [splitLine,if_neg present] at unended ⊢
      dsimp only at unended ⊢
      rw [List.flatten_cons] at unended
      refine ih (fun last => unended ?_)
      rw [List.getLast?_append,last]
      rfl

/- Every slice that ends within the limit is UTF-8 of its own. -/
def slicesOk (total : Nat) : List Bytes → Bool
  | [] => true
  | slice::rest => total + slice.length > maxRequestLine || ((fromUtf8 slice).isSome && slicesOk (total + slice.length) rest)

theorem judgeClean {slices : List Bytes} (clean : slicesOk total slices = true) (small : total ≤ maxRequestLine) :
    (total + slices.flatten.length > maxRequestLine ∧ judge closed line total slices = .error .lineTooLarge) ∨
      ∃ text, total + slices.flatten.length ≤ maxRequestLine ∧ fromUtf8 slices.flatten = some text ∧
        judge closed line total slices = judge closed (line ++ text) (total + slices.flatten.length) [] := by
  induction slices generalizing line total with
  | nil => exact .inr ⟨[],small,fromUtf8Iff.mpr rfl,by rw [List.append_nil]; rfl⟩
  | cons slice rest ih =>
    rw [slicesOk,Bool.or_eq_true,Bool.and_eq_true,decide_eq_true_eq] at clean
    rw [List.flatten_cons,List.length_append]
    by_cases large : total + slice.length > maxRequestLine
    · exact .inl ⟨by omega,by rw [judge,if_pos large]⟩
    · obtain ⟨valid,later⟩ := clean.resolve_left large
      obtain ⟨piece,decoded⟩ := Option.isSome_iff_exists.mp valid
      have step : judge closed line total (slice::rest) = judge closed (line ++ piece) (total + slice.length) rest := by
        rw [judge,if_neg large,decoded]
      rw [step,← Nat.add_assoc]
      rcases ih later (Nat.not_lt.mp large) with ⟨exceeds,judged⟩ | ⟨text,fits,whole,judged⟩
      · exact .inl ⟨exceeds,judged⟩
      · refine .inr ⟨piece ++ text,fits,fromUtf8Append decoded whole,?_⟩
        rw [judged,List.append_assoc]

theorem judgeDirty {slices : List Bytes} (dirty : slicesOk total slices = false) :
    judge closed line total slices = .error .utf8 := by
  induction slices generalizing line total with
  | nil => contradiction
  | cons slice rest ih =>
    rw [slicesOk,Bool.or_eq_false_iff,Bool.and_eq_false_iff,decide_eq_false_iff_not] at dirty
    rw [judge,if_neg dirty.1]
    cases decoded : fromUtf8 slice with
    | none => rfl
    | some piece =>
      have later := dirty.2.resolve_left (by rw [decoded]; simp)
      exact ih later

structure SameLine (closed : Bool) (fills : List Bytes) (p : Text × Nat × List Bytes) (q : Text × Nat × Stream) : Prop where
  line : p.1 = q.1
  count : p.2.1 = q.2.1
  rest : q.2.2 = ⟨p.2.2.flatten,closed⟩
  text : fromUtf8 (splitLine fills).1.flatten = some p.1
  length : p.2.1 = (splitLine fills).1.flatten.length
  fits : p.2.1 ≤ maxRequestLine
  behind : p.2.2 = (splitLine fills).2

theorem lineClean (clean : slicesOk 0 (splitLine fills).1 = true) :
    Matches (SameLine closed fills) (fillsLine closed fills) (Stream.readLimitedLine ⟨fills.flatten,closed⟩) := by
  obtain ⟨front,back⟩ := splitFlatten fills
  have most : lineLen fills.flatten ≤ fills.flatten.length := Nat.min_le_right _ _
  have size : (splitLine fills).1.flatten.length = lineLen fills.flatten := by
    rw [front,List.length_take,Nat.min_eq_left most]
  rw [fillsLine,Stream.readLimitedLine]
  dsimp only
  rw [← front,← back,← size]
  rcases @judgeClean closed [] 0 _ clean (Nat.zero_le _) with ⟨exceeds,judged⟩ | ⟨text,fits,whole,judged⟩
  · rw [Nat.zero_add] at exceeds
    have some : fills.flatten ≠ [] := by
      intro empty
      rw [size,empty] at exceeds
      exact absurd exceeds (by decide)
    rw [judged,if_neg some,if_pos exceeds]
    exact .error _
  · rw [Nat.zero_add] at fits judged
    rw [List.nil_append] at judged
    rw [judged]
    by_cases empty : fills.flatten = []
    · have zero : (splitLine fills).1.flatten.length = 0 := by rw [size,empty]; rfl
      have nothing : text = [] := by
        rw [List.length_eq_zero_iff.mp zero] at whole
        have same := whole.symm.trans (fromToUtf8 [])
        exact Option.some.inj same
      subst nothing
      rw [if_pos empty,zero,judge]
      cases closed with
      | true =>
        rw [if_pos (.inr rfl),if_pos rfl]
        refine .ok ⟨rfl,rfl,?_,whole,zero.symm,Nat.zero_le _,rfl⟩
        show (⟨fills.flatten,true⟩ : Stream) = ⟨(splitLine fills).2.flatten,true⟩
        rw [back,empty]
        rfl
      | false =>
        have open' : ¬ (([] : Text).getLast? = some '\n' ∨ false = true) := by decide
        rw [if_neg open',if_neg (by decide)]
        exact .error _
    · rw [if_neg empty,if_neg (Nat.not_lt.mpr fits),whole,judge]
      dsimp only
      by_cases ends : text.getLast? = some '\n' ∨ closed = true
      · rw [if_pos ends,if_pos ends]
        exact .ok ⟨rfl,rfl,rfl,whole,rfl,fits,rfl⟩
      · rw [if_neg ends,if_neg ends]
        exact .error _

end Clean

section Readers
variable {σ τ : Type} {rel : σ → τ → Prop} {left : σ → Except Error (Text × Nat × σ)}
  {right : τ → Except Error (Text × Nat × τ)}

theorem headersMatch (lines : ∀ {a b}, rel a b →
    Matches (fun p q => p.1 = q.1 ∧ p.2.1 = q.2.1 ∧ rel p.2.2 q.2.2) (left a) (right b)) (fuel : Nat) {len : Nat} {a : σ} {b : τ}
    (related : rel a b) : Matches rel (headerLoop left fuel len a) (headerLoop right fuel len b) := by
  induction fuel generalizing len a b with
  | zero => exact .error _
  | succ fuel ih =>
    have line := lines related
    rw [headerLoop,headerLoop]
    generalize left a = x at line
    generalize right b = y at line
    cases line with
    | error e => exact .error e
    | @ok p q found =>
      obtain ⟨_,n,a'⟩ := p
      obtain ⟨_,_,b'⟩ := q
      obtain ⟨rfl,rfl,more⟩ := found
      dsimp only
      by_cases blank : n ≤ 2
      · rw [if_pos blank,if_pos blank]
        exact .ok more
      · rw [if_neg blank,if_neg blank]
        by_cases large : len + n > maxHeaderBlock
        · rw [if_pos large,if_pos large]
          exact .error _
        · rw [if_neg large,if_neg large]
          exact ih more

theorem handshakeMatch {line : Text} {n : Nat} {a : σ} {b : τ} {a' : σ} {b' : τ} (leftLine : left a = .ok (line,n,a'))
    (rightLine : right b = .ok (line,n,b')) (headers : 3 ≤ (splitWhitespace line).length →
    Matches rel (headerLoop left (maxHeaderBlock + 1) n a') (headerLoop right (maxHeaderBlock + 1) n b')) :
    Matches (fun p q => p.1 = q.1 ∧ rel p.2 q.2) (httpHandshake left a) (httpHandshake right b) := by
  rw [httpHandshake,httpHandshake,leftLine,rightLine]
  dsimp only
  rcases words : splitWhitespace line with _ | ⟨method,_ | ⟨target,_ | ⟨version,more⟩⟩⟩
  · exact .error _
  · exact .error _
  · exact .error _
  · rw [words] at headers
    have behind := headers (Nat.le_add_left 3 more.length)
    dsimp only
    generalize headerLoop left (maxHeaderBlock + 1) n a' = x at behind
    generalize headerLoop right (maxHeaderBlock + 1) n b' = y at behind
    cases behind with
    | error e => exact .error e
    | ok related =>
      dsimp only
      cases httpTarget method target with
      | error e => exact .error e
      | ok target => exact .ok ⟨rfl,related⟩

theorem httpMatches (lines : ∀ {a b}, rel a b →
    Matches (fun p q => p.1 = q.1 ∧ p.2.1 = q.2.1 ∧ rel p.2.2 q.2.2) (left a) (right b)) {a : σ} {b : τ} (related : rel a b) :
    Matches (fun p q => p.1 = q.1 ∧ rel p.2 q.2) (httpHandshake left a) (httpHandshake right b) := by
  have line := lines related
  cases leftLine : left a with
  | error e =>
    rw [leftLine] at line
    rw [httpHandshake,httpHandshake,leftLine]
    generalize right b = y at line
    cases line
    exact .error e
  | ok p =>
    rw [leftLine] at line
    cases rightLine : right b with
    | error e =>
      rw [rightLine] at line
      cases line
    | ok q =>
      rw [rightLine] at line
      cases line with
      | ok found =>
        obtain ⟨_,_,a'⟩ := p
        obtain ⟨_,_,b'⟩ := q
        obtain ⟨rfl,rfl,more⟩ := found
        exact handshakeMatch leftLine rightLine (fun _ => headersMatch lines _ more)

end Readers

section Fragments
variable {fills : List Bytes} {closed : Bool}

def cleanHeaders : Nat → Nat → List Bytes → Bool
  | 0,_,_ => true
  | fuel+1,headerBlockLen,fills =>
    let n := (splitLine fills).1.flatten.length
    slicesOk 0 (splitLine fills).1 && (n > maxRequestLine || n ≤ 2 || headerBlockLen + n > maxHeaderBlock ||
      cleanHeaders fuel (headerBlockLen + n) (splitLine fills).2)

/- So are those of the request line and, where it has its three words, those of the headers. -/
def clean (fills : List Bytes) : Bool :=
  let n := (splitLine fills).1.flatten.length
  slicesOk 0 (splitLine fills).1 && (n > maxRequestLine ||
    (splitWhitespace ((fromUtf8 (splitLine fills).1.flatten).getD [])).length < 3 ||
    cleanHeaders (maxHeaderBlock + 1) n (splitLine fills).2)

theorem headersClean (fuel : Nat) {len : Nat} (isClean : cleanHeaders fuel len fills = true) :
    Matches (fun left s => s = ⟨left.flatten,closed⟩) (headerLoop (fillsLine closed) fuel len fills)
      (headerLoop Stream.readLimitedLine fuel len ⟨fills.flatten,closed⟩) := by
  induction fuel generalizing len fills with
  | zero => exact .error _
  | succ fuel ih =>
    rw [cleanHeaders,Bool.and_eq_true,Bool.or_eq_true,Bool.or_eq_true,Bool.or_eq_true] at isClean
    obtain ⟨slices,others⟩ := isClean
    have line := @lineClean fills closed slices
    rw [headerLoop,headerLoop]
    generalize fillsLine closed fills = x at line
    generalize Stream.readLimitedLine ⟨fills.flatten,closed⟩ = y at line
    cases line with
    | error e => exact .error e
    | @ok p q same =>
      obtain ⟨_,n,later⟩ := p
      obtain ⟨_,_,_⟩ := q
      obtain ⟨rfl,rfl,rfl,_,rfl,fits,rfl⟩ := same
      dsimp only at fits ⊢
      by_cases blank : (splitLine fills).1.flatten.length ≤ 2
      · rw [if_pos blank,if_pos blank]
        exact .ok rfl
      · rw [if_neg blank,if_neg blank]
        by_cases large : len + (splitLine fills).1.flatten.length > maxHeaderBlock
        · rw [if_pos large,if_pos large]
          exact .error _
        · rw [if_neg large,if_neg large]
          rcases others with ((exceeds | short) | block) | more
          · exact absurd (of_decide_eq_true exceeds) (Nat.not_lt.mpr fits)
          · exact absurd (of_decide_eq_true short) blank
          · exact absurd (of_decide_eq_true block) large
          · exact ih more

theorem headersNone (fuel len : Nat) : cleanHeaders fuel len [] = true := by
  cases fuel with
  | zero => rfl
  | succ fuel => rfl

theorem lineEnded (slices : slicesOk 0 (splitLine fills).1 = true)
    (fits : (splitLine fills).1.flatten.length ≤ maxRequestLine)
    (more : (splitLine fills).2 ≠ []) : ∃ text, fromUtf8 (splitLine fills).1.flatten = some text ∧
      fillsLine closed fills = .ok (text,(splitLine fills).1.flatten.length,(splitLine fills).2) := by
  rcases @judgeClean closed [] 0 _ slices (Nat.zero_le _) with ⟨exceeds,_⟩ | ⟨text,_,whole,judged⟩
  · omega
  · have last : text.getLast? = some '\n' := by
      refine (textLast whole).mp (Decidable.byContradiction (fun unended => more (splitRest unended)))
    refine ⟨text,whole,?_⟩
    rw [fillsLine,judged,judge,List.nil_append,if_pos (.inl last),Nat.zero_add]
    rfl

theorem lineDirty (dirty : slicesOk 0 (splitLine fills).1 = false) : fillsLine closed fills = .error .utf8 := by
  rw [fillsLine,judgeDirty dirty]
  rfl

theorem headersDirty (fuel : Nat) {len : Nat} (dirty : cleanHeaders fuel len fills = false) :
    headerLoop (fillsLine closed) fuel len fills = .error .utf8 := by
  induction fuel generalizing len fills with
  | zero => contradiction
  | succ fuel ih =>
    rw [headerLoop]
    cases slices : slicesOk 0 (splitLine fills).1 with
    | false => rw [lineDirty slices]
    | true =>
      rw [cleanHeaders,slices,Bool.true_and,Bool.or_eq_false_iff,Bool.or_eq_false_iff,Bool.or_eq_false_iff,
        decide_eq_false_iff_not,decide_eq_false_iff_not,decide_eq_false_iff_not] at dirty
      obtain ⟨⟨⟨fits,blank⟩,large⟩,later⟩ := dirty
      have more : (splitLine fills).2 ≠ [] := by
        intro none
        rw [none,headersNone] at later
        contradiction
      obtain ⟨text,_,read⟩ := @lineEnded fills closed slices (Nat.not_lt.mp fits) more
      rw [read]
      dsimp only
      rw [if_neg blank,if_neg large]
      exact ih later

theorem handshakeClean (isClean : clean fills = true) :
    Matches (fun p q => p.1 = q.1 ∧ q.2 = ⟨p.2.flatten,closed⟩) (httpHandshake (fillsLine closed) fills)
      (httpHandshake Stream.readLimitedLine ⟨fills.flatten,closed⟩) := by
  rw [clean,Bool.and_eq_true,Bool.or_eq_true,Bool.or_eq_true] at isClean
  obtain ⟨slices,others⟩ := isClean
  have line := @lineClean fills closed slices
  cases read : fillsLine closed fills with
  | error e =>
    rw [read] at line
    rw [httpHandshake,httpHandshake,read]
    generalize Stream.readLimitedLine ⟨fills.flatten,closed⟩ = y at line
    cases line
    exact .error e
  | ok p =>
    rw [read] at line
    cases taken : Stream.readLimitedLine ⟨fills.flatten,closed⟩ with
    | error e =>
      rw [taken] at line
      cases line
    | ok q =>
      rw [taken] at line
      cases line with
      | ok same =>
        obtain ⟨text,n,later⟩ := p
        obtain ⟨_,_,_⟩ := q
        obtain ⟨rfl,rfl,rfl,whole,rfl,fits,rfl⟩ := same
        refine handshakeMatch read taken (fun three => headersClean _ ?_)
        rcases others with (exceeds | fewer) | more
        · exact absurd (of_decide_eq_true exceeds) (Nat.not_lt.mpr fits)
        · rw [whole] at fewer
          exact absurd (of_decide_eq_true fewer) (Nat.not_lt.mpr three)
        · exact more

theorem handshakeDirty (dirty : clean fills = false) : httpHandshake (fillsLine closed) fills = .error .utf8 := by
  rw [httpHandshake]
  cases slices : slicesOk 0 (splitLine fills).1 with
  | false => rw [lineDirty slices]
  | true =>
    rw [clean,slices,Bool.true_and,Bool.or_eq_false_iff,Bool.or_eq_false_iff,decide_eq_false_iff_not,
      decide_eq_false_iff_not] at dirty
    obtain ⟨⟨fits,three⟩,headers⟩ := dirty
    have more : (splitLine fills).2 ≠ [] := by
      intro none
      rw [none,headersNone] at headers
      contradiction
    obtain ⟨text,whole,read⟩ := @lineEnded fills closed slices (Nat.not_lt.mp fits) more
    rw [whole] at three
    rw [read]
    dsimp only at three ⊢
    rcases words : splitWhitespace text with _ | ⟨method,_ | ⟨target,_ | ⟨version,rest⟩⟩⟩
    · rw [Option.getD_some,words] at three
      exact absurd (by decide) three
    · rw [Option.getD_some,words] at three
      exact absurd (show 1 < 3 by decide) three
    · rw [Option.getD_some,words] at three
      exact absurd (show 2 < 3 by decide) three
    · dsimp only
      rw [headersDirty _ headers]

end Fragments

section Boundary
variable {s : Socket} {r : BufReader} {left : List Bytes} {closed : Bool}

theorem readerBytes (at' : ReaderAt s.fills closed r left) : left.flatten = r.buffer ++ r.socket.stream.bytes := by
  rw [← at'.fills,BufReader.fills,List.flatten_append,socketFillsFlatten]
  by_cases empty : r.buffer = []
  · rw [if_pos empty,empty]
    rfl
  · rw [if_neg empty,List.flatten_singleton]

theorem flattenSuffix {one two : List Bytes} (suffix' : one <:+ two) : one.flatten.length ≤ two.flatten.length := by
  obtain ⟨front,rfl⟩ := suffix'
  rw [List.flatten_append,List.length_append]
  exact Nat.le_add_left _ _

theorem boundaryIff (at' : ReaderAt s.fills closed r left) :
    r.socket.stream.bytes = left.flatten ↔ ∃ later, later <:+ s.fills ∧ later.flatten = left.flatten := by
  have bytes := readerBytes at'
  have rest := socketFillsFlatten r.socket
  constructor
  · intro same
    refine ⟨r.socket.fills,?_,rest.trans same⟩
    rcases at'.placed with ⟨_,found⟩ | ⟨taken,_,found⟩
    · exact found
    · exact (List.suffix_cons _ _).trans found
  · rintro ⟨later,inside,same⟩
    rcases at'.placed with ⟨empty,_⟩ | ⟨taken,nonempty,found⟩
    · rw [bytes,empty,List.nil_append]
    · have size : later.flatten.length = r.buffer.length + r.socket.fills.flatten.length := by
        rw [same,bytes,rest,List.length_append]
      have whole : ((taken ++ r.buffer)::r.socket.fills).flatten.length =
          taken.length + r.buffer.length + r.socket.fills.flatten.length := by
        rw [List.flatten_cons,List.length_append,List.length_append]
      have positive := List.length_pos_iff.mpr nonempty
      have shorter : later <:+ r.socket.fills := by
        rcases List.suffix_or_suffix_of_suffix inside found with less | more
        · rcases List.suffix_cons_iff.mp less with all' | behind
          · rw [all',whole] at size
            omega
          · exact behind
        · have length := flattenSuffix more
          omega
      have length := flattenSuffix shorter
      have empty : r.buffer = [] := List.length_eq_zero_iff.mp (by omega)
      rw [bytes,empty,List.nil_append]

end Boundary

theorem httpReaders {s : Socket} (whole : s.Whole) :
    Matches (fun p q => p.1 = q.1 ∧ ReaderAt s.fills s.closed p.2 q.2) (httpHandshake BufReader.readLimitedLine ⟨[],s⟩)
      (httpHandshake (fillsLine s.closed) s.fills) :=
  httpMatches lineMatches ⟨whole,rfl,List.nil_append _,.inl ⟨rfl,List.suffix_refl _⟩⟩

theorem socks5Exact {s : Socket} (whole : s.Whole) :
    (socks5Handshake Socket.readExact s).map (fun done => (done.1,done.2.stream)) = socks5Handshake Stream.readExact s.stream := by
  have found := socks5Matches whole
  generalize socks5Handshake Socket.readExact s = x at found
  generalize socks5Handshake Stream.readExact s.stream = y at found
  cases found with
  | error e => rfl
  | @ok p q related =>
    obtain ⟨same,rest⟩ := related
    show Except.ok (p.1,p.2.stream) = Except.ok q
    rw [same,← rest]

theorem httpDirty {s : Socket} (whole : s.Whole) (dirty : clean s.fills = false) : httpInbound s = .error .utf8 := by
  have readers := httpReaders whole
  rw [handshakeDirty dirty] at readers
  rw [httpInbound]
  generalize httpHandshake BufReader.readLimitedLine ⟨[],s⟩ = x at readers
  cases readers
  rfl

theorem httpClean {s : Socket} (whole : s.Whole) (isClean : clean s.fills = true) :
    (∃ e, httpInbound s = .error e ∧ httpHandshake Stream.readLimitedLine s.stream = .error e) ∨
      ∃ target r left, httpInbound s = .ok (target,r.socket) ∧ ReaderAt s.fills s.closed r left ∧
        httpHandshake Stream.readLimitedLine s.stream = .ok (target,⟨left.flatten,s.closed⟩) := by
  have readers := httpReaders whole
  have fills := @handshakeClean s.fills s.closed isClean
  have bytes : (⟨s.fills.flatten,s.closed⟩ : Stream) = s.stream := by
    rw [socketFillsFlatten]
    rfl
  rw [bytes] at fills
  rw [httpInbound]
  generalize httpHandshake BufReader.readLimitedLine ⟨[],s⟩ = x at readers
  generalize httpHandshake (fillsLine s.closed) s.fills = y at readers fills
  generalize httpHandshake Stream.readLimitedLine s.stream = z at fills
  cases readers with
  | error e =>
    cases fills
    exact .inl ⟨e,rfl,rfl⟩
  | @ok p q related =>
    cases fills with
    | @ok _ stream same =>
      obtain ⟨target,r⟩ := p
      obtain ⟨_,left⟩ := q
      obtain ⟨_,_⟩ := stream
      obtain ⟨rfl,at'⟩ := related
      obtain ⟨rfl,rfl⟩ := same
      exact .inr ⟨target,r,left,rfl,at',rfl⟩

/- The SOCKS5 handshake depends on the bytes alone and leaves all that follows it. The HTTP
handshake does so exactly when the bytes of a line are not UTF-8, or when every slice of a line that
a read delivers is UTF-8 of its own and a successful handshake ends where a read ended. -/
theorem inboundExact (s : Socket) (whole : s.Whole) :
    (socks5Handshake Socket.readExact s).map (fun done => (done.1,done.2.stream)) = socks5Handshake Stream.readExact s.stream ∧
    ((httpInbound s).map (fun done => (done.1,done.2.stream)) = httpHandshake Stream.readLimitedLine s.stream ↔
      httpHandshake Stream.readLimitedLine s.stream = .error .utf8 ∨
        (clean s.fills = true ∧ ∀ target rest, httpHandshake Stream.readLimitedLine s.stream = .ok (target,rest) →
          ∃ later, later <:+ s.fills ∧ later.flatten = rest.bytes)) := by
  refine ⟨socks5Exact whole,?_⟩
  cases isClean : clean s.fills with
  | false =>
    rw [httpDirty whole isClean]
    constructor
    · intro same
      exact .inl same.symm
    · rintro (refused | ⟨no,_⟩)
      · exact refused.symm
      · contradiction
  | true =>
    rcases httpClean whole isClean with ⟨e,code,bytes⟩ | ⟨target,r,left,code,at',bytes⟩
    · rw [code,bytes]
      refine ⟨fun _ => .inr ⟨rfl,fun target rest found => ?_⟩,fun _ => rfl⟩
      contradiction
    · rw [code,bytes]
      have boundary := boundaryIff at'
      constructor
      · intro same
        refine .inr ⟨rfl,fun target' rest found => ?_⟩
        obtain ⟨_,rfl⟩ := Prod.mk.inj (Except.ok.inj found)
        exact boundary.mp (congrArg Stream.bytes (Prod.mk.inj (Except.ok.inj same)).2)
      · rintro (refused | ⟨_,ended⟩)
        · contradiction
        · show Except.ok (target,r.socket.stream) = Except.ok (target,(⟨left.flatten,s.closed⟩ : Stream))
          have same : r.socket.stream = ⟨left.flatten,s.closed⟩ := by
            rw [← boundary.mpr (ended target _ rfl),← at'.closed]
            rfl
          rw [same]

def connectRequest : Bytes :=
  toUtf8 ['C','O','N','N','E','C','T',' ','a','.','b',':','4','4','3',' ','H','T','T','P','/','1','.','1','\r','\n',
    '\r','\n']

theorem inboundExactTwo : (httpInbound ⟨[connectRequest,[1,2]],false⟩).map (fun done => (done.1,done.2.stream)) =
    .ok (⟨.domain ['a','.','b'],443,.tcp⟩,⟨[1,2],false⟩) := by
  have whole : (⟨[connectRequest,[1,2]],false⟩ : Socket).Whole := by
    intro fragment member
    have tests : ([connectRequest,[1,2]].all (fun fragment => !fragment.isEmpty)) = true := by decide +kernel
    have test := List.all_eq_true.mp tests fragment member
    rintro rfl
    contradiction
  have bytes : httpHandshake Stream.readLimitedLine (⟨[connectRequest,[1,2]],false⟩ : Socket).stream =
      .ok (⟨.domain ['a','.','b'],443,.tcp⟩,⟨[1,2],false⟩) := by decide +kernel
  have exact' := inboundExact ⟨[connectRequest,[1,2]],false⟩ whole
  rw [bytes] at exact'
  refine exact'.2.mpr (.inr ⟨by decide +kernel,fun target rest found => ?_⟩)
  obtain ⟨_,rfl⟩ := Prod.mk.inj (Except.ok.inj found)
  have fills : (⟨[connectRequest,[1,2]],false⟩ : Socket).fills = [connectRequest] ++ [[1,2]] := by decide +kernel
  exact ⟨[[1,2]],fills ▸ List.suffix_append _ _,rfl⟩

theorem pipelinedLost :
    httpInbound ⟨[connectRequest ++ [1,2]],false⟩ = .ok (⟨.domain ['a','.','b'],443,.tcp⟩,⟨[],false⟩) ∧
    httpHandshake Stream.readLimitedLine (⟨[connectRequest ++ [1,2]],false⟩ : Socket).stream =
      .ok (⟨.domain ['a','.','b'],443,.tcp⟩,⟨[1,2],false⟩) ∧
    httpInbound ⟨[connectRequest.take 26 ++ [0x58,0x3a,0xc3],[0xa9,0x0d,0x0a,0x0d,0x0a]],false⟩ = .error .utf8 ∧
    httpInbound ⟨[connectRequest.take 26 ++ [0x58,0x3a],[0xc3,0xa9,0x0d,0x0a,0x0d,0x0a]],false⟩ =
      .ok (⟨.domain ['a','.','b'],443,.tcp⟩,⟨[],false⟩) := by
  refine ⟨by decide +kernel,by decide +kernel,by decide +kernel,by decide +kernel⟩

end KanoTls.Inbound
