import KanoTls.Outcome
import KanoTls.HelloName
import KanoTls.Camouflage

/-! The parsers that read what an unknown peer sent, with every index, slice and sum of the
source checked. Each returns what the parser of `utils.rs` is modelled to return. -/
namespace KanoTls.Hello
open Uot Wire Patch

/- The X25519 share of a key_share extension, or else its first; `none` is malformed. -/
def preferredShare (record : Bytes) (extEnd : Nat) : Nat → Nat → Option Range → Option (Option Range)
  | 0,_,first => some first
  | fuel+1,cursor,first =>
    if cursor + 4 ≤ extEnd then
      let shareStart := cursor + 4
      let shareEnd := shareStart + u16At record (cursor + 2)
      if shareEnd > extEnd then none
      else if u16At record cursor = 0x001d then some (some (shareStart,shareEnd))
      else preferredShare record extEnd fuel shareEnd (first.or (some (shareStart,shareEnd)))
    else some first

def shareVisit (record : Bytes) (seen : Option Range × Bool) (e : Entry) : Option Range × Bool :=
  if e.extType ≠ 0x0033 ∨ seen.1.isSome ∨ seen.2 then seen
  else if e.stop - (e.start + 4) < 4 then (seen.1,true)
  else
    match preferredShare record e.stop record.length (e.start + 6) none with
    | none => (seen.1,true)
    | some share => (share,seen.2)

def clientHelloKeyShareRange (record : Bytes) : Option Range := do
  let (_,entries) ← walkClientHelloExtensions record
  let seen := entries.foldl (shareVisit record) (none,false)
  if seen.2 then none else seen.1

end KanoTls.Hello

namespace KanoTls.Checked
open Uot Wire Patch Hello Outcome Text

/- `u16::from_be_bytes([b[i], b[i + 1]])`, with an index and with `get(..)?`. -/
def u16Index (max : Nat) (b : Bytes) (i : Nat) : Outcome Nat := do
  let high ← index b i
  let next ← add max i 1
  let low ← index b next
  found (fromBeBytes high low)

def u16Get (max : Nat) (b : Bytes) (i : Nat) : Outcome Nat := do
  let high ← ofOption b[i]?
  let next ← add max i 1
  let low ← ofOption b[next]?
  found (fromBeBytes high low)

def clientHelloRandomAndSessionIdRanges (max : Nat) (record : Bytes) : Outcome (Range × Range) :=
  if record.length < 5 + 44 then absent
  else do
    let first ← index record 0
    if first ≠ 0x16 then absent
    else do
      let kind ← index record 5
      if kind ≠ 0x01 then absent
      else do
        let sessionIdLen ← index record 43
        let stop ← add max 44 sessionIdLen.toNat
        if record.length < stop then absent else found ((11,43),(44,stop))

def walkLoop {σ : Type} (max : Nat) (record : Bytes) (visit : σ → Entry → Outcome σ) (extensionsEnd : Nat) :
    Nat → Nat → σ → Outcome σ
  | 0,_,_ => spins
  | turns+1,cursor,s => do
    let header ← add max cursor 4
    if header ≤ extensionsEnd then do
      let extType ← u16Index max record cursor
      let extLen ← u16Index max record (← add max cursor 2)
      let size ← add max 4 extLen
      let extEnd ← ofOption (checkedAdd max cursor size)
      if extEnd > extensionsEnd then absent
      else do
        let s ← visit s ⟨extType,cursor,extEnd⟩
        walkLoop max record visit extensionsEnd turns extEnd s
    else found s

def walkClientHelloExtensions {σ : Type} (max : Nat) (record : Bytes) (visit : σ → Entry → Outcome σ) (start : σ) :
    Outcome (Nat × σ) :=
  if record.length < 9 then absent
  else do
    let first ← index record 0
    if first ≠ 0x16 then absent
    else do
      let kind ← index record 5
      if kind ≠ 0x01 then absent
      else do
        let (_,sessionIdRange) ← clientHelloRandomAndSessionIdRanges max record
        let cipherSuitesLen ← u16Get max record sessionIdRange.2
        let cursor ← ofOption (checkedAdd max sessionIdRange.2 (← add max 2 cipherSuitesLen))
        let compressionMethodsLen ← ofOption record[cursor]?
        let extensionsLenStart ← ofOption (checkedAdd max cursor (← add max 1 compressionMethodsLen.toNat))
        let extensionsLen ← u16Get max record extensionsLenStart
        let cursor ← ofOption (checkedAdd max extensionsLenStart 2)
        let extensionsEnd ← ofOption (checkedAdd max cursor extensionsLen)
        if extensionsEnd > record.length then absent
        else do
          let s ← walkLoop max record visit extensionsEnd (record.length + 1) cursor start
          found (extensionsLenStart,s)

section Walks
variable {max : Nat} {b : Bytes}

theorem indexByte {i : Nat} (inside : i < b.length) : index b i = found (byteAt b i) := by
  rw [index,dif_pos inside,byteAt,List.getD_eq_getElem?_getD,List.getElem?_eq_getElem inside]
  rfl

theorem u16IndexFits {i : Nat} (room : b.length ≤ max) (inside : i + 2 ≤ b.length) :
    u16Index max b i = found (u16At b i) := by
  simp (disch := omega) only [u16Index,indexByte,addFits,foundThen]
  rfl

theorem getByte {i : Nat} (inside : i < b.length) : ofOption b[i]? = found (byteAt b i) := by
  rw [byteAt,List.getD_eq_getElem?_getD,List.getElem?_eq_getElem inside]
  rfl

theorem getNone {i : Nat} (outside : b.length ≤ i) : ofOption b[i]? = absent := by
  rw [List.getElem?_eq_none outside]
  rfl

theorem u16GetFits {i : Nat} (room : i + 1 ≤ max) : u16Get max b i = ofOption (readU16 b i) := by
  rw [readU16]
  by_cases inside : i + 2 ≤ b.length
  · rw [if_neg (by omega)]
    simp (disch := omega) only [u16Get,getByte,addFits,foundThen]
    rfl
  · rw [if_pos (by omega)]
    by_cases first : i < b.length
    · simp (disch := omega) only [u16Get,getByte,addFits,foundThen]
      rw [getNone (by omega)]
      rfl
    · rw [u16Get,getNone (by omega)]
      rfl

theorem u16Below (b : Bytes) (i : Nat) : u16At b i < 65536 := fromBeBytesSmall _ _

theorem byteBelow (x : UInt8) : x.toNat < 256 := x.toNat_lt

theorem rangesAgree (room : b.length + 65536 ≤ max) :
    clientHelloRandomAndSessionIdRanges max b = ofOption (Hello.clientHelloRandomAndSessionIdRanges b) := by
  unfold clientHelloRandomAndSessionIdRanges Hello.clientHelloRandomAndSessionIdRanges
  split
  · rfl
  · have := byteBelow (byteAt b 43)
    simp (disch := omega) only [indexByte,addFits,foundThen]
    split
    · rfl
    · split
      · rfl
      · split
        · rfl
        · rfl

structure InRecord (b : Bytes) (e : Entry) : Prop where
  header : e.start + 4 ≤ e.stop
  within : e.stop ≤ b.length

theorem walkLoopAgrees {σ : Type} {visit : σ → Entry → Outcome σ} {v : σ → Entry → σ} {extensionsEnd fuel cursor : Nat} {s : σ}
    (visits : ∀ s e, InRecord b e → visit s e = found (v s e)) (room : b.length + 131072 ≤ max)
    (fits : extensionsEnd ≤ b.length) (near : cursor ≤ b.length + 2) (enough : extensionsEnd < cursor + 4 + fuel) :
    walkLoop max b visit extensionsEnd (fuel + 1) cursor s =
      ofOption ((walkEntries b extensionsEnd fuel cursor).map (fun entries => entries.foldl v s)) := by
  induction fuel generalizing cursor s with
  | zero =>
    rw [walkLoop,addFits (by omega),foundThen,if_neg (by omega)]
    rfl
  | succ fuel ih =>
    rw [walkLoop,walkEntries,addFits (by omega),foundThen]
    by_cases more : cursor + 4 ≤ extensionsEnd
    · have := u16Below b (cursor + 2)
      rw [if_pos more,if_pos more]
      simp (disch := omega) only [u16IndexFits,addFits,checkedFits,foundThen,ofSome]
      split
      · rfl
      · rename_i inside
        rw [visits _ _ ⟨by dsimp only; omega,by dsimp only; omega⟩,foundThen,ih (by omega) (by omega),Option.map_map]
        rfl
    · rw [if_neg more,if_neg more]
      rfl

theorem walkAgrees {σ : Type} {visit : σ → Entry → Outcome σ} {v : σ → Entry → σ} {start : σ}
    (visits : ∀ s e, InRecord b e → visit s e = found (v s e)) (room : b.length + 131072 ≤ max) :
    walkClientHelloExtensions max b visit start = ofOption ((Hello.walkClientHelloExtensions b).map (fun found =>
      (found.1,found.2.foldl v start))) := by
  unfold walkClientHelloExtensions Hello.walkClientHelloExtensions
  by_cases short : b.length < 9
  · rw [if_pos short,if_pos (.inl short)]
    rfl
  · rw [if_neg short]
    simp (disch := omega) only [indexByte,foundThen]
    by_cases first : byteAt b 0 = 0x16
    · by_cases kind : byteAt b 5 = 0x01
      · rw [if_neg (not_not.mpr first),if_neg (not_not.mpr kind),if_neg (by simp [short,first,kind]),rangesAgree (by omega)]
        cases ranges : Hello.clientHelloRandomAndSessionIdRanges b with
        | none => rfl
        | some pair =>
          obtain ⟨random,session⟩ := pair
          obtain ⟨_,_,_,_,_,near⟩ := rangesSome ranges
          rw [ofSome,foundThen]
          dsimp only [Option.bind_eq_bind,Option.bind_some]
          rw [u16GetFits (by omega)]
          cases suites : readU16 b session.2 with
          | none => rfl
          | some suitesLen =>
            obtain ⟨_,isSuites⟩ := readU16Some suites
            have := u16Below b session.2
            dsimp only [Option.bind_some]
            simp (disch := omega) only [ofSome,foundThen,addFits,checkedFits]
            by_cases methods : b.length ≤ session.2 + (2 + suitesLen)
            · rw [if_pos methods,getNone methods]
              rfl
            · have := byteBelow (byteAt b (session.2 + (2 + suitesLen)))
              rw [if_neg methods,getByte (by omega)]
              simp (disch := omega) only [ofSome,foundThen,addFits,checkedFits]
              rw [u16GetFits (by omega)]
              cases extensions : readU16 b (session.2 + (2 + suitesLen) +
                  (1 + (byteAt b (session.2 + (2 + suitesLen))).toNat)) with
              | none => rfl
              | some extensionsLen =>
                obtain ⟨inside,isExtensions⟩ := readU16Some extensions
                have := u16Below b (session.2 + (2 + suitesLen) + (1 + (byteAt b (session.2 + (2 + suitesLen))).toNat))
                dsimp only [Option.bind_some]
                simp (disch := omega) only [ofSome,foundThen,checkedFits]
                split
                · rfl
                · rw [walkLoopAgrees visits room (by omega) (by omega) (by omega)]
                  cases walkEntries b _ b.length _ with
                  | none => rfl
                  | some entries => rfl
      · rw [if_neg (not_not.mpr first),if_pos kind,if_pos (.inr (.inr kind))]
        rfl
    · rw [if_pos first,if_pos (.inr (.inl first))]
      rfl

theorem walkInside {spot : Nat} {entries : List Entry} (walked : Hello.walkClientHelloExtensions b = some (spot,entries)) :
    44 ≤ spot ∧ spot + 2 ≤ b.length ∧ ∀ e ∈ entries, InRecord b e ∧ spot + 2 ≤ e.start := by
  unfold Hello.walkClientHelloExtensions at walked
  obtain ⟨_,walked⟩ := Option.ite_none_left_eq_some.mp walked
  obtain ⟨⟨random,session⟩,ranges,walked⟩ := Option.bind_eq_some_iff.mp walked
  obtain ⟨_,_,_,_,isSession,_⟩ := rangesSome ranges
  obtain ⟨suitesLen,suites,walked⟩ := Option.bind_eq_some_iff.mp walked
  obtain ⟨_,walked⟩ := Option.ite_none_left_eq_some.mp walked
  obtain ⟨extensionsLen,extensions,walked⟩ := Option.bind_eq_some_iff.mp walked
  obtain ⟨within,walked⟩ := Option.ite_none_left_eq_some.mp walked
  obtain ⟨found,listed,walked⟩ := Option.bind_eq_some_iff.mp walked
  cases Option.some.inj walked
  have low : 44 ≤ session.2 := by
    rw [isSession]
    exact Nat.le_add_right _ _
  refine ⟨by omega,by omega,?_⟩
  intro e member
  have ok := (walkEntriesOk listed).1 e member
  have header := ok.header
  have stop := ok.within
  have after := ok.after
  exact ⟨⟨header,by omega⟩,after⟩

end Walks

def nameVisit (max : Nat) (record : Bytes) (seen : Option Text × Bool) (e : Entry) : Outcome (Option Text × Bool) :=
  if e.extType ≠ 0x0000 ∨ seen.1.isSome ∨ seen.2 then found seen
  else do
    let extData ← add max e.start 4
    let size ← sub e.stop extData
    if size < 5 then found (seen.1,true)
    else do
      let kind ← index record (← add max extData 2)
      if kind ≠ 0x00 then found (seen.1,true)
      else do
        let hostLen ← u16Index max record (← add max extData 3)
        let hostStart ← add max extData 5
        match checkedAdd max hostStart hostLen with
        | none => found (seen.1,true)
        | some hostEnd =>
          if hostEnd > e.stop then found (seen.1,true)
          else do
            let host ← range record hostStart hostEnd
            found (fromUtf8 host,seen.2)

def extractClientHelloServerName (max : Nat) (record : Bytes) : Outcome Text := do
  let (_,seen) ← walkClientHelloExtensions max record (nameVisit max record) (none,false)
  if seen.2 then absent else ofOption seen.1

def preferredShare (max : Nat) (record : Bytes) (extEnd : Nat) : Nat → Nat → Option Range → Outcome (Option (Option Range))
  | 0,_,_ => spins
  | turns+1,cursor,first => do
    let header ← add max cursor 4
    if header ≤ extEnd then do
      let group ← u16Index max record cursor
      let shareLen ← u16Index max record (← add max cursor 2)
      let shareStart ← add max cursor 4
      match checkedAdd max shareStart shareLen with
      | none => found none
      | some shareEnd =>
        if shareEnd > extEnd then found none
        else if group = 0x001d then found (some (some (shareStart,shareEnd)))
        else preferredShare max record extEnd turns shareEnd (first.or (some (shareStart,shareEnd)))
    else found (some first)

def shareVisit (max : Nat) (record : Bytes) (seen : Option Range × Bool) (e : Entry) : Outcome (Option Range × Bool) :=
  if e.extType ≠ 0x0033 ∨ seen.1.isSome ∨ seen.2 then found seen
  else do
    let extData ← add max e.start 4
    let size ← sub e.stop extData
    if size < 4 then found (seen.1,true)
    else do
      let share ← preferredShare max record e.stop (record.length + 1) (← add max extData 2) none
      match share with
      | none => found (seen.1,true)
      | some share => found (share,seen.2)

def clientHelloKeyShareRange (max : Nat) (record : Bytes) : Outcome Range := do
  let (_,seen) ← walkClientHelloExtensions max record (shareVisit max record) (none,false)
  if seen.2 then absent else ofOption seen.1

section Readers
variable {max : Nat} {b : Bytes}

/- Both readers stop at the first result and give up once `malformed` is set. -/
theorem readerAgrees {α : Type} {visit : Option α × Bool → Entry → Outcome (Option α × Bool)}
    {v : Option α × Bool → Entry → Option α × Bool} (visits : ∀ s e, InRecord b e → visit s e = found (v s e))
    (room : b.length + 131072 ≤ max) :
    (do
      let (_,seen) ← walkClientHelloExtensions max b visit (none,false)
      if seen.2 then absent else ofOption seen.1) = ofOption (do
      let (_,entries) ← Hello.walkClientHelloExtensions b
      let seen := entries.foldl v (none,false)
      if seen.2 then none else seen.1) := by
  rw [walkAgrees visits room]
  cases Hello.walkClientHelloExtensions b with
  | none => rfl
  | some walked =>
    dsimp only [Option.map_some,Option.bind_eq_bind,Option.bind_some]
    rw [ofSome,foundThen]
    dsimp only
    split
    · rfl
    · rfl

theorem readerInside {α : Type} {P : α → Prop} {v : Option α × Bool → Entry → Option α × Bool} {a : α}
    (visits : ∀ seen e, InRecord b e → (∀ a, seen.1 = some a → P a) → ∀ a, (v seen e).1 = some a → P a)
    (read : (do
      let (_,entries) ← Hello.walkClientHelloExtensions b
      let seen := entries.foldl v (none,false)
      if seen.2 then none else seen.1) = some a) : P a := by
  obtain ⟨⟨spot,entries⟩,walked,read⟩ := Option.bind_eq_some_iff.mp read
  obtain ⟨_,read⟩ := Option.ite_none_left_eq_some.mp read
  have kept : ∀ a, (entries.foldl v (none,false)).1 = some a → P a :=
    List.foldlRecOn entries v (fun _ none => by contradiction)
      (fun seen before e member => visits seen e ((walkInside walked).2.2 e member).1 before)
  exact kept a read

theorem nameVisitAgrees (room : b.length + 131072 ≤ max) (seen : Option Text × Bool) (e : Entry) (inside : InRecord b e) :
    nameVisit max b seen e = found (Hello.nameVisit b seen e) := by
  obtain ⟨header,within⟩ := inside
  unfold nameVisit Hello.nameVisit
  dsimp only
  split
  · rfl
  · simp (disch := omega) only [addFits,subFits,foundThen]
    split
    · rfl
    · simp (disch := omega) only [indexByte,u16IndexFits,foundThen]
      split
      · rfl
      · have := u16Below b (e.start + 4 + 3)
        simp (disch := omega) only [checkedFits]
        split
        · rfl
        · simp (disch := omega) only [rangeFits,foundThen]

theorem serverNameAgrees (room : b.length + 131072 ≤ max) :
    extractClientHelloServerName max b = ofOption (Hello.extractClientHelloServerName b) :=
  readerAgrees (nameVisitAgrees room) room

theorem preferredAgrees {extEnd fuel cursor : Nat} {first : Option Range} (room : b.length + 131072 ≤ max)
    (fits : extEnd ≤ b.length) (near : cursor ≤ b.length + 2) (enough : extEnd < cursor + 4 + fuel) :
    preferredShare max b extEnd (fuel + 1) cursor first = found (Hello.preferredShare b extEnd fuel cursor first) := by
  induction fuel generalizing cursor first with
  | zero =>
    rw [preferredShare,addFits (by omega),foundThen,if_neg (by omega)]
    rfl
  | succ fuel ih =>
    rw [preferredShare,Hello.preferredShare,addFits (by omega),foundThen]
    by_cases more : cursor + 4 ≤ extEnd
    · have := u16Below b (cursor + 2)
      rw [if_pos more,if_pos more]
      simp (disch := omega) only [u16IndexFits,addFits,checkedFits,foundThen]
      split
      · rfl
      · split
        · rfl
        · exact ih (by omega) (by omega)
    · rw [if_neg more,if_neg more]

theorem shareVisitAgrees (room : b.length + 131072 ≤ max) (seen : Option Range × Bool) (e : Entry) (inside : InRecord b e) :
    shareVisit max b seen e = found (Hello.shareVisit b seen e) := by
  obtain ⟨header,within⟩ := inside
  unfold shareVisit Hello.shareVisit
  split
  · rfl
  · simp (disch := omega) only [addFits,subFits,foundThen]
    split
    · rfl
    · simp (disch := omega) only [preferredAgrees,foundThen]
      cases Hello.preferredShare b e.stop b.length (e.start + 6) none with
      | none => rfl
      | some share => rfl

theorem clientShareAgrees (room : b.length + 131072 ≤ max) :
    clientHelloKeyShareRange max b = ofOption (Hello.clientHelloKeyShareRange b) :=
  readerAgrees (shareVisitAgrees room) room

def RangeIn (b : Bytes) (range : Range) : Prop := range.1 ≤ range.2 ∧ range.2 ≤ b.length

theorem serverNameInside {name : Text} (read : Hello.extractClientHelloServerName b = some name) :
    ∃ range, RangeIn b range ∧ fromUtf8 (slice b range.1 range.2) = some name := by
  refine readerInside (P := fun name => ∃ range, RangeIn b range ∧ fromUtf8 (slice b range.1 range.2) = some name) ?_ read
  intro seen e inside before a visited
  have stop := inside.within
  unfold Hello.nameVisit at visited
  dsimp only at visited
  split at visited
  · exact before a visited
  · split at visited
    · exact before a visited
    · split at visited
      · exact before a visited
      · split at visited
        · exact before a visited
        · have here : RangeIn b (e.start + 4 + 5,e.start + 4 + 5 + u16At b (e.start + 4 + 3)) :=
            ⟨Nat.le_add_right _ _,by dsimp only; omega⟩
          exact ⟨_,here,visited⟩

theorem preferredInside {extEnd fuel cursor : Nat} {first : Option Range} (fits : extEnd ≤ b.length)
    (before : ∀ range, first = some range → RangeIn b range) {range : Range}
    (located : Hello.preferredShare b extEnd fuel cursor first = some (some range)) : RangeIn b range := by
  induction fuel generalizing cursor first with
  | zero => exact before range (Option.some.inj located)
  | succ fuel ih =>
    rw [Hello.preferredShare] at located
    split at located
    · dsimp only at located
      obtain ⟨inside,located⟩ := Option.ite_none_left_eq_some.mp located
      have here : RangeIn b (cursor + 4,cursor + 4 + u16At b (cursor + 2)) := ⟨Nat.le_add_right _ _,by dsimp only; omega⟩
      split at located
      · cases Option.some.inj (Option.some.inj located)
        exact here
      · refine ih (fun other isFirst => ?_) located
        cases first with
        | none =>
          cases Option.some.inj isFirst
          exact here
        | some one => exact before other isFirst
    · exact before range (Option.some.inj located)

theorem clientShareInside {range : Range} (read : Hello.clientHelloKeyShareRange b = some range) : RangeIn b range := by
  refine readerInside (P := RangeIn b) ?_ read
  intro seen e inside before a visited
  unfold Hello.shareVisit at visited
  split at visited
  · exact before a visited
  · split at visited
    · exact before a visited
    · split at visited
      · exact before a visited
      · rename_i share located
        dsimp only at visited
        rw [visited] at located
        exact preferredInside inside.within (fun _ none => by contradiction) located

end Readers

end KanoTls.Checked
