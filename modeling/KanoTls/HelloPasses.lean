import KanoTls.HelloChecked

/-! `stable_client_hello_fingerprint` and its passes with every index, slice and sum checked.
A pass writes what the walk before it collected, so its ranges lie inside the record. -/
namespace KanoTls.Checked
open Uot Wire Patch Hello Outcome

/- The slices as ranges of the record. -/
def extractClientHelloRandomAndSessionId (max : Nat) (record : Bytes) : Outcome (Range × Range) := do
  let (random,session) ← clientHelloRandomAndSessionIdRanges max record
  let (_,afterRandomStart) ← splitAt record random.1
  let (_,afterRandom) ← splitAt afterRandomStart (← sub random.2 random.1)
  let sessionOffset ← sub session.1 random.2
  let sessionLen ← sub session.2 session.1
  let (_,afterSessionStart) ← splitAt afterRandom sessionOffset
  let _ ← splitAt afterSessionStart sessionLen
  found (random,session)

def pushed (visit : Entry → Outcome (Option (List Range))) (ranges : Option (List Range)) (e : Entry) :
    Outcome (Option (List Range)) :=
  match ranges with
  | none => found none
  | some ranges => do
    let more ← visit e
    found (more.map (ranges ++ ·))

def zeroed (max : Nat) (visit : Entry → Outcome (Option (List Range))) (record : Bytes) : Outcome Bytes := do
  let (_,ranges) ← walkClientHelloExtensions max record (pushed visit) (some [])
  match ranges with
  | none => absent
  | some ranges => fillRanges 0 ranges record

def shareRanges (max : Nat) (record : Bytes) (extEnd : Nat) : Nat → Nat → Outcome (Option (List Range))
  | 0,_ => spins
  | turns+1,cursor => do
    let header ← add max cursor 4
    if header ≤ extEnd then do
      let shareLen ← u16Index max record (← add max cursor 2)
      let shareStart ← add max cursor 4
      match checkedAdd max shareStart shareLen with
      | none => found none
      | some shareEnd =>
        if shareEnd > extEnd then found none
        else do
          let rest ← shareRanges max record extEnd turns shareEnd
          found (rest.map ((shareStart,shareEnd)::·))
    else found (some [])

def keyShareVisit (max : Nat) (record : Bytes) (e : Entry) : Outcome (Option (List Range)) :=
  if e.extType ≠ 0x0033 then found (some [])
  else do
    let extData ← add max e.start 4
    let size ← sub e.stop extData
    if size < 2 then found none
    else do
      let shareCursor ← add max extData 2
      shareRanges max record e.stop (record.length + 1) shareCursor

def normalizeClientHelloKeyShares (max : Nat) (record : Bytes) : Outcome Bytes :=
  zeroed max (keyShareVisit max record) record

def echVariableFieldRanges (max : Nat) (record : Bytes) (data : Range) : Outcome (Nat × Range × Range) :=
  if data.2 = data.1 then absent
  else do
    let size ← sub data.2 data.1
    if size < 8 then absent
    else do
      let encLen ← u16Index max record (← add max data.1 6)
      let encStart ← add max data.1 8
      let encEnd ← ofOption (checkedAdd max encStart encLen)
      if saturatingAdd max encEnd 2 > data.2 then absent
      else do
        let payloadLen ← u16Index max record encEnd
        let payloadStart ← add max encEnd 2
        let payloadEnd ← ofOption (checkedAdd max payloadStart payloadLen)
        if payloadEnd ≠ data.2 then absent
        else do
          let configId ← add max data.1 5
          found (configId,(encStart,encEnd),(payloadStart,payloadEnd))

def echVisit (max : Nat) (record : Bytes) (e : Entry) : Outcome (Option (List Range)) :=
  if e.extType ≠ echExtensionType then found (some [])
  else do
    let data ← add max e.start 4
    if e.stop = data then found none
    else do
      let kind ← index record data
      if kind ≠ 0 then found (some [])
      else do
        match ← attempt (echVariableFieldRanges max record (data,e.stop)) with
        | none => found none
        | some (configId,enc,payload) => do
          let after ← add max configId 1
          found (some [(configId,after),enc,payload])

def normalizeClientHelloEchExtension (max : Nat) (record : Bytes) : Outcome Bytes := zeroed max (echVisit max record) record

def zeroSuites (max suitesEnd : Nat) : Nat → Nat → Bytes → Outcome Bytes
  | 0,_,_ => spins
  | turns+1,cursor,record => do
    let next ← add max cursor 2
    if next ≤ suitesEnd then do
      let value ← u16Index max record cursor
      let record ← if isGreaseValue value then fillRanges 0 [(cursor,next)] record else found record
      zeroSuites max suitesEnd turns next record
    else found record

def greaseItems (max : Nat) (record : Bytes) (listEnd : Nat) : Nat → Nat → Outcome (List Range)
  | 0,_ => spins
  | turns+1,cursor => do
    let next ← add max cursor 2
    if next ≤ listEnd then do
      let value ← u16Index max record cursor
      let rest ← greaseItems max record listEnd turns next
      found (if isGreaseValue value then (cursor,next)::rest else rest)
    else found []

def listItems (max : Nat) (record : Bytes) (e : Entry) (extData width listLen : Nat) : Outcome (Option (List Range)) :=
  match (checkedAdd max extData width).bind (fun v => checkedAdd max v listLen) with
  | none => found none
  | some listEnd => do
    let listStart ← add max extData width
    if listEnd > e.stop then found none
    else do
      let items ← greaseItems max record listEnd (record.length + 1) listStart
      found (some items)

def greaseVisit (max : Nat) (record : Bytes) (e : Entry) : Outcome (Option (List Range)) :=
  if isGreaseValue e.extType then do
    let stop ← add max e.start 2
    found (some [(e.start,stop)])
  else do
    let extData ← add max e.start 4
    if e.extType = supportedGroupsExtensionType then do
      let size ← sub e.stop extData
      if size < 2 then found none
      else do
        let listLen ← u16Index max record extData
        listItems max record e extData 2 listLen
    else if e.extType = supportedVersionsExtensionType then
      if e.stop = extData then found none
      else do
        let listLen ← index record extData
        listItems max record e extData 1 listLen.toNat
    else found (some [])

def normalizeClientHelloGreasePositions (max : Nat) (record : Bytes) : Outcome Bytes := do
  let (_,session) ← clientHelloRandomAndSessionIdRanges max record
  let cipherSuitesLen ← u16Get max record session.2
  let suitesStart ← ofOption (checkedAdd max session.2 2)
  let suitesEnd ← ofOption (checkedAdd max suitesStart cipherSuitesLen)
  if suitesEnd > record.length then absent
  else do
    let record ← zeroSuites max suitesEnd (record.length + 1) suitesStart record
    zeroed max (greaseVisit max record) record

def paddingVisit (seen : Option Entry) (e : Entry) : Option Entry :=
  if e.extType = paddingExtensionType ∧ seen.isNone then some e else seen

/- The first padding extension; the later writes see the shorter record. -/
def normalizeClientHelloPaddingExtension (max : Nat) (record : Bytes) : Outcome Bytes := do
  let (extensionsLenStart,padding) ← walkClientHelloExtensions max record (fun seen e => found (paddingVisit seen e)) none
  match padding with
  | none => found record
  | some entry => do
    let removed ← sub entry.stop entry.start
    let _ ← range record entry.start entry.stop
    let record := record.take entry.start ++ record.drop entry.stop
    let extensionsLen ← u16Index max record extensionsLenStart
    let newExtensionsLen ← ofOption (checkedSub extensionsLen removed)
    let record ← copyFromSlice record extensionsLenStart (← add max extensionsLenStart 2) (toBeBytes newExtensionsLen)
    let recordLen ← u16Index max record 3
    let newRecordLen ← ofOption (checkedSub recordLen removed)
    let record ← copyFromSlice record 3 5 (toBeBytes newRecordLen)
    let high ← index record 6
    let low ← u16Index max record 7
    let newHandshakeLen ← ofOption (checkedSub (high.toNat * 65536 + low) removed)
    copyFromSlice record 6 9 (UInt8.ofNat (newHandshakeLen / 65536)::toBeBytes newHandshakeLen)

def stableClientHelloFingerprint (max : Nat) (hash : KeyedHash) (record : Bytes) : Outcome Bytes := do
  let (random,session) ← extractClientHelloRandomAndSessionId max record
  let normalized ← fillRanges 0 [random,session] record
  let normalized ← normalizeClientHelloKeyShares max normalized
  let normalized ← normalizeClientHelloGreasePositions max normalized
  let normalized ← normalizeClientHelloEchExtension max normalized
  let normalized ← normalizeClientHelloPaddingExtension max normalized
  found (hash.digest clientHelloFpContext normalized)

section Passes
variable {max : Nat} {b : Bytes}

theorem foldCollect {v : Entry → Option (List Range)} {entries : List Entry} {ranges : List Range} :
    entries.foldl (fun (s : Option (List Range)) e => s.bind (fun before => (v e).map (before ++ ·))) (some ranges) =
      (collect v entries).map (ranges ++ ·) := by
  induction entries generalizing ranges with
  | nil =>
    show some ranges = some (ranges ++ [])
    rw [List.append_nil]
  | cons e rest ih =>
    rw [List.foldl_cons,Option.bind_some]
    unfold collect at ih ⊢
    rw [List.mapM_cons]
    cases v e with
    | none =>
      have stuck : ∀ list : List Entry, list.foldl (fun (s : Option (List Range)) e =>
          s.bind (fun before => (v e).map (before ++ ·))) none = none := by
        intro list
        induction list with
        | nil => rfl
        | cons e rest ih => exact ih
      exact stuck rest
    | some here =>
      rw [Option.map_some,ih]
      cases rest.mapM v with
      | none => rfl
      | some lists =>
        show some (ranges ++ here ++ lists.flatten) = some (ranges ++ (here ++ lists.flatten))
        rw [List.append_assoc]

structure Visits (b : Bytes) (visit : Entry → Outcome (Option (List Range))) (v : Entry → Option (List Range)) : Prop where
  agrees : ∀ e, InRecord b e → visit e = found (v e)
  within : ∀ e ranges, InRecord b e → v e = some ranges → ∀ range ∈ ranges, RangeIn b range

variable {visit : Entry → Outcome (Option (List Range))} {v : Entry → Option (List Range)}

theorem pushedAgrees (visits : Visits b visit v) (s : Option (List Range)) (e : Entry) (inside : InRecord b e) :
    pushed visit s e = found (s.bind (fun before => (v e).map (before ++ ·))) := by
  cases s with
  | none => rfl
  | some before =>
    rw [pushed,visits.agrees e inside]
    rfl

theorem rangesWithin (visits : Visits b visit v) {spot : Nat} {entries : List Entry} {ranges : List Range}
    (walked : Hello.walkClientHelloExtensions b = some (spot,entries)) (collected : collect v entries = some ranges) :
    ∀ range ∈ ranges, range.1 ≤ range.2 ∧ range.2 ≤ b.length := by
  intro range member
  obtain ⟨e,listed,here,visited,inside⟩ := (collectMem collected).mp member
  exact visits.within e here ((walkInside walked).2.2 e listed).1 visited range inside

theorem zeroedAgrees (visits : Visits b visit v) (room : b.length + 131072 ≤ max) :
    zeroed max visit b = ofOption (do
      let (_,entries) ← Hello.walkClientHelloExtensions b
      let ranges ← collect v entries
      some (fillAll 0 b ranges)) := by
  rw [zeroed,walkAgrees (pushedAgrees visits) room]
  cases walked : Hello.walkClientHelloExtensions b with
  | none => rfl
  | some pair =>
    obtain ⟨spot,entries⟩ := pair
    dsimp only [Option.map_some,Option.bind_eq_bind,Option.bind_some]
    rw [foldCollect,ofSome,foundThen]
    cases collected : collect v entries with
    | none => rfl
    | some ranges => exact fillFits (rangesWithin visits walked collected)

theorem sharesAgree {extEnd fuel cursor : Nat} (room : b.length + 131072 ≤ max) (fits : extEnd ≤ b.length)
    (near : cursor ≤ b.length + 2) (enough : extEnd < cursor + 4 + fuel) :
    shareRanges max b extEnd (fuel + 1) cursor = found (Hello.shareRanges b extEnd fuel cursor) := by
  induction fuel generalizing cursor with
  | zero =>
    rw [shareRanges,addFits (by omega),foundThen,if_neg (by omega)]
    rfl
  | succ fuel ih =>
    rw [shareRanges,Hello.shareRanges,addFits (by omega),foundThen]
    by_cases more : cursor + 4 ≤ extEnd
    · have := u16Below b (cursor + 2)
      rw [if_pos more,if_pos more]
      simp (disch := omega) only [u16IndexFits,addFits,checkedFits,foundThen]
      split
      · rfl
      · rw [ih (by omega) (by omega),foundThen]
    · rw [if_neg more,if_neg more]

theorem keyShareVisits (room : b.length + 131072 ≤ max) : Visits b (keyShareVisit max b) (Hello.keyShareVisit b) where
  agrees e inside := by
    obtain ⟨header,within⟩ := inside
    unfold keyShareVisit Hello.keyShareVisit
    split
    · rfl
    · simp (disch := omega) only [addFits,subFits,foundThen]
      split
      · rfl
      · exact sharesAgree room within (by omega) (by omega)
  within e ranges inside visited range member := by
    unfold Hello.keyShareVisit at visited
    split at visited
    · cases Option.some.inj visited
      contradiction
    · obtain ⟨_,visited⟩ := Option.ite_none_left_eq_some.mp visited
      have ok := (shareRangesOk visited).1 range member
      have ordered := ok.ordered
      have stop := ok.within
      have recordEnd := inside.within
      exact ⟨by omega,by omega⟩

theorem echAgrees {data : Range} (room : b.length + 131072 ≤ max) (ordered : data.1 ≤ data.2) (fits : data.2 ≤ b.length) :
    echVariableFieldRanges max b data = ofOption (Hello.echVariableFieldRanges b data) := by
  unfold echVariableFieldRanges Hello.echVariableFieldRanges
  split
  · rfl
  · rw [subFits ordered,foundThen]
    split
    · rfl
    · have := u16Below b (data.1 + 6)
      simp (disch := omega) only [addFits,u16IndexFits,checkedFits,saturatingFits,foundThen,ofSome]
      split
      · rfl
      · have := u16Below b (data.1 + 8 + u16At b (data.1 + 6))
        simp (disch := omega) only [u16IndexFits,checkedFits,foundThen,ofSome]
        split
        · rfl
        · rfl

theorem echVisits (room : b.length + 131072 ≤ max) : Visits b (echVisit max b) (Hello.echVisit b) where
  agrees e inside := by
    obtain ⟨header,within⟩ := inside
    unfold echVisit Hello.echVisit
    split
    · rfl
    · simp (disch := omega) only [addFits,foundThen]
      split
      · rfl
      · simp (disch := omega) only [indexByte,foundThen]
        split
        · rfl
        · rw [echAgrees room (by dsimp only; omega) (by dsimp only; omega),attemptOption,foundThen]
          cases searched : Hello.echVariableFieldRanges b (e.start + 4,e.stop) with
          | none => rfl
          | some fields =>
            obtain ⟨configId,enc,payload⟩ := fields
            obtain ⟨isConfig,isEnc,isPayload,last⟩ := echRangesOk searched
            rw [isEnc] at last
            dsimp only at last ⊢
            rw [addFits (by omega),foundThen]
            rfl
  within e ranges inside visited range member := by
    obtain ⟨header,recordEnd⟩ := inside
    unfold Hello.echVisit at visited
    dsimp only at visited
    split at visited
    · cases Option.some.inj visited
      contradiction
    · obtain ⟨_,visited⟩ := Option.ite_none_left_eq_some.mp visited
      split at visited
      · cases Option.some.inj visited
        contradiction
      · obtain ⟨⟨configId,enc,payload⟩,searched,rfl⟩ := Option.map_eq_some_iff.mp visited
        obtain ⟨rfl,rfl,rfl,last⟩ := echRangesOk searched
        dsimp only at last
        simp only [List.mem_cons,List.not_mem_nil,or_false] at member
        rcases member with rfl | rfl | rfl
        · exact ⟨by dsimp only; omega,by dsimp only; omega⟩
        · exact ⟨by dsimp only; omega,by dsimp only; omega⟩
        · exact ⟨by dsimp only; omega,by dsimp only; omega⟩

theorem itemsAgree {listEnd fuel cursor : Nat} (room : b.length + 131072 ≤ max) (fits : listEnd ≤ b.length)
    (near : cursor ≤ b.length + 2) (enough : listEnd < cursor + 2 + fuel) :
    greaseItems max b listEnd (fuel + 1) cursor = found (Hello.greaseItems b listEnd fuel cursor) := by
  induction fuel generalizing cursor with
  | zero =>
    rw [greaseItems,addFits (by omega),foundThen,if_neg (by omega)]
    rfl
  | succ fuel ih =>
    rw [greaseItems,Hello.greaseItems,addFits (by omega),foundThen]
    by_cases more : cursor + 2 ≤ listEnd
    · rw [if_pos more,if_pos more,u16IndexFits (by omega) (by omega),foundThen,ih (by omega) (by omega),foundThen]
    · rw [if_neg more,if_neg more]

theorem itemsWithin {listEnd fuel cursor : Nat} (fits : listEnd ≤ b.length) :
    ∀ range ∈ Hello.greaseItems b listEnd fuel cursor, range.1 ≤ range.2 ∧ range.2 ≤ b.length := by
  induction fuel generalizing cursor with
  | zero =>
    intro range member
    contradiction
  | succ fuel ih =>
    intro range member
    rw [Hello.greaseItems] at member
    split at member
    · split at member
      · rcases List.mem_cons.mp member with rfl | member
        · exact ⟨by dsimp only; omega,by dsimp only; omega⟩
        · exact ih range member
      · exact ih range member
    · contradiction

theorem listAgrees {e : Entry} {extData width listLen : Nat} (room : b.length + 131072 ≤ max) (inside : InRecord b e)
    (start : extData ≤ e.stop) (narrow : width ≤ 2) (short : listLen < 65536) :
    listItems max b e extData width listLen = found (if extData + width + listLen > e.stop then none
      else some (Hello.greaseItems b (extData + width + listLen) b.length (extData + width))) := by
  obtain ⟨header,within⟩ := inside
  unfold listItems
  rw [checkedFits (by omega),Option.bind_some,checkedFits (by omega)]
  dsimp only
  rw [addFits (by omega),foundThen]
  split
  · rfl
  · rw [itemsAgree room (by omega) (by omega) (by omega),foundThen]

theorem greaseVisits (room : b.length + 131072 ≤ max) : Visits b (greaseVisit max b) (Hello.greaseVisit b) where
  agrees e inside := by
    obtain ⟨header,within⟩ := inside
    unfold greaseVisit Hello.greaseVisit
    split
    · rw [addFits (by omega),foundThen]
    · simp (disch := omega) only [addFits,foundThen]
      split
      · rw [subFits header,foundThen]
        split
        · rfl
        · rw [u16IndexFits (by omega) (by omega),foundThen,listAgrees room ⟨header,within⟩ header (by omega) (u16Below _ _)]
      · split
        · split
          · rfl
          · have := byteBelow (byteAt b (e.start + 4))
            rw [indexByte (by omega),foundThen,listAgrees room ⟨header,within⟩ header (by omega) (by omega)]
        · rfl
  within e ranges inside visited range member := by
    obtain ⟨header,recordEnd⟩ := inside
    unfold Hello.greaseVisit at visited
    dsimp only at visited
    split at visited
    · cases Option.some.inj visited
      cases List.mem_singleton.mp member
      exact ⟨by dsimp only; omega,by dsimp only; omega⟩
    · split at visited
      · obtain ⟨_,visited⟩ := Option.ite_none_left_eq_some.mp visited
        obtain ⟨fits,visited⟩ := Option.ite_none_left_eq_some.mp visited
        cases Option.some.inj visited
        exact itemsWithin (by omega) range member
      · split at visited
        · obtain ⟨_,visited⟩ := Option.ite_none_left_eq_some.mp visited
          obtain ⟨fits,visited⟩ := Option.ite_none_left_eq_some.mp visited
          cases Option.some.inj visited
          exact itemsWithin (by omega) range member
        · cases Option.some.inj visited
          contradiction

theorem suitesAgree {suitesEnd fuel cursor : Nat} (room : b.length + 131072 ≤ max) (fits : suitesEnd ≤ b.length)
    (near : cursor ≤ b.length + 2) (enough : suitesEnd < cursor + 2 + fuel) :
    zeroSuites max suitesEnd (fuel + 1) cursor b = found (Hello.zeroSuites suitesEnd fuel cursor b) ∧
    (Hello.zeroSuites suitesEnd fuel cursor b).length = b.length := by
  induction fuel generalizing cursor b with
  | zero =>
    rw [zeroSuites,addFits (by omega),foundThen,if_neg (by omega)]
    exact ⟨rfl,rfl⟩
  | succ fuel ih =>
    rw [zeroSuites,Hello.zeroSuites,addFits (by omega),foundThen]
    by_cases more : cursor + 2 ≤ suitesEnd
    · rw [if_pos more,if_pos more,u16IndexFits (by omega) (by omega),foundThen]
      split
      · have one : ∀ range ∈ [(cursor,cursor + 2)], range.1 ≤ range.2 ∧ range.2 ≤ b.length := by
          intro range member
          cases List.mem_singleton.mp member
          exact ⟨Nat.le_add_right _ _,by dsimp only; omega⟩
        have size : (fill 0 b (cursor,cursor + 2)).length = b.length := fillLength (Nat.le_add_right _ _) (by dsimp only; omega)
        rw [fillFits one,foundThen]
        have later := @ih (fill 0 b (cursor,cursor + 2)) (cursor + 2) (by omega) (by omega) (by omega) (by omega)
        rw [size] at later
        exact later
      · exact ih room fits (by omega) (by omega)
    · rw [if_neg more,if_neg more]
      exact ⟨rfl,rfl⟩

theorem greasePassAgrees (room : b.length + 131072 ≤ max) :
    normalizeClientHelloGreasePositions max b = ofOption (Hello.normalizeClientHelloGreasePositions b) := by
  unfold normalizeClientHelloGreasePositions Hello.normalizeClientHelloGreasePositions
  rw [rangesAgree (by omega)]
  cases ranges : Hello.clientHelloRandomAndSessionIdRanges b with
  | none => rfl
  | some pair =>
    obtain ⟨random,session⟩ := pair
    obtain ⟨_,_,_,_,_,near⟩ := rangesSome ranges
    rw [ofSome,foundThen]
    dsimp only [Option.bind_eq_bind,Option.bind_some]
    rw [u16GetFits (by omega)]
    cases suites : readU16 b session.2 with
    | none => rfl
    | some suitesLen =>
      obtain ⟨_,isSuites⟩ := readU16Some suites
      have := u16Below b session.2
      dsimp only [Option.bind_some]
      simp (disch := omega) only [ofSome,foundThen,checkedFits]
      split
      · rfl
      · obtain ⟨zeroes,size⟩ := @suitesAgree max b (session.2 + 2 + suitesLen) b.length (session.2 + 2) room
          (by omega) (by omega) (by omega)
        rw [zeroes,foundThen]
        exact zeroedAgrees (greaseVisits (by omega)) (by omega)

theorem paddingFold {entries : List Entry} {seen : Option Entry} :
    entries.foldl paddingVisit seen = seen.or (entries.find? (fun e => e.extType = paddingExtensionType)) := by
  induction entries generalizing seen with
  | nil =>
    rw [List.find?_nil,Option.or_none]
    rfl
  | cons e rest ih =>
    rw [List.foldl_cons,ih]
    cases seen with
    | some entry =>
      rw [paddingVisit,if_neg (by simp)]
      rfl
    | none =>
      by_cases padding : e.extType = paddingExtensionType
      · rw [paddingVisit,if_pos ⟨padding,rfl⟩,List.find?_cons_of_pos (by simpa using padding)]
        rfl
      · rw [paddingVisit,if_neg (fun both => padding both.1),List.find?_cons_of_neg (by simpa using padding)]

theorem checkedSubSmall {a c : Nat} : checkedSub a c = if a < c then none else some (a - c) := by
  unfold checkedSub
  by_cases small : a < c
  · rw [if_neg (by omega),if_pos small]
  · rw [if_pos (by omega),if_neg small]

theorem paddingPassAgrees (room : b.length + 131072 ≤ max) :
    normalizeClientHelloPaddingExtension max b = ofOption (Hello.normalizeClientHelloPaddingExtension b) := by
  unfold normalizeClientHelloPaddingExtension Hello.normalizeClientHelloPaddingExtension
  rw [walkAgrees (fun _ _ _ => rfl) room]
  cases walked : Hello.walkClientHelloExtensions b with
  | none => rfl
  | some pair =>
    obtain ⟨spot,entries⟩ := pair
    obtain ⟨behind,_,inside⟩ := walkInside walked
    dsimp only [Option.map_some,Option.bind_eq_bind,Option.bind_some]
    rw [ofSome,foundThen,paddingFold]
    cases searched : entries.find? (fun e => e.extType = paddingExtensionType) with
    | none => rfl
    | some entry =>
      obtain ⟨⟨header,within⟩,after⟩ := inside entry (List.mem_of_find?_eq_some searched)
      dsimp only [Option.none_or]
      simp (disch := omega) only [subFits,rangeFits,foundThen]
      have shorter : (b.take entry.start ++ b.drop entry.stop).length = b.length - (entry.stop - entry.start) := by
        rw [List.length_append,List.length_take,List.length_drop]
        omega
      generalize b.take entry.start ++ b.drop entry.stop = cut at shorter ⊢
      rw [u16IndexFits (by omega) (by omega),foundThen,checkedSubSmall]
      split
      · rfl
      · rw [ofSome,foundThen,addFits (by omega),foundThen,copyFits (by omega) (by omega) (by simp [toBeBytes]),foundThen]
        have size : (put cut spot (toBeBytes (u16At cut spot - (entry.stop - entry.start)))).length = cut.length :=
          putLength (by simp only [toBeBytes,List.length_cons,List.length_nil]; omega)
        generalize put cut spot _ = first at size ⊢
        rw [u16IndexFits (by omega) (by omega),foundThen,checkedSubSmall]
        split
        · rfl
        · rw [ofSome,foundThen,copyFits (by omega) (by omega) (by simp [toBeBytes]),foundThen]
          have size : (put first 3 (toBeBytes (u16At first 3 - (entry.stop - entry.start)))).length = first.length :=
            putLength (by simp only [toBeBytes,List.length_cons,List.length_nil]; omega)
          generalize put first 3 _ = second at size ⊢
          rw [indexByte (by omega),foundThen,u16IndexFits (by omega) (by omega),foundThen,checkedSubSmall]
          show (ofOption (if u24At second 6 < _ then none else some _) >>= _) = _
          split
          · rfl
          · rw [ofSome,foundThen,copyFits (by omega) (by omega) (by simp [toBeBytes])]
            rfl

theorem passLength (visits : Visits b visit v) {c : Bytes} (passed : (do
      let (_,entries) ← Hello.walkClientHelloExtensions b
      let ranges ← collect v entries
      some (fillAll 0 b ranges)) = some c) : c.length = b.length := by
  obtain ⟨⟨spot,entries⟩,walked,passed⟩ := Option.bind_eq_some_iff.mp passed
  obtain ⟨ranges,collected,passed⟩ := Option.bind_eq_some_iff.mp passed
  cases Option.some.inj passed
  exact (fillAllAt (rangesWithin visits walked collected)).1

theorem fieldsAgree (room : b.length + 131072 ≤ max) :
    extractClientHelloRandomAndSessionId max b = ofOption (Hello.clientHelloRandomAndSessionIdRanges b) := by
  unfold extractClientHelloRandomAndSessionId
  rw [rangesAgree (by omega)]
  cases ranges : Hello.clientHelloRandomAndSessionIdRanges b with
  | none => rfl
  | some pair =>
    obtain ⟨random,session⟩ := pair
    obtain ⟨_,_,_,rfl,rfl,fits⟩ := rangesSome ranges
    dsimp only at fits
    have after : (b.drop 11).length = b.length - 11 := List.length_drop
    have rest : ((b.drop 11).drop (43 - 11)).length = b.length - 11 - 32 := by rw [List.length_drop,after]
    have last : (((b.drop 11).drop (43 - 11)).drop (44 - 43)).length = b.length - 11 - 32 - 1 := by
      rw [List.length_drop,rest]
    rw [ofSome,foundThen]
    dsimp only
    rw [splitFits (by omega),foundThen]
    dsimp only
    rw [subFits (by omega),foundThen,splitFits (by omega),foundThen]
    dsimp only
    rw [subFits (by omega),foundThen,subFits (by omega),foundThen,splitFits (by omega),foundThen]
    dsimp only
    rw [splitFits (by omega),foundThen]

theorem keySharePassAgrees (room : b.length + 131072 ≤ max) :
    normalizeClientHelloKeyShares max b = ofOption (Hello.normalizeClientHelloKeyShares b) :=
  zeroedAgrees (keyShareVisits room) room

theorem echPassAgrees (room : b.length + 131072 ≤ max) :
    normalizeClientHelloEchExtension max b = ofOption (Hello.normalizeClientHelloEchExtension b) :=
  zeroedAgrees (echVisits room) room

theorem greasePassLength (room : b.length + 131072 ≤ max) {c : Bytes}
    (passed : Hello.normalizeClientHelloGreasePositions b = some c) : c.length = b.length := by
  unfold Hello.normalizeClientHelloGreasePositions at passed
  obtain ⟨⟨random,session⟩,ranges,passed⟩ := Option.bind_eq_some_iff.mp passed
  obtain ⟨_,_,_,_,_,near⟩ := rangesSome ranges
  obtain ⟨suitesLen,suites,passed⟩ := Option.bind_eq_some_iff.mp passed
  obtain ⟨fits,passed⟩ := Option.ite_none_left_eq_some.mp passed
  obtain ⟨_,size⟩ := @suitesAgree max b (session.2 + 2 + suitesLen) b.length (session.2 + 2) room
    (by omega) (by omega) (by omega)
  rw [passLength (@greaseVisits max _ (by omega)) passed,size]

theorem fingerprintAgrees (hash : KeyedHash) (room : b.length + 131072 ≤ max) :
    stableClientHelloFingerprint max hash b = ofOption (Hello.stableClientHelloFingerprint hash b) := by
  unfold stableClientHelloFingerprint Hello.stableClientHelloFingerprint erasedHello
  rw [fieldsAgree room]
  cases ranges : Hello.clientHelloRandomAndSessionIdRanges b with
  | none => rfl
  | some pair =>
    obtain ⟨random,session⟩ := pair
    obtain ⟨_,_,_,isRandom,isSession,_⟩ := rangesSome ranges
    have fit : ∀ range ∈ [random,session], range.1 ≤ range.2 ∧ range.2 ≤ b.length := by
      intro range member
      rcases List.mem_cons.mp member with rfl | member
      · rw [isRandom]
        exact ⟨by decide,by dsimp only; omega⟩
      · cases List.mem_singleton.mp member
        rw [isSession] at *
        exact ⟨Nat.le_add_right _ _,by assumption⟩
    have size := (@fillAllAt _ 0 _ _ fit).1
    dsimp only [Option.bind_eq_bind,Option.bind_some]
    rw [ofSome,foundThen]
    dsimp only
    rw [fillFits fit,foundThen]
    generalize fillAll 0 b [random,session] = blank at size ⊢
    rw [keySharePassAgrees (by omega)]
    cases shares : Hello.normalizeClientHelloKeyShares blank with
    | none => rfl
    | some one =>
      have sizeOne := passLength (keyShareVisits (by omega : blank.length + 131072 ≤ max)) shares
      dsimp only [Option.bind_some]
      rw [ofSome,foundThen,greasePassAgrees (by omega)]
      cases grease : Hello.normalizeClientHelloGreasePositions one with
      | none => rfl
      | some two =>
        have sizeTwo := greasePassLength (by omega : one.length + 131072 ≤ max) grease
        dsimp only [Option.bind_some]
        rw [ofSome,foundThen,echPassAgrees (by omega)]
        cases ech : Hello.normalizeClientHelloEchExtension two with
        | none => rfl
        | some three =>
          have sizeThree := passLength (echVisits (by omega : two.length + 131072 ≤ max)) ech
          dsimp only [Option.bind_some]
          rw [ofSome,foundThen,paddingPassAgrees (by omega)]
          cases Hello.normalizeClientHelloPaddingExtension three with
          | none => rfl
          | some last => rfl

end Passes

end KanoTls.Checked
