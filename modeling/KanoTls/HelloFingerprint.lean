import KanoTls.HelloLike

/-! `stable_client_hello_fingerprint`: every pass of the normalisation collects ranges from
the extensions of the record and fills them with zeros. All twins of a template come out
the same. -/
namespace KanoTls.Hello
open Uot Wire Patch

/- A visitor that says `none` has met a malformed extension. -/
def collect (visit : Entry → Option (List Range)) (entries : List Entry) : Option (List Range) :=
  (entries.mapM visit).map List.flatten

def keyShareVisit (record : Bytes) (e : Entry) : Option (List Range) :=
  if e.extType ≠ 0x0033 then some []
  else if e.stop - (e.start + 4) < 2 then none
  else sharesOf record e

def normalizeClientHelloKeyShares (record : Bytes) : Option Bytes := do
  let (_,entries) ← walkClientHelloExtensions record
  let ranges ← collect (keyShareVisit record) entries
  some (fillAll 0 record ranges)

/- The loop beyond the cipher suites, which fills as it goes. -/
def zeroSuites (suitesEnd : Nat) : Nat → Nat → Bytes → Bytes
  | 0,_,record => record
  | fuel+1,cursor,record =>
    if cursor + 2 ≤ suitesEnd then
      zeroSuites suitesEnd fuel (cursor + 2)
        (if isGreaseValue (u16At record cursor) then fill 0 record (cursor,cursor + 2) else record)
    else record

def greaseItems (record : Bytes) (listEnd : Nat) : Nat → Nat → List Range
  | 0,_ => []
  | fuel+1,cursor =>
    if cursor + 2 ≤ listEnd then
      if isGreaseValue (u16At record cursor) then (cursor,cursor + 2)::greaseItems record listEnd fuel (cursor + 2)
      else greaseItems record listEnd fuel (cursor + 2)
    else []

def greaseVisit (record : Bytes) (e : Entry) : Option (List Range) :=
  let extData := e.start + 4
  if isGreaseValue e.extType then some [(e.start,e.start + 2)]
  else if e.extType = supportedGroupsExtensionType then
    if e.stop - extData < 2 then none
    else
      let listEnd := extData + 2 + u16At record extData
      if listEnd > e.stop then none else some (greaseItems record listEnd record.length (extData + 2))
  else if e.extType = supportedVersionsExtensionType then
    if e.stop = extData then none
    else
      let listEnd := extData + 1 + (byteAt record extData).toNat
      if listEnd > e.stop then none else some (greaseItems record listEnd record.length (extData + 1))
  else some []

def normalizeClientHelloGreasePositions (record : Bytes) : Option Bytes := do
  let (_,session) ← clientHelloRandomAndSessionIdRanges record
  let cipherSuitesLen ← readU16 record session.2
  let suitesStart := session.2 + 2
  let suitesEnd := suitesStart + cipherSuitesLen
  if suitesEnd > record.length then none
  else do
    let record := zeroSuites suitesEnd record.length suitesStart record
    let (_,entries) ← walkClientHelloExtensions record
    let ranges ← collect (greaseVisit record) entries
    some (fillAll 0 record ranges)

def echVisit (record : Bytes) (e : Entry) : Option (List Range) :=
  let data := e.start + 4
  if e.extType ≠ echExtensionType then some []
  else if e.stop = data then none
  else if byteAt record data ≠ 0 then some []
  else
    (echVariableFieldRanges record (data,e.stop)).map (fun found =>
      [(found.1,found.1 + 1),found.2.1,found.2.2])

def normalizeClientHelloEchExtension (record : Bytes) : Option Bytes := do
  let (_,entries) ← walkClientHelloExtensions record
  let ranges ← collect (echVisit record) entries
  some (fillAll 0 record ranges)

def normalizeClientHelloPaddingExtension (record : Bytes) : Option Bytes := do
  let (extensionsLenStart,entries) ← walkClientHelloExtensions record
  match entries.find? (fun e => e.extType = paddingExtensionType) with
  | none => some record
  | some entry =>
    let removed := entry.stop - entry.start
    let record := record.take entry.start ++ record.drop entry.stop
    let extensionsLen := u16At record extensionsLenStart
    if extensionsLen < removed then none
    else
      let record := put record extensionsLenStart (toBeBytes (extensionsLen - removed))
      let recordLen := u16At record 3
      if recordLen < removed then none
      else
        let record := put record 3 (toBeBytes (recordLen - removed))
        let handshakeLen := u24At record 6
        if handshakeLen < removed then none
        else some (put record 6 (UInt8.ofNat ((handshakeLen - removed) / 65536)::toBeBytes (handshakeLen - removed)))

def clientHelloFpContext : Bytes := ascii "kanotls-client-hello-fp-v1"

def erasedHello (record : Bytes) : Option Bytes := do
  let (random,session) ← clientHelloRandomAndSessionIdRanges record
  let normalized := fillAll 0 record [random,session]
  let normalized ← normalizeClientHelloKeyShares normalized
  let normalized ← normalizeClientHelloGreasePositions normalized
  normalizeClientHelloEchExtension normalized

def stableClientHelloFingerprint (hash : KeyedHash) (record : Bytes) : Option Bytes := do
  let normalized ← erasedHello record
  let normalized ← normalizeClientHelloPaddingExtension normalized
  some (hash.digest clientHelloFpContext normalized)

section Visits
variable {b w : Bytes} {layout : ClientHelloLayout} {entries : List Entry} {e : Entry}

theorem collectMap {visit visit' : Entry → Option (List Range)} {change : Entry → Entry} {some' : List Entry}
    (same : ∀ e ∈ some', visit (change e) = visit' e) : collect visit (some'.map change) = collect visit' some' := by
  unfold collect
  congr 1
  induction some' with
  | nil => rfl
  | cons e rest ih =>
    rw [List.map_cons,List.mapM_cons,List.mapM_cons,same e List.mem_cons_self,
      ih (fun e later => same e (List.mem_cons_of_mem _ later))]

theorem collectMem {visit : Entry → Option (List Range)} {some' : List Entry} {ranges : List Range}
    (found : collect visit some' = some ranges) {range : Range} :
    range ∈ ranges ↔ ∃ e ∈ some', ∃ here, visit e = some here ∧ range ∈ here := by
  unfold collect at found
  obtain ⟨lists,each,rfl⟩ := Option.map_eq_some_iff.mp found
  induction some' generalizing lists with
  | nil =>
    cases Option.some.inj each
    simp
  | cons e rest ih =>
    rw [List.mapM_cons] at each
    obtain ⟨first,visited,each⟩ := Option.bind_eq_some_iff.mp each
    obtain ⟨later,visitedRest,each⟩ := Option.bind_eq_some_iff.mp each
    cases Option.some.inj each
    rw [List.flatten_cons,List.mem_append,ih later visitedRest (by rw [visitedRest]; rfl)]
    constructor
    · rintro (here | ⟨e',member,rest'⟩)
      · exact ⟨e,List.mem_cons_self,first,visited,here⟩
      · exact ⟨e',List.mem_cons_of_mem _ member,rest'⟩
    · rintro ⟨e',member,here,visited',inside⟩
      rcases List.mem_cons.mp member with rfl | member
      · rw [visited] at visited'
        exact .inl (Option.some.inj visited' ▸ inside)
      · exact .inr ⟨e',member,here,visited',inside⟩

theorem retypeOther (like : Like b layout entries w) (member : e ∈ entries) (grease : isGreaseValue e.extType = true)
    {asked : Nat} (plain : isGreaseValue asked = false) (nonzero : asked ≠ 0) : (retype w e).extType ≠ asked := by
  intro same
  have same : u16At w e.start = asked := same
  rcases like.types e member grease with still | erased
  · rw [same,plain] at still
    contradiction
  · exact nonzero (same.symm.trans erased)

theorem retypePlain (placed : Placed b layout entries) (like : Like b layout entries w) (member : e ∈ entries)
    (plain : isGreaseValue e.extType = false) : retype w e = e := by
  rw [retype,likeType placed like member plain]

theorem shareHeaderHard (placed : Placed b layout entries) (member : e ∈ entries) (keyShare : e.extType = 0x0033)
    {shares : List Range} (walked : sharesOf b e = some shares) {range : Range} (here : range ∈ shares) {i : Nat}
    (header : i = range.1 - 2 ∨ i = range.1 - 1) : ¬ Soft b layout entries i := by
  obtain ⟨each,apart⟩ := shareRangesOk walked
  have ok := each range here
  have after := ok.after
  have ordered := ok.ordered
  have within := ok.within
  intro soft
  have own := softOwn placed member (by omega) (by omega) soft
  cases own with
  | type grease _ =>
    rw [keyShare] at grease
    exact absurd grease (by decide)
  | item unit _ _ =>
    rcases (itemsInside b e unit).1 with ⟨other,_⟩ | ⟨other,_⟩ <;> exact absurd (keyShare.symm.trans other) (by decide)
  | @share _ range' _ walked' there inside =>
    rw [walked] at walked'
    cases Option.some.inj walked'
    have inside1 := inside.1
    have inside2 := inside.2
    have separate : range = range' ∨ range.2 + 4 ≤ range'.1 ∨ range'.2 + 4 ≤ range.1 :=
      List.Pairwise.forall_of_forall_of_flip
        (R := fun one two : Range => one = two ∨ one.2 + 4 ≤ two.1 ∨ two.2 + 4 ≤ one.1) (fun _ _ => .inl rfl)
        (apart.imp (fun before => .inr (.inl before))) (apart.imp (fun before => .inr (.inr before))) here there
    rcases separate with rfl | first | second
    · omega
    · omega
    · omega
  | ech isEch _ _ => exact absurd (keyShare.symm.trans isEch) (by decide)

theorem likeShareWalk {extEnd fuel cursor : Nat} {shares : List Range}
    (walked : shareRanges b extEnd fuel cursor = some shares)
    (same : ∀ range ∈ shares, u16At w (range.1 - 2) = u16At b (range.1 - 2)) :
    shareRanges w extEnd fuel cursor = some shares := by
  induction fuel generalizing cursor shares with
  | zero => exact walked
  | succ fuel ih =>
    rw [shareRanges] at walked ⊢
    by_cases more : cursor + 4 ≤ extEnd
    · rw [if_pos more] at walked ⊢
      dsimp only at walked ⊢
      obtain ⟨inside,walked⟩ := Option.ite_none_left_eq_some.mp walked
      obtain ⟨rest,walkedRest,rfl⟩ := Option.map_eq_some_iff.mp walked
      have header := same _ List.mem_cons_self
      rw [show (cursor + 4,cursor + 4 + u16At b (cursor + 2)).1 - 2 = cursor + 2 from by dsimp only; omega] at header
      rw [header,if_neg inside,ih walkedRest (fun range later => same range (List.mem_cons_of_mem _ later))]
      rfl
    · rw [if_neg more] at walked ⊢
      exact walked

theorem likeShares (placed : Placed b layout entries) (like : Like b layout entries w) (member : e ∈ entries)
    (keyShare : e.extType = 0x0033) : sharesOf w e = sharesOf b e := by
  obtain ⟨_,shares,walked⟩ := (placed.parsed e member).shares keyShare
  rw [walked,sharesOf,like.length]
  refine likeShareWalk walked (fun range here => ?_)
  have after := ((shareRangesOk walked).1 range here).after
  have second := like.bone _ (shareHeaderHard placed member keyShare walked here (.inr rfl))
  rw [show range.1 - 1 = range.1 - 2 + 1 by omega] at second
  exact u16Same (like.bone _ (shareHeaderHard placed member keyShare walked here (.inl rfl))) second

theorem keyShareVisitSame (placed : Placed b layout entries) (like : Like b layout entries w) (member : e ∈ entries) :
    keyShareVisit w (retype w e) = keyShareVisit b e := by
  cases grease : isGreaseValue e.extType with
  | true =>
    have plain : e.extType ≠ 0x0033 := by
      intro same
      rw [same] at grease
      exact absurd grease (by decide)
    rw [keyShareVisit,if_pos (retypeOther like member grease (by decide) (by decide)),keyShareVisit,if_pos plain]
  | false =>
    rw [retypePlain placed like member grease,keyShareVisit,keyShareVisit]
    by_cases keyShare : e.extType = 0x0033
    · rw [likeShares placed like member keyShare]
    · rw [if_pos keyShare,if_pos keyShare]

theorem echHeaderHard (placed : Placed b layout entries) (member : e ∈ entries) (isEch : e.extType = echExtensionType)
    {configId : Nat} {enc payload : Range} (found : echVariableFieldRanges b (e.start + 4,e.stop) = some (configId,enc,
      payload))
    {i : Nat} (header : i = e.start + 10 ∨ i = e.start + 11 ∨ i = enc.2 ∨ i = enc.2 + 1) : ¬ Soft b layout entries i := by
  obtain ⟨config,isEnc,isPayload,stop⟩ := echRangesOk found
  have enc2 : enc.2 = e.start + 4 + 8 + u16At b (e.start + 4 + 6) := by rw [isEnc]
  intro soft
  have own := softOwn placed member (by omega) (by omega) soft
  cases own with
  | type grease _ =>
    rw [isEch] at grease
    exact absurd grease (by decide)
  | item unit _ _ =>
    rcases (itemsInside b e unit).1 with ⟨other,_⟩ | ⟨other,_⟩ <;> exact absurd (isEch.symm.trans other) (by decide)
  | share keyShare _ _ _ => exact absurd (isEch.symm.trans keyShare) (by decide)
  | ech _ found' here =>
    rw [found] at found'
    cases Option.some.inj found'
    rw [isPayload,Inside,Inside] at here
    rw [isEnc] at here header
    dsimp only at here header
    omega

theorem likeEch (placed : Placed b layout entries) (like : Like b layout entries w) (member : e ∈ entries)
    (isEch : e.extType = echExtensionType) : byteAt w (e.start + 4) = byteAt b (e.start + 4) ∧
    echVariableFieldRanges w (e.start + 4,e.stop) = echVariableFieldRanges b (e.start + 4,e.stop) := by
  obtain ⟨long,_,⟨configId,enc,payload⟩,found⟩ := (placed.parsed e member).ech isEch
  have hard {i : Nat} := echHeaderHard (i := i) placed member isEch found
  obtain ⟨_,isEnc,_,_⟩ := echRangesOk found
  have encLen : u16At w (e.start + 4 + 6) = u16At b (e.start + 4 + 6) :=
    u16Same (like.bone _ (hard (.inl rfl))) (like.bone _ (hard (.inr (.inl rfl))))
  have payloadLen : u16At w enc.2 = u16At b enc.2 :=
    u16Same (like.bone _ (hard (.inr (.inr (.inl rfl))))) (like.bone _ (hard (.inr (.inr (.inr rfl)))))
  rw [isEnc] at payloadLen
  refine ⟨byteSame (like.bone _ (headerHard placed member (by omega) (by omega) (by omega))),?_⟩
  unfold echVariableFieldRanges
  dsimp only at payloadLen ⊢
  rw [encLen,payloadLen]

theorem echVisitSame (placed : Placed b layout entries) (like : Like b layout entries w) (member : e ∈ entries) :
    echVisit w (retype w e) = echVisit b e := by
  cases grease : isGreaseValue e.extType with
  | true =>
    have plain : e.extType ≠ echExtensionType := by
      intro same
      rw [same] at grease
      exact absurd grease (by decide)
    unfold echVisit
    dsimp only
    rw [if_pos (retypeOther like member grease (by decide) (by decide)),if_pos plain]
  | false =>
    rw [retypePlain placed like member grease]
    unfold echVisit
    dsimp only
    by_cases isEch : e.extType = echExtensionType
    · obtain ⟨first,ranges⟩ := likeEch placed like member isEch
      rw [first,ranges]
    · rw [if_pos isEch,if_pos isEch]

theorem greaseItemsSame {listEnd fuel cursor : Nat}
    (same : ∀ p, cursor ≤ p → p + 2 ≤ listEnd → (p - cursor) % 2 = 0 → isGreaseValue (u16At w p) = isGreaseValue (u16At b p)) :
    greaseItems w listEnd fuel cursor = greaseItems b listEnd fuel cursor := by
  induction fuel generalizing cursor with
  | zero => rfl
  | succ fuel ih =>
    have rest := @ih (cursor + 2) (fun p after before even => same p (by omega) before (by omega))
    rw [greaseItems,greaseItems]
    by_cases more : cursor + 2 ≤ listEnd
    · rw [if_pos more,if_pos more,rest,same cursor (Nat.le_refl _) more (by omega)]
    · rw [if_neg more,if_neg more]

theorem groupsItems (groups : e.extType = supportedGroupsExtensionType)
    (inside : ¬ e.start + 4 + 2 + u16At b (e.start + 4) > e.stop) :
    itemsOf b e = (e.start + 4 + 2,e.start + 4 + 2 + u16At b (e.start + 4)) := by
  rw [itemsOf,if_pos groups,Nat.min_eq_left (by omega)]

theorem versionsItems (versions : e.extType = supportedVersionsExtensionType)
    (inside : ¬ e.start + 4 + 1 + (byteAt b (e.start + 4)).toNat > e.stop) :
    itemsOf b e = (e.start + 4 + 1,e.start + 4 + 1 + (byteAt b (e.start + 4)).toNat) := by
  have notGroups : e.extType ≠ supportedGroupsExtensionType := by
    rw [versions]
    decide
  rw [itemsOf,if_neg notGroups,if_pos versions,Nat.min_eq_left (by omega)]

theorem groupsHeader (placed : Placed b layout entries) (like : Like b layout entries w) (member : e ∈ entries)
    (groups : e.extType = supportedGroupsExtensionType) (long : e.start + 6 ≤ e.stop) :
    u16At w (e.start + 4) = u16At b (e.start + 4) := by
  refine u16Same (like.bone _ (headerHard placed member (by omega) (by omega) (by omega))) (like.bone _ ?_)
  intro soft
  have own := softOwn placed member (by omega) (by omega) soft
  cases own with
  | type grease _ =>
    rw [groups] at grease
    exact absurd grease (by decide)
  | item unit _ here =>
    rcases (itemsInside b e unit).1 with ⟨_,after⟩ | ⟨other,_⟩
    · omega
    · exact absurd (groups.symm.trans other) (by decide)
  | share keyShare _ _ _ => exact absurd (groups.symm.trans keyShare) (by decide)
  | ech isEch _ _ => exact absurd (groups.symm.trans isEch) (by decide)

theorem versionsHeader (placed : Placed b layout entries) (like : Like b layout entries w) (member : e ∈ entries)
    (long : e.start + 4 < e.stop) : byteAt w (e.start + 4) = byteAt b (e.start + 4) :=
  byteSame (like.bone _ (headerHard placed member (by omega) (by omega) long))

theorem greaseVisitSame (placed : Placed b layout entries) (like : Like b layout entries w) (member : e ∈ entries)
    (same : ∀ p, p = e.start ∨ IsUnit (itemsOf b e) p → isGreaseValue (u16At w p) = isGreaseValue (u16At b p)) :
    greaseVisit w (retype w e) = greaseVisit b e := by
  have entry := entryBounds placed member
  have header := entry.header
  unfold greaseVisit
  dsimp only
  cases grease : isGreaseValue e.extType with
  | true =>
    have still : isGreaseValue (retype w e).extType = true := by
      rw [entry.extType] at grease
      exact (same _ (.inl rfl)).trans grease
    rw [if_pos still,if_pos rfl]
    rfl
  | false =>
    rw [retypePlain placed like member grease,grease]
    by_cases groups : e.extType = supportedGroupsExtensionType
    · rw [if_pos groups,if_pos groups]
      by_cases short : e.stop - (e.start + 4) < 2
      · rw [if_pos short,if_pos short]
      · rw [if_neg short,if_neg short,groupsHeader placed like member groups (by omega),like.length]
        by_cases beyond : e.start + 4 + 2 + u16At b (e.start + 4) > e.stop
        · rw [if_pos beyond,if_pos beyond]
        · rw [if_neg beyond,if_neg beyond]
          rw [greaseItemsSame (fun p after before even => same p (.inr ?_))]
          rw [groupsItems groups beyond]
          exact ⟨after,before,even⟩
    · rw [if_neg groups,if_neg groups]
      by_cases versions : e.extType = supportedVersionsExtensionType
      · rw [if_pos versions,if_pos versions]
        by_cases empty : e.stop = e.start + 4
        · rw [if_pos empty,if_pos empty]
        · rw [if_neg empty,if_neg empty,versionsHeader placed like member (by omega),like.length]
          by_cases beyond : e.start + 4 + 1 + (byteAt b (e.start + 4)).toNat > e.stop
          · rw [if_pos beyond,if_pos beyond]
          · rw [if_neg beyond,if_neg beyond]
            rw [greaseItemsSame (fun p after before even => same p (.inr ?_))]
            rw [versionsItems versions beyond]
            exact ⟨after,before,even⟩
      · rw [if_neg versions,if_neg versions]

theorem greaseItemsMem {listEnd fuel cursor : Nat} (enough : listEnd ≤ cursor + 2 * fuel) {range : Range} :
    range ∈ greaseItems b listEnd fuel cursor ↔ ∃ p, range = (p,p + 2) ∧ cursor ≤ p ∧ p + 2 ≤ listEnd ∧
      (p - cursor) % 2 = 0 ∧ isGreaseValue (u16At b p) = true := by
  induction fuel generalizing cursor with
  | zero =>
    constructor
    · intro here
      contradiction
    · rintro ⟨p,_,after,before,_⟩
      omega
  | succ fuel ih =>
    have rest := @ih (cursor + 2) (by omega)
    have later : (∃ p, range = (p,p + 2) ∧ cursor + 2 ≤ p ∧ p + 2 ≤ listEnd ∧ (p - (cursor + 2)) % 2 = 0 ∧
        isGreaseValue (u16At b p) = true) → ∃ p, range = (p,p + 2) ∧ cursor ≤ p ∧ p + 2 ≤ listEnd ∧ (p - cursor) % 2 = 0 ∧
        isGreaseValue (u16At b p) = true := by
      rintro ⟨p,same,after,before,even,grease⟩
      exact ⟨p,same,by omega,before,by omega,grease⟩
    rw [greaseItems]
    by_cases more : cursor + 2 ≤ listEnd
    · rw [if_pos more]
      cases first : isGreaseValue (u16At b cursor) with
      | true =>
        rw [if_pos rfl,List.mem_cons,rest]
        constructor
        · rintro (rfl | here)
          · exact ⟨cursor,rfl,Nat.le_refl _,more,by omega,first⟩
          · exact later here
        · rintro ⟨p,same,after,before,even,grease⟩
          by_cases head : p = cursor
          · exact .inl (head ▸ same)
          · exact .inr ⟨p,same,by omega,before,by omega,grease⟩
      | false =>
        rw [if_neg (by decide),rest]
        constructor
        · exact later
        · rintro ⟨p,same,after,before,even,grease⟩
          by_cases head : p = cursor
          · rw [head,first] at grease
            contradiction
          · exact ⟨p,same,by omega,before,by omega,grease⟩
    · rw [if_neg more]
      constructor
      · intro here
        contradiction
      · rintro ⟨p,_,after,before,_⟩
        omega

theorem greaseVisitMem (placed : Placed b layout entries) (member : e ∈ entries) {ranges : List Range}
    (visited : greaseVisit b e = some ranges) (range : Range) : range ∈ ranges ↔ ∃ p, range = (p,p + 2) ∧
      isGreaseValue (u16At b p) = true ∧ (isGreaseValue e.extType = true ∧ p = e.start ∨ IsUnit (itemsOf b e) p) := by
  have entry := entryBounds placed member
  have within := entry.within
  have fits := placed.fits
  unfold greaseVisit at visited
  dsimp only at visited
  cases grease : isGreaseValue e.extType with
  | true =>
    rw [grease,if_pos rfl] at visited
    cases Option.some.inj visited
    have isType := grease
    rw [entry.extType] at isType
    constructor
    · intro here
      exact ⟨e.start,List.mem_singleton.mp here,isType,.inl ⟨rfl,rfl⟩⟩
    · rintro ⟨p,rfl,_,⟨_,rfl⟩ | unit⟩
      · exact List.mem_singleton.mpr rfl
      · rcases (itemsInside b e unit).1 with ⟨other,_⟩ | ⟨other,_⟩ <;>
        · rw [other] at grease
          exact absurd grease (by decide)
  | false =>
    rw [grease,if_neg (by decide)] at visited
    have simpler {p : Nat} : (false = true ∧ p = e.start ∨ IsUnit (itemsOf b e) p) ↔ IsUnit (itemsOf b e) p := by
      constructor
      · rintro (⟨no,_⟩ | unit)
        · contradiction
        · exact unit
      · exact .inr
    simp only [simpler]
    by_cases groups : e.extType = supportedGroupsExtensionType
    · rw [if_pos groups] at visited
      obtain ⟨short,visited⟩ := Option.ite_none_left_eq_some.mp visited
      obtain ⟨beyond,visited⟩ := Option.ite_none_left_eq_some.mp visited
      cases Option.some.inj visited
      rw [greaseItemsMem (by omega),groupsItems groups beyond]
      constructor
      · rintro ⟨p,same,after,before,even,isGrease⟩
        exact ⟨p,same,isGrease,after,before,even⟩
      · rintro ⟨p,same,isGrease,after,before,even⟩
        exact ⟨p,same,after,before,even,isGrease⟩
    · rw [if_neg groups] at visited
      by_cases versions : e.extType = supportedVersionsExtensionType
      · rw [if_pos versions] at visited
        obtain ⟨short,visited⟩ := Option.ite_none_left_eq_some.mp visited
        obtain ⟨beyond,visited⟩ := Option.ite_none_left_eq_some.mp visited
        cases Option.some.inj visited
        rw [greaseItemsMem (by omega),versionsItems versions beyond]
        constructor
        · rintro ⟨p,same,after,before,even,isGrease⟩
          exact ⟨p,same,isGrease,after,before,even⟩
        · rintro ⟨p,same,isGrease,after,before,even⟩
          exact ⟨p,same,after,before,even,isGrease⟩
      · rw [if_neg versions] at visited
        cases Option.some.inj visited
        constructor
        · intro here
          contradiction
        · rintro ⟨p,_,_,unit⟩
          rcases (itemsInside b e unit).1 with ⟨other,_⟩ | ⟨other,_⟩
          · exact absurd other groups
          · exact absurd other versions

end Visits

def SuiteAt (record : Bytes) (cursor suitesEnd i : Nat) : Prop :=
  ∃ p, cursor ≤ p ∧ p + 2 ≤ suitesEnd ∧ (p - cursor) % 2 = 0 ∧ isGreaseValue (u16At record p) = true ∧ (i = p ∨ i = p + 1)

open Classical in
theorem zeroSuitesAt {record : Bytes} {suitesEnd fuel cursor : Nat} (enough : suitesEnd ≤ cursor + 2 * fuel)
    (fits : suitesEnd ≤ record.length) : (zeroSuites suitesEnd fuel cursor record).length = record.length ∧
    ∀ i, (zeroSuites suitesEnd fuel cursor record)[i]? = if SuiteAt record cursor suitesEnd i then some 0 else record[i]? := by
  induction fuel generalizing cursor record with
  | zero =>
    refine ⟨rfl,fun i => ?_⟩
    rw [if_neg]
    · rfl
    · rintro ⟨p,after,before,_⟩
      omega
  | succ fuel ih =>
    rw [zeroSuites]
    by_cases more : cursor + 2 ≤ suitesEnd
    · rw [if_pos more]
      cases grease : isGreaseValue (u16At record cursor) with
      | true =>
        rw [if_pos rfl]
        have long : (fill 0 record (cursor,cursor + 2)).length = record.length :=
          fillLength (Nat.le_add_right _ _) (Nat.le_trans more fits)
        have values := @fillAt UInt8 0 record (cursor,cursor + 2) (Nat.le_add_right _ _)
          (Nat.le_trans more fits)
        obtain ⟨length,rest⟩ := @ih (fill 0 record (cursor,cursor + 2)) (cursor + 2) (by omega) (by omega)
        refine ⟨length.trans long,fun i => ?_⟩
        have apart (p : Nat) (after : cursor + 2 ≤ p) : u16At (fill 0 record (cursor,cursor + 2)) p = u16At record p := by
          refine u16Same ?_ ?_ <;> rw [values,if_neg] <;> rintro ⟨_,below⟩ <;> dsimp only at below <;> omega
        have split : SuiteAt record cursor suitesEnd i ↔
            SuiteAt (fill 0 record (cursor,cursor + 2)) (cursor + 2) suitesEnd i ∨ Inside (cursor,cursor + 2) i := by
          constructor
          · rintro ⟨p,after,before,even,isGrease,here⟩
            by_cases head : p = cursor
            · exact .inr ⟨by dsimp only; omega,by dsimp only; omega⟩
            · exact .inl ⟨p,by omega,before,by omega,by rwa [apart p (by omega)],here⟩
          · rintro (⟨p,after,before,even,isGrease,here⟩ | ⟨after,before⟩)
            · exact ⟨p,by omega,before,by omega,by rwa [apart p after] at isGrease,here⟩
            · dsimp only at after before
              exact ⟨cursor,Nat.le_refl _,more,by omega,grease,by omega⟩
        rw [rest i,values i]
        by_cases one : SuiteAt (fill 0 record (cursor,cursor + 2)) (cursor + 2) suitesEnd i
        · rw [if_pos one,if_pos (split.mpr (.inl one))]
        · rw [if_neg one]
          by_cases two : Inside (cursor,cursor + 2) i
          · rw [if_pos two,if_pos (split.mpr (.inr two))]
          · rw [if_neg two,if_neg (fun here => (split.mp here).elim one two)]
      | false =>
        rw [if_neg (by decide)]
        obtain ⟨length,rest⟩ := @ih record (cursor + 2) (by omega) fits
        refine ⟨length,fun i => ?_⟩
        rw [rest i]
        refine if_congr ?_ rfl rfl
        constructor
        · rintro ⟨p,after,before,even,isGrease,here⟩
          exact ⟨p,by omega,before,by omega,isGrease,here⟩
        · rintro ⟨p,after,before,even,isGrease,here⟩
          by_cases head : p = cursor
          · rw [head,grease] at isGrease
            contradiction
          · exact ⟨p,by omega,before,by omega,isGrease,here⟩
    · rw [if_neg more]
      refine ⟨rfl,fun i => ?_⟩
      rw [if_neg]
      rintro ⟨p,after,before,_⟩
      omega

section Passes
variable {b w : Bytes} {layout : ClientHelloLayout} {entries : List Entry}

theorem sharesCollected (placed : Placed b layout entries) {shares : List Range}
    (found : collect (keyShareVisit b) entries = some shares) {range : Range} :
    range ∈ shares ↔ ∃ e ∈ entries, e.extType = 0x0033 ∧ ∃ own, sharesOf b e = some own ∧ range ∈ own := by
  rw [collectMem found]
  constructor
  · rintro ⟨e,member,here,visited,inside⟩
    rw [keyShareVisit] at visited
    by_cases keyShare : e.extType = 0x0033
    · rw [if_neg (not_not.mpr keyShare)] at visited
      exact ⟨e,member,keyShare,here,(Option.ite_none_left_eq_some.mp visited).2,inside⟩
    · rw [if_pos keyShare] at visited
      cases Option.some.inj visited
      contradiction
  · rintro ⟨e,member,keyShare,own,walked,inside⟩
    have long := ((placed.parsed e member).shares keyShare).1
    refine ⟨e,member,own,?_,inside⟩
    rw [keyShareVisit,if_neg (not_not.mpr keyShare),if_neg (by omega)]
    exact walked

theorem echCollected (placed : Placed b layout entries) {ech : List Range}
    (found : collect (echVisit b) entries = some ech) {range : Range} :
    range ∈ ech ↔ ∃ e ∈ entries, e.extType = echExtensionType ∧ ∃ configId enc payload,
      echVariableFieldRanges b (e.start + 4,e.stop) = some (configId,enc,payload) ∧
      (range = (configId,configId + 1) ∨ range = enc ∨ range = payload) := by
  rw [collectMem found]
  constructor
  · rintro ⟨e,member,here,visited,inside⟩
    unfold echVisit at visited
    dsimp only at visited
    by_cases isEch : e.extType = echExtensionType
    · obtain ⟨_,outer,_⟩ := (placed.parsed e member).ech isEch
      rw [if_neg (not_not.mpr isEch)] at visited
      obtain ⟨_,visited⟩ := Option.ite_none_left_eq_some.mp visited
      rw [if_neg (not_not.mpr outer)] at visited
      obtain ⟨⟨configId,enc,payload⟩,ranges,rfl⟩ := Option.map_eq_some_iff.mp visited
      exact ⟨e,member,isEch,configId,enc,payload,ranges,by simpa using inside⟩
    · rw [if_pos isEch] at visited
      cases Option.some.inj visited
      contradiction
  · rintro ⟨e,member,isEch,configId,enc,payload,ranges,inside⟩
    obtain ⟨long,outer,_⟩ := (placed.parsed e member).ech isEch
    refine ⟨e,member,[(configId,configId + 1),enc,payload],?_,by simpa using inside⟩
    unfold echVisit
    dsimp only
    rw [if_neg (not_not.mpr isEch),if_neg (by omega),if_neg (not_not.mpr outer),ranges]
    rfl

theorem sharesErase (placed : Placed b layout entries) {shares : List Range}
    (found : collect (keyShareVisit b) entries = some shares) {range : Range} (member : range ∈ shares) :
    range.1 ≤ range.2 ∧ range.2 ≤ b.length ∧ ∀ i, Inside range i → Erase b layout entries i := by
  obtain ⟨e,here,keyShare,own,walked,inside⟩ := (sharesCollected placed found).mp member
  have bounds := shareBounds placed ⟨e,here,keyShare,own,walked,inside⟩
  exact ⟨bounds.2.1,bounds.2.2,fun i there => .entry here (.share keyShare walked inside there)⟩

theorem echErase (placed : Placed b layout entries) {ech : List Range}
    (found : collect (echVisit b) entries = some ech) {range : Range} (member : range ∈ ech) :
    range.1 ≤ range.2 ∧ range.2 ≤ b.length ∧ ∀ i, Inside range i → Erase b layout entries i := by
  obtain ⟨e,here,isEch,configId,enc,payload,ranges,which⟩ := (echCollected placed found).mp member
  have outer := ((placed.parsed e here).ech isEch).2.1
  have bounds := @echBounds _ _ _ placed ⟨configId,enc,payload⟩ ⟨e,here,isEch,outer,ranges⟩
  dsimp only at bounds
  rcases which with rfl | rfl | rfl
  · refine ⟨by dsimp only; omega,by dsimp only; omega,fun i there => .entry here (.ech isEch ranges (.inl ?_))⟩
    have := there.1
    have := there.2
    dsimp only at *
    omega
  · exact ⟨bounds.2.2.1,by omega,fun i there => .entry here (.ech isEch ranges (.inr (.inl there)))⟩
  · exact ⟨bounds.2.2.2.2.1,bounds.2.2.2.2.2,fun i there => .entry here (.ech isEch ranges (.inr (.inr there)))⟩

theorem greaseSpots (placed : Placed b layout entries) {grease : List Range}
    (found : collect (greaseVisit b) entries = some grease) {range : Range} (member : range ∈ grease) :
    range.1 ≤ range.2 ∧ range.2 ≤ b.length ∧ ∀ i, Inside range i → Soft b layout entries i := by
  obtain ⟨e,here,own,visited,inside⟩ := (collectMem found).mp member
  have entry := entryBounds placed here
  have header := entry.header
  have within := entry.within
  have fits := placed.fits
  obtain ⟨p,rfl,isGrease,which⟩ := (greaseVisitMem placed here visited range).mp inside
  have stop : p + 2 ≤ e.stop := by
    rcases which with ⟨_,rfl⟩ | unit
    · omega
    · exact (itemsInside b e unit).2
  refine ⟨by dsimp only; omega,by dsimp only; omega,fun i there => ?_⟩
  have first := there.1
  have second := there.2
  dsimp only at first second
  rcases which with ⟨type,rfl⟩ | unit
  · exact .entry here (.type type (by omega))
  · exact .entry here (.item unit isGrease (by omega))

open Classical in
def Wiped (W : Nat → Prop) (w d : Bytes) : Prop :=
  d.length = w.length ∧ ∀ i, d[i]? = if W i then some 0 else w[i]?

theorem Wiped.kept {W : Nat → Prop} {d : Bytes} (wiped : Wiped W w d) {i : Nat} (outside : ¬ W i) : d[i]? = w[i]? := by
  rw [wiped.2 i,if_neg outside]

theorem Wiped.then {W V : Nat → Prop} {d e : Bytes} (first : Wiped W w d) (second : Wiped V d e) :
    Wiped (fun i => W i ∨ V i) w e := by
  refine ⟨second.1.trans first.1,fun i => ?_⟩
  rw [second.2 i,first.2 i]
  by_cases one : V i
  · rw [if_pos one,if_pos (.inr one)]
  · rw [if_neg one]
    by_cases two : W i
    · rw [if_pos two,if_pos (.inl two)]
    · rw [if_neg two,if_neg (fun either => either.elim two one)]

theorem wipedRanges {ranges : List Range} (fit : ∀ range ∈ ranges, range.1 ≤ range.2 ∧ range.2 ≤ w.length) :
    Wiped (fun i => ∃ range ∈ ranges, Inside range i) w (fillAll 0 w ranges) := by
  obtain ⟨length,values⟩ := @fillAllAt UInt8 0 _ _ fit
  refine ⟨length,fun i => (values i).trans ?_⟩
  by_cases here : ∃ range ∈ ranges, Inside range i
  · rw [if_pos here,if_pos here]
  · rw [if_neg here,if_neg here]

theorem Wiped.unique {W : Nat → Prop} {d e : Bytes} (one : Wiped W w d) (two : Wiped W w e) : d = e := by
  apply List.ext_getElem?
  intro i
  rw [one.2 i,two.2 i]

theorem collectVisited {visit : Entry → Option (List Range)} {some' : List Entry} {ranges : List Range}
    (found : collect visit some' = some ranges) {e : Entry} (member : e ∈ some') : ∃ own, visit e = some own := by
  unfold collect at found
  obtain ⟨lists,each,same⟩ := Option.map_eq_some_iff.mp found
  clear found same
  induction some' generalizing lists with
  | nil => contradiction
  | cons first rest ih =>
    rw [List.mapM_cons] at each
    obtain ⟨own,visited,each⟩ := Option.bind_eq_some_iff.mp each
    obtain ⟨later,visitedRest,_⟩ := Option.bind_eq_some_iff.mp each
    rcases List.mem_cons.mp member with rfl | member
    · exact ⟨own,visited⟩
    · exact ih member later visitedRest

theorem collectSome {visit : Entry → Option (List Range)} {some' : List Entry}
    (each : ∀ e ∈ some', ∃ ranges, visit e = some ranges) : ∃ ranges, collect visit some' = some ranges := by
  have all : ∃ lists, some'.mapM visit = some lists := by
    induction some' with
    | nil => exact ⟨[],rfl⟩
    | cons e rest ih =>
      obtain ⟨first,visited⟩ := each e List.mem_cons_self
      obtain ⟨later,visitedRest⟩ := ih (fun e member => each e (List.mem_cons_of_mem _ member))
      exact ⟨first::later,by rw [List.mapM_cons,visited,visitedRest]; rfl⟩
  obtain ⟨lists,found⟩ := all
  exact ⟨lists.flatten,by rw [collect,found]; rfl⟩

def Zeroed (b : Bytes) (layout : ClientHelloLayout) (shares grease ech : List Range) (i : Nat) : Prop :=
  ((((∃ range ∈ [(11,43),layout.sessionIdRange], Inside range i) ∨ ∃ range ∈ shares, Inside range i) ∨
    SuiteAt b layout.cipherSuitesRange.1 layout.cipherSuitesRange.2 i) ∨ ∃ range ∈ grease, Inside range i) ∨
    ∃ range ∈ ech, Inside range i

theorem softZeroed (placed : Placed b layout entries) {shares grease ech : List Range}
    (hasShares : collect (keyShareVisit b) entries = some shares) (hasGrease : collect (greaseVisit b) entries = some grease)
    (hasEch : collect (echVisit b) entries = some ech) {i : Nat} (soft : Soft b layout entries i) :
    Zeroed b layout shares grease ech i := by
  cases soft with
  | random here => exact .inl (.inl (.inl (.inl ⟨_,List.mem_cons_self,here⟩)))
  | session here => exact .inl (.inl (.inl (.inl ⟨_,List.mem_cons_of_mem _ List.mem_cons_self,here⟩)))
  | suite unit isGrease here => exact .inl (.inl (.inr ⟨_,unit.1,unit.2.1,unit.2.2,isGrease,here⟩))
  | entry member soft =>
    cases soft with
    | @type isGrease here =>
      rename_i e
      have spot := isGrease
      rw [(entryBounds placed member).extType] at spot
      refine .inl (.inr ⟨(e.start,e.start + 2),(collectMem hasGrease).mpr ⟨e,member,[(e.start,e.start + 2)],?_,
        List.mem_cons_self⟩,?_⟩)
      · rw [greaseVisit,isGrease]
        rfl
      · exact ⟨by dsimp only; omega,by dsimp only; omega⟩
    | @item p unit isGrease here =>
      rename_i e
      obtain ⟨own,visited⟩ := collectVisited hasGrease member
      have inside := (greaseVisitMem placed member visited (p,p + 2)).mpr ⟨p,rfl,isGrease,.inr unit⟩
      refine .inl (.inr ⟨(p,p + 2),(collectMem hasGrease).mpr ⟨e,member,own,visited,inside⟩,?_⟩)
      exact ⟨by dsimp only; omega,by dsimp only; omega⟩
    | share keyShare walked range here =>
      exact .inl (.inl (.inl (.inr ⟨_,(sharesCollected placed hasShares).mpr ⟨_,member,keyShare,_,walked,range⟩,here⟩)))
    | ech isEch found here =>
      rcases here with rfl | there | there
      · exact .inr ⟨_,(echCollected placed hasEch).mpr ⟨_,member,isEch,_,_,_,found,.inl rfl⟩,
          ⟨Nat.le_refl _,Nat.lt_succ_self _⟩⟩
      · exact .inr ⟨_,(echCollected placed hasEch).mpr ⟨_,member,isEch,_,_,_,found,.inr (.inl rfl)⟩,there⟩
      · exact .inr ⟨_,(echCollected placed hasEch).mpr ⟨_,member,isEch,_,_,_,found,.inr (.inr rfl)⟩,there⟩

theorem keySharePass (placed : Placed b layout entries) (like : Like b layout entries w) {shares : List Range}
    (found : collect (keyShareVisit b) entries = some shares) :
    normalizeClientHelloKeyShares w = some (fillAll 0 w shares) := by
  unfold normalizeClientHelloKeyShares
  rw [likeExtensions placed like]
  dsimp only [Option.bind_eq_bind,Option.bind_some]
  rw [collectMap (fun e member => keyShareVisitSame placed like member),found]
  rfl

theorem echPass (placed : Placed b layout entries) (like : Like b layout entries w) {ech : List Range}
    (found : collect (echVisit b) entries = some ech) : normalizeClientHelloEchExtension w = some (fillAll 0 w ech) := by
  unfold normalizeClientHelloEchExtension
  rw [likeExtensions placed like]
  dsimp only [Option.bind_eq_bind,Option.bind_some]
  rw [collectMap (fun e member => echVisitSame placed like member),found]
  rfl

theorem twinSuites (placed : Placed b layout entries) (twin : Twin b layout entries w) (i : Nat) :
    SuiteAt w layout.cipherSuitesRange.1 layout.cipherSuitesRange.2 i ↔
      SuiteAt b layout.cipherSuitesRange.1 layout.cipherSuitesRange.2 i := by
  constructor
  · rintro ⟨p,after,before,even,isGrease,here⟩
    exact ⟨p,after,before,even,(twinGrease placed twin (.suite ⟨after,before,even⟩)).symm.trans isGrease,here⟩
  · rintro ⟨p,after,before,even,isGrease,here⟩
    exact ⟨p,after,before,even,(twinGrease placed twin (.suite ⟨after,before,even⟩)).trans isGrease,here⟩

theorem greasePass (placed : Placed b layout entries) (twin : Twin b layout entries w) :
    ∃ d, Wiped (SuiteAt b layout.cipherSuitesRange.1 layout.cipherSuitesRange.2) w d ∧ Like b layout entries d ∧
      normalizeClientHelloGreasePositions w = (collect (greaseVisit b) entries).map (fillAll 0 d) := by
  have front := suitesFront placed
  have fits := placed.fits
  have like := twin.toLike
  have isSuites := placed.suites
  have suites1 : layout.sessionIdRange.2 + 2 = layout.cipherSuitesRange.1 := front.2.1
  have suites2 : layout.sessionIdRange.2 + 2 + u16At b layout.sessionIdRange.2 = layout.cipherSuitesRange.2 := by
    rw [isSuites]
  have suitesLen : u16At w layout.sessionIdRange.2 = u16At b layout.sessionIdRange.2 :=
    u16Same (likeFront placed like (by omega) (by omega) (by omega)) (likeFront placed like (by omega) (by omega) (by omega))
  have readSuites : readU16 w layout.sessionIdRange.2 = some (u16At b layout.sessionIdRange.2) := by
    rw [readU16,if_neg (by rw [like.length]; omega),suitesLen]
  obtain ⟨length,values⟩ := @zeroSuitesAt w layout.cipherSuitesRange.2 w.length
    layout.cipherSuitesRange.1 (by rw [like.length]; omega) (by rw [like.length]; omega)
  have wiped : Wiped (SuiteAt b layout.cipherSuitesRange.1 layout.cipherSuitesRange.2) w
      (zeroSuites layout.cipherSuitesRange.2 w.length layout.cipherSuitesRange.1 w) := by
    refine ⟨length,fun i => (values i).trans ?_⟩
    by_cases here : SuiteAt b layout.cipherSuitesRange.1 layout.cipherSuitesRange.2 i
    · rw [if_pos ((twinSuites placed twin i).mpr here),if_pos here]
    · rw [if_neg (fun there => here ((twinSuites placed twin i).mp there)),if_neg here]
  generalize zeroed : zeroSuites layout.cipherSuitesRange.2 w.length layout.cipherSuitesRange.1 w = d at wiped
  -- behind the cipher suites nothing has changed
  have behind {i : Nat} (after : layout.cipherSuitesRange.2 ≤ i) : d[i]? = w[i]? := by
    apply wiped.kept
    rintro ⟨p,_,before,_,_,here⟩
    omega
  have likeZeroed : Like b layout entries d := by
    refine ⟨wiped.1.trans like.length,fun i hard => ?_,fun e member isGrease => ?_⟩
    · rw [wiped.kept,like.bone i hard]
      rintro ⟨p,after,before,even,isGrease,here⟩
      exact hard (.suite ⟨after,before,even⟩ isGrease here)
    · have := (entryBounds placed member).after
      rw [u16Same (behind (by omega)) (behind (by omega))]
      exact like.types e member isGrease
  refine ⟨d,wiped,likeZeroed,?_⟩
  unfold normalizeClientHelloGreasePositions
  rw [likeRanges placed like]
  dsimp only [Option.bind_eq_bind,Option.bind_some]
  rw [readSuites,Option.bind_some,suites2,suites1,if_neg (by rw [like.length]; omega),zeroed,
    likeExtensions placed likeZeroed,
    Option.bind_some]
  dsimp only
  rw [@collectMap _ (greaseVisit b) _ _ (fun e member => greaseVisitSame placed likeZeroed member ?_)]
  · cases collect (greaseVisit b) entries with
    | none => rfl
    | some grease => rfl
  · intro p which
    have entry := entryBounds placed member
    have after := entry.after
    have spot : Spot b layout entries p := by
      rcases which with rfl | unit
      · exact .type member rfl
      · exact .item member unit
    have far : layout.cipherSuitesRange.2 ≤ p := by
      rcases which with rfl | unit
      · omega
      · have := (itemsInside b e unit).1
        omega
    rw [u16Same (behind far) (behind (by omega))]
    exact twinGrease placed twin spot

theorem sharesCollect (placed : Placed b layout entries) : ∃ shares, collect (keyShareVisit b) entries = some shares := by
  apply collectSome
  intro e member
  rw [keyShareVisit]
  by_cases keyShare : e.extType = 0x0033
  · obtain ⟨long,own,walked⟩ := (placed.parsed e member).shares keyShare
    exact ⟨own,by rw [if_neg (not_not.mpr keyShare),if_neg (by omega),walked]⟩
  · exact ⟨[],if_pos keyShare⟩

theorem echCollect (placed : Placed b layout entries) : ∃ ech, collect (echVisit b) entries = some ech := by
  apply collectSome
  intro e member
  unfold echVisit
  dsimp only
  by_cases isEch : e.extType = echExtensionType
  · obtain ⟨long,outer,found,ranges⟩ := (placed.parsed e member).ech isEch
    exact ⟨_,by rw [if_neg (not_not.mpr isEch),if_neg (by omega),if_neg (not_not.mpr outer),ranges,Option.map_some]⟩
  · exact ⟨[],if_pos isEch⟩

theorem typeZeroed {W : Nat → Prop} {grease : List Range} {d out : Bytes}
    (hasGrease : collect (greaseVisit b) entries = some grease) (member : e ∈ entries) (isGrease : isGreaseValue e.extType = true) (wiped : Wiped W d out)
    (covers : ∀ range ∈ grease, ∀ i, Inside range i → W i) : u16At out e.start = 0 := by
  have there : (e.start,e.start + 2) ∈ grease := by
    refine (collectMem hasGrease).mpr ⟨e,member,[(e.start,e.start + 2)],?_,List.mem_cons_self⟩
    rw [greaseVisit,isGrease]
    rfl
  have first := wiped.2 e.start
  have second := wiped.2 (e.start + 1)
  rw [if_pos (covers _ there _ ⟨Nat.le_refl _,by dsimp only; omega⟩)] at first
  rw [if_pos (covers _ there _ ⟨by dsimp only; omega,by dsimp only; omega⟩)] at second
  simp only [u16At,byteAt,List.getD_eq_getElem?_getD,first,second]
  rfl

theorem erasedTwin (placed : Placed b layout entries) (twin : Twin b layout entries w) :
    (collect (greaseVisit b) entries = none ∧ erasedHello w = none) ∨
    ∃ shares grease ech out, collect (keyShareVisit b) entries = some shares ∧ collect (greaseVisit b) entries = some grease ∧
      collect (echVisit b) entries = some ech ∧ erasedHello w = some out ∧ Wiped (Zeroed b layout shares grease ech) b out := by
  have front := suitesFront placed
  have fits := placed.fits
  obtain ⟨shares,hasShares⟩ := sharesCollect placed
  obtain ⟨ech,hasEch⟩ := echCollect placed
  have ends : ∀ range ∈ [(11,43),layout.sessionIdRange], range.1 ≤ range.2 ∧ range.2 ≤ w.length := by
    intro range member
    rw [twin.length]
    rcases List.mem_cons.mp member with rfl | member
    · exact ⟨by decide,by dsimp only; omega⟩
    · rw [List.mem_singleton.mp member,placed.session]
      rw [placed.session] at front
      dsimp only at front ⊢
      exact ⟨by omega,by omega⟩
  have one := wipedRanges ends
  unfold erasedHello
  rw [likeRanges placed twin.toLike]
  dsimp only [Option.bind_eq_bind,Option.bind_some]
  generalize fillAll 0 w [(11,43),layout.sessionIdRange] = n1 at one
  have twin1 : Twin b layout entries n1 := by
    refine twinErase placed twin one.1 (fun i hard => one.kept ?_)
    rintro ⟨range,member,inside⟩
    rcases List.mem_cons.mp member with rfl | member
    · exact hard (.random inside)
    · exact hard (.session (List.mem_singleton.mp member ▸ inside))
  rw [keySharePass placed twin1.toLike hasShares,Option.bind_some]
  have two := @wipedRanges n1 shares (fun range member => by
    have := sharesErase placed hasShares member
    rw [twin1.length]
    exact ⟨this.1,this.2.1⟩)
  generalize fillAll 0 n1 shares = n2 at two
  have twin2 : Twin b layout entries n2 := by
    refine twinErase placed twin1 two.1 (fun i hard => two.kept ?_)
    rintro ⟨range,member,inside⟩
    exact hard ((sharesErase placed hasShares member).2.2 i inside)
  obtain ⟨d,suites,likeD,ran⟩ := greasePass placed twin2
  rw [ran]
  cases hasGrease : collect (greaseVisit b) entries with
  | none => exact .inl ⟨rfl,rfl⟩
  | some grease =>
    right
    rw [Option.map_some,Option.bind_some]
    have three := @wipedRanges d grease (fun range member => by
      have := greaseSpots placed hasGrease member
      rw [likeD.length]
      exact ⟨this.1,this.2.1⟩)
    generalize fillAll 0 d grease = n3 at three
    have like3 : Like b layout entries n3 := by
      refine ⟨three.1.trans likeD.length,fun i hard => ?_,fun e member isGrease => .inr ?_⟩
      · rw [three.kept,likeD.bone i hard]
        rintro ⟨range,member,inside⟩
        exact hard ((greaseSpots placed hasGrease member).2.2 i inside)
      · exact typeZeroed hasGrease member isGrease three (fun range there i inside => ⟨range,there,inside⟩)
    rw [echPass placed like3 hasEch]
    have four := @wipedRanges n3 ech (fun range member => by
      have := echErase placed hasEch member
      rw [like3.length]
      exact ⟨this.1,this.2.1⟩)
    have all : Wiped (Zeroed b layout shares grease ech) w (fillAll 0 n3 ech) :=
      (((one.then two).then suites).then three).then four
    refine ⟨shares,grease,ech,_,hasShares,rfl,hasEch,rfl,all.1.trans twin.length,fun i => (all.2 i).trans ?_⟩
    by_cases zero : Zeroed b layout shares grease ech i
    · rw [if_pos zero,if_pos zero]
    · rw [if_neg zero,if_neg zero]
      exact twin.bone i (fun soft => zero (softZeroed placed hasShares hasGrease hasEch soft))

theorem fingerprintTwins (hash : KeyedHash) (placed : Placed b layout entries) {d : Bytes} (one : Twin b layout entries w)
    (two : Twin b layout entries d) : stableClientHelloFingerprint hash w = stableClientHelloFingerprint hash d := by
  have same : erasedHello w = erasedHello d := by
    rcases erasedTwin placed one with ⟨_,first⟩ | ⟨shares,grease,ech,out,hasShares,hasGrease,hasEch,first,wiped⟩ <;>
      rcases erasedTwin placed two with ⟨none',second⟩ | ⟨shares',grease',ech',out',hasShares',hasGrease',hasEch',
        second,wiped'⟩
    · rw [first,second]
    · simp_all
    · simp_all
    · rw [hasShares] at hasShares'
      rw [hasGrease] at hasGrease'
      rw [hasEch] at hasEch'
      cases Option.some.inj hasShares'
      cases Option.some.inj hasGrease'
      cases Option.some.inj hasEch'
      rw [first,second,wiped.unique wiped']
  rw [stableClientHelloFingerprint,stableClientHelloFingerprint,same]

end Passes

end KanoTls.Hello
