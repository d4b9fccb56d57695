import KanoTls.GreasePlaces

/-! `apply_client_hello_randomization` on the buffer of a template: its four passes rotate
the GREASE values of the extension types, the cipher suites, the groups and the versions. -/
namespace KanoTls.Hello
open Uot Wire Patch

def extensionEntries (b : Bytes) (extensionsLenRange : Range) : Option (List Entry) := do
  let extensionsLen ← readU16 b extensionsLenRange.1
  walkEntries b (extensionsLenRange.2 + extensionsLen) b.length extensionsLenRange.2

def listIn (b : Bytes) (entries : List Entry) (extensionType : Nat) : Range :=
  match entries.find? (fun e => e.extType = extensionType) with
  | none => (0,0)
  | some e => itemsOf b e

def greaseLists (b : Bytes) (cipherSuitesRange : Range) (entries : List Entry) : List Range :=
  [cipherSuitesRange,listIn b entries supportedGroupsExtensionType,listIn b entries supportedVersionsExtensionType]

def greaseIn (b : Bytes) (list : Range) : List Nat := ((unitsOf list).map (u16At b)).filter isGreaseValue

structure Laid (b : Bytes) (suites extensionsLen : Range) (entries : List Entry) : Prop where
  suites : suites.2 ≤ extensionsLen.1
  header : extensionsLen.1 + 2 = extensionsLen.2
  fits : extensionsLen.2 + u16At b extensionsLen.1 ≤ b.length
  walked : walkEntries b (extensionsLen.2 + u16At b extensionsLen.1) b.length extensionsLen.2 = some entries

section Walks
variable {b w out : Bytes} {suites extensionsLen : Range} {entries : List Entry} {e : Entry}

theorem Laid.entry (laid : Laid b suites extensionsLen entries) (member : e ∈ entries) :
    EntryOk b extensionsLen.2 (extensionsLen.2 + u16At b extensionsLen.1) e := (walkEntriesOk laid.walked).1 e member

theorem Laid.starts (laid : Laid b suites extensionsLen entries) : (entries.map Entry.start).Pairwise Off := by
  obtain ⟨each,apart⟩ := walkEntriesOk laid.walked
  refine List.pairwise_map.mpr (apart.imp_of_mem ?_)
  intro e later here _ before
  have := (each e here).header
  exact .inl (by omega)

theorem walkBehind {extensionsEnd fuel cursor : Nat} (same : ∀ i, cursor ≤ i → w[i]? = b[i]?) :
    walkEntries w extensionsEnd fuel cursor = walkEntries b extensionsEnd fuel cursor := by
  induction fuel generalizing cursor with
  | zero => rfl
  | succ fuel ih =>
    rw [walkEntries,walkEntries,u16Same (same cursor (by omega)) (same (cursor + 1) (by omega)),
      u16Same (same (cursor + 2) (by omega)) (same (cursor + 2 + 1) (by omega))]
    dsimp only
    rw [ih (fun i behind => same i (by omega))]

theorem rotateTypesWalk (draw : Nat → Nat) {extensionsEnd : Nat} (fuel cursor : Nat) (used : List Nat) (bytes : Bytes)
    {some' : List Entry} (fits : extensionsEnd ≤ bytes.length)
    (walked : walkEntries bytes extensionsEnd fuel cursor = some some') :
    rotateExtensionTypes draw extensionsEnd fuel cursor used bytes =
      some (rotateAt draw (some'.map Entry.start) used bytes) := by
  induction fuel generalizing cursor used bytes some' with
  | zero =>
    cases Option.some.inj walked
    rfl
  | succ fuel ih =>
    rw [walkEntries] at walked
    rw [rotateExtensionTypes]
    by_cases more : cursor + 4 ≤ extensionsEnd
    · rw [if_pos more] at walked ⊢
      dsimp only at walked
      obtain ⟨inside,walked⟩ := Option.ite_none_left_eq_some.mp walked
      obtain ⟨rest,walkedRest,rfl⟩ := Option.map_eq_some_iff.mp walked
      have readType : readU16 bytes cursor = some (u16At bytes cursor) := if_neg (by omega)
      have readLen : readU16 bytes (cursor + 2) = some (u16At bytes (cursor + 2)) := if_neg (by omega)
      rw [readType,readLen,Option.bind_eq_bind,Option.bind_some,Option.bind_some]
      dsimp only
      rw [Nat.add_assoc,if_neg inside,List.map_cons,rotateAt,greaseAt]
      by_cases grease : isGreaseValue (u16At bytes cursor) = true
      · rw [if_pos grease,if_pos grease]
        have long : cursor + (toBeBytes (takeGreaseValue (draw used.length) used).1).length ≤ bytes.length := by
          have size : (toBeBytes (takeGreaseValue (draw used.length) used).1).length = 2 := rfl
          omega
        have kept : extensionsEnd ≤ (put bytes cursor (toBeBytes (takeGreaseValue (draw used.length) used).1)).length := by
          rw [putLength long]
          exact fits
        refine ih _ _ _ kept ?_
        rw [← walkedRest]
        apply walkBehind
        intro i behind
        apply putAfter long
        have size : (toBeBytes (takeGreaseValue (draw used.length) used).1).length = 2 := rfl
        omega
      · rw [if_neg grease,if_neg grease]
        exact ih _ _ _ fits walkedRest
    · rw [if_neg more] at walked ⊢
      cases Option.some.inj walked
      rfl

theorem findExtensionWalk {extensionsEnd : Nat} (extensionType fuel cursor : Nat) {some' : List Entry}
    (fits : extensionsEnd ≤ b.length) (walked : walkEntries b extensionsEnd fuel cursor = some some') :
    findExtensionFrom b extensionType extensionsEnd fuel cursor =
      some ((some'.find? (fun e => e.extType = extensionType)).map (fun e => (e.start + 4,e.stop))) := by
  induction fuel generalizing cursor some' with
  | zero =>
    cases Option.some.inj walked
    rfl
  | succ fuel ih =>
    rw [walkEntries] at walked
    rw [findExtensionFrom]
    by_cases more : cursor + 4 ≤ extensionsEnd
    · rw [if_pos more] at walked ⊢
      dsimp only at walked
      obtain ⟨inside,walked⟩ := Option.ite_none_left_eq_some.mp walked
      obtain ⟨rest,walkedRest,rfl⟩ := Option.map_eq_some_iff.mp walked
      have readType : readU16 b cursor = some (u16At b cursor) := if_neg (by omega)
      have readLen : readU16 b (cursor + 2) = some (u16At b (cursor + 2)) := if_neg (by omega)
      rw [readType,readLen,Option.bind_eq_bind,Option.bind_some,Option.bind_some]
      dsimp only
      rw [Nat.add_assoc,if_neg inside,List.find?_cons]
      by_cases this : u16At b cursor = extensionType
      · rw [if_pos this,decide_eq_true this]
        rfl
      · rw [if_neg this,decide_eq_false this]
        exact ih _ walkedRest
    · rw [if_neg more] at walked ⊢
      cases Option.some.inj walked
      rfl

end Walks

inductive Place (b : Bytes) (suites : Range) (entries : List Entry) (p : Nat) : Prop where
  | type {e : Entry} (member : e ∈ entries) (here : p = e.start)
  | suite (member : p ∈ unitsOf suites)
  | item {e : Entry} (member : e ∈ entries) (inside : p ∈ unitsOf (itemsOf b e))

section Layout
variable {b out : Bytes} {suites extensionsLen : Range} {entries : List Entry} {e : Entry} {places : List Nat} {p : Nat}

theorem Laid.apart (laid : Laid b suites extensionsLen entries) {e' : Entry} (member : e ∈ entries) (member' : e' ∈ entries) :
    e = e' ∨ e.stop ≤ e'.start ∨ e'.stop ≤ e.start := by
  have apart := (walkEntriesOk laid.walked).2
  exact List.Pairwise.forall_of_forall_of_flip (R := fun e e' : Entry => e = e' ∨ e.stop ≤ e'.start ∨ e'.stop ≤ e.start)
    (fun _ _ => .inl rfl) (apart.imp (fun before => .inr (.inl before))) (apart.imp (fun before => .inr (.inr before)))
    member member'

theorem itemBounds (inside : p ∈ unitsOf (itemsOf b e)) : e.start + 5 ≤ p ∧ p + 2 ≤ e.stop ∧
    (e.extType = supportedGroupsExtensionType → e.start + 6 ≤ p) := by
  obtain ⟨after,before⟩ := unitsBounds inside
  unfold itemsOf at after before
  split at after
  · rename_i groups
    rw [if_pos groups] at before
    dsimp only at after before
    exact ⟨by omega,by omega,fun _ => after⟩
  · rename_i notGroups
    rw [if_neg notGroups] at before
    split at after
    · rename_i versions
      rw [if_pos versions] at before
      dsimp only at after before
      exact ⟨by omega,by omega,fun groups => absurd groups notGroups⟩
    · rename_i notVersions
      rw [if_neg notVersions] at before
      dsimp only at before
      omega

theorem Laid.around (laid : Laid b suites extensionsLen entries) (member : e ∈ entries) (place : Place b suites entries p) :
    p = e.start ∨ p + 2 ≤ e.start ∨ e.stop ≤ p ∨ p ∈ unitsOf (itemsOf b e) := by
  have here := laid.entry member
  have header := here.header
  cases place with
  | type other same =>
    rename_i e'
    have there := (laid.entry other).header
    rcases laid.apart member other with rfl | first | second
    · exact .inl same
    · exact .inr (.inr (.inl (by omega)))
    · exact .inr (.inl (by omega))
  | suite inside =>
    have before := (unitsBounds inside).2
    have front := laid.suites
    have lengths := laid.header
    have after := here.after
    exact .inr (.inl (by omega))
  | item other inside =>
    rename_i e'
    have bounds := itemBounds inside
    rcases laid.apart member other with rfl | first | second
    · exact .inr (.inr (.inr inside))
    · exact .inr (.inr (.inl (by omega)))
    · exact .inr (.inl (by omega))

theorem Laid.offExtensionsLen (laid : Laid b suites extensionsLen entries) (place : Place b suites entries p) :
    Off extensionsLen.1 p := by
  have header := laid.header
  cases place with
  | type member same =>
    have after := (laid.entry member).after
    exact .inl (by omega)
  | suite inside =>
    have before := (unitsBounds inside).2
    have front := laid.suites
    exact .inr (by omega)
  | item member inside =>
    have after := (laid.entry member).after
    have bounds := itemBounds inside
    exact .inl (by omega)

theorem Laid.offHeader (laid : Laid b suites extensionsLen entries) (member : e ∈ entries) (place : Place b suites entries p) :
    Off (e.start + 2) p := by
  have header := (laid.entry member).header
  rcases laid.around member place with same | before | after | inside
  · exact .inr (by omega)
  · exact .inr (by omega)
  · exact .inl (by omega)
  · have bounds := itemBounds inside
    exact .inl (by omega)

theorem Laid.offType (laid : Laid b suites extensionsLen entries) (member : e ∈ entries) (place : Place b suites entries p)
    (other : p ≠ e.start) : Off e.start p := by
  have header := (laid.entry member).header
  rcases laid.around member place with same | before | after | inside
  · exact absurd same other
  · exact .inr before
  · exact .inl (by omega)
  · have bounds := itemBounds inside
    exact .inl (by omega)

section Rotated
variable (laid : Laid b suites extensionsLen entries) (rotates : Rotates places b out)
  (all : ∀ p ∈ places, Place b suites entries p)
include laid rotates all

theorem rotatedLaid : Laid out suites extensionsLen (entries.map (retype out)) := by
  have len : u16At out extensionsLen.1 = u16At b extensionsLen.1 :=
    rotates.u16 (fun p there => laid.offExtensionsLen (all p there))
  refine ⟨laid.suites,laid.header,?_,?_⟩
  · rw [len,rotates.length]
    exact laid.fits
  · rw [len,rotates.length]
    exact walkRetyped laid.walked (fun e member => rotates.u16 (fun p there => laid.offHeader member (all p there)))

theorem rotatedType (member : e ∈ entries) {extensionType : Nat} (plain : isGreaseValue extensionType = false) :
    u16At out e.start = extensionType ↔ e.extType = extensionType := by
  have isType := (laid.entry member).extType
  cases grease : greaseAt b e.start with
  | false =>
    have same : u16At out e.start = u16At b e.start := by
      apply rotates.u16Of
      intro q there greaseThere
      refine laid.offType member (all q there) ?_
      rintro rfl
      rw [grease] at greaseThere
      contradiction
    rw [same,isType]
  | true =>
    have still : greaseAt out e.start = true := by
      by_cases visited : e.start ∈ places
      · exact rotates.grease e.start visited grease
      · have same : u16At out e.start = u16At b e.start := by
          apply rotates.u16
          intro q there
          refine laid.offType member (all q there) ?_
          rintro rfl
          exact visited there
        rw [greaseAt,same]
        exact grease
    rw [greaseAt] at still grease
    rw [isType]
    constructor
    · intro same
      rw [same,plain] at still
      contradiction
    · intro same
      rw [same,plain] at grease
      contradiction

theorem rotatedItems (member : e ∈ entries) (plain : isGreaseValue e.extType = false) :
    itemsOf out (retype out e) = itemsOf b e := by
  have kept : (retype out e).extType = e.extType := (rotatedType laid rotates all member plain).mpr rfl
  have header := (laid.entry member).header
  unfold itemsOf
  rw [kept]
  show (if e.extType = supportedGroupsExtensionType then (e.start + 6,min (e.start + 6 + u16At out (e.start + 4)) e.stop)
    else if e.extType = supportedVersionsExtensionType then
      (e.start + 5,min (e.start + 5 + (byteAt out (e.start + 4)).toNat) e.stop)
    else (0,0)) = _
  by_cases groups : e.extType = supportedGroupsExtensionType
  · rw [if_pos groups,if_pos groups]
    by_cases room : e.start + 6 ≤ e.stop
    · have same : u16At out (e.start + 4) = u16At b (e.start + 4) := by
        apply rotates.u16
        intro p there
        rcases laid.around member (all p there) with same | before | after | inside
        · exact .inr (by omega)
        · exact .inr (by omega)
        · exact .inl (by omega)
        · have bounds := (itemBounds inside).2.2 groups
          exact .inl (by omega)
      rw [same]
    · rw [Nat.min_eq_right (by omega),Nat.min_eq_right (by omega)]
  · rw [if_neg groups,if_neg groups]
    by_cases versions : e.extType = supportedVersionsExtensionType
    · rw [if_pos versions,if_pos versions]
      by_cases room : e.start + 5 ≤ e.stop
      · have same : byteAt out (e.start + 4) = byteAt b (e.start + 4) := by
          apply byteSame
          apply rotates.same
          intro p there _
          rcases laid.around member (all p there) with same | before | after | inside
          · omega
          · omega
          · omega
          · have bounds := itemBounds inside
            omega
        rw [same]
      · rw [Nat.min_eq_right (by omega),Nat.min_eq_right (by omega)]
    · rw [if_neg versions,if_neg versions]

theorem rotatedFind {extensionType : Nat} (plain : isGreaseValue extensionType = false) :
    (entries.map (retype out)).find? (fun e => e.extType = extensionType) =
      (entries.find? (fun e => e.extType = extensionType)).map (retype out) := by
  have each : ∀ e ∈ entries, decide ((retype out e).extType = extensionType) = decide (e.extType = extensionType) :=
    fun e member => decide_eq_decide.mpr (rotatedType laid rotates all member plain)
  clear laid rotates all
  rw [List.find?_map]
  congr 1
  induction entries with
  | nil => rfl
  | cons first rest ih =>
    rw [List.find?_cons,List.find?_cons,ih (fun e member => each e (List.mem_cons_of_mem _ member))]
    rw [Function.comp_apply,each first List.mem_cons_self]

theorem rotatedList {extensionType : Nat} (plain : isGreaseValue extensionType = false) :
    listIn out (entries.map (retype out)) extensionType = listIn b entries extensionType := by
  unfold listIn
  rw [rotatedFind laid rotates all plain]
  cases found : entries.find? (fun e => e.extType = extensionType) with
  | none => rfl
  | some e =>
    have meets := List.find?_some found
    have isType : e.extType = extensionType := of_decide_eq_true meets
    exact rotatedItems laid rotates all (List.mem_of_find?_eq_some found) (isType ▸ plain)

end Rotated

end Layout

section Passes
variable {b : Bytes} {suites extensionsLen : Range} {entries : List Entry} (laid : Laid b suites extensionsLen entries)
  (draws : Draws)
include laid

theorem Laid.read : readU16 b extensionsLen.1 = some (u16At b extensionsLen.1) := by
  have header := laid.header
  have fits := laid.fits
  exact if_neg (by omega)

theorem typesPass : rotateGreaseExtensions draws extensionsLen b =
    some (rotateAt (draws.grease 0) (entries.map Entry.start) [] b) := by
  rw [rotateGreaseExtensions,laid.read,Option.bind_eq_bind,Option.bind_some]
  exact rotateTypesWalk _ _ _ _ _ laid.fits laid.walked

theorem suitesPass : rotateGreaseCipherSuites draws suites b = some (rotateAt (draws.grease 1) (unitsOf suites) [] b) := by
  have front := laid.suites
  have header := laid.header
  have fits := laid.fits
  rw [rotateGreaseCipherSuites,if_neg (by omega)]
  exact rotateListWalk _ _ _ _ _ (by omega) (by omega)

theorem Laid.find (extensionType : Nat) : findExtension b extensionsLen extensionType =
    some ((entries.find? (fun e => e.extType = extensionType)).map (fun e => (e.start + 4,e.stop))) := by
  rw [findExtension,laid.read,Option.bind_eq_bind,Option.bind_some]
  exact findExtensionWalk _ _ _ laid.fits laid.walked

theorem groupsPass : rotateGreaseSupportedGroups draws extensionsLen b =
    if (entries.find? (fun e => e.extType = supportedGroupsExtensionType)).any (fun e => e.stop < e.start + 6) then none
    else some (rotateAt (draws.grease 2) (unitsOf (listIn b entries supportedGroupsExtensionType)) [] b) := by
  rw [rotateGreaseSupportedGroups,laid.find,Option.bind_eq_bind,Option.bind_some,listIn]
  cases found : entries.find? (fun e => e.extType = supportedGroupsExtensionType) with
  | none =>
    rw [Option.map_none,Option.any_none,if_neg Bool.false_ne_true]
    dsimp only
    rw [unitsNil (by omega)]
    rfl
  | some e =>
    have meets := List.find?_some found
    have isGroups : e.extType = supportedGroupsExtensionType := of_decide_eq_true meets
    have here := laid.entry (List.mem_of_find?_eq_some found)
    have header := here.header
    have within := here.within
    have fits := laid.fits
    rw [Option.map_some,Option.any_some]
    dsimp only
    by_cases short : e.stop < e.start + 6
    · rw [if_pos (.inr (by omega)),decide_eq_true short,if_pos rfl]
    · have read : readU16 b (e.start + 4) = some (u16At b (e.start + 4)) := if_neg (by omega)
      rw [if_neg (by omega),decide_eq_false short,if_neg Bool.false_ne_true,read,Option.bind_eq_bind,Option.bind_some,
        itemsOf,if_pos isGroups]
      exact rotateListWalk _ _ _ _ _ (by omega) (by omega)

theorem versionsPass : rotateGreaseSupportedVersions draws extensionsLen b =
    if (entries.find? (fun e => e.extType = supportedVersionsExtensionType)).any (fun e => e.stop < e.start + 5) then none
    else some (rotateAt (draws.grease 3) (unitsOf (listIn b entries supportedVersionsExtensionType)) [] b) := by
  rw [rotateGreaseSupportedVersions,laid.find,Option.bind_eq_bind,Option.bind_some,listIn]
  cases found : entries.find? (fun e => e.extType = supportedVersionsExtensionType) with
  | none =>
    rw [Option.map_none,Option.any_none,if_neg Bool.false_ne_true]
    dsimp only
    rw [unitsNil (by omega)]
    rfl
  | some e =>
    have meets := List.find?_some found
    have isVersions : e.extType = supportedVersionsExtensionType := of_decide_eq_true meets
    have notGroups : e.extType ≠ supportedGroupsExtensionType := by
      rw [isVersions]
      decide
    have here := laid.entry (List.mem_of_find?_eq_some found)
    have header := here.header
    have within := here.within
    have fits := laid.fits
    rw [Option.map_some,Option.any_some]
    dsimp only
    by_cases short : e.stop < e.start + 5
    · rw [if_pos (.inr (by omega)),decide_eq_true short,if_pos rfl]
    · rw [if_neg (by omega),decide_eq_false short,if_neg Bool.false_ne_true,itemsOf,if_neg notGroups,if_pos isVersions]
      exact rotateListWalk _ _ _ _ _ (by omega) (by omega)

end Passes

section Apart
variable {b : Bytes} {suites extensionsLen : Range} {entries : List Entry} {p q extensionType : Nat}

theorem listPlace (inside : p ∈ unitsOf (listIn b entries extensionType)) :
    ∃ e ∈ entries, e.extType = extensionType ∧ p ∈ unitsOf (itemsOf b e) := by
  unfold listIn at inside
  split at inside
  · rw [unitsNil (by omega)] at inside
    contradiction
  · rename_i e found
    have meets := List.find?_some found
    exact ⟨e,List.mem_of_find?_eq_some found,of_decide_eq_true meets,inside⟩

variable (laid : Laid b suites extensionsLen entries)
include laid

theorem typeOffSuite : ∀ p ∈ entries.map Entry.start, ∀ q ∈ unitsOf suites, Off p q := by
  intro p starts q inside
  obtain ⟨e,member,rfl⟩ := List.mem_map.mp starts
  have before := (unitsBounds inside).2
  have front := laid.suites
  have header := laid.header
  have after := (laid.entry member).after
  exact .inr (by omega)

theorem typeOffList (extensionType : Nat) :
    ∀ p ∈ entries.map Entry.start, ∀ q ∈ unitsOf (listIn b entries extensionType), Off p q := by
  intro p starts q inside
  obtain ⟨e,member,rfl⟩ := List.mem_map.mp starts
  obtain ⟨e',member',_,inside⟩ := listPlace inside
  have bounds := itemBounds inside
  have header := (laid.entry member).header
  rcases laid.apart member member' with rfl | first | second
  · exact .inl (by omega)
  · exact .inl (by omega)
  · exact .inr (by omega)

theorem suiteOffList (extensionType : Nat) :
    ∀ p ∈ unitsOf suites, ∀ q ∈ unitsOf (listIn b entries extensionType), Off p q := by
  intro p units q inside
  obtain ⟨e,member,_,inside⟩ := listPlace inside
  have bounds := itemBounds inside
  have before := (unitsBounds units).2
  have front := laid.suites
  have header := laid.header
  have after := (laid.entry member).after
  exact .inl (by omega)

theorem groupsOffVersions : ∀ p ∈ unitsOf (listIn b entries supportedGroupsExtensionType),
    ∀ q ∈ unitsOf (listIn b entries supportedVersionsExtensionType), Off p q := by
  intro p groups q versions
  obtain ⟨e,member,isGroups,inside⟩ := listPlace groups
  obtain ⟨e',member',isVersions,inside'⟩ := listPlace versions
  have bounds := itemBounds inside
  have bounds' := itemBounds inside'
  rcases laid.apart member member' with rfl | first | second
  · rw [isGroups] at isVersions
    contradiction
  · exact .inl (by omega)
  · exact .inr (by omega)

theorem listFits (extensionType : Nat) : ∀ p ∈ unitsOf (listIn b entries extensionType), p + 2 ≤ b.length := by
  intro p inside
  obtain ⟨e,member,_,inside⟩ := listPlace inside
  have bounds := itemBounds inside
  have within := (laid.entry member).within
  have fits := laid.fits
  omega

end Apart

theorem greaseInEq (b : Bytes) (list : Range) : greaseIn b list = ((unitsOf list).filter (greaseAt b)).map (u16At b) := by
  rw [greaseIn,List.filter_map]
  rfl

theorem typesFew {b : Bytes} {places : List Nat} (distinct : (places.map (u16At b)).Nodup) :
    (places.filter (greaseAt b)).length ≤ 16 := by
  have sub : ((places.filter (greaseAt b)).map (u16At b)).Nodup := distinct.sublist (List.filter_sublist.map _)
  have inside : (places.filter (greaseAt b)).map (u16At b) ⊆ greaseValues := by
    intro v member
    obtain ⟨p,kept,rfl⟩ := List.mem_map.mp member
    exact List.contains_iff_mem.mp (List.mem_filter.mp kept).2
  have count := (List.subperm_of_subset sub inside).length_le
  rw [List.length_map] at count
  exact count

section Stages
variable (draws : Draws) (w : Bytes) (suites : Range) (entries : List Entry)

/- The buffer after each pass; the places of all four are those of the first buffer. -/
def typesRotated : Bytes := rotateAt (draws.grease 0) (entries.map Entry.start) [] w

def suitesRotated : Bytes := rotateAt (draws.grease 1) (unitsOf suites) [] (typesRotated draws w entries)

def groupsOnly : Bytes :=
  rotateAt (draws.grease 2) (unitsOf (listIn w entries supportedGroupsExtensionType)) [] (suitesRotated draws w suites entries)

def allRotated : Bytes :=
  rotateAt (draws.grease 3) (unitsOf (listIn w entries supportedVersionsExtensionType)) [] (groupsOnly draws w suites entries)

def shortList : Bool :=
  (entries.find? (fun e => e.extType = supportedGroupsExtensionType)).any (fun e => e.stop < e.start + 6) ||
    (entries.find? (fun e => e.extType = supportedVersionsExtensionType)).any (fun e => e.stop < e.start + 5)

variable {w suites entries} {extensionsLen : Range} (laid : Laid w suites extensionsLen entries)
include laid

theorem startsFit : ∀ p ∈ entries.map Entry.start, p + 2 ≤ w.length := by
  intro p starts
  obtain ⟨e,member,rfl⟩ := List.mem_map.mp starts
  have here := laid.entry member
  have header := here.header
  have within := here.within
  have fits := laid.fits
  omega

theorem suitesFit : ∀ p ∈ unitsOf suites, p + 2 ≤ w.length := by
  intro p units
  have before := (unitsBounds units).2
  have front := laid.suites
  have header := laid.header
  have fits := laid.fits
  omega

theorem typesStage : Rotates (entries.map Entry.start) w (typesRotated draws w entries) :=
  (rotateAtRotates _ laid.starts (startsFit laid) []).1

theorem suitesStage : Rotates (unitsOf suites) (typesRotated draws w entries) (suitesRotated draws w suites entries) := by
  refine (rotateAtRotates _ (unitsApart suites) ?_ []).1
  rw [(typesStage draws laid).length]
  exact suitesFit laid

theorem firstTwo : Rotates (entries.map Entry.start ++ unitsOf suites) w (suitesRotated draws w suites entries) :=
  (typesStage draws laid).trans (suitesStage draws laid) (typeOffSuite laid)

theorem groupsStage : Rotates (unitsOf (listIn w entries supportedGroupsExtensionType)) (suitesRotated draws w suites entries)
    (groupsOnly draws w suites entries) := by
  refine (rotateAtRotates _ (unitsApart _) ?_ []).1
  rw [(firstTwo draws laid).length]
  exact listFits laid _

theorem firstTwoOff (extensionType : Nat) : ∀ p ∈ entries.map Entry.start ++ unitsOf suites,
    ∀ q ∈ unitsOf (listIn w entries extensionType), Off p q := by
  intro p member
  rcases List.mem_append.mp member with starts | units
  · exact typeOffList laid extensionType p starts
  · exact suiteOffList laid extensionType p units

theorem firstThree : Rotates (entries.map Entry.start ++ unitsOf suites ++
    unitsOf (listIn w entries supportedGroupsExtensionType)) w (groupsOnly draws w suites entries) :=
  (firstTwo draws laid).trans (groupsStage draws laid) (firstTwoOff laid _)

theorem versionsStage : Rotates (unitsOf (listIn w entries supportedVersionsExtensionType)) (groupsOnly draws w suites entries)
    (allRotated draws w suites entries) := by
  refine (rotateAtRotates _ (unitsApart _) ?_ []).1
  rw [(firstThree draws laid).length]
  exact listFits laid _

theorem firstThreeOff : ∀ p ∈ entries.map Entry.start ++ unitsOf suites ++
    unitsOf (listIn w entries supportedGroupsExtensionType),
    ∀ q ∈ unitsOf (listIn w entries supportedVersionsExtensionType), Off p q := by
  intro p member
  rcases List.mem_append.mp member with early | groups
  · exact firstTwoOff laid _ p early
  · exact groupsOffVersions laid p groups

theorem wholeRotates : Rotates (entries.map Entry.start ++ unitsOf suites ++
    unitsOf (listIn w entries supportedGroupsExtensionType) ++ unitsOf (listIn w entries supportedVersionsExtensionType)) w
    (allRotated draws w suites entries) :=
  (firstThree draws laid).trans (versionsStage draws laid) (firstThreeOff laid)

omit laid in
theorem wholeIn {p : Nat} (member : p ∈ entries.map Entry.start ++ unitsOf suites ++
    unitsOf (listIn w entries supportedGroupsExtensionType) ++ unitsOf (listIn w entries supportedVersionsExtensionType)) :
    p ∈ entries.map Entry.start ∨ ∃ list ∈ greaseLists w suites entries, p ∈ unitsOf list := by
  rcases List.mem_append.mp member with member | versions
  · rcases List.mem_append.mp member with member | groups
    · rcases List.mem_append.mp member with starts | units
      · exact .inl starts
      · exact .inr ⟨suites,by simp [greaseLists],units⟩
    · exact .inr ⟨_,by simp [greaseLists],groups⟩
  · exact .inr ⟨_,by simp [greaseLists],versions⟩

omit laid in
theorem wholePlaces : ∀ p ∈ entries.map Entry.start ++ unitsOf suites ++
    unitsOf (listIn w entries supportedGroupsExtensionType) ++ unitsOf (listIn w entries supportedVersionsExtensionType),
    Place w suites entries p := by
  intro p member
  rcases wholeIn member with starts | ⟨list,known,inside⟩
  · obtain ⟨e,entry,rfl⟩ := List.mem_map.mp starts
    exact .type entry rfl
  · rcases List.mem_cons.mp known with rfl | known
    · exact .suite inside
    · rcases List.mem_cons.mp known with rfl | known
      · obtain ⟨e,entry,_,inside⟩ := listPlace inside
        exact .item entry inside
      · rw [List.mem_singleton.mp known] at inside
        obtain ⟨e,entry,_,inside⟩ := listPlace inside
        exact .item entry inside

theorem applyEq : applyClientHelloRandomization draws suites extensionsLen w =
    if shortList entries then none else some (allRotated draws w suites entries) := by
  have placesThree : ∀ p ∈ entries.map Entry.start ++ unitsOf suites ++
      unitsOf (listIn w entries supportedGroupsExtensionType), Place w suites entries p :=
    fun p member => wholePlaces p (List.mem_append_left _ member)
  have placesTwo : ∀ p ∈ entries.map Entry.start ++ unitsOf suites, Place w suites entries p :=
    fun p member => placesThree p (List.mem_append_left _ member)
  have first := typesPass laid draws
  have one := rotatedLaid laid (typesStage draws laid) (fun p member => placesTwo p (List.mem_append_left _ member))
  have second := suitesPass one draws
  have two := rotatedLaid laid (firstTwo draws laid) placesTwo
  have third := groupsPass two draws
  rw [rotatedFind laid (firstTwo draws laid) placesTwo (by decide),
    rotatedList laid (firstTwo draws laid) placesTwo (by decide),Option.any_map] at third
  have three := rotatedLaid laid (firstThree draws laid) placesThree
  have fourth := versionsPass three draws
  rw [rotatedFind laid (firstThree draws laid) placesThree (by decide),
    rotatedList laid (firstThree draws laid) placesThree (by decide),Option.any_map] at fourth
  unfold applyClientHelloRandomization
  rw [first,Option.bind_eq_bind,Option.bind_some]
  change (rotateGreaseCipherSuites draws suites (typesRotated draws w entries)).bind _ = _
  rw [second,Option.bind_some]
  change (rotateGreaseSupportedGroups draws extensionsLen (suitesRotated draws w suites entries)).bind _ = _
  have third : rotateGreaseSupportedGroups draws extensionsLen (suitesRotated draws w suites entries) =
    if (entries.find? (fun e => e.extType = supportedGroupsExtensionType)).any (fun e => e.stop < e.start + 6) then none
    else some (groupsOnly draws w suites entries) := third
  have fourth : rotateGreaseSupportedVersions draws extensionsLen (groupsOnly draws w suites entries) =
    if (entries.find? (fun e => e.extType = supportedVersionsExtensionType)).any (fun e => e.stop < e.start + 5) then none
    else some (allRotated draws w suites entries) := fourth
  rw [third,shortList]
  cases (entries.find? (fun e => e.extType = supportedGroupsExtensionType)).any (fun e => e.stop < e.start + 6) with
  | true =>
    rw [if_pos rfl,Option.bind_none,Bool.true_or,if_pos rfl]
  | false =>
    rw [if_neg Bool.false_ne_true,Option.bind_some,Bool.false_or]
    exact fourth

omit laid in
theorem listsFew (few : ∀ list ∈ greaseLists w suites entries, (greaseIn w list).length ≤ 16) {list : Range}
    (member : list ∈ greaseLists w suites entries) {places : List Nat} {mid : Bytes} (rotates : Rotates places w mid)
    (off : ∀ p ∈ places, ∀ q ∈ unitsOf list, Off p q) : ((unitsOf list).filter (greaseAt mid)).length ≤ 16 := by
  have count := few list member
  rw [greaseInEq,List.length_map] at count
  have same : (unitsOf list).filter (greaseAt mid) = (unitsOf list).filter (greaseAt w) := by
    apply List.filter_congr
    intro q inside
    rw [greaseAt,greaseAt,rotates.u16 (fun p there => (off p there q inside).symm)]
  rw [same]
  exact count

theorem listsDistinct (few : ∀ list ∈ greaseLists w suites entries, (greaseIn w list).length ≤ 16) :
    ∀ list ∈ greaseLists w suites entries, (greaseIn (allRotated draws w suites entries) list).Nodup := by
  have suitesDone : Distinct (unitsOf suites) (suitesRotated draws w suites entries) := by
    refine rotateAtDistinct _ (unitsApart _) ?_ (listsFew few (by simp [greaseLists]) (typesStage draws laid) (typeOffSuite laid))
    rw [(typesStage draws laid).length]
    exact suitesFit laid
  have groupsDone : Distinct (unitsOf (listIn w entries supportedGroupsExtensionType)) (groupsOnly draws w suites entries) := by
    refine rotateAtDistinct _ (unitsApart _) ?_
      (listsFew few (by simp [greaseLists]) (firstTwo draws laid) (firstTwoOff laid _))
    rw [(firstTwo draws laid).length]
    exact listFits laid _
  have versionsDone : Distinct (unitsOf (listIn w entries supportedVersionsExtensionType)) (allRotated draws w suites entries) := by
    refine rotateAtDistinct _ (unitsApart _) ?_
      (listsFew few (by simp [greaseLists]) (firstThree draws laid) (firstThreeOff laid))
    rw [(firstThree draws laid).length]
    exact listFits laid _
  intro list member
  rw [greaseInEq]
  rcases List.mem_cons.mp member with rfl | member
  · exact (suitesDone.kept (groupsStage draws laid) (suiteOffList laid _)).kept (versionsStage draws laid) (suiteOffList laid _)
  · rcases List.mem_cons.mp member with rfl | member
    · exact groupsDone.kept (versionsStage draws laid) (groupsOffVersions laid)
    · cases List.mem_singleton.mp member
      exact versionsDone

theorem typesDistinct (distinct : (entries.map Entry.extType).Nodup) :
    ((entries.map (retype (allRotated draws w suites entries))).map Entry.extType).Nodup := by
  have types : (entries.map Entry.start).map (u16At w) = entries.map Entry.extType := by
    rw [List.map_map]
    exact List.map_congr_left (fun e member => (laid.entry member).extType.symm)
  rw [← types] at distinct
  have done : Distinct (entries.map Entry.start) (typesRotated draws w entries) :=
    rotateAtDistinct _ laid.starts (startsFit laid) (typesFew distinct)
  have after := (typesStage draws laid).allDistinct laid.starts distinct done
  rw [List.map_map] at after ⊢
  refine (List.map_congr_left ?_ : _ = _) ▸ after
  intro e member
  have starts : e.start ∈ entries.map Entry.start := List.mem_map_of_mem member
  show u16At (typesRotated draws w entries) e.start = u16At (allRotated draws w suites entries) e.start
  rw [(versionsStage draws laid).u16 (typeOffList laid _ e.start starts),
    (groupsStage draws laid).u16 (typeOffList laid _ e.start starts),
    (suitesStage draws laid).u16 (typeOffSuite laid e.start starts)]

end Stages

section Templates
variable {sni raw w : Bytes} {fingerprint : Option (List Char)} {t : ClientHelloTemplate}

/- The buffer that is rotated: the template, or the template with its keys, its random and its
session id written, as `instantiate` passes it on. -/
def Ready (t : ClientHelloTemplate) (w : Bytes) : Prop :=
  w = t.bytes ∨ ∃ (hash : KeyedHash) (derivedPsk pskE : Bytes) (counter : Nat) (draws : Draws) (fresh : Bytes),
    pskE.length = 48 ∧ refreshed draws t = some fresh ∧
    sealHello hash derivedPsk pskE counter draws.macBits fresh = some w

theorem placedLaid {b : Bytes} {layout : ClientHelloLayout} {entries : List Entry} (placed : Placed b layout entries)
    (twin : Twin b layout entries w) : Laid w layout.cipherSuitesRange layout.extensionsLenRange (entries.map (retype w)) := by
  have lengths := extensionsBehind placed
  refine ⟨?_,lengths.2,?_,?_⟩
  · rw [placed.extensionsLen]
    dsimp only
    omega
  · rw [twinExtensionsLen placed twin,twin.length]
    exact placed.fits
  · rw [twinExtensionsLen placed twin,twin.length]
    exact likeWalk placed twin.toLike (fun _ => id) placed.walked

theorem readyLaid (built : buildClientHelloTemplate sni fingerprint raw = some t) (ready : Ready t w) :
    ∃ entries, Laid w t.cipherSuitesRange t.extensionsLenRange entries := by
  obtain ⟨layout,entries,placed,long,_,suites,keyShare,auxiliary,extensions,ech⟩ := templatePlaced built
  rw [suites,extensions]
  rcases ready with rfl | ⟨hash,derivedPsk,pskE,counter,draws,fresh,sized,refresh,seals⟩
  · exact ⟨_,placedLaid placed (twinSelf placed)⟩
  · have one := refreshedTwin placed keyShare auxiliary ech refresh
    exact ⟨_,placedLaid placed (sealTwin sized placed long one seals)⟩

theorem laidEntries {suites extensionsLen : Range} {entries : List Entry} (laid : Laid w suites extensionsLen entries) :
    extensionEntries w extensionsLen = some entries := by
  rw [extensionEntries,laid.read,Option.bind_eq_bind,Option.bind_some]
  exact laid.walked

theorem shortListIff {entries : List Entry} (distinct : (entries.map Entry.extType).Nodup) : shortList entries = false ↔
    ∀ e ∈ entries, (e.extType = supportedGroupsExtensionType → e.start + 6 ≤ e.stop) ∧
      (e.extType = supportedVersionsExtensionType → e.start + 5 ≤ e.stop) := by
  have first {extensionType room : Nat} : (entries.find? (fun e => e.extType = extensionType)).any
      (fun e => e.stop < e.start + room) = false ↔ ∀ e ∈ entries, e.extType = extensionType → e.start + room ≤ e.stop := by
    cases found : entries.find? (fun e => e.extType = extensionType) with
    | none =>
      refine ⟨fun _ e member same => ?_,fun _ => rfl⟩
      exact absurd (decide_eq_true same) (List.find?_eq_none.mp found e member)
    | some here =>
      have meets := List.find?_some found
      have isType : here.extType = extensionType := of_decide_eq_true meets
      have member := List.mem_of_find?_eq_some found
      rw [Option.any_some,decide_eq_false_iff_not,Nat.not_lt]
      constructor
      · intro long e other same
        -- The types differ, so this is the extension that was found.
        cases List.inj_on_of_nodup_map distinct other member (same.trans isType.symm)
        exact long
      · exact fun all => all here member isType
  rw [shortList,Bool.or_eq_false_iff,first,first]
  exact ⟨fun both e member => ⟨both.1 e member,both.2 e member⟩,
    fun all => ⟨fun e member => (all e member).1,fun e member => (all e member).2⟩⟩

end Templates

/- The rotation of any template, with any draws. It fails only on a groups or versions
extension too short for the length of its list; otherwise two-byte GREASE values at their
places became GREASE values, every other byte stands, the extensions have their lengths and
pairwise distinct types, and the GREASE values of each list differ. -/
theorem greaseRotation {sni raw : Bytes} {fingerprint : Option (List Char)} {t : ClientHelloTemplate}
    (built : buildClientHelloTemplate sni fingerprint raw = some t) {w : Bytes} (ready : Ready t w) {entries : List Entry}
    (walked : extensionEntries w t.extensionsLenRange = some entries) (distinct : (entries.map Entry.extType).Nodup)
    (few : ∀ list ∈ greaseLists w t.cipherSuitesRange entries, (greaseIn w list).length ≤ 16) (draws : Draws) :
    ((applyClientHelloRandomization draws t.cipherSuitesRange t.extensionsLenRange w).isSome = true ↔
      ∀ e ∈ entries, (e.extType = supportedGroupsExtensionType → e.start + 6 ≤ e.stop) ∧
        (e.extType = supportedVersionsExtensionType → e.start + 5 ≤ e.stop)) ∧
    ∀ out, applyClientHelloRandomization draws t.cipherSuitesRange t.extensionsLenRange w = some out →
      out.length = w.length ∧
      (∀ i, out[i]? ≠ w[i]? → ∃ p, (i = p ∨ i = p + 1) ∧
        (p ∈ entries.map Entry.start ∨ ∃ list ∈ greaseLists w t.cipherSuitesRange entries, p ∈ unitsOf list) ∧
        isGreaseValue (u16At w p) = true ∧ isGreaseValue (u16At out p) = true) ∧
      ∃ later, extensionEntries out t.extensionsLenRange = some later ∧
        later.map (fun e => (e.start,e.stop)) = entries.map (fun e => (e.start,e.stop)) ∧
        greaseLists out t.cipherSuitesRange later = greaseLists w t.cipherSuitesRange entries ∧
        (later.map Entry.extType).Nodup ∧
        ∀ list ∈ greaseLists out t.cipherSuitesRange later, (greaseIn out list).Nodup := by
  obtain ⟨found,laid⟩ := readyLaid built ready
  rw [laidEntries laid] at walked
  cases Option.some.inj walked
  rw [applyEq draws laid,← shortListIff distinct]
  constructor
  · cases shortList entries <;> simp
  · intro out ran
    obtain ⟨_,made⟩ := Option.ite_none_left_eq_some.mp ran
    cases Option.some.inj made
    have rotates := wholeRotates draws laid
    have same : greaseLists (allRotated draws w t.cipherSuitesRange entries) t.cipherSuitesRange
        (entries.map (retype (allRotated draws w t.cipherSuitesRange entries))) = greaseLists w t.cipherSuitesRange entries := by
      rw [greaseLists,rotatedList laid rotates wholePlaces (by decide),rotatedList laid rotates wholePlaces (by decide)]
      rfl
    refine ⟨rotates.length,?_,_,laidEntries (rotatedLaid laid rotates wholePlaces),?_,same,typesDistinct draws laid distinct,?_⟩
    · intro i differs
      by_contra nowhere
      apply differs
      apply rotates.same
      intro p member grease
      have changed (here : i = p ∨ i = p + 1) : False :=
        nowhere ⟨p,here,wholeIn member,grease,rotates.grease p member grease⟩
      exact ⟨fun first => changed (.inl first),fun second => changed (.inr second)⟩
    · rw [List.map_map]
      rfl
    · rw [same]
      exact listsDistinct draws laid few

def greaseHello : Bytes :=
  [0x16,0x03,0x01,0x00,0xa2,0x01,0x00,0x00,0x9e,0x03,0x03] ++ List.replicate 32 1 ++ [32] ++ List.replicate 32 2 ++
  [0x00,0x04,0x0a,0x0a,0x13,0x01,0x01,0x00,0x00,0x52] ++ [0x0a,0x0a,0x00,0x00] ++
  [0x00,0x00,0x00,0x06,0x00,0x04,0x00,0x00,0x01,0x61] ++
  [0x00,0x0a,0x00,0x08,0x00,0x06,0x0a,0x0a,0x1a,0x1a,0x00,0x1d] ++ [0x00,0x2b,0x00,0x05,0x04,0x0a,0x0a,0x03,0x04] ++
  [0x00,0x33,0x00,0x26,0x00,0x24,0x00,0x1d,0x00,0x20] ++ List.replicate 32 3 ++ [0x1a,0x1a,0x00,0x01,0x00]

theorem greaseRotationOfCollision : ∃ t out later, buildClientHelloTemplate [0x61] none greaseHello = some t ∧
    applyClientHelloRandomization sampleDraws t.cipherSuitesRange t.extensionsLenRange t.bytes = some out ∧
    extensionEntries out t.extensionsLenRange = some later ∧
    later.map Entry.extType = [0x7a7a,0x0000,0x000a,0x002b,0x0033,0x6a6a] ∧ (later.map Entry.extType).Nodup := by
  have built : (buildClientHelloTemplate [0x61] none greaseHello).isSome = true := by decide +kernel
  obtain ⟨t,built⟩ := Option.isSome_iff_exists.mp built
  have walks : ((buildClientHelloTemplate [0x61] none greaseHello).bind (fun t =>
      (extensionEntries t.bytes t.extensionsLenRange).filter (fun entries => (entries.map Entry.extType).Nodup ∧
        ∀ list ∈ greaseLists t.bytes t.cipherSuitesRange entries, (greaseIn t.bytes list).length ≤ 16))).isSome = true := by
    decide +kernel
  have runs : ((buildClientHelloTemplate [0x61] none greaseHello).bind (fun t =>
      (applyClientHelloRandomization sampleDraws t.cipherSuitesRange t.extensionsLenRange t.bytes).filter (fun out =>
        (extensionEntries out t.extensionsLenRange).map (fun later => later.map Entry.extType) =
          some [0x7a7a,0x0000,0x000a,0x002b,0x0033,0x6a6a]))).isSome = true := by
    decide +kernel
  rw [built,Option.bind_some] at walks runs
  obtain ⟨entries,walks⟩ := Option.isSome_iff_exists.mp walks
  obtain ⟨walked,meets⟩ := Option.filter_eq_some_iff.mp walks
  obtain ⟨distinct,few⟩ := of_decide_eq_true meets
  obtain ⟨out,runs⟩ := Option.isSome_iff_exists.mp runs
  obtain ⟨ran,shows⟩ := Option.filter_eq_some_iff.mp runs
  obtain ⟨_,_,later,found,_,_,nodup,_⟩ := (greaseRotation built (.inl rfl) walked distinct few sampleDraws).2 out ran
  have types := of_decide_eq_true shows
  rw [found,Option.map_some] at types
  exact ⟨t,out,later,built,ran,found,Option.some.inj types,nodup⟩

end KanoTls.Hello
