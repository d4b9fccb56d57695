import KanoTls.HelloAuth

/-! Records that differ from a template only where connections may differ: random, session
id, key shares, ECH fields and GREASE values. Whatever steers a parser stands elsewhere. -/
namespace KanoTls.Hello
open Uot Wire Patch

def itemsOf (b : Bytes) (e : Entry) : Range :=
  if e.extType = supportedGroupsExtensionType then
    (e.start + 6,min (e.start + 6 + u16At b (e.start + 4)) e.stop)
  else if e.extType = supportedVersionsExtensionType then
    (e.start + 5,min (e.start + 5 + (byteAt b (e.start + 4)).toNat) e.stop)
  else (0,0)

def IsUnit (range : Range) (p : Nat) : Prop := range.1 ≤ p ∧ p + 2 ≤ range.2 ∧ (p - range.1) % 2 = 0

inductive SoftIn (b : Bytes) (e : Entry) (i : Nat) : Prop where
  | type (grease : isGreaseValue e.extType = true) (here : i = e.start ∨ i = e.start + 1)
  | item {p : Nat} (unit : IsUnit (itemsOf b e) p) (grease : isGreaseValue (u16At b p) = true) (here : i = p ∨ i = p + 1)
  | share {shares : List Range} {range : Range} (keyShare : e.extType = 0x0033) (walked : sharesOf b e = some shares)
      (member : range ∈ shares) (here : Inside range i)
  | ech {configId : Nat} {enc payload : Range} (isEch : e.extType = echExtensionType)
      (found : echVariableFieldRanges b (e.start + 4,e.stop) = some (configId,enc,payload))
      (here : i = configId ∨ Inside enc i ∨ Inside payload i)

inductive Soft (b : Bytes) (layout : ClientHelloLayout) (entries : List Entry) (i : Nat) : Prop where
  | random (here : Inside (11,43) i)
  | session (here : Inside layout.sessionIdRange i)
  | suite {p : Nat} (unit : IsUnit layout.cipherSuitesRange p) (grease : isGreaseValue (u16At b p) = true)
      (here : i = p ∨ i = p + 1)
  | entry {e : Entry} (member : e ∈ entries) (soft : SoftIn b e i)

inductive Spot (b : Bytes) (layout : ClientHelloLayout) (entries : List Entry) (p : Nat) : Prop where
  | suite (unit : IsUnit layout.cipherSuitesRange p)
  | type {e : Entry} (member : e ∈ entries) (here : p = e.start)
  | item {e : Entry} (member : e ∈ entries) (unit : IsUnit (itemsOf b e) p)

/- Like the template but for the soft places; the type of a GREASE extension may have been
erased. -/
structure Like (b : Bytes) (layout : ClientHelloLayout) (entries : List Entry) (w : Bytes) : Prop where
  length : w.length = b.length
  bone : ∀ i, ¬ Soft b layout entries i → w[i]? = b[i]?
  types : ∀ e ∈ entries, isGreaseValue e.extType = true → isGreaseValue (u16At w e.start) = true ∨ u16At w e.start = 0

/- GREASE where the template has GREASE. -/
structure Twin (b : Bytes) (layout : ClientHelloLayout) (entries : List Entry) (w : Bytes) : Prop extends
    Like b layout entries w where
  grease : ∀ p, Spot b layout entries p → isGreaseValue (u16At b p) = true → isGreaseValue (u16At w p) = true

theorem u16Same {b w : Bytes} {i : Nat} (first : w[i]? = b[i]?) (second : w[i+1]? = b[i+1]?) : u16At w i = u16At b i := by
  simp only [u16At,byteAt,List.getD_eq_getElem?_getD,first,second]

theorem byteSame {b w : Bytes} {i : Nat} (same : w[i]? = b[i]?) : byteAt w i = byteAt b i := by
  simp only [byteAt,List.getD_eq_getElem?_getD,same]

section Places
variable {b : Bytes} {layout : ClientHelloLayout} {entries : List Entry} {e : Entry} {i : Nat}

theorem itemsInside (b : Bytes) (e : Entry) {p : Nat} (unit : IsUnit (itemsOf b e) p) :
    (e.extType = supportedGroupsExtensionType ∧ e.start + 6 ≤ p ∨ e.extType = supportedVersionsExtensionType ∧ e.start + 5 ≤ p) ∧
    p + 2 ≤ e.stop := by
  obtain ⟨after,before,_⟩ := unit
  unfold itemsOf at after before
  split at after
  · rename_i groups
    rw [if_pos groups] at before
    exact ⟨.inl ⟨groups,after⟩,Nat.le_trans before (Nat.min_le_right _ _)⟩
  · rename_i notGroups
    rw [if_neg notGroups] at before
    split at after
    · rename_i versions
      rw [if_pos versions] at before
      exact ⟨.inr ⟨versions,after⟩,Nat.le_trans before (Nat.min_le_right _ _)⟩
    · rename_i notVersions
      rw [if_neg notVersions] at before
      exact absurd before (by dsimp only; omega)

theorem softInside (soft : SoftIn b e i) :
    (isGreaseValue e.extType = true ∧ (i = e.start ∨ i = e.start + 1)) ∨ (e.start + 5 ≤ i ∧ i < e.stop) := by
  cases soft with
  | type grease here => exact .inl ⟨grease,here⟩
  | item unit grease here =>
    obtain ⟨after,before⟩ := itemsInside b e unit
    right
    omega
  | share keyShare walked member here =>
    have share := (shareRangesOk walked).1 _ member
    have := share.after
    have := share.within
    have := here.1
    have := here.2
    right
    omega
  | ech isEch found here =>
    obtain ⟨config,enc,payload,stop⟩ := echRangesOk found
    rw [payload,enc] at here
    rw [enc] at stop
    dsimp only [Inside] at here stop
    right
    omega

theorem entriesApart (placed : Placed b layout entries) {e' : Entry} (member : e ∈ entries) (member' : e' ∈ entries) :
    e = e' ∨ e.stop ≤ e'.start ∨ e'.stop ≤ e.start := by
  have apart := (walkEntriesOk placed.walked).2
  exact List.Pairwise.forall_of_forall_of_flip (R := fun e e' : Entry => e = e' ∨ e.stop ≤ e'.start ∨ e'.stop ≤ e.start)
    (fun _ _ => .inl rfl) (apart.imp (fun before => .inr (.inl before))) (apart.imp (fun before => .inr (.inr before)))
    member member'

theorem softOwn (placed : Placed b layout entries) (member : e ∈ entries) (after : e.start ≤ i) (before : i < e.stop)
    (soft : Soft b layout entries i) : SoftIn b e i := by
  have own := entryBounds placed member
  have behind := extensionsBehind placed
  have start := own.after
  cases soft with
  | random here =>
    have := here.2
    have session := placed.session
    rw [session] at behind
    dsimp only at behind this
    omega
  | session here =>
    have := here.2
    omega
  | suite unit grease here =>
    have last := unit.2.1
    have suites := placed.extensionsLen
    rw [suites] at start
    dsimp only at start
    omega
  | entry other soft =>
    rename_i e'
    have there := entryBounds placed other
    have := there.header
    have inside := softInside soft
    rcases entriesApart placed member other with rfl | first | second
    · exact soft
    · omega
    · omega

theorem headerHard (placed : Placed b layout entries) (member : e ∈ entries) (after : e.start + 2 ≤ i)
    (before : i < e.start + 5) (within : i < e.stop) : ¬ Soft b layout entries i := by
  intro soft
  rcases softInside (softOwn placed member (by omega) within soft) with ⟨_,here⟩ | ⟨here,_⟩
  · omega
  · omega

theorem typeHard (placed : Placed b layout entries) (member : e ∈ entries) (plain : isGreaseValue e.extType = false)
    (here : i = e.start ∨ i = e.start + 1) : ¬ Soft b layout entries i := by
  have header := (entryBounds placed member).header
  intro soft
  rcases softInside (softOwn placed member (by omega) (by omega) soft) with ⟨grease,_⟩ | ⟨far,_⟩
  · rw [plain] at grease
    contradiction
  · omega

theorem frontHard (placed : Placed b layout entries) (front : i < layout.extensionsLenRange.2) (random : ¬ Inside (11,43) i)
    (session : ¬ Inside layout.sessionIdRange i) (suites : ¬ Inside layout.cipherSuitesRange i) : ¬ Soft b layout entries i := by
  intro soft
  cases soft with
  | random here => exact random here
  | session here => exact session here
  | suite unit grease here =>
    have first := unit.1
    have last := unit.2.1
    exact suites ⟨by omega,by omega⟩
  | entry member soft =>
    have own := entryBounds placed member
    have start := own.after
    rcases softInside soft with ⟨_,here⟩ | ⟨here,_⟩
    · omega
    · omega

end Places

/- The soft places that are drawn afresh for every connection. -/
inductive EraseIn (b : Bytes) (e : Entry) (i : Nat) : Prop where
  | share {shares : List Range} {range : Range} (keyShare : e.extType = 0x0033) (walked : sharesOf b e = some shares)
      (member : range ∈ shares) (here : Inside range i)
  | ech {configId : Nat} {enc payload : Range} (isEch : e.extType = echExtensionType)
      (found : echVariableFieldRanges b (e.start + 4,e.stop) = some (configId,enc,payload))
      (here : i = configId ∨ Inside enc i ∨ Inside payload i)

inductive Erase (b : Bytes) (layout : ClientHelloLayout) (entries : List Entry) (i : Nat) : Prop where
  | random (here : Inside (11,43) i)
  | session (here : Inside layout.sessionIdRange i)
  | entry {e : Entry} (member : e ∈ entries) (erase : EraseIn b e i)

section Spots
variable {b w d : Bytes} {layout : ClientHelloLayout} {entries : List Entry} {e : Entry} {i p q : Nat}

theorem EraseIn.soft (erase : EraseIn b e i) : SoftIn b e i := by
  cases erase with
  | share keyShare walked member here => exact .share keyShare walked member here
  | ech isEch found here => exact .ech isEch found here

theorem Erase.soft (erase : Erase b layout entries i) : Soft b layout entries i := by
  cases erase with
  | random here => exact .random here
  | session here => exact .session here
  | entry member erase => exact .entry member erase.soft

theorem eraseType (erase : EraseIn b e i) : e.extType = 0x0033 ∨ e.extType = echExtensionType := by
  cases erase with
  | share keyShare walked member here => exact .inl keyShare
  | ech isEch found here => exact .inr isEch

theorem eraseInside (erase : EraseIn b e i) : e.start + 5 ≤ i ∧ i < e.stop := by
  rcases softInside erase.soft with ⟨grease,_⟩ | inside
  · rcases eraseType erase with type | type
    · rw [type] at grease
      exact absurd grease (by decide)
    · rw [type] at grease
      exact absurd grease (by decide)
  · exact inside

theorem spotRegion (placed : Placed b layout entries) (spot : Spot b layout entries p) :
    IsUnit layout.cipherSuitesRange p ∨ ∃ e ∈ entries, e.start ≤ p ∧ p + 2 ≤ e.stop ∧
      (p = e.start ∨ (e.start + 5 ≤ p ∧ IsUnit (itemsOf b e) p)) := by
  cases spot with
  | suite unit => exact .inl unit
  | type member here =>
    have := (entryBounds placed member).header
    exact .inr ⟨_,member,by omega,by omega,.inl here⟩
  | item member unit =>
    obtain ⟨after,before⟩ := itemsInside b _ unit
    exact .inr ⟨_,member,by omega,before,.inr ⟨by omega,unit⟩⟩

theorem suitesFront (placed : Placed b layout entries) : 44 ≤ layout.sessionIdRange.2 ∧
    layout.sessionIdRange.2 + 2 = layout.cipherSuitesRange.1 ∧ layout.cipherSuitesRange.1 ≤ layout.cipherSuitesRange.2 ∧
    layout.cipherSuitesRange.2 + 3 ≤ layout.extensionsLenRange.2 := by
  rw [placed.extensionsLen,placed.suites,placed.session]
  dsimp only
  omega

theorem spotsApart (placed : Placed b layout entries) (one : Spot b layout entries p) (two : Spot b layout entries q)
    (different : p ≠ q) : p + 2 ≤ q ∨ q + 2 ≤ p := by
  have front := suitesFront placed
  rcases spotRegion placed one with first | ⟨e,member,after,before,kind⟩ <;>
    rcases spotRegion placed two with second | ⟨e',member',after',before',kind'⟩
  · have := first.1
    have := first.2.2
    have := second.1
    have := second.2.2
    omega
  · have := first.2.1
    have := (entryBounds placed member').after
    omega
  · have := second.2.1
    have := (entryBounds placed member).after
    omega
  · rcases entriesApart placed member member' with rfl | first | second
    · rcases kind with rfl | ⟨far,unit⟩ <;> rcases kind' with rfl | ⟨far',unit'⟩
      · exact absurd rfl different
      · omega
      · omega
      · have := unit.1
        have := unit.2.2
        have := unit'.1
        have := unit'.2.2
        omega
    · omega
    · omega

theorem spotNotErased (placed : Placed b layout entries) (spot : Spot b layout entries p) (here : i = p ∨ i = p + 1) :
    ¬ Erase b layout entries i := by
  have front := suitesFront placed
  intro erase
  rcases spotRegion placed spot with unit | ⟨e,member,after,before,kind⟩
  · have := unit.1
    have := unit.2.1
    cases erase with
    | random inside =>
      have := inside.2
      omega
    | session inside =>
      have := inside.2
      omega
    | entry member erase =>
      have := (entryBounds placed member).after
      have := eraseInside erase
      omega
  · have := (entryBounds placed member).after
    cases erase with
    | random inside =>
      have := inside.2
      omega
    | session inside =>
      have := inside.2
      omega
    | entry member' erase =>
      have inside := eraseInside erase
      rcases entriesApart placed member member' with rfl | first | second
      · rcases kind with rfl | ⟨_,unit⟩
        · omega
        · have types := (itemsInside b e unit).1
          rcases eraseType erase with type | type <;> rcases types with ⟨other,_⟩ | ⟨other,_⟩ <;>
            exact absurd (type.symm.trans other) (by decide)
      · omega
      · omega

theorem plainHard (placed : Placed b layout entries) (spot : Spot b layout entries p)
    (plain : isGreaseValue (u16At b p) = false) (here : i = p ∨ i = p + 1) : ¬ Soft b layout entries i := by
  have notErased := spotNotErased placed spot here
  have clash {q : Nat} (other : Spot b layout entries q) (grease : isGreaseValue (u16At b q) = true)
      (there : i = q ∨ i = q + 1) : False := by
    by_cases same : p = q
    · rw [← same,plain] at grease
      contradiction
    · have := spotsApart placed spot other same
      omega
  intro soft
  cases soft with
  | random inside => exact notErased (.random inside)
  | session inside => exact notErased (.session inside)
  | suite unit grease there => exact clash (.suite unit) grease there
  | entry member soft =>
    cases soft with
    | type grease there =>
      rw [(entryBounds placed member).extType] at grease
      exact clash (.type member rfl) grease there
    | item unit grease there => exact clash (.item member unit) grease there
    | share keyShare walked range inside => exact notErased (.entry member (.share keyShare walked range inside))
    | ech isEch found inside => exact notErased (.entry member (.ech isEch found inside))

theorem twinOf (placed : Placed b layout entries) (length : w.length = b.length)
    (bone : ∀ i, ¬ Soft b layout entries i → w[i]? = b[i]?)
    (grease : ∀ p, Spot b layout entries p → isGreaseValue (u16At b p) = true → isGreaseValue (u16At w p) = true) :
    Twin b layout entries w := by
  refine ⟨⟨length,bone,?_⟩,grease⟩
  intro e member isGrease
  rw [(entryBounds placed member).extType] at isGrease
  exact .inl (grease _ (.type member rfl) isGrease)

theorem twinSelf (placed : Placed b layout entries) : Twin b layout entries b :=
  twinOf placed rfl (fun _ _ => rfl) (fun _ _ => id)

theorem twinGrease (placed : Placed b layout entries) (twin : Twin b layout entries w) (spot : Spot b layout entries p) :
    isGreaseValue (u16At w p) = isGreaseValue (u16At b p) := by
  cases grease : isGreaseValue (u16At b p) with
  | true => exact twin.grease p spot grease
  | false =>
    rw [u16Same (twin.bone _ (plainHard placed spot grease (.inl rfl))) (twin.bone _ (plainHard placed spot grease (.inr rfl)))]
    exact grease

theorem likeErase (placed : Placed b layout entries) (like : Like b layout entries w) (length : d.length = w.length)
    (same : ∀ i, ¬ Erase b layout entries i → d[i]? = w[i]?) : Like b layout entries d := by
  refine ⟨length.trans like.length,fun i hard => ?_,fun e member grease => ?_⟩
  · rw [same i (fun erase => hard erase.soft)]
    exact like.bone i hard
  · have spot : Spot b layout entries e.start := .type member rfl
    rw [u16Same (same _ (spotNotErased placed spot (.inl rfl))) (same _ (spotNotErased placed spot (.inr rfl)))]
    exact like.types e member grease

theorem twinErase (placed : Placed b layout entries) (twin : Twin b layout entries w) (length : d.length = w.length)
    (same : ∀ i, ¬ Erase b layout entries i → d[i]? = w[i]?) : Twin b layout entries d := by
  refine ⟨likeErase placed twin.toLike length same,fun p spot grease => ?_⟩
  rw [u16Same (same _ (spotNotErased placed spot (.inl rfl))) (same _ (spotNotErased placed spot (.inr rfl)))]
  exact twin.grease p spot grease

theorem u16Put {start value : Nat} (fits : start + 2 ≤ w.length) (small : value < 65536) :
    u16At (put w start (toBeBytes value)) start = value := by
  have long : start + (toBeBytes value).length ≤ w.length := fits
  have first := putAt (i := 0) long (show 0 < 2 by omega)
  have second := putAt (i := 1) long (show 1 < 2 by omega)
  rw [Nat.add_zero] at first
  simp only [u16At,byteAt,List.getD_eq_getElem?_getD,first,second]
  exact fromToBeBytes small

theorem greaseSmall {value : Nat} (grease : isGreaseValue value = true) : value < 65536 := by
  have all : ∀ v ∈ greaseValues, v < 65536 := by decide
  exact all value (List.contains_iff_mem.mp grease)

theorem twinRotate (placed : Placed b layout entries) (twin : Twin b layout entries w) (spot : Spot b layout entries p)
    (was : isGreaseValue (u16At w p) = true) {value : Nat} (grease : isGreaseValue value = true) (fits : p + 2 ≤ w.length) :
    Twin b layout entries (put w p (toBeBytes value)) := by
  have long : p + (toBeBytes value).length ≤ w.length := fits
  have before : isGreaseValue (u16At b p) = true := (twinGrease placed twin spot).symm.trans was
  have soft {i : Nat} (here : i = p ∨ i = p + 1) : Soft b layout entries i := by
    cases spot with
    | suite unit => exact .suite unit before here
    | type member same =>
      refine .entry member (.type ?_ (same ▸ here))
      rw [(entryBounds placed member).extType,← same]
      exact before
    | item member unit => exact .entry member (.item unit before here)
  have outside {i : Nat} (away : ¬ (i = p ∨ i = p + 1)) : (put w p (toBeBytes value))[i]? = w[i]? := by
    apply putOutside long
    rintro ⟨after,below⟩
    change i < p + 2 at below
    dsimp only at after
    omega
  refine twinOf placed ((putLength long).trans twin.length) ?_ ?_
  · intro i hard
    rw [outside (fun here => hard (soft here))]
    exact twin.bone i hard
  · intro q other isGrease
    by_cases same : p = q
    · rw [← same,u16Put fits (greaseSmall grease)]
      exact grease
    · have apart := spotsApart placed spot other same
      rw [u16Same (outside (by omega)) (outside (by omega))]
      exact twin.grease q other isGrease

end Spots

/- The parsers on a record like the template: the same entries, with its own types. -/
def retype (w : Bytes) (e : Entry) : Entry := { e with extType := u16At w e.start }

section Same
variable {b w : Bytes} {layout : ClientHelloLayout} {entries : List Entry} {e : Entry}

theorem likeRanges (placed : Placed b layout entries) (like : Like b layout entries w) :
    clientHelloRandomAndSessionIdRanges w = some ((11,43),layout.sessionIdRange) := by
  obtain ⟨long,first,fifth,_,session,fits⟩ := rangesSome placed.ranges
  have front := suitesFront placed
  have same {i : Nat} (here : i = 0 ∨ i = 5 ∨ i = 43) : byteAt w i = byteAt b i := by
    apply byteSame
    apply like.bone
    apply frontHard placed (by omega)
    · rintro ⟨after,before⟩
      dsimp only at after before
      omega
    · rintro ⟨after,_⟩
      rw [session] at after
      dsimp only at after
      omega
    · rintro ⟨after,_⟩
      omega
  unfold clientHelloRandomAndSessionIdRanges
  rw [like.length,same (i := 0) (by omega),same (i := 5) (by omega),same (i := 43) (by omega),if_neg (by omega),
    if_neg (not_not.mpr first),if_neg (not_not.mpr fifth),session]
  rw [session] at fits
  exact if_neg (Nat.not_lt.mpr fits)

theorem likeFront (placed : Placed b layout entries) (like : Like b layout entries w) {i : Nat}
    (after : layout.sessionIdRange.2 ≤ i) (before : i < layout.extensionsLenRange.2)
    (off : i < layout.cipherSuitesRange.1 ∨ layout.cipherSuitesRange.2 ≤ i) : w[i]? = b[i]? := by
  have front := suitesFront placed
  apply like.bone
  apply frontHard placed before
  · rintro ⟨_,below⟩
    dsimp only at below
    omega
  · rintro ⟨_,below⟩
    omega
  · rintro ⟨from',to'⟩
    omega

theorem likeHeader (placed : Placed b layout entries) (like : Like b layout entries w) (member : e ∈ entries) :
    u16At w (e.start + 2) = u16At b (e.start + 2) := by
  have header := (entryBounds placed member).header
  exact u16Same (like.bone _ (headerHard placed member (by omega) (by omega) (by omega)))
    (like.bone _ (headerHard placed member (by omega) (by omega) (by omega)))

theorem likeType (placed : Placed b layout entries) (like : Like b layout entries w) (member : e ∈ entries)
    (plain : isGreaseValue e.extType = false) : u16At w e.start = e.extType := by
  rw [u16Same (like.bone _ (typeHard placed member plain (.inl rfl))) (like.bone _ (typeHard placed member plain (.inr rfl)))]
  exact (entryBounds placed member).extType.symm

theorem walkRetyped {extensionsEnd fuel cursor : Nat} {some' : List Entry}
    (walked : walkEntries b extensionsEnd fuel cursor = some some')
    (same : ∀ e ∈ some', u16At w (e.start + 2) = u16At b (e.start + 2)) :
    walkEntries w extensionsEnd fuel cursor = some (some'.map (retype w)) := by
  induction fuel generalizing cursor some' with
  | zero =>
    cases Option.some.inj walked
    rfl
  | succ fuel ih =>
    rw [walkEntries] at walked ⊢
    by_cases more : cursor + 4 ≤ extensionsEnd
    · rw [if_pos more] at walked ⊢
      dsimp only at walked ⊢
      obtain ⟨inside,walked⟩ := Option.ite_none_left_eq_some.mp walked
      obtain ⟨rest,walkedRest,rfl⟩ := Option.map_eq_some_iff.mp walked
      have header := same _ List.mem_cons_self
      dsimp only at header
      rw [header,if_neg inside,ih walkedRest (fun e later => same e (List.mem_cons_of_mem _ later))]
      rfl
    · rw [if_neg more] at walked ⊢
      cases Option.some.inj walked
      rfl

theorem likeWalk (placed : Placed b layout entries) (like : Like b layout entries w) {extensionsEnd fuel cursor : Nat}
    {some' : List Entry} (all : ∀ e ∈ some', e ∈ entries) (walked : walkEntries b extensionsEnd fuel cursor = some some') :
    walkEntries w extensionsEnd fuel cursor = some (some'.map (retype w)) :=
  walkRetyped walked (fun e member => likeHeader placed like (all e member))

theorem likeExtensions (placed : Placed b layout entries) (like : Like b layout entries w) :
    walkClientHelloExtensions w = some (layout.extensionsLenRange.1,entries.map (retype w)) := by
  have front := suitesFront placed
  have lengths := extensionsBehind placed
  have fits := placed.fits
  obtain ⟨long,first,fifth,_,_,_⟩ := rangesSome (likeRanges placed like)
  have suitesLen : u16At w layout.sessionIdRange.2 = u16At b layout.sessionIdRange.2 :=
    u16Same (likeFront placed like (by omega) (by omega) (by omega)) (likeFront placed like (by omega) (by omega) (by omega))
  have compression : byteAt w layout.cipherSuitesRange.2 = byteAt b layout.cipherSuitesRange.2 :=
    byteSame (likeFront placed like (by omega) (by omega) (by omega))
  have isSuites : layout.sessionIdRange.2 + (2 + u16At b layout.sessionIdRange.2) = layout.cipherSuitesRange.2 := by
    rw [placed.suites]
    dsimp only
    omega
  have isExtensions : layout.cipherSuitesRange.2 + (1 + (byteAt b layout.cipherSuitesRange.2).toNat) =
      layout.extensionsLenRange.1 := by
    rw [placed.extensionsLen]
    dsimp only
    omega
  have extensionsLen : u16At w layout.extensionsLenRange.1 = u16At b layout.extensionsLenRange.1 := by
    have after : layout.cipherSuitesRange.2 ≤ layout.extensionsLenRange.1 := by omega
    exact u16Same (likeFront placed like (by omega) (by omega) (by omega)) (likeFront placed like (by omega) (by omega) (by omega))
  unfold walkClientHelloExtensions
  have readSuites : readU16 w layout.sessionIdRange.2 = some (u16At b layout.sessionIdRange.2) := by
    rw [readU16,if_neg (by rw [like.length]; omega),suitesLen]
  have readExtensions : readU16 w layout.extensionsLenRange.1 = some (u16At b layout.extensionsLenRange.1) := by
    rw [readU16,if_neg (by rw [like.length]; omega),extensionsLen]
  have shape : ¬ (w.length < 9 ∨ byteAt w 0 ≠ 0x16 ∨ byteAt w 5 ≠ 0x01) := by
    rintro (short | other | other)
    · omega
    · exact other first
    · exact other fifth
  rw [if_neg shape,likeRanges placed like]
  dsimp only [Option.bind_eq_bind,Option.bind_some]
  rw [readSuites,Option.bind_some,isSuites,if_neg (by rw [like.length]; omega),compression,isExtensions,readExtensions,
    Option.bind_some,lengths.2,if_neg (by rw [like.length]; omega),like.length,
    likeWalk placed like (fun _ => id) placed.walked]
  rfl

end Same

end KanoTls.Hello
