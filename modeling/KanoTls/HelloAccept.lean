import KanoTls.HelloRelocate
import Mathlib.Data.List.Find

/-! When the hellos of a template have a fingerprint: the builder is content with lists that
overrun their extension and with any record length, the fingerprint is not. -/
namespace KanoTls.Hello
open Uot Wire Patch

def ListFits (b : Bytes) (e : Entry) : Prop :=
  (e.extType = supportedGroupsExtensionType → e.start + 6 + u16At b (e.start + 4) ≤ e.stop) ∧
  (e.extType = supportedVersionsExtensionType → e.start + 5 + (byteAt b (e.start + 4)).toNat ≤ e.stop)

instance (b : Bytes) (e : Entry) : Decidable (ListFits b e) := inferInstanceAs (Decidable (_ ∧ _))

def firstPadding (entries : List Entry) : Option Entry := entries.find? (fun e => e.extType = paddingExtensionType)

section Print
variable {b w : Bytes} {layout : ClientHelloLayout} {entries : List Entry} {e : Entry}

theorem greaseVisitFits (e : Entry) : (∃ ranges, greaseVisit b e = some ranges) ↔ ListFits b e := by
  unfold greaseVisit ListFits
  dsimp only
  by_cases grease : isGreaseValue e.extType = true
  · rw [if_pos grease]
    have other {value : Nat} (plain : isGreaseValue value = false) : e.extType ≠ value := by
      rintro rfl
      rw [plain] at grease
      contradiction
    exact ⟨fun _ => ⟨fun no => absurd no (other rfl),fun no => absurd no (other rfl)⟩,fun _ => ⟨_,rfl⟩⟩
  · rw [if_neg grease]
    by_cases isGroups : e.extType = supportedGroupsExtensionType
    · rw [if_pos isGroups]
      have only : e.extType ≠ supportedVersionsExtensionType := by
        rw [isGroups]
        decide
      by_cases fits : e.start + 6 + u16At b (e.start + 4) ≤ e.stop
      · rw [if_neg (by omega),if_neg (by omega)]
        exact ⟨fun _ => ⟨fun _ => fits,fun no => absurd no only⟩,fun _ => ⟨_,rfl⟩⟩
      · refine ⟨?_,fun both => absurd (both.1 isGroups) fits⟩
        rintro ⟨ranges,found⟩
        obtain ⟨_,found⟩ := Option.ite_none_left_eq_some.mp found
        exact absurd (Option.ite_none_left_eq_some.mp found).1 (by omega)
    · rw [if_neg isGroups]
      by_cases isVersions : e.extType = supportedVersionsExtensionType
      · rw [if_pos isVersions]
        by_cases fits : e.start + 5 + (byteAt b (e.start + 4)).toNat ≤ e.stop
        · rw [if_neg (by omega),if_neg (by omega)]
          exact ⟨fun _ => ⟨fun no => absurd no isGroups,fun _ => fits⟩,fun _ => ⟨_,rfl⟩⟩
        · refine ⟨?_,fun both => absurd (both.2 isVersions) fits⟩
          rintro ⟨ranges,found⟩
          obtain ⟨_,found⟩ := Option.ite_none_left_eq_some.mp found
          exact absurd (Option.ite_none_left_eq_some.mp found).1 (by omega)
      · rw [if_neg isVersions]
        exact ⟨fun _ => ⟨fun no => absurd no isGroups,fun no => absurd no isVersions⟩,fun _ => ⟨_,rfl⟩⟩

theorem wipedLike (placed : Placed b layout entries) {shares grease ech : List Range} {out : Bytes}
    (hasShares : collect (keyShareVisit b) entries = some shares) (hasGrease : collect (greaseVisit b) entries = some grease)
    (hasEch : collect (echVisit b) entries = some ech) (wiped : Wiped (Zeroed b layout shares grease ech) b out) :
    Like b layout entries out := by
  refine ⟨wiped.1,fun i hard => wiped.kept ?_,fun e member isGrease => .inr ?_⟩
  · rintro ((((⟨range,here,inside⟩ | ⟨range,here,inside⟩) | ⟨p,after,before,even,isGrease,here⟩) | ⟨range,here,inside⟩) |
      ⟨range,here,inside⟩)
    · rcases List.mem_cons.mp here with rfl | here
      · exact hard (.random inside)
      · exact hard (.session (List.mem_singleton.mp here ▸ inside))
    · exact hard ((sharesErase placed hasShares here).2.2 i inside).soft
    · exact hard (.suite ⟨after,before,even⟩ isGrease here)
    · exact hard ((greaseSpots placed hasGrease here).2.2 i inside)
    · exact hard ((echErase placed hasEch here).2.2 i inside).soft
  · exact typeZeroed hasGrease member isGrease wiped (fun range there i inside => .inl (.inr ⟨range,there,inside⟩))

theorem likePadding (placed : Placed b layout entries) (like : Like b layout entries w) :
    firstPadding (entries.map (retype w)) = firstPadding entries := by
  have same : ∀ e ∈ entries, decide ((retype w e).extType = paddingExtensionType) = decide (e.extType = paddingExtensionType) := by
    intro e member
    cases grease : isGreaseValue e.extType with
    | true =>
      have own : e.extType ≠ paddingExtensionType := by
        intro same
        rw [same] at grease
        exact absurd grease (by decide)
      rw [decide_eq_false (retypeOther like member grease (by decide) (by decide)),decide_eq_false own]
    | false => rw [retypePlain placed like member grease]
  have found : entries.find? ((fun e => decide (e.extType = paddingExtensionType)) ∘ retype w) = firstPadding entries := by
    exact List.find?_congr same
  rw [firstPadding,List.find?_map,found]
  cases first : firstPadding entries with
  | none => rfl
  | some e =>
    have isPadding : e.extType = paddingExtensionType := by simpa using List.find?_some first
    rw [Option.map_some,retypePlain placed like (List.mem_of_find?_eq_some first) (by rw [isPadding]; decide)]

theorem likeLengths (placed : Placed b layout entries) (like : Like b layout entries w) :
    u16At w 3 = u16At b 3 ∧ u24At w 6 = u24At b 6 := by
  have front := suitesFront placed
  have session := placed.session
  have kept {i : Nat} (before : i < 9) : w[i]? = b[i]? := by
    apply like.bone
    apply frontHard placed (by omega)
    · exact fun inside => by have := inside.1; dsimp only at this; omega
    · exact fun inside => by have := inside.1; rw [session] at this; dsimp only at this; omega
    · exact fun inside => by have := inside.1; omega
  refine ⟨u16Same (kept (by decide)) (kept (by decide)),?_⟩
  rw [u24At,u24At,byteSame (kept (by decide)),u16Same (kept (by decide)) (kept (by decide))]

theorem paddingPass (placed : Placed b layout entries) (like : Like b layout entries w) :
    (∃ out, normalizeClientHelloPaddingExtension w = some out) ↔
      ∀ e, firstPadding entries = some e → e.stop - e.start ≤ u16At b 3 ∧ e.stop - e.start ≤ u24At b 6 := by
  have front := suitesFront placed
  have behind := extensionsBehind placed
  obtain ⟨recordLen,handshakeLen⟩ := likeLengths placed like
  unfold normalizeClientHelloPaddingExtension
  rw [likeExtensions placed like]
  dsimp only [Option.bind_eq_bind,Option.bind_some]
  have found := likePadding placed like
  rw [firstPadding] at found
  rw [found]
  cases first : firstPadding entries with
  | none => exact ⟨fun _ e no => by contradiction,fun _ => ⟨w,rfl⟩⟩
  | some e =>
    have member : e ∈ entries := List.mem_of_find?_eq_some first
    have bounds := entryBounds placed member
    have fits := placed.fits
    have after := bounds.after
    have header := bounds.header
    have within := bounds.within
    have length := like.length
    have cut {i : Nat} (before : i < e.start) : (w.take e.start ++ w.drop e.stop)[i]? = w[i]? := by
      rw [List.getElem?_append_left (by rw [List.length_take]; omega),List.getElem?_take_of_lt before]
    have long : e.start ≤ (w.take e.start ++ w.drop e.stop).length := by
      rw [List.length_append,List.length_take]
      omega
    have extensionsLen : u16At (w.take e.start ++ w.drop e.stop) layout.extensionsLenRange.1 =
        u16At b layout.extensionsLenRange.1 := by
      rw [u16Same (cut (by omega)) (cut (by omega))]
      exact u16Same (likeFront placed like (by omega) (by omega) (by omega)) (likeFront placed like (by omega) (by omega) (by omega))
    dsimp only
    rw [extensionsLen,if_neg (by omega)]
    generalize w.take e.start ++ w.drop e.stop = shorter at cut long
    generalize u16At b layout.extensionsLenRange.1 - (e.stop - e.start) = newLen
    have two : (toBeBytes newLen).length = 2 := rfl
    have kept {i : Nat} (before : i < 9) : (put shorter layout.extensionsLenRange.1 (toBeBytes newLen))[i]? = w[i]? := by
      rw [putBefore (by omega) (by omega),cut (by omega)]
    have size : (put shorter layout.extensionsLenRange.1 (toBeBytes newLen)).length = shorter.length := putLength (by omega)
    rw [u16Same (kept (by decide)) (kept (by decide)),recordLen]
    generalize put shorter layout.extensionsLenRange.1 (toBeBytes newLen) = shortened at kept size
    have message : u24At (put shortened 3 (toBeBytes (u16At b 3 - (e.stop - e.start)))) 6 = u24At b 6 := by
      have three : (toBeBytes (u16At b 3 - (e.stop - e.start))).length = 2 := rfl
      have same {i : Nat} (far : 5 ≤ i) (before : i < 9) :
          (put shortened 3 (toBeBytes (u16At b 3 - (e.stop - e.start))))[i]? = w[i]? := by
        rw [putAfter (by omega) (by omega),kept before]
      rw [← handshakeLen,u24At,u24At,byteSame (same (by decide) (by decide)),
        u16Same (same (by decide) (by decide)) (same (by decide) (by decide))]
    rw [message]
    constructor
    · rintro ⟨out,ran⟩ other found
      cases Option.some.inj found
      obtain ⟨one,ran⟩ := Option.ite_none_left_eq_some.mp ran
      obtain ⟨two,_⟩ := Option.ite_none_left_eq_some.mp ran
      exact ⟨Nat.not_lt.mp one,Nat.not_lt.mp two⟩
    · intro enough
      obtain ⟨one,two⟩ := enough e rfl
      rw [if_neg (Nat.not_lt.mpr one),if_neg (Nat.not_lt.mpr two)]
      exact ⟨_,rfl⟩

theorem twinPrinted (hash : KeyedHash) (placed : Placed b layout entries) (twin : Twin b layout entries w) :
    (∃ print, stableClientHelloFingerprint hash w = some print) ↔ (∀ e ∈ entries, ListFits b e) ∧
      ∀ e, firstPadding entries = some e → e.stop - e.start ≤ u16At b 3 ∧ e.stop - e.start ≤ u24At b 6 := by
  unfold stableClientHelloFingerprint
  rcases erasedTwin placed twin with ⟨refused,erased⟩ | ⟨shares,grease,ech,out,hasShares,hasGrease,hasEch,erased,wiped⟩
  · rw [erased]
    constructor
    · rintro ⟨print,no⟩
      contradiction
    · rintro ⟨fits,_⟩
      obtain ⟨ranges,found⟩ := collectSome (fun e member => (greaseVisitFits e).mpr (fits e member))
      rw [refused] at found
      contradiction
  · have like := wipedLike placed hasShares hasGrease hasEch wiped
    have fits : ∀ e ∈ entries, ListFits b e := fun e member => (greaseVisitFits e).mp (collectVisited hasGrease member)
    rw [erased]
    dsimp only [Option.bind_eq_bind,Option.bind_some]
    constructor
    · rintro ⟨print,ran⟩
      obtain ⟨last,padded,_⟩ := Option.bind_eq_some_iff.mp ran
      exact ⟨fits,(paddingPass placed like).mp ⟨last,padded⟩⟩
    · rintro ⟨_,enough⟩
      obtain ⟨last,padded⟩ := (paddingPass placed like).mpr enough
      exact ⟨_,by rw [padded]; rfl⟩

end Print

section Template
variable {b sni out : Bytes} {layout : ClientHelloLayout} {entries : List Entry} {e other : Entry}

theorem patchedOther (named : Named b layout entries e) (patched : Patched b layout e sni out) (member : other ∈ entries)
    (differs : other ≠ e) : ∃ start, relocate (shifted e (u16At b (e.start + 7)) sni.length) other =
      ⟨other.extType,start,start + (other.stop - other.start)⟩ ∧
      ∀ k < other.stop - other.start, out[start + k]? = b[other.start + k]? := by
  obtain ⟨inside,front,start,whole,fits⟩ := namedBounds named
  have behind := extensionsBehind named.placed
  have bounds := entryBounds named.placed member
  have after := bounds.after
  have header := bounds.header
  dsimp only [nameRange] at whole
  rcases entriesApart named.placed member inside with same | first | second
  · exact absurd same differs
  · refine ⟨other.start,?_,fun k within => ?_⟩
    · rw [relocate,shifted,shifted,if_pos (by omega),if_pos first,Nat.add_sub_cancel' (by omega)]
    · exact patchedKept named patched (by omega) (by omega)
  · refine ⟨other.start - u16At b (e.start + 7) + sni.length,?_,fun k within => ?_⟩
    · rw [relocate,shifted,shifted,if_neg (by omega),if_neg (by omega)]
      congr 1
      omega
    · rw [← @patchedMoved _ _ _ _ _ patched (other.start + k) (by omega)]
      congr 1
      omega

theorem patchedLists (named : Named b layout entries e) (patched : Patched b layout e sni out) (isName : e.extType = 0x0000)
    (member : other ∈ entries) :
    ListFits out (relocate (shifted e (u16At b (e.start + 7)) sni.length) other) ↔ ListFits b other := by
  have bounds := entryBounds named.placed member
  have header := bounds.header
  by_cases differs : other = e
  · have plain {w : Bytes} {moved : Entry} (type : moved.extType = 0x0000) : ListFits w moved := by
      constructor
      · exact fun groups => absurd (type.symm.trans groups) (by decide)
      · exact fun versions => absurd (type.symm.trans versions) (by decide)
    rw [differs]
    exact ⟨fun _ => plain isName,fun _ => plain isName⟩
  · obtain ⟨start,same,bytes⟩ := patchedOther named patched member differs
    rw [same]
    dsimp only [ListFits]
    have groups (long : other.start + 6 ≤ other.stop) : u16At out (start + 4) = u16At b (other.start + 4) :=
      u16Moved (bytes 4 (by omega)) (bytes 5 (by omega))
    have versions (long : other.start + 5 ≤ other.stop) : byteAt out (start + 4) = byteAt b (other.start + 4) := by
      simp only [byteAt,List.getD_eq_getElem?_getD,bytes 4 (by omega)]
    refine and_congr (forall_congr' (fun _ => ?_)) (forall_congr' (fun _ => ?_))
    · by_cases long : other.start + 6 ≤ other.stop
      · rw [groups long]
        omega
      · omega
    · by_cases long : other.start + 5 ≤ other.stop
      · rw [versions long]
        omega
      · omega

theorem patchedPadding (named : Named b layout entries e) (patched : Patched b layout e sni out) (isName : e.extType = 0x0000)
    (P : Nat → Prop) :
    (∀ moved, firstPadding (entries.map (relocate (shifted e (u16At b (e.start + 7)) sni.length))) = some moved →
      P (moved.stop - moved.start)) ↔ ∀ other, firstPadding entries = some other → P (other.stop - other.start) := by
  have found : firstPadding (entries.map (relocate (shifted e (u16At b (e.start + 7)) sni.length))) =
      (firstPadding entries).map (relocate (shifted e (u16At b (e.start + 7)) sni.length)) := List.find?_map
  rw [found]
  cases first : firstPadding entries with
  | none => exact ⟨fun _ _ no => by contradiction,fun _ _ no => by contradiction⟩
  | some other =>
    have member : other ∈ entries := List.mem_of_find?_eq_some first
    have isPadding : other.extType = paddingExtensionType := by simpa using List.find?_some first
    have differs : other ≠ e := by
      rintro rfl
      exact absurd (isName.symm.trans isPadding) (by decide)
    obtain ⟨start,same,_⟩ := patchedOther named patched member differs
    have size : start + (other.stop - other.start) - start = other.stop - other.start := Nat.add_sub_cancel_left _ _
    rw [Option.map_some,same]
    constructor
    · intro holds found isFound
      cases Option.some.inj isFound
      exact size ▸ holds _ rfl
    · intro holds found isFound
      cases Option.some.inj isFound
      exact size.symm ▸ holds other rfl

end Template

/- The captured bytes: every list ends inside its extension, and the record and handshake
lengths, once moved by the change of name, still cover the padding. -/
def Printable (sni raw : Bytes) : Prop :=
  ∃ layout start entries, parseClientHelloLayout raw = some layout ∧ walkClientHelloExtensions raw = some (start,entries) ∧
    (∀ e ∈ entries, ListFits raw e) ∧ ∀ e, firstPadding entries = some e →
      e.stop - e.start + (layout.sniRange.2 - layout.sniRange.1) ≤ u16At raw 3 + sni.length ∧
      e.stop - e.start + (layout.sniRange.2 - layout.sniRange.1) ≤ u24At raw 6 + sni.length

theorem templatePrinted (hash : KeyedHash) {sni raw : Bytes} {fingerprint : Option (List Char)} {t : ClientHelloTemplate}
    (built : buildClientHelloTemplate sni fingerprint raw = some t) {derivedPsk pskE out : Bytes} {counter : Nat} {draws : Draws}
    (ran : instantiate hash t derivedPsk pskE counter draws = some out) :
    (∃ print, stableClientHelloFingerprint hash out = some print) ↔ Printable sni raw := by
  obtain ⟨layout,entries,e,parsed,named,patched,_⟩ := templatePatched built
  obtain ⟨layout',entries',placed,long,_,suites,keyShare,auxiliary,extensions,ech⟩ := templatePlaced built
  have twin := instantiateTwin placed long suites keyShare auxiliary extensions ech ran
  have isName : e.extType = 0x0000 := by simpa using (List.mem_filter.mp (List.mem_of_getLast? named.last)).2
  have old : layout.sniRange.2 - layout.sniRange.1 = u16At raw (e.start + 7) := by
    rw [named.sni,nameRange]
    exact Nat.add_sub_cancel_left ..
  have recordLen := patched.recordLen
  have handshakeLen := patched.handshakeLen
  have lists : (∀ moved ∈ entries.map (relocate (shifted e (u16At raw (e.start + 7)) sni.length)), ListFits t.bytes moved) ↔
      ∀ other ∈ entries, ListFits raw other := by
    rw [List.forall_mem_map]
    exact forall₂_congr (fun other member => patchedLists named patched isName member)
  rw [twinPrinted hash placed twin,patchedEntries named patched placed,lists,
    patchedPadding named patched isName (fun size => size ≤ u16At t.bytes 3 ∧ size ≤ u24At t.bytes 6)]
  constructor
  · rintro ⟨fit,padding⟩
    refine ⟨layout,_,entries,parsed,placedExtensions named.placed,fit,fun other found => ?_⟩
    have := padding other found
    omega
  · rintro ⟨layout2,start,entries2,parsed2,walked,fit,padding⟩
    cases Option.some.inj (parsed.symm.trans parsed2)
    cases Option.some.inj (walked.symm.trans (placedExtensions named.placed))
    refine ⟨fit,fun other found => ?_⟩
    have := padding other found
    omega

theorem templatePrintedSample : ∃ t out print, buildClientHelloTemplate [0x62,0x63] none sampleHello = some t ∧
    instantiate sampleHash t (List.replicate 32 7) (List.replicate 48 4) 0x1234567000001 sampleDraws = some out ∧
    stableClientHelloFingerprint sampleHash out = some print := by
  have built : (buildClientHelloTemplate [0x62,0x63] none sampleHello).isSome = true := by decide +kernel
  obtain ⟨t,built⟩ := Option.isSome_iff_exists.mp built
  have ran : ((buildClientHelloTemplate [0x62,0x63] none sampleHello).bind (fun t =>
      instantiate sampleHash t (List.replicate 32 7) (List.replicate 48 4) 0x1234567000001 sampleDraws)).isSome = true := by
    decide +kernel
  rw [built,Option.bind_some] at ran
  obtain ⟨out,ran⟩ := Option.isSome_iff_exists.mp ran
  have parses : (parseClientHelloLayout sampleHello).isSome = true := by decide +kernel
  obtain ⟨layout,parsed⟩ := Option.isSome_iff_exists.mp parses
  have walks : (walkClientHelloExtensions sampleHello).map (fun found =>
      (found.2.all (fun e => decide (ListFits sampleHello e)),firstPadding found.2)) = some (true,none) := by
    decide +kernel
  obtain ⟨⟨start,entries⟩,walked,same⟩ := Option.map_eq_some_iff.mp walks
  have fit : entries.all (fun e => decide (ListFits sampleHello e)) = true := congrArg Prod.fst same
  have padding : firstPadding entries = none := congrArg Prod.snd same
  have printable : Printable [0x62,0x63] sampleHello := by
    refine ⟨layout,start,entries,parsed,walked,fun e member => of_decide_eq_true (List.all_eq_true.mp fit e member),?_⟩
    intro e found
    cases padding.symm.trans found
  obtain ⟨print,printed⟩ := (templatePrinted sampleHash built ran).mpr printable
  exact ⟨t,out,print,built,ran,printed⟩

def overrunGroups : Bytes :=
  [0x16,0x03,0x01,0x00,0x8c,0x01,0x00,0x00,0x88,0x03,0x03] ++ List.replicate 32 1 ++ [32] ++ List.replicate 32 2 ++
  [0x00,0x04,0x0a,0x0a,0x13,0x01,0x01,0x00,0x00,0x3c] ++
  [0x00,0x00,0x00,0x06,0x00,0x04,0x00,0x00,0x01,0x61] ++
  [0x00,0x0a,0x00,0x04,0x00,0x04,0x00,0x1d] ++
  [0x00,0x33,0x00,0x26,0x00,0x24,0x00,0x1d,0x00,0x20] ++ List.replicate 32 3

theorem overrunRefused : ∃ t out, buildClientHelloTemplate [0x61] none overrunGroups = some t ∧
    instantiate sampleHash t (List.replicate 32 7) (List.replicate 48 4) 0x1234567000001 sampleDraws = some out ∧
    stableClientHelloFingerprint sampleHash out = none := by
  have runs : ((buildClientHelloTemplate [0x61] none overrunGroups).bind (fun t =>
      (instantiate sampleHash t (List.replicate 32 7) (List.replicate 48 4) 0x1234567000001 sampleDraws).bind (fun out =>
        if stableClientHelloFingerprint sampleHash out = none then some () else none))).isSome = true := by
    decide +kernel
  obtain ⟨_,runs⟩ := Option.isSome_iff_exists.mp runs
  obtain ⟨t,built,runs⟩ := Option.bind_eq_some_iff.mp runs
  obtain ⟨out,ran,runs⟩ := Option.bind_eq_some_iff.mp runs
  exact ⟨t,out,built,ran,(Option.ite_none_right_eq_some.mp runs).1⟩

end KanoTls.Hello
