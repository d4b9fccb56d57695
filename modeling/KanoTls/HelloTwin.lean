import KanoTls.HelloFingerprint

/-! Every instantiation of a template is a twin of it, so the fingerprint is that of the
template. -/
namespace KanoTls.Hello
open Uot Wire Patch

section Twins
variable {b w out : Bytes} {layout : ClientHelloLayout} {entries : List Entry}

theorem takenGrease (draw : Nat) (used : List Nat) : isGreaseValue (takeGreaseValue draw used).1 = true := by
  have known : ∀ i < 16, isGreaseValue (greaseValues.getD i 0) = true ∧
      isGreaseValue (greaseValues.getD i 0 ^^^ 0x1010) = true := by decide
  obtain ⟨plain,flipped⟩ := known (draw % 16) (Nat.mod_lt _ (by decide))
  unfold takeGreaseValue
  generalize greaseValues.getD (draw % 16) 0 = value at plain flipped
  dsimp only
  by_cases again : used.contains value = true
  · rw [if_pos again]
    by_cases twice : used.contains (value ^^^ 0x1010) = true
    · rw [if_pos twice]
      cases found : greaseValues.find? (fun v => !used.contains v) with
      | none => exact plain
      | some free => exact List.contains_iff_mem.mpr (List.mem_of_find?_eq_some found)
    · rw [if_neg twice]
      exact flipped
  · rw [if_neg again]
    exact plain

theorem rotateListTwin (placed : Placed b layout entries) {draw : Nat → Nat} {stop fuel cursor : Nat} {used : List Nat}
    (twin : Twin b layout entries w) (spots : ∀ p, IsUnit (cursor,stop) p → Spot b layout entries p)
    (ran : rotateList draw stop fuel cursor used w = some out) : Twin b layout entries out := by
  induction fuel generalizing cursor used w with
  | zero => exact Option.some.inj ran ▸ twin
  | succ fuel ih =>
    have later : ∀ p, IsUnit (cursor + 2,stop) p → Spot b layout entries p := by
      rintro p ⟨after,before,even⟩
      dsimp only at after before even
      exact spots p ⟨by dsimp only; omega,before,by dsimp only; omega⟩
    rw [rotateList] at ran
    by_cases more : cursor + 2 ≤ stop
    · rw [if_pos more] at ran
      obtain ⟨value,read,ran⟩ := Option.bind_eq_some_iff.mp ran
      obtain ⟨fits,rfl⟩ := readU16Some read
      have here : Spot b layout entries cursor := spots cursor ⟨Nat.le_refl _,more,by dsimp only; omega⟩
      by_cases grease : isGreaseValue (u16At w cursor) = true
      · rw [if_pos grease] at ran
        exact ih (twinRotate placed twin here grease (takenGrease _ used) fits) later ran
      · rw [if_neg grease] at ran
        exact ih twin later ran
    · rw [if_neg more] at ran
      exact Option.some.inj ran ▸ twin

theorem rotateTypesTwin (placed : Placed b layout entries) {draw : Nat → Nat} {extensionsEnd fuel cursor : Nat}
    {used : List Nat} {behind : List Entry} (twin : Twin b layout entries w) (all : ∀ e ∈ behind, e ∈ entries)
    (walked : walkEntries b extensionsEnd fuel cursor = some behind)
    (ran : rotateExtensionTypes draw extensionsEnd fuel cursor used w = some out) : Twin b layout entries out := by
  induction fuel generalizing cursor used w behind with
  | zero => exact Option.some.inj ran ▸ twin
  | succ fuel ih =>
    rw [walkEntries] at walked
    rw [rotateExtensionTypes] at ran
    by_cases more : cursor + 4 ≤ extensionsEnd
    · rw [if_pos more] at walked ran
      obtain ⟨_,walked⟩ := Option.ite_none_left_eq_some.mp walked
      obtain ⟨rest,walkedRest,rfl⟩ := Option.map_eq_some_iff.mp walked
      have member := all _ List.mem_cons_self
      have others : ∀ e ∈ rest, e ∈ entries := fun e later => all e (List.mem_cons_of_mem _ later)
      obtain ⟨extType,readType,ran⟩ := Option.bind_eq_some_iff.mp ran
      obtain ⟨extLen,readLen,ran⟩ := Option.bind_eq_some_iff.mp ran
      obtain ⟨fits,rfl⟩ := readU16Some readType
      obtain ⟨_,rfl⟩ := readU16Some readLen
      obtain ⟨_,ran⟩ := Option.ite_none_left_eq_some.mp ran
      have header := likeHeader placed twin.toLike member
      dsimp only at header
      rw [header,Nat.add_assoc] at ran
      by_cases grease : isGreaseValue (u16At w cursor) = true
      · rw [if_pos grease] at ran
        exact ih (twinRotate placed twin (.type member rfl) grease (takenGrease _ used) fits) others walkedRest ran
      · rw [if_neg grease] at ran
        exact ih twin others walkedRest ran
    · rw [if_neg more] at ran
      exact Option.some.inj ran ▸ twin

theorem foundEntry (placed : Placed b layout entries) (twin : Twin b layout entries w)
    {extensionType extensionsEnd fuel cursor : Nat}
    {behind : List Entry} {data : Range} (plain : isGreaseValue extensionType = false) (all : ∀ e ∈ behind, e ∈ entries)
    (walked : walkEntries b extensionsEnd fuel cursor = some behind)
    (found : findExtensionFrom w extensionType extensionsEnd fuel cursor = some (some data)) :
    ∃ e ∈ entries, e.extType = extensionType ∧ data = (e.start + 4,e.stop) := by
  induction fuel generalizing cursor behind with
  | zero => cases Option.some.inj found
  | succ fuel ih =>
    rw [walkEntries] at walked
    rw [findExtensionFrom] at found
    by_cases more : cursor + 4 ≤ extensionsEnd
    · rw [if_pos more] at walked found
      obtain ⟨_,walked⟩ := Option.ite_none_left_eq_some.mp walked
      obtain ⟨rest,walkedRest,rfl⟩ := Option.map_eq_some_iff.mp walked
      have member := all _ List.mem_cons_self
      have others : ∀ e ∈ rest, e ∈ entries := fun e later => all e (List.mem_cons_of_mem _ later)
      obtain ⟨extType,readType,found⟩ := Option.bind_eq_some_iff.mp found
      obtain ⟨extLen,readLen,found⟩ := Option.bind_eq_some_iff.mp found
      obtain ⟨_,rfl⟩ := readU16Some readType
      obtain ⟨_,rfl⟩ := readU16Some readLen
      obtain ⟨_,found⟩ := Option.ite_none_left_eq_some.mp found
      have header := likeHeader placed twin.toLike member
      dsimp only at header
      rw [header,Nat.add_assoc] at found
      by_cases this : u16At w cursor = extensionType
      · rw [if_pos this] at found
        refine ⟨_,member,?_,(Option.some.inj (Option.some.inj found)).symm⟩
        -- a GREASE type would still be GREASE in the twin
        cases grease : isGreaseValue (u16At b cursor) with
        | true =>
          have still := twin.grease cursor (.type member rfl) grease
          rw [this,plain] at still
          contradiction
        | false => exact (likeType placed twin.toLike member grease).symm.trans this
      · rw [if_neg this] at found
        exact ih others walkedRest found
    · rw [if_neg more] at found
      cases Option.some.inj found

theorem twinExtensionsLen (placed : Placed b layout entries) (twin : Twin b layout entries w) :
    u16At w layout.extensionsLenRange.1 = u16At b layout.extensionsLenRange.1 := by
  have front := suitesFront placed
  have lengths := extensionsBehind placed
  have after : layout.cipherSuitesRange.2 ≤ layout.extensionsLenRange.1 := by omega
  exact u16Same (likeFront placed twin.toLike (by omega) (by omega) (by omega))
    (likeFront placed twin.toLike (by omega) (by omega) (by omega))

theorem extensionFound (placed : Placed b layout entries) (twin : Twin b layout entries w) {extensionType : Nat}
    {data : Range}
    (plain : isGreaseValue extensionType = false)
    (found : findExtension w layout.extensionsLenRange extensionType = some (some data)) :
    ∃ e ∈ entries, e.extType = extensionType ∧ data = (e.start + 4,e.stop) := by
  obtain ⟨len,read,found⟩ := Option.bind_eq_some_iff.mp found
  obtain ⟨_,rfl⟩ := readU16Some read
  rw [twinExtensionsLen placed twin,twin.length] at found
  exact foundEntry placed twin plain (fun _ => id) placed.walked found

theorem groupsRotated (placed : Placed b layout entries) (twin : Twin b layout entries w) {draws : Draws}
    (ran : rotateGreaseSupportedGroups draws layout.extensionsLenRange w = some out) : Twin b layout entries out := by
  obtain ⟨extension,found,ran⟩ := Option.bind_eq_some_iff.mp ran
  cases extension with
  | none => exact Option.some.inj ran ▸ twin
  | some data =>
    obtain ⟨e,member,isGroups,rfl⟩ := extensionFound placed twin (by decide) found
    obtain ⟨sized,ran⟩ := Option.ite_none_left_eq_some.mp ran
    obtain ⟨len,read,ran⟩ := Option.bind_eq_some_iff.mp ran
    obtain ⟨_,rfl⟩ := readU16Some read
    dsimp only at sized ran
    have header := groupsHeader placed twin.toLike member isGroups (by omega)
    refine rotateListTwin placed twin (fun p unit => .item member ?_) ran
    rw [itemsOf,if_pos isGroups,← header]
    exact unit

theorem versionsRotated (placed : Placed b layout entries) (twin : Twin b layout entries w) {draws : Draws}
    (ran : rotateGreaseSupportedVersions draws layout.extensionsLenRange w = some out) : Twin b layout entries out := by
  obtain ⟨extension,found,ran⟩ := Option.bind_eq_some_iff.mp ran
  cases extension with
  | none => exact Option.some.inj ran ▸ twin
  | some data =>
    obtain ⟨e,member,isVersions,rfl⟩ := extensionFound placed twin (by decide) found
    obtain ⟨sized,ran⟩ := Option.ite_none_left_eq_some.mp ran
    dsimp only at sized ran
    have bounds := (entryBounds placed member).header
    have header := versionsHeader placed twin.toLike member (by omega)
    have notGroups : e.extType ≠ supportedGroupsExtensionType := by
      rw [isVersions]
      decide
    refine rotateListTwin placed twin (fun p unit => .item member ?_) ran
    rw [itemsOf,if_neg notGroups,if_pos isVersions,← header]
    exact unit

theorem randomizationTwin (placed : Placed b layout entries) (twin : Twin b layout entries w) {draws : Draws}
    (ran : applyClientHelloRandomization draws layout.cipherSuitesRange layout.extensionsLenRange w = some out) :
    Twin b layout entries out := by
  obtain ⟨one,first,ran⟩ := Option.bind_eq_some_iff.mp ran
  obtain ⟨two,second,ran⟩ := Option.bind_eq_some_iff.mp ran
  obtain ⟨three,third,fourth⟩ := Option.bind_eq_some_iff.mp ran
  have types : Twin b layout entries one := by
    obtain ⟨len,read,first⟩ := Option.bind_eq_some_iff.mp first
    obtain ⟨_,rfl⟩ := readU16Some read
    rw [twinExtensionsLen placed twin,twin.length] at first
    exact rotateTypesTwin placed twin (fun _ => id) placed.walked first
  have suites : Twin b layout entries two := by
    obtain ⟨_,second⟩ := Option.ite_none_left_eq_some.mp second
    exact rotateListTwin placed types (fun p unit => .suite unit) second
  exact versionsRotated placed (groupsRotated placed suites third) fourth

theorem putTwin (placed : Placed b layout entries) (twin : Twin b layout entries w) {chunk : Bytes} {start : Nat}
    (fits : start + chunk.length ≤ b.length) (inside : ∀ i, Inside (start,
      start + chunk.length) i → Erase b layout entries i) :
    Twin b layout entries (put w start chunk) := by
  rw [← twin.length] at fits
  exact twinErase placed twin (putLength fits) (fun i hard => putOutside fits (fun here => hard (inside i here)))

theorem shareErased {range : Range} {i : Nat} (share : ShareOf b entries range) (here : Inside range i) :
    Erase b layout entries i := by
  obtain ⟨e,member,keyShare,shares,walked,inShares⟩ := share
  exact .entry member (.share keyShare walked inShares here)

theorem shareTwin (placed : Placed b layout entries) (twin : Twin b layout entries w) {range : Range} {chunk : Bytes}
    (share : ShareOf b entries range) (size : chunk.length = range.2 - range.1) :
    Twin b layout entries (put w range.1 chunk) := by
  obtain ⟨_,ordered,fits⟩ := shareBounds placed share
  have stop : range.1 + chunk.length = range.2 := by omega
  refine putTwin placed twin (by omega) (fun i here => ?_)
  rw [stop] at here
  exact shareErased share here

theorem refreshSharesTwin (placed : Placed b layout entries) (twin : Twin b layout entries w) {draws : Draws} {k : Nat}
    {key : Bytes}
    {ranges : List Range} (size : key.length = 32) (all : ∀ range ∈ ranges, ShareOf b entries range)
    (ran : refreshShares draws key k ranges w = some out) : Twin b layout entries out := by
  induction ranges generalizing k w with
  | nil => exact Option.some.inj ran ▸ twin
  | cons range rest ih =>
    obtain ⟨middle,one,later⟩ := Option.bind_eq_some_iff.mp ran
    have others : ∀ range ∈ rest, ShareOf b entries range := fun other member => all other (List.mem_cons_of_mem _ member)
    rcases refreshShareWrites size one with rfl | ⟨chunk,long,_,rfl⟩
    · exact ih twin others later
    · exact ih (shareTwin placed twin (all range List.mem_cons_self) long) others later

theorem refreshEchTwin (placed : Placed b layout entries) (twin : Twin b layout entries w) (draws : Draws)
    {ranges : Option EchGreaseRanges} (known : ∀ ech, ranges = some ech → EchOf b entries ech) :
    Twin b layout entries (refreshEch draws w ranges) := by
  cases ranges with
  | none => exact twin
  | some ech =>
    have here := echBounds placed (known ech rfl)
    obtain ⟨e,member,isEch,_,found⟩ := known ech rfl
    have erased {i : Nat} (inside : i = ech.configId ∨ Inside ech.enc i ∨ Inside ech.payload i) : Erase b layout entries i :=
      .entry member (.ech isEch found inside)
    have config : Twin b layout entries (put w ech.configId [draws.configId]) := by
      refine putTwin placed twin (by rw [List.length_singleton]; omega) ?_
      rintro i ⟨after,before⟩
      rw [List.length_singleton] at before
      dsimp only at after before
      exact erased (.inl (by omega))
    have encStop : ech.enc.1 + (fillBytes draws.enc (ech.enc.2 - ech.enc.1)).length = ech.enc.2 := by
      rw [fillBytesLength]
      omega
    have enc := putTwin placed config (by rw [encStop]; omega) (fun i inside => by
      rw [encStop] at inside
      exact erased (.inr (.inl inside)))
    have payloadStop : ech.payload.1 + (fillBytes draws.payload (ech.payload.2 - ech.payload.1)).length = ech.payload.2 := by
      rw [fillBytesLength]
      omega
    exact putTwin placed enc (by rw [payloadStop]; omega) (fun i inside => by
      rw [payloadStop] at inside
      exact erased (.inr (.inr inside)))

theorem refreshedTwin {t : ClientHelloTemplate} {draws : Draws} (placed : Placed t.bytes layout entries)
    (keyShare : t.keyShareRange = layout.keyShareRange)
    (auxiliary : t.auxiliaryKeyShareRanges = layout.auxiliaryKeyShareRanges)
    (ech : t.echGreaseRanges = layout.echGreaseRanges) (ran : refreshed draws t = some out) :
    Twin t.bytes layout entries out := by
  unfold refreshed at ran
  obtain ⟨key,drawn,ran⟩ := Option.bind_eq_some_iff.mp ran
  have size : key.length = 32 := by simpa using (Option.filter_eq_some_iff.mp drawn).2
  obtain ⟨same,ran⟩ := Option.ite_none_left_eq_some.mp ran
  obtain ⟨middle,shares,ran⟩ := Option.bind_eq_some_iff.mp ran
  rw [keyShare] at same shares
  rw [auxiliary] at shares
  rw [ech] at ran
  have first := shareTwin placed (twinSelf placed) placed.keyShare (not_not.mp same).symm
  have second := refreshSharesTwin placed first size placed.auxiliary shares
  exact Option.some.inj ran ▸ refreshEchTwin placed second draws placed.ech

theorem sealTwin {hash : KeyedHash} {derivedPsk pskE : Bytes} {counter : Nat} {macBits : UInt8} (whole : pskE.length = 48)
    (placed : Placed b layout entries) (long : 32 ≤ layout.sessionIdRange.2 - layout.sessionIdRange.1)
    (twin : Twin b layout entries w) (ran : sealHello hash derivedPsk pskE counter macBits w = some out) :
    Twin b layout entries out := by
  obtain ⟨_,_,_,_,isSession,fits⟩ := rangesSome placed.ranges
  have session {i : Nat} (after : 44 ≤ i) (before : i < 76) : Erase b layout entries i := by
    refine .session ⟨?_,?_⟩ <;> rw [isSession] at long ⊢ <;> dsimp only at long ⊢ <;> omega
  have size : 76 ≤ b.length := by
    rw [isSession] at long fits
    dsimp only at long fits
    omega
  have start : layout.sessionIdRange.1 = 44 := by rw [isSession]
  unfold sealHello at ran
  rw [likeRanges placed twin.toLike] at ran
  dsimp only [Option.bind_eq_bind,Option.bind_some] at ran
  rw [start] at ran
  -- each write of the session id lies in its first 32 bytes
  have write {d chunk : Bytes} {at' : Nat} (good : Twin b layout entries d) (after : 44 ≤ at') (before : at' + chunk.length ≤ 76) :
      Twin b layout entries (put d at' chunk) := by
    refine putTwin placed good (by omega) ?_
    rintro i ⟨lower,upper⟩
    dsimp only at lower upper
    exact session (by omega) (by omega)
  have tagSize : (slice pskE 32 48).length = 16 := by rw [sliceLength (by omega)]
  have tagged : Twin b layout entries (put w 44 (slice pskE 32 48)) := write twin (Nat.le_refl 44) (by omega)
  generalize put w 44 (slice pskE 32 48) = c1 at tagged ran
  have keySize := @maskedKeyLength hash _ whole derivedPsk (slice c1 44 (44 + 16))
  generalize maskNoiseEphemeralKey hash (pskE.take 32) derivedPsk (slice c1 44 (44 + 16)) = key at keySize ran
  have randomized : Twin b layout entries (put c1 11 key) := by
    refine putTwin placed tagged (by omega) (fun i inside => .random ?_)
    rw [keySize] at inside
    exact inside
  have counterSize := @maskedCounterLength hash derivedPsk key counter
  generalize xorBytes (u64ToBeBytes counter) (deriveCounterMask hash derivedPsk key) = masked at counterSize ran
  have macSize := @counterMacLength hash derivedPsk key masked (key.take 16)
  generalize deriveCounterMac hash derivedPsk key masked (key.take 16) = mac at macSize ran
  have counted : Twin b layout entries (put _ (44 + 16) masked) := write randomized (by omega) (by omega)
  have macced : Twin b layout entries (put _ (44 + 24) mac) := write counted (by omega) (by omega)
  rw [← Option.some.inj ran]
  exact write macced (by omega) (by rw [List.length_singleton])

theorem instantiateTwin {hash : KeyedHash} {t : ClientHelloTemplate} {derivedPsk pskE : Bytes} {counter : Nat}
    {draws : Draws}
    (placed : Placed t.bytes layout entries) (long : 32 ≤ layout.sessionIdRange.2 - layout.sessionIdRange.1)
    (suites : t.cipherSuitesRange = layout.cipherSuitesRange) (keyShare : t.keyShareRange = layout.keyShareRange)
    (auxiliary : t.auxiliaryKeyShareRanges = layout.auxiliaryKeyShareRanges)
    (extensions : t.extensionsLenRange = layout.extensionsLenRange) (ech : t.echGreaseRanges = layout.echGreaseRanges)
    (ran : instantiate hash t derivedPsk pskE counter draws = some out) : Twin t.bytes layout entries out := by
  unfold instantiate at ran
  obtain ⟨sized,ran⟩ := Option.ite_none_left_eq_some.mp ran
  obtain ⟨fresh,refresh,ran⟩ := Option.bind_eq_some_iff.mp ran
  obtain ⟨sealed,seals,rotates⟩ := Option.bind_eq_some_iff.mp ran
  rw [suites,extensions] at rotates
  have one := refreshedTwin placed keyShare auxiliary ech refresh
  have two := sealTwin (not_not.mp sized) placed long one seals
  exact randomizationTwin placed two rotates

end Twins

theorem fingerprintStable (hash : KeyedHash) {sni raw : Bytes} {fingerprint : Option (List Char)} {t : ClientHelloTemplate}
    (built : buildClientHelloTemplate sni fingerprint raw = some t) {derivedPsk derivedPsk' pskE pskE' : Bytes}
    {counter counter' : Nat} {draws draws' : Draws} {out out' : Bytes}
    (ran : instantiate hash t derivedPsk pskE counter draws = some out)
    (ran' : instantiate hash t derivedPsk' pskE' counter' draws' = some out') :
    stableClientHelloFingerprint hash out = stableClientHelloFingerprint hash out' := by
  obtain ⟨layout,entries,placed,long,_,suites,keyShare,auxiliary,extensions,ech⟩ := templatePlaced built
  have one := instantiateTwin placed long suites keyShare auxiliary extensions ech ran
  have two := instantiateTwin placed long suites keyShare auxiliary extensions ech ran'
  exact fingerprintTwins hash placed one two

def otherDraws : Draws := { sampleDraws with
  x25519 := some (List.replicate 32 8)
  macBits := 1
  grease _ _ := 3 }

theorem fingerprintStableSample : ∃ t out out', buildClientHelloTemplate [0x61] none sampleHello = some t ∧
    instantiate sampleHash t (List.replicate 32 7) (List.replicate 48 4) 0x1234567000001 sampleDraws = some out ∧
    instantiate sampleHash t (List.replicate 32 6) (List.replicate 48 5) 0x1234567000002 otherDraws = some out' ∧
    stableClientHelloFingerprint sampleHash out = stableClientHelloFingerprint sampleHash out' ∧ out ≠ out' ∧
    (stableClientHelloFingerprint sampleHash out).isSome = true := by
  have built : (buildClientHelloTemplate [0x61] none sampleHello).isSome = true := by decide +kernel
  obtain ⟨t,built⟩ := Option.isSome_iff_exists.mp built
  have ran : ((buildClientHelloTemplate [0x61] none sampleHello).bind (fun t =>
      (instantiate sampleHash t (List.replicate 32 7) (List.replicate 48 4) 0x1234567000001 sampleDraws).bind (fun out =>
      (instantiate sampleHash t (List.replicate 32 6) (List.replicate 48 5) 0x1234567000002 otherDraws).bind (fun out' =>
        if out ≠ out' then stableClientHelloFingerprint sampleHash out else none)))).isSome = true := by
    decide +kernel
  rw [built,Option.bind_some] at ran
  obtain ⟨print,ran⟩ := Option.isSome_iff_exists.mp ran
  obtain ⟨out,one,ran⟩ := Option.bind_eq_some_iff.mp ran
  obtain ⟨out',two,ran⟩ := Option.bind_eq_some_iff.mp ran
  obtain ⟨differ,ran⟩ := Option.ite_none_right_eq_some.mp ran
  exact ⟨t,out,out',built,one,two,fingerprintStable sampleHash built one two,differ,Option.isSome_iff_exists.mpr ⟨print,ran⟩⟩

end KanoTls.Hello
