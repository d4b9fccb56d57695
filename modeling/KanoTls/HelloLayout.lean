import KanoTls.HelloInstance

/-! Where things lie in a record that `parse_client_hello_layout` accepts: the extensions
follow each other behind the cipher suites, and every range of the layout lies in one. -/
namespace KanoTls.Hello
open Uot Wire Patch

def sharesOf (b : Bytes) (e : Entry) : Option (List Range) := shareRanges b e.stop b.length (e.start + 6)

def ShareOf (b : Bytes) (entries : List Entry) (range : Range) : Prop :=
  ∃ e ∈ entries, e.extType = 0x0033 ∧ ∃ shares, sharesOf b e = some shares ∧ range ∈ shares

def EchOf (b : Bytes) (entries : List Entry) (ech : EchGreaseRanges) : Prop :=
  ∃ e ∈ entries, e.extType = echExtensionType ∧ byteAt b (e.start + 4) = 0 ∧
    echVariableFieldRanges b (e.start + 4,e.stop) = some (ech.configId,ech.enc,ech.payload)

structure EntryParsed (b : Bytes) (e : Entry) : Prop where
  shares : e.extType = 0x0033 → e.start + 8 ≤ e.stop ∧ ∃ shares, sharesOf b e = some shares
  ech : e.extType = echExtensionType → e.start + 4 < e.stop ∧ byteAt b (e.start + 4) = 0 ∧
    ∃ ranges, echVariableFieldRanges b (e.start + 4,e.stop) = some ranges

structure FoundIn (b : Bytes) (entries : List Entry) (found : Found) : Prop where
  keyShare : ∀ range, found.keyShare = some range → ShareOf b entries range
  auxiliary : ∀ range ∈ found.auxiliary, ShareOf b entries range
  ech : ∀ ech, found.ech = some ech → EchOf b entries ech
  parsed : ∀ e ∈ entries, EntryParsed b e

section Parse
variable {b : Bytes}

theorem readU16Some {start value : Nat} (read : readU16 b start = some value) : start + 2 ≤ b.length ∧
    value = u16At b start := by
  obtain ⟨fits,same⟩ := Option.ite_none_left_eq_some.mp read
  exact ⟨by omega,(Option.some.inj same).symm⟩

theorem parseSharesFound {extEnd fuel cursor : Nat} {found found' : Found}
    (parsed : parseShares b extEnd fuel cursor found = some found') :
    ∃ shares, shareRanges b extEnd fuel cursor = some shares ∧
      (∀ range, found'.keyShare = some range → found.keyShare = some range ∨ range ∈ shares) ∧
      (∀ range ∈ found'.auxiliary, range ∈ found.auxiliary ∨ range ∈ shares) ∧ found'.ech = found.ech := by
  induction fuel generalizing cursor found with
  | zero =>
    cases Option.some.inj parsed
    exact ⟨[],rfl,fun _ here => .inl here,fun _ here => .inl here,rfl⟩
  | succ fuel ih =>
    rw [parseShares] at parsed
    rw [shareRanges]
    by_cases more : cursor + 4 ≤ extEnd
    · rw [if_pos more] at parsed ⊢
      obtain ⟨group,readGroup,parsed⟩ := Option.bind_eq_some_iff.mp parsed
      obtain ⟨shareLen,readLen,parsed⟩ := Option.bind_eq_some_iff.mp parsed
      obtain ⟨_,rfl⟩ := readU16Some readLen
      obtain ⟨inside,parsed⟩ := Option.ite_none_left_eq_some.mp parsed
      dsimp only
      rw [if_neg inside]
      split at parsed
      · obtain ⟨shares,walked,key,auxiliary,ech⟩ := ih parsed
        refine ⟨_,by rw [walked]; rfl,?_,?_,ech⟩
        · intro range here
          rcases key range here with this | later
          · exact .inr (Option.some.inj this ▸ List.mem_cons_self)
          · exact .inr (List.mem_cons_of_mem _ later)
        · intro range here
          exact (auxiliary range here).imp id (List.mem_cons_of_mem _)
      · obtain ⟨shares,walked,key,auxiliary,ech⟩ := ih parsed
        refine ⟨_,by rw [walked]; rfl,?_,?_,ech⟩
        · intro range here
          exact (key range here).imp id (List.mem_cons_of_mem _)
        · intro range here
          rcases auxiliary range here with before | later
          · rcases List.mem_append.mp before with before | this
            · exact .inl before
            · exact .inr (List.mem_singleton.mp this ▸ List.mem_cons_self)
          · exact .inr (List.mem_cons_of_mem _ later)
    · rw [if_neg more] at parsed ⊢
      cases Option.some.inj parsed
      exact ⟨[],rfl,fun _ here => .inl here,fun _ here => .inl here,rfl⟩

theorem FoundIn.more {entries : List Entry} {last : Entry} {found : Found} (known : FoundIn b entries found)
    (whole : EntryParsed b last) : FoundIn b (entries ++ [last]) found := by
  have share {range} (this : ShareOf b entries range) : ShareOf b (entries ++ [last]) range := by
    obtain ⟨e,member,rest⟩ := this
    exact ⟨e,List.mem_append_left _ member,rest⟩
  refine ⟨fun range here => share (known.keyShare range here),fun range here => share (known.auxiliary range here),?_,?_⟩
  · intro ech here
    obtain ⟨e,member,rest⟩ := known.ech ech here
    exact ⟨e,List.mem_append_left _ member,rest⟩
  · intro e member
    rcases List.mem_append.mp member with before | this
    · exact known.parsed e before
    · exact List.mem_singleton.mp this ▸ whole

theorem parseExtensionFound {extType cursor extEnd : Nat} {entries : List Entry} {found found' : Found}
    (known : FoundIn b entries found) (parsed : parseExtension b extType cursor extEnd found = some found') :
    FoundIn b (entries ++ [⟨extType,cursor,extEnd⟩]) found' := by
  have last : (⟨extType,cursor,extEnd⟩ : Entry) ∈ entries ++ [⟨extType,cursor,extEnd⟩] :=
    List.mem_append_right _ List.mem_cons_self
  unfold parseExtension at parsed
  dsimp only at parsed
  split at parsed
  · rename_i sni
    obtain ⟨_,parsed⟩ := Option.ite_none_left_eq_some.mp parsed
    obtain ⟨hostLen,_,parsed⟩ := Option.bind_eq_some_iff.mp parsed
    obtain ⟨_,parsed⟩ := Option.ite_none_left_eq_some.mp parsed
    have kept := @FoundIn.more _ _ ⟨extType,cursor,extEnd⟩ _ known
      ⟨fun other => absurd (sni.symm.trans other) (by decide),fun other => absurd (sni.symm.trans other) (by decide)⟩
    cases Option.some.inj parsed
    exact ⟨kept.keyShare,kept.auxiliary,kept.ech,kept.parsed⟩
  · split at parsed
    · rename_i keyShare
      obtain ⟨long,parsed⟩ := Option.ite_none_left_eq_some.mp parsed
      obtain ⟨shares,walked,key,auxiliary,ech⟩ := parseSharesFound parsed
      have kept := @FoundIn.more _ _ ⟨extType,cursor,extEnd⟩ _ known
        ⟨fun _ => ⟨by dsimp only; omega,shares,walked⟩,fun other => absurd (keyShare.symm.trans other) (by decide)⟩
      have here {range} (member : range ∈ shares) : ShareOf b (entries ++ [⟨extType,cursor,extEnd⟩]) range :=
        ⟨_,last,keyShare,shares,walked,member⟩
      refine ⟨?_,?_,?_,kept.parsed⟩
      · intro range found
        exact (key range found).elim (kept.keyShare range) here
      · intro range found
        exact (auxiliary range found).elim (kept.auxiliary range) here
      · intro e found
        exact kept.ech e (ech.symm.trans found)
    · rename_i notShare
      split at parsed
      · rename_i isEch
        obtain ⟨ech,ranges,parsed⟩ := Option.bind_eq_some_iff.mp parsed
        unfold parseEchGreaseRanges at ranges
        obtain ⟨some',ranges⟩ := Option.ite_none_left_eq_some.mp ranges
        obtain ⟨outer,ranges⟩ := Option.ite_none_left_eq_some.mp ranges
        obtain ⟨triple,there,rfl⟩ := Option.map_eq_some_iff.mp ranges
        have kept := @FoundIn.more _ _ ⟨extType,cursor,extEnd⟩ _ known
          ⟨fun other => absurd other notShare,fun _ => ⟨Nat.not_le.mp some',not_not.mp outer,triple,there⟩⟩
        cases Option.some.inj parsed
        refine ⟨kept.keyShare,kept.auxiliary,fun e same => ?_,kept.parsed⟩
        cases Option.some.inj same
        exact ⟨_,last,isEch,not_not.mp outer,there⟩
      · rename_i notEch
        cases Option.some.inj parsed
        exact known.more ⟨fun other => absurd other notShare,fun other => absurd other notEch⟩

theorem parseExtensionsFound {extensionsEnd fuel cursor : Nat} {before : List Entry} {found found' : Found}
    (known : FoundIn b before found) (parsed : parseExtensions b extensionsEnd fuel cursor found = some found') :
    ∃ entries, walkEntries b extensionsEnd fuel cursor = some entries ∧ FoundIn b (before ++ entries) found' := by
  induction fuel generalizing cursor before found with
  | zero =>
    cases Option.some.inj parsed
    exact ⟨[],rfl,by rwa [List.append_nil]⟩
  | succ fuel ih =>
    rw [parseExtensions] at parsed
    rw [walkEntries]
    by_cases more : cursor + 4 ≤ extensionsEnd
    · rw [if_pos more] at parsed ⊢
      obtain ⟨extType,readType,parsed⟩ := Option.bind_eq_some_iff.mp parsed
      obtain ⟨extLen,readLen,parsed⟩ := Option.bind_eq_some_iff.mp parsed
      obtain ⟨_,rfl⟩ := readU16Some readType
      obtain ⟨_,rfl⟩ := readU16Some readLen
      obtain ⟨inside,parsed⟩ := Option.ite_none_left_eq_some.mp parsed
      obtain ⟨middle,one,parsed⟩ := Option.bind_eq_some_iff.mp parsed
      rw [Nat.add_assoc] at inside one parsed
      obtain ⟨entries,walked,all⟩ := ih (parseExtensionFound known one) parsed
      dsimp only
      rw [if_neg inside,walked]
      refine ⟨_,rfl,?_⟩
      rwa [List.append_assoc] at all
    · rw [if_neg more] at parsed ⊢
      cases Option.some.inj parsed
      exact ⟨[],rfl,by rwa [List.append_nil]⟩

structure EntryOk (b : Bytes) (cursor extensionsEnd : Nat) (e : Entry) : Prop where
  after : cursor ≤ e.start
  header : e.start + 4 ≤ e.stop
  within : e.stop ≤ extensionsEnd
  extType : e.extType = u16At b e.start
  stop : e.stop = e.start + (4 + u16At b (e.start + 2))

theorem walkEntriesOk {extensionsEnd fuel cursor : Nat} {entries : List Entry}
    (walked : walkEntries b extensionsEnd fuel cursor = some entries) :
    (∀ e ∈ entries, EntryOk b cursor extensionsEnd e) ∧ entries.Pairwise (fun e later => e.stop ≤ later.start) := by
  induction fuel generalizing cursor entries with
  | zero =>
    cases Option.some.inj walked
    exact ⟨fun e member => by contradiction,.nil⟩
  | succ fuel ih =>
    rw [walkEntries] at walked
    by_cases more : cursor + 4 ≤ extensionsEnd
    · rw [if_pos more] at walked
      dsimp only at walked
      obtain ⟨inside,walked⟩ := Option.ite_none_left_eq_some.mp walked
      obtain ⟨rest,walkedRest,rfl⟩ := Option.map_eq_some_iff.mp walked
      obtain ⟨each,apart⟩ := ih walkedRest
      constructor
      · intro e member
        rcases List.mem_cons.mp member with rfl | later
        · refine ⟨Nat.le_refl _,?_,Nat.not_lt.mp inside,rfl,rfl⟩
          exact Nat.add_le_add_left (Nat.le_add_right _ _) _
        · have ok := each e later
          exact ⟨by have := ok.after; omega,ok.header,ok.within,ok.extType,ok.stop⟩
      · exact List.pairwise_cons.mpr ⟨fun e later => (each e later).after,apart⟩
    · rw [if_neg more] at walked
      cases Option.some.inj walked
      exact ⟨fun e member => by contradiction,.nil⟩

structure ShareOk (b : Bytes) (cursor extEnd : Nat) (range : Range) : Prop where
  after : cursor + 4 ≤ range.1
  ordered : range.2 = range.1 + u16At b (range.1 - 2)
  within : range.2 ≤ extEnd

theorem shareRangesOk {extEnd fuel cursor : Nat} {shares : List Range}
    (walked : shareRanges b extEnd fuel cursor = some shares) :
    (∀ range ∈ shares, ShareOk b cursor extEnd range) ∧ shares.Pairwise (fun range later => range.2 + 4 ≤ later.1) := by
  induction fuel generalizing cursor shares with
  | zero =>
    cases Option.some.inj walked
    exact ⟨fun e member => by contradiction,.nil⟩
  | succ fuel ih =>
    rw [shareRanges] at walked
    by_cases more : cursor + 4 ≤ extEnd
    · rw [if_pos more] at walked
      dsimp only at walked
      obtain ⟨inside,walked⟩ := Option.ite_none_left_eq_some.mp walked
      obtain ⟨rest,walkedRest,rfl⟩ := Option.map_eq_some_iff.mp walked
      obtain ⟨each,apart⟩ := ih walkedRest
      constructor
      · intro range member
        rcases List.mem_cons.mp member with rfl | later
        · refine ⟨Nat.le_refl _,?_,by omega⟩
          rw [show cursor + 4 - 2 = cursor + 2 by omega]
        · have ok := each range later
          exact ⟨by have := ok.after; omega,ok.ordered,ok.within⟩
      · exact List.pairwise_cons.mpr ⟨fun range later => (each range later).after,apart⟩
    · rw [if_neg more] at walked
      cases Option.some.inj walked
      exact ⟨fun e member => by contradiction,.nil⟩

theorem echRangesOk {start stop configId : Nat} {enc payload : Range}
    (found : echVariableFieldRanges b (start,stop) = some (configId,enc,payload)) :
    configId = start + 5 ∧ enc = (start + 8,start + 8 + u16At b (start + 6)) ∧ payload = (enc.2 + 2,stop) ∧
    stop = enc.2 + 2 + u16At b enc.2 := by
  unfold echVariableFieldRanges at found
  obtain ⟨_,found⟩ := Option.ite_none_left_eq_some.mp found
  obtain ⟨_,found⟩ := Option.ite_none_left_eq_some.mp found
  dsimp only at found
  obtain ⟨_,found⟩ := Option.ite_none_left_eq_some.mp found
  obtain ⟨whole,found⟩ := Option.ite_none_left_eq_some.mp found
  have last := not_not.mp whole
  cases Option.some.inj found
  exact ⟨rfl,rfl,by rw [last],last.symm⟩

structure Placed (b : Bytes) (layout : ClientHelloLayout) (entries : List Entry) : Prop where
  ranges : clientHelloRandomAndSessionIdRanges b = some ((11,43),layout.sessionIdRange)
  session : layout.sessionIdRange = (44,44 + (byteAt b 43).toNat)
  suites : layout.cipherSuitesRange =
    (layout.sessionIdRange.2 + 2,layout.sessionIdRange.2 + 2 + u16At b layout.sessionIdRange.2)
  extensionsLen : layout.extensionsLenRange = (layout.cipherSuitesRange.2 + 1 + (byteAt b layout.cipherSuitesRange.2).toNat,
    layout.cipherSuitesRange.2 + 1 + (byteAt b layout.cipherSuitesRange.2).toNat + 2)
  fits : layout.extensionsLenRange.2 + u16At b layout.extensionsLenRange.1 ≤ b.length
  walked : walkEntries b (layout.extensionsLenRange.2 + u16At b layout.extensionsLenRange.1) b.length
    layout.extensionsLenRange.2 = some entries
  keyShare : ShareOf b entries layout.keyShareRange
  auxiliary : ∀ range ∈ layout.auxiliaryKeyShareRanges, ShareOf b entries range
  ech : ∀ ech, layout.echGreaseRanges = some ech → EchOf b entries ech
  parsed : ∀ e ∈ entries, EntryParsed b e

theorem rangesSome {random session : Range} (found : clientHelloRandomAndSessionIdRanges b = some (random,session)) :
    5 + 44 ≤ b.length ∧ byteAt b 0 = 0x16 ∧ byteAt b 5 = 0x01 ∧ random = (11,43) ∧
    session = (44,44 + (byteAt b 43).toNat) ∧ session.2 ≤ b.length := by
  unfold clientHelloRandomAndSessionIdRanges at found
  obtain ⟨long,found⟩ := Option.ite_none_left_eq_some.mp found
  obtain ⟨first,found⟩ := Option.ite_none_left_eq_some.mp found
  obtain ⟨fifth,found⟩ := Option.ite_none_left_eq_some.mp found
  dsimp only at found
  obtain ⟨fits,found⟩ := Option.ite_none_left_eq_some.mp found
  cases Option.some.inj found
  exact ⟨by omega,not_not.mp first,not_not.mp fifth,rfl,rfl,Nat.not_lt.mp fits⟩

theorem layoutPlaced {layout : ClientHelloLayout} (parsed : parseClientHelloLayout b = some layout) :
    ∃ entries, Placed b layout entries := by
  unfold parseClientHelloLayout at parsed
  obtain ⟨⟨random,session⟩,ranges,parsed⟩ := Option.bind_eq_some_iff.mp parsed
  obtain ⟨_,_,_,rfl,isSession,_⟩ := rangesSome ranges
  obtain ⟨_,parsed⟩ := Option.ite_none_left_eq_some.mp parsed
  obtain ⟨suitesLen,readSuites,parsed⟩ := Option.bind_eq_some_iff.mp parsed
  obtain ⟨_,rfl⟩ := readU16Some readSuites
  obtain ⟨_,parsed⟩ := Option.ite_none_left_eq_some.mp parsed
  obtain ⟨extensionsLen,readExtensions,parsed⟩ := Option.bind_eq_some_iff.mp parsed
  obtain ⟨_,rfl⟩ := readU16Some readExtensions
  obtain ⟨fits,parsed⟩ := Option.ite_none_left_eq_some.mp parsed
  obtain ⟨found,ran,parsed⟩ := Option.bind_eq_some_iff.mp parsed
  obtain ⟨keyShare,hasKey,parsed⟩ := Option.bind_eq_some_iff.mp parsed
  obtain ⟨sni,_,parsed⟩ := Option.bind_eq_some_iff.mp parsed
  obtain ⟨sniExtLen,_,parsed⟩ := Option.bind_eq_some_iff.mp parsed
  obtain ⟨sniListLen,_,parsed⟩ := Option.bind_eq_some_iff.mp parsed
  obtain ⟨sniNameLen,_,parsed⟩ := Option.bind_eq_some_iff.mp parsed
  have none : FoundIn b [] {} := ⟨fun _ no => by contradiction,fun _ no => by contradiction,fun _ no => by contradiction,
    fun _ no => by contradiction⟩
  obtain ⟨entries,walked,all⟩ := parseExtensionsFound none ran
  rw [List.nil_append] at all
  cases Option.some.inj parsed
  exact ⟨entries,ranges,isSession,rfl,rfl,Nat.not_lt.mp fits,walked,all.keyShare _ hasKey,all.auxiliary,all.ech,all.parsed⟩

theorem templatePlaced {sni raw : Bytes} {fingerprint : Option (List Char)} {t : ClientHelloTemplate}
    (built : buildClientHelloTemplate sni fingerprint raw = some t) :
    ∃ layout entries, Placed t.bytes layout entries ∧ 32 ≤ layout.sessionIdRange.2 - layout.sessionIdRange.1 ∧
      layout.keyShareRange.2 - layout.keyShareRange.1 = 32 ∧ t.cipherSuitesRange = layout.cipherSuitesRange ∧
      t.keyShareRange = layout.keyShareRange ∧ t.auxiliaryKeyShareRanges = layout.auxiliaryKeyShareRanges ∧
      t.extensionsLenRange = layout.extensionsLenRange ∧ t.echGreaseRanges = layout.echGreaseRanges := by
  unfold buildClientHelloTemplate at built
  obtain ⟨_,_,built⟩ := Option.bind_eq_some_iff.mp built
  obtain ⟨stripped,_,built⟩ := Option.bind_eq_some_iff.mp built
  obtain ⟨first,parsedFirst,built⟩ := Option.bind_eq_some_iff.mp built
  obtain ⟨⟨bytes,layout⟩,patched,built⟩ := Option.bind_eq_some_iff.mp built
  have parsed : parseClientHelloLayout bytes = some layout := by
    unfold patchSni at patched
    split at patched
    · cases Option.some.inj patched
      exact parsedFirst
    · obtain ⟨patchedBytes,_,patched⟩ := Option.bind_eq_some_iff.mp patched
      obtain ⟨again,parsedAgain,patched⟩ := Option.bind_eq_some_iff.mp patched
      cases Option.some.inj patched
      exact parsedAgain
  obtain ⟨_,_,built⟩ := Option.bind_eq_some_iff.mp built
  obtain ⟨_,_,built⟩ := Option.bind_eq_some_iff.mp built
  obtain ⟨session,built⟩ := Option.ite_none_left_eq_some.mp built
  obtain ⟨keyShare,built⟩ := Option.ite_none_left_eq_some.mp built
  cases Option.some.inj built
  obtain ⟨entries,placed⟩ := layoutPlaced parsed
  exact ⟨layout,entries,placed,Nat.not_lt.mp session,not_not.mp keyShare,rfl,rfl,rfl,rfl,rfl⟩

end Parse

end KanoTls.Hello
