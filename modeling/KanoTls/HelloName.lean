import KanoTls.HelloRelocate
import KanoTls.Text

/-! `extract_client_hello_server_name` on the hellos of a template: the server takes the
first name it can read, the builder patches the last one. -/
namespace KanoTls.Hello
open Uot Wire Patch Text

/- The closure: what is found so far, and whether an extension was malformed. -/
def nameVisit (record : Bytes) (seen : Option Text × Bool) (e : Entry) : Option Text × Bool :=
  let extData := e.start + 4
  if e.extType ≠ 0x0000 ∨ seen.1.isSome ∨ seen.2 then seen
  else if e.stop - extData < 5 then (seen.1,true)
  else if byteAt record (extData + 2) ≠ 0x00 then (seen.1,true)
  else
    let hostStart := extData + 5
    let hostEnd := hostStart + u16At record (extData + 3)
    if hostEnd > e.stop then (seen.1,true) else (fromUtf8 (slice record hostStart hostEnd),seen.2)

def extractClientHelloServerName (record : Bytes) : Option Text := do
  let (_,entries) ← walkClientHelloExtensions record
  let seen := entries.foldl (nameVisit record) (none,false)
  if seen.2 then none else seen.1

def namesIn (b : Bytes) (entries : List Entry) : List (UInt8 × Bytes) :=
  (serverNames entries).map (fun e => (byteAt b (e.start + 6),slice b (nameRange b e).1 (nameRange b e).2))

def firstName : List (UInt8 × Bytes) → Option Text
  | [] => none
  | (kind,name)::rest => if kind ≠ 0 then none else (fromUtf8 name).or (firstName rest)

section Extract
variable {b : Bytes} {entries : List Entry}

theorem visitSettled (seen : Option Text × Bool) (settled : seen.1.isSome = true ∨ seen.2 = true) :
    entries.foldl (nameVisit b) seen = seen := by
  induction entries with
  | nil => rfl
  | cons e rest ih =>
    have same : nameVisit b seen e = seen := if_pos (.inr settled)
    rw [List.foldl_cons,same,ih]

theorem visitOne {e : Entry} (isName : e.extType = 0x0000) (fits : (nameRange b e).2 ≤ e.stop) :
    nameVisit b (none,false) e = if byteAt b (e.start + 6) ≠ 0x00 then (none,true)
      else (fromUtf8 (slice b (nameRange b e).1 (nameRange b e).2),false) := by
  have fresh : ¬ (e.extType ≠ 0x0000 ∨ (none : Option Text).isSome = true ∨ false = true) := by simp [isName]
  have long : ¬ e.stop - (e.start + 4) < 5 := by
    dsimp only [nameRange] at fits
    omega
  have inside : ¬ e.start + 4 + 5 + u16At b (e.start + 4 + 3) > e.stop := Nat.not_lt.mpr fits
  unfold nameVisit
  dsimp only
  rw [if_neg fresh,if_neg long,if_neg inside]
  rfl

theorem visitNames (whole : ∀ e ∈ serverNames entries, (nameRange b e).2 ≤ e.stop) :
    (if (entries.foldl (nameVisit b) (none,false)).2 then none else (entries.foldl (nameVisit b) (none,false)).1) =
      firstName (namesIn b entries) := by
  induction entries with
  | nil => rfl
  | cons e rest ih =>
    rw [List.foldl_cons]
    by_cases isName : e.extType = 0x0000
    · have own : serverNames (e::rest) = e::serverNames rest := List.filter_cons_of_pos (by rw [isName]; rfl)
      have later := ih (fun other member => whole other (by rw [own]; exact List.mem_cons_of_mem _ member))
      have fits := whole e (by rw [own]; exact List.mem_cons_self)
      rw [visitOne isName fits,namesIn,own,List.map_cons,firstName]
      by_cases host : byteAt b (e.start + 6) = 0x00
      · rw [if_neg (not_not.mpr host),if_neg (not_not.mpr host)]
        cases fromUtf8 (slice b (nameRange b e).1 (nameRange b e).2) with
        | none => exact later
        | some name =>
          rw [visitSettled (some name,false) (.inl rfl)]
          rfl
      · rw [if_pos host,if_pos host,visitSettled (none,true) (.inr rfl)]
        rfl
    · have other : serverNames (e::rest) = serverNames rest := List.filter_cons_of_neg (by simp [isName])
      have same : nameVisit b (none,false) e = (none,false) := if_pos (.inl isName)
      rw [same,namesIn,other]
      exact ih (fun e member => whole e (by rw [other]; exact member))

theorem nameHard {layout : ClientHelloLayout} {e : Entry} {i : Nat} (placed : Placed b layout entries) (member : e ∈ entries)
    (isName : e.extType = 0x0000) (after : e.start ≤ i) (before : i < e.stop) : ¬ Soft b layout entries i := by
  intro soft
  cases softOwn placed member after before soft with
  | type grease here =>
    rw [isName] at grease
    exact absurd grease (by decide)
  | item unit grease here =>
    rcases (itemsInside b e unit).1 with ⟨groups,_⟩ | ⟨versions,_⟩
    · exact absurd (isName.symm.trans groups) (by decide)
    · exact absurd (isName.symm.trans versions) (by decide)
  | share keyShare walked inShares here => exact absurd (isName.symm.trans keyShare) (by decide)
  | ech isEch found here => exact absurd (isName.symm.trans isEch) (by decide)

theorem twinServerNames {w : Bytes} {layout : ClientHelloLayout} (placed : Placed b layout entries)
    (twin : Twin b layout entries w) : serverNames (entries.map (retype w)) = serverNames entries := by
  have same : ∀ e ∈ entries, decide ((retype w e).extType = 0x0000) = decide (e.extType = 0x0000) := by
    intro e member
    cases grease : isGreaseValue e.extType with
    | true =>
      have own := grease
      rw [(entryBounds placed member).extType] at own
      have still := twin.grease e.start (.type member rfl) own
      have never {value : Nat} (isGrease : isGreaseValue value = true) : value ≠ 0x0000 := by
        rintro rfl
        exact absurd isGrease (by decide)
      have other : (retype w e).extType ≠ 0x0000 := never still
      rw [decide_eq_false other,decide_eq_false (never grease)]
    | false => rw [retypePlain placed twin.toLike member grease]
  have filtered : entries.filter ((fun e => decide (e.extType = 0x0000)) ∘ retype w) =
      entries.filter (fun e => decide (e.extType = 0x0000)) := List.filter_congr same
  rw [serverNames,List.filter_map,serverNames,filtered]
  refine (List.map_congr_left (fun e member => ?_)).trans (List.map_id _)
  obtain ⟨inside,isName⟩ := List.mem_filter.mp member
  have isName : e.extType = 0x0000 := of_decide_eq_true isName
  exact retypePlain placed twin.toLike inside (by rw [isName]; decide)

theorem twinNames {w : Bytes} {layout : ClientHelloLayout} (placed : Placed b layout entries)
    (whole : ∀ e ∈ serverNames entries, (nameRange b e).2 ≤ e.stop) (twin : Twin b layout entries w) :
    extractClientHelloServerName w = firstName (namesIn b entries) := by
  have bone {e : Entry} (member : e ∈ serverNames entries) {i : Nat} (after : e.start ≤ i) (before : i < e.stop) :
      w[i]? = b[i]? := by
    obtain ⟨inside,isName⟩ := List.mem_filter.mp member
    exact twin.bone i (nameHard placed inside (of_decide_eq_true isName) after before)
  have range {e : Entry} (member : e ∈ serverNames entries) : nameRange w e = nameRange b e := by
    have fits := whole e member
    dsimp only [nameRange] at fits ⊢
    rw [u16Same (bone member (by omega) (by omega)) (bone member (by omega) (by omega))]
  have names : namesIn w (entries.map (retype w)) = namesIn b entries := by
    rw [namesIn,twinServerNames placed twin,namesIn]
    refine List.map_congr_left (fun e member => ?_)
    have fits := whole e member
    rw [range member,byteSame (bone member (by omega) (by dsimp only [nameRange] at fits; omega))]
    congr 1
    apply sliceExt
    intro i after before
    dsimp only [nameRange] at after
    exact bone member (by omega) (by omega)
  unfold extractClientHelloServerName
  rw [likeExtensions placed twin.toLike,← names]
  refine visitNames (fun e member => ?_)
  rw [twinServerNames placed twin] at member
  rw [range member]
  exact whole e member

end Extract

section Template
variable {b sni out : Bytes} {layout layout' : ClientHelloLayout} {entries entries' : List Entry} {e : Entry}

theorem patchedNames (named : Named b layout entries e) (patched : Patched b layout e sni out)
    (placed' : Placed out layout' entries') :
    ∃ front kind old, namesIn b entries = front ++ [(kind,old)] ∧ namesIn out entries' = front ++ [(kind,sni)] := by
  obtain ⟨inside,front,start,whole,fits⟩ := namedBounds named
  have behind := extensionsBehind named.placed
  obtain ⟨before,split⟩ : ∃ before, serverNames entries = before ++ [e] := List.getLast?_eq_some_iff.mp named.last
  have earlier : ∀ other ∈ before, other ∈ serverNames entries ∧ other.stop ≤ e.start := by
    intro other member
    have apart := ((walkEntriesOk named.placed.walked).2).filter (fun e => decide (e.extType = 0x0000))
    change (serverNames entries).Pairwise _ at apart
    rw [split] at apart ⊢
    exact ⟨List.mem_append_left _ member,(List.pairwise_append.mp apart).2.2 other member e List.mem_cons_self⟩
  have moved : serverNames entries' = (serverNames entries).map (relocate (shifted e (u16At b (e.start + 7)) sni.length)) := by
    rw [patchedEntries named patched placed',serverNames,List.filter_map,serverNames]
    rfl
  have kept {i : Nat} (far : layout.extensionsLenRange.2 ≤ i) (near : i < e.start + 2) := patchedKept named patched far near
  refine ⟨_,_,_,by rw [namesIn,split,List.map_append]; rfl,?_⟩
  rw [namesIn,moved,split,List.map_append,List.map_append]
  congr 1
  · rw [List.map_map]
    refine List.map_congr_left (fun other member => ?_)
    obtain ⟨isName,first⟩ := earlier other member
    have bounds := entryBounds named.placed (List.mem_of_mem_filter isName)
    have after := bounds.after
    have header := bounds.header
    have inside := named.whole other isName
    have stays : relocate (shifted e (u16At b (e.start + 7)) sni.length) other = other := by
      rw [relocate,shifted,shifted,if_pos (by omega),if_pos first]
    rw [Function.comp_apply,stays]
    dsimp only [nameRange] at inside ⊢
    rw [byteSame (kept (by omega) (by omega)),u16Same (kept (by omega) (by omega)) (kept (by omega) (by omega))]
    congr 1
    exact sliceExt (fun i after before => kept (by omega) (by omega))
  · have stays : (relocate (shifted e (u16At b (e.start + 7)) sni.length) e).start = e.start := if_pos (Nat.le_refl _)
    rw [List.map_singleton,List.map_singleton,nameRange,stays,patched.nameLen,byteSame patched.nameType]
    dsimp only
    rw [patched.name]

/- The server reads `sni` if the last of these names is replaced by it: no other kind of name
stands in front, and each name in front is no text or `sni` itself. -/
def Reaches (sni : Bytes) : List (UInt8 × Bytes) → Prop
  | [] => False
  | (kind,name)::rest => kind = 0 ∧ (rest = [] ∨ name = sni ∨ (fromUtf8 name = none ∧ Reaches sni rest))

theorem firstReplaced (sni : Text) (front : List (UInt8 × Bytes)) (kind : UInt8) (old : Bytes) :
    firstName (front ++ [(kind,toUtf8 sni)]) = some sni ↔ Reaches (toUtf8 sni) (front ++ [(kind,old)]) := by
  induction front with
  | nil =>
    rw [List.nil_append,List.nil_append,firstName,Reaches,fromToUtf8,Option.some_or]
    by_cases host : kind = 0
    · rw [if_neg (not_not.mpr host)]
      exact ⟨fun _ => ⟨host,.inl rfl⟩,fun _ => rfl⟩
    · rw [if_pos host]
      exact ⟨fun no => by contradiction,fun both => absurd both.1 host⟩
  | cons first rest ih =>
    obtain ⟨kind',name⟩ := first
    have more {last : UInt8 × Bytes} : rest ++ [last] ≠ [] := List.append_ne_nil_of_right_ne_nil _ (List.cons_ne_nil _ _)
    rw [List.cons_append,List.cons_append,firstName,Reaches]
    by_cases host : kind' = 0
    · rw [if_neg (not_not.mpr host)]
      cases decoded : fromUtf8 name with
      | none =>
        rw [Option.none_or,ih]
        constructor
        · exact fun reaches => ⟨host,.inr (.inr ⟨rfl,reaches⟩)⟩
        · rintro ⟨_,none | same | ⟨_,reaches⟩⟩
          · exact absurd none more
          · rw [same,fromToUtf8] at decoded
            contradiction
          · exact reaches
      | some text =>
        rw [Option.some_or]
        constructor
        · intro same
          rw [← Option.some.inj same]
          exact ⟨host,.inr (.inl (fromUtf8Iff.mp decoded))⟩
        · rintro ⟨_,none | same | ⟨no,_⟩⟩
          · exact absurd none more
          · rw [← decoded,same,fromToUtf8]
          · contradiction
    · rw [if_pos host]
      exact ⟨fun no => by contradiction,fun both => absurd both.1 host⟩

end Template

/- Every hello of a template carries the name asked for exactly when the server's reading of
the captured bytes ends at the name that the builder patches. -/
theorem nameCarried (hash : KeyedHash) {sni : Text} {raw : Bytes} {fingerprint : Option (List Char)} {t : ClientHelloTemplate}
    (built : buildClientHelloTemplate (toUtf8 sni) fingerprint raw = some t) {derivedPsk pskE out : Bytes} {counter : Nat}
    {draws : Draws} (ran : instantiate hash t derivedPsk pskE counter draws = some out) :
    extractClientHelloServerName out = some sni ↔
      ∃ start entries, walkClientHelloExtensions raw = some (start,entries) ∧ Reaches (toUtf8 sni) (namesIn raw entries) := by
  obtain ⟨layout,entries,e,_,named,patched,layout1,entries1,e1,named1⟩ := templatePatched built
  obtain ⟨layout2,entries2,placed2,long,_,suites,keyShare,auxiliary,extensions,ech⟩ := templatePlaced built
  have twin := instantiateTwin placed2 long suites keyShare auxiliary extensions ech ran
  have same : entries1 = entries2 :=
    (patchedEntries named patched named1.placed).trans (patchedEntries named patched placed2).symm
  obtain ⟨front,kind,old,before,after⟩ := patchedNames named patched placed2
  rw [twinNames placed2 (same ▸ named1.whole) twin,after,firstReplaced sni front kind old,← before]
  constructor
  · exact fun reaches => ⟨_,entries,placedExtensions named.placed,reaches⟩
  · rintro ⟨start,others,walked,reaches⟩
    cases Option.some.inj (walked.symm.trans (placedExtensions named.placed))
    exact reaches

theorem nameCarriedSample : ∃ t out, buildClientHelloTemplate (toUtf8 ['a','b']) none sampleHello = some t ∧
    instantiate sampleHash t (List.replicate 32 7) (List.replicate 48 4) 0x1234567000001 sampleDraws = some out ∧
    extractClientHelloServerName out = some ['a','b'] := by
  have built : (buildClientHelloTemplate (toUtf8 ['a','b']) none sampleHello).isSome = true := by decide +kernel
  obtain ⟨t,built⟩ := Option.isSome_iff_exists.mp built
  have ran : ((buildClientHelloTemplate (toUtf8 ['a','b']) none sampleHello).bind (fun t =>
      instantiate sampleHash t (List.replicate 32 7) (List.replicate 48 4) 0x1234567000001 sampleDraws)).isSome = true := by
    decide +kernel
  rw [built,Option.bind_some] at ran
  obtain ⟨out,ran⟩ := Option.isSome_iff_exists.mp ran
  have walks : (walkClientHelloExtensions sampleHello).map (fun found => namesIn sampleHello found.2) = some [(0,[0x61])] := by
    decide +kernel
  obtain ⟨⟨start,entries⟩,walked,names⟩ := Option.map_eq_some_iff.mp walks
  dsimp only at names
  refine ⟨t,out,built,ran,(nameCarried sampleHash built ran).mpr ⟨start,entries,walked,?_⟩⟩
  rw [names]
  exact ⟨rfl,.inl rfl⟩

def otherNameType : Bytes := put sampleHello 92 [0x01]

theorem otherNameLost : ∃ t out, buildClientHelloTemplate (toUtf8 ['a']) none otherNameType = some t ∧
    instantiate sampleHash t (List.replicate 32 7) (List.replicate 48 4) 0x1234567000001 sampleDraws = some out ∧
    extractClientHelloServerName out = none := by
  have runs : ((buildClientHelloTemplate (toUtf8 ['a']) none otherNameType).bind (fun t =>
      (instantiate sampleHash t (List.replicate 32 7) (List.replicate 48 4) 0x1234567000001 sampleDraws).bind (fun out =>
        if extractClientHelloServerName out = none then some () else none))).isSome = true := by
    decide +kernel
  obtain ⟨_,runs⟩ := Option.isSome_iff_exists.mp runs
  obtain ⟨t,built,runs⟩ := Option.bind_eq_some_iff.mp runs
  obtain ⟨out,ran,runs⟩ := Option.bind_eq_some_iff.mp runs
  exact ⟨t,out,built,ran,(Option.ite_none_right_eq_some.mp runs).1⟩

end KanoTls.Hello
