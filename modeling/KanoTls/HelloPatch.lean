import KanoTls.HelloTwin
import KanoTls.Chunks

/-! `set_sni_in_place` on the layout of its own bytes: the record is cut at the name and at
the lengths around it, and each write changes one of the pieces. -/
namespace KanoTls.Hello
open Uot Wire Patch Chunks

/- The walk of `walk_client_hello_extensions` without fuel. -/
inductive Walk (b : Bytes) (extensionsEnd : Nat) : Nat → List Entry → Prop where
  | done {cursor : Nat} (last : extensionsEnd < cursor + 4) : Walk b extensionsEnd cursor []
  | step {cursor extEnd : Nat} {rest : List Entry} (more : cursor + 4 ≤ extensionsEnd)
      (size : extEnd = cursor + (4 + u16At b (cursor + 2))) (inside : extEnd ≤ extensionsEnd)
      (later : Walk b extensionsEnd extEnd rest) : Walk b extensionsEnd cursor (⟨u16At b cursor,cursor,extEnd⟩::rest)

section Walks
variable {b : Bytes} {extensionsEnd fuel cursor : Nat} {entries : List Entry}

theorem walkOfEntries (enough : extensionsEnd < cursor + 4 + fuel)
    (walked : walkEntries b extensionsEnd fuel cursor = some entries) : Walk b extensionsEnd cursor entries := by
  induction fuel generalizing cursor entries with
  | zero =>
    cases Option.some.inj walked
    exact .done enough
  | succ fuel ih =>
    rw [walkEntries] at walked
    by_cases more : cursor + 4 ≤ extensionsEnd
    · rw [if_pos more] at walked
      obtain ⟨inside,walked⟩ := Option.ite_none_left_eq_some.mp walked
      obtain ⟨rest,walkedRest,rfl⟩ := Option.map_eq_some_iff.mp walked
      exact .step more rfl (Nat.not_lt.mp inside) (ih (by omega) walkedRest)
    · rw [if_neg more] at walked
      cases Option.some.inj walked
      exact .done (Nat.not_le.mp more)

theorem Walk.listed (walk : Walk b extensionsEnd cursor entries) (enough : extensionsEnd < cursor + 4 + fuel) :
    walkEntries b extensionsEnd fuel cursor = some entries := by
  induction walk generalizing fuel with
  | done last =>
    cases fuel with
    | zero => rfl
    | succ fuel => exact if_neg (Nat.not_le.mpr last)
  | step more size inside later ih =>
    cases fuel with
    | zero => omega
    | succ fuel =>
      have rest := @ih fuel (by omega)
      rw [walkEntries,if_pos more]
      dsimp only
      rw [← size,if_neg (Nat.not_lt.mpr inside),rest]
      rfl

def relocate (f : Nat → Nat) (e : Entry) : Entry := ⟨e.extType,f e.start,f e.stop⟩

structure Headed (w : Bytes) (extensionsEnd : Nat) (f : Nat → Nat) (e : Entry) : Prop where
  extType : u16At w (f e.start) = e.extType
  size : f e.stop = f e.start + (4 + u16At w (f e.start + 2))
  within : f e.stop ≤ extensionsEnd

theorem Walk.relocated {w : Bytes} {end' : Nat} {f : Nat → Nat} (walk : Walk b extensionsEnd cursor entries)
    (each : ∀ e ∈ entries, Headed w end' f e) (edge : ∀ p, extensionsEnd < p + 4 → end' < f p + 4) :
    Walk w end' (f cursor) (entries.map (relocate f)) := by
  induction walk with
  | done last => exact .done (edge _ last)
  | @step cursor extEnd rest more size inside later ih =>
    have here := each _ List.mem_cons_self
    have moved := ih (fun e member => each e (List.mem_cons_of_mem _ member))
    have isType : u16At w (f cursor) = u16At b cursor := here.extType
    have isSize : f extEnd = f cursor + (4 + u16At w (f cursor + 2)) := here.size
    have within : f extEnd ≤ end' := here.within
    rw [List.map_cons,relocate,← isType]
    exact .step (by omega) isSize within moved

end Walks

def serverNames (entries : List Entry) : List Entry := entries.filter (fun e => e.extType = 0x0000)

def nameRange (b : Bytes) (e : Entry) : Range := (e.start + 9,e.start + 9 + u16At b (e.start + 7))

structure NamesFound (b : Bytes) (entries : List Entry) (found : Found) : Prop where
  sni : found.sni = (serverNames entries).getLast?.map (nameRange b)
  extLen : found.sniExtLen = (serverNames entries).getLast?.map (fun e => (e.start + 2,e.start + 4))
  listLen : found.sniListLen = (serverNames entries).getLast?.map (fun e => (e.start + 4,e.start + 6))
  nameLen : found.sniNameLen = (serverNames entries).getLast?.map (fun e => (e.start + 7,e.start + 9))
  whole : ∀ e ∈ serverNames entries, (nameRange b e).2 ≤ e.stop

def Found.SameNames (found found' : Found) : Prop :=
  found'.sni = found.sni ∧ found'.sniExtLen = found.sniExtLen ∧ found'.sniListLen = found.sniListLen ∧
    found'.sniNameLen = found.sniNameLen

section Names
variable {b : Bytes} {entries : List Entry} {found found' : Found} {e : Entry}

theorem NamesFound.other (known : NamesFound b entries found) (same : found.SameNames found') (other : e.extType ≠ 0x0000) :
    NamesFound b (entries ++ [e]) found' := by
  have none : serverNames (entries ++ [e]) = serverNames entries := by
    simp [serverNames,List.filter_append,other]
  obtain ⟨sni,extLen,listLen,nameLen⟩ := same
  constructor
  · rw [none,sni,known.sni]
  · rw [none,extLen,known.extLen]
  · rw [none,listLen,known.listLen]
  · rw [none,nameLen,known.nameLen]
  · rw [none]
    exact known.whole

theorem parseSharesNames {extEnd fuel cursor : Nat} (parsed : parseShares b extEnd fuel cursor found = some found') :
    found.SameNames found' := by
  induction fuel generalizing cursor found with
  | zero =>
    cases Option.some.inj parsed
    exact ⟨rfl,rfl,rfl,rfl⟩
  | succ fuel ih =>
    rw [parseShares] at parsed
    by_cases more : cursor + 4 ≤ extEnd
    · rw [if_pos more] at parsed
      obtain ⟨group,_,parsed⟩ := Option.bind_eq_some_iff.mp parsed
      obtain ⟨shareLen,_,parsed⟩ := Option.bind_eq_some_iff.mp parsed
      obtain ⟨_,parsed⟩ := Option.ite_none_left_eq_some.mp parsed
      split at parsed
      · have later := ih parsed
        exact later
      · have later := ih parsed
        exact later
    · rw [if_neg more] at parsed
      cases Option.some.inj parsed
      exact ⟨rfl,rfl,rfl,rfl⟩

theorem parseExtensionNames {extType cursor extEnd : Nat} (known : NamesFound b entries found)
    (parsed : parseExtension b extType cursor extEnd found = some found') :
    NamesFound b (entries ++ [⟨extType,cursor,extEnd⟩]) found' := by
  unfold parseExtension at parsed
  dsimp only at parsed
  split at parsed
  · rename_i sni
    obtain ⟨_,parsed⟩ := Option.ite_none_left_eq_some.mp parsed
    obtain ⟨hostLen,read,parsed⟩ := Option.bind_eq_some_iff.mp parsed
    obtain ⟨_,rfl⟩ := readU16Some read
    obtain ⟨inside,parsed⟩ := Option.ite_none_left_eq_some.mp parsed
    have last : serverNames (entries ++ [⟨extType,cursor,extEnd⟩]) = serverNames entries ++ [⟨extType,cursor,extEnd⟩] := by
      simp [serverNames,List.filter_append,sni]
    cases Option.some.inj parsed
    refine ⟨?_,?_,?_,?_,?_⟩
    · rw [last,List.getLast?_concat]
      rfl
    · rw [last,List.getLast?_concat]
      rfl
    · rw [last,List.getLast?_concat]
      rfl
    · rw [last,List.getLast?_concat]
      rfl
    · intro e member
      rw [last] at member
      rcases List.mem_append.mp member with before | here
      · exact known.whole e before
      · cases List.mem_singleton.mp here
        exact Nat.not_lt.mp inside
  · rename_i other
    split at parsed
    · obtain ⟨_,parsed⟩ := Option.ite_none_left_eq_some.mp parsed
      exact known.other (parseSharesNames parsed) other
    · split at parsed
      · obtain ⟨ech,_,parsed⟩ := Option.bind_eq_some_iff.mp parsed
        cases Option.some.inj parsed
        exact known.other ⟨rfl,rfl,rfl,rfl⟩ other
      · cases Option.some.inj parsed
        exact known.other ⟨rfl,rfl,rfl,rfl⟩ other

theorem parseExtensionsNames {extensionsEnd fuel cursor : Nat} {before : List Entry} (known : NamesFound b before found)
    (parsed : parseExtensions b extensionsEnd fuel cursor found = some found')
    (walked : walkEntries b extensionsEnd fuel cursor = some entries) : NamesFound b (before ++ entries) found' := by
  induction fuel generalizing cursor before found entries with
  | zero =>
    cases Option.some.inj parsed
    cases Option.some.inj walked
    rwa [List.append_nil]
  | succ fuel ih =>
    rw [parseExtensions] at parsed
    rw [walkEntries] at walked
    by_cases more : cursor + 4 ≤ extensionsEnd
    · rw [if_pos more] at parsed walked
      obtain ⟨extType,readType,parsed⟩ := Option.bind_eq_some_iff.mp parsed
      obtain ⟨extLen,readLen,parsed⟩ := Option.bind_eq_some_iff.mp parsed
      obtain ⟨_,rfl⟩ := readU16Some readType
      obtain ⟨_,rfl⟩ := readU16Some readLen
      obtain ⟨_,parsed⟩ := Option.ite_none_left_eq_some.mp parsed
      obtain ⟨middle,one,parsed⟩ := Option.bind_eq_some_iff.mp parsed
      obtain ⟨_,walked⟩ := Option.ite_none_left_eq_some.mp walked
      obtain ⟨rest,walkedRest,rfl⟩ := Option.map_eq_some_iff.mp walked
      rw [Nat.add_assoc] at one parsed
      have all := ih (parseExtensionNames known one) parsed walkedRest
      rwa [List.append_assoc] at all
    · rw [if_neg more] at parsed walked
      cases Option.some.inj parsed
      cases Option.some.inj walked
      rwa [List.append_nil]

end Names

structure Named (b : Bytes) (layout : ClientHelloLayout) (entries : List Entry) (e : Entry) : Prop where
  placed : Placed b layout entries
  last : (serverNames entries).getLast? = some e
  sni : layout.sniRange = nameRange b e
  record : layout.recordLenRange = (3,5)
  handshake : layout.handshakeLenRange = (6,9)
  extLen : layout.sniExtLenRange = (e.start + 2,e.start + 4)
  listLen : layout.sniListLenRange = (e.start + 4,e.start + 6)
  nameLen : layout.sniNameLenRange = (e.start + 7,e.start + 9)
  whole : ∀ e ∈ serverNames entries, (nameRange b e).2 ≤ e.stop

theorem layoutNamed {b : Bytes} {layout : ClientHelloLayout} (parsed : parseClientHelloLayout b = some layout) :
    ∃ entries e, Named b layout entries e := by
  obtain ⟨entries,placed⟩ := layoutPlaced parsed
  have walked := placed.walked
  unfold parseClientHelloLayout at parsed
  obtain ⟨⟨random,session⟩,ranges,parsed⟩ := Option.bind_eq_some_iff.mp parsed
  obtain ⟨_,parsed⟩ := Option.ite_none_left_eq_some.mp parsed
  obtain ⟨suitesLen,readSuites,parsed⟩ := Option.bind_eq_some_iff.mp parsed
  obtain ⟨_,parsed⟩ := Option.ite_none_left_eq_some.mp parsed
  obtain ⟨extensionsLen,readExtensions,parsed⟩ := Option.bind_eq_some_iff.mp parsed
  obtain ⟨_,rfl⟩ := readU16Some readExtensions
  obtain ⟨_,parsed⟩ := Option.ite_none_left_eq_some.mp parsed
  obtain ⟨found,ran,parsed⟩ := Option.bind_eq_some_iff.mp parsed
  obtain ⟨keyShare,_,parsed⟩ := Option.bind_eq_some_iff.mp parsed
  obtain ⟨sni,isSni,parsed⟩ := Option.bind_eq_some_iff.mp parsed
  obtain ⟨extLen,isExtLen,parsed⟩ := Option.bind_eq_some_iff.mp parsed
  obtain ⟨listLen,isListLen,parsed⟩ := Option.bind_eq_some_iff.mp parsed
  obtain ⟨nameLen,isNameLen,parsed⟩ := Option.bind_eq_some_iff.mp parsed
  cases Option.some.inj parsed
  have start : NamesFound b [] {} := ⟨rfl,rfl,rfl,rfl,fun _ no => by contradiction⟩
  have all := parseExtensionsNames start ran walked
  rw [List.nil_append] at all
  rw [all.sni] at isSni
  rw [all.extLen] at isExtLen
  rw [all.listLen] at isListLen
  rw [all.nameLen] at isNameLen
  obtain ⟨e,last,rfl⟩ := Option.map_eq_some_iff.mp isSni
  rw [last] at isExtLen isListLen isNameLen
  exact ⟨entries,e,placed,last,rfl,rfl,rfl,(Option.some.inj isExtLen).symm,(Option.some.inj isListLen).symm,
    (Option.some.inj isNameLen).symm,all.whole⟩

/- A record cut at the lengths that `set_sni_in_place` changes and at the name. -/
structure Cut where
  head : Bytes
  recordLen : Bytes
  kind : Bytes
  handshakeLen : Bytes
  hello : Bytes
  extensionsLen : Bytes
  before : Bytes
  extLen : Bytes
  listLen : Bytes
  nameType : Bytes
  nameLen : Bytes
  name : Bytes
  after : Bytes

namespace Cut

def pieces (c : Cut) : List Bytes :=
  [c.head,c.recordLen,c.kind,c.handshakeLen,c.hello,c.extensionsLen,c.before,c.extLen,c.listLen,c.nameType,c.nameLen,
    c.name,c.after]

def bytes (c : Cut) : Bytes := c.pieces.flatten

structure Sized (c : Cut) : Prop where
  head : c.head.length = 3
  recordLen : c.recordLen.length = 2
  kind : c.kind.length = 1
  handshakeLen : c.handshakeLen.length = 3
  extensionsLen : c.extensionsLen.length = 2
  extLen : c.extLen.length = 2
  listLen : c.listLen.length = 2
  nameType : c.nameType.length = 1
  nameLen : c.nameLen.length = 2

def extStart (c : Cut) : Nat := 9 + c.hello.length + c.before.length

structure Fits (c : Cut) (layout : ClientHelloLayout) : Prop extends Sized c where
  recordAt : layout.recordLenRange = (3,5)
  handshakeAt : layout.handshakeLenRange = (6,9)
  extensionsAt : layout.extensionsLenRange = (9 + c.hello.length,9 + c.hello.length + 2)
  extAt : layout.sniExtLenRange = (c.extStart + 2,c.extStart + 4)
  listAt : layout.sniListLenRange = (c.extStart + 4,c.extStart + 6)
  nameLenAt : layout.sniNameLenRange = (c.extStart + 7,c.extStart + 9)
  nameAt : layout.sniRange = (c.extStart + 9,c.extStart + 9 + c.name.length)

def renamed (c : Cut) (sni : Bytes) : Option Cut :=
  if sni.length > 0xffff then none
  else do
    let delta : Int := sni.length - c.name.length
    let recordLen ← adjustU16 (u16At c.recordLen 0) delta
    let handshakeLen ← adjustU24 (u24At c.handshakeLen 0) delta
    let extensionsLen ← adjustU16 (u16At c.extensionsLen 0) delta
    let extLen ← adjustU16 (u16At c.extLen 0) delta
    let listLen ← adjustU16 (u16At c.listLen 0) delta
    some { c with
      recordLen := toBeBytes recordLen
      handshakeLen := UInt8.ofNat (handshakeLen / 65536)::toBeBytes handshakeLen
      extensionsLen := toBeBytes extensionsLen
      extLen := toBeBytes extLen
      listLen := toBeBytes listLen
      nameLen := toBeBytes sni.length
      name := sni }

end Cut

section Fields
variable {chunks : List Bytes} {k start stop : Nat} {field : Bytes}

theorem byteAtChunk {b : Bytes} {i p : Nat} (whole : b = chunks.flatten) (here : chunks[k]? = some field)
    (inside : i < field.length) (at' : offset chunks k + i = p) : byteAt b p = byteAt field i := by
  rw [whole,← at',byteAt,byteAt,List.getD_eq_getElem?_getD,List.getD_eq_getElem?_getD,chunkAt here inside]

theorem u16AtChunk {b : Bytes} {i p : Nat} (whole : b = chunks.flatten) (here : chunks[k]? = some field)
    (inside : i + 2 ≤ field.length) (at' : offset chunks k + i = p) : u16At b p = u16At field i := by
  have second : byteAt b (p + 1) = byteAt field (i + 1) := byteAtChunk whole here (by omega) (by rw [← at',Nat.add_assoc])
  rw [u16At,u16At,byteAtChunk whole here (by omega) at',second]

theorem readU16Chunk (here : chunks[k]? = some field) (size : field.length = 2) (at' : offset chunks k = start) :
    readU16 chunks.flatten start = some (u16At field 0) := by
  have fits := chunkFits here
  rw [readU16,if_neg (by omega),u16AtChunk rfl here (Nat.le_of_eq size.symm) at']

theorem readU24Chunk (here : chunks[k]? = some field) (size : field.length = 3) (at' : offset chunks k = start) :
    readU24 chunks.flatten start = some (u24At field 0) := by
  have fits := chunkFits here
  have first : byteAt chunks.flatten start = byteAt field 0 := byteAtChunk rfl here (by omega) at'
  have rest : u16At chunks.flatten (start + 1) = u16At field 1 := u16AtChunk rfl here (by omega) (by rw [at'])
  rw [readU24,if_neg (by omega),u24At,u24At,first,rest]

theorem writeU16Chunk (here : chunks[k]? = some field) (size : field.length = 2) (at' : offset chunks k = start)
    (last : start + 2 = stop) (value : Nat) :
    writeU16 chunks.flatten (start,stop) value = some (chunks.set k (toBeBytes value)).flatten := by
  have fits := chunkFits here
  rw [writeU16,if_neg (by dsimp only; omega),← putChunk here (by rw [size]; rfl),at']

theorem writeU24Chunk (here : chunks[k]? = some field) (size : field.length = 3) (at' : offset chunks k = start)
    (last : start + 3 = stop) (value : Nat) : writeU24 chunks.flatten (start,stop) value =
      some (chunks.set k (UInt8.ofNat (value / 65536)::toBeBytes value)).flatten := by
  have fits := chunkFits here
  rw [writeU24,if_neg (by dsimp only; omega),← putChunk here (by rw [size]; rfl),at']

end Fields

namespace Cut
variable {c : Cut}

theorem Sized.offsets (sized : c.Sized) : offset c.pieces 1 = 3 ∧ offset c.pieces 3 = 6 ∧
    offset c.pieces 5 = 9 + c.hello.length ∧ offset c.pieces 7 = c.extStart + 2 ∧ offset c.pieces 8 = c.extStart + 4 ∧
    offset c.pieces 10 = c.extStart + 7 ∧ offset c.pieces 11 = c.extStart + 9 := by
  obtain ⟨head,recordLen,kind,handshakeLen,extensionsLen,extLen,listLen,nameType,nameLen⟩ := sized
  refine ⟨?_,?_,?_,?_,?_,?_,?_⟩ <;>
    simp [offset,pieces,extStart,head,recordLen,kind,handshakeLen,extensionsLen,extLen,listLen,nameType,nameLen] <;>
    clear head recordLen kind handshakeLen extensionsLen extLen listLen nameType nameLen <;> omega

theorem Sized.writes (sized : c.Sized) {front start : Nat} (isFront : 9 + c.hello.length = front)
    (isStart : c.extStart = start) (value : Nat) :
    writeU16 c.bytes (3,5) value = some { c with recordLen := toBeBytes value }.bytes ∧
    writeU24 c.bytes (6,9) value =
      some { c with handshakeLen := UInt8.ofNat (value / 65536)::toBeBytes value }.bytes ∧
    writeU16 c.bytes (front,front + 2) value = some { c with extensionsLen := toBeBytes value }.bytes ∧
    writeU16 c.bytes (start + 2,start + 4) value = some { c with extLen := toBeBytes value }.bytes ∧
    writeU16 c.bytes (start + 4,start + 6) value = some { c with listLen := toBeBytes value }.bytes ∧
    writeU16 c.bytes (start + 7,start + 9) value = some { c with nameLen := toBeBytes value }.bytes := by
  obtain ⟨record,handshake,extensions,ext,list,nameLen,_⟩ := sized.offsets
  rw [isFront] at extensions
  rw [isStart] at ext list nameLen
  exact ⟨@writeU16Chunk c.pieces 1 _ _ _ rfl sized.recordLen record rfl value,
    @writeU24Chunk c.pieces 3 _ _ _ rfl sized.handshakeLen handshake rfl value,
    @writeU16Chunk c.pieces 5 _ _ _ rfl sized.extensionsLen extensions rfl value,
    @writeU16Chunk c.pieces 7 _ _ _ rfl sized.extLen ext rfl value,
    @writeU16Chunk c.pieces 8 _ _ _ rfl sized.listLen list rfl value,
    @writeU16Chunk c.pieces 10 _ _ _ rfl sized.nameLen nameLen rfl value⟩

theorem Sized.rewritten (sized : c.Sized) (record handshake extensions ext list name : Nat) :
    (do
      let bytes ← writeU16 c.bytes (3,5) record
      let bytes ← writeU24 bytes (6,9) handshake
      let bytes ← writeU16 bytes (9 + c.hello.length,9 + c.hello.length + 2) extensions
      let bytes ← writeU16 bytes (c.extStart + 2,c.extStart + 4) ext
      let bytes ← writeU16 bytes (c.extStart + 4,c.extStart + 6) list
      writeU16 bytes (c.extStart + 7,c.extStart + 9) name) =
    some { c with
      recordLen := toBeBytes record
      handshakeLen := UInt8.ofNat (handshake / 65536)::toBeBytes handshake
      extensionsLen := toBeBytes extensions
      extLen := toBeBytes ext
      listLen := toBeBytes list
      nameLen := toBeBytes name }.bytes := by
  have sized1 : { c with recordLen := toBeBytes record }.Sized := { sized with recordLen := rfl }
  have sized2 : { c with
      recordLen := toBeBytes record
      handshakeLen := UInt8.ofNat (handshake / 65536)::toBeBytes handshake }.Sized := { sized1 with handshakeLen := rfl }
  have sized3 : { c with
      recordLen := toBeBytes record
      handshakeLen := UInt8.ofNat (handshake / 65536)::toBeBytes handshake
      extensionsLen := toBeBytes extensions }.Sized := { sized2 with extensionsLen := rfl }
  have sized4 : { c with
      recordLen := toBeBytes record
      handshakeLen := UInt8.ofNat (handshake / 65536)::toBeBytes handshake
      extensionsLen := toBeBytes extensions
      extLen := toBeBytes ext }.Sized := { sized3 with extLen := rfl }
  have sized5 : { c with
      recordLen := toBeBytes record
      handshakeLen := UInt8.ofNat (handshake / 65536)::toBeBytes handshake
      extensionsLen := toBeBytes extensions
      extLen := toBeBytes ext
      listLen := toBeBytes list }.Sized := { sized4 with listLen := rfl }
  have one := (sized.writes rfl rfl record).1
  have two := (sized1.writes rfl rfl handshake).2.1
  have three := (@Sized.writes _ sized2 _ c.extStart rfl rfl extensions).2.2.1
  have four := (@Sized.writes _ sized3 _ c.extStart rfl rfl ext).2.2.2.1
  have five := (@Sized.writes _ sized4 _ c.extStart rfl rfl list).2.2.2.2.1
  have six := (@Sized.writes _ sized5 _ c.extStart rfl rfl name).2.2.2.2.2
  dsimp only [Option.bind_eq_bind]
  rw [one,Option.bind_some,two,Option.bind_some,three,Option.bind_some,four,Option.bind_some,five,Option.bind_some,six]

theorem Sized.reads (sized : c.Sized) : readU16 c.bytes 3 = some (u16At c.recordLen 0) ∧
    readU24 c.bytes 6 = some (u24At c.handshakeLen 0) ∧
    readU16 c.bytes (9 + c.hello.length) = some (u16At c.extensionsLen 0) ∧
    readU16 c.bytes (c.extStart + 2) = some (u16At c.extLen 0) ∧
    readU16 c.bytes (c.extStart + 4) = some (u16At c.listLen 0) := by
  obtain ⟨record,handshake,extensions,ext,list,_,_⟩ := sized.offsets
  exact ⟨@readU16Chunk c.pieces 1 _ _ rfl sized.recordLen record,
    @readU24Chunk c.pieces 3 _ _ rfl sized.handshakeLen handshake,
    @readU16Chunk c.pieces 5 _ _ rfl sized.extensionsLen extensions,
    @readU16Chunk c.pieces 7 _ _ rfl sized.extLen ext,
    @readU16Chunk c.pieces 8 _ _ rfl sized.listLen list⟩

end Cut

/- The reads see the fields as they were, since the name stands behind all of them. -/
theorem setSniCut {c : Cut} {layout : ClientHelloLayout} (fits : c.Fits layout) (sni : Bytes) :
    setSniInPlace c.bytes layout sni = (c.renamed sni).map Cut.bytes := by
  have spliced := @spliceChunk _ c.pieces 11 c.name rfl sni
  rw [fits.offsets.2.2.2.2.2.2] at spliced
  have same : (c.pieces.set 11 sni).flatten = { c with name := sni }.bytes := rfl
  have sized : { c with name := sni }.Sized := { fits.toSized with }
  have start : { c with name := sni }.extStart = c.extStart := rfl
  obtain ⟨record,handshake,extensions,ext,list⟩ := sized.reads
  rw [start] at ext list
  unfold setSniInPlace Cut.renamed
  rw [fits.nameAt,fits.recordAt,fits.handshakeAt,fits.extensionsAt,fits.extAt,fits.listAt,fits.nameLenAt]
  rw [Cut.bytes,spliced]
  by_cases long : sni.length > 0xffff
  · rw [if_pos long,if_pos long]
    rfl
  · rw [if_neg long,if_neg long,same]
    dsimp only
    rw [record,handshake,extensions,ext,list,Nat.add_sub_cancel_left]
    dsimp only [Option.bind_eq_bind,Option.bind_some]
    generalize (sni.length : Int) - (c.name.length : Int) = delta
    cases adjustU16 (u16At c.recordLen 0) delta with
    | none => rfl
    | some recordLen =>
    cases adjustU24 (u24At c.handshakeLen 0) delta with
    | none => rfl
    | some handshakeLen =>
    cases adjustU16 (u16At c.extensionsLen 0) delta with
    | none => rfl
    | some extensionsLen =>
    cases adjustU16 (u16At c.extLen 0) delta with
    | none => rfl
    | some extLen =>
    cases adjustU16 (u16At c.listLen 0) delta with
    | none => rfl
    | some listLen =>
    dsimp only [Option.bind_some,Option.map_some]
    exact sized.rewritten recordLen handshakeLen extensionsLen extLen listLen sni.length

def Cut.of (b : Bytes) (x s n : Nat) : Cut where
  head := b.take 3
  recordLen := slice b 3 5
  kind := slice b 5 6
  handshakeLen := slice b 6 9
  hello := slice b 9 x
  extensionsLen := slice b x (x + 2)
  before := slice b (x + 2) (s + 2)
  extLen := slice b (s + 2) (s + 4)
  listLen := slice b (s + 4) (s + 6)
  nameType := slice b (s + 6) (s + 7)
  nameLen := slice b (s + 7) (s + 9)
  name := slice b (s + 9) n
  after := b.drop n

theorem cutBytes {b : Bytes} {x s n : Nat} (front : 9 ≤ x) (start : x + 2 ≤ s) (name : s + 9 ≤ n) (fits : n ≤ b.length) :
    (Cut.of b x s n).bytes = b := by
  simp only [Cut.bytes,Cut.pieces,Cut.of,List.flatten_cons,List.flatten_nil,List.append_nil]
  rw [sliceDrop name fits,sliceDrop (by omega) (by omega),sliceDrop (by omega) (by omega),sliceDrop (by omega) (by omega),
    sliceDrop (by omega) (by omega),sliceDrop (by omega) (by omega),sliceDrop (by omega) (by omega),
    sliceDrop (by omega) (by omega),sliceDrop (by omega) (by omega),sliceDrop (by omega) (by omega),
    sliceDrop (by omega) (by omega),List.take_append_drop]

theorem cutSized {b : Bytes} {x s n : Nat} (front : 9 ≤ x) (start : x + 2 ≤ s) (name : s + 9 ≤ n) (fits : n ≤ b.length) :
    (Cut.of b x s n).Sized ∧ (Cut.of b x s n).hello.length = x - 9 ∧ (Cut.of b x s n).before.length = s - x ∧
      (Cut.of b x s n).name.length = n - (s + 9) := by
  refine ⟨⟨?_,?_,?_,?_,?_,?_,?_,?_,?_⟩,?_,?_,?_⟩ <;> dsimp only [Cut.of]
  · rw [List.length_take]
    omega
  all_goals
    have long := @sliceLength _ b
    grind

theorem namedBounds {b : Bytes} {layout : ClientHelloLayout} {entries : List Entry} {e : Entry} (named : Named b layout entries e) :
    e ∈ entries ∧ 9 ≤ layout.extensionsLenRange.1 ∧ layout.extensionsLenRange.1 + 2 ≤ e.start ∧
      (nameRange b e).2 ≤ e.stop ∧ e.stop ≤ b.length := by
  have member : e ∈ serverNames entries := List.mem_of_getLast? named.last
  have inside : e ∈ entries := List.mem_of_mem_filter member
  have bounds := entryBounds named.placed inside
  have behind := extensionsBehind named.placed
  have front := suitesFront named.placed
  have fits := named.placed.fits
  have := bounds.after
  have := bounds.within
  exact ⟨inside,by omega,by omega,named.whole e member,by omega⟩

theorem namedCut {b : Bytes} {layout : ClientHelloLayout} {entries : List Entry} {e : Entry} (named : Named b layout entries e) :
    ∃ c : Cut, c.bytes = b ∧ c.Fits layout := by
  obtain ⟨_,front,start,whole,fits⟩ := namedBounds named
  have behind := extensionsBehind named.placed
  have name : e.start + 9 ≤ (nameRange b e).2 := Nat.le_add_right _ _
  obtain ⟨sized,hello,before,length⟩ := cutSized front start name (Nat.le_trans whole fits)
  have isStart : (Cut.of b layout.extensionsLenRange.1 e.start (nameRange b e).2).extStart = e.start := by
    rw [Cut.extStart,hello,before]
    omega
  refine ⟨_,cutBytes front start name (Nat.le_trans whole fits),sized,?_,?_,?_,?_,?_,?_,?_⟩
  · exact named.record
  · exact named.handshake
  · rw [hello,show 9 + (layout.extensionsLenRange.1 - 9) = layout.extensionsLenRange.1 by omega,behind.2]
  · rw [isStart,named.extLen]
  · rw [isStart,named.listLen]
  · rw [isStart,named.nameLen]
  · rw [isStart,named.sni,length,show e.start + 9 + ((nameRange b e).2 - (e.start + 9)) = (nameRange b e).2 by omega]
    rfl

structure Patched (b : Bytes) (layout : ClientHelloLayout) (e : Entry) (sni out : Bytes) : Prop where
  length : out.length + u16At b (e.start + 7) = b.length + sni.length
  front : ∀ i, i < e.start + 2 → ¬ Inside (3,5) i → ¬ Inside (6,9) i → ¬ Inside layout.extensionsLenRange i → out[i]? = b[i]?
  nameType : out[e.start + 6]? = b[e.start + 6]?
  behind : ∀ i, out[e.start + 9 + sni.length + i]? = b[e.start + 9 + u16At b (e.start + 7) + i]?
  recordLen : u16At out 3 + u16At b (e.start + 7) = u16At b 3 + sni.length
  handshakeLen : u24At out 6 + u16At b (e.start + 7) = u24At b 6 + sni.length
  extensionsLen : u16At out layout.extensionsLenRange.1 + u16At b (e.start + 7) =
    u16At b layout.extensionsLenRange.1 + sni.length
  extLen : u16At out (e.start + 2) + u16At b (e.start + 7) = u16At b (e.start + 2) + sni.length
  nameLen : u16At out (e.start + 7) = sni.length
  name : slice out (e.start + 9) (e.start + 9 + sni.length) = sni

theorem adjustSome {limit value old new adjusted : Nat} (done : adjust limit value ((new : Int) - old) = some adjusted) :
    adjusted + old = value + new ∧ adjusted ≤ limit := by
  obtain ⟨bounds,same⟩ := Option.ite_none_right_eq_some.mp done
  have := Option.some.inj same
  omega

theorem u16ToBe {value : Nat} (small : value < 65536) : u16At (toBeBytes value) 0 = value := fromToBeBytes small

theorem u24ToBe {value : Nat} (small : value < 16777216) :
    u24At (UInt8.ofNat (value / 65536)::toBeBytes value) 0 = value := by
  show (UInt8.ofNat (value / 65536)).toNat * 65536 +
    ((UInt8.ofNat (value / 256)).toNat * 256 + (UInt8.ofNat value).toNat) = value
  simp only [UInt8.toNat_ofNat']
  omega

structure Cut.Renames (c : Cut) (sni : Bytes) (d : Cut) : Prop where
  sized : d.Sized
  head : d.head = c.head
  kind : d.kind = c.kind
  hello : d.hello = c.hello
  before : d.before = c.before
  nameType : d.nameType = c.nameType
  after : d.after = c.after
  name : d.name = sni
  recordLen : u16At d.recordLen 0 + c.name.length = u16At c.recordLen 0 + sni.length
  handshakeLen : u24At d.handshakeLen 0 + c.name.length = u24At c.handshakeLen 0 + sni.length
  extensionsLen : u16At d.extensionsLen 0 + c.name.length = u16At c.extensionsLen 0 + sni.length
  extLen : u16At d.extLen 0 + c.name.length = u16At c.extLen 0 + sni.length
  nameLen : u16At d.nameLen 0 = sni.length

theorem renamedSome {c d : Cut} {sni : Bytes} (sized : c.Sized) (done : c.renamed sni = some d) : c.Renames sni d := by
  unfold Cut.renamed at done
  obtain ⟨short,done⟩ := Option.ite_none_left_eq_some.mp done
  obtain ⟨recordLen,record,done⟩ := Option.bind_eq_some_iff.mp done
  obtain ⟨handshakeLen,handshake,done⟩ := Option.bind_eq_some_iff.mp done
  obtain ⟨extensionsLen,extensions,done⟩ := Option.bind_eq_some_iff.mp done
  obtain ⟨extLen,ext,done⟩ := Option.bind_eq_some_iff.mp done
  obtain ⟨listLen,list,done⟩ := Option.bind_eq_some_iff.mp done
  have record := adjustSome record
  have handshake := adjustSome handshake
  have extensions := adjustSome extensions
  have ext := adjustSome ext
  cases Option.some.inj done
  refine ⟨{ sized with
      recordLen := rfl, handshakeLen := rfl, extensionsLen := rfl, extLen := rfl, listLen := rfl, nameLen := rfl },
    rfl,rfl,rfl,rfl,rfl,rfl,rfl,?_,?_,?_,?_,u16ToBe (by omega)⟩
  · rw [u16ToBe (by omega)]
    exact record.1
  · rw [u24ToBe (by omega)]
    exact handshake.1
  · rw [u16ToBe (by omega)]
    exact extensions.1
  · rw [u16ToBe (by omega)]
    exact ext.1

section Pieces
variable {c : Cut}

theorem Cut.Sized.at (sized : c.Sized) :
    (∀ i < 3, c.bytes[i]? = c.head[i]?) ∧ c.bytes[5]? = c.kind[0]? ∧
    (∀ i < c.hello.length, c.bytes[9 + i]? = c.hello[i]?) ∧
    (∀ i < c.before.length, c.bytes[9 + c.hello.length + 2 + i]? = c.before[i]?) ∧
    c.bytes[c.extStart + 6]? = c.nameType[0]? ∧ u16At c.bytes (c.extStart + 7) = u16At c.nameLen 0 ∧
    slice c.bytes (c.extStart + 9) (c.extStart + 9 + c.name.length) = c.name ∧
    ∀ i, c.bytes[c.extStart + 9 + c.name.length + i]? = c.after[i]? := by
  have other : offset c.pieces 0 = 0 ∧ offset c.pieces 2 = 5 ∧ offset c.pieces 4 = 9 ∧
      offset c.pieces 6 = 9 + c.hello.length + 2 ∧ offset c.pieces 9 = c.extStart + 6 ∧
      offset c.pieces 12 = c.extStart + 9 + c.name.length := by
    obtain ⟨head,recordLen,kind,handshakeLen,extensionsLen,extLen,listLen,nameType,nameLen⟩ := sized
    refine ⟨?_,?_,?_,?_,?_,?_⟩ <;>
      simp [offset,Cut.pieces,Cut.extStart,head,recordLen,kind,handshakeLen,extensionsLen,extLen,listLen,nameType,nameLen] <;>
      clear head recordLen kind handshakeLen extensionsLen extLen listLen nameType nameLen <;> omega
  obtain ⟨first,kind,hello,before,nameType,after⟩ := other
  obtain ⟨_,_,_,_,_,nameLen,name⟩ := sized.offsets
  refine ⟨fun i inside => ?_,?_,fun i inside => ?_,fun i inside => ?_,?_,?_,?_,fun i => ?_⟩
  · have here := @chunkAt _ c.pieces 0 c.head rfl i (by rw [sized.head]; exact inside)
    rwa [first,Nat.zero_add] at here
  · have here := @chunkAt _ c.pieces 2 c.kind rfl 0 (by rw [sized.kind]; decide)
    rwa [kind] at here
  · have here := @chunkAt _ c.pieces 4 c.hello rfl i inside
    rwa [hello] at here
  · have here := @chunkAt _ c.pieces 6 c.before rfl i inside
    rwa [before] at here
  · have here := @chunkAt _ c.pieces 9 c.nameType rfl 0 (by rw [sized.nameType]; decide)
    rwa [nameType] at here
  · exact @u16AtChunk c.pieces 10 c.nameLen _ 0 _ rfl rfl (Nat.le_of_eq sized.nameLen.symm) nameLen
  · have here := @sliceChunk _ c.pieces 11 c.name rfl
    rwa [name] at here
  · have whole := @flattenCut _ c.pieces 12 c.after rfl
    have size : (c.pieces.take 12).flatten.length = c.extStart + 9 + c.name.length := after
    rw [Cut.bytes,whole,← size,List.getElem?_append_right (Nat.le_add_right _ _),Nat.add_sub_cancel_left]
    exact congrArg (·[i]?) (List.append_nil _)

theorem Cut.Sized.length (sized : c.Sized) : c.bytes.length = c.extStart + 9 + c.name.length + c.after.length := by
  obtain ⟨head,recordLen,kind,handshakeLen,extensionsLen,extLen,listLen,nameType,nameLen⟩ := sized
  simp [Cut.bytes,Cut.pieces,Cut.extStart,head,recordLen,kind,handshakeLen,extensionsLen,extLen,listLen,nameType,nameLen]
  -- `omega` would compare every length in reach with every other
  clear head recordLen kind handshakeLen extensionsLen extLen listLen nameType nameLen
  omega

end Pieces

theorem patchedSni {b sni out : Bytes} {layout : ClientHelloLayout} {entries : List Entry} {e : Entry}
    (named : Named b layout entries e) (ran : setSniInPlace b layout sni = some out) : Patched b layout e sni out := by
  obtain ⟨c,rfl,fits⟩ := namedCut named
  rw [setSniCut fits] at ran
  obtain ⟨d,renamed,rfl⟩ := Option.map_eq_some_iff.mp ran
  have new := renamedSome fits.toSized renamed
  have start : c.extStart = e.start := by
    have same := (congrArg Prod.fst fits.extAt).symm.trans (congrArg Prod.fst named.extLen)
    dsimp only at same
    omega
  have again : d.extStart = e.start := by
    rw [← start,Cut.extStart,Cut.extStart,new.hello,new.before]
  have old : u16At c.bytes (e.start + 7) = c.name.length := by
    have same := (congrArg Prod.snd fits.nameAt).symm.trans (congrArg Prod.snd named.sni)
    dsimp only [nameRange] at same
    omega
  have extensionsAt : layout.extensionsLenRange = (9 + c.hello.length,9 + c.hello.length + 2) := fits.extensionsAt
  obtain ⟨head,kind,hello,before,nameType,_,_,after⟩ := fits.toSized.at
  obtain ⟨head',kind',hello',before',nameType',nameLen',name',after'⟩ := new.sized.at
  obtain ⟨record,handshake,extensions,ext,_⟩ := fits.toSized.reads
  obtain ⟨record',handshake',extensions',ext',_⟩ := new.sized.reads
  rw [start] at nameType after ext
  rw [again] at nameType' nameLen' name' after' ext'
  rw [new.name] at name' after'
  rw [new.hello] at hello' before' extensions'
  rw [new.before] at before'
  have value16 {w : Bytes} {i v : Nat} (read : readU16 w i = some v) : u16At w i = v := (readU16Some read).2.symm
  have value24 {w : Bytes} {i v : Nat} (read : readU24 w i = some v) : u24At w i = v :=
    Option.some.inj (Option.ite_none_left_eq_some.mp read).2
  refine ⟨?_,fun i inside record handshake extensions => ?_,?_,fun i => ?_,?_,?_,?_,?_,nameLen'.trans new.nameLen,name'⟩
  · rw [old,fits.toSized.length,new.sized.length,start,again,new.name,new.after]
    omega
  · rw [extensionsAt] at extensions
    dsimp only [Inside] at record handshake extensions
    have size : c.before.length + (9 + c.hello.length) = e.start := by
      rw [← start,Cut.extStart]
      omega
    rcases (by omega : i < 3 ∨ i = 5 ∨ (9 ≤ i ∧ i < 9 + c.hello.length) ∨ 9 + c.hello.length + 2 ≤ i) with here | rfl | here | here
    · rw [head i here,head' i here,new.head]
    · rw [kind,kind',new.kind]
    · obtain ⟨j,rfl⟩ := Nat.exists_eq_add_of_le here.1
      rw [hello j (by omega),hello' j (by omega)]
    · obtain ⟨j,rfl⟩ := Nat.exists_eq_add_of_le here
      rw [before j (by omega),before' j (by omega)]
  · rw [nameType,nameType',new.nameType]
  · rw [old,after,after',new.after]
  · rw [old,value16 record,value16 record']
    exact new.recordLen
  · rw [old,value24 handshake,value24 handshake']
    exact new.handshakeLen
  · rw [old,extensionsAt,value16 extensions,value16 extensions']
    exact new.extensionsLen
  · rw [old,value16 ext,value16 ext']
    exact new.extLen

end KanoTls.Hello
