import KanoTls.HelloPatch

/-! The grammar of a ClientHello in one record, and what `set_sni_in_place` does to it: in
an encoding every length is that of what it encloses, so another encoding comes out. -/
namespace KanoTls.Hello
open Uot Wire Patch Chunks

def vector8 (body : Bytes) : Bytes := UInt8.ofNat body.length::body
def vector16 (body : Bytes) : Bytes := toBeBytes body.length ++ body
def vector24 (body : Bytes) : Bytes := (UInt8.ofNat (body.length / 65536)::toBeBytes body.length) ++ body

structure Extension where
  extType : Nat
  data : Bytes
  deriving DecidableEq, Repr

def Extension.encode (x : Extension) : Bytes := toBeBytes x.extType ++ vector16 x.data

def encodeExtensions (extensions : List Extension) : Bytes := extensions.flatMap Extension.encode

/- A hello with a server_name extension, the last one if there are several; `moreNames` is
the rest of its name list. -/
structure Message where
  recordVersion : Bytes
  clientVersion : Bytes
  random : Bytes
  sessionId : Bytes
  cipherSuites : Bytes
  compressionMethods : Bytes
  before : List Extension
  nameType : UInt8
  name : Bytes
  moreNames : Bytes
  after : List Extension
  deriving DecidableEq, Repr

namespace Message

def nameList (m : Message) : Bytes := m.nameType::(vector16 m.name ++ m.moreNames)
def serverName (m : Message) : Extension := ⟨0x0000,vector16 m.nameList⟩
def extensions (m : Message) : List Extension := m.before ++ m.serverName::m.after

def opening (m : Message) : Bytes :=
  m.clientVersion ++ (m.random ++ (vector8 m.sessionId ++ (vector16 m.cipherSuites ++ vector8 m.compressionMethods)))

def body (m : Message) : Bytes := m.opening ++ vector16 (encodeExtensions m.extensions)
def handshake (m : Message) : Bytes := 0x01::vector24 m.body
def record (m : Message) : Bytes := (0x16::m.recordVersion) ++ vector16 m.handshake

structure WellFormed (m : Message) : Prop where
  recordVersion : m.recordVersion.length = 2
  clientVersion : m.clientVersion.length = 2
  random : m.random.length = 32
  sessionId : m.sessionId.length < 256
  compressionMethods : m.compressionMethods.length < 256
  types : ∀ x ∈ m.before ++ m.after, x.extType < 65536
  last : ∀ x ∈ m.after, x.extType ≠ 0x0000
  fits : m.handshake.length < 65536

def cut (m : Message) : Cut where
  head := 0x16::m.recordVersion
  recordLen := toBeBytes m.handshake.length
  kind := [0x01]
  handshakeLen := UInt8.ofNat (m.body.length / 65536)::toBeBytes m.body.length
  hello := m.opening
  extensionsLen := toBeBytes (encodeExtensions m.extensions).length
  before := encodeExtensions m.before ++ toBeBytes 0x0000
  extLen := toBeBytes m.serverName.data.length
  listLen := toBeBytes m.nameList.length
  nameType := [m.nameType]
  nameLen := toBeBytes m.name.length
  name := m.name
  after := m.moreNames ++ encodeExtensions m.after

theorem cutRecord (m : Message) : m.cut.bytes = m.record := by
  simp [cut,Cut.bytes,Cut.pieces,record,handshake,body,extensions,serverName,nameList,encodeExtensions,Extension.encode,
    vector16,vector24]

theorem cutSized {m : Message} (formed : m.WellFormed) : m.cut.Sized := by
  refine ⟨?_,rfl,rfl,rfl,rfl,rfl,rfl,rfl,rfl⟩
  rw [cut,List.length_cons,formed.recordVersion]

theorem lengths (m : Message) : m.nameList.length = 3 + m.name.length + m.moreNames.length ∧
    m.serverName.data.length = 2 + m.nameList.length ∧
    (encodeExtensions m.extensions).length =
      (encodeExtensions m.before).length + (4 + m.serverName.data.length) + (encodeExtensions m.after).length ∧
    m.body.length = m.opening.length + 2 + (encodeExtensions m.extensions).length ∧ m.handshake.length = 4 + m.body.length := by
  have two (n : Nat) : (toBeBytes n).length = 2 := rfl
  simp only [nameList,serverName,extensions,body,handshake,encodeExtensions,Extension.encode,vector16,vector24,
    List.flatMap_append,List.flatMap_cons,List.length_append,List.length_cons,two,true_and]
  omega

end Message

def entriesAt : Nat → List Extension → List Entry
  | _,[] => []
  | p,x::rest => ⟨x.extType,p,p + (4 + x.data.length)⟩::entriesAt (p + (4 + x.data.length)) rest

theorem encodeLength (x : Extension) : x.encode.length = 4 + x.data.length := by
  simp only [Extension.encode,vector16,List.length_append,toBeBytes,List.length_cons,List.length_nil]
  omega

theorem entriesAtAppend (p : Nat) (first second : List Extension) :
    entriesAt p (first ++ second) = entriesAt p first ++ entriesAt (p + (encodeExtensions first).length) second := by
  induction first generalizing p with
  | nil => rfl
  | cons x rest ih =>
    have whole : encodeExtensions (x::rest) = x.encode ++ encodeExtensions rest := List.flatMap_cons
    rw [List.cons_append,entriesAt,entriesAt,ih,whole,List.length_append,encodeLength,
      ← Nat.add_assoc p (4 + x.data.length),List.cons_append]

theorem entriesAtType {p : Nat} {extensions : List Extension} {e : Entry} (member : e ∈ entriesAt p extensions) :
    ∃ x ∈ extensions, x.extType = e.extType := by
  induction extensions generalizing p with
  | nil => contradiction
  | cons x rest ih =>
    rcases List.mem_cons.mp member with rfl | later
    · exact ⟨x,List.mem_cons_self,rfl⟩
    · obtain ⟨y,inside,same⟩ := ih later
      exact ⟨y,List.mem_cons_of_mem _ inside,same⟩

theorem walkEncoded {extensions : List Extension} {front : Bytes} (types : ∀ x ∈ extensions, x.extType < 65536)
    (short : (encodeExtensions extensions).length < 65536) :
    Walk (front ++ encodeExtensions extensions) (front ++ encodeExtensions extensions).length front.length
      (entriesAt front.length extensions) := by
  induction extensions generalizing front with
  | nil => exact .done (by simp [encodeExtensions])
  | cons x rest ih =>
    have size := encodeLength x
    have whole : encodeExtensions (x::rest) = x.encode ++ encodeExtensions rest := List.flatMap_cons
    rw [whole,List.length_append] at short
    rw [whole,← List.append_assoc]
    have later := @ih (front ++ x.encode) (fun y member => types y (List.mem_cons_of_mem _ member)) (by omega)
    have next : (front ++ x.encode).length = front.length + (4 + x.data.length) := by rw [List.length_append,size]
    rw [next] at later
    -- type and length are the second and the third of the five pieces
    have pieces : front ++ x.encode ++ encodeExtensions rest =
        [front,toBeBytes x.extType,toBeBytes x.data.length,x.data,encodeExtensions rest].flatten := by
      simp [Extension.encode,vector16]
    have isType : u16At (front ++ x.encode ++ encodeExtensions rest) front.length = x.extType := by
      rw [u16AtChunk (k := 1) pieces rfl (Nat.le_refl 2) (by simp [offset]),u16ToBe (types x List.mem_cons_self)]
    have isLength : u16At (front ++ x.encode ++ encodeExtensions rest) (front.length + 2) = x.data.length := by
      rw [u16AtChunk (k := 2) pieces rfl (Nat.le_refl 2) (by simp [offset,toBeBytes]),u16ToBe (by omega)]
    have total : (front ++ x.encode ++ encodeExtensions rest).length =
        front.length + (4 + x.data.length) + (encodeExtensions rest).length := by
      rw [List.length_append,List.length_append,size]
    rw [entriesAt,← isType]
    exact .step (by omega) (by rw [isLength]) (by omega) later

section Parsed
variable {m : Message} {layout : ClientHelloLayout} {entries : List Entry} {e : Entry}

theorem openingLength (formed : m.WellFormed) : m.opening.length =
    38 + m.sessionId.length + m.cipherSuites.length + m.compressionMethods.length := by
  simp only [Message.opening,vector8,vector16,List.length_append,List.length_cons,formed.clientVersion,formed.random,
    toBeBytes,List.length_nil]
  omega

theorem recordFront (formed : m.WellFormed) : ∃ header : Bytes, header.length = 9 ∧
    m.record = header ++ (m.opening ++ vector16 (encodeExtensions m.extensions)) := by
  refine ⟨0x16::m.recordVersion ++ toBeBytes m.handshake.length ++
    0x01::(UInt8.ofNat (m.body.length / 65536)::toBeBytes m.body.length),?_,?_⟩
  · have two (n : Nat) : (toBeBytes n).length = 2 := rfl
    simp only [List.length_append,List.length_cons,formed.recordVersion,two]
  · simp [Message.record,Message.handshake,Message.body,vector16,vector24]

theorem messageExtensions (formed : m.WellFormed) (placed : Placed m.record layout entries) :
    layout.extensionsLenRange = (9 + m.opening.length,9 + m.opening.length + 2) := by
  obtain ⟨header,nine,whole⟩ := recordFront formed
  have pieces : m.record = [header ++ m.clientVersion ++ m.random,[UInt8.ofNat m.sessionId.length],m.sessionId,
      toBeBytes m.cipherSuites.length,m.cipherSuites,[UInt8.ofNat m.compressionMethods.length],
      m.compressionMethods ++ vector16 (encodeExtensions m.extensions)].flatten := by
    rw [whole]
    simp [Message.opening,vector8,vector16]
  have bounds := m.lengths
  have size := openingLength formed
  have fits := formed.fits
  have two (n : Nat) : (toBeBytes n).length = 2 := rfl
  have front : (header ++ m.clientVersion ++ m.random).length = 43 := by
    rw [List.length_append,List.length_append,nine,formed.clientVersion,formed.random]
  generalize header ++ m.clientVersion ++ m.random = opened at pieces front
  have session : byteAt m.record 43 = UInt8.ofNat m.sessionId.length :=
    byteAtChunk (k := 1) pieces rfl Nat.zero_lt_one (by simp [offset,front])
  have suites : u16At m.record (44 + m.sessionId.length) = m.cipherSuites.length := by
    rw [u16AtChunk (k := 3) pieces rfl (Nat.le_refl 2) (by simp [offset,front]; omega),u16ToBe (by omega)]
  have methods : byteAt m.record (44 + m.sessionId.length + 2 + m.cipherSuites.length) =
      UInt8.ofNat m.compressionMethods.length :=
    byteAtChunk (k := 5) pieces rfl Nat.zero_lt_one (by simp [offset,front,two]; omega)
  have small {n : Nat} (below : n < 256) : (UInt8.ofNat n).toNat = n := by
    rw [UInt8.toNat_ofNat']
    omega
  have isSession : layout.sessionIdRange = (44,44 + m.sessionId.length) := by
    rw [placed.session,session,small formed.sessionId]
  have isSuites : layout.cipherSuitesRange = (44 + m.sessionId.length + 2,44 + m.sessionId.length + 2 + m.cipherSuites.length) := by
    rw [placed.suites,isSession,suites]
  rw [placed.extensionsLen,isSuites,methods,small formed.compressionMethods,size]
  simp only [Prod.mk.injEq]
  omega

theorem messageEntries (formed : m.WellFormed) (placed : Placed m.record layout entries) :
    entries = entriesAt (9 + m.opening.length + 2) m.extensions := by
  have bounds := m.lengths
  have fits := formed.fits
  have at' := messageExtensions formed placed
  have walked := placed.walked
  have types : ∀ x ∈ m.extensions, x.extType < 65536 := by
    intro x member
    rcases List.mem_append.mp member with before | here
    · exact formed.types x (List.mem_append_left _ before)
    · rcases List.mem_cons.mp here with rfl | after
      · exact Nat.zero_lt_succ _
      · exact formed.types x (List.mem_append_right _ after)
  obtain ⟨header,nine,whole⟩ := recordFront formed
  have pieces : m.record = [header ++ m.opening,toBeBytes (encodeExtensions m.extensions).length,
      encodeExtensions m.extensions].flatten := by
    rw [whole]
    simp [vector16]
  have two (n : Nat) : (toBeBytes n).length = 2 := rfl
  have front : (header ++ m.opening).length = 9 + m.opening.length := by
    rw [List.length_append,nine]
  generalize header ++ m.opening = opened at pieces front
  have length : u16At m.record (9 + m.opening.length) = (encodeExtensions m.extensions).length := by
    rw [u16AtChunk (k := 1) pieces rfl (Nat.le_refl 2) (by simp [offset,front]),u16ToBe (by omega)]
  have split : m.record = (opened ++ toBeBytes (encodeExtensions m.extensions).length) ++ encodeExtensions m.extensions := by
    simp [pieces]
  have here : (opened ++ toBeBytes (encodeExtensions m.extensions).length).length = 9 + m.opening.length + 2 := by
    rw [List.length_append,front,two]
  have walk := @walkEncoded m.extensions (opened ++ toBeBytes (encodeExtensions m.extensions).length) types (by omega)
  have total : m.record.length = 9 + m.opening.length + 2 + (encodeExtensions m.extensions).length := by
    rw [split,List.length_append,here]
  rw [← split,here] at walk
  rw [at'] at walked
  dsimp only at walked
  rw [length,← total] at walked
  exact Option.some.inj (walked.symm.trans (walk.listed (by omega)))

theorem messageNamed (formed : m.WellFormed) (named : Named m.record layout entries e) :
    e.start = 9 + m.opening.length + 2 + (encodeExtensions m.before).length ∧ layout.extensionsLenRange =
      (9 + m.opening.length,9 + m.opening.length + 2) := by
  have at' := messageExtensions formed named.placed
  have last := named.last
  have none : serverNames (entriesAt (9 + m.opening.length + 2 + (encodeExtensions m.before).length +
      (4 + m.serverName.data.length)) m.after) = [] := by
    refine List.filter_eq_nil_iff.mpr (fun e member => ?_)
    obtain ⟨x,inside,same⟩ := entriesAtType member
    rw [decide_eq_true_eq,← same]
    exact formed.last x inside
  rw [messageEntries formed named.placed,Message.extensions,entriesAtAppend,entriesAt,serverNames,List.filter_append,
    List.filter_cons_of_pos rfl] at last
  rw [serverNames] at none
  rw [none,List.getLast?_concat] at last
  cases Option.some.inj last
  exact ⟨rfl,at'⟩

theorem messageFits (formed : m.WellFormed) (named : Named m.record layout entries e) : m.cut.Fits layout := by
  obtain ⟨start,at'⟩ := messageNamed formed named
  have isStart : m.cut.extStart = e.start := by
    have two : (encodeExtensions m.before ++ toBeBytes 0x0000).length = (encodeExtensions m.before).length + 2 :=
      List.length_append
    show 9 + m.opening.length + (encodeExtensions m.before ++ toBeBytes 0x0000).length = e.start
    rw [start,two]
    omega
  have pieces : m.record = m.cut.pieces.flatten := m.cutRecord.symm
  have length : u16At m.record (e.start + 7) = m.name.length := by
    have bounds := m.lengths
    have fits := formed.fits
    have nameAt := (Message.cutSized formed).offsets.2.2.2.2.2.1
    rw [isStart] at nameAt
    rw [u16AtChunk (k := 10) pieces rfl (Nat.le_refl 2) nameAt]
    exact u16ToBe (by omega)
  refine ⟨Message.cutSized formed,named.record,named.handshake,at',?_,?_,?_,?_⟩
  · rw [isStart,named.extLen]
  · rw [isStart,named.listLen]
  · rw [isStart,named.nameLen]
  · rw [isStart,named.sni,nameRange,length]
    rfl

end Parsed

theorem adjustTo {limit value old new adjusted : Nat} (same : adjusted + old = value + new) :
    adjust limit value ((new : Int) - old) = if adjusted ≤ limit then some adjusted else none := by
  have sum : (value : Int) + ((new : Int) - old) = adjusted := by omega
  rw [adjust,sum]
  by_cases fits : adjusted ≤ limit
  · rw [if_pos fits,if_pos ⟨Int.natCast_nonneg _,by exact_mod_cast fits⟩]
    rfl
  · rw [if_neg fits,if_neg (fun both => fits (by exact_mod_cast both.2))]

/- The outermost length decides: if it fits, so do the others. -/
theorem messageRenamed {m : Message} (formed : m.WellFormed) (sni : Bytes) : m.cut.renamed sni =
    if { m with name := sni }.handshake.length < 65536 then some { m with name := sni }.cut else none := by
  obtain ⟨list,data,extensions,body,handshake⟩ := m.lengths
  obtain ⟨list',data',extensions',body',handshake'⟩ := { m with name := sni }.lengths
  have fits := formed.fits
  have record : u16At m.cut.recordLen 0 = m.handshake.length := u16ToBe fits
  have message : u24At m.cut.handshakeLen 0 = m.body.length := u24ToBe (by omega)
  have block : u16At m.cut.extensionsLen 0 = (encodeExtensions m.extensions).length := u16ToBe (by omega)
  have ext : u16At m.cut.extLen 0 = m.serverName.data.length := u16ToBe (by omega)
  have names : u16At m.cut.listLen 0 = m.nameList.length := u16ToBe (by omega)
  have name : m.cut.name.length = m.name.length := rfl
  have opening : { m with name := sni }.opening = m.opening := rfl
  dsimp only at list' extensions'
  rw [opening] at body'
  unfold Cut.renamed
  rw [record,message,block,ext,names,name]
  by_cases small : { m with name := sni }.handshake.length < 65536
  · have one : adjustU16 m.handshake.length (sni.length - m.name.length : Int) = some { m with name := sni }.handshake.length :=
      (adjustTo (by omega)).trans (if_pos (by omega))
    have two : adjustU24 m.body.length (sni.length - m.name.length : Int) = some { m with name := sni }.body.length :=
      (adjustTo (by omega)).trans (if_pos (by omega))
    have three : adjustU16 (encodeExtensions m.extensions).length (sni.length - m.name.length : Int) =
        some (encodeExtensions { m with name := sni }.extensions).length := (adjustTo (by omega)).trans (if_pos (by omega))
    have four : adjustU16 m.serverName.data.length (sni.length - m.name.length : Int) =
        some { m with name := sni }.serverName.data.length := (adjustTo (by omega)).trans (if_pos (by omega))
    have five : adjustU16 m.nameList.length (sni.length - m.name.length : Int) = some { m with name := sni }.nameList.length :=
      (adjustTo (by omega)).trans (if_pos (by omega))
    rw [if_pos small,if_neg (by omega)]
    dsimp only [Option.bind_eq_bind]
    rw [one,Option.bind_some,two,Option.bind_some,three,Option.bind_some,four,Option.bind_some,five,Option.bind_some]
    rfl
  · rw [if_neg small]
    by_cases long : sni.length > 0xffff
    · rw [if_pos long]
    · have one : adjustU16 m.handshake.length (sni.length - m.name.length : Int) = none := by
        have fails := @adjustTo 0xffff m.handshake.length m.name.length sni.length { m with name := sni }.handshake.length
          (by omega)
        exact fails.trans (if_neg (by omega))
      rw [if_neg long]
      dsimp only [Option.bind_eq_bind]
      rw [one]
      rfl

/- The error is the record length's; without one, the result encodes the same message but
for the name. -/
theorem sniReplaced {m : Message} (formed : m.WellFormed) {layout : ClientHelloLayout}
    (parsed : parseClientHelloLayout m.record = some layout) (sni : Bytes) :
    (setSniInPlace m.record layout sni = none ∧ 65536 ≤ { m with name := sni }.handshake.length) ∨
    (setSniInPlace m.record layout sni = some { m with name := sni }.record ∧ { m with name := sni }.WellFormed) := by
  obtain ⟨entries,e,named⟩ := layoutNamed parsed
  have patched := setSniCut (messageFits formed named) sni
  rw [Message.cutRecord,messageRenamed formed] at patched
  by_cases small : { m with name := sni }.handshake.length < 65536
  · rw [if_pos small,Option.map_some,Message.cutRecord] at patched
    exact .inr ⟨patched,{ formed with fits := small }⟩
  · rw [if_neg small] at patched
    exact .inl ⟨patched,Nat.not_lt.mp small⟩

def sampleMessage : Message where
  recordVersion := [0x03,0x01]
  clientVersion := [0x03,0x03]
  random := List.replicate 32 1
  sessionId := List.replicate 32 2
  cipherSuites := [0x13,0x01]
  compressionMethods := [0x00]
  before := [⟨0x0a0a,[]⟩]
  nameType := 0
  name := [0x61]
  moreNames := []
  after := [⟨0x0033,[0x00,0x24,0x00,0x1d,0x00,0x20] ++ List.replicate 32 3⟩]

theorem sampleFormed : sampleMessage.WellFormed :=
  ⟨rfl,rfl,rfl,by decide,by decide,by decide,by decide,by decide +kernel⟩

theorem sniReplacedSample : ∃ layout, parseClientHelloLayout sampleMessage.record = some layout ∧
    setSniInPlace sampleMessage.record layout [0x62,0x2e,0x63] = some { sampleMessage with name := [0x62,0x2e,0x63] }.record ∧
    { sampleMessage with name := [0x62,0x2e,0x63] }.WellFormed := by
  have parses : (parseClientHelloLayout sampleMessage.record).isSome = true := by decide +kernel
  obtain ⟨layout,parsed⟩ := Option.isSome_iff_exists.mp parses
  refine ⟨layout,parsed,?_⟩
  rcases sniReplaced sampleFormed parsed [0x62,0x2e,0x63] with ⟨_,long⟩ | done
  · exact absurd long (by decide +kernel)
  · exact done

end KanoTls.Hello
