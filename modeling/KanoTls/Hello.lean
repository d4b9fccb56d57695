import KanoTls.Frame
import KanoTls.Patch

/-! ClientHello records: the parsers of `utils.rs` and the templates of `template.rs`.
Ranges are pairs of offsets into the record; an error is `none`. -/
namespace KanoTls.Hello
open Uot Wire Patch

abbrev Range := Nat × Nat

def byteAt (b : Bytes) (i : Nat) : UInt8 := b.getD i 0
def u16At (b : Bytes) (i : Nat) : Nat := fromBeBytes (byteAt b i) (byteAt b (i+1))
def u24At (b : Bytes) (i : Nat) : Nat := (byteAt b i).toNat * 65536 + u16At b (i+1)

def readU16 (b : Bytes) (start : Nat) : Option Nat := if start + 2 > b.length then none else some (u16At b start)
def readU24 (b : Bytes) (start : Nat) : Option Nat := if start + 3 > b.length then none else some (u24At b start)

def writeU16 (b : Bytes) (range : Range) (value : Nat) : Option Bytes :=
  if range.2 - range.1 ≠ 2 ∨ range.2 > b.length then none else some (put b range.1 (toBeBytes value))

def writeU24 (b : Bytes) (range : Range) (value : Nat) : Option Bytes :=
  if range.2 - range.1 ≠ 3 ∨ range.2 > b.length then none
  else some (put b range.1 (UInt8.ofNat (value / 65536)::toBeBytes value))

def adjust (limit : Nat) (value : Nat) (delta : Int) : Option Nat :=
  if 0 ≤ (value : Int) + delta ∧ (value : Int) + delta ≤ limit then some ((value : Int) + delta).toNat else none

def adjustU16 : Nat → Int → Option Nat := adjust 0xffff
def adjustU24 : Nat → Int → Option Nat := adjust 0xffffff

def greaseValues : List Nat :=
  [0x0A0A,0x1A1A,0x2A2A,0x3A3A,0x4A4A,0x5A5A,0x6A6A,0x7A7A,0x8A8A,0x9A9A,0xAAAA,0xBABA,0xCACA,0xDADA,0xEAEA,0xFAFA]

def isGreaseValue (value : Nat) : Bool := greaseValues.contains value

def echExtensionType : Nat := 0xFE0D

def clientHelloRandomAndSessionIdRanges (record : Bytes) : Option (Range × Range) :=
  if record.length < 5 + 44 then none
  else if byteAt record 0 ≠ 0x16 then none
  else if byteAt record 5 ≠ 0x01 then none
  else
    let sessionIdLen := (byteAt record 43).toNat
    if record.length < 44 + sessionIdLen then none else some ((11,43),(44,44 + sessionIdLen))

/- `config_id`, `enc` and `payload` of an ECHClientHello. -/
def echVariableFieldRanges (record : Bytes) (data : Range) : Option (Nat × Range × Range) :=
  if data.2 = data.1 then none
  else if data.2 - data.1 < 8 then none
  else
    let encStart := data.1 + 8
    let encEnd := encStart + u16At record (data.1 + 6)
    if encEnd + 2 > data.2 then none
    else
      let payloadStart := encEnd + 2
      let payloadEnd := payloadStart + u16At record encEnd
      if payloadEnd ≠ data.2 then none else some (data.1 + 5,(encStart,encEnd),(payloadStart,payloadEnd))

structure Entry where
  extType : Nat
  start : Nat
  stop : Nat
  deriving DecidableEq, Repr

/- The loop of `walk_client_hello_extensions`, as the list of entries it visits. -/
def walkEntries (record : Bytes) (extensionsEnd : Nat) : Nat → Nat → Option (List Entry)
  | 0,_ => some []
  | fuel+1,cursor =>
    if cursor + 4 ≤ extensionsEnd then
      let extEnd := cursor + (4 + u16At record (cursor + 2))
      if extEnd > extensionsEnd then none
      else (walkEntries record extensionsEnd fuel extEnd).map (⟨u16At record cursor,cursor,extEnd⟩::·)
    else some []

/- The offset of the extensions length and the entries behind it. A pair of `get(..)?` on
neighbours is `readU16`. -/
def walkClientHelloExtensions (record : Bytes) : Option (Nat × List Entry) :=
  if record.length < 9 ∨ byteAt record 0 ≠ 0x16 ∨ byteAt record 5 ≠ 0x01 then none
  else do
    let (_,sessionIdRange) ← clientHelloRandomAndSessionIdRanges record
    let cipherSuitesLen ← readU16 record sessionIdRange.2
    let suitesEnd := sessionIdRange.2 + (2 + cipherSuitesLen)
    if record.length ≤ suitesEnd then none
    else do
      let extensionsLenStart := suitesEnd + (1 + (byteAt record suitesEnd).toNat)
      let extensionsLen ← readU16 record extensionsLenStart
      let cursor := extensionsLenStart + 2
      let extensionsEnd := cursor + extensionsLen
      if extensionsEnd > record.length then none
      else do
        let entries ← walkEntries record extensionsEnd record.length cursor
        some (extensionsLenStart,entries)

def shareRanges (record : Bytes) (extEnd : Nat) : Nat → Nat → Option (List Range)
  | 0,_ => some []
  | fuel+1,cursor =>
    if cursor + 4 ≤ extEnd then
      let shareEnd := cursor + 4 + u16At record (cursor + 2)
      if shareEnd > extEnd then none else (shareRanges record extEnd fuel shareEnd).map ((cursor + 4,shareEnd)::·)
    else some []

structure EchGreaseRanges where
  configId : Nat
  enc : Range
  payload : Range
  deriving DecidableEq, Repr

def parseEchGreaseRanges (bytes : Bytes) (dataStart dataEnd : Nat) : Option EchGreaseRanges :=
  if dataEnd ≤ dataStart then none
  else if byteAt bytes dataStart ≠ 0 then none
  else (echVariableFieldRanges bytes (dataStart,dataEnd)).map (fun found => ⟨found.1,found.2.1,found.2.2⟩)

structure Found where
  sni : Option Range := none
  sniExtLen : Option Range := none
  sniListLen : Option Range := none
  sniNameLen : Option Range := none
  keyShare : Option Range := none
  auxiliary : List Range := []
  ech : Option EchGreaseRanges := none
  deriving DecidableEq, Repr

def parseShares (bytes : Bytes) (extEnd : Nat) : Nat → Nat → Found → Option Found
  | 0,_,found => some found
  | fuel+1,cursor,found =>
    if cursor + 4 ≤ extEnd then do
      let group ← readU16 bytes cursor
      let shareLen ← readU16 bytes (cursor + 2)
      let shareStart := cursor + 4
      let shareEnd := shareStart + shareLen
      if shareEnd > extEnd then none
      else if group = 0x001d then
        parseShares bytes extEnd fuel shareEnd { found with keyShare := some (shareStart,shareEnd) }
      else
        parseShares bytes extEnd fuel shareEnd { found with auxiliary := found.auxiliary ++ [(shareStart,shareEnd)] }
    else some found

def parseExtension (bytes : Bytes) (extType cursor extEnd : Nat) (found : Found) : Option Found :=
  let extData := cursor + 4
  let extLen := extEnd - extData
  if extType = 0x0000 then
    if extLen < 5 then none
    else do
      let hostLen ← readU16 bytes (extData + 3)
      let hostStart := extData + 5
      let hostEnd := hostStart + hostLen
      if hostEnd > extEnd then none
      else some { found with
        sni := some (hostStart,hostEnd)
        sniExtLen := some (cursor + 2,cursor + 4)
        sniListLen := some (extData,extData + 2)
        sniNameLen := some (extData + 3,extData + 5) }
  else if extType = 0x0033 then
    if extLen < 4 then none else parseShares bytes extEnd bytes.length (extData + 2) found
  else if extType = echExtensionType then do
    let ech ← parseEchGreaseRanges bytes extData extEnd
    some { found with ech := some ech }
  else some found

def parseExtensions (bytes : Bytes) (extensionsEnd : Nat) : Nat → Nat → Found → Option Found
  | 0,_,found => some found
  | fuel+1,cursor,found =>
    if cursor + 4 ≤ extensionsEnd then do
      let extType ← readU16 bytes cursor
      let extLen ← readU16 bytes (cursor + 2)
      let extEnd := cursor + 4 + extLen
      if extEnd > extensionsEnd then none
      else do
        let found ← parseExtension bytes extType cursor extEnd found
        parseExtensions bytes extensionsEnd fuel extEnd found
    else some found

structure ClientHelloLayout where
  sessionIdRange : Range
  cipherSuitesRange : Range
  keyShareRange : Range
  auxiliaryKeyShareRanges : List Range
  sniRange : Range
  recordLenRange : Range := (3,5)
  handshakeLenRange : Range := (6,9)
  extensionsLenRange : Range
  sniExtLenRange : Range
  sniListLenRange : Range
  sniNameLenRange : Range
  echGreaseRanges : Option EchGreaseRanges
  deriving DecidableEq, Repr

def parseClientHelloLayout (bytes : Bytes) : Option ClientHelloLayout := do
  let (_,sessionIdRange) ← clientHelloRandomAndSessionIdRanges bytes
  if bytes.length < 9 ∨ byteAt bytes 0 ≠ 0x16 ∨ byteAt bytes 5 ≠ 0x01 then none
  else
    let cipherSuitesLen ← readU16 bytes sessionIdRange.2
    let suitesEnd := sessionIdRange.2 + 2 + cipherSuitesLen
    if bytes.length ≤ suitesEnd then none
    else
      let extensionsLenStart := suitesEnd + 1 + (byteAt bytes suitesEnd).toNat
      let extensionsLen ← readU16 bytes extensionsLenStart
      let extensionsEnd := extensionsLenStart + 2 + extensionsLen
      if extensionsEnd > bytes.length then none
      else
        let found ← parseExtensions bytes extensionsEnd bytes.length (extensionsLenStart + 2) {}
        let keyShareRange ← found.keyShare
        let sniRange ← found.sni
        let sniExtLenRange ← found.sniExtLen
        let sniListLenRange ← found.sniListLen
        let sniNameLenRange ← found.sniNameLen
        some {
          sessionIdRange
          cipherSuitesRange := (sessionIdRange.2 + 2,suitesEnd)
          keyShareRange
          auxiliaryKeyShareRanges := found.auxiliary
          sniRange
          extensionsLenRange := (extensionsLenStart,extensionsLenStart + 2)
          sniExtLenRange
          sniListLenRange
          sniNameLenRange
          echGreaseRanges := found.ech }

def keptExtensions (bytes : Bytes) (stripped : List Nat) (extensionsEnd : Nat) : Nat → Nat → Option (Nat × Bytes)
  | 0,_ => some (0,[])
  | fuel+1,cursor =>
    if cursor + 4 ≤ extensionsEnd then do
      let extType ← readU16 bytes cursor
      let extLen ← readU16 bytes (cursor + 2)
      let extEnd := cursor + 4 + extLen
      if extEnd > extensionsEnd then none
      else
        let (removed,kept) ← keptExtensions bytes stripped extensionsEnd fuel extEnd
        if extType ∈ stripped then some (removed + (4 + extLen),kept)
        else some (removed,slice bytes cursor extEnd ++ kept)
    else some (0,[])

def stripNamedClientHelloExtensions (bytes : Bytes) (stripped : List Nat) : Option Bytes :=
  if bytes.length < 9 ∨ byteAt bytes 0 ≠ 0x16 ∨ byteAt bytes 5 ≠ 0x01 then none
  else if bytes.length ≤ 9 + 2 + 32 then none
  else do
    let suitesLenStart := 9 + 2 + 32 + 1 + (byteAt bytes (9 + 2 + 32)).toNat
    let cipherSuitesLen ← readU16 bytes suitesLenStart
    let suitesEnd := suitesLenStart + 2 + cipherSuitesLen
    if bytes.length ≤ suitesEnd then none
    else do
      let extensionsLenStart := suitesEnd + 1 + (byteAt bytes suitesEnd).toNat
      let extensionsLen ← readU16 bytes extensionsLenStart
      let cursor := extensionsLenStart + 2
      let extensionsEnd := cursor + extensionsLen
      if extensionsEnd > bytes.length then none
      else do
        let (removed,kept) ← keptExtensions bytes stripped extensionsEnd bytes.length cursor
        if removed = 0 then some bytes
        else do
          let out := bytes.take cursor ++ kept ++ bytes.drop extensionsEnd
          let newRecordLen ← adjustU16 (← readU16 out 3) (-removed)
          let newHandshakeLen ← adjustU24 (← readU24 out 6) (-removed)
          let out ← writeU16 out (3,5) newRecordLen
          let out ← writeU24 out (6,9) newHandshakeLen
          writeU16 out (extensionsLenStart,extensionsLenStart + 2) (extensionsLen - removed)

def strippedExtensionTypes : List Nat := []

def stripClientHelloExtensions (bytes : Bytes) : Option Bytes :=
  stripNamedClientHelloExtensions bytes strippedExtensionTypes

def setSniInPlace (bytes : Bytes) (layout : ClientHelloLayout) (sni : Bytes) : Option Bytes :=
  if sni.length > 0xffff then none
  else do
    let bytes := bytes.take layout.sniRange.1 ++ sni ++ bytes.drop layout.sniRange.2
    let delta : Int := sni.length - (layout.sniRange.2 - layout.sniRange.1 : Nat)
    let recordLen ← adjustU16 (← readU16 bytes layout.recordLenRange.1) delta
    let handshakeLen ← adjustU24 (← readU24 bytes layout.handshakeLenRange.1) delta
    let extensionsLen ← adjustU16 (← readU16 bytes layout.extensionsLenRange.1) delta
    let sniExtLen ← adjustU16 (← readU16 bytes layout.sniExtLenRange.1) delta
    let sniListLen ← adjustU16 (← readU16 bytes layout.sniListLenRange.1) delta
    let bytes ← writeU16 bytes layout.recordLenRange recordLen
    let bytes ← writeU24 bytes layout.handshakeLenRange handshakeLen
    let bytes ← writeU16 bytes layout.extensionsLenRange extensionsLen
    let bytes ← writeU16 bytes layout.sniExtLenRange sniExtLen
    let bytes ← writeU16 bytes layout.sniListLenRange sniListLen
    writeU16 bytes layout.sniNameLenRange sni.length

/- `find_extension`: the data of the first extension of a type. -/
def findExtensionFrom (bytes : Bytes) (extensionType extensionsEnd : Nat) : Nat → Nat → Option (Option Range)
  | 0,_ => some none
  | fuel+1,cursor =>
    if cursor + 4 ≤ extensionsEnd then do
      let extType ← readU16 bytes cursor
      let extLen ← readU16 bytes (cursor + 2)
      let extEnd := cursor + 4 + extLen
      if extEnd > extensionsEnd then none
      else if extType = extensionType then some (some (cursor + 4,extEnd))
      else findExtensionFrom bytes extensionType extensionsEnd fuel extEnd
    else some none

def findExtension (bytes : Bytes) (extensionsLenRange : Range) (extensionType : Nat) : Option (Option Range) := do
  let extensionsLen ← readU16 bytes extensionsLenRange.1
  findExtensionFrom bytes extensionType (extensionsLenRange.2 + extensionsLen) bytes.length extensionsLenRange.2

def paddingExtensionType : Nat := 0x0015

def validatePaddingExtensionZero (bytes : Bytes) (extensionsLenRange : Range) : Option Unit := do
  let extension ← findExtension bytes extensionsLenRange paddingExtensionType
  match extension with
  | none => some ()
  | some data =>
    if data.2 > bytes.length then none
    else if (slice bytes data.1 data.2).any (· != 0) then none else some ()

def supportedShare (share : Bytes) : Bool :=
  share.length == 1216 || (share.length == 65 && !share.isEmpty && byteAt share 0 == 0x04)

def validateAuxiliaryKeyShareShapes (bytes : Bytes) (ranges : List Range) : Option Unit :=
  if ranges.all (fun range => supportedShare (slice bytes range.1 range.2)) then some () else none

def isWhitespace (c : Char) : Bool :=
  (9 ≤ c.toNat && c.toNat ≤ 13) || [0x20,0x85,0xa0,0x1680,0x2028,0x2029,0x202f,0x205f,0x3000].contains c.toNat ||
    (0x2000 ≤ c.toNat && c.toNat ≤ 0x200a)

def trim (name : List Char) : List Char := ((name.dropWhile isWhitespace).reverse.dropWhile isWhitespace).reverse

def normalizeTlsFingerprint (name : List Char) : Option (List Char) :=
  if (trim name).map Char.toLower = "firefox".toList then some "firefox".toList else none

def validateFingerprint : Option (List Char) → Option Unit
  | none => some ()
  | some name => (normalizeTlsFingerprint name).map (fun _ => ())

structure ClientHelloTemplate where
  bytes : Bytes
  cipherSuitesRange : Range
  keyShareRange : Range
  auxiliaryKeyShareRanges : List Range
  extensionsLenRange : Range
  echGreaseRanges : Option EchGreaseRanges
  deriving DecidableEq, Repr

/- The name is patched only where it differs, and the patched bytes are parsed again. -/
def patchSni (bytes : Bytes) (layout : ClientHelloLayout) (sni : Bytes) : Option (Bytes × ClientHelloLayout) :=
  if slice bytes layout.sniRange.1 layout.sniRange.2 = sni then some (bytes,layout)
  else do
    let bytes ← setSniInPlace bytes layout sni
    let layout ← parseClientHelloLayout bytes
    some (bytes,layout)

/- `raw` is the custom template or else the captured one. -/
def buildClientHelloTemplate (sni : Bytes) (fingerprint : Option (List Char)) (raw : Bytes) :
    Option ClientHelloTemplate := do
  validateFingerprint fingerprint
  let bytes ← stripClientHelloExtensions raw
  let layout ← parseClientHelloLayout bytes
  let (bytes,layout) ← patchSni bytes layout sni
  validatePaddingExtensionZero bytes layout.extensionsLenRange
  validateAuxiliaryKeyShareShapes bytes layout.auxiliaryKeyShareRanges
  if layout.sessionIdRange.2 - layout.sessionIdRange.1 < 32 then none
  else if layout.keyShareRange.2 - layout.keyShareRange.1 ≠ 32 then none
  else some {
    bytes
    cipherSuitesRange := layout.cipherSuitesRange
    keyShareRange := layout.keyShareRange
    auxiliaryKeyShareRanges := layout.auxiliaryKeyShareRanges
    extensionsLenRange := layout.extensionsLenRange
    echGreaseRanges := layout.echGreaseRanges }

end KanoTls.Hello
