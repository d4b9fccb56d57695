import KanoTls.TlsRecord
import KanoTls.HelloInstance

/-! The server's camouflage: the flight of a reference endpoint is sampled, kept as a
profile, and replayed with the Noise response in one of its records. The endpoint is the
stream of bytes it sends; `clock` gives the instant, in nanoseconds, at which its n-th
record has been read. -/
namespace KanoTls.Camouflage
open Uot Wire Patch Hello Tls

def maxCamouflageServerRecordBytes : Nat := 256 * 1024
def maxCamouflageTotalRecordBytes : Nat := 512 * 1024
def maxCamouflageAppDataRecords : Nat := 256
def maxCamouflageTotalRecords : Nat := 512
def maxCamouflagePrefixAppDataRecords : Nat := 4
def minCamouflageAppDataRecordLen : Nat := 17
def maxCamouflageAppDataRecordLen : Nat := 16401
def noiseResponseOverheadLen : Nat := 48
def handshakeControlLen : Nat := 6
def minNoiseResponseRecordLen : Nat := noiseResponseOverheadLen + handshakeControlLen
def handshakeControlMagic : Bytes := ascii "KTL1"

def helloRetryRequestRandom : Bytes :=
  [0xcf,0x21,0xad,0x74,0xe5,0x9a,0x61,0x11,0xbe,0x1d,0x8c,0x02,0x1e,0x65,0xb8,0x91,
    0xc2,0xa2,0x11,0x16,0x7a,0xbb,0x8c,0x5e,0x07,0x9e,0x09,0xe2,0xc8,0xa8,0x33,0x9c]

def isHelloRetryRequest (record : Bytes) : Bool :=
  if !isServerHello record || record.length < 43 then false else slice record 11 43 == helloRetryRequestRandom

structure CamouflageProfile where
  serverRecords : Bytes
  prefixAppDataSizes : List Nat
  appDataSizes : List Nat
  firstAppDataSize : Option Nat
  earlyAppDataCount : Nat
  hasCcs : Bool
  visibleServerRecordCount : Nat
  firstAppDataDelayUs : Nat
  earlyAppDataGapUs : List Nat
  deriving DecidableEq, Repr

/- `duration.as_micros().min(u32::MAX)`. -/
def micros (nanos : Nat) : Nat := min (nanos / 1000) 4294967295

/- The locals of `read_camouflage_server_records`. -/
structure Sampling where
  readState : TlsRecordReadState := {}
  serverRecords : Bytes := []
  foundServerHello : Bool := false
  prefixAppDataSizes : List Nat := []
  inPrefixRun : Bool := true
  appDataSizes : List Nat := []
  totalRecords : Nat := 0
  visibleServerRecordCount : Nat := 0
  hasCcs : Bool := false
  serverHelloSeen : Option Nat := none
  firstAppDataDelayUs : Option Nat := none
  lastAppDataSeen : Option Nat := none
  earlyAppDataGapUs : List Nat := []
  deriving DecidableEq, Repr

inductive Turn where
  | more (s : Sampling) | stop (s : Sampling) | fail
  deriving DecidableEq, Repr

def samplePrefix (len : Nat) (s : Sampling) : Sampling :=
  if s.inPrefixRun && len < minNoiseResponseRecordLen then
    if s.prefixAppDataSizes.length < maxCamouflagePrefixAppDataRecords then
      { s with prefixAppDataSizes := s.prefixAppDataSizes ++ [len] }
    else { s with inPrefixRun := false }
  else { s with inPrefixRun := false }

def sampleAppData (fast : Bool) (expected : Option Nat) (now len : Nat) (s : Sampling) : Turn :=
  let s := samplePrefix len s
  if s.appDataSizes.length ≥ maxCamouflageAppDataRecords then .stop s
  else
    let s := { s with
      firstAppDataDelayUs := some (s.firstAppDataDelayUs.getD ((s.serverHelloSeen.map (fun seen => micros (now - seen))).getD 0))
      earlyAppDataGapUs := s.earlyAppDataGapUs ++ (s.lastAppDataSeen.map (fun seen => micros (now - seen))).toList
      lastAppDataSeen := some now
      appDataSizes := s.appDataSizes ++ [len] }
    if fast && (expected.map (· == len)).getD true then .stop s else .more s

def sampleVisible (record : Bytes) (s : Sampling) : Turn :=
  let s := { s with visibleServerRecordCount := min (s.visibleServerRecordCount + 1) 65535 }
  if s.serverRecords.length + record.length > maxCamouflageServerRecordBytes then .stop s
  else .more { s with serverRecords := s.serverRecords ++ record }

def noteRecord (now : Nat) (got : Got) (s : Sampling) : Sampling :=
  let s := if got.typ == 0x16 && isServerHello got.record then { s with foundServerHello := true,serverHelloSeen := some now } else s
  if got.typ == 0x14 then { s with hasCcs := true } else s

def sampleRecord (fast : Bool) (expected : Option Nat) (now : Nat) (got : Got) (s : Sampling) : Turn :=
  let s := { s with readState := got.state,totalRecords := s.totalRecords + 1 }
  if s.totalRecords > maxCamouflageTotalRecords then .stop s
  else if got.typ == 0x16 && isServerHello got.record && isHelloRetryRequest got.record then .fail
  else
    let s := noteRecord now got s
    if s.foundServerHello && got.typ == 0x17 then sampleAppData fast expected now got.len s
    else sampleVisible got.record s

def sampleLimits : TlsRecordReadLimits := ⟨maxCamouflageTotalRecords,maxCamouflageTotalRecordBytes⟩

/- Every turn takes at least five bytes off the stream. -/
def sampleLoop (fast : Bool) (expected : Option Nat) (clock : Nat → Nat) : Nat → Bytes → Sampling → Option Sampling
  | 0,_,s => some s
  | fuel+1,stream,s =>
    match readTlsRecordBounded sampleLimits s.readState stream with
    | .error _ => some s
    | .ok got =>
      match sampleRecord fast expected (clock s.totalRecords) got s with
      | .more s => sampleLoop fast expected clock fuel got.rest s
      | .stop s => some s
      | .fail => none

def readCamouflageServerRecords (fast : Bool) (expected : Option Nat) (clock : Nat → Nat) (stream : Bytes) :
    Option CamouflageProfile := do
  let s ← sampleLoop fast expected clock (stream.length + 1) stream {}
  if !s.foundServerHello then none
  else some {
    serverRecords := s.serverRecords
    prefixAppDataSizes := s.prefixAppDataSizes
    appDataSizes := s.appDataSizes
    firstAppDataSize := s.appDataSizes.head?
    earlyAppDataCount := min s.appDataSizes.length 255
    hasCcs := s.hasCcs
    visibleServerRecordCount := s.visibleServerRecordCount
    firstAppDataDelayUs := s.firstAppDataDelayUs.getD 0
    earlyAppDataGapUs := s.earlyAppDataGapUs }

def plausibleSize (size : Nat) : Bool := minCamouflageAppDataRecordLen ≤ size && size ≤ maxCamouflageAppDataRecordLen

def sanitizeWasteRecordSizes (sizes : List Nat) : List Nat := sizes.filter plausibleSize

def sanitizeCamouflageProfile (p : CamouflageProfile) : CamouflageProfile :=
  let appDataSizes := (p.appDataSizes.filter plausibleSize).take maxCamouflageAppDataRecords
  { p with
    prefixAppDataSizes := (p.prefixAppDataSizes.filter plausibleSize).take maxCamouflagePrefixAppDataRecords
    appDataSizes
    firstAppDataSize := appDataSizes.head?
    earlyAppDataCount := min appDataSizes.length 255
    earlyAppDataGapUs := p.earlyAppDataGapUs.take (appDataSizes.length - 1) }

/- `merge_camouflage_profile` up to its last line; `sampled` has been sanitized. -/
def mergedProfile (cached sampled : CamouflageProfile) : CamouflageProfile :=
  let cached :=
    if sampled.serverRecords.isEmpty then cached
    else { cached with
      serverRecords := sampled.serverRecords
      visibleServerRecordCount := sampled.visibleServerRecordCount
      hasCcs := sampled.hasCcs }
  if sampled.prefixAppDataSizes.isEmpty && sampled.appDataSizes.isEmpty then cached
  else
    let cached := { cached with prefixAppDataSizes := sampled.prefixAppDataSizes }
    let cached :=
      if sampled.appDataSizes.length ≤ 1 && cached.appDataSizes.length > 1 then
        match sampled.appDataSizes.head? with
        | none => cached
        | some first => { cached with appDataSizes := cached.appDataSizes.set 0 first }
      else { cached with appDataSizes := sampled.appDataSizes,earlyAppDataGapUs := sampled.earlyAppDataGapUs }
    { cached with firstAppDataDelayUs := sampled.firstAppDataDelayUs }

def mergeCamouflageProfile (cached sampled : CamouflageProfile) : CamouflageProfile :=
  sanitizeCamouflageProfile (mergedProfile cached (sanitizeCamouflageProfile sampled))

def camouflageProfileRank (p : CamouflageProfile) : Nat :=
  if p.serverRecords.isEmpty then if p.appDataSizes.isEmpty then 0 else 1
  else if p.appDataSizes.length ≤ 1 then 2 else 3

/- `tag` is not of the code: it rides along and says where a profile comes from. -/
structure PooledProfile (ι : Type) where
  profile : CamouflageProfile
  fetchedAt : Nat
  tag : ι

def maxCamouflageProfileVariants : Nat := 4

def sameVariant (a b : CamouflageProfile) : Bool :=
  a.serverRecords == b.serverRecords && a.prefixAppDataSizes == b.prefixAppDataSizes && a.appDataSizes == b.appDataSizes &&
    a.earlyAppDataGapUs == b.earlyAppDataGapUs && a.firstAppDataDelayUs == b.firstAppDataDelayUs && a.hasCcs == b.hasCcs

def updateFirst {α : Type} (test : α → Bool) (change : α → α) : List α → List α
  | [] => []
  | x::rest => if test x then change x::rest else x::updateFirst test change rest

/- `min_by_key`: the place of the first of the smallest. -/
def oldest {ι : Type} (pool : List (PooledProfile ι)) : Nat :=
  pool.findIdx (fun e => pool.all (fun other => e.fetchedAt ≤ other.fetchedAt))

def pushProfileVariant {ι : Type} (now : Nat) (pool : List (PooledProfile ι)) (profile : CamouflageProfile) (tag : ι) :
    List (PooledProfile ι) :=
  let profile := sanitizeCamouflageProfile profile
  if pool.any (fun e => sameVariant e.profile profile) then
    updateFirst (fun e => sameVariant e.profile profile) (fun _ => ⟨profile,now,tag⟩) pool
  else
    let pool := pool ++ [⟨profile,now,tag⟩]
    if pool.length > maxCamouflageProfileVariants then pool.eraseIdx (oldest pool) else pool

def pickVariant {ι : Type} (draw : Nat) (pool : List (PooledProfile ι)) : Option (PooledProfile ι) :=
  let maxRank := (pool.map (fun e => camouflageProfileRank e.profile)).foldl max 0
  if maxRank = 0 then none
  else
    let usable := pool.filter (fun e => camouflageProfileRank e.profile = maxRank)
    usable[draw % usable.length]?

def sampleCamouflageProfile {ι : Type} (draw : Nat) (pool : List (PooledProfile ι)) : Option CamouflageProfile :=
  (pickVariant draw pool).map (fun e => sanitizeCamouflageProfile e.profile)

def replayGapBeforeUs (p : CamouflageProfile) (idx : Nat) : Nat :=
  if idx = 0 then p.firstAppDataDelayUs else p.earlyAppDataGapUs.getD (idx - 1) 0

def fallbackNoiseResponseRecordLen (sampled : List Nat) : Nat :=
  let largest := sampled.foldl max 0
  if largest ≥ minNoiseResponseRecordLen then min largest maxCamouflageAppDataRecordLen else minNoiseResponseRecordLen

def remaining17Sizes (sizes : List Nat) : List Nat :=
  let sampled := sanitizeWasteRecordSizes sizes
  let remaining := sampled.dropWhile (· < minNoiseResponseRecordLen)
  if remaining.isEmpty then [fallbackNoiseResponseRecordLen sampled] else remaining

structure ServerDraws where
  random : Nat → UInt8
  x25519 : Option Bytes
  p256 : Option Bytes
  mlkem : Nat → UInt8
  prefixByte : Nat → Nat → UInt8
  ghostByte : Nat → Nat → UInt8

def patchServerHelloSessionIdEcho (clientSessionId records : Bytes) : Nat → Nat → Option Bytes
  | 0,_ => none
  | fuel+1,offset =>
    if offset + 5 ≤ records.length then
      let recordTotal := 5 + u16At records (offset + 3)
      if offset + recordTotal > records.length then none
      else if byteAt records offset = 0x16 ∧ u16At records (offset + 3) > 0 ∧ byteAt records (offset + 5) = 0x02 then
        if offset + 43 ≥ offset + recordTotal then none
        else
          let echoLen := (byteAt records (offset + 43)).toNat
          if offset + 44 + echoLen > offset + recordTotal then none
          else if clientSessionId.length ≠ echoLen then none
          else some (put records (offset + 44) clientSessionId)
      else patchServerHelloSessionIdEcho clientSessionId records fuel (offset + recordTotal)
    else none

def tls12DowngradeSentinel : Bytes := [0x44,0x4f,0x57,0x4e,0x47,0x52,0x44,0x01]
def tls11DowngradeSentinel : Bytes := [0x44,0x4f,0x57,0x4e,0x47,0x52,0x44,0x00]

/- A downgrade sentinel in the last eight bytes stays. -/
def freshRandom (draw : Nat → UInt8) (last8 : Bytes) : Bytes :=
  if last8 = tls12DowngradeSentinel ∨ last8 = tls11DowngradeSentinel then (fillBytes draw 32).take 24 else fillBytes draw 32

/- `draw` yields the bytes of all fresh randoms one after another. -/
def patchServerHelloRandom (draw : Nat → UInt8) : Nat → Nat → Bytes → Bytes
  | 0,_,records => records
  | fuel+1,offset,records =>
    if offset + 5 ≤ records.length then
      let recordTotal := 5 + u16At records (offset + 3)
      if offset + recordTotal > records.length then records
      else if byteAt records offset = 0x16 ∧ u16At records (offset + 3) > 0 ∧ byteAt records (offset + 5) = 0x02 then
        if offset + 11 + 32 > offset + recordTotal then records
        else if slice records (offset + 11) (offset + 11 + 32) = helloRetryRequestRandom then
          patchServerHelloRandom draw fuel (offset + recordTotal) records
        else
          let last8 := slice records (offset + 11 + 24) (offset + 11 + 32)
          patchServerHelloRandom (fun i => draw (i + 32)) fuel (offset + recordTotal)
            (put records (offset + 11) (freshRandom draw last8))
      else patchServerHelloRandom draw fuel (offset + recordTotal) records
    else records

def keyShareFrom (records : Bytes) (extensionsEnd : Nat) : Nat → Nat → Option (Nat × Range)
  | 0,_ => none
  | fuel+1,cursor =>
    if cursor + 4 ≤ extensionsEnd then
      let extType := u16At records cursor
      let extLen := u16At records (cursor + 2)
      let dataEnd := cursor + 4 + extLen
      if dataEnd > extensionsEnd then none
      else if extType = 0x0033 then
        if extLen < 4 then none
        else
          let keLen := u16At records (cursor + 4 + 2)
          if cursor + 8 + keLen > dataEnd then none
          else some (u16At records (cursor + 4),(cursor + 8,cursor + 8 + keLen))
      else keyShareFrom records extensionsEnd fuel dataEnd
    else none

def serverHelloKeyShareRange (records : Bytes) : Nat → Nat → Option (Nat × Range)
  | 0,_ => none
  | fuel+1,offset =>
    if offset + 5 ≤ records.length then
      let recordEnd := offset + 5 + u16At records (offset + 3)
      if recordEnd > records.length then none
      else if byteAt records offset ≠ 0x16 ∨ u16At records (offset + 3) = 0 ∨ byteAt records (offset + 5) ≠ 0x02 then
        serverHelloKeyShareRange records fuel recordEnd
      else
        let cursor := offset + 43
        if cursor ≥ recordEnd then none
        else
          let cursor := cursor + (1 + (byteAt records cursor).toNat + 2 + 1)
          if cursor + 2 > recordEnd then none
          else
            let extensionsEnd := cursor + 2 + u16At records cursor
            if extensionsEnd > recordEnd then none
            else keyShareFrom records extensionsEnd records.length (cursor + 2)
    else none

def mlkem768CiphertextLen : Nat := 1088

def freshKeyShare (draws : ServerDraws) (group len : Nat) : Option Bytes :=
  let x25519 := draws.x25519.filter (fun key => key.length = 32)
  if group = 0x001d ∧ len = 32 then x25519
  else if group = 0x0017 ∧ len = 65 then draws.p256.filter (fun key => key.length = len)
  else if group = 0x11ec ∧ len = mlkem768CiphertextLen + 32 then
    x25519.map (fun key => fillBytes draws.mlkem mlkem768CiphertextLen ++ key)
  else none

def patchServerHelloKeyShare (draws : ServerDraws) (records : Bytes) : Option Bytes := do
  let (group,range) ← serverHelloKeyShareRange records records.length 0
  let key ← freshKeyShare draws group (range.2 - range.1)
  some (put records range.1 key)

def patchedServerRecords (draws : ServerDraws) (clientSessionId records : Bytes) : Option Bytes := do
  let records ← patchServerHelloSessionIdEcho clientSessionId records records.length 0
  patchServerHelloKeyShare draws (patchServerHelloRandom draws.random records.length 0 records)

def appDataRecord (draw : Nat → UInt8) (size : Nat) : TlsRecord := ⟨0x17,0x03,0x03,fillBytes draw size⟩

def prefixRecords (draws : ServerDraws) (sizes : List Nat) : List TlsRecord :=
  sizes.mapIdx (fun k size => appDataRecord (draws.prefixByte k) size)

def makeControlPayload (ghostCount : Nat) : Bytes := handshakeControlMagic ++ toBeBytes ghostCount

def xorInPlace (payload mask : Bytes) : Bytes := put payload 0 (xorBytes (payload.take 32) mask)

/- `write` is `write_message` of the server's Noise state. -/
def buildNoiseResponseSequence (write : Bytes → Option Bytes) (serverEMask : Bytes) (draws : ServerDraws) :
    List Nat → Option (List TlsRecord)
  | [] => some []
  | firstSize::ghosts =>
    let dummyLen := firstSize - noiseResponseOverheadLen
    if dummyLen < handshakeControlLen then none
    else do
      let dummyPayload := put (List.replicate dummyLen 0) 0 (makeControlPayload ghosts.length)
      let reply ← write dummyPayload
      if reply.length < minNoiseResponseRecordLen then none
      else some (⟨0x17,0x03,0x03,xorInPlace reply serverEMask⟩::
        ghosts.mapIdx (fun k size => appDataRecord (draws.ghostByte k) size))

def extractClientHelloSessionId (clientHello : Bytes) : Option Bytes := do
  let (_,session) ← clientHelloRandomAndSessionIdRanges clientHello
  some (slice clientHello session.1 session.2)

def establishSyntheticCamouflageTunnel (write : Bytes → Option Bytes) (serverEMask clientHello : Bytes) (draws : ServerDraws)
    (p : CamouflageProfile) : Option (Bytes × List TlsRecord) := do
  let clientSessionId ← extractClientHelloSessionId clientHello
  let serverRecords ← patchedServerRecords draws clientSessionId p.serverRecords
  let noiseRecords ← buildNoiseResponseSequence write serverEMask draws (remaining17Sizes p.appDataSizes)
  some (serverRecords,prefixRecords draws p.prefixAppDataSizes ++ noiseRecords)

end KanoTls.Camouflage
