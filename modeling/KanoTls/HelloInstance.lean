import KanoTls.Hello
import Mathlib.Algebra.BigOperators.Group.List.Basic

/-! `ClientHelloTemplate::instantiate`: the hello of one connection, and what the server
reads from it. The keyed hash is a parameter; what the client draws at random is the
argument `Draws`. -/
namespace KanoTls.Hello
open Uot Wire Patch

/- `hash_with_key`: any function of a context and a key to 32 bytes. -/
structure KeyedHash where
  digest : Bytes → Bytes → Bytes
  size : ∀ context key, (digest context key).length = 32

def ascii (text : String) : Bytes := text.toList.map (fun c => UInt8.ofNat c.toNat)

def noiseEMaskContext : Bytes := ascii "kanotls-noise-e-mask-v1"
def counterMaskContext : Bytes := ascii "kanotls-counter-mask-v1"
def counterMacContext : Bytes := ascii "kanotls-counter-mac-v1"

def deriveNoiseEMask (hash : KeyedHash) (derivedPsk noiseTag : Bytes) : Bytes :=
  hash.digest noiseEMaskContext (noiseTag ++ derivedPsk)

def deriveCounterMask (hash : KeyedHash) (derivedPsk clientRandom : Bytes) : Bytes :=
  (hash.digest counterMaskContext (clientRandom ++ derivedPsk)).take 8

def deriveCounterMac (hash : KeyedHash) (derivedPsk clientRandom counterBytes randomPrefix : Bytes) : Bytes :=
  (hash.digest counterMacContext (clientRandom ++ counterBytes ++ randomPrefix ++ derivedPsk)).take 8

def xorBytes (a b : Bytes) : Bytes := List.zipWith (· ^^^ ·) a b

def maskNoiseEphemeralKey (hash : KeyedHash) (key derivedPsk noiseTag : Bytes) : Bytes :=
  xorBytes key (deriveNoiseEMask hash derivedPsk noiseTag)

def unmaskNoiseEphemeralKey (hash : KeyedHash) (masked derivedPsk noiseTag : Bytes) : Bytes :=
  xorBytes masked (deriveNoiseEMask hash derivedPsk noiseTag)

def u64ToBeBytes (n : Nat) : Bytes :=
  [UInt8.ofNat (n / 2^56),UInt8.ofNat (n / 2^48),UInt8.ofNat (n / 2^40),UInt8.ofNat (n / 2^32),
    UInt8.ofNat (n / 2^24),UInt8.ofNat (n / 2^16),UInt8.ofNat (n / 2^8),UInt8.ofNat n]

def u64FromBeBytes (b : Bytes) : Nat := b.foldl (fun n byte => n * 256 + byte.toNat) 0

/- `mac[7] &= !0x03`. -/
def maskMacFlags (mac : Bytes) : Bytes := put mac 7 [byteAt mac 7 &&& 0xfc]

structure Draws where
  x25519 : Option Bytes
  -- of the k-th auxiliary share
  coefficient : Nat → Nat → Nat
  rho : Nat → Nat → UInt8
  p256 : Nat → Option Bytes
  configId : UInt8
  enc : Nat → UInt8
  payload : Nat → UInt8
  macBits : UInt8
  -- of the extensions, the cipher suites, the groups and the versions
  grease : Nat → Nat → Nat

def fillBytes (draw : Nat → UInt8) (n : Nat) : Bytes := (List.range n).map draw

def generateX25519PublicKey (draws : Draws) : Option Bytes := draws.x25519.filter (fun key => key.length = 32)

def mlkem768Q : Nat := 3329

def fillMlkem768HybridShare (draws : Draws) (k : Nat) (x25519Public : Bytes) : Bytes :=
  (List.range 384).flatMap (fun i =>
    let d0 := draws.coefficient k (2 * i) % mlkem768Q
    let d1 := draws.coefficient k (2 * i + 1) % mlkem768Q
    [UInt8.ofNat d0,UInt8.ofNat (d0 / 256) ||| (UInt8.ofNat (d1 % 16) <<< 4),UInt8.ofNat (d1 / 16)]) ++
  fillBytes (draws.rho k) 32 ++ x25519Public

def refreshShare (draws : Draws) (k : Nat) (x25519Public out : Bytes) (range : Range) : Option Bytes :=
  if range.2 ≤ out.length then
    let shareData := slice out range.1 range.2
    if shareData.length = 1216 then some (put out range.1 (fillMlkem768HybridShare draws k x25519Public))
    else if shareData.length = 65 ∧ byteAt shareData 0 = 0x04 then
      match draws.p256 k with
      | none => none
      | some key => if key.length ≠ shareData.length then none else some (put out range.1 key)
    else none
  else some out

def refreshShares (draws : Draws) (x25519Public : Bytes) : Nat → List Range → Bytes → Option Bytes
  | _,[],out => some out
  | k,range::rest,out => do
    let out ← refreshShare draws k x25519Public out range
    refreshShares draws x25519Public (k + 1) rest out

def refreshEch (draws : Draws) (out : Bytes) : Option EchGreaseRanges → Bytes
  | none => out
  | some ech =>
    let out := put out ech.configId [draws.configId]
    let out := put out ech.enc.1 (fillBytes draws.enc (ech.enc.2 - ech.enc.1))
    put out ech.payload.1 (fillBytes draws.payload (ech.payload.2 - ech.payload.1))

def takeGreaseValue (draw : Nat) (used : List Nat) : Nat × List Nat :=
  let value := greaseValues.getD (draw % 16) 0
  let value :=
    if used.contains value then
      let flipped := value ^^^ 0x1010
      if used.contains flipped then (greaseValues.find? (fun v => !used.contains v)).getD value else flipped
    else value
  (value,used ++ [value])

def rotateList (draw : Nat → Nat) (stop : Nat) : Nat → Nat → List Nat → Bytes → Option Bytes
  | 0,_,_,bytes => some bytes
  | fuel+1,cursor,used,bytes =>
    if cursor + 2 ≤ stop then do
      let value ← readU16 bytes cursor
      if isGreaseValue value then
        let (value,used) := takeGreaseValue (draw used.length) used
        rotateList draw stop fuel (cursor + 2) used (put bytes cursor (toBeBytes value))
      else rotateList draw stop fuel (cursor + 2) used bytes
    else some bytes

def rotateExtensionTypes (draw : Nat → Nat) (extensionsEnd : Nat) : Nat → Nat → List Nat → Bytes → Option Bytes
  | 0,_,_,bytes => some bytes
  | fuel+1,cursor,used,bytes =>
    if cursor + 4 ≤ extensionsEnd then do
      let extType ← readU16 bytes cursor
      let extLen ← readU16 bytes (cursor + 2)
      let extEnd := cursor + 4 + extLen
      if extEnd > extensionsEnd then none
      else if isGreaseValue extType then
        let (value,used) := takeGreaseValue (draw used.length) used
        rotateExtensionTypes draw extensionsEnd fuel extEnd used (put bytes cursor (toBeBytes value))
      else rotateExtensionTypes draw extensionsEnd fuel extEnd used bytes
    else some bytes

def rotateGreaseExtensions (draws : Draws) (extensionsLenRange : Range) (bytes : Bytes) : Option Bytes := do
  let extensionsLen ← readU16 bytes extensionsLenRange.1
  rotateExtensionTypes (draws.grease 0) (extensionsLenRange.2 + extensionsLen) bytes.length extensionsLenRange.2 [] bytes

def rotateGreaseCipherSuites (draws : Draws) (cipherSuitesRange : Range) (bytes : Bytes) : Option Bytes :=
  if cipherSuitesRange.2 > bytes.length then none
  else rotateList (draws.grease 1) cipherSuitesRange.2 bytes.length cipherSuitesRange.1 [] bytes

def supportedGroupsExtensionType : Nat := 0x000a
def supportedVersionsExtensionType : Nat := 0x002b

def rotateGreaseSupportedGroups (draws : Draws) (extensionsLenRange : Range) (bytes : Bytes) : Option Bytes := do
  let extension ← findExtension bytes extensionsLenRange supportedGroupsExtensionType
  match extension with
  | none => some bytes
  | some data =>
    if data.2 > bytes.length ∨ data.2 - data.1 < 2 then none
    else do
      let groupsLen ← readU16 bytes data.1
      let groupsEnd := min (data.1 + 2 + groupsLen) data.2
      rotateList (draws.grease 2) groupsEnd bytes.length (data.1 + 2) [] bytes

def rotateGreaseSupportedVersions (draws : Draws) (extensionsLenRange : Range) (bytes : Bytes) : Option Bytes := do
  let extension ← findExtension bytes extensionsLenRange supportedVersionsExtensionType
  match extension with
  | none => some bytes
  | some data =>
    if data.2 > bytes.length ∨ data.2 = data.1 then none
    else
      let versionsEnd := min (data.1 + 1 + (byteAt bytes data.1).toNat) data.2
      rotateList (draws.grease 3) versionsEnd bytes.length (data.1 + 1) [] bytes

def applyClientHelloRandomization (draws : Draws) (cipherSuitesRange extensionsLenRange : Range) (bytes : Bytes) :
    Option Bytes := do
  let bytes ← rotateGreaseExtensions draws extensionsLenRange bytes
  let bytes ← rotateGreaseCipherSuites draws cipherSuitesRange bytes
  let bytes ← rotateGreaseSupportedGroups draws extensionsLenRange bytes
  rotateGreaseSupportedVersions draws extensionsLenRange bytes

def refreshed (draws : Draws) (t : ClientHelloTemplate) : Option Bytes := do
  let x25519Public ← generateX25519PublicKey draws
  if t.keyShareRange.2 - t.keyShareRange.1 ≠ x25519Public.length then none
  else
    let out := put t.bytes t.keyShareRange.1 x25519Public
    let out ← refreshShares draws x25519Public 0 t.auxiliaryKeyShareRanges out
    some (refreshEch draws out t.echGreaseRanges)

def sealHello (hash : KeyedHash) (derivedPsk pskE : Bytes) (counter : Nat) (macBits : UInt8) (out : Bytes) :
    Option Bytes := do
  let (random,session) ← clientHelloRandomAndSessionIdRanges out
  let out := put out session.1 (slice pskE 32 48)
  let maskedE := maskNoiseEphemeralKey hash (pskE.take 32) derivedPsk (slice out session.1 (session.1 + 16))
  let out := put out random.1 maskedE
  let maskedCounter := xorBytes (u64ToBeBytes counter) (deriveCounterMask hash derivedPsk maskedE)
  let mac := deriveCounterMac hash derivedPsk maskedE maskedCounter (maskedE.take 16)
  let out := put out (session.1 + 16) maskedCounter
  let out := put out (session.1 + 24) mac
  some (put out (session.1 + 31) [(byteAt out (session.1 + 31) &&& 0xfc) ||| (macBits &&& 0x03)])

def instantiate (hash : KeyedHash) (t : ClientHelloTemplate) (derivedPsk pskE : Bytes) (counter : Nat) (draws : Draws) :
    Option Bytes :=
  if pskE.length ≠ 48 then none
  else do
    let out ← refreshed draws t
    let out ← sealHello hash derivedPsk pskE counter draws.macBits out
    applyClientHelloRandomization draws t.cipherSuitesRange t.extensionsLenRange out

/- What `authenticate_client_hello` takes from the record before it knows a PSK. -/
structure HelloFields where
  random : Bytes
  noiseTag : Bytes
  maskedCounter : Bytes
  gotMac : Bytes
  deriving DecidableEq, Repr

def helloFields (pld : Bytes) : Option HelloFields := do
  let (random,session) ← clientHelloRandomAndSessionIdRanges pld
  let sessionId := slice pld session.1 session.2
  if sessionId.length < 32 then none
  else some {
    random := slice pld random.1 random.2
    noiseTag := sessionId.take 16
    maskedCounter := slice sessionId 16 24
    gotMac := maskMacFlags (slice sessionId 24 32) }

def macMatches (hash : KeyedHash) (derivedPsk : Bytes) (fields : HelloFields) : Bool :=
  fields.gotMac ==
    maskMacFlags (deriveCounterMac hash derivedPsk fields.random fields.maskedCounter (fields.random.take 16))

/- `check_counter_replay` up to the cache: the session number and the sequence number. -/
def counterOf (hash : KeyedHash) (derivedPsk random maskedCounter : Bytes) : Nat × Nat :=
  let rawCounter := u64FromBeBytes (xorBytes maskedCounter (deriveCounterMask hash derivedPsk random))
  (rawCounter / 2^24,rawCounter % 2^24)

structure Candidate where
  recoveredE : Bytes
  noiseTag : Bytes
  sessionId : Nat
  sequence : Nat
  deriving DecidableEq, Repr

/- One PSK of the loop, up to the Noise message: `none` goes on to the next. -/
def probe (hash : KeyedHash) (derivedPsk : Bytes) (fields : HelloFields) : Option Candidate :=
  if macMatches hash derivedPsk fields then
    let recoveredE := unmaskNoiseEphemeralKey hash fields.random derivedPsk fields.noiseTag
    if recoveredE = List.replicate 32 0 then none
    else
      let counter := counterOf hash derivedPsk fields.random fields.maskedCounter
      some ⟨recoveredE,fields.noiseTag,counter.1,counter.2⟩
  else none

/- The loop over the PSKs: `reads` is the Noise responder on the 48 bytes, `fresh` the two
replay checks. -/
def authenticateClientHello (hash : KeyedHash) (reads : Bytes → Bytes → Bool) (fresh : Bytes → Candidate → Bool)
    (pld : Bytes) (derivedPsks : List Bytes) : Option (Bytes × Candidate) := do
  let fields ← helloFields pld
  derivedPsks.findSome? (fun derivedPsk =>
    match probe hash derivedPsk fields with
    | none => none
    | some found =>
      if reads derivedPsk (found.recoveredE ++ found.noiseTag) ∧ fresh derivedPsk found then some (derivedPsk,
        found) else none)

end KanoTls.Hello
