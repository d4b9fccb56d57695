import KanoTls.Camouflage
import KanoTls.IpText
import KanoTls.Lru
import KanoTls.Program

/-! How an authenticated handshake comes by a camouflage flight: the cached profiles, the
cooldown behind a failed sampling, and the gate behind which one task of a fingerprint family
samples while the others wait. Every lock, load and store of the source is one call of a
program, so that tasks interleave between any two of them; each `await` may also be the last
one of a task that is dropped there. -/
namespace KanoTls.CamouflageFetch
open Uot Wire Text Lru Program Camouflage

def maxCamouflageProfiles : Nat := 1024
def maxCamouflageRefreshFailures : Nat := 1024
def camouflageRefreshFailureCooldownSecs : Nat := 30
def startupCamouflageSampleCount : Nat := 4

def hexChars : Text := "0123456789abcdef".toList

def hexEncodeFingerprint (fingerprint : Bytes) : Text :=
  fingerprint.flatMap (fun b => [(hexChars[b.toNat / 16]?).getD '0',(hexChars[b.toNat % 16]?).getD '0'])

structure Site where
  host : Text
  port : UInt16
  deriving DecidableEq, Repr

/- `format!("{}:{}", host, port)`, in front of every key. -/
def Site.text (site : Site) : Text := site.host ++ ':'::IpText.decimal site.port.toNat

def camouflageProfileKey (site : Site) (fingerprintHex : Text) : Text := site.text ++ ':'::fingerprintHex
def camouflageBaselineKey (site : Site) (family : Text) : Text := site.text ++ (":baseline:".toList ++ family)
def camouflageRefreshCooldownKey (site : Site) (family : Text) : Text := site.text ++ (":refresh:".toList ++ family)
def camouflageRefreshGateKey (site : Site) (family : Text) : Text := site.text ++ (":gate:".toList ++ family)

structure CamouflageCacheKeys where
  profile : Text
  familyBaseline : Text
  probeBaseline : Text
  refreshCooldown : Text
  refreshGate : Text
  deriving DecidableEq, Repr

def familyOf (fingerprintHex : Text) : Text :=
  if fingerprintHex.length ≥ 8 then fingerprintHex.take 8 else "probe".toList

def camouflageCacheKeys (site : Site) (fingerprint : Bytes) : CamouflageCacheKeys :=
  let fingerprintHex := hexEncodeFingerprint fingerprint
  let family := familyOf fingerprintHex
  { profile := camouflageProfileKey site fingerprintHex
    familyBaseline := camouflageBaselineKey site family
    probeBaseline := camouflageBaselineKey site "probe".toList
    refreshCooldown := camouflageRefreshCooldownKey site family
    refreshGate := camouflageRefreshGateKey site family }

def isCompleteCamouflageProfile (p : CamouflageProfile) : Bool := camouflageProfileRank p = 3

def pickBestCamouflageProfile (candidates : List CamouflageProfile) : Option CamouflageProfile :=
  (candidates.foldl (fun best candidate =>
    let rank := camouflageProfileRank candidate
    if rank > best.2 then (some candidate,rank) else best) (none,0)).1

def pickRefreshBaseProfile (cachedSpecific cachedFamily : Option CamouflageProfile) : Option CamouflageProfile :=
  pickBestCamouflageProfile (cachedSpecific.toList ++ cachedFamily.toList)

/- `notified` counts the calls of `notify_waiters`: a `Notified` future is ready once the count
has moved on from where it was created. -/
structure Gate where
  completed : Bool := false
  notified : Nat := 0
  deriving DecidableEq, Repr

/- The global caches. A gate is named by its place among all gates ever made. -/
structure Caches where
  profiles : Cache Text (List (PooledProfile Unit)) := ⟨maxCamouflageProfiles,[]⟩
  failures : Cache Text Nat := ⟨maxCamouflageRefreshFailures,[]⟩
  inflight : Cache Text Nat := ⟨maxCamouflageRefreshFailures,[]⟩
  gates : List Gate := []
  cleanups : List (Text × Nat) := []
  now : Nat := 0

inductive Op where
  | getEntry (key : Text)
  | coolingDown (key : Text)
  | noteFailure (key : Text)
  | clearFailure (key : Text)
  | store (key : Text) (profile : CamouflageProfile)
  | acquire (key : Text)
  | sample (site : Site) (fast : Bool) (expectedFirst : Option Nat)
  | load (gate : Nat)
  | notified (gate : Nat)
  | sleep (gate seen : Nat)
  | complete (gate : Nat)
  | notifyWaiters (gate : Nat)
  | cleanup (key : Text) (gate : Nat)
  deriving DecidableEq

/- Where an answer is optional there is an `await`, and `none` is that the task was dropped at it. -/
abbrev Answer : Op → Type
  | .getEntry _ => Option (Option CamouflageProfile)
  | .coolingDown _ => Option Bool
  | .noteFailure _ => Option Unit
  | .clearFailure _ => Option Unit
  | .store _ _ => Option Unit
  | .acquire _ => Option (Nat × Bool)
  | .sample _ _ _ => Option (Option CamouflageProfile)
  | .load _ => Bool
  | .notified _ => Nat
  | .sleep _ _ => Option Unit
  | .complete _ => Unit
  | .notifyWaiters _ => Unit
  | .cleanup _ _ => Unit

inductive Choice where
  | run
  | drop
  | draw (n : Nat)
  | unreachable
  | endpoint (clock : Nat → Nat) (stream : Bytes)
  | contended
  | noRuntime
  | pass (nanos : Nat)
  | deferred (i : Nat)

def coolingDown (s : Caches) (key : Text) : Bool × Caches :=
  match s.failures.get key with
  | (none,_) => (false,s)
  | (some failedAt,failures) =>
    if s.now - failedAt ≤ camouflageRefreshFailureCooldownSecs * 1000000000 then (true,{ s with failures := failures })
    else (false,{ s with failures := failures.pop key })

def storeProfile (s : Caches) (key : Text) (profile : CamouflageProfile) : Caches :=
  let (pool,profiles) := s.profiles.get key
  { s with profiles := profiles.put key (pushProfileVariant s.now (pool.getD []) profile ()) }

def newGate (s : Caches) (inflight : Cache Text Nat) (key : Text) : (Nat × Bool) × Caches :=
  ((s.gates.length,true),{ s with gates := s.gates ++ [{}],inflight := inflight.put key s.gates.length })

def isCompleted (s : Caches) (gate : Nat) : Bool := (s.gates[gate]?.map (·.completed)).getD false

def acquireGate (s : Caches) (key : Text) : (Nat × Bool) × Caches :=
  match s.inflight.get key with
  | (none,_) => newGate s s.inflight key
  | (some existing,inflight) =>
    if isCompleted s existing then newGate s (inflight.pop key) key
    else ((existing,false),{ s with inflight := inflight })

def cleanupGate (s : Caches) (key : Text) (gate : Nat) : Caches :=
  if s.inflight.lookup key = some gate then { s with inflight := s.inflight.pop key } else s

def updateGate (s : Caches) (gate : Nat) (change : Gate → Gate) : Caches := { s with gates := s.gates.modify gate change }

def act (s : Caches) : (e : Op) → Choice → Option (Answer e × Caches)
  | .getEntry _,.drop | .coolingDown _,.drop | .noteFailure _,.drop | .clearFailure _,.drop | .store _ _,.drop
  | .acquire _,.drop | .sample _ _ _,.drop | .sleep _ _,.drop => some (none,s)
  | .getEntry key,.draw n =>
    let (pool,profiles) := s.profiles.get key
    some (some (pool.bind (sampleCamouflageProfile n)),{ s with profiles := profiles })
  | .coolingDown key,.run => some (some (coolingDown s key).1,(coolingDown s key).2)
  | .noteFailure key,.run => some (some (),{ s with failures := s.failures.put key s.now })
  | .clearFailure key,.run => some (some (),{ s with failures := s.failures.pop key })
  | .store key profile,.run => some (some (),storeProfile s key profile)
  | .acquire key,.run => some (some (acquireGate s key).1,(acquireGate s key).2)
  | .sample _ _ _,.unreachable => some (some none,s)
  | .sample _ fast expectedFirst,.endpoint clock stream =>
    some (some (readCamouflageServerRecords fast expectedFirst clock stream),s)
  | .load gate,.run => some (isCompleted s gate,s)
  | .notified gate,.run => some ((s.gates[gate]?.map (·.notified)).getD 0,s)
  -- the sleeper is woken by a later `notify_waiters` only
  | .sleep gate seen,.run => if (s.gates[gate]?.map (·.notified)).getD 0 = seen then none else some (some (),s)
  | .complete gate,.run => some ((),updateGate s gate (fun g => { g with completed := true }))
  | .notifyWaiters gate,.run => some ((),updateGate s gate (fun g => { g with notified := g.notified + 1 }))
  -- with the table locked elsewhere the cleanup is left to a task of its own
  | .cleanup key gate,.run => some ((),cleanupGate s key gate)
  | .cleanup key gate,.contended => some ((),{ s with cleanups := s.cleanups ++ [(key,gate)] })
  | .cleanup _ _,.noRuntime => some ((),s)
  | _,_ => none

def drift (s : Caches) : Choice → Option Caches
  | .pass nanos => some { s with now := s.now + nanos }
  | .deferred i => do
    let (key,gate) ← s.cleanups[i]?
    some (cleanupGate { s with cleanups := s.cleanups.eraseIdx i } key gate)
  | _ => none

def world : World Op Answer Caches Choice := ⟨act,drift⟩

inductive FetchError where
  | unprintable
  | coolingDown
  | sampling
  | noFlight
  | dropped
  | stalled
  deriving DecidableEq, Repr

abbrev Fetch := ExceptT FetchError (Program Op Answer)

/- The rest of the task is dropped with its `await`. -/
def awaited {α : Type} (asked : Program Op Answer (Option α)) : Fetch α := ExceptT.mk do
  match ← asked with
  | some a => pure (.ok a)
  | none => pure (.error .dropped)

def getCachedCamouflageProfileEntry (key : Text) : Fetch (Option CamouflageProfile) := awaited (perform (Op.getEntry key))
def camouflageRefreshIsCoolingDown (key : Text) : Fetch Bool := awaited (perform (Op.coolingDown key))
def noteCamouflageRefreshFailure (key : Text) : Fetch Unit := awaited (perform (Op.noteFailure key))
def clearCamouflageRefreshFailure (key : Text) : Fetch Unit := awaited (perform (Op.clearFailure key))
def storeCamouflageProfile (key : Text) (profile : CamouflageProfile) : Fetch Unit := awaited (perform (Op.store key profile))
def acquireCamouflageRefreshGate (key : Text) : Fetch (Nat × Bool) := awaited (perform (Op.acquire key))
def sampleCamouflageServer (site : Site) (fast : Bool) (expectedFirst : Option Nat) : Fetch (Option CamouflageProfile) :=
  awaited (perform (Op.sample site fast expectedFirst))

def lookupFrom : List Text → Option CamouflageProfile → Nat → Fetch (Option CamouflageProfile)
  | [],best,_ => pure best
  | key::rest,best,bestRank => do
    match ← getCachedCamouflageProfileEntry key with
    | none => lookupFrom rest best bestRank
    | some profile =>
      let rank := camouflageProfileRank profile
      if rank = 3 then pure (some profile)
      else if rank > bestRank then lookupFrom rest (some profile) rank
      else lookupFrom rest best bestRank

def lookupCachedCamouflageProfile (keys : CamouflageCacheKeys) : Fetch (Option CamouflageProfile) :=
  lookupFrom [keys.profile,keys.familyBaseline,keys.probeBaseline] none 0

/- The loop behind the first look at the gate; it stalls when `rounds` are not enough. -/
def waitRounds (gate : Nat) : Nat → Fetch Unit
  | 0 => throw .stalled
  | rounds+1 => do
    let seen ← (perform (Op.notified gate) : Program Op Answer Nat)
    if ← (perform (Op.load gate) : Program Op Answer Bool) then pure ()
    else do
      awaited (perform (Op.sleep gate seen))
      if ← (perform (Op.load gate) : Program Op Answer Bool) then pure () else waitRounds gate rounds

def waitForCamouflageRefreshGate (rounds gate : Nat) : Fetch Unit := do
  if ← (perform (Op.load gate) : Program Op Answer Bool) then pure () else waitRounds gate rounds

structure CamouflageRefreshGateLease where
  key : Text
  gate : Nat
  deriving DecidableEq, Repr

/- `release_now`, and `drop` of a lease that was not released. -/
def releaseLease (lease : CamouflageRefreshGateLease) : Program Op Answer Unit := do
  perform (Op.complete lease.gate)
  perform (Op.notifyWaiters lease.gate)
  perform (Op.cleanup lease.key lease.gate)

def releaseNow : Option CamouflageRefreshGateLease → Fetch Unit
  | none => pure ()
  | some lease => liftM (releaseLease lease)

/- A leader that is dropped at an `await` drops its lease too; all other ways out of the body
have released it. -/
def withLease {α : Type} (lease : CamouflageRefreshGateLease) (body : Fetch α) : Fetch α := ExceptT.mk do
  match ← body.run with
  | .error .dropped => do
    releaseLease lease
    pure (.error .dropped)
  | result => pure result

structure Flight where
  serverRecords : Bytes
  sizes : List Nat
  profile : CamouflageProfile
  deriving DecidableEq, Repr

def cachedFlight (profile : CamouflageProfile) : Flight := ⟨profile.serverRecords,profile.appDataSizes,profile⟩

structure Found where
  cached : Option CamouflageProfile
  specific : Option CamouflageProfile
  family : Option CamouflageProfile
  probe : Option CamouflageProfile
  deriving DecidableEq, Repr

def Found.refreshBase (found : Found) : Option CamouflageProfile := pickRefreshBaseProfile found.specific found.family

def Found.handshake (found : Found) : Option CamouflageProfile := found.cached.filter (fun p => !p.serverRecords.isEmpty)

def Found.expectedFirst (found : Found) : Option Nat := found.refreshBase.bind (fun p => p.appDataSizes.head?)

def Found.complete (found : Found) : Option CamouflageProfile :=
  match pickBestCamouflageProfile ((found.specific.toList ++ found.family.toList).filter isCompleteCamouflageProfile) with
  | some profile => some profile
  | none =>
    if found.specific.isNone && found.family.isNone then found.probe.filter isCompleteCamouflageProfile else none

def lookups (keys : CamouflageCacheKeys) : Fetch Found := do
  let cached ← lookupCachedCamouflageProfile keys
  let specific ← getCachedCamouflageProfileEntry keys.profile
  let family ← getCachedCamouflageProfileEntry keys.familyBaseline
  let probe ← getCachedCamouflageProfileEntry keys.probeBaseline
  pure ⟨cached,specific,family,probe⟩

def keepSampled (keys : CamouflageCacheKeys) (found : Found) (sampled : CamouflageProfile) : Fetch Flight := do
  match found.refreshBase with
  | some _ => do
    let entry ← getCachedCamouflageProfileEntry keys.profile
    let cachedEntry := ((entry.or found.refreshBase).or found.cached).getD (sanitizeCamouflageProfile sampled)
    let merged := mergeCamouflageProfile cachedEntry sampled
    storeCamouflageProfile keys.profile merged
    storeCamouflageProfile keys.familyBaseline merged
    pure ⟨sampled.serverRecords,sanitizeWasteRecordSizes merged.appDataSizes,merged⟩
  | none => do
    let kept := sanitizeCamouflageProfile sampled
    storeCamouflageProfile keys.profile kept
    storeCamouflageProfile keys.familyBaseline kept
    pure ⟨sampled.serverRecords,kept.appDataSizes,kept⟩

def refreshFlight (site : Site) (keys : CamouflageCacheKeys) (found : Found) (lease : Option CamouflageRefreshGateLease) :
    Fetch Flight := do
  match ← sampleCamouflageServer site found.expectedFirst.isSome found.expectedFirst with
  | some sampled => do
    clearCamouflageRefreshFailure keys.refreshCooldown
    let flight ← keepSampled keys found sampled
    releaseNow lease
    pure flight
  | none => do
    noteCamouflageRefreshFailure keys.refreshCooldown
    releaseNow lease
    match found.handshake with
    | some profile => pure (cachedFlight profile)
    | none => throw .sampling

/- The path of a task that does not lead: it waits for the one that does, and samples by
itself only when that has left neither a flight nor a cooldown. -/
def followFlight (rounds : Nat) (site : Site) (keys : CamouflageCacheKeys) (found : Found) (gate : Nat) : Fetch Flight := do
  waitForCamouflageRefreshGate rounds gate
  let cachedAfterWait ← lookupCachedCamouflageProfile keys
  match cachedAfterWait.filter (fun p => !p.serverRecords.isEmpty) with
  | some profile => pure (cachedFlight profile)
  | none => do
    if ← camouflageRefreshIsCoolingDown keys.refreshCooldown then throw .coolingDown
    else refreshFlight site keys found none

def fetchCamouflageFlight (rounds : Nat) (site : Site) (fingerprint : Option Bytes) : Fetch Flight := do
  match fingerprint with
  | none => throw .unprintable
  | some fingerprint => do
    let keys := camouflageCacheKeys site fingerprint
    let found ← lookups keys
    match found.complete with
    | some profile => pure (cachedFlight profile)
    | none => do
      if ← camouflageRefreshIsCoolingDown keys.refreshCooldown then
        match found.handshake with
        | some profile => pure (cachedFlight profile)
        | none => throw .coolingDown
      else do
        let (gate,leads) ← acquireCamouflageRefreshGate keys.refreshGate
        if leads then
          let lease : CamouflageRefreshGateLease := ⟨keys.refreshGate,gate⟩
          withLease lease (refreshFlight site keys found (some lease))
        else followFlight rounds site keys found gate

def resampleProfile (site : Site) (key : Text) (cached : Option CamouflageProfile) (fast : Bool) (first : Option Nat) : Fetch Unit := do
  match ← sampleCamouflageServer site fast first with
  | some profile => storeCamouflageProfile key ((cached.map (fun cached => mergeCamouflageProfile cached profile)).getD profile)
  | none => pure ()

def refreshDaemonRound (site : Site) (fingerprint : Option Bytes) : Fetch Unit := do
  match fingerprint with
  | none => pure ()
  | some fingerprint => do
    let key := camouflageProfileKey site (hexEncodeFingerprint fingerprint)
    let cached ← getCachedCamouflageProfileEntry key
    let expectedFirst := cached.bind (fun p => p.appDataSizes.head?)
    resampleProfile site key cached expectedFirst.isSome expectedFirst

def sampleStartup (site : Site) : Nat → List CamouflageProfile → Fetch (List CamouflageProfile)
  | 0,sampled => pure sampled
  | count+1,sampled => do
    match ← sampleCamouflageServer site false none with
    | none => throw .sampling
    | some profile => sampleStartup site count (if profile.firstAppDataSize.isSome then sampled ++ [profile] else sampled)

def storeStartup (site : Site) (fingerprintHex : Text) : List CamouflageProfile → Fetch Unit
  | [] => pure ()
  | profile::rest => do
    storeCamouflageProfile (camouflageProfileKey site fingerprintHex) profile
    storeCamouflageProfile (camouflageBaselineKey site "probe".toList) profile
    storeStartup site fingerprintHex rest

def validateCamouflageTls13Flight (site : Site) (fingerprint : Option Bytes) : Fetch Unit := do
  match fingerprint with
  | none => throw .unprintable
  | some fingerprint => do
    let sampled ← sampleStartup site startupCamouflageSampleCount []
    if sampled.isEmpty then throw .noFlight else storeStartup site (hexEncodeFingerprint fingerprint) sampled

inductive Job where
  | fetch (rounds : Nat) (site : Site) (fingerprint : Option Bytes)
  | daemon (site : Site) (fingerprint : Option Bytes)
  | startup (site : Site) (fingerprint : Option Bytes)

def body : Job → Program Op Answer (Except FetchError (Option Flight))
  | .fetch rounds site fingerprint => (some <$> fetchCamouflageFlight rounds site fingerprint).run
  | .daemon site fingerprint => ((fun _ => none) <$> refreshDaemonRound site fingerprint).run
  | .startup site fingerprint => ((fun _ => none) <$> validateCamouflageTls13Flight site fingerprint).run

abbrev Fetches := Pool Job Op Answer (Except FetchError (Option Flight)) Caches

end KanoTls.CamouflageFetch
