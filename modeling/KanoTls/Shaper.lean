import Mathlib.Algebra.BigOperators.Group.List.Basic
import Mathlib.Algebra.Order.Ring.Int

/-! `TrafficShaper` of `shaper.rs`: one policy for each data record. What the source
draws at random (sizes, delays, the offset of a fake interaction, script or sampler in
the blend window) is the argument `Draw`; sizes are bytes, a delay is none or some. -/
namespace KanoTls.Shaper

def tlsRecordHeaderLen : Nat := 5
def blockLenPrefixSize : Nat := 2
def innerContentTypeLen : Nat := 1
def aeadTagLen : Nat := 16
def blockPlaintextSize : Nat := 16384 + innerContentTypeLen
def dataRecordCapacity : Nat := blockPlaintextSize - blockLenPrefixSize - innerContentTypeLen
def dataRecordWireLen (payloadLen : Nat) : Nat :=
  tlsRecordHeaderLen + blockLenPrefixSize + payloadLen + innerContentTypeLen + aeadTagLen
def maxDataRecordWireLen : Nat := tlsRecordHeaderLen + blockPlaintextSize + aeadTagLen
def minDataWireLen : Nat := tlsRecordHeaderLen + blockLenPrefixSize + innerContentTypeLen + aeadTagLen
def minDataRecordPayload : Nat := 160 + 1 - minDataWireLen
def maxPendingFlushSize : Nat := 256*1024
def bulkFastPathThreshold : Nat := maxPendingFlushSize / 2
def scriptBlendWindow : Nat := 6
def firstRecordPayloadLo : Nat := 152
def firstRecordPayloadHi : Nat := 248
def maxDataRecordPayload : Nat := 1400
def maxU8 : Nat := 255

structure ScriptRule where
  lenLo : Nat
  lenHi : Nat
  delays : Bool
  expectResponses : Nat
  fakeJitter : Int
  deriving DecidableEq, Repr

structure ShapePolicy where
  targetWireLen : Nat
  delay : Bool := false
  fake : Option Nat := none
  preFake : Option Nat := none
  allowFullBlock : Bool := false
  quietGap : Bool := false
  deriving DecidableEq, Repr

/- `gen_range(lo..=hi)`: any value drawn is brought into the range. -/
def genRange (lo hi drawn : Int) : Int := max lo (min drawn hi)

/- `offset` is the jitter of a fake interaction: before this record, after it, or after
a later one. -/
structure Draw where
  payload : Nat
  delay : Bool := false
  offset : Int := 0
  scripted : Bool := false
  deriving DecidableEq, Repr

structure TrafficShaper where
  client : Bool
  packetSeq : Nat := 0
  script : List ScriptRule := []
  scriptStop : Nat := 0
  deferredFakes : List (Nat × Nat) := []
  postScriptOff : Bool := false
  bulkRun : Bool := false
  deriving DecidableEq, Repr

namespace TrafficShaper

def beginDrain (sh : TrafficShaper) : TrafficShaper := {sh with bulkRun := false}
def advance (sh : TrafficShaper) : TrafficShaper := {sh with packetSeq := sh.packetSeq + 1}

def fakeDue (sh : TrafficShaper) (entry : Nat × Nat) : Bool :=
  decide (sh.packetSeq ≥ sh.scriptStop) || decide (sh.packetSeq ≥ entry.1)

def releaseDueFakes (sh : TrafficShaper) (policy : ShapePolicy) : ShapePolicy × TrafficShaper :=
  let due := sh.deferredFakes.filter sh.fakeDue
  let total := policy.fake.getD 0 + (due.map (·.2)).sum
  (if sh.deferredFakes.isEmpty || decide (total = 0) then policy else {policy with fake := some (min total maxU8)},
    {sh with deferredFakes := sh.deferredFakes.filter (fun entry => !sh.fakeDue entry)})

def scriptPolicy (sh : TrafficShaper) (rule : ScriptRule) (draw : Draw) : ShapePolicy × TrafficShaper :=
  let payload := (genRange rule.lenLo rule.lenHi draw.payload).toNat
  let target := dataRecordWireLen (min (max payload minDataRecordPayload) dataRecordCapacity)
  let delay := rule.delays && draw.delay
  let expects := decide (rule.expectResponses > 0)
  let offset := genRange (min 0 rule.fakeJitter) (max 0 rule.fakeJitter) draw.offset
  ({targetWireLen := target,delay := delay
    preFake := if expects && decide (offset < 0) then some rule.expectResponses else none
    fake := if expects && decide (offset = 0) then some rule.expectResponses else none},
   {sh with deferredFakes := if expects && decide (offset > 0) then
      sh.deferredFakes ++ [(sh.packetSeq + offset.toNat,rule.expectResponses)] else sh.deferredFakes})

/- `next_data_record_payload` keeps to its bounds. -/
def interactivePolicy (draw : Draw) : ShapePolicy :=
  {targetWireLen := dataRecordWireLen (genRange minDataRecordPayload maxDataRecordPayload draw.payload).toNat}

def usesScript (sh : TrafficShaper) (draw : Draw) : Bool :=
  decide (sh.packetSeq ≤ sh.scriptStop) ||
  (draw.scripted && decide (sh.packetSeq < sh.scriptStop + scriptBlendWindow))

def rawPolicy (sh : TrafficShaper) (draw : Draw) (pendingLen : Nat) : ShapePolicy × TrafficShaper :=
  if sh.packetSeq = 0 ∧ sh.client = true then
    ({targetWireLen := dataRecordWireLen (genRange firstRecordPayloadLo firstRecordPayloadHi draw.payload).toNat
      quietGap := !sh.postScriptOff},sh)
  else if pendingLen ≥ bulkFastPathThreshold ∨ pendingLen ≥ dataRecordCapacity then
    ({targetWireLen := maxDataRecordWireLen,allowFullBlock := true},{sh with bulkRun := true})
  else if sh.bulkRun = true ∧ pendingLen < dataRecordCapacity then
    ({targetWireLen := dataRecordWireLen pendingLen},{sh with bulkRun := false})
  else if sh.postScriptOff = true ∧ sh.packetSeq ≥ sh.scriptStop then
    ({targetWireLen := dataRecordWireLen pendingLen},sh)
  else match sh.script[sh.packetSeq % sh.script.length]? with
    | none => (interactivePolicy draw,sh)
    | some rule => if sh.usesScript draw then sh.scriptPolicy rule draw else (interactivePolicy draw,sh)

def nextDataPolicy (sh : TrafficShaper) (draw : Draw) (pendingLen : Nat) : ShapePolicy × TrafficShaper :=
  let raw := sh.rawPolicy draw pendingLen
  raw.2.releaseDueFakes raw.1

section Policy
variable (sh : TrafficShaper) (draw : Draw) (pendingLen : Nat)

theorem releasedPolicy (policy : ShapePolicy) : (sh.releaseDueFakes policy).1.delay = policy.delay ∧
    (sh.releaseDueFakes policy).1.quietGap = policy.quietGap ∧
    (sh.releaseDueFakes policy).1.allowFullBlock = policy.allowFullBlock ∧
    (sh.releaseDueFakes policy).1.preFake = policy.preFake := by
  unfold releaseDueFakes
  dsimp only
  split <;> exact ⟨rfl,rfl,rfl,rfl⟩

theorem quietGapFirst (quiet : (sh.nextDataPolicy draw pendingLen).1.quietGap = true) : sh.packetSeq = 0 := by
  unfold nextDataPolicy at quiet
  rw [(releasedPolicy _ _).2.1] at quiet
  unfold rawPolicy at quiet
  split at quiet
  · rename_i first
    exact first.1
  · exfalso
    repeat' split at quiet
    all_goals contradiction

theorem fullBlockAtOnce (full : (sh.nextDataPolicy draw pendingLen).1.allowFullBlock = true) :
    (sh.nextDataPolicy draw pendingLen).1.delay = false := by
  unfold nextDataPolicy at full ⊢
  rw [(releasedPolicy _ _).2.2.1] at full
  rw [(releasedPolicy _ _).1]
  unfold rawPolicy at full ⊢
  repeat' split
  all_goals first | rfl | skip
  all_goals simp_all [scriptPolicy]

theorem releasedTarget (policy : ShapePolicy) : (sh.releaseDueFakes policy).1.targetWireLen = policy.targetWireLen := by
  unfold releaseDueFakes
  dsimp only
  split <;> rfl

theorem wireLenWide {payload : Nat} (some' : 0 < payload) : minDataWireLen < dataRecordWireLen payload := by
  simp only [minDataWireLen,dataRecordWireLen]
  omega

theorem genRangeLow {lo hi drawn : Int} : lo ≤ genRange lo hi drawn := Int.le_max_left _ _

theorem targetWide (some' : 0 < pendingLen) : minDataWireLen < (sh.nextDataPolicy draw pendingLen).1.targetWireLen := by
  unfold nextDataPolicy
  rw [releasedTarget]
  have drawn : ∀ {lo hi : Int}, 0 < lo → minDataWireLen < dataRecordWireLen (genRange lo hi draw.payload).toNat := by
    intro lo hi positive
    have low : lo ≤ genRange lo hi draw.payload := genRangeLow
    exact wireLenWide (by omega)
  unfold rawPolicy
  split
  · exact drawn (by decide)
  · split
    · show minDataWireLen < maxDataRecordWireLen
      decide
    · split
      · exact wireLenWide some'
      · split
        · exact wireLenWide some'
        · split
          · exact drawn (by decide)
          · split
            · refine wireLenWide ?_
              have low : 0 < minDataRecordPayload := by decide
              have high : 0 < dataRecordCapacity := by decide
              omega
            · exact drawn (by decide)

end Policy

end TrafficShaper

end KanoTls.Shaper
