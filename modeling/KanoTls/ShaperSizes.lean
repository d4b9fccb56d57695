import KanoTls.Shaper

/-! What the sizes of shaped records say about the payload: `TrafficShaper::new` over any
parsed script, its calls in any order, and two drains of one shaper compared. -/
namespace KanoTls.Shaper

def l1MaxWireLen : Nat := 160

/- `ScriptRule` of `script.rs` before `randomize_script`; a `?` rule keeps its window. -/
structure ParsedRule extends ScriptRule where
  lenPinned : Bool := false
  deriving DecidableEq, Repr

structure ParsedScript where
  rules : List ParsedRule
  stop : Nat
  deriving DecidableEq, Repr

def embeddedRule (lenLo lenHi : Nat) (delays : Bool) : ParsedRule :=
  {lenLo := lenLo,lenHi := lenHi,delays := delays,expectResponses := 0,fakeJitter := 0}

def embeddedScript : ParsedScript where
  rules := [embeddedRule 200 250 false,embeddedRule 180 220 true,embeddedRule 250 350 false,
    embeddedRule 300 400 true,embeddedRule 200 300 false,embeddedRule 400 600 true]
  stop := 6

/- What `randomize_script` draws for a rule: the value of a `?` window and the scale, as
what it makes of a length once truncated. -/
structure RuleDraw where
  fixed : Nat
  scaled : Nat → Nat

def randomizeRule (rule : ParsedRule) (draw : RuleDraw) : ScriptRule :=
  let fixed := (genRange rule.lenLo rule.lenHi draw.fixed).toNat
  let lo := draw.scaled (if rule.lenPinned then fixed else rule.lenLo)
  let hi := draw.scaled (if rule.lenPinned then fixed else rule.lenHi)
  let lenLo := min (max lo 1) dataRecordCapacity
  {rule.toScriptRule with lenLo := lenLo,lenHi := min (max hi lenLo) dataRecordCapacity}

structure ScriptDraw where
  offset : Nat
  rule : Nat → RuleDraw

def randomizeScript (rules : List ParsedRule) (draw : ScriptDraw) : List ScriptRule :=
  (rules.rotateLeft draw.offset).zipIdx.map (fun entry => randomizeRule entry.1 (draw.rule entry.2))

namespace TrafficShaper

/- `parsed` is what `parse_traffic_script` returns for the configured lines; without lines,
or when it refuses them, the embedded script stands in. -/
def new (client : Bool) (parsed : Option ParsedScript) (postScriptOff : Bool) (draw : ScriptDraw) : TrafficShaper where
  client := client
  script := randomizeScript (parsed.getD embeddedScript).rules draw
  scriptStop := (parsed.getD embeddedScript).stop
  postScriptOff := postScriptOff

inductive Call
  | beginDrain
  | nextDataPolicy (draw : Draw) (pendingLen : Nat)
  | advance
  deriving DecidableEq, Repr

def call (sh : TrafficShaper) : Call → TrafficShaper
  | .beginDrain => sh.beginDrain
  | .nextDataPolicy draw pendingLen => (sh.nextDataPolicy draw pendingLen).2
  | .advance => sh.advance

def calls (sh : TrafficShaper) (made : List Call) : TrafficShaper := made.foldl call sh

/- The three ways out of the shaped sizes: the full block and the tail of a bulk run, and
`post_script_shaping = "off"` past the stop index. -/
def fullBlock (sh : TrafficShaper) (pendingLen : Nat) : Bool :=
  !(decide (sh.packetSeq = 0) && sh.client) &&
  (decide (pendingLen ≥ bulkFastPathThreshold) || decide (pendingLen ≥ dataRecordCapacity))
def bulkTail (sh : TrafficShaper) (pendingLen : Nat) : Bool := sh.bulkRun && decide (pendingLen < dataRecordCapacity)
def switchedOff (sh : TrafficShaper) : Bool := sh.postScriptOff && decide (sh.packetSeq ≥ sh.scriptStop)

/- The rule whose length and delay the record takes, when the script decides it. -/
def appliedRule (sh : TrafficShaper) (draw : Draw) (pendingLen : Nat) : Option ScriptRule :=
  if (decide (sh.packetSeq = 0) && sh.client) || sh.fullBlock pendingLen || sh.bulkTail pendingLen || sh.switchedOff
  then none
  else if sh.usesScript draw then sh.script[sh.packetSeq % sh.script.length]? else none

/- `delay_from_spec`: `sample` is the sampled delay of a rule in microseconds. -/
def delayMicros (sample : ScriptRule → Nat) (rule : Option ScriptRule) : Nat :=
  ((rule.filter (·.delays)).map sample).getD 0

/- A backlog that leaves the size of its record to the shaper. -/
def Short (pendingLen : Nat) : Prop :=
  1 ≤ pendingLen ∧ pendingLen < bulkFastPathThreshold ∧ pendingLen < dataRecordCapacity
instance (pendingLen : Nat) : Decidable (Short pendingLen) := inferInstanceAs (Decidable (_ ∧ _ ∧ _))

def drain (sh : TrafficShaper) : List (Draw × Nat) → List (ShapePolicy × Option ScriptRule) × TrafficShaper
  | [] => ([],sh)
  | record::rest =>
    let next := sh.nextDataPolicy record.1 record.2
    let later := next.2.advance.drain rest
    ((next.1,sh.appliedRule record.1 record.2)::later.1,later.2)

def shapedPolicy (sh : TrafficShaper) (draw : Draw) : ShapePolicy × TrafficShaper :=
  if sh.packetSeq = 0 ∧ sh.client = true then
    ({targetWireLen := dataRecordWireLen (genRange firstRecordPayloadLo firstRecordPayloadHi draw.payload).toNat
      quietGap := !sh.postScriptOff},sh)
  else match sh.script[sh.packetSeq % sh.script.length]? with
    | none => (interactivePolicy draw,sh)
    | some rule => if sh.usesScript draw then sh.scriptPolicy rule draw else (interactivePolicy draw,sh)

section Hiding
variable (sh : TrafficShaper) (draw : Draw)

theorem shortNotFull {pendingLen : Nat} (short : Short pendingLen) : sh.fullBlock pendingLen = false := by
  obtain ⟨-,bulk,capacity⟩ := short
  simp only [fullBlock,Bool.and_eq_false_iff,Bool.or_eq_false_iff,decide_eq_false_iff_not]
  exact Or.inr ⟨by omega,by omega⟩

theorem notTail (latch : sh.bulkRun = false) (pendingLen : Nat) : sh.bulkTail pendingLen = false := by
  rw [bulkTail,latch,Bool.false_and]

theorem rawShaped {pendingLen : Nat} (full : sh.fullBlock pendingLen = false) (tail : sh.bulkTail pendingLen = false)
    (off : sh.switchedOff = false) : sh.rawPolicy draw pendingLen = sh.shapedPolicy draw := by
  unfold rawPolicy shapedPolicy
  by_cases first : sh.packetSeq = 0 ∧ sh.client = true
  · rw [if_pos first,if_pos first]
  · have notBulk : ¬ (pendingLen ≥ bulkFastPathThreshold ∨ pendingLen ≥ dataRecordCapacity) := by
      intro bulk
      simp only [fullBlock,Bool.and_eq_false_iff,Bool.or_eq_false_iff,decide_eq_false_iff_not,Bool.not_eq_false',
        Bool.and_eq_true,decide_eq_true_eq] at full
      obtain opening | ⟨below,room⟩ := full
      · exact first opening
      · exact bulk.elim below room
    have notLast : ¬ (sh.bulkRun = true ∧ pendingLen < dataRecordCapacity) := by
      rintro ⟨latch,room⟩
      simp [bulkTail,latch,room] at tail
    have shaping : ¬ (sh.postScriptOff = true ∧ sh.packetSeq ≥ sh.scriptStop) := by
      rintro ⟨switch,past⟩
      simp [switchedOff,switch,past] at off
    rw [if_neg first,if_neg first,if_neg notBulk,if_neg notLast]
    exact if_neg shaping

theorem nextShaped {pendingLen : Nat} (full : sh.fullBlock pendingLen = false) (tail : sh.bulkTail pendingLen = false)
    (off : sh.switchedOff = false) : sh.nextDataPolicy draw pendingLen =
      (sh.shapedPolicy draw).2.releaseDueFakes (sh.shapedPolicy draw).1 := by
  rw [nextDataPolicy,rawShaped sh draw full tail off]

theorem policyHidden {left right : Nat} (latch : sh.bulkRun = false) (off : sh.switchedOff = false)
    (leftShort : Short left) (rightShort : Short right) :
    sh.nextDataPolicy draw left = sh.nextDataPolicy draw right ∧ sh.appliedRule draw left = sh.appliedRule draw right := by
  have leftFull := shortNotFull sh leftShort
  have rightFull := shortNotFull sh rightShort
  have leftTail := notTail sh latch left
  have rightTail := notTail sh latch right
  constructor
  · rw [nextShaped sh draw leftFull leftTail off,nextShaped sh draw rightFull rightTail off]
  · rw [appliedRule,appliedRule,leftFull,rightFull,leftTail,rightTail]

theorem shapedKeeps : (sh.shapedPolicy draw).2.bulkRun = sh.bulkRun ∧
    (sh.shapedPolicy draw).2.postScriptOff = sh.postScriptOff ∧
    (sh.shapedPolicy draw).2.scriptStop = sh.scriptStop ∧ (sh.shapedPolicy draw).2.packetSeq = sh.packetSeq := by
  unfold shapedPolicy
  repeat' split
  all_goals exact ⟨rfl,rfl,rfl,rfl⟩

/- By induction on the records: the hypothesis on the stop index passes to the rest of the
drain since every record moves the index by one. -/
theorem drainHidden (draws : List Draw) : ∀ (sh : TrafficShaper) (left right : List Nat),
    left.length = draws.length → right.length = draws.length → sh.bulkRun = false →
    (sh.postScriptOff = true → sh.packetSeq + draws.length ≤ sh.scriptStop) →
    (∀ pendingLen ∈ left ++ right,Short pendingLen) → sh.drain (draws.zip left) = sh.drain (draws.zip right) := by
  induction draws with
  | nil =>
    intro sh left right _ _ _ _ _
    rfl
  | cons draw draws ih =>
    intro sh left right leftLen rightLen latch before short
    obtain ⟨n,left,rfl⟩ := List.exists_cons_of_length_eq_add_one leftLen
    obtain ⟨m,right,rfl⟩ := List.exists_cons_of_length_eq_add_one rightLen
    have leftShort : Short n := short n (by simp)
    have rightShort : Short m := short m (by simp)
    have off : sh.switchedOff = false := by
      rw [switchedOff]
      cases switch : sh.postScriptOff with
      | false => rfl
      | true =>
        have room := before switch
        simp only [List.length_cons] at room
        simp only [Bool.true_and,decide_eq_false_iff_not]
        omega
    obtain ⟨samePolicy,sameRule⟩ := policyHidden sh draw latch off leftShort rightShort
    have next := nextShaped sh draw (shortNotFull sh leftShort) (notTail sh latch n) off
    obtain ⟨keptLatch,keptSwitch,keptStop,keptSeq⟩ := shapedKeeps sh draw
    have later : (sh.nextDataPolicy draw n).2.advance.drain (draws.zip left) =
        (sh.nextDataPolicy draw n).2.advance.drain (draws.zip right) := by
      rw [next]
      refine ih _ left right (by simpa using leftLen) (by simpa using rightLen) ?_ ?_ ?_
      · exact keptLatch.trans latch
      · intro switch
        have room := before (keptSwitch.symm.trans switch)
        show (sh.shapedPolicy draw).2.packetSeq + 1 + draws.length ≤ (sh.shapedPolicy draw).2.scriptStop
        rw [keptSeq,keptStop]
        simp only [List.length_cons] at room
        omega
      · intro pendingLen member
        refine short pendingLen ?_
        simp only [List.mem_append,List.mem_cons] at member ⊢
        tauto
    simp only [List.zip_cons_cons,drain]
    rw [later,samePolicy,sameRule]

theorem shapedAbove : l1MaxWireLen < (sh.shapedPolicy draw).1.targetWireLen := by
  have floor : ∀ {payload : Nat}, minDataRecordPayload ≤ payload → l1MaxWireLen < dataRecordWireLen payload := by
    intro payload above
    have least : minDataRecordPayload = 137 := by decide
    simp only [l1MaxWireLen,dataRecordWireLen,tlsRecordHeaderLen,blockLenPrefixSize,innerContentTypeLen,aeadTagLen]
    omega
  have drawn : ∀ {lo hi : Nat}, minDataRecordPayload ≤ lo →
      l1MaxWireLen < dataRecordWireLen (genRange lo hi draw.payload).toNat := by
    intro lo hi above
    have low : (lo : Int) ≤ genRange lo hi draw.payload := genRangeLow
    exact floor (by omega)
  unfold shapedPolicy
  split
  · exact drawn (by decide)
  · split
    · exact drawn (Nat.le_refl _)
    · split
      · have capacity : minDataRecordPayload ≤ dataRecordCapacity := by decide
        exact floor (by omega)
      · exact drawn (Nat.le_refl _)

theorem targetAbove {pendingLen : Nat} (tail : sh.bulkTail pendingLen = false) (off : sh.switchedOff = false)
    (full : sh.fullBlock pendingLen = false) : l1MaxWireLen < (sh.nextDataPolicy draw pendingLen).1.targetWireLen := by
  rw [nextShaped sh draw full tail off,releasedTarget]
  exact shapedAbove sh draw

theorem allowsFull (pendingLen : Nat) : (sh.nextDataPolicy draw pendingLen).1.allowFullBlock = sh.fullBlock pendingLen := by
  unfold nextDataPolicy
  rw [(releasedPolicy _ _).2.2.1]
  unfold rawPolicy fullBlock
  by_cases first : sh.packetSeq = 0 ∧ sh.client = true
  · rw [if_pos first,first.1,first.2]
    rfl
  · have opening : (decide (sh.packetSeq = 0) && sh.client) = false := by
      rw [Bool.eq_false_iff]
      intro both
      exact first (by simpa using both)
    rw [if_neg first,opening]
    by_cases bulk : pendingLen ≥ bulkFastPathThreshold ∨ pendingLen ≥ dataRecordCapacity
    · rw [if_pos bulk]
      simpa using bulk
    · rw [if_neg bulk]
      rw [not_or] at bulk
      rw [decide_eq_false bulk.1,decide_eq_false bulk.2]
      repeat' split
      all_goals rfl

end Hiding

def Usable (rules : List ScriptRule) : Prop :=
  ∀ rule ∈ rules,1 ≤ rule.lenLo ∧ rule.lenLo ≤ rule.lenHi ∧ rule.lenHi ≤ dataRecordCapacity

theorem randomizeUsable (rules : List ParsedRule) (draw : ScriptDraw) : Usable (randomizeScript rules draw) := by
  intro rule member
  obtain ⟨entry,-,rfl⟩ := List.mem_map.mp member
  have capacity : 1 ≤ dataRecordCapacity := by decide
  simp only [randomizeRule]
  omega

theorem callScript (sh : TrafficShaper) (made : Call) : (sh.call made).script = sh.script := by
  cases made with
  | beginDrain => rfl
  | nextDataPolicy draw pendingLen =>
    show (sh.rawPolicy draw pendingLen).2.script = _
    unfold rawPolicy
    repeat' split
    all_goals rfl
  | advance => rfl

theorem callsScript (made : List Call) (sh : TrafficShaper) : (sh.calls made).script = sh.script := by
  induction made generalizing sh with
  | nil => rfl
  | cons call made ih => exact (ih (sh.call call)).trans (callScript sh call)

/- Two runs of one shaper over the same draws: backlogs that differ only below the bulk
threshold leave no trace in a policy, in its delay or in the state, and no shaped record
falls into the class of control records. -/
theorem sizesHideLength :
    (∀ (sh : TrafficShaper) (draw : Draw) (left right : Nat), sh.bulkRun = false → sh.switchedOff = false →
      Short left → Short right → sh.nextDataPolicy draw left = sh.nextDataPolicy draw right ∧
      ∀ sample, delayMicros sample (sh.appliedRule draw left) = delayMicros sample (sh.appliedRule draw right)) ∧
    (∀ (sh : TrafficShaper) (draws : List Draw) (left right : List Nat),
      left.length = draws.length → right.length = draws.length →
      (sh.postScriptOff = true → sh.packetSeq + draws.length ≤ sh.scriptStop) →
      (∀ pendingLen ∈ left ++ right,Short pendingLen) →
      sh.beginDrain.drain (draws.zip left) = sh.beginDrain.drain (draws.zip right)) ∧
    ∀ (client postScriptOff : Bool) (parsed : Option ParsedScript) (scriptDraw : ScriptDraw) (made : List Call),
      let sh := (new client parsed postScriptOff scriptDraw).calls made
      Usable sh.script ∧ ∀ (draw : Draw) (pendingLen : Nat),
        (sh.nextDataPolicy draw pendingLen).1.allowFullBlock = false →
        sh.bulkTail pendingLen = false → sh.switchedOff = false →
        l1MaxWireLen < (sh.nextDataPolicy draw pendingLen).1.targetWireLen := by
  refine ⟨?_,?_,?_⟩
  · intro sh draw left right latch off leftShort rightShort
    obtain ⟨samePolicy,sameRule⟩ := policyHidden sh draw latch off leftShort rightShort
    exact ⟨samePolicy,fun sample => by rw [sameRule]⟩
  · intro sh draws left right leftLen rightLen before short
    exact drainHidden draws sh.beginDrain left right leftLen rightLen rfl before short
  · intro client postScriptOff parsed scriptDraw made sh
    refine ⟨?_,?_⟩
    · have script : sh.script = (new client parsed postScriptOff scriptDraw).script := callsScript made _
      rw [script]
      exact randomizeUsable _ _
    · intro draw pendingLen full tail off
      exact targetAbove sh draw tail off ((allowsFull sh draw pendingLen).symm.trans full)

def secondRecord : TrafficShaper :=
  (new true none false {offset := 1,rule := fun _ => {fixed := 0,scaled := fun len => len}}).calls
    [.beginDrain,.nextDataPolicy {payload := 200} 64,.advance]

theorem sizesHideLengthEmbedded : secondRecord.nextDataPolicy {payload := 300} 64 =
      secondRecord.nextDataPolicy {payload := 300} 9000 ∧
    secondRecord.beginDrain.drain [({payload := 300},64),({payload := 310},20)] =
      secondRecord.beginDrain.drain [({payload := 300},9000),({payload := 310},8700)] ∧
    l1MaxWireLen < (secondRecord.nextDataPolicy {payload := 300} 64).1.targetWireLen := by
  refine ⟨?_,?_,?_⟩
  · exact (sizesHideLength.1 secondRecord {payload := 300} 64 9000 (by decide) (by decide) (by decide) (by decide)).1
  · exact sizesHideLength.2.1 secondRecord [{payload := 300},{payload := 310}] [64,20] [9000,8700] rfl rfl
      (fun switch => absurd switch (by decide)) (by decide)
  · exact (sizesHideLength.2.2 true false none _ _).2 {payload := 300} 64 (by decide) (by decide) (by decide)

end TrafficShaper

end KanoTls.Shaper
