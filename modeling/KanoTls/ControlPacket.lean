import KanoTls.PaddingFrame
import KanoTls.WriterDrain
import KanoTls.RecordStream

/-! `prepare_control_packet_records` and the sizes of `control_size.rs`: a control packet is cut
into records whose sizes are sampled, not taken from the packet. What is drawn at random is
the argument `SizeDraw`. -/
namespace KanoTls.Control
open Wire Uot Shaper Writer Padding

inductive ConnectionState where
  | handshake | transport
  deriving DecidableEq, Repr

def controlTlsOverhead : Nat := tlsRecordHeaderLen + aeadTagLen + innerContentTypeLen
def singleWireFrame (h2PayloadBytes : Nat) : Nat := h2PayloadBytes + blockLenPrefixSize + controlTlsOverhead

def windowUpdateWire : Nat := singleWireFrame 13
def settingsAckWire : Nat := singleWireFrame 9
def settingsSmallWire : Nat := singleWireFrame 27
def settingsLargeWire : Nat := singleWireFrame 45
def mergedSettingsAckWuWire : Nat := singleWireFrame 22
def mergedPingWuWire : Nat := singleWireFrame 30
def transportPoolSizes : List Nat := [windowUpdateWire,pingWire,mergedPingWuWire,settingsAckWire,mergedSettingsAckWuWire]

/- The sizes of the opening; `large` is drawn once for the process. -/
def h2OpeningSize (large client : Bool) (index : Nat) : Option Nat :=
  if client then
    if index = 0 then some settingsAckWire else none
  else if index = 0 then some (if large then settingsLargeWire else settingsSmallWire)
  else if index = 1 then some windowUpdateWire
  else if index = 2 then some settingsAckWire
  else none

/- The draws of one turn: the pool or a HEADERS size, the slot of the pool, and the samples
of the three truncated normals. -/
structure SizeDraw where
  discrete : Bool
  slot : Nat
  headers : Nat
  lifecycle : Nat
  chunk : Nat
  deriving DecidableEq, Repr

def nextDataRecordPayload (sample : Nat) : Nat := (genRange minDataRecordPayload maxDataRecordPayload sample).toNat

def nextHeadersFrameWireLen (client : Bool) (sample : Nat) : Nat :=
  singleWireFrame (if client then genRange 250 800 sample else genRange 100 400 sample).toNat

/- The scan over the weights ends at the last slot. -/
def poolControlSize (client : Bool) (draw : SizeDraw) : Nat :=
  if draw.discrete then transportPoolSizes[draw.slot]?.getD mergedSettingsAckWuWire
  else nextHeadersFrameWireLen client draw.headers

def nextControlSize (large client : Bool) (state : ConnectionState) (controlFrameCount : Nat) (draw : SizeDraw) : Nat :=
  let opening := if state = .handshake then h2OpeningSize large client controlFrameCount else none
  opening.getD (poolControlSize client draw)

def packetCarriesStreamLifecycleFrame (packet : Bytes) : Bool :=
  (walkFrameHeaders packet).any (fun h => h.1 == cmdSyn || h.1 == cmdFin)

structure Setting where
  noise : Record.Noise
  large : Bool
  client : Bool
  state : ConnectionState

structure Cut where
  payload : Bytes
  target : Nat
  wireLen : Nat
  deriving DecidableEq, Repr

inductive Outcome where
  | ok | refused | panicked
  deriving DecidableEq, Repr

structure Sliced where
  cuts : List Cut := []
  half : Record.WriteHalf
  outcome : Outcome
  deriving DecidableEq, Repr

def controlTargetFor (setting : Setting) (lifecycleSized : Bool) (controlFrameCount : Nat) (draw : SizeDraw) : Nat :=
  if lifecycleSized then dataRecordWireLen (nextDataRecordPayload draw.lifecycle)
  else nextControlSize setting.large setting.client setting.state controlFrameCount draw

def turnFor (controlTarget chunk remaining : Nat) : Nat × Nat :=
  if remaining ≤ controlTarget - controlRecordMinOverhead then (controlTarget,remaining)
  else if remaining ≥ dataRecordCapacity then (maxDataRecordWireLen,dataRecordCapacity)
  else (dataRecordWireLen chunk,min remaining chunk)

/- What `prepare_control_record` made of a slice; `none` is the failed assertion of the block. -/
def cutOf (w : Record.WriteHalf) (payload : Bytes) (target : Nat) : Option (Bool × Record.WriteHalf) → Cut × Sliced
  | none => (⟨payload,target,0⟩,⟨[],w,.panicked⟩)
  | some (ok,next) =>
    (⟨payload,target,next.buffer.length - w.buffer.length⟩,⟨[],next,if ok then .ok else .refused⟩)

def prepareCut (setting : Setting) (w : Record.WriteHalf) (payload : Bytes) (target : Nat) : Cut × Sliced :=
  cutOf w payload target (Record.prepareControlRecord setting.noise w payload target)

/- The loop, over what is left of the packet. Its draws end only if they are too few. -/
def sliceLoop (setting : Setting) (lifecycleSized : Bool) : List SizeDraw → Record.WriteHalf → Bytes → Option Sliced
  | [],_,_ => none
  | draw::draws,w,packet =>
    let controlTarget := controlTargetFor setting lifecycleSized w.controlFrameCount draw
    let turn := turnFor controlTarget (nextDataRecordPayload draw.chunk) packet.length
    let (cut,made) := prepareCut setting w (packet.take turn.2) turn.1
    if made.outcome ≠ .ok then some made
    else if turn.2 ≥ packet.length then some {made with cuts := [cut]}
    else (sliceLoop setting lifecycleSized draws made.half (packet.drop turn.2)).map
      (fun later => {later with cuts := cut::later.cuts})

def prepareControlPacketRecords (setting : Setting) (draws : List SizeDraw) (w : Record.WriteHalf) (packet : Bytes) :
    Option Sliced :=
  match selfSizedPaddingWireLen packet with
  | some target =>
    let (cut,made) := prepareCut setting w packet target
    some (if made.outcome = .ok then {made with cuts := [cut]} else made)
  | none => sliceLoop setting (packetCarriesStreamLifecycleFrame packet) draws w packet

/- What a call may leave: every slice fits its record and the record has the size chosen for
it, the slices are a front of the packet and with `Ok` all of it, and only the cipher stops
the call. -/
structure Whole (noise : Record.Noise) (packet : Bytes) (r : Sliced) : Prop where
  calm : r.outcome ≠ .panicked
  fits : ∀ cut ∈ r.cuts,cut.payload.length + controlRecordMinOverhead ≤ cut.target
  exact' : ∀ cut ∈ r.cuts,cut.wireLen = cut.target
  front : r.cuts.flatMap (·.payload) <+: packet
  joined : r.outcome = .ok → r.cuts.flatMap (·.payload) = packet
  refused : r.outcome = .refused → ∃ n plain, noise.encrypt n plain = none

section Turns
variable {setting : Setting} {draw : SizeDraw} {packet : Bytes} {w : Record.WriteHalf}

theorem sampleRange (sample : Nat) : minDataRecordPayload ≤ nextDataRecordPayload sample ∧
    nextDataRecordPayload sample ≤ maxDataRecordPayload := by
  have low : (minDataRecordPayload : Int) ≤ genRange minDataRecordPayload maxDataRecordPayload sample :=
    TrafficShaper.genRangeLow
  have high : genRange minDataRecordPayload maxDataRecordPayload sample ≤ maxDataRecordPayload :=
    TrafficShaper.genRangeHigh (by decide)
  unfold nextDataRecordPayload
  omega

theorem poolRange (client : Bool) (draw : SizeDraw) : minDataWireLen ≤ poolControlSize client draw ∧
    poolControlSize client draw ≤ maxDataRecordWireLen := by
  unfold poolControlSize
  split
  · have all : ∀ size ∈ mergedSettingsAckWuWire::transportPoolSizes,
        minDataWireLen ≤ size ∧ size ≤ maxDataRecordWireLen := by decide
    refine all _ ?_
    cases found : transportPoolSizes[draw.slot]? with
    | none => exact List.mem_cons_self
    | some size => exact List.mem_cons_of_mem _ (List.mem_of_getElem? found)
  · have numbers : minDataWireLen = 24 ∧ maxDataRecordWireLen = 16406 ∧ blockLenPrefixSize = 2 ∧
        controlTlsOverhead = 22 := by decide
    have range : ∀ {lo hi : Int}, lo ≤ hi → hi ≤ 800 → (genRange lo hi draw.headers).toNat ≤ 800 := by
      intro lo hi ordered small
      have high := @TrafficShaper.genRangeHigh lo hi draw.headers ordered
      omega
    unfold nextHeadersFrameWireLen singleWireFrame
    split
    · have small := @range 250 800 (by decide) (by decide)
      omega
    · have small := @range 100 400 (by decide) (by decide)
      omega

theorem openingRange {large client : Bool} {index size : Nat} (found : h2OpeningSize large client index = some size) :
    minDataWireLen ≤ size ∧ size ≤ maxDataRecordWireLen := by
  have all : ∀ size ∈ [settingsAckWire,settingsLargeWire,settingsSmallWire,windowUpdateWire],
      minDataWireLen ≤ size ∧ size ≤ maxDataRecordWireLen := by decide
  refine all size ?_
  unfold h2OpeningSize at found
  repeat' split at found
  all_goals first | contradiction | (cases Option.some.inj found; simp)

theorem controlTargetRange (lifecycleSized : Bool) (count : Nat) :
    minDataWireLen ≤ controlTargetFor setting lifecycleSized count draw ∧
    controlTargetFor setting lifecycleSized count draw ≤ maxDataRecordWireLen := by
  unfold controlTargetFor
  split
  · obtain ⟨-,high⟩ := sampleRange draw.lifecycle
    refine ⟨Nat.le_of_lt (TrafficShaper.wireLenWide ?_),TrafficShaper.wireLenMost ?_⟩
    · exact Nat.lt_of_lt_of_le (by decide) (sampleRange draw.lifecycle).1
    · exact high.trans (by decide)
  · unfold nextControlSize
    dsimp only
    split
    · cases found : h2OpeningSize setting.large setting.client count with
      | none => exact poolRange setting.client draw
      | some size => exact openingRange found
    · exact poolRange setting.client draw

theorem turnFits {controlTarget chunk remaining : Nat} (low : minDataWireLen ≤ controlTarget)
    (high : controlTarget ≤ maxDataRecordWireLen) (some' : 0 < chunk) (small : chunk ≤ dataRecordCapacity) :
    (turnFor controlTarget chunk remaining).2 + minDataWireLen ≤ (turnFor controlTarget chunk remaining).1 ∧
    (turnFor controlTarget chunk remaining).1 ≤ maxDataRecordWireLen ∧
    (turnFor controlTarget chunk remaining).2 ≤ remaining ∧
    ((turnFor controlTarget chunk remaining).2 < remaining → 0 < (turnFor controlTarget chunk remaining).2) := by
  have numbers : controlRecordMinOverhead = 24 ∧ minDataWireLen = 24 ∧ maxDataRecordWireLen = 16406 ∧
      dataRecordCapacity = 16382 := by decide
  have wire : dataRecordWireLen chunk = chunk + 24 := by
    simp only [dataRecordWireLen,tlsRecordHeaderLen,blockLenPrefixSize,innerContentTypeLen,aeadTagLen]
    omega
  unfold turnFor
  split
  · dsimp only
    omega
  · split
    · dsimp only
      omega
    · dsimp only
      omega

theorem cutPrepared (undoes : setting.noise.Undoes) {payload : Bytes} {target : Nat}
    (fits : payload.length + minDataWireLen ≤ target) (most : target ≤ maxDataRecordWireLen) :
    (prepareCut setting w payload target).1 = ⟨payload,target,target⟩ ∧
    (prepareCut setting w payload target).2.cuts = [] ∧
    ((prepareCut setting w payload target).2.outcome = .ok ∨
      (prepareCut setting w payload target).2.outcome = .refused ∧ ∃ n plain, setting.noise.encrypt n plain = none) := by
  obtain ⟨ok,next,prepared,long,failed⟩ := preparedWire undoes w fits most
  have made : prepareCut setting w payload target =
      (⟨payload,target,target⟩,⟨[],next,if ok then .ok else .refused⟩) := by
    rw [prepareCut,prepared,cutOf,long,Nat.add_sub_cancel_left]
  rw [made]
  refine ⟨rfl,rfl,?_⟩
  cases ok with
  | true => exact .inl rfl
  | false => exact .inr ⟨rfl,failed rfl⟩

theorem wholeRefused {r : Sliced} (none' : r.cuts = []) (refused : r.outcome = .refused)
    (failed : ∃ n plain, setting.noise.encrypt n plain = none) : Whole setting.noise packet r := by
  refine ⟨?_,?_,?_,?_,?_,fun _ => failed⟩
  · rw [refused]
    decide
  · rw [none']
    intro cut absent
    contradiction
  · rw [none']
    intro cut absent
    contradiction
  · rw [none']
    exact List.nil_prefix
  · intro ok
    rw [refused] at ok
    contradiction

theorem wholeLast {target : Nat} {r : Sliced} (fits : packet.length + minDataWireLen ≤ target) (ok : r.outcome = .ok)
    (cuts : r.cuts = [⟨packet,target,target⟩]) : Whole setting.noise packet r := by
  have one : ∀ cut ∈ r.cuts,cut = ⟨packet,target,target⟩ := by
    rw [cuts]
    exact fun cut member => List.mem_singleton.mp member
  have all : r.cuts.flatMap (·.payload) = packet := by
    rw [cuts]
    exact List.append_nil packet
  refine ⟨by rw [ok]; decide,?_,?_,?_,fun _ => all,?_⟩
  · intro cut member
    rw [one cut member]
    exact fits
  · intro cut member
    rw [one cut member]
  · rw [all]
  · intro refused
    rw [ok] at refused
    contradiction

theorem wholeNext {front back : Bytes} {target : Nat} {r : Sliced} (fits : front.length + minDataWireLen ≤ target)
    (later : Whole setting.noise back r) :
    Whole setting.noise (front ++ back) {r with cuts := ⟨front,target,target⟩::r.cuts} := by
  refine ⟨later.calm,?_,?_,?_,?_,later.refused⟩
  · intro cut member
    rcases List.mem_cons.mp member with rfl | member
    · exact fits
    · exact later.fits cut member
  · intro cut member
    rcases List.mem_cons.mp member with rfl | member
    · rfl
    · exact later.exact' cut member
  · exact (List.prefix_append_right_inj front).mpr later.front
  · intro ok
    exact congrArg (front ++ ·) (later.joined ok)

/- By induction on the draws: every turn takes a byte or is the last, so as many draws as the
packet has bytes, and one more, are enough. -/
theorem loopWhole (undoes : setting.noise.Undoes) (lifecycleSized : Bool) (draws : List SizeDraw) :
    ∀ (w : Record.WriteHalf) (packet : Bytes), packet.length < draws.length →
      ∃ r, sliceLoop setting lifecycleSized draws w packet = some r ∧ Whole setting.noise packet r := by
  induction draws with
  | nil =>
    intro w packet few
    contradiction
  | cons draw draws ih =>
    intro w packet enough
    obtain ⟨low,high⟩ := @controlTargetRange setting draw lifecycleSized w.controlFrameCount
    obtain ⟨least,most⟩ := sampleRange draw.chunk
    obtain ⟨fits,top,within,moves⟩ := @turnFits _ _ packet.length low high (Nat.lt_of_lt_of_le (by decide) least)
      (most.trans (by decide))
    rw [sliceLoop]
    generalize turnFor _ _ packet.length = turn at fits top within moves ⊢
    have slice : (packet.take turn.2).length + minDataWireLen ≤ turn.1 := by
      rw [List.length_take]
      omega
    obtain ⟨cut,none',made⟩ := @cutPrepared setting w undoes _ _ slice top
    dsimp only
    rw [cut]
    generalize (prepareCut setting w (packet.take turn.2) turn.1).2 = prepared at none' made ⊢
    obtain ok | ⟨refused,failed⟩ := made
    · rw [if_neg (not_not_intro ok)]
      by_cases last : turn.2 ≥ packet.length
      · rw [if_pos last]
        have whole : packet.take turn.2 = packet := List.take_of_length_le last
        rw [whole] at slice ⊢
        exact ⟨_,rfl,wholeLast slice ok rfl⟩
      · rw [if_neg last]
        have positive := moves (Nat.not_le.mp last)
        obtain ⟨r,ran,later⟩ := ih prepared.half (packet.drop turn.2) (by
          rw [List.length_drop]
          simp only [List.length_cons] at enough
          omega)
        rw [ran]
        refine ⟨_,rfl,?_⟩
        have next := wholeNext slice later
        rwa [List.take_append_drop] at next
    · rw [if_pos (by rw [refused]; decide)]
      exact ⟨prepared,rfl,wholeRefused none' refused failed⟩

end Turns

theorem selfSizedLength {packet : Bytes} {target : Nat} (found : selfSizedPaddingWireLen packet = some target) :
    target = packet.length + minDataWireLen := by
  unfold selfSizedPaddingWireLen at found
  split at found
  · contradiction
  · dsimp only at found
    split at found
    · contradiction
    · exact (Option.some.inj found).symm

/- A longer frame would need a block that does not exist: the assertion on the block fails. -/
theorem overlongPanics {setting : Setting} {packet : Bytes} (draws : List SizeDraw) (w : Record.WriteHalf)
    (sized : (selfSizedPaddingWireLen packet).isSome = true) (long : dataRecordCapacity < packet.length) :
    prepareControlPacketRecords setting draws w packet = some ⟨[],w,.panicked⟩ := by
  obtain ⟨target,found⟩ := Option.isSome_iff_exists.mp sized
  have refused : Record.prepareControlRecord setting.noise w packet target = none := by
    rw [Record.prepareControlRecord,Record.encryptVariableBlock]
    refine if_pos ?_
    simp only [Record.targetPlaintext,dataRecordCapacity,blockPlaintextSize] at long ⊢
    omega
  have panics : prepareCut setting w packet target = (⟨packet,target,0⟩,⟨[],w,.panicked⟩) := by
    rw [prepareCut,refused,cutOf]
  rw [prepareControlPacketRecords,found]
  dsimp only
  rw [panics]
  rfl

/- For every packet, every cipher and all draws: the call cuts the packet whole, exactly when
the packet is not one CMD_PADDING frame longer than a record holds. -/
theorem packetSliced (setting : Setting) (undoes : setting.noise.Undoes) (w : Record.WriteHalf) (packet : Bytes)
    (draws : List SizeDraw) (enough : packet.length < draws.length) :
    (∃ r, prepareControlPacketRecords setting draws w packet = some r ∧ Whole setting.noise packet r) ↔
      ¬ ((selfSizedPaddingWireLen packet).isSome = true ∧ dataRecordCapacity < packet.length) := by
  have top : maxDataRecordWireLen = dataRecordCapacity + minDataWireLen := by decide
  constructor
  · rintro ⟨r,ran,whole⟩ ⟨sized,long⟩
    rw [overlongPanics draws w sized long] at ran
    cases Option.some.inj ran
    exact whole.calm rfl
  · intro fine
    unfold prepareControlPacketRecords
    cases found : selfSizedPaddingWireLen packet with
    | none => exact loopWhole undoes _ draws w packet enough
    | some target =>
      have size := selfSizedLength found
      have short : packet.length ≤ dataRecordCapacity := by
        rw [found] at fine
        exact Nat.not_lt.mp (fun long => fine ⟨rfl,long⟩)
      obtain ⟨cut,none',made⟩ := @cutPrepared setting w undoes packet target (by omega) (by omega)
      dsimp only
      rw [cut]
      obtain ok | ⟨refused,failed⟩ := made
      · rw [if_pos ok]
        exact ⟨_,rfl,wholeLast (Nat.le_of_eq size.symm) ok rfl⟩
      · rw [if_neg (by rw [refused]; decide)]
        exact ⟨_,rfl,wholeRefused none' refused failed⟩

def plainSetting : Setting := ⟨Record.tagNoise,false,true,.handshake⟩
def flatDraw : SizeDraw := ⟨true,0,300,200,500⟩

theorem overlongFits : (List.replicate 16400 (0 : UInt8)).length ≤ maxPayloadLen := by
  rw [List.length_replicate]
  decide

theorem threeFits : 3 < 2^32 := by decide

def finPacket : Bytes := Frame.encode ⟨cmdFin,3,[],threeFits,Nat.zero_le _⟩
def overlongFrame : Frame := ⟨cmdPadding,0,List.replicate 16400 0,Nat.two_pow_pos 32,overlongFits⟩

theorem packetSlicedFin : ∃ r, prepareControlPacketRecords plainSetting (List.replicate 8 flatDraw) {} finPacket = some r ∧
    Whole plainSetting.noise finPacket r :=
  (packetSliced plainSetting Record.tagNoiseUndoes {} finPacket (List.replicate 8 flatDraw) (by decide)).mpr (by decide)

theorem overlongPadding : prepareControlPacketRecords plainSetting (List.replicate 8 flatDraw) {} overlongFrame.encode =
    some ⟨[],{},.panicked⟩ := by
  have length : overlongFrame.payload.length = 16400 := List.length_replicate
  refine overlongPanics (List.replicate 8 flatDraw) {} ?_ ?_
  · rw [selfSizedFrame rfl (by rw [length]; decide)]
    rfl
  · rw [encodeLength,Frame.encodedLen,length]
    decide

section Refines
variable {setting : Setting} {w : Record.WriteHalf}

def sizesFrom (setting : Setting) (lifecycleSized : Bool) : Nat → List SizeDraw → List (Nat × Nat)
  | _,[] => []
  | count,draw::draws => (controlTargetFor setting lifecycleSized count draw,nextDataRecordPayload draw.chunk)::
      sizesFrom setting lifecycleSized (Record.bump count) draws

theorem selfSizedSame (packet : Bytes) : (selfSizedPaddingWireLen packet).isSome = selfSizedPadding packet := by
  unfold selfSizedPadding
  split
  · rename_i cmd a b c d high low rest
    unfold selfSizedPaddingWireLen
    by_cases padding : cmd = cmdPadding
    · rw [if_neg (by simp [frameHeaderSize,padding])]
      show (if frameHeaderSize + fromBeBytes high low ≠ (cmd::a::b::c::d::high::low::rest).length ∨
        fromBeBytes high low < paddingHeaderLen then none else _).isSome = _
      by_cases whole : rest.length = fromBeBytes high low
      · by_cases long : fromBeBytes high low ≥ paddingHeaderLen
        · rw [if_neg (by simp only [frameHeaderSize,List.length_cons]; omega)]
          simp [padding,whole,long]
        · rw [if_pos (.inr (Nat.not_le.mp long))]
          simp [long]
      · rw [if_pos (.inl (by simp only [frameHeaderSize,List.length_cons]; omega))]
        simp [whole]
    · rw [if_pos (.inr (fun same => padding (Option.some.inj same)))]
      simp [padding]
  · rename_i short
    unfold selfSizedPaddingWireLen
    rw [if_pos]
    · rfl
    · refine .inl (Nat.not_le.mp (fun long => ?_))
      rcases packet with _ | ⟨cmd,_ | ⟨a,_ | ⟨b,_ | ⟨c,_ | ⟨d,_ | ⟨high,_ | ⟨low,rest⟩⟩⟩⟩⟩⟩⟩
      all_goals first | exact short _ _ _ _ _ _ _ _ rfl | exact absurd long (by simp [frameHeaderSize])

theorem cutCounted {payload : Bytes} {target : Nat} (ok : (prepareCut setting w payload target).2.outcome = .ok) :
    (prepareCut setting w payload target).2.half.controlFrameCount = Record.bump w.controlFrameCount := by
  cases prepared : Record.prepareControlRecord setting.noise w payload target with
  | none =>
    rw [prepareCut,prepared] at ok
    contradiction
  | some made =>
    obtain ⟨done,next⟩ := made
    rw [prepareCut,prepared]
    show next.controlFrameCount = _
    rw [Record.prepareControlRecord,Record.encryptVariableBlock] at prepared
    repeat' split at prepared
    all_goals first | contradiction | (obtain ⟨-,rfl⟩ := Prod.mk.inj (Option.some.inj prepared); rfl)

/- The records of the writer's model are these slices, byte for byte and with their sizes. -/
theorem loopRefines (undoes : setting.noise.Undoes) (lifecycleSized : Bool) (draws : List SizeDraw) :
    ∀ (w : Record.WriteHalf) (packet : List Byte) (r : Sliced),
      sliceLoop setting lifecycleSized draws w (values packet) = some r → r.outcome = .ok →
      ∃ records, controlCuts (sizesFrom setting lifecycleSized w.controlFrameCount draws) packet = some records ∧
        records.map (fun made => (values made.payload,made.wireLen)) = r.cuts.map (fun cut => (cut.payload,cut.wireLen)) ∧
        ∀ made ∈ records,made.payload.length ≤ dataRecordCapacity := by
  induction draws with
  | nil =>
    intro w packet r ran
    contradiction
  | cons draw draws ih =>
    intro w packet r ran ok
    have size : (values packet).length = packet.length := List.length_map _
    obtain ⟨low,high⟩ := @controlTargetRange setting draw lifecycleSized w.controlFrameCount
    obtain ⟨least,most⟩ := sampleRange draw.chunk
    obtain ⟨fits,top,within,-⟩ := @turnFits _ _ packet.length low high (Nat.lt_of_lt_of_le (by decide) least)
      (most.trans (by decide))
    rw [sliceLoop,size] at ran
    rw [sizesFrom,controlCuts]
    have turned : ∀ controlTarget chunk : Nat,
        (if packet.length ≤ controlTarget - controlRecordMinOverhead then (controlTarget,packet.length)
          else if packet.length ≥ dataRecordCapacity then (maxDataRecordWireLen,dataRecordCapacity)
          else (dataRecordWireLen chunk,min packet.length chunk)) = turnFor controlTarget chunk packet.length :=
      fun _ _ => rfl
    simp only [turned]
    generalize turnFor _ _ packet.length = turn at fits top within ran ⊢
    have slice : (values (packet.take turn.2)).length + minDataWireLen ≤ turn.1 := by
      rw [values,List.length_map,List.length_take]
      omega
    have wire : (record (packet.take turn.2) turn.1).wireLen = turn.1 := recordExact (by
      rw [List.length_take]
      omega) top
    have small : (record (packet.take turn.2) turn.1).payload.length ≤ dataRecordCapacity := by
      have most : maxDataRecordWireLen = dataRecordCapacity + minDataWireLen := by decide
      rw [record,List.length_take]
      omega
    rw [← valuesTake,← valuesDrop] at ran
    obtain ⟨cut,none',made⟩ := @cutPrepared setting w undoes _ _ slice top
    have counted := @cutCounted setting w (values (packet.take turn.2)) turn.1
    dsimp only at ran
    rw [cut] at ran
    generalize (prepareCut setting w (values (packet.take turn.2)) turn.1).2 = prepared at none' made counted ran
    obtain prepares | ⟨refused,-⟩ := made
    · rw [if_neg (not_not_intro prepares)] at ran
      by_cases last : turn.2 ≥ packet.length
      · rw [if_pos last] at ran
        cases Option.some.inj ran
        rw [if_pos last]
        refine ⟨_,rfl,?_,fun made member => by rw [List.mem_singleton.mp member]; exact small⟩
        simp only [List.map_cons,List.map_nil,wire]
        rfl
      · rw [if_neg last] at ran
        obtain ⟨later,ran',rfl⟩ := Option.map_eq_some_iff.mp ran
        rw [if_neg last,← counted prepares]
        obtain ⟨records,found,same,rest⟩ := ih prepared.half (packet.drop turn.2) later ran' ok
        rw [found]
        refine ⟨_,rfl,?_,?_⟩
        · simp only [List.map_cons,wire,same]
          rfl
        · intro made member
          rcases List.mem_cons.mp member with rfl | member
          · exact small
          · exact rest made member
    · rw [if_pos (by rw [refused]; decide)] at ran
      cases Option.some.inj ran
      rw [refused] at ok
      contradiction

theorem packetRefines (undoes : setting.noise.Undoes) {draws : List SizeDraw} {packet : List Byte} {r : Sliced}
    (ran : prepareControlPacketRecords setting draws w (values packet) = some r) (ok : r.outcome = .ok) :
    ∃ records, controlRecords (sizesFrom setting (packetCarriesStreamLifecycleFrame (values packet)) w.controlFrameCount draws)
        packet = some records ∧
      records.map (fun made => (values made.payload,made.wireLen)) = r.cuts.map (fun cut => (cut.payload,cut.wireLen)) := by
  have size : (values packet).length = packet.length := List.length_map _
  have sized := selfSizedSame (values packet)
  rw [controlRecords]
  cases found : selfSizedPaddingWireLen (values packet) with
  | some target =>
    have length := selfSizedLength found
    rw [found] at sized
    have short : packet.length ≤ dataRecordCapacity := by
      refine Nat.not_lt.mp (fun long => ?_)
      rw [overlongPanics draws w (by rw [found]; rfl) (by rwa [size])] at ran
      cases Option.some.inj ran
      contradiction
    rw [size] at length
    have most : maxDataRecordWireLen = dataRecordCapacity + minDataWireLen := by decide
    have wire : (record packet (packet.length + controlRecordMinOverhead)).wireLen = target := by
      have same : packet.length + controlRecordMinOverhead = target := length.symm
      rw [same]
      exact recordExact (Nat.le_of_eq length.symm) (by omega)
    obtain ⟨cut,-,made⟩ := @cutPrepared setting w undoes (values packet) target (by omega) (by omega)
    rw [prepareControlPacketRecords,found] at ran
    dsimp only at ran
    rw [cut] at ran
    cases Option.some.inj ran
    obtain prepares | ⟨refused,-⟩ := made
    · rw [if_pos prepares,← sized]
      refine ⟨[record packet (packet.length + controlRecordMinOverhead)],?_,?_⟩
      · show (if _ then _ else none) = _
        rw [if_pos]
        simpa [record] using short
      · simp only [List.map_cons,List.map_nil,wire]
        rfl
    · rw [if_neg (by rw [refused]; decide),refused] at ok
      contradiction
  | none =>
    rw [found] at sized
    rw [prepareControlPacketRecords,found] at ran
    obtain ⟨records,cuts,same,small⟩ := loopRefines undoes _ draws w packet r ran ok
    rw [← sized]
    refine ⟨records,?_,same⟩
    show Option.bind (controlCuts _ packet) _ = _
    rw [cuts]
    show (if _ then _ else none) = _
    rw [if_pos]
    simpa using small

end Refines

end KanoTls.Control
