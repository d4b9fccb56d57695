import KanoTls.Frame
import KanoTls.Shaper
import KanoTls.Machine

/-! `SessionWriter::run`: the task that turns write requests into records. A step is
what it does between two points where others may act: a record prepared, a flush, a
request taken from a channel. A byte carries the request it belongs to, and a padding
byte or the client's SETTINGS belong to none; no step reads that mark. -/
namespace KanoTls.Writer
open Wire Shaper Uot

structure Byte where
  value : UInt8
  owner : Option Nat
  deriving DecidableEq, Repr

def values (bytes : List Byte) : Bytes := bytes.map (·.value)

/- A packet of a request is a sequence of whole frames. -/
structure Packet where
  owner : Option Nat
  frames : List Frame
  deriving DecidableEq, Repr

def Packet.bytes (p : Packet) : List Byte := (encodeAll p.frames).map (fun b => ⟨b,p.owner⟩)

structure Request where
  id : Nat
  control : Bool
  auto : Bool
  packets : List Packet
  deriving DecidableEq, Repr

namespace Request

def bytes (r : Request) : List Byte := r.packets.flatMap Packet.bytes
def headers (r : Request) : List (UInt8 × Nat × Nat) :=
  r.packets.flatMap (fun p => walkFrameHeaders (values p.bytes))
def sids (r : Request) : List Nat := r.headers.map (·.2.1)
def carriesStreamData (r : Request) : Bool := r.headers.any (fun h => h.1 == cmdPsh)

end Request

def isLifecycle (cmd : UInt8) : Bool :=
  cmd == cmdSyn || cmd == cmdFin || cmd == cmdSettings || cmd == cmdSynack

def controlWriteCanPassThrough (r : Request) (pinned : List Nat) : Bool :=
  !r.headers.isEmpty && r.headers.all (fun h => isLifecycle h.1 && !pinned.contains h.2.1)

structure Record where
  payload : List Byte
  wireLen : Nat
  deriving DecidableEq, Repr

/- `prepare_control_record` and `prepare_data_record`: the block is padded to the target. -/
def record (payload : List Byte) (target : Nat) : Record :=
  let overhead := tlsRecordHeaderLen + aeadTagLen
  ⟨payload,overhead + min (max (target - overhead) (payload.length + blockLenPrefixSize + innerContentTypeLen))
    blockPlaintextSize⟩

def controlRecordMinOverhead : Nat := blockLenPrefixSize + tlsRecordHeaderLen + aeadTagLen + innerContentTypeLen
def paddingHeaderLen : Nat := 2
def pingWire : Nat := 41
def minPaddingRecordWireLen : Nat := controlRecordMinOverhead + frameHeaderSize + paddingHeaderLen
def junkLen : Nat := pingWire - minPaddingRecordWireLen

def settingsFrame : Frame := ⟨cmdSettings,0,[118,61,50,59,102,99,61,49],by decide,by decide⟩
def paddingRequest (responses : Nat) : Frame :=
  ⟨cmdPadding,0,[0,UInt8.ofNat responses] ++ List.replicate junkLen 0,by decide,by simp [maxPayloadLen]; decide⟩
def goawayFrame (last : Nat) : Frame :=
  ⟨cmdPadding,0,[2,0] ++ sidBytes last ++ List.replicate (junkLen - 4) 0,by decide,by
    simp [maxPayloadLen,sidBytes,toBeBytes]; decide⟩

def paddingRecord (frame : Frame) : Record := record (Packet.bytes ⟨none,[frame]⟩) pingWire

/- `self_sized_padding_wire_len`: a packet that is one CMD_PADDING frame. -/
def selfSizedPadding (packet : Bytes) : Bool :=
  match packet with
  | cmd::_::_::_::_::high::low::rest =>
    cmd == cmdPadding && decide (rest.length = fromBeBytes high low) && decide (fromBeBytes high low ≥ paddingHeaderLen)
  | _ => false

/- The loop of `prepare_control_packet_records`. A draw holds the sampled size of a
control record and of a chunk of data; none is left when the packet ends. -/
def controlCuts : List (Nat × Nat) → List Byte → Option (List Record)
  | [],_ => none
  | (controlTarget,chunk)::draws,packet =>
    let (target,take) :=
      if packet.length ≤ controlTarget - controlRecordMinOverhead then (controlTarget,packet.length)
      else if packet.length ≥ dataRecordCapacity then (maxDataRecordWireLen,dataRecordCapacity)
      else (dataRecordWireLen chunk,min packet.length chunk)
    let cut := record (packet.take take) target
    if take ≥ packet.length then some [cut]
    else (controlCuts draws (packet.drop take)).map (fun later => cut::later)

/- A block holds at most `dataRecordCapacity` bytes: a longer one panics. -/
def controlRecords (draws : List (Nat × Nat)) (packet : List Byte) : Option (List Record) :=
  let records := if selfSizedPadding (values packet) then
      some [record packet (packet.length + controlRecordMinOverhead)]
    else controlCuts draws packet
  records.bind (fun rs => if rs.all (fun r => decide (r.payload.length ≤ dataRecordCapacity)) then some rs else none)

/- Inside `drive_shaper`. `current` is the control request that waits for the drain,
`exiting` the drain after the main loop, whose control channel is dead. -/
structure Drain where
  consumed : Nat := 0
  sticky : Bool
  first : Option ShapePolicy
  boundaries : List Nat
  pinned : List Nat
  fakes : List Nat := []
  current : Option Request
  deferred : List Request := []
  exiting : Bool
  deriving DecidableEq, Repr

def Drain.atBoundary (d : Drain) : Bool := d.consumed == 0 || d.boundaries.contains d.consumed

inductive Pc where
  | select
  | drain (d : Drain)
  | window (d : Drain)
  | through (d : Drain) (r : Request) (todo : List Packet)
  | prepare (r : Request) (todo : List Packet) (rest : List Request)
  | merge | leaving | closing | goaway | done
  deriving DecidableEq, Repr

/- `queue` is both channels in the order of the sends: each channel is the sublist of
its class. `buffer` has been prepared, `wire` has been flushed. `sent` and `answers`
are history. -/
structure State where
  client : Bool
  settings : Bool
  shaper : TrafficShaper
  closeRequested : Bool := false
  hungUp : Bool := false
  queue : List Request := []
  pending : List Byte := []
  responders : List Nat := []
  batch : List Nat := []
  records : Nat := 0
  buffer : List Record := []
  wire : List Record := []
  pc : Pc := .select
  sent : List Request := []
  answers : List (Nat × Bool) := []

def stickyBulkFlushMaxRecords : Nat := 8
def stickyBulkFlushMaxBytes : Nat := 128*1024

def takeControl : List Request → Option (Request × List Request)
  | [] => none
  | r::rest => if r.control then some (r,rest) else (takeControl rest).map (fun found => (found.1,r::found.2))

def bulkOf (queue : List Request) : List Request := queue.filter (fun r => !r.control)
def controlOf (queue : List Request) : List Request := queue.filter (fun r => r.control)

def answerAll (ids : List Nat) (ok : Bool) : List (Nat × Bool) := ids.map (fun id => (id,ok))

namespace State

def isFull (s : State) : Bool :=
  decide (s.records ≥ stickyBulkFlushMaxRecords) ||
  decide ((s.buffer.map (·.wireLen)).sum ≥ stickyBulkFlushMaxBytes)

def flushed (s : State) : State :=
  {s with wire := s.wire ++ s.buffer,buffer := [],records := 0,batch := []
          answers := s.answers ++ answerAll s.batch true}

/- A failed flush, and `FlushBatch::fail`. -/
def failed (s : State) : State :=
  {s with records := 0,batch := [],answers := s.answers ++ answerAll s.batch false}

def prepared (s : State) (records : List Record) : State := {s with buffer := s.buffer ++ records}

def queueBulkRequest (s : State) (r : Request) : State :=
  if r.auto then {s with pending := s.pending ++ r.bytes,answers := s.answers ++ [(r.id,true)]}
  else {s with pending := s.pending ++ r.bytes,responders := s.responders ++ [r.id]}

/- `try_recv` on the bulk channel until it is empty. -/
def drainBulk (s : State) : State :=
  {(bulkOf s.queue).foldl queueBulkRequest s with queue := controlOf s.queue}

def withSettings (s : State) (r : Request) : Request :=
  if s.settings then {r with packets := ⟨none,[settingsFrame]⟩::r.packets} else r

def offsets : Nat → List (UInt8 × Nat × Nat) → List Nat
  | _,[] => []
  | start,h::rest => (start + h.2.2)::offsets (start + h.2.2) rest

def startDrain (s : State) (pinned : List Nat) (current : Option Request) (exiting : Bool) (draw : Draw) : State :=
  let shaper := s.shaper.beginDrain
  let next := if s.pending.isEmpty then none else some (shaper.nextDataPolicy draw s.pending.length)
  let first := next.map (·.1)
  let sticky := first.any (·.allowFullBlock)
  let headers := walkFrameHeaders (values s.pending)
  {s with
    shaper := (next.map (·.2)).getD shaper
    pc := .drain {
      sticky := sticky,first := first,current := current,exiting := exiting
      boundaries := if sticky then [] else offsets 0 headers
      pinned := if sticky then pinned else pinned ++ (headers.filter (fun h => h.1 == cmdPsh)).map (·.2.1)}}

/- An error in `drive_shaper`: the waiters are told, what was deferred is dropped. The
drain at the exit ignores it and hands its waiters to the batch. -/
def failDrain (s : State) (d : Drain) : State :=
  if d.exiting then {s with batch := s.batch ++ s.responders,responders := [],pc := .closing}
  else {s.failed with
    answers := s.answers ++ answerAll s.responders false ++ answerAll s.batch false ++
      answerAll (d.current.toList.map (·.id)) false
    responders := [],pc := .leaving}

def nextRequest : List Request → Pc
  | [] => .merge
  | r::rest => .prepare r r.packets rest

/- A request taken after `close_requested`: everyone waiting is told. -/
def refuse (s : State) (r : Request) (rest : List Request) : State :=
  {s.failed with
    queue := rest,responders := [],pc := .leaving
    answers := s.answers ++ answerAll s.batch false ++ answerAll s.responders false ++ [(r.id,false)]}

def controlStep (s : State) (draw : Draw) : Option State :=
  match takeControl s.queue with
  | none => none
  | some (r,rest) =>
    if s.closeRequested then some (s.refuse r rest)
    else
      let r := s.withSettings r
      let s := {s with queue := rest,settings := false}.drainBulk
      if r.carriesStreamData then some ((s.queueBulkRequest r).startDrain r.sids none false draw)
      else if s.pending.isEmpty then some {s with pc := nextRequest [r]}
      else some (s.startDrain r.sids (some r) false draw)

/- The bulk branch: the select is biased, so the control channel is empty. -/
def bulkStep (s : State) (draw : Draw) : Option State :=
  if (controlOf s.queue).isEmpty then
    match s.queue with
    | [] => none
    | r::rest =>
      if s.closeRequested then some (s.refuse r rest)
      else
        let s := s.drainBulk
        if s.pending.isEmpty then some {s with pc := .merge}
        else some (s.startDrain [] none false draw)
  else none

/- The policy of the record: the first one was fetched before the loop, and a first one
that allows a full block stays in force. -/
def policyFor (s : State) (d : Drain) (draw : Draw) : ShapePolicy × TrafficShaper :=
  let remaining := s.pending.length - d.consumed
  match d.first with
  | some policy => (policy,s.shaper)
  | none =>
    if d.sticky then
      let take := min remaining dataRecordCapacity
      ({targetWireLen := if take = dataRecordCapacity then maxDataRecordWireLen else dataRecordWireLen take
        allowFullBlock := true},s.shaper)
    else s.shaper.nextDataPolicy draw remaining

/- The fake interaction that goes out with the record, and the one that is put off
because the record does not start at a frame boundary. -/
def fakesAround (d : Drain) (policy : ShapePolicy) : Option Nat × Option Nat :=
  let quiet := if policy.quietGap then policy.fake else none
  match policy.preFake with
  | none => (quiet,none)
  | some pre => if d.atBoundary then (some (min (quiet.getD 0 + pre) maxU8),none) else (quiet,some pre)

def inlineRecords (d : Drain) (policy : ShapePolicy) : List Record :=
  (fakesAround d policy).1.toList.map (fun responses => paddingRecord (paddingRequest responses))

def takeFor (s : State) (d : Drain) (policy : ShapePolicy) : Nat :=
  min (min (policy.targetWireLen - minDataWireLen) dataRecordCapacity) (s.pending.length - d.consumed)

def dataRecord (s : State) (d : Drain) (policy : ShapePolicy) : Record :=
  record ((s.pending.drop d.consumed).take (s.takeFor d policy)) policy.targetWireLen

def afterRecord (s : State) (d : Drain) (policy : ShapePolicy) : Drain :=
  {d with
    consumed := d.consumed + s.takeFor d policy,first := none
    fakes := d.fakes ++ (fakesAround d policy).2.toList ++ if policy.quietGap then [] else policy.fake.toList}

end State

inductive Fault where
  | none | fake | data | flush
  deriving DecidableEq, Repr

namespace State

/- One turn of the loop of `drive_shaper`, up to its delay. -/
def recordStep (s : State) (d : Drain) (draw : Draw) (fault : Fault) : Option State :=
  if d.consumed ≥ s.pending.length then none else
  let (policy,shaper) := s.policyFor d draw
  let inline := inlineRecords d policy
  let both := inline ++ [s.dataRecord d policy]
  let d' := s.afterRecord d policy
  if fault = .fake ∧ inline ≠ [] then some ({s with shaper := shaper}.failDrain d)
  else if fault = .data then some (({s with shaper := shaper}.prepared inline).failDrain d)
  else
    let s := {s.prepared both with shaper := shaper.advance,records := s.records + both.length}
    let pc := if policy.delay then Pc.window d' else .drain d'
    if policy.quietGap || policy.delay || s.isFull then
      if fault = .flush then some (s.failed.failDrain d') else some {s.flushed with pc := pc}
    else some {s with pc := pc}

/- The backlog is drained. `made` fake interactions are prepared before an error, which
is ignored. -/
def finishStep (s : State) (d : Drain) (made : Nat) : Option State :=
  if d.consumed < s.pending.length then none
  else if d.exiting then
    some {s with pending := [],batch := s.batch ++ s.responders,responders := [],pc := .closing}
  else
    let fakes := (d.fakes.take made).map (fun responses => paddingRecord (paddingRequest responses))
    let records := if made < d.fakes.length then s.records else s.records + fakes.length
    some {s.prepared fakes with
      pending := [],records := records,batch := s.batch ++ s.responders,responders := []
      pc := nextRequest (d.current.toList ++ d.deferred)}

def arriveStep (s : State) (d : Drain) : Option State :=
  if d.exiting then none else
  match takeControl s.queue with
  | none => none
  | some (r,rest) =>
    let r := s.withSettings r
    let s := {s with queue := rest,settings := false}
    if d.deferred.isEmpty && d.boundaries.contains d.consumed && controlWriteCanPassThrough r d.pinned then
      some {s with pc := .through d r r.packets}
    else some {s with pc := .window {d with pinned := d.pinned ++ r.sids,deferred := d.deferred ++ [r]}}

/- One packet of a control request. With a fault, only some of its records are made. -/
def packetStep (s : State) (draws : List (Nat × Nat)) (fault : Option Nat) : Option State :=
  match s.pc with
  | .through d r (p::todo) =>
    (controlRecords draws p.bytes).map (fun records =>
      match fault with
      | some made =>
        {s.prepared (records.take made) with answers := s.answers ++ [(r.id,false)]}.failDrain d
      | none => {s.prepared records with records := s.records + records.length,pc := .through d r todo})
  | .prepare r (p::todo) rest =>
    (controlRecords draws p.bytes).map (fun records =>
      match fault with
      | some made =>
        {s.prepared (records.take made) with answers := s.answers ++ [(r.id,false)],pc := .leaving}
      | none => {s.prepared records with records := s.records + records.length,pc := .prepare r todo rest})
  | _ => none

def flushStep (s : State) (ok : Bool) : Option State :=
  match s.pc with
  | .through d r [] =>
    let s := {s with batch := s.batch ++ [r.id]}
    some (bif ok then {s.flushed with pc := .window d} else s.failed.failDrain d)
  | .merge =>
    if s.records = 0 ∧ s.batch = [] then some {s with pc := .select}
    else if s.queue ≠ [] ∧ s.isFull = false then some {s with pc := .select}
    else some (bif ok then {s.flushed with pc := .select} else {s.failed with pc := .leaving})
  | .closing => some (bif ok then {s.flushed with pc := .goaway} else {s.failed with pc := .goaway})
  | _ => none

def goawayStep (s : State) (last : Nat) (ok : Bool) : Option State :=
  if s.shaper.postScriptOff then some {s with pc := .done}
  else
    let s := s.prepared [paddingRecord (goawayFrame last)]
    some (bif ok then {s with wire := s.wire ++ s.buffer,buffer := [],pc := .done} else {s with pc := .done})

def newRequest (s : State) (control auto : Bool) (packets : List (List Frame)) : Request :=
  ⟨s.sent.length,control,auto,packets.map (fun frames => ⟨some s.sent.length,frames⟩)⟩

end State

inductive Action where
  | send (control auto : Bool) (packets : List (List Frame))
  | close | hangUp | exit
  | control (draw : Draw)
  | bulk (draw : Draw)
  | record (draw : Draw) (fault : Fault)
  | finish (made : Nat)
  | arrive | windowEnd
  | packet (draws : List (Nat × Nat)) (fault : Option Nat)
  | ready
  | flush (ok : Bool)
  | leave (draw : Draw)
  | goaway (last : Nat) (ok : Bool)
  deriving DecidableEq, Repr

def step (s : State) : Action → Option State
  | .send control auto packets =>
    if s.hungUp || s.pc = .done then none else
    let r := s.newRequest control auto packets
    some {s with queue := s.queue ++ [r],sent := s.sent ++ [r]}
  | .close => some {s with closeRequested := true}
  | .hangUp => some {s with hungUp := true}
  | .exit =>
    if s.pc = .select ∧ (s.closeRequested = true ∨ s.hungUp = true ∧ controlOf s.queue = []) then
      some {s with pc := .leaving}
    else none
  | .control draw => if s.pc = .select then s.controlStep draw else none
  | .bulk draw => if s.pc = .select then s.bulkStep draw else none
  | .record draw fault =>
    match s.pc with
    | .drain d => s.recordStep d draw fault
    | _ => none
  | .finish made =>
    match s.pc with
    | .drain d => s.finishStep d made
    | _ => none
  | .arrive =>
    match s.pc with
    | .window d => s.arriveStep d
    | _ => none
  | .windowEnd =>
    match s.pc with
    | .window d => some {s with pc := .drain d}
    | _ => none
  | .packet draws fault => s.packetStep draws fault
  | .ready =>
    match s.pc with
    | .prepare r [] rest => some {s with batch := s.batch ++ [r.id],pc := State.nextRequest rest}
    | _ => none
  | .flush ok => s.flushStep ok
  | .leave draw =>
    if s.pc = .leaving then
      if s.pending.isEmpty then some {s with pc := .closing} else some (s.startDrain [] none true draw)
    else none
  | .goaway last ok => if s.pc = .goaway then s.goawayStep last ok else none

/- A client has its SETTINGS frame to send with the first control request. -/
def start (client postScriptOff : Bool) (script : List ScriptRule) (stop : Nat) : State :=
  {client := client,settings := client
   shaper := {client := client,script := script,scriptStop := stop,postScriptOff := postScriptOff}}

abbrev Run (ok : State → Action → Prop) (client postScriptOff : Bool) (script : List ScriptRule) (stop : Nat) :
    State → Prop :=
  Machine.Reach step ok (start client postScriptOff script stop)

end KanoTls.Writer
