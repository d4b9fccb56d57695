import KanoTls.Window

/-! Two sessions joined by an in-order tunnel. Each side sends under its gate, counts
what it receives and gives the credit back in WINDOW_UPDATE frames: for the connection
when a frame arrives, for a stream when its reader says so. Only the read loop calls
`note_conn_received` and only the reader of a stream calls `note_consumed`, so each of
them is one step here; whether the control queue takes the frame is an answer. -/
namespace KanoTls.Link
open Pending Window

inductive Msg where
  | psh (sid : StreamId) (payload : Payload)
  | windowUpdate (sid : StreamId) (increment : Nat)
  | settings (fc : Bool)
  | other
  deriving DecidableEq, Repr

def maxPayloadLen : Nat := 65535
def connWuThreshold : Nat := h2SessionWindowBytes / 8
def streamWuThreshold : Nat := streamWindowBytes / 8
def maxU32 : Nat := 2^32 - 1
def maxU64 : Nat := 2^64 - 1

/- `data.chunks(MAX_PAYLOAD_LEN)`; the fuel is the number of bytes. -/
def chunks : Nat → Payload → List Payload
  | 0,_ => []
  | _+1,[] => []
  | fuel+1,data => data.take maxPayloadLen::chunks fuel (data.drop maxPayloadLen)

def encodePshFrames (sid : StreamId) (data : Payload) : List Msg := (chunks data.length data).map (Msg.psh sid)

/- The frames of one write: `write_gather_open` with its target, or the other paths. -/
def writeFrames (sid : StreamId) : Option Payload → Payload → List Msg
  | some target,data => encodePshFrames sid target ++ encodePshFrames sid data
  | none,[] => [.psh sid []]
  | none,data => encodePshFrames sid data

/- `wire` is what the writer has put into the tunnel and the peer has not read. `taken`
and `noted` add up what the reader of a stream took out and passed to `note_consumed`,
`dropped` what no reader will see, `ignored` the increments for a stream that is gone,
`early` what was submitted before `fc=1` was known; no step reads the last three. -/
structure Side where
  gate : Gate := {}
  registered : StreamId → Bool := fun _ => false
  control : List Msg := []
  bulk : List Msg := []
  wire : List Msg := []
  consumed : Nat := 0
  streamConsumed : StreamId → Nat := fun _ => 0
  buffered : StreamId → List Payload := fun _ => []
  taken : StreamId → Nat := fun _ => 0
  noted : StreamId → Nat := fun _ => 0
  dropped : StreamId → Nat := fun _ => 0
  ignored : StreamId → Nat := fun _ => 0
  early : Nat := 0

namespace Side

def enqueue (x : Side) (control : Bool) (frames : List Msg) : Side :=
  bif control then {x with control := x.control ++ frames} else {x with bulk := x.bulk ++ frames}

section Enqueue
variable (x : Side) (control : Bool) (frames : List Msg)

@[simp] theorem enqueueGate : (x.enqueue control frames).gate = x.gate := by cases control <;> rfl
@[simp] theorem enqueueRegistered : (x.enqueue control frames).registered = x.registered := by cases control <;> rfl
@[simp] theorem enqueueWire : (x.enqueue control frames).wire = x.wire := by cases control <;> rfl
@[simp] theorem enqueueConsumed : (x.enqueue control frames).consumed = x.consumed := by cases control <;> rfl
@[simp] theorem enqueueStreamConsumed : (x.enqueue control frames).streamConsumed = x.streamConsumed := by
  cases control <;> rfl
@[simp] theorem enqueueBuffered : (x.enqueue control frames).buffered = x.buffered := by cases control <;> rfl
@[simp] theorem enqueueTaken : (x.enqueue control frames).taken = x.taken := by cases control <;> rfl
@[simp] theorem enqueueNoted : (x.enqueue control frames).noted = x.noted := by cases control <;> rfl
@[simp] theorem enqueueDropped : (x.enqueue control frames).dropped = x.dropped := by cases control <;> rfl
@[simp] theorem enqueueIgnored : (x.enqueue control frames).ignored = x.ignored := by cases control <;> rfl
@[simp] theorem enqueueEarly : (x.enqueue control frames).early = x.early := by cases control <;> rfl

end Enqueue

def bumpConnConsumed (prev len : Nat) : Nat × Option Nat :=
  let total := min (prev + len) maxU64
  if total ≥ connWuThreshold then (0,some (min total maxU32)) else (total,none)

/- A closed writer takes no frame. -/
def sendWindowUpdate (x : Side) (sid : StreamId) (increment : Nat) : Option Side :=
  if x.gate.closeRequested then none else some (x.enqueue true [.windowUpdate sid increment])

def noteConnReceived (x : Side) (len : Nat) (accepted : Bool) : Option Side :=
  match bumpConnConsumed x.consumed len with
  | (next,none) => some {x with consumed := next}
  | (next,some total) =>
    bif accepted then {x with consumed := next}.sendWindowUpdate 0 total
    else some {x with consumed := next + total}

def noteConsumed (x : Side) (sid : StreamId) (len : Nat) (accepted : Bool) : Option Side :=
  let total := (x.streamConsumed sid + len) % 2^64
  if total ≥ streamWuThreshold then
    bif accepted then
      {x with streamConsumed := Function.update x.streamConsumed sid 0}.sendWindowUpdate sid (min total maxU32)
    else some {x with streamConsumed := Function.update x.streamConsumed sid total}
  else some {x with streamConsumed := Function.update x.streamConsumed sid total}

def isOwn : Window.Action → Bool
  | .gate _ | .wake _ _ | .cancel _ | .close _ | .closer _ | .exhaust | .writer _ => true
  | .reader (.settings _) | .reader (.connCredit _) | .reader (.streamCredit _ _) => false
  | .reader _ => true
  | .acquire _ _ | .bypass _ _ | .submit _ => false

inductive LocalAction where
  | gate (a : Window.Action)
  | write (sid : StreamId) (len : Nat)
  | submit (i : Nat) (target : Option Payload) (data : Payload) (control : Bool)
  | send (control fc : Bool)
  | sendOther (control : Bool)
  | transmit (control : Bool)
  | register (sid : StreamId)
  | unregister (sid : StreamId)
  | take (sid : StreamId)
  | note (sid : StreamId) (len : Nat) (accepted : Bool)
  deriving DecidableEq, Repr

/- `Session::write_data` looks its stream up; the client's stream holds its own credit. -/
def writeAction (isClient : Bool) (x : Side) (sid : StreamId) (len : Nat) : Window.Action :=
  bif isClient || x.registered sid then .acquire sid len else .bypass sid len

def submit (x : Side) (i : Nat) (target : Option Payload) (data : Payload) (control : Bool) : Option Side :=
  x.gate.tasks[i]?.bind (fun a =>
    if (target.getD []).length + data.length = a.len then
      (Window.step x.gate (.submit i)).map (fun gate =>
        {x with
          gate := gate
          early := bif x.gate.peerFlowControl then x.early else x.early + a.len}.enqueue control
            (writeFrames a.sid target data))
    else none)

def transmit (x : Side) (control : Bool) : Option Side :=
  if x.gate.writer = .busy then
    match (bif control then x.control else x.bulk) with
    | [] => none
    | m::rest =>
      some (bif control then {x with control := rest,wire := x.wire ++ [m]}
        else {x with bulk := rest,wire := x.wire ++ [m]})
  else none

def take (x : Side) (sid : StreamId) : Option Side :=
  match x.buffered sid with
  | [] => none
  | d::rest =>
    some {x with
      buffered := Function.update x.buffered sid rest
      taken := Function.update x.taken sid (x.taken sid + d.length)}

/- A reader passes on no more than it took. -/
def note (x : Side) (sid : StreamId) (len : Nat) (accepted : Bool) : Option Side :=
  if sid ≠ 0 ∧ x.noted sid + len ≤ x.taken sid then
    {x with noted := Function.update x.noted sid (x.noted sid + len)}.noteConsumed sid len accepted
  else none

def localStep (isClient : Bool) (x : Side) : LocalAction → Option Side
  | .gate a => if isOwn a then (Window.step x.gate a).map (fun gate => {x with gate := gate}) else none
  | .write sid len => (Window.step x.gate (x.writeAction isClient sid len)).map (fun gate => {x with gate := gate})
  | .submit i target data control => x.submit i target data control
  | .send control fc => if x.gate.closeRequested then none else some (x.enqueue control [.settings fc])
  | .sendOther control => if x.gate.closeRequested then none else some (x.enqueue control [.other])
  | .transmit control => x.transmit control
  | .register sid => some {x with registered := Function.update x.registered sid true}
  | .unregister sid => some {x with registered := Function.update x.registered sid false}
  | .take sid => x.take sid
  | .note sid len accepted => x.note sid len accepted

/- Whether a payload is kept for its reader is the receive side's answer. -/
def store (x : Side) (sid : StreamId) (payload : Payload) (kept : Bool) : Side :=
  bif kept then {x with buffered := Function.update x.buffered sid (x.buffered sid ++ [payload])}
  else {x with dropped := Function.update x.dropped sid (x.dropped sid + payload.length)}

section Store
variable (x : Side) (sid : StreamId) (payload : Payload) (kept : Bool)

@[simp] theorem storeGate : (x.store sid payload kept).gate = x.gate := by cases kept <;> rfl
@[simp] theorem storeConsumed : (x.store sid payload kept).consumed = x.consumed := by cases kept <;> rfl
@[simp] theorem storeStreamConsumed : (x.store sid payload kept).streamConsumed = x.streamConsumed := by
  cases kept <;> rfl
@[simp] theorem storeTaken : (x.store sid payload kept).taken = x.taken := by cases kept <;> rfl
@[simp] theorem storeNoted : (x.store sid payload kept).noted = x.noted := by cases kept <;> rfl
@[simp] theorem storeIgnored : (x.store sid payload kept).ignored = x.ignored := by cases kept <;> rfl
@[simp] theorem storeEarly : (x.store sid payload kept).early = x.early := by cases kept <;> rfl

end Store

def handleFrame (x : Side) (kept accepted : Bool) : Msg → Option Side
  | .psh sid payload =>
    if x.gate.reader = .busy then
      (x.noteConnReceived payload.length accepted).map (fun y => y.store sid payload kept)
    else none
  | .windowUpdate sid increment =>
    if sid = 0 then
      (Window.step x.gate (.reader (.connCredit increment))).map (fun gate => {x with gate := gate})
    else if x.registered sid then
      (Window.step x.gate (.reader (.streamCredit sid increment))).map (fun gate => {x with gate := gate})
    else if x.gate.reader = .busy then
      some {x with ignored := Function.update x.ignored sid (x.ignored sid + increment)}
    else none
  | .settings fc => (Window.step x.gate (.reader (.settings fc))).map (fun gate => {x with gate := gate})
  | .other => if x.gate.reader = .busy then some x else none

end Side

/- The client is `true`. -/
abbrev State := Bool → Side

inductive Action where
  | own (p : Bool) (a : Side.LocalAction)
  | receive (p kept accepted : Bool)
  deriving DecidableEq, Repr

def step (s : State) : Action → Option State
  | .own p a => ((s p).localStep p a).map (Function.update s p)
  | .receive p kept accepted =>
    match (s (!p)).wire with
    | [] => none
    | m::rest =>
      ((s p).handleFrame kept accepted m).map (fun x =>
        Function.update (Function.update s (!p) {s (!p) with wire := rest}) p x)

def start : State := fun _ => {}

abbrev Run (ok : State → Action → Prop) : State → Prop := Machine.Reach step ok start

end KanoTls.Link
