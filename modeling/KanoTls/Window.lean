import KanoTls.Machine
import KanoTls.Pending
import KanoTls.Tasks
import Mathlib.Logic.Function.Basic

/-! The send side of one session: `WindowState::acquire_credit` with the credit it
waits for, and the closing of the session with the two loops it has to wake. A step is
one atomic operation of the source. `notify_waiters` leaves no permit: it tells the
futures that exist when it is called, and a future exists from its creation on. -/
namespace KanoTls.Window
open Pending

def maxI64 : Int := 2^63 - 1

/- `fetch_add` on an `AtomicI64` wraps around. -/
def wrapI64 (n : Int) : Int := (n + 2^63) % 2^64 - 2^63

/- Where a write stands: its call of `acquire_credit`, then the submission of its bytes.
From `connArmed` on the connection future exists, from `armed` on both do. `released`
has been charged and is `submitted` or `abandoned`; `passed` was let through uncharged
(no flow control, or a closed session); `bypassed` never came to the gate. -/
inductive GatePc where
  | start | top | unarmed | connArmed | armed
  | connLoaded (conn : Int) | debited | streamLoaded (stream : Int) | rollback
  | parked | released | submitted | abandoned
  | passed | passedOn | bypassed | bypassedOn | dropped
  deriving DecidableEq, Repr

structure Acquirer where
  sid : StreamId
  len : Nat
  pc : GatePc := .start
  toldConn : Bool := false
  toldStream : Bool := false
  deriving DecidableEq, Repr

def GatePc.hearsConn : GatePc → Bool
  | .connArmed | .armed | .connLoaded _ | .debited | .streamLoaded _ | .rollback | .parked => true
  | _ => false

def GatePc.hearsStream : GatePc → Bool
  | .armed | .connLoaded _ | .debited | .streamLoaded _ | .rollback | .parked => true
  | _ => false

def Acquirer.hearConn (a : Acquirer) : Acquirer := {a with toldConn := a.toldConn || a.pc.hearsConn}
def Acquirer.hearStream (sid : StreamId) (a : Acquirer) : Acquirer :=
  {a with toldStream := a.toldStream || (a.pc.hearsStream && decide (a.sid = sid))}

/- `swap` enters `Session::force_close`, `store false` enters `SessionWriter::close`. -/
inductive ClosePc where
  | swap | markDead | store (again : Bool) | notify (again : Bool) | notifyAgain
  deriving DecidableEq, Repr

/- `run_read_loop`. `checked` lies between the look at the flag and the creation of the
close future; `dueConn` and `dueStream` between a credit and its `notify_waiters`. -/
inductive ReadPc where
  | top | checked | parked (told : Bool) | busy | dueConn | dueStream (sid : StreamId)
  | closing (pc : ClosePc) | returned
  deriving DecidableEq, Repr

/- `SessionWriter::run`. -/
inductive WriterPc where
  | top | checked | parked (told : Bool) | received | busy | exited
  deriving DecidableEq, Repr

def h2SessionWindowBytes : Nat := 32*1024*1024
def streamWindowBytes : Nat := 32*1024*1024

/- `connGranted` and `granted` add up the increments received; no step reads them. -/
structure Gate where
  peerFlowControl : Bool := false
  closeRequested : Bool := false
  alive : Bool := true
  conn : Int := h2SessionWindowBytes
  credit : StreamId → Int := fun _ => streamWindowBytes
  tasks : List Acquirer := []
  closers : List (Option ClosePc) := []
  reader : ReadPc := .top
  writer : WriterPc := .top
  connGranted : Int := 0
  granted : StreamId → Int := fun _ => 0

namespace Gate

def setTask (s : Gate) (i : Nat) (a : Acquirer) : Gate := {s with tasks := s.tasks.set i a}

/- One atomic operation of task `i` inside `acquire_credit`. -/
def gateStep (s : Gate) (i : Nat) (a : Acquirer) : Option Gate :=
  match a.pc with
  | .start => some (s.setTask i {a with pc := if s.peerFlowControl then .top else .passed})
  | .top => some (s.setTask i {a with pc := if s.closeRequested then .passed else .unarmed})
  | .unarmed => some (s.setTask i {a with pc := .connArmed,toldConn := false})
  | .connArmed => some (s.setTask i {a with pc := .armed,toldStream := false})
  | .armed => some (s.setTask i {a with pc := if s.conn ≥ a.len then .connLoaded s.conn else .parked})
  | .connLoaded conn =>
    if s.conn = conn then some {s.setTask i {a with pc := .debited} with conn := conn - a.len}
    else some (s.setTask i {a with pc := .parked})
  | .debited =>
    some (s.setTask i {a with pc := if s.credit a.sid ≥ a.len then .streamLoaded (s.credit a.sid) else .rollback})
  | .streamLoaded stream =>
    if s.credit a.sid = stream then
      some {s.setTask i {a with pc := .released} with credit := Function.update s.credit a.sid (stream - a.len)}
    else some (s.setTask i {a with pc := .rollback})
  | .rollback => some {s.setTask i {a with pc := .parked} with conn := wrapI64 (s.conn + a.len)}
  | _ => none

def wakeStep (s : Gate) (i : Nat) (a : Acquirer) (stream : Bool) : Option Gate :=
  if a.pc = .parked ∧ (bif stream then a.toldStream else a.toldConn) = true then
    some (s.setTask i {a with pc := .top})
  else none

/- The bytes go to the writer's queue, which takes none once the session is closed. -/
def submitStep (s : Gate) (i : Nat) (a : Acquirer) : Option Gate :=
  if s.closeRequested then none else
  match a.pc with
  | .released => some (s.setTask i {a with pc := .submitted})
  | .passed => some (s.setTask i {a with pc := .passedOn})
  | .bypassed => some (s.setTask i {a with pc := .bypassedOn})
  | _ => none

/- The write fails, or its future is dropped at an await. -/
def dropStep (s : Gate) (i : Nat) (a : Acquirer) : Option Gate :=
  match a.pc with
  | .parked | .passed | .bypassed => some (s.setTask i {a with pc := .dropped})
  | .released => some (s.setTask i {a with pc := .abandoned})
  | _ => none

def tellConn (s : Gate) : Gate := {s with tasks := s.tasks.map Acquirer.hearConn}
def tellStream (s : Gate) (sid : StreamId) : Gate := {s with tasks := s.tasks.map (Acquirer.hearStream sid)}

def tellReader : ReadPc → ReadPc
  | .parked _ => .parked true
  | pc => pc

def tellWriter : WriterPc → WriterPc
  | .parked _ => .parked true
  | pc => pc

/- `close_notify.notify_waiters()`: both loops wait on this one. -/
def tellLoops (s : Gate) : Gate := {s with reader := tellReader s.reader,writer := tellWriter s.writer}

def closeStep (s : Gate) : ClosePc → Gate × Option ClosePc
  | .swap => if s.closeRequested then (s,none) else ({s with closeRequested := true},some .markDead)
  | .markDead => ({s with alive := false},some (.store true))
  | .store again => ({s with closeRequested := true},some (.notify again))
  | .notify again => (s.tellLoops,if again then some .notifyAgain else none)
  | .notifyAgain => (s.tellLoops,none)

def afterClose : Option ClosePc → ReadPc
  | some pc => .closing pc
  | none => .returned

/- What the read loop meets: its own next operation, an answer of its `select!`, or
the next frame of the chunk it has read. -/
inductive ReadEvent where
  | advance | notified | arrived | timer | stop
  | settings (fc : Bool) | connCredit (increment : Nat) | streamCredit (sid : StreamId) (increment : Nat)
  | pendingNotify (sid : StreamId) | handled
  deriving DecidableEq, Repr

def readAdvance (s : Gate) : Option Gate :=
  match s.reader with
  | .top => some {s with reader := if s.closeRequested then .closing .swap else .checked}
  | .checked => some {s with reader := .parked false}
  | .dueConn => some {s.tellConn with reader := .busy}
  | .dueStream sid => some {s.tellStream sid with reader := .busy}
  | .closing pc => some {(s.closeStep pc).1 with reader := afterClose (s.closeStep pc).2}
  | .parked _ | .busy | .returned => none

def readStep (s : Gate) : ReadEvent → Option Gate
  | .advance => s.readAdvance
  | .notified => if s.reader = .parked true then some {s with reader := .closing .swap} else none
  | .arrived => match s.reader with | .parked _ => some {s with reader := .busy} | _ => none
  | .timer => match s.reader with | .parked _ => some {s with reader := .top} | _ => none
  | .stop => match s.reader with | .parked _ | .busy => some {s with reader := .closing .swap} | _ => none
  | .settings fc =>
    if s.reader = .busy then some {s with peerFlowControl := s.peerFlowControl || fc} else none
  | .connCredit increment =>
    if s.reader = .busy ∧ increment < 2^32 then
      some {s with conn := wrapI64 (s.conn + increment),connGranted := s.connGranted + increment,reader := .dueConn}
    else none
  | .streamCredit sid increment =>
    if s.reader = .busy ∧ increment < 2^32 then
      some {s with
        credit := Function.update s.credit sid (wrapI64 (s.credit sid + increment))
        granted := Function.update s.granted sid (s.granted sid + increment),reader := .dueStream sid}
    else none
  | .pendingNotify sid => if s.reader = .busy then some {s with reader := .dueStream sid} else none
  | .handled => if s.reader = .busy then some {s with reader := .top} else none

inductive WriterEvent where
  | advance | notified | request | ended | written (failed : Bool)
  deriving DecidableEq, Repr

def writerStep (s : Gate) : WriterEvent → Option Gate
  | .advance =>
    match s.writer with
    | .top => some {s with writer := if s.closeRequested then .exited else .checked}
    | .checked => some {s with writer := .parked false}
    | .received => some {s with writer := if s.closeRequested then .exited else .busy}
    | .parked _ | .busy | .exited => none
  | .notified => if s.writer = .parked true then some {s with writer := .exited} else none
  | .request => match s.writer with | .parked _ => some {s with writer := .received} | _ => none
  | .ended => match s.writer with | .parked _ => some {s with writer := .exited} | _ => none
  | .written failed => if s.writer = .busy then some {s with writer := if failed then .exited else .top} else none

end Gate

inductive Action where
  | acquire (sid : StreamId) (len : Nat)
  | gate (i : Nat)
  | wake (i : Nat) (stream : Bool)
  | bypass (sid : StreamId) (len : Nat)
  | submit (i : Nat)
  | cancel (i : Nat)
  | close (force : Bool)
  | closer (j : Nat)
  | exhaust
  | reader (e : Gate.ReadEvent)
  | writer (e : Gate.WriterEvent)
  deriving DecidableEq, Repr

def step (s : Gate) : Action → Option Gate
  -- the length of a slice fits an isize
  | .acquire sid len => if (len : Int) ≤ maxI64 then some {s with tasks := s.tasks ++ [{sid := sid,len := len}]} else none
  | .gate i => s.tasks[i]?.bind (s.gateStep i)
  | .wake i stream => s.tasks[i]?.bind (fun a => s.wakeStep i a stream)
  -- `Session::write_data` on a stream that is not registered asks for no credit
  | .bypass sid len =>
    let pc := if s.peerFlowControl then GatePc.bypassed else .passed
    some {s with tasks := s.tasks ++ [{sid := sid,len := len,pc := pc}]}
  | .submit i => s.tasks[i]?.bind (s.submitStep i)
  | .cancel i => s.tasks[i]?.bind (s.dropStep i)
  | .close force => some {s with closers := s.closers ++ [some (if force then .swap else .store false)]}
  | .closer j =>
    s.closers[j]?.bind (fun c => c.map (fun pc =>
      {(s.closeStep pc).1 with closers := s.closers.set j (s.closeStep pc).2}))
  -- the last stream id is used up
  | .exhaust => some {s with alive := false}
  | .reader e => s.readStep e
  | .writer e => s.writerStep e

def start : Gate := {}

abbrev Run (ok : Gate → Action → Prop) : Gate → Prop := Machine.Reach step ok start

end KanoTls.Window
