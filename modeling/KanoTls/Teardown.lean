import KanoTls.Machine

/-! The end of one stream, on the side that opened it and on the side that accepted it:
who hands a FIN to the writer, and who takes the id out of the `streams` map. Everything
that awaits may be cancelled there. -/
namespace KanoTls.Teardown

inductive Cmd where
  | syn | fin
  deriving DecidableEq, Repr

/- What the write half goes on with when its open has been answered. -/
inductive AfterOpen where
  | write
  | closeWrite (closing : Bool)
  | synack
  deriving DecidableEq, Repr

/- Where the write half awaits. `closing`: inside `close`; `expired`: after a timeout of
`wait_synack_once`. `closeRemove` and `failRemove` wait for the `streams` lock of
`cleanup_registration`, `closeForget` and `failForget` for its other two. -/
inductive WritePc where
  | idle
  | submit (early : Bool) (next : AfterOpen)
  | opened (next : AfterOpen)
  | finSend (closing : Bool) | finWait (closing : Bool)
  | light (closing : Bool)
  | closeRemove | closeForget | closedAlready
  | synack | expireSend | expireWait
  | failRemove (expired : Bool) | failForget (expired : Bool)
  deriving DecidableEq, Repr

inductive OpenPc where
  | checked | submitting | failing | returned | gone
  deriving DecidableEq, Repr

structure WriteEndState where
  openNeverSentOrFailed : Bool
  writeClosed : Bool
  waitForPendingOpen : Bool
  deriving DecidableEq, Repr

/- The task that `half_dropped` or the guard of `open_stream` spawns. -/
inductive Cleanup where
  | waitOpen (fin : Bool) | fin | remove
  deriving DecidableEq, Repr

/- `handed` is what this side has put into the channels of its writer, less the PSHs. -/
structure Client where
  handed : List Cmd := []
  registered : Bool := false
  opening : OpenPc := .checked
  deferred : Bool
  early : Bool := false
  openFailed : Bool := false
  writeClosed : Bool := false
  closed : Bool := false
  fullyClosed : Bool := false
  synackRx : Bool := true
  readHalf : Bool := false
  writeHalf : Bool := false
  writeEnd : Option WriteEndState := none
  write : WritePc := .idle
  cleanup : Option Cleanup := none

namespace Client

def goto (s : Client) (pc : WritePc) : Client := {s with write := pc}

def hand (s : Client) (c : Cmd) : Client := {s with handed := s.handed ++ [c]}

def unregister (s : Client) : Client := {s with registered := false}

def returned (s : Client) : Client := {s with opening := .returned,readHalf := true,writeHalf := true}

/- `PendingStreamHandleGuard::drop`. Its FIN is never sent: nothing awaits between
`arm_submitted_open` and `disarm`. -/
def guardDropped (s : Client) (lockFree runtime : Bool) : Client :=
  let s := {s with opening := .gone}
  if lockFree then s.unregister else if runtime then {s with cleanup := some .remove} else s

def lightTeardown (s : Client) (closing : Bool) : Client :=
  {s with writeClosed := true,closed := true,fullyClosed := true}.goto (.light closing)

/- `close_write` past its first check. -/
def closeWriteOpen (s : Client) (closing : Bool) : Client :=
  if s.deferred || s.openFailed then s.lightTeardown closing else s.goto (.opened (.closeWrite closing))

def closeWrite (s : Client) : Client := if s.closed || s.writeClosed then s else s.closeWriteOpen false

def close (s : Client) : Client :=
  if s.closed then s.goto .closedAlready
  else if s.writeClosed then s.goto .closeRemove
  else s.closeWriteOpen true

def sendOpen (s : Client) (early : Bool) (next : AfterOpen) : Client :=
  if s.deferred then s.goto (.submit early next) else s.goto (.opened next)

/- `write`, `write_early` and the grace flush, before any byte of theirs. -/
def writeOpen (s : Client) (early : Bool) : Client :=
  if s.openFailed || s.writeClosed || s.closed then s else s.sendOpen early .write

def waitSynack (s : Client) : Client := if s.openFailed then s else s.sendOpen false .synack

def afterFin (s : Client) (closing : Bool) : Client := s.goto (if closing then .closeRemove else .idle)

/- The next step of the write half. The answer is the writer's, or that of its channel. -/
def proceed (s : Client) (ok : Bool) : Option Client :=
  match s.write with
  | .idle | .synack => none
  | .submit early next =>
    if ok then some ({s with deferred := false,early := early}.hand .syn |>.goto (.opened next))
    else some ({s with openFailed := true}.goto .idle)
  | .opened next =>
    if ok then
      match next with
      | .write => some (s.goto .idle)
      | .closeWrite closing => some (s.goto (.finSend closing))
      | .synack => some (s.goto (if s.synackRx then .synack else .idle))
    else
      let s := {s with openFailed := true}
      match next with
      | .closeWrite closing => some (s.afterFin closing)
      | _ => some (s.goto .idle)
  | .finSend closing => if ok then some (s.hand .fin |>.goto (.finWait closing)) else some (s.afterFin closing)
  | .finWait closing => some ({s with writeClosed := s.writeClosed || ok}.afterFin closing)
  | .light closing => some (s.unregister.afterFin closing)
  | .closeRemove => some (s.unregister.goto .closeForget)
  | .closeForget => some ({s with closed := true,fullyClosed := true}.goto .idle)
  | .closedAlready => some (s.unregister.goto .idle)
  | .expireSend => some (if ok then s.hand .fin |>.goto .expireWait else s.goto (.failRemove true))
  | .expireWait => some (s.goto (.failRemove true))
  | .failRemove expired => some (s.unregister.goto (.failForget expired))
  | .failForget _ => some ({s with openFailed := true}.goto .idle)

/- `StreamTeardown::half_dropped` of the last half. `sent`: `try_send_fin_frame` finds
room in the channel. -/
def lastHalfDropped (s : Client) (end' : WriteEndState) (runtime lockFree sent : Bool) : Client :=
  if end'.openNeverSentOrFailed then
    if runtime then {s with cleanup := some .remove} else if lockFree then s.unregister else s
  else
    let finQueued := !end'.writeClosed && !end'.waitForPendingOpen && sent
    let s := if finQueued then s.hand .fin else s
    let owesFin := !end'.writeClosed && !finQueued
    if runtime then
      {s with cleanup := some (if end'.waitForPendingOpen then .waitOpen owesFin else if owesFin then .fin else .remove)}
    else s

def halfDropped (s : Client) (runtime lockFree sent : Bool) : Client :=
  if s.readHalf || s.writeHalf then s
  else if s.fullyClosed then s
  else s.lastHalfDropped (s.writeEnd.getD ⟨false,false,false⟩) runtime lockFree sent

def dropWriteHalf (s : Client) : Client :=
  {s with writeHalf := false,writeEnd := some ⟨s.deferred || s.openFailed,s.writeClosed,!s.deferred && s.early⟩}

def cleanupStep (s : Client) (ok : Bool) : Option Client :=
  match s.cleanup with
  | none => none
  | some (.waitOpen fin) => some {s with cleanup := some (if fin then .fin else .remove)}
  | some .fin => some {(if ok then s.hand .fin else s) with cleanup := some .remove}
  | some .remove => some {s.unregister with cleanup := none}

end Client

inductive SynackAnswer where
  | accepted | dropped | timeout | rejected
  deriving DecidableEq, Repr

inductive ClientAction where
  | register (room : Bool) (lockFree runtime : Bool)
  | submitSyn (ok : Bool)
  | giveUp
  | openCancel (lockFree runtime : Bool)
  | writeOpen (early : Bool)
  | closeWrite | close | waitOpen
  | proceed (ok : Bool)
  | synack (answer : SynackAnswer)
  | cancel
  | dropRead (runtime lockFree sent : Bool)
  | dropWrite (runtime lockFree sent : Bool)
  | cleanup (ok : Bool)
  | kill (sent : Bool)
  | unregister
  deriving DecidableEq, Repr

namespace Client

def call (s : Client) (t : Client) : Option Client := if s.writeHalf ∧ s.write = .idle then some t else none

/- `kill` is `close_stream_fire_and_forget` of the read loop; `unregister`, its other
removals: `prune_orphaned_streams_locked`, the end of the session. -/
def step (s : Client) : ClientAction → Option Client
  | .register room lockFree runtime =>
    if s.opening = .checked then
      if room then
        let s := {s with registered := true}
        some (if s.deferred then s.returned else {s with opening := .submitting})
      else some (s.guardDropped lockFree runtime)
    else none
  | .submitSyn ok =>
    if s.opening = .submitting then some (if ok then (s.hand .syn).returned else {s with opening := .failing}) else none
  | .giveUp => if s.opening = .failing then some {s.unregister with opening := .gone} else none
  | .openCancel lockFree runtime =>
    if s.opening = .returned ∨ s.opening = .gone then none else some (s.guardDropped lockFree runtime)
  | .writeOpen early => s.call (s.writeOpen early)
  | .closeWrite => s.call s.closeWrite
  | .close => s.call s.close
  | .waitOpen => s.call s.waitSynack
  | .proceed ok => s.proceed ok
  | .synack answer =>
    if s.write = .synack then
      let s := {s with synackRx := false}
      match answer with
      | .accepted => some (s.goto .idle)
      | .dropped => some (s.goto (.failRemove false))
      | .timeout => some (s.goto .expireSend)
      | .rejected => some ({s with openFailed := true}.goto (.failRemove false))
    else none
  | .cancel => if s.write = .idle then none else some (s.goto .idle)
  | .dropRead runtime lockFree sent =>
    if s.readHalf then some ({s with readHalf := false}.halfDropped runtime lockFree sent) else none
  | .dropWrite runtime lockFree sent =>
    if s.writeHalf ∧ s.write = .idle then some (s.dropWriteHalf.halfDropped runtime lockFree sent) else none
  | .cleanup ok => s.cleanupStep ok
  | .kill sent => some (if sent then s.unregister.hand .fin else s.unregister)
  | .unregister => some s.unregister

/- `deferred`: the SETTINGS frame has not been sent yet, so the SYN waits for the first
write. -/
def start (deferred : Bool) : Client := {deferred := deferred}

def gone (s : Client) : Bool := s.opening = .gone || s.opening = .returned && !s.readHalf && !s.writeHalf

end Client

inductive ServerPc where
  | idle
  | finSend (closing : Bool) | finWait (closing : Bool)
  | finish | forget | closedAlready
  deriving DecidableEq, Repr

/- The task that the drop of an unclosed `ServerStream` spawns: `close_stream`. -/
inductive ServerCleanup where
  | finish | fin
  deriving DecidableEq, Repr

/- A stream that `accept_stream` has returned. `handleFin`: a write handle has set
`write_closed` and has not yet handed over its FIN. -/
structure Server where
  handed : List Cmd := []
  registered : Bool := true
  writeClosed : Bool := false
  closed : Bool := false
  alive : Bool := true
  pc : ServerPc := .idle
  handleFin : Bool := false
  cleanup : Option ServerCleanup := none

inductive ServerAction where
  | closeWrite | close
  | proceed (ok : Bool)
  | cancel
  | drop (runtime : Bool)
  | handleClose
  | handleSend (ok : Bool)
  | cleanup (ok : Bool)
  | kill (sent : Bool)
  | unregister
  deriving DecidableEq, Repr

namespace Server

def goto (s : Server) (pc : ServerPc) : Server := {s with pc := pc}

def hand (s : Server) (c : Cmd) : Server := {s with handed := s.handed ++ [c]}

def unregister (s : Server) : Server := {s with registered := false}

def closeWrite (s : Server) : Server := if s.closed || s.writeClosed then s else s.goto (.finSend false)

def close (s : Server) : Server :=
  if s.closed then s.goto .closedAlready
  else if s.writeClosed then s.goto .finish
  else s.goto (.finSend true)

def afterFin (s : Server) (closing : Bool) : Server := s.goto (if closing then .finish else .idle)

def proceed (s : Server) (ok : Bool) : Option Server :=
  match s.pc with
  | .idle => none
  | .finSend closing => if ok then some (s.hand .fin |>.goto (.finWait closing)) else some (s.afterFin closing)
  | .finWait closing => some ({s with writeClosed := s.writeClosed || ok}.afterFin closing)
  | .finish => some (s.unregister.goto .forget)
  | .forget => some ({s with closed := true}.goto .idle)
  | .closedAlready => some (s.unregister.goto .idle)

def call (s : Server) (t : Server) : Option Server := if s.alive ∧ s.pc = .idle then some t else none

def cleanupStep (s : Server) (ok : Bool) : Option Server :=
  match s.cleanup with
  | none => none
  | some .finish => some {s.unregister with cleanup := some .fin}
  | some .fin => some {(if ok then s.hand .fin else s) with cleanup := none}

def step (s : Server) : ServerAction → Option Server
  | .closeWrite => s.call s.closeWrite
  | .close => s.call s.close
  | .proceed ok => s.proceed ok
  | .cancel => if s.pc = .idle then none else some (s.goto .idle)
  | .drop runtime =>
    let t := {s with alive := false}
    s.call (if s.closed then t else if runtime then {t with cleanup := some .finish} else t)
  | .handleClose => some (if s.writeClosed then s else {s with writeClosed := true,handleFin := true})
  | .handleSend ok =>
    if s.handleFin then some (let t := {s with handleFin := false}; if ok then t.hand .fin else t) else none
  | .cleanup ok => s.cleanupStep ok
  | .kill sent => some (if sent then s.unregister.hand .fin else s.unregister)
  | .unregister => some s.unregister

def start : Server := {}

end Server

def fins (handed : List Cmd) : Nat := handed.count .fin

/- Once handed over, a FIN of the write half is waited for and answered with success, the
failure of a timed-out open is recorded, the light teardown is not cut short, and
`wait_open` does not time out on a stream whose write side is closed. The read loop
queues no FIN of its own. The last half, or the guard, goes inside a runtime. -/
def Client.okStep (s : Client) : ClientAction → Bool
  | .proceed ok =>
    match s.write with
    | .finWait _ => ok
    | _ => true
  | .cancel =>
    match s.write with
    | .finWait _ | .light _ | .expireWait | .failRemove true | .failForget true => false
    | _ => true
  | .synack .timeout => !s.writeClosed
  | .kill sent => !sent
  | .register false lockFree runtime | .openCancel lockFree runtime => lockFree || runtime
  | .dropRead runtime _ _ => s.writeHalf || s.fullyClosed || runtime
  | .dropWrite runtime _ _ => s.readHalf || s.fullyClosed || runtime
  | _ => true

/- As for the client; and no write handle closes the write side while the stream is
between its look at `write_closed` and its store, or after the stream was dropped
unclosed; and the stream is not dropped unclosed with its write side closed. -/
def Server.okStep (s : Server) : ServerAction → Bool
  | .proceed ok =>
    match s.pc with
    | .finWait _ => ok
    | _ => true
  | .cancel =>
    match s.pc with
    | .finWait _ => false
    | _ => true
  | .kill sent => !sent
  | .drop runtime => s.closed || !s.writeClosed && runtime
  | .handleClose =>
    match s.pc with
    | .finSend _ | .finWait _ => s.writeClosed
    | _ => s.writeClosed || s.alive || s.closed
  | _ => true

abbrev Client.Ok (s : Client) (a : ClientAction) : Prop := s.okStep a = true
abbrev Server.Ok (s : Server) (a : ServerAction) : Prop := s.okStep a = true

theorem finsHandFin (l : List Cmd) : fins (l ++ [Cmd.fin]) = fins l + 1 := by
  rw [fins,List.count_append]
  rfl

theorem finsHandSyn (l : List Cmd) : fins (l ++ [Cmd.syn]) = fins l := by
  rw [fins,List.count_append]
  rfl

end KanoTls.Teardown
