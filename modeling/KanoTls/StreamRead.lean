import KanoTls.FrameStream
import KanoTls.Machine
import Mathlib.Data.List.Perm.Basic

/-! `Stream::read` and `Stream::write` on a client stream whose target is deferred. The
stream runs one call at a time (`&mut self`); the future of a read may be dropped at any
of its awaits, a write runs to its end. Every await is a place of its own: credit, room in
the writer's channel, the answer to the opening request, the answer to this one. -/
namespace KanoTls.StreamRead
open Pending Link Machine

inductive Piece where
  | syn
  | psh (payload : Payload)
  deriving DecidableEq, Repr

def pshPieces (data : Payload) : List Piece := (chunks data.length data).map Piece.psh

/- What a call submits: the read's flush carries no data, a write always does. -/
structure Job where
  target : Option Payload
  data : Option Payload
  deriving DecidableEq, Repr

/- Behind the target an empty write adds nothing; alone it is an empty PSH frame. -/
def Job.pieces : Job → List Piece
  | ⟨some target,data⟩ => pshPieces target ++ pshPieces (data.getD [])
  | ⟨none,some []⟩ => [.psh []]
  | ⟨none,data⟩ => pshPieces (data.getD [])

/- `data_rx`, the stream's queue in `pending_data`, the FIN token and the FIN kept in
`pending_fin`. `delivered` and `returned` only remember. -/
structure Inbox where
  channel : List Payload := []
  pending : List Payload := []
  channelClosed : Bool := false
  finToken : Bool := false
  finQueued : Bool := false
  readClosed : Bool := false
  delivered : List Payload := []
  returned : List Payload := []
  deriving DecidableEq, Repr

namespace Inbox

def recv (b : Inbox) : Option Inbox :=
  match b.channel with
  | [] => none
  | payload::rest => some {b with channel := rest,returned := b.returned ++ [payload]}

def takeQueuedPendingFin (b : Inbox) (free : Bool) : Inbox :=
  if free && b.finQueued then {b with finQueued := false,readClosed := true} else b

/- The flag says that a payload was returned; both locks are only tried. -/
def tryDrainPendingData (b : Inbox) (free finFree : Bool) : Bool × Inbox :=
  if free then
    match b.pending with
    | [] => (false,b.takeQueuedPendingFin finFree)
    | payload::rest =>
      let popped := {b with pending := rest,returned := b.returned ++ [payload]}
      (true,if rest.isEmpty then popped.takeQueuedPendingFin finFree else popped)
  else (false,b)

end Inbox

inductive OpenState where
  | deferredUnsent
  | submitted (waiting : Bool)
  deriving DecidableEq, Repr

/- `sent` is what the writer's channels took for this stream, `written` the data of the
writes among it. -/
structure Outbox where
  openState : OpenState
  deferredTarget : Option Payload
  openFailed : Bool := false
  writerClosed : Bool := false
  goaway : Bool := false
  sent : List Piece := []
  written : List Payload := []
  deriving DecidableEq, Repr

def Outbox.openIsUnsent (o : Outbox) : Bool :=
  !o.openFailed && (o.deferredTarget.isSome || decide (o.openState = .deferredUnsent))

inductive Pc where
  | idle
  | top | drain | select (armed : Bool)
  | credit (job : Job) | openRoom (job : Job) | earlier (job : Job) | bulkRoom (job : Job)
  | openWait (job : Job) | bulkWait (job : Job)
  deriving DecidableEq, Repr

structure State where
  inbox : Inbox := {}
  outbox : Outbox
  pc : Pc := .idle
  deriving DecidableEq, Repr

inductive Action where
  | deliver (payload : Payload) | buffer (payload : Payload) | promote
  | fin | queueFin | hangUp | closeWriter | goaway
  | read | write (data : Payload)
  | tryRecv | tryDrain (free finFree : Bool)
  | recv | notified | finArrived | grace
  | credit | submit | answer (ok : Bool) | answered
  | drop
  deriving DecidableEq, Repr

/- The session and the peer: a payload comes into the channel or into the queue, a queued
one moves on into the channel. -/
def deliverStep (b : Inbox) : Action → Option Inbox
  | .deliver payload =>
    if b.channelClosed then none
    else some {b with channel := b.channel ++ [payload],delivered := b.delivered ++ [payload]}
  | .buffer payload => some {b with pending := b.pending ++ [payload],delivered := b.delivered ++ [payload]}
  | .promote =>
    match b.pending with
    | [] => none
    | payload::rest =>
      if b.channelClosed then none else some {b with pending := rest,channel := b.channel ++ [payload]}
  | .fin => some {b with finToken := true}
  | .queueFin => some {b with finQueued := true}
  | .hangUp => some {b with channelClosed := true}
  | _ => none

/- The loop of `Stream::read` up to the grace branch. -/
def readStep (b : Inbox) (unsent : Bool) : Pc → Action → Option (Inbox × Pc)
  | .idle,.read => some (b,.top)
  | .top,.tryRecv => some ((b.recv.map (fun left => (left,Pc.idle))).getD (b,.drain))
  | .drain,.tryDrain free finFree =>
    let tried := b.tryDrainPendingData free finFree
    some (tried.2,if tried.1 || tried.2.readClosed then .idle else .select unsent)
  | .select _,.recv =>
    match b.recv with
    | some left => some (left,.idle)
    | none => if b.channelClosed then some (b,.idle) else none
  | .select _,.notified => some (b,.top)
  | .select _,.finArrived => if b.finToken then some ({b with finToken := false,readClosed := true},.top) else none
  | _,_ => none

def flushUnsentOpen (o : Outbox) : Outbox × Pc :=
  match o.deferredTarget with
  | some target => ({o with deferredTarget := none},.credit ⟨some target,none⟩)
  | none => (o,if o.openState = .deferredUnsent then .openRoom ⟨none,none⟩ else .openWait ⟨none,none⟩)

def write (o : Outbox) (data : Payload) : Outbox × Pc :=
  if o.goaway || o.openFailed then (o,.idle)
  else ({o with deferredTarget := none},.credit ⟨o.deferredTarget,some data⟩)

def done (job : Job) : Pc := if job.data = none then .top else .idle
def failed (o : Outbox) : Outbox := {o with openFailed := true,writerClosed := true}
def submitted (o : Outbox) (job : Job) (pieces : List Piece) : Outbox :=
  {o with sent := o.sent ++ pieces,written := o.written ++ job.data.toList}

/- `write_gather_open`, `flush_pending_open_frames`, `write_early` and the plain write: the
opening frames go with the first request, everything later waits for its answer first. -/
def sendStep (o : Outbox) : Pc → Action → Option (Outbox × Pc)
  | .select true,.grace => some (flushUnsentOpen o)
  | .idle,.write data => some (write o data)
  | .credit job,.credit => some (o,if o.openState = .deferredUnsent then .openRoom job else .earlier job)
  | .openRoom job,.submit =>
    some (if o.writerClosed then (failed o,.idle)
      else ({submitted o job (.syn::job.pieces) with openState := .submitted true},.openWait job))
  | .bulkRoom job,.submit =>
    some (if o.writerClosed then (o,.idle) else (submitted o job job.pieces,.bulkWait job))
  | .openWait job,.answer ok =>
    if o.openState = .submitted true then
      some (if ok then ({o with openState := .submitted false},done job) else (failed o,.idle))
    else none
  | .openWait job,.answered => if o.openState = .submitted true then none else some (o,done job)
  | .earlier job,.answer ok =>
    if o.openState = .submitted true then
      some (if ok then ({o with openState := .submitted false},.bulkRoom job) else (failed o,.idle))
    else none
  | .earlier job,.answered => if o.openState = .submitted true then none else some (o,.bulkRoom job)
  | .bulkWait job,.answer ok => some (o,if ok then done job else .idle)
  | _,_ => none

/- The future of a read may go at an await; what it holds goes with it. -/
def droppable : Pc → Bool
  | .select _ => true
  | .credit job | .openRoom job | .earlier job | .bulkRoom job | .openWait job | .bulkWait job => decide (job.data = none)
  | _ => false

def step (s : State) (a : Action) : Option State :=
  match a with
  | .closeWriter => some {s with outbox := {s.outbox with writerClosed := true}}
  | .goaway => some {s with outbox := {s.outbox with goaway := true}}
  | .drop => if droppable s.pc then some {s with pc := .idle} else none
  | .deliver _ | .buffer _ | .promote | .fin | .queueFin | .hangUp =>
    (deliverStep s.inbox a).map (fun b => {s with inbox := b})
  | .read | .tryRecv | .tryDrain _ _ | .recv | .notified | .finArrived =>
    (readStep s.inbox s.outbox.openIsUnsent s.pc a).map (fun next => {s with inbox := next.1,pc := next.2})
  | _ => (sendStep s.outbox s.pc a).map (fun next => {s with outbox := next.1,pc := next.2})

/- A stream as `open_stream` and `defer_target` leave it: the first of a session keeps its
SYN back, every other one has submitted it. -/
def start (first : Bool) (target : Payload) : State where
  outbox :=
    {openState := if first then .deferredUnsent else .submitted true,deferredTarget := some target
     sent := if first then [] else [.syn]}

def inHand : Pc → Option Job
  | .credit job | .openRoom job | .earlier job | .bulkRoom job => some job
  | _ => none

/- The read is not dropped between `deferred_target.take()` and the submission of the
request that carries the target. -/
def KeepsTarget (s : State) (a : Action) : Prop :=
  a = .drop → (inHand s.pc).bind Job.target = none
instance (s : State) (a : Action) : Decidable (KeepsTarget s a) := inferInstanceAs (Decidable (_ → _))

/- What a dropped read must not break. Every payload delivered is with the caller or still
to be read, once. Either nothing but the SYN of `open_stream` is sent and the target is
kept, in the stream or in the running call (or the writer is closed), or the SYN, the
target and then the bytes of the writes are sent. -/
structure CancelSafe (first : Bool) (target : Payload) (s : State) : Prop where
  payloads : (s.inbox.returned ++ s.inbox.channel ++ s.inbox.pending).Perm s.inbox.delivered
  opening : (s.outbox.sent = (start first target).outbox.sent ∧ s.outbox.written = [] ∧
      (s.outbox.deferredTarget = some target ∨ (inHand s.pc).bind Job.target = some target ∨
        s.outbox.writerClosed = true)) ∨
    ∃ data : List Payload, s.outbox.sent = .syn::(pshPieces target ++ data.map Piece.psh) ∧
      data.flatten = s.outbox.written.flatten

section Payloads
variable {b left : Inbox}

def Inbox.Kept (b : Inbox) : Prop := (b.returned ++ b.channel ++ b.pending).Perm b.delivered

theorem keptRecv (kept : b.Kept) (taken : b.recv = some left) : left.Kept := by
  unfold Inbox.recv at taken
  split at taken
  · contradiction
  · rename_i payload rest front
    cases Option.some.inj taken
    unfold Inbox.Kept at kept ⊢
    rw [front] at kept
    simpa using kept

theorem keptFin (kept : b.Kept) (free : Bool) : (b.takeQueuedPendingFin free).Kept := by
  unfold Inbox.takeQueuedPendingFin
  split <;> exact kept

theorem keptDrain (kept : b.Kept) (free finFree : Bool) : (b.tryDrainPendingData free finFree).2.Kept := by
  unfold Inbox.tryDrainPendingData
  split
  · split
    · exact keptFin kept finFree
    · rename_i payload rest front
      have popped : Inbox.Kept {b with pending := rest,returned := b.returned ++ [payload]} := by
        unfold Inbox.Kept at kept ⊢
        rw [front] at kept
        refine List.Perm.trans ?_ kept
        show (b.returned ++ [payload] ++ b.channel ++ rest).Perm (b.returned ++ b.channel ++ payload::rest)
        simp only [List.append_assoc,List.cons_append,List.nil_append]
        exact List.Perm.append_left _ List.perm_middle.symm
      dsimp only
      split
      · exact keptFin popped finFree
      · exact popped
  · exact kept

theorem keptDeliver {a : Action} (kept : b.Kept) (moved : deliverStep b a = some left) : left.Kept := by
  unfold deliverStep at moved
  unfold Inbox.Kept at kept ⊢
  split at moved
  · rename_i payload
    split at moved
    · contradiction
    · cases Option.some.inj moved
      show (b.returned ++ (b.channel ++ [payload]) ++ b.pending).Perm (b.delivered ++ [payload])
      refine List.Perm.trans ?_ (kept.append_right [payload])
      simp only [List.append_assoc,List.cons_append,List.nil_append]
      refine List.Perm.append_left _ (List.Perm.append_left _ ?_)
      exact (List.perm_append_singleton payload b.pending).symm
  · cases Option.some.inj moved
    rw [← List.append_assoc]
    exact kept.append_right _
  · split at moved
    · contradiction
    · rename_i payload rest front
      split at moved
      · contradiction
      · cases Option.some.inj moved
        rw [front] at kept
        simpa using kept
  · cases Option.some.inj moved
    exact kept
  · cases Option.some.inj moved
    exact kept
  · cases Option.some.inj moved
    exact kept
  · contradiction

theorem keptRead {a : Action} {unsent : Bool} {pc : Pc} {next : Inbox × Pc} (kept : b.Kept)
    (moved : readStep b unsent pc a = some next) : next.1.Kept := by
  unfold readStep at moved
  split at moved
  · cases Option.some.inj moved
    exact kept
  · cases Option.some.inj moved
    cases taken : b.recv with
    | none => exact kept
    | some left => exact keptRecv kept taken
  · cases Option.some.inj moved
    exact keptDrain kept _ _
  · split at moved
    · rename_i left taken
      cases Option.some.inj moved
      exact keptRecv kept taken
    · split at moved
      · cases Option.some.inj moved
        exact kept
      · contradiction
  · cases Option.some.inj moved
    exact kept
  · split at moved
    · cases Option.some.inj moved
      exact kept
    · contradiction
  · contradiction

end Payloads

section Opening
variable {first : Bool} {target : Payload} {o : Outbox} {pc : Pc} {a : Action}

def reading : Pc → Bool
  | .idle | .top | .drain | .select _ => true
  | _ => false

/- Four stages: the target in the stream, in the running call, on its way to the peer
together with the SYN, or the writer is closed before that. -/
def Unsent (first : Bool) (target : Payload) (o : Outbox) : Prop :=
  o.sent = (start first target).outbox.sent ∧ o.written = [] ∧ (o.openState = .deferredUnsent ↔ first = true)

def Held (first : Bool) (target : Payload) (o : Outbox) (pc : Pc) : Prop :=
  Unsent first target o ∧ o.deferredTarget = some target ∧ reading pc = true

def RoomFits (o : Outbox) : Pc → Prop
  | .openRoom _ => o.openState = .deferredUnsent
  | .earlier _ | .bulkRoom _ => o.openState ≠ .deferredUnsent
  | _ => True

def Taken (first : Bool) (target : Payload) (o : Outbox) (pc : Pc) : Prop :=
  Unsent first target o ∧ o.deferredTarget = none ∧ (inHand pc).bind Job.target = some target ∧ RoomFits o pc

def Sent (target : Payload) (o : Outbox) (pc : Pc) : Prop :=
  (∃ data : List Payload, o.sent = .syn::(pshPieces target ++ data.map Piece.psh) ∧ data.flatten = o.written.flatten) ∧
  o.deferredTarget = none ∧ o.openState ≠ .deferredUnsent ∧ (inHand pc).bind Job.target = none ∧ RoomFits o pc

def Closed (first : Bool) (target : Payload) (o : Outbox) : Prop :=
  o.sent = (start first target).outbox.sent ∧ o.written = [] ∧ o.writerClosed = true

def Opening (first : Bool) (target : Payload) (o : Outbox) (pc : Pc) : Prop :=
  Held first target o pc ∨ Taken first target o pc ∨ Sent target o pc ∨ Closed first target o

theorem pshParts (data : Payload) : ∃ parts : List Payload, pshPieces data = parts.map Piece.psh ∧ parts.flatten = data :=
  ⟨chunks data.length data,rfl,Wire.chunksFlatten _ _ (Nat.le_refl _)⟩

theorem jobPieces (job : Job) : ∃ data : List Payload,
    job.pieces = (job.target.map pshPieces).getD [] ++ data.map Piece.psh ∧ data.flatten = job.data.toList.flatten := by
  obtain ⟨parts,same,whole⟩ := pshParts (job.data.getD [])
  have flat : job.data.getD [] = job.data.toList.flatten := by
    cases job.data with
    | none => rfl
    | some data => simp
  unfold Job.pieces
  split
  · exact ⟨parts,by rw [← same]; rfl,whole.trans flat⟩
  · exact ⟨[[]],rfl,rfl⟩
  · exact ⟨parts,by rw [← same]; rfl,whole.trans flat⟩

theorem sentFirst {job : Job} (unsent : Unsent first target o) (carried : job.target = some target)
    {next : Outbox} (sent : next.sent = (if first then [] else [Piece.syn]) ++ (if first then [Piece.syn] else []) ++ job.pieces)
    (written : next.written = o.written ++ job.data.toList) :
    ∃ data : List Payload, next.sent = .syn::(pshPieces target ++ data.map Piece.psh) ∧
      data.flatten = next.written.flatten := by
  obtain ⟨data,pieces,flat⟩ := jobPieces job
  rw [carried] at pieces
  refine ⟨data,?_,?_⟩
  · rw [sent,pieces]
    cases first <;> rfl
  · rw [written,unsent.2.1,List.nil_append,flat]

theorem sentMore {job : Job} {data : List Payload} (sent : o.sent = .syn::(pshPieces target ++ data.map Piece.psh))
    (flat : data.flatten = o.written.flatten) (bare : job.target = none) :
    ∃ data : List Payload, (submitted o job job.pieces).sent = .syn::(pshPieces target ++ data.map Piece.psh) ∧
      data.flatten = (submitted o job job.pieces).written.flatten := by
  obtain ⟨more,pieces,moreFlat⟩ := jobPieces job
  rw [bare] at pieces
  refine ⟨data ++ more,?_,?_⟩
  · show o.sent ++ job.pieces = _
    rw [sent,pieces]
    simp
  · show _ = (o.written ++ job.data.toList).flatten
    rw [List.flatten_append,List.flatten_append,flat,moreFlat]

theorem heldSend {next : Outbox × Pc} (held : Held first target o pc) (moved : sendStep o pc a = some next) :
    Opening first target next.1 next.2 := by
  obtain ⟨unsent,kept,place⟩ := held
  unfold sendStep at moved
  split at moved
  · cases Option.some.inj moved
    refine Or.inr (Or.inl ?_)
    simp only [flushUnsentOpen,kept]
    exact ⟨unsent,rfl,rfl,trivial⟩
  · rename_i data
    cases Option.some.inj moved
    unfold write
    split
    · exact Or.inl ⟨unsent,kept,rfl⟩
    · refine Or.inr (Or.inl ⟨unsent,rfl,?_,trivial⟩)
      simpa [inHand] using kept
  all_goals contradiction

theorem closedSend {next : Outbox × Pc} (closed : Closed first target o) (moved : sendStep o pc a = some next) :
    Closed first target next.1 := by
  have writer := closed.2.2
  unfold sendStep at moved
  split at moved
  · cases Option.some.inj moved
    unfold flushUnsentOpen
    split <;> exact closed
  · cases Option.some.inj moved
    unfold write
    split <;> exact closed
  · cases Option.some.inj moved
    exact closed
  · cases Option.some.inj moved
    rw [if_pos writer]
    exact ⟨closed.1,closed.2.1,rfl⟩
  · cases Option.some.inj moved
    rw [if_pos writer]
    exact closed
  · split at moved <;> try contradiction
    cases Option.some.inj moved
    split
    · exact closed
    · exact ⟨closed.1,closed.2.1,rfl⟩
  · split at moved <;> try contradiction
    cases Option.some.inj moved
    exact closed
  · split at moved <;> try contradiction
    cases Option.some.inj moved
    split
    · exact closed
    · exact ⟨closed.1,closed.2.1,rfl⟩
  · split at moved <;> try contradiction
    cases Option.some.inj moved
    exact closed
  · cases Option.some.inj moved
    exact closed
  · contradiction

theorem failedClosed (unsent : Unsent first target o) : Closed first target (failed o) := ⟨unsent.1,unsent.2.1,rfl⟩

theorem takenSend {next : Outbox × Pc} (taken : Taken first target o pc) (moved : sendStep o pc a = some next) :
    Opening first target next.1 next.2 := by
  obtain ⟨unsent,given,carried,fits⟩ := taken
  obtain ⟨sent,written,state⟩ := unsent
  unfold sendStep at moved
  split at moved
  · contradiction
  · contradiction
  · rename_i job
    cases Option.some.inj moved
    refine Or.inr (Or.inl ⟨⟨sent,written,state⟩,given,?_⟩)
    dsimp only
    split
    · rename_i unsubmitted
      exact ⟨carried,unsubmitted⟩
    · rename_i gone
      exact ⟨carried,gone⟩
  · rename_i job
    cases Option.some.inj moved
    split
    · exact Or.inr (Or.inr (Or.inr (failedClosed ⟨sent,written,state⟩)))
    · have opened : first = true := state.mp fits
      refine Or.inr (Or.inr (Or.inl ⟨sentFirst ⟨sent,written,state⟩ carried ?_ rfl,?_⟩))
      · show o.sent ++ .syn::job.pieces = _
        rw [sent,opened]
        rfl
      · exact ⟨given,by simp,rfl,trivial⟩
  · rename_i job
    cases Option.some.inj moved
    split
    · rename_i writer
      exact Or.inr (Or.inr (Or.inr ⟨sent,written,writer⟩))
    · have later : first = false := by
        cases first with
        | true => exact absurd (state.mpr rfl) fits
        | false => rfl
      refine Or.inr (Or.inr (Or.inl ⟨sentFirst ⟨sent,written,state⟩ carried ?_ rfl,?_⟩))
      · show o.sent ++ job.pieces = _
        rw [sent,later]
        rfl
      · exact ⟨given,fits,rfl,trivial⟩
  · contradiction
  · contradiction
  · split at moved <;> try contradiction
    rename_i job ok waiting
    cases Option.some.inj moved
    split
    · refine Or.inr (Or.inl ⟨⟨sent,written,?_⟩,given,carried,?_⟩)
      · rw [waiting] at state
        simpa using state
      · simp [RoomFits]
    · exact Or.inr (Or.inr (Or.inr (failedClosed ⟨sent,written,state⟩)))
  · split at moved <;> try contradiction
    cases Option.some.inj moved
    exact Or.inr (Or.inl ⟨⟨sent,written,state⟩,given,carried,fits⟩)
  · contradiction
  · contradiction

theorem doneBare (job : Job) : (inHand (done job)).bind Job.target = none ∧ RoomFits o (done job) := by
  unfold done
  split <;> exact ⟨rfl,trivial⟩

theorem sentSend {next : Outbox × Pc} (sent : Sent target o pc) (moved : sendStep o pc a = some next) :
    Sent target next.1 next.2 := by
  obtain ⟨pieces,given,state,bare,fits⟩ := sent
  unfold sendStep at moved
  split at moved
  · cases Option.some.inj moved
    simp only [flushUnsentOpen,given,if_neg state]
    exact ⟨pieces,given,state,rfl,trivial⟩
  · cases Option.some.inj moved
    unfold write
    split
    · exact ⟨pieces,given,state,rfl,trivial⟩
    · refine ⟨pieces,rfl,state,?_,trivial⟩
      simpa [inHand] using given
  · cases Option.some.inj moved
    rw [if_neg state]
    exact ⟨pieces,given,state,bare,state⟩
  · exact absurd fits state
  · rename_i job
    cases Option.some.inj moved
    split
    · exact ⟨pieces,given,state,rfl,trivial⟩
    · obtain ⟨data,sent,flat⟩ := pieces
      exact ⟨sentMore sent flat bare,given,state,rfl,trivial⟩
  · rename_i job ok
    split at moved <;> try contradiction
    cases Option.some.inj moved
    split
    · exact ⟨pieces,given,by simp,doneBare job⟩
    · exact ⟨pieces,given,state,rfl,trivial⟩
  · rename_i job
    split at moved <;> try contradiction
    cases Option.some.inj moved
    exact ⟨pieces,given,state,doneBare job⟩
  · split at moved <;> try contradiction
    cases Option.some.inj moved
    split
    · exact ⟨pieces,given,by simp,bare,by simp [RoomFits]⟩
    · exact ⟨pieces,given,state,rfl,trivial⟩
  · split at moved <;> try contradiction
    cases Option.some.inj moved
    exact ⟨pieces,given,state,bare,fits⟩
  · rename_i job ok
    cases Option.some.inj moved
    refine ⟨pieces,given,state,?_⟩
    dsimp only
    split
    · exact doneBare job
    · exact ⟨rfl,trivial⟩
  · contradiction

theorem openingSend {next : Outbox × Pc} (opening : Opening first target o pc) (moved : sendStep o pc a = some next) :
    Opening first target next.1 next.2 := by
  obtain held | taken | sent | closed := opening
  · exact heldSend held moved
  · exact takenSend taken moved
  · exact Or.inr (Or.inr (Or.inl (sentSend sent moved)))
  · exact Or.inr (Or.inr (Or.inr (closedSend closed moved)))

theorem readPlace {b : Inbox} {unsent : Bool} {next : Inbox × Pc} (moved : readStep b unsent pc a = some next) :
    reading pc = true ∧ reading next.2 = true := by
  unfold readStep at moved
  split at moved
  · cases Option.some.inj moved
    exact ⟨rfl,rfl⟩
  · cases Option.some.inj moved
    cases b.recv <;> exact ⟨rfl,rfl⟩
  · cases Option.some.inj moved
    refine ⟨rfl,?_⟩
    dsimp only
    split <;> rfl
  · split at moved
    · cases Option.some.inj moved
      exact ⟨rfl,rfl⟩
    · split at moved <;> try contradiction
      cases Option.some.inj moved
      exact ⟨rfl,rfl⟩
  · cases Option.some.inj moved
    exact ⟨rfl,rfl⟩
  · split at moved <;> try contradiction
    cases Option.some.inj moved
    exact ⟨rfl,rfl⟩
  · contradiction

theorem readingBare (place : reading pc = true) : inHand pc = none ∧ RoomFits o pc := by
  cases pc <;> first | exact ⟨rfl,trivial⟩ | contradiction

theorem openingMoves {next : Pc} (opening : Opening first target o pc) (bare : (inHand pc).bind Job.target = none)
    (place : reading next = true) : Opening first target o next := by
  obtain ⟨unsent,kept,-⟩ | ⟨-,-,carried,-⟩ | ⟨pieces,given,state,-,-⟩ | closed := opening
  · exact Or.inl ⟨unsent,kept,place⟩
  · exact absurd (bare.symm.trans carried) (by simp)
  · refine Or.inr (Or.inr (Or.inl ⟨pieces,given,state,?_,(readingBare place).2⟩))
    rw [(@readingBare o next place).1]
    rfl
  · exact Or.inr (Or.inr (Or.inr closed))

theorem openingSignal {closed goaway : Bool} (opening : Opening first target o pc)
    (stays : o.writerClosed = true → closed = true) :
    Opening first target {o with writerClosed := closed,goaway := goaway} pc := by
  obtain held | ⟨unsent,given,carried,fits⟩ | ⟨pieces,given,state,bare,fits⟩ | ⟨sent,written,writer⟩ := opening
  · exact Or.inl held
  · refine Or.inr (Or.inl ⟨unsent,given,carried,?_⟩)
    cases pc <;> exact fits
  · refine Or.inr (Or.inr (Or.inl ⟨pieces,given,state,bare,?_⟩))
    cases pc <;> exact fits
  · exact Or.inr (Or.inr (Or.inr ⟨sent,written,stays writer⟩))

end Opening

section Run
variable {first : Bool} {target : Payload} {s t : State} {a : Action}

def Inv (first : Bool) (target : Payload) (s : State) : Prop :=
  s.inbox.Kept ∧ Opening first target s.outbox s.pc

theorem invStart : Inv first target (start first target) := by
  refine ⟨List.Perm.refl _,Or.inl ⟨⟨rfl,rfl,?_⟩,rfl,rfl⟩⟩
  cases first <;> simp [start]

theorem invStep (inv : Inv first target s) (keeps : KeepsTarget s a) (moved : step s a = some t) : Inv first target t := by
  obtain ⟨kept,opening⟩ := inv
  unfold step at moved
  split at moved
  · cases Option.some.inj moved
    exact ⟨kept,openingSignal opening (fun _ => rfl)⟩
  · cases Option.some.inj moved
    exact ⟨kept,openingSignal opening id⟩
  · split at moved <;> try contradiction
    cases Option.some.inj moved
    exact ⟨kept,openingMoves opening (keeps rfl) rfl⟩
  iterate 6
    · obtain ⟨b,delivered,rfl⟩ := Option.map_eq_some_iff.mp moved
      exact ⟨keptDeliver kept delivered,opening⟩
  iterate 6
    · obtain ⟨next,read,rfl⟩ := Option.map_eq_some_iff.mp moved
      obtain ⟨before,after⟩ := readPlace read
      refine ⟨keptRead kept read,openingMoves opening ?_ after⟩
      rw [(@readingBare s.outbox s.pc before).1]
      rfl
  · obtain ⟨next,sent,rfl⟩ := Option.map_eq_some_iff.mp moved
    exact ⟨kept,openingSend opening sent⟩

theorem invSafe (inv : Inv first target s) : CancelSafe first target s := by
  obtain ⟨kept,held | taken | sent | closed⟩ := inv
  · exact ⟨kept,Or.inl ⟨held.1.1,held.1.2.1,Or.inl held.2.1⟩⟩
  · exact ⟨kept,Or.inl ⟨taken.1.1,taken.1.2.1,Or.inr (Or.inl taken.2.2.1)⟩⟩
  · exact ⟨kept,Or.inr sent.1⟩
  · exact ⟨kept,Or.inl ⟨closed.1,closed.2.1,Or.inr (Or.inr closed.2.2)⟩⟩

theorem reachInv (reach : Reach step KeepsTarget (start first target) s) : Inv first target s :=
  @reachInvariant _ _ _ _ _ (Inv first target) invStart (fun inv keeps moved => invStep inv keeps moved) _ reach

theorem targetPiece (some' : target ≠ []) (fits : target.length ≤ maxPayloadLen) : pshPieces target = [.psh target] := by
  obtain ⟨b,rest,rfl⟩ := List.exists_cons_of_ne_nil some'
  unfold pshPieces
  rw [List.length_cons,chunks,List.take_of_length_le fits,List.drop_of_length_le fits]
  · cases rest.length <;> rfl
  · exact fun none => List.cons_ne_nil _ _ none

theorem writeSends (inv : Inv first target s) (rest : s.pc = .idle) (kept : s.outbox.deferredTarget = some target)
    (quiet : s.outbox.goaway = false) (sound : s.outbox.openFailed = false) (writer : s.outbox.writerClosed = false)
    (data : Payload) : ∃ labels t, checked step KeepsTarget s labels = some t ∧
      t.outbox.sent = .syn::(pshPieces target ++ pshPieces data) := by
  obtain ⟨b,⟨openState,deferredTarget,openFailed,writerClosed,goaway,sent,written⟩,pc⟩ := s
  simp only at rest kept quiet sound writer
  subst rest kept quiet sound writer
  obtain ⟨-,⟨⟨front,-,state⟩,-,-⟩ | ⟨-,given,-,-⟩ | ⟨-,given,-,-⟩ | ⟨-,-,closed⟩⟩ := inv
  · simp only at front state
    subst front
    cases openState with
    | deferredUnsent =>
      have opened : first = true := state.mp rfl
      subst opened
      exact ⟨[.write data,.credit,.submit],_,rfl,rfl⟩
    | submitted waiting =>
      have later : first = false := by simpa using state
      subst later
      cases waiting with
      | true => exact ⟨[.write data,.credit,.answer true,.submit],_,rfl,rfl⟩
      | false => exact ⟨[.write data,.credit,.answered,.submit],_,rfl,rfl⟩
  · exact absurd given (by simp)
  · exact absurd given (by simp)
  · exact absurd closed (by simp)

theorem readCancelSafe (reach : Reach step KeepsTarget (start first target) s) :
    CancelSafe first target s ∧
    (target ≠ [] → target.length ≤ maxPayloadLen → pshPieces target = [.psh target]) ∧
    (s.pc = .idle → s.outbox.deferredTarget = some target → s.outbox.goaway = false →
      s.outbox.openFailed = false → s.outbox.writerClosed = false → ∀ data : Payload,
      ∃ labels t, checked step KeepsTarget s labels = some t ∧
        t.outbox.sent = .syn::(pshPieces target ++ pshPieces data)) := by
  have inv := reachInv reach
  refine ⟨invSafe inv,fun some' fits => targetPiece some' fits,?_⟩
  intro rest kept quiet sound writer data
  exact writeSends inv rest kept quiet sound writer data

/- A second stream whose read is dropped while the flush waits for the answer to its
request: the write behind it follows the target. -/
def droppedLate : List Action :=
  [.deliver [7],.read,.tryRecv,.read,.tryRecv,.tryDrain true true,.grace,.credit,.answer true,.submit,.drop,
   .write [9],.credit,.answered,.submit,.answer true]

theorem readCancelSafeLate : ∃ s, Reach step KeepsTarget (start false [1,2]) s ∧ CancelSafe false [1,2] s ∧
    s.inbox.returned = [[7]] ∧ s.outbox.sent = [.syn,.psh [1,2],.psh [9]] := by
  obtain ⟨s,reach,here⟩ := @checkedReaches _ _ step KeepsTarget _ (start false [1,2]) droppedLate
    (fun s => decide (s.inbox.returned = [[7]] ∧ s.outbox.sent = [.syn,.psh [1,2],.psh [9]])) (by decide +kernel)
  exact ⟨s,reach,(readCancelSafe reach).1,of_decide_eq_true here⟩

/- The same stream with its read dropped while the flush waits for credit: the write goes
out as the first PSH payload and the target is gone. -/
def droppedEarly : List Action :=
  [.read,.tryRecv,.tryDrain true true,.grace,.drop,.write [9],.credit,.answer true,.submit,.answer true]

theorem droppedTargetLost : ∃ s, Reach step Always (start false [1,2]) s ∧ s.outbox.sent = [.syn,.psh [9]] ∧
    s.outbox.writerClosed = false ∧ ¬ CancelSafe false [1,2] s := by
  obtain ⟨s,reach,here⟩ := @checkedReaches _ _ step Always _ (start false [1,2]) droppedEarly
    (fun s => decide (s.outbox.sent = [.syn,.psh [9]] ∧ s.outbox.writerClosed = false)) (by decide +kernel)
  obtain ⟨sent,writer⟩ := of_decide_eq_true here
  refine ⟨s,reach,sent,writer,?_⟩
  intro safe
  obtain ⟨none',-⟩ | ⟨data,all,-⟩ := safe.opening
  · rw [sent] at none'
    exact absurd none' (by decide)
  · rw [sent,targetPiece (by decide) (by decide)] at all
    exact absurd (List.cons.inj (List.cons.inj all).2).1 (by decide)

end Run

end KanoTls.StreamRead
