import KanoTls.PaddingFrame
import KanoTls.ReadLoop
import KanoTls.ReceivePrefix
import KanoTls.RecordStream
import KanoTls.WriterLead

/-! One direction of a tunnel: the writer of one session, the record stream under it, and the read
loop of the other session with the streams behind it. The parts are those of their own modules.
Here each takes what the one before it has given, in that order and at any later time. A run is
over when the read loop is; what its end does to the streams is left out. -/
namespace KanoTls.OneWay
open Machine Wire Writer
open Receive (Session)

/- `handle_frame` by the command of the frame, as far as the streams see it. -/
def handleFrame (f : Frame) : Option Receive.Frame :=
  if f.cmd = cmdPsh then some (.psh f.sid f.payload)
  else if f.cmd = cmdSyn then some (.syn f.sid)
  else if f.cmd = cmdFin then some (.fin f.sid)
  else if f.cmd = cmdSynack then some (.synack f.sid f.payload)
  else if f.cmd = cmdSettings then some (.settings ((List.range f.payload.length).any (fun i => (f.payload.drop i).take 4 == [102,99,61,49])))
  else if f.cmd = cmdPadding ∧ f.sid ≠ 0 ∧ (Padding.decodePaddingWindowUpdate f.payload).isSome then some (.windowUpdate f.sid)
  else none

def knownCmd (cmd : UInt8) : Bool :=
  [cmdPsh,cmdSyn,cmdFin,0x00,cmdSynack,cmdSettings,cmdPadding].contains cmd

/- `finished` counts the records of the writer that the write half has sealed, `read` the bytes
that the read loop has taken. `handled` is history. -/
structure Path where
  writer : Writer.State
  link : Record.Link := {}
  finished : Nat := 0
  loop : ReadLoop.Reader
  read : Nat := 0
  session : Session
  handled : List Frame := []

inductive Label where
  | writer (a : Writer.Action)
  | prepare (control : Bool)
  | link (a : Record.Act)
  | chunk (n : Nat)
  | loop (e : ReadLoop.Event)
  | frame (queued accepted : Bool)
  | session (a : Receive.Action)
  deriving DecidableEq

namespace Path

/- What the writer has prepared, flushed or not. -/
def records (s : Path) : List Writer.Record := s.writer.wire ++ s.writer.buffer

def prepareNext (noise : Record.Noise) (s : Path) (control : Bool) : Option Path :=
  s.records[s.finished]?.bind (fun r =>
    (Record.step noise s.link
      (bif control then .prepareControl (values r.payload) r.wireLen else .prepareData (values r.payload) r.wireLen)).map
        (fun link => {s with link := link,finished := s.finished + 1}))

def prepares : Record.Act → Bool
  | .prepareData _ _ | .prepareControl _ _ => true
  | _ => false

/- `read_tunnel_chunk`: nothing but the end of the stream is an empty chunk. -/
def chunk (s : Path) (n : Nat) : Option Bytes :=
  if n = 0 then if s.link.last = some (.ready []) ∧ s.read = s.link.returned.length then some [] else none
  else if s.read + n ≤ s.link.returned.length then some ((s.link.returned.drop s.read).take n)
  else none

def own (s : Path) : ReadLoop.Event → Bool
  | .chunk (some _) => false
  | .decode _ => (decodeBuffer s.loop.buf).1.isNone
  | _ => true

/- `handle_frame` on the next frame of the buffer. A frame that the streams do not see leaves them. -/
def handleNext (s : Path) (queued accepted : Bool) : Option Path :=
  (decodeBuffer s.loop.buf).1.bind (fun f =>
    if accepted && !knownCmd f.cmd then none
    else (ReadLoop.step s.loop (.decode accepted)).bind (fun loop =>
      (match handleFrame f with
        | some seen => Receive.step s.session (.frame seen queued)
        | none => some s.session).map (fun session =>
          {s with loop := loop,session := session,handled := s.handled ++ [f]})))

def reading (s : Path) : Bool := s.session.loop.isNone

def ended (s : Path) : Bool :=
  match s.loop.phase with
  | .ended _ => true
  | _ => false

end Path

def step (noise : Record.Noise) (s : Path) : Label → Option Path
  | .writer a => (Writer.step s.writer a).map (fun writer => {s with writer := writer})
  | .prepare control => s.prepareNext noise control
  | .link a => if Path.prepares a then none else (Record.step noise s.link a).map (fun link => {s with link := link})
  | .chunk n =>
    if s.reading then
      (s.chunk n).bind (fun bytes =>
        (ReadLoop.step s.loop (.chunk (some bytes))).map (fun loop => {s with loop := loop,read := s.read + n}))
    else none
  | .loop e =>
    if s.reading && s.own e then (ReadLoop.step s.loop e).map (fun loop => {s with loop := loop}) else none
  | .frame queued accepted => if s.reading then s.handleNext queued accepted else none
  | .session a =>
    match a with
    | .frame _ _ => none
    | a => if s.ended then none else (Receive.step s.session a).map (fun session => {s with session := session})

structure Setup where
  client : Bool
  script : List Shaper.ScriptRule
  stop : Nat
  postScriptOff : Bool
  peerOff : Bool
  maxStreams : Nat

def start (e : Setup) : Path where
  writer := Writer.start e.client e.postScriptOff e.script e.stop
  loop := ReadLoop.opened (!e.client) e.peerOff
  session := Receive.start (!e.client) e.maxStreams

def Both (okw : Writer.State → Writer.Action → Prop) (okr : Session → Receive.Action → Prop) (s : Path) : Label → Prop
  | .writer a => okw s.writer a
  | .session a => okr s.session a
  | .frame queued _ => ∀ seen ∈ (decodeBuffer s.loop.buf).1.bind handleFrame, okr s.session (.frame seen queued)
  | _ => True

instance (okw : Writer.State → Writer.Action → Prop) (okr : Session → Receive.Action → Prop) [∀ s a, Decidable (okw s a)]
    [∀ s a, Decidable (okr s a)] (s : Path) : ∀ l, Decidable (Both okw okr s l)
  | .writer a => inferInstanceAs (Decidable (okw s.writer a))
  | .session a => inferInstanceAs (Decidable (okr s.session a))
  | .frame queued _ => inferInstanceAs (Decidable (∀ seen ∈ (decodeBuffer s.loop.buf).1.bind handleFrame, okr s.session (.frame seen queued)))
  | .prepare _ | .link _ | .chunk _ | .loop _ => .isTrue trivial

inductive PathMove (noise : Record.Noise) (s : Path) : Label → Path → Prop where
  | writer {a writer} (moved : Writer.step s.writer a = some writer) : PathMove noise s (.writer a) {s with writer := writer}
  | sealed {control r a link} (next : s.records[s.finished]? = some r)
      (prepares : a = .prepareControl (values r.payload) r.wireLen ∨ a = .prepareData (values r.payload) r.wireLen)
      (moved : Record.step noise s.link a = some link) :
      PathMove noise s (.prepare control) {s with link := link,finished := s.finished + 1}
  | link {a link} (other : Path.prepares a = false) (moved : Record.step noise s.link a = some link) :
      PathMove noise s (.link a) {s with link := link}
  | chunk {n bytes loop} (got : s.chunk n = some bytes) (moved : ReadLoop.step s.loop (.chunk (some bytes)) = some loop) :
      PathMove noise s (.chunk n) {s with loop := loop,read := s.read + n}
  | loop {e loop} (own : s.own e = true) (moved : ReadLoop.step s.loop e = some loop) :
      PathMove noise s (.loop e) {s with loop := loop}
  | frame {queued accepted f loop session} (idle : s.reading = true) (found : (decodeBuffer s.loop.buf).1 = some f)
      (moved : ReadLoop.step s.loop (.decode accepted) = some loop)
      (sees : (∃ seen, handleFrame f = some seen ∧ Receive.step s.session (.frame seen queued) = some session) ∨
        handleFrame f = none ∧ session = s.session) :
      PathMove noise s (.frame queued accepted) {s with loop := loop,session := session,handled := s.handled ++ [f]}
  | session {a session} (plain : ∀ f queued, a ≠ .frame f queued) (moved : Receive.step s.session a = some session) :
      PathMove noise s (.session a) {s with session := session}

section Step
variable {noise : Record.Noise} {s t : Path} {l : Label}

theorem handlesNext {queued accepted : Bool} (idle : s.reading = true) (moved : s.handleNext queued accepted = some t) :
    PathMove noise s (.frame queued accepted) t := by
  obtain ⟨f,found,moved⟩ := Option.bind_eq_some_iff.mp moved
  obtain ⟨_,moved⟩ := Option.ite_none_left_eq_some.mp moved
  obtain ⟨loop,turned,moved⟩ := Option.bind_eq_some_iff.mp moved
  obtain ⟨session,stepped,rfl⟩ := Option.map_eq_some_iff.mp moved
  refine .frame idle found turned ?_
  cases seen : handleFrame f with
  | none =>
    rw [seen] at stepped
    exact .inr ⟨rfl,(Option.some.inj stepped).symm⟩
  | some event =>
    rw [seen] at stepped
    exact .inl ⟨event,rfl,stepped⟩

theorem pathMoves (moved : step noise s l = some t) : PathMove noise s l t := by
  cases l with
  | writer a =>
    obtain ⟨writer,stepped,rfl⟩ := Option.map_eq_some_iff.mp moved
    exact .writer stepped
  | prepare control =>
    obtain ⟨r,next,moved⟩ := Option.bind_eq_some_iff.mp moved
    obtain ⟨link,stepped,rfl⟩ := Option.map_eq_some_iff.mp moved
    cases control with
    | true => exact .sealed next (.inl rfl) stepped
    | false => exact .sealed next (.inr rfl) stepped
  | link a =>
    obtain ⟨other,moved⟩ := Option.ite_none_left_eq_some.mp moved
    obtain ⟨link,stepped,rfl⟩ := Option.map_eq_some_iff.mp moved
    exact .link (Bool.eq_false_iff.mpr other) stepped
  | chunk n =>
    obtain ⟨_,moved⟩ := Option.ite_none_right_eq_some.mp moved
    obtain ⟨bytes,got,moved⟩ := Option.bind_eq_some_iff.mp moved
    obtain ⟨loop,stepped,rfl⟩ := Option.map_eq_some_iff.mp moved
    exact .chunk got stepped
  | loop e =>
    obtain ⟨own,moved⟩ := Option.ite_none_right_eq_some.mp moved
    obtain ⟨loop,stepped,rfl⟩ := Option.map_eq_some_iff.mp moved
    exact .loop (Bool.and_eq_true_iff.mp own).2 stepped
  | frame queued accepted =>
    obtain ⟨idle,moved⟩ := Option.ite_none_right_eq_some.mp moved
    exact handlesNext idle moved
  | session a =>
    unfold step at moved
    dsimp only at moved
    split at moved <;> try contradiction
    rename_i other
    obtain ⟨_,moved⟩ := Option.ite_none_left_eq_some.mp moved
    obtain ⟨session,stepped,rfl⟩ := Option.map_eq_some_iff.mp moved
    exact .session other stepped

end Step

section Parts
variable {noise : Record.Noise} {okw : Writer.State → Writer.Action → Prop} {okr : Session → Receive.Action → Prop} {e : Setup}
  {s : Path}

abbrev Run (noise : Record.Noise) (okw : Writer.State → Writer.Action → Prop) (okr : Session → Receive.Action → Prop) (e : Setup) :
    Path → Prop := Reach (step noise) (Both okw okr) (start e)

structure Parts (noise : Record.Noise) (okw : Writer.State → Writer.Action → Prop) (okr : Session → Receive.Action → Prop) (e : Setup)
    (s : Path) : Prop where
  writer : Writer.Run okw e.client e.postScriptOff e.script e.stop s.writer
  link : Reach (Record.step noise) Always {} s.link
  session : Receive.Run okr (!e.client) e.maxStreams s.session

theorem parts (run : Run noise okw okr e s) : Parts noise okw okr e s := by
  refine reachInvariant (I := Parts noise okw okr e) ⟨.start,.start,.start⟩ ?_ run
  intro s l t parts meets moved
  cases pathMoves moved with
  | writer stepped => exact ⟨.next parts.writer meets stepped,parts.link,parts.session⟩
  | sealed _ _ stepped => exact ⟨parts.writer,.next parts.link trivial stepped,parts.session⟩
  | link _ stepped => exact ⟨parts.writer,.next parts.link trivial stepped,parts.session⟩
  | chunk _ _ => exact ⟨parts.writer,parts.link,parts.session⟩
  | loop _ _ => exact ⟨parts.writer,parts.link,parts.session⟩
  | frame _ found _ sees =>
    obtain ⟨seen,is,stepped⟩ | ⟨_,rfl⟩ := sees
    · refine ⟨parts.writer,parts.link,.next parts.session (meets seen ?_) stepped⟩
      rw [found,Option.bind_some,is]
      rfl
    · exact ⟨parts.writer,parts.link,parts.session⟩
  | session _ stepped => exact ⟨parts.writer,parts.link,.next parts.session meets stepped⟩

end Parts

end KanoTls.OneWay
