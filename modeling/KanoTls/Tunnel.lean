import KanoTls.OneWayStream

/-! The two directions of a tunnel. What an end asks its writer to send is of streams that are open
in its own session, and the SYN of a stream comes before all else. -/
namespace KanoTls.Tunnel
open Machine Wire Writer OneWay
open Receive (Session)

/- `true` is the direction of what the client sends. -/
abbrev State := Bool → Path

def endSession (s : State) (p : Bool) : Session := (s (!p)).session

def opensFirst : List Frame → Bool
  | [] => true
  | f::rest => f.cmd == cmdSyn && rest.all (fun g => g.cmd != cmdSyn)

def submitted (s : State) (p : Bool) : List Frame := framesOf (s p).writer.sent

/- A server answers a SYN, so it may have a SYNACK for a stream that it refuses. -/
def asks (s : State) (p : Bool) (frames : List Frame) : Bool :=
  bif p then frames.all (fun f => !tracked f.cmd ||
    ((endSession s p).stream f.sid).opened && opensFirst (ofStream f.sid (submitted s p ++ frames)))
  else frames.all (fun f => f.cmd != cmdPsh || ((endSession s p).stream f.sid).opened)

def allowed (s : State) (p : Bool) : OneWay.Label → Bool
  | .writer (.send _ _ packets) => asks s p packets.flatten
  | _ => true

def step (noise : Bool → Record.Noise) (s : State) (label : Bool × OneWay.Label) : Option State :=
  if allowed s label.1 label.2 then
    (OneWay.step (noise label.1) (s label.1) label.2).map (fun path => Function.update s label.1 path)
  else none

def start (e : Bool → Setup) : State := fun p => OneWay.start {e p with client := p}

abbrev Run (noise : Bool → Record.Noise) (okw : Writer.State → Writer.Action → Prop) (okr : Session → Receive.Action → Prop)
    (e : Bool → Setup) : State → Prop :=
  Reach (step noise) (fun s label => Both okw okr (s label.1) label.2) (start e)

section Order
variable {sid : Nat} {front back : List Frame} {f : Frame}

theorem opensAlone (opens : opensFirst back = true) (inside : front ++ [f] <+: back) (syn : f.cmd = cmdSyn) : front = [] := by
  cases front with
  | nil => rfl
  | cons g rest =>
    obtain ⟨tail,rfl⟩ := inside
    simp only [List.cons_append,opensFirst,Bool.and_eq_true,List.all_append,List.all_cons] at opens
    exact absurd syn (by simpa using opens.2.1.2.1)

theorem ofStreamMem {frames : List Frame} : f ∈ ofStream sid frames ↔ f ∈ frames ∧ f.sid = sid ∧ tracked f.cmd = true := by
  rw [ofStream,List.mem_filter,Bool.and_eq_true,beq_iff_eq]

theorem pushedMem {frames : List Frame} (pushed : pushes sid frames ≠ []) : ∃ f ∈ frames, f.cmd = cmdPsh ∧ f.sid = sid := by
  obtain ⟨payload,member⟩ := List.exists_mem_of_ne_nil _ pushed
  obtain ⟨f,inside,_⟩ := List.mem_map.mp member
  obtain ⟨member,both⟩ := List.mem_filter.mp inside
  rw [Bool.and_eq_true,beq_iff_eq,beq_iff_eq] at both
  exact ⟨f,member,both⟩

end Order

section Paths
variable {noise : Bool → Record.Noise} {okw : Writer.State → Writer.Action → Prop} {okr : Session → Receive.Action → Prop}
  {e : Bool → Setup} {s t : State} {p q : Bool} {l : OneWay.Label} {sid : Nat}

theorem stepped (moved : step noise s (p,l) = some t) : allowed s p l = true ∧
    ∃ path, OneWay.step (noise p) (s p) l = some path ∧ t = Function.update s p path := by
  obtain ⟨may,moved⟩ := Option.ite_none_right_eq_some.mp moved
  obtain ⟨path,turned,same⟩ := Option.map_eq_some_iff.mp moved
  exact ⟨may,path,turned,same.symm⟩

theorem pathRun (run : Run noise okw okr e s) (p : Bool) : OneWay.Run (noise p) okw okr {e p with client := p} (s p) := by
  refine reachInvariant (I := fun s => OneWay.Run (noise p) okw okr {e p with client := p} (s p)) .start ?_ run
  rintro s ⟨q,l⟩ t before meets moved
  obtain ⟨_,path,turned,rfl⟩ := stepped moved
  by_cases same : p = q
  · subst same
    rw [Function.update_self]
    exact .next before meets turned
  · rw [Function.update_of_ne same]
    exact before

end Paths

section Submissions
open Writer.State
variable {s t : Writer.State} {a : Writer.Action}

theorem failDrainSent (s : Writer.State) (d : Drain) : (s.failDrain d).sent = s.sent := by
  unfold failDrain
  split <;> rfl

theorem sentSame (other : ∀ control auto packets, a ≠ .send control auto packets) (moved : Writer.step s a = some t) :
    t.sent = s.sent := by
  cases a with
  | send control auto packets => exact absurd rfl (other control auto packets)
  | packet draws fault =>
    simp only [Writer.step,packetStep] at moved
    split at moved <;> try contradiction
    all_goals
      obtain ⟨records,_,rfl⟩ := Option.map_eq_some_iff.mp moved
      cases fault <;> simp [prepared,failDrainSent]
  | flush ok =>
    simp only [Writer.step,flushStep] at moved
    repeat' split at moved
    all_goals first | contradiction | cases Option.some.inj moved
    all_goals cases ok <;> simp [flushed,failed,failDrainSent]
  | goaway last ok =>
    simp only [Writer.step,goawayStep] at moved
    repeat' split at moved
    all_goals first | contradiction | cases Option.some.inj moved
    all_goals cases ok <;> simp [prepared]
  | _ =>
    simp only [Writer.step,controlStep,bulkStep,recordStep,finishStep,arriveStep] at moved
    repeat' split at moved
    all_goals first | contradiction | cases Option.some.inj moved
    all_goals simp [startDrain,flushed,failed,prepared,State.refuse,failDrainSent,(queuedOne _ _).sent,(drained _).sent]

theorem sentMore {control auto : Bool} {packets : List (List Frame)} (moved : Writer.step s (.send control auto packets) = some t) :
    framesOf t.sent = framesOf s.sent ++ packets.flatten := by
  obtain ⟨_,moved⟩ := Option.ite_none_left_eq_some.mp moved
  cases Option.some.inj moved
  rw [framesAppend]
  simp [framesOf,Request.frames,newRequest,List.flatMap_map,List.flatMap_id']

end Submissions

section Lawful
variable {noise : Bool → Record.Noise} {okr : Session → Receive.Action → Prop} {e : Bool → Setup} {s t : State} {p : Bool}
  {l : OneWay.Label}

theorem submits {path : Path} (moved : OneWay.step (noise p) (s p) l = some path) :
    framesOf path.writer.sent = submitted s p ∨ ∃ control auto packets, l = .writer (.send control auto packets) ∧
      framesOf path.writer.sent = submitted s p ++ packets.flatten := by
  cases pathMoves moved with
  | writer turned =>
    rename_i a writer
    cases a with
    | send control auto packets => exact .inr ⟨control,auto,packets,rfl,sentMore turned⟩
    | _ => exact .inl (congrArg framesOf (sentSame (fun _ _ _ same => by cases same) turned))
  | _ => exact .inl rfl

/- What the streams promise: nothing is asked for a stream that is not open, a SYN is the first of
its stream, and the server opens a stream for a SYN only. -/
structure Lawful (s : State) : Prop where
  client : ∀ f ∈ submitted s true, tracked f.cmd = true → ((endSession s true).stream f.sid).opened = true
  syn : ∀ sid, opensFirst (ofStream sid (submitted s true)) = true
  server : ∀ f ∈ submitted s false, f.cmd = cmdPsh → ((endSession s false).stream f.sid).opened = true
  accepted : ∀ sid, ((s true).session.stream sid).opened = true → ∃ f ∈ (s true).handled, f.cmd = cmdSyn ∧ f.sid = sid

theorem openedGrows {path : Path} (moved : OneWay.step (noise p) (s p) l = some path) {q : Bool} {sid : Nat}
    (was : ((s q).session.stream sid).opened = true) : ((Function.update s p path q).session.stream sid).opened = true := by
  by_cases same : q = p
  · subst same
    rw [Function.update_self]
    exact openedKept (pathMoves moved) was
  · rw [Function.update_of_ne same]
    exact was

theorem submittedFrames {path : Path} (may : allowed s p l = true) (moved : OneWay.step (noise p) (s p) l = some path) (q : Bool) :
    submitted (Function.update s p path) q = submitted s q ∨
      q = p ∧ ∃ frames, asks s p frames = true ∧ submitted (Function.update s p path) q = submitted s q ++ frames := by
  by_cases same : q = p
  · subst same
    rw [submitted,Function.update_self]
    obtain still | ⟨control,auto,packets,rfl,more⟩ := submits moved
    · exact .inl still
    · exact .inr ⟨rfl,packets.flatten,may,more⟩
  · rw [submitted,Function.update_of_ne same]
    exact .inl rfl

theorem synKept {frames more : List Frame} (syn : ∀ sid, opensFirst (ofStream sid frames) = true)
    (asked : ∀ f ∈ more, tracked f.cmd = true → opensFirst (ofStream f.sid (frames ++ more)) = true) (sid : Nat) :
    opensFirst (ofStream sid (frames ++ more)) = true := by
  by_cases none : ofStream sid more = []
  · rw [ofStreamAppend,none,List.append_nil]
    exact syn sid
  · obtain ⟨f,member⟩ := List.exists_mem_of_ne_nil _ none
    obtain ⟨inside,rfl,track⟩ := ofStreamMem.mp member
    exact asked f inside track

theorem acceptedKept {path : Path} (lawful : Lawful s) (taken : SynTaken (s true)) (server : (s true).session.isClient = false)
    (moved : OneWay.step (noise true) (s true) l = some path) (sid : Nat) (now : (path.session.stream sid).opened = true) :
    ∃ f ∈ path.handled, f.cmd = cmdSyn ∧ f.sid = sid := by
  have moves := pathMoves moved
  have grown : (s true).handled <+: path.handled := by
    cases moves with
    | frame _ _ _ => exact List.prefix_append _ _
    | _ => exact List.prefix_refl _
  cases was : ((s true).session.stream sid).opened with
  | true =>
    obtain ⟨f,member,both⟩ := lawful.accepted sid was
    exact ⟨f,grown.subset member,both⟩
  | false =>
    obtain ⟨queued,_,stands,_⟩ | ⟨_,client⟩ := opensBy moves was now
    · obtain ⟨front,f,handled,both⟩ := taken sid (atSynView stands)
      exact ⟨f,grown.subset (handled ▸ List.mem_append_right _ (List.mem_singleton_self f)),both⟩
    · exact absurd (server.symm.trans client) Bool.false_ne_true

theorem lawfulKept {path : Path} (lawful : Lawful s) (taken : SynTaken (s true)) (server : (s true).session.isClient = false) (may : allowed s p l = true)
    (moved : OneWay.step (noise p) (s p) l = some path) : Lawful (Function.update s p path) := by
  refine ⟨?_,?_,?_,?_⟩
  · intro f member track
    refine openedGrows moved ?_
    obtain same | ⟨rfl,frames,asked,more⟩ := submittedFrames may moved true
    · exact lawful.client f (same ▸ member) track
    · rw [more] at member
      rcases List.mem_append.mp member with old | new
      · exact lawful.client f old track
      · have opened := List.all_eq_true.mp asked f new
        rw [track] at opened
        exact (Bool.and_eq_true_iff.mp opened).1
  · obtain same | ⟨rfl,frames,asked,more⟩ := submittedFrames may moved true
    · rw [same]
      exact lawful.syn
    · rw [more]
      refine synKept lawful.syn ?_
      intro f member track
      have opened := List.all_eq_true.mp asked f member
      rw [track] at opened
      exact (Bool.and_eq_true_iff.mp opened).2
  · intro f member psh
    refine openedGrows moved ?_
    obtain same | ⟨rfl,frames,asked,more⟩ := submittedFrames may moved false
    · exact lawful.server f (same ▸ member) psh
    · rw [more] at member
      rcases List.mem_append.mp member with old | new
      · exact lawful.server f old psh
      · have opened := List.all_eq_true.mp asked f new
        rw [psh] at opened
        exact opened
  · cases p with
    | true =>
      rw [Function.update_self]
      exact acceptedKept lawful taken server moved
    | false =>
      rw [Function.update_of_ne Bool.false_ne_true.symm]
      exact lawful.accepted

theorem sessionClient {okr : Session → Receive.Action → Prop} {client : Bool} {max : Nat} {s : Session}
    (run : Receive.Run okr client max s) : s.isClient = client :=
  reachInvariant (I := fun s => s.isClient = client) rfl (fun was _ moved => (Receive.stepClient moved).trans was) run

theorem lawfulRun {okw : Writer.State → Writer.Action → Prop} (run : Run noise okw okr e s) : Lawful s := by
  refine reachInvariantFrom (J := fun s => SynTaken (s true) ∧ (s true).session.isClient = false) ?_ ?_ ?_ run
  · intro s run
    exact ⟨synTakenRun (pathRun run true),sessionClient (parts (pathRun run true)).session⟩
  · refine ⟨?_,?_,?_,?_⟩
    · intro f member
      contradiction
    · exact fun _ => rfl
    · intro f member
      contradiction
    · intro sid opened
      exact absurd opened Bool.false_ne_true
  · rintro s ⟨p,l⟩ t known lawful _ moved
    obtain ⟨may,path,turned,rfl⟩ := stepped moved
    exact lawfulKept lawful known.1 known.2 may turned

end Lawful

section Crossing
open Receive (Meets NoHole PopsBehindChannel)
variable {noise : Bool → Record.Noise} {okr : Session → Receive.Action → Prop} {e : Bool → Setup} {s : State} {p : Bool}
  {l : OneWay.Label} {sid : Nat}

theorem handledSubmitted (undoes : (noise p).Undoes) (run : OneWay.Run (noise p) Orderly okr {e p with client := p} (s p)) {f : Frame}
    (handled : f ∈ (s p).handled) (track : tracked f.cmd = true) : f ∈ submitted s p := by
  have member := (handledInOrder undoes run f.sid).subset (ofStreamMem.mpr ⟨handled,rfl,track⟩)
  exact (ofStreamMem.mp member).1

/- A client that opens a stream has not heard of it: a payload comes from a server that has taken
the SYN, and there is no SYN before the stream is open. -/
theorem clientTimely (undoes : ∀ p, (noise p).Undoes) (lawful : Lawful s)
    (runs : ∀ p, OneWay.Run (noise p) Orderly okr {e p with client := p} (s p))
    (was : ((s false).session.stream sid).opened = false) : pushes sid (s false).handled = [] := by
  by_contra pushed
  obtain ⟨f,handled,psh,rfl⟩ := pushedMem pushed
  have sent := handledSubmitted (undoes false) (runs false) handled (by rw [psh]; rfl)
  obtain ⟨g,taken,syn,same⟩ := lawful.accepted f.sid (lawful.server f sent psh)
  have opening := handledSubmitted (undoes true) (runs true) taken (by rw [syn]; rfl)
  have opened := lawful.client g opening (by rw [syn]; rfl)
  rw [same] at opened
  exact absurd (was.symm.trans opened) Bool.false_ne_true

theorem synAlone {front : List Frame} {f : Frame} (undoes : (noise true).Undoes) (lawful : Lawful s)
    (run : OneWay.Run (noise true) Orderly okr {e true with client := true} (s true)) (handled : (s true).handled = front ++ [f])
    (opens : f.cmd = cmdSyn) : ofStream f.sid front = [] := by
  have order := handledInOrder undoes run f.sid
  have last : ofStream f.sid [f] = [f] := by simp [ofStream,opens,show tracked cmdSyn = true from rfl]
  rw [handled,ofStreamAppend,last] at order
  exact opensAlone (lawful.syn f.sid) order opens

theorem serverTimely (undoes : (noise true).Undoes) (lawful : Lawful s)
    (run : OneWay.Run (noise true) Orderly okr {e true with client := true} (s true)) {queued : Bool}
    (stands : (s true).session.loop = some (sid,.syn queued)) : pushes sid (s true).handled = [] := by
  obtain ⟨front,f,handled,syn,rfl⟩ := synTakenRun run sid (atSynView stands)
  have other : f.cmd ≠ cmdPsh := by rw [syn]; decide
  rw [handled,pushesKept f.sid (.inl other),pushesStream,synAlone undoes lawful run handled syn]
  rfl

theorem timely {path : Path} (undoes : ∀ p, (noise p).Undoes) (lawful : Lawful s)
    (runs : ∀ p, OneWay.Run (noise p) Orderly okr {e p with client := p} (s p))
    (moved : OneWay.step (noise p) (s p) l = some path) : Timely sid (s p) path := by
  intro was now
  have client : (s p).session.isClient = !p := sessionClient (parts (runs p)).session
  obtain ⟨queued,_,stands,is⟩ | ⟨_,is⟩ := opensBy (pathMoves moved) was now
  · cases p with
    | true => exact serverTimely (undoes true) lawful (runs true) stands
    | false => exact absurd (client.symm.trans is) Bool.false_ne_true.symm
  · cases p with
    | true => exact absurd (client.symm.trans is) Bool.false_ne_true
    | false => exact clientTimely undoes lawful runs was

theorem synFresh (undoes : (noise true).Undoes) (run : Run noise Orderly okr e s)
    (here : (Receive.view (s true).session sid).pc.any Receive.HandlerPc.atSyn = true) :
    ((s true).session.stream sid).opened = false := by
  induction run with
  | start => exact absurd here Bool.false_ne_true
  | next before meets moved ih =>
    rename_i s label t
    obtain ⟨q,l⟩ := label
    obtain ⟨_,path,turned,rfl⟩ := stepped moved
    cases q with
    | false =>
      rw [Function.update_of_ne Bool.false_ne_true.symm] at here ⊢
      exact ih here
    | true =>
      have after : Run noise Orderly okr e (Function.update s true path) := .next before meets moved
      have server : (s true).session.isClient = false := sessionClient (parts (pathRun before true)).session
      rw [Function.update_self] at here ⊢
      obtain ⟨opened,⟨was,_⟩ | ⟨f,handled,syn,rfl⟩⟩ := atSynKept (pathMoves turned) here
      · exact (opened server).trans (ih was)
      · rw [opened server]
        by_contra known
        obtain ⟨g,member,again,same⟩ := (lawfulRun before).accepted f.sid (by simpa using known)
        have inside : g ∈ ofStream f.sid (s true).handled := ofStreamMem.mpr ⟨member,same,by rw [again]; rfl⟩
        have alone := synAlone undoes (lawfulRun after) (pathRun after true) (by rw [Function.update_self]; exact handled) syn
        rw [alone] at inside
        contradiction

/- So no SYN opens a stream again, and no run ends there. -/
theorem neverReopened (undoes : (noise true).Undoes) (run : Run noise Orderly okr e s) (p : Bool) (a : Receive.Action) :
    Receive.event (s p).session a ≠ .reopened := by
  intro again
  obtain ⟨server,k,here,opened⟩ := reopensAt again
  have client : (s p).session.isClient = !p := sessionClient (parts (pathRun run p)).session
  cases p with
  | false => exact absurd (server.symm.trans client) Bool.false_ne_true
  | true => exact absurd ((synFresh undoes run here).symm.trans opened) Bool.false_ne_true

theorem completeRun (undoes : ∀ p, (noise p).Undoes) (run : Run noise Orderly okr e s) (p : Bool) : Complete sid (s p) := by
  induction run with
  | start => exact fun opened => absurd opened Bool.false_ne_true
  | next before meets moved ih =>
    rename_i s label t
    obtain ⟨q,l⟩ := label
    obtain ⟨_,path,turned,rfl⟩ := stepped moved
    by_cases same : p = q
    · subst same
      rw [Function.update_self]
      have heard : Heard sid (s p) := heardRun (pathRun before p)
      exact (heardKept heard (pathMoves turned)).2 (timely undoes (lawfulRun before) (pathRun before) turned) ih
    · rw [Function.update_of_ne same]
      exact ih

/- In every run of the two directions, whatever the sockets take and hand over and whichever part
moves: what is read of a stream was submitted for it by the other end, once and in that order,
also where a limit on the way drops a payload. -/
theorem streamsInOrder (undoes : ∀ p, (noise p).Undoes) (run : Run noise Orderly (Meets sid PopsBehindChannel) e s) (p : Bool) :
    ((s p).session.stream sid).delivered.Sublist (pushes sid (submitted s p)) := deliveredSubmitted (undoes p) (pathRun run p)

theorem restCrossed (undoes : ∀ p, (noise p).Undoes) (run : Run noise Orderly (Meets sid NoHole) e s) (p : Bool) (quiet : Quiet (s p))
    (drained : Drained (s p) sid) : ((s p).session.stream sid).delivered = pushes sid (submitted s p) := by
  have opened : ((s p).session.stream sid).opened = true := by
    by_contra closed
    have dead := (Receive.untouchedLine (Receive.runShape (parts (pathRun run p)).session) (Bool.eq_false_iff.mpr closed)).2.2
    exact absurd (dead.symm.trans drained.live) Bool.false_ne_true
  obtain ⟨delivered,all⟩ := quietDelivered (undoes p) (pathRun run p) quiet drained
  exact delivered.trans ((completeRun undoes run p opened).trans all)

end Crossing

section Example
open Receive (Meets NoHole PopsBehindChannel)

def sampleEnds : Bool → Setup := fun _ =>
  {client := true,script := [],stop := 0,postScriptOff := false,peerOff := false,maxStreams := 8}

def sampleNoise : Bool → Record.Noise := fun _ => Record.tagNoise

def firstWriteLabels : List OneWay.Label :=
  [Label.prepare true,.prepare true,.prepare false,.link (.flush 424),.link (.poll 16384),.link .turn,.link .turn,.link (.socket 424)] ++
    List.replicate 8 (Label.link .turn) ++ [Label.link (.poll 16384),.link .turn,.link .turn,.link .pending,.chunk 32,.loop .lengthTest,
      .frame true true,.frame true true,.session .loop] ++ List.replicate 4 (Label.session (.accept 1)) ++ [Label.frame true true] ++
    List.replicate 5 (Label.session .loop) ++ [Label.loop (.decode true),.session (.read 1),.session (.reader 1)]

def firstWrite : List (Bool × OneWay.Label) :=
  (false,Label.session (.openStream 1))::openAndWrite.map (fun a => (true,Label.writer a)) ++ firstWriteLabels.map (fun l => (true,l))

def isQuiet (s : Path) : Bool :=
  decide (s.writer.pc = .select ∧ s.writer.queue = [] ∧ s.finished = s.records.length ∧ s.link.w.buffer = [] ∧ s.link.wire = [] ∧
    s.link.last = some .pending ∧ s.link.call = none ∧ s.link.alerted = false ∧ s.read = s.link.returned.length ∧
    (decodeBuffer s.loop.buf).1 = none ∧ s.session.loop = none)

def isDrained (s : Path) (sid : Nat) : Bool :=
  decide ((Receive.view s.session sid).live = true ∧ (s.session.stream sid).reader.pc = .idle ∧ (s.session.stream sid).data = [] ∧
    (Receive.view s.session sid).pending = [] ∧ (s.session.stream sid).accept.hand = [] ∧ (Receive.view s.session sid).preData = [])

theorem firstWriteRuns (okr : Session → Receive.Action → Prop) [∀ s a, Decidable (okr s a)]
    (ran : (checked (step sampleNoise) (fun s label => Both Orderly okr (s label.1) label.2) (start sampleEnds) firstWrite).any
      (fun s => isQuiet (s true) && isDrained (s true) 1 && decide (((s true).session.stream 1).delivered = [[7,7,7]])) = true) :
    ∃ s, Run sampleNoise Orderly okr sampleEnds s ∧ Quiet (s true) ∧ Drained (s true) 1 ∧
      ((s true).session.stream 1).delivered = [[7,7,7]] := by
  obtain ⟨s,run,here⟩ := checkedReaches ran
  simp only [Bool.and_eq_true] at here
  obtain ⟨⟨quiet,drained⟩,delivered⟩ := here
  obtain ⟨select,empty,prepared,buffer,wire,last,call,unshut,taken,decoded,handled⟩ := of_decide_eq_true quiet
  obtain ⟨live,idle,channel,pending,accept,pre⟩ := of_decide_eq_true drained
  exact ⟨s,run,⟨⟨select,empty⟩,prepared,⟨buffer,wire⟩,⟨last,call⟩,unshut,taken,decoded,handled⟩,
    ⟨live,.inl idle,channel,pending,accept,pre⟩,of_decide_eq_true delivered⟩

theorem streamsInOrderFirst : ∃ s, Run sampleNoise Orderly (Meets 1 PopsBehindChannel) sampleEnds s ∧
    ((s true).session.stream 1).delivered = [[7,7,7]] ∧
    ((s true).session.stream 1).delivered.Sublist (pushes 1 (submitted s true)) := by
  obtain ⟨s,run,_,_,delivered⟩ := firstWriteRuns (Meets 1 PopsBehindChannel) (by decide +kernel)
  exact ⟨s,run,delivered,streamsInOrder (fun _ => Record.tagNoiseUndoes) run true⟩

theorem restCrossedFirst : ∃ s, Run sampleNoise Orderly (Meets 1 NoHole) sampleEnds s ∧
    ((s true).session.stream 1).delivered = [[7,7,7]] ∧
    ((s true).session.stream 1).delivered = pushes 1 (submitted s true) := by
  obtain ⟨s,run,quiet,drained,delivered⟩ := firstWriteRuns (Meets 1 NoHole) (by decide +kernel)
  exact ⟨s,run,delivered,restCrossed (fun _ => Record.tagNoiseUndoes) run true quiet drained⟩

end Example

end KanoTls.Tunnel
