import KanoTls.ReceiveOverflow
import KanoTls.ReceivePrefix
import KanoTls.LinkFlow

/-! A peer that keeps to its windows, against the limits of the ledgers. `Metered` puts
the receive side of a session beside its window accounting: what the peer has sent,
before and after it knew of the windows, and what was given back to it in WINDOW_UPDATE
frames, for the connection on receipt and for a stream when the application says it has
consumed. The windows keep the bytes of a stream below its limit; the other limits are
within the peer's reach. -/
namespace KanoTls.Receive
open Pending Session

/- `meter` is the accounting of the receiving side; the WINDOW_UPDATE frames it has
queued stay in `meter.control`. The peer charges its windows once it knows of `fc=1`,
and `early` is what it has sent before. `refused` and `killed` are history: payloads
that a ledger refused, and streams closed for it. -/
structure Metered where
  session : Session
  meter : Link.Side := {}
  knows : Bool := false
  early : StreamId → Nat := fun _ => 0
  sent : StreamId → Nat := fun _ => 0
  sentAll : Nat := 0
  refused : Nat := 0
  killed : Nat := 0

inductive MeteredAction where
  | session (a : Action) (accepted : Bool)
  | consume (sid : StreamId) (len : Nat) (accepted : Bool)
  | learn
  deriving DecidableEq, Repr

namespace Metered

def sends (m : Metered) (sid : StreamId) (len : Nat) : Metered :=
  if m.knows then {m with sent := Function.update m.sent sid (m.sent sid + len),sentAll := m.sentAll + len}
  else {m with early := Function.update m.early sid (m.early sid + len)}

/- `note_conn_received` comes first for a PSH frame, whatever becomes of its payload. -/
def received (m : Metered) (accepted : Bool) : Action → Option Metered
  | .frame (.psh sid payload) _ =>
    (m.meter.noteConnReceived payload.length accepted).map (fun meter =>
      {m.sends sid payload.length with meter := meter})
  | _ => some m

def recorded (m : Metered) (s : Session) (e : Event) : Metered :=
  {m with session := s,refused := m.refused + e.drops.toNat,killed := m.killed + (e == .overflow).toNat}

/- The application passes on at most what its reads have returned. -/
def consumed (m : Metered) (sid : StreamId) (len : Nat) (accepted : Bool) : Option Metered :=
  if m.meter.noted sid + len ≤ bytes (m.session.stream sid).delivered then
    ({m.meter with noted := Function.update m.meter.noted sid (m.meter.noted sid + len)}.noteConsumed
      sid len accepted).map (fun meter => {m with meter := meter})
  else none

/- A WINDOW_UPDATE for stream 0 is for the connection. -/
def granted (m : Metered) (sid : StreamId) : Int :=
  if sid = 0 then 0 else Tasks.total (Link.Msg.credits sid) m.meter.control

def grantedAll (m : Metered) : Int := Tasks.total (Link.Msg.credits 0) m.meter.control

end Metered

def meteredStep (m : Metered) : MeteredAction → Option Metered
  | .session a accepted =>
    (step m.session a).bind (fun s => (m.received accepted a).map (fun n => n.recorded s (event m.session a)))
  | .consume sid len accepted => m.consumed sid len accepted
  | .learn => some {m with knows := true}

/- What a peer may have on its way on a stream before it has read `fc=1`. -/
def firstRttAllowance : Nat := Window.streamWindowBytes

/- Before it knows of `fc=1` the peer keeps to the allowance. Then it keeps to both
windows, and it has announced `fc=1` itself: its SETTINGS come first. -/
def Obeys (m : Metered) : MeteredAction → Prop
  | .session (.frame (.psh sid payload) _) _ =>
    if m.knows then
      m.session.peerFlowControl = true ∧
      (m.sent sid + payload.length : Int) ≤ Window.streamWindowBytes + m.granted sid ∧
      (m.sentAll + payload.length : Int) ≤ Window.h2SessionWindowBytes + m.grantedAll
    else m.early sid + payload.length ≤ firstRttAllowance
  | _ => True

/- What waits in the ledger leaves room for one payload more, but for the bytes of its
own stream: bytes of all streams, streams, payloads of this stream. -/
def spareFor (s : Session) : Ledger → StreamId → Payload → Prop
  | .preAccept,sid,payload =>
    s.pendingOpen.waitingBytes + payload.length ≤ maxPendingStreamBytes ∧
    (s.pendingOpen.buffered sid).length < maxPendingStreamFrames
  | .backlog,sid,payload =>
    s.pendingData.waitingBytes + payload.length ≤ maxPendingStreamBytes ∧
    (s.pendingData.contains sid = true ∨ s.pendingData.len < maxPendingStreams) ∧
    (s.pendingData.items sid).length < maxPendingStreamFrames

instance (s : Session) (ledger : Ledger) (sid : StreamId) (payload : Payload) :
    Decidable (spareFor s ledger sid payload) := by
  cases ledger <;> unfold spareFor <;> infer_instance

def Spare (m : Metered) : MeteredAction → Prop
  | .session a _ => ∀ offer ∈ storing m.session a, spareFor m.session offer.1 offer.2.1 offer.2.2
  | _ => True

instance (m : Metered) (a : MeteredAction) : Decidable (Obeys m a) := by
  unfold Obeys
  split <;> infer_instance

instance (m : Metered) (a : MeteredAction) : Decidable (Spare m a) := by
  cases a <;> unfold Spare <;> infer_instance

abbrev MeteredRun (ok : Metered → MeteredAction → Prop) (isClient : Bool) (maxStreams : Nat) : Metered → Prop :=
  Machine.Reach meteredStep ok {session := start isClient maxStreams}

inductive MeteredMove (m : Metered) : MeteredAction → Metered → Prop where
  | psh {sid payload queued accepted s count frames}
      (moved : step m.session (.frame (.psh sid payload) queued) = some s)
      (conn : frames = [] ∨ ∃ n, frames = [Link.Msg.windowUpdate 0 n]) :
      MeteredMove m (.session (.frame (.psh sid payload) queued) accepted)
        (Metered.recorded {m.sends sid payload.length with
          meter := Link.Side.enqueue {m.meter with consumed := count} true frames} s .quiet)
  | session {a accepted s} (other : ∀ sid payload queued, a ≠ .frame (.psh sid payload) queued)
      (moved : step m.session a = some s) :
      MeteredMove m (.session a accepted) (m.recorded s (event m.session a))
  | consume {sid len accepted count frames} (room : m.meter.noted sid + len ≤ bytes (m.session.stream sid).delivered)
      (counted : count ≤ m.meter.streamConsumed sid + len ∧ frames = [] ∨
        count = 0 ∧ ∃ n, n ≤ m.meter.streamConsumed sid + len ∧ frames = [Link.Msg.windowUpdate sid n]) :
      MeteredMove m (.consume sid len accepted) {m with meter := Link.Side.enqueue {m.meter with
        noted := Function.update m.meter.noted sid (m.meter.noted sid + len)
        streamConsumed := Function.update m.meter.streamConsumed sid count} true frames}
  | learn : MeteredMove m .learn {m with knows := true}

section Metered
variable {m n : Metered} {a : MeteredAction} {sid : StreamId}

theorem meteredMoves (moved : meteredStep m a = some n) : MeteredMove m a n := by
  cases a with
  | session act accepted =>
    obtain ⟨s,stepped,rest⟩ := Option.bind_eq_some_iff.mp moved
    obtain ⟨x,counted,rfl⟩ := Option.map_eq_some_iff.mp rest
    unfold Metered.received at counted
    split at counted
    · obtain ⟨meter,noted,rfl⟩ := Option.map_eq_some_iff.mp counted
      obtain ⟨count,frames,rfl,which⟩ := Link.Side.connReceived noted
      refine .psh stepped ?_
      rcases which with ⟨_,_,none⟩ | ⟨_,_,none⟩ | ⟨_,_,one⟩
      · exact .inl none
      · exact .inl none
      · exact .inr ⟨_,one⟩
    · rename_i other
      cases Option.some.inj counted
      exact .session (fun sid payload queued same => other sid payload queued same) stepped
  | consume sid len accepted =>
    obtain ⟨room,moved⟩ := Option.ite_none_right_eq_some.mp moved
    obtain ⟨meter,noted,rfl⟩ := Option.map_eq_some_iff.mp moved
    obtain ⟨count,frames,rfl,which⟩ := Link.Side.noteReturns noted
    refine .consume room ?_
    rcases which with ⟨rfl,_,none⟩ | ⟨rfl,one⟩
    · exact .inl ⟨Nat.mod_le _ _,none⟩
    · exact .inr ⟨rfl,_,(Nat.min_le_left _ _).trans (Nat.mod_le _ _),one⟩
  | learn =>
    cases Option.some.inj moved
    exact .learn

structure Returned (m : Metered) : Prop where
  granted : ∀ sid, m.granted sid + m.meter.streamConsumed sid ≤ m.meter.noted sid
  noted : ∀ sid, m.meter.noted sid ≤ bytes (m.session.stream sid).delivered

structure Windowed (m : Metered) : Prop where
  early : ∀ sid, m.early sid ≤ firstRttAllowance
  sent : ∀ sid, (m.sent sid : Int) ≤ Window.streamWindowBytes + m.granted sid
  announced : ∀ sid, m.sent sid ≠ 0 → m.session.peerFlowControl = true

structure Came (m : Metered) : Prop where
  hand : ∀ sid, bytes (view m.session sid).hand ≤ m.early sid + m.sent sid
  arrived : ∀ sid, bytes (m.session.stream sid).arrived ≤ m.early sid + m.sent sid

@[simp] theorem sendsMeter (sid : StreamId) (len : Nat) : (m.sends sid len).meter = m.meter := by
  unfold Metered.sends
  split <;> rfl

@[simp] theorem sendsSession (sid : StreamId) (len : Nat) : (m.sends sid len).session = m.session := by
  unfold Metered.sends
  split <;> rfl

theorem sendsTotal (sid : StreamId) (len : Nat) (k : StreamId) :
    (m.sends sid len).early k + (m.sends sid len).sent k = m.early k + m.sent k + if k = sid then len else 0 := by
  unfold Metered.sends
  by_cases same : k = sid
  · subst same
    split <;> simp only [Function.update_self,if_true] <;> omega
  · split <;> simp [same]

theorem grantedFrames {frames : List Link.Msg} (grown : n.meter.control = m.meter.control ++ frames) (k : StreamId) :
    n.granted k = m.granted k + if k = 0 then 0 else Tasks.total (Link.Msg.credits k) frames := by
  unfold Metered.granted
  by_cases conn : k = 0
  · simp [conn]
  · simp only [conn,if_false]
    rw [grown,Tasks.totalAppend]

theorem creditsOther {k sid : StreamId} (other : k ≠ sid) (n : Nat) : Tasks.total (Link.Msg.credits k) [Link.Msg.windowUpdate sid n] = 0 := by
  have apart : (sid == k) = false := by simpa using Ne.symm other
  simp [Tasks.total,Link.Msg.credits,apart]

theorem connGrants {frames : List Link.Msg} (conn : frames = [] ∨ ∃ n, frames = [Link.Msg.windowUpdate 0 n]) (k : StreamId) :
    (if k = 0 then 0 else Tasks.total (Link.Msg.credits k) frames) = 0 := by
  by_cases zero : k = 0
  · rw [if_pos zero]
  · rw [if_neg zero]
    rcases conn with rfl | ⟨n,rfl⟩
    · rfl
    · exact creditsOther zero n

theorem returnedKept (returned : Returned m) (moved : MeteredMove m a n) : Returned n := by
  obtain ⟨granted,noted⟩ := returned
  have read {s : Session} {act : Action} (moved : step m.session act = some s) (k : StreamId) :
      m.meter.noted k ≤ bytes (s.stream k).delivered :=
    (noted k).trans (bytesSublist (stepDelivered moved k).sublist)
  cases moved with
  | @psh sid payload queued accepted s count frames moved conn =>
    refine ⟨fun k => ?_,read moved⟩
    rw [grantedFrames (m := m) rfl k,connGrants conn k,Int.add_zero]
    exact granted k
  | session other moved => exact ⟨granted,read moved⟩
  | @consume sid len accepted count frames room counted =>
    refine ⟨fun k => ?_,fun k => ?_⟩
    · rw [grantedFrames (m := m) rfl k]
      have before := granted k
      by_cases same : k = sid
      · subst same
        simp only [Link.Side.enqueueStreamConsumed,Link.Side.enqueueNoted,Function.update_self]
        rcases counted with ⟨less,rfl⟩ | ⟨rfl,n,less,rfl⟩
        · simp only [Tasks.total,List.map_nil,List.sum_nil,ite_self]
          omega
        · simp only [Tasks.total,Link.Msg.credits,List.map_cons,List.map_nil,List.sum_cons,List.sum_nil,beq_self_eq_true,
            cond_true]
          split <;> omega
      · simp only [Link.Side.enqueueStreamConsumed,Link.Side.enqueueNoted,Function.update_of_ne same]
        have none : (if k = 0 then 0 else Tasks.total (Link.Msg.credits k) frames) = 0 := by
          rcases counted with ⟨_,rfl⟩ | ⟨_,n,_,rfl⟩
          · simp [Tasks.total]
          · rw [creditsOther same n,ite_self]
        rw [none,Int.add_zero]
        exact before
    · simp only [Link.Side.enqueueNoted]
      by_cases same : k = sid
      · subst same
        rw [Function.update_self]
        exact room
      · rw [Function.update_of_ne same]
        exact noted k
  | learn => exact ⟨granted,noted⟩

theorem grantedGrows (moved : MeteredMove m a n) (k : StreamId) : m.granted k ≤ n.granted k := by
  have more (frames : List Link.Msg) : 0 ≤ if k = 0 then 0 else Tasks.total (Link.Msg.credits k) frames := by
    split
    · exact Int.le_refl 0
    · exact Tasks.totalNonneg (Link.Side.creditsNonneg k)
  cases moved with
  | @psh sid payload queued accepted s count frames moved conn =>
    exact (Int.le_add_of_nonneg_right (more frames)).trans_eq (grantedFrames (m := m) rfl k).symm
  | session other moved => exact Int.le_refl _
  | @consume sid len accepted count frames room counted =>
    exact (Int.le_add_of_nonneg_right (more frames)).trans_eq (grantedFrames (m := m) rfl k).symm
  | learn => exact Int.le_refl _

theorem windowedKept (windowed : Windowed m) (obeys : Obeys m a) (moved : MeteredMove m a n) : Windowed n := by
  obtain ⟨early,sent,announced⟩ := windowed
  have grown := grantedGrows moved
  cases moved with
  | @psh sid payload queued accepted s count frames moved conn =>
    have fc := (stepEnds moved).2
    simp only [Obeys] at obeys
    cases knows : m.knows with
    | true =>
      rw [if_pos knows] at obeys
      have sends : m.sends sid payload.length = {m with
          sent := Function.update m.sent sid (m.sent sid + payload.length),sentAll := m.sentAll + payload.length} := by
        rw [Metered.sends,if_pos knows]
      refine ⟨fun k => ?_,fun k => ?_,fun k some => ?_⟩
      · simp only [Metered.recorded,sends]
        exact early k
      · refine Int.le_trans ?_ (Int.add_le_add_left (grown k) _)
        simp only [Metered.recorded,sends]
        by_cases same : k = sid
        · subst same
          rw [Function.update_self]
          exact_mod_cast obeys.2.1
        · rw [Function.update_of_ne same]
          exact sent k
      · exact fc obeys.1
    | false =>
      rw [if_neg (by simp [knows])] at obeys
      have sends : m.sends sid payload.length = {m with
          early := Function.update m.early sid (m.early sid + payload.length)} := by
        rw [Metered.sends,if_neg (by simp [knows])]
      refine ⟨fun k => ?_,fun k => ?_,fun k some => ?_⟩
      · simp only [Metered.recorded,sends]
        by_cases same : k = sid
        · subst same
          rw [Function.update_self]
          exact obeys
        · rw [Function.update_of_ne same]
          exact early k
      · refine Int.le_trans ?_ (Int.add_le_add_left (grown k) _)
        simp only [Metered.recorded,sends]
        exact sent k
      · simp only [Metered.recorded,sends] at some
        exact fc (announced k some)
  | session other moved => exact ⟨early,sent,fun k some => (stepEnds moved).2 (announced k some)⟩
  | consume room counted => exact ⟨early,fun k => Int.le_trans (sent k) (Int.add_le_add_left (grown k) _),announced⟩
  | learn => exact ⟨early,sent,announced⟩

theorem cameKept (came : Came m) (moved : MeteredMove m a n) : Came n := by
  obtain ⟨hand,arrived⟩ := came
  cases moved with
  | @psh sid payload queued accepted s count frames moved conn =>
    obtain ⟨_,handles⟩ := Option.ite_none_right_eq_some.mp moved
    obtain ⟨_,held,more,apart⟩ := frameHeard handles
    refine ⟨fun k => ?_,fun k => ?_⟩
    all_goals
      have total := sendsTotal (m := m) sid payload.length k
      simp only [Metered.recorded]
      rw [total]
      by_cases same : k = sid
      · subst same
        rw [if_pos rfl]
        first
        | (rw [held,bytesSingle]
           omega)
        | (have before := arrived k
           rw [more,bytesAppend]
           split <;> simp only [bytesSingle,bytesNil] <;> omega)
      · obtain ⟨still,none⟩ := apart k same
        rw [if_neg same]
        first
        | (rw [none,bytesNil]
           exact Nat.zero_le _)
        | (rw [still]
           exact arrived k)
  | session other moved =>
    have quiet := quietHeard other moved
    refine ⟨fun k => ?_,fun k => ?_⟩
    · rcases (quiet k).1 with same | none
      · exact (congrArg bytes same).trans_le (hand k)
      · rw [Metered.recorded,none]
        exact Nat.zero_le _
    · rcases (quiet k).2 with same | opens
      · exact (congrArg bytes same).trans_le (arrived k)
      · exact (congrArg bytes opens).trans_le (hand k)
  | consume room counted => exact ⟨hand,arrived⟩
  | learn => exact ⟨hand,arrived⟩

theorem offered {client : Bool} {s : Session} {act : Action} {payload : Payload} (shape : Shape client (view s sid))
    (found : storing s act = some (.backlog,sid,payload)) : (s.stream sid).opened = true ∧
      bytes (s.stream sid).delivered + bytes (s.pendingData.items sid) + payload.length ≤ (view s sid).held := by
  have known {pc : HandlerPc} (here : s.loop = some (sid,pc)) (inside : pc.outside = false) : (s.stream sid).opened = true := by
    by_contra shut
    have outside := (shape.fresh (Bool.eq_false_iff.mpr shut)).outside pc (by simp [view,onLoop,here])
    exact absurd (outside.symm.trans inside) Bool.noConfusion
  have inHand {pc : PshPc} (here : s.loop = some (sid,.psh pc payload)) (holds : pc ≠ .notify) :
      bytes (s.stream sid).delivered + bytes (s.pendingData.items sid) + payload.length ≤ (view s sid).held := by
    have hand : (view s sid).hand = [payload] := by
      cases pc <;> first | contradiction | simp [View.hand,view,onLoop,here,HandlerPc.hand]
    rw [View.held,hand,bytesSingle]
    simp only [View.core,view,bytesAppend]
    omega
  unfold storing at found
  split at found
  · split at found
    · split at found <;> cases found
    · rename_i here
      cases Option.some.inj found
      exact ⟨known here rfl,inHand here (by decide)⟩
    · rename_i here
      cases Option.some.inj found
      exact ⟨known here rfl,inHand here (by decide)⟩
    · contradiction
  · split at found <;> try contradiction
    rename_i k front rest fin delivered here
    cases Option.some.inj found
    refine ⟨?_,?_⟩
    · by_contra shut
      have st : s.stream sid = {} := (shape.fresh (Bool.eq_false_iff.mpr shut)).st
      rw [st] at here
      contradiction
    · have accepting : (view s sid).st.accept.hand = payload::rest := by
        rw [show (view s sid).st.accept = _ from here]
        rfl
      simp only [View.held,View.core,accepting,bytesAppend,bytesCons]
      simp only [view]
      omega
  · contradiction

structure Kept (m : Metered) : Prop where
  ledgers : Ledgers m.session
  returned : Returned m
  windowed : Windowed m
  came : Came m

theorem keptStart (isClient : Bool) (maxStreams : Nat) : Kept {session := start isClient maxStreams} where
  ledgers := ⟨PendingData.exactEmpty,PendingOpenStreams.exactEmpty⟩
  returned := by
    refine ⟨fun sid => ?_,fun sid => Nat.zero_le _⟩
    simp [Metered.granted,Tasks.total]
  windowed := by
    refine ⟨fun sid => Nat.zero_le _,fun sid => ?_,fun sid some => absurd rfl some⟩
    simp [Metered.granted,Tasks.total]
  came := ⟨fun sid => Nat.zero_le _,fun sid => Nat.zero_le _⟩

theorem sessionMoved (moved : MeteredMove m a n) :
    n.session = m.session ∨ ∃ act accepted, a = .session act accepted ∧ step m.session act = some n.session := by
  cases moved with
  | psh moved => exact .inr ⟨_,_,rfl,moved⟩
  | session other moved => exact .inr ⟨_,_,rfl,moved⟩
  | consume => exact .inl rfl
  | learn => exact .inl rfl

theorem keptStep (kept : Kept m) (obeys : Obeys m a) (moved : MeteredMove m a n) : Kept n where
  ledgers := by
    rcases sessionMoved moved with same | ⟨act,accepted,_,stepped⟩
    · rw [same]
      exact kept.ledgers
    · exact ledgersStep kept.ledgers stepped
  returned := returnedKept kept.returned moved
  windowed := windowedKept kept.windowed obeys moved
  came := cameKept kept.came moved

theorem runKept {ok : Metered → MeteredAction → Prop} {client : Bool} {max : Nat} (obeys : ∀ m a, ok m a → Obeys m a)
    (reach : MeteredRun ok client max m) : Kept m :=
  Machine.reachInvariant (keptStart client max) (fun kept meets moved => keptStep kept (obeys _ _ meets) (meteredMoves moved)) reach

theorem sessionRun {ok : Metered → MeteredAction → Prop} {client : Bool} {max : Nat} (reach : MeteredRun ok client max m) :
    Run Machine.Always client max m.session := by
  induction reach with
  | start => exact .start
  | next before meets moved ih =>
    rcases sessionMoved (meteredMoves moved) with same | ⟨act,accepted,_,stepped⟩
    · rw [same]
      exact ih
    · exact .next ih trivial stepped

/- The windows keep a stream's share of the backlog below its limit. -/
theorem streamWithin {act : Action} {payload : Payload} {client : Bool} {max : Nat} (kept : Kept m)
    (reach : Run Machine.Always client max m.session) (found : storing m.session act = some (.backlog,sid,payload)) :
    bytes (m.session.pendingData.items sid) + payload.length ≤ overflowLimit m.session.peerFlowControl := by
  have free : Run (Meets sid (fun _ _ => True)) client max m.session := Machine.reachWeaken (fun _ _ _ _ => trivial) reach
  obtain ⟨opened,inside⟩ := offered (runShape free) found
  have held := runHeld free opened
  have arrived := kept.came.arrived sid
  have early := kept.windowed.early sid
  have sent := kept.windowed.sent sid
  have given := kept.returned.granted sid
  have read := kept.returned.noted sid
  simp only [firstRttAllowance,Window.streamWindowBytes] at early sent
  by_cases none : m.sent sid = 0
  · have base : maxStreamOverflowBytes ≤ overflowLimit m.session.peerFlowControl := by
      unfold overflowLimit
      split <;> omega
    simp only [maxStreamOverflowBytes] at base
    omega
  · rw [overflowLimit,if_pos (kept.windowed.announced sid none),maxStreamOverflowBytes]
    omega

theorem spareRoomy {act : Action} {accepted client : Bool} {max : Nat} (kept : Kept m) (reach : Run Machine.Always client max m.session) :
    Spare m (.session act accepted) ↔ Roomy m.session act := by
  refine ⟨fun spare ledger sid payload found => ?_,fun roomy offer found => ?_⟩
  · have room := spare (ledger,sid,payload) found
    cases ledger with
    | preAccept => exact room
    | backlog =>
      obtain ⟨total,streams,frames⟩ := room
      exact ⟨total,streams,streamWithin kept reach found,frames⟩
  · obtain ⟨ledger,sid,payload⟩ := offer
    have room := roomy ledger sid payload found
    cases ledger with
    | preAccept => exact room
    | backlog => exact ⟨room.1,room.2.1,room.2.2.2⟩

theorem overflowDrops {e : Event} (kept : e.drops = false) : (e == .overflow) = false := by
  cases e <;> first | rfl | contradiction

theorem recordedRefused (s : Session) (e : Event) : (m.recorded s e).refused = m.refused ↔ e.drops = false := by
  show m.refused + e.drops.toNat = m.refused ↔ _
  cases e.drops <;> simp

theorem receivedHistory {act : Action} {accepted : Bool} (counted : m.received accepted act = some n) :
    n.refused = m.refused ∧ n.killed = m.killed := by
  unfold Metered.received at counted
  split at counted
  · obtain ⟨meter,_,rfl⟩ := Option.map_eq_some_iff.mp counted
    unfold Metered.sends
    split <;> exact ⟨rfl,rfl⟩
  · cases Option.some.inj counted
    exact ⟨rfl,rfl⟩

theorem refusedOnly {act : Action} {accepted client : Bool} {max : Nat} (kept : Kept m)
    (reach : Run Machine.Always client max m.session) (moved : meteredStep m (.session act accepted) = some n) :
    (n.refused = m.refused ↔ Spare m (.session act accepted)) ∧ (n.refused = m.refused → n.killed = m.killed) := by
  obtain ⟨s,stepped,rest⟩ := Option.bind_eq_some_iff.mp moved
  obtain ⟨x,counted,rfl⟩ := Option.map_eq_some_iff.mp rest
  obtain ⟨refused,killed⟩ := receivedHistory counted
  have fits := refusedWithoutRoom kept.ledgers act
  have same := recordedRefused (m := x) s (event m.session act)
  rw [refused] at same
  rw [spareRoomy kept reach,same]
  refine ⟨?_,fun none => ?_⟩
  · rw [← Bool.not_eq_true,fits,Decidable.not_not]
  · show x.killed + _ = m.killed
    rw [overflowDrops none,killed]
    rfl

/- With an obedient peer, and spare room whenever a payload is offered to a ledger, no payload is
refused and no stream closed for it; and the next payload is refused only for lack of that room. -/
theorem keptWithRoom {client : Bool} {max : Nat} {m : Metered} (reach : MeteredRun (fun m a => Obeys m a ∧ Spare m a) client max m) :
    m.refused = 0 ∧ m.killed = 0 ∧ ∀ a accepted n, meteredStep m (.session a accepted) = some n →
      (n.refused = m.refused ↔ Spare m (.session a accepted)) := by
  have none : m.refused = 0 ∧ m.killed = 0 := by
    induction reach with
    | start => exact ⟨rfl,rfl⟩
    | @next u act v before meets moved ih =>
      cases act with
      | session act accepted =>
        have only := refusedOnly (runKept (fun _ _ both => both.1) before) (sessionRun before) moved
        have kept := only.1.mpr meets.2
        exact ⟨kept.trans ih.1,(only.2 kept).trans ih.2⟩
      | consume sid len accepted =>
        cases meteredMoves moved
        exact ih
      | learn =>
        cases meteredMoves moved
        exact ih
  exact ⟨none.1,none.2,fun a accepted n moved => (refusedOnly (runKept (fun _ _ both => both.1) reach) (sessionRun reach) moved).1⟩

def bothKept : List MeteredAction :=
  [MeteredAction.session (.openStream 1) true] ++
  (preSynackPsh 1 [65] ++ preSynackPsh 1 [66]).map (fun a => MeteredAction.session a true)

theorem keptWithRoomTwice : ∃ m, MeteredRun (fun m a => Obeys m a ∧ Spare m a) true 8 m ∧
    m.session.pendingData.streamFrames 1 = 2 ∧ m.refused = 0 ∧ m.killed = 0 := by
  have ran : (Machine.checked meteredStep (fun m a => Obeys m a ∧ Spare m a) {session := start true 8} bothKept).any (fun m =>
      decide (m.session.pendingData.streamFrames 1 = 2)) = true := by rfl
  obtain ⟨m,run,here⟩ := Machine.checkedReaches ran
  have ⟨refused,killed,_⟩ := keptWithRoom run
  exact ⟨m,run,of_decide_eq_true here,refused,killed⟩

end Metered

def silent (s : Session) : Action → Bool
  | .frame (.psh _ _) _ => false
  | a => !(event s a).drops

abbrev Silent (s : Session) (a : Action) : Prop := silent s a = true

theorem silentStep {m : Metered} {t : Session} {a : Action} (quiet : Silent m.session a)
    (moved : step m.session a = some t) : meteredStep m (.session a true) = some {m with session := t} := by
  have kept : (event m.session a).drops = false ∧ m.received true a = some m := by
    unfold Silent silent at quiet
    unfold Metered.received
    split at quiet
    · contradiction
    · rename_i other
      exact ⟨by simpa using quiet,rfl⟩
  simp [meteredStep,moved,kept.2,Metered.recorded,kept.1,overflowDrops kept.1]

theorem silentRun {s t : Session} (reach : Machine.Reach step Silent s t) (m : Metered) (here : m.session = s) :
    Machine.Reach meteredStep Obeys m {m with session := t} := by
  induction reach with
  | start =>
    subst here
    exact .start
  | @next u a v before meets moved ih =>
    refine .next (a := .session a true) ih ?_ (silentStep meets moved)
    unfold Silent silent at meets
    split at meets
    · contradiction
    · rename_i other
      unfold Obeys
      split
      · rename_i same
        cases same
        exact absurd rfl (other _ _ _)
      · trivial

/- After `n` frames of one byte for stream 1, and nobody reads: 128 of them are in its
channel, the others in the backlog. -/
structure Unread (s : Session) (n : Nat) : Prop where
  client : s.isClient = true
  loop : s.loop = none
  dataLock : s.dataLock = none
  fc : s.peerFlowControl = true
  pre : s.pendingOpen = {}
  opened : (s.stream 1).opened = true
  handle : (s.stream 1).handle = some ⟨false,false⟩
  reader : (s.stream 1).reader.pc = .idle
  channel : (s.stream 1).data.length = min n streamChannelCapacity
  frames : s.pendingData.streamFrames 1 = n - streamChannelCapacity
  counted : s.pendingData.streamBytes 1 = n - streamChannelCapacity
  total : s.pendingData.totalBytes = n - streamChannelCapacity
  len : s.pendingData.len ≤ 1
  empty : n ≤ streamChannelCapacity → s.pendingData.len = 0
  contains : s.pendingData.contains 1 = decide (streamChannelCapacity < n)

def arrived (s : Session) : Session :=
  (s.setStream 1 {s.stream 1 with arrived := (s.stream 1).arrived ++ [[0]]}).goto 1 (.psh .isOpen [0])

section Unread
variable {s : Session} {n : Nat}

theorem frameArrives (unread : Unread s n) : step s (.frame (.psh 1 [0]) true) = some (arrived s) := by
  simp [step,unread.loop,handleFrame,unread.opened,arrived]

theorem channelTakes (unread : Unread s n) (few : n < streamChannelCapacity) :
    ∃ t, Machine.Reach step Silent (arrived s) t ∧ Unread t (n+1) := by
  obtain ⟨client,loop,dataLock,fc,pre,opened,handle,reader,channel,frames,counted,total,len,empty,contains⟩ := unread
  have room : (s.stream 1).data.length < streamChannelCapacity := by omega
  have fits : n + 1 ≤ streamChannelCapacity := few
  have absent : s.pendingData.contains 1 = false := by
    rw [contains]
    exact decide_eq_false (by omega)
  have ran : ∃ t, Machine.checked step Silent (arrived s) [.loop,.loop,.loop,.loop,.loop] = some t ∧ Unread t (n+1) := by
    refine ⟨_,by simp [Machine.checked,Silent,silent,event,loopEvent,Event.drops,step,loopStep,pshStep,arrived,goto,
      setStream,pre,PendingOpenStreams.contains,handle,client,dataLock,absent,reader,room,handled]; rfl,?_⟩
    constructor <;> simp_all [Stream.accepting]
  obtain ⟨t,run,here⟩ := ran
  exact ⟨t,Machine.checkedReach run,here⟩

def atStore (s : Session) : Session := {(arrived s).goto 1 (.psh .store [0]) with dataLock := some .loop}

theorem comesToStore (unread : Unread s n) (many : streamChannelCapacity ≤ n) :
    Machine.Reach step Silent (arrived s) (atStore s) := by
  obtain ⟨client,loop,dataLock,fc,pre,opened,handle,reader,channel,frames,counted,total,len,empty,contains⟩ := unread
  have full : ¬ (s.stream 1).data.length < streamChannelCapacity := by omega
  cases waiting : s.pendingData.contains 1
  · have ran : Machine.checked step Silent (arrived s) [.loop,.loop,.loop,.loop,.loop,.acquire .loop] =
        some (atStore s) := by
      simp [Machine.checked,Silent,silent,event,loopEvent,Event.drops,step,loopStep,pshStep,arrived,goto,setStream,pre,
        PendingOpenStreams.contains,handle,client,dataLock,waiting,reader,full,acquire,wantsData,HandlerPc.wantsData,
        atStore]
    exact Machine.checkedReach ran
  · have ran : Machine.checked step Silent (arrived s) [.loop,.loop,.loop,.loop,.acquire .loop] =
        some (atStore s) := by
      simp [Machine.checked,Silent,silent,event,loopEvent,Event.drops,step,loopStep,pshStep,arrived,goto,setStream,pre,
        PendingOpenStreams.contains,handle,client,dataLock,waiting,acquire,wantsData,HandlerPc.wantsData,atStore]
    exact Machine.checkedReach ran

theorem backlogTakes (unread : Unread s n) (many : streamChannelCapacity ≤ n)
    (few : n < streamChannelCapacity + maxPendingStreamFrames) :
    ∃ t, Machine.Reach step Silent (arrived s) t ∧ Unread t (n+1) := by
  have before := comesToStore unread many
  obtain ⟨client,loop,dataLock,fc,pre,opened,handle,reader,channel,frames,counted,total,len,empty,contains⟩ := unread
  have stored : storePendingData true s.pendingData 1 [0] = some (s.pendingData.pushBack 1 [0]) := by
    simp only [streamChannelCapacity,maxPendingStreamFrames] at *
    unfold storePendingData
    rw [total,counted,frames,List.length_singleton,overflowLimit,maxPendingStreamBytes,maxPendingStreams,
      maxStreamOverflowBytes,maxPendingStreamFrames]
    rw [if_neg (by omega),if_neg (by omega),if_neg (by simp; omega),if_neg (by omega)]
  have ran : ∃ t, Machine.checked step Silent (atStore s) [.loop,.loop] = some t ∧ Unread t (n+1) := by
    refine ⟨_,by simp [atStore,Machine.checked,Silent,silent,event,loopEvent,Event.drops,stores,step,loopStep,pshStep,
      arrived,goto,
      setStream,fc,stored,handled]; rfl,?_⟩
    constructor
    case frames => simpa [PendingData.framesPush,frames] using (by omega)
    case counted => simpa [PendingData.bytesPush,counted] using (by omega)
    case total =>
      show s.pendingData.totalBytes + 1 = _
      omega
    case len =>
      show (s.pendingData.pushBack 1 [0]).len ≤ _
      rw [PendingData.lenPush,contains]
      by_cases more : streamChannelCapacity < n
      · rw [if_pos (decide_eq_true more)]
        exact len
      · rw [if_neg (by simp [more]),empty (by omega)]
    case empty => exact fun small => absurd small (by omega)
    case contains =>
      show (s.pendingData.pushBack 1 [0]).contains 1 = _
      rw [PendingData.containsPushSame]
      exact (decide_eq_true (by omega)).symm
    all_goals simp_all [Stream.accepting,Stream.notifyWaiters]
    all_goals omega
  obtain ⟨t,run,here⟩ := ran
  exact ⟨t,Machine.reachAfter before (Machine.checkedReach run),here⟩

theorem storeRefuses (unread : Unread s (streamChannelCapacity + maxPendingStreamFrames)) :
    event (atStore s) .loop = .overflow ∧ ∃ t, step (atStore s) .loop = some t := by
  have frames : s.pendingData.streamFrames 1 = maxPendingStreamFrames := unread.frames
  have refused : storePendingData s.peerFlowControl s.pendingData 1 [0] = none := by
    unfold storePendingData
    simp [frames]
  refine ⟨?_,?_⟩
  · have here : (atStore s).loop = some (1,.psh .store [0]) := rfl
    have full : stores (atStore s) 1 [0] = false := by
      simp only [stores,atStore,arrived,goto,setStream,refused,Option.isSome_none]
    simp only [event,loopEvent,here,full,Bool.false_eq_true,if_false]
  · simp [step,loopStep,atStore,arrived,goto,setStream,pshStep,refused]

end Unread

structure Sent (m : Metered) (n : Nat) : Prop where
  unread : Unread m.session n
  knows : m.knows = true
  sent : m.sent 1 = n
  sentAll : m.sentAll = n
  consumed : m.meter.consumed = n
  control : m.meter.control = []
  refused : m.refused = 0
  killed : m.killed = 0

def frameCounted (m : Metered) (n : Nat) : Metered := {m with
  session := arrived m.session,meter := {m.meter with consumed := n+1}
  sent := Function.update m.sent 1 (n+1),sentAll := n+1}

theorem frameComes {m : Metered} {n : Nat} (so : Sent m n) (few : n ≤ streamChannelCapacity + maxPendingStreamFrames) :
    Machine.Reach meteredStep Obeys m (frameCounted m n) := by
  obtain ⟨unread,knows,sent,sentAll,consumed,control,refused,killed⟩ := so
  simp only [streamChannelCapacity,maxPendingStreamFrames] at few
  have below : ¬ Link.connWuThreshold ≤ n+1 := by
    rw [Link.connWuThreshold,Window.h2SessionWindowBytes]
    omega
  have same : min (n+1) Link.maxU64 = n+1 := by
    rw [Link.maxU64]
    omega
  have moved : meteredStep m (.session (.frame (.psh 1 [0]) true) true) = some (frameCounted m n) := by
    simp [meteredStep,frameArrives unread,Metered.received,Link.Side.noteConnReceived,Link.Side.bumpConnConsumed,
      Metered.sends,knows,consumed,below,same,Metered.recorded,event,Event.drops,frameCounted,sent,sentAll]
  refine .next .start ?_ moved
  simp only [Obeys,knows,if_true,unread.fc,sent,sentAll,Metered.granted,Metered.grantedAll,control,Tasks.total,List.map_nil,
    List.sum_nil,List.length_singleton,Window.streamWindowBytes,Window.h2SessionWindowBytes,ite_self,true_and]
  omega

theorem framesCome {m : Metered} (so : Sent m 0) (n : Nat) (few : n ≤ streamChannelCapacity + maxPendingStreamFrames) :
    ∃ t, Machine.Reach meteredStep Obeys m t ∧ Sent t n := by
  induction n with
  | zero => exact ⟨m,.start,so⟩
  | succ n ih =>
    obtain ⟨t,reach,before⟩ := ih (by omega)
    have taken : ∃ u, Machine.Reach step Silent (arrived t.session) u ∧ Unread u (n+1) := by
      by_cases room : n < streamChannelCapacity
      · exact channelTakes before.unread room
      · exact backlogTakes before.unread (by omega) (by omega)
    obtain ⟨u,later,unread⟩ := taken
    have counted := frameComes before (by omega)
    have handled := silentRun later (frameCounted t n) rfl
    refine ⟨_,Machine.reachAfter reach (Machine.reachAfter counted handled),unread,before.knows,?_,rfl,rfl,?_,?_,?_⟩
    · simp [frameCounted]
    · exact before.control
    · exact before.refused
    · exact before.killed

def opening : List MeteredAction :=
  [.openStream 1,.frame (.settings true) true,.frame (.synack 1 []) true,.loop,.acquire .loop,.loop,.acquire .loop,
    .loop,.loop].map (fun a => .session a true) ++ [.learn]

/- 4225 bytes against a window of 32 MiB, one in each frame: the last one does not fit
into the backlog, and its stream is closed. -/
theorem smallFramesCutOff : ∃ m, MeteredRun Obeys true 8 m ∧ m.sentAll = 4225 ∧ m.refused = 1 ∧ m.killed = 1 := by
  have opened : ∃ m, MeteredRun Obeys true 8 m ∧ Sent m 0 := by
    have ran : Machine.checked meteredStep Obeys {session := start true 8} opening = some _ := rfl
    exact ⟨_,Machine.checkedReach ran,⟨⟨rfl,rfl,rfl,rfl,rfl,rfl,rfl,rfl,rfl,rfl,rfl,rfl,Nat.zero_le _,fun _ => rfl,rfl⟩,
      rfl,rfl,rfl,rfl,rfl,rfl,rfl⟩⟩
  obtain ⟨s,before,ready⟩ := opened
  obtain ⟨t,reach,full⟩ := framesCome ready (streamChannelCapacity + maxPendingStreamFrames) (Nat.le_refl _)
  have counted := frameComes full (Nat.le_refl _)
  have stored := silentRun (comesToStore full.unread (by decide)) (frameCounted t 4224) rfl
  obtain ⟨overflows,u,moved⟩ := storeRefuses full.unread
  have killed : meteredStep {frameCounted t 4224 with session := atStore t.session} (.session .loop true) =
      some (Metered.recorded {frameCounted t 4224 with session := atStore t.session} u .overflow) := by
    simp [meteredStep,moved,overflows,Metered.received]
  refine ⟨_,Machine.reachAfter before (Machine.reachAfter reach (Machine.reachAfter counted
    (.next stored (show Obeys _ (.session .loop true) from trivial) killed))),rfl,?_,?_⟩
  · show t.refused + 1 = 1
    rw [full.refused]
  · show t.killed + 1 = 1
    rw [full.killed]

structure OneEach (m : Metered) (n : Nat) : Prop where
  client : m.session.isClient = true
  most : m.session.maxStreams = 2048
  loop : m.session.loop = none
  dataLock : m.session.dataLock = none
  fc : m.session.peerFlowControl = true
  pre : m.session.pendingOpen = {}
  capacity : m.session.capacity = n
  fresh : ∀ k, n < k → m.session.stream k = {}
  len : m.session.pendingData.len = n
  total : m.session.pendingData.totalBytes = n
  absent : ∀ k, n < k → m.session.pendingData.contains k = false
  knows : m.knows = true
  sent : ∀ k, n < k → m.sent k = 0
  sentAll : m.sentAll = n
  consumed : m.meter.consumed = n
  control : m.meter.control = []
  refused : m.refused = 0

section OneEach
variable {m : Metered} {n : Nat}

def onePayload (sid : StreamId) : List MeteredAction :=
  (.openStream sid::preSynackPsh sid [0]).map (fun a => .session a true)

def oneMore (m : Metered) (n : Nat) (next : Option PendingData) : Metered :=
  let opened : Stream := {opened := true,handle := some ⟨true,false⟩,synackRx := true,reader := {pc := .idle},arrived := [[0]]}
  {m with
    session := {m.session.setStream (n+1) (if next.isSome then opened.accepting [0] else opened) with
      capacity := n+1,pendingData := next.getD m.session.pendingData}
    meter := {m.meter with consumed := n+1}
    sent := Function.update m.sent (n+1) 1
    sentAll := n+1
    refused := next.isNone.toNat}

theorem onePayloadRuns (so : OneEach m n) (few : n ≤ maxPendingStreams) {next : Option PendingData}
    (answer : storePendingData true m.session.pendingData (n+1) [0] = next) :
    Machine.Reach meteredStep Obeys m (oneMore m n next) := by
  obtain ⟨client,most,loop,dataLock,fc,pre,capacity,fresh,len,total,absent,knows,sent,sentAll,consumed,control,refused⟩ := so
  simp only [maxPendingStreams] at few
  have room : (n : Int) < 2048 := by omega
  have below : ¬ Link.connWuThreshold ≤ n+1 := by
    rw [Link.connWuThreshold,Window.h2SessionWindowBytes]
    omega
  have same : min (n+1) Link.maxU64 = n+1 := by
    rw [Link.maxU64]
    omega
  have unsent := sent (n+1) (Nat.lt_succ_self n)
  have unopened := fresh (n+1) (Nat.lt_succ_self n)
  have ran : Machine.checked meteredStep Obeys m (onePayload (n+1)) = some (oneMore m n next) := by
    cases next <;> simp [Machine.checked,onePayload,preSynackPsh,Obeys,meteredStep,step,client,unopened,room,most,fc,registerStream,
      setStream,onLoop,loop,Metered.received,Metered.recorded,event,Event.drops,handleFrame,goto,knows,unsent,sentAll,
      Metered.granted,Metered.grantedAll,control,Tasks.total,Window.streamWindowBytes,Window.h2SessionWindowBytes,
      Link.Side.noteConnReceived,Link.Side.bumpConnConsumed,consumed,below,same,Metered.sends,loopStep,pshStep,pre,
      PendingOpenStreams.contains,loopEvent,acquire,wantsData,HandlerPc.wantsData,dataLock,stores,answer,handled,refused,capacity,
      oneMore,Stream.accepting] <;> exact ⟨by omega,rfl⟩
  exact Machine.checkedReach ran

theorem oneEachKept (so : OneEach m n) (few : n < maxPendingStreams) :
    ∃ t, Machine.Reach meteredStep Obeys m t ∧ OneEach t (n+1) := by
  have missing := so.absent (n+1) (Nat.lt_succ_self n)
  obtain ⟨bytes,frames⟩ := PendingData.absentCounts missing
  have stored : storePendingData true m.session.pendingData (n+1) [0] = some (m.session.pendingData.pushBack (n+1) [0]) := by
    simp only [maxPendingStreams] at few
    unfold storePendingData
    rw [so.total,so.len,bytes,frames,List.length_singleton,overflowLimit,maxPendingStreamBytes,maxPendingStreams,
      maxStreamOverflowBytes,maxPendingStreamFrames]
    rw [if_neg (by omega),if_neg (by omega),if_neg (by simp),if_neg (by omega)]
  refine ⟨_,onePayloadRuns so (Nat.le_of_lt few) stored,?_⟩
  constructor
  case fresh =>
    intro k later
    have other : k ≠ n+1 := by omega
    simpa [oneMore,setStream,other] using so.fresh k (by omega)
  case len =>
    show (m.session.pendingData.pushBack (n+1) [0]).len = n+1
    rw [PendingData.lenPush,missing,if_neg Bool.false_ne_true,so.len]
  case total =>
    show m.session.pendingData.totalBytes + 1 = n+1
    rw [so.total]
  case absent =>
    intro k later
    have other : k ≠ n+1 := by omega
    show (m.session.pendingData.pushBack (n+1) [0]).contains k = false
    rw [PendingData.containsPushOther _ _ other]
    exact so.absent k (by omega)
  case sent =>
    intro k later
    have other : k ≠ n+1 := by omega
    simpa [oneMore,other] using so.sent k (by omega)
  all_goals first | rfl | exact so.client | exact so.most | exact so.loop | exact so.dataLock | exact so.fc | exact so.pre |
    exact so.knows | exact so.control

theorem oneEachReached {start : Metered} (so : OneEach start 0) (few : n ≤ maxPendingStreams) :
    ∃ t, Machine.Reach meteredStep Obeys start t ∧ OneEach t n := by
  induction n with
  | zero => exact ⟨start,.start,so⟩
  | succ n ih =>
    obtain ⟨t,reach,before⟩ := ih (Nat.le_of_lt few)
    obtain ⟨u,later,after⟩ := oneEachKept before few
    exact ⟨u,Machine.reachAfter reach later,after⟩

/- A session may be configured for more streams than may wait: one byte each on 1025 of
2048, and the last one has no place in the backlog. -/
theorem manyStreamsRefused : ∃ m, MeteredRun Obeys true 2048 m ∧ m.sentAll = 1025 ∧ m.refused = 1 := by
  have opened : ∃ m, MeteredRun Obeys true 2048 m ∧ OneEach m 0 := by
    have ran : Machine.checked meteredStep Obeys {session := start true 2048}
        [.session (.frame (.settings true) true) true,.learn] = some _ := rfl
    exact ⟨_,Machine.checkedReach ran,rfl,rfl,rfl,rfl,rfl,rfl,rfl,fun _ _ => rfl,rfl,rfl,fun _ _ => rfl,rfl,fun _ _ => rfl,
      rfl,rfl,rfl,rfl⟩
  obtain ⟨s,before,ready⟩ := opened
  obtain ⟨t,reach,full⟩ := oneEachReached ready (Nat.le_refl maxPendingStreams)
  have refused : storePendingData true t.session.pendingData (maxPendingStreams+1) [0] = none := by
    unfold storePendingData
    rw [full.total,full.len,full.absent _ (Nat.lt_succ_self _),if_neg (by decide),if_pos (by simp)]
  exact ⟨_,Machine.reachAfter before (Machine.reachAfter reach (onePayloadRuns full (Nat.le_refl _) refused)),rfl,rfl⟩

end OneEach

end KanoTls.Receive
