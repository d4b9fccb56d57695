import KanoTls.LinkMove

/-! The flow of bytes and credit between two sessions. What a side has sent and the
peer has received is either back as credit, on its way back, or counted by the peer
until a WINDOW_UPDATE is due. Steps of one side keep both ends of this equation; a
frame that arrives moves the same amount at both. -/
namespace KanoTls.Link
open Pending Window Tasks

def Msg.pshBytes : Msg → Int
  | .psh _ payload => payload.length
  | _ => 0

def Msg.pshBytesOn (sid : StreamId) : Msg → Int
  | .psh on payload => bif on == sid then payload.length else 0
  | _ => 0

/- The increment for `sid`, where 0 is the connection. -/
def Msg.credits (sid : StreamId) : Msg → Int
  | .windowUpdate on increment => bif on == sid then increment else 0
  | _ => 0

section Frames

theorem chunksTotal (fuel : Nat) (data : Payload) (enough : data.length ≤ fuel) :
    ((chunks fuel data).map List.length).sum = data.length := by
  induction fuel generalizing data with
  | zero => simp [chunks,List.length_eq_zero_iff.mp (Nat.le_zero.mp enough)]
  | succ fuel ih =>
    cases data with
    | nil => rfl
    | cons head rest =>
      have later := ih ((head::rest).drop maxPayloadLen) (by
        rw [List.length_drop,List.length_cons]
        rw [List.length_cons] at enough
        simp only [maxPayloadLen]
        omega)
      rw [chunks,List.map_cons,List.sum_cons,later,List.length_take,List.length_drop]
      · omega
      · simp

theorem chunksSmall (fuel : Nat) (data : Payload) : ∀ d ∈ chunks fuel data, d.length ≤ maxPayloadLen := by
  induction fuel generalizing data with
  | zero =>
    intro d member
    contradiction
  | succ fuel ih =>
    cases data with
    | nil =>
      intro d member
      contradiction
    | cons head rest =>
      intro d member
      rcases List.mem_cons.mp member with rfl | later
      · exact List.length_take_le _ _
      · exact ih _ d later

theorem pshTotal (sid : StreamId) (weight : Msg → Int) (unit : Int)
    (each : ∀ d, weight (.psh sid d) = unit * d.length) (payloads : List Payload) :
    total weight (payloads.map (Msg.psh sid)) = unit * (payloads.map List.length).sum := by
  induction payloads with
  | nil => simp [total]
  | cons d rest ih =>
    rw [List.map_cons,totalCons,each,ih,List.map_cons,List.sum_cons]
    rw [Int.natCast_add,Int.mul_add]

theorem encodeTotal (sid : StreamId) (weight : Msg → Int) (unit : Int)
    (each : ∀ d, weight (.psh sid d) = unit * d.length) (data : Payload) :
    total weight (encodePshFrames sid data) = unit * data.length := by
  rw [encodePshFrames,pshTotal sid weight unit each,chunksTotal _ data (Nat.le_refl _)]

theorem framesTotal (sid : StreamId) (weight : Msg → Int) (unit : Int)
    (each : ∀ d, weight (.psh sid d) = unit * d.length) (target : Option Payload) (data : Payload) :
    total weight (writeFrames sid target data) = unit * ((target.getD []).length + data.length) := by
  cases target with
  | some target =>
    rw [writeFrames,totalAppend,encodeTotal sid weight unit each,encodeTotal sid weight unit each,Option.getD_some,
      Int.mul_add]
  | none =>
    cases data with
    | nil =>
      have := each []
      simpa [writeFrames,total] using this
    | cons head rest =>
      rw [writeFrames,encodeTotal sid weight unit each]
      · simp
      · simp

end Frames

namespace Side

def out (weight : Msg → Int) (x : Side) : Int := total weight x.control + total weight x.bulk + total weight x.wire

/- Received by the peer, and not credited here. -/
def unreturned (x : Side) : Int := x.gate.bytes GatePc.sent - x.out Msg.pshBytes - x.gate.connGranted

/- Received here, and not credited to the peer: counted, or an increment under way. -/
def returning (x : Side) : Int := x.consumed + x.out (Msg.credits 0)

def unreturnedOn (sid : StreamId) (x : Side) : Int :=
  x.gate.bytesOn GatePc.sent sid - x.out (Msg.pshBytesOn sid) - x.gate.granted sid - x.ignored sid

def bufferedBytes (x : Side) (sid : StreamId) : Int := total (fun d => (d.length : Int)) (x.buffered sid)

def returningOn (sid : StreamId) (x : Side) : Int :=
  x.bufferedBytes sid + (x.taken sid - x.noted sid) + x.dropped sid + x.streamConsumed sid + x.out (Msg.credits sid)

section Out
variable {x : Side} {w : Msg → Int}

theorem outEnqueue (control : Bool) (frames : List Msg) :
    (x.enqueue control frames).out w = x.out w + total w frames := by
  cases control <;> simp only [enqueue,out,cond_true,cond_false,totalAppend] <;> omega

theorem outPopped {m rest} (here : x.wire = m::rest) :
    ({x with wire := rest} : Side).out w = x.out w - w m := by
  simp only [out]
  rw [here,totalCons]
  omega

theorem outNonneg (nonneg : ∀ m, 0 ≤ w m) : 0 ≤ x.out w := by
  have control : 0 ≤ total w x.control := totalNonneg nonneg
  have bulk : 0 ≤ total w x.bulk := totalNonneg nonneg
  have wire : 0 ≤ total w x.wire := totalNonneg nonneg
  unfold out
  omega

theorem headLeOut (nonneg : ∀ m, 0 ≤ w m) {m rest} (here : x.wire = m::rest) : w m ≤ x.out w := by
  have popped := outPopped (w := w) here
  have later : 0 ≤ ({x with wire := rest} : Side).out w := outNonneg nonneg
  omega

end Out

theorem pshBytesNonneg (m : Msg) : 0 ≤ m.pshBytes := by
  cases m <;> simp [Msg.pshBytes]

theorem pshBytesOnNonneg (sid : StreamId) (m : Msg) : 0 ≤ m.pshBytesOn sid := by
  cases m with
  | psh on payload => cases same : on == sid <;> simp [Msg.pshBytesOn,same]
  | _ => simp [Msg.pshBytesOn]

theorem creditsNonneg (sid : StreamId) (m : Msg) : 0 ≤ m.credits sid := by
  cases m with
  | windowUpdate on increment => cases same : on == sid <;> simp [Msg.credits,same]
  | _ => simp [Msg.credits]

structure Same (x y : Side) : Prop where
  taken : y.taken = x.taken
  noted : y.noted = x.noted
  buffered : y.buffered = x.buffered
  consumed : y.consumed = x.consumed
  streamConsumed : y.streamConsumed = x.streamConsumed
  dropped : y.dropped = x.dropped
  ignored : y.ignored = x.ignored

def LocalAction.reads : LocalAction → Bool
  | .take _ | .note _ _ _ => true
  | _ => false

inductive ReaderMove (x : Side) : LocalAction → Side → Prop where
  | same {l y} (quiet : l.reads = false) (same : Same x y) : ReaderMove x l y
  | take {sid d rest} (here : x.buffered sid = d::rest) : ReaderMove x (.take sid) {x with
      buffered := Function.update x.buffered sid rest
      taken := Function.update x.taken sid (x.taken sid + d.length)}
  | note {sid len accepted count frames} (stream : sid ≠ 0) (room : x.noted sid + len ≤ x.taken sid)
      (counted : count = (x.streamConsumed sid + len) % 2^64 ∧
          (count < streamWuThreshold ∨ accepted = false) ∧ frames = [] ∨
        count = 0 ∧ frames = [.windowUpdate sid (min ((x.streamConsumed sid + len) % 2^64) maxU32)]) :
      ReaderMove x (.note sid len accepted) ({x with
        noted := Function.update x.noted sid (x.noted sid + len)
        streamConsumed := Function.update x.streamConsumed sid count}.enqueue true frames)

theorem enqueueSame (x : Side) (control : Bool) (frames : List Msg) : Same x (x.enqueue control frames) :=
  ⟨by simp,by simp,by simp,by simp,by simp,by simp,by simp⟩

theorem noteReturns {x y : Side} {sid : StreamId} {len : Nat} {accepted : Bool} (moved : x.noteConsumed sid len accepted = some y) :
    ∃ (count : Nat) (frames : List Msg),
      y = {x with streamConsumed := Function.update x.streamConsumed sid count}.enqueue true frames ∧
      (count = (x.streamConsumed sid + len) % 2^64 ∧ (count < streamWuThreshold ∨ accepted = false) ∧ frames = [] ∨
        count = 0 ∧ frames = [.windowUpdate sid (min ((x.streamConsumed sid + len) % 2^64) maxU32)]) := by
  have plain (count : Nat) : {x with streamConsumed := Function.update x.streamConsumed sid count} =
      ({x with streamConsumed := Function.update x.streamConsumed sid count} : Side).enqueue true [] := by
    simp only [enqueue,cond_true,List.append_nil]
  simp only [noteConsumed] at moved
  split at moved
  · cases accepted
    · cases Option.some.inj moved
      exact ⟨_,[],plain _,.inl ⟨rfl,.inr rfl,rfl⟩⟩
    · simp only [cond_true,sendWindowUpdate] at moved
      split at moved <;> try contradiction
      cases Option.some.inj moved
      exact ⟨0,_,rfl,.inr ⟨rfl,rfl⟩⟩
  · rename_i few
    cases Option.some.inj moved
    exact ⟨_,[],plain _,.inl ⟨rfl,.inl (Nat.not_le.mp few),rfl⟩⟩

theorem readerMoves {x y : Side} {isClient : Bool} {l : LocalAction} (moved : x.localStep isClient l = some y) :
    ReaderMove x l y := by
  cases l with
  | gate b =>
    simp only [localStep] at moved
    split at moved <;> try contradiction
    obtain ⟨gate,_,rfl⟩ := Option.map_eq_some_iff.mp moved
    exact .same rfl ⟨rfl,rfl,rfl,rfl,rfl,rfl,rfl⟩
  | write sid len =>
    obtain ⟨gate,_,rfl⟩ := Option.map_eq_some_iff.mp moved
    exact .same rfl ⟨rfl,rfl,rfl,rfl,rfl,rfl,rfl⟩
  | submit i target data control =>
    obtain ⟨a,_,moved⟩ := Option.bind_eq_some_iff.mp moved
    split at moved <;> try contradiction
    obtain ⟨gate,_,rfl⟩ := Option.map_eq_some_iff.mp moved
    exact .same rfl ⟨by simp,by simp,by simp,by simp,by simp,by simp,by simp⟩
  | send control fc =>
    simp only [localStep] at moved
    split at moved <;> try contradiction
    cases Option.some.inj moved
    exact .same rfl (enqueueSame _ _ _)
  | sendOther control =>
    simp only [localStep] at moved
    split at moved <;> try contradiction
    cases Option.some.inj moved
    exact .same rfl (enqueueSame _ _ _)
  | transmit control =>
    simp only [localStep,transmit] at moved
    split at moved <;> try contradiction
    split at moved <;> try contradiction
    cases Option.some.inj moved
    cases control <;> exact .same rfl ⟨rfl,rfl,rfl,rfl,rfl,rfl,rfl⟩
  | register sid =>
    cases Option.some.inj moved
    exact .same rfl ⟨rfl,rfl,rfl,rfl,rfl,rfl,rfl⟩
  | unregister sid =>
    cases Option.some.inj moved
    exact .same rfl ⟨rfl,rfl,rfl,rfl,rfl,rfl,rfl⟩
  | take sid =>
    simp only [localStep,take] at moved
    split at moved <;> try contradiction
    rename_i d rest here
    cases Option.some.inj moved
    exact .take here
  | note sid len accepted =>
    simp only [localStep,note] at moved
    split at moved <;> try contradiction
    rename_i allowed
    obtain ⟨count,frames,rfl,counted⟩ := noteReturns moved
    exact .note allowed.1 allowed.2 counted

structure Balanced (x y : Side) : Prop where
  unreturned : y.unreturned = x.unreturned
  returning : y.returning = x.returning
  unreturnedOn : ∀ sid, y.unreturnedOn sid = x.unreturnedOn sid
  returningOn : ∀ sid, sid ≠ 0 → y.returningOn sid = x.returningOn sid

section Balanced
variable {x y : Side} {sid : StreamId}

theorem balancedGate {gate : Gate} (sent : gate.bytes GatePc.sent = x.gate.bytes GatePc.sent)
    (sentOn : ∀ sid, gate.bytesOn GatePc.sent sid = x.gate.bytesOn GatePc.sent sid)
    (granted : gate.connGranted = x.gate.connGranted ∧ gate.granted = x.gate.granted) :
    Balanced x {x with gate := gate} := by
  refine ⟨?_,rfl,fun sid => ?_,fun _ _ => rfl⟩
  · show gate.bytes _ - _ - gate.connGranted = _
    rw [sent,granted.1]
    rfl
  · show gate.bytesOn _ sid - _ - gate.granted sid - _ = _
    rw [sentOn sid,granted.2]
    rfl

theorem balancedEnqueue (control : Bool) (frames : List Msg) {gate : Gate} {early : Nat}
    (sent : gate.bytes GatePc.sent = x.gate.bytes GatePc.sent + total Msg.pshBytes frames)
    (sentOn : ∀ sid, gate.bytesOn GatePc.sent sid = x.gate.bytesOn GatePc.sent sid + total (Msg.pshBytesOn sid) frames)
    (granted : gate.connGranted = x.gate.connGranted ∧ gate.granted = x.gate.granted)
    (credits : ∀ sid, total (Msg.credits sid) frames = 0) :
    Balanced x ({x with gate := gate,early := early}.enqueue control frames) := by
  refine ⟨?_,?_,fun sid => ?_,fun sid _ => ?_⟩
  · simp only [unreturned,outEnqueue,enqueueGate,granted.1,sent]
    simp only [out]
    omega
  · simp only [returning,outEnqueue,enqueueConsumed,credits]
    simp only [out]
    omega
  · simp only [unreturnedOn,outEnqueue,enqueueGate,enqueueIgnored,granted.2,sentOn sid]
    simp only [out]
    omega
  · simp only [returningOn,bufferedBytes,outEnqueue,credits,enqueueBuffered,enqueueTaken,enqueueNoted,enqueueDropped,
      enqueueStreamConsumed]
    simp only [out]
    omega

theorem balancedSend (control : Bool) {m : Msg} (empty : m.pshBytes = 0 ∧ (∀ sid, m.pshBytesOn sid = 0) ∧
    ∀ sid, m.credits sid = 0) : Balanced x (x.enqueue control [m]) := by
  show Balanced x ({x with gate := x.gate,early := x.early}.enqueue control [m])
  refine balancedEnqueue control [m] ?_ (fun sid => ?_) ⟨rfl,rfl⟩ (fun sid => ?_)
  · simp [total,empty.1]
  · simp [total,empty.2.1 sid]
  · simp [total,empty.2.2 sid]

theorem balancedTransmit {control : Bool} (moved : x.transmit control = some y) : Balanced x y := by
  have same (w : Msg → Int) : y.out w = x.out w ∧ y = {x with control := y.control,bulk := y.bulk,wire := y.wire} := by
    unfold transmit at moved
    split at moved <;> try contradiction
    split at moved <;> try contradiction
    rename_i m rest queue
    cases Option.some.inj moved
    cases control <;> simp only [cond_true,cond_false] at queue <;>
      refine ⟨?_,rfl⟩ <;> simp only [out,cond_true,cond_false,totalPush] <;> rw [queue,totalCons] <;> omega
  have frame := (same Msg.pshBytes).2
  refine ⟨?_,?_,fun sid => ?_,fun sid _ => ?_⟩
  · unfold unreturned
    rw [(same _).1,frame]
  · unfold returning
    rw [(same _).1,frame]
  · unfold unreturnedOn
    rw [(same _).1,frame]
  · unfold returningOn bufferedBytes
    rw [(same _).1,frame]

theorem balancedSubmit {i target data control} (moved : x.submit i target data control = some y) : Balanced x y := by
  obtain ⟨a,found,moved⟩ := Option.bind_eq_some_iff.mp moved
  split at moved <;> try contradiction
  rename_i covers
  obtain ⟨gate,submitted,rfl⟩ := Option.map_eq_some_iff.mp moved
  obtain ⟨_,pc,turns,rfl⟩ := submitMoves found submitted
  have length : ((target.getD []).length : Int) + data.length = a.len := by exact_mod_cast covers
  refine balancedEnqueue control _ ?_ (fun sid => ?_) ⟨rfl,rfl⟩ (fun sid => ?_)
  · rw [bytesSubmitted found turns,framesTotal a.sid Msg.pshBytes 1 (fun d => (Int.one_mul _).symm),length,Int.one_mul]
  · rw [bytesOnSubmitted found turns,framesTotal a.sid _ (bif a.sid == sid then 1 else 0) (fun d => ?_),length]
    · cases a.sid == sid <;> simp
    · cases same : a.sid == sid <;> simp [Msg.pshBytesOn,same]
  · rw [framesTotal a.sid _ 0 (fun d => by simp [Msg.credits]),Int.zero_mul]

theorem balancedTake {d rest} (here : x.buffered sid = d::rest) : Balanced x {x with
    buffered := Function.update x.buffered sid rest
    taken := Function.update x.taken sid (x.taken sid + d.length)} := by
  refine ⟨rfl,rfl,fun _ => rfl,fun on _ => ?_⟩
  by_cases mine : on = sid
  · subst mine
    simp only [returningOn,bufferedBytes,Function.update_self,here,totalCons]
    simp only [out]
    push_cast
    omega
  · simp only [returningOn,bufferedBytes,Function.update_of_ne mine]
    rfl

theorem balancedCount (len count : Nat) (frames : List Msg) (stream : sid ≠ 0)
    (silent : total Msg.pshBytes frames = 0 ∧ ∀ on, total (Msg.pshBytesOn on) frames = 0)
    (elsewhere : ∀ on, on ≠ sid → total (Msg.credits on) frames = 0)
    (counts : count + total (Msg.credits sid) frames = x.streamConsumed sid + len) :
    Balanced x ({x with
      noted := Function.update x.noted sid (x.noted sid + len)
      streamConsumed := Function.update x.streamConsumed sid count}.enqueue true frames) := by
  refine ⟨?_,?_,fun on => ?_,fun on _ => ?_⟩
  · simp only [unreturned,outEnqueue,enqueueGate,silent.1]
    simp only [out]
    omega
  · simp only [returning,outEnqueue,enqueueConsumed,elsewhere 0 (Ne.symm stream)]
    simp only [out]
    omega
  · simp only [unreturnedOn,outEnqueue,enqueueGate,enqueueIgnored,silent.2 on]
    simp only [out]
    omega
  · simp only [returningOn,bufferedBytes,outEnqueue,enqueueBuffered,enqueueTaken,enqueueNoted,enqueueDropped,
      enqueueStreamConsumed]
    simp only [out]
    by_cases mine : on = sid
    · subst mine
      simp only [Function.update_self,Int.natCast_add]
      omega
    · simp only [Function.update_of_ne mine,elsewhere on mine]
      omega

theorem balancedNote {len accepted} (fits : x.streamConsumed sid + len ≤ maxU32)
    (moved : ReaderMove x (.note sid len accepted) y) : Balanced x y := by
  have exact : (x.streamConsumed sid + len) % 2^64 = x.streamConsumed sid + len := by
    unfold maxU32 at fits
    omega
  cases moved with
  | same quiet same => contradiction
  | @note _ _ _ count frames stream room counted =>
    rw [exact] at counted
    rcases counted with ⟨rfl,_,rfl⟩ | ⟨rfl,rfl⟩
    · exact balancedCount len _ [] stream ⟨rfl,fun _ => rfl⟩ (fun _ _ => rfl) (Int.add_zero _)
    · refine balancedCount len 0 _ stream ⟨rfl,fun _ => rfl⟩ (fun on away => ?_) ?_
      · simp [total,Msg.credits,beq_eq_false_iff_ne.mpr (Ne.symm away)]
      · simp only [total,Msg.credits,List.map_cons,List.map_nil,List.sum_cons,List.sum_nil,beq_self_eq_true,cond_true]
        omega

theorem localBalanced {isClient : Bool} {a : LocalAction} (moved : x.localStep isClient a = some y)
    (fits : ∀ {sid len accepted}, a = .note sid len accepted → x.streamConsumed sid + len ≤ maxU32) : Balanced x y := by
  have within (pc : GatePc) (undone : pc.sent = false) : pc.sent = false := undone
  cases a with
  | gate b =>
    simp only [localStep] at moved
    split at moved <;> try contradiction
    rename_i own
    obtain ⟨gate,stepped,rfl⟩ := Option.map_eq_some_iff.mp moved
    have m := ownMoves own stepped
    exact balancedGate (totalOwn (sentWeightBytes within) m.tasks)
      (fun sid => totalOwn (sentWeightBytesOn within sid) m.tasks) ⟨m.connGranted,m.granted⟩
  | write sid len =>
    obtain ⟨gate,stepped,rfl⟩ := Option.map_eq_some_iff.mp moved
    obtain ⟨pc,opens,rfl⟩ := writeMoves stepped
    have undone := opensUndone opens
    refine balancedGate ?_ (fun on => ?_) ⟨rfl,rfl⟩
    · show total _ (_ ++ [_]) = _
      rw [totalPush,(sentWeightBytes within).undone undone,Int.add_zero]
      rfl
    · show total _ (_ ++ [_]) = _
      rw [totalPush,(sentWeightBytesOn within on).undone undone,Int.add_zero]
      rfl
  | submit i target data control => exact balancedSubmit moved
  | send control fc =>
    simp only [localStep] at moved
    split at moved <;> try contradiction
    cases Option.some.inj moved
    exact balancedSend control ⟨rfl,fun _ => rfl,fun _ => rfl⟩
  | sendOther control =>
    simp only [localStep] at moved
    split at moved <;> try contradiction
    cases Option.some.inj moved
    exact balancedSend control ⟨rfl,fun _ => rfl,fun _ => rfl⟩
  | transmit control => exact balancedTransmit moved
  | register sid =>
    cases Option.some.inj moved
    exact ⟨rfl,rfl,fun _ => rfl,fun _ _ => rfl⟩
  | unregister sid =>
    cases Option.some.inj moved
    exact ⟨rfl,rfl,fun _ => rfl,fun _ _ => rfl⟩
  | take sid =>
    cases readerMoves moved with
    | same quiet same => contradiction
    | take here => exact balancedTake here
  | note sid len accepted => exact balancedNote (fits rfl) (readerMoves moved)

end Balanced

structure Handles (m : Msg) (x y : Side) : Prop where
  unreturned : y.unreturned = x.unreturned - m.credits 0
  returning : y.returning = x.returning + m.pshBytes
  unreturnedOn : ∀ sid, sid ≠ 0 → y.unreturnedOn sid = x.unreturnedOn sid - m.credits sid
  returningOn : ∀ sid, sid ≠ 0 → y.returningOn sid = x.returningOn sid + m.pshBytesOn sid

inductive Reads (x : Side) : Msg → Window.Action → Prop where
  | connCredit {increment} : Reads x (.windowUpdate 0 increment) (.reader (.connCredit increment))
  | streamCredit {sid increment} (stream : sid ≠ 0) (registered : x.registered sid = true) :
      Reads x (.windowUpdate sid increment) (.reader (.streamCredit sid increment))
  | settings {fc} : Reads x (.settings fc) (.reader (.settings fc))

inductive FrameMove (x : Side) (kept accepted : Bool) : Msg → Side → Prop where
  | psh {sid payload count frames} (counted : count = min (x.consumed + payload.length) maxU64 ∧
          count < connWuThreshold ∧ frames = [] ∨
        count = min (min (x.consumed + payload.length) maxU64) maxU32 ∧ accepted = false ∧ frames = [] ∨
        count = 0 ∧ accepted = true ∧
          frames = [.windowUpdate 0 (min (min (x.consumed + payload.length) maxU64) maxU32)]) :
      FrameMove x kept accepted (.psh sid payload) (({x with consumed := count}.enqueue true frames).store sid payload kept)
  | gate {m b gate} (reads : Reads x m b) (stepped : Window.step x.gate b = some gate) :
      FrameMove x kept accepted m {x with gate := gate}
  | gone {sid increment} (stream : sid ≠ 0) (gone : x.registered sid = false) :
      FrameMove x kept accepted (.windowUpdate sid increment)
        {x with ignored := Function.update x.ignored sid (x.ignored sid + increment)}
  | other : FrameMove x kept accepted .other x

section FrameMove
variable {x y : Side} {kept accepted : Bool} {m : Msg}

theorem connReceived {len : Nat} (moved : x.noteConnReceived len accepted = some y) :
    ∃ (count : Nat) (frames : List Msg), y = {x with consumed := count}.enqueue true frames ∧
      (count = min (x.consumed + len) maxU64 ∧ count < connWuThreshold ∧ frames = [] ∨
        count = min (min (x.consumed + len) maxU64) maxU32 ∧ accepted = false ∧ frames = [] ∨
        count = 0 ∧ accepted = true ∧ frames = [.windowUpdate 0 (min (min (x.consumed + len) maxU64) maxU32)]) := by
  have plain (count : Nat) : {x with consumed := count} = ({x with consumed := count} : Side).enqueue true [] := by
    simp only [enqueue,cond_true,List.append_nil]
  simp only [noteConnReceived,bumpConnConsumed] at moved
  by_cases due : min (x.consumed + len) maxU64 ≥ connWuThreshold
  · simp only [due,if_true] at moved
    cases accepted
    · cases Option.some.inj moved
      exact ⟨_,[],plain _,.inr (.inl ⟨Nat.zero_add _,rfl,rfl⟩)⟩
    · simp only [cond_true,sendWindowUpdate] at moved
      split at moved <;> try contradiction
      cases Option.some.inj moved
      exact ⟨0,_,rfl,.inr (.inr ⟨rfl,rfl,rfl⟩)⟩
  · simp only [due,if_false] at moved
    cases Option.some.inj moved
    exact ⟨_,[],plain _,.inl ⟨rfl,Nat.not_le.mp due,rfl⟩⟩

theorem frameMoves (moved : x.handleFrame kept accepted m = some y) : FrameMove x kept accepted m y := by
  cases m with
  | psh sid payload =>
    simp only [handleFrame] at moved
    split at moved <;> try contradiction
    obtain ⟨z,received,rfl⟩ := Option.map_eq_some_iff.mp moved
    obtain ⟨count,frames,rfl,counted⟩ := connReceived received
    exact .psh counted
  | windowUpdate sid increment =>
    simp only [handleFrame] at moved
    split at moved
    · rename_i conn
      subst conn
      obtain ⟨gate,stepped,rfl⟩ := Option.map_eq_some_iff.mp moved
      exact .gate .connCredit stepped
    · rename_i stream
      split at moved
      · rename_i registered
        obtain ⟨gate,stepped,rfl⟩ := Option.map_eq_some_iff.mp moved
        exact .gate (.streamCredit stream registered) stepped
      · rename_i gone
        split at moved <;> try contradiction
        cases Option.some.inj moved
        exact .gone stream (Bool.not_eq_true _ ▸ gone)
  | settings fc =>
    obtain ⟨gate,stepped,rfl⟩ := Option.map_eq_some_iff.mp moved
    exact .gate .settings stepped
  | other =>
    simp only [handleFrame] at moved
    split at moved <;> try contradiction
    cases Option.some.inj moved
    exact .other

end FrameMove

section Handles
variable {x y : Side} {kept accepted : Bool} {m : Msg}

theorem storeHandles (x : Side) (sid : StreamId) (payload : Payload) (kept : Bool) :
    (x.store sid payload kept).unreturned = x.unreturned ∧ (x.store sid payload kept).returning = x.returning ∧
    (∀ on, (x.store sid payload kept).unreturnedOn on = x.unreturnedOn on) ∧
    ∀ on, (x.store sid payload kept).returningOn on = x.returningOn on + (Msg.psh sid payload).pshBytesOn on := by
  refine ⟨?_,?_,fun on => ?_,fun on => ?_⟩
  · cases kept <;> rfl
  · cases kept <;> rfl
  · cases kept <;> rfl
  · by_cases mine : on = sid
    · subst mine
      cases kept <;> simp only [store,cond_true,cond_false,returningOn,bufferedBytes,Msg.pshBytesOn,
        Function.update_self,totalPush,beq_self_eq_true,Int.natCast_add] <;> simp only [out] <;> omega
    · cases kept <;> simp only [store,cond_true,cond_false,returningOn,bufferedBytes,Msg.pshBytesOn,
        Function.update_of_ne mine,beq_eq_false_iff_ne.mpr (Ne.symm mine)] <;> simp only [out] <;> omega

theorem handlesPsh {sid payload count frames} (bytes : total Msg.pshBytes frames = 0)
    (bytesOn : ∀ on, total (Msg.pshBytesOn on) frames = 0) (credits : ∀ on, on ≠ 0 → total (Msg.credits on) frames = 0)
    (counts : (count : Nat) + total (Msg.credits 0) frames = x.consumed + payload.length) :
    Handles (.psh sid payload) x (({x with consumed := count}.enqueue true frames).store sid payload kept) := by
  obtain ⟨unreturned,returning,unreturnedOn,returningOn⟩ :=
    storeHandles ({x with consumed := count}.enqueue true frames) sid payload kept
  refine ⟨?_,?_,fun on _ => ?_,fun on stream => ?_⟩
  · rw [unreturned]
    simp only [Side.unreturned,outEnqueue,enqueueGate,bytes,Msg.credits]
    simp only [out]
    omega
  · rw [returning]
    simp only [Side.returning,outEnqueue,enqueueConsumed,Msg.pshBytes]
    simp only [out]
    omega
  · rw [unreturnedOn on]
    simp only [Side.unreturnedOn,outEnqueue,enqueueGate,enqueueIgnored,bytesOn on,Msg.credits]
    simp only [out]
    omega
  · rw [returningOn on]
    simp only [Side.returningOn,bufferedBytes,outEnqueue,enqueueBuffered,enqueueTaken,enqueueNoted,enqueueDropped,
      enqueueStreamConsumed,credits on stream]
    simp only [out]
    omega

theorem handlesGate {b gate} (reads : Reads x m b) (stepped : Window.step x.gate b = some gate) :
    Handles m x {x with gate := gate} := by
  cases reads with
  | connCredit =>
    simp only [Window.step,Gate.readStep] at stepped
    split at stepped <;> try contradiction
    cases Option.some.inj stepped
    refine ⟨?_,(Int.add_zero _).symm,fun on stream => ?_,fun _ _ => (Int.add_zero _).symm⟩
    · simp only [unreturned,Msg.credits,beq_self_eq_true,cond_true]
      simp only [out,Gate.bytes]
      omega
    · simp only [Msg.credits,beq_eq_false_iff_ne.mpr (Ne.symm stream),cond_false,Int.sub_zero]
      rfl
  | @streamCredit sid increment stream registered =>
    simp only [Window.step,Gate.readStep] at stepped
    split at stepped <;> try contradiction
    cases Option.some.inj stepped
    refine ⟨?_,(Int.add_zero _).symm,fun on _ => ?_,fun _ _ => (Int.add_zero _).symm⟩
    · simp only [Msg.credits,beq_eq_false_iff_ne.mpr stream,cond_false,Int.sub_zero]
      rfl
    · by_cases mine : on = sid
      · subst mine
        simp only [unreturnedOn,Msg.credits,beq_self_eq_true,cond_true,Function.update_self]
        simp only [out,Gate.bytesOn]
        omega
      · simp only [unreturnedOn,Msg.credits,beq_eq_false_iff_ne.mpr (Ne.symm mine),cond_false,
          Function.update_of_ne mine,Int.sub_zero]
        rfl
  | settings =>
    simp only [Window.step,Gate.readStep] at stepped
    split at stepped <;> try contradiction
    cases Option.some.inj stepped
    exact ⟨(Int.sub_zero _).symm,(Int.add_zero _).symm,fun _ _ => (Int.sub_zero _).symm,fun _ _ => (Int.add_zero _).symm⟩

theorem frameHandles (fits : x.consumed + m.pshBytes ≤ maxU32) (moved : FrameMove x kept accepted m y) :
    Handles m x y := by
  cases moved with
  | @psh sid payload count frames counted =>
    simp only [Msg.pshBytes] at fits
    have exact : min (x.consumed + payload.length) maxU64 = x.consumed + payload.length := by
      unfold maxU32 at fits
      unfold maxU64
      omega
    have capped : min (x.consumed + payload.length) maxU32 = x.consumed + payload.length := by omega
    rw [exact,capped] at counted
    rcases counted with ⟨rfl,_,rfl⟩ | ⟨rfl,_,rfl⟩ | ⟨rfl,_,rfl⟩
    · exact handlesPsh rfl (fun _ => rfl) (fun _ _ => rfl) (Int.add_zero _)
    · exact handlesPsh rfl (fun _ => rfl) (fun _ _ => rfl) (Int.add_zero _)
    · refine handlesPsh rfl (fun _ => rfl) (fun on stream => ?_) (by simp [total,Msg.credits])
      simp [total,Msg.credits,beq_eq_false_iff_ne.mpr (Ne.symm stream)]
  | gate reads stepped => exact handlesGate reads stepped
  | @gone sid increment stream gone =>
    refine ⟨?_,(Int.add_zero _).symm,fun on _ => ?_,fun _ _ => (Int.add_zero _).symm⟩
    · simp only [Msg.credits,beq_eq_false_iff_ne.mpr stream,cond_false,Int.sub_zero]
      rfl
    · by_cases mine : on = sid
      · subst mine
        simp only [unreturnedOn,Msg.credits,beq_self_eq_true,cond_true,Function.update_self,Int.natCast_add]
        simp only [out]
        omega
      · simp only [unreturnedOn,Msg.credits,beq_eq_false_iff_ne.mpr (Ne.symm mine),cond_false,
          Function.update_of_ne mine,Int.sub_zero]
        rfl
  | other =>
    exact ⟨(Int.sub_zero _).symm,(Int.add_zero _).symm,fun _ _ => (Int.sub_zero _).symm,fun _ _ => (Int.add_zero _).symm⟩

end Handles

end Side

inductive LinkMove (s : State) : Action → State → Prop where
  | own {p a y} (moved : (s p).localStep p a = some y) : LinkMove s (.own p a) (Function.update s p y)
  | receive {p kept accepted m rest y} (wire : (s (!p)).wire = m::rest)
      (moved : (s p).handleFrame kept accepted m = some y) :
      LinkMove s (.receive p kept accepted) (Function.update (Function.update s (!p) {s (!p) with wire := rest}) p y)

theorem linkMoves {s t : State} {a : Action} (moved : step s a = some t) : LinkMove s a t := by
  cases a with
  | own p a =>
    obtain ⟨y,here,rfl⟩ := Option.map_eq_some_iff.mp moved
    exact .own here
  | receive p kept accepted =>
    simp only [step] at moved
    split at moved <;> try contradiction
    rename_i m rest wire
    obtain ⟨y,here,rfl⟩ := Option.map_eq_some_iff.mp moved
    exact .receive wire here

section Sides
variable {s : State} {p : Bool}

theorem updatePeer (x : Side) : Function.update s p x (!p) = s (!p) :=
  Function.update_of_ne (Bool.not_ne_self p) _ _

theorem sidesMoved {R : Side → Side → Prop} {x : Side} (forth : R x (s (!p))) (back : R (s (!p)) x) (q : Bool) :
    R (Function.update s p x q) (Function.update s p x (!q)) := by
  rcases Bool.eq_or_eq_not q p with rfl | rfl
  · rw [Function.update_self,updatePeer]
    exact forth
  · rw [Bool.not_not,Function.update_self,updatePeer]
    exact back

theorem sidesBothMoved {R : Side → Side → Prop} {x y : Side} (forth : R x y) (back : R y x) (q : Bool) :
    R (Function.update (Function.update s (!p) y) p x q) (Function.update (Function.update s (!p) y) p x (!q)) := by
  refine sidesMoved ?_ ?_ q
  · rw [Function.update_self]
    exact forth
  · rw [Function.update_self]
    exact back

end Sides

/- One direction: what `x` sent and `y` received is where it is said to be. -/
structure Conserved (x y : Side) : Prop where
  conn : x.unreturned = y.returning
  stream : ∀ sid, sid ≠ 0 → x.unreturnedOn sid = y.returningOn sid

section Conserved
variable {x x' y y' : Side} {m : Msg} {rest : List Msg}

theorem conservedOwn (conserved : Conserved x y) (sender : Side.Balanced x x') (receiver : Side.Balanced y y') :
    Conserved x' y' := by
  refine ⟨?_,fun sid stream => ?_⟩
  · rw [sender.unreturned,receiver.returning]
    exact conserved.conn
  · rw [sender.unreturnedOn sid,receiver.returningOn sid stream]
    exact conserved.stream sid stream

theorem balancedRefl (x : Side) : Side.Balanced x x := ⟨rfl,rfl,fun _ => rfl,fun _ _ => rfl⟩

theorem conservedBack (conserved : Conserved x y) (wire : y.wire = m::rest) (handles : Side.Handles m x x') :
    Conserved x' {y with wire := rest} := by
  refine ⟨?_,fun sid stream => ?_⟩
  · have was := conserved.conn
    have here := handles.unreturned
    show _ = (y.consumed : Int) + _
    rw [Side.outPopped wire]
    unfold Side.returning at was
    omega
  · have was := conserved.stream sid stream
    have here := handles.unreturnedOn sid stream
    show _ = y.bufferedBytes sid + (y.taken sid - y.noted sid) + y.dropped sid + y.streamConsumed sid + _
    rw [Side.outPopped wire]
    unfold Side.returningOn at was
    omega

theorem conservedForth (conserved : Conserved y x) (wire : y.wire = m::rest) (handles : Side.Handles m x x') :
    Conserved {y with wire := rest} x' := by
  refine ⟨?_,fun sid stream => ?_⟩
  · have was := conserved.conn
    have here := handles.returning
    show y.gate.bytes _ - _ - y.gate.connGranted = _
    rw [Side.outPopped wire]
    unfold Side.unreturned at was
    omega
  · have was := conserved.stream sid stream
    have here := handles.returningOn sid stream
    show y.gate.bytesOn _ sid - _ - y.gate.granted sid - y.ignored sid = _
    rw [Side.outPopped wire]
    unfold Side.unreturnedOn at was
    omega

end Conserved

end KanoTls.Link
