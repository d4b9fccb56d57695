import KanoTls.OneWayBytes
import KanoTls.ReceiveHeard

/-! The streams behind one direction. A stream hears every payload that is handled after it was
opened, so what is read of it was submitted by the other end, in that order. -/
namespace KanoTls.OneWay
open Machine Wire Writer
open Receive (Session isTask taskFrame atSynLoop synQuiet synServer frameQuiet frameHeard openedHeard)

def pushes (sid : Nat) (frames : List Frame) : List Bytes :=
  (frames.filter (fun f => f.cmd == cmdPsh && f.sid == sid)).map (·.payload)

section Pushes
variable {sid : Nat} {front back : List Frame} {f : Frame}

theorem pushesAppend (sid : Nat) (front back : List Frame) : pushes sid (front ++ back) = pushes sid front ++ pushes sid back := by
  rw [pushes,List.filter_append,List.map_append]
  rfl

theorem pushesOne (psh : f.cmd = cmdPsh) : pushes f.sid [f] = [f.payload] := by
  simp [pushes,psh]

theorem pushesOther (other : f.cmd ≠ cmdPsh ∨ f.sid ≠ sid) : pushes sid [f] = [] := by
  rcases other with other | other <;> simp [pushes,other]

theorem pushesStream (sid : Nat) (frames : List Frame) : pushes sid frames = pushes sid (ofStream sid frames) := by
  rw [pushes,pushes,ofStream,List.filter_filter]
  congr 2
  funext f
  cases psh : f.cmd == cmdPsh with
  | false => simp
  | true => simp [tracked,psh]

theorem pushesFront (order : ofStream sid front <+: ofStream sid back) : pushes sid front <+: pushes sid back := by
  rw [pushesStream sid front,pushesStream sid back]
  exact (order.filter _).map _

end Pushes

section Heard
open Receive (view target)
variable {noise : Record.Noise} {okw : Writer.State → Writer.Action → Prop} {okr : Session → Receive.Action → Prop} {e : Setup}
  {s t : Path} {l : Label} {sid : Nat}

/- What a stream has heard of the frames that were handled: all since it was opened. -/
structure Heard (sid : Nat) (s : Path) : Prop where
  hand : (view s.session sid).hand <:+ pushes sid s.handled
  arrived : (s.session.stream sid).arrived <:+ pushes sid s.handled
  unopened : (s.session.stream sid).opened = false → (s.session.stream sid).arrived = []

def Timely (sid : Nat) (s t : Path) : Prop :=
  (s.session.stream sid).opened = false → (t.session.stream sid).opened = true → pushes sid s.handled = []

def Complete (sid : Nat) (s : Path) : Prop :=
  (s.session.stream sid).opened = true → (s.session.stream sid).arrived = pushes sid s.handled

theorem sessionHeard {session : Session} {a : Receive.Action} (heard : Heard sid s) (plain : ∀ f queued, a ≠ .frame f queued)
    (moved : Receive.step s.session a = some session) : Heard sid {s with session := session} ∧
      (Timely sid s {s with session := session} → Complete sid s → Complete sid {s with session := session}) := by
  by_cases here : target s.session a = some sid
  · by_cases task : isTask s.session a = true
    · have same := taskFrame task moved here
      refine ⟨⟨?_,same.arrived ▸ heard.arrived,?_⟩,?_⟩
      · rcases same.hand with still | none
        · exact still ▸ heard.hand
        · exact none ▸ List.nil_suffix
      · intro unopened
        exact same.arrived.trans (heard.unopened (same.opened.symm.trans unopened))
      · intro _ complete opened
        exact same.arrived.trans (complete (same.opened.symm.trans opened))
    · cases a with
      | frame f queued => exact absurd rfl (plain f queued)
      | openStream k =>
        cases Option.some.inj here
        obtain ⟨fresh,arrived,hand,opened⟩ := openedHeard moved
        refine ⟨⟨hand ▸ heard.hand,arrived ▸ heard.hand,?_⟩,?_⟩
        · intro unopened
          exact absurd (opened.symm.trans unopened) Bool.false_ne_true.symm
        · intro timely _ _
          have none := timely fresh opened
          have empty := heard.hand
          rw [none] at empty
          exact arrived.trans ((List.eq_nil_of_suffix_nil empty).trans none.symm)
      | loop =>
        obtain ⟨⟨k,queued⟩,stands⟩ := atSynLoop task
        obtain ⟨same,none,fresh,_⟩ := synQuiet stands moved sid
        refine ⟨⟨none ▸ List.nil_suffix,same ▸ heard.arrived,fun unopened => same.trans (heard.unopened (fresh unopened))⟩,?_⟩
        intro timely complete now
        show (session.stream sid).arrived = pushes sid s.handled
        rw [same]
        cases was : (s.session.stream sid).opened with
        | true => exact complete was
        | false => rw [heard.unopened was,timely was now]
      | _ => exact absurd rfl task
  · have same : view session sid = view s.session sid := Receive.stepApart moved here
    have stream : session.stream sid = s.session.stream sid := congrArg Receive.View.st same
    refine ⟨⟨same ▸ heard.hand,stream ▸ heard.arrived,stream ▸ heard.unopened⟩,?_⟩
    intro _ complete
    rw [Complete,stream]
    exact complete

theorem handlesOf {f : Frame} {seen : Receive.Frame} (is : handleFrame f = some seen) :
    (f.cmd = cmdPsh ∧ seen = .psh f.sid f.payload) ∨ (f.cmd ≠ cmdPsh ∧ ∀ k payload, seen ≠ .psh k payload) := by
  unfold handleFrame at is
  by_cases psh : f.cmd = cmdPsh
  · rw [if_pos psh] at is
    exact .inl ⟨psh,(Option.some.inj is).symm⟩
  · rw [if_neg psh] at is
    refine .inr ⟨psh,?_⟩
    repeat' split at is
    all_goals first | contradiction | (cases Option.some.inj is; exact fun k payload same => by cases same)

theorem pushesKept (sid : Nat) {f : Frame} (other : f.cmd ≠ cmdPsh ∨ f.sid ≠ sid) (frames : List Frame) :
    pushes sid (frames ++ [f]) = pushes sid frames := by
  rw [pushesAppend,pushesOther other,List.append_nil]

theorem handledHeard {session : Session} {loop : ReadLoop.Reader} {f : Frame} {queued : Bool} (heard : Heard sid s)
    (sees : (∃ seen, handleFrame f = some seen ∧ Receive.step s.session (.frame seen queued) = some session) ∨
      handleFrame f = none ∧ session = s.session) :
    Heard sid {s with loop := loop,session := session,handled := s.handled ++ [f]} ∧
      (Timely sid s {s with loop := loop,session := session,handled := s.handled ++ [f]} → Complete sid s →
        Complete sid {s with loop := loop,session := session,handled := s.handled ++ [f]}) := by
  obtain ⟨seen,is,stepped⟩ | ⟨unseen,rfl⟩ := sees
  · obtain ⟨idle,stepped⟩ := Option.ite_none_right_eq_some.mp stepped
    obtain ⟨psh,rfl⟩ | ⟨other,plain⟩ := handlesOf is
    · obtain ⟨opened,hand,arrived,apart⟩ := frameHeard stepped
      by_cases mine : sid = f.sid
      · subst mine
        have more : pushes f.sid (s.handled ++ [f]) = pushes f.sid s.handled ++ [f.payload] := by
          rw [pushesAppend,pushesOne psh]
        refine ⟨⟨?_,?_,?_⟩,?_⟩
        · show (view session f.sid).hand <:+ pushes f.sid (s.handled ++ [f])
          rw [hand,more]
          exact List.suffix_append _ _
        · show (session.stream f.sid).arrived <:+ pushes f.sid (s.handled ++ [f])
          rw [arrived,more]
          cases open' : (s.session.stream f.sid).opened with
          | true =>
            obtain ⟨front,same⟩ := heard.arrived
            exact ⟨front,by rw [if_pos rfl,← List.append_assoc,same]⟩
          | false =>
            rw [heard.unopened open']
            exact List.nil_suffix
        · intro unopened
          have was := (opened f.sid).symm.trans unopened
          rw [arrived,heard.unopened was,was]
          rfl
        · intro _ complete now
          have was := (opened f.sid).symm.trans now
          show (session.stream f.sid).arrived = pushes f.sid (s.handled ++ [f])
          rw [arrived,complete was,was,more]
          rfl
      · obtain ⟨same,none⟩ := apart sid mine
        have still := pushesKept sid (.inr (Ne.symm mine)) s.handled
        refine ⟨⟨?_,?_,?_⟩,?_⟩
        · exact none ▸ List.nil_suffix
        · show (session.stream sid).arrived <:+ pushes sid (s.handled ++ [f])
          rw [same,still]
          exact heard.arrived
        · intro unopened
          exact same.trans (heard.unopened ((opened sid).symm.trans unopened))
        · intro _ complete now
          exact same.trans ((complete ((opened sid).symm.trans now)).trans still.symm)
    · obtain ⟨same,none,fresh⟩ := frameQuiet (Option.isNone_iff_eq_none.mp idle) plain stepped sid
      have still := pushesKept sid (.inl other) s.handled
      refine ⟨⟨?_,?_,?_⟩,?_⟩
      · exact none ▸ List.nil_suffix
      · show (session.stream sid).arrived <:+ pushes sid (s.handled ++ [f])
        rw [same,still]
        exact heard.arrived
      · intro unopened
        exact same.trans (heard.unopened (fresh unopened))
      · intro timely complete now
        show (session.stream sid).arrived = pushes sid (s.handled ++ [f])
        rw [same,still]
        cases was : (s.session.stream sid).opened with
        | true => exact complete was
        | false => rw [heard.unopened was,timely was now]
  · have other : f.cmd ≠ cmdPsh := by
      intro psh
      rw [handleFrame,if_pos psh] at unseen
      contradiction
    have still := pushesKept sid (.inl other) s.handled
    exact ⟨⟨still ▸ heard.hand,still ▸ heard.arrived,heard.unopened⟩,fun _ complete now => (complete now).trans still.symm⟩

theorem heardKept (heard : Heard sid s) (moved : PathMove noise s l t) :
    Heard sid t ∧ (Timely sid s t → Complete sid s → Complete sid t) := by
  cases moved with
  | frame _ found turned sees => exact handledHeard heard sees
  | session plain stepped => exact sessionHeard heard plain stepped
  | _ => exact ⟨⟨heard.hand,heard.arrived,heard.unopened⟩,fun _ complete => complete⟩

theorem heardRun (run : Run noise okw okr e s) : Heard sid s := by
  refine reachInvariant ⟨List.nil_suffix,List.nil_suffix,fun _ => rfl⟩ ?_ run
  intro s l t heard _ moved
  exact (heardKept heard (pathMoves moved)).1

end Heard

section Opens
variable {noise : Record.Noise} {okw : Writer.State → Writer.Action → Prop} {okr : Session → Receive.Action → Prop} {e : Setup}
  {s t : Path} {l : Label} {sid : Nat}
open Receive.Session

theorem frameOpened {s t : Session} {queued : Bool} {seen : Receive.Frame} (moved : s.handleFrame queued seen = some t) (sid : Nat) :
    (t.stream sid).opened = (s.stream sid).opened := by
  have set {k : Nat} {st : Receive.Stream} (same : st.opened = (s.stream k).opened) :
      ((s.setStream k st).stream sid).opened = (s.stream sid).opened := by
    by_cases here : sid = k
    · subst here
      simp [setStream,same]
    · simp [setStream,here]
  cases seen with
  | psh k payload => exact (frameHeard moved).1 sid
  | fin k =>
    cases Option.some.inj moved
    exact set rfl
  | windowUpdate k =>
    simp only [Session.handleFrame] at moved
    split at moved <;> cases Option.some.inj moved
    · exact set rfl
    · rfl
  | syn k =>
    simp only [Session.handleFrame] at moved
    split at moved <;> cases Option.some.inj moved <;> rfl
  | _ =>
    cases Option.some.inj moved
    rfl

theorem opensBy (moved : PathMove noise s l t) (was : (s.session.stream sid).opened = false)
    (now : (t.session.stream sid).opened = true) :
    (∃ queued, l = .session .loop ∧ s.session.loop = some (sid,.syn queued) ∧ s.session.isClient = false) ∨
      l = .session (.openStream sid) ∧ s.session.isClient = true := by
  have still (same : (t.session.stream sid).opened = (s.session.stream sid).opened) : False :=
    absurd ((was.symm.trans same.symm).trans now) Bool.false_ne_true
  cases moved with
  | frame _ found turned sees =>
    obtain ⟨seen,is,stepped⟩ | ⟨_,rfl⟩ := sees
    · exact (still (frameOpened (Option.ite_none_right_eq_some.mp stepped).2 sid)).elim
    · exact (still rfl).elim
  | session plain stepped =>
    rename_i a session
    by_cases here : Receive.target s.session a = some sid
    · by_cases task : isTask s.session a = true
      · exact (still (taskFrame task stepped here).opened).elim
      · cases a with
        | frame f queued => exact absurd rfl (plain f queued)
        | openStream k =>
          cases Option.some.inj here
          obtain ⟨live,_⟩ := Option.ite_none_right_eq_some.mp stepped
          simp only [Bool.and_eq_true] at live
          exact .inr ⟨rfl,live.1.1⟩
        | loop =>
          obtain ⟨⟨k,queued⟩,stands⟩ := atSynLoop task
          have same : k = sid := by simpa [Receive.target,stands] using here
          subst same
          exact .inl ⟨queued,rfl,stands,synServer (Receive.synMoves stands stepped) was now⟩
        | _ => exact absurd rfl task
    · have same := congrArg Receive.View.st (Receive.stepApart stepped here)
      exact (still (congrArg Receive.Stream.opened same)).elim
  | _ => exact (still rfl).elim

theorem openedKept (moved : PathMove noise s l t) (was : (s.session.stream sid).opened = true) : (t.session.stream sid).opened = true := by
  cases moved with
  | frame _ found turned sees =>
    obtain ⟨seen,is,stepped⟩ | ⟨_,rfl⟩ := sees
    · exact (frameOpened (Option.ite_none_right_eq_some.mp stepped).2 sid).trans was
    · exact was
  | session plain stepped =>
    rename_i a session
    by_cases here : Receive.target s.session a = some sid
    · by_cases task : isTask s.session a = true
      · exact (taskFrame task stepped here).opened.trans was
      · cases a with
        | frame f queued => exact absurd rfl (plain f queued)
        | openStream k =>
          cases Option.some.inj here
          exact (openedHeard stepped).2.2.2
        | loop =>
          obtain ⟨_,stands⟩ := atSynLoop task
          by_contra shut
          exact absurd (((synQuiet stands stepped sid).2.2.1 (Bool.eq_false_iff.mpr shut)).symm.trans was) Bool.false_ne_true
        | _ => exact absurd rfl task
    · exact (congrArg (fun v => v.st.opened) (Receive.stepApart stepped here)).trans was
  | _ => exact was

def SynTaken (s : Path) : Prop :=
  ∀ k, (Receive.view s.session k).pc.any Receive.HandlerPc.atSyn = true →
    ∃ front f, s.handled = front ++ [f] ∧ f.cmd = cmdSyn ∧ f.sid = k

theorem atSynView {s : Session} {queued : Bool} (stands : s.loop = some (sid,.syn queued)) :
    (Receive.view s sid).pc.any Receive.HandlerPc.atSyn = true := by
  simp [Receive.view,onLoop,stands,Receive.HandlerPc.atSyn]

theorem reopensAt {s : Session} {a : Receive.Action} (again : Receive.event s a = .reopened) : s.isClient = false ∧
    ∃ k, (Receive.view s k).pc.any Receive.HandlerPc.atSyn = true ∧ (s.stream k).opened = true := by
  cases a with
  | loop =>
    simp only [Receive.event,Receive.loopEvent] at again
    repeat' split at again
    all_goals try contradiction
    rename_i k queued stands opens
    simp only [Receive.reopens,Bool.and_eq_true,Bool.not_eq_true',Bool.or_eq_false_iff] at opens
    exact ⟨opens.1.2.1,k,atSynView stands,opens.2⟩
  | reader k =>
    simp only [Receive.event,Receive.readerEvent] at again
    repeat' split at again
    all_goals contradiction
  | accept k =>
    simp only [Receive.event,Receive.acceptEvent] at again
    repeat' split at again
    all_goals contradiction
  | teardown k tombstone =>
    simp only [Receive.event,Receive.teardownEvent] at again
    repeat' split at again
    all_goals contradiction
  | _ => contradiction

theorem frameAtSyn {s t : Session} {queued : Bool} {seen : Receive.Frame} {k : Nat} (idle : s.loop = none)
    (moved : s.handleFrame queued seen = some t) (here : (Receive.view t k).pc.any Receive.HandlerPc.atSyn = true) : seen = .syn k := by
  have away (same : t.loop = none) : False := by simp [Receive.view,onLoop,same] at here
  have other {j : Nat} {pc : Receive.HandlerPc} (off : pc.atSyn = false) (same : t.loop = some (j,pc)) : False := by
    by_cases mine : j = k <;> simp [Receive.view,onLoop,same,mine,off] at here
  cases seen with
  | psh j payload =>
    cases Option.some.inj moved
    exact (other rfl rfl).elim
  | fin j =>
    cases Option.some.inj moved
    exact (other (by cases s.isClient <;> rfl) rfl).elim
  | synack j reason =>
    cases Option.some.inj moved
    exact (other rfl rfl).elim
  | settings fc =>
    cases Option.some.inj moved
    exact (away idle).elim
  | windowUpdate j =>
    simp only [Session.handleFrame] at moved
    split at moved <;> cases Option.some.inj moved <;> exact (away idle).elim
  | syn j =>
    simp only [Session.handleFrame] at moved
    split at moved <;> cases Option.some.inj moved
    · exact (away idle).elim
    · by_cases mine : j = k
      · rw [mine]
      · simp [Receive.view,onLoop,goto,mine] at here

theorem atSynKept {k : Nat} (moved : PathMove noise s l t) (here : (Receive.view t.session k).pc.any Receive.HandlerPc.atSyn = true) :
    (s.session.isClient = false → (t.session.stream k).opened = (s.session.stream k).opened) ∧
      ((Receive.view s.session k).pc.any Receive.HandlerPc.atSyn = true ∧ t.handled = s.handled ∨
        ∃ f, t.handled = s.handled ++ [f] ∧ f.cmd = cmdSyn ∧ f.sid = k) := by
  cases moved with
  | frame idle found turned sees =>
    rename_i f loop session
    have idle : s.session.loop = none := Option.isNone_iff_eq_none.mp idle
    obtain ⟨seen,is,stepped⟩ | ⟨_,rfl⟩ := sees
    · have handled := (Option.ite_none_right_eq_some.mp stepped).2
      have same := frameAtSyn idle handled here
      refine ⟨fun _ => frameOpened handled k,.inr ⟨f,rfl,?_⟩⟩
      subst same
      unfold handleFrame at is
      repeat' split at is
      all_goals first | contradiction | cases Option.some.inj is
      exact ⟨‹_›,rfl⟩
    · simp [Receive.view,onLoop,idle] at here
  | session plain stepped =>
    rename_i a session
    by_cases mine : Receive.target s.session a = some k
    · by_cases task : isTask s.session a = true
      · have same := taskFrame task stepped mine
        exact ⟨fun _ => same.opened,.inl ⟨same.syn here ▸ here,rfl⟩⟩
      · cases a with
        | frame f queued => exact absurd rfl (plain f queued)
        | openStream j =>
          obtain ⟨live,moved⟩ := Option.ite_none_right_eq_some.mp stepped
          simp only [Bool.and_eq_true] at live
          cases Option.some.inj moved
          exact ⟨fun server => absurd (server.symm.trans live.1.1) Bool.false_ne_true,.inl ⟨here,rfl⟩⟩
        | loop =>
          obtain ⟨_,stands⟩ := atSynLoop task
          exact absurd ((synQuiet stands stepped k).2.2.2.symm.trans here) Bool.false_ne_true
        | _ => exact absurd rfl task
    · have same := Receive.stepApart stepped mine
      exact ⟨fun _ => congrArg (fun v => v.st.opened) same,.inl ⟨same ▸ here,rfl⟩⟩
  | _ => exact ⟨fun _ => rfl,.inl ⟨here,rfl⟩⟩

theorem synTakenKept (taken : SynTaken s) (moved : PathMove noise s l t) : SynTaken t := by
  intro k here
  obtain ⟨before,handled⟩ | ⟨f,handled,both⟩ := (atSynKept moved here).2
  · rw [handled]
    exact taken k before
  · exact ⟨s.handled,f,handled,both⟩

theorem synTakenRun (run : Run noise okw okr e s) : SynTaken s :=
  reachInvariant (fun _ none => absurd none Bool.false_ne_true) (fun taken _ moved => synTakenKept taken (pathMoves moved)) run

end Opens

section Delivered
open Receive (Meets PopsBehindChannel)
variable {noise : Record.Noise} {okr : Session → Receive.Action → Prop} {e : Setup} {s : Path} {sid : Nat}

theorem heardSubmitted (undoes : noise.Undoes) (run : Run noise Orderly okr e s) (sid : Nat) :
    pushes sid s.handled <+: pushes sid (framesOf s.writer.sent) := pushesFront (handledInOrder undoes run sid)

theorem deliveredSubmitted (undoes : noise.Undoes) (run : Run noise Orderly (Meets sid PopsBehindChannel) e s) :
    (s.session.stream sid).delivered.Sublist (pushes sid (framesOf s.writer.sent)) := by
  have order := (Receive.runInOrder (parts run).session).delivered
  have heard : Heard sid s := heardRun run
  exact (order.trans heard.arrived.sublist).trans (heardSubmitted undoes run sid).sublist

end Delivered

section Rest
open Receive (view)
variable {noise : Record.Noise} {okr : Session → Receive.Action → Prop} {e : Setup} {s : Path} {sid : Nat}

/- Nothing is under way: the writer waits without a request, every record went out and was opened,
and the read loop waits for more than the front of a frame. -/
structure Quiet (s : Path) : Prop where
  writer : AtRest s.writer
  prepared : s.finished = s.records.length
  flushed : s.link.w.buffer = [] ∧ s.link.wire = []
  polled : s.link.last = some .pending ∧ s.link.call = none
  unshut : s.link.alerted = false
  taken : s.read = s.link.returned.length
  decoded : (decodeBuffer s.loop.buf).1 = none
  handled : s.session.loop = none

/- The stream is open, and its reader has taken what there is. -/
structure Drained (s : Path) (sid : Nat) : Prop where
  live : (view s.session sid).live = true
  reader : (s.session.stream sid).reader.pc = .idle ∨ (s.session.stream sid).reader.pc = .parked
  channel : (s.session.stream sid).data = []
  pending : (view s.session sid).pending = []
  accept : (s.session.stream sid).accept.hand = []
  pre : (view s.session sid).preData = []

theorem quietHandled (undoes : noise.Undoes) (run : Run noise Orderly okr e s) (quiet : Quiet s) (sid : Nat) :
    ofStream sid s.handled = ofStream sid (framesOf s.writer.sent) := by
  have parts := parts run
  have joined := joinedRun run
  obtain ⟨x,held,ordered,_⟩ := orderKept parts.writer
  obtain ⟨select,empty⟩ := quiet.writer
  obtain ⟨_,noRest,whole⟩ := held.whole (by rw [select]; rfl)
  have inv := Record.runInv undoes parts.link
  have due := (Record.returnedDue undoes inv).2 quiet.polled.1 quiet.polled.2 quiet.flushed.2 quiet.flushed.1
  obtain ⟨later,sent,none⟩ := inv.sent
  rw [none quiet.unshut,List.append_nil] at sent
  have bytes : encodeAll s.handled ++ s.loop.buf = encodeAll x.log := by
    rw [joined.bytes,quiet.taken,List.take_length,due,sent,joined.sent,quiet.prepared,List.take_length,← whole]
    rfl
  obtain ⟨rest,same⟩ := encodedFront ⟨_,bytes⟩
  rw [← same,encodeAllAppend] at bytes
  have stuck := List.append_cancel_left bytes
  have nothing : rest = [] := by
    cases rest with
    | nil => rfl
    | cons f more =>
      have decoded := quiet.decoded
      rw [stuck,encodeAllCons,decodeBufferEq,decodeEncode] at decoded
      contradiction
  have line := ordered.line (by rw [select]; rfl) sid
  have flows : flow s.writer x = x.log := by
    rw [flow,select,noRest]
    simp [handOf,afterOf,drainOf]
  rw [flows,empty] at line
  rw [← line,← same,nothing]
  simp [framesOf]

theorem quietDelivered (undoes : noise.Undoes) (run : Run noise Orderly (Receive.Meets sid Receive.NoHole) e s) (quiet : Quiet s)
    (drained : Drained s sid) : (s.session.stream sid).delivered = (s.session.stream sid).arrived ∧
      pushes sid s.handled = pushes sid (framesOf s.writer.sent) := by
  have whole := Receive.runWhole (parts run).session
  have here : (view s.session sid).st.reader.pc ≠ .gone := by
    rcases drained.reader with pc | pc <;> exact fun gone => by cases (gone.symm.trans pc)
  have out : (view s.session sid).st.reader.pc.out = [] := by
    rcases drained.reader with pc | pc <;> exact (congrArg Receive.ReaderPc.out pc).trans rfl
  have off : (view s.session sid).pc = none := by simp [view,Receive.Session.onLoop,quiet.handled]
  have line := whole.full here drained.live
  refine ⟨?_,?_⟩
  · rw [Receive.View.core,out,drained.pending,show (view s.session sid).st.data = [] from drained.channel,
      show (view s.session sid).st.accept.hand = [] from drained.accept,drained.pre,Receive.View.mid,Receive.View.hand,off] at line
    simp only [Option.map_none,Option.getD_none,List.append_nil] at line
    exact line
  · rw [pushesStream,quietHandled undoes run quiet sid,← pushesStream]

end Rest

end KanoTls.OneWay
