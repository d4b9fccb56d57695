import KanoTls.ReceiveOrder

/-! What a run knows about a stream's FIN, whatever its order. A FIN before SYNACK
takes the SYNACK sender, so the flush of `flush_client_pending_stream` never finds a
FIN; a FIN that was read before the stream opened has no payload in front of it. -/
namespace KanoTls.Receive
open Pending Session

def HandlerPc.answered : HandlerPc → Bool
  | .psh .probe _ | .psh .probed _ | .psh .send _ | .psh .store _ | .psh .notify _ => true
  | .fin .store | .synack .probeData | .synack .probeFin | .synack (.reply _) | .flush _ => true
  | _ => false

def HandlerPc.replying : HandlerPc → Bool
  | .synack .probeData | .synack .probeFin | .synack (.reply _) | .flush _ => true
  | _ => false

def FlushPc.withFin : FlushPc → Bool
  | .send _ _ carried | .restore _ carried | .notify carried => carried
  | .fin | .unregister | .clear | .keepFin | .finNotify => true
  | _ => false

def HandlerPc.withFin : HandlerPc → Bool
  | .flush pc => pc.withFin
  | _ => false

/- A FIN before SYNACK takes the SYNACK sender, so no SYNACK flushes after it. -/
structure Pledge (v : View) : Prop where
  unanswered : ∀ h, v.st.handle = some h → h.synackTx = true → v.finPending = false ∧ v.st.data = []
  answered : ∀ pc, v.pc = some pc → pc.answered = true → ∀ h, v.st.handle = some h → h.synackTx = false
  flushing : ∀ pc, v.pc = some pc → pc.replying = true → v.finPending = false ∧ pc.withFin = false
  parked : v.st.reader.pc = .parked → v.st.reader.readClosed = false

section Pledge
variable {client : Bool} {v w : View} {e : Event}

theorem Pledge.untaken (pledge : Pledge v) {pc} (here : v.pc = some pc) (past : pc.answered = true)
    {h} (found : v.st.handle = some h) (waits : h.synackTx = true) : False :=
  absurd ((pledge.answered pc here past h found).symm.trans waits) Bool.false_ne_true

theorem servingAccept (shape : Shape client v) (busy : v.st.accept.settled = false) : client = false := by
  cases client
  · rfl
  · rw [shape.accepting.server rfl] at busy
    contradiction

theorem unansweredKept (shape : Shape client v) (pledge : Pledge v) (m : Move client v e w) {h}
    (found : w.st.handle = some h) (waits : h.synackTx = true) : w.finPending = false ∧ w.st.data = [] := by
  have known := pledge.unanswered
  cases m with
  | frame m =>
    cases m <;> first | exact known h found waits | skip
    case openStream fresh =>
      obtain ⟨st,_,fin,_⟩ := shape.fresh fresh
      exact ⟨fin,by rw [st]⟩
  | loop here m =>
    cases m with
    | psh m =>
      cases m <;> first | exact known h found waits | skip
      exact absurd waits (fun _ => pledge.untaken here rfl found waits)
    | close m => cases m <;> first | exact known h found waits | exact ⟨rfl,(known h found waits).2⟩ | contradiction
    | fin m =>
      cases m <;> first | exact known h found waits | skip
      case take => cases found; contradiction
      case store => exact absurd waits (fun _ => pledge.untaken here rfl found waits)
      case mark h' was => cases found; exact known h' was waits
    | synack m =>
      cases m <;> first | exact known h found waits | skip
      case take => cases found; contradiction
    | flush m =>
      cases m <;> first | contradiction | exact absurd waits (fun _ => pledge.untaken here rfl found waits)
  | syn here m => cases m <;> exact known h found waits
  | accept here m =>
    have serving := (servingKept shape (.accept here m) (servingAccept shape (acceptBusy here m))).handle h found
    exact absurd (serving.symm.trans waits) Bool.false_ne_true
  | reader here m =>
    obtain ⟨fin,data⟩ := known h ((readerFrame m).handle ▸ found) waits
    cases m <;> first | exact ⟨fin,data⟩ | exact ⟨rfl,data⟩ | skip
    case recvSome some => exact absurd (data.symm.trans some) (by simp)
    case wakeData some => exact absurd (data.symm.trans some) (by simp)
  | side m =>
    cases m <;> first | exact known h found waits | contradiction | skip
    case dropReadHalf handle _ marked =>
      rcases marked with rfl | rfl
      · exact ⟨(known h found waits).1,rfl⟩
      · obtain ⟨h',was,rfl⟩ := Option.map_eq_some_iff.mp found
        exact ⟨(known h' was waits).1,rfl⟩
    case removeFin => exact ⟨rfl,(known h found waits).2⟩
    case sweepFin => exact ⟨rfl,(known h found waits).2⟩

theorem answeredKept (shape : Shape client v) (pledge : Pledge v) (m : Move client v e w) {pc}
    (here' : w.pc = some pc) (past : pc.answered = true) {h} (found : w.st.handle = some h) : h.synackTx = false := by
  have known := pledge.answered
  cases m with
  | frame m =>
    cases m <;> first | exact known pc here' past h found | skip
    case openStream fresh =>
      have out := (shape.fresh fresh).outside pc here'
      cases pc with
      | psh pc => cases pc <;> contradiction
      | fin pc => cases pc <;> contradiction
      | synack pc => cases pc <;> contradiction
      | _ => contradiction
    case psh => cases here'; contradiction
    case pshUnknown => cases here'; contradiction
    case fin => cases here'; cases client <;> contradiction
    case synack => cases here'; contradiction
    case syn => cases here'; contradiction
  | loop here m =>
    cases m with
    | psh m =>
      cases m <;> first | exact known _ here rfl h found | contradiction | skip
      case deliver h' was answered _ =>
        cases Option.some.inj (was.symm.trans found)
        cases client
        · exact (shape.serving rfl).handle h was
        · exact answered rfl
      all_goals cases here'; contradiction
    | close m => cases m <;> first | contradiction | (cases here'; contradiction)
    | fin m =>
      cases m <;> first | contradiction | skip
      case take => cases found; rfl
      all_goals cases here'; contradiction
    | synack m =>
      cases m <;> first | exact known _ here rfl h found | contradiction | skip
      case take => cases found; rfl
    | flush m => cases m <;> first | exact known _ here rfl h found | contradiction
  | syn here m =>
    cases m <;> cases here'
    contradiction
  | accept here m =>
    exact (servingKept shape (.accept here m) (servingAccept shape (acceptBusy here m))).handle h found
  | reader here m => exact known pc ((readerFrame m).pc ▸ here') past h ((readerFrame m).handle ▸ found)
  | side m =>
    have was := known pc ((sideFrame m).pc ▸ here') past
    cases m <;> first | exact was h found | contradiction | skip
    case dropReadHalf handle _ marked =>
      rcases marked with rfl | rfl
      · exact was h found
      · obtain ⟨h',before,rfl⟩ := Option.map_eq_some_iff.mp found
        exact was h' before

theorem flushingKept (shape : Shape client v) (pledge : Pledge v) (m : Move client v e w) {pc}
    (here' : w.pc = some pc) (replying : pc.replying = true) : w.finPending = false ∧ pc.withFin = false := by
  have known := pledge.flushing
  cases m with
  | frame m =>
    cases m <;> first | exact known pc here' replying | skip
    case psh => cases here'; contradiction
    case pshUnknown => cases here'; contradiction
    case fin => cases here'; cases client <;> contradiction
    case synack => cases here'; contradiction
    case syn => cases here'; contradiction
  | loop here m =>
    cases m with
    | psh m => cases m <;> first | contradiction | (cases here'; contradiction)
    | close m => cases m <;> first | contradiction | (cases here'; contradiction)
    | fin m => cases m <;> first | contradiction | (cases here'; contradiction)
    | synack m =>
      cases m <;> first | contradiction | skip
      case take closed was =>
        cases here'
        exact ⟨(pledge.unanswered _ was rfl).1,rfl⟩
      case gone => cases here'; contradiction
      all_goals cases here'; exact ⟨(known _ here rfl).1,rfl⟩
    | flush m =>
      obtain ⟨fin,none⟩ := known _ here rfl
      cases m <;> first | contradiction | skip
      case takeFin => cases here'; exact ⟨rfl,fin⟩
      case gone => cases here'; contradiction
      all_goals cases here'; exact ⟨fin,none⟩
  | syn here m =>
    cases m <;> cases here'
    contradiction
  | accept here m =>
    have only := (shape.undispatched (acceptBusy here m) ((acceptFrame m).pc ▸ here')).2
    cases pc with
    | synack pc => cases pc <;> contradiction
    | flush => contradiction
    | _ => contradiction
  | reader here m =>
    obtain ⟨fin,none⟩ := known pc ((readerFrame m).pc ▸ here') replying
    refine ⟨?_,none⟩
    cases m <;> first | exact fin | rfl
  | side m =>
    obtain ⟨fin,none⟩ := known pc ((sideFrame m).pc ▸ here') replying
    refine ⟨?_,none⟩
    cases m <;> first | exact fin | rfl

theorem parkedKept (shape : Shape client v) (pledge : Pledge v) (m : Move client v e w)
    (parked : w.st.reader.pc = .parked) : w.st.reader.readClosed = false := by
  have known := pledge.parked
  cases m with
  | frame m => cases m <;> first | exact known parked | contradiction
  | loop here m => exact (loopFrame m).reader.2.trans (known ((loopFrame m).reader.1 ▸ parked))
  | syn here m => cases m <;> exact known parked
  | accept here m =>
    have absent := shape.accepting.absent (acceptBusy here m)
    cases m <;> first | contradiction | exact absurd (absent.symm.trans parked) ReaderPc.noConfusion
  | reader here m =>
    cases m <;> first | contradiction | assumption | skip
    cases client <;> contradiction
  | side m => cases m <;> first | exact known parked | contradiction

theorem pledgeKept (shape : Shape client v) (pledge : Pledge v) (m : Move client v e w) : Pledge w :=
  ⟨fun _ => unansweredKept shape pledge m,fun _ here past _ => answeredKept shape pledge m here past,
    fun _ => flushingKept shape pledge m,parkedKept shape pledge m⟩

theorem pledgeStart (client : Bool) (max : Nat) (sid : StreamId) : Pledge (view (start client max) sid) := by
  refine ⟨?_,?_,?_,?_⟩ <;> intros <;> contradiction

def View.waiting (v : View) : Bool := v.st.handle.any (·.synackTx)

theorem acceptedFrozen (shape : Shape client v) (m : Move client v e w) (seen : v.st.finSeen = true) :
    w.st.accepted = v.st.accepted ∧ w.st.finSeen = true := by
  have closed (payload : Payload) : (v.st.accepting payload).accepted = v.st.accepted := by
    simp [Stream.accepting,seen]
  cases m with
  | frame m =>
    cases m <;> first | exact ⟨rfl,seen⟩ | skip
    case openStream fresh =>
      rw [(shape.fresh fresh).st] at seen
      contradiction
    case fin => exact ⟨rfl,by simp [seen]⟩
  | loop here m =>
    refine ⟨?_,(loopFrame m).finSeen.trans seen⟩
    cases m with
    | psh m => cases m <;> first | rfl | exact closed _
    | close m => cases m <;> rfl
    | fin m => cases m <;> rfl
    | synack m => cases m <;> rfl
    | flush m => cases m <;> rfl
  | syn here m =>
    cases m with
    | opened c fresh =>
      rw [(shape.fresh fresh).st] at seen
      contradiction
    | _ => exact ⟨rfl,seen⟩
  | accept here m => exact ⟨(acceptFrame m).accepted,(acceptFrame m).finSeen.trans seen⟩
  | reader here m => exact ⟨(readerFrame m).accepted,(readerFrame m).finSeen.trans seen⟩
  | side m => exact ⟨(sideFrame m).accepted,(sideFrame m).finSeen.trans seen⟩

theorem loopWaiting {pc} (m : LoopMove client v pc e w) (waiting : w.waiting = true) : v.waiting = true := by
  cases m with
  | psh m => cases m <;> exact waiting
  | close m => cases m <;> first | exact waiting | contradiction
  | fin m =>
    cases m <;> first | exact waiting | contradiction | skip
    case mark found =>
      rw [View.waiting,found]
      exact waiting
  | synack m => cases m <;> first | exact waiting | contradiction
  | flush m => cases m <;> first | exact waiting | contradiction

theorem sideWaiting (m : LocalMove v e w) (waiting : w.waiting = true) : v.waiting = true := by
  cases m
  case dropReadHalf handle _ marked =>
    rcases marked with rfl | rfl
    · exact waiting
    · simpa [View.waiting,Option.any_map,Function.comp_def] using waiting
  case unregister => contradiction
  all_goals exact waiting

/- A FIN already in the loop's hands when the stream opened: nothing precedes it. -/
def Overtaken (v : View) : Prop :=
  v.st.finSeen = true → (v.waiting = true ∧ v.pc ≠ some (.fin .takeSynack)) ∨ v.pc.any HandlerPc.replying = true →
    v.st.accepted = []

theorem overtakenKept (shape : Shape client v) (known : Overtaken v) (m : Move client v e w) : Overtaken w := by
  intro seen which
  cases m with
  | frame m =>
    have idle {pc'} (resting : v.pc = none) (plain : pc'.replying = false)
        (which : (v.waiting = true ∧ some pc' ≠ some (.fin .takeSynack)) ∨ (some pc').any HandlerPc.replying = true) :
        (v.waiting = true ∧ v.pc ≠ some (.fin .takeSynack)) ∨ v.pc.any HandlerPc.replying = true := by
      rcases which with ⟨waiting,_⟩ | replying
      · exact .inl ⟨waiting,by rw [resting]; simp⟩
      · exact absurd (plain.symm.trans replying) Bool.false_ne_true
    cases m
    case openStream fresh => simp [(shape.fresh fresh).st]
    case psh resting _ => exact known seen (idle resting rfl which)
    case pshUnknown resting _ => exact known seen (idle resting rfl which)
    case synack resting => exact known seen (idle resting rfl which)
    case syn resting => exact known seen (idle resting rfl which)
    case fin =>
      exfalso
      cases client
      · rcases which with ⟨waiting,_⟩ | replying
        · obtain ⟨h,found,waits⟩ := (Option.any_eq_true _ _).mp waiting
          exact absurd (((shape.serving rfl).handle h found).symm.trans waits) Bool.false_ne_true
        · contradiction
      · rcases which with ⟨_,other⟩ | replying
        · exact other rfl
        · contradiction
    all_goals exact known seen which
  | loop here m =>
    have seen' : v.st.finSeen = true := (loopFrame m).finSeen ▸ seen
    rw [(acceptedFrozen shape (.loop here m) seen').1]
    refine known seen' ?_
    rcases which with ⟨waiting,other⟩ | replying
    · refine .inl ⟨loopWaiting m waiting,fun taking => ?_⟩
      cases Option.some.inj (here.symm.trans taking)
      cases m with
      | fin m =>
        cases m
        case take => contradiction
        case takeNone answered =>
          obtain ⟨h,found,waits⟩ := (Option.any_eq_true _ _).mp waiting
          exact absurd ((answered h found).symm.trans waits) Bool.false_ne_true
    · cases m with
      | psh m => cases m <;> contradiction
      | close m => cases m <;> contradiction
      | fin m => cases m <;> contradiction
      | synack m =>
        cases m
        case take found =>
          refine .inl ⟨?_,by rw [here]; simp⟩
          rw [View.waiting,found]
          rfl
        all_goals first | contradiction | (right; rw [here]; rfl)
      | flush m => right; rw [here]; rfl
  | syn here m =>
    have plain : v.pc ≠ some (.fin .takeSynack) := by
      rw [here]
      simp
    cases m with
    | refused => exact known seen (which.imp (fun both => ⟨both.1,plain⟩) (fun none => absurd none Bool.false_ne_true))
    | opened c fresh => simp [(shape.fresh fresh).st]
    | again => exact known seen (which.imp (fun both => ⟨both.1,plain⟩) (fun none => absurd none Bool.false_ne_true))
  | accept here m =>
    exfalso
    have serving := servingAccept shape (acceptBusy here m)
    have after := servingKept shape (.accept here m) serving
    rcases which with ⟨waiting,_⟩ | replying
    · obtain ⟨h,found,waits⟩ := (Option.any_eq_true _ _).mp waiting
      exact absurd ((after.handle h found).symm.trans waits) Bool.false_ne_true
    · obtain ⟨pc,found,replying⟩ := (Option.any_eq_true _ _).mp replying
      have only := after.pc pc found
      cases pc with
      | synack pc => cases pc <;> contradiction
      | flush => contradiction
      | _ => contradiction
  | reader here m =>
    have same := readerFrame m
    rw [same.accepted]
    rw [View.waiting,same.handle,same.pc] at which
    exact known (same.finSeen ▸ seen) which
  | side m =>
    have same := sideFrame m
    rw [same.accepted]
    rw [same.pc] at which
    exact known (same.finSeen ▸ seen) (which.imp_left (And.imp_left (sideWaiting m)))

end Pledge
end KanoTls.Receive
