import KanoTls.ReceiveFin
import Mathlib.Data.List.Perm.Subperm

/-! End of stream. A FIN is kept as a token, in `pending_fin`, as a flag of the
pre-accept entry or as the reader's own flag, and the data before it in the channel,
the pending queue or the pre-accept entry. A read answers `None` from those parts one
at a time; the runs in which that is a clean end are named here. -/
namespace KanoTls.Receive
open Pending Session

/- No step that ends the stream without a FIN, no payload lost on migration, no local
teardown of a stream that is still read, and no `None` decided over a pending queue
that was not looked at. -/
structure CleanEnd (v : View) (e : Event) : Prop where
  alive : e ≠ .synackGone ∧ e ≠ .overflow ∧ e ≠ .dropMigrate
  torn : e = .tearUnregister → v.st.eof = true ∨ v.st.reader.pc = .gone
  looked : e = .dataBusy → v.st.reader.readClosed = false ∨ v.pending = []
  fin : e = .takeFin → v.pending = []

instance (v : View) (e : Event) : Decidable (CleanEnd v e) :=
  decidable_of_iff ((e ≠ .synackGone ∧ e ≠ .overflow ∧ e ≠ .dropMigrate) ∧
      (e = .tearUnregister → v.st.eof = true ∨ v.st.reader.pc = .gone) ∧
      (e = .dataBusy → v.st.reader.readClosed = false ∨ v.pending = []) ∧ (e = .takeFin → v.pending = []))
    ⟨fun ⟨a,b,c,d⟩ => ⟨a,b,c,d⟩,fun ⟨a,b,c,d⟩ => ⟨a,b,c,d⟩⟩

def AcceptPc.registered : AcceptPc → Bool
  | .none | .queued | .register | .flushRemove | .done => false
  | _ => true

def AcceptPc.withFin : AcceptPc → Bool
  | .flushSend _ _ carried _ | .flushStore _ carried _ => carried
  | .flushFin _ | .flushMark | .flushUnregister | .flushRemove => true
  | _ => false

def View.finKnown (v : View) : Bool :=
  v.finPending || v.st.finQueued || v.st.reader.readClosed || v.pc.any HandlerPc.isFin || v.st.accept.withFin ||
    v.pre.any (·.bufferedFin)

structure Ended (v : View) : Prop where
  registered : v.st.reader.pc ≠ .absent → v.st.reader.pc ≠ .gone → v.st.handle = none →
    v.st.reader.readClosed = true
  accepting : v.st.accept.registered = true → v.st.handle ≠ none
  closing : ∀ pc, v.pc = some pc → pc.closing = true → v.st.reader.pc = .gone
  torn : v.st.teardown.severed = true → v.st.eof = true ∨ v.st.reader.pc = .gone
  closed : v.st.eof = true → v.st.reader.readClosed = true
  seen : v.st.opened = true → v.finKnown = true → v.st.finSeen = true

section Ended
variable {client : Bool} {v w : View} {e : Event}

theorem eofStays (m : Move client v e w) (eof : v.st.eof = true) : w.st.eof = true := by
  cases m with
  | frame m => cases m <;> exact eof
  | loop here m => exact (loopFrame m).eof.trans eof
  | syn here m => cases m <;> exact eof
  | accept here m => exact (acceptFrame m).eof.trans eof
  | reader here m => cases m <;> first | exact eof | rfl
  | side m => exact (sideFrame m).eof.trans eof

theorem tornEnds (shape : Shape client v) (ended : Ended v) (ok : CleanEnd v e) (m : Move client v e w)
    (cut : w.st.teardown.severed = true) : w.st.eof = true ∨ w.st.reader.pc = .gone := by
  have stays (was : v.st.teardown.severed = true) : w.st.eof = true ∨ w.st.reader.pc = .gone :=
    (ended.torn was).imp (eofStays m) (goneStays shape m)
  cases m with
  | frame m => cases m <;> exact stays cut
  | loop here m => exact stays ((loopFrame m).teardown ▸ cut)
  | syn here m => cases m <;> exact stays cut
  | accept here m => exact stays ((acceptFrame m).teardown ▸ cut)
  | reader here m => exact stays ((readerFrame m).teardown ▸ cut)
  | side m =>
    cases m <;> first | exact stays cut | contradiction | skip
    case unregister => exact ok.torn rfl
    all_goals rename_i here; exact stays (by rw [here]; rfl)

theorem closedKept (shape : Shape client v) (ended : Ended v) (m : Move client v e w)
    (eof : w.st.eof = true) : w.st.reader.readClosed = true := by
  have known := ended.closed
  cases m with
  | frame m =>
    cases m <;> first | exact known eof | skip
    case openStream fresh =>
      rw [(shape.fresh fresh).st] at eof
      contradiction
  | loop here m => exact (loopFrame m).reader.2.trans (known ((loopFrame m).eof ▸ eof))
  | syn here m => cases m <;> exact known eof
  | accept here m =>
    have was := known ((acceptFrame m).eof ▸ eof)
    cases m <;> first | exact was | rfl
  | reader here m =>
    cases m <;> first | exact known eof | rfl | skip
    case eof closed => exact closed
    case finWith => simp [Stream.returnSome,Stream.setPc,known eof]
    case wakeClosed gone _ => exact ended.registered (by rw [here]; simp) (by rw [here]; simp) gone
  | side m => exact (sideFrame m).readClosed.trans (known ((sideFrame m).eof ▸ eof))

theorem closingKept (shape : Shape client v) (ended : Ended v) (ok : CleanEnd v e) (m : Move client v e w) {pc}
    (here' : w.pc = some pc) (closing : pc.closing = true) : w.st.reader.pc = .gone := by
  have known := ended.closing
  cases m with
  | frame m =>
    cases m <;> first | exact known pc here' closing | skip
    case openStream fresh =>
      have out := (shape.fresh fresh).outside pc here'
      cases pc <;> contradiction
    case psh => cases here'; contradiction
    case pshUnknown => cases here'; contradiction
    case fin => cases here'; contradiction
    case synack => cases here'; contradiction
    case syn => cases here'; contradiction
  | loop here m =>
    rw [(loopFrame m).reader.1]
    cases m with
    | psh m =>
      cases m <;> first | contradiction | skip
      case storeDropped => exact absurd rfl ok.alive.2.1
      all_goals cases here'; contradiction
    | close m => exact known _ here rfl
    | fin m => cases m <;> first | contradiction | (cases here'; contradiction)
    | synack m =>
      cases m <;> first | contradiction | skip
      case gone => exact absurd rfl ok.alive.1
      all_goals cases here'; contradiction
    | flush m =>
      cases m <;> first | contradiction | assumption | (cases here'; contradiction)
  | syn here m =>
    cases m <;> cases here'
    contradiction
  | accept here m =>
    have free := (shape.undispatched (acceptBusy here m) ((acceptFrame m).pc ▸ here')).1
    cases pc <;> contradiction
  | reader here m =>
    have gone := known pc ((readerFrame m).pc ▸ here') closing
    rw [gone] at here
    subst here
    cases m
  | side m =>
    have gone := known pc ((sideFrame m).pc ▸ here') closing
    cases m <;> first | exact gone | rfl

theorem acceptRegisteredKept (shape : Shape client v) (ended : Ended v) (m : Move client v e w)
    (registered : w.st.accept.registered = true) : w.st.handle ≠ none := by
  have known := ended.accepting
  have unsettled {pc : AcceptPc} (registered : pc.registered = true) : pc.settled = false := by
    cases pc <;> first | rfl | contradiction
  cases m with
  | frame m => cases m <;> first | exact known registered | exact Option.some_ne_none _
  | loop here m =>
    have was := (loopFrame m).accept ▸ registered
    have same := undispatchedQueues m (shape.undispatched (unsettled was) here)
    have present := known was
    rwa [← Option.isSome_iff_ne_none,same.2.2,Option.isSome_iff_ne_none]
  | syn here m => cases m <;> first | exact known registered | contradiction
  | accept here m =>
    rw [here] at known
    cases m <;> first | contradiction | exact known rfl | simp
  | reader here m =>
    rw [(readerFrame m).handle]
    exact known ((readerFrame m).accept ▸ registered)
  | side m =>
    have was := (sideFrame m).accept ▸ registered
    have absent := shape.accepting.absent (unsettled was)
    cases m <;> first | exact known was | skip
    case dropReadHalf idle _ => exact absurd (absent.symm.trans idle) ReaderPc.noConfusion
    case unregister here =>
      exact absurd absent (shape.torn (by rw [here]; exact TeardownPc.noConfusion))

theorem registeredKept (shape : Shape client v) (pledge : Pledge v) (ended : Ended v) (ok : CleanEnd v e)
    (m : Move client v e w) (present : w.st.reader.pc ≠ .absent) (reading : w.st.reader.pc ≠ .gone)
    (gone : w.st.handle = none) : w.st.reader.readClosed = true := by
  have known := ended.registered
  cases m with
  | frame m =>
    cases m <;> first | exact known present reading gone | contradiction
  | loop here m =>
    rw [(loopFrame m).reader.2]
    rw [(loopFrame m).reader.1] at present reading
    refine known present reading ?_
    cases m with
    | psh m => cases m <;> exact gone
    | close m => exact absurd (ended.closing _ here rfl) reading
    | fin m => cases m <;> first | exact gone | contradiction
    | synack m => cases m <;> first | exact gone | contradiction
    | flush m =>
      cases m <;> first | exact gone | skip
      case unregister => exact absurd (pledge.flushing _ here rfl).2 (by simp [HandlerPc.withFin,FlushPc.withFin])
  | syn here m => cases m <;> exact known present reading gone
  | accept here m =>
    have absent := shape.accepting.absent (acceptBusy here m)
    have handle := ended.accepting
    rw [here] at handle
    cases m <;> first | exact absurd absent present | exact absurd gone (handle rfl) | rfl
  | reader here m =>
    have was := known (readerPresent here m) (by rw [here]; cases m <;> exact ReaderPc.noConfusion)
      ((readerFrame m).handle ▸ gone)
    cases m <;> first | exact was | rfl | skip
    case finWith => simp [Stream.returnSome,Stream.setPc,was]
  | side m =>
    cases m <;> first | exact known present reading gone | skip
    case dropReadHalf => exact absurd rfl reading
    case unregister =>
      rcases ok.torn rfl with done | away
      · exact ended.closed done
      · exact absurd away reading

theorem loopFinKnown {pc} (pledge : Pledge v) (here : v.pc = some pc) (m : LoopMove client v pc e w)
    (fin : w.finKnown = true) : v.finKnown = true := by
  have spread {w : View} (fin : w.finKnown = true) (pending : w.finPending = true → v.finPending = true)
      (queued : w.st.finQueued = v.st.finQueued) (reader : w.st.reader.readClosed = v.st.reader.readClosed)
      (off : w.pc.any HandlerPc.isFin = false) (accept : w.st.accept = v.st.accept)
      (pre : w.pre.any (·.bufferedFin) = v.pre.any (·.bufferedFin)) : v.finKnown = true := by
    simp only [View.finKnown,queued,reader,off,accept,pre,Bool.or_false,Bool.or_eq_true] at fin ⊢
    tauto
  cases m with
  | psh m =>
    cases m <;> first | exact spread fin id rfl rfl rfl rfl rfl | skip
    case openKept found => exact spread fin id rfl rfl rfl rfl (by rw [found]; rfl)
  | close m => cases m <;> first | exact spread fin id rfl rfl rfl rfl rfl | exact spread fin (by simp) rfl rfl rfl rfl rfl
  | fin m => simp [View.finKnown,here,HandlerPc.isFin]
  | synack m => cases m <;> exact spread fin id rfl rfl rfl rfl rfl
  | flush m =>
    have off := (pledge.flushing _ here rfl).2
    cases m <;> first | contradiction | exact spread fin id rfl rfl rfl rfl rfl | exact spread fin (by simp) rfl rfl rfl rfl rfl

theorem acceptFinKnown {pc} (here : v.st.accept = pc) (m : AcceptMove v pc e w) (fin : w.finKnown = true) :
    v.finKnown = true := by
  cases m
  case release kept =>
    have flags := congrArg (Option.any Prod.snd) kept
    simp only [Option.any_map] at flags
    simpa [View.finKnown,here,AcceptPc.withFin,flags] using fin
  case take found _ =>
    simp only [View.finKnown,here,AcceptPc.withFin,found,Option.any_some,Bool.or_false] at fin ⊢
    exact fin
  case opened found nothing =>
    simpa [View.finKnown,here,AcceptPc.withFin,found,nothing.2,Stream.setPc] using fin
  all_goals simp_all [View.finKnown,AcceptPc.withFin,Stream.setPc]

theorem readerFinKnown {pc} (pledge : Pledge v) (ended : Ended v) (here : v.st.reader.pc = pc)
    (m : ReaderMove client v pc e w) (fin : w.finKnown = true) : v.finKnown = true := by
  cases m
  case wakeFin ready =>
    have queued : v.st.finQueued = true := by
      rcases ready with queued | gone
      · exact queued
      · have closed := ended.registered (by rw [here]; simp) (by rw [here]; simp) gone
        exact absurd ((pledge.parked here).symm.trans closed) Bool.false_ne_true
    simp [View.finKnown,queued]
  case finTaken found => simp [View.finKnown,found]
  case finWith =>
    simp only [View.finKnown,Stream.returnSome,Stream.setPc,Bool.or_eq_true] at fin ⊢
    tauto
  case finAbsent absent => simpa [View.finKnown,Stream.setPc,absent] using fin
  all_goals simpa [View.finKnown,Stream.setPc,Stream.returnSome,Stream.returnNone] using fin

theorem seenKept (shape : Shape client v) (pledge : Pledge v) (ended : Ended v) (m : Move client v e w)
    (opened : w.st.opened = true) (fin : w.finKnown = true) : w.st.finSeen = true := by
  have known := ended.seen
  cases m with
  | frame m =>
    cases m
    case openStream fresh =>
      obtain ⟨st,pending,finPending,_⟩ := shape.fresh fresh
      have absent : v.pre = none := by
        rw [shape.accepting.pre,st]
        rfl
      simpa [View.finKnown,st,finPending,absent,AcceptPc.withFin] using fin
    case psh idle _ => exact known opened (by simpa [View.finKnown,idle,HandlerPc.isFin] using fin)
    case pshUnknown idle _ => exact known opened (by simpa [View.finKnown,idle,HandlerPc.isFin] using fin)
    case synack idle => exact known opened (by simpa [View.finKnown,idle,HandlerPc.isFin] using fin)
    case syn idle => exact known opened (by simpa [View.finKnown,idle,HandlerPc.isFin] using fin)
    case fin =>
      have opened : v.st.opened = true := opened
      simp [opened]
    all_goals exact known opened fin
  | loop here m =>
    have same := loopFrame m
    exact same.finSeen.trans (known (same.opened ▸ opened) (loopFinKnown pledge here m fin))
  | syn here m =>
    cases m with
    | opened c fresh =>
      obtain ⟨st,pending,finPending,_⟩ := shape.fresh fresh
      simp [View.finKnown,st,finPending,AcceptPc.withFin] at fin
    | _ => exact known opened (by simpa [View.finKnown,here,HandlerPc.isFin] using fin)
  | accept here m =>
    have same := acceptFrame m
    exact same.finSeen.trans (known (same.opened ▸ opened) (acceptFinKnown here m fin))
  | reader here m =>
    have same := readerFrame m
    exact same.finSeen.trans (known (same.opened ▸ opened) (readerFinKnown pledge ended here m fin))
  | side m =>
    have same := sideFrame m
    refine same.finSeen.trans (known (same.opened ▸ opened) ?_)
    cases m <;> first | exact fin | skip
    all_goals
      simp only [View.finKnown,Stream.setPc,Bool.or_eq_true] at fin ⊢
      tauto

theorem endedKept (shape : Shape client v) (pledge : Pledge v) (ended : Ended v) (ok : CleanEnd v e)
    (m : Move client v e w) : Ended w :=
  ⟨registeredKept shape pledge ended ok m,acceptRegisteredKept shape ended m,
    fun _ => closingKept shape ended ok m,tornEnds shape ended ok m,closedKept shape ended m,
    seenKept shape pledge ended m⟩

theorem endedStart (client : Bool) (max : Nat) (sid : StreamId) : Ended (view (start client max) sid) := by
  refine ⟨fun present => absurd rfl present,?_,?_,?_,?_,?_⟩ <;> intros <;> contradiction

end Ended
def Within (a b : List Payload) : Prop := ∀ payload, a.count payload ≤ b.count payload

theorem withinSubperm {a b : List Payload} (h : Within a b) : a.Subperm b :=
  List.subperm_ext_iff.mpr (fun payload _ => h payload)

theorem Within.mono {a b c : List Payload} (h : Within a b) (more : ∀ q, b.count q ≤ c.count q) : Within a c :=
  fun q => (h q).trans (more q)

/- The line without what the accept task will drop: behind a FIN it has taken, the
pre-accept entry only holds payloads that came after that FIN. -/
def View.safe (v : View) : List Payload :=
  v.st.delivered ++ v.st.reader.pc.out ++ v.st.data ++ v.mid ++ v.pending ++ v.st.accept.hand ++
    (bif v.st.accept.withFin then [] else v.preData)

def ReaderPc.pastChannel : ReaderPc → Bool
  | .empty | .armed | .locked => true
  | _ => false

def ReaderPc.pastPending : ReaderPc → Bool
  | .finTry none | .finLocked none | .decide => true
  | _ => false

structure Complete (v : View) : Prop where
  kept : v.st.reader.pc ≠ .gone → Within v.st.accepted v.safe
  pendingFin : v.st.reader.pc ≠ .gone → v.finPending = true ∨ v.pc = some (.fin .store) →
    Within v.st.accepted (v.st.delivered ++ v.st.reader.pc.out ++ v.pending)
  channel : v.st.reader.readClosed = true → v.st.reader.pc.pastChannel = true →
    Within v.st.accepted (v.st.delivered ++ v.pending)
  drained : v.st.reader.readClosed = true → v.st.reader.pc.pastPending = true →
    Within v.st.accepted v.st.delivered
  eof : v.st.eof = true → v.st.finSeen = true ∧ Within v.st.accepted v.st.delivered

section Complete
variable {client : Bool} {v w : View} {e : Event}

theorem acceptingCount (st : Stream) (payload q : Payload) :
    (st.accepting payload).accepted.count q ≤ st.accepted.count q + [payload].count q := by
  simp only [Stream.accepting]
  split
  · exact Nat.le_add_right _ _
  · rw [List.count_append]

theorem acceptingSame (st : Stream) (payload : Payload) : (st.accepting payload).delivered = st.delivered ∧
    (st.accepting payload).reader = st.reader ∧ (st.accepting payload).data = st.data ∧
    (st.accepting payload).accept = st.accept := ⟨rfl,rfl,rfl,rfl⟩

theorem loopSafe {pc} (ended : Ended v) (opened : v.st.opened = true) (here : v.pc = some pc)
    (m : LoopMove client v pc e w) (reading : w.st.reader.pc ≠ .gone) (known : Within v.st.accepted v.safe) :
    Within w.st.accepted w.safe := by
  intro q
  have before := known q
  rw [(loopFrame m).reader.1] at reading
  cases m with
  | psh m =>
    have more (payload : Payload) := acceptingCount v.st payload q
    cases m
    case openKept payload e found =>
      have more := more payload
      cases fin : v.st.accept.withFin with
      | true =>
        have seen := ended.seen opened (by simp [View.finKnown,fin])
        have same : (v.st.accepting payload).accepted = v.st.accepted := by simp [Stream.accepting,seen]
        simp only [View.safe,View.mid,here,HandlerPc.mid,acceptingSame,fin,same,Option.map_some,Option.getD_some,
          Option.map_none,Option.getD_none] at before ⊢
        exact before
      | false =>
        simp only [View.safe,View.mid,View.preData,here,HandlerPc.mid,acceptingSame,fin,found,Option.map_some,
          Option.getD_some,Option.map_none,Option.getD_none,List.count_append,cond_false] at before ⊢
        omega
    case preSynackKept payload =>
      have more := more payload
      simp only [View.safe,View.mid,View.preData,here,HandlerPc.mid,acceptingSame,Option.map_some,
        Option.getD_some,Option.map_none,Option.getD_none,List.count_append] at before ⊢
      omega
    case sendOk payload alive =>
      have more := more payload
      simp only [View.safe,View.mid,View.preData,here,HandlerPc.mid,acceptingSame,Option.map_some,
        Option.getD_some,Option.map_none,Option.getD_none,List.count_append] at before ⊢
      omega
    case storeKept payload =>
      have more := more payload
      simp only [View.safe,View.mid,View.preData,here,HandlerPc.mid,acceptingSame,Option.map_some,
        Option.getD_some,List.count_append] at before ⊢
      omega
    all_goals
      simp only [View.safe,View.mid,View.preData,here,HandlerPc.mid,Stream.notifyWaiters,Option.map_some,
        Option.getD_some,Option.map_none,Option.getD_none] at before ⊢
      exact before
  | close m => exact absurd (ended.closing _ here rfl) reading
  | fin m =>
    cases m
    case isOpen found kept =>
      simp only [View.safe,View.mid,View.preData,here,HandlerPc.mid,found,kept.1,Option.map_some,
        Option.getD_some,Option.map_none,Option.getD_none] at before ⊢
      exact before
    all_goals
      simp only [View.safe,View.mid,View.preData,here,HandlerPc.mid,Option.map_some,
        Option.getD_some,Option.map_none,Option.getD_none] at before ⊢
      exact before
  | synack m =>
    cases m
    all_goals
      simp only [View.safe,View.mid,View.preData,here,HandlerPc.mid,Option.map_some,
        Option.getD_some,Option.map_none,Option.getD_none] at before ⊢
      exact before
  | flush m =>
    cases m <;> first | contradiction | skip
    all_goals
      simp only [View.safe,View.mid,View.preData,here,HandlerPc.mid,FlushPc.mid,Stream.notifyWaiters,Option.map_some,
        Option.getD_some,Option.map_none,Option.getD_none,List.count_append,List.count_nil,List.count_cons] at before ⊢
      omega

theorem acceptSafe {pc} (shape : Shape client v) (ok : CleanEnd v e) (here : v.st.accept = pc)
    (m : AcceptMove v pc e w) (known : Within v.st.accepted v.safe) : Within w.st.accepted w.safe := by
  intro q
  have before := known q
  have absent := shape.accepting.absent (acceptBusy here m)
  cases m
  case take found _ =>
    simp only [View.safe,View.mid,View.preData,here,AcceptPc.hand,AcceptPc.withFin,found,Option.map_some,
      Option.getD_some,List.count_append,List.count_nil,cond_false] at before ⊢
    omega
  case opened found nothing =>
    simp only [View.safe,View.mid,View.preData,here,AcceptPc.hand,AcceptPc.withFin,found,nothing.1,absent,ReaderPc.out,
      Stream.setPc,Option.map_some,Option.getD_some,Option.map_none,Option.getD_none,cond_false] at before ⊢
    exact before
  case release kept =>
    have data := congrArg (Option.map Prod.fst) kept
    simp only [Option.map_map,Function.comp_def] at data
    simp only [View.safe,View.mid,View.preData,here,AcceptPc.hand,AcceptPc.withFin,data] at before ⊢
    exact before
  case remove =>
    simp only [View.safe,View.mid,View.preData,here,AcceptPc.hand,AcceptPc.withFin,absent,ReaderPc.out,
      Option.map_none,Option.getD_none,cond_false,cond_true] at before ⊢
    exact before
  case dropped => exact absurd rfl ok.alive.2.2
  all_goals
    simp only [View.safe,View.mid,View.preData,here,AcceptPc.hand,AcceptPc.withFin,absent,ReaderPc.out,Stream.setPc,
      List.count_append,List.count_cons,List.count_nil,cond_false,cond_true] at before ⊢
    omega

theorem readerSafe {pc} (here : v.st.reader.pc = pc) (m : ReaderMove client v pc e w)
    (known : Within v.st.accepted v.safe) : Within w.st.accepted w.safe := by
  intro q
  have before := known q
  cases m
  case popNone =>
    cases client
    all_goals
      simp only [View.safe,View.mid,View.preData,here,ReaderPc.out,Stream.setPc] at before ⊢
      exact before
  case finFree out =>
    cases out
    all_goals
      simp only [View.safe,View.mid,View.preData,here,ReaderPc.out,Stream.setPc] at before ⊢
      exact before
  case popLast last =>
    simp only [View.safe,View.mid,View.preData,here,ReaderPc.out,Stream.setPc,last,List.count_append,List.count_cons,
      List.count_nil] at before ⊢
    omega
  case popSome found =>
    simp only [View.safe,View.mid,View.preData,here,ReaderPc.out,Stream.setPc,Stream.returnSome,found,
      List.count_append,List.count_cons,List.count_nil] at before ⊢
    omega
  case recvSome found =>
    simp only [View.safe,View.mid,View.preData,here,ReaderPc.out,Stream.setPc,Stream.returnSome,found,
      List.count_append,List.count_cons,List.count_nil] at before ⊢
    omega
  case wakeData found =>
    simp only [View.safe,View.mid,View.preData,here,ReaderPc.out,Stream.setPc,Stream.returnSome,found,
      List.count_append,List.count_cons,List.count_nil] at before ⊢
    omega
  all_goals
    simp only [View.safe,View.mid,View.preData,here,ReaderPc.out,Stream.setPc,Stream.returnSome,Stream.returnNone,
      List.count_append,List.count_cons,List.count_nil] at before ⊢
    omega

theorem keptKept (shape : Shape client v) (ended : Ended v) (complete : Complete v) (ok : CleanEnd v e)
    (m : Move client v e w) (reading : w.st.reader.pc ≠ .gone) : Within w.st.accepted w.safe := by
  have known := complete.kept (fun gone => reading (goneStays shape m gone))
  have untouched (blank : v.st = {}) (same : w.st.accepted = v.st.accepted) : Within w.st.accepted w.safe := by
    intro q
    rw [same,blank]
    exact Nat.zero_le _
  have walked {pc'} (idle : v.pc = none) (off : HandlerPc.mid pc' = []) (known : Within v.st.accepted v.safe) :
      Within v.st.accepted (View.safe {v with pc := some pc'}) := by
    intro q
    have before := known q
    simp only [View.safe,View.mid,View.preData,idle,off,Option.map_some,Option.getD_some,Option.map_none,
      Option.getD_none] at before ⊢
    exact before
  cases m with
  | frame m =>
    cases m
    case openStream fresh => exact untouched (shape.fresh fresh).st rfl
    case syn idle => exact walked idle rfl known
    case psh idle _ => exact walked idle rfl known
    case pshUnknown idle _ => exact walked idle rfl known
    case fin idle => exact walked idle rfl known
    case synack idle => exact walked idle rfl known
    all_goals exact known
  | loop here m =>
    cases opened : v.st.opened with
    | true => exact loopSafe ended opened here m reading known
    | false =>
      have same := (loopFrame m).opened.trans opened
      rw [((shapeKept shape (.loop here m)).fresh same).st]
      exact fun _ => Nat.zero_le _
  | syn here m =>
    cases m with
    | opened c fresh => exact untouched (shape.fresh fresh).st rfl
    | _ =>
      intro q
      have before := known q
      simp only [View.safe,View.mid,View.preData,here,HandlerPc.mid,Option.map_some,Option.getD_some,Option.map_none,
        Option.getD_none] at before ⊢
      exact before
  | accept here m => exact acceptSafe shape ok here m known
  | reader here m => exact readerSafe here m known
  | side m =>
    cases m <;> first | exact known | skip
    case dropReadHalf => exact absurd rfl reading
    case removeData here =>
      rcases ended.torn (by rw [here]; rfl) with done | gone
      · refine (complete.eof done).2.mono (fun q => ?_)
        simp only [View.safe,List.count_append]
        omega
      · exact absurd gone reading
    case sweepData gone => exact absurd gone reading

theorem loopPending {pc} (m : LoopMove client v pc e w) :
    v.pending <+: w.pending ∨ pc.replying = true ∨ pc.closing = true := by
  cases m with
  | psh m => cases m <;> first | exact .inl List.prefix_rfl | exact .inl (List.prefix_append _ _)
  | close m => exact .inr (.inr rfl)
  | fin m => cases m <;> exact .inl List.prefix_rfl
  | synack m => cases m <;> exact .inl List.prefix_rfl
  | flush m => exact .inr (.inl rfl)

theorem pendingFinKept (shape : Shape client v) (pledge : Pledge v) (ended : Ended v) (complete : Complete v)
    (m : Move client v e w) (reading : w.st.reader.pc ≠ .gone)
    (fin : w.finPending = true ∨ w.pc = some (.fin .store)) :
    Within w.st.accepted (w.st.delivered ++ w.st.reader.pc.out ++ w.pending) := by
  have reading' : v.st.reader.pc ≠ .gone := fun gone => reading (goneStays shape m gone)
  have known := complete.pendingFin reading'
  cases m with
  | frame m =>
    cases m <;> first | exact known fin | skip
    case openStream fresh =>
      obtain ⟨st,_,_,_⟩ := shape.fresh fresh
      rw [st]
      exact fun _ => Nat.zero_le _
    case psh => exact known (fin.imp_right (by simp))
    case pshUnknown => exact known (fin.imp_right (by simp))
    case fin => exact known (fin.imp_right (by cases client <;> simp))
    case synack => exact known (fin.imp_right (by simp))
    case syn => exact known (fin.imp_right (by simp))
  | loop here m =>
    have same := loopFrame m
    rw [same.delivered,same.reader.1]
    have carry (was : v.finPending = true ∨ v.pc = some (.fin .store)) :
        Within w.st.accepted (v.st.delivered ++ v.st.reader.pc.out ++ w.pending) := by
      have opened : v.st.opened = true := by
        by_contra unopened
        obtain ⟨_,_,off,outside⟩ := shape.fresh (by simpa using unopened)
        rcases was with pending | storing
        · exact absurd (off.symm.trans pending) Bool.false_ne_true
        · exact absurd (outside _ storing) Bool.false_ne_true
      have seen := ended.seen opened (by
        rcases was with pending | storing
        · simp [View.finKnown,pending]
        · simp [View.finKnown,storing,HandlerPc.isFin])
      rw [(acceptedFrozen shape (.loop here m) seen).1]
      refine (known was).mono (fun q => ?_)
      rcases loopPending m with grown | replying | closing
      · have more := grown.sublist.count_le q
        simp only [List.count_append]
        omega
      · rcases was with pending | storing
        · exact absurd ((pledge.flushing _ here replying).1.symm.trans pending) Bool.false_ne_true
        · cases Option.some.inj (here.symm.trans storing)
          contradiction
      · exact absurd (ended.closing _ here closing) reading'
    cases m with
    | psh m => cases m <;> exact carry (fin.imp_right (by simp))
    | close m => exact absurd (ended.closing _ here rfl) reading'
    | fin m =>
      cases m
      case take closed found =>
        have safe := complete.kept reading'
        have empty := (pledge.unanswered _ found rfl).2
        have client : client = true := by
          by_contra server
          exact absurd ((shape.serving (by simpa using server)).handle _ found) Bool.false_ne_true.symm
        have absent : v.pre = none := by
          rw [shape.accepting.pre,shape.accepting.server client]
          rfl
        simp only [View.safe,View.mid,View.preData,here,HandlerPc.mid,empty,shape.accepting.server client,absent,
          AcceptPc.hand,AcceptPc.withFin,Option.map_some,Option.getD_some,Option.map_none,Option.getD_none,
          List.append_nil,cond_false] at safe
        exact safe
      case store => exact carry (.inr here)
      all_goals exact carry (fin.imp_right (by simp))
    | synack m => cases m <;> exact carry (fin.imp_right (by simp))
    | flush m =>
      have off := (pledge.flushing _ here rfl).2
      cases m <;> first | contradiction | exact carry (fin.imp_right (by simp)) | exact carry (fin.imp (by simp) (by simp))
  | syn here m =>
    cases m with
    | opened c fresh =>
      rw [(shape.fresh fresh).st]
      exact fun _ => Nat.zero_le _
    | _ => exact known (fin.imp_right (by simp))
  | accept here m =>
    have serving := shape.serving (servingAccept shape (acceptBusy here m))
    rcases fin with pending | storing
    · exact absurd (((acceptFrame m).finPending.trans serving.finPending).symm.trans pending) Bool.false_ne_true
    · have only := serving.pc (.fin .store) ((acceptFrame m).pc ▸ storing)
      contradiction
  | reader here m =>
    rw [(readerFrame m).pc] at fin
    rw [(readerFrame m).accepted]
    have was : v.finPending = true ∨ v.pc = some (.fin .store) := by
      refine fin.imp_left (fun pending => ?_)
      cases m <;> first | exact pending | contradiction
    refine (known was).mono (fun q => ?_)
    cases m
    case popNone => cases client <;> simp [here,ReaderPc.out,Stream.setPc]
    case finFree out => cases out <;> simp [here,ReaderPc.out,Stream.setPc]
    case popLast last => simp [here,ReaderPc.out,Stream.setPc,last]
    case popSome found =>
      simp only [here,ReaderPc.out,Stream.setPc,Stream.returnSome,found,List.count_append,List.count_cons,List.count_nil]
      omega
    all_goals
      simp only [here,ReaderPc.out,Stream.setPc,Stream.returnSome,Stream.returnNone,List.count_append,List.count_cons,
        List.count_nil]
      omega
  | side m =>
    rw [(sideFrame m).pc] at fin
    cases m <;> first | exact known fin | exact known (fin.imp_left (by simp)) | skip
    case dropReadHalf => exact absurd rfl reading
    case removeData here =>
      rcases ended.torn (by rw [here]; rfl) with done | gone
      · refine (complete.eof done).2.mono (fun q => ?_)
        simp only [List.count_append]
        omega
      · exact absurd gone reading
    case sweepData gone => exact absurd gone reading

theorem closedSeen (shape : Shape client v) (ended : Ended v) (closed : v.st.reader.readClosed = true) :
    v.st.finSeen = true := by
  refine ended.seen ?_ (by simp [View.finKnown,closed])
  by_contra unopened
  rw [(shape.fresh (by simpa using unopened)).st] at closed
  contradiction

theorem midOvertaken (overtaken : Overtaken v) (seen : v.st.finSeen = true) (some : v.mid ≠ []) :
    v.st.accepted = [] := by
  refine overtaken seen (.inr ?_)
  unfold View.mid at some
  cases here : v.pc with
  | none => rw [here] at some; contradiction
  | some pc =>
    cases pc with
    | flush pc => rfl
    | _ => rw [here] at some; contradiction

theorem channelKept (shape : Shape client v) (ended : Ended v) (overtaken : Overtaken v) (complete : Complete v)
    (m : Move client v e w) (closed : w.st.reader.readClosed = true) (past : w.st.reader.pc.pastChannel = true) :
    Within w.st.accepted (w.st.delivered ++ w.pending) := by
  have known := complete.channel
  cases m with
  | frame m => cases m <;> first | exact known closed past | contradiction
  | loop here m =>
    have same := loopFrame m
    rw [same.reader.1] at past
    rw [same.reader.2] at closed
    have seen := closedSeen shape ended closed
    rw [(acceptedFrozen shape (.loop here m) seen).1,same.delivered]
    rcases loopPending m with grown | replying | closing
    · refine (known closed past).mono (fun q => ?_)
      have more := grown.sublist.count_le q
      simp only [List.count_append]
      omega
    · rw [overtaken seen (.inr (by rw [here]; exact replying))]
      exact fun _ => Nat.zero_le _
    · rw [ended.closing _ here closing] at past
      contradiction
  | syn here m => cases m <;> exact known closed past
  | accept here m =>
    have absent := shape.accepting.absent (acceptBusy here m)
    cases m <;> first | contradiction | (rw [absent] at past; contradiction)
  | reader here m =>
    cases m <;> first | exact known closed (by rw [here]; rfl) | contradiction | skip
    case recvEmpty empty =>
      have seen := closedSeen shape ended closed
      have safe := complete.kept (by rw [here]; exact ReaderPc.noConfusion)
      by_cases mid : v.mid = []
      · have settled : v.st.accept.settled = true := by
          by_contra busy
          have absent := shape.accepting.absent (by simpa using busy)
          exact absurd (here.symm.trans absent) ReaderPc.noConfusion
        obtain ⟨hand,pre⟩ := shape.open' (shape.accepting.pre.mpr settled)
        refine safe.mono (fun q => ?_)
        have none : (bif v.st.accept.withFin then [] else v.preData) = [] := by
          rw [pre]
          cases v.st.accept.withFin <;> rfl
        simp [View.safe,here,ReaderPc.out,empty,mid,hand,none,Stream.setPc]
      · show Within v.st.accepted _
        rw [midOvertaken overtaken seen mid]
        exact fun _ => Nat.zero_le _
  | side m =>
    cases m <;> first | exact known closed past | contradiction | skip
    case removeData here =>
      rcases ended.torn (by rw [here]; rfl) with done | gone
      · refine (complete.eof done).2.mono (fun q => ?_)
        simp only [List.count_append]
        omega
      · rw [show v.st.reader.pc = .gone from gone] at past
        contradiction
    case sweepData gone =>
      rw [show v.st.reader.pc = .gone from gone] at past
      contradiction

theorem drainedKept (shape : Shape client v) (ended : Ended v) (complete : Complete v) (ok : CleanEnd v e)
    (m : Move client v e w) (closed : w.st.reader.readClosed = true) (past : w.st.reader.pc.pastPending = true) :
    Within w.st.accepted w.st.delivered := by
  have known := complete.drained
  cases m with
  | frame m => cases m <;> first | exact known closed past | contradiction
  | loop here m =>
    have same := loopFrame m
    rw [same.reader.1] at past
    rw [same.reader.2] at closed
    rw [(acceptedFrozen shape (.loop here m) (closedSeen shape ended closed)).1,same.delivered]
    exact known closed past
  | syn here m => cases m <;> exact known closed past
  | accept here m =>
    have absent := shape.accepting.absent (acceptBusy here m)
    cases m <;> first | contradiction | (rw [absent] at past; contradiction)
  | reader here m =>
    have channel := complete.channel
    cases m <;> first | exact known closed (by rw [here]; rfl) | contradiction | skip
    case lockBusy =>
      have empty := (ok.looked rfl).resolve_left (by rw [show v.st.reader.readClosed = true from closed]; simp)
      have within := channel closed (by rw [here]; rfl)
      rwa [empty,List.append_nil] at within
    case popNone empty =>
      have within := channel (by cases client <;> exact closed) (by rw [here]; rfl)
      rwa [empty,List.append_nil] at within
    case finFree out =>
      cases out
      · exact known closed (by rw [here]; rfl)
      · contradiction
    case finTaken found =>
      have within := complete.pendingFin (by rw [here]; exact ReaderPc.noConfusion) (.inl found)
      rw [ok.fin rfl,here,show (ReaderPc.finLocked none).out = [] from rfl,List.append_nil,
        List.append_nil] at within
      exact within
  | side m => cases m <;> first | exact known closed past | contradiction

theorem eofKept (shape : Shape client v) (pledge : Pledge v) (ended : Ended v) (complete : Complete v)
    (m : Move client v e w) (eof : w.st.eof = true) : w.st.finSeen = true ∧ Within w.st.accepted w.st.delivered := by
  have known := complete.eof
  have grows (was : v.st.eof = true) (more : ∀ q, v.st.delivered.count q ≤ w.st.delivered.count q) :
      w.st.finSeen = true ∧ Within w.st.accepted w.st.delivered := by
    obtain ⟨seen,within⟩ := known was
    obtain ⟨same,seen'⟩ := acceptedFrozen shape m seen
    rw [same]
    exact ⟨seen',within.mono more⟩
  cases m with
  | frame m => cases m <;> exact grows eof (fun _ => Nat.le_refl _)
  | loop here m => exact grows ((loopFrame m).eof ▸ eof) (fun _ => by rw [(loopFrame m).delivered])
  | syn here m => cases m <;> exact grows eof (fun _ => Nat.le_refl _)
  | accept here m => exact grows ((acceptFrame m).eof ▸ eof) (fun _ => by rw [(acceptFrame m).delivered])
  | reader here m =>
    cases m
    case eof closed =>
      have seen := closedSeen shape ended closed
      exact ⟨seen,complete.drained closed (by rw [here]; rfl)⟩
    case wakeClosed gone _ =>
      have closed := ended.registered (by rw [here]; simp) (by rw [here]; simp) gone
      exact absurd ((pledge.parked here).symm.trans closed) Bool.false_ne_true
    all_goals
      refine grows eof (fun q => ?_)
      simp only [Stream.setPc,Stream.returnSome,List.count_append]
      omega
  | side m => exact grows ((sideFrame m).eof ▸ eof) (fun _ => by rw [(sideFrame m).delivered])

theorem completeKept (shape : Shape client v) (pledge : Pledge v) (ended : Ended v) (overtaken : Overtaken v)
    (complete : Complete v) (ok : CleanEnd v e) (m : Move client v e w) : Complete w :=
  ⟨keptKept shape ended complete ok m,pendingFinKept shape pledge ended complete m,
    channelKept shape ended overtaken complete m,drainedKept shape ended complete ok m,
    eofKept shape pledge ended complete m⟩

end Complete

structure Closing (client : Bool) (v : View) : Prop where
  shape : Shape client v
  pledge : Pledge v
  overtaken : Overtaken v
  ended : Ended v
  complete : Complete v

theorem runClosing {client max sid s} (reach : Run (Meets sid CleanEnd) client max s) :
    Closing client (view s sid) := by
  refine streamInvariant ?_ ?_ reach
  · refine ⟨shapeStart client max sid,pledgeStart client max sid,(fun h => by cases h),endedStart client max sid,?_⟩
    exact ⟨fun _ _ => Nat.zero_le _,fun _ _ _ => Nat.zero_le _,(fun h => by cases h),(fun h => by cases h),
      (fun h => by cases h)⟩
  · intro v e w known ok m
    obtain ⟨shape,pledge,overtaken,ended,complete⟩ := known
    exact ⟨shapeKept shape m,pledgeKept shape pledge m,overtakenKept shape overtaken m,
      endedKept shape pledge ended ok m,completeKept shape pledge ended overtaken complete ok m⟩

theorem eofComplete {client max sid s} (reach : Run (Meets sid (Once CleanEnd)) client max s)
    (eof : (s.stream sid).eof = true) :
    (s.stream sid).finSeen = true ∧ (s.stream sid).accepted.Subperm (s.stream sid).delivered := by
  obtain ⟨seen,within⟩ := (runClosing (onceMeets reach)).complete.eof eof
  exact ⟨seen,withinSubperm within⟩

def parks (sid : StreamId) (later : List Action) : List Action :=
  .read sid::.reader sid::.reader sid::.reader sid::.reader sid::.reader sid::.reader sid::.reader sid::later

def halfClosed : List Action :=
  .openStream 1::synacked 1 (.frame (.psh 1 [65]) true::.loop::.loop::.loop::.loop::.loop::
    .read 1::.reader 1::parks 1
    [.frame (.fin 1) true,.loop,.loop,.loop,.loop,.loop,.loop,.wake 1 .fin,
     .reader 1,.reader 1,.reader 1,.reader 1,.reader 1,.reader 1,.reader 1])

theorem eofCompleteHalfClosed : ∃ s, Run (Meets 1 (Once CleanEnd)) true 8 s ∧ (s.stream 1).eof = true ∧
    (s.stream 1).accepted = [[65]] ∧ (s.stream 1).finSeen = true ∧
    (s.stream 1).accepted.Subperm (s.stream 1).delivered := by
  have ran : (Machine.checked step (Meets 1 (Once CleanEnd)) (start true 8) halfClosed).any (fun s =>
      decide ((s.stream 1).eof = true ∧ (s.stream 1).accepted = [[65]])) = true := by rfl
  obtain ⟨s,run,here⟩ := Machine.checkedReaches ran
  obtain ⟨eof,accepted⟩ := of_decide_eq_true here
  exact ⟨s,run,eof,accepted,eofComplete run eof⟩

/- Stream 2 holds `pending_data` when the payload of stream 1 arrives, so it is stored;
the FIN token wakes the reader, and stream 2 holds the lock once more when it looks. -/
def contended : List Action :=
  .openStream 1::.openStream 2::synacked 1 (parks 1
    [.read 2,.reader 2,.reader 2,.reader 2,.frame (.psh 1 [65]) true,.loop,.loop,.loop,.reader 2,
     .acquire .loop,.loop,.loop,.frame (.fin 1) true,.loop,.loop,.loop,.loop,.loop,.loop,
     .reader 2,.reader 2,.reader 2,.cancel 2,.wake 1 .fin,.reader 1,.reader 1,
     .read 2,.reader 2,.reader 2,.reader 2,.reader 1,.reader 1])

theorem busyLockCutsStream : ∃ s, Run Machine.Always true 8 s ∧ (s.stream 1).eof = true ∧
    ¬ (s.stream 1).accepted.Subperm (s.stream 1).delivered := by
  have ran : (Machine.checked step Machine.Always (start true 8) contended).any (fun s =>
      decide ((s.stream 1).eof = true ∧ (s.stream 1).accepted = [[65]] ∧ (s.stream 1).delivered = [])) = true := by rfl
  obtain ⟨s,run,here⟩ := Machine.checkedReaches ran
  obtain ⟨eof,accepted,delivered⟩ := of_decide_eq_true here
  refine ⟨s,run,eof,?_⟩
  rw [accepted,delivered]
  intro within
  exact absurd within.length_le (by decide)

end KanoTls.Receive
