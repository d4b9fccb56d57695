import KanoTls.ReceiveShape

/-! One stream's payloads as a single line, from the reader back to the wire:
delivered, in the reader's hand, in the channel, being flushed, pending, in the
accept task's hands, buffered before accept; behind them the payload in the read
loop's hand. `shift` says what a step does to that line. -/
namespace KanoTls.Receive
open Pending Session

def View.hand (v : View) : List Payload := (v.pc.map HandlerPc.hand).getD []
def View.mid (v : View) : List Payload := (v.pc.map HandlerPc.mid).getD []
def View.preData (v : View) : List Payload := (v.pre.map (·.bufferedData)).getD []

def View.core (v : View) : List Payload :=
  v.st.delivered ++ v.st.reader.pc.out ++ v.st.data ++ v.mid ++ v.pending ++ v.st.accept.hand ++ v.preData

def HandlerPc.delivering : HandlerPc → Bool
  | .psh .preSynack _ | .psh .probe _ | .psh .probed _ | .psh .send _ | .psh .store _ => true
  | _ => false

def HandlerPc.closing : HandlerPc → Bool
  | .close _ _ => true
  | _ => false

def StreamHandle.accepts (h : StreamHandle) : Bool := !h.readClosed || h.synackTx

def View.live (v : View) : Bool :=
  v.pre.isSome || v.pc.any HandlerPc.delivering || (v.st.handle.any StreamHandle.accepts && !v.pc.any HandlerPc.closing)

inductive Shift (v : View) (e : Event) (w : View) : Prop where
  | still (core : w.core = v.core) (hand : w.hand = v.hand) (arrived : w.st.arrived = v.st.arrived)
      (alive : w.live = true → v.live = true)
  | arrive (payload) (core : w.core = v.core) (before : v.hand = []) (hand : w.hand = [payload])
      (arrived : w.st.arrived = v.st.arrived ++ [payload]) (alive : w.live = true → v.live = true)
  | keep (core : w.core = v.core ++ v.hand) (hand : w.hand = []) (arrived : w.st.arrived = v.st.arrived)
      (was : v.live = true)
  | drop (core : w.core = v.core) (hand : w.hand = []) (arrived : w.st.arrived = v.st.arrived)
      (lost : e = .dropOpen ∨ e = .dropPreSynack ∨ w.live = false)
  | cut (core : w.core <+: v.core) (hand : w.hand = v.hand) (arrived : w.st.arrived = v.st.arrived)
      (lost : w.live = false ∨ (e = .tearData ∧ v.pc.any HandlerPc.delivering = true))
  | migrate (lost : e = .dropMigrate) (core : w.core.Sublist v.core) (hand : w.hand = v.hand)
      (arrived : w.st.arrived = v.st.arrived) (was : v.live = true)
  | gone (away : w.st.reader.pc = .gone) (core : w.core.Sublist v.core) (hand : w.hand.Sublist v.hand)
      (delivered : w.st.delivered = v.st.delivered) (arrived : w.st.arrived = v.st.arrived)
  | opens (fresh : v.st.opened = false) (core : w.core = []) (arrived : w.st.arrived = w.hand)

section Line
variable {client : Bool} {v w : View} {e : Event}

-- the equations of these are made here, once for all the proofs that unfold them
section
attribute [local simp] View.mid View.hand View.live View.core View.preData HandlerPc.mid HandlerPc.hand
  HandlerPc.delivering HandlerPc.closing StreamHandle.accepts
end

theorem settledHand {pc : AcceptPc} (settled : pc.settled = true) : pc.hand = [] := by
  cases pc <;> first | rfl | contradiction

theorem Shape.open' (shape : Shape client v) (absent : v.pre = none) : v.st.accept.hand = [] ∧ v.preData = [] := by
  refine ⟨settledHand (shape.accepting.pre.mp absent),?_⟩
  rw [View.preData,absent]
  rfl

theorem Shape.midEmpty (shape : Shape client v) (more : v.pending ≠ []) : v.mid = [] := by
  unfold View.mid
  cases here : v.pc with
  | none => rfl
  | some pc =>
    have none : pc.emptied = false := by
      by_contra empty
      exact more (shape.emptied pc here (by simpa using empty))
    cases pc with
    | flush pc => cases pc <;> first | rfl | contradiction
    | _ => rfl

theorem walk {pc'} (none : v.mid = []) (none' : (pc'.map HandlerPc.mid).getD [] = [])
    (same : (pc'.map HandlerPc.hand).getD [] = v.hand)
    (alive : View.live {v with pc := pc'} = true → v.live = true) : Shift v e {v with pc := pc'} := by
  refine .still ?_ same rfl alive
  have none' : View.mid {v with pc := pc'} = [] := none'
  simp [View.core,View.preData,none,none']

theorem pshShift {payload pc} (shape : Shape client v) (here : v.pc = some (.psh pc payload))
    (m : PshMove client payload v pc e w) : Shift v e w := by
  have mid : v.mid = [] := by simp [View.mid,here,HandlerPc.mid]
  have absent (past : (HandlerPc.psh pc payload).dispatched = true) : v.pre = none := shape.dispatched _ here past
  have behind (past : (HandlerPc.psh pc payload).dispatched = true) := shape.open' (absent past)
  cases m
  case openDropped =>
    refine .drop ?_ rfl rfl (.inl rfl)
    simp [View.core,View.preData,View.mid,here,HandlerPc.mid]
  case openKept e found =>
    refine .keep ?_ rfl rfl (by simp [View.live,found])
    simp [View.core,View.preData,View.mid,View.hand,here,HandlerPc.hand,found,Stream.accepting,HandlerPc.mid]
  case notFound gone =>
    refine .drop ?_ rfl rfl (.inr (.inr ?_))
    · simp [View.core,View.preData,View.mid,here,HandlerPc.mid]
    · simp [View.live,gone,absent rfl]
  case closing h found answered closed =>
    have answered : h.synackTx = false := by
      cases client
      · exact (shape.serving rfl).handle h found
      · exact answered rfl
    refine .drop ?_ rfl rfl (.inr (.inr ?_))
    · simp [View.core,View.preData,View.mid,here,HandlerPc.mid]
    · simp [View.live,found,absent rfl,StreamHandle.accepts,answered,closed]
  case preSynack h c found waits =>
    refine walk mid rfl (by simp [View.hand,here,HandlerPc.hand]) fun _ => ?_
    simp [View.live,here,found,StreamHandle.accepts,waits,HandlerPc.closing]
  case deliver h found answered unclosed =>
    refine walk mid rfl (by simp [View.hand,here,HandlerPc.hand]) fun _ => ?_
    simp [View.live,here,found,StreamHandle.accepts,unclosed,HandlerPc.closing]
  case preSynackDropped =>
    refine .drop ?_ rfl rfl (.inr (.inl rfl))
    simp [View.core,View.preData,View.mid,here,HandlerPc.mid]
  case preSynackKept =>
    refine .keep ?_ rfl rfl (by simp [View.live,here,HandlerPc.delivering])
    have behind := behind rfl
    simp only [View.preData] at behind
    simp [View.core,View.preData,View.mid,View.hand,here,HandlerPc.hand,behind,Stream.accepting,HandlerPc.mid]
  case sendGone gone =>
    refine .gone gone ?_ (List.nil_sublist _) rfl rfl
    simp [View.core,View.preData,View.mid,here,HandlerPc.mid]
  case sendOk alive =>
    have empty := shape.emptied _ here rfl
    refine .keep ?_ rfl rfl (by simp [View.live,here,HandlerPc.delivering])
    have behind := behind rfl
    simp only [View.preData] at behind
    simp [View.core,View.preData,View.mid,View.hand,here,HandlerPc.hand,behind,empty,Stream.accepting,HandlerPc.mid]
  case storeDropped =>
    refine .drop ?_ rfl rfl (.inr (.inr ?_))
    · simp [View.core,View.preData,View.mid,HandlerPc.mid,here]
    · simp [View.live,absent rfl,HandlerPc.delivering,HandlerPc.closing]
  case storeKept =>
    refine .keep ?_ rfl rfl (by simp [View.live,here,HandlerPc.delivering])
    have behind := behind rfl
    simp only [View.preData] at behind
    simp [View.core,View.preData,View.mid,View.hand,here,HandlerPc.hand,HandlerPc.mid,behind,Stream.accepting]
  case notify =>
    refine .still ?_ (by simp [View.hand,here,HandlerPc.hand]) rfl ?_
    · simp [View.core,View.preData,View.mid,Stream.notifyWaiters,here,HandlerPc.mid]
    · simp [View.live,here,HandlerPc.delivering,HandlerPc.closing,Stream.notifyWaiters]
  all_goals
    refine walk mid rfl (by simp [View.hand,here,HandlerPc.hand]) ?_
    simp [View.live,here,HandlerPc.delivering,HandlerPc.closing]

theorem closeShift {sender pc} (shape : Shape client v) (here : v.pc = some (.close pc sender))
    (m : CloseMove sender v pc w) : Shift v .quiet w := by
  have mid : v.mid = [] := by simp [View.mid,here,HandlerPc.mid]
  have absent := shape.dispatched _ here rfl
  have behind := shape.open' absent
  cases m
  case remember =>
    refine walk mid rfl (by simp [View.hand,here,HandlerPc.hand]) ?_
    simp [View.live,here,HandlerPc.delivering,HandlerPc.closing]
  case unregister =>
    refine .still ?_ (by simp [View.hand,here,HandlerPc.hand]) rfl (by simp [View.live,absent,HandlerPc.delivering])
    simp [View.core,View.preData,View.mid,HandlerPc.mid,here]
  case removeData =>
    refine .cut ?_ (by simp [View.hand,here,HandlerPc.hand]) rfl (.inl ?_)
    · simp only [View.preData] at behind
      simp [View.core,View.preData,View.mid,HandlerPc.mid,behind,here]
    · simp [View.live,absent,HandlerPc.delivering,HandlerPc.closing]
  case removeFin =>
    have severed := shape.severed _ here rfl
    refine .still ?_ (by simp [View.hand,here,HandlerPc.hand]) rfl (by simp [View.live,absent,severed])
    simp [View.core,View.preData,View.mid,here,HandlerPc.mid]

theorem finShift {pc} (here : v.pc = some (.fin pc)) (m : FinMove v pc e w) :
    Shift v e w := by
  have mid : v.mid = [] := by simp [View.mid,here,HandlerPc.mid]
  have hand : v.hand = [] := by simp [View.hand,here,HandlerPc.hand]
  cases m
  case take closed found =>
    refine .still ?_ (by simp [View.hand,here,HandlerPc.hand]) rfl fun _ => ?_
    · simp [View.core,View.preData,View.mid,HandlerPc.mid,here]
    · simp [View.live,here,found,StreamHandle.accepts,HandlerPc.closing]
  case isOpen e e' found kept =>
    refine .still ?_ (by simp [View.hand,here,HandlerPc.hand]) rfl fun _ => ?_
    · simp [View.core,View.preData,View.mid,HandlerPc.mid,found,kept.1,here]
    · simp [View.live,found]
  case mark h found =>
    refine .still ?_ (by simp [View.hand,here,HandlerPc.hand]) rfl ?_
    · simp [View.core,View.preData,View.mid,HandlerPc.mid,here]
    · simp only [View.live,here,found]
      simp [HandlerPc.closing,HandlerPc.delivering,StreamHandle.accepts]
      tauto
  case send =>
    refine .still ?_ (by simp [View.hand,here,HandlerPc.hand]) rfl ?_
    · simp [View.core,View.preData,View.mid,HandlerPc.mid,here]
    · simp [View.live,here,HandlerPc.delivering,HandlerPc.closing]
  case store =>
    refine .still ?_ (by simp [View.hand,here,HandlerPc.hand]) rfl ?_
    · simp [View.core,View.preData,View.mid,HandlerPc.mid,here]
    · simp [View.live,here,HandlerPc.delivering,HandlerPc.closing]
  all_goals
    refine walk mid rfl (by simp [View.hand,here,HandlerPc.hand]) ?_
    simp [View.live,here,HandlerPc.delivering,HandlerPc.closing]

theorem synackShift {pc} (here : v.pc = some (.synack pc)) (m : SynackMove v pc e w) : Shift v e w := by
  have mid : v.mid = [] := by simp [View.mid,here,HandlerPc.mid]
  cases m
  case take reason closed found =>
    refine .still ?_ (by simp [View.hand,here,HandlerPc.hand]) rfl fun _ => ?_
    · simp [View.core,View.preData,View.mid,HandlerPc.mid,here]
    · simp [View.live,here,found,StreamHandle.accepts,HandlerPc.closing]
  case gone =>
    refine walk mid rfl (by simp [View.hand,here,HandlerPc.hand]) ?_
    simp [View.live,here,HandlerPc.delivering,HandlerPc.closing]
    tauto
  all_goals
    refine walk mid rfl (by simp [View.hand,here,HandlerPc.hand]) ?_
    simp [View.live,here,HandlerPc.delivering,HandlerPc.closing]

theorem flushShift {pc} (shape : Shape client v) (here : v.pc = some (.flush pc)) (m : FlushMove v pc w) :
    Shift v .quiet w := by
  have hand : v.hand = [] := by simp [View.hand,here,HandlerPc.hand]
  have awake (w : View) (pre : w.pre = v.pre) (handle : w.st.handle = v.st.handle)
      (idle : w.pc.any HandlerPc.delivering = false) : w.live = true → v.live = true := by
    simp only [View.live,pre,handle,idle,here]
    simp [HandlerPc.delivering,HandlerPc.closing]
    tauto
  cases m
  case restore remaining fin =>
    have empty := shape.emptied _ here rfl
    refine .still ?_ hand.symm rfl (awake _ rfl rfl rfl)
    simp [View.core,View.preData,View.mid,here,HandlerPc.mid,FlushPc.mid,empty]
  case gone payload rest fin gone =>
    refine .gone gone ?_ (List.nil_sublist _) rfl rfl
    have none : View.mid {v with pc := some (.close .remember true)} = [] := rfl
    simp only [View.core,View.preData,none,List.append_nil,List.append_assoc]
    refine (List.Sublist.refl _).append ((List.Sublist.refl _).append ((List.Sublist.refl _).append ?_))
    exact List.sublist_append_right _ _
  case unregister =>
    refine .still ?_ hand.symm rfl ?_
    · simp [View.core,View.preData,View.mid,here,HandlerPc.mid,FlushPc.mid]
    · simp only [View.live,here]
      simp [HandlerPc.delivering,HandlerPc.closing]
      tauto
  all_goals
    refine .still ?_ hand.symm rfl (awake _ rfl rfl rfl)
    simp [View.core,View.preData,View.mid,here,HandlerPc.mid,FlushPc.mid,Stream.notifyWaiters]

theorem acceptShift {pc} (shape : Shape client v) (here : v.st.accept = pc) (m : AcceptMove v pc e w) :
    Shift v e w := by
  have busy := acceptBusy here m
  have present : v.pre.isSome = true := by
    rw [Option.isSome_iff_ne_none,Ne,shape.accepting.pre,busy]
    exact Bool.false_ne_true
  have alive : v.live = true := by simp [View.live,present]
  have absent := shape.accepting.absent busy
  have mid : (v.pc.map HandlerPc.mid).getD [] = [] := by
    cases at' : v.pc with
    | none => rfl
    | some pc =>
      have serving := (shape.undispatched busy at').2
      cases pc with
      | flush pc => contradiction
      | _ => rfl
  cases m
  case send payload rest overflow fin sent room =>
    have empty : v.pending = [] ∧ overflow = [] := by
      by_contra more
      have full := shape.backlog busy (by rw [here,AcceptPc.overflow]; tauto)
      omega
    refine .still ?_ rfl rfl fun _ => alive
    simp [View.core,View.preData,View.mid,mid,here,AcceptPc.hand,empty]
  case remove =>
    have closed := shape.removal here
    refine .cut ?_ rfl rfl (.inl ?_)
    · simp [View.core,View.preData,View.mid,mid,here,AcceptPc.hand,absent,ReaderPc.out]
    · have idle : v.pc.any HandlerPc.delivering = false := by
        cases at' : v.pc with
        | none => rfl
        | some pc =>
          have undispatched := (shape.undispatched busy at').1
          cases pc with
          | psh pc => cases pc <;> first | rfl | contradiction
          | _ => rfl
      have shut : v.st.handle.any StreamHandle.accepts = false := by
        cases found : v.st.handle with
        | none => rfl
        | some h =>
          have serving := (shape.serving (by
            cases client
            · rfl
            · exact absurd (shape.accepting.server rfl) (by simp [here]))).handle h found
          simp [StreamHandle.accepts,closed h found,serving]
      simp [View.live,idle,shut]
  case dropped payload rest fin sent =>
    refine .migrate rfl ?_ rfl rfl alive
    simp only [View.core,View.preData,View.mid,here,AcceptPc.hand]
    refine List.Sublist.append ?_ (List.Sublist.refl _)
    exact (List.Sublist.refl _).append (List.sublist_cons_self _ _)
  case release pre kept =>
    have data := congrArg (Option.map Prod.fst) kept
    simp only [Option.map_map,Function.comp_def] at data
    refine .still ?_ rfl rfl fun _ => alive
    simp only [View.core,View.preData,View.mid,here,AcceptPc.hand,data]
  case opened found nothing =>
    refine .still ?_ rfl rfl fun _ => alive
    simp [View.core,View.preData,View.mid,here,AcceptPc.hand,absent,ReaderPc.out,Stream.setPc,found,nothing.1]
  case take found _ =>
    refine .still ?_ rfl rfl fun _ => alive
    simp [View.core,View.preData,View.mid,here,AcceptPc.hand,found]
  all_goals
    refine .still ?_ rfl rfl fun _ => alive
    simp [View.core,View.preData,View.mid,here,AcceptPc.hand,absent,ReaderPc.out,Stream.setPc]

theorem readerShift {pc} (shape : Shape client v) (first : e = .pop → v.st.data = [])
    (here : v.st.reader.pc = pc) (m : ReaderMove client v pc e w) : Shift v e w := by
  have same := readerFrame m
  have alive : w.live = true → v.live = true := by
    rw [View.live,same.pre,same.pc,same.handle]
    exact id
  cases m
  case popLast payload c last =>
    have mid := shape.midEmpty (by rw [last]; exact List.cons_ne_nil _ _)
    refine .still ?_ rfl rfl alive
    simp only [View.mid] at mid
    simp [View.core,View.preData,View.mid,mid,here,ReaderPc.out,Stream.setPc,first rfl,last]
  case popSome payload rest found =>
    have mid := shape.midEmpty (by rw [found]; exact List.cons_ne_nil _ _)
    refine .still ?_ rfl rfl alive
    simp only [View.mid] at mid
    simp [View.core,View.preData,View.mid,mid,here,ReaderPc.out,Stream.returnSome,Stream.setPc,first rfl,found]
  case recvSome payload rest found =>
    refine .still ?_ rfl rfl alive
    simp [View.core,View.preData,View.mid,here,ReaderPc.out,Stream.returnSome,Stream.setPc,found]
  case wakeData payload rest found =>
    refine .still ?_ rfl rfl alive
    simp [View.core,View.preData,View.mid,here,ReaderPc.out,Stream.returnSome,Stream.setPc,found]
  case popNone empty =>
    refine .still ?_ rfl rfl alive
    cases client <;> simp [View.core,View.preData,View.mid,here,ReaderPc.out,Stream.setPc]
  case finFree out =>
    refine .still ?_ rfl rfl alive
    cases out <;> simp [View.core,View.preData,View.mid,here,ReaderPc.out,Stream.setPc]
  all_goals
    refine .still ?_ rfl rfl alive
    simp [View.core,View.preData,View.mid,here,ReaderPc.out,Stream.setPc,Stream.returnSome,Stream.returnNone]

theorem sideShift (shape : Shape client v) (m : LocalMove v e w) : Shift v e w := by
  cases m
  case dropReadHalf handle idle marked =>
    refine .gone rfl ?_ (List.Sublist.refl _) rfl rfl
    simp only [View.core,View.preData,View.mid,Stream.setPc,idle,ReaderPc.out]
    simp
  case unregister here =>
    refine .still rfl rfl rfl ?_
    simp only [View.live]
    simp
    tauto
  case removeData here =>
    have settled : v.st.accept.settled = true := by
      by_contra busy
      have present := shape.torn (by rw [here]; exact TeardownPc.noConfusion)
      exact present (shape.accepting.absent (by simpa using busy))
    have absent := shape.accepting.pre.mpr settled
    have severed := shape.tornHandle (by rw [here]; rfl)
    obtain ⟨hand,behind⟩ := shape.open' absent
    refine .cut ?_ rfl rfl ?_
    · simp only [View.preData] at behind
      simp [View.core,View.preData,View.mid,hand,behind]
    · cases delivering : v.pc.any HandlerPc.delivering
      · exact .inl (by simp [View.live,absent,severed,delivering])
      · exact .inr ⟨rfl,rfl⟩
  case sweepData gone =>
    refine .gone gone ?_ (List.Sublist.refl _) rfl rfl
    refine List.Sublist.append (List.Sublist.append ?_ (List.Sublist.refl _)) (List.Sublist.refl _)
    exact (List.Sublist.refl _).append (List.nil_sublist _)
  all_goals exact .still rfl rfl rfl id

theorem frameShift (shape : Shape client v) (opened : w.st.opened = true) (m : FrameMove client v w) :
    Shift v .quiet w := by
  cases m
  case openStream c fresh =>
    obtain ⟨st,pending,_,outside⟩ := shape.fresh fresh
    have absent : v.pre = none := by
      rw [shape.accepting.pre,st]
      rfl
    have mid : (v.pc.map HandlerPc.mid).getD [] = [] := by
      cases at' : v.pc with
      | none => rfl
      | some pc =>
        have out := outside pc at'
        cases pc with
        | flush pc => contradiction
        | _ => rfl
    refine .opens fresh ?_ rfl
    simp [View.core,View.preData,View.mid,mid,st,pending,absent,ReaderPc.out,AcceptPc.hand]
  case ignored => exact .still rfl rfl rfl id
  case psh payload idle known =>
    refine .arrive payload ?_ (by simp [View.hand,idle]) rfl rfl ?_
    · simp [View.core,View.preData,View.mid,idle,HandlerPc.mid]
    · simp [View.live,idle,HandlerPc.delivering,HandlerPc.closing]
  case pshUnknown unknown => exact absurd (unknown.symm.trans opened) Bool.false_ne_true
  case windowUpdate => exact .still rfl rfl rfl id
  all_goals
    rename_i idle
    refine .still ?_ ?_ rfl ?_
    · simp [View.core,View.preData,View.mid,idle,HandlerPc.mid]
    · simp [View.hand,idle,HandlerPc.hand]
    · simp [View.live,idle,HandlerPc.delivering,HandlerPc.closing]

theorem synShift {queued} (shape : Shape client v) (here : v.pc = some (.syn queued)) (m : SynMove client v e w) :
    Shift v e w := by
  have mid : v.mid = [] := by simp [View.mid,here,HandlerPc.mid]
  have hand : v.hand = [] := by simp [View.hand,here,HandlerPc.hand]
  cases m with
  | refused =>
    refine walk mid rfl hand.symm ?_
    simp [View.live,here,HandlerPc.delivering,HandlerPc.closing]
  | opened c fresh absent =>
    obtain ⟨st,pending,_,_⟩ := shape.fresh fresh
    refine .opens fresh ?_ ?_
    · simp [View.core,View.preData,View.mid,st,pending,ReaderPc.out,AcceptPc.hand]
    · simp [View.hand,st]
  | again =>
    refine walk mid rfl hand.symm ?_
    simp [View.live,here,HandlerPc.delivering,HandlerPc.closing]

theorem loopShift {pc} (shape : Shape client v) (here : v.pc = some pc) (m : LoopMove client v pc e w) : Shift v e w := by
  cases m with
  | psh m => exact pshShift shape here m
  | close m => exact closeShift shape here m
  | fin m => exact finShift here m
  | synack m => exact synackShift here m
  | flush m => exact flushShift shape here m

theorem shift (shape : Shape client v) (first : e = .pop → v.st.data = []) (m : Move client v e w)
    (opened : w.st.opened = true) : Shift v e w := by
  cases m with
  | frame m => exact frameShift shape opened m
  | loop here m => exact loopShift shape here m
  | syn here m => exact synShift shape here m
  | accept here m => exact acceptShift shape here m
  | reader here m => exact readerShift shape first here m
  | side m => exact sideShift shape m

end Line
end KanoTls.Receive
