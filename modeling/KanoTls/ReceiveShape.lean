import KanoTls.ReceiveStep

/-! Facts that every run keeps, whatever its order: which tasks can be active on a
stream together, and where a payload can stand. `streamInvariant` carries a
property of one stream's view over a run. -/
namespace KanoTls.Receive
open Pending Session

structure SameEnds (s t : Session) : Prop where
  client : t.isClient = s.isClient
  fc : t.peerFlowControl = s.peerFlowControl

theorem unregisterEnds (s : Session) (sid : StreamId) : SameEnds s (s.unregisterStream sid) := by
  unfold unregisterStream
  split <;> exact ⟨rfl,rfl⟩

theorem markEnds (s : Session) (sid : StreamId) : SameEnds s (s.markStreamReadClosed sid) := by
  unfold markStreamReadClosed
  split
  · exact ⟨rfl,rfl⟩
  · split <;> exact ⟨rfl,rfl⟩

theorem loopEnds {s t : Session} (moved : s.loopStep = some t) : SameEnds s t := by
  have unregister := unregisterEnds s
  have mark := markEnds s
  unfold loopStep at moved
  split at moved
  · contradiction
  · rename_i pc payload here
    cases pc <;> simp only [pshStep] at moved <;> (repeat' split at moved) <;> try contradiction
    all_goals cases Option.some.inj moved; exact ⟨rfl,rfl⟩
  · rename_i sid pc sender here
    cases pc <;> simp only [closeStep] at moved <;> (repeat' split at moved) <;> try contradiction
    all_goals cases Option.some.inj moved; first | exact ⟨rfl,rfl⟩ | exact ⟨(unregister sid).client,(unregister sid).fc⟩
  · rename_i sid pc here
    cases pc <;> simp only [finStep] at moved <;> (repeat' split at moved) <;> try contradiction
    all_goals cases Option.some.inj moved; first | exact ⟨rfl,rfl⟩ | exact ⟨(mark sid).client,(mark sid).fc⟩
  · rename_i pc here
    cases pc <;> simp only [synackStep] at moved <;> (repeat' split at moved) <;> try contradiction
    all_goals cases Option.some.inj moved; exact ⟨rfl,rfl⟩
  · rename_i sid pc here
    unfold flushStep at moved
    split at moved <;> (try dsimp only at moved) <;> (repeat' split at moved) <;> try contradiction
    all_goals cases Option.some.inj moved; first | exact ⟨rfl,rfl⟩ | exact ⟨(unregister sid).client,(unregister sid).fc⟩
  · simp only [synStep] at moved
    repeat' split at moved
    all_goals cases Option.some.inj moved; exact ⟨rfl,rfl⟩
  · contradiction

theorem acceptEnds {s t : Session} {sid : StreamId} (moved : s.acceptStep sid = some t) : SameEnds s t := by
  have unregister := unregisterEnds s sid
  have mark := markEnds s sid
  unfold acceptStep at moved
  dsimp only at moved
  split at moved <;> (repeat' split at moved) <;> try contradiction
  all_goals cases Option.some.inj moved
  all_goals first | exact ⟨rfl,rfl⟩ | exact ⟨unregister.client,unregister.fc⟩ | exact ⟨mark.client,mark.fc⟩

theorem stepEnds {s t : Session} {a : Action} (moved : step s a = some t) :
    t.isClient = s.isClient ∧ (s.peerFlowControl = true → t.peerFlowControl = true) := by
  have same (ends : SameEnds s t) : t.isClient = s.isClient ∧ (s.peerFlowControl = true → t.peerFlowControl = true) :=
    ⟨ends.client,fun fc => ends.fc.trans fc⟩
  cases a with
  | loop => exact same (loopEnds moved)
  | accept sid => exact same (acceptEnds moved)
  | frame f queued =>
    simp only [step] at moved
    split at moved <;> try contradiction
    cases f with
    | settings fc =>
      cases Option.some.inj moved
      exact ⟨rfl,fun known => by simp [known]⟩
    | _ =>
      simp only [handleFrame] at moved
      repeat' split at moved
      all_goals cases Option.some.inj moved; exact same ⟨rfl,rfl⟩
  | reader sid =>
    simp only [step,readerStep] at moved
    repeat' split at moved
    all_goals try contradiction
    all_goals cases Option.some.inj moved; exact same ⟨rfl,rfl⟩
  | dropReadHalf sid marks =>
    have mark := markEnds s sid
    simp only [step] at moved
    split at moved <;> try contradiction
    cases marks <;> cases Option.some.inj moved
    · exact same ⟨rfl,rfl⟩
    · exact same ⟨mark.client,mark.fc⟩
  | teardown sid tombstone =>
    have unregister := unregisterEnds s sid
    simp only [step,teardownStep] at moved
    repeat' split at moved
    all_goals try contradiction
    all_goals cases Option.some.inj moved
    all_goals first | exact same ⟨rfl,rfl⟩ | exact same ⟨unregister.client,unregister.fc⟩
  | _ =>
    simp only [step,acquire,wakeStep,sweepData,sweepFin] at moved
    repeat' split at moved
    all_goals try contradiction
    all_goals cases Option.some.inj moved; exact same ⟨rfl,rfl⟩

theorem stepClient {s t : Session} {a : Action} (moved : step s a = some t) : t.isClient = s.isClient := (stepEnds moved).1

/- The steps on stream `sid` meet `okv`; nothing is asked of the other streams. -/
def Meets (sid : StreamId) (okv : View → Event → Prop) (s : Session) (a : Action) : Prop :=
  target s a = some sid → okv (view s sid) (event s a)

instance (sid : StreamId) (okv : View → Event → Prop) [∀ v e, Decidable (okv v e)] (s : Session) (a : Action) :
    Decidable (Meets sid okv s a) := inferInstanceAs (Decidable (_ → _))

theorem streamInvariant {okv : View → Event → Prop} {client : Bool} {max : Nat} {sid : StreamId} {I : View → Prop}
    (base : I (view (start client max) sid))
    (keeps : ∀ {v e w}, I v → okv v e → Move client v e w → I w)
    {s} (reach : Run (Meets sid okv) client max s) : I (view s sid) := by
  have both : s.isClient = client ∧ I (view s sid) := by
    refine Machine.reachInvariant (I := fun s => s.isClient = client ∧ I (view s sid)) ⟨rfl,base⟩ ?_ reach
    intro s a t known meets moved
    refine ⟨(stepClient moved).trans known.1,?_⟩
    by_cases here : target s a = some sid
    · have move := stepMoves moved here
      rw [known.1] at move
      exact keeps known.2 (meets here) move
    · rw [stepApart moved here]
      exact known.2
  exact both.2

def ReaderPc.out : ReaderPc → List Payload
  | .finTry (some payload) | .finLocked (some payload) => [payload]
  | _ => []

def FlushPc.mid : FlushPc → List Payload
  | .takeFin todo => todo
  | .send todo remaining _ => remaining ++ todo
  | .restore remaining _ => remaining
  | _ => []

def HandlerPc.mid : HandlerPc → List Payload
  | .flush pc => pc.mid
  | _ => []

def AcceptPc.overflow : AcceptPc → List Payload
  | .flushSend _ overflow _ _ | .flushStore overflow _ _ => overflow
  | _ => []

def AcceptPc.hand : AcceptPc → List Payload
  | .flushSend todo overflow _ _ => overflow ++ todo
  | .flushStore overflow _ _ => overflow
  | _ => []

def AcceptPc.settled : AcceptPc → Bool
  | .none | .done => true
  | _ => false

def AcceptPc.early : AcceptPc → Bool
  | .queued | .register => true
  | _ => false

def HandlerPc.outside : HandlerPc → Bool
  | .psh .isOpen _ | .psh .storeOpen _ | .psh .dispatch _ => true
  | .fin .takeSynack | .fin .isOpen | .fin .closing | .fin .mark => true
  | .synack (.take _) | .syn _ => true
  | _ => false

def HandlerPc.clientOnly : HandlerPc → Bool
  | .psh .preSynack _ | .fin .takeSynack | .fin .store => true
  | .synack .probeData | .synack .probeFin | .synack (.reply _) | .flush _ => true
  | _ => false

def HandlerPc.dispatched : HandlerPc → Bool
  | .psh .isOpen _ | .psh .storeOpen _ => false
  | .psh _ _ | .close _ _ => true
  | .fin .closing | .fin .mark | .fin .send | .fin .clear => true
  | _ => false

def HandlerPc.emptied : HandlerPc → Bool
  | .psh .send _ | .flush (.takeFin _) | .flush (.send ..) | .flush (.restore ..) => true
  | _ => false

/- The handle was removed by this very task, and a stream id is registered once. -/
def HandlerPc.severed : HandlerPc → Bool
  | .close .removeData _ | .close .removeFin _ | .flush .clear => true
  | _ => false

def TeardownPc.severed : TeardownPc → Bool
  | .removeData | .removeFin | .done => true
  | _ => false

/- What the tasks leave alone, one structure a task. -/
structure LoopFrame (v w : View) : Prop where
  opened : w.st.opened = v.st.opened
  accept : w.st.accept = v.st.accept
  reader : w.st.reader.pc = v.st.reader.pc ∧ w.st.reader.readClosed = v.st.reader.readClosed
  teardown : w.st.teardown = v.st.teardown
  arrived : w.st.arrived = v.st.arrived
  delivered : w.st.delivered = v.st.delivered
  finSeen : w.st.finSeen = v.st.finSeen
  eof : w.st.eof = v.st.eof
  pre : w.pre = none ↔ v.pre = none

theorem loopFrame {client v pc e w} (m : LoopMove client v pc e w) : LoopFrame v w := by
  cases m with
  | psh m => cases m <;> first | exact ⟨rfl,rfl,⟨rfl,rfl⟩,rfl,rfl,rfl,rfl,rfl,Iff.rfl⟩ | skip
             rename_i found
             exact ⟨rfl,rfl,⟨rfl,rfl⟩,rfl,rfl,rfl,rfl,rfl,by simp [found]⟩
  | close m => cases m <;> exact ⟨rfl,rfl,⟨rfl,rfl⟩,rfl,rfl,rfl,rfl,rfl,Iff.rfl⟩
  | fin m => cases m <;> first | exact ⟨rfl,rfl,⟨rfl,rfl⟩,rfl,rfl,rfl,rfl,rfl,Iff.rfl⟩ | skip
             rename_i found _
             exact ⟨rfl,rfl,⟨rfl,rfl⟩,rfl,rfl,rfl,rfl,rfl,by simp [found]⟩
  | synack m => cases m <;> exact ⟨rfl,rfl,⟨rfl,rfl⟩,rfl,rfl,rfl,rfl,rfl,Iff.rfl⟩
  | flush m => cases m <;> exact ⟨rfl,rfl,⟨rfl,rfl⟩,rfl,rfl,rfl,rfl,rfl,Iff.rfl⟩

structure ReaderFrame (v w : View) : Prop where
  opened : w.st.opened = v.st.opened
  accept : w.st.accept = v.st.accept
  teardown : w.st.teardown = v.st.teardown
  handle : w.st.handle = v.st.handle
  arrived : w.st.arrived = v.st.arrived
  accepted : w.st.accepted = v.st.accepted
  finSeen : w.st.finSeen = v.st.finSeen
  refused : w.st.refused = v.st.refused
  pre : w.pre = v.pre
  pc : w.pc = v.pc
  pending : w.pending <:+ v.pending

theorem readerFrame {client v pc e w} (m : ReaderMove client v pc e w) : ReaderFrame v w := by
  cases m
  case popLast last => exact ⟨rfl,rfl,rfl,rfl,rfl,rfl,rfl,rfl,rfl,rfl,List.nil_suffix⟩
  case popSome rest found =>
    refine ⟨rfl,rfl,rfl,rfl,rfl,rfl,rfl,rfl,rfl,rfl,?_⟩
    rw [found]
    exact List.suffix_cons _ _
  all_goals exact ⟨rfl,rfl,rfl,rfl,rfl,rfl,rfl,rfl,rfl,rfl,List.suffix_refl _⟩

theorem readerPresent {client v pc e w} (here : v.st.reader.pc = pc) (m : ReaderMove client v pc e w) :
    v.st.reader.pc ≠ .absent := by
  cases m <;> rw [here] <;> exact ReaderPc.noConfusion

structure SideFrame (v w : View) : Prop where
  opened : w.st.opened = v.st.opened
  accept : w.st.accept = v.st.accept
  arrived : w.st.arrived = v.st.arrived
  delivered : w.st.delivered = v.st.delivered
  accepted : w.st.accepted = v.st.accepted
  finSeen : w.st.finSeen = v.st.finSeen
  eof : w.st.eof = v.st.eof
  refused : w.st.refused = v.st.refused
  readClosed : w.st.reader.readClosed = v.st.reader.readClosed
  pre : w.pre = v.pre
  pc : w.pc = v.pc
  pending : w.pending <:+ v.pending

theorem sideFrame {v e w} (m : LocalMove v e w) : SideFrame v w := by
  cases m
  case removeData => exact ⟨rfl,rfl,rfl,rfl,rfl,rfl,rfl,rfl,rfl,rfl,rfl,List.nil_suffix⟩
  case sweepData => exact ⟨rfl,rfl,rfl,rfl,rfl,rfl,rfl,rfl,rfl,rfl,rfl,List.nil_suffix⟩
  all_goals exact ⟨rfl,rfl,rfl,rfl,rfl,rfl,rfl,rfl,rfl,rfl,rfl,List.suffix_refl _⟩

structure AcceptFrame (v w : View) : Prop where
  opened : w.st.opened = v.st.opened
  teardown : w.st.teardown = v.st.teardown
  arrived : w.st.arrived = v.st.arrived
  delivered : w.st.delivered = v.st.delivered
  accepted : w.st.accepted = v.st.accepted
  finSeen : w.st.finSeen = v.st.finSeen
  eof : w.st.eof = v.st.eof
  refused : w.st.refused = v.st.refused
  pc : w.pc = v.pc
  finPending : w.finPending = v.finPending

theorem acceptFrame {v pc e w} (m : AcceptMove v pc e w) : AcceptFrame v w := by
  cases m <;> exact ⟨rfl,rfl,rfl,rfl,rfl,rfl,rfl,rfl,rfl,rfl⟩

structure Untouched (v : View) : Prop where
  st : v.st = {}
  pending : v.pending = []
  finPending : v.finPending = false
  outside : ∀ pc, v.pc = some pc → pc.outside = true

structure Accepting (client : Bool) (v : View) : Prop where
  server : client = true → v.st.accept = .none
  pre : v.pre = none ↔ v.st.accept.settled = true
  absent : v.st.accept.settled = false → v.st.reader.pc = .absent

structure Serving (v : View) : Prop where
  finPending : v.finPending = false
  handle : ∀ h, v.st.handle = some h → h.synackTx = false
  pc : ∀ pc, v.pc = some pc → pc.clientOnly = false

structure Shape (client : Bool) (v : View) : Prop where
  fresh : v.st.opened = false → Untouched v
  accepting : Accepting client v
  serving : client = false → Serving v
  dispatched : ∀ pc, v.pc = some pc → pc.dispatched = true → v.pre = none
  emptied : ∀ pc, v.pc = some pc → pc.emptied = true → v.pending = []
  early : v.st.accept.early = true → v.pending = [] ∧ v.st.data = [] ∧ v.st.handle = none
  backlog : v.st.accept.settled = false → v.pending ≠ [] ∨ v.st.accept.overflow ≠ [] →
    streamChannelCapacity ≤ v.st.data.length
  severed : ∀ pc, v.pc = some pc → pc.severed = true → v.st.handle = none
  removal : v.st.accept = .flushRemove → ∀ h, v.st.handle = some h → h.readClosed = true
  torn : v.st.teardown ≠ .none → v.st.reader.pc ≠ .absent
  tornHandle : v.st.teardown.severed = true → v.st.handle = none

theorem freshKept {client v e w} (shape : Shape client v) (m : Move client v e w) (unopened : w.st.opened = false) :
    Untouched w := by
  have blank (was : v.st.opened = false) : v.pre = none := by
    rw [shape.accepting.pre,(shape.fresh was).st]
    rfl
  cases m with
  | frame m =>
    cases m
    case ignored => exact shape.fresh unopened
    case openStream => contradiction
    case psh known => exact absurd (unopened.symm.trans known) Bool.false_ne_true
    case pshUnknown payload idle unknown =>
      obtain ⟨st,pending,fin,_⟩ := shape.fresh unopened
      refine ⟨st,pending,fin,?_⟩
      rintro pc ⟨⟩
      rfl
    case syn =>
      obtain ⟨st,pending,fin,_⟩ := shape.fresh unopened
      refine ⟨st,pending,fin,?_⟩
      rintro pc ⟨⟩
      rfl
    case fin idle =>
      obtain ⟨st,pending,fin,_⟩ := shape.fresh unopened
      refine ⟨by rw [st]; rfl,pending,fin,?_⟩
      rintro pc ⟨⟩
      cases client <;> rfl
    case synack reason idle =>
      obtain ⟨st,pending,fin,_⟩ := shape.fresh unopened
      refine ⟨st,pending,fin,?_⟩
      rintro pc ⟨⟩
      rfl
    case windowUpdate registered =>
      have st := (shape.fresh unopened).st
      rw [st] at registered
      contradiction
  | loop here m =>
    have was : v.st.opened = false := (loopFrame m).opened ▸ unopened
    obtain ⟨st,pending,fin,outside⟩ := shape.fresh was
    have pre := blank was
    have out := outside _ here
    have stays {pc'} (out : ∀ pc, pc' = some pc → pc.outside = true) : Untouched {v with pc := pc'} :=
      ⟨st,pending,fin,out⟩
    have unregistered : v.st.handle = none := by rw [st]
    cases m with
    | psh m =>
      cases m <;> first | contradiction | skip
      case isOpen found => simp [pre] at found
      case isNotOpen => exact stays (by simp [HandlerPc.outside])
      case openGone => exact stays (by simp [HandlerPc.outside])
      case openDropped => exact stays (by simp)
      case openKept found => simp [pre] at found
      case notFound => exact stays (by simp)
      case preSynack found _ => simp [unregistered] at found
      case closing found _ _ => simp [unregistered] at found
      case deliver found _ _ => simp [unregistered] at found
    | close m => cases out
    | fin m =>
      cases m <;> first | contradiction | skip
      case take found => simp [unregistered] at found
      case takeNone => exact stays (by simp [HandlerPc.outside])
      case notOpen => exact stays (by simp [HandlerPc.outside])
      case isOpen found _ => simp [pre] at found
      case tombstone => exact stays (by simp)
      case closing => exact stays (by simp [HandlerPc.outside])
      case markNone => exact stays (by simp)
      case mark found => simp [unregistered] at found
    | synack m =>
      cases m <;> first | contradiction | skip
      case take found => simp [unregistered] at found
      case takeNone => exact stays (by simp)
    | flush m => cases out
  | syn here m =>
    cases m with
    | refused =>
      obtain ⟨st,pending,fin,_⟩ := shape.fresh unopened
      exact ⟨st,pending,fin,by simp⟩
    | opened => contradiction
    | again c known => exact absurd (unopened.symm.trans known) Bool.false_ne_true
  | accept here m =>
    have was : v.st.opened = false := (acceptFrame m).opened ▸ unopened
    rw [(shape.fresh was).st] at here
    subst here
    cases m
  | reader here m =>
    have was : v.st.opened = false := (readerFrame m).opened ▸ unopened
    exact absurd (by rw [(shape.fresh was).st]) (readerPresent here m)
  | side m =>
    have was : v.st.opened = false := (sideFrame m).opened ▸ unopened
    have st := (shape.fresh was).st
    cases m <;> simp_all

theorem acceptingKept {client v e w} (shape : Shape client v) (m : Move client v e w) : Accepting client w := by
  obtain ⟨server,pre,absent⟩ := shape.accepting
  cases m with
  | frame m =>
    cases m
    case openStream c fresh =>
      have st := (shape.fresh fresh).st
      refine ⟨server,pre,fun unsettled => ?_⟩
      simp [st,AcceptPc.settled] at unsettled
    all_goals exact ⟨server,pre,absent⟩
  | syn here m =>
    cases m with
    | opened c fresh =>
      have st := (shape.fresh fresh).st
      refine ⟨fun client => ?_,by simp [AcceptPc.settled],fun _ => by rw [st]⟩
      exact absurd (c.symm.trans client) Bool.false_ne_true
    | _ => exact ⟨server,pre,absent⟩
  | loop here m =>
    have same := loopFrame m
    refine ⟨fun c => ?_,?_,fun unsettled => ?_⟩
    · rw [same.accept,server c]
    · rw [same.pre,same.accept,pre]
    · rw [same.reader.1,absent (same.accept ▸ unsettled)]
  | accept here m =>
    have serving : client = false := by
      cases client
      · rfl
      · rw [server rfl] at here
        subst here
        cases m
    refine ⟨fun c => absurd (serving.symm.trans c) Bool.false_ne_true,?_,?_⟩
    · rw [here] at pre
      cases m <;> simp_all [AcceptPc.settled]
      case release kept =>
        intro gone
        rw [gone,Option.map_none,eq_comm,Option.map_eq_none_iff] at kept
        exact pre kept
    · rw [here] at absent
      cases m <;> simp_all [AcceptPc.settled,Stream.setPc]
  | reader here m =>
    have same := readerFrame m
    refine ⟨fun c => ?_,?_,fun unsettled => ?_⟩
    · rw [same.accept,server c]
    · rw [same.pre,same.accept,pre]
    · exact absurd (absent (same.accept ▸ unsettled)) (readerPresent here m)
  | side m =>
    have same := sideFrame m
    refine ⟨fun c => ?_,?_,fun unsettled => ?_⟩
    · rw [same.accept,server c]
    · rw [same.pre,same.accept,pre]
    · have away := absent (same.accept ▸ unsettled)
      cases m <;> first | exact away | skip
      case dropReadHalf idle _ => exact absurd (away.symm.trans idle) ReaderPc.noConfusion

theorem servingKept {client v e w} (shape : Shape client v) (m : Move client v e w) (c : client = false) :
    Serving w := by
  obtain ⟨finPending,handle,pc⟩ := shape.serving c
  subst c
  cases m with
  | frame m =>
    cases m
    case openStream => contradiction
    case psh => exact ⟨finPending,handle,by rintro _ ⟨⟩; rfl⟩
    case pshUnknown => exact ⟨finPending,handle,by rintro _ ⟨⟩; rfl⟩
    case fin => exact ⟨finPending,handle,by rintro _ ⟨⟩; rfl⟩
    case synack => exact ⟨finPending,handle,by rintro _ ⟨⟩; rfl⟩
    case syn => exact ⟨finPending,handle,by rintro _ ⟨⟩; rfl⟩
    all_goals exact ⟨finPending,handle,pc⟩
  | syn here m => cases m <;> exact ⟨finPending,handle,by simp [HandlerPc.clientOnly]⟩
  | loop here m =>
    have allowed := pc _ here
    cases m with
    | psh m =>
      cases m <;> first | contradiction | exact ⟨finPending,handle,by simp [HandlerPc.clientOnly]⟩
    | close m =>
      cases m <;> refine ⟨?_,?_,by simp [HandlerPc.clientOnly]⟩ <;> first | exact finPending | exact handle | simp
    | fin m =>
      cases m <;> first | contradiction | exact ⟨finPending,handle,by simp [HandlerPc.clientOnly]⟩ | skip
      case mark h found =>
        refine ⟨finPending,?_,by simp [HandlerPc.clientOnly]⟩
        rintro _ ⟨⟩
        exact handle h found
    | synack m =>
      cases m <;> first | contradiction | exact ⟨finPending,handle,by simp⟩ | skip
      case take found => exact absurd (handle _ found) (by simp)
    | flush m => cases allowed
  | accept here m =>
    have same := acceptFrame m
    refine ⟨same.finPending.trans finPending,?_,fun pc' found => pc pc' (same.pc ▸ found)⟩
    cases m <;> first | exact handle | skip
    case register => rintro _ ⟨⟩; rfl
    case mark =>
      intro h found
      obtain ⟨h',was,rfl⟩ := Option.map_eq_some_iff.mp found
      exact handle h' was
    case unregister => rintro _ ⟨⟩
  | reader here m =>
    have same := readerFrame m
    refine ⟨?_,fun h found => handle h (same.handle ▸ found),fun pc' found => pc pc' (same.pc ▸ found)⟩
    cases m <;> first | exact finPending | rfl
  | side m =>
    have same := sideFrame m
    refine ⟨?_,?_,fun pc' found => pc pc' (same.pc ▸ found)⟩
    · cases m <;> first | exact finPending | rfl
    · cases m <;> first | exact handle | skip
      case dropReadHalf h _ marked =>
        intro h' found
        rcases marked with rfl | rfl
        · exact handle h' found
        · obtain ⟨was,known,rfl⟩ := Option.map_eq_some_iff.mp found
          exact handle was known
      case unregister => rintro _ ⟨⟩

theorem Shape.onClient {client v pc} (shape : Shape client v) (here : v.pc = some pc)
    (only : pc.clientOnly = true) : v.pre = none := by
  cases client
  · exact absurd ((shape.serving rfl).pc pc here) (by simp [only])
  · rw [shape.accepting.pre,shape.accepting.server rfl]
    rfl

theorem dispatchedKept {client v e w} (shape : Shape client v) (m : Move client v e w) {pc}
    (here' : w.pc = some pc) (past : pc.dispatched = true) : w.pre = none := by
  have known := shape.dispatched
  cases m with
  | frame m =>
    cases m <;> first | exact known _ here' past | skip
    case psh => cases here'; cases past
    case pshUnknown => cases here'; cases past
    case syn => cases here'; cases past
    case fin => cases here'; cases client <;> cases past
    case synack => cases here'; cases past
  | loop here m =>
    rw [(loopFrame m).pre]
    cases m with
    | psh m =>
      cases m <;> first | exact known _ here rfl | assumption | contradiction | skip
      all_goals cases here'; contradiction
    | close m => exact known _ here rfl
    | fin m =>
      cases m <;> first | exact known _ here rfl | assumption | contradiction | skip
      all_goals cases here'; contradiction
    | synack m =>
      cases m <;> first | exact shape.onClient here rfl | contradiction | (cases here'; contradiction)
    | flush m => exact shape.onClient here rfl
  | syn here m =>
    cases m <;> cases here'
    cases past
  | accept here m =>
    have absent := known _ ((acceptFrame m).pc ▸ here') past
    cases m <;> first | exact absent | rfl | skip
    case release kept =>
      rwa [absent,Option.map_none,Option.map_eq_none_iff] at kept
    case take found _ => exact absurd (absent.symm.trans found) (by simp)
  | reader here m => exact (readerFrame m).pre.trans (known _ ((readerFrame m).pc ▸ here') past)
  | side m => exact (sideFrame m).pre.trans (known _ ((sideFrame m).pc ▸ here') past)

theorem emptiedKept {client v e w} (shape : Shape client v) (m : Move client v e w) {pc}
    (here' : w.pc = some pc) (empty : pc.emptied = true) : w.pending = [] := by
  have known := shape.emptied
  cases m with
  | frame m =>
    cases m <;> first | exact known _ here' empty | skip
    case psh => cases here'; cases empty
    case pshUnknown => cases here'; cases empty
    case fin => cases here'; cases client <;> cases empty
    case synack => cases here'; cases empty
    case syn => cases here'; cases empty
  | loop here m =>
    cases m with
    | psh m =>
      cases m <;> first | assumption | contradiction | skip
      all_goals cases here'; contradiction
    | close m => cases m <;> first | rfl | contradiction | (cases here'; contradiction)
    | fin m => cases m <;> first | contradiction | (cases here'; contradiction)
    | synack m => cases m <;> first | contradiction | (cases here'; contradiction)
    | flush m =>
      cases m <;> first | exact known _ here rfl | rfl | contradiction | skip
      all_goals cases here'; contradiction
  | syn here m =>
    cases m <;> cases here'
    cases empty
  | accept here m =>
    have nothing := known _ ((acceptFrame m).pc ▸ here') empty
    cases m <;> first | exact nothing | skip
    case store payload rest fin delivered =>
      have here' : v.pc = some pc := here'
      have absent : v.pre = none := by
        cases pc with
        | psh pc => cases pc <;> first | contradiction | exact shape.dispatched _ here' rfl
        | flush => exact shape.onClient here' rfl
        | _ => cases empty
      rw [shape.accepting.pre,here] at absent
      cases absent
  | reader here m =>
    have nothing := known _ ((readerFrame m).pc ▸ here') empty
    have shrunk := (readerFrame m).pending
    rwa [nothing,List.suffix_nil] at shrunk
  | side m =>
    have nothing := known _ ((sideFrame m).pc ▸ here') empty
    have shrunk := (sideFrame m).pending
    rwa [nothing,List.suffix_nil] at shrunk

theorem Shape.undispatched {client v pc} (shape : Shape client v) (busy : v.st.accept.settled = false)
    (here : v.pc = some pc) : pc.dispatched = false ∧ pc.clientOnly = false := by
  have present : v.pre ≠ none := by
    rw [Ne,shape.accepting.pre,busy]
    exact Bool.false_ne_true
  constructor
  · by_contra past
    exact present (shape.dispatched pc here (by simpa using past))
  · by_contra only
    exact present (shape.onClient here (by simpa using only))

theorem acceptBusy {v pc e w} (here : v.st.accept = pc) (m : AcceptMove v pc e w) :
    v.st.accept.settled = false := by
  cases m <;> rw [here] <;> rfl

theorem undispatchedQueues {client v pc e w} (m : LoopMove client v pc e w)
    (free : pc.dispatched = false ∧ pc.clientOnly = false) :
    w.pending = v.pending ∧ w.st.data = v.st.data ∧ w.st.handle.isSome = v.st.handle.isSome := by
  obtain ⟨undispatched,serving⟩ := free
  cases m with
  | psh m => cases m <;> first | contradiction | exact ⟨rfl,rfl,rfl⟩
  | close m => contradiction
  | fin m => cases m <;> first | contradiction | exact ⟨rfl,rfl,rfl⟩
  | synack m =>
    cases m <;> first | contradiction | exact ⟨rfl,rfl,rfl⟩ | skip
    case take found => exact ⟨rfl,rfl,by rw [found]; rfl⟩
  | flush m => contradiction

theorem earlyKept {client v e w} (shape : Shape client v) (m : Move client v e w)
    (early : w.st.accept.early = true) : w.pending = [] ∧ w.st.data = [] ∧ w.st.handle = none := by
  have known := shape.early
  have unsettled {pc : AcceptPc} (early : pc.early = true) : pc.settled = false := by
    cases pc <;> first | rfl | contradiction
  cases m with
  | frame m =>
    cases m <;> first | exact known early | skip
    case openStream fresh =>
      have st := (shape.fresh fresh).st
      simp [st,AcceptPc.early] at early
  | loop here m =>
    have early := (loopFrame m).accept ▸ early
    have same := undispatchedQueues m (shape.undispatched (unsettled early) here)
    obtain ⟨pending,data,handle⟩ := known early
    rw [handle,Option.isSome_none,Option.isSome_eq_false_iff,Option.isNone_iff_eq_none] at same
    exact ⟨same.1.trans pending,same.2.1.trans data,same.2.2⟩
  | syn here m =>
    cases m with
    | opened c fresh =>
      obtain ⟨st,pending,_,_⟩ := shape.fresh fresh
      exact ⟨pending,by rw [st],by rw [st]⟩
    | _ => exact known early
  | accept here m =>
    rw [here] at known
    cases m <;> first | contradiction | exact known rfl
  | reader here m =>
    have absent := shape.accepting.absent (unsettled ((readerFrame m).accept ▸ early))
    exact absurd absent (readerPresent here m)
  | side m =>
    have early := (sideFrame m).accept ▸ early
    obtain ⟨pending,data,handle⟩ := known early
    have absent := shape.accepting.absent (unsettled early)
    cases m <;> first | exact ⟨pending,data,handle⟩ | exact ⟨rfl,data,handle⟩ | exact ⟨pending,data,rfl⟩ | skip
    case dropReadHalf idle _ => exact absurd (absent.symm.trans idle) ReaderPc.noConfusion

theorem backlogKept {client v e w} (shape : Shape client v) (m : Move client v e w)
    (busy : w.st.accept.settled = false) (waits : w.pending ≠ [] ∨ w.st.accept.overflow ≠ []) :
    streamChannelCapacity ≤ w.st.data.length := by
  have known := shape.backlog
  cases m with
  | frame m =>
    cases m <;> exact known busy waits
  | syn here m =>
    cases m with
    | opened c fresh =>
      obtain ⟨st,pending,_,_⟩ := shape.fresh fresh
      simp [pending,AcceptPc.overflow] at waits
    | _ => exact known busy waits
  | loop here m =>
    have busy := (loopFrame m).accept ▸ busy
    have same := undispatchedQueues m (shape.undispatched busy here)
    rw [same.2.1]
    rw [same.1,(loopFrame m).accept] at waits
    exact known busy waits
  | accept here m =>
    have early := shape.early
    rw [here] at known early
    cases m <;> first | contradiction | skip
    case begin => simp [early rfl,AcceptPc.overflow] at waits
    case register => simp [early rfl,AcceptPc.overflow] at waits
    case sent => exact known rfl waits
    case send room =>
      have full : streamChannelCapacity ≤ v.st.data.length := known rfl waits
      omega
    case full full => exact full
    case store payload rest _ _ => exact known rfl (.inr (List.cons_ne_nil payload rest))
    case dropped payload rest _ _ => exact known rfl (.inr (List.cons_ne_nil payload rest))
    all_goals exact known rfl (waits.imp_right (absurd rfl))
  | reader here m =>
    have absent := shape.accepting.absent ((readerFrame m).accept ▸ busy)
    exact absurd absent (readerPresent here m)
  | side m =>
    have same := sideFrame m
    have wasBusy := same.accept ▸ busy
    have absent := shape.accepting.absent wasBusy
    have waited : v.pending ≠ [] ∨ v.st.accept.overflow ≠ [] := by
      refine waits.imp (fun more empty => more ?_) (fun more => same.accept ▸ more)
      have shrunk := same.pending
      rwa [empty,List.suffix_nil] at shrunk
    cases m <;> first | exact known wasBusy waited | skip
    case dropReadHalf idle _ => exact absurd (absent.symm.trans idle) ReaderPc.noConfusion

theorem loopHandle {client v pc e w} (m : LoopMove client v pc e w) (absent : v.st.handle = none) :
    w.st.handle = none := by
  cases m with
  | psh m => cases m <;> exact absent
  | close m => cases m <;> first | exact absent | rfl
  | fin m =>
    cases m <;> first | exact absent | skip
    case take found => exact absurd (absent.symm.trans found) (by simp)
    case mark found => exact absurd (absent.symm.trans found) (by simp)
  | synack m =>
    cases m <;> first | exact absent | skip
    case take found => exact absurd (absent.symm.trans found) (by simp)
  | flush m => cases m <;> first | exact absent | rfl

theorem sideHandle {v e w} (m : LocalMove v e w) (absent : v.st.handle = none) : w.st.handle = none := by
  cases m <;> first | exact absent | rfl | skip
  case dropReadHalf marked =>
    rcases marked with rfl | rfl
    · exact absent
    · show v.st.handle.map _ = none
      rw [absent]
      rfl

theorem severedKept {client v e w} (shape : Shape client v) (m : Move client v e w) {pc}
    (here' : w.pc = some pc) (cut : pc.severed = true) : w.st.handle = none := by
  have known := shape.severed
  cases m with
  | frame m =>
    cases m <;> first | exact known _ here' cut | skip
    case openStream fresh =>
      have out := (shape.fresh fresh).outside pc here'
      cases pc <;> simp_all [HandlerPc.outside,HandlerPc.severed]
    case psh => cases here'; cases cut
    case pshUnknown => cases here'; cases cut
    case fin => cases here'; cases client <;> cases cut
    case synack => cases here'; cases cut
    case syn => cases here'; cases cut
  | loop here m =>
    cases m with
    | psh m => cases m <;> cases here' <;> cases cut
    | close m => cases m <;> first | rfl | exact known _ here rfl | (cases here'; cases cut)
    | fin m => cases m <;> cases here' <;> cases cut
    | synack m => cases m <;> cases here' <;> cases cut
    | flush m => cases m <;> cases here' <;> first | rfl | cases cut
  | syn here m =>
    cases m <;> cases here'
    cases cut
  | accept here m =>
    have busy := shape.undispatched (acceptBusy here m) ((acceptFrame m).pc ▸ here')
    cases pc with
    | close => exact absurd busy.1 (by simp [HandlerPc.dispatched])
    | flush => exact absurd busy.2 (by simp [HandlerPc.clientOnly])
    | _ => cases cut
  | reader here m => exact (readerFrame m).handle.trans (known _ ((readerFrame m).pc ▸ here') cut)
  | side m => exact sideHandle m (known _ ((sideFrame m).pc ▸ here') cut)

theorem removalKept {client v e w} (shape : Shape client v) (m : Move client v e w)
    (last : w.st.accept = .flushRemove) {h} (found : w.st.handle = some h) : h.readClosed = true := by
  have known := shape.removal
  cases m with
  | frame m =>
    cases m <;> first | exact known last _ found | contradiction | skip
    case openStream fresh =>
      have st := (shape.fresh fresh).st
      simp [st] at last
  | loop here m =>
    have was := (loopFrame m).accept ▸ last
    have busy : v.st.accept.settled = false := by rw [was]; rfl
    obtain ⟨undispatched,serving⟩ := shape.undispatched busy here
    cases m with
    | psh m => cases m <;> first | contradiction | exact known was _ found
    | close m => contradiction
    | fin m => cases m <;> first | contradiction | exact known was _ found
    | synack m =>
      cases m <;> first | contradiction | exact known was _ found | skip
      case take was' =>
        cases client
        · exact absurd ((shape.serving rfl).handle _ was') (by simp)
        · exact absurd (shape.accepting.server rfl) (by simp [was])
    | flush m => contradiction
  | syn here m => cases m <;> first | contradiction | exact known last _ found
  | accept here m =>
    cases m <;> first | contradiction | skip
    case mark =>
      obtain ⟨h',_,rfl⟩ := Option.map_eq_some_iff.mp found
      rfl
  | reader here m => exact known ((readerFrame m).accept ▸ last) h ((readerFrame m).handle ▸ found)
  | side m =>
    have was := (sideFrame m).accept ▸ last
    cases m <;> first | contradiction | exact known was _ found | skip
    case dropReadHalf idle _ =>
      have absent := shape.accepting.absent (by rw [was]; rfl)
      exact absurd (absent.symm.trans idle) ReaderPc.noConfusion

theorem tornKept {client v e w} (shape : Shape client v) (m : Move client v e w)
    (torn : w.st.teardown ≠ .none) : w.st.reader.pc ≠ .absent := by
  have known := shape.torn
  cases m with
  | frame m => cases m <;> first | exact known torn | exact ReaderPc.noConfusion
  | loop here m => rw [(loopFrame m).reader.1]; exact known ((loopFrame m).teardown ▸ torn)
  | syn here m => cases m <;> exact known torn
  | accept here m =>
    have absent := shape.accepting.absent (acceptBusy here m)
    exact absurd absent (known ((acceptFrame m).teardown ▸ torn))
  | reader here m =>
    cases m <;> first | exact ReaderPc.noConfusion | skip
    cases client <;> exact ReaderPc.noConfusion
  | side m =>
    cases m <;> first | exact known torn | assumption | exact ReaderPc.noConfusion | skip
    all_goals rename_i here; exact known (by rw [here]; exact TeardownPc.noConfusion)

theorem tornHandleKept {client v e w} (shape : Shape client v) (m : Move client v e w)
    (cut : w.st.teardown.severed = true) : w.st.handle = none := by
  have known := shape.tornHandle
  cases m with
  | frame m =>
    cases m <;> first | exact known cut | skip
    case openStream fresh =>
      have st := (shape.fresh fresh).st
      simp [st,TeardownPc.severed] at cut
  | loop here m => exact loopHandle m (known ((loopFrame m).teardown ▸ cut))
  | syn here m => cases m <;> exact known cut
  | accept here m =>
    have was := (acceptFrame m).teardown ▸ cut
    have present := shape.torn (by intro none; rw [none] at was; cases was)
    exact absurd (shape.accepting.absent (acceptBusy here m)) present
  | reader here m => exact (readerFrame m).handle.trans (known ((readerFrame m).teardown ▸ cut))
  | side m =>
    cases m <;> first | exact known cut | rfl | contradiction | skip
    case dropReadHalf marked => exact sideHandle (.dropReadHalf _ ‹_› marked) (known cut)
    all_goals rename_i here; exact known (by rw [here]; rfl)

theorem shapeKept {client v e w} (shape : Shape client v) (m : Move client v e w) : Shape client w :=
  ⟨freshKept shape m,acceptingKept shape m,servingKept shape m,fun _ => dispatchedKept shape m,
    fun _ => emptiedKept shape m,earlyKept shape m,backlogKept shape m,fun _ => severedKept shape m,
    fun last _ => removalKept shape m last,tornKept shape m,tornHandleKept shape m⟩

theorem shapeStart (client : Bool) (max : Nat) (sid : StreamId) : Shape client (view (start client max) sid) := by
  have resting (pc) : (view (start client max) sid).pc ≠ some pc := (fun h => by cases h)
  refine ⟨fun _ => ⟨rfl,rfl,rfl,fun pc here => absurd here (resting pc)⟩,⟨fun _ => rfl,?_,(fun h => by cases h)⟩,
    fun _ => ⟨rfl,(fun _ h => by cases h),fun pc here => absurd here (resting pc)⟩,fun pc here => absurd here (resting pc),
    fun pc here => absurd here (resting pc),(fun h => by cases h),(fun h => by cases h),
    fun pc here => absurd here (resting pc),(fun h => by cases h),
    fun torn => absurd rfl torn,(fun h => by cases h)⟩
  exact ⟨fun _ => rfl,fun _ => rfl⟩

theorem runShape {okv client max sid s} (reach : Run (Meets sid okv) client max s) : Shape client (view s sid) :=
  streamInvariant (shapeStart client max sid) (fun shape _ m => shapeKept shape m) reach

end KanoTls.Receive
