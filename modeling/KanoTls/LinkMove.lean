import KanoTls.Link
import KanoTls.WindowCredit

/-! What a step of one side does to the tasks of its gate, seen by the bytes of each
kind: charged and waiting, sent, sent uncharged, given up. -/
namespace KanoTls.Window
open Pending Gate Tasks Link.Side

def GatePc.sent : GatePc → Bool
  | .submitted | .passedOn | .bypassedOn => true
  | _ => false

def GatePc.uncharged : GatePc → Bool
  | .passedOn | .bypassedOn => true
  | _ => false

/- Let past the gate without a charge, sent or not. -/
def GatePc.loose : GatePc → Bool
  | .passed | .passedOn | .bypassed | .bypassedOn => true
  | _ => false

def GatePc.held : GatePc → Bool
  | .released => true
  | _ => false

def GatePc.abandons : GatePc → Bool
  | .abandoned => true
  | _ => false

def GatePc.early : GatePc → Bool
  | .start | .passed | .passedOn | .dropped => true
  | _ => false

def GatePc.waiting : GatePc → Bool
  | .start | .top | .unarmed | .connArmed | .armed | .connLoaded _ | .debited | .streamLoaded _ | .rollback
  | .parked => true
  | _ => false

def Acquirer.bytes (P : GatePc → Bool) (a : Acquirer) : Int := bif P a.pc then a.len else 0
def Acquirer.bytesOn (P : GatePc → Bool) (sid : StreamId) (a : Acquirer) : Int :=
  bif P a.pc && a.sid == sid then a.len else 0

def Gate.bytes (P : GatePc → Bool) (g : Gate) : Int := total (Acquirer.bytes P) g.tasks
def Gate.bytesOn (P : GatePc → Bool) (sid : StreamId) (g : Gate) : Int := total (Acquirer.bytesOn P sid) g.tasks

section Bytes
variable {g : Gate} {P : GatePc → Bool} {sid : StreamId}

theorem bytesNonneg (a : Acquirer) : 0 ≤ a.bytes P := by
  unfold Acquirer.bytes
  cases P a.pc
  · exact Int.le_refl 0
  · exact Int.natCast_nonneg _

theorem bytesOnNonneg (a : Acquirer) : 0 ≤ a.bytesOn P sid := by
  unfold Acquirer.bytesOn
  cases P a.pc && a.sid == sid
  · exact Int.le_refl 0
  · exact Int.natCast_nonneg _

theorem bytesOnLe (a : Acquirer) : a.bytesOn P sid ≤ a.bytes P := by
  unfold Acquirer.bytesOn Acquirer.bytes
  cases P a.pc <;> cases a.sid == sid <;> simp

variable (g P sid)

theorem gateBytesNonneg : 0 ≤ g.bytes P := totalNonneg bytesNonneg
theorem gateBytesOnNonneg : 0 ≤ g.bytesOn P sid := totalNonneg bytesOnNonneg
theorem gateBytesOnLe : g.bytesOn P sid ≤ g.bytes P := totalMono bytesOnLe

theorem unchargedLoose (a : Acquirer) : a.bytes GatePc.uncharged ≤ a.bytes GatePc.loose := by
  unfold Acquirer.bytes
  cases a.pc <;> simp [GatePc.uncharged,GatePc.loose]

theorem chargedSplit : g.bytes GatePc.charged + g.bytes GatePc.uncharged =
    g.bytes GatePc.held + g.bytes GatePc.abandons + g.bytes GatePc.sent := by
  have each (a : Acquirer) :
      a.bytes GatePc.charged + a.bytes GatePc.uncharged = a.bytes GatePc.held + a.bytes GatePc.abandons + a.bytes GatePc.sent := by
    unfold Acquirer.bytes
    cases a.pc <;> simp [GatePc.charged,GatePc.uncharged,GatePc.held,GatePc.abandons,GatePc.sent]
  unfold Gate.bytes
  rw [← totalAdd,← totalAdd,← totalAdd]
  exact totalCongr each

theorem chargedSplitOn : g.bytesOn GatePc.charged sid + g.bytesOn GatePc.uncharged sid =
    g.bytesOn GatePc.held sid + g.bytesOn GatePc.abandons sid + g.bytesOn GatePc.sent sid := by
  have each (a : Acquirer) : a.bytesOn GatePc.charged sid + a.bytesOn GatePc.uncharged sid =
      a.bytesOn GatePc.held sid + a.bytesOn GatePc.abandons sid + a.bytesOn GatePc.sent sid := by
    unfold Acquirer.bytesOn
    cases a.pc <;> cases a.sid == sid <;>
      simp [GatePc.charged,GatePc.uncharged,GatePc.held,GatePc.abandons,GatePc.sent]
  unfold Gate.bytesOn
  rw [← totalAdd,← totalAdd,← totalAdd]
  exact totalCongr each

end Bytes

inductive TaskMove (g : Gate) : Action → List Acquirer → Prop where
  | quiet {action} : TaskMove g action g.tasks
  | told {action} (f) (same : ∀ b : Acquirer, (f b).pc = b.pc ∧ (f b).sid = b.sid ∧ (f b).len = b.len) :
      TaskMove g action (g.tasks.map f)
  | turn {action i a b} (found : g.tasks[i]? = some a) (same : b.sid = a.sid ∧ b.len = a.len)
      (undone : a.pc.sent = false ∧ b.pc.sent = false)
      (early : g.peerFlowControl = false → a.pc.early = true → b.pc.early = true)
      (passes : b.pc = .passed → g.peerFlowControl = false ∨ g.closeRequested = true)
      (bypasses : b.pc ≠ .bypassed)
      (drops : b.pc = .abandoned → action = .cancel i ∧ a.pc = .released)
      (waits : b.pc.waiting = true → a.pc.waiting = true) : TaskMove g action (g.tasks.set i b)

structure OwnMove (g : Gate) (action : Action) (t : Gate) : Prop where
  connGranted : t.connGranted = g.connGranted
  granted : t.granted = g.granted
  flowControl : t.peerFlowControl = g.peerFlowControl
  closed : g.closeRequested = true → t.closeRequested = true
  tasks : TaskMove g action t.tasks
  -- stream credit goes to the task that is released
  credit : t.credit = g.credit ∨ ∃ i a b, g.tasks[i]? = some a ∧ a.pc.waiting = true ∧ b.pc.waiting = false ∧
    t.tasks = g.tasks.set i b ∧ ∀ sid, sid ≠ a.sid → t.credit sid = g.credit sid

section OwnMove
variable {g t : Gate} {a : Action}

theorem closeOwn (pc : ClosePc) : (g.closeStep pc).1.connGranted = g.connGranted ∧
    (g.closeStep pc).1.granted = g.granted ∧ (g.closeStep pc).1.peerFlowControl = g.peerFlowControl ∧
    (g.closeRequested = true → (g.closeStep pc).1.closeRequested = true) ∧ (g.closeStep pc).1.tasks = g.tasks ∧
    (g.closeStep pc).1.credit = g.credit := by
  cases pc with
  | swap =>
    cases asked : g.closeRequested <;> simp [closeStep,asked]
  | markDead => exact ⟨rfl,rfl,rfl,id,rfl,rfl⟩
  | store again => exact ⟨rfl,rfl,rfl,fun _ => rfl,rfl,rfl⟩
  | notify again => exact ⟨rfl,rfl,rfl,id,rfl,rfl⟩
  | notifyAgain => exact ⟨rfl,rfl,rfl,id,rfl,rfl⟩

theorem turnWithin {i : Nat} {before after : Acquirer} (found : g.tasks[i]? = some before)
    (same : after.sid = before.sid ∧ after.len = before.len) (undone : before.pc.sent = false ∧ after.pc.sent = false)
    (settled : before.pc.early = false) (going : after.pc ≠ .passed ∧ after.pc ≠ .bypassed ∧ after.pc ≠ .abandoned)
    (waits : after.pc.waiting = true → before.pc.waiting = true) : TaskMove g a (g.tasks.set i after) := by
  refine .turn found same undone ?_ ?_ going.2.1 ?_ waits
  · intro _ early
    rw [settled] at early
    contradiction
  · exact fun passed => absurd passed going.1
  · exact fun abandoned => absurd abandoned going.2.2

theorem gateOwn {i task} (found : g.tasks[i]? = some task) (moved : g.gateStep i task = some t) :
    OwnMove g (.gate i) t := by
  obtain ⟨sid,len,pc,toldConn,toldStream⟩ := task
  cases pc <;> simp only [gateStep] at moved <;> try contradiction
  case start =>
    cases Option.some.inj moved
    refine ⟨rfl,rfl,rfl,id,.turn found ⟨rfl,rfl⟩ ⟨rfl,?_⟩ ?_ ?_ ?_ ?_ (fun _ => rfl),.inl rfl⟩ <;>
      cases known : g.peerFlowControl <;> simp [GatePc.sent,GatePc.early]
  case top =>
    cases Option.some.inj moved
    refine ⟨rfl,rfl,rfl,id,.turn found ⟨rfl,rfl⟩ ⟨rfl,?_⟩ (fun _ => (fun h => by cases h)) ?_ ?_ ?_ (fun _ => rfl),
      .inl rfl⟩ <;>
      cases known : g.closeRequested <;> simp [GatePc.sent]
  case armed =>
    cases Option.some.inj moved
    refine ⟨rfl,rfl,rfl,id,.turn found ⟨rfl,rfl⟩ ⟨rfl,?_⟩ (fun _ => (fun h => by cases h)) ?_ ?_ ?_ (fun _ => rfl),
      .inl rfl⟩ <;>
      split <;> simp [GatePc.sent]
  case debited =>
    cases Option.some.inj moved
    refine ⟨rfl,rfl,rfl,id,.turn found ⟨rfl,rfl⟩ ⟨rfl,?_⟩ (fun _ => (fun h => by cases h)) ?_ ?_ ?_ (fun _ => rfl),
      .inl rfl⟩ <;>
      split <;> simp [GatePc.sent]
  case connLoaded conn =>
    split at moved <;> cases Option.some.inj moved <;>
      exact ⟨rfl,rfl,rfl,id,turnWithin found ⟨rfl,rfl⟩ ⟨rfl,rfl⟩ rfl (by simp) (fun _ => rfl),.inl rfl⟩
  case streamLoaded stream =>
    split at moved <;> cases Option.some.inj moved
    · refine ⟨rfl,rfl,rfl,id,turnWithin found ⟨rfl,rfl⟩ ⟨rfl,rfl⟩ rfl (by simp) (fun _ => rfl),.inr ?_⟩
      exact ⟨i,_,_,found,rfl,rfl,rfl,fun on away => Function.update_of_ne away _ _⟩
    · exact ⟨rfl,rfl,rfl,id,turnWithin found ⟨rfl,rfl⟩ ⟨rfl,rfl⟩ rfl (by simp) (fun _ => rfl),.inl rfl⟩
  all_goals
    cases Option.some.inj moved
    exact ⟨rfl,rfl,rfl,id,turnWithin found ⟨rfl,rfl⟩ ⟨rfl,rfl⟩ rfl (by simp) (fun _ => rfl),.inl rfl⟩

theorem readOwn {e} (own : isOwn (.reader e) = true) (moved : g.readStep e = some t) : OwnMove g (.reader e) t := by
  cases e <;> simp only [isOwn] at own <;> try contradiction
  case advance =>
    simp only [readStep,readAdvance] at moved
    split at moved <;> try contradiction
    all_goals cases Option.some.inj moved
    · exact ⟨rfl,rfl,rfl,id,.quiet,.inl rfl⟩
    · exact ⟨rfl,rfl,rfl,id,.quiet,.inl rfl⟩
    · exact ⟨rfl,rfl,rfl,id,.told Acquirer.hearConn (fun _ => ⟨rfl,rfl,rfl⟩),.inl rfl⟩
    · rename_i sid _
      exact ⟨rfl,rfl,rfl,id,.told (Acquirer.hearStream sid) (fun _ => ⟨rfl,rfl,rfl⟩),.inl rfl⟩
    · rename_i pc _
      obtain ⟨connGranted,granted,known,closed,tasks,credit⟩ := closeOwn (g := g) pc
      refine ⟨connGranted,granted,known,closed,?_,.inl credit⟩
      show TaskMove g _ (g.closeStep pc).1.tasks
      rw [tasks]
      exact .quiet
  all_goals
    simp only [readStep] at moved
    split at moved <;> try contradiction
    all_goals
      cases Option.some.inj moved
      exact ⟨rfl,rfl,rfl,id,.quiet,.inl rfl⟩

theorem ownMoves (own : isOwn a = true) (moved : step g a = some t) : OwnMove g a t := by
  cases a with
  | acquire sid len => contradiction
  | bypass sid len => contradiction
  | submit i => contradiction
  | gate i =>
    obtain ⟨task,found,moved⟩ := Option.bind_eq_some_iff.mp moved
    exact gateOwn found moved
  | wake i stream =>
    obtain ⟨task,found,moved⟩ := Option.bind_eq_some_iff.mp moved
    simp only [wakeStep] at moved
    split at moved <;> try contradiction
    rename_i woken
    cases Option.some.inj moved
    refine ⟨rfl,rfl,rfl,id,.turn found ⟨rfl,rfl⟩ ⟨?_,rfl⟩ (fun _ => ?_) (by simp) (by simp) (by simp) (fun _ => ?_),.inl rfl⟩
    · rw [woken.1]
      rfl
    · rw [woken.1]
      intro early
      cases early
    · rw [woken.1]
      rfl
  | cancel i =>
    obtain ⟨task,found,moved⟩ := Option.bind_eq_some_iff.mp moved
    simp only [dropStep] at moved
    split at moved <;> try contradiction
    all_goals
      rename_i here
      cases Option.some.inj moved
    case h_4 =>
      refine ⟨rfl,rfl,rfl,id,.turn found ⟨rfl,rfl⟩ ⟨?_,rfl⟩ (fun _ => ?_) (by simp) (by simp) (fun _ => ⟨rfl,here⟩)
        (fun waiting => by cases waiting),.inl rfl⟩
      · rw [here]
        rfl
      · rw [here]
        intro early
        cases early
    all_goals
      refine ⟨rfl,rfl,rfl,id,.turn found ⟨rfl,rfl⟩ ⟨?_,rfl⟩ (fun _ _ => rfl) (by simp) (by simp) (by simp)
        (fun waiting => by cases waiting),.inl rfl⟩
      rw [here]
      rfl
  | close force =>
    cases Option.some.inj moved
    exact ⟨rfl,rfl,rfl,id,.quiet,.inl rfl⟩
  | closer j =>
    obtain ⟨c,found,moved⟩ := Option.bind_eq_some_iff.mp moved
    obtain ⟨pc,_,rfl⟩ := Option.map_eq_some_iff.mp moved
    obtain ⟨connGranted,granted,known,closed,tasks,credit⟩ := closeOwn (g := g) pc
    refine ⟨connGranted,granted,known,closed,?_,.inl credit⟩
    show TaskMove g _ (g.closeStep pc).1.tasks
    rw [tasks]
    exact .quiet
  | exhaust =>
    cases Option.some.inj moved
    exact ⟨rfl,rfl,rfl,id,.quiet,.inl rfl⟩
  | reader e => exact readOwn own moved
  | writer e =>
    simp only [step,writerStep] at moved
    repeat' split at moved
    all_goals try contradiction
    all_goals
      cases Option.some.inj moved
      exact ⟨rfl,rfl,rfl,id,.quiet,.inl rfl⟩

end OwnMove

inductive Submits : GatePc → GatePc → Prop where
  | released : Submits .released .submitted
  | passed : Submits .passed .passedOn
  | bypassed : Submits .bypassed .bypassedOn

section Totals
variable {g t : Gate} {action : Action} {tasks : List Acquirer} {i : Nat} {a : Acquirer}

theorem submitMoves (found : g.tasks[i]? = some a) (moved : step g (.submit i) = some t) :
    g.closeRequested = false ∧ ∃ pc, Submits a.pc pc ∧ t = g.setTask i {a with pc := pc} := by
  simp only [step,found,Option.bind_some,submitStep] at moved
  cases asked : g.closeRequested
  · refine ⟨rfl,?_⟩
    simp only [asked,Bool.false_eq_true,if_false] at moved
    split at moved <;> try contradiction
    all_goals
      rename_i here
      cases Option.some.inj moved
      rw [here]
    · exact ⟨_,.released,rfl⟩
    · exact ⟨_,.passed,rfl⟩
    · exact ⟨_,.bypassed,rfl⟩
  · simp [asked] at moved

structure SentWeight (w : Acquirer → Int) : Prop where
  depends : ∀ {a b : Acquirer}, b.pc = a.pc → b.sid = a.sid → b.len = a.len → w b = w a
  undone : ∀ {a : Acquirer}, a.pc.sent = false → w a = 0

theorem sentWeightBytes {P : GatePc → Bool} (within : ∀ pc, pc.sent = false → P pc = false) :
    SentWeight (Acquirer.bytes P) := by
  refine ⟨fun pc _ len => ?_,fun undone => ?_⟩
  · rw [Acquirer.bytes,Acquirer.bytes,pc,len]
  · rw [Acquirer.bytes,within _ undone]
    rfl

theorem sentWeightBytesOn {P : GatePc → Bool} (within : ∀ pc, pc.sent = false → P pc = false) (sid : StreamId) :
    SentWeight (Acquirer.bytesOn P sid) := by
  refine ⟨fun pc on len => ?_,fun undone => ?_⟩
  · rw [Acquirer.bytesOn,Acquirer.bytesOn,pc,on,len]
  · rw [Acquirer.bytesOn,within _ undone]
    rfl

theorem unchargedWithin (pc : GatePc) (undone : pc.sent = false) : pc.uncharged = false := by
  cases pc <;> first | rfl | contradiction

theorem totalOwn {w : Acquirer → Int} (weight : SentWeight w) (moved : TaskMove g action tasks) :
    total w tasks = total w g.tasks := by
  cases moved with
  | quiet => rfl
  | told f same => exact totalMap _ (fun b => weight.depends (same b).1 (same b).2.1 (same b).2.2)
  | turn found same undone early passes bypasses drops waits =>
    rw [totalSet _ found,weight.undone undone.1,weight.undone undone.2]
    omega

inductive Opens (g : Gate) (asks : Bool) : GatePc → Prop where
  | start (asked : asks = true) : Opens g asks .start
  | passed (away : asks = false) (unknown : g.peerFlowControl = false) : Opens g asks .passed
  | bypassed (away : asks = false) (known : g.peerFlowControl = true) : Opens g asks .bypassed

theorem writeMoves {isClient : Bool} {x : Link.Side} {sid : StreamId} {len : Nat}
    (moved : step g (x.writeAction isClient sid len) = some t) :
    ∃ pc, Opens g (isClient || x.registered sid) pc ∧
      t = {g with tasks := g.tasks ++ [{sid := sid,len := len,pc := pc}]} := by
  unfold writeAction at moved
  cases asks : isClient || x.registered sid <;> rw [asks] at moved
  · cases Option.some.inj moved
    cases known : g.peerFlowControl
    · exact ⟨_,.passed rfl known,rfl⟩
    · exact ⟨_,.bypassed rfl known,rfl⟩
  · simp only [cond_true,step] at moved
    split at moved <;> try contradiction
    cases Option.some.inj moved
    exact ⟨_,.start rfl,rfl⟩

theorem bytesSubmitted (found : g.tasks[i]? = some a) {pc : GatePc} (turns : Submits a.pc pc) :
    (g.setTask i {a with pc := pc}).bytes GatePc.sent = g.bytes GatePc.sent + a.len := by
  have undone : a.bytes GatePc.sent = 0 ∧ Acquirer.bytes GatePc.sent {a with pc := pc} = a.len := by
    unfold Acquirer.bytes
    generalize here : a.pc = old at turns
    cases turns <;> exact ⟨rfl,rfl⟩
  show total _ (g.tasks.set i _) = _
  rw [totalSet _ found,undone.1,undone.2,Gate.bytes]
  omega

theorem bytesOnSubmitted (found : g.tasks[i]? = some a) {pc : GatePc} (turns : Submits a.pc pc) (sid : StreamId) :
    (g.setTask i {a with pc := pc}).bytesOn GatePc.sent sid =
      g.bytesOn GatePc.sent sid + bif a.sid == sid then (a.len : Int) else 0 := by
  have undone : a.bytesOn GatePc.sent sid = 0 ∧
      Acquirer.bytesOn GatePc.sent sid {a with pc := pc} = bif a.sid == sid then (a.len : Int) else 0 := by
    unfold Acquirer.bytesOn
    generalize here : a.pc = old at turns
    cases turns <;> exact ⟨rfl,rfl⟩
  show total _ (g.tasks.set i _) = _
  rw [totalSet _ found,undone.1,undone.2,Gate.bytesOn]
  omega

theorem opensUndone {asks : Bool} {pc : GatePc} (opens : Opens g asks pc) : pc.sent = false := by
  cases opens <;> rfl

end Totals

end KanoTls.Window
