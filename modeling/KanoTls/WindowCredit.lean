import KanoTls.Window

/-! The send-credit gate. An attempt debits the connection first and the stream
second, and gives the first debit back when the second fails. Credit is accounted for
exactly in every run without overflow; that a parked task really lacks credit needs
attempts that do not overlap. -/
namespace KanoTls.Window
open Pending Gate Tasks

def GatePc.attempting : GatePc → Bool
  | .connLoaded _ | .debited | .streamLoaded _ | .rollback => true
  | _ => false

/- The connection has been debited and the outcome is open. -/
def GatePc.inFlight : GatePc → Bool
  | .debited | .streamLoaded _ | .rollback => true
  | _ => false

def GatePc.charged : GatePc → Bool
  | .released | .submitted | .abandoned => true
  | _ => false

def Acquirer.attempts (a : Acquirer) : Int := bif a.pc.attempting then 1 else 0
def Acquirer.inFlight (a : Acquirer) : Int := bif a.pc.inFlight then a.len else 0
def Acquirer.charged (a : Acquirer) : Int := bif a.pc.charged then a.len else 0
def Acquirer.chargedOn (sid : StreamId) (a : Acquirer) : Int := bif a.pc.charged && a.sid == sid then a.len else 0

namespace Gate

/- The connection credit once every attempt in flight has given its debit back. -/
def settled (s : Gate) : Int := s.conn + total Acquirer.inFlight s.tasks

def due (s : Gate) (a : Acquirer) : Bool := s.reader == .dueConn || s.reader == .dueStream a.sid
def outstanding (s : Gate) (a : Acquirer) : Bool := a.toldConn || a.toldStream || s.due a

end Gate

def roomy (s : Gate) : Action → Bool
  | .reader (.connCredit increment) => decide (s.settled + increment ≤ maxI64)
  | .reader (.streamCredit sid increment) => decide (s.credit sid + increment ≤ maxI64)
  | _ => true

def alone (s : Gate) : Action → Bool
  | .gate i => !s.tasks[i]?.any (fun task => task.pc == .armed) || decide (total Acquirer.attempts s.tasks = 0)
  | _ => true

def Steady (s : Gate) (a : Action) : Prop := roomy s a = true ∧ alone s a = true

instance (s : Gate) (a : Action) : Decidable (Steady s a) := inferInstanceAs (Decidable (_ ∧ _))

theorem aloneStart {s : Gate} {i : Nat} {a : Acquirer} (ok : alone s (.gate i) = true) (found : s.tasks[i]? = some a)
    (armed : a.pc = .armed) : total Acquirer.attempts s.tasks = 0 := by
  simpa [alone,found,armed] using ok

section Weights

theorem attemptsNonneg (a : Acquirer) : 0 ≤ a.attempts := by
  unfold Acquirer.attempts
  cases a.pc.attempting <;> decide

theorem inFlightNonneg (a : Acquirer) : 0 ≤ a.inFlight := by
  unfold Acquirer.inFlight
  cases a.pc.inFlight
  · exact Int.le_refl 0
  · exact Int.natCast_nonneg _

theorem inFlightAlone (tasks : List Acquirer) (none : total Acquirer.attempts tasks = 0) :
    total Acquirer.inFlight tasks = 0 := by
  induction tasks with
  | nil => rfl
  | cons head rest ih =>
    have first := attemptsNonneg head
    have others : 0 ≤ total Acquirer.attempts rest := totalNonneg attemptsNonneg
    simp only [total,List.map_cons,List.sum_cons] at none others ih ⊢
    have quiet : head.attempts = 0 := by omega
    have zero : head.inFlight = 0 := by
      unfold Acquirer.attempts at quiet
      unfold Acquirer.inFlight
      cases here : head.pc <;> rw [here] at quiet <;> first | rfl | exact absurd quiet Int.one_ne_zero
    rw [zero,ih (by omega)]
    rfl

theorem wrapSmall {n : Int} (nonneg : 0 ≤ n) (room : n ≤ maxI64) : wrapI64 n = n := by
  unfold wrapI64
  unfold maxI64 at room
  omega

end Weights

inductive CreditMove (s : Gate) : Action → Gate → Prop where
  | quiet {a t} (conn : t.conn = s.conn) (credit : t.credit = s.credit) (tasks : t.tasks = s.tasks)
      (connGranted : t.connGranted = s.connGranted) (granted : t.granted = s.granted)
      (due : ∀ b, s.due b = true → t.due b = true) : CreditMove s a t
  | call (sid len) {action pc} (fresh : pc = .start ∨ pc = .passed ∨ pc = .bypassed) :
      CreditMove s action {s with tasks := s.tasks ++ [{sid := sid,len := len,pc := pc}]}
  | gate {i a t} (found : s.tasks[i]? = some a) (moved : s.gateStep i a = some t) : CreditMove s (.gate i) t
  | rest {i a action pc} (found : s.tasks[i]? = some a) (away : a.pc.attempting = false ∧ pc.attempting = false)
      (deaf : pc.hearsConn = false) (charged : pc.charged = a.pc.charged) :
      CreditMove s action (s.setTask i {a with pc := pc})
  | connCredit (increment) (here : s.reader = .busy) :
      CreditMove s (.reader (.connCredit increment)) {s with
        conn := wrapI64 (s.conn + increment),connGranted := s.connGranted + increment,reader := .dueConn}
  | streamCredit (sid increment) (here : s.reader = .busy) :
      CreditMove s (.reader (.streamCredit sid increment)) {s with
        credit := Function.update s.credit sid (wrapI64 (s.credit sid + increment))
        granted := Function.update s.granted sid (s.granted sid + increment),reader := .dueStream sid}
  | tellConn (here : s.reader = .dueConn) : CreditMove s (.reader .advance) {s.tellConn with reader := .busy}
  | tellStream (sid) (here : s.reader = .dueStream sid) :
      CreditMove s (.reader .advance) {s.tellStream sid with reader := .busy}

section CreditMove
variable {s t : Gate} {a : Action}

theorem dueTold (b : Acquirer) (s : Gate) : s.due b = true → s.tellLoops.due b = true := by
  unfold due tellLoops tellReader
  cases s.reader <;> exact id

theorem closeQuiet (pc : ClosePc) {action} {u : Gate}
    (same : u.conn = (s.closeStep pc).1.conn ∧ u.credit = (s.closeStep pc).1.credit ∧
      u.tasks = (s.closeStep pc).1.tasks ∧ u.connGranted = (s.closeStep pc).1.connGranted ∧
      u.granted = (s.closeStep pc).1.granted)
    (due : ∀ b, s.due b = true → u.due b = true) : CreditMove s action u := by
  obtain ⟨conn,credit,tasks,connGranted,granted⟩ := same
  have unchanged : (s.closeStep pc).1.conn = s.conn ∧ (s.closeStep pc).1.credit = s.credit ∧
      (s.closeStep pc).1.tasks = s.tasks ∧ (s.closeStep pc).1.connGranted = s.connGranted ∧
      (s.closeStep pc).1.granted = s.granted := by
    refine ⟨?_,?_,?_,?_,?_⟩ <;> cases pc <;> simp only [closeStep,tellLoops] <;> split <;> rfl
  obtain ⟨conn',credit',tasks',connGranted',granted'⟩ := unchanged
  exact .quiet (conn.trans conn') (credit.trans credit') (tasks.trans tasks') (connGranted.trans connGranted')
    (granted.trans granted') due

theorem readMoves {e} (moved : s.readStep e = some t) : CreditMove s (.reader e) t := by
  -- from any place but the two due ones, no notification is lost by leaving it
  have idle {u : Gate} (here : ∀ b, s.due b = false) (b : Acquirer) : s.due b = true → u.due b = true :=
    fun due => absurd ((here b).symm.trans due) Bool.false_ne_true
  have away {pc} (here : s.reader = pc) (clear : pc ≠ .dueConn ∧ ∀ sid, pc ≠ .dueStream sid) (b : Acquirer) :
      s.due b = false := by
    simp [due,here,clear.1,clear.2 b.sid]
  cases e with
  | advance =>
    simp only [readStep,readAdvance] at moved
    split at moved <;> try contradiction
    all_goals rename_i here; cases Option.some.inj moved
    · exact .quiet rfl rfl rfl rfl rfl (idle (away here ⟨(by simp),(by simp)⟩))
    · exact .quiet rfl rfl rfl rfl rfl (idle (away here ⟨(by simp),(by simp)⟩))
    · exact .tellConn here
    · exact .tellStream _ here
    · exact closeQuiet _ ⟨rfl,rfl,rfl,rfl,rfl⟩ (idle (away here ⟨(by simp),(by simp)⟩))
  | connCredit increment =>
    simp only [readStep] at moved
    split at moved <;> try contradiction
    rename_i here
    cases Option.some.inj moved
    exact .connCredit increment here.1
  | streamCredit sid increment =>
    simp only [readStep] at moved
    split at moved <;> try contradiction
    rename_i here
    cases Option.some.inj moved
    exact .streamCredit sid increment here.1
  | settings fc =>
    simp only [readStep] at moved
    split at moved <;> try contradiction
    cases Option.some.inj moved
    exact .quiet rfl rfl rfl rfl rfl (fun _ => id)
  | _ =>
    simp only [readStep] at moved
    split at moved <;> try contradiction
    all_goals
      rename_i here
      cases Option.some.inj moved
      exact .quiet rfl rfl rfl rfl rfl (idle (away here ⟨(by simp),(by simp)⟩))

theorem creditMoves (moved : step s a = some t) : CreditMove s a t := by
  cases a with
  | acquire sid len =>
    simp only [step] at moved
    split at moved <;> try contradiction
    cases Option.some.inj moved
    exact .call sid len (.inl rfl)
  | gate i =>
    obtain ⟨task,found,moved⟩ := Option.bind_eq_some_iff.mp moved
    exact .gate found moved
  | wake i stream =>
    obtain ⟨task,found,moved⟩ := Option.bind_eq_some_iff.mp moved
    simp only [wakeStep] at moved
    split at moved <;> try contradiction
    rename_i woken
    cases Option.some.inj moved
    exact .rest found ⟨by rw [woken.1]; rfl,rfl⟩ rfl (by rw [woken.1]; rfl)
  | bypass sid len =>
    cases Option.some.inj moved
    refine .call sid len (.inr ?_)
    cases s.peerFlowControl
    · exact .inl rfl
    · exact .inr rfl
  | submit i =>
    obtain ⟨task,found,moved⟩ := Option.bind_eq_some_iff.mp moved
    simp only [submitStep] at moved
    repeat' split at moved
    all_goals try contradiction
    all_goals
      rename_i here
      cases Option.some.inj moved
      exact .rest found ⟨by rw [here]; rfl,rfl⟩ rfl (by rw [here]; rfl)
  | cancel i =>
    obtain ⟨task,found,moved⟩ := Option.bind_eq_some_iff.mp moved
    simp only [dropStep] at moved
    split at moved <;> try contradiction
    all_goals
      rename_i here
      cases Option.some.inj moved
      exact .rest found ⟨by rw [here]; rfl,rfl⟩ rfl (by rw [here]; rfl)
  | close force =>
    cases Option.some.inj moved
    exact .quiet rfl rfl rfl rfl rfl (fun _ => id)
  | closer j =>
    obtain ⟨c,found,moved⟩ := Option.bind_eq_some_iff.mp moved
    obtain ⟨pc,_,rfl⟩ := Option.map_eq_some_iff.mp moved
    refine closeQuiet pc ⟨rfl,rfl,rfl,rfl,rfl⟩ (fun b was => ?_)
    cases pc <;> simp only [closeStep] <;> first | exact was | exact dueTold b s was | (split <;> exact was)
  | exhaust =>
    cases Option.some.inj moved
    exact .quiet rfl rfl rfl rfl rfl (fun _ => id)
  | reader e => exact readMoves moved
  | writer e =>
    simp only [step,writerStep] at moved
    repeat' split at moved
    all_goals try contradiction
    all_goals
      cases Option.some.inj moved
      exact .quiet rfl rfl rfl rfl rfl (fun _ => id)

end CreditMove

/- Every credit is where it is said to be: in the counter, with an attempt in flight,
or charged for good by a task that was released. -/
structure Account (s : Gate) : Prop where
  conn : s.settled + total Acquirer.charged s.tasks = h2SessionWindowBytes + s.connGranted
  stream : ∀ sid, s.credit sid + total (Acquirer.chargedOn sid) s.tasks = streamWindowBytes + s.granted sid
  nonneg : 0 ≤ s.conn ∧ ∀ sid, 0 ≤ s.credit sid
  bounded : s.settled ≤ maxI64 ∧ ∀ sid, s.credit sid ≤ maxI64
  loaded : ∀ a ∈ s.tasks, (∀ conn, a.pc = .connLoaded conn → (a.len : Int) ≤ conn) ∧
    ∀ stream, a.pc = .streamLoaded stream → (a.len : Int) ≤ stream

section Account
variable {s t : Gate} {i : Nat} {a b : Acquirer}

theorem inFlightLeSettled (found : s.tasks[i]? = some a) (flying : a.pc.inFlight = true) :
    s.conn + a.len ≤ s.settled := by
  have member := List.mem_of_getElem? found
  have weight := weightLeTotal inFlightNonneg member
  have same : a.inFlight = a.len := by
    unfold Acquirer.inFlight
    rw [flying]
    rfl
  unfold settled
  omega

theorem accountMoved (account : Account s) (found : s.tasks[i]? = some a) (tasks : t.tasks = s.tasks.set i b)
    (granted : t.connGranted = s.connGranted ∧ t.granted = s.granted)
    (conn : t.conn + b.inFlight + b.charged = s.conn + a.inFlight + a.charged)
    (stream : ∀ sid, t.credit sid + b.chargedOn sid = s.credit sid + a.chargedOn sid)
    (grows : a.charged ≤ b.charged ∧ ∀ sid, a.chargedOn sid ≤ b.chargedOn sid)
    (nonneg : 0 ≤ t.conn ∧ ∀ sid, 0 ≤ t.credit sid)
    (loaded : (∀ conn, b.pc = .connLoaded conn → (b.len : Int) ≤ conn) ∧
      ∀ stream, b.pc = .streamLoaded stream → (b.len : Int) ≤ stream) : Account t := by
  have settled : t.settled + b.charged = s.settled + a.charged := by
    unfold Gate.settled
    rw [tasks,totalSet _ found]
    omega
  refine ⟨?_,fun sid => ?_,nonneg,⟨?_,fun sid => ?_⟩,?_⟩
  · have was := account.conn
    rw [tasks,totalSet _ found,granted.1]
    omega
  · have was := account.stream sid
    have here := stream sid
    rw [tasks,totalSet _ found,granted.2]
    omega
  · have was := account.bounded.1
    have more := grows.1
    omega
  · have was := account.bounded.2 sid
    have here := stream sid
    have more := grows.2 sid
    omega
  · rw [tasks]
    exact everySet account.loaded loaded

theorem accountIdle (account : Account s) (found : s.tasks[i]? = some a)
    (same : b.inFlight = a.inFlight ∧ b.charged = a.charged ∧ ∀ sid, b.chargedOn sid = a.chargedOn sid)
    (loaded : (∀ conn, b.pc = .connLoaded conn → (b.len : Int) ≤ conn) ∧
      ∀ stream, b.pc = .streamLoaded stream → (b.len : Int) ≤ stream) : Account (s.setTask i b) := by
  refine accountMoved account found rfl ⟨rfl,rfl⟩ ?_ (fun sid => ?_) ⟨Int.le_of_eq same.2.1.symm,fun sid => ?_⟩
    account.nonneg loaded
  · rw [same.1,same.2.1]
    rfl
  · rw [same.2.2 sid]
    rfl
  · exact Int.le_of_eq (same.2.2 sid).symm

theorem accountGate (account : Account s) (found : s.tasks[i]? = some a) (moved : s.gateStep i a = some t) :
    Account t := by
  have loaded := account.loaded a (List.mem_of_getElem? found)
  have flying := inFlightLeSettled found
  obtain ⟨sid,len,pc,toldConn,toldStream⟩ := a
  cases pc <;> simp only [gateStep] at moved <;> try contradiction
  case start =>
    cases Option.some.inj moved
    cases s.peerFlowControl <;> exact accountIdle account found ⟨rfl,rfl,fun _ => rfl⟩ ⟨(by simp),(by simp)⟩
  case top =>
    cases Option.some.inj moved
    cases s.closeRequested <;> exact accountIdle account found ⟨rfl,rfl,fun _ => rfl⟩ ⟨(by simp),(by simp)⟩
  case unarmed =>
    cases Option.some.inj moved
    exact accountIdle account found ⟨rfl,rfl,fun _ => rfl⟩ ⟨(by simp),(by simp)⟩
  case connArmed =>
    cases Option.some.inj moved
    exact accountIdle account found ⟨rfl,rfl,fun _ => rfl⟩ ⟨(by simp),(by simp)⟩
  case armed =>
    cases Option.some.inj moved
    split
    · rename_i enough
      refine accountIdle account found ⟨rfl,rfl,fun _ => rfl⟩ ⟨?_,(by simp)⟩
      rintro conn ⟨⟩
      exact enough
    · exact accountIdle account found ⟨rfl,rfl,fun _ => rfl⟩ ⟨(by simp),(by simp)⟩
  case connLoaded conn =>
    have enough : (len : Int) ≤ conn := loaded.1 conn rfl
    split at moved <;> cases Option.some.inj moved
    · rename_i unchanged
      refine accountMoved account found rfl ⟨rfl,rfl⟩ ?_ (fun _ => rfl) ⟨Int.le_refl _,fun _ => Int.le_refl _⟩
        ⟨?_,account.nonneg.2⟩ ⟨(by simp),(by simp)⟩
      · show conn - len + len + 0 = s.conn + 0 + 0
        omega
      · show 0 ≤ conn - len
        omega
    · exact accountIdle account found ⟨rfl,rfl,fun _ => rfl⟩ ⟨(by simp),(by simp)⟩
  case debited =>
    cases Option.some.inj moved
    split
    · rename_i enough
      refine accountIdle account found ⟨rfl,rfl,fun _ => rfl⟩ ⟨(by simp),?_⟩
      rintro stream ⟨⟩
      exact enough
    · exact accountIdle account found ⟨rfl,rfl,fun _ => rfl⟩ ⟨(by simp),(by simp)⟩
  case streamLoaded stream =>
    have enough : (len : Int) ≤ stream := loaded.2 stream rfl
    split at moved <;> cases Option.some.inj moved
    · rename_i unchanged
      have charged (k : StreamId) : Acquirer.chargedOn k ⟨sid,len,.released,toldConn,toldStream⟩ =
          bif sid == k then (len : Int) else 0 := rfl
      refine accountMoved account found rfl ⟨rfl,rfl⟩ ?_ (fun k => ?_) ⟨Int.natCast_nonneg len,fun k => ?_⟩
        ⟨account.nonneg.1,fun k => ?_⟩ ⟨(by simp),(by simp)⟩
      · show s.conn + 0 + len = s.conn + len + 0
        omega
      · rw [charged k]
        show Function.update s.credit sid (stream - len) k + _ = s.credit k + 0
        by_cases here : k = sid
        · subst here
          simp only [Function.update_self,beq_self_eq_true,cond_true]
          omega
        · have apart : (sid == k) = false := beq_eq_false_iff_ne.mpr (Ne.symm here)
          rw [Function.update_of_ne here,apart]
          rfl
      · rw [charged k]
        show 0 ≤ _
        cases sid == k
        · exact Int.le_refl 0
        · exact Int.natCast_nonneg len
      · show 0 ≤ Function.update s.credit sid (stream - len) k
        by_cases here : k = sid
        · rw [here,Function.update_self]
          omega
        · rw [Function.update_of_ne here]
          exact account.nonneg.2 k
    · exact accountIdle account found ⟨rfl,rfl,fun _ => rfl⟩ ⟨(by simp),(by simp)⟩
  case rollback =>
    cases Option.some.inj moved
    have fits : s.conn + len ≤ s.settled := flying rfl
    have bound := account.bounded.1
    have positive := account.nonneg.1
    have back : wrapI64 (s.conn + len) = s.conn + len := wrapSmall (by omega) (by omega)
    rw [back]
    refine accountMoved account found rfl ⟨rfl,rfl⟩ ?_ (fun _ => rfl) ⟨Int.le_refl _,fun _ => Int.le_refl _⟩
      ⟨?_,account.nonneg.2⟩ ⟨(by simp),(by simp)⟩
    · show s.conn + len + 0 + 0 = s.conn + len + 0
      omega
    · show 0 ≤ s.conn + len
      omega

theorem groundedRest {pc : GatePc} (resting : pc.attempting = false) : pc.inFlight = false := by
  cases pc <;> first | rfl | contradiction

theorem accountTold {f : Acquirer → Acquirer} (account : Account s) (tasks : t.tasks = s.tasks.map f)
    (same : ∀ a, (f a).sid = a.sid ∧ (f a).len = a.len ∧ (f a).pc = a.pc) (conn : t.conn = s.conn)
    (credit : t.credit = s.credit) (granted : t.connGranted = s.connGranted ∧ t.granted = s.granted) : Account t := by
  have flight : ∀ a, (f a).inFlight = a.inFlight := fun a => by
    rw [Acquirer.inFlight,Acquirer.inFlight,(same a).2.1,(same a).2.2]
  have charged : ∀ a, (f a).charged = a.charged := fun a => by
    rw [Acquirer.charged,Acquirer.charged,(same a).2.1,(same a).2.2]
  have chargedOn (sid : StreamId) : ∀ a, (f a).chargedOn sid = a.chargedOn sid := fun a => by
    rw [Acquirer.chargedOn,Acquirer.chargedOn,(same a).1,(same a).2.1,(same a).2.2]
  have settled : t.settled = s.settled := by
    rw [Gate.settled,Gate.settled,tasks,conn,totalMap _ flight]
  refine ⟨?_,fun sid => ?_,?_,?_,?_⟩
  · rw [settled,tasks,totalMap _ charged,granted.1]
    exact account.conn
  · rw [credit,tasks,totalMap _ (chargedOn sid),granted.2]
    exact account.stream sid
  · rw [conn,credit]
    exact account.nonneg
  · rw [settled,credit]
    exact account.bounded
  · rw [tasks]
    intro b member
    obtain ⟨a,was,rfl⟩ := List.mem_map.mp member
    rw [(same a).2.1,(same a).2.2]
    exact account.loaded a was

theorem accountKept {action} (account : Account s) (ok : roomy s action = true) (m : CreditMove s action t) : Account t := by
  cases m with
  | quiet conn credit tasks connGranted granted _ =>
    exact accountTold account (tasks.trans (List.map_id _).symm) (fun _ => ⟨rfl,rfl,rfl⟩) conn credit
      ⟨connGranted,granted⟩
  | @call sid len _ pc fresh =>
    have weightless : Acquirer.inFlight {sid := sid,len := len,pc := pc} = 0 ∧
        Acquirer.charged {sid := sid,len := len,pc := pc} = 0 ∧
        ∀ k, Acquirer.chargedOn k {sid := sid,len := len,pc := pc} = 0 := by
      rcases fresh with rfl | rfl | rfl <;> exact ⟨rfl,rfl,fun _ => rfl⟩
    have settled : ({s with tasks := s.tasks ++ [{sid := sid,len := len,pc := pc}]} : Gate).settled = s.settled := by
      show s.conn + total _ (_ ++ _) = s.conn + _
      rw [totalPush,weightless.1,Int.add_zero]
    have unloaded : (∀ conn, pc = .connLoaded conn → (len : Int) ≤ conn) ∧
        ∀ stream, pc = .streamLoaded stream → (len : Int) ≤ stream := by
      rcases fresh with rfl | rfl | rfl <;> exact ⟨(by simp),(by simp)⟩
    refine ⟨?_,fun k => ?_,account.nonneg,⟨?_,account.bounded.2⟩,everyPush account.loaded unloaded⟩
    · rw [settled,totalPush,weightless.2.1,Int.add_zero]
      exact account.conn
    · rw [totalPush,weightless.2.2 k,Int.add_zero]
      exact account.stream k
    · rw [settled]
      exact account.bounded.1
  | gate found moved => exact accountGate account found moved
  | @rest i a _ pc found away _ charged =>
    refine accountIdle account found ⟨?_,?_,fun sid => ?_⟩ ⟨fun conn here => ?_,fun stream here => ?_⟩
    · rw [Acquirer.inFlight,Acquirer.inFlight,groundedRest away.1,groundedRest away.2]
    · rw [Acquirer.charged,Acquirer.charged,charged]
    · rw [Acquirer.chargedOn,Acquirer.chargedOn,charged]
    · rw [show pc = .connLoaded conn from here] at away
      exact absurd away.2 (fun h => by cases h)
    · rw [show pc = .streamLoaded stream from here] at away
      exact absurd away.2 (fun h => by cases h)
  | connCredit increment _ =>
    have room : s.settled + increment ≤ maxI64 := of_decide_eq_true ok
    have positive := account.nonneg.1
    have flying : 0 ≤ total Acquirer.inFlight s.tasks := totalNonneg inFlightNonneg
    have was := account.conn
    simp only [Gate.settled] at room was
    rw [wrapSmall (by omega) (by omega)]
    refine ⟨?_,account.stream,⟨?_,account.nonneg.2⟩,⟨?_,account.bounded.2⟩,account.loaded⟩
    · show s.conn + increment + total Acquirer.inFlight s.tasks + total Acquirer.charged s.tasks =
        _ + (s.connGranted + increment)
      omega
    · show 0 ≤ s.conn + increment
      omega
    · show s.conn + increment + total Acquirer.inFlight s.tasks ≤ maxI64
      omega
  | streamCredit sid increment _ =>
    have room : s.credit sid + increment ≤ maxI64 := of_decide_eq_true ok
    have positive := account.nonneg.2 sid
    rw [wrapSmall (by omega) (by omega)]
    refine ⟨account.conn,fun k => ?_,⟨account.nonneg.1,fun k => ?_⟩,⟨account.bounded.1,fun k => ?_⟩,account.loaded⟩
    · have was := account.stream k
      show Function.update s.credit sid _ k + _ = _ + Function.update s.granted sid _ k
      by_cases here : k = sid
      · subst here
        simp only [Function.update_self]
        omega
      · rw [Function.update_of_ne here,Function.update_of_ne here]
        exact was
    · show 0 ≤ Function.update s.credit sid _ k
      by_cases here : k = sid
      · rw [here,Function.update_self]
        omega
      · rw [Function.update_of_ne here]
        exact account.nonneg.2 k
    · show Function.update s.credit sid _ k ≤ maxI64
      by_cases here : k = sid
      · rw [here,Function.update_self]
        exact room
      · rw [Function.update_of_ne here]
        exact account.bounded.2 k
  | tellConn _ => exact accountTold account rfl (fun _ => ⟨rfl,rfl,rfl⟩) rfl rfl ⟨rfl,rfl⟩
  | tellStream sid _ => exact accountTold account rfl (fun _ => ⟨rfl,rfl,rfl⟩) rfl rfl ⟨rfl,rfl⟩

end Account

def Hears (s : Gate) (a : Acquirer) : Prop :=
  match a.pc with
  | .connLoaded conn => s.conn = conn ∨ s.outstanding a = true
  | .streamLoaded stream => s.credit a.sid = stream ∨ s.outstanding a = true
  | .rollback => s.credit a.sid < a.len ∨ s.outstanding a = true
  | .parked => s.settled < a.len ∨ s.credit a.sid < a.len ∨ s.outstanding a = true
  | _ => True

structure Heard (s : Gate) : Prop where
  alone : total Acquirer.attempts s.tasks ≤ 1
  hears : ∀ {k : Nat} {b : Acquirer}, s.tasks[k]? = some b → Hears s b

section Heard
variable {s t : Gate} {i k : Nat} {a b : Acquirer}

theorem attemptsOne (attempting : a.pc.attempting = true) : a.attempts = 1 := by
  rw [Acquirer.attempts,attempting]
  rfl

/- Two attempts weigh two, so a second one cannot be under way beside the first. -/
theorem othersRest (alone : total Acquirer.attempts s.tasks ≤ 1) (found : s.tasks[i]? = some a)
    (attempting : a.pc.attempting = true) (other : s.tasks[k]? = some b) (apart : k ≠ i) :
    b.pc.attempting = false := by
  by_contra also
  rw [Bool.not_eq_false] at also
  -- with the first one replaced by a task at rest, the second one still weighs one
  have rest : total Acquirer.attempts (s.tasks.set i {a with pc := .top}) = _ := totalSet Acquirer.attempts found
  have still : (s.tasks.set i {a with pc := .top})[k]? = some b := by
    rw [List.getElem?_set_ne (Ne.symm apart)]
    exact other
  have weight := weightLeTotal attemptsNonneg (List.mem_of_getElem? still)
  have none : Acquirer.attempts {a with pc := .top} = 0 := rfl
  rw [rest,attemptsOne attempting,attemptsOne also,none] at weight
  omega

theorem hearsKept (was : Hears s b) (same : b.pc.attempting = true → t.conn = s.conn ∧ t.credit b.sid = s.credit b.sid)
    (settled : t.settled ≤ s.settled) (credit : t.credit b.sid ≤ s.credit b.sid)
    (told : s.outstanding b = true → t.outstanding b = true) : Hears t b := by
  unfold Hears at was ⊢
  cases here : b.pc <;> rw [here] at was same <;> try trivial
  case connLoaded => exact was.imp (fun kept => (same rfl).1.trans kept) told
  case streamLoaded => exact was.imp (fun kept => (same rfl).2.trans kept) told
  case rollback => exact was.imp (fun less => (same rfl).2 ▸ less) told
  case parked =>
    rcases was with less | less | out
    · exact .inl (Int.lt_of_le_of_lt settled less)
    · exact .inr (.inl (Int.lt_of_le_of_lt credit less))
    · exact .inr (.inr (told out))

theorem heardMoved (heard : Heard s) (found : s.tasks[i]? = some a) (tasks : t.tasks = s.tasks.set i b)
    (reader : t.reader = s.reader) (attempts : b.attempts ≤ a.attempts ∨ total Acquirer.attempts s.tasks = 0)
    (touches : t.conn = s.conn ∧ t.credit = s.credit ∨ a.pc.attempting = true) (settled : t.settled ≤ s.settled)
    (credit : ∀ sid, t.credit sid ≤ s.credit sid) (here : Hears t b) : Heard t := by
  refine ⟨?_,?_⟩
  · have one : b.attempts ≤ 1 := by
      unfold Acquirer.attempts
      cases b.pc.attempting <;> decide
    have some := attemptsNonneg a
    have alone := heard.alone
    rw [tasks,totalSet _ found]
    omega
  · intro k c at'
    rw [tasks] at at'
    by_cases moved : k = i
    · subst moved
      rw [List.getElem?_set_self (List.getElem?_eq_some_iff.mp found).1] at at'
      cases Option.some.inj at'
      exact here
    · rw [List.getElem?_set_ne (Ne.symm moved)] at at'
      refine hearsKept (heard.hears at') ?_ settled (credit c.sid) ?_
      · intro also
        rcases touches with ⟨conn,credit⟩ | attempting
        · exact ⟨conn,by rw [credit]⟩
        · exact absurd ((othersRest heard.alone found attempting at' moved).symm.trans also) Bool.false_ne_true
      · unfold outstanding due
        rw [reader]
        exact id

theorem settledMoved (found : s.tasks[i]? = some a) (tasks : t.tasks = s.tasks.set i b)
    (conn : t.conn + b.inFlight ≤ s.conn + a.inFlight) : t.settled ≤ s.settled := by
  unfold settled
  rw [tasks,totalSet _ found]
  omega

theorem heardGate (account : Account s) (heard : Heard s) (ok : alone s (.gate i) = true) (found : s.tasks[i]? = some a)
    (moved : s.gateStep i a = some t) : Heard t := by
  have hears := heard.hears found
  have loaded := account.loaded a (List.mem_of_getElem? found)
  have flying := inFlightLeSettled found
  have none := aloneStart ok found
  have fewer : (0 : Int) ≤ 1 := by decide
  obtain ⟨sid,len,pc,toldConn,toldStream⟩ := a
  have idle {b : Acquirer} (attempts : b.attempts ≤ Acquirer.attempts ⟨sid,len,pc,toldConn,toldStream⟩)
      (flight : b.inFlight = Acquirer.inFlight ⟨sid,len,pc,toldConn,toldStream⟩) (here : Hears (s.setTask i b) b) :
      Heard (s.setTask i b) :=
    heardMoved heard found rfl rfl (.inl attempts) (.inl ⟨rfl,rfl⟩)
      (settledMoved found rfl (Int.le_of_eq (by rw [flight]; rfl))) (fun _ => Int.le_refl _) here
  cases pc <;> simp only [gateStep] at moved <;> try contradiction
  case start =>
    cases Option.some.inj moved
    cases s.peerFlowControl <;> exact idle (Int.le_refl _) rfl trivial
  case top =>
    cases Option.some.inj moved
    cases s.closeRequested <;> exact idle (Int.le_refl _) rfl trivial
  case unarmed =>
    cases Option.some.inj moved
    exact idle (Int.le_refl _) rfl trivial
  case connArmed =>
    cases Option.some.inj moved
    exact idle (Int.le_refl _) rfl trivial
  case armed =>
    cases Option.some.inj moved
    have quiet := none rfl
    have settled : ∀ {b : Acquirer}, b.inFlight = 0 → (s.setTask i b).settled = s.conn := by
      intro b grounded
      show s.conn + total _ (s.tasks.set i b) = s.conn
      rw [totalSet _ found,inFlightAlone _ quiet,grounded]
      exact Int.add_zero _
    have below {b : Acquirer} (grounded : b.inFlight = 0) : (s.setTask i b).settled ≤ s.settled := by
      rw [settled grounded,Gate.settled,inFlightAlone _ quiet]
      exact Int.le_of_eq (Int.add_zero _).symm
    split
    · exact heardMoved heard found rfl rfl (.inr quiet) (.inl ⟨rfl,rfl⟩) (below rfl) (fun _ => Int.le_refl _) (.inl rfl)
    · rename_i short
      refine heardMoved heard found rfl rfl (.inr quiet) (.inl ⟨rfl,rfl⟩) (below rfl) (fun _ => Int.le_refl _) (.inl ?_)
      rw [settled rfl]
      exact Int.not_le.mp short
  case connLoaded conn =>
    split at moved <;> cases Option.some.inj moved
    · rename_i unchanged
      refine heardMoved heard found rfl rfl (.inl (Int.le_refl _)) (.inr rfl) (settledMoved found rfl ?_)
        (fun _ => Int.le_refl _) trivial
      show conn - len + len ≤ s.conn + 0
      omega
    · rename_i changed
      exact idle fewer rfl (.inr (.inr (hears.resolve_left changed)))
  case debited =>
    cases Option.some.inj moved
    split
    · exact idle (Int.le_refl _) rfl (.inl rfl)
    · rename_i short
      exact idle (Int.le_refl _) rfl (.inl (Int.not_le.mp short))
  case streamLoaded stream =>
    have enough : (len : Int) ≤ stream := loaded.2 stream rfl
    split at moved <;> cases Option.some.inj moved
    · rename_i unchanged
      refine heardMoved heard found rfl rfl (.inl fewer) (.inr rfl) (settledMoved found rfl ?_)
        (fun k => ?_) trivial
      · show s.conn + 0 ≤ s.conn + len
        omega
      · show Function.update s.credit sid (stream - len) k ≤ s.credit k
        by_cases here : k = sid
        · rw [here,Function.update_self]
          omega
        · rw [Function.update_of_ne here]
    · rename_i changed
      exact idle (Int.le_refl _) rfl (.inr (hears.resolve_left changed))
  case rollback =>
    cases Option.some.inj moved
    have fits : s.conn + len ≤ s.settled := flying rfl
    have bound := account.bounded.1
    have positive := account.nonneg.1
    have back : wrapI64 (s.conn + len) = s.conn + len := wrapSmall (by omega) (by omega)
    rw [back]
    refine heardMoved heard found rfl rfl (.inl fewer) (.inr rfl) (settledMoved found rfl ?_)
      (fun _ => Int.le_refl _) (.inr hears)
    show s.conn + len + 0 ≤ s.conn + len
    omega

theorem toldHears {f : Acquirer → Acquirer} (was : Hears s b) (conn : t.conn = s.conn) (credit : t.credit = s.credit)
    (settled : t.settled = s.settled) (same : (f b).sid = b.sid ∧ (f b).len = b.len ∧ (f b).pc = b.pc)
    (told : b.pc.hearsStream = true → s.outstanding b = true → t.outstanding (f b) = true) : Hears t (f b) := by
  unfold Hears at was ⊢
  rw [same.1,same.2.1,same.2.2,conn,credit,settled]
  cases here : b.pc <;> rw [here] at was told <;> try trivial
  case connLoaded => exact was.imp_right (told rfl)
  case streamLoaded => exact was.imp_right (told rfl)
  case rollback => exact was.imp_right (told rfl)
  case parked => exact was.imp_right (Or.imp_right (told rfl))

theorem heardTold {f : Acquirer → Acquirer} (heard : Heard s) (tasks : t.tasks = s.tasks.map f)
    (same : ∀ a, (f a).sid = a.sid ∧ (f a).len = a.len ∧ (f a).pc = a.pc) (conn : t.conn = s.conn)
    (credit : t.credit = s.credit)
    (told : ∀ b, b.pc.hearsStream = true → s.outstanding b = true → t.outstanding (f b) = true) : Heard t := by
  have settled : t.settled = s.settled := by
    rw [Gate.settled,Gate.settled,tasks,conn,totalMap]
    intro a
    rw [Acquirer.inFlight,Acquirer.inFlight,(same a).2.1,(same a).2.2]
  refine ⟨?_,fun {k b} at' => ?_⟩
  · rw [tasks,totalMap]
    · exact heard.alone
    · intro a
      rw [Acquirer.attempts,Acquirer.attempts,(same a).2.2]
  · rw [tasks,List.getElem?_map] at at'
    obtain ⟨a,was,rfl⟩ := Option.map_eq_some_iff.mp at'
    exact toldHears (heard.hears was) conn credit settled (same a) (told a)

theorem heardKept {action} (account : Account s) (heard : Heard s) (ok : alone s action = true) (m : CreditMove s action t) :
    Heard t := by
  cases m with
  | quiet conn credit tasks _ _ due =>
    refine heardTold heard (tasks.trans (List.map_id _).symm) (fun _ => ⟨rfl,rfl,rfl⟩) conn credit ?_
    intro b _ out
    simp only [outstanding,Bool.or_eq_true] at out ⊢
    exact out.imp_right (due b)
  | @call sid len _ pc fresh =>
    have weightless : Acquirer.inFlight {sid := sid,len := len,pc := pc} = 0 ∧
        Acquirer.attempts {sid := sid,len := len,pc := pc} = 0 := by
      rcases fresh with rfl | rfl | rfl <;> exact ⟨rfl,rfl⟩
    refine ⟨?_,fun {k b} at' => ?_⟩
    · rw [totalPush,weightless.2,Int.add_zero]
      exact heard.alone
    · have settled : ({s with tasks := s.tasks ++ [{sid := sid,len := len,pc := pc}]} : Gate).settled = s.settled := by
        show s.conn + total _ (_ ++ _) = s.conn + _
        rw [totalPush,weightless.1,Int.add_zero]
      rcases List.mem_append.mp (List.mem_of_getElem? at') with was | new
      · obtain ⟨j,found⟩ := List.getElem?_of_mem was
        exact hearsKept (heard.hears found) (fun _ => ⟨rfl,rfl⟩) (Int.le_of_eq settled) (Int.le_refl _) id
      · rw [List.mem_singleton.mp new]
        rcases fresh with rfl | rfl | rfl <;> trivial
  | gate found moved => exact heardGate account heard ok found moved
  | @rest i a _ pc found away deaf _ =>
    have flight : Acquirer.inFlight {a with pc := pc} = a.inFlight := by
      rw [Acquirer.inFlight,Acquirer.inFlight,groundedRest away.1,groundedRest away.2]
    have attempts : Acquirer.attempts {a with pc := pc} ≤ a.attempts := by
      rw [Acquirer.attempts,Acquirer.attempts,away.1,away.2]
    refine heardMoved heard found rfl rfl (.inl attempts) (.inl ⟨rfl,rfl⟩)
      (settledMoved found rfl (Int.le_of_eq (by rw [flight]; rfl))) (fun _ => Int.le_refl _) ?_
    cases pc <;> trivial
  | connCredit increment here =>
    refine ⟨heard.alone,fun {k b} _ => ?_⟩
    have out : ∀ u : Gate, u.reader = .dueConn → u.outstanding b = true := by
      intro u due
      simp [outstanding,Gate.due,due]
    unfold Hears
    cases b.pc <;> try trivial
    case connLoaded => exact .inr (out _ rfl)
    case streamLoaded => exact .inr (out _ rfl)
    case rollback => exact .inr (out _ rfl)
    case parked => exact .inr (.inr (out _ rfl))
  | streamCredit sid increment here =>
    refine ⟨heard.alone,fun {k b} at' => ?_⟩
    have was := heard.hears at'
    have silent : s.due b = false := by
      simp [Gate.due,here]
    by_cases mine : b.sid = sid
    · have out : ∀ u : Gate, u.reader = .dueStream sid → u.outstanding b = true := by
        intro u due
        simp [outstanding,Gate.due,due,mine]
      unfold Hears
      cases b.pc <;> try trivial
      case connLoaded => exact .inr (out _ rfl)
      case streamLoaded => exact .inr (out _ rfl)
      case rollback => exact .inr (out _ rfl)
      case parked => exact .inr (.inr (out _ rfl))
    · have credit : Function.update s.credit sid (wrapI64 (s.credit sid + increment)) b.sid = s.credit b.sid :=
        Function.update_of_ne mine _ _
      refine hearsKept was (fun _ => ⟨rfl,credit⟩) (Int.le_refl _) (Int.le_of_eq credit) ?_
      intro out
      simp only [outstanding,Bool.or_eq_true,silent,Bool.false_eq_true,or_false] at out ⊢
      exact .inl out
  | tellConn here =>
    refine heardTold heard rfl (fun _ => ⟨rfl,rfl,rfl⟩) rfl rfl ?_
    intro b hears _
    have conn : b.pc.hearsConn = true := by
      cases pc : b.pc <;> rw [pc] at hears <;> first | rfl | contradiction
    simp [outstanding,Acquirer.hearConn,conn]
  | tellStream sid here =>
    refine heardTold heard rfl (fun _ => ⟨rfl,rfl,rfl⟩) rfl rfl ?_
    intro b hears out
    simp only [outstanding,Gate.due,here,Bool.or_eq_true,beq_iff_eq,reduceCtorEq,false_or,ReadPc.dueStream.injEq] at out
    rcases out with (conn | stream) | mine
    · simp [outstanding,Acquirer.hearStream,conn]
    · simp [outstanding,Acquirer.hearStream,stream]
    · simp [outstanding,Acquirer.hearStream,hears,mine]

end Heard

theorem accountStart : Account start := by
  have positive : 0 ≤ (streamWindowBytes : Int) := by decide
  have small : (streamWindowBytes : Int) ≤ maxI64 := by decide
  exact ⟨rfl,fun _ => rfl,⟨by decide,fun _ => positive⟩,⟨by decide,fun _ => small⟩,(fun _ h => by cases h)⟩

theorem heardStart : Heard start := ⟨by decide,(fun h => by cases h)⟩

theorem runAccount {s} (reach : Run (fun s a => roomy s a = true) s) : Account s :=
  Machine.reachInvariant accountStart (fun account ok moved => accountKept account ok (creditMoves moved)) reach

theorem runCredit {s} (reach : Run Steady s) : Account s ∧ Heard s := by
  have account {s : Gate} (reach : Run Steady s) : Account s := runAccount (Machine.reachWeaken (fun _ _ ok => ok.1) reach)
  refine ⟨account reach,Machine.reachInvariantFrom account heardStart ?_ reach⟩
  intro s a t known heard ok moved
  exact heardKept known heard ok.2 (creditMoves moved)

def flowControlled (later : List Action) : List Action :=
  .reader .advance::.reader .advance::.reader .arrived::.reader (.settings true)::later

def looks (i : Nat) (later : List Action) : List Action :=
  .gate i::.gate i::.gate i::.gate i::.gate i::later

def oversized : List Action := flowControlled (.acquire 1 40000000::looks 0 [])

/- The second task debits between the load and the CAS of the first one. -/
def overlapping : List Action :=
  flowControlled (.acquire 1 10::.acquire 2 10::looks 0 (looks 1 [.gate 1,.gate 0,.gate 1,.gate 1]))

end KanoTls.Window
