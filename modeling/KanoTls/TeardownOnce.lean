import KanoTls.TeardownClient

/-! The side that accepted the stream, and both sides together. -/
namespace KanoTls.Teardown

def ServerPc.finAhead : ServerPc → Bool
  | .finSend _ => true
  | _ => false

def ServerPc.finWaits : ServerPc → Bool
  | .finWait _ => true
  | _ => false

structure ServerInv (s : Server) : Prop where
  once : fins s.handed ≤ 1
  settled : 0 < fins s.handed → s.writeClosed = true ∨ s.pc.finWaits = true ∨ s.alive = false ∧ s.closed = false
  ahead : s.pc.finAhead = true → s.writeClosed = false
  waits : s.pc.finWaits = true → s.writeClosed = false
  handle : s.handleFin = true → s.writeClosed = true ∧ fins s.handed = 0
  owner : s.pc ≠ .idle → s.alive = true
  cleanup : s.cleanup ≠ none → fins s.handed = 0 ∧ s.alive = false ∧ s.closed = false ∧ s.writeClosed = false
  closed : s.closed = true → s.registered = false
  forget : s.pc = .forget → s.registered = false
  left : s.alive = false → s.registered = true → s.cleanup = some .finish

section
open Server
variable {s t : Server}

theorem serverUnsent (inv : ServerInv s) (open' : s.writeClosed = false) (still : s.pc.finWaits = false)
    (held : s.alive = true ∨ s.closed = true) : fins s.handed = 0 := by
  apply Nat.eq_zero_of_not_pos
  intro some'
  rcases inv.settled some' with flag | wait | ⟨gone,unclosed⟩
  · rw [open'] at flag
    contradiction
  · rw [still] at wait
    contradiction
  · rw [gone,unclosed] at held
    rcases held with held | held <;> contradiction

theorem serverMove (inv : ServerInv s) (busy : s.alive = true) {pc : ServerPc} {w c r : Bool}
    (raised : s.writeClosed = true ∨ s.pc.finWaits = true → w = true ∨ pc.finWaits = true)
    (rises : s.writeClosed = true → w = true) (ahead : pc.finAhead = true → w = false) (waits : pc.finWaits = true → w = false)
    (closed : c = true → r = false) (forget : pc = .forget → r = false) :
    ServerInv {s with pc := pc,writeClosed := w,closed := c,registered := r} := by
  refine ⟨inv.once,?_,ahead,waits,?_,fun _ => busy,?_,closed,forget,?_⟩
  · intro some'
    rcases inv.settled some' with flag | wait | ⟨gone,_⟩
    · exact (raised (.inl flag)).imp_right .inl
    · exact (raised (.inr wait)).imp_right .inl
    · rw [busy] at gone
      contradiction
  · intro pending
    obtain ⟨flag,none⟩ := inv.handle pending
    exact ⟨rises flag,none⟩
  · intro cleans
    rw [(inv.cleanup cleans).2.1] at busy
    contradiction
  · intro gone
    rw [show s.alive = false from gone] at busy
    contradiction

theorem serverGoto (inv : ServerInv s) (busy : s.alive = true) (quiet : s.pc.finWaits = false) {pc : ServerPc}
    (ahead : pc.finAhead = true → s.writeClosed = false) (waits : pc.finWaits = false) (forget : pc ≠ .forget) :
    ServerInv (s.goto pc) := by
  refine serverMove inv busy ?_ id ahead ?_ inv.closed (fun here => absurd here forget)
  · intro was
    rcases was with flag | wait
    · exact .inl flag
    · rw [quiet] at wait
      contradiction
  · rw [waits]
    intro here
    contradiction

theorem serverProceed (inv : ServerInv s) {ok : Bool} (meets : s.Ok (.proceed ok)) (moved : s.proceed ok = some t) :
    ServerInv t := by
  have owner := inv.owner
  unfold proceed at moved
  cases pc : s.pc with
  | idle =>
    rw [pc] at moved
    contradiction
  | finSend closing =>
    have quiet : s.pc.finWaits = false := by
      rw [pc]
      rfl
    have open' : s.writeClosed = false := by
      apply inv.ahead
      rw [pc]
      rfl
    rw [pc] at moved owner
    have busy := owner ServerPc.noConfusion
    dsimp only at moved
    split at moved <;> cases Option.some.inj moved
    · have none := serverUnsent inv open' quiet (.inl busy)
      have one : fins (s.handed ++ [Cmd.fin]) = 1 := by rw [finsHandFin,none]
      refine ⟨Nat.le_of_eq one,fun _ => .inr (.inl rfl),?_,fun _ => open',?_,fun _ => busy,?_,inv.closed,?_,?_⟩
      · intro here
        contradiction
      · intro pending
        rw [(inv.handle pending).1] at open'
        contradiction
      · intro cleans
        rw [(inv.cleanup cleans).2.1] at busy
        contradiction
      · intro here
        contradiction
      · intro gone
        rw [show s.alive = false from gone] at busy
        contradiction
    · cases closing <;> exact serverGoto inv busy quiet (fun here => absurd here Bool.false_ne_true) rfl ServerPc.noConfusion
  | finWait closing =>
    have answered : ok = true := by simpa only [Server.Ok,okStep,pc] using meets
    rw [pc] at moved owner
    have busy := owner ServerPc.noConfusion
    have closes : (s.writeClosed || ok) = true := by rw [answered,Bool.or_true]
    cases Option.some.inj moved
    cases closing <;> exact serverMove inv busy (fun _ => .inl closes) (fun _ => closes)
      (fun here => absurd here Bool.false_ne_true) (fun here => absurd here Bool.false_ne_true) inv.closed
      (fun here => ServerPc.noConfusion here)
  | finish =>
    rw [pc] at moved owner
    cases Option.some.inj moved
    refine serverMove inv (owner ServerPc.noConfusion) ?_ id (fun here => absurd here Bool.false_ne_true)
      (fun here => absurd here Bool.false_ne_true) (fun _ => rfl) (fun _ => rfl)
    rw [pc]
    exact id
  | forget =>
    have removed := inv.forget pc
    rw [pc] at moved owner
    cases Option.some.inj moved
    refine serverMove inv (owner ServerPc.noConfusion) ?_ id (fun here => absurd here Bool.false_ne_true)
      (fun here => absurd here Bool.false_ne_true) (fun _ => removed) (fun here => ServerPc.noConfusion here)
    rw [pc]
    exact id
  | closedAlready =>
    rw [pc] at moved owner
    cases Option.some.inj moved
    refine serverMove inv (owner ServerPc.noConfusion) ?_ id (fun here => absurd here Bool.false_ne_true)
      (fun here => absurd here Bool.false_ne_true) (fun _ => rfl) (fun _ => rfl)
    rw [pc]
    exact id

theorem serverUnregister (inv : ServerInv s) : ServerInv s.unregister := by
  refine ⟨inv.once,inv.settled,inv.ahead,inv.waits,inv.handle,inv.owner,inv.cleanup,fun _ => rfl,fun _ => rfl,?_⟩
  intro _ registered
  contradiction

theorem serverCleanup (inv : ServerInv s) {ok : Bool} (moved : s.cleanupStep ok = some t) : ServerInv t := by
  unfold cleanupStep at moved
  split at moved
  · contradiction
  · rename_i here
    cases Option.some.inj moved
    have kept := inv.cleanup (by rw [here]; exact Option.some_ne_none _)
    refine ⟨inv.once,inv.settled,inv.ahead,inv.waits,inv.handle,inv.owner,fun _ => kept,fun _ => rfl,fun _ => rfl,?_⟩
    intro _ registered
    contradiction
  · rename_i here
    cases Option.some.inj moved
    obtain ⟨none,gone,unclosed,open'⟩ := inv.cleanup (by rw [here]; exact Option.some_ne_none _)
    have removed : s.registered = false := by
      by_contra still
      have first := inv.left gone (eq_true_of_ne_false still)
      rw [here] at first
      contradiction
    have idle : s.pc = .idle := by
      by_contra busy
      rw [inv.owner busy] at gone
      contradiction
    -- with or without the FIN
    have done : ∀ {handed : List Cmd}, fins handed ≤ 1 → ServerInv {s with handed := handed,cleanup := .none} := by
      intro handed once
      refine ⟨once,fun _ => .inr (.inr ⟨gone,unclosed⟩),inv.ahead,inv.waits,?_,fun busy => absurd idle busy,?_,inv.closed,
        inv.forget,?_⟩
      · intro pending
        rw [(inv.handle pending).1] at open'
        contradiction
      · intro cleans
        exact absurd rfl cleans
      · intro _ registered
        rw [show s.registered = true from registered] at removed
        contradiction
    have one : fins (s.handed ++ [Cmd.fin]) = 1 := by rw [finsHandFin,none]
    split
    · exact done (Nat.le_of_eq one)
    · exact done inv.once

theorem serverCall {u : Server} (moved : s.call u = some t) (through : s.alive = true → s.pc = .idle → ServerInv u) :
    ServerInv t := by
  unfold call at moved
  split at moved
  · rename_i ready
    cases Option.some.inj moved
    exact through ready.1 ready.2
  · contradiction

theorem serverStep (inv : ServerInv s) {a : ServerAction} (meets : s.Ok a) (moved : s.step a = some t) : ServerInv t := by
  have idleQuiet : s.pc = .idle → s.pc.finWaits = false := by
    intro idle
    rw [idle]
    rfl
  cases a with
  | closeWrite =>
    refine serverCall moved ?_
    intro busy idle
    unfold closeWrite
    split
    · exact inv
    · rename_i open'
      simp only [Bool.or_eq_true,not_or,Bool.not_eq_true] at open'
      exact serverGoto inv busy (idleQuiet idle) (fun _ => open'.2) rfl ServerPc.noConfusion
  | close =>
    refine serverCall moved ?_
    intro busy idle
    unfold close
    split
    · exact serverGoto inv busy (idleQuiet idle) (fun here => absurd here Bool.false_ne_true) rfl ServerPc.noConfusion
    · split
      · exact serverGoto inv busy (idleQuiet idle) (fun here => absurd here Bool.false_ne_true) rfl ServerPc.noConfusion
      · rename_i open'
        exact serverGoto inv busy (idleQuiet idle) (fun _ => Bool.eq_false_iff.mpr open') rfl ServerPc.noConfusion
  | proceed ok => exact serverProceed inv meets moved
  | cancel =>
    simp only [step] at moved
    split at moved
    · contradiction
    · rename_i busy
      cases Option.some.inj moved
      have quiet : s.pc.finWaits = false := by
        cases pc : s.pc with
        | finWait closing => simp only [Server.Ok,okStep,pc,Bool.false_eq_true] at meets
        | _ => rfl
      exact serverGoto inv (inv.owner busy) quiet (fun here => absurd here Bool.false_ne_true) rfl ServerPc.noConfusion
  | drop runtime =>
    refine serverCall moved ?_
    intro busy idle
    have noCleanup : s.cleanup = none := by
      by_contra cleans
      rw [(inv.cleanup cleans).2.1] at busy
      contradiction
    have notIdle : ∀ {p : Prop}, s.pc ≠ .idle → p := fun other => absurd idle other
    split
    · rename_i closed
      refine ⟨inv.once,?_,inv.ahead,inv.waits,inv.handle,fun other => notIdle other,?_,inv.closed,inv.forget,?_⟩
      · intro some'
        rcases inv.settled some' with flag | wait | ⟨gone,_⟩
        · exact .inl flag
        · exact .inr (.inl wait)
        · rw [busy] at gone
          contradiction
      · intro cleans
        exact absurd noCleanup cleans
      · intro _ registered
        have removed := inv.closed closed
        rw [show s.registered = true from registered] at removed
        contradiction
    · rename_i unclosed
      have unclosed := Bool.eq_false_iff.mpr unclosed
      simp only [Server.Ok,okStep,unclosed,Bool.false_or,Bool.and_eq_true,Bool.not_eq_eq_eq_not,Bool.not_true] at meets
      obtain ⟨open',running⟩ := meets
      have none := serverUnsent inv open' (idleQuiet idle) (.inl busy)
      rw [running,if_pos rfl]
      refine ⟨inv.once,fun _ => .inr (.inr ⟨rfl,unclosed⟩),inv.ahead,inv.waits,inv.handle,fun other => notIdle other,
        fun _ => ⟨none,rfl,unclosed,open'⟩,inv.closed,inv.forget,fun _ _ => rfl⟩
  | handleClose =>
    cases Option.some.inj moved
    split
    · exact inv
    · rename_i open'
      have open' := Bool.eq_false_iff.mpr open'
      have apart : s.pc.finAhead = false ∧ s.pc.finWaits = false ∧ (s.alive = true ∨ s.closed = true) := by
        cases pc : s.pc with
        | finSend closing | finWait closing => simp only [Server.Ok,okStep,pc,open',Bool.false_eq_true] at meets
        | _ =>
          simp only [Server.Ok,okStep,pc,open',Bool.false_or,Bool.or_eq_true] at meets
          exact ⟨rfl,rfl,meets⟩
      obtain ⟨ahead,waits,held⟩ := apart
      have none := serverUnsent inv open' waits held
      refine ⟨inv.once,fun _ => .inl rfl,?_,?_,fun _ => ⟨rfl,none⟩,inv.owner,?_,inv.closed,
        inv.forget,inv.left⟩
      · intro here
        exact absurd (here.symm.trans ahead) Bool.noConfusion
      · intro here
        exact absurd (here.symm.trans waits) Bool.noConfusion
      · intro cleans
        obtain ⟨_,gone,unclosed,_⟩ := inv.cleanup cleans
        rw [gone,unclosed] at held
        rcases held with held | held <;> contradiction
  | handleSend ok =>
    simp only [step] at moved
    split at moved
    · rename_i pending
      obtain ⟨closed,none⟩ := inv.handle pending
      have noCleanup : s.cleanup = .none := by
        by_contra cleans
        rw [(inv.cleanup cleans).2.2.2] at closed
        contradiction
      cases Option.some.inj moved
      split
      · have one : fins (s.handed ++ [Cmd.fin]) = 1 := by rw [finsHandFin,none]
        exact ⟨Nat.le_of_eq one,fun _ => .inl closed,inv.ahead,inv.waits,fun here => absurd here Bool.false_ne_true,
          inv.owner,
          fun cleans => absurd noCleanup cleans,inv.closed,inv.forget,inv.left⟩
      · exact ⟨inv.once,inv.settled,inv.ahead,inv.waits,fun here => absurd here Bool.false_ne_true,inv.owner,inv.cleanup,
          inv.closed,inv.forget,inv.left⟩
    · contradiction
  | cleanup ok => exact serverCleanup inv moved
  | kill sent =>
    cases Option.some.inj moved
    have unsent : sent = false := by simpa only [Server.Ok,okStep,Bool.not_eq_eq_eq_not,Bool.not_true] using meets
    rw [unsent]
    exact serverUnregister inv
  | unregister =>
    cases Option.some.inj moved
    exact serverUnregister inv

end

abbrev Client.Run (ok : Client → ClientAction → Prop) (deferred : Bool) : Client → Prop :=
  Machine.Reach Client.step ok (Client.start deferred)

abbrev Server.Run (ok : Server → ServerAction → Prop) : Server → Prop := Machine.Reach Server.step ok Server.start

theorem clientKept {deferred : Bool} {s : Client} (run : Client.Run Client.Ok deferred s) : ClientInv s := by
  refine Machine.reachInvariant ?_ ?_ run
  · refine ⟨Nat.zero_le 1,?_,?_,?_,?_,?_,?_,?_,?_,?_,?_,?_,?_,fun _ => rfl,fun _ _ => ⟨rfl,rfl⟩,?_⟩
    · intro some'
      contradiction
    · intro here
      contradiction
    · intro here
      contradiction
    · intro some'
      contradiction
    · intro here
      contradiction
    · intro here
      contradiction
    · intro busy
      exact absurd rfl busy
    · intro half
      rcases half with half | half <;> contradiction
    · intro here
      contradiction
    · intro c here
      contradiction
    · intro full
      contradiction
    · intro gone
      contradiction
    · intro here
      contradiction
  · intro s a t inv meets moved
    exact clientStep inv meets moved

theorem serverKept {s : Server} (run : Server.Run Server.Ok s) : ServerInv s := by
  refine Machine.reachInvariant ?_ ?_ run
  · refine ⟨Nat.zero_le 1,?_,?_,?_,?_,?_,?_,?_,?_,?_⟩
    · intro some'
      contradiction
    · intro here
      contradiction
    · intro here
      contradiction
    · intro here
      contradiction
    · intro busy
      exact absurd rfl busy
    · intro cleans
      exact absurd rfl cleans
    · intro here
      contradiction
    · intro here
      contradiction
    · intro gone
      contradiction
  · intro s a t inv meets moved
    exact serverStep inv meets moved

theorem finAtMostOnce (deferred : Bool) :
    (∀ s, Client.Run Client.Ok deferred s → fins s.handed ≤ 1 ∧ (Cmd.syn ∉ s.handed → Cmd.fin ∉ s.handed) ∧
      (s.gone = true → s.cleanup = none → s.registered = false)) ∧
    (∀ s, Server.Run Server.Ok s → fins s.handed ≤ 1 ∧ (s.alive = false → s.cleanup = none → s.registered = false)) := by
  constructor
  · intro s run
    have inv := clientKept run
    refine ⟨inv.once,?_,?_⟩
    · intro unopened member
      exact unopened (inv.syn (List.count_pos_iff.mpr member))
    · intro gone done
      by_contra still
      exact inv.left gone (eq_true_of_ne_false still) done
  · intro s run
    have inv := serverKept run
    refine ⟨inv.once,?_⟩
    intro gone done
    by_contra still
    have cleans := inv.left gone (eq_true_of_ne_false still)
    rw [done] at cleans
    contradiction

def writesAndGoes : List ClientAction :=
  [.register true true true,.writeOpen true,.proceed true,.proceed true,.closeWrite,.proceed true,.proceed true,
    .proceed true,
    .dropRead true true true,.dropWrite true true true,.cleanup true,.cleanup true]

def handleThenClose : List ServerAction :=
  [.handleClose,.handleSend true,.close,.proceed true,.proceed true,.drop true]

theorem finAtMostOnceBoth :
    (∃ s, Client.Run Client.Ok true s ∧ s.handed = [.syn,.fin] ∧ s.registered = false) ∧
    (∃ s, Server.Run Server.Ok s ∧ s.handed = [.fin] ∧ s.registered = false) := by
  constructor
  · have ran : (Machine.checked Client.step Client.Ok (Client.start true) writesAndGoes).any (fun s : Client =>
        decide (s.handed = [.syn,.fin]) && s.gone && decide (s.cleanup = none)) = true := rfl
    obtain ⟨s,run,here⟩ := Machine.checkedReaches ran
    simp only [Bool.and_eq_true,decide_eq_true_eq] at here
    obtain ⟨⟨handed,gone⟩,done⟩ := here
    exact ⟨s,run,handed,((finAtMostOnce true).1 s run).2.2 gone done⟩
  · have ran : (Machine.checked Server.step Server.Ok Server.start handleThenClose).any (fun s : Server =>
        decide (s.handed = [.fin]) && decide (s.alive = false) && decide (s.cleanup = none)) = true := rfl
    obtain ⟨s,run,here⟩ := Machine.checkedReaches ran
    simp only [Bool.and_eq_true,decide_eq_true_eq] at here
    obtain ⟨⟨handed,gone⟩,done⟩ := here
    exact ⟨s,run,handed,((finAtMostOnce true).2 s run).2 gone done⟩

/- The read loop kills the stream for its full buffers; the relay then reads an end of
file and closes it. -/
theorem killedThenClosed : ∃ s, Server.Run Machine.Always s ∧ fins s.handed = 2 := by
  have ran : (Machine.checked Server.step Machine.Always Server.start [.kill true,.close,.proceed true]).any
      (fun s : Server => decide (fins s.handed = 2)) = true := rfl
  obtain ⟨s,run,here⟩ := Machine.checkedReaches ran
  exact ⟨s,run,of_decide_eq_true here⟩

end KanoTls.Teardown
