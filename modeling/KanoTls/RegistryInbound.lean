import KanoTls.RegistryCount
import KanoTls.PendingExact
import KanoTls.Tasks
import Mathlib.Algebra.BigOperators.Group.Finset.Piecewise

/-! The streams of the peer on their way into the session: reserved by CMD_SYN, waiting in
`pending_open_streams`, handed over by `accept_stream`. -/
namespace KanoTls.Registry
open Pending Entries Session Tasks

def holds (e : Option PendingOpenStream) : Bool := e.any (fun e => !e.reservationReleased)

def reserved (o : PendingOpenStreams) : Finset StreamId := o.entries.filter (fun sid => holds (o.entry sid) = true)

section Reserved
variable {o next : PendingOpenStreams} {sid : StreamId}

theorem memReserved : sid ∈ reserved o ↔ holds (o.entry sid) = true := by
  rw [reserved,Finset.mem_filter,PendingOpenStreams.memEntries,PendingOpenStreams.containsEntry]
  cases o.entry sid with
  | none => simp [holds]
  | some e => simp

theorem reservedChanged (others : ∀ k, k ≠ sid → next.entry k = o.entry k) :
    (reserved next).card + weight holds (o.entry sid) = (reserved o).card + weight holds (next.entry sid) := by
  have outside : ∀ (o : PendingOpenStreams) k, k ∉ o.entries → weight holds (o.entry k) = 0 := by
    intro o k out
    rw [PendingOpenStreams.memEntries,PendingOpenStreams.containsEntry,Bool.not_eq_true,Option.isSome_eq_false_iff,
      Option.isNone_iff_eq_none] at out
    rw [out]
    rfl
  have change := sumChanged sid (outside o) (outside next) (fun k different => by rw [others k different])
  rw [reserved,reserved,Finset.card_filter,Finset.card_filter]
  exact change

theorem reservedSame (same : ∀ k, holds (next.entry k) = holds (o.entry k)) : reserved next = reserved o := by
  ext k
  rw [memReserved,memReserved,same]

theorem releasedFirst {first : Bool} (released : o.releaseReservation sid = some (first,next)) :
    holds (o.entry sid) = first ∧ holds (next.entry sid) = false ∧ (next.entry sid).isSome = true ∧
      ∀ k, k ≠ sid → next.entry k = o.entry k := by
  obtain ⟨e,found,now,others⟩ := PendingOpenStreams.releasedEntry released
  refine ⟨?_,by rw [now]; rfl,by rw [now]; rfl,others⟩
  have found' : o.streams[sid]? = some e := found
  unfold PendingOpenStreams.releaseReservation at released
  rw [found'] at released
  dsimp only at released
  rw [found]
  split at released <;> cases Option.some.inj released <;> simp_all [holds]

end Reserved

def LoopPc.checked : LoopPc → Option StreamId
  | .synActive sid | .synLoad sid _ | .synCas sid _ _ | .synInsert sid => some sid
  | _ => none

/- The entry is there and nobody else knows it. -/
def LoopPc.claim : LoopPc → Option StreamId
  | .synCall sid | .synRemove sid => some sid
  | _ => none

def LoopPc.owes : LoopPc → Nat
  | .synInsert _ | .synRelease | .finRelease => 1
  | _ => 0

def claiming (sid : StreamId) (task : StreamId × AcceptPc) : Bool := task.1 == sid && task.2 != .done
def owing (task : StreamId × AcceptPc) : Bool := task.2 == .releaseCount

def AcceptPc.spent : AcceptPc → Bool
  | .releaseCount | .take _ | .mark | .unregister | .remove => true
  | _ => false

def claims (s : Session) (sid : StreamId) : Nat :=
  s.queue.count sid + s.accepts.countP (claiming sid) + if s.loop.claim = some sid then 1 else 0

def owed (s : Session) : Nat := s.loop.owes + s.accepts.countP owing

structure Inbound (s : Session) : Prop where
  once : ∀ sid, claims s sid ≤ 1
  held : s.loop ≠ .done → ∀ sid, 0 < claims s sid → (s.pendingOpen.entry sid).isSome = true
  absent : ∀ sid, s.loop.checked = some sid → s.pendingOpen.entry sid = none
  fresh : ∀ sid, s.loop.claim = some sid → holds (s.pendingOpen.entry sid) = true
  spent : ∀ task ∈ s.accepts, task.2.spent = true → holds (s.pendingOpen.entry task.1) = false
  enough : (reserved s.pendingOpen).card + owed s ≤ s.pendingInbound
  exact' : s.loop ≠ .done → s.pendingInbound = (reserved s.pendingOpen).card + owed s

section Inbound
variable {s t : Session} {a : Action} {sid : StreamId} {i : Nat}

theorem claimsFree (none : s.loop.claim = none) (sid : StreamId) :
    claims s sid = s.queue.count sid + s.accepts.countP (claiming sid) := by
  rw [claims,none]
  rfl

theorem claimsMine (mine : s.loop.claim = some sid) (k : StreamId) :
    claims s k = s.queue.count k + s.accepts.countP (claiming k) + if sid = k then 1 else 0 := by
  rw [claims,mine]
  simp only [Option.some.injEq]

theorem inboundQuiet (inbound : Inbound s) (same : ∀ sid, claims t sid = claims s sid)
    (spent : ∀ task ∈ t.accepts, task ∈ s.accepts ∨ task.2.spent = false)
    (entries : t.pendingOpen = s.pendingOpen) (pending : t.pendingInbound = s.pendingInbound)
    (checked : ∀ sid, t.loop.checked = some sid → s.pendingOpen.entry sid = none)
    (claim : ∀ sid, t.loop.claim = some sid → s.loop.claim = some sid) (owed' : owed t = owed s)
    (ends : s.loop = .done → t.loop = .done) : Inbound t := by
  have going : t.loop ≠ .done → s.loop ≠ .done := fun out here => out (ends here)
  refine ⟨?_,?_,?_,?_,?_,?_,?_⟩
  · intro sid
    rw [same]
    exact inbound.once sid
  · intro out sid
    rw [same,entries]
    exact inbound.held (going out) sid
  · rw [entries]
    exact checked
  · intro sid here
    rw [entries]
    exact inbound.fresh sid (claim sid here)
  · intro task member here
    rw [entries]
    rcases spent task member with old | new
    · exact inbound.spent task old here
    · rw [new] at here
      contradiction
  · rw [entries,pending,owed']
    exact inbound.enough
  · intro out
    rw [entries,pending,owed']
    exact inbound.exact' (going out)

theorem inboundGoto (inbound : Inbound s) (queue : t.queue = s.queue) (accepts : t.accepts = s.accepts)
    (entries : t.pendingOpen = s.pendingOpen) (pending : t.pendingInbound = s.pendingInbound)
    (checked : ∀ sid, t.loop.checked = some sid → s.pendingOpen.entry sid = none)
    (claim : t.loop.claim = s.loop.claim) (owes : t.loop.owes = s.loop.owes) (ends : s.loop = .done → t.loop = .done) :
    Inbound t := by
  refine inboundQuiet inbound ?_ ?_ entries pending checked (fun sid here => claim.symm.trans here) ?_ ends
  · intro sid
    rw [claims,claims,queue,accepts,claim]
  · rw [accepts]
    exact fun _ => .inl
  · rw [owed,owed,owes,accepts]

theorem inboundAside (inbound : Inbound s) (aside : Aside s t) : Inbound t := by
  have loop := aside.loop
  refine inboundGoto inbound aside.queue aside.accepts aside.pendingOpen aside.pendingInbound ?_ ?_ ?_ ?_ <;> rw [loop]
  · exact inbound.absent
  · exact id

theorem inboundLoop (sid : StreamId) (inbound : Inbound s) (queue : t.queue = s.queue) (accepts : t.accepts = s.accepts)
    (going : s.loop ≠ .done) (others : ∀ k, k ≠ sid → t.pendingOpen.entry k = s.pendingOpen.entry k)
    (checked : ∀ k, t.loop.checked = some k → t.pendingOpen.entry k = none)
    (claim : ∀ k, t.loop.claim = some k → k = sid ∧ holds (t.pendingOpen.entry sid) = true)
    (once : claims t sid ≤ 1) (held : 0 < claims t sid → (t.pendingOpen.entry sid).isSome = true)
    (rises : holds (t.pendingOpen.entry sid) = true → holds (s.pendingOpen.entry sid) = true ∨ claims s sid = 0)
    (count : t.pendingInbound + (reserved s.pendingOpen).card + s.loop.owes =
      s.pendingInbound + (reserved t.pendingOpen).card + t.loop.owes) : Inbound t := by
  have less : ∀ k, k ≠ sid → claims t k ≤ claims s k := by
    intro k different
    rw [claims,claims,queue,accepts,if_neg (fun here => different (claim k here).1)]
    omega
  have total := inbound.exact' going
  have now : t.pendingInbound = (reserved t.pendingOpen).card + owed t := by
    rw [owed] at total ⊢
    rw [accepts]
    omega
  refine ⟨?_,?_,checked,?_,?_,Nat.le_of_eq now.symm,fun _ => now⟩
  · intro k
    by_cases same : k = sid
    · rw [same]
      exact once
    · exact (less k same).trans (inbound.once k)
  · intro _ k some'
    by_cases same : k = sid
    · rw [same] at some' ⊢
      exact held some'
    · rw [others k same]
      exact inbound.held going k (Nat.lt_of_lt_of_le some' (less k same))
  · intro k here
    obtain ⟨same,fresh⟩ := claim k here
    rw [same]
    exact fresh
  · intro task member here
    rw [accepts] at member
    have was := inbound.spent task member here
    by_cases same : task.1 = sid
    · rw [same] at was ⊢
      by_contra up
      rcases rises (by simpa using up) with up | none
      · rw [was] at up
        contradiction
      · have mine : claiming sid task = true := by
          have live : task.2 ≠ .done := fun done => by rw [done] at here; contradiction
          simp [claiming,same,live]
        have atLeast : 1 ≤ s.accepts.countP (claiming sid) := List.countP_pos_iff.mpr ⟨task,member,mine⟩
        rw [claims] at none
        omega
    · rw [others _ same]
      exact was

theorem inboundAccept (inbound : Inbound s) {pc pc' : AcceptPc} (found : s.accepts[i]? = some (sid,pc)) (live : pc ≠ .done)
    (queue : t.queue = s.queue) (loop : t.loop = s.loop) (accepts : t.accepts = s.accepts.set i (sid,pc'))
    (others : ∀ k, k ≠ sid → t.pendingOpen.entry k = s.pendingOpen.entry k)
    (held : pc' ≠ .done → s.loop ≠ .done → (t.pendingOpen.entry sid).isSome = true)
    (falls : holds (s.pendingOpen.entry sid) = false → holds (t.pendingOpen.entry sid) = false)
    (spent : pc'.spent = true → holds (t.pendingOpen.entry sid) = false)
    (count : t.pendingInbound + (reserved s.pendingOpen).card + (if owing (sid,pc) then 1 else 0) =
      s.pendingInbound + (reserved t.pendingOpen).card + (if owing (sid,pc') then 1 else 0)) : Inbound t := by
  have mine : claiming sid (sid,pc) = true := by simp [claiming,live]
  have atLeast : 1 ≤ s.accepts.countP (claiming sid) :=
    List.countP_pos_iff.mpr ⟨_,List.mem_of_getElem? found,mine⟩
  have once := inbound.once sid
  have notLoop : s.loop.claim ≠ some sid := by
    intro here
    rw [claims,if_pos here] at once
    omega
  have notChecked : s.loop.checked ≠ some sid := by
    intro here
    have out : s.loop ≠ .done := fun done => by rw [done] at here; contradiction
    have there := inbound.held out sid (by rw [claims]; omega)
    rw [inbound.absent sid here] at there
    contradiction
  have moves := fun k => countSet (sid,pc') (claiming k) found
  have apart : ∀ k, k ≠ sid → claims t k = claims s k := by
    intro k different
    have same := moves k
    have no : ∀ pc : AcceptPc, claiming k (sid,pc) = false := by
      intro pc
      simp [claiming,Ne.symm different]
    rw [no,no,if_neg Bool.false_ne_true] at same
    rw [claims,claims,queue,accepts,loop]
    omega
  have fewer : claims t sid ≤ claims s sid := by
    have change := moves sid
    rw [mine,if_pos rfl] at change
    rw [claims,claims,queue,accepts,loop]
    split at change <;> omega
  have owedMoves := countSet (sid,pc') owing found
  have total : t.pendingInbound + ((reserved s.pendingOpen).card + owed s) =
      s.pendingInbound + ((reserved t.pendingOpen).card + owed t) := by
    rw [owed,owed,accepts,loop]
    omega
  refine ⟨?_,?_,?_,?_,?_,?_,?_⟩
  · intro k
    by_cases same : k = sid
    · rw [same]
      exact fewer.trans once
    · rw [apart k same]
      exact inbound.once k
  · intro out k some'
    rw [loop] at out
    by_cases same : k = sid
    · rw [same] at some' ⊢
      refine held ?_ out
      intro done
      have change := moves sid
      rw [mine,if_pos rfl,done,show claiming sid (sid,.done) = false by simp [claiming],if_neg Bool.false_ne_true] at change
      rw [claims,queue,accepts,loop,if_neg notLoop,done] at some'
      rw [claims] at once
      omega
    · rw [others k same]
      exact inbound.held out k (by rw [← apart k same]; exact some')
  · intro k here
    rw [loop] at here
    rw [others k (fun same => notChecked (same ▸ here))]
    exact inbound.absent k here
  · intro k here
    rw [loop] at here
    rw [others k (fun same => notLoop (same ▸ here))]
    exact inbound.fresh k here
  · intro task member here
    rw [accepts] at member
    rcases List.mem_or_eq_of_mem_set member with old | rfl
    · have was := inbound.spent task old here
      by_cases same : task.1 = sid
      · rw [same] at was ⊢
        exact falls was
      · rw [others _ same]
        exact was
    · exact spent here
  · have enough := inbound.enough
    omega
  · intro out
    rw [loop] at out
    have equal := inbound.exact' out
    omega

def LoopPc.calm (pc : LoopPc) : Prop := pc.checked = none ∧ pc.claim = none ∧ pc.owes = 0

theorem inboundCalm (inbound : Inbound s) (was : s.loop.claim = none ∧ s.loop.owes = 0 ∧ s.loop ≠ .done)
    (now : t.loop.calm) (queue : t.queue = s.queue) (accepts : t.accepts = s.accepts)
    (entries : t.pendingOpen = s.pendingOpen) (pending : t.pendingInbound = s.pendingInbound) : Inbound t := by
  obtain ⟨checked,claim,owes⟩ := now
  refine inboundGoto inbound queue accepts entries pending ?_ (claim.trans was.1.symm) (owes.trans was.2.1.symm)
    (fun done => absurd done was.2.2)
  intro sid here
  rw [checked] at here
  contradiction

theorem inboundFrame (inbound : Inbound s) (ready : s.loop = .ready) (f : Frame) : Inbound (s.handleFrame f) := by
  have was : s.loop.claim = none ∧ s.loop.owes = 0 ∧ s.loop ≠ .done := by
    rw [ready]
    exact ⟨rfl,rfl,LoopPc.noConfusion⟩
  have here : s.loop.calm := by
    rw [ready]
    exact ⟨rfl,rfl,rfl⟩
  cases f with
  | settings => exact inboundCalm inbound was here rfl rfl rfl rfl
  | psh sid payload => exact inboundCalm inbound was ⟨rfl,rfl,rfl⟩ rfl rfl rfl rfl
  | fin sid =>
    refine inboundCalm inbound was ?_ rfl rfl rfl rfl
    simp only [handleFrame,goto]
    split <;> exact ⟨rfl,rfl,rfl⟩
  | syn sid =>
    simp only [handleFrame]
    split
    · exact inboundCalm inbound was ⟨rfl,rfl,rfl⟩ rfl rfl rfl rfl
    · exact inboundCalm inbound was here rfl rfl rfl rfl
  | synack sid =>
    simp only [handleFrame]
    split
    · split
      · exact inboundCalm inbound was ⟨rfl,rfl,rfl⟩ rfl rfl rfl rfl
      · exact inbound
    · exact inbound

theorem claimsCalm (queue : t.queue = s.queue) (accepts : t.accepts = s.accepts) (was : s.loop.claim = none)
    (now : t.loop.claim = none) (sid : StreamId) : claims t sid = claims s sid := by
  rw [claims,claims,queue,accepts,was,now]

theorem inboundReleased (inbound : Inbound s) (was : s.loop.claim = none ∧ s.loop.owes = 1 ∧ s.loop ≠ .done) :
    Inbound (s.releaseInboundStreamReservation.goto .ready) := by
  have same := claimsCalm (s := s) (t := s.releaseInboundStreamReservation.goto .ready) rfl rfl was.1 rfl
  refine inboundLoop 0 inbound rfl rfl was.2.2 (fun _ _ => rfl) ?_ ?_ ?_ ?_ .inl ?_
  · intro k here
    contradiction
  · intro k here
    contradiction
  · rw [same]
    exact inbound.once 0
  · rw [same]
    exact inbound.held was.2.2 0
  · have enough := inbound.enough
    rw [owed,was.2.1] at enough
    rw [was.2.1]
    simp only [releaseInboundStreamReservation,goto,LoopPc.owes]
    omega

theorem inboundEntry (inbound : Inbound s) (was : s.loop.claim = none ∧ s.loop.owes = 0 ∧ s.loop ≠ .done)
    {next : PendingOpenStreams} (there : (next.entry sid).isSome = true)
    (alike : holds (next.entry sid) = holds (s.pendingOpen.entry sid))
    (others : ∀ k, k ≠ sid → next.entry k = s.pendingOpen.entry k) :
    Inbound ({s with pendingOpen := next}.goto .ready) := by
  have same := claimsCalm (s := s) (t := {s with pendingOpen := next}.goto .ready) rfl rfl was.1 rfl
  refine inboundLoop sid inbound rfl rfl was.2.2 others ?_ ?_ ?_ (fun _ => there) ?_ ?_
  · intro k here
    contradiction
  · intro k here
    contradiction
  · rw [same]
    exact inbound.once sid
  · intro up
    exact .inl (alike.symm.trans up)
  · have equal : reserved next = reserved s.pendingOpen := by
      refine reservedSame ?_
      intro k
      by_cases mine : k = sid
      · rw [mine]
        exact alike
      · rw [others k mine]
    rw [was.2.1]
    simp only [goto,LoopPc.owes,equal]

theorem inboundFin (inbound : Inbound s) (here : s.loop = .finOpen sid) : Inbound (s.storePendingOpenFin sid) := by
  have was : s.loop.claim = none ∧ s.loop.owes = 0 ∧ s.loop ≠ .done := by
    rw [here]
    exact ⟨rfl,rfl,LoopPc.noConfusion⟩
  unfold storePendingOpenFin
  split
  · exact inboundCalm inbound was ⟨rfl,rfl,rfl⟩ rfl rfl rfl rfl
  · rename_i next stored
    obtain ⟨e,found,now,others⟩ := PendingOpenStreams.finEntry stored
    have alike : holds (next.entry sid) = holds (s.pendingOpen.entry sid) := by
      rw [found,now]
      rfl
    split
    · rename_i released first
      obtain ⟨held,spent,there,further⟩ := releasedFirst first
      have apart : ∀ k, k ≠ sid → released.entry k = s.pendingOpen.entry k :=
        fun k different => (further k different).trans (others k different)
      have same := claimsCalm (s := s) (t := {s with pendingOpen := released}.goto .finRelease) rfl rfl was.1 rfl
      refine inboundLoop sid inbound rfl rfl was.2.2 apart ?_ ?_ ?_ (fun _ => there) ?_ ?_
      · intro k here
        contradiction
      · intro k here
        contradiction
      · rw [same]
        exact inbound.once sid
      · intro up
        exact absurd (spent.symm.trans up) Bool.false_ne_true
      · have change := reservedChanged apart
        rw [weight,weight,spent,← alike,held,if_pos rfl,if_neg Bool.false_ne_true] at change
        rw [was.2.1]
        simp only [goto,LoopPc.owes]
        omega
    · exact inboundEntry inbound was (by rw [now]; rfl) alike others

theorem inboundInsert (inbound : Inbound s) (here : s.loop = .synInsert sid) :
    Inbound ({s with pendingOpen := s.pendingOpen.insertNew sid}.goto (.synCall sid)) := by
  have going : s.loop ≠ .done := by rw [here]; exact LoopPc.noConfusion
  have absent := inbound.absent sid (by rw [here]; rfl)
  have none : claims s sid = 0 := by
    by_contra some'
    have there := inbound.held going sid (Nat.pos_of_ne_zero some')
    rw [absent] at there
    contradiction
  have now : (s.pendingOpen.insertNew sid).entry sid = some {} := by
    rw [PendingOpenStreams.entryInsertNew,if_pos rfl]
  have others : ∀ k, k ≠ sid → (s.pendingOpen.insertNew sid).entry k = s.pendingOpen.entry k := by
    intro k different
    rw [PendingOpenStreams.entryInsertNew,if_neg different]
  refine inboundLoop sid inbound rfl rfl going others ?_ ?_ ?_ ?_ (fun _ => .inr none) ?_
  · intro k checked
    contradiction
  · intro k claim
    cases Option.some.inj claim
    exact ⟨rfl,congrArg holds now⟩
  · rw [claimsFree (by rw [here]; rfl)] at none
    rw [claimsMine (show LoopPc.claim _ = some sid from rfl),if_pos rfl]
    simp only [goto]
    omega
  · intro _
    exact congrArg Option.isSome now
  · have change := reservedChanged others
    rw [absent,now] at change
    rw [here]
    simp only [goto,LoopPc.owes]
    simp only [weight,holds,Option.any_none,Option.any_some,Bool.not_false,if_true,Bool.false_eq_true,if_false] at change
    omega

theorem inboundRemove (inbound : Inbound s) (here : s.loop = .synRemove sid) :
    Inbound ({s with pendingOpen := s.pendingOpen.remove sid}.goto .synRelease) := by
  have going : s.loop ≠ .done := by rw [here]; exact LoopPc.noConfusion
  have claim : s.loop.claim = some sid := by rw [here]; rfl
  have fresh := inbound.fresh sid claim
  have once := inbound.once sid
  rw [claimsMine claim,if_pos rfl] at once
  have gone : (s.pendingOpen.remove sid).entry sid = none := by rw [PendingOpenStreams.entryRemove,if_pos rfl]
  have others : ∀ k, k ≠ sid → (s.pendingOpen.remove sid).entry k = s.pendingOpen.entry k := by
    intro k different
    rw [PendingOpenStreams.entryRemove,if_neg different]
  have free : claims ({s with pendingOpen := s.pendingOpen.remove sid}.goto .synRelease) sid = 0 := by
    rw [claimsFree rfl]
    simp only [goto]
    omega
  refine inboundLoop sid inbound rfl rfl going others ?_ ?_ ?_ ?_ ?_ ?_
  · intro k checked
    contradiction
  · intro k claim
    contradiction
  · rw [free]
    exact Nat.zero_le 1
  · intro some'
    rw [free] at some'
    contradiction
  · intro up
    exact absurd ((congrArg holds gone).symm.trans up) Bool.false_ne_true
  · have change := reservedChanged others
    rw [weight,weight,gone,fresh,if_pos rfl] at change
    rw [here]
    simp only [goto,LoopPc.owes]
    simp only [holds,Option.any_none,Bool.false_eq_true,if_false] at change
    omega

theorem inboundCall (inbound : Inbound s) (here : s.loop = .synCall sid) (answer : Bool)
    (moved : s.loopStep answer = some t) : Inbound t := by
  have claim : s.loop.claim = some sid := by rw [here]; rfl
  have going : s.loop ≠ .done := by rw [here]; exact LoopPc.noConfusion
  have owes : s.loop.owes = 0 := by rw [here]; rfl
  have refused : ∀ {u : Session}, u.loop = .synRemove sid → u.queue = s.queue → u.accepts = s.accepts →
      u.pendingOpen = s.pendingOpen → u.pendingInbound = s.pendingInbound → Inbound u := by
    intro u loop queue accepts entries pending
    refine inboundGoto inbound queue accepts entries pending ?_ ?_ ?_ (fun done => absurd done going) <;> rw [loop]
    · intro k checked
      contradiction
    · exact claim.symm
    · exact owes.symm
  simp only [loopStep,here] at moved
  split at moved
  · cases Option.some.inj moved
    exact refused rfl rfl rfl rfl rfl
  · split at moved
    · cases Option.some.inj moved
      refine inboundQuiet inbound ?_ (fun _ => .inl) rfl rfl ?_ ?_ ?_ (fun done => absurd done going)
      · intro k
        rw [claimsFree rfl,claimsMine claim]
        simp only [goto,List.count_append,List.count_singleton,beq_iff_eq]
        omega
      · intro k checked
        contradiction
      · intro k claim
        contradiction
      · rw [owed,owed,owes]
        rfl
    · cases Option.some.inj moved
      exact refused rfl rfl rfl rfl rfl

theorem inboundForget (inbound : Inbound s) (here : s.loop = .forget) : Inbound ({s with pendingOpen := {}}.goto .done) := by
  have same := claimsCalm (s := s) (t := {s with pendingOpen := {}}.goto .done) rfl rfl (by rw [here]; rfl) rfl
  have owed' : owed ({s with pendingOpen := {}}.goto .done) = owed s := by
    rw [owed,owed,here]
    rfl
  have empty : reserved {} = ∅ := by
    ext k
    rw [memReserved]
    simp [holds,PendingOpenStreams.entry]
  refine ⟨?_,fun out => absurd rfl out,?_,?_,?_,?_,fun out => absurd rfl out⟩
  · intro k
    rw [same]
    exact inbound.once k
  · intro k checked
    contradiction
  · intro k claim
    contradiction
  · intro task _ _
    simp [goto,holds,PendingOpenStreams.entry]
  · have enough := inbound.enough
    rw [owed']
    simp only [goto,empty,Finset.card_empty]
    omega

theorem inboundSynPending (inbound : Inbound s) (pc : s.loop = .synPending sid) :
    Inbound (s.goto (if s.pendingOpen.contains sid then .ready else .synActive sid)) := by
  refine inboundGoto inbound rfl rfl rfl rfl ?_ ?_ ?_ (fun done => by rw [pc] at done; contradiction)
  · intro k checked
    simp only [goto] at checked
    split at checked
    · contradiction
    · rename_i absent
      cases Option.some.inj checked
      rw [PendingOpenStreams.containsEntry,Bool.not_eq_true,Option.isSome_eq_false_iff,Option.isNone_iff_eq_none] at absent
      exact absent
  · rw [pc]
    simp only [goto]
    split <;> rfl
  · rw [pc]
    simp only [goto]
    split <;> rfl

theorem inboundSynLoad (inbound : Inbound s) {active : Nat} (pc : s.loop = .synLoad sid active) :
    Inbound (s.goto (if active + s.pendingInbound ≥ s.maxStreams then .ready else .synCas sid active s.pendingInbound)) := by
  refine inboundGoto inbound rfl rfl rfl rfl ?_ ?_ ?_ (fun done => by rw [pc] at done; contradiction)
  · intro k checked
    simp only [goto] at checked
    split at checked
    · contradiction
    · cases Option.some.inj checked
      exact inbound.absent sid (by rw [pc]; rfl)
  · rw [pc]
    simp only [goto]
    split <;> rfl
  · rw [pc]
    simp only [goto]
    split <;> rfl

/- The compare-exchange has gone through: a reservation whose entry is still to come. -/
theorem inboundReserved (inbound : Inbound s) {active : Nat} (pc : s.loop = .synCas sid active s.pendingInbound) :
    Inbound ({s with pendingInbound := s.pendingInbound + 1}.goto (.synInsert sid)) := by
  have going : s.loop ≠ .done := by rw [pc]; exact LoopPc.noConfusion
  have same := claimsCalm (s := s) (t := {s with pendingInbound := s.pendingInbound + 1}.goto (.synInsert sid)) rfl rfl
    (by rw [pc]; rfl) rfl
  refine inboundLoop sid inbound rfl rfl going (fun _ _ => rfl) ?_ ?_ ?_ ?_ .inl ?_
  · intro k checked
    cases Option.some.inj checked
    exact inbound.absent sid (by rw [pc]; rfl)
  · intro k claim
    contradiction
  · rw [same]
    exact inbound.once sid
  · rw [same]
    exact inbound.held going sid
  · rw [pc]
    simp only [goto,LoopPc.owes]
    omega

theorem inboundLoopStep (inbound : Inbound s) {answer : Bool} (moved : s.loopStep answer = some t) : Inbound t := by
  have calm : ∀ {u : Session}, s.loop.claim = none → s.loop.owes = 0 → s.loop ≠ .done → u.loop.calm → u.queue = s.queue →
      u.accepts = s.accepts → u.pendingOpen = s.pendingOpen → u.pendingInbound = s.pendingInbound → Inbound u :=
    fun claim owes going now queue accepts entries pending =>
      inboundCalm inbound ⟨claim,owes,going⟩ now queue accepts entries pending
  -- a section under the `streams` lock, then on to the next frame
  have dropped : ∀ {u : Session}, s.loop.claim = none → s.loop.owes = 0 → s.loop ≠ .done → Aside s u →
      Inbound (u.goto .ready) :=
    fun claim owes going aside => calm claim owes going ⟨rfl,rfl,rfl⟩ aside.queue aside.accepts aside.pendingOpen aside.pendingInbound
  unfold loopStep at moved
  split at moved
  · contradiction
  · contradiction
  · rename_i sid pc
    cases Option.some.inj moved
    refine calm (by rw [pc]; rfl) (by rw [pc]; rfl) (by rw [pc]; exact LoopPc.noConfusion) ?_ rfl rfl rfl rfl
    simp only [goto]
    split <;> exact ⟨rfl,rfl,rfl⟩
  · cases Option.some.inj moved
    exact inboundSynPending inbound ‹_›
  · rename_i sid pc
    cases Option.some.inj moved
    refine inboundGoto inbound rfl rfl rfl rfl ?_ (by rw [pc]; rfl) (by rw [pc]; rfl) (fun done => by rw [pc] at done; contradiction)
    intro k checked
    cases Option.some.inj checked
    exact inbound.absent sid (by rw [pc]; rfl)
  · cases Option.some.inj moved
    exact inboundSynLoad inbound ‹_›
  · rename_i sid active pending pc
    split at moved
    · rename_i here
      have equal : s.pendingInbound = pending := by simpa using (Bool.and_eq_true_iff.mp here).2
      cases Option.some.inj moved
      rw [← equal] at pc ⊢
      exact inboundReserved inbound pc
    · cases Option.some.inj moved
      refine inboundGoto inbound rfl rfl rfl rfl ?_ (by rw [pc]; rfl) (by rw [pc]; rfl) (fun done => by rw [pc] at done; contradiction)
      intro k checked
      cases Option.some.inj checked
      exact inbound.absent sid (by rw [pc]; rfl)
  · cases Option.some.inj moved
    exact inboundInsert inbound ‹_›
  · rename_i sid pc
    refine inboundCall inbound pc answer ?_
    simp only [loopStep,pc]
    exact moved
  · cases Option.some.inj moved
    exact inboundRemove inbound ‹_›
  · rename_i pc
    cases Option.some.inj moved
    exact inboundReleased inbound (by rw [pc]; exact ⟨rfl,rfl,LoopPc.noConfusion⟩)
  · rename_i pc
    cases Option.some.inj moved
    exact inboundReleased inbound (by rw [pc]; exact ⟨rfl,rfl,LoopPc.noConfusion⟩)
  · rename_i sid payload pc
    have was : s.loop.claim = none ∧ s.loop.owes = 0 ∧ s.loop ≠ .done := by
      rw [pc]
      exact ⟨rfl,rfl,LoopPc.noConfusion⟩
    split at moved
    · cases Option.some.inj moved
      exact inboundCalm inbound was ⟨rfl,rfl,rfl⟩ rfl rfl rfl rfl
    · cases Option.some.inj moved
      exact inboundCalm inbound was ⟨rfl,rfl,rfl⟩ rfl rfl rfl rfl
    · rename_i next stored
      obtain ⟨e,found,now,others⟩ := PendingOpenStreams.pushedEntry (storedKept stored)
      cases Option.some.inj moved
      exact inboundEntry inbound was (by rw [now]; rfl) (by rw [found,now]; rfl) others
  · rename_i sid pc
    cases Option.some.inj moved
    refine dropped (by rw [pc]; rfl) (by rw [pc]; rfl) (by rw [pc]; exact LoopPc.noConfusion) ?_
    split
    · exact .refl s
    · exact unregisterAside s sid
  · rename_i sid pc
    have next : ∀ {u : Session}, u.loop.calm → u.queue = s.queue → u.accepts = s.accepts → u.pendingOpen = s.pendingOpen →
        u.pendingInbound = s.pendingInbound → Inbound u :=
      calm (by rw [pc]; rfl) (by rw [pc]; rfl) (by rw [pc]; exact LoopPc.noConfusion)
    split at moved
    · split at moved <;> cases Option.some.inj moved <;> exact next ⟨rfl,rfl,rfl⟩ rfl rfl rfl rfl
    · cases Option.some.inj moved
      exact next ⟨rfl,rfl,rfl⟩ rfl rfl rfl rfl
  · cases Option.some.inj moved
    exact inboundFin inbound ‹_›
  · rename_i sid pc
    cases Option.some.inj moved
    refine dropped (by rw [pc]; rfl) (by rw [pc]; rfl) (by rw [pc]; exact LoopPc.noConfusion) ?_
    split
    · exact markAside s sid
    · exact .refl s
  · rename_i sid pc
    cases Option.some.inj moved
    refine dropped (by rw [pc]; rfl) (by rw [pc]; rfl) (by rw [pc]; exact LoopPc.noConfusion) ?_
    split
    · exact .refl s
    · exact unregisterAside s sid
  · rename_i pc
    cases Option.some.inj moved
    exact calm (by rw [pc]; rfl) (by rw [pc]; rfl) (by rw [pc]; exact LoopPc.noConfusion) ⟨rfl,rfl,rfl⟩ rfl rfl rfl rfl
  · rename_i pc
    cases Option.some.inj moved
    exact calm (by rw [pc]; rfl) (by rw [pc]; rfl) (by rw [pc]; exact LoopPc.noConfusion) ⟨rfl,rfl,rfl⟩ rfl rfl rfl rfl
  · rename_i pc
    cases Option.some.inj moved
    exact inboundForget inbound pc

/- The entry of a stream that is being accepted stays until its task removes it. -/
theorem acceptHeld (inbound : Inbound s) {pc : AcceptPc} (found : s.accepts[i]? = some (sid,pc)) (live : pc ≠ .done)
    (going : s.loop ≠ .done) : (s.pendingOpen.entry sid).isSome = true := by
  have mine : claiming sid (sid,pc) = true := by simp [claiming,live]
  have atLeast : 1 ≤ s.accepts.countP (claiming sid) :=
    List.countP_pos_iff.mpr ⟨_,List.mem_of_getElem? found,mine⟩
  refine inbound.held going sid ?_
  rw [claims]
  omega

/- The task goes on, and the entries stay. -/
theorem inboundAcceptOn (inbound : Inbound s) {pc pc' : AcceptPc} (found : s.accepts[i]? = some (sid,pc)) (live : pc ≠ .done)
    (queue : t.queue = s.queue) (loop : t.loop = s.loop) (accepts : t.accepts = s.accepts.set i (sid,pc'))
    (entries : t.pendingOpen = s.pendingOpen) (pending : t.pendingInbound = s.pendingInbound)
    (was : owing (sid,pc) = false) (now : owing (sid,pc') = false)
    (spent : pc'.spent = true → holds (s.pendingOpen.entry sid) = false) : Inbound t := by
  refine inboundAccept inbound found live queue loop accepts (fun k _ => by rw [entries]) ?_ ?_ ?_ ?_ <;> rw [entries]
  · exact fun _ => acceptHeld inbound found live
  · exact id
  · exact spent
  · rw [was,now,pending]

/- The task removes its entry, whose reservation is spent. -/
theorem inboundAcceptRemoves {next : PendingOpenStreams} (inbound : Inbound s) {pc : AcceptPc}
    (found : s.accepts[i]? = some (sid,pc)) (live : pc ≠ .done) (was : owing (sid,pc) = false) (spent : pc.spent = true) (queue : t.queue = s.queue) (loop : t.loop = s.loop)
    (accepts : t.accepts = s.accepts.set i (sid,.done)) (entries : t.pendingOpen = next.remove sid)
    (pending : t.pendingInbound = s.pendingInbound) (others : ∀ k, k ≠ sid → next.entry k = s.pendingOpen.entry k) :
    Inbound t := by
  have apart : ∀ k, k ≠ sid → t.pendingOpen.entry k = s.pendingOpen.entry k := by
    intro k different
    rw [entries,PendingOpenStreams.entryRemove,if_neg different]
    exact others k different
  have gone : t.pendingOpen.entry sid = none := by
    rw [entries,PendingOpenStreams.entryRemove,if_pos rfl]
  refine inboundAccept inbound found live queue loop accepts apart (fun out => absurd rfl out) ?_ ?_ ?_
  · rw [gone]
    exact fun _ => rfl
  · rw [gone]
    exact fun _ => rfl
  · have change := reservedChanged apart
    have free := inbound.spent (sid,pc) (List.mem_of_getElem? found) spent
    rw [weight,weight,free,gone,if_neg Bool.false_ne_true] at change
    rw [was,pending]
    simp only [holds,Option.any_none,Bool.false_eq_true,if_false] at change
    rw [show owing (sid,.done) = false from rfl,if_neg Bool.false_ne_true]
    omega

theorem inboundAcceptRelease (inbound : Inbound s) (found : s.accepts[i]? = some (sid,.release))
    (moved : s.acceptStep i = some t) : Inbound t := by
  simp only [acceptStep,found] at moved
  split at moved
  · rename_i next first
    cases Option.some.inj moved
    obtain ⟨held,spent',there,others⟩ := releasedFirst first
    refine inboundAccept inbound found AcceptPc.noConfusion rfl rfl rfl others (fun _ _ => there) (fun _ => spent')
      (fun _ => spent') ?_
    have change := reservedChanged others
    rw [weight,weight,held,spent',if_pos rfl,if_neg Bool.false_ne_true] at change
    rw [show owing (sid,.release) = false from rfl,show owing (sid,.releaseCount) = true from rfl,
      if_neg Bool.false_ne_true,if_pos rfl]
    simp only [setAccept]
    omega
  · rename_i other
    cases Option.some.inj moved
    refine inboundAcceptOn inbound found AcceptPc.noConfusion rfl rfl rfl rfl rfl rfl rfl ?_
    intro _
    cases released : s.pendingOpen.releaseReservation sid with
    | none =>
      unfold PendingOpenStreams.releaseReservation at released
      split at released
      · rename_i absent
        rw [show s.pendingOpen.entry sid = none from absent]
        rfl
      · split at released <;> contradiction
    | some outcome =>
      obtain ⟨first,next⟩ := outcome
      rw [(releasedFirst released).1]
      cases first with
      | false => rfl
      | true => exact absurd released (other next)

theorem inboundAcceptCount (inbound : Inbound s) (found : s.accepts[i]? = some (sid,.releaseCount))
    (moved : s.acceptStep i = some t) : Inbound t := by
  simp only [acceptStep,found] at moved
  cases Option.some.inj moved
  refine inboundAccept inbound found AcceptPc.noConfusion rfl rfl rfl (fun _ _ => rfl)
    (fun _ => acceptHeld inbound found AcceptPc.noConfusion) id
    (fun _ => inbound.spent (sid,.releaseCount) (List.mem_of_getElem? found) rfl) ?_
  have atLeast : 1 ≤ s.accepts.countP owing := List.countP_pos_iff.mpr ⟨_,List.mem_of_getElem? found,rfl⟩
  have enough := inbound.enough
  rw [owed] at enough
  rw [show owing (sid,.releaseCount) = true from rfl,show owing (sid,.take false) = false from rfl,if_pos rfl,
    if_neg Bool.false_ne_true]
  simp only [setAccept,releaseInboundStreamReservation]
  omega

theorem inboundAcceptTake (inbound : Inbound s) {delivered : Bool} (found : s.accepts[i]? = some (sid,.take delivered))
    (moved : s.acceptStep i = some t) : Inbound t := by
  have free := inbound.spent (sid,.take delivered) (List.mem_of_getElem? found) rfl
  simp only [acceptStep,found] at moved
  split at moved
  · cases Option.some.inj moved
    exact inboundAcceptOn inbound found AcceptPc.noConfusion rfl rfl rfl rfl rfl rfl rfl (fun _ => free)
  · rename_i payloads fin next taken
    obtain ⟨e,was,_,_,now,others⟩ := PendingOpenStreams.takenEntry taken
    have alike : holds (next.entry sid) = holds (s.pendingOpen.entry sid) := by
      rw [was,now]
      rfl
    split at moved
    · cases Option.some.inj moved
      exact inboundAcceptRemoves inbound found AcceptPc.noConfusion rfl rfl rfl rfl rfl rfl rfl others
    · cases Option.some.inj moved
      refine inboundAccept inbound found AcceptPc.noConfusion rfl rfl rfl others ?_ ?_ ?_ ?_
      · intro _ _
        exact congrArg Option.isSome now
      · intro down
        exact alike.trans down
      · intro _
        exact alike.trans free
      · have change := reservedChanged others
        rw [weight,weight,alike] at change
        have none : ∀ pc' : AcceptPc, (pc' = .mark ∨ pc' = .unregister ∨ ∃ d, pc' = .take d) → owing (sid,pc') = false := by
          rintro pc' (rfl | rfl | ⟨d,rfl⟩) <;> rfl
        rw [none _ (.inr (.inr ⟨delivered,rfl⟩)),none]
        · simp only [setAccept]
          omega
        · split
          · exact .inr (.inr ⟨_,rfl⟩)
          · split
            · exact .inl rfl
            · exact .inr (.inl rfl)

theorem inboundAcceptStep (inbound : Inbound s) (moved : s.acceptStep i = some t) : Inbound t := by
  cases found : s.accepts[i]? with
  | none =>
    simp only [acceptStep,found] at moved
    contradiction
  | some task =>
    obtain ⟨sid,pc⟩ := task
    have spent := inbound.spent (sid,pc) (List.mem_of_getElem? found)
    cases pc with
    | done =>
      simp only [acceptStep,found] at moved
      contradiction
    | begin =>
      simp only [acceptStep,found] at moved
      cases Option.some.inj moved
      refine inboundAcceptOn inbound found AcceptPc.noConfusion rfl rfl rfl rfl rfl rfl ?_ ?_ <;> split <;>
        first | rfl | exact fun no => absurd no Bool.false_ne_true
    | register =>
      simp only [acceptStep,found] at moved
      cases Option.some.inj moved
      exact inboundAcceptOn inbound found AcceptPc.noConfusion rfl rfl rfl rfl rfl rfl rfl
        (fun no => absurd no Bool.false_ne_true)
    | release => exact inboundAcceptRelease inbound found moved
    | releaseCount => exact inboundAcceptCount inbound found moved
    | take delivered => exact inboundAcceptTake inbound found moved
    | mark =>
      simp only [acceptStep,found] at moved
      cases Option.some.inj moved
      have aside := markAside s sid
      have accepts := congrArg (·.set i (sid,AcceptPc.remove)) aside.accepts
      exact inboundAcceptOn inbound found AcceptPc.noConfusion aside.queue aside.loop accepts aside.pendingOpen
        aside.pendingInbound rfl rfl (fun _ => spent rfl)
    | unregister =>
      simp only [acceptStep,found] at moved
      cases Option.some.inj moved
      have aside := unregisterAside s sid
      have accepts := congrArg (·.set i (sid,AcceptPc.remove)) aside.accepts
      exact inboundAcceptOn inbound found AcceptPc.noConfusion aside.queue aside.loop accepts aside.pendingOpen
        aside.pendingInbound rfl rfl (fun _ => spent rfl)
    | remove =>
      simp only [acceptStep,found] at moved
      cases Option.some.inj moved
      exact inboundAcceptRemoves inbound found AcceptPc.noConfusion rfl rfl rfl rfl rfl rfl rfl (fun _ _ => rfl)

theorem inboundStep (inbound : Inbound s) (moved : step s a = some t) : Inbound t := by
  have still : ∀ {u : Session}, u.loop = s.loop → u.accepts = s.accepts → u.queue = s.queue → u.pendingOpen = s.pendingOpen →
      u.pendingInbound = s.pendingInbound → Inbound u := by
    intro u loop accepts queue entries pending
    refine inboundGoto inbound queue accepts entries pending ?_ ?_ ?_ ?_ <;> rw [loop]
    · exact inbound.absent
    · exact id
  cases a with
  | frame f =>
    simp only [step] at moved
    split at moved
    · cases Option.some.inj moved
      exact inboundFrame inbound ‹_› f
    · contradiction
  | loop answer => exact inboundLoopStep inbound moved
  | stop =>
    simp only [step] at moved
    split at moved
    · rename_i ready
      cases Option.some.inj moved
      refine inboundCalm inbound ?_ ⟨rfl,rfl,rfl⟩ rfl rfl rfl rfl
      rw [ready]
      exact ⟨rfl,rfl,LoopPc.noConfusion⟩
    · contradiction
  | close | openCancel sid =>
    cases Option.some.inj moved
    exact still rfl rfl rfl rfl rfl
  | openCheck =>
    simp only [step,openCheck] at moved
    repeat' split at moved
    all_goals first | contradiction | (cases Option.some.inj moved; exact still rfl rfl rfl rfl rfl)
  | openRegister sid => exact inboundAside inbound (openAside moved)
  | acceptTake =>
    simp only [step] at moved
    split at moved
    · contradiction
    · rename_i sid rest waiting
      cases Option.some.inj moved
      refine inboundQuiet inbound ?_ ?_ rfl rfl inbound.absent (fun _ => id) ?_ id
      · intro k
        rw [claims,claims,waiting,List.count_cons]
        dsimp only
        rw [List.countP_append]
        have one : List.countP (claiming k) [(sid,.begin)] = if sid == k then 1 else 0 := by
          rw [List.countP_cons,List.countP_nil,Nat.zero_add]
          simp [claiming]
        rw [one]
        omega
      · intro task member
        rcases List.mem_append.mp member with old | new
        · exact .inl old
        · rw [List.mem_singleton.mp new]
          exact .inr rfl
      · rw [owed,owed,List.countP_append]
        rfl
  | accept i => exact inboundAcceptStep inbound moved
  | unregister sid =>
    cases Option.some.inj moved
    exact inboundAside inbound (unregisterAside s sid)
  | mark sid =>
    cases Option.some.inj moved
    exact inboundAside inbound (markAside s sid)
  | abandon sid =>
    simp only [step] at moved
    split at moved
    · contradiction
    · cases Option.some.inj moved
      exact still rfl rfl rfl rfl rfl
  | prune =>
    cases Option.some.inj moved
    exact inboundAside inbound (pruneAside s)

end Inbound

end KanoTls.Registry
