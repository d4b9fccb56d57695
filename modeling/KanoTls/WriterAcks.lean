import KanoTls.WriterStream

/-! The answers of the writer, with I/O errors anywhere. A responder is in one place at
a time, so it is answered at most once; where it is says which of its request's bytes
are out. -/
namespace KanoTls.Writer
open Wire Shaper Uot State

def Drain.ids (d : Drain) : List Nat := (d.current.toList ++ d.deferred).map (·.id)

def idsOf : Pc → List Nat
  | .drain d | .window d => d.ids
  | .through d r _ => r.id::d.ids
  | .prepare r _ rest => r.id::rest.map (·.id)
  | _ => []

def holders (s : State) : List Nat :=
  s.answers.map (·.1) ++ s.batch ++ s.responders ++ idsOf s.pc ++ s.queue.map (·.id)

section Holders
variable {s t : State} {a : Action} {d : Drain} {draw : Draw}

theorem holdersCount (s : State) (id : Nat) : (holders s).count id = (s.answers.map (·.1)).count id + s.batch.count id +
    s.responders.count id + (idsOf s.pc).count id + (s.queue.map (·.id)).count id := by
  simp only [holders,List.count_append]

@[simp] theorem answeredIds (ids : List Nat) (ok : Bool) : (answerAll ids ok).map (·.1) = ids := by
  rw [answerAll,List.map_map]
  exact List.map_id _

@[simp] theorem settledId (s : State) (r : Request) : (s.withSettings r).id = r.id := by
  unfold withSettings
  split <;> rfl

@[simp] theorem idsNext (requests : List Request) : idsOf (nextRequest requests) = requests.map (·.id) := by
  cases requests <;> rfl

theorem failDrainHolders (s : State) (d : Drain) (id : Nat) : (holders (s.failDrain d)).count id ≤
    (s.answers.map (·.1)).count id + s.batch.count id + s.responders.count id + d.ids.count id +
      (s.queue.map (·.id)).count id := by
  rw [holdersCount]
  unfold failDrain
  split
  · simp only [idsOf,List.count_append,List.count_nil]
    omega
  · simp only [failed,idsOf,Drain.ids,List.map_append,answeredIds,List.count_append,List.count_nil]
    omega

theorem refusedHolders (here : idsOf s.pc = []) {r : Request} {rest : List Request} (found : s.queue.Perm (r::rest))
    (id : Nat) :
    (holders (s.refuse r rest)).count id ≤ (holders s).count id := by
  have taken : (s.queue.map (·.id)).count id = ((r::rest).map (·.id)).count id := (found.map _).count_eq id
  rw [holdersCount,holdersCount,here,taken]
  simp only [State.refuse,failed,idsOf,List.map_append,answeredIds,List.count_append,List.count_nil,List.map_cons,
    List.map_nil,List.count_cons]
  omega

theorem autoSplit (requests : List Request) (id : Nat) :
    (((requests.filter (·.auto)).map (fun r => (r.id,true))).map (·.1)).count id +
      ((requests.filter (fun r => !r.auto)).map (·.id)).count id = (requests.map (·.id)).count id := by
  induction requests with
  | nil => rfl
  | cons r rest ih =>
    cases auto : r.auto <;> simp [auto,List.count_cons] at ih ⊢ <;> omega

theorem channelSplit (queue : List Request) (id : Nat) :
    ((bulkOf queue).map (·.id)).count id + ((controlOf queue).map (·.id)).count id = (queue.map (·.id)).count id := by
  induction queue with
  | nil => rfl
  | cons r rest ih =>
    unfold bulkOf controlOf at ih ⊢
    cases control : r.control <;> simp [control,List.count_cons] at ih ⊢ <;> omega

theorem queuedHolders {requests queue : List Request} (queued : Queued s t requests queue) (id : Nat) :
    (t.answers.map (·.1)).count id + t.batch.count id + t.responders.count id =
      (s.answers.map (·.1)).count id + s.batch.count id + s.responders.count id + (requests.map (·.id)).count id := by
  have split := autoSplit requests id
  rw [queued.answers,queued.batch,queued.responders,List.map_append,List.count_append,List.count_append]
  omega

theorem controlHolders (here : s.pc = .select) (moved : s.controlStep draw = some t) (id : Nat) :
    (holders t).count id ≤ (holders s).count id := by
  have none : idsOf s.pc = [] := by rw [here]; rfl
  obtain ⟨r,rest,found,⟨_,rfl⟩ | ⟨_,u,same,outcome⟩⟩ := controlCases moved
  · exact refusedHolders none (takeControlPerm found) id
  · have queued := drained {s with queue := rest,settings := false}
    rw [← same] at queued
    have taken : (s.queue.map (·.id)).count id = ((r::rest).map (·.id)).count id :=
      ((takeControlPerm found).map _).count_eq id
    have parts := channelSplit rest id
    have moved' := queuedHolders queued id
    dsimp only at moved'
    rw [holdersCount,holdersCount,none,taken]
    simp only [List.map_cons,List.count_cons,List.count_nil]
    obtain ⟨rfl,_⟩ | ⟨_,⟨_,rfl⟩ | ⟨_,rfl⟩⟩ := outcome
    · have again := queuedHolders (queuedOne u (s.withSettings r)) id
      have left := (queuedOne u (s.withSettings r)).queue
      simp only [List.map_cons,List.map_nil,settledId,List.count_cons,List.count_nil] at again
      simp only [startDrain,idsOf,Drain.ids,Option.toList_none,List.nil_append,List.map_nil,List.count_nil,left,queued.queue]
      omega
    · simp only [idsOf,settledId,List.map_nil,List.count_cons,List.count_nil,queued.queue]
      omega
    · simp only [startDrain,idsOf,Drain.ids,Option.toList_some,List.append_nil,List.map_cons,List.map_nil,settledId,
        List.count_cons,List.count_nil,queued.queue]
      omega

theorem bulkHolders (here : s.pc = .select) (moved : s.bulkStep draw = some t) (id : Nat) :
    (holders t).count id ≤ (holders s).count id := by
  have none : idsOf s.pc = [] := by rw [here]; rfl
  obtain ⟨noControl,allBulk,r,rest,first,⟨_,rfl⟩ | ⟨_,outcome⟩⟩ := bulkCases moved
  · exact refusedHolders none (by rw [first]) id
  · have queued := drained s
    have moved' := queuedHolders queued id
    rw [allBulk] at moved'
    rw [holdersCount,holdersCount,none]
    obtain ⟨_,rfl⟩ | rfl := outcome
    · simp only [idsOf,List.count_nil,queued.queue,noControl,List.map_nil]
      omega
    · simp only [startDrain,idsOf,Drain.ids,Option.toList_none,List.nil_append,List.map_nil,List.count_nil,
        queued.queue,noControl]
      omega

theorem recordHolders (here : s.pc = .drain d) {fault : Fault} (moved : s.recordStep d draw fault = some t) (id : Nat) :
    (holders t).count id ≤ (holders s).count id := by
  have before : (idsOf s.pc).count id = d.ids.count id := by rw [here]; rfl
  rw [holdersCount s,before]
  unfold recordStep at moved
  split at moved
  · contradiction
  · dsimp only at moved
    generalize s.policyFor d draw = chosen at moved
    have still : (idsOf (if chosen.1.delay then .window (s.afterRecord d chosen.1) else .drain (s.afterRecord d chosen.1))).count id =
        d.ids.count id := by
      split <;> rfl
    split at moved
    · cases Option.some.inj moved
      exact failDrainHolders _ d id
    · split at moved
      · cases Option.some.inj moved
        exact failDrainHolders _ d id
      · split at moved
        · split at moved
          · cases Option.some.inj moved
            refine Nat.le_trans (failDrainHolders _ _ id) ?_
            have same : (s.afterRecord d chosen.1).ids = d.ids := rfl
            simp only [failed,prepared,same,List.map_append,answeredIds,List.count_append,List.count_nil]
            omega
          · cases Option.some.inj moved
            rw [holdersCount]
            simp only [flushed,prepared,still,List.map_append,answeredIds,List.count_append,List.count_nil]
            omega
        · cases Option.some.inj moved
          rw [holdersCount]
          simp only [prepared,still]
          omega

theorem finishHolders (here : s.pc = .drain d) {made : Nat} (moved : s.finishStep d made = some t) (id : Nat) :
    (holders t).count id ≤ (holders s).count id := by
  have before : (idsOf s.pc).count id = d.ids.count id := by rw [here]; rfl
  rw [holdersCount t,holdersCount s,before]
  unfold finishStep at moved
  split at moved
  · contradiction
  · split at moved
    · cases Option.some.inj moved
      simp only [idsOf,List.count_append,List.count_nil]
      omega
    · cases Option.some.inj moved
      simp only [prepared,idsNext,Drain.ids,List.count_append,List.count_nil]
      omega

theorem arriveHolders (here : s.pc = .window d) (moved : s.arriveStep d = some t) (id : Nat) :
    (holders t).count id ≤ (holders s).count id := by
  have before : (idsOf s.pc).count id = d.ids.count id := by rw [here]; rfl
  rw [holdersCount t,holdersCount s,before]
  unfold arriveStep at moved
  split at moved
  · contradiction
  · split at moved
    · contradiction
    · rename_i r rest found
      have taken : (s.queue.map (·.id)).count id = ((r::rest).map (·.id)).count id :=
        ((takeControlPerm found).map _).count_eq id
      rw [taken]
      dsimp only at moved
      split at moved
      · cases Option.some.inj moved
        simp only [idsOf,settledId,List.map_cons,List.count_cons]
        omega
      · cases Option.some.inj moved
        simp only [idsOf,Drain.ids,settledId,List.map_append,List.map_cons,List.map_nil,List.count_append,
          List.count_cons,List.count_nil]
        omega

theorem packetHolders {draws : List (Nat × Nat)} {fault : Option Nat} (moved : s.packetStep draws fault = some t)
    (id : Nat) : (holders t).count id ≤ (holders s).count id := by
  unfold packetStep at moved
  split at moved
  · rename_i d r p todo here
    obtain ⟨records,_,rfl⟩ := Option.map_eq_some_iff.mp moved
    have before : (idsOf s.pc).count id = (r.id::d.ids).count id := by rw [here]; rfl
    rw [holdersCount s,before]
    cases fault with
    | some made =>
      refine Nat.le_trans (failDrainHolders _ d id) ?_
      simp only [prepared,List.map_append,List.map_cons,List.map_nil,List.count_append,List.count_cons,List.count_nil]
      omega
    | none =>
      rw [holdersCount]
      exact Nat.le_refl _
  · rename_i r p todo rest here
    obtain ⟨records,_,rfl⟩ := Option.map_eq_some_iff.mp moved
    have before : (idsOf s.pc).count id = (r.id::rest.map (·.id)).count id := by rw [here]; rfl
    rw [holdersCount s,before,holdersCount]
    cases fault with
    | some made =>
      simp only [prepared,idsOf,List.map_append,List.map_cons,List.map_nil,List.count_append,List.count_cons,List.count_nil]
      omega
    | none => exact Nat.le_refl _
  · contradiction

theorem flushHolders {ok : Bool} (moved : s.flushStep ok = some t) (id : Nat) :
    (holders t).count id ≤ (holders s).count id := by
  have settled : ∀ {u : State}, u.answers.map (·.1) = s.answers.map (·.1) ++ s.batch → u.batch = [] →
      u.responders = s.responders → idsOf u.pc = [] → u.queue = s.queue → (holders u).count id ≤ (holders s).count id := by
    intro u answers batch responders none queue
    rw [holdersCount,holdersCount,answers,batch,responders,none,queue,List.count_append,List.count_nil]
    omega
  unfold flushStep at moved
  split at moved
  · rename_i d r here
    have before : (idsOf s.pc).count id = (r.id::d.ids).count id := by rw [here]; rfl
    rw [holdersCount s,before]
    cases Option.some.inj moved
    cases ok
    · refine Nat.le_trans (failDrainHolders _ d id) ?_
      simp only [failed,List.map_append,answeredIds,List.count_append,List.count_cons,List.count_nil]
      omega
    · rw [holdersCount]
      simp only [cond_true,flushed,idsOf,List.map_append,answeredIds,List.count_append,List.count_cons,List.count_nil]
      omega
  · rename_i here
    have still : ∀ {u : State}, u = {s with pc := .select} → (holders u).count id ≤ (holders s).count id := by
      rintro u rfl
      rw [holdersCount,holdersCount s,here]
      exact Nat.le_refl _
    split at moved
    · exact still (Option.some.inj moved).symm
    · split at moved
      · exact still (Option.some.inj moved).symm
      · cases Option.some.inj moved
        cases ok <;> exact settled (by simp [failed,flushed]) rfl rfl rfl rfl
  · cases Option.some.inj moved
    cases ok <;> exact settled (by simp [failed,flushed]) rfl rfl rfl rfl
  · contradiction

def sends : Action → Bool
  | .send .. => true
  | _ => false

/- A step keeps each responder in one place, or answers or drops it. -/
theorem holdersLess (moved : step s a = some t) (other : sends a = false) (id : Nat) :
    (holders t).count id ≤ (holders s).count id := by
  have idle : ∀ {u : State}, u.answers = s.answers → u.batch = s.batch → u.responders = s.responders →
      idsOf u.pc = [] → u.queue = s.queue → (holders u).count id ≤ (holders s).count id := by
    intro u answers batch responders none queue
    rw [holdersCount,holdersCount,answers,batch,responders,none,queue,List.count_nil]
    omega
  cases a with
  | send control auto packets => contradiction
  | close =>
    cases Option.some.inj moved
    exact Nat.le_refl _
  | hangUp =>
    cases Option.some.inj moved
    exact Nat.le_refl _
  | exit =>
    simp only [step] at moved
    split at moved
    · cases Option.some.inj moved
      exact idle rfl rfl rfl rfl rfl
    · contradiction
  | control draw =>
    simp only [step] at moved
    split at moved
    · exact controlHolders ‹_› moved id
    · contradiction
  | bulk draw =>
    simp only [step] at moved
    split at moved
    · exact bulkHolders ‹_› moved id
    · contradiction
  | record draw fault =>
    simp only [step] at moved
    split at moved
    · exact recordHolders ‹_› moved id
    · contradiction
  | finish made =>
    simp only [step] at moved
    split at moved
    · exact finishHolders ‹_› moved id
    · contradiction
  | arrive =>
    simp only [step] at moved
    split at moved
    · exact arriveHolders ‹_› moved id
    · contradiction
  | windowEnd =>
    simp only [step] at moved
    split at moved
    · rename_i d here
      cases Option.some.inj moved
      rw [holdersCount,holdersCount s,here]
      exact Nat.le_refl _
    · contradiction
  | packet draws fault => exact packetHolders moved id
  | ready =>
    simp only [step] at moved
    split at moved
    · rename_i r rest here
      cases Option.some.inj moved
      rw [holdersCount,holdersCount s,here]
      simp only [idsNext,List.count_append,List.count_cons,List.count_nil]
      simp only [idsOf,List.count_cons]
      omega
    · contradiction
  | flush ok => exact flushHolders moved id
  | leave draw =>
    simp only [step] at moved
    split at moved
    · split at moved <;> cases Option.some.inj moved <;> exact idle rfl rfl rfl rfl rfl
    · contradiction
  | goaway last ok =>
    simp only [step] at moved
    split at moved
    · unfold goawayStep at moved
      split at moved
      · cases Option.some.inj moved
        exact idle rfl rfl rfl rfl rfl
      · cases Option.some.inj moved
        cases ok <;> exact idle rfl rfl rfl rfl rfl
    · contradiction

end Holders

end KanoTls.Writer
