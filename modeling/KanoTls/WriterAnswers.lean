import KanoTls.WriterBacked

/-! Write acknowledgements, with I/O errors, the close of the session and the loss of the
channels at any step. -/
namespace KanoTls.Writer
open Wire Shaper Uot State

section Step
variable {s t : State} {a : Action} {d : Drain} {draw : Draw}

theorem idsHeld (pc : Pc) : idsOf pc = (requestsOf pc).map (·.id) := by
  cases pc <;> rfl

theorem sentOnly (other : sends a = false) (moved : step s a = some t) : t.sent = s.sent := by
  by_cases own : writes a = true
  · exact sentKept own moved
  · cases a with
    | close | hangUp =>
      cases Option.some.inj moved
      rfl
    | goaway last ok =>
      simp only [step,goawayStep] at moved
      repeat' split at moved
      all_goals first | contradiction | cases Option.some.inj moved
      · rfl
      · cases ok <;> rfl
    | exit | leave draw =>
      simp only [step] at moved
      repeat' split at moved
      all_goals first | contradiction | (cases Option.some.inj moved; rfl)
    | _ => contradiction

theorem idsStep (known : Ids s) (stock : Stock t) (moved : step s a = some t) : Ids t := by
  cases kind : sends a with
  | false =>
    have sent := sentOnly kind moved
    have less := holdersLess moved kind
    refine ⟨by rw [sent]; exact known.ids,fun id => (less id).trans (known.few id),?_,stock.queue⟩
    intro id member
    rw [sent]
    exact known.known id (List.count_pos_iff.mp (Nat.lt_of_lt_of_le (List.count_pos_iff.mpr member) (less id)))
  | true =>
    cases a <;> try contradiction
    rename_i control auto packets
    simp only [step] at moved
    split at moved
    · contradiction
    · cases Option.some.inj moved
      have fresh : s.sent.length ∉ holders s := fun member => Nat.lt_irrefl _ (known.known _ member)
      refine ⟨?_,?_,?_,stock.queue⟩
      · simp [known.ids,newRequest,List.range_succ]
      · intro id
        have few := known.few id
        have absent := List.count_eq_zero.mpr fresh
        rw [holdersCount] at few absent ⊢
        simp only [List.map_append,List.count_append,List.map_cons,List.map_nil,List.count_cons,List.count_nil,newRequest]
        by_cases same : s.sent.length = id
        · subst same
          simp only [BEq.rfl,if_true]
          omega
        · simp only [beq_iff_eq,if_neg same]
          omega
      · intro id member
        rw [List.length_append,List.length_singleton]
        simp only [holders,List.mem_append,List.map_append,List.map_cons,List.map_nil,List.mem_singleton,
          newRequest] at member
        have old := known.known id
        simp only [holders,List.mem_append] at old
        rcases member with member | member | rfl
        · exact Nat.lt_succ_of_lt (old (.inl member))
        · exact Nat.lt_succ_of_lt (old (.inr member))
        · exact Nat.lt_succ_self _

theorem backedSend (backed : Backed s) (known : Ids s) {control auto : Bool} {packets : List (List Frame)}
    (moved : step s (.send control auto packets) = some t) : Backed t := by
  simp only [step] at moved
  split at moved
  · contradiction
  · cases Option.some.inj moved
    have older : ∀ {id : Nat}, id ∈ holders s → ∀ q ∈ s.sent ++ [s.newRequest control auto packets], q.id = id →
        q ∈ s.sent := by
      intro id held q member same
      rcases List.mem_append.mp member with old | new
      · exact old
      · rw [List.mem_singleton.mp new] at same
        exact absurd (known.known id held) (by rw [← same]; exact Nat.lt_irrefl _)
    have still : ∀ {id : Nat} {bytes : List Byte}, id ∈ holders s → Vouched s id bytes →
        Vouched {s with queue := s.queue ++ [s.newRequest control auto packets],sent := s.sent ++ [s.newRequest control auto packets]}
          id bytes :=
      fun held vouched q member same => vouched q (older held q member same) same
    refine ⟨?_,backed.begun,?_,?_,?_,backed.drained,backed.idle,backed.leaving⟩
    · intro r member
      refine still ?_ (backed.hold r member)
      have inside : r.id ∈ idsOf s.pc := by
        rw [idsHeld]
        exact List.mem_map_of_mem member
      simp only [holders,List.mem_append]
      exact .inl (.inr inside)
    · intro id member
      refine still ?_ (backed.batch id member)
      simp only [holders,List.mem_append]
      exact .inl (.inl (.inl (.inr member)))
    · intro id member
      refine still ?_ (backed.responders id member)
      simp only [holders,List.mem_append]
      exact .inl (.inl (.inr member))
    · intro id member q listed same
      refine backed.answers id member q (older ?_ q listed same) same
      have inside : id ∈ s.answers.map (·.1) := List.mem_map_of_mem (f := (·.1)) member
      simp only [holders,List.mem_append]
      exact .inl (.inl (.inl (.inl inside)))

theorem backedWithin (backed : Backed s) (keeps : Keeps s t) {e : Drain} (was : drainOf s.pc = some d)
    (now : drainOf t.pc = some e) (consumed : e.consumed = d.consumed) (exiting : e.exiting = d.exiting)
    (hold : ∀ r ∈ requestsOf t.pc, Vouched s r.id r.bytes)
    (begun : ∀ r todo, (∃ d, t.pc = .through d r todo) ∨ (∃ rest, t.pc = .prepare r todo rest) → r.packets = todo)
    (pending : t.pending = s.pending) (batch : t.batch = s.batch) (responders : t.responders = s.responders)
    (answers : t.answers = s.answers) : Backed t := by
  refine backedFrom backed keeps hold ?_ ?_ ?_ ?_ ?_ ?_ ?_
  · intro r todo which
    exact ⟨[],begun r todo which,List.nil_sublist _⟩
  · rw [batch]
    exact fun _ => .inl
  · rw [responders,pending]
    exact backed.responders
  · rw [answers]
    exact fun _ => .inl
  · intro f draining
    cases Option.some.inj (now.symm.trans draining)
    rw [pending,consumed]
    exact (backed.drained d was).trans keeps.out
  · intro idle
    rw [now] at idle
    contradiction
  · intro f draining leaving
    cases Option.some.inj (now.symm.trans draining)
    rw [responders]
    exact backed.leaving d was (exiting.symm.trans leaving)

theorem backedArrive (backed : Backed s) (known : Ids s) (here : s.pc = .window d) (moved : s.arriveStep d = some t) :
    Backed t := by
  have was : drainOf s.pc = some d := by rw [here]; rfl
  have hold := backed.hold
  rw [here] at hold
  have same : ∀ {u : State}, u.sent = s.sent → u.wire = s.wire → u.buffer = s.buffer → u.pending = s.pending → Keeps s u :=
    fun sent wire buffer pending => keepsSame sent wire ⟨[],by rw [buffer,List.append_nil]⟩ pending
  unfold arriveStep at moved
  split at moved
  · contradiction
  · split at moved
    · contradiction
    · rename_i r rest found
      have vouched := known.settled (known.queued r ((takeControlPerm found).symm.subset List.mem_cons_self))
      dsimp only at moved
      split at moved
      · cases Option.some.inj moved
        refine backedWithin backed (same rfl rfl rfl rfl) was rfl rfl rfl ?_ ?_ rfl rfl rfl rfl
        · intro q member
          rcases List.mem_cons.mp member with rfl | member
          · exact vouched
          · exact hold q member
        · rintro q todo (⟨_,which⟩ | ⟨_,which⟩) <;> cases which
          rfl
      · cases Option.some.inj moved
        refine backedWithin (e := {d with pinned := d.pinned ++ (s.withSettings r).sids
                                          deferred := d.deferred ++ [s.withSettings r]})
          backed (same rfl rfl rfl rfl) was rfl rfl rfl ?_ ?_ rfl rfl rfl rfl
        · intro q member
          rw [show requestsOf (.window {d with pinned := d.pinned ++ (s.withSettings r).sids
                                               deferred := d.deferred ++ [s.withSettings r]}) =
            d.current.toList ++ (d.deferred ++ [s.withSettings r]) from rfl,← List.append_assoc] at member
          rcases List.mem_append.mp member with old | new
          · exact hold q old
          · rw [List.mem_singleton.mp new]
            exact vouched
        · rintro q todo (⟨_,which⟩ | ⟨_,which⟩) <;> contradiction

theorem backedReady (backed : Backed s) {r : Request} {rest : List Request} (here : s.pc = .prepare r [] rest) :
    Backed {s with batch := s.batch ++ [r.id],pc := nextRequest rest} := by
  have was : drainOf s.pc = none := by rw [here]; rfl
  have written : Vouched s r.id (outBytes s) :=
    begunAll backed (by rw [here]; exact List.mem_cons_self) (.inr ⟨rest,here⟩)
  have hold := backed.hold
  rw [here] at hold
  refine backedFrom backed (keepsSame rfl rfl ⟨[],(List.append_nil _).symm⟩ rfl) ?_ ?_ ?_ backed.responders (fun _ => .inl)
    ?_ (fun _ => backed.idle was) ?_
  · intro q member
    refine hold q (List.mem_cons_of_mem _ ?_)
    cases rest <;> exact member
  · intro q todo which
    dsimp only at which
    cases rest <;> rcases which with ⟨_,same⟩ | ⟨_,same⟩ <;> cases same
    exact ⟨[],rfl,List.nil_sublist _⟩
  · intro id member
    rcases List.mem_append.mp member with old | new
    · exact .inl old
    · rw [List.mem_singleton.mp new]
      exact .inr written
  · intro e draining
    rw [drainNext] at draining
    contradiction
  · intro e draining
    rw [drainNext] at draining
    contradiction

theorem backedLeave (backed : Backed s) (here : s.pc = .leaving) (moved : step s (.leave draw) = some t) : Backed t := by
  have was : drainOf s.pc = none := by rw [here]; rfl
  simp only [step] at moved
  rw [if_pos here] at moved
  split at moved
  · cases Option.some.inj moved
    exact backedIdle backed (keepsSame rfl rfl ⟨[],(List.append_nil _).symm⟩ rfl) rfl rfl (fun _ => .inl)
      backed.responders (backed.idle was) (fun _ => .inl)
  · rename_i some'
    cases Option.some.inj moved
    have idle := backed.idle was (fun none => some' (by rw [none]; rfl))
    refine backedFrom backed (keepsSame rfl rfl ⟨[],(List.append_nil _).symm⟩ rfl) ?_ ?_ (fun _ => .inl) backed.responders
      (fun _ => .inl) ?_ (fun _ _ => idle) (fun _ _ _ => idle)
    · intro q member
      contradiction
    · rintro q todo (⟨_,same⟩ | ⟨_,same⟩) <;> contradiction
    · intro e draining
      cases Option.some.inj draining
      exact List.nil_sublist _

theorem backedGoaway (backed : Backed s) (here : s.pc = .goaway) {last : Nat} {ok : Bool}
    (moved : s.goawayStep last ok = some t) : Backed t := by
  have was : drainOf s.pc = none := by rw [here]; rfl
  have ends : ∀ {u : State}, Keeps s u → u.pending = s.pending → u.responders = s.responders → u.batch = s.batch →
      u.answers = s.answers → u.pc = .done → Backed u := by
    intro u keeps pending responders batch answers pc
    refine backedIdle backed keeps (by rw [pc]; rfl) (by rw [pc]; rfl) ?_ ?_ ?_ ?_
    · rw [batch]
      exact fun _ => .inl
    · rw [responders,pending]
      exact backed.responders
    · rw [responders,pending]
      exact backed.idle was
    · rw [answers]
      exact fun _ => .inl
  unfold goawayStep at moved
  split at moved
  · cases Option.some.inj moved
    exact ends (keepsSame rfl rfl ⟨[],(List.append_nil _).symm⟩ rfl) rfl rfl rfl rfl rfl
  · cases Option.some.inj moved
    cases ok
    · exact ends (keepsSame rfl rfl ⟨_,rfl⟩ rfl) rfl rfl rfl rfl rfl
    · refine ends ?_ rfl rfl rfl rfl rfl
      refine (keepsFlushed ?_ ?_ ?_).1
      · rfl
      · exact ⟨_,(List.append_assoc ..).symm⟩
      · rfl

theorem backedStep (backed : Backed s) (known : Ids s) (moved : step s a = some t) : Backed t := by
  cases a with
  | send control auto packets => exact backedSend backed known moved
  | close | hangUp =>
    cases Option.some.inj moved
    exact ⟨backed.hold,backed.begun,backed.batch,backed.responders,backed.answers,backed.drained,backed.idle,backed.leaving⟩
  | exit =>
    simp only [step] at moved
    split at moved
    · rename_i here
      have was : drainOf s.pc = none := by rw [here.1]; rfl
      cases Option.some.inj moved
      exact backedIdle backed (keepsSame rfl rfl ⟨[],(List.append_nil _).symm⟩ rfl) rfl rfl (fun _ => .inl)
        backed.responders (backed.idle was) (fun _ => .inl)
    · contradiction
  | control draw =>
    simp only [step] at moved
    split at moved
    · exact backedControl backed known ‹_› moved
    · contradiction
  | bulk draw =>
    simp only [step] at moved
    split at moved
    · exact backedBulk backed known moved
    · contradiction
  | record draw fault =>
    simp only [step] at moved
    split at moved
    · exact backedRecord backed ‹_› moved
    · contradiction
  | finish made =>
    simp only [step] at moved
    split at moved
    · exact backedFinish backed ‹_› moved
    · contradiction
  | arrive =>
    simp only [step] at moved
    split at moved
    · exact backedArrive backed known ‹_› moved
    · contradiction
  | windowEnd =>
    simp only [step] at moved
    split at moved
    · rename_i d here
      cases Option.some.inj moved
      have hold := backed.hold
      rw [here] at hold
      refine backedWithin (e := d) backed (keepsSame rfl rfl ⟨[],(List.append_nil _).symm⟩ rfl) (by rw [here]; rfl) rfl rfl rfl
        hold ?_ rfl rfl rfl rfl
      rintro q todo (⟨_,which⟩ | ⟨_,which⟩) <;> contradiction
    · contradiction
  | packet draws fault => exact backedPacket backed moved
  | ready =>
    simp only [step] at moved
    split at moved
    · cases Option.some.inj moved
      exact backedReady backed ‹_›
    · contradiction
  | flush ok => exact backedFlush backed moved
  | leave draw =>
    by_cases here : s.pc = .leaving
    · exact backedLeave backed here moved
    · simp only [step,if_neg here] at moved
      contradiction
  | goaway last ok =>
    simp only [step] at moved
    split at moved
    · exact backedGoaway backed ‹_› moved
    · contradiction

end Step

section Run
variable {client off : Bool} {script : List ScriptRule} {stop : Nat} {s : State}

theorem backedKept (run : Run Machine.Always client off script stop s) : Backed s ∧ Ids s ∧ Stock s := by
  refine Machine.reachInvariant (I := fun s => Backed s ∧ Ids s ∧ Stock s) ?_ ?_ run
  · refine ⟨⟨?_,?_,?_,?_,?_,?_,?_,?_⟩,⟨rfl,?_,?_,?_⟩,⟨?_,?_⟩⟩
    · intro r member
      contradiction
    · rintro r todo (⟨_,same⟩ | ⟨_,same⟩) <;> contradiction
    · intro id member
      contradiction
    · intro id member
      contradiction
    · intro id member
      contradiction
    · intro d draining
      contradiction
    · intro _ some'
      contradiction
    · intro d draining
      contradiction
    · exact fun _ => Nat.zero_le 1
    · intro id member
      contradiction
    · intro r member
      contradiction
    · intro r member
      contradiction
    · intro p member
      contradiction
  · rintro s a t ⟨backed,known,stock⟩ _ moved
    have stock' := stockStep stock moved
    exact ⟨backedStep backed known moved,idsStep known stock' moved,stock'⟩

def Flushed (s : State) (r : Request) : Prop := r.bytes.Sublist (wireOut s)

/- An auto-mode bulk request that has entered the backlog. -/
def Entry (r : Request) : Bool := r.auto && r.bulk

theorem answersTruthful (run : Run Machine.Always client off script stop s) :
    (s.answers.map (·.1)).Nodup ∧
    (∀ r ∈ s.sent, (r.id,true) ∈ s.answers → Flushed s r ∨ AtEntry s r) ∧
    (s.pc = .done → ∀ r ∈ s.sent, ¬ Flushed s r → Entry r = false →
      (r.id,false) ∈ s.answers ∨ r.id ∉ s.answers.map (·.1)) := by
  obtain ⟨backed,known,_⟩ := backedKept run
  refine ⟨?_,?_,?_⟩
  · refine List.nodup_iff_count_le_one.mpr ?_
    intro id
    have few := known.few id
    rw [holdersCount] at few
    omega
  · intro r member acked
    exact backed.answers r.id acked r member rfl
  · intro _ r member unflushed waits
    by_cases answered : r.id ∈ s.answers.map (·.1)
    · obtain ⟨⟨id,ok⟩,listed,rfl⟩ := List.mem_map.mp answered
      cases ok with
      | false => exact .inl listed
      | true =>
        rcases backed.answers _ listed r member rfl with flushed | ⟨auto,bulk,_⟩
        · exact absurd flushed unflushed
        · rw [Entry,auto,bulk] at waits
          contradiction
    · exact .inr answered

end Run

def noDraw : Draw := ⟨0,false,0,false⟩

def writesThenFails : List Action :=
  [.send true false [[synOne]],.control noDraw,.packet [(100,100)] none,.packet [(100,100)] none,.ready,.flush true,
    .send false true [[pshOf 1 oneFits]],.send false false [[pshOf 1 oneFits]],.bulk noDraw,.record noDraw .data,.leave noDraw,
    .record noDraw .data,.flush false,.goaway 0 false]

def unflushed (s : State) (id : Nat) (entry : Bool) : Bool :=
  s.sent.any (fun r => decide (r.id = id) && !decide (r.bytes.Sublist (wireOut s)) && Entry r == entry)

def failsAtEnd (s : State) : Bool :=
  decide (s.pc = .done) && decide (s.answers = [(0,true),(1,true),(2,false)]) && unflushed s 1 true && unflushed s 2 false

theorem unflushedSent {s : State} {id : Nat} {entry : Bool} (here : unflushed s id entry = true) :
    ∃ r ∈ s.sent, r.id = id ∧ ¬ Flushed s r ∧ Entry r = entry := by
  obtain ⟨r,member,found⟩ := List.any_eq_true.mp here
  simp only [Bool.and_eq_true,decide_eq_true_eq,Bool.not_eq_true',decide_eq_false_iff_not,beq_iff_eq] at found
  exact ⟨r,member,found.1.1,found.1.2,found.2⟩

theorem failsReached : ∃ s, Run Machine.Always true false [] 0 s ∧ s.pc = .done ∧
    s.answers = [(0,true),(1,true),(2,false)] ∧ (∃ r ∈ s.sent, r.id = 1 ∧ ¬ Flushed s r ∧ Entry r = true) ∧
    ∃ r ∈ s.sent, r.id = 2 ∧ ¬ Flushed s r ∧ Entry r = false := by
  have ran : (Machine.checked step Machine.Always (start true false [] 0) writesThenFails).any failsAtEnd = true := rfl
  obtain ⟨s,run,here⟩ := Machine.checkedReaches ran
  simp only [failsAtEnd,Bool.and_eq_true,decide_eq_true_eq] at here
  obtain ⟨⟨⟨done,answers⟩,auto⟩,waits⟩ := here
  exact ⟨s,run,done,answers,unflushedSent auto,unflushedSent waits⟩

theorem failureAnswered : ∃ s, Run Machine.Always true false [] 0 s ∧ s.pc = .done ∧ (s.answers.map (·.1)).Nodup ∧
    ∃ r ∈ s.sent, ¬ Flushed s r ∧ ((r.id,false) ∈ s.answers ∨ r.id ∉ s.answers.map (·.1)) := by
  obtain ⟨s,run,done,_,_,r,member,_,lost,waits⟩ := failsReached
  obtain ⟨once,_,told⟩ := answersTruthful run
  exact ⟨s,run,done,once,r,member,lost,told done r member lost waits⟩

theorem entryLost : ∃ s, Run Machine.Always true false [] 0 s ∧ s.pc = .done ∧
    ∃ r ∈ s.sent, ¬ Flushed s r ∧ ¬ ((r.id,false) ∈ s.answers ∨ r.id ∉ s.answers.map (·.1)) := by
  obtain ⟨s,run,done,answers,⟨r,member,first,lost,_⟩,_⟩ := failsReached
  refine ⟨s,run,done,r,member,lost,?_⟩
  rw [first,answers]
  decide

end KanoTls.Writer
