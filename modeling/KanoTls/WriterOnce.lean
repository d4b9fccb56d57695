import KanoTls.WriterCalm

/-! No byte is encrypted twice, with I/O errors: `drive_shaper` keeps its position in a
local variable and clears the backlog only at its end, so what the writer still has to
encode depends on where an error stops it. -/
namespace KanoTls.Writer
open Wire Shaper Uot State

/- No flush or encryption of the main loop's drain fails once a record of the backlog has
been prepared; what passes a delay window is inside the drain too. -/
def intact (s : State) : Action → Bool
  | .record _ fault =>
    match s.pc with
    | .drain d => d.exiting || fault == .none || d.consumed == 0 && fault != .flush
    | _ => true
  | .packet _ fault =>
    match s.pc with
    | .through _ _ _ => fault.isNone
    | _ => true
  | .flush ok =>
    match s.pc with
    | .through _ _ _ => ok
    | _ => true
  | _ => true

abbrev Intact (s : State) (a : Action) : Prop := intact s a = true

section Faults
variable {s t : State} {a : Action} {d : Drain} {draw : Draw}

structure Stays (s t : State) : Prop where
  sent : t.sent = s.sent
  hungUp : t.hungUp = s.hungUp
  queue : t.queue = s.queue
  pending : t.pending = s.pending

theorem failDrainStays {u : State} (stays : Stays s u) : Stays s (u.failDrain d) := by
  unfold failDrain
  split <;> exact ⟨stays.sent,stays.hungUp,stays.queue,stays.pending⟩

theorem recordedHungUp (moved : s.recordStep d draw .none = some t) : t.hungUp = s.hungUp := by
  have same := @plainRecorded s d draw (recorded moved).left
  rw [moved] at same
  have equal := Option.some.inj same
  simp only [plain,State.mk.injEq] at equal
  exact equal.2.2.2.2.1

theorem recordFault (all : Marked s.pending) {fault : Fault} (moved : s.recordStep d draw fault = some t) :
    s.recordStep d draw .none = some t ∨ fault ≠ .none ∧ Stays s t ∧ (t.pc = if d.exiting then .closing else .leaving) ∧
      content t = content s ++ if fault = .flush then
        (s.pending.drop d.consumed).take (s.takeFor d (s.policyFor d draw).1) else [] := by
  unfold recordStep at moved ⊢
  split at moved
  · contradiction
  · rename_i left
    rw [if_neg left]
    dsimp only at moved ⊢
    simp only [reduceCtorEq,false_and,if_false]
    split at moved
    · rename_i early
      cases Option.some.inj moved
      refine .inr ⟨by rw [early.1]; decide,failDrainStays ?_,failDrainPc _ _,?_⟩
      · exact ⟨rfl,rfl,rfl,rfl⟩
      · rw [contentFailDrain,early.1]
        exact (List.append_nil _).symm
    · split at moved
      · rename_i refused
        cases Option.some.inj moved
        refine .inr ⟨by rw [refused]; decide,failDrainStays ?_,failDrainPc _ _,?_⟩
        · exact ⟨rfl,rfl,rfl,rfl⟩
        · rw [contentFailDrain,contentPrepared,inlinePlain,refused]
          rfl
      · split at moved
        · rename_i flushes
          rw [if_pos flushes]
          split at moved
          · rename_i broken
            cases Option.some.inj moved
            have out := contentPrepared s (inlineRecords d (s.policyFor d draw).1 ++ [s.dataRecord d (s.policyFor d draw).1])
            rw [recordsPlain all] at out
            refine .inr ⟨by rw [broken]; decide,failDrainStays ?_,failDrainPc _ _,?_⟩
            · exact ⟨rfl,rfl,rfl,rfl⟩
            · rw [contentFailDrain,if_pos broken]
              exact out
          · exact .inl moved
        · rename_i quiet
          rw [if_neg quiet]
          exact .inl moved

/- An error ends the exit's drain, or it ends a drain of the main loop before its first
record, or it meets the writer outside a drain. -/
structure Failed (s : State) (a : Action) (t : State) : Prop where
  stays : Stays s t
  out : content t <+: content s ++ added s a
  runs : ∃ u, step s (clean s a) = some u ∧ u.pc ≠ .done ∧ u.hungUp = s.hungUp ∧ u.sent = s.sent
  place : t.pc = .closing ∧ (∃ d, s.pc = .drain d) ∨
    t.pc = .leaving ∧ (∃ d, s.pc = .drain d ∧ d.consumed = 0 ∧ content t = content s) ∨
    t.pc = .leaving ∧ drainOf s.pc = none

theorem recordFails (marks : Marks s) {fault : Fault} (meets : Intact s (.record draw fault)) (here : s.pc = .drain d)
    (moved : s.recordStep d draw fault = some t) : s.recordStep d draw .none = some t ∨ Failed s (.record draw fault) t := by
  obtain same | ⟨faulty,stays,pc,out⟩ := recordFault marks.pending moved
  · exact .inl same
  · refine .inr ⟨stays,?_,?_,?_⟩
    · rw [out]
      simp only [added,here]
      split
      · exact List.prefix_refl _
      · rw [List.append_nil]
        exact List.prefix_append _ _
    · have left : d.consumed < s.pending.length := by
        unfold recordStep at moved
        split at moved
        · contradiction
        · omega
      obtain ⟨u,made,same⟩ := Option.map_eq_some_iff.mp (@plainRecorded s d draw left)
      refine ⟨u,?_,?_,recordedHungUp made,(recorded made).queues.sent⟩
      · simp only [clean,step,here]
        exact made
      · rw [(recorded made).pc]
        split <;> simp
    · simp only [Intact,intact,here,Bool.or_eq_true,Bool.and_eq_true,beq_iff_eq,bne_iff_ne] at meets
      cases ends : d.exiting with
      | true =>
        rw [ends] at pc
        exact .inl ⟨pc,d,here⟩
      | false =>
        rw [ends] at pc meets
        refine .inr (.inl ⟨pc,d,here,?_⟩)
        obtain (never | none') | ⟨zero,unflushed⟩ := meets
        · contradiction
        · exact absurd none' faulty
        · rw [if_neg unflushed,List.append_nil] at out
          exact ⟨zero,out⟩

theorem packetFails (marks : Marks s) {draws : List (Nat × Nat)} {fault : Option Nat}
    (meets : Intact s (.packet draws fault))
    (moved : s.packetStep draws fault = some t) : s.packetStep draws none = some t ∨ Failed s (.packet draws fault) t := by
  cases fault with
  | none => exact .inl moved
  | some made =>
    have known := marks.stock.packets
    unfold packetStep at moved
    split at moved
    · rename_i d r p todo here
      simp [Intact,intact,here] at meets
    · rename_i r p todo rest here
      rw [here] at known
      have all := knownMarked marks (known p List.mem_cons_self)
      obtain ⟨records,cut,rfl⟩ := Option.map_eq_some_iff.mp moved
      refine .inr ⟨⟨rfl,rfl,rfl,rfl⟩,?_,?_,.inr (.inr ⟨rfl,by rw [here]; rfl⟩)⟩
      · have front : plaintext (records.take made) <+: p.bytes := by
          rw [← controlPlain cut all]
          refine ⟨plaintext (records.drop made),?_⟩
          rw [← plaintextAppend,List.take_append_drop]
        simp only [added,here]
        obtain ⟨back,whole⟩ := front
        refine ⟨back,?_⟩
        rw [← whole,← List.append_assoc]
        exact congrArg (· ++ back) (contentPrepared s (records.take made))
      · refine ⟨{s.prepared records with records := s.records + records.length,pc := .prepare r todo rest},?_,by simp,
          rfl,rfl⟩
        simp only [clean,step,packetStep,here,cut]
        rfl
    · contradiction

theorem flushFails {ok : Bool} (meets : Intact s (.flush ok)) (moved : s.flushStep ok = some t) :
    (∃ u, s.flushStep true = some u ∧ plain u = plain t ∧ content u = content t) ∨ Failed s (.flush ok) t := by
  cases ok with
  | true => exact .inl ⟨t,moved,rfl,rfl⟩
  | false =>
    unfold flushStep at moved ⊢
    split at moved
    · rename_i d r here
      simp [Intact,intact,here] at meets
    · rename_i here
      dsimp only
      split at moved
      · rename_i idle
        rw [if_pos idle]
        exact .inl ⟨t,moved,rfl,rfl⟩
      · rename_i busy
        rw [if_neg busy]
        split at moved
        · rename_i more
          rw [if_pos more]
          exact .inl ⟨t,moved,rfl,rfl⟩
        · rename_i last
          cases Option.some.inj moved
          refine .inr ⟨⟨rfl,rfl,rfl,rfl⟩,List.prefix_append _ _,⟨{s.flushed with pc := .select},?_,by simp,rfl,rfl⟩,
            .inr (.inr ⟨rfl,by rw [here]; rfl⟩)⟩
          simp only [clean,step,flushStep,here]
          rw [if_neg busy,if_neg last]
          rfl
    · dsimp only
      cases Option.some.inj moved
      exact .inl ⟨_,rfl,rfl,contentFlushed s⟩
    · contradiction

theorem finishSame {made other : Nat} (moved : s.finishStep d made = some t) :
    ∃ u, s.finishStep d other = some u ∧ plain u = plain t ∧ content u = content t := by
  have out := contentFinish moved
  unfold finishStep at moved
  split at moved
  · contradiction
  · rename_i drained
    split at moved
    · rename_i exiting
      refine ⟨t,?_,rfl,rfl⟩
      unfold finishStep
      rw [if_neg drained,if_pos exiting,moved]
    · rename_i staying
      obtain ⟨u,made'⟩ : ∃ u, s.finishStep d other = some u := by
        unfold finishStep
        rw [if_neg drained,if_neg staying]
        exact ⟨_,rfl⟩
      refine ⟨u,made',?_,(contentFinish made').trans out.symm⟩
      unfold finishStep at made'
      rw [if_neg drained,if_neg staying] at made'
      cases Option.some.inj moved
      cases Option.some.inj made'
      rfl

theorem goawaySame {last : Nat} {ok : Bool} (moved : s.goawayStep last ok = some t) :
    ∃ u, s.goawayStep last true = some u ∧ plain u = plain t ∧ content u = content t := by
  have out := contentGoaway moved
  obtain ⟨u,made⟩ : ∃ u, s.goawayStep last true = some u := by
    unfold goawayStep
    split <;> exact ⟨_,rfl⟩
  refine ⟨u,made,?_,(contentGoaway made).trans out.symm⟩
  unfold goawayStep at moved made
  split at moved
  · rename_i off
    rw [if_pos off] at made
    cases Option.some.inj moved
    cases Option.some.inj made
    rfl
  · rename_i shaped
    rw [if_neg shaped] at made
    cases Option.some.inj moved
    cases Option.some.inj made
    cases ok <;> rfl

theorem stepCases (marks : Marks s) (meets : Intact s a) (moved : step s a = some t) :
    (∃ u, step s (clean s a) = some u ∧ plain u = plain t ∧ content u = content t) ∨ Failed s a t := by
  cases a with
  | record draw fault =>
    simp only [step] at moved
    split at moved <;> try contradiction
    rename_i d here
    refine (recordFails marks meets here moved).imp_left ?_
    intro same
    refine ⟨t,?_,rfl,rfl⟩
    simp only [clean,step,here]
    exact same
  | finish made =>
    simp only [step] at moved
    split at moved <;> try contradiction
    rename_i d here
    obtain ⟨u,same⟩ := @finishSame _ _ _ made (((drainOf s.pc).map (·.fakes.length)).getD 0) moved
    refine .inl ⟨u,?_,same.2⟩
    rw [← same.1]
    simp only [clean,step,here]
  | packet draws fault =>
    refine (packetFails marks meets moved).imp_left ?_
    intro same
    exact ⟨t,same,rfl,rfl⟩
  | flush ok => exact flushFails meets moved
  | goaway last ok =>
    simp only [step] at moved
    split at moved <;> try contradiction
    rename_i here
    obtain ⟨u,same⟩ := goawaySame moved
    refine .inl ⟨u,?_,same.2⟩
    simp only [clean,step,here]
    exact same.1
  | _ => exact .inl ⟨t,moved,rfl,rfl⟩

theorem marksStep (marks : Marks s) (meets : Intact s a) (moved : step s a = some t) : Marks t := by
  refine ⟨stockStep marks.stock moved,?_,taggedStep marks.tagged moved⟩
  obtain ⟨u,cleaned,same,-⟩ | failed := stepCases marks meets moved
  · rw [← (samePlain same).1]
    exact (calmStep marks (cleanFaultless s a) cleaned).2
  · rw [failed.stays.pending]
    exact marks.pending

end Faults

theorem addedClean (s : State) (a : Action) : added s (clean s a) = added s a := by
  cases a <;> rfl

section Ending
variable {s t : State} {a : Action} {d : Drain} {draw : Draw}

def ending : Pc → Bool
  | .leaving | .closing | .goaway | .done => true
  | .drain d | .window d => d.exiting
  | _ => false

def remains (s : State) : List Byte :=
  match s.pc with
  | .leaving => s.pending
  | .drain d | .window d => s.pending.drop d.consumed
  | _ => []

/- A step of the exit, with any error, encodes no more than what remains. -/
structure ExitStep (s : State) (a : Action) (t : State) : Prop where
  ending : ending t.pc = true
  out : content t ++ remains t <+: content s ++ remains s
  hungUp : a ≠ .hangUp → t.hungUp = s.hungUp

theorem endsOut (pc : t.pc = .closing ∨ t.pc = .goaway ∨ t.pc = .done) (out : content t <+: content s ++ remains s)
    (hungUp : t.hungUp = s.hungUp) : ExitStep s a t := by
  have none' : remains t = [] := by
    unfold remains
    obtain pc | pc | pc := pc <;> rw [pc]
  refine ⟨?_,?_,fun _ => hungUp⟩
  · obtain pc | pc | pc := pc <;> rw [pc] <;> rfl
  · rw [none',List.append_nil]
    exact out

theorem recordEnds (marks : Marks s) {fault : Fault} (here : s.pc = .drain d) (exiting : d.exiting = true)
    (moved : s.recordStep d draw fault = some t) : ExitStep s (.record draw fault) t := by
  have left : remains s = s.pending.drop d.consumed := by rw [remains,here]
  obtain same | ⟨-,stays,pc,out⟩ := recordFault marks.pending moved
  · obtain ⟨-,pending,-,-,pc,-⟩ := recorded same
    have now : ending t.pc = true ∧ remains t = s.pending.drop (d.consumed + s.takeFor d (s.policyFor d draw).1) := by
      unfold remains
      rw [pc,pending]
      split <;> exact ⟨exiting,rfl⟩
    refine ⟨now.1,?_,fun _ => recordedHungUp same⟩
    rw [now.2,contentRecord marks.pending same,left,List.append_assoc,← List.drop_drop,List.take_append_drop]
  · refine endsOut (.inl (by rw [pc,if_pos exiting])) ?_ stays.hungUp
    rw [out,left]
    refine (List.prefix_append_right_inj _).mpr ?_
    split
    · exact List.take_prefix _ _
    · exact List.nil_prefix

theorem finishEnds (exiting : d.exiting = true) {made : Nat}
    (moved : s.finishStep d made = some t) : ExitStep s (.finish made) t := by
  have out := contentFinish moved
  unfold finishStep at moved
  split at moved
  · contradiction
  · cases Option.some.inj moved
    refine endsOut (.inl rfl) ?_ rfl
    rw [out]
    exact List.prefix_append _ _

theorem goawayEnds {last : Nat} {ok : Bool} (moved : s.goawayStep last ok = some t) : ExitStep s (.goaway last ok) t := by
  have out := contentGoaway moved
  have grown : content t <+: content s ++ remains s := by
    rw [out]
    exact List.prefix_append _ _
  unfold goawayStep at moved
  split at moved
  · cases Option.some.inj moved
    exact endsOut (.inr (.inr rfl)) grown rfl
  · cases Option.some.inj moved
    cases ok <;> exact endsOut (.inr (.inr rfl)) grown rfl

theorem exitStep (marks : Marks s) (ends : ending s.pc = true) (moved : step s a = some t) : ExitStep s a t := by
  have still : ∀ {u : State}, u.pc = s.pc → u.pending = s.pending → u.wire = s.wire → u.buffer = s.buffer →
      (a ≠ .hangUp → u.hungUp = s.hungUp) → ExitStep s a u := by
    intro u pc pending wire buffer hungUp
    refine ⟨pc ▸ ends,?_,hungUp⟩
    rw [contentSame wire buffer,remains,remains,pc,pending]
  have absent : ∀ {P : Prop}, s.pc = .select → P := by
    intro P here
    rw [here] at ends
    contradiction
  cases a with
  | send control auto packets =>
    simp only [step] at moved
    split at moved <;> try contradiction
    cases Option.some.inj moved
    exact still rfl rfl rfl rfl (fun _ => rfl)
  | close =>
    cases Option.some.inj moved
    exact still rfl rfl rfl rfl (fun _ => rfl)
  | hangUp =>
    cases Option.some.inj moved
    exact still rfl rfl rfl rfl (fun other => absurd rfl other)
  | exit =>
    simp only [step] at moved
    split at moved <;> try contradiction
    rename_i here
    exact absent here.1
  | control draw =>
    simp only [step] at moved
    split at moved <;> try contradiction
    exact absent ‹_›
  | bulk draw =>
    simp only [step] at moved
    split at moved <;> try contradiction
    exact absent ‹_›
  | record draw fault =>
    simp only [step] at moved
    split at moved <;> try contradiction
    rename_i d here
    rw [here] at ends
    exact recordEnds marks here ends moved
  | finish made =>
    simp only [step] at moved
    split at moved <;> try contradiction
    rename_i d here
    rw [here] at ends
    exact finishEnds ends moved
  | arrive =>
    simp only [step] at moved
    split at moved <;> try contradiction
    rename_i d here
    rw [here] at ends
    rw [arriveStep,if_pos (show d.exiting = true from ends)] at moved
    contradiction
  | windowEnd =>
    simp only [step] at moved
    split at moved <;> try contradiction
    rename_i d here
    cases Option.some.inj moved
    rw [here] at ends
    refine ⟨ends,?_,fun _ => rfl⟩
    rw [show remains s = s.pending.drop d.consumed by rw [remains,here]]
    exact List.prefix_refl _
  | packet draws fault =>
    simp only [step,packetStep] at moved
    split at moved
    · rename_i d r p todo here
      rw [here] at ends
      contradiction
    · rename_i r p todo rest here
      rw [here] at ends
      contradiction
    · contradiction
  | ready =>
    simp only [step] at moved
    split at moved <;> try contradiction
    rename_i r rest here
    rw [here] at ends
    contradiction
  | flush ok =>
    simp only [step,flushStep] at moved
    split at moved
    · rename_i d r here
      rw [here] at ends
      contradiction
    · rename_i here
      rw [here] at ends
      contradiction
    · cases Option.some.inj moved
      cases ok with
      | true =>
        refine endsOut (.inr (.inl rfl)) ?_ rfl
        show content s.flushed <+: _
        rw [contentFlushed]
        exact List.prefix_append _ _
      | false => exact endsOut (.inr (.inl rfl)) (List.prefix_append _ _) rfl
    · contradiction
  | leave draw =>
    simp only [step] at moved
    split at moved <;> try contradiction
    rename_i here
    have left : remains s = s.pending := by rw [remains,here]
    split at moved
    · cases Option.some.inj moved
      exact endsOut (.inl rfl) (List.prefix_append _ _) rfl
    · cases Option.some.inj moved
      refine ⟨rfl,?_,fun _ => rfl⟩
      rw [left]
      exact List.prefix_refl _
  | goaway last ok =>
    simp only [step] at moved
    split at moved <;> try contradiction
    exact goawayEnds moved

end Ending

section Compare
variable {client off : Bool} {script : List ScriptRule} {stop : Nat} {s t s' : State} {a : Action} {d : Drain}

theorem drainsAll (run : Run Faultless client off script stop s) (here : s.pc = .drain d) :
    ∃ s', Run Faultless client off script stop s' ∧ s'.sent = s.sent ∧ s'.hungUp = s.hungUp ∧ s'.pc ≠ .done ∧
      content s' = content s ++ s.pending.drop d.consumed := by
  induction bound : s.pending.length - d.consumed using Nat.strongRecOn generalizing s d with
  | ind n ih =>
    by_cases left : d.consumed < s.pending.length
    · obtain ⟨x,-,-,held,-,-⟩ := framesKept run
      have take := takeSome noDraw held (by rw [here]; rfl) left
      obtain ⟨t,moved,-⟩ := Option.map_eq_some_iff.mp (@plainRecorded s d noDraw left)
      have later : Run Faultless client off script stop t := by
        refine .next run (a := .record noDraw .none) rfl ?_
        simp only [step,here]
        exact moved
      obtain ⟨-,pending,queues,-,pc,-⟩ := recorded moved
      have out := contentRecord (calmMarks run).pending moved
      have rest : ∀ {u : State}, Run Faultless client off script stop u →
          u.pc = .drain (s.afterRecord d (s.policyFor d noDraw).1) →
          u.sent = t.sent → u.hungUp = t.hungUp → u.pending = t.pending → content u = content t →
          ∃ s', Run Faultless client off script stop s' ∧ s'.sent = s.sent ∧ s'.hungUp = s.hungUp ∧ s'.pc ≠ .done ∧
            content s' = content s ++ s.pending.drop d.consumed := by
        intro u ran now sent hungUp kept same
        have less : u.pending.length - (s.afterRecord d (s.policyFor d noDraw).1).consumed < n := by
          rw [kept,pending]
          show s.pending.length - (d.consumed + s.takeFor d (s.policyFor d noDraw).1) < n
          omega
        obtain ⟨s',reached,sent',hungUp',live,grown⟩ := ih _ less ran now rfl
        refine ⟨s',reached,sent'.trans (sent.trans queues.sent),hungUp'.trans (hungUp.trans (recordedHungUp moved)),live,?_⟩
        rw [grown,same,out,kept,pending,List.append_assoc]
        show _ ++ (_ ++ s.pending.drop (d.consumed + s.takeFor d (s.policyFor d noDraw).1)) = _
        rw [← List.drop_drop,List.take_append_drop]
      split at pc
      · refine rest (u := {t with pc := .drain (s.afterRecord d (s.policyFor d noDraw).1)}) ?_ rfl rfl rfl rfl rfl
        refine .next later (a := .windowEnd) rfl ?_
        simp only [step,pc]
      · exact rest later pc rfl rfl rfl rfl
    · refine ⟨s,run,rfl,rfl,?_,?_⟩
      · rw [here]
        simp
      · rw [List.drop_eq_nil_of_le (by omega),List.append_nil]

/- A run without an error that submits the same and is ahead of the exit. -/
structure Behind (s s' : State) : Prop where
  sent : s'.sent = s.sent
  hungUp : s'.hungUp = s.hungUp
  runs : s'.pc ≠ .done
  out : content s ++ remains s <+: content s'
  ending : ending s.pc = true

/- No error so far, up to the bookkeeping, or the exit after one. -/
def Phase (client off : Bool) (script : List ScriptRule) (stop : Nat) (s : State) : Prop :=
  (∃ s', Run Faultless client off script stop s' ∧ plain s' = plain s ∧ content s' = content s) ∨
  ∃ s', Run Faultless client off script stop s' ∧ Behind s s'

theorem alongside (run : Run Faultless client off script stop s') (same : plain s' = plain s) (out : content s' = content s)
    (marks : Marks s) {u : State} (cleaned : step s (clean s a) = some u) :
    ∃ v, Run Faultless client off script stop v ∧ plain v = plain u ∧ content v = content u ∧
      content u = content s ++ added s a := by
  have calm := cleanFaultless s a
  obtain ⟨v,moved,equal⟩ := sameStep same.symm calm cleaned
  have calm' : faultless s' (clean s a) = true := by
    have pc := (samePlain same).2.1
    cases a <;> first | exact calm | (unfold faultless at calm ⊢; rw [pc]; exact calm)
  have grown := (calmStep marks calm cleaned).1
  have grown' := (calmStep (calmMarks run) calm' moved).1
  rw [addedSame same,addedClean,out] at grown'
  rw [addedClean] at grown
  exact ⟨v,.next run calm' moved,equal,grown'.trans grown.symm,grown⟩

theorem failedBehind (run : Run Faultless client off script stop s') (same : plain s' = plain s)
    (out : content s' = content s)
    (marks : Marks s) (failed : Failed s a t) : ∃ s', Run Faultless client off script stop s' ∧ Behind t s' := by
  obtain ⟨u,cleaned,live,hungUp,sent⟩ := failed.runs
  obtain ⟨v,ran,equal,grown,more⟩ := alongside run same out marks cleaned
  obtain ⟨-,pc',-,-,sent',hungUp'⟩ := samePlain equal
  obtain ⟨pending,pc,-,-,submitted,hung⟩ := samePlain same
  have next : ending t.pc = true → remains t = [] → Behind t v := by
    intro ends none'
    refine ⟨?_,?_,pc' ▸ live,?_,ends⟩
    · rw [sent',sent,failed.stays.sent]
    · rw [hungUp',hungUp,failed.stays.hungUp]
    · rw [none',List.append_nil,grown,more]
      exact failed.out
  obtain ⟨now,-⟩ | ⟨now,d,here,zero,still⟩ | ⟨now,idle⟩ := failed.place
  · exact ⟨v,ran,next (by rw [now]; rfl) (by rw [remains,now])⟩
  · -- the exit takes the whole backlog, which a drain without an error encodes too
    obtain ⟨w,reached,sent,hungUp,live,whole⟩ := drainsAll run (pc.trans here)
    refine ⟨w,reached,?_,?_,live,?_,by rw [now]; rfl⟩
    · rw [sent,submitted,failed.stays.sent]
    · rw [hungUp,hung,failed.stays.hungUp]
    · rw [whole,zero,List.drop_zero,out,pending,still,show remains t = t.pending by rw [remains,now],failed.stays.pending]
  · obtain ⟨x,-,-,held,-,-⟩ := framesKept run
    have blank := held.idle (by rw [pc]; exact idle)
    refine ⟨v,ran,next (by rw [now]; rfl) ?_⟩
    rw [show remains t = t.pending by rw [remains,now],failed.stays.pending,← pending]
    exact blank

theorem behindStep (marks : Marks s) (run : Run Faultless client off script stop s') (behind : Behind s s')
    (moved : step s a = some t) : ∃ s', Run Faultless client off script stop s' ∧ Behind t s' := by
  obtain ⟨ends,out,hungUp⟩ := exitStep marks behind.ending moved
  have grown := out.trans behind.out
  cases a with
  | send control auto packets =>
    have opened := moved
    simp only [step,Bool.or_eq_true,decide_eq_true_eq] at opened
    split at opened <;> try contradiction
    rename_i accepts
    cases Option.some.inj opened
    have mirrored : step s' (.send control auto packets) = some {s' with
        queue := s'.queue ++ [s'.newRequest control auto packets]
        sent := s'.sent ++ [s'.newRequest control auto packets]} := by
      simp only [step]
      refine if_neg ?_
      simp only [Bool.or_eq_true,decide_eq_true_eq,behind.hungUp]
      rintro (hung | done)
      · exact accepts (.inl hung)
      · exact behind.runs done
    refine ⟨_,.next run rfl mirrored,?_,behind.hungUp,behind.runs,grown,ends⟩
    show s'.sent ++ [s'.newRequest control auto packets] = s.sent ++ [s.newRequest control auto packets]
    simp only [newRequest,behind.sent]
  | hangUp =>
    cases Option.some.inj moved
    exact ⟨{s' with hungUp := true},.next run (a := .hangUp) rfl rfl,behind.sent,rfl,behind.runs,grown,ends⟩
  | _ =>
    refine ⟨s',run,?_,?_,behind.runs,grown,ends⟩
    · rw [sentOnly rfl moved,behind.sent]
    · rw [hungUp (by simp),behind.hungUp]

theorem phaseStep (marks : Marks s) (phase : Phase client off script stop s) (meets : Intact s a)
    (moved : step s a = some t) : Phase client off script stop t := by
  obtain ⟨s',run,same,out⟩ | ⟨s',run,behind⟩ := phase
  · obtain ⟨u,cleaned,equal,kept⟩ | failed := stepCases marks meets moved
    · obtain ⟨v,ran,alike,grown,-⟩ := alongside run same out marks cleaned
      exact .inl ⟨v,ran,alike.trans equal,grown.trans kept⟩
    · exact .inr (failedBehind run same out marks failed)
  · exact .inr (behindStep marks run behind moved)

theorem phases (run : Run Intact client off script stop s) : Phase client off script stop s := by
  refine Machine.reachInvariantFrom (J := Marks) ?_ (.inl ⟨_,.start,rfl,rfl⟩) ?_ run
  · intro s ran
    refine Machine.reachInvariant (marksStart client off script stop) ?_ ran
    intro s a t marks meets moved
    exact marksStep marks meets moved
  · intro s a t marks phase meets moved
    exact phaseStep marks phase meets moved

/- What the records hold of a request is a prefix of it, and without the padding they are
a prefix of those of a run without an error that submits the same. -/
theorem encodedOnce (run : Run Intact client off script stop s) :
    (∀ r ∈ s.sent, own r.id (outBytes s) <+: r.bytes) ∧
    ∃ s', Run Faultless client off script stop s' ∧ s'.sent = s.sent ∧
      plaintext (s.wire ++ s.buffer) <+: plaintext (s'.wire ++ s'.buffer) := by
  have ahead : ∃ s', Run Faultless client off script stop s' ∧ s'.sent = s.sent ∧ content s <+: content s' := by
    obtain ⟨s',ran,same,out⟩ | ⟨s',ran,behind⟩ := phases run
    · exact ⟨s',ran,(samePlain same).2.2.2.2.1,by rw [out]⟩
    · exact ⟨s',ran,behind.sent,(List.prefix_append _ _).trans behind.out⟩
  refine ⟨?_,ahead⟩
  obtain ⟨s',ran,sent,grown⟩ := ahead
  intro r member
  rw [ownContent]
  exact (grown.filter _).trans (ownKept ran (sent ▸ member))

end Compare

def refusedThenSent : List Action :=
  firstOpen ++ [Action.send false false [[pshOf 1 oneFits]],.bulk noDraw,.record noDraw .data,.leave noDraw,.record noDraw .none,
    .finish 0,.flush true]

def sentByExit (s : State) : Bool :=
  decide (s.pc = .goaway) && decide ((1,false) ∈ s.answers) &&
    s.sent.any (fun r => decide (r.id = 1) && decide (own r.id (outBytes s) = r.bytes))

theorem encodedByExit : ∃ s, Run Intact true false [] 0 s ∧ s.pc = .goaway ∧ (1,false) ∈ s.answers ∧
    (∃ r ∈ s.sent, r.id = 1 ∧ own r.id (outBytes s) = r.bytes) ∧ (∀ r ∈ s.sent, own r.id (outBytes s) <+: r.bytes) ∧
    ∃ s', Run Faultless true false [] 0 s' ∧ s'.sent = s.sent ∧
      plaintext (s.wire ++ s.buffer) <+: plaintext (s'.wire ++ s'.buffer) := by
  have ran : (Machine.checked step Intact (start true false [] 0) refusedThenSent).any sentByExit = true := rfl
  obtain ⟨s,run,here⟩ := Machine.checkedReaches ran
  simp only [sentByExit,Bool.and_eq_true,decide_eq_true_eq,List.any_eq_true] at here
  obtain ⟨⟨goaway,answered⟩,sent⟩ := here
  exact ⟨s,run,goaway,answered,sent,encodedOnce run⟩

/- The flush behind the record fails: the exit finds the whole backlog again. -/
def flushThenAgain : List Action :=
  firstOpen ++ [Action.send false false [[pshOf 1 oneFits]],.bulk noDraw,.record noDraw .flush,.leave noDraw,.record noDraw .none,
    .finish 0,.flush true]

def sentTwice (s : State) : Bool :=
  s.sent.any (fun r => decide (r.id = 1) && decide (own r.id (wireOut s) = r.bytes ++ r.bytes)) &&
    s.sent.any (fun r => !(own r.id (outBytes s)).isPrefixOf r.bytes)

theorem writeEncodedTwice : ∃ s, Run Machine.Always true false [] 0 s ∧
    (∃ r ∈ s.sent, r.id = 1 ∧ own r.id (wireOut s) = r.bytes ++ r.bytes) ∧
    ¬ ∀ r ∈ s.sent, own r.id (outBytes s) <+: r.bytes := by
  have ran : (Machine.checked step Machine.Always (start true false [] 0) flushThenAgain).any sentTwice = true := rfl
  obtain ⟨s,run,here⟩ := Machine.checkedReaches ran
  simp only [sentTwice,Bool.and_eq_true,decide_eq_true_eq,List.any_eq_true,Bool.not_eq_true',← Bool.not_eq_true,
    List.isPrefixOf_iff_prefix] at here
  obtain ⟨twice,r,member,fails⟩ := here
  exact ⟨s,run,twice,fun all => fails (all r member)⟩

end KanoTls.Writer
