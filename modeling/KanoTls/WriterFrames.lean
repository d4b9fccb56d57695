import KanoTls.WriterStep

/-! The writer preserves the byte stream. Every submitted frame is in exactly one place
(`Tally`), and between two drains what is out is whole frames. -/
namespace KanoTls.Writer
open Wire Shaper Uot State

def framesOf (requests : List Request) : List Frame := requests.flatMap Request.frames

@[simp] theorem framesAppend (front back : List Request) : framesOf (front ++ back) = framesOf front ++ framesOf back :=
  List.flatMap_append

theorem framesCount {one two : List Request} (perm : one.Perm two) (f : Frame) :
    (framesOf one).count f = (framesOf two).count f := (perm.flatMap_right _).count_eq f

theorem splitCount (queue : List Request) (f : Frame) :
    (framesOf (bulkOf queue)).count f + (framesOf (controlOf queue)).count f = (framesOf queue).count f := by
  induction queue with
  | nil => rfl
  | cons r rest ih =>
    unfold bulkOf controlOf at ih ⊢
    cases control : r.control <;> simp [framesOf,control] at ih ⊢ <;> omega

def settingsOf (s : State) : List Frame := if s.settings then [settingsFrame] else []

theorem withSettingsFrames (s : State) (r : Request) : (s.withSettings r).frames = settingsOf s ++ r.frames := by
  unfold withSettings settingsOf
  split <;> simp [Request.frames]

theorem takesCount {s t : State} {r : Request} {queue : List Request} (takes : Takes s t r queue) (f : Frame) :
    r.frames.count f + (framesOf queue).count f = (settingsOf s).count f + (framesOf s.queue).count f := by
  obtain ⟨first,found,rfl⟩ := takes.found
  rw [withSettingsFrames,List.count_append,framesCount (takeControlPerm found) f]
  simp [framesOf]
  omega

/- `extras` are the frames the writer adds, `refused` the requests it found when the
session was closed. -/
structure Tally (client : Bool) (s : State) (x : Split) (extras : List Frame) (refused : List Request) : Prop where
  count : ∀ f, x.log.count f + (handOf s.pc).count f + x.rest.count f + (afterOf s.pc).count f +
    (framesOf s.queue).count f + (framesOf refused).count f = (framesOf s.sent).count f + extras.count f
  extra : extras.filter (fun f => f.cmd != cmdPadding) = if client && !s.settings then [settingsFrame] else []
  unsent : s.settings = true → client = true
  told : ∀ r ∈ refused, (r.id,false) ∈ s.answers
  closed : refused ≠ [] → s.closeRequested = true

section Answers
variable {s t : State} {a : Action}

theorem failDrainAnswers {front : List (Nat × Bool)} {d : Drain} (grown : front <+: s.answers) :
    front <+: (s.failDrain d).answers := by
  unfold failDrain
  split
  · exact grown
  · simp only [List.append_assoc]
    exact grown.trans (List.prefix_append _ _)

theorem queuedGrow {requests queue : List Request} (queued : Queued s t requests queue) : s.answers <+: t.answers := by
  rw [queued.answers]
  exact List.prefix_append _ _

theorem refusedAnswers (s : State) (r : Request) (rest : List Request) : s.answers <+: (s.refuse r rest).answers := by
  simp only [State.refuse,List.append_assoc]
  exact List.prefix_append _ _

theorem controlAnswers {draw : Draw} (moved : s.controlStep draw = some t) : s.answers <+: t.answers := by
  obtain ⟨r,rest,_,⟨_,rfl⟩ | ⟨_,u,rfl,outcome⟩⟩ := controlCases moved
  · exact refusedAnswers s r rest
  · have grown := queuedGrow (drained {s with queue := rest,settings := false})
    obtain ⟨rfl,_⟩ | ⟨_,⟨_,rfl⟩ | ⟨_,rfl⟩⟩ := outcome
    · have more := queuedGrow (queuedOne (State.drainBulk {s with queue := rest,settings := false}) (s.withSettings r))
      exact grown.trans more
    · exact grown
    · exact grown

theorem bulkAnswers {draw : Draw} (moved : s.bulkStep draw = some t) : s.answers <+: t.answers := by
  have grown := queuedGrow (drained s)
  obtain ⟨_,_,r,rest,_,⟨_,rfl⟩ | ⟨_,⟨_,rfl⟩ | rfl⟩⟩ := bulkCases moved
  · exact refusedAnswers s r rest
  · exact grown
  · exact grown

theorem recordAnswers {d : Drain} {draw : Draw} {fault : Fault} (moved : s.recordStep d draw fault = some t) :
    s.answers <+: t.answers := by
  unfold recordStep at moved
  split at moved
  · contradiction
  · dsimp only at moved
    split at moved
    · cases Option.some.inj moved
      exact failDrainAnswers (List.prefix_refl _)
    · split at moved
      · cases Option.some.inj moved
        exact failDrainAnswers (List.prefix_refl _)
      · split at moved
        · split at moved
          · cases Option.some.inj moved
            exact failDrainAnswers (List.prefix_append _ _)
          · cases Option.some.inj moved
            exact List.prefix_append _ _
        · cases Option.some.inj moved
          exact List.prefix_refl _

theorem packetAnswers {draws : List (Nat × Nat)} {fault : Option Nat} (moved : s.packetStep draws fault = some t) :
    s.answers <+: t.answers := by
  unfold packetStep at moved
  split at moved
  · obtain ⟨records,_,rfl⟩ := Option.map_eq_some_iff.mp moved
    cases fault with
    | none => exact List.prefix_refl _
    | some made => exact failDrainAnswers (List.prefix_append _ _)
  · obtain ⟨records,_,rfl⟩ := Option.map_eq_some_iff.mp moved
    cases fault with
    | none => exact List.prefix_refl _
    | some made => exact List.prefix_append _ _
  · contradiction

theorem flushAnswers {ok : Bool} (moved : s.flushStep ok = some t) : s.answers <+: t.answers := by
  unfold flushStep at moved
  split at moved
  · cases Option.some.inj moved
    cases ok
    · exact failDrainAnswers (List.prefix_append _ _)
    · exact List.prefix_append _ _
  · split at moved
    · cases Option.some.inj moved
      exact List.prefix_refl _
    · split at moved
      · cases Option.some.inj moved
        exact List.prefix_refl _
      · cases Option.some.inj moved
        cases ok <;> exact List.prefix_append _ _
  · cases Option.some.inj moved
    cases ok <;> exact List.prefix_append _ _
  · contradiction

theorem goawayAnswers {last : Nat} {ok : Bool} (moved : s.goawayStep last ok = some t) : t.answers = s.answers := by
  unfold goawayStep at moved
  split at moved
  · cases Option.some.inj moved
    rfl
  · cases Option.some.inj moved
    cases ok <;> rfl

theorem answersGrow (moved : step s a = some t) : s.answers <+: t.answers := by
  cases a with
  | control draw =>
    simp only [step] at moved
    split at moved
    · exact controlAnswers moved
    · contradiction
  | bulk draw =>
    simp only [step] at moved
    split at moved
    · exact bulkAnswers moved
    · contradiction
  | record draw fault =>
    simp only [step] at moved
    split at moved
    · exact recordAnswers moved
    · contradiction
  | packet draws fault => exact packetAnswers moved
  | flush ok => exact flushAnswers moved
  | goaway last ok =>
    simp only [step] at moved
    split at moved
    · rw [goawayAnswers moved]
    · contradiction
  | finish made =>
    simp only [step] at moved
    split at moved
    · unfold finishStep at moved
      split at moved
      · contradiction
      · split at moved <;> cases Option.some.inj moved <;> exact List.prefix_refl _
    · contradiction
  | arrive =>
    simp only [step] at moved
    split at moved
    · unfold arriveStep at moved
      split at moved
      · contradiction
      · split at moved
        · contradiction
        · dsimp only at moved
          split at moved <;> cases Option.some.inj moved <;> exact List.prefix_refl _
    · contradiction
  | leave draw =>
    simp only [step] at moved
    split at moved
    · split at moved <;> cases Option.some.inj moved <;> exact List.prefix_refl _
    · contradiction
  | close =>
    cases Option.some.inj moved
    exact List.prefix_refl _
  | hangUp =>
    cases Option.some.inj moved
    exact List.prefix_refl _
  | _ =>
    simp only [step] at moved
    split at moved <;> first | contradiction | (cases Option.some.inj moved; exact List.prefix_refl _)

end Answers

section Closed
variable {s t : State} {a : Action}

@[simp] theorem failDrainClosed (s : State) (d : Drain) : (s.failDrain d).closeRequested = s.closeRequested := by
  unfold failDrain
  split <;> rfl

theorem failDrainPc (s : State) (d : Drain) : (s.failDrain d).pc = if d.exiting then .closing else .leaving := by
  unfold failDrain
  split <;> rfl

theorem closedKept (moved : step s a = some t) : t.closeRequested = (s.closeRequested || decide (a = .close)) := by
  cases a with
  | packet draws fault =>
    simp only [step,packetStep] at moved
    split at moved <;> try contradiction
    all_goals
      obtain ⟨records,_,rfl⟩ := Option.map_eq_some_iff.mp moved
      cases fault <;> simp [prepared]
  | flush ok =>
    simp only [step,flushStep] at moved
    repeat' split at moved
    all_goals first | contradiction | cases Option.some.inj moved
    all_goals cases ok <;> simp [flushed,failed]
  | goaway last ok =>
    simp only [step,goawayStep] at moved
    repeat' split at moved
    all_goals first | contradiction | cases Option.some.inj moved
    all_goals cases ok <;> simp [prepared]
  | _ =>
    simp only [step,controlStep,bulkStep,recordStep,finishStep,arriveStep] at moved
    repeat' split at moved
    all_goals first | contradiction | cases Option.some.inj moved
    all_goals simp [startDrain,flushed,failed,prepared,State.refuse,(queuedOne _ _).closed,(drained _).closed]

end Closed

structure Grown (s t : State) : Prop where
  answers : s.answers <+: t.answers
  closed : s.closeRequested = true → t.closeRequested = true

theorem grown {s t : State} {a : Action} (moved : step s a = some t) : Grown s t := by
  refine ⟨answersGrow moved,?_⟩
  intro closed
  rw [closedKept moved,closed,Bool.true_or]

section Tally
variable {client : Bool} {s t : State} {x y : Split} {extras : List Frame} {refused : List Request}

theorem tallySame (tally : Tally client s x extras refused) (settings : t.settings = s.settings)
    (grown : Grown s t) {pads : List Frame} (padding : Pads pads)
    (count : ∀ f, y.log.count f + (handOf t.pc).count f + y.rest.count f + (afterOf t.pc).count f +
      (framesOf t.queue).count f + (framesOf refused).count f =
      (framesOf t.sent).count f + extras.count f + pads.count f) :
    Tally client t y (extras ++ pads) refused := by
  refine ⟨?_,?_,?_,fun r member => grown.answers.subset (tally.told r member),
    fun some => grown.closed (tally.closed some)⟩
  · intro f
    rw [count f,List.count_append]
    omega
  · have none : pads.filter (fun f => f.cmd != cmdPadding) = [] := by
      rw [List.filter_eq_nil_iff]
      intro f member
      simp [padding f member]
    rw [List.filter_append,tally.extra,none,settings,List.append_nil]
  · rw [settings]
    exact tally.unsent

theorem tallyTaken (tally : Tally client s x extras refused) {r : Request} {queue : List Request}
    (takes : Takes s t r queue) (grown : Grown s t)
    (count : ∀ f, y.log.count f + (handOf t.pc).count f + y.rest.count f + (afterOf t.pc).count f +
      (framesOf t.queue).count f = x.log.count f + (handOf s.pc).count f + x.rest.count f +
      (afterOf s.pc).count f + r.frames.count f + (framesOf queue).count f) :
    Tally client t y (extras ++ settingsOf s) refused := by
  refine ⟨?_,?_,?_,fun r member => grown.answers.subset (tally.told r member),
    fun some => grown.closed (tally.closed some)⟩
  · intro f
    have before := tally.count f
    have taken := takesCount takes f
    have after := count f
    rw [takes.sent,List.count_append]
    omega
  · rw [List.filter_append,tally.extra,takes.settings]
    cases waiting : s.settings with
    | false => simp [settingsOf,waiting]
    | true =>
      rw [tally.unsent waiting,settingsOf,waiting]
      decide
  · intro settings
    rw [takes.settings] at settings
    contradiction

theorem tallyStep {a : Action} (tally : Tally client s x extras refused) (held : Held s x) (grown : Grown s t)
    (turn : Turn s a t x y) : ∃ extras refused, Tally client t y extras refused := by
  have quiet : Pads [] := by simp [Pads]
  cases turn with
  | still same hand after queues _ _ =>
    refine ⟨_,_,tallySame tally queues.settings grown quiet ?_⟩
    intro f
    have before := tally.count f
    simp only [same,hand,after,queues.queue,queues.sent,List.count_nil]
    omega
  | send control auto packets _ same pc queue sent settings =>
    refine ⟨_,_,tallySame tally settings grown quiet ?_⟩
    intro f
    have before := tally.count f
    simp only [same,pc,queue,sent,framesAppend,List.count_append,List.count_nil]
    omega
  | emit gone pads log split front padding hand after queues _ _ =>
    refine ⟨_,_,tallySame tally queues.settings grown padding ?_⟩
    intro f
    have before := tally.count f
    rw [split,hand.1] at before
    simp only [log,hand.2,after,queues.queue,queues.sent,List.count_append,List.count_nil] at before ⊢
    omega
  | pass r queue gone d _ takes rest log split front _ hand after _ _ _ _ _ _ =>
    refine ⟨_,_,tallyTaken tally takes grown ?_⟩
    intro f
    rw [split,rest,log,hand.1,hand.2,after]
    simp only [List.count_append,List.count_nil]
    omega
  | through frames log rest front hand after queues _ _ =>
    refine ⟨_,_,tallySame tally queues.settings grown quiet ?_⟩
    intro f
    have before := tally.count f
    rw [hand] at before
    simp only [log,rest,after,queues.queue,queues.sent,List.count_append,List.count_nil] at before ⊢
    omega
  | defer r queue d e _ takes rest same hand after _ _ _ _ _ _ =>
    refine ⟨_,_,tallyTaken tally takes grown ?_⟩
    intro f
    rw [same,rest,hand.1,hand.2,after]
    simp only [List.count_append,List.count_nil]
    omega
  | control r queue draw _ takes rest was log front hand frames _ _ =>
    refine ⟨_,_,tallyTaken tally takes grown ?_⟩
    intro f
    have parts := splitCount queue f
    obtain ⟨_,noRest,_⟩ := held.whole was.1
    rw [rest,log,hand,was.2.1,was.2.2,noRest]
    unfold framesOf at parts ⊢
    obtain ⟨now,later⟩ | ⟨now,later,_⟩ := frames <;> rw [now,later] <;>
      simp only [List.count_append,List.count_nil] <;> omega
  | bulk empty rest sent settings was log front hand after frames _ _ =>
    refine ⟨_,_,tallySame tally settings grown quiet ?_⟩
    intro f
    have before := tally.count f
    obtain ⟨_,noRest,_⟩ := held.whole was.1
    rw [was.2.1,was.2.2,noRest] at before
    rw [log,hand,after,frames,rest,sent]
    simp only [framesOf,List.flatMap_nil,List.count_nil] at before ⊢
    omega
  | refuse r queue same found rest sent settings told closed idle leaving =>
    refine ⟨extras,r::refused,?_,?_,?_,?_,fun _ => grown.closed closed⟩
    · intro f
      have before := tally.count f
      rw [idle,framesCount found f] at before
      rw [same,rest,sent,leaving]
      simp only [framesOf,List.flatMap_cons,List.count_append] at before ⊢
      rw [show handOf .leaving = handOf .select from rfl,show afterOf .leaving = afterOf .select from rfl]
      omega
    · rw [settings]
      exact tally.extra
    · rw [settings]
      exact tally.unsent
    · intro q member
      rcases List.mem_cons.mp member with rfl | member
      · exact told
      · exact grown.answers.subset (tally.told q member)
  | prepare frames was now log rest front hand after queues _ =>
    refine ⟨_,_,tallySame tally queues.settings grown quiet ?_⟩
    intro f
    have before := tally.count f
    rw [after,hand.1] at before
    rw [log,rest,hand.2,queues.queue,queues.sent]
    simp only [List.count_append,List.count_nil] at before ⊢
    omega

end Tally

end KanoTls.Writer
