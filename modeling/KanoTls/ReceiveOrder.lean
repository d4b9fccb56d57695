import KanoTls.ReceiveLine

/-! Order of what a stream's reads return. `try_recv` and the pop of the pending
queue are two steps, and the loop can fill both queues in between. A run that pops
only behind an empty channel delivers in arrival order. -/
namespace KanoTls.Receive
open Pending Session

section
variable {client : Bool} {v w : View} {e : Event}

theorem untouchedLine (shape : Shape client v) (unopened : v.st.opened = false) :
    v.core = [] ∧ v.st.delivered = [] ∧ v.live = false := by
  obtain ⟨st,pending,_,outside⟩ := shape.fresh unopened
  have absent : v.pre = none := by
    rw [shape.accepting.pre,st]
    rfl
  have off : (v.pc.map HandlerPc.mid).getD [] = [] ∧ v.pc.any HandlerPc.delivering = false := by
    cases at' : v.pc with
    | none => exact ⟨rfl,rfl⟩
    | some pc =>
      have out := outside pc at'
      cases pc with
      | psh pc => cases pc <;> first | exact ⟨rfl,rfl⟩ | contradiction
      | flush pc => contradiction
      | _ => exact ⟨rfl,rfl⟩
  refine ⟨?_,by rw [st],?_⟩
  · simp [View.core,View.preData,View.mid,off.1,st,pending,absent,ReaderPc.out,AcceptPc.hand]
  · simp [View.live,off.2,st,absent]

theorem goneStays (shape : Shape client v) (m : Move client v e w) (gone : v.st.reader.pc = .gone) :
    w.st.reader.pc = .gone := by
  cases m with
  | frame m =>
    cases m <;> first | exact gone | skip
    case openStream fresh =>
      rw [(shape.fresh fresh).st] at gone
      contradiction
  | loop here m => exact (loopFrame m).reader.1.trans gone
  | syn here m =>
    cases m with
    | opened c fresh =>
      rw [(shape.fresh fresh).st] at gone
      contradiction
    | _ => exact gone
  | accept here m =>
    have absent := shape.accepting.absent (acceptBusy here m)
    exact absurd (absent.symm.trans gone) ReaderPc.noConfusion
  | reader here m => rw [gone] at here; subst here; cases m
  | side m => cases m <;> first | exact gone | rfl

theorem goneDelivered (m : Move client v e w) (gone : w.st.reader.pc = .gone) :
    w.st.delivered = v.st.delivered := by
  cases m with
  | frame m => cases m <;> rfl
  | loop here m => exact (loopFrame m).delivered
  | syn here m => cases m <;> rfl
  | accept here m => exact (acceptFrame m).delivered
  | reader here m =>
    cases m <;> first | rfl | contradiction
  | side m => exact (sideFrame m).delivered

theorem arrivedGrows (shape : Shape client v) (m : Move client v e w) : v.st.arrived <+: w.st.arrived := by
  cases m with
  | frame m =>
    cases m <;> first | exact List.prefix_rfl | exact List.prefix_append _ _ | skip
    case openStream fresh =>
      rw [(shape.fresh fresh).st]
      exact List.nil_prefix
  | loop here m => rw [(loopFrame m).arrived]
  | syn here m => cases m <;> exact List.prefix_rfl
  | accept here m => rw [(acceptFrame m).arrived]
  | reader here m => rw [(readerFrame m).arrived]
  | side m => rw [(sideFrame m).arrived]

end

/- A payload is popped from the pending queue only while the channel is empty. -/
def PopsBehindChannel (v : View) (e : Event) : Prop := e = .pop → v.st.data = []

instance (v : View) (e : Event) : Decidable (PopsBehindChannel v e) := inferInstanceAs (Decidable (_ → _))

/- `next_stream_id` hands out an id once; a peer that opens one again is left out. -/
def Once (okv : View → Event → Prop) (v : View) (e : Event) : Prop := okv v e ∧ e ≠ .reopened

instance (okv : View → Event → Prop) [∀ v e, Decidable (okv v e)] (v : View) (e : Event) : Decidable (Once okv v e) :=
  inferInstanceAs (Decidable (_ ∧ _))

theorem onceMeets {okv : View → Event → Prop} {client max sid s} (reach : Run (Meets sid (Once okv)) client max s) :
    Run (Meets sid okv) client max s := Machine.reachWeaken (fun _ _ ok here => (ok here).1) reach

structure InOrder (v : View) : Prop where
  delivered : v.st.delivered.Sublist v.st.arrived
  core : v.st.reader.pc ≠ .gone → v.core.Sublist v.st.arrived
  full : v.st.reader.pc ≠ .gone → v.live = true → (v.core ++ v.hand).Sublist v.st.arrived

theorem deliveredInCore (v : View) : v.st.delivered <+: v.core := by
  simp only [View.core,List.append_assoc]
  exact List.prefix_append _ _

theorem orderKept {client v e w} (shape : Shape client v) (order : InOrder v) (ok : PopsBehindChannel v e)
    (m : Move client v e w) : InOrder w := by
  have shape' := shapeKept shape m
  by_cases gone : w.st.reader.pc = .gone
  · refine ⟨?_,fun alive => absurd gone alive,fun alive => absurd gone alive⟩
    rw [goneDelivered m gone]
    exact order.delivered.trans (arrivedGrows shape m).sublist
  have reading : v.st.reader.pc ≠ .gone := fun was => gone (goneStays shape m was)
  have core := order.core reading
  have full := order.full reading
  have both : w.core.Sublist w.st.arrived ∧ (w.live = true → (w.core ++ w.hand).Sublist w.st.arrived) := by
    cases opened : w.st.opened with
    | false =>
      obtain ⟨empty,_,dead⟩ := untouchedLine shape' opened
      rw [empty,dead]
      exact ⟨List.nil_sublist _,(by simp)⟩
    | true =>
      rcases shift shape ok m opened with ⟨c,h,a,alive⟩ | ⟨payload,c,before,h,a,alive⟩ | ⟨c,h,a,was⟩ | ⟨c,h,a,lost⟩ |
        ⟨c,h,a,lost⟩ | ⟨_,c,h,a,was⟩ | ⟨away,_,_,_,_⟩ | ⟨fresh,c,a⟩
      · rw [c,h,a]
        exact ⟨core,fun live => full (alive live)⟩
      · rw [c,h,a]
        refine ⟨core.trans (List.sublist_append_left _ _),fun live => ?_⟩
        exact core.append (List.Sublist.refl _)
      · rw [c,h,a,List.append_nil]
        exact ⟨full was,fun _ => full was⟩
      · rw [c,h,a,List.append_nil]
        exact ⟨core,fun _ => core⟩
      · rw [h,a]
        refine ⟨c.sublist.trans core,fun live => ?_⟩
        rcases lost with dead | ⟨_,delivering⟩
        · exact absurd (dead.symm.trans live) Bool.false_ne_true
        · have was : v.live = true := by simp [View.live,delivering]
          exact (c.sublist.append (List.Sublist.refl _)).trans (full was)
      · rw [h,a]
        exact ⟨c.trans core,fun _ => (c.append (List.Sublist.refl _)).trans (full was)⟩
      · exact absurd away gone
      · rw [c,a]
        exact ⟨List.nil_sublist _,fun _ => List.Sublist.refl _⟩
  exact ⟨(deliveredInCore w).sublist.trans both.1,fun _ => both.1,fun _ => both.2⟩

theorem runInOrder {client max sid s} (reach : Run (Meets sid PopsBehindChannel) client max s) :
    InOrder (view s sid) := by
  have both : Shape client (view s sid) ∧ InOrder (view s sid) := by
    refine streamInvariant (I := fun v => Shape client v ∧ InOrder v) ?_ ?_ reach
    · have shape := shapeStart client max sid
      obtain ⟨core,delivered,dead⟩ := untouchedLine shape rfl
      refine ⟨shape,?_,?_,?_⟩
      · rw [delivered]
        exact List.nil_sublist _
      · rw [core]
        exact fun _ => List.nil_sublist _
      · rw [dead]
        exact fun _ live => absurd live Bool.false_ne_true
    · intro v e w known ok m
      exact ⟨shapeKept known.1 m,orderKept known.1 known.2 ok m⟩
  exact both.2

theorem deliveredInOrder {client max sid s} (reach : Run (Meets sid (Once PopsBehindChannel)) client max s) :
    (s.stream sid).delivered.Sublist (s.stream sid).arrived :=
  (runInOrder (onceMeets reach)).delivered

def synacked (sid : StreamId) (later : List Action) : List Action :=
  .frame (.synack sid []) true::.loop::.acquire .loop::.loop::.acquire .loop::.loop::.loop::later

def spilled : List Action :=
  .openStream 1::synacked 1
    [.read 1,.frame (.psh 1 [65]) true,.loop,.loop,.loop,.loop,.loop,.reader 1,
     .openStream 2,.read 2,.reader 2,.reader 2,.reader 2,
     .frame (.psh 1 [66]) true,.loop,.loop,.loop,.reader 2,.acquire .loop,.loop,.loop,
     .read 1,.reader 1,.reader 1,.reader 1,.reader 1,.reader 1,.reader 1]

theorem deliveredInOrderSpilled : ∃ s, Run (Meets 1 (Once PopsBehindChannel)) true 8 s ∧
    (s.stream 1).delivered = [[65],[66]] ∧ (s.stream 1).delivered.Sublist (s.stream 1).arrived := by
  have ran : (Machine.checked step (Meets 1 (Once PopsBehindChannel)) (start true 8) spilled).any (fun s =>
      decide ((s.stream 1).delivered = [[65],[66]])) = true := by rfl
  obtain ⟨s,run,here⟩ := Machine.checkedReaches ran
  exact ⟨s,run,of_decide_eq_true here,deliveredInOrder run⟩

/- The reader of stream 1 has seen its channel empty. The loop then sends the first
payload to the channel and, finding the lock taken by stream 2, stores the second one. -/
def overtaking : List Action :=
  .openStream 1::.openStream 2::synacked 1
    [.read 1,.reader 1,.reader 1,.frame (.psh 1 [65]) true,.loop,.loop,.loop,.loop,.loop,
     .read 2,.reader 2,.reader 2,.reader 2,.frame (.psh 1 [66]) true,.loop,.loop,.loop,.reader 2,
     .acquire .loop,.loop,.loop,.reader 1,.reader 1,.reader 1,.reader 1,.read 1,.reader 1]

theorem popOvertakesChannel : ∃ s, Run Machine.Always true 8 s ∧
    ¬ (s.stream 1).delivered.Sublist (s.stream 1).arrived := by
  have ran : (Machine.checked step Machine.Always (start true 8) overtaking).any (fun s =>
      decide ((s.stream 1).delivered = [[66],[65]] ∧ (s.stream 1).arrived = [[65],[66]])) = true := by rfl
  obtain ⟨s,run,here⟩ := Machine.checkedReaches ran
  obtain ⟨delivered,arrived⟩ := of_decide_eq_true here
  refine ⟨s,run,?_⟩
  rw [delivered,arrived]
  decide

end KanoTls.Receive
