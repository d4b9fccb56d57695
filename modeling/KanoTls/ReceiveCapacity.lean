import KanoTls.ReceiveShape

/-! `capacity_stream_count`. The counter is changed beside the stream table, never
computed from it: in every run it is the number of registered streams whose handle
is not marked `read_closed`. -/
namespace KanoTls.Receive
open Pending Session

def Stream.counted (st : Stream) : Bool := st.handle.any (fun h => !h.readClosed)

def Tally (s : Session) : Prop := ∃ counted : Finset StreamId,
  (∀ sid, sid ∈ counted ↔ (s.stream sid).counted = true) ∧ s.capacity = counted.card

section Tally
variable {s t : Session} {sid : StreamId}

theorem tallySame (tally : Tally s) (same : ∀ k, (t.stream k).counted = (s.stream k).counted)
    (capacity : t.capacity = s.capacity) : Tally t := by
  obtain ⟨counted,exact',total⟩ := tally
  refine ⟨counted,fun k => ?_,capacity.trans total⟩
  rw [same,exact']

theorem tallyStream (tally : Tally s) {st : Stream} (same : st.counted = (s.stream sid).counted) :
    Tally (s.setStream sid st) := by
  refine tallySame tally (fun k => ?_) rfl
  by_cases here : k = sid
  · subst here
    simp only [setStream,Function.update_self,same]
  · simp only [setStream,Function.update_of_ne here]

theorem tallyAdd (tally : Tally s) {st : Stream} (was : (s.stream sid).counted = false) (now : st.counted = true) :
    Tally {s.setStream sid st with capacity := s.capacity + 1} := by
  obtain ⟨counted,exact',total⟩ := tally
  have absent : sid ∉ counted := by
    rw [exact',was]
    exact Bool.false_ne_true
  refine ⟨insert sid counted,fun k => ?_,?_⟩
  · by_cases here : k = sid
    · subst here
      simp [setStream,now]
    · simp only [Finset.mem_insert,here,false_or,exact',setStream,Function.update_of_ne here]
  · rw [Finset.card_insert_of_notMem absent]
    show s.capacity + 1 = _
    omega

theorem tallyDrop (tally : Tally s) {st : Stream} (was : (s.stream sid).counted = true) (now : st.counted = false) :
    Tally {s.setStream sid st with capacity := s.capacity - 1} := by
  obtain ⟨counted,exact',total⟩ := tally
  have present : sid ∈ counted := (exact' sid).mpr was
  refine ⟨counted.erase sid,fun k => ?_,?_⟩
  · by_cases here : k = sid
    · subst here
      simp [setStream,now]
    · simp only [Finset.mem_erase,ne_eq,here,not_false_eq_true,true_and,exact',setStream,Function.update_of_ne here]
  · have one : 1 ≤ counted.card := Finset.card_pos.mpr ⟨sid,present⟩
    rw [Finset.card_erase_of_mem present]
    show s.capacity - 1 = _
    omega

theorem tallyRegister (tally : Tally s) {st : Stream} (synack : Bool) (unregistered : (s.stream sid).handle = none) :
    Tally (s.registerStream sid st synack) := by
  refine tallyAdd tally ?_ rfl
  rw [Stream.counted,unregistered]
  rfl

theorem tallyUnregister (tally : Tally s) (sid : StreamId) : Tally (s.unregisterStream sid) := by
  unfold unregisterStream
  split
  · exact tally
  · rename_i h found
    cases closed : h.readClosed
    · refine tallyDrop tally ?_ rfl
      rw [Stream.counted,found,Option.any_some,closed]
      rfl
    · refine tallyStream tally ?_
      rw [Stream.counted,Stream.counted,found,Option.any_some,closed]
      rfl

theorem tallyMark (tally : Tally s) (sid : StreamId) : Tally (s.markStreamReadClosed sid) := by
  unfold markStreamReadClosed
  split
  · exact tally
  · rename_i h found
    split
    · exact tally
    · rename_i unclosed
      refine tallyDrop tally ?_ rfl
      rw [Stream.counted,found,Option.any_some,Bool.eq_false_iff.mpr unclosed]
      rfl

theorem tallyTaken (tally : Tally s) {closed : Bool} (found : (s.stream sid).handle = some ⟨true,closed⟩)
    {st : Stream} (taken : st.handle = some ⟨false,closed⟩) : Tally (s.setStream sid st) := by
  refine tallyStream tally ?_
  rw [Stream.counted,Stream.counted,found,taken]
  rfl

theorem tallyLoop (tally : Tally s) (moved : s.loopStep = some t) : Tally t := by
  unfold loopStep at moved
  split at moved
  · contradiction
  · rename_i pc payload here
    cases pc <;> simp only [pshStep] at moved <;> (repeat' split at moved) <;> try contradiction
    all_goals cases Option.some.inj moved; first | exact tally | exact tallyStream tally rfl
  · rename_i pc sender here
    cases pc <;> simp only [closeStep] at moved <;> (repeat' split at moved) <;> try contradiction
    all_goals cases Option.some.inj moved; first | exact tally | exact tallyUnregister tally _
  · rename_i pc here
    cases pc <;> simp only [finStep] at moved <;> (repeat' split at moved) <;> try contradiction
    all_goals cases Option.some.inj moved
    all_goals first | exact tally | exact tallyStream tally rfl | exact tallyMark tally _ |
      exact tallyTaken tally ‹_› rfl
  · rename_i pc here
    cases pc <;> simp only [synackStep] at moved <;> (repeat' split at moved) <;> try contradiction
    all_goals cases Option.some.inj moved; first | exact tally | exact tallyTaken tally ‹_› rfl
  · rename_i pc here
    unfold flushStep at moved
    split at moved <;> (try dsimp only at moved) <;> (repeat' split at moved) <;> try contradiction
    all_goals cases Option.some.inj moved
    all_goals first | exact tally | exact tallyStream tally rfl | exact tallyUnregister tally _
  · simp only [synStep] at moved
    repeat' split at moved
    all_goals cases Option.some.inj moved; first | exact tally | exact tallyStream tally rfl
  · contradiction

theorem tallyAccept (tally : Tally s) (shape : Shape s.isClient (view s sid)) (moved : s.acceptStep sid = some t) :
    Tally t := by
  unfold acceptStep at moved
  dsimp only at moved
  split at moved
  case h_4 here =>
    cases Option.some.inj moved
    refine tallyRegister tally false (shape.early ?_).2.2
    rw [show (view s sid).st.accept = .register from here]
    rfl
  all_goals
    repeat' split at moved
    all_goals try contradiction
    all_goals cases Option.some.inj moved
    all_goals first | exact tallyStream tally rfl | exact tallyStream (tallyMark tally sid) rfl |
      exact tallyStream (tallyUnregister tally sid) rfl

theorem tallyStep {a} (shape : ∀ sid, Shape s.isClient (view s sid)) (tally : Tally s) (moved : step s a = some t) :
    Tally t := by
  cases a with
  | openStream sid =>
    simp only [step] at moved
    split at moved <;> try contradiction
    rename_i allowed
    simp only [Bool.and_eq_true,Bool.not_eq_true'] at allowed
    cases Option.some.inj moved
    refine tallyRegister tally true ?_
    have fresh := ((shape sid).fresh allowed.1.2).st
    rw [show s.stream sid = {} from fresh]
  | loop => exact tallyLoop tally moved
  | accept sid => exact tallyAccept tally (shape sid) moved
  | frame f queued =>
    simp only [step] at moved
    split at moved <;> try contradiction
    cases f <;> simp only [handleFrame] at moved <;> (repeat' split at moved) <;> try contradiction
    all_goals cases Option.some.inj moved; first | exact tally | exact tallyStream tally rfl
  | reader sid =>
    simp only [step,readerStep] at moved
    repeat' split at moved
    all_goals try contradiction
    all_goals cases Option.some.inj moved
    all_goals first | exact tallyStream tally rfl | skip
    all_goals refine tallyStream tally ?_
    all_goals (try unfold finishDrain); split <;> rfl
  | teardown sid tombstone =>
    simp only [step,teardownStep] at moved
    repeat' split at moved
    all_goals try contradiction
    all_goals cases Option.some.inj moved
    all_goals first | exact tallyStream tally rfl | exact tallyStream (tallyUnregister tally sid) rfl
  | dropReadHalf sid marked =>
    simp only [step] at moved
    split at moved <;> try contradiction
    cases Option.some.inj moved
    cases marked
    · exact tallyStream tally rfl
    · exact tallyStream (tallyMark tally sid) rfl
  | _ =>
    simp only [step,acquire,wakeStep,sweepData,sweepFin] at moved
    repeat' split at moved
    all_goals try contradiction
    all_goals cases Option.some.inj moved; first | exact tally | exact tallyStream tally rfl

end Tally

theorem runTally {ok client max s} (reach : Run ok client max s) : Tally s := by
  refine Machine.reachInvariantFrom (J := fun s => ∀ sid, Shape s.isClient (view s sid)) ?_ ?_ ?_ reach
  · intro s reach sid
    have client' : s.isClient = client := by
      refine Machine.reachInvariant (I := fun s => s.isClient = client) rfl ?_ reach
      exact fun known _ moved => (stepClient moved).trans known
    have any : Run (Meets sid (fun _ _ => True)) client max s :=
      Machine.reachWeaken (fun _ _ _ _ => trivial) reach
    rw [client']
    exact runShape any
  · exact ⟨∅,fun _ => ⟨(fun h => by cases h),(fun h => by cases h)⟩,rfl⟩
  · exact fun shape tally _ moved => tallyStep shape tally moved

end KanoTls.Receive
