import KanoTls.Chunks
import KanoTls.Fallback

/-! Whatever the fragments and wherever the first record fails, what was written to the endpoint,
what is held for it and what is unread make up the client's stream. -/
namespace KanoTls.Fallback
open Uot Wire Patch Hello Chunks

/- The bytes read and not yet written, as long as they are still to be written. -/
def Relay.held (r : Relay) : Option Bytes :=
  match r.forth with
  | .reading => some []
  | .writing n done => some (slice r.buf done n)
  | .shut => some []
  | .broken => none

def Phase.held : Phase → Option Bytes
  | .reading _ buf filled => some (buf.take filled)
  | .judging _ rxBuf => some rxBuf
  | .served => none
  | .fallback _ initialData => some initialData
  | .forwarding initialData done => some (initialData.drop done)
  | .relaying r => r.held
  | .finished => none
  | .closing => none

def Relay.Sized (r : Relay) : Prop :=
  0 < r.buf.length ∧ match r.forth with
  | .writing n done => done < n ∧ n ≤ r.buf.length
  | _ => True

def Phase.Sized : Phase → Prop
  | .reading _ buf filled => filled < buf.length
  | .forwarding initialData done => done < initialData.length
  | .relaying r => r.Sized
  | _ => True

def State.Ends (s : State) : Prop :=
  match s.phase with
  | .relaying r => (r.forth = .shut → s.failed = false → s.unread = [] ∧ s.ended = true) ∧ (r.forth = .broken → s.failed = true)
  | .finished => s.failed = false → s.idled = false → s.written = s.sent ∧ s.ended = true
  | .closing => s.failed = true
  | _ => True

structure Line (s : State) : Prop where
  front : s.written <+: s.sent
  flows : ∀ held, s.phase.held = some held → s.written ++ (held ++ s.unread) = s.sent
  sized : s.phase.Sized
  ends : s.Ends

theorem putThrough {b chunk : Bytes} {start : Nat} (fits : start ≤ b.length) :
    (put b start chunk).take (start + chunk.length) = b.take start ++ chunk := by
  have front : (b.take start).length = start := by
    rw [List.length_take]
    omega
  rw [put,← List.append_assoc,List.take_append_of_le_length (by rw [List.length_append,front]),
    List.take_of_length_le (by rw [List.length_append,front])]

theorem sliceSplit {b : Bytes} {i j k : Nat} (first : i ≤ j) (second : j ≤ k) (fits : k ≤ b.length) :
    slice b i j ++ slice b j k = slice b i k := by
  have long : (b.take k).length = k := by
    rw [List.length_take]
    omega
  have cut : slice (b.take k) i j = slice b i j := sliceTake second (by rw [List.take_take,Nat.min_self])
  have split := sliceDrop first (by omega : j ≤ (b.take k).length)
  rw [cut] at split
  exact split

theorem turnCases {typ : Option UInt8} {buf : Bytes} {filled : Nat} (fits : filled ≤ buf.length) :
    (∃ typ' buf' filled', turn typ buf filled = .reading typ' buf' filled' ∧ filled' < buf'.length ∧
      buf'.take filled' = buf.take filled) ∨ ∃ typ', turn typ buf filled = .judging typ' (buf.take filled) := by
  have whole (full : ¬ filled < buf.length) : buf.take filled = buf := List.take_of_length_le (by omega)
  cases typ with
  | some typ =>
    dsimp only [turn]
    unfold bodyTurn
    split
    · rename_i more
      exact .inl ⟨some typ,buf,filled,rfl,more,rfl⟩
    · rename_i full
      exact .inr ⟨typ,by rw [whole full]⟩
  | none =>
    dsimp only [turn]
    unfold headerTurn
    split
    · rename_i more
      exact .inl ⟨none,buf,filled,rfl,more,rfl⟩
    · rename_i full
      rw [whole full]
      dsimp only
      split
      · exact .inr ⟨_,rfl⟩
      · split
        · exact .inr ⟨_,rfl⟩
        · unfold bodyTurn
          have front : (buf ++ List.replicate (u16At buf 3) 0).take buf.length = buf := List.take_left
          split
          · rename_i more
            exact .inl ⟨_,_,_,rfl,more,front⟩
          · rename_i empty
            rw [List.length_append,List.length_replicate] at empty
            have none : u16At buf 3 = 0 := by omega
            rw [none,List.replicate_zero,List.append_nil]
            exact .inr ⟨_,rfl⟩

section Lines
variable {cfg : Config} {s t : State}

theorem Line.of {held : Bytes} (here : s.phase.held = some held) (flows : s.written ++ (held ++ s.unread) = s.sent)
    (sized : s.phase.Sized) (ends : s.Ends) : Line s := by
  refine ⟨⟨held ++ s.unread,flows⟩,?_,sized,ends⟩
  intro other same
  cases Option.some.inj (here.symm.trans same)
  exact flows

theorem turnLine {typ : Option UInt8} {buf : Bytes} {filled : Nat} (fits : filled ≤ buf.length)
    (flows : s.written ++ (buf.take filled ++ s.unread) = s.sent) (turned : s.phase = turn typ buf filled) : Line s := by
  rcases turnCases fits with ⟨typ',buf',filled',same,more,kept⟩ | ⟨typ',same⟩
  · have here : s.phase = .reading typ' buf' filled' := turned.trans same
    refine .of (by rw [here,Phase.held,kept]) flows (by rw [here]; exact more) ?_
    unfold State.Ends
    rw [here]
    trivial
  · have here : s.phase = .judging typ' (buf.take filled) := turned.trans same
    refine .of (by rw [here,Phase.held]) flows (by rw [here]; trivial) ?_
    unfold State.Ends
    rw [here]
    trivial

theorem readLine {n : Nat} (line : Line s) (moved : readStep s n = some t) : Line t := by
  unfold readStep at moved
  obtain ⟨⟨positive,available⟩,moved⟩ := Option.ite_none_right_eq_some.mp moved
  have size : (s.unread.take n).length = n := by
    rw [List.length_take]
    omega
  have sized := line.sized
  have flows := line.flows
  have ends := line.ends
  unfold State.Ends at ends
  dsimp only at moved
  split at moved
  · rename_i typ buf filled here
    rw [here] at sized flows
    obtain ⟨fits,moved⟩ := Option.ite_none_right_eq_some.mp moved
    cases Option.some.inj moved
    have through := @putThrough buf (s.unread.take n) filled (by omega)
    rw [size] at through
    have whole : s.written ++ ((put buf filled (s.unread.take n)).take (filled + n) ++ s.unread.drop n) = s.sent := by
      rw [through,List.append_assoc,List.take_append_drop]
      exact flows _ rfl
    exact turnLine (by rw [putLength (by omega)]; exact fits) whole rfl
  · rename_i r here
    rw [here] at sized flows ends
    obtain ⟨⟨waiting,fits⟩,moved⟩ := Option.ite_none_right_eq_some.mp moved
    cases Option.some.inj moved
    have before : s.written ++ ([] ++ s.unread) = s.sent := flows [] (by rw [Phase.held,Relay.held,waiting])
    have through := @putThrough r.buf (s.unread.take n) 0 (Nat.zero_le _)
    rw [size,Nat.zero_add,List.take_zero,List.nil_append] at through
    have here : some (slice (put r.buf 0 (s.unread.take n)) 0 n) = some (s.unread.take n) := by
      rw [slice,through]
      rfl
    refine .of here ?_ ?_ ?_
    · rw [List.take_append_drop]
      exact before
    · refine ⟨?_,positive,?_⟩
      · rw [putLength (by omega)]
        exact sized.1
      · rw [putLength (by omega)]
        exact fits
    · exact ⟨fun no => by contradiction,fun no => by contradiction⟩
  · rename_i here
    cases Option.some.inj moved
    refine ⟨line.front,?_,?_,?_⟩
    · intro held same
      rw [here] at same
      contradiction
    · exact sized
    · unfold State.Ends
      rw [here] at ends ⊢
      exact ends
  · contradiction

theorem eofLine (line : Line s) (moved : eofStep s = some t) : Line t := by
  unfold eofStep at moved
  obtain ⟨allowed,moved⟩ := Option.ite_none_right_eq_some.mp moved
  have flows := line.flows
  have sized := line.sized
  split at moved
  · rename_i here
    cases Option.some.inj moved
    exact .of rfl (flows _ (by rw [here]; rfl)) trivial trivial
  · rename_i r here
    obtain ⟨waiting,moved⟩ := Option.ite_none_right_eq_some.mp moved
    rw [here] at sized
    cases Option.some.inj moved
    refine .of rfl (flows [] (by rw [here,Phase.held,Relay.held,waiting])) ⟨sized.1,trivial⟩ ⟨?_,fun no => by contradiction⟩
    intro _ unfailed
    exact allowed.resolve_left (by rw [unfailed]; decide)
  · contradiction

theorem brokenLine {r : Relay} (line : Line s) (here : s.phase = .relaying r) :
    Line { s with failed := true, phase := .relaying { r with forth := .broken } } := by
  have sized := line.sized
  rw [here] at sized
  refine ⟨line.front,?_,⟨sized.1,trivial⟩,⟨?_,fun _ => rfl⟩⟩
  · intro held same
    contradiction
  · intro no
    contradiction

theorem readFailsLine {timedOut : Bool} (line : Line s) (moved : readFailsStep s timedOut = some t) : Line t := by
  unfold readFailsStep at moved
  dsimp only at moved
  split at moved
  · rename_i here
    cases Option.some.inj moved
    exact .of rfl (line.flows _ (by rw [here]; rfl)) trivial trivial
  · rename_i r here
    obtain ⟨_,moved⟩ := Option.ite_none_right_eq_some.mp moved
    cases Option.some.inj moved
    exact brokenLine line here
  · contradiction

theorem deadlineLine (line : Line s) (moved : deadlineStep s = some t) : Line t := by
  unfold deadlineStep at moved
  split at moved
  · rename_i here
    obtain ⟨_,moved⟩ := Option.ite_none_right_eq_some.mp moved
    cases Option.some.inj moved
    exact .of rfl (line.flows _ (by rw [here]; rfl)) trivial trivial
  · contradiction

theorem judgeLine {fresh : Bytes → Candidate → Bool} {room : Bool} (line : Line s)
    (moved : judgeStep cfg s fresh room = some t) : Line t := by
  unfold judgeStep at moved
  split at moved
  · rename_i typ rxBuf here
    split at moved
    · cases Option.some.inj moved
      exact ⟨line.front,fun held no => by contradiction,trivial,trivial⟩
    · cases Option.some.inj moved
      exact .of rfl (line.flows _ (by rw [here]; rfl)) trivial trivial
  · contradiction

theorem closingLine (line : Line s) : Line { s with failed := true, phase := .closing } :=
  ⟨line.front,fun held no => by contradiction,trivial,rfl⟩

theorem startRelayLine (flows : s.written ++ ([] ++ s.unread) = s.sent) (now : Nat) :
    Line { s with phase := .relaying (startRelay now) } := by
  refine .of rfl flows ⟨?_,trivial⟩ ⟨fun no => by contradiction,fun no => by contradiction⟩
  rw [startRelay,List.length_replicate]
  decide

theorem openLine {how : Opening} (line : Line s) (moved : openStep s how = some t) : Line t := by
  unfold openStep at moved
  split at moved
  · rename_i reason initialData here
    have flows := line.flows initialData (by rw [here]; rfl)
    split at moved
    · cases Option.some.inj moved
      by_cases empty : initialData = []
      · rw [empty] at flows
        rw [if_pos empty]
        exact startRelayLine flows s.now
      · rw [if_neg empty]
        exact .of rfl flows (List.length_pos_iff.mpr empty) trivial
    · cases Option.some.inj moved
      exact closingLine line
  · contradiction

theorem writeLine {n : Nat} (line : Line s) (moved : writeStep s n = some t) : Line t := by
  unfold writeStep at moved
  obtain ⟨positive,moved⟩ := Option.ite_none_right_eq_some.mp moved
  have sized := line.sized
  split at moved
  · rename_i initialData done here
    obtain ⟨fits,moved⟩ := Option.ite_none_right_eq_some.mp moved
    have flows := line.flows (initialData.drop done) (by rw [here]; rfl)
    rw [← sliceDrop (Nat.le_add_right done n) fits,List.append_assoc,← List.append_assoc] at flows
    cases Option.some.inj moved
    by_cases more : done + n < initialData.length
    · rw [if_pos more]
      exact .of rfl flows more trivial
    · rw [List.drop_of_length_le (by omega)] at flows
      rw [if_neg more]
      exact @startRelayLine { s with written := s.written ++ slice initialData done (done + n) } flows s.now
  · rename_i r here
    rw [here] at sized
    split at moved
    · rename_i m done writing
      obtain ⟨room,inside⟩ := sized
      rw [writing] at inside
      obtain ⟨fits,moved⟩ := Option.ite_none_right_eq_some.mp moved
      have flows := line.flows (slice r.buf done m) (by rw [here,Phase.held,Relay.held,writing])
      rw [← sliceSplit (Nat.le_add_right done n) fits inside.2,List.append_assoc,← List.append_assoc] at flows
      cases Option.some.inj moved
      by_cases more : done + n < m
      · rw [if_pos more]
        exact .of rfl flows ⟨room,more,inside.2⟩ ⟨fun no => by contradiction,fun no => by contradiction⟩
      · have last : slice r.buf (done + n) m = [] := by
          rw [slice,List.drop_of_length_le (by rw [List.length_take]; omega)]
        rw [last] at flows
        rw [if_neg more]
        exact .of rfl flows ⟨room,trivial⟩ ⟨fun no => by contradiction,fun no => by contradiction⟩
    · contradiction
  · contradiction

theorem writeFailsLine (line : Line s) (moved : writeFailsStep s = some t) : Line t := by
  unfold writeFailsStep at moved
  dsimp only at moved
  split at moved
  · cases Option.some.inj moved
    exact closingLine line
  · rename_i r here
    split at moved
    · cases Option.some.inj moved
      exact brokenLine line here
    · contradiction
  · contradiction

theorem relayLine {r r' : Relay} {failed : Bool} (line : Line s) (here : s.phase = .relaying r) (buf : r'.buf = r.buf)
    (forth : r'.forth = r.forth) (stays : s.failed = true → failed = true) :
    Line { s with failed := failed, phase := .relaying r' } := by
  obtain ⟨front,flows,sized,ends⟩ := line
  unfold State.Ends at ends
  rw [here] at flows sized ends
  have holds : r.held = r'.held := by
    unfold Relay.held
    rw [forth,buf]
  refine ⟨front,?_,?_,?_,?_⟩
  · intro held same
    exact flows held (holds.trans same)
  · unfold Phase.Sized Relay.Sized at sized ⊢
    dsimp only
    rw [forth,buf]
    exact sized
  · rw [forth]
    intro shut unfailed
    refine ends.1 shut (Bool.eq_false_iff.mpr ?_)
    intro before
    dsimp only at unfailed
    rw [stays before] at unfailed
    contradiction
  · rw [forth]
    intro broken
    exact stays (ends.2 broken)

theorem timerLine {r : Relay} (line : Line s) (here : s.phase = .relaying r) (moved : timerStep s r = some t) : Line t := by
  unfold timerStep at moved
  obtain ⟨_,moved⟩ := Option.ite_none_right_eq_some.mp moved
  split at moved
  · cases Option.some.inj moved
    exact ⟨line.front,fun held no => by contradiction,trivial,fun _ no => by contradiction⟩
  · cases Option.some.inj moved
    exact relayLine line here rfl rfl id

theorem relayCases {change : Relay → Option State} (moved : relayStep s change = some t) :
    ∃ r, s.phase = .relaying r ∧ change r = some t := by
  unfold relayStep at moved
  split at moved
  · rename_i r here
    exact ⟨r,here,moved⟩
  · contradiction

theorem joinLine {r : Relay} (line : Line s) (here : s.phase = .relaying r) (through : r.forth = .shut ∨ r.forth = .broken) :
    Line { s with phase := .finished } := by
  have ends := line.ends
  unfold State.Ends at ends
  rw [here] at ends
  refine ⟨line.front,fun held no => by contradiction,trivial,?_⟩
  intro unfailed _
  rcases through with shut | broken
  · obtain ⟨empty,ended⟩ := ends.1 shut unfailed
    have flows := line.flows [] (by rw [here,Phase.held,Relay.held,shut])
    rw [empty,List.append_nil,List.append_nil] at flows
    exact ⟨flows,ended⟩
  · have failed := ends.2 broken
    rw [unfailed] at failed
    contradiction

theorem sendLine {chunk : Bytes} (line : Line s) (open' : s.ended = false) :
    Line { s with sent := s.sent ++ chunk, unread := s.unread ++ chunk } := by
  obtain ⟨front,flows,sized,ends⟩ := line
  refine ⟨front.trans (List.prefix_append _ _),?_,sized,?_⟩
  · intro held same
    dsimp only
    rw [← flows held same,List.append_assoc,List.append_assoc]
  · unfold State.Ends at ends ⊢
    dsimp only
    split at ends
    · refine ⟨?_,ends.2⟩
      intro shut unfailed
      have ended := (ends.1 shut unfailed).2
      rw [open'] at ended
      contradiction
    · intro unfailed unidled
      have ended := (ends unfailed unidled).2
      rw [open'] at ended
      contradiction
    · exact ends
    · trivial

theorem finishLine (line : Line s) : Line { s with ended := true } := by
  obtain ⟨front,flows,sized,ends⟩ := line
  refine ⟨front,flows,sized,?_⟩
  unfold State.Ends at ends ⊢
  dsimp only
  split at ends
  · exact ⟨fun shut unfailed => ⟨(ends.1 shut unfailed).1,rfl⟩,ends.2⟩
  · exact fun unfailed unidled => ⟨(ends unfailed unidled).1,rfl⟩
  · exact ends
  · trivial

theorem stepLine {label : Label} (line : Line s) (moved : step cfg s label = some t) : Line t := by
  cases label with
  | sends chunk =>
    obtain ⟨open',moved⟩ := Option.ite_none_left_eq_some.mp moved
    cases Option.some.inj moved
    exact sendLine line (by simpa using open')
  | finishes =>
    cases Option.some.inj moved
    exact finishLine line
  | passes time =>
    cases Option.some.inj moved
    exact ⟨line.front,line.flows,line.sized,line.ends⟩
  | reads n => exact readLine line moved
  | eof => exact eofLine line moved
  | readFails timedOut => exact readFailsLine line moved
  | deadline => exact deadlineLine line moved
  | judges fresh room => exact judgeLine line moved
  | opens how => exact openLine line moved
  | writes n => exact writeLine line moved
  | writeFails => exact writeFailsLine line moved
  | answers =>
    obtain ⟨r,here,moved⟩ := relayCases moved
    obtain ⟨_,moved⟩ := Option.ite_none_left_eq_some.mp moved
    cases Option.some.inj moved
    exact relayLine line here rfl rfl id
  | answersEnd clean =>
    obtain ⟨r,here,moved⟩ := relayCases moved
    obtain ⟨_,moved⟩ := Option.ite_none_left_eq_some.mp moved
    cases Option.some.inj moved
    refine relayLine line here rfl rfl ?_
    intro before
    rw [before,Bool.true_or]
  | joins =>
    obtain ⟨r,here,moved⟩ := relayCases moved
    obtain ⟨through,moved⟩ := Option.ite_none_right_eq_some.mp moved
    cases Option.some.inj moved
    exact joinLine line here through.2
  | timer =>
    obtain ⟨r,here,moved⟩ := relayCases moved
    exact timerLine line here moved

theorem startLine (now : Nat) : Line (start now) :=
  .of rfl rfl (by show 0 < _; decide) trivial

theorem runLine {now : Nat} (reach : Machine.Reach (step cfg) Machine.Always (start now) s) : Line s :=
  Machine.reachInvariant (startLine now) (fun line _ moved => stepLine line moved) reach

end Lines

/- The failure was handed to `emit_pre_auth_failure`. -/
def Phase.FellBack : Phase → Prop
  | .reading _ _ _ => False
  | .judging _ _ => False
  | .served => False
  | _ => True

/- What the server and the endpoint do while nothing fails. -/
def Forwards : Label → Prop
  | .reads _ => True
  | .eof => True
  | .opens how => how = .connected
  | .writes _ => True
  | _ => False

structure Behind (s : State) : Prop where
  line : Line s
  unfailed : s.failed = false
  unidled : s.idled = false
  fell : s.phase.FellBack
  short : s.written ≠ s.sent

def rank (s : State) : Nat :=
  s.unread.length + (s.sent.length - s.written.length) + match s.phase with
  | .fallback _ _ => 1
  | _ => 0

section Forwarded
variable {cfg : Config} {s t : State}

theorem Behind.unended (behind : Behind s) {r : Relay} (here : s.phase = .relaying r) :
    (r.forth = .reading ∧ s.unread ≠ []) ∨ ∃ n done, r.forth = .writing n done := by
  obtain ⟨line,unfailed,_,_,short⟩ := behind
  have ends := line.ends
  unfold State.Ends at ends
  rw [here] at ends
  have written (held : r.held = some []) (empty : s.unread = []) : s.written = s.sent := by
    have flows := line.flows [] (by rw [here]; exact held)
    rwa [empty,List.append_nil,List.append_nil] at flows
  cases forth : r.forth with
  | reading => exact .inl ⟨rfl,fun empty => short (written (by rw [Relay.held,forth]) empty)⟩
  | writing n done => exact .inr ⟨n,done,rfl⟩
  | shut => exact absurd (written (by rw [Relay.held,forth]) (ends.1 forth unfailed).1) short
  | broken => exact absurd (ends.2 forth) (by rw [unfailed]; decide)

theorem Behind.open' (behind : Behind s) : s.phase ≠ .closing := by
  intro here
  have ends := behind.line.ends
  unfold State.Ends at ends
  rw [here] at ends
  have failed : s.failed = true := ends
  rw [behind.unfailed] at failed
  contradiction

theorem behindEnabled (behind : Behind s) : ∃ label t, Forwards label ∧ step cfg s label = some t := by
  have sized := behind.line.sized
  have ends := behind.line.ends
  have fell := behind.fell
  unfold State.Ends at ends
  cases here : s.phase with
  | reading typ buf filled =>
    rw [here] at fell
    exact fell.elim
  | judging typ rxBuf =>
    rw [here] at fell
    exact fell.elim
  | served =>
    rw [here] at fell
    exact fell.elim
  | fallback reason initialData =>
    have opened : ∃ t, openStep s .connected = some t := by
      unfold openStep
      rw [here]
      exact ⟨_,rfl⟩
    obtain ⟨t,moved⟩ := opened
    exact ⟨.opens .connected,t,rfl,moved⟩
  | forwarding initialData done =>
    rw [here] at sized
    have written : ∃ t, writeStep s 1 = some t := by
      unfold writeStep
      rw [here,if_pos Nat.one_pos]
      exact ⟨_,if_pos sized⟩
    obtain ⟨t,moved⟩ := written
    exact ⟨.writes 1,t,trivial,moved⟩
  | relaying r =>
    rw [here] at sized
    rcases behind.unended here with ⟨waiting,more⟩ | ⟨n,done,writing⟩
    · have read : ∃ t, readStep s 1 = some t := by
        unfold readStep
        rw [if_pos ⟨Nat.one_pos,List.length_pos_iff.mpr more⟩,here]
        exact ⟨_,if_pos ⟨waiting,sized.1⟩⟩
      obtain ⟨t,moved⟩ := read
      exact ⟨.reads 1,t,trivial,moved⟩
    · have inside := sized.2
      rw [writing] at inside
      have written : ∃ t, writeStep s 1 = some t := by
        unfold writeStep
        rw [here,if_pos Nat.one_pos]
        dsimp only
        rw [writing]
        exact ⟨_,if_pos inside.1⟩
      obtain ⟨t,moved⟩ := written
      exact ⟨.writes 1,t,trivial,moved⟩
  | finished =>
    rw [here] at ends
    exact absurd (ends behind.unfailed behind.unidled).1 behind.short
  | closing => exact absurd here behind.open'

theorem behindNext {label : Label} (behind : Behind s) (moved : step cfg s label = some t) (unfailed : t.failed = s.failed)
    (unidled : t.idled = s.idled) (fell : t.phase.FellBack) (lower : rank t < rank s) :
    t.written = t.sent ∨ (Behind t ∧ rank t < rank s) := by
  by_cases all : t.written = t.sent
  · exact .inl all
  · exact .inr ⟨⟨stepLine behind.line moved,by rw [unfailed,behind.unfailed],by rw [unidled,behind.unidled],fell,all⟩,lower⟩

theorem readLowers {n : Nat} (behind : Behind s) (moved : step cfg s (.reads n) = some t) :
    t.written = t.sent ∨ (Behind t ∧ rank t < rank s) := by
  have fell := behind.fell
  have moving : readStep s n = some t := moved
  unfold readStep at moving
  obtain ⟨⟨positive,available⟩,moving⟩ := Option.ite_none_right_eq_some.mp moving
  dsimp only at moving
  split at moving
  · rename_i here
    rw [here] at fell
    exact fell.elim
  · rename_i r here
    obtain ⟨_,moving⟩ := Option.ite_none_right_eq_some.mp moving
    cases Option.some.inj moving
    refine behindNext behind moved rfl rfl trivial ?_
    unfold rank
    rw [here]
    dsimp only
    rw [List.length_drop]
    omega
  · rename_i here
    exact absurd here behind.open'
  · contradiction

theorem eofStuck (behind : Behind s) (moved : eofStep s = some t) : False := by
  have fell := behind.fell
  unfold eofStep at moved
  obtain ⟨allowed,moved⟩ := Option.ite_none_right_eq_some.mp moved
  obtain ⟨empty,_⟩ := allowed.resolve_left (by rw [behind.unfailed]; decide)
  split at moved
  · rename_i here
    rw [here] at fell
    exact fell
  · rename_i r here
    obtain ⟨waiting,_⟩ := Option.ite_none_right_eq_some.mp moved
    rcases behind.unended here with ⟨_,more⟩ | ⟨n,done,writing⟩
    · exact more empty
    · rw [waiting] at writing
      contradiction
  · contradiction

theorem openLowers (behind : Behind s) (moved : step cfg s (.opens .connected) = some t) :
    t.written = t.sent ∨ (Behind t ∧ rank t < rank s) := by
  have moving : openStep s .connected = some t := moved
  unfold openStep at moving
  split at moving
  · rename_i reason initialData here
    rw [if_pos rfl] at moving
    have before : rank s = s.unread.length + (s.sent.length - s.written.length) + 1 := by rw [rank,here]
    by_cases empty : initialData = []
    · rw [if_pos empty] at moving
      cases Option.some.inj moving
      exact behindNext behind moved rfl rfl trivial (by rw [before]; exact Nat.lt_succ_self _)
    · rw [if_neg empty] at moving
      cases Option.some.inj moving
      exact behindNext behind moved rfl rfl trivial (by rw [before]; exact Nat.lt_succ_self _)
  · contradiction

theorem writtenLowers {bytes : Bytes} {phase : Phase} {n : Nat} (behind : Behind s)
    (moved : step cfg s (.writes n) = some { s with written := s.written ++ bytes, phase := phase }) (size : bytes.length = n)
    (positive : 0 < n) (fell : phase.FellBack) (opened : rank { s with written := s.written ++ bytes, phase := phase } =
      s.unread.length + (s.sent.length - (s.written ++ bytes).length)) :
    s.written ++ bytes = s.sent ∨ (Behind { s with written := s.written ++ bytes, phase := phase } ∧
      rank { s with written := s.written ++ bytes, phase := phase } < rank s) := by
  have front := (stepLine behind.line moved).front.length_le
  dsimp only at front
  refine behindNext behind moved rfl rfl fell ?_
  rw [opened]
  unfold rank
  rw [List.length_append] at front ⊢
  omega

theorem writeLowers {n : Nat} (behind : Behind s) (moved : step cfg s (.writes n) = some t) :
    t.written = t.sent ∨ (Behind t ∧ rank t < rank s) := by
  have moving : writeStep s n = some t := moved
  unfold writeStep at moving
  obtain ⟨positive,moving⟩ := Option.ite_none_right_eq_some.mp moving
  split at moving
  · rename_i initialData done here
    obtain ⟨fits,moving⟩ := Option.ite_none_right_eq_some.mp moving
    have size : (slice initialData done (done + n)).length = n := by rw [sliceLength fits,Nat.add_sub_cancel_left]
    by_cases more : done + n < initialData.length
    · rw [if_pos more] at moving
      cases Option.some.inj moving
      exact writtenLowers behind moved size positive trivial rfl
    · rw [if_neg more] at moving
      cases Option.some.inj moving
      exact writtenLowers behind moved size positive trivial rfl
  · rename_i r here
    split at moving
    · rename_i m done writing
      have sized := behind.line.sized
      rw [here] at sized
      have inside := sized.2
      rw [writing] at inside
      obtain ⟨fits,moving⟩ := Option.ite_none_right_eq_some.mp moving
      have size : (slice r.buf done (done + n)).length = n := by rw [sliceLength (by omega),Nat.add_sub_cancel_left]
      cases Option.some.inj moving
      exact writtenLowers behind moved size positive trivial rfl
    · contradiction
  · contradiction

theorem behindLowers {label : Label} (behind : Behind s) (forwards : Forwards label) (moved : step cfg s label = some t) :
    t.written = t.sent ∨ (Behind t ∧ rank t < rank s) := by
  cases label with
  | reads n => exact readLowers behind moved
  | eof => exact (eofStuck behind moved).elim
  | opens how =>
    cases forwards
    exact openLowers behind moved
  | writes n => exact writeLowers behind moved
  | sends chunk => exact forwards.elim
  | finishes => exact forwards.elim
  | passes time => exact forwards.elim
  | readFails timedOut => exact forwards.elim
  | deadline => exact forwards.elim
  | judges fresh room => exact forwards.elim
  | writeFails => exact forwards.elim
  | answers => exact forwards.elim
  | answersEnd clean => exact forwards.elim
  | joins => exact forwards.elim
  | timer => exact forwards.elim

/- What the endpoint was sent is always a prefix of the client's stream; while neither connection
failed nor idled out it is all of it, or the rest follows. -/
theorem forwardedTransparently (cfg : Config) {now : Nat} (reach : Machine.Reach (step cfg) Machine.Always (start now) s) :
    s.written <+: s.sent ∧
    (s.phase.FellBack → s.failed = false → s.idled = false →
      s.written = s.sent ∨ Machine.Inevitable (step cfg) Forwards (fun _ t => t.written = t.sent) s) ∧
    (s.phase = .finished → s.failed = false → s.idled = false → s.written = s.sent ∧ s.ended = true) := by
  have line := runLine reach
  refine ⟨line.front,?_,?_⟩
  · intro fell unfailed unidled
    by_cases all : s.written = s.sent
    · exact .inl all
    · exact .inr (Machine.inevitableByRank rank behindEnabled behindLowers ⟨line,unfailed,unidled,fell,all⟩)
  · intro here unfailed unidled
    have ends := line.ends
    unfold State.Ends at ends
    rw [here] at ends
    exact ends unfailed unidled

end Forwarded

def oversizedRun : List Label :=
  [.sends [0x16,0x03],.reads 2,.sends [0x03,0x41,0x01,7,8,9],.reads 3,.judges (fun _ _ => true) true,.opens .connected,
    .writes 4,.writes 1,.reads 2,.writes 1,.answers,.writes 1,.reads 1,.writes 1,.finishes,.eof,.answersEnd true,.joins]

def sampleConfig : Config := ⟨sampleHash,fun _ _ => true,[List.replicate 32 1],['a']⟩

def wholeStream (bytes : Bytes) (s : State) : Bool :=
  s.phase = .finished ∧ s.failed = false ∧ s.idled = false ∧ s.sent = bytes

theorem oversizedForwarded : ∃ s, Machine.Reach (step sampleConfig) Machine.Always (start 0) s ∧
    s.sent = [0x16,0x03,0x03,0x41,0x01,7,8,9] ∧ s.written = s.sent := by
  have ran : (Machine.checked (step sampleConfig) Machine.Always (start 0) oversizedRun).any
      (wholeStream [0x16,0x03,0x03,0x41,0x01,7,8,9]) = true := by decide +kernel
  obtain ⟨s,reach,done⟩ := Machine.checkedReaches ran
  obtain ⟨finished,unfailed,unidled,sent⟩ := of_decide_eq_true done
  exact ⟨s,reach,sent,((forwardedTransparently sampleConfig reach).2.2 finished unfailed unidled).1⟩

end KanoTls.Fallback
