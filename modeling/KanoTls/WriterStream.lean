import KanoTls.WriterProgress

/-! The stream the peer reads. In a run without an I/O error, whenever the writer waits
for a request or has ended, its bytes are whole frames: those of the requests it took,
each once, and its own. -/
namespace KanoTls.Writer
open Wire Shaper Uot State

abbrev Faultless (s : State) (a : Action) : Prop := faultless s a = true

/- The peer reads `bytes`. What is not there yet waits in a channel or was refused, and
what was not submitted is padding or the client's one SETTINGS frame. -/
structure Reads (client : Bool) (s : State) (frames extras : List Frame) (refused : List Request) : Prop where
  decoded : decodeAll (emitted s) = (frames,[])
  once : (frames ++ framesOf s.queue ++ framesOf refused).Perm (framesOf s.sent ++ extras)
  extra : extras.filter (fun f => f.cmd != cmdPadding) = if client && !s.settings then [settingsFrame] else []
  told : ∀ r ∈ refused, (r.id,false) ∈ s.answers
  closed : refused ≠ [] → s.closeRequested = true

section Run
variable {client off : Bool} {script : List ScriptRule} {stop : Nat} {s : State}

theorem framesKept (run : Run Faultless client off script stop s) :
    ∃ x extras refused, Held s x ∧ Tally client s x extras refused ∧ Tidy s := by
  refine Machine.reachInvariant (I := fun s => ∃ x extras refused, Held s x ∧ Tally client s x extras refused ∧ Tidy s)
    ?_ ?_ run
  · refine ⟨_,[],[],startLine client off script stop,⟨fun _ => rfl,?_,id,?_,?_⟩,tidyFlushed rfl⟩
    · cases client <;> rfl
    · intro r member
      contradiction
    · intro some'
      contradiction
  · rintro s a t ⟨x,extras,refused,held,tally,tidy⟩ clean moved
    obtain ⟨y,held',turn⟩ := stepLine held clean moved
    obtain ⟨extras',refused',tally'⟩ := tallyStep tally held (grown moved) turn
    exact ⟨y,extras',refused',held',tally',tidyStep tidy held clean moved⟩

theorem stocked (run : Run Faultless client off script stop s) : Stock s := by
  refine Machine.reachInvariant ?_ ?_ run
  · refine ⟨?_,?_⟩
    · intro r member
      contradiction
    · intro p member
      contradiction
  · intro s a t stock _ moved
    exact stockStep stock moved

theorem streamPreserved (run : Run Faultless client off script stop s) :
    (s.pc = .select ∨ s.pc = .done → ∃ frames extras refused, Reads client s frames extras refused) ∧
    (AtRest s ∨ s.pc = .done → s.buffer = []) ∧
    (s.pc.live = true → s.closeRequested = false → (∀ r ∈ s.sent, ∀ p ∈ r.packets, Recordable p) →
      AtRest s ∨ Machine.Inevitable cleanStep (fun _ => True) (fun _ t => AtRest t) s) := by
  obtain ⟨x,extras,refused,held,tally,tidy⟩ := framesKept run
  refine ⟨?_,?_,?_⟩
  · intro idle
    have was : drainOf s.pc = none ∧ handOf s.pc = [] ∧ afterOf s.pc = [] := by
      rcases idle with here | here <;> rw [here] <;> exact ⟨rfl,rfl,rfl⟩
    obtain ⟨_,noRest,whole⟩ := held.whole was.1
    refine ⟨x.log,extras,refused,?_,?_,tally.extra,tally.told,tally.closed⟩
    · rw [whole,decodeAllEncoded]
    · rw [List.perm_iff_count]
      intro f
      have count := tally.count f
      rw [was.2.1,was.2.2,noRest] at count
      simp only [List.count_append,List.count_nil] at count ⊢
      omega
  · rintro (⟨here,empty⟩ | here)
    · exact tidy.waiting here empty
    · exact tidy.gone (.inr here)
  · intro live opened all
    by_cases rest : AtRest s
    · exact .inl rest
    · exact .inr (comesToRest held (stocked run) all opened live rest)

end Run

theorem oneFits : 1 < 2^32 := by decide
theorem twoFits : 2 < 2^32 := by decide

def synOne : Frame := ⟨cmdSyn,1,[],oneFits,Nat.zero_le _⟩
def pshOf (sid : Nat) (fits : sid < 2^32) : Frame := ⟨cmdPsh,sid,[7,7,7],fits,by decide⟩
def finOf (sid : Nat) (fits : sid < 2^32) : Frame := ⟨cmdFin,sid,[],fits,Nat.zero_le _⟩

def firstOpen : List Action :=
  [.send true false [[synOne]],.control ⟨0,false,0,false⟩,.packet [(100,100)] none,.packet [(100,100)] none,.ready,
    .flush true]

def opensAtRest (s : State) : Bool :=
  decide (s.pc = .select) && s.queue.isEmpty && decide (decodeAll (emitted s) = ([settingsFrame,synOne],[])) &&
    decide (framesOf s.sent = [synOne])

theorem firstOpenReached : ∃ s, Run Faultless true false [] 0 s ∧ AtRest s ∧
    decodeAll (emitted s) = ([settingsFrame,synOne],[]) ∧ framesOf s.sent = [synOne] := by
  have ran : (Machine.checked step Faultless (start true false [] 0) firstOpen).any opensAtRest = true := rfl
  obtain ⟨s,run,here⟩ := Machine.checkedReaches ran
  simp only [opensAtRest,Bool.and_eq_true,decide_eq_true_eq,List.isEmpty_iff] at here
  obtain ⟨⟨⟨select,empty⟩,decoded⟩,sent⟩ := here
  exact ⟨s,run,⟨select,empty⟩,decoded,sent⟩

theorem firstOpenPreserved : ∃ s, Run Faultless true false [] 0 s ∧ AtRest s ∧ s.buffer = [] ∧
    ∃ frames extras refused, Reads true s frames extras refused := by
  obtain ⟨s,run,rest,_⟩ := firstOpenReached
  obtain ⟨reads,flushed,_⟩ := streamPreserved run
  exact ⟨s,run,rest,flushed (.inl rest),reads (.inl rest.1)⟩

theorem settingsUnsubmitted : ∃ s, Run Faultless true false [] 0 s ∧ AtRest s ∧
    ¬ ∃ frames pads, decodeAll (emitted s) = (frames,[]) ∧ frames.Perm (framesOf s.sent ++ pads) ∧ Pads pads := by
  obtain ⟨s,run,rest,decoded,sent⟩ := firstOpenReached
  refine ⟨s,run,rest,?_⟩
  rintro ⟨frames,pads,read,perm,padding⟩
  rw [decoded] at read
  cases read
  have member := perm.subset (List.mem_cons_self (a := settingsFrame))
  rw [sent] at member
  rcases List.mem_append.mp member with submitted | padded
  · rw [List.mem_singleton] at submitted
    exact absurd submitted (by decide)
  · exact absurd (padding _ padded) (by decide)

end KanoTls.Writer
