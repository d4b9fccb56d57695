import KanoTls.Teardown

/-! The side that opened the stream. -/
namespace KanoTls.Teardown
open Client

def WritePc.finishing : WritePc → Bool
  | .finWait _ | .expireWait | .failRemove true | .failForget true => true
  | _ => false

def WritePc.finAhead : WritePc → Bool
  | .submit _ (.closeWrite _) | .opened (.closeWrite _) | .finSend _ | .expireSend => true
  | _ => false

def WritePc.sound : WritePc → Bool
  | .submit _ _ | .opened _ | .finSend _ | .synack | .expireSend => true
  | _ => false

def WritePc.sent : WritePc → Bool
  | .opened _ | .finSend _ | .synack | .expireSend => true
  | _ => false

def WritePc.removed : WritePc → Bool
  | .closeForget => true
  | _ => false

def Cleanup.finAhead : Cleanup → Bool
  | .waitOpen owes => owes
  | .fin => true
  | .remove => false

structure ClientInv (s : Client) : Prop where
  once : fins s.handed ≤ 1
  settled : 0 < fins s.handed → s.writeClosed = true ∨ s.openFailed = true ∨ s.write.finishing = true ∨
    s.readHalf = false ∧ s.writeHalf = false
  ahead : s.write.finAhead = true → s.writeClosed = false
  sound : s.write.sound = true → s.openFailed = false
  syn : 0 < fins s.handed → Cmd.syn ∈ s.handed
  opened : s.opening = .returned → s.deferred = false → Cmd.syn ∈ s.handed
  sent : s.write.sent = true → s.deferred = false
  owner : s.write ≠ .idle → s.writeHalf = true
  halves : s.readHalf = true ∨ s.writeHalf = true → s.opening = .returned ∧ s.cleanup = none
  snapshot : s.opening = .returned → s.writeHalf = false →
    s.writeEnd = some ⟨s.deferred || s.openFailed,s.writeClosed,!s.deferred && s.early⟩
  cleanup : ∀ c, s.cleanup = some c → c.finAhead = true →
    fins s.handed = 0 ∧ Cmd.syn ∈ s.handed ∧ s.opening = .returned
  closed : s.fullyClosed = true → s.registered = true → ∃ closing, s.write = .light closing
  left : s.gone = true → s.registered = true → s.cleanup ≠ none
  fresh : s.opening ≠ .returned → fins s.handed = 0
  waiting : s.opening ≠ .returned → s.opening ≠ .gone → s.cleanup = none ∧ s.fullyClosed = false
  removed : s.write.removed = true → s.registered = false

section
variable {s t : Client}

theorem goneIff : s.gone = true ↔
    s.opening = .gone ∨ s.opening = .returned ∧ s.readHalf = false ∧ s.writeHalf = false := by
  simp only [gone,Bool.or_eq_true,Bool.and_eq_true,decide_eq_true_eq,Bool.not_eq_eq_eq_not,Bool.not_true,and_assoc]

theorem goneNot (opening : s.opening = .returned) (half : s.readHalf = true ∨ s.writeHalf = true) : ¬ s.gone = true := by
  intro gone
  rcases goneIff.mp gone with none | ⟨_,read,write⟩
  · rw [opening] at none
    contradiction
  · rw [read,write] at half
    rcases half with half | half <;> contradiction

structure Alike (s t : Client) : Prop where
  handed : t.handed = s.handed
  deferred : t.deferred = s.deferred
  opening : t.opening = s.opening
  readHalf : t.readHalf = s.readHalf
  writeHalf : t.writeHalf = s.writeHalf
  cleanup : t.cleanup = s.cleanup

theorem moveInv (inv : ClientInv s) (busy : s.writeHalf = true) (alike : Alike s t)
    (raised : s.writeClosed = true ∨ s.openFailed = true ∨ s.write.finishing = true →
      t.writeClosed = true ∨ t.openFailed = true ∨ t.write.finishing = true)
    (ahead : t.write.finAhead = true → t.writeClosed = false) (sound : t.write.sound = true → t.openFailed = false)
    (sent : t.write.sent = true → s.deferred = false)
    (closed : t.fullyClosed = true → t.registered = true → ∃ closing, t.write = .light closing)
    (removed : t.write.removed = true → t.registered = false) : ClientInv t := by
  obtain ⟨handed,deferred,opening,readHalf,writeHalf,kept⟩ := alike
  have alive : t.writeHalf = true := writeHalf.trans busy
  have open' : t.opening = .returned := opening.trans (inv.halves (.inr busy)).1
  refine ⟨?_,?_,ahead,sound,?_,?_,?_,fun _ => alive,?_,?_,?_,closed,?_,fun before => absurd open' before,
    fun before => absurd open' before,removed⟩
  · rw [handed]
    exact inv.once
  · intro some'
    rw [handed] at some'
    have was : s.writeClosed = true ∨ s.openFailed = true ∨ s.write.finishing = true := by
      rcases inv.settled some' with flag | flag | pc | ⟨_,gone⟩
      · exact .inl flag
      · exact .inr (.inl flag)
      · exact .inr (.inr pc)
      · rw [gone] at busy
        contradiction
    exact (raised was).imp_right (Or.imp_right .inl)
  · rw [handed]
    exact inv.syn
  · rw [opening,deferred,handed]
    exact inv.opened
  · rw [deferred]
    exact sent
  · rw [readHalf,writeHalf,opening,kept]
    exact inv.halves
  · intro _ dead
    rw [alive] at dead
    contradiction
  · rw [kept,handed,opening]
    exact inv.cleanup
  · intro gone
    exact absurd gone (goneNot open' (.inr alive))

theorem handFinInv (inv : ClientInv s) (ahead : s.write.finAhead = true) (sent : s.write.sent = true) {pc : WritePc}
    (next : pc.finishing = true) : ClientInv ((s.hand .fin).goto pc) := by
  have sound : s.write.sound = true := by
    revert sent
    cases s.write with
    | opened after | finSend closing | synack | expireSend => exact fun _ => rfl
    | _ => exact fun here => absurd here Bool.false_ne_true
  have quiet : pc.finAhead = false ∧ pc.sound = false ∧ pc.sent = false ∧ pc.removed = false := by
    revert next
    cases pc with
    | finWait closing | expireWait | failRemove expired | failForget expired => exact fun _ => ⟨rfl,rfl,rfl,rfl⟩
    | _ => exact fun here => absurd here Bool.false_ne_true
  have busy : s.writeHalf = true := by
    apply inv.owner
    intro idle
    rw [idle] at ahead
    contradiction
  obtain ⟨open',noCleanup⟩ := inv.halves (.inr busy)
  have syn := inv.opened open' (inv.sent sent)
  have none : fins s.handed = 0 := by
    apply Nat.eq_zero_of_not_pos
    intro some'
    rcases inv.settled some' with flag | flag | pc | ⟨_,gone⟩
    · rw [inv.ahead ahead] at flag
      contradiction
    · rw [inv.sound sound] at flag
      contradiction
    · revert ahead pc
      cases s.write with
      | finWait closing | expireWait | failRemove expired | failForget expired =>
        exact fun here => absurd here Bool.false_ne_true
      | _ => exact fun _ here => absurd here Bool.false_ne_true
    · rw [gone] at busy
      contradiction
  have one : fins (s.handed ++ [Cmd.fin]) = 1 := by rw [finsHandFin,none]
  have syn' : Cmd.syn ∈ s.handed ++ [Cmd.fin] := List.mem_append_left _ syn
  refine ⟨Nat.le_of_eq one,fun _ => .inr (.inr (.inl next)),?_,?_,fun _ => syn',fun _ _ => syn',?_,fun _ => busy,?_,?_,?_,
    ?_,?_,fun before => absurd open' before,fun before => absurd open' before,?_⟩
  · intro here
    rw [show pc.finAhead = true from here] at quiet
    exact absurd quiet.1.symm Bool.false_ne_true
  · intro here
    rw [show pc.sound = true from here] at quiet
    exact absurd quiet.2.1.symm Bool.false_ne_true
  · intro here
    rw [show pc.sent = true from here] at quiet
    exact absurd quiet.2.2.1.symm Bool.false_ne_true
  · exact inv.halves
  · intro _ dead
    rw [show s.writeHalf = false from dead] at busy
    contradiction
  · intro c here
    rw [show s.cleanup = some c from here] at noCleanup
    contradiction
  · intro full registered
    obtain ⟨closing,here⟩ := inv.closed full registered
    rw [here] at ahead
    contradiction
  · intro gone
    exact absurd gone (goneNot open' (.inr busy))
  · intro here
    rw [show pc.removed = true from here] at quiet
    exact absurd quiet.2.2.2.symm Bool.false_ne_true

theorem submitInv (inv : ClientInv s) {early : Bool} {next : AfterOpen} (here : s.write = .submit early next) :
    ClientInv (({s with deferred := false,early := early}.hand .syn).goto (.opened next)) := by
  have busy : s.writeHalf = true := by
    apply inv.owner
    rw [here]
    exact WritePc.noConfusion
  have sound : s.openFailed = false := by
    apply inv.sound
    rw [here]
    rfl
  obtain ⟨open',noCleanup⟩ := inv.halves (.inr busy)
  have syn : Cmd.syn ∈ s.handed ++ [Cmd.syn] := List.mem_append_right _ List.mem_cons_self
  have allowed : (WritePc.opened next).finAhead = true → s.writeClosed = false := by
    intro ahead
    apply inv.ahead
    rw [here]
    cases next with
    | closeWrite closing => rfl
    | write | synack => contradiction
  have same : fins (s.handed ++ [Cmd.syn]) = fins s.handed := finsHandSyn s.handed
  refine ⟨?_,?_,allowed,fun _ => sound,fun _ => syn,fun _ _ => syn,fun _ => rfl,fun _ => busy,inv.halves,?_,?_,?_,?_,
    fun before => absurd open' before,fun before => absurd open' before,fun here => absurd here Bool.false_ne_true⟩
  · exact Nat.le_trans (Nat.le_of_eq same) inv.once
  · intro some'
    rcases inv.settled (Nat.lt_of_lt_of_eq some' same) with flag | flag | pc | ⟨_,gone⟩
    · exact .inl flag
    · exact .inr (.inl flag)
    · rw [here] at pc
      contradiction
    · rw [gone] at busy
      contradiction
  · intro _ dead
    rw [show s.writeHalf = false from dead] at busy
    contradiction
  · intro c kept
    rw [show s.cleanup = some c from kept] at noCleanup
    contradiction
  · intro full registered
    obtain ⟨closing,light⟩ := inv.closed full registered
    rw [here] at light
    contradiction
  · intro gone
    exact absurd gone (goneNot open' (.inr busy))

theorem unregisterInv (inv : ClientInv s) : ClientInv s.unregister := by
  refine ⟨inv.once,inv.settled,inv.ahead,inv.sound,inv.syn,inv.opened,inv.sent,inv.owner,inv.halves,inv.snapshot,
    inv.cleanup,?_,?_,inv.fresh,inv.waiting,fun _ => rfl⟩
  · intro _ registered
    contradiction
  · intro _ registered
    contradiction

theorem beforeInv (inv : ClientInv s) (early : s.opening ≠ .returned) (handed : t.handed = s.handed)
    (halves : t.readHalf = s.readHalf ∧ t.writeHalf = s.writeHalf ∧ t.write = s.write) (still : t.opening ≠ .returned)
    (full : t.fullyClosed = false) (removes : ∀ c, t.cleanup = some c → c = .remove)
    (left : t.opening = .gone → t.registered = true → t.cleanup ≠ none)
    (waiting : t.opening ≠ .gone → t.cleanup = none) : ClientInv t := by
  obtain ⟨read,writeHalf,write⟩ := halves
  have none : fins t.handed = 0 := by
    rw [handed]
    exact inv.fresh early
  have noFin : ¬ 0 < fins t.handed := by
    rw [none]
    exact Nat.lt_irrefl 0
  have alone : ¬ (s.readHalf = true ∨ s.writeHalf = true) := fun half => early (inv.halves half).1
  have idle : t.write = .idle := by
    rw [write]
    by_contra busy
    exact alone (.inr (inv.owner busy))
  refine ⟨?_,fun some' => absurd some' noFin,?_,?_,fun some' => absurd some' noFin,fun here => absurd here still,?_,?_,?_,
    fun here => absurd here still,?_,?_,?_,fun _ => none,fun _ going => ⟨waiting going,full⟩,?_⟩
  · rw [none]
    exact Nat.zero_le 1
  · rw [idle]
    intro here
    contradiction
  · rw [idle]
    intro here
    contradiction
  · rw [idle]
    intro here
    contradiction
  · intro busy
    exact absurd idle busy
  · rw [read,writeHalf]
    intro half
    exact absurd half alone
  · intro c here ahead
    rw [removes c here] at ahead
    contradiction
  · rw [full]
    intro here
    contradiction
  · intro gone
    rcases goneIff.mp gone with here | ⟨here,_⟩
    · exact left here
    · exact absurd here still
  · rw [idle]
    intro here
    contradiction

theorem guardInv (inv : ClientInv s) (early : s.opening ≠ .returned) (going : s.opening ≠ .gone) {lockFree runtime : Bool}
    (able : (lockFree || runtime) = true) : ClientInv (s.guardDropped lockFree runtime) := by
  obtain ⟨unfinished,notFull⟩ := inv.waiting early going
  unfold guardDropped
  split
  · refine beforeInv inv early rfl ⟨rfl,rfl,rfl⟩ OpenPc.noConfusion notFull ?_ ?_ ?_
    · intro c here
      rw [show s.cleanup = some c from here] at unfinished
      contradiction
    · intro _ registered
      contradiction
    · intro here
      exact absurd rfl here
  · split
    · refine beforeInv inv early rfl ⟨rfl,rfl,rfl⟩ OpenPc.noConfusion notFull ?_ ?_ ?_
      · intro c here
        exact (Option.some.inj here).symm
      · intro _ _ here
        contradiction
      · intro here
        exact absurd rfl here
    · rename_i locked noRuntime
      rw [Bool.or_eq_true] at able
      rcases able with able | able <;> contradiction

theorem returnedInv (inv : ClientInv s) (early : s.opening ≠ .returned) (going : s.opening ≠ .gone)
    (same : fins t.handed = fins s.handed) (idle : t.write = s.write) (opened : t.deferred = false → Cmd.syn ∈ t.handed)
    (kept : t.cleanup = s.cleanup) (full : t.fullyClosed = s.fullyClosed) : ClientInv t.returned := by
  obtain ⟨unfinished,notFull⟩ := inv.waiting early going
  have none : fins t.handed = 0 := same.trans (inv.fresh early)
  have noFin : ¬ 0 < fins t.handed := by
    rw [none]
    exact Nat.lt_irrefl 0
  have here : t.returned.write = .idle := by
    rw [show t.returned.write = s.write from idle]
    by_contra busy
    exact early (inv.halves (.inr (inv.owner busy))).1
  refine ⟨?_,fun some' => absurd some' noFin,?_,?_,fun some' => absurd some' noFin,fun _ => opened,?_,fun _ => rfl,
    fun _ => ⟨rfl,kept.trans unfinished⟩,?_,?_,?_,?_,fun before => absurd rfl before,fun before => absurd rfl before,
    ?_⟩
  · rw [returned,none]
    exact Nat.zero_le 1
  · rw [here]
    intro ahead
    contradiction
  · rw [here]
    intro sound
    contradiction
  · rw [here]
    intro sent
    contradiction
  · intro _ dead
    contradiction
  · intro c some'
    rw [show t.cleanup = some c from some',unfinished] at kept
    contradiction
  · intro closed
    rw [show t.fullyClosed = true from closed,notFull] at full
    contradiction
  · intro gone
    exact absurd gone (goneNot rfl (.inl rfl))
  · rw [here]
    intro removed
    contradiction

theorem endedInv (open' : t.opening = .returned) (idle : t.write = .idle) (halves : t.readHalf = false ∧ t.writeHalf = false)
    (snapshot : t.writeEnd = some ⟨t.deferred || t.openFailed,t.writeClosed,!t.deferred && t.early⟩)
    (once : fins t.handed ≤ 1) (syn : 0 < fins t.handed → Cmd.syn ∈ t.handed)
    (opened : t.deferred = false → Cmd.syn ∈ t.handed)
    (cleanup : ∀ c, t.cleanup = some c → c.finAhead = true → fins t.handed = 0 ∧ Cmd.syn ∈ t.handed)
    (closed : t.fullyClosed = true → t.registered = false) (left : t.registered = true → t.cleanup ≠ none) :
    ClientInv t := by
  refine ⟨once,fun _ => .inr (.inr (.inr halves)),?_,?_,syn,fun _ => opened,?_,fun busy => absurd idle busy,?_,
    fun _ _ => snapshot,?_,?_,fun _ => left,fun before => absurd open' before,fun before => absurd open' before,?_⟩
  · rw [idle]
    intro here
    contradiction
  · rw [idle]
    intro here
    contradiction
  · rw [idle]
    intro here
    contradiction
  · rw [halves.1,halves.2]
    intro half
    rcases half with half | half <;> contradiction
  · intro c here ahead
    obtain ⟨none,syn⟩ := cleanup c here ahead
    exact ⟨none,syn,open'⟩
  · intro full registered
    rw [closed full] at registered
    contradiction
  · rw [idle]
    intro here
    contradiction

theorem lastDropInv (inv : ClientInv s) (half : s.readHalf = true ∨ s.writeHalf = true) (idle : s.write = .idle)
    (alike : t.handed = s.handed ∧ t.opening = s.opening ∧ t.write = s.write ∧ t.deferred = s.deferred ∧
      t.openFailed = s.openFailed ∧ t.writeClosed = s.writeClosed ∧ t.registered = s.registered)
    (full : t.fullyClosed = s.fullyClosed) (halves : t.readHalf = false ∧ t.writeHalf = false) (kept : t.cleanup = s.cleanup)
    (snapshot : t.writeEnd = some ⟨t.deferred || t.openFailed,t.writeClosed,!t.deferred && t.early⟩)
    {runtime lockFree sent : Bool} (able : (s.fullyClosed || runtime) = true) :
    ClientInv (t.halfDropped runtime lockFree sent) := by
  obtain ⟨handed,opening,write,deferred,openFailed,writeClosed,registered⟩ := alike
  obtain ⟨open',none⟩ := inv.halves half
  have once : fins t.handed ≤ 1 := by
    rw [handed]
    exact inv.once
  have syn : 0 < fins t.handed → Cmd.syn ∈ t.handed := by
    rw [handed]
    exact inv.syn
  have opened : t.deferred = false → Cmd.syn ∈ t.handed := by
    rw [deferred,handed]
    exact inv.opened open'
  have unclosed : t.fullyClosed = true → t.registered = false := by
    rw [full,registered]
    intro closed
    by_contra still
    obtain ⟨closing,light⟩ := inv.closed closed (eq_true_of_ne_false still)
    rw [idle] at light
    contradiction
  unfold halfDropped
  rw [halves.1,halves.2,Bool.or_self,if_neg Bool.false_ne_true]
  split
  · rename_i closed
    refine endedInv (opening.trans open') (write.trans idle) halves snapshot once syn opened ?_ unclosed ?_
    · intro c here
      rw [here,none] at kept
      contradiction
    · rw [unclosed closed]
      intro here
      contradiction
  · rename_i notFull
    have running : runtime = true := by
      rw [Bool.or_eq_true,← full] at able
      exact able.resolve_left notFull
    rw [snapshot,Option.getD_some,running]
    unfold lastHalfDropped
    dsimp only
    split
    · refine endedInv (opening.trans open') (write.trans idle) halves snapshot once syn opened ?_ unclosed ?_
      · intro c here ahead
        cases Option.some.inj here
        contradiction
      · intro _ here
        contradiction
    · rename_i sent'
      rw [Bool.or_eq_true,not_or,Bool.not_eq_true,Bool.not_eq_true] at sent'
      have syn' := opened sent'.1
      rw [if_pos rfl]
      cases here : t.writeClosed with
      | true =>
        rw [here] at snapshot
        simp only [Bool.not_true,Bool.false_and,if_neg Bool.false_ne_true]
        refine endedInv (opening.trans open') (write.trans idle) halves (here ▸ snapshot) once syn opened ?_ unclosed ?_
        · intro c cleans ahead
          cases Option.some.inj cleans
          split at ahead <;> contradiction
        · intro _ cleans
          contradiction
      | false =>
        have zero : fins t.handed = 0 := by
          rw [handed]
          apply Nat.eq_zero_of_not_pos
          intro some'
          rcases inv.settled some' with flag | flag | pc | ⟨read,write⟩
          · rw [← writeClosed,here] at flag
            contradiction
          · rw [← openFailed,sent'.2] at flag
            contradiction
          · rw [idle] at pc
            contradiction
          · rw [read,write] at half
            rcases half with half | half <;> contradiction
        rw [here] at snapshot
        simp only [Bool.not_false,Bool.true_and]
        split
        · rename_i queued
          rw [Bool.and_eq_true,Bool.not_eq_eq_eq_not,Bool.not_true] at queued
          have one : fins (t.handed ++ [Cmd.fin]) = 1 := by rw [finsHandFin,zero]
          have more : Cmd.syn ∈ t.handed ++ [Cmd.fin] := List.mem_append_left _ syn'
          refine endedInv (opening.trans open') (write.trans idle) halves (here ▸ snapshot) (Nat.le_of_eq one) (fun _ => more)
            (fun _ => more) ?_ unclosed ?_
          · intro c cleans ahead
            cases Option.some.inj cleans
            rw [queued.1,queued.2] at ahead
            contradiction
          · intro _ cleans
            contradiction
        · refine endedInv (opening.trans open') (write.trans idle) halves (here ▸ snapshot) once syn opened ?_ unclosed ?_
          · intro c _ _
            exact ⟨zero,syn'⟩
          · intro _ cleans
            contradiction

theorem cleanupInv (inv : ClientInv s) {ok : Bool} (moved : s.cleanupStep ok = some t) : ClientInv t := by
  unfold cleanupStep at moved
  have alone : ∀ {c}, s.cleanup = some c → s.readHalf = false ∧ s.writeHalf = false := by
    intro c here
    constructor <;> by_contra half
    · rw [(inv.halves (.inl (eq_true_of_ne_false half))).2] at here
      contradiction
    · rw [(inv.halves (.inr (eq_true_of_ne_false half))).2] at here
      contradiction
  have idle : ∀ {c}, s.cleanup = some c → s.write = .idle := by
    intro c here
    by_contra busy
    rw [(inv.halves (.inr (inv.owner busy))).2] at here
    contradiction
  -- the task goes on, and hands nothing over
  have next : ∀ {c c' : Cleanup}, s.cleanup = some c → (c'.finAhead = true → c.finAhead = true) →
      ClientInv {s with cleanup := some c'} := by
    intro c c' here less
    refine ⟨inv.once,inv.settled,inv.ahead,inv.sound,inv.syn,inv.opened,inv.sent,inv.owner,?_,inv.snapshot,?_,inv.closed,?_,
      inv.fresh,?_,inv.removed⟩
    · intro half
      rw [(alone here).1,(alone here).2] at half
      rcases half with half | half <;> contradiction
    · intro d same ahead
      cases Option.some.inj same
      exact inv.cleanup c here (less ahead)
    · intro _ _ same
      contradiction
    · intro early going
      rw [(inv.waiting early going).1] at here
      contradiction
  split at moved
  · contradiction
  · rename_i owes here
    cases Option.some.inj moved
    refine next here ?_
    cases owes with
    | true => exact fun _ => rfl
    | false => exact fun ahead => ahead
  · rename_i here
    cases Option.some.inj moved
    split
    · obtain ⟨zero,syn,open'⟩ := inv.cleanup .fin here rfl
      have one : fins (s.handed ++ [Cmd.fin]) = 1 := by rw [finsHandFin,zero]
      have more : Cmd.syn ∈ s.handed ++ [Cmd.fin] := List.mem_append_left _ syn
      have half := alone here
      refine endedInv open' (idle here) half (inv.snapshot open' half.2) (Nat.le_of_eq one) (fun _ => more) (fun _ => more) ?_
        ?_ ?_
      · intro c same ahead
        cases Option.some.inj same
        contradiction
      · intro full
        by_contra still
        obtain ⟨closing,light⟩ := inv.closed full (eq_true_of_ne_false still)
        rw [idle here] at light
        contradiction
      · intro _ same
        contradiction
    · exact next here (fun ahead => absurd ahead Bool.false_ne_true)
  · rename_i here
    cases Option.some.inj moved
    refine ⟨inv.once,inv.settled,inv.ahead,inv.sound,inv.syn,inv.opened,inv.sent,inv.owner,?_,inv.snapshot,?_,?_,?_,
      inv.fresh,?_,fun _ => rfl⟩
    · intro half
      exact ⟨(inv.halves half).1,rfl⟩
    · intro c same
      contradiction
    · intro _ registered
      contradiction
    · intro _ registered
      contradiction
    · intro early going
      exact ⟨rfl,(inv.waiting early going).2⟩

theorem gotoInv (inv : ClientInv s) (busy : s.writeHalf = true) (quiet : s.write.finishing = false)
    (dark : ∀ closing, s.write ≠ .light closing) {pc : WritePc} (ahead : pc.finAhead = true → s.writeClosed = false)
    (sound : pc.sound = true → s.openFailed = false) (sent : pc.sent = true → s.deferred = false)
    (removed : pc.removed = false) : ClientInv (s.goto pc) := by
  refine moveInv inv busy ⟨rfl,rfl,rfl,rfl,rfl,rfl⟩ ?_ ahead sound sent ?_
    (fun here => absurd (here.symm.trans removed) Bool.noConfusion)
  · intro was
    rcases was with flag | flag | pc
    · exact .inl flag
    · exact .inr (.inl flag)
    · rw [quiet] at pc
      contradiction
  · intro full registered
    obtain ⟨closing,light⟩ := inv.closed full registered
    exact absurd light (dark closing)

theorem startInv (inv : ClientInv s) (busy : s.writeHalf = true) (idle : s.write = .idle) {pc : WritePc}
    (ahead : pc.finAhead = true → s.writeClosed = false) (sound : pc.sound = true → s.openFailed = false)
    (sent : pc.sent = true → s.deferred = false) (removed : pc.removed = false) : ClientInv (s.goto pc) := by
  refine gotoInv inv busy ?_ ?_ ahead sound sent removed
  · rw [idle]
    rfl
  · rw [idle]
    exact fun _ => WritePc.noConfusion

theorem sendOpenInv (inv : ClientInv s) (busy : s.writeHalf = true) (idle : s.write = .idle) (opened : s.openFailed = false)
    {early : Bool} {next : AfterOpen} (ahead : (WritePc.opened next).finAhead = true → s.writeClosed = false) :
    ClientInv (s.sendOpen early next) := by
  unfold sendOpen
  split
  · refine startInv inv busy idle ?_ (fun _ => opened) (fun here => absurd here Bool.false_ne_true) rfl
    cases next with
    | closeWrite closing => exact fun _ => ahead rfl
    | write | synack => exact fun here => absurd here Bool.false_ne_true
  · rename_i sent
    exact startInv inv busy idle ahead (fun _ => opened) (fun _ => Bool.eq_false_iff.mpr sent) rfl

theorem lightInv (inv : ClientInv s) (busy : s.writeHalf = true) {closing : Bool} : ClientInv (s.lightTeardown closing) := by
  refine moveInv inv busy ⟨rfl,rfl,rfl,rfl,rfl,rfl⟩ (fun _ => .inl rfl) ?_ ?_ ?_ (fun _ _ => ⟨closing,rfl⟩) ?_
  · intro here
    contradiction
  · intro here
    contradiction
  · intro here
    contradiction
  · intro here
    contradiction

theorem closeWriteOpenInv (inv : ClientInv s) (busy : s.writeHalf = true) (idle : s.write = .idle)
    (opened : s.writeClosed = false) {closing : Bool} : ClientInv (s.closeWriteOpen closing) := by
  unfold closeWriteOpen
  split
  · exact lightInv inv busy
  · rename_i sent
    rw [Bool.or_eq_true,not_or,Bool.not_eq_true,Bool.not_eq_true] at sent
    exact startInv inv busy idle (fun _ => opened) (fun _ => sent.2) (fun _ => sent.1) rfl

theorem afterFinInv (inv : ClientInv s) (busy : s.writeHalf = true) (quiet : s.write.finishing = false)
    (dark : ∀ closing, s.write ≠ .light closing) {closing : Bool} : ClientInv (s.afterFin closing) := by
  unfold afterFin
  cases closing <;> refine gotoInv inv busy quiet dark ?_ ?_ ?_ rfl <;> intro here <;> contradiction

theorem quietInv (inv : ClientInv s) (busy : s.writeHalf = true) (alike : Alike s t)
    (quiet : t.write.finAhead = false ∧ t.write.sound = false ∧ t.write.sent = false)
    (raised : s.writeClosed = true ∨ s.openFailed = true ∨ s.write.finishing = true →
      t.writeClosed = true ∨ t.openFailed = true ∨ t.write.finishing = true)
    (closed : t.fullyClosed = true → t.registered = false) (removed : t.write.removed = true → t.registered = false) :
    ClientInv t := by
  refine moveInv inv busy alike raised ?_ ?_ ?_ ?_ removed
  · rw [quiet.1]
    intro here
    contradiction
  · rw [quiet.2.1]
    intro here
    contradiction
  · rw [quiet.2.2]
    intro here
    contradiction
  · intro full registered
    rw [closed full] at registered
    contradiction

theorem unlit (inv : ClientInv s) (dark : ∀ closing, s.write ≠ .light closing) (full : s.fullyClosed = true) :
    s.registered = false := by
  by_contra still
  obtain ⟨closing,light⟩ := inv.closed full (eq_true_of_ne_false still)
  exact dark closing light

theorem openedInv (inv : ClientInv s) {next : AfterOpen} {ok : Bool} (pc : s.write = .opened next) (moved : s.proceed ok = some t) :
    ClientInv t := by
  have busy : s.writeHalf = true := by
    apply inv.owner
    rw [pc]
    exact WritePc.noConfusion
  have quiet : s.write.finishing = false := by
    rw [pc]
    rfl
  have dark : ∀ closing, s.write ≠ .light closing := by
    rw [pc]
    exact fun _ => WritePc.noConfusion
  have sound : s.openFailed = false := by
    apply inv.sound
    rw [pc]
    rfl
  have sent : s.deferred = false := by
    apply inv.sent
    rw [pc]
    rfl
  simp only [proceed,pc] at moved
  split at moved
  · cases next with
    | write =>
      cases Option.some.inj moved
      refine gotoInv inv busy quiet dark ?_ ?_ ?_ rfl <;> intro here <;> contradiction
    | closeWrite closing =>
      cases Option.some.inj moved
      refine gotoInv inv busy quiet dark ?_ (fun _ => sound) (fun _ => sent) rfl
      intro _
      apply inv.ahead
      rw [pc]
      rfl
    | synack =>
      cases Option.some.inj moved
      split
      · exact gotoInv inv busy quiet dark (fun here => absurd here Bool.false_ne_true) (fun _ => sound) (fun _ => sent) rfl
      · refine gotoInv inv busy quiet dark ?_ ?_ ?_ rfl <;> intro here <;> contradiction
  · have failed : ∀ {u : Client}, Alike s u → u.openFailed = true → u.fullyClosed = s.fullyClosed →
        u.registered = s.registered → u.write.finAhead = false ∧ u.write.sound = false ∧ u.write.sent = false →
        (u.write.removed = true → u.registered = false) → ClientInv u := by
      intro u alike fails full registered still removed
      refine quietInv inv busy alike still (fun _ => .inr (.inl fails)) ?_ removed
      rw [full,registered]
      exact unlit inv dark
    cases next with
    | write | synack =>
      cases Option.some.inj moved
      exact failed ⟨rfl,rfl,rfl,rfl,rfl,rfl⟩ rfl rfl rfl ⟨rfl,rfl,rfl⟩ (fun here => absurd here Bool.false_ne_true)
    | closeWrite closing =>
      cases Option.some.inj moved
      cases closing <;>
        exact failed ⟨rfl,rfl,rfl,rfl,rfl,rfl⟩ rfl rfl rfl ⟨rfl,rfl,rfl⟩ (fun here => absurd here Bool.false_ne_true)

theorem proceedInv (inv : ClientInv s) {ok : Bool} (meets : s.Ok (.proceed ok)) (moved : s.proceed ok = some t) :
    ClientInv t := by
  have owner : s.write ≠ .idle → s.writeHalf = true := inv.owner
  have unlit := unlit inv
  have nothing : ∀ {p : Prop}, false = true → p := fun here => absurd here Bool.false_ne_true
  have turn := moved
  unfold proceed at moved
  cases pc : s.write with
  | idle | synack =>
    rw [pc] at moved
    contradiction
  | submit early next =>
    rw [pc] at moved owner unlit
    have busy := owner WritePc.noConfusion
    dsimp only at moved
    split at moved <;> cases Option.some.inj moved
    · exact submitInv inv pc
    · exact quietInv inv busy ⟨rfl,rfl,rfl,rfl,rfl,rfl⟩ ⟨rfl,rfl,rfl⟩ (fun _ => .inr (.inl rfl))
        (unlit (fun _ => WritePc.noConfusion)) (fun here => absurd here Bool.false_ne_true)
  | opened next => exact openedInv inv pc turn
  | finSend closing =>
    have quiet : s.write.finishing = false := by
      rw [pc]
      rfl
    have dark : ∀ closing, s.write ≠ .light closing := by
      rw [pc]
      exact fun _ => WritePc.noConfusion
    have ahead : s.write.finAhead = true ∧ s.write.sent = true := by
      rw [pc]
      exact ⟨rfl,rfl⟩
    rw [pc] at moved owner
    dsimp only at moved
    split at moved <;> cases Option.some.inj moved
    · exact handFinInv inv ahead.1 ahead.2 rfl
    · exact afterFinInv inv (owner WritePc.noConfusion) quiet dark
  | finWait closing =>
    have answered : ok = true := by
      simpa only [Client.Ok,okStep,pc] using meets
    rw [pc] at moved owner unlit
    cases Option.some.inj moved
    have closes : (s.writeClosed || ok) = true := by
      rw [answered,Bool.or_true]
    cases closing <;> exact quietInv inv (owner WritePc.noConfusion) ⟨rfl,rfl,rfl,rfl,rfl,rfl⟩ ⟨rfl,rfl,rfl⟩
      (fun _ => .inl closes) (unlit (fun _ => WritePc.noConfusion)) (fun here => nothing here)
  | light closing =>
    rw [pc] at moved owner
    cases Option.some.inj moved
    have kept : s.writeClosed = true ∨ s.openFailed = true ∨ s.write.finishing = true →
        s.writeClosed = true ∨ s.openFailed = true ∨ WritePc.finishing .idle = true := by
      rw [pc]
      exact id
    cases closing <;> exact quietInv inv (owner WritePc.noConfusion) ⟨rfl,rfl,rfl,rfl,rfl,rfl⟩ ⟨rfl,rfl,rfl⟩ kept
      (fun _ => rfl) (fun _ => rfl)
  | closeRemove | closedAlready =>
    rw [pc] at moved owner
    cases Option.some.inj moved
    refine quietInv inv (owner WritePc.noConfusion) ⟨rfl,rfl,rfl,rfl,rfl,rfl⟩ ⟨rfl,rfl,rfl⟩ ?_ (fun _ => rfl) (fun _ => rfl)
    rw [pc]
    exact id
  | closeForget =>
    have removed : s.registered = false := by
      apply inv.removed
      rw [pc]
      rfl
    rw [pc] at moved owner
    cases Option.some.inj moved
    refine quietInv inv (owner WritePc.noConfusion) ⟨rfl,rfl,rfl,rfl,rfl,rfl⟩ ⟨rfl,rfl,rfl⟩ ?_
      (fun _ => removed) (fun here => nothing here)
    rw [pc]
    exact id
  | expireSend =>
    have ahead : s.write.finAhead = true ∧ s.write.sent = true := by
      rw [pc]
      exact ⟨rfl,rfl⟩
    rw [pc] at moved owner unlit
    cases Option.some.inj moved
    split
    · exact handFinInv inv ahead.1 ahead.2 rfl
    · exact quietInv inv (owner WritePc.noConfusion) ⟨rfl,rfl,rfl,rfl,rfl,rfl⟩ ⟨rfl,rfl,rfl⟩ (fun _ => .inr (.inr rfl))
        (unlit (fun _ => WritePc.noConfusion)) (fun here => nothing here)
  | expireWait =>
    rw [pc] at moved owner unlit
    cases Option.some.inj moved
    exact quietInv inv (owner WritePc.noConfusion) ⟨rfl,rfl,rfl,rfl,rfl,rfl⟩ ⟨rfl,rfl,rfl⟩ (fun _ => .inr (.inr rfl))
      (unlit (fun _ => WritePc.noConfusion)) (fun here => nothing here)
  | failRemove expired =>
    rw [pc] at moved owner
    cases Option.some.inj moved
    refine quietInv inv (owner WritePc.noConfusion) ⟨rfl,rfl,rfl,rfl,rfl,rfl⟩ ⟨rfl,rfl,rfl⟩ ?_
      (fun _ => rfl) (fun here => nothing here)
    rw [pc]
    cases expired <;> exact id
  | failForget expired =>
    rw [pc] at moved owner unlit
    cases Option.some.inj moved
    exact quietInv inv (owner WritePc.noConfusion) ⟨rfl,rfl,rfl,rfl,rfl,rfl⟩ ⟨rfl,rfl,rfl⟩ (fun _ => .inr (.inl rfl))
      (unlit (fun _ => WritePc.noConfusion)) (fun here => nothing here)

theorem dropReadInv (inv : ClientInv s) (half : s.readHalf = true) {runtime lockFree sent : Bool}
    (able : (s.writeHalf || s.fullyClosed || runtime) = true) :
    ClientInv ({s with readHalf := false}.halfDropped runtime lockFree sent) := by
  have open' := (inv.halves (.inl half)).1
  by_cases other : s.writeHalf = true
  · have stays : (false || s.writeHalf) = true := other
    unfold halfDropped
    rw [if_pos stays]
    refine ⟨inv.once,?_,inv.ahead,inv.sound,inv.syn,inv.opened,inv.sent,inv.owner,?_,inv.snapshot,inv.cleanup,inv.closed,?_,
      inv.fresh,inv.waiting,inv.removed⟩
    · intro some'
      rcases inv.settled some' with flag | flag | pc | ⟨gone,_⟩
      · exact .inl flag
      · exact .inr (.inl flag)
      · exact .inr (.inr (.inl pc))
      · rw [half] at gone
        contradiction
    · intro _
      exact inv.halves (.inl half)
    · intro gone
      exact absurd gone (goneNot open' (.inr other))
  · have other := Bool.eq_false_iff.mpr other
    have idle : s.write = .idle := by
      by_contra busy
      rw [inv.owner busy] at other
      contradiction
    rw [other,Bool.false_or] at able
    exact lastDropInv (t := {s with readHalf := false}) inv (.inl half) idle ⟨rfl,rfl,rfl,rfl,rfl,rfl,rfl⟩ rfl ⟨rfl,
      other⟩ rfl
      (inv.snapshot open' other) able

theorem dropWriteInv (inv : ClientInv s) (half : s.writeHalf = true) (idle : s.write = .idle) {runtime lockFree sent : Bool}
    (able : (s.readHalf || s.fullyClosed || runtime) = true) :
    ClientInv (s.dropWriteHalf.halfDropped runtime lockFree sent) := by
  have open' := (inv.halves (.inr half)).1
  by_cases other : s.readHalf = true
  · have stays : (s.readHalf || false) = true := by rw [other,Bool.true_or]
    unfold halfDropped
    rw [if_pos (show (s.dropWriteHalf.readHalf || s.dropWriteHalf.writeHalf) = true from stays)]
    refine ⟨inv.once,?_,inv.ahead,inv.sound,inv.syn,inv.opened,inv.sent,?_,?_,fun _ _ => rfl,inv.cleanup,inv.closed,?_,
      inv.fresh,inv.waiting,inv.removed⟩
    · intro some'
      rcases inv.settled some' with flag | flag | pc | ⟨_,gone⟩
      · exact .inl flag
      · exact .inr (.inl flag)
      · exact .inr (.inr (.inl pc))
      · rw [half] at gone
        contradiction
    · intro busy
      exact absurd idle busy
    · intro _
      exact inv.halves (.inr half)
    · intro gone
      exact absurd gone (goneNot open' (.inl other))
  · have other := Bool.eq_false_iff.mpr other
    rw [other,Bool.false_or] at able
    exact lastDropInv (t := s.dropWriteHalf) inv (.inr half) idle ⟨rfl,rfl,rfl,rfl,rfl,rfl,rfl⟩ rfl ⟨other,rfl⟩ rfl rfl able

theorem noCleanup (none : s.cleanup = none) (c : Cleanup) (some' : s.cleanup = some c) : c = .remove := by
  rw [none] at some'
  contradiction

attribute [local simp] call step

theorem callInv {u : Client} (moved : s.call u = some t)
    (through : s.writeHalf = true → s.write = .idle → ClientInv u) : ClientInv t := by
  unfold call at moved
  split at moved
  · rename_i ready
    cases Option.some.inj moved
    exact through ready.1 ready.2
  · contradiction

theorem synackInv (inv : ClientInv s) {answer : SynackAnswer} (meets : s.Ok (.synack answer))
    (moved : s.step (.synack answer) = some t) : ClientInv t := by
  simp only [step] at moved
  split at moved
  · rename_i here
    have busy : s.writeHalf = true := by
      apply inv.owner
      rw [here]
      exact WritePc.noConfusion
    have sound : s.openFailed = false := by
      apply inv.sound
      rw [here]
      rfl
    have sent : s.deferred = false := by
      apply inv.sent
      rw [here]
      rfl
    have quiet : ∀ {w f : Bool}, w = true ∨ f = true ∨ s.write.finishing = true → w = true ∨ f = true := by
      rw [here]
      intro w f was
      rcases was with flag | flag | pc
      · exact .inl flag
      · exact .inr flag
      · contradiction
    have unlit : s.fullyClosed = true → s.registered = true → False := by
      intro full registered
      obtain ⟨closing,light⟩ := inv.closed full registered
      rw [here] at light
      contradiction
    cases answer with
    | accepted | dropped =>
      cases Option.some.inj moved
      refine moveInv inv busy ⟨rfl,rfl,rfl,rfl,rfl,rfl⟩ (fun was => (quiet was).imp_right .inl) ?_ ?_ ?_
        (fun full registered => (unlit full registered).elim) ?_ <;> intro here <;> contradiction
    | timeout =>
      cases Option.some.inj moved
      have open' : s.writeClosed = false := by
        simpa only [Client.Ok,okStep,Bool.not_eq_eq_eq_not,Bool.not_true] using meets
      exact moveInv inv busy ⟨rfl,rfl,rfl,rfl,rfl,rfl⟩ (fun was => (quiet was).imp_right .inl) (fun _ => open')
        (fun _ => sound) (fun _ => sent) (fun full registered => (unlit full registered).elim)
        (fun here => absurd here Bool.false_ne_true)
    | rejected =>
      cases Option.some.inj moved
      refine moveInv inv busy ⟨rfl,rfl,rfl,rfl,rfl,rfl⟩ (fun _ => .inr (.inl rfl)) ?_ ?_ ?_
        (fun full registered => (unlit full registered).elim) ?_ <;> intro here <;> contradiction
  · contradiction

theorem cancelInv (inv : ClientInv s) (meets : s.Ok .cancel) (moved : s.step .cancel = some t) : ClientInv t := by
  simp only [step] at moved
  split at moved
  · contradiction
  · rename_i busy
    cases Option.some.inj moved
    have quiet : s.write.finishing = false ∧ ∀ closing, s.write ≠ .light closing := by
      cases pc : s.write with
      | finWait closing | light closing | expireWait => simp only [Client.Ok,okStep,pc,Bool.false_eq_true] at meets
      | failRemove expired | failForget expired =>
        cases expired with
        | true => simp only [Client.Ok,okStep,pc,Bool.false_eq_true] at meets
        | false => exact ⟨rfl,fun _ => WritePc.noConfusion⟩
      | _ => exact ⟨rfl,fun _ => WritePc.noConfusion⟩
    refine gotoInv inv (inv.owner busy) quiet.1 quiet.2 ?_ ?_ ?_ rfl <;> intro here <;> contradiction

theorem clientStep (inv : ClientInv s) {a : ClientAction} (meets : s.Ok a) (moved : s.step a = some t) : ClientInv t := by
  cases a with
  | register room lockFree runtime =>
    simp only [step] at moved
    split at moved
    · rename_i here
      have early : s.opening ≠ .returned := by
        rw [here]
        exact OpenPc.noConfusion
      have going : s.opening ≠ .gone := by
        rw [here]
        exact OpenPc.noConfusion
      cases room with
      | false =>
        cases Option.some.inj moved
        exact guardInv inv early going meets
      | true =>
        cases Option.some.inj moved
        split
        · rename_i deferred
          exact returnedInv inv early going rfl rfl (fun now => absurd (deferred.symm.trans now) Bool.noConfusion) rfl rfl
        · exact beforeInv inv early rfl ⟨rfl,rfl,rfl⟩ OpenPc.noConfusion (inv.waiting early going).2
            (noCleanup (inv.waiting early going).1) (fun gone => absurd gone OpenPc.noConfusion)
            (fun _ => (inv.waiting early going).1)
    · contradiction
  | submitSyn ok =>
    simp only [step] at moved
    split at moved
    · rename_i here
      have early : s.opening ≠ .returned := by
        rw [here]
        exact OpenPc.noConfusion
      have going : s.opening ≠ .gone := by
        rw [here]
        exact OpenPc.noConfusion
      cases Option.some.inj moved
      split
      · exact returnedInv inv early going (finsHandSyn s.handed) rfl (fun _ => List.mem_append_right _ List.mem_cons_self) rfl
          rfl
      · exact beforeInv inv early rfl ⟨rfl,rfl,rfl⟩ OpenPc.noConfusion (inv.waiting early going).2
          (noCleanup (inv.waiting early going).1) (fun gone => absurd gone OpenPc.noConfusion)
          (fun _ => (inv.waiting early going).1)
    · contradiction
  | giveUp =>
    simp only [step] at moved
    split at moved
    · rename_i here
      have early : s.opening ≠ .returned := by
        rw [here]
        exact OpenPc.noConfusion
      have going : s.opening ≠ .gone := by
        rw [here]
        exact OpenPc.noConfusion
      cases Option.some.inj moved
      refine beforeInv inv early rfl ⟨rfl,rfl,rfl⟩ OpenPc.noConfusion (inv.waiting early going).2
        (noCleanup (inv.waiting early going).1) ?_ ?_
      · intro _ registered
        contradiction
      · intro other
        exact absurd rfl other
    · contradiction
  | openCancel lockFree runtime =>
    simp only [step] at moved
    split at moved
    · contradiction
    · rename_i open'
      cases Option.some.inj moved
      exact guardInv inv (fun here => open' (.inl here)) (fun here => open' (.inr here)) meets
  | writeOpen early =>
    refine callInv moved ?_
    intro busy idle
    unfold writeOpen
    split
    · exact inv
    · rename_i open'
      simp only [Bool.or_eq_true,not_or,Bool.not_eq_true] at open'
      exact sendOpenInv inv busy idle open'.1.1 (fun here => absurd here Bool.false_ne_true)
  | closeWrite =>
    refine callInv moved ?_
    intro busy idle
    unfold closeWrite
    split
    · exact inv
    · rename_i open'
      simp only [Bool.or_eq_true,not_or,Bool.not_eq_true] at open'
      exact closeWriteOpenInv inv busy idle open'.2
  | close =>
    refine callInv moved ?_
    intro busy idle
    unfold close
    split
    · refine startInv inv busy idle ?_ ?_ ?_ rfl <;> intro here <;> contradiction
    · split
      · refine startInv inv busy idle ?_ ?_ ?_ rfl <;> intro here <;> contradiction
      · rename_i open'
        exact closeWriteOpenInv inv busy idle (Bool.eq_false_iff.mpr open')
  | waitOpen =>
    refine callInv moved ?_
    intro busy idle
    unfold waitSynack
    split
    · exact inv
    · rename_i open'
      exact sendOpenInv inv busy idle (Bool.eq_false_iff.mpr open') (fun here => absurd here Bool.false_ne_true)
  | proceed ok => exact proceedInv inv meets moved
  | synack answer => exact synackInv inv meets moved
  | cancel => exact cancelInv inv meets moved
  | dropRead runtime lockFree sent =>
    simp only [step] at moved
    split at moved
    · rename_i half
      cases Option.some.inj moved
      exact dropReadInv inv half meets
    · contradiction
  | dropWrite runtime lockFree sent =>
    simp only [step] at moved
    split at moved
    · rename_i half
      cases Option.some.inj moved
      exact dropWriteInv inv half.1 half.2 meets
    · contradiction
  | cleanup ok => exact cleanupInv inv moved
  | kill sent =>
    cases Option.some.inj moved
    have unsent : sent = false := by simpa only [Client.Ok,okStep,Bool.not_eq_eq_eq_not,Bool.not_true] using meets
    rw [unsent]
    exact unregisterInv inv
  | unregister =>
    cases Option.some.inj moved
    exact unregisterInv inv

end

end KanoTls.Teardown
