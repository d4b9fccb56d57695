import KanoTls.WriterLine

/-! What a step without an I/O error does to the frames. The order in which they will
be on the wire is `log`, the request that passes a window (`handOf`), `rest`, the
requests that wait for the drain (`afterOf`), and then the queue as the writer takes it. -/
namespace KanoTls.Writer
open Wire Shaper Uot State

def faultless (s : State) : Action → Bool
  | .record _ fault => fault == .none
  | .finish made => (drainOf s.pc).all (fun d => decide (d.fakes.length ≤ made))
  | .packet _ fault => fault.isNone
  | .flush ok | .goaway _ ok => ok
  | _ => true

def Pads (frames : List Frame) : Prop := ∀ f ∈ frames, f.cmd = cmdPadding

def SameDrain (s t : State) : Prop := ∀ e, drainOf t.pc = some e → ∃ d, drainOf s.pc = some d ∧
  e.pinned = d.pinned ∧ e.sticky = d.sticky ∧ e.deferred = d.deferred

structure SameQueue (s t : State) : Prop where
  queue : t.queue = s.queue
  sent : t.sent = s.sent
  settings : t.settings = s.settings

/- A request has been taken from the control channel, with the SETTINGS if they wait. -/
structure Takes (s t : State) (r : Request) (queue : List Request) : Prop where
  found : ∃ first, takeControl s.queue = some (first,queue) ∧ r = s.withSettings first
  sent : t.sent = s.sent
  settings : t.settings = false

inductive Turn (s : State) (a : Action) (t : State) (x y : Split) : Prop where
  | still (same : y = x) (hand : handOf t.pc = handOf s.pc) (after : afterOf t.pc = afterOf s.pc)
      (queues : SameQueue s t) (drain : SameDrain s t) (stays : t.pc.live = true → s.pc.live = true)
  | send (control auto packets) (submits : a = .send control auto packets) (same : y = x) (pc : t.pc = s.pc)
      (queue : t.queue = s.queue ++ [s.newRequest control auto packets])
      (sent : t.sent = s.sent ++ [s.newRequest control auto packets]) (settings : t.settings = s.settings)
  | emit (gone pads) (log : y.log = x.log ++ gone ++ pads) (split : x.rest = gone ++ y.rest)
      (front : y.front = x.front ++ gone ∨ y.front = [] ∧ y.rest = []) (padding : Pads pads)
      (hand : handOf s.pc = [] ∧ handOf t.pc = []) (after : afterOf t.pc = afterOf s.pc)
      (queues : SameQueue s t) (drain : SameDrain s t) (stays : t.pc.live = true → s.pc.live = true)
  | pass (r queue gone) (d) (arrives : a = .arrive) (takes : Takes s t r queue) (rest : t.queue = queue)
      (log : y.log = x.log ++ gone) (split : x.rest = gone ++ y.rest) (front : y.front = x.front ++ gone)
      (moved : x.front = [] → x.rest ≠ [] → gone ≠ []) (hand : handOf s.pc = [] ∧ handOf t.pc = r.frames)
      (after : afterOf t.pc = afterOf s.pc) (drain : SameDrain s t) (draining : drainOf s.pc = some d)
      (alone : d.deferred = []) (delayed : d.sticky = false)
      (free : ∀ f ∈ r.frames, isLifecycle f.cmd = true ∧ f.sid ∉ d.pinned) (live : s.pc.live = true)
  | through (frames) (log : y.log = x.log ++ frames) (rest : y.rest = x.rest) (front : y.front = x.front)
      (hand : handOf s.pc = frames ++ handOf t.pc) (after : afterOf t.pc = afterOf s.pc)
      (queues : SameQueue s t) (drain : SameDrain s t) (live : s.pc.live = true)
  | defer (r queue) (d e) (arrives : a = .arrive) (takes : Takes s t r queue) (rest : t.queue = queue) (same : y = x)
      (hand : handOf s.pc = [] ∧ handOf t.pc = []) (after : afterOf t.pc = afterOf s.pc ++ r.frames)
      (was : drainOf s.pc = some d) (now : drainOf t.pc = some e) (sticky : e.sticky = d.sticky)
      (pinned : e.pinned = d.pinned ++ r.sids) (deferred : e.deferred = d.deferred ++ [r]) (live : s.pc.live = true)
  | control (r queue) (draw) (chosen : a = .control draw) (takes : Takes s t r queue) (rest : t.queue = controlOf queue)
      (was : drainOf s.pc = none ∧ afterOf s.pc = [] ∧ handOf s.pc = [])
      (log : y.log = x.log) (front : y.front = []) (hand : handOf t.pc = [])
      (frames : y.rest = (bulkOf queue).flatMap Request.frames ++ r.frames ∧ afterOf t.pc = [] ∨
        y.rest = (bulkOf queue).flatMap Request.frames ∧ afterOf t.pc = r.frames ∧
          (drainOf t.pc = none ∨ y.rest ≠ []))
      (pinned : ∀ d, drainOf t.pc = some d → d.deferred = [] ∧ (d.sticky = false →
        (∀ sid ∈ r.sids, sid ∈ d.pinned) ∧ ∀ f ∈ y.rest, f.cmd = cmdPsh → f.sid ∈ d.pinned)) (live : s.pc = .select)
  | bulk (empty : controlOf s.queue = []) (rest : t.queue = []) (sent : t.sent = s.sent)
      (settings : t.settings = s.settings)
      (was : drainOf s.pc = none ∧ afterOf s.pc = [] ∧ handOf s.pc = [])
      (log : y.log = x.log) (front : y.front = []) (hand : handOf t.pc = []) (after : afterOf t.pc = [])
      (frames : y.rest = s.queue.flatMap Request.frames)
      (pinned : ∀ d, drainOf t.pc = some d → d.deferred = [] ∧
        (d.sticky = false → ∀ f ∈ y.rest, f.cmd = cmdPsh → f.sid ∈ d.pinned)) (live : s.pc = .select)
  | refuse (r queue) (same : y = x) (found : s.queue.Perm (r::queue)) (rest : t.queue = queue)
      (sent : t.sent = s.sent) (settings : t.settings = s.settings) (told : (r.id,false) ∈ t.answers)
      (closed : s.closeRequested = true) (idle : s.pc = .select) (leaving : t.pc = .leaving)
  | prepare (frames) (was : drainOf s.pc = none) (now : drainOf t.pc = none) (log : y.log = x.log ++ frames)
      (rest : y.rest = x.rest) (front : y.front = x.front) (hand : handOf s.pc = [] ∧ handOf t.pc = [])
      (after : afterOf s.pc = frames ++ afterOf t.pc) (queues : SameQueue s t) (live : s.pc.live = true)

section Steps
variable {s t : State} {x : Split}

@[simp] theorem emittedFlushed (s : State) : emitted s.flushed = emitted s := by
  simp [emitted,flushed]

theorem emittedPrepared (s : State) (records : List Record) :
    emitted (s.prepared records) = emitted s ++ values (records.flatMap (·.payload)) := by
  simp only [emitted,prepared,← List.append_assoc,payloadsAppend,valuesAppend]

theorem heldSame (held : Held s x) (pending : t.pending = s.pending) (pc : t.pc = s.pc)
    (out : emitted t = emitted s) (shaper : t.shaper = s.shaper) : Held t x := by
  obtain ⟨a,b,c,d,e,f,g,h⟩ := held
  refine ⟨by rw [pending,a],by rw [pc]; exact b,by rw [pc,pending]; exact c,by rw [out,pc,d],?_,?_,?_,?_⟩
  · rw [pc,pending]
    exact e
  · intro drain draining
    rw [pc] at draining
    obtain ⟨f₁,f₂,f₃,f₄,f₅,f₆⟩ := f drain draining
    exact ⟨f₁,f₂,by rw [shaper]; exact f₃,f₄,f₅,f₆⟩
  · rw [pc]
    exact g
  · rw [pc,out]
    exact h

theorem heldIdle {log : List Frame} (pending : t.pending = []) (idle : drainOf t.pc = none)
    (out : emitted t = encodeAll log) : Held t ⟨log,[],[]⟩ := by
  have zero : consumedOf t.pc = 0 := by rw [consumedOf,idle]; rfl
  refine ⟨by rw [pending]; rfl,Nat.zero_le _,by rw [zero]; exact Nat.zero_le _,by rw [out]; simp,
    fun _ => pending,?_,?_,?_⟩
  · intro d draining
    rw [idle] at draining
    contradiction
  · rintro d (here | ⟨r,todo,here⟩) <;> rw [here] at idle <;> contradiction
  · intro d r todo here
    rw [here] at idle
    contradiction

theorem heldMoved (held : Held s x) {pc : Pc} {d : Drain} (was : drainOf s.pc = some d) (now : drainOf pc = some d)
    (delayed : d.sticky = false ∨ pc = .drain d) (whole : (∃ r todo, pc = .through d r todo) → emitted s = encodeAll x.log) :
    Held {s with pc := pc} x := by
  have same : consumedOf pc = consumedOf s.pc := by rw [consumedOf,consumedOf,was,now]
  refine ⟨held.pending,?_,?_,?_,?_,?_,?_,?_⟩
  · show _ ≤ consumedOf pc
    rw [same]
    exact held.low
  · show consumedOf pc ≤ _
    rw [same]
    exact held.high
  · show emitted s = _ ++ List.take (consumedOf pc - _) _
    rw [same]
    exact held.out
  · intro idle
    rw [show drainOf pc = some d from now] at idle
    contradiction
  · intro e draining
    cases Option.some.inj (now.symm.trans draining)
    obtain ⟨a,b,c,d,e,f⟩ := held.sound d was
    exact ⟨a,b,c,d,e,f⟩
  · intro e here
    rcases delayed with unsticky | rfl
    · rcases here with here | ⟨r,todo,here⟩ <;>
        cases Option.some.inj (now.symm.trans (congrArg drainOf here)) <;> exact unsticky
    · rcases here with here | ⟨r,todo,here⟩ <;> contradiction
  · intro e r todo here
    cases Option.some.inj (now.symm.trans (congrArg drainOf here))
    exact whole ⟨r,todo,here⟩

theorem heldInsert (held : Held s x) (records : List Record) {frames : List Frame}
    (payload : values (records.flatMap (·.payload)) = encodeAll frames) (whole : emitted s = encodeAll x.log) :
    Held (s.prepared records) ⟨x.log ++ frames,x.front,x.rest⟩ := by
  have nothing : (encodeAll x.rest).take (consumedOf s.pc - (encodeAll x.front).length) = [] := by
    have out := held.out
    rw [whole] at out
    exact List.self_eq_append_right.mp out
  have out : emitted (s.prepared records) = encodeAll (x.log ++ frames) := by
    rw [emittedPrepared,payload,whole,← encodeAllAppend]
  obtain ⟨a,b,c,_,e,f,g,_⟩ := held
  refine ⟨a,b,c,?_,e,?_,g,fun _ _ _ _ => out⟩
  · rw [out]
    show _ = _ ++ (encodeAll x.rest).take (consumedOf s.pc - (encodeAll x.front).length)
    rw [nothing,List.append_nil]
  · intro d draining
    obtain ⟨f₁,f₂,f₃,f₄,f₅,f₆⟩ := f d draining
    exact ⟨f₁,f₂,f₃,f₄,f₅,f₆⟩

theorem heldRecord (held : Held s x) {d e : Drain} {n : Nat} (was : drainOf s.pc = some d) (now : drainOf t.pc = some e)
    (more : e.consumed = d.consumed + n) (most : n ≤ s.pending.length - d.consumed) (pending : t.pending = s.pending)
    (out : emitted t = emitted s ++ values ((s.pending.drop d.consumed).take n))
    (sound : Sound t e (x.front ++ x.rest))
    (drains : t.pc = .drain e ∨ t.pc = .window e ∧ e.sticky = false) : Held t x := by
  have before : consumedOf s.pc = d.consumed := by rw [consumedOf,was]; rfl
  have after : consumedOf t.pc = d.consumed + n := by rw [consumedOf,now,← more]; rfl
  have low := held.low
  have high := held.high
  have length := congrArg List.length held.pending
  rw [before] at low high
  refine ⟨by rw [pending]; exact held.pending,by rw [after]; omega,by rw [after,pending]; omega,?_,?_,?_,?_,?_⟩
  · rw [out,held.out,valuesTake,valuesDrop,held.pending,before,after,encodeAllAppend,List.drop_append,
      List.drop_of_length_le low,List.nil_append,List.append_assoc,← List.take_add,
      show d.consumed + n - (encodeAll x.front).length = d.consumed - (encodeAll x.front).length + n by omega]
  · intro idle
    rw [now] at idle
    contradiction
  · intro d' draining
    cases Option.some.inj (now.symm.trans draining)
    exact sound
  · intro d' place
    rcases drains with drains | ⟨drains,unsticky⟩ <;> rw [drains] at place
    · rcases place with same | ⟨r,todo,same⟩ <;> contradiction
    · rcases place with same | ⟨r,todo,same⟩
      · cases same
        exact unsticky
      · contradiction
  · intro d' r todo place
    rcases drains with drains | ⟨drains,_⟩ <;> rw [drains] at place <;> contradiction

theorem policyQuiet {d : Drain} (draw : Draw) {frames : List Frame} (sound : Sound s d frames)
    (quiet : (s.policyFor d draw).1.quietGap = true) : d.consumed = 0 := by
  unfold policyFor at quiet
  cases first : d.first with
  | some policy => exact sound.fresh (by rw [first]; rfl)
  | none =>
    simp only [first] at quiet
    split at quiet
    · contradiction
    · exact sound.seq (TrafficShaper.quietGapFirst _ _ _ quiet)

theorem policyDelay {d : Drain} (draw : Draw) {frames : List Frame} (sound : Sound s d frames)
    (delay : (s.policyFor d draw).1.delay = true) : d.sticky = false := by
  unfold policyFor at delay
  cases first : d.first with
  | some policy =>
    simp only [first] at delay
    obtain ⟨same,atOnce⟩ := sound.full policy first
    cases sticky : d.sticky
    · rfl
    · rw [sticky] at same
      rw [atOnce same] at delay
      contradiction
  | none =>
    simp only [first] at delay
    split at delay
    · contradiction
    · rename_i unsticky
      exact Bool.eq_false_iff.mpr unsticky

/- A fake interaction goes out in front of a record only at a frame boundary. -/
theorem inlineAtBoundary {d : Drain} (draw : Draw) {frames : List Frame} (sound : Sound s d frames)
    (some' : inlineRecords d (s.policyFor d draw).1 ≠ []) : d.atBoundary = true := by
  by_cases boundary : d.atBoundary = true
  · exact boundary
  · exfalso
    have started : (s.policyFor d draw).1.quietGap = false := by
      cases quiet : (s.policyFor d draw).1.quietGap
      · rfl
      · rw [Drain.atBoundary,policyQuiet draw sound quiet] at boundary
        exact absurd rfl boundary
    apply some'
    simp only [inlineRecords,fakesAround,started,Bool.false_eq_true,if_false]
    cases (s.policyFor d draw).1.preFake with
    | none => rfl
    | some pre => simp [boundary]

theorem inlinePayload (d : Drain) (policy : ShapePolicy) : ∃ pads, Pads pads ∧
    values ((inlineRecords d policy).flatMap (·.payload)) = encodeAll pads ∧
    (inlineRecords d policy = [] → pads = []) := by
  refine ⟨(fakesAround d policy).1.toList.map paddingRequest,?_,?_,?_⟩
  · intro f member
    obtain ⟨n,_,rfl⟩ := List.mem_map.mp member
    rfl
  · rw [← paddingsPayload,List.map_map]
    rfl
  · intro none
    cases found : (fakesAround d policy).1 with
    | none => rfl
    | some n =>
      rw [inlineRecords,found] at none
      simp at none

end Steps

end KanoTls.Writer
