import KanoTls.WriterRest

/-! Left alone, the writer comes to rest: each of its own steps lowers `rank`, and until
then one is enabled. -/
namespace KanoTls.Writer
open Wire Shaper Uot State

def weight (r : Request) : Nat := 10 + 3*r.bytes.length + 2*r.packets.length
def weights (requests : List Request) : Nat := (requests.map weight).sum
def cost (r : Request) : Nat := 3 + 2*r.packets.length
def costs (requests : List Request) : Nat := (requests.map cost).sum

def Drain.left (d : Drain) (backlog : Nat) : Nat := 3*(backlog - d.consumed) + costs (d.current.toList ++ d.deferred)

def phase (backlog : Nat) : Pc → Nat
  | .merge => 1
  | .prepare _ todo rest => 2 + 2*todo.length + costs rest
  | .drain d => 4 + d.left backlog
  | .window d => 5 + d.left backlog
  | .through d _ todo => 6 + d.left backlog + 2*todo.length
  | _ => 0

def rank (s : State) : Nat := weights s.queue + (if s.settings then 100 else 0) + phase s.pending.length s.pc

/- What the writer does by itself, without an I/O error. -/
def writes : Action → Bool
  | .send .. | .close | .hangUp | .exit | .leave _ | .goaway .. => false
  | _ => true

def cleanStep (s : State) (a : Action) : Option State := if writes a && faultless s a then step s a else none

section Weights

theorem weightsPerm {one two : List Request} (perm : one.Perm two) : weights one = weights two :=
  (perm.map weight).sum_nat

theorem weightsSplit (queue : List Request) : weights (bulkOf queue) + weights (controlOf queue) = weights queue := by
  induction queue with
  | nil => rfl
  | cons r rest ih =>
    unfold bulkOf controlOf weights at ih ⊢
    cases control : r.control <;> simp [control] at ih ⊢ <;> omega

theorem bytesWeight (requests : List Request) :
    3*(requests.flatMap Request.bytes).length + 10*requests.length ≤ weights requests := by
  induction requests with
  | nil => exact Nat.le_refl _
  | cons r rest ih =>
    unfold weights at ih ⊢
    simp only [List.flatMap_cons,List.length_append,List.length_cons,List.map_cons,List.sum_cons,weight]
    omega

theorem settledBytes (s : State) (r : Request) :
    (s.withSettings r).bytes.length = r.bytes.length + (if s.settings then 15 else 0) := by
  unfold withSettings
  cases s.settings
  · rfl
  · have fifteen : (Packet.bytes ⟨none,[settingsFrame]⟩).length = 15 := rfl
    simp [Request.bytes,fifteen]
    omega

theorem settledPackets (s : State) (r : Request) :
    (s.withSettings r).packets.length = r.packets.length + (if s.settings then 1 else 0) := by
  unfold withSettings
  cases s.settings <;> rfl

theorem costsAppend (front back : List Request) : costs (front ++ back) = costs front + costs back := by
  simp [costs]

theorem costsOne (r : Request) : costs [r] = cost r := by simp [costs]

theorem phaseNext (backlog : Nat) (requests : List Request) : phase backlog (nextRequest requests) ≤ 1 + costs requests := by
  cases requests with
  | nil => exact Nat.le_refl _
  | cons r rest =>
    simp only [nextRequest,phase,costs,List.map_cons,List.sum_cons,cost]
    omega

end Weights

section Lowers
variable {s t : State} {x : Split} {d : Drain} {draw : Draw}

theorem rankLess (queue : t.queue = s.queue) (settings : t.settings = s.settings)
    (lower : phase t.pending.length t.pc < phase s.pending.length s.pc) : rank t < rank s := by
  rw [rank,rank,queue,settings]
  exact Nat.add_lt_add_left lower _

theorem rankSelect (here : s.pc = .select) : rank s = weights s.queue + (if s.settings then 100 else 0) := by
  rw [rank,here]
  rfl

theorem rankStart (s : State) (pinned : List Nat) (current : Option Request) :
    rank (s.startDrain pinned current false draw) =
      weights s.queue + (if s.settings then 100 else 0) + (4 + (3*s.pending.length + costs current.toList)) := by
  show _ + phase s.pending.length (.drain _) = _
  simp [phase,Drain.left,startDrain]

theorem controlLowers (held : Held s x) (here : s.pc = .select) (opened : s.closeRequested = false)
    (moved : s.controlStep draw = some t) : rank t < rank s ∧ t.pc.live = true := by
  obtain ⟨r,rest,found,⟨closed,_⟩ | ⟨_,u,same,outcome⟩⟩ := controlCases moved
  · rw [opened] at closed
    contradiction
  · have taken := weightsPerm (takeControlPerm found)
    have parts := weightsSplit rest
    have bytes := bytesWeight (bulkOf rest)
    have longer := settledBytes s r
    have more := settledPackets s r
    obtain ⟨pending,queue,_,settings,_⟩ := drained {s with queue := rest,settings := false}
    rw [← same] at pending queue settings
    rw [show (State.pending {s with queue := rest,settings := false}) = [] from held.idle (by rw [here]; rfl),
      List.nil_append] at pending
    have first : weights (r::rest) = weight r + weights rest := by simp [weights]
    unfold weight at first
    have cheap : costs [s.withSettings r] = 3 + 2*(s.withSettings r).packets.length := costsOne _
    rw [rankSelect here,taken,first]
    generalize s.withSettings r = full at *
    obtain ⟨rfl,_⟩ | ⟨_,⟨empty,rfl⟩ | ⟨_,rfl⟩⟩ := outcome
    · refine ⟨?_,rfl⟩
      obtain ⟨pending',queue',_,settings',_⟩ := queuedOne u full
      rw [rankStart,pending',queue',settings',queue,settings,pending]
      simp only [List.length_append,List.flatMap_cons,List.flatMap_nil,List.append_nil,longer,Option.toList_none,
        costs,List.map_nil,List.sum_nil,Bool.false_eq_true,if_false]
      split <;> omega
    · refine ⟨?_,rfl⟩
      show weights u.queue + (if u.settings then 100 else 0) + (2 + 2*full.packets.length + costs []) < _
      rw [queue,settings,more]
      simp only [costs,List.map_nil,List.sum_nil,Bool.false_eq_true,if_false]
      split <;> omega
    · refine ⟨?_,rfl⟩
      rw [rankStart,queue,settings,pending,Option.toList_some,cheap,more]
      simp only [Bool.false_eq_true,if_false]
      split <;> omega

theorem bulkLowers (held : Held s x) (here : s.pc = .select) (opened : s.closeRequested = false)
    (moved : s.bulkStep draw = some t) : rank t < rank s ∧ t.pc.live = true := by
  obtain ⟨noControl,allBulk,r,rest,first,⟨closed,_⟩ | ⟨_,outcome⟩⟩ := bulkCases moved
  · rw [opened] at closed
    contradiction
  · obtain ⟨pending,queue,_,settings,_⟩ := drained s
    rw [held.idle (by rw [here]; rfl),List.nil_append,allBulk] at pending
    rw [noControl] at queue
    have bytes := bytesWeight s.queue
    have some' : 0 < s.queue.length := by
      rw [first]
      exact Nat.succ_pos _
    have empty : weights [] = 0 := rfl
    rw [rankSelect here]
    generalize s.drainBulk = u at *
    obtain ⟨_,rfl⟩ | rfl := outcome
    · refine ⟨?_,rfl⟩
      show weights u.queue + (if u.settings then 100 else 0) + 1 < _
      rw [queue,settings]
      omega
    · refine ⟨?_,rfl⟩
      rw [rankStart,queue,settings,pending]
      simp only [Option.toList_none,costs,List.map_nil,List.sum_nil]
      omega

theorem policyWide (draw : Draw) (wide : ∀ policy, d.first = some policy → minDataWireLen < policy.targetWireLen)
    (left : d.consumed < s.pending.length) : minDataWireLen < (s.policyFor d draw).1.targetWireLen := by
  unfold policyFor
  cases first : d.first with
  | some policy => exact wide policy first
  | none =>
    dsimp only
    split
    · dsimp only
      split
      · decide
      · refine TrafficShaper.wireLenWide ?_
        have room : 0 < dataRecordCapacity := by decide
        omega
    · exact TrafficShaper.targetWide _ _ _ (by omega)

theorem takePositive {policy : ShapePolicy} (wide : minDataWireLen < policy.targetWireLen)
    (left : d.consumed < s.pending.length) : 0 < s.takeFor d policy := by
  have room : 0 < dataRecordCapacity := by decide
  unfold takeFor
  omega

theorem takeSome (draw : Draw) (held : Held s x) (was : drainOf s.pc = some d) (left : d.consumed < s.pending.length) :
    0 < s.takeFor d (s.policyFor d draw).1 :=
  takePositive (policyWide draw (held.sound d was).wide left) left

theorem takeLowers (here : s.pc = .drain d) (some' : 0 < s.takeFor d (s.policyFor d draw).1)
    (moved : s.recordStep d draw .none = some t) : rank t < rank s ∧ t.pc.live = true := by
  obtain ⟨left,pending,queues,_,pc,_⟩ := recorded moved
  have kept : costs ((s.afterRecord d (s.policyFor d draw).1).current.toList ++
      (s.afterRecord d (s.policyFor d draw).1).deferred) = costs (d.current.toList ++ d.deferred) := rfl
  have more : (s.afterRecord d (s.policyFor d draw).1).consumed = d.consumed + s.takeFor d (s.policyFor d draw).1 := rfl
  refine ⟨rankLess queues.queue queues.settings ?_,?_⟩
  · rw [pending,pc,here]
    split
    · simp only [phase,Drain.left,kept,more]
      omega
    · simp only [phase,Drain.left,kept,more]
      omega
  · rw [pc]
    split <;> rfl

theorem recordLowers (held : Held s x) (here : s.pc = .drain d) (moved : s.recordStep d draw .none = some t) :
    rank t < rank s ∧ t.pc.live = true := by
  have was : drainOf s.pc = some d := by rw [here]; rfl
  exact takeLowers here (takeSome draw held was (recorded moved).left) moved

theorem finishLowers (held : Held s x) (here : s.pc = .drain d) {made : Nat} (moved : s.finishStep d made = some t) :
    rank t < rank s ∧ t.pc.live = true := by
  unfold finishStep at moved
  split at moved
  · contradiction
  · rw [(held.sound d (by rw [here]; rfl)).staying,if_neg Bool.false_ne_true] at moved
    cases Option.some.inj moved
    have next := phaseNext 0 (d.current.toList ++ d.deferred)
    refine ⟨rankLess rfl rfl (Nat.lt_of_le_of_lt next ?_),(liveNext _).1⟩
    rw [here]
    simp only [phase,Drain.left]
    omega

theorem arriveLowers (here : s.pc = .window d) (moved : s.arriveStep d = some t) :
    rank t < rank s ∧ t.pc.live = true := by
  unfold arriveStep at moved
  split at moved
  · contradiction
  · split at moved
    · contradiction
    · rename_i r rest found
      have taken := weightsPerm (takeControlPerm found)
      have first : weights (r::rest) = weight r + weights rest := by simp [weights]
      unfold weight at first
      have more := settledPackets s r
      have cheap : costs [s.withSettings r] = 3 + 2*(s.withSettings r).packets.length := costsOne _
      dsimp only at moved
      split at moved
      · cases Option.some.inj moved
        refine ⟨?_,rfl⟩
        unfold rank
        rw [here,taken,first]
        simp only [phase,more,Bool.false_eq_true,if_false]
        split <;> omega
      · cases Option.some.inj moved
        refine ⟨?_,rfl⟩
        unfold rank
        rw [here,taken,first]
        simp only [phase,Drain.left,← List.append_assoc,costsAppend,cheap,more,Bool.false_eq_true,if_false]
        split <;> omega

theorem packetLowers {draws : List (Nat × Nat)} (moved : s.packetStep draws none = some t) :
    rank t < rank s ∧ t.pc.live = true := by
  unfold packetStep at moved
  split at moved
  · rename_i here
    obtain ⟨records,_,rfl⟩ := Option.map_eq_some_iff.mp moved
    refine ⟨rankLess rfl rfl ?_,rfl⟩
    rw [here]
    simp only [phase,prepared,List.length_cons]
    omega
  · rename_i here
    obtain ⟨records,_,rfl⟩ := Option.map_eq_some_iff.mp moved
    refine ⟨rankLess rfl rfl ?_,rfl⟩
    rw [here]
    simp only [phase,List.length_cons]
    omega
  · contradiction

theorem flushLowers (live : s.pc.live = true) (moved : s.flushStep true = some t) :
    rank t < rank s ∧ t.pc.live = true := by
  unfold flushStep at moved
  split at moved
  · rename_i d r here
    cases Option.some.inj moved
    refine ⟨rankLess rfl rfl ?_,rfl⟩
    rw [here]
    exact Nat.add_lt_add_right (Nat.lt_succ_self 5) (d.left s.pending.length)
  · rename_i here
    have lower : ∀ {u : State}, u.queue = s.queue → u.settings = s.settings → u.pc = .select →
        rank u < rank s ∧ u.pc.live = true := by
      intro u queue settings pc
      refine ⟨rankLess queue settings ?_,by rw [pc]; rfl⟩
      rw [pc,here]
      exact Nat.zero_lt_one
    split at moved
    · cases Option.some.inj moved
      exact lower rfl rfl rfl
    · split at moved
      · cases Option.some.inj moved
        exact lower rfl rfl rfl
      · cases Option.some.inj moved
        exact lower rfl rfl rfl
  · rename_i here
    rw [here] at live
    contradiction
  · contradiction

theorem stepLowers {a : Action} (held : Held s x) (opened : s.closeRequested = false) (live : s.pc.live = true)
    (moved : cleanStep s a = some t) : rank t < rank s ∧ t.pc.live = true := by
  unfold cleanStep at moved
  split at moved
  · rename_i both
    rw [Bool.and_eq_true] at both
    obtain ⟨own,clean⟩ := both
    cases a with
    | control draw =>
      simp only [step] at moved
      split at moved
      · exact controlLowers held ‹_› opened moved
      · contradiction
    | bulk draw =>
      simp only [step] at moved
      split at moved
      · exact bulkLowers held ‹_› opened moved
      · contradiction
    | record draw fault =>
      simp only [step] at moved
      split at moved
      · cases of_decide_eq_true clean
        exact recordLowers held ‹_› moved
      · contradiction
    | finish made =>
      simp only [step] at moved
      split at moved
      · exact finishLowers held ‹_› moved
      · contradiction
    | arrive =>
      simp only [step] at moved
      split at moved
      · exact arriveLowers ‹_› moved
      · contradiction
    | windowEnd =>
      simp only [step] at moved
      split at moved
      · rename_i d here
        cases Option.some.inj moved
        refine ⟨rankLess rfl rfl ?_,rfl⟩
        rw [here]
        exact Nat.add_lt_add_right (Nat.lt_succ_self 4) (d.left s.pending.length)
      · contradiction
    | packet draws fault =>
      cases fault with
      | none => exact packetLowers moved
      | some made => contradiction
    | ready =>
      simp only [step] at moved
      split at moved
      · rename_i r rest here
        cases Option.some.inj moved
        have next := phaseNext s.pending.length rest
        refine ⟨rankLess rfl rfl (Nat.lt_of_le_of_lt next ?_),(liveNext rest).1⟩
        rw [here]
        simp only [phase,List.length_nil]
        omega
      · contradiction
    | flush ok =>
      cases ok with
      | true => exact flushLowers live moved
      | false => contradiction
    | _ => contradiction
  · contradiction

end Lowers

section Stock
variable {s t : State} {a : Action} {draw : Draw}

def Drain.packets (d : Drain) : List Packet := (d.current.toList ++ d.deferred).flatMap (·.packets)

def packetsOf : Pc → List Packet
  | .through d _ todo => todo ++ d.packets
  | .prepare _ todo rest => todo ++ rest.flatMap (·.packets)
  | .drain d | .window d => d.packets
  | _ => []

def Known (s : State) (p : Packet) : Prop := p = ⟨none,[settingsFrame]⟩ ∨ ∃ r ∈ s.sent, p ∈ r.packets

structure Stock (s : State) : Prop where
  queue : ∀ r ∈ s.queue, r ∈ s.sent
  packets : ∀ p ∈ packetsOf s.pc, Known s p

theorem packetsNext (requests : List Request) : packetsOf (nextRequest requests) = requests.flatMap (·.packets) := by
  cases requests <;> rfl

theorem stockLess (stock : Stock s) (sent : t.sent = s.sent) (queue : ∀ r ∈ t.queue, r ∈ s.queue)
    (packets : ∀ p ∈ packetsOf t.pc, p ∈ packetsOf s.pc) : Stock t := by
  refine ⟨?_,?_⟩
  · intro r member
    rw [sent]
    exact stock.queue r (queue r member)
  · intro p member
    unfold Known
    rw [sent]
    exact stock.packets p (packets p member)

theorem settledKnown (stock : Stock s) {r : Request} (member : r ∈ s.queue) :
    ∀ p ∈ (s.withSettings r).packets, Known s p := by
  intro p inside
  unfold withSettings at inside
  split at inside
  · rcases List.mem_cons.mp inside with rfl | inside
    · exact .inl rfl
    · exact .inr ⟨r,stock.queue r member,inside⟩
  · exact .inr ⟨r,stock.queue r member,inside⟩

theorem failDrainPackets (s : State) (d : Drain) : packetsOf (s.failDrain d).pc = [] ∧
    (s.failDrain d).sent = s.sent ∧ (s.failDrain d).queue = s.queue := by
  unfold failDrain
  split <;> exact ⟨rfl,rfl,rfl⟩

theorem stockFailed (stock : Stock s) {u : State} (d : Drain) (sent : u.sent = s.sent) (queue : u.queue = s.queue) :
    Stock (u.failDrain d) := by
  obtain ⟨none,sent',queue'⟩ := failDrainPackets u d
  refine stockLess stock (sent'.trans sent) (by rw [queue',queue]; exact fun _ => id) ?_
  rw [none]
  intro p member
  contradiction

theorem stockTaken (stock : Stock s)
    (moved : s.controlStep draw = some t ∨ s.bulkStep draw = some t) : Stock t := by
  have none : ∀ {pc : Pc}, packetsOf pc = [] → ∀ p ∈ packetsOf pc, p ∈ packetsOf s.pc := by
    intro pc blank p member
    rw [blank] at member
    contradiction
  rcases moved with moved | moved
  · obtain ⟨r,rest,found,⟨_,rfl⟩ | ⟨_,u,same,outcome⟩⟩ := controlCases moved
    · refine stockLess stock rfl ?_ (none rfl)
      exact fun q member => (takeControlPerm found).symm.subset (List.mem_cons_of_mem _ member)
    · have drained := drained {s with queue := rest,settings := false}
      rw [← same] at drained
      have fewer : ∀ q ∈ u.queue, q ∈ s.queue := by
        rw [drained.queue]
        intro q member
        exact (takeControlPerm found).symm.subset (List.mem_cons_of_mem _ (List.mem_filter.mp member).1)
      have known := settledKnown stock ((takeControlPerm found).symm.subset List.mem_cons_self)
      have sent : u.sent = s.sent := drained.sent
      obtain ⟨rfl,_⟩ | ⟨_,⟨_,rfl⟩ | ⟨_,rfl⟩⟩ := outcome
      · have queued := queuedOne u (s.withSettings r)
        refine stockLess stock (queued.sent.trans sent) ?_ (none rfl)
        show ∀ q ∈ (u.queueBulkRequest _).queue,_
        rw [queued.queue]
        exact fewer
      · refine ⟨?_,?_⟩
        · show ∀ q ∈ u.queue,q ∈ u.sent
          rw [sent]
          exact fun q member => stock.queue q (fewer q member)
        · show ∀ p ∈ (s.withSettings r).packets ++ [],p = _ ∨ ∃ r ∈ u.sent,p ∈ r.packets
          rw [List.append_nil,sent]
          exact known
      · refine ⟨?_,?_⟩
        · show ∀ q ∈ u.queue,q ∈ u.sent
          rw [sent]
          exact fun q member => stock.queue q (fewer q member)
        · show ∀ p ∈ (s.withSettings r).packets ++ [],p = _ ∨ ∃ r ∈ u.sent,p ∈ r.packets
          rw [List.append_nil,sent]
          exact known
  · obtain ⟨noControl,_,r,rest,first,⟨_,rfl⟩ | ⟨_,outcome⟩⟩ := bulkCases moved
    · refine stockLess stock rfl ?_ (none rfl)
      rw [first]
      exact fun q member => List.mem_cons_of_mem _ member
    · have fewer : ∀ q ∈ s.drainBulk.queue, q ∈ s.queue := by
        rw [(drained s).queue,noControl]
        intro q member
        contradiction
      obtain ⟨_,rfl⟩ | rfl := outcome
      · exact stockLess stock (drained s).sent fewer (none rfl)
      · exact stockLess stock (drained s).sent fewer (none rfl)

theorem stockRecord (stock : Stock s) {d : Drain} (here : s.pc = .drain d) {fault : Fault}
    (moved : s.recordStep d draw fault = some t) : Stock t := by
  have kept : ∀ {u : State} {policy : ShapePolicy}, u.sent = s.sent → u.queue = s.queue →
      u.pc = (if policy.delay then .window (s.afterRecord d policy) else .drain (s.afterRecord d policy)) → Stock u := by
    intro u policy sent queue pc
    refine stockLess stock sent (by rw [queue]; exact fun _ => id) ?_
    rw [here,pc]
    split <;> exact fun _ => id
  unfold recordStep at moved
  split at moved
  · contradiction
  · dsimp only at moved
    split at moved
    · cases Option.some.inj moved
      exact stockFailed stock d rfl rfl
    · split at moved
      · cases Option.some.inj moved
        exact stockFailed stock d rfl rfl
      · split at moved
        · split at moved
          · cases Option.some.inj moved
            exact stockFailed stock _ rfl rfl
          · cases Option.some.inj moved
            exact kept rfl rfl rfl
        · cases Option.some.inj moved
          exact kept rfl rfl rfl

theorem stockPacket (stock : Stock s) {draws : List (Nat × Nat)} {fault : Option Nat}
    (moved : s.packetStep draws fault = some t) : Stock t := by
  unfold packetStep at moved
  split at moved
  · rename_i here
    obtain ⟨records,_,rfl⟩ := Option.map_eq_some_iff.mp moved
    cases fault with
    | some made => exact stockFailed stock _ rfl rfl
    | none =>
      refine stockLess stock rfl (fun _ => id) ?_
      rw [here]
      exact fun p member => List.mem_cons_of_mem _ member
  · rename_i here
    obtain ⟨records,_,rfl⟩ := Option.map_eq_some_iff.mp moved
    cases fault with
    | some made =>
      refine stockLess stock rfl (fun _ => id) ?_
      intro p member
      contradiction
    | none =>
      refine stockLess stock rfl (fun _ => id) ?_
      rw [here]
      exact fun p member => List.mem_cons_of_mem _ member
  · contradiction

theorem stockArrive (stock : Stock s) {d : Drain} (here : s.pc = .window d) (moved : s.arriveStep d = some t) :
    Stock t := by
  unfold arriveStep at moved
  split at moved
  · contradiction
  · split at moved
    · contradiction
    · rename_i r rest found
      have known := settledKnown stock ((takeControlPerm found).symm.subset List.mem_cons_self)
      have fewer : ∀ q ∈ rest, q ∈ s.sent := fun q member =>
        stock.queue q ((takeControlPerm found).symm.subset (List.mem_cons_of_mem _ member))
      have waiting : ∀ p ∈ d.packets, Known s p := by
        have packets := stock.packets
        rwa [here] at packets
      dsimp only at moved
      split at moved
      · cases Option.some.inj moved
        refine ⟨fewer,?_⟩
        intro p member
        exact (List.mem_append.mp member).elim (known p) (waiting p)
      · cases Option.some.inj moved
        refine ⟨fewer,?_⟩
        intro p member
        have member : p ∈ (d.current.toList ++ (d.deferred ++ [s.withSettings r])).flatMap (·.packets) := member
        rw [← List.append_assoc,List.flatMap_append,List.flatMap_singleton] at member
        exact (List.mem_append.mp member).elim (waiting p) (known p)

theorem stockFlush (stock : Stock s) {ok : Bool} (moved : s.flushStep ok = some t) : Stock t := by
  have idle : ∀ {u : State}, u.sent = s.sent → u.queue = s.queue → packetsOf u.pc = [] → Stock u := by
    intro u sent queue none
    refine stockLess stock sent (by rw [queue]; exact fun _ => id) ?_
    rw [none]
    intro p member
    contradiction
  unfold flushStep at moved
  split at moved
  · rename_i d r here
    cases Option.some.inj moved
    cases ok
    · exact stockFailed stock d rfl rfl
    · refine stockLess stock rfl (fun _ => id) ?_
      rw [here]
      exact fun p member => member
  · split at moved
    · cases Option.some.inj moved
      exact idle rfl rfl rfl
    · split at moved
      · cases Option.some.inj moved
        exact idle rfl rfl rfl
      · cases Option.some.inj moved
        cases ok <;> exact idle rfl rfl rfl
  · cases Option.some.inj moved
    cases ok <;> exact idle rfl rfl rfl
  · contradiction

theorem stockStep (stock : Stock s) (moved : step s a = some t) : Stock t := by
  have idle : ∀ {u : State}, u.sent = s.sent → u.queue = s.queue → packetsOf u.pc = [] → Stock u := by
    intro u sent queue none
    refine stockLess stock sent (by rw [queue]; exact fun _ => id) ?_
    rw [none]
    intro p member
    contradiction
  cases a with
  | send control auto packets =>
    simp only [step] at moved
    split at moved
    · contradiction
    · cases Option.some.inj moved
      refine ⟨?_,?_⟩
      · intro r member
        refine (List.mem_append.mp member).elim ?_ (fun new => List.mem_append_right _ new)
        exact fun old => List.mem_append_left _ (stock.queue r old)
      · intro p member
        rcases stock.packets p member with settings | ⟨r,old,inside⟩
        · exact .inl settings
        · exact .inr ⟨r,List.mem_append_left _ old,inside⟩
  | close =>
    cases Option.some.inj moved
    exact stockLess stock rfl (fun _ => id) (fun _ => id)
  | hangUp =>
    cases Option.some.inj moved
    exact stockLess stock rfl (fun _ => id) (fun _ => id)
  | exit =>
    simp only [step] at moved
    split at moved
    · cases Option.some.inj moved
      exact idle rfl rfl rfl
    · contradiction
  | control draw =>
    simp only [step] at moved
    split at moved
    · exact stockTaken stock (.inl moved)
    · contradiction
  | bulk draw =>
    simp only [step] at moved
    split at moved
    · exact stockTaken stock (.inr moved)
    · contradiction
  | record draw fault =>
    simp only [step] at moved
    split at moved
    · exact stockRecord stock ‹_› moved
    · contradiction
  | finish made =>
    simp only [step] at moved
    split at moved
    · rename_i d here
      unfold finishStep at moved
      split at moved
      · contradiction
      · split at moved
        · cases Option.some.inj moved
          exact idle rfl rfl rfl
        · cases Option.some.inj moved
          refine stockLess stock rfl (fun _ => id) ?_
          rw [here]
          show ∀ p ∈ packetsOf (nextRequest _),_
          rw [packetsNext]
          exact fun _ => id
    · contradiction
  | arrive =>
    simp only [step] at moved
    split at moved
    · exact stockArrive stock ‹_› moved
    · contradiction
  | windowEnd =>
    simp only [step] at moved
    split at moved
    · rename_i d here
      cases Option.some.inj moved
      refine stockLess stock rfl (fun _ => id) ?_
      rw [here]
      exact fun _ => id
    · contradiction
  | packet draws fault => exact stockPacket stock moved
  | ready =>
    simp only [step] at moved
    split at moved
    · rename_i r rest here
      cases Option.some.inj moved
      refine stockLess stock rfl (fun _ => id) ?_
      rw [here]
      show ∀ p ∈ packetsOf (nextRequest rest),_
      rw [packetsNext]
      exact fun _ => id
    · contradiction
  | flush ok => exact stockFlush stock moved
  | leave draw =>
    simp only [step] at moved
    split at moved
    · split at moved <;> cases Option.some.inj moved <;> exact idle rfl rfl rfl
    · contradiction
  | goaway last ok =>
    simp only [step] at moved
    split at moved
    · unfold goawayStep at moved
      split at moved
      · cases Option.some.inj moved
        exact idle rfl rfl rfl
      · cases Option.some.inj moved
        cases ok <;> exact idle rfl rfl rfl
    · contradiction

end Stock

section Enabled
variable {s t : State} {x : Split} {a : Action} {draw : Draw}

/- `self_sized_padding_wire_len` sends a packet as one record, and a block has its limit. -/
def Recordable (p : Packet) : Prop := selfSizedPadding (values p.bytes) = true → p.bytes.length ≤ dataRecordCapacity

theorem cutsExist (packet : List Byte) : ∃ draws records, controlCuts draws packet = some records ∧
    ∀ r ∈ records, r.payload.length ≤ dataRecordCapacity := by
  induction size : packet.length using Nat.strongRecOn generalizing packet with
  | _ n ih =>
    have room : 0 < dataRecordCapacity := by decide
    have whole : ∀ target, packet.length ≤ dataRecordCapacity →
        ∀ r ∈ [record (packet.take packet.length) target], r.payload.length ≤ dataRecordCapacity := by
      intro target fits r member
      rw [List.mem_singleton.mp member]
      simpa [record] using fits
    by_cases short : packet.length < dataRecordCapacity
    · by_cases none : packet.length ≤ 0 - controlRecordMinOverhead
      · refine ⟨[(0,dataRecordCapacity)],_,?_,whole 0 (Nat.le_of_lt short)⟩
        simp only [controlCuts]
        rw [if_pos none]
        simp
      · refine ⟨[(0,dataRecordCapacity)],_,?_,whole (dataRecordWireLen dataRecordCapacity) (Nat.le_of_lt short)⟩
        simp only [controlCuts]
        rw [if_neg none,if_neg (Nat.not_le.mpr short)]
        simp [Nat.min_eq_left (Nat.le_of_lt short)]
    · have some' : ¬ packet.length ≤ 0 - controlRecordMinOverhead := by omega
      have full : packet.length ≥ dataRecordCapacity := Nat.not_lt.mp short
      obtain ⟨draws,later,made,fits⟩ := ih (packet.drop dataRecordCapacity).length
        (by rw [List.length_drop]; omega) _ rfl
      by_cases exact' : packet.length ≤ dataRecordCapacity
      · refine ⟨[(0,dataRecordCapacity)],[record (packet.take dataRecordCapacity) maxDataRecordWireLen],?_,?_⟩
        · simp only [controlCuts]
          rw [if_neg some',if_pos full]
          rw [if_pos exact']
        · intro r member
          rw [List.mem_singleton.mp member]
          simp [record]
      · refine ⟨(0,dataRecordCapacity)::draws,record (packet.take dataRecordCapacity) maxDataRecordWireLen::later,?_,?_⟩
        · simp only [controlCuts]
          rw [if_neg some',if_pos full]
          rw [if_neg exact',made]
          rfl
        · intro r member
          rcases List.mem_cons.mp member with rfl | member
          · simp [record]
          · exact fits r member

theorem recordsExist {p : Packet} (fits : Recordable p) : ∃ draws records, controlRecords draws p.bytes = some records := by
  by_cases sized : selfSizedPadding (values p.bytes) = true
  · refine ⟨[],[record p.bytes (p.bytes.length + controlRecordMinOverhead)],?_⟩
    simp only [controlRecords]
    rw [if_pos sized]
    simp [record,fits sized]
  · obtain ⟨draws,records,made,small⟩ := cutsExist p.bytes
    refine ⟨draws,records,?_⟩
    simp only [controlRecords]
    rw [if_neg sized,made]
    simpa using small

theorem knownRecordable (all : ∀ r ∈ s.sent, ∀ p ∈ r.packets, Recordable p) {p : Packet} (known : Known s p) :
    Recordable p := by
  rcases known with rfl | ⟨r,member,inside⟩
  · intro sized
    contradiction
  · exact all r member p inside

theorem enabledBy (a : Action) (own : (writes a && faultless s a) = true) (moves : (step s a).isSome = true) :
    ∃ a t, cleanStep s a = some t := by
  obtain ⟨t,moved⟩ := Option.isSome_iff_exists.mp moves
  exact ⟨a,t,by rw [cleanStep,if_pos own,moved]⟩

theorem takeControlNone {queue : List Request} (none' : takeControl queue = none) : controlOf queue = [] := by
  induction queue with
  | nil => rfl
  | cons r rest ih =>
    unfold takeControl at none'
    split at none'
    · contradiction
    · rename_i bulk
      rw [controlOf,List.filter_cons_of_neg bulk]
      exact ih (Option.map_eq_none_iff.mp none')

theorem selectEnabled (here : s.pc = .select) (some' : s.queue ≠ []) : ∃ a t, cleanStep s a = some t := by
  cases found : takeControl s.queue with
  | some taken =>
    refine enabledBy (.control ⟨0,false,0,false⟩) rfl ?_
    simp only [step,here,if_true,controlStep,found]
    repeat' split
    all_goals rfl
  | none =>
    refine enabledBy (.bulk ⟨0,false,0,false⟩) rfl ?_
    have none' := takeControlNone found
    cases first : s.queue with
    | nil => contradiction
    | cons r rest =>
      rw [first] at none'
      simp only [step,here,if_true,bulkStep,first,none',List.isEmpty_nil]
      repeat' split
      all_goals rfl

theorem drainEnabled {d : Drain} (here : s.pc = .drain d) : ∃ a t, cleanStep s a = some t := by
  by_cases left : d.consumed < s.pending.length
  · refine enabledBy (.record ⟨0,false,0,false⟩ .none) rfl ?_
    simp only [step,here,recordStep,if_neg (Nat.not_le.mpr left),reduceCtorEq,false_and,if_false]
    split <;> rfl
  · refine enabledBy (.finish d.fakes.length) (by simp [writes,faultless,here,drainOf]) ?_
    simp only [step,here,finishStep,if_neg left]
    split <;> rfl

theorem cleanEnabled (stock : Stock s) (all : ∀ r ∈ s.sent, ∀ p ∈ r.packets, Recordable p)
    (live : s.pc.live = true) (busy : ¬ AtRest s) : ∃ a t, cleanStep s a = some t := by
  cases here : s.pc with
  | select => exact selectEnabled here (fun empty => busy ⟨here,empty⟩)
  | drain d => exact drainEnabled here
  | window d => exact enabledBy .windowEnd rfl (by simp [step,here])
  | through d r todo =>
    cases todo with
    | nil => exact enabledBy (.flush true) rfl (by simp [step,flushStep,here])
    | cons p todo =>
      have known := stock.packets p (by rw [here]; exact List.mem_cons_self)
      obtain ⟨draws,records,made⟩ := recordsExist (knownRecordable all known)
      exact enabledBy (.packet draws none) rfl (by simp [step,packetStep,here,made])
  | prepare r todo rest =>
    cases todo with
    | nil => exact enabledBy .ready rfl (by simp [step,here])
    | cons p todo =>
      have known := stock.packets p (by rw [here]; exact List.mem_cons_self)
      obtain ⟨draws,records,made⟩ := recordsExist (knownRecordable all known)
      exact enabledBy (.packet draws none) rfl (by simp [step,packetStep,here,made])
  | merge =>
    refine enabledBy (.flush true) rfl ?_
    simp only [step,flushStep,here]
    repeat' split
    all_goals rfl
  | _ =>
    rw [here] at live
    contradiction

theorem sentKept (own : writes a = true) (moved : step s a = some t) : t.sent = s.sent := by
  cases a with
  | packet draws fault =>
    simp only [step,packetStep] at moved
    split at moved <;> try contradiction
    all_goals
      obtain ⟨records,_,rfl⟩ := Option.map_eq_some_iff.mp moved
      cases fault <;> simp [prepared,(failDrainPackets _ _).2.1]
  | flush ok =>
    simp only [step,flushStep] at moved
    repeat' split at moved
    all_goals first | contradiction | cases Option.some.inj moved
    all_goals cases ok <;> simp [flushed,failed,(failDrainPackets _ _).2.1]
  | record draw fault =>
    simp only [step,recordStep] at moved
    repeat' split at moved
    all_goals first | contradiction | cases Option.some.inj moved
    all_goals simp [flushed,failed,prepared,(failDrainPackets _ _).2.1]
  | control draw | bulk draw | finish made | arrive | windowEnd | ready =>
    simp only [step,controlStep,bulkStep,finishStep,arriveStep] at moved
    repeat' split at moved
    all_goals first | contradiction | cases Option.some.inj moved
    all_goals simp [startDrain,prepared,State.refuse,failed,(queuedOne _ _).sent,(drained _).sent]
  | _ => contradiction

theorem comesToRest (held : Held s x) (stock : Stock s) (all : ∀ r ∈ s.sent, ∀ p ∈ r.packets, Recordable p)
    (opened : s.closeRequested = false) (live : s.pc.live = true) (busy : ¬ AtRest s) :
    Machine.Inevitable cleanStep (fun _ => True) (fun _ t => AtRest t) s := by
  refine Machine.inevitableByRank (I := fun s => (∃ x, Held s x) ∧ Stock s ∧
    (∀ r ∈ s.sent, ∀ p ∈ r.packets, Recordable p) ∧ s.closeRequested = false ∧ s.pc.live = true ∧ ¬ AtRest s)
    rank ?_ ?_ ⟨⟨x,held⟩,stock,all,opened,live,busy⟩
  · rintro s ⟨_,stock,all,_,live,busy⟩
    obtain ⟨a,t,moved⟩ := cleanEnabled stock all live busy
    exact ⟨a,t,trivial,moved⟩
  · rintro s a t ⟨⟨x,held⟩,stock,all,opened,live,_⟩ _ moved
    obtain ⟨lower,live'⟩ := stepLowers held opened live moved
    by_cases rest : AtRest t
    · exact .inl rest
    · unfold cleanStep at moved
      split at moved
      · rename_i both
        obtain ⟨own,clean⟩ := Bool.and_eq_true_iff.mp both
        obtain ⟨y,held',_⟩ := stepLine held clean moved
        refine .inr ⟨⟨⟨y,held'⟩,stockStep stock moved,by rw [sentKept own moved]; exact all,?_,live',rest⟩,lower⟩
        rw [closedKept moved,opened]
        cases a <;> first | rfl | contradiction
      · contradiction

end Enabled

end KanoTls.Writer
