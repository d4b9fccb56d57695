import KanoTls.RelayProgress

/-! Two UDP relays that deadlock. Each of them sends packets while the other's are on
their way, until neither has stream credit for its next packet; then both sleep in
`acquire_credit`, and what would wake them waits for the other to read. -/
namespace KanoTls.Relays
open Pending Window Link Tasks Link.Side Uot

section Gates
variable {g t : Gate} {sid : StreamId} {len : Nat}

def asking (g : Gate) (sid : StreamId) (len : Nat) (pc : GatePc) : Gate :=
  {g with tasks := g.tasks ++ [{sid := sid,len := len,pc := pc}]}

def byItself (_ : Gate) (a : Window.Action) : Prop := isOwn a = true

theorem gateRuns (pc : GatePc) (before : Machine.Reach Window.step byItself t (asking g sid len pc)) {u : Gate}
    (moved : (asking g sid len pc).gateStep g.tasks.length {sid := sid,len := len,pc := pc} = some u) :
    Machine.Reach Window.step byItself t u := by
  refine Machine.Reach.next (a := Window.Action.gate g.tasks.length) before rfl ?_
  simpa [Window.step,asking] using moved

theorem chargesConn (sid : StreamId) (known : g.peerFlowControl = true) (unclosed : g.closeRequested = false)
    (enough : (len : Int) ≤ g.conn) :
    Machine.Reach Window.step byItself (asking g sid len .start)
      (asking {g with conn := g.conn - len} sid len .debited) := by
  have top : Machine.Reach Window.step byItself (asking g sid len .start) (asking g sid len .top) :=
    gateRuns .start .start (by simp [Gate.gateStep,asking,Gate.setTask,known])
  have unarmed : Machine.Reach Window.step byItself (asking g sid len .start) (asking g sid len .unarmed) :=
    gateRuns .top top (by simp [Gate.gateStep,asking,Gate.setTask,unclosed])
  have connArmed : Machine.Reach Window.step byItself (asking g sid len .start) (asking g sid len .connArmed) :=
    gateRuns .unarmed unarmed (by simp [Gate.gateStep,asking,Gate.setTask])
  have armed : Machine.Reach Window.step byItself (asking g sid len .start) (asking g sid len .armed) :=
    gateRuns .connArmed connArmed (by simp [Gate.gateStep,asking,Gate.setTask])
  have loaded : Machine.Reach Window.step byItself (asking g sid len .start) (asking g sid len (.connLoaded g.conn)) :=
    gateRuns .armed armed (by simp [Gate.gateStep,asking,Gate.setTask,enough])
  exact gateRuns (.connLoaded g.conn) loaded (by simp [Gate.gateStep,asking,Gate.setTask])

theorem acquiresCredit (known : g.peerFlowControl = true) (unclosed : g.closeRequested = false)
    (enough : (len : Int) ≤ g.conn) (credit : (len : Int) ≤ g.credit sid) :
    Machine.Reach Window.step byItself (asking g sid len .start)
      (asking {g with conn := g.conn - len,credit := Function.update g.credit sid (g.credit sid - len)} sid len .released) := by
  have debited := chargesConn sid known unclosed enough
  have loaded := gateRuns .debited debited (u := asking {g with conn := g.conn - len} sid len (.streamLoaded (g.credit sid)))
    (by simp [Gate.gateStep,asking,Gate.setTask,credit])
  exact gateRuns (.streamLoaded (g.credit sid)) loaded (by simp [Gate.gateStep,asking,Gate.setTask])

theorem parksForCredit (known : g.peerFlowControl = true) (unclosed : g.closeRequested = false)
    (enough : (len : Int) ≤ g.conn) (small : g.conn ≤ maxI64) (short : g.credit sid < len) :
    Machine.Reach Window.step byItself (asking g sid len .start) (asking g sid len .parked) := by
  have debited := chargesConn sid known unclosed enough
  have back := gateRuns .debited debited (u := asking {g with conn := g.conn - len} sid len .rollback)
    (by simp [Gate.gateStep,asking,Gate.setTask,short])
  have again : wrapI64 g.conn = g.conn := wrapSmall (by omega) small
  exact gateRuns .rollback back (by simp [Gate.gateStep,asking,Gate.setTask,again])

end Gates

theorem gateReaches {s : State} {p : Bool} {g : Gate} (runs : Machine.Reach Window.step byItself (s.link p).gate g) :
    Machine.Reach step Machine.Always s {s with link := Function.update s.link p {s.link p with gate := g}} := by
  induction runs with
  | start =>
    rw [show {s.link p with gate := (s.link p).gate} = s.link p from rfl,Function.update_eq_self]
    exact .start
  | @next g a t before own moved ih =>
    refine .next (a := .session (.own p (.gate a))) ih trivial ?_
    have allowed : isOwn a = true := own
    simp [step,isSession,Link.step,localStep,allowed,moved]

def State.side (s : State) (p : Bool) (x : Side) : State := {s with link := Function.update s.link p x}

structure Calm (x : Side) : Prop where
  known : x.gate.peerFlowControl = true
  unclosed : x.gate.closeRequested = false
  reader : x.gate.reader = .busy
  writer : x.gate.writer = .busy
  control : x.control = []
  bulk : x.bulk = []
  wire : x.wire = []
  done : ∀ a ∈ x.gate.tasks, a.pc = .submitted

/- Nothing is under way, and the stream of `p` has credit for `c p` bytes. -/
structure Filling (sid : StreamId) (c : Bool → Int) (s : State) : Prop where
  stream : sid ≠ 0
  calm : ∀ p, Calm (s.link p)
  registered : ∀ p, (s.link p).registered sid = true
  relay : ∀ p, ∃ r, s.relay p sid = some r ∧ r.network = .udp ∧ r.pc = .select ∧ r.writing = none
  credit : ∀ p, (s.link p).gate.credit sid = c p
  conn : ∀ p, (s.link p).gate.conn + (s.link (!p)).consumed = h2SessionWindowBytes
  few : ∀ p, (s.link p).consumed < connWuThreshold

section Filling
variable {s : State} {p : Bool} {sid : StreamId} {c : Bool → Int} {r : Relay} {packet : Payload} {x : Side}

theorem onePsh (some' : packet ≠ []) (small : packet.length ≤ maxPayloadLen) :
    writeFrames sid none packet = [.psh sid packet] := by
  cases packet with
  | nil => contradiction
  | cons b rest =>
    have all : (b::rest).take maxPayloadLen = b::rest := List.take_of_length_le small
    have none : (b::rest).drop maxPayloadLen = [] := List.drop_of_length_le small
    simp only [writeFrames,encodePshFrames,List.length_cons,chunks,all,none]
    cases rest <;> rfl

theorem beginsWrite (here : s.relay p sid = some r) (select : r.pc = .select) (idle : r.writing = none)
    (registered : (s.link p).registered sid = true) {len : Nat} (small : len ≤ maxPayloadLen) :
    step s (.write p sid 0 len) = some ((s.side p {s.link p with gate := asking (s.link p).gate sid len .start}).setRelay p sid
      {r with writing := some (s.link p).gate.tasks.length}) := by
  have fits : (len : Int) ≤ maxI64 := by
    have large : (maxPayloadLen : Int) ≤ maxI64 := by decide
    omega
  have short : len ≤ relayChunkSize := small
  simp [step,here,writeStep,Relay.writes,select,idle,short,Link.step,localStep,writeAction,registered,Window.step,fits,
    asking,State.side]

theorem gateRunsFor {y : Side} {g : Gate} (runs : Machine.Reach Window.step byItself y.gate g) :
    Machine.Reach step Machine.Always ((s.side p y).setRelay p sid r) ((s.side p {y with gate := g}).setRelay p sid r) := by
  have here : ((s.side p y).setRelay p sid r).link p = y := Function.update_self _ _ _
  have reaches := gateReaches (s := (s.side p y).setRelay p sid r) (p := p) (g := g) (by rw [here]; exact runs)
  rw [here] at reaches
  simpa [State.side,State.setRelay] using reaches

def charged (g : Gate) (sid : StreamId) (len : Nat) (pc : GatePc) : Gate :=
  asking {g with conn := g.conn - len,credit := Function.update g.credit sid (g.credit sid - len)} sid len pc

theorem submitsPacket (calm : Calm x) (frames : writeFrames sid none packet = [.psh sid packet]) :
    step ((s.side p {x with gate := charged x.gate sid packet.length .released}).setRelay p sid r)
        (.session (.own p (.submit x.gate.tasks.length none packet true))) =
      some ((s.side p {x with gate := charged x.gate sid packet.length .submitted,control := [.psh sid packet]}).setRelay p sid r) := by
  simp [step,isSession,Link.step,localStep,Side.submit,Window.step,Gate.submitStep,charged,asking,State.side,State.setRelay,
    Gate.setTask,calm.unclosed,calm.known,calm.control,frames,enqueue]

theorem resumesRelay {y : Side} (here : s.relay p sid = some r) (idle : r.writing = none) {i : Nat} {a : Acquirer}
    (found : y.gate.tasks[i]? = some a) (done : a.pc = .submitted) :
    step ((s.side p y).setRelay p sid {r with writing := some i}) (.written p sid) = some (s.side p y) := by
  have again : (afterWrite {r with writing := some i} true) = r := by
    simp [afterWrite,← idle]
  have self : Function.update s.relay p (Function.update (s.relay p) sid (some r)) = s.relay := by
    rw [← here,Function.update_eq_self,Function.update_eq_self]
  simp [step,writtenStep,State.side,State.setRelay,found,done,outcome,again,self]

theorem sendsPacket (filling : Filling sid c s) (room : (packet.length : Int) ≤ c p) (some' : packet ≠ [])
    (small : packet.length ≤ maxPayloadLen) : Machine.Reach step Machine.Always s (s.side p {s.link p with
      gate := charged (s.link p).gate sid packet.length .submitted,wire := [.psh sid packet]}) := by
  obtain ⟨r,here,udp,select,idle⟩ := filling.relay p
  have calm := filling.calm p
  have enough : (packet.length : Int) ≤ (s.link p).gate.conn := by
    have conn := filling.conn p
    have few := filling.few (!p)
    have ample : connWuThreshold + maxPayloadLen ≤ h2SessionWindowBytes := by decide
    omega
  have credit : (packet.length : Int) ≤ (s.link p).gate.credit sid := by
    rw [filling.credit p]
    exact room
  have asked : Machine.Reach step Machine.Always s _ :=
    .next .start trivial (beginsWrite here select idle (filling.registered p) small)
  have acquired := Machine.reachAfter asked
    (gateRunsFor (acquiresCredit calm.known calm.unclosed enough credit))
  have submitted := Machine.Reach.next acquired trivial (submitsPacket calm (onePsh some' small))
  have resumed := Machine.Reach.next submitted trivial (resumesRelay here idle (i := (s.link p).gate.tasks.length)
    (a := {sid := sid,len := packet.length,pc := .submitted}) (by simp [charged,asking]) rfl)
  refine Machine.Reach.next (a := Action.session (.own p (.transmit true))) resumed trivial ?_
  simp [step,isSession,Link.step,localStep,transmit,State.side,charged,asking,calm.writer,calm.control,calm.wire]

def pair (p : Bool) (x y : Side) : Link.State := fun q => bif q == p then x else y
def State.sides (s : State) (p : Bool) (x y : Side) : State := {s with link := pair p x y}

section Sides
variable {y x' y' : Side} {m : Msg} {rest : List Msg} {kept accepted : Bool} {l : LocalAction}

@[simp] theorem pairSelf : pair p x y p = x := by simp [pair]
@[simp] theorem pairPeer : pair p x y (!p) = y := by simp [pair]

@[simp] theorem pairSet : Function.update (pair p x y) p x' = pair p x' y := by
  funext q
  cases p <;> cases q <;> rfl

@[simp] theorem pairSetPeer : Function.update (pair p x y) (!p) y' = pair p x y' := by
  funext q
  cases p <;> cases q <;> rfl

theorem sideSides : s.side p x = s.sides p x (s.link (!p)) := by
  have same : Function.update s.link p x = pair p x (s.link (!p)) := by
    funext q
    cases p <;> cases q <;> rfl
  rw [State.side,same,State.sides]

theorem ownForth (own : isSession (.own p l) = true) (moved : x.localStep p l = some x') :
    step (s.sides p x y) (.session (.own p l)) = some (s.sides p x' y) := by
  simp [step,own,State.sides,Link.step,moved]

theorem ownBack (own : isSession (.own (!p) l) = true) (moved : y.localStep (!p) l = some y') :
    step (s.sides p x y) (.session (.own (!p) l)) = some (s.sides p x y') := by
  simp [step,own,State.sides,Link.step,moved]

theorem receiveForth (wire : x.wire = m::rest) (moved : y.handleFrame kept accepted m = some y') :
    step (s.sides p x y) (.session (.receive (!p) kept accepted)) = some (s.sides p {x with wire := rest} y') := by
  simp [step,isSession,State.sides,Link.step,wire,moved]

theorem receiveBack (wire : y.wire = m::rest) (moved : x.handleFrame kept accepted m = some x') :
    step (s.sides p x y) (.session (.receive p kept accepted)) = some (s.sides p x' {y with wire := rest}) := by
  simp [step,isSession,State.sides,Link.step,wire,moved]

theorem fillingSides {d : Bool → Int} (filling : Filling sid c s) (calm : Calm x ∧ Calm y)
    (registered : x.registered sid = true ∧ y.registered sid = true)
    (credit : x.gate.credit sid = d p ∧ y.gate.credit sid = d (!p))
    (conn : x.gate.conn + y.consumed = h2SessionWindowBytes ∧ y.gate.conn + x.consumed = h2SessionWindowBytes)
    (few : x.consumed < connWuThreshold ∧ y.consumed < connWuThreshold) : Filling sid d (s.sides p x y) := by
  refine ⟨filling.stream,fun q => ?_,fun q => ?_,filling.relay,fun q => ?_,fun q => ?_,fun q => ?_⟩ <;>
    rcases Bool.eq_or_eq_not q p with rfl | rfl <;> simp only [State.sides,pairSelf,pairPeer,Bool.not_not]
  · exact calm.1
  · exact calm.2
  · exact registered.1
  · exact registered.2
  · exact credit.1
  · exact credit.2
  · exact conn.1
  · exact conn.2
  · exact few.1
  · exact few.2

end Sides

def kept (y : Side) (sid : StreamId) (packet : Payload) (n : Nat) (due : List Msg) : Side :=
  {y with consumed := n,control := due,buffered := Function.update y.buffered sid (y.buffered sid ++ [packet])}

theorem keepsPacket {y : Side} (calm : Calm y) (small : y.consumed + packet.length < connWuThreshold) :
    y.handleFrame true true (.psh sid packet) = some (kept y sid packet (y.consumed + packet.length) []) := by
  have total : min (y.consumed + packet.length) maxU64 = y.consumed + packet.length := by
    have large : connWuThreshold ≤ maxU64 := by decide
    omega
  have below : ¬ y.consumed + packet.length ≥ connWuThreshold := by omega
  simp [handleFrame,calm.reader,noteConnReceived,bumpConnConsumed,total,below,Side.store,kept,calm.control]

theorem keepsPacketDue {y : Side} (calm : Calm y) (large : connWuThreshold ≤ y.consumed + packet.length)
    (few : y.consumed + packet.length ≤ maxU32) :
    y.handleFrame true true (.psh sid packet) =
      some (kept y sid packet 0 [.windowUpdate 0 (y.consumed + packet.length)]) := by
  have total : min (y.consumed + packet.length) maxU64 = y.consumed + packet.length := by
    have large : maxU32 ≤ maxU64 := by decide
    omega
  have fits : min (y.consumed + packet.length) maxU32 = y.consumed + packet.length := by omega
  simp [handleFrame,calm.reader,noteConnReceived,bumpConnConsumed,total,large,fits,Side.store,kept,calm.control,
    sendWindowUpdate,calm.unclosed,enqueue]

theorem calmCharged {len : Nat} (calm : Calm x) : Calm {x with gate := charged x.gate sid len .submitted,wire := []} :=
  ⟨calm.known,calm.unclosed,calm.reader,calm.writer,calm.control,calm.bulk,rfl,everyPush calm.done rfl⟩

theorem calmKept {y : Side} {n : Nat} (calm : Calm y) : Calm (kept y sid packet n []) :=
  ⟨calm.known,calm.unclosed,calm.reader,calm.writer,rfl,calm.bulk,calm.wire,calm.done⟩

def repaid (g : Gate) (n : Nat) : Gate :=
  {g with conn := wrapI64 (g.conn + n),connGranted := g.connGranted + n,tasks := g.tasks.map Acquirer.hearConn}

theorem calmRepaid {n : Nat} (calm : Calm x) : Calm {x with gate := repaid x.gate n} := by
  refine ⟨calm.known,calm.unclosed,calm.reader,calm.writer,calm.control,calm.bulk,calm.wire,?_⟩
  intro a member
  obtain ⟨b,here,rfl⟩ := List.mem_map.mp member
  exact calm.done b here

theorem repays {y : Side} {n : Nat} (calm : Calm x) (other : Calm y) (few : n ≤ maxU32) :
    Machine.Reach step Machine.Always (s.sides p x {y with control := [.windowUpdate 0 n]})
      (s.sides p {x with gate := repaid x.gate n} y) := by
  have sent : step (s.sides p x {y with control := [.windowUpdate 0 n]}) (.session (.own (!p) (.transmit true))) =
      some (s.sides p x {y with wire := [.windowUpdate 0 n]}) :=
    ownBack rfl (by simp [localStep,transmit,other.writer,other.wire,← other.control])
  have fits : n < 4294967296 := Nat.lt_of_le_of_lt few (by decide)
  have arrived : step (s.sides p x {y with wire := [.windowUpdate 0 n]}) (.session (.receive p true true)) =
      some (s.sides p {x with gate :=
        {x.gate with conn := wrapI64 (x.gate.conn + n),connGranted := x.gate.connGranted + n,reader := .dueConn}} y) := by
    have handled : x.handleFrame true true (.windowUpdate 0 n) = some {x with gate :=
        {x.gate with conn := wrapI64 (x.gate.conn + n),connGranted := x.gate.connGranted + n,reader := .dueConn}} := by
      simp [handleFrame,Window.step,Gate.readStep,calm.reader,fits]
    rw [receiveBack (y := {y with wire := [.windowUpdate 0 n]}) rfl handled,← other.wire]
  refine .next (a := Action.session (.own p (.gate (.reader .advance))))
    (.next (.next .start trivial sent) trivial arrived) trivial (ownForth rfl ?_)
  simp [localStep,isOwn,Window.step,Gate.readStep,Gate.readAdvance,Gate.tellConn,repaid,← calm.reader]

theorem fillsPacket (filling : Filling sid c s) (room : (packet.length : Int) ≤ c p) (some' : packet ≠ [])
    (small : packet.length ≤ maxPayloadLen) : ∃ t, Machine.Reach step Machine.Always s t ∧
      Filling sid (Function.update c p (c p - packet.length)) t := by
  have sent := sendsPacket filling room some' small
  rw [sideSides] at sent
  have calm := filling.calm p
  have other := filling.calm (!p)
  have few := filling.few (!p)
  have conn := filling.conn p
  have back := filling.conn (!p)
  rw [Bool.not_not] at back
  have registered : (s.link p).registered sid = true ∧ (s.link (!p)).registered sid = true :=
    ⟨filling.registered p,filling.registered (!p)⟩
  have credit : (s.link p).gate.credit sid - packet.length = Function.update c p (c p - packet.length) p ∧
      (s.link (!p)).gate.credit sid = Function.update c p (c p - packet.length) (!p) := by
    rw [Function.update_self,Function.update_of_ne (Bool.not_ne_self p),filling.credit,filling.credit]
    exact ⟨rfl,rfl⟩
  have limits : connWuThreshold + maxPayloadLen ≤ maxU32 ∧ (maxU32 : Int) ≤ maxI64 ∧ h2SessionWindowBytes ≤ maxU32 ∧
      0 < connWuThreshold := by decide
  rcases Nat.lt_or_ge ((s.link (!p)).consumed + packet.length) connWuThreshold with below | due
  · have held := Machine.Reach.next sent trivial (receiveForth rfl (keepsPacket other below))
    refine ⟨_,held,fillingSides filling ⟨calmCharged calm,calmKept other⟩ registered ?_ ?_ ⟨filling.few p,below⟩⟩
    · simpa [charged,asking,kept] using credit
    · refine ⟨?_,back⟩
      simp only [charged,asking,kept,Int.natCast_add]
      omega
  · have held := Machine.Reach.next sent trivial (receiveForth rfl (keepsPacketDue other due (by omega)))
    have repaid' := Machine.reachAfter held (repays (calmCharged calm) (calmKept other) (by omega))
    refine ⟨_,repaid',fillingSides filling ⟨calmRepaid (calmCharged calm),calmKept other⟩ registered ?_ ?_
      ⟨filling.few p,limits.2.2.2⟩⟩
    · simpa [charged,asking,kept,repaid] using credit
    · refine ⟨?_,back⟩
      simp only [charged,asking,kept,repaid]
      rw [wrapSmall (by omega) (by omega)]
      omega

theorem fills (n : Nat) (filling : Filling sid c s) (room : (n * packet.length : Int) ≤ c p) (some' : packet ≠ [])
    (small : packet.length ≤ maxPayloadLen) : ∃ t, Machine.Reach step Machine.Always s t ∧
      Filling sid (Function.update c p (c p - n * packet.length)) t := by
  induction n with
  | zero =>
    refine ⟨s,.start,?_⟩
    rw [Int.natCast_zero,Int.zero_mul,Int.sub_zero,Function.update_eq_self]
    exact filling
  | succ n ih =>
    have more : ((n + 1 : Nat) : Int) * packet.length = n * packet.length + packet.length := by
      rw [Int.natCast_add,Int.add_mul]
      simp
    obtain ⟨t,reach,full⟩ := ih (by omega)
    obtain ⟨u,later,fuller⟩ := fillsPacket (p := p) full (by rw [Function.update_self]; omega) some' small
    refine ⟨u,Machine.reachAfter reach later,?_⟩
    rw [Function.update_self,Function.update_idem] at fuller
    rw [more,← Int.sub_sub]
    exact fuller

def State.asleep (s : State) (p : Bool) (sid : StreamId) (len : Nat) (r : Relay) : State :=
  (s.side p {s.link p with gate := asking (s.link p).gate sid len .parked}).setRelay p sid
    {r with writing := some (s.link p).gate.tasks.length}

theorem parksRelay {len : Nat} (here : s.relay p sid = some r) (select : r.pc = .select) (idle : r.writing = none)
    (registered : (s.link p).registered sid = true) (calm : Calm (s.link p)) (small : len ≤ maxPayloadLen)
    (enough : (len : Int) ≤ (s.link p).gate.conn ∧ (s.link p).gate.conn ≤ maxI64)
    (short : (s.link p).gate.credit sid < len) : Machine.Reach step Machine.Always s (s.asleep p sid len r) := by
  have asked : Machine.Reach step Machine.Always s _ :=
    .next .start trivial (beginsWrite here select idle registered small)
  exact Machine.reachAfter asked (gateRunsFor (parksForCredit calm.known calm.unclosed enough.1 enough.2 short))

theorem parkedSleeps (len : Nat) (here : s.relay p sid = some r) (udp : r.network = .udp) (select : r.pc = .select)
    (link : s.link p = {x with gate := asking x.gate sid len .parked}) (calm : Calm x)
    (writing : r.writing = some x.gate.tasks.length) : Parked p sid s ∧ Silent (s.link p) ∧ Stuck p sid s := by
  have busy : r.reads = false := by simp [Relay.reads,udp,writing]
  refine ⟨⟨x.gate.tasks.length,{sid := sid,len := len,pc := .parked},?_,?_,rfl,?_⟩,?_,?_,?_⟩
  · simp [awaited,here,writing]
  · simp [link,asking]
  · simp [link,asking,Gate.outstanding,Gate.due,calm.reader]
  · rw [link]
    refine ⟨calm.control,calm.bulk,calm.wire,everyPush (fun a member => ?_) (by simp)⟩
    rw [calm.done a member]
    simp
  · cases buffered : ((s.link p).buffered sid).head? <;> simp [step,here,takeStep,select,busy,buffered]
  · intro sent accepted
    simp [step,here,deliverStep,select]

theorem bothSleep {len : Nat} (filling : Filling sid c s) (small : len ≤ maxPayloadLen) (short : ∀ p, c p < len) :
    ∃ t, Machine.Reach step Machine.Always s t ∧ Deadlocked sid t := by
  have enough (p : Bool) : (len : Int) ≤ (s.link p).gate.conn ∧ (s.link p).gate.conn ≤ maxI64 := by
    have conn := filling.conn p
    have few := filling.few (!p)
    have ample : connWuThreshold + maxPayloadLen ≤ h2SessionWindowBytes ∧ (h2SessionWindowBytes : Int) ≤ maxI64 := by decide
    omega
  have lacks (p : Bool) : (s.link p).gate.credit sid < len := by
    rw [filling.credit p]
    exact short p
  obtain ⟨r,here,udp,select,idle⟩ := filling.relay true
  obtain ⟨r',here',udp',select',idle'⟩ := filling.relay false
  have client := parksRelay here select idle (filling.registered true) (filling.calm true) small (enough true) (lacks true)
  have server := parksRelay (p := false) (s := s.asleep true sid len r) here' select' idle' (filling.registered false)
    (filling.calm false) small (enough false) (lacks false)
  have sleep (p : Bool) : Parked p sid ((s.asleep true sid len r).asleep false sid len r') ∧
      Silent (((s.asleep true sid len r).asleep false sid len r').link p) ∧
      Stuck p sid ((s.asleep true sid len r).asleep false sid len r') := by
    cases p with
    | true =>
      have there : ((s.asleep true sid len r).asleep false sid len r').relay true sid =
          some {r with writing := some (s.link true).gate.tasks.length} := by
        rw [State.asleep,setRelayOther (fun same => Bool.noConfusion same.1)]
        show (s.asleep true sid len r).relay true sid = _
        rw [State.asleep,setRelaySelf]
      exact parkedSleeps len there udp select rfl (filling.calm true) rfl
    | false => exact parkedSleeps len setRelaySelf udp' select' rfl (filling.calm false) rfl
  exact ⟨_,Machine.reachAfter client server,fun p => (sleep p).1,fun p => (sleep p).2.1,fun p => (sleep p).2.2⟩

end Filling

def opensUdp : List Action :=
  established (.session (.own true (.register 1))::.start true 1 .udp::
    writesOn true 1 0 (some [0x75,0x64,0x70,0x3a,0x61,0x3a,0x38,0x30]) []
      [.session (.own false (.register 1)),.start false 1 .tcp,.take false 1,.opened false 1 true])

def opening (p : Bool) : Int := bif p then streamWindowBytes - 8 else streamWindowBytes

theorem opensFilling : ∃ s, Run Machine.Always s ∧ Filling 1 opening s := by
  have ran : (Machine.checked step Machine.Always start opensUdp).any (fun s =>
      decide (∀ p, s.relay p 1 = some {network := .udp,pc := .select}) &&
      decide (∀ p, (s.link p).gate.peerFlowControl = true ∧ (s.link p).gate.closeRequested = false ∧
        (s.link p).gate.reader = .busy ∧ (s.link p).gate.writer = .busy ∧ (s.link p).control = [] ∧
        (s.link p).bulk = [] ∧ (s.link p).wire = [] ∧ ∀ a ∈ (s.link p).gate.tasks, a.pc = .submitted) &&
      decide (∀ p, (s.link p).registered 1 = true ∧ (s.link p).gate.credit 1 = opening p ∧
        (s.link p).gate.conn + (s.link (!p)).consumed = (h2SessionWindowBytes : Int) ∧
        (s.link p).consumed < connWuThreshold)) = true := by rfl
  obtain ⟨s,run,here⟩ := Machine.checkedReaches ran
  simp only [Bool.and_eq_true,decide_eq_true_eq] at here
  obtain ⟨⟨relay,calm⟩,rest⟩ := here
  refine ⟨s,run,by decide,fun p => ?_,fun p => (rest p).1,fun p => ⟨_,relay p,rfl,rfl,rfl⟩,fun p => (rest p).2.1,
    fun p => (rest p).2.2.1,fun p => (rest p).2.2.2⟩
  obtain ⟨known,unclosed,reader,writer,control,bulk,wire,done⟩ := calm p
  exact ⟨known,unclosed,reader,writer,control,bulk,wire,done⟩

def datagram : Payload := encodeAddr (.v4 [10,0,0,1] 53) ++ toBeBytes 32759 ++ List.replicate 32759 0

theorem datagramLength : datagram.length = 32768 := by
  rw [datagram,List.length_append,List.length_replicate]
  rfl

/- 1,023 packets from the client and 1,024 from the server leave both without credit. -/
theorem udpRelaysDeadlock : ∃ s, Run Machine.Always s ∧ Deadlocked 1 s := by
  have some' : datagram ≠ [] := by
    intro none
    have length := datagramLength
    rw [none] at length
    contradiction
  have small : datagram.length ≤ maxPayloadLen := by
    rw [datagramLength]
    decide
  have window : (streamWindowBytes : Int) = 33554432 := by decide
  obtain ⟨s,run,filling⟩ := opensFilling
  obtain ⟨t,client,less⟩ := fills (p := true) 1023 filling
    (by rw [datagramLength]; simp only [opening,cond_true]; omega) some' small
  obtain ⟨u,server,empty⟩ := fills (p := false) 1024 less
    (by rw [datagramLength]; simp only [opening,Function.update_of_ne Bool.false_ne_true,cond_false]; omega) some' small
  obtain ⟨v,asleep,deadlocked⟩ := bothSleep empty small (fun p => by
    rw [datagramLength]
    cases p
    · simp only [Function.update_self,Function.update_of_ne Bool.false_ne_true,opening,cond_false]
      omega
    · simp only [Function.update_self,Function.update_of_ne Bool.false_ne_true.symm,opening,cond_true]
      omega)
  exact ⟨v,Machine.reachAfter (Machine.reachAfter (Machine.reachAfter run client) server) asleep,deadlocked⟩

end KanoTls.Relays
