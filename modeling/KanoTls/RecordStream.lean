import KanoTls.Record

/-! One direction of a tunnel connection: the sender's write half, TCP, and the reader's
calls of `poll_read`, step by step. -/
namespace KanoTls.Record
open Uot Wire Shaper

/- `sent`, `due`, `returned`, `alerted`, `shutting`, `dropped`, `ended` and `readerShut`
are history: the payloads of all records, those before the close_notify, what `poll_read`
has returned, and what has happened on either side. -/
structure Link where
  w : WriteHalf := {}
  wire : Bytes := []
  fin : Bool := false
  r : ReadHalf := {}
  closed : Bool := false
  call : Option Call := none
  last : Option Outcome := none
  sent : Bytes := []
  due : Bytes := []
  returned : Bytes := []
  alerted : Bool := false
  shutting : Bool := false
  dropped : Bool := false
  ended : Bool := false
  readerShut : Bool := false
  deriving DecidableEq, Repr

inductive Act where
  | prepareData (payload : Bytes) (targetWireLen : Nat)
  | prepareControl (payload : Bytes) (targetWireLen : Nat)
  | flush (n : Nat)
  -- `poll_shutdown` between its flushes, and past the second
  | shutdown
  | finish
  | drop
  -- the sender's own read half stores its flags
  | senderClosed
  | senderFailed
  | poll (room : Nat)
  | turn
  | socket (n : Nat)
  | pending
  | eof
  | shutReader
  deriving DecidableEq, Repr

def Act.reads : Act → Prop
  | .turn | .socket _ | .pending | .eof => True
  | _ => False

def Link.prepared (s : Link) (payload : Bytes) : Option (Bool × WriteHalf) → Option Link
  | some (true,w) => some { s with
      w
      sent := s.sent ++ payload
      due := if s.alerted then s.due else s.due ++ payload }
  | _ => none

def Link.complete (s : Link) (outcome : Outcome) (closes : Bool) : Link := { s with
  call := none
  last := some outcome
  closed := s.closed || closes
  ended := s.ended || closes
  returned := match outcome with
    | .ready bytes => s.returned ++ bytes
    | _ => s.returned }

def Link.apply (s : Link) (read : ReadHalf × Turn) : Link :=
  match read with
  | (r,.go c) => { s with r, call := some c }
  | (r,.back outcome closes) => Link.complete { s with r } outcome closes

def step (noise : Noise) (s : Link) : Act → Option Link
  | .prepareData payload target =>
    if s.fin then none else s.prepared payload (prepareDataRecord noise s.w payload target)
  | .prepareControl payload target =>
    if s.fin then none else s.prepared payload (prepareControlRecord noise s.w payload target)
  | .flush n =>
    if s.fin ∨ n = 0 ∨ s.w.buffer.length < s.w.offset + n then none
    else some { s with w := flushed s.w n, wire := s.wire ++ (s.w.buffer.drop s.w.offset).take n }
  | .shutdown =>
    if s.fin ∨ s.w.buffer ≠ [] then none
    else
      let w := writeCloseNotify noise s.w
      some { s with w, shutting := true, alerted := s.alerted || !w.buffer.isEmpty }
  | .finish => if s.fin ∨ ¬ s.shutting ∨ s.w.buffer ≠ [] then none else some { s with fin := true }
  | .drop => if s.fin then none else some { s with fin := true, dropped := true }
  | .senderClosed => some { s with w := { s.w with closed := true } }
  | .senderFailed => some { s with w := { s.w with closed := true, closeNotifyWritten := true } }
  | .poll room =>
    if s.call ≠ none ∨ room = 0 then none
    else if s.closed then some (s.complete (.ready []) false)
    else some { s with call := some { remaining := room } }
  | .turn =>
    match s.call with
    | none => none
    | some c =>
      match c.pc with
      | .outer => some (s.apply (outerTurn s.r c))
      | .inner => some (s.apply (innerTurn noise s.r c))
      | .socket => none
  | .socket n =>
    match s.call with
    | none => none
    | some c =>
      if c.pc ≠ .socket ∨ n = 0 ∨ n > maxTlsRecordPayloadLen ∨ s.wire.length < n then none
      else some { s with
        r := socketTurn s.r (s.wire.take n)
        wire := s.wire.drop n
        call := some { c with pc := .outer } }
  | .pending =>
    match s.call with
    | none => none
    | some c => if c.pc ≠ .socket then none else some (s.complete .pending false)
  | .eof =>
    match s.call with
    | none => none
    | some c =>
      if c.pc ≠ .socket ∨ s.wire ≠ [] ∨ s.fin = false then none
      else if s.r.tlsRxOffset < s.r.tlsRxBuf.length then some (s.complete .error false)
      else some (s.complete (.ready c.filled) true)
  | .shutReader => some { s with closed := true, readerShut := true }

def owed : List Rec → Bytes
  | [] => []
  | .alert::_ => []
  | .data payload _ _ _::rest => payload ++ owed rest

def hasAlert : List Rec → Bool
  | [] => false
  | .alert::_ => true
  | .data _ _ _ _::rest => hasAlert rest

def Rec.payload : Rec → Bytes
  | .data payload _ _ _ => payload
  | .alert => []

def Rec.isAlert : Rec → Bool
  | .data _ _ _ _ => false
  | .alert => true

structure CallOk (r : ReadHalf) (c : Call) : Prop where
  moved : c.progress = true ↔ c.filled ≠ []
  room : c.remaining = 0 → c.filled ≠ []
  inner : c.pc ≠ .outer → r.unread = []
  socket : c.pc = .socket → c.filled = [] ∧ parseTlsRecord r.received = .partly

def taken (s : Link) : Bytes := s.returned ++ (match s.call with | none => [] | some c => c.filled)

/- While `poll_read` has not met the end: the records still to be parsed lie in the
receive buffer, on the wire and in the write buffer, in this order. -/
structure Live (noise : Noise) (s : Link) : Prop where
  stream : ∃ recs, Stream noise s.r.nonce recs (s.r.received ++ (s.wire ++ s.w.buffer.drop s.w.offset)) s.w.nonce ∧
    taken s ++ (s.r.unread ++ owed recs) = s.due ∧ hasAlert recs = s.alerted
  offset : s.r.readOffset ≤ s.r.readBufInner.length
  call : ∀ c, s.call = some c → CallOk s.r c
  closed : s.closed = s.readerShut
  last : s.last = some (.ready []) → s.readerShut = true
  error : s.last = some .error → s.dropped = true
  idle : s.last = some .pending → s.call = none → s.r.unread = [] ∧ parseTlsRecord s.r.received = .partly

structure Ended (s : Link) : Prop where
  front : ∃ rest, s.returned ++ rest = s.due
  whole : s.dropped = false ∨ s.w.buffer = [] → s.returned = s.due
  finished : s.alerted = true ∨ s.fin = true
  call : s.call = none
  closed : s.closed = true
  last : ∃ bytes, s.last = some (.ready bytes)

structure Inv (noise : Noise) (s : Link) : Prop where
  offset : s.w.offset ≤ s.w.buffer.length
  flushed : s.fin = true → s.dropped = false → s.w.buffer = []
  dropped : s.dropped = true → s.fin = true
  shut : s.alerted = true ∨ s.fin = true → s.shutting = true ∨ s.dropped = true
  sent : ∃ later, s.due ++ later = s.sent ∧ (s.alerted = false → later = [])
  live : s.ended = false → Live noise s
  ended : s.ended = true → Ended s

section Turns
variable {noise : Noise} {r : ReadHalf} {c : Call}

theorem unreadEnd (offset : r.readOffset ≤ r.readBufInner.length) (none : r.unread = []) :
    r.readOffset = r.readBufInner.length := by
  have := List.drop_eq_nil_iff.mp none
  omega

theorem consumeReceived (r : ReadHalf) (consumed : Nat) :
    (consumeFrame r (r.tlsRxOffset + consumed)).received = r.received.drop consumed := by
  unfold consumeFrame ReadHalf.received
  rw [List.drop_drop]
  split
  · rename_i last
    rw [last,List.drop_length]
    rfl
  · rfl

theorem consumeSame (r : ReadHalf) (frameEnd : Nat) : (consumeFrame r frameEnd).unread = r.unread ∧
    (consumeFrame r frameEnd).nonce = r.nonce ∧
    (r.readOffset ≤ r.readBufInner.length →
      (consumeFrame r frameEnd).readOffset ≤ (consumeFrame r frameEnd).readBufInner.length) := by
  unfold consumeFrame
  split <;> exact ⟨rfl,rfl,id⟩

theorem putDataOk (ok : CallOk r c) (offset : r.readOffset ≤ r.readBufInner.length) (none : r.unread = []) (data : Bytes) :
    (putData r c data).2.filled ++ (putData r c data).1.unread = c.filled ++ data ∧
    (putData r c data).1.received = r.received ∧ (putData r c data).1.nonce = r.nonce ∧
    (putData r c data).1.tlsRxOffset = r.tlsRxOffset ∧
    (putData r c data).1.readOffset ≤ (putData r c data).1.readBufInner.length ∧
    ((putData r c data).2.progress = true ↔ (putData r c data).2.filled ≠ []) ∧
    ((putData r c data).2.remaining = 0 → (putData r c data).2.filled ≠ []) := by
  have last := unreadEnd offset none
  have kept (more : Bytes) : (r.readBufInner ++ more).drop r.readOffset = more := by
    rw [last,List.drop_left]
  have long (more : Bytes) : r.readOffset ≤ (r.readBufInner ++ more).length := by
    rw [List.length_append]
    omega
  unfold putData
  split
  · rename_i empty
    rw [empty,none]
    exact ⟨rfl,rfl,rfl,rfl,offset,ok.moved,ok.room⟩
  · rename_i some
    split
    · rename_i fits
      have grown : c.filled ++ data.take (min data.length c.remaining) ≠ [] := by
        intro empty
        have := List.length_pos_iff.mpr some
        have gone := (List.append_eq_nil_iff.mp empty).2
        have := congrArg List.length gone
        rw [List.length_take,List.length_nil] at this
        omega
      refine ⟨?_,rfl,rfl,rfl,long _,?_,?_⟩
      · exact (congrArg _ (kept _)).trans (by rw [List.append_assoc,List.take_append_drop])
      · exact ⟨fun _ => grown,fun _ => rfl⟩
      · exact fun _ => grown
    · exact ⟨congrArg _ (kept _),rfl,rfl,rfl,long _,ok.moved,ok.room⟩

theorem outerTurnOk (ok : CallOk r c) (offset : r.readOffset ≤ r.readBufInner.length) :
    ∃ r', r'.received = r.received ∧ r'.nonce = r.nonce ∧ r'.readOffset ≤ r'.readBufInner.length ∧
      ((∃ filled, outerTurn r c = (r',.back (.ready filled) false) ∧ filled ≠ [] ∧
          filled ++ r'.unread = c.filled ++ r.unread) ∨
        ∃ c', outerTurn r c = (r',.go c') ∧ c'.pc = .inner ∧ CallOk r' c' ∧
          c'.filled ++ r'.unread = c.filled ++ r.unread) := by
  unfold outerTurn
  by_cases some : r.readOffset < r.readBufInner.length
  · rw [if_pos some]
    dsimp only
    have count : r.unread.length = r.readBufInner.length - r.readOffset := List.length_drop
    have grown : c.filled ++ r.unread.take (min (r.readBufInner.length - r.readOffset) c.remaining) ≠ [] := by
      intro empty
      obtain ⟨before,gone⟩ := List.append_eq_nil_iff.mp empty
      have positive : c.remaining ≠ 0 := fun zero => ok.room zero before
      have := congrArg List.length gone
      rw [List.length_take,List.length_nil,count] at this
      omega
    by_cases all : r.readOffset + min (r.readBufInner.length - r.readOffset) c.remaining ≥ r.readBufInner.length
    · rw [if_pos all]
      have whole : r.unread.take (min (r.readBufInner.length - r.readOffset) c.remaining) = r.unread := by
        rw [List.take_of_length_le]
        omega
      refine ⟨{ r with readOffset := 0, readBufInner := [] },rfl,rfl,Nat.le_refl _,?_⟩
      rw [whole] at grown ⊢
      by_cases full : c.remaining - min (r.readBufInner.length - r.readOffset) c.remaining = 0
      · rw [if_pos full]
        exact .inl ⟨_,rfl,grown,List.append_nil _⟩
      · rw [if_neg full]
        refine .inr ⟨_,rfl,rfl,?_,List.append_nil _⟩
        exact ⟨⟨fun _ => grown,fun _ => rfl⟩,fun _ => grown,fun _ => rfl,by intro; contradiction⟩
    · rw [if_neg all]
      have full : c.remaining - min (r.readBufInner.length - r.readOffset) c.remaining = 0 := by omega
      rw [if_pos full]
      refine ⟨{ r with readOffset := r.readOffset + min (r.readBufInner.length - r.readOffset) c.remaining },rfl,rfl,?_,
        .inl ⟨_,rfl,grown,?_⟩⟩
      · show r.readOffset + _ ≤ r.readBufInner.length
        omega
      · show (c.filled ++ r.unread.take _) ++ r.readBufInner.drop (r.readOffset + _) = _
        rw [← List.drop_drop,List.append_assoc]
        exact congrArg _ (List.take_append_drop _ _)
  · rw [if_neg some]
    have none : r.unread = [] := List.drop_eq_nil_iff.mpr (Nat.not_lt.mp some)
    exact ⟨r,rfl,rfl,offset,.inr ⟨_,rfl,rfl,⟨ok.moved,ok.room,fun _ => none,by intro; contradiction⟩,rfl⟩⟩

inductive InnerTurn (noise : Noise) (r : ReadHalf) (c : Call) (back : Bytes) (m : Nat) :
    List Rec → ReadHalf × Turn → Prop where
  | wait {recs} (none : c.filled = []) (partly : parseTlsRecord r.received = .partly) :
      InnerTurn noise r c back m recs (r,.go { c with pc := .socket })
  | back {recs} (some : c.filled ≠ []) : InnerTurn noise r c back m recs (r,.back (.ready c.filled) false)
  | finished {rest r'} : InnerTurn noise r c back m (.alert::rest) (r',.back (.ready c.filled) true)
  | data {payload target fits small rest r' c'} (at' : c'.pc = .outer) (ok : CallOk r' c')
      (offset : r'.readOffset ≤ r'.readBufInner.length)
      (stream : Stream noise r'.nonce rest (r'.received ++ back) m)
      (moved : c'.filled ++ r'.unread = c.filled ++ payload) (fewer : r'.received.length < r.received.length) :
      InnerTurn noise r c back m (.data payload target fits small::rest) (r',.go c')

theorem innerTurnPartly (ok : CallOk r c) (partly : parseTlsRecord r.received = .partly) (back : Bytes) (m : Nat)
    (recs : List Rec) : InnerTurn noise r c back m recs (innerTurn noise r c) := by
  unfold innerTurn
  rw [partly]
  dsimp only
  by_cases progress : c.progress = true
  · rw [if_pos progress]
    exact .back (ok.moved.mp progress)
  · rw [if_neg progress]
    refine .wait ?_ partly
    by_contra some
    exact progress (ok.moved.mpr some)

theorem innerTurnOk (undoes : noise.Undoes) (ok : CallOk r c) (offset : r.readOffset ≤ r.readBufInner.length)
    (here : c.pc = .inner) {back : Bytes} {recs : List Rec} {m : Nat}
    (stream : Stream noise r.nonce recs (r.received ++ back) m) :
    InnerTurn noise r c back m recs (innerTurn noise r c) := by
  have none : r.unread = [] := ok.inner (by rw [here]; decide)
  generalize whole : r.received ++ back = bytes at stream
  cases stream with
  | nil =>
    have empty := (List.append_eq_nil_iff.mp whole).1
    exact innerTurnPartly ok (by rw [empty]; rfl) back _ _
  | @cons _ _ rec rest cipher tail sealed later =>
    have size := undoes.tagged sealed
    have plain := plainSmall rec
    rw [blockPlaintextSize,innerContentTypeLen] at plain
    rw [aeadTagLen] at size
    rcases parseRecord whole (by rw [maxTlsRecordPayloadLen]; omega) with ⟨_,partly⟩ | ⟨more,front,joined,parsed⟩
    · exact innerTurnPartly ok partly back _ _
    · have cut : (r.received.take (tlsRecordHeaderLen + cipher.length)).drop tlsRecordHeaderLen = cipher := by
        rw [front,List.drop_take]
        show ((recordHeader cipher.length ++ (cipher ++ more)).drop (recordHeader cipher.length).length).take _ = _
        rw [List.drop_left,Nat.add_sub_cancel_left,List.take_left]
      have rest' : r.received.drop (tlsRecordHeaderLen + cipher.length) = more := by
        rw [front,← List.drop_drop]
        show ((recordHeader cipher.length ++ (cipher ++ more)).drop (recordHeader cipher.length).length).drop _ = _
        rw [List.drop_left,List.drop_left]
      have fewer : more.length < r.received.length := by
        rw [front,List.length_append,List.length_append]
        omega
      have long : tlsRecordHeaderLen < tlsRecordHeaderLen + cipher.length := by omega
      unfold innerTurn
      rw [parsed]
      dsimp only
      rw [if_pos ⟨rfl,long⟩,cut,undoes.undone sealed]
      dsimp only
      cases rec with
      | alert =>
        rw [if_pos (.inl rfl)]
        exact .finished
      | data payload target fits small =>
        have noAlert := blockNoAlert payload target
        have filled : (Rec.data payload target fits small).plain.length > 0 := plain.1
        rw [if_neg (by rintro (one | two); exacts [noAlert.1 one,noAlert.2 two]),if_pos filled]
        have put := putDataOk (r := { r with nonce := bump r.nonce }) (c := c) ⟨ok.moved,ok.room,ok.inner,ok.socket⟩
          offset none (dataRange (Rec.data payload target fits small).plain)
        generalize putData { r with nonce := bump r.nonce } c _ = put' at put ⊢
        obtain ⟨moved,received,nonce,rxOffset,within,progress,room⟩ := put
        have data : dataRange (Rec.data payload target fits small).plain = payload := blockData fits small
        rw [data] at moved
        have consumed := consumeReceived put'.1 (tlsRecordHeaderLen + cipher.length)
        rw [rxOffset,received] at consumed
        have same := consumeSame put'.1 (r.tlsRxOffset + (tlsRecordHeaderLen + cipher.length))
        have left : (consumeFrame put'.1 (r.tlsRxOffset + (tlsRecordHeaderLen + cipher.length))).received = more :=
          consumed.trans rest'
        refine .data rfl ⟨progress,room,by intro; contradiction,by intro; contradiction⟩ (same.2.2 within) ?_ ?_ ?_
        · rw [same.2.1,nonce,left,joined]
          exact later
        · rw [same.1]
          exact moved
        · rw [left]
          exact fewer

end Turns

section Sender
variable {noise : Noise} {s t : Link}

theorem owedSnoc (recs : List Rec) (rec : Rec) :
    owed (recs ++ [rec]) = (if hasAlert recs then owed recs else owed recs ++ rec.payload) ∧
    hasAlert (recs ++ [rec]) = (hasAlert recs || rec.isAlert) := by
  induction recs with
  | nil =>
    cases rec with
    | data payload target fits small => exact ⟨List.append_nil _,rfl⟩
    | alert => exact ⟨rfl,rfl⟩
  | cons first rest ih =>
    cases first with
    | alert => exact ⟨rfl,rfl⟩
    | data payload target fits small =>
      refine ⟨?_,ih.2⟩
      show payload ++ owed (rest ++ [rec]) = if hasAlert rest then payload ++ owed rest else (payload ++ owed rest) ++ rec.payload
      rw [ih.1]
      split
      · rfl
      · rw [List.append_assoc]

theorem streamPut (live : Live noise s) (offset : s.w.offset ≤ s.w.buffer.length) {rec : Rec} {cipher : Bytes}
    (sealed : noise.encrypt s.w.nonce rec.plain = some cipher) :
    ∃ recs, Stream noise s.r.nonce recs (s.r.received ++ (s.wire ++
        (s.w.buffer ++ (recordHeader cipher.length ++ cipher)).drop s.w.offset)) (bump s.w.nonce) ∧
      taken s ++ (s.r.unread ++ owed recs) = (if s.alerted then s.due else s.due ++ rec.payload) ∧
      hasAlert recs = (s.alerted || rec.isAlert) := by
  obtain ⟨recs,stream,due,alert⟩ := live.stream
  obtain ⟨owes,alerts⟩ := owedSnoc recs rec
  refine ⟨recs ++ [rec],?_,?_,?_⟩
  · have more := streamSnoc stream sealed
    rw [List.drop_append_of_le_length offset,← List.append_assoc s.wire,← List.append_assoc s.r.received]
    exact more
  · rw [owes,alert]
    split
    · exact due
    · rw [← due]
      simp only [List.append_assoc]
  · rw [alerts,alert]

theorem sealedBlock {w w' : WriteHalf} {payload : Bytes} {target : Nat}
    (ran : encryptVariableBlock noise w payload target = some (true,w')) :
    ∃ fits small cipher, noise.encrypt w.nonce (Rec.data payload target fits small).plain = some cipher ∧
      w' = { w with nonce := bump w.nonce, buffer := w.buffer ++ (recordHeader cipher.length ++ cipher) } := by
  unfold encryptVariableBlock at ran
  by_cases short : target < payload.length + blockLenPrefixSize + innerContentTypeLen
  · rw [if_pos short] at ran
    contradiction
  · rw [if_neg short] at ran
    by_cases large : target > blockPlaintextSize
    · rw [if_pos large] at ran
      contradiction
    · rw [if_neg large] at ran
      cases found : noise.encrypt w.nonce (block payload target) with
      | none =>
        rw [found] at ran
        cases (Prod.mk.inj (Option.some.inj ran)).1
      | some cipher =>
        rw [found] at ran
        exact ⟨Nat.not_lt.mp short,Nat.not_lt.mp large,cipher,found,(Prod.mk.inj (Option.some.inj ran)).2.symm⟩

theorem notDropped (inv : Inv noise s) (open' : s.fin = false) : s.dropped = false := by
  by_contra dropped
  have fin := inv.dropped (by simpa using dropped)
  rw [open'] at fin
  contradiction

theorem preparedInv (inv : Inv noise s) (open' : s.fin = false) {w w' : WriteHalf} {payload : Bytes} {target : Nat}
    (nonce : w.nonce = s.w.nonce) (buffer : w.buffer = s.w.buffer) (offset : w.offset = s.w.offset)
    (ran : encryptVariableBlock noise w payload target = some (true,w')) :
    Inv noise { s with w := w', sent := s.sent ++ payload, due := if s.alerted then s.due else s.due ++ payload } := by
  obtain ⟨fits,small,cipher,sealed,rfl⟩ := sealedBlock ran
  rw [nonce] at sealed
  have within : w.offset ≤ (w.buffer ++ (recordHeader cipher.length ++ cipher)).length := by
    rw [offset,buffer,List.length_append]
    exact Nat.le_trans inv.offset (Nat.le_add_right _ _)
  refine ⟨within,?_,inv.dropped,inv.shut,?_,?_,?_⟩
  · intro fin
    rw [open'] at fin
    contradiction
  · obtain ⟨later,whole,none⟩ := inv.sent
    by_cases alerted : s.alerted = true
    · refine ⟨later ++ payload,?_,?_⟩
      · show (if s.alerted then s.due else _) ++ _ = _
        rw [if_pos alerted,← List.append_assoc,whole]
      · intro no
        rw [show s.alerted = false from no] at alerted
        contradiction
    · have empty := none (Bool.eq_false_iff.mpr alerted)
      refine ⟨[],?_,fun _ => rfl⟩
      show (if s.alerted then s.due else s.due ++ payload) ++ [] = _
      rw [if_neg alerted,← whole,empty]
      simp
  · intro notEnded
    have live := inv.live notEnded
    obtain ⟨recs,stream,due,alert⟩ := streamPut live inv.offset sealed
    refine { live with stream := ⟨recs,?_,due,alert.trans (Bool.or_false _)⟩ }
    show Stream noise s.r.nonce recs (s.r.received ++ (s.wire ++ (w.buffer ++ _).drop w.offset)) (bump w.nonce)
    rw [nonce,buffer,offset]
    exact stream
  · intro ended
    have was := inv.ended ended
    have alerted : s.alerted = true := was.finished.resolve_right (by rw [open']; decide)
    have same : (if s.alerted then s.due else s.due ++ payload) = s.due := if_pos alerted
    refine ⟨same.symm ▸ was.front,fun _ => ?_,was.finished,was.call,was.closed,was.last⟩
    exact (was.whole (.inl (notDropped inv open'))).trans same.symm

theorem flushInv (inv : Inv noise s) (n : Nat) (fits : s.w.offset + n ≤ s.w.buffer.length) (open' : s.fin = false) :
    Inv noise { s with w := flushed s.w n, wire := s.wire ++ (s.w.buffer.drop s.w.offset).take n } := by
  have parts : (s.w.buffer.drop s.w.offset).take n ++ (flushed s.w n).buffer.drop (flushed s.w n).offset =
      s.w.buffer.drop s.w.offset := by
    unfold flushed
    split
    · rw [← List.drop_drop,List.take_append_drop]
    · rename_i all
      rw [List.take_of_length_le (by rw [List.length_drop]; omega)]
      exact List.append_nil _
  have nonce : (flushed s.w n).nonce = s.w.nonce := by
    unfold flushed
    split <;> rfl
  refine ⟨?_,?_,inv.dropped,inv.shut,inv.sent,?_,fun ended => ?_⟩
  · show (flushed s.w n).offset ≤ (flushed s.w n).buffer.length
    unfold flushed
    split
    · exact fits
    · exact Nat.le_refl _
  · intro fin
    rw [show s.fin = true from fin] at open'
    contradiction
  · intro notEnded
    have live := inv.live notEnded
    obtain ⟨recs,stream,due,alert⟩ := live.stream
    refine { live with stream := ⟨recs,?_,due,alert⟩ }
    show Stream noise s.r.nonce recs (s.r.received ++ ((s.wire ++ _) ++ _)) (flushed s.w n).nonce
    rw [List.append_assoc,parts,nonce]
    exact stream
  · have was := inv.ended ended
    exact ⟨was.front,fun _ => was.whole (.inl (notDropped inv open')),was.finished,was.call,was.closed,was.last⟩

theorem shutdownInv (inv : Inv noise s) (open' : s.fin = false) (empty : s.w.buffer = []) :
    Inv noise { s with
      w := writeCloseNotify noise s.w
      shutting := true
      alerted := s.alerted || !(writeCloseNotify noise s.w).buffer.isEmpty } := by
  have start : s.w.offset = 0 := by
    have := inv.offset
    rw [empty] at this
    exact Nat.le_zero.mp this
  have kept (w' : WriteHalf) (same : w'.buffer = s.w.buffer) (nonce : w'.nonce = s.w.nonce) (offset : w'.offset = s.w.offset) :
      Inv noise { s with w := w', shutting := true, alerted := s.alerted || !w'.buffer.isEmpty } := by
    have noAlert : (s.alerted || !w'.buffer.isEmpty) = s.alerted := by
      rw [same,empty]
      exact Bool.or_false _
    rw [noAlert]
    refine ⟨?_,?_,inv.dropped,fun _ => .inl rfl,inv.sent,?_,fun ended => ?_⟩
    · show w'.offset ≤ w'.buffer.length
      rw [same,offset]
      exact inv.offset
    · exact fun _ _ => same.trans empty
    · intro notEnded
      have live := inv.live notEnded
      obtain ⟨recs,stream,due,alert⟩ := live.stream
      refine { live with stream := ⟨recs,?_,due,alert⟩ }
      show Stream noise s.r.nonce recs (s.r.received ++ (s.wire ++ w'.buffer.drop w'.offset)) w'.nonce
      rw [same,nonce,offset]
      exact stream
    · have was := inv.ended ended
      exact ⟨was.front,fun _ => was.whole (.inl (notDropped inv open')),was.finished,was.call,was.closed,was.last⟩
  unfold writeCloseNotify
  split
  · exact kept s.w rfl rfl rfl
  · split
    · exact kept _ rfl rfl rfl
    · rename_i cipher sealed
      have some : (s.alerted || !(s.w.buffer ++ (recordHeader cipher.length ++ cipher)).isEmpty) = true := by
        rw [empty]
        exact Bool.or_true _
      dsimp only
      rw [some]
      refine ⟨?_,?_,inv.dropped,fun _ => .inl rfl,?_,?_,fun ended => ?_⟩
      · show s.w.offset ≤ _
        rw [start]
        exact Nat.zero_le _
      · intro fin
        rw [show s.fin = true from fin] at open'
        contradiction
      · obtain ⟨later,whole,_⟩ := inv.sent
        exact ⟨later,whole,fun no => by contradiction⟩
      · intro notEnded
        have live := inv.live notEnded
        obtain ⟨recs,stream,due,alert⟩ := @streamPut _ _ live inv.offset .alert _ sealed
        have same : (if s.alerted then s.due else s.due ++ Rec.alert.payload) = s.due := by
          split
          · rfl
          · exact List.append_nil _
        exact { live with stream := ⟨recs,stream,due.trans same,alert.trans (Bool.or_true _)⟩ }
      · have was := inv.ended ended
        exact ⟨was.front,fun _ => was.whole (.inl (notDropped inv open')),.inl rfl,was.call,was.closed,was.last⟩

theorem finInv (inv : Inv noise s) (open' : s.fin = false) (dropped : Bool)
    (why : s.shutting = true ∧ s.w.buffer = [] ∨ dropped = true) : Inv noise { s with fin := true, dropped } := by
  have kept := notDropped inv open'
  refine ⟨inv.offset,?_,fun _ => rfl,?_,inv.sent,?_,fun ended => ?_⟩
  · intro _ no
    rcases why with ⟨_,empty⟩ | yes
    · exact empty
    · rw [show dropped = false from no] at yes
      contradiction
  · intro _
    rcases why with ⟨shutting,_⟩ | yes
    · exact .inl shutting
    · exact .inr yes
  · intro notEnded
    have live := inv.live notEnded
    refine { live with error := fun failed => ?_ }
    rw [live.error failed] at kept
    contradiction
  · have was := inv.ended ended
    exact ⟨was.front,fun _ => was.whole (.inl kept),.inr rfl,was.call,was.closed,was.last⟩

theorem flagsInv (inv : Inv noise s) (closed closeNotifyWritten : Bool) :
    Inv noise { s with w := { s.w with closed, closeNotifyWritten } } := by
  refine ⟨inv.offset,inv.flushed,inv.dropped,inv.shut,inv.sent,?_,fun ended => ?_⟩
  · intro notEnded
    have live := inv.live notEnded
    exact { live with }
  · have was := inv.ended ended
    exact ⟨was.front,was.whole,was.finished,was.call,was.closed,was.last⟩

end Sender

section Reader
variable {noise : Noise} {s t : Link} {c : Call}

theorem readerInv (inv : Inv noise s) (w : t.w = s.w) (fin : t.fin = s.fin) (dropped : t.dropped = s.dropped)
    (alerted : t.alerted = s.alerted) (shutting : t.shutting = s.shutting) (due : t.due = s.due) (sent : t.sent = s.sent)
    (live : t.ended = false → Live noise t) (ended : t.ended = true → Ended t) : Inv noise t := by
  refine ⟨?_,?_,?_,?_,?_,live,ended⟩
  · rw [w]
    exact inv.offset
  · rw [fin,dropped,w]
    exact inv.flushed
  · rw [dropped,fin]
    exact inv.dropped
  · rw [alerted,fin,shutting,dropped]
    exact inv.shut
  · rw [due,sent,alerted]
    exact inv.sent

theorem goInv (inv : Inv noise s) (notEnded : s.ended = false) {r : ReadHalf} (offset : r.readOffset ≤ r.readBufInner.length)
    (ok : CallOk r c) {recs : List Rec} {wire : Bytes}
    (stream : Stream noise r.nonce recs (r.received ++ (wire ++ s.w.buffer.drop s.w.offset)) s.w.nonce)
    (due : s.returned ++ c.filled ++ (r.unread ++ owed recs) = s.due) (alert : hasAlert recs = s.alerted) :
    Inv noise { s with r, wire, call := some c } := by
  have live := inv.live notEnded
  refine readerInv inv rfl rfl rfl rfl rfl rfl rfl (fun _ => ?_) (fun yes => ?_)
  · refine ⟨⟨recs,stream,due,alert⟩,offset,?_,live.closed,live.last,live.error,fun _ none => by contradiction⟩
    intro c' here
    cases Option.some.inj here
    exact ok
  · rw [show s.ended = true from yes] at notEnded
    contradiction

theorem backInv (inv : Inv noise s) (notEnded : s.ended = false) {r : ReadHalf}
    (offset : r.readOffset ≤ r.readBufInner.length)
    {recs : List Rec} (stream : Stream noise r.nonce recs (r.received ++ (s.wire ++ s.w.buffer.drop s.w.offset)) s.w.nonce)
    (alert : hasAlert recs = s.alerted) {outcome : Outcome}
    (due : (Link.complete { s with r } outcome false).returned ++ (r.unread ++ owed recs) = s.due)
    (some : outcome = .ready [] → s.readerShut = true) (error : outcome = .error → s.dropped = true)
    (idle : outcome = .pending → r.unread = [] ∧ parseTlsRecord r.received = .partly) :
    Inv noise (Link.complete { s with r } outcome false) := by
  have live := inv.live notEnded
  refine readerInv inv rfl rfl rfl rfl rfl rfl rfl (fun _ => ?_) (fun yes => ?_)
  · refine ⟨⟨recs,stream,?_,alert⟩,offset,fun c' none => by contradiction,(Bool.or_false _).trans live.closed,?_,?_,?_⟩
    · refine Eq.trans (congrArg₂ _ ?_ rfl) due
      exact List.append_nil _
    · exact fun last => some (Option.some.inj last)
    · exact fun last => error (Option.some.inj last)
    · exact fun last _ => idle (Option.some.inj last)
  · have : (s.ended || false) = true := yes
    rw [notEnded] at this
    contradiction

theorem overInv (inv : Inv noise s) (r : ReadHalf) (filled : Bytes) {rest : Bytes}
    (front : s.returned ++ filled ++ rest = s.due)
    (whole : s.dropped = false ∨ s.w.buffer = [] → s.returned ++ filled = s.due) (finished : s.alerted = true ∨ s.fin = true) :
    Inv noise (Link.complete { s with r } (.ready filled) true) := by
  refine readerInv inv rfl rfl rfl rfl rfl rfl rfl (fun no => ?_) (fun _ => ?_)
  · have : (s.ended || true) = false := no
    rw [Bool.or_true] at this
    contradiction
  · exact ⟨⟨rest,front⟩,whole,finished,rfl,Bool.or_true _,⟨filled,rfl⟩⟩

theorem outerInv (inv : Inv noise s) (notEnded : s.ended = false) (here : s.call = some c) :
    Inv noise (s.apply (outerTurn s.r c)) := by
  have live := inv.live notEnded
  obtain ⟨recs,stream,due,alert⟩ := live.stream
  rw [taken,here] at due
  obtain ⟨r',received,nonce,offset,⟨filled,turned,some,moved⟩ | ⟨c',turned,_,ok,moved⟩⟩ :=
    outerTurnOk (live.call c here) live.offset
  · rw [turned]
    refine backInv inv notEnded offset (by rw [received,nonce]; exact stream) alert ?_ ?_ (by intro; contradiction)
      (by intro; contradiction)
    · show s.returned ++ filled ++ (r'.unread ++ owed recs) = s.due
      rw [← due,List.append_assoc,List.append_assoc,← List.append_assoc filled,moved,List.append_assoc]
    · intro empty
      exact absurd (Outcome.ready.inj empty) some
  · rw [turned]
    refine goInv inv notEnded offset ok (by rw [received,nonce]; exact stream) ?_ alert
    rw [← due,List.append_assoc,List.append_assoc,← List.append_assoc c'.filled,moved,List.append_assoc]

theorem innerInv (undoes : noise.Undoes) (inv : Inv noise s) (notEnded : s.ended = false) (here : s.call = some c)
    (pc : c.pc = .inner) : Inv noise (s.apply (innerTurn noise s.r c)) := by
  have live := inv.live notEnded
  have ok := live.call c here
  obtain ⟨recs,stream,due,alert⟩ := live.stream
  rw [taken,here] at due
  have none : s.r.unread = [] := ok.inner (by rw [pc]; decide)
  have turned := innerTurnOk undoes ok live.offset pc stream
  generalize innerTurn noise s.r c = out at turned ⊢
  cases turned with
  | wait empty partly =>
    refine goInv inv notEnded live.offset ?_ stream due alert
    exact ⟨ok.moved,ok.room,fun _ => none,fun _ => ⟨empty,partly⟩⟩
  | back some =>
    refine backInv inv notEnded live.offset stream alert due ?_ (by intro; contradiction) (by intro; contradiction)
    intro empty
    exact absurd (Outcome.ready.inj empty) some
  | finished =>
    rw [none] at due
    have whole : s.returned ++ c.filled = s.due := by
      rw [← due]
      exact (List.append_nil _).symm
    exact overInv inv _ _ due (fun _ => whole) (.inl alert.symm)
  | data at' ok' offset stream' moved fewer =>
    refine goInv inv notEnded offset ok' stream' ?_ alert
    rename_i payload target fits small rest r' c'
    rw [none] at due
    show s.returned ++ c'.filled ++ (r'.unread ++ owed rest) = s.due
    rw [← due,List.append_assoc,List.append_assoc,← List.append_assoc c'.filled,moved,List.append_assoc]
    rfl

theorem streamPartly (undoes : noise.Undoes) {n m : Nat} {recs : List Rec} {front : Bytes}
    (stream : Stream noise n recs front m) (partly : parseTlsRecord front = .partly) : recs = [] ∧ front = [] := by
  cases stream with
  | nil => exact ⟨rfl,rfl⟩
  | @cons _ _ rec rest cipher tail sealed later =>
    have size := undoes.tagged sealed
    have plain := plainSmall rec
    rw [blockPlaintextSize,innerContentTypeLen] at plain
    rw [aeadTagLen] at size
    have small : cipher.length ≤ maxTlsRecordPayloadLen := by
      rw [maxTlsRecordPayloadLen]
      omega
    rcases parseRecord (List.append_nil (recordHeader cipher.length ++ (cipher ++ tail))) small with ⟨short,_⟩ | ⟨more,
      _,_,parsed⟩
    · have header : (recordHeader cipher.length).length = tlsRecordHeaderLen := rfl
      rw [List.length_append,List.length_append,header] at short
      omega
    · rw [partly] at parsed
      contradiction

theorem socketInv (inv : Inv noise s) (notEnded : s.ended = false) (here : s.call = some c) (n : Nat) :
    Inv noise { s with r := socketTurn s.r (s.wire.take n), wire := s.wire.drop n, call := some { c with pc := .outer } } := by
  have live := inv.live notEnded
  have ok := live.call c here
  obtain ⟨recs,stream,due,alert⟩ := live.stream
  rw [taken,here] at due
  refine goInv (r := socketTurn s.r (s.wire.take n)) (c := { c with pc := .outer }) inv notEnded live.offset ?_ ?_ due alert
  · exact ⟨ok.moved,ok.room,by intro; contradiction,by intro; contradiction⟩
  · show Stream noise s.r.nonce recs ((s.r.received ++ s.wire.take n) ++ (s.wire.drop n ++ _)) s.w.nonce
    rw [List.append_assoc,← List.append_assoc (s.wire.take n),List.take_append_drop]
    exact stream

theorem pendingInv (inv : Inv noise s) (notEnded : s.ended = false) (here : s.call = some c) (pc : c.pc = .socket) :
    Inv noise (s.complete .pending false) := by
  have live := inv.live notEnded
  have ok := live.call c here
  obtain ⟨recs,stream,due,alert⟩ := live.stream
  obtain ⟨empty,partly⟩ := ok.socket pc
  rw [taken,here] at due
  dsimp only at due
  rw [empty,List.append_nil] at due
  have none := ok.inner (by rw [pc]; decide)
  exact backInv inv notEnded live.offset stream alert due (by intro; contradiction) (by intro; contradiction)
    (fun _ => ⟨none,partly⟩)

theorem eofInv (undoes : noise.Undoes) (inv : Inv noise s) (notEnded : s.ended = false) (here : s.call = some c)
    (pc : c.pc = .socket) (wire : s.wire = []) (fin : s.fin = true) :
    (s.r.tlsRxOffset < s.r.tlsRxBuf.length → Inv noise (s.complete .error false)) ∧
    (¬ s.r.tlsRxOffset < s.r.tlsRxBuf.length → Inv noise (s.complete (.ready c.filled) true)) := by
  have live := inv.live notEnded
  have ok := live.call c here
  obtain ⟨recs,stream,due,alert⟩ := live.stream
  obtain ⟨empty,partly⟩ := ok.socket pc
  rw [taken,here] at due
  dsimp only at due
  have none := ok.inner (by rw [pc]; decide)
  have all : s.dropped = false ∨ s.w.buffer = [] → recs = [] ∧ s.r.received = [] := by
    intro kept
    have flushed : s.w.buffer = [] := kept.elim (inv.flushed fin) id
    rw [wire,flushed,List.drop_nil,List.append_nil,List.append_nil] at stream
    exact streamPartly undoes stream partly
  constructor
  · intro inside
    rw [empty,List.append_nil] at due
    refine backInv inv notEnded live.offset stream alert due (by intro; contradiction) ?_ (by intro; contradiction)
    intro _
    by_contra kept
    have gone := List.drop_eq_nil_iff.mp (all (.inl (Bool.eq_false_iff.mpr kept))).2
    omega
  · intro _
    refine @overInv _ _ inv s.r c.filled (owed recs) ?_ ?_ (.inr fin)
    · rw [none] at due
      exact due
    · intro kept
      rw [none,(all kept).1] at due
      rw [← due]
      exact (List.append_nil _).symm

theorem pollInv (inv : Inv noise s) (idle : s.call = none) {room : Nat} (positive : room ≠ 0) :
    (s.closed = true → Inv noise (s.complete (.ready []) false)) ∧
    (s.closed = false → Inv noise { s with call := some { remaining := room } }) := by
  by_cases ended : s.ended = true
  · have was := inv.ended ended
    constructor
    · intro _
      refine readerInv inv rfl rfl rfl rfl rfl rfl rfl (fun no => ?_) (fun _ => ?_)
      · have : (s.ended || false) = false := no
        rw [ended] at this
        contradiction
      · have same : (s.complete (.ready []) false).returned = s.returned := List.append_nil _
        refine ⟨same.symm ▸ was.front,fun kept => same.trans (was.whole kept),was.finished,rfl,?_,⟨[],rfl⟩⟩
        exact (Bool.or_false _).trans was.closed
    · intro no
      rw [was.closed] at no
      contradiction
  · have notEnded : s.ended = false := Bool.eq_false_iff.mpr ended
    have live := inv.live notEnded
    obtain ⟨recs,stream,due,alert⟩ := live.stream
    rw [taken,idle] at due
    constructor
    · intro closed
      exact backInv inv notEnded live.offset stream alert due (fun _ => live.closed.symm.trans closed)
        (by intro; contradiction) (by intro; contradiction)
    · intro _
      refine goInv (c := { remaining := room }) inv notEnded live.offset ?_ stream due alert
      exact ⟨⟨by intro; contradiction,fun no => absurd rfl no⟩,fun zero => absurd zero positive,fun no => absurd rfl no,
        by intro; contradiction⟩

theorem shutReaderInv (inv : Inv noise s) : Inv noise { s with closed := true, readerShut := true } := by
  refine readerInv inv rfl rfl rfl rfl rfl rfl rfl (fun no => ?_) (fun yes => ?_)
  · have live := inv.live no
    exact { live with closed := rfl, last := fun _ => rfl }
  · have was := inv.ended yes
    exact ⟨was.front,was.whole,was.finished,was.call,rfl,was.last⟩

theorem callLive (inv : Inv noise s) (here : s.call = some c) : s.ended = false := by
  by_contra ended
  have none := (inv.ended (by simpa using ended)).call
  rw [here] at none
  contradiction

end Reader

section Runs
variable {noise : Noise} {s t : Link} {a : Act}

theorem preparedSome {out : Option (Bool × WriteHalf)} {payload : Bytes} (ran : s.prepared payload out = some t) :
    ∃ w, out = some (true,w) ∧
      t = { s with w, sent := s.sent ++ payload, due := if s.alerted then s.due else s.due ++ payload } := by
  cases out with
  | none => contradiction
  | some pair =>
    obtain ⟨ok,w⟩ := pair
    cases ok with
    | false => contradiction
    | true => exact ⟨w,rfl,(Option.some.inj ran).symm⟩

theorem startInv : Inv noise ({} : Link) := by
  refine ⟨Nat.le_refl _,by intro; contradiction,by intro; contradiction,?_,⟨[],rfl,fun _ => rfl⟩,fun _ => ?_,
    by intro; contradiction⟩
  · rintro (no | no) <;> contradiction
  · exact ⟨⟨[],.nil 0,rfl,rfl⟩,Nat.le_refl _,fun c no => by contradiction,rfl,by intro; contradiction,
      by intro; contradiction,by intro; contradiction⟩

theorem stepInv (undoes : noise.Undoes) (inv : Inv noise s) (moved : step noise s a = some t) : Inv noise t := by
  cases a with
  | prepareData payload target =>
    obtain ⟨notFin,ran⟩ := Option.ite_none_left_eq_some.mp moved
    obtain ⟨w,sealed,rfl⟩ := preparedSome ran
    exact preparedInv inv (Bool.eq_false_iff.mpr notFin) rfl rfl rfl sealed
  | prepareControl payload target =>
    obtain ⟨notFin,ran⟩ := Option.ite_none_left_eq_some.mp moved
    obtain ⟨w,sealed,rfl⟩ := preparedSome ran
    exact preparedInv (w := { s.w with controlFrameCount := bump s.w.controlFrameCount }) inv
      (Bool.eq_false_iff.mpr notFin) rfl rfl rfl sealed
  | flush n =>
    obtain ⟨may,ran⟩ := Option.ite_none_left_eq_some.mp moved
    cases Option.some.inj ran
    push Not at may
    exact flushInv inv n may.2.2 (Bool.eq_false_iff.mpr may.1)
  | shutdown =>
    obtain ⟨may,ran⟩ := Option.ite_none_left_eq_some.mp moved
    cases Option.some.inj ran
    push Not at may
    exact shutdownInv inv (Bool.eq_false_iff.mpr may.1) may.2
  | finish =>
    obtain ⟨may,ran⟩ := Option.ite_none_left_eq_some.mp moved
    cases Option.some.inj ran
    push Not at may
    exact finInv inv (Bool.eq_false_iff.mpr may.1) s.dropped (.inl may.2)
  | drop =>
    obtain ⟨notFin,ran⟩ := Option.ite_none_left_eq_some.mp moved
    cases Option.some.inj ran
    exact finInv inv (Bool.eq_false_iff.mpr notFin) true (.inr rfl)
  | senderClosed =>
    cases Option.some.inj moved
    exact flagsInv inv true s.w.closeNotifyWritten
  | senderFailed =>
    cases Option.some.inj moved
    exact flagsInv inv true true
  | poll room =>
    obtain ⟨may,ran⟩ := Option.ite_none_left_eq_some.mp moved
    push Not at may
    obtain ⟨closes,goes⟩ := pollInv inv may.1 may.2
    by_cases closed : s.closed = true
    · rw [if_pos closed] at ran
      cases Option.some.inj ran
      exact closes closed
    · rw [if_neg closed] at ran
      cases Option.some.inj ran
      exact goes (Bool.eq_false_iff.mpr closed)
  | turn =>
    cases here : s.call with
    | none => simp [step,here] at moved
    | some c =>
      have notEnded := callLive inv here
      cases pc : c.pc with
      | outer =>
        simp only [step,here,pc] at moved
        cases Option.some.inj moved
        exact outerInv inv notEnded here
      | inner =>
        simp only [step,here,pc] at moved
        cases Option.some.inj moved
        exact innerInv undoes inv notEnded here pc
      | socket => simp [step,here,pc] at moved
  | socket n =>
    cases here : s.call with
    | none => simp [step,here] at moved
    | some c =>
      simp only [step,here] at moved
      obtain ⟨may,ran⟩ := Option.ite_none_left_eq_some.mp moved
      cases Option.some.inj ran
      push Not at may
      exact socketInv inv (callLive inv here) here n
  | pending =>
    cases here : s.call with
    | none => simp [step,here] at moved
    | some c =>
      simp only [step,here] at moved
      obtain ⟨may,ran⟩ := Option.ite_none_left_eq_some.mp moved
      cases Option.some.inj ran
      push Not at may
      exact pendingInv inv (callLive inv here) here may
  | eof =>
    cases here : s.call with
    | none => simp [step,here] at moved
    | some c =>
      simp only [step,here] at moved
      obtain ⟨may,ran⟩ := Option.ite_none_left_eq_some.mp moved
      push Not at may
      obtain ⟨fails,closes⟩ := eofInv undoes inv (callLive inv here) here may.1 may.2.1 (by simpa using may.2.2)
      by_cases inside : s.r.tlsRxOffset < s.r.tlsRxBuf.length
      · rw [if_pos inside] at ran
        cases Option.some.inj ran
        exact fails inside
      · rw [if_neg inside] at ran
        cases Option.some.inj ran
        exact closes inside
  | shutReader =>
    cases Option.some.inj moved
    exact shutReaderInv inv

/- Bytes on the wire weigh more: moving one into the buffer pays for the turns it costs. -/
def rank (s : Link) : Nat :=
  match s.call with
  | none => 0
  | some c => 3 * s.r.received.length + 6 * s.wire.length +
    match c.pc with
    | .outer => 2
    | .inner => 1
    | .socket => 0

theorem readEnabled (s : Link) (under : s.call ≠ none) : ∃ a t, a.reads ∧ step noise s a = some t := by
  cases here : s.call with
  | none => exact absurd here under
  | some c =>
    cases pc : c.pc with
    | outer => exact ⟨.turn,s.apply (outerTurn s.r c),trivial,by simp only [step,here,pc]⟩
    | inner => exact ⟨.turn,s.apply (innerTurn noise s.r c),trivial,by simp only [step,here,pc]⟩
    | socket => exact ⟨.pending,s.complete .pending false,trivial,by simp [step,here,pc]⟩

theorem readLowers (undoes : noise.Undoes) (inv : Inv noise s) (reads : a.reads) (moved : step noise s a = some t) :
    t.call = none ∨ rank t < rank s := by
  cases here : s.call with
  | none => cases a <;> simp_all [step,Act.reads]
  | some c =>
    have live := inv.live (callLive inv here)
    have ok := live.call c here
    cases a with
    | turn =>
      cases pc : c.pc with
      | outer =>
        simp only [step,here,pc] at moved
        cases Option.some.inj moved
        obtain ⟨r',received,_,_,⟨_,turned,_⟩ | ⟨c',turned,at',_⟩⟩ := outerTurnOk ok live.offset
        · rw [turned]
          exact .inl rfl
        · rw [turned]
          right
          simp only [rank,Link.apply,here,at',pc,received]
          omega
      | inner =>
        simp only [step,here,pc] at moved
        cases Option.some.inj moved
        obtain ⟨recs,stream,_⟩ := live.stream
        have turned := innerTurnOk undoes ok live.offset pc stream
        generalize innerTurn noise s.r c = out at turned ⊢
        cases turned with
        | wait empty partly =>
          right
          simp only [rank,Link.apply,here,pc]
          omega
        | back some => exact .inl rfl
        | finished => exact .inl rfl
        | data at' ok' offset stream' moved fewer =>
          right
          simp only [rank,Link.apply,here,pc,at']
          omega
      | socket => simp [step,here,pc] at moved
    | socket n =>
      simp only [step,here] at moved
      obtain ⟨may,ran⟩ := Option.ite_none_left_eq_some.mp moved
      cases Option.some.inj ran
      push Not at may
      right
      simp only [rank,here,may.1,ReadHalf.received,socketTurn,List.drop_zero,List.length_append,List.length_take,
        List.length_drop]
      omega
    | pending =>
      simp only [step,here] at moved
      obtain ⟨_,ran⟩ := Option.ite_none_left_eq_some.mp moved
      cases Option.some.inj ran
      exact .inl rfl
    | eof =>
      simp only [step,here] at moved
      obtain ⟨_,ran⟩ := Option.ite_none_left_eq_some.mp moved
      by_cases inside : s.r.tlsRxOffset < s.r.tlsRxBuf.length
      · rw [if_pos inside] at ran
        cases Option.some.inj ran
        exact .inl rfl
      · rw [if_neg inside] at ran
        cases Option.some.inj ran
        exact .inl rfl
    | _ => contradiction

/- Every `poll_read` returns, by its own turns alone. -/
theorem readReturns (undoes : noise.Undoes) (inv : Inv noise s) (under : s.call ≠ none) :
    Machine.Inevitable (step noise) Act.reads (fun _ t => t.call = none) s := by
  refine Machine.inevitableByRank (I := fun s => Inv noise s ∧ s.call ≠ none) rank ?_ ?_ ⟨inv,under⟩
  · exact fun here => readEnabled _ here.2
  · intro s a t here reads moved
    by_cases done : t.call = none
    · exact .inl done
    · refine .inr ⟨⟨stepInv undoes here.1 moved,done⟩,?_⟩
      exact (readLowers undoes here.1 reads moved).resolve_left done

theorem runInv (undoes : noise.Undoes) (run : Machine.Reach (step noise) Machine.Always {} s) : Inv noise s :=
  Machine.reachInvariant startInv (fun inv _ moved => stepInv undoes inv moved) run

theorem returnedDue (undoes : noise.Undoes) (inv : Inv noise s) : (∃ rest, s.returned ++ rest = s.due) ∧
    (s.last = some .pending → s.call = none → s.wire = [] → s.w.buffer = [] → s.returned = s.due) := by
  by_cases ended : s.ended = true
  · have was := inv.ended ended
    refine ⟨was.front,fun _ _ _ empty => was.whole (.inr empty)⟩
  · have live := inv.live (Bool.eq_false_iff.mpr ended)
    obtain ⟨recs,stream,due,_⟩ := live.stream
    constructor
    · rw [taken,List.append_assoc] at due
      exact ⟨_,due⟩
    · intro last idle wire buffer
      obtain ⟨none,partly⟩ := live.idle last idle
      rw [wire,buffer,List.drop_nil,List.append_nil,List.append_nil] at stream
      rw [taken,idle,none,(streamPartly undoes stream partly).1] at due
      rw [← due]
      simp [owed]

theorem endSignal (inv : Inv noise s) (last : s.last = some (.ready [])) :
    (s.shutting = true ∨ s.dropped = true ∨ s.readerShut = true) ∧
    (s.readerShut = false → s.dropped = false ∨ s.w.buffer = [] → s.returned = s.due) := by
  by_cases ended : s.ended = true
  · have was := inv.ended ended
    refine ⟨?_,fun _ => was.whole⟩
    rcases inv.shut was.finished with shutting | dropped
    · exact .inl shutting
    · exact .inr (.inl dropped)
  · have shut := (inv.live (Bool.eq_false_iff.mpr ended)).last last
    refine ⟨.inr (.inr shut),fun no => ?_⟩
    rw [shut] at no
    contradiction

theorem errorDropped (inv : Inv noise s) (last : s.last = some .error) : s.dropped = true := by
  by_cases ended : s.ended = true
  · obtain ⟨bytes,other⟩ := (inv.ended ended).last
    rw [last] at other
    cases Option.some.inj other
  · exact (inv.live (Bool.eq_false_iff.mpr ended)).error last

end Runs

/- For every run of sender, network and reader: the bytes returned are the payloads, in
order and in the end all of them; a zero-byte `Ready` is only ever the answer to a
shutdown, and after the sender's alone it comes when nothing is left to return. -/
theorem recordStream {noise : Noise} (undoes : noise.Undoes) {s : Link}
    (run : Machine.Reach (step noise) Machine.Always {} s) :
    ((∃ rest, s.returned ++ rest = s.due) ∧ (∃ later, s.due ++ later = s.sent ∧ (s.alerted = false → later = [])) ∧
      (s.last = some .pending → s.call = none → s.wire = [] → s.w.buffer = [] → s.returned = s.due)) ∧
    (s.last = some (.ready []) → (s.shutting = true ∨ s.dropped = true ∨ s.readerShut = true) ∧
      (s.readerShut = false → s.dropped = false ∨ s.w.buffer = [] → s.returned = s.due)) ∧
    (s.last = some .error → s.dropped = true) ∧
    (s.call ≠ none → Machine.Inevitable (step noise) Act.reads (fun _ t => t.call = none) s) := by
  have inv := runInv undoes run
  obtain ⟨front,whole⟩ := returnedDue undoes inv
  exact ⟨⟨front,inv.sent,whole⟩,endSignal inv,errorDropped inv,readReturns undoes inv⟩

def tagNoise : Noise where
  encrypt n plain := some (plain ++ List.replicate aeadTagLen (UInt8.ofNat n))
  decrypt n cipher :=
    let plain := cipher.take (cipher.length - aeadTagLen)
    if cipher = plain ++ List.replicate aeadTagLen (UInt8.ofNat n) then some plain else none

theorem tagNoiseUndoes : tagNoise.Undoes := by
  constructor
  · intro n plain cipher sealed
    rw [← Option.some.inj sealed,List.length_append,List.length_replicate]
  · intro n plain cipher sealed
    have same := Option.some.inj sealed
    have front : cipher.take (cipher.length - aeadTagLen) = plain := by
      rw [← same,List.length_append,List.length_replicate,Nat.add_sub_cancel,List.take_left]
    show (if cipher = cipher.take _ ++ _ then some (cipher.take _) else none) = some plain
    rw [front,if_pos same.symm]

theorem recordStreamToTheEnd : ∃ s, Machine.Reach (step tagNoise) Machine.Always {} s ∧
    s.last = some (.ready []) ∧ s.readerShut = false ∧ s.dropped = false ∧ s.returned = s.due ∧ s.due = [7] := by
  have ran : (Machine.checked (step tagNoise) Machine.Always {}
      [.prepareData [7] 0,.prepareControl [] 0,.flush 10,.poll 1,.turn,.turn,.socket 10,.turn,.turn,.pending,
        .flush 39,.poll 1,.turn,.turn,.socket 39,.turn,.turn,.turn,.turn,.turn,.turn,.shutdown,.flush 24,.finish,
        .poll 1,.turn,.turn,.socket 24,.turn,.turn]).any (fun s =>
      s.last == some (.ready []) && !s.readerShut && !s.dropped && s.due == [7]) = true := rfl
  obtain ⟨s,run,here⟩ := Machine.checkedReaches ran
  simp only [Bool.and_eq_true,beq_iff_eq,Bool.not_eq_true'] at here
  obtain ⟨⟨⟨last,shut⟩,dropped⟩,due⟩ := here
  exact ⟨s,run,last,shut,dropped,((recordStream tagNoiseUndoes run).2.1 last).2 shut (.inl dropped),due⟩

end KanoTls.Record
