import KanoTls.OneWay

/-! The bytes of one direction. What the read loop has taken is the front of what the writer has
prepared, so the frames that it handles are the first of those that were submitted, stream by
stream. -/
namespace KanoTls.OneWay
open Machine Wire Writer
open Receive (Session)

section Records
variable {s t : Writer.State} {a : Writer.Action}
open Writer.State

theorem failDrainRecords (s : Writer.State) (d : Drain) : (s.failDrain d).wire ++ (s.failDrain d).buffer = s.wire ++ s.buffer := by
  unfold failDrain
  split <;> rfl

theorem recordsGrow (moved : Writer.step s a = some t) : s.wire ++ s.buffer <+: t.wire ++ t.buffer := by
  cases a with
  | packet draws fault =>
    simp only [Writer.step,packetStep] at moved
    split at moved <;> try contradiction
    all_goals
      obtain ⟨records,_,rfl⟩ := Option.map_eq_some_iff.mp moved
      cases fault <;> simp [prepared,failDrainRecords]
  | flush ok =>
    simp only [Writer.step,flushStep] at moved
    repeat' split at moved
    all_goals first | contradiction | cases Option.some.inj moved
    all_goals cases ok <;> simp [flushed,failed,failDrainRecords]
  | goaway last ok =>
    simp only [Writer.step,goawayStep] at moved
    repeat' split at moved
    all_goals first | contradiction | cases Option.some.inj moved
    all_goals cases ok <;> simp [prepared]
  | _ =>
    simp only [Writer.step,controlStep,bulkStep,recordStep,finishStep,arriveStep] at moved
    repeat' split at moved
    all_goals first | contradiction | cases Option.some.inj moved
    all_goals simp [startDrain,flushed,failed,prepared,State.refuse,failDrainRecords,(queuedOne _ _).wire,(queuedOne _ _).buffer,
      (drained _).wire,(drained _).buffer]

end Records

section Bytes
open Uot (toBeBytes fromBeBytes)

theorem byteSame {n m : Nat} (same : n % 256 = m % 256) : UInt8.ofNat n = UInt8.ofNat m := by
  apply UInt8.toNat_inj.mp
  rw [UInt8.toNat_ofNat',UInt8.toNat_ofNat']
  exact same

theorem toFromBeBytes (high low : UInt8) : toBeBytes (fromBeBytes high low) = [high,low] := by
  have := low.toNat_lt
  have front : UInt8.ofNat (fromBeBytes high low / 256) = high := by
    rw [fromBeBytes,show (high.toNat * 256 + low.toNat) / 256 = high.toNat from by omega]
    exact UInt8.ofNat_toNat
  have back : UInt8.ofNat (fromBeBytes high low) = UInt8.ofNat low.toNat := byteSame (by rw [fromBeBytes]; omega)
  rw [toBeBytes,front,back,UInt8.ofNat_toNat]

theorem sidBytesBack (a b c d : UInt8) : sidBytes (sidOf a b c d) = [a,b,c,d] := by
  have := fromBeBytesSmall c d
  have front : sidOf a b c d / 65536 = fromBeBytes a b := by
    rw [sidOf]
    omega
  have back : toBeBytes (sidOf a b c d) = toBeBytes (fromBeBytes c d) := by
    rw [toBeBytes,toBeBytes,sidOf]
    rw [byteSame (show (fromBeBytes a b * 65536 + fromBeBytes c d) / 256 % 256 = fromBeBytes c d / 256 % 256 from by omega),
      byteSame (show (fromBeBytes a b * 65536 + fromBeBytes c d) % 256 = fromBeBytes c d % 256 from by omega)]
  rw [sidBytes,front,back,toFromBeBytes,toFromBeBytes]
  rfl

theorem decodedEncodes {src rest : Bytes} {f : Frame} (found : decode src = some (f,rest)) : f.encode ++ rest = src := by
  unfold decode at found
  split at found
  · rename_i cmd a b c d high low body
    obtain ⟨long,same⟩ := Option.ite_none_left_eq_some.mp found
    obtain ⟨rfl,rfl⟩ := Prod.mk.inj (Option.some.inj same)
    have whole : (body.take (fromBeBytes high low)).length = fromBeBytes high low := by
      rw [List.length_take]
      omega
    simp only [Frame.encode,sidBytesBack,whole,toFromBeBytes]
    simp
  · contradiction

theorem encodedFront {front back : List Frame} (bytes : encodeAll front <+: encodeAll back) : front <+: back := by
  induction front generalizing back with
  | nil => exact List.nil_prefix
  | cons f rest ih =>
    obtain ⟨tail,same⟩ := bytes
    rw [encodeAllCons,List.append_assoc] at same
    cases back with
    | nil =>
      have none := decodeEncode f (encodeAll rest ++ tail)
      rw [same] at none
      contradiction
    | cons g later =>
      have one := decodeEncode f (encodeAll rest ++ tail)
      rw [same,encodeAllCons,decodeEncode] at one
      obtain ⟨rfl,left⟩ := Prod.mk.inj (Option.some.inj one)
      exact List.cons_prefix_cons.mpr ⟨rfl,ih ⟨tail,left.symm⟩⟩

end Bytes

section Link
variable {noise : Record.Noise} {l m : Record.Link} {a : Record.Act}

theorem preparedSent {payload : Bytes} {target : Nat}
    (prepares : a = .prepareControl payload target ∨ a = .prepareData payload target) (moved : Record.step noise l a = some m) :
    m.sent = l.sent ++ payload ∧ m.returned = l.returned := by
  obtain rfl | rfl := prepares
  all_goals
    obtain ⟨_,moved⟩ := Option.ite_none_left_eq_some.mp moved
    unfold Record.Link.prepared at moved
    split at moved <;> try contradiction
    cases Option.some.inj moved
    exact ⟨rfl,rfl⟩

theorem applySent (l : Record.Link) (read : Record.ReadHalf × Record.Turn) :
    (l.apply read).sent = l.sent ∧ l.returned <+: (l.apply read).returned := by
  obtain ⟨r,turn⟩ := read
  cases turn with
  | go c => exact ⟨rfl,List.prefix_refl _⟩
  | back outcome closes =>
    refine ⟨rfl,?_⟩
    cases outcome with
    | ready bytes => exact List.prefix_append _ _
    | _ => exact List.prefix_refl _

theorem linkMoves (other : Path.prepares a = false) (moved : Record.step noise l a = some m) :
    m.sent = l.sent ∧ l.returned <+: m.returned := by
  cases a with
  | prepareData payload target => contradiction
  | prepareControl payload target => contradiction
  | turn =>
    unfold Record.step at moved
    dsimp only at moved
    split at moved <;> try contradiction
    split at moved <;> first | contradiction | (cases Option.some.inj moved; exact applySent l _)
  | _ =>
    simp only [Record.step] at moved
    repeat' split at moved
    all_goals first | contradiction | cases Option.some.inj moved
    all_goals simp [Record.Link.complete]

end Link

section Loop
variable {r q : ReadLoop.Reader}

theorem chunkTaken {bytes : Bytes} (moved : ReadLoop.step r (.chunk (some bytes)) = some q) : q.buf = r.buf ++ bytes := by
  cases phase : r.phase <;> simp only [ReadLoop.step,phase] at moved <;> try contradiction
  simp only [ReadLoop.select] at moved
  obtain ⟨_,moved⟩ := Option.ite_none_left_eq_some.mp moved
  split at moved
  · rename_i none
    cases Option.some.inj moved
    rw [none,List.append_nil]
  · cases Option.some.inj moved
    rfl

theorem decodeLeft {accepted : Bool} (moved : ReadLoop.step r (.decode accepted) = some q) : q.buf = (decodeBuffer r.buf).2 := by
  cases phase : r.phase <;> simp only [ReadLoop.step,phase,ReadLoop.select] at moved <;> try contradiction
  split at moved
  all_goals
    rename_i decoded
    rw [decoded]
    cases Option.some.inj moved
    rfl

theorem decodeTaken {f : Frame} {accepted : Bool} (found : (decodeBuffer r.buf).1 = some f)
    (moved : ReadLoop.step r (.decode accepted) = some q) : f.encode ++ q.buf = r.buf := by
  have left := decodeLeft moved
  rw [decodeBufferEq] at found left
  cases decoded : decode r.buf with
  | none =>
    rw [decoded] at found
    contradiction
  | some pair =>
    rw [decoded] at found left
    cases Option.some.inj found
    rw [left]
    exact decodedEncodes decoded

theorem ownTaken {s : Path} {e : ReadLoop.Event} (own : s.own e = true) (moved : ReadLoop.step s.loop e = some q) :
    q.buf = s.loop.buf := by
  cases e with
  | decode accepted =>
    rw [decodeLeft moved]
    exact decodeBufferNone (Option.isNone_iff_eq_none.mp own)
  | chunk read =>
    cases read with
    | some bytes => contradiction
    | none =>
      cases phase : s.loop.phase <;> simp only [ReadLoop.step,phase,ReadLoop.select] at moved <;> try contradiction
      cases Option.some.inj moved
      rfl
  | _ =>
    cases phase : s.loop.phase <;> simp only [ReadLoop.step,phase,ReadLoop.select] at moved <;> try contradiction
    all_goals
      repeat' split at moved
      all_goals first | contradiction | (cases Option.some.inj moved; rfl)

end Loop

section Joined
variable {noise : Record.Noise} {okw : Writer.State → Writer.Action → Prop} {okr : Session → Receive.Action → Prop} {e : Setup}
  {s t : Path} {l : Label}

/- Every part has what the one before it has given, up to where it is. -/
structure Joined (s : Path) : Prop where
  prepared : s.finished ≤ s.records.length
  sent : s.link.sent = values ((s.records.take s.finished).flatMap (·.payload))
  taken : s.read ≤ s.link.returned.length
  bytes : encodeAll s.handled ++ s.loop.buf = s.link.returned.take s.read

theorem takeFront {α : Type} {front back : List α} {n : Nat} (within : n ≤ front.length) (grown : front <+: back) :
    n ≤ back.length ∧ back.take n = front.take n := by
  obtain ⟨rest,rfl⟩ := grown
  rw [List.length_append,List.take_append_of_le_length within]
  exact ⟨Nat.le_add_right_of_le within,rfl⟩

theorem joinedLink (joined : Joined s) {link : Record.Link} (sent : link.sent = s.link.sent)
    (returned : s.link.returned <+: link.returned) : Joined {s with link := link} := by
  obtain ⟨taken,same⟩ := takeFront joined.taken returned
  exact ⟨joined.prepared,sent.trans joined.sent,taken,joined.bytes.trans same.symm⟩

theorem joinedKept (joined : Joined s) (moved : PathMove noise s l t) : Joined t := by
  cases moved with
  | writer stepped =>
    obtain ⟨prepared,same⟩ := takeFront joined.prepared (recordsGrow stepped)
    refine ⟨prepared,?_,joined.taken,joined.bytes⟩
    rw [joined.sent,← same]
    rfl
  | sealed next prepares stepped =>
    obtain ⟨sent,returned⟩ := preparedSent prepares stepped
    have before : s.finished < s.records.length := (List.getElem?_eq_some_iff.mp next).1
    refine ⟨before,?_,?_,?_⟩
    · show _ = values ((s.records.take (s.finished + 1)).flatMap _)
      rw [sent,joined.sent,List.take_add_one,next,List.flatMap_append,valuesAppend]
      simp
    · exact returned ▸ joined.taken
    · exact returned ▸ joined.bytes
  | link other stepped =>
    obtain ⟨sent,returned⟩ := linkMoves other stepped
    exact joinedLink joined sent returned
  | chunk got stepped =>
    rename_i n bytes loop
    have more : s.read + n ≤ s.link.returned.length ∧ bytes = (s.link.returned.drop s.read).take n := by
      unfold Path.chunk at got
      split at got
      · rename_i none
        obtain ⟨_,same⟩ := Option.ite_none_right_eq_some.mp got
        subst none
        exact ⟨joined.taken,by rw [← Option.some.inj same,List.take_zero]⟩
      · obtain ⟨within,same⟩ := Option.ite_none_right_eq_some.mp got
        exact ⟨within,(Option.some.inj same).symm⟩
    refine ⟨joined.prepared,joined.sent,more.1,?_⟩
    show encodeAll s.handled ++ loop.buf = _
    rw [chunkTaken stepped,← List.append_assoc,joined.bytes,more.2,List.take_add]
  | loop own stepped =>
    refine ⟨joined.prepared,joined.sent,joined.taken,?_⟩
    show encodeAll s.handled ++ _ = _
    rw [ownTaken own stepped]
    exact joined.bytes
  | frame _ found stepped sees =>
    refine ⟨joined.prepared,joined.sent,joined.taken,?_⟩
    show encodeAll (s.handled ++ [_]) ++ _ = _
    rw [encodeAllAppend,List.append_assoc,encodeAllCons,encodeAllNil,List.append_nil,decodeTaken found stepped]
    exact joined.bytes
  | session plain stepped => exact ⟨joined.prepared,joined.sent,joined.taken,joined.bytes⟩

theorem joinedRun (run : Run noise okw okr e s) : Joined s :=
  reachInvariant ⟨Nat.zero_le _,rfl,Nat.zero_le _,rfl⟩ (fun joined _ moved => joinedKept joined (pathMoves moved)) run

/- The frames that the read loop has handled are, stream by stream, the first of those that were
submitted to the writer. -/
theorem handledInOrder (undoes : noise.Undoes) (run : Run noise Orderly okr e s) (sid : Nat) :
    ofStream sid s.handled <+: ofStream sid (framesOf s.writer.sent) := by
  have parts := parts run
  have joined := joinedRun run
  obtain ⟨x,held,ordered,_⟩ := orderKept parts.writer
  obtain ⟨frames,n,out,inside⟩ := heldCut held
  have inv := Record.runInv undoes parts.link
  obtain ⟨rest,due⟩ := (Record.returnedDue undoes inv).1
  obtain ⟨later,sent,_⟩ := inv.sent
  have returned : s.link.returned <+: emitted s.writer := by
    have came : s.link.returned <+: s.link.sent := ⟨rest ++ later,by rw [← List.append_assoc,due,sent]⟩
    refine came.trans ?_
    rw [joined.sent,emitted]
    exact ((List.take_prefix _ _).flatMap _).map _
  have bytes : encodeAll s.handled <+: encodeAll frames := by
    refine List.IsPrefix.trans ⟨s.loop.buf,joined.bytes⟩ ?_
    refine (List.take_prefix _ _).trans (returned.trans ?_)
    rw [out]
    exact List.take_prefix _ _
  exact (((encodedFront bytes).trans inside).filter _).trans (ordered.behind sid)

end Joined

end KanoTls.OneWay
