import KanoTls.Handshake

/-! Runs of the parts of the handshake: a record read, the loop up to the response, the ghosts, the
bursts of the server and the third flight. -/
namespace KanoTls.Handshake
open Duplex Wire Patch Hello Tls Camouflage Flight3 Shaper
open Record (Noise recordHeader bump)

variable {K : Type}

section Reading
variable {α β : Type} {server : Party UInt8 ServerError β} {up : Bytes} {limits : TlsRecordReadLimits} {state : TlsRecordReadState}
  {stream rest : Bytes}

theorem recordRuns {failed : ReadError → TunnelConnectError} {f : UInt8 × Bytes × TlsRecordReadState → Client α} {got : Got}
    (read : Tls.readTlsRecordBounded limits state stream = .ok got) :
    Runs (⟨readTlsRecordBounded failed limits state >>= f,server,up,stream⟩ : Pair UInt8 ClientError ServerError α β)
      ⟨f (got.typ,got.record,got.state),server,up,got.rest⟩ := by
  rw [Tls.readTlsRecordBounded] at read
  split at read
  · contradiction
  rename_i records
  split at read
  · contradiction
  rename_i header
  dsimp only at read
  split at read
  · contradiction
  rename_i large
  split at read
  · contradiction
  rename_i bytes
  split at read
  · contradiction
  rename_i body
  cases Except.ok.inj read
  have five : (stream.take 5).length = 5 := by
    rw [List.length_take]
    omega
  have fields (k : Nat) (inside : k < 5) : byteAt (stream.take 5) k = byteAt stream k := by
    rw [byteAt,byteAt,List.getD_eq_getElem?_getD,List.getD_eq_getElem?_getD,List.getElem?_take_of_lt inside]
  have len : u16At (stream.take 5) 3 = u16At stream 3 := by rw [u16At,u16At,fields 3 (by decide),fields 4 (by decide)]
  have size : ((stream.drop 5).take (u16At stream 3)).length = u16At stream 3 := by
    rw [List.length_take,List.length_drop]
    omega
  have whole : stream.take 5 ++ (stream.drop 5).take (u16At stream 3) = stream.take (5 + u16At stream 3) :=
    (List.take_add).symm
  have first := @clientReads UInt8 ClientError ServerError α β server up (stream.take 5) (stream.drop 5) 5
    (.tunnel (failed .ended)) (fun header => (recordBody failed limits state header).bind f) five
  rw [List.take_append_drop,recordBody,len,if_neg large,if_neg bytes,fields 0 (by decide)] at first
  have second := @clientReads UInt8 ClientError ServerError α β server up ((stream.drop 5).take (u16At stream 3))
    ((stream.drop 5).drop (u16At stream 3)) (u16At stream 3) (.tunnel (failed .ended)) (fun body => (Party.done
      (byteAt (stream.take 5) 0,stream.take 5 ++ body,⟨state.records + 1,state.bytes + (5 + u16At stream 3)⟩)).bind f) size
  rw [List.take_append_drop,List.drop_drop,whole,fields 0 (by decide)] at second
  rw [readTlsRecordBounded,if_neg records]
  exact first.trans second

theorem loopTakes {read : Bytes → Option Bytes} {mask : Bytes} {fuel ghostCount : Nat} {s : ClientLoop}
    (ran : clientLoop read mask fuel stream s = .ok (ghostCount,rest)) :
    ∃ r recs, stream = flat (r::recs) ++ rest ∧ ∀ q ∈ r::recs, q.payload.length ≤ maxTlsRecordPayloadLen := by
  induction fuel generalizing stream s with
  | zero => contradiction
  | succ fuel ih =>
    rw [clientLoop] at ran
    cases read : Tls.readTlsRecordBounded handshakeLimits s.readState stream with
    | error e =>
      rw [read] at ran
      contradiction
    | ok got =>
      rw [read] at ran
      obtain ⟨r,small,split,_⟩ := readGot read
      dsimp only at ran
      generalize clientRecord _ mask got.typ got.record { s with readState := got.state } = turn at ran
      cases turn with
      | more t =>
        obtain ⟨next,recs,more,others⟩ := ih ran
        refine ⟨r,next::recs,?_,List.forall_mem_cons.mpr ⟨small,others⟩⟩
        rw [split,more,← List.append_assoc]
        rfl
      | response count =>
        obtain ⟨_,rfl⟩ := Prod.mk.inj (Except.ok.inj ran)
        exact ⟨r,[],by rw [split,flat,List.flatMap_singleton],List.forall_mem_singleton.mpr small⟩
      | fail error => contradiction

theorem drainTakes {count i : Nat} (ran : Camouflage.drainGhosts limits count i state stream = .ok []) :
    ∃ recs, stream = flat recs ∧ recs.length = count ∧ ∀ q ∈ recs, q.payload.length ≤ maxTlsRecordPayloadLen := by
  induction count generalizing i state stream with
  | zero => exact ⟨[],Except.ok.inj ran,rfl,fun q no => by contradiction⟩
  | succ count ih =>
    rw [Camouflage.drainGhosts] at ran
    cases read : Tls.readTlsRecordBounded limits state stream with
    | error e =>
      rw [read] at ran
      contradiction
    | ok got =>
      rw [read] at ran
      obtain ⟨r,small,split,_⟩ := readGot read
      dsimp only at ran
      split at ran
      · contradiction
      · obtain ⟨recs,more,length,others⟩ := ih ran
        refine ⟨r::recs,?_,by rw [List.length_cons,length],List.forall_mem_cons.mpr ⟨small,others⟩⟩
        rw [split,more]
        rfl

theorem flatLengths {one two : List TlsRecord} (small : ∀ q ∈ one, q.payload.length ≤ maxTlsRecordPayloadLen)
    (small' : ∀ q ∈ two, q.payload.length ≤ maxTlsRecordPayloadLen) (same : flat one = flat two) : one.length = two.length := by
  have types := typesFlat small (flatLength one)
  rw [same,typesFlat small' (flatLength two)] at types
  rw [← List.length_map (f := TlsRecord.typ),← types,List.length_map]

theorem responseFirst {read : Bytes → Option Bytes} {mask : Bytes} {fuel count i i' : Nat} {s : ClientLoop} {limits' : TlsRecordReadLimits}
    {state' : TlsRecordReadState} (drained : Camouflage.drainGhosts limits count i state stream = .ok [])
    (later : clientLoop read mask fuel stream s = .ok (count,rest)) (drained' : Camouflage.drainGhosts limits' count i' state' rest = .ok []) :
    False := by
  obtain ⟨recs,one,length,small⟩ := drainTakes drained
  obtain ⟨r,front,split,others⟩ := loopTakes later
  obtain ⟨back,two,length',small'⟩ := drainTakes drained'
  have joined : flat recs = flat (r::front ++ back) := by
    rw [← one,split,two,flat,flat,flat,List.flatMap_append]
  have lengths := flatLengths small (List.forall_mem_append.mpr ⟨others,small'⟩) joined
  rw [List.length_append,List.length_cons] at lengths
  omega

theorem gotCounted {got : Got} (read : Tls.readTlsRecordBounded limits state stream = .ok got) :
    got.state.records = state.records + 1 := by
  rw [Tls.readTlsRecordBounded] at read
  dsimp only at read
  split at read
  · contradiction
  split at read
  · contradiction
  split at read
  · contradiction
  split at read
  · contradiction
  split at read
  · contradiction
  exact (Except.ok.inj read) ▸ rfl

section Response
variable {finish : Bytes → Option (Bytes × K)} {read : Bytes → Option Bytes} {mask : Bytes} {keys : K}

/- The loop sees no difference between `finish` and a `read` that knows one response alone, up to
the first response that only `finish` takes. -/
theorem turnAlike (only : ∀ b plain, read b = some plain → finish b = some (plain,keys)) (typ : UInt8) (record : Bytes) (s : ClientLoop) :
    (clientRecord read mask typ record s = clientRecord (fun b => (finish b).map Prod.fst) mask typ record s ∧
      ∀ g, clientRecord read mask typ record s = .response g → ∃ plain, finish (unmasked mask record) = some (plain,keys)) ∨
    ∃ t, clientRecord read mask typ record s = .more t ∧
      ∃ g, clientRecord (fun b => (finish b).map Prod.fst) mask typ record s = .response g := by
  unfold clientRecord
  dsimp only
  split
  · refine .inl ⟨rfl,fun g no => ?_⟩
    split at no <;> contradiction
  split
  · refine .inl ⟨rfl,fun g no => ?_⟩
    split at no <;> contradiction
  split
  · unfold clientAppData
    dsimp only
    split
    · split
      · exact .inl ⟨rfl,fun g no => by contradiction⟩
      split
      · exact .inl ⟨rfl,fun g no => by contradiction⟩
      cases known : read (xorInPlace (record.drop 5) mask) with
      | some plain =>
        have found := only _ _ known
        rw [found]
        exact .inl ⟨rfl,fun g _ => ⟨plain,found⟩⟩
      | none =>
        cases found : finish (xorInPlace (record.drop 5) mask) with
        | none => exact .inl ⟨rfl,fun g no => by contradiction⟩
        | some got => exact .inr ⟨_,rfl,_,rfl⟩
    · exact .inl ⟨rfl,fun g no => by contradiction⟩
  · exact .inl ⟨rfl,fun g no => by contradiction⟩

theorem turnReads {read : Bytes → Option Bytes} {typ : UInt8} {record : Bytes} {s t : ClientLoop}
    (turn : clientRecord read mask typ record s = .more t) : t.readState = s.readState := by
  unfold clientRecord at turn
  dsimp only at turn
  split at turn
  · split at turn
    · contradiction
    · exact (ClientTurn.more.inj turn) ▸ rfl
  split at turn
  · split at turn
    · contradiction
    · exact (ClientTurn.more.inj turn) ▸ rfl
  split at turn
  · unfold clientAppData at turn
    dsimp only at turn
    split at turn
    · split at turn
      · contradiction
      split at turn
      · exact (ClientTurn.more.inj turn) ▸ rfl
      · split at turn
        · contradiction
        · exact (ClientTurn.more.inj turn) ▸ rfl
    · contradiction
  · contradiction

theorem responseRuns (only : ∀ b plain, read b = some plain → finish b = some (plain,keys)) {f : Nat × K → Client α}
    {turns fuel fuel' ghostCount i : Nat} {rest' : Bytes} {s : ClientLoop}
    (ran : clientLoop (fun b => (finish b).map Prod.fst) mask fuel stream s = .ok (ghostCount,rest))
    (drained : Camouflage.drainGhosts limits ghostCount i state rest = .ok []) (same : clientLoop read mask fuel' stream s = .ok (ghostCount,rest'))
    (drained' : Camouflage.drainGhosts limits ghostCount i state rest' = .ok []) (enough : clientHandshakeMaxRecords < turns + s.readState.records) :
    Runs (⟨awaitResponse finish mask turns s >>= f,server,up,stream⟩ : Pair UInt8 ClientError ServerError α β)
      ⟨f (ghostCount,keys),server,up,rest⟩ := by
  induction turns generalizing fuel fuel' stream s with
  | zero =>
    rw [Nat.zero_add] at enough
    cases fuel with
    | zero => contradiction
    | succ fuel =>
      rw [clientLoop,Tls.readTlsRecordBounded,if_pos (show s.readState.records ≥ handshakeLimits.maxRecords from Nat.le_of_lt enough)] at ran
      contradiction
  | succ turns ih =>
    cases fuel with
    | zero => contradiction
    | succ fuel =>
      cases fuel' with
      | zero => contradiction
      | succ fuel' =>
        rw [clientLoop] at ran same
        cases got : Tls.readTlsRecordBounded handshakeLimits s.readState stream with
        | error e =>
          rw [got] at ran
          contradiction
        | ok got' =>
          rw [got] at ran same
          dsimp only at ran same
          have first := @recordRuns α β server up handshakeLimits s.readState stream TunnelConnectError.read
            (fun got => (awaitTurn finish mask (awaitResponse finish mask turns) got s).bind f) got' got
          have counted := gotCounted got
          rw [awaitResponse,Party.bindAssoc]
          refine Relation.ReflTransGen.trans first ?_
          rw [awaitTurn]
          rcases turnAlike only got'.typ got'.record { s with readState := got'.state } with ⟨alike,known⟩ | ⟨t,more,g,other⟩
          · rw [alike] at same known
            cases turn : clientRecord (fun b => (finish b).map Prod.fst) mask got'.typ got'.record { s with readState := got'.state } with
            | more t =>
              rw [turn] at ran same
              exact ih ran same (by rw [turnReads turn,counted]; omega)
            | response g =>
              rw [turn] at ran
              obtain ⟨plain,found⟩ := known g turn
              obtain ⟨rfl,rfl⟩ := Prod.mk.inj (Except.ok.inj ran)
              dsimp only
              rw [found]
              exact .refl
            | fail error =>
              rw [turn] at ran
              contradiction
          · rw [more] at same
            rw [other] at ran
            obtain ⟨_,rfl⟩ := Prod.mk.inj (Except.ok.inj ran)
            exact (responseFirst drained same drained').elim
end Response

end Reading

section Writing
variable {α β : Type} {client : Client α} {server : Party UInt8 ServerError β} {up down : Bytes}

theorem drainRuns {limits : TlsRecordReadLimits} {state : TlsRecordReadState} {count i : Nat} {stream rest : Bytes} {f : Unit → Client α}
    (ran : Camouflage.drainGhosts limits count i state stream = .ok rest) :
    Runs (⟨drainGhosts limits count i state >>= f,server,up,stream⟩ : Pair UInt8 ClientError ServerError α β)
      ⟨f (),server,up,rest⟩ := by
  induction count generalizing i state stream with
  | zero =>
    cases Except.ok.inj ran
    exact .refl
  | succ count ih =>
    rw [Camouflage.drainGhosts] at ran
    cases read : Tls.readTlsRecordBounded limits state stream with
    | error e =>
      rw [read] at ran
      contradiction
    | ok got =>
      rw [read] at ran
      dsimp only at ran
      have first := @recordRuns α β server up limits state stream (.ghostRead i)
        (fun got => (if got.1 ≠ 0x17 then .fail (.tunnel (.ghostType i got.1))
          else drainGhosts limits count (i + 1) got.2.2 : Client Unit).bind f) got read
      rw [drainGhosts,Party.bindAssoc]
      refine Relation.ReflTransGen.trans first ?_
      split at ran
      · contradiction
      · rename_i data
        rw [if_neg data]
        exact ih ran

theorem clientSends (data : Bytes) {f : Unit → Client α} :
    Runs (⟨send data >>= f,server,up,down⟩ : Pair UInt8 ClientError ServerError α β) ⟨f (),server,up ++ data,down⟩ :=
  clientWrites up data

theorem serverSends (data : Bytes) {f : Unit → Party UInt8 ServerError β} :
    Runs (⟨client,send data >>= f,up,down⟩ : Pair UInt8 ClientError ServerError α β) ⟨client,f (),up,down ++ data⟩ :=
  serverWrites down data

theorem burstsJoin (p : CamouflageProfile) (idx : Nat) (burst : Bytes) (records : List TlsRecord) :
    (bursts p idx burst records).flatten = burst ++ flat records := by
  have kept (burst : Bytes) : (if burst = [] then [] else [burst]).flatten = burst := by
    split
    · rename_i none
      exact none.symm
    · exact List.append_nil burst
  induction records generalizing idx burst with
  | nil =>
    rw [bursts,kept]
    exact (List.append_nil burst).symm
  | cons record rest ih =>
    have join : flat (record::rest) = record.bytes ++ flat rest := rfl
    rw [bursts,join]
    split
    · rw [List.flatten_append,kept,ih]
    · rw [ih,List.append_assoc]

theorem burstsRun (chunks : List Bytes) {f : Unit → Server β} :
    Runs (⟨client,writeAll chunks >>= f,up,down⟩ : Pair UInt8 ClientError ServerError α β) ⟨client,f (),up,down ++ chunks.flatten⟩ := by
  induction chunks generalizing down with
  | nil =>
    rw [List.flatten_nil,List.append_nil]
    exact .refl
  | cons chunk rest ih =>
    rw [writeAll,Party.bindAssoc,List.flatten_cons,← List.append_assoc]
    exact (serverSends chunk).trans ih

end Writing

section Flight3
variable {α β : Type} {client : Client α} {server : Party UInt8 ServerError β} {up down rest : Bytes} {noise : Noise} {nonce contextHash : Nat}

theorem flight3Runs {bytes : Bytes} {after : Nat} {f : Nat → Client α}
    (sent : Flight3.sendClientFlight3Ghost noise nonce contextHash = some (bytes,after)) :
    Runs (⟨sendClientFlight3Ghost noise nonce contextHash >>= f,server,up,down⟩ : Pair UInt8 ClientError ServerError α β)
      ⟨f after,server,up ++ bytes,down⟩ := by
  obtain ⟨finished,h2,sealed,long,second,size,rfl,rfl⟩ := sentFlight sent
  rw [sendClientFlight3Ghost,sealed]
  dsimp only
  rw [if_neg (not_not_intro long),Party.bindAssoc]
  refine (clientSends _).trans ?_
  rw [sendH2Ghost,second]
  dsimp only
  rw [if_neg (not_not_intro size),Party.bindAssoc,
    ← List.append_assoc up (flight3CcsRecord ++ (recordHeader finished.length ++ finished)) (recordHeader h2.length ++ h2)]
  exact clientSends _

theorem consumeRuns (undoes : noise.Undoes) {bytes : Bytes} {after : Nat} {f : Nat → Server β}
    (sent : Flight3.sendClientFlight3Ghost noise nonce contextHash = some (bytes,after)) :
    Runs (⟨client,consumeClientFlight3Ghost noise nonce >>= f,bytes ++ rest,down⟩ : Pair UInt8 ClientError ServerError α β)
      ⟨client,f after,rest,down⟩ := by
  obtain ⟨finished,h2,sealed,long,second,size,rfl,rfl⟩ := sentFlight sent
  have most : h2.length ≤ 16384 + 256 := by
    have bound := ghostLength contextHash
    have total : maxH2GhostPlaintextLen + aeadTagLen ≤ 16384 + 256 := by decide +kernel
    omega
  have front : (flight3CcsRecord ++ (recordHeader finished.length ++ finished)).length = h2Start := by
    rw [List.length_append,List.length_append,long]
    rfl
  have head : (flight3CcsRecord ++ (recordHeader finished.length ++ finished) ++ recordHeader h2.length).length = minimumNeeded := by
    rw [List.length_append,front]
    rfl
  have start : h2Start + tlsRecordHeaderLen = minimumNeeded := rfl
  have more : h2Start + (tlsRecordHeaderLen + h2.length) - minimumNeeded = h2.length := by omega
  have stop : h2Start + (tlsRecordHeaderLen + h2.length) =
      (flight3CcsRecord ++ (recordHeader finished.length ++ finished) ++ recordHeader h2.length ++ h2).length := by
    rw [List.length_append,head]
    omega
  have body : slice (flight3CcsRecord ++ (recordHeader finished.length ++ finished) ++ recordHeader h2.length ++ h2)
      (h2Start + tlsRecordHeaderLen) (h2Start + (tlsRecordHeaderLen + h2.length)) = h2 := by
    rw [slice,stop,List.take_length,start,← head,List.drop_left]
  have first : checkFinished noise nonce (flight3CcsRecord ++ (recordHeader finished.length ++ finished) ++ recordHeader h2.length) =
      .ok (bump nonce) := finishedPasses long (by rw [undoes.undone sealed]; rfl)
  have header := h2Passes front (by omega) most
  have last : checkH2 noise (bump nonce) (flight3CcsRecord ++ (recordHeader finished.length ++ finished) ++ recordHeader h2.length ++ h2)
      (h2Start + (tlsRecordHeaderLen + h2.length)) = .ok (bump (bump nonce)) := by
    rw [checkH2,body,undoes.undone second]
  have split : flight3CcsRecord ++ (recordHeader finished.length ++ finished) ++ (recordHeader h2.length ++ h2) ++ rest =
      flight3CcsRecord ++ (recordHeader finished.length ++ finished) ++ recordHeader h2.length ++ (h2 ++ rest) := by
    simp only [List.append_assoc]
  rw [split,consumeClientFlight3Ghost,if_neg (by decide +kernel),Party.bindAssoc]
  refine (serverReads _ (h2 ++ rest) head).trans ?_
  show Runs ⟨client,checked (checkFinished noise nonce _) >>= _ >>= f,_,_⟩ _
  rw [first]
  show Runs ⟨client,checked (checkH2Header _) >>= _ >>= f,_,_⟩ _
  rw [header]
  show Runs ⟨client,readFlight3 (h2Start + (tlsRecordHeaderLen + h2.length) - minimumNeeded) >>= _ >>= f,_,_⟩ _
  rw [more,Party.bindAssoc]
  refine (serverReads h2 rest rfl).trans ?_
  show Runs ⟨client,checked (checkH2 noise (bump nonce) _ _) >>= f,_,_⟩ _
  rw [last]
  exact .refl

end Flight3

end KanoTls.Handshake
