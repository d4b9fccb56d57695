import KanoTls.HandshakeRuns

/-! Both ends of the handshake agree: they end up with the same keys and in step, or the server
hands the hello to the endpoint as it is. -/
namespace KanoTls.Handshake
open Duplex Wire Patch Hello Tls Camouflage Flight3 Shaper
open Fallback (FailureClass)
open Record (recordHeader)

variable {I R K : Type}

section Profiles
variable {p cached sampled : CamouflageProfile} {s t : Store}

structure Whole (p : CamouflageProfile) : Prop where
  records : ∃ recs, p.serverRecords = flat recs ∧ (∀ r ∈ recs, r.payload.length ≤ maxTlsRecordPayloadLen) ∧
    recs.Pairwise (fun r later => isServerHello r.bytes = true → later.typ ≠ 0x17)
  prefixCount : p.prefixAppDataSizes.length ≤ maxCamouflagePrefixAppDataRecords
  prefixSmall : ∀ size ∈ p.prefixAppDataSizes, size < minNoiseResponseRecordLen
  sizes : p.appDataSizes.length ≤ maxCamouflageAppDataRecords

theorem sampledWhole {fast : Bool} {expected : Option Nat} {clock : Nat → Nat} {endpoint : Bytes}
    (read : readCamouflageServerRecords fast expected clock endpoint = some p) : Whole p := by
  obtain ⟨s,looped,read⟩ := Option.bind_eq_some_iff.mp read
  obtain ⟨_,read⟩ := Option.ite_none_left_eq_some.mp read
  obtain ⟨⟨recs,isFlat,small,order,_⟩,prefixCount,prefixSmall,sizes⟩ := loopOk initialOk looped
  cases Option.some.inj read
  exact ⟨⟨recs,isFlat,small,order⟩,prefixCount,prefixSmall,sizes⟩

theorem sanitizedWhole (whole : Whole p) : Whole (sanitizeCamouflageProfile p) := by
  refine ⟨whole.records,?_,?_,?_⟩
  · exact List.length_take_le ..
  · exact fun size member => whole.prefixSmall size (List.mem_filter.mp (List.mem_of_mem_take member)).1
  · exact List.length_take_le ..

theorem mergedWhole (old : Whole cached) (new : Whole sampled) : Whole (mergedProfile cached sampled) := by
  have front : Whole (if sampled.serverRecords.isEmpty then cached
      else { cached with
        serverRecords := sampled.serverRecords
        visibleServerRecordCount := sampled.visibleServerRecordCount
        hasCcs := sampled.hasCcs }) := by
    split
    · exact old
    · exact ⟨new.records,old.prefixCount,old.prefixSmall,old.sizes⟩
  unfold mergedProfile
  generalize (if sampled.serverRecords.isEmpty then cached
      else { cached with
        serverRecords := sampled.serverRecords
        visibleServerRecordCount := sampled.visibleServerRecordCount
        hasCcs := sampled.hasCcs }) = base at front
  dsimp only
  split
  · exact front
  · split
    · cases sampled.appDataSizes.head? with
      | none => exact ⟨front.records,new.prefixCount,new.prefixSmall,front.sizes⟩
      | some first =>
        refine ⟨front.records,new.prefixCount,new.prefixSmall,?_⟩
        show (base.appDataSizes.set 0 first).length ≤ _
        rw [List.length_set]
        exact front.sizes
    · exact ⟨front.records,new.prefixCount,new.prefixSmall,new.sizes⟩

theorem heldAll {P : CamouflageProfile → Prop}
    (sampling : ∀ {fast expected clock endpoint p}, readCamouflageServerRecords fast expected clock endpoint = some p → P p)
    (sanitizing : ∀ {p}, P p → P (sanitizeCamouflageProfile p)) (merging : ∀ {p q}, P p → P q → P (mergeCamouflageProfile p q))
    {ok : Store → Camouflage.Action → Prop} (reach : Machine.Reach Camouflage.step ok {} s) : ∀ p, s.Holds p → P p := by
  refine Machine.reachInvariant (I := fun s => ∀ p, s.Holds p → P p) ?_ ?_ reach
  · intro p held
    rcases held with member | ⟨key,e,pooled,_⟩ <;> contradiction
  · intro s a t all _ moved
    have known {q : CamouflageProfile} (added : P q) : ∀ p, p ∈ s.known ++ [q] ∨ (∃ key, ∃ e ∈ s.pools key, e.profile = p) → P p := by
      intro p held
      rcases held with member | pooled
      · rcases List.mem_append.mp member with old | new
        · exact all p (.inl old)
        · exact List.mem_singleton.mp new ▸ added
      · exact all p (.inr pooled)
    cases a with
    | sample fast expected clock endpoint =>
      obtain ⟨⟨q,flight⟩,ran,stored⟩ := Option.bind_eq_some_iff.mp moved
      obtain ⟨q',read,same⟩ := Option.bind_eq_some_iff.mp ran
      cases Option.some.inj same
      cases Option.some.inj stored
      exact known (sampling read)
    | sanitize i =>
      obtain ⟨q,found,stored⟩ := Option.bind_eq_some_iff.mp moved
      cases Option.some.inj stored
      exact known (sanitizing (all q (.inl (List.mem_of_getElem? found))))
    | merge i j =>
      obtain ⟨cached,found,stored⟩ := Option.bind_eq_some_iff.mp moved
      obtain ⟨sampled,later,stored⟩ := Option.bind_eq_some_iff.mp stored
      cases Option.some.inj stored
      exact known (merging (all cached (.inl (List.mem_of_getElem? found))) (all sampled (.inl (List.mem_of_getElem? later))))
    | push key i now =>
      obtain ⟨q,found,stored⟩ := Option.bind_eq_some_iff.mp moved
      cases Option.some.inj stored
      intro p held
      rcases held with member | ⟨other,e,pooled,rfl⟩
      · exact all p (.inl member)
      · dsimp only at pooled
        split at pooled
        · rcases pushedFrom pooled with old | new
          · exact all e.profile (.inr ⟨key,e,old,rfl⟩)
          · exact new ▸ sanitizing (all q (.inl (List.mem_of_getElem? found)))
        · exact all e.profile (.inr ⟨other,e,pooled,rfl⟩)
    | pick key draw =>
      obtain ⟨q,picked,stored⟩ := Option.bind_eq_some_iff.mp moved
      cases Option.some.inj stored
      obtain ⟨e,pooled,rfl⟩ := pickedFrom picked
      exact known (sanitizing (all e.profile (.inr ⟨key,e,pooled,rfl⟩)))

theorem heldWhole {ok : Store → Camouflage.Action → Prop} (reach : Machine.Reach Camouflage.step ok {} s) (held : s.Holds p) : Whole p :=
  heldAll sampledWhole sanitizedWhole (fun one two => sanitizedWhole (mergedWhole one (sanitizedWhole two))) reach p held

end Profiles

section Answer
variable {α β : Type} {hash : KeyedHash} {snow : Snow I R K} {side : ServerSide} {responder : R} {initiator : I} {p : CamouflageProfile}
  {mask serverRecords : Bytes} {appRecords records : List TlsRecord}

theorem responseWritten (hears : snow.Hears initiator responder) (whole : Whole p)
    (built : buildNoiseResponseSequence (fun plain => (snow.respond responder side.ephemeral plain).map Prod.fst) mask side.draws
      (remaining17Sizes p.appDataSizes) = some records) :
    ∃ keys reply plain ghosts, responseKeys snow side responder p = some keys ∧
      records = ⟨0x17,0x03,0x03,xorInPlace reply mask⟩::ghosts ∧ snow.finish initiator reply = some (plain,keys) ∧
      ghostCountOf plain = ghosts.length ∧ minNoiseResponseRecordLen ≤ reply.length ∧ reply.length ≤ maxCamouflageAppDataRecordLen ∧
      ∀ r ∈ ghosts, r.typ = 0x17 ∧ r.payload.length ≤ maxCamouflageAppDataRecordLen := by
  obtain ⟨firstSize,ghosts,remaining,least,most,small,few⟩ := remainingSizes whole.sizes
  rw [remaining,buildNoiseResponseSequence] at built
  dsimp only at built
  obtain ⟨long,built⟩ := Option.ite_none_left_eq_some.mp built
  obtain ⟨reply,wrote,built⟩ := Option.bind_eq_some_iff.mp built
  obtain ⟨_,built⟩ := Option.ite_none_left_eq_some.mp built
  obtain ⟨⟨reply,keys⟩,responded,rfl⟩ := Option.map_eq_some_iff.mp wrote
  obtain ⟨size,finished⟩ := hears responded
  have control : (makeControlPayload ghosts.length).length = handshakeControlLen := rfl
  rw [putLength (by rw [List.length_replicate,control]; omega),List.length_replicate] at size
  rw [minNoiseResponseRecordLen] at least
  have exact' : reply.length = firstSize := by omega
  refine ⟨keys,reply,_,_,?_,(Option.some.inj built).symm,finished,?_,?_,?_,appDataRecords small⟩
  · have payload : responsePayload p =
        some (put (List.replicate (firstSize - noiseResponseOverheadLen) 0) 0 (makeControlPayload ghosts.length)) := by
      rw [responsePayload,remaining]
    rw [responseKeys,payload]
    show (snow.respond responder side.ephemeral _).bind _ = _
    rw [responded]
    rfl
  · rw [ghostCountBack (by omega) (by omega),List.length_mapIdx]
  · rw [exact']
    exact least
  · rw [exact']
    exact most

theorem tunnelParts {read : Bytes → Option Bytes} {stream : Bytes} {ghostCount : Nat}
    (ran : Camouflage.clientTunnel read mask stream = .ok (ghostCount,[])) :
    ∃ rest, clientLoop read mask (stream.length + 1) stream {} = .ok (ghostCount,rest) ∧
      Camouflage.drainGhosts ⟨ghostCount,ghostCount * (5 + maxTlsRecordPayloadLen)⟩ ghostCount 0 {} rest = .ok [] := by
  rw [Camouflage.clientTunnel] at ran
  cases looped : clientLoop read mask (stream.length + 1) stream {} with
  | error e =>
    rw [looped] at ran
    contradiction
  | ok got =>
    rw [looped] at ran
    obtain ⟨count,rest⟩ := got
    cases drained : Camouflage.drainGhosts ⟨count,count * (5 + maxTlsRecordPayloadLen)⟩ count 0 {} rest with
    | error e =>
      change (Camouflage.drainGhosts ⟨count,count * (5 + maxTlsRecordPayloadLen)⟩ count 0 {} rest).bind _ = _ at ran
      rw [drained] at ran
      contradiction
    | ok left =>
      change (Camouflage.drainGhosts ⟨count,count * (5 + maxTlsRecordPayloadLen)⟩ count 0 {} rest).bind _ = _ at ran
      rw [drained] at ran
      obtain ⟨rfl,rfl⟩ := Prod.mk.inj (Except.ok.inj ran)
      exact ⟨rest,rfl,drained⟩

theorem flightAnswered {rxBuf derivedPsk noiseTag : Bytes} (hears : snow.Hears initiator responder) (whole : Whole p)
    (flown : syntheticFlight hash snow side rxBuf derivedPsk noiseTag responder p = some (serverRecords,appRecords)) (fits : Fits p.serverRecords)
    (silent : ∀ r ∈ prefixRecords side.draws p.prefixAppDataSizes,
      snow.finish initiator (xorInPlace r.payload (deriveNoiseEMask hash derivedPsk noiseTag)) = none) :
    ∃ keys ghostCount, responseKeys snow side responder p = some keys ∧
      ∀ (server : Party UInt8 ServerError β) (up : Bytes) (f : Nat × K → Client α),
        Runs (⟨awaitResponse (snow.finish initiator) (deriveNoiseEMask hash derivedPsk noiseTag) (clientHandshakeMaxRecords + 1) {} >>=
            (fun got => drainGhosts ⟨got.1,got.1 * (5 + maxTlsRecordPayloadLen)⟩ got.1 0 {} >>= (fun _ => f got)),
          server,up,serverRecords ++ flat appRecords⟩ : Pair UInt8 ClientError ServerError α β) ⟨f (ghostCount,keys),server,up,[]⟩ := by
  have size : (deriveNoiseEMask hash derivedPsk noiseTag).length = 32 := hash.size _ _
  rw [syntheticFlight] at flown
  generalize deriveNoiseEMask hash derivedPsk noiseTag = mask at flown silent size ⊢
  obtain ⟨id,_,flown⟩ := Option.bind_eq_some_iff.mp flown
  obtain ⟨patched,patch,flown⟩ := Option.bind_eq_some_iff.mp flown
  obtain ⟨response,built,flown⟩ := Option.bind_eq_some_iff.mp flown
  cases Option.some.inj flown
  obtain ⟨recs,isFlat,small,order⟩ := whole.records
  rw [isFlat] at patch fits
  obtain ⟨recs',alike,rfl,hello⟩ := recordsPatched small patch
  obtain ⟨keys,reply,plain,ghosts,known,rfl,finished,ghostCount,least,most,ghostsOk⟩ := responseWritten hears whole built
  refine ⟨keys,ghosts.length,known,?_⟩
  have split : flat (prefixRecords side.draws p.prefixAppDataSizes ++ ⟨0x17,0x03,0x03,xorInPlace reply mask⟩::ghosts) =
      flat (prefixRecords side.draws p.prefixAppDataSizes) ++
        ((⟨0x17,0x03,0x03,xorInPlace reply mask⟩ : TlsRecord).bytes ++ flat ghosts) := by
    rw [flat,List.flatMap_append,List.flatMap_cons]
    rfl
  have prefixOk := @appDataRecords p.prefixAppDataSizes side.draws.prefixByte 53
    (fun size member => Nat.le_of_lt_succ (whole.prefixSmall size member))
  change ∀ r ∈ prefixRecords side.draws p.prefixAppDataSizes, _ at prefixOk
  have count : (prefixRecords side.draws p.prefixAppDataSizes).length ≤ maxCamouflagePrefixAppDataRecords := by
    rw [prefixRecords,List.length_mapIdx]
    exact whole.prefixCount
  rw [fitsFlat small,← alikePlain alike,← alikeTypes alike] at fits
  have answered (read : Bytes → Option Bytes) (knows : read reply = some plain)
      (none : ∀ r ∈ prefixRecords side.draws p.prefixAppDataSizes, read (xorInPlace r.payload mask) = none) :=
    tunnelParts ((clientRuns read mask size (alikeSmall alike small) (alikeOrder alike order) (alikeHello alike hello) count prefixOk
      none knows ghostCount least most ghostsOk).mpr fits)
  rw [← split] at answered
  obtain ⟨rest,looped,drained⟩ := answered (fun b => (snow.finish initiator b).map Prod.fst) (by rw [finished]; rfl)
    (fun r member => by rw [silent r member]; rfl)
  obtain ⟨rest',looped',drained'⟩ := answered (fun b => if b = reply then some plain else none) (if_pos rfl) (fun r member => by
    refine if_neg ?_
    intro same
    rw [← same,silent r member] at finished
    contradiction)
  have only : ∀ b other, (if b = reply then some plain else none) = some other → snow.finish initiator b = some (other,keys) := by
    intro b other here
    obtain ⟨rfl,same⟩ := Option.ite_none_right_eq_some.mp here
    cases Option.some.inj same
    exact finished
  intro server up f
  exact (responseRuns only looped drained looped' drained' (Nat.lt_succ_self _)).trans (drainRuns drained)

end Answer

section Hello
variable {hash : KeyedHash} {t : ClientHelloTemplate} {sni raw derivedPsk message hello : Bytes} {fingerprint : Option (List Char)}
  {counter : Nat} {draws : Draws}

structure OneRecord (b : Bytes) : Prop where
  framed : b.length = 5 + u16At b 3
  carries : u16At b 3 ≤ maxTlsRecordPayloadLen

theorem helloFramed (built : buildClientHelloTemplate sni fingerprint raw = some t)
    (ran : instantiate hash t derivedPsk message counter draws = some hello) (record : OneRecord t.bytes) :
    OneRecord hello ∧ byteAt hello 0 = 0x16 := by
  obtain ⟨layout,entries,placed,long,_,suites,keyShare,auxiliary,extensions,ech⟩ := templatePlaced built
  have twin := instantiateTwin placed long suites keyShare auxiliary extensions ech ran
  have behind := extensionsBehind placed
  have session := placed.session
  have front (i : Nat) (inside : i < 11) : hello[i]? = t.bytes[i]? := by
    refine twin.bone i (frontHard placed ?_ ?_ ?_ ?_)
    · rw [session] at behind
      omega
    · exact fun here => absurd here.1 (by omega)
    · rw [session]
      exact fun here => absurd here.1 (by omega)
    · rw [placed.suites,session]
      exact fun here => absurd here.1 (by omega)
  have same : u16At hello 3 = u16At t.bytes 3 := u16Same (front 3 (by decide)) (front 4 (by decide))
  refine ⟨⟨?_,?_⟩,(byteSame (front 0 (by decide))).trans (rangesSome placed.ranges).2.1⟩
  · rw [twin.length,same]
    exact record.framed
  · rw [same]
    exact record.carries

theorem helloNamed (built : buildClientHelloTemplate sni fingerprint raw = some t)
    (ran : instantiate hash t derivedPsk message counter draws = some hello) :
    extractClientHelloServerName hello = extractClientHelloServerName t.bytes := by
  obtain ⟨_,_,_,_,_,_,layout1,entries1,e1,named⟩ := templatePatched built
  obtain ⟨layout,entries,placed,long,_,suites,keyShare,auxiliary,extensions,ech⟩ := templatePlaced built
  have twin := instantiateTwin placed long suites keyShare auxiliary extensions ech ran
  obtain ⟨_,same⟩ := Prod.mk.inj (Option.some.inj ((placedExtensions named.placed).symm.trans (placedExtensions placed)))
  have whole := same ▸ named.whole
  rw [twinNames placed whole twin,extractClientHelloServerName,placedExtensions placed]
  exact (visitNames whole).symm

def candidate (message : Bytes) (counter : Nat) : Candidate := ⟨message.take 32,slice message 32 48,counter / 2^24,counter % 2^24⟩

theorem helloProbed (built : buildClientHelloTemplate sni fingerprint raw = some t) (nonzero : message.take 32 ≠ List.replicate 32 0)
    (small : counter < 2^64) (ran : instantiate hash t derivedPsk message counter draws = some hello) :
    ∃ fields, helloFields hello = some fields ∧ probe hash derivedPsk fields = some (candidate message counter) := by
  obtain ⟨layout,entries,placed,long,_,suites,keyShare,auxiliary,extensions,ech⟩ := templatePlaced built
  unfold instantiate at ran
  obtain ⟨sized,ran⟩ := Option.ite_none_left_eq_some.mp ran
  have whole := not_not.mp sized
  obtain ⟨fresh,refresh,ran⟩ := Option.bind_eq_some_iff.mp ran
  obtain ⟨sealed,seals,rotates⟩ := Option.bind_eq_some_iff.mp ran
  have before := rangesKept (refreshedKept placed keyShare auxiliary ech refresh) placed.ranges
  obtain ⟨after,fields,read,isSealed⟩ := sealWrites whole before long seals
  have behind := extensionsBehind placed
  have kept : Kept layout.sessionIdRange.2 sealed hello := by
    refine randomizationKept ?_ ?_ rotates
    · rw [suites,placed.suites]
      exact Nat.le_add_right _ _
    · rw [extensions]
      omega
  exact ⟨fields,(helloFieldsKept kept after).trans read,(probeSealed whole nonzero small isSealed).2⟩

end Hello

section Agreement
variable {hash : KeyedHash} {snow : Snow I R K} {c : ClientSide} {side : ServerSide} {message hello : Bytes} {initiator : I}
  {p : CamouflageProfile}

/- The hello of the client, instantiated from a template that is one record. -/
structure Hails (hash : KeyedHash) (snow : Snow I R K) (c : ClientSide) (message hello : Bytes) (initiator : I) : Prop where
  built : ∃ sni fingerprint raw, buildClientHelloTemplate sni fingerprint raw = some c.template
  record : OneRecord c.template.bytes
  initiated : snow.initiate c.derivedPsk c.ephemeral = some (message,initiator)
  whole : message.length = 48
  small : c.counter < 2^64
  instantiated : instantiate hash c.template c.derivedPsk message c.counter c.draws = some hello

/- The server knows the key and takes the hello for that of no other user; it is no replay, and the
template bears the name of the endpoint. -/
structure Admits (hash : KeyedHash) (snow : Snow I R K) (c : ClientSide) (side : ServerSide) (message hello : Bytes) : Prop where
  knows : ∃ before after, side.derivedPsks = before ++ c.derivedPsk::after ∧
    authenticateClientHello hash (fun derivedPsk message => (snow.accept derivedPsk message).isSome) side.fresh hello before = none
  fresh : side.fresh c.derivedPsk (candidate message c.counter) = true
  named : ∃ name, extractClientHelloServerName c.template.bytes = some name ∧ Fallback.eqIgnoreAsciiCase name side.camouflageHost = true
  room : side.room = true
  commits : side.commits = true

/- The flight that was fetched is one that the server can hold and the client takes; its patches
succeed, and no record in front of the response passes for one. -/
structure Replays (hash : KeyedHash) (snow : Snow I R K) (c : ClientSide) (side : ServerSide) (message hello : Bytes) (initiator : I)
    (p : CamouflageProfile) : Prop where
  fetched : side.profile = some p
  held : ∃ s : Store, Machine.Reach Camouflage.step Machine.Always {} s ∧ s.Holds p
  fits : Fits p.serverRecords
  flown : ∀ responder, snow.accept c.derivedPsk message = some responder →
    (syntheticFlight hash snow side hello c.derivedPsk (slice message 32 48) responder p).isSome = true
  silent : ∀ r ∈ prefixRecords side.draws p.prefixAppDataSizes,
    snow.finish initiator (xorInPlace r.payload (deriveNoiseEMask hash c.derivedPsk (slice message 32 48))) = none

theorem helloAdmitted (agrees : snow.Agrees) (hails : Hails hash snow c message hello initiator)
    (admits : Admits hash snow c side message hello) :
    classify hash snow side 0x16 hello = none ∧ authenticated hash snow side hello = some (c.derivedPsk,candidate message c.counter) := by
  obtain ⟨sni,fingerprint,raw,built⟩ := hails.built
  obtain ⟨fields,found,probed⟩ := helloProbed built (agrees.nonzero hails.initiated) hails.small hails.instantiated
  obtain ⟨responder,accepted,_⟩ := agrees.hears hails.initiated
  obtain ⟨before,after,known,others⟩ := admits.knows
  obtain ⟨name,named,isHost⟩ := admits.named
  have parts : message.take 32 ++ slice message 32 48 = message := by
    have all : message.take 48 = message := List.take_of_length_le (Nat.le_of_eq hails.whole)
    rw [slice,all,List.take_append_drop]
  have authentic : authenticated hash snow side hello = some (c.derivedPsk,candidate message c.counter) := by
    rw [authenticated,known]
    unfold authenticateClientHello at others ⊢
    rw [found] at others ⊢
    dsimp only [Option.bind_eq_bind,Option.bind_some] at others ⊢
    rw [List.findSome?_append,others,Option.none_or,List.findSome?_cons,probed]
    have takes : (snow.accept c.derivedPsk ((candidate message c.counter).recoveredE ++ (candidate message c.counter).noiseTag)).isSome =
        true := by
      show (snow.accept c.derivedPsk (message.take 32 ++ slice message 32 48)).isSome = true
      rw [parts,accepted]
      rfl
    dsimp only
    rw [if_pos ⟨takes,admits.fresh⟩]
  refine ⟨?_,authentic⟩
  rw [classify,Fallback.judge,if_neg (by decide)]
  rw [authenticated] at authentic
  dsimp only
  rw [authentic,helloNamed built hails.instantiated,named]
  dsimp only
  rw [isHost,if_neg Bool.noConfusion,if_pos admits.room]

theorem initialRuns {α β : Type} {client : Client α} {b rest down : Bytes} {f : UInt8 × Bytes → Server β} (record : OneRecord b)
    (handshake : byteAt b 0 = 0x16) :
    Runs (⟨client,readInitialClientRecord >>= f,b ++ rest,down⟩ : Pair UInt8 ClientError ServerError α β)
      ⟨client,f (0x16,b),rest,down⟩ := by
  have framed := record.framed
  have five : (b.take 5).length = 5 := by
    rw [List.length_take]
    omega
  have fields (k : Nat) (inside : k < 5) : byteAt (b.take 5) k = byteAt b k := by
    rw [byteAt,byteAt,List.getD_eq_getElem?_getD,List.getD_eq_getElem?_getD,List.getElem?_take_of_lt inside]
  have len : u16At (b.take 5) 3 = u16At b 3 := by rw [u16At,u16At,fields 3 (by decide),fields 4 (by decide)]
  have body : (b.drop 5).length = u16At b 3 := by
    rw [List.length_drop]
    omega
  have first := @serverReads UInt8 ClientError ServerError α β client down (b.take 5) (b.drop 5 ++ rest) 5 .initialRecord
    (fun header => (initialBody header).bind f) five
  rw [← List.append_assoc,List.take_append_drop,initialBody,fields 0 (by decide),handshake,len,if_neg (by decide),
    if_neg (Nat.not_lt.mpr record.carries)] at first
  have second := @serverReads UInt8 ClientError ServerError α β client down (b.drop 5) rest (u16At b 3) .initialRecord
    (fun body => (Party.done (0x16,b.take 5 ++ body)).bind f) body
  rw [List.take_append_drop] at second
  exact first.trans second

theorem flight3Sent (agrees : snow.Agrees) (keys : K) (contextHash : Nat) :
    ∃ bytes, Flight3.sendClientFlight3Ghost (snow.cipher keys) 0 contextHash = some (bytes,2) := by
  obtain ⟨finished,sealed⟩ := Option.ne_none_iff_exists'.mp (agrees.seals keys Nat.two_pos (List.replicate flight3FinishedPlaintextLen 0))
  obtain ⟨h2,second⟩ := Option.ne_none_iff_exists'.mp (agrees.seals keys Nat.one_lt_two (buildH2GhostPlaintext contextHash))
  have long := (agrees.undoes keys).tagged sealed
  have size := (agrees.undoes keys).tagged second
  rw [List.length_replicate] at long
  refine ⟨flight3CcsRecord ++ (recordHeader finished.length ++ finished) ++ (recordHeader h2.length ++ h2),?_⟩
  rw [Flight3.sendClientFlight3Ghost,sealed,Option.bind_eq_bind,Option.bind_some,if_neg (not_not_intro long)]
  show (snow.cipher keys).encrypt 1 _ >>= _ = _
  rw [second,Option.bind_eq_bind,Option.bind_some,if_neg (not_not_intro size)]
  rfl

theorem handshakeAgrees (agrees : snow.Agrees) (hails : Hails hash snow c message hello initiator)
    (admits : Admits hash snow c side message hello) (replays : Replays hash snow c side message hello initiator p) (early : Bytes) :
    ∃ keys, ∀ s, Machine.Reach pairStep Machine.Always
        ⟨clientTunnel hash snow c >>= (fun t => send early >>= (fun _ => .done t)),serverAccept hash snow side,[],[]⟩ s →
      s = ⟨.done (keys,2),.done (.established c.derivedPsk keys 2),early,[]⟩ ∨
      Machine.Inevitable pairStep (fun _ => True)
        (fun _ t => t = ⟨.done (keys,2),.done (.established c.derivedPsk keys 2),early,[]⟩) s := by
  obtain ⟨sni,fingerprint,raw,built⟩ := hails.built
  obtain ⟨framed,handshake⟩ := helloFramed built hails.instantiated hails.record
  obtain ⟨responder,accepted,hears⟩ := agrees.hears hails.initiated
  obtain ⟨none,authentic⟩ := helloAdmitted agrees hails admits
  obtain ⟨s,reach,held⟩ := replays.held
  obtain ⟨⟨serverRecords,appRecords⟩,flown⟩ := Option.isSome_iff_exists.mp (replays.flown responder accepted)
  obtain ⟨keys,ghostCount,known,answered⟩ := flightAnswered (β := Accepted K) (α := K × Nat) hears (heldWhole reach held) flown replays.fits
    replays.silent
  obtain ⟨bytes,sent⟩ := flight3Sent agrees keys c.contextHash
  have parts : message.take 32 ++ slice message 32 48 = message := by
    have all : message.take 48 = message := List.take_of_length_le (Nat.le_of_eq hails.whole)
    rw [slice,all,List.take_append_drop]
  have establishes : establish hash snow side hello c.derivedPsk (candidate message c.counter) =
      replay snow c.derivedPsk p (some (serverRecords,appRecords)) (some keys) := by
    have takes : snow.accept c.derivedPsk ((candidate message c.counter).recoveredE ++ (candidate message c.counter).noiseTag) =
        some responder := by
      show snow.accept c.derivedPsk (message.take 32 ++ slice message 32 48) = some responder
      rw [parts,accepted]
    rw [establish,admits.commits,if_neg Bool.noConfusion,replays.fetched]
    dsimp only
    rw [takes]
    dsimp only
    rw [show (candidate message c.counter).noiseTag = slice message 32 48 from rfl,flown,known]
  have run : Runs (⟨clientTunnel hash snow c >>= (fun t => send early >>= (fun _ => .done t)),serverAccept hash snow side,[],[]⟩ :
      Pair UInt8 ClientError ServerError (K × Nat) (Accepted K)) ⟨.done (keys,2),.done (.established c.derivedPsk keys 2),early,[]⟩ := by
    rw [clientTunnel,hails.initiated]
    dsimp only
    rw [if_neg (not_not_intro hails.whole),hails.instantiated]
    dsimp only
    rw [Party.bindAssoc]
    refine (clientSends hello).trans ?_
    rw [List.nil_append,serverAccept]
    have first := @initialRuns (K × Nat) (Accepted K)
      (clientReply hash snow c message initiator >>= (fun t => send early >>= (fun _ => .done t))) hello [] []
      (judged hash snow side) framed handshake
    rw [List.append_nil] at first
    refine first.trans ?_
    rw [judged,none,authentic]
    dsimp only
    rw [establishes,replay]
    refine (burstsRun _).trans ?_
    rw [burstsJoin,List.nil_append,clientReply]
    simp only [Party.bindAssoc]
    refine (answered _ _ _).trans ?_
    refine (flight3Runs sent).trans ?_
    rw [List.nil_append,← List.append_nil bytes]
    refine (consumeRuns (agrees.undoes keys) sent).trans ?_
    exact clientSends early
  exact ⟨keys,fun s reach => inevitablyEnds run (endedAtRest rfl rfl) (reachRuns reach)⟩

theorem refusedForwarded {reason : FailureClass} (hails : Hails hash snow c message hello initiator)
    (refused : classify hash snow side 0x16 hello = some reason) :
    ∀ s, Machine.Reach pairStep Machine.Always ⟨clientTunnel hash snow c,serverAccept hash snow side,[],[]⟩ s →
      s = ⟨clientReply hash snow c message initiator,.done (.forwarded reason hello),[],[]⟩ ∨
      Machine.Inevitable pairStep (fun _ => True)
        (fun _ t => t = ⟨clientReply hash snow c message initiator,.done (.forwarded reason hello),[],[]⟩) s := by
  obtain ⟨sni,fingerprint,raw,built⟩ := hails.built
  obtain ⟨framed,handshake⟩ := helloFramed built hails.instantiated hails.record
  have run : Runs (⟨clientTunnel hash snow c,serverAccept hash snow side,[],[]⟩ :
      Pair UInt8 ClientError ServerError (K × Nat) (Accepted K))
      ⟨clientReply hash snow c message initiator,.done (.forwarded reason hello),[],[]⟩ := by
    rw [clientTunnel,hails.initiated]
    dsimp only
    rw [if_neg (not_not_intro hails.whole),hails.instantiated]
    refine (clientSends hello).trans ?_
    have first := @initialRuns (K × Nat) (Accepted K) (clientReply hash snow c message initiator) hello [] [] (judged hash snow side)
      framed handshake
    rw [List.append_nil,judged,refused] at first
    exact first
  exact fun s reach => inevitablyEnds run (waitsAtRest (by decide)) (reachRuns reach)

/- A pattern that hides nothing: a message is the ephemeral, the payload and half of the key. -/
def sampleSnow : Snow Bytes Bytes Bytes where
  initiate derivedPsk ephemeral :=
    if derivedPsk.length = 32 ∧ ephemeral.length = 32 ∧ ephemeral ≠ List.replicate 32 0 then some (ephemeral ++ derivedPsk.take 16,derivedPsk)
    else none
  accept derivedPsk message :=
    if derivedPsk.length = 32 ∧ message.length = 48 ∧ message.drop 32 = derivedPsk.take 16 then some derivedPsk else none
  respond responder ephemeral payload :=
    if responder.length = 32 ∧ ephemeral.length = 32 then some (ephemeral ++ (payload ++ responder.take 16),responder) else none
  finish initiator reply :=
    if 48 ≤ reply.length ∧ reply.drop (reply.length - 16) = initiator.take 16 then some ((reply.take (reply.length - 16)).drop 32,initiator)
    else none
  cipher _ := Record.tagNoise

theorem sampleSnowHears (key : Bytes) (whole : key.length = 32) : sampleSnow.Hears key key := by
  intro ephemeral payload reply keys responded
  obtain ⟨⟨_,size⟩,same⟩ := Option.ite_none_right_eq_some.mp responded
  obtain ⟨rfl,rfl⟩ := Prod.mk.inj (Option.some.inj same)
  have half : (key.take 16).length = 16 := by
    rw [List.length_take]
    omega
  have length : (ephemeral ++ (payload ++ key.take 16)).length = payload.length + 48 := by
    rw [List.length_append,List.length_append,half,size]
    omega
  have back : payload.length + 48 - 16 = (ephemeral ++ payload).length := by
    rw [List.length_append,size]
    omega
  refine ⟨length,?_⟩
  show (if 48 ≤ (ephemeral ++ (payload ++ key.take 16)).length ∧ _ then some (_,key) else none) = some (payload,key)
  rw [length,back,← List.append_assoc,List.drop_left,List.take_left,if_pos ⟨Nat.le_add_left _ _,rfl⟩,← size,List.drop_left]

theorem sampleSnowAgrees : sampleSnow.Agrees := by
  refine ⟨?_,?_,fun _ => Record.tagNoiseUndoes,?_⟩
  · intro derivedPsk ephemeral message initiator initiated
    obtain ⟨⟨_,size,nonzero⟩,same⟩ := Option.ite_none_right_eq_some.mp initiated
    obtain ⟨rfl,rfl⟩ := Prod.mk.inj (Option.some.inj same)
    rw [← size,List.take_left,size]
    exact nonzero
  · intro derivedPsk ephemeral message initiator initiated
    obtain ⟨⟨whole,size,_⟩,same⟩ := Option.ite_none_right_eq_some.mp initiated
    obtain ⟨rfl,rfl⟩ := Prod.mk.inj (Option.some.inj same)
    refine ⟨derivedPsk,if_pos ⟨whole,?_,?_⟩,sampleSnowHears derivedPsk whole⟩
    · rw [List.length_append,List.length_take]
      omega
    · rw [← size,List.drop_left]
  · exact fun _ _ _ _ => Option.some_ne_none _

def sampleKey : Bytes := List.replicate 32 7
def sampleMessage : Bytes := List.replicate 32 4 ++ sampleKey.take 16

def sampleClient (template : ClientHelloTemplate) : ClientSide := ⟨template,sampleKey,List.replicate 32 4,0x1234567000001,sampleDraws,2⟩

def sampleServer (derivedPsks : List Bytes) (profile : Option CamouflageProfile) : ServerSide where
  derivedPsks
  camouflageHost := ['A']
  fresh _ _ := true
  room := true
  commits := true
  profile
  ephemeral := List.replicate 32 6
  draws := sampleServerDraws

def framedHello : Bytes := put (put sampleHello 3 [0x00,0x85]) 6 [0x00,0x00,0x81]

theorem sampledHeld {fast : Bool} {expected : Option Nat} {clock : Nat → Nat} {endpoint : Bytes}
    (read : readCamouflageServerRecords fast expected clock endpoint = some p) :
    ∃ s : Store, Machine.Reach Camouflage.step Machine.Always {} s ∧ s.Holds p := by
  have moved : Camouflage.step {} (.sample fast expected clock endpoint) =
      some ⟨[⟨p.firstAppDataDelayUs,flightSeen fast expected clock (endpoint.length + 1) endpoint {}⟩],[p],fun _ => []⟩ := by
    rw [Camouflage.step,Camouflage.sampleFlight,read]
    rfl
  exact ⟨_,.next .start trivial moved,.inl List.mem_cons_self⟩

theorem sampleHails {t : ClientHelloTemplate} {hello : Bytes} (built : buildClientHelloTemplate [0x61] none framedHello = some t)
    (record : OneRecord t.bytes) (instantiated : instantiate sampleHash t sampleKey sampleMessage 0x1234567000001 sampleDraws = some hello) :
    Hails sampleHash sampleSnow (sampleClient t) sampleMessage hello sampleKey :=
  ⟨⟨_,_,_,built⟩,record,show sampleSnow.initiate sampleKey (List.replicate 32 4) = some (sampleMessage,sampleKey) by decide,rfl,
    show 0x1234567000001 < 2^64 by decide,instantiated⟩

theorem handshakeAgreesOnce : ∃ template profile keys, Machine.Inevitable pairStep (fun _ => True)
    (fun _ t => t = ⟨.done (keys,2),.done (.established sampleKey keys 2),[1,2,3],[]⟩)
    ⟨clientTunnel sampleHash sampleSnow (sampleClient template) >>= (fun t => send [1,2,3] >>= (fun _ => .done t)),
      serverAccept sampleHash sampleSnow (sampleServer [List.replicate 32 3,sampleKey] (some profile)),[],[]⟩ := by
  have ran : (buildClientHelloTemplate [0x61] none framedHello).any (fun t =>
      decide (t.bytes.length = 5 + u16At t.bytes 3 ∧ u16At t.bytes 3 ≤ maxTlsRecordPayloadLen ∧
        extractClientHelloServerName t.bytes = some ['a']) &&
      (instantiate sampleHash t sampleKey sampleMessage 0x1234567000001 sampleDraws).any (fun hello =>
        decide (authenticateClientHello sampleHash (fun derivedPsk message => (sampleSnow.accept derivedPsk message).isSome)
          (fun _ _ => true) hello [List.replicate 32 3] = none) &&
        (readCamouflageServerRecords false none (fun n => 1000 * n) (sampleEndpoint 1)).any (fun p =>
          decide (Fits p.serverRecords) &&
          (syntheticFlight sampleHash sampleSnow (sampleServer [List.replicate 32 3,sampleKey] (some p)) hello sampleKey
            (slice sampleMessage 32 48) sampleKey p).isSome &&
          (prefixRecords sampleServerDraws p.prefixAppDataSizes).all (fun r => (sampleSnow.finish sampleKey (xorInPlace r.payload
            (deriveNoiseEMask sampleHash sampleKey (slice sampleMessage 32 48)))).isNone)))) = true := by
    decide +kernel
  obtain ⟨t,built,ran⟩ := (Option.any_eq_true _ _).mp ran
  obtain ⟨shape,ran⟩ := Bool.and_eq_true_iff.mp ran
  obtain ⟨framed,carries,named⟩ := of_decide_eq_true shape
  obtain ⟨hello,instantiated,ran⟩ := (Option.any_eq_true _ _).mp ran
  obtain ⟨others,ran⟩ := Bool.and_eq_true_iff.mp ran
  obtain ⟨p,read,ran⟩ := (Option.any_eq_true _ _).mp ran
  obtain ⟨ran,silent⟩ := Bool.and_eq_true_iff.mp ran
  obtain ⟨fits,flown⟩ := Bool.and_eq_true_iff.mp ran
  have admits : Admits sampleHash sampleSnow (sampleClient t) (sampleServer [List.replicate 32 3,sampleKey] (some p)) sampleMessage hello :=
    ⟨⟨[List.replicate 32 3],[],rfl,of_decide_eq_true others⟩,rfl,⟨['a'],named,show Fallback.eqIgnoreAsciiCase ['a'] ['A'] = true by decide⟩,rfl,rfl⟩
  have replays : Replays sampleHash sampleSnow (sampleClient t) (sampleServer [List.replicate 32 3,sampleKey] (some p)) sampleMessage hello
      sampleKey p := by
    refine ⟨rfl,sampledHeld read,of_decide_eq_true fits,?_,?_⟩
    · intro responder accepted
      have same : sampleKey = responder := Option.some.inj ((show sampleSnow.accept sampleKey sampleMessage =
        some sampleKey by decide).symm.trans accepted)
      rw [← same]
      exact flown
    · intro r member
      exact Option.isNone_iff_eq_none.mp (List.all_eq_true.mp silent r member)
  obtain ⟨keys,ends⟩ := handshakeAgrees sampleSnowAgrees (sampleHails built ⟨framed,carries⟩ instantiated) admits replays [1,2,3]
  refine ⟨t,p,keys,(ends _ .start).resolve_left ?_⟩
  intro same
  have unread : ([] : Bytes) = [1,2,3] := congrArg Pair.up same
  exact absurd unread (by decide)

theorem refusedForwardedOnce : ∃ template hello, Machine.Inevitable pairStep (fun _ => True)
    (fun _ t => t = ⟨clientReply sampleHash sampleSnow (sampleClient template) sampleMessage sampleKey,
      .done (.forwarded .authFailed hello),[],[]⟩)
    ⟨clientTunnel sampleHash sampleSnow (sampleClient template),
      serverAccept sampleHash sampleSnow (sampleServer [List.replicate 32 3] none),[],[]⟩ := by
  have ran : (buildClientHelloTemplate [0x61] none framedHello).any (fun t =>
      decide (t.bytes.length = 5 + u16At t.bytes 3 ∧ u16At t.bytes 3 ≤ maxTlsRecordPayloadLen) &&
      (instantiate sampleHash t sampleKey sampleMessage 0x1234567000001 sampleDraws).any (fun hello =>
        decide (classify sampleHash sampleSnow (sampleServer [List.replicate 32 3] none) 0x16 hello = some .authFailed))) = true := by
    decide +kernel
  obtain ⟨t,built,ran⟩ := (Option.any_eq_true _ _).mp ran
  obtain ⟨shape,ran⟩ := Bool.and_eq_true_iff.mp ran
  obtain ⟨framed,carries⟩ := of_decide_eq_true shape
  obtain ⟨hello,instantiated,refused⟩ := (Option.any_eq_true _ _).mp ran
  refine ⟨t,hello,(refusedForwarded (sampleHails built ⟨framed,carries⟩ instantiated) (of_decide_eq_true refused) _ .start).resolve_left ?_⟩
  intro same
  have pending : false = true := congrArg Party.ended (congrArg Pair.server same)
  exact Bool.false_ne_true pending

end Agreement

end KanoTls.Handshake
