import KanoTls.HelloPasses

/-! The scan of a sampled flight for its key share and the patches of its ServerHello, checked
as the other parsers are. No parser that meets an unknown peer's bytes panics or spins. -/
namespace KanoTls.Checked
open Uot Wire Patch Hello Outcome Camouflage Text

/- `rec_type == 0x16 && rec_len > 0 && records[offset + 5] == 0x02`, read from the left. -/
def opensServerHello (max : Nat) (records : Bytes) (offset recLen : Nat) : Outcome Bool := do
  let recType ← index records offset
  if recType ≠ 0x16 then found false
  else if recLen = 0 then found false
  else do
    let first ← index records (← add max offset 5)
    found (first = 0x02)

def keyShareFrom (max : Nat) (records : Bytes) (extensionsEnd : Nat) : Nat → Nat → Outcome (Nat × Range)
  | 0,_ => spins
  | turns+1,cursor => do
    let header ← add max cursor 4
    if header ≤ extensionsEnd then do
      let extType ← u16Index max records cursor
      let extLen ← u16Index max records (← add max cursor 2)
      let dataStart ← add max cursor 4
      let dataEnd ← ofOption (checkedAdd max dataStart extLen)
      if dataEnd > extensionsEnd then absent
      else if extType = 0x0033 then
        if extLen < 4 then absent
        else do
          let group ← u16Index max records dataStart
          let keLen ← u16Index max records (← add max dataStart 2)
          let keStart ← add max dataStart 4
          let keEnd ← ofOption (checkedAdd max keStart keLen)
          if keEnd > dataEnd then absent else found (group,(keStart,keEnd))
      else keyShareFrom max records extensionsEnd turns dataEnd
    else absent

def serverHelloKeyShareRange (max : Nat) (records : Bytes) : Nat → Nat → Outcome (Nat × Range)
  | 0,_ => spins
  | turns+1,offset => do
    let header ← add max offset 5
    if header ≤ records.length then do
      let recLen ← u16Index max records (← add max offset 3)
      let recordEnd ← add max header recLen
      if recordEnd > records.length then absent
      else do
        let here ← opensServerHello max records offset recLen
        if here then do
          let cursor ← ofOption (checkedAdd max offset (5 + 4 + 2 + 32))
          if cursor ≥ recordEnd then absent
          else do
            let sessionIdLen ← index records cursor
            let size ← add max (← add max (← add max 1 sessionIdLen.toNat) 2) 1
            let cursor ← ofOption (checkedAdd max cursor size)
            let lengthEnd ← add max cursor 2
            if lengthEnd > recordEnd then absent
            else do
              let extensionsLen ← u16Index max records cursor
              let extensionsEnd ← ofOption (checkedAdd max lengthEnd extensionsLen)
              if extensionsEnd > recordEnd then absent
              else keyShareFrom max records extensionsEnd (records.length + 1) lengthEnd
        else serverHelloKeyShareRange max records turns recordEnd
    else absent

/- The patches return the records they leave, or nothing where the source returns `false`. -/
def patchServerHelloSessionIdEcho (max : Nat) (clientSessionId records : Bytes) : Nat → Nat → Outcome Bytes
  | 0,_ => spins
  | turns+1,offset => do
    let header ← add max offset 5
    if header ≤ records.length then do
      let recLen ← u16Index max records (← add max offset 3)
      let recordTotal ← add max 5 recLen
      let recordEnd ← add max offset recordTotal
      if recordEnd > records.length then absent
      else do
        let here ← opensServerHello max records offset recLen
        if here then do
          let sessionIdLenOffset ← add max offset 43
          if sessionIdLenOffset ≥ recordEnd then absent
          else do
            let echoLen ← index records sessionIdLenOffset
            let echoStart ← add max sessionIdLenOffset 1
            let echoEnd ← add max echoStart echoLen.toNat
            if echoEnd > recordEnd then absent
            else if clientSessionId.length ≠ echoLen.toNat then absent
            else copyFromSlice records echoStart echoEnd clientSessionId
        else patchServerHelloSessionIdEcho max clientSessionId records turns recordEnd
    else absent

/- The share is checked to hold 32 bytes before it is written. -/
def fillX25519PublicKey (draws : ServerDraws) (share : Bytes) : Outcome Bytes :=
  if share.length ≠ 32 then absent
  else do
    let key ← ofOption (draws.x25519.filter (fun key => key.length = 32))
    copyFromSlice share 0 share.length key

def fillP256PublicKey (draws : ServerDraws) (share : Bytes) : Outcome Bytes := do
  let key ← ofOption draws.p256
  if key.length ≠ share.length then absent else copyFromSlice share 0 share.length key

def patchServerHelloKeyShare (max : Nat) (draws : ServerDraws) (records : Bytes) : Outcome Bytes := do
  let (group,place) ← serverHelloKeyShareRange max records (records.length + 1) 0
  let keyExchange ← range records place.1 place.2
  let key ←
    if group = 0x001d ∧ keyExchange.length = 32 then fillX25519PublicKey draws keyExchange
    else if group = 0x0017 ∧ keyExchange.length = 65 then fillP256PublicKey draws keyExchange
    else if group = 0x11ec ∧ keyExchange.length = mlkem768CiphertextLen + 32 then do
      let ciphertext ← range keyExchange 0 mlkem768CiphertextLen
      let last ← range keyExchange mlkem768CiphertextLen keyExchange.length
      let key ← fillX25519PublicKey draws last
      found (fillBytes draws.mlkem ciphertext.length ++ key)
    else absent
  found (put records place.1 key)

def patchServerHelloRandom (max : Nat) (draw : Nat → UInt8) : Nat → Nat → Bytes → Outcome Bytes
  | 0,_,_ => spins
  | turns+1,offset,records => do
    let header ← add max offset 5
    if header ≤ records.length then do
      let recLen ← u16Index max records (← add max offset 3)
      let recordTotal ← add max 5 recLen
      let recordEnd ← add max offset recordTotal
      if recordEnd > records.length then found records
      else do
        let here ← opensServerHello max records offset recLen
        if here then do
          let randomStart ← add max offset 11
          let randomEnd ← add max randomStart 32
          if randomEnd > recordEnd then found records
          else do
            let random ← range records randomStart randomEnd
            if random = helloRetryRequestRandom then patchServerHelloRandom max draw turns recordEnd records
            else do
              let sentinelStart ← add max randomStart 24
              let last8 ← range records sentinelStart randomEnd
              let fresh := fillBytes draw 32
              let records ←
                if last8 = tls12DowngradeSentinel ∨ last8 = tls11DowngradeSentinel then do
                  let front ← range fresh 0 24
                  copyFromSlice records randomStart sentinelStart front
                else copyFromSlice records randomStart randomEnd fresh
              patchServerHelloRandom max (fun i => draw (i + 32)) turns recordEnd records
        else patchServerHelloRandom max draw turns recordEnd records
    else found records

section Flights
variable {max : Nat} {b : Bytes}

theorem opensAgrees {offset : Nat} (room : b.length + 131072 ≤ max) (header : offset + 5 ≤ b.length)
    (within : offset + 5 + u16At b (offset + 3) ≤ b.length) :
    opensServerHello max b offset (u16At b (offset + 3)) =
      found (decide (byteAt b offset = 0x16 ∧ u16At b (offset + 3) > 0 ∧ byteAt b (offset + 5) = 0x02)) := by
  unfold opensServerHello
  rw [indexByte (by omega),foundThen]
  split
  · rename_i other
    rw [decide_eq_false (fun all => other all.1)]
  · rename_i handshake
    split
    · rename_i empty
      rw [decide_eq_false (fun all => by omega)]
    · rename_i filled
      rw [addFits (by omega),foundThen,indexByte (by omega),foundThen]
      congr 1
      rw [decide_eq_decide]
      exact ⟨fun first => ⟨not_not.mp handshake,by omega,first⟩,fun all => all.2.2⟩

theorem keyShareFromAgrees {extensionsEnd fuel cursor : Nat} (room : b.length + 131072 ≤ max) (fits : extensionsEnd ≤ b.length)
    (near : cursor ≤ b.length + 2) (enough : extensionsEnd < cursor + 4 + fuel) :
    keyShareFrom max b extensionsEnd (fuel + 1) cursor = ofOption (Camouflage.keyShareFrom b extensionsEnd fuel cursor) := by
  induction fuel generalizing cursor with
  | zero =>
    rw [keyShareFrom,addFits (by omega),foundThen,if_neg (by omega)]
    rfl
  | succ fuel ih =>
    rw [keyShareFrom,Camouflage.keyShareFrom,addFits (by omega),foundThen]
    by_cases more : cursor + 4 ≤ extensionsEnd
    · have := u16Below b (cursor + 2)
      have := u16Below b (cursor + 4 + 2)
      rw [if_pos more,if_pos more]
      simp (disch := omega) only [u16IndexFits,addFits,checkedFits,foundThen,ofSome]
      split
      · rfl
      · split
        · split
          · rfl
          · simp (disch := omega) only [u16IndexFits,checkedFits,foundThen,ofSome]
            split
            · rfl
            · rfl
        · exact ih (by omega) (by omega)
    · rw [if_neg more,if_neg more]
      rfl

theorem serverShareAgrees {fuel offset : Nat} (room : b.length + 131072 ≤ max) (near : offset ≤ b.length)
    (enough : b.length < offset + 5 + fuel) :
    serverHelloKeyShareRange max b (fuel + 1) offset = ofOption (Camouflage.serverHelloKeyShareRange b fuel offset) := by
  induction fuel generalizing offset with
  | zero =>
    rw [serverHelloKeyShareRange,addFits (by omega),foundThen,if_neg (by omega)]
    rfl
  | succ fuel ih =>
    rw [serverHelloKeyShareRange,Camouflage.serverHelloKeyShareRange,addFits (by omega),foundThen]
    by_cases more : offset + 5 ≤ b.length
    · have := u16Below b (offset + 3)
      rw [if_pos more,if_pos more]
      simp (disch := omega) only [u16IndexFits,addFits,foundThen]
      split
      · rfl
      · rename_i within
        rw [opensAgrees room more (Nat.not_lt.mp within),foundThen]
        by_cases here : byteAt b offset = 0x16 ∧ u16At b (offset + 3) > 0 ∧ byteAt b (offset + 5) = 0x02
        · have := byteBelow (byteAt b (offset + 43))
          rw [if_pos (decide_eq_true here),if_neg (by
            rintro (other | other | other)
            · exact other here.1
            · omega
            · exact other here.2.2)]
          simp (disch := omega) only [checkedFits,foundThen,ofSome,Nat.reduceAdd]
          split
          · rfl
          · simp (disch := omega) only [indexByte,addFits,checkedFits,foundThen,ofSome]
            split
            · rfl
            · have := u16Below b (offset + 43 + (1 + (byteAt b (offset + 43)).toNat + 2 + 1))
              simp (disch := omega) only [u16IndexFits,checkedFits,foundThen,ofSome]
              split
              · rfl
              · exact keyShareFromAgrees room (by omega) (by omega) (by omega)
        · rw [if_neg (by simpa using here),if_pos (by
            by_contra all
            rw [not_or,not_or,not_not,not_not] at all
            exact here ⟨all.1,by omega,all.2.2⟩)]
          exact ih (by omega) (by omega)
    · rw [if_neg more,if_neg more]
      rfl

theorem echoAgrees {sessionId : Bytes} {fuel offset : Nat} (room : b.length + 131072 ≤ max) (near : offset ≤ b.length)
    (enough : b.length < offset + 5 + fuel) :
    patchServerHelloSessionIdEcho max sessionId b (fuel + 1) offset =
      ofOption (Camouflage.patchServerHelloSessionIdEcho sessionId b fuel offset) := by
  induction fuel generalizing offset with
  | zero =>
    rw [patchServerHelloSessionIdEcho,addFits (by omega),foundThen,if_neg (by omega)]
    rfl
  | succ fuel ih =>
    rw [patchServerHelloSessionIdEcho,Camouflage.patchServerHelloSessionIdEcho,addFits (by omega),foundThen]
    by_cases more : offset + 5 ≤ b.length
    · have := u16Below b (offset + 3)
      rw [if_pos more,if_pos more]
      simp (disch := omega) only [u16IndexFits,addFits,foundThen]
      split
      · rfl
      · rw [opensAgrees room more (by omega),foundThen]
        by_cases here : byteAt b offset = 0x16 ∧ u16At b (offset + 3) > 0 ∧ byteAt b (offset + 5) = 0x02
        · have := byteBelow (byteAt b (offset + 43))
          rw [if_pos (decide_eq_true here),if_pos here]
          split
          · rfl
          · simp (disch := omega) only [indexByte,addFits,foundThen]
            split
            · rfl
            · split
              · rfl
              · rename_i sized
                exact copyFits (by omega) (by omega) (by omega)
        · rw [if_neg (by simpa using here),if_neg here]
          exact ih (by omega) (by omega)
    · rw [if_neg more,if_neg more]
      rfl

theorem x25519Agrees {draws : ServerDraws} {share : Bytes} (size : share.length = 32) :
    fillX25519PublicKey draws share = ofOption (draws.x25519.filter (fun key => key.length = 32)) := by
  rw [fillX25519PublicKey,if_neg (not_not.mpr size)]
  cases drawn : draws.x25519.filter (fun key => key.length = 32) with
  | none => rfl
  | some key =>
    have sized : key.length = 32 := by simpa using (Option.filter_eq_some_iff.mp drawn).2
    rw [ofSome,foundThen,copyFits (Nat.zero_le _) (Nat.le_refl _) (by omega),putWhole (by omega)]

theorem p256Agrees {draws : ServerDraws} {share : Bytes} :
    fillP256PublicKey draws share = ofOption (draws.p256.filter (fun key => key.length = share.length)) := by
  unfold fillP256PublicKey
  cases draws.p256 with
  | none => rfl
  | some key =>
    rw [ofSome,foundThen]
    by_cases sized : key.length = share.length
    · rw [if_neg (not_not.mpr sized),copyFits (Nat.zero_le _) (Nat.le_refl _) (by omega),putWhole sized,
        Option.filter_some_pos (by simpa using sized)]
      rfl
    · rw [if_pos sized,Option.filter_some_neg (by simpa using sized)]
      rfl

theorem keyShareFromInside {extensionsEnd fuel cursor group : Nat} {place : Range} (fits : extensionsEnd ≤ b.length)
    (located : Camouflage.keyShareFrom b extensionsEnd fuel cursor = some (group,place)) :
    RangeIn b place := by
  induction fuel generalizing cursor with
  | zero => contradiction
  | succ fuel ih =>
    rw [Camouflage.keyShareFrom] at located
    obtain ⟨_,located⟩ := Option.ite_none_right_eq_some.mp located
    dsimp only at located
    obtain ⟨_,located⟩ := Option.ite_none_left_eq_some.mp located
    split at located
    · obtain ⟨_,located⟩ := Option.ite_none_left_eq_some.mp located
      obtain ⟨inside,located⟩ := Option.ite_none_left_eq_some.mp located
      cases Option.some.inj located
      exact ⟨Nat.le_add_right _ _,by dsimp only; omega⟩
    · exact ih located

theorem serverShareInside {fuel offset group : Nat} {place : Range}
    (located : Camouflage.serverHelloKeyShareRange b fuel offset = some (group,place)) :
    RangeIn b place := by
  induction fuel generalizing offset with
  | zero => contradiction
  | succ fuel ih =>
    rw [Camouflage.serverHelloKeyShareRange] at located
    obtain ⟨_,located⟩ := Option.ite_none_right_eq_some.mp located
    dsimp only at located
    obtain ⟨_,located⟩ := Option.ite_none_left_eq_some.mp located
    split at located
    · exact ih located
    · obtain ⟨_,located⟩ := Option.ite_none_left_eq_some.mp located
      obtain ⟨_,located⟩ := Option.ite_none_left_eq_some.mp located
      obtain ⟨_,located⟩ := Option.ite_none_left_eq_some.mp located
      exact keyShareFromInside (by omega) located

theorem keyShareAgrees {draws : ServerDraws} (room : b.length + 131072 ≤ max) :
    patchServerHelloKeyShare max draws b = ofOption (Camouflage.patchServerHelloKeyShare draws b) := by
  unfold patchServerHelloKeyShare Camouflage.patchServerHelloKeyShare
  rw [serverShareAgrees room (Nat.zero_le _) (by omega)]
  cases located : Camouflage.serverHelloKeyShareRange b b.length 0 with
  | none => rfl
  | some pair =>
    obtain ⟨group,place⟩ := pair
    obtain ⟨ordered,fits⟩ := serverShareInside located
    have size : (slice b place.1 place.2).length = place.2 - place.1 := sliceLength fits
    dsimp only [Option.bind_eq_bind,Option.bind_some]
    rw [ofSome,foundThen]
    dsimp only
    rw [rangeFits ordered fits,foundThen,size,freshKeyShare]
    generalize slice b place.1 place.2 = share at size ⊢
    split
    · rw [x25519Agrees (by omega)]
      cases draws.x25519.filter (fun key => key.length = 32) with
      | none => rfl
      | some key => rfl
    · split
      · rw [p256Agrees,size]
        cases draws.p256.filter (fun key => key.length = place.2 - place.1) with
        | none => rfl
        | some key => rfl
      · split
        · rename_i hybrid
          have whole : share.length = 1088 + 32 := by rw [size,hybrid.2]; rfl
          have front : (slice share 0 mlkem768CiphertextLen).length = mlkem768CiphertextLen :=
            sliceLength (by rw [whole]; decide)
          have last : (slice share mlkem768CiphertextLen (place.2 - place.1)).length = 32 := by
            rw [sliceLength (by omega),← size,whole]
            rfl
          rw [rangeFits (Nat.zero_le _) (by rw [whole]; decide),foundThen,rangeFits (by rw [← size,whole]; decide) (by omega),
            foundThen,x25519Agrees last,front]
          cases draws.x25519.filter (fun key => key.length = 32) with
          | none => rfl
          | some key => rfl
        · rfl

theorem randomAgrees {draw : Nat → UInt8} {fuel offset : Nat} (room : b.length + 131072 ≤ max) (near : offset ≤ b.length)
    (enough : b.length < offset + 5 + fuel) :
    patchServerHelloRandom max draw (fuel + 1) offset b = found (Camouflage.patchServerHelloRandom draw fuel offset b) ∧
    (Camouflage.patchServerHelloRandom draw fuel offset b).length = b.length := by
  induction fuel generalizing offset b draw with
  | zero =>
    rw [patchServerHelloRandom,addFits (by omega),foundThen,if_neg (by omega)]
    exact ⟨rfl,rfl⟩
  | succ fuel ih =>
    rw [patchServerHelloRandom,Camouflage.patchServerHelloRandom,addFits (by omega),foundThen]
    by_cases more : offset + 5 ≤ b.length
    · have := u16Below b (offset + 3)
      rw [if_pos more,if_pos more]
      simp (disch := omega) only [u16IndexFits,addFits,foundThen]
      by_cases beyond : offset + (5 + u16At b (offset + 3)) > b.length
      · rw [if_pos beyond,if_pos beyond]
        exact ⟨rfl,rfl⟩
      · rw [if_neg beyond,if_neg beyond,opensAgrees room more (by omega),foundThen]
        by_cases here : byteAt b offset = 0x16 ∧ u16At b (offset + 3) > 0 ∧ byteAt b (offset + 5) = 0x02
        · rw [if_pos (decide_eq_true here),if_pos here]
          by_cases short : offset + 11 + 32 > offset + (5 + u16At b (offset + 3))
          · rw [if_pos short,if_pos short]
            exact ⟨rfl,rfl⟩
          · rw [if_neg short,if_neg short,rangeFits (by omega) (by omega),foundThen]
            by_cases retry : slice b (offset + 11) (offset + 11 + 32) = helloRetryRequestRandom
            · rw [if_pos retry,if_pos retry]
              exact ih room (by omega) (by omega)
            · rw [if_neg retry,if_neg retry,rangeFits (by omega) (by omega),foundThen,freshRandom]
              by_cases kept : slice b (offset + 11 + 24) (offset + 11 + 32) = tls12DowngradeSentinel ∨
                  slice b (offset + 11 + 24) (offset + 11 + 32) = tls11DowngradeSentinel
              · have taken : ((fillBytes draw 32).take 24).length = 24 := by
                  rw [List.length_take,fillBytesLength]
                  rfl
                have size : (put b (offset + 11) ((fillBytes draw 32).take 24)).length = b.length :=
                  putLength (by omega)
                rw [if_pos kept,if_pos kept,rangeFits (Nat.zero_le _) (by rw [fillBytesLength]; decide),foundThen]
                rw [copyFits (by omega) (by omega) (by rw [sliceLength (by rw [fillBytesLength]; decide)]; omega),foundThen]
                obtain ⟨agrees,same⟩ := @ih (put b (offset + 11) ((fillBytes draw 32).take 24)) (fun i => draw (i + 32))
                  (offset + (5 + u16At b (offset + 3))) (by omega) (by omega) (by omega)
                exact ⟨agrees,by rw [same,size]⟩
              · have size : (put b (offset + 11) (fillBytes draw 32)).length = b.length :=
                  putLength (by rw [fillBytesLength]; omega)
                rw [if_neg kept,if_neg kept,copyFits (by omega) (by omega) (by rw [fillBytesLength]; omega),foundThen]
                obtain ⟨agrees,same⟩ := @ih (put b (offset + 11) (fillBytes draw 32)) (fun i => draw (i + 32))
                  (offset + (5 + u16At b (offset + 3))) (by omega) (by omega) (by omega)
                exact ⟨agrees,by rw [same,size]⟩
        · rw [if_neg (by simpa using here),if_neg here]
          exact ih room (by omega) (by omega)
    · rw [if_neg more,if_neg more]
      exact ⟨rfl,rfl⟩

theorem echoLength {sessionId c : Bytes} {fuel offset : Nat}
    (patched : Camouflage.patchServerHelloSessionIdEcho sessionId b fuel offset = some c) : c.length = b.length := by
  induction fuel generalizing offset with
  | zero => contradiction
  | succ fuel ih =>
    rw [Camouflage.patchServerHelloSessionIdEcho] at patched
    obtain ⟨_,patched⟩ := Option.ite_none_right_eq_some.mp patched
    dsimp only at patched
    obtain ⟨_,patched⟩ := Option.ite_none_left_eq_some.mp patched
    split at patched
    · obtain ⟨_,patched⟩ := Option.ite_none_left_eq_some.mp patched
      obtain ⟨_,patched⟩ := Option.ite_none_left_eq_some.mp patched
      obtain ⟨_,patched⟩ := Option.ite_none_left_eq_some.mp patched
      cases Option.some.inj patched
      exact putLength (by omega)
    · exact ih patched

theorem freshLength {draws : ServerDraws} {group len : Nat} {key : Bytes}
    (fresh : freshKeyShare draws group len = some key) : key.length = len := by
  unfold freshKeyShare at fresh
  dsimp only at fresh
  split at fresh
  · rename_i small
    rw [small.2]
    simpa using (Option.filter_eq_some_iff.mp fresh).2
  · split at fresh
    · simpa using (Option.filter_eq_some_iff.mp fresh).2
    · obtain ⟨hybrid,fresh⟩ := Option.ite_none_right_eq_some.mp fresh
      obtain ⟨last,drawn,rfl⟩ := Option.map_eq_some_iff.mp fresh
      have size : last.length = 32 := by simpa using (Option.filter_eq_some_iff.mp drawn).2
      rw [List.length_append,fillBytesLength,size,hybrid.2]

theorem keyShareLength {draws : ServerDraws} {c : Bytes} (patched : Camouflage.patchServerHelloKeyShare draws b = some c) :
    c.length = b.length := by
  unfold Camouflage.patchServerHelloKeyShare at patched
  obtain ⟨⟨group,place⟩,located,patched⟩ := Option.bind_eq_some_iff.mp patched
  obtain ⟨key,fresh,patched⟩ := Option.bind_eq_some_iff.mp patched
  obtain ⟨ordered,fits⟩ := serverShareInside located
  have size := freshLength fresh
  cases Option.some.inj patched
  exact putLength (by omega)

end Flights

structure Usize where
  bits : Nat
  wide : 32 ≤ bits

def Usize.max (u : Usize) : Nat := 2^u.bits - 1

/- No slice is longer than `isize::MAX`. -/
structure Usize.Slice (u : Usize) where
  bytes : Bytes
  fits : bytes.length ≤ 2^(u.bits - 1) - 1

theorem Usize.room (u : Usize) (s : u.Slice) : s.bytes.length + 131072 ≤ u.max := by
  have wide := u.wide
  have fits := s.fits
  have half : 2^u.bits = 2 * 2^(u.bits - 1) := by
    rw [← Nat.pow_succ']
    congr 1
    omega
  have large : 2^31 ≤ 2^(u.bits - 1) := Nat.pow_le_pow_right (by decide) (by omega)
  unfold Usize.max
  omega

/- A run that neither panics nor spins, and what holds of its value. -/
structure Safe {α : Type} (run : Outcome α) (model : Option α) (holds : α → Prop) : Prop where
  runs : run ≠ panics
  ends : run ≠ spins
  agrees : run = ofOption model
  value : ∀ a, run = found a → holds a

theorem Safe.of {α : Type} {run : Outcome α} {model : Option α} {holds : α → Prop} (agrees : run = ofOption model)
    (value : ∀ a, model = some a → holds a) : Safe run model holds := by
  subst agrees
  cases model with
  | none =>
    constructor
    · intro same
      contradiction
    · intro same
      contradiction
    · rfl
    · intro a same
      contradiction
  | some b =>
    constructor
    · intro same
      contradiction
    · intro same
      contradiction
    · rfl
    · intro a same
      cases same
      exact value _ rfl

theorem parsersTotal (u : Usize) (record records sessionId : u.Slice) (hash : KeyedHash) (draws : ServerDraws) :
    Safe (clientHelloRandomAndSessionIdRanges u.max record.bytes) (Hello.clientHelloRandomAndSessionIdRanges record.bytes)
      (fun found => RangeIn record.bytes found.1 ∧ RangeIn record.bytes found.2) ∧
    Safe (extractClientHelloServerName u.max record.bytes) (Hello.extractClientHelloServerName record.bytes)
      (fun name => ∃ range, RangeIn record.bytes range ∧ fromUtf8 (slice record.bytes range.1 range.2) = some name) ∧
    Safe (stableClientHelloFingerprint u.max hash record.bytes) (Hello.stableClientHelloFingerprint hash record.bytes)
      (fun print => print.length = 32) ∧
    Safe (clientHelloKeyShareRange u.max record.bytes) (Hello.clientHelloKeyShareRange record.bytes) (RangeIn record.bytes) ∧
    Safe (serverHelloKeyShareRange u.max records.bytes (records.bytes.length + 1) 0)
      (Camouflage.serverHelloKeyShareRange records.bytes records.bytes.length 0) (fun found => RangeIn records.bytes found.2) ∧
    Safe (patchServerHelloSessionIdEcho u.max sessionId.bytes records.bytes (records.bytes.length + 1) 0)
      (Camouflage.patchServerHelloSessionIdEcho sessionId.bytes records.bytes records.bytes.length 0)
      (fun patched => patched.length = records.bytes.length) ∧
    Safe (patchServerHelloKeyShare u.max draws records.bytes) (Camouflage.patchServerHelloKeyShare draws records.bytes)
      (fun patched => patched.length = records.bytes.length) ∧
    Safe (patchServerHelloRandom u.max draws.random (records.bytes.length + 1) 0 records.bytes)
      (some (Camouflage.patchServerHelloRandom draws.random records.bytes.length 0 records.bytes))
      (fun patched => patched.length = records.bytes.length) := by
  have room := u.room record
  have roomy := u.room records
  have random := @randomAgrees u.max records.bytes draws.random records.bytes.length 0 roomy (Nat.zero_le _) (by omega)
  refine ⟨.of (rangesAgree (by omega)) ?_,.of (serverNameAgrees room) ?_,.of (fingerprintAgrees hash room) ?_,
    .of (clientShareAgrees room) ?_,.of (serverShareAgrees roomy (Nat.zero_le _) (by omega)) ?_,
    .of (echoAgrees roomy (Nat.zero_le _) (by omega)) ?_,.of (keyShareAgrees roomy) ?_,.of random.1 ?_⟩
  · intro pair ranges
    obtain ⟨_,_,_,isRandom,isSession,fits⟩ := rangesSome ranges
    constructor
    · rw [isRandom]
      exact ⟨by decide,by dsimp only; omega⟩
    · exact ⟨by rw [isSession]; exact Nat.le_add_right _ _,fits⟩
  · intro name read
    exact serverNameInside read
  · intro print printed
    obtain ⟨_,_,printed⟩ := Option.bind_eq_some_iff.mp printed
    obtain ⟨_,_,printed⟩ := Option.bind_eq_some_iff.mp printed
    cases Option.some.inj printed
    exact hash.size _ _
  · intro range read
    exact clientShareInside read
  · intro pair located
    exact serverShareInside located
  · intro patched written
    exact echoLength written
  · intro patched written
    exact keyShareLength written
  · intro patched written
    cases Option.some.inj written
    exact random.2

end KanoTls.Checked
