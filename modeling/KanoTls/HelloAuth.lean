import KanoTls.HelloLayout

/-! The server reads from a hello what the client wrote into it: everything the client
changes behind the session id leaves random and session id alone. -/
namespace KanoTls.Hello
open Uot Wire Patch

def Kept (k : Nat) (b c : Bytes) : Prop := c.length = b.length ∧ c.take k = b.take k

theorem Kept.refl (k : Nat) (b : Bytes) : Kept k b b := ⟨rfl,rfl⟩

theorem Kept.trans {k : Nat} {b c d : Bytes} (first : Kept k b c) (second : Kept k c d) : Kept k b d :=
  ⟨second.1.trans first.1,second.2.trans first.2⟩

theorem putKept {k start : Nat} {b chunk : Bytes} (behind : k ≤ start) (fits : start + chunk.length ≤ b.length) :
    Kept k b (put b start chunk) := ⟨putLength fits,putTake behind (by omega)⟩

theorem Kept.byteAt {k i : Nat} {b c : Bytes} (kept : Kept k b c) (inside : i < k) : byteAt c i = byteAt b i := by
  have same : (c.take k)[i]? = (b.take k)[i]? := by rw [kept.2]
  rw [List.getElem?_take_of_lt inside,List.getElem?_take_of_lt inside] at same
  rw [Hello.byteAt,Hello.byteAt,List.getD_eq_getElem?_getD,List.getD_eq_getElem?_getD,same]

section Bounds
variable {b : Bytes} {layout : ClientHelloLayout} {entries : List Entry}

theorem entryBounds (placed : Placed b layout entries) {e : Entry} (member : e ∈ entries) :
    EntryOk b layout.extensionsLenRange.2 (layout.extensionsLenRange.2 + u16At b layout.extensionsLenRange.1) e :=
  (walkEntriesOk placed.walked).1 e member

theorem extensionsBehind (placed : Placed b layout entries) : layout.sessionIdRange.2 + 5 ≤ layout.extensionsLenRange.2 ∧
    layout.extensionsLenRange.1 + 2 = layout.extensionsLenRange.2 := by
  rw [placed.extensionsLen,placed.suites]
  exact ⟨by dsimp only; omega,rfl⟩

theorem shareBounds (placed : Placed b layout entries) {range : Range} (share : ShareOf b entries range) :
    layout.sessionIdRange.2 ≤ range.1 ∧ range.1 ≤ range.2 ∧ range.2 ≤ b.length := by
  obtain ⟨e,member,_,shares,walked,here⟩ := share
  have entry := entryBounds placed member
  have ok := (shareRangesOk walked).1 range here
  have behind := extensionsBehind placed
  have := entry.after
  have := entry.within
  have := ok.after
  have := ok.within
  have := ok.ordered
  have := placed.fits
  exact ⟨by omega,by omega,by omega⟩

theorem echBounds (placed : Placed b layout entries) {ech : EchGreaseRanges} (found : EchOf b entries ech) :
    layout.sessionIdRange.2 ≤ ech.configId ∧ ech.configId < ech.enc.1 ∧ ech.enc.1 ≤ ech.enc.2 ∧
    ech.enc.2 ≤ ech.payload.1 ∧ ech.payload.1 ≤ ech.payload.2 ∧ ech.payload.2 ≤ b.length := by
  obtain ⟨e,member,_,_,ranges⟩ := found
  obtain ⟨config,enc,payload,stop⟩ := echRangesOk ranges
  have entry := entryBounds placed member
  have behind := extensionsBehind placed
  have := entry.after
  have := entry.within
  have := placed.fits
  rw [payload,enc] at *
  dsimp only at *
  exact ⟨by omega,by omega,by omega,by omega,by omega,by omega⟩

end Bounds

section Refresh
variable {draws : Draws} {k : Nat}

theorem fillBytesLength (draw : Nat → UInt8) (n : Nat) : (fillBytes draw n).length = n := by
  simp [fillBytes]

theorem hybridLength (j : Nat) {key : Bytes} (size : key.length = 32) :
    (fillMlkem768HybridShare draws j key).length = 1216 := by
  rw [fillMlkem768HybridShare,List.length_append,List.length_append,fillBytesLength,size,List.length_flatMap]
  simp only [List.length_cons,List.length_nil]
  rw [List.map_const',List.sum_replicate,List.length_range]
  rfl

theorem refreshShareWrites {j : Nat} {key out out' : Bytes} {range : Range} (size : key.length = 32)
    (ran : refreshShare draws j key out range = some out') :
    out' = out ∨ ∃ chunk, chunk.length = range.2 - range.1 ∧ range.2 ≤ out.length ∧ out' = put out range.1 chunk := by
  unfold refreshShare at ran
  split at ran
  · rename_i fits
    have long : (slice out range.1 range.2).length = range.2 - range.1 := sliceLength fits
    dsimp only at ran
    split at ran
    · rename_i hybrid
      cases Option.some.inj ran
      exact .inr ⟨_,(hybridLength j size).trans (hybrid.symm.trans long),fits,rfl⟩
    · split at ran
      · cases found : draws.p256 j with
        | none =>
          rw [found] at ran
          contradiction
        | some point =>
          rw [found] at ran
          obtain ⟨same,ran⟩ := Option.ite_none_left_eq_some.mp ran
          cases Option.some.inj ran
          exact .inr ⟨point,(not_not.mp same).trans long,fits,rfl⟩
      · contradiction
  · cases Option.some.inj ran
    exact .inl rfl

theorem refreshSharesKept {j : Nat} {key out out' : Bytes} {ranges : List Range} (size : key.length = 32)
    (behind : ∀ range ∈ ranges, k ≤ range.1 ∧ range.1 ≤ range.2)
    (ran : refreshShares draws key j ranges out = some out') : Kept k out out' := by
  induction ranges generalizing j out with
  | nil =>
    cases Option.some.inj ran
    exact .refl _ _
  | cons range rest ih =>
    obtain ⟨middle,one,ran⟩ := Option.bind_eq_some_iff.mp ran
    obtain ⟨after,ordered⟩ := behind range List.mem_cons_self
    have later := ih (fun other member => behind other (List.mem_cons_of_mem _ member)) ran
    rcases refreshShareWrites size one with rfl | ⟨chunk,long,fits,rfl⟩
    · exact later
    · exact (putKept after (by omega)).trans later

theorem refreshedKept {t : ClientHelloTemplate} {out : Bytes} {layout : ClientHelloLayout} {entries : List Entry}
    (placed : Placed t.bytes layout entries) (keyShare : t.keyShareRange = layout.keyShareRange)
    (auxiliary : t.auxiliaryKeyShareRanges = layout.auxiliaryKeyShareRanges)
    (ech : t.echGreaseRanges = layout.echGreaseRanges) (ran : refreshed draws t = some out) :
    Kept layout.sessionIdRange.2 t.bytes out := by
  unfold refreshed at ran
  obtain ⟨key,drawn,ran⟩ := Option.bind_eq_some_iff.mp ran
  have size : key.length = 32 := by simpa using (Option.filter_eq_some_iff.mp drawn).2
  obtain ⟨same,ran⟩ := Option.ite_none_left_eq_some.mp ran
  obtain ⟨middle,shares,ran⟩ := Option.bind_eq_some_iff.mp ran
  have bounds := shareBounds placed placed.keyShare
  rw [← keyShare] at bounds
  have first : Kept layout.sessionIdRange.2 t.bytes (put t.bytes t.keyShareRange.1 key) :=
    putKept bounds.1 (by have := not_not.mp same; omega)
  have second := refreshSharesKept (k := layout.sessionIdRange.2) size (fun range member => by
    rw [auxiliary] at member
    have here := shareBounds placed (placed.auxiliary range member)
    exact ⟨here.1,here.2.1⟩) shares
  refine (first.trans second).trans ?_
  have long : middle.length = t.bytes.length := (first.trans second).1
  rw [← Option.some.inj ran]
  cases found : t.echGreaseRanges with
  | none => exact .refl _ _
  | some ranges =>
    have here := echBounds placed (placed.ech ranges (ech.symm.trans found))
    have one : Kept layout.sessionIdRange.2 middle (put middle ranges.configId [draws.configId]) :=
      putKept here.1 (by rw [List.length_singleton]; omega)
    refine one.trans (Kept.trans (putKept (by omega) ?_) (putKept (by omega) ?_))
    · rw [fillBytesLength,one.1]
      omega
    · rw [fillBytesLength,putLength (by rw [fillBytesLength,one.1]; omega),one.1]
      omega

end Refresh

section Rotate
variable {k : Nat}

theorem rotateListKept {draw : Nat → Nat} {stop fuel cursor : Nat} {used : List Nat} {bytes out : Bytes}
    (behind : k ≤ cursor)
    (ran : rotateList draw stop fuel cursor used bytes = some out) : Kept k bytes out := by
  induction fuel generalizing cursor used bytes with
  | zero =>
    cases Option.some.inj ran
    exact .refl _ _
  | succ fuel ih =>
    rw [rotateList] at ran
    split at ran
    · obtain ⟨value,read,ran⟩ := Option.bind_eq_some_iff.mp ran
      have fits := (readU16Some read).1
      split at ran
      · have wrote : Kept k bytes (put bytes cursor (toBeBytes (takeGreaseValue (draw used.length) used).1)) := putKept behind fits
        exact wrote.trans (ih (by omega) ran)
      · exact ih (by omega) ran
    · cases Option.some.inj ran
      exact .refl _ _

theorem rotateExtensionTypesKept {draw : Nat → Nat} {extensionsEnd fuel cursor : Nat} {used : List Nat} {bytes out : Bytes}
    (behind : k ≤ cursor) (ran : rotateExtensionTypes draw extensionsEnd fuel cursor used bytes = some out) :
    Kept k bytes out := by
  induction fuel generalizing cursor used bytes with
  | zero =>
    cases Option.some.inj ran
    exact .refl _ _
  | succ fuel ih =>
    rw [rotateExtensionTypes] at ran
    split at ran
    · obtain ⟨extType,read,ran⟩ := Option.bind_eq_some_iff.mp ran
      obtain ⟨extLen,_,ran⟩ := Option.bind_eq_some_iff.mp ran
      have fits := (readU16Some read).1
      obtain ⟨_,ran⟩ := Option.ite_none_left_eq_some.mp ran
      split at ran
      · have wrote : Kept k bytes (put bytes cursor (toBeBytes (takeGreaseValue (draw used.length) used).1)) := putKept behind fits
        exact wrote.trans (ih (by omega) ran)
      · exact ih (by omega) ran
    · cases Option.some.inj ran
      exact .refl _ _

theorem findExtensionBounds {bytes : Bytes} {extensionType extensionsEnd fuel cursor : Nat} {data : Range}
    (found : findExtensionFrom bytes extensionType extensionsEnd fuel cursor = some (some data)) : cursor ≤ data.1 := by
  induction fuel generalizing cursor with
  | zero => cases Option.some.inj found
  | succ fuel ih =>
    rw [findExtensionFrom] at found
    split at found
    · obtain ⟨extType,_,found⟩ := Option.bind_eq_some_iff.mp found
      obtain ⟨extLen,_,found⟩ := Option.bind_eq_some_iff.mp found
      obtain ⟨_,found⟩ := Option.ite_none_left_eq_some.mp found
      split at found
      · cases Option.some.inj (Option.some.inj found)
        exact Nat.le_add_right _ _
      · have := ih found
        omega
    · cases Option.some.inj found

theorem randomizationKept {draws : Draws} {cipherSuitesRange extensionsLenRange : Range} {bytes out : Bytes}
    (suites : k ≤ cipherSuitesRange.1) (extensions : k ≤ extensionsLenRange.2)
    (ran : applyClientHelloRandomization draws cipherSuitesRange extensionsLenRange bytes = some out) : Kept k bytes out := by
  obtain ⟨one,first,ran⟩ := Option.bind_eq_some_iff.mp ran
  obtain ⟨two,second,ran⟩ := Option.bind_eq_some_iff.mp ran
  obtain ⟨three,third,fourth⟩ := Option.bind_eq_some_iff.mp ran
  have types : Kept k bytes one := by
    obtain ⟨len,_,first⟩ := Option.bind_eq_some_iff.mp first
    exact rotateExtensionTypesKept extensions first
  have ciphers : Kept k one two := by
    obtain ⟨_,second⟩ := Option.ite_none_left_eq_some.mp second
    exact rotateListKept suites second
  have groups : Kept k two three := by
    obtain ⟨extension,found,third⟩ := Option.bind_eq_some_iff.mp third
    cases extension with
    | none =>
      cases Option.some.inj third
      exact .refl _ _
    | some data =>
      obtain ⟨_,third⟩ := Option.ite_none_left_eq_some.mp third
      obtain ⟨len,_,third⟩ := Option.bind_eq_some_iff.mp third
      obtain ⟨_,_,found⟩ := Option.bind_eq_some_iff.mp found
      have := findExtensionBounds found
      exact rotateListKept (by omega) third
  have versions : Kept k three out := by
    obtain ⟨extension,found,fourth⟩ := Option.bind_eq_some_iff.mp fourth
    cases extension with
    | none =>
      cases Option.some.inj fourth
      exact .refl _ _
    | some data =>
      obtain ⟨_,fourth⟩ := Option.ite_none_left_eq_some.mp fourth
      obtain ⟨_,_,found⟩ := Option.bind_eq_some_iff.mp found
      have := findExtensionBounds found
      exact rotateListKept (by omega) fourth
  exact ((types.trans ciphers).trans groups).trans versions

end Rotate

section Seal
variable {hash : KeyedHash}

theorem xorTwice (a m : Bytes) (fits : a.length ≤ m.length) : xorBytes (xorBytes a m) m = a := by
  induction a generalizing m with
  | nil => rfl
  | cons x rest ih =>
    cases m with
    | nil => simp at fits
    | cons y more =>
      have shorter : rest.length ≤ more.length := by simpa using fits
      show (x ^^^ y ^^^ y)::xorBytes (xorBytes rest more) more = x::rest
      rw [UInt8.xor_assoc,UInt8.xor_self,UInt8.xor_zero,ih more shorter]

theorem xorLength {a m : Bytes} (fits : a.length ≤ m.length) : (xorBytes a m).length = a.length := by
  rw [xorBytes,List.length_zipWith,Nat.min_eq_left fits]

theorem maskedKeyLength {pskE : Bytes} (whole : pskE.length = 48) (derivedPsk noiseTag : Bytes) :
    (maskNoiseEphemeralKey hash (pskE.take 32) derivedPsk noiseTag).length = 32 := by
  rw [maskNoiseEphemeralKey,xorLength] <;> rw [List.length_take]
  · omega
  · rw [deriveNoiseEMask,hash.size]
    omega

theorem maskedCounterLength (derivedPsk random : Bytes) (counter : Nat) :
    (xorBytes (u64ToBeBytes counter) (deriveCounterMask hash derivedPsk random)).length = 8 := by
  rw [xorLength]
  · rfl
  · rw [deriveCounterMask,List.length_take,hash.size]
    exact Nat.le_refl 8

theorem counterMacLength (derivedPsk random counterBytes randomPrefix : Bytes) :
    (deriveCounterMac hash derivedPsk random counterBytes randomPrefix).length = 8 := by
  rw [deriveCounterMac,List.length_take,hash.size]
  rfl

theorem u64Again {n : Nat} (small : n < 2^64) : u64FromBeBytes (u64ToBeBytes n) = n := by
  have digit : ∀ k, n / 2^(k+8) * 256 + n / 2^k % 2^8 = n / 2^k := by
    intro k
    rw [Nat.pow_add,← Nat.div_div_eq_div_mul]
    omega
  have top : n / 2^56 % 2^8 = n / 2^56 := Nat.mod_eq_of_lt (by omega)
  have last : n / 2^8 * 256 + n % 2^8 = n := Nat.div_add_mod' n _
  have pairs : n / 2^56 * 256 + n / 2^48 % 2^8 = n / 2^48 ∧ n / 2^48 * 256 + n / 2^40 % 2^8 = n / 2^40 ∧
      n / 2^40 * 256 + n / 2^32 % 2^8 = n / 2^32 ∧ n / 2^32 * 256 + n / 2^24 % 2^8 = n / 2^24 ∧
      n / 2^24 * 256 + n / 2^16 % 2^8 = n / 2^16 ∧ n / 2^16 * 256 + n / 2^8 % 2^8 = n / 2^8 :=
    ⟨digit 48,digit 40,digit 32,digit 24,digit 16,digit 8⟩
  obtain ⟨six,five,four,three,two,one⟩ := pairs
  simp only [u64FromBeBytes,u64ToBeBytes,List.foldl_cons,List.foldl_nil,UInt8.toNat_ofNat']
  rw [top,Nat.zero_mul,Nat.zero_add,six,five,four,three,two,one,last]

/- The two bits that are drawn are the two bits that are not compared. -/
theorem macBitsMasked (x bits : UInt8) : ((x &&& 0xfc) ||| (bits &&& 0x03)) &&& 0xfc = x &&& 0xfc := by
  apply UInt8.toBitVec_inj.mp
  show ((x.toBitVec &&& 0xfc#8) ||| (bits.toBitVec &&& 0x03#8)) &&& 0xfc#8 = x.toBitVec &&& 0xfc#8
  rw [BitVec.and_or_distrib_right,BitVec.and_assoc,BitVec.and_assoc,show 0x03#8 &&& 0xfc#8 = 0#8 from rfl,
    BitVec.and_zero,BitVec.or_zero,BitVec.and_self]

theorem macMasked {mac : Bytes} (size : mac.length = 8) (bits : UInt8) :
    maskMacFlags (put mac 7 [(byteAt mac 7 &&& 0xfc) ||| (bits &&& 0x03)]) = maskMacFlags mac := by
  rcases mac with _ | ⟨a,_ | ⟨b,_ | ⟨c,_ | ⟨d,_ | ⟨e,_ | ⟨f,_ | ⟨g,_ | ⟨h,_ | ⟨i,rest⟩⟩⟩⟩⟩⟩⟩⟩⟩ <;>
    simp only [List.length_cons,List.length_nil] at size <;> try omega
  show [a,b,c,d,e,f,g,((h &&& 0xfc) ||| (bits &&& 0x03)) &&& 0xfc] = [a,b,c,d,e,f,g,h &&& 0xfc]
  rw [macBitsMasked]

structure SealedHello (hash : KeyedHash) (derivedPsk pskE : Bytes) (counter : Nat) (fields : HelloFields) : Prop where
  random : fields.random = maskNoiseEphemeralKey hash (pskE.take 32) derivedPsk (slice pskE 32 48)
  noiseTag : fields.noiseTag = slice pskE 32 48
  maskedCounter : fields.maskedCounter = xorBytes (u64ToBeBytes counter) (deriveCounterMask hash derivedPsk fields.random)
  gotMac : fields.gotMac =
    maskMacFlags (deriveCounterMac hash derivedPsk fields.random fields.maskedCounter (fields.random.take 16))

theorem rangesKept {b c : Bytes} {session : Range} (kept : Kept session.2 b c)
    (ranges : clientHelloRandomAndSessionIdRanges b = some ((11,43),session)) :
    clientHelloRandomAndSessionIdRanges c = some ((11,43),session) := by
  obtain ⟨long,first,fifth,_,rfl,fits⟩ := rangesSome ranges
  dsimp only at kept fits
  have b0 := kept.byteAt (i := 0) (by omega)
  have b5 := kept.byteAt (i := 5) (by omega)
  have b43 := kept.byteAt (i := 43) (by omega)
  unfold clientHelloRandomAndSessionIdRanges
  rw [kept.1,b0,b5,b43,if_neg (by omega),if_neg (not_not.mpr first),if_neg (not_not.mpr fifth)]
  exact if_neg (by omega)

theorem fiveWrites {out tag random counter mac : Bytes} (bits : UInt8) (long : 76 ≤ out.length) (tagSize : tag.length = 16)
    (randomSize : random.length = 32) (counterSize : counter.length = 8) (macSize : mac.length = 8) :
    ∃ before sealed, before = put (put (put (put out 44 tag) 11 random) 60 counter) 68 mac ∧
      sealed = put before 75 [(byteAt before 75 &&& 0xfc) ||| (bits &&& 0x03)] ∧ sealed.length = out.length ∧
      slice sealed 11 43 = random ∧ slice sealed 44 60 = tag ∧ slice sealed 60 68 = counter ∧
      slice sealed 68 76 = put mac 7 [(byteAt mac 7 &&& 0xfc) ||| (bits &&& 0x03)] ∧
      ∀ i, i < 11 ∨ i = 43 → byteAt sealed i = byteAt out i := by
  refine ⟨_,_,rfl,rfl,?_⟩
  generalize h1 : put out 44 tag = o1
  have l1 : o1.length = out.length := by rw [← h1,putLength (by omega)]
  generalize h2 : put o1 11 random = o2
  have l2 : o2.length = out.length := by rw [← h2,putLength (by omega),l1]
  generalize h3 : put o2 60 counter = o3
  have l3 : o3.length = out.length := by rw [← h3,putLength (by omega),l2]
  generalize h4 : put o3 68 mac = o4
  have l4 : o4.length = out.length := by rw [← h4,putLength (by omega),l3]
  have inMac : slice o4 68 76 = mac := by
    have back : slice (put o3 68 mac) 68 (68 + mac.length) = mac := putSlice (by omega)
    rwa [macSize,h4] at back
  have lastByte : byteAt o4 75 = byteAt mac 7 := by
    rw [byteAt,byteAt,List.getD_eq_getElem?_getD,List.getD_eq_getElem?_getD,← inMac,sliceAt]
    rfl
  rw [lastByte]
  generalize (byteAt mac 7 &&& 0xfc) ||| (bits &&& 0x03) = value
  have one : [value].length = 1 := rfl
  refine ⟨(putLength (by omega)).trans l4,?_,?_,?_,?_,?_⟩
  · rw [slicePutApart (by omega) (by omega),← h4,slicePutApart (by omega) (by omega),← h3,
      slicePutApart (by omega) (by omega),← h2]
    have back : slice (put o1 11 random) 11 (11 + random.length) = random := putSlice (by omega)
    rwa [randomSize] at back
  · rw [slicePutApart (by omega) (by omega),← h4,slicePutApart (by omega) (by omega),← h3,
      slicePutApart (by omega) (by omega),← h2,slicePutApart (by omega) (by omega),← h1]
    have back : slice (put out 44 tag) 44 (44 + tag.length) = tag := putSlice (by omega)
    rwa [tagSize] at back
  · rw [slicePutApart (by omega) (by omega),← h4,slicePutApart (by omega) (by omega),← h3]
    have back : slice (put o2 60 counter) 60 (60 + counter.length) = counter := putSlice (by omega)
    rwa [counterSize] at back
  · have inside : slice (put o4 (68 + 7) [value]) 68 76 = put (slice o4 68 76) 7 [value] := slicePutInside (by omega) (by omega)
    rwa [inMac] at inside
  · intro i here
    have apart (b chunk : Bytes) (start : Nat) (fits : start + chunk.length ≤ b.length)
        (outside : i < start ∨ start + chunk.length ≤ i) : byteAt (put b start chunk) i = byteAt b i := by
      rw [byteAt,byteAt,List.getD_eq_getElem?_getD,List.getD_eq_getElem?_getD,putOutside fits]
      rintro ⟨after,before⟩
      dsimp only at after before
      omega
    rw [apart _ _ _ (by omega) (by omega),← h4,apart _ _ _ (by omega) (by omega),← h3,apart _ _ _ (by omega) (by omega),
      ← h2,apart _ _ _ (by omega) (by omega),← h1,apart _ _ _ (by omega) (by omega)]

theorem sealWrites {derivedPsk pskE out sealed : Bytes} {counter : Nat} {macBits : UInt8} {session : Range}
    (whole : pskE.length = 48) (ranges : clientHelloRandomAndSessionIdRanges out = some ((11,43),session))
    (long : 32 ≤ session.2 - session.1) (ran : sealHello hash derivedPsk pskE counter macBits out = some sealed) :
    clientHelloRandomAndSessionIdRanges sealed = some ((11,43),session) ∧
    ∃ fields, helloFields sealed = some fields ∧ SealedHello hash derivedPsk pskE counter fields := by
  obtain ⟨size,first,fifth,_,isSession,fits⟩ := rangesSome ranges
  unfold sealHello at ran
  rw [ranges] at ran
  subst isSession
  dsimp only [Option.bind_eq_bind,Option.bind_some] at ran
  dsimp only at long fits
  have tagSize : (slice pskE 32 48).length = 16 := by rw [sliceLength (by omega)]
  -- the tag is read back from where it was just written
  have tag : slice (put out 44 (slice pskE 32 48)) 44 (44 + 16) = slice pskE 32 48 := by
    have back : slice (put out 44 (slice pskE 32 48)) 44 (44 + (slice pskE 32 48).length) = slice pskE 32 48 :=
      putSlice (by omega)
    rwa [tagSize] at back
  rw [tag] at ran
  generalize random : maskNoiseEphemeralKey hash (pskE.take 32) derivedPsk (slice pskE 32 48) = maskedE at ran
  have randomSize : maskedE.length = 32 := random ▸ maskedKeyLength whole derivedPsk _
  generalize counted : xorBytes (u64ToBeBytes counter) (deriveCounterMask hash derivedPsk maskedE) = maskedCounter at ran
  have counterSize : maskedCounter.length = 8 := counted ▸ maskedCounterLength derivedPsk maskedE counter
  generalize macced : deriveCounterMac hash derivedPsk maskedE maskedCounter (maskedE.take 16) = mac at ran
  have macSize : mac.length = 8 := macced ▸ counterMacLength derivedPsk maskedE maskedCounter _
  obtain ⟨before,written,rfl,same,size',inRandom,inTag,inCounter,inMac,bytes⟩ := @fiveWrites out _ _ _ _ macBits (by omega)
    tagSize randomSize counterSize macSize
  have result : sealed = written := (Option.some.inj ran).symm.trans same.symm
  rw [result]
  have again : clientHelloRandomAndSessionIdRanges written = some ((11,43),(44,44 + (byteAt out 43).toNat)) := by
    unfold clientHelloRandomAndSessionIdRanges
    rw [size',bytes 0 (.inl (by omega)),bytes 5 (.inl (by omega)),bytes 43 (.inr rfl),if_neg (by omega),
      if_neg (not_not.mpr first),if_neg (not_not.mpr fifth)]
    exact if_neg (by omega)
  refine ⟨again,⟨maskedE,slice pskE 32 48,maskedCounter,maskMacFlags mac⟩,?_,?_⟩
  · unfold helloFields
    rw [again]
    dsimp only [Option.bind_eq_bind,Option.bind_some]
    have total : (slice written 44 (44 + (byteAt out 43).toNat)).length = (byteAt out 43).toNat := by
      rw [sliceLength (by omega),Nat.add_sub_cancel_left]
    rw [if_neg (by omega)]
    have front : (slice written 44 (44 + (byteAt out 43).toNat)).take 16 = slice pskE 32 48 := by
      have nested : slice (slice written 44 (44 + (byteAt out 43).toNat)) 0 16 = slice written (44 + 0) (44 + 16) :=
        sliceSlice (by omega)
      exact nested.trans inTag
    rw [inRandom,front,sliceSlice (by omega),sliceSlice (by omega),inCounter,inMac,macMasked macSize]
  · exact ⟨random.symm,rfl,counted.symm,by rw [macced]⟩

theorem helloFieldsKept {b c : Bytes} {session : Range} (kept : Kept session.2 b c)
    (ranges : clientHelloRandomAndSessionIdRanges b = some ((11,43),session)) : helloFields c = helloFields b := by
  have again := rangesKept kept ranges
  obtain ⟨_,_,_,_,isSession,_⟩ := rangesSome ranges
  have front : 43 ≤ session.2 := by
    rw [isSession]
    dsimp only
    omega
  unfold helloFields
  rw [again,ranges]
  dsimp only [Option.bind_eq_bind,Option.bind_some]
  have session' : slice c session.1 session.2 = slice b session.1 session.2 := sliceTake (Nat.le_refl session.2) kept.2
  have random : slice c 11 43 = slice b 11 43 := sliceTake front kept.2
  rw [session',random]

theorem probeSealed {derivedPsk pskE : Bytes} {counter : Nat} {fields : HelloFields} (whole : pskE.length = 48)
    (nonzero : pskE.take 32 ≠ List.replicate 32 0) (small : counter < 2^64)
    (isSealed : SealedHello hash derivedPsk pskE counter fields) :
    macMatches hash derivedPsk fields = true ∧
    probe hash derivedPsk fields = some ⟨pskE.take 32,slice pskE 32 48,counter / 2^24,counter % 2^24⟩ := by
  have mac : macMatches hash derivedPsk fields = true := by
    rw [macMatches,isSealed.gotMac]
    exact beq_self_eq_true _
  have key : unmaskNoiseEphemeralKey hash fields.random derivedPsk fields.noiseTag = pskE.take 32 := by
    rw [isSealed.random,isSealed.noiseTag,unmaskNoiseEphemeralKey,maskNoiseEphemeralKey,xorTwice]
    rw [deriveNoiseEMask,hash.size,List.length_take]
    omega
  have number : counterOf hash derivedPsk fields.random fields.maskedCounter = (counter / 2^24,counter % 2^24) := by
    have fits : (u64ToBeBytes counter).length ≤ (deriveCounterMask hash derivedPsk fields.random).length := by
      rw [deriveCounterMask,List.length_take,hash.size]
      exact Nat.le_refl 8
    rw [counterOf,isSealed.maskedCounter,xorTwice _ _ fits,u64Again small]
  refine ⟨mac,?_⟩
  rw [probe,if_pos mac]
  dsimp only
  rw [key,if_neg nonzero,number,isSealed.noiseTag]

end Seal

theorem helloAgrees (hash : KeyedHash) {sni raw : Bytes} {fingerprint : Option (List Char)} {t : ClientHelloTemplate}
    (built : buildClientHelloTemplate sni fingerprint raw = some t) {derivedPsk pskE : Bytes} {counter : Nat}
    (nonzero : pskE.take 32 ≠ List.replicate 32 0) (small : counter < 2^64) {draws : Draws} {out : Bytes}
    (ran : instantiate hash t derivedPsk pskE counter draws = some out) :
    ∃ fields, helloFields out = some fields ∧ macMatches hash derivedPsk fields = true ∧
      probe hash derivedPsk fields = some ⟨pskE.take 32,slice pskE 32 48,counter / 2^24,counter % 2^24⟩ ∧
      ∀ reads fresh, reads derivedPsk pskE = true →
        fresh derivedPsk ⟨pskE.take 32,slice pskE 32 48,counter / 2^24,counter % 2^24⟩ = true →
        authenticateClientHello hash reads fresh out [derivedPsk] =
          some (derivedPsk,⟨pskE.take 32,slice pskE 32 48,counter / 2^24,counter % 2^24⟩) := by
  obtain ⟨layout,entries,placed,long,_,suites,keyShare,auxiliary,extensions,ech⟩ := templatePlaced built
  unfold instantiate at ran
  obtain ⟨sized,ran⟩ := Option.ite_none_left_eq_some.mp ran
  have whole := not_not.mp sized
  obtain ⟨fresh,refresh,ran⟩ := Option.bind_eq_some_iff.mp ran
  obtain ⟨sealed,seals,rotates⟩ := Option.bind_eq_some_iff.mp ran
  have before := rangesKept (refreshedKept placed keyShare auxiliary ech refresh) placed.ranges
  obtain ⟨after,fields,read,isSealed⟩ := sealWrites whole before long seals
  have behind := extensionsBehind placed
  have kept : Kept layout.sessionIdRange.2 sealed out := by
    refine randomizationKept ?_ ?_ rotates
    · rw [suites,placed.suites]
      exact Nat.le_add_right _ _
    · rw [extensions]
      omega
  have found : helloFields out = some fields := (helloFieldsKept kept after).trans read
  obtain ⟨mac,probed⟩ := probeSealed whole nonzero small isSealed
  refine ⟨fields,found,mac,probed,?_⟩
  intro reads fresh accepts new
  have parts : pskE.take 32 ++ slice pskE 32 48 = pskE := by
    have all : pskE.take 48 = pskE := List.take_of_length_le (by omega)
    rw [slice,all,List.take_append_drop]
  unfold authenticateClientHello
  rw [found]
  dsimp only [Option.bind_eq_bind,Option.bind_some]
  rw [List.findSome?_cons,probed]
  dsimp only
  rw [parts,if_pos ⟨accepts,new⟩]

def sampleHello : Bytes :=
  [0x16,0x03,0x01,0x00,0x84,0x01,0x00,0x00,0x80,0x03,0x03] ++ List.replicate 32 1 ++ [32] ++ List.replicate 32 2 ++
  [0x00,0x04,0x0a,0x0a,0x13,0x01,0x01,0x00,0x00,0x34] ++
  [0x00,0x00,0x00,0x06,0x00,0x04,0x00,0x00,0x01,0x61] ++
  [0x00,0x33,0x00,0x26,0x00,0x24,0x00,0x1d,0x00,0x20] ++ List.replicate 32 3

def sampleHash : KeyedHash where
  digest _ key := (key ++ List.replicate 32 5).take 32
  size _ key := by
    rw [List.length_take,List.length_append,List.length_replicate]
    omega

def sampleDraws : Draws where
  x25519 := some (List.replicate 32 9)
  coefficient _ _ := 0
  rho _ _ := 0
  p256 _ := none
  configId := 0
  enc _ := 0
  payload _ := 0
  macBits := 3
  grease _ _ := 7

theorem helloAgreesSample : ∃ t out fields, buildClientHelloTemplate [0x61] none sampleHello = some t ∧
    instantiate sampleHash t (List.replicate 32 7) (List.replicate 48 4) 0x1234567000001 sampleDraws = some out ∧
    helloFields out = some fields ∧ macMatches sampleHash (List.replicate 32 7) fields = true ∧
    probe sampleHash (List.replicate 32 7) fields = some ⟨List.replicate 32 4,List.replicate 16 4,0x1234567,1⟩ := by
  have built : (buildClientHelloTemplate [0x61] none sampleHello).isSome = true := by decide +kernel
  obtain ⟨t,built⟩ := Option.isSome_iff_exists.mp built
  have ran : ((buildClientHelloTemplate [0x61] none sampleHello).bind (fun t =>
      instantiate sampleHash t (List.replicate 32 7) (List.replicate 48 4) 0x1234567000001 sampleDraws)).isSome = true := by
    decide +kernel
  rw [built,Option.bind_some] at ran
  obtain ⟨out,ran⟩ := Option.isSome_iff_exists.mp ran
  obtain ⟨fields,found,mac,probed,_⟩ := helloAgrees sampleHash built (by decide) (by decide) ran
  exact ⟨t,out,fields,built,ran,found,mac,probed⟩

end KanoTls.Hello
