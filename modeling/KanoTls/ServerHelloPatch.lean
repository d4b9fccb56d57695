import KanoTls.CamouflageFlight
import KanoTls.HelloLike
import KanoTls.Stride

/-! The three patches of a replayed flight, on the buffer they write to. What they may touch
is described on the records themselves: where a record begins, which one is the first
ServerHello, and where its fields lie. -/
namespace KanoTls.Camouflage
open Uot Wire Patch Hello Tls

/- `patch_server_hello_session_id_echo` with the buffer it leaves behind, whatever it returns. -/
def echoInPlace (clientSessionId : Bytes) : Nat → Nat → Bytes → Bool × Bytes
  | 0,_,records => (false,records)
  | fuel+1,offset,records =>
    if offset + 5 ≤ records.length then
      let recordTotal := 5 + u16At records (offset + 3)
      if offset + recordTotal > records.length then (false,records)
      else if byteAt records offset = 0x16 ∧ u16At records (offset + 3) > 0 ∧ byteAt records (offset + 5) = 0x02 then
        if offset + 43 ≥ offset + recordTotal then (false,records)
        else
          let echoLen := (byteAt records (offset + 43)).toNat
          if offset + 44 + echoLen > offset + recordTotal then (false,records)
          else if clientSessionId.length ≠ echoLen then (false,records)
          else (true,put records (offset + 44) clientSessionId)
      else echoInPlace clientSessionId fuel (offset + recordTotal) records
    else (false,records)

def fillX25519InPlace (draws : ServerDraws) (share : Bytes) : Bool × Bytes :=
  if share.length ≠ 32 then (false,share)
  else
    match draws.x25519.filter (fun key => key.length = 32) with
    | none => (false,share)
    | some key => (true,put share 0 key)

def fillP256InPlace (draws : ServerDraws) (share : Bytes) : Bool × Bytes :=
  match draws.p256 with
  | none => (false,share)
  | some key => if key.length ≠ share.length then (false,share) else (true,put share 0 key)

/- The hybrid share is written in two steps: a failing second one leaves the first. -/
def fillKeyExchange (draws : ServerDraws) (group : Nat) (keyExchange : Bytes) : Bool × Bytes :=
  if group = 0x001d ∧ keyExchange.length = 32 then fillX25519InPlace draws keyExchange
  else if group = 0x0017 ∧ keyExchange.length = 65 then fillP256InPlace draws keyExchange
  else if group = 0x11ec ∧ keyExchange.length = mlkem768CiphertextLen + 32 then
    let keyExchange := put keyExchange 0 (fillBytes draws.mlkem mlkem768CiphertextLen)
    let filled := fillX25519InPlace draws (keyExchange.drop mlkem768CiphertextLen)
    (filled.1,keyExchange.take mlkem768CiphertextLen ++ filled.2)
  else (false,keyExchange)

def keyShareInPlace (draws : ServerDraws) (records : Bytes) : Bool × Bytes :=
  match serverHelloKeyShareRange records records.length 0 with
  | none => (false,records)
  | some (group,range) =>
    let filled := fillKeyExchange draws group (slice records range.1 range.2)
    (filled.1,put records range.1 filled.2)

def onSuccess (done : Bool × Bytes) : Option Bytes := if done.1 then some done.2 else none

section Fields
variable (b : Bytes) (o : Nat)

def recordSize : Nat := 5 + u16At b (o + 3)

def WholeRecord : Prop := o + recordSize b o ≤ b.length

def RecordAt : Prop := Stride 0 (recordSize b) (WholeRecord b) o

structure ServerHelloAt : Prop where
  record : RecordAt b o
  whole : WholeRecord b o
  handshake : byteAt b o = 0x16
  filled : 0 < u16At b (o + 3)
  hello : byteAt b (o + 5) = 0x02

def FirstServerHello : Prop := ServerHelloAt b o ∧ ∀ p < o, ¬ ServerHelloAt b p

def echoField : Range := (o + 44,o + 44 + (byteAt b (o + 43)).toNat)

/- The random of a ServerHello that is not a HelloRetryRequest, without a downgrade sentinel
at its end. -/
def HasRandom : Prop := ServerHelloAt b o ∧ 43 ≤ recordSize b o ∧ slice b (o + 11) (o + 43) ≠ helloRetryRequestRandom

def randomField : Range :=
  (o + 11,if slice b (o + 35) (o + 43) = tls12DowngradeSentinel ∨ slice b (o + 35) (o + 43) = tls11DowngradeSentinel then o + 35
    else o + 43)

/- Behind the echo stand a cipher suite, the compression method and the length of the
extensions. -/
def extensionsStart : Nat := (echoField b o).2 + 5

def extensionsEnd : Nat := extensionsStart b o + u16At b (extensionsStart b o - 2)

def ExtensionAt (c : Nat) : Prop :=
  Stride (extensionsStart b o) (fun c => 4 + u16At b (c + 2)) (fun c => c + (4 + u16At b (c + 2)) ≤ extensionsEnd b o) c

/- The key_exchange of the first key_share extension. -/
structure KeyExchangeAt (range : Range) : Prop where
  within : extensionsEnd b o ≤ o + recordSize b o
  extension : ∃ c, ExtensionAt b o c ∧ u16At b c = 0x0033 ∧ (∀ d < c, ExtensionAt b o d → u16At b d ≠ 0x0033) ∧
    range = (c + 8,c + 8 + u16At b (c + 6)) ∧ range.2 ≤ c + (4 + u16At b (c + 2)) ∧
    c + (4 + u16At b (c + 2)) ≤ extensionsEnd b o

end Fields

section Walk
variable {b out : Bytes} {o p : Nat}

theorem recordsApart (here : RecordAt b o) (there : RecordAt b p) (before : o < p) : o + recordSize b o ≤ p ∧ WholeRecord b o :=
  Stride.apart (fun o => by rw [recordSize]; omega) here there before

theorem extensionsApart {c d : Nat} (here : ExtensionAt b o c) (there : ExtensionAt b o d) (before : c < d) :
    c + (4 + u16At b (c + 2)) ≤ d :=
  (Stride.apart (fun c => by omega) here there before).1

theorem noneBefore (here : RecordAt b o) (clear : ∀ p < o, ¬ ServerHelloAt b p) (other : ¬ ServerHelloAt b o) :
    ∀ p < o + recordSize b o, ¬ ServerHelloAt b p := by
  intro p before hello
  rcases Nat.lt_trichotomy p o with less | rfl | more
  · exact clear p less hello
  · exact other hello
  · have passed := (recordsApart here hello.record more).1
    omega

theorem firstUnique (one : FirstServerHello b o) (two : FirstServerHello b p) : o = p := by
  rcases Nat.lt_trichotomy o p with less | same | more
  · exact absurd one.1 (two.2 o less)
  · exact same
  · exact absurd two.1 (one.2 p more)

end Walk

section Echo
variable {b id : Bytes}

theorem echoWrites (fuel offset : Nat) (here : RecordAt b offset) (clear : ∀ p < offset, ¬ ServerHelloAt b p) :
    echoInPlace id fuel offset b = (false,b) ∨ ∃ o, FirstServerHello b o ∧ (echoField b o).2 ≤ o + recordSize b o ∧
      id.length = (byteAt b (o + 43)).toNat ∧ echoInPlace id fuel offset b = (true,put b (o + 44) id) := by
  induction fuel generalizing offset with
  | zero => exact .inl rfl
  | succ fuel ih =>
    rw [echoInPlace]
    split
    · dsimp only
      split
      · exact .inl rfl
      · rename_i whole
        have whole : WholeRecord b offset := Nat.le_of_not_lt whole
        split
        · rename_i hello
          have first : FirstServerHello b offset := ⟨⟨here,whole,hello.1,hello.2.1,hello.2.2⟩,clear⟩
          split
          · exact .inl rfl
          · split
            · exact .inl rfl
            · rename_i room
              split
              · exact .inl rfl
              · rename_i same
                exact .inr ⟨offset,first,Nat.le_of_not_lt room,not_not.mp same,rfl⟩
        · rename_i other
          have none : ¬ ServerHelloAt b offset := fun hello => other ⟨hello.handshake,hello.filled,hello.hello⟩
          exact ih _ (.next here whole) (noneBefore here clear none)
    · exact .inl rfl

theorem echoOutside {o : Nat} (hello : ServerHelloAt b o) (room : (echoField b o).2 ≤ o + recordSize b o)
    (same : id.length = (byteAt b (o + 43)).toNat) : (put b (o + 44) id).length = b.length ∧
      ∀ i, ¬ Inside (echoField b o) i → (put b (o + 44) id)[i]? = b[i]? := by
  have long : o + 44 + id.length ≤ b.length := by
    rw [same]
    exact Nat.le_trans room hello.whole
  refine ⟨putLength long,fun i outside => putOutside long ?_⟩
  rw [same]
  exact outside

end Echo

section Random
variable {b : Bytes}

theorem freshRandomSize (draw : Nat → UInt8) (last8 : Bytes) : (freshRandom draw last8).length =
    if last8 = tls12DowngradeSentinel ∨ last8 = tls11DowngradeSentinel then 24 else 32 := by
  unfold freshRandom
  split
  · rw [List.length_take,fillBytesLength]
    rfl
  · exact fillBytesLength _ _

structure Reworked (b : Bytes) (offset : Nat) (cur : Bytes) : Prop where
  length : cur.length = b.length
  ahead : ∀ i, offset ≤ i → cur[i]? = b[i]?
  done : ∀ i, (∀ o, HasRandom b o → ¬ Inside (randomField b o) i) → cur[i]? = b[i]?

theorem Reworked.skip {offset : Nat} {cur : Bytes} (reworked : Reworked b offset cur) (size : Nat) :
    Reworked b (offset + size) cur :=
  ⟨reworked.length,fun i behind => reworked.ahead i (by omega),reworked.done⟩

theorem Reworked.write {offset : Nat} {cur : Bytes} (reworked : Reworked b offset cur) (fresh : HasRandom b offset)
    (draw : Nat → UInt8) : Reworked b (offset + recordSize b offset)
      (put cur (offset + 11) (freshRandom draw (slice b (offset + 35) (offset + 43)))) := by
  have size := freshRandomSize draw (slice b (offset + 35) (offset + 43))
  have stop : (randomField b offset).2 =
      offset + 11 + (freshRandom draw (slice b (offset + 35) (offset + 43))).length := by
    rw [size,randomField]
    split <;> rfl
  have below : offset + 11 + (freshRandom draw (slice b (offset + 35) (offset + 43))).length ≤ offset + 43 := by
    rw [size]
    split <;> omega
  generalize freshRandom draw (slice b (offset + 35) (offset + 43)) = chunk at stop below ⊢
  have room := fresh.2.1
  have inside : offset + 11 + chunk.length ≤ cur.length := by
    rw [reworked.length]
    exact Nat.le_trans below (Nat.le_trans (Nat.add_le_add_left room _) fresh.1.whole)
  refine ⟨(putLength inside).trans reworked.length,?_,?_⟩
  · intro i behind
    rw [putAfter inside (by omega)]
    exact reworked.ahead i (by omega)
  · intro i outside
    have away := outside offset fresh
    rw [putOutside inside]
    · exact reworked.done i outside
    · intro here
      refine away ⟨here.1,?_⟩
      rw [stop]
      exact here.2

theorem randomWrites (draw : Nat → UInt8) (fuel offset : Nat) (cur : Bytes) (here : RecordAt b offset)
    (reworked : Reworked b offset cur) :
    (patchServerHelloRandom draw fuel offset cur).length = b.length ∧
    ∀ i, (∀ o, HasRandom b o → ¬ Inside (randomField b o) i) → (patchServerHelloRandom draw fuel offset cur)[i]? = b[i]? := by
  induction fuel generalizing offset cur draw with
  | zero => exact ⟨reworked.length,reworked.done⟩
  | succ fuel ih =>
    have ahead := reworked.ahead
    have byte {k : Nat} : byteAt cur (offset + k) = byteAt b (offset + k) := byteSame (ahead _ (Nat.le_add_right _ _))
    have len : u16At cur (offset + 3) = u16At b (offset + 3) := u16Same (ahead _ (by omega)) (ahead _ (by omega))
    have part {i j : Nat} : slice cur (offset + i) (offset + j) = slice b (offset + i) (offset + j) :=
      sliceExt (fun k after _ => ahead k (by omega))
    rw [patchServerHelloRandom,len]
    split
    · dsimp only
      split
      · exact ⟨reworked.length,reworked.done⟩
      · rename_i whole
        rw [reworked.length] at whole
        have whole : WholeRecord b offset := Nat.le_of_not_lt whole
        have next : RecordAt b (offset + recordSize b offset) := .next here whole
        split
        · rename_i hello
          have first : byteAt b offset = 0x16 := (byte (k := 0)).symm.trans hello.1
          have third : byteAt b (offset + 5) = 0x02 := byte.symm.trans hello.2.2
          have helloAt : ServerHelloAt b offset := ⟨here,whole,first,hello.2.1,third⟩
          split
          · exact ⟨reworked.length,reworked.done⟩
          · rename_i room
            split
            · exact ih draw _ _ next (reworked.skip _)
            · rename_i fresh
              rw [show offset + 11 + 32 = offset + 43 from rfl,part] at fresh
              rw [show offset + 11 + 24 = offset + 35 from rfl,show offset + 11 + 32 = offset + 43 from rfl,part]
              have room : 43 ≤ recordSize b offset := by
                rw [recordSize]
                omega
              exact ih _ _ _ next (reworked.write ⟨helloAt,room,fresh⟩ draw)
        · exact ih draw _ _ next (reworked.skip _)
    · exact ⟨reworked.length,reworked.done⟩

end Random

section Share
variable {b : Bytes} {o group : Nat} {range : Range}

theorem shareExtension (fuel cursor : Nat) (here : ExtensionAt b o cursor)
    (clear : ∀ d < cursor, ExtensionAt b o d → u16At b d ≠ 0x0033)
    (found : keyShareFrom b (extensionsEnd b o) fuel cursor = some (group,range)) :
    ∃ c, ExtensionAt b o c ∧ u16At b c = 0x0033 ∧ (∀ d < c, ExtensionAt b o d → u16At b d ≠ 0x0033) ∧
      range = (c + 8,c + 8 + u16At b (c + 6)) ∧ range.2 ≤ c + (4 + u16At b (c + 2)) ∧
      c + (4 + u16At b (c + 2)) ≤ extensionsEnd b o := by
  induction fuel generalizing cursor with
  | zero => contradiction
  | succ fuel ih =>
    rw [keyShareFrom] at found
    obtain ⟨_,found⟩ := Option.ite_none_right_eq_some.mp found
    dsimp only at found
    obtain ⟨inside,found⟩ := Option.ite_none_left_eq_some.mp found
    have inside : cursor + (4 + u16At b (cursor + 2)) ≤ extensionsEnd b o := by omega
    split at found
    · rename_i keyShare
      obtain ⟨_,found⟩ := Option.ite_none_left_eq_some.mp found
      obtain ⟨room,found⟩ := Option.ite_none_left_eq_some.mp found
      cases Option.some.inj found
      exact ⟨cursor,here,keyShare,clear,rfl,by dsimp only; omega,inside⟩
    · rename_i other
      rw [Nat.add_assoc] at found
      refine ih _ (.next here inside) ?_ found
      intro d before there
      rcases Nat.lt_trichotomy d cursor with less | rfl | more
      · exact clear d less there
      · exact other
      · have passed := extensionsApart here there more
        omega

theorem shareLocated (fuel offset : Nat) (here : RecordAt b offset) (clear : ∀ p < offset, ¬ ServerHelloAt b p)
    (found : serverHelloKeyShareRange b fuel offset = some (group,range)) :
    ∃ o, FirstServerHello b o ∧ KeyExchangeAt b o range := by
  induction fuel generalizing offset with
  | zero => contradiction
  | succ fuel ih =>
    rw [serverHelloKeyShareRange] at found
    obtain ⟨_,found⟩ := Option.ite_none_right_eq_some.mp found
    dsimp only at found
    obtain ⟨whole,found⟩ := Option.ite_none_left_eq_some.mp found
    have whole : WholeRecord b offset := by
      rw [WholeRecord,recordSize]
      omega
    split at found
    · rename_i other
      rw [Nat.add_assoc] at found
      refine ih _ (.next here whole) (noneBefore here clear ?_) found
      intro hello
      rcases other with notHandshake | empty | notHello
      · exact notHandshake hello.handshake
      · exact absurd hello.filled (by omega)
      · exact notHello hello.hello
    · rename_i hello
      rw [not_or,not_or] at hello
      obtain ⟨handshake,filled,isHello⟩ := hello
      have first : FirstServerHello b offset :=
        ⟨⟨here,whole,not_not.mp handshake,Nat.pos_of_ne_zero filled,not_not.mp isHello⟩,clear⟩
      obtain ⟨_,found⟩ := Option.ite_none_left_eq_some.mp found
      obtain ⟨_,found⟩ := Option.ite_none_left_eq_some.mp found
      obtain ⟨within,found⟩ := Option.ite_none_left_eq_some.mp found
      have start : offset + 43 + (1 + (byteAt b (offset + 43)).toNat + 2 + 1) + 2 = extensionsStart b offset := by
        rw [extensionsStart,echoField]
        dsimp only
        omega
      have lenAt : offset + 43 + (1 + (byteAt b (offset + 43)).toNat + 2 + 1) = extensionsStart b offset - 2 := by omega
      rw [start,lenAt] at found within
      have within : extensionsEnd b offset ≤ offset + recordSize b offset := by
        rw [extensionsEnd,recordSize]
        omega
      refine ⟨offset,first,within,shareExtension _ _ .first ?_ found⟩
      exact fun d before there => absurd (Stride.least there) (Nat.not_le.mpr before)

theorem KeyExchangeAt.bounds (share : KeyExchangeAt b o range) :
    (echoField b o).2 + 5 ≤ range.1 ∧ range.1 ≤ range.2 ∧ range.2 ≤ o + recordSize b o := by
  obtain ⟨c,there,_,_,isRange,room,inside⟩ := share.extension
  have least := Stride.least there
  have within := share.within
  rw [extensionsStart] at least
  refine ⟨?_,?_,by omega⟩
  · rw [isRange]
    exact Nat.le_trans least (Nat.le_add_right c 8)
  · rw [isRange]
    exact Nat.le_add_right _ _

theorem fillX25519Length (draws : ServerDraws) (share : Bytes) : (fillX25519InPlace draws share).2.length = share.length := by
  unfold fillX25519InPlace
  split
  · rfl
  · rename_i size
    split
    · rfl
    · rename_i key drawn
      have keySize : key.length = 32 := of_decide_eq_true (Option.filter_eq_some_iff.mp drawn).2
      exact putLength (by omega)

theorem fillKeyExchangeLength (draws : ServerDraws) (group : Nat) (share : Bytes) :
    (fillKeyExchange draws group share).2.length = share.length := by
  unfold fillKeyExchange
  split
  · exact fillX25519Length draws share
  · split
    · unfold fillP256InPlace
      split
      · rfl
      · split
        · rfl
        · rename_i size
          exact putLength (by omega)
    · split
      · rename_i hybrid
        have long : 0 + (fillBytes draws.mlkem mlkem768CiphertextLen).length ≤ share.length := by
          rw [fillBytesLength]
          omega
        dsimp only
        rw [List.length_append,fillX25519Length,← List.length_append,List.take_append_drop,putLength long]
      · rfl

theorem shareWrites (draws : ServerDraws) : (keyShareInPlace draws b).2 = b ∨ ∃ o range, FirstServerHello b o ∧
    KeyExchangeAt b o range ∧ ∃ key : Bytes, range.1 + key.length = range.2 ∧ (keyShareInPlace draws b).2 = put b range.1 key := by
  unfold keyShareInPlace
  split
  · exact .inl rfl
  · rename_i group range found
    obtain ⟨o,first,share⟩ := shareLocated b.length 0 .first (fun p before => absurd before (Nat.not_lt_zero p)) found
    obtain ⟨_,ordered,within⟩ := share.bounds
    refine .inr ⟨o,range,first,share,(fillKeyExchange draws group (slice b range.1 range.2)).2,?_,rfl⟩
    rw [fillKeyExchangeLength,sliceLength (Nat.le_trans within first.1.whole)]
    omega

end Share

structure InBodies (b out : Bytes) : Prop where
  length : out.length = b.length
  same : ∀ i, (∀ o, ServerHelloAt b o → ¬ Inside (o + 11,o + recordSize b o) i) → out[i]? = b[i]?

section Kept
variable {b out : Bytes} {o p : Nat}

theorem InBodies.head (changed : InBodies b out) (here : RecordAt b o) {k : Nat} (small : k ≤ 5) : out[o + k]? = b[o + k]? := by
  apply changed.same
  rintro p hello ⟨after,before⟩
  dsimp only at after before
  rcases Nat.lt_or_ge p o with less | more
  · have passed := (recordsApart hello.record here less).1
    omega
  · omega

theorem InBodies.size (changed : InBodies b out) (here : RecordAt b o) : recordSize out o = recordSize b o := by
  rw [recordSize,recordSize,u16Same (changed.head here (k := 3) (by omega)) (changed.head here (k := 4) (by omega))]

theorem InBodies.whole (changed : InBodies b out) (here : RecordAt b o) : WholeRecord out o ↔ WholeRecord b o := by
  rw [WholeRecord,WholeRecord,changed.size here,changed.length]

theorem InBodies.record (changed : InBodies b out) : RecordAt out o ↔ RecordAt b o := by
  constructor
  · exact fun here => Stride.congrBack here (fun o at' => changed.size at') (fun o at' => (changed.whole at').mp)
  · exact fun here => Stride.congr here (fun o at' => changed.size at') (fun o at' => (changed.whole at').mpr)

theorem InBodies.hello (changed : InBodies b out) : ServerHelloAt out o ↔ ServerHelloAt b o := by
  have bytes (here : RecordAt b o) {k : Nat} (small : k ≤ 5) : byteAt out (o + k) = byteAt b (o + k) :=
    byteSame (changed.head here small)
  have len (here : RecordAt b o) : u16At out (o + 3) = u16At b (o + 3) :=
    u16Same (changed.head here (k := 3) (by omega)) (changed.head here (k := 4) (by omega))
  constructor
  · intro hello
    have here := changed.record.mp hello.record
    exact ⟨here,(changed.whole here).mp hello.whole,(bytes here (Nat.zero_le 5)).symm.trans hello.handshake,
      len here ▸ hello.filled,(bytes here (Nat.le_refl 5)).symm.trans hello.hello⟩
  · intro hello
    have here := hello.record
    exact ⟨changed.record.mpr here,(changed.whole here).mpr hello.whole,(bytes here (Nat.zero_le 5)).trans hello.handshake,
      (len here).symm ▸ hello.filled,(bytes here (Nat.le_refl 5)).trans hello.hello⟩

theorem InBodies.first (changed : InBodies b out) : FirstServerHello out o ↔ FirstServerHello b o := by
  unfold FirstServerHello
  rw [changed.hello]
  exact and_congr_right (fun _ => forall₂_congr (fun p _ => not_congr changed.hello))

theorem offOthers (hello : ServerHelloAt b o) (other : ServerHelloAt b p) (different : p ≠ o) {i : Nat} (after : o ≤ i)
    (before : i < o + recordSize b o) : ¬ Inside (p + 11,p + recordSize b p) i := by
  rintro ⟨lower,upper⟩
  dsimp only at lower upper
  rcases Nat.lt_or_gt_of_ne different with less | more
  · have passed := (recordsApart other.record hello.record less).1
    omega
  · have passed := (recordsApart hello.record other.record more).1
    omega

end Kept

section Patches
variable {b id : Bytes} {o : Nat}

theorem startOffset : RecordAt b 0 ∧ ∀ p < 0, ¬ ServerHelloAt b p := ⟨.first,fun p before => absurd before (Nat.not_lt_zero p)⟩

theorem echoBodies (hello : ServerHelloAt b o) (room : (echoField b o).2 ≤ o + recordSize b o)
    (same : id.length = (byteAt b (o + 43)).toNat) : InBodies b (put b (o + 44) id) := by
  obtain ⟨length,outside⟩ := echoOutside hello room same
  refine ⟨length,fun i away => outside i ?_⟩
  rintro ⟨after,before⟩
  refine away o hello ⟨?_,Nat.lt_of_lt_of_le before room⟩
  exact Nat.le_trans (Nat.add_le_add_left (by omega) o) after

theorem randomOutside (draw : Nat → UInt8) : (patchServerHelloRandom draw b.length 0 b).length = b.length ∧
    ∀ i, (∀ o, HasRandom b o → ¬ Inside (randomField b o) i) → (patchServerHelloRandom draw b.length 0 b)[i]? = b[i]? :=
  randomWrites draw b.length 0 b startOffset.1 ⟨rfl,fun _ _ => rfl,fun _ _ => rfl⟩

theorem randomStop : (randomField b o).2 ≤ o + 43 := by
  rw [randomField]
  dsimp only
  split <;> omega

theorem randomBodies (draw : Nat → UInt8) : InBodies b (patchServerHelloRandom draw b.length 0 b) := by
  obtain ⟨length,outside⟩ := randomOutside (b := b) draw
  refine ⟨length,fun i away => outside i ?_⟩
  rintro o ⟨hello,room,_⟩ ⟨after,before⟩
  have stop := @randomStop b o
  exact away o hello ⟨after,by dsimp only; omega⟩

theorem shareOutside (draws : ServerDraws) : (keyShareInPlace draws b).2.length = b.length ∧
    ∀ i, (∀ o range, FirstServerHello b o → KeyExchangeAt b o range → ¬ Inside range i) →
      (keyShareInPlace draws b).2[i]? = b[i]? := by
  rcases shareWrites (b := b) draws with same | ⟨o,range,first,share,key,size,made⟩
  · rw [same]
    exact ⟨rfl,fun _ _ => rfl⟩
  · rw [made]
    have long : range.1 + key.length ≤ b.length := by
      rw [size]
      exact Nat.le_trans share.bounds.2.2 first.1.whole
    refine ⟨putLength long,fun i away => putOutside long ?_⟩
    rw [size]
    exact away o range first share

theorem shareBodies (draws : ServerDraws) : InBodies b (keyShareInPlace draws b).2 := by
  obtain ⟨length,outside⟩ := shareOutside (b := b) draws
  refine ⟨length,fun i away => outside i ?_⟩
  rintro o range first share ⟨after,before⟩
  obtain ⟨behind,_,within⟩ := share.bounds
  rw [echoField] at behind
  dsimp only at behind
  exact away o first.1 ⟨by dsimp only; omega,Nat.lt_of_lt_of_le before within⟩

theorem echoKept (draws : ServerDraws) (first : FirstServerHello b o) (room : (echoField b o).2 ≤ o + recordSize b o) :
    ∀ i, o + 43 ≤ i → i < (echoField b o).2 →
      (keyShareInPlace draws (patchServerHelloRandom draws.random b.length 0 b)).2[i]? = b[i]? := by
  have bodies := randomBodies (b := b) draws.random
  obtain ⟨_,random⟩ := randomOutside (b := b) draws.random
  obtain ⟨_,share⟩ := shareOutside (b := patchServerHelloRandom draws.random b.length 0 b) draws
  have early : ∀ i, o + 43 ≤ i → i < (echoField b o).2 → (patchServerHelloRandom draws.random b.length 0 b)[i]? = b[i]? := by
    intro i after before
    apply random
    rintro p ⟨hello,long,_⟩ ⟨lower,upper⟩
    have stop := @randomStop b p
    by_cases same : p = o
    · subst p
      omega
    · exact offOthers first.1 hello same (by omega) (by omega) ⟨lower,by dsimp only; omega⟩
  intro i after before
  rw [share,early i after before]
  intro p range firstThere there
  cases firstUnique firstThere (bodies.first.mpr first)
  rintro ⟨lower,_⟩
  have behind := there.bounds.1
  have len : byteAt (patchServerHelloRandom draws.random b.length 0 b) (o + 43) = byteAt b (o + 43) := by
    apply byteSame
    apply early _ (Nat.le_refl _)
    rw [echoField]
    dsimp only
    omega
  rw [echoField,len] at behind
  rw [echoField] at before
  dsimp only at behind before
  omega

theorem echoAgrees (fuel offset : Nat) :
    patchServerHelloSessionIdEcho id b fuel offset = onSuccess (echoInPlace id fuel offset b) := by
  induction fuel generalizing offset with
  | zero => rfl
  | succ fuel ih =>
    rw [patchServerHelloSessionIdEcho,echoInPlace]
    dsimp only
    rw [ih]
    split
    · split
      · rfl
      · split
        · split
          · rfl
          · split
            · rfl
            · split
              · rfl
              · rfl
        · rfl
    · rfl

theorem fillX25519Agrees (draws : ServerDraws) {share : Bytes} (size : share.length = 32) :
    draws.x25519.filter (fun key => key.length = 32) = onSuccess (fillX25519InPlace draws share) := by
  rw [fillX25519InPlace,if_neg (not_not.mpr size)]
  cases drawn : draws.x25519.filter (fun key => key.length = 32) with
  | none => rfl
  | some key =>
    have sized := of_decide_eq_true (Option.filter_eq_some_iff.mp drawn).2
    dsimp only
    rw [putWhole (sized.trans size.symm)]
    rfl

theorem fillP256Agrees (draws : ServerDraws) (share : Bytes) :
    draws.p256.filter (fun key => key.length = share.length) = onSuccess (fillP256InPlace draws share) := by
  unfold fillP256InPlace
  cases draws.p256 with
  | none => rfl
  | some key =>
    dsimp only
    by_cases sized : key.length = share.length
    · rw [if_neg (not_not.mpr sized),putWhole sized,Option.filter_some_pos (by simpa using sized)]
      rfl
    · rw [if_pos sized,Option.filter_some_neg (by simpa using sized)]
      rfl

theorem fillAgrees (draws : ServerDraws) (group : Nat) (share : Bytes) :
    freshKeyShare draws group share.length = onSuccess (fillKeyExchange draws group share) := by
  unfold freshKeyShare fillKeyExchange
  dsimp only
  split
  · rename_i x25519
    exact fillX25519Agrees draws x25519.2
  · split
    · exact fillP256Agrees draws share
    · split
      · rename_i hybrid
        have long : 0 + (fillBytes draws.mlkem mlkem768CiphertextLen).length ≤ share.length := by
          rw [fillBytesLength]
          omega
        have front : (put share 0 (fillBytes draws.mlkem mlkem768CiphertextLen)).take mlkem768CiphertextLen =
            fillBytes draws.mlkem mlkem768CiphertextLen := by
          rw [put,List.take_zero,List.nil_append,List.take_left' (fillBytesLength _ _)]
        have rest : ((put share 0 (fillBytes draws.mlkem mlkem768CiphertextLen)).drop mlkem768CiphertextLen).length = 32 := by
          rw [List.length_drop,putLength long]
          omega
        rw [fillX25519Agrees draws rest,front]
        generalize fillX25519InPlace draws _ = filled
        unfold onSuccess
        cases filled.1 <;> rfl
      · rfl

theorem shareAgrees (draws : ServerDraws) : patchServerHelloKeyShare draws b = onSuccess (keyShareInPlace draws b) := by
  unfold patchServerHelloKeyShare keyShareInPlace
  cases found : serverHelloKeyShareRange b b.length 0 with
  | none => rfl
  | some place =>
    obtain ⟨group,range⟩ := place
    obtain ⟨o,first,share⟩ := shareLocated b.length 0 startOffset.1 startOffset.2 found
    have size : (slice b range.1 range.2).length = range.2 - range.1 :=
      sliceLength (Nat.le_trans share.bounds.2.2 first.1.whole)
    rw [Option.bind_eq_bind,Option.bind_some]
    dsimp only
    rw [← size,fillAgrees]
    generalize fillKeyExchange draws group (slice b range.1 range.2) = filled
    unfold onSuccess
    cases filled.1 <;> rfl

theorem patchedInPlace {draws : ServerDraws} {records out : Bytes} (echoed : (echoInPlace id records.length 0 records).1 = true)
    (shared : keyShareInPlace draws (patchServerHelloRandom draws.random (echoInPlace id records.length 0 records).2.length 0
      (echoInPlace id records.length 0 records).2) = (true,out)) : patchedServerRecords draws id records = some out := by
  rw [patchedServerRecords,echoAgrees,onSuccess,if_pos echoed,Option.bind_eq_bind,Option.bind_some,shareAgrees,shared]
  rfl

theorem echoSurvives {id : Bytes} (draws : ServerDraws) (first : FirstServerHello b o)
    (room : (echoField b o).2 ≤ o + recordSize b o) (echoes : slice b (echoField b o).1 (echoField b o).2 = id) :
    let out := (keyShareInPlace draws (patchServerHelloRandom draws.random b.length 0 b)).2
    out.length = b.length ∧ FirstServerHello out o ∧ slice out (echoField out o).1 (echoField out o).2 = id := by
  intro out
  have kept := echoKept draws first room
  have random := randomBodies (b := b) draws.random
  have share := shareBodies (b := patchServerHelloRandom draws.random b.length 0 b) draws
  have len : byteAt out (o + 43) = byteAt b (o + 43) := by
    apply byteSame
    apply kept _ (Nat.le_refl _)
    rw [echoField]
    dsimp only
    omega
  have field : echoField out o = echoField b o := by rw [echoField,echoField,len]
  refine ⟨share.length.trans random.length,share.first.mpr (random.first.mpr first),?_⟩
  rw [field,← echoes]
  apply sliceExt
  intro i after before
  refine kept i ?_ before
  rw [echoField] at after
  dsimp only at after
  omega

theorem patchedEchoes {draws : ServerDraws} {records out : Bytes} (echoed : (echoInPlace id records.length 0 records).1 = true)
    (shared : keyShareInPlace draws (patchServerHelloRandom draws.random (echoInPlace id records.length 0 records).2.length 0
      (echoInPlace id records.length 0 records).2) = (true,out)) : out.length = records.length ∧
    ∃ o, FirstServerHello records o ∧ FirstServerHello out o ∧ slice out (echoField out o).1 (echoField out o).2 = id := by
  have made := congrArg Prod.snd shared
  dsimp only at made
  rcases @echoWrites records id records.length 0 startOffset.1 startOffset.2 with same | ⟨o,first,room,size,wrote⟩
  · rw [same] at echoed
    contradiction
  · rw [wrote] at made
    obtain ⟨length,outside⟩ := echoOutside first.1 room size
    have bodies := echoBodies first.1 room size
    have len : byteAt (put records (o + 44) id) (o + 43) = byteAt records (o + 43) := by
      apply byteSame
      apply outside
      rintro ⟨after,_⟩
      rw [echoField] at after
      dsimp only at after
      omega
    have field : echoField (put records (o + 44) id) o = echoField records o := by rw [echoField,echoField,len]
    have echoes : slice (put records (o + 44) id) (echoField (put records (o + 44) id) o).1
        (echoField (put records (o + 44) id) o).2 = id := by
      rw [field,echoField,← size]
      apply putSlice
      have whole := first.1.whole
      rw [echoField] at room
      rw [WholeRecord] at whole
      dsimp only at room
      omega
    have roomThere : (echoField (put records (o + 44) id) o).2 ≤ o + recordSize (put records (o + 44) id) o := by
      rw [field,bodies.size first.1.record]
      exact room
    obtain ⟨kept,firstOut,echo⟩ := echoSurvives draws (bodies.first.mpr first) roomThere echoes
    rw [made] at kept firstOut echo
    exact ⟨kept.trans length,o,first,firstOut,echo⟩

end Patches

/- The patches touch their fields only, on any bytes, with any draws and any session id. -/
theorem patchesInFields (records id : Bytes) (draws : ServerDraws) :
    ((echoInPlace id records.length 0 records).2.length = records.length ∧
      (∀ i, (∀ o, FirstServerHello records o → ¬ Inside (echoField records o) i) →
        (echoInPlace id records.length 0 records).2[i]? = records[i]?) ∧
      ((echoInPlace id records.length 0 records).1 = false → (echoInPlace id records.length 0 records).2 = records)) ∧
    ((patchServerHelloRandom draws.random records.length 0 records).length = records.length ∧
      ∀ i, (∀ o, HasRandom records o → ¬ Inside (randomField records o) i) →
        (patchServerHelloRandom draws.random records.length 0 records)[i]? = records[i]?) ∧
    ((keyShareInPlace draws records).2.length = records.length ∧
      ∀ i, (∀ o range, FirstServerHello records o → KeyExchangeAt records o range → ¬ Inside range i) →
        (keyShareInPlace draws records).2[i]? = records[i]?) ∧
    ∀ echoed out, echoInPlace id records.length 0 records = (true,echoed) →
      keyShareInPlace draws (patchServerHelloRandom draws.random echoed.length 0 echoed) = (true,out) →
      patchedServerRecords draws id records = some out ∧ out.length = records.length ∧
      ∃ o, FirstServerHello records o ∧ FirstServerHello out o ∧ slice out (echoField out o).1 (echoField out o).2 = id := by
  refine ⟨?_,randomOutside draws.random,shareOutside draws,?_⟩
  · rcases @echoWrites records id records.length 0 startOffset.1 startOffset.2 with same | ⟨o,first,room,size,made⟩
    · rw [same]
      exact ⟨rfl,fun _ _ => rfl,fun _ => rfl⟩
    · rw [made]
      obtain ⟨length,outside⟩ := echoOutside first.1 room size
      exact ⟨length,fun i away => outside i (away o first),fun no => by contradiction⟩
  · intro echoed out first last
    have wrote : (echoInPlace id records.length 0 records).1 = true := congrArg Prod.fst first
    have same : (echoInPlace id records.length 0 records).2 = echoed := congrArg Prod.snd first
    rw [← same] at last
    exact ⟨patchedInPlace wrote last,patchedEchoes wrote last⟩

def sampleRecords (echo share : UInt8) : Bytes :=
  [0x14,0x03,0x03,0x00,0x01,0x01] ++ [0x16,0x03,0x03,0x00,0x55,0x02,0x00,0x00,0x51,0x03,0x03] ++ List.replicate 32 7 ++
  [0x01,echo,0x13,0x01,0x00,0x00,0x28,0x00,0x33,0x00,0x24,0x00,0x1d,0x00,0x20] ++ List.replicate 32 share

theorem patchesInFieldsSample : ∃ out, patchedServerRecords sampleServerDraws [0xbb] (sampleRecords 0xaa 3) = some out ∧
    out = sampleRecords 0xbb 8 ∧ ∃ o, FirstServerHello out o ∧ slice out (echoField out o).1 (echoField out o).2 = [0xbb] := by
  have echoes : echoInPlace [0xbb] (sampleRecords 0xaa 3).length 0 (sampleRecords 0xaa 3) = (true,sampleRecords 0xbb 3) := by
    decide +kernel
  have shares : keyShareInPlace sampleServerDraws (patchServerHelloRandom sampleServerDraws.random
      (sampleRecords 0xbb 3).length 0 (sampleRecords 0xbb 3)) = (true,sampleRecords 0xbb 8) := by
    decide +kernel
  obtain ⟨patched,_,o,_,first,echo⟩ :=
    (patchesInFields (sampleRecords 0xaa 3) [0xbb] sampleServerDraws).2.2.2 _ _ echoes shares
  exact ⟨_,patched,rfl,o,first,echo⟩

end KanoTls.Camouflage
