import KanoTls.Hello

/-! TLS records on the wire and `read_tls_record_bounded`. A stream that ends is one that
sends no more before the deadline. -/
namespace KanoTls.Tls
open Uot Wire Patch Hello

def maxTlsRecordPayloadLen : Nat := 16384 + 256

inductive ReadError where
  | recordCount | tooLarge | byteCount | ended
  deriving DecidableEq, Repr

structure TlsRecordReadLimits where
  maxRecords : Nat
  maxBytes : Nat

structure TlsRecordReadState where
  records : Nat := 0
  bytes : Nat := 0
  deriving DecidableEq, Repr

/- What one call leaves: type and length, the record in `buf`, the counters, the stream. -/
structure Got where
  typ : UInt8
  len : Nat
  record : Bytes
  state : TlsRecordReadState
  rest : Bytes
  deriving DecidableEq, Repr

def readTlsRecordBounded (limits : TlsRecordReadLimits) (state : TlsRecordReadState) (stream : Bytes) :
    Except ReadError Got :=
  if state.records ≥ limits.maxRecords then .error .recordCount
  else if stream.length < 5 then .error .ended
  else
    let len := u16At stream 3
    if len > maxTlsRecordPayloadLen then .error .tooLarge
    else if state.bytes + (5 + len) > limits.maxBytes then .error .byteCount
    else if stream.length < 5 + len then .error .ended
    else .ok ⟨byteAt stream 0,len,stream.take (5 + len),⟨state.records + 1,state.bytes + (5 + len)⟩,stream.drop (5 + len)⟩

def isServerHello (record : Bytes) : Bool := 9 ≤ record.length && byteAt record 0 == 0x16 && byteAt record 5 == 0x02

structure TlsRecord where
  typ : UInt8
  major : UInt8
  minor : UInt8
  payload : Bytes
  deriving DecidableEq, Repr

def TlsRecord.bytes (r : TlsRecord) : Bytes := r.typ::r.major::r.minor::(toBeBytes r.payload.length ++ r.payload)

def flat (records : List TlsRecord) : Bytes := records.flatMap TlsRecord.bytes

section Read
variable {r : TlsRecord} {limits : TlsRecordReadLimits} {state : TlsRecordReadState}

theorem bytesLength (r : TlsRecord) : r.bytes.length = 5 + r.payload.length := by
  simp only [TlsRecord.bytes,toBeBytes,List.length_cons,List.length_append,List.length_nil]
  omega

theorem bytesLen (small : r.payload.length ≤ maxTlsRecordPayloadLen) (rest : Bytes) :
    u16At (r.bytes ++ rest) 3 = r.payload.length := by
  show fromBeBytes (UInt8.ofNat (r.payload.length / 256)) (UInt8.ofNat r.payload.length) = _
  rw [maxTlsRecordPayloadLen] at small
  exact fromToBeBytes (by omega)

theorem readRecord (small : r.payload.length ≤ maxTlsRecordPayloadLen) (rest : Bytes) :
    readTlsRecordBounded limits state (r.bytes ++ rest) =
      if state.records ≥ limits.maxRecords then .error .recordCount
      else if state.bytes + (5 + r.payload.length) > limits.maxBytes then .error .byteCount
      else .ok ⟨r.typ,r.payload.length,r.bytes,⟨state.records + 1,state.bytes + (5 + r.payload.length)⟩,rest⟩ := by
  have size := bytesLength r
  have long : (r.bytes ++ rest).length = 5 + r.payload.length + rest.length := by rw [List.length_append,size]
  rw [readTlsRecordBounded]
  refine if_congr Iff.rfl rfl ?_
  rw [if_neg (by omega)]
  dsimp only
  rw [bytesLen small,if_neg (by omega)]
  refine if_congr Iff.rfl rfl ?_
  rw [if_neg (by omega),← size,List.take_left,List.drop_left]
  rfl

theorem readGot {stream : Bytes} {got : Got} (ran : readTlsRecordBounded limits state stream = .ok got) :
    ∃ r : TlsRecord, r.payload.length ≤ maxTlsRecordPayloadLen ∧ stream = r.bytes ++ got.rest ∧ got.typ = r.typ ∧
      got.len = r.payload.length ∧ got.record = r.bytes := by
  unfold readTlsRecordBounded at ran
  by_cases records : state.records ≥ limits.maxRecords
  · rw [if_pos records] at ran
    contradiction
  rw [if_neg records] at ran
  by_cases short : stream.length < 5
  · rw [if_pos short] at ran
    contradiction
  rw [if_neg short] at ran
  dsimp only at ran
  by_cases large : u16At stream 3 > maxTlsRecordPayloadLen
  · rw [if_pos large] at ran
    contradiction
  rw [if_neg large] at ran
  by_cases bytes : state.bytes + (5 + u16At stream 3) > limits.maxBytes
  · rw [if_pos bytes] at ran
    contradiction
  rw [if_neg bytes] at ran
  by_cases torn : stream.length < 5 + u16At stream 3
  · rw [if_pos torn] at ran
    contradiction
  rw [if_neg torn] at ran
  cases ran
  obtain ⟨a,b,c,d,e,tail,rfl⟩ : ∃ a b c d e tail, stream = a::b::c::d::e::tail := by
    rcases stream with _ | ⟨a,_ | ⟨b,_ | ⟨c,_ | ⟨d,_ | ⟨e,tail⟩⟩⟩⟩⟩ <;>
      simp only [List.length_cons,List.length_nil] at short <;> try omega
    exact ⟨a,b,c,d,e,tail,rfl⟩
  have len : u16At (a::b::c::d::e::tail) 3 = fromBeBytes d e := rfl
  rw [len] at large torn ⊢
  have fits : fromBeBytes d e ≤ tail.length := by
    simp only [List.length_cons] at torn
    omega
  have size : (tail.take (fromBeBytes d e)).length = fromBeBytes d e := by
    rw [List.length_take,Nat.min_eq_left fits]
  have header : toBeBytes (fromBeBytes d e) = [d,e] := by
    have high := d.toNat_lt
    have low := e.toNat_lt
    rw [toBeBytes,fromBeBytes,show (d.toNat * 256 + e.toNat) / 256 = d.toNat by omega,UInt8.ofNat_toNat]
    refine congrArg (fun x => [d,x]) (UInt8.toNat_inj.mp ?_)
    rw [UInt8.toNat_ofNat']
    omega
  have whole : (⟨a,b,c,tail.take (fromBeBytes d e)⟩ : TlsRecord).bytes = (a::b::c::d::e::tail).take (5 + fromBeBytes d e) := by
    rw [TlsRecord.bytes,size,header,Nat.add_comm]
    rfl
  refine ⟨⟨a,b,c,tail.take (fromBeBytes d e)⟩,by rw [size]; omega,?_,rfl,size.symm,whole.symm⟩
  rw [whole]
  exact (List.take_append_drop _ _).symm

end Read

/- The same type, length and first byte: what a reader that does not decrypt looks at. -/
structure Alike (r r' : TlsRecord) : Prop where
  typ : r'.typ = r.typ
  length : r'.payload.length = r.payload.length
  first : r'.payload.head? = r.payload.head?

theorem Alike.refl (r : TlsRecord) : Alike r r := ⟨rfl,rfl,rfl⟩

theorem Alike.trans {r s t : TlsRecord} (one : Alike r s) (two : Alike s t) : Alike r t :=
  ⟨two.typ.trans one.typ,two.length.trans one.length,two.first.trans one.first⟩

theorem firstByte (r : TlsRecord) (rest : Bytes) (nonempty : 0 < r.payload.length) :
    byteAt (r.bytes ++ rest) 5 = r.payload.head?.getD 0 := by
  obtain ⟨a,b,c,payload⟩ := r
  cases payload with
  | nil => contradiction
  | cons x tail => rfl

theorem helloIff (r : TlsRecord) : isServerHello r.bytes =
    (4 ≤ r.payload.length && r.typ == 0x16 && r.payload.head?.getD 0 == 0x02) := by
  have size := bytesLength r
  by_cases long : 4 ≤ r.payload.length
  · have first := firstByte r [] (by omega)
    rw [List.append_nil] at first
    rw [isServerHello,first,decide_eq_true (by omega),decide_eq_true long]
    rfl
  · rw [isServerHello,decide_eq_false (by omega),decide_eq_false long]
    rfl

theorem Alike.hello {r r' : TlsRecord} (alike : Alike r r') : isServerHello r'.bytes = isServerHello r.bytes := by
  rw [helloIff,helloIff,alike.typ,alike.length,alike.first]

theorem patchRecord {front chunk : Bytes} {r : TlsRecord} {i : Nat} (tail : Bytes) (behind : 6 ≤ i)
    (fits : i + chunk.length ≤ r.bytes.length) :
    ∃ r', Alike r r' ∧ put (front ++ (r.bytes ++ tail)) (front.length + i) chunk = front ++ (r'.bytes ++ tail) := by
  have size := bytesLength r
  obtain ⟨k,rfl⟩ : ∃ k, i = 5 + k := ⟨i - 5,by omega⟩
  have inside : k + chunk.length ≤ r.payload.length := by omega
  refine ⟨⟨r.typ,r.major,r.minor,put r.payload k chunk⟩,⟨rfl,putLength inside,?_⟩,?_⟩
  · have same := putBefore (i := 0) inside (by omega)
    rw [List.head?_eq_getElem?,List.head?_eq_getElem?]
    exact same
  · have header : r.bytes = (r.typ::r.major::r.minor::toBeBytes r.payload.length) ++ r.payload := rfl
    have five : (r.typ::r.major::r.minor::toBeBytes r.payload.length).length = 5 := rfl
    rw [putRight,putLeft tail fits,header,← five,putRight,TlsRecord.bytes,putLength inside]
    rfl

end KanoTls.Tls
