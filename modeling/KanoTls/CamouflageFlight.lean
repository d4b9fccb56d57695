import KanoTls.CamouflageClient
import KanoTls.HelloAuth

/-! The flight that the server replays against the loop of the client. -/
namespace KanoTls.Camouflage
open Uot Wire Patch Hello Tls

section Sampler
variable {fast : Bool} {expected : Option Nat} {now : Nat} {s t : Sampling} {r : TlsRecord}

structure WholeRecords (records : Bytes) (found : Bool) (recs : List TlsRecord) : Prop where
  flat : records = flat recs
  small : ∀ r ∈ recs, r.payload.length ≤ maxTlsRecordPayloadLen
  order : recs.Pairwise (fun r later => isServerHello r.bytes = true → later.typ ≠ 0x17)
  none : found = false → ∀ r ∈ recs, isServerHello r.bytes = false

structure Sampling.Ok (s : Sampling) : Prop where
  records : ∃ recs, WholeRecords s.serverRecords s.foundServerHello recs
  prefixCount : s.prefixAppDataSizes.length ≤ maxCamouflagePrefixAppDataRecords
  prefixSmall : ∀ size ∈ s.prefixAppDataSizes, size < minNoiseResponseRecordLen
  sizes : s.appDataSizes.length ≤ maxCamouflageAppDataRecords

theorem noteOk (now : Nat) (got : Got) (ok : s.Ok) : (noteRecord now got s).Ok := by
  obtain ⟨⟨recs,whole⟩,count,small,sizes⟩ := ok
  unfold noteRecord
  split <;> split
  · exact ⟨⟨recs,whole.flat,whole.small,whole.order,fun no => by contradiction⟩,count,small,sizes⟩
  · exact ⟨⟨recs,whole.flat,whole.small,whole.order,fun no => by contradiction⟩,count,small,sizes⟩
  · exact ⟨⟨recs,whole⟩,count,small,sizes⟩
  · exact ⟨⟨recs,whole⟩,count,small,sizes⟩

theorem noteFound (now : Nat) (got : Got) :
    (noteRecord now got s).foundServerHello = (s.foundServerHello || (got.typ == 0x16 && isServerHello got.record)) := by
  unfold noteRecord
  cases hello : got.typ == 0x16 && isServerHello got.record <;> cases ccs : got.typ == 0x14 <;> simp

theorem noteHello {now : Nat} {got : Got} (typ : got.typ = r.typ) (record : got.record = r.bytes)
    (no : (noteRecord now got s).foundServerHello = false) : isServerHello r.bytes = false := by
  rw [noteFound,typ,record] at no
  by_contra hello
  have isHello : isServerHello r.bytes = true := by simpa using hello
  have sixteen : (r.typ == 0x16) = true := by
    rw [helloIff] at isHello
    simp only [Bool.and_eq_true] at isHello
    exact isHello.1.2
  rw [sixteen,isHello] at no
  simp at no

theorem prefixOk (len : Nat) (ok : s.Ok) : (samplePrefix len s).Ok := by
  unfold samplePrefix
  split
  · rename_i inRun
    have short : len < minNoiseResponseRecordLen := by simpa using (Bool.and_eq_true_iff.mp inRun).2
    split
    · rename_i room
      refine ⟨ok.records,?_,?_,ok.sizes⟩
      · rw [List.length_append]
        exact room
      · intro size member
        rcases List.mem_append.mp member with old | new
        · exact ok.prefixSmall size old
        · exact List.mem_singleton.mp new ▸ short
    · exact ⟨ok.records,ok.prefixCount,ok.prefixSmall,ok.sizes⟩
  · exact ⟨ok.records,ok.prefixCount,ok.prefixSmall,ok.sizes⟩

def Turn.Ok : Turn → Prop
  | .more s => s.Ok
  | .stop s => s.Ok
  | .fail => True

theorem appDataOk (len : Nat) (ok : s.Ok) : (sampleAppData fast expected now len s).Ok := by
  have kept := prefixOk len ok
  unfold sampleAppData
  generalize samplePrefix len s = u at kept
  dsimp only
  split
  · exact kept
  · rename_i room
    have sizes : (u.appDataSizes ++ [len]).length ≤ maxCamouflageAppDataRecords := by
      rw [List.length_append,List.length_singleton]
      omega
    split <;> exact ⟨kept.records,kept.prefixCount,kept.prefixSmall,sizes⟩

theorem visibleOk (small : r.payload.length ≤ maxTlsRecordPayloadLen) (ok : s.Ok)
    (order : s.foundServerHello = true → r.typ ≠ 0x17) (hello : s.foundServerHello = false → isServerHello r.bytes = false) :
    (sampleVisible r.bytes s).Ok := by
  obtain ⟨⟨recs,whole⟩,count,prefixes,sizes⟩ := ok
  unfold sampleVisible
  dsimp only
  split
  · exact ⟨⟨recs,whole⟩,count,prefixes,sizes⟩
  · refine ⟨⟨recs ++ [r],?_,?_,?_,?_⟩,count,prefixes,sizes⟩
    · show s.serverRecords ++ r.bytes = _
      rw [whole.flat,Tls.flat,Tls.flat,List.flatMap_append,List.flatMap_singleton]
    · intro q member
      rcases List.mem_append.mp member with old | new
      · exact whole.small q old
      · exact List.mem_singleton.mp new ▸ small
    · refine List.pairwise_append.mpr ⟨whole.order,List.pairwise_singleton _ _,fun q member later here isHello => ?_⟩
      rw [List.mem_singleton.mp here]
      apply order
      by_contra no
      rw [whole.none (Bool.not_eq_true _ ▸ no) q member] at isHello
      contradiction
    · intro no q member
      rcases List.mem_append.mp member with old | new
      · exact whole.none no q old
      · exact List.mem_singleton.mp new ▸ hello no

theorem recordOk {got : Got} (small : r.payload.length ≤ maxTlsRecordPayloadLen) (typ : got.typ = r.typ)
    (record : got.record = r.bytes) (ok : s.Ok) : (sampleRecord fast expected now got s).Ok := by
  have counted : ({ s with readState := got.state,totalRecords := s.totalRecords + 1 } : Sampling).Ok :=
    ⟨ok.records,ok.prefixCount,ok.prefixSmall,ok.sizes⟩
  unfold sampleRecord
  generalize ({ s with readState := got.state,totalRecords := s.totalRecords + 1 } : Sampling) = u at counted
  dsimp only
  split
  · exact counted
  · split
    · trivial
    · have noted := noteOk now got counted
      split
      · exact appDataOk got.len noted
      · rename_i other
        rw [record]
        refine visibleOk small noted (fun found => ?_) (noteHello typ record)
        rw [found,typ,Bool.true_and] at other
        simpa using other

theorem initialOk : ({} : Sampling).Ok :=
  ⟨⟨[],rfl,fun r no => by contradiction,.nil,fun _ r no => by contradiction⟩,Nat.zero_le _,fun size no => by contradiction,
    Nat.zero_le _⟩

theorem loopOk {clock : Nat → Nat} {fuel : Nat} {stream : Bytes} (ok : s.Ok)
    (ran : sampleLoop fast expected clock fuel stream s = some t) : t.Ok := by
  induction fuel generalizing stream s with
  | zero => exact Option.some.inj ran ▸ ok
  | succ fuel ih =>
    rw [sampleLoop] at ran
    cases read : readTlsRecordBounded sampleLimits s.readState stream with
    | error e =>
      rw [read] at ran
      exact Option.some.inj ran ▸ ok
    | ok got =>
      rw [read] at ran
      obtain ⟨r,small,_,typ,_,record⟩ := readGot read
      have turn : (sampleRecord fast expected (clock s.totalRecords) got s).Ok := recordOk small typ record ok
      cases took : sampleRecord fast expected (clock s.totalRecords) got s with
      | more u =>
        simp only [took] at ran turn
        exact ih turn ran
      | stop u =>
        simp only [took] at ran turn
        exact Option.some.inj ran ▸ turn
      | fail =>
        simp only [took] at ran
        contradiction

end Sampler

section Patches
variable {recs rest : List TlsRecord} {front : Bytes} {r : TlsRecord}

theorem byteAtFront (front x : Bytes) (i : Nat) : byteAt (front ++ x) (front.length + i) = byteAt x i := by
  rw [byteAt,byteAt,List.getD_eq_getElem?_getD,List.getD_eq_getElem?_getD,List.getElem?_append_right (Nat.le_add_right _ _),
    Nat.add_sub_cancel_left]

theorem u16AtFront (front x : Bytes) (i : Nat) : u16At (front ++ x) (front.length + i) = u16At x i := by
  rw [u16At,u16At,byteAtFront,Nat.add_assoc,byteAtFront]

structure Begins (front : Bytes) (r : TlsRecord) (rest : List TlsRecord) : Prop where
  header : front.length + 5 ≤ (front ++ flat (r::rest)).length
  typ : byteAt (front ++ flat (r::rest)) front.length = r.typ
  len : u16At (front ++ flat (r::rest)) (front.length + 3) = r.payload.length
  first : 0 < r.payload.length → byteAt (front ++ flat (r::rest)) (front.length + 5) = r.payload.head?.getD 0
  whole : ¬ front.length + (5 + r.payload.length) > (front ++ flat (r::rest)).length
  next : front ++ flat (r::rest) = (front ++ r.bytes) ++ flat rest
  stop : front.length + (5 + r.payload.length) = (front ++ r.bytes).length

theorem begins (small : r.payload.length ≤ maxTlsRecordPayloadLen) : Begins front r rest := by
  have split : flat (r::rest) = r.bytes ++ flat rest := rfl
  have size := bytesLength r
  refine ⟨?_,?_,?_,?_,?_,?_,?_⟩
  · rw [split,List.length_append,List.length_append]
    omega
  · exact byteAtFront front (flat (r::rest)) 0
  · rw [u16AtFront,split,bytesLen small]
  · intro nonempty
    rw [byteAtFront,split,firstByte r _ nonempty]
  · rw [split,List.length_append,List.length_append]
    omega
  · rw [split,List.append_assoc]
  · rw [List.length_append,size]

theorem pastEnd (front : Bytes) : ¬ front.length + 5 ≤ (front ++ flat []).length := by
  show ¬ front.length + 5 ≤ (front ++ []).length
  rw [List.append_nil]
  omega

theorem alikeRefl (recs : List TlsRecord) : List.Forall₂ Alike recs recs := List.forall₂_same.mpr (fun r _ => .refl r)

theorem alikeOne {before after : List TlsRecord} {r r' : TlsRecord} (alike : Alike r r') :
    List.Forall₂ Alike (before ++ r::after) (before ++ r'::after) :=
  List.rel_append (alikeRefl before) (.cons alike (alikeRefl after))

theorem isHello (small : 44 ≤ 5 + r.payload.length) (typ : r.typ = 0x16) (first : r.payload.head?.getD 0 = 0x02) :
    isServerHello r.bytes = true := by
  rw [helloIff,typ,first,decide_eq_true (by omega)]
  rfl

theorem sessionPatched {id out : Bytes} {fuel : Nat} (small : ∀ r ∈ recs, r.payload.length ≤ maxTlsRecordPayloadLen)
    (ran : patchServerHelloSessionIdEcho id (front ++ flat recs) fuel front.length = some out) :
    ∃ recs', List.Forall₂ Alike recs recs' ∧ out = front ++ flat recs' ∧ ∃ r ∈ recs, isServerHello r.bytes = true := by
  induction fuel generalizing front recs with
  | zero => contradiction
  | succ fuel ih =>
    rw [patchServerHelloSessionIdEcho] at ran
    cases recs with
    | nil =>
      rw [if_neg (pastEnd front)] at ran
      contradiction
    | cons r rest =>
      have here := small r List.mem_cons_self
      have start : Begins front r rest := begins here
      rw [if_pos start.header] at ran
      dsimp only at ran
      rw [start.len,start.typ,if_neg start.whole] at ran
      by_cases hello : r.typ = 0x16 ∧ r.payload.length > 0 ∧ byteAt (front ++ flat (r::rest)) (front.length + 5) = 0x02
      · rw [if_pos hello] at ran
        obtain ⟨long,ran⟩ := Option.ite_none_left_eq_some.mp ran
        obtain ⟨inside,ran⟩ := Option.ite_none_left_eq_some.mp ran
        obtain ⟨same,ran⟩ := Option.ite_none_left_eq_some.mp ran
        have size := bytesLength r
        have fits : 44 + id.length ≤ r.bytes.length := by omega
        obtain ⟨r',alike,put⟩ := @patchRecord front id r 44 (flat rest) (by omega) fits
        refine ⟨r'::rest,.cons alike (alikeRefl rest),?_,r,List.mem_cons_self,?_⟩
        · rw [← Option.some.inj ran]
          exact put
        · exact isHello (by omega) hello.1 ((start.first hello.2.1).symm.trans hello.2.2)
      · rw [if_neg hello,start.next,start.stop] at ran
        obtain ⟨recs',alike,rfl,q,member,isHello⟩ := ih (fun q member => small q (List.mem_cons_of_mem _ member)) ran
        refine ⟨r::recs',.cons (.refl r) alike,?_,q,List.mem_cons_of_mem _ member,isHello⟩
        exact List.append_assoc front r.bytes (flat recs')

theorem freshRandomLength (draw : Nat → UInt8) (last8 : Bytes) : (freshRandom draw last8).length ≤ 32 := by
  unfold freshRandom
  split
  · rw [List.length_take,fillBytes,List.length_map,List.length_range]
    omega
  · rw [fillBytes,List.length_map,List.length_range]

theorem randomPatched {draw : Nat → UInt8} {fuel : Nat} (small : ∀ r ∈ recs, r.payload.length ≤ maxTlsRecordPayloadLen) :
    ∃ recs', List.Forall₂ Alike recs recs' ∧
      patchServerHelloRandom draw fuel front.length (front ++ flat recs) = front ++ flat recs' := by
  induction fuel generalizing front recs draw with
  | zero => exact ⟨recs,alikeRefl recs,rfl⟩
  | succ fuel ih =>
    rw [patchServerHelloRandom]
    cases recs with
    | nil =>
      rw [if_neg (pastEnd front)]
      exact ⟨[],.nil,rfl⟩
    | cons r rest =>
      have here := small r List.mem_cons_self
      have others : ∀ q ∈ rest, q.payload.length ≤ maxTlsRecordPayloadLen := fun q member => small q (List.mem_cons_of_mem _ member)
      have start : Begins front r rest := begins here
      have size := bytesLength r
      -- a record that is left alone
      have skip : ∃ recs', List.Forall₂ Alike (r::rest) recs' ∧
          patchServerHelloRandom draw fuel (front.length + (5 + r.payload.length)) (front ++ flat (r::rest)) = front ++ flat recs' := by
        obtain ⟨recs',alike,ran⟩ := @ih rest (front ++ r.bytes) draw others
        refine ⟨r::recs',.cons (.refl r) alike,?_⟩
        rw [start.next,start.stop,ran]
        exact List.append_assoc front r.bytes (flat recs')
      rw [if_pos start.header]
      dsimp only
      rw [start.len,start.typ,if_neg start.whole]
      split
      · split
        · exact ⟨r::rest,alikeRefl _,rfl⟩
        · rename_i long
          split
          · exact skip
          · generalize slice (front ++ flat (r::rest)) (front.length + 11 + 24) (front.length + 11 + 32) = last8
            have short := freshRandomLength draw last8
            generalize freshRandom draw last8 = fresh at short
            obtain ⟨r',alike,put⟩ := @patchRecord front fresh r 11 (flat rest) (by omega) (by omega)
            have put' : Patch.put (front ++ flat (r::rest)) (front.length + 11) fresh = (front ++ r'.bytes) ++ flat rest :=
              put.trans (List.append_assoc _ _ _).symm
            have stop : front.length + (5 + r.payload.length) = (front ++ r'.bytes).length := by
              rw [List.length_append,bytesLength r',alike.length]
            obtain ⟨recs',more,ran⟩ := @ih rest (front ++ r'.bytes) (fun i => draw (i + 32)) others
            refine ⟨r'::recs',.cons alike more,?_⟩
            rw [put',stop,ran]
            exact List.append_assoc front r'.bytes (flat recs')
      · exact skip

theorem keyShareBounds {records : Bytes} {extensionsEnd fuel cursor group : Nat} {range : Range}
    (found : keyShareFrom records extensionsEnd fuel cursor = some (group,range)) :
    cursor + 8 ≤ range.1 ∧ range.1 ≤ range.2 ∧ range.2 ≤ extensionsEnd := by
  induction fuel generalizing cursor with
  | zero => contradiction
  | succ fuel ih =>
    rw [keyShareFrom] at found
    by_cases more : cursor + 4 ≤ extensionsEnd
    · rw [if_pos more] at found
      dsimp only at found
      obtain ⟨inside,found⟩ := Option.ite_none_left_eq_some.mp found
      by_cases keyShare : u16At records cursor = 0x0033
      · rw [if_pos keyShare] at found
        obtain ⟨_,found⟩ := Option.ite_none_left_eq_some.mp found
        obtain ⟨fits,found⟩ := Option.ite_none_left_eq_some.mp found
        cases Option.some.inj found
        exact ⟨Nat.le_refl _,Nat.le_add_right _ _,by dsimp only; omega⟩
      · rw [if_neg keyShare] at found
        have later := ih found
        exact ⟨by omega,later.2⟩
    · rw [if_neg more] at found
      contradiction

theorem keyShareRecord {fuel group : Nat} {range : Range} (small : ∀ r ∈ recs, r.payload.length ≤ maxTlsRecordPayloadLen)
    (found : serverHelloKeyShareRange (front ++ flat recs) fuel front.length = some (group,range)) :
    ∃ before r after, recs = before ++ r::after ∧ (front ++ flat before).length + 6 ≤ range.1 ∧ range.1 ≤ range.2 ∧
      range.2 ≤ (front ++ flat before).length + r.bytes.length := by
  induction fuel generalizing front recs with
  | zero => contradiction
  | succ fuel ih =>
    rw [serverHelloKeyShareRange] at found
    cases recs with
    | nil =>
      rw [if_neg (pastEnd front)] at found
      contradiction
    | cons r rest =>
      have start : Begins front r rest := begins (small r List.mem_cons_self)
      have size := bytesLength r
      rw [if_pos start.header] at found
      dsimp only at found
      rw [start.len,start.typ,Nat.add_assoc,if_neg start.whole] at found
      by_cases other : r.typ ≠ 0x16 ∨ r.payload.length = 0 ∨ byteAt (front ++ flat (r::rest)) (front.length + 5) ≠ 0x02
      · rw [if_pos other,start.next,start.stop] at found
        obtain ⟨before,q,after,rfl,lower,ordered,upper⟩ := ih (fun q member => small q (List.mem_cons_of_mem _ member)) found
        have shift : front ++ flat (r::before) = front ++ r.bytes ++ flat before := (List.append_assoc front r.bytes _).symm
        exact ⟨r::before,q,after,rfl,by rw [shift]; exact lower,ordered,by rw [shift]; exact upper⟩
      · rw [if_neg other] at found
        obtain ⟨_,found⟩ := Option.ite_none_left_eq_some.mp found
        obtain ⟨_,found⟩ := Option.ite_none_left_eq_some.mp found
        obtain ⟨inside,found⟩ := Option.ite_none_left_eq_some.mp found
        have bounds := keyShareBounds found
        have empty : (front ++ flat []).length = front.length := congrArg List.length (List.append_nil front)
        exact ⟨[],r,rest,rfl,by rw [empty]; omega,bounds.2.1,by rw [empty]; omega⟩

theorem freshKeyShareLength {draws : ServerDraws} {group len : Nat} {key : Bytes}
    (fresh : freshKeyShare draws group len = some key) : key.length = len := by
  unfold freshKeyShare at fresh
  dsimp only at fresh
  have sized {keys : Option Bytes} {n : Nat} {drawn : Bytes} (this : keys.filter (fun k => k.length = n) = some drawn) :
      drawn.length = n := by simpa using (Option.filter_eq_some_iff.mp this).2
  split at fresh
  · rename_i x25519
    exact (sized fresh).trans x25519.2.symm
  · split at fresh
    · exact sized fresh
    · split at fresh
      · rename_i mlkem
        obtain ⟨half,drawn,rfl⟩ := Option.map_eq_some_iff.mp fresh
        rw [List.length_append,sized drawn,fillBytes,List.length_map,List.length_range,mlkem.2]
      · contradiction

theorem keySharePatched {draws : ServerDraws} {out : Bytes} (small : ∀ r ∈ recs, r.payload.length ≤ maxTlsRecordPayloadLen)
    (ran : patchServerHelloKeyShare draws (flat recs) = some out) :
    ∃ recs', List.Forall₂ Alike recs recs' ∧ out = flat recs' := by
  obtain ⟨⟨group,range⟩,found,ran⟩ := Option.bind_eq_some_iff.mp ran
  obtain ⟨key,fresh,ran⟩ := Option.bind_eq_some_iff.mp ran
  obtain ⟨before,r,after,rfl,lower,ordered,upper⟩ := @keyShareRecord recs [] _ _ _ small found
  have size := freshKeyShareLength fresh
  rw [List.nil_append] at lower upper
  obtain ⟨k,start⟩ : ∃ k, range.1 = (flat before).length + k := ⟨range.1 - (flat before).length,by omega⟩
  obtain ⟨r',alike,put⟩ := @patchRecord (flat before) key r k (flat after) (by omega) (by omega)
  refine ⟨before ++ r'::after,alikeOne alike,?_⟩
  rw [← Option.some.inj ran,start]
  have split (q : TlsRecord) : flat (before ++ q::after) = flat before ++ (q.bytes ++ flat after) := by
    rw [flat,List.flatMap_append,List.flatMap_cons]
    rfl
  rw [split r,split r']
  exact put

theorem alikeSmall {recs' : List TlsRecord} (alike : List.Forall₂ Alike recs recs')
    (small : ∀ r ∈ recs, r.payload.length ≤ maxTlsRecordPayloadLen) :
    ∀ r ∈ recs', r.payload.length ≤ maxTlsRecordPayloadLen := by
  induction alike with
  | nil => exact small
  | cons one _ ih =>
    intro q member
    rcases List.mem_cons.mp member with rfl | later
    · rw [one.length]
      exact small _ List.mem_cons_self
    · exact ih (fun p here => small p (List.mem_cons_of_mem _ here)) q later

theorem recordsPatched {draws : ServerDraws} {id out : Bytes} (small : ∀ r ∈ recs, r.payload.length ≤ maxTlsRecordPayloadLen)
    (ran : patchedServerRecords draws id (flat recs) = some out) :
    ∃ recs', List.Forall₂ Alike recs recs' ∧ out = flat recs' ∧ ∃ r ∈ recs, isServerHello r.bytes = true := by
  obtain ⟨middle,session,ran⟩ := Option.bind_eq_some_iff.mp ran
  obtain ⟨one,alike,rfl,hello⟩ := @sessionPatched recs [] id middle _ small session
  rw [List.nil_append] at ran
  obtain ⟨two,alike',random⟩ := @randomPatched one [] draws.random (flat one).length (alikeSmall alike small)
  rw [List.nil_append,List.nil_append] at random
  rw [show (0 : Nat) = ([] : Bytes).length from rfl,random] at ran
  obtain ⟨three,alike'',rfl⟩ := keySharePatched (alikeSmall alike' (alikeSmall alike small)) ran
  have chain {a b d : List TlsRecord} (first : List.Forall₂ Alike a b) (second : List.Forall₂ Alike b d) : List.Forall₂ Alike a d := by
    induction first generalizing d with
    | nil => exact second
    | cons one _ ih =>
      cases second with
      | cons two later => exact .cons (one.trans two) (ih later)
  exact ⟨three,chain (chain alike alike') alike'',rfl,hello⟩

end Patches

def recordTypes : Nat → Bytes → List UInt8
  | 0,_ => []
  | fuel+1,b => if b.length < 5 then [] else byteAt b 0::recordTypes fuel (b.drop (5 + u16At b 3))

/- Handshake and CCS records only, and no more of them than the client takes. -/
structure Fits (records : Bytes) : Prop where
  types : ∀ typ ∈ recordTypes records.length records, typ = 0x16 ∨ typ = 0x14
  handshakes : (recordTypes records.length records).count 0x16 ≤ clientHandshakeMaxHandshakeRecords
  ccs : (recordTypes records.length records).count 0x14 ≤ clientHandshakeMaxCcsRecords

theorem flatLength (recs : List TlsRecord) : recs.length ≤ (flat recs).length := by
  induction recs with
  | nil => exact Nat.le_refl _
  | cons r rest ih =>
    have size := bytesLength r
    rw [show flat (r::rest) = r.bytes ++ flat rest from rfl,List.length_append,List.length_cons]
    omega

theorem typesFlat {recs : List TlsRecord} {fuel : Nat} (small : ∀ r ∈ recs, r.payload.length ≤ maxTlsRecordPayloadLen)
    (enough : recs.length ≤ fuel) : recordTypes fuel (flat recs) = recs.map TlsRecord.typ := by
  induction recs generalizing fuel with
  | nil => cases fuel <;> rfl
  | cons r rest ih =>
    cases fuel with
    | zero => contradiction
    | succ fuel =>
      have size := bytesLength r
      have split : flat (r::rest) = r.bytes ++ flat rest := rfl
      have long : ¬ (r.bytes ++ flat rest).length < 5 := by
        rw [List.length_append]
        omega
      rw [recordTypes,split,if_neg long,bytesLen (small r List.mem_cons_self),← size,List.drop_left,
        ih (fun q member => small q (List.mem_cons_of_mem _ member)) (by simpa using enough)]
      rfl

theorem xorInPlaceParts {b mask : Bytes} (whole : mask.length = 32) (long : 32 ≤ b.length) :
    (xorBytes (b.take 32) mask).length = 32 ∧ xorInPlace b mask = xorBytes (b.take 32) mask ++ b.drop 32 := by
  have front : (b.take 32).length = 32 := by rw [List.length_take,Nat.min_eq_left long]
  have size : (xorBytes (b.take 32) mask).length = 32 := by rw [xorLength (by omega),front]
  refine ⟨size,?_⟩
  rw [xorInPlace,put,size]
  rfl

theorem xorInPlaceLength (b mask : Bytes) : (xorInPlace b mask).length = b.length := by
  refine putLength ?_
  rw [xorBytes,List.length_zipWith,List.length_take]
  omega

theorem xorInPlaceTwice {b mask : Bytes} (whole : mask.length = 32) (long : 32 ≤ b.length) :
    xorInPlace (xorInPlace b mask) mask = b := by
  obtain ⟨size,parts⟩ := xorInPlaceParts whole long
  have longer : 32 ≤ (xorInPlace b mask).length := by
    rw [xorInPlaceLength]
    exact long
  have front : (xorInPlace b mask).take 32 = xorBytes (b.take 32) mask := by
    rw [parts]
    exact List.take_left' size
  have back : (xorInPlace b mask).drop 32 = b.drop 32 := by
    rw [parts]
    exact List.drop_left' size
  rw [(xorInPlaceParts whole longer).2,front,back,xorTwice _ _ (by rw [List.length_take]; omega),List.take_append_drop]

theorem ghostCountBack {count n : Nat} (small : count < 65536) (long : handshakeControlLen ≤ n) :
    ghostCountOf (put (List.replicate n 0) 0 (makeControlPayload count)) = count := by
  have magic : handshakeControlMagic = [0x4b,0x54,0x4c,0x31] := by decide
  have shape : put (List.replicate n 0) 0 (makeControlPayload count) =
      0x4b::0x54::0x4c::0x31::UInt8.ofNat (count / 256)::UInt8.ofNat count::(List.replicate n 0).drop 6 := by
    rw [makeControlPayload,magic]
    rfl
  have sized : handshakeControlLen ≤ (put (List.replicate n 0) 0 (makeControlPayload count)).length := by
    rw [putLength (by rw [List.length_replicate,makeControlPayload,magic]; exact long),List.length_replicate]
    exact long
  rw [ghostCountOf,if_pos ⟨sized,by rw [shape,magic]; rfl⟩,shape]
  exact fromToBeBytes small

section Client
variable (read : Bytes → Option Bytes) (serverEMask : Bytes) {s t : ClientLoop} {recs : List TlsRecord} {r : TlsRecord}

def counted (s : ClientLoop) (len : Nat) : ClientLoop :=
  { s with readState := ⟨s.readState.records + 1,s.readState.bytes + (5 + len)⟩ }

structure Room (s : ClientLoop) (count total : Nat) : Prop where
  records : s.readState.records + count ≤ clientHandshakeMaxRecords
  bytes : s.readState.bytes + total ≤ clientHandshakeMaxBytes

theorem clientTurn (small : r.payload.length ≤ maxTlsRecordPayloadLen) (fuel : Nat) (tail : Bytes)
    (room : Room s 1 (5 + r.payload.length)) :
    clientLoop read serverEMask (fuel + 1) (r.bytes ++ tail) s =
      settle tail (clientLoop read serverEMask fuel tail) (clientRecord read serverEMask r.typ r.bytes (counted s r.payload.length)) := by
  have got := @readRecord r handshakeLimits s.readState small tail
  have notFull : ¬ s.readState.records ≥ handshakeLimits.maxRecords := Nat.not_le.mpr room.records
  have notLong : ¬ s.readState.bytes + (5 + r.payload.length) > handshakeLimits.maxBytes := Nat.not_lt.mpr room.bytes
  rw [if_neg notFull,if_neg notLong] at got
  rw [clientLoop,got]
  rfl

theorem handshakeTurn (typ : r.typ = 0x16) (room : s.handshakeRecords + 1 ≤ clientHandshakeMaxHandshakeRecords) :
    clientRecord read serverEMask r.typ r.bytes s =
      .more { s with handshakeRecords := s.handshakeRecords + 1,foundServerHello := s.foundServerHello || isServerHello r.bytes } := by
  rw [clientRecord,if_pos typ]
  exact if_neg (Nat.not_lt.mpr room)

theorem ccsTurn (typ : r.typ = 0x14) (room : s.ccsRecords + 1 ≤ clientHandshakeMaxCcsRecords) :
    clientRecord read serverEMask r.typ r.bytes s = .more { s with ccsRecords := s.ccsRecords + 1 } := by
  rw [clientRecord,if_neg (by rw [typ]; decide),if_pos typ]
  exact if_neg (Nat.not_lt.mpr room)

theorem appDataTurn (typ : r.typ = 0x17) :
    clientRecord read serverEMask r.typ r.bytes s = clientAppData read serverEMask r.payload s := by
  rw [clientRecord,if_neg (by rw [typ]; decide),if_neg (by rw [typ]; decide),if_pos typ]
  rfl

theorem helloType (hello : isServerHello r.bytes = true) : r.typ = 0x16 := by
  rw [helloIff] at hello
  simp only [Bool.and_eq_true] at hello
  exact eq_of_beq hello.1.2

structure Passed (s t : ClientLoop) (count total : Nat) : Prop where
  records : t.readState.records = s.readState.records + count
  bytes : t.readState.bytes = s.readState.bytes + total

theorem Passed.then {u : ClientLoop} {a b m n : Nat} (one : Passed s t a m) (two : Passed t u b n) : Passed s u (a + b)
    (m + n) :=
  ⟨by rw [two.records,one.records,Nat.add_assoc],by rw [two.bytes,one.bytes,Nat.add_assoc]⟩

theorem flatCons (r : TlsRecord) (rest : List TlsRecord) : (flat (r::rest)).length = 5 + r.payload.length +
    (flat rest).length := by
  rw [show flat (r::rest) = r.bytes ++ flat rest from rfl,List.length_append,bytesLength]

theorem clientPasses (small : ∀ r ∈ recs, r.payload.length ≤ maxTlsRecordPayloadLen) (fuel : Nat) (tail : Bytes)
    (plain : ∀ r ∈ recs, r.typ = 0x16 ∨ r.typ = 0x14)
    (handshakes : s.handshakeRecords + (recs.map TlsRecord.typ).count 0x16 ≤ clientHandshakeMaxHandshakeRecords)
    (ccs : s.ccsRecords + (recs.map TlsRecord.typ).count 0x14 ≤ clientHandshakeMaxCcsRecords)
    (room : Room s recs.length (flat recs).length) :
    ∃ t, clientLoop read serverEMask (recs.length + fuel) (flat recs ++ tail) s = clientLoop read serverEMask fuel tail t ∧
      t.foundServerHello = (s.foundServerHello || recs.any (fun r => isServerHello r.bytes)) ∧
      t.appDataProbes = s.appDataProbes ∧ Passed s t recs.length (flat recs).length := by
  induction recs generalizing s with
  | nil =>
    refine ⟨s,?_,(Bool.or_false _).symm,rfl,rfl,rfl⟩
    rw [List.length_nil,Nat.zero_add]
    rfl
  | cons r rest ih =>
    have total := flatCons r rest
    obtain ⟨records,bytes⟩ := room
    rw [List.length_cons] at records
    rw [total] at bytes
    rw [List.map_cons,List.count_cons] at handshakes ccs
    obtain ⟨u,took,found,probes,passed,handshakes,ccs⟩ : ∃ u,
        clientRecord read serverEMask r.typ r.bytes (counted s r.payload.length) = .more u ∧
        u.foundServerHello = (s.foundServerHello || isServerHello r.bytes) ∧ u.appDataProbes = s.appDataProbes ∧
        Passed s u 1 (5 + r.payload.length) ∧
        u.handshakeRecords + (rest.map TlsRecord.typ).count 0x16 ≤ clientHandshakeMaxHandshakeRecords ∧
        u.ccsRecords + (rest.map TlsRecord.typ).count 0x14 ≤ clientHandshakeMaxCcsRecords := by
      rcases plain r List.mem_cons_self with typ | typ
      · rw [typ,if_pos (by decide)] at handshakes
        rw [typ,if_neg (by decide)] at ccs
        refine ⟨_,handshakeTurn read serverEMask typ ?_,rfl,rfl,⟨rfl,rfl⟩,?_,ccs⟩
        · show s.handshakeRecords + 1 ≤ _
          omega
        · show s.handshakeRecords + 1 + _ ≤ _
          omega
      · rw [typ,if_neg (by decide)] at handshakes
        rw [typ,if_pos (by decide)] at ccs
        have notHello : isServerHello r.bytes = false := by
          by_contra hello
          rw [Bool.not_eq_false] at hello
          exact absurd ((helloType hello).symm.trans typ) (by decide)
        refine ⟨_,ccsTurn read serverEMask typ ?_,?_,rfl,⟨rfl,rfl⟩,handshakes,?_⟩
        · show s.ccsRecords + 1 ≤ _
          omega
        · rw [notHello,Bool.or_false]
          rfl
        · show s.ccsRecords + 1 + _ ≤ _
          omega
    have turn := clientTurn read serverEMask (small r List.mem_cons_self) (rest.length + fuel) (flat rest ++ tail)
      (s := s) ⟨by omega,by omega⟩
    rw [took] at turn
    have rest' : Room u rest.length (flat rest).length := by
      refine ⟨?_,?_⟩
      · rw [passed.records]
        omega
      · rw [passed.bytes]
        omega
    obtain ⟨t,ran,found',probes',passed'⟩ := ih (fun q member => small q (List.mem_cons_of_mem _ member))
      (fun q member => plain q (List.mem_cons_of_mem _ member)) handshakes ccs rest'
    refine ⟨t,?_,?_,probes'.trans probes,?_⟩
    · rw [show flat (r::rest) = r.bytes ++ flat rest from rfl,List.append_assoc,List.length_cons,Nat.add_right_comm,turn]
      exact ran
    · rw [found',found,Bool.or_assoc,List.any_cons]
    · rw [total,List.length_cons,Nat.add_comm rest.length]
      exact passed.then passed'

/- The sampled records, when the client got past them: application data among them would
have stood in front of the ServerHello. -/
theorem clientPassed {fuel : Nat} {tail : Bytes} {result : Nat × Bytes}
    (small : ∀ r ∈ recs, r.payload.length ≤ maxTlsRecordPayloadLen)
    (order : recs.Pairwise (fun r later => isServerHello r.bytes = true → later.typ ≠ 0x17))
    (found : s.foundServerHello = true → ∀ r ∈ recs, r.typ ≠ 0x17)
    (handshakes : s.handshakeRecords ≤ clientHandshakeMaxHandshakeRecords) (ccs : s.ccsRecords ≤ clientHandshakeMaxCcsRecords)
    (ran : clientLoop read serverEMask fuel (flat recs ++ tail) s = .ok result) :
    (∀ r ∈ recs, r.typ = 0x16 ∨ r.typ = 0x14) ∧
    s.handshakeRecords + (recs.map TlsRecord.typ).count 0x16 ≤ clientHandshakeMaxHandshakeRecords ∧
    s.ccsRecords + (recs.map TlsRecord.typ).count 0x14 ≤ clientHandshakeMaxCcsRecords := by
  induction recs generalizing s fuel with
  | nil => exact ⟨fun r member => by contradiction,handshakes,ccs⟩
  | cons r rest ih =>
    have others : ∀ q ∈ rest, q.payload.length ≤ maxTlsRecordPayloadLen := fun q member => small q (List.mem_cons_of_mem _ member)
    obtain ⟨front,order⟩ := List.pairwise_cons.mp order
    cases fuel with
    | zero => contradiction
    | succ fuel =>
      have got := @readRecord r handshakeLimits s.readState (small r List.mem_cons_self) (flat rest ++ tail)
      rw [show flat (r::rest) = r.bytes ++ flat rest from rfl,List.append_assoc,clientLoop,got] at ran
      by_cases full : s.readState.records ≥ handshakeLimits.maxRecords
      · rw [if_pos full] at ran
        contradiction
      by_cases long : s.readState.bytes + (5 + r.payload.length) > handshakeLimits.maxBytes
      · rw [if_neg full,if_pos long] at ran
        contradiction
      rw [if_neg full,if_neg long] at ran
      change settle (flat rest ++ tail) (clientLoop read serverEMask fuel (flat rest ++ tail))
        (clientRecord read serverEMask r.typ r.bytes (counted s r.payload.length)) = .ok result at ran
      rw [List.map_cons,List.count_cons,List.count_cons]
      by_cases sixteen : r.typ = 0x16
      · by_cases more : s.handshakeRecords + 1 ≤ clientHandshakeMaxHandshakeRecords
        · rw [handshakeTurn read serverEMask (s := counted s r.payload.length) sixteen more] at ran
          obtain ⟨plain,count16,count14⟩ := @ih { counted s r.payload.length with
              handshakeRecords := s.handshakeRecords + 1
              foundServerHello := s.foundServerHello || isServerHello r.bytes } fuel others order (fun yes q member => by
            rcases Bool.or_eq_true_iff.mp yes with before | here
            · exact found before q (List.mem_cons_of_mem _ member)
            · exact front q member here) more ccs ran
          rw [sixteen,if_pos (by decide),if_neg (by decide)]
          refine ⟨fun q member => ?_,?_,count14⟩
          · rcases List.mem_cons.mp member with rfl | later
            · exact .inl sixteen
            · exact plain q later
          · change s.handshakeRecords + 1 + _ ≤ _ at count16
            omega
        · rw [clientRecord,if_pos sixteen] at ran
          dsimp only at ran
          rw [if_pos (show (counted s r.payload.length).handshakeRecords + 1 > _ from Nat.not_le.mp more)] at ran
          contradiction
      · by_cases fourteen : r.typ = 0x14
        · by_cases more : s.ccsRecords + 1 ≤ clientHandshakeMaxCcsRecords
          · rw [ccsTurn read serverEMask (s := counted s r.payload.length) fourteen more] at ran
            obtain ⟨plain,count16,count14⟩ := @ih { counted s r.payload.length with ccsRecords := s.ccsRecords + 1 } fuel others
              order (fun yes q member => found yes q (List.mem_cons_of_mem _ member)) handshakes more ran
            rw [fourteen,if_neg (by decide),if_pos (by decide)]
            refine ⟨fun q member => ?_,count16,?_⟩
            · rcases List.mem_cons.mp member with rfl | later
              · exact .inr fourteen
              · exact plain q later
            · change s.ccsRecords + 1 + _ ≤ _ at count14
              omega
          · rw [clientRecord,if_neg sixteen,if_pos fourteen] at ran
            dsimp only at ran
            rw [if_pos (show (counted s r.payload.length).ccsRecords + 1 > _ from Nat.not_le.mp more)] at ran
            contradiction
        · exfalso
          by_cases seventeen : r.typ = 0x17
          · have early : s.foundServerHello = false := by
              by_contra yes
              exact found (by simpa using yes) r List.mem_cons_self seventeen
            rw [appDataTurn read serverEMask seventeen,clientAppData] at ran
            have : (counted s r.payload.length).foundServerHello = false := early
            rw [this,if_neg Bool.false_ne_true] at ran
            contradiction
          · rw [clientRecord,if_neg sixteen,if_neg fourteen,if_neg seventeen] at ran
            contradiction

theorem clientProbes (fuel : Nat) (tail : Bytes) (typ : ∀ r ∈ recs, r.typ = 0x17)
    (small : ∀ r ∈ recs, r.payload.length ≤ maxTlsRecordPayloadLen)
    (random : ∀ r ∈ recs, read (xorInPlace r.payload serverEMask) = none) (found : s.foundServerHello = true)
    (probes : s.appDataProbes + recs.length ≤ clientHandshakeMaxAppDataProbes) (room : Room s recs.length (flat recs).length) :
    ∃ t, clientLoop read serverEMask (recs.length + fuel) (flat recs ++ tail) s = clientLoop read serverEMask fuel tail t ∧
      t.foundServerHello = true ∧ t.appDataProbes = s.appDataProbes + recs.length ∧ Passed s t recs.length (flat recs).length := by
  induction recs generalizing s with
  | nil =>
    refine ⟨s,?_,found,rfl,rfl,rfl⟩
    rw [List.length_nil,Nat.zero_add]
    rfl
  | cons r rest ih =>
    have total := flatCons r rest
    obtain ⟨records,bytes⟩ := room
    rw [List.length_cons] at records probes
    rw [total] at bytes
    have turn := clientTurn read serverEMask (small r List.mem_cons_self) (rest.length + fuel) (flat rest ++ tail)
      (s := s) ⟨by omega,by omega⟩
    have took : clientRecord read serverEMask r.typ r.bytes (counted s r.payload.length) =
        .more { counted s r.payload.length with appDataProbes := s.appDataProbes + 1 } := by
      rw [appDataTurn read serverEMask (typ r List.mem_cons_self),clientAppData,
        if_pos (show (counted s r.payload.length).foundServerHello = true from found)]
      dsimp only
      rw [if_neg (show ¬ (counted s r.payload.length).appDataProbes + 1 > _ from Nat.not_lt.mpr (by
        show s.appDataProbes + 1 ≤ _
        omega)),random r List.mem_cons_self]
      split <;> rfl
    rw [took] at turn
    obtain ⟨t,ran,found',probes',passed⟩ := @ih { counted s r.payload.length with appDataProbes := s.appDataProbes + 1 }
      (fun q member => typ q (List.mem_cons_of_mem _ member)) (fun q member => small q (List.mem_cons_of_mem _ member))
      (fun q member => random q (List.mem_cons_of_mem _ member)) found (by dsimp only; omega)
      ⟨by show s.readState.records + 1 + _ ≤ _; omega,by show s.readState.bytes + (5 + r.payload.length) + _ ≤ _; omega⟩
    refine ⟨t,?_,found',?_,?_⟩
    · rw [show flat (r::rest) = r.bytes ++ flat rest from rfl,List.append_assoc,List.length_cons,Nat.add_right_comm,turn]
      exact ran
    · rw [probes',List.length_cons]
      dsimp only
      omega
    · rw [total,List.length_cons,Nat.add_comm rest.length]
      exact Passed.then ⟨rfl,rfl⟩ passed

theorem clientResponse {reply plain : Bytes} (fuel : Nat) (tail : Bytes) (mask : serverEMask.length = 32)
    (long : 32 ≤ reply.length) (small : reply.length ≤ maxTlsRecordPayloadLen) (reads : read reply = some plain)
    (found : s.foundServerHello = true) (probes : s.appDataProbes + 1 ≤ clientHandshakeMaxAppDataProbes)
    (room : Room s 1 (5 + reply.length)) :
    clientLoop read serverEMask (fuel + 1) ((⟨0x17,0x03,0x03,xorInPlace reply serverEMask⟩ : TlsRecord).bytes ++ tail) s =
      .ok (ghostCountOf plain,tail) := by
  have again := xorInPlaceTwice mask long
  have size := xorInPlaceLength reply serverEMask
  have turn := clientTurn read serverEMask (r := ⟨0x17,0x03,0x03,xorInPlace reply serverEMask⟩) (s := s) (by
    dsimp only
    omega) fuel tail (by
    dsimp only
    rw [size]
    exact room)
  rw [turn,appDataTurn read serverEMask rfl,clientAppData,
    if_pos (show (counted s _).foundServerHello = true from found)]
  dsimp only
  rw [if_neg (show ¬ (counted s _).appDataProbes + 1 > _ from Nat.not_lt.mpr probes),if_neg (by omega),again,reads]
  rfl

theorem drained {limits : TlsRecordReadLimits} {i : Nat} {state : TlsRecordReadState} (typ : ∀ r ∈ recs, r.typ = 0x17)
    (small : ∀ r ∈ recs, r.payload.length ≤ maxTlsRecordPayloadLen) (records : state.records + recs.length ≤ limits.maxRecords)
    (bytes : state.bytes + recs.length * (5 + maxTlsRecordPayloadLen) ≤ limits.maxBytes) :
    drainGhosts limits recs.length i state (flat recs) = .ok [] := by
  induction recs generalizing i state with
  | nil => rfl
  | cons r rest ih =>
    have here := small r List.mem_cons_self
    have got := @readRecord r limits state here (flat rest)
    rw [List.length_cons] at records bytes
    rw [Nat.add_one_mul] at bytes
    rw [if_neg (by omega),if_neg (by omega)] at got
    rw [List.length_cons,drainGhosts,show flat (r::rest) = r.bytes ++ flat rest from rfl,got]
    dsimp only
    rw [if_neg (not_not.mpr (typ r List.mem_cons_self))]
    exact ih (fun q member => typ q (List.mem_cons_of_mem _ member)) (fun q member => small q (List.mem_cons_of_mem _ member))
      (by dsimp only; omega) (by dsimp only; omega)

end Client

theorem remainingSizes {sizes : List Nat} (count : sizes.length ≤ maxCamouflageAppDataRecords) :
    ∃ firstSize ghosts, remaining17Sizes sizes = firstSize::ghosts ∧ minNoiseResponseRecordLen ≤ firstSize ∧
      firstSize ≤ maxCamouflageAppDataRecordLen ∧ (∀ size ∈ ghosts, size ≤ maxCamouflageAppDataRecordLen) ∧ ghosts.length < 256 := by
  have inRange : ∀ size ∈ sanitizeWasteRecordSizes sizes, size ≤ maxCamouflageAppDataRecordLen := by
    intro size member
    have := (List.mem_filter.mp member).2
    simp only [plausibleSize,Bool.and_eq_true,decide_eq_true_eq] at this
    exact this.2
  have fewer : (sanitizeWasteRecordSizes sizes).length ≤ sizes.length := List.length_filter_le _ _
  unfold remaining17Sizes
  generalize sanitizeWasteRecordSizes sizes = sampled at inRange fewer
  dsimp only
  cases rest : sampled.dropWhile (· < minNoiseResponseRecordLen) with
  | nil =>
    refine ⟨_,[],rfl,?_,?_,fun size no => by contradiction,by decide⟩
    · unfold fallbackNoiseResponseRecordLen
      dsimp only
      split
      · rename_i large
        exact Nat.le_min.mpr ⟨large,by decide⟩
      · exact Nat.le_refl _
    · unfold fallbackNoiseResponseRecordLen
      dsimp only
      split
      · exact Nat.min_le_right _ _
      · decide
  | cons firstSize ghosts =>
    have sub : (firstSize::ghosts).Sublist sampled := rest ▸ List.dropWhile_sublist _
    have shorter := sub.length_le
    rw [List.length_cons] at shorter
    rw [maxCamouflageAppDataRecords] at count
    refine ⟨firstSize,ghosts,rfl,?_,inRange _ (sub.subset List.mem_cons_self),
      fun size member => inRange _ (sub.subset (List.mem_cons_of_mem _ member)),by omega⟩
    have stops := List.head_dropWhile_not (fun size : Nat => decide (size < minNoiseResponseRecordLen)) (l := sampled)
      (by rw [rest]; exact List.cons_ne_nil _ _)
    simp only [rest,List.head_cons,decide_eq_false_iff_not] at stops
    omega

theorem flatBound {recs : List TlsRecord} {limit : Nat} (small : ∀ r ∈ recs, r.payload.length ≤ limit) :
    (flat recs).length ≤ recs.length * (5 + limit) := by
  induction recs with
  | nil => exact Nat.zero_le _
  | cons r rest ih =>
    have here := small r List.mem_cons_self
    have later := ih (fun q member => small q (List.mem_cons_of_mem _ member))
    rw [flatCons,List.length_cons,Nat.add_one_mul]
    omega

theorem plainLength {recs : List TlsRecord} (plain : ∀ r ∈ recs, r.typ = 0x16 ∨ r.typ = 0x14) :
    recs.length = (recs.map TlsRecord.typ).count 0x16 + (recs.map TlsRecord.typ).count 0x14 := by
  induction recs with
  | nil => rfl
  | cons r rest ih =>
    have later := ih (fun q member => plain q (List.mem_cons_of_mem _ member))
    rw [List.length_cons,List.map_cons,List.count_cons,List.count_cons]
    rcases plain r List.mem_cons_self with typ | typ <;> rw [typ]
    · rw [if_pos (by decide),if_neg (by decide)]
      omega
    · rw [if_neg (by decide),if_pos (by decide)]
      omega

section Alike
variable {recs recs' : List TlsRecord}

theorem alikeTypes (alike : List.Forall₂ Alike recs recs') : recs'.map TlsRecord.typ = recs.map TlsRecord.typ := by
  induction alike with
  | nil => rfl
  | cons one _ ih => rw [List.map_cons,List.map_cons,one.typ,ih]

theorem alikeMem (alike : List.Forall₂ Alike recs recs') : ∀ r' ∈ recs', ∃ r ∈ recs, Alike r r' := by
  induction alike with
  | nil => exact fun r' no => by contradiction
  | cons one _ ih =>
    intro r' member
    rcases List.mem_cons.mp member with rfl | later
    · exact ⟨_,List.mem_cons_self,one⟩
    · obtain ⟨r,here,same⟩ := ih r' later
      exact ⟨r,List.mem_cons_of_mem _ here,same⟩

theorem alikeOrder (alike : List.Forall₂ Alike recs recs')
    (order : recs.Pairwise (fun r later => isServerHello r.bytes = true → later.typ ≠ 0x17)) :
    recs'.Pairwise (fun r later => isServerHello r.bytes = true → later.typ ≠ 0x17) := by
  induction alike with
  | nil => exact .nil
  | cons one others ih =>
    obtain ⟨front,order⟩ := List.pairwise_cons.mp order
    refine List.pairwise_cons.mpr ⟨fun q member hello => ?_,ih order⟩
    obtain ⟨p,here,same⟩ := alikeMem others q member
    rw [same.typ]
    exact front p here (one.hello ▸ hello)

theorem alikePlain (alike : List.Forall₂ Alike recs recs') :
    (∀ r ∈ recs', r.typ = 0x16 ∨ r.typ = 0x14) ↔ ∀ r ∈ recs, r.typ = 0x16 ∨ r.typ = 0x14 := by
  have types (some' : List TlsRecord) : (∀ r ∈ some', r.typ = 0x16 ∨ r.typ = 0x14) ↔
      ∀ typ ∈ some'.map TlsRecord.typ, typ = 0x16 ∨ typ = 0x14 := by simp
  rw [types,types,alikeTypes alike]

theorem alikeHello (alike : List.Forall₂ Alike recs recs') (hello : ∃ r ∈ recs, isServerHello r.bytes = true) :
    recs'.any (fun r => isServerHello r.bytes) = true := by
  induction alike with
  | nil => exact absurd hello (by rintro ⟨_,no,_⟩; contradiction)
  | cons one _ ih =>
    obtain ⟨r,member,isHello⟩ := hello
    rw [List.any_cons,Bool.or_eq_true_iff]
    rcases List.mem_cons.mp member with rfl | later
    · exact .inl (one.hello.trans isHello)
    · exact .inr (ih ⟨r,later,isHello⟩)

end Alike

theorem fitsFlat {recs : List TlsRecord} (small : ∀ r ∈ recs, r.payload.length ≤ maxTlsRecordPayloadLen) :
    Fits (flat recs) ↔ (∀ r ∈ recs, r.typ = 0x16 ∨ r.typ = 0x14) ∧
      (recs.map TlsRecord.typ).count 0x16 ≤ clientHandshakeMaxHandshakeRecords ∧
      (recs.map TlsRecord.typ).count 0x14 ≤ clientHandshakeMaxCcsRecords := by
  have types := typesFlat small (flatLength recs)
  constructor
  · rintro ⟨plain,handshakes,ccs⟩
    rw [types] at plain handshakes ccs
    exact ⟨fun r member => plain _ (List.mem_map_of_mem member),handshakes,ccs⟩
  · rintro ⟨plain,handshakes,ccs⟩
    refine ⟨?_,types ▸ handshakes,types ▸ ccs⟩
    rw [types]
    intro typ member
    obtain ⟨r,here,rfl⟩ := List.mem_map.mp member
    exact plain r here

theorem appDataRecords {sizes : List Nat} {draw : Nat → Nat → UInt8} {limit : Nat} (small : ∀ size ∈ sizes, size ≤ limit) :
    ∀ r ∈ sizes.mapIdx (fun k size => appDataRecord (draw k) size), r.typ = 0x17 ∧ r.payload.length ≤ limit := by
  intro r member
  obtain ⟨k,inside,rfl⟩ := List.mem_mapIdx.mp member
  refine ⟨rfl,?_⟩
  rw [appDataRecord,fillBytesLength]
  exact small _ (List.getElem_mem inside)

/- The response is so much longer than its plaintext, and the client's state reads what the
server's has written. -/
structure NoisePair (write read : Bytes → Option Bytes) : Prop where
  overhead : ∀ plain reply, write plain = some reply → reply.length = plain.length + noiseResponseOverheadLen
  undoes : ∀ plain reply, write plain = some reply → read reply = some plain

theorem clientRuns (read : Bytes → Option Bytes) (serverEMask : Bytes) {recs prefixes ghosts : List TlsRecord}
    {reply plain : Bytes}
    (mask : serverEMask.length = 32) (small : ∀ r ∈ recs, r.payload.length ≤ maxTlsRecordPayloadLen)
    (order : recs.Pairwise (fun r later => isServerHello r.bytes = true → later.typ ≠ 0x17))
    (hello : recs.any (fun r => isServerHello r.bytes) = true) (few : prefixes.length ≤ maxCamouflagePrefixAppDataRecords)
    (short : ∀ r ∈ prefixes, r.typ = 0x17 ∧ r.payload.length ≤ 53)
    (random : ∀ r ∈ prefixes, read (xorInPlace r.payload serverEMask) = none) (reads : read reply = some plain)
    (ghostCount : ghostCountOf plain = ghosts.length) (least : minNoiseResponseRecordLen ≤ reply.length)
    (most : reply.length ≤ maxCamouflageAppDataRecordLen)
    (ghostsOk : ∀ r ∈ ghosts, r.typ = 0x17 ∧ r.payload.length ≤ maxCamouflageAppDataRecordLen) :
    clientTunnel read serverEMask (flat recs ++ (flat prefixes ++
        ((⟨0x17,0x03,0x03,xorInPlace reply serverEMask⟩ : TlsRecord).bytes ++ flat ghosts))) = .ok (ghosts.length,[]) ↔
      (∀ r ∈ recs, r.typ = 0x16 ∨ r.typ = 0x14) ∧
      (recs.map TlsRecord.typ).count 0x16 ≤ clientHandshakeMaxHandshakeRecords ∧
      (recs.map TlsRecord.typ).count 0x14 ≤ clientHandshakeMaxCcsRecords := by
  rw [minNoiseResponseRecordLen,noiseResponseOverheadLen,handshakeControlLen] at least
  rw [maxCamouflageAppDataRecordLen] at most
  rw [maxCamouflagePrefixAppDataRecords] at few
  generalize response : (⟨0x17,0x03,0x03,xorInPlace reply serverEMask⟩ : TlsRecord) = noise
  constructor
  · intro ran
    cases looped : clientLoop read serverEMask ((flat recs ++ (flat prefixes ++ (noise.bytes ++ flat ghosts))).length + 1)
        (flat recs ++ (flat prefixes ++ (noise.bytes ++ flat ghosts))) {} with
    | error e =>
      rw [clientTunnel,looped] at ran
      contradiction
    | ok result =>
      have passed := clientPassed read serverEMask small order (fun no => by contradiction) (Nat.zero_le _) (Nat.zero_le _) looped
      rw [Nat.zero_add,Nat.zero_add] at passed
      exact passed
  · rintro ⟨plainTypes,handshakes,ccs⟩
    have nine : recs.length ≤ 9 := by
      have := plainLength plainTypes
      rw [clientHandshakeMaxHandshakeRecords] at handshakes
      rw [clientHandshakeMaxCcsRecords] at ccs
      omega
    have size := flatBound small
    have sizes := flatBound (fun r member => (short r member).2)
    have lengths := flatLength recs
    have lengths' := flatLength prefixes
    rw [maxTlsRecordPayloadLen] at size
    obtain ⟨fuel,enough⟩ : ∃ fuel, (flat recs ++ (flat prefixes ++ (noise.bytes ++ flat ghosts))).length + 1 =
        recs.length + (prefixes.length + (fuel + 1)) := by
      rw [List.length_append,List.length_append]
      exact ⟨(flat recs).length + ((flat prefixes).length + (noise.bytes ++ flat ghosts).length) - recs.length - prefixes.length,by omega⟩
    have room : Room {} recs.length (flat recs).length := by
      refine ⟨?_,?_⟩
      · show 0 + recs.length ≤ 64
        omega
      · show 0 + (flat recs).length ≤ 262144
        omega
    obtain ⟨t,first,found,probes,passed⟩ := clientPasses read serverEMask (s := {}) small (prefixes.length + (fuel + 1))
      (flat prefixes ++ (noise.bytes ++ flat ghosts)) plainTypes (by rw [Nat.zero_add]; exact handshakes)
      (by rw [Nat.zero_add]; exact ccs) room
    have foundTrue : t.foundServerHello = true := found.trans (by rw [hello,Bool.or_true])
    have records : t.readState.records = recs.length := passed.records.trans (Nat.zero_add _)
    have bytes : t.readState.bytes = (flat recs).length := passed.bytes.trans (Nat.zero_add _)
    have noProbes : t.appDataProbes = 0 := probes
    obtain ⟨u,second,found',probes',passed'⟩ := clientProbes read serverEMask (s := t) (fuel + 1) (noise.bytes ++ flat ghosts)
      (fun r member => (short r member).1) (fun r member => by
        have := (short r member).2
        rw [maxTlsRecordPayloadLen]
        omega) random foundTrue
      (by rw [noProbes,clientHandshakeMaxAppDataProbes]; omega) ⟨by rw [records,clientHandshakeMaxRecords]; omega,
        by rw [bytes,clientHandshakeMaxBytes]; omega⟩
    have third := clientResponse read serverEMask (s := u) fuel (flat ghosts) mask (by omega)
      (by rw [maxTlsRecordPayloadLen]; omega) reads found' (by rw [probes',noProbes,clientHandshakeMaxAppDataProbes]; omega)
      ⟨by rw [passed'.records,records,clientHandshakeMaxRecords]; omega,
        by rw [passed'.bytes,bytes,clientHandshakeMaxBytes]; omega⟩
    rw [response,ghostCount] at third
    have fourth := @drained ghosts ⟨ghosts.length,ghosts.length * (5 + maxTlsRecordPayloadLen)⟩ 0 {}
      (fun r member => (ghostsOk r member).1)
      (fun r member => by
        have := (ghostsOk r member).2
        rw [maxCamouflageAppDataRecordLen] at this
        rw [maxTlsRecordPayloadLen]
        omega) (Nat.le_of_eq (Nat.zero_add _))
      (Nat.le_of_eq (Nat.zero_add _))
    rw [clientTunnel,enough,first,second,third]
    show (drainGhosts _ ghosts.length 0 {} (flat ghosts)).bind (fun rest => .ok (ghosts.length,rest)) = _
    rw [fourth]
    rfl

section Flight
variable {write read : Bytes → Option Bytes} {serverEMask : Bytes} {draws : ServerDraws}

theorem responseRecords (noise : NoisePair write read) {sizes : List Nat} {records : List TlsRecord}
    (count : sizes.length ≤ maxCamouflageAppDataRecords)
    (built : buildNoiseResponseSequence write serverEMask draws (remaining17Sizes sizes) = some records) :
    ∃ reply plain ghosts, records = ⟨0x17,0x03,0x03,xorInPlace reply serverEMask⟩::ghosts ∧ read reply = some plain ∧
      ghostCountOf plain = ghosts.length ∧ (remaining17Sizes sizes).length - 1 = ghosts.length ∧
      minNoiseResponseRecordLen ≤ reply.length ∧ reply.length ≤ maxCamouflageAppDataRecordLen ∧
      ∀ r ∈ ghosts, r.typ = 0x17 ∧ r.payload.length ≤ maxCamouflageAppDataRecordLen := by
  obtain ⟨firstSize,ghosts,remaining,least,most,small,few⟩ := remainingSizes count
  rw [remaining,buildNoiseResponseSequence] at built
  dsimp only at built
  obtain ⟨long,built⟩ := Option.ite_none_left_eq_some.mp built
  obtain ⟨reply,wrote,built⟩ := Option.bind_eq_some_iff.mp built
  obtain ⟨_,built⟩ := Option.ite_none_left_eq_some.mp built
  have size := noise.overhead _ _ wrote
  have control : (makeControlPayload ghosts.length).length = handshakeControlLen := rfl
  rw [putLength (by rw [List.length_replicate,control]; omega),List.length_replicate] at size
  rw [minNoiseResponseRecordLen] at least
  have exact' : reply.length = firstSize := by omega
  refine ⟨reply,_,_,(Option.some.inj built).symm,noise.undoes _ _ wrote,?_,?_,?_,?_,appDataRecords small⟩
  · rw [ghostCountBack (by omega) (by omega),List.length_mapIdx]
  · rw [remaining,List.length_cons,List.length_mapIdx,Nat.add_sub_cancel]
  · rw [exact']
    exact least
  · rw [exact']
    exact most

/- For every profile that the sampler returns and the patches accept: the client finds the
Noise response, drains the ghosts and stops at the last byte exactly when the sampled
records in front are those it takes. -/
theorem flightFits {fast : Bool} {expected : Option Nat} {clock : Nat → Nat} {endpoint clientHello serverRecords : Bytes}
    {p : CamouflageProfile} {appRecords : List TlsRecord} (noise : NoisePair write read) (mask : serverEMask.length = 32)
    (sampled : readCamouflageServerRecords fast expected clock endpoint = some p)
    (established : establishSyntheticCamouflageTunnel write serverEMask clientHello draws p = some (serverRecords,
      appRecords))
    (random : ∀ r ∈ prefixRecords draws p.prefixAppDataSizes, read (xorInPlace r.payload serverEMask) = none) :
    clientTunnel read serverEMask (serverRecords ++ flat appRecords) = .ok ((remaining17Sizes p.appDataSizes).length - 1,[]) ↔
      Fits p.serverRecords := by
  obtain ⟨s,looped,sampled⟩ := Option.bind_eq_some_iff.mp sampled
  obtain ⟨_,sampled⟩ := Option.ite_none_left_eq_some.mp sampled
  obtain ⟨⟨recs,isFlat,small,order,_⟩,prefixCount,prefixSmall,sizes⟩ := loopOk initialOk looped
  cases Option.some.inj sampled
  obtain ⟨id,_,established⟩ := Option.bind_eq_some_iff.mp established
  obtain ⟨patched,patch,established⟩ := Option.bind_eq_some_iff.mp established
  obtain ⟨response,built,established⟩ := Option.bind_eq_some_iff.mp established
  cases Option.some.inj established
  dsimp only at patch built random ⊢
  rw [isFlat] at patch ⊢
  obtain ⟨recs',alike,rfl,hello⟩ := recordsPatched small patch
  obtain ⟨reply,plain,ghosts,rfl,reads,ghostCount,number,least,most,ghostsOk⟩ := responseRecords noise sizes built
  have small' := alikeSmall alike small
  have split : flat (prefixRecords draws s.prefixAppDataSizes ++ ⟨0x17,0x03,0x03,xorInPlace reply serverEMask⟩::ghosts) =
      flat (prefixRecords draws s.prefixAppDataSizes) ++
        ((⟨0x17,0x03,0x03,xorInPlace reply serverEMask⟩ : TlsRecord).bytes ++ flat ghosts) := by
    rw [flat,List.flatMap_append,List.flatMap_cons]
    rfl
  have prefixOk := @appDataRecords s.prefixAppDataSizes draws.prefixByte 53 (fun size member => Nat.le_of_lt_succ (prefixSmall size member))
  have prefixLength : (prefixRecords draws s.prefixAppDataSizes).length = s.prefixAppDataSizes.length := List.length_mapIdx
  change ∀ r ∈ prefixRecords draws s.prefixAppDataSizes, _ at prefixOk
  rw [fitsFlat small,← alikePlain alike,← alikeTypes alike,number,split]
  exact clientRuns read serverEMask mask small' (alikeOrder alike order) (alikeHello alike hello)
    (by rw [prefixLength]; exact prefixCount) prefixOk random reads ghostCount least most ghostsOk

end Flight

theorem fitsIff (records : Bytes) :
    ((recordTypes records.length records).all (fun typ => typ == 0x16 || typ == 0x14) = true ∧
      (recordTypes records.length records).count 0x16 ≤ clientHandshakeMaxHandshakeRecords ∧
      (recordTypes records.length records).count 0x14 ≤ clientHandshakeMaxCcsRecords) ↔ Fits records := by
  constructor
  · rintro ⟨types,handshakes,ccs⟩
    refine ⟨fun typ member => ?_,handshakes,ccs⟩
    simpa using List.all_eq_true.mp types typ member
  · intro fits
    refine ⟨List.all_eq_true.mpr (fun typ member => ?_),fits.handshakes,fits.ccs⟩
    simpa using fits.types typ member

instance (records : Bytes) : Decidable (Fits records) := decidable_of_iff _ (fitsIff records)

def sampleEndpoint (ccs : Nat) : Bytes :=
  [0x16,0x03,0x03,0x00,0x74,0x02,0x00,0x00,0x70,0x03,0x03] ++ List.replicate 32 1 ++ [32] ++ List.replicate 32 2 ++
  [0x13,0x01,0x00,0x00,0x28,0x00,0x33,0x00,0x24,0x00,0x1d,0x00,0x20] ++ List.replicate 32 3 ++
  (List.replicate ccs [0x14,0x03,0x03,0x00,0x01,0x01]).flatten ++
  ([0x17,0x03,0x03,0x00,0x28] ++ List.replicate 40 4) ++ ([0x17,0x03,0x03,0x00,0x64] ++ List.replicate 100 5) ++
  ([0x17,0x03,0x03,0x00,0x3c] ++ List.replicate 60 6)

def sampleServerDraws : ServerDraws where
  random _ := 7
  x25519 := some (List.replicate 32 8)
  p256 := none
  mlkem _ := 0
  prefixByte _ _ := 9
  ghostByte _ _ := 10

def sampleWrite (plain : Bytes) : Option Bytes := some (plain ++ List.replicate 48 11)

def sampleRead (reply : Bytes) : Option Bytes :=
  if reply.drop (reply.length - 48) = List.replicate 48 11 then some (reply.take (reply.length - 48)) else none

theorem sampleNoise : NoisePair sampleWrite sampleRead := by
  constructor
  · intro plain reply wrote
    rw [← Option.some.inj wrote,List.length_append,List.length_replicate]
    rfl
  · intro plain reply wrote
    have size : (plain ++ List.replicate 48 (11 : UInt8)).length - 48 = plain.length := by
      rw [List.length_append,List.length_replicate,Nat.add_sub_cancel]
    rw [← Option.some.inj wrote,sampleRead,size,List.drop_left,if_pos rfl,List.take_left]

theorem flightFitsSample : ∃ p serverRecords appRecords,
    readCamouflageServerRecords false none (fun n => 1000 * n) (sampleEndpoint 1) = some p ∧
    establishSyntheticCamouflageTunnel sampleWrite (List.replicate 32 12) sampleHello sampleServerDraws p =
      some (serverRecords,appRecords) ∧
    clientTunnel sampleRead (List.replicate 32 12) (serverRecords ++ flat appRecords) =
      .ok ((remaining17Sizes p.appDataSizes).length - 1,[]) ∧ Fits p.serverRecords := by
  have ran : (readCamouflageServerRecords false none (fun n => 1000 * n) (sampleEndpoint 1)).any (fun p =>
      Fits p.serverRecords ∧ (prefixRecords sampleServerDraws p.prefixAppDataSizes).all (fun r =>
        sampleRead (xorInPlace r.payload (List.replicate 32 12)) = none) = true ∧
      (establishSyntheticCamouflageTunnel sampleWrite (List.replicate 32 12) sampleHello sampleServerDraws p).isSome = true) = true := by
    decide +kernel
  obtain ⟨p,sampled,here⟩ := (Option.any_eq_true _ _).mp ran
  obtain ⟨fits,random,established⟩ := of_decide_eq_true here
  obtain ⟨⟨serverRecords,appRecords⟩,established⟩ := Option.isSome_iff_exists.mp established
  have silent : ∀ r ∈ prefixRecords sampleServerDraws p.prefixAppDataSizes,
      sampleRead (xorInPlace r.payload (List.replicate 32 12)) = none := by simpa using random
  exact ⟨p,serverRecords,appRecords,sampled,established,
    (flightFits sampleNoise List.length_replicate sampled established silent).mpr fits,fits⟩

theorem secondCcsRefused : NoisePair sampleWrite sampleRead ∧ ∃ p serverRecords appRecords,
    readCamouflageServerRecords false none (fun n => 1000 * n) (sampleEndpoint 2) = some p ∧
    establishSyntheticCamouflageTunnel sampleWrite (List.replicate 32 12) sampleHello sampleServerDraws p =
      some (serverRecords,appRecords) ∧
    (∀ r ∈ prefixRecords sampleServerDraws p.prefixAppDataSizes, sampleRead (xorInPlace r.payload (List.replicate 32 12)) = none) ∧
    clientTunnel sampleRead (List.replicate 32 12) (serverRecords ++ flat appRecords) = .error .tooManyCcsRecords := by
  have ran : (readCamouflageServerRecords false none (fun n => 1000 * n) (sampleEndpoint 2)).any (fun p =>
      (prefixRecords sampleServerDraws p.prefixAppDataSizes).all (fun r =>
        sampleRead (xorInPlace r.payload (List.replicate 32 12)) = none) = true ∧
      (establishSyntheticCamouflageTunnel sampleWrite (List.replicate 32 12) sampleHello sampleServerDraws p).any (fun flight =>
        clientTunnel sampleRead (List.replicate 32 12) (flight.1 ++ flat flight.2) = .error .tooManyCcsRecords) = true) = true := by
    decide +kernel
  obtain ⟨p,sampled,here⟩ := (Option.any_eq_true _ _).mp ran
  obtain ⟨random,flown⟩ := of_decide_eq_true here
  obtain ⟨⟨serverRecords,appRecords⟩,established,refused⟩ := (Option.any_eq_true _ _).mp flown
  exact ⟨sampleNoise,p,serverRecords,appRecords,sampled,established,by simpa using random,of_decide_eq_true refused⟩

end KanoTls.Camouflage
