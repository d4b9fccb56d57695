import KanoTls.ReceiveOrder

/-! Completeness of what a stream's reads return. Three of the four places that may
refuse a payload (before accept, before SYNACK, on migration into the live stream)
let the stream go on without it; only the fourth closes the stream. -/
namespace KanoTls.Receive
open Pending Session

/- No payload is dropped while its stream lives on, the pop stays behind the channel,
and a local teardown empties the pending queue only between two deliveries. -/
structure NoHole (v : View) (e : Event) : Prop where
  kept : e ≠ .dropOpen ∧ e ≠ .dropPreSynack ∧ e ≠ .dropMigrate
  behind : PopsBehindChannel v e
  between : e = .tearData → v.pc.any HandlerPc.delivering = false

instance (v : View) (e : Event) : Decidable (NoHole v e) :=
  decidable_of_iff ((e ≠ .dropOpen ∧ e ≠ .dropPreSynack ∧ e ≠ .dropMigrate) ∧ PopsBehindChannel v e ∧
      (e = .tearData → v.pc.any HandlerPc.delivering = false))
    ⟨fun ⟨a,b,c⟩ => ⟨a,b,c⟩,fun ⟨a,b,c⟩ => ⟨a,b,c⟩⟩

structure Whole (v : View) : Prop where
  delivered : v.st.delivered <+: v.st.arrived
  core : v.st.reader.pc ≠ .gone → v.core <+: v.st.arrived
  full : v.st.reader.pc ≠ .gone → v.live = true → v.core ++ v.hand = v.st.arrived

theorem wholeKept {client v e w} (shape : Shape client v) (whole : Whole v) (ok : NoHole v e)
    (m : Move client v e w) : Whole w := by
  have shape' := shapeKept shape m
  by_cases gone : w.st.reader.pc = .gone
  · refine ⟨?_,fun alive => absurd gone alive,fun alive => absurd gone alive⟩
    rw [goneDelivered m gone]
    exact whole.delivered.trans (arrivedGrows shape m)
  have reading : v.st.reader.pc ≠ .gone := fun was => gone (goneStays shape m was)
  have core := whole.core reading
  have full := whole.full reading
  have both : w.core <+: w.st.arrived ∧ (w.live = true → w.core ++ w.hand = w.st.arrived) := by
    cases opened : w.st.opened with
    | false =>
      obtain ⟨empty,_,dead⟩ := untouchedLine shape' opened
      rw [empty,dead]
      exact ⟨List.nil_prefix,(by simp)⟩
    | true =>
      rcases shift shape ok.behind m opened with ⟨c,h,a,alive⟩ | ⟨payload,c,before,h,a,alive⟩ | ⟨c,h,a,was⟩ |
        ⟨c,h,a,lost⟩ | ⟨c,h,a,lost⟩ | ⟨lost,_,_,_,_⟩ | ⟨away,_,_,_,_⟩ | ⟨fresh,c,a⟩
      · rw [c,h,a]
        exact ⟨core,fun live => full (alive live)⟩
      · rw [c,h,a]
        refine ⟨core.trans (List.prefix_append _ _),fun live => ?_⟩
        have was := full (alive live)
        rw [before,List.append_nil] at was
        rw [was]
      · rw [c,h,a,List.append_nil,full was]
        exact ⟨List.prefix_rfl,fun _ => rfl⟩
      · rw [c,a]
        refine ⟨core,fun live => ?_⟩
        rcases lost with open' | pre | dead
        · exact absurd open' ok.kept.1
        · exact absurd pre ok.kept.2.1
        · exact absurd (dead.symm.trans live) Bool.false_ne_true
      · rw [a]
        refine ⟨c.trans core,fun live => ?_⟩
        rcases lost with dead | ⟨tear,delivering⟩
        · exact absurd (dead.symm.trans live) Bool.false_ne_true
        · exact absurd (delivering.symm.trans (ok.between tear)) Bool.false_ne_true.symm
      · exact absurd lost ok.kept.2.2
      · exact absurd away gone
      · rw [c,a]
        exact ⟨List.nil_prefix,fun _ => rfl⟩
  exact ⟨(deliveredInCore w).trans both.1,fun _ => both.1,fun _ => both.2⟩

theorem runWhole {client max sid s} (reach : Run (Meets sid NoHole) client max s) : Whole (view s sid) := by
  have both : Shape client (view s sid) ∧ Whole (view s sid) := by
    refine streamInvariant (I := fun v => Shape client v ∧ Whole v) ?_ ?_ reach
    · have shape := shapeStart client max sid
      obtain ⟨core,delivered,dead⟩ := untouchedLine shape rfl
      refine ⟨shape,?_,?_,?_⟩
      · rw [delivered]
        exact List.nil_prefix
      · rw [core]
        exact fun _ => List.nil_prefix
      · rw [dead]
        exact fun _ live => absurd live Bool.false_ne_true
    · intro v e w known ok m
      exact ⟨shapeKept known.1 m,wholeKept known.1 known.2 ok m⟩
  exact both.2

structure Quiet (s : Session) : Prop where
  client : s.isClient = true
  plain : s.peerFlowControl = false
  loop : s.loop = none
  dataLock : s.dataLock = none
  finLock : s.finLock = none
  pre : s.pendingOpen = {}

def Unanswered (s : Session) (sid : StreamId) : Prop :=
  (s.stream sid).opened = true ∧ (s.stream sid).handle = some ⟨true,false⟩

def preSynackPsh (sid : StreamId) (payload : Payload) : List Action :=
  [.frame (.psh sid payload) true,.loop,.loop,.acquire .loop,.loop]

theorem preSynackStored {s : Session} {sid : StreamId} {payload : Payload} {d : PendingData}
    (quiet : Quiet s) (waits : Unanswered s sid)
    (stored : storePendingData false s.pendingData sid payload = some d) :
    ∃ t, Machine.Reach step Machine.Always s t ∧ Quiet t ∧ t.pendingData = d ∧
      (∀ k, k ≠ sid → t.stream k = s.stream k) ∧
      t.stream sid = Stream.accepting {s.stream sid with arrived := (s.stream sid).arrived ++ [payload]} payload := by
  obtain ⟨client,plain,loop,dataLock,finLock,pre⟩ := quiet
  have ran : Machine.checked step Machine.Always s (preSynackPsh sid payload) = some {s.setStream sid
      (Stream.accepting {s.stream sid with arrived := (s.stream sid).arrived ++ [payload]} payload) with
        pendingData := d} := by
    simp [Machine.checked,preSynackPsh,Machine.Always,step,loop,handleFrame,waits.1,goto,setStream,loopStep,pshStep,
      pre,PendingOpenStreams.contains,waits.2,client,acquire,wantsData,dataLock,HandlerPc.wantsData,plain,stored,handled]
  refine ⟨_,Machine.checkedReach ran,⟨client,plain,loop,dataLock,finLock,pre⟩,rfl,?_,?_⟩
  · intro k different
    simp [setStream,different]
  · simp [setStream]

theorem preSynackRefused {s : Session} {sid : StreamId} {payload : Payload}
    (quiet : Quiet s) (waits : Unanswered s sid)
    (refused : storePendingData false s.pendingData sid payload = none) :
    ∃ t, Machine.Reach step Machine.Always s t ∧ Quiet t ∧ t.pendingData = s.pendingData ∧
      t.stream sid = {s.stream sid with arrived := (s.stream sid).arrived ++ [payload]} := by
  obtain ⟨client,plain,loop,dataLock,finLock,pre⟩ := quiet
  have ran : Machine.checked step Machine.Always s (preSynackPsh sid payload) = some (s.setStream sid
      {s.stream sid with arrived := (s.stream sid).arrived ++ [payload]}) := by
    simp [Machine.checked,preSynackPsh,Machine.Always,step,loop,handleFrame,waits.1,goto,setStream,loopStep,pshStep,
      pre,PendingOpenStreams.contains,waits.2,client,acquire,wantsData,dataLock,HandlerPc.wantsData,plain,refused,handled]
  exact ⟨_,Machine.checkedReach ran,⟨client,plain,loop,dataLock,finLock,pre⟩,rfl,by simp [setStream]⟩

theorem filled {s : Session} {sid : StreamId} (payload : Payload) (n : Nat) (quiet : Quiet s)
    (waits : Unanswered s sid) (absent : s.pendingData.contains sid = false)
    (few : s.pendingData.len < maxPendingStreams)
    (room : s.pendingData.totalBytes + n*payload.length ≤ maxPendingStreamBytes)
    (most : n*payload.length ≤ maxStreamOverflowBytes) (short : n ≤ maxPendingStreamFrames) :
    ∃ t, Machine.Reach step Machine.Always s t ∧ Quiet t ∧ (∀ k, k ≠ sid → t.stream k = s.stream k) ∧
      Unanswered t sid ∧ t.pendingData.totalBytes = s.pendingData.totalBytes + n*payload.length ∧
      t.pendingData.streamBytes sid = n*payload.length ∧ t.pendingData.streamFrames sid = n ∧
      t.pendingData.len ≤ s.pendingData.len + 1 ∧ (t.pendingData.contains sid = false → t.pendingData = s.pendingData) ∧
      ∀ k, k ≠ sid → t.pendingData.contains k = s.pendingData.contains k := by
  induction n with
  | zero =>
    obtain ⟨bytes,frames⟩ := PendingData.absentCounts absent
    refine ⟨s,.start,quiet,fun _ _ => rfl,waits,?_,?_,frames,by omega,fun _ => rfl,fun _ _ => rfl⟩
    · rw [Nat.zero_mul,Nat.add_zero]
    · rw [Nat.zero_mul,bytes]
  | succ n ih =>
    rw [Nat.succ_mul] at room most
    obtain ⟨t,reach,quiet',same,waits',total,bytes,frames,len,fresh,others⟩ := ih (by omega) (by omega) (by omega)
    have stored : storePendingData false t.pendingData sid payload = some (t.pendingData.pushBack sid payload) := by
      unfold storePendingData
      rw [if_neg (by omega),if_neg,if_neg,if_neg (by omega)]
      · rw [bytes,overflowLimit,if_neg Bool.false_ne_true]
        omega
      · rintro ⟨missing,many⟩
        rw [fresh (by simpa using missing)] at many
        omega
    obtain ⟨u,later,quiet'',data,same',here⟩ := preSynackStored quiet' waits' stored
    refine ⟨u,Machine.reachAfter reach later,quiet'',?_,?_,?_,?_,?_,?_,?_,?_⟩
    · intro k different
      rw [same' k different,same k different]
    · unfold Unanswered
      rw [here]
      exact waits'
    · rw [data,Nat.succ_mul,← Nat.add_assoc,← total]
      rfl
    · rw [data,PendingData.bytesPush,bytes,Nat.succ_mul]
    · rw [data,PendingData.framesPush,frames]
    · rw [data,PendingData.lenPush]
      split
      · exact len
      · rename_i missing
        rw [fresh (by simpa using missing)]
    · intro missing
      rw [data,PendingData.containsPushSame] at missing
      contradiction
    · intro k different
      rw [data,PendingData.containsPushOther _ _ different,others k different]

def pendingRead (sid : StreamId) : List Action :=
  [.read sid,.reader sid,.reader sid,.reader sid,.reader sid,.reader sid,.reader sid]

theorem lastRead {s : Session} {sid : StreamId} {payload : Payload} (quiet : Quiet s)
    (idle : (s.stream sid).reader.pc = .idle) (empty : (s.stream sid).data = [])
    (found : s.pendingData.items sid = [payload]) :
    ∃ t, Machine.Reach step Machine.Always s t ∧
      (t.stream sid).delivered = (s.stream sid).delivered ++ [payload] ∧
      (t.stream sid).arrived = (s.stream sid).arrived := by
  obtain ⟨client,plain,loop,dataLock,finLock,pre⟩ := quiet
  obtain ⟨next,popped,drained⟩ := PendingData.popFrontLast found
  have ran : (Machine.checked step Machine.Always s (pendingRead sid)).any (fun t =>
      decide ((t.stream sid).delivered = (s.stream sid).delivered ++ [payload] ∧
        (t.stream sid).arrived = (s.stream sid).arrived)) = true := by
    simp [Machine.checked,pendingRead,Machine.Always,step,readerStep,idle,empty,Stream.setPc,setStream,dataLock,
      popped,client,drained,finLock,finishDrain,Stream.returnSome]
  obtain ⟨t,reach,here⟩ := Machine.checkedReaches ran
  exact ⟨t,reach,of_decide_eq_true here⟩

/- The largest payload a frame carries. Two streams with 512 of them each leave
room for 1024 more bytes, so a third stream loses a large payload and keeps the
small one behind it. -/
def fullPayload : Payload := List.replicate 65535 0

def threeStreams : Session :=
  (Machine.checked step Machine.Always (start true 8) [.openStream 1,.openStream 2,.openStream 3]).getD (start true 8)

end KanoTls.Receive
