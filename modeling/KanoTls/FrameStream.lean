import KanoTls.Frame
import KanoTls.LinkFlow

/-! The frames of `frame.rs` over a byte stream that marks no boundaries: the decoder on
its one buffer, the splitter of PSH data and the coalescer of encoded frames. -/
namespace KanoTls.Wire
open Pending Uot

/- `Frame::decode` on the buffer it advances. Large payloads are split off and small ones
copied; the bytes are the same. -/
def decodeBuffer (src : Bytes) : Option Frame × Bytes :=
  if src.length < frameHeaderSize then (none,src)
  else
    let cmd := src.getD 0 0
    let sid := sidOf (src.getD 1 0) (src.getD 2 0) (src.getD 3 0) (src.getD 4 0)
    let dataLen := fromBeBytes (src.getD 5 0) (src.getD 6 0)
    if src.length < frameHeaderSize + dataLen then (none,src)
    else
      let body := src.drop frameHeaderSize
      (some ⟨cmd,sid,body.take dataLen,sidOfSmall _ _ _ _,by
        have := fromBeBytesSmall (src.getD 5 0) (src.getD 6 0)
        simp only [List.length_take,maxPayloadLen]
        omega⟩,body.drop dataLen)

/- `while let Some(frame) = Frame::decode(&mut buf)`. -/
def drain : Nat → Bytes → List Frame × Bytes
  | 0,buf => ([],buf)
  | fuel+1,buf =>
    match decodeBuffer buf with
    | (none,buf) => ([],buf)
    | (some frame,buf) =>
      let later := drain fuel buf
      (frame::later.1,later.2)

/- The read loop: each chunk is appended to what is left and drained. -/
def feed (buf : Bytes) : List Bytes → List Frame × Bytes
  | [] => ([],buf)
  | chunk::rest =>
    let now := drain (buf ++ chunk).length (buf ++ chunk)
    let later := feed now.2 rest
    (now.1 ++ later.1,later.2)

def encodePshInto (dst : Bytes) (sid : Nat) (payload : Bytes) : Option Bytes :=
  if payload.length > maxPayloadLen then none
  else some (dst ++ cmdPsh::(sidBytes sid ++ toBeBytes payload.length ++ payload))

def encodePshFrames (sid : Nat) (data : Bytes) : Option (List Bytes) :=
  (Link.chunks data.length data).mapM (encodePshInto [] sid)

/- `coalesce_encoded_frames` past its shortcut for a single frame; `current` is the packet
under way. -/
def coalesceFrom (maxPacketLen : Nat) (current : Bytes) : List Bytes → List Bytes
  | [] => if current = [] then [] else [current]
  | frame::rest =>
    if frame.length > maxPacketLen then
      (if current = [] then [] else [current]) ++ frame::coalesceFrom maxPacketLen [] rest
    else if current.length + frame.length > maxPacketLen ∧ current ≠ [] then
      current::coalesceFrom maxPacketLen frame rest
    else coalesceFrom maxPacketLen (current ++ frame) rest

def coalesceEncodedFrames (frames : List Bytes) (maxPacketLen : Nat) : List Bytes :=
  match frames with
  | [frame] => if frame = [] then coalesceFrom maxPacketLen [] frames else frames
  | _ => coalesceFrom maxPacketLen [] frames

section Decode

theorem decodeBufferEq (src : Bytes) : decodeBuffer src =
    match decode src with
    | none => (none,src)
    | some (frame,rest) => (some frame,rest) := by
  rcases src with _ | ⟨cmd,_ | ⟨a,_ | ⟨b,_ | ⟨c,_ | ⟨d,_ | ⟨high,_ | ⟨low,rest⟩⟩⟩⟩⟩⟩⟩ <;> try rfl
  unfold decodeBuffer decode
  have long : ¬ (cmd::a::b::c::d::high::low::rest).length < frameHeaderSize := by
    simp only [List.length_cons,frameHeaderSize]
    omega
  have same : (cmd::a::b::c::d::high::low::rest).length < frameHeaderSize + fromBeBytes high low ↔
      rest.length < fromBeBytes high low := by
    simp only [List.length_cons,frameHeaderSize]
    omega
  rw [if_neg long]
  dsimp only
  by_cases short : rest.length < fromBeBytes high low
  · rw [if_pos short]
    exact if_pos (same.mpr short)
  · rw [if_neg short]
    exact if_neg (fun here => short (same.mp here))

theorem decodeBufferNone {src : Bytes} (none : (decodeBuffer src).1 = none) : (decodeBuffer src).2 = src := by
  rw [decodeBufferEq] at none ⊢
  cases found : decode src with
  | none => rfl
  | some pair =>
    rw [found] at none
    contradiction

theorem drainEq (fuel : Nat) (buf : Bytes) : drain fuel buf = decodeUpTo fuel buf := by
  induction fuel generalizing buf with
  | zero => rfl
  | succ fuel ih =>
    rw [drain,decodeUpTo,decodeBufferEq]
    cases decode buf with
    | none => rfl
    | some pair =>
      dsimp only
      rw [ih]

theorem decodeLess {bytes rest : Bytes} {f : Frame} (found : decode bytes = some (f,rest)) : rest.length < bytes.length := by
  unfold decode at found
  split at found
  · split at found
    · contradiction
    · cases Option.some.inj found
      simp only [List.length_drop,List.length_cons]
      omega
  · contradiction

theorem drainStops (fuel : Nat) (buf : Bytes) (enough : buf.length ≤ fuel) : decode (drain fuel buf).2 = none := by
  rw [drainEq]
  induction fuel generalizing buf with
  | zero =>
    rw [List.length_eq_zero_iff.mp (Nat.le_zero.mp enough)]
    rfl
  | succ fuel ih =>
    rw [decodeUpTo]
    cases found : decode buf with
    | none => exact found
    | some pair =>
      have less := decodeLess found
      exact ih pair.2 (by omega)

theorem walkEq (fuel : Nat) (bytes : Bytes) : walkUpTo fuel bytes = (drain fuel bytes).1.map Frame.header := by
  rw [drainEq]
  induction fuel generalizing bytes with
  | zero => rfl
  | succ fuel ih =>
    rcases bytes with _ | ⟨cmd,_ | ⟨a,_ | ⟨b,_ | ⟨c,_ | ⟨d,_ | ⟨high,_ | ⟨low,rest⟩⟩⟩⟩⟩⟩⟩ <;> try rfl
    rw [walkUpTo,decodeUpTo,decode]
    by_cases short : rest.length < fromBeBytes high low
    · rw [if_pos short,if_pos short]
      rfl
    · rw [if_neg short,if_neg short]
      dsimp only [List.map_cons]
      rw [ih]
      refine congrArg₂ List.cons ?_ rfl
      simp only [Frame.header,Frame.encodedLen,List.length_take,Nat.min_eq_left (Nat.not_lt.mp short)]

end Decode

section Chunks

/- The decoder on the front of an encoded stream: whole frames come out, and what is left
in the buffer is the front of the rest. -/
theorem decodePrefix (frames : List Frame) (front back : Bytes) (fuel : Nat) (whole : front ++ back = encodeAll frames)
    (enough : front.length ≤ fuel) : ∃ done later, frames = done ++ later ∧ (decodeUpTo fuel front).1 = done ∧
      (decodeUpTo fuel front).2 ++ back = encodeAll later := by
  induction frames generalizing front fuel with
  | nil =>
    obtain ⟨rfl,rfl⟩ := List.append_eq_nil_iff.mp whole
    refine ⟨[],[],rfl,?_,?_⟩ <;> cases fuel <;> rfl
  | cons f rest ih =>
    by_cases short : front.length < f.encode.length
    · -- the buffer ends inside the frame
      have cut : front = (f.encode ++ encodeAll rest).take front.length := by
        rw [← encodeAllCons,← whole,List.take_left]
      have stuck : decode front = none := by
        rw [cut]
        exact decodeShort f _ short
      refine ⟨[],f::rest,rfl,?_,?_⟩
      · cases fuel with
        | zero => rfl
        | succ fuel => rw [decodeUpTo,stuck]
      · cases fuel with
        | zero => exact whole
        | succ fuel =>
          rw [decodeUpTo,stuck]
          exact whole
    · rw [encodeAllCons] at whole
      obtain ⟨more,rfl,tail⟩ : ∃ more, front = f.encode ++ more ∧ more ++ back = encodeAll rest := by
        refine ⟨front.drop f.encode.length,?_,?_⟩
        · have same := congrArg (List.take f.encode.length) whole
          rw [List.take_left,List.take_append_of_le_length (Nat.not_lt.mp short)] at same
          have joined := List.take_append_drop f.encode.length front
          rw [same] at joined
          exact joined.symm
        · have same := congrArg (List.drop f.encode.length) whole
          rw [List.drop_left,List.drop_append_of_le_length (Nat.not_lt.mp short)] at same
          exact same
      have positive : 0 < f.encode.length := by
        rw [encodeLength,Frame.encodedLen,frameHeaderSize]
        omega
      cases fuel with
      | zero =>
        rw [List.length_append] at enough
        omega
      | succ fuel =>
        rw [List.length_append] at enough
        obtain ⟨done,later,split,out,left⟩ := ih more fuel tail (by omega)
        refine ⟨f::done,later,?_,?_,?_⟩
        · rw [split]
          rfl
        · rw [decodeUpTo,decodeEncode]
          dsimp only
          rw [out]
        · rw [decodeUpTo,decodeEncode]
          exact left

theorem feedWhole (chunks : List Bytes) (buf : Bytes) (frames : List Frame) (stuck : decode buf = none)
    (whole : buf ++ chunks.flatten = encodeAll frames) : feed buf chunks = (frames,[]) := by
  induction chunks generalizing buf frames with
  | nil =>
    rw [List.flatten_nil,List.append_nil] at whole
    cases frames with
    | nil =>
      rw [whole]
      rfl
    | cons f rest =>
      rw [whole,encodeAllCons,decodeEncode] at stuck
      contradiction
  | cons chunk rest ih =>
    rw [List.flatten_cons,← List.append_assoc] at whole
    obtain ⟨done,later,split,out,left⟩ := decodePrefix frames _ _ _ whole (Nat.le_refl _)
    have stops := drainStops _ (buf ++ chunk) (Nat.le_refl _)
    rw [drainEq] at stops
    have more := ih _ later stops left
    rw [feed,drainEq,more,out,split]

end Chunks

section Split
open Link (chunks)

theorem coalesceFromFlatten (maxPacketLen : Nat) (frames : List Bytes) (current : Bytes) :
    (coalesceFrom maxPacketLen current frames).flatten = current ++ frames.flatten := by
  have held : (if current = [] then ([] : List Bytes) else [current]).flatten = current := by
    split
    · rename_i empty
      rw [empty]
      rfl
    · simp
  induction frames generalizing current with
  | nil =>
    rw [coalesceFrom,held]
    simp
  | cons frame rest ih =>
    rw [coalesceFrom]
    split
    · rw [List.flatten_append,held,List.flatten_cons,ih [] (by simp),List.flatten_cons]
      rfl
    · split
      · rw [List.flatten_cons,ih frame (by split <;> simp_all),List.flatten_cons]
      · rw [ih (current ++ frame) (by split <;> simp_all),List.append_assoc,List.flatten_cons]

theorem coalesceFlatten (maxPacketLen : Nat) (frames : List Bytes) :
    (coalesceEncodedFrames frames maxPacketLen).flatten = frames.flatten := by
  have all := coalesceFromFlatten maxPacketLen frames []
  unfold coalesceEncodedFrames
  split
  · split
    · exact all
    · rfl
  · exact all

theorem chunksFlatten (fuel : Nat) (data : Payload) (enough : data.length ≤ fuel) : (chunks fuel data).flatten = data := by
  induction fuel generalizing data with
  | zero =>
    rw [List.length_eq_zero_iff.mp (Nat.le_zero.mp enough)]
    rfl
  | succ fuel ih =>
    cases data with
    | nil => rfl
    | cons b rest =>
      have fewer : ((b::rest).drop Link.maxPayloadLen).length ≤ fuel := by
        rw [List.length_drop,Link.maxPayloadLen]
        rw [List.length_cons] at enough ⊢
        omega
      rw [chunks,List.flatten_cons,ih _ fewer,List.take_append_drop]
      exact fun none => List.cons_ne_nil _ _ none

def pshFrame (sid : Nat) (fits : sid < 2^32) (payload : Payload) (small : payload.length ≤ maxPayloadLen) : Frame :=
  ⟨cmdPsh,sid,payload,fits,small⟩

theorem encodePshChunks (sid : Nat) (fits : sid < 2^32) (parts : List Payload)
    (small : ∀ d ∈ parts, d.length ≤ maxPayloadLen) : ∃ frames : List Frame,
      parts.mapM (encodePshInto [] sid) = some (frames.map Frame.encode) ∧ frames.map Frame.payload = parts ∧
      ∀ f ∈ frames, f.cmd = cmdPsh ∧ f.sid = sid := by
  induction parts with
  | nil => exact ⟨[],rfl,rfl,fun f member => by contradiction⟩
  | cons part rest ih =>
    obtain ⟨frames,encoded,payloads,all⟩ := ih (fun d member => small d (List.mem_cons_of_mem _ member))
    have fit := small part List.mem_cons_self
    refine ⟨pshFrame sid fits part fit::frames,?_,?_,?_⟩
    · have first : encodePshInto [] sid part = some (pshFrame sid fits part fit).encode := by
        rw [encodePshInto,if_neg (Nat.not_lt.mpr fit)]
        rfl
      rw [List.mapM_cons,first,encoded]
      rfl
    · rw [List.map_cons,payloads]
      rfl
    · intro f member
      rcases List.mem_cons.mp member with rfl | later
      · exact ⟨rfl,rfl⟩
      · exact all f later

theorem encodePsh (sid : Nat) (fits : sid < 2^32) (data : Bytes) : ∃ frames : List Frame,
    encodePshFrames sid data = some (frames.map Frame.encode) ∧ frames.flatMap Frame.payload = data ∧
    ∀ f ∈ frames, f.cmd = cmdPsh ∧ f.sid = sid := by
  obtain ⟨frames,encoded,payloads,all⟩ := encodePshChunks sid fits _ (Link.chunksSmall data.length data)
  refine ⟨frames,encoded,?_,all⟩
  rw [List.flatMap_def,payloads,chunksFlatten _ _ (Nat.le_refl _)]

theorem encodeAllFlatten (frames : List Frame) : (frames.map Frame.encode).flatten = encodeAll frames := by
  rw [encodeAll,List.flatMap_def]

end Split

theorem frameStream (frames : List Frame) (maxPacketLen : Nat) (chunks : List Bytes) (_nonempty : ∀ c ∈ chunks, c ≠ [])
    (cut : chunks.flatten = (coalesceEncodedFrames (frames.map Frame.encode) maxPacketLen).flatten)
    (sid : Nat) (fits : sid < 2^32) (data : Bytes) :
    feed [] chunks = (frames,[]) ∧
    (∃ pshs : List Frame, encodePshFrames sid data = some (pshs.map Frame.encode) ∧
      pshs.flatMap Frame.payload = data ∧ ∀ f ∈ pshs, f.cmd = cmdPsh ∧ f.sid = sid) ∧
    (∀ src, (decodeBuffer src).1 = none → (decodeBuffer src).2 = src) ∧
    ∀ buf, walkFrameHeaders buf = (drain buf.length buf).1.map Frame.header ∧
      (decodeBuffer (drain buf.length buf).2).1 = none := by
  refine ⟨?_,encodePsh sid fits data,fun src => decodeBufferNone,?_⟩
  · rw [coalesceFlatten,encodeAllFlatten] at cut
    exact feedWhole chunks [] frames rfl cut
  · intro buf
    refine ⟨walkEq buf.length buf,?_⟩
    rw [decodeBufferEq,drainStops buf.length buf (Nat.le_refl _)]

theorem frameStreamOfCut :
    feed [] [[cmdPsh,0,0],[0,3,0,2,1,2,cmdPsh,0,0,0,3,0,1],[7]] =
      ([pshFrame 3 (by decide) [1,2] (by decide),pshFrame 3 (by decide) [7] (by decide)],[]) :=
  (frameStream [pshFrame 3 (by decide) [1,2] (by decide),pshFrame 3 (by decide) [7] (by decide)] 100
    [[cmdPsh,0,0],[0,3,0,2,1,2,cmdPsh,0,0,0,3,0,1],[7]] (by decide) (by decide) 3 (by decide) [1,2]).1

end KanoTls.Wire
