import KanoTls.FrameStream

/-! The packets of `coalesce_encoded_frames`: groups of neighbouring frames, in order,
each within the limit unless one frame alone is longer. -/
namespace KanoTls.Wire

/- What stands in one packet: frames that fit the limit together, or one frame that does not. -/
def Fits (maxPacketLen : Nat) (group : List Bytes) : Prop :=
  group.flatten.length ≤ maxPacketLen ∨ ∃ frame, group = [frame] ∧ frame.length > maxPacketLen

/- The packets of a grouping. A group of empty frames makes none. -/
def packets (groups : List (List Bytes)) : List Bytes :=
  (groups.map List.flatten).filter (fun packet => packet ≠ [])

theorem packetsCons (group : List Bytes) (groups : List (List Bytes)) :
    packets (group::groups) = (if group.flatten = [] then [] else [group.flatten]) ++ packets groups := by
  unfold packets
  rw [List.map_cons,List.filter_cons]
  by_cases empty : group.flatten = []
  · simp [empty]
  · simp [empty]

/- The loop with a packet under way: it is the frames `opened` read so far, and every flush
closes one group. -/
theorem coalesceFromGroups (maxPacketLen : Nat) (frames opened : List Bytes)
    (room : opened.flatten.length ≤ maxPacketLen) : ∃ groups : List (List Bytes),
      groups.flatten = opened ++ frames ∧ coalesceFrom maxPacketLen opened.flatten frames = packets groups ∧
      ∀ group ∈ groups, Fits maxPacketLen group := by
  induction frames generalizing opened with
  | nil =>
    refine ⟨[opened],by simp,?_,?_⟩
    · rw [coalesceFrom,packetsCons]
      exact (List.append_nil _).symm
    · intro group member
      cases List.mem_singleton.mp member
      exact .inl room
  | cons frame rest ih =>
    rw [coalesceFrom]
    split
    · -- A frame over the limit: the packet under way is flushed and the frame goes alone.
      rename_i long
      obtain ⟨groups,whole,out,fit⟩ := ih [] (Nat.zero_le _)
      refine ⟨opened::[frame]::groups,by simp [whole],?_,?_⟩
      · have filled : [frame].flatten ≠ [] := by
          intro empty
          rw [List.flatten_singleton] at empty
          rw [empty] at long
          exact Nat.not_lt_zero _ long
        rw [packetsCons,packetsCons,if_neg filled,List.flatten_singleton,← out]
        rfl
      · intro group member
        rcases List.mem_cons.mp member with rfl | later
        · exact .inl room
        · rcases List.mem_cons.mp later with rfl | last
          · exact .inr ⟨frame,rfl,long⟩
          · exact fit group last
    · rename_i short
      have small : [frame].flatten.length ≤ maxPacketLen := by
        rw [List.flatten_singleton]
        exact Nat.le_of_not_lt short
      split
      · -- The packet under way is full: the frame opens the next one.
        rename_i full
        obtain ⟨groups,whole,out,fit⟩ := ih [frame] small
        refine ⟨opened::groups,by simp [whole],?_,?_⟩
        · rw [packetsCons,if_neg full.2,← out,List.flatten_singleton]
          rfl
        · intro group member
          rcases List.mem_cons.mp member with rfl | later
          · exact .inl room
          · exact fit group later
      · rename_i open'
        have joined : (opened ++ [frame]).flatten = opened.flatten ++ frame := by simp
        have both : (opened ++ [frame]).flatten.length ≤ maxPacketLen := by
          rw [joined,List.length_append]
          by_cases none : opened.flatten = []
          · rw [none,List.length_nil]
            omega
          · exact Nat.le_of_not_lt (fun above => open' ⟨above,none⟩)
        obtain ⟨groups,whole,out,fit⟩ := ih (opened ++ [frame]) both
        exact ⟨groups,by simp [whole],by rw [← out,joined],fit⟩

theorem coalesceEq (frames : List Bytes) (maxPacketLen : Nat) :
    coalesceEncodedFrames frames maxPacketLen = coalesceFrom maxPacketLen [] frames := by
  unfold coalesceEncodedFrames
  split
  · rename_i frame
    by_cases empty : frame = []
    · rw [if_pos empty]
    · rw [if_neg empty,coalesceFrom]
      by_cases long : frame.length > maxPacketLen
      · rw [if_pos long]
        rfl
      · have alone : ¬ (([] : Bytes).length + frame.length > maxPacketLen ∧ ([] : Bytes) ≠ []) :=
          fun both => both.2 rfl
        rw [if_neg long,if_neg alone,coalesceFrom,List.nil_append,if_neg empty]
  · rfl

theorem packetsFilled {groups : List (List Bytes)} {packet : Bytes} (member : packet ∈ packets groups) :
    packet ≠ [] := by
  have kept := (List.mem_filter.mp member).2
  exact of_decide_eq_true kept

theorem coalesceGroups (frames : List Bytes) (maxPacketLen : Nat) :
    (∃ groups : List (List Bytes), groups.flatten = frames ∧
      coalesceEncodedFrames frames maxPacketLen = (groups.map List.flatten).filter (fun packet => packet ≠ []) ∧
      ∀ group ∈ groups, group.flatten.length ≤ maxPacketLen ∨ ∃ frame, group = [frame] ∧ frame.length > maxPacketLen) ∧
    (∀ packet ∈ coalesceEncodedFrames frames maxPacketLen, packet ≠ []) ∧
    (coalesceEncodedFrames frames maxPacketLen).flatten = frames.flatten ∧
    coalesceEncodedFrames frames maxPacketLen = coalesceFrom maxPacketLen [] frames := by
  obtain ⟨groups,whole,out,fit⟩ := coalesceFromGroups maxPacketLen frames [] (Nat.zero_le _)
  have made : coalesceEncodedFrames frames maxPacketLen = packets groups := (coalesceEq frames maxPacketLen).trans out
  refine ⟨⟨groups,whole,made,fit⟩,?_,coalesceFlatten maxPacketLen frames,coalesceEq frames maxPacketLen⟩
  intro packet member
  rw [made] at member
  exact packetsFilled member

end KanoTls.Wire
