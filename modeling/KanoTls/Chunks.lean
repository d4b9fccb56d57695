import KanoTls.Patch

/-! A list cut into chunks: what stands where, and how a chunk is replaced. A write to one
field of a record is a change of one chunk. -/
namespace KanoTls.Chunks
open Patch

variable {α : Type}

def offset (chunks : List (List α)) (k : Nat) : Nat := (chunks.take k).flatten.length

theorem sliceDrop {b : List α} {i j : Nat} (ordered : i ≤ j) (fits : j ≤ b.length) :
    slice b i j ++ b.drop j = b.drop i := by
  have inside : i ≤ (b.take j).length := by
    rw [List.length_take]
    omega
  rw [slice,← List.drop_append_of_le_length inside,List.take_append_drop]

section Cut
variable {chunks : List (List α)} {k : Nat} {chunk : List α}

theorem flattenSet (here : chunks[k]? = some chunk) (new : List α) :
    (chunks.set k new).flatten = (chunks.take k).flatten ++ (new ++ (chunks.drop (k + 1)).flatten) := by
  obtain ⟨inside,_⟩ := List.getElem?_eq_some_iff.mp here
  rw [List.set_eq_take_append_cons_drop,if_pos inside,List.flatten_append,List.flatten_cons]

theorem flattenCut (here : chunks[k]? = some chunk) :
    chunks.flatten = (chunks.take k).flatten ++ (chunk ++ (chunks.drop (k + 1)).flatten) := by
  have same : chunks.set k chunk = chunks := by
    obtain ⟨inside,rfl⟩ := List.getElem?_eq_some_iff.mp here
    exact List.set_getElem_self inside
  rw [← flattenSet here chunk,same]

theorem chunkFits (here : chunks[k]? = some chunk) : offset chunks k + chunk.length ≤ chunks.flatten.length := by
  rw [flattenCut here,List.length_append,List.length_append,offset]
  omega

theorem chunkAt (here : chunks[k]? = some chunk) {i : Nat} (inside : i < chunk.length) :
    chunks.flatten[offset chunks k + i]? = chunk[i]? := by
  rw [flattenCut here,offset,List.getElem?_append_right (Nat.le_add_right _ _),Nat.add_sub_cancel_left,
    List.getElem?_append_left inside]

theorem sliceChunk (here : chunks[k]? = some chunk) :
    slice chunks.flatten (offset chunks k) (offset chunks k + chunk.length) = chunk := by
  apply List.ext_getElem?
  intro i
  rw [sliceAt]
  by_cases inside : i < chunk.length
  · rw [if_pos (by omega),chunkAt here inside]
  · rw [if_neg (by omega),List.getElem?_eq_none (by omega)]

theorem spliceChunk (here : chunks[k]? = some chunk) (new : List α) :
    chunks.flatten.take (offset chunks k) ++ new ++ chunks.flatten.drop (offset chunks k + chunk.length) =
      (chunks.set k new).flatten := by
  rw [flattenSet here new,flattenCut here,offset,List.take_left,List.drop_length_add_append,List.drop_left,List.append_assoc]

theorem putChunk (here : chunks[k]? = some chunk) {new : List α} (size : new.length = chunk.length) :
    put chunks.flatten (offset chunks k) new = (chunks.set k new).flatten := by
  rw [put,size,← List.append_assoc,spliceChunk here]

end Cut

end KanoTls.Chunks
