import Mathlib.Data.List.Basic

/-! Writes in place on a list of fixed length: what stands at a position after a chunk was
copied over a range, and after several ranges were filled with one value. -/
namespace KanoTls.Patch

variable {α : Type}

def slice (b : List α) (start stop : Nat) : List α := (b.take stop).drop start

/- `b[start..start + chunk.len()].copy_from_slice(chunk)`. -/
def put (b : List α) (start : Nat) (chunk : List α) : List α :=
  b.take start ++ (chunk ++ b.drop (start + chunk.length))

def fill (value : α) (b : List α) (range : Nat × Nat) : List α :=
  put b range.1 (List.replicate (range.2 - range.1) value)

def fillAll (value : α) (b : List α) (ranges : List (Nat × Nat)) : List α := ranges.foldl (fill value) b

def Inside (range : Nat × Nat) (i : Nat) : Prop := range.1 ≤ i ∧ i < range.2

instance (range : Nat × Nat) (i : Nat) : Decidable (Inside range i) := inferInstanceAs (Decidable (_ ∧ _))

theorem putLength {b chunk : List α} {start : Nat} (fits : start + chunk.length ≤ b.length) :
    (put b start chunk).length = b.length := by
  simp only [put,List.length_append,List.length_take,List.length_drop]
  omega

theorem putBefore {b chunk : List α} {start i : Nat} (fits : start + chunk.length ≤ b.length) (before : i < start) :
    (put b start chunk)[i]? = b[i]? := by
  rw [put,List.getElem?_append_left (by rw [List.length_take]; omega),List.getElem?_take_of_lt before]

theorem putAt {b chunk : List α} {start i : Nat} (fits : start + chunk.length ≤ b.length) (here : i < chunk.length) :
    (put b start chunk)[start + i]? = chunk[i]? := by
  have front : (b.take start).length = start := by
    rw [List.length_take]
    omega
  rw [put,List.getElem?_append_right (by omega),front,Nat.add_sub_cancel_left,List.getElem?_append_left here]

theorem putAfter {b chunk : List α} {start i : Nat} (fits : start + chunk.length ≤ b.length)
    (after : start + chunk.length ≤ i) : (put b start chunk)[i]? = b[i]? := by
  have front : (b.take start).length = start := by
    rw [List.length_take]
    omega
  rw [put,List.getElem?_append_right (by omega),front,List.getElem?_append_right (by omega),List.getElem?_drop]
  congr 1
  omega

theorem putOutside {b chunk : List α} {start i : Nat} (fits : start + chunk.length ≤ b.length)
    (outside : ¬ Inside (start,start + chunk.length) i) : (put b start chunk)[i]? = b[i]? := by
  by_cases before : i < start
  · exact putBefore fits before
  · exact putAfter fits (Nat.not_lt.mp (fun within => outside ⟨Nat.not_lt.mp before,within⟩))

theorem putTake {b chunk : List α} {start k : Nat} (inside : k ≤ start) (fits : start ≤ b.length) :
    (put b start chunk).take k = b.take k := by
  have long : k ≤ (b.take start).length := by
    rw [List.length_take]
    omega
  rw [put,List.take_append_of_le_length long,List.take_take,Nat.min_eq_left inside]

theorem putRight (front b chunk : List α) (i : Nat) : put (front ++ b)
    (front.length + i) chunk = front ++ put b i chunk := by
  rw [put,put,List.take_length_add_append,Nat.add_assoc,List.drop_length_add_append,List.append_assoc]

theorem putLeft {b chunk : List α} {i : Nat} (tail : List α) (fits : i + chunk.length ≤ b.length) :
    put (b ++ tail) i chunk = put b i chunk ++ tail := by
  rw [put,put,List.take_append_of_le_length (by omega),List.drop_append_of_le_length fits,List.append_assoc,
    List.append_assoc]

theorem putWhole {b chunk : List α} (size : chunk.length = b.length) : put b 0 chunk = chunk := by
  rw [put,List.take_zero,List.nil_append,Nat.zero_add,size,List.drop_length,List.append_nil]

theorem putSlice {b chunk : List α} {start : Nat} (fits : start ≤ b.length) :
    slice (put b start chunk) start (start + chunk.length) = chunk := by
  have front : (b.take start).length = start := by
    rw [List.length_take]
    omega
  have early : (b.take start).take (start + chunk.length) = b.take start :=
    List.take_of_length_le (by omega)
  rw [slice,put,List.take_append,early,front,Nat.add_sub_cancel_left,List.take_left,
    List.drop_left' front]

theorem sliceTake {b w : List α} {start stop k : Nat} (within : stop ≤ k) (same : b.take k = w.take k) :
    slice b start stop = slice w start stop := by
  have shorter (d : List α) : d.take stop = (d.take k).take stop := by
    rw [List.take_take,Nat.min_eq_left within]
  rw [slice,slice,shorter b,shorter w,same]

theorem sliceAt {b : List α} {start stop i : Nat} :
    (slice b start stop)[i]? = if start + i < stop then b[start + i]? else none := by
  rw [slice,List.getElem?_drop,List.getElem?_take]

theorem sliceExt {b w : List α} {start stop : Nat} (same : ∀ i, start ≤ i → i < stop → b[i]? = w[i]?) :
    slice b start stop = slice w start stop := by
  apply List.ext_getElem?
  intro i
  rw [sliceAt,sliceAt]
  split
  · rename_i inside
    exact same _ (Nat.le_add_right _ _) inside
  · rfl

theorem sliceSlice {b : List α} {start stop i j : Nat} (inside : start + j ≤ stop) :
    slice (slice b start stop) i j = slice b (start + i) (start + j) := by
  apply List.ext_getElem?
  intro n
  rw [sliceAt,sliceAt,sliceAt]
  by_cases here : i + n < j
  · rw [if_pos here,if_pos (by omega),if_pos (by omega),Nat.add_assoc]
  · rw [if_neg here,if_neg (by omega)]

theorem sliceLength {b : List α} {start stop : Nat} (fits : stop ≤ b.length) :
    (slice b start stop).length = stop - start := by
  rw [slice,List.length_drop,List.length_take,Nat.min_eq_left fits]

theorem slicePutApart {b chunk : List α} {start lo hi : Nat} (fits : start + chunk.length ≤ b.length)
    (apart : hi ≤ start ∨ start + chunk.length ≤ lo) : slice (put b start chunk) lo hi = slice b lo hi := by
  apply sliceExt
  intro i lower upper
  apply putOutside fits
  rintro ⟨after,before⟩
  dsimp only at after before
  omega

theorem slicePutInside {b chunk : List α} {s lo hi : Nat} (inside : lo + s + chunk.length ≤ hi) (fits : hi ≤ b.length) :
    slice (put b (lo + s) chunk) lo hi = put (slice b lo hi) s chunk := by
  have long : s + chunk.length ≤ (slice b lo hi).length := by
    rw [sliceLength fits]
    omega
  apply List.ext_getElem?
  intro i
  rw [sliceAt]
  by_cases here : Inside (s,s + chunk.length) i
  · obtain ⟨j,rfl⟩ := Nat.exists_eq_add_of_le here.1
    have below : s + j < s + chunk.length := here.2
    rw [if_pos (by omega),← Nat.add_assoc,putAt (by omega) (by omega),putAt long (by omega)]
  · have there : ¬ Inside (lo + s,lo + s + chunk.length) (lo + i) :=
      fun inside => here ⟨by have := inside.1; dsimp only at *; omega,by have := inside.2; dsimp only at *; omega⟩
    rw [putOutside (by omega) there,putOutside long here,sliceAt]

theorem fillLength {value : α} {b : List α} {range : Nat × Nat} (ordered : range.1 ≤ range.2) (fits : range.2 ≤ b.length) :
    (fill value b range).length = b.length := by
  apply putLength
  rw [List.length_replicate]
  omega

theorem fillAt {value : α} {b : List α} {range : Nat × Nat} (ordered : range.1 ≤ range.2) (fits : range.2 ≤ b.length)
    (i : Nat) :
    (fill value b range)[i]? = if Inside range i then some value else b[i]? := by
  have long : (List.replicate (range.2 - range.1) value).length = range.2 - range.1 := List.length_replicate
  split
  · rename_i inside
    obtain ⟨k,rfl⟩ := Nat.exists_eq_add_of_le inside.1
    rw [fill,putAt (by rw [long]; omega) (by rw [long]; have := inside.2; omega),List.getElem?_replicate]
    rw [if_pos (by have := inside.2; omega)]
  · rename_i outside
    rw [fill]
    apply putOutside (by rw [long]; omega)
    intro inside
    rw [long] at inside
    exact outside ⟨inside.1,by have := inside.2; omega⟩

theorem fillAllAt {value : α} {ranges : List (Nat × Nat)} {b : List α}
    (fit : ∀ range ∈ ranges, range.1 ≤ range.2 ∧ range.2 ≤ b.length) :
    (fillAll value b ranges).length = b.length ∧
    ∀ i, (fillAll value b ranges)[i]? = if ∃ range ∈ ranges, Inside range i then some value else b[i]? := by
  induction ranges generalizing b with
  | nil => exact ⟨rfl,fun i => by simp [fillAll]⟩
  | cons range rest ih =>
    obtain ⟨ordered,within⟩ := fit range List.mem_cons_self
    have long := @fillLength _ value _ _ ordered within
    obtain ⟨same,values⟩ := ih (b := fill value b range) (fun other member => by
      rw [long]
      exact fit other (List.mem_cons_of_mem _ member))
    refine ⟨same.trans long,fun i => ?_⟩
    refine (values i).trans ?_
    rw [fillAt ordered within]
    by_cases inside : Inside range i
    · have some : ∃ other ∈ range::rest, Inside other i := ⟨range,List.mem_cons_self,inside⟩
      rw [if_pos inside,if_pos some]
      split <;> rfl
    · rw [if_neg inside]
      refine if_congr ?_ rfl rfl
      constructor
      · rintro ⟨other,member,there⟩
        exact ⟨other,List.mem_cons_of_mem _ member,there⟩
      · rintro ⟨other,member,there⟩
        rcases List.mem_cons.mp member with rfl | later
        · exact absurd there inside
        · exact ⟨other,later,there⟩

end KanoTls.Patch
