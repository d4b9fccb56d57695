import KanoTls.HelloTwin

/-! GREASE rotation as a walk over places of a record. A place is the offset of a two-byte
value; the passes of `apply_client_hello_randomization` differ in their places only. -/
namespace KanoTls.Hello
open Uot Wire Patch

def greaseAt (b : Bytes) (p : Nat) : Bool := isGreaseValue (u16At b p)

/- The loop body of every pass, over the places it visits. -/
def rotateAt (draw : Nat → Nat) : List Nat → List Nat → Bytes → Bytes
  | [],_,bytes => bytes
  | p::places,used,bytes =>
    if greaseAt bytes p then
      rotateAt draw places (takeGreaseValue (draw used.length) used).2
        (put bytes p (toBeBytes (takeGreaseValue (draw used.length) used).1))
    else rotateAt draw places used bytes

def Off (p q : Nat) : Prop := p + 2 ≤ q ∨ q + 2 ≤ p

structure Rotates (places : List Nat) (b out : Bytes) : Prop where
  length : out.length = b.length
  grease : ∀ p ∈ places, greaseAt b p = true → greaseAt out p = true
  same : ∀ i, (∀ p ∈ places, greaseAt b p = true → i ≠ p ∧ i ≠ p + 1) → out[i]? = b[i]?

def Distinct (places : List Nat) (b : Bytes) : Prop := ((places.filter (greaseAt b)).map (u16At b)).Nodup

section Values

theorem takenFresh (draw : Nat) {used : List Nat} (room : used.length < 16) : (takeGreaseValue draw used).1 ∉ used := by
  unfold takeGreaseValue
  generalize greaseValues.getD (draw % 16) 0 = value
  dsimp only
  by_cases again : used.contains value = true
  · rw [if_pos again]
    by_cases twice : used.contains (value ^^^ 0x1010) = true
    · rw [if_pos twice]
      cases found : greaseValues.find? (fun v => !used.contains v) with
      | none =>
        have all : greaseValues ⊆ used := by
          intro v member
          have taken := List.find?_eq_none.mp found v member
          rw [Bool.not_eq_true,Bool.not_eq_false'] at taken
          exact List.contains_iff_mem.mp taken
        have count := (List.subperm_of_subset (by decide) all).length_le
        exact absurd (Nat.lt_of_le_of_lt count room) (by decide)
      | some free =>
        have fresh := List.find?_some found
        rw [Bool.not_eq_true'] at fresh
        rw [Option.getD_some]
        intro member
        rw [List.contains_iff_mem.mpr member] at fresh
        contradiction
    · rw [if_neg twice]
      exact fun member => twice (List.contains_iff_mem.mpr member)
  · rw [if_neg again]
    exact fun member => again (List.contains_iff_mem.mpr member)

end Values

section Places
variable {b out : Bytes} {places : List Nat} {p : Nat}

theorem Rotates.u16Of (rotates : Rotates places b out) (off : ∀ q ∈ places, greaseAt b q = true → Off p q) :
    u16At out p = u16At b p := by
  refine u16Same (rotates.same p ?_) (rotates.same (p + 1) ?_)
  · intro q member grease
    rcases off q member grease with before | after <;> omega
  · intro q member grease
    rcases off q member grease with before | after <;> omega

theorem Rotates.u16 (rotates : Rotates places b out) (off : ∀ q ∈ places, Off p q) : u16At out p = u16At b p :=
  rotates.u16Of (fun q member _ => off q member)

theorem Rotates.refl (places : List Nat) (b : Bytes) : Rotates places b b :=
  ⟨rfl,fun _ _ grease => grease,fun _ _ => rfl⟩

theorem Rotates.trans {more : List Nat} {mid : Bytes} (first : Rotates places b mid) (second : Rotates more mid out)
    (off : ∀ p ∈ places, ∀ q ∈ more, Off p q) : Rotates (places ++ more) b out := by
  have before : ∀ q ∈ more, greaseAt mid q = greaseAt b q := by
    intro q member
    rw [greaseAt,greaseAt,first.u16 (fun p there => (off p there q member).symm)]
  refine ⟨second.length.trans first.length,?_,?_⟩
  · intro p member grease
    rcases List.mem_append.mp member with old | new
    · rw [greaseAt,second.u16 (off p old)]
      exact first.grease p old grease
    · exact second.grease p new ((before p new).trans grease)
  · intro i away
    rw [second.same i,first.same i]
    · exact fun p member => away p (List.mem_append_left _ member)
    · intro q member grease
      exact away q (List.mem_append_right _ member) ((before q member).symm.trans grease)

theorem Distinct.kept {more : List Nat} (distinct : Distinct places b) (rotates : Rotates more b out)
    (off : ∀ p ∈ places, ∀ q ∈ more, Off p q) : Distinct places out := by
  have same : ∀ p ∈ places, u16At out p = u16At b p := fun p member => rotates.u16 (off p member)
  have kept : places.filter (greaseAt out) = places.filter (greaseAt b) := by
    apply List.filter_congr
    intro p member
    rw [greaseAt,greaseAt,same p member]
  unfold Distinct
  rw [kept,List.map_congr_left (fun p member => same p (List.mem_filter.mp member).1)]
  exact distinct

theorem putRotates {value : Nat} (fits : p + 2 ≤ b.length) (here : greaseAt b p = true) (grease : isGreaseValue value = true) :
    Rotates [p] b (put b p (toBeBytes value)) := by
  have long : p + (toBeBytes value).length ≤ b.length := fits
  refine ⟨putLength long,?_,?_⟩
  · intro q member _
    rw [List.mem_singleton.mp member,greaseAt,u16Put fits (greaseSmall grease)]
    exact grease
  · intro i away
    obtain ⟨notFirst,notSecond⟩ := away p (List.mem_singleton_self p) here
    apply putOutside long
    rintro ⟨after,below⟩
    change i < p + 2 at below
    dsimp only at after
    omega

/- A whole pass. Its values are distinct when there are not more than the 16 GREASE values,
counting those already used. -/
theorem rotateAtRotates (draw : Nat → Nat) (apart : places.Pairwise Off) (fits : ∀ p ∈ places, p + 2 ≤ b.length)
    (used : List Nat) : Rotates places b (rotateAt draw places used b) ∧
      (used.length + (places.filter (greaseAt b)).length ≤ 16 →
        ((places.filter (greaseAt b)).map (u16At (rotateAt draw places used b))).Nodup ∧
        ∀ v ∈ (places.filter (greaseAt b)).map (u16At (rotateAt draw places used b)), v ∉ used) := by
  induction places generalizing used b with
  | nil => exact ⟨.refl [] b,fun _ => ⟨.nil,fun v member => by contradiction⟩⟩
  | cons p places ih =>
    obtain ⟨off,rest⟩ := List.pairwise_cons.mp apart
    have fitsHere := fits p List.mem_cons_self
    have fitsRest : ∀ q ∈ places, q + 2 ≤ b.length := fun q member => fits q (List.mem_cons_of_mem _ member)
    rw [rotateAt]
    by_cases grease : greaseAt b p = true
    · rw [if_pos grease,List.filter_cons_of_pos grease]
      have small := greaseSmall (takenGrease (draw used.length) used)
      have first := putRotates fitsHere grease (takenGrease (draw used.length) used)
      have fresh : used.length < 16 → (takeGreaseValue (draw used.length) used).1 ∉ used := takenFresh (draw used.length)
      have value := u16Put fitsHere small
      have later : (takeGreaseValue (draw used.length) used).2 = used ++ [(takeGreaseValue (draw used.length) used).1] := rfl
      rw [later]
      generalize (takeGreaseValue (draw used.length) used).1 = taken at *
      obtain ⟨second,values⟩ := ih rest (fun q member => first.length.symm ▸ fitsRest q member) (used ++ [taken])
      have others : ∀ q ∈ places, greaseAt (put b p (toBeBytes taken)) q = greaseAt b q := by
        intro q member
        rw [greaseAt,greaseAt,first.u16 (fun r there => List.mem_singleton.mp there ▸ (off q member).symm)]
      rw [List.filter_congr others] at values
      have here : u16At (rotateAt draw places (used ++ [taken]) (put b p (toBeBytes taken))) p = taken :=
        (second.u16 off).trans value
      refine ⟨first.trans second (fun r there => List.mem_singleton.mp there ▸ off),?_⟩
      intro count
      rw [List.length_cons] at count
      rw [List.length_append,List.length_singleton] at values
      obtain ⟨nodup,unused⟩ := values (by omega)
      rw [List.map_cons,here]
      refine ⟨List.nodup_cons.mpr ⟨?_,nodup⟩,?_⟩
      · intro member
        exact unused taken member (List.mem_append_right _ (List.mem_singleton_self _))
      · intro v member
        rcases List.mem_cons.mp member with rfl | inside
        · exact fresh (by omega)
        · exact fun old => unused v inside (List.mem_append_left _ old)
    · rw [if_neg grease,List.filter_cons_of_neg grease]
      obtain ⟨second,values⟩ := ih rest fitsRest used
      refine ⟨⟨second.length,?_,?_⟩,values⟩
      · intro q member was
        rcases List.mem_cons.mp member with rfl | inside
        · exact absurd was grease
        · exact second.grease q inside was
      · exact fun i away => second.same i (fun q member => away q (List.mem_cons_of_mem _ member))

theorem Rotates.plain (rotates : Rotates places b out) (apart : places.Pairwise Off) (member : p ∈ places)
    (was : greaseAt b p = false) : u16At out p = u16At b p := by
  apply rotates.u16Of
  intro q there grease
  have either : p = q ∨ Off p q := List.Pairwise.forall_of_forall_of_flip (R := fun p q => p = q ∨ Off p q)
    (fun _ _ => .inl rfl) (apart.imp .inr) (apart.imp (fun away => .inr away.symm)) member there
  rcases either with rfl | away
  · rw [was] at grease
    contradiction
  · exact away

theorem Rotates.greaseSame (rotates : Rotates places b out) (apart : places.Pairwise Off) (member : p ∈ places) :
    greaseAt out p = greaseAt b p := by
  cases was : greaseAt b p with
  | true => exact rotates.grease p member was
  | false =>
    rw [greaseAt,rotates.plain apart member was]
    exact was

/- Values that all differed still do: GREASE values differ from one another, and from the
others because those are not GREASE. -/
theorem Rotates.allDistinct (rotates : Rotates places b out) (apart : places.Pairwise Off)
    (before : (places.map (u16At b)).Nodup) (distinct : Distinct places out) : (places.map (u16At out)).Nodup := by
  have plain := List.pairwise_map.mp before
  have grease := List.pairwise_filter.mp (List.pairwise_map.mp distinct)
  refine List.pairwise_map.mpr ((plain.and grease).imp_of_mem ?_)
  rintro p q here there ⟨old,new⟩ same
  cases first : greaseAt b p with
  | true =>
    have firstNow := (rotates.greaseSame apart here).trans first
    have secondNow : greaseAt out q = true := by
      rw [greaseAt,← same]
      exact firstNow
    exact new firstNow secondNow same
  | false =>
    have firstNow := (rotates.greaseSame apart here).trans first
    have second : greaseAt b q = false := by
      rw [← rotates.greaseSame apart there,greaseAt,← same]
      exact firstNow
    exact old ((rotates.plain apart here first).symm.trans (same.trans (rotates.plain apart there second)))

theorem rotateAtDistinct (draw : Nat → Nat) (apart : places.Pairwise Off) (fits : ∀ p ∈ places, p + 2 ≤ b.length)
    (few : (places.filter (greaseAt b)).length ≤ 16) : Distinct places (rotateAt draw places [] b) := by
  obtain ⟨rotates,values⟩ := rotateAtRotates draw apart fits []
  have kept : places.filter (greaseAt (rotateAt draw places [] b)) = places.filter (greaseAt b) :=
    List.filter_congr (fun p member => rotates.greaseSame apart member)
  unfold Distinct
  rw [kept]
  exact (values (by rw [List.length_nil]; omega)).1

end Places

section Units

def unitsOf (range : Range) : List Nat := (List.range ((range.2 - range.1) / 2)).map (fun k => range.1 + 2 * k)

theorem unitsNil {start stop : Nat} (short : ¬ start + 2 ≤ stop) : unitsOf (start,stop) = [] := by
  have none : (stop - start) / 2 = 0 := by omega
  rw [unitsOf,none]
  rfl

theorem unitsCons {start stop : Nat} (more : start + 2 ≤ stop) : unitsOf (start,stop) = start::unitsOf (start + 2,stop) := by
  have count : (stop - start) / 2 = (stop - (start + 2)) / 2 + 1 := by omega
  rw [unitsOf,count,List.range_succ_eq_map,List.map_cons,List.map_map]
  congr 1
  apply List.map_congr_left
  intro k _
  simp only [Function.comp_apply]
  omega

theorem unitsBounds {range : Range} {p : Nat} (member : p ∈ unitsOf range) : range.1 ≤ p ∧ p + 2 ≤ range.2 := by
  obtain ⟨k,inside,rfl⟩ := List.mem_map.mp member
  have := List.mem_range.mp inside
  omega

theorem unitsApart (range : Range) : (unitsOf range).Pairwise Off := by
  refine List.pairwise_map.mpr (List.pairwise_lt_range.imp ?_)
  intro j k before
  exact .inl (by omega)

theorem rotateListWalk (draw : Nat → Nat) {stop : Nat} (fuel start : Nat) (used : List Nat) (bytes : Bytes)
    (fits : stop ≤ bytes.length) (enough : stop - start ≤ fuel) :
    rotateList draw stop fuel start used bytes = some (rotateAt draw (unitsOf (start,stop)) used bytes) := by
  induction fuel generalizing start used bytes with
  | zero =>
    rw [unitsNil (by omega)]
    rfl
  | succ fuel ih =>
    rw [rotateList]
    by_cases more : start + 2 ≤ stop
    · have read : readU16 bytes start = some (u16At bytes start) := if_neg (by omega)
      rw [if_pos more,unitsCons more,read,Option.bind_eq_bind,Option.bind_some,rotateAt,greaseAt]
      by_cases grease : isGreaseValue (u16At bytes start) = true
      · rw [if_pos grease,if_pos grease]
        have long : start + (toBeBytes (takeGreaseValue (draw used.length) used).1).length ≤ bytes.length :=
          Nat.le_trans more fits
        have kept : stop ≤ (put bytes start (toBeBytes (takeGreaseValue (draw used.length) used).1)).length := by
          rw [putLength long]
          exact fits
        exact ih _ _ _ kept (by omega)
      · rw [if_neg grease,if_neg grease]
        exact ih _ _ _ fits (by omega)
    · rw [if_neg more,unitsNil more]
      rfl

end Units

end KanoTls.Hello
