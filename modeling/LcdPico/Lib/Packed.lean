import LcdPico.Lib.CArray

/-!
# Arrays filled from the front

`fill` is an array that starts with the elements of a list and goes on with a
blank. Programs keep short lists in such arrays, and save and reload them as
lists of the elements in use: that moves these elements to the front. An array
comes back unchanged exactly if it is `Packed`.
-/

namespace CArray

variable {α : Type} {n : Nat}

/-- The elements of the list, then blanks. Elements beyond the array are lost. -/
def fill (blank : α) (l : List α) : CArray α n := Vector.ofFn fun i => l.getD i blank

/-- From the first element that is not in use, all are blank. -/
def Packed (keep : α → Bool) (blank : α) (l : List α) : Prop :=
  ∀ i j, i ≤ j → (hj : j < l.length) → keep (l.getD i blank) = false → l.getD j blank = blank

theorem getElem_fill (blank : α) (l : List α) {i : Nat} (hi : i < n) :
    (fill blank l : CArray α n)[i] = l.getD i blank := by
  simp [fill]

theorem fill_nil (blank : α) : (fill blank [] : CArray α n) = Vector.replicate n blank := by
  apply Vector.ext
  intro i hi
  simp [fill]

/-- An element written behind the list becomes its last one. -/
theorem fill_wr_length (blank x : α) (l : List α) :
    (fill blank l : CArray α n).wr l.length x = fill blank (l ++ [x]) := by
  apply Vector.ext
  intro i hi
  simp only [wr, Vector.getElem_setIfInBounds, getElem_fill]
  split_ifs with h
  · subst h
    simp
  · rcases Nat.lt_or_gt_of_ne h with h | h
    · have hlen : (l ++ [x]).length ≤ i := by
        rw [List.length_append, List.length_singleton]
        exact h
      rw [List.getD_eq_default _ _ (Nat.le_of_lt h), List.getD_eq_default _ _ hlen]
    · rw [List.getD_append _ _ _ _ h]

/-- A list that fills the array leaves no room. -/
theorem fill_append (blank : α) {l : List α} (h : n ≤ l.length) (r : List α) :
    (fill blank (l ++ r) : CArray α n) = fill blank l := by
  apply Vector.ext
  intro i hi
  have hil : i < l.length := Nat.lt_of_lt_of_le hi h
  rw [getElem_fill, getElem_fill, List.getD_append _ _ _ _ hil]

theorem fill_toList (blank : α) (a : CArray α n) : fill blank a.toList = a := by
  apply Vector.ext
  intro i hi
  simp [getElem_fill, List.getD, hi]

/-! ## Packing -/

theorem Packed.tail {keep : α → Bool} {blank x : α} {l : List α} (h : Packed keep blank (x :: l)) :
    Packed keep blank l := by
  intro i j hij hj hkeep
  exact h (i + 1) (j + 1) (Nat.succ_le_succ hij) (Nat.succ_lt_succ hj) hkeep

/-- Dropping the elements of a packed list that are not in use does not move the
others. -/
theorem Packed.getD_filter {keep : α → Bool} {blank : α} {l : List α} (h : Packed keep blank l)
    (hblank : keep blank = false) (i : Nat) : (l.filter keep).getD i blank = l.getD i blank := by
  induction l generalizing i with
  | nil => rfl
  | cons x l ih =>
    cases hx : keep x with
    | true =>
      rw [List.filter_cons_of_pos hx]
      cases i with
      | zero => rfl
      | succ i => exact ih h.tail i
    | false =>
      have hall : ∀ y ∈ x :: l, y = blank := by
        intro y hy
        obtain ⟨j, hj, rfl⟩ := List.getElem_of_mem hy
        have hj' := h 0 j (Nat.zero_le j) hj hx
        rwa [List.getD_eq_getElem _ _ hj] at hj'
      have hnone : (x :: l).filter keep = [] := by
        rw [List.filter_eq_nil_iff]
        intro y hy
        rw [hall y hy, hblank]
        exact Bool.false_ne_true
      rw [hnone]
      by_cases hi : i < (x :: l).length
      · rw [List.getD_eq_getElem _ _ hi, hall _ (List.getElem_mem hi)]
        rfl
      · rw [List.getD_eq_default _ _ (Nat.le_of_not_lt hi)]
        rfl

/-- The array of the elements in use is the array itself exactly if it is packed. -/
theorem fill_filter_eq_self_iff (keep : α → Bool) (blank : α) (hblank : keep blank = false)
    (a : CArray α n) : fill blank (a.toList.filter keep) = a ↔ Packed keep blank a.toList := by
  constructor
  · intro h i j hij hj hkeep
    have hlen : a.toList.length = n := a.length_toList
    have hget : ∀ k < n, a.toList.getD k blank = (a.toList.filter keep).getD k blank := by
      intro k hk
      rw [← getElem_fill blank _ hk, ← getElem_fill blank _ hk, h, fill_toList]
    have hi : (a.toList.filter keep).length ≤ i := by
      by_contra hlt
      rw [hget i (by omega)] at hkeep
      have hi := Nat.lt_of_not_le hlt
      have hmem : (a.toList.filter keep)[i] ∈ a.toList.filter keep := List.getElem_mem hi
      have hin := (List.mem_filter.mp hmem).2
      rw [List.getD_eq_getElem _ _ hi] at hkeep
      rw [hkeep] at hin
      cases hin
    rw [hget j (by omega), List.getD_eq_default _ _ (Nat.le_trans hi hij)]
  · intro h
    apply Vector.ext
    intro i hi
    rw [getElem_fill, h.getD_filter hblank, ← getElem_fill blank _ hi, fill_toList]

end CArray
