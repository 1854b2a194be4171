import Mathlib.Data.List.GetD
import Mathlib.Tactic.Common

/-!
# Fixed-size C arrays

An array of `n` elements with C's element read and write. An access outside the
array is undefined in C; here it reads the default element and writes nothing,
and a development that uses the type proves its indices in range.
-/

/-- A C array `α a[n]`. -/
abbrev CArray (α : Type) (n : Nat) : Type := Vector α n

namespace CArray

variable {α : Type} [Inhabited α] {n : Nat}

/-- `a[i]` -/
def rd (a : CArray α n) (i : Nat) : α := a[i]?.getD default

/-- `a[i] = x` -/
def wr (a : CArray α n) (i : Nat) (x : α) : CArray α n := a.setIfInBounds i x

/-- The first `k` elements. -/
def pre (a : CArray α n) (k : Nat) : List α := a.toList.take k

omit [Inhabited α] in
@[simp] theorem length_pre (a : CArray α n) (k : Nat) : (a.pre k).length = min k n := by
  simp [pre]

omit [Inhabited α] in
/-- A prefix grows by the element that is written behind it. -/
theorem pre_wr_succ (a : CArray α n) {k : Nat} (hk : k < n) (x : α) :
    (a.wr k x).pre (k + 1) = a.pre k ++ [x] := by
  have hlist : (a.wr k x).toList = a.toList.set k x := Vector.toList_setIfInBounds
  have hlen : k < (a.toList.set k x).length := by simpa using hk
  rw [pre, pre, hlist, List.take_succ_eq_append_getElem hlen, List.take_set_of_le (Nat.le_refl k),
    List.getElem_set_self]

theorem rd_wr_self (a : CArray α n) {i : Nat} (hi : i < n) (x : α) : (a.wr i x).rd i = x := by
  simp [rd, wr, hi]

theorem rd_wr_ne (a : CArray α n) {i j : Nat} (h : i ≠ j) (x : α) :
    (a.wr i x).rd j = a.rd j := by
  simp [rd, wr, h]

/-- What an element is, written there again, changes nothing. -/
@[simp] theorem wr_rd_self (a : CArray α n) (i : Nat) : a.wr i (a.rd i) = a := by
  apply Vector.ext
  intro j hj
  by_cases hij : i = j
  · subst hij
    simp [rd, wr, hj]
  · simp [wr, hij]

theorem wr_eq_self_iff (a : CArray α n) {i : Nat} (hi : i < n) (x : α) :
    a.wr i x = a ↔ x = a.rd i := by
  constructor
  · intro h
    rw [← rd_wr_self a hi x, h]
  · rintro rfl
    exact wr_rd_self a i

theorem rd_map {β : Type} [Inhabited β] (f : α → β) (a : CArray α n) {i : Nat} (hi : i < n) :
    CArray.rd (a.map f) i = f (a.rd i) := by
  simp [rd, hi]

/-- An element inside a prefix is read from the prefix. -/
theorem rd_eq_getD_pre (a : CArray α n) {i k : Nat} (hik : i < k) :
    a.rd i = (a.pre k).getD i default := by
  simp [rd, pre, List.getD, hik]

/-! ## A property of all elements -/

/-- Every element has the property. -/
def All (Q : α → Prop) (a : CArray α n) : Prop := ∀ i < n, Q (a.rd i)

theorem All.wr {Q : α → Prop} {a : CArray α n} (h : a.All Q) (i : Nat) {x : α} (hx : Q x) :
    (a.wr i x).All Q := by
  intro j hj
  by_cases hij : i = j
  · subst hij
    rwa [rd_wr_self a hj]
  · rw [rd_wr_ne a hij]
    exact h j hj

theorem All.replicate {Q : α → Prop} {x : α} (hx : Q x) :
    CArray.All (n := n) Q (Vector.replicate n x) := by
  intro i hi
  simpa [rd, hi] using hx

theorem All.mem {Q : α → Prop} {a : CArray α n} (h : a.All Q) {x : α} (hx : x ∈ a.toList) :
    Q x := by
  obtain ⟨i, hi, rfl⟩ := List.getElem_of_mem hx
  have hin : i < n := by simpa using hi
  have hQ := h i hin
  simpa [rd, hin] using hQ

/-- Arrays with the same elements are equal. -/
theorem ext_rd {a b : CArray α n} (h : ∀ i < n, a.rd i = b.rd i) : a = b := by
  apply Vector.ext
  intro i hi
  simpa [rd, hi] using h i hi

end CArray
