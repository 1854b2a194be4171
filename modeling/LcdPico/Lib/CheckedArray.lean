import LcdPico.Lib.CArray

/-!
# Checked element access

`rd` and `wr` give an access outside the array a harmless meaning. `rd?` and `wr?`
get stuck there. A program written with the checked accesses that never gets stuck
makes no access outside its arrays, and computes what the total accesses compute:
one equation for each access, under its bound (`rd?_eq`, `wr?_eq`, `writeAll?_eq`).
-/

namespace CArray

variable {α : Type} [Inhabited α] {n : Nat}

/-- `a[i]`, stuck outside the array. -/
def rd? (a : CArray α n) (i : Nat) : Option α := if i < n then some (a.rd i) else none

/-- `a[i] = x`, stuck outside the array. -/
def wr? (a : CArray α n) (i : Nat) (x : α) : Option (CArray α n) :=
  if i < n then some (a.wr i x) else none

/-- The first `k` elements in order, each from `f`: `memset`, `memcpy` and `strncpy`. -/
def writeAll? (a : CArray α n) (f : Nat → Option α) : Nat → Option (CArray α n)
  | 0 => some a
  | k + 1 => do
    let a ← a.writeAll? f k
    let x ← f k
    a.wr? k x

theorem rd?_eq (a : CArray α n) {i : Nat} (h : i < n) : a.rd? i = some (a.rd i) := if_pos h

omit [Inhabited α] in
theorem wr?_eq (a : CArray α n) {i : Nat} (h : i < n) (x : α) : a.wr? i x = some (a.wr i x) :=
  if_pos h

theorem writeAll?_eq (a : CArray α n) {f : Nat → Option α} {g : Nat → α} {k : Nat} (hk : k ≤ n)
    (hf : ∀ i < k, f i = some (g i)) :
    ∃ b, a.writeAll? f k = some b ∧ (∀ i < k, b.rd i = g i) ∧ ∀ i, k ≤ i → b.rd i = a.rd i := by
  induction k with
  | zero => exact ⟨a, rfl, fun i hi => absurd hi (Nat.not_lt_zero i), fun _ _ => rfl⟩
  | succ k ih =>
    obtain ⟨b, hb, hbelow, habove⟩ := ih (Nat.le_of_succ_le hk)
      fun i hi => hf i (Nat.lt_succ_of_lt hi)
    refine ⟨b.wr k (g k), ?_, ?_, ?_⟩
    · simp only [writeAll?, hb, hf k (Nat.lt_succ_self k), Option.bind_eq_bind, Option.bind_some]
      exact wr?_eq b hk (g k)
    · intro i hi
      rcases Nat.lt_succ_iff_lt_or_eq.mp hi with hlt | rfl
      · rw [rd_wr_ne b (Nat.ne_of_gt hlt)]
        exact hbelow i hlt
      · exact rd_wr_self b hk (g i)
    · intro i hi
      rw [rd_wr_ne b (by omega)]
      exact habove i (Nat.le_of_succ_le hi)

/-- An array written as a whole. -/
theorem writeAll?_all (a b : CArray α n) {f : Nat → Option α} (hf : ∀ i < n, f i = some (b.rd i)) :
    a.writeAll? f n = some b := by
  obtain ⟨b', hb, hbelow, -⟩ := writeAll?_eq a (Nat.le_refl n) hf
  rw [hb, ext_rd hbelow]

/-- `memcpy` of a whole array. -/
theorem writeAll?_copy (a b : CArray α n) : a.writeAll? b.rd? n = some b :=
  writeAll?_all a b fun _ hi => rd?_eq b hi

end CArray
