import LcdPico.Lib.CInt
import Mathlib.Algebra.Order.Ring.Abs
import Mathlib.Tactic.Linarith
import Mathlib.Tactic.Ring

/-!
# Integer powers (`pow_i64` in `util.c`)

Every multiplication of `pow_i64` is checked here: the function gets stuck where one
of them overflows. If the power fits, it is what is returned. The loop keeps
`res * x ^ (2 * y)`, which bounds the square and the product of each round.
-/

namespace LcdPico

open CInt

/-- The square root of `INT64_MAX`. -/
def SQRT_INT64_MAX : Int := 3037000499

/-- The loop of `pow_i64`. -/
def powLoop (x : Int) (y : Nat) (res : Int) : Option Int :=
  if y = 0 then some res
  else if x > SQRT_INT64_MAX then some 0
  else do
    let x ← fit? 64 (x * x)
    let res ← if y % 2 = 1 then fit? 64 (res * x) else some res
    powLoop x (y / 2) res
termination_by y

/-- `pow_i64` -/
def powI64 (x : Int) (y : UInt8) : Option Int :=
  if x = 1 ∨ y = 0 then some 1
  else if x = 0 then some 0
  else powLoop x (y.toNat / 2) (if y.toNat % 2 = 1 then x else 1)

/-! ## One round -/

/-- No square is 2^63, so one that is not greater is a square of a small number. -/
theorem abs_le_of_sq_le {x : Int} (h : x * x ≤ 2 ^ 63) :
    -SQRT_INT64_MAX ≤ x ∧ x ≤ SQRT_INT64_MAX := by
  rw [SQRT_INT64_MAX]
  constructor
  · by_contra hlt
    nlinarith
  · by_contra hlt
    nlinarith

/-- The square that a round computes is used, so it fits, and the guard lets it pass. -/
theorem sq_fits {x res : Int} {y : Nat} (hx : x ≠ 0) (hres : res ≠ 0) (hy : y ≠ 0)
    (h : Fits 64 (res * x ^ (2 * y))) : x ≤ SQRT_INT64_MAX ∧ Fits 64 (x * x) := by
  have hsq : 0 < x * x := mul_self_pos.mpr hx
  have hpow : x * x ≤ x ^ (2 * y) := by
    rw [pow_mul, pow_two]
    exact le_self_pow₀ hsq hy
  have habs : x ^ (2 * y) ≤ |res * x ^ (2 * y)| := by
    have hnonneg : 0 ≤ x ^ (2 * y) := by omega
    rw [abs_mul, abs_of_nonneg hnonneg]
    exact le_mul_of_one_le_left hnonneg (Int.one_le_abs hres)
  have hmax : |res * x ^ (2 * y)| ≤ 2 ^ 63 := abs_le.mpr ⟨h.1, Int.le_of_lt h.2⟩
  obtain ⟨hlo, hhi⟩ := abs_le_of_sq_le (by omega : x * x ≤ 2 ^ 63)
  have hroot : x * x ≤ SQRT_INT64_MAX * SQRT_INT64_MAX := by
    have hprod : 0 ≤ (SQRT_INT64_MAX - x) * (SQRT_INT64_MAX + x) :=
      mul_nonneg (by omega) (by omega)
    linarith
  have hlt : SQRT_INT64_MAX * SQRT_INT64_MAX < 2 ^ 63 := by decide
  exact ⟨hhi, by omega, by omega⟩

/-- So does the product, of which what is returned is a multiple. -/
theorem mul_fits {x res : Int} {y k : Nat} (hx : x ≠ 0)
    (h : Fits 64 (res * x ^ (2 * y))) (hk : k ≤ y) : Fits 64 (res * (x * x) ^ k) := by
  have hsplit : res * x ^ (2 * y) = res * (x * x) ^ k * (x * x) ^ (y - k) := by
    rw [mul_assoc, ← pow_add, Nat.add_sub_cancel' hk, pow_mul, pow_two]
  rw [hsplit] at h
  exact h.of_mul (Int.pow_pos (mul_self_pos.mpr hx))

/-! ## The loop -/

theorem powLoop_eq {x res : Int} {y : Nat} (hx : x ≠ 0) (hres : res ≠ 0)
    (h : Fits 64 (res * x ^ (2 * y))) : powLoop x y res = some (res * x ^ (2 * y)) := by
  induction y using Nat.strong_induction_on generalizing x res with
  | _ y ih =>
    rw [powLoop]
    by_cases hy : y = 0
    · rw [if_pos hy, hy, Nat.mul_zero, pow_zero, mul_one]
    · obtain ⟨hguard, hsq⟩ := sq_fits hx hres hy h
      rw [if_neg hy, if_neg (Int.not_lt.mpr hguard), fit?_eq hsq, Option.bind_eq_bind,
        Option.bind_some]
      have hsq0 : x * x ≠ 0 := mul_self_ne_zero.mpr hx
      -- what is left to multiply with, after the round
      have hrest (r : Int) (hr : r = res * (x * x) ^ (y % 2)) :
          r * (x * x) ^ (2 * (y / 2)) = res * x ^ (2 * y) := by
        rw [hr, mul_assoc, ← pow_add, Nat.mod_add_div, pow_mul, pow_two]
      have hnext (r : Int) (hr : r = res * (x * x) ^ (y % 2)) (hr0 : r ≠ 0) :
          powLoop (x * x) (y / 2) r = some (res * x ^ (2 * y)) := by
        rw [ih (y / 2) (by omega) hsq0 hr0 (by rw [hrest r hr]; exact h), hrest r hr]
      rcases Nat.mod_two_eq_zero_or_one y with heven | hodd
      · rw [heven, if_neg Nat.zero_ne_one]
        exact hnext res (by rw [heven, pow_zero, mul_one]) hres
      · have hfits : Fits 64 (res * (x * x)) := by
          have hone := mul_fits (k := 1) hx h (by omega)
          rwa [pow_one] at hone
        rw [hodd, if_pos rfl, fit?_eq hfits, Option.bind_some]
        exact hnext _ (by rw [hodd, pow_one]) (mul_ne_zero hres hsq0)

/-- `pow_i64` returns the power whenever that is a value of `int64_t`, and no
multiplication on the way overflows. -/
theorem pow_i64_exact (x : Int) (y : UInt8) (h : Fits 64 (x ^ y.toNat)) :
    powI64 x y = some (x ^ y.toNat) := by
  rw [powI64]
  by_cases hone : x = 1 ∨ y = 0
  · rw [if_pos hone]
    rcases hone with rfl | rfl
    · rw [one_pow]
    · exact congrArg some (pow_zero x).symm
  · obtain ⟨hx1, hy⟩ := not_or.mp hone
    have hy0 : y.toNat ≠ 0 := fun h0 => hy (UInt8.toNat_inj.mp h0)
    rw [if_neg hone]
    by_cases hx0 : x = 0
    · rw [if_pos hx0, hx0, zero_pow hy0]
    · rw [if_neg hx0]
      have hstart (r : Int) (hr : r = x ^ (y.toNat % 2)) :
          r * x ^ (2 * (y.toNat / 2)) = x ^ y.toNat := by
        rw [hr, ← pow_add, Nat.mod_add_div]
      rcases Nat.mod_two_eq_zero_or_one y.toNat with heven | hodd
      · have hr := hstart 1 (by rw [heven, pow_zero])
        rw [heven, if_neg Nat.zero_ne_one, powLoop_eq hx0 one_ne_zero (hr ▸ h), hr]
      · have hr := hstart x (by rw [hodd, pow_one])
        rw [hodd, if_pos rfl, powLoop_eq hx0 hx0 (hr ▸ h), hr]

theorem pow_i64_exact_min : powI64 (-2) 63 = some (-2 ^ 63) :=
  pow_i64_exact (-2) 63 (by decide)

end LcdPico
