import Mathlib.Algebra.Order.Ring.Int
import Mathlib.Tactic.Common

/-!
# Signed integers of C

An operation on signed integers has no meaning in C when its value is not one of the
type. `fit?` gets stuck there, so that a program written with it that does not get
stuck computes what the integers do.
-/

namespace CInt

/-- A value of the signed type of `w` bits. -/
def Fits (w : Nat) (v : Int) : Prop := -2 ^ (w - 1) ≤ v ∧ v < 2 ^ (w - 1)

instance (w : Nat) (v : Int) : Decidable (Fits w v) :=
  inferInstanceAs (Decidable (-2 ^ (w - 1) ≤ v ∧ v < 2 ^ (w - 1)))

/-- The value of an operation, stuck where it overflows. -/
def fit? (w : Nat) (v : Int) : Option Int := if Fits w v then some v else none

variable {w : Nat} {v : Int}

theorem fit?_eq (h : Fits w v) : fit? w v = some v := if_pos h

theorem fit?_eq_none_iff : fit? w v = none ↔ ¬Fits w v := by simp [fit?]

/-- A factor of a value is no further from zero than the value. -/
theorem Fits.of_mul {a p : Int} (h : Fits w (a * p)) (hp : 1 ≤ p) : Fits w a := by
  obtain ⟨hlo, hhi⟩ := h
  have hpos : (0 : Int) < 2 ^ (w - 1) := Int.pow_pos (by decide)
  rcases Int.le_total 0 a with ha | ha
  · have hle : a * 1 ≤ a * p := Int.mul_le_mul_of_nonneg_left hp ha
    exact ⟨by omega, by omega⟩
  · have hle : a * p ≤ a * 1 := Int.mul_le_mul_of_nonpos_left ha hp
    exact ⟨by omega, by omega⟩

end CInt
