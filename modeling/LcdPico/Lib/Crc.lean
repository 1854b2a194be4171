import Mathlib.Algebra.CharP.Two
import Mathlib.Algebra.Field.ZMod
import Mathlib.Algebra.Polynomial.Div
import Mathlib.RingTheory.Polynomial.DegreeLT
import Mathlib.Tactic.LinearCombination

/-!
# Cyclic redundancy checks

A check of width `w` is a shift register. Each message bit moves it one place to the
left, and the polynomial is subtracted if the bit that is pushed out differs from the
message bit (`feed`). There is no reflection and no final exclusive or.

* `checksum_eq_shifts` — feeding as many bits as there are places is shifting the register
  with the bits in its upper places;
* `shifts_eq_table` — so several bits can be shifted at once with a table;
* `toPoly_checksum` — the register holds the remainder of a division of polynomials
  over the field of two elements;
* `checksum_burst` — two messages that differ within a window of `w` bits do not have
  the same check.
-/

namespace Crc

/-! ## The register -/

section Register

variable {w : Nat} (poly : BitVec w)

/-- The register moves one place to the left. -/
def shift (c : BitVec w) : BitVec w := if c.msb then (c <<< 1) ^^^ poly else c <<< 1

/-- As many places. -/
def shifts : Nat → BitVec w → BitVec w
  | 0, c => c
  | n + 1, c => shifts n (shift poly c)

/-- The bit in the highest place. -/
def atTop (b : Bool) : BitVec w := if b then BitVec.intMin w else 0#w

/-- One message bit. -/
def feed (c : BitVec w) (b : Bool) : BitVec w := shift poly (c ^^^ atTop b)

/-- The message bits, in order. -/
def checksum (c : BitVec w) (bits : List Bool) : BitVec w := bits.foldl (feed poly) c

/-- Message bits in the upper places of a register, the first one in the highest. -/
def aligned : List Bool → BitVec w
  | [] => 0#w
  | b :: bits => atTop b ^^^ (aligned bits >>> 1)

@[simp] theorem checksum_nil (c : BitVec w) : checksum poly c [] = c := rfl

@[simp] theorem checksum_cons (c : BitVec w) (b : Bool) (bits : List Bool) :
    checksum poly c (b :: bits) = checksum poly (feed poly c b) bits := rfl

theorem checksum_append (c : BitVec w) (u v : List Bool) :
    checksum poly c (u ++ v) = checksum poly (checksum poly c u) v :=
  List.foldl_append

/-! ## Linearity -/

theorem shift_xor (c d : BitVec w) : shift poly (c ^^^ d) = shift poly c ^^^ shift poly d := by
  have hmsb : (c ^^^ d).msb = (c.msb ^^ d.msb) := BitVec.msb_xor
  rw [shift, shift, shift, hmsb, BitVec.shiftLeft_xor_distrib]
  cases hc : c.msb with
  | true =>
    cases hd : d.msb with
    | true =>
      -- the polynomial is subtracted twice
      simp only [Bool.xor_true, Bool.not_true, Bool.false_eq_true, if_false, if_true]
      rw [BitVec.xor_assoc, BitVec.xor_comm poly, BitVec.xor_assoc, BitVec.xor_self,
        BitVec.xor_zero]
    | false =>
      simp only [Bool.xor_false, Bool.false_eq_true, if_false, if_true]
      rw [BitVec.xor_assoc, BitVec.xor_assoc, BitVec.xor_comm poly]
  | false =>
    cases hd : d.msb with
    | true =>
      simp only [Bool.false_xor, Bool.false_eq_true, if_false, if_true]
      rw [BitVec.xor_assoc]
    | false =>
      simp only [Bool.false_xor, Bool.false_eq_true, if_false]

theorem shifts_xor (n : Nat) (c d : BitVec w) :
    shifts poly n (c ^^^ d) = shifts poly n c ^^^ shifts poly n d := by
  induction n generalizing c d with
  | zero => rfl
  | succ n ih => rw [shifts, shifts, shifts, shift_xor, ih]

/-- A register with nothing in its upper places only moves. -/
theorem shifts_of_upper_clear {n : Nat} {c : BitVec w}
    (h : ∀ i, w - n ≤ i → c.getLsbD i = false) : shifts poly n c = c <<< n := by
  induction n generalizing c with
  | zero => rw [shifts, BitVec.shiftLeft_zero]
  | succ n ih =>
    have hmsb : c.msb = false := by
      rw [BitVec.msb_eq_getLsbD_last]
      exact h _ (by omega)
    rw [shifts, shift, hmsb, if_neg Bool.false_ne_true, ih, ← BitVec.shiftLeft_add,
      Nat.add_comm]
    intro i hi
    rw [BitVec.getLsbD_shiftLeft]
    cases i with
    | zero => simp
    | succ i => simp [h i (by omega)]

/-- **Several places at once**: the upper places are looked up, the others move. -/
theorem shifts_eq_table (n : Nat) (c : BitVec w) :
    shifts poly n c = (c <<< n) ^^^ shifts poly n ((c >>> (w - n)) <<< (w - n)) := by
  have hsplit : c = (c ^^^ (c >>> (w - n)) <<< (w - n)) ^^^ (c >>> (w - n)) <<< (w - n) := by
    rw [BitVec.xor_assoc, BitVec.xor_self, BitVec.xor_zero]
  have hbit (i : Nat) : ((c >>> (w - n)) <<< (w - n)).getLsbD i =
      (decide (w - n ≤ i) && c.getLsbD i) := by
    rw [BitVec.getLsbD_shiftLeft, BitVec.getLsbD_ushiftRight]
    by_cases hw : i < w
    · by_cases hi : w - n ≤ i
      · simp [hw, hi, Nat.not_lt.mpr hi]
      · simp [hi, Nat.lt_of_not_le hi]
    · rw [BitVec.getLsbD_of_ge c i (Nat.le_of_not_lt hw)]
      simp [hw]
  have hlow : shifts poly n (c ^^^ (c >>> (w - n)) <<< (w - n)) =
      (c ^^^ (c >>> (w - n)) <<< (w - n)) <<< n := by
    apply shifts_of_upper_clear
    intro i hi
    rw [BitVec.getLsbD_xor, hbit]
    simp [hi]
  have hmove : (c ^^^ (c >>> (w - n)) <<< (w - n)) <<< n = c <<< n := by
    apply BitVec.eq_of_getLsbD_eq
    intro i hi
    rw [BitVec.getLsbD_shiftLeft, BitVec.getLsbD_shiftLeft, BitVec.getLsbD_xor, hbit]
    by_cases hn : i < n
    · simp [hn]
    · have hout : ¬ w - n ≤ i - n ∨ n ≥ w := by omega
      rcases hout with hout | hout
      · simp [hout]
      · omega
  conv_lhs => rw [hsplit]
  rw [shifts_xor, hlow, hmove]

/-! ## Feeding bits is shifting -/

theorem getLsbD_atTop (b : Bool) (i : Nat) :
    (atTop b : BitVec w).getLsbD i = (b && decide (i + 1 = w)) := by
  cases b with
  | false => simp [atTop]
  | true =>
    rw [atTop, if_pos rfl, BitVec.getLsbD_intMin, Bool.true_and]

/-- Only the upper places are used. -/
theorem getLsbD_aligned {bits : List Bool} {i : Nat} (hi : i + bits.length < w) :
    (aligned bits : BitVec w).getLsbD i = false := by
  induction bits generalizing i with
  | nil => exact BitVec.getLsbD_zero
  | cons b bits ih =>
    rw [List.length_cons] at hi
    rw [aligned, BitVec.getLsbD_xor, getLsbD_atTop, BitVec.getLsbD_ushiftRight, ih (by omega)]
    simp only [Bool.bne_false, Bool.and_eq_false_iff, decide_eq_false_iff_not]
    exact .inr (by omega)

/-- What was moved to the right moves back. -/
theorem shift_ushiftRight {c : BitVec w} (h : c.getLsbD 0 = false) : shift poly (c >>> 1) = c := by
  have hmsb : (c >>> 1).msb = false := by
    rw [BitVec.msb_eq_getLsbD_last, BitVec.getLsbD_ushiftRight]
    exact BitVec.getLsbD_of_ge _ _ (by omega)
  rw [shift, hmsb, if_neg Bool.false_ne_true]
  apply BitVec.eq_of_getLsbD_eq
  intro i hi
  rw [BitVec.getLsbD_shiftLeft, BitVec.getLsbD_ushiftRight]
  cases i with
  | zero => simp [h]
  | succ i => simp [hi, Nat.add_comm 1 i]

/-- **Feeding bits is shifting** the register with the bits in its upper places. -/
theorem checksum_eq_shifts {bits : List Bool} (hlen : bits.length ≤ w) (c : BitVec w) :
    checksum poly c bits = shifts poly bits.length (c ^^^ aligned bits) := by
  induction bits generalizing c with
  | nil => rw [checksum_nil, List.length_nil, shifts, aligned, BitVec.xor_zero]
  | cons b bits ih =>
    rw [List.length_cons] at hlen
    have hback : shift poly (aligned bits >>> 1) = aligned bits :=
      shift_ushiftRight poly (getLsbD_aligned (by omega))
    rw [checksum_cons, ih (by omega), List.length_cons, shifts, aligned, ← BitVec.xor_assoc,
      shift_xor, hback, feed]

/-! ## Bursts -/

/-- The polynomial has a constant term. -/
def Odd : Prop := poly.getLsbD 0 = true

variable {poly}

/-- Only the empty register becomes empty. -/
theorem shift_eq_zero (hodd : Odd poly) {c : BitVec w} (h : shift poly c = 0#w) : c = 0#w := by
  rw [shift] at h
  cases hmsb : c.msb with
  | true =>
    -- the constant term would stay
    rw [hmsb, if_pos rfl] at h
    have hbit := congrArg (BitVec.getLsbD · 0) h
    simp only [BitVec.getLsbD_xor, BitVec.getLsbD_shiftLeft, BitVec.getLsbD_zero] at hbit
    rw [show poly.getLsbD 0 = true from hodd] at hbit
    simp at hbit
  | false =>
    rw [hmsb, if_neg Bool.false_ne_true] at h
    apply BitVec.eq_of_getLsbD_eq
    intro i hi
    rw [BitVec.getLsbD_zero]
    by_cases hlast : i + 1 = w
    · rw [BitVec.msb_eq_getLsbD_last] at hmsb
      rw [← hmsb]
      congr 1
      omega
    · have hbit := congrArg (BitVec.getLsbD · (i + 1)) h
      simp only [BitVec.getLsbD_shiftLeft, BitVec.getLsbD_zero] at hbit
      simpa [show i + 1 < w by omega] using hbit

theorem shift_injective (hodd : Odd poly) {c d : BitVec w} (h : shift poly c = shift poly d) :
    c = d := by
  have hzero : shift poly (c ^^^ d) = 0#w := by rw [shift_xor, h, BitVec.xor_self]
  exact BitVec.xor_eq_zero_iff.mp (shift_eq_zero hodd hzero)

theorem shifts_injective (hodd : Odd poly) {n : Nat} {c d : BitVec w}
    (h : shifts poly n c = shifts poly n d) : c = d := by
  induction n generalizing c d with
  | zero => exact h
  | succ n ih => exact shift_injective hodd (ih h)

/-- The same bits keep different registers different. -/
theorem checksum_injective (hodd : Odd poly) {c d : BitVec w} {bits : List Bool}
    (h : checksum poly c bits = checksum poly d bits) : c = d := by
  induction bits generalizing c d with
  | nil => exact h
  | cons b bits ih =>
    have hfeed := shift_injective hodd (ih h)
    rw [← BitVec.xor_zero (x := c), ← BitVec.xor_zero (x := d),
      ← BitVec.xor_self (x := atTop b), ← BitVec.xor_assoc, hfeed, BitVec.xor_assoc]

/-- The bits in the upper places of a register can be read off it. -/
theorem aligned_injective {u v : List Bool} (hlen : u.length = v.length) (hw : u.length ≤ w)
    (h : (aligned u : BitVec w) = aligned v) : u = v := by
  induction u generalizing v with
  | nil => exact (List.length_eq_zero_iff.mp hlen.symm).symm
  | cons b u ih =>
    obtain ⟨d, v, rfl⟩ := List.exists_cons_of_length_eq_add_one hlen.symm
    rw [List.length_cons, List.length_cons, Nat.add_right_cancel_iff] at hlen
    rw [List.length_cons] at hw
    rw [aligned, aligned] at h
    have hbit (i : Nat) := congrArg (BitVec.getLsbD · i) h
    simp only [BitVec.getLsbD_xor, getLsbD_atTop, BitVec.getLsbD_ushiftRight] at hbit
    have hbd : b = d := by
      have htop := hbit (w - 1)
      rw [BitVec.getLsbD_of_ge _ _ (by omega), BitVec.getLsbD_of_ge _ _ (by omega)] at htop
      simpa [show w - 1 + 1 = w by omega] using htop
    subst hbd
    have hrest : (aligned u : BitVec w) = aligned v := by
      apply BitVec.eq_of_getLsbD_eq
      intro i hi
      cases i with
      | zero => rw [getLsbD_aligned (by omega), getLsbD_aligned (by omega)]
      | succ i =>
        have hnext := hbit i
        rw [Nat.add_comm 1 i] at hnext
        exact Bool.bne_right_inj.mp hnext
    rw [ih hlen (by omega) hrest]

/-- **A burst is detected**: messages that differ within a window that is no wider than the
register do not have the same check. -/
theorem checksum_burst (hodd : Odd poly) {c : BitVec w} {front u v rest : List Bool}
    (hlen : u.length = v.length) (hw : u.length ≤ w)
    (h : checksum poly c (front ++ (u ++ rest)) = checksum poly c (front ++ (v ++ rest))) :
    u = v := by
  rw [checksum_append, checksum_append, checksum_append, checksum_append] at h
  have hwindow := checksum_injective hodd h
  generalize checksum poly c front = d at hwindow
  rw [checksum_eq_shifts poly hw, checksum_eq_shifts poly (hlen ▸ hw), hlen] at hwindow
  have haligned := shifts_injective hodd hwindow
  rw [BitVec.xor_right_inj] at haligned
  exact aligned_injective hlen hw haligned

end Register

/-! ## The remainder of a division -/

section Remainder

open Polynomial

variable {w : Nat}

/-- The polynomial with the bits of a register as its coefficients. -/
noncomputable def toPoly (c : BitVec w) : (ZMod 2)[X] :=
  ∑ i ∈ Finset.range w, if c.getLsbD i then X ^ i else 0

/-- The polynomial of a message, the first bit highest. -/
noncomputable def bitsPoly : List Bool → (ZMod 2)[X]
  | [] => 0
  | b :: bits => (if b then X ^ bits.length else 0) + bitsPoly bits

/-- What is divided by: the highest term is not in the register. -/
noncomputable def divisor (poly : BitVec w) : (ZMod 2)[X] := X ^ w + toPoly poly

theorem toPoly_xor (c d : BitVec w) : toPoly (c ^^^ d) = toPoly c + toPoly d := by
  rw [toPoly, toPoly, toPoly, ← Finset.sum_add_distrib]
  refine Finset.sum_congr rfl fun i _ => ?_
  rw [BitVec.getLsbD_xor]
  cases c.getLsbD i <;> cases d.getLsbD i <;> simp [CharTwo.add_self_eq_zero]

theorem degree_toPoly_lt (c : BitVec w) : (toPoly c).degree < w := by
  refine mem_degreeLT.mp (Submodule.sum_mem _ fun i hi => mem_degreeLT.mpr ?_)
  split_ifs
  · rw [degree_X_pow]
    exact_mod_cast Finset.mem_range.mp hi
  · rw [degree_zero]
    exact WithBot.bot_lt_coe w

/-- Multiplying by `X` moves the bits one place to the left. -/
theorem X_mul_toPoly (c : BitVec w) :
    X * toPoly c = toPoly (c <<< 1) + if c.msb then X ^ w else 0 := by
  cases w with
  | zero => simp [toPoly, BitVec.msb_eq_getLsbD_last]
  | succ w =>
    rw [toPoly, Finset.sum_range_succ, toPoly, Finset.sum_range_succ', BitVec.msb_eq_getLsbD_last,
      mul_add, Finset.mul_sum, BitVec.getLsbD_shiftLeft]
    congr 1
    · refine Eq.trans (Finset.sum_congr rfl fun i hi => ?_) (add_zero _).symm
      have hlt := Finset.mem_range.mp hi
      rw [BitVec.getLsbD_shiftLeft, mul_ite, mul_zero, pow_succ']
      simp [hlt]
    · rw [mul_ite, mul_zero, pow_succ']
      rfl

theorem X_mul_toPoly_atTop (hw : 0 < w) (b : Bool) :
    X * toPoly (atTop b : BitVec w) = if b then X ^ w else 0 := by
  cases b with
  | false => simp [atTop, toPoly]
  | true =>
    rw [X_mul_toPoly]
    have hmsb : (atTop true : BitVec w).msb = true := by
      rw [BitVec.msb_eq_getLsbD_last, getLsbD_atTop]
      simp
      omega
    have hmove : (atTop true : BitVec w) <<< 1 = 0#w := by
      apply BitVec.eq_of_getLsbD_eq
      intro i hi
      rw [BitVec.getLsbD_shiftLeft, getLsbD_atTop, BitVec.getLsbD_zero]
      simp
      omega
    rw [hmsb, hmove]
    simp [toPoly]

/-- A shift of the register is a multiplication by `X`, up to the divisor. -/
theorem toPoly_shift (poly c : BitVec w) :
    toPoly (shift poly c) = X * toPoly c + if c.msb then divisor poly else 0 := by
  rw [X_mul_toPoly, shift]
  cases hmsb : c.msb with
  | true =>
    rw [if_pos rfl, if_pos rfl, if_pos rfl, toPoly_xor, divisor, add_assoc, ← add_assoc (X ^ w),
      CharTwo.add_self_eq_zero, zero_add]
  | false =>
    rw [if_neg Bool.false_ne_true, if_neg Bool.false_ne_true, if_neg Bool.false_ne_true, add_zero,
      add_zero]

/-- What is divided is the register behind the message, up to a multiple of the divisor. -/
theorem exists_quotient (hw : 0 < w) (poly : BitVec w) (c : BitVec w) (bits : List Bool) :
    ∃ q, toPoly (checksum poly c bits) + divisor poly * q =
      toPoly c * X ^ bits.length + bitsPoly bits * X ^ w := by
  induction bits generalizing c with
  | nil => exact ⟨0, by simp [bitsPoly]⟩
  | cons b bits ih =>
    obtain ⟨q, hq⟩ := ih (feed poly c b)
    have hfeed := toPoly_shift poly (c ^^^ atTop b)
    rw [toPoly_xor, mul_add, X_mul_toPoly_atTop hw] at hfeed
    -- the divisor is subtracted or not
    obtain ⟨m, hm⟩ : ∃ m : (ZMod 2)[X], divisor poly * m =
        if (c ^^^ atTop b).msb then divisor poly else 0 := by
      split_ifs
      · exact ⟨1, mul_one _⟩
      · exact ⟨0, mul_zero _⟩
    rw [← hm] at hfeed
    refine ⟨q + m * X ^ bits.length, ?_⟩
    rw [checksum_cons, mul_add, ← add_assoc, hq, feed, hfeed, List.length_cons, bitsPoly]
    have htwice : divisor poly * (m * X ^ bits.length) + divisor poly * (m * X ^ bits.length) = 0 :=
      CharTwo.add_self_eq_zero _
    split_ifs
    · linear_combination htwice
    · linear_combination htwice

/-- **The register holds a remainder**: that of the message, moved up by the width of the
register, with the first contents of the register added to its highest terms. -/
theorem toPoly_checksum (hw : 0 < w) (poly : BitVec w) (c : BitVec w) (bits : List Bool) :
    toPoly (checksum poly c bits) =
      (toPoly c * X ^ bits.length + bitsPoly bits * X ^ w) %ₘ divisor poly := by
  obtain ⟨q, hq⟩ := exists_quotient hw poly c bits
  have hmonic : (divisor poly).Monic := monic_X_pow_add (degree_toPoly_lt poly)
  have hdegree : (divisor poly).degree = w := by
    rw [divisor, degree_add_eq_left_of_degree_lt, degree_X_pow]
    rw [degree_X_pow]
    exact degree_toPoly_lt poly
  refine (div_modByMonic_unique q _ hmonic ⟨hq, ?_⟩).2.symm
  rw [hdegree]
  exact degree_toPoly_lt _

end Remainder

end Crc
