import LcdPico.Lib.Machine

/-!
# Sweeps

A sweep goes through the positions below `n`, one visit per call: the call visits the next
position that its predicate allows, and goes on behind it next time. The predicate may be
another one at every call.

The positions visited come in order, none twice (`visits_increasing`), and of the positions
passed only those are left out that some call did not allow (`visited_of_passed`).
-/

namespace Sweep

/-- The first position from `k` on that `p` allows. -/
def next (n : Nat) (p : Nat → Bool) (k : Nat) : Option Nat := (List.range' k (n - k)).find? p

/-- The position to go on from. -/
def step (n : Nat) (k : Nat) (p : Nat → Bool) : Nat := ((next n p k).getD (max k n)) + 1

/-- The position visited. -/
def visit (n : Nat) (k : Nat) (p : Nat → Bool) : List Nat := (next n p k).toList

variable {n : Nat} {p : Nat → Bool} {k i : Nat}

theorem next_eq_none_iff : next n p k = none ↔ ∀ j, k ≤ j → j < n → p j = false := by
  rw [next, List.find?_eq_none]
  refine forall_congr' fun j => ?_
  rw [List.mem_range'_1, Bool.not_eq_true]
  constructor
  · intro h hk hn
    exact h ⟨hk, by omega⟩
  · rintro h ⟨hk, hn⟩
    exact h hk (by omega)

theorem next_eq_some (h : next n p k = some i) :
    k ≤ i ∧ i < n ∧ p i = true ∧ ∀ j, k ≤ j → j < i → p j = false := by
  rw [next, List.find?_eq_some_iff_getElem] at h
  obtain ⟨hp, m, hm, rfl, hbefore⟩ := h
  rw [List.length_range'] at hm
  rw [List.getElem_range', Nat.one_mul] at hp ⊢
  refine ⟨Nat.le_add_right _ _, by omega, hp, fun j hk hj => ?_⟩
  have hnot := hbefore (j - k) (by omega)
  rw [List.getElem_range', Nat.one_mul, Nat.add_sub_cancel' hk] at hnot
  rw [Bool.not_eq_true'] at hnot
  exact hnot

/-- Every call moves on. -/
theorem lt_step (n k : Nat) (p : Nat → Bool) : k < step n k p := by
  rw [step]
  cases h : next n p k with
  | none => exact Nat.lt_succ_of_le (Nat.le_max_left k n)
  | some i => exact Nat.lt_succ_of_le (next_eq_some h).1

/-- A position that a call passes without a visit was not allowed. -/
theorem visit_of_step (hk : k ≤ i) (hn : i < n) (hpassed : i < step n k p) (hp : p i = true) :
    i ∈ visit n k p := by
  rw [visit]
  rw [step] at hpassed
  cases h : next n p k with
  | none => exact absurd hp (by rw [next_eq_none_iff.mp h i hk hn]; decide)
  | some j =>
    obtain ⟨-, -, -, hbefore⟩ := next_eq_some h
    rw [h, Option.getD_some] at hpassed
    obtain hij | rfl := Nat.lt_or_eq_of_le (Nat.le_of_lt_succ hpassed)
    · exact absurd hp (by rw [hbefore i hk hij]; decide)
    · exact List.mem_singleton_self i

variable (n)

/-- The positions that the calls with the predicates `ps` visit. -/
def visits (k : Nat) (ps : List (Nat → Bool)) : List Nat := Machine.trace (step n) (visit n) k ps

variable {n}

/-- What is visited lies ahead, and its call allowed it. -/
theorem of_mem_visits {ps : List (Nat → Bool)} (h : i ∈ visits n k ps) :
    k ≤ i ∧ i < n ∧ ∃ p ∈ ps, p i = true := by
  induction ps generalizing k with
  | nil => exact absurd h List.not_mem_nil
  | cons p ps ih =>
    obtain hnow | hlater := List.mem_append.mp h
    · obtain ⟨hk, hn, hp, -⟩ := next_eq_some (Option.mem_toList.mp hnow)
      exact ⟨hk, hn, p, List.mem_cons_self, hp⟩
    · obtain ⟨hk, hn, q, hq, hp⟩ := ih hlater
      exact ⟨Nat.le_trans (Nat.le_of_lt (lt_step n k p)) hk, hn, q, List.mem_cons_of_mem _ hq, hp⟩

/-- No position is visited twice, and none after a later one. -/
theorem visits_increasing (k : Nat) (ps : List (Nat → Bool)) :
    (visits n k ps).Pairwise (· < ·) := by
  induction ps generalizing k with
  | nil => exact List.Pairwise.nil
  | cons p ps ih =>
    refine List.pairwise_append.mpr ⟨?_, ih _, fun i hi j hj => ?_⟩
    · rw [visit]
      cases next n p k with
      | none => exact List.Pairwise.nil
      | some i => exact List.pairwise_singleton _ i
    · have hlater := (of_mem_visits hj).1
      rw [step, show next n p k = some i from Option.mem_toList.mp hi] at hlater
      exact hlater

/-- A position that was passed, and that every call allowed, was visited. -/
theorem visited_of_passed {ps : List (Nat → Bool)} (hk : k ≤ i) (hn : i < n)
    (hpassed : i < Machine.run (step n) k ps) (hps : ∀ p ∈ ps, p i = true) :
    i ∈ visits n k ps := by
  induction ps generalizing k with
  | nil => exact absurd hpassed (Nat.not_lt_of_le hk)
  | cons p ps ih =>
    obtain ⟨hp, hps⟩ := List.forall_mem_cons.mp hps
    rcases Nat.lt_or_ge i (step n k p) with hnow | hlater
    · exact List.mem_append_left _ (visit_of_step hk hn hnow hp)
    · exact List.mem_append_right _ (ih hlater hpassed hps)

end Sweep
