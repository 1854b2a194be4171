import LcdPico.Lib.Machine
import Mathlib.Data.List.Chain

/-!
# Tasks that are polled

A task with a period is polled at clock readings of its own. It is started at a poll if it
never was started, or more than the period ago; there is no timer behind it.

* `starts_spaced` — two starts are more than a period apart
* `starts_close` — and not further than the period and the time between two polls
-/

namespace Periodic

/-- It is time, with the last start at `t`; 0 is for never. -/
def due (period t now : Nat) : Bool := t == 0 || t + period < now

/-- The last start, after a poll. -/
def poll (period t now : Nat) : Nat := if due period t now then now else t

/-- The start that a poll makes. -/
def start (period t now : Nat) : List Nat := if due period t now then [now] else []

/-- The starts that the polls `nows` make. -/
def starts (period t : Nat) (nows : List Nat) : List Nat :=
  Machine.trace (poll period) (start period) t nows

variable {period t now : Nat} {nows : List Nat}

theorem due_iff : due period t now = true ↔ t = 0 ∨ t + period < now := by
  rw [due, Bool.or_eq_true, beq_iff_eq, decide_eq_true_iff]

/-- A poll starts the task, or leaves it for a later poll. -/
theorem starts_cons (period t now : Nat) (nows : List Nat) :
    starts period t (now :: nows) =
      if due period t now then now :: starts period now nows else starts period t nows := by
  rw [starts, Machine.trace_cons, start, poll]
  split
  · rfl
  · rfl

/-- After a poll, the last start is not further away than the period. -/
theorem le_poll (period t now : Nat) : now ≤ poll period t now + period := by
  rw [poll]
  split
  · exact Nat.le_add_right now period
  · rename_i hdue
    rw [due_iff, not_or] at hdue
    exact Nat.le_of_not_lt hdue.2

/-- A start comes more than the period after the last one. -/
theorem lt_of_mem_starts (ht : t ≠ 0) (hpos : ∀ now ∈ nows, now ≠ 0) {x : Nat}
    (hx : x ∈ starts period t nows) : t + period < x := by
  induction nows generalizing t with
  | nil => exact absurd hx List.not_mem_nil
  | cons now nows ih =>
    obtain ⟨hnow, hpos⟩ := List.forall_mem_cons.mp hpos
    rw [starts_cons] at hx
    split at hx
    · rename_i hdue
      have hlt := (due_iff.mp hdue).resolve_left ht
      obtain rfl | hx := List.mem_cons.mp hx
      · exact hlt
      · have hlater := ih hnow hpos hx
        omega
    · exact ih ht hpos hx

/-- Two starts are more than the period apart. -/
theorem starts_spaced (period t : Nat) (hpos : ∀ now ∈ nows, now ≠ 0) :
    (starts period t nows).Pairwise fun a b => a + period < b := by
  induction nows generalizing t with
  | nil => exact List.Pairwise.nil
  | cons now nows ih =>
    obtain ⟨hnow, hpos⟩ := List.forall_mem_cons.mp hpos
    rw [starts_cons]
    split
    · exact List.pairwise_cons.mpr ⟨fun x hx => lt_of_mem_starts hnow hpos hx, ih now hpos⟩
    · exact ih t hpos

/-- The start at `t` and those after it, with the last poll at `last`. -/
theorem cons_starts_close {d last : Nat} (hlast : last ≤ t + period)
    (hpolls : (last :: nows).IsChain fun a b => b ≤ a + d) :
    (t :: starts period t nows).IsChain fun a b => b ≤ a + period + d := by
  induction nows generalizing t last with
  | nil => exact .singleton t
  | cons now nows ih =>
    obtain ⟨hgap, hpolls⟩ := List.isChain_cons_cons.mp hpolls
    have hpoll := le_poll period t now
    rw [starts_cons]
    split
    · rename_i hdue
      rw [poll, if_pos hdue] at hpoll
      exact List.isChain_cons_cons.mpr ⟨by omega, ih hpoll hpolls⟩
    · rename_i hdue
      rw [poll, if_neg hdue] at hpoll
      exact ih hpoll hpolls

/-- If no poll comes more than `d` after the one before it, no start comes more than the period
and `d` after the one before it. -/
theorem starts_close {d : Nat} (period t : Nat) (hpolls : nows.IsChain fun a b => b ≤ a + d) :
    (starts period t nows).IsChain fun a b => b ≤ a + period + d := by
  induction nows generalizing t with
  | nil => exact .nil
  | cons now nows ih =>
    rw [starts_cons]
    split
    · exact cons_starts_close (Nat.le_add_right now period) hpolls
    · exact ih t hpolls.tail

end Periodic
