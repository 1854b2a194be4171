import LcdPico.Lib.Machine
import Mathlib.Data.List.Chain

/-!
# Machines that read a clock

Inputs of the machine may come with a clock reading, and what is known of two readings that follow
each other (that the second one is not earlier, or not much later) is a relation `R`.

* `timed_invariant`, `clocked_invariant`, `clocked_run` — an invariant of the state, the last
  reading and all outputs so far is kept by a run
* `isChain_cons_snoc` — the times of some outputs, with one more
-/

namespace Machine

universe u v w

variable {S : Type u} {I : Type v} {O : Type w} {step : S → I → S} {emit : S → I → List O}

/-- Conditions on the inputs alone hold along every run of them. -/
theorem within_of_forall {C : I → Prop} {is : List I} (h : ∀ i ∈ is, C i) (s : S) :
    Within step (fun _ i => C i) s is := by
  induction is generalizing s with
  | nil => trivial
  | cons i is ih =>
    obtain ⟨hi, his⟩ := List.forall_mem_cons.mp h
    exact ⟨hi, ih his (step s i)⟩

/-- The last reading: `t`, unless there is one in the list. -/
def lastReading (t : Nat) (readings : List Nat) : Nat :=
  (t :: readings).getLast (List.cons_ne_nil t readings)

/-- An invariant of the last clock reading, the state and the outputs so far. -/
theorem timed_invariant {time : I → Option Nat} {R : Nat → Nat → Prop} {C : S → I → Prop}
    {P : Nat → S → List O → Prop}
    (hstep : ∀ t s i log, P t s log → C s i →
      (time i = none → P t (step s i) (log ++ emit s i)) ∧
        ∀ u, time i = some u → R t u → P u (step s i) (log ++ emit s i))
    {t : Nat} {s : S} {log : List O} (h : P t s log) {is js : List I} (hC : Within step C s is)
    (hclock : (t :: (is ++ js).filterMap time).IsChain R) :
    P (lastReading t (is.filterMap time)) (run step s is) (log ++ trace step emit s is) ∧
      (lastReading t (is.filterMap time) :: js.filterMap time).IsChain R := by
  induction is generalizing t s log with
  | nil =>
    rw [trace_nil, List.append_nil]
    exact ⟨h, hclock⟩
  | cons i is ih =>
    obtain ⟨hquiet, hread⟩ := hstep t s i log h hC.1
    rw [run_cons, trace_cons, ← List.append_assoc]
    cases htime : time i with
    | none =>
      rw [List.cons_append, List.filterMap_cons_none htime] at hclock
      rw [List.filterMap_cons_none htime]
      exact ih (hquiet htime) hC.2 hclock
    | some u =>
      rw [List.cons_append, List.filterMap_cons_some htime, List.isChain_cons_cons] at hclock
      rw [List.filterMap_cons_some htime, lastReading, List.getLast_cons_cons]
      exact ih (hread u htime hclock.1) hC.2 hclock.2

/-- `timed_invariant`, where every input comes with a reading. -/
theorem clocked_invariant {time : I → Nat} {R : Nat → Nat → Prop} {C : S → I → Prop}
    {P : Nat → S → List O → Prop}
    (hstep : ∀ t s i log, P t s log → C s i → R t (time i) →
      P (time i) (step s i) (log ++ emit s i))
    {t : Nat} {s : S} {log : List O} (h : P t s log) {is js : List I} (hC : Within step C s is)
    (hclock : (t :: (is ++ js).map time).IsChain R) :
    P (lastReading t (is.map time)) (run step s is) (log ++ trace step emit s is) ∧
      (lastReading t (is.map time) :: js.map time).IsChain R := by
  rw [← List.filterMap_eq_map] at hclock ⊢
  refine timed_invariant (fun t s i log hs hi => ⟨fun hnone => ?_, fun u hu ht => ?_⟩) h hC hclock
  · exact absurd hnone (Option.some_ne_none (time i))
  · obtain rfl : time i = u := Option.some.inj hu
    exact hstep t s i log hs hi ht

/-- `clocked_invariant`, where the outputs do not matter. -/
theorem clocked_run {time : I → Nat} {R : Nat → Nat → Prop} {C : S → I → Prop}
    {P : Nat → S → Prop}
    (hstep : ∀ t s i, P t s → C s i → R t (time i) → P (time i) (step s i))
    {t : Nat} {s : S} (h : P t s) {is js : List I} (hC : Within step C s is)
    (hclock : (t :: (is ++ js).map time).IsChain R) :
    P (lastReading t (is.map time)) (run step s is) ∧
      (lastReading t (is.map time) :: js.map time).IsChain R :=
  @clocked_invariant S I Unit step (fun _ _ => []) time R C (fun t s _ => P t s)
    (fun t s i _ => hstep t s i) t s [] h is js hC hclock

/-- A chain that goes on. -/
theorem isChain_cons_snoc {α : Type u} {R : α → α → Prop} {a b : α} {l : List α}
    (h : (a :: l).IsChain R) (hb : R ((a :: l).getLast (List.cons_ne_nil a l)) b) :
    (a :: (l ++ [b])).IsChain R := by
  rw [← List.cons_append, List.isChain_append]
  refine ⟨h, List.isChain_singleton b, ?_⟩
  intro x hx y hy
  rw [List.getLast?_eq_some_getLast (List.cons_ne_nil a l), Option.mem_some_iff] at hx
  rw [List.head?_cons, Option.mem_some_iff] at hy
  rw [← hx, ← hy]
  exact hb

end Machine
