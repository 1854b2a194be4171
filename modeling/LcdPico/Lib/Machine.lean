import Mathlib.Data.List.Basic
import Mathlib.Tactic.Common

/-!
# Machines: runs, invariants, traces and two-run relations

A machine is a step function `step : S → I → S` over a list of inputs; a run is
the fold of the step. What is proved once here and used for every component:

* `run_invariant` — an invariant kept by each step holds after every run;
* `within_of_invariant`, `within_congr` — conditions that hold, or agree, along every run;
* `foldlM_isSome_iff_within` — where a run that may get stuck goes through;
* `throughout_iff_within` — a property holds all along the runs whose steps meet a
  condition, and of no others;
* `run_related` — a relation between two machines kept by each step relates the
  ends of two runs over the same inputs (the relational form of the above, with
  a condition on the steps taken);
* `trace` — the outputs of a run, with `trace_append`;
* `trace_eq_iff_within` — two machines have the same outputs all along the runs whose
  steps meet a condition, and along no others.
-/

namespace Machine

universe u v w x

variable {S : Type u} {S' : Type x} {I : Type v} {O : Type w}

/-- The state after the inputs `is`. -/
def run (step : S → I → S) : S → List I → S
  | s, [] => s
  | s, i :: is => run step (step s i) is

@[simp] theorem run_nil (step : S → I → S) (s : S) : run step s [] = s := rfl

@[simp] theorem run_cons (step : S → I → S) (s : S) (i : I) (is : List I) :
    run step s (i :: is) = run step (step s i) is := rfl

theorem run_append (step : S → I → S) (s : S) (is js : List I) :
    run step s (is ++ js) = run step (run step s is) js := by
  induction is generalizing s with
  | nil => rfl
  | cons i is ih => exact ih (step s i)

/-- The states a machine can be in, started in a state that satisfies `Init`. -/
inductive Reachable (Init : S → Prop) (step : S → I → S) : S → Prop
  /-- a start state -/
  | init {s : S} : Init s → Reachable Init step s
  /-- one more input -/
  | step {s : S} (i : I) : Reachable Init step s → Reachable Init step (step s i)

/-- An invariant of every step holds in every reachable state. -/
theorem Reachable.invariant {Init : S → Prop} {step : S → I → S} {P : S → Prop}
    (hinit : ∀ s, Init s → P s) (hstep : ∀ s i, P s → P (step s i)) {s : S}
    (h : Reachable Init step s) : P s := by
  induction h with
  | init h => exact hinit _ h
  | step i _ ih => exact hstep _ i ih

/-- A run from a reachable state ends in a reachable state. -/
theorem Reachable.run {Init : S → Prop} {step : S → I → S} {s : S}
    (h : Reachable Init step s) (is : List I) : Reachable Init step (Machine.run step s is) := by
  induction is generalizing s with
  | nil => exact h
  | cons i is ih => exact ih (h.step i)

/-- An invariant kept by each step is kept by a run. -/
theorem run_invariant {step : S → I → S} {P : S → Prop} (hstep : ∀ s i, P s → P (step s i))
    {s : S} (hs : P s) (is : List I) : P (run step s is) := by
  induction is generalizing s with
  | nil => exact hs
  | cons i is ih => exact ih (hstep s i hs)

/-- Every step of the run `is` from `s` meets the condition `C`. -/
def Within (step : S → I → S) (C : S → I → Prop) : S → List I → Prop
  | _, [] => True
  | s, i :: is => C s i ∧ Within step C (step s i) is

instance decidableWithin (step : S → I → S) (C : S → I → Prop) [∀ s i, Decidable (C s i)] :
    (s : S) → (is : List I) → Decidable (Within step C s is)
  | _, [] => .isTrue trivial
  | s, i :: is =>
    have : Decidable (Within step C (step s i) is) := decidableWithin step C (step s i) is
    inferInstanceAs (Decidable (_ ∧ _))

/-- A weaker condition. -/
theorem Within.imp {step : S → I → S} {C D : S → I → Prop} (h : ∀ s i, C s i → D s i) {s : S}
    {is : List I} (hC : Within step C s is) : Within step D s is := by
  induction is generalizing s with
  | nil => trivial
  | cons i is ih => exact ⟨h s i hC.1, ih hC.2⟩

/-- A condition that holds of every step, or a weaker one that needs no step. -/
theorem within_or {step : S → I → S} {W : Prop} {C : S → I → Prop} {s : S} {is : List I}
    (h : W ∨ Within step C s is) : Within step (fun s i => W ∨ C s i) s is := by
  induction is generalizing s with
  | nil => trivial
  | cons i is ih =>
    rcases h with hW | ⟨hi, his⟩
    · exact ⟨.inl hW, ih (.inl hW)⟩
    · exact ⟨.inr hi, ih (.inr his)⟩

/-- An invariant kept by each step that meets `C` is kept by a run of such steps. -/
theorem run_within {step : S → I → S} {P : S → Prop} {C : S → I → Prop}
    (hstep : ∀ s i, P s → C s i → P (step s i)) {s : S} (hs : P s) {is : List I}
    (hC : Within step C s is) : P (run step s is) := by
  induction is generalizing s with
  | nil => exact hs
  | cons i is ih => exact ih (hstep s i hs hC.1) hC.2

theorem within_append {step : S → I → S} {C : S → I → Prop} {s : S} {is js : List I} :
    Within step C s (is ++ js) ↔ Within step C s is ∧ Within step C (run step s is) js := by
  induction is generalizing s with
  | nil => exact ⟨fun h => ⟨trivial, h⟩, fun h => h.2⟩
  | cons i is ih =>
    rw [List.cons_append, run_cons, Within, Within, ih, and_assoc]

/-- A condition that holds of every step from a state that satisfies the invariant
`J` holds along every run. -/
theorem within_of_invariant {step : S → I → S} {J : S → Prop} {C : S → I → Prop}
    (hkeep : ∀ s i, J s → J (step s i)) (hC : ∀ s i, J s → C s i) {s : S} (hs : J s)
    (is : List I) : Within step C s is := by
  induction is generalizing s with
  | nil => trivial
  | cons i is ih => exact ⟨hC s i hs, ih (hkeep s i hs)⟩

/-- Two conditions that agree on the steps from a state that satisfies the invariant
`J` hold along the same runs. -/
theorem within_congr {step : S → I → S} {J : S → Prop} {C D : S → I → Prop}
    (hkeep : ∀ s i, J s → J (step s i)) (hiff : ∀ s i, J s → (C s i ↔ D s i)) {s : S} (hs : J s)
    (is : List I) : Within step C s is ↔ Within step D s is := by
  induction is generalizing s with
  | nil => exact Iff.rfl
  | cons i is ih => exact and_congr (hiff s i hs) (ih (hkeep s i hs))

/-- A run that may get stuck, next to a machine that follows it: it goes through where all
steps of the machine meet the condition under which the step of the run goes through. -/
theorem foldlM_isSome_iff_within {step? : S → I → Option S} {step : S' → I → S'}
    {R : S → S' → Prop} {C : S' → I → Prop}
    (hstep : ∀ s t i, R s t → ((step? s i).isSome = true ↔ C t i))
    (hkeep : ∀ s t i s', R s t → step? s i = some s' → R s' (step t i)) {s : S} {t : S'}
    (hR : R s t) (is : List I) : (is.foldlM step? s).isSome = true ↔ Within step C t is := by
  induction is generalizing s t with
  | nil => exact ⟨fun _ => trivial, fun _ => rfl⟩
  | cons i is ih =>
    rw [List.foldlM_cons, Within, ← hstep s t i hR]
    cases hs : step? s i with
    | none => exact ⟨fun h => absurd h Bool.false_ne_true, fun h => absurd h.1 Bool.false_ne_true⟩
    | some s' =>
      exact (ih (hkeep s t i s' hR hs)).trans ⟨fun h => ⟨rfl, h⟩, fun h => h.2⟩

/-- `P` holds at the start of the run `is` from `s` and after each of its steps. -/
def Throughout (step : S → I → S) (P : S → Prop) : S → List I → Prop
  | s, [] => P s
  | s, i :: is => P s ∧ Throughout step P (step s i) is

/-- When the invariant `J` is kept exactly by the steps after which `P` holds, `P`
holds throughout the runs of such steps, and of no others. -/
theorem throughout_iff_within {step : S → I → S} {J P : S → Prop} {C : S → I → Prop}
    (hJ : ∀ s, J s → P s) (hkeep : ∀ s i, J s → C s i → J (step s i))
    (hneed : ∀ s i, J s → P (step s i) → C s i) {s : S} (hs : J s) (is : List I) :
    Throughout step P s is ↔ Within step C s is := by
  induction is generalizing s with
  | nil => exact iff_of_true (hJ s hs) trivial
  | cons i is ih =>
    constructor
    · rintro ⟨-, his⟩
      have hnext : P (step s i) := by
        cases is with
        | nil => exact his
        | cons j is => exact his.1
      have hC := hneed s i hs hnext
      exact ⟨hC, (ih (hkeep s i hs hC)).mp his⟩
    · rintro ⟨hC, his⟩
      exact ⟨hJ s hs, (ih (hkeep s i hs hC)).mpr his⟩

/-- Two machines whose steps keep a relation, as long as the first one's steps
meet `C`, end related after the same inputs. -/
theorem run_related {step : S → I → S} {step' : S' → I → S'} {R : S → S' → Prop}
    {C : S → I → Prop}
    (hstep : ∀ s s' i, R s s' → C s i → R (step s i) (step' s' i)) {s : S} {s' : S'}
    (hs : R s s') {is : List I} (hC : Within step C s is) :
    R (run step s is) (run step' s' is) := by
  induction is generalizing s s' with
  | nil => exact hs
  | cons i is ih => exact ih (hstep s s' i hs hC.1) hC.2

/-! ## Outputs -/

/-- The outputs of a run, in order. -/
def trace (step : S → I → S) (emit : S → I → List O) : S → List I → List O
  | _, [] => []
  | s, i :: is => emit s i ++ trace step emit (step s i) is

@[simp] theorem trace_nil (step : S → I → S) (emit : S → I → List O) (s : S) :
    trace step emit s [] = [] := rfl

@[simp] theorem trace_cons (step : S → I → S) (emit : S → I → List O) (s : S) (i : I)
    (is : List I) :
    trace step emit s (i :: is) = emit s i ++ trace step emit (step s i) is := rfl

theorem trace_append (step : S → I → S) (emit : S → I → List O) (s : S) (is js : List I) :
    trace step emit s (is ++ js) =
      trace step emit s is ++ trace step emit (run step s is) js := by
  induction is generalizing s with
  | nil => rfl
  | cons i is ih =>
    rw [List.cons_append, trace_cons, trace_cons, run_cons, ih (step s i), List.append_assoc]

/-- Two machines kept in relation by the steps that meet `C`, which are those on which
they emit the same, have the same outputs all along the runs of such steps, and of
no others. -/
theorem trace_eq_iff_within {step : S → I → S} {emit : S → I → List O} {step' : S' → I → S'}
    {emit' : S' → I → List O} {R : S → S' → Prop} {C : S' → I → Prop}
    (hkeep : ∀ s s' i, R s s' → C s' i → R (step s i) (step' s' i))
    (hemit : ∀ s s' i, R s s' → (emit s i = emit' s' i ↔ C s' i)) {s : S} {s' : S'}
    (hs : R s s') (is : List I) :
    (∀ js ks, is = js ++ ks → trace step emit s js = trace step' emit' s' js) ↔
      Within step' C s' is := by
  induction is generalizing s s' with
  | nil =>
    refine iff_of_true (fun js ks h => ?_) trivial
    obtain ⟨rfl, -⟩ := List.nil_eq_append_iff.mp h
    rfl
  | cons i is ih =>
    constructor
    · intro hall
      have hfirst : emit s i = emit' s' i := by
        have hone := hall [i] is rfl
        simpa only [trace_cons, trace_nil, List.append_nil] using hone
      have hC := (hemit s s' i hs).mp hfirst
      refine ⟨hC, (ih (hkeep s s' i hs hC)).mp fun js ks h => ?_⟩
      have hmore := hall (i :: js) ks (by rw [h, List.cons_append])
      rw [trace_cons, trace_cons, hfirst] at hmore
      exact List.append_cancel_left hmore
    · rintro ⟨hC, his⟩ js ks h
      cases js with
      | nil => rfl
      | cons j js =>
        obtain ⟨rfl, htail⟩ := List.cons.inj h
        rw [trace_cons, trace_cons, (hemit s s' i hs).mpr hC,
          (ih (hkeep s s' i hs hC)).mpr his js ks htail]

end Machine
