import LcdPico.Lib.Machine
import Mathlib.Logic.Function.Basic

/-!
# Buffers painted in turn

A swap chain paints one of several buffers at a time, shows the one just painted,
and goes on to the next. A paint starts from what the buffer was left with, not
from what is shown. `run_shows` says what is shown after any run: it is enough to
know what one paint does to a buffer that satisfies the invariant.
-/

/-- Buffers `B`, named by `ι`. -/
structure SwapChain (ι B : Type) where
  /-- the buffer painted next -/
  current : ι
  buffers : ι → B
  /-- the buffer shown -/
  visible : ι

namespace SwapChain

variable {ι B I : Type} [DecidableEq ι] (next : ι → ι) (paint : B → I → B)

/-- Paint the current buffer, show it, and go on to the next. -/
def step (s : SwapChain ι B) (i : I) : SwapChain ι B where
  current := next s.current
  buffers := Function.update s.buffers s.current (paint (s.buffers s.current) i)
  visible := s.current

/-- What is shown. -/
def shown (s : SwapChain ι B) : B := s.buffers s.visible

@[simp] theorem shown_step (s : SwapChain ι B) (i : I) :
    (s.step next paint i).shown = paint (s.buffers s.current) i :=
  Function.update_self ..

variable {next paint} {J : B → Prop}

/-- A paint touches one buffer: an invariant it keeps is kept of them all. -/
theorem step_invariant (hpaint : ∀ b i, J b → J (paint b i)) {s : SwapChain ι B}
    (hs : ∀ k, J (s.buffers k)) (i : I) (k : ι) : J ((s.step next paint i).buffers k) := by
  change J (Function.update s.buffers s.current (paint (s.buffers s.current) i) k)
  by_cases hk : k = s.current
  · rw [hk, Function.update_self]
    exact hpaint _ i (hs s.current)
  · rw [Function.update_of_ne hk]
    exact hs k

/-- What one paint makes of a buffer is what is shown at the end of a run. -/
theorem run_shows {Q : I → B → Prop} (hpaint : ∀ b i, J b → J (paint b i))
    (hshows : ∀ b i, J b → Q i (paint b i)) {s : SwapChain ι B} (hs : ∀ k, J (s.buffers k))
    (is : List I) (i : I) : Q i (Machine.run (step next paint) s (is ++ [i])).shown := by
  have hrun : ∀ k, J ((Machine.run (step next paint) s is).buffers k) :=
    Machine.run_invariant (P := fun s : SwapChain ι B => ∀ k, J (s.buffers k))
      (fun _ i hs => step_invariant hpaint hs i) hs is
  rw [Machine.run_append, Machine.run_cons, Machine.run_nil, shown_step]
  exact hshows _ i (hrun _)

end SwapChain
