import Mathlib.Data.Nat.Bitwise
import Mathlib.Logic.Function.Basic
import Mathlib.Tactic.Common

/-!
# Registers written over a bus

A device has one register for each address, and a driver writes them one at a time.
What the registers hold afterwards is read off the list of the writes: each register
holds the last value written to its address (`after_apply`), and keeps its value if
there is none (`after_of_notMem`). A word that is written byte by byte is put together
again bit by bit (`testBit_byte`).
-/

namespace RegisterFile

variable {A V : Type} [DecidableEq A]

/-- The registers after the writes. -/
def after (regs : A → V) (writes : List (A × V)) : A → V :=
  writes.foldl (fun regs w => Function.update regs w.1 w.2) regs

/-- The last value that is written to an address. -/
def lastWrite (a : A) : List (A × V) → Option V
  | [] => none
  | w :: writes => (lastWrite a writes).or (if w.1 = a then some w.2 else none)

@[simp] theorem after_nil (regs : A → V) : after regs [] = regs := rfl

@[simp] theorem after_cons (regs : A → V) (w : A × V) (writes : List (A × V)) :
    after regs (w :: writes) = after (Function.update regs w.1 w.2) writes := rfl

theorem after_append (regs : A → V) (writes more : List (A × V)) :
    after regs (writes ++ more) = after (after regs writes) more :=
  List.foldl_append ..

theorem after_apply (regs : A → V) (writes : List (A × V)) (a : A) :
    after regs writes a = (lastWrite a writes).getD (regs a) := by
  induction writes generalizing regs with
  | nil => rfl
  | cons w writes ih =>
    rw [after_cons, ih, lastWrite]
    cases lastWrite a writes with
    | some v => rfl
    | none =>
      by_cases hw : w.1 = a
      · subst hw
        simp
      · simp [hw, Function.update_of_ne (Ne.symm hw)]

theorem lastWrite_append (a : A) (writes more : List (A × V)) :
    lastWrite a (writes ++ more) = (lastWrite a more).or (lastWrite a writes) := by
  induction writes with
  | nil => simp [lastWrite]
  | cons w writes ih => rw [List.cons_append, lastWrite, lastWrite, ih, Option.or_assoc]

theorem lastWrite_of_notMem {a : A} {writes : List (A × V)} (h : a ∉ writes.map Prod.fst) :
    lastWrite a writes = none := by
  induction writes with
  | nil => rfl
  | cons w writes ih =>
    obtain ⟨hw, hrest⟩ := not_or.mp (List.mem_cons.not.mp h)
    rw [lastWrite, ih hrest, if_neg (Ne.symm hw), Option.or_none]

/-- A register that is not written keeps its value. -/
theorem after_of_notMem {a : A} {writes : List (A × V)} (h : a ∉ writes.map Prod.fst)
    (regs : A → V) : after regs writes a = regs a := by
  rw [after_apply, lastWrite_of_notMem h]
  rfl

/-! ## Words in bytes -/

/-- A byte of a number, back in its place. -/
theorem testBit_byte (n k i : Nat) :
    ((n >>> k % 2 ^ 8) <<< k).testBit i = (decide (k ≤ i ∧ i < k + 8) && n.testBit i) := by
  rw [Nat.testBit_shiftLeft, Nat.testBit_mod_two_pow, Nat.testBit_shiftRight]
  by_cases hi : k ≤ i
  · have hlt : i - k < 8 ↔ i < k + 8 := by omega
    rw [Nat.add_sub_cancel' hi]
    simp [hi, hlt]
  · simp [hi]

/-- The lowest byte. -/
theorem testBit_lowByte (n i : Nat) : (n % 2 ^ 8).testBit i = (decide (i < 8) && n.testBit i) :=
  Nat.testBit_mod_two_pow n 8 i

theorem testBit_of_lt {n w i : Nat} (hn : n < 2 ^ w) (hi : w ≤ i) : n.testBit i = false :=
  Nat.testBit_lt_two_pow (Nat.lt_of_lt_of_le hn (Nat.pow_le_pow_right (by decide) hi))

end RegisterFile
