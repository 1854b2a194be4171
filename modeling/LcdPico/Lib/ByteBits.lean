import Mathlib.Data.List.Basic

/-!
# The bits of a byte

The bits of a byte in the order in which a serial line carries them, the highest first, and
those of a buffer, byte after byte. Both can be read back.
-/

namespace LcdPico

/-- The bits of a byte, the highest first. -/
def byteBits (b : UInt8) : List Bool := (List.range 8).map fun i => b.toNat.testBit (7 - i)

/-- The bits of a buffer. -/
def bufferBits (buf : List UInt8) : List Bool := buf.flatMap byteBits

@[simp] theorem length_byteBits (b : UInt8) : (byteBits b).length = 8 := by
  rw [byteBits, List.length_map, List.length_range]

@[simp] theorem length_bufferBits (buf : List UInt8) :
    (bufferBits buf).length = 8 * buf.length := by
  induction buf with
  | nil => rfl
  | cons b buf ih =>
    rw [bufferBits, List.flatMap_cons, List.length_append, length_byteBits, ← bufferBits, ih,
      List.length_cons]
    omega

theorem byteBits_injective {a b : UInt8} (h : byteBits a = byteBits b) : a = b := by
  apply UInt8.toNat_inj.mp
  apply Nat.eq_of_testBit_eq
  intro i
  by_cases hi : i < 8
  · have hbit := congrArg (·[7 - i]?) h
    simp only [byteBits, List.getElem?_map, List.getElem?_range (show 7 - i < 8 by omega),
      Option.map_some, Option.some_inj, show 7 - (7 - i) = i by omega] at hbit
    exact hbit
  · have hle : 2 ^ 8 ≤ 2 ^ i := Nat.pow_le_pow_right (by decide) (Nat.le_of_not_lt hi)
    rw [Nat.testBit_lt_two_pow (Nat.lt_of_lt_of_le a.toNat_lt hle),
      Nat.testBit_lt_two_pow (Nat.lt_of_lt_of_le b.toNat_lt hle)]

theorem bufferBits_injective {x y : List UInt8} (h : bufferBits x = bufferBits y) : x = y := by
  induction x generalizing y with
  | nil =>
    have hlen := congrArg List.length h
    rw [length_bufferBits, length_bufferBits, List.length_nil] at hlen
    exact (List.length_eq_zero_iff.mp (by omega)).symm
  | cons a x ih =>
    cases y with
    | nil =>
      have hlen := congrArg List.length h
      rw [length_bufferBits, length_bufferBits, List.length_cons, List.length_nil] at hlen
      omega
    | cons b y =>
      obtain ⟨hbyte, hrest⟩ := List.append_inj (h : byteBits a ++ bufferBits x = _)
        (by rw [length_byteBits, length_byteBits])
      rw [byteBits_injective hbyte, ih hrest]

end LcdPico
