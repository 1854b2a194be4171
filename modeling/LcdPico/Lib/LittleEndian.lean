import Mathlib.Algebra.GroupWithZero.Nat
import Mathlib.Tactic.Common

/-!
# Numbers in memory, the lowest byte first

`encode n x` are the `n` low bytes of a number, `decode` reads bytes as a number, and
`field` reads one off the front of a list of bytes. Each undoes the other.
-/

namespace LittleEndian

/-- The `n` low bytes of a number. -/
def encode : Nat → Nat → List UInt8
  | 0, _ => []
  | n + 1, x => UInt8.ofNat x :: encode n (x / 256)

/-- The number in some bytes. -/
def decode : List UInt8 → Nat
  | [] => 0
  | b :: bs => b.toNat + 256 * decode bs

/-- The number in the first `n` bytes, and the bytes behind them. -/
def field (n : Nat) (mem : List UInt8) : Nat × List UInt8 := (decode (mem.take n), mem.drop n)

@[simp] theorem length_encode (n x : Nat) : (encode n x).length = n := by
  induction n generalizing x with
  | zero => rfl
  | succ n ih => rw [encode, List.length_cons, ih]

theorem decode_encode (n x : Nat) : decode (encode n x) = x % 256 ^ n := by
  induction n generalizing x with
  | zero => rw [encode, decode, Nat.pow_zero, Nat.mod_one]
  | succ n ih =>
    have hpow : 256 ^ (n + 1) = 256 * 256 ^ n := Nat.pow_succ'
    rw [encode, decode, ih, UInt8.toNat_ofNat', hpow, Nat.mod_mul]

/-- A number that fits is read back. -/
theorem decode_encode_of_lt {n x : Nat} (h : x < 256 ^ n) : decode (encode n x) = x := by
  rw [decode_encode, Nat.mod_eq_of_lt h]

theorem encode_decode (bs : List UInt8) : encode bs.length (decode bs) = bs := by
  induction bs with
  | nil => rfl
  | cons b bs ih =>
    have hb := b.toNat_lt
    have hlow : UInt8.ofNat (b.toNat + 256 * decode bs) = b := by
      apply UInt8.toNat_inj.mp
      rw [UInt8.toNat_ofNat']
      omega
    have hhigh : (b.toNat + 256 * decode bs) / 256 = decode bs := by omega
    rw [decode, List.length_cons, encode, hlow, hhigh, ih]

theorem decode_lt (bs : List UInt8) : decode bs < 256 ^ bs.length := by
  induction bs with
  | nil => exact Nat.one_pos
  | cons b bs ih =>
    have hb := b.toNat_lt
    rw [decode, List.length_cons, Nat.pow_succ]
    omega

/-! ## Reading off the front -/

theorem field_append {n x : Nat} (h : x < 256 ^ n) (mem : List UInt8) :
    field n (encode n x ++ mem) = (x, mem) := by
  rw [field, List.take_left' (length_encode n x), List.drop_left' (length_encode n x),
    decode_encode_of_lt h]

/-- What is read, written back. -/
theorem encode_field {n : Nat} {mem : List UInt8} (h : n ≤ mem.length) :
    encode n (field n mem).1 ++ (field n mem).2 = mem := by
  have hbytes := encode_decode (mem.take n)
  rw [List.length_take, Nat.min_eq_left h] at hbytes
  rw [field, hbytes, List.take_append_drop]

theorem field_lt {n : Nat} {mem : List UInt8} (h : n ≤ mem.length) :
    (field n mem).1 < 256 ^ n := by
  have hlt := decode_lt (mem.take n)
  rw [List.length_take, Nat.min_eq_left h] at hlt
  exact hlt

theorem length_field {n : Nat} {mem : List UInt8} :
    (field n mem).2.length = mem.length - n :=
  List.length_drop

end LittleEndian
