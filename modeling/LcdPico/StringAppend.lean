import LcdPico.Httpd
import LcdPico.Lib.CharArray

/-!
# Appending to a buffer (`strncatenate` in `util.c`)

The CSV page, the log of an access list and the PEM reader add strings to a buffer one
after the other. Here is `strncatenate` on the buffer, with every access checked and
with the conversions to `int`. On the strings it is what `Httpd` says
(`strncatenate?_holds`), so that a buffer holds what fits of all the strings.
-/

namespace LcdPico

open CharArray

/-- No object is larger. The buffers that the callers append to have 255 to 8192 bytes. -/
def PTRDIFF_MAX : Nat := 2 ^ 31 - 1

/-- `strncatenate`, with pointers that are not NULL -/
def strncatenate? {n : Nat} (dst : CArray Char n) (src : CString) (size : UInt32) :
    Option (CArray Char n) :=
  if size < 1 then some dst
  else do
    let len ← strnlen? dst size.toNat
    let used := Int32.ofNat len
    let free := (size - used.toUInt32).toInt32
    if free ≤ 1 then return dst
    -- `dst + used` would be in front of the buffer
    else if used < 0 then none
    else strncat? dst used.toInt.toNat src (free - 1).toUInt32.toNat

/-! ## One string -/

variable {size : UInt32} {buf : CArray Char size.toNat}

/-- The difference is that of the numbers. -/
theorem free_eq {len : Nat} (hlen : len ≤ size.toNat) :
    (size - (Int32.ofNat len).toUInt32).toInt32 = Int32.ofNat (size.toNat - len) := by
  have hsub : size - (Int32.ofNat len).toUInt32 = UInt32.ofNat (size.toNat - len) := by
    rw [Int32.toUInt32_ofNat', UInt32.ofNat_sub hlen, UInt32.ofNat_toNat]
  rw [hsub, UInt32.toInt32_ofNat']

theorem toNat_count {free : Nat} (hpos : 1 ≤ free) (hlt : free ≤ size.toNat) :
    (Int32.ofNat free - 1).toUInt32.toNat = free - 1 := by
  have hcount : (Int32.ofNat free - 1).toUInt32 = UInt32.ofNat (free - 1) := by
    rw [Int32.toUInt32_sub, Int32.toUInt32_ofNat', UInt32.ofNat_sub hpos]
    rfl
  have hle := Nat.le_trans (Nat.sub_le free 1) hlt
  rw [hcount, UInt32.toNat_ofNat_of_lt' (Nat.lt_of_le_of_lt hle size.toNat_lt)]

/-- The buffer holds afterwards what the strings make, and no access leaves it. -/
theorem strncatenate?_holds (hsize : size.toNat ≤ PTRDIFF_MAX) {dst src : CString}
    (h : Holds buf dst) (hsrc : NUL ∉ src) :
    ∃ buf', strncatenate? buf src size = some buf' ∧
      Holds buf' (strncatenate dst src size.toNat) := by
  have hlt := h.length_lt
  have hpos : ¬ size < 1 := by
    rw [UInt32.lt_iff_toNat_lt, UInt32.toNat_one]
    omega
  have hused : (Int32.ofNat dst.length).toInt = dst.length :=
    Int32.toInt_ofNat_of_lt (Nat.lt_of_lt_of_le hlt (Nat.le_succ_of_le hsize))
  have hfree : (Int32.ofNat (size.toNat - dst.length)).toInt = (size.toNat - dst.length : Nat) :=
    Int32.toInt_ofNat_of_lt (Nat.lt_succ_of_le (Nat.le_trans (Nat.sub_le _ _) hsize))
  have hfull : Int32.ofNat (size.toNat - dst.length) ≤ 1 ↔ size.toNat - dst.length ≤ 1 := by
    rw [Int32.le_iff_toInt_le, hfree]
    exact Int.ofNat_le
  rw [strncatenate?, if_neg hpos, h.strnlen?_eq, strncatenate]
  simp only [Option.bind_eq_bind, Option.bind_some, free_eq (Nat.le_of_lt hlt)]
  by_cases hroom : size.toNat - dst.length ≤ 1
  · rw [if_pos (hfull.mpr hroom), if_pos hroom]
    exact ⟨buf, rfl, h⟩
  · have hstart : ¬ Int32.ofNat dst.length < 0 := by
      rw [Int32.lt_iff_toInt_lt, hused]
      exact Int.not_lt.mpr (Int.natCast_nonneg _)
    rw [if_neg (hfull.not.mpr hroom), if_neg hroom, if_neg hstart, hused, Int.toNat_natCast,
      toNat_count (by omega) (Nat.sub_le _ _)]
    have hfit : dst.length + (src.take (size.toNat - dst.length - 1)).length < size.toNat := by
      rw [List.length_take]
      omega
    exact strncat?_holds h (Nat.le_refl _) hsrc hfit

/-! ## Strings one after the other -/

/-- Each append keeps the buffer in step with the strings. -/
theorem foldlM_strncatenate?_holds (hsize : size.toNat ≤ PTRDIFF_MAX) {dst : CString}
    (h : Holds buf dst) {srcs : List CString} (hsrcs : ∀ src ∈ srcs, NUL ∉ src) :
    ∃ buf', srcs.foldlM (strncatenate? · · size) buf = some buf' ∧
      Holds buf' (srcs.foldl (strncatenate · · size.toNat) dst) := by
  induction srcs generalizing buf dst with
  | nil => exact ⟨buf, rfl, h⟩
  | cons src srcs ih =>
    obtain ⟨hsrc, hrest⟩ := List.forall_mem_cons.mp hsrcs
    obtain ⟨next, hnext, hholds⟩ := strncatenate?_holds hsize h hsrc
    rw [List.foldlM_cons, hnext, List.foldl_cons]
    exact ih hholds hrest

/-- Strings that are appended one after the other leave what fits of their concatenation
in the buffer, with a NUL behind it, and no access leaves the buffer. -/
theorem strncatenate_keeps_what_fits (hsize : size.toNat ≤ PTRDIFF_MAX) {init : CString}
    (hinit : Holds buf init) {srcs : List CString} (hsrcs : ∀ src ∈ srcs, NUL ∉ src) :
    ∃ buf', srcs.foldlM (strncatenate? · · size) buf = some buf' ∧
      Holds buf' ((init ++ srcs.flatten).take (size.toNat - 1)) := by
  obtain ⟨buf', hrun, hholds⟩ := foldlM_strncatenate?_holds hsize hinit hsrcs
  rw [foldl_strncatenate hinit.length_lt] at hholds
  exact ⟨buf', hrun, hholds⟩

/-- A buffer of eight bytes with two characters in it. -/
def eightBytes : CArray Char (8 : UInt32).toNat := #v['a', 'b', NUL, '?', '?', '?', '?', '?']

theorem strncatenate_keeps_what_fits_eight :
    ∃ buf', ["cd".toList, [], "efghi".toList, "j".toList].foldlM (strncatenate? · · 8) eightBytes =
        some buf' ∧ Holds buf' "abcdefg".toList := by
  have hinit : Holds eightBytes "ab".toList := ⟨by decide, by decide⟩
  have hsrcs : ∀ src ∈ ["cd".toList, [], "efghi".toList, "j".toList], NUL ∉ src := by
    simp only [List.forall_mem_cons]
    exact ⟨by decide, by decide, by decide, by decide, List.forall_mem_nil _⟩
  exact strncatenate_keeps_what_fits (by decide) hinit hsrcs

end LcdPico
