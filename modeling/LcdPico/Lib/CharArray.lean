import LcdPico.Lib.CheckedArray
import LcdPico.Lib.CText

/-!
# C strings in arrays

An array holds a string if it begins with the characters of the string and a NUL behind
them. The functions of the C library that look for the NUL and that append make checked
accesses: they get stuck where they would leave the array. `strncat?_holds` says what an
append leaves behind if there is room for it.
-/

namespace CharArray

open CArray

/-- The character that ends a string. -/
def NUL : Char := Char.ofNat 0

variable {n : Nat}

/-- The array holds the string. -/
structure Holds (a : CArray Char n) (s : CString) : Prop where
  noNul : NUL ∉ s
  ended : a.pre (s.length + 1) = s ++ [NUL]

/-! ## The functions -/

/-- The index of the first NUL from `i` on, among `k` elements; `i + k` if there is none. -/
def findNul? (a : CArray Char n) : Nat → Nat → Option Nat
  | i, 0 => some i
  | i, k + 1 => do
    let c ← a.rd? i
    if c = NUL then return i else findNul? a (i + 1) k

/-- `strnlen` -/
def strnlen? (a : CArray Char n) (maxlen : Nat) : Option Nat := findNul? a 0 maxlen

/-- The end of the string at `pos`. Without a NUL up to the end of the array, the search
leaves it. -/
def strend? (a : CArray Char n) (pos : Nat) : Option Nat := findNul? a pos (n + 1 - pos)

/-- Characters that are written one after the other. -/
def put? (a : CArray Char n) (pos : Nat) : CString → Option (CArray Char n)
  | [] => some a
  | c :: s => do
    let a ← a.wr? pos c
    put? a (pos + 1) s

/-- `strncat`, to the string at `pos`: at most `count` characters, and a NUL -/
def strncat? (a : CArray Char n) (pos : Nat) (src : CString) (count : Nat) :
    Option (CArray Char n) := do
  let stop ← strend? a pos
  let a ← put? a stop (src.take count)
  a.wr? (stop + (src.take count).length) NUL

/-! ## Strings that are held -/

variable {a : CArray Char n} {s : CString}

theorem Holds.length_lt (h : Holds a s) : s.length < n := by
  have hlen := congrArg List.length h.ended
  rw [length_pre, List.length_append, List.length_singleton] at hlen
  omega

/-- The characters in front of the NUL. -/
theorem Holds.pre_eq (h : Holds a s) : a.pre s.length = s := by
  have htake := congrArg (List.take s.length) h.ended
  rwa [List.take_left, pre, List.take_take, Nat.min_eq_left (Nat.le_succ _)] at htake

theorem Holds.rd_eq (h : Holds a s) {i : Nat} (hi : i ≤ s.length) :
    a.rd i = (s ++ [NUL]).getD i default := by
  rw [← h.ended]
  exact rd_eq_getD_pre a (Nat.lt_succ_of_le hi)

theorem Holds.rd_ne_nul (h : Holds a s) {i : Nat} (hi : i < s.length) : a.rd i ≠ NUL := by
  have hmem : s[i] ∈ s := List.getElem_mem hi
  rw [h.rd_eq (Nat.le_of_lt hi), List.getD_append _ _ _ _ hi, List.getD_eq_getElem _ _ hi]
  exact fun hnul => h.noNul (hnul ▸ hmem)

theorem Holds.rd_length (h : Holds a s) : a.rd s.length = NUL := by
  rw [h.rd_eq (Nat.le_refl _), List.getD_append_right _ _ _ _ (Nat.le_refl _), Nat.sub_self]
  rfl

/-- A search that starts within the string finds its end, if it goes that far. -/
theorem Holds.findNul?_eq (h : Holds a s) {i k : Nat} (hi : i ≤ s.length) (hk : s.length < i + k) :
    findNul? a i k = some s.length := by
  induction k generalizing i with
  | zero => omega
  | succ k ih =>
    have hread : a.rd? i = some (a.rd i) := rd?_eq a (Nat.lt_of_le_of_lt hi h.length_lt)
    rw [findNul?, hread, Option.bind_eq_bind, Option.bind_some]
    rcases Nat.lt_or_eq_of_le hi with hlt | rfl
    · rw [if_neg (h.rd_ne_nul hlt)]
      exact ih hlt (by omega)
    · rw [if_pos h.rd_length]
      rfl

theorem Holds.strnlen?_eq (h : Holds a s) : strnlen? a n = some s.length :=
  h.findNul?_eq (Nat.zero_le _) (Nat.lt_add_left 0 h.length_lt)

theorem Holds.strend?_eq (h : Holds a s) {pos : Nat} (hpos : pos ≤ s.length) :
    strend? a pos = some s.length := by
  have hlt := h.length_lt
  exact h.findNul?_eq hpos (by omega)

/-! ## Appending -/

/-- The characters stand behind what was there before them. -/
theorem put?_eq (a : CArray Char n) {pos : Nat} (s : CString) (hfit : pos + s.length ≤ n) :
    ∃ a', put? a pos s = some a' ∧ a'.pre (pos + s.length) = a.pre pos ++ s := by
  induction s generalizing a pos with
  | nil => exact ⟨a, rfl, (List.append_nil _).symm⟩
  | cons c s ih =>
    rw [List.length_cons] at hfit ⊢
    have hpos : pos < n := by omega
    have hrest : pos + 1 + s.length ≤ n := by omega
    obtain ⟨a', hput, hpre⟩ := ih (a.wr pos c) hrest
    refine ⟨a', ?_, ?_⟩
    · rw [put?, wr?_eq a hpos, Option.bind_eq_bind, Option.bind_some, hput]
    · rw [Nat.add_comm s.length 1, ← Nat.add_assoc, hpre, pre_wr_succ a hpos, List.append_assoc]
      rfl

/-- What fits in the array is appended, and a NUL behind it. -/
theorem strncat?_holds (h : Holds a s) {pos count : Nat} (hpos : pos ≤ s.length) {src : CString}
    (hsrc : NUL ∉ src) (hfit : s.length + (src.take count).length < n) :
    ∃ a', strncat? a pos src count = some a' ∧ Holds a' (s ++ src.take count) := by
  obtain ⟨a', hput, hpre⟩ := put?_eq a (src.take count) (Nat.le_of_lt hfit)
  refine ⟨a'.wr (s.length + (src.take count).length) NUL, ?_, ?_, ?_⟩
  · rw [strncat?, h.strend?_eq hpos]
    simp only [Option.bind_eq_bind, Option.bind_some, hput]
    exact wr?_eq a' hfit NUL
  · intro hmem
    rcases List.mem_append.mp hmem with hmem | hmem
    · exact h.noNul hmem
    · exact hsrc (List.mem_of_mem_take hmem)
  · rw [List.length_append, pre_wr_succ a' hfit, hpre, h.pre_eq]

end CharArray
