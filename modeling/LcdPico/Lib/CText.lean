import Mathlib.Algebra.Group.Int.Defs
import Mathlib.Algebra.GroupWithZero.Nat
import Mathlib.Data.List.TakeWhile
import Mathlib.Tactic.Common

/-!
# C strings

A C string is the list of its bytes before the NUL, each written as a character.
Here are the string functions that programs share, on such lists: classification
and case (C locale), `strncasecmp`, `strtok_r`, `strtol`, a size-bounded copy, and
the lemmas that compute tokens of concatenations.
-/

/-- The bytes of a C string. -/
abbrev CString : Type := List Char

namespace CText

/-- `isblank` -/
def isBlank (c : Char) : Bool := c == ' ' || c == '\t'

/-- `isspace` -/
def isSpace (c : Char) : Bool :=
  c == ' ' || c == '\t' || c == '\n' || c.toNat == 0x0b || c.toNat == 0x0c || c == '\r'

/-- The first `n` bytes compare equal without regard to case: `strncasecmp` is 0. -/
def strncaseeq (a b : CString) (n : Nat) : Bool :=
  (a.take n).map Char.toLower == (b.take n).map Char.toLower

/-- Both strings compare equal up to `n` bytes: `strncmp` is 0. -/
def strneq (a b : CString) (n : Nat) : Bool := a.take n == b.take n

/-- A copy that leaves room for the NUL in `size` bytes. -/
def strncopy (src : CString) (size : Nat) : CString := src.take (size - 1)

/-- White space removed at both ends. -/
def trim (s : CString) : CString :=
  (((s.dropWhile isSpace).reverse).dropWhile isSpace).reverse

/-- White space removed at the end. -/
def trimEnd (s : CString) : CString := (s.reverse.dropWhile isSpace).reverse

/-- Text after a word keeps its first character, unless all of it is white space. -/
theorem trim_append {w : CString} (hw : ∀ c ∈ w, isSpace c = false) (hne : w ≠ []) (s : CString) :
    trim (w ++ s) = w ++ trimEnd s := by
  obtain ⟨c, w', rfl⟩ := List.exists_cons_of_ne_nil hne
  have hstart : ((c :: w') ++ s).dropWhile isSpace = (c :: w') ++ s := by
    simp [hw c (List.mem_cons_self ..)]
  have hend : (c :: w').reverse.dropWhile isSpace = (c :: w').reverse := by
    obtain ⟨d, v, hdv⟩ := List.exists_cons_of_ne_nil (List.reverse_ne_nil_iff.mpr hne)
    have hd : d ∈ c :: w' := List.mem_reverse.mp (hdv ▸ List.mem_cons_self ..)
    rw [hdv, List.dropWhile_cons_of_neg (by simp [hw d hd])]
  rw [trim, hstart, trimEnd, List.reverse_append, List.dropWhile_append]
  split_ifs with h
  · rw [hend, List.reverse_reverse, List.isEmpty_iff.mp h]
    simp
  · rw [List.reverse_append, List.reverse_reverse]

theorem trimEnd_isPrefix (s : CString) : trimEnd s <+: s := by
  have h := List.reverse_prefix.mpr (List.dropWhile_suffix (l := s.reverse) isSpace)
  rwa [List.reverse_reverse] at h

/-- Only white space is trimmed to nothing. -/
theorem trim_eq_nil_iff {s : CString} : trim s = [] ↔ ∀ c ∈ s, isSpace c = true := by
  rw [trim, List.reverse_eq_nil_iff, List.dropWhile_eq_nil_iff]
  constructor
  · intro h
    refine List.dropWhile_eq_nil_iff.mp ?_
    by_contra hne
    have hhead := List.head_dropWhile_not isSpace hne
    rw [h _ (List.mem_reverse.mpr (List.head_mem hne))] at hhead
    cases hhead
  · intro h c hc
    exact h c ((List.dropWhile_suffix isSpace).subset (List.mem_reverse.mp hc))

/-- White space in front is trimmed away. -/
theorem trim_append_of_isSpace {ws : CString} (hws : ∀ c ∈ ws, isSpace c = true) (s : CString) :
    trim (ws ++ s) = trim s := by
  rw [trim, List.dropWhile_append, List.dropWhile_eq_nil_iff.mpr hws]
  rfl

theorem length_trim_le (s : CString) : (trim s).length ≤ s.length := by
  have hstart := (List.dropWhile_suffix (l := s) isSpace).length_le
  have hend := (List.dropWhile_suffix (l := (s.dropWhile isSpace).reverse) isSpace).length_le
  rw [List.length_reverse] at hend
  rw [trim, List.length_reverse]
  exact Nat.le_trans hend hstart

/-! ## Tokens -/

/-- One call of `strtok_r`: the next token, and what is left after the delimiter
that ends it. -/
def strtok (p : Char → Bool) (s : CString) : Option (CString × CString) :=
  match s.dropWhile p with
  | [] => none
  | c :: s => some (c :: s.takeWhile (!p ·), (s.dropWhile (!p ·)).drop 1)

/-- All the tokens that calls of `strtok_r` with the same delimiters return. -/
def tokens (p : Char → Bool) (s : CString) : List CString :=
  (s.splitOnP p).filter (· ≠ [])

/-- A delimiter of one character. -/
def isChar (c : Char) : Char → Bool := (· == c)

@[simp] theorem tokens_nil (p : Char → Bool) : tokens p [] = [] := by
  simp [tokens]

/-- Delimiters at the start are skipped. -/
theorem tokens_cons_delim {p : Char → Bool} {c : Char} (h : p c = true) (s : CString) :
    tokens p (c :: s) = tokens p s := by
  simp [tokens, List.splitOnP_cons_eq_if_modifyHead, h]

/-- A word without a delimiter is its own token. -/
theorem tokens_word {p : Char → Bool} {w : CString} (hw : ∀ c ∈ w, p c = false) (hne : w ≠ []) :
    tokens p w = [w] := by
  rw [tokens, List.splitOnP_eq_singleton hw]
  simp [hne]

/-- A word that a delimiter ends is the first token. -/
theorem tokens_word_append {p : Char → Bool} {w : CString} (hw : ∀ c ∈ w, p c = false)
    (hne : w ≠ []) {c : Char} (hc : p c = true) (s : CString) :
    tokens p (w ++ c :: s) = w :: tokens p s := by
  rw [tokens, List.splitOnP_append_cons_of_forall_mem hw c hc]
  simp [tokens, hne]

/-- The first token of a word that a delimiter or the end of the string ends. -/
theorem strtok_append {p : Char → Bool} {w : CString} (hw : ∀ c ∈ w, p c = false) (hne : w ≠ [])
    {s : CString} (hs : ∀ c ∈ s.head?, p c = true) : strtok p (w ++ s) = some (w, s.drop 1) := by
  obtain ⟨c, w', rfl⟩ := List.exists_cons_of_ne_nil hne
  have hw' : ∀ d ∈ w', (!p d) = true := fun d hd => by simp [hw d (List.mem_cons_of_mem c hd)]
  have hstart : ((c :: w') ++ s).dropWhile p = c :: (w' ++ s) := by
    simp [hw c (List.mem_cons_self ..)]
  have hs' : s.takeWhile (!p ·) = [] ∧ s.dropWhile (!p ·) = s := by
    cases s with
    | nil => exact ⟨rfl, rfl⟩
    | cons d s => simp [hs d rfl]
  simp only [strtok, hstart]
  rw [List.takeWhile_append_of_pos hw', List.dropWhile_append_of_pos hw', hs'.1, hs'.2,
    List.append_nil]

/-- Words with a delimiter between them are the tokens. -/
theorem tokens_intercalate {c : Char} {ws : List CString} (hws : ∀ w ∈ ws, w ≠ [] ∧ c ∉ w)
    (hne : ws ≠ []) : tokens (isChar c) (List.intercalate [c] ws) = ws := by
  have hsplit : (List.intercalate [c] ws).splitOnP (isChar c) = ws :=
    List.splitOn_intercalate c (fun w hw => (hws w hw).2) hne
  rw [tokens, hsplit, List.filter_eq_self]
  intro w hw
  simpa using (hws w hw).1

/-- Tokens are not empty. -/
theorem ne_nil_of_mem_tokens {p : Char → Bool} {s t : CString} (h : t ∈ tokens p s) : t ≠ [] := by
  rw [tokens, List.mem_filter] at h
  simpa using h.2

/-- No token has a delimiter in it. -/
theorem delim_of_mem_tokens {p : Char → Bool} {s t : CString} (h : t ∈ tokens p s) {c : Char}
    (hc : c ∈ t) : p c = false := by
  have hsplit : ∀ s : CString, ∀ w ∈ s.splitOnP p, ∀ c ∈ w, p c = false := by
    intro s
    induction s with
    | nil => simp
    | cons a s ih =>
      intro w hw
      rw [List.splitOnP_cons_eq_if_modifyHead] at hw
      split_ifs at hw with ha
      · rcases List.mem_cons.mp hw with rfl | hw
        · simp
        · exact ih w hw
      · cases hs : s.splitOnP p with
        | nil => simp [hs] at hw
        | cons v vs =>
          rw [hs] at ih hw
          rcases List.mem_cons.mp hw with rfl | hw
          · intro c hc
            rcases List.mem_cons.mp hc with rfl | hc
            · simpa using ha
            · exact ih v (List.mem_cons_self ..) c hc
          · exact ih w (List.mem_cons_of_mem v hw)
  exact hsplit s t (List.mem_filter.mp h).1 c hc

/-! ## Numbers -/

/-- The value of a digit in the base. -/
def digit? (base : Nat) (c : Char) : Option Nat :=
  let v :=
    if c.isDigit then some (c.toNat - '0'.toNat)
    else if 'a' ≤ c ∧ c ≤ 'z' then some (c.toNat - 'a'.toNat + 10)
    else if 'A' ≤ c ∧ c ≤ 'Z' then some (c.toNat - 'A'.toNat + 10)
    else none
  v.filter (· < base)

/-- The value of a string of digits. -/
def digitsVal (base : Nat) (ds : CString) : Nat :=
  ds.foldl (fun v c => base * v + (digit? base c).getD 0) 0

/-- The string after `0x`, in base 16. -/
def skipHexPrefix (base : Nat) (s : CString) : CString :=
  match s with
  | '0' :: x :: d :: r =>
    if base = 16 ∧ (x = 'x' ∨ x = 'X') ∧ (digit? 16 d).isSome then d :: r else s
  | _ => s

/-- `strtol`, for a 32-bit `long`; none when no conversion is made. -/
def strtol (base : Nat) (s : CString) : Option (Int × CString) :=
  let s := s.dropWhile isSpace
  let neg := s.head? = some '-'
  let s := if s.head? = some '-' ∨ s.head? = some '+' then s.drop 1 else s
  let s := skipHexPrefix base s
  let ds := s.takeWhile fun c => (digit? base c).isSome
  if ds = [] then none
  else
    let v : Int := digitsVal base ds
    let v := if neg then -v else v
    some (max (-2 ^ 31) (min v (2 ^ 31 - 1)), s.drop ds.length)

/-- `%u` -/
def utoa (n : Nat) : CString := Nat.toDigits 10 n

theorem isDigit_of_mem_utoa {n : Nat} {c : Char} (h : c ∈ utoa n) : c.isDigit = true :=
  Nat.isDigit_of_mem_toDigits (by decide) (by decide) h

theorem utoa_ne_nil (n : Nat) : utoa n ≠ [] := Nat.toDigits_ne_nil

theorem toNat_of_isDigit {c : Char} (h : c.isDigit = true) : 48 ≤ c.toNat ∧ c.toNat ≤ 57 := by
  simpa [Char.isDigit, UInt32.le_iff_toNat_le] using h

theorem isSpace_of_isDigit {c : Char} (h : c.isDigit = true) : isSpace c = false := by
  have hc := toNat_of_isDigit h
  have hne : ∀ d : Char, d.toNat < 48 → c ≠ d := by
    rintro d hd rfl
    omega
  simp only [isSpace, Bool.or_eq_false_iff, beq_eq_false_iff_ne]
  refine ⟨⟨⟨⟨⟨hne _ (by decide), hne _ (by decide)⟩, hne _ (by decide)⟩, ?_⟩, ?_⟩,
    hne _ (by decide)⟩ <;> omega

theorem digit?_of_isDigit {c : Char} (h : c.isDigit = true) :
    digit? 10 c = some (c.toNat - '0'.toNat) := by
  have hc := toNat_of_isDigit h
  simp only [digit?, h, if_true]
  rw [Option.filter_some_pos]
  simp
  omega

/-- The value of printed digits. -/
theorem digitsVal_utoa (n : Nat) : digitsVal 10 (utoa n) = n := by
  have hval : ∀ (ds : CString) (v : Nat), (∀ c ∈ ds, c.isDigit = true) →
      ds.foldl (fun v c => 10 * v + (digit? 10 c).getD 0) v = Nat.ofDigitChars 10 ds v := by
    intro ds
    induction ds with
    | nil => exact fun v _ => rfl
    | cons c ds ih =>
      intro v hds
      have hc := digit?_of_isDigit (hds c (List.mem_cons_self ..))
      have htail := ih (10 * v + (c.toNat - '0'.toNat)) fun d hd =>
        hds d (List.mem_cons_of_mem c hd)
      rw [List.foldl_cons, Nat.ofDigitChars_cons, ← htail, hc]
      rfl
  rw [digitsVal, hval _ _ fun c hc => isDigit_of_mem_utoa hc]
  exact Nat.ofDigitChars_ten_toDigits

theorem skipHexPrefix_ten (s : CString) : skipHexPrefix 10 s = s := by
  unfold skipHexPrefix
  split <;> simp

/-- A printed number is read back, up to the first character that is no digit. -/
theorem strtol_utoa_append {n : Nat} (hn : n < 2 ^ 31) {rest : CString}
    (hrest : ∀ c ∈ rest.head?, digit? 10 c = none) :
    strtol 10 (utoa n ++ rest) = some ((n : Int), rest) := by
  have hdigits : (utoa n ++ rest).takeWhile (fun c => (digit? 10 c).isSome) = utoa n := by
    rw [List.takeWhile_append_of_pos]
    · cases rest with
      | nil => simp
      | cons c rest => simp [hrest c rfl]
    · intro c hc
      simp [digit?_of_isDigit (isDigit_of_mem_utoa hc)]
  obtain ⟨c, cs, hcs⟩ := List.exists_cons_of_ne_nil (utoa_ne_nil n)
  have hc : c.isDigit = true := isDigit_of_mem_utoa (n := n) (by simp [hcs])
  have hminus : c ≠ '-' := by
    rintro rfl
    cases hc
  have hplus : c ≠ '+' := by
    rintro rfl
    cases hc
  have hstart : (utoa n ++ rest).dropWhile isSpace = utoa n ++ rest := by
    simp [hcs, isSpace_of_isDigit hc]
  have hhead : (utoa n ++ rest).head? = some c := by simp [hcs]
  simp only [strtol, hstart, hhead, Option.some.injEq, hminus, hplus, or_self, if_false,
    skipHexPrefix_ten, hdigits, utoa_ne_nil, digitsVal_utoa, List.drop_left, Prod.mk.injEq,
    and_true]
  omega

theorem digit?_ten_isSome (c : Char) : (digit? 10 c).isSome = c.isDigit := by
  cases hc : c.isDigit with
  | true => rw [digit?_of_isDigit hc, Option.isSome_some]
  | false =>
    have hval : ∀ v : Option Nat, (∀ n ∈ v, 10 ≤ n) → v.filter (· < 10) = none := by
      intro v hv
      rw [Option.filter_eq_none_iff]
      intro n hn
      simpa using hv n hn
    rw [digit?, hval]
    · rfl
    · intro n hn
      simp only [hc, Bool.false_eq_true, if_false] at hn
      split_ifs at hn
      · obtain rfl := Option.mem_some_iff.mp hn
        omega
      · obtain rfl := Option.mem_some_iff.mp hn
        omega
      · cases hn

/-- More digits make no smaller number. -/
theorem digitsVal_le_append (ds more : CString) : digitsVal 10 ds ≤ digitsVal 10 (ds ++ more) := by
  have hfold : ∀ (more : CString) (v : Nat),
      v ≤ more.foldl (fun v c => 10 * v + (digit? 10 c).getD 0) v := by
    intro more
    induction more with
    | nil => exact fun v => Nat.le_refl v
    | cons c more ih =>
      intro v
      have hnext := ih (10 * v + (digit? 10 c).getD 0)
      rw [List.foldl_cons]
      omega
  rw [digitsVal, digitsVal, List.foldl_append]
  exact hfold more _

/-- What is read as the least value: a minus and a number from 2^31 on, after white
space. -/
theorem strtol_eq_min_iff (s : CString) :
    (strtol 10 s).map Prod.fst = some (-2 ^ 31) ↔
      ∃ ws ds rest, s = ws ++ '-' :: (ds ++ rest) ∧ (∀ c ∈ ws, isSpace c = true) ∧
        (∀ c ∈ ds, c.isDigit = true) ∧ 2 ^ 31 ≤ digitsVal 10 ds := by
  constructor
  · intro h
    obtain ⟨⟨v, rest⟩, hv, hmin⟩ := Option.map_eq_some_iff.mp h
    obtain ⟨t, ht⟩ : ∃ t, s.dropWhile isSpace = t := ⟨_, rfl⟩
    have hsplit : s.takeWhile isSpace ++ t = s := by
      rw [← ht]
      exact List.takeWhile_append_dropWhile
    have hspace : ∀ c ∈ s.takeWhile isSpace, isSpace c = true := fun c hc =>
      List.mem_takeWhile_imp hc
    simp only [strtol, ht, skipHexPrefix_ten] at hv
    by_cases hneg : t.head? = some '-'
    · obtain ⟨t, rfl⟩ := List.head?_eq_some_iff.mp hneg
      simp only [hneg, true_or, if_true, List.drop_one, List.tail_cons] at hv
      split_ifs at hv with hnil
      obtain rfl := (Prod.mk.inj (Option.some.inj hv)).1
      refine ⟨s.takeWhile isSpace, t.takeWhile fun c => (digit? 10 c).isSome,
        t.dropWhile fun c => (digit? 10 c).isSome, ?_, hspace, ?_, ?_⟩
      · rw [List.takeWhile_append_dropWhile, hsplit]
      · intro c hc
        rw [← digit?_ten_isSome]
        exact List.mem_takeWhile_imp (p := fun c => (digit? 10 c).isSome) hc
      · simp only at hmin
        omega
    · -- without a minus the value is not negative
      simp only [hneg, if_false] at hv
      split_ifs at hv <;>
      · obtain rfl := (Prod.mk.inj (Option.some.inj hv)).1
        simp only at hmin
        omega
  · rintro ⟨ws, ds, rest, rfl, hws, hds, hval⟩
    have hne : ds ≠ [] := by
      rintro rfl
      exact absurd hval (by decide)
    have hstart : (ws ++ '-' :: (ds ++ rest)).dropWhile isSpace = '-' :: (ds ++ rest) := by
      rw [List.dropWhile_append_of_pos hws]
      rfl
    have hdigits : (ds ++ rest).takeWhile (fun c => (digit? 10 c).isSome) =
        ds ++ rest.takeWhile (fun c => (digit? 10 c).isSome) := by
      apply List.takeWhile_append_of_pos
      intro c hc
      rw [digit?_ten_isSome]
      exact hds c hc
    have hle := digitsVal_le_append ds (rest.takeWhile fun c => (digit? 10 c).isSome)
    have hne' : ds ++ rest.takeWhile (fun c => (digit? 10 c).isSome) ≠ [] := by simp [hne]
    simp only [strtol, hstart, List.head?_cons, if_true, true_or, List.drop_one, List.tail_cons,
      skipHexPrefix_ten, hdigits]
    rw [if_neg hne', Option.map_some, Option.some_inj]
    omega

example : strtol 10 " -42x".toList = some (-42, ['x']) := by decide
example : strtol 16 "0x4F".toList = some (79, []) := by decide
example : tokens (isChar ':') ":SYS::LED?".toList = ["SYS".toList, "LED?".toList] := by decide

end CText
