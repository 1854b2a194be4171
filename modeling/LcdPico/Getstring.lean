import LcdPico.Config

/-!
# Lines from the console (`util_rp2.c`)

`getstring_timeout_ms` gathers the characters that come in. Its caller calls it again and again,
with what has been gathered so far, until it returns 1: a line is there. A line ends with LF as
it does with CR. A buffer that is full gives no line.
-/

namespace LcdPico

namespace CStr

variable {size : Nat}

/-- `*p++ = c` -/
def push (s : CStr size) (c : Char) (h : s.val.length < size - 1) : CStr size :=
  ⟨s.val ++ [c], by rw [List.length_append]; exact h⟩

/-- The string as it is read: up to the first NUL. -/
def cut (s : CStr size) : CStr size :=
  ⟨s.val.takeWhile (·.toNat ≠ 0), Nat.le_trans (List.takeWhile_prefix _).length_le s.property⟩

theorem cut_eq {s : CStr size} (h : ∀ c ∈ s.val, c.toNat ≠ 0) : s.cut = s :=
  Subtype.ext (List.takeWhile_eq_self_iff.mpr fun c hc => decide_eq_true (h c hc))

end CStr

/-- What happens when `getstring_timeout_ms` looks for the next character. -/
inductive Poll where
  /-- its time has passed -/
  | passed
  /-- `PICO_ERROR_TIMEOUT` -/
  | idle
  | char (c : Char)
deriving DecidableEq

/-- What `getstring_timeout_ms` returns, and leaves in `str` and on the line. -/
structure Getstring (maxlen : Nat) where
  res : Int
  str : CStr maxlen
  rest : List Poll

/-- CR or LF -/
def isLineEnd (c : Char) : Bool := c = '\n' || c = '\r'

/-- The loop of `getstring_timeout_ms`. When nothing more comes, its time passes. -/
def getchars {maxlen : Nat} (str : CStr maxlen) : List Poll → Getstring maxlen
  | [] => { res := 0, str := str, rest := [] }
  | poll :: polls =>
    if h : str.val.length < maxlen - 1 then
      match poll with
      | .passed => { res := 0, str := str, rest := polls }
      | .idle => getchars str polls
      | .char c =>
        if isLineEnd c then { res := 1, str := str, rest := polls }
        else getchars (str.push c h) polls
    else { res := 0, str := str, rest := poll :: polls }

/-- `getstring_timeout_ms` -/
def getstringTimeoutMs {maxlen : Nat} (str : CStr maxlen) (polls : List Poll) : Getstring maxlen :=
  if maxlen < 2 then { res := -1, str := str, rest := polls }
  else
    let g := getchars str polls
    { g with str := g.str.cut }

/-- What a caller gets in one turn of its loop: the result, the buffer, and whether its own time
has passed. -/
structure LineTurn (size : Nat) where
  r : Int
  tmp : CStr size
  passed : Bool

/-- The text of lines: each is followed by a newline. -/
def textOf (lines : List CString) : CString := lines.flatMap (· ++ ['\n'])

theorem textOf_cons (line : CString) (lines : List CString) :
    textOf (line :: lines) = (line ++ ['\n']) ++ textOf lines := rfl

theorem textOf_append (lines more : List CString) :
    textOf (lines ++ more) = textOf lines ++ textOf more := List.flatMap_append

/-! ## What a call takes from the line -/

/-- The character of a poll. -/
def Poll.char? : Poll → Option Char
  | .char c => some c
  | _ => none

/-- The characters that come in. -/
def typed (polls : List Poll) : List Char := polls.filterMap Poll.char?

@[simp] theorem typed_nil : typed [] = [] := rfl

@[simp] theorem typed_passed (polls : List Poll) : typed (.passed :: polls) = typed polls := rfl

@[simp] theorem typed_idle (polls : List Poll) : typed (.idle :: polls) = typed polls := rfl

@[simp] theorem typed_char (c : Char) (polls : List Poll) :
    typed (.char c :: polls) = c :: typed polls := rfl

section Getchars

variable {maxlen : Nat}

/-- If nothing comes in, nothing is gathered. -/
theorem getchars_silent (str : CStr maxlen) {polls : List Poll} (h : typed polls = []) :
    (getchars str polls).res = 0 ∧ (getchars str polls).str = str ∧
      typed (getchars str polls).rest = [] := by
  induction polls with
  | nil => exact ⟨rfl, rfl, rfl⟩
  | cons poll polls ih =>
    rw [getchars]
    split_ifs with hroom
    · cases poll with
      | passed => exact ⟨rfl, rfl, h⟩
      | idle => exact ih h
      | char c => cases h
    · exact ⟨rfl, rfl, h⟩

/-- What a call gathers of a line that comes in with its end: all of it, or a part of it that
the next calls go on with; nothing, if the buffer is full. -/
theorem getchars_line (str : CStr maxlen) {polls : List Poll} {line more : List Char} {e : Char}
    (hline : ∀ c ∈ line, isLineEnd c = false) (he : isLineEnd e = true)
    (h : typed polls = line ++ e :: more) :
    ((getchars str polls).res = 1 ∧ (getchars str polls).str.val = str.val ++ line ∧
        typed (getchars str polls).rest = more ∧ (str.val ++ line).length < maxlen - 1 ∧
        (getchars str polls).rest.length < polls.length) ∨
      ∃ got left, line = got ++ left ∧ (getchars str polls).res = 0 ∧
        (getchars str polls).str.val = str.val ++ got ∧
        typed (getchars str polls).rest = left ++ e :: more ∧
        ((getchars str polls).rest.length < polls.length ∨
          maxlen - 1 ≤ str.val.length ∧ (getchars str polls).rest = polls) := by
  induction polls generalizing str line with
  | nil => exact absurd h.symm (List.append_ne_nil_of_right_ne_nil _ (List.cons_ne_nil _ _))
  | cons poll polls ih =>
    have hshorter : ∀ str : CStr maxlen,
        ((getchars str polls).rest.length < polls.length ∨
          maxlen - 1 ≤ str.val.length ∧ (getchars str polls).rest = polls) →
        (getchars str polls).rest.length < (poll :: polls).length := by
      rintro str (hshort | ⟨-, hsame⟩)
      · exact Nat.lt_succ_of_lt hshort
      · rw [hsame]
        exact Nat.lt_succ_self _
    rw [getchars]
    by_cases hroom : str.val.length < maxlen - 1
    · rw [dif_pos hroom]
      cases poll with
      | passed =>
        exact .inr ⟨[], line, rfl, rfl, (List.append_nil _).symm, h, .inl (Nat.lt_succ_self _)⟩
      | idle =>
        rcases ih str hline h with ⟨hres, hstr, hrest, hlen, hshort⟩ |
          ⟨got, left, hgot, hres, hstr, hrest, hend⟩
        · exact .inl ⟨hres, hstr, hrest, hlen, Nat.lt_succ_of_lt hshort⟩
        · exact .inr ⟨got, left, hgot, hres, hstr, hrest, .inl (hshorter _ hend)⟩
      | char c =>
        rw [typed_char] at h
        cases line with
        | nil =>
          obtain ⟨rfl, hmore⟩ := List.cons.inj h
          dsimp only
          rw [if_pos he]
          refine .inl ⟨rfl, (List.append_nil _).symm, hmore, ?_, Nat.lt_succ_self _⟩
          rw [List.append_nil]
          exact hroom
        | cons c' line =>
          obtain ⟨rfl, hmore⟩ := List.cons.inj h
          obtain ⟨hc, hline⟩ := List.forall_mem_cons.mp hline
          dsimp only
          rw [if_neg (Bool.eq_false_iff.mp hc)]
          have hpush : ∀ rest, (str.push c hroom).val ++ rest = str.val ++ c :: rest :=
            fun rest => List.append_assoc _ _ _
          rcases ih (str.push c hroom) hline hmore with ⟨hres, hstr, hrest, hlen, hshort⟩ |
            ⟨got, left, hgot, hres, hstr, hrest, hend⟩
          · rw [hpush] at hstr hlen
            exact .inl ⟨hres, hstr, hrest, hlen, Nat.lt_succ_of_lt hshort⟩
          · rw [hpush] at hstr
            exact .inr ⟨c :: got, left, congrArg (c :: ·) hgot, hres, hstr, hrest,
              .inl (hshorter _ hend)⟩
    · rw [dif_neg hroom]
      exact .inr ⟨[], line, rfl, rfl, (List.append_nil _).symm, h,
        .inr ⟨Nat.le_of_not_lt hroom, rfl⟩⟩

end Getchars

end LcdPico
