import LcdPico.Lib.CArray
import LcdPico.Lib.Machine

/-!
# The console (`main` of `lcd-pico.c`)

`main` collects the characters of the console in a buffer of 1024 bytes and passes
every line to `process_command`, which cuts it up in place: what it leaves in the
buffer is a parameter.

`editLine` is the line editor without a buffer. The two pass on the same lines as
long as every line fits (`console_lines`). A character that arrives when 1023 are
held is taken for the end of the line: they are executed without it, and what follows
is executed as another line.
-/

namespace LcdPico

/-- `sizeof(input_buf)` -/
def CONSOLE_BUF_SIZE : Nat := 1024

abbrev ConsoleBuf : Type := CArray UInt8 CONSOLE_BUF_SIZE

/-- `input_buf` and `i_ptr`. -/
structure ConsoleState where
  inputBuf : ConsoleBuf
  iPtr : Nat

/-- The string in a buffer, up to its NUL. -/
def consoleText (b : ConsoleBuf) : List UInt8 := b.toList.takeWhile (· ≠ 0)

/-- One turn of the input loop, with the string passed to `process_command`, if any. -/
def consoleChar (left : ConsoleBuf → ConsoleBuf) (s : ConsoleState) (c : UInt8) :
    ConsoleState × Option (List UInt8) :=
  if c = 0xff ∨ c = 0x00 then (s, none)
  else if c = 0x7f ∨ c = 0x08 then
    ({ s with iPtr := if 0 < s.iPtr then s.iPtr - 1 else s.iPtr }, none)
  else if c = 10 ∨ c = 13 ∨ CONSOLE_BUF_SIZE - 1 ≤ s.iPtr then
    let buf := s.inputBuf.wr s.iPtr 0
    if 0 < s.iPtr then ({ inputBuf := left buf, iPtr := 0 }, some (consoleText buf))
    else ({ s with inputBuf := buf }, none)
  else ({ inputBuf := s.inputBuf.wr s.iPtr c, iPtr := s.iPtr + 1 }, none)

/-- The console at power-up. -/
def consoleInit : ConsoleState := { inputBuf := Vector.replicate CONSOLE_BUF_SIZE 0, iPtr := 0 }

/-- The strings passed on from the state `s` in a stream of characters. -/
def executedFrom (left : ConsoleBuf → ConsoleBuf) (s : ConsoleState) (w : List UInt8) :
    List (List UInt8) :=
  Machine.trace (fun s c => (consoleChar left s c).1) (fun s c => (consoleChar left s c).2.toList)
    s w

/-- The strings passed to `process_command` in a stream of characters. -/
def executed (left : ConsoleBuf → ConsoleBuf) (w : List UInt8) : List (List UInt8) :=
  executedFrom left consoleInit w

/-! ## Lines -/

/-- A character of a line. -/
def Ordinary (c : UInt8) : Prop :=
  ¬ (c = 0xff ∨ c = 0x00) ∧ ¬ (c = 0x7f ∨ c = 0x08) ∧ ¬ (c = 10 ∨ c = 13)

instance (c : UInt8) : Decidable (Ordinary c) := inferInstanceAs (Decidable (_ ∧ _))

/-- The line editor: the line so far, and the line that the character ends. -/
def editLine (line : List UInt8) (c : UInt8) : List UInt8 × Option (List UInt8) :=
  if c = 0xff ∨ c = 0x00 then (line, none)
  else if c = 0x7f ∨ c = 0x08 then (line.dropLast, none)
  else if c = 10 ∨ c = 13 then ([], if line = [] then none else some line)
  else (line ++ [c], none)

/-- The lines that a stream completes, after `line`. -/
def linesFrom (line w : List UInt8) : List (List UInt8) :=
  Machine.trace (fun l c => (editLine l c).1) (fun l c => (editLine l c).2.toList) line w

/-- The lines of a stream, after editing. -/
def editedLines (w : List UInt8) : List (List UInt8) := linesFrom [] w

/-- The character fits into the line. -/
def FitsLine (line : List UInt8) (c : UInt8) : Prop :=
  Ordinary c → line.length < CONSOLE_BUF_SIZE - 1

/-- No line of the stream is longer than the buffer holds. -/
def LinesFit (w : List UInt8) : Prop :=
  Machine.Within (fun l c => (editLine l c).1) FitsLine [] w

/-! ## The buffer holds the line -/

/-- The buffer holds the line so far. -/
structure ConsoleState.Holds (s : ConsoleState) (line : List UInt8) : Prop where
  len : s.iPtr = line.length
  le : line.length ≤ CONSOLE_BUF_SIZE - 1
  text : s.inputBuf.toList.take s.iPtr = line
  nonzero : ∀ c ∈ line, c ≠ 0

namespace ConsoleState.Holds

variable {s : ConsoleState} {line : List UInt8}

theorem lt_length (h : s.Holds line) : s.iPtr < s.inputBuf.toList.length := by
  have hle := h.le
  rw [h.len, Vector.length_toList]
  simp only [CONSOLE_BUF_SIZE] at hle ⊢
  omega

/-- An ended string is the line. -/
theorem consoleText_eq (h : s.Holds line) :
    consoleText (CArray.wr s.inputBuf s.iPtr 0) = line := by
  rw [consoleText, CArray.wr, Vector.toList_setIfInBounds, List.set_eq_take_append_cons_drop,
    if_pos h.lt_length, h.text, List.takeWhile_append_of_pos, List.takeWhile_cons_of_neg,
    List.append_nil]
  · simp
  · simpa using h.nonzero

/-- Ending the string keeps the line. -/
theorem ended (h : s.Holds line) (iPtr : Nat) (hptr : iPtr = s.iPtr) :
    ConsoleState.Holds ⟨CArray.wr s.inputBuf s.iPtr 0, iPtr⟩ line := by
  subst hptr
  refine ⟨h.len, h.le, ?_, h.nonzero⟩
  rw [CArray.wr, Vector.toList_setIfInBounds, List.take_set_of_le (Nat.le_refl _)]
  exact h.text

/-- A character that fits is appended. -/
theorem append (h : s.Holds line) {c : UInt8} (hc : c ≠ 0)
    (hfit : line.length < CONSOLE_BUF_SIZE - 1) :
    ConsoleState.Holds ⟨CArray.wr s.inputBuf s.iPtr c, s.iPtr + 1⟩ (line ++ [c]) := by
  refine ⟨by simp [h.len], by rw [List.length_append]; exact hfit, ?_, ?_⟩
  · rw [CArray.wr, Vector.toList_setIfInBounds, List.take_add_one,
      List.getElem?_set_self h.lt_length, List.take_set_of_le (Nat.le_refl _), h.text]
    rfl
  · intro d hd
    rcases List.mem_append.mp hd with hline | hlast
    · exact h.nonzero d hline
    · rwa [List.mem_singleton.mp hlast]

/-- The last character is removed, if there is one. -/
theorem erase (h : s.Holds line) :
    ConsoleState.Holds { s with iPtr := if 0 < s.iPtr then s.iPtr - 1 else s.iPtr }
      line.dropLast := by
  have hptr : (if 0 < s.iPtr then s.iPtr - 1 else s.iPtr) = line.length - 1 := by
    rw [h.len]
    split <;> omega
  refine ⟨?_, ?_, ?_, fun c hc => h.nonzero c (List.dropLast_subset _ hc)⟩
  · rw [hptr, List.length_dropLast]
  · rw [List.length_dropLast]
    exact Nat.le_trans (Nat.sub_le _ _) h.le
  · have htake : s.inputBuf.toList.take (line.length - 1) =
        (s.inputBuf.toList.take s.iPtr).take (line.length - 1) := by
      rw [List.take_take, h.len, Nat.min_eq_left (Nat.sub_le _ _)]
    simp only [hptr]
    rw [htake, h.text, List.dropLast_eq_take]

/-- Nothing is held. -/
theorem empty (b : ConsoleBuf) : ConsoleState.Holds ⟨b, 0⟩ [] :=
  ⟨rfl, Nat.zero_le _, rfl, fun _ hc => absurd hc List.not_mem_nil⟩

end ConsoleState.Holds

/-! ## One character -/

section Character

variable (left : ConsoleBuf → ConsoleBuf) {s : ConsoleState} {line : List UInt8} {c : UInt8}

/-- A character that fits does to the buffer what it does to the line. -/
theorem consoleChar_fits (h : s.Holds line) (hfit : FitsLine line c) :
    (consoleChar left s c).1.Holds (editLine line c).1 ∧
      (consoleChar left s c).2 = (editLine line c).2 := by
  simp only [consoleChar, editLine]
  by_cases hignored : c = 0xff ∨ c = 0x00
  · rw [if_pos hignored, if_pos hignored]
    exact ⟨h, rfl⟩
  rw [if_neg hignored, if_neg hignored]
  by_cases herase : c = 0x7f ∨ c = 0x08
  · rw [if_pos herase, if_pos herase]
    exact ⟨h.erase, rfl⟩
  rw [if_neg herase, if_neg herase]
  by_cases hend : c = 10 ∨ c = 13
  · -- the branch that a full buffer takes, too
    have hend' : c = 10 ∨ c = 13 ∨ CONSOLE_BUF_SIZE - 1 ≤ s.iPtr := by
      rw [← or_assoc]
      exact .inl hend
    rw [if_pos hend', if_pos hend]
    by_cases hpos : 0 < s.iPtr
    · have hline : line ≠ [] := by
        rintro rfl
        rw [h.len] at hpos
        exact Nat.lt_irrefl 0 hpos
      rw [if_pos hpos, if_neg hline, h.consoleText_eq]
      exact ⟨.empty _, rfl⟩
    · have hline : line = [] := List.eq_nil_of_length_eq_zero (by rw [← h.len]; omega)
      subst hline
      rw [if_neg hpos]
      exact ⟨h.ended _ rfl, rfl⟩
  · have hroom := hfit ⟨hignored, herase, hend⟩
    have hend' : ¬ (c = 10 ∨ c = 13 ∨ CONSOLE_BUF_SIZE - 1 ≤ s.iPtr) := by
      rw [← or_assoc, h.len]
      exact fun hor => hor.elim hend (Nat.not_le_of_lt hroom)
    rw [if_neg hend', if_neg hend]
    exact ⟨h.append (fun hc => hignored (.inr hc)) hroom, rfl⟩

/-- A character that does not fit ends the line, and is lost. -/
theorem consoleChar_overlong (h : s.Holds line) (hc : Ordinary c)
    (hfull : CONSOLE_BUF_SIZE - 1 ≤ line.length) :
    (consoleChar left s c).1.Holds [] ∧ (consoleChar left s c).2 = some line ∧
      (editLine line c).2 = none := by
  obtain ⟨hignored, herase, hend⟩ := hc
  simp only [consoleChar, editLine]
  have hpos : 0 < s.iPtr := by
    rw [h.len]
    exact Nat.lt_of_lt_of_le (by decide) hfull
  rw [if_neg hignored, if_neg hignored, if_neg herase, if_neg herase, if_neg hend,
    if_pos (.inr (.inr (h.len ▸ hfull))), if_pos hpos, h.consoleText_eq]
  exact ⟨.empty _, rfl, rfl⟩

end Character

/-! ## Main result -/

theorem executedFrom_iff (left : ConsoleBuf → ConsoleBuf) {s : ConsoleState} {line : List UInt8}
    (h : s.Holds line) (w : List UInt8) :
    (∀ u v, w = u ++ v → executedFrom left s u = linesFrom line u) ↔
      Machine.Within (fun l c => (editLine l c).1) FitsLine line w := by
  refine Machine.trace_eq_iff_within (R := ConsoleState.Holds) ?_ ?_ h w
  · intro s line c h hfit
    exact (consoleChar_fits left h hfit).1
  · intro s line c h
    constructor
    · intro heq hc
      -- where the first character does not fit, only the console executes a line
      by_contra hfull
      obtain ⟨-, hexec, hedit⟩ :=
        consoleChar_overlong left h hc (Nat.le_of_not_lt hfull)
      rw [hexec, hedit] at heq
      cases heq
    · intro hfit
      rw [(consoleChar_fits left h hfit).2]

/-- **Only whole lines are executed**, all along the streams whose lines fit, and
along no others. -/
theorem console_lines (left : ConsoleBuf → ConsoleBuf) (w : List UInt8) :
    (∀ u v, w = u ++ v → executed left u = editedLines u) ↔ LinesFit w :=
  executedFrom_iff left (.empty _) w

/-! ## An overlong line -/

/-- The console after a stream of characters. -/
def consoleAfter (left : ConsoleBuf → ConsoleBuf) (w : List UInt8) : ConsoleState :=
  Machine.run (fun s c => (consoleChar left s c).1) consoleInit w

theorem executed_append (left : ConsoleBuf → ConsoleBuf) (u v : List UInt8) :
    executed left (u ++ v) = executed left u ++ executedFrom left (consoleAfter left u) v :=
  Machine.trace_append _ _ _ _ _

theorem executedFrom_cons (left : ConsoleBuf → ConsoleBuf) (s : ConsoleState) (c : UInt8)
    (w : List UInt8) :
    executedFrom left s (c :: w) =
      (consoleChar left s c).2.toList ++ executedFrom left (consoleChar left s c).1 w := rfl

/-- Characters that fit are held, and nothing is executed. -/
theorem executed_replicate (left : ConsoleBuf → ConsoleBuf) {c : UInt8} (hc : Ordinary c) {n : Nat}
    (hn : n ≤ CONSOLE_BUF_SIZE - 1) :
    executed left (List.replicate n c) = [] ∧
      (consoleAfter left (List.replicate n c)).Holds (List.replicate n c) := by
  induction n with
  | zero => exact ⟨rfl, .empty _⟩
  | succ n ih =>
    obtain ⟨hnone, hholds⟩ := ih (Nat.le_of_succ_le hn)
    have hfit : FitsLine (List.replicate n c) c := by
      rw [FitsLine, List.length_replicate]
      exact fun _ => hn
    have hedit : editLine (List.replicate n c) c = (List.replicate n c ++ [c], none) := by
      rw [editLine, if_neg hc.1, if_neg hc.2.1, if_neg hc.2.2]
    obtain ⟨hheld, hout⟩ := consoleChar_fits left hholds hfit
    rw [hedit] at hheld hout
    rw [List.replicate_succ']
    constructor
    · rw [executed_append, hnone, List.nil_append, executedFrom_cons, hout]
      rfl
    · rw [consoleAfter, Machine.run_append]
      exact hheld

/-- So the line editor does. -/
theorem linesFrom_replicate {c : UInt8} (hc : Ordinary c) (n : Nat) (line w : List UInt8) :
    linesFrom line (List.replicate n c ++ w) = linesFrom (line ++ List.replicate n c) w := by
  induction n generalizing line with
  | zero => rw [List.replicate_zero, List.nil_append, List.append_nil]
  | succ n ih =>
    have hedit : editLine line c = (line ++ [c], none) := by
      rw [editLine, if_neg hc.1, if_neg hc.2.1, if_neg hc.2.2]
    rw [List.replicate_succ, List.cons_append, linesFrom, Machine.trace_cons, hedit]
    rw [← List.singleton_append (l := List.replicate n c), ← List.append_assoc]
    exact ih _

/-- A line of 1026 characters is executed in two pieces, without the character
between them. -/
theorem console_lines_overlong :
    executed id (List.replicate 1023 0x41 ++ [0x42, 0x43, 0x44, 13]) =
        [List.replicate 1023 0x41, [0x43, 0x44]] ∧
      editedLines (List.replicate 1023 0x41 ++ [0x42, 0x43, 0x44, 13]) =
        [List.replicate 1023 0x41 ++ [0x42, 0x43, 0x44]] := by
  have hA : Ordinary 0x41 := by decide
  constructor
  · -- 1023 characters fill the buffer, and the next one ends the line
    obtain ⟨hnone, hholds⟩ := executed_replicate id hA (n := 1023) (by decide)
    obtain ⟨hnext, hexec, -⟩ := consoleChar_overlong id (c := 0x42) hholds (by decide)
      (by rw [List.length_replicate]; decide)
    have hfit : Machine.Within (fun l c => (editLine l c).1) FitsLine [] [0x43, 0x44, 13] :=
      ⟨fun _ => by decide, fun _ => by decide, fun _ => by decide, trivial⟩
    have hrest := (executedFrom_iff id hnext [0x43, 0x44, 13]).mpr hfit _ []
      (List.append_nil _).symm
    have hlines : linesFrom [] [0x43, 0x44, 13] = [[0x43, 0x44]] := by decide
    rw [executed_append, hnone, List.nil_append, executedFrom_cons, hexec, hrest, hlines]
    rfl
  · have hlines (line : List UInt8) :
        linesFrom line [0x42, 0x43, 0x44, 13] = [line ++ [0x42, 0x43, 0x44]] := by
      simp [linesFrom, editLine]
    rw [editedLines, linesFrom_replicate hA, List.nil_append, hlines]

end LcdPico
