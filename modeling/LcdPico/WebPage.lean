import LcdPico.ShownText

/-!
# The display on the web page (`httpd-fs/index.shtml`)

`parseDisplay` lays out the text that `json_stats` reports, with its own copy of the
loop of `display_status`. The text ends at its NUL there and is filled up with
spaces, and what stands behind its 16 characters is undefined.

Both loops stay in step because they compare characters with marks only
(`SameText.mark_iff`), and neither a NUL, nor a space, nor what stands behind the
text is a mark.
-/

namespace LcdPico

/-! ## The loop of the page -/

/-- A cell of `parseDisplay`. -/
structure WebCell where
  ch : Option UInt8
  dp : Bool
  comma : Bool
  dot : Bool
deriving DecidableEq, Repr

/-- `while (s.length < 16) s += ' ';` -/
def padSpaces (s : List UInt8) : List UInt8 := s ++ List.replicate (16 - s.length) 0x20

/-- A turn of the loop of `parseDisplay` from index `d`: the cell, and the index the
next one begins with. -/
def parseCell (s : List UInt8) (d : Nat) : WebCell × Nat :=
  let d := if d > 15 then 15 else d
  let cell : WebCell := { ch := s[d]?, dp := false, comma := false, dot := false }
  -- `d++`
  let d := d + 1
  if s[d]? = some 0x2e then
    ({ cell with dp := true }, if s[d - 1]? ≠ some 0x2e then d + 1 else d)
  else if s[d]? = some 0x2c then
    ({ cell with comma := true }, if s[d - 1]? ≠ some 0x2c then d + 1 else d)
  else if s[d]? = some 0x3a then
    ({ cell with dp := true, dot := true }, if s[d - 1]? ≠ some 0x3a then d + 1 else d)
  else (cell, d)

/-- The loop of `parseDisplay`, with `n` cells left. -/
def parseLoop (s : List UInt8) : Nat → Nat → List WebCell
  | 0, _ => []
  | n + 1, d => (parseCell s d).1 :: parseLoop s n (parseCell s d).2

/-- `parseDisplay` -/
def parseDisplay (str : List UInt8) : List WebCell := parseLoop (padSpaces str) DISPLAY_COLS 0

/-! ## The two texts -/

/-- A cell of the display as the page has it: NUL counts as a space. -/
def CellState.toWeb (cell : CellState) : WebCell where
  ch := some (if cell.c = 0 then 0x20 else cell.c)
  dp := cell.flags.toNat.testBit OVERLAY_PERIOD
  comma := cell.flags.toNat.testBit OVERLAY_COMMA
  dot := cell.flags.toNat.testBit OVERLAY_DOT

/-- The overlay flags `f` as the page has them. -/
theorem toWeb_of_flags (c f : UInt8) (blink dp comma dot : Bool)
    (h : f.toNat.testBit OVERLAY_PERIOD = dp ∧ f.toNat.testBit OVERLAY_COMMA = comma ∧
      f.toNat.testBit OVERLAY_DOT = dot) :
    CellState.toWeb { c := c, flags := f, blink := blink } =
      { ch := some (if c = 0 then 0x20 else c), dp := dp, comma := comma, dot := dot } := by
  obtain ⟨rfl, rfl, rfl⟩ := h
  rfl

/-- The page's text `s` is the display's text `t`. -/
structure SameText (t : Nat → UInt8) (s : List UInt8) : Prop where
  inside : ∀ i ≤ 15, s[i]? = some (if t i = 0 then 0x20 else t i)
  behind : s[16]? = none
  noMark : isMark (t 16) = false

/-- What the page makes of the C string is the same text. -/
theorem TextOf.sameText {b : DisplayBuf} {t : Nat → UInt8} (h : TextOf b t) :
    SameText t (padSpaces (cText b)) := by
  obtain ⟨n, hn, htext, hlen, hchars, hnuls⟩ := h.text.cText_eq
  refine ⟨?_, ?_, h.noMark⟩
  · intro i hi
    rw [h.inside i hi, padSpaces]
    rcases Nat.lt_or_ge i n with hlt | hge
    · rw [if_neg (hchars i hlt), List.getElem?_append_left (by rwa [hlen]), htext,
        List.getElem?_take_of_lt hlt]
      have hi' : i < DISPLAY_BUF_LEN := Nat.lt_succ_of_le hi
      simp [CArray.rd, hi']
    · rw [if_pos (hnuls i hge hi), List.getElem?_append_right (by rwa [hlen]), hlen,
        List.getElem?_replicate, if_pos (by omega)]
  · rw [padSpaces, List.getElem?_eq_none]
    rw [List.length_append, List.length_replicate, hlen]
    omega

namespace SameText

variable {t : Nat → UInt8} {s : List UInt8}

/-- Where one text has a mark the other has it too, up to one character behind. -/
theorem mark_iff (h : SameText t s) {m : UInt8} (hm : isMark m = true) {i : Nat} (hi : i ≤ 16) :
    s[i]? = some m ↔ t i = m := by
  rcases Nat.lt_or_ge 15 i with hgt | hle
  · obtain rfl : i = 16 := by omega
    rw [h.behind]
    refine iff_of_false (by simp) ?_
    rintro rfl
    rw [h.noMark] at hm
    exact absurd hm (by decide)
  · rw [h.inside i hle]
    -- neither way to end a text looks like a mark
    have hspace : m ≠ 0x20 := by
      rintro rfl
      exact absurd hm (by decide)
    have hnul : m ≠ 0 := by
      rintro rfl
      exact absurd hm (by decide)
    split
    · rename_i hi0
      rw [hi0]
      exact iff_of_false (fun h => hspace (Option.some.inj h).symm) (fun h => hnul h.symm)
    · exact ⟨Option.some.inj, congrArg some⟩

/-- One turn of both loops: the same cell, and the same index after it. -/
theorem parseCell_eq (h : SameText t s) (blinkMask : UInt16) (i d : Nat) :
    parseCell s d =
      ((layoutCell t blinkMask i d).cell.toWeb, (layoutCell t blinkMask i d).next) := by
  have hd : (if d > 15 then 15 else d) ≤ 15 := by
    split
    · exact Nat.le_refl _
    · omega
  have hclamp : (if d > DISPLAY_BUF_LEN - 1 then DISPLAY_BUF_LEN - 1 else d) =
      if d > 15 then 15 else d := rfl
  simp only [parseCell, layoutCell, hclamp]
  generalize (if d > 15 then 15 else d) = d at hd
  have hnext {m : UInt8} (hm : isMark m = true) : s[d + 1]? = some m ↔ t (d + 1) = m :=
    h.mark_iff hm (by omega)
  have hthis {m : UInt8} (hm : isMark m = true) : s[d]? ≠ some m ↔ t d ≠ m :=
    (h.mark_iff hm (by omega)).not
  simp only [Nat.add_sub_cancel, hnext (m := 0x2e) rfl, hnext (m := 0x2c) rfl,
    hnext (m := 0x3a) rfl, hthis (m := 0x2e) rfl, hthis (m := 0x2c) rfl, hthis (m := 0x3a) rfl]
  rw [h.inside d hd]
  split
  · rw [toWeb_of_flags _ _ _ true false false (by decide)]
  split
  · rw [toWeb_of_flags _ _ _ false true false (by decide)]
  split
  · rw [toWeb_of_flags _ _ _ true false true (by decide)]
  · rw [toWeb_of_flags _ _ _ false false false (by decide)]

theorem parseLoop_eq (h : SameText t s) (blinkMask : UInt16) (n i d : Nat) :
    parseLoop s n d = (layoutLoop t blinkMask n i d).map fun l => l.cell.toWeb := by
  induction n generalizing i d with
  | zero => rfl
  | succ n ih =>
    rw [parseLoop, layoutLoop, List.map_cons, h.parseCell_eq blinkMask i d, ih (i + 1)]

end SameText

/-- **The page shows the cells of the display**, of every display text. -/
theorem parseDisplay_eq_layout {b : DisplayBuf} {t : Nat → UInt8} (h : TextOf b t)
    (blinkMask : UInt16) :
    parseDisplay (cText b) = (layout t blinkMask).map fun l => l.cell.toWeb :=
  h.sameText.parseLoop_eq blinkMask DISPLAY_COLS 0 0

/-- Doubled marks, and a text of 15 characters. -/
theorem parseDisplay_eq_layout_marks :
    parseDisplay (cText (displayText (bytes "1..2,,:-3.4.5.6"))) =
      (layout (displayText (bytes "1..2,,:-3.4.5.6")).rd 0).map fun l => l.cell.toWeb :=
  parseDisplay_eq_layout ⟨by decide, fun _ _ => rfl, by decide⟩ 0

/-- So does the page that shows what the decoder publishes. -/
theorem DmmContext.Reachable.parseDisplay_main {c : DmmContext} (h : c.Reachable) :
    parseDisplay (cText c.main) =
      (layout c.mainAt c.blinkMask).map fun l => l.cell.toWeb :=
  h.textOf.sameText.parseLoop_eq c.blinkMask DISPLAY_COLS 0 0

end LcdPico
