import LcdPico.CellLayout

/-!
# The text the cells show (`display.c`)

A cell shows its character and an overlay. A mark has no tile of its own: it is only
seen as an overlay. What the cells show, read in order, is the text they are made of
as long as no cell has a mark for its character that the next one does not repeat.

Each cell accounts for the characters from where it begins to where the next one
does (`drop_layoutCell`), and drops its own character when it is such a mark.
-/

namespace LcdPico

/-! ## What a cell shows -/

/-- The mark that the overlays of a cell stand for. -/
def overlayMark (flags : UInt8) : List UInt8 :=
  if flags = 1 <<< UInt8.ofNat OVERLAY_PERIOD then [0x2e]
  else if flags = 1 <<< UInt8.ofNat OVERLAY_COMMA then [0x2c]
  else if flags = 1 <<< UInt8.ofNat OVERLAY_PERIOD ||| 1 <<< UInt8.ofNat OVERLAY_DOT then [0x3a]
  else []

/-- The character of a cell, unless it is NUL or a mark. -/
def glyph (c : UInt8) : List UInt8 := if c = 0 ∨ isMark c = true then [] else [c]

/-- What a cell shows of the text. -/
def CellState.shown (cell : CellState) : List UInt8 := glyph cell.c ++ overlayMark cell.flags

theorem isMark_cases {c : UInt8} (h : isMark c = true) : c = 0x2e ∨ c = 0x2c ∨ c = 0x3a := by
  simpa [isMark, or_assoc] using h

/-- The overlays of a cell are the mark after its character. -/
theorem overlayMark_markFlags (c : UInt8) :
    overlayMark (markFlags c) = if isMark c = true then [c] else [] := by
  by_cases h : isMark c = true
  · rw [if_pos h]
    rcases isMark_cases h with rfl | rfl | rfl
    · decide
    · decide
    · decide
  · rw [if_neg h]
    have hflags : markFlags c = 0 := by
      simp only [isMark, Bool.or_eq_true, beq_iff_eq, not_or] at h
      rw [markFlags, if_neg h.1.1, if_neg h.1.2, if_neg h.2]
    rw [hflags]
    decide

/-! ## What a cell accounts for -/

/-- The character at `d`, made a cell, is not shown: a mark that the next one does
not repeat. -/
def lost (t : Nat → UInt8) (d : Nat) : Bool := isMark (t d) && decide (t (d + 1) ≠ t d)

/-- What the cell at `d` accounts for: what it shows, after the character it drops. -/
def accounted (t : Nat → UInt8) (l : LaidCell) : List UInt8 :=
  if lost t l.pos = true then t l.pos :: l.cell.shown else l.cell.shown

/-- A cell accounts for its own character, and for the mark it passes over. -/
theorem accounted_layoutCell {t : Nat → UInt8} (blinkMask : UInt16) (i : Nat) {d : Nat}
    (hd : d ≤ 15) (hne : isMark (t (d + 1)) = true → t d ≠ 0) :
    accounted t (layoutCell t blinkMask i d) =
      if t d = 0 then []
      else t d :: if isMark (t (d + 1)) = true ∧ t d ≠ t (d + 1) then [t (d + 1)] else [] := by
  obtain ⟨hpos, hcell, -, -⟩ := layoutCell_of_le t blinkMask i hd
  rw [accounted, hpos, hcell, CellState.shown, overlayMark_markFlags, lost, glyph]
  by_cases hmark : isMark (t (d + 1)) = true
  · have hnul := hne hmark
    by_cases hsame : t d = t (d + 1)
    · -- the cell's own mark is seen as the overlay for the next one
      rw [hsame] at hnul
      simp [hsame, hmark, hnul]
    · have hother : t (d + 1) ≠ t d := Ne.symm hsame
      by_cases hown : isMark (t d) = true
      · simp [hmark, hsame, hnul, hown, hother]
      · simp [hmark, hsame, hnul, hown]
  · by_cases hown : isMark (t d) = true
    · have hother : t (d + 1) ≠ t d := by
        intro heq
        rw [heq] at hmark
        exact hmark hown
      have hnul : t d ≠ 0 := by
        intro h0
        rw [h0] at hown
        exact absurd hown (by decide)
      simp [hmark, hown, hother, hnul]
    · simp [hmark, hown]

/-! ## The cells of a text -/

/-- The index behind the last cell. -/
def layoutStop (t : Nat → UInt8) (blinkMask : UInt16) : Nat :=
  (layout t blinkMask).foldl (fun _ l => l.next) 0

namespace TextOf

variable {b : DisplayBuf} {t : Nat → UInt8}

theorem nul (h : TextOf b t) : t 15 = 0 := by
  rw [h.inside 15 (Nat.le_refl _), h.text.nul]

/-- A mark comes after a character of the text. -/
theorem lt_of_mark (h : TextOf b t) {d : Nat} (hd : d ≤ 15) (hmark : isMark (t (d + 1)) = true) :
    d < 14 := by
  have h15 : d ≠ 15 := by
    rintro rfl
    rw [h.noMark] at hmark
    exact absurd hmark (by decide)
  have h14 : d ≠ 14 := by
    rintro rfl
    rw [h.nul] at hmark
    exact absurd hmark (by decide)
  omega

theorem drop_eq (h : TextOf b t) {d : Nat} (hd : d ≤ 15) :
    (cText b).drop d = if t d = 0 then [] else t d :: (cText b).drop (d + 1) := by
  rw [h.inside d hd]
  exact drop_cText h.text hd

theorem drop_of_ge (h : TextOf b t) {d : Nat} (hd : 15 ≤ d) : (cText b).drop d = [] := by
  have h15 := h.drop_eq (Nat.le_refl 15)
  rw [if_pos h.nul, List.drop_eq_nil_iff] at h15
  exact List.drop_eq_nil_of_le (Nat.le_trans h15 hd)

/-- A cell accounts for the characters up to where the next one begins. -/
theorem drop_layoutCell (h : TextOf b t) (blinkMask : UInt16) (i d : Nat) :
    (cText b).drop d =
      accounted t (layoutCell t blinkMask i d) ++
        (cText b).drop (layoutCell t blinkMask i d).next := by
  have hinside {d : Nat} (hd : d ≤ 15) :
      (cText b).drop d =
        accounted t (layoutCell t blinkMask i d) ++
          (cText b).drop (layoutCell t blinkMask i d).next := by
    have hne (hmark : isMark (t (d + 1)) = true) : t d ≠ 0 := by
      rw [h.inside d hd]
      exact isprint_ne_zero (h.text.printable d (h.lt_of_mark hd hmark))
    obtain ⟨-, -, hnext, -⟩ := layoutCell_of_le t blinkMask i hd
    rw [accounted_layoutCell blinkMask i hd hne, hnext, h.drop_eq hd]
    by_cases hnul : t d = 0
    · -- the text has ended
      have hnil := h.drop_eq hd
      rw [if_pos hnul, List.drop_eq_nil_iff] at hnil
      rw [if_pos hnul, if_pos hnul, if_neg fun hmark => hne hmark.1 hnul, List.nil_append,
        List.drop_eq_nil_of_le (Nat.le_succ_of_le hnil)]
    · rw [if_neg hnul, if_neg hnul]
      split
      · rename_i hmark
        have hlt := h.lt_of_mark hd hmark.1
        have hne₁ : t (d + 1) ≠ 0 := by
          intro h0
          rw [h0] at hmark
          exact absurd hmark.1 (by decide)
        rw [h.drop_eq (by omega), if_neg hne₁]
        rfl
      · rfl
  rcases Nat.lt_or_ge 15 d with hgt | hle
  · -- behind the end there is nothing left to account for
    rw [layoutCell_of_gt t blinkMask i hgt, ← hinside (Nat.le_refl 15),
      h.drop_of_ge (Nat.le_of_lt hgt), h.drop_of_ge (Nat.le_refl 15)]
  · exact hinside hle

/-- The cells account for the characters up to where the loop stops. -/
theorem drop_layoutLoop (h : TextOf b t) (blinkMask : UInt16) (n i d : Nat) :
    (cText b).drop d =
      (layoutLoop t blinkMask n i d).flatMap (accounted t) ++
        (cText b).drop ((layoutLoop t blinkMask n i d).foldl (fun _ l => l.next) d) := by
  induction n generalizing i d with
  | zero => rfl
  | succ n ih =>
    calc (cText b).drop d
        = accounted t (layoutCell t blinkMask i d) ++
            (cText b).drop (layoutCell t blinkMask i d).next := h.drop_layoutCell blinkMask i d
      _ = _ := by
          rw [ih (i + 1), layoutLoop, List.flatMap_cons, List.foldl_cons, List.append_assoc]

theorem accounted_layout (h : TextOf b t) (blinkMask : UInt16) :
    (layout t blinkMask).flatMap (accounted t) = (cText b).take (layoutStop t blinkMask) := by
  have hloop := h.drop_layoutLoop blinkMask DISPLAY_COLS 0 0
  rw [List.drop_zero] at hloop
  have hsplit := List.take_append_drop (layoutStop t blinkMask) (cText b)
  exact (List.append_cancel_right (hsplit.trans hloop)).symm

end TextOf

/-- What the cells show is what they account for, exactly if none is lost. -/
theorem shown_layout_iff (t : Nat → UInt8) (cells : List LaidCell) :
    (cells.flatMap fun l => l.cell.shown) = cells.flatMap (accounted t) ↔
      ∀ l ∈ cells, lost t l.pos = false := by
  have hle (cells : List LaidCell) :
      (cells.flatMap fun l => l.cell.shown).length ≤ (cells.flatMap (accounted t)).length := by
    induction cells with
    | nil => exact Nat.le_refl _
    | cons l cells ih =>
      rw [List.flatMap_cons, List.flatMap_cons, List.length_append, List.length_append, accounted]
      split
      · rw [List.length_cons]
        omega
      · omega
  induction cells with
  | nil => exact iff_of_true rfl fun l hl => absurd hl List.not_mem_nil
  | cons l cells ih =>
    rw [List.flatMap_cons, List.flatMap_cons, List.forall_mem_cons, accounted]
    cases hlost : lost t l.pos with
    | true =>
      rw [if_pos rfl]
      refine iff_of_false (fun heq => ?_) fun h => absurd h.1 (by decide)
      -- a character too few, and no cell makes up for it
      have hlen := congrArg List.length heq
      have hrest := hle cells
      rw [List.length_append, List.length_append, List.length_cons] at hlen
      omega
    | false =>
      rw [if_neg (by decide), List.append_cancel_left_eq]
      exact ⟨fun h => ⟨rfl, ih.mp h⟩, fun h => ih.mpr h.2⟩

/-- No reading begins with a mark. -/
theorem not_isMark_of_reading {b : DisplayBuf} (h : regexValidReading b.toList = true) :
    isMark (b.rd 0) = false := by
  obtain ⟨c, rest, hlist⟩ : ∃ c rest, b.toList = c :: rest := by
    apply List.exists_cons_of_length_pos
    rw [Vector.length_toList]
    decide
  have hhead : b.rd 0 = c := by
    rw [CArray.rd, ← Vector.getElem?_toList, hlist]
    rfl
  have hno : ∀ c ∈ [0x2e, 0x2c, 0x3a],
      validReading.nullable = false ∧ validReading.deriv (c : UInt8) = .empty := by decide +kernel
  rw [hhead, ← Bool.not_eq_true]
  intro hmark
  obtain ⟨hnull, hderiv⟩ := hno c (by simpa using isMark_cases hmark)
  rw [regexValidReading_eq, hlist, Regex.begins, hnull, hderiv, Regex.begins_empty] at h
  exact absurd h (by decide)

/-- The text of a decoder context. -/
theorem DmmContext.Reachable.textOf {c : DmmContext} (h : c.Reachable) :
    TextOf c.main c.mainAt := by
  refine ⟨h.holdsTexts.main, fun i hi => if_pos (Nat.lt_succ_of_le hi), ?_⟩
  change isMark (c.lastReading.rd 0) = false
  rcases h.lastReading_begins with hempty | hreading
  · rw [hempty]
    decide
  · exact not_isMark_of_reading hreading

/-- The cells that begin in the first 15 characters are the ones not passed over. -/
theorem forall_layout_iff {b : DisplayBuf} {t : Nat → UInt8} (h : TextOf b t) (blinkMask : UInt16) :
    (∀ l ∈ layout t blinkMask, lost t l.pos = false) ↔
      ∀ j < 15, overlaid t j = false → cellsBefore t j < DISPLAY_COLS → lost t j = false := by
  have hlast : lost t 15 = false := by
    rw [lost, h.nul]
    rfl
  constructor
  · intro hall j hj hstart hcount
    obtain ⟨d, hd, hget⟩ := layout_atCell t blinkMask hcount
    have hcell := hall _ (List.mem_of_getElem? hget)
    cases hd with
    | inside hle hstart' hcount' =>
      obtain rfl : d = j := Nat.count_injective hstart' hstart hcount'
      rwa [(layoutCell_of_le t blinkMask _ hle).1] at hcell
    | behind hgt hcount' =>
      -- `j` itself is one of the cells before the end
      have hlt : cellsBefore t j < cellsBefore t 15 := Nat.count_strict_mono hstart hj
      omega
  · intro hall l hl
    obtain ⟨i, hi, d, hd, rfl⟩ := mem_layout hl
    cases hd with
    | inside hle hstart hcount =>
      rw [(layoutCell_of_le t blinkMask i hle).1]
      rcases Nat.lt_or_ge d 15 with hlt | hge
      · exact hall d hlt hstart (by rwa [hcount])
      · obtain rfl : d = 15 := Nat.le_antisymm hle hge
        exact hlast
    | behind hgt hcount =>
      rw [layoutCell_of_gt t blinkMask i hgt, (layoutCell_of_le t blinkMask i (Nat.le_refl 15)).1]
      exact hlast

/-- **The cells show the text** they are made of, every mark once and in order,
exactly if each mark that a cell has for its character is repeated by the next one. -/
theorem shown_text_iff {c : DmmContext} (h : c.Reachable) :
    ((layout c.mainAt c.blinkMask).flatMap fun l => l.cell.shown) =
        (cText c.main).take (layoutStop c.mainAt c.blinkMask) ↔
      ∀ j < 15, overlaid c.mainAt j = false → cellsBefore c.mainAt j < DISPLAY_COLS →
        isMark (c.mainAt j) = true → c.mainAt (j + 1) = c.mainAt j := by
  have hlost (j : Nat) : lost c.mainAt j = false ↔
      (isMark (c.mainAt j) = true → c.mainAt (j + 1) = c.mainAt j) := by
    rw [lost, ← Bool.not_eq_true, Bool.and_eq_true, decide_eq_true_iff, not_and, not_not]
  rw [← h.textOf.accounted_layout, shown_layout_iff, forall_layout_iff h.textOf]
  exact forall₄_congr fun j _ _ _ => hlost j

/-- A text with single marks only is shown. -/
theorem shown_text_reading :
    ((layout (afterMessage "-1,234.5 MVDC").mainAt
        (afterMessage "-1,234.5 MVDC").blinkMask).flatMap fun l => l.cell.shown) =
      (cText (afterMessage "-1,234.5 MVDC").main).take
        (layoutStop (afterMessage "-1,234.5 MVDC").mainAt
          (afterMessage "-1,234.5 MVDC").blinkMask) :=
  (shown_text_iff (afterMessage_reachable _)).mpr (by decide +kernel)

/-- The second period of two is the character of a cell, and is not shown. -/
theorem shown_text_two_periods :
    (afterMessage "1..2").Reachable ∧
      ((layout (afterMessage "1..2").mainAt (afterMessage "1..2").blinkMask).flatMap fun l =>
        l.cell.shown) = bytes "1.2         " ∧
      (cText (afterMessage "1..2").main).take
        (layoutStop (afterMessage "1..2").mainAt (afterMessage "1..2").blinkMask) =
          bytes "1..2         " ∧
      ¬ ∀ c : DmmContext, c.Reachable →
        ((layout c.mainAt c.blinkMask).flatMap fun l => l.cell.shown) =
          (cText c.main).take (layoutStop c.mainAt c.blinkMask) := by
  have hreach := afterMessage_reachable "1..2"
  have hshown : ((layout (afterMessage "1..2").mainAt
      (afterMessage "1..2").blinkMask).flatMap fun l => l.cell.shown) = bytes "1.2         " := by
    decide +kernel
  have htext : (cText (afterMessage "1..2").main).take
      (layoutStop (afterMessage "1..2").mainAt (afterMessage "1..2").blinkMask) =
        bytes "1..2         " := by
    decide +kernel
  refine ⟨hreach, hshown, htext, ?_⟩
  intro h
  have heq := h _ hreach
  rw [hshown, htext] at heq
  exact absurd heq (by decide)

end LcdPico
