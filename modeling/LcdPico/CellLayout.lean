import LcdPico.Display
import LcdPico.MessageFlags
import Mathlib.Data.Nat.Count

/-!
# The cells of a text (`display.c`, `httpd-fs/index.shtml`)

The layout loop gives each of the 12 cells a character and looks at the one after
it: a period, a comma or a colon there becomes an overlay of the cell, and is passed
over unless the cell's character is the same mark.

`overlaid` says of each index of a text whether it is passed over, without the loop.
`AtCell` is the invariant that ties the loop to it: up to index 15 the cells begin
with the characters that are not passed over, in order.
-/

namespace LcdPico

/-! ## One turn of the loop -/

/-- `.`, `,` or `:` -/
def isMark (c : UInt8) : Bool := c == 0x2e || c == 0x2c || c == 0x3a

/-- The overlays for the character after a cell's own. -/
def markFlags (c : UInt8) : UInt8 :=
  if c = 0x2e then 1 else if c = 0x2c then 2 else if c = 0x3a then 5 else 0

/-- A turn of the loop at an index inside the text. -/
theorem layoutCell_of_le (t : Nat → UInt8) (blinkMask : UInt16) (i : Nat) {d : Nat} (hd : d ≤ 15) :
    (layoutCell t blinkMask i d).pos = d ∧
      (layoutCell t blinkMask i d).cell =
        { c := t d, flags := markFlags (t (d + 1)), blink := blinkMask.toNat.testBit i } ∧
      (layoutCell t blinkMask i d).next =
        (if isMark (t (d + 1)) = true ∧ t d ≠ t (d + 1) then d + 2 else d + 1) ∧
      ∀ r, r ∈ (layoutCell t blinkMask i d).reads ↔ r = d ∨ r = d + 1 := by
  have hclamp : ¬ d > DISPLAY_BUF_LEN - 1 := Nat.not_lt.mpr hd
  simp only [layoutCell, if_neg hclamp, Nat.add_sub_cancel, isMark, markFlags]
  by_cases hperiod : t (d + 1) = 0x2e
  · rw [if_pos hperiod, hperiod]
    refine ⟨rfl, rfl, by simp, fun r => by simp; omega⟩
  rw [if_neg hperiod]
  by_cases hcomma : t (d + 1) = 0x2c
  · rw [if_pos hcomma, hcomma]
    refine ⟨rfl, rfl, by simp, fun r => by simp; omega⟩
  rw [if_neg hcomma]
  by_cases hcolon : t (d + 1) = 0x3a
  · rw [if_pos hcolon, hcolon]
    refine ⟨rfl, rfl, by simp, fun r => by simp; omega⟩
  · rw [if_neg hcolon]
    refine ⟨rfl, ?_, ?_, fun r => by simp⟩
    · rw [if_neg hperiod, if_neg hcomma, if_neg hcolon]
    · simp [hperiod, hcomma, hcolon]

/-- Behind the text the loop stays at index 15. -/
theorem layoutCell_of_gt (t : Nat → UInt8) (blinkMask : UInt16) (i : Nat) {d : Nat} (hd : 15 < d) :
    layoutCell t blinkMask i d = layoutCell t blinkMask i 15 := by
  have hclamp : d > DISPLAY_BUF_LEN - 1 := hd
  simp only [layoutCell, if_pos hclamp]
  rfl

/-- The text `t` is the display text `b`, and goes on with no mark. -/
structure TextOf (b : DisplayBuf) (t : Nat → UInt8) : Prop where
  text : IsDisplayText b
  inside : ∀ i ≤ 15, t i = b.rd i
  noMark : isMark (t 16) = false

/-! ## Where the cells begin -/

/-- The character at `j` is passed over: it is a mark after another character, and
that one is not passed over itself. -/
def overlaid (t : Nat → UInt8) : Nat → Bool
  | 0 => false
  | j + 1 => isMark (t (j + 1)) && decide (t j ≠ t (j + 1)) && !overlaid t j

/-- The characters before `j` that are not passed over. -/
def cellsBefore (t : Nat → UInt8) (j : Nat) : Nat := Nat.count (fun k => overlaid t k = false) j

/-- Cell `i` begins at `d`, or behind the text. -/
inductive AtCell (t : Nat → UInt8) (i : Nat) : Nat → Prop
  | inside {d : Nat} : d ≤ 15 → overlaid t d = false → cellsBefore t d = i → AtCell t i d
  | behind {d : Nat} : 15 < d → cellsBefore t 15 ≤ i → AtCell t i d

theorem AtCell.start (t : Nat → UInt8) : AtCell t 0 0 :=
  .inside (Nat.zero_le _) rfl (Nat.count_zero _)

/-- A turn of the loop goes on to the next character that is not passed over. -/
theorem AtCell.next {t : Nat → UInt8} {i d : Nat} (h : AtCell t i d) (blinkMask : UInt16) :
    AtCell t (i + 1) (layoutCell t blinkMask i d).next := by
  have hinside {d : Nat} (hd : d ≤ 15) (hstart : overlaid t d = false)
      (hcount : cellsBefore t d = i) : AtCell t (i + 1) (layoutCell t blinkMask i d).next := by
    obtain ⟨-, -, hnext, -⟩ := layoutCell_of_le t blinkMask i hd
    have hcount₁ : cellsBefore t (d + 1) = i + 1 := by
      rw [cellsBefore, Nat.count_succ, if_pos hstart, ← hcount]
      rfl
    have hover : overlaid t (d + 1) = (isMark (t (d + 1)) && decide (t d ≠ t (d + 1))) := by
      rw [overlaid, hstart, Bool.not_false, Bool.and_true]
    rw [hnext]
    split
    · -- the mark is passed over, and the character behind it is not
      rename_i hmark
      have hover₁ : overlaid t (d + 1) = true := by
        rw [hover, hmark.1, decide_eq_true hmark.2]
        rfl
      have hover₂ : overlaid t (d + 2) = false := by
        rw [overlaid, hover₁, Bool.not_true, Bool.and_false]
      have hcount₂ : cellsBefore t (d + 2) = i + 1 := by
        rw [cellsBefore, Nat.count_succ, if_neg (by rw [hover₁]; decide)]
        exact hcount₁
      rcases Nat.lt_or_ge 15 (d + 2) with hgt | hle
      · refine .behind hgt ?_
        rw [← hcount₂]
        exact Nat.count_monotone _ (Nat.le_of_lt hgt)
      · exact .inside hle hover₂ hcount₂
    · -- no mark, or the cell's own again: a cell of its own
      rename_i hmark
      have hover₁ : overlaid t (d + 1) = false := by
        rw [hover, ← Bool.not_eq_true, Bool.and_eq_true, decide_eq_true_iff]
        exact hmark
      rcases Nat.lt_or_ge 15 (d + 1) with hgt | hle
      · obtain rfl : d = 15 := by omega
        exact .behind hgt (by rw [hcount]; exact Nat.le_succ i)
      · exact .inside hle hover₁ hcount₁
  cases h with
  | inside hd hstart hcount => exact hinside hd hstart hcount
  | behind hd hcount =>
    rw [layoutCell_of_gt t blinkMask i hd]
    obtain ⟨-, -, hnext, -⟩ := layoutCell_of_le t blinkMask i (Nat.le_refl 15)
    rw [hnext]
    -- behind the end, each turn lays the cell at index 15 again
    have hle := Nat.le_succ_of_le hcount
    split
    · exact .behind (by omega) hle
    · exact .behind (by omega) hle

/-- Each cell of the loop begins where the invariant says. -/
theorem layoutLoop_atCell {t : Nat → UInt8} (blinkMask : UInt16) {n i d : Nat} (h : AtCell t i d)
    {k : Nat} (hk : k < n) :
    ∃ d', AtCell t (i + k) d' ∧
      (layoutLoop t blinkMask n i d)[k]? = some (layoutCell t blinkMask (i + k) d') := by
  induction n generalizing i d k with
  | zero => exact absurd hk (Nat.not_lt_zero k)
  | succ n ih =>
    cases k with
    | zero => exact ⟨d, h, rfl⟩
    | succ k =>
      obtain ⟨d', hd', hget⟩ := ih (h.next blinkMask) (Nat.lt_of_succ_lt_succ hk)
      rw [Nat.add_right_comm] at hd' hget
      exact ⟨d', hd', hget⟩

theorem length_layoutLoop (t : Nat → UInt8) (blinkMask : UInt16) (n i d : Nat) :
    (layoutLoop t blinkMask n i d).length = n := by
  induction n generalizing i d with
  | zero => rfl
  | succ n ih => rw [layoutLoop, List.length_cons, ih]

/-- Cell `i` of a text. -/
theorem layout_atCell (t : Nat → UInt8) (blinkMask : UInt16) {i : Nat} (hi : i < DISPLAY_COLS) :
    ∃ d, AtCell t i d ∧ (layout t blinkMask)[i]? = some (layoutCell t blinkMask i d) := by
  have h := layoutLoop_atCell blinkMask (AtCell.start t) hi
  simp only [Nat.zero_add] at h
  exact h

/-- Every cell of a text is one of them. -/
theorem mem_layout {t : Nat → UInt8} {blinkMask : UInt16} {l : LaidCell}
    (hl : l ∈ layout t blinkMask) :
    ∃ i < DISPLAY_COLS, ∃ d, AtCell t i d ∧ l = layoutCell t blinkMask i d := by
  obtain ⟨i, hi, hget⟩ := List.getElem_of_mem hl
  have hlt : i < DISPLAY_COLS := by rwa [layout, length_layoutLoop] at hi
  obtain ⟨d, hd, hcell⟩ := layout_atCell t blinkMask hlt
  rw [List.getElem?_eq_getElem hi, hget] at hcell
  exact ⟨i, hlt, d, hd, Option.some.inj hcell⟩

/-! ## Reads inside the text -/

/-- A cell reads behind the text exactly if it begins at index 15 or later. -/
theorem reads_inside_iff {t : Nat → UInt8} {blinkMask : UInt16} {i d : Nat} :
    (∀ r ∈ (layoutCell t blinkMask i d).reads, r < DISPLAY_BUF_LEN) ↔ d < 15 := by
  rcases Nat.lt_or_ge 15 d with hgt | hle
  · rw [layoutCell_of_gt t blinkMask i hgt]
    obtain ⟨-, -, -, hreads⟩ := layoutCell_of_le t blinkMask i (Nat.le_refl 15)
    refine iff_of_false (fun h => ?_) (by omega)
    exact absurd (h 16 ((hreads 16).mpr (.inr rfl))) (by decide)
  · obtain ⟨-, -, -, hreads⟩ := layoutCell_of_le t blinkMask i hle
    constructor
    · intro h
      have hlt : d + 1 < 16 := h (d + 1) ((hreads _).mpr (.inr rfl))
      omega
    · intro hlt r hr
      change r < 16
      rcases (hreads r).mp hr with rfl | rfl
      · omega
      · omega

/-- The marks passed over and the cells before `j` are all the characters there. -/
theorem count_overlaid_add_cellsBefore (t : Nat → UInt8) (j : Nat) :
    Nat.count (fun k => overlaid t k = true) j + cellsBefore t j = j := by
  induction j with
  | zero => rfl
  | succ j ih =>
    rw [cellsBefore] at ih ⊢
    rw [Nat.count_succ, Nat.count_succ]
    cases overlaid t j with
    | true => simp; omega
    | false => simp; omega

/-- **The layout loop reads `main` only at its 16 indices**, exactly if fewer than
four of the first 15 characters are marks that it passes over. -/
theorem layout_reads_inside_iff (c : DmmContext) :
    (∀ l ∈ layout c.mainAt c.blinkMask, ∀ r ∈ l.reads, r < DISPLAY_BUF_LEN) ↔
      Nat.count (fun j => overlaid c.mainAt j = true) 15 < 4 := by
  have hcount := count_overlaid_add_cellsBefore c.mainAt 15
  constructor
  · intro h
    refine Nat.lt_of_not_le fun hfour => ?_
    -- the cell after all that begin in the first 15 characters
    have hcell : cellsBefore c.mainAt 15 < DISPLAY_COLS := by
      change cellsBefore c.mainAt 15 < 12
      omega
    obtain ⟨d, hd, hget⟩ := layout_atCell c.mainAt c.blinkMask hcell
    have hd15 := reads_inside_iff.mp (h _ (List.mem_of_getElem? hget))
    cases hd with
    | inside _ hstart hbefore =>
      have hlt : cellsBefore c.mainAt d < cellsBefore c.mainAt 15 :=
        Nat.count_strict_mono hstart hd15
      omega
    | behind hgt _ => omega
  · intro hfour l hl
    obtain ⟨i, hi, d, hd, rfl⟩ := mem_layout hl
    have hi12 : i < 12 := hi
    rw [reads_inside_iff]
    cases hd with
    | inside hle _ hbefore =>
      refine Nat.lt_of_le_of_ne hle fun heq => ?_
      rw [heq] at hbefore
      omega
    | behind _ hbefore => omega

/-- Seven periods between eight digits: the last cells begin behind the text. -/
theorem layout_reads_last_reading :
    (afterMessage "1.2.3.4.5.6.7.8").Reachable ∧
      (∃ l ∈ layout (afterMessage "1.2.3.4.5.6.7.8").mainAt
        (afterMessage "1.2.3.4.5.6.7.8").blinkMask, 16 ∈ l.reads) ∧
      ¬ ∀ c : DmmContext, c.Reachable →
        ∀ l ∈ layout c.mainAt c.blinkMask, ∀ r ∈ l.reads, r < DISPLAY_BUF_LEN := by
  have hread : ∃ l ∈ layout (afterMessage "1.2.3.4.5.6.7.8").mainAt
      (afterMessage "1.2.3.4.5.6.7.8").blinkMask, 16 ∈ l.reads := by decide +kernel
  refine ⟨afterMessage_reachable _, hread, ?_⟩
  intro h
  obtain ⟨l, hl, hr⟩ := hread
  exact absurd (h _ (afterMessage_reachable _) l hl 16 hr) (by decide)

end LcdPico
