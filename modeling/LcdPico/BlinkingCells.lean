import LcdPico.MessageFrame
import LcdPico.StatusSnapshot

/-!
# Which cells blink

In a message the byte 0x8d makes the character before it blink, and stores a colon. The
decoder numbers the characters as they are stored in the text (`messageByte`); the
layout loop takes bit `i` of the mask for cell `i`, but a mark of punctuation is
folded into the cell before it and has no cell of its own. The two numberings agree up to the
first mark that is folded.

`InCell` says in which cells a character of a text is shown, without the loop.
-/

namespace LcdPico

/-! ## The payload of a message -/

/-- The character that a byte of the payload stores. -/
def storedChar (b : UInt8) : Option UInt8 :=
  if b = 0x84 then some 0x2e
  else if b = 0x86 then some 0x2c
  else if b = 0x8d ∨ b = 0x8c then some 0x3a
  else if b = 0x81 ∨ b = 0x00 then none
  else some (if isprint b then b else 0x20)

/-- The byte stores a space because it is not printable. -/
def unprintable (b : UInt8) : Bool :=
  b != 0x84 && b != 0x86 && b != 0x8d && b != 0x8c && b != 0x81 && b != 0x00 && !isprint b

/-- The characters that a payload stores. -/
def stored (payload : List UInt8) : List UInt8 := payload.filterMap storedChar

/-- The character at `p` was the last one stored before some 0x8d. -/
def Marked (payload : List UInt8) (p : Nat) : Prop :=
  ∃ u v, payload = u ++ 0x8d :: v ∧ (stored u).length = p + 1

/-- The text of a payload, with blanks behind it. -/
def textAt (payload : List UInt8) (j : Nat) : UInt8 := (stored payload).getD j 0x20

/-- The payload fits in the display buffer. -/
def FitsDisplay (payload : List UInt8) : Prop := (stored payload).length ≤ DISPLAY_BUF_LEN - 1

instance (payload : List UInt8) : Decidable (FitsDisplay payload) :=
  inferInstanceAs (Decidable (_ ≤ _))

theorem stored_snoc (payload : List UInt8) (b : UInt8) :
    stored (payload ++ [b]) = stored payload ++ (storedChar b).toList := by
  rw [stored, List.filterMap_append]
  cases h : storedChar b with
  | none => rw [List.filterMap_cons_none h]; rfl
  | some c => rw [List.filterMap_cons_some h]; rfl

/-- One more byte marks the last character, if it is 0x8d. -/
theorem marked_snoc (payload : List UInt8) (b : UInt8) (p : Nat) :
    Marked (payload ++ [b]) p ↔ Marked payload p ∨ b = 0x8d ∧ (stored payload).length = p + 1 := by
  constructor
  · rintro ⟨u, v, heq, hlen⟩
    rcases List.eq_nil_or_concat v with rfl | ⟨v, x, rfl⟩
    · obtain ⟨rfl, hb⟩ := List.append_inj' heq rfl
      exact .inr ⟨(List.cons.inj hb).1, hlen⟩
    · have heq' : payload ++ [b] = (u ++ 0x8d :: v) ++ [x] := by simpa using heq
      exact .inl ⟨u, v, (List.append_inj' heq' rfl).1, hlen⟩
  · rintro (⟨u, v, rfl, hlen⟩ | ⟨rfl, hlen⟩)
    · exact ⟨u, v ++ [b], by simp, hlen⟩
    · exact ⟨payload, [], rfl, hlen⟩

/-- A colon follows what is marked. -/
theorem Marked.lt {payload : List UInt8} {p : Nat} (h : Marked payload p) :
    p + 1 < (stored payload).length := by
  obtain ⟨u, v, rfl, hlen⟩ := h
  rw [stored, List.filterMap_append, List.length_append, ← stored, hlen]
  have hcolon : (List.filterMap storedChar (0x8d :: v)).length =
      (List.filterMap storedChar v).length + 1 := by
    rw [List.filterMap_cons_some (show storedChar 0x8d = some 0x3a from rfl), List.length_cons]
  omega

/-! ## The message that is assembled -/

/-- The work area holds the characters of the payload, and the marks. -/
structure Assembled (m : MessageAssembly) (payload : List UInt8) : Prop where
  started : m.workNeedReset = false
  idx : m.msgIdx = (stored payload).length
  text : ∀ j < (stored payload).length, m.msgWork.rd j = textAt payload j
  rest : ∀ j < DISPLAY_BUF_LEN, (stored payload).length ≤ j → isMark (m.msgWork.rd j) = false
  blink : ∀ p, m.blinkWork.toNat.testBit p = true ↔ Marked payload p

theorem assembled_resetWork {m : MessageAssembly} (h : m.workNeedReset = true) :
    Assembled m.resetWork [] := by
  have hblank : ∀ j < DISPLAY_BUF_LEN, isMark (blankText.rd j) = false := by decide
  rw [MessageAssembly.resetWork, if_pos h]
  refine ⟨rfl, rfl, fun j hj => absurd hj (Nat.not_lt_zero j), fun j hj _ => hblank j hj,
    fun p => ?_⟩
  refine iff_of_false (by rw [show (0 : UInt16).toNat = 0 from rfl, Nat.zero_testBit]; decide) ?_
  rintro ⟨u, v, heq, -⟩
  exact absurd heq.symm (List.append_ne_nil_of_right_ne_nil _ (List.cons_ne_nil _ _))

/-- What `dmm_putc_safe` does while there is room. -/
theorem dmmPutcSafe_room {m : MessageAssembly} (h : m.msgIdx < DISPLAY_BUF_LEN - 1) (c : UInt8) :
    (m.dmmPutcSafe c).workNeedReset = m.workNeedReset ∧
      (m.dmmPutcSafe c).msgIdx = m.msgIdx + 1 ∧
      (m.dmmPutcSafe c).msgWork = m.msgWork.wr m.msgIdx (if isprint c then c else 0x20) ∧
      (m.dmmPutcSafe c).blinkWork = m.blinkWork := by
  rw [MessageAssembly.dmmPutcSafe, if_neg (Nat.not_le_of_lt h)]
  dsimp only
  split
  · exact ⟨rfl, rfl, rfl, rfl⟩
  split
  · exact ⟨rfl, rfl, rfl, rfl⟩
  · exact ⟨rfl, rfl, rfl, rfl⟩

/-- A stored character, once the marks are up to date. -/
theorem Assembled.put {m : MessageAssembly} {payload : List UInt8} (h : Assembled m payload)
    {b c : UInt8} (hstored : storedChar b = some (if isprint c then c else 0x20))
    (hfits : FitsDisplay (payload ++ [b])) {mask : UInt16}
    (hmask : ∀ p, mask.toNat.testBit p = true ↔ Marked (payload ++ [b]) p) :
    Assembled ({ m with blinkWork := mask }.dmmPutcSafe c) (payload ++ [b]) := by
  have hnext : stored (payload ++ [b]) = stored payload ++ [if isprint c then c else 0x20] := by
    rw [stored_snoc, hstored]
    rfl
  have hlen : (stored (payload ++ [b])).length = (stored payload).length + 1 := by
    rw [hnext, List.length_append, List.length_singleton]
  rw [FitsDisplay, hlen] at hfits
  have hroom : m.msgIdx < DISPLAY_BUF_LEN - 1 := by
    rw [h.idx]
    exact hfits
  have hin : m.msgIdx < DISPLAY_BUF_LEN := Nat.lt_of_lt_of_le hroom (Nat.sub_le _ _)
  obtain ⟨hreset, hidx, hwork, hblink⟩ :=
    dmmPutcSafe_room (m := { m with blinkWork := mask }) hroom c
  refine ⟨hreset.trans h.started, ?_, ?_, ?_, ?_⟩
  · rw [hidx, hlen]
    exact congrArg (· + 1) h.idx
  · intro j hj
    rw [hlen] at hj
    rw [hwork, textAt, hnext]
    dsimp only
    by_cases hjidx : m.msgIdx = j
    · -- the character just written
      rw [← hjidx, CArray.rd_wr_self _ hin, h.idx, List.getD_append_right _ _ _ _ (Nat.le_refl _),
        Nat.sub_self]
      rfl
    · have hj' : j < (stored payload).length := by
        have := h.idx
        omega
      rw [CArray.rd_wr_ne _ hjidx, List.getD_append _ _ _ _ hj']
      exact h.text j hj'
  · intro j hj hge
    rw [hlen] at hge
    rw [hwork]
    dsimp only
    rw [CArray.rd_wr_ne _ (by rw [h.idx]; omega)]
    exact h.rest j hj (Nat.le_of_succ_le hge)
  · intro p
    rw [hblink]
    exact hmask p

/-- A byte that stores nothing. -/
theorem Assembled.ignore {m : MessageAssembly} {payload : List UInt8} (h : Assembled m payload)
    {b : UInt8} (hstored : storedChar b = none)
    (hmask : ∀ p, Marked (payload ++ [b]) p ↔ Marked payload p) :
    Assembled m (payload ++ [b]) := by
  have hsame : stored (payload ++ [b]) = stored payload := by
    rw [stored_snoc, hstored]
    exact List.append_nil _
  have htext : textAt (payload ++ [b]) = textAt payload := by
    funext j
    rw [textAt, textAt, hsame]
  refine ⟨h.started, ?_, ?_, ?_, fun p => (h.blink p).trans (hmask p).symm⟩
  · rw [hsame]
    exact h.idx
  · rw [hsame, htext]
    exact h.text
  · rw [hsame]
    exact h.rest

/-- The mask with the bit of the last character. -/
theorem testBit_mark (mask : UInt16) {n : Nat} (hn : n < 16) (p : Nat) :
    (mask ||| UInt16.ofNat (1 <<< n)).toNat.testBit p =
      (mask.toNat.testBit p || decide (n = p)) := by
  have hlt : 2 ^ n < 2 ^ 16 := Nat.pow_lt_pow_right (by decide) hn
  rw [UInt16.toNat_or, Nat.testBit_or, UInt16.toNat_ofNat', Nat.one_shiftLeft, Nat.mod_eq_of_lt hlt,
    Nat.testBit_two_pow]

/-- The marks after the byte `b`. -/
def MessageAssembly.marked (m : MessageAssembly) (b : UInt8) : UInt16 :=
  if b = 0x8d ∧ 0 < m.msgIdx then m.blinkWork ||| UInt16.ofNat (1 <<< (m.msgIdx - 1))
  else m.blinkWork

/-- What the `switch (byte)` of `messageByte` can do. -/
theorem putByte_cases (m : MessageAssembly) (b : UInt8) :
    (storedChar b = none ∧ b ≠ 0x8d ∧ unprintable b = false ∧ m.putByte b = m) ∨
    ∃ c, storedChar b = some (if isprint c then c else 0x20) ∧ unprintable b = !isprint c ∧
      m.putByte b = { m with blinkWork := m.marked b }.dmmPutcSafe c := by
  have hplain (hb : b ≠ 0x8d) : { m with blinkWork := m.marked b } = m := by
    rw [MessageAssembly.marked, if_neg fun h => hb h.1]
  rw [MessageAssembly.putByte]
  by_cases h84 : b = 0x84
  · refine .inr ⟨0x2e, by rw [h84]; rfl, by rw [h84]; rfl, ?_⟩
    rw [if_pos h84, hplain (by rw [h84]; decide)]
  by_cases h86 : b = 0x86
  · refine .inr ⟨0x2c, by rw [h86]; rfl, by rw [h86]; rfl, ?_⟩
    rw [if_neg h84, if_pos h86, hplain (by rw [h86]; decide)]
  by_cases h8d : b = 0x8d
  · refine .inr ⟨0x3a, by rw [h8d]; rfl, by rw [h8d]; rfl, ?_⟩
    rw [if_neg h84, if_neg h86, if_pos h8d, MessageAssembly.marked]
    by_cases hpos : 0 < m.msgIdx
    · rw [if_pos hpos, if_pos ⟨h8d, hpos⟩]
    · rw [if_neg hpos, if_neg fun h => hpos h.2]
  by_cases h8c : b = 0x8c
  · refine .inr ⟨0x3a, by rw [h8c]; rfl, by rw [h8c]; rfl, ?_⟩
    rw [if_neg h84, if_neg h86, if_neg h8d, if_pos h8c, hplain h8d]
  rw [if_neg h84, if_neg h86, if_neg h8d, if_neg h8c]
  by_cases h81 : b = 0x81
  · rw [if_pos h81]
    exact .inl ⟨by rw [h81]; rfl, h8d, by rw [h81]; rfl, rfl⟩
  by_cases h00 : b = 0x00
  · rw [if_neg h81, if_pos h00]
    exact .inl ⟨by rw [h00]; rfl, h8d, by rw [h00]; rfl, rfl⟩
  -- the default of the switch stores the byte itself
  refine .inr ⟨b, ?_, ?_, ?_⟩
  · rw [storedChar, if_neg h84, if_neg h86, if_neg (not_or.mpr ⟨h8d, h8c⟩),
      if_neg (not_or.mpr ⟨h81, h00⟩)]
  · simp [unprintable, h84, h86, h8d, h8c, h81, h00]
  · rw [if_neg h81, if_neg h00, hplain h8d]

/-- One more byte of a payload that fits. -/
theorem Assembled.messageByte {m : MessageAssembly} {payload : List UInt8}
    (h : Assembled m payload) {b : UInt8} (hfits : FitsDisplay (payload ++ [b])) :
    Assembled (m.messageByte b) (payload ++ [b]) := by
  rw [MessageAssembly.messageByte, MessageAssembly.resetWork, h.started, if_neg Bool.false_ne_true]
  obtain ⟨hstored, h8d, -, hput⟩ | ⟨c, hstored, -, hput⟩ := putByte_cases m b
  · rw [hput]
    refine h.ignore hstored fun p => ?_
    rw [marked_snoc]
    exact or_iff_left fun hp => h8d hp.1
  · rw [hput]
    refine h.put hstored hfits fun p => ?_
    rw [marked_snoc, MessageAssembly.marked]
    by_cases hmark : b = 0x8d ∧ 0 < m.msgIdx
    · -- the payload fits, so the bit that is set is one of the sixteen
      have hlt : m.msgIdx - 1 < 16 := by
        have hlen := congrArg List.length (stored_snoc payload b)
        rw [hstored, List.length_append, Option.toList_some, List.length_singleton, ← h.idx] at hlen
        rw [FitsDisplay, hlen] at hfits
        simp only [DISPLAY_BUF_LEN] at hfits
        omega
      rw [if_pos hmark, testBit_mark _ hlt, Bool.or_eq_true, h.blink, decide_eq_true_iff, ← h.idx]
      refine or_congr_right ⟨fun hp => ⟨hmark.1, by omega⟩, fun hp => by omega⟩
    · rw [if_neg hmark, h.blink, ← h.idx]
      exact (or_iff_left fun hp => hmark ⟨hp.1, by omega⟩).symm

/-- A part of a payload that fits does, too. -/
theorem FitsDisplay.left {u v : List UInt8} (h : FitsDisplay (u ++ v)) : FitsDisplay u := by
  rw [FitsDisplay, stored, List.filterMap_append, List.length_append] at h
  exact Nat.le_of_add_right_le h

/-- The pairs that deliver a payload. -/
def payloadBytes (ps : List SniffByte) : List UInt8 := ps.map SniffByte.input

theorem Assembled.payload_append {m : MessageAssembly} {ps qs : List SniffByte}
    (h : Assembled m (payloadBytes ps)) (hfits : FitsDisplay (payloadBytes (ps ++ qs))) :
    Assembled (m.payload qs) (payloadBytes (ps ++ qs)) := by
  induction qs generalizing m ps with
  | nil =>
    rw [List.append_nil]
    exact h
  | cons q qs ih =>
    have hone : payloadBytes (ps ++ [q]) = payloadBytes ps ++ [q.input] := List.map_append
    have hall : ps ++ q :: qs = ps ++ [q] ++ qs := (List.append_cons ps q qs)
    rw [hall] at hfits ⊢
    have hleft : FitsDisplay (payloadBytes (ps ++ [q])) := by
      rw [payloadBytes, List.map_append] at hfits
      exact hfits.left
    rw [hone] at hleft
    refine ih ?_ hfits
    rw [hone]
    exact h.messageByte hleft

/-- A payload from its first byte on. -/
theorem Assembled.payload {m : MessageAssembly} (h : Assembled m []) {ps : List SniffByte}
    (hfits : FitsDisplay (payloadBytes ps)) : Assembled (m.payload ps) (payloadBytes ps) := by
  have hstart : Assembled m (payloadBytes []) := h
  exact hstart.payload_append hfits

/-- The first byte resets the work area. -/
theorem payload_resetWork {m : MessageAssembly} (h : m.workNeedReset = true)
    {ps : List SniffByte} (hne : ps ≠ []) : m.payload ps = m.resetWork.payload ps := by
  have hreset : m.resetWork.resetWork = m.resetWork := by
    rw [MessageAssembly.resetWork, if_neg]
    rw [(assembled_resetWork h).started]
    decide
  cases ps with
  | nil => exact absurd rfl hne
  | cons p ps =>
    simp only [MessageAssembly.payload, Machine.run_cons, MessageAssembly.messageByte, hreset]

/-! ## The cells that show a character -/

/-- The cell shows the character at `p`, as its glyph or as its overlay. -/
def LaidCell.Shows (l : LaidCell) (p : Nat) : Prop :=
  p = l.pos ∨ p = l.pos + 1 ∧ l.cell.flags ≠ 0

/-- The character at `p` of a text begins cell `i`, or is a mark after one that does. -/
def InCell (t : Nat → UInt8) (p i : Nat) : Prop :=
  overlaid t p = false ∧ cellsBefore t p = i ∨
    ∃ d, p = d + 1 ∧ isMark (t p) = true ∧ overlaid t d = false ∧ cellsBefore t d = i

theorem markFlags_ne_zero_iff (c : UInt8) : markFlags c ≠ 0 ↔ isMark c = true := by
  rw [markFlags, isMark]
  by_cases hperiod : c = 0x2e
  · simp [hperiod]
  by_cases hcomma : c = 0x2c
  · simp [hcomma]
  by_cases hcolon : c = 0x3a
  · simp [hcolon]
  · simp [hperiod, hcomma, hcolon]

/-- The layout shows the characters before index 15 in the cells they are in. -/
theorem layout_shows_iff (t : Nat → UInt8) (blinkMask : UInt16) {i p : Nat} (hi : i < DISPLAY_COLS)
    (hp : p < 15) :
    (∃ l, (layout t blinkMask)[i]? = some l ∧ l.Shows p) ↔ InCell t p i := by
  obtain ⟨d, hd, hget⟩ := layout_atCell t blinkMask hi
  have hcell : (∃ l, (layout t blinkMask)[i]? = some l ∧ l.Shows p) ↔
      (layoutCell t blinkMask i d).Shows p := by
    rw [hget]
    exact ⟨fun ⟨l, hl, hshows⟩ => Option.some.inj hl ▸ hshows, fun h => ⟨_, rfl, h⟩⟩
  rw [hcell]
  cases hd with
  | inside hle hstart hcount =>
    obtain ⟨hpos, hlaid, -, -⟩ := layoutCell_of_le t blinkMask i hle
    -- only one character that begins a cell has this number
    have hunique {d' : Nat} (hstart' : overlaid t d' = false) (hcount' : cellsBefore t d' = i) :
        d' = d :=
      Nat.count_injective (p := fun k => overlaid t k = false) hstart' hstart
        (hcount'.trans hcount.symm)
    rw [LaidCell.Shows, hpos, hlaid]
    dsimp only
    rw [markFlags_ne_zero_iff]
    constructor
    · rintro (rfl | ⟨rfl, hmark⟩)
      · exact .inl ⟨hstart, hcount⟩
      · exact .inr ⟨d, rfl, hmark, hstart, hcount⟩
    · rintro (⟨hstart', hcount'⟩ | ⟨d', rfl, hmark, hstart', hcount'⟩)
      · exact .inl (hunique hstart' hcount')
      · obtain rfl := hunique hstart' hcount'
        exact .inr ⟨rfl, hmark⟩
  | behind hgt hcount =>
    -- the cell is laid at index 15, and there is no character of its number before
    obtain ⟨hpos, -, -, -⟩ := layoutCell_of_le t blinkMask i (Nat.le_refl 15)
    have hbefore {d' : Nat} (hd' : d' < 15) (hstart : overlaid t d' = false)
        (hcount' : cellsBefore t d' = i) : False := by
      have hlt : cellsBefore t d' < cellsBefore t 15 :=
        Nat.count_strict_mono (p := fun k => overlaid t k = false) hstart hd'
      omega
    rw [layoutCell_of_gt t blinkMask i hgt, LaidCell.Shows, hpos]
    refine iff_of_false (fun h => ?_) (fun h => ?_)
    · rcases h with h | ⟨h, -⟩
      · omega
      · omega
    · rcases h with ⟨hstart, hcount'⟩ | ⟨d', rfl, -, hstart, hcount'⟩
      · exact hbefore hp hstart hcount'
      · exact hbefore (Nat.lt_of_succ_lt hp) hstart hcount'

/-- Texts that agree up to an index overlay the same marks there. -/
theorem overlaid_congr {t t' : Nat → UInt8} {p : Nat} (h : ∀ j ≤ p, t j = t' j) :
    overlaid t p = overlaid t' p := by
  induction p with
  | zero => rfl
  | succ p ih =>
    rw [overlaid, overlaid, h (p + 1) (Nat.le_refl _), h p (Nat.le_succ p),
      ih fun j hj => h j (Nat.le_succ_of_le hj)]

theorem cellsBefore_congr {t t' : Nat → UInt8} {p : Nat} (h : ∀ j < p, t j = t' j) :
    cellsBefore t p = cellsBefore t' p := by
  induction p with
  | zero => rfl
  | succ p ih =>
    have hover : overlaid t p = overlaid t' p :=
      overlaid_congr fun j hj => h j (Nat.lt_succ_of_le hj)
    have hbefore := ih fun j hj => h j (Nat.lt_succ_of_lt hj)
    rw [cellsBefore, cellsBefore] at hbefore ⊢
    rw [Nat.count_succ, Nat.count_succ, hbefore, hover]

theorem inCell_congr {t t' : Nat → UInt8} {p : Nat} (h : ∀ j ≤ p, t j = t' j) (i : Nat) :
    InCell t p i ↔ InCell t' p i := by
  rw [InCell, InCell, overlaid_congr h, cellsBefore_congr fun j hj => h j (Nat.le_of_lt hj),
    h p (Nat.le_refl p)]
  refine or_congr_right (exists_congr fun d => and_congr_right fun hd => ?_)
  subst hd
  rw [overlaid_congr fun j hj => h j (Nat.le_succ_of_le hj),
    cellsBefore_congr fun j hj => h j (Nat.le_succ_of_le (Nat.le_of_lt hj))]

/-! ## Numbers of characters and of cells -/

section Numbers

variable {t : Nat → UInt8} {p i : Nat}

theorem cellsBefore_le (t : Nat → UInt8) (p : Nat) : cellsBefore t p ≤ p :=
  Nat.count_le _

/-- Up to the first mark that is folded, characters and cells have the same numbers. -/
theorem cellsBefore_eq_self_iff : cellsBefore t p = p ↔ ∀ j < p, overlaid t j = false :=
  Nat.count_iff_forall

/-- A character is in no cell of a higher number, -/
theorem InCell.le (h : InCell t p i) : i ≤ p := by
  rcases h with ⟨-, rfl⟩ | ⟨d, rfl, -, -, rfl⟩
  · exact cellsBefore_le t p
  · exact Nat.le_succ_of_le (cellsBefore_le t d)

/-- and behind a mark that is folded, not in the one of its own number. -/
theorem InCell.lt (h : InCell t p i) {j : Nat} (hj : j ≤ p) (hover : overlaid t j = true) :
    i < p := by
  rcases h with ⟨hstart, rfl⟩ | ⟨d, rfl, -, -, rfl⟩
  · refine Nat.lt_of_le_of_ne (cellsBefore_le t p) fun heq => ?_
    have hne : j ≠ p := by
      rintro rfl
      rw [hover] at hstart
      cases hstart
    rw [cellsBefore_eq_self_iff.mp heq j (Nat.lt_of_le_of_ne hj hne)] at hover
    cases hover
  · exact Nat.lt_succ_of_le (cellsBefore_le t d)

/-- A character that is passed over is a mark behind one that begins a cell. -/
theorem exists_inCell (t : Nat → UInt8) (p : Nat) : ∃ i ≤ p, InCell t p i := by
  cases hover : overlaid t p with
  | false => exact ⟨_, cellsBefore_le t p, .inl ⟨hover, rfl⟩⟩
  | true =>
    cases p with
    | zero => cases hover
    | succ d =>
      simp only [overlaid, Bool.and_eq_true, Bool.not_eq_true'] at hover
      exact ⟨_, Nat.le_succ_of_le (cellsBefore_le t d), .inr ⟨d, rfl, hover.1.1, hover.2, rfl⟩⟩

end Numbers

section Payload

variable {payload : List UInt8}

/-- The character at `p` is in one of the cells. -/
def Visible (payload : List UInt8) (p : Nat) : Prop :=
  ∃ i < DISPLAY_COLS, InCell (textAt payload) p i

/-- No mark is folded up to a marked character that is visible. If that is punctuation
itself, it repeats the mark before it, whose cell shows both: that one is marked, too. -/
def Unfolded (payload : List UInt8) : Prop :=
  ∀ p, Marked payload p → Visible payload p →
    (∀ j ≤ p, overlaid (textAt payload) j = false) ∧
      (0 < p → isMark (textAt payload p) = true → Marked payload (p - 1))

/-- The numbers of the marked characters are those of the cells that show one. -/
def SameNumbers (payload : List UInt8) : Prop :=
  ∀ i < DISPLAY_COLS, Marked payload i ↔ ∃ p, Marked payload p ∧ InCell (textAt payload) p i

/-- A character is marked and visible whose number is no cell's. -/
def MarkedPastCells (payload : List UInt8) : Prop :=
  ∃ p, DISPLAY_COLS ≤ p ∧ Marked payload p ∧ Visible payload p

theorem Unfolded.sameNumbers (h : Unfolded payload) : SameNumbers payload := by
  intro i hi
  constructor
  · intro hmarked
    obtain ⟨k, hk, hin⟩ := exists_inCell (textAt payload) i
    obtain ⟨hover, -⟩ := h i hmarked ⟨k, Nat.lt_of_le_of_lt hk hi, hin⟩
    have hcount : cellsBefore (textAt payload) i = i :=
      cellsBefore_eq_self_iff.mpr fun j hj => hover j (Nat.le_of_lt hj)
    exact ⟨i, hmarked, .inl ⟨hover i (Nat.le_refl i), hcount⟩⟩
  · rintro ⟨p, hmarked, hin⟩
    obtain ⟨hover, hpunct⟩ := h p hmarked ⟨i, hi, hin⟩
    rcases hin with ⟨-, rfl⟩ | ⟨d, rfl, hmark, -, rfl⟩
    · rwa [cellsBefore_eq_self_iff.mpr fun j hj => hover j (Nat.le_of_lt hj)]
    · rw [cellsBefore_eq_self_iff.mpr fun j hj => hover j (Nat.le_succ_of_le (Nat.le_of_lt hj))]
      exact hpunct (Nat.succ_pos d) hmark

/-- Behind a folded mark, every marked character is in the cell of another one, whose number
is higher. So one of them is past the cells. -/
theorem SameNumbers.not_folded (h : SameNumbers payload) (hpast : ¬ MarkedPastCells payload)
    {p j : Nat} (hmarked : Marked payload p) (hvisible : Visible payload p) (hj : j ≤ p) :
    overlaid (textAt payload) j = false := by
  by_contra hover
  rw [Bool.not_eq_false] at hover
  have hlt : p < DISPLAY_COLS := Nat.lt_of_not_le fun hge => hpast ⟨p, hge, hmarked, hvisible⟩
  -- each step finds a marked character further right, and there are only twelve cells
  induction hk : DISPLAY_COLS - p using Nat.strongRecOn generalizing p with
  | ind k ih =>
    obtain ⟨q, hq, hin⟩ := (h p hlt).mp hmarked
    have hvisible' : Visible payload q := ⟨p, hlt, hin⟩
    have hlt' : q < DISPLAY_COLS := Nat.lt_of_not_le fun hge => hpast ⟨q, hge, hq, hvisible'⟩
    have hjq : j ≤ q := Nat.le_trans hj hin.le
    have hpq : p < q := hin.lt hjq hover
    exact ih (DISPLAY_COLS - q) (by omega) hq hvisible' hjq hlt' rfl

theorem SameNumbers.unfolded (h : SameNumbers payload) (hpast : ¬ MarkedPastCells payload) :
    Unfolded payload := by
  intro p hmarked hvisible
  have hover : ∀ j ≤ p, overlaid (textAt payload) j = false :=
    fun j hj => h.not_folded hpast hmarked hvisible hj
  -- a mark that repeats the one before it is in the cell of that one
  refine ⟨hover, fun hpos hmark => ?_⟩
  have hlt : p < DISPLAY_COLS := Nat.lt_of_not_le fun hge => hpast ⟨p, hge, hmarked, hvisible⟩
  have hcount : cellsBefore (textAt payload) (p - 1) = p - 1 :=
    cellsBefore_eq_self_iff.mpr fun j hj => hover j (by omega)
  exact (h (p - 1) (by omega)).mpr
    ⟨p, hmarked, .inr ⟨p - 1, by omega, hmark, hover (p - 1) (Nat.sub_le p 1), hcount⟩⟩

theorem sameNumbers_iff :
    SameNumbers payload ↔ Unfolded payload ∨ MarkedPastCells payload ∧ SameNumbers payload := by
  constructor
  · intro h
    by_cases hpast : MarkedPastCells payload
    · exact .inr ⟨hpast, h⟩
    · exact .inl (h.unfolded hpast)
  · rintro (h | ⟨-, h⟩)
    · exact h.sameNumbers
    · exact h

end Payload

/-! ## Main result -/

/-- The bytes of messages that a context has collected since its work area was reset. -/
def DmmContext.Collected (c : DmmContext) (ps : List SniffByte) : Prop :=
  ∃ m : MessageAssembly, m.workNeedReset = true ∧ c.msg = m.payload ps

/-- The cells that blink are those that show a character before some 0x8d. -/
def BlinksAsMarked (c : DmmContext) (cells : Cells) (payload : List UInt8) : Prop :=
  ∀ i < DISPLAY_COLS, ((cells.rd i).blink = true ↔
    ∃ l p, (layout c.mainAt c.blinkMask)[i]? = some l ∧ Marked payload p ∧ l.Shows p)

/-- An assembled message, laid out. -/
theorem blinksAsMarked_iff {m : MessageAssembly} {payload : List UInt8} (hm : Assembled m payload)
    (hfits : FitsDisplay payload) {s : DisplayState} (hmain : s.dmm.main = m.msgWork)
    (hmask : s.dmm.blinkMask = m.blinkWork) (now : Nat) :
    BlinksAsMarked s.dmm (s.layoutText now).vars.disp payload ↔ SameNumbers payload := by
  refine forall_congr' fun i => imp_congr_right fun hi => ?_
  have hbit : ((s.layoutText now).vars.disp.rd i).blink = true ↔ Marked payload i := by
    rw [layoutText_blink s now hi, DmmContext.blinks, hmask]
    exact hm.blink i
  have hshown : (∃ l p, (layout s.dmm.mainAt s.dmm.blinkMask)[i]? = some l ∧ Marked payload p ∧
      l.Shows p) ↔ ∃ p, Marked payload p ∧ InCell (textAt payload) p i := by
    rw [exists_comm]
    refine exists_congr fun p => ?_
    have hcells (hp : Marked payload p) :
        (∃ l, (layout s.dmm.mainAt s.dmm.blinkMask)[i]? = some l ∧ l.Shows p) ↔
          InCell (textAt payload) p i := by
      have hlt : p + 1 < (stored payload).length := hp.lt
      have hlen : (stored payload).length ≤ 15 := hfits
      rw [layout_shows_iff _ _ hi (by omega)]
      -- up to a marked character the display buffer holds the payload
      refine inCell_congr (fun j hj => ?_) i
      have hj16 : j < DISPLAY_BUF_LEN := by
        simp only [DISPLAY_BUF_LEN]
        omega
      rw [DmmContext.mainAt, if_pos hj16, hmain, hm.text j (by omega)]
    constructor
    · rintro ⟨l, hl, hp, hshows⟩
      exact ⟨hp, (hcells hp).mp ⟨l, hl, hshows⟩⟩
    · rintro ⟨hp, hin⟩
      obtain ⟨l, hl, hshows⟩ := (hcells hp).mpr hin
      exact ⟨l, hl, hp, hshows⟩
  rw [hbit, hshown]

theorem displayStatus_disp {s : DisplayState} (hactive : s.vars.displayActive = true) (now : Nat)
    (us : Nat → UInt32) :
    (displayStatus s true now us).vars.disp = (s.layoutText now).vars.disp := by
  rw [displayStatus, hactive, if_neg (by decide), if_neg (by decide)]
  dsimp only
  split_ifs
  · rfl
  · rfl

/-- **The cells that blink show the marked characters**, exactly if no mark of punctuation is
folded up to one of these, unless one past the twelfth is marked and the numbers agree
by coincidence. -/
theorem blinking_cells_iff {c : DmmContext} (hc : c.AtBoundary) {ps : List SniffByte}
    (hps : c.Collected ps) (f : MessageFrame) (hne : ps ++ f.payload ≠ [])
    (hfits : FitsDisplay (payloadBytes (ps ++ f.payload))) {w : List Event}
    (hw : Delivers w f.pairs) {s : DisplayState} (hs : s.dmm = Machine.run DmmContext.step c w)
    (hactive : s.vars.displayActive = true) (now : Nat) (us : Nat → UInt32) :
    BlinksAsMarked s.dmm (displayStatus s true now us).vars.disp
        (payloadBytes (ps ++ f.payload)) ↔
      Unfolded (payloadBytes (ps ++ f.payload)) ∨
        MarkedPastCells (payloadBytes (ps ++ f.payload)) ∧
          SameNumbers (payloadBytes (ps ++ f.payload)) := by
  obtain ⟨m, hm, hmsg⟩ := hps
  have hall : c.msg.payload f.payload = m.payload (ps ++ f.payload) := by
    rw [hmsg, MessageAssembly.payload, MessageAssembly.payload, MessageAssembly.payload,
      Machine.run_append]
  have hassembled : Assembled (m.payload (ps ++ f.payload)) (payloadBytes (ps ++ f.payload)) := by
    rw [payload_resetWork hm hne]
    exact (assembled_resetWork hm).payload hfits
  have hshown := f.run_shown hc hw
  rw [← hs, hall] at hshown
  rw [displayStatus_disp hactive, ← sameNumbers_iff]
  refine blinksAsMarked_iff hassembled hfits ?_ ?_ now
  · exact (congrArg Shown.main hshown).trans (classify_msgWork _)
  · exact (congrArg Shown.blinkMask hshown).trans (classify_blinkWork _)

/-- There is such a list in every context that can be reached. -/
theorem DmmContext.Reachable.collected {c : DmmContext} (h : c.Reachable) :
    ∃ ps, c.Collected ps := by
  refine Machine.Reachable.invariant (P := fun c : DmmContext => ∃ ps, c.Collected ps) ?_ ?_ h
  · rintro _ rfl
    exact ⟨[], decoder34401Init.msg, rfl, rfl⟩
  · rintro c e ⟨ps, m, hm, hmsg⟩
    cases e with
    | pair p t =>
      by_cases hstate : c.buf.frameState = .message
      · by_cases heof : (c.buf.store p).lastBytesAreEof = true
        · refine ⟨[], { c.msg.classify with workNeedReset := true }, rfl, ?_⟩
          rw [DmmContext.step, processPair_msg, if_pos hstate, if_pos heof]
          rfl
        · refine ⟨ps ++ [⟨(c.buf.store p).inputBuf.rd ((c.buf.store p).bufLen - 1), 0⟩], m, hm, ?_⟩
          rw [DmmContext.step, processPair_msg, if_pos hstate, if_neg heof, hmsg,
            MessageAssembly.payload, MessageAssembly.payload, Machine.run_append]
          rfl
      · exact ⟨ps, m, hm, by rw [DmmContext.step, processPair_msg, if_neg hstate, hmsg]⟩
    | tick now_us => exact ⟨ps, m, hm, by rw [DmmContext.step, processShiftWindow_msg, hmsg]⟩
    | reset => exact ⟨[], (c.step .reset).msg, rfl, rfl⟩
    | interrupt sniff dbg => exact ⟨ps, m, hm, hmsg⟩

/-! ## Two messages -/

/-- The display, running, with the decoder after a message. -/
def displayAfter (payload : List UInt8) : DisplayState :=
  { displayInit true with dmm := after (eofPair :: messagePairs payload) }

/-- A frame of `messagePairs`. -/
def plainMessage (payload : List SniffByte) (hpayload : eofPair ∉ payload)
    (fits : payload.length + 3 ≤ INPUT_BUF_SIZE) : MessageFrame :=
  { cutHeader with
    payload := payload
    payload_eof := hpayload
    fits := fits }

/-- `12` with the 2 marked: cell 1 blinks. -/
theorem blinking_cells_iff_digit :
    BlinksAsMarked (displayAfter [0x31, 0x32, 0x8d]).dmm
      (displayStatus (displayAfter [0x31, 0x32, 0x8d]) true 0 fun _ => 0).vars.disp
      [0x31, 0x32, 0x8d] := by
  have hboundary : (after [eofPair]).AtBoundary := ⟨rfl, rfl⟩
  have hcollected : (after [eofPair]).Collected [] := ⟨(after [eofPair]).msg, rfl, rfl⟩
  have h := blinking_cells_iff hboundary hcollected
    (plainMessage [⟨0x31, 0x00⟩, ⟨0x32, 0x00⟩, ⟨0x8d, 0x00⟩] (by decide) (by decide)) (by decide)
    (by decide : FitsDisplay [0x31, 0x32, 0x8d])
    (delivers_deliver (messagePairs [0x31, 0x32, 0x8d]))
    (s := displayAfter [0x31, 0x32, 0x8d]) rfl rfl 0 fun _ => 0
  refine h.mpr (.inl fun p hmarked _ => ?_)
  have hlt : p + 1 < 3 := hmarked.lt
  obtain rfl | rfl : p = 0 ∨ p = 1 := by omega
  · exact ⟨by decide, fun hpos => absurd hpos (by decide)⟩
  · exact ⟨by decide, fun _ hmark => absurd hmark (by decide)⟩

/-- `1.2` with the 2 marked: it is in cell 1, and cell 2 blinks. -/
theorem blinking_cells_point :
    Marked [0x31, 0x84, 0x32, 0x8d] 2 ∧
      ((displayStatus (displayAfter [0x31, 0x84, 0x32, 0x8d]) true 0
        fun _ => 0).vars.disp.rd 2).blink = true ∧
      ¬ BlinksAsMarked (displayAfter [0x31, 0x84, 0x32, 0x8d]).dmm
        (displayStatus (displayAfter [0x31, 0x84, 0x32, 0x8d]) true 0 fun _ => 0).vars.disp
        [0x31, 0x84, 0x32, 0x8d] := by
  have hmarked : Marked [0x31, 0x84, 0x32, 0x8d] 2 := ⟨[0x31, 0x84, 0x32], [], rfl, rfl⟩
  refine ⟨hmarked, by decide +kernel, fun h => ?_⟩
  have hcell : ((layout (displayAfter [0x31, 0x84, 0x32, 0x8d]).dmm.mainAt
      (displayAfter [0x31, 0x84, 0x32, 0x8d]).dmm.blinkMask)[1]?).map LaidCell.pos = some 2 := by
    decide +kernel
  obtain ⟨l, hl, hpos⟩ := Option.map_eq_some_iff.mp hcell
  have hblink := (h 1 (by decide)).mpr ⟨l, 2, hl, hmarked, .inl hpos.symm⟩
  exact absurd hblink (by decide +kernel)

end LcdPico
