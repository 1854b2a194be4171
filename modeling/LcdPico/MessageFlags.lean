import LcdPico.DecoderStep
import LcdPico.MessageGrammar

/-!
# The classified texts (`decoder_34401a.c`)

A message is classified at its EOF: a valid reading, a menu text, another text, or
a corrupt message. The flags outlive the message. The next message byte clears
them, before it writes to the work area; a reset clears them as well.

`DmmContext.Consistent` says which text the flags speak of: while one of
`menu_msg` and `valid_reading` is set, the work area is due for its reset, and
holds the text in `main`.
-/

namespace LcdPico

/-! ## Display texts -/

/-- Fourteen or fifteen printable characters, and NUL up to the end. -/
structure IsDisplayText (b : DisplayBuf) : Prop where
  printable : ∀ i < 14, isprint (b.rd i) = true
  last : b.rd 14 = 0 ∨ isprint (b.rd 14) = true
  nul : b.rd 15 = 0

instance (b : DisplayBuf) : Decidable (IsDisplayText b) :=
  decidable_of_iff ((∀ i < 14, isprint (b.rd i) = true) ∧
      (b.rd 14 = 0 ∨ isprint (b.rd 14) = true) ∧ b.rd 15 = 0)
    ⟨fun h => ⟨h.1, h.2.1, h.2.2⟩, fun h => ⟨h.printable, h.last, h.nul⟩⟩

/-- A printable character anywhere before the last position keeps it so. -/
theorem IsDisplayText.wr {b : DisplayBuf} (h : IsDisplayText b) {i : Nat} (hi : i < 15) {c : UInt8}
    (hc : isprint c = true) : IsDisplayText (b.wr i c) := by
  have hin : i < DISPLAY_BUF_LEN := Nat.lt_trans hi (by decide)
  refine ⟨?_, ?_, ?_⟩
  · intro j hj
    by_cases hij : i = j
    · subst hij
      rwa [CArray.rd_wr_self b hin]
    · rw [CArray.rd_wr_ne b hij]
      exact h.printable j hj
  · by_cases hij : i = 14
    · subst hij
      rw [CArray.rd_wr_self b hin]
      exact .inr hc
    · rw [CArray.rd_wr_ne b hij]
      exact h.last
  · rw [CArray.rd_wr_ne b (by omega)]
    exact h.nul

theorem isDisplayText_blankText : IsDisplayText blankText := by decide

namespace MessageAssembly

variable {m : MessageAssembly}

theorem dmmPutcSafe_text (h : IsDisplayText m.msgWork) (c : UInt8) :
    IsDisplayText (m.dmmPutcSafe c).msgWork := by
  rw [dmmPutcSafe]
  split
  · exact h
  · rename_i hidx
    have hidx' : m.msgIdx < 15 := Nat.lt_of_not_le hidx
    have hwr : IsDisplayText (m.msgWork.wr m.msgIdx (if isprint c then c else 0x20)) := by
      apply h.wr hidx'
      split
      · assumption
      · rfl
    dsimp only
    split
    · exact hwr
    split
    · exact hwr
    · exact hwr

theorem putByte_text (h : IsDisplayText m.msgWork) (byte : UInt8) :
    IsDisplayText (m.putByte byte).msgWork := by
  have hblink : IsDisplayText (if 0 < m.msgIdx then
      { m with blinkWork := m.blinkWork ||| UInt16.ofNat (1 <<< (m.msgIdx - 1)) }
      else m).msgWork := by
    split
    · exact h
    · exact h
  rw [putByte]
  split
  · exact dmmPutcSafe_text h _
  split
  · exact dmmPutcSafe_text h _
  split
  · exact dmmPutcSafe_text hblink _
  split
  · exact dmmPutcSafe_text h _
  split
  · exact h
  split
  · exact h
  · exact dmmPutcSafe_text h _

theorem messageByte_text (h : IsDisplayText m.msgWork) (byte : UInt8) :
    IsDisplayText (m.messageByte byte).msgWork := by
  rw [messageByte]
  apply putByte_text
  rw [resetWork]
  split
  · exact isDisplayText_blankText
  · exact h

end MessageAssembly

/-- The work area and the display hold display texts. -/
structure DmmContext.HoldsTexts (c : DmmContext) : Prop where
  work : IsDisplayText c.msg.msgWork
  main : IsDisplayText c.main

theorem DmmContext.HoldsTexts.step {c : DmmContext} (h : c.HoldsTexts) (e : Event) :
    (c.step e).HoldsTexts := by
  cases e with
  | pair p t =>
    refine ⟨?_, ?_⟩
    · rw [DmmContext.step, processPair_msg]
      split
      · split
        · rw [classify_msgWork]
          exact h.work
        · exact MessageAssembly.messageByte_text h.work _
      · exact h.work
    · rw [DmmContext.step, processPair_main]
      split
      · exact h.work
      · exact h.main
  | tick now_us =>
    rw [DmmContext.step]
    refine ⟨?_, ?_⟩
    · rw [processShiftWindow_msg]
      exact h.work
    · rw [processShiftWindow_main]
      exact h.main
  | reset =>
    have hreset : IsDisplayText (displayText (bytes "SYSTEM RESET  ")) := by decide
    exact ⟨h.work, hreset⟩
  | interrupt sniff dbg => exact ⟨h.work, h.main⟩

/-- What the decoder publishes is a display text. -/
theorem DmmContext.Reachable.holdsTexts {c : DmmContext} (h : c.Reachable) : c.HoldsTexts := by
  refine Machine.Reachable.invariant (P := DmmContext.HoldsTexts) ?_ (fun _ e hc => hc.step e) h
  rintro _ rfl
  exact ⟨isDisplayText_blankText, isDisplayText_blankText⟩

/-! ## Which text the flags speak of -/

namespace MessageAssembly

/-- The flags that no message byte sets. -/
structure SameFlags (m m' : MessageAssembly) : Prop where
  due : m'.workNeedReset = m.workNeedReset
  menu : m'.menuMsg = m.menuMsg
  valid : m'.validReading = m.validReading

theorem dmmPutcSafe_sameFlags (m : MessageAssembly) (c : UInt8) :
    m.SameFlags (m.dmmPutcSafe c) := by
  rw [dmmPutcSafe]
  split
  · exact ⟨rfl, rfl, rfl⟩
  · dsimp only
    split
    · exact ⟨rfl, rfl, rfl⟩
    split
    · exact ⟨rfl, rfl, rfl⟩
    · exact ⟨rfl, rfl, rfl⟩

theorem putByte_sameFlags (m : MessageAssembly) (byte : UInt8) : m.SameFlags (m.putByte byte) := by
  rw [putByte]
  split
  · exact dmmPutcSafe_sameFlags m _
  split
  · exact dmmPutcSafe_sameFlags m _
  split
  · dsimp only
    split
    · have h := dmmPutcSafe_sameFlags
        { m with blinkWork := m.blinkWork ||| UInt16.ofNat (1 <<< (m.msgIdx - 1)) } 0x3a
      exact ⟨h.due, h.menu, h.valid⟩
    · exact dmmPutcSafe_sameFlags m _
  split
  · exact dmmPutcSafe_sameFlags m _
  split
  · exact ⟨rfl, rfl, rfl⟩
  split
  · exact ⟨rfl, rfl, rfl⟩
  · exact dmmPutcSafe_sameFlags m _

/-- After a message byte the work area is not due, and neither flag is set. -/
theorem messageByte_flags {m : MessageAssembly}
    (h : m.workNeedReset = false → m.menuMsg = false ∧ m.validReading = false) (byte : UInt8) :
    (m.messageByte byte).workNeedReset = false ∧ (m.messageByte byte).menuMsg = false ∧
      (m.messageByte byte).validReading = false := by
  have hput := putByte_sameFlags m.resetWork byte
  rw [messageByte, hput.due, hput.menu, hput.valid, resetWork]
  split
  · exact ⟨rfl, rfl, rfl⟩
  · rename_i hdue
    have hdue' : m.workNeedReset = false := Bool.not_eq_true _ ▸ hdue
    exact ⟨hdue', h hdue'⟩

/-- What EOF makes of a message. -/
inductive Classified (m : MessageAssembly) : MessageAssembly → Prop
  /-- corrupt already -/
  | corrupt : m.corruptMsg = true → Classified m m
  | reading : m.corruptMsg = false → regexValidReading m.msgWork.toList = true →
      Classified m { m with validReading := true }
  | menu : m.corruptMsg = false → regexValidReading m.msgWork.toList = false →
      regexInMenu m.msgWork.toList = true → Classified m { m with menuMsg := true }
  /-- some other text -/
  | text : m.corruptMsg = false → regexValidReading m.msgWork.toList = false →
      regexInMenu m.msgWork.toList = false → regexTextDisplay m.msgWork.toList = true →
      Classified m m
  | invalid : m.corruptMsg = false → regexValidReading m.msgWork.toList = false →
      regexInMenu m.msgWork.toList = false → regexTextDisplay m.msgWork.toList = false →
      Classified m { m with corruptMsg := true }

theorem classified (m : MessageAssembly) : m.Classified m.classify := by
  rw [classify]
  split
  · exact .corrupt ‹_›
  rename_i hcorrupt
  have hcorrupt' := Bool.not_eq_true _ ▸ hcorrupt
  split
  · exact .reading hcorrupt' ‹_›
  rename_i hvalid
  have hvalid' := Bool.not_eq_true _ ▸ hvalid
  split
  · exact .menu hcorrupt' hvalid' ‹_›
  rename_i hmenu
  have hmenu' := Bool.not_eq_true _ ▸ hmenu
  split
  · exact .text hcorrupt' hvalid' hmenu' ‹_›
  · rename_i htext
    exact .invalid hcorrupt' hvalid' hmenu' (Bool.not_eq_true _ ▸ htext)

end MessageAssembly

/-- A flag that is set speaks of the text in `main`, which is still in the work
area. -/
structure DmmContext.Consistent (c : DmmContext) : Prop where
  /-- the work area in use: no flag but `corrupt_msg` -/
  inUse : c.msg.workNeedReset = false → c.msg.menuMsg = false ∧ c.msg.validReading = false
  corrupt : c.msg.corruptMsg = true → c.msg.menuMsg = false ∧ c.msg.validReading = false
  valid : c.msg.validReading = true →
    c.main = c.msg.msgWork ∧ c.lastReading = c.msg.msgWork ∧
      regexValidReading c.msg.msgWork.toList = true
  menu : c.msg.menuMsg = true →
    c.main = c.msg.msgWork ∧ regexInMenu c.msg.msgWork.toList = true ∧
      regexValidReading c.msg.msgWork.toList = false

namespace DmmContext.Consistent

variable {c : DmmContext}

/-- The end of a message: a flag set before speaks of the same text. -/
theorem endsMessage (h : c.Consistent) {p : SniffByte} (hp : c.EndsMessage p) (t : Clock) :
    (processPair c p t).1.Consistent := by
  have hmsg := processPair_msg c p t
  have hmain := processPair_main c p t
  have hlast := processPair_lastReading c p t
  rw [if_pos hp.1, if_pos hp.2] at hmsg
  rw [if_pos hp] at hmain
  rw [if_pos hp] at hlast
  have hclass := c.msg.classified
  generalize c.msg.classify = m at hmsg hlast hclass
  obtain ⟨-, hcorrupt, hvalid, hmenu⟩ := h
  cases hclass with
  | corrupt hc =>
    obtain ⟨hnomenu, hnovalid⟩ := hcorrupt hc
    refine ⟨?_, ?_, ?_, ?_⟩ <;> rw [hmsg] <;> simp [hnomenu, hnovalid]
  | reading hc hv =>
    -- a flag left from the message before would speak of this text
    have hnomenu : c.msg.menuMsg = false := by
      rw [← Bool.not_eq_true]
      intro hm
      rw [(hmenu hm).2.2] at hv
      exact absurd hv (by decide)
    refine ⟨?_, ?_, ?_, ?_⟩ <;> rw [hmsg]
    · simp
    · simp [hc]
    · intro _
      rw [hmain, hlast, if_pos rfl]
      exact ⟨rfl, rfl, hv⟩
    · simp [hnomenu]
  | menu hc hv hm =>
    have hnovalid : c.msg.validReading = false := by
      rw [← Bool.not_eq_true]
      intro h
      rw [(hvalid h).2.2] at hv
      exact absurd hv (by decide)
    refine ⟨?_, ?_, ?_, ?_⟩ <;> rw [hmsg]
    · simp
    · simp [hc]
    · simp [hnovalid]
    · intro _
      rw [hmain]
      exact ⟨rfl, hm, hv⟩
  | text hc hv hm =>
    refine ⟨?_, ?_, ?_, ?_⟩ <;> rw [hmsg]
    · simp
    · simp [hc]
    · intro h
      exact absurd (hvalid h).2.2 (by rw [hv]; decide)
    · intro h
      exact absurd (hmenu h).2.1 (by rw [hm]; decide)
  | invalid hc hv hm =>
    -- no flag is left: the scanners accepted its text, and this is the same
    have hnovalid : c.msg.validReading = false := by
      rw [← Bool.not_eq_true]
      intro h
      rw [(hvalid h).2.2] at hv
      exact absurd hv (by decide)
    have hnomenu : c.msg.menuMsg = false := by
      rw [← Bool.not_eq_true]
      intro h
      rw [(hmenu h).2.1] at hm
      exact absurd hm (by decide)
    refine ⟨?_, ?_, ?_, ?_⟩ <;> rw [hmsg] <;> simp [hnovalid, hnomenu]

theorem pair (h : c.Consistent) (p : SniffByte) (t : Clock) :
    (processPair c p t).1.Consistent := by
  by_cases hp : c.EndsMessage p
  · exact h.endsMessage hp t
  have hmsg := processPair_msg c p t
  have hmain := processPair_main c p t
  have hlast := processPair_lastReading c p t
  rw [if_neg hp] at hmain
  rw [if_neg hp] at hlast
  by_cases hstate : c.buf.frameState = .message
  · rw [if_pos hstate, if_neg fun heof => hp ⟨hstate, heof⟩] at hmsg
    have hflags := MessageAssembly.messageByte_flags h.inUse
      ((c.buf.store p).inputBuf.rd ((c.buf.store p).bufLen - 1))
    rw [← hmsg] at hflags
    obtain ⟨-, hnomenu, hnovalid⟩ := hflags
    exact ⟨fun _ => ⟨hnomenu, hnovalid⟩, fun _ => ⟨hnomenu, hnovalid⟩,
      fun hv => absurd hv (by rw [hnovalid]; decide),
      fun hm => absurd hm (by rw [hnomenu]; decide)⟩
  · rw [if_neg hstate] at hmsg
    refine ⟨?_, ?_, ?_, ?_⟩
    · rw [hmsg]
      exact h.inUse
    · rw [hmsg]
      exact h.corrupt
    · rw [hmsg, hmain, hlast]
      exact h.valid
    · rw [hmsg, hmain]
      exact h.menu

theorem step (h : c.Consistent) (e : Event) : (c.step e).Consistent := by
  cases e with
  | pair p t => exact h.pair p t
  | tick now_us =>
    rw [DmmContext.step]
    refine ⟨?_, ?_, ?_, ?_⟩
    · rw [processShiftWindow_msg]
      exact h.inUse
    · rw [processShiftWindow_msg]
      exact h.corrupt
    · rw [processShiftWindow_msg, processShiftWindow_main, processShiftWindow_lastReading]
      exact h.valid
    · rw [processShiftWindow_msg, processShiftWindow_main]
      exact h.menu
  | reset =>
    exact ⟨fun _ => ⟨rfl, rfl⟩, fun _ => ⟨rfl, rfl⟩, fun hv => Bool.noConfusion hv,
      fun hm => Bool.noConfusion hm⟩
  | interrupt sniff dbg => exact ⟨h.inUse, h.corrupt, h.valid, h.menu⟩

end DmmContext.Consistent

theorem DmmContext.Reachable.consistent {c : DmmContext} (h : c.Reachable) : c.Consistent := by
  refine Machine.Reachable.invariant (P := DmmContext.Consistent) ?_ (fun _ e hc => hc.step e) h
  rintro _ rfl
  exact ⟨fun _ => ⟨rfl, rfl⟩, fun _ => ⟨rfl, rfl⟩, fun hv => Bool.noConfusion hv,
    fun hm => Bool.noConfusion hm⟩

/-- **The flags are consistent** in every reachable context: at most one is set, and
the one that is speaks of the text on display. -/
theorem message_flags_consistent {c : DmmContext} (h : c.Reachable) :
    ¬ (c.msg.corruptMsg = true ∧ c.msg.menuMsg = true) ∧
      ¬ (c.msg.corruptMsg = true ∧ c.msg.validReading = true) ∧
      ¬ (c.msg.menuMsg = true ∧ c.msg.validReading = true) ∧
      (c.msg.validReading = true →
        c.main = c.lastReading ∧ regexValidReading c.main.toList = true) ∧
      (c.msg.menuMsg = true →
        regexInMenu c.main.toList = true ∧ regexValidReading c.main.toList = false) := by
  obtain ⟨-, hcorrupt, hvalid, hmenu⟩ := h.consistent
  refine ⟨?_, ?_, ?_, ?_, ?_⟩
  · rintro ⟨hc, hm⟩
    rw [(hcorrupt hc).1] at hm
    exact absurd hm (by decide)
  · rintro ⟨hc, hv⟩
    rw [(hcorrupt hc).2] at hv
    exact absurd hv (by decide)
  · rintro ⟨hm, hv⟩
    have hno := (hmenu hm).2.2
    rw [(hvalid hv).2.2] at hno
    exact absurd hno (by decide)
  · intro hv
    obtain ⟨hmain, hlast, hregex⟩ := hvalid hv
    rw [hmain, hlast]
    exact ⟨rfl, hregex⟩
  · intro hm
    obtain ⟨hmain, hin, hno⟩ := hmenu hm
    rw [hmain]
    exact ⟨hin, hno⟩

/-- After a reading that is the last one, and after a menu text. -/
theorem message_flags_consistent_messages :
    ((afterMessage "12.5 MVDC").msg.validReading = true ∧
      (afterMessage "12.5 MVDC").main = (afterMessage "12.5 MVDC").lastReading) ∧
    ((afterMessage "MENUS").msg.menuMsg = true ∧
      regexInMenu (afterMessage "MENUS").main.toList = true) := by
  have hreading : (afterMessage "12.5 MVDC").msg.validReading = true := by decide +kernel
  have hmenu : (afterMessage "MENUS").msg.menuMsg = true := by decide +kernel
  obtain ⟨-, -, -, hvalid, -⟩ := message_flags_consistent (afterMessage_reachable "12.5 MVDC")
  obtain ⟨-, -, -, -, hin⟩ := message_flags_consistent (afterMessage_reachable "MENUS")
  exact ⟨⟨hreading, (hvalid hreading).1⟩, ⟨hmenu, (hin hmenu).1⟩⟩

/-! ## The C string in a buffer -/

/-- The text in a buffer, from its first character to its NUL. -/
def cText (b : DisplayBuf) : List UInt8 := b.toList.takeWhile (· ≠ 0)

theorem regexValidReading_cText (b : DisplayBuf) :
    regexValidReading b.toList = validReading.begins (cText b) := by
  rw [regexValidReading_eq, cText, begins_takeWhile_ne_nul (by decide +kernel)]

/-- A display text ends after 14 or 15 characters. -/
theorem IsDisplayText.ends {b : DisplayBuf} (h : IsDisplayText b) :
    ∃ n ≤ 15, (∀ i < n, isprint (b.rd i) = true) ∧ ∀ i, n ≤ i → i ≤ 15 → b.rd i = 0 := by
  have hbehind {n : Nat} (hn : 14 ≤ n) (h14 : n = 14 → b.rd 14 = 0) (i : Nat) (hi : n ≤ i)
      (hle : i ≤ 15) : b.rd i = 0 := by
    rcases Nat.lt_or_ge i 15 with hlt | hge
    · obtain rfl : i = 14 := by omega
      exact h14 (by omega)
    · obtain rfl : i = 15 := by omega
      exact h.nul
  rcases h.last with h14 | h14
  · exact ⟨14, by decide, h.printable, hbehind (Nat.le_refl _) fun _ => h14⟩
  · refine ⟨15, by decide, fun i hi => ?_, hbehind (by decide) fun h => absurd h (by decide)⟩
    rcases Nat.lt_or_ge i 14 with hlt | hge
    · exact h.printable i hlt
    · obtain rfl : i = 14 := by omega
      exact h14

theorem isprint_ne_zero {c : UInt8} (h : isprint c = true) : c ≠ 0 := by
  rintro rfl
  exact absurd h (by decide)

/-- The text of a buffer whose first NUL is at `n`. -/
theorem cText_eq_take {b : DisplayBuf} {n : Nat} (hn : n ≤ 15) (hchars : ∀ i < n, b.rd i ≠ 0)
    (hnul : b.rd n = 0) : cText b = b.toList.take n := by
  have hlen : b.toList.length = 16 := Vector.length_toList
  have hget (i : Nat) (hi : i < b.toList.length) : b.toList[i] = b.rd i := by
    have hi' : i < DISPLAY_BUF_LEN := by rwa [hlen] at hi
    simp [CArray.rd, hi']
  have hsplit : b.toList = b.toList.take n ++ b.toList[n] :: b.toList.drop (n + 1) := by
    rw [List.getElem_cons_drop, List.take_append_drop]
  have hpre (c : UInt8) (hc : c ∈ b.toList.take n) : decide (c ≠ 0) = true := by
    obtain ⟨i, hi, rfl⟩ := List.getElem_of_mem hc
    rw [List.length_take] at hi
    rw [List.getElem_take, hget, decide_eq_true_iff]
    exact hchars i (by omega)
  calc cText b = (b.toList.take n ++ b.toList[n] :: b.toList.drop (n + 1)).takeWhile (· ≠ 0) := by
        rw [← hsplit, cText]
    _ = b.toList.take n ++ (b.toList[n] :: b.toList.drop (n + 1)).takeWhile (· ≠ 0) :=
        List.takeWhile_append_of_pos hpre
    _ = b.toList.take n := by
        rw [hget, hnul, List.takeWhile_cons_of_neg (by decide), List.append_nil]

/-- The C string in a display text, and where it ends. -/
theorem IsDisplayText.cText_eq {b : DisplayBuf} (h : IsDisplayText b) :
    ∃ n ≤ 15, cText b = b.toList.take n ∧ (cText b).length = n ∧ (∀ i < n, b.rd i ≠ 0) ∧
      ∀ i, n ≤ i → i ≤ 15 → b.rd i = 0 := by
  obtain ⟨n, hn, hchars, hnuls⟩ := h.ends
  have hne (i : Nat) (hi : i < n) : b.rd i ≠ 0 := isprint_ne_zero (hchars i hi)
  have htext : cText b = b.toList.take n := cText_eq_take hn hne (hnuls n (Nat.le_refl n) hn)
  refine ⟨n, hn, htext, ?_, hne, hnuls⟩
  rw [htext, List.length_take, Vector.length_toList]
  exact Nat.min_eq_left (Nat.le_succ_of_le hn)

/-- The text from index `d` on. -/
theorem drop_cText {b : DisplayBuf} (hb : IsDisplayText b) {d : Nat} (hd : d ≤ 15) :
    (cText b).drop d = if b.rd d = 0 then [] else b.rd d :: (cText b).drop (d + 1) := by
  obtain ⟨n, hn, htext, hlen, hchars, hnuls⟩ := hb.cText_eq
  rcases Nat.lt_or_ge d n with hlt | hge
  · have hlt' : d < (cText b).length := by rwa [hlen]
    have hget : (cText b)[d] = b.rd d := by
      have hin : d < DISPLAY_BUF_LEN := Nat.lt_succ_of_le hd
      simp [htext, CArray.rd, hin]
    rw [if_neg (hchars d hlt), List.drop_eq_getElem_cons hlt', hget]
  · rw [if_pos (hnuls d hge hd), List.drop_eq_nil_of_le (by rwa [hlen])]

/-! ## What the last reading is -/

/-- Empty, or a reading as a whole. -/
def IsReading (b : DisplayBuf) : Prop := cText b = [] ∨ cText b ∈ validReading.lang

instance (b : DisplayBuf) : Decidable (IsReading b) := inferInstanceAs (Decidable (_ ∨ _))

/-- Only spaces follow a reading that the text begins with. -/
def BlankAfterReading (s : List UInt8) : Prop :=
  ∀ i ≤ s.length, s.take i ∈ validReading.lang → IsBlank (s.drop i)

instance (s : List UInt8) : Decidable (BlankAfterReading s) :=
  inferInstanceAs (Decidable (∀ i ≤ s.length, _))

/-- A text that begins with a reading is one, exactly if only spaces follow. -/
theorem isReading_iff_blankAfter {b : DisplayBuf} (h : regexValidReading b.toList = true) :
    IsReading b ↔ BlankAfterReading (cText b) := by
  rw [regexValidReading_cText, Regex.begins_iff] at h
  obtain ⟨p, ⟨rest, hrest⟩, hp⟩ := h
  constructor
  · rintro (hnil | hmem) i - hi
    · rw [hnil, List.drop_nil]
      exact fun c hc => absurd hc List.not_mem_nil
    · rw [← List.take_append_drop i (cText b)] at hmem
      exact isBlank_of_append_mem hi hmem
  · intro hblank
    have hlen : p.length ≤ (cText b).length := by
      rw [← hrest, List.length_append]
      exact Nat.le_add_right _ _
    have hrestBlank := hblank p.length hlen
    rw [← hrest, List.take_left, List.drop_left] at hrestBlank
    right
    rw [← hrest]
    exact takesBlanks_validReading p hp rest (hrestBlank hp)

/-- The step does not publish a reading with more than spaces after its unit. -/
def NothingAfterUnit (c : DmmContext) : Event → Prop
  | .pair p _ =>
    c.EndsMessage p → c.msg.corruptMsg = false → BlankAfterReading (cText c.msg.msgWork)
  | _ => True

instance : ∀ (c : DmmContext) (e : Event), Decidable (NothingAfterUnit c e)
  | _, .pair _ _ => inferInstanceAs (Decidable (_ → _ → _))
  | _, .tick _ => inferInstanceAs (Decidable True)
  | _, .reset => inferInstanceAs (Decidable True)
  | _, .interrupt _ _ => inferInstanceAs (Decidable True)

/-- The text of a message that EOF marks as a valid reading. -/
theorem DmmContext.Consistent.classify_validReading {c : DmmContext} (h : c.Consistent) :
    c.msg.classify.validReading = true ↔
      c.msg.corruptMsg = false ∧ regexValidReading c.msg.msgWork.toList = true := by
  have hclass := c.msg.classified
  generalize c.msg.classify = m at hclass
  have hold (hv : c.msg.validReading = true) : c.msg.corruptMsg = false := by
    rw [← Bool.not_eq_true]
    intro hc
    rw [(h.corrupt hc).2] at hv
    exact absurd hv (by decide)
  cases hclass with
  | corrupt hc =>
    rw [(h.corrupt hc).2, hc]
    simp
  | reading hc hv => simp [hc, hv]
  | menu hc hv hm =>
    exact iff_of_false (fun hold => by rw [(h.valid hold).2.2] at hv; exact absurd hv (by decide))
      (by rw [hv]; simp)
  | text hc hv hm =>
    exact iff_of_false (fun hold => by rw [(h.valid hold).2.2] at hv; exact absurd hv (by decide))
      (by rw [hv]; simp)
  | invalid hc hv hm =>
    exact iff_of_false (fun hold => by rw [(h.valid hold).2.2] at hv; exact absurd hv (by decide))
      (by rw [hv]; simp)

/-- One step keeps the last reading a reading, exactly if it meets the condition. -/
theorem step_isReading_iff {c : DmmContext} (h : c.Consistent) (hlast : IsReading c.lastReading)
    (e : Event) : IsReading (c.step e).lastReading ↔ NothingAfterUnit c e := by
  cases e with
  | pair p t =>
    rw [DmmContext.step, processPair_lastReading]
    by_cases hp : c.EndsMessage p
    · rw [if_pos hp]
      split
      · rename_i hv
        obtain ⟨hc, hregex⟩ := h.classify_validReading.mp hv
        rw [isReading_iff_blankAfter hregex]
        exact ⟨fun hblank _ _ => hblank, fun hcond => hcond hp hc⟩
      · rename_i hv
        refine iff_of_true hlast ?_
        intro _ hc i _ hi
        -- no reading at the beginning of the text
        exfalso
        refine hv (h.classify_validReading.mpr ⟨hc, ?_⟩)
        rw [regexValidReading_cText, Regex.begins_iff]
        exact ⟨_, List.take_prefix i _, hi⟩
    · rw [if_neg hp]
      exact iff_of_true hlast fun h => absurd h hp
  | tick now_us =>
    rw [DmmContext.step, processShiftWindow_lastReading]
    exact iff_of_true hlast trivial
  | reset => exact iff_of_true hlast trivial
  | interrupt sniff dbg => exact iff_of_true hlast trivial

/-- **The last reading is a reading**, or empty, all along the runs in which no
reading is published with more than spaces after its unit, and along no others. -/
theorem last_reading_iff (es : List Event) :
    Machine.Throughout DmmContext.step (fun c => IsReading c.lastReading) decoder34401Init es ↔
      Machine.Within DmmContext.step NothingAfterUnit decoder34401Init es := by
  refine Machine.throughout_iff_within
    (J := fun c : DmmContext => c.Consistent ∧ IsReading c.lastReading)
    (fun c h => h.2) (fun c e h hC => ⟨h.1.step e, (step_isReading_iff h.1 h.2 e).mpr hC⟩)
    (fun c e h hP => (step_isReading_iff h.1 h.2 e).mp hP) ?_ es
  exact ⟨DmmContext.Reachable.consistent (.init rfl), by decide +kernel⟩

/-- The last reading is empty, or begins with a reading. -/
theorem DmmContext.Reachable.lastReading_begins {c : DmmContext} (h : c.Reachable) :
    c.lastReading = displayText [] ∨ regexValidReading c.lastReading.toList = true := by
  have hinv : c.Consistent ∧
      (c.lastReading = displayText [] ∨ regexValidReading c.lastReading.toList = true) := by
    refine Machine.Reachable.invariant (P := fun c : DmmContext => c.Consistent ∧
      (c.lastReading = displayText [] ∨ regexValidReading c.lastReading.toList = true)) ?_ ?_ h
    · rintro _ rfl
      exact ⟨DmmContext.Reachable.consistent (.init rfl), .inl rfl⟩
    · rintro c e ⟨hc, hlast⟩
      refine ⟨hc.step e, ?_⟩
      cases e with
      | pair p t =>
        rw [DmmContext.step, processPair_lastReading]
        split
        · split
          · rename_i hv
            exact .inr (hc.classify_validReading.mp hv).2
          · exact hlast
        · exact hlast
      | tick now_us =>
        rw [DmmContext.step, processShiftWindow_lastReading]
        exact hlast
      | reset => exact hlast
      | interrupt sniff dbg => exact hlast
  exact hinv.2

/-- A reading with a letter after its unit is taken for a valid one. -/
theorem last_reading_with_letter :
    (afterMessage "1 VDCX").Reachable ∧
      cText (afterMessage "1 VDCX").lastReading = bytes "1 VDCX        " ∧
      ¬ ∀ c : DmmContext, c.Reachable → IsReading c.lastReading := by
  refine ⟨afterMessage_reachable _, by decide +kernel, ?_⟩
  intro h
  have hno : ¬ IsReading (afterMessage "1 VDCX").lastReading := by decide +kernel
  exact hno (h _ (afterMessage_reachable _))

/-! ## The classifier and its grammar -/

/-- Some prefix of the text is in the language. -/
def BeginsWith (r : ByteRegex) (s : List UInt8) : Prop := ∃ p, p <+: s ∧ p ∈ r.lang

/-- The first character is in the class. -/
def FirstIn (k : ByteClass) (s : List UInt8) : Prop :=
  ∃ c, s.head? = some c ∧ CharClass.has k c = true

/-- The rules of `regex_34401a.re` accept the text. -/
def GrammarAccepts (s : List UInt8) : Prop :=
  BeginsWith validReading s ∨ BeginsWith (inMenu menutext) s ∨ FirstIn parameter s

/-- The classifier answers for the text what its grammar says, and a message with
that text and no unprintable character does not become corrupt at its EOF when the
grammar accepts it. -/
structure ClassifierAgrees (s : List UInt8) : Prop where
  inMenu : regexInMenu s = true ↔ BeginsWith (inMenu menutext) s
  textDisplay : regexTextDisplay s = true ↔ FirstIn parameter s
  notCorrupt : ∀ (c : DmmContext) (p : SniffByte) (t : Clock), c.EndsMessage p →
    c.msg.corruptMsg = false → cText c.msg.msgWork = s → GrammarAccepts s →
    (processPair c p t).1.msg.corruptMsg = false

/-- The text opens a menu line with one of `b` to `z`, `-`, `0` to `@` and `[` to the
grave accent, or begins with one of `b` to `z`, `[` to `]` and the grave accent. -/
def Drifted (s : List UInt8) : Prop :=
  opensMenu menuHead menutextDrift s = true ∨ FirstIn parameterDrift s

theorem firstIn_iff (k : ByteClass) (s : List UInt8) :
    FirstIn k s ↔ (s.head?.map fun c => CharClass.has k c).getD false = true := by
  rw [FirstIn]
  cases s with
  | nil => simp
  | cons c s => simp

theorem regexInMenu_cText (b : DisplayBuf) : regexInMenu b.toList = regexInMenu (cText b) := by
  rw [regexInMenu_eq, regexInMenu_eq, cText, begins_takeWhile_ne_nul (by decide +kernel)]

theorem regexTextDisplay_cText (b : DisplayBuf) :
    regexTextDisplay b.toList = regexTextDisplay (cText b) := by
  rw [regexTextDisplay_eq, regexTextDisplay_eq, cText,
    begins_takeWhile_ne_nul (by decide +kernel)]

/-- A message that some scanner accepts is not marked corrupt at its EOF. -/
theorem corruptMsg_of_accepted {c : DmmContext} {p : SniffByte} (hp : c.EndsMessage p)
    (hc : c.msg.corruptMsg = false)
    (h : regexValidReading c.msg.msgWork.toList = true ∨ regexInMenu c.msg.msgWork.toList = true ∨
      regexTextDisplay c.msg.msgWork.toList = true) (t : Clock) :
    (processPair c p t).1.msg.corruptMsg = false := by
  have hclass := c.msg.classified
  rw [processPair_msg, if_pos hp.1, if_pos hp.2]
  generalize c.msg.classify = m at hclass
  cases hclass with
  | corrupt h => exact hc
  | reading _ _ => exact hc
  | menu _ _ _ => exact hc
  | text _ _ _ _ => exact hc
  | invalid _ hv hm ht =>
    rw [hv, hm, ht] at h
    simp at h

/-- **The classifier is the one its grammar states**, exactly on the texts that have
not drifted. -/
theorem classifier_agrees_iff (s : List UInt8) : ClassifierAgrees s ↔ ¬ Drifted s := by
  have hmenu : (regexInMenu s = true ↔ BeginsWith (inMenu menutext) s) ↔
      opensMenu menuHead menutextDrift s = false := by
    rw [← regexInMenu_agrees_iff, BeginsWith, ← Regex.begins_iff]
    exact Bool.eq_iff_iff.symm
  have htext : (regexTextDisplay s = true ↔ FirstIn parameter s) ↔ ¬ FirstIn parameterDrift s := by
    rw [firstIn_iff parameterDrift, Bool.not_eq_true, ← regexTextDisplay_agrees_iff,
      begins_textDisplay, firstIn_iff]
    exact Bool.eq_iff_iff.symm
  rw [Drifted, not_or, Bool.not_eq_true, ← hmenu, ← htext]
  constructor
  · rintro ⟨hin, htext, -⟩
    exact ⟨hin, htext⟩
  · rintro ⟨hin, htext⟩
    refine ⟨hin, htext, ?_⟩
    rintro c p t hp hc rfl haccepts
    apply corruptMsg_of_accepted hp hc
    rw [regexInMenu_cText, regexTextDisplay_cText, regexValidReading_cText, Regex.begins_iff,
      hin, htext]
    exact haccepts

/-- A menu line in lower case, and a text that begins in lower case: the grammar
accepts both, and the second one is marked corrupt. -/
theorem classifier_drifted :
    (BeginsWith (inMenu menutext) (bytes "A: on") ∧ regexInMenu (bytes "A: on") = false) ∧
      (GrammarAccepts (cText (afterMessage "busy").main) ∧
        (afterMessage "busy").msg.corruptMsg = true) ∧
      ¬ ∀ s : List UInt8, 0 ∉ s → ClassifierAgrees s := by
  have hbegins : BeginsWith (inMenu menutext) (bytes "A: on") :=
    (Regex.begins_iff _ _).mp (by decide +kernel)
  have hno : regexInMenu (bytes "A: on") = false := by decide +kernel
  refine ⟨⟨hbegins, hno⟩, ⟨?_, by decide +kernel⟩, ?_⟩
  · exact .inr (.inr ⟨0x62, by decide +kernel, by decide⟩)
  · intro h
    have hagrees := (h (bytes "A: on") (by decide)).inMenu.mpr hbegins
    rw [hno] at hagrees
    exact absurd hagrees (by decide)

end LcdPico
