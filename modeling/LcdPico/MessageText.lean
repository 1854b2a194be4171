import LcdPico.BlinkingCells
import LcdPico.MessageFlags

/-!
# The text of a message (`messageByte`, `FRAME_MESSAGE`)

What a message frame displays, as a function of its payload: the characters that the bytes
store (`stored`), cut off after fifteen of them, the marks, and the outcome of the three
scanners. `Rendered` follows the work area through the payload, byte by byte and past the
cut; `message_text_decoded` reads the published fields off it at the EOF pair.
-/

namespace LcdPico

/-! ## The rendering of a payload -/

/-- How many characters a message has room for. -/
def TEXT_LEN : Nat := DISPLAY_BUF_LEN - 1

/-- The text of a payload, cut off where the display buffer ends. -/
def renderedText (payload : List UInt8) : List UInt8 := (stored payload).take TEXT_LEN

/-- A text, with spaces up to fourteen characters and NULs behind them. -/
def padded (text : List UInt8) : DisplayBuf :=
  displayText (text ++ List.replicate (DISPLAY_BUF_LEN - 2 - text.length) 0x20)

/-- Some byte of the payload has the property, which may depend on the bytes before it. -/
def AtSomeByte (Q : List UInt8 → UInt8 → Prop) (payload : List UInt8) : Prop :=
  ∃ u b v, payload = u ++ b :: v ∧ Q u b

/-- A byte that is not printable stores one of the characters of the text. -/
def HasUnprintable (payload : List UInt8) : Prop :=
  AtSomeByte (fun u b => (stored u).length < TEXT_LEN ∧ unprintable b = true) payload

/-- Some 0x8d follows `p + 1` characters of the text. -/
def BlinksAt (payload : List UInt8) (p : Nat) : Prop :=
  AtSomeByte (fun u b => (renderedText u).length = p + 1 ∧ b = 0x8d) payload

theorem atSomeByte_nil (Q : List UInt8 → UInt8 → Prop) : ¬AtSomeByte Q [] := by
  rintro ⟨u, b, v, heq, -⟩
  exact absurd heq.symm (List.append_ne_nil_of_right_ne_nil _ (List.cons_ne_nil _ _))

/-- One more byte has the property itself, or one before it has. -/
theorem atSomeByte_snoc (Q : List UInt8 → UInt8 → Prop) (payload : List UInt8) (b : UInt8) :
    AtSomeByte Q (payload ++ [b]) ↔ AtSomeByte Q payload ∨ Q payload b := by
  constructor
  · rintro ⟨u, x, v, heq, hQ⟩
    rcases List.eq_nil_or_concat v with rfl | ⟨v, y, rfl⟩
    · obtain ⟨rfl, hb⟩ := List.append_inj' heq rfl
      obtain ⟨rfl, -⟩ := List.cons.inj hb
      exact .inr hQ
    · have heq' : payload ++ [b] = (u ++ x :: v) ++ [y] := by simpa using heq
      obtain ⟨hpayload, -⟩ := List.append_inj' heq' rfl
      exact .inl ⟨u, x, v, hpayload, hQ⟩
  · rintro (⟨u, x, v, rfl, hQ⟩ | hQ)
    · exact ⟨u, x, v ++ [b], by simp, hQ⟩
    · exact ⟨payload, b, [], rfl, hQ⟩

/-! ## The work area -/

theorem rd_displayText (s : List UInt8) {i : Nat} (hi : i < DISPLAY_BUF_LEN) :
    (displayText s).rd i = s.getD i 0 := by
  simp [displayText, CArray.rd, hi]

theorem rd_padded (text : List UInt8) {i : Nat} (hi : i < DISPLAY_BUF_LEN) :
    (padded text).rd i =
      if i < text.length then text.getD i 0
      else if i < DISPLAY_BUF_LEN - 2 then 0x20 else 0 := by
  rw [padded, rd_displayText _ hi]
  split_ifs with htext hfield
  · exact List.getD_append _ _ _ _ htext
  · rw [List.getD_append_right _ _ _ _ (Nat.le_of_not_lt htext), List.getD_replicate]
    omega
  · rw [List.getD_eq_default]
    rw [List.length_append, List.length_replicate]
    omega

/-- A character at the end of the text. -/
theorem padded_wr (text : List UInt8) (c : UInt8) :
    (padded text).wr text.length c = padded (text ++ [c]) := by
  apply CArray.ext_rd
  intro i hi
  rw [rd_padded _ hi, List.length_append, List.length_singleton]
  by_cases hend : text.length = i
  · rw [← hend, CArray.rd_wr_self _ (hend ▸ hi), if_pos (Nat.lt_succ_self _),
      List.getD_append_right _ _ _ _ (Nat.le_refl _), Nat.sub_self]
    rfl
  · rw [CArray.rd_wr_ne _ hend, rd_padded _ hi]
    by_cases hbefore : i < text.length
    · rw [if_pos hbefore, if_pos (Nat.lt_succ_of_lt hbefore), List.getD_append _ _ _ _ hbefore]
    · rw [if_neg hbefore, if_neg (show ¬i < text.length + 1 by omega)]

/-- The text with the character of one more byte, if it stores one and there is room. -/
theorem renderedText_snoc (payload : List UInt8) (b : UInt8) :
    renderedText (payload ++ [b]) =
      if (renderedText payload).length < TEXT_LEN then renderedText payload ++ (storedChar b).toList
      else renderedText payload := by
  have hshort : (storedChar b).toList.length ≤ 1 := by
    cases storedChar b with
    | none => exact Nat.zero_le _
    | some c => exact Nat.le_refl _
  rw [renderedText, renderedText, stored_snoc, List.length_take]
  split_ifs with hroom
  · rw [List.take_append, List.take_of_length_le (by omega : (storedChar b).toList.length ≤ _)]
  · rw [List.take_append, show TEXT_LEN - (stored payload).length = 0 by omega, List.take_zero,
      List.append_nil]

/-- The work area holds the rendering of the payload. -/
structure Rendered (m : MessageAssembly) (payload : List UInt8) : Prop where
  started : m.workNeedReset = false
  menu : m.menuMsg = false
  valid : m.validReading = false
  idx : m.msgIdx = (renderedText payload).length
  text : m.msgWork = padded (renderedText payload)
  corrupt : m.corruptMsg = true ↔ HasUnprintable payload
  blink : ∀ p, m.blinkWork.toNat.testBit p = true ↔ BlinksAt payload p

theorem rendered_resetWork {m : MessageAssembly} (h : m.workNeedReset = true) :
    Rendered m.resetWork [] := by
  rw [MessageAssembly.resetWork, if_pos h]
  refine ⟨rfl, rfl, rfl, rfl, rfl, ?_, fun p => ?_⟩
  · exact iff_of_false (by decide) (atSomeByte_nil _)
  · refine iff_of_false ?_ (atSomeByte_nil _)
    rw [show (0 : UInt16).toNat = 0 from rfl, Nat.zero_testBit]
    decide

/-- There is room for a character as long as the text is not cut off. -/
theorem renderedText_lt_iff (payload : List UInt8) :
    (renderedText payload).length < TEXT_LEN ↔ (stored payload).length < TEXT_LEN := by
  rw [renderedText, List.length_take]
  omega

theorem hasUnprintable_snoc (payload : List UInt8) (b : UInt8) :
    HasUnprintable (payload ++ [b]) ↔ HasUnprintable payload ∨
      (renderedText payload).length < TEXT_LEN ∧ unprintable b = true := by
  rw [HasUnprintable, atSomeByte_snoc, renderedText_lt_iff]
  rfl

theorem blinksAt_snoc (payload : List UInt8) (b : UInt8) (p : Nat) :
    BlinksAt (payload ++ [b]) p ↔ BlinksAt payload p ∨
      (renderedText payload).length = p + 1 ∧ b = 0x8d :=
  atSomeByte_snoc _ payload b

/-- A printable character is no control character. -/
theorem iscntrl_of_isprint {c : UInt8} (h : isprint c = true) : iscntrl c = false := by
  obtain ⟨hlow, hhigh⟩ : 0x20 ≤ c.toNat ∧ c.toNat ≤ 0x7e := by
    simpa [isprint, UInt8.le_iff_toNat_le] using h
  have hdel : c ≠ 0x7f := by
    rintro rfl
    exact absurd hhigh (by decide)
  simp [iscntrl, UInt8.lt_iff_toNat_lt, hdel]
  omega

/-- A character that is stored makes the message corrupt if it is not printable. -/
theorem dmmPutcSafe_corruptMsg {m : MessageAssembly} (h : m.msgIdx < TEXT_LEN) (c : UInt8) :
    (m.dmmPutcSafe c).corruptMsg = (m.corruptMsg || !isprint c) := by
  have hroom : ¬DISPLAY_BUF_LEN - 1 ≤ m.msgIdx := Nat.not_le_of_lt h
  rw [MessageAssembly.dmmPutcSafe, if_neg hroom]
  dsimp only
  cases hcorrupt : m.corruptMsg with
  | true => simp
  | false =>
    cases hprint : isprint c with
    | true => simp [iscntrl_of_isprint hprint]
    | false => simp

/-- A byte that stores a character, once the marks are up to date. -/
theorem Rendered.put {m : MessageAssembly} {payload : List UInt8} (h : Rendered m payload)
    {b c : UInt8} (hstored : storedChar b = some (if isprint c then c else 0x20))
    (hprint : unprintable b = !isprint c) {mask : UInt16}
    (hmask : ∀ p, mask.toNat.testBit p = true ↔ BlinksAt (payload ++ [b]) p) :
    Rendered ({ m with blinkWork := mask }.dmmPutcSafe c) (payload ++ [b]) := by
  have hflags := MessageAssembly.dmmPutcSafe_sameFlags { m with blinkWork := mask } c
  have hnext := renderedText_snoc payload b
  by_cases hroom : (renderedText payload).length < TEXT_LEN
  · rw [if_pos hroom, hstored, Option.toList_some] at hnext
    have hidx : m.msgIdx < TEXT_LEN := h.idx ▸ hroom
    obtain ⟨-, hidx', hwork, hblink⟩ := dmmPutcSafe_room (m := { m with blinkWork := mask }) hidx c
    refine ⟨hflags.due.trans h.started, hflags.menu.trans h.menu, hflags.valid.trans h.valid,
      ?_, ?_, ?_, fun p => ?_⟩
    · rw [hidx', hnext, List.length_append, List.length_singleton]
      exact congrArg (· + 1) h.idx
    · rw [hwork, hnext, ← padded_wr, ← h.text, ← h.idx]
    · rw [dmmPutcSafe_corruptMsg (m := { m with blinkWork := mask }) hidx, Bool.or_eq_true,
        h.corrupt, hasUnprintable_snoc, ← hprint]
      exact or_congr_right (and_iff_right hroom).symm
    · rw [hblink]
      exact hmask p
  · -- the text is full
    rw [if_neg hroom] at hnext
    have hidx : DISPLAY_BUF_LEN - 1 ≤ m.msgIdx := h.idx ▸ Nat.le_of_not_lt hroom
    have hfull : { m with blinkWork := mask }.dmmPutcSafe c = { m with blinkWork := mask } := by
      rw [MessageAssembly.dmmPutcSafe, if_pos hidx]
    rw [hfull]
    refine ⟨h.started, h.menu, h.valid, ?_, ?_, ?_, hmask⟩
    · rw [hnext]
      exact h.idx
    · rw [hnext]
      exact h.text
    · rw [hasUnprintable_snoc, or_iff_left fun hb => hroom hb.1]
      exact h.corrupt

/-- A byte that stores nothing. -/
theorem Rendered.ignore {m : MessageAssembly} {payload : List UInt8} (h : Rendered m payload)
    {b : UInt8} (hstored : storedChar b = none) (h8d : b ≠ 0x8d) (hprint : unprintable b = false) :
    Rendered m (payload ++ [b]) := by
  have hsame : renderedText (payload ++ [b]) = renderedText payload := by
    rw [renderedText, stored_snoc, hstored, Option.toList_none, List.append_nil]
    rfl
  refine ⟨h.started, h.menu, h.valid, ?_, ?_, ?_, fun p => ?_⟩
  · rw [hsame]
    exact h.idx
  · rw [hsame]
    exact h.text
  · rw [hasUnprintable_snoc, hprint]
    exact h.corrupt.trans (or_iff_left fun hb => by cases hb.2).symm
  · rw [blinksAt_snoc]
    exact (h.blink p).trans (or_iff_left fun hb => h8d hb.2).symm

/-- One more byte. -/
theorem Rendered.messageByte {m : MessageAssembly} {payload : List UInt8} (h : Rendered m payload)
    (b : UInt8) : Rendered (m.messageByte b) (payload ++ [b]) := by
  rw [MessageAssembly.messageByte, MessageAssembly.resetWork, h.started, if_neg Bool.false_ne_true]
  obtain ⟨hstored, h8d, hprint, hput⟩ | ⟨c, hstored, hprint, hput⟩ := putByte_cases m b
  · rw [hput]
    exact h.ignore hstored h8d hprint
  · rw [hput]
    refine h.put hstored hprint fun p => ?_
    rw [blinksAt_snoc, MessageAssembly.marked]
    by_cases hmark : b = 0x8d ∧ 0 < m.msgIdx
    · -- the text has at most fifteen characters
      have hlt : m.msgIdx - 1 < 16 := by
        have hmin := Nat.min_le_left TEXT_LEN (stored payload).length
        have h15 : TEXT_LEN = 15 := rfl
        rw [h.idx, renderedText, List.length_take]
        omega
      rw [if_pos hmark, testBit_mark _ hlt, Bool.or_eq_true, h.blink, decide_eq_true_iff, ← h.idx]
      refine or_congr_right ⟨fun hp => ⟨by omega, hmark.1⟩, fun hp => by omega⟩
    · rw [if_neg hmark, h.blink, ← h.idx]
      exact (or_iff_left fun hp => hmark ⟨hp.2, by omega⟩).symm

theorem Rendered.payload {m : MessageAssembly} {payload : List UInt8} (h : Rendered m payload)
    (ps : List SniffByte) : Rendered (m.payload ps) (payload ++ payloadBytes ps) := by
  induction ps generalizing m payload with
  | nil =>
    rw [payloadBytes, List.map_nil, List.append_nil]
    exact h
  | cons p ps ih =>
    have hnext := ih (h.messageByte p.input)
    rw [List.append_assoc, List.singleton_append] at hnext
    exact hnext

/-- A payload, from a work area that is due for its reset. -/
theorem rendered_payload {m : MessageAssembly} (h : m.workNeedReset = true) {ps : List SniffByte}
    (hne : ps ≠ []) : Rendered (m.payload ps) (payloadBytes ps) := by
  rw [payload_resetWork h hne]
  exact (rendered_resetWork h).payload ps

/-! ## What is published -/

/-- One of the three scanners accepts the text. -/
def Accepted (text : DisplayBuf) : Prop :=
  regexValidReading text.toList = true ∨ regexInMenu text.toList = true ∨
    regexTextDisplay text.toList = true

/-- The message is corrupt. -/
def CorruptMessage (payload : List UInt8) : Prop :=
  HasUnprintable payload ∨ ¬Accepted (padded (renderedText payload))

/-- `c'` shows the message with the payload `payload` to its end, after `c`. -/
structure DecodedAs (payload : List UInt8) (c c' : DmmContext) : Prop where
  main : c'.main = padded (renderedText payload)
  blink : ∀ p, c'.blinkMask.toNat.testBit p = true ↔ BlinksAt payload p
  corrupt : c'.msg.corruptMsg = true ↔ CorruptMessage payload
  valid : c'.msg.validReading = true ↔
    ¬CorruptMessage payload ∧ regexValidReading c'.main.toList = true
  menu : c'.msg.menuMsg = true ↔
    ¬CorruptMessage payload ∧ regexValidReading c'.main.toList = false ∧
      regexInMenu c'.main.toList = true
  lastReading : c'.lastReading = if c'.msg.validReading = true then c'.main else c.lastReading
  counter : c'.mainCounter = c.mainCounter + 1
  boundary : c'.AtBoundary
  due : c'.msg.workNeedReset = true

/-- The flags that the three scanners leave. -/
theorem Rendered.classify {m : MessageAssembly} {payload : List UInt8} (h : Rendered m payload) :
    (m.classify.corruptMsg = true ↔ CorruptMessage payload) ∧
      (m.classify.validReading = true ↔ ¬CorruptMessage payload ∧
        regexValidReading (padded (renderedText payload)).toList = true) ∧
      (m.classify.menuMsg = true ↔ ¬CorruptMessage payload ∧
        regexValidReading (padded (renderedText payload)).toList = false ∧
        regexInMenu (padded (renderedText payload)).toList = true) := by
  have hcorrupt := h.corrupt
  have hmenu := h.menu
  have hvalid := h.valid
  rw [CorruptMessage, Accepted, ← h.text, ← hcorrupt]
  have hclass := m.classified
  generalize m.classify = m' at hclass
  cases hclass with
  | corrupt hc => simp [hc, hmenu, hvalid]
  | reading hc hv => simp [hc, hv, hmenu]
  | menu hc hv hm => simp [hc, hv, hm, hvalid]
  | text hc hv hm ht => simp [hc, hv, hm, ht, hmenu, hvalid]
  | invalid hc hv hm ht => simp [hc, hv, hm, ht, hmenu, hvalid]

/-! ## What the frame leaves alone -/

@[simp] theorem overflowGuard_mainCounter (c : DmmContext) :
    (overflowGuard c).mainCounter = c.mainCounter := by
  simp only [overflowGuard]
  split <;> rfl

@[simp] theorem decodeButton_mainCounter (c : DmmContext) (now : UInt32) :
    (decodeButton c now).mainCounter = c.mainCounter := by
  simp only [decodeButton]
  repeat' split <;> try rfl

@[simp] theorem endFrame_mainCounter (c : DmmContext) :
    c.endFrame.mainCounter = c.mainCounter := rfl

@[simp] theorem processShiftWindow_mainCounter (c : DmmContext) (now : UInt32) :
    (processShiftWindow c now).mainCounter = c.mainCounter := by
  simp only [processShiftWindow]
  repeat' split <;> try rfl

@[simp] theorem updateBarGraphFromMessageFrame_mainCounter (c : DmmContext) :
    (updateBarGraphFromMessageFrame c).mainCounter = c.mainCounter := by
  simp only [updateBarGraphFromMessageFrame]
  split <;> rfl

/-- Inside a frame no message is counted. -/
theorem processPair_mainCounter {c : DmmContext} {p : SniffByte}
    (heof : (c.buf.store p).lastBytesAreEof = false) (t : Clock) :
    (processPair c p t).1.mainCounter = c.mainCounter := by
  have hstore : (c.buf.store p).frameState = c.buf.frameState := rfl
  rcases hs : c.buf.frameState <;>
    simp only [processPair, dispatch, hstore, hs, overflowGuard_mainCounter, frameInit,
      frameMessage, frameAnnunciators, frameControl, frameButton, heof, Bool.false_eq_true,
      if_false]
  split_ifs <;> simp

/-- The end of a message counts it. -/
theorem endsMessage_mainCounter {c : DmmContext} {p : SniffByte} (hp : c.EndsMessage p)
    (t : Clock) : (processPair c p t).1.mainCounter = c.mainCounter + 1 := by
  have hstate : (c.buf.store p).frameState = .message := hp.1
  simp [processPair, dispatch, hstate, frameMessage, hp.2, publishMessage]

/-- What a frame keeps up to its end. -/
structure KeptUpToEnd (c c' : DmmContext) : Prop where
  lastReading : c'.lastReading = c.lastReading
  counter : c'.mainCounter = c.mainCounter

theorem run_keptUpToEnd {c : DmmContext} (hlen : c.buf.bufLen < INPUT_BUF_SIZE) {w : List Event}
    {ps : List SniffByte} (hw : Delivers w ps) (heof : eofPair ∉ ps) :
    KeptUpToEnd c (Machine.run DmmContext.step c w) := by
  induction w generalizing c ps with
  | nil => exact ⟨rfl, rfl⟩
  | cons e w ih =>
    obtain ⟨hreset, hpairs⟩ := hw
    rw [List.mem_cons, not_or] at hreset
    obtain ⟨hreset, hreset'⟩ := hreset
    have hlen' := DmmContext.step_len hlen e
    cases e with
    | reset => exact absurd rfl hreset
    | tick now_us =>
      obtain ⟨hlast, hcount⟩ := ih hlen' ⟨hreset', hpairs⟩ heof
      exact ⟨hlast.trans (processShiftWindow_lastReading c now_us),
        hcount.trans (processShiftWindow_mainCounter c now_us)⟩
    | interrupt sniff dbg =>
      obtain ⟨hlast, hcount⟩ := ih hlen' ⟨hreset', hpairs⟩ heof
      exact ⟨hlast, hcount⟩
    | pair p t =>
      obtain rfl : p :: w.filterMap Event.pair? = ps := hpairs
      rw [List.mem_cons, not_or] at heof
      obtain ⟨hne, heof⟩ := heof
      have hnot : (c.buf.store p).lastBytesAreEof = false := by
        rw [← Bool.not_eq_true, store_eof_iff hlen]
        exact Ne.symm hne
      obtain ⟨hlast, hcount⟩ := ih hlen' ⟨hreset', rfl⟩ heof
      have hsame := processPair_lastReading c p t
      have hgoes : ¬c.EndsMessage p := fun hp => absurd hp.2 (by rw [hnot]; decide)
      rw [if_neg hgoes] at hsame
      exact ⟨hlast.trans hsame, hcount.trans (processPair_mainCounter hnot t)⟩

/-- Without a pair or a reset, the parse state and the work area stay. -/
theorem run_delivers_nil {c : DmmContext} {w : List Event} (hw : Delivers w []) :
    (Machine.run DmmContext.step c w).buf = c.buf ∧
      (Machine.run DmmContext.step c w).msg = c.msg := by
  induction w generalizing c with
  | nil => exact ⟨rfl, rfl⟩
  | cons e w ih =>
    obtain ⟨hreset, hpairs⟩ := hw
    rw [List.mem_cons, not_or] at hreset
    obtain ⟨hreset, hreset'⟩ := hreset
    cases e with
    | pair p t => cases hpairs
    | reset => exact absurd rfl hreset
    | tick now_us =>
      obtain ⟨hbuf, hmsg⟩ := ih (c := c.step (.tick now_us)) ⟨hreset', hpairs⟩
      exact ⟨hbuf.trans (processShiftWindow_buf c now_us),
        hmsg.trans (processShiftWindow_msg c now_us)⟩
    | interrupt sniff dbg => exact ih (c := c.step (.interrupt sniff dbg)) ⟨hreset', hpairs⟩

/-! ## A whole frame -/

/-- The header of a message frame and its payload hold no EOF pair. -/
theorem MessageFrame.eof_notMem_opened (f : MessageFrame) : eofPair ∉ f.opened f.payload := by
  intro hmem
  obtain h₁ | hmem := List.mem_cons.mp hmem
  · exact f.first_ne_eof h₁.symm
  · obtain h₂ | hmem := List.mem_cons.mp hmem
    · exact f.second_ne_eof h₂.symm
    · exact f.payload_eof hmem

/-- **Message text is decoded exactly**, from every boundary with the work area due for its
reset. -/
theorem message_text_decoded (f : MessageFrame) {c : DmmContext} (hb : c.AtBoundary)
    (hdue : c.msg.workNeedReset = true) (hne : f.payload ≠ []) {w : List Event}
    (hw : Delivers w f.pairs) :
    DecodedAs (payloadBytes f.payload) c (Machine.run DmmContext.step c w) := by
  have hrendered := rendered_payload hdue hne
  obtain ⟨hcorrupt, hvalid, hmenu⟩ := hrendered.classify
  -- the fields that are shown
  have hshown := f.run_shown hb hw
  have hmain := congrArg Shown.main hshown
  have hblink := congrArg Shown.blinkMask hshown
  have hflagc := congrArg Shown.corruptMsg hshown
  have hflagm := congrArg Shown.menuMsg hshown
  have hflagv := congrArg Shown.validReading hshown
  simp only [DmmContext.shown, published, classify_msgWork, classify_blinkWork,
    hrendered.text] at hmain hblink hflagc hflagm hflagv
  -- the others, up to the EOF pair, at it, and after it
  obtain ⟨w₁, t, w₂, rfl, hw₁, hw₂⟩ := f.split_events hw
  rw [Machine.run_append, Machine.run_cons, DmmContext.step] at *
  have hin := f.inside hb hw₁
  obtain ⟨hlast₁, hcount₁⟩ := run_keptUpToEnd (by rw [hb.len]; decide) hw₁ f.eof_notMem_opened
  generalize Machine.run DmmContext.step c w₁ = c₁ at *
  have hlen : c₁.buf.bufLen < INPUT_BUF_SIZE := hin.parsed.holds.len ▸ hin.parsed.room
  have hends : c₁.EndsMessage eofPair :=
    ⟨hin.parsed.state.trans (f.stateOf_opened _), (store_eof_iff hlen _).mpr rfl⟩
  have hwork : c₁.msg = c.msg.payload f.payload := hin.msg
  have hboundary := processPair_eof hlen t
  have hmsg := processPair_msg c₁ eofPair t
  have hlast := processPair_lastReading c₁ eofPair t
  have hcount := endsMessage_mainCounter hends t
  rw [if_pos hends.1, if_pos hends.2] at hmsg
  rw [if_pos hends, hlast₁, hwork, hrendered.text] at hlast
  rw [hcount₁] at hcount
  generalize (processPair c₁ eofPair t).1 = c₂ at *
  obtain ⟨hlast₂, hcount₂⟩ :=
    run_keptUpToEnd (by rw [hboundary.len]; decide) hw₂ List.not_mem_nil
  obtain ⟨hbuf₂, hmsg₂⟩ := run_delivers_nil (c := c₂) hw₂
  generalize Machine.run DmmContext.step c₂ w₂ = c₃ at *
  refine ⟨hmain, ?_, ?_, ?_, ?_, ?_, ?_, ⟨?_, ?_⟩, ?_⟩
  · rw [hblink]
    exact hrendered.blink
  · rw [hflagc]
    exact hcorrupt
  · rw [hflagv, hmain]
    exact hvalid
  · rw [hflagm, hmain]
    exact hmenu
  · rw [hlast₂, hlast, hflagv, hmain]
  · rw [hcount₂, hcount]
  · rw [hbuf₂]
    exact hboundary.state
  · rw [hbuf₂]
    exact hboundary.len
  · rw [hmsg₂, hmsg]

theorem message_text_decoded_reading :
    (after [eofPair]).AtBoundary ∧ (after [eofPair]).msg.workNeedReset = true ∧
      DecodedAs (payloadBytes readingFrame.payload) (after [eofPair])
        (Machine.run DmmContext.step (after [eofPair]) (deliver readingFrame.pairs)) ∧
      padded (renderedText (payloadBytes readingFrame.payload)) =
        displayText (bytes " 1.234        ") := by
  have hb : (after [eofPair]).AtBoundary := fresh_empty.1.boundary
  have hdue : (after [eofPair]).msg.workNeedReset = true := fresh_empty.1.due
  exact ⟨hb, hdue, message_text_decoded readingFrame hb hdue (by decide) (delivers_deliver _),
    by decide⟩

end LcdPico
