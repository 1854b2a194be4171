import LcdPico.AnnunciatorFrame
import LcdPico.Bounds
import LcdPico.MessageText

/-!
# The panel of the meter

`Panel` says what the decoder is for: the meter shows something, and each frame that it
sends changes one part of it. A message frame replaces the text, an annunciator frame the
annunciators, a control frame the blinking character, a button frame nothing. The SHIFT
annunciator is not on the panel, as it depends on the time.

The decoder shows a frame at its last pair, out of what it has collected up to there.
`Collecting` follows it through the frame, and `DmmContext.Shows.frames` through a series of
them: the decoder refines the panel.
-/

namespace LcdPico

/-! ## The reference -/

/-- What the meter shows. -/
structure Panel where
  text : DisplayBuf
  /-- the characters that blink -/
  blinking : Nat → Prop
  /-- the last valid reading -/
  reading : DisplayBuf
  annunciators : UInt16
  /-- how often the text or its blinking was announced, modulo 2^32 -/
  announcements : UInt32

/-- A frame from its first pair to the one that ends it. -/
structure WholeFrame where
  body : List SniffByte
  last : SniffByte
  goes_on : Machine.Within (fun acc p => acc ++ [p]) (fun acc p => ¬EndsFrame acc p) [] body
  ends : EndsFrame body last
  fits : body.length < INPUT_BUF_SIZE
  /-- a message says something -/
  payload : stateOf body = .message → body.drop 2 ≠ []
  /-- both annunciator bytes are there -/
  announces : stateOf body = .annunciators → 4 ≤ body.length

/-- The pairs of the frame. -/
def WholeFrame.pairs (f : WholeFrame) : List SniffByte := f.body ++ [f.last]

namespace Panel

open Classical in
/-- A message with the payload `payload`. -/
noncomputable def message (p : Panel) (payload : List UInt8) : Panel :=
  { p with
    text := padded (renderedText payload)
    blinking := BlinksAt payload
    reading :=
      if ¬CorruptMessage payload ∧
          regexValidReading (padded (renderedText payload)).toList = true then
        padded (renderedText payload)
      else p.reading
    announcements := p.announcements + 1 }

/-- The annunciator bytes `l` and `h`. -/
def announce (p : Panel) (l h : UInt8) : Panel := { p with annunciators := announced h l }

/-- The command that begins with the bytes `a` and `b`. -/
def control (p : Panel) (a b : UInt8) : Panel :=
  match controlBlink.lookup ((a.toUInt16 <<< 8) ||| b.toUInt16) with
  | some i => { p with blinking := (· = i), announcements := p.announcements + 1 }
  | none => p

/-- What a frame changes. -/
noncomputable def frame (p : Panel) (f : WholeFrame) : Panel :=
  match stateOf f.body, f.body with
  | .message, _ :: _ :: payload => p.message (payloadBytes payload)
  | .annunciators, _ :: _ :: l :: h :: _ => p.announce l.input h.input
  | .control, a :: b :: _ => p.control a.input b.input
  | _, _ => p

end Panel

/-- The decoder shows what is on the panel. -/
structure DmmContext.Shows (c : DmmContext) (p : Panel) : Prop where
  text : c.main = p.text
  blinking : ∀ i, c.blinkMask.toNat.testBit i = true ↔ p.blinking i
  reading : c.lastReading = p.reading
  annunciators : c.annState &&& annMask = p.annunciators
  announcements : c.mainCounter = p.announcements

/-- The panel that the decoder shows. -/
def DmmContext.panel (c : DmmContext) : Panel :=
  { text := c.main
    blinking := fun i => c.blinkMask.toNat.testBit i = true
    reading := c.lastReading
    annunciators := c.annState &&& annMask
    announcements := c.mainCounter }

theorem DmmContext.shows_panel (c : DmmContext) : c.Shows c.panel :=
  ⟨rfl, fun _ => Iff.rfl, rfl, rfl, rfl⟩

/-- The decoder is between two frames, and the work area is due for its reset. -/
structure DmmContext.Between (c : DmmContext) : Prop where
  boundary : c.AtBoundary
  due : c.msg.workNeedReset = true

/-! ## What shows on the panel stays until a frame is acted upon -/

/-- The fields of the decoder that are on the panel. -/
structure OnPanel where
  main : DisplayBuf
  blinkMask : UInt16
  lastReading : DisplayBuf
  annunciators : UInt16
  mainCounter : UInt32

def DmmContext.onPanel (c : DmmContext) : OnPanel :=
  { main := c.main
    blinkMask := c.blinkMask
    lastReading := c.lastReading
    annunciators := c.annState &&& annMask
    mainCounter := c.mainCounter }

theorem DmmContext.Shows.of_onPanel {c c' : DmmContext} {p : Panel} (h : c.Shows p)
    (hsame : c'.onPanel = c.onPanel) : c'.Shows p := by
  obtain ⟨htext, hblink, hreading, hann, hcount⟩ := h
  refine ⟨?_, ?_, ?_, ?_, ?_⟩
  · exact (congrArg OnPanel.main hsame).trans htext
  · rw [show c'.blinkMask = c.blinkMask from congrArg OnPanel.blinkMask hsame]
    exact hblink
  · exact (congrArg OnPanel.lastReading hsame).trans hreading
  · exact (congrArg OnPanel.annunciators hsame).trans hann
  · exact (congrArg OnPanel.mainCounter hsame).trans hcount

/-- A toggle outside of the mask does not show. -/
theorem xor_and (a s m : UInt16) : (a ^^^ s) &&& m = (a &&& m) ^^^ (s &&& m) := by
  apply UInt16.toBitVec_inj.mp
  ext i hi
  simp only [UInt16.toBitVec_and, UInt16.toBitVec_xor, BitVec.getElem_and, BitVec.getElem_xor]
  cases m.toBitVec[i] <;> simp

/-- SHIFT is not on the panel. -/
theorem shift_notOnPanel (a : UInt16) : (a ^^^ 0x0800) &&& annMask = a &&& annMask ∧
    (a &&& ~~~0x0800) &&& annMask = a &&& annMask := by
  have hmask : (0x0800 : UInt16) &&& annMask = 0 := by decide
  have hnot : (~~~0x0800 : UInt16) &&& annMask = annMask := by decide
  refine ⟨?_, ?_⟩
  · rw [xor_and, hmask, UInt16.xor_zero]
  · rw [UInt16.and_assoc, hnot]

theorem processShiftWindow_onPanel (c : DmmContext) (now_us : UInt32) :
    (processShiftWindow c now_us).onPanel = c.onPanel := by
  simp only [processShiftWindow]
  split
  · rfl
  split
  · split
    · simp only [DmmContext.onPanel, (shift_notOnPanel c.annState).1]
    · rfl
  · rfl

theorem decodeButton_onPanel (c : DmmContext) (now_us : UInt32) :
    (decodeButton c now_us).onPanel = c.onPanel := by
  simp only [decodeButton]
  split
  · split
    · rfl
    · rfl
  split
  · simp only [DmmContext.onPanel, (shift_notOnPanel c.annState).2]
  · rfl

theorem overflowGuard_onPanel (c : DmmContext) : (overflowGuard c).onPanel = c.onPanel := by
  rw [overflowGuard]
  split
  · rfl
  · rfl

/-- A frame that is not acted upon shows nothing. -/
theorem dispatch_onPanel {c : DmmContext} {now_us : UInt32} (h : (dispatch c now_us).2 = none) :
    (dispatch c now_us).1.onPanel = c.onPanel := by
  cases hs : c.buf.frameState with
  | init =>
    simp only [dispatch, hs, frameInit]
    split
    · rfl
    · rfl
  | unknown =>
    simp only [dispatch, hs]
    rfl
  | message =>
    simp only [dispatch, hs, frameMessage] at h ⊢
    split at h
    · cases h
    · rename_i heof
      rw [if_neg heof]
      rfl
  | annunciators =>
    simp only [dispatch, hs, frameAnnunciators] at h ⊢
    split_ifs at h ⊢
    · rfl
    · rfl
  | control =>
    simp only [dispatch, hs, frameControl] at h ⊢
    split at h
    · cases h
    · rename_i heof
      rw [if_neg heof]
  | button =>
    simp only [dispatch, hs, frameButton] at h ⊢
    split_ifs at h ⊢
    · rfl
    · rfl
    · rfl

/-- A pair that no frame ends with. -/
theorem processPair_onPanel {c : DmmContext} {p : SniffByte}
    (hacts : (c.buf.store p).acts = none) (t : Clock) :
    (processPair c p t).1.onPanel = c.onPanel := by
  have hdispatch := dispatch_acts
    { c with dbg := anyByteTiming c.dbg t.any, buf := c.buf.store p } t.frame
  rw [show FrameBuffers.acts _ = none from hacts] at hdispatch
  rw [processPair]
  dsimp only
  rw [overflowGuard_onPanel]
  exact dispatch_onPanel hdispatch

/-- Without a pair or a reset, the panel stays. -/
theorem run_onPanel {c : DmmContext} {w : List Event} (hw : Delivers w []) :
    (Machine.run DmmContext.step c w).onPanel = c.onPanel := by
  induction w generalizing c with
  | nil => rfl
  | cons e w ih =>
    obtain ⟨hreset, hpairs⟩ := hw
    rw [List.mem_cons, not_or] at hreset
    obtain ⟨hreset, hreset'⟩ := hreset
    cases e with
    | pair p t => cases hpairs
    | reset => exact absurd rfl hreset
    | tick now_us => exact (ih ⟨hreset', hpairs⟩).trans (processShiftWindow_onPanel c now_us)
    | interrupt sniff dbg => exact ih ⟨hreset', hpairs⟩

/-! ## Inside a frame -/

theorem stateOf_message_snoc {acc : List SniffByte} (h : stateOf acc = .message) (p : SniffByte) :
    stateOf (acc ++ [p]) = .message ∧ (acc ++ [p]).drop 2 = acc.drop 2 ++ [p] := by
  match acc, h with
  | [a], h =>
    by_cases hb : a = buttonHeader
    · rw [stateOf, if_pos hb] at h
      cases h
    · rw [stateOf, if_neg hb] at h
      cases h
  | a :: b :: rest, h => exact ⟨h, rfl⟩

/-- The message state is entered with the second pair. -/
theorem stateOf_enters_message {acc : List SniffByte} (h : stateOf acc ≠ .message) {p : SniffByte}
    (h' : stateOf (acc ++ [p]) = .message) : (acc ++ [p]).drop 2 = [] := by
  match acc, h with
  | [], _ => rfl
  | [_], _ => rfl
  | a :: b :: rest, h => exact absurd h' h

/-- `c` has collected the pairs `acc` of a frame that it entered from `c₀`. -/
structure Collecting (c₀ c : DmmContext) (acc : List SniffByte) : Prop where
  parsed : c.buf.Parsed acc
  panel : c.onPanel = c₀.onPanel
  msg : c.msg = if stateOf acc = .message then c₀.msg.payload (acc.drop 2) else c₀.msg

theorem Collecting.start {c : DmmContext} (h : c.AtBoundary) : Collecting c c [] :=
  ⟨h.parsed, rfl, rfl⟩

/-- One more pair that the frame goes on with. -/
theorem Collecting.pair {c₀ c : DmmContext} {acc : List SniffByte} (h : Collecting c₀ c acc)
    {p : SniffByte} (hgoes : ¬EndsFrame acc p) (hroom : acc.length + 1 < INPUT_BUF_SIZE)
    (t : Clock) : Collecting c₀ (processPair c p t).1 (acc ++ [p]) := by
  obtain ⟨hparsed, hpanel, hmsg⟩ := h
  obtain ⟨hnext, hacts⟩ := hparsed.step_extends hgoes
  rw [if_neg (Nat.ne_of_lt hroom), ← processPair_buf c p t] at hnext
  refine ⟨hnext, (processPair_onPanel hacts t).trans hpanel, ?_⟩
  have hlen : c.buf.bufLen < INPUT_BUF_SIZE := hparsed.holds.len ▸ hparsed.room
  rw [processPair_msg, hparsed.state, store_last_input hlen, hmsg]
  by_cases hstate : stateOf acc = .message
  · obtain ⟨hsame, hdrop⟩ := stateOf_message_snoc hstate p
    have heof : ¬(c.buf.store p).lastBytesAreEof = true := by
      rw [store_eof_iff hlen]
      exact fun heq => hgoes (.inl heq)
    rw [if_pos hstate, if_neg heof, if_pos hstate, if_pos hsame, hdrop,
      MessageAssembly.payload, MessageAssembly.payload, Machine.run_append]
    rfl
  · rw [if_neg hstate, if_neg hstate]
    split
    · rename_i henters
      rw [stateOf_enters_message hstate henters]
      rfl
    · rfl

/-- The events that deliver a part of the frame. -/
theorem Collecting.run {c₀ c : DmmContext} {acc todo : List SniffByte} (h : Collecting c₀ c acc)
    (hgoes : Machine.Within (fun acc p => acc ++ [p]) (fun acc p => ¬EndsFrame acc p) acc todo)
    (hroom : (acc ++ todo).length < INPUT_BUF_SIZE) {w : List Event} (hw : Delivers w todo) :
    Collecting c₀ (Machine.run DmmContext.step c w) (acc ++ todo) := by
  induction w generalizing c acc todo with
  | nil =>
    obtain rfl : todo = [] := hw.2.symm
    rw [List.append_nil]
    exact h
  | cons e w ih =>
    obtain ⟨hreset, hpairs⟩ := hw
    rw [List.mem_cons, not_or] at hreset
    obtain ⟨hreset, hreset'⟩ := hreset
    cases e with
    | reset => exact absurd rfl hreset
    | tick now_us =>
      obtain ⟨hparsed, hpanel, hmsg⟩ := h
      refine ih ⟨?_, ?_, ?_⟩ hgoes hroom ⟨hreset', hpairs⟩
      · rw [DmmContext.step, processShiftWindow_buf]
        exact hparsed
      · exact (processShiftWindow_onPanel c now_us).trans hpanel
      · rw [DmmContext.step, processShiftWindow_msg]
        exact hmsg
    | interrupt sniff dbg =>
      obtain ⟨hparsed, hpanel, hmsg⟩ := h
      exact ih ⟨hparsed, hpanel, hmsg⟩ hgoes hroom ⟨hreset', hpairs⟩
    | pair p t =>
      obtain rfl : p :: w.filterMap Event.pair? = todo := hpairs
      obtain ⟨hfirst, hgoes⟩ := hgoes
      rw [← List.singleton_append, ← List.append_assoc] at hroom
      rw [← List.singleton_append (l := w.filterMap _), ← List.append_assoc]
      have hshort : (acc ++ [p]).length ≤ (acc ++ [p] ++ w.filterMap Event.pair?).length := by
        rw [@List.length_append _ (acc ++ [p])]
        exact Nat.le_add_right _ _
      rw [List.length_append, List.length_singleton] at hshort
      exact ih (h.pair hfirst (Nat.lt_of_le_of_lt hshort hroom) t) hgoes hroom ⟨hreset', rfl⟩

/-! ## The end of a frame -/

theorem updateBarGraphFromMessageFrame_onPanel (c : DmmContext) :
    (updateBarGraphFromMessageFrame c).onPanel = c.onPanel := by
  simp only [updateBarGraphFromMessageFrame]
  split
  · rfl
  · rfl

/-- The EOF pair of a message. -/
theorem DmmContext.Shows.message {c : DmmContext} {p : Panel} (h : c.Shows p) {q : SniffByte}
    (hends : c.EndsMessage q) {payload : List UInt8} (hm : Rendered c.msg payload) (t : Clock) :
    (processPair c q t).1.Shows (p.message payload) := by
  obtain ⟨-, hvalid, -⟩ := hm.classify
  have hstate : (c.buf.store q).frameState = .message := hends.1
  have hpanel : (processPair c q t).1.onPanel =
      { main := c.msg.classify.msgWork
        blinkMask := c.msg.classify.blinkWork
        lastReading :=
          if c.msg.classify.validReading then c.msg.classify.msgWork else c.lastReading
        annunciators := c.annState &&& annMask
        mainCounter := c.mainCounter + 1 } := by
    rw [processPair]
    dsimp only
    rw [overflowGuard_onPanel]
    simp only [dispatch, hstate, frameMessage, if_pos hends.2, publishMessage]
    exact updateBarGraphFromMessageFrame_onPanel _
  have hreading := congrArg OnPanel.lastReading hpanel
  dsimp only [DmmContext.onPanel] at hreading
  refine ⟨?_, ?_, ?_, ?_, ?_⟩
  · exact (congrArg OnPanel.main hpanel).trans ((classify_msgWork _).trans hm.text)
  · intro i
    rw [show (processPair c q t).1.blinkMask = c.msg.blinkWork from
      (congrArg OnPanel.blinkMask hpanel).trans (classify_blinkWork _)]
    exact hm.blink i
  · rw [hreading, classify_msgWork, hm.text, h.reading, Panel.message]
    by_cases hv : c.msg.classify.validReading = true
    · rw [if_pos hv, if_pos (hvalid.mp hv)]
    · rw [if_neg hv, if_neg (mt hvalid.mpr hv)]
  · exact (congrArg OnPanel.annunciators hpanel).trans h.annunciators
  · exact (congrArg OnPanel.mainCounter hpanel).trans (congrArg (· + 1) h.announcements)

/-- The EOF pair of an annunciator frame. -/
theorem DmmContext.Shows.announce {c : DmmContext} {p : Panel} (h : c.Shows p)
    (hstate : c.buf.frameState = .annunciators)
    (heof : (c.buf.store eofPair).lastBytesAreEof = true)
    (hlen : 4 ≤ (c.buf.store eofPair).bufLen) (t : Clock) :
    (processPair c eofPair t).1.Shows (p.announce ((c.buf.store eofPair).inputBuf.rd 2)
      ((c.buf.store eofPair).inputBuf.rd 3)) := by
  have hstate' : (c.buf.store eofPair).frameState = .annunciators := hstate
  have hann (d : DmmContext) (hi lo : UInt8) : (publishAnnunciators d hi lo).onPanel =
      { d.onPanel with annunciators := announced hi lo } := by
    have hbits : (publishAnnunciators d hi lo).annState &&& annMask = announced hi lo := by
      rw [publishAnnunciators_annState, annAfter_bits]
    rw [DmmContext.onPanel, hbits]
    simp only [publishAnnunciators]
    split
    · rfl
    · rfl
  have hpanel : (processPair c eofPair t).1.onPanel = { c.onPanel with
      annunciators := announced ((c.buf.store eofPair).inputBuf.rd 3)
        ((c.buf.store eofPair).inputBuf.rd 2) } := by
    rw [processPair]
    dsimp only
    rw [overflowGuard_onPanel]
    simp only [dispatch, hstate', frameAnnunciators, if_pos heof, if_pos hlen]
    exact hann _ _ _
  refine ⟨?_, ?_, ?_, ?_, ?_⟩
  · exact (congrArg OnPanel.main hpanel).trans h.text
  · rw [show (processPair c eofPair t).1.blinkMask = c.blinkMask from
      congrArg OnPanel.blinkMask hpanel]
    exact h.blinking
  · exact (congrArg OnPanel.lastReading hpanel).trans h.reading
  · exact congrArg OnPanel.annunciators hpanel
  · exact (congrArg OnPanel.mainCounter hpanel).trans h.announcements

/-- The EOF pair of a control frame. -/
theorem DmmContext.Shows.control {c : DmmContext} {p : Panel} (h : c.Shows p)
    (hstate : c.buf.frameState = .control) (heof : (c.buf.store eofPair).lastBytesAreEof = true)
    (hlen : 2 ≤ (c.buf.store eofPair).bufLen) (t : Clock) :
    (processPair c eofPair t).1.Shows (p.control ((c.buf.store eofPair).inputBuf.rd 0)
      ((c.buf.store eofPair).inputBuf.rd 1)) := by
  have hstate' : (c.buf.store eofPair).frameState = .control := hstate
  have hpanel : (processPair c eofPair t).1.onPanel = (decodeControlFrame { c with
      dbg := anyByteTiming c.dbg t.any, buf := c.buf.store eofPair }).onPanel := by
    rw [processPair]
    dsimp only
    rw [overflowGuard_onPanel]
    simp only [dispatch, hstate', frameControl, if_pos heof]
    rfl
  rw [decodeControlFrame, if_neg (Nat.not_lt_of_le hlen)] at hpanel
  dsimp only at hpanel
  rw [Panel.control]
  cases hcmd : controlBlink.lookup ((((c.buf.store eofPair).inputBuf.rd 0).toUInt16 <<< 8) |||
      ((c.buf.store eofPair).inputBuf.rd 1).toUInt16) with
  | none =>
    rw [hcmd] at hpanel
    exact h.of_onPanel hpanel
  | some i =>
    rw [hcmd] at hpanel
    refine ⟨?_, ?_, ?_, ?_, ?_⟩
    · exact (congrArg OnPanel.main hpanel).trans h.text
    · intro j
      have hi := controlBlink_lt hcmd
      rw [show (processPair c eofPair t).1.blinkMask = UInt16.ofNat (1 <<< i) from
        congrArg OnPanel.blinkMask hpanel]
      have hmark := testBit_mark 0 (n := i) (by omega) j
      rw [UInt16.zero_or, show (0 : UInt16).toNat = 0 from rfl, Nat.zero_testBit,
        Bool.false_or] at hmark
      rw [hmark, decide_eq_true_iff]
      exact eq_comm
    · exact (congrArg OnPanel.lastReading hpanel).trans h.reading
    · exact (congrArg OnPanel.annunciators hpanel).trans h.annunciators
    · exact (congrArg OnPanel.mainCounter hpanel).trans (congrArg (· + 1) h.announcements)

/-- The pair that ends a button frame. -/
theorem processPair_button_onPanel {c : DmmContext} (hstate : c.buf.frameState = .button)
    (p : SniffByte) (t : Clock) : (processPair c p t).1.onPanel = c.onPanel := by
  have hstate' : (c.buf.store p).frameState = .button := hstate
  rw [processPair]
  dsimp only
  rw [overflowGuard_onPanel]
  simp only [dispatch, hstate', frameButton]
  split
  · rfl
  split
  · split
    · exact decodeButton_onPanel _ _
    · rfl
  · rfl

/-- Other frames than those of buttons have two pairs that classify them. -/
theorem exists_header {acc : List SniffByte} (hunknown : stateOf acc ≠ .unknown)
    (hbutton : stateOf acc ≠ .button) : ∃ a b rest, acc = a :: b :: rest := by
  match acc with
  | [] => exact absurd rfl hunknown
  | [a] =>
    by_cases hb : a = buttonHeader
    · exact absurd (by rw [stateOf, if_pos hb]) hbutton
    · exact absurd (by rw [stateOf, if_neg hb]) hunknown
  | a :: b :: rest => exact ⟨a, b, rest, rfl⟩

/-- The pair that ends a frame, other than a button frame. -/
theorem WholeFrame.last_eq_eof {f : WholeFrame} (h : stateOf f.body ≠ .button) :
    f.last = eofPair :=
  f.ends.resolve_right fun hb => h (stateOf_eq_button.mpr hb.1)

/-- After its last pair the decoder is between two frames. -/
theorem Collecting.between {c₀ c : DmmContext} {f : WholeFrame} (h : Collecting c₀ c f.body)
    (hdue : c₀.msg.workNeedReset = true) (t : Clock) : (processPair c f.last t).1.Between := by
  obtain ⟨hparsed, -, hmsg⟩ := h
  have hnext : (c.buf.store f.last).next.guarded.Parsed [] := by
    obtain heof | ⟨hhead, h66⟩ := f.ends
    · rw [heof]
      exact hparsed.step_eof.1
    · exact (hparsed.step_button hhead h66).1
  rw [← processPair_buf c f.last t] at hnext
  refine ⟨⟨hnext.state, hnext.holds.len⟩, ?_⟩
  rw [processPair_msg, hparsed.state, hmsg]
  by_cases hs : stateOf f.body = .message
  · have hlast := f.last_eq_eof (by rw [hs]; decide)
    rw [if_pos hs, if_pos]
    exact (hparsed.holds.store hparsed.room f.last).eof_iff.mpr hlast
  · rw [if_neg hs, if_neg hs]
    exact hdue

/-- The EOF pair, stored behind a frame that begins with the pairs `a` and `b`. -/
theorem Collecting.stored {c₀ c : DmmContext} {f : WholeFrame} (h : Collecting c₀ c f.body)
    (hunknown : stateOf f.body ≠ .unknown) (hbutton : stateOf f.body ≠ .button) :
    f.last = eofPair ∧ (c.buf.store eofPair).lastBytesAreEof = true ∧
      ∃ a b rest, f.body = a :: b :: rest ∧
        (c.buf.store eofPair).Holds (a :: b :: rest ++ [eofPair]) := by
  obtain ⟨a, b, rest, hbody⟩ := exists_header hunknown hbutton
  have hstored := h.parsed.holds.store h.parsed.room eofPair
  refine ⟨f.last_eq_eof hbutton, hstored.eof_iff.mpr rfl, a, b, rest, hbody, ?_⟩
  rw [← hbody]
  exact hstored

/-- After its last pair the frame is on the panel. -/
theorem Collecting.shows {c₀ c : DmmContext} {f : WholeFrame} (h : Collecting c₀ c f.body)
    (hdue : c₀.msg.workNeedReset = true) {p : Panel} (hshows : c₀.Shows p) (t : Clock) :
    (processPair c f.last t).1.Shows (p.frame f) := by
  have hshows' := hshows.of_onPanel h.panel
  have hstate := h.parsed.state
  cases hs : stateOf f.body with
  | message =>
    obtain ⟨hlast, heof, a, b, payload, hbody, -⟩ :=
      h.stored (by rw [hs]; decide) (by rw [hs]; decide)
    have hne := f.payload hs
    have hmsg := h.msg
    rw [if_pos hs] at hmsg
    rw [hbody] at hne hmsg
    have hframe : p.frame f = p.message (payloadBytes payload) := by
      rw [Panel.frame, hs, hbody]
    rw [hframe, hlast]
    refine hshows'.message ⟨hstate.trans hs, heof⟩ ?_ t
    rw [hmsg]
    exact rendered_payload hdue hne
  | annunciators =>
    obtain ⟨hlast, heof, a, b, rest, hbody, hstored⟩ :=
      h.stored (by rw [hs]; decide) (by rw [hs]; decide)
    have hfour := f.announces hs
    rw [hbody] at hfour
    obtain ⟨l, q, rest, rfl⟩ : ∃ l q rest', rest = l :: q :: rest' := by
      match rest, hfour with
      | l :: q :: rest', _ => exact ⟨l, q, rest', rfl⟩
    have hframe : p.frame f = p.announce l.input q.input := by
      rw [Panel.frame, hs, hbody]
    have hlen : 4 ≤ (c.buf.store eofPair).bufLen := by
      rw [hstored.len, List.length_append]
      omega
    have hshown := hshows'.announce (hstate.trans hs) heof hlen t
    rw [hstored.input 2 (by simp), hstored.input 3 (by simp)] at hshown
    rw [hframe, hlast]
    exact hshown
  | control =>
    obtain ⟨hlast, heof, a, b, rest, hbody, hstored⟩ :=
      h.stored (by rw [hs]; decide) (by rw [hs]; decide)
    have hframe : p.frame f = p.control a.input b.input := by
      rw [Panel.frame, hs, hbody]
    have hlen : 2 ≤ (c.buf.store eofPair).bufLen := by
      rw [hstored.len]
      exact Nat.le_add_left 2 _
    have hshown := hshows'.control (hstate.trans hs) heof hlen t
    rw [hstored.input 0 (by simp), hstored.input 1 (by simp)] at hshown
    rw [hframe, hlast]
    exact hshown
  | button =>
    have hframe : p.frame f = p := by rw [Panel.frame, hs]
    rw [hframe]
    exact hshows'.of_onPanel (processPair_button_onPanel (hstate.trans hs) _ t)
  | init | unknown =>
    have hframe : p.frame f = p := by rw [Panel.frame, hs]
    have hacts : (c.buf.store f.last).acts = none := by
      have hstored : (c.buf.store f.last).frameState = _ := hstate.trans hs
      simp only [FrameBuffers.acts, hstored]
    rw [hframe]
    exact hshows'.of_onPanel (processPair_onPanel hacts t)

/-! ## Whole frames -/

/-- The events of a pair: those before it, the pair, and those after it. -/
theorem Delivers.split_snoc {w : List Event} {ps : List SniffByte} {p : SniffByte}
    (hw : Delivers w (ps ++ [p])) :
    ∃ w₁ t w₂, w = w₁ ++ .pair p t :: w₂ ∧ Delivers w₁ ps ∧ Delivers w₂ [] := by
  obtain ⟨hreset, hpairs⟩ := hw
  obtain ⟨w₁, w₂, rfl, hw₁, hw₂⟩ := List.filterMap_eq_append_iff.mp hpairs
  obtain ⟨ticks, e, w₃, rfl, hticks, he, hw₃⟩ := List.filterMap_eq_cons_iff.mp hw₂
  obtain ⟨t, rfl⟩ : ∃ t, e = .pair p t := by
    cases e with
    | pair q t => exact ⟨t, by rw [Option.some.inj he]⟩
    | tick _ => cases he
    | reset => cases he
    | interrupt _ _ => cases he
  simp only [List.mem_append, List.mem_cons, not_or] at hreset
  refine ⟨w₁ ++ ticks, t, w₃, (List.append_assoc _ _ _).symm, ⟨?_, ?_⟩, hreset.2.2.2, hw₃⟩
  · simp [hreset.1, hreset.2.1]
  · rw [List.filterMap_append, hw₁, List.filterMap_eq_nil_iff.mpr hticks, List.append_nil]

theorem Delivers.split_append {w : List Event} {ps qs : List SniffByte}
    (hw : Delivers w (ps ++ qs)) :
    ∃ w₁ w₂, w = w₁ ++ w₂ ∧ Delivers w₁ ps ∧ Delivers w₂ qs := by
  obtain ⟨hreset, hpairs⟩ := hw
  obtain ⟨w₁, w₂, rfl, hw₁, hw₂⟩ := List.filterMap_eq_append_iff.mp hpairs
  rw [List.mem_append, not_or] at hreset
  exact ⟨w₁, w₂, rfl, ⟨hreset.1, hw₁⟩, hreset.2, hw₂⟩

/-- A frame, from its first pair to its last. -/
theorem DmmContext.Shows.frame {c : DmmContext} {p : Panel} (h : c.Shows p) (hc : c.Between)
    (f : WholeFrame) {w : List Event} (hw : Delivers w f.pairs) :
    (Machine.run DmmContext.step c w).Shows (p.frame f) ∧
      (Machine.run DmmContext.step c w).Between := by
  obtain ⟨w₁, t, w₂, rfl, hw₁, hw₂⟩ := hw.split_snoc
  have hcollects := (Collecting.start hc.boundary).run f.goes_on f.fits hw₁
  rw [List.nil_append] at hcollects
  rw [Machine.run_append, Machine.run_cons, DmmContext.step]
  generalize Machine.run DmmContext.step c w₁ = c₁ at hcollects ⊢
  obtain ⟨⟨hstate, hlen⟩, hdue⟩ := hcollects.between hc.due t
  have hshown := hcollects.shows hc.due h t
  generalize (processPair c₁ f.last t).1 = c₂ at hstate hlen hdue hshown ⊢
  obtain ⟨hbuf, hmsg⟩ := run_delivers_nil (c := c₂) hw₂
  refine ⟨hshown.of_onPanel (run_onPanel hw₂), ⟨?_, ?_⟩, ?_⟩
  · rw [hbuf]
    exact hstate
  · rw [hbuf]
    exact hlen
  · rw [hmsg]
    exact hdue

/-- A series of frames. -/
theorem DmmContext.Shows.frames {c : DmmContext} {p : Panel} (h : c.Shows p) (hc : c.Between)
    {fs : List WholeFrame} {w : List Event} (hw : Delivers w (fs.flatMap WholeFrame.pairs)) :
    (Machine.run DmmContext.step c w).Shows (Machine.run Panel.frame p fs) ∧
      (Machine.run DmmContext.step c w).Between := by
  induction fs generalizing c p w with
  | nil =>
    obtain ⟨hbuf, hmsg⟩ := run_delivers_nil (c := c) hw
    refine ⟨h.of_onPanel (run_onPanel hw), ⟨?_, ?_⟩, ?_⟩
    · rw [hbuf]
      exact hc.boundary.state
    · rw [hbuf]
      exact hc.boundary.len
    · rw [hmsg]
      exact hc.due
  | cons f fs ih =>
    rw [List.flatMap_cons] at hw
    obtain ⟨w₁, w₂, rfl, hw₁, hw₂⟩ := hw.split_append
    obtain ⟨hshown, hbetween⟩ := h.frame hc f hw₁
    rw [Machine.run_append]
    exact ih hshown hbetween hw₂

end LcdPico
