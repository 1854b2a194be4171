import LcdPico.DecoderStep

/-!
# What a meter reset leaves behind

`process_reset` blanks what is shown, closes the SHIFT window and marks the
message work area for its lazy reset. It leaves the parse state as it is
(`frame_state`, `buf_len` and the pairs collected), and the text and the blink
bits in the work area stay until the next message byte.

Two decoders that have handled a reset are related by `Alike`: same parse state,
same front, and message assemblies that may differ only while both are due for a
reset. Each step keeps it, unless EOF ends a message while the work area is still
due.
-/

namespace LcdPico

/-! ## Parse states that agree -/

/-- The same parser state, and the same pairs collected. -/
structure FrameBuffers.Agree (b₁ b₂ : FrameBuffers) : Prop where
  state : b₁.frameState = b₂.frameState
  len : b₁.bufLen = b₂.bufLen
  input : ∀ i < b₁.bufLen, b₁.inputBuf.rd i = b₂.inputBuf.rd i
  output : ∀ i < b₁.bufLen, b₁.outputBuf.rd i = b₂.outputBuf.rd i

namespace FrameBuffers.Agree

variable {b₁ b₂ : FrameBuffers}

/-- The agreement is that of the state and the list of pairs. -/
theorem of_pairs (h₁ : b₁.bufLen ≤ INPUT_BUF_SIZE) (h₂ : b₂.bufLen ≤ INPUT_BUF_SIZE)
    (hstate : b₁.frameState = b₂.frameState) (hpairs : b₁.pairs = b₂.pairs) : b₁.Agree b₂ := by
  have hlen₁ : b₁.pairs.length = b₁.bufLen := by simp [pairs, Nat.min_eq_left h₁]
  have hlen₂ : b₂.pairs.length = b₂.bufLen := by simp [pairs, Nat.min_eq_left h₂]
  have hlen : b₁.bufLen = b₂.bufLen := by rw [← hlen₁, ← hlen₂, hpairs]
  have hrd (b : FrameBuffers) (hb : b.bufLen ≤ INPUT_BUF_SIZE) (i : Nat) (hi : i < b.bufLen) :
      b.pairs[i]? = some ⟨b.inputBuf.rd i, b.outputBuf.rd i⟩ := by
    have hin : i < (b.inputBuf.pre b.bufLen).length := by simp; omega
    have hout : i < (b.outputBuf.pre b.bufLen).length := by simp; omega
    rw [CArray.rd_eq_getD_pre _ hi, CArray.rd_eq_getD_pre _ hi, List.getD_eq_getElem _ _ hin,
      List.getD_eq_getElem _ _ hout, pairs, List.getElem?_zipWith, List.getElem?_eq_getElem hin,
      List.getElem?_eq_getElem hout]
  have heq : ∀ i < b₁.bufLen, (⟨b₁.inputBuf.rd i, b₁.outputBuf.rd i⟩ : SniffByte) =
      ⟨b₂.inputBuf.rd i, b₂.outputBuf.rd i⟩ := by
    intro i hi
    have hi₁ := hrd b₁ h₁ i hi
    have hi₂ := hrd b₂ h₂ i (hlen ▸ hi)
    rw [hpairs, hi₂] at hi₁
    exact (Option.some.inj hi₁).symm
  exact ⟨hstate, hlen, fun i hi => congrArg SniffByte.input (heq i hi),
    fun i hi => congrArg SniffByte.output (heq i hi)⟩

theorem store (h : b₁.Agree b₂) (hroom : b₁.bufLen < INPUT_BUF_SIZE) (p : SniffByte) :
    (b₁.store p).Agree (b₂.store p) := by
  refine ⟨h.state, by simp [FrameBuffers.store, h.len], ?_, ?_⟩
  · intro i hi
    rcases Nat.lt_succ_iff_lt_or_eq.mp hi with hlt | rfl
    · simp only [FrameBuffers.store]
      rw [CArray.rd_wr_ne _ (by omega), CArray.rd_wr_ne _ (by have := h.len; omega), h.input i hlt]
    · simp only [FrameBuffers.store, ← h.len]
      rw [CArray.rd_wr_self _ hroom, CArray.rd_wr_self _ hroom]
  · intro i hi
    rcases Nat.lt_succ_iff_lt_or_eq.mp hi with hlt | rfl
    · simp only [FrameBuffers.store]
      rw [CArray.rd_wr_ne _ (by omega), CArray.rd_wr_ne _ (by have := h.len; omega),
        h.output i hlt]
    · simp only [FrameBuffers.store, ← h.len]
      rw [CArray.rd_wr_self _ hroom, CArray.rd_wr_self _ hroom]

/-- The EOF test reads a pair that was collected, if any. -/
theorem eof (h : b₁.Agree b₂) : b₁.lastBytesAreEof = b₂.lastBytesAreEof := by
  rw [lastBytesAreEof, lastBytesAreEof, ← h.len]
  by_cases hpos : 0 < b₁.bufLen
  · rw [h.input _ (Nat.sub_lt hpos Nat.one_pos), h.output _ (Nat.sub_lt hpos Nat.one_pos)]
  · rw [decide_eq_false hpos]
    rfl

theorem endFrame (b₁ b₂ : FrameBuffers) : b₁.endFrame.Agree b₂.endFrame :=
  ⟨rfl, rfl, fun i hi => absurd hi (Nat.not_lt_zero i), fun i hi => absurd hi (Nat.not_lt_zero i)⟩

theorem guarded (h : b₁.Agree b₂) : b₁.guarded.Agree b₂.guarded := by
  rw [FrameBuffers.guarded, FrameBuffers.guarded, ← h.len]
  split
  · exact endFrame _ _
  · exact h

theorem unknown (h : b₁.Agree b₂) : (frameUnknown b₁).Agree (frameUnknown b₂) := by
  have hset (s : FrameState) : FrameBuffers.Agree ⟨b₁.inputBuf, b₁.outputBuf, b₁.bufLen, s⟩
      ⟨b₂.inputBuf, b₂.outputBuf, b₂.bufLen, s⟩ := ⟨rfl, h.len, h.input, h.output⟩
  rw [← h.len] at hset
  rw [frameUnknown, frameUnknown, h.eof, ← h.len]
  by_cases heof : b₂.lastBytesAreEof = true
  · rw [if_pos heof, if_pos heof]
    exact endFrame _ _
  rw [if_neg heof, if_neg heof]
  rcases Nat.lt_or_ge 0 b₁.bufLen with hpos | hzero
  · rw [h.input 0 hpos, h.output 0 hpos]
    split
    · exact hset .button
    by_cases htwo : 2 ≤ b₁.bufLen
    · rw [if_pos htwo, if_pos htwo, h.input 1 htwo]
      split
      · exact hset .message
      split
      · exact hset .annunciators
      · exact hset .control
    · rw [if_neg htwo, if_neg htwo]
      exact h
  · -- nothing is collected
    rw [if_neg (by omega), if_neg (by omega), if_neg (by omega), if_neg (by omega)]
    exact h

theorem next (h : b₁.Agree b₂) : b₁.next.Agree b₂.next := by
  have hquiet : ((if b₁.lastBytesAreEof then b₁.endFrame else b₁)).Agree
      (if b₂.lastBytesAreEof then b₂.endFrame else b₂) := by
    rw [h.eof]
    split
    · exact endFrame _ _
    · exact h
  rw [FrameBuffers.next, FrameBuffers.next, ← h.state]
  cases b₁.frameState with
  | unknown => exact h.unknown
  | button =>
    simp only [h.eof, ← h.len]
    split
    · exact endFrame _ _
    rcases Nat.lt_or_ge 0 b₁.bufLen with hpos | hzero
    · rw [h.input _ (Nat.sub_lt hpos Nat.one_pos)]
      split
      · exact endFrame _ _
      · exact h
    · rw [if_neg (by omega), if_neg (by omega)]
      exact h
  | init => exact hquiet
  | message => exact hquiet
  | annunciators => exact hquiet
  | control => exact hquiet

end FrameBuffers.Agree

/-! ## Message assemblies that agree once the reset is done -/

/-- The same flags, and the same work area unless it is due for a reset; under
`W`, the same text and blink bits even then. -/
structure MessageAssembly.Alike (W : Prop) (m₁ m₂ : MessageAssembly) : Prop where
  due : m₁.workNeedReset = m₂.workNeedReset
  corrupt : m₁.corruptMsg = m₂.corruptMsg
  menu : m₁.menuMsg = m₂.menuMsg
  valid : m₁.validReading = m₂.validReading
  work : m₁.workNeedReset = false → m₁ = m₂
  text : W → m₁.msgWork = m₂.msgWork ∧ m₁.blinkWork = m₂.blinkWork

namespace MessageAssembly.Alike

variable {W : Prop} {m₁ m₂ : MessageAssembly}

theorem refl (m : MessageAssembly) : m.Alike W m :=
  ⟨rfl, rfl, rfl, rfl, fun _ => rfl, fun _ => ⟨rfl, rfl⟩⟩

/-- A message byte makes the assemblies equal. -/
theorem messageByte (h : m₁.Alike W m₂) (byte : UInt8) :
    m₁.messageByte byte = m₂.messageByte byte := by
  have hreset : m₁.resetWork = m₂.resetWork := by
    by_cases hdue : m₁.workNeedReset = true
    · have hdue₂ : m₂.workNeedReset = true := h.due ▸ hdue
      rw [resetWork, resetWork, if_pos hdue, if_pos hdue₂]
    · rw [h.work (Bool.not_eq_true _ ▸ hdue)]
  rw [MessageAssembly.messageByte, hreset, MessageAssembly.messageByte]

/-- What EOF publishes is the same, unless the work area is due for a reset. -/
theorem published (h : m₁.Alike W m₂) (hW : W ∨ m₁.workNeedReset = false) :
    m₁.msgWork = m₂.msgWork ∧ m₁.blinkWork = m₂.blinkWork := by
  rcases hW with hW | hdue
  · exact h.text hW
  · rw [h.work hdue]
    exact ⟨rfl, rfl⟩

/-- The assemblies after EOF in the message state. -/
theorem classify (h : m₁.Alike W m₂) (hW : W ∨ m₁.workNeedReset = false) :
    MessageAssembly.Alike W { m₁.classify with workNeedReset := true }
      { m₂.classify with workNeedReset := true } := by
  obtain ⟨htext, hblink⟩ := h.published hW
  have hflags : m₁.classify.corruptMsg = m₂.classify.corruptMsg ∧
      m₁.classify.menuMsg = m₂.classify.menuMsg ∧
      m₁.classify.validReading = m₂.classify.validReading := by
    simp only [MessageAssembly.classify, h.corrupt, htext]
    split
    · exact ⟨h.corrupt, h.menu, h.valid⟩
    split
    · exact ⟨rfl, h.menu, rfl⟩
    split
    · exact ⟨rfl, rfl, h.valid⟩
    split
    · exact ⟨h.corrupt, h.menu, h.valid⟩
    · exact ⟨rfl, h.menu, h.valid⟩
  obtain ⟨hcorrupt, hmenu, hvalid⟩ := hflags
  refine ⟨rfl, hcorrupt, hmenu, hvalid, fun hdue => absurd hdue (by simp), fun _ => ?_⟩
  simp [htext, hblink]

end MessageAssembly.Alike

/-! ## The front -/

/-- The same SHIFT window; when it started counts only while it is open. -/
structure ShiftWindow.Alike (s₁ s₂ : ShiftWindow) : Prop where
  active : s₁.active = s₂.active
  pressCount : s₁.pressCount = s₂.pressCount
  startUs : s₁.active = true → s₁.startUs = s₂.startUs

/-- What is on display, and the SHIFT window behind its annunciator. -/
structure FrontAlike (c₁ c₂ : DmmContext) : Prop where
  main : c₁.main = c₂.main
  annState : c₁.annState = c₂.annState
  blinkMask : c₁.blinkMask = c₂.blinkMask
  shift : c₁.shift.Alike c₂.shift

namespace FrontAlike

variable {c₁ c₂ : DmmContext}

theorem tick (h : FrontAlike c₁ c₂) (now_us : UInt32) :
    FrontAlike (processShiftWindow c₁ now_us) (processShiftWindow c₂ now_us) := by
  rw [processShiftWindow, processShiftWindow, ← h.shift.active]
  by_cases hactive : c₁.shift.active = true
  · simp only [hactive, Bool.not_true, Bool.false_eq_true, if_false, ← h.shift.startUs hactive,
      ← h.shift.pressCount]
    by_cases hover : now_us - c₁.shift.startUs > 300000
    · simp only [if_pos hover]
      refine ⟨?_, ?_, ?_, ⟨rfl, rfl, fun h => absurd h (by simp)⟩⟩
      · split
        · exact h.main
        · exact h.main
      · split
        · exact congrArg (· ^^^ 0x0800) h.annState
        · exact h.annState
      · split
        · exact h.blinkMask
        · exact h.blinkMask
    · simp only [if_neg hover]
      exact h
  · simp only [hactive, Bool.not_false, if_true]
    exact h

theorem publishAnnunciators (h : FrontAlike c₁ c₂) (hi lo : UInt8) :
    FrontAlike (publishAnnunciators c₁ hi lo) (LcdPico.publishAnnunciators c₂ hi lo) := by
  rw [LcdPico.publishAnnunciators, LcdPico.publishAnnunciators, ← h.annState]
  split
  · exact ⟨h.main, rfl, h.blinkMask, h.shift⟩
  · exact h

theorem decodeControlFrame (h : FrontAlike c₁ c₂) (hbuf : c₁.buf.Agree c₂.buf) :
    FrontAlike (decodeControlFrame c₁) (LcdPico.decodeControlFrame c₂) := by
  rw [LcdPico.decodeControlFrame, LcdPico.decodeControlFrame, ← hbuf.len]
  by_cases hshort : c₁.buf.bufLen < 2
  · rw [if_pos hshort, if_pos hshort]
    exact h
  · rw [if_neg hshort, if_neg hshort, hbuf.input 0 (by omega), hbuf.input 1 (by omega)]
    simp only
    split
    · exact ⟨h.main, h.annState, rfl, h.shift⟩
    · exact h

theorem decodeButton (h : FrontAlike c₁ c₂) (hbuf : c₁.buf.Agree c₂.buf)
    (hlen : 3 ≤ c₁.buf.bufLen) (now_us : UInt32) :
    FrontAlike (decodeButton c₁ now_us) (LcdPico.decodeButton c₂ now_us) := by
  have hcode : buttonCode c₁.buf = buttonCode c₂.buf := by
    rw [buttonCode, buttonCode, hbuf.output 0 (by omega), hbuf.output 1 (by omega),
      hbuf.output 2 (by omega)]
  rw [LcdPico.decodeButton, LcdPico.decodeButton, hcode, ← h.shift.active]
  split
  · split
    · exact ⟨h.main, h.annState, h.blinkMask, ⟨rfl, rfl, fun _ => rfl⟩⟩
    · exact ⟨h.main, h.annState, h.blinkMask,
        ⟨h.shift.active, congrArg (· + 1) h.shift.pressCount, fun _ => rfl⟩⟩
  · simp only [← h.annState]
    split
    · exact ⟨h.main, rfl, h.blinkMask, ⟨rfl, rfl, fun h => absurd h (by simp)⟩⟩
    · exact ⟨h.main, rfl, h.blinkMask, ⟨rfl, rfl, fun h => absurd h (by simp)⟩⟩

theorem publishMessage (h : FrontAlike c₁ c₂) (hmain : c₁.msg.msgWork = c₂.msg.msgWork)
    (hblink : c₁.msg.blinkWork = c₂.msg.blinkWork) (now_us : UInt32) :
    FrontAlike (publishMessage c₁ now_us) (LcdPico.publishMessage c₂ now_us) := by
  refine ⟨?_, ?_, ?_, ?_⟩
  · simp [LcdPico.publishMessage, hmain]
  · simp [LcdPico.publishMessage, h.annState]
  · simp [LcdPico.publishMessage, hblink]
  · simp [LcdPico.publishMessage, h.shift]

theorem endFrame (h : FrontAlike c₁ c₂) : FrontAlike c₁.endFrame c₂.endFrame :=
  ⟨h.main, h.annState, h.blinkMask, h.shift⟩

theorem overflowGuard (h : FrontAlike c₁ c₂) (hlen : c₁.buf.bufLen = c₂.buf.bufLen) :
    FrontAlike (overflowGuard c₁) (LcdPico.overflowGuard c₂) := by
  rw [LcdPico.overflowGuard, LcdPico.overflowGuard, ← hlen]
  split
  · exact ⟨h.main, h.annState, h.blinkMask, h.shift⟩
  · exact h

/-- `switch (ctx->frame_state)`, on two contexts that have collected the same
pairs. -/
theorem dispatch (h : FrontAlike c₁ c₂) (hbuf : c₁.buf.Agree c₂.buf) {W : Prop}
    (hmsg : c₁.msg.Alike W c₂.msg)
    (hW : c₁.buf.frameState = .message → c₁.buf.lastBytesAreEof = true →
      W ∨ c₁.msg.workNeedReset = false) (now_us : UInt32) :
    FrontAlike (dispatch c₁ now_us).1 (LcdPico.dispatch c₂ now_us).1 := by
  have heof := hbuf.eof
  rw [LcdPico.dispatch, LcdPico.dispatch, ← hbuf.state]
  cases hstate : c₁.buf.frameState with
  | init =>
    simp only [frameInit, ← heof]
    split
    · exact h.endFrame
    · exact h
  | unknown =>
    exact ⟨h.main, h.annState, h.blinkMask, h.shift⟩
  | message =>
    simp only [frameMessage, ← heof]
    split
    · rename_i heof₁
      obtain ⟨htext, hblink⟩ := hmsg.published (hW hstate heof₁)
      exact (h.publishMessage htext hblink now_us).endFrame
    · exact ⟨h.main, h.annState, h.blinkMask, h.shift⟩
  | annunciators =>
    simp only [frameAnnunciators, ← heof, ← hbuf.len]
    split
    · split
      · rename_i hfour
        rw [hbuf.input 3 (by omega), hbuf.input 2 (by omega)]
        exact (h.publishAnnunciators _ _).endFrame
      · exact h.endFrame
    · exact h
  | control =>
    simp only [frameControl, ← heof]
    split
    · exact (h.decodeControlFrame hbuf).endFrame
    · exact h
  | button =>
    simp only [frameButton, ← heof, ← hbuf.len]
    split
    · exact h.endFrame
    -- the last pair is only looked at in a buffer that is not empty
    rcases Nat.lt_or_ge 0 c₁.buf.bufLen with hpos | hzero
    · rw [hbuf.input _ (Nat.sub_lt hpos Nat.one_pos)]
      split
      · split
        · rename_i hthree
          exact (h.decodeButton hbuf hthree now_us).endFrame
        · exact h.endFrame
      · exact h
    · rw [if_neg (by omega), if_neg (by omega)]
      exact h

end FrontAlike

/-! ## Two decoders after the reset -/

/-- Two contexts in which everything shown from now on is the same. -/
structure Alike (W : Prop) (c₁ c₂ : DmmContext) : Prop where
  buf : c₁.buf.Agree c₂.buf
  room : c₁.buf.bufLen < INPUT_BUF_SIZE
  msg : c₁.msg.Alike W c₂.msg
  front : FrontAlike c₁ c₂

/-- The step does not end a message while the work area is due for a reset. -/
def NoStaleEof (c : DmmContext) : Event → Prop
  | .pair p _ =>
    ¬ (p = eofPair ∧ c.buf.frameState = .message ∧ c.msg.workNeedReset = true)
  | _ => True

theorem Alike.pair {W : Prop} {c₁ c₂ : DmmContext} (h : Alike W c₁ c₂) {p : SniffByte}
    {t : Clock} (hC : W ∨ NoStaleEof c₁ (.pair p t)) :
    Alike W (processPair c₁ p t).1 (processPair c₂ p t).1 := by
  have hroom₂ : c₂.buf.bufLen < INPUT_BUF_SIZE := h.buf.len ▸ h.room
  have hstore := h.buf.store h.room p
  -- EOF in the message state publishes the same
  have hW (hstate : c₁.buf.frameState = .message) (hp : p = eofPair) :
      W ∨ c₁.msg.workNeedReset = false := by
    refine hC.imp_right fun hno => ?_
    by_contra hdue
    exact hno ⟨hp, hstate, by simpa using hdue⟩
  refine ⟨?_, ?_, ?_, ?_⟩
  · rw [processPair_buf, processPair_buf]
    exact hstore.next.guarded
  · rw [processPair_buf]
    exact FrameBuffers.guarded_len _
  · rw [processPair_msg, processPair_msg, ← h.buf.state, ← hstore.eof,
      store_last_input h.room, store_last_input hroom₂]
    split
    · rename_i hstate
      split
      · rename_i heof
        exact h.msg.classify (hW hstate ((store_eof_iff h.room p).mp heof))
      · rw [h.msg.messageByte]
        exact MessageAssembly.Alike.refl _
    · exact h.msg
  · have hfront : FrontAlike { c₁ with dbg := anyByteTiming c₁.dbg t.any, buf := c₁.buf.store p }
        { c₂ with dbg := anyByteTiming c₂.dbg t.any, buf := c₂.buf.store p } :=
      ⟨h.front.main, h.front.annState, h.front.blinkMask, h.front.shift⟩
    have hdispatch := hfront.dispatch hstore h.msg
      (fun hstate heof => hW hstate ((store_eof_iff h.room p).mp heof)) t.frame
    refine hdispatch.overflowGuard ?_
    rw [dispatch_buf, dispatch_buf]
    exact hstore.next.len

theorem Alike.step {W : Prop} {c₁ c₂ : DmmContext} (h : Alike W c₁ c₂) {e : Event}
    (hC : W ∨ NoStaleEof c₁ e) : Alike W (c₁.step e) (c₂.step e) := by
  cases e with
  | pair p t => exact h.pair hC
  | tick now_us =>
    refine ⟨?_, ?_, ?_, h.front.tick now_us⟩
    · rw [DmmContext.step, DmmContext.step, processShiftWindow_buf, processShiftWindow_buf]
      exact h.buf
    · rw [DmmContext.step, processShiftWindow_buf]
      exact h.room
    · rw [DmmContext.step, DmmContext.step, processShiftWindow_msg, processShiftWindow_msg]
      exact h.msg
  | reset =>
    exact ⟨h.buf, h.room, ⟨rfl, rfl, rfl, rfl, fun hdue => Bool.noConfusion hdue, h.msg.text⟩,
      ⟨rfl, rfl, rfl, ⟨rfl, rfl, fun hactive => Bool.noConfusion hactive⟩⟩⟩
  | interrupt sniff dbg =>
    exact ⟨h.buf, h.room, h.msg, ⟨h.front.main, h.front.annState, h.front.blinkMask,
      h.front.shift⟩⟩

/-! ## Main results -/

/-- What is compared after a fresh start. -/
structure Observed where
  main : DisplayBuf
  annState : UInt16
  blinkMask : UInt16
  corruptMsg : Bool
  menuMsg : Bool
  validReading : Bool
deriving DecidableEq

def DmmContext.observed (c : DmmContext) : Observed :=
  { main := c.main
    annState := c.annState
    blinkMask := c.blinkMask
    corruptMsg := c.msg.corruptMsg
    menuMsg := c.msg.menuMsg
    validReading := c.msg.validReading }

theorem Alike.observed {W : Prop} {c₁ c₂ : DmmContext} (h : Alike W c₁ c₂) :
    c₁.observed = c₂.observed := by
  simp only [DmmContext.observed, h.front.main, h.front.annState, h.front.blinkMask,
    h.msg.corrupt, h.msg.menu, h.msg.valid]

/-- A reset is signalled, and the FIFO is empty. -/
structure DmmContext.ResetPending (c : DmmContext) : Prop where
  empty : c.sniff.fifoRd = c.sniff.fifoWr
  signalled : c.sniff.resetReceived = true

@[simp] theorem processShiftWindow_sniff (c : DmmContext) (now_us : UInt32) :
    (processShiftWindow c now_us).sniff = c.sniff := by
  simp only [processShiftWindow]
  repeat' split <;> try rfl

/-- The call that handles the reset does nothing else. -/
theorem decoder34401Process_of_resetPending {c : DmmContext} (h : c.ResetPending)
    (clk : ProcessClock) :
    ∃ dbg, decoder34401Process c clk =
      { processReset (processShiftWindow c clk.shift) with dbg := dbg } := by
  have hloop : processLoop BYTE_FIFO_SIZE (processShiftWindow c clk.shift) clk.pair =
      processReset (processShiftWindow c clk.shift) := by
    rw [BYTE_FIFO_SIZE, processLoop, if_pos (by rw [processShiftWindow_sniff]; exact h.signalled)]
  exact ⟨_, by rw [decoder34401Process, hloop]⟩

/-- Handling the reset makes two contexts alike that have collected the same pairs. -/
theorem alike_of_resetPending {c₁ c₂ : DmmContext} (hbuf : c₁.buf.Agree c₂.buf)
    (hroom : c₁.buf.bufLen < INPUT_BUF_SIZE) (h₁ : c₁.ResetPending) (h₂ : c₂.ResetPending)
    (clk₁ clk₂ : ProcessClock) :
    Alike (c₁.msg.msgWork = c₂.msg.msgWork ∧ c₁.msg.blinkWork = c₂.msg.blinkWork)
      (decoder34401Process c₁ clk₁) (decoder34401Process c₂ clk₂) := by
  obtain ⟨dbg₁, hc₁⟩ := decoder34401Process_of_resetPending h₁ clk₁
  obtain ⟨dbg₂, hc₂⟩ := decoder34401Process_of_resetPending h₂ clk₂
  rw [hc₁, hc₂]
  refine ⟨?_, ?_, ⟨rfl, rfl, rfl, rfl, fun hdue => Bool.noConfusion hdue, ?_⟩,
    ⟨rfl, rfl, rfl, ⟨rfl, rfl, fun hactive => Bool.noConfusion hactive⟩⟩⟩
  · rw [processReset_buf, processReset_buf, processShiftWindow_buf, processShiftWindow_buf]
    exact hbuf
  · rw [processReset_buf, processShiftWindow_buf]
    exact hroom
  · intro hwork
    simp only [processReset, processShiftWindow_msg]
    exact hwork

/-- **A reset makes a fresh start** when the two contexts have collected the same
pairs in the same parser state, and, unless their work areas agree as well, no
message ends while the work area is still due for its reset. -/
theorem reset_fresh_start {c₁ c₂ : DmmContext} (h₁ : c₁.Reachable) (h₂ : c₂.Reachable)
    (hr₁ : c₁.ResetPending) (hr₂ : c₂.ResetPending) (clk₁ clk₂ : ProcessClock)
    (hstate : c₁.buf.frameState = c₂.buf.frameState) (hpairs : c₁.buf.pairs = c₂.buf.pairs)
    (es : List Event)
    (hwork : (c₁.msg.msgWork = c₂.msg.msgWork ∧ c₁.msg.blinkWork = c₂.msg.blinkWork) ∨
      Machine.Within DmmContext.step NoStaleEof (decoder34401Process c₁ clk₁) es) :
    (Machine.run DmmContext.step (decoder34401Process c₁ clk₁) es).observed =
      (Machine.run DmmContext.step (decoder34401Process c₂ clk₂) es).observed := by
  have hbuf := FrameBuffers.Agree.of_pairs (Nat.le_of_lt h₁.len) (Nat.le_of_lt h₂.len) hstate
    hpairs
  have halike := alike_of_resetPending hbuf h₁.len hr₁ hr₂ clk₁ clk₂
  have hrun := Machine.run_related (fun _ _ _ h hC => h.step hC) halike
    (Machine.within_or hwork)
  exact hrun.observed

instance : ∀ (c : DmmContext) (e : Event), Decidable (NoStaleEof c e)
  | _, .pair _ _ => inferInstanceAs (Decidable (¬ _))
  | _, .tick _ => inferInstanceAs (Decidable True)
  | _, .reset => inferInstanceAs (Decidable True)
  | _, .interrupt _ _ => inferInstanceAs (Decidable True)

/-- `decoder34401Reset` after the pairs `ps` from power-up. -/
def resetAfter (ps : List SniffByte) : DmmContext := decoder34401Reset (after ps) 0

theorem resetAfter_reachable (ps : List SniffByte) : (resetAfter ps).Reachable := by
  rw [resetAfter, decoder34401Reset_eq_step]
  exact Machine.Reachable.step (Event.interrupt _ _) (after_reachable ps)

/-- All clocks at 0. -/
def noTime : ProcessClock := ⟨0, 0, fun _ => ⟨0, 0⟩, 0⟩

/-- A message header and the character A. -/
def openMessage : List SniffByte := [⟨0x00, 0x00⟩, ⟨0x7f, 0x00⟩, ⟨0x41, 0x00⟩]

/-- Two resets at a boundary, one of them after a message. -/
theorem reset_fresh_start_boundary :
    let c₁ := resetAfter [eofPair]
    let c₂ := resetAfter (eofPair :: openMessage ++ [eofPair])
    let es := deliver (openMessage ++ [eofPair])
    (Machine.run DmmContext.step (decoder34401Process c₁ noTime) es).observed =
      (Machine.run DmmContext.step (decoder34401Process c₂ noTime) es).observed := by
  refine reset_fresh_start (resetAfter_reachable _) (resetAfter_reachable _) ⟨by decide, by decide⟩
    ⟨by decide, by decide⟩ noTime noTime (by decide) (by decide) _ (.inr ?_)
  exact ⟨by decide, by decide, by decide, by decide, trivial⟩

/-- The message cut short by the reset is displayed after it. -/
theorem reset_shows_old_message :
    let c₁ := resetAfter [eofPair]
    let c₂ := resetAfter (eofPair :: openMessage)
    (c₁.Reachable ∧ c₁.ResetPending) ∧ (c₂.Reachable ∧ c₂.ResetPending) ∧
    (Machine.run DmmContext.step (decoder34401Process c₁ noTime) (deliver [eofPair])).main =
      displayText (bytes "SYSTEM RESET  ") ∧
    (Machine.run DmmContext.step (decoder34401Process c₂ noTime) (deliver [eofPair])).main =
      displayText (bytes "A             ") ∧
    ¬ ∀ c₁ c₂ : DmmContext, c₁.Reachable → c₂.Reachable → c₁.ResetPending → c₂.ResetPending →
      ∀ (clk₁ clk₂ : ProcessClock) (es : List Event),
        (Machine.run DmmContext.step (decoder34401Process c₁ clk₁) es).observed =
          (Machine.run DmmContext.step (decoder34401Process c₂ clk₂) es).observed := by
  have hr₁ : (resetAfter [eofPair]).ResetPending := ⟨by decide, by decide⟩
  have hr₂ : (resetAfter (eofPair :: openMessage)).ResetPending := ⟨by decide, by decide⟩
  have hmain₁ : (Machine.run DmmContext.step (decoder34401Process (resetAfter [eofPair]) noTime)
      (deliver [eofPair])).main = displayText (bytes "SYSTEM RESET  ") := by decide
  have hmain₂ : (Machine.run DmmContext.step
      (decoder34401Process (resetAfter (eofPair :: openMessage)) noTime)
      (deliver [eofPair])).main = displayText (bytes "A             ") := by decide
  refine ⟨⟨resetAfter_reachable _, hr₁⟩, ⟨resetAfter_reachable _, hr₂⟩, hmain₁, hmain₂, ?_⟩
  intro h
  have hobs := h _ _ (resetAfter_reachable _) (resetAfter_reachable _) hr₁ hr₂ noTime noTime
    (deliver [eofPair])
  have hmain := congrArg Observed.main hobs
  simp only [DmmContext.observed, hmain₁, hmain₂] at hmain
  exact absurd hmain (by decide)

end LcdPico
