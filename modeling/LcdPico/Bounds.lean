import Mathlib.Algebra.Order.GroupWithZero.Basic
import Mathlib.Algebra.Order.Ring.Int
import LcdPico.MessageFlags
import LcdPico.Signals

/-!
# Bounds of the decoder's fields

What every context of the decoder's history keeps within bounds: the lengths and
indices that select an element of a buffer (`buf_len`, `msg_idx`), the NUL at the
end of each text, the blink masks, which number fifteen characters, and the bar
graph, which is read off at most four digits.
-/

namespace LcdPico

/-! ## The message assembly -/

namespace MessageAssembly

/-- At most fifteen characters are written, and one before them may blink. -/
structure Bounded (m : MessageAssembly) : Prop where
  idx : m.msgIdx ≤ DISPLAY_BUF_LEN - 1
  blink : m.blinkWork.toNat < 2 ^ 15

variable {m : MessageAssembly}

theorem Bounded.dmmPutcSafe (h : m.Bounded) (c : UInt8) : (m.dmmPutcSafe c).Bounded := by
  rw [MessageAssembly.dmmPutcSafe]
  split
  · exact h
  · rename_i hidx
    have hnext : m.msgIdx + 1 ≤ DISPLAY_BUF_LEN - 1 := by omega
    dsimp only
    split
    · exact ⟨hnext, h.blink⟩
    split
    · exact ⟨hnext, h.blink⟩
    · exact ⟨hnext, h.blink⟩

/-- The bit of the last character written. -/
theorem Bounded.mark (h : m.Bounded) (hpos : 0 < m.msgIdx) :
    (m.blinkWork ||| UInt16.ofNat (1 <<< (m.msgIdx - 1))).toNat < 2 ^ 15 := by
  have hidx : m.msgIdx - 1 < 15 := by
    have := h.idx
    simp only [DISPLAY_BUF_LEN] at this
    omega
  have hbit : 1 <<< (m.msgIdx - 1) < 2 ^ 15 := by
    rw [Nat.one_shiftLeft]
    exact Nat.pow_lt_pow_right (by decide) hidx
  rw [UInt16.toNat_or, UInt16.toNat_ofNat', Nat.mod_eq_of_lt (Nat.lt_trans hbit (by decide))]
  exact Nat.or_lt_two_pow h.blink hbit

theorem Bounded.putByte (h : m.Bounded) (byte : UInt8) : (m.putByte byte).Bounded := by
  rw [MessageAssembly.putByte]
  split
  · exact h.dmmPutcSafe _
  split
  · exact h.dmmPutcSafe _
  split
  · dsimp only
    apply Bounded.dmmPutcSafe
    split
    · rename_i hpos
      exact ⟨h.idx, h.mark hpos⟩
    · exact h
  split
  · exact h.dmmPutcSafe _
  split
  · exact h
  split
  · exact h
  · exact h.dmmPutcSafe _

theorem Bounded.messageByte (h : m.Bounded) (byte : UInt8) : (m.messageByte byte).Bounded := by
  rw [MessageAssembly.messageByte]
  apply Bounded.putByte
  rw [resetWork]
  split
  · exact ⟨by decide, by decide⟩
  · exact h

theorem Bounded.classify (h : m.Bounded) : m.classify.Bounded := by
  rw [MessageAssembly.classify]
  split_ifs
  · exact h
  · exact ⟨h.idx, h.blink⟩
  · exact ⟨h.idx, h.blink⟩
  · exact h
  · exact ⟨h.idx, h.blink⟩

end MessageAssembly

/-! ## The bar graph -/

/-- After `cnt` digits the value has `cnt` digits. -/
theorem barScan_bounds (inputBuf : CArray UInt8 INPUT_BUF_SIZE) (limit k : Nat)
    {cnt : Nat} {v : Int} (hcnt : cnt ≤ limit) (h0 : 0 ≤ v) (hv : v < 10 ^ cnt) :
    0 ≤ barScan inputBuf limit k cnt v ∧ barScan inputBuf limit k cnt v < 10 ^ limit := by
  have hstop : v < 10 ^ limit := lt_of_lt_of_le hv (pow_le_pow_right₀ (by decide) hcnt)
  induction k generalizing cnt v with
  | zero => exact ⟨h0, hstop⟩
  | succ k ih =>
    rw [barScan]
    split
    · rename_i hlt
      split
      · rename_i hd
        obtain ⟨hlo, hhi⟩ := isdigit_toNat hd
        have hnext : 10 * v + ((inputBuf.rd (8 - (k + 1))).toNat - 0x30) < 10 ^ (cnt + 1) := by
          rw [Int.pow_succ]
          omega
        exact ih hlt (by omega) hnext
          (lt_of_lt_of_le hnext (pow_le_pow_right₀ (by decide) hlt))
      · exact ih hcnt h0 hv hstop
    · exact ⟨h0, hstop⟩

/-- Four digits, or three with a sign. -/
theorem barReading_bounds (inputBuf : CArray UInt8 INPUT_BUF_SIZE) :
    -999 ≤ (barReading inputBuf).2 ∧ (barReading inputBuf).2 ≤ 9999 := by
  obtain ⟨h4, h4'⟩ := barScan_bounds inputBuf 4 6 (Nat.zero_le 4) (le_refl 0)
    (by decide)
  obtain ⟨h3, h3'⟩ := barScan_bounds inputBuf 3 5 (Nat.zero_le 3) (le_refl 0)
    (by decide)
  simp only [barReading]
  split
  · constructor
    · exact le_trans (by decide) h4
    · exact Int.le_of_lt_add_one h4'
  · dsimp only
    split
    · constructor
      · omega
      · omega
    · constructor
      · omega
      · omega

/-! ## The published fields -/

/-- A control frame makes one of twelve characters blink. -/
theorem controlBlink_lt {cmd : UInt16} {i : Nat} (h : controlBlink.lookup cmd = some i) :
    i < 12 := by
  have hall : ∀ e ∈ controlBlink, e.2 < 12 := by decide
  obtain ⟨l₁, l₂, hsplit, -⟩ := List.lookup_eq_some_iff.mp h
  exact hall (cmd, i) (by rw [hsplit]; exact List.mem_append_right _ (List.mem_cons_self ..))

/-- What is published stays within bounds. -/
structure Published.Bounded (v : Published) : Prop where
  nul : v.lastReading.rd 15 = 0
  blink : v.blinkMask.toNat < 2 ^ 15
  bar : -999 ≤ v.bar ∧ v.bar ≤ 9999

namespace Published.Bounded

variable {c : DmmContext}

theorem publishMessage (h : c.published.Bounded) (hm : c.msg.Bounded)
    (htext : IsDisplayText c.msg.msgWork) (now_us : UInt32) :
    (LcdPico.publishMessage c now_us).published.Bounded := by
  refine ⟨?_, ?_, ?_⟩
  · simp only [LcdPico.publishMessage, DmmContext.published,
      updateBarGraphFromMessageFrame_lastReading, classify_msgWork]
    split
    · exact htext.nul
    · exact h.nul
  · simp only [LcdPico.publishMessage, DmmContext.published,
      updateBarGraphFromMessageFrame_blinkMask, classify_blinkWork]
    exact hm.blink
  · simp only [LcdPico.publishMessage, DmmContext.published, updateBarGraphFromMessageFrame_bar]
    exact barReading_bounds _

theorem publishAnnunciators (h : c.published.Bounded) (hi lo : UInt8) :
    (LcdPico.publishAnnunciators c hi lo).published.Bounded := by
  simp only [LcdPico.publishAnnunciators]
  split
  · exact ⟨h.nul, h.blink, h.bar⟩
  · exact h

theorem decodeControlFrame (h : c.published.Bounded) :
    (LcdPico.decodeControlFrame c).published.Bounded := by
  simp only [LcdPico.decodeControlFrame]
  split
  · exact h
  split
  · rename_i i hi
    refine ⟨h.nul, ?_, h.bar⟩
    have hpow : 2 ^ i < 2 ^ 15 :=
      Nat.pow_lt_pow_right (by decide) (Nat.lt_trans (controlBlink_lt hi) (by decide))
    simp only [DmmContext.published, Nat.one_shiftLeft, UInt16.toNat_ofNat']
    rwa [Nat.mod_eq_of_lt (Nat.lt_trans hpow (by decide))]
  · exact h

theorem decodeButton (h : c.published.Bounded) (now_us : UInt32) :
    (LcdPico.decodeButton c now_us).published.Bounded := by
  simp only [LcdPico.decodeButton]
  split_ifs
  · exact h
  · exact h
  · exact ⟨h.nul, h.blink, h.bar⟩
  · exact h

theorem processShiftWindow (h : c.published.Bounded) (now_us : UInt32) :
    (LcdPico.processShiftWindow c now_us).published.Bounded := by
  simp only [LcdPico.processShiftWindow]
  split_ifs
  · exact h
  · exact ⟨h.nul, h.blink, h.bar⟩
  · exact h
  · exact h

theorem actOn (h : c.published.Bounded) (hm : c.msg.Bounded)
    (htext : IsDisplayText c.msg.msgWork) (now_us : UInt32) (f : Option Frame) :
    (c.actOn now_us f).published.Bounded := by
  cases f with
  | none => exact h
  | some f =>
    simp only [DmmContext.actOn]
    split
    · exact h.publishMessage hm htext now_us
    · exact h.publishAnnunciators _ _
    · exact h.decodeControlFrame
    · exact h.decodeButton now_us

end Published.Bounded

/-! ## Every context of the history -/

/-- The fields within their bounds. -/
structure DmmContext.Bounded (c : DmmContext) : Prop where
  msg : c.msg.Bounded
  published : c.published.Bounded

theorem DmmContext.Bounded.step {c : DmmContext} (h : c.Bounded) (htexts : c.HoldsTexts)
    (e : Event) : (c.step e).Bounded := by
  cases e with
  | pair p t =>
    refine ⟨?_, ?_⟩
    · rw [DmmContext.step, processPair_msg]
      split
      · split
        · exact ⟨h.msg.classify.idx, h.msg.classify.blink⟩
        · exact h.msg.messageByte _
      · exact h.msg
    · rw [DmmContext.step, processPair_published]
      exact Published.Bounded.actOn (c := c.collect p t) h.published h.msg htexts.work _ _
  | tick now_us =>
    refine ⟨?_, h.published.processShiftWindow now_us⟩
    rw [DmmContext.step, processShiftWindow_msg]
    exact h.msg
  | reset =>
    have hzero : (0 : UInt16).toNat < 2 ^ 15 := by decide
    exact ⟨⟨h.msg.idx, h.msg.blink⟩, h.published.nul, hzero, h.published.bar⟩
  | interrupt sniff dbg => exact ⟨h.msg, h.published⟩

theorem DmmContext.Reachable.bounded {c : DmmContext} (h : c.Reachable) : c.Bounded := by
  have hinv : c.HoldsTexts ∧ c.Bounded := by
    refine Machine.Reachable.invariant (P := fun c : DmmContext => c.HoldsTexts ∧ c.Bounded) ?_
      (fun c e hc => ⟨hc.1.step e, hc.2.step hc.1 e⟩) h
    rintro _ rfl
    exact ⟨⟨isDisplayText_blankText, isDisplayText_blankText⟩, ⟨by decide, by decide⟩,
      by decide, by decide, by decide⟩
  exact hinv.2

end LcdPico
