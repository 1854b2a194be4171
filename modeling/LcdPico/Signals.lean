import LcdPico.DecoderStep

/-!
# Changes and their counters

The display loop redraws on counters alone, so a published field may change only
together with its counter. `DmmContext.published` is what a reader of the decoder
sees; `actOn` is what each kind of frame does to it, and `processPair_eq` says that
a byte pair does nothing else: all the rest of `processPair` is bookkeeping of the
parser, the message assembly and the debug fields.
-/

namespace LcdPico

/-- The published fields of `dmm_context_t`, with their counters. -/
structure Published where
  main : DisplayBuf
  lastReading : DisplayBuf
  annState : UInt16
  bar : Int
  barStyle : UInt8
  blinkMask : UInt16
  newDataCounter : UInt32
  mainCounter : UInt32
  annCounter : UInt32
  barCounter : UInt32

def DmmContext.published (c : DmmContext) : Published :=
  { main := c.main
    lastReading := c.lastReading
    annState := c.annState
    bar := c.bar
    barStyle := c.barStyle
    blinkMask := c.blinkMask
    newDataCounter := c.newDataCounter
    mainCounter := c.mainCounter
    annCounter := c.annCounter
    barCounter := c.barCounter }

/-! ## One frame at a time -/

/-- The context when a byte pair has been stored. -/
def DmmContext.collect (c : DmmContext) (p : SniffByte) (t : Clock) : DmmContext :=
  { c with dbg := anyByteTiming c.dbg t.any, buf := c.buf.store p }

/-- What a frame does when it is acted upon. -/
def DmmContext.actOn (c : DmmContext) (now_us : UInt32) : Option Frame → DmmContext
  | none => c
  | some f =>
    match f.kind with
    | .message => publishMessage c now_us
    | .annunciators => publishAnnunciators c (c.buf.inputBuf.rd 3) (c.buf.inputBuf.rd 2)
    | .control => decodeControlFrame c
    | .button => decodeButton c now_us

/-- The frame state only decides which frame is acted upon. -/
theorem dispatch_eq (c : DmmContext) (now_us : UInt32) :
    ∃ buf msg, (dispatch c now_us).1 =
      { c.actOn now_us (dispatch c now_us).2 with buf := buf, msg := msg } := by
  cases hs : c.buf.frameState with
  | init =>
    simp only [dispatch, hs, frameInit]
    split
    · exact ⟨_, _, rfl⟩
    · exact ⟨_, _, rfl⟩
  | unknown =>
    simp only [dispatch, hs]
    exact ⟨_, _, rfl⟩
  | message =>
    simp only [dispatch, hs, frameMessage]
    split
    · exact ⟨_, _, rfl⟩
    · exact ⟨_, _, rfl⟩
  | annunciators =>
    simp only [dispatch, hs, frameAnnunciators]
    split_ifs
    · exact ⟨_, _, rfl⟩
    · exact ⟨_, _, rfl⟩
    · exact ⟨_, _, rfl⟩
  | control =>
    simp only [dispatch, hs, frameControl]
    split
    · exact ⟨_, _, rfl⟩
    · exact ⟨_, _, rfl⟩
  | button =>
    simp only [dispatch, hs, frameButton]
    split_ifs
    · exact ⟨_, _, rfl⟩
    · exact ⟨_, _, rfl⟩
    · exact ⟨_, _, rfl⟩
    · exact ⟨_, _, rfl⟩

/-- A byte pair stores itself, and a frame it completes is acted upon. -/
theorem processPair_eq (c : DmmContext) (p : SniffByte) (t : Clock) :
    ∃ dbg buf msg, (processPair c p t).1 =
      { (c.collect p t).actOn t.frame (processPair c p t).2 with
        dbg := dbg, buf := buf, msg := msg } := by
  obtain ⟨buf, msg, hd⟩ := dispatch_eq (c.collect p t) t.frame
  simp only [processPair]
  simp only [DmmContext.collect] at hd ⊢
  rw [hd]
  simp only [overflowGuard]
  split
  · exact ⟨_, _, _, rfl⟩
  · exact ⟨_, _, _, rfl⟩

/-- What is published after a byte pair. -/
theorem processPair_published (c : DmmContext) (p : SniffByte) (t : Clock) :
    (processPair c p t).1.published =
      ((c.collect p t).actOn t.frame (processPair c p t).2).published := by
  obtain ⟨dbg, buf, msg, hc⟩ := processPair_eq c p t
  rw [hc]
  rfl

/-- The SHIFT window after a byte pair. -/
theorem processPair_shift (c : DmmContext) (p : SniffByte) (t : Clock) :
    (processPair c p t).1.shift =
      ((c.collect p t).actOn t.frame (processPair c p t).2).shift := by
  obtain ⟨dbg, buf, msg, hc⟩ := processPair_eq c p t
  rw [hc]

/-! ## Signals -/

/-- From `v` to `v'`, every field that changes moves its counters. -/
structure Published.Signalled (v v' : Published) : Prop where
  newData : v'.main ≠ v.main ∨ v'.lastReading ≠ v.lastReading ∨ v'.annState ≠ v.annState ∨
    v'.bar ≠ v.bar ∨ v'.barStyle ≠ v.barStyle ∨ v'.blinkMask ≠ v.blinkMask →
    v'.newDataCounter ≠ v.newDataCounter
  main : v'.main ≠ v.main ∨ v'.lastReading ≠ v.lastReading ∨ v'.blinkMask ≠ v.blinkMask →
    v'.mainCounter ≠ v.mainCounter
  ann : v'.annState ≠ v.annState → v'.annCounter ≠ v.annCounter
  bar : v'.bar ≠ v.bar ∨ v'.barStyle ≠ v.barStyle → v'.barCounter ≠ v.barCounter

theorem counter_add_one_ne (n : UInt32) : n + 1 ≠ n := by simp

/-- A message moves `new_data_counter` twice when it changes the bar graph too. -/
theorem counter_add_two_ne (n : UInt32) : n + 1 + 1 ≠ n := by
  rw [UInt32.add_assoc]
  simp

namespace Published.Signalled

/-- Nothing changes. -/
theorem refl (v : Published) : v.Signalled v := by
  refine ⟨fun h => ?_, fun h => ?_, fun h => ?_, fun h => ?_⟩ <;> simp at h

variable (c : DmmContext) (now_us : UInt32)

theorem processShiftWindow :
    c.published.Signalled (LcdPico.processShiftWindow c now_us).published := by
  simp only [LcdPico.processShiftWindow]
  split_ifs
  · exact refl _
  · -- an odd count of presses inverts the annunciator
    refine ⟨fun _ => counter_add_one_ne _, fun h => ?_, fun _ => counter_add_one_ne _,
      fun h => ?_⟩ <;> simp [DmmContext.published] at h
  · exact refl _
  · exact refl _

theorem publishAnnunciators (h l : UInt8) :
    c.published.Signalled (LcdPico.publishAnnunciators c h l).published := by
  simp only [LcdPico.publishAnnunciators]
  split
  · refine ⟨fun _ => counter_add_one_ne _, fun h => ?_, fun _ => counter_add_one_ne _,
      fun h => ?_⟩ <;> simp [DmmContext.published] at h
  · exact refl _

theorem decodeControlFrame :
    c.published.Signalled (LcdPico.decodeControlFrame c).published := by
  simp only [LcdPico.decodeControlFrame]
  split
  · exact refl _
  split
  · refine ⟨fun _ => counter_add_one_ne _, fun _ => counter_add_one_ne _, fun h => ?_,
      fun h => ?_⟩ <;> simp [DmmContext.published] at h
  · exact refl _

theorem decodeButton : c.published.Signalled (LcdPico.decodeButton c now_us).published := by
  simp only [LcdPico.decodeButton]
  split_ifs
  · exact refl _
  · exact refl _
  · -- another button clears the annunciator
    refine ⟨fun _ => counter_add_one_ne _, fun h => ?_, fun _ => counter_add_one_ne _,
      fun h => ?_⟩ <;> simp [DmmContext.published] at h
  · exact refl _

theorem publishMessage : c.published.Signalled (LcdPico.publishMessage c now_us).published := by
  simp only [LcdPico.publishMessage, updateBarGraphFromMessageFrame]
  split
  · refine ⟨fun _ => counter_add_two_ne _, fun _ => counter_add_one_ne _, fun h => ?_,
      fun _ => counter_add_one_ne _⟩
    simp [DmmContext.published] at h
  · refine ⟨fun _ => counter_add_one_ne _, fun _ => counter_add_one_ne _, fun h => ?_,
      fun h => ?_⟩ <;> simp [DmmContext.published] at h

theorem processReset : c.published.Signalled (LcdPico.processReset c).published := by
  refine ⟨fun _ => counter_add_one_ne _, fun _ => counter_add_one_ne _,
    fun _ => counter_add_one_ne _, fun h => ?_⟩
  simp [DmmContext.published, LcdPico.processReset] at h

/-- Every kind of frame signals what it changes. -/
theorem actOn (f : Option Frame) : c.published.Signalled (c.actOn now_us f).published := by
  cases f with
  | none => exact refl _
  | some f =>
    simp only [DmmContext.actOn]
    split
    · exact publishMessage c now_us
    · exact publishAnnunciators c _ _
    · exact decodeControlFrame c
    · exact decodeButton c now_us

end Published.Signalled

/-- **Every visible change is signalled**, by every step from every context. -/
theorem every_visible_change_signalled (c : DmmContext) (e : Event) :
    c.published.Signalled (c.step e).published := by
  cases e with
  | pair p t =>
    have hcollect : (c.collect p t).published = c.published := rfl
    rw [DmmContext.step, processPair_published, ← hcollect]
    exact .actOn _ _ _
  | tick now_us => exact .processShiftWindow c now_us
  | reset => exact .processReset c
  | interrupt sniff dbg => exact .refl _

end LcdPico
