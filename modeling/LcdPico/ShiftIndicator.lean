import LcdPico.Framing
import LcdPico.Signals

/-!
# The SHIFT indicator

The meter does not send the SHIFT annunciator; the decoder infers it from the
button frames. `ShiftKey` says what it infers, over numbers that do not wrap: an
indicator, and a window of presses that stays open while they come in quick
succession. A single press toggles the indicator when the window closes, two
presses cancel out, any other button ends it all.

The decoder keeps the count in 8 bits and the indicator as one bit of a word that
the annunciator frames write too. `Tracks` relates the two; each step keeps it
(`Tracks.step`), so the bit follows the presses over any history.
-/

namespace LcdPico

/-! ## What the indicator is for -/

/-- How long after a press the window stays open. -/
def SHIFT_WINDOW_US : UInt32 := 300000

/-- The indicator, and the open window: the time of the last press and the number
of presses since it opened. -/
structure ShiftKey where
  indicator : Bool
  window : Option (UInt32 × Nat)
deriving DecidableEq, Repr

/-- What the indicator depends on. -/
inductive ShiftInput where
  /-- a call of `decoder34401_process` begins -/
  | call (now_us : UInt32)
  /-- the SHIFT button is pressed -/
  | press (now_us : UInt32)
  /-- another button is pressed -/
  | otherButton
  /-- a reset is handled -/
  | reset
  /-- anything else -/
  | other
deriving DecidableEq, Repr

namespace ShiftKey

def init : ShiftKey := { indicator := false, window := none }

/-- The window closes when it has been quiet for long enough. -/
def close (s : ShiftKey) (now_us : UInt32) : ShiftKey :=
  match s.window with
  | none => s
  | some (last, n) =>
    if now_us - last > SHIFT_WINDOW_US then
      { indicator := if n % 2 = 1 then !s.indicator else s.indicator, window := none }
    else s

/-- Every press extends the window. -/
def press (s : ShiftKey) (now_us : UInt32) : ShiftKey :=
  match s.window with
  | none => { s with window := some (now_us, 1) }
  | some (_, n) => { s with window := some (now_us, n + 1) }

def next (s : ShiftKey) : ShiftInput → ShiftKey
  | .call now_us => s.close now_us
  | .press now_us => s.press now_us
  | .otherButton => init
  | .reset => init
  | .other => s

/-- After the inputs `is` from power-up. -/
def after (is : List ShiftInput) : ShiftKey := Machine.run next init is

/-- Two quick presses cancel out. -/
example : after [.press 10, .press 20, .call 400000] = init := by decide

end ShiftKey

/-! ## What the decoder sees of it -/

/-- The button code: the first three output bytes. -/
def Frame.buttonCode (f : Frame) : UInt32 :=
  ((f.pairs.getD 0 default).output.toUInt32 <<< 16) |||
    ((f.pairs.getD 1 default).output.toUInt32 <<< 8) ||| (f.pairs.getD 2 default).output.toUInt32

/-- A frame acted upon, as an input of the indicator. -/
def Frame.shiftInput (f : Frame) (now_us : UInt32) : ShiftInput :=
  match f.kind with
  | .button => if f.buttonCode = 7839183 then .press now_us else .otherButton
  | _ => .other

/-- A step of the decoder, as an input of the indicator: what a pair
completes is read off the pairs collected, not off what the decoder does with them. -/
def shiftInput (c : DmmContext) : Event → ShiftInput
  | .pair p t =>
    match (c.buf.store p).acts with
    | some f => f.shiftInput t.frame
    | none => .other
  | .tick now_us => .call now_us
  | .reset => .reset
  | .interrupt _ _ => .other

/-- The inputs of the indicator in a history from the context `c`. -/
def shiftInputs (c : DmmContext) (es : List Event) : List ShiftInput :=
  Machine.trace DmmContext.step (fun c e => [shiftInput c e]) c es

/-- Bit 11 of `ann_state`. -/
def DmmContext.shiftOn (c : DmmContext) : Bool := c.annState.toBitVec.getLsbD 11

/-! ## Bit 11 -/

/-- `ctx->ann_state ^= 0x0800u` -/
theorem bit11_xor (a : UInt16) :
    (a ^^^ 0x0800).toBitVec.getLsbD 11 = !a.toBitVec.getLsbD 11 := by
  simp

/-- The mask of `publishAnnunciators` keeps the bit it has. -/
theorem bit11_preserved (a s : UInt16) :
    ((s &&& 0xF7FF) ||| (a &&& 0x0800)).toBitVec.getLsbD 11 = a.toBitVec.getLsbD 11 := by
  simp

/-- `ctx->ann_state &= ~0x0800u` -/
theorem bit11_cleared (a : UInt16) : (a &&& ~~~0x0800).toBitVec.getLsbD 11 = false := by
  simp

theorem bit11_of_and_eq_zero {a : UInt16} (h : a &&& 0x0800 = 0) :
    a.toBitVec.getLsbD 11 = false := by
  have h11 := congrArg (fun b : UInt16 => b.toBitVec.getLsbD 11) h
  simpa using h11

/-- The 8-bit count has the parity of the number it counts. -/
theorem odd_ofNat (n : Nat) : (UInt8.ofNat n &&& 1 != 0) = decide (n % 2 = 1) := by
  have hand : (UInt8.ofNat n &&& 1).toNat = n % 2 := by
    rw [UInt8.toNat_and, UInt8.toNat_ofNat']
    exact (Nat.and_one_is_mod _).trans (Nat.mod_mod_of_dvd n (by decide))
  by_cases hn : n % 2 = 1
  · have hne : UInt8.ofNat n &&& 1 ≠ 0 := by
      intro h
      rw [h, hn] at hand
      cases hand
    simp [hn, hne]
  · have hz : UInt8.ofNat n &&& 1 = 0 := by
      apply UInt8.toNat_inj.mp
      rw [hand]
      exact Nat.mod_two_ne_one.mp hn
    simp [hn, hz]

/-! ## The handlers -/

section Handlers

variable (c : DmmContext) (now_us : UInt32)

theorem publishMessage_shift :
    (publishMessage c now_us).shift = c.shift ∧
      (publishMessage c now_us).shiftOn = c.shiftOn := by
  simp [publishMessage, DmmContext.shiftOn]

theorem publishAnnunciators_shift (h l : UInt8) :
    (publishAnnunciators c h l).shift = c.shift ∧
      (publishAnnunciators c h l).shiftOn = c.shiftOn := by
  simp only [publishAnnunciators]
  split
  · exact ⟨rfl, bit11_preserved _ _⟩
  · exact ⟨rfl, rfl⟩

theorem decodeControlFrame_shift :
    (decodeControlFrame c).shift = c.shift ∧ (decodeControlFrame c).shiftOn = c.shiftOn := by
  simp only [decodeControlFrame]
  split
  · exact ⟨rfl, rfl⟩
  · split
    · exact ⟨rfl, rfl⟩
    · exact ⟨rfl, rfl⟩

/-- Another button closes the window and clears the bit. -/
theorem decodeButton_other (h : buttonCode c.buf ≠ 7839183) :
    (decodeButton c now_us).shift.active = false ∧
      (decodeButton c now_us).shiftOn = false := by
  simp only [decodeButton, if_neg h]
  split
  · exact ⟨rfl, bit11_cleared _⟩
  · rename_i hbit
    exact ⟨rfl, bit11_of_and_eq_zero (by simpa using hbit)⟩

end Handlers

/-- The code is read off the pairs of the frame. -/
theorem buttonCode_pairs {b : FrameBuffers} (hle : b.bufLen ≤ INPUT_BUF_SIZE)
    (h3 : 3 ≤ b.bufLen) (k : FrameKind) : Frame.buttonCode ⟨k, b.pairs⟩ = buttonCode b := by
  have hout (i : Nat) (hi : i < 3) : (b.pairs.getD i default).output = b.outputBuf.rd i := by
    have hlen : i < (b.inputBuf.pre b.bufLen).length := by
      rw [CArray.length_pre]
      omega
    have hlen' : i < (b.outputBuf.pre b.bufLen).length := by
      rw [CArray.length_pre]
      omega
    have hpairs : i < b.pairs.length := by
      rw [FrameBuffers.pairs, List.length_zipWith]
      omega
    rw [CArray.rd_eq_getD_pre b.outputBuf (show i < b.bufLen by omega),
      List.getD_eq_getElem _ _ hpairs, List.getD_eq_getElem _ _ hlen']
    simp only [FrameBuffers.pairs, List.getElem_zipWith]
  simp only [Frame.buttonCode, LcdPico.buttonCode, hout 0 (by decide), hout 1 (by decide),
    hout 2 (by decide)]

/-! ## The decoder follows the presses -/

/-- The window as the decoder keeps it: the count wraps. -/
def ShiftWindow.Tracks (w : ShiftWindow) : Option (UInt32 × Nat) → Prop
  | none => w.active = false
  | some (last, n) => w.active = true ∧ w.startUs = last ∧ w.pressCount = UInt8.ofNat n

theorem ShiftWindow.Tracks.active {w : ShiftWindow} {o : Option (UInt32 × Nat)} (h : w.Tracks o) :
    w.active = o.isSome := by
  cases o with
  | none => exact h
  | some _ => exact h.1

/-- The decoder is where the indicator is. -/
structure DmmContext.Tracks (c : DmmContext) (s : ShiftKey) : Prop where
  bit : c.shiftOn = s.indicator
  window : c.shift.Tracks s.window

namespace DmmContext.Tracks

variable {c : DmmContext} {s : ShiftKey}

theorem of_eq {c' : DmmContext} (h : c.Tracks s) (hshift : c'.shift = c.shift)
    (hbit : c'.shiftOn = c.shiftOn) : c'.Tracks s :=
  ⟨hbit.trans h.bit, hshift ▸ h.window⟩

/-- The check at the start of a call closes the window when it is due. -/
theorem call (h : c.Tracks s) (now_us : UInt32) :
    (processShiftWindow c now_us).Tracks (s.close now_us) := by
  obtain ⟨indicator, window⟩ := s
  have hwin := h.window
  cases window with
  | none =>
    have hactive : c.shift.active = false := hwin
    simp only [processShiftWindow, hactive]
    exact h
  | some w =>
    obtain ⟨last, n⟩ := w
    obtain ⟨hactive, hlast, hcount⟩ : c.shift.active = true ∧ c.shift.startUs = last ∧
      c.shift.pressCount = UInt8.ofNat n := hwin
    simp only [processShiftWindow, ShiftKey.close, SHIFT_WINDOW_US, hactive, hlast, hcount,
      odd_ofNat]
    by_cases hdue : now_us - last > 300000
    · by_cases hodd : n % 2 = 1
      · simp only [hdue, hodd, Bool.not_true, Bool.false_eq_true, if_false, if_true, decide_true]
        exact ⟨(bit11_xor _).trans (congrArg _ h.bit), rfl⟩
      · simp only [hdue, hodd, Bool.not_true, Bool.false_eq_true, if_false, if_true, decide_false]
        exact ⟨h.bit, rfl⟩
    · simp only [hdue, Bool.not_true, Bool.false_eq_true, if_false]
      exact h

/-- A press opens the window or extends it. -/
theorem press (h : c.Tracks s) (hcode : buttonCode c.buf = 7839183) (now_us : UInt32) :
    (decodeButton c now_us).Tracks (s.press now_us) := by
  obtain ⟨indicator, window⟩ := s
  have hwin := h.window
  cases window with
  | none =>
    have hactive : c.shift.active = false := hwin
    simp only [decodeButton, hcode, hactive]
    exact ⟨h.bit, rfl, rfl, rfl⟩
  | some w =>
    obtain ⟨last, n⟩ := w
    obtain ⟨hactive, hlast, hcount⟩ : c.shift.active = true ∧ c.shift.startUs = last ∧
      c.shift.pressCount = UInt8.ofNat n := hwin
    simp only [decodeButton, hcode, hactive]
    refine ⟨h.bit, rfl, rfl, ?_⟩
    rw [UInt8.ofNat_add, ← hcount]
    rfl

theorem otherButton (hcode : buttonCode c.buf ≠ 7839183) (now_us : UInt32) :
    (decodeButton c now_us).Tracks ShiftKey.init :=
  ⟨(decodeButton_other c now_us hcode).2, (decodeButton_other c now_us hcode).1⟩

/-- A frame acted upon. -/
theorem actOn (h : c.Tracks s) (hle : c.buf.bufLen ≤ INPUT_BUF_SIZE) {f : Frame}
    (hf : c.buf.acts = some f) (now_us : UInt32) :
    (c.actOn now_us (some f)).Tracks (s.next (f.shiftInput now_us)) := by
  cases hk : f.kind with
  | message =>
    simp only [DmmContext.actOn, Frame.shiftInput, hk]
    exact h.of_eq (publishMessage_shift c now_us).1 (publishMessage_shift c now_us).2
  | annunciators =>
    simp only [DmmContext.actOn, Frame.shiftInput, hk]
    exact h.of_eq (publishAnnunciators_shift c _ _).1 (publishAnnunciators_shift c _ _).2
  | control =>
    simp only [DmmContext.actOn, Frame.shiftInput, hk]
    exact h.of_eq (decodeControlFrame_shift c).1 (decodeControlFrame_shift c).2
  | button =>
    obtain ⟨k, ps⟩ := f
    obtain ⟨rfl, -, hbutton⟩ := FrameBuffers.acts_eq_some hf
    obtain rfl : k = .button := hk
    have h3 := hbutton rfl
    simp only [DmmContext.actOn, Frame.shiftInput, buttonCode_pairs hle h3]
    by_cases hcode : buttonCode c.buf = 7839183
    · rw [if_pos hcode]
      exact h.press hcode now_us
    · rw [if_neg hcode]
      exact otherButton hcode now_us

/-- Every step of the decoder is a step of the indicator. -/
theorem step (h : c.Tracks s) (hlen : c.buf.bufLen < INPUT_BUF_SIZE) (e : Event) :
    (c.step e).Tracks (s.next (shiftInput c e)) := by
  cases e with
  | pair p t =>
    have hcollect : (c.collect p t).Tracks s := h.of_eq rfl rfl
    have hacts := processPair_acts c p t
    have hbits := congrArg Published.annState (processPair_published c p t)
    have hwin := processPair_shift c p t
    simp only [shiftInput, DmmContext.step, ← hacts]
    rcases hf : (processPair c p t).2 with _ | f
    · rw [hf] at hbits hwin
      exact hcollect.of_eq hwin (congrArg (fun a : UInt16 => a.toBitVec.getLsbD 11) hbits)
    · rw [hf] at hbits hwin hacts
      exact (hcollect.actOn hlen hacts.symm t.frame).of_eq hwin
        (congrArg (fun a : UInt16 => a.toBitVec.getLsbD 11) hbits)
  | tick now_us => exact h.call now_us
  | reset => exact ⟨by simp [DmmContext.shiftOn, DmmContext.step, processReset]; rfl, rfl⟩
  | interrupt sniff dbg => exact h.of_eq rfl rfl

/-- And every run a run. -/
theorem run (h : c.Tracks s) (hlen : c.buf.bufLen < INPUT_BUF_SIZE) (es : List Event) :
    (Machine.run DmmContext.step c es).Tracks (Machine.run ShiftKey.next s (shiftInputs c es)) := by
  induction es generalizing c s with
  | nil => exact h
  | cons e es ih => exact ih (h.step hlen e) (DmmContext.step_len hlen e)

end DmmContext.Tracks

/-- **The SHIFT indicator follows the presses**, over every history and at its next
step: bit 11 is the indicator, and the window is the decoder's. -/
theorem shift_indicator_follows_presses (es : List Event) (e : Event) :
    let c := Machine.run DmmContext.step decoder34401Init es
    let s := ShiftKey.after (shiftInputs decoder34401Init es)
    c.shiftOn = s.indicator ∧ c.shift.active = s.window.isSome ∧
      (c.step e).shiftOn = (s.next (shiftInput c e)).indicator ∧
      (c.step e).shift.active = (s.next (shiftInput c e)).window.isSome := by
  intro c s
  have hinit : decoder34401Init.Tracks ShiftKey.init := ⟨by decide, rfl⟩
  have hpower : decoder34401Init.Reachable := .init rfl
  have hreach : c.Reachable := Machine.Reachable.run hpower es
  have hlen := hreach.len
  have h : c.Tracks s := hinit.run (by decide) es
  have hstep := h.step hlen e
  exact ⟨h.bit, h.window.active, hstep.bit, hstep.window.active⟩

/-- The end of a frame, a button frame with the code of SHIFT, and a call 300001 µs after the
press. -/
def shiftPress : List Event :=
  [.pair eofPair ⟨5, 5⟩, .pair ⟨0x00, 0x77⟩ ⟨10, 10⟩, .pair ⟨0x00, 0x9d⟩ ⟨20, 20⟩,
    .pair ⟨0x66, 0xcf⟩ ⟨30, 30⟩, .tick 300031]

/-- SHIFT is pressed, and the indicator is on when the window closes. -/
theorem shift_indicator_follows_presses_button :
    shiftInputs decoder34401Init shiftPress = [.other, .other, .other, .press 30, .call 300031] ∧
      (ShiftKey.after (shiftInputs decoder34401Init shiftPress)).indicator = true ∧
      (Machine.run DmmContext.step decoder34401Init shiftPress).shiftOn = true := by
  have hinputs : shiftInputs decoder34401Init shiftPress =
      [.other, .other, .other, .press 30, .call 300031] := by
    decide +kernel
  have hon : (ShiftKey.after (shiftInputs decoder34401Init shiftPress)).indicator = true := by
    rw [hinputs]
    decide
  exact ⟨hinputs, hon, (shift_indicator_follows_presses shiftPress .reset).1.trans hon⟩

end LcdPico
