import LcdPico.CellLayout
import LcdPico.DisplayFilter
import LcdPico.Httpd

/-!
# The status and what is drawn (`lcd-pico.c`, `httpd.c`)

Each turn of the loop of `core1_main` copies the state for core 0, runs the decoder,
and calls `display_status` when something is new or the display is due. `json_stats`
reports from the copy: the text is the published one, and `blink_mask` is the
decoder's own.

`InSync` is what a turn keeps when the mask moves only with the published text. A
pending text was laid out with the mask too, and must still agree with it when it is
published.
-/

namespace LcdPico

/-! ## The loop of core 1 -/

/-- The variables of `core1_main`. -/
structure Core1 where
  state : DisplayState
  dmmLast : UInt32

/-- A turn of the loop: the steps of the decoder since the turn before, whether the
display is due, and the clocks. -/
structure Turn where
  events : List Event
  displayDue : Bool
  now : Nat
  us : Nat → UInt32

namespace Core1

/-- The state after `decoder34401_process`. -/
def process (c : Core1) (events : List Event) : DisplayState :=
  { c.state with dmm := Machine.run DmmContext.step c.state.dmm events }

/-- A turn of the loop, up to where the next one copies the state. -/
def turn (c : Core1) (t : Turn) : Core1 :=
  let state := c.process t.events
  let newData := state.dmm.newDataCounter != c.dmmLast
  if t.displayDue || newData then
    { state := displayStatus state newData t.now t.us, dmmLast := state.dmm.newDataCounter }
  else { state := state, dmmLast := c.dmmLast }

def init (displayActive : Bool) : Core1 where
  state := displayInit displayActive
  dmmLast := 0

/-- `transfer_state`, which core 0 copies in its turn. -/
def snapshot (c : Core1) : SystemState where
  dmm := c.state.dmm
  disp := CStr.copy ((cText c.state.disp).map fun b => Char.ofNat b.toNat)

end Core1

/-! ## Blinking cells -/

/-- Bit `i` of `blink_mask`. -/
def DmmContext.blinks (c : DmmContext) (i : Nat) : Bool := c.blinkMask.toNat.testBit i

/-- A cell blinks as its bit of the mask says. -/
theorem layoutCell_blink (t : Nat → UInt8) (blinkMask : UInt16) (i d : Nat) :
    (layoutCell t blinkMask i d).cell.blink = blinkMask.toNat.testBit i := by
  have hinside {d : Nat} (hd : d ≤ 15) :
      (layoutCell t blinkMask i d).cell.blink = blinkMask.toNat.testBit i := by
    obtain ⟨-, hcell, -, -⟩ := layoutCell_of_le t blinkMask i hd
    rw [hcell]
  rcases Nat.lt_or_ge 15 d with hgt | hle
  · rw [layoutCell_of_gt t blinkMask i hgt]
    exact hinside (Nat.le_refl 15)
  · exact hinside hle

theorem layoutText_blink (s : DisplayState) (now : Nat) {i : Nat} (hi : i < DISPLAY_COLS) :
    ((s.layoutText now).vars.disp.rd i).blink = s.dmm.blinks i := by
  obtain ⟨d, -, hget⟩ := layout_atCell s.dmm.mainAt s.dmm.blinkMask hi
  have hcell : (s.layoutText now).vars.disp.rd i =
      (layoutCell s.dmm.mainAt s.dmm.blinkMask i d).cell := by
    simp [DisplayState.layoutText, CArray.rd, hi, List.getD_eq_getElem?_getD, hget]
  rw [hcell]
  exact layoutCell_blink s.dmm.mainAt s.dmm.blinkMask i d

namespace Core1

/-- The mask of a snapshot is the one of the cells on display. -/
def BlinkShown (c : Core1) : Prop :=
  ∀ i < DISPLAY_COLS, c.snapshot.dmm.blinks i = (c.state.vars.curDisp.rd i).blink

/-- The mask of a pending text is the one of the decoder. -/
def BlinkPending (c : Core1) : Prop :=
  0 < c.state.vars.newDispTime →
    ∀ i < DISPLAY_COLS, c.state.dmm.blinks i = (c.state.vars.disp.rd i).blink

/-- The invariant: the cells on display, and those pending, have the mask's bits. -/
structure InSync (c : Core1) : Prop where
  shown : c.BlinkShown
  pending : c.BlinkPending

/-- The decoder leaves the mask as it is for the 12 cells. -/
def MaskStays (c : Core1) (events : List Event) : Prop :=
  ∀ i < DISPLAY_COLS, (c.process events).dmm.blinks i = c.state.dmm.blinks i

/-- The mask stays as it is, or its text is published in the turn. -/
def BlinkMovesTogether (c : Core1) (t : Turn) : Prop :=
  c.MaskStays t.events ∨
    c.state.vars.displayActive = true ∧ (c.process t.events).dmm.newDataCounter ≠ c.dmmLast ∧
      (c.process t.events).dmm.vouched = true

variable {c c' : Core1} {events : List Event}

/-- Cells with the bits of the mask before the decoder ran. -/
theorem blinkShown_iff_maskStays (hdmm : c'.state.dmm = (c.process events).dmm)
    (hcells : ∀ i < DISPLAY_COLS,
      c.state.dmm.blinks i = (c'.state.vars.curDisp.rd i).blink) :
    c'.BlinkShown ↔ c.MaskStays events := by
  refine forall₂_congr fun i hi => ?_
  rw [← hcells i hi, ← hdmm]
  rfl

/-- A text that was pending before the decoder ran is still in sync if the mask stays. -/
theorem blinkPending_of_maskStays (h : c.BlinkPending)
    (hdmm : c'.state.dmm = (c.process events).dmm)
    (hdisp : c'.state.vars.disp = c.state.vars.disp)
    (htime : c'.state.vars.newDispTime = c.state.vars.newDispTime)
    (hstays : c.MaskStays events) : c'.BlinkPending := by
  intro hpos i hi
  rw [htime] at hpos
  rw [hdmm, hdisp, hstays i hi]
  exact h hpos i hi

/-- What a turn keeps in sync: nothing but what its condition says. -/
theorem InSync.turn_spec (h : c.InSync) (t : Turn) :
    ((c.turn t).BlinkShown ↔ c.BlinkMovesTogether t) ∧
      (c.BlinkMovesTogether t → (c.turn t).BlinkPending) := by
  -- unless the text is published in the turn, the mask has to stay
  have hstay {c' : Core1} (hdmm : c'.state.dmm = (c.process t.events).dmm)
      (hcells : ∀ i < DISPLAY_COLS,
        c.state.dmm.blinks i = (c'.state.vars.curDisp.rd i).blink)
      (hno : ¬ (c.state.vars.displayActive = true ∧
        (c.process t.events).dmm.newDataCounter ≠ c.dmmLast ∧
          (c.process t.events).dmm.vouched = true))
      (hpending : c.MaskStays t.events → c'.BlinkPending) :
      (c'.BlinkShown ↔ c.BlinkMovesTogether t) ∧ (c.BlinkMovesTogether t → c'.BlinkPending) := by
    have hmoves : c.BlinkMovesTogether t ↔ c.MaskStays t.events := or_iff_left hno
    rw [hmoves]
    exact ⟨blinkShown_iff_maskStays hdmm hcells, hpending⟩
  have hactive : (c.process t.events).vars.displayActive = c.state.vars.displayActive := rfl
  rw [turn]
  by_cases hnew : (c.process t.events).dmm.newDataCounter = c.dmmLast
  · have hnewData : ((c.process t.events).dmm.newDataCounter != c.dmmLast) = false := by
      simpa using hnew
    have hno : ¬ (c.state.vars.displayActive = true ∧
        (c.process t.events).dmm.newDataCounter ≠ c.dmmLast ∧
          (c.process t.events).dmm.vouched = true) := fun hpub => hpub.2.1 hnew
    simp only [hnewData, Bool.or_false]
    split
    · have hcall := (c.process t.events).displayStatus_call t.now t.us false
      generalize displayStatus (c.process t.events) false t.now t.us = s' at hcall
      cases hcall with
      | inactive _ =>
        exact hstay rfl h.shown hno (blinkPending_of_maskStays h.pending rfl rfl rfl)
      | delayed _ hdue =>
        refine hstay rfl (h.pending hdue.1) hno fun _ hpos => ?_
        exact absurd hpos (Nat.lt_irrefl 0)
      | waiting _ _ =>
        exact hstay rfl h.shown hno (blinkPending_of_maskStays h.pending rfl rfl rfl)
    · exact hstay rfl h.shown hno (blinkPending_of_maskStays h.pending rfl rfl rfl)
  · have hnewData : ((c.process t.events).dmm.newDataCounter != c.dmmLast) = true := by
      simpa using hnew
    simp only [hnewData, Bool.or_true, if_true]
    have hcall := (c.process t.events).displayStatus_call t.now t.us true
    generalize displayStatus (c.process t.events) true t.now t.us = s' at hcall
    cases hcall with
    | inactive hoff =>
      have hno : ¬ c.state.vars.displayActive = true := by
        rw [← hactive, hoff]
        decide
      exact hstay rfl h.shown (fun hpub => hno hpub.1)
        (blinkPending_of_maskStays h.pending rfl rfl rfl)
    | vouched hon hvouched =>
      refine ⟨iff_of_true ?_ (.inr ⟨hon, hnew, hvouched⟩), fun _ hpos => ?_⟩
      · intro i hi
        exact (layoutText_blink (c.process t.events) t.now hi).symm
      · exact absurd hpos (Nat.lt_irrefl 0)
    | doubtful hon hdoubtful =>
      refine hstay rfl h.shown (fun hpub => ?_) fun _ _ i hi => ?_
      · rw [hdoubtful] at hpub
        exact absurd hpub.2.2 (by decide)
      · exact (layoutText_blink (c.process t.events) t.now hi).symm

theorem inSync_init (displayActive : Bool) : (init displayActive).InSync := by
  refine ⟨?_, fun hpos => absurd hpos (Nat.lt_irrefl 0)⟩
  intro i hi
  have hmask : (init displayActive).snapshot.dmm.blinks i = false := Nat.zero_testBit i
  have hcell : ((init displayActive).state.vars.curDisp.rd i).blink = false := by
    simp [init, displayInit, CArray.rd, hi]
    rfl
  rw [hmask, hcell]

/-- **The status is a picture of the display**, in all the snapshots of exactly those
runs in which the mask moves with the published text only. -/
theorem blink_mask_iff (displayActive : Bool) (ts : List Turn) :
    Machine.Throughout turn BlinkShown (init displayActive) ts ↔
      Machine.Within turn BlinkMovesTogether (init displayActive) ts :=
  Machine.throughout_iff_within (fun _ h => h.shown)
    (fun _ t h hmoves => ⟨(h.turn_spec t).1.mpr hmoves, (h.turn_spec t).2 hmoves⟩)
    (fun _ t h hshown => (h.turn_spec t).1.mp hshown) (inSync_init displayActive) ts

/-- One turn takes in a message and a control frame that makes its second character
blink. -/
def blinkingTurn : Turn where
  events := deliver (eofPair :: messagePairs (bytes "HELLO") ++
    [⟨0x71, 0x00⟩, ⟨0x49, 0x00⟩, eofPair])
  displayDue := false
  now := 1000
  us := fun _ => 0

/-- The status has the cell blink, and the display does not, as the text is pending. -/
theorem blink_mask_ahead :
    ((init true).turn blinkingTurn).snapshot.dmm.blinkMask = 2 ∧
      (((init true).turn blinkingTurn).state.vars.curDisp.rd 1).blink = false ∧
      ¬ ∀ ts, Machine.Throughout turn BlinkShown (init true) ts := by
  have hmask : ((init true).turn blinkingTurn).snapshot.dmm.blinkMask = 2 := by decide +kernel
  have hcell : (((init true).turn blinkingTurn).state.vars.curDisp.rd 1).blink = false := by
    decide +kernel
  refine ⟨hmask, hcell, ?_⟩
  intro h
  have hshown : ((init true).turn blinkingTurn).BlinkShown := (h [blinkingTurn]).2
  have hbit := hshown 1 (by decide)
  rw [hcell, DmmContext.blinks, hmask] at hbit
  exact absurd hbit (by decide)

end Core1

end LcdPico
