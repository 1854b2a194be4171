import LcdPico.DisplayFilter
import LcdPico.PanelPixels
import LcdPico.ShownText

/-!
# The text on the panel (`decoder_34401a.c`, `display.c`)

`DisplayFilter.lean` runs the decoder with `display_status`, and `PanelPixels.lean` runs
`update_display` on the memory of the panel. Here the calls that the first run makes are given
to the second, so that the bytes of the meter are followed to the pixels.

* `DisplayState.updates` — the calls of `update_display` in a step
* `DisplayState.Laid` — the cells on display are those of the text on display
* `panel_shows_text` — after any run with a call at its end, the panel shows the cells of the
  text and the annunciators, in the places that were drawn
-/

namespace LcdPico

/-! ## The calls of `update_display` -/

namespace DisplayState

/-- The calls of `update_display` in a step. -/
def updates (s : DisplayState) : StatusEvent → List Update
  | .decoder _ _ => []
  | .status newData now us =>
    if s.vars.displayActive then [(s.step (.status newData now us)).redraw us] else []

/-- The frame buffers change by these calls alone. -/
theorem step_screen (s : DisplayState) (e : StatusEvent) :
    (s.step e).vars.screen = Machine.run updateDisplay s.vars.screen (s.updates e) := by
  cases e with
  | decoder e now => rfl
  | status newData now us =>
    have hcall := s.displayStatus_call now us newData
    rw [updates, step]
    generalize displayStatus s newData now us = s' at hcall
    cases hcall with
    | inactive hoff =>
      rw [hoff]
      rfl
    | delayed hon _ =>
      rw [hon]
      rfl
    | waiting hon _ =>
      rw [hon]
      rfl
    | vouched hon _ =>
      rw [hon]
      rfl
    | doubtful hon _ =>
      rw [hon]
      rfl

theorem run_screen (s : DisplayState) (es : List StatusEvent) :
    (Machine.run step s es).vars.screen =
      Machine.run updateDisplay s.vars.screen (Machine.trace step updates s es) := by
  induction es generalizing s with
  | nil => rfl
  | cons e es ih =>
    rw [Machine.run_cons, ih, step_screen, Machine.trace_cons, Machine.run_append]

end DisplayState

/-! ## The cells of the text on display -/

/-- The cells are those that the text is laid out in. -/
def LaidOut (b : DisplayBuf) (cells : Cells) : Prop :=
  ∃ t blinkMask, TextOf b t ∧ cells.toList = (layout t blinkMask).map LaidCell.cell

/-- The cells are those of the text, and read in order they are its beginning, unless one of
them has a mark for its character. -/
def Spells (b : DisplayBuf) (cells : Cells) : Prop :=
  ∃ t blinkMask, TextOf b t ∧ cells.toList = (layout t blinkMask).map LaidCell.cell ∧
    ((∀ l ∈ layout t blinkMask, lost t l.pos = false) →
      cells.toList.flatMap CellState.shown = (cText b).take (layoutStop t blinkMask))

theorem LaidOut.spells {b : DisplayBuf} {cells : Cells} (h : LaidOut b cells) :
    Spells b cells := by
  obtain ⟨t, blinkMask, htext, hcells⟩ := h
  refine ⟨t, blinkMask, htext, hcells, fun hlost => ?_⟩
  rw [hcells, List.flatMap_map, ← htext.accounted_layout blinkMask]
  exact (shown_layout_iff t _).mpr hlost

namespace DisplayState

/-- There is no text yet, or the cells are those of the text. -/
def OnDisplay (b : DisplayBuf) (cells : Cells) : Prop :=
  b = displayText [] ∧ cells = Vector.replicate DISPLAY_COLS default ∨ LaidOut b cells

/-- The cells on display are those of the text on display, and the cells laid out last are
those of the text that was. -/
structure Laid (s : DisplayState) : Prop where
  reachable : s.dmm.Reachable
  display : OnDisplay s.disp s.vars.curDisp
  pending : OnDisplay s.vars.curDispTxt s.vars.disp

theorem laid_init (displayActive : Bool) : (displayInit displayActive).Laid where
  reachable := .init rfl
  display := .inl ⟨rfl, rfl⟩
  pending := .inl ⟨rfl, rfl⟩

variable {s : DisplayState}

/-- The cells that `display_status` lays out. -/
theorem layoutText_laidOut (h : s.dmm.Reachable) (now : Nat) :
    LaidOut (s.layoutText now).vars.curDispTxt (s.layoutText now).vars.disp := by
  refine ⟨s.dmm.mainAt, s.dmm.blinkMask, h.textOf, ?_⟩
  have hlen : (layout s.dmm.mainAt s.dmm.blinkMask).length = DISPLAY_COLS :=
    length_layoutLoop s.dmm.mainAt s.dmm.blinkMask DISPLAY_COLS 0 0
  apply List.ext_getElem
  · rw [Vector.length_toList, List.length_map, hlen]
  · intro i hi hi'
    rw [Vector.length_toList] at hi
    have hget : i < (layout s.dmm.mainAt s.dmm.blinkMask).length := by rwa [hlen]
    simp [layoutText, List.getD_eq_getElem?_getD, hget]

theorem Laid.layoutText (h : s.Laid) (now : Nat) : (s.layoutText now).Laid where
  reachable := h.reachable
  display := h.display
  pending := .inr (layoutText_laidOut h.reachable now)

theorem Laid.showText (h : s.Laid) : s.showText.Laid where
  reachable := h.reachable
  display := h.pending
  pending := h.pending

theorem Laid.refresh (h : s.Laid) (us : Nat → UInt32) : (s.refresh us).Laid where
  reachable := h.reachable
  display := h.display
  pending := h.pending

theorem Laid.step (h : s.Laid) (e : StatusEvent) : (s.step e).Laid := by
  cases e with
  | decoder e now => exact ⟨.step e h.reachable, h.display, h.pending⟩
  | status newData now us =>
    have hcall := s.displayStatus_call now us newData
    rw [DisplayState.step]
    generalize displayStatus s newData now us = s' at hcall
    cases hcall with
    | inactive _ => exact h
    | delayed _ _ => exact h.showText.refresh us
    | waiting _ _ => exact h.refresh us
    | vouched _ _ => exact (h.layoutText now).showText.refresh us
    | doubtful _ _ => exact (h.layoutText now).refresh us

end DisplayState

/-! ## The panel -/

/-- The panel shows the cells and the annunciators, in the places where something was drawn. A
place where nothing was is as it was: its cell holds NUL, or its indicators are off. -/
structure PanelShows (tiles tiles2 orig panel : Image) (drawn : Place → Prop) (curDisp : Cells)
    (annState : UInt16) (us : Nat → UInt32) : Prop where
  cells : ∀ i < DISPLAY_COLS, drawn (.cell i) →
    (cellRect i).Shows panel ((drawCell (curDisp.rd i) (us i)).image tiles)
  cells_kept : ∀ i < DISPLAY_COLS, ¬drawn (.cell i) →
    curDisp.rd i = default ∧ (cellRect i).SameIn orig panel
  slots : ∀ ind ≠ Indicator.blank, drawn (.slot (displayIndicators ind).y) →
    (slotRect (displayIndicators ind)).Shows panel
      ((slotShows (fun i => annState.toNat.testBit i) (displayIndicators ind).y).image tiles2)
  slots_kept : ∀ ind ≠ Indicator.blank, ¬drawn (.slot (displayIndicators ind).y) →
    slotShows (fun i => annState.toNat.testBit i) (displayIndicators ind).y =
        blankSlot (displayIndicators ind).y ∧
      (slotRect (displayIndicators ind)).SameIn orig panel

/-- The display after some events, with a display. -/
def statusAfter (es : List StatusEvent) : DisplayState :=
  Machine.run DisplayState.step (displayInit true) es

/-- The calls of `update_display` that these events make. -/
def updatesOf (es : List StatusEvent) : List Update :=
  Machine.trace DisplayState.step DisplayState.updates (displayInit true) es

theorem statusAfter_screen (es : List StatusEvent) :
    (statusAfter es).vars.screen = Machine.run updateDisplay initScreen (updatesOf es) :=
  (displayInit true).run_screen es

theorem statusAfter_invariant (es : List StatusEvent) :
    (statusAfter es).Painted ∧ (statusAfter es).vars.displayActive = true ∧
      (statusAfter es).Laid := by
  refine Machine.run_invariant (P := fun s : DisplayState =>
    s.Painted ∧ s.vars.displayActive = true ∧ s.Laid) ?_
    ⟨fun _ => initLayer_faithful, rfl, DisplayState.laid_init true⟩ es
  rintro s e ⟨hpainted, hactive, hlaid⟩
  exact ⟨hpainted.step e, by rw [s.step_displayActive e, hactive], hlaid.step e⟩

/-- A call at the end makes the last of these calls. -/
theorem updatesOf_snoc (es : List StatusEvent) (newData : Bool) (now : Nat) (us : Nat → UInt32) :
    updatesOf (es ++ [.status newData now us]) =
      updatesOf es ++ [(statusAfter (es ++ [.status newData now us])).redraw us] := by
  obtain ⟨-, hactive, -⟩ := statusAfter_invariant es
  have hend : statusAfter (es ++ [.status newData now us]) =
      (statusAfter es).step (.status newData now us) := Machine.run_append _ _ es _
  rw [updatesOf, Machine.trace_append, Machine.trace_cons, Machine.trace_nil, hend]
  change _ ++ ((statusAfter es).updates (.status newData now us) ++ []) = _
  rw [DisplayState.updates, if_pos hactive]
  rfl

/-- What is remembered of the frame buffer on display is what was drawn last. -/
theorem shown_displayState {scr : Screen} (h : ∀ k, (scr.buffers k).Faithful) (u : Update) {i : Nat}
    (hi : i < DISPLAY_COLS) : (updateDisplay scr u).shown.displayState.rd i = u.newstate.rd i := by
  rw [updateDisplay, SwapChain.shown_step]
  exact ((foldl_updateCell u (h scr.current) (Nat.le_refl _)).1 i hi).1

/-- The layer on display, shown on the panel. -/
theorem LayerShown.panelShows {tiles tiles2 orig panel : Image} {drawn : Place → Prop} {l : Layer}
    {cells : Cells} {annState : UInt16} {us : Nat → UInt32}
    (h : LayerShown tiles tiles2 orig panel drawn l)
    (hcells : ∀ i < DISPLAY_COLS, l.displayState.rd i = cells.rd i)
    (hfb : l.fb = fullRedraw
      { newstate := cells, indFlags := annState.toUInt32, forceRefresh := false, us := us }) :
    PanelShows tiles tiles2 orig panel drawn cells annState us := by
  have hslot (ind : Indicator) : l.fb.slots (displayIndicators ind).y =
      slotShows (fun i => annState.toNat.testBit i) (displayIndicators ind).y := by
    rw [hfb, fullRedraw, UInt16.toNat_toUInt32]
  refine ⟨fun i hi hd => ?_, fun i hi hd => ?_, fun ind hind hd => ?_, fun ind hind hd => ?_⟩
  · have hpic : l.fb.cells.rd i = drawCell (cells.rd i) (us i) := by
      simp [hfb, fullRedraw, CArray.rd, hi]
    rw [← hpic]
    exact h.cells i hi hd
  · rw [← hcells i hi]
    exact h.cells_kept i hi hd
  · rw [← hslot]
    exact h.slots ind hind hd
  · rw [← hslot]
    exact h.slots_kept ind hind hd

/-- **The panel shows the text of the meter.** After any run of the decoder and of
`display_status` with a call at its end, each pixel of the cells and of the indicators is that
of the text on display and of the annunciators, but for the places that were never drawn in this
frame buffer; the calls never get stuck. -/
theorem panel_shows_text (e : BlockEngine) (logo disp disp2 : PngImage)
    (hdisp : disp.w.toNat = DISPLAY_CHAR_MAP_W * DISPLAY_CHAR_W ∧
      disp.h.toNat = DISPLAY_CHAR_MAP_H * DISPLAY_CHAR_H)
    (hdisp2 : disp2.w.toNat = DISPLAY_IND_MAP_W * DISPLAY_IND_W ∧
      disp2.h.toNat = DISPLAY_IND_MAP_H * DISPLAY_IND_H.toNat)
    (hroom : logo.w.toNat * logo.h.toNat < 2 ^ 30) (lcd : Lt7680) (vram : Vram)
    (es : List StatusEvent) (newData : Bool) (now : Nat) (us : Nat → UInt32) :
    let s := statusAfter (es ++ [.status newData now us])
    let calls := updatesOf (es ++ [.status newData now us])
    let log := Machine.trace updateDisplay screenDrawings initScreen calls
    ∃ a : Assets, ∃ lcd', displayInitMemory logo disp disp2 lcd = some (a.disp, a.disp2, lcd') ∧
      ∃ m, calls.foldlM (updateDisplayMemory e a) (.init ⟨lcd', vram, []⟩) = some m ∧
        PanelShows (a.disp.surface.pixel vram) (a.disp2.surface.pixel vram)
          ((layerSurface s.vars.screen.visible).pixel vram) m.gpu.panel
          (Drew log s.vars.screen.visible) s.vars.curDisp s.dmm.annState us ∧
        (s.disp = displayText [] ∧ s.vars.curDisp = Vector.replicate DISPLAY_COLS default ∨
          Spells s.disp s.vars.curDisp) := by
  intro s calls log
  obtain ⟨a, lcd', hinit, hlcd⟩ := displayInitMemory_ready hdisp hdisp2 hroom lcd
  obtain ⟨hpainted, -, -⟩ := statusAfter_invariant es
  obtain ⟨-, -, hlaid⟩ := statusAfter_invariant (es ++ [.status newData now us])
  have hscreen : s.vars.screen = Machine.run updateDisplay initScreen calls := statusAfter_screen _
  have hfb : s.vars.screen.shown.fb = _ := displayStatus_run_shows es newData now us
  have hcalls : calls = updatesOf es ++ [s.redraw us] := updatesOf_snoc es newData now us
  obtain ⟨m, hrun, hpanel, h⟩ :=
    run_panel e rfl (init_inStep a hlcd vram) (updatesOf es) (s.redraw us)
  rw [← hcalls] at hrun hpanel h
  rw [← hscreen] at hpanel h
  have hshown := h.layers s.vars.screen.visible
  rw [← hpanel] at hshown
  refine ⟨a, lcd', hinit, m, hrun, hshown.panelShows (fun i hi => ?_) hfb,
    hlaid.display.imp_right LaidOut.spells⟩
  change s.vars.screen.shown.displayState.rd i = _
  rw [hscreen, hcalls, Machine.run_append, ← statusAfter_screen]
  exact shown_displayState hpainted _ hi

/-- A reading, and the call that sees it. -/
def readingSeen : List StatusEvent :=
  Watched.deliverAt 1000 (eofPair :: messagePairs (bytes "-1,234.5 MVDC")) ++
    [.status true 1000 fun _ => 0]

/-- The second cell on the panel is the digit, with the comma over its tile. -/
theorem panel_shows_digit_comma :
    ∃ a : Assets, ∃ lcd', displayInitMemory ⟨200, 322, []⟩ ⟨760, 1120, []⟩ ⟨304, 160, []⟩
        ⟨0, fun _ => 0, []⟩ = some (a.disp, a.disp2, lcd') ∧
      ∃ m, (updatesOf (readingSeen ++ [.status false 400000 fun _ => 0])).foldlM
          (updateDisplayMemory hostEngine a) (.init ⟨lcd', UInt16.ofNat, []⟩) = some m ∧
        (cellRect 1).Shows m.gpu.panel (CellPicture.image (a.disp.surface.pixel UInt16.ofNat)
          ⟨1, [displayCharOverlays.rd OVERLAY_COMMA]⟩) := by
  obtain ⟨a, lcd', hinit, m, hrun, hshows, -⟩ := panel_shows_text hostEngine
    ⟨200, 322, []⟩ ⟨760, 1120, []⟩ ⟨304, 160, []⟩ (by decide) (by decide) (by decide)
    ⟨0, fun _ => 0, []⟩ UInt16.ofNat readingSeen false 400000 fun _ => 0
  refine ⟨a, lcd', hinit, m, hrun, ?_⟩
  have hdrawn : Drew (Machine.trace updateDisplay screenDrawings initScreen
        (updatesOf (readingSeen ++ [.status false 400000 fun _ => 0])))
      (statusAfter (readingSeen ++ [.status false 400000 fun _ => 0])).vars.screen.visible
      (.cell 1) := by
    decide +kernel
  have hcell : (statusAfter (readingSeen ++ [.status false 400000 fun _ => 0])).vars.curDisp.rd 1 =
      { c := 0x31, flags := 2, blink := false } := by decide +kernel
  have hpic : drawCell { c := 0x31, flags := 2, blink := false } 0 =
      ⟨1, [displayCharOverlays.rd OVERLAY_COMMA]⟩ := by decide +kernel
  have hcells := hshows.cells 1 (by decide) hdrawn
  rw [hcell, hpic] at hcells
  exact hcells

end LcdPico
