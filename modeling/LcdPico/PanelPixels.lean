import LcdPico.TilePixels

/-!
# What the panel shows (`display.c`)

`Display.lean` keeps a frame buffer as the pictures it holds. Here `updateDisplayMemory` is shown
to copy just the pixels of these pictures, in one of the frame buffers and nowhere else.

* `Layer.drawings` — what a call draws; a place that was never drawn keeps its pixels
* `updateDisplayMemory_inStep` — a call keeps the memory in step with the pictures
* `panel_shows_pictures` — after any run of calls, each pixel of the panel is that of the
  picture in its place, and the engine was asked for the copies of these drawings and no others
-/

namespace LcdPico

/-! ## The drawings of a call -/

/-- A place in a frame buffer: a cell, or the `y` of an indicator. -/
inductive Place where
  | cell (i : Nat)
  | slot (y : Int)
deriving DecidableEq, Repr

def Drawing.place : Drawing → Place
  | .cell i _ => .cell i
  | .slot d _ => .slot d.y

/-- What a turn of the loop over the cells draws. -/
def cellDrawings (u : Update) (l : Layer) (i : Nat) : List Drawing :=
  let new := u.newstate.rd i
  let old := l.displayState.rd i
  if u.forceRefresh || new.c != old.c || new.flags != old.flags || new.blink || old.blink then
    [.cell i (drawCell new (u.us i))]
  else []

/-- What a turn of the loop over the annunciators draws. -/
def indicatorDrawings (u : Update) (l : Layer) (i : Nat) : List Drawing :=
  let ind := lcdIndicatorMap.rd i
  let d := displayIndicators ind
  let on := u.indFlags.toNat.testBit i
  if ind = .blank then []
  else if on = l.indicatorState.toNat.testBit i ∧ d.mode = 0 then []
  else if on then [.slot d d.tile]
  else if d.mode = 2 then []
  else [.slot d (displayIndicators .blank).tile]

/-- What a turn of the loop over the annunciators does to the pictures. -/
def paintIndicator (u : Update) (l : Layer) (i : Nat) : Layer :=
  { l with
    fb := { l.fb with slots := updateIndicator u.indFlags l.indicatorState l.fb.slots i } }

/-- What a call draws, in order. -/
def Layer.drawings (l : Layer) (u : Update) : List Drawing :=
  Machine.trace (updateCell u) (cellDrawings u) l (List.range DISPLAY_COLS) ++
    Machine.trace (paintIndicator u) (indicatorDrawings u)
      ((List.range DISPLAY_COLS).foldl (updateCell u) l) (List.range 16)

/-- The drawings, with their frame buffer. -/
abbrev DrawingLog : Type := List (Fin 2 × Drawing)

/-- What a call of `update_display` draws. -/
def screenDrawings (scr : Screen) (u : Update) : DrawingLog :=
  ((scr.buffers scr.current).drawings u).map (Prod.mk scr.current)

/-- Something was drawn in this place of the frame buffer. -/
def Drew (log : DrawingLog) (k : Fin 2) (p : Place) : Prop := ∃ d ∈ log, d.1 = k ∧ d.2.place = p

instance (log : DrawingLog) (k : Fin 2) (p : Place) : Decidable (Drew log k p) :=
  inferInstanceAs (Decidable (∃ d ∈ log, d.1 = k ∧ d.2.place = p))

theorem not_drew_nil (k : Fin 2) (p : Place) : ¬Drew [] k p := by
  rintro ⟨d, hd, -⟩
  exact absurd hd List.not_mem_nil

theorem drew_snoc_self {log : DrawingLog} {k : Fin 2} {d : Drawing} (p : Place) :
    Drew (log ++ [(k, d)]) k p ↔ Drew log k p ∨ p = d.place := by
  simp only [Drew, List.mem_append, List.mem_singleton, or_and_right, exists_or, exists_eq_left,
    true_and]
  exact or_congr_right eq_comm

theorem drew_snoc_ne {log : DrawingLog} {j k : Fin 2} (h : j ≠ k) {d : Drawing} (p : Place) :
    Drew (log ++ [(j, d)]) k p ↔ Drew log k p := by
  simp only [Drew, List.mem_append, List.mem_singleton, or_and_right, exists_or, exists_eq_left,
    h, false_and, or_false]

/-! ## A frame buffer -/

/-- The image shows the pictures of a layer, in the places where something was drawn. A place
that was never drawn is as it was, and the layer remembers it as blank. -/
structure LayerShown (tiles tiles2 orig img : Image) (drawn : Place → Prop) (l : Layer) :
    Prop where
  cells : ∀ i < DISPLAY_COLS, drawn (.cell i) →
    (cellRect i).Shows img ((l.fb.cells.rd i).image tiles)
  cells_kept : ∀ i < DISPLAY_COLS, ¬drawn (.cell i) →
    l.displayState.rd i = default ∧ (cellRect i).SameIn orig img
  slots : ∀ ind ≠ Indicator.blank, drawn (.slot (displayIndicators ind).y) →
    (slotRect (displayIndicators ind)).Shows img
      ((l.fb.slots (displayIndicators ind).y).image tiles2)
  slots_kept : ∀ ind ≠ Indicator.blank, ¬drawn (.slot (displayIndicators ind).y) →
    l.fb.slots (displayIndicators ind).y = blankSlot (displayIndicators ind).y ∧
      (slotRect (displayIndicators ind)).SameIn orig img
  background : ∀ x < LCD_WIDTH, ∀ y < LCD_HEIGHT, (∀ i < DISPLAY_COLS, ¬(cellRect i).Contains x y) →
    (∀ ind ≠ Indicator.blank, ¬(slotRect (displayIndicators ind)).Contains x y) →
    img x y = orig x y

/-! ## Places -/

theorem cellRect_disjoint {i j : Nat} (hi : i < DISPLAY_COLS) (hj : j < DISPLAY_COLS)
    (h : i ≠ j) : (cellRect i).Disjoint (cellRect j) := by
  simp only [PixelRect.Disjoint, cellRect, DISPLAY_COLS, DISPLAY_CHAR_H, DISPLAY_Y_OFFSET] at *
  omega

theorem slotRect_disjoint_cellRect (d : LcdIndicator) (i : Nat) :
    (slotRect d).Disjoint (cellRect i) := .inl (by decide : 0 + 38 ≤ 50)

theorem cellRect_disjoint_slotRect (i : Nat) (d : LcdIndicator) :
    (cellRect i).Disjoint (slotRect d) := .inr (.inl (by decide : 0 + 38 ≤ 50))

/-- Indicators at different places. -/
theorem slotRect_disjoint {ind ind' : Indicator} (h : ind ≠ .blank) (h' : ind' ≠ .blank)
    (hy : (displayIndicators ind).y ≠ (displayIndicators ind').y) :
    (slotRect (displayIndicators ind)).Disjoint (slotRect (displayIndicators ind')) := by
  cases ind <;> cases ind' <;> first
    | exact absurd rfl h
    | exact absurd rfl h'
    | exact absurd rfl hy
    | decide

/-- Indicators at the same place. -/
theorem slotRect_congr {ind ind' : Indicator} (h : ind ≠ .blank) (h' : ind' ≠ .blank)
    (hy : (displayIndicators ind).y = (displayIndicators ind').y) :
    slotRect (displayIndicators ind) = slotRect (displayIndicators ind') := by
  cases ind <;> cases ind' <;> first
    | exact absurd rfl h
    | exact absurd rfl h'
    | exact absurd hy (by decide)
    | rfl

namespace LayerShown

variable {tiles tiles2 orig img img' : Image} {drawn drawn' : Place → Prop} {l : Layer}

/-- The same image, and the same places. -/
theorem congr (h : LayerShown tiles tiles2 orig img drawn l)
    (hsame : ∀ x < LCD_WIDTH, ∀ y < LCD_HEIGHT, img' x y = img x y)
    (hdrawn : ∀ p, drawn' p ↔ drawn p) : LayerShown tiles tiles2 orig img' drawn' l := by
  have hshows {r : PixelRect} {pic : Image} (hw : r.x + r.w ≤ LCD_WIDTH)
      (hh : r.y + r.h ≤ LCD_HEIGHT) (hr : r.Shows img pic) : r.Shows img' pic := by
    intro dx hdx dy hdy
    rw [hsame _ (by omega) _ (by omega), hr dx hdx dy hdy]
  refine ⟨fun i hi hd => ?_, fun i hi hd => ?_, fun ind hind hd => ?_, fun ind hind hd => ?_,
    fun x hx y hy hcells hslots => ?_⟩
  · obtain ⟨hw, hh⟩ := cellRect_le i
    exact hshows hw hh (h.cells i hi ((hdrawn _).mp hd))
  · obtain ⟨hw, hh⟩ := cellRect_le i
    exact (h.cells_kept i hi (mt (hdrawn _).mpr hd)).imp_right (hshows hw hh)
  · obtain ⟨hw, hh, -⟩ := slotRect_le hind
    exact hshows hw hh (h.slots ind hind ((hdrawn _).mp hd))
  · obtain ⟨hw, hh, -⟩ := slotRect_le hind
    exact (h.slots_kept ind hind (mt (hdrawn _).mpr hd)).imp_right (hshows hw hh)
  · rw [hsame x hx y hy, h.background x hx y hy hcells hslots]

/-- A cell is drawn. -/
theorem cell (h : LayerShown tiles tiles2 orig img drawn l) {i : Nat} (hi : i < DISPLAY_COLS)
    (hdrawn : ∀ p, drawn' p ↔ drawn p ∨ p = .cell i)
    (hsame : ∀ x < LCD_WIDTH, ∀ y, ¬(cellRect i).Contains x y → img' x y = img x y)
    (new : CellState) {p : CellPicture} (hp : (cellRect i).Shows img' (p.image tiles)) :
    LayerShown tiles tiles2 orig img' drawn'
      { l with
        displayState := l.displayState.wr i new
        fb := { l.fb with cells := l.fb.cells.wr i p } } := by
  have hcell {j : Nat} (hj : j < DISPLAY_COLS) (hij : i ≠ j) {pic : Image}
      (hshows : (cellRect j).Shows img pic) : (cellRect j).Shows img' pic :=
    hshows.of_disjoint (cellRect_le j).1 (cellRect_disjoint hj hi (Ne.symm hij)) hsame
  have hslot {ind : Indicator} (hind : ind ≠ .blank) {pic : Image}
      (hshows : (slotRect (displayIndicators ind)).Shows img pic) :
      (slotRect (displayIndicators ind)).Shows img' pic :=
    hshows.of_disjoint (slotRect_le hind).1 (slotRect_disjoint_cellRect _ i) hsame
  refine ⟨fun j hj hd => ?_, fun j hj hd => ?_, fun ind hind hd => ?_, fun ind hind hd => ?_,
    fun x hx y hy hcells hslots => ?_⟩
  · dsimp only
    by_cases hij : i = j
    · subst hij
      rw [CArray.rd_wr_self _ hi]
      exact hp
    · rw [CArray.rd_wr_ne _ hij]
      refine hcell hj hij (h.cells j hj (((hdrawn _).mp hd).resolve_right fun heq => hij ?_))
      exact (Place.cell.inj heq).symm
  · have hij : i ≠ j := by
      rintro rfl
      exact hd ((hdrawn _).mpr (.inr rfl))
    dsimp only
    rw [CArray.rd_wr_ne _ hij]
    exact (h.cells_kept j hj fun hd' => hd ((hdrawn _).mpr (.inl hd'))).imp_right (hcell hj hij)
  · exact hslot hind (h.slots ind hind (((hdrawn _).mp hd).resolve_right nofun))
  · exact (h.slots_kept ind hind fun hd' => hd ((hdrawn _).mpr (.inl hd'))).imp_right (hslot hind)
  · rw [hsame x hx y (hcells i hi), h.background x hx y hy hcells hslots]

/-- An indicator is drawn. -/
theorem slot (h : LayerShown tiles tiles2 orig img drawn l) {ind : Indicator} (hind : ind ≠ .blank)
    (hdrawn : ∀ p, drawn' p ↔ drawn p ∨ p = .slot (displayIndicators ind).y)
    (hsame : ∀ x < LCD_WIDTH, ∀ y,
      ¬(slotRect (displayIndicators ind)).Contains x y → img' x y = img x y) {tile : Int}
    (hp : (slotRect (displayIndicators ind)).Shows img'
      (SlotPicture.image tiles2 ⟨tile, (displayIndicators ind).rows⟩)) :
    LayerShown tiles tiles2 orig img' drawn'
      { l with
        fb := { l.fb with
          slots := drawIndicator l.fb.slots (displayIndicators ind) tile } } := by
  have hcell {j : Nat} {pic : Image} (hshows : (cellRect j).Shows img pic) :
      (cellRect j).Shows img' pic :=
    hshows.of_disjoint (cellRect_le j).1 (cellRect_disjoint_slotRect j _) hsame
  have hslot {ind' : Indicator} (hind' : ind' ≠ .blank)
      (hy : (displayIndicators ind').y ≠ (displayIndicators ind).y) {pic : Image}
      (hshows : (slotRect (displayIndicators ind')).Shows img pic) :
      (slotRect (displayIndicators ind')).Shows img' pic :=
    hshows.of_disjoint (slotRect_le hind').1 (slotRect_disjoint hind' hind hy) hsame
  refine ⟨fun j hj hd => ?_, fun j hj hd => ?_, fun ind' hind' hd => ?_, fun ind' hind' hd => ?_,
    fun x hx y hy hcells hslots => ?_⟩
  · exact hcell (h.cells j hj (((hdrawn _).mp hd).resolve_right nofun))
  · exact (h.cells_kept j hj fun hd' => hd ((hdrawn _).mpr (.inl hd'))).imp_right hcell
  · dsimp only [drawIndicator]
    by_cases hy : (displayIndicators ind').y = (displayIndicators ind).y
    · rw [hy, Function.update_self, slotRect_congr hind' hind hy]
      exact hp
    · rw [Function.update_of_ne hy]
      refine hslot hind' hy (h.slots ind' hind' (((hdrawn _).mp hd).resolve_right fun heq => hy ?_))
      exact Place.slot.inj heq
  · have hy : (displayIndicators ind').y ≠ (displayIndicators ind).y := by
      intro hy
      exact hd ((hdrawn _).mpr (.inr (congrArg Place.slot hy)))
    dsimp only [drawIndicator]
    rw [Function.update_of_ne hy]
    exact (h.slots_kept ind' hind' fun hd' => hd ((hdrawn _).mpr (.inl hd'))).imp_right
      (hslot hind' hy)
  · rw [hsame x hx y (hslots ind hind), h.background x hx y hy hcells hslots]

end LayerShown

/-! ## `update_display` -/

/-- The engine works with 16 bits per pixel, and the main window is a frame buffer. -/
structure Lt7680.Configured (lcd : Lt7680) : Prop where
  colr : lcd.regs BLT_COLR_REG = 0x25
  miw : regU16 lcd.regs MIW_REG = UInt16.ofNat LCD_WIDTH
  mwulx : regU16 lcd.regs MWULX_REG = 0
  mwuly : regU16 lcd.regs MWULY_REG = 0

/-- The registers of the configuration. -/
def windowRegs : List UInt8 :=
  [BLT_COLR_REG, MIW_REG, MIW_REG + 1, MWULX_REG, MWULX_REG + 1, MWULY_REG, MWULY_REG + 1]

theorem Lt7680.Configured.of_regs {lcd lcd' : Lt7680} (h : lcd.Configured)
    (hregs : ∀ r ∈ windowRegs, lcd'.regs r = lcd.regs r) : lcd'.Configured where
  colr := (hregs _ (by decide)).trans h.colr
  miw := by
    rw [regU16, hregs MIW_REG (by decide), hregs (MIW_REG + 1) (by decide)]
    exact h.miw
  mwulx := by
    rw [regU16, hregs MWULX_REG (by decide), hregs (MWULX_REG + 1) (by decide)]
    exact h.mwulx
  mwuly := by
    rw [regU16, hregs MWULY_REG (by decide), hregs (MWULY_REG + 1) (by decide)]
    exact h.mwuly

/-- Writes to other registers keep the configuration. -/
theorem Lt7680.Configured.issues {ws : List (UInt8 × UInt8)} {lcd lcd' : Lt7680}
    (h : lcd.Configured) (hissues : Issues ws lcd lcd')
    (hws : ∀ r ∈ windowRegs, r ∉ ws.map Prod.fst) : lcd'.Configured :=
  h.of_regs fun r hr => by rw [hissues.regs, RegisterFile.after_of_notMem (hws r hr)]

theorem Lt7680.Configured.unprogrammed {lcd lcd' : Lt7680} (h : lcd.Configured)
    (hkeeps : lcd.KeepsUnprogrammed lcd') : lcd'.Configured := by
  have hall : (windowRegs.all fun r => decide (r ∉ MemoryCopy.addrs.flatten)) = true := by decide
  exact h.of_regs fun r hr => hkeeps r (of_decide_eq_true (List.all_eq_true.mp hall r hr))

/-- The frame buffers do not overlap. -/
theorem layers_apart {k j : Fin 2} (h : j ≠ k) {y : Nat} (hy : y ≤ LCD_HEIGHT) :
    (layerSurface k).Apart y (layerSurface j) LCD_HEIGHT := by
  have hall : ∀ k j : Fin 2, j ≠ k →
      (layerSurface k).Apart LCD_HEIGHT (layerSurface j) LCD_HEIGHT := by decide
  exact (hall k j h).mono hy (Nat.le_refl _)

/-- The memory is in step with the pictures of the layers after the drawings `log`; before them
it was `vram`. -/
structure DisplayMemory.InStep (a : Assets) (vram : Vram) (log : DrawingLog) (ls : Fin 2 → Layer)
    (s : DisplayMemory) : Prop where
  displayState : ∀ k, s.displayState k = (ls k).displayState
  indicatorState : ∀ k, s.indicatorState k = (ls k).indicatorState
  layers : ∀ k, LayerShown (a.disp.surface.pixel vram) (a.disp2.surface.pixel vram)
    ((layerSurface k).pixel vram) ((layerSurface k).pixel s.gpu.vram) (Drew log k) (ls k)
  asked : s.gpu.asked = log.flatMap fun d => d.2.copies a d.1
  inFrame : ∀ c ∈ s.gpu.asked, c.InFrame
  behind : ∀ p, LAYER3_START_ADDR.toNat / 2 ≤ p → s.gpu.vram p = vram p
  configured : s.gpu.lcd.Configured

section Turns

variable {a : Assets} {vram : Vram} {log : DrawingLog} {ls : Fin 2 → Layer} {s : DisplayMemory}

/-- The images with the tiles are those of the beginning. -/
theorem DisplayMemory.InStep.assets (h : s.InStep a vram log ls) :
    a.InMemory (a.disp.surface.pixel vram) (a.disp2.surface.pixel vram) s.gpu.vram :=
  Assets.inMemory_of_behind ⟨fun _ _ _ _ => rfl, fun _ _ _ _ => rfl⟩ h.behind

/-- Something is drawn in the current layer. -/
theorem DisplayMemory.InStep.paint (h : s.InStep a vram log ls) {r : PixelRect}
    (hright : r.x + r.w ≤ LCD_WIDTH) (hbottom : r.y + r.h ≤ LCD_HEIGHT) {g : Gpu} {d : Drawing}
    (hg : s.gpu.Paints s.state r (d.copies a s.state) g) {l : Layer}
    (hl : LayerShown (a.disp.surface.pixel vram) (a.disp2.surface.pixel vram)
      ((layerSurface s.state).pixel vram) ((layerSurface s.state).pixel g.vram)
      (Drew (log ++ [(s.state, d)]) s.state) l)
    (hind : l.indicatorState = (ls s.state).indicatorState) :
    DisplayMemory.InStep a vram (log ++ [(s.state, d)]) (Function.update ls s.state l)
      { s with
        displayState := Function.update s.displayState s.state l.displayState
        gpu := g } := by
  refine ⟨fun k => ?_, fun k => ?_, fun k => ?_, ?_, fun c hc => ?_, fun p hp => ?_,
    h.configured.unprogrammed hg.regs⟩
  · dsimp only
    by_cases hk : k = s.state
    · subst hk
      rw [Function.update_self, Function.update_self]
    · rw [Function.update_of_ne hk, Function.update_of_ne hk, h.displayState]
  · by_cases hk : k = s.state
    · subst hk
      rw [Function.update_self, hind, h.indicatorState]
    · rw [Function.update_of_ne hk, h.indicatorState]
  · by_cases hk : k = s.state
    · subst hk
      rw [Function.update_self]
      exact hl
    · rw [Function.update_of_ne hk]
      refine (h.layers k).congr (fun x hx y hy => ?_) (drew_snoc_ne (Ne.symm hk))
      exact hg.vram.pixel_of_apart hright (layers_apart hk hbottom) hx hy
  · rw [hg.asked, h.asked, List.flatMap_append, List.flatMap_singleton]
  · rw [hg.asked] at hc
    exact (List.mem_append.mp hc).elim (h.inFrame c) (hg.inFrame c)
  · exact (hg.behind hright hbottom hp).trans (h.behind p hp)

/-- A turn of the loop over the cells. -/
theorem drawCellMemory_inStep (e : BlockEngine) (u : Update) (h : s.InStep a vram log ls)
    {i : Nat} (hi : i < DISPLAY_COLS) :
    ∃ s', drawCellMemory e a u s i = some s' ∧ s'.state = s.state ∧
      s'.InStep a vram (log ++ (cellDrawings u (ls s.state) i).map (Prod.mk s.state))
        (Function.update ls s.state (updateCell u (ls s.state) i)) := by
  obtain ⟨hright, hbottom⟩ := cellRect_le i
  rw [drawCellMemory, updateCell, cellDrawings, h.displayState]
  split
  · obtain ⟨g, heq, hpaints, hshows⟩ := cellCopies_paint e s.state a hi (u.newstate.rd i) (u.us i)
      h.configured.colr h.assets
    have hsame : ∀ x < LCD_WIDTH, ∀ y, ¬(cellRect i).Contains x y →
        (layerSurface s.state).pixel g.vram x y = (layerSurface s.state).pixel s.gpu.vram x y :=
      fun x hx y hout => hpaints.vram.pixel hright hx hout
    refine ⟨_, ?_, ?_, h.paint hright hbottom hpaints
      ((h.layers s.state).cell hi drew_snoc_self hsame (u.newstate.rd i) hshows) rfl⟩
    · rw [DisplayMemory.copies, heq]
      rfl
    · rfl
  · refine ⟨s, rfl, rfl, ?_⟩
    rw [Function.update_eq_self, List.map_nil, List.append_nil]
    exact h

theorem foldl_paintIndicator (u : Update) (l : Layer) (is : List Nat) :
    is.foldl (paintIndicator u) l =
      { l with
        fb := { l.fb with
          slots := is.foldl (updateIndicator u.indFlags l.indicatorState) l.fb.slots } } := by
  induction is generalizing l with
  | nil => rfl
  | cons i is ih => rw [List.foldl_cons, ih, paintIndicator, List.foldl_cons]

/-- An indicator is copied. -/
theorem indicatorCopy_inStep (e : BlockEngine) (h : s.InStep a vram log ls)
    {ind : Indicator} (hind : ind ≠ .blank) (shown : Indicator) :
    ∃ s', s.copies e [indicatorCopy (layerAddr s.state) a (displayIndicators ind)
        (displayIndicators shown).tile] = some s' ∧ s'.state = s.state ∧
      s'.InStep a vram
        (log ++ [(s.state, .slot (displayIndicators ind) (displayIndicators shown).tile)])
        (Function.update ls s.state
          { ls s.state with
            fb := { (ls s.state).fb with
              slots := drawIndicator (ls s.state).fb.slots (displayIndicators ind)
                (displayIndicators shown).tile } }) := by
  obtain ⟨hright, hbottom, -⟩ := slotRect_le hind
  obtain ⟨g, heq, hpaints, hshows⟩ := indicatorCopy_paints e s.state a hind shown
    h.configured.colr h.assets
  have hsame : ∀ x < LCD_WIDTH, ∀ y, ¬(slotRect (displayIndicators ind)).Contains x y →
      (layerSurface s.state).pixel g.vram x y = (layerSurface s.state).pixel s.gpu.vram x y :=
    fun x hx y hout => hpaints.vram.pixel hright hx hout
  have hstate : ({ s with
      displayState := Function.update s.displayState s.state (ls s.state).displayState
      gpu := g } : DisplayMemory) = { s with gpu := g } := by
    rw [← h.displayState, Function.update_eq_self]
  refine ⟨{ s with gpu := g }, ?_, rfl, ?_⟩
  · rw [DisplayMemory.copies, List.foldlM_cons, heq]
    rfl
  · rw [← hstate]
    exact h.paint hright hbottom hpaints
      ((h.layers s.state).slot hind drew_snoc_self hsame hshows) rfl

/-- A turn of the loop over the annunciators. -/
theorem drawIndicatorMemory_inStep (e : BlockEngine) (u : Update) (h : s.InStep a vram log ls)
    (i : Nat) :
    ∃ s', drawIndicatorMemory e a u s i = some s' ∧ s'.state = s.state ∧
      s'.InStep a vram (log ++ (indicatorDrawings u (ls s.state) i).map (Prod.mk s.state))
        (Function.update ls s.state (paintIndicator u (ls s.state) i)) := by
  have hnone : ∃ s', some s = some s' ∧ s'.state = s.state ∧
      s'.InStep a vram (log ++ ([] : List Drawing).map (Prod.mk s.state))
        (Function.update ls s.state
          { ls s.state with fb := { (ls s.state).fb with slots := (ls s.state).fb.slots } }) := by
    refine ⟨s, rfl, rfl, ?_⟩
    rw [Function.update_eq_self, List.map_nil, List.append_nil]
    exact h
  rw [drawIndicatorMemory, paintIndicator, updateIndicator, indicatorDrawings, h.indicatorState]
  dsimp only
  split
  · exact hnone
  · rename_i hind
    split
    · exact hnone
    · split
      · exact indicatorCopy_inStep e h hind (lcdIndicatorMap.rd i)
      · split
        · exact hnone
        · exact indicatorCopy_inStep e h hind .blank

/-- The turns of a loop. -/
theorem foldlM_inStep {turn : DisplayMemory → Nat → Option DisplayMemory}
    {paint : Layer → Nat → Layer} {draws : Layer → Nat → List Drawing} {is : List Nat}
    (hturn : ∀ log ls s, s.InStep a vram log ls → ∀ i ∈ is,
      ∃ s', turn s i = some s' ∧ s'.state = s.state ∧
        s'.InStep a vram (log ++ (draws (ls s.state) i).map (Prod.mk s.state))
          (Function.update ls s.state (paint (ls s.state) i)))
    (h : s.InStep a vram log ls) :
    ∃ s', is.foldlM turn s = some s' ∧ s'.state = s.state ∧
      s'.InStep a vram
        (log ++ (Machine.trace paint draws (ls s.state) is).map (Prod.mk s.state))
        (Function.update ls s.state (is.foldl paint (ls s.state))) := by
  induction is generalizing s ls log with
  | nil =>
    refine ⟨s, rfl, rfl, ?_⟩
    rw [List.foldl_nil, Function.update_eq_self, Machine.trace_nil, List.map_nil, List.append_nil]
    exact h
  | cons i is ih =>
    obtain ⟨s₁, heq₁, hstate₁, h₁⟩ := hturn log ls s h i List.mem_cons_self
    obtain ⟨s₂, heq₂, hstate₂, h₂⟩ := ih
      (fun log ls s hs j hj => hturn log ls s hs j (List.mem_cons_of_mem _ hj)) h₁
    rw [hstate₁, Function.update_self, Function.update_idem, List.append_assoc,
      ← List.map_append] at h₂
    refine ⟨s₂, ?_, hstate₂.trans hstate₁, h₂⟩
    rw [List.foldlM_cons, heq₁]
    exact heq₂

/-- The main window starts at the frame buffer that was drawn. -/
theorem setMisaAddr_spec (k : Fin 2) {lcd : Lt7680} (h : lcd.Configured) :
    (lt7680SetMisaAddr (layerAddr k) lcd).Configured ∧
      regU32 (lt7680SetMisaAddr (layerAddr k) lcd).regs MISA_REG = layerAddr k := by
  have hmask : ∀ k, layerAddr k &&& 0xfffffffc = layerAddr k := by decide
  have hissues := spiWriteRegisterU32_issues MISA_REG (layerAddr k) lcd
  rw [lt7680SetMisaAddr, hmask]
  refine ⟨h.issues hissues (by simp [bytesU32, windowRegs]; decide), ?_⟩
  rw [hissues.regs]
  exact regU32_eq rfl rfl rfl rfl

/-- The end of a call: the annunciators are remembered, and no pixel changes. -/
theorem DisplayMemory.InStep.finish (h : s.InStep a vram log ls) (flags : UInt16)
    {lcd : Lt7680} (hlcd : lcd.Configured) (state : Fin 2) :
    DisplayMemory.InStep a vram log
      (Function.update ls s.state { ls s.state with indicatorState := flags })
      { s with
        indicatorState := Function.update s.indicatorState s.state flags
        gpu := { s.gpu with lcd := lcd }
        state := state } := by
  refine ⟨fun k => ?_, fun k => ?_, fun k => ?_, h.asked, h.inFrame, h.behind, hlcd⟩
  · by_cases hk : k = s.state
    · subst hk
      rw [Function.update_self]
      exact h.displayState _
    · rw [Function.update_of_ne hk]
      exact h.displayState k
  · dsimp only
    by_cases hk : k = s.state
    · subst hk
      rw [Function.update_self, Function.update_self]
    · rw [Function.update_of_ne hk, Function.update_of_ne hk, h.indicatorState]
  · by_cases hk : k = s.state
    · subst hk
      rw [Function.update_self]
      obtain ⟨hcells, hcells', hslots, hslots', hbackground⟩ := h.layers s.state
      exact ⟨hcells, hcells', hslots, hslots', hbackground⟩
    · rw [Function.update_of_ne hk]
      exact h.layers k

/-- **A call of `update_display`** keeps the memory in step with the pictures, and the main
window shows the layer that was drawn. -/
theorem updateDisplayMemory_inStep (e : BlockEngine) (u : Update) (h : s.InStep a vram log ls) :
    ∃ s', updateDisplayMemory e a s u = some s' ∧ s'.state = otherLayer s.state ∧
      s'.InStep a vram (log ++ ((ls s.state).drawings u).map (Prod.mk s.state))
        (Function.update ls s.state (updateLayer (ls s.state) u)) ∧
      regU32 s'.gpu.lcd.regs MISA_REG = layerAddr s.state := by
  obtain ⟨s₁, heq₁, hstate₁, h₁⟩ := foldlM_inStep
    (fun log ls s hs i hi => drawCellMemory_inStep e u hs (List.mem_range.mp hi)) h
  obtain ⟨s₂, heq₂, hstate₂, h₂⟩ := foldlM_inStep
    (fun log ls s hs i (_ : i ∈ List.range 16) => drawIndicatorMemory_inStep e u hs i) h₁
  have hstate : s₂.state = s.state := hstate₂.trans hstate₁
  obtain ⟨hconf, hmisa⟩ := setMisaAddr_spec s₂.state h₂.configured
  have hend := h₂.finish u.indFlags.toUInt16 hconf (otherLayer s₂.state)
  rw [hstate₁, Function.update_self, Function.update_idem, foldl_paintIndicator, hstate,
    Function.update_self, Function.update_idem, List.append_assoc, ← List.map_append] at hend
  rw [hstate] at hmisa
  refine ⟨_, ?_, rfl, hend, hmisa⟩
  rw [updateDisplayMemory, heq₁]
  change ((List.range 16).foldlM (drawIndicatorMemory e a u) s₁).bind _ = _
  rw [heq₂, Option.bind_some, hstate]

/-- The panel shows the layer that the main window is. -/
theorem DisplayMemory.InStep.panel_eq (h : s.InStep a vram log ls) {k : Fin 2}
    (hmisa : regU32 s.gpu.lcd.regs MISA_REG = layerAddr k) :
    s.gpu.panel = (layerSurface k).pixel s.gpu.vram := by
  obtain ⟨-, hmiw, hx, hy⟩ := h.configured
  funext x y
  rw [Gpu.panel, surfaceOfRegs, hmisa, hmiw, hx, hy, UInt16.toNat_zero, Nat.zero_add, Nat.zero_add]
  rfl

end Turns

/-! ## `display_init` -/

/-- `lt7680_setup` sets the configuration. -/
theorem lt7680Setup_configured (lcd : Lt7680) :
    ∃ lcd', lt7680Setup (UInt16.ofNat LCD_WIDTH) (UInt16.ofNat LCD_HEIGHT) lcd = some lcd' ∧
      lcd'.Configured := by
  obtain ⟨new, -, heq⟩ :=
    updateField_eq (f := .mainWindowDepth) (by decide) MPWCTR_REG 0x01 lcd
  refine ⟨_, by rw [lt7680Setup, heq]; rfl, rfl, ?_, ?_, ?_⟩
  · exact regU16_eq rfl rfl
  · exact regU16_eq rfl rfl
  · exact regU16_eq rfl rfl

section Writes

variable {lcd : Lt7680} {reg : UInt8}

theorem Lt7680.Configured.dataWrite (h : lcd.Configured) (hcmd : lcd.cmd ∉ windowRegs)
    (val : UInt8) : (spiDataWrite val lcd).Configured :=
  h.of_regs fun r hr => Function.update_of_ne (show r ≠ lcd.cmd by rintro rfl; exact hcmd hr) _ _

theorem Lt7680.Configured.cmdWrite (h : lcd.Configured) (reg : UInt8) :
    (spiCmdWrite reg lcd).Configured := h.of_regs fun _ _ => rfl

theorem Lt7680.Configured.write (h : lcd.Configured) (hreg : reg ∉ windowRegs) (val : UInt8) :
    (spiWriteRegister reg val lcd).Configured := (h.cmdWrite reg).dataWrite hreg val

theorem Lt7680.Configured.writeU16 (h : lcd.Configured) (hreg : reg ∉ windowRegs ∧
    reg + 1 ∉ windowRegs) (val : UInt16) : (spiWriteRegisterU16 reg val lcd).Configured :=
  (h.write hreg.1 _).write hreg.2 _

theorem Lt7680.Configured.writeU32 (h : lcd.Configured) (hreg : reg ∉ windowRegs ∧
    reg + 1 ∉ windowRegs ∧ reg + 2 ∉ windowRegs ∧ reg + 3 ∉ windowRegs) (val : UInt32) :
    (spiWriteRegisterU32 reg val lcd).Configured :=
  (((h.write hreg.1 _).write hreg.2.1 _).write hreg.2.2.1 _).write hreg.2.2.2 _

/-- The start of the engine. -/
theorem Lt7680.Configured.bteOn (h : lcd.Configured) :
    ∃ lcd', lt7680BteOn true lcd = some lcd' ∧ lcd'.Configured := by
  obtain ⟨v, -, heq⟩ := lt7680BteOn_eq lcd
  exact ⟨_, heq, h.write (by decide) v⟩

theorem clearDisplay_configured (h : lcd.Configured) :
    ∃ lcd', clearDisplay lcd = some lcd' ∧ lcd'.Configured := by
  have hdt : (lcd |> lt7680SetDtAddr LAYER1_START_ADDR
      |> lt7680SetDtWidth (UInt16.ofNat LCD_WIDTH)).Configured :=
    (h.writeU32 (by decide) _).writeU32 (by decide) _
  have hxy : (lcd |> lt7680SetDtAddr LAYER1_START_ADDR |> lt7680SetDtWidth (UInt16.ofNat LCD_WIDTH)
      |> lt7680SetDtXy 0 0).Configured := (hdt.writeU16 (by decide) _).writeU16 (by decide) _
  have hwh : (lcd |> lt7680SetDtAddr LAYER1_START_ADDR |> lt7680SetDtWidth (UInt16.ofNat LCD_WIDTH)
      |> lt7680SetDtXy 0 0
      |> lt7680SetBteWh (UInt16.ofNat LCD_WIDTH) (UInt16.ofNat (LCD_HEIGHT * 2))).Configured :=
    (hxy.writeU32 (by decide) _).writeU32 (by decide) _
  exact Lt7680.Configured.bteOn
    ((((hwh.write (by decide) _).write (by decide) _).write (by decide) _).write (by decide) _)

theorem lt7680DisplayOn_configured (h : lcd.Configured) (display_on : Bool) :
    (lt7680DisplayOn display_on lcd).Configured :=
  (h.cmdWrite DPCR_REG).write (by decide) _

theorem bteMemoryCopy_configured (h : lcd.Configured) (a : MemoryCopy) :
    ∃ lcd', lt7680BteMemoryCopy a lcd = some lcd' ∧ lcd'.Configured := by
  obtain ⟨lcd', heq, -, hkeeps⟩ := bteMemoryCopy_regs a lcd
  exact ⟨lcd', heq, h.unprogrammed hkeeps⟩

theorem loadImageToVmem_configured (h : lcd.Configured) (png : PngImage)
    (addr : UInt32) : (loadImageToVmem png addr lcd).lcd.Configured := by
  have hpixels (pixels : List UInt16) {lcd : Lt7680} (h : lcd.Configured)
      (hcmd : lcd.cmd ∉ windowRegs) :
      (pixels.foldl (fun (lcd : Lt7680) (pixel : UInt16) =>
        lcd |> spiDataWrite pixel.toUInt8
          |> spiDataWrite (pixel >>> 8).toUInt8) lcd).Configured := by
    induction pixels generalizing lcd with
    | nil => exact h
    | cons pixel pixels ih => exact ih ((h.dataWrite hcmd _).dataWrite hcmd _) hcmd
  have hcanvas : (lcd |> lt7680SetCanvasAddr addr |> lt7680SetCanvasWidth png.w).Configured :=
    (h.writeU32 (by decide) _).writeU32 (by decide) _
  have hwindow : (lcd |> lt7680SetCanvasAddr addr |> lt7680SetCanvasWidth png.w
      |> lt7680SetActiveWindowXy 0 0 |> lt7680SetActiveWindowWh png.w png.h).Configured :=
    (((hcanvas.writeU16 (by decide) _).writeU16 (by decide) _).writeU16 (by decide) _).writeU16
      (by decide) _
  have hcursor : (lcd |> lt7680SetCanvasAddr addr |> lt7680SetCanvasWidth png.w
      |> lt7680SetActiveWindowXy 0 0 |> lt7680SetActiveWindowWh png.w png.h
      |> lt7680SetGraphicsXy 0 0).Configured :=
    (hwindow.writeU16 (by decide) _).writeU16 (by decide) _
  have hport : (0x04 : UInt8) ∉ windowRegs := by decide
  exact hpixels png.pixels (hcursor.of_regs fun _ _ => rfl) hport

end Writes

/-- The place of an image in memory, behind those loaded before. -/
theorem loadImageToVmem_asset (png : PngImage) (addr : UInt32) (lcd : Lt7680) {w h : Nat}
    (hw : png.w.toNat = w) (hh : png.h.toNat = h) (hbehind : LAYER3_START_ADDR.toNat ≤ addr.toNat)
    (heven : addr.toNat % 2 = 0) (hroom : addr.toNat + 2 * (w * h) < 2 ^ 32) :
    (loadImageToVmem png addr lcd).img.Asset w h ∧
      (loadImageToVmem png addr lcd).addr.toNat = addr.toNat + 2 * (w * h) := by
  refine ⟨⟨hbehind, heven, hw, hh⟩, ?_⟩
  have htwo : (2 : UInt32).toNat = 2 := rfl
  rw [loadImageToVmem]
  simp only [UInt32.toNat_add, UInt32.toNat_mul, UInt16.toNat_toUInt32, hw, hh, htwo]
  omega

/-- **`display_init`** leaves the controller configured, and the images behind the frame
buffers. -/
theorem displayInitMemory_ready {logo disp disp2 : PngImage}
    (hdisp : disp.w.toNat = DISPLAY_CHAR_MAP_W * DISPLAY_CHAR_W ∧
      disp.h.toNat = DISPLAY_CHAR_MAP_H * DISPLAY_CHAR_H)
    (hdisp2 : disp2.w.toNat = DISPLAY_IND_MAP_W * DISPLAY_IND_W ∧
      disp2.h.toNat = DISPLAY_IND_MAP_H * DISPLAY_IND_H.toNat)
    (hroom : logo.w.toNat * logo.h.toNat < 2 ^ 30) (lcd : Lt7680) :
    ∃ a : Assets, ∃ lcd', displayInitMemory logo disp disp2 lcd = some (a.disp, a.disp2, lcd') ∧
      lcd'.Configured := by
  have hstart : LAYER3_START_ADDR.toNat = 921600 := rfl
  have hsize : 921600 + 2 * (logo.w.toNat * logo.h.toNat) + 2 * (DISPLAY_CHAR_MAP_W *
      DISPLAY_CHAR_W * (DISPLAY_CHAR_MAP_H * DISPLAY_CHAR_H)) < 2 ^ 32 := by
    simp only [DISPLAY_CHAR_MAP_W, DISPLAY_CHAR_W, DISPLAY_CHAR_MAP_H, DISPLAY_CHAR_H]
    omega
  have hsize2 : 921600 + 2 * (logo.w.toNat * logo.h.toNat) + 2 * (DISPLAY_CHAR_MAP_W *
      DISPLAY_CHAR_W * (DISPLAY_CHAR_MAP_H * DISPLAY_CHAR_H)) + 2 * (DISPLAY_IND_MAP_W *
      DISPLAY_IND_W * (DISPLAY_IND_MAP_H * DISPLAY_IND_H.toNat)) < 2 ^ 32 := by
    have hrows : DISPLAY_IND_H.toNat = 80 := rfl
    simp only [DISPLAY_CHAR_MAP_W, DISPLAY_CHAR_W, DISPLAY_CHAR_MAP_H, DISPLAY_CHAR_H,
      DISPLAY_IND_MAP_W, DISPLAY_IND_W, DISPLAY_IND_MAP_H, hrows]
    omega
  obtain ⟨lcd₁, heq₁, h₁⟩ := lt7680Setup_configured lcd
  obtain ⟨lcd₂, heq₂, h₂⟩ := clearDisplay_configured h₁
  have h₃ := lt7680DisplayOn_configured h₂ true
  -- the logo
  obtain ⟨logo', hlogo⟩ :
      ∃ l, loadImageToVmem logo LAYER3_START_ADDR (lt7680DisplayOn true lcd₂) = l := ⟨_, rfl⟩
  obtain ⟨-, haddr₃⟩ := loadImageToVmem_asset logo LAYER3_START_ADDR (lt7680DisplayOn true lcd₂) rfl
    rfl (Nat.le_refl _) rfl (by omega)
  have hlogo' := loadImageToVmem_configured h₃ logo LAYER3_START_ADDR
  rw [hlogo] at haddr₃ hlogo'
  obtain ⟨lcd₄, heq₄, h₄⟩ := bteMemoryCopy_configured hlogo' (logoCopy logo'.img)
  -- the tiles of the characters
  obtain ⟨disp', hload⟩ : ∃ l, loadImageToVmem disp logo'.addr lcd₄ = l := ⟨_, rfl⟩
  obtain ⟨hasset, haddr₄⟩ := loadImageToVmem_asset disp logo'.addr lcd₄ hdisp.1 hdisp.2
    (by rw [haddr₃]; exact Nat.le_add_right _ _) (by rw [haddr₃, hstart]; omega)
    (by rw [haddr₃, hstart]; exact hsize)
  have hdisp' := loadImageToVmem_configured h₄ disp logo'.addr
  rw [hload] at hasset haddr₄ hdisp'
  -- the tiles of the indicators
  obtain ⟨disp2', hload2⟩ : ∃ l, loadImageToVmem disp2 disp'.addr disp'.lcd = l := ⟨_, rfl⟩
  obtain ⟨hasset2, -⟩ := loadImageToVmem_asset disp2 disp'.addr disp'.lcd hdisp2.1 hdisp2.2
    (by rw [haddr₄, haddr₃, Nat.add_assoc]; exact Nat.le_add_right _ _)
    (by rw [haddr₄, haddr₃, hstart]; omega) (by rw [haddr₄, haddr₃, hstart]; exact hsize2)
  have hdisp2' := loadImageToVmem_configured hdisp' disp2 disp'.addr
  rw [hload2] at hasset2 hdisp2'
  obtain ⟨lcd₅, heq₅, h₅⟩ := clearDisplay_configured hdisp2'
  refine ⟨⟨disp'.img, disp2'.img, hasset, hasset2⟩, lcd₅, ?_, h₅⟩
  rw [displayInitMemory, heq₁, Option.bind_eq_bind, Option.bind_some, heq₂, Option.bind_some]
  dsimp only
  rw [hlogo, heq₄, Option.bind_some, hload, hload2, heq₅, Option.bind_some]

/-! ## Runs -/

/-- `updateDisplay`, next to what it means for the memory. -/
theorem run_inStep (e : BlockEngine) {a : Assets} {vram : Vram} {log : DrawingLog} {scr : Screen}
    {s : DisplayMemory} (hstate : s.state = scr.current) (h : s.InStep a vram log scr.buffers)
    (us : List Update) :
    ∃ s', us.foldlM (updateDisplayMemory e a) s = some s' ∧
      s'.state = (Machine.run updateDisplay scr us).current ∧
      s'.InStep a vram (log ++ Machine.trace updateDisplay screenDrawings scr us)
        (Machine.run updateDisplay scr us).buffers := by
  induction us generalizing scr s log with
  | nil => exact ⟨s, rfl, hstate, by rw [Machine.trace_nil, List.append_nil]; exact h⟩
  | cons u us ih =>
    obtain ⟨s₁, heq₁, hstate₁, h₁, -⟩ := updateDisplayMemory_inStep e u h
    rw [hstate] at hstate₁ h₁
    obtain ⟨s₂, heq₂, hend⟩ := @ih _ (updateDisplay scr u) s₁ hstate₁ h₁
    rw [List.append_assoc] at hend
    refine ⟨s₂, ?_, hend⟩
    rw [List.foldlM_cons, heq₁]
    exact heq₂

/-- Before the first call, nothing is drawn. -/
theorem init_inStep (a : Assets) {lcd : Lt7680} (h : lcd.Configured) (vram : Vram) :
    (DisplayMemory.init ⟨lcd, vram, []⟩).InStep a vram [] initScreen.buffers where
  displayState _ := rfl
  indicatorState _ := rfl
  layers k :=
    { cells := fun _ _ hd => absurd hd (not_drew_nil _ _)
      cells_kept := fun i hi _ =>
        ⟨by simp [initScreen, initLayer, CArray.rd, hi], fun _ _ _ _ => rfl⟩
      slots := fun _ _ hd => absurd hd (not_drew_nil _ _)
      slots_kept := fun _ _ _ => ⟨rfl, fun _ _ _ _ => rfl⟩
      background := fun _ _ _ _ _ _ => rfl }
  asked := rfl
  inFrame _ hc := absurd hc List.not_mem_nil
  behind _ _ := rfl
  configured := h

/-- After some calls, the panel shows the frame buffer that the last one drew. -/
theorem run_panel (e : BlockEngine) {a : Assets} {vram : Vram} {log : DrawingLog} {scr : Screen}
    {s : DisplayMemory} (hstate : s.state = scr.current) (h : s.InStep a vram log scr.buffers)
    (us : List Update) (u : Update) :
    ∃ s', (us ++ [u]).foldlM (updateDisplayMemory e a) s = some s' ∧
      s'.gpu.panel =
        (layerSurface (Machine.run updateDisplay scr (us ++ [u])).visible).pixel s'.gpu.vram ∧
      s'.InStep a vram (log ++ Machine.trace updateDisplay screenDrawings scr (us ++ [u]))
        (Machine.run updateDisplay scr (us ++ [u])).buffers := by
  obtain ⟨s₁, heq₁, hstate₁, h₁⟩ := run_inStep e hstate h us
  obtain ⟨s₂, heq₂, -, h₂, hmisa⟩ := updateDisplayMemory_inStep e u h₁
  have hpanel := h₂.panel_eq hmisa
  rw [hstate₁] at hpanel h₂
  rw [Machine.run_append, Machine.run_cons, Machine.run_nil, Machine.trace_append,
    Machine.trace_cons, Machine.trace_nil, List.append_nil, ← List.append_assoc]
  refine ⟨s₂, ?_, hpanel, h₂⟩
  rw [List.foldlM_append, heq₁]
  change (updateDisplayMemory e a s₁ u).bind _ = _
  rw [heq₂]
  rfl

/-- **The panel shows the pictures.** After `display_init` and any run of calls of
`update_display`, each pixel of the panel is that of the picture in its place, put together from
the two images; a place that was never drawn in this frame buffer is as it was. The engine was
asked for the rectangles of what was drawn, one after the other and no others, each inside its
frame buffer. Nothing behind the frame buffers changes, and the calls never get stuck. -/
theorem panel_shows_pictures (e : BlockEngine) (logo disp disp2 : PngImage)
    (hdisp : disp.w.toNat = DISPLAY_CHAR_MAP_W * DISPLAY_CHAR_W ∧
      disp.h.toNat = DISPLAY_CHAR_MAP_H * DISPLAY_CHAR_H)
    (hdisp2 : disp2.w.toNat = DISPLAY_IND_MAP_W * DISPLAY_IND_W ∧
      disp2.h.toNat = DISPLAY_IND_MAP_H * DISPLAY_IND_H.toNat)
    (hroom : logo.w.toNat * logo.h.toNat < 2 ^ 30) (lcd : Lt7680) (vram : Vram)
    (us : List Update) (u : Update) :
    let scr := Machine.run updateDisplay initScreen (us ++ [u])
    let log := Machine.trace updateDisplay screenDrawings initScreen (us ++ [u])
    ∃ a : Assets, ∃ lcd', displayInitMemory logo disp disp2 lcd = some (a.disp, a.disp2, lcd') ∧
      ∃ s, (us ++ [u]).foldlM (updateDisplayMemory e a) (.init ⟨lcd', vram, []⟩) = some s ∧
        LayerShown (a.disp.surface.pixel vram) (a.disp2.surface.pixel vram)
          ((layerSurface scr.visible).pixel vram) s.gpu.panel (Drew log scr.visible) scr.shown ∧
        s.gpu.asked = (log.flatMap fun d => d.2.copies a d.1) ∧
        (∀ c ∈ s.gpu.asked, c.InFrame) ∧
        (∀ p, LAYER3_START_ADDR.toNat / 2 ≤ p → s.gpu.vram p = vram p) ∧
        a.InMemory (a.disp.surface.pixel vram) (a.disp2.surface.pixel vram) s.gpu.vram := by
  intro scr log
  obtain ⟨a, lcd', hinit, hlcd⟩ := displayInitMemory_ready hdisp hdisp2 hroom lcd
  obtain ⟨s, hrun, hpanel, h⟩ := run_panel e rfl (init_inStep a hlcd vram) us u
  refine ⟨a, lcd', hinit, s, hrun, ?_, h.asked, h.inFrame, h.behind, h.assets⟩
  rw [hpanel]
  exact h.layers _

/-- The engine, for the copies that it is documented for. -/
def hostEngine : BlockEngine where
  transfer regs := (pixelCopyOfRegs regs).apply
  transfer_copy _ _ _ _ _ _ _ := rfl

/-- Twelve times the digit 4. -/
def foursUpdate : Update where
  newstate := Vector.replicate DISPLAY_COLS { c := 0x34, flags := 0, blink := false }
  indFlags := 0
  forceRefresh := false
  us := fun _ => 0

/-- The first cell on the panel is the tile of the digit, and the first copy was asked for it. -/
theorem panel_shows_four :
    ∃ a : Assets, ∃ lcd', displayInitMemory ⟨200, 322, []⟩ ⟨760, 1120, []⟩ ⟨304, 160, []⟩
        ⟨0, fun _ => 0, []⟩ = some (a.disp, a.disp2, lcd') ∧
      ∃ s, [foursUpdate].foldlM (updateDisplayMemory hostEngine a)
          (.init ⟨lcd', UInt16.ofNat, []⟩) = some s ∧
        (cellRect 0).Shows s.gpu.panel (charPixel (a.disp.surface.pixel UInt16.ofNat) 4) ∧
        s.gpu.asked.head? = some (charLayerCopy 0 a 0 4) := by
  obtain ⟨a, lcd', hinit, s, hrun, hshown, hasked, -⟩ := panel_shows_pictures hostEngine
    ⟨200, 322, []⟩ ⟨760, 1120, []⟩ ⟨304, 160, []⟩ (by decide) (by decide) (by decide)
    ⟨0, fun _ => 0, []⟩ UInt16.ofNat [] foursUpdate
  have hdrawn : Drew (Machine.trace updateDisplay screenDrawings initScreen ([] ++ [foursUpdate]))
      (Machine.run updateDisplay initScreen ([] ++ [foursUpdate])).visible (.cell 0) := by
    decide +kernel
  have hcell : (Machine.run updateDisplay initScreen ([] ++ [foursUpdate])).shown.fb.cells.rd 0 =
      ⟨4, []⟩ := by decide +kernel
  have hpic := hshown.cells 0 (by decide) hdrawn
  rw [hcell] at hpic
  have hfirst : (Machine.trace updateDisplay screenDrawings initScreen
      ([] ++ [foursUpdate])).head? = some (0, .cell 0 ⟨4, []⟩) := by decide +kernel
  obtain ⟨log, hlog⟩ := List.head?_eq_some_iff.mp hfirst
  refine ⟨a, lcd', hinit, s, hrun, hpic, ?_⟩
  rw [hasked, hlog]
  rfl

end LcdPico
