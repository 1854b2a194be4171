import LcdPico.DisplayMemory

/-!
# Pictures as pixels (`display.c`)

A picture of `Display.lean` is a rectangle of pixels, and the copies that `update_display` makes
for it put just these pixels there, and change nothing else.

* `cellCopies_paint` — a cell, with its overlays
* `indicatorCopy_paints` — an indicator

`Gpu.Paints` says of some copies what they change, what they ask the engine for, and that none
of them leaves its frame buffer.
-/

namespace LcdPico

/-! ## Pictures as pixels -/

/-- The pixels of an image. -/
abbrev Image : Type := Nat → Nat → UInt16

def VmemImage.surface (img : VmemImage) : Surface where
  base := img.base_addr.toNat / 2
  width := img.w.toNat

def layerSurface (k : Fin 2) : Surface where
  base := (layerAddr k).toNat / 2
  width := LCD_WIDTH

/-- The place of a cell. -/
def cellRect (i : Nat) : PixelRect where
  x := DISPLAY_X_OFFSET
  y := DISPLAY_Y_OFFSET + (DISPLAY_COLS - 1 - i) * DISPLAY_CHAR_H
  w := DISPLAY_CHAR_W
  h := DISPLAY_CHAR_H

/-- The place of an indicator. -/
def slotRect (d : LcdIndicator) : PixelRect where
  x := DISPLAY_IND_X_OFFSET
  y := (DISPLAY_IND_Y_OFFSET + d.y).toNat
  w := DISPLAY_IND_W
  h := d.rows.toNat

/-- A pixel of a tile, with `perRow` tiles of `w` by `h` pixels in a row. -/
def tilePixel (tiles : Image) (perRow w h tile : Nat) : Image := fun dx dy =>
  tiles (tile % perRow * w + dx) (tile / perRow * h + dy)

/-- The tile of a character. -/
def charPixel (tiles : Image) (tile : Nat) : Image :=
  tilePixel tiles DISPLAY_CHAR_MAP_W DISPLAY_CHAR_W DISPLAY_CHAR_H tile

/-- The part of a cell that an overlay covers. -/
def LcdCharOverlay.rect (ov : LcdCharOverlay) : PixelRect where
  x := ov.x.toNat
  y := ov.y.toNat
  w := ov.w.toNat
  h := ov.h.toNat

/-- An overlay lies over what is there. -/
def overlayPixel (tiles : Image) (pic : Image) (ov : LcdCharOverlay) : Image := fun dx dy =>
  if ov.rect.Contains dx dy then charPixel tiles ov.tile.toNat dx dy else pic dx dy

/-- The picture of a cell. -/
def CellPicture.image (tiles : Image) (p : CellPicture) : Image :=
  p.overlays.foldl (overlayPixel tiles) (charPixel tiles p.tile.toNat)

/-- The picture of an indicator. -/
def SlotPicture.image (tiles : Image) (p : SlotPicture) : Image :=
  tilePixel tiles DISPLAY_IND_MAP_W DISPLAY_IND_W DISPLAY_IND_H.toNat p.tile.toNat

/-! ## What is drawn -/

/-- Something that `update_display` draws: the picture of a cell, or a tile in the place of an
indicator. -/
inductive Drawing where
  | cell (i : Nat) (pic : CellPicture)
  | slot (d : LcdIndicator) (tile : Int)
deriving DecidableEq

/-- A rectangle of a frame buffer, copied from a place in an image. -/
def layerCopy (k : Fin 2) (r : PixelRect) (img : VmemImage) (x y : Nat) : PixelCopy where
  dst := layerSurface k
  rect := r
  src := img.surface
  srcX := x
  srcY := y

/-- The tile of a character. -/
def charLayerCopy (k : Fin 2) (a : Assets) (i tile : Nat) : PixelCopy :=
  layerCopy k (cellRect i) a.disp (tile % DISPLAY_CHAR_MAP_W * DISPLAY_CHAR_W)
    (tile / DISPLAY_CHAR_MAP_W * DISPLAY_CHAR_H)

/-- An overlay: its part of the tile goes to the same part of the cell. -/
def overlayLayerCopy (k : Fin 2) (a : Assets) (i : Nat) (ov : LcdCharOverlay) : PixelCopy :=
  layerCopy k ((cellRect i).part ov.rect) a.disp
    (ov.tile.toNat % DISPLAY_CHAR_MAP_W * DISPLAY_CHAR_W + ov.rect.x)
    (ov.tile.toNat / DISPLAY_CHAR_MAP_W * DISPLAY_CHAR_H + ov.rect.y)

/-- The rectangles that are copied for a drawing in the frame buffer `k`. -/
def Drawing.copies (a : Assets) (k : Fin 2) : Drawing → List PixelCopy
  | .cell i pic => charLayerCopy k a i pic.tile.toNat :: pic.overlays.map (overlayLayerCopy k a i)
  | .slot d tile =>
    [layerCopy k (slotRect d) a.disp2 (tile.toNat % DISPLAY_IND_MAP_W * DISPLAY_IND_W)
      (tile.toNat / DISPLAY_IND_MAP_W * DISPLAY_IND_H.toNat)]

/-- The copy stays inside a frame buffer. -/
def PixelCopy.InFrame (c : PixelCopy) : Prop :=
  c.Fits ∧ (∃ k, c.dst = layerSurface k) ∧ c.rect.x + c.rect.w ≤ LCD_WIDTH ∧
    c.rect.y + c.rect.h ≤ LCD_HEIGHT

/-! ## One copy -/

theorem and_0x1fff {n : UInt16} (h : n.toNat ≤ 0x1fff) : n &&& 0x1fff = n := by
  apply UInt16.toNat_inj.mp
  rw [UInt16.toNat_and, show (0x1fff : UInt16).toNat = 2 ^ 13 - 1 from rfl,
    Nat.and_two_pow_sub_one_eq_mod, Nat.mod_eq_of_lt (by omega)]

/-- From `g` to `g'`, a part of a frame buffer is painted, with the copies `cs`. -/
structure Gpu.Paints (k : Fin 2) (r : PixelRect) (cs : List PixelCopy) (g g' : Gpu) : Prop where
  regs : g.lcd.KeepsUnprogrammed g'.lcd
  vram : (layerSurface k).ChangesIn r g.vram g'.vram
  asked : g'.asked = g.asked ++ cs
  inFrame : ∀ c ∈ cs, c.InFrame

theorem Gpu.Paints.refl (k : Fin 2) (r : PixelRect) (g : Gpu) : g.Paints k r [] g :=
  ⟨fun _ _ => rfl, .refl _ _ _, (List.append_nil _).symm, fun _ hc => absurd hc List.not_mem_nil⟩

theorem Gpu.Paints.trans {k : Fin 2} {r : PixelRect} {cs cs' : List PixelCopy} {g g' g'' : Gpu}
    (h : g.Paints k r cs g') (h' : g'.Paints k r cs' g'') : g.Paints k r (cs ++ cs') g'' where
  regs i hi := (h'.regs i hi).trans (h.regs i hi)
  vram := h.vram.trans h'.vram
  asked := by rw [h'.asked, h.asked, List.append_assoc]
  inFrame c hc := (List.mem_append.mp hc).elim (h.inFrame c) (h'.inFrame c)

theorem Gpu.Paints.mono {k : Fin 2} {r r' : PixelRect} {cs : List PixelCopy} {g g' : Gpu}
    (h : g.Paints k r cs g') (hr : ∀ x y, r.Contains x y → r'.Contains x y) :
    g.Paints k r' cs g' := ⟨h.regs, h.vram.mono hr, h.asked, h.inFrame⟩

/-- The images with the tiles, behind the frame buffers. -/
structure Assets.InMemory (a : Assets) (tiles tiles2 : Image) (vram : Vram) : Prop where
  disp : ∀ x < a.disp.w.toNat, ∀ y < a.disp.h.toNat, a.disp.surface.pixel vram x y = tiles x y
  disp2 : ∀ x < a.disp2.w.toNat, ∀ y < a.disp2.h.toNat,
    a.disp2.surface.pixel vram x y = tiles2 x y

/-- The end of a frame buffer. -/
theorem layer_le (k : Fin 2) :
    (layerAddr k).toNat / 2 + LCD_HEIGHT * LCD_WIDTH ≤ LAYER3_START_ADDR.toNat / 2 := by
  revert k
  decide

/-- A frame buffer ends in front of the images. -/
theorem layer_apart {k : Fin 2} {img : VmemImage} {w h y : Nat} (himg : img.Asset w h)
    (hy : y ≤ LCD_HEIGHT) (n : Nat) : (layerSurface k).Apart y img.surface n := by
  have hbehind := himg.behind
  have hlayer := layer_le k
  have hrows : y * LCD_WIDTH ≤ LCD_HEIGHT * LCD_WIDTH := Nat.mul_le_mul_right _ hy
  refine .inl ?_
  rw [layerSurface, VmemImage.surface]
  dsimp only
  omega

/-- Painting changes nothing behind the frame buffers. -/
theorem Gpu.Paints.behind {k : Fin 2} {r : PixelRect} {cs : List PixelCopy} {g g' : Gpu}
    (h : g.Paints k r cs g') (hw : r.x + r.w ≤ LCD_WIDTH) (hh : r.y + r.h ≤ LCD_HEIGHT) {p : Nat}
    (hp : LAYER3_START_ADDR.toNat / 2 ≤ p) : g'.vram p = g.vram p := by
  refine h.vram p ?_
  rintro ⟨x, y, hin, rfl⟩
  have hlt : (layerSurface k).addr x y < (layerSurface k).base + LCD_HEIGHT * LCD_WIDTH :=
    Surface.addr_lt (s := layerSurface k) (Nat.lt_of_lt_of_le hin.2.1 hw)
      (Nat.lt_of_lt_of_le hin.2.2.2 hh)
  exact absurd (Nat.le_trans (layer_le k) hp) (Nat.not_le.mpr hlt)

theorem VmemImage.Asset.le_addr {img : VmemImage} {w h : Nat} (himg : img.Asset w h) (x y : Nat) :
    LAYER3_START_ADDR.toNat / 2 ≤ img.surface.addr x y :=
  Nat.le_trans (Nat.div_le_div_right himg.behind) (img.surface.le_addr x y)

/-- What is behind the frame buffers holds the images. -/
theorem Assets.inMemory_of_behind {a : Assets} {tiles tiles2 : Image} {vram vram' : Vram}
    (h : a.InMemory tiles tiles2 vram)
    (hsame : ∀ p, LAYER3_START_ADDR.toNat / 2 ≤ p → vram' p = vram p) :
    a.InMemory tiles tiles2 vram' where
  disp x hx y hy := (hsame _ (a.disp_asset.le_addr x y)).trans (h.disp x hx y hy)
  disp2 x hx y hy := (hsame _ (a.disp2_asset.le_addr x y)).trans (h.disp2 x hx y hy)

/-- Painting leaves the images with the tiles. -/
theorem Assets.InMemory.paints {a : Assets} {tiles tiles2 : Image} {k : Fin 2} {r : PixelRect}
    {cs : List PixelCopy} {g g' : Gpu} (h : a.InMemory tiles tiles2 g.vram)
    (hg : g.Paints k r cs g')
    (hw : r.x + r.w ≤ LCD_WIDTH) (hh : r.y + r.h ≤ LCD_HEIGHT) :
    a.InMemory tiles tiles2 g'.vram :=
  Assets.inMemory_of_behind h fun _ hp => hg.behind hw hh hp

theorem le_of_add_le {m n b c : Nat} (h : m + n ≤ b) (hc : b ≤ c) : m ≤ c :=
  Nat.le_trans (Nat.le_of_add_right_le h) hc

/-- A copy of a rectangle of an image. -/
theorem copyTile_eq (e : BlockEngine) (k : Fin 2) {img : VmemImage} {iw ih : Nat}
    (himg : img.Asset iw ih) (hmask : UInt16.ofNat iw &&& 0x1ffc = UInt16.ofNat iw)
    (hih : ih ≤ 0x1fff) {x y tx ty w h : UInt16} {r : PixelRect}
    (hr : (⟨x.toNat, y.toNat, w.toNat, h.toNat⟩ : PixelRect) = r) (hright : r.x + r.w ≤ LCD_WIDTH)
    (hbottom : r.y + r.h ≤ LCD_HEIGHT) (htx : tx.toNat + r.w ≤ iw) (hty : ty.toNat + r.h ≤ ih)
    {g : Gpu} (hcolr : g.lcd.regs BLT_COLR_REG = 0x25) :
    ∃ g', g.copy e (copyTile (layerAddr k) img x y tx ty w h) = some g' ∧
      g.Paints k r [layerCopy k r img tx.toNat ty.toNat] g' ∧
      g'.vram = blit (layerSurface k) r img.surface tx.toNat ty.toNat g.vram := by
  subst hr
  dsimp only at hright hbottom htx hty
  have hwidth := himg.width
  rw [← hwidth, UInt16.ofNat_toNat] at hmask
  have hiw : img.w.toNat ≤ 0x1fff := by
    rw [← hmask, UInt16.toNat_and]
    exact Nat.le_trans Nat.and_le_right (by decide)
  have hrange : (copyTile (layerAddr k) img x y tx ty w h).InRange :=
    { rop := rfl
      dtAddr := (by decide : ∀ k, (layerAddr k).toNat % 2 = 0) k
      dtWidth := (by decide : UInt16.ofNat LCD_WIDTH &&& 0x1ffc = UInt16.ofNat LCD_WIDTH)
      dtX := and_0x1fff (n := x) (le_of_add_le hright (by decide))
      dtY := and_0x1fff (n := y) (le_of_add_le hbottom (by decide))
      s1Addr := himg.even
      s1Width := hmask
      s1X := and_0x1fff (n := tx) (le_of_add_le htx (by omega))
      s1Y := and_0x1fff (n := ty) (le_of_add_le hty hih)
      width := and_0x1fff (n := w) (le_of_add_le (Nat.add_comm _ _ ▸ hright) (by decide))
      height := and_0x1fff (n := h) (le_of_add_le (Nat.add_comm _ _ ▸ hbottom) (by decide)) }
  have hfits : (copyTile (layerAddr k) img x y tx ty w h).pixelCopy.Fits :=
    ⟨hright, by rw [← hwidth] at htx; exact htx, layer_apart himg hbottom _⟩
  obtain ⟨lcd, heq, hkeeps⟩ := Gpu.copy_eq e hrange hfits hcolr
  refine ⟨_, heq, ⟨hkeeps, .blit _ _ _ _ _ _, rfl, fun c hc => ?_⟩, rfl⟩
  rw [List.mem_singleton.mp hc]
  exact ⟨hfits, ⟨k, rfl⟩, hright, hbottom⟩

/-- A tile fills a place. -/
theorem copyTile_fills (e : BlockEngine) (k : Fin 2) {img : VmemImage} {iw ih : Nat}
    (himg : img.Asset iw ih) (hmask : UInt16.ofNat iw &&& 0x1ffc = UInt16.ofNat iw)
    (hih : ih ≤ 0x1fff) {x y tx ty w h : UInt16} {r : PixelRect}
    (hr : (⟨x.toNat, y.toNat, w.toNat, h.toNat⟩ : PixelRect) = r) (hright : r.x + r.w ≤ LCD_WIDTH)
    (hbottom : r.y + r.h ≤ LCD_HEIGHT) (htx : tx.toNat + r.w ≤ iw) (hty : ty.toNat + r.h ≤ ih)
    {g : Gpu} (hcolr : g.lcd.regs BLT_COLR_REG = 0x25) {tiles : Image}
    (htiles : ∀ x < img.w.toNat, ∀ y < img.h.toNat, img.surface.pixel g.vram x y = tiles x y) :
    ∃ g', g.copy e (copyTile (layerAddr k) img x y tx ty w h) = some g' ∧
      g.Paints k r [layerCopy k r img tx.toNat ty.toNat] g' ∧
      r.Shows ((layerSurface k).pixel g'.vram)
        fun dx dy => tiles (tx.toNat + dx) (ty.toNat + dy) := by
  obtain ⟨g', heq, hpaints, hvram⟩ := copyTile_eq e k himg hmask hih hr hright hbottom htx hty hcolr
  refine ⟨g', heq, hpaints, fun dx hdx dy hdy => ?_⟩
  rw [hvram, shows_blit_self hright dx hdx dy hdy]
  refine htiles _ ?_ _ ?_
  · rw [himg.width]
    exact Nat.lt_of_lt_of_le (Nat.add_lt_add_left hdx _) htx
  · rw [himg.height]
    exact Nat.lt_of_lt_of_le (Nat.add_lt_add_left hdy _) hty

/-! ## A cell -/

theorem displayTileMap_lt (c : UInt8) : (displayTileMap.rd c.toNat).toNat < 54 := by
  have hall : ((List.range 256).all fun i => decide ((displayTileMap.rd i).toNat < 54)) = true := by
    decide +kernel
  exact of_decide_eq_true (List.all_eq_true.mp hall _ (List.mem_range.mpr c.toNat_lt))

/-- A tile of a character, and its place in the image. -/
theorem charTile_toNat {tile : Nat} (h : tile < 56) :
    (charTileX tile).toNat = tile % DISPLAY_CHAR_MAP_W * DISPLAY_CHAR_W ∧
      (charTileY tile).toNat = tile / DISPLAY_CHAR_MAP_W * DISPLAY_CHAR_H ∧
      (charTileX tile).toNat + DISPLAY_CHAR_W ≤ DISPLAY_CHAR_MAP_W * DISPLAY_CHAR_W ∧
      (charTileY tile).toNat + DISPLAY_CHAR_H ≤ DISPLAY_CHAR_MAP_H * DISPLAY_CHAR_H := by
  revert tile
  decide

theorem cellRect_eq {i : Nat} (h : i < DISPLAY_COLS) :
    (⟨cellX.toNat, (cellY i).toNat, (UInt16.ofNat DISPLAY_CHAR_W).toNat,
      (UInt16.ofNat DISPLAY_CHAR_H).toNat⟩ : PixelRect) = cellRect i := by
  revert i
  decide

theorem cellRect_le (i : Nat) :
    (cellRect i).x + (cellRect i).w ≤ LCD_WIDTH ∧ (cellRect i).y + (cellRect i).h ≤ LCD_HEIGHT := by
  refine ⟨Nat.le_refl _, ?_⟩
  simp only [cellRect, DISPLAY_Y_OFFSET, DISPLAY_COLS, DISPLAY_CHAR_H, LCD_HEIGHT]
  omega

/-- The tile of a character fills the cell. -/
theorem charCopy_paints (e : BlockEngine) (k : Fin 2) (a : Assets) {tiles tiles2 : Image} {i : Nat}
    (hi : i < DISPLAY_COLS) {tile : UInt8} (htile : tile.toNat < 54) {g : Gpu}
    (hcolr : g.lcd.regs BLT_COLR_REG = 0x25) (hassets : a.InMemory tiles tiles2 g.vram) :
    ∃ g', g.copy e (charCopy (layerAddr k) a i tile) = some g' ∧
      g.Paints k (cellRect i) [charLayerCopy k a i tile.toNat] g' ∧
      (cellRect i).Shows ((layerSurface k).pixel g'.vram) (charPixel tiles tile.toNat) := by
  obtain ⟨hright, hbottom⟩ := cellRect_le i
  obtain ⟨htx, hty, hcol, hrow⟩ := charTile_toNat (Nat.lt_trans htile (by decide))
  have hfills := copyTile_fills e k a.disp_asset (by decide) (by decide) (cellRect_eq hi) hright
    hbottom hcol hrow hcolr hassets.disp
  rw [htx, hty] at hfills
  exact hfills

/-- The part of a cell that an overlay covers, and the same part of its tile. -/
theorem overlay_toNat : ∀ i < DISPLAY_COLS, ∀ ov ∈ displayCharOverlays.toList,
    (⟨(cellX + UInt16.ofInt ov.x).toNat, (cellY i + UInt16.ofInt ov.y).toNat,
        (UInt16.ofInt ov.w).toNat, (UInt16.ofInt ov.h).toNat⟩ : PixelRect) =
      (cellRect i).part ov.rect ∧
    (charTileX ov.tile + UInt16.ofInt ov.x).toNat =
      ov.tile.toNat % DISPLAY_CHAR_MAP_W * DISPLAY_CHAR_W + ov.rect.x ∧
    (charTileY ov.tile + UInt16.ofInt ov.y).toNat =
      ov.tile.toNat / DISPLAY_CHAR_MAP_W * DISPLAY_CHAR_H + ov.rect.y := by
  decide +kernel

/-- An overlay stays inside the cell, and inside the image. -/
theorem overlay_le : ∀ ov ∈ displayCharOverlays.toList,
    ov.rect.x + ov.rect.w ≤ DISPLAY_CHAR_W ∧ ov.rect.y + ov.rect.h ≤ DISPLAY_CHAR_H ∧
      ov.tile.toNat % DISPLAY_CHAR_MAP_W * DISPLAY_CHAR_W + DISPLAY_CHAR_W ≤
        DISPLAY_CHAR_MAP_W * DISPLAY_CHAR_W ∧
      ov.tile.toNat / DISPLAY_CHAR_MAP_W * DISPLAY_CHAR_H + DISPLAY_CHAR_H ≤
        DISPLAY_CHAR_MAP_H * DISPLAY_CHAR_H := by
  decide +kernel

/-- A part stays inside what the whole stays inside. -/
theorem part_le {start offset n whole bound : Nat} (hpart : offset + n ≤ whole)
    (hwhole : start + whole ≤ bound) : start + offset + n ≤ bound := by omega

/-- An overlay lies over the picture of the cell. -/
theorem overlayCopy_paints (e : BlockEngine) (k : Fin 2) (a : Assets) {tiles tiles2 : Image}
    {i : Nat} (hi : i < DISPLAY_COLS) {ov : LcdCharOverlay} (hov : ov ∈ displayCharOverlays.toList)
    {g : Gpu} (hcolr : g.lcd.regs BLT_COLR_REG = 0x25) (hassets : a.InMemory tiles tiles2 g.vram)
    {pic : Image} (hpic : (cellRect i).Shows ((layerSurface k).pixel g.vram) pic) :
    ∃ g', g.copy e (overlayCopy (layerAddr k) a i ov) = some g' ∧
      g.Paints k (cellRect i) [overlayLayerCopy k a i ov] g' ∧
      (cellRect i).Shows ((layerSurface k).pixel g'.vram) (overlayPixel tiles pic ov) := by
  obtain ⟨hright, hbottom⟩ := cellRect_le i
  obtain ⟨hrect, htx, hty⟩ := overlay_toNat i hi ov hov
  obtain ⟨hinx, hiny, hcol, hrow⟩ := overlay_le ov hov
  have hpart : ∀ x y, ((cellRect i).part ov.rect).Contains x y → (cellRect i).Contains x y :=
    fun _ _ => PixelRect.contains_of_part hinx hiny
  have hright' : (cellRect i).x + ov.rect.x + ov.rect.w ≤ LCD_WIDTH := part_le hinx hright
  have hbottom' : (cellRect i).y + ov.rect.y + ov.rect.h ≤ LCD_HEIGHT := part_le hiny hbottom
  have hcol' : (charTileX ov.tile + UInt16.ofInt ov.x).toNat + ov.rect.w ≤
      DISPLAY_CHAR_MAP_W * DISPLAY_CHAR_W := by
    rw [htx]
    exact part_le hinx hcol
  have hrow' : (charTileY ov.tile + UInt16.ofInt ov.y).toNat + ov.rect.h ≤
      DISPLAY_CHAR_MAP_H * DISPLAY_CHAR_H := by
    rw [hty]
    exact part_le hiny hrow
  obtain ⟨g', heq, hpaints, hvram⟩ := copyTile_eq e k a.disp_asset (by decide) (by decide) hrect
    hright' hbottom' hcol' hrow' hcolr
  rw [htx, hty] at hpaints hvram
  refine ⟨g', heq, hpaints.mono hpart, fun dx hdx dy hdy => ?_⟩
  rw [hvram, shows_blit_part hpic hright dx hdx dy hdy]
  refine if_congr Iff.rfl (hassets.disp _ ?_ _ ?_) rfl
  · rw [a.disp_asset.width]
    exact Nat.lt_of_lt_of_le (Nat.add_lt_add_left hdx _) hcol
  · rw [a.disp_asset.height]
    exact Nat.lt_of_lt_of_le (Nat.add_lt_add_left hdy _) hrow

/-! ## The copies for a cell -/

/-- The copies keep the depth that the engine works with. -/
theorem Gpu.Paints.colr {k : Fin 2} {r : PixelRect} {cs : List PixelCopy} {g g' : Gpu}
    (h : g.Paints k r cs g') (hcolr : g.lcd.regs BLT_COLR_REG = 0x25) :
    g'.lcd.regs BLT_COLR_REG = 0x25 :=
  (h.regs BLT_COLR_REG (by decide)).trans hcolr

/-- The overlays of a cell, one over the other. -/
theorem overlays_paint (e : BlockEngine) (k : Fin 2) (a : Assets) {tiles tiles2 : Image} {i : Nat}
    (hi : i < DISPLAY_COLS) {ovs : List LcdCharOverlay}
    (hovs : ∀ ov ∈ ovs, ov ∈ displayCharOverlays.toList) {g : Gpu}
    (hcolr : g.lcd.regs BLT_COLR_REG = 0x25) (hassets : a.InMemory tiles tiles2 g.vram)
    {pic : Image} (hpic : (cellRect i).Shows ((layerSurface k).pixel g.vram) pic) :
    ∃ g', (ovs.map (overlayCopy (layerAddr k) a i)).foldlM (Gpu.copy e) g = some g' ∧
      g.Paints k (cellRect i) (ovs.map (overlayLayerCopy k a i)) g' ∧
      (cellRect i).Shows ((layerSurface k).pixel g'.vram) (ovs.foldl (overlayPixel tiles) pic) := by
  induction ovs generalizing g pic with
  | nil => exact ⟨g, rfl, .refl _ _ _, hpic⟩
  | cons ov ovs ih =>
    obtain ⟨hov, hovs⟩ := List.forall_mem_cons.mp hovs
    obtain ⟨hright, hbottom⟩ := cellRect_le i
    obtain ⟨g₁, heq₁, hpaints₁, hshows₁⟩ := overlayCopy_paints e k a hi hov hcolr hassets hpic
    obtain ⟨g₂, heq₂, hpaints₂, hshows₂⟩ := ih hovs (hpaints₁.colr hcolr)
      (hassets.paints hpaints₁ hright hbottom) hshows₁
    refine ⟨g₂, ?_, hpaints₁.trans hpaints₂, hshows₂⟩
    rw [List.map_cons, List.foldlM_cons, heq₁]
    exact heq₂

/-- **A cell** ends up with its picture. -/
theorem cellCopies_paint (e : BlockEngine) (k : Fin 2) (a : Assets) {tiles tiles2 : Image} {i : Nat}
    (hi : i < DISPLAY_COLS) (cell : CellState) (us : UInt32) {g : Gpu}
    (hcolr : g.lcd.regs BLT_COLR_REG = 0x25) (hassets : a.InMemory tiles tiles2 g.vram) :
    ∃ g', (cellCopies (layerAddr k) a i cell us).foldlM (Gpu.copy e) g = some g' ∧
      g.Paints k (cellRect i) ((Drawing.cell i (drawCell cell us)).copies a k) g' ∧
      (cellRect i).Shows ((layerSurface k).pixel g'.vram) ((drawCell cell us).image tiles) := by
  obtain ⟨hright, hbottom⟩ := cellRect_le i
  have htile : (drawCell cell us).tile.toNat < 54 := by
    rw [drawCell]
    dsimp only
    split
    · exact displayTileMap_lt 0x20
    · exact displayTileMap_lt cell.c
  have hovs : ∀ ov ∈ (drawCell cell us).overlays, ov ∈ displayCharOverlays.toList := by
    intro ov hov
    obtain ⟨o, ho, rfl⟩ := List.mem_map.mp hov
    have hlt := List.mem_range.mp (List.mem_of_mem_filter ho)
    rw [CArray.rd, Vector.getElem?_eq_getElem hlt]
    exact Vector.mem_toList_iff.mpr (Vector.getElem_mem hlt)
  obtain ⟨g₁, heq₁, hpaints₁, hshows₁⟩ := charCopy_paints e k a hi htile hcolr hassets
  obtain ⟨g₂, heq₂, hpaints₂, hshows₂⟩ := overlays_paint e k a hi hovs (hpaints₁.colr hcolr)
    (hassets.paints hpaints₁ hright hbottom) hshows₁
  refine ⟨g₂, ?_, hpaints₁.trans hpaints₂, hshows₂⟩
  have hcopies : cellCopies (layerAddr k) a i cell us =
      charCopy (layerAddr k) a i (drawCell cell us).tile ::
        (drawCell cell us).overlays.map (overlayCopy (layerAddr k) a i) := by
    rw [cellCopies, drawCell, List.map_map]
    rfl
  rw [hcopies, List.foldlM_cons, heq₁]
  exact heq₂

/-! ## An indicator -/

/-- A tile of an indicator, and its place in the image. -/
theorem indTile_toNat {tile : Nat} (h : tile < 16) :
    (indTileX tile).toNat = tile % DISPLAY_IND_MAP_W * DISPLAY_IND_W ∧
      (indTileY tile).toNat = tile / DISPLAY_IND_MAP_W * DISPLAY_IND_H.toNat ∧
      (indTileX tile).toNat + DISPLAY_IND_W ≤ DISPLAY_IND_MAP_W * DISPLAY_IND_W ∧
      (indTileY tile).toNat + DISPLAY_IND_H.toNat ≤ DISPLAY_IND_MAP_H * DISPLAY_IND_H.toNat := by
  revert tile
  decide

theorem slotRect_eq {ind : Indicator} (h : ind ≠ .blank) :
    (⟨(UInt16.ofNat DISPLAY_IND_X_OFFSET).toNat,
      (UInt16.ofInt (DISPLAY_IND_Y_OFFSET + (displayIndicators ind).y)).toNat,
      (UInt16.ofNat DISPLAY_IND_W).toNat,
      (UInt16.ofInt (displayIndicators ind).rows).toNat⟩ : PixelRect) =
      slotRect (displayIndicators ind) := by
  cases ind <;> first
    | exact absurd rfl h
    | decide

theorem slotRect_le {ind : Indicator} (h : ind ≠ .blank) :
    (slotRect (displayIndicators ind)).x + (slotRect (displayIndicators ind)).w ≤ LCD_WIDTH ∧
      (slotRect (displayIndicators ind)).y + (slotRect (displayIndicators ind)).h ≤ LCD_HEIGHT ∧
      (slotRect (displayIndicators ind)).h ≤ DISPLAY_IND_H.toNat := by
  cases ind <;> first
    | exact absurd rfl h
    | decide

theorem indicator_tile (ind : Indicator) :
    ∃ tile < 16, (displayIndicators ind).tile = (tile : Nat) := by
  cases ind <;> exact ⟨_, by decide, rfl⟩

/-- **An indicator**, or a blank in its place. -/
theorem indicatorCopy_paints (e : BlockEngine) (k : Fin 2) (a : Assets) {tiles tiles2 : Image}
    {ind : Indicator} (hind : ind ≠ .blank) (shown : Indicator) {g : Gpu}
    (hcolr : g.lcd.regs BLT_COLR_REG = 0x25) (hassets : a.InMemory tiles tiles2 g.vram) :
    ∃ g', g.copy e (indicatorCopy (layerAddr k) a (displayIndicators ind)
        (displayIndicators shown).tile) = some g' ∧
      g.Paints k (slotRect (displayIndicators ind))
        ((Drawing.slot (displayIndicators ind) (displayIndicators shown).tile).copies a k) g' ∧
      (slotRect (displayIndicators ind)).Shows ((layerSurface k).pixel g'.vram)
        (SlotPicture.image tiles2
          ⟨(displayIndicators shown).tile, (displayIndicators ind).rows⟩) := by
  obtain ⟨hright, hbottom, hrows⟩ := slotRect_le hind
  obtain ⟨tile, htile, heq⟩ := indicator_tile shown
  obtain ⟨htx, hty, hcol, hrow⟩ := indTile_toNat htile
  have hfills := copyTile_fills e k a.disp2_asset (by decide) (by decide) (slotRect_eq hind) hright
    hbottom hcol (Nat.le_trans (Nat.add_le_add_left hrows _) hrow) hcolr hassets.disp2
  rw [htx, hty] at hfills
  rw [heq]
  exact hfills

end LcdPico
