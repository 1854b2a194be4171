import LcdPico.Display
import LcdPico.VideoMemory

/-!
# The display in the memory of the graphics controller (`display.c`)

`update_display` once more, down to the pixels: it copies tiles and parts of tiles from two
images into one of two frame buffers, and then has the controller show that one. The panel is
the one of 240 by 960 pixels (`lcd/er-tft371-1.h`).

What a frame buffer holds is seen as pictures in `Display.lean`; here the copies have the
coordinates of `update_display`, and the pixels go where these say.
-/

namespace LcdPico

/-! ## The panel and the theme -/

def LCD_WIDTH : Nat := 240
def LCD_HEIGHT : Nat := 960
def LAYER2_START_ADDR : UInt32 := 460800
def LAYER3_START_ADDR : UInt32 := 921600

def DISPLAY_X_OFFSET : Nat := 50
def DISPLAY_Y_OFFSET : Nat := 0
def DISPLAY_CHAR_W : Nat := 190
def DISPLAY_CHAR_H : Nat := 80
def DISPLAY_CHAR_MAP_W : Nat := 4
def DISPLAY_CHAR_MAP_H : Nat := 14
def DISPLAY_IND_X_OFFSET : Nat := 0
def DISPLAY_IND_Y_OFFSET : Nat := 0
def DISPLAY_IND_W : Nat := 38
def DISPLAY_IND_MAP_W : Nat := 8
def DISPLAY_IND_MAP_H : Nat := 2

/-- `struct vmem_image`; the size and the depth are not read. -/
structure VmemImage where
  base_addr : UInt32
  w : UInt16
  h : UInt16

/-! ## `display_init` -/

/-- What the decoder of PNG images makes of an image: its size, and its pixels. -/
structure PngImage where
  w : UInt16
  h : UInt16
  pixels : List UInt16

/-- `lt7680_display_on` -/
def lt7680DisplayOn (display_on : Bool) (lcd : Lt7680) : Lt7680 :=
  let (reg, lcd) := spiReadRegister DPCR_REG lcd
  spiWriteRegister DPCR_REG (if display_on then reg ||| 0x40 else reg &&& ~~~0x40) lcd

/-- `clear_display` -/
def clearDisplay : Lt7680 → Option Lt7680 :=
  lt7680BteSolidFill LAYER1_START_ADDR (UInt16.ofNat LCD_WIDTH) 0 0 (UInt16.ofNat LCD_WIDTH)
    (UInt16.ofNat (LCD_HEIGHT * 2)) 0

/-- An image that was loaded, and `vmem_asset_ptr` after it. -/
structure LoadedImage where
  img : VmemImage
  addr : UInt32
  lcd : Lt7680

/-- `load_image_to_vmem` -/
def loadImageToVmem (png : PngImage) (addr : UInt32) (lcd : Lt7680) : LoadedImage :=
  let lcd := lcd |> lt7680SetCanvasAddr addr
    |> lt7680SetCanvasWidth png.w
    |> lt7680SetActiveWindowXy 0 0
    |> lt7680SetActiveWindowWh png.w png.h
    |> lt7680SetGraphicsXy 0 0
    |> spiCmdWrite 0x04
  let lcd := png.pixels.foldl
    (fun (lcd : Lt7680) (pixel : UInt16) =>
      lcd |> spiDataWrite pixel.toUInt8 |> spiDataWrite (pixel >>> 8).toUInt8) lcd
  { img := { base_addr := addr, w := png.w, h := png.h }
    addr := addr + png.w.toUInt32 * png.h.toUInt32 * 2
    lcd := lcd }

/-- `lt7680_bte_memory_copy(0, w, (w - logo->w)/2, (h - logo->h) / 2, logo->base_addr, ...)` -/
def logoCopy (logo : VmemImage) : MemoryCopy where
  d_addr := 0
  d_w := UInt16.ofNat LCD_WIDTH
  d_x := UInt16.ofInt ((LCD_WIDTH - logo.w.toNat : Int).tdiv 2)
  d_y := UInt16.ofInt ((LCD_HEIGHT - logo.h.toNat : Int).tdiv 2)
  s0_addr := logo.base_addr
  s0_w := logo.w
  s0_x := 0
  s0_y := 0
  s1_addr := 0
  s1_w := 0
  s1_x := 0
  s1_y := 0
  w := logo.w
  h := logo.h
  rop := 0x0c

/-- `display_init`, from `lt7680_setup` on: `disp`, `disp2` and the controller. -/
def displayInitMemory (logo disp disp2 : PngImage) (lcd : Lt7680) :
    Option (VmemImage × VmemImage × Lt7680) := do
  let lcd ← lt7680Setup (UInt16.ofNat LCD_WIDTH) (UInt16.ofNat LCD_HEIGHT) lcd
  let lcd ← clearDisplay lcd
  let logo := loadImageToVmem logo LAYER3_START_ADDR (lt7680DisplayOn true lcd)
  let lcd ← lt7680BteMemoryCopy (logoCopy logo.img) logo.lcd
  let disp := loadImageToVmem disp logo.addr lcd
  let disp2 := loadImageToVmem disp2 disp.addr disp.lcd
  let lcd ← clearDisplay disp2.lcd
  some (disp.img, disp2.img, lcd)

/-! ## `update_display` -/

/-- An image behind the frame buffers. -/
structure VmemImage.Asset (img : VmemImage) (w h : Nat) : Prop where
  behind : LAYER3_START_ADDR.toNat ≤ img.base_addr.toNat
  even : img.base_addr.toNat % 2 = 0
  width : img.w.toNat = w
  height : img.h.toNat = h

/-- `disp` and `disp2`: the tiles of the characters and of the indicators. -/
structure Assets where
  disp : VmemImage
  disp2 : VmemImage
  disp_asset :
    disp.Asset (DISPLAY_CHAR_MAP_W * DISPLAY_CHAR_W) (DISPLAY_CHAR_MAP_H * DISPLAY_CHAR_H)
  disp2_asset :
    disp2.Asset (DISPLAY_IND_MAP_W * DISPLAY_IND_W) (DISPLAY_IND_MAP_H * DISPLAY_IND_H.toNat)

/-- `lt7680_bte_memory_copy(fb, LCD_WIDTH, x, y, 0, 0, 0, 0, img->base_addr, img->w, ...)` -/
def copyTile (fb : UInt32) (img : VmemImage) (x y tileX tileY w h : UInt16) : MemoryCopy where
  d_addr := fb
  d_w := UInt16.ofNat LCD_WIDTH
  d_x := x
  d_y := y
  s0_addr := 0
  s0_w := 0
  s0_x := 0
  s0_y := 0
  s1_addr := img.base_addr
  s1_w := img.w
  s1_x := tileX
  s1_y := tileY
  w := w
  h := h
  rop := 0x0a

/-- `x` of a cell -/
def cellX : UInt16 := UInt16.ofNat DISPLAY_X_OFFSET

/-- `y` of a cell -/
def cellY (i : Nat) : UInt16 :=
  UInt16.ofNat (DISPLAY_Y_OFFSET + (DISPLAY_COLS - 1 - i) * DISPLAY_CHAR_H)

/-- `(tile % DISPLAY_CHAR_MAP_W) * DISPLAY_CHAR_W` -/
def charTileX (tile : Int) : UInt16 :=
  UInt16.ofInt (tile.tmod DISPLAY_CHAR_MAP_W * DISPLAY_CHAR_W)

/-- `(tile / DISPLAY_CHAR_MAP_W) * DISPLAY_CHAR_H` -/
def charTileY (tile : Int) : UInt16 :=
  UInt16.ofInt (tile.tdiv DISPLAY_CHAR_MAP_W * DISPLAY_CHAR_H)

/-- `(tile % DISPLAY_IND_MAP_W) * DISPLAY_IND_W` -/
def indTileX (tile : Int) : UInt16 := UInt16.ofInt (tile.tmod DISPLAY_IND_MAP_W * DISPLAY_IND_W)

/-- `(tile / DISPLAY_IND_MAP_W) * DISPLAY_IND_H` -/
def indTileY (tile : Int) : UInt16 := UInt16.ofInt (tile.tdiv DISPLAY_IND_MAP_W * DISPLAY_IND_H)

/-- The tile of a character. -/
def charCopy (fb : UInt32) (a : Assets) (i : Nat) (tile : UInt8) : MemoryCopy :=
  copyTile fb a.disp cellX (cellY i) (charTileX tile.toNat) (charTileY tile.toNat)
    (UInt16.ofNat DISPLAY_CHAR_W) (UInt16.ofNat DISPLAY_CHAR_H)

/-- An overlay of a character. -/
def overlayCopy (fb : UInt32) (a : Assets) (i : Nat) (ov : LcdCharOverlay) : MemoryCopy :=
  copyTile fb a.disp (cellX + UInt16.ofInt ov.x) (cellY i + UInt16.ofInt ov.y)
    (charTileX ov.tile + UInt16.ofInt ov.x) (charTileY ov.tile + UInt16.ofInt ov.y)
    (UInt16.ofInt ov.w) (UInt16.ofInt ov.h)

/-- The copies for a cell. -/
def cellCopies (fb : UInt32) (a : Assets) (i : Nat) (cell : CellState) (us : UInt32) :
    List MemoryCopy :=
  let tile :=
    if cell.blink && blinkOff us then displayTileMap.rd 0x20 else displayTileMap.rd cell.c.toNat
  charCopy fb a i tile ::
    ((List.range DISPLAY_CHAR_OVERLAY_COUNT).filter fun o => cell.flags.toNat.testBit o).map
      fun o => overlayCopy fb a i (displayCharOverlays.rd o)

/-- The tile of an indicator. -/
def indicatorCopy (fb : UInt32) (a : Assets) (d : LcdIndicator) (tile : Int) : MemoryCopy :=
  copyTile fb a.disp2 (UInt16.ofNat DISPLAY_IND_X_OFFSET)
    (UInt16.ofInt (DISPLAY_IND_Y_OFFSET + d.y)) (indTileX tile) (indTileY tile)
    (UInt16.ofNat DISPLAY_IND_W) (UInt16.ofInt d.rows)

/-- The static variables of `update_display`, and the controller. -/
structure DisplayMemory where
  displayState : Fin 2 → Cells
  indicatorState : Fin 2 → UInt16
  state : Fin 2
  gpu : Gpu

/-- `fb` -/
def layerAddr (state : Fin 2) : UInt32 :=
  if state.val = 0 then LAYER1_START_ADDR else LAYER2_START_ADDR

/-- After `display_init`, with the memory that it leaves. -/
def DisplayMemory.init (gpu : Gpu) : DisplayMemory where
  displayState := fun _ => Vector.replicate DISPLAY_COLS default
  indicatorState := fun _ => 0
  state := ⟨0, Nat.two_pos⟩
  gpu := gpu

section Update

variable (e : BlockEngine) (a : Assets)

/-- Some copies, one after the other. -/
def DisplayMemory.copies (s : DisplayMemory) (l : List MemoryCopy) : Option DisplayMemory :=
  (l.foldlM (Gpu.copy e) s.gpu).map fun gpu => { s with gpu := gpu }

/-- A turn of the loop over the cells. -/
def drawCellMemory (u : Update) (s : DisplayMemory) (i : Nat) : Option DisplayMemory :=
  let new := u.newstate.rd i
  let old := (s.displayState s.state).rd i
  if u.forceRefresh || new.c != old.c || new.flags != old.flags || new.blink || old.blink then
    let cells := (s.displayState s.state).wr i new
    { s with displayState := Function.update s.displayState s.state cells }.copies e
      (cellCopies (layerAddr s.state) a i new (u.us i))
  else some s

/-- A turn of the loop over the annunciators. -/
def drawIndicatorMemory (u : Update) (s : DisplayMemory) (i : Nat) : Option DisplayMemory :=
  let ind := lcdIndicatorMap.rd i
  let d := displayIndicators ind
  let on := u.indFlags.toNat.testBit i
  let fb := layerAddr s.state
  if ind = .blank then some s
  else if on = (s.indicatorState s.state).toNat.testBit i ∧ d.mode = 0 then some s
  else if on then s.copies e [indicatorCopy fb a d d.tile]
  else if d.mode = 2 then some s
  else s.copies e [indicatorCopy fb a d (displayIndicators .blank).tile]

/-- `update_display` -/
def updateDisplayMemory (s : DisplayMemory) (u : Update) : Option DisplayMemory := do
  let s ← (List.range DISPLAY_COLS).foldlM (drawCellMemory e a u) s
  let s ← (List.range 16).foldlM (drawIndicatorMemory e a u) s
  some { s with
    indicatorState := Function.update s.indicatorState s.state u.indFlags.toUInt16
    gpu := { s.gpu with lcd := lt7680SetMisaAddr (layerAddr s.state) s.gpu.lcd }
    state := otherLayer s.state }

end Update

/-- What the panel shows: the main window. -/
def Gpu.panel (g : Gpu) (x y : Nat) : UInt16 :=
  (surfaceOfRegs g.lcd.regs MISA_REG MIW_REG).pixel g.vram
    ((regU16 g.lcd.regs MWULX_REG).toNat + x) ((regU16 g.lcd.regs MWULY_REG).toNat + y)

end LcdPico
