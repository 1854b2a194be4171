import LcdPico.DecoderStep
import LcdPico.Lib.SwapChain

/-!
# The display (`display.c`, `img/240x960/nixiethin-theme.h`)

`display_status` lays the decoder's text out in 12 cells, decides when the cells
replace the ones on display, and has `update_display` redraw what changed in one of
two frame buffers.

A frame buffer is seen as the pictures it holds: one for each cell (the tile and the
overlays copied over it) and one for each place of the indicators, which is given by
its `y`. The copies stay inside their cell or place, so a copy replaces a picture or
adds an overlay to it.

Clocks are readings supplied from outside. The 64-bit clock of microseconds does not
wrap around, and is a number. What is only logged is left out.
-/

namespace LcdPico

/-! ## The theme -/

def DISPLAY_COLS : Nat := 12
def DISPLAY_CHAR_BLANK_IDX : UInt8 := 53
def DISPLAY_CHAR_OVERLAY_COUNT : Nat := 3
def DISPLAY_IND_H : Int := 80

/-- `lcd_indicators_types` -/
inductive Indicator where
  | adrs
  | rmt
  | man
  | trig
  | hold
  | mem
  | ratio
  | math
  | error
  | rear
  | shift
  | diode
  | cont
  | fourW
  | smp
  | blank
deriving DecidableEq, Repr

/-- `lcd_indicator_map`: the indicator of each annunciator. -/
def lcdIndicatorMap : CArray Indicator 16 :=
  #v[.smp, .adrs, .rmt, .man, .trig, .hold, .mem, .ratio, .math, .error, .rear, .shift, .diode,
    .cont, .fourW, .blank]

instance : Inhabited Indicator := ⟨.blank⟩

/-- `struct lcd_indicator`. The mask is not read. -/
structure LcdIndicator where
  tile : Int
  h : Int
  y : Int
  mode : Nat
deriving DecidableEq

/-- `display_indicators` -/
def displayIndicators : Indicator → LcdIndicator
  | .adrs => ⟨0, -1, 788, 0⟩
  | .rmt => ⟨1, -1, 708, 0⟩
  | .man => ⟨2, -1, 628, 0⟩
  | .trig => ⟨3, -1, 548, 1⟩
  | .hold => ⟨4, -1, 548, 2⟩
  | .mem => ⟨5, -1, 468, 0⟩
  | .ratio => ⟨6, -1, 388, 0⟩
  | .math => ⟨7, -1, 308, 0⟩
  | .error => ⟨8, -1, 68, 0⟩
  | .rear => ⟨9, -1, 228, 0⟩
  | .shift => ⟨10, -1, 148, 0⟩
  | .diode => ⟨11, 64, 0, 1⟩
  | .cont => ⟨12, 64, 0, 2⟩
  | .fourW => ⟨13, 64, 0, 2⟩
  | .smp => ⟨14, 64, 896, 0⟩
  | .blank => ⟨15, -1, -1, 0⟩

def OVERLAY_PERIOD : Nat := 0
def OVERLAY_COMMA : Nat := 1
def OVERLAY_DOT : Nat := 2

/-- `struct lcd_char_overlay` -/
structure LcdCharOverlay where
  tile : Int
  x : Int
  y : Int
  w : Int
  h : Int
deriving DecidableEq, Inhabited

/-- `display_char_overlays` -/
def displayCharOverlays : CArray LcdCharOverlay DISPLAY_CHAR_OVERLAY_COUNT :=
  #v[⟨54, 140, 4, 20, 8⟩, ⟨55, 140, 4, 24, 12⟩, ⟨55, 60, 4, 20, 8⟩]

/-- `display_chars`, without its end mark -/
def displayChars : List UInt8 :=
  bytes "0123456789ABCDEFGHIJKLMNOPQRSTUVWXYZdkmnz!?'-^#/+=<>_ "

def tolower (c : UInt8) : UInt8 := if 0x41 ≤ c && c ≤ 0x5a then c + 0x20 else c

/-- One turn of the loop of `init_theme`: tile `i` shows the character `c`. -/
def initTile (map : CArray UInt8 256) (c : UInt8) (i : Nat) : CArray UInt8 256 :=
  let map := map.wr c.toNat (UInt8.ofNat i)
  if map.rd (tolower c).toNat = DISPLAY_CHAR_BLANK_IDX then
    map.wr (tolower c).toNat (UInt8.ofNat i)
  else map

/-- `display_tile_map`, as `init_theme` leaves it. -/
def displayTileMap : CArray UInt8 256 :=
  displayChars.zipIdx.foldl (fun map ci => initTile map ci.1 ci.2)
    (Vector.replicate 256 DISPLAY_CHAR_BLANK_IDX)

/-! ## Cells -/

/-- `struct display_cell_state` -/
structure CellState where
  c : UInt8
  flags : UInt8
  blink : Bool
deriving DecidableEq, Repr

instance : Inhabited CellState := ⟨{ c := 0, flags := 0, blink := false }⟩

abbrev Cells : Type := CArray CellState DISPLAY_COLS

/-- A cell as the layout loop makes it: the index of its character, the cell, the
index the next cell begins with, and the indices of the text that were read. -/
structure LaidCell where
  pos : Nat
  cell : CellState
  next : Nat
  reads : List Nat
deriving DecidableEq, Repr

/-- A turn of the layout loop of `display_status`: cell `i`, from index `d`. -/
def layoutCell (dmm : Nat → UInt8) (blinkMask : UInt16) (i d : Nat) : LaidCell :=
  let d := if d > DISPLAY_BUF_LEN - 1 then DISPLAY_BUF_LEN - 1 else d
  let cell : CellState := { c := dmm d, flags := 0, blink := blinkMask.toNat.testBit i }
  -- `d++`
  let d := d + 1
  if dmm d = 0x2e then
    { pos := d - 1
      cell := { cell with flags := 1 <<< UInt8.ofNat OVERLAY_PERIOD }
      next := if dmm (d - 1) ≠ 0x2e then d + 1 else d
      reads := [d - 1, d, d - 1] }
  else if dmm d = 0x2c then
    { pos := d - 1
      cell := { cell with flags := 1 <<< UInt8.ofNat OVERLAY_COMMA }
      next := if dmm (d - 1) ≠ 0x2c then d + 1 else d
      reads := [d - 1, d, d - 1] }
  else if dmm d = 0x3a then
    { pos := d - 1
      cell := { cell with
        flags := 1 <<< UInt8.ofNat OVERLAY_PERIOD ||| 1 <<< UInt8.ofNat OVERLAY_DOT }
      next := if dmm (d - 1) ≠ 0x3a then d + 1 else d
      reads := [d - 1, d, d - 1] }
  else { pos := d - 1, cell := cell, next := d, reads := [d - 1, d] }

/-- The layout loop, with `n` cells left from cell `i` on. -/
def layoutLoop (dmm : Nat → UInt8) (blinkMask : UInt16) : Nat → Nat → Nat → List LaidCell
  | 0, _, _ => []
  | n + 1, i, d =>
    layoutCell dmm blinkMask i d ::
      layoutLoop dmm blinkMask n (i + 1) (layoutCell dmm blinkMask i d).next

/-- The 12 cells of a text. -/
def layout (dmm : Nat → UInt8) (blinkMask : UInt16) : List LaidCell :=
  layoutLoop dmm blinkMask DISPLAY_COLS 0 0

/-- `state->dmm.main[i]`. Behind `main` stands `last_reading`. -/
def DmmContext.mainAt (c : DmmContext) (i : Nat) : UInt8 :=
  if i < DISPLAY_BUF_LEN then c.main.rd i else c.lastReading.rd (i - DISPLAY_BUF_LEN)

/-! ## Frame buffers -/

/-- The picture of a cell: a tile, and the overlays copied over it, in order. -/
structure CellPicture where
  tile : UInt8
  overlays : List LcdCharOverlay
deriving DecidableEq, Inhabited

/-- The picture at a place of the indicators: the upper `h` rows of a tile. -/
structure SlotPicture where
  tile : Int
  h : Int
deriving DecidableEq

/-- What a frame buffer holds. -/
structure FrameBuffer where
  cells : CArray CellPicture DISPLAY_COLS
  slots : Int → SlotPicture

/-- A frame buffer with what `update_display` remembers of it: `display_state[state]`
and `indicator_state[state]`. -/
structure Layer where
  displayState : Cells
  indicatorState : UInt16
  fb : FrameBuffer

/-- The arguments of a call of `update_display`, and the reading of `time_us_32` at
each cell. -/
structure Update where
  newstate : Cells
  indFlags : UInt32
  forceRefresh : Bool
  us : Nat → UInt32

/-- `(time_us_32() / 100000) % 2 == 1` -/
def blinkOff (us : UInt32) : Bool := us / 100000 % 2 == 1

/-- The tile and the overlays that are copied for a cell. -/
def drawCell (cell : CellState) (us : UInt32) : CellPicture where
  tile :=
    if cell.blink && blinkOff us then displayTileMap.rd 0x20 else displayTileMap.rd cell.c.toNat
  overlays :=
    ((List.range DISPLAY_CHAR_OVERLAY_COUNT).filter fun o => cell.flags.toNat.testBit o).map
      displayCharOverlays.rd

/-- A turn of the loop over the cells. -/
def updateCell (u : Update) (l : Layer) (i : Nat) : Layer :=
  let new := u.newstate.rd i
  let old := l.displayState.rd i
  if u.forceRefresh || new.c != old.c || new.flags != old.flags || new.blink || old.blink then
    { l with
      displayState := l.displayState.wr i new
      fb := { l.fb with cells := l.fb.cells.wr i (drawCell new (u.us i)) } }
  else l

/-- The rows copied for an indicator. -/
def LcdIndicator.rows (d : LcdIndicator) : Int := if d.h > 0 then d.h else DISPLAY_IND_H

/-- A copy to the place of an indicator. -/
def drawIndicator (slots : Int → SlotPicture) (d : LcdIndicator) (tile : Int) : Int → SlotPicture :=
  Function.update slots d.y { tile := tile, h := d.rows }

/-- A turn of the loop over the annunciators. -/
def updateIndicator (indFlags : UInt32) (indicatorState : UInt16) (slots : Int → SlotPicture)
    (i : Nat) : Int → SlotPicture :=
  let ind := lcdIndicatorMap.rd i
  let d := displayIndicators ind
  let on := indFlags.toNat.testBit i
  if ind = .blank then slots
  else if on = indicatorState.toNat.testBit i ∧ d.mode = 0 then slots
  else if on then drawIndicator slots d d.tile
  else if d.mode = 2 then slots
  else drawIndicator slots d (displayIndicators .blank).tile

/-- What `update_display` does to the frame buffer that is not shown. -/
def updateLayer (l : Layer) (u : Update) : Layer :=
  let l := (List.range DISPLAY_COLS).foldl (updateCell u) l
  { l with
    fb := { l.fb with
      slots := (List.range 16).foldl (updateIndicator u.indFlags l.indicatorState) l.fb.slots }
    indicatorState := u.indFlags.toUInt16 }

/-- The two frame buffers. -/
abbrev Screen : Type := SwapChain (Fin 2) Layer

/-- `state = (state == 0 ? 1 : 0);` -/
def otherLayer (state : Fin 2) : Fin 2 := if state = 0 then 1 else 0

def updateDisplay (s : Screen) (u : Update) : Screen := SwapChain.step otherLayer updateLayer s u

/-- The picture of a blank indicator at `y`. -/
def blankSlot (y : Int) : SlotPicture :=
  { tile := (displayIndicators .blank).tile
    h := (((lcdIndicatorMap.toList.map displayIndicators).find? fun d => d.y = y).map
      LcdIndicator.rows).getD DISPLAY_IND_H }

/-- A layer after `init_theme`, with the picture of the zeroed cache. -/
def initLayer : Layer where
  displayState := Vector.replicate DISPLAY_COLS default
  indicatorState := 0
  fb :=
    { cells := Vector.replicate DISPLAY_COLS (drawCell default 0)
      slots := blankSlot }

def initScreen : Screen where
  current := 0
  buffers := fun _ => initLayer
  visible := 0

/-! ## `display_status` -/

/-- The variables of `display.c` that `display_status` works on. -/
structure DisplayVars where
  displayActive : Bool
  curDispTxt : DisplayBuf
  curDisp : Cells
  disp : Cells
  newDispTime : Nat
  screen : Screen

/-- `struct system_state` on core 1: the decoder and the published text, with the
variables of `display.c`. -/
structure DisplayState where
  dmm : DmmContext
  disp : DisplayBuf
  vars : DisplayVars

namespace DisplayState

/-- The cells laid out last replace the ones on display. -/
def showText (s : DisplayState) : DisplayState :=
  { s with
    disp := s.vars.curDispTxt
    vars := { s.vars with curDisp := s.vars.disp, newDispTime := 0 } }

/-- `update_display(cur_disp, state->dmm.ann_state, false);` -/
def refresh (s : DisplayState) (us : Nat → UInt32) : DisplayState :=
  { s with
    vars := { s.vars with
      screen := updateDisplay s.vars.screen
        { newstate := s.vars.curDisp
          indFlags := s.dmm.annState.toUInt32
          forceRefresh := false
          us := us } } }

/-- The text of the decoder, laid out in cells. -/
def layoutText (s : DisplayState) (now : Nat) : DisplayState :=
  { s with
    vars := { s.vars with
      disp := Vector.ofFn fun i =>
        ((layout s.dmm.mainAt s.dmm.blinkMask).getD i ⟨0, default, 0, []⟩).cell
      newDispTime := now
      curDispTxt := s.dmm.main } }

end DisplayState

/-- The decoder vouches for the text: a valid reading or a menu text, not corrupt. -/
def DmmContext.vouched (c : DmmContext) : Bool :=
  !c.msg.corruptMsg && (c.msg.validReading || c.msg.menuMsg)

/-- `display_status`. `now` is the reading of `time_us_64`. -/
def displayStatus (s : DisplayState) (newData : Bool) (now : Nat) (us : Nat → UInt32) :
    DisplayState :=
  if !s.vars.displayActive then s
  else if !newData then
    let s := if s.vars.newDispTime > 0 && now > s.vars.newDispTime + 300000 then s.showText else s
    s.refresh us
  else
    let s := s.layoutText now
    let s := if s.dmm.vouched then s.showText else s
    s.refresh us

/-- Power-up, after `display_init`; without a display `display_active` stays false. -/
def displayInit (displayActive : Bool) : DisplayState where
  dmm := decoder34401Init
  disp := displayText []
  vars :=
    { displayActive := displayActive
      curDispTxt := displayText []
      curDisp := Vector.replicate DISPLAY_COLS default
      disp := Vector.replicate DISPLAY_COLS default
      newDispTime := 0
      screen := initScreen }

end LcdPico
