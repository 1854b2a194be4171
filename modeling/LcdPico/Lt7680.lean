import LcdPico.Lib.RegisterFile

/-!
# The graphics controller (`lt7680.c`, `lt7680.h`)

The driver writes the registers of the controller over SPI: a command selects a
register, and a byte of data goes into it. A register of 16 or 32 bits is two or four
registers of one byte, the lowest byte first. Next to the registers the model keeps
the writes made so far, in order.

What the driver waits for (the status of the controller, times) is left out: it
writes no register.
-/

namespace LcdPico

/-! ## Registers -/

def SRR_REG : UInt8 := 0x00
def CCR_REG : UInt8 := 0x01
def MACR_REG : UInt8 := 0x02
def ICR_REG : UInt8 := 0x03
def PLLLC1_REG : UInt8 := 0x05
def PLLLC2_REG : UInt8 := 0x06
def MPLLC1_REG : UInt8 := 0x07
def MPLLC2_REG : UInt8 := 0x08
def CPLLC1_REG : UInt8 := 0x09
def CPLLC2_REG : UInt8 := 0x0a
def MPWCTR_REG : UInt8 := 0x10
def DPCR_REG : UInt8 := 0x12
def PCSR_REG : UInt8 := 0x13
def HDWR_REG : UInt8 := 0x14
def HDWRFTR_REG : UInt8 := 0x15
def HNDR_REG : UInt8 := 0x16
def HNDRFTR_REG : UInt8 := 0x17
def HSTR_REG : UInt8 := 0x18
def HPWR_REG : UInt8 := 0x19
/-- 16 bits -/
def VHDR_REG : UInt8 := 0x1a
/-- 16 bits -/
def VNDR_REG : UInt8 := 0x1c
def VSTR_REG : UInt8 := 0x1e
def VPWR_REG : UInt8 := 0x1f
/-- 32 bits -/
def MISA_REG : UInt8 := 0x20
/-- 16 bits -/
def MIW_REG : UInt8 := 0x24
/-- 16 bits -/
def MWULX_REG : UInt8 := 0x26
/-- 16 bits -/
def MWULY_REG : UInt8 := 0x28
/-- 32 bits -/
def CVSSA_REG : UInt8 := 0x50
/-- 16 bits -/
def CVSIMWTH_REG : UInt8 := 0x54
/-- 16 bits -/
def AWULX_REG : UInt8 := 0x56
/-- 16 bits -/
def AWULY_REG : UInt8 := 0x58
/-- 16 bits -/
def AWWTH_REG : UInt8 := 0x5a
/-- 16 bits -/
def AWHT_REG : UInt8 := 0x5c
def AW_COLOR_REG : UInt8 := 0x5e
/-- 16 bits -/
def CURH_REG : UInt8 := 0x5f
/-- 16 bits -/
def CURV_REG : UInt8 := 0x61
def BLT_CTRL0_REG : UInt8 := 0x90
def BLT_CTRL1_REG : UInt8 := 0x91
def BLT_COLR_REG : UInt8 := 0x92
/-- 32 bits -/
def S0_STR_REG : UInt8 := 0x93
/-- 16 bits -/
def S0_WTH_REG : UInt8 := 0x97
/-- 16 bits -/
def S0_X_REG : UInt8 := 0x99
/-- 16 bits -/
def S0_Y_REG : UInt8 := 0x9b
/-- 32 bits -/
def S1_STR_REG : UInt8 := 0x9d
/-- 16 bits -/
def S1_WTH_REG : UInt8 := 0xa1
/-- 16 bits -/
def S1_X_REG : UInt8 := 0xa3
/-- 16 bits -/
def S1_Y_REG : UInt8 := 0xa5
/-- 32 bits -/
def DT_STR_REG : UInt8 := 0xa7
/-- 16 bits -/
def DT_WTH_REG : UInt8 := 0xab
/-- 16 bits -/
def DT_X_REG : UInt8 := 0xad
/-- 16 bits -/
def DT_Y_REG : UInt8 := 0xaf
/-- 16 bits -/
def BLT_WTH_REG : UInt8 := 0xb1
/-- 16 bits -/
def BLT_HIG_REG : UInt8 := 0xb3
def APB_CTR_REG : UInt8 := 0xb5
def DMA_CTRL_REG : UInt8 := 0xb6
def FGCR_REG : UInt8 := 0xd2
def FGCG_REG : UInt8 := 0xd3
def FGCB_REG : UInt8 := 0xd4
def SDRAR_REG : UInt8 := 0xe0
def SDRMD_REG : UInt8 := 0xe1
/-- 16 bits -/
def SDRREF_REG : UInt8 := 0xe2
def SDRCR_REG : UInt8 := 0xe4

/-! ## The bus -/

/-- The controller, and what was written to it. -/
structure Lt7680 where
  /-- the register that the last command selected -/
  cmd : UInt8
  regs : UInt8 → UInt8
  writes : List (UInt8 × UInt8)

def spiCmdWrite (cmd : UInt8) (lcd : Lt7680) : Lt7680 := { lcd with cmd := cmd }

def spiDataWrite (data : UInt8) (lcd : Lt7680) : Lt7680 :=
  { lcd with
    regs := Function.update lcd.regs lcd.cmd data
    writes := lcd.writes ++ [(lcd.cmd, data)] }

def spiDataRead (lcd : Lt7680) : UInt8 := lcd.regs lcd.cmd

def spiReadRegister (reg : UInt8) (lcd : Lt7680) : UInt8 × Lt7680 :=
  let lcd := spiCmdWrite reg lcd
  (spiDataRead lcd, lcd)

def spiWriteRegister (reg val : UInt8) (lcd : Lt7680) : Lt7680 :=
  lcd |> spiCmdWrite reg |> spiDataWrite val

def spiWriteRegisterU16 (reg : UInt8) (val : UInt16) (lcd : Lt7680) : Lt7680 :=
  lcd |> spiWriteRegister reg val.toUInt8
    |> spiWriteRegister (reg + 1) (val >>> 8).toUInt8

def spiWriteRegisterU32 (reg : UInt8) (val : UInt32) (lcd : Lt7680) : Lt7680 :=
  lcd |> spiWriteRegister reg val.toUInt8
    |> spiWriteRegister (reg + 1) (val >>> 8).toUInt8
    |> spiWriteRegister (reg + 2) (val >>> 16).toUInt8
    |> spiWriteRegister (reg + 3) (val >>> 24).toUInt8

/-- The value of `spi_read_register_u16`. -/
def regU16 (regs : UInt8 → UInt8) (reg : UInt8) : UInt16 :=
  (regs (reg + 1)).toUInt16 <<< 8 ||| (regs reg).toUInt16

/-- The value of `spi_read_register_u32`. -/
def regU32 (regs : UInt8 → UInt8) (reg : UInt8) : UInt32 :=
  (regs (reg + 3)).toUInt32 <<< 24 ||| (regs (reg + 2)).toUInt32 <<< 16 |||
    (regs (reg + 1)).toUInt32 <<< 8 ||| (regs reg).toUInt32

/-! ## Bit fields -/

/-- The shift of `set_bits_u32`, a `uint8_t`. -/
def setBitsShift (bit len : UInt8) : UInt8 := bit - (len - 1)

/-- `set_bits_u32`, stuck where a shift is undefined. -/
def setBitsU32 (var : UInt32) (bit len : UInt8) (val : UInt32) : Option UInt32 :=
  if len.toNat < 31 ∧ (setBitsShift bit len).toNat < 32 then
    let mask : UInt32 := (1 <<< len.toUInt32) - 1
    let shift : UInt32 := (setBitsShift bit len).toUInt32
    some ((var &&& ~~~(mask <<< shift)) ||| ((val &&& mask) <<< shift))
  else none

/-- The calls of `set_bits_u32`, by the field they are for. -/
inductive BitField where
  | tftOutput
  | dataBus
  | pclkInversion
  | hsyncPolarity
  | vsyncPolarity
  | dePolarity
  | mainWindowDepth
  | blockMode
  | canvasDepth
  | dtColorDepth
  | s0ColorDepth
  | s1ColorDepth
  | bteEnable
deriving DecidableEq

/-- The arguments `bit` and `len` of a call. -/
def BitField.range : BitField → UInt8 × UInt8
  | .tftOutput => (4, 2)
  | .dataBus => (0, 1)
  | .pclkInversion => (7, 1)
  | .hsyncPolarity => (7, 1)
  | .vsyncPolarity => (6, 1)
  | .dePolarity => (5, 1)
  | .mainWindowDepth => (3, 2)
  | .blockMode => (2, 1)
  | .canvasDepth => (1, 2)
  | .dtColorDepth => (0, 2)
  | .s0ColorDepth => (6, 2)
  | .s1ColorDepth => (4, 3)
  | .bteEnable => (4, 1)

/-- A call of `set_bits_u32`. -/
def BitField.set (f : BitField) (reg val : UInt32) : Option UInt32 :=
  setBitsU32 reg f.range.1 f.range.2 val

/-- A register of 8 bits is read, changed in a field, and written back. -/
def updateField (reg : UInt8) (f : BitField) (val : UInt32) (lcd : Lt7680) : Option Lt7680 := do
  let (old, lcd) := spiReadRegister reg lcd
  let new ← f.set old.toUInt32 val
  some (spiWriteRegister reg new.toUInt8 lcd)

/-! ## Setters -/

def lt7680SetFg16bpp (color : UInt16) (lcd : Lt7680) : Lt7680 :=
  lcd |> spiWriteRegister FGCR_REG (color >>> 8).toUInt8
    |> spiWriteRegister FGCG_REG (color >>> 3).toUInt8
    |> spiWriteRegister FGCB_REG (color <<< 3).toUInt8

def lt7680SetMisaAddr (addr : UInt32) : Lt7680 → Lt7680 :=
  spiWriteRegisterU32 MISA_REG (addr &&& 0xfffffffc)

def lt7680SetGraphicsXy (x y : UInt16) (lcd : Lt7680) : Lt7680 :=
  lcd |> spiWriteRegisterU16 CURH_REG (x &&& 0x1fff)
    |> spiWriteRegisterU16 CURV_REG (y &&& 0x1fff)

def lt7680SetCanvasAddr (addr : UInt32) : Lt7680 → Lt7680 :=
  spiWriteRegisterU32 CVSSA_REG (addr &&& 0xfffffffc)

def lt7680SetCanvasWidth (width : UInt16) : Lt7680 → Lt7680 :=
  spiWriteRegisterU32 CVSIMWTH_REG (width &&& 0x3ffc).toUInt32

def lt7680SetActiveWindowXy (x y : UInt16) (lcd : Lt7680) : Lt7680 :=
  lcd |> spiWriteRegisterU16 AWULX_REG (x &&& 0x1fff)
    |> spiWriteRegisterU16 AWULY_REG (y &&& 0x1fff)

def lt7680SetActiveWindowWh (w h : UInt16) (lcd : Lt7680) : Lt7680 :=
  lcd |> spiWriteRegisterU16 AWWTH_REG (w &&& 0x3fff)
    |> spiWriteRegisterU16 AWHT_REG (h &&& 0x3fff)

def lt7680SetS0Addr (addr : UInt32) : Lt7680 → Lt7680 := spiWriteRegisterU32 S0_STR_REG addr

def lt7680SetS0Width (width : UInt16) : Lt7680 → Lt7680 :=
  spiWriteRegisterU32 S0_WTH_REG (width &&& 0x1ffc).toUInt32

def lt7680SetS0Xy (x y : UInt16) (lcd : Lt7680) : Lt7680 :=
  lcd |> spiWriteRegisterU16 S0_X_REG (x &&& 0x1fff)
    |> spiWriteRegisterU16 S0_Y_REG (y &&& 0x1fff)

def lt7680SetS1Addr (addr : UInt32) : Lt7680 → Lt7680 := spiWriteRegisterU32 S1_STR_REG addr

def lt7680SetS1Width (width : UInt16) : Lt7680 → Lt7680 :=
  spiWriteRegisterU32 S1_WTH_REG (width &&& 0x1ffc).toUInt32

def lt7680SetS1Xy (x y : UInt16) (lcd : Lt7680) : Lt7680 :=
  lcd |> spiWriteRegisterU16 S1_X_REG (x &&& 0x1fff)
    |> spiWriteRegisterU16 S1_Y_REG (y &&& 0x1fff)

def lt7680SetDtAddr (addr : UInt32) : Lt7680 → Lt7680 := spiWriteRegisterU32 DT_STR_REG addr

def lt7680SetDtWidth (width : UInt16) : Lt7680 → Lt7680 :=
  spiWriteRegisterU32 DT_WTH_REG (width &&& 0x1ffc).toUInt32

def lt7680SetDtXy (x y : UInt16) (lcd : Lt7680) : Lt7680 :=
  lcd |> spiWriteRegisterU16 DT_X_REG (x &&& 0x1fff)
    |> spiWriteRegisterU16 DT_Y_REG (y &&& 0x1fff)

def lt7680SetDtColorDepth (depth : UInt8) : Lt7680 → Option Lt7680 :=
  updateField BLT_COLR_REG .dtColorDepth depth.toUInt32

def lt7680SetS0ColorDepth (depth : UInt8) : Lt7680 → Option Lt7680 :=
  updateField BLT_COLR_REG .s0ColorDepth depth.toUInt32

def lt7680SetS1ColorDepth (depth : UInt8) : Lt7680 → Option Lt7680 :=
  updateField BLT_COLR_REG .s1ColorDepth depth.toUInt32

def lt7680SetBteWh (width height : UInt16) (lcd : Lt7680) : Lt7680 :=
  lcd |> spiWriteRegisterU32 BLT_WTH_REG (width &&& 0x1fff).toUInt32
    |> spiWriteRegisterU32 BLT_HIG_REG (height &&& 0x1fff).toUInt32

def lt7680SetBteMode (rop op : UInt8) : Lt7680 → Lt7680 :=
  spiWriteRegister BLT_CTRL1_REG (rop <<< 4 ||| (op &&& 0x0f))

def lt7680BteOn (bte_on : Bool) : Lt7680 → Option Lt7680 :=
  updateField BLT_CTRL0_REG .bteEnable (if bte_on then 1 else 0)

/-! ## The engine for block transfers -/

/-- The arguments of `lt7680_bte_memory_copy`. -/
structure MemoryCopy where
  d_addr : UInt32
  d_w : UInt16
  d_x : UInt16
  d_y : UInt16
  s0_addr : UInt32
  s0_w : UInt16
  s0_x : UInt16
  s0_y : UInt16
  s1_addr : UInt32
  s1_w : UInt16
  s1_x : UInt16
  s1_y : UInt16
  w : UInt16
  h : UInt16
  rop : UInt8

/-- `lt7680_bte_memory_copy`, up to the enable bit. -/
def MemoryCopy.setup (a : MemoryCopy) (lcd : Lt7680) : Lt7680 :=
  lcd |> lt7680SetDtAddr a.d_addr
    |> lt7680SetDtWidth a.d_w
    |> lt7680SetDtXy a.d_x a.d_y
    |> lt7680SetS0Addr a.s0_addr
    |> lt7680SetS0Width a.s0_w
    |> lt7680SetS0Xy a.s0_x a.s0_y
    |> lt7680SetS1Addr a.s1_addr
    |> lt7680SetS1Width a.s1_w
    |> lt7680SetS1Xy a.s1_x a.s1_y
    |> lt7680SetBteWh a.w a.h
    |> lt7680SetBteMode a.rop 0x02

def lt7680BteMemoryCopy (a : MemoryCopy) (lcd : Lt7680) : Option Lt7680 :=
  lt7680BteOn true (a.setup lcd)

def lt7680BteSolidFill (d_addr : UInt32) (d_w d_x d_y w h color : UInt16) (lcd : Lt7680) :
    Option Lt7680 :=
  lcd |> lt7680SetDtAddr d_addr
    |> lt7680SetDtWidth d_w
    |> lt7680SetDtXy d_x d_y
    |> lt7680SetBteWh w h
    |> lt7680SetFg16bpp color
    |> lt7680SetBteMode 0 0x0c
    |> lt7680BteOn true

/-! ## Initialisation -/

/-- The constants of an LCD panel (`src/lcd`). -/
structure LcdPanel where
  WIDTH : Nat
  HEIGHT : Nat
  VBPD : Nat
  VFPD : Nat
  VSPW : Nat
  HBPD : Nat
  HFPD : Nat
  HSPW : Nat
  PCLK_FALLING_EDGE : UInt32
  HSYNC_POLARITY : UInt32
  VSYNC_POLARITY : UInt32
  DE_POLARITY : UInt32

/-- A time in units of eight clocks, less one. -/
def eighths (n : Nat) : UInt8 := UInt8.ofNat (if n < 8 then 0 else n / 8 - 1)

/-- `lt7680_init`: the clocks. -/
def lt7680InitPll (p : LcdPanel) (lcd : Lt7680) : Lt7680 :=
  let temp := (p.HBPD + p.HFPD + p.HSPW + p.WIDTH) * (p.VBPD + p.VFPD + p.VSPW + p.HEIGHT) * 60
  let temp := (temp + 500000) / 1000000
  let pllc1 : UInt8 := (2 : UInt8) <<< 6 ||| (5 : UInt8) <<< 1
  let lpllN_sclk := UInt8.ofNat temp
  let lpllN_cclk := UInt8.ofNat (temp * 2)
  let lpllN_mclk := UInt8.ofNat (temp * 2)
  let sdram_itv := 64 * lpllN_mclk.toNat * 1000 / 4096 - 2
  lcd |> spiWriteRegister PLLLC1_REG pllc1
    |> spiWriteRegister PLLLC2_REG lpllN_sclk
    |> spiWriteRegister MPLLC1_REG pllc1
    |> spiWriteRegister MPLLC2_REG lpllN_mclk
    |> spiWriteRegister CPLLC1_REG pllc1
    |> spiWriteRegister CPLLC2_REG lpllN_cclk
    |> spiWriteRegister SRR_REG 0x80
    |> spiWriteRegister SDRAR_REG 0x29
    |> spiWriteRegister SDRMD_REG 0x03
    |> spiWriteRegisterU16 SDRREF_REG (UInt16.ofNat sdram_itv)
    |> spiWriteRegister SDRCR_REG 0x01

/-- `lt7680_init`: the scan of the panel. -/
def lt7680InitScan (p : LcdPanel) (lcd : Lt7680) : Lt7680 :=
  lcd |> spiWriteRegister HDWR_REG (UInt8.ofNat (p.WIDTH / 8 - 1))
    |> spiWriteRegister HDWRFTR_REG (UInt8.ofNat (p.WIDTH % 8))
    |> spiWriteRegisterU16 VHDR_REG (UInt16.ofNat (p.HEIGHT - 1))
    |> spiWriteRegister HNDR_REG (eighths p.HBPD)
    |> spiWriteRegister HNDRFTR_REG (UInt8.ofNat (p.HBPD % 8))
    |> spiWriteRegister HSTR_REG (eighths p.HFPD)
    |> spiWriteRegister HPWR_REG (eighths p.HSPW)
    |> spiWriteRegisterU16 VNDR_REG (UInt16.ofNat (p.VBPD - 1))
    |> spiWriteRegister VSTR_REG (UInt8.ofNat (p.VFPD - 1))
    |> spiWriteRegister VPWR_REG (UInt8.ofNat (p.VSPW - 1))

def lt7680Init (p : LcdPanel) (lcd : Lt7680) : Option Lt7680 := do
  let lcd := lt7680InitPll p lcd
  let (reg, lcd) := spiReadRegister CCR_REG lcd
  let reg ← BitField.tftOutput.set reg.toUInt32 0x01
  let reg ← BitField.dataBus.set reg 0x01
  let lcd := lcd |> spiWriteRegister CCR_REG reg.toUInt8
    |> spiWriteRegister MACR_REG 0x40
    |> spiWriteRegister ICR_REG 0x00
  let reg ← BitField.pclkInversion.set 0x00 p.PCLK_FALLING_EDGE
  let lcd := lcd |> spiWriteRegister DPCR_REG reg.toUInt8
  -- the polarities are put together, but written to no register
  let (_, lcd) := spiReadRegister PCSR_REG lcd
  let reg ← BitField.hsyncPolarity.set 0x00 p.HSYNC_POLARITY
  let reg ← BitField.vsyncPolarity.set reg p.VSYNC_POLARITY
  let _ ← BitField.dePolarity.set reg p.DE_POLARITY
  let lcd := lt7680InitScan p lcd
  let lcd ← updateField MPWCTR_REG .mainWindowDepth 0x01 lcd
  let (reg, lcd) := spiReadRegister AW_COLOR_REG lcd
  let reg ← BitField.blockMode.set reg.toUInt32 0x00
  let reg ← BitField.canvasDepth.set reg 0x01
  some (spiWriteRegister AW_COLOR_REG reg.toUInt8 lcd)

/-- `LAYER1_START_ADDR`, of every panel -/
def LAYER1_START_ADDR : UInt32 := 0

def lt7680Setup (w h : UInt16) (lcd : Lt7680) : Option Lt7680 := do
  let lcd ← updateField MPWCTR_REG .mainWindowDepth 0x01 lcd
  some (lcd |> spiWriteRegister BLT_COLR_REG 0x25
    |> spiWriteRegisterU32 MISA_REG LAYER1_START_ADDR
    |> spiWriteRegisterU16 MIW_REG w
    |> spiWriteRegisterU16 MWULX_REG 0
    |> spiWriteRegisterU16 MWULY_REG 0
    |> spiWriteRegisterU32 CVSSA_REG 0
    |> spiWriteRegisterU16 CVSIMWTH_REG w
    |> spiWriteRegisterU16 AWULX_REG 0
    |> spiWriteRegisterU16 AWULY_REG 0
    |> spiWriteRegisterU16 AWWTH_REG w
    |> spiWriteRegisterU16 AWHT_REG h)

/-! ## Writes -/

/-- The bytes of a value of 16 bits, each with its register. -/
def bytesU16 (reg : UInt8) (val : UInt16) : List (UInt8 × UInt8) :=
  [(reg, val.toUInt8), (reg + 1, (val >>> 8).toUInt8)]

/-- The bytes of a value of 32 bits, each with its register. -/
def bytesU32 (reg : UInt8) (val : UInt32) : List (UInt8 × UInt8) :=
  [(reg, val.toUInt8), (reg + 1, (val >>> 8).toUInt8), (reg + 2, (val >>> 16).toUInt8),
    (reg + 3, (val >>> 24).toUInt8)]

/-- The second state is the first one after the writes. -/
structure Issues (ws : List (UInt8 × UInt8)) (lcd lcd' : Lt7680) : Prop where
  writes : lcd'.writes = lcd.writes ++ ws
  regs : lcd'.regs = RegisterFile.after lcd.regs ws

theorem Issues.trans {ws vs : List (UInt8 × UInt8)} {lcd lcd' lcd'' : Lt7680}
    (h : Issues ws lcd lcd') (h' : Issues vs lcd' lcd'') : Issues (ws ++ vs) lcd lcd'' := by
  obtain ⟨hwrites, hregs⟩ := h
  obtain ⟨hwrites', hregs'⟩ := h'
  constructor
  · rw [hwrites', hwrites, List.append_assoc]
  · rw [hregs', hregs, RegisterFile.after_append]

theorem spiWriteRegister_issues (reg val : UInt8) (lcd : Lt7680) :
    Issues [(reg, val)] lcd (spiWriteRegister reg val lcd) := ⟨rfl, rfl⟩

theorem spiWriteRegisterU16_issues (reg : UInt8) (val : UInt16) (lcd : Lt7680) :
    Issues (bytesU16 reg val) lcd (spiWriteRegisterU16 reg val lcd) :=
  (spiWriteRegister_issues _ _ _).trans (spiWriteRegister_issues _ _ _)

theorem spiWriteRegisterU32_issues (reg : UInt8) (val : UInt32) (lcd : Lt7680) :
    Issues (bytesU32 reg val) lcd (spiWriteRegisterU32 reg val lcd) :=
  (((spiWriteRegister_issues _ _ _).trans (spiWriteRegister_issues _ _ _)).trans
    (spiWriteRegister_issues _ _ _)).trans (spiWriteRegister_issues _ _ _)

/-! ## Values of several registers -/

open RegisterFile

theorem regU16_eq {regs : UInt8 → UInt8} {reg : UInt8} {val : UInt16} (h₀ : regs reg = val.toUInt8)
    (h₁ : regs (reg + 1) = (val >>> 8).toUInt8) : regU16 regs reg = val := by
  apply UInt16.toNat_inj.mp
  apply Nat.eq_of_testBit_eq
  intro i
  have hval : 16 ≤ i → val.toNat.testBit i = false := testBit_of_lt val.toNat_lt
  have h8 : (8 : UInt16).toNat % 16 = 8 := rfl
  simp only [regU16, h₀, h₁, UInt16.toNat_or, UInt16.toNat_shiftLeft, UInt8.toNat_toUInt16,
    UInt16.toNat_toUInt8, UInt16.toNat_shiftRight, h8, Nat.testBit_or,
    Nat.testBit_mod_two_pow _ 16, testBit_byte, testBit_lowByte]
  grind

theorem regU32_eq {regs : UInt8 → UInt8} {reg : UInt8} {val : UInt32} (h₀ : regs reg = val.toUInt8)
    (h₁ : regs (reg + 1) = (val >>> 8).toUInt8) (h₂ : regs (reg + 2) = (val >>> 16).toUInt8)
    (h₃ : regs (reg + 3) = (val >>> 24).toUInt8) : regU32 regs reg = val := by
  apply UInt32.toNat_inj.mp
  apply Nat.eq_of_testBit_eq
  intro i
  have hval : 32 ≤ i → val.toNat.testBit i = false := testBit_of_lt val.toNat_lt
  have h8 : (8 : UInt32).toNat % 32 = 8 := rfl
  have h16 : (16 : UInt32).toNat % 32 = 16 := rfl
  have h24 : (24 : UInt32).toNat % 32 = 24 := rfl
  simp only [regU32, h₀, h₁, h₂, h₃, UInt32.toNat_or, UInt32.toNat_shiftLeft,
    UInt8.toNat_toUInt32, UInt32.toNat_toUInt8, UInt32.toNat_shiftRight, h8, h16, h24,
    Nat.testBit_or, Nat.testBit_mod_two_pow _ 32, testBit_byte, testBit_lowByte]
  grind

end LcdPico
