import LcdPico.BlockCopy
import LcdPico.Lib.Blit

/-!
# The memory of the graphics controller

The frame buffers and the images they are put together from lie in the memory of the
controller, and `lt7680_bte_memory_copy` has its engine copy rectangles between them. What
the engine does is documented for the registers that a copy is programmed with
(`BlockEngine`).

`Gpu.copy_eq`: a copy that fits is a `blit`, asks for the rectangle of its arguments, and changes
no register but those of the engine.
-/

namespace LcdPico

/-- The memory, in pixels of 16 bits. -/
abbrev Vram : Type := Nat → UInt16

/-- A rectangle that is copied from one image to another one. -/
structure PixelCopy where
  dst : Surface
  rect : PixelRect
  src : Surface
  srcX : Nat
  srcY : Nat

/-- The copy stays inside the rows of both images, and away from what it reads. -/
def PixelCopy.Fits (c : PixelCopy) : Prop :=
  c.rect.x + c.rect.w ≤ c.dst.width ∧ c.srcX + c.rect.w ≤ c.src.width ∧
    c.dst.Apart (c.rect.y + c.rect.h) c.src (c.srcY + c.rect.h)

def PixelCopy.apply (c : PixelCopy) (vram : Vram) : Vram :=
  blit c.dst c.rect c.src c.srcX c.srcY vram

/-! ## The engine -/

/-- An image whose address and width are in registers. -/
def surfaceOfRegs (regs : UInt8 → UInt8) (str wth : UInt8) : Surface where
  base := (regU32 regs str).toNat / 2
  width := (regU16 regs wth).toNat

/-- The copy of the second source that the registers ask for. -/
def pixelCopyOfRegs (regs : UInt8 → UInt8) : PixelCopy where
  dst := surfaceOfRegs regs DT_STR_REG DT_WTH_REG
  rect :=
    { x := (regU16 regs DT_X_REG).toNat
      y := (regU16 regs DT_Y_REG).toNat
      w := (regU16 regs BLT_WTH_REG).toNat
      h := (regU16 regs BLT_HIG_REG).toNat }
  src := surfaceOfRegs regs S1_STR_REG S1_WTH_REG
  srcX := (regU16 regs S1_X_REG).toNat
  srcY := (regU16 regs S1_Y_REG).toNat

/-- What the engine makes of the memory when it is started. -/
structure BlockEngine where
  transfer : (UInt8 → UInt8) → Vram → Vram
  /-- 16 bits per pixel, operation 2 with raster operation 10: the second source is copied -/
  transfer_copy : ∀ regs vram, regs BLT_COLR_REG = 0x25 → regs BLT_CTRL1_REG = 0xa2 →
    (regU32 regs DT_STR_REG).toNat % 2 = 0 → (regU32 regs S1_STR_REG).toNat % 2 = 0 →
    (pixelCopyOfRegs regs).Fits → transfer regs vram = (pixelCopyOfRegs regs).apply vram

/-- The controller, with its memory. -/
structure Gpu where
  lcd : Lt7680
  vram : Vram
  /-- the copies that the registers asked for when the engine was started, in order -/
  asked : List PixelCopy

/-- `lt7680_bte_memory_copy`, with the work of the engine. -/
def Gpu.copy (e : BlockEngine) (g : Gpu) (a : MemoryCopy) : Option Gpu :=
  (lt7680BteMemoryCopy a g.lcd).map fun lcd =>
    { lcd := lcd
      vram := e.transfer lcd.regs g.vram
      asked := g.asked ++ [pixelCopyOfRegs lcd.regs] }

/-! ## Copies that fit -/

/-- The copy that the arguments ask for. -/
def MemoryCopy.pixelCopy (a : MemoryCopy) : PixelCopy where
  dst := { base := a.d_addr.toNat / 2, width := a.d_w.toNat }
  rect := { x := a.d_x.toNat, y := a.d_y.toNat, w := a.w.toNat, h := a.h.toNat }
  src := { base := a.s1_addr.toNat / 2, width := a.s1_w.toNat }
  srcX := a.s1_x.toNat
  srcY := a.s1_y.toNat

/-- A copy of the second source with arguments that the registers have room for. -/
structure MemoryCopy.InRange (a : MemoryCopy) : Prop where
  rop : a.rop = 0x0a
  dtAddr : a.d_addr.toNat % 2 = 0
  dtWidth : a.d_w &&& 0x1ffc = a.d_w
  dtX : a.d_x &&& 0x1fff = a.d_x
  dtY : a.d_y &&& 0x1fff = a.d_y
  s1Addr : a.s1_addr.toNat % 2 = 0
  s1Width : a.s1_w &&& 0x1ffc = a.s1_w
  s1X : a.s1_x &&& 0x1fff = a.s1_x
  s1Y : a.s1_y &&& 0x1fff = a.s1_y
  width : a.w &&& 0x1fff = a.w
  height : a.h &&& 0x1fff = a.h

theorem MemoryCopy.Programmed.pixelCopyOfRegs_eq {a : MemoryCopy} {regs : UInt8 → UInt8}
    (h : a.Programmed regs) (ha : a.InRange) : pixelCopyOfRegs regs = a.pixelCopy := by
  rw [pixelCopyOfRegs, MemoryCopy.pixelCopy, surfaceOfRegs, surfaceOfRegs, h.dtAddr, h.dtWidth,
    h.dtX, h.dtY, h.s1Addr, h.s1Width, h.s1X, h.s1Y, h.width, h.height, ha.dtWidth, ha.dtX, ha.dtY,
    ha.s1Width, ha.s1X, ha.s1Y, ha.width, ha.height]

/-- The registers that a copy does not program keep their value. -/
def Lt7680.KeepsUnprogrammed (lcd lcd' : Lt7680) : Prop :=
  ∀ r ∉ MemoryCopy.addrs.flatten, lcd'.regs r = lcd.regs r

/-- The registers after a copy. -/
theorem bteMemoryCopy_regs (a : MemoryCopy) (lcd : Lt7680) :
    ∃ lcd', lt7680BteMemoryCopy a lcd = some lcd' ∧ a.Programmed lcd'.regs ∧
      lcd.KeepsUnprogrammed lcd' := by
  obtain ⟨v, -, heq⟩ := lt7680BteOn_eq (a.setup lcd)
  have hissues := (a.setup_issues lcd).words (spiWriteRegister_issues BLT_CTRL0_REG v (a.setup lcd))
  have hregs : (spiWriteRegister BLT_CTRL0_REG v (a.setup lcd)).regs =
      RegisterFile.after lcd.regs (a.startWords v).flatten := hissues.regs
  refine ⟨_, heq, ?_, fun r hr => ?_⟩
  · rw [hregs]
    exact a.programmed v lcd.regs
  · rw [hregs]
    refine RegisterFile.after_of_notMem ?_ _
    rw [List.map_flatten]
    exact hr

/-- **A copy that fits** asks for its rectangle, and copies it. -/
theorem Gpu.copy_eq (e : BlockEngine) {g : Gpu} {a : MemoryCopy} (ha : a.InRange)
    (hfits : a.pixelCopy.Fits) (hcolr : g.lcd.regs BLT_COLR_REG = 0x25) :
    ∃ lcd, g.copy e a =
        some { lcd := lcd, vram := a.pixelCopy.apply g.vram, asked := g.asked ++ [a.pixelCopy] } ∧
      g.lcd.KeepsUnprogrammed lcd := by
  obtain ⟨lcd, heq, hprog, hkeeps⟩ := bteMemoryCopy_regs a g.lcd
  have hmode : lcd.regs BLT_CTRL1_REG = 0xa2 := by
    apply UInt8.toNat_inj.mp
    rw [hprog.mode, ha.rop]
    rfl
  have htransfer := e.transfer_copy lcd.regs g.vram
    ((hkeeps BLT_COLR_REG (by decide)).trans hcolr) hmode
    (by rw [hprog.dtAddr, ha.dtAddr]) (by rw [hprog.s1Addr, ha.s1Addr])
    (by rw [hprog.pixelCopyOfRegs_eq ha]; exact hfits)
  refine ⟨lcd, ?_, hkeeps⟩
  rw [Gpu.copy, heq, Option.map_some, htransfer, hprog.pixelCopyOfRegs_eq ha]

end LcdPico
