import LcdPico.Lt7680

/-!
# Registers that a setter changes

The setters of widths write 32 bits into registers of 16 bits. The upper two bytes of
what they write are zero, and go into the two registers behind: these keep their value
exactly if they hold zero already.
-/

namespace LcdPico

open RegisterFile

/-- The registers outside a list keep their value. -/
def KeepsOthers (own : List UInt8) (lcd lcd' : Lt7680) : Prop :=
  ∀ r ∉ own, lcd'.regs r = lcd.regs r

/-- The two bytes of a register of 16 bits. -/
def ownU16 (reg : UInt8) : List UInt8 := [reg, reg + 1]

/-! ## A write that is too wide -/

/-- A value of 16 bits at its address, and zero in the two registers behind. -/
theorem bytesU32_toUInt32 (reg : UInt8) (val : UInt16) :
    bytesU32 reg val.toUInt32 = bytesU16 reg val ++ [(reg + 2, 0), (reg + 3, 0)] := by
  have hval : val.toNat < 2 ^ 16 := val.toNat_lt
  have h0 : val.toUInt32.toUInt8 = val.toUInt8 := by simp
  have h1 : (val.toUInt32 >>> 8).toUInt8 = (val >>> 8).toUInt8 := by simp [← UInt8.toNat_inj]
  have h2 : (val.toUInt32 >>> 16).toUInt8 = 0 := by
    simp [← UInt8.toNat_inj, Nat.shiftRight_eq_div_pow]
    omega
  have h3 : (val.toUInt32 >>> 24).toUInt8 = 0 := by
    simp [← UInt8.toNat_inj, Nat.shiftRight_eq_div_pow]
    omega
  rw [bytesU32, bytesU16, h0, h1, h2, h3]
  rfl

/-- Two registers that are not the setter's own end up with zero: nothing else changes
exactly if they held zero before. -/
theorem keepsOthers_iff {own : List UInt8} {ws : List (UInt8 × UInt8)} {a b : UInt8}
    {lcd lcd' : Lt7680} (h : Issues ws lcd lcd') (hown : ∀ w ∈ ws, w.1 ∈ a :: b :: own)
    (ha : a ∉ own) (hb : b ∉ own) (hwa : lastWrite a ws = some 0)
    (hwb : lastWrite b ws = some 0) :
    KeepsOthers own lcd lcd' ↔ lcd.regs a = 0 ∧ lcd.regs b = 0 := by
  have hafter (r : UInt8) : lcd'.regs r = (lastWrite r ws).getD (lcd.regs r) := by
    rw [h.regs, after_apply]
  constructor
  · intro hkeep
    have hra := hkeep a ha
    have hrb := hkeep b hb
    rw [hafter, hwa] at hra
    rw [hafter, hwb] at hrb
    exact ⟨hra.symm, hrb.symm⟩
  · rintro ⟨hra, hrb⟩ r hr
    by_cases hrw : r = a ∨ r = b
    · rcases hrw with rfl | rfl
      · rw [hafter, hwa, hra]
        rfl
      · rw [hafter, hwb, hrb]
        rfl
    · rw [h.regs]
      apply after_of_notMem
      intro hmem
      obtain ⟨w, hw, rfl⟩ := List.mem_map.mp hmem
      have hcase := hown w hw
      simp only [List.mem_cons] at hcase
      tauto

theorem keepsOthers_u32_iff (reg : UInt8) (val : UInt16) (lcd : Lt7680) :
    KeepsOthers (ownU16 reg) lcd (spiWriteRegisterU32 reg val.toUInt32 lcd) ↔
      lcd.regs (reg + 2) = 0 ∧ lcd.regs (reg + 3) = 0 := by
  have hissues := spiWriteRegisterU32_issues reg val.toUInt32 lcd
  rw [bytesU32_toUInt32] at hissues
  have h20 : reg + 2 ≠ reg := by grind
  have h21 : reg + 2 ≠ reg + 1 := by grind
  have h32 : reg + 3 ≠ reg + 2 := by grind
  have h30 : reg + 3 ≠ reg := by grind
  have h31 : reg + 3 ≠ reg + 1 := by grind
  apply keepsOthers_iff hissues
  · simp [bytesU16, ownU16]
  · simp [ownU16, h20, h21]
  · simp [ownU16, h30, h31]
  · simp [bytesU16, lastWrite, h32]
  · simp [bytesU16, lastWrite]

/-- The height follows the width, so that it is not lost. -/
theorem keepsOthers_bteWh_iff (width height : UInt16) (lcd : Lt7680) :
    KeepsOthers (ownU16 BLT_WTH_REG ++ ownU16 BLT_HIG_REG) lcd (lt7680SetBteWh width height lcd) ↔
      lcd.regs APB_CTR_REG = 0 ∧ lcd.regs DMA_CTRL_REG = 0 := by
  have hissues := (spiWriteRegisterU32_issues BLT_WTH_REG (width &&& 0x1fff).toUInt32 lcd).trans
    (spiWriteRegisterU32_issues BLT_HIG_REG (height &&& 0x1fff).toUInt32 _)
  rw [bytesU32_toUInt32, bytesU32_toUInt32] at hissues
  apply keepsOthers_iff hissues
  · simp [bytesU16, ownU16]
    decide
  · decide
  · decide
  · rfl
  · rfl

/-! ## The setters -/

theorem regU16_eq_zero_iff {regs : UInt8 → UInt8} {reg : UInt8} :
    regU16 regs reg = 0 ↔ regs reg = 0 ∧ regs (reg + 1) = 0 := by
  constructor
  · intro h
    have hlt : (regs (reg + 1)).toNat < 2 ^ 8 := (regs (reg + 1)).toNat_lt
    have hnat := congrArg UInt16.toNat h
    simp only [regU16, UInt16.toNat_or, UInt16.toNat_shiftLeft, UInt8.toNat_toUInt16,
      UInt16.toNat_zero, Nat.or_eq_zero_iff] at hnat
    obtain ⟨hhigh, hlow⟩ := hnat
    have h8 : (8 : UInt16).toNat % 16 = 8 := rfl
    rw [h8, Nat.shiftLeft_eq, Nat.mod_eq_of_lt (by omega)] at hhigh
    exact ⟨UInt8.toNat_inj.mp hlow, UInt8.toNat_inj.mp (by rw [UInt8.toNat_zero]; omega)⟩
  · rintro ⟨h₀, h₁⟩
    exact regU16_eq h₀ h₁

/-- A setter of a width changes the two registers behind its own, unless they hold zero
already: the coordinate that follows, or `APB_CTR_REG` and `DMA_CTRL_REG`. -/
theorem width_setters_keep_others (width height : UInt16) (lcd : Lt7680) :
    (KeepsOthers (ownU16 CVSIMWTH_REG) lcd (lt7680SetCanvasWidth width lcd) ↔
      regU16 lcd.regs AWULX_REG = 0) ∧
    (KeepsOthers (ownU16 S0_WTH_REG) lcd (lt7680SetS0Width width lcd) ↔
      regU16 lcd.regs S0_X_REG = 0) ∧
    (KeepsOthers (ownU16 S1_WTH_REG) lcd (lt7680SetS1Width width lcd) ↔
      regU16 lcd.regs S1_X_REG = 0) ∧
    (KeepsOthers (ownU16 DT_WTH_REG) lcd (lt7680SetDtWidth width lcd) ↔
      regU16 lcd.regs DT_X_REG = 0) ∧
    (KeepsOthers (ownU16 BLT_WTH_REG ++ ownU16 BLT_HIG_REG) lcd
        (lt7680SetBteWh width height lcd) ↔
      lcd.regs APB_CTR_REG = 0 ∧ lcd.regs DMA_CTRL_REG = 0) := by
  refine ⟨?_, ?_, ?_, ?_, keepsOthers_bteWh_iff width height lcd⟩
  · rw [regU16_eq_zero_iff]
    exact keepsOthers_u32_iff CVSIMWTH_REG _ lcd
  · rw [regU16_eq_zero_iff]
    exact keepsOthers_u32_iff S0_WTH_REG _ lcd
  · rw [regU16_eq_zero_iff]
    exact keepsOthers_u32_iff S1_WTH_REG _ lcd
  · rw [regU16_eq_zero_iff]
    exact keepsOthers_u32_iff DT_WTH_REG _ lcd

/-- The width of the canvas, set after the corner of the active window, moves the
corner to the left edge. -/
theorem canvas_width_moves_window :
    let lcd := lt7680SetActiveWindowXy 16 0 ⟨0, fun _ => 0, []⟩
    ¬KeepsOthers (ownU16 CVSIMWTH_REG) lcd (lt7680SetCanvasWidth 320 lcd) := by
  intro lcd hkeep
  exact absurd (hkeep AWULX_REG (by decide)) (by decide)

end LcdPico
