import LcdPico.Lt7680

/-!
# Fields of a register (`set_bits_u32`)

A field is given by its most significant bit and its length. The place of its least
significant bit is computed in 8 bits, and wraps if the field does not fit above bit 0.
-/

namespace LcdPico

variable {bit len : UInt8}

/-! ## One call -/

/-- The field lies above bit 0 and below bit 32. -/
structure FieldFits (bit len : UInt8) : Prop where
  pos : 0 < len.toNat
  low : len.toNat ≤ bit.toNat + 1
  high : bit.toNat < 32
  short : len.toNat < 31

theorem setBitsShift_toNat (h : FieldFits bit len) :
    (setBitsShift bit len).toNat = bit.toNat + 1 - len.toNat := by
  obtain ⟨hpos, hlow, hhigh, -⟩ := h
  have hlt : len.toNat < 256 := len.toNat_lt
  have hlen : (len - 1).toNat = len.toNat - 1 := by
    rw [UInt8.toNat_sub, UInt8.toNat_one]
    omega
  rw [setBitsShift, UInt8.toNat_sub, hlen]
  omega

/-- The ones of a mask. -/
theorem mask_testBit (h : len.toNat < 31) (i : Nat) :
    (((1 : UInt32) <<< len.toUInt32) - 1).toNat.testBit i = decide (i < len.toNat) := by
  have hlen : len.toUInt32.toNat % 32 = len.toNat := by
    rw [UInt8.toNat_toUInt32]
    omega
  have hpow : 2 ^ len.toNat < 2 ^ 32 := Nat.pow_lt_pow_right (by decide) (by omega)
  have hpos : 0 < 2 ^ len.toNat := Nat.two_pow_pos _
  have hshift : ((1 : UInt32) <<< len.toUInt32).toNat = 2 ^ len.toNat := by
    rw [UInt32.toNat_shiftLeft, hlen, UInt32.toNat_one, Nat.one_shiftLeft, Nat.mod_eq_of_lt hpow]
  have hmask : (((1 : UInt32) <<< len.toUInt32) - 1).toNat = 2 ^ len.toNat - 1 := by
    rw [UInt32.toNat_sub, hshift, UInt32.toNat_one]
    omega
  rw [hmask, Nat.testBit_two_pow_sub_one]

theorem not_testBit (v : UInt32) (i : Nat) :
    (~~~v).toNat.testBit i = (decide (i < 32) && !v.toNat.testBit i) :=
  BitVec.getLsbD_not

/-- The bits of the result: the low bits of the value inside the field, the bits of the
variable outside. -/
theorem setBitsU32_testBit (h : FieldFits bit len) (var val : UInt32) :
    ∃ new, setBitsU32 var bit len val = some new ∧ ∀ i, new.toNat.testBit i =
      if bit.toNat + 1 ≤ i + len.toNat ∧ i ≤ bit.toNat then
        val.toNat.testBit (i + len.toNat - (bit.toNat + 1))
      else var.toNat.testBit i := by
  have hshift := setBitsShift_toNat h
  obtain ⟨hpos, hlow, hhigh, hshort⟩ := h
  have hcond : len.toNat < 31 ∧ (setBitsShift bit len).toNat < 32 := ⟨hshort, by omega⟩
  refine ⟨_, if_pos hcond, ?_⟩
  intro i
  have hvar : 32 ≤ i → var.toNat.testBit i = false := RegisterFile.testBit_of_lt var.toNat_lt
  have hsh : (setBitsShift bit len).toUInt32.toNat % 32 = bit.toNat + 1 - len.toNat := by
    rw [UInt8.toNat_toUInt32]
    omega
  simp only [UInt32.toNat_or, UInt32.toNat_and, not_testBit, UInt32.toNat_shiftLeft, hsh,
    Nat.testBit_or, Nat.testBit_and, Nat.testBit_mod_two_pow _ 32, Nat.testBit_shiftLeft,
    mask_testBit hshort]
  by_cases hin : bit.toNat + 1 ≤ i + len.toNat ∧ i ≤ bit.toNat
  · have hidx : i + len.toNat - (bit.toNat + 1) = i - (bit.toNat + 1 - len.toNat) := by omega
    have hi : i < 32 := by omega
    have hle : bit.toNat + 1 - len.toNat ≤ i := by omega
    have hlt : i - (bit.toNat + 1 - len.toNat) < len.toNat := by omega
    simp [hin, hidx, hi, hle, hlt]
  · have hout : bit.toNat + 1 - len.toNat ≤ i → ¬i - (bit.toNat + 1 - len.toNat) < len.toNat := by
      omega
    rw [if_neg hin]
    grind

/-! ## The calls -/

/-- What a call is for: the shift is defined, the field holds the low bits of the value,
and the bits outside are those of the variable. -/
def FieldUpdated (bit len : UInt8) (var val : UInt32) : Prop :=
  (setBitsShift bit len).toNat < 32 ∧
    ∃ new, setBitsU32 var bit len val = some new ∧ ∀ i, new.toNat.testBit i =
      if bit.toNat + 1 ≤ i + len.toNat ∧ i ≤ bit.toNat then
        val.toNat.testBit (i + len.toNat - (bit.toNat + 1))
      else var.toNat.testBit i

theorem BitField.fits_iff (f : BitField) :
    FieldFits f.range.1 f.range.2 ↔ f.range.2.toNat ≤ f.range.1.toNat + 1 := by
  constructor
  · exact FieldFits.low
  · intro h
    cases f <;> exact ⟨by decide, h, by decide, by decide⟩

/-- A call whose field is longer than the bits from its top to bit 0 shifts too far. -/
theorem BitField.shift_of_not_fits {f : BitField} (h : ¬FieldFits f.range.1 f.range.2) :
    32 ≤ (setBitsShift f.range.1 f.range.2).toNat := by
  rw [fits_iff] at h
  revert h
  cases f <;> decide

/-- A call updates its field exactly if the length of the field goes with its place. -/
theorem bit_fields_updated (f : BitField) (var val : UInt32) :
    FieldUpdated f.range.1 f.range.2 var val ↔ f.range.2.toNat ≤ f.range.1.toNat + 1 := by
  rw [← f.fits_iff]
  constructor
  · rintro ⟨hshift, -⟩
    by_contra h
    exact absurd hshift (Nat.not_lt.mpr (BitField.shift_of_not_fits h))
  · intro h
    obtain ⟨new, hnew, hbits⟩ := setBitsU32_testBit h var val
    have hshift := setBitsShift_toNat h
    obtain ⟨hpos, -, hhigh, -⟩ := h
    exact ⟨by omega, new, hnew, hbits⟩

/-- The depth of the destination is bits 0 and 1, and bit 0 is given as its top. -/
theorem dt_color_depth_not_updated :
    ¬FieldUpdated BitField.dtColorDepth.range.1 BitField.dtColorDepth.range.2 0 1 := by
  rintro ⟨hshift, -⟩
  exact absurd hshift (by decide)

/-! ## Updates of registers -/

/-- Every field but one is well placed. -/
theorem BitField.fits {f : BitField} (hf : f ≠ .dtColorDepth) :
    FieldFits f.range.1 f.range.2 := by
  rw [fits_iff]
  revert hf
  cases f <;> decide

theorem BitField.set_isSome {f : BitField} (hf : f ≠ .dtColorDepth) (reg val : UInt32) :
    ∃ new, f.set reg val = some new := by
  obtain ⟨new, hnew, -⟩ := setBitsU32_testBit (fits hf) reg val
  exact ⟨new, hnew⟩

theorem updateField_eq {f : BitField} (hf : f ≠ .dtColorDepth) (reg : UInt8) (val : UInt32)
    (lcd : Lt7680) :
    ∃ new, f.set (lcd.regs reg).toUInt32 val = some new ∧
      updateField reg f val lcd = some (spiWriteRegister reg new.toUInt8 lcd) := by
  obtain ⟨new, hnew⟩ := BitField.set_isSome hf (lcd.regs reg).toUInt32 val
  refine ⟨new, hnew, ?_⟩
  have hread : spiReadRegister reg lcd = (lcd.regs reg, spiCmdWrite reg lcd) := rfl
  rw [updateField, hread, Option.bind_eq_bind]
  simp only [hnew, Option.bind_some]
  rfl

/-- The start of the block engine: one write, with the enable bit. -/
theorem lt7680BteOn_eq (lcd : Lt7680) :
    ∃ v : UInt8, v.toNat.testBit 4 = true ∧
      lt7680BteOn true lcd = some (spiWriteRegister BLT_CTRL0_REG v lcd) := by
  have hf : BitField.bteEnable ≠ .dtColorDepth := by decide
  obtain ⟨new, hnew, heq⟩ := updateField_eq hf BLT_CTRL0_REG 1 lcd
  obtain ⟨new', hnew', hbits⟩ :=
    setBitsU32_testBit (BitField.fits hf) (lcd.regs BLT_CTRL0_REG).toUInt32 1
  obtain rfl : new' = new := Option.some_inj.mp (hnew'.symm.trans hnew)
  refine ⟨new'.toUInt8, ?_, heq⟩
  rw [UInt32.toNat_toUInt8, Nat.testBit_mod_two_pow, hbits]
  rfl

theorem BitField.set_bind_isSome {f : BitField} {α : Type} {k : UInt32 → Option α}
    (hf : f ≠ .dtColorDepth) (reg val : UInt32) (hk : ∀ new, (k new).isSome) :
    (f.set reg val >>= k).isSome := by
  obtain ⟨new, hnew⟩ := set_isSome hf reg val
  rw [hnew]
  exact hk new

theorem updateField_bind_isSome {f : BitField} {α : Type} {k : Lt7680 → Option α}
    (hf : f ≠ .dtColorDepth) (reg : UInt8) (val : UInt32) (lcd : Lt7680)
    (hk : ∀ lcd', (k lcd').isSome) : (updateField reg f val lcd >>= k).isSome := by
  obtain ⟨new, -, heq⟩ := updateField_eq hf reg val lcd
  rw [heq]
  exact hk _

/-- The driver's own initialisation makes no call that is undefined. -/
theorem lt7680Init_isSome (p : LcdPanel) (lcd : Lt7680) : (lt7680Init p lcd).isSome := by
  apply BitField.set_bind_isSome (f := .tftOutput) (by decide)
  intro reg
  apply BitField.set_bind_isSome (f := .dataBus) (by decide)
  intro reg
  apply BitField.set_bind_isSome (f := .pclkInversion) (by decide)
  intro reg
  apply BitField.set_bind_isSome (f := .hsyncPolarity) (by decide)
  intro reg
  apply BitField.set_bind_isSome (f := .vsyncPolarity) (by decide)
  intro reg
  apply BitField.set_bind_isSome (f := .dePolarity) (by decide)
  intro reg
  apply updateField_bind_isSome (f := .mainWindowDepth) (by decide)
  intro lcd'
  apply BitField.set_bind_isSome (f := .blockMode) (by decide)
  intro reg
  apply BitField.set_bind_isSome (f := .canvasDepth) (by decide)
  intro reg
  rfl

end LcdPico
