import LcdPico.Settings

/-!
# Range checks of numeric settings (`command_util.c`)

`uint8_setting` and its siblings convert the number they are given to the type of the
variable and compare the outcome with the bounds. A number outside the type is
reduced modulo a power of two first, so it is refused only when its remainder is out of
the bounds as well. `cmd_led` compares before it converts.
-/

namespace LcdPico

/-! ## Unsigned types -/

/-- An unsigned type of C: a number is stored modulo `2 ^ bits`. -/
structure Width (U : Type) [LE U] where
  /-- how many bits the type has -/
  bits : Nat
  /-- the conversion from `int` -/
  ofInt : Int → U
  /-- the number that is stored -/
  toNat : U → Nat
  toNat_lt : ∀ a : U, (toNat a : Int) < 2 ^ bits
  toNat_ofInt : ∀ v : Int, (toNat (ofInt v) : Int) = v % 2 ^ bits
  le_iff : ∀ a b : U, a ≤ b ↔ toNat a ≤ toNat b

theorem uint8_toNat_ofInt (v : Int) : ((UInt8.ofInt v).toNat : Int) = v % 2 ^ 8 := by
  simp only [UInt8.ofInt, UInt8.toNat_ofNat']
  omega

theorem uint16_toNat_ofInt (v : Int) : ((UInt16.ofInt v).toNat : Int) = v % 2 ^ 16 := by
  simp only [UInt16.ofInt, UInt16.toNat_ofNat']
  omega

theorem uint32_toNat_ofInt (v : Int) : ((UInt32.ofInt v).toNat : Int) = v % 2 ^ 32 := by
  simp only [UInt32.ofInt, UInt32.toNat_ofNat']
  omega

/-- `uint8_t` -/
def width8 : Width UInt8 where
  bits := 8
  ofInt := UInt8.ofInt
  toNat := UInt8.toNat
  toNat_lt a := by exact_mod_cast a.toNat_lt
  toNat_ofInt := uint8_toNat_ofInt
  le_iff _ _ := UInt8.le_iff_toNat_le

/-- `uint16_t` -/
def width16 : Width UInt16 where
  bits := 16
  ofInt := UInt16.ofInt
  toNat := UInt16.toNat
  toNat_lt a := by exact_mod_cast a.toNat_lt
  toNat_ofInt := uint16_toNat_ofInt
  le_iff _ _ := UInt16.le_iff_toNat_le

/-- `uint32_t` -/
def width32 : Width UInt32 where
  bits := 32
  ofInt := UInt32.ofInt
  toNat := UInt32.toNat
  toNat_lt a := by exact_mod_cast a.toNat_lt
  toNat_ofInt := uint32_toNat_ofInt
  le_iff _ _ := UInt32.le_iff_toNat_le

/-! ## What the check says -/

section Check

variable {U : Type} [LE U] (W : Width U) (v : Int) (var min_val max_val : U)

/-- The outcome of a setting judges the number `v` itself: it is stored when it is
within the bounds, and refused when it is not. -/
def Judged (out : Int × U) : Prop :=
  if (W.toNat min_val : Int) ≤ v ∧ v ≤ W.toNat max_val then
    out.1 = 0 ∧ (W.toNat out.2 : Int) = v
  else out = (2, var)

/-- The number is not one of the type, and its remainder is within the bounds. -/
def WrapsInto : Prop :=
  ¬(0 ≤ v ∧ v < 2 ^ W.bits) ∧
    (W.toNat min_val : Int) ≤ v % 2 ^ W.bits ∧ v % 2 ^ W.bits ≤ W.toNat max_val

/-- The comparison in the type of the variable is one of remainders. -/
theorem Width.within_iff : min_val ≤ W.ofInt v ∧ W.ofInt v ≤ max_val ↔
    (W.toNat min_val : Int) ≤ v % 2 ^ W.bits ∧ v % 2 ^ W.bits ≤ W.toNat max_val := by
  rw [W.le_iff, W.le_iff, ← W.toNat_ofInt, Int.ofNat_le, Int.ofNat_le]

variable [DecidableEq U] [DecidableLE U]

/-- What a helper does with a number, case by case. -/
theorem uintSetting_number {call : Call} (hq : call.query = false)
    (hv : strToInt call.args 10 = some v) :
    uintSetting call W.ofInt var min_val max_val =
      if (W.toNat min_val : Int) ≤ v % 2 ^ W.bits ∧ v % 2 ^ W.bits ≤ W.toNat max_val then
        (0, W.ofInt v)
      else (2, var) := by
  have hite : (if var ≠ W.ofInt v then W.ofInt v else var) = W.ofInt v := by
    split_ifs with h
    · rfl
    · exact not_not.mp h
  simp only [uintSetting, hq, hv, W.within_iff, hite]
  rfl

theorem judged_uintSetting_iff {call : Call} (hq : call.query = false)
    (hv : strToInt call.args 10 = some v) :
    Judged W v var min_val max_val (uintSetting call W.ofInt var min_val max_val) ↔
      ¬WrapsInto W v min_val max_val := by
  rw [uintSetting_number W v var min_val max_val hq hv, Judged, WrapsInto]
  have hmax := W.toNat_lt max_val
  have hmin : (0 : Int) ≤ W.toNat min_val := Int.natCast_nonneg _
  by_cases hv : 0 ≤ v ∧ v < 2 ^ W.bits
  · -- the conversion keeps the number
    have hmod : v % 2 ^ W.bits = v := Int.emod_eq_of_lt hv.1 hv.2
    rw [hmod]
    split_ifs with h
    · exact ⟨fun _ hw => hw.1 hv, fun _ => ⟨rfl, (W.toNat_ofInt v).trans hmod⟩⟩
    · exact ⟨fun _ hw => hw.1 hv, fun _ => rfl⟩
  · -- the number is out of any bounds, and only its remainder may be within
    have hout : ¬((W.toNat min_val : Int) ≤ v ∧ v ≤ W.toNat max_val) := by omega
    rw [if_neg hout]
    split_ifs with h
    · exact ⟨fun heq => absurd (congrArg Prod.fst heq) (by simp), fun hw => absurd ⟨hv, h⟩ hw⟩
    · exact ⟨fun _ hw => h hw.2, fun _ => rfl⟩

end Check

section Settings

variable {call : Call} {v : Int}

/-- The three helpers judge a number exactly when it does not wrap into the bounds. -/
theorem uint_settings_judge_iff (hq : call.query = false)
    (hv : strToInt call.args 10 = some v) :
    (∀ var min_val max_val : UInt8,
      Judged width8 v var min_val max_val (uint8Setting call var min_val max_val) ↔
        ¬WrapsInto width8 v min_val max_val) ∧
    (∀ var min_val max_val : UInt16,
      Judged width16 v var min_val max_val (uint16Setting call var min_val max_val) ↔
        ¬WrapsInto width16 v min_val max_val) ∧
    ∀ var min_val max_val : UInt32,
      Judged width32 v var min_val max_val (uint32Setting call var min_val max_val) ↔
        ¬WrapsInto width32 v min_val max_val :=
  ⟨fun var min_val max_val => judged_uintSetting_iff width8 v var min_val max_val hq hv,
    fun var min_val max_val => judged_uintSetting_iff width16 v var min_val max_val hq hv,
    fun var min_val max_val => judged_uintSetting_iff width32 v var min_val max_val hq hv⟩

end Settings

/-- `SYSTem:BACKlight` with a number. -/
def backlightCall (args : CString) : Call :=
  { cmd := "BACKLIGHT".toList, args := args, query := false, prevCmd := [] }

theorem uint_settings_judge_42 :
    (Judged width8 42 50 0 100 (uint8Setting (backlightCall "42".toList) 50 0 100) ↔
      ¬WrapsInto width8 42 0 100) ∧
    (Judged width16 42 50 0 100 (uint16Setting (backlightCall "42".toList) 50 0 100) ↔
      ¬WrapsInto width16 42 0 100) ∧
    (Judged width32 42 50 0 100 (uint32Setting (backlightCall "42".toList) 50 0 100) ↔
      ¬WrapsInto width32 42 0 100) :=
  have h := @uint_settings_judge_iff (backlightCall "42".toList) 42 rfl (by decide +kernel)
  ⟨h.1 50 0 100, h.2.1 50 0 100, h.2.2 50 0 100⟩

/-- A brightness of 300 is accepted, and 44 is stored. -/
theorem backlight_300_accepted :
    strToInt "300".toList 10 = some 300 ∧
      uint8Setting (backlightCall "300".toList) 50 0 100 = (0, 44) ∧
      ¬Judged width8 300 50 0 100 (uint8Setting (backlightCall "300".toList) 50 0 100) := by
  have hout : uint8Setting (backlightCall "300".toList) 50 0 100 = (0, 44) := by decide +kernel
  refine ⟨by decide +kernel, hout, fun h => ?_⟩
  rw [hout, Judged, if_neg (by decide)] at h
  exact absurd (congrArg Prod.fst h) (by decide)

end LcdPico
