import LcdPico.Config
import LcdPico.Lib.Base64
import LcdPico.Lib.DottedQuad
import Mathlib.Data.Rat.Defs

/-!
# A platform to run the firmware on in Lean

`hostPlatform` gives the functions that the firmware takes from outside a body, so
that its commands can be evaluated: floating-point numbers are rationals (a number
that is not one is none), the sensor types are those of `commands.md`.
-/

namespace LcdPico

/-- The digits at the beginning, and what follows them. -/
def digitSpan (s : CString) : CString × CString := s.span Char.isDigit

/-- `strtof`, of a decimal number without an exponent. -/
def strtofDecimal (s : CString) : Option ℚ :=
  let s := s.dropWhile CText.isSpace
  let neg := s.head? = some '-'
  let s := if s.head? = some '-' ∨ s.head? = some '+' then s.drop 1 else s
  let (whole, s) := digitSpan s
  let frac := if s.head? = some '.' then (digitSpan (s.drop 1)).1 else []
  if whole = [] ∧ frac = [] then none
  else
    let q : ℚ := mkRat (CText.digitsVal 10 (whole ++ frac)) (10 ^ frac.length)
    some (if neg then -q else q)

/-- The sensor types, in the order of their numbers; 0 is no sensor. -/
def i2cSensorTypes : List CString :=
  ["NONE".toList, "ADT7410".toList, "AHT1x".toList, "AHT2x".toList, "AM2320".toList,
    "AS621x".toList, "BMP180".toList, "BMP280".toList, "DPS310".toList, "HDC302x".toList,
    "HTS221".toList, "HTU21D".toList, "HTU31D".toList, "LPSxx".toList, "MCP9808".toList,
    "MPL115A2".toList, "MPL3115A2".toList, "MS5611".toList, "MS8607".toList, "PCT2075".toList,
    "SHT3x".toList, "SHT4x".toList, "SHTC3".toList, "SI7021".toList, "STTS22H".toList,
    "TC74".toList, "TMP102".toList, "TMP117".toList]

/-- The platform, with rationals for `float`, and for `double` but for NaN. -/
def hostPlatform : Platform ℚ (Option ℚ) where
  floatZero := 0
  floatOne := 1
  floatMinusOne := -1
  floatHundred := 100
  adcRefVoltage := mkRat 33 10
  floatLe a b := decide (a ≤ b)
  floatNe a b := decide (a ≠ b)
  strtof := strtofDecimal
  ofInt i := some i
  ofFloat := some
  toFloat d := d.getD 0
  toInt d := (d.getD 0).num.tdiv (d.getD 0).den
  toBool d := d ≠ some 0
  nan := none
  ipaddrAton := DottedQuad.aton
  ipaddrNtoa := DottedQuad.ntoa
  base64encodeRaw := Base64.encode
  base64decodeRaw := Base64.decode
  getI2cSensorType s := UInt8.ofNat ((i2cSensorTypes.findIdx? fun name =>
    CText.strncaseeq s name (name.length + 1)).getD 0)
  i2cSensorTypeStr t := i2cSensorTypes.getD t.toNat "NONE".toList
  i2cReservedAddress addr := addr < 8 || addr ≥ 120
  generateSha512cryptPwhash _ := none

example : strtofDecimal "21.5,60".toList = some (mkRat 43 2) := by decide +kernel

end LcdPico
