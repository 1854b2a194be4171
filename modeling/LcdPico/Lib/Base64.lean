import LcdPico.Lib.CText

/-!
# Base64

The encoding of bytes in groups of three by four of 64 symbols, padded with `=`,
and the decoding, which passes over every character that is no symbol.
-/

namespace Base64

/-- The symbols, in the order of their values. -/
def alphabet : CString :=
  "ABCDEFGHIJKLMNOPQRSTUVWXYZabcdefghijklmnopqrstuvwxyz0123456789+/".toList

/-- The symbol of a value. -/
def sym (v : Nat) : Char := alphabet.getD v 'A'

/-- The value of a symbol. -/
def value (c : Char) : Option Nat := alphabet.findIdx? (· == c)

/-- The text of the bytes. -/
def encode : List UInt8 → CString
  | a :: b :: c :: bytes =>
    let n := a.toNat * 65536 + b.toNat * 256 + c.toNat
    sym (n / 262144) :: sym (n / 4096 % 64) :: sym (n / 64 % 64) :: sym (n % 64) :: encode bytes
  | [a, b] =>
    let n := a.toNat * 1024 + b.toNat * 4
    [sym (n / 4096), sym (n / 64 % 64), sym (n % 64), '=']
  | [a] =>
    let n := a.toNat * 16
    [sym (n / 64), sym (n % 64), '=', '=']
  | [] => []

/-- The bytes that values of symbols stand for. -/
def ofValues : List Nat → List UInt8
  | u :: v :: w :: x :: values =>
    let n := ((u * 64 + v) * 64 + w) * 64 + x
    UInt8.ofNat (n / 65536) :: UInt8.ofNat (n / 256) :: UInt8.ofNat n :: ofValues values
  | [u, v, w] =>
    let n := (u * 64 + v) * 64 + w
    [UInt8.ofNat (n / 1024), UInt8.ofNat (n / 4)]
  | [u, v] => [UInt8.ofNat ((u * 64 + v) / 16)]
  | _ => []

/-- The bytes of a text. -/
def decode (s : CString) : List UInt8 := ofValues (s.filterMap value)

/-! ## Symbols -/

theorem value_sym {v : Nat} (h : v < 64) : value (sym v) = some v := by
  revert v
  decide +kernel

@[simp] theorem value_pad : value '=' = none := by decide +kernel

/-- A character without a value is no symbol. -/
theorem sym_ne {c : Char} (hc : value c = none) (v : Nat) : sym v ≠ c := by
  rintro rfl
  by_cases h : v < 64
  · rw [value_sym h] at hc
    cases hc
  · have hlen : alphabet.length = 64 := by decide +kernel
    have hsym : sym v = 'A' := by
      rw [sym, List.getD_eq_getElem?_getD, List.getElem?_eq_none (by omega)]
      rfl
    rw [hsym] at hc
    exact absurd hc (by decide +kernel)

/-! ## Encoding and decoding -/

theorem ofNat_eq_of_mod {n : Nat} {a : UInt8} (h : n % 256 = a.toNat) : UInt8.ofNat n = a := by
  apply UInt8.toNat_inj.mp
  simpa using h

/-- What was encoded is decoded. -/
@[simp] theorem decode_encode (bytes : List UInt8) : decode (encode bytes) = bytes := by
  rw [decode]
  induction bytes using encode.induct with
  | case1 a b c bytes ih =>
    have ha := a.toNat_lt
    have hb := b.toNat_lt
    have hc := c.toNat_lt
    simp only [encode]
    generalize hn : a.toNat * 65536 + b.toNat * 256 + c.toNat = n
    have h₁ : value (sym (n / 262144)) = some (n / 262144) := value_sym (by omega)
    have h₂ : value (sym (n / 4096 % 64)) = some (n / 4096 % 64) := value_sym (by omega)
    have h₃ : value (sym (n / 64 % 64)) = some (n / 64 % 64) := value_sym (by omega)
    have h₄ : value (sym (n % 64)) = some (n % 64) := value_sym (by omega)
    have h : ((n / 262144 * 64 + n / 4096 % 64) * 64 + n / 64 % 64) * 64 + n % 64 = n := by omega
    simp only [List.filterMap_cons_some h₁, List.filterMap_cons_some h₂,
      List.filterMap_cons_some h₃, List.filterMap_cons_some h₄, ofValues]
    rw [ih, h, ofNat_eq_of_mod (a := a) (by omega), ofNat_eq_of_mod (a := b) (by omega),
      ofNat_eq_of_mod (a := c) (by omega)]
  | case2 a b =>
    have ha := a.toNat_lt
    have hb := b.toNat_lt
    simp only [encode]
    generalize hn : a.toNat * 1024 + b.toNat * 4 = n
    have h₁ : value (sym (n / 4096)) = some (n / 4096) := value_sym (by omega)
    have h₂ : value (sym (n / 64 % 64)) = some (n / 64 % 64) := value_sym (by omega)
    have h₃ : value (sym (n % 64)) = some (n % 64) := value_sym (by omega)
    have h : (n / 4096 * 64 + n / 64 % 64) * 64 + n % 64 = n := by omega
    simp only [List.filterMap_cons_some h₁, List.filterMap_cons_some h₂,
      List.filterMap_cons_some h₃, List.filterMap_cons_none value_pad, List.filterMap_nil, ofValues]
    rw [h, ofNat_eq_of_mod (a := a) (by omega), ofNat_eq_of_mod (a := b) (by omega)]
  | case3 a =>
    have ha := a.toNat_lt
    simp only [encode]
    generalize hn : a.toNat * 16 = n
    have h₁ : value (sym (n / 64)) = some (n / 64) := value_sym (by omega)
    have h₂ : value (sym (n % 64)) = some (n % 64) := value_sym (by omega)
    have h : n / 64 * 64 + n % 64 = n := by omega
    simp only [List.filterMap_cons_some h₁, List.filterMap_cons_some h₂,
      List.filterMap_cons_none value_pad, List.filterMap_nil, ofValues]
    rw [h, ofNat_eq_of_mod (a := a) (by omega)]
  | case4 => rfl

/-- Four symbols for three bytes. -/
theorem length_encode_le (bytes : List UInt8) :
    3 * (encode bytes).length ≤ 4 * bytes.length + 8 := by
  induction bytes using encode.induct with
  | case1 a b c bytes ih =>
    simp only [encode, List.length_cons]
    omega
  | case2 a b => simp [encode]
  | case3 a => simp [encode]
  | case4 => simp [encode]

/-- Symbols and padding are all that a text of bytes has in it. -/
theorem notMem_encode {c : Char} (hc : value c = none) (hpad : c ≠ '=') (bytes : List UInt8) :
    c ∉ encode bytes := by
  have hsym (v : Nat) : c ≠ sym v := (sym_ne hc v).symm
  induction bytes using encode.induct with
  | case1 a b c bytes ih => simp [encode, hsym, ih]
  | case2 a b => simp [encode, hsym, hpad]
  | case3 a => simp [encode, hsym, hpad]
  | case4 => simp [encode]

theorem blank_notMem_encode (bytes : List UInt8) : ' ' ∉ encode bytes :=
  notMem_encode (by decide +kernel) (by decide) bytes

theorem encode_ne_nil {bytes : List UInt8} (h : bytes ≠ []) : encode bytes ≠ [] := by
  cases bytes using encode.induct <;> simp [encode] at h ⊢

example : encode [77, 97, 110, 77] = "TWFuTQ==".toList := by decide +kernel

end Base64
