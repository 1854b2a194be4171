import LcdPico.Lib.CText

/-!
# IPv4 addresses in dotted-quad notation

An address is 32 bits in network order: its first byte in memory is the low byte.
-/

namespace DottedQuad

/-- The four bytes in their order, with dots between them. -/
def ntoa (ip : UInt32) : CString :=
  CText.utoa (ip.toNat % 256) ++ '.' :: CText.utoa (ip.toNat / 256 % 256) ++
    '.' :: CText.utoa (ip.toNat / 65536 % 256) ++ '.' :: CText.utoa (ip.toNat / 16777216)

/-- One byte, and what follows it. -/
def byte (s : CString) : Option (Nat × CString) :=
  match CText.strtol 10 s with
  | some (v, s) => if 0 ≤ v ∧ v < 256 then some (v.toNat, s) else none
  | none => none

/-- One byte that a dot ends. -/
def byteDot (s : CString) : Option (Nat × CString) :=
  match byte s with
  | some (v, '.' :: s) => some (v, s)
  | _ => none

/-- Four bytes, and nothing behind them. -/
def aton (s : CString) : Option UInt32 := do
  let (a, s) ← byteDot s
  let (b, s) ← byteDot s
  let (c, s) ← byteDot s
  let (d, s) ← byte s
  if s = [] then some (UInt32.ofNat (a + b * 256 + c * 65536 + d * 16777216)) else none

theorem byte_utoa_append {n : Nat} (hn : n < 256) {rest : CString}
    (hrest : ∀ c ∈ rest.head?, CText.digit? 10 c = none) :
    byte (CText.utoa n ++ rest) = some (n, rest) := by
  have hv : (0 : Int) ≤ n ∧ (n : Int) < 256 := by omega
  rw [byte, CText.strtol_utoa_append (by omega) hrest]
  simp only [hv, and_self, if_true, Int.toNat_natCast]

theorem byteDot_utoa_append {n : Nat} (hn : n < 256) (s : CString) :
    byteDot (CText.utoa n ++ '.' :: s) = some (n, s) := by
  have hdot : ∀ c ∈ ('.' :: s).head?, CText.digit? 10 c = none := by
    rintro c ⟨⟩
    decide
  rw [byteDot, byte_utoa_append hn hdot]
  rfl

/-- Every address is read back from its notation. -/
@[simp] theorem aton_ntoa (ip : UInt32) : aton (ntoa ip) = some ip := by
  have hip := ip.toNat_lt
  have hlast : byte (CText.utoa (ip.toNat / 16777216)) = some (ip.toNat / 16777216, []) := by
    have h : byte (CText.utoa (ip.toNat / 16777216) ++ []) = some (ip.toNat / 16777216, []) :=
      byte_utoa_append (by omega) (by simp)
    rwa [List.append_nil] at h
  simp only [aton, ntoa, List.append_assoc, List.cons_append]
  rw [byteDot_utoa_append (by omega)]
  dsimp only [Option.bind_eq_bind, Option.bind_some]
  rw [byteDot_utoa_append (by omega)]
  dsimp only [Option.bind_some]
  rw [byteDot_utoa_append (by omega)]
  dsimp only [Option.bind_some]
  rw [hlast]
  simp only [Option.bind_some, if_true, Option.some.injEq]
  apply UInt32.toNat_inj.mp
  rw [UInt32.toNat_ofNat']
  omega

/-- The notation of an address is at most 15 characters of digits and dots. -/
theorem mem_ntoa {ip : UInt32} {c : Char} (h : c ∈ ntoa ip) : c.isDigit = true ∨ c = '.' := by
  simp only [ntoa, List.mem_append, List.mem_cons] at h
  rcases h with ((h | h | h) | h | h) | h | h
  case inr.inl | inl.inr.inl | inl.inl.inr.inl => exact .inr h
  all_goals exact .inl (CText.isDigit_of_mem_utoa h)

theorem length_ntoa_le (ip : UInt32) : (ntoa ip).length ≤ 15 := by
  have hlen : ∀ n, n < 256 → (CText.utoa n).length ≤ 3 := fun n hn =>
    (Nat.length_toDigits_le_iff (by decide) (by decide)).mpr (by omega)
  have hip := ip.toNat_lt
  have ha := hlen (ip.toNat % 256) (by omega)
  have hb := hlen (ip.toNat / 256 % 256) (by omega)
  have hc := hlen (ip.toNat / 65536 % 256) (by omega)
  have hd := hlen (ip.toNat / 16777216) (by omega)
  simp only [ntoa, List.length_append, List.length_cons]
  omega

theorem ntoa_ne_nil (ip : UInt32) : ntoa ip ≠ [] := by
  simp [ntoa]

end DottedQuad
