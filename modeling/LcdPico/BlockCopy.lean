import LcdPico.BitFields
import LcdPico.RegisterFrame

/-!
# The start of a block copy (`lt7680_bte_memory_copy`)

A block copy is programmed word by word, and words that are too wide go over registers
behind their own. A parameter is there at the start if no later word goes over it, which
the addresses of the words tell, whatever the arguments are.
-/

namespace LcdPico

open RegisterFile

/-! ## Words in order -/

theorem Issues.words {wss : List (List (UInt8 × UInt8))} {ws : List (UInt8 × UInt8)}
    {lcd lcd' lcd'' : Lt7680} (h : Issues wss.flatten lcd lcd') (h' : Issues ws lcd' lcd'') :
    Issues (wss ++ [ws]).flatten lcd lcd'' := by
  rw [List.flatten_append, List.flatten_singleton]
  exact h.trans h'

/-- The registers that each word goes into. -/
def addresses (words : List (List (UInt8 × UInt8))) : List (List UInt8) :=
  words.map (List.map Prod.fst)

/-- No word after the `i`-th one goes over the registers. -/
def Undisturbed (addrs : List (List UInt8)) (i : Nat) (own : List UInt8) : Prop :=
  ∀ r ∈ own, r ∉ (addrs.drop (i + 1)).flatten

instance (addrs : List (List UInt8)) (i : Nat) (own : List UInt8) :
    Decidable (Undisturbed addrs i own) :=
  List.decidableBAll (fun r => r ∉ (addrs.drop (i + 1)).flatten) own

section Words

variable {wss : List (List (UInt8 × UInt8))} {addrs : List (List UInt8)} {i : Nat}
  {own : List UInt8} {reg : UInt8}

/-- A register that no later word goes over holds what the word put there. -/
theorem after_words {ws : List (UInt8 × UInt8)} (hi : wss[i]? = some ws)
    (haddrs : addresses wss = addrs) (h : Undisturbed addrs i own) (regs : UInt8 → UInt8)
    {r v : UInt8} (hr : r ∈ own) (hv : lastWrite r ws = some v) :
    RegisterFile.after regs wss.flatten r = v := by
  obtain ⟨hlt, hget⟩ := List.getElem?_eq_some_iff.mp hi
  have hsplit : wss = wss.take i ++ ws :: wss.drop (i + 1) := by
    rw [← hget, List.getElem_cons_drop, List.take_append_drop]
  have hlater : r ∉ (wss.drop (i + 1)).flatten.map Prod.fst := by
    rw [List.map_flatten, List.map_drop]
    subst haddrs
    exact h r hr
  rw [hsplit, List.flatten_append, List.flatten_cons, after_append, after_append,
    after_of_notMem hlater, after_apply, hv]
  rfl

theorem regU16_after {val : UInt16} (hi : wss[i]? = some (bytesU16 reg val))
    (haddrs : addresses wss = addrs) (h : Undisturbed addrs i (ownU16 reg))
    (regs : UInt8 → UInt8) : regU16 (RegisterFile.after regs wss.flatten) reg = val := by
  apply regU16_eq
  · exact after_words hi haddrs h regs (by simp [ownU16]) (by simp [bytesU16, lastWrite])
  · exact after_words hi haddrs h regs (by simp [ownU16]) (by simp [bytesU16, lastWrite])

/-- A value of 16 bits and zero behind it. -/
def wideU16 (reg : UInt8) (val : UInt16) : List (UInt8 × UInt8) :=
  bytesU16 reg val ++ [(reg + 2, 0), (reg + 3, 0)]

theorem regU16_after_wide {val : UInt16} (hi : wss[i]? = some (wideU16 reg val))
    (haddrs : addresses wss = addrs) (h : Undisturbed addrs i (ownU16 reg))
    (regs : UInt8 → UInt8) : regU16 (RegisterFile.after regs wss.flatten) reg = val := by
  have hbehind {r : UInt8} (hr : r ∈ ownU16 reg) :
      lastWrite r (wideU16 reg val) = lastWrite r (bytesU16 reg val) := by
    have hmem : r ∉ ([(reg + 2, 0), (reg + 3, 0)] : List (UInt8 × UInt8)).map Prod.fst := by
      simp only [ownU16, List.mem_cons, List.not_mem_nil, or_false] at hr
      simp only [List.map_cons, List.map_nil, List.mem_cons, List.not_mem_nil, or_false]
      grind
    rw [wideU16, lastWrite_append, lastWrite_of_notMem hmem, Option.none_or]
  have h0 : reg ∈ ownU16 reg := by simp [ownU16]
  have h1 : reg + 1 ∈ ownU16 reg := by simp [ownU16]
  apply regU16_eq
  · exact after_words hi haddrs h regs h0 (by rw [hbehind h0]; simp [bytesU16, lastWrite])
  · exact after_words hi haddrs h regs h1 (by rw [hbehind h1]; simp [bytesU16, lastWrite])

theorem regU32_after {val : UInt32} (hi : wss[i]? = some (bytesU32 reg val))
    (haddrs : addresses wss = addrs)
    (h : Undisturbed addrs i [reg, reg + 1, reg + 2, reg + 3])
    (regs : UInt8 → UInt8) : regU32 (RegisterFile.after regs wss.flatten) reg = val := by
  have h12 : reg + 2 ≠ reg + 1 := by grind
  have h13 : reg + 3 ≠ reg + 1 := by grind
  have h23 : reg + 3 ≠ reg + 2 := by grind
  apply regU32_eq
  · exact after_words hi haddrs h regs (by simp) (by simp [bytesU32, lastWrite])
  · exact after_words hi haddrs h regs (by simp) (by simp [bytesU32, lastWrite, h12, h13])
  · exact after_words hi haddrs h regs (by simp) (by simp [bytesU32, lastWrite, h23])
  · exact after_words hi haddrs h regs (by simp) (by simp [bytesU32, lastWrite])

end Words

/-! ## The words of a block copy -/

/-- The words that `setup` writes, in order. -/
def MemoryCopy.words (a : MemoryCopy) : List (List (UInt8 × UInt8)) :=
  [bytesU32 DT_STR_REG a.d_addr, wideU16 DT_WTH_REG (a.d_w &&& 0x1ffc),
    bytesU16 DT_X_REG (a.d_x &&& 0x1fff), bytesU16 DT_Y_REG (a.d_y &&& 0x1fff),
    bytesU32 S0_STR_REG a.s0_addr, wideU16 S0_WTH_REG (a.s0_w &&& 0x1ffc),
    bytesU16 S0_X_REG (a.s0_x &&& 0x1fff), bytesU16 S0_Y_REG (a.s0_y &&& 0x1fff),
    bytesU32 S1_STR_REG a.s1_addr, wideU16 S1_WTH_REG (a.s1_w &&& 0x1ffc),
    bytesU16 S1_X_REG (a.s1_x &&& 0x1fff), bytesU16 S1_Y_REG (a.s1_y &&& 0x1fff),
    wideU16 BLT_WTH_REG (a.w &&& 0x1fff), wideU16 BLT_HIG_REG (a.h &&& 0x1fff),
    [(BLT_CTRL1_REG, a.rop <<< 4 ||| (0x02 &&& 0x0f))]]

/-- The words of `lt7680_bte_memory_copy`; the last one starts the copy. -/
def MemoryCopy.startWords (a : MemoryCopy) (v : UInt8) : List (List (UInt8 × UInt8)) :=
  a.words ++ [[(BLT_CTRL0_REG, v)]]

/-- The registers of the words, the same for all arguments. -/
def MemoryCopy.addrs : List (List UInt8) :=
  let wide (reg : UInt8) := [reg, reg + 1, reg + 2, reg + 3]
  [wide DT_STR_REG, wide DT_WTH_REG, ownU16 DT_X_REG, ownU16 DT_Y_REG,
    wide S0_STR_REG, wide S0_WTH_REG, ownU16 S0_X_REG, ownU16 S0_Y_REG,
    wide S1_STR_REG, wide S1_WTH_REG, ownU16 S1_X_REG, ownU16 S1_Y_REG,
    wide BLT_WTH_REG, wide BLT_HIG_REG, [BLT_CTRL1_REG], [BLT_CTRL0_REG]]

theorem MemoryCopy.addresses_startWords (a : MemoryCopy) (v : UInt8) :
    addresses (a.startWords v) = MemoryCopy.addrs := rfl

theorem spiWriteRegisterU32_wide (reg : UInt8) (val : UInt16) (lcd : Lt7680) :
    Issues (wideU16 reg val) lcd (spiWriteRegisterU32 reg val.toUInt32 lcd) := by
  have hissues := spiWriteRegisterU32_issues reg val.toUInt32 lcd
  rwa [bytesU32_toUInt32] at hissues

theorem MemoryCopy.setup_issues (a : MemoryCopy) (lcd : Lt7680) :
    Issues a.words.flatten lcd (a.setup lcd) := by
  have hstart : Issues ([] : List (List (UInt8 × UInt8))).flatten lcd lcd :=
    ⟨(List.append_nil _).symm, rfl⟩
  have hdt := (((hstart.words (spiWriteRegisterU32_issues DT_STR_REG a.d_addr _)).words
    (spiWriteRegisterU32_wide DT_WTH_REG (a.d_w &&& 0x1ffc) _)).words
    (spiWriteRegisterU16_issues DT_X_REG (a.d_x &&& 0x1fff) _)).words
    (spiWriteRegisterU16_issues DT_Y_REG (a.d_y &&& 0x1fff) _)
  have hs0 := (((hdt.words (spiWriteRegisterU32_issues S0_STR_REG a.s0_addr _)).words
    (spiWriteRegisterU32_wide S0_WTH_REG (a.s0_w &&& 0x1ffc) _)).words
    (spiWriteRegisterU16_issues S0_X_REG (a.s0_x &&& 0x1fff) _)).words
    (spiWriteRegisterU16_issues S0_Y_REG (a.s0_y &&& 0x1fff) _)
  have hs1 := (((hs0.words (spiWriteRegisterU32_issues S1_STR_REG a.s1_addr _)).words
    (spiWriteRegisterU32_wide S1_WTH_REG (a.s1_w &&& 0x1ffc) _)).words
    (spiWriteRegisterU16_issues S1_X_REG (a.s1_x &&& 0x1fff) _)).words
    (spiWriteRegisterU16_issues S1_Y_REG (a.s1_y &&& 0x1fff) _)
  have hall := ((hs1.words (spiWriteRegisterU32_wide BLT_WTH_REG (a.w &&& 0x1fff) _)).words
    (spiWriteRegisterU32_wide BLT_HIG_REG (a.h &&& 0x1fff) _)).words
    (spiWriteRegister_issues BLT_CTRL1_REG (a.rop <<< 4 ||| (0x02 &&& 0x0f)) _)
  simp only [List.nil_append, List.cons_append] at hall
  exact hall

/-! ## The start -/

/-- The registers hold the parameters of the copy. -/
structure MemoryCopy.Programmed (a : MemoryCopy) (regs : UInt8 → UInt8) : Prop where
  dtAddr : regU32 regs DT_STR_REG = a.d_addr
  dtWidth : regU16 regs DT_WTH_REG = a.d_w &&& 0x1ffc
  dtX : regU16 regs DT_X_REG = a.d_x &&& 0x1fff
  dtY : regU16 regs DT_Y_REG = a.d_y &&& 0x1fff
  s0Addr : regU32 regs S0_STR_REG = a.s0_addr
  s0Width : regU16 regs S0_WTH_REG = a.s0_w &&& 0x1ffc
  s0X : regU16 regs S0_X_REG = a.s0_x &&& 0x1fff
  s0Y : regU16 regs S0_Y_REG = a.s0_y &&& 0x1fff
  s1Addr : regU32 regs S1_STR_REG = a.s1_addr
  s1Width : regU16 regs S1_WTH_REG = a.s1_w &&& 0x1ffc
  s1X : regU16 regs S1_X_REG = a.s1_x &&& 0x1fff
  s1Y : regU16 regs S1_Y_REG = a.s1_y &&& 0x1fff
  width : regU16 regs BLT_WTH_REG = a.w &&& 0x1fff
  height : regU16 regs BLT_HIG_REG = a.h &&& 0x1fff
  mode : (regs BLT_CTRL1_REG).toNat = (a.rop.toNat <<< 4 ||| 2) % 256

theorem MemoryCopy.programmed (a : MemoryCopy) (v : UInt8) (regs : UInt8 → UInt8) :
    a.Programmed (RegisterFile.after regs (a.startWords v).flatten) where
  dtAddr := regU32_after (i := 0) rfl (a.addresses_startWords v) (by decide) regs
  dtWidth := regU16_after_wide (i := 1) rfl (a.addresses_startWords v) (by decide) regs
  dtX := regU16_after (i := 2) rfl (a.addresses_startWords v) (by decide) regs
  dtY := regU16_after (i := 3) rfl (a.addresses_startWords v) (by decide) regs
  s0Addr := regU32_after (i := 4) rfl (a.addresses_startWords v) (by decide) regs
  s0Width := regU16_after_wide (i := 5) rfl (a.addresses_startWords v) (by decide) regs
  s0X := regU16_after (i := 6) rfl (a.addresses_startWords v) (by decide) regs
  s0Y := regU16_after (i := 7) rfl (a.addresses_startWords v) (by decide) regs
  s1Addr := regU32_after (i := 8) rfl (a.addresses_startWords v) (by decide) regs
  s1Width := regU16_after_wide (i := 9) rfl (a.addresses_startWords v) (by decide) regs
  s1X := regU16_after (i := 10) rfl (a.addresses_startWords v) (by decide) regs
  s1Y := regU16_after (i := 11) rfl (a.addresses_startWords v) (by decide) regs
  width := regU16_after_wide (i := 12) rfl (a.addresses_startWords v) (by decide) regs
  height := regU16_after_wide (i := 13) rfl (a.addresses_startWords v) (by decide) regs
  mode := by
    have hlast : Undisturbed MemoryCopy.addrs 14 [BLT_CTRL1_REG] := by decide
    have hmode : RegisterFile.after regs (a.startWords v).flatten BLT_CTRL1_REG =
        a.rop <<< 4 ||| (0x02 &&& 0x0f) :=
      after_words rfl (a.addresses_startWords v) hlast regs (List.mem_singleton_self _) rfl
    have h4 : (4 : UInt8).toNat % 8 = 4 := rfl
    have h2 : ((0x02 : UInt8) &&& 0x0f).toNat = 2 % 2 ^ 8 := rfl
    rw [hmode, UInt8.toNat_or, UInt8.toNat_shiftLeft, h4, h2, ← Nat.or_mod_two_pow]

/-- The enable bit is set by the last write, and the parameters are as given by then. -/
theorem bte_memory_copy_programmed (a : MemoryCopy) (lcd : Lt7680) :
    ∃ lcd' before v, lt7680BteMemoryCopy a lcd = some lcd' ∧
      lcd'.writes = lcd.writes ++ before ++ [(BLT_CTRL0_REG, v)] ∧
      BLT_CTRL0_REG ∉ before.map Prod.fst ∧ v.toNat.testBit 4 = true ∧
      a.Programmed lcd'.regs := by
  obtain ⟨v, hv, heq⟩ := lt7680BteOn_eq (a.setup lcd)
  have hsetup := a.setup_issues lcd
  have henable := spiWriteRegister_issues BLT_CTRL0_REG v (a.setup lcd)
  have hbefore : BLT_CTRL0_REG ∉ a.words.flatten.map Prod.fst := by
    rw [List.map_flatten]
    exact (by decide : BLT_CTRL0_REG ∉ MemoryCopy.addrs.dropLast.flatten)
  refine ⟨_, a.words.flatten, v, heq, ?_, hbefore, hv, ?_⟩
  · rw [henable.writes, hsetup.writes]
  · have hregs := (hsetup.words henable).regs
    rw [hregs]
    exact a.programmed v lcd.regs

end LcdPico
