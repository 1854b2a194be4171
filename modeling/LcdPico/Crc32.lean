import LcdPico.Lib.ByteBits
import LcdPico.Lib.Crc

/-!
# The checksum (`crc32.c`)

`xcrc32` takes a byte at a time and looks up what eight bits do in `crc32_table`. The table
is what its generating program prints (`crc32_table_generated`), and so the result is that
of feeding the bits of the buffer one by one (`xcrc32_eq_checksum`): the remainder of a
division of polynomials, with the parameters that the comment of the source gives.
-/

namespace LcdPico

/-- The polynomial, without its highest term. -/
def CRC32_POLY : BitVec 32 := 0x04c11db7

/-- `crc32_table` -/
def crc32Table : List UInt32 :=
  [
    0x00000000, 0x04c11db7, 0x09823b6e, 0x0d4326d9, 0x130476dc, 0x17c56b6b, 0x1a864db2, 0x1e475005,
    0x2608edb8, 0x22c9f00f, 0x2f8ad6d6, 0x2b4bcb61, 0x350c9b64, 0x31cd86d3, 0x3c8ea00a, 0x384fbdbd,
    0x4c11db70, 0x48d0c6c7, 0x4593e01e, 0x4152fda9, 0x5f15adac, 0x5bd4b01b, 0x569796c2, 0x52568b75,
    0x6a1936c8, 0x6ed82b7f, 0x639b0da6, 0x675a1011, 0x791d4014, 0x7ddc5da3, 0x709f7b7a, 0x745e66cd,
    0x9823b6e0, 0x9ce2ab57, 0x91a18d8e, 0x95609039, 0x8b27c03c, 0x8fe6dd8b, 0x82a5fb52, 0x8664e6e5,
    0xbe2b5b58, 0xbaea46ef, 0xb7a96036, 0xb3687d81, 0xad2f2d84, 0xa9ee3033, 0xa4ad16ea, 0xa06c0b5d,
    0xd4326d90, 0xd0f37027, 0xddb056fe, 0xd9714b49, 0xc7361b4c, 0xc3f706fb, 0xceb42022, 0xca753d95,
    0xf23a8028, 0xf6fb9d9f, 0xfbb8bb46, 0xff79a6f1, 0xe13ef6f4, 0xe5ffeb43, 0xe8bccd9a, 0xec7dd02d,
    0x34867077, 0x30476dc0, 0x3d044b19, 0x39c556ae, 0x278206ab, 0x23431b1c, 0x2e003dc5, 0x2ac12072,
    0x128e9dcf, 0x164f8078, 0x1b0ca6a1, 0x1fcdbb16, 0x018aeb13, 0x054bf6a4, 0x0808d07d, 0x0cc9cdca,
    0x7897ab07, 0x7c56b6b0, 0x71159069, 0x75d48dde, 0x6b93dddb, 0x6f52c06c, 0x6211e6b5, 0x66d0fb02,
    0x5e9f46bf, 0x5a5e5b08, 0x571d7dd1, 0x53dc6066, 0x4d9b3063, 0x495a2dd4, 0x44190b0d, 0x40d816ba,
    0xaca5c697, 0xa864db20, 0xa527fdf9, 0xa1e6e04e, 0xbfa1b04b, 0xbb60adfc, 0xb6238b25, 0xb2e29692,
    0x8aad2b2f, 0x8e6c3698, 0x832f1041, 0x87ee0df6, 0x99a95df3, 0x9d684044, 0x902b669d, 0x94ea7b2a,
    0xe0b41de7, 0xe4750050, 0xe9362689, 0xedf73b3e, 0xf3b06b3b, 0xf771768c, 0xfa325055, 0xfef34de2,
    0xc6bcf05f, 0xc27dede8, 0xcf3ecb31, 0xcbffd686, 0xd5b88683, 0xd1799b34, 0xdc3abded, 0xd8fba05a,
    0x690ce0ee, 0x6dcdfd59, 0x608edb80, 0x644fc637, 0x7a089632, 0x7ec98b85, 0x738aad5c, 0x774bb0eb,
    0x4f040d56, 0x4bc510e1, 0x46863638, 0x42472b8f, 0x5c007b8a, 0x58c1663d, 0x558240e4, 0x51435d53,
    0x251d3b9e, 0x21dc2629, 0x2c9f00f0, 0x285e1d47, 0x36194d42, 0x32d850f5, 0x3f9b762c, 0x3b5a6b9b,
    0x0315d626, 0x07d4cb91, 0x0a97ed48, 0x0e56f0ff, 0x1011a0fa, 0x14d0bd4d, 0x19939b94, 0x1d528623,
    0xf12f560e, 0xf5ee4bb9, 0xf8ad6d60, 0xfc6c70d7, 0xe22b20d2, 0xe6ea3d65, 0xeba91bbc, 0xef68060b,
    0xd727bbb6, 0xd3e6a601, 0xdea580d8, 0xda649d6f, 0xc423cd6a, 0xc0e2d0dd, 0xcda1f604, 0xc960ebb3,
    0xbd3e8d7e, 0xb9ff90c9, 0xb4bcb610, 0xb07daba7, 0xae3afba2, 0xaafbe615, 0xa7b8c0cc, 0xa379dd7b,
    0x9b3660c6, 0x9ff77d71, 0x92b45ba8, 0x9675461f, 0x8832161a, 0x8cf30bad, 0x81b02d74, 0x857130c3,
    0x5d8a9099, 0x594b8d2e, 0x5408abf7, 0x50c9b640, 0x4e8ee645, 0x4a4ffbf2, 0x470cdd2b, 0x43cdc09c,
    0x7b827d21, 0x7f436096, 0x7200464f, 0x76c15bf8, 0x68860bfd, 0x6c47164a, 0x61043093, 0x65c52d24,
    0x119b4be9, 0x155a565e, 0x18197087, 0x1cd86d30, 0x029f3d35, 0x065e2082, 0x0b1d065b, 0x0fdc1bec,
    0x3793a651, 0x3352bbe6, 0x3e119d3f, 0x3ad08088, 0x2497d08d, 0x2056cd3a, 0x2d15ebe3, 0x29d4f654,
    0xc5a92679, 0xc1683bce, 0xcc2b1d17, 0xc8ea00a0, 0xd6ad50a5, 0xd26c4d12, 0xdf2f6bcb, 0xdbee767c,
    0xe3a1cbc1, 0xe760d676, 0xea23f0af, 0xeee2ed18, 0xf0a5bd1d, 0xf464a0aa, 0xf9278673, 0xfde69bc4,
    0x89b8fd09, 0x8d79e0be, 0x803ac667, 0x84fbdbd0, 0x9abc8bd5, 0x9e7d9662, 0x933eb0bb, 0x97ffad0c,
    0xafb010b1, 0xab710d06, 0xa6322bdf, 0xa2f33668, 0xbcb4666d, 0xb8757bda, 0xb5365d03, 0xb1f740b4]

/-- The inner loop of the program that generates the table, with `j` turns left. -/
def generateEntry : Nat → UInt32 → UInt32
  | 0, c => c
  | j + 1, c =>
    generateEntry j (if c &&& 0x80000000 != 0 then (c <<< 1) ^^^ 0x04c11db7 else c <<< 1)

/-- One turn of the loop of `xcrc32`. -/
def crcByte (crc : UInt32) (b : UInt8) : UInt32 :=
  (crc <<< 8) ^^^ crc32Table.getD (((crc >>> 24) ^^^ b.toUInt32) &&& 255).toNat 0

/-- `xcrc32` -/
def xcrc32 (buf : List UInt8) (init : UInt32) : UInt32 := buf.foldl crcByte init

/-! ## The table -/

/-- The test of the highest bit. -/
theorem and_high_bit (c : UInt32) : (c &&& 0x80000000 != 0) = c.toBitVec.msb := by
  have hbit (i : Nat) : (c &&& 0x80000000).toBitVec.getLsbD i =
      (c.toBitVec.getLsbD i && decide (i + 1 = 32)) := by
    rw [UInt32.toBitVec_and, BitVec.getLsbD_and]
    exact congrArg _ (BitVec.getLsbD_intMin 32)
  rw [BitVec.msb_eq_getLsbD_last]
  cases hc : c.toBitVec.getLsbD 31 with
  | true =>
    refine bne_iff_ne.mpr fun hzero => ?_
    have hset := hbit 31
    rw [hzero, hc] at hset
    exact absurd hset (by decide)
  | false =>
    have hzero : c &&& 0x80000000 = 0 := by
      refine UInt32.toBitVec_inj.mp (BitVec.eq_of_getLsbD_eq fun i hi => ?_)
      rw [hbit]
      by_cases hi31 : i + 1 = 32
      · obtain rfl : i = 31 := by omega
        rw [hc]
        rfl
      · simp [hi31]
    rw [hzero]
    rfl

/-- A turn of the generating program is a shift of the register. -/
theorem generateEntry_toBitVec (j : Nat) (c : UInt32) :
    (generateEntry j c).toBitVec = Crc.shifts CRC32_POLY j c.toBitVec := by
  induction j generalizing c with
  | zero => rfl
  | succ j ih =>
    rw [generateEntry, ih, Crc.shifts, and_high_bit, Crc.shift]
    split
    · rfl
    · rfl

/-- The table is what the program prints. -/
theorem crc32_table_generated {i : Nat} (hi : i < 256) :
    crc32Table.getD i 0 = generateEntry 8 (UInt32.ofNat i <<< 24) := by
  have hall : ((List.range 256).all fun i =>
      crc32Table.getD i 0 == generateEntry 8 (UInt32.ofNat i <<< 24)) = true := by
    decide +kernel
  exact eq_of_beq (List.all_eq_true.mp hall i (List.mem_range.mpr hi))

/-! ## A byte at a time -/

/-- The bits of a byte, in the upper places of the register. -/
theorem aligned_byteBits (b : UInt8) :
    (Crc.aligned (byteBits b) : BitVec 32) = b.toUInt32.toBitVec <<< 24 := by
  have hall : ((List.range 256).all fun n =>
      (Crc.aligned (byteBits (UInt8.ofNat n)) : BitVec 32) ==
        (UInt8.ofNat n).toUInt32.toBitVec <<< 24) = true := by
    decide +kernel
  have hb := List.all_eq_true.mp hall b.toNat (List.mem_range.mpr b.toNat_lt)
  rw [UInt8.ofNat_toNat] at hb
  exact eq_of_beq hb

/-- The index that is looked up is the highest byte of the register. -/
theorem index_toBitVec (crc : UInt32) (b : UInt8) :
    (crc.toBitVec ^^^ b.toUInt32.toBitVec <<< 24) >>> 24 =
      (((crc >>> 24) ^^^ b.toUInt32) &&& 255 : UInt32).toBitVec := by
  have hbyte (i : Nat) (hi : 8 ≤ i) : b.toUInt32.toBitVec.getLsbD i = false := by
    rw [UInt8.toBitVec_toUInt32, BitVec.getLsbD_setWidth, BitVec.getLsbD_of_ge _ _ hi,
      Bool.and_false]
  have hmask (i : Nat) : (255 : UInt32).toBitVec.getLsbD i = decide (i < 8) :=
    Nat.testBit_two_pow_sub_one 8 i
  have hshift : (crc >>> 24).toBitVec = crc.toBitVec >>> 24 := rfl
  apply BitVec.eq_of_getLsbD_eq
  intro i hi
  rw [BitVec.getLsbD_ushiftRight, BitVec.getLsbD_xor, BitVec.getLsbD_shiftLeft,
    UInt32.toBitVec_and, BitVec.getLsbD_and, UInt32.toBitVec_xor, BitVec.getLsbD_xor, hshift,
    BitVec.getLsbD_ushiftRight, hmask, Nat.add_sub_cancel_left]
  by_cases hi8 : i < 8
  · have hin : 24 + i < 32 := by omega
    simp [hi8, hin]
  · rw [BitVec.getLsbD_of_ge crc.toBitVec _ (by omega), hbyte i (Nat.le_of_not_lt hi8)]
    simp [hi8]

/-- **A byte at a time is a bit at a time.** -/
theorem crcByte_toBitVec (crc : UInt32) (b : UInt8) :
    (crcByte crc b).toBitVec = Crc.checksum CRC32_POLY crc.toBitVec (byteBits b) := by
  have hindex := index_toBitVec crc b
  have hlt : ((((crc >>> 24) ^^^ b.toUInt32) &&& 255 : UInt32)).toNat < 256 := by
    have hand : (((crc >>> 24) ^^^ b.toUInt32) &&& 255 : UInt32).toNat ≤ 255 := by
      rw [UInt32.toNat_and]
      exact Nat.and_le_right
    omega
  have hmove : (b.toUInt32.toBitVec <<< 24) <<< 8 = 0#32 := by
    rw [← BitVec.shiftLeft_add]
    exact BitVec.shiftLeft_eq_zero (Nat.le_refl 32)
  rw [Crc.checksum_eq_shifts _ (by rw [length_byteBits]; decide), length_byteBits,
    aligned_byteBits, Crc.shifts_eq_table, hindex, BitVec.shiftLeft_xor_distrib, hmove,
    BitVec.xor_zero, crcByte, UInt32.toBitVec_xor, crc32_table_generated hlt,
    generateEntry_toBitVec, UInt32.ofNat_toNat]
  rfl

/-- **The table does what the bits do**, for every buffer and every start value. -/
theorem xcrc32_eq_checksum (buf : List UInt8) (init : UInt32) :
    (xcrc32 buf init).toBitVec = Crc.checksum CRC32_POLY init.toBitVec (bufferBits buf) := by
  induction buf generalizing init with
  | nil => rfl
  | cons b buf ih =>
    have hbits : bufferBits (b :: buf) = byteBits b ++ bufferBits buf := List.flatMap_cons
    rw [xcrc32, List.foldl_cons, ← xcrc32, ih, crcByte_toBitVec, hbits, Crc.checksum_append]

/-- **The checksum is a remainder**, with the table of the source: of the buffer moved up 32
places, the start value added to its highest terms, by `x ^ 32` and the polynomial. The table is
the one that its program prints. -/
theorem xcrc32_remainder (buf : List UInt8) (init : UInt32) :
    Crc.toPoly (xcrc32 buf init).toBitVec =
        (Crc.toPoly init.toBitVec * Polynomial.X ^ (8 * buf.length) +
          Crc.bitsPoly (bufferBits buf) * Polynomial.X ^ 32) %ₘ Crc.divisor CRC32_POLY ∧
      crc32Table.length = 256 ∧
      ∀ i < 256, crc32Table.getD i 0 = generateEntry 8 (UInt32.ofNat i <<< 24) := by
  refine ⟨?_, by decide +kernel, fun i hi => crc32_table_generated hi⟩
  rw [xcrc32_eq_checksum, Crc.toPoly_checksum (by decide), length_bufferBits]

/-- Two buffers that differ within a window of 32 bits do not have the same checksum. -/
theorem xcrc32_burst {init : UInt32} {x y : List UInt8} {front u v rest : List Bool}
    (hx : bufferBits x = front ++ (u ++ rest)) (hy : bufferBits y = front ++ (v ++ rest))
    (hlen : u.length = v.length) (hw : u.length ≤ 32) (h : xcrc32 x init = xcrc32 y init) :
    u = v := by
  have hbits := congrArg UInt32.toBitVec h
  rw [xcrc32_eq_checksum, xcrc32_eq_checksum, hx, hy] at hbits
  have hodd : Crc.Odd CRC32_POLY := by
    rw [Crc.Odd]
    decide
  exact Crc.checksum_burst hodd hlen hw hbits

end LcdPico
