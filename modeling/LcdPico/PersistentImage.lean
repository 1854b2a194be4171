import LcdPico.Crc32
import LcdPico.Lib.LittleEndian
import LcdPico.PersistentMemory

/-!
# The bytes of the persistent memory block

What a soft reset leaves behind are bytes, and the checksum is that of the bytes. Here the
block of `PersistentMemory` is laid out in memory (`coveredBytes`, with the four bytes that
no field of `struct timespec` uses), and the checksum is `xcrc32`.

A boot that finds the bytes as they were goes on from them. A boot that finds some of the 116
bytes that the checksum covers changed, all within a window of 32 bits, starts a new block,
whatever happened before (`disturbed_block_not_restored`). A change that reaches into the
checksum itself is another matter.
-/

namespace LcdPico

open LittleEndian

/-- The bytes of `struct timespec` behind `tv_nsec`. -/
abbrev Padding : Type := CArray UInt8 4

/-- `PERSISTENT_MEMORY_CRC_LEN` -/
def PERSISTENT_MEMORY_CRC_LEN : Nat := 116

/-- The bytes that the checksum covers, in the order of the fields. -/
def coveredBytes (pad : Padding) (m : PmemCovered) : List UInt8 :=
  encode 4 m.id.toNat ++ (encode 4 m.len.toNat ++
    (encode 8 m.savedTime.tvSec.toUInt64.toNat ++
      (encode 4 m.savedTime.tvNsec.toUInt32.toNat ++ (pad.toList ++
        (encode 8 m.uptime.toNat ++ (encode 8 m.prevUptime.toNat ++
          (encode 8 m.totalUptime.toNat ++ (encode 4 m.warmstart.toNat ++
            m.timezone.toList))))))))

/-- The bytes, read as the fields. -/
def readCovered (mem : List UInt8) : Padding × PmemCovered :=
  let (id, mem) := field 4 mem
  let (len, mem) := field 4 mem
  let (tvSec, mem) := field 8 mem
  let (tvNsec, mem) := field 4 mem
  let (pad, mem) := (mem.take 4, mem.drop 4)
  let (uptime, mem) := field 8 mem
  let (prevUptime, mem) := field 8 mem
  let (totalUptime, mem) := field 8 mem
  let (warmstart, mem) := field 4 mem
  (CArray.fill 0 pad,
    { id := UInt32.ofNat id
      len := UInt32.ofNat len
      savedTime := ⟨(UInt64.ofNat tvSec).toInt64, (UInt32.ofNat tvNsec).toInt32⟩
      uptime := UInt64.ofNat uptime
      prevUptime := UInt64.ofNat prevUptime
      totalUptime := UInt64.ofNat totalUptime
      warmstart := UInt32.ofNat warmstart
      timezone := CArray.fill 0 mem })

/-- The memory of the block. -/
structure PmemImage where
  pad : Padding
  block : PersistentMemoryBlock

namespace PmemImage

/-- `xcrc32((unsigned char*)m, PERSISTENT_MEMORY_CRC_LEN, 0)` -/
def blockCrc (pad : Padding) (m : PmemCovered) : UInt32 := xcrc32 (coveredBytes pad m) 0

/-- The bytes that the checksum covers. -/
def bytes (img : PmemImage) : List UInt8 := coveredBytes img.pad img.block.toPmemCovered

/-- The memory, with other bytes in the part that the checksum covers. -/
def withBytes (img : PmemImage) (mem : List UInt8) : PmemImage :=
  { pad := (readCovered mem).1
    block := { (readCovered mem).2 with crc32 := img.block.crc32 } }

/-- The block is found. -/
def Intact (img : PmemImage) : Prop := Found (blockCrc img.pad) img.block

instance (img : PmemImage) : Decidable img.Intact :=
  inferInstanceAs (Decidable (Found _ _))

/-- The block that starts anew, `memset` to 0. -/
def fresh : PmemImage :=
  { pad := Vector.replicate 4 0
    block := updatePersistentMemoryCrc (blockCrc (Vector.replicate 4 0))
      { id := PERSISTENT_MEMORY_ID
        len := persistentMemorySize
        savedTime := ⟨0, 0⟩
        uptime := 0
        prevUptime := 0
        totalUptime := 0
        warmstart := 0
        timezone := Vector.replicate 64 0 } }

/-- What a boot does with a block that is found. -/
def continued (img : PmemImage) : PmemImage × Restored :=
  let (block, restored) := initPersistentMemory (blockCrc img.pad) img.block
  ({ img with block := block }, restored)

/-- `init_persistent_memory` -/
def boot (img : PmemImage) : PmemImage × Restored :=
  if img.Intact then img.continued else (fresh, { tz := none, time := none })

/-- A call that changes the block. The time that is stored comes with its padding. -/
def call (img : PmemImage) : PmemCall × Padding → PmemImage
  | (.update true (some t) now, pad) =>
    { pad := pad, block := updatePersistentMemory (blockCrc pad) img.block true (some t) now }
  | (c, _) => { img with block := pmemCall (blockCrc img.pad) img.block c }

/-- The memory at some time after a boot. -/
def afterCalls (img : PmemImage) (calls : List (PmemCall × Padding)) : PmemImage :=
  Machine.run call img.boot.1 calls

end PmemImage

/-! ## The layout -/

theorem length_coveredBytes (pad : Padding) (m : PmemCovered) :
    (coveredBytes pad m).length = PERSISTENT_MEMORY_CRC_LEN := by
  simp [coveredBytes, PERSISTENT_MEMORY_CRC_LEN]

/-- **The fields are read back** from their bytes. -/
theorem readCovered_coveredBytes (pad : Padding) (m : PmemCovered) :
    readCovered (coveredBytes pad m) = (pad, m) := by
  have h32 (x : UInt32) : x.toNat < 256 ^ 4 := x.toNat_lt
  have h64 (x : UInt64) : x.toNat < 256 ^ 8 := x.toNat_lt
  have hpad (rest : List UInt8) : (pad.toList ++ rest).take 4 = pad.toList :=
    List.take_left' pad.length_toList
  have hrest (rest : List UInt8) : (pad.toList ++ rest).drop 4 = rest :=
    List.drop_left' pad.length_toList
  simp only [readCovered, coveredBytes, field_append (h32 _), field_append (h64 _), hpad, hrest,
    CArray.fill_toList, UInt32.ofNat_toNat, UInt64.ofNat_toNat]
  rfl

theorem toList_fill_of_length {n : Nat} {l : List UInt8} (h : l.length = n) :
    (CArray.fill 0 l : CArray UInt8 n).toList = l := by
  apply List.ext_getElem
  · rw [Vector.length_toList, h]
  · intro i hi hi'
    rw [Vector.getElem_toList, CArray.getElem_fill, List.getD_eq_getElem _ _ hi']

theorem encode_ofNat32 {n : Nat} {mem : List UInt8} (hn : n = 4) (h : n ≤ mem.length) :
    encode n (UInt32.ofNat (field n mem).1).toNat ++ (field n mem).2 = mem := by
  subst hn
  have hlt : (field 4 mem).1 < 2 ^ 32 := field_lt h
  rw [UInt32.toNat_ofNat_of_lt' hlt, encode_field h]

theorem encode_ofNat64 {n : Nat} {mem : List UInt8} (hn : n = 8) (h : n ≤ mem.length) :
    encode n (UInt64.ofNat (field n mem).1).toNat ++ (field n mem).2 = mem := by
  subst hn
  have hlt : (field 8 mem).1 < 2 ^ 64 := field_lt h
  rw [UInt64.toNat_ofNat_of_lt' hlt, encode_field h]

/-- Any bytes are those of the fields read from them. -/
theorem coveredBytes_readCovered {mem : List UInt8} (h : mem.length = PERSISTENT_MEMORY_CRC_LEN) :
    coveredBytes (readCovered mem).1 (readCovered mem).2 = mem := by
  have hlen : mem.length = 116 := h
  simp only [readCovered, coveredBytes, UInt64.toUInt64_toInt64, UInt32.toUInt32_toInt32]
  rw [toList_fill_of_length, toList_fill_of_length, encode_ofNat32 rfl, encode_ofNat64 rfl,
    encode_ofNat64 rfl, encode_ofNat64 rfl, List.take_append_drop, encode_ofNat32 rfl,
    encode_ofNat64 rfl, encode_ofNat32 rfl, encode_ofNat32 rfl]
  all_goals simp [length_field, hlen]

namespace PmemImage

theorem bytes_withBytes (img : PmemImage) {mem : List UInt8}
    (h : mem.length = PERSISTENT_MEMORY_CRC_LEN) : (img.withBytes mem).bytes = mem :=
  coveredBytes_readCovered h

@[simp] theorem withBytes_bytes (img : PmemImage) : img.withBytes img.bytes = img := by
  rw [withBytes, bytes, readCovered_coveredBytes]

/-! ## The block is intact while it is used -/

theorem intact_fresh : fresh.Intact := ⟨⟨rfl, rfl⟩, crcMatches_update _⟩

theorem intact_boot (img : PmemImage) : img.boot.1.Intact := by
  rw [boot]
  split
  · exact initPersistentMemory_found img.block
  · exact intact_fresh

/-- A call stores the checksum of what it stores, with the padding it comes with. -/
theorem intact_call {img : PmemImage} (h : img.Intact) (c : PmemCall × Padding) :
    (img.call c).Intact := by
  obtain ⟨⟨_ | _, _ | t, now⟩ | ⟨entered, tz⟩, pad⟩ := c
  · exact pmemCall_found h (.update false none now)
  · exact pmemCall_found h (.update false (some t) now)
  · exact pmemCall_found h (.update true none now)
  · exact ⟨h.1, crcMatches_update _⟩
  · exact pmemCall_found h (.updateTz entered tz)

theorem intact_afterCalls (img : PmemImage) (calls : List (PmemCall × Padding)) :
    (img.afterCalls calls).Intact := by
  rw [afterCalls]
  exact Machine.run_invariant (P := Intact) (fun _ c h => intact_call h c) img.intact_boot calls

/-! ## Main result -/

/-- An intact block whose bytes change within a window of 32 bits is not intact. -/
theorem Intact.disturbed {img : PmemImage} (h : img.Intact) {mem : List UInt8}
    (hmem : mem.length = PERSISTENT_MEMORY_CRC_LEN) {front u v rest : List Bool}
    (hthen : bufferBits img.bytes = front ++ (u ++ rest))
    (hnow : bufferBits mem = front ++ (v ++ rest)) (hlen : u.length = v.length)
    (hw : u.length ≤ 32) (hne : u ≠ v) : ¬(img.withBytes mem).Intact := by
  rintro ⟨-, hcrc⟩
  have hchanged : xcrc32 (img.withBytes mem).bytes 0 = img.block.crc32 := hcrc
  have hstored : xcrc32 img.bytes 0 = img.block.crc32 := h.2
  rw [bytes_withBytes img hmem, ← hstored] at hchanged
  exact hne (xcrc32_burst hthen hnow hlen hw hchanged.symm)

end PmemImage

/-- **A disturbed block is not restored.** Whatever memory the first boot finds and whatever
calls it makes, the next boot goes on from the block if the bytes that its checksum covers are
as they were. If they changed within a window of 32 bits, and the checksum did not, it starts a
new one and restores nothing. -/
theorem disturbed_block_not_restored (img : PmemImage) (calls : List (PmemCall × Padding))
    {mem : List UInt8} (hmem : mem.length = PERSISTENT_MEMORY_CRC_LEN)
    {front u v rest : List Bool}
    (hthen : bufferBits (img.afterCalls calls).bytes = front ++ (u ++ rest))
    (hnow : bufferBits mem = front ++ (v ++ rest)) (hlen : u.length = v.length)
    (hw : u.length ≤ 32) :
    ((img.afterCalls calls).withBytes mem).boot =
      if u = v then (img.afterCalls calls).continued
      else (PmemImage.fresh, { tz := none, time := none }) := by
  have hintact := img.intact_afterCalls calls
  generalize img.afterCalls calls = img' at *
  by_cases heq : u = v
  · have hsame : img'.withBytes mem = img' := by
      have hbits : bufferBits mem = bufferBits img'.bytes := by rw [hnow, hthen, heq]
      rw [bufferBits_injective hbits, PmemImage.withBytes_bytes]
    rw [if_pos heq, hsame, PmemImage.boot, if_pos hintact]
  · rw [if_neg heq, PmemImage.boot, if_neg (hintact.disturbed hmem hthen hnow hlen hw heq)]

/-- The memory before the first boot. -/
def coldImage : PmemImage := { pad := Vector.replicate 4 0xaa, block := coldMemory }

/-- A boot that stores a minute of uptime. -/
def minuteCalls : List (PmemCall × Padding) :=
  [(.update true (some ⟨1700000000, 0⟩) 60000000, Vector.replicate 4 0x55)]

/-- The first byte changes. -/
theorem disturbed_block_not_restored_byte :
    ((coldImage.afterCalls minuteCalls).withBytes
        (0xff :: (coldImage.afterCalls minuteCalls).bytes.tail)).boot =
      (PmemImage.fresh, { tz := none, time := none }) := by
  obtain ⟨l, hl⟩ : ∃ l, (coldImage.afterCalls minuteCalls).bytes = 0xee :: l := ⟨_, rfl⟩
  have hlen : (coldImage.afterCalls minuteCalls).bytes.length = PERSISTENT_MEMORY_CRC_LEN :=
    length_coveredBytes _ _
  rw [hl] at hlen
  have hboot := @disturbed_block_not_restored coldImage minuteCalls (0xff :: l) hlen []
    (byteBits 0xee) (byteBits 0xff) (bufferBits l) (by rw [hl]; rfl) rfl rfl (by decide)
  rw [hl]
  exact hboot.trans (if_neg (by decide))

end LcdPico
