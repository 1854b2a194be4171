import LcdPico.Lib.CText

/-!
# Files on flash (`flash.c`)

`flash_read_file` and `flash_write_file` call littlefs, which is not part of the
sources: what its calls return, and what they leave of the flash, is a parameter here (`Lfs`).
A call that reads or writes returns a count of bytes, or a negative error
code. The functions take it for an unsigned number and compare that with the size, so
that an error code is more than any size that fits the device.

`flash_status_iff` says when a status of success means that the data is there: unless
an error code is taken for a count.
-/

namespace LcdPico

/-- `LFS_ERR_OK` -/
def LFS_ERR_OK : Int := 0

/-- `LFS_ERR_NOSPC` -/
def LFS_ERR_NOSPC : Int32 := -28

/-- `LFS_ERR_CORRUPT` -/
def LFS_ERR_CORRUPT : Int32 := -84

/-- `LFS_O_RDONLY` -/
def LFS_O_RDONLY : UInt32 := 1

/-- `LFS_O_WRONLY` -/
def LFS_O_WRONLY : UInt32 := 2

/-- `LFS_O_CREAT` -/
def LFS_O_CREAT : UInt32 := 0x0100

/-- The calls of littlefs, on a flash with states `S`: what they return, and the state that they
leave. -/
structure Lfs (S : Type) where
  /-- `lfs_mount` -/
  mount : S → Int
  /-- `lfs_file_open`, with its flags -/
  fileOpen : S → CString → UInt32 → Int × S
  /-- `lfs_file_size` -/
  fileSize : S → CString → Int32
  /-- `lfs_file_read`: its result, and the bytes it reads -/
  fileRead : S → CString → UInt32 → Int32 × List UInt8
  /-- `lfs_file_write` -/
  fileWrite : S → CString → List UInt8 → UInt32 → Int32 × S
  /-- `lfs_file_close` -/
  fileClose : S → CString → Int × S
  /-- `lfs_stat` -/
  stat : S → CString → Int
  /-- `lfs_remove` -/
  remove : S → CString → Int × S
  /-- no more bytes are read than there is room for -/
  fileRead_le : ∀ s name size, (fileRead s name size).1.toInt ≤ size.toNat
  /-- nor written than there are -/
  fileWrite_le : ∀ s name buf size, (fileWrite s name buf size).1.toInt ≤ size.toNat

variable {S : Type}

namespace Lfs

variable (lfs : Lfs S) (s : S) (name : CString)

/-- The file is opened to be read. -/
def openRead : Int × S := lfs.fileOpen s name LFS_O_RDONLY

/-- The file is opened to be written. -/
def openWrite : Int × S := lfs.fileOpen s name (LFS_O_WRONLY ||| LFS_O_CREAT)

/-- The size of the file, once it is open. -/
def sizeOpen : Int32 := lfs.fileSize (lfs.openRead s name).2 name

/-- The whole file is read, once it is open. -/
def readOpen : Int32 × List UInt8 :=
  lfs.fileRead (lfs.openRead s name).2 name (lfs.sizeOpen s name).toUInt32

/-- The file is written, once it is open. -/
def writeOpen (buf : List UInt8) (size : UInt32) : Int32 × S :=
  lfs.fileWrite (lfs.openWrite s name).2 name buf size

theorem readOpen_le : (lfs.readOpen s name).1.toInt ≤ (lfs.sizeOpen s name).toUInt32.toNat :=
  lfs.fileRead_le _ name _

theorem writeOpen_le (buf : List UInt8) (size : UInt32) :
    (lfs.writeOpen s name buf size).1.toInt ≤ size.toNat :=
  lfs.fileWrite_le _ name buf size

end Lfs

/-- What `flash_read_file` returns and stores. -/
structure ReadFile where
  res : Int
  bufptr : Option (List UInt8)
  sizeptr : UInt32
deriving DecidableEq

/-- `flash_read_file`. All callers pass the addresses of a buffer and a size; `malloc` gives
the buffer as it is before anything is read. -/
def flashReadFile (lfs : Lfs S) (s : S) (malloc : UInt32 → Option (List UInt8))
    (bufptr : Option (List UInt8)) (sizeptr : UInt32) (filename : Option CString) : ReadFile :=
  match filename with
  | none => { res := -42, bufptr := bufptr, sizeptr := sizeptr }
  | some filename =>
    if lfs.mount s ≠ LFS_ERR_OK then { res := -1, bufptr := none, sizeptr := 0 }
    else if (lfs.openRead s filename).1 ≠ LFS_ERR_OK then
      { res := -3, bufptr := none, sizeptr := 0 }
    else
      let fileSize := (lfs.sizeOpen s filename).toUInt32
      if fileSize > 0 then
        match malloc fileSize with
        | none => { res := -4, bufptr := none, sizeptr := 0 }
        | some buf =>
          let (res, data) := lfs.readOpen s filename
          { res := if res.toUInt32 < fileSize then -5 else 0
            bufptr := some (data ++ buf.drop data.length)
            sizeptr := res.toUInt32 }
      else { res := 0, bufptr := none, sizeptr := 0 }

/-- `flash_write_file`, with the flash as it leaves it. What closing the file returns is not
looked at. -/
def flashWriteFile (lfs : Lfs S) (s : S) (buf : Option (List UInt8)) (size : UInt32)
    (filename : Option CString) : Int × S :=
  match buf, filename with
  | some buf, some filename =>
    if lfs.mount s ≠ LFS_ERR_OK then (-1, s)
    else if (lfs.openWrite s filename).1 ≠ LFS_ERR_OK then (-2, (lfs.openWrite s filename).2)
    else
      let (wrote, s) := lfs.writeOpen s filename buf size
      (if wrote.toUInt32 < size then -3 else 0, (lfs.fileClose s filename).2)
  | _, _ => (-42, s)

/-- `flash_delete_file`, with the flash as it leaves it -/
def flashDeleteFile (lfs : Lfs S) (s : S) (filename : Option CString) : Int × S :=
  match filename with
  | none => (-42, s)
  | some filename =>
    if lfs.mount s ≠ LFS_ERR_OK then (-1, s)
    else if lfs.stat s filename ≠ LFS_ERR_OK then (-2, s)
    else
      let (res, s) := lfs.remove s filename
      (if res ≠ LFS_ERR_OK then -3 else 0, s)

/-! ## Success -/

/-- If a file is written with success, all of it is written. -/
def WriteTells (lfs : Lfs S) (s : S) (buf : Option (List UInt8)) (size : UInt32)
    (filename : Option CString) : Prop :=
  (flashWriteFile lfs s buf size filename).1 = 0 →
    ∃ b name, buf = some b ∧ filename = some name ∧
      (lfs.writeOpen s name b size).1.toInt = size.toNat

/-- If a file is read with success into a buffer, all of it is read. -/
def ReadTells (lfs : Lfs S) (s : S) (malloc : UInt32 → Option (List UInt8))
    (bufptr : Option (List UInt8)) (sizeptr : UInt32) (filename : Option CString) : Prop :=
  (flashReadFile lfs s malloc bufptr sizeptr filename).res = 0 →
    (flashReadFile lfs s malloc bufptr sizeptr filename).bufptr ≠ none →
      ∃ name, filename = some name ∧
        ((flashReadFile lfs s malloc bufptr sizeptr filename).sizeptr.toNat : Int) =
          (lfs.sizeOpen s name).toInt ∧
        (lfs.readOpen s name).1.toInt = (lfs.sizeOpen s name).toInt

/-- A negative result that is not less than the size, as an unsigned number. -/
def ErrorTaken (res : Int32) (size : UInt32) : Prop :=
  res.toInt < 0 ∧ (size.toNat : Int) ≤ res.toInt + 2 ^ 32

/-- The file is opened, and an error in writing it is taken for a count. -/
def WriteErrorTaken (lfs : Lfs S) (s : S) (buf : Option (List UInt8)) (size : UInt32)
    (filename : Option CString) : Prop :=
  ∃ b name, (buf = some b ∧ filename = some name) ∧
    (lfs.mount s = LFS_ERR_OK ∧ (lfs.openWrite s name).1 = LFS_ERR_OK) ∧
    ErrorTaken (lfs.writeOpen s name b size).1 size

/-- The file is opened, there is memory for it, and an error in reading it is taken for a
count. -/
def ReadErrorTaken (lfs : Lfs S) (s : S) (malloc : UInt32 → Option (List UInt8))
    (filename : Option CString) : Prop :=
  ∃ name, filename = some name ∧
    (lfs.mount s = LFS_ERR_OK ∧ (lfs.openRead s name).1 = LFS_ERR_OK) ∧
    (lfs.sizeOpen s name).toUInt32 > 0 ∧ malloc (lfs.sizeOpen s name).toUInt32 ≠ none ∧
    ErrorTaken (lfs.readOpen s name).1 (lfs.sizeOpen s name).toUInt32

/-! ## Signed results as unsigned numbers -/

/-- The unsigned number of a signed one. -/
theorem toNat_toUInt32_cases (res : Int32) :
    (0 ≤ res.toInt ∧ (res.toUInt32.toNat : Int) = res.toInt) ∨
      (res.toInt < 0 ∧ (res.toUInt32.toNat : Int) = res.toInt + 2 ^ 32) := by
  have hlt := res.toUInt32.toNat_lt
  have hint : res.toInt =
      if 2 * res.toUInt32.toNat < 2 ^ 32 then (res.toUInt32.toNat : Int)
      else (res.toUInt32.toNat : Int) - (2 ^ 32 : Nat) :=
    BitVec.toInt_eq_toNat_cond res.toBitVec
  split_ifs at hint with h
  · exact .inl ⟨by omega, hint.symm⟩
  · exact .inr ⟨by omega, by omega⟩

/-- A count passes the comparison if it is the whole size, an error code if it is taken for
one. -/
theorem not_lt_size_iff {res : Int32} {size : UInt32} (hle : res.toInt ≤ size.toNat) :
    ¬ res.toUInt32 < size ↔ res.toInt = size.toNat ∨ ErrorTaken res size := by
  rw [UInt32.lt_iff_toNat_lt, ErrorTaken]
  rcases toNat_toUInt32_cases res with ⟨hsign, hval⟩ | ⟨hsign, hval⟩
  · omega
  · omega

/-! ## When the functions succeed -/

/-- A file that is opened is written and closed. -/
theorem flashWriteFile_opened {lfs : Lfs S} {s : S} {name : CString} (buf : List UInt8)
    (size : UInt32)
    (hopen : lfs.mount s = LFS_ERR_OK ∧ (lfs.openWrite s name).1 = LFS_ERR_OK) :
    flashWriteFile lfs s (some buf) size (some name) =
      (if (lfs.writeOpen s name buf size).1.toUInt32 < size then -3 else 0,
        (lfs.fileClose (lfs.writeOpen s name buf size).2 name).2) := by
  rw [flashWriteFile, if_neg (not_not.mpr hopen.1), if_neg (not_not.mpr hopen.2)]

/-- A file is written with success if nothing fails, and the result is not less than the
size. -/
theorem flashWriteFile_eq_zero_iff (lfs : Lfs S) (s : S) (buf : Option (List UInt8)) (size : UInt32)
    (filename : Option CString) :
    (flashWriteFile lfs s buf size filename).1 = 0 ↔
      ∃ b name, (buf = some b ∧ filename = some name) ∧
        (lfs.mount s = LFS_ERR_OK ∧ (lfs.openWrite s name).1 = LFS_ERR_OK) ∧
        ¬ (lfs.writeOpen s name b size).1.toUInt32 < size := by
  match buf, filename with
  | none, _ => simp [flashWriteFile]
  | some _, none => simp [flashWriteFile]
  | some b, some name =>
    constructor
    · intro h
      by_cases hmount : lfs.mount s = LFS_ERR_OK
      · by_cases hopen : (lfs.openWrite s name).1 = LFS_ERR_OK
        · rw [flashWriteFile_opened b size ⟨hmount, hopen⟩] at h
          dsimp only at h
          split_ifs at h with hwrote
          exact ⟨b, name, ⟨rfl, rfl⟩, ⟨hmount, hopen⟩, hwrote⟩
        · rw [flashWriteFile, if_neg (not_not.mpr hmount), if_pos hopen] at h
          cases h
      · rw [flashWriteFile, if_pos hmount] at h
        cases h
    · rintro ⟨_, _, ⟨⟨⟩, ⟨⟩⟩, hopen, hwrote⟩
      rw [flashWriteFile_opened b size hopen]
      exact if_neg hwrote

section Read

variable {lfs : Lfs S} {s : S} {malloc : UInt32 → Option (List UInt8)}
  {bufptr : Option (List UInt8)} {sizeptr : UInt32}

/-- A file that is opened, and for which there is memory, is read. -/
theorem flashReadFile_opened {name : CString} {buf : List UInt8}
    (hopen : lfs.mount s = LFS_ERR_OK ∧ (lfs.openRead s name).1 = LFS_ERR_OK)
    (hpos : (lfs.sizeOpen s name).toUInt32 > 0)
    (hmalloc : malloc (lfs.sizeOpen s name).toUInt32 = some buf) :
    flashReadFile lfs s malloc bufptr sizeptr (some name) =
      { res :=
          if (lfs.readOpen s name).1.toUInt32 < (lfs.sizeOpen s name).toUInt32 then -5 else 0
        bufptr := some ((lfs.readOpen s name).2 ++ buf.drop (lfs.readOpen s name).2.length)
        sizeptr := (lfs.readOpen s name).1.toUInt32 } := by
  rw [flashReadFile, if_neg (not_not.mpr hopen.1), if_neg (not_not.mpr hopen.2)]
  simp only [if_pos hpos, hmalloc]

/-- A file is read with success into a buffer only if nothing fails, it is not empty, and
the result is not less than its size. -/
theorem flashReadFile_success {filename : Option CString}
    (hres : (flashReadFile lfs s malloc bufptr sizeptr filename).res = 0)
    (hbuf : (flashReadFile lfs s malloc bufptr sizeptr filename).bufptr ≠ none) :
    ∃ name buf, filename = some name ∧
      (lfs.mount s = LFS_ERR_OK ∧ (lfs.openRead s name).1 = LFS_ERR_OK) ∧
      (lfs.sizeOpen s name).toUInt32 > 0 ∧ malloc (lfs.sizeOpen s name).toUInt32 = some buf ∧
      ¬ (lfs.readOpen s name).1.toUInt32 < (lfs.sizeOpen s name).toUInt32 := by
  cases filename with
  | none => cases hres
  | some name =>
    by_cases hmount : lfs.mount s ≠ LFS_ERR_OK
    · rw [flashReadFile, if_pos hmount] at hres
      cases hres
    by_cases hopen : (lfs.openRead s name).1 ≠ LFS_ERR_OK
    · rw [flashReadFile, if_neg hmount, if_pos hopen] at hres
      cases hres
    have hopened : lfs.mount s = LFS_ERR_OK ∧ (lfs.openRead s name).1 = LFS_ERR_OK :=
      ⟨not_not.mp hmount, not_not.mp hopen⟩
    by_cases hpos : (lfs.sizeOpen s name).toUInt32 > 0
    · cases hmalloc : malloc (lfs.sizeOpen s name).toUInt32 with
      | none =>
        rw [flashReadFile, if_neg hmount, if_neg hopen] at hres
        simp only [if_pos hpos, hmalloc] at hres
        cases hres
      | some buf =>
        rw [flashReadFile_opened hopened hpos hmalloc] at hres
        dsimp only at hres
        split_ifs at hres with hread
        exact ⟨name, buf, rfl, hopened, hpos, hmalloc, hread⟩
    · rw [flashReadFile, if_neg hmount, if_neg hopen] at hbuf
      simp only [if_neg hpos] at hbuf
      exact absurd rfl hbuf

end Read

/-! ## Main result -/

theorem writeTells_iff (lfs : Lfs S) (s : S) (buf : Option (List UInt8)) (size : UInt32)
    (filename : Option CString) :
    WriteTells lfs s buf size filename ↔ ¬ WriteErrorTaken lfs s buf size filename := by
  rw [WriteTells, flashWriteFile_eq_zero_iff]
  constructor
  · rintro htells ⟨b, name, hargs, hopen, herror⟩
    have hcount := not_lt_size_iff (lfs.writeOpen_le s name b size)
    obtain ⟨b', name', hbuf, hname, hall⟩ :=
      htells ⟨b, name, hargs, hopen, hcount.mpr (.inr herror)⟩
    obtain rfl := Option.some.inj (hbuf.symm.trans hargs.1)
    obtain rfl := Option.some.inj (hname.symm.trans hargs.2)
    have hneg := herror.1
    omega
  · rintro hnone ⟨b, name, hargs, hopen, hwrote⟩
    rcases (not_lt_size_iff (lfs.writeOpen_le s name b size)).mp hwrote with hall | herror
    · exact ⟨b, name, hargs.1, hargs.2, hall⟩
    · exact absurd ⟨b, name, hargs, hopen, herror⟩ hnone

theorem readTells_iff (lfs : Lfs S) (s : S) (malloc : UInt32 → Option (List UInt8))
    (bufptr : Option (List UInt8)) (sizeptr : UInt32) (filename : Option CString) :
    ReadTells lfs s malloc bufptr sizeptr filename ↔ ¬ ReadErrorTaken lfs s malloc filename := by
  constructor
  · rintro htells ⟨name, rfl, hopen, hpos, hmalloc, herror⟩
    obtain ⟨buf, hmalloc⟩ := Option.ne_none_iff_exists'.mp hmalloc
    have hread := (not_lt_size_iff (lfs.readOpen_le s name)).mpr (.inr herror)
    rw [ReadTells, flashReadFile_opened hopen hpos hmalloc] at htells
    obtain ⟨name', hname, hsize, hall⟩ := htells (if_neg hread) (Option.some_ne_none _)
    obtain rfl := Option.some.inj hname
    have hneg := herror.1
    omega
  · intro hnone hres hbuf
    obtain ⟨name, buf, rfl, hopen, hpos, hmalloc, hread⟩ := flashReadFile_success hres hbuf
    refine ⟨name, rfl, ?_⟩
    rw [flashReadFile_opened hopen hpos hmalloc]
    rcases (not_lt_size_iff (lfs.readOpen_le s name)).mp hread with hall | herror
    · have hlt := (lfs.readOpen s name).1.toInt_lt
      have hstored := toNat_toUInt32_cases (lfs.readOpen s name).1
      dsimp only
      rcases toNat_toUInt32_cases (lfs.sizeOpen s name) with ⟨hsign, hval⟩ | ⟨hsign, hval⟩
      · omega
      · -- a negative size is a number that no count reaches
        have hge := (lfs.sizeOpen s name).le_toInt
        omega
    · have hmem : malloc (lfs.sizeOpen s name).toUInt32 ≠ none := by
        rw [hmalloc]
        exact Option.some_ne_none buf
      exact absurd ⟨name, rfl, hopen, hpos, hmem, herror⟩ hnone

/-- **A status of success means that the data is there**, exactly if no error code is taken
for a count. -/
theorem flash_status_iff (lfs : Lfs S) (s : S) (malloc : UInt32 → Option (List UInt8))
    (buf bufptr : Option (List UInt8)) (size sizeptr : UInt32) (filename : Option CString) :
    (WriteTells lfs s buf size filename ↔ ¬ WriteErrorTaken lfs s buf size filename) ∧
      (ReadTells lfs s malloc bufptr sizeptr filename ↔ ¬ ReadErrorTaken lfs s malloc filename) :=
  ⟨writeTells_iff lfs s buf size filename, readTells_iff lfs s malloc bufptr sizeptr filename⟩

/-- A flash that is full, and holds a file of 16 bytes that cannot be read. -/
def wornLfs : Lfs Unit where
  mount _ := LFS_ERR_OK
  fileOpen _ _ _ := (LFS_ERR_OK, ())
  fileSize _ _ := 16
  fileRead _ _ _ := (LFS_ERR_CORRUPT, [])
  fileWrite _ _ _ _ := (LFS_ERR_NOSPC, ())
  fileClose _ _ := (LFS_ERR_OK, ())
  stat _ _ := LFS_ERR_OK
  remove _ _ := (LFS_ERR_OK, ())
  fileRead_le _ _ size :=
    Int.le_trans (by decide : LFS_ERR_CORRUPT.toInt ≤ 0) (Int.natCast_nonneg _)
  fileWrite_le _ _ _ size :=
    Int.le_trans (by decide : LFS_ERR_NOSPC.toInt ≤ 0) (Int.natCast_nonneg _)

/-- Nothing is written, or read, with success. -/
theorem flash_status_worn :
    (flashWriteFile wornLfs () (some [1, 2, 3]) 3 (some "key.pem".toList)).1 = 0 ∧
      ¬ WriteTells wornLfs () (some [1, 2, 3]) 3 (some "key.pem".toList) ∧
      flashReadFile wornLfs () (fun n => some (List.replicate n.toNat 0)) none 0
          (some "cert.pem".toList) =
        { res := 0, bufptr := some (List.replicate 16 0), sizeptr := 4294967212 } ∧
      ¬ ReadTells wornLfs () (fun n => some (List.replicate n.toNat 0)) none 0
        (some "cert.pem".toList) := by
  have hwrite :
      (flashWriteFile wornLfs () (some [1, 2, 3]) 3 (some "key.pem".toList)).1 = 0 := by decide
  have hread : flashReadFile wornLfs () (fun n => some (List.replicate n.toNat 0)) none 0
      (some "cert.pem".toList) =
        { res := 0, bufptr := some (List.replicate 16 0), sizeptr := 4294967212 } := by decide
  refine ⟨hwrite, fun h => ?_, hread, fun h => ?_⟩
  · obtain ⟨b, name, -, -, hall⟩ := h hwrite
    exact absurd hall (by change ¬ LFS_ERR_NOSPC.toInt = _; decide)
  · rw [ReadTells, hread] at h
    obtain ⟨name, -, hsize, -⟩ := h rfl (Option.some_ne_none _)
    exact absurd hsize (by change ¬ _ = (16 : Int32).toInt; decide)

end LcdPico
