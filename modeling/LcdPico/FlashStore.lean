import LcdPico.Flash

/-!
# What a file holds after it is written (`flash.c`)

`flash_write_file` opens a file with `LFS_O_WRONLY | LFS_O_CREAT` and writes from its
beginning. Without `LFS_O_TRUNC`, littlefs keeps what the file held, so that a file that was
longer keeps its tail. `Documented` is what littlefs says of its calls, those that fail too;
`write_read_iff` says when the next `flash_read_file` gets back what was written.
-/

namespace LcdPico

variable {S : Type}

/-- `LFS_FILE_MAX`: no file is longer. -/
def LFS_FILE_MAX : Nat := 2147483647

/-- `LFS_ERR_NOENT` -/
def LFS_ERR_NOENT : Int := -2

/-- The files on the flash. -/
structure Files where
  contents : CString → Option (List UInt8)
  length_le : ∀ name data, contents name = some data → data.length ≤ LFS_FILE_MAX

/-- A size that a file can have is no negative number. -/
theorem toInt_ofNat_of_le {n : Nat} (h : n ≤ LFS_FILE_MAX) : (Int32.ofNat n).toInt = n :=
  Int32.toInt_ofNat_of_lt (Nat.lt_succ_of_le h)

/-- As an unsigned number it is the same. -/
theorem toNat_ofNat_of_le {n : Nat} (h : n ≤ LFS_FILE_MAX) :
    (Int32.ofNat n).toUInt32.toNat = n := by
  have hint := toInt_ofNat_of_le h
  rcases toNat_toUInt32_cases (Int32.ofNat n) with ⟨_, hval⟩ | ⟨hneg, _⟩
  · omega
  · omega

namespace Files

variable (files : Files)

/-- What the file holds; nothing if there is none. -/
def held (name : CString) : List UInt8 := (files.contents name).getD []

theorem length_held_le (name : CString) : (files.held name).length ≤ LFS_FILE_MAX := by
  rw [held]
  cases h : files.contents name with
  | none => exact Nat.zero_le _
  | some data => exact files.length_le name data h

theorem held_of_contents {name : CString} {data : List UInt8}
    (h : files.contents name = some data) : files.held name = data := by
  rw [held, h, Option.getD_some]

/-- The content `old`, with `data` written over its beginning. -/
def overlay (old data : List UInt8) : List UInt8 := data ++ old.drop data.length

theorem length_overlay (old data : List UInt8) :
    (overlay old data).length = max old.length data.length := by
  rw [overlay, List.length_append, List.length_drop]
  omega

/-- Only what is longer than the new data keeps a tail. -/
theorem overlay_eq_iff (old data : List UInt8) :
    overlay old data = data ↔ old.length ≤ data.length := by
  rw [overlay, List.append_right_eq_self, List.drop_eq_nil_iff]

end Files

/-! ## What littlefs documents -/

/-- What is documented of littlefs: the files that a flash holds, what a file that is open for
writing is to hold, and what the calls make of both. Nothing is stored before the file is
closed, and a file is left alone by a call that fails. -/
structure Documented (lfs : Lfs S) where
  files : S → Files
  pending : S → CString → List UInt8
  /-- `LFS_O_CREAT` makes an empty file if there is none; the content of a file that is there
  is kept -/
  openWrite_ok : ∀ {s name}, (lfs.openWrite s name).1 = LFS_ERR_OK →
    (files (lfs.openWrite s name).2).contents name = some ((files s).held name) ∧
      pending (lfs.openWrite s name).2 name = (files s).held name
  openWrite_err : ∀ {s name}, (lfs.openWrite s name).1 ≠ LFS_ERR_OK →
    (files (lfs.openWrite s name).2).contents name = (files s).contents name
  fileWrite_files : ∀ s name buf size,
    (files (lfs.fileWrite s name buf size).2).contents name = (files s).contents name
  /-- only the bytes that are written are overwritten -/
  fileWrite_ok : ∀ {s name buf size}, (lfs.fileWrite s name buf size).1.toInt = size.toNat →
    pending (lfs.fileWrite s name buf size).2 name =
      Files.overlay (pending s name) (buf.take size.toNat)
  /-- a file that has an error is closed as it was -/
  fileWrite_err : ∀ {s name buf size}, (lfs.fileWrite s name buf size).1.toInt ≠ size.toNat →
    pending (lfs.fileWrite s name buf size).2 name = (files s).held name
  fileClose_ok : ∀ {s name}, (lfs.fileClose s name).1 = LFS_ERR_OK →
    (files (lfs.fileClose s name).2).contents name = some (pending s name)
  fileClose_err : ∀ {s name}, (lfs.fileClose s name).1 ≠ LFS_ERR_OK →
    (files (lfs.fileClose s name).2).contents name = (files s).contents name
  openRead_ok : ∀ {s name}, (lfs.openRead s name).1 = LFS_ERR_OK →
    (files s).contents name ≠ none ∧
      (files (lfs.openRead s name).2).contents name = (files s).contents name
  fileSize_ok : ∀ {s name}, 0 ≤ (lfs.fileSize s name).toInt →
    (lfs.fileSize s name).toInt = ((files s).held name).length
  fileRead_ok : ∀ {s name size}, 0 ≤ (lfs.fileRead s name size).1.toInt →
    lfs.fileRead s name size = (Int32.ofNat (min ((files s).held name).length size.toNat),
      ((files s).held name).take size.toNat)
  remove_ok : ∀ {s name}, (lfs.remove s name).1 = LFS_ERR_OK →
    (files (lfs.remove s name).2).contents name = none
  remove_err : ∀ {s name}, (lfs.remove s name).1 ≠ LFS_ERR_OK →
    (files (lfs.remove s name).2).contents name = (files s).contents name

/-- The calls of `flash_write_file` succeed. -/
def Lfs.Writes (lfs : Lfs S) (s : S) (buf : List UInt8) (size : UInt32) (name : CString) : Prop :=
  (lfs.mount s = LFS_ERR_OK ∧ (lfs.openWrite s name).1 = LFS_ERR_OK) ∧
    (lfs.writeOpen s name buf size).1.toInt = size.toNat ∧
    (lfs.fileClose (lfs.writeOpen s name buf size).2 name).1 = LFS_ERR_OK

/-- The calls of `flash_read_file` succeed. -/
def Lfs.Reads (lfs : Lfs S) (s : S) (name : CString) : Prop :=
  (lfs.mount s = LFS_ERR_OK ∧ (lfs.openRead s name).1 = LFS_ERR_OK) ∧
    0 ≤ (lfs.sizeOpen s name).toInt ∧ 0 ≤ (lfs.readOpen s name).1.toInt

instance (lfs : Lfs S) (s : S) (buf : List UInt8) (size : UInt32) (name : CString) :
    Decidable (lfs.Writes s buf size name) := inferInstanceAs (Decidable (_ ∧ _))

instance (lfs : Lfs S) (s : S) (name : CString) : Decidable (lfs.Reads s name) :=
  inferInstanceAs (Decidable (_ ∧ _))

/-- If the first `size` bytes of `buf` are written to a file with success, then they are what
is read from it. -/
def ReadsBack (lfs : Lfs S) (s : S) (malloc : UInt32 → Option (List UInt8)) (buf : List UInt8)
    (size : UInt32) (name : CString) : Prop :=
  (flashWriteFile lfs s (some buf) size (some name)).1 = 0 →
    ∀ bufptr sizeptr,
      flashReadFile lfs (flashWriteFile lfs s (some buf) size (some name)).2 malloc bufptr sizeptr
          (some name) =
        { res := 0, bufptr := some (buf.take size.toNat), sizeptr := size }

/-! ## The two calls -/

namespace Documented

variable {lfs : Lfs S} (doc : Documented lfs) {s : S} {name : CString}

/-- What is written with success is laid over what the file held. -/
theorem written {buf : List UInt8} {size : UInt32} (h : lfs.Writes s buf size name) :
    (flashWriteFile lfs s (some buf) size (some name)).1 = 0 ∧
      (doc.files (flashWriteFile lfs s (some buf) size (some name)).2).contents name =
        some (Files.overlay ((doc.files s).held name) (buf.take size.toNat)) := by
  obtain ⟨hopen, hwrote, hclose⟩ := h
  rw [flashWriteFile_opened buf size hopen]
  refine ⟨if_neg ((not_lt_size_iff (lfs.writeOpen_le s name buf size)).mpr (.inl hwrote)), ?_⟩
  dsimp only
  rw [doc.fileClose_ok hclose, Lfs.writeOpen, doc.fileWrite_ok hwrote,
    (doc.openWrite_ok hopen.2).2]

/-- A file holds what it held if writing it fails. -/
theorem not_written {buf : List UInt8} {size : UInt32} (h : ¬ lfs.Writes s buf size name) :
    (doc.files (flashWriteFile lfs s (some buf) size (some name)).2).held name =
      (doc.files s).held name := by
  by_cases hmount : lfs.mount s = LFS_ERR_OK
  · by_cases hopen : (lfs.openWrite s name).1 = LFS_ERR_OK
    · obtain ⟨hcontents, hpending⟩ := doc.openWrite_ok hopen
      rw [flashWriteFile_opened buf size ⟨hmount, hopen⟩]
      refine Files.held_of_contents _ ?_
      dsimp only
      by_cases hclose : (lfs.fileClose (lfs.writeOpen s name buf size).2 name).1 = LFS_ERR_OK
      · have hfails : (lfs.writeOpen s name buf size).1.toInt ≠ size.toNat :=
          fun hwrote => h ⟨⟨hmount, hopen⟩, hwrote, hclose⟩
        rw [doc.fileClose_ok hclose, Lfs.writeOpen, doc.fileWrite_err hfails,
          Files.held_of_contents _ hcontents]
      · rw [doc.fileClose_err hclose, Lfs.writeOpen, doc.fileWrite_files, hcontents]
    · rw [flashWriteFile, if_neg (not_not.mpr hmount), if_pos hopen, Files.held,
        doc.openWrite_err hopen, Files.held]
  · rw [flashWriteFile, if_pos hmount]

/-- The size that is read, and the bytes. -/
theorem read_open (h : lfs.Reads s name) :
    (lfs.sizeOpen s name).toUInt32 = UInt32.ofNat ((doc.files s).held name).length ∧
      lfs.readOpen s name =
        (Int32.ofNat ((doc.files s).held name).length, (doc.files s).held name) := by
  obtain ⟨hopen, hsize, hread⟩ := h
  have hheld : (doc.files (lfs.openRead s name).2).held name = (doc.files s).held name :=
    congrArg (Option.getD · []) (doc.openRead_ok hopen.2).2
  have hmax := (doc.files s).length_held_le name
  have hlen : (lfs.sizeOpen s name).toInt = ((doc.files s).held name).length := by
    rw [Lfs.sizeOpen, doc.fileSize_ok hsize, hheld]
  have hnat : (lfs.sizeOpen s name).toUInt32.toNat = ((doc.files s).held name).length := by
    rcases toNat_toUInt32_cases (lfs.sizeOpen s name) with ⟨_, hval⟩ | ⟨hneg, _⟩
    · omega
    · omega
  refine ⟨by rw [← hnat, UInt32.ofNat_toNat], ?_⟩
  rw [Lfs.readOpen, doc.fileRead_ok hread, hheld, hnat, Nat.min_self, List.take_length]

/-- A file that is not empty is read whole if there is memory for it. -/
theorem read {malloc : UInt32 → Option (List UInt8)} (h : lfs.Reads s name)
    (hpos : 0 < ((doc.files s).held name).length)
    (hroom : ∀ n b, malloc n = some b → b.length = n.toNat) (bufptr : Option (List UInt8))
    (sizeptr : UInt32) :
    flashReadFile lfs s malloc bufptr sizeptr (some name) =
      match malloc (UInt32.ofNat ((doc.files s).held name).length) with
      | none => { res := -4, bufptr := none, sizeptr := 0 }
      | some _ =>
        { res := 0
          bufptr := some ((doc.files s).held name)
          sizeptr := UInt32.ofNat ((doc.files s).held name).length } := by
  obtain ⟨hsize, hread⟩ := doc.read_open h
  have hnat : (UInt32.ofNat ((doc.files s).held name).length).toNat =
      ((doc.files s).held name).length := toNat_ofNat_of_le ((doc.files s).length_held_le name)
  have hgt : UInt32.ofNat ((doc.files s).held name).length > 0 := by
    rw [gt_iff_lt, UInt32.lt_iff_toNat_lt, hnat]
    exact hpos
  cases hmalloc : malloc (UInt32.ofNat ((doc.files s).held name).length) with
  | none =>
    rw [flashReadFile, if_neg (not_not.mpr h.1.1), if_neg (not_not.mpr h.1.2)]
    simp only [hsize, if_pos hgt, hmalloc]
  | some b =>
    rw [flashReadFile_opened h.1 (hsize.symm ▸ hgt) (hsize.symm ▸ hmalloc), hsize, hread]
    have hcount : ¬ (Int32.ofNat ((doc.files s).held name).length).toUInt32 <
        UInt32.ofNat ((doc.files s).held name).length := UInt32.lt_irrefl _
    have hrest : b.drop ((doc.files s).held name).length = [] :=
      List.drop_eq_nil_iff.mpr (Nat.le_of_eq ((hroom _ b hmalloc).trans hnat))
    dsimp only
    rw [if_neg hcount, hrest, List.append_nil]
    rfl

/-- An empty file gives no buffer. -/
theorem read_empty {malloc : UInt32 → Option (List UInt8)} (h : lfs.Reads s name)
    (hempty : (doc.files s).held name = []) (bufptr : Option (List UInt8)) (sizeptr : UInt32) :
    flashReadFile lfs s malloc bufptr sizeptr (some name) =
      { res := 0, bufptr := none, sizeptr := 0 } := by
  have hsize := (doc.read_open h).1
  rw [hempty] at hsize
  rw [flashReadFile, if_neg (not_not.mpr h.1.1), if_neg (not_not.mpr h.1.2)]
  dsimp only
  rw [hsize]
  rfl

end Documented

/-- A file that cannot be read gives no buffer with success, unless an error is taken for a
count. -/
theorem flashReadFile_fails {lfs : Lfs S} {s : S} {name : CString}
    {malloc : UInt32 → Option (List UInt8)} {bufptr : Option (List UInt8)} {sizeptr : UInt32}
    (h : ¬ lfs.Reads s name) (herror : ¬ ReadErrorTaken lfs s malloc (some name))
    (hres : (flashReadFile lfs s malloc bufptr sizeptr (some name)).res = 0) :
    (flashReadFile lfs s malloc bufptr sizeptr (some name)).bufptr = none := by
  by_contra hbuf
  obtain ⟨_, buf, ⟨⟩, hopen, hpos, hmalloc, hread⟩ := flashReadFile_success hres hbuf
  rcases (not_lt_size_iff (lfs.readOpen_le s name)).mp hread with hall | htaken
  · have hlt := (lfs.readOpen s name).1.toInt_lt
    refine h ⟨hopen, ?_, ?_⟩
    · rcases toNat_toUInt32_cases (lfs.sizeOpen s name) with ⟨hsign, _⟩ | ⟨hsign, hval⟩
      · exact hsign
      · have hge := (lfs.sizeOpen s name).le_toInt
        omega
    · omega
  · refine herror ⟨name, rfl, hopen, hpos, ?_, htaken⟩
    rw [hmalloc]
    exact Option.some_ne_none buf

/-! ## Main result -/

/-- **What is written is read back**, if the calls of littlefs succeed: exactly if the file was
no longer before and there is memory to read it. -/
theorem write_read_iff {lfs : Lfs S} (doc : Documented lfs) (s : S)
    (malloc : UInt32 → Option (List UInt8)) (buf : List UInt8) (size : UInt32) (name : CString)
    (hpos : 0 < size.toNat) (hbuf : size.toNat ≤ buf.length)
    (hwrites : lfs.Writes s buf size name)
    (hreads : lfs.Reads (flashWriteFile lfs s (some buf) size (some name)).2 name)
    (hroom : ∀ n b, malloc n = some b → b.length = n.toNat) :
    ReadsBack lfs s malloc buf size name ↔
      ((doc.files s).held name).length ≤ size.toNat ∧ malloc size ≠ none := by
  have hlen : (buf.take size.toNat).length = size.toNat := List.length_take_of_le hbuf
  obtain ⟨hwrote, hcontents⟩ := doc.written hwrites
  have hheld := Files.held_of_contents _ hcontents
  have hall := Files.length_overlay ((doc.files s).held name) (buf.take size.toNat)
  have hread := doc.read hreads (by rw [hheld]; omega) hroom
  rw [hheld] at hread
  constructor
  · intro hback
    have heq := (hread none 0).symm.trans (hback hwrote none 0)
    split at heq
    · cases heq
    · rename_i b hmalloc
      obtain ⟨-, hsame, hsize⟩ := ReadFile.mk.inj heq
      have hshort := (Files.overlay_eq_iff _ _).mp (Option.some.inj hsame)
      rw [hlen] at hshort
      rw [hsize] at hmalloc
      exact ⟨hshort, Option.ne_none_iff_exists'.mpr ⟨b, hmalloc⟩⟩
  · rintro ⟨hshort, hmem⟩ - bufptr sizeptr
    have hsame := (Files.overlay_eq_iff ((doc.files s).held name) _).mpr (hlen.symm ▸ hshort)
    obtain ⟨b, hmalloc⟩ := Option.ne_none_iff_exists'.mp hmem
    rw [hread bufptr sizeptr, hsame, hlen, UInt32.ofNat_toNat, hmalloc]

/-! ## A flash in memory -/

/-- The files, and what the file that is open is to hold. -/
structure RamFlash where
  files : Files
  pending : List UInt8
  pending_le : pending.length ≤ LFS_FILE_MAX

/-- A file gets a content. -/
def Files.set (files : Files) (name : CString) (data : List UInt8)
    (h : data.length ≤ LFS_FILE_MAX) : Files where
  contents other := if other = name then some data else files.contents other
  length_le other d hd := by
    split_ifs at hd
    · exact Option.some.inj hd ▸ h
    · exact files.length_le other d hd

/-- The files without one of them. -/
def Files.erase (files : Files) (name : CString) : Files where
  contents other := if other = name then none else files.contents other
  length_le other data h := by
    split_ifs at h
    exact files.length_le other data h

/-- A file is opened. -/
def RamFlash.opened (s : RamFlash) (name : CString) : RamFlash where
  files := s.files.set name (s.files.held name) (s.files.length_held_le name)
  pending := s.files.held name
  pending_le := s.files.length_held_le name

theorem RamFlash.opened_contents (s : RamFlash) (name : CString) :
    (s.opened name).files.contents name = some (s.files.held name) := if_pos rfl

/-- A flash with room for `room` bytes a file, on which nothing else fails. -/
def ramLfs (room : Nat) : Lfs RamFlash where
  mount _ := LFS_ERR_OK
  fileOpen s name flags :=
    if s.files.contents name = none ∧ flags &&& LFS_O_CREAT = 0 then (LFS_ERR_NOENT, s)
    else (LFS_ERR_OK, s.opened name)
  fileSize s name := Int32.ofNat (s.files.held name).length
  fileRead s name size := (Int32.ofNat (min (s.files.held name).length size.toNat),
    (s.files.held name).take size.toNat)
  fileWrite s name buf size :=
    if h : size.toNat ≤ min room LFS_FILE_MAX then
      (Int32.ofNat size.toNat,
        { files := s.files
          pending := Files.overlay s.pending (buf.take size.toNat)
          pending_le := by
            have hle := List.length_take_le size.toNat buf
            have hpending := s.pending_le
            rw [Files.length_overlay]
            omega })
    else
      (LFS_ERR_NOSPC,
        { files := s.files
          pending := s.files.held name
          pending_le := s.files.length_held_le name })
  fileClose s name := (LFS_ERR_OK, { s with files := s.files.set name s.pending s.pending_le })
  stat s name := if s.files.contents name = none then LFS_ERR_NOENT else LFS_ERR_OK
  remove s name := (LFS_ERR_OK, { s with files := s.files.erase name })
  fileRead_le s name size := by
    have hle := Nat.min_le_right (s.files.held name).length size.toNat
    have hmax := Nat.le_trans (Nat.min_le_left (s.files.held name).length size.toNat)
      (s.files.length_held_le name)
    dsimp only
    rw [toInt_ofNat_of_le hmax]
    exact Int.ofNat_le.mpr hle
  fileWrite_le s name buf size := by
    split
    · rename_i h
      exact Int.le_of_eq (toInt_ofNat_of_le (Nat.le_trans h (Nat.min_le_right _ _)))
    · exact Int.le_trans (by decide : LFS_ERR_NOSPC.toInt ≤ 0) (Int.natCast_nonneg _)

theorem ramLfs_openWrite (room : Nat) (s : RamFlash) (name : CString) :
    (ramLfs room).openWrite s name = (LFS_ERR_OK, s.opened name) :=
  if_neg fun h => absurd h.2 (by decide)

theorem ramLfs_openRead (room : Nat) (s : RamFlash) (name : CString) :
    (ramLfs room).openRead s name =
      if s.files.contents name = none then (LFS_ERR_NOENT, s) else (LFS_ERR_OK, s.opened name) :=
  if_congr (and_iff_left (by decide)) rfl rfl

theorem ramLfs_fileWrite_files (room : Nat) (s : RamFlash) (name : CString) (buf : List UInt8)
    (size : UInt32) : ((ramLfs room).fileWrite s name buf size).2.files = s.files := by
  dsimp only [ramLfs]
  split <;> rfl

/-- It does what is documented. -/
def ramDocumented (room : Nat) : Documented (ramLfs room) where
  files s := s.files
  pending s _ := s.pending
  openWrite_ok {s name} _ := by
    rw [ramLfs_openWrite]
    exact ⟨s.opened_contents name, rfl⟩
  openWrite_err {s name} h := by
    rw [ramLfs_openWrite] at h
    exact absurd rfl h
  fileWrite_files s name buf size := by rw [ramLfs_fileWrite_files]
  fileWrite_ok {s name buf size} h := by
    dsimp only [ramLfs] at h ⊢
    split
    · rfl
    · rename_i hfull
      rw [dif_neg hfull] at h
      have hneg : LFS_ERR_NOSPC.toInt < 0 := by decide
      dsimp only at h
      omega
  fileWrite_err {s name buf size} h := by
    dsimp only [ramLfs] at h ⊢
    split
    · rename_i hfits
      rw [dif_pos hfits] at h
      exact absurd (toInt_ofNat_of_le (Nat.le_trans hfits (Nat.min_le_right _ _))) h
    · rfl
  fileClose_ok _ := if_pos rfl
  fileClose_err h := absurd rfl h
  openRead_ok {s name} h := by
    rw [ramLfs_openRead] at h ⊢
    split_ifs at h ⊢ with hnone
    · cases h
    · obtain ⟨data, hdata⟩ := Option.ne_none_iff_exists'.mp hnone
      refine ⟨hnone, ?_⟩
      dsimp only
      rw [s.opened_contents, hdata, Files.held_of_contents _ hdata]
  fileSize_ok {s name} _ := toInt_ofNat_of_le (s.files.length_held_le name)
  fileRead_ok _ := rfl
  remove_ok _ := if_pos rfl
  remove_err h := absurd rfl h

/-- Reading never fails. -/
theorem ramLfs_readOpen (room : Nat) (s : RamFlash) (name : CString) :
    0 ≤ ((ramLfs room).readOpen s name).1.toInt := by
  change 0 ≤ (Int32.ofNat (min _ _)).toInt
  rw [toInt_ofNat_of_le (Nat.le_trans (Nat.min_le_left _ _) (Files.length_held_le _ name))]
  exact Int.natCast_nonneg _

theorem ramLfs_reads (room : Nat) {s : RamFlash} {name : CString}
    (h : s.files.contents name ≠ none) : (ramLfs room).Reads s name := by
  have hopen : ((ramLfs room).openRead s name).1 = LFS_ERR_OK := by
    rw [ramLfs_openRead, if_neg h]
  refine ⟨⟨rfl, hopen⟩, ?_, ramLfs_readOpen room s name⟩
  change 0 ≤ (Int32.ofNat _).toInt
  rw [toInt_ofNat_of_le (Files.length_held_le _ name)]
  exact Int.natCast_nonneg _

/-- A flash that holds a key of five bytes. -/
def keyFlash : RamFlash where
  files :=
    { contents := fun name => if name = "key.pem".toList then some [7, 7, 7, 7, 0] else none
      length_le := by
        intro name data h
        split_ifs at h
        obtain rfl := Option.some.inj h
        decide }
  pending := []
  pending_le := Nat.zero_le _

/-- A key of two bytes is written over it: the old key's last bytes are read with it. -/
theorem write_read_shorter :
    (flashWriteFile (ramLfs 4096) keyFlash (some [9, 0]) 2 (some "key.pem".toList)).1 = 0 ∧
      flashReadFile (ramLfs 4096)
          (flashWriteFile (ramLfs 4096) keyFlash (some [9, 0]) 2 (some "key.pem".toList)).2
          (fun n => some (List.replicate n.toNat 0)) none 0 (some "key.pem".toList) =
        { res := 0, bufptr := some [9, 0, 7, 7, 0], sizeptr := 5 } ∧
      ¬ ReadsBack (ramLfs 4096) keyFlash (fun n => some (List.replicate n.toNat 0)) [9, 0] 2
        "key.pem".toList := by
  have hwrite :
      (flashWriteFile (ramLfs 4096) keyFlash (some [9, 0]) 2 (some "key.pem".toList)).1 = 0 := by
    decide
  have hread : flashReadFile (ramLfs 4096)
      (flashWriteFile (ramLfs 4096) keyFlash (some [9, 0]) 2 (some "key.pem".toList)).2
      (fun n => some (List.replicate n.toNat 0)) none 0 (some "key.pem".toList) =
        { res := 0, bufptr := some [9, 0, 7, 7, 0], sizeptr := 5 } := by decide
  refine ⟨hwrite, hread, fun hback => ?_⟩
  obtain ⟨-, hsame, -⟩ := ReadFile.mk.inj (hread.symm.trans (hback hwrite none 0))
  exact absurd hsame (by decide)

/-- A key that is as long is read back. -/
theorem write_read_as_long :
    ReadsBack (ramLfs 4096) keyFlash (fun n => some (List.replicate n.toNat 0)) [9, 9, 9, 9, 0] 5
      "key.pem".toList :=
  (write_read_iff (ramDocumented 4096) keyFlash (fun n => some (List.replicate n.toNat 0))
    [9, 9, 9, 9, 0] 5 "key.pem".toList (by decide) (by decide) (by decide) (by decide)
    fun n b h => by
      obtain rfl := Option.some.inj h
      exact List.length_replicate).mpr ⟨by decide, Option.some_ne_none _⟩

end LcdPico
