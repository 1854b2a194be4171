import LcdPico.FlashStore

/-!
# Copying a file (`flash.c`)

`flash_copy_file` opens two files, and any of its calls can fail (`CopyLfs`). A destination that
cannot be opened is closed all the same, and the source, which is open, is not. A read or a write
that fails ends the copying half way, and what has been written stays.

`flash_copy_file_keeps_iff` says when the files are closed as they were opened, and a failed
call leaves everything as it was.
-/

namespace LcdPico

/-- The two files of the function. -/
inductive FileVar where
  | fIn
  | fOut
deriving DecidableEq

/-- The calls that begin and end the use of a file. -/
inductive FileCall where
  /-- `lfs_file_open`, with success -/
  | opened (file : FileVar)
  /-- `lfs_file_open`, with an error -/
  | refused (file : FileVar)
  /-- `lfs_file_close` -/
  | closed (file : FileVar)
  /-- `lfs_unmount` -/
  | unmounted
deriving DecidableEq

/-- Only files that are open are closed, and none is open when the flash is unmounted, nor when
the calls end. -/
def closesAll (isOpen : FileVar → Bool) : List FileCall → Bool
  | [] => !isOpen .fIn && !isOpen .fOut
  | .opened file :: calls => !isOpen file && closesAll (Function.update isOpen file true) calls
  | .refused _ :: calls => closesAll isOpen calls
  | .closed file :: calls => isOpen file && closesAll (Function.update isOpen file false) calls
  | .unmounted :: calls => !isOpen .fIn && !isOpen .fOut && closesAll isOpen calls

/-- What the calls of littlefs return while a file is copied. -/
structure CopyLfs (files : Files) where
  /-- `lfs_mount` -/
  mount : Int
  /-- `malloc` gives a buffer -/
  malloc : Bool
  /-- `lfs_file_open` for reading -/
  openIn : CString → Int
  /-- `lfs_file_open` for writing, with `LFS_O_EXCL` or without -/
  openOut : CString → Bool → Int
  /-- the error of each `lfs_file_read`; there is none if it is not negative -/
  read : Nat → Int
  /-- the result of each `lfs_file_write`, unless it is more than there is to write -/
  write : Nat → Int
  /-- What a file holds once it is closed, if a write to it has failed: from what it held, and
  what it would hold with all that was written. -/
  afterError : List UInt8 → List UInt8 → List UInt8
  /-- a file that is not there is not read -/
  openIn_ok : ∀ name, openIn name = LFS_ERR_OK → files.contents name ≠ none
  /-- a file that is there is not created -/
  openOut_ok : ∀ name, openOut name true = LFS_ERR_OK → files.contents name = none

/-- What the copying comes to. -/
structure CopyTurns where
  ret : Int
  bytesWritten : UInt32
  /-- all bytes that were written -/
  written : List UInt8
deriving DecidableEq

/-- `buf_size` -/
def bufSize : Nat := 4096

namespace CopyLfs

variable {files : Files} (lfs : CopyLfs files)

/-- The loop of `flash_copy_file`, from its turn `n` on; `rest` is what is not read yet. -/
def copyTurns (n : Nat) (rest written : List UInt8) (bytesWritten : UInt32) : CopyTurns :=
  if lfs.read n < 0 then { ret := -4, bytesWritten := bytesWritten, written := written }
  else
    let buf := rest.take bufSize
    if _ : 0 < buf.length then
      let wrote := min (lfs.write n) buf.length
      if wrote < buf.length then
        { ret := -5, bytesWritten := bytesWritten, written := written ++ buf.take wrote.toNat }
      else
        copyTurns (n + 1) (rest.drop bufSize) (written ++ buf)
          (bytesWritten + UInt32.ofNat wrote.toNat)
    else { ret := 0, bytesWritten := bytesWritten, written := written }
termination_by rest.length
decreasing_by
  rename_i hpos _
  have hlen : 0 < (rest.take bufSize).length := hpos
  rw [List.length_take] at hlen
  rw [List.length_drop]
  have hsize : 0 < bufSize := by decide
  omega

/-- What a file that held `old` holds when it is closed after the turns. -/
def closeOut (old : List UInt8) (turns : CopyTurns) : List UInt8 :=
  if turns.ret = -5 then lfs.afterError old (Files.overlay old turns.written)
  else Files.overlay old turns.written

end CopyLfs

/-- What a call of `flash_copy_file` comes to. -/
structure CopyRun where
  ret : Int
  calls : List FileCall
  contents : CString → Option (List UInt8)

/-- `flash_copy_file`. What is read from the source is what it held when it was opened. -/
def flashCopyFile {files : Files} (lfs : CopyLfs files) (srcname dstname : Option CString)
    (overwrite : Bool) : CopyRun :=
  match srcname, dstname with
  | some srcname, some dstname =>
    if lfs.mount ≠ LFS_ERR_OK then { ret := -1, calls := [], contents := files.contents }
    else if lfs.malloc = false then
      { ret := -2, calls := [.unmounted], contents := files.contents }
    else if lfs.openIn srcname ≠ LFS_ERR_OK then
      { ret := -2, calls := [.refused .fIn, .unmounted], contents := files.contents }
    else if lfs.openOut dstname (!overwrite) ≠ LFS_ERR_OK then
      { ret := -3
        calls := [.opened .fIn, .refused .fOut, .closed .fOut, .unmounted]
        contents := files.contents }
    else
      let fileSize := UInt32.ofNat (files.held srcname).length
      let turns := lfs.copyTurns 0 (files.held srcname) [] 0
      { ret := if turns.ret = 0 ∧ turns.bytesWritten < fileSize then -6 else turns.ret
        calls := [.opened .fIn, .opened .fOut, .closed .fIn, .closed .fOut, .unmounted]
        contents := fun name =>
          if name = dstname then some (lfs.closeOut (files.held dstname) turns)
          else files.contents name }
  | _, _ => { ret := -42, calls := [], contents := files.contents }

/-- The files are closed as they were opened, and a call that fails changes nothing. -/
def CopyRun.Keeps (run : CopyRun) (files : Files) : Prop :=
  closesAll (fun _ => false) run.calls = true ∧ (run.ret ≠ 0 → run.contents = files.contents)

/-! ## The turns of the loop -/

namespace CopyLfs

section Turns

variable {files : Files} (lfs : CopyLfs files) (data : List UInt8)

/-- The bytes of turn `n`. -/
def chunk (n : Nat) : List UInt8 := (data.drop (bufSize * n)).take bufSize

/-- Turn `n` fails: its read does, or its write, if there is something to write. -/
def Fails (n : Nat) : Prop :=
  lfs.read n < 0 ∨ chunk data n ≠ [] ∧ lfs.write n < (chunk data n).length

/-- Turn `n` is reached if the turns before it do not fail. -/
def Reached (n : Nat) : Prop := bufSize * n < data.length + bufSize

/-- No turn fails. The last one reads nothing. -/
def Completes : Prop := ∀ n, Reached data n → ¬ lfs.Fails data n

/-- Turn `n` is the first to fail. -/
def FirstFailure (n : Nat) : Prop :=
  Reached data n ∧ lfs.Fails data n ∧ ∀ m < n, ¬ lfs.Fails data m

/-- What a file that held `old` holds in the end if turn `n` is the first to fail. -/
def left (old : List UInt8) (n : Nat) : List UInt8 :=
  if lfs.read n < 0 then Files.overlay old (data.take (bufSize * n))
  else lfs.afterError old (Files.overlay old (data.take (bufSize * n + (lfs.write n).toNat)))

theorem length_chunk (n : Nat) :
    (chunk data n).length = min bufSize (data.length - bufSize * n) := by
  rw [chunk, List.length_take, List.length_drop]

theorem take_append_chunk (n k : Nat) (hk : k ≤ bufSize) :
    data.take (bufSize * n) ++ (chunk data n).take k = data.take (bufSize * n + k) := by
  rw [chunk, List.take_take, Nat.min_eq_left hk, ← List.take_add]

variable {lfs data}

/-- The first failure is one turn. -/
theorem FirstFailure.unique {n m : Nat} (hn : lfs.FirstFailure data n)
    (hm : lfs.FirstFailure data m) : n = m := by
  rcases Nat.lt_trichotomy n m with hlt | heq | hgt
  · exact absurd hn.2.1 (hm.2.2 n hlt)
  · exact heq
  · exact absurd hm.2.1 (hn.2.2 m hgt)

/-- The turns from `n` on, if none before failed. -/
def turnsFrom (lfs : CopyLfs files) (data : List UInt8) (n : Nat) : CopyTurns :=
  lfs.copyTurns n (data.drop (bufSize * n)) (data.take (bufSize * n))
    (UInt32.ofNat (data.take (bufSize * n)).length)

/-- The turn that reads nothing is the last. -/
theorem turnsFrom_last {n : Nat} (hread : ¬ lfs.read n < 0) (hempty : chunk data n = []) :
    lfs.turnsFrom data n =
      { ret := 0, bytesWritten := UInt32.ofNat data.length, written := data } := by
  have hend := length_chunk data n
  have hsize : 0 < bufSize := by decide
  rw [hempty, List.length_nil] at hend
  have hall : data.take (bufSize * n) = data := List.take_of_length_le (by omega)
  have hbuf : (data.drop (bufSize * n)).take bufSize = [] := hempty
  rw [turnsFrom, copyTurns, if_neg hread, hall]
  dsimp only
  have hnone : ¬ 0 < ([] : List UInt8).length := Nat.lt_irrefl 0
  rw [hbuf, dif_neg hnone]

/-- A turn that fails is the last: what has been written is closed. -/
theorem turnsFrom_fails {n : Nat} (hfails : lfs.Fails data n) :
    (lfs.turnsFrom data n).ret ≠ 0 ∧
      ∀ old, lfs.closeOut old (lfs.turnsFrom data n) = lfs.left data old n := by
  have hbuf : (data.drop (bufSize * n)).take bufSize = chunk data n := rfl
  rw [turnsFrom, copyTurns]
  by_cases hread : lfs.read n < 0
  · rw [if_pos hread]
    refine ⟨?_, fun old => ?_⟩
    · exact fun h => by cases h
    · rw [closeOut, left, if_pos hread]
      exact if_neg fun h => by cases h
  · obtain ⟨hsome, hwrite⟩ := hfails.resolve_left hread
    have hwrote : min (lfs.write n) ((chunk data n).length : Int) = lfs.write n :=
      Int.min_eq_left (Int.le_of_lt hwrite)
    have hchunk := length_chunk data n
    have hk : (lfs.write n).toNat ≤ bufSize := by omega
    rw [if_neg hread]
    dsimp only
    rw [hbuf, dif_pos (List.length_pos_iff.mpr hsome), hwrote, if_pos hwrite,
      take_append_chunk data n _ hk]
    refine ⟨?_, fun old => ?_⟩
    · exact fun h => by cases h
    · rw [closeOut, if_pos rfl, left, if_neg hread]

/-- Any other turn is followed by the next. -/
theorem turnsFrom_next {n : Nat} (hok : ¬ lfs.Fails data n) (hsome : chunk data n ≠ []) :
    lfs.turnsFrom data n = lfs.turnsFrom data (n + 1) := by
  obtain ⟨hread, hwrite⟩ := not_or.mp hok
  have hbuf : (data.drop (bufSize * n)).take bufSize = chunk data n := rfl
  have hwrote : min (lfs.write n) ((chunk data n).length : Int) = (chunk data n).length :=
    Int.min_eq_right (Int.not_lt.mp fun h => hwrite ⟨hsome, h⟩)
  have hwhole : (chunk data n).take bufSize = chunk data n := by
    have hchunk := length_chunk data n
    exact List.take_of_length_le (by omega)
  have hwritten : data.take (bufSize * n) ++ chunk data n = data.take (bufSize * (n + 1)) := by
    rw [← hwhole, take_append_chunk data n bufSize (Nat.le_refl _), Nat.mul_succ]
  have hcount : UInt32.ofNat (data.take (bufSize * n)).length + UInt32.ofNat (chunk data n).length =
      UInt32.ofNat (data.take (bufSize * (n + 1))).length := by
    rw [← UInt32.ofNat_add, ← List.length_append, hwritten]
  rw [turnsFrom, copyTurns, if_neg hread]
  dsimp only
  rw [hbuf, dif_pos (List.length_pos_iff.mpr hsome), hwrote, if_neg (Int.lt_irrefl _),
    Int.toNat_natCast, hwritten, hcount, List.drop_drop, ← Nat.mul_succ]
  rfl

/-- What the turns from `n` on come to: either none of them fails, and all of the source is
written, or the first that fails decides. -/
theorem turnsFrom_spec (n : Nat) (hreached : Reached data n)
    (hbefore : ∀ m < n, ¬ lfs.Fails data m) :
    (lfs.Completes data ∧ lfs.turnsFrom data n =
        { ret := 0, bytesWritten := UInt32.ofNat data.length, written := data }) ∨
      ∃ m, lfs.FirstFailure data m ∧ (lfs.turnsFrom data n).ret ≠ 0 ∧
        ∀ old, lfs.closeOut old (lfs.turnsFrom data n) = lfs.left data old m := by
  by_cases hfails : lfs.Fails data n
  · exact .inr ⟨n, ⟨hreached, hfails, hbefore⟩, turnsFrom_fails hfails⟩
  have hchunk := length_chunk data n
  have hsize : 0 < bufSize := by decide
  have hupto : ∀ m < n + 1, ¬ lfs.Fails data m := by
    intro m hm
    rcases Nat.lt_succ_iff_lt_or_eq.mp hm with hlt | rfl
    · exact hbefore m hlt
    · exact hfails
  by_cases hempty : chunk data n = []
  · refine .inl ⟨fun m hm => ?_, turnsFrom_last (fun h => hfails (.inl h)) hempty⟩
    rcases Nat.lt_or_ge m (n + 1) with hlt | hge
    · exact hupto m hlt
    · -- a turn after the one that reads nothing is not reached
      have hle := Nat.mul_le_mul_left bufSize hge
      rw [Nat.mul_succ] at hle
      rw [hempty, List.length_nil] at hchunk
      rw [Reached] at hm
      omega
  · have hpos := List.length_pos_iff.mpr hempty
    have hnext : Reached data (n + 1) := by
      rw [Reached, Nat.mul_succ]
      omega
    rw [turnsFrom_next hfails hempty]
    exact turnsFrom_spec (n + 1) hnext hupto
termination_by data.length + bufSize - bufSize * n
decreasing_by
  rw [Nat.mul_succ]
  rw [Reached] at hreached
  omega

/-- The first failure, turn `n`, changes nothing in a destination that held `old`: what has been
written before a read fails is what the file begins with, or what is left when a write has
failed is what it held. -/
def LeavesAlone (lfs : CopyLfs files) (data old : List UInt8) (n : Nat) : Prop :=
  if lfs.read n < 0 then data.take (bufSize * n) <+: old
  else lfs.afterError old (Files.overlay old (data.take (bufSize * n + (lfs.write n).toNat))) = old

theorem left_eq_iff (old : List UInt8) (n : Nat) :
    lfs.left data old n = old ↔ lfs.LeavesAlone data old n := by
  rw [left, LeavesAlone]
  split_ifs
  · exact List.prefix_iff_eq_append.symm
  · exact Iff.rfl

end Turns

/-- Nothing fails once both files are open, or the failure leaves the destination alone, which
was there before. Or the function ends before the destination is to be opened. -/
def KeepsFiles {files : Files} (lfs : CopyLfs files) (srcname dstname : CString)
    (overwrite : Bool) : Prop :=
  lfs.mount ≠ LFS_ERR_OK ∨ lfs.malloc = false ∨ lfs.openIn srcname ≠ LFS_ERR_OK ∨
    lfs.openOut dstname (!overwrite) = LFS_ERR_OK ∧
      (lfs.Completes (files.held srcname) ∨
        ∃ n old, lfs.FirstFailure (files.held srcname) n ∧ files.contents dstname = some old ∧
          lfs.LeavesAlone (files.held srcname) old n)

end CopyLfs

/-! ## Main result -/

section Keeps

variable {files : Files} {lfs : CopyLfs files} {srcname dstname : CString} {overwrite : Bool}

/-- Once both files are open, they are closed in any case. -/
theorem flashCopyFile_opened (hmount : lfs.mount = LFS_ERR_OK) (hmalloc : lfs.malloc ≠ false)
    (hin : lfs.openIn srcname = LFS_ERR_OK)
    (hout : lfs.openOut dstname (!overwrite) = LFS_ERR_OK) :
    (flashCopyFile lfs (some srcname) (some dstname) overwrite).Keeps files ↔
      lfs.Completes (files.held srcname) ∨
        ∃ n old, lfs.FirstFailure (files.held srcname) n ∧ files.contents dstname = some old ∧
          lfs.LeavesAlone (files.held srcname) old n := by
  have hreached : CopyLfs.Reached (files.held srcname) 0 := Nat.lt_add_left _ (by decide)
  have hturns := @CopyLfs.turnsFrom_spec files lfs _ 0 hreached
    fun m hm => absurd hm (Nat.not_lt_zero m)
  have hall : lfs.turnsFrom (files.held srcname) 0 =
    lfs.copyTurns 0 (files.held srcname) [] 0 := rfl
  rw [hall] at hturns
  rw [flashCopyFile, if_neg (not_not.mpr hmount), if_neg hmalloc, if_neg (not_not.mpr hin),
    if_neg (not_not.mpr hout)]
  generalize lfs.copyTurns 0 (files.held srcname) [] 0 = turns at hturns
  have hcalls : closesAll (fun _ => false)
      [.opened .fIn, .opened .fOut, .closed .fIn, .closed .fOut, .unmounted] = true := by
    decide
  dsimp only [CopyRun.Keeps]
  rw [eq_true hcalls, true_and]
  rcases hturns with ⟨hall, rfl⟩ | ⟨n, hfirst, hret, hclose⟩
  · refine iff_of_true (fun hfail => absurd ?_ hfail) (.inl hall)
    exact if_neg fun h => UInt32.lt_irrefl _ h.2
  · rw [if_neg fun h => hret h.1, forall_prop_of_true hret, hclose]
    constructor
    · intro hsame
      have hdst := congrFun hsame dstname
      rw [if_pos rfl] at hdst
      have hheld : files.held dstname = lfs.left (files.held srcname) (files.held dstname) n :=
        congrArg (Option.getD · []) hdst.symm
      exact .inr ⟨n, files.held dstname, hfirst, hdst.symm.trans (congrArg some hheld.symm),
        (CopyLfs.left_eq_iff _ n).mp hheld.symm⟩
    · rintro (hall | ⟨m, old, hfirst', hold, halone⟩)
      · exact absurd hfirst.2.1 (hall n hfirst.1)
      · obtain rfl := hfirst.unique hfirst'
        have hheld : files.held dstname = old := by rw [Files.held, hold, Option.getD_some]
        funext name
        split_ifs with hname
        · rw [hname, hold, hheld, (CopyLfs.left_eq_iff old n).mpr halone]
        · rfl

/-- **The function keeps its files**, exactly if it ends before the destination is to be opened,
or the destination is opened and no failure changes it. -/
theorem flash_copy_file_keeps_iff (files : Files) (lfs : CopyLfs files)
    (srcname dstname : Option CString) (overwrite : Bool) :
    (flashCopyFile lfs srcname dstname overwrite).Keeps files ↔
      ∀ src dst, srcname = some src → dstname = some dst → lfs.KeepsFiles src dst overwrite := by
  match srcname, dstname with
  | none, _ => exact iff_of_true ⟨rfl, fun _ => rfl⟩ fun _ _ h => by cases h
  | some _, none => exact iff_of_true ⟨rfl, fun _ => rfl⟩ fun _ _ _ h => by cases h
  | some src, some dst =>
    have hone : (∀ s d, some src = some s → some dst = some d → lfs.KeepsFiles s d overwrite) ↔
        lfs.KeepsFiles src dst overwrite :=
      ⟨fun h => h src dst rfl rfl, by rintro h _ _ ⟨⟩ ⟨⟩; exact h⟩
    rw [hone, CopyLfs.KeepsFiles]
    by_cases hmount : lfs.mount ≠ LFS_ERR_OK
    · rw [flashCopyFile, if_pos hmount]
      exact iff_of_true ⟨rfl, fun _ => rfl⟩ (.inl hmount)
    by_cases hmalloc : lfs.malloc = false
    · rw [flashCopyFile, if_neg hmount, if_pos hmalloc]
      exact iff_of_true ⟨rfl, fun _ => rfl⟩ (.inr (.inl hmalloc))
    by_cases hin : lfs.openIn src ≠ LFS_ERR_OK
    · rw [flashCopyFile, if_neg hmount, if_neg hmalloc, if_pos hin]
      exact iff_of_true ⟨rfl, fun _ => rfl⟩ (.inr (.inr (.inl hin)))
    by_cases hout : lfs.openOut dst (!overwrite) = LFS_ERR_OK
    · rw [flashCopyFile_opened (not_not.mp hmount) hmalloc (not_not.mp hin) hout,
        or_iff_right hmount, or_iff_right hmalloc, or_iff_right hin, and_iff_right hout]
    · -- the destination, which is not open, is closed, and the source is not
      rw [flashCopyFile, if_neg hmount, if_neg hmalloc, if_neg hin, if_pos hout]
      refine iff_of_false (fun h => ?_) ?_
      · exact Bool.false_ne_true h.1
      · rintro (h | h | h | h)
        · exact hmount h
        · exact hmalloc h
        · exact hin h
        · exact hout h.1

end Keeps

/-- `LFS_ERR_EXIST` -/
def LFS_ERR_EXIST : Int := -17

/-- A flash that holds a key and a certificate. -/
def pemFiles : Files where
  contents name :=
    if name = "key.pem".toList then some [7, 7] else if name = "cert.pem".toList then some [5]
    else none
  length_le name data h := by
    split_ifs at h
    · obtain rfl := Option.some.inj h
      decide
    · obtain rfl := Option.some.inj h
      decide

/-- Its files are opened as they can be, and read without an error, or none is read. -/
def pemLfs (readable : Bool) : CopyLfs pemFiles where
  mount := LFS_ERR_OK
  malloc := true
  openIn name := if pemFiles.contents name = none then LFS_ERR_NOENT else LFS_ERR_OK
  openOut name excl :=
    if excl = true ∧ pemFiles.contents name ≠ none then LFS_ERR_EXIST else LFS_ERR_OK
  read _ := if readable then 0 else LFS_ERR_CORRUPT.toInt
  write _ := bufSize
  afterError old _ := old
  openIn_ok name h hnone := by
    rw [if_pos hnone] at h
    cases h
  openOut_ok name h := by
    by_contra hsome
    rw [if_pos ⟨rfl, hsome⟩] at h
    cases h

/-- A destination that is there is closed without being open, and a source that cannot be read
leaves an empty destination. -/
theorem copy_file_not_kept :
    ((flashCopyFile (pemLfs true) (some "cert.pem".toList) (some "key.pem".toList) false).calls =
        [.opened .fIn, .refused .fOut, .closed .fOut, .unmounted] ∧
      ¬ (flashCopyFile (pemLfs true) (some "cert.pem".toList) (some "key.pem".toList) false).Keeps
        pemFiles) ∧
    (flashCopyFile (pemLfs false) (some "cert.pem".toList) (some "new.pem".toList) false).ret = -4 ∧
      (flashCopyFile (pemLfs false) (some "cert.pem".toList) (some "new.pem".toList) false).contents
        "new.pem".toList = some [] ∧ pemFiles.contents "new.pem".toList = none := by
  have hcalls :
      (flashCopyFile (pemLfs true) (some "cert.pem".toList) (some "key.pem".toList) false).calls =
        [.opened .fIn, .refused .fOut, .closed .fOut, .unmounted] := by decide
  have hread : (pemLfs false).read 0 < 0 := by decide
  have hturns : (pemLfs false).copyTurns 0 (pemFiles.held "cert.pem".toList) [] 0 =
      { ret := -4, bytesWritten := 0, written := [] } := by
    rw [CopyLfs.copyTurns, if_pos hread]
  have hnew : pemFiles.held "new.pem".toList = [] := by decide
  refine ⟨⟨hcalls, fun h => ?_⟩, ?_, ?_, by decide⟩
  · rw [CopyRun.Keeps, hcalls] at h
    exact Bool.false_ne_true h.1
  · rw [flashCopyFile, if_neg (by decide), if_neg (by decide), if_neg (by decide),
      if_neg (by decide)]
    dsimp only
    rw [hturns]
    decide
  · rw [flashCopyFile, if_neg (by decide), if_neg (by decide), if_neg (by decide),
      if_neg (by decide)]
    dsimp only
    rw [hturns, hnew, if_pos rfl]
    decide

end LcdPico
