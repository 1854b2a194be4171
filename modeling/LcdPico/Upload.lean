import LcdPico.Getstring

/-!
# Uploading a configuration (`config.c`)

`upload_config` gathers lines in a buffer that grows when the next line does not fit. Room for
a line is room for the line and its newline, so that a text that just fills the buffer leaves no
room for the NUL that ends it (`upload_accesses_inside_iff`).

Every write to the buffer is recorded, with the size that the buffer has then.
-/

namespace LcdPico

/-- `CONFIG_READ_BUF_SIZE` -/
def CONFIG_READ_BUF_SIZE : UInt32 := 2048

/-- `BLANK_LINE_COUNT` -/
def BLANK_LINE_COUNT : Nat := 2

/-- The sizes for which `malloc` and `realloc` find memory. -/
structure Heap where
  grants : UInt32 → Bool
  /-- nothing is larger than `PTRDIFF_MAX` -/
  grants_lt : ∀ size, grants size = true → size.toNat < 2 ^ 31

/-- A write of `len` bytes to a buffer of `size` bytes. -/
structure Access where
  pos : UInt32
  len : UInt32
  size : UInt32
deriving DecidableEq

def Access.Inside (a : Access) : Prop := a.pos.toNat + a.len.toNat ≤ a.size.toNat

/-- `state` -/
inductive UploadState where
  /-- 0: no line of the configuration yet -/
  | waiting
  /-- 1 -/
  | reading
deriving DecidableEq

/-- The variables of `upload_config`. -/
structure Upload where
  /-- what has been written to `buf` -/
  buf : CString
  bufLen : UInt32
  bufUsed : UInt32
  state : UploadState
  blankCount : Nat
  accesses : List Access
deriving DecidableEq

/-- How a turn of the loop ends. -/
inductive UploadStep where
  /-- the next turn follows -/
  | next (st : Upload)
  /-- `break` -/
  | done (st : Upload)
  /-- `goto panic` -/
  | panic (st : Upload)

/-- The end of the turn: `CONFIG_READ_TIMEOUT`. -/
def Upload.checkTime (st : Upload) (passed : Bool) : UploadStep :=
  if passed then .done st else .next st

/-- A line is added to the text, in a larger buffer if it does not fit. -/
def Upload.addLine (heap : Heap) (st : Upload) (line : CString) (passed : Bool) : UploadStep :=
  let lineLen := UInt32.ofNat line.length
  let bufLen :=
    if st.bufLen - st.bufUsed < lineLen + 1 then st.bufLen + CONFIG_READ_BUF_SIZE else st.bufLen
  if st.bufLen - st.bufUsed < lineLen + 1 ∧ heap.grants bufLen = false then
    .panic { st with bufLen := bufLen }
  else
    Upload.checkTime
      { st with
        buf := st.buf ++ (line ++ ['\n'])
        bufLen := bufLen
        bufUsed := st.bufUsed + lineLen + 1
        accesses := st.accesses ++
          [⟨st.bufUsed, lineLen, bufLen⟩, ⟨st.bufUsed + lineLen, 1, bufLen⟩] }
      passed

/-- A turn of the loop of `upload_config`. -/
def uploadTurn (heap : Heap) (st : Upload) (turn : LineTurn 256) : UploadStep :=
  if turn.r < 0 then .done st
  else if turn.r > 0 then
    let line := CText.trim turn.tmp.val
    let st := { st with blankCount := if line ≠ [] then 0 else st.blankCount + 1 }
    if st.blankCount ≥ BLANK_LINE_COUNT then .done st
    else if st.state = .waiting ∧ line = [] then .next st
    else
      let st := { st with state := .reading }
      if line = [] then if st.blankCount ≥ 1 then .done st else .next st
      else st.addLine heap line turn.passed
  else st.checkTime turn.passed

/-- The loop, in the turns that there are. -/
def uploadTurns (heap : Heap) (st : Upload) : List (LineTurn 256) → UploadStep
  | [] => .next st
  | turn :: turns =>
    match uploadTurn heap st turn with
    | .next st => uploadTurns heap st turns
    | step => step

/-- What `upload_config` does: its writes, and the text it passes to `cJSON_Parse`. -/
structure UploadRun where
  accesses : List Access
  parsed : Option CString
deriving DecidableEq

/-- After the loop the text is ended with a NUL. -/
def UploadStep.run : UploadStep → UploadRun
  | .next st => { accesses := st.accesses, parsed := none }
  | .done st =>
    { accesses := st.accesses ++ [⟨st.bufUsed, 1, st.bufLen⟩]
      parsed := if st.bufUsed < 1 then none else some st.buf }
  | .panic st => { accesses := st.accesses, parsed := none }

/-- The variables as the loop begins. -/
def Upload.start : Upload where
  buf := []
  bufLen := CONFIG_READ_BUF_SIZE * 3
  bufUsed := 0
  state := .waiting
  blankCount := 0
  accesses := []

/-- `upload_config`, up to the parsing of the text -/
def uploadConfig (heap : Heap) (turns : List (LineTurn 256)) : UploadRun :=
  if heap.grants (CONFIG_READ_BUF_SIZE * 3) = false then { accesses := [], parsed := none }
  else (uploadTurns heap .start turns).run

/-! ## The lines of the configuration -/

/-- What the lines so far mean for a blank line. -/
inductive Awaiting where
  /-- there was none: it is ignored -/
  | first
  /-- there were only blank lines: it is the end -/
  | second
  /-- there were lines: it is the end -/
  | more
deriving DecidableEq

/-- The lines that are received, and whether their end is. -/
structure Received where
  lines : List CString
  ended : Bool

/-- The lines in the turns, up to the end of the configuration. -/
def received (awaiting : Awaiting) : List (LineTurn 256) → Received
  | [] => { lines := [], ended := false }
  | turn :: turns =>
    let line := CText.trim turn.tmp.val
    if turn.r < 0 then { lines := [], ended := true }
    else if turn.r = 0 then
      if turn.passed then { lines := [], ended := true } else received awaiting turns
    else if line = [] then
      if awaiting = .first then received .second turns else { lines := [], ended := true }
    else if turn.passed then { lines := [line], ended := true }
    else
      let rest := received .more turns
      { rest with lines := line :: rest.lines }

/-! ## The buffer -/

/-- The size of the buffer after `k` enlargements. -/
def grownSize (k : Nat) : Nat := 6144 + 2048 * k

theorem grownSize_succ (k : Nat) : grownSize (k + 1) = grownSize k + 2048 := by
  rw [grownSize, grownSize]
  omega

/-- There is no memory for one of the sizes that a text of `n` bytes takes: the first, or one
after a size that does not hold the text. -/
def Refused (heap : Heap) (n : Nat) : Prop :=
  ∃ k, (k = 0 ∨ grownSize k < n + 2048) ∧ heap.grants (UInt32.ofNat (grownSize k)) = false

theorem Refused.mono {heap : Heap} {n m : Nat} (h : Refused heap n) (hle : n ≤ m) :
    Refused heap m := by
  obtain ⟨k, hk, hno⟩ := h
  exact ⟨k, hk.imp_right fun hlt => by omega, hno⟩

/-- The buffer holds the text, and was enlarged only when it had to be. -/
structure Upload.Ok (heap : Heap) (st : Upload) : Prop where
  used : st.bufUsed.toNat = st.buf.length
  fits : st.buf.length ≤ st.bufLen.toNat
  grown : ∃ k, st.bufLen.toNat = grownSize k ∧ (k = 0 ∨ grownSize k < st.buf.length + 2048) ∧
    ∀ j ≤ k, heap.grants (UInt32.ofNat (grownSize j)) = true
  inside : ∀ a ∈ st.accesses, a.Inside

theorem Upload.start_ok {heap : Heap} (h : heap.grants (CONFIG_READ_BUF_SIZE * 3) = true) :
    Upload.start.Ok heap where
  used := rfl
  fits := Nat.zero_le _
  grown := ⟨0, rfl, .inl rfl, fun j hj => by
    obtain rfl := Nat.le_zero.mp hj
    exact h⟩
  inside _ ha := absurd ha List.not_mem_nil

theorem length_append_line (text line : CString) :
    (text ++ (line ++ ['\n'])).length = text.length + line.length + 1 := by
  rw [List.length_append, List.length_append, List.length_singleton, Nat.add_assoc]

section AddLine

variable {heap : Heap} {st : Upload} {line : CString}

/-- No count of the buffer wraps. -/
theorem Upload.Ok.bufLen_lt (hok : st.Ok heap) : st.bufLen.toNat < 2 ^ 31 := by
  obtain ⟨k, hsize, -, hgranted⟩ := hok.grown
  refine heap.grants_lt _ ?_
  rw [← UInt32.ofNat_toNat (x := st.bufLen), hsize]
  exact hgranted k (Nat.le_refl k)

theorem toNat_lineLen (hline : line.length ≤ 255) :
    (UInt32.ofNat line.length).toNat = line.length := by
  rw [UInt32.toNat_ofNat']
  omega

/-- A line fits, with its newline, if there is that much room. -/
theorem Upload.Ok.room_lt_iff (hok : st.Ok heap) (hline : line.length ≤ 255) :
    st.bufLen - st.bufUsed < UInt32.ofNat line.length + 1 ↔
      st.bufLen.toNat < st.buf.length + line.length + 1 := by
  have hlen1 : (UInt32.ofNat line.length + 1).toNat = line.length + 1 := by
    rw [UInt32.toNat_add, toNat_lineLen hline]
    exact Nat.mod_eq_of_lt (by omega : line.length + 1 < 2 ^ 32)
  have hfits := hok.fits
  have hle : st.bufUsed ≤ st.bufLen := UInt32.le_iff_toNat_le.mpr (hok.used.symm ▸ hfits)
  rw [UInt32.lt_iff_toNat_lt, UInt32.toNat_sub_of_le _ _ hle, hok.used, hlen1]
  omega

/-- The buffer with a line more, of a size that holds it. -/
theorem Upload.Ok.added (hok : st.Ok heap) (hline : line.length ≤ 255) {bufLen : UInt32} {k : Nat}
    (hsize : bufLen.toNat = grownSize k) (hfits : st.buf.length + line.length + 1 ≤ bufLen.toNat)
    (hneeded : k = 0 ∨ grownSize k < st.buf.length + line.length + 1 + 2048)
    (hgranted : ∀ j ≤ k, heap.grants (UInt32.ofNat (grownSize j)) = true) :
    Upload.Ok heap
      { st with
        buf := st.buf ++ (line ++ ['\n'])
        bufLen := bufLen
        bufUsed := st.bufUsed + UInt32.ofNat line.length + 1
        accesses := st.accesses ++
          [⟨st.bufUsed, UInt32.ofNat line.length, bufLen⟩,
            ⟨st.bufUsed + UInt32.ofNat line.length, 1, bufLen⟩] } := by
  have hlt := bufLen.toNat_lt
  have hlen := toNat_lineLen hline
  have hend : (st.bufUsed + UInt32.ofNat line.length).toNat = st.buf.length + line.length := by
    rw [UInt32.toNat_add, hlen, hok.used]
    exact Nat.mod_eq_of_lt (by omega)
  refine ⟨?_, ?_, ⟨k, hsize, ?_, hgranted⟩, ?_⟩
  · dsimp only
    rw [UInt32.toNat_add, hend, length_append_line]
    exact Nat.mod_eq_of_lt (by omega : st.buf.length + line.length + 1 < 2 ^ 32)
  · dsimp only
    rw [length_append_line]
    exact hfits
  · dsimp only
    rw [length_append_line]
    exact hneeded
  · intro a ha
    rcases List.mem_append.mp ha with hold | hnew
    · exact hok.inside a hold
    · simp only [List.mem_cons, List.not_mem_nil, or_false] at hnew
      rcases hnew with rfl | rfl
      · dsimp only [Access.Inside]
        rw [hlen, hok.used]
        omega
      · rw [Access.Inside, hend]
        exact hfits

/-- A line is added, and the buffer holds it, or there is no memory for it. -/
theorem Upload.Ok.addLine (hok : st.Ok heap) (hline : line.length ≤ 255) (passed : Bool) :
    (∃ st' : Upload, st.addLine heap line passed = st'.checkTime passed ∧ st'.Ok heap ∧
        st'.buf = st.buf ++ (line ++ ['\n']) ∧ st'.state = st.state ∧
        st'.blankCount = st.blankCount) ∨
      ∃ st' : Upload, st.addLine heap line passed = .panic st' ∧ (∀ a ∈ st'.accesses, a.Inside) ∧
        Refused heap (st.buf ++ (line ++ ['\n'])).length := by
  obtain ⟨k, hsize, hneeded, hgranted⟩ := hok.grown
  have hroom := hok.room_lt_iff hline
  rw [Upload.addLine]
  by_cases hfull : st.bufLen - st.bufUsed < UInt32.ofNat line.length + 1
  · have hshort := hroom.mp hfull
    have hlt := hok.bufLen_lt
    have hfits := hok.fits
    have hgrow : (st.bufLen + CONFIG_READ_BUF_SIZE).toNat = grownSize (k + 1) := by
      rw [UInt32.toNat_add, hsize, grownSize_succ]
      exact Nat.mod_eq_of_lt (by omega : grownSize k + 2048 < 2 ^ 32)
    have hsame : UInt32.ofNat (grownSize (k + 1)) = st.bufLen + CONFIG_READ_BUF_SIZE := by
      rw [← hgrow, UInt32.ofNat_toNat]
    have hnext := grownSize_succ k
    simp only [hfull, true_and, if_true]
    by_cases hgrant : heap.grants (st.bufLen + CONFIG_READ_BUF_SIZE) = false
    · refine .inr ⟨_, if_pos hgrant, hok.inside, k + 1, .inr ?_, hsame.symm ▸ hgrant⟩
      rw [length_append_line]
      omega
    · have hfits' : st.buf.length + line.length + 1 ≤
          (st.bufLen + CONFIG_READ_BUF_SIZE).toNat := by omega
      refine .inl ⟨_, if_neg hgrant, hok.added hline hgrow hfits' (.inr ?_) ?_, rfl, rfl, rfl⟩
      · omega
      · intro j hj
        rcases Nat.le_succ_iff.mp hj with hle | rfl
        · exact hgranted j hle
        · rw [hsame]
          exact Bool.not_eq_false _ ▸ hgrant
  · have hfits := Nat.le_of_not_lt (mt hroom.mpr hfull)
    simp only [hfull, false_and, if_false]
    exact .inl ⟨_, rfl, hok.added hline hsize hfits (hneeded.imp_right fun h => by omega) hgranted,
      rfl, rfl, rfl⟩

end AddLine

/-! ## The loop -/

/-- The variables show what a blank line means. -/
def Awaiting.Shown (st : Upload) : Awaiting → Prop
  | .first => st.state = .waiting ∧ st.blankCount = 0
  | .second => st.state = .waiting ∧ st.blankCount = 1
  | .more => st.state = .reading ∧ st.blankCount = 0

/-- The loop ends, or goes on, with the lines received added to the text `before`, unless there
was no memory for them. -/
def UploadStep.Gathers (heap : Heap) (before : CString) (received : Received) : UploadStep → Prop
  | .next st => received.ended = false ∧ st.Ok heap ∧ st.buf = before ++ textOf received.lines
  | .done st => received.ended = true ∧ st.Ok heap ∧ st.buf = before ++ textOf received.lines
  | .panic st =>
    (∀ a ∈ st.accesses, a.Inside) ∧ Refused heap (before ++ textOf received.lines).length

theorem length_le_textOf_cons (before line : CString) (lines : List CString) :
    (before ++ (line ++ ['\n'])).length ≤ (before ++ textOf (line :: lines)).length := by
  rw [textOf_cons, ← List.append_assoc before (line ++ ['\n'])]
  exact (List.prefix_append _ _).length_le

/-- Lines after a line: they are added to the text with it. -/
theorem UploadStep.Gathers.cons {heap : Heap} {before line : CString} {rest : Received}
    {step : UploadStep} (h : step.Gathers heap (before ++ (line ++ ['\n'])) rest) :
    step.Gathers heap before { rest with lines := line :: rest.lines } := by
  have htext : before ++ (line ++ ['\n']) ++ textOf rest.lines =
      before ++ textOf (line :: rest.lines) := by rw [textOf_cons, List.append_assoc]
  cases step with
  | next st => exact ⟨h.1, h.2.1, h.2.2.trans htext⟩
  | done st => exact ⟨h.1, h.2.1, h.2.2.trans htext⟩
  | panic st => exact ⟨h.1, htext ▸ h.2⟩

section Turns

variable {heap : Heap} {st : Upload} {awaiting : Awaiting} {turn : LineTurn 256}

/-- Variables that the buffer does not depend on. -/
theorem Upload.Ok.with (hok : st.Ok heap) (state : UploadState) (blankCount : Nat) :
    Upload.Ok heap { st with state := state, blankCount := blankCount } :=
  ⟨hok.used, hok.fits, hok.grown, hok.inside⟩

/-- A turn without a line. -/
theorem uploadTurn_none (hzero : turn.r = 0) :
    uploadTurn heap st turn = st.checkTime turn.passed := by
  rw [uploadTurn, if_neg (by omega), if_neg (by omega)]

/-- A turn with a blank line: it is the first, or the last one. -/
theorem uploadTurn_blank (hpos : turn.r > 0) (hblank : CText.trim turn.tmp.val = [])
    (hshown : awaiting.Shown st) :
    uploadTurn heap st turn =
      if awaiting = .first then .next { st with blankCount := 1 }
      else .done { st with blankCount := st.blankCount + 1 } := by
  rw [uploadTurn, if_neg (by omega), if_pos hpos]
  obtain ⟨buf, bufLen, bufUsed, state, blankCount, accesses⟩ := st
  cases awaiting with
  | first =>
    obtain ⟨rfl, rfl⟩ := hshown
    simp [hblank, BLANK_LINE_COUNT]
  | second =>
    obtain ⟨rfl, rfl⟩ := hshown
    simp [hblank, BLANK_LINE_COUNT]
  | more =>
    obtain ⟨rfl, rfl⟩ := hshown
    simp [hblank, BLANK_LINE_COUNT]

/-- A turn with a line. -/
theorem uploadTurn_line (hpos : turn.r > 0) (hline : CText.trim turn.tmp.val ≠ []) :
    uploadTurn heap st turn =
      Upload.addLine heap { st with state := .reading, blankCount := 0 }
        (CText.trim turn.tmp.val) turn.passed := by
  rw [uploadTurn, if_neg (by omega), if_pos hpos]
  simp [hline, BLANK_LINE_COUNT]

/-- A turn without a line leaves what is received to the next ones. -/
theorem received_none (hzero : turn.r = 0) (turns : List (LineTurn 256)) :
    received awaiting (turn :: turns) =
      if turn.passed then { lines := [], ended := true } else received awaiting turns := by
  rw [received, if_neg (by omega), if_pos hzero]

/-- A turn with a line. -/
theorem received_line (hpos : turn.r > 0) (turns : List (LineTurn 256)) :
    received awaiting (turn :: turns) =
      if CText.trim turn.tmp.val = [] then
        if awaiting = .first then received .second turns else { lines := [], ended := true }
      else if turn.passed then { lines := [CText.trim turn.tmp.val], ended := true }
      else
        let rest := received .more turns
        { rest with lines := CText.trim turn.tmp.val :: rest.lines } := by
  rw [received, if_neg (by omega), if_neg (by omega)]

end Turns

/-- The loop gathers the lines in its turns. -/
theorem uploadTurns_gathers {heap : Heap} (turns : List (LineTurn 256)) {st : Upload}
    {awaiting : Awaiting} (hok : st.Ok heap) (hshown : awaiting.Shown st) :
    (uploadTurns heap st turns).Gathers heap st.buf (received awaiting turns) := by
  induction turns generalizing st awaiting with
  | nil => exact ⟨rfl, hok, (List.append_nil _).symm⟩
  | cons turn turns ih =>
    rw [uploadTurns]
    rcases Int.lt_trichotomy turn.r 0 with hneg | hzero | hpos
    · rw [uploadTurn, received, if_pos hneg, if_pos hneg]
      exact ⟨rfl, hok, (List.append_nil _).symm⟩
    · rw [uploadTurn_none hzero, received_none hzero, Upload.checkTime]
      split_ifs
      · exact ⟨rfl, hok, (List.append_nil _).symm⟩
      · exact ih hok hshown
    · rw [received_line hpos]
      by_cases hblank : CText.trim turn.tmp.val = []
      · rw [uploadTurn_blank hpos hblank hshown, if_pos hblank]
        split_ifs with hfirst
        · rw [hfirst] at hshown
          exact ih (hok.with st.state 1) ⟨hshown.1, rfl⟩
        · exact ⟨rfl, hok.with st.state _, (List.append_nil _).symm⟩
      · rw [uploadTurn_line hpos hblank, if_neg hblank]
        have hline : (CText.trim turn.tmp.val).length ≤ 255 :=
          Nat.le_trans (CText.length_trim_le _) turn.tmp.property
        rcases (hok.with .reading 0).addLine hline turn.passed with
          ⟨st', hadd, hok', hbuf, hstate, hcount⟩ | ⟨st', hpanic, hinside, hrefused⟩
        · rw [hadd, Upload.checkTime]
          split_ifs
          · have hlast : (UploadStep.done st').Gathers heap
                (st.buf ++ (CText.trim turn.tmp.val ++ ['\n'])) { lines := [], ended := true } :=
              ⟨rfl, hok', hbuf.trans (List.append_nil _).symm⟩
            exact hlast.cons
          · exact .cons (hbuf ▸ ih hok' ⟨hstate, hcount⟩)
        · rw [hpanic]
          refine ⟨hinside, hrefused.mono ?_⟩
          split_ifs
          · exact length_le_textOf_cons _ _ _
          · exact length_le_textOf_cons _ _ _

theorem textOf_eq_nil_iff {lines : List CString} : textOf lines = [] ↔ lines = [] := by
  cases lines with
  | nil => exact iff_of_true rfl rfl
  | cons line lines =>
    have hne : textOf (line :: lines) ≠ [] := by
      rw [textOf_cons, List.append_assoc]
      exact List.append_ne_nil_of_right_ne_nil _ (List.cons_ne_nil _ _)
    exact iff_of_false hne (List.cons_ne_nil _ _)

/-! ## Main result -/

/-- If there was memory for the text, there was for every size it takes. -/
theorem Upload.Ok.not_refused {heap : Heap} {st : Upload} (hok : st.Ok heap) :
    ¬ Refused heap st.buf.length := by
  rintro ⟨j, hj, hno⟩
  obtain ⟨k, hsize, -, hgranted⟩ := hok.grown
  have hfits := hok.fits
  have hjk : j ≤ k := by
    simp only [grownSize] at hj hsize
    omega
  rw [hgranted j hjk] at hno
  cases hno

/-- The NUL is written outside the buffer exactly if the text fills it. -/
theorem Upload.Ok.nul_inside_iff {heap : Heap} {st : Upload} (hok : st.Ok heap) :
    Access.Inside ⟨st.bufUsed, 1, st.bufLen⟩ ↔
      ¬ (6144 ≤ st.buf.length ∧ st.buf.length % 2048 = 0) := by
  obtain ⟨k, hsize, hneeded, -⟩ := hok.grown
  have hfits := hok.fits
  dsimp only [Access.Inside]
  rw [hok.used, hsize, UInt32.toNat_one]
  rw [hsize] at hfits
  simp only [grownSize] at hneeded hfits ⊢
  omega

/-- What `upload_config` does if there is memory to begin with. -/
theorem uploadConfig_gathers {heap : Heap}
    (hmalloc : ¬ heap.grants (CONFIG_READ_BUF_SIZE * 3) = false) (turns : List (LineTurn 256)) :
    ∃ step : UploadStep, uploadConfig heap turns = step.run ∧
      step.Gathers heap [] (received .first turns) := by
  have hok := Upload.start_ok (Bool.not_eq_false _ ▸ hmalloc)
  have hshown : Awaiting.first.Shown Upload.start := ⟨rfl, rfl⟩
  exact ⟨uploadTurns heap .start turns, if_neg hmalloc, uploadTurns_gathers turns hok hshown⟩

/-- A text is passed to the parser if there was memory for it, and a line. -/
theorem uploadConfig_parsed_iff {heap : Heap} {turns : List (LineTurn 256)}
    (hended : (received .first turns).ended = true) (text : CString) :
    (uploadConfig heap turns).parsed = some text ↔
      ¬ Refused heap (textOf (received .first turns).lines).length ∧
        (received .first turns).lines ≠ [] ∧ text = textOf (received .first turns).lines := by
  by_cases hmalloc : heap.grants (CONFIG_READ_BUF_SIZE * 3) = false
  · rw [uploadConfig, if_pos hmalloc]
    exact iff_of_false (fun h => by cases h) fun h => h.1 ⟨0, .inl rfl, hmalloc⟩
  · obtain ⟨step, hrun, hgathers⟩ := uploadConfig_gathers hmalloc turns
    rw [hrun]
    cases step with
    | next st =>
      rw [hgathers.1] at hended
      cases hended
    | done st =>
      obtain ⟨-, hok, htext⟩ := hgathers
      rw [List.nil_append] at htext
      have hnone : st.bufUsed < 1 ↔ (received .first turns).lines = [] := by
        rw [UInt32.lt_iff_toNat_lt, hok.used, htext, ← textOf_eq_nil_iff, UInt32.toNat_one,
          Nat.lt_one_iff, List.length_eq_zero_iff]
      rw [← htext, and_iff_right hok.not_refused]
      dsimp only [UploadStep.run]
      split_ifs with hused
      · exact iff_of_false (fun h => by cases h) fun h => h.1 (hnone.mp hused)
      · rw [Option.some_inj, and_iff_right (mt hnone.mpr hused), eq_comm]
    | panic st => exact iff_of_false (fun h => by cases h) fun h => h.1 hgathers.2

/-- **Every write is inside the buffer**, exactly if the text does not just fill it when it
ends, or there was no memory for the text. -/
theorem upload_accesses_inside_iff (heap : Heap) (turns : List (LineTurn 256)) :
    (∀ a ∈ (uploadConfig heap turns).accesses, a.Inside) ↔
      ((received .first turns).ended = true →
        Refused heap (textOf (received .first turns).lines).length ∨
          ¬ (6144 ≤ (textOf (received .first turns).lines).length ∧
            (textOf (received .first turns).lines).length % 2048 = 0)) := by
  by_cases hmalloc : heap.grants (CONFIG_READ_BUF_SIZE * 3) = false
  · rw [uploadConfig, if_pos hmalloc]
    refine iff_of_true (fun a ha => absurd ha List.not_mem_nil) fun _ => .inl ?_
    exact ⟨0, .inl rfl, hmalloc⟩
  · obtain ⟨step, hrun, hgathers⟩ := uploadConfig_gathers hmalloc turns
    rw [hrun]
    cases step with
    | next st =>
      obtain ⟨hended, hok, -⟩ := hgathers
      refine iff_of_true hok.inside fun h => ?_
      rw [hended] at h
      cases h
    | done st =>
      obtain ⟨hended, hok, htext⟩ := hgathers
      rw [List.nil_append] at htext
      rw [← htext, ← hok.nul_inside_iff, forall_prop_of_true hended,
        or_iff_right hok.not_refused]
      constructor
      · exact fun h => h _ (List.mem_append_right _ (List.mem_singleton_self _))
      · intro hnul a ha
        rcases List.mem_append.mp ha with hold | hnew
        · exact hok.inside a hold
        · obtain rfl := List.mem_singleton.mp hnew
          exact hnul
    | panic st => exact iff_of_true hgathers.1 fun _ => .inl hgathers.2

/-- A heap of 64 KiB. -/
def smallHeap : Heap where
  grants size := size.toNat ≤ 65536
  grants_lt size h := Nat.lt_of_le_of_lt (of_decide_eq_true h) (by decide)

/-- A line of 191 characters. -/
def fillingLine : LineTurn 256 where
  r := 1
  tmp := ⟨List.replicate 191 'x', by rw [List.length_replicate]; decide⟩
  passed := false

/-- A blank line. -/
def blankLine : LineTurn 256 where
  r := 1
  tmp := CStr.empty
  passed := false

/-- 32 of them, then a blank line: the NUL is written behind the buffer. -/
theorem upload_fills_buffer :
    ⟨6144, 1, 6144⟩ ∈
        (uploadConfig smallHeap (List.replicate 32 fillingLine ++ [blankLine])).accesses ∧
      ¬ Access.Inside ⟨6144, 1, 6144⟩ := by
  refine ⟨by decide +kernel, ?_⟩
  rw [Access.Inside]
  decide

end LcdPico
