import LcdPico.Getstring
import LcdPico.Httpd
import LcdPico.Settings

/-!
# Keys and certificates (`tls.c`, `command.c`)

`read_pem_file` reads the lines of a PEM block to a buffer. That the block is there it tells
from the line that ends it; what of the lines fits in the buffer is up to `strncatenate`, which
cuts them off. `pem_complete_iff` says when a block that is accepted is complete, and when what
`cmd_tls_pkey` and `cmd_tls_cert` save is.
-/

namespace LcdPico

/-- The result of `read_pem_file`, and the text in its buffer. -/
structure PemRead where
  res : Int
  buf : CString
deriving DecidableEq

/-- `state`, while it matters -/
inductive PemState where
  /-- 0: the first line is to come -/
  | first
  /-- 1: in the block -/
  | block
deriving DecidableEq

/-- The line begins a block. -/
def isPemBegin (line : CString) : Bool := CText.strneq line "-----BEGIN".toList 10

/-- The line ends a block. -/
def isPemEnd (line : CString) : Bool := CText.strneq line "-----END".toList 8

/-- The loop of `read_pem_file`. When there are no more turns, its time has passed. -/
def readPemTurns (size : Nat) (state : PemState) (buf : CString) : List (LineTurn 128) → PemRead
  | [] => { res := 0, buf := buf }
  | turn :: turns =>
    if turn.r < 0 then { res := 0, buf := buf }
    else if turn.r > 0 then
      let line := CText.trim turn.tmp.val
      if state = .first ∧ isPemBegin line = false then { res := 0, buf := buf }
      else
        let added := strncatenate (strncatenate buf line size) ['\n'] size
        if state = .block ∧ isPemEnd line = true then { res := 1, buf := added }
        else if turn.passed then { res := 0, buf := added }
        else readPemTurns size .block added turns
    else if turn.passed then { res := 0, buf := buf }
    else readPemTurns size state buf turns

/-- `read_pem_file`. Its callers give it a buffer, and none is larger than `PTRDIFF_MAX`. -/
def readPemFile (buf : CString) (size : Nat) (append : Bool) (turns : List (LineTurn 128)) :
    PemRead :=
  if size < 2 then { res := -1, buf := buf }
  else readPemTurns size .first (if append then buf else []) turns

/-- What the commands meet on flash, and in memory. -/
structure TlsEnv where
  /-- `flash_read_file` gives a file -/
  present : Bool
  /-- `malloc` gives a buffer -/
  malloc : Bool
  /-- `flash_delete_file` -/
  deleteFile : Int
  /-- `flash_write_file` -/
  writeFile : CString → Int

/-- The result of a command, and the text it has `flash_write_file` save, with its NUL. -/
structure TlsRun where
  res : Int
  saved : Option CString
deriving DecidableEq

/-- What the two commands share; `read` is how they read the text. -/
def tlsCommand (env : TlsEnv) (read : PemRead) (args : CString) (query : Bool) : TlsRun :=
  if query then { res := if env.present then 0 else 2, saved := none }
  else if env.malloc = false then { res := 2, saved := none }
  else if CText.strncaseeq args "DELETE".toList 7 then
    { res := if env.deleteFile = -2 ∨ env.deleteFile = 0 then 0 else 2, saved := none }
  else if read.res ≠ 1 then { res := 2, saved := none }
  else { res := if env.writeFile read.buf ≠ 0 then 2 else 0, saved := some read.buf }

/-- `incount` -/
def incount (args : CString) : Nat :=
  match strToInt args 10 with
  | some v => if v ≥ 1 ∧ v ≤ 3 then v.toNat else 1
  | none => 1

/-- The first `n` calls of `read_pem_file` in `cmd_tls_pkey`, as far as they succeed. -/
def readPemFiles (size : Nat) (inputs : Nat → List (LineTurn 128)) : Nat → PemRead
  | 0 => { res := 1, buf := [] }
  | n + 1 =>
    let read := readPemFiles size inputs n
    if read.res ≠ 1 then read else readPemFile read.buf size true (inputs n)

/-- `cmd_tls_pkey`, with the turns of each call of `read_pem_file` -/
def cmdTlsPkey (env : TlsEnv) (inputs : Nat → List (LineTurn 128)) (args : CString)
    (query : Bool) : TlsRun :=
  tlsCommand env (readPemFiles 4096 inputs (incount args)) args query

/-- `cmd_tls_cert`, with the turns of its call of `read_pem_file` -/
def cmdTlsCert (env : TlsEnv) (input : List (LineTurn 128)) (args : CString) (query : Bool) :
    TlsRun :=
  tlsCommand env (readPemFile [] 8192 false input) args query

/-! ## The lines of a block -/

/-- The lines of the block in the turns, if all of it is there. -/
def pemLines (state : PemState) : List (LineTurn 128) → Option (List CString)
  | [] => none
  | turn :: turns =>
    let line := CText.trim turn.tmp.val
    if turn.r < 0 then none
    else if turn.r = 0 then if turn.passed then none else pemLines state turns
    else if state = .first ∧ isPemBegin line = false then none
    else if state = .block ∧ isPemEnd line = true then some [line]
    else if turn.passed then none
    else (pemLines .block turns).map (line :: ·)

/-- The lines of the first `n` blocks. -/
def pemFilesLines (inputs : Nat → List (LineTurn 128)) : Nat → Option (List CString)
  | 0 => some []
  | n + 1 => do
    let lines ← pemFilesLines inputs n
    let block ← pemLines .first (inputs n)
    return lines ++ block

/-! ## What fits in the buffer -/

section Fits

variable {size : Nat}

/-- A line is added as it would be to the whole text. -/
theorem addLine_eq (hsize : 2 ≤ size) (text line : CString) :
    strncatenate (strncatenate (text.take (size - 1)) line size) ['\n'] size =
      (text ++ (line ++ ['\n'])).take (size - 1) := by
  have hpos : 0 < size := Nat.lt_of_lt_of_le Nat.two_pos hsize
  have hboth := foldl_strncatenate (length_take_lt hpos text) [line, ['\n']]
  rw [take_append_take] at hboth
  exact hboth

/-- The loop accepts the blocks that are there, and keeps what fits of them. -/
theorem readPemTurns_eq (hsize : 2 ≤ size) (state : PemState) (text : CString)
    (turns : List (LineTurn 128)) :
    match pemLines state turns with
    | none => (readPemTurns size state (text.take (size - 1)) turns).res ≠ 1
    | some block => readPemTurns size state (text.take (size - 1)) turns =
        { res := 1, buf := (text ++ textOf block).take (size - 1) } := by
  induction turns generalizing state text with
  | nil => exact fun h => by cases h
  | cons turn turns ih =>
    rw [pemLines, readPemTurns]
    dsimp only
    rcases Int.lt_trichotomy turn.r 0 with hneg | hzero | hpos
    · rw [if_pos hneg, if_pos hneg]
      exact fun h => by cases h
    · have hnn : ¬ turn.r < 0 := by omega
      have hnp : ¬ turn.r > 0 := by omega
      rw [if_neg hnn, if_pos hzero, if_neg hnn, if_neg hnp]
      split_ifs
      · exact fun h => by cases h
      · exact ih state text
    · have hnn : ¬ turn.r < 0 := by omega
      have hnz : ¬ turn.r = 0 := by omega
      rw [if_neg hnn, if_neg hnz, if_neg hnn, if_pos hpos, addLine_eq hsize]
      split_ifs with hbegin hend hpassed
      · exact fun h => by cases h
      · have hlast : textOf [CText.trim turn.tmp.val] = CText.trim turn.tmp.val ++ ['\n'] :=
          List.append_nil _
        dsimp only
        rw [hlast]
      · exact fun h => by cases h
      · have hrest := ih .block (text ++ (CText.trim turn.tmp.val ++ ['\n']))
        cases hblock : pemLines .block turns with
        | none =>
          rw [hblock] at hrest
          exact hrest
        | some block =>
          rw [hblock] at hrest
          rw [Option.map_some]
          dsimp only at hrest ⊢
          rw [hrest, textOf_cons, List.append_assoc]

/-- The blocks of all calls: they are accepted if they are there, and what fits of them kept. -/
theorem readPemFiles_eq (hsize : 2 ≤ size) (inputs : Nat → List (LineTurn 128)) (n : Nat) :
    match pemFilesLines inputs n with
    | none => (readPemFiles size inputs n).res ≠ 1
    | some lines =>
      readPemFiles size inputs n = { res := 1, buf := (textOf lines).take (size - 1) } := by
  induction n with
  | zero => exact congrArg (PemRead.mk 1) List.take_nil.symm
  | succ n ih =>
    rw [pemFilesLines, readPemFiles]
    cases hlines : pemFilesLines inputs n with
    | none =>
      rw [hlines] at ih
      dsimp only [Option.bind_eq_bind, Option.bind_none]
      rw [if_pos ih]
      exact ih
    | some lines =>
      rw [hlines] at ih
      dsimp only at ih
      have hblock := readPemTurns_eq hsize .first (textOf lines) (inputs n)
      have hread : readPemFile ((textOf lines).take (size - 1)) size true (inputs n) =
          readPemTurns size .first ((textOf lines).take (size - 1)) (inputs n) :=
        if_neg (Nat.not_lt.mpr hsize)
      rw [ih]
      dsimp only [Option.bind_eq_bind, Option.bind_some]
      rw [if_neg (not_not.mpr rfl), hread]
      cases hblock' : pemLines .first (inputs n) with
      | none =>
        rw [hblock'] at hblock
        exact hblock
      | some block =>
        rw [hblock'] at hblock
        dsimp only at hblock
        rw [hblock, ← textOf_append]
        rfl

end Fits

/-! ## Main result -/

/-- If `read_pem_file` returns 1, the buffer holds what was there before, if that is kept, and
every line of the block. -/
def AcceptedComplete (buf : CString) (size : Nat) (append : Bool) (turns : List (LineTurn 128)) :
    Prop :=
  (readPemFile buf size append turns).res = 1 →
    ∃ block, pemLines .first turns = some block ∧
      (readPemFile buf size append turns).buf = (if append then buf else []) ++ textOf block

/-- What a command saves are all the lines of its blocks. -/
def SavedComplete (run : TlsRun) (given : Option (List CString)) : Prop :=
  ∀ text, run.saved = some text → ∃ lines, given = some lines ∧ text = textOf lines

/-- The command reads a text to save. -/
def Uploads (env : TlsEnv) (args : CString) (query : Bool) : Prop :=
  query = false ∧ env.malloc = true ∧ CText.strncaseeq args "DELETE".toList 7 = false

theorem take_eq_iff {size : Nat} (hsize : 2 ≤ size) (text : CString) :
    text.take (size - 1) = text ↔ text.length < size := by
  rw [List.take_eq_self_iff]
  omega

/-- `read_pem_file` accepts the block that is there, and keeps what fits of it. -/
theorem readPemFile_eq {buf : CString} {size : Nat} (hsize : 2 ≤ size) (hbuf : buf.length < size)
    (append : Bool) (turns : List (LineTurn 128)) :
    match pemLines .first turns with
    | none => (readPemFile buf size append turns).res ≠ 1
    | some block => readPemFile buf size append turns =
        { res := 1
          buf := ((if append then buf else []) ++ textOf block).take (size - 1) } := by
  have hstart : (if append then buf else []).take (size - 1) = if append then buf else [] := by
    rw [take_eq_iff hsize]
    split_ifs
    · exact hbuf
    · exact Nat.lt_of_lt_of_le Nat.zero_lt_two hsize
  have hturns := readPemTurns_eq hsize .first (if append then buf else []) turns
  rw [hstart] at hturns
  rw [readPemFile, if_neg (Nat.not_lt.mpr hsize)]
  exact hturns

theorem acceptedComplete_iff {buf : CString} {size : Nat} (hsize : 2 ≤ size)
    (hbuf : buf.length < size) (append : Bool) (turns : List (LineTurn 128)) :
    AcceptedComplete buf size append turns ↔
      ∀ block, pemLines .first turns = some block →
        ((if append then buf else []) ++ textOf block).length < size := by
  have hread := readPemFile_eq hsize hbuf append turns
  rw [AcceptedComplete]
  cases hblock : pemLines .first turns with
  | none =>
    rw [hblock] at hread
    exact iff_of_true (fun h => absurd h hread) fun _ h => by cases h
  | some block =>
    rw [hblock] at hread
    dsimp only at hread
    rw [hread, forall_prop_of_true rfl]
    constructor
    · rintro ⟨_, ⟨⟩, hall⟩ _ ⟨⟩
      exact (take_eq_iff hsize _).mp hall
    · exact fun hfits => ⟨block, rfl, (take_eq_iff hsize _).mpr (hfits block rfl)⟩

/-- A command saves the text it has read, if the reading succeeds. -/
theorem tlsCommand_saved_iff (env : TlsEnv) (read : PemRead) (args : CString) (query : Bool)
    (text : CString) :
    (tlsCommand env read args query).saved = some text ↔
      Uploads env args query ∧ read.res = 1 ∧ read.buf = text := by
  rw [tlsCommand, Uploads]
  split_ifs with hquery hmalloc hdelete hres
  · exact iff_of_false (fun h => by cases h) fun h => Bool.false_ne_true (h.1.1.symm.trans hquery)
  · exact iff_of_false (fun h => by cases h) fun h =>
      Bool.false_ne_true (hmalloc.symm.trans h.1.2.1)
  · exact iff_of_false (fun h => by cases h) fun h =>
      Bool.false_ne_true (h.1.2.2.symm.trans hdelete)
  · exact iff_of_false (fun h => by cases h) fun h => hres h.2.1
  -- the text is handed over, whatever becomes of it
  all_goals
    have hup : query = false ∧ env.malloc = true ∧
        CText.strncaseeq args "DELETE".toList 7 = false :=
      ⟨Bool.not_eq_true _ ▸ hquery, Bool.not_eq_false _ ▸ hmalloc, Bool.not_eq_true _ ▸ hdelete⟩
    rw [and_iff_right hup, and_iff_right (not_not.mp hres), Option.some_inj]

/-- A command that reads a text saves it whole exactly if it fits, with its NUL. -/
theorem savedComplete_iff (env : TlsEnv) {read : PemRead} {given : Option (List CString)}
    {size : Nat} (hsize : 2 ≤ size) (args : CString) (query : Bool)
    (hread : match given with
      | none => read.res ≠ 1
      | some lines => read = { res := 1, buf := (textOf lines).take (size - 1) }) :
    SavedComplete (tlsCommand env read args query) given ↔
      (Uploads env args query → ∀ lines, given = some lines → (textOf lines).length < size) := by
  have hsaved := tlsCommand_saved_iff env read args query
  cases given with
  | none =>
    refine iff_of_true (fun text h => ?_) fun _ _ h => by cases h
    exact absurd ((hsaved text).mp h).2.1 hread
  | some lines =>
    obtain rfl : read = { res := 1, buf := (textOf lines).take (size - 1) } := hread
    constructor
    · rintro hall hup _ ⟨⟩
      obtain ⟨_, ⟨⟩, htext⟩ := hall _ ((hsaved _).mpr ⟨hup, rfl, rfl⟩)
      exact (take_eq_iff hsize _).mp htext
    · intro hfits text h
      obtain ⟨hup, -, rfl⟩ := (hsaved text).mp h
      exact ⟨lines, rfl, (take_eq_iff hsize _).mpr (hfits hup lines rfl)⟩

/-- **An accepted block is complete**, exactly if it fits in the buffer; and a key or a
certificate that is saved is, exactly if it fits in the buffer of its command. -/
theorem pem_complete_iff (buf : CString) (size : Nat) (append : Bool)
    (turns : List (LineTurn 128)) (hsize : 2 ≤ size) (hbuf : buf.length < size) (env : TlsEnv)
    (inputs : Nat → List (LineTurn 128)) (input : List (LineTurn 128)) (args : CString)
    (query : Bool) :
    (AcceptedComplete buf size append turns ↔
        ∀ block, pemLines .first turns = some block →
          ((if append then buf else []) ++ textOf block).length < size) ∧
      (SavedComplete (cmdTlsPkey env inputs args query) (pemFilesLines inputs (incount args)) ↔
        (Uploads env args query → ∀ lines, pemFilesLines inputs (incount args) = some lines →
          (textOf lines).length < 4096)) ∧
      (SavedComplete (cmdTlsCert env input args query) (pemLines .first input) ↔
        (Uploads env args query → ∀ lines, pemLines .first input = some lines →
          (textOf lines).length < 8192)) := by
  refine ⟨acceptedComplete_iff hsize hbuf append turns, ?_, ?_⟩
  · exact savedComplete_iff env (by decide) args query (readPemFiles_eq (by decide) inputs _)
  · exact savedComplete_iff env (by decide) args query (readPemTurns_eq (by decide) .first [] input)

/-- A line that comes in. -/
def pemTurn (line : CString) (h : line.length ≤ 127) : LineTurn 128 where
  r := 1
  tmp := ⟨line, h⟩
  passed := false

/-- A line of 63 characters. -/
def longLine : CString := List.replicate 63 'A'

/-- A block with `n` such lines between its first and its last. -/
def pemBlockOf (n : Nat) : List (LineTurn 128) :=
  pemTurn "-----BEGIN KEY".toList (by decide) ::
    (List.replicate n (pemTurn longLine (by decide)) ++
      [pemTurn "-----END KEY".toList (by decide)])

/-- Its lines. -/
def pemBlockLines (n : Nat) : List CString :=
  "-----BEGIN KEY".toList :: (List.replicate n longLine ++ ["-----END KEY".toList])

theorem pemLines_blockOf (n : Nat) : pemLines .first (pemBlockOf n) = some (pemBlockLines n) := by
  have hrest : pemLines .block (List.replicate n (pemTurn longLine (by decide)) ++
      [pemTurn "-----END KEY".toList (by decide)]) =
        some (List.replicate n longLine ++ ["-----END KEY".toList]) := by
    induction n with
    | zero => decide
    | succ n ih =>
      have hline : ∀ turns, pemLines .block (pemTurn longLine (by decide) :: turns) =
          (pemLines .block turns).map (longLine :: ·) := fun _ => rfl
      rw [List.replicate_succ, List.replicate_succ, List.cons_append, List.cons_append, hline, ih,
        Option.map_some]
  have hfirst : pemLines .first (pemBlockOf n) =
      (pemLines .block (List.replicate n (pemTurn longLine (by decide)) ++
        [pemTurn "-----END KEY".toList (by decide)])).map ("-----BEGIN KEY".toList :: ·) := rfl
  rw [hfirst, hrest, Option.map_some, pemBlockLines]

theorem length_pemBlockLines (n : Nat) : (textOf (pemBlockLines n)).length = 28 + 64 * n := by
  have hrest : (textOf (List.replicate n longLine)).length = 64 * n := by
    induction n with
    | zero => rfl
    | succ n ih =>
      have hline : (longLine ++ ['\n']).length = 64 := by decide
      rw [List.replicate_succ, textOf_cons, List.length_append, ih, hline]
      omega
  have hbegin : ("-----BEGIN KEY".toList ++ ['\n']).length = 15 := by decide
  have hend : (textOf ["-----END KEY".toList]).length = 13 := by decide
  rw [pemBlockLines, textOf_cons, textOf_append, List.length_append, hbegin, List.length_append,
    hrest, hend]
  omega

/-- There is memory, and room on flash. -/
def roomyEnv : TlsEnv where
  present := false
  malloc := true
  deleteFile := 0
  writeFile _ := 0

/-- A key that is too long is accepted, and saved, without its end. -/
theorem pem_cut_off_of_long {turns : List (LineTurn 128)} {lines : List CString}
    (hblock : pemLines .first turns = some lines) (hlong : 4096 ≤ (textOf lines).length) :
    readPemFile [] 4096 true turns = { res := 1, buf := (textOf lines).take 4095 } ∧
      ¬ AcceptedComplete [] 4096 true turns ∧
      (cmdTlsPkey roomyEnv (fun _ => turns) [] false).saved = some ((textOf lines).take 4095) ∧
      ¬ SavedComplete (cmdTlsPkey roomyEnv (fun _ => turns) [] false)
        (pemFilesLines (fun _ => turns) (incount [])) := by
  have hsize : 2 ≤ 4096 := by decide
  have hempty : ([] : CString).length < 4096 := by decide
  have hread := readPemFile_eq hsize hempty true turns
  rw [hblock] at hread
  dsimp only [if_true, List.nil_append] at hread
  have hone : incount [] = 1 := by decide
  have hup : Uploads roomyEnv [] false := ⟨rfl, rfl, by decide⟩
  have hgiven : pemFilesLines (fun _ => turns) (incount []) = some lines := by
    rw [hone, pemFilesLines, pemFilesLines, hblock]
    rfl
  have hfiles := readPemFiles_eq hsize (fun _ => turns) (incount [])
  rw [hgiven] at hfiles
  dsimp only at hfiles
  refine ⟨hread, fun h => ?_, ?_, fun h => ?_⟩
  · have hfits := (acceptedComplete_iff hsize hempty true turns).mp h lines hblock
    exact absurd hfits (Nat.not_lt.mpr hlong)
  · rw [cmdTlsPkey, hfiles]
    exact (tlsCommand_saved_iff _ _ _ _ _).mpr ⟨hup, rfl, rfl⟩
  · rw [cmdTlsPkey, savedComplete_iff roomyEnv hsize [] false
      (readPemFiles_eq hsize (fun _ => turns) (incount []))] at h
    exact absurd (h hup lines hgiven) (Nat.not_lt.mpr hlong)

/-- Such a key has 4252 characters. -/
theorem pem_cut_off :
    readPemFile [] 4096 true (pemBlockOf 66) =
        { res := 1, buf := (textOf (pemBlockLines 66)).take 4095 } ∧
      ¬ AcceptedComplete [] 4096 true (pemBlockOf 66) ∧
      (cmdTlsPkey roomyEnv (fun _ => pemBlockOf 66) [] false).saved =
        some ((textOf (pemBlockLines 66)).take 4095) ∧
      ¬ SavedComplete (cmdTlsPkey roomyEnv (fun _ => pemBlockOf 66) [] false)
        (pemFilesLines (fun _ => pemBlockOf 66) (incount [])) := by
  refine pem_cut_off_of_long (pemLines_blockOf 66) ?_
  rw [length_pemBlockLines]
  decide

/-- A block of two lines is complete where it fits. -/
theorem pem_complete_short :
    AcceptedComplete [] 29 true (pemBlockOf 0) ∧
      SavedComplete (cmdTlsPkey roomyEnv (fun _ => pemBlockOf 0) [] false)
        (pemFilesLines (fun _ => pemBlockOf 0) (incount [])) := by
  have hall := pem_complete_iff [] 29 true (pemBlockOf 0) (by decide) (by decide) roomyEnv
    (fun _ => pemBlockOf 0) (pemBlockOf 0) [] false
  have hblock : pemLines .first (pemBlockOf 0) =
      some ["-----BEGIN KEY".toList, "-----END KEY".toList] := by decide
  have hgiven : pemFilesLines (fun _ => pemBlockOf 0) (incount []) =
      some ["-----BEGIN KEY".toList, "-----END KEY".toList] := by decide
  refine ⟨hall.1.mpr fun block h => ?_, hall.2.1.mpr fun _ lines h => ?_⟩
  · obtain rfl := Option.some.inj (hblock.symm.trans h)
    decide
  · obtain rfl := Option.some.inj (hgiven.symm.trans h)
    decide

end LcdPico
