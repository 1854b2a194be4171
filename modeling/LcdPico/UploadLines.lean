import LcdPico.Upload

/-!
# The text of an upload (`util_rp2.c`, `config.c`)

`getstring_timeout_ms` takes CR and LF for two line ends, so that a line that ends with CR LF is
followed by an empty one; and an empty line ends the upload. A line that fills its buffer of 256
bytes gives no line, and what follows stays on the line until the time is up.

`upload_delivered_iff` says, for each line end, which texts are delivered.
-/

namespace LcdPico

/-- The buffer for the next call: emptied when a line was taken from it. A blank line, which is
white space only, stays in it as it is. -/
def Getstring.kept (g : Getstring 256) : CStr 256 :=
  if g.res > 0 ∧ CText.trim g.str.val ≠ [] then CStr.empty else g.str

/-- What the calls of `getstring_timeout_ms` in the loop of `upload_config` give. When a call
takes nothing from the line, nothing more happens before `CONFIG_READ_TIMEOUT`. -/
def lineTurns (tmp : CStr 256) (polls : List Poll) : List (LineTurn 256) :=
  let g := getstringTimeoutMs tmp polls
  if _ : g.rest.length < polls.length then
    { r := g.res, tmp := g.str, passed := false } :: lineTurns g.kept g.rest
  else [{ r := g.res, tmp := g.str, passed := true }]
termination_by polls.length

/-- The line ends. -/
inductive LineEnd where
  | lf
  | cr
  | crlf
deriving DecidableEq

/-- Its characters. -/
def LineEnd.chars : LineEnd → List Char
  | .lf => ['\n']
  | .cr => ['\r']
  | .crlf => ['\r', '\n']

/-- The lines, and an empty one, each with its end. -/
def sent (e : LineEnd) (ls : List CString) : List Char := (ls ++ [[]]).flatMap (· ++ e.chars)

/-- The trimmed lines that are not blank. -/
def wanted (ls : List CString) : List CString := (ls.map CText.trim).filter (· ≠ [])

/-- The text that `upload_config` passes to `cJSON_Parse` are the wanted lines, each followed by
a newline. If there is none, nothing is passed. -/
def Delivered (heap : Heap) (polls : List Poll) (ls : List CString) : Prop :=
  (uploadConfig heap (lineTurns CStr.empty polls)).parsed =
    if wanted ls = [] then none else some (textOf (wanted ls))

/-- A line of white space. -/
def Blank (l : CString) : Prop := CText.trim l = []

/-- Lines that are not blank and fit, and then only blank ones. -/
def ThenBlank (ls : List CString) : Prop :=
  ∃ body post, ls = body ++ post ∧ (∀ l ∈ body, ¬ Blank l ∧ l.length ≤ 254) ∧ ∀ l ∈ post, Blank l

/-- The texts that arrive whole: after at most one blank line, which the line after it must have
room for, there are lines that are not blank and fit, and then only blank ones; with CR LF there
is only one line that is not blank, the first. -/
def ArrivesWhole : LineEnd → List CString → Prop
  | .crlf, ls =>
    ∃ first post, ls = first :: post ∧ ¬ Blank first ∧ first.length ≤ 254 ∧ ∀ l ∈ post, Blank l
  | _, ls =>
    ∃ pad first rest, ls = pad ++ first :: rest ∧ pad.length ≤ 1 ∧ (∀ l ∈ pad, Blank l) ∧
      ¬ Blank first ∧ (pad.flatten ++ first).length ≤ 254 ∧ ThenBlank rest

/-! ## The lines that are read -/

/-- The lines taken from those that come in, each after `pad`, which is in the buffer already. -/
def readLines (awaiting : Awaiting) (pad : CString) : List CString → List CString
  | [] => []
  | l :: ls =>
    if 255 ≤ (pad ++ l).length then []
    else if CText.trim (pad ++ l) = [] then
      if awaiting = .first then readLines .second (pad ++ l) ls else []
    else CText.trim (pad ++ l) :: readLines .more [] ls

/-- Lines as they come in: each with the character that ends it. -/
def stream (lines : List (CString × Char)) : List Char := lines.flatMap fun p => p.1 ++ [p.2]

theorem stream_cons (l : CString) (e : Char) (lines : List (CString × Char)) :
    stream ((l, e) :: lines) = l ++ e :: stream lines :=
  List.append_assoc l [e] (stream lines)

/-- The text of a line: without a line end or a NUL. -/
def IsLine (l : CString) : Prop := ∀ c ∈ l, isLineEnd c = false ∧ c.toNat ≠ 0

/-- A call gathers characters of lines, which no NUL cuts off. -/
theorem getstringTimeoutMs_eq {tmp : CStr 256} {polls : List Poll}
    (h : ∀ c ∈ (getchars tmp polls).str.val, c.toNat ≠ 0) :
    getstringTimeoutMs tmp polls = getchars tmp polls := by
  rw [getstringTimeoutMs, if_neg (by decide)]
  dsimp only
  rw [CStr.cut_eq h]

section Call

variable {awaiting : Awaiting} {tmp : CStr 256} {polls : List Poll}

/-- A call that takes something from the line is followed by the next. -/
theorem lineTurns_call (hall : IsLine (getchars tmp polls).str.val)
    (hshort : (getchars tmp polls).rest.length < polls.length) :
    lineTurns tmp polls =
      { r := (getchars tmp polls).res, tmp := (getchars tmp polls).str, passed := false } ::
        lineTurns (getchars tmp polls).kept (getchars tmp polls).rest := by
  rw [lineTurns, getstringTimeoutMs_eq fun c hc => (hall c hc).2, dif_pos hshort]

/-- A call without a line end leaves what it gathered to the next one. -/
theorem received_part (hall : IsLine (getchars tmp polls).str.val)
    (hres : (getchars tmp polls).res = 0)
    (hshort : (getchars tmp polls).rest.length < polls.length) :
    received awaiting (lineTurns tmp polls) =
      received awaiting (lineTurns (getchars tmp polls).str (getchars tmp polls).rest) := by
  have hkept : (getchars tmp polls).kept = (getchars tmp polls).str := by
    rw [Getstring.kept, if_neg fun h => by omega]
  rw [lineTurns_call hall hshort, received_none hres, hkept]
  rfl

/-- A call that takes nothing from the line is the last. -/
theorem received_stuck (hall : IsLine (getchars tmp polls).str.val)
    (hres : (getchars tmp polls).res = 0)
    (hshort : ¬ (getchars tmp polls).rest.length < polls.length) :
    received awaiting (lineTurns tmp polls) = { lines := [], ended := true } := by
  rw [lineTurns, getstringTimeoutMs_eq fun c hc => (hall c hc).2, dif_neg hshort,
    received_none hres]
  rfl

/-- A call that gathers a line. A blank one stays in the buffer. -/
theorem received_call (hall : IsLine (getchars tmp polls).str.val)
    (hres : (getchars tmp polls).res = 1)
    (hshort : (getchars tmp polls).rest.length < polls.length) :
    received awaiting (lineTurns tmp polls) =
      if CText.trim (getchars tmp polls).str.val = [] then
        if awaiting = .first then
          received .second (lineTurns (getchars tmp polls).str (getchars tmp polls).rest)
        else { lines := [], ended := true }
      else
        let rest := received .more (lineTurns CStr.empty (getchars tmp polls).rest)
        { rest with lines := CText.trim (getchars tmp polls).str.val :: rest.lines } := by
  have hpos : (getchars tmp polls).res > 0 := by omega
  rw [lineTurns_call hall hshort, received_line hpos]
  by_cases hblank : CText.trim (getchars tmp polls).str.val = []
  · have hkept : (getchars tmp polls).kept = (getchars tmp polls).str := by
      rw [Getstring.kept, if_neg fun h => h.2 hblank]
    rw [if_pos hblank, if_pos hblank, hkept]
  · have hkept : (getchars tmp polls).kept = CStr.empty := by
      rw [Getstring.kept, if_pos ⟨hpos, hblank⟩]
    rw [if_neg hblank, if_neg hblank, if_neg Bool.false_ne_true, hkept]

end Call

/-- If nothing more comes in, there is no line more, and the time-out ends the upload. -/
theorem received_silent {awaiting : Awaiting} {tmp : CStr 256} {polls : List Poll}
    (htmp : IsLine tmp.val) (h : typed polls = []) :
    received awaiting (lineTurns tmp polls) = { lines := [], ended := true } := by
  obtain ⟨hres, hstr, hrest⟩ := getchars_silent tmp h
  have hall : IsLine (getchars tmp polls).str.val := hstr.symm ▸ htmp
  by_cases hshort : (getchars tmp polls).rest.length < polls.length
  · rw [received_part hall hres hshort]
    exact received_silent hall hrest
  · exact received_stuck hall hres hshort
termination_by polls.length

/-- The lines that are received are those that are read from what comes in. -/
theorem received_lineTurns {awaiting : Awaiting} {tmp : CStr 256} {polls : List Poll}
    {line : CString} {e : Char} {lines : List (CString × Char)} (htmp : IsLine tmp.val)
    (hline : IsLine line) (he : isLineEnd e = true)
    (hlines : ∀ p ∈ lines, IsLine p.1 ∧ isLineEnd p.2 = true)
    (h : typed polls = line ++ e :: stream lines) :
    received awaiting (lineTurns tmp polls) =
      { lines := readLines awaiting tmp.val (line :: lines.map Prod.fst), ended := true } := by
  have hnext : ∀ (awaiting : Awaiting) {tmp : CStr 256} {rest : List Poll},
      rest.length < polls.length → IsLine tmp.val → typed rest = stream lines →
      received awaiting (lineTurns tmp rest) =
        { lines := readLines awaiting tmp.val (lines.map Prod.fst), ended := true } := by
    intro awaiting tmp rest hshort htmp hrest
    match lines, hlines, hrest with
    | [], _, hrest => exact received_silent htmp hrest
    | (line', e') :: lines', hlines, hrest =>
      obtain ⟨⟨hline', he'⟩, hlines'⟩ := List.forall_mem_cons.mp hlines
      exact received_lineTurns htmp hline' he' hlines' (hrest.trans (stream_cons line' e' lines'))
  have hgathered : ∀ part rest, line = part ++ rest →
      (getchars tmp polls).str.val = tmp.val ++ part → IsLine (getchars tmp polls).str.val := by
    intro part rest hpart hstr c hc
    rcases List.mem_append.mp (hstr ▸ hc) with hold | hnew
    · exact htmp c hold
    · exact hline c (hpart ▸ List.mem_append_left rest hnew)
  rcases getchars_line tmp (fun c hc => (hline c hc).1) he h with
    ⟨hres, hstr, hrest, hlen, hshort⟩ | ⟨got, left, hpart, hres, hstr, hrest, hend⟩
  · have hall := hgathered line [] (List.append_nil line).symm hstr
    rw [received_call hall hres hshort, readLines, hnext .second hshort hall hrest,
      hnext .more hshort (fun c hc => absurd hc List.not_mem_nil) hrest, hstr,
      if_neg (by omega : ¬ 255 ≤ (tmp.val ++ line).length)]
    split_ifs
    · rfl
    · rfl
    · rfl
  · have hall := hgathered got left hpart hstr
    have hwhole : tmp.val ++ line = (getchars tmp polls).str.val ++ left := by
      rw [hstr, hpart, List.append_assoc]
    by_cases hshort : (getchars tmp polls).rest.length < polls.length
    · -- the call ends inside the line: the next one goes on with it
      have hleft : IsLine left := fun c hc => hline c (hpart ▸ List.mem_append_right got hc)
      rw [received_part hall hres hshort, received_lineTurns hall hleft he hlines hrest,
        readLines, readLines, hwhole]
    · -- the buffer is full, and stays so
      obtain ⟨hfull, -⟩ := hend.resolve_left hshort
      have hlong : 255 ≤ (tmp.val ++ line).length := by
        rw [List.length_append]
        exact Nat.le_add_right_of_le hfull
      rw [received_stuck hall hres hshort, readLines, if_pos hlong]
termination_by polls.length

/-- The lines that come in with a line end: with CR LF, each is followed by an empty one. -/
def LineEnd.lines (e : LineEnd) (ls : List CString) : List (CString × Char) :=
  match e with
  | .lf => ls.map (·, '\n')
  | .cr => ls.map (·, '\r')
  | .crlf => ls.flatMap fun l => [(l, '\r'), ([], '\n')]

theorem stream_lines (e : LineEnd) (ls : List CString) :
    stream (e.lines ls) = ls.flatMap (· ++ e.chars) := by
  induction ls with
  | nil => cases e with
    | lf => rfl
    | cr => rfl
    | crlf => rfl
  | cons l ls ih =>
    rw [List.flatMap_cons, ← ih]
    cases e with
    | lf => rfl
    | cr => rfl
    | crlf => exact (List.append_assoc l ['\r'] _).trans (List.append_assoc l ['\r', '\n'] _).symm

theorem mem_lines {e : LineEnd} {ls : List CString} (hls : ∀ l ∈ ls, IsLine l) :
    ∀ p ∈ e.lines ls, IsLine p.1 ∧ isLineEnd p.2 = true := by
  intro p hp
  cases e with
  | lf =>
    obtain ⟨l, hl, rfl⟩ := List.mem_map.mp hp
    exact ⟨hls l hl, rfl⟩
  | cr =>
    obtain ⟨l, hl, rfl⟩ := List.mem_map.mp hp
    exact ⟨hls l hl, rfl⟩
  | crlf =>
    obtain ⟨l, hl, hp⟩ := List.mem_flatMap.mp hp
    simp only [List.mem_cons, List.not_mem_nil, or_false] at hp
    rcases hp with rfl | rfl
    · exact ⟨hls l hl, rfl⟩
    · exact ⟨fun c hc => absurd hc List.not_mem_nil, rfl⟩

/-- What is received of a text, whatever the time between its characters. -/
theorem received_sent {e : LineEnd} {ls : List CString} {polls : List Poll}
    (hls : ∀ l ∈ ls, IsLine l) (h : typed polls = sent e ls) :
    received .first (lineTurns CStr.empty polls) =
      { lines := readLines .first [] ((e.lines (ls ++ [[]])).map Prod.fst), ended := true } := by
  have hempty : IsLine [] := fun c hc => absurd hc List.not_mem_nil
  have hall : ∀ l ∈ ls ++ [[]], IsLine l := by
    intro l hl
    rcases List.mem_append.mp hl with hold | hnew
    · exact hls l hold
    · rw [List.mem_singleton.mp hnew]
      exact hempty
  rw [sent, ← stream_lines] at h
  have hlines := mem_lines (e := e) hall
  generalize e.lines (ls ++ [[]]) = lines at h hlines
  match lines, h, hlines with
  | [], h, _ => exact received_silent hempty h
  | (line, e') :: lines, h, hlines =>
    obtain ⟨⟨hline, he⟩, hlines⟩ := List.forall_mem_cons.mp hlines
    exact received_lineTurns hempty hline he hlines (h.trans (stream_cons line e' lines))

/-! ## When all that is wanted is read -/

theorem blank_nil : Blank [] := rfl

theorem wanted_cons_blank {l : CString} (h : Blank l) (ls : List CString) :
    wanted (l :: ls) = wanted ls := by
  have htrim : CText.trim l = [] := h
  rw [wanted, List.map_cons, List.filter_cons_of_neg (by simpa using htrim), wanted]

theorem wanted_cons {l : CString} (h : ¬ Blank l) (ls : List CString) :
    wanted (l :: ls) = CText.trim l :: wanted ls := by
  have htrim : CText.trim l ≠ [] := h
  rw [wanted, List.map_cons, List.filter_cons_of_pos (by simpa using htrim), wanted]

theorem wanted_eq_nil_iff {ls : List CString} : wanted ls = [] ↔ ∀ l ∈ ls, Blank l := by
  induction ls with
  | nil => exact iff_of_true rfl fun l hl => absurd hl List.not_mem_nil
  | cons l ls ih =>
    rw [List.forall_mem_cons]
    by_cases h : Blank l
    · rw [wanted_cons_blank h, ih, and_iff_right h]
    · rw [wanted_cons h]
      exact iff_of_false (List.cons_ne_nil _ _) fun hall => h hall.1

theorem wanted_append (ls ls' : List CString) : wanted (ls ++ ls') = wanted ls ++ wanted ls' := by
  rw [wanted, List.map_append, List.filter_append, wanted, wanted]

theorem thenBlank_cons_iff {l : CString} (h : ¬ Blank l) {ls : List CString} :
    ThenBlank (l :: ls) ↔ l.length ≤ 254 ∧ ThenBlank ls := by
  constructor
  · rintro ⟨body, post, heq, hbody, hpost⟩
    cases body with
    | nil =>
      have heq : l :: ls = post := heq
      exact absurd (hpost l (heq ▸ List.mem_cons_self ..)) h
    | cons l' body =>
      obtain ⟨rfl, rfl⟩ := List.cons.inj heq
      obtain ⟨hl, hbody⟩ := List.forall_mem_cons.mp hbody
      exact ⟨hl.2, body, post, rfl, hbody, hpost⟩
  · rintro ⟨hlen, body, post, rfl, hbody, hpost⟩
    exact ⟨l :: body, post, rfl, List.forall_mem_cons.mpr ⟨⟨h, hlen⟩, hbody⟩, hpost⟩

section Read

variable {pad : CString}

/-- White space in the buffer is trimmed away. -/
theorem trim_pad (hpad : Blank pad) (l : CString) : CText.trim (pad ++ l) = CText.trim l :=
  CText.trim_append_of_isSpace (CText.trim_eq_nil_iff.mp hpad) l

theorem Blank.append (hpad : Blank pad) {l : CString} (hl : Blank l) : Blank (pad ++ l) :=
  (trim_pad hpad l).trans hl

/-- A blank line after a line ends the reading, as does a blank line after a blank one. -/
theorem readLines_blank {awaiting : Awaiting} (hne : awaiting ≠ .first) (hpad : Blank pad)
    {l : CString} (hl : Blank l) (ls : List CString) : readLines awaiting pad (l :: ls) = [] := by
  have htrim : CText.trim l = [] := hl
  rw [readLines, trim_pad hpad, if_pos htrim, if_neg hne, ite_self]

/-- A blank line at the beginning stays in the buffer. -/
theorem readLines_first_blank (hpad : Blank pad) {l : CString} (hl : Blank l) (ls : List CString) :
    readLines .first pad (l :: ls) =
      if 255 ≤ (pad ++ l).length then [] else readLines .second (pad ++ l) ls := by
  have htrim : CText.trim l = [] := hl
  rw [readLines, trim_pad hpad, if_pos htrim, if_pos rfl]

/-- A line that is not blank is read if it fits. -/
theorem readLines_line (awaiting : Awaiting) (hpad : Blank pad) {l : CString} (hl : ¬ Blank l)
    (ls : List CString) :
    readLines awaiting pad (l :: ls) =
      if 255 ≤ (pad ++ l).length then [] else CText.trim l :: readLines .more [] ls := by
  have htrim : CText.trim l ≠ [] := hl
  rw [readLines, trim_pad hpad, if_neg htrim]

/-- What is read is the beginning of what is wanted. -/
theorem readLines_isPrefix (awaiting : Awaiting) (hpad : Blank pad) (ls : List CString) :
    readLines awaiting pad ls <+: wanted ls := by
  induction ls generalizing awaiting pad with
  | nil => exact List.nil_prefix
  | cons l ls ih =>
    by_cases hl : Blank l
    · rw [wanted_cons_blank hl]
      by_cases hfirst : awaiting = .first
      · rw [hfirst, readLines_first_blank hpad hl]
        split_ifs
        · exact List.nil_prefix
        · exact ih .second (hpad.append hl)
      · rw [readLines_blank hfirst hpad hl]
        exact List.nil_prefix
    · rw [wanted_cons hl, readLines_line awaiting hpad hl]
      split_ifs
      · exact List.nil_prefix
      · exact List.cons_prefix_cons.mpr ⟨rfl, ih .more blank_nil⟩

/-- An empty line at the end adds nothing. -/
theorem readLines_append_empty (awaiting : Awaiting) (hpad : Blank pad) (ls : List CString) :
    readLines awaiting pad (ls ++ [[]]) = readLines awaiting pad ls := by
  induction ls generalizing awaiting pad with
  | nil => exact List.prefix_nil.mp (readLines_isPrefix awaiting hpad [[]])
  | cons l ls ih =>
    rw [List.cons_append]
    by_cases hl : Blank l
    · by_cases hfirst : awaiting = .first
      · rw [hfirst, readLines_first_blank hpad hl, readLines_first_blank hpad hl,
          ih .second (hpad.append hl)]
      · rw [readLines_blank hfirst hpad hl, readLines_blank hfirst hpad hl]
    · rw [readLines_line awaiting hpad hl, readLines_line awaiting hpad hl, ih .more blank_nil]

/-- From a line that is not blank on, all that is wanted is read if the line fits and what
follows does. -/
theorem readLines_line_iff (awaiting : Awaiting) (hpad : Blank pad) {l : CString} (hl : ¬ Blank l)
    {ls : List CString} (hrest : readLines .more [] ls = wanted ls ↔ ThenBlank ls) :
    readLines awaiting pad (l :: ls) = wanted (l :: ls) ↔
      (pad ++ l).length ≤ 254 ∧ ThenBlank ls := by
  rw [readLines_line awaiting hpad hl, wanted_cons hl, ← hrest]
  split_ifs with hlong
  · refine iff_of_false (fun h => by cases h) fun h => ?_
    omega
  · rw [List.cons_inj_right, and_iff_right (by omega)]

/-- After a line, all that is wanted is read if only blank lines follow those that fit. -/
theorem readLines_more_iff (ls : List CString) :
    readLines .more [] ls = wanted ls ↔ ThenBlank ls := by
  induction ls with
  | nil =>
    exact iff_of_true rfl ⟨[], [], rfl, fun l hl => absurd hl List.not_mem_nil,
      fun l hl => absurd hl List.not_mem_nil⟩
  | cons l ls ih =>
    by_cases hl : Blank l
    · rw [readLines_blank (by decide : Awaiting.more ≠ .first) blank_nil hl, eq_comm,
        wanted_eq_nil_iff]
      constructor
      · exact fun hall => ⟨[], l :: ls, rfl, fun l hl => absurd hl List.not_mem_nil, hall⟩
      · rintro ⟨body, post, heq, hbody, hpost⟩
        cases body with
        | nil =>
          rw [heq]
          exact hpost
        | cons l' body =>
          obtain ⟨rfl, -⟩ := List.cons.inj heq
          exact absurd hl (hbody l (List.mem_cons_self ..)).1
    · rw [readLines_line_iff .more blank_nil hl ih, thenBlank_cons_iff hl, List.nil_append]

/-- A text whose first line is not blank. -/
theorem arrivesWhole_cons_iff {l : CString} (hl : ¬ Blank l) (ls : List CString) :
    ArrivesWhole .lf (l :: ls) ↔ l.length ≤ 254 ∧ ThenBlank ls := by
  constructor
  · rintro ⟨pad, first, rest, heq, -, hpad, -, hlen, hrest⟩
    cases pad with
    | nil =>
      obtain ⟨rfl, rfl⟩ := List.cons.inj heq
      exact ⟨hlen, hrest⟩
    | cons l' pad =>
      obtain ⟨rfl, -⟩ := List.cons.inj heq
      exact absurd (hpad l (List.mem_cons_self ..)) hl
  · rintro ⟨hlen, hrest⟩
    exact ⟨[], l, ls, rfl, Nat.zero_le _, fun l hl => absurd hl List.not_mem_nil, hl, hlen, hrest⟩

/-- A text whose first line is blank. -/
theorem arrivesWhole_blank_iff {l : CString} (hl : Blank l) (ls : List CString) :
    ArrivesWhole .lf (l :: ls) ↔
      ∃ first rest, ls = first :: rest ∧ ¬ Blank first ∧ (l ++ first).length ≤ 254 ∧
        ThenBlank rest := by
  constructor
  · rintro ⟨pad, first, rest, heq, hone, hpad, hfirst, hlen, hrest⟩
    match pad, heq, hone, hpad, hlen with
    | [], heq, _, _, _ =>
      obtain ⟨rfl, -⟩ := List.cons.inj heq
      exact absurd hl hfirst
    | [_], heq, _, _, hlen =>
      obtain ⟨rfl, rfl⟩ := List.cons.inj heq
      rw [List.flatten_cons, List.flatten_nil, List.append_nil] at hlen
      exact ⟨first, rest, rfl, hfirst, hlen, hrest⟩
    | _ :: _ :: _, _, hone, _, _ => exact absurd hone (by simp)
  · rintro ⟨first, rest, rfl, hfirst, hlen, hrest⟩
    refine ⟨[l], first, rest, rfl, Nat.le_refl 1, ?_, hfirst, ?_, hrest⟩
    · exact List.forall_mem_singleton.mpr hl
    · rw [List.flatten_cons, List.flatten_nil, List.append_nil]
      exact hlen

/-- With LF or CR, all that is wanted is read, exactly of the texts that arrive whole. -/
theorem readLines_first_iff {ls : List CString} (hsome : wanted ls ≠ []) :
    readLines .first [] ls = wanted ls ↔ ArrivesWhole .lf ls := by
  cases ls with
  | nil => exact absurd rfl hsome
  | cons l ls =>
    by_cases hl : Blank l
    · rw [wanted_cons_blank hl] at hsome
      rw [readLines_first_blank blank_nil hl, wanted_cons_blank hl, List.nil_append,
        arrivesWhole_blank_iff hl]
      cases ls with
      | nil => exact absurd rfl hsome
      | cons first rest =>
        have hone : (∃ first' rest', first :: rest = first' :: rest' ∧ ¬ Blank first' ∧
            (l ++ first').length ≤ 254 ∧ ThenBlank rest') ↔
              ¬ Blank first ∧ (l ++ first).length ≤ 254 ∧ ThenBlank rest := by
          constructor
          · rintro ⟨_, _, heq, h⟩
            obtain ⟨rfl, rfl⟩ := List.cons.inj heq
            exact h
          · exact fun h => ⟨first, rest, rfl, h⟩
        rw [hone]
        split_ifs with hlong
        · refine iff_of_false (fun h => hsome h.symm) fun h => ?_
          have hlen := h.2.1
          rw [List.length_append] at hlen
          omega
        · by_cases hfirst : Blank first
          · rw [readLines_blank (by decide : Awaiting.second ≠ .first) hl hfirst]
            exact iff_of_false (fun h => hsome h.symm) fun h => h.1 hfirst
          · rw [readLines_line_iff .second hl hfirst (readLines_more_iff rest),
              and_iff_right hfirst]
    · rw [readLines_line_iff .first blank_nil hl (readLines_more_iff ls),
        arrivesWhole_cons_iff hl, List.nil_append]

/-- With CR LF every line is followed by an empty one: only the first is read, if it is not
blank. -/
theorem readLines_crlf_iff {ls : List CString} (hsome : wanted ls ≠ []) :
    readLines .first [] (ls.flatMap fun l => [l, []]) = wanted ls ↔ ArrivesWhole .crlf ls := by
  cases ls with
  | nil => exact absurd rfl hsome
  | cons l ls =>
    have hone : ArrivesWhole .crlf (l :: ls) ↔
        ¬ Blank l ∧ l.length ≤ 254 ∧ ∀ l' ∈ ls, Blank l' := by
      constructor
      · rintro ⟨first, post, heq, h⟩
        obtain ⟨rfl, rfl⟩ := List.cons.inj heq
        exact h
      · exact fun h => ⟨l, ls, rfl, h⟩
    rw [hone, List.flatMap_cons, List.cons_append, List.cons_append, List.nil_append]
    by_cases hl : Blank l
    · rw [readLines_first_blank blank_nil hl, List.nil_append,
        readLines_blank (by decide : Awaiting.second ≠ .first) hl blank_nil, ite_self]
      exact iff_of_false (fun h => hsome h.symm) fun h => h.1 hl
    · rw [readLines_line .first blank_nil hl,
        readLines_blank (by decide : Awaiting.more ≠ .first) blank_nil blank_nil, wanted_cons hl,
        List.nil_append, ← wanted_eq_nil_iff, and_iff_right hl]
      split_ifs with hlong
      · exact iff_of_false (fun h => by cases h) fun h => by omega
      · rw [List.cons_inj_right, and_iff_right (by omega), eq_comm]

end Read

/-! ## Main result -/

theorem wanted_interleaved (ls : List CString) :
    wanted (ls.flatMap fun l => [l, []]) = wanted ls := by
  induction ls with
  | nil => rfl
  | cons l ls ih =>
    rw [List.flatMap_cons, wanted_append, ih]
    by_cases hl : Blank l
    · rw [wanted_cons_blank hl, wanted_cons_blank hl, wanted_cons_blank blank_nil]
      rfl
    · rw [wanted_cons hl, wanted_cons hl, wanted_cons_blank blank_nil]
      rfl

/-- What comes in with LF or CR, and with CR LF, up to the empty lines at the end. -/
theorem readLines_lines (e : LineEnd) (ls : List CString) :
    readLines .first [] ((e.lines (ls ++ [[]])).map Prod.fst) =
      readLines .first [] (if e = .crlf then ls.flatMap fun l => [l, []] else ls) := by
  have hfst : ∀ c : Char, (ls ++ [[]]).map (Prod.fst ∘ (·, c)) = ls ++ [[]] :=
    fun c => List.map_id _
  cases e with
  | lf =>
    rw [LineEnd.lines, List.map_map, hfst, readLines_append_empty .first blank_nil]
    rfl
  | cr =>
    rw [LineEnd.lines, List.map_map, hfst, readLines_append_empty .first blank_nil]
    rfl
  | crlf =>
    have hall : ((ls ++ [[]]).flatMap fun l => [(l, '\r'), (([] : CString), '\n')]).map Prod.fst =
        ((ls.flatMap fun l => [l, []]) ++ [[]]) ++ [[]] := by
      rw [List.map_flatMap, List.flatMap_append]
      exact (List.append_assoc _ [[]] [[]]).symm
    rw [LineEnd.lines, hall, readLines_append_empty .first blank_nil,
      readLines_append_empty .first blank_nil]
    rfl

theorem readLines_lines_isPrefix (e : LineEnd) (ls : List CString) :
    readLines .first [] ((e.lines (ls ++ [[]])).map Prod.fst) <+: wanted ls := by
  rw [readLines_lines]
  split_ifs
  · exact wanted_interleaved ls ▸ readLines_isPrefix .first blank_nil _
  · exact readLines_isPrefix .first blank_nil ls

theorem readLines_lines_iff (e : LineEnd) {ls : List CString} (hsome : wanted ls ≠ []) :
    readLines .first [] ((e.lines (ls ++ [[]])).map Prod.fst) = wanted ls ↔ ArrivesWhole e ls := by
  rw [readLines_lines]
  cases e with
  | lf => exact readLines_first_iff hsome
  | cr => exact readLines_first_iff hsome
  | crlf => exact readLines_crlf_iff hsome

/-- The text of the first lines is all the text only if there are no more. -/
theorem textOf_eq_iff {got lines : List CString} (h : got <+: lines) :
    textOf lines = textOf got ↔ got = lines := by
  obtain ⟨rest, rfl⟩ := h
  rw [textOf_append, List.append_right_eq_self, textOf_eq_nil_iff, List.self_eq_append_right]

/-- **A text is delivered**, exactly if it is blank, or it arrives whole and there is memory for
it. -/
theorem upload_delivered_iff (heap : Heap) (e : LineEnd) (ls : List CString)
    (hls : ∀ l ∈ ls, IsLine l) (polls : List Poll) (hpolls : typed polls = sent e ls) :
    Delivered heap polls ls ↔
      (∀ l ∈ ls, Blank l) ∨ ArrivesWhole e ls ∧ ¬ Refused heap (textOf (wanted ls)).length := by
  have hreceived := received_sent hls hpolls
  have hprefix := readLines_lines_isPrefix e ls
  have hwhole := @readLines_lines_iff e ls
  generalize readLines .first [] ((e.lines (ls ++ [[]])).map Prod.fst) = got at *
  have hparsed := @uploadConfig_parsed_iff heap _ (congrArg Received.ended hreceived)
  rw [hreceived] at hparsed
  rw [Delivered, ← wanted_eq_nil_iff]
  split_ifs with hnone
  · rw [hnone] at hprefix
    have hgot := List.prefix_nil.mp hprefix
    refine iff_of_true ?_ (.inl hnone)
    exact Option.eq_none_iff_forall_ne_some.mpr fun text h => ((hparsed text).mp h).2.1 hgot
  · rw [hparsed, or_iff_right hnone, ← hwhole hnone, textOf_eq_iff hprefix]
    constructor
    · rintro ⟨hmem, -, rfl⟩
      exact ⟨rfl, hmem⟩
    · rintro ⟨rfl, hmem⟩
      exact ⟨hmem, hnone, rfl⟩

section Braces

theorem isLine_braces : ∀ l ∈ [['{'], ['}']], IsLine l := by
  refine List.forall_mem_cons.mpr ⟨fun c hc => ?_, List.forall_mem_singleton.mpr fun c hc => ?_⟩
  · obtain rfl := List.mem_singleton.mp hc
    exact ⟨rfl, by decide⟩
  · obtain rfl := List.mem_singleton.mp hc
    exact ⟨rfl, by decide⟩

theorem typed_map_char (cs : List Char) : typed (cs.map Poll.char) = cs := by
  induction cs with
  | nil => rfl
  | cons c cs ih => rw [List.map_cons, typed_char, ih]

/-- There is memory for a few lines. -/
theorem smallHeap_not_refused {n : Nat} (h : n ≤ 4096) : ¬ Refused smallHeap n := by
  rintro ⟨k, hk, hno⟩
  obtain rfl : k = 0 := by
    rw [grownSize] at hk
    omega
  exact absurd hno (by decide)

/-- Of two lines that end with CR LF the second is lost. -/
theorem upload_crlf_cut :
    (uploadConfig smallHeap
        (lineTurns CStr.empty ((sent .crlf [['{'], ['}']]).map Poll.char))).parsed =
      some ['{', '\n'] ∧
      ¬ Delivered smallHeap ((sent .crlf [['{'], ['}']]).map Poll.char) [['{'], ['}']] := by
  have hreceived := received_sent isLine_braces (typed_map_char (sent .crlf [['{'], ['}']]))
  have hlines : readLines .first [] ((LineEnd.crlf.lines ([['{'], ['}']] ++ [[]])).map Prod.fst) =
      [['{']] := by decide
  have hparsed := @uploadConfig_parsed_iff smallHeap _ (congrArg Received.ended hreceived)
  rw [hreceived, hlines] at hparsed
  have hcut := (hparsed ['{', '\n']).mpr
    ⟨smallHeap_not_refused (by decide), List.cons_ne_nil _ _, rfl⟩
  refine ⟨hcut, fun h => ?_⟩
  rw [Delivered, hcut] at h
  exact absurd h (by decide)

/-- With LF both are delivered. -/
theorem upload_lf_delivered :
    Delivered smallHeap ((sent .lf [['{'], ['}']]).map Poll.char) [['{'], ['}']] := by
  refine (upload_delivered_iff smallHeap .lf [['{'], ['}']] isLine_braces _
    (typed_map_char _)).mpr (.inr ⟨?_, smallHeap_not_refused (by decide)⟩)
  have hblank : ∀ c : Char, CText.isSpace c = false → ¬ Blank [c] := by
    intro c hc hall
    rw [CText.trim_eq_nil_iff.mp hall c (List.mem_singleton_self c)] at hc
    cases hc
  refine ⟨[], ['{'], [['}']], rfl, Nat.zero_le _, fun l hl => absurd hl List.not_mem_nil,
    hblank '{' (by decide), by decide, [['}']], [], rfl, ?_, fun l hl => absurd hl List.not_mem_nil⟩
  exact List.forall_mem_singleton.mpr ⟨hblank '}' (by decide), by decide⟩

end Braces

end LcdPico
