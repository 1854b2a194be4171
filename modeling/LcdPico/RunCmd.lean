import LcdPico.Commands

/-!
# One program message unit (`run_cmd`)

`run_cmd` splits the header of a unit at its colons and walks down the command
tables. The model is generic in the tables and in what a command function does
(`exec`), so that what it says holds of every tree.

`walk` is the reading of a header by the tree alone: every token but the last one
descends, the last one names a command function. `runCmd` follows it except past
a leaf (`pastLeaf`): an entry without subcommands does not end the header, and
the tokens after it are looked up in the table of the leaf.
-/

namespace LcdPico

def MAX_CMD_DEPTH : Nat := 16

/-- The arguments of a command function. `prevCmd` is `struct prev_cmd_t`, the
innermost subcommand last. -/
structure Call where
  cmd : CString
  args : CString
  query : Bool
  prevCmd : List CString
deriving DecidableEq, Repr

/-- `strncasecmp(s, cmd, min_match)` is 0. -/
def Cmd.isMatch {T H : Type} (e : Cmd T H) (s : CString) : Bool :=
  CText.strncaseeq s e.cmd e.minMatch

section

variable {T H σ : Type} (tables : T → List (Cmd T H)) (exec : H → Call → σ → Int × σ)

/-- The first entry of a table that the token matches. -/
def findCmd (level : T) (s : CString) : Option (Cmd T H) := (tables level).find? (·.isMatch s)

/-- The variables of `run_cmd`, and what the command functions work on. -/
structure CmdWalk (T σ : Type) where
  cmd_level : T
  cmd_stack : List CString
  res : Int
  state : σ

/-- `cmd_stack->cmds[cmd_stack->depth++] = s`, within `MAX_CMD_DEPTH`. -/
def pushCmd (stack : List CString) (s : CString) : List CString :=
  if stack.length < MAX_CMD_DEPTH then stack ++ [s] else stack

/-- `query`: the token ends in a question mark. -/
def isQuery (s : CString) : Bool := s.getLast? = some '?'

/-- The loop over the tokens of the header; the table search picks the first
match, and a token without one ends the loop. -/
def runTokens (arg : CString) : List CString → CmdWalk T σ → CmdWalk T σ
  | [], w => w
  | s :: rest, w =>
    match findCmd tables w.cmd_level s with
    | none => w
    | some e =>
      match e.subcmds, rest with
      | some level, _ :: _ =>
        runTokens arg rest { w with cmd_level := level, cmd_stack := pushCmd w.cmd_stack s }
      | _, _ =>
        match e.func with
        | some func =>
          let (res, state) :=
            exec func { cmd := s, args := arg, query := isQuery s, prevCmd := w.cmd_stack } w.state
          runTokens arg rest { w with res := res, state := state }
        | none => runTokens arg rest w

/-- `*last_error_num`, for the result of a command function. -/
def errorNum (res : Int) : Int :=
  if res < 0 then -113
  else if res = 0 then 0
  else if res = 1 then -100
  else if res = 2 then -102
  else -1

/-- The header word of a unit, and its arguments: what follows the character that
ends the header. -/
def splitUnit (cmd : CString) : Option (CString × CString) :=
  (CText.strtok CText.isBlank cmd).map fun (t, _) =>
    let lead := (cmd.takeWhile CText.isBlank).length
    (t, if cmd.length > t.length + 1 then cmd.drop (lead + t.length + 1) else [])

/-- A header that starts at the root of the tree. -/
def isRooted (t : CString) : Bool := t.head? = some ':' || t.head? = some '*'

/-- The variables of `run_cmd` before the loop: a rooted header resets the level
and the stack. -/
def startWalk {T σ : Type} (commands : T) (t : CString) (cmd_level : T)
    (cmd_stack : List CString) (state : σ) : CmdWalk T σ :=
  { cmd_level := if isRooted t then commands else cmd_level
    cmd_stack := if isRooted t then [] else cmd_stack
    res := -1
    state := state }

/-- `run_cmd`: the new command level, `*last_error_num`, and the state. -/
def runCmd (commands : T) (cmd : CString) (cmd_level : T) (cmd_stack : List CString) (state : σ) :
    T × Int × σ :=
  match splitUnit cmd with
  | none => (cmd_level, errorNum (-1), state)
  | some (t, arg) =>
    let w := runTokens tables exec arg (CText.tokens (CText.isChar ':') t)
      (startWalk commands t cmd_level cmd_stack state)
    (w.cmd_level, errorNum w.res, w.state)

/-! ## The reading of a header -/

/-- The command function that a header names. -/
def walk : T → List CString → Option H
  | _, [] => none
  | level, s :: rest =>
    match findCmd tables level s with
    | none => none
    | some e =>
      match rest with
      | [] => e.func
      | _ :: _ => e.subcmds.bind fun level => walk level rest

/-- The header goes on after an entry without subcommands. -/
def pastLeaf : T → List CString → Bool
  | _, [] => false
  | level, s :: rest =>
    match findCmd tables level s with
    | none => false
    | some e =>
      match e.subcmds with
      | none => !rest.isEmpty
      | some level => pastLeaf level rest

/-- The command functions called, in order, next to what they do. -/
def recorded (h : H) (c : Call) (s : σ × List H) : Int × σ × List H :=
  let (res, state) := exec h c s.1
  (res, state, s.2 ++ [h])

end

/-- The tokens of the header of a unit, and the table they start from. -/
def header {T : Type} (commands : T) (cmd_level : T) (cmd : CString) : T × List CString :=
  match splitUnit cmd with
  | none => (cmd_level, [])
  | some (t, _) =>
    (if isRooted t then commands else cmd_level, CText.tokens (CText.isChar ':') t)

/-! ## What the loop calls -/

section

variable {T H σ : Type} {tables : T → List (Cmd T H)} {exec : H → Call → σ → Int × σ}

/-- A header that stops at its leaf: the loop calls the function that the header
names, if any, and the result stays as it is if there is none. -/
theorem runTokens_of_not_pastLeaf (exec : H → Call → σ → Int × σ) (arg : CString)
    {toks : List CString} {w : CmdWalk T (σ × List H)}
    (h : pastLeaf tables w.cmd_level toks = false) :
    (runTokens tables (recorded exec) arg toks w).state.2 =
        w.state.2 ++ (walk tables w.cmd_level toks).toList ∧
      (walk tables w.cmd_level toks = none →
        (runTokens tables (recorded exec) arg toks w).res = w.res) := by
  induction toks generalizing w with
  | nil => exact ⟨(List.append_nil _).symm, fun _ => rfl⟩
  | cons s rest ih =>
    rw [pastLeaf] at h
    rw [runTokens, walk]
    cases hfind : findCmd tables w.cmd_level s with
    | none => exact ⟨(List.append_nil _).symm, fun _ => rfl⟩
    | some e =>
      simp only [hfind] at h ⊢
      cases rest with
      | nil =>
        cases hsub : e.subcmds <;> cases hfunc : e.func <;> simp [runTokens, recorded]
      | cons s' rest =>
        cases hsub : e.subcmds with
        | none => simp [hsub] at h
        | some level =>
          simp only [hsub] at h
          exact ih (w := { w with
            cmd_level := level, cmd_stack := pushCmd w.cmd_stack s }) h

/-- Functions called stay called. -/
theorem runTokens_calls (arg : CString) (toks : List CString) (w : CmdWalk T (σ × List H)) :
    ∃ l, (runTokens tables (recorded exec) arg toks w).state.2 = w.state.2 ++ l := by
  induction toks generalizing w with
  | nil => exact ⟨[], (List.append_nil _).symm⟩
  | cons s rest ih =>
    rw [runTokens]
    cases hfind : findCmd tables w.cmd_level s with
    | none => exact ⟨[], (List.append_nil _).symm⟩
    | some e =>
      simp only
      split
      · exact ih _
      · split
        · rename_i func _
          obtain ⟨l, hl⟩ := ih { w with
            res := (recorded exec func ⟨s, arg, isQuery s, w.cmd_stack⟩ w.state).1
            state := (recorded exec func ⟨s, arg, isQuery s, w.cmd_stack⟩ w.state).2 }
          exact ⟨func :: l, by rw [hl]; simp [recorded]⟩
        · exact ih w

/-- A header that goes on past a leaf names nothing, and yet the leaf's function
is called. -/
theorem runTokens_of_pastLeaf (hleaf : ∀ level, ∀ e ∈ tables level, e.subcmds = none →
      e.func.isSome = true) (exec : H → Call → σ → Int × σ) (arg : CString)
    {toks : List CString} {w : CmdWalk T (σ × List H)}
    (h : pastLeaf tables w.cmd_level toks = true) :
    walk tables w.cmd_level toks = none ∧
      ∃ func l, (runTokens tables (recorded exec) arg toks w).state.2 =
        w.state.2 ++ func :: l := by
  induction toks generalizing w with
  | nil => cases h
  | cons s rest ih =>
    rw [pastLeaf] at h
    rw [runTokens, walk]
    cases hfind : findCmd tables w.cmd_level s with
    | none => simp [hfind] at h
    | some e =>
      simp only [hfind] at h ⊢
      have hmem : e ∈ tables w.cmd_level := List.mem_of_find?_eq_some hfind
      cases hsub : e.subcmds with
      | none =>
        simp only [hsub] at h
        -- the loop calls the leaf, and goes on with the next token in the same table
        obtain ⟨func, hfunc⟩ := Option.isSome_iff_exists.mp (hleaf _ e hmem hsub)
        cases rest with
        | nil => cases h
        | cons s' rest =>
          refine ⟨rfl, ?_⟩
          simp only [hfunc]
          obtain ⟨l, hl⟩ := runTokens_calls arg (s' :: rest) { w with
            res := (recorded exec func ⟨s, arg, isQuery s, w.cmd_stack⟩ w.state).1
            state := (recorded exec func ⟨s, arg, isQuery s, w.cmd_stack⟩ w.state).2 }
          exact ⟨func, l, by rw [hl]; simp [recorded]⟩
      | some level =>
        simp only [hsub] at h
        cases rest with
        | nil => cases h
        | cons s' rest =>
          exact ih (w := { w with cmd_level := level, cmd_stack := pushCmd w.cmd_stack s }) h

/-! ## Main result -/

/-- **One unit runs at most one command**, the one its header names, and reports
an undefined header when it names none, exactly if the header does not go on past
a leaf. -/
theorem run_cmd_one_handler (hleaf : ∀ level, ∀ e ∈ tables level, e.subcmds = none →
      e.func.isSome = true) (exec : H → Call → σ → Int × σ) (commands : T) (cmd : CString)
    (cmd_level : T) (cmd_stack : List CString) (state : σ) :
    let run := runCmd tables (recorded exec) commands cmd cmd_level cmd_stack (state, [])
    let named := walk tables (header commands cmd_level cmd).1 (header commands cmd_level cmd).2
    (run.2.2.2 = named.toList ∧ (named = none → run.2.1 = -113)) ↔
      pastLeaf tables (header commands cmd_level cmd).1 (header commands cmd_level cmd).2 =
        false := by
  intro run named
  cases hsplit : splitUnit cmd with
  | none =>
    have hrun : run = (cmd_level, -113, state, []) := by
      simp only [run, runCmd, hsplit]
      rfl
    have hheader : header commands cmd_level cmd = (cmd_level, []) := by
      simp only [header, hsplit]
    simp [named, hheader, hrun, walk, pastLeaf]
  | some ta =>
    obtain ⟨t, arg⟩ := ta
    have hheader : header commands cmd_level cmd =
        (if isRooted t then commands else cmd_level, CText.tokens (CText.isChar ':') t) := by
      simp only [header, hsplit]
    have hrun : ∃ w, w = startWalk commands t cmd_level cmd_stack (state, []) ∧
        run.2.1 = errorNum (runTokens tables (recorded exec) arg
          (CText.tokens (CText.isChar ':') t) w).res ∧
        run.2.2.2 = (runTokens tables (recorded exec) arg
          (CText.tokens (CText.isChar ':') t) w).state.2 := by
      refine ⟨_, rfl, ?_, ?_⟩ <;> simp only [run, runCmd, hsplit]
    obtain ⟨w, hw, hres, hcalls⟩ := hrun
    have hlevel : (if isRooted t then commands else cmd_level) = w.cmd_level := by rw [hw]; rfl
    have hstart : w.state.2 = [] ∧ w.res = -1 := by rw [hw]; exact ⟨rfl, rfl⟩
    simp only [named, hheader, hres, hcalls, hlevel]
    cases hpast : pastLeaf tables w.cmd_level (CText.tokens (CText.isChar ':') t) with
    | true =>
      obtain ⟨hnone, func, l, hl⟩ := runTokens_of_pastLeaf hleaf exec arg hpast
      simp [hnone, hl]
    | false =>
      obtain ⟨hl, hres⟩ := runTokens_of_not_pastLeaf exec arg hpast
      rw [hl, hstart.1]
      refine ⟨fun _ => rfl, fun _ => ⟨rfl, fun hnone => ?_⟩⟩
      rw [hres hnone, hstart.2]
      rfl

end

/-- Every entry of the command tree has subcommands or a command function. -/
theorem entries_func (level : Table) : ∀ e ∈ entries level, e.subcmds = none →
    e.func.isSome = true := by
  cases level <;> decide

/-- A header of the command tree that stops at its leaf. -/
theorem run_cmd_one_handler_led :
    let exec : Handler → Call → Unit → Int × Unit := fun _ _ s => (0, s)
    let run := runCmd entries (recorded exec) .commands "SYS:LED 1".toList .commands [] ((), [])
    run.2.2.2 = [.cmdLed] := by
  intro exec run
  have h := (run_cmd_one_handler entries_func exec .commands "SYS:LED 1".toList .commands
    [] ()).mpr (by decide +kernel)
  exact h.1.trans (by decide +kernel)

/-- Two commands run for one header, which names none. -/
theorem run_cmd_two_handlers :
    let exec : Handler → Call → Unit → Int × Unit := fun _ _ s => (0, s)
    let run := runCmd entries (recorded exec) .commands "SYS:LED?:ECHO?".toList .commands []
      ((), [])
    run.2.2.2 = [.cmdLed, .cmdEcho] ∧ run.2.1 = 0 ∧
      walk entries .commands ["SYS".toList, "LED?".toList, "ECHO?".toList] = none ∧
      ¬ ∀ (cmd : CString) (cmd_level : Table),
        let run := runCmd entries (recorded exec) .commands cmd cmd_level [] ((), [])
        let named := walk entries (header .commands cmd_level cmd).1
          (header .commands cmd_level cmd).2
        run.2.2.2 = named.toList ∧ (named = none → run.2.1 = -113) := by
  intro exec run
  refine ⟨by decide +kernel, by decide +kernel, by decide +kernel, fun h => ?_⟩
  have h' := (h "SYS:LED?:ECHO?".toList .commands).1
  revert h'
  decide +kernel

end LcdPico
