import LcdPico.RunCmd

/-!
# The arguments of a unit, and the blanks before them

`run_cmd` takes the arguments to start one character behind the header. If there are
more blanks than one, what is left of them goes to the command function.
-/

namespace LcdPico

section

variable {T H σ : Type} (tables : T → List (Cmd T H)) (exec : H → Call → σ → Int × σ)

/-- The command functions that a header comes to. -/
def reached : T → List CString → List H
  | _, [] => []
  | level, s :: rest =>
    match findCmd tables level s with
    | none => []
    | some e =>
      match e.subcmds, rest with
      | some level, _ :: _ => reached level rest
      | _, _ => e.func.toList ++ reached level rest

/-- The arguments of the calls, in order, next to what the functions do. -/
def recordedArgs (h : H) (c : Call) (s : σ × List CString) : Int × σ × List CString :=
  let (res, state) := exec h c s.1
  (res, state, s.2 ++ [c.args])

/-- The `args` of the command functions that a unit calls. -/
def argsPassed (commands : T) (cmd : CString) (cmd_level : T) (cmd_stack : List CString)
    (state : σ) : List CString :=
  (runCmd tables (recordedArgs exec) commands cmd cmd_level cmd_stack (state, [])).2.2.2

variable {tables exec}

/-! ## What the loop passes -/

/-- Each function that is reached is called with the same arguments. -/
theorem runTokens_args (arg : CString) (toks : List CString)
    (w : CmdWalk T (σ × List CString)) :
    (runTokens tables (recordedArgs exec) arg toks w).state.2 =
      w.state.2 ++ (reached tables w.cmd_level toks).map fun _ => arg := by
  induction toks generalizing w with
  | nil => exact (List.append_nil _).symm
  | cons s rest ih =>
    rw [runTokens, reached]
    cases hfind : findCmd tables w.cmd_level s with
    | none => exact (List.append_nil _).symm
    | some e =>
      cases hsub : e.subcmds with
      | none =>
        cases hfunc : e.func with
        | none =>
          simp only [hsub, hfunc]
          exact ih w
        | some func =>
          simp only [hsub, hfunc]
          rw [ih]
          simp [recordedArgs]
      | some level =>
        cases rest with
        | nil =>
          cases hfunc : e.func with
          | none => simp [hsub, hfunc, runTokens, reached]
          | some func => simp [hsub, hfunc, runTokens, reached, recordedArgs]
        | cons s' rest =>
          simp only [hsub]
          exact ih _

theorem splitUnit_blanks {t ws : CString} (ht : ∀ c ∈ t, CText.isBlank c = false)
    (hne : t ≠ []) (hws : ∀ c ∈ ws, CText.isBlank c = true) (hsep : ws ≠ []) (p : CString) :
    splitUnit (t ++ (ws ++ p)) = some (t, ws.drop 1 ++ p) := by
  obtain ⟨b, ws, rfl⟩ := List.exists_cons_of_ne_nil hsep
  have hb : CText.isBlank b = true := hws b (List.mem_cons_self ..)
  have hhead : ∀ c ∈ ((b :: ws) ++ p).head?, CText.isBlank c = true := by
    intro c hc
    obtain rfl : b = c := Option.some_inj.mp hc
    exact hb
  have hlead : (t ++ ((b :: ws) ++ p)).takeWhile CText.isBlank = [] := by
    obtain ⟨c, t, rfl⟩ := List.exists_cons_of_ne_nil hne
    exact List.takeWhile_cons_of_neg (by simp [ht c (List.mem_cons_self ..)])
  rw [splitUnit, CText.strtok_append ht hne hhead, hlead]
  simp only [Option.map_some, List.length_nil, Nat.zero_add, List.length_append, List.length_cons]
  have hdrop : (t ++ ((b :: ws) ++ p)).drop (t.length + 1) = ws ++ p := by
    rw [List.drop_append, List.drop_of_length_le (Nat.le_succ _), Nat.add_sub_cancel_left]
    rfl
  rw [hdrop, List.drop_one, List.tail_cons]
  by_cases hrest : ws ++ p = []
  · rw [hrest, ite_self]
  · have hpos : 0 < (ws ++ p).length := List.length_pos_iff.mpr hrest
    rw [List.length_append] at hpos
    rw [if_pos (by omega)]

theorem argsPassed_eq {t ws : CString} (ht : ∀ c ∈ t, CText.isBlank c = false) (hne : t ≠ [])
    (hws : ∀ c ∈ ws, CText.isBlank c = true) (hsep : ws ≠ []) (p : CString) (commands : T)
    (cmd_level : T) (cmd_stack : List CString) (state : σ) :
    argsPassed tables exec commands (t ++ (ws ++ p)) cmd_level cmd_stack state =
      (reached tables (if isRooted t then commands else cmd_level)
        (CText.tokens (CText.isChar ':') t)).map fun _ => ws.drop 1 ++ p := by
  rw [argsPassed, runCmd, splitUnit_blanks ht hne hws hsep]
  simp only
  rw [runTokens_args]
  rfl

/-! ## Main result -/

/-- A unit passes the same arguments as with one blank exactly if it has one blank, or
if no command function is called. -/
theorem run_cmd_args_blanks {t ws : CString} (ht : ∀ c ∈ t, CText.isBlank c = false)
    (hne : t ≠ []) (hws : ∀ c ∈ ws, CText.isBlank c = true) (hsep : ws ≠ []) (p : CString)
    (exec : H → Call → σ → Int × σ) (commands : T) (cmd_level : T) (cmd_stack : List CString)
    (state : σ) :
    argsPassed tables exec commands (t ++ (ws ++ p)) cmd_level cmd_stack state =
        argsPassed tables exec commands (t ++ ([' '] ++ p)) cmd_level cmd_stack state ↔
      ws.length = 1 ∨
        reached tables (if isRooted t then commands else cmd_level)
          (CText.tokens (CText.isChar ':') t) = [] := by
  have hone : ∀ c ∈ [' '], CText.isBlank c = true := List.forall_mem_singleton.mpr rfl
  rw [argsPassed_eq ht hne hws hsep, argsPassed_eq ht hne hone (List.cons_ne_nil _ _)]
  generalize reached tables _ _ = hs
  constructor
  · intro h
    cases hs with
    | nil => exact Or.inr rfl
    | cons func hs =>
      have harg : ws.drop 1 ++ p = [' '].drop 1 ++ p := (List.cons_eq_cons.mp h).1
      have hlen := congrArg List.length harg
      have hpos : 0 < ws.length := List.length_pos_iff.mpr hsep
      rw [List.length_append, List.length_append, List.length_drop] at hlen
      left
      simp at hlen
      omega
  · rintro (hlen | hnil)
    · obtain ⟨b, rfl⟩ := List.length_eq_one_iff.mp hlen
      rfl
    · rw [hnil]
      rfl

end

/-- With one tab, the name is passed as it is with one blank. -/
theorem run_cmd_args_blanks_tab :
    let exec : Handler → Call → Unit → Int × Unit := fun _ _ s => (0, s)
    argsPassed entries exec .commands ("SYS:NAME".toList ++ (['\t'] ++ "foo".toList)) .commands []
        () =
      argsPassed entries exec .commands ("SYS:NAME".toList ++ ([' '] ++ "foo".toList)) .commands []
        () := by
  intro exec
  have hword : ("SYS:NAME".toList.all fun c => !CText.isBlank c) = true := by decide +kernel
  have ht : ∀ c ∈ "SYS:NAME".toList, CText.isBlank c = false := fun c hc =>
    (Bool.not_eq_true' _).mp (List.all_eq_true.mp hword c hc)
  have hne : "SYS:NAME".toList ≠ [] := by decide +kernel
  have htab : ∀ c ∈ ['\t'], CText.isBlank c = true := List.forall_mem_singleton.mpr rfl
  exact (run_cmd_args_blanks ht hne htab (List.cons_ne_nil _ _) "foo".toList exec
    Table.commands Table.commands [] ()).mpr (Or.inl rfl)

/-- With two blanks, one of them becomes part of the name. -/
theorem run_cmd_args_two_blanks :
    let exec : Handler → Call → Unit → Int × Unit := fun _ _ s => (0, s)
    argsPassed entries exec .commands "SYS:NAME  foo".toList .commands [] () = [" foo".toList] ∧
      argsPassed entries exec .commands "SYS:NAME  foo".toList .commands [] () ≠
        argsPassed entries exec .commands "SYS:NAME foo".toList .commands [] () := by
  decide +kernel

end LcdPico
