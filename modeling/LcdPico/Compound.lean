import LcdPico.HostPlatform
import LcdPico.Settings
import Mathlib.Data.Bool.AllAny

/-!
# Compound commands (`process_command`)

`process_command` hands the command level on from one unit to the next, but gives
each unit an empty stack of header tokens. So in `P:a;b` the token `b` is looked up
in the table that `P` leads to, as in `:P:b`, while its command function sees no
header. The functions of the virtual sensors read their sensor number from the
header (`effectiveSensor`); they alone tell the difference.
-/

namespace LcdPico

/-! ## `process_command` -/

section

variable {T H σ : Type} (tables : T → List (Cmd T H)) (exec : H → Call → σ → Int × σ)

/-- One unit: the command level, `last_error_num`, and what the command functions
work on. -/
def processUnit (commands : T) (s : T × Int × σ) (cmd : CString) : T × Int × σ :=
  let cmd := CText.trim cmd
  if cmd = [] then s else runCmd tables exec commands cmd s.1 [] s.2.2

/-- `process_command`: `last_error_num`, and what the command functions work on. -/
def processCommand (commands : T) (command : CString) (s : Int × σ) : Int × σ :=
  ((CText.tokens (CText.isChar ';') command).foldl (processUnit tables exec commands)
    (commands, s)).2

/-- The table that a header path leads to. -/
def descend : T → List CString → Option T
  | level, [] => some level
  | level, s :: path =>
    (findCmd tables level s).bind fun e => e.subcmds.bind fun level => descend level path

end

/-- A token of a header. -/
structure IsToken (t : CString) : Prop where
  ne_nil : t ≠ []
  chars : ∀ c ∈ t, CText.isSpace c = false ∧ c ≠ ':' ∧ c ≠ ';'

/-- What follows a header: nothing, or a blank and the arguments. -/
structure IsTail (s : CString) : Prop where
  blank : ∀ c ∈ s.head?, CText.isBlank c = true
  chars : ';' ∉ s

/-- The arguments in the text after a header. -/
def tailArgs (tail : CString) : CString := (CText.trimEnd tail).drop 1

/-- The tokens with colons between them. -/
def joinHeader (toks : List CString) : CString := List.intercalate [':'] toks

/-- `P:a;b` -/
def compound (path : List CString) (a tailA b tailB : CString) : CString :=
  (joinHeader (path ++ [a]) ++ tailA) ++ ';' :: (b ++ tailB)

/-- `P:a;:P:b` -/
def spelledOut (path : List CString) (a tailA b tailB : CString) : CString :=
  (joinHeader (path ++ [a]) ++ tailA) ++ ';' :: (':' :: joinHeader (path ++ [b]) ++ tailB)

/-! ## Texts of units -/

theorem mem_joinHeader {toks : List CString} {c : Char} (h : c ∈ joinHeader toks) :
    c = ':' ∨ ∃ t ∈ toks, c ∈ t := by
  induction toks with
  | nil => cases h
  | cons t toks ih =>
    cases toks with
    | nil => exact .inr ⟨t, List.mem_cons_self .., by simpa [joinHeader] using h⟩
    | cons t' toks =>
      simp only [joinHeader, List.intercalate_cons_cons, List.mem_append, List.mem_singleton] at h
      rcases h with (h | h) | h
      · exact .inr ⟨t, List.mem_cons_self .., h⟩
      · exact .inl h
      · obtain h | ⟨u, hu, hc⟩ := ih h
        · exact .inl h
        · exact .inr ⟨u, List.mem_cons_of_mem _ hu, hc⟩

theorem tokens_joinHeader {toks : List CString} (h : ∀ t ∈ toks, IsToken t) (hne : toks ≠ []) :
    CText.tokens (CText.isChar ':') (joinHeader toks) = toks :=
  CText.tokens_intercalate
    (fun t ht => ⟨(h t ht).ne_nil, fun hc => ((h t ht).chars ':' hc).2.1 rfl⟩) hne

theorem joinHeader_ne_nil {toks : List CString} (h : ∀ t ∈ toks, IsToken t) (hne : toks ≠ []) :
    joinHeader toks ≠ [] := by
  intro hnil
  have htoks := tokens_joinHeader h hne
  rw [hnil, CText.tokens_nil] at htoks
  exact hne htoks.symm

/-- No character of a header is white space or ends the unit. -/
theorem joinHeader_chars {toks : List CString} (h : ∀ t ∈ toks, IsToken t) {c : Char}
    (hc : c ∈ joinHeader toks) : CText.isSpace c = false ∧ c ≠ ';' := by
  rcases mem_joinHeader hc with rfl | ⟨t, ht, hct⟩
  · exact ⟨by decide, by decide⟩
  · obtain ⟨hspace, -, hend⟩ := (h t ht).chars c hct
    exact ⟨hspace, hend⟩

/-- Two units with a semicolon between them. -/
theorem tokens_two_units {u v : CString} (hu : u ≠ [] ∧ ';' ∉ u) (hv : v ≠ [] ∧ ';' ∉ v) :
    CText.tokens (CText.isChar ';') (u ++ ';' :: v) = [u, v] := by
  have hwords : ∀ w ∈ [u, v], w ≠ [] ∧ ';' ∉ w := by simp [hu, hv]
  have h := CText.tokens_intercalate hwords (by simp)
  simpa [List.intercalate] using h

theorem isBlank_isSpace {c : Char} (h : CText.isBlank c = true) : CText.isSpace c = true := by
  simp only [CText.isBlank, Bool.or_eq_true, beq_iff_eq] at h
  rcases h with rfl | rfl <;> decide

/-- The header and the arguments of a unit. -/
theorem splitUnit_append {t tail : CString} (ht : ∀ c ∈ t, CText.isSpace c = false) (hne : t ≠ [])
    (htail : IsTail tail) :
    splitUnit (CText.trim (t ++ tail)) = some (t, tailArgs tail) := by
  have hword : ∀ c ∈ t, CText.isBlank c = false := by
    intro c hc
    by_contra h
    have hspace := isBlank_isSpace (Bool.not_eq_false _ ▸ h)
    rw [ht c hc] at hspace
    cases hspace
  have hend : ∀ c ∈ (CText.trimEnd tail).head?, CText.isBlank c = true := by
    intro c hc
    obtain ⟨s, hs⟩ := CText.trimEnd_isPrefix tail
    refine htail.blank c ?_
    rw [← hs, List.head?_append, hc]
    rfl
  have hlead : (t ++ CText.trimEnd tail).takeWhile CText.isBlank = [] := by
    obtain ⟨c, t, rfl⟩ := List.exists_cons_of_ne_nil hne
    simp [hword c (List.mem_cons_self ..)]
  rw [CText.trim_append ht hne, splitUnit, CText.strtok_append hword hne hend]
  simp only [Option.map_some, hlead, List.length_nil, Nat.zero_add, List.length_append, tailArgs]
  congr 2
  split_ifs with hlen
  · rw [← List.drop_drop, List.drop_left]
  · rw [List.drop_eq_nil_of_le (by omega)]

/-! ## What a unit does -/

section

variable {T H σ : Type} {tables : T → List (Cmd T H)} {exec : H → Call → σ → Int × σ}

/-- The path of a header only changes the level and the stack. -/
theorem runTokens_descend {arg : CString} {path : List CString} {b : CString} {level : T}
    {w : CmdWalk T σ} (h : descend tables w.cmd_level path = some level) :
    runTokens tables exec arg (path ++ [b]) w =
      runTokens tables exec arg [b]
        { w with cmd_level := level, cmd_stack := path.foldl pushCmd w.cmd_stack } := by
  induction path generalizing w with
  | nil =>
    obtain rfl := Option.some.inj h
    rfl
  | cons s path ih =>
    obtain ⟨e, hfind, hsub⟩ := Option.bind_eq_some_iff.mp h
    obtain ⟨next, hnext, hpath⟩ := Option.bind_eq_some_iff.mp hsub
    have hstep : runTokens tables exec arg (s :: (path ++ [b])) w =
        runTokens tables exec arg (path ++ [b])
          { w with cmd_level := next, cmd_stack := pushCmd w.cmd_stack s } := by
      obtain ⟨s', rest, hrest⟩ := List.exists_cons_of_ne_nil
        (List.append_ne_nil_of_right_ne_nil path (List.cons_ne_nil b []))
      rw [hrest]
      simp only [runTokens, hfind, hnext]
    rw [List.cons_append, hstep, ih hpath]
    rfl

/-- A unit whose header is a path and a command: the function of the command is
called with the path as its stack. -/
theorem runCmd_unit (exec : H → Call → σ → Int × σ) (commands cmd_level : T) {level : T}
    {t tail : CString} {path : List CString} {b : CString} (ht : ∀ c ∈ t, CText.isSpace c = false)
    (hne : t ≠ []) (htail : IsTail tail) (htoks : CText.tokens (CText.isChar ':') t = path ++ [b])
    (hpath : descend tables (if isRooted t then commands else cmd_level) path = some level)
    {e : Cmd T H} {func : H} (hfind : findCmd tables level b = some e) (hfunc : e.func = some func)
    (s : σ) :
    runCmd tables exec commands (CText.trim (t ++ tail)) cmd_level [] s =
      let call : Call :=
        { cmd := b, args := tailArgs tail, query := isQuery b, prevCmd := path.foldl pushCmd [] }
      (level, errorNum (exec func call s).1, (exec func call s).2) := by
  have hstack : (startWalk commands t cmd_level [] s).cmd_stack = [] := by
    simp [startWalk]
  have hlevel : descend tables (startWalk commands t cmd_level [] s).cmd_level path = some level :=
    hpath
  simp only [runCmd, splitUnit_append ht hne htail, htoks]
  rw [runTokens_descend hlevel, hstack]
  simp only [runTokens, hfind, hfunc]
  cases e.subcmds <;> rfl

end

/-! ## The depth of the command tree -/

/-- How many levels of tables lie below a table. -/
def Table.rank : Table → Nat
  | .commands => 3
  | .configCommands | .measureCommands | .systemCommands | .writeCommands => 2
  | .httpMaskCommands | .sshPkeyCommands | .sshPubkeyCommands => 0
  | _ => 1

theorem entries_rank (level : Table) : ∀ e ∈ entries level, ∀ next ∈ e.subcmds,
    next.rank < level.rank := by
  cases level <;> decide

/-- The common commands are in the root table alone. -/
theorem entries_noStar {level : Table} (h : level ≠ .commands) : ∀ e ∈ entries level,
    0 < e.minMatch ∧ (e.cmd.map Char.toLower).head? ≠ some '*' := by
  cases level <;> first | exact absurd rfl h | decide +kernel

theorem descend_rank {level next : Table} {path : List CString}
    (h : descend entries level path = some next) : path.length + next.rank ≤ level.rank := by
  induction path generalizing level with
  | nil =>
    obtain rfl := Option.some.inj h
    exact Nat.le_of_eq (Nat.zero_add _)
  | cons s path ih =>
    obtain ⟨e, hfind, hsub⟩ := Option.bind_eq_some_iff.mp h
    obtain ⟨below, hbelow, hpath⟩ := Option.bind_eq_some_iff.mp hsub
    have hlt := entries_rank level e (List.mem_of_find?_eq_some hfind) below hbelow
    have hle := ih hpath
    rw [List.length_cons]
    omega

/-- A path of the command tree fits into the stack. -/
theorem foldl_pushCmd (stack : List CString) {path : List CString}
    (h : stack.length + path.length ≤ MAX_CMD_DEPTH) :
    path.foldl pushCmd stack = stack ++ path := by
  induction path generalizing stack with
  | nil => exact (List.append_nil stack).symm
  | cons s path ih =>
    rw [List.length_cons] at h
    have hpush : pushCmd stack s = stack ++ [s] := if_pos (by omega)
    rw [List.foldl_cons, hpush, ih _ (by simp; omega), List.append_assoc]
    rfl

/-- A command below the root does not start at the root by itself. -/
theorem isRooted_eq_false {level : Table} (hlevel : level ≠ .commands) {b : CString}
    (hb : IsToken b) {e : Cmd Table Handler} (hfind : findCmd entries level b = some e) :
    isRooted b = false := by
  obtain ⟨hmin, hstar⟩ := entries_noStar hlevel e (List.mem_of_find?_eq_some hfind)
  have hmatch : e.isMatch b = true := by
    rw [findCmd] at hfind
    exact List.find?_some (p := fun e : Cmd Table Handler => e.isMatch b) hfind
  obtain ⟨c, b, rfl⟩ := List.exists_cons_of_ne_nil hb.ne_nil
  have hcolon := (hb.chars c (List.mem_cons_self ..)).2.1
  have hc : c ≠ '*' := by
    rintro rfl
    obtain ⟨m, hm⟩ := Nat.exists_eq_succ_of_ne_zero (Nat.ne_of_gt hmin)
    simp only [Cmd.isMatch, CText.strncaseeq, hm, beq_iff_eq] at hmatch
    cases hcmd : e.cmd with
    | nil => simp [hcmd] at hmatch
    | cons d cmd =>
      simp only [hcmd, List.take_succ_cons, List.map_cons, List.cons.injEq] at hmatch
      refine hstar ?_
      rw [hcmd, List.map_cons, List.head?_cons, ← hmatch.1]
      rfl
  simp [isRooted, hcolon, hc]

/-! ## The number of the virtual sensor -/

section Sensors

variable {F D W : Type} [Inhabited F]

/-- What the command functions work on: the configuration, and the rest. -/
structure System (F W : Type) where
  conf : SystemConfig F
  world : W

/-- The functions that query a virtual sensor. -/
def queryOf : Handler → Option (CmdFunc F)
  | .cmdVsensorTemp => some cmdVsensorTemp
  | .cmdVsensorHumidity => some cmdVsensorHumidity
  | .cmdVsensorPressure => some cmdVsensorPressure
  | _ => none

/-- The command functions, by name. `other` are those that neither set the
configuration nor query a virtual sensor; they do not read the stack. -/
def exec (P : Platform F D) (now : W → UInt64)
    (other : Handler → CString → CString → Bool → System F W → Int × System F W) (h : Handler)
    (call : Call) (s : System F W) : Int × System F W :=
  match (setterOf P (now s.world) h).or (queryOf h) with
  | some f =>
    let (res, conf) := f call s.conf
    (res, { s with conf := conf })
  | none => other h call.cmd call.args call.query s

/-- Where a command function takes the number of its virtual sensor from. -/
inductive SensorNumber where
  /-- the last token of the header before the command -/
  | header
  /-- that token if it is VSENSORx, else the command itself -/
  | headerOrOwn
  /-- it acts upon none -/
  | unused
deriving DecidableEq

/-- The functions that return at once for a query, or for a command that is none,
do not get to the number. -/
def sensorNumber (h : Handler) (query : Bool) : SensorNumber :=
  match h, query with
  | .cmdVsensorName, _ | .cmdVsensorSource, _ => .header
  | .cmdVsensorHumidity, true | .cmdVsensorPressure, true => .header
  | .cmdVsensorTemp, true | .cmdVsensorWrite, false => .headerOrOwn
  | _, _ => .unused

/-- The sensor that a command function acts upon. -/
def effectiveSensor (h : Handler) (call : Call) : Option Nat :=
  match sensorNumber h call.query with
  | .header => sensorIn (getPrevCmdIndex call.prevCmd 0 - 1)
  | .headerOrOwn => sensorIn (headerSensor call)
  | .unused => none

/-- A command function reads the stack only for the sensor it acts upon. -/
theorem exec_congr (P : Platform F D) (now : W → UInt64)
    (other : Handler → CString → CString → Bool → System F W → Int × System F W) {h : Handler}
    {call : Call} (stack : List CString)
    (heff : effectiveSensor h call = effectiveSensor h { call with prevCmd := stack })
    (s : System F W) :
    exec P now other h call s = exec P now other h { call with prevCmd := stack } s := by
  obtain ⟨cmd, args, query, prev⟩ := call
  cases h <;> try rfl
  case cmdVsensorName =>
    simp only [exec, setterOf, Option.some_or, cmdVsensorName]
    simp only [effectiveSensor, sensorNumber] at heff
    rw [heff]
    rfl
  case cmdVsensorSource =>
    simp only [exec, setterOf, Option.some_or, cmdVsensorSource]
    simp only [effectiveSensor, sensorNumber] at heff
    rw [heff]
  case cmdVsensorWrite =>
    cases query with
    | true => rfl
    | false =>
      simp only [exec, setterOf, Option.some_or, cmdVsensorWrite]
      simp only [effectiveSensor, sensorNumber] at heff
      rw [heff]
  all_goals
    cases query with
    | false => rfl
    | true =>
      simp only [exec, setterOf, queryOf, Option.none_or, cmdVsensorTemp, cmdVsensorPressure,
        cmdVsensorHumidity]
      simp only [effectiveSensor, sensorNumber] at heff
      rw [heff]

/-- The command `b` takes its sensor number from the header, which ends in `p`,
and without the header it acts upon another sensor, or upon none. -/
def LosesSensor (h : Handler) (p b : CString) : Prop :=
  match sensorNumber h (isQuery b) with
  | .header => sensorIn (getCmdIndex p - 1) ≠ none
  | .headerOrOwn =>
    CText.strncaseeq p "vsensor".toList 7 = true ∧
      sensorIn (getCmdIndex p - 1) ≠ sensorIn (getCmdIndex b - 1)
  | .unused => False

theorem getPrevCmd_last {path : List CString} (hne : path ≠ []) :
    getPrevCmd path 0 = path.getLast hne ∧
      getPrevCmdIndex path 0 = getCmdIndex (path.getLast hne) := by
  have hlen := List.length_pos_iff.mpr hne
  have hlast : path.getD (path.length - 0 - 1) [] = path.getLast hne := by
    rw [List.getLast_eq_getElem, List.getD_eq_getElem?_getD, Nat.sub_zero,
      List.getElem?_eq_getElem (by omega)]
    rfl
  constructor
  · rw [getPrevCmd, if_neg (by omega), hlast]
  · rw [getPrevCmdIndex, if_neg (by omega), hlast]

/-- An empty stack and the header give the same sensor, unless the number is lost. -/
theorem effectiveSensor_eq_iff (h : Handler) (b args : CString) {path : List CString}
    (hne : path ≠ []) :
    effectiveSensor h ⟨b, args, isQuery b, []⟩ = effectiveSensor h ⟨b, args, isQuery b, path⟩ ↔
      ¬ LosesSensor h (path.getLast hne) b := by
  obtain ⟨hcmd, hidx⟩ := getPrevCmd_last hne
  have hnone : sensorIn (getPrevCmdIndex [] 0 - 1) = none := by decide
  have hempty : CText.strncaseeq (getPrevCmd [] 0) "vsensor".toList 7 = false := by decide
  simp only [effectiveSensor, LosesSensor]
  cases sensorNumber h (isQuery b) with
  | unused => simp
  | header =>
    simp only [hnone, hidx, ne_eq, not_not]
    exact eq_comm
  | headerOrOwn =>
    simp only [headerSensor, hempty, hcmd, hidx, Bool.false_eq_true, if_false]
    split_ifs with hv
    · constructor
      · intro h hl
        exact hl.2 h.symm
      · intro h
        by_contra hown
        exact h ⟨hv, fun heq => hown heq.symm⟩
    · exact ⟨fun _ hl => hv hl.1, fun _ => rfl⟩

/-! ## Main result -/

/-- The command functions called, each with its sensor, next to what they do. -/
def withSensor {σ : Type} (exec : Handler → Call → σ → Int × σ) (h : Handler) (call : Call)
    (s : σ × List (Handler × Option Nat)) : Int × σ × List (Handler × Option Nat) :=
  let (res, state) := exec h call s.1
  (res, state, s.2 ++ [(h, effectiveSensor h call)])

/-- What `process_command` does: `last_error_num`, the configuration after it, and
the command functions called with their sensors. -/
def outcome (P : Platform F D) (now : W → UInt64)
    (other : Handler → CString → CString → Bool → System F W → Int × System F W)
    (command : CString) (err : Int) (s : System F W) :
    Int × SystemConfig F × List (Handler × Option Nat) :=
  let (err, s, calls) :=
    processCommand entries (withSensor (exec P now other)) .commands command (err, s, [])
  (err, s.conf, calls)

/-- Two units run one after the other, the second one at the level that the first
one leaves. -/
theorem processCommand_two_units {T H σ : Type} {tables : T → List (Cmd T H)}
    {exec : H → Call → σ → Int × σ} {commands : T} {t t' tail tail' : CString}
    (ht : ∀ c ∈ t, CText.isSpace c = false ∧ c ≠ ';') (hne : t ≠ []) (htail : IsTail tail)
    (ht' : ∀ c ∈ t', CText.isSpace c = false ∧ c ≠ ';') (hne' : t' ≠ []) (htail' : IsTail tail')
    (s : Int × σ) :
    processCommand tables exec commands ((t ++ tail) ++ ';' :: (t' ++ tail')) s =
      let first := runCmd tables exec commands (CText.trim (t ++ tail)) commands [] s.2
      (runCmd tables exec commands (CText.trim (t' ++ tail')) first.1 [] first.2.2).2 := by
  have hunit : ∀ t tail : CString, (∀ c ∈ t, CText.isSpace c = false ∧ c ≠ ';') → t ≠ [] →
      IsTail tail → (t ++ tail ≠ [] ∧ ';' ∉ t ++ tail) ∧ CText.trim (t ++ tail) ≠ [] := by
    intro t tail ht hne htail
    rw [CText.trim_append (fun c hc => (ht c hc).1) hne]
    refine ⟨⟨by simp [hne], ?_⟩, by simp [hne]⟩
    rw [List.mem_append]
    rintro (h | h)
    · exact (ht _ h).2 rfl
    · exact htail.chars h
  obtain ⟨hu, htrim⟩ := hunit t tail ht hne htail
  obtain ⟨hu', htrim'⟩ := hunit t' tail' ht' hne' htail'
  simp only [processCommand, tokens_two_units hu hu', List.foldl_cons, List.foldl_nil, processUnit,
    htrim, htrim', if_false]

/-- **A compound command is what it spells out**, unless its second command takes
a sensor number from the header. The path may be any below the root, the commands
any that it leads to, with any arguments. -/
theorem compound_command (P : Platform F D) (now : W → UInt64)
    (other : Handler → CString → CString → Bool → System F W → Int × System F W)
    {path : List CString} (hne : path ≠ []) {level : Table}
    (hpath : descend entries .commands path = some level) {a b : CString}
    {ea eb : Cmd Table Handler} {func func' : Handler} (ha : findCmd entries level a = some ea)
    (hfunc : ea.func = some func)
    (hb : findCmd entries level b = some eb) (hfunc' : eb.func = some func')
    (htokens : ∀ t ∈ path ++ [a, b], IsToken t) {tailA tailB : CString} (htailA : IsTail tailA)
    (htailB : IsTail tailB) (err : Int) (s : System F W) :
    outcome P now other (compound path a tailA b tailB) err s =
        outcome P now other (spelledOut path a tailA b tailB) err s ↔
      ¬ LosesSensor func' (path.getLast hne) b := by
  have hrank := descend_rank hpath
  have hlevel : level ≠ .commands := by
    rintro rfl
    have := List.length_pos_iff.mpr hne
    omega
  have hstack : path.foldl pushCmd [] = path := by
    have hdepth : path.length ≤ MAX_CMD_DEPTH := by
      have : path.length ≤ 3 := Nat.le_of_add_right_le hrank
      exact this.trans (by decide)
    exact foldl_pushCmd [] (by simpa using hdepth)
  have hpa : ∀ t ∈ path ++ [a], IsToken t := fun t ht => htokens t (by simp at ht ⊢; tauto)
  have hpb : ∀ t ∈ path ++ [b], IsToken t := fun t ht => htokens t (by simp at ht ⊢; tauto)
  have htokb : IsToken b := htokens b (by simp)
  -- without a leading `:` or `*`, the second command is looked up where the first one was
  have hrooted : isRooted b = false := isRooted_eq_false hlevel htokb hb
  have hbtoks : CText.tokens (CText.isChar ':') b = [] ++ [b] := by
    refine CText.tokens_word (fun c hc => ?_) htokb.ne_nil
    simpa [CText.isChar] using (htokb.chars c hc).2.1
  have hrootToks : CText.tokens (CText.isChar ':') (':' :: joinHeader (path ++ [b])) =
      path ++ [b] := by
    rw [CText.tokens_cons_delim rfl, tokens_joinHeader hpb (by simp)]
  have hrootChars : ∀ c ∈ ':' :: joinHeader (path ++ [b]), CText.isSpace c = false ∧ c ≠ ';' := by
    rintro c (_ | ⟨_, hc⟩)
    · exact ⟨by decide, by decide⟩
    · exact joinHeader_chars hpb hc
  have hbChars : ∀ c ∈ b, CText.isSpace c = false ∧ c ≠ ';' := fun c hc =>
    ⟨(htokb.chars c hc).1, (htokb.chars c hc).2.2⟩
  -- the first unit is the same, and leaves the level that the path leads to
  obtain ⟨err₁, s₁, calls₁, hfirst⟩ : ∃ err₁ s₁ calls₁,
      runCmd entries (withSensor (exec P now other)) .commands
        (CText.trim (joinHeader (path ++ [a]) ++ tailA)) .commands [] (s, []) =
          (level, err₁, s₁, calls₁) :=
    ⟨_, _, _, runCmd_unit _ _ _ (fun c hc => (joinHeader_chars hpa hc).1)
      (joinHeader_ne_nil hpa (by simp)) htailA (tokens_joinHeader hpa (by simp))
      (by rw [ite_self]; exact hpath) ha hfunc (s, [])⟩
  have hstay : descend entries (if isRooted b then .commands else level) [] = some level := by
    rw [hrooted]
    rfl
  have hcompound := runCmd_unit (withSensor (exec P now other)) .commands level
    (fun c hc => (hbChars c hc).1) htokb.ne_nil htailB hbtoks hstay hb hfunc' (s₁, calls₁)
  have hspelled := runCmd_unit (withSensor (exec P now other)) .commands level
    (fun c hc => (hrootChars c hc).1) (List.cons_ne_nil _ _) htailB hrootToks hpath hb hfunc'
    (s₁, calls₁)
  have heff := effectiveSensor_eq_iff func' b (tailArgs tailB) hne
  rw [hstack] at hspelled
  rw [outcome, outcome, compound, spelledOut,
    processCommand_two_units (fun c hc => joinHeader_chars hpa hc) (joinHeader_ne_nil hpa (by simp))
      htailA hbChars htokb.ne_nil htailB,
    processCommand_two_units (fun c hc => joinHeader_chars hpa hc) (joinHeader_ne_nil hpa (by simp))
      htailA hrootChars (List.cons_ne_nil _ _) htailB]
  simp only [hfirst, hcompound, hspelled]
  rw [← heff]
  constructor
  · intro h
    -- the sensors that the outcome records are those the commands act upon
    have hcalls := congrArg (fun o => o.2.2) h
    simpa [withSensor] using hcalls
  · intro h
    have hexec := exec_congr P now other path h s₁
    simp only [withSensor, List.foldl_nil, h, hexec]

end Sensors

/-- Two settings below `SYS`, which no sensor number is read for. -/
theorem compound_command_sys :
    let s : System ℚ Unit := ⟨clearConfig hostPlatform, ()⟩
    let run := fun command =>
      outcome hostPlatform (fun _ => 0) (fun _ _ _ _ s => (0, s)) command 0 s
    run "SYS:NAME lcd;ECHO 1".toList = run "SYS:NAME lcd;:SYS:ECHO 1".toList := by
  intro s run
  have hpath : descend entries .commands ["SYS".toList] = some .systemCommands := by decide +kernel
  have hname : findCmd entries .systemCommands "NAME".toList =
      some (cmd "NAME" 4 none (some .cmdName)) := by decide +kernel
  have hecho : findCmd entries .systemCommands "ECHO".toList =
      some (cmd "ECHO" 4 none (some .cmdEcho)) := by decide +kernel
  have htokens : ∀ t ∈ ["SYS".toList] ++ ["NAME".toList, "ECHO".toList], IsToken t := by
    intro t ht
    simp only [List.cons_append, List.nil_append, List.mem_cons, List.not_mem_nil, or_false] at ht
    rcases ht with rfl | rfl | rfl <;>
      exact ⟨by decide, List.all_iff_forall_prop.mp (by decide)⟩
  have htailA : IsTail " lcd".toList := ⟨by rintro c ⟨⟩; decide, by decide⟩
  have htailB : IsTail " 1".toList := ⟨by rintro c ⟨⟩; decide, by decide⟩
  exact (compound_command hostPlatform (fun _ => 0) (fun _ _ _ _ s => (0, s))
    (List.cons_ne_nil _ []) hpath hname rfl hecho rfl htokens htailA htailB 0 s).mpr id

/-- The second name is set for VSENSOR2 when it is spelled out, and refused in the
compound command. -/
theorem compound_command_vsensor :
    let s : System ℚ Unit := ⟨clearConfig hostPlatform, ()⟩
    let run := fun command =>
      outcome hostPlatform (fun _ => 0) (fun _ _ _ _ s => (0, s)) command 0 s
    let path := ["CONF".toList, "VSENSOR2".toList]
    (run (compound path "NAME".toList " a".toList "NAME".toList " b".toList)).1 = -100 ∧
      (run (compound path "NAME".toList " a".toList "NAME".toList " b".toList)).2.2 =
        [(.cmdVsensorName, some 1), (.cmdVsensorName, none)] ∧
      (run (spelledOut path "NAME".toList " a".toList "NAME".toList " b".toList)).1 = 0 ∧
      (run (spelledOut path "NAME".toList " a".toList "NAME".toList " b".toList)).2.2 =
        [(.cmdVsensorName, some 1), (.cmdVsensorName, some 1)] ∧
      ¬ run "CONF:VSENSOR2:NAME a;NAME b".toList =
        run "CONF:VSENSOR2:NAME a;:CONF:VSENSOR2:NAME b".toList := by
  intro s run path
  have herr : (run "CONF:VSENSOR2:NAME a;NAME b".toList).1 = -100 := by decide +kernel
  have hok : (run "CONF:VSENSOR2:NAME a;:CONF:VSENSOR2:NAME b".toList).1 = 0 := by decide +kernel
  refine ⟨herr, by decide +kernel, hok, by decide +kernel, fun h => ?_⟩
  rw [h, hok] at herr
  cases herr

end LcdPico
