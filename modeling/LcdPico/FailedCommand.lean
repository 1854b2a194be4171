import LcdPico.HostPlatform
import LcdPico.Settings

/-!
# A failed command and the configuration

Almost every command function decides on its result before it stores anything, or
stores nothing it reports as an error. `KeepsOnError` says so of a setting helper
and of a command function alike, and goes from the helper to the functions that
apply it (`KeepsOnError.command`). The exception is `CONF:VSENSORx:SOURCE internal`,
which stores its parameters and then returns 2 (`storesAndFails`).
-/

namespace LcdPico

/-- An error leaves the variable as it is. -/
def KeepsOnError {V : Type} (setting : Call → V → Int × V) : Prop :=
  ∀ call var, (setting call var).1 ≠ 0 → (setting call var).2 = var

/-! ## Setting helpers -/

section Helpers

variable {F D : Type} {P : Platform F D}

theorem stringSetting_keeps {size : Nat} (valid : Option (CString → Bool)) :
    KeepsOnError fun call (var : CStr size) => stringSetting call var valid := by
  intro call var h
  simp only [stringSetting] at h ⊢
  split_ifs at h ⊢ <;> first | rfl | exact absurd rfl h

theorem bitmask16Setting_keeps (len base : Nat) :
    KeepsOnError fun call mask => bitmask16Setting call mask len base := by
  intro call mask h
  simp only [bitmask16Setting] at h ⊢
  split_ifs at h ⊢ with hq
  · rfl
  · cases hmask : strToBitmask call.args len base with
    | none => rfl
    | some new =>
      rw [hmask] at h
      exact absurd rfl h

theorem uintSetting_keeps {U : Type} [DecidableEq U] [LE U] [DecidableLE U] (ofInt : Int → U)
    (min_val max_val : U) :
    KeepsOnError fun call var => uintSetting call ofInt var min_val max_val := by
  intro call var h
  simp only [uintSetting] at h ⊢
  split_ifs at h ⊢ with hq
  · rfl
  · cases hv : strToInt call.args 10 with
    | none => rfl
    | some v =>
      simp only [hv] at h ⊢
      split_ifs at h ⊢ <;> first | rfl | exact absurd rfl h

theorem floatSetting_keeps (min_val max_val : F) :
    KeepsOnError fun call var => floatSetting call P var min_val max_val := by
  intro call var h
  simp only [floatSetting] at h ⊢
  split_ifs at h ⊢ with hq
  · rfl
  · cases hv : P.strtof call.args with
    | none => rfl
    | some val =>
      simp only [hv] at h ⊢
      split_ifs at h ⊢ <;> first | rfl | exact absurd rfl h

theorem boolSetting_keeps : KeepsOnError boolSetting := by
  intro call var h
  simp only [boolSetting] at h ⊢
  split_ifs at h ⊢ <;> first | rfl | exact absurd rfl h

theorem passwordSetting_keeps {size : Nat} :
    KeepsOnError fun call (var : CStr size) => passwordSetting P call var := by
  intro call var h
  simp only [passwordSetting] at h ⊢
  split_ifs at h ⊢ <;> first | rfl | exact absurd rfl h

theorem ipChange_keeps : KeepsOnError fun call ip => ipChange call P ip := by
  intro call ip h
  simp only [ipChange] at h ⊢
  split_ifs at h ⊢ with hq
  · rfl
  · cases hip : P.ipaddrAton call.args with
    | none => rfl
    | some tmpip =>
      rw [hip] at h
      exact absurd rfl h

/-- The count never goes down. -/
theorem listLoop_count {α : Type} {n : Nat} (parse : CString → Option α) (isLast : α → Bool)
    (toks : List CString) (list : CArray α n) (idx : Nat) :
    idx ≤ (listLoop parse isLast toks list idx).2 := by
  induction toks generalizing list idx with
  | nil => exact Nat.le_refl idx
  | cons t toks ih =>
    rw [listLoop]
    split_ifs with hidx
    · cases parse (CText.trim t) with
      | none => exact ih list idx
      | some x =>
        dsimp only
        split_ifs
        · exact Nat.le_succ idx
        · exact Nat.le_of_succ_le (ih _ _)
    · exact Nat.le_refl idx

/-- As long as no element has been read, the list is not written to. -/
theorem listLoop_keeps {α : Type} {n : Nat} (parse : CString → Option α) (isLast : α → Bool)
    (toks : List CString) (list : CArray α n) (h : (listLoop parse isLast toks list 0).2 = 0) :
    (listLoop parse isLast toks list 0).1 = list := by
  induction toks with
  | nil => rfl
  | cons t toks ih =>
    rw [listLoop] at h ⊢
    split_ifs at h ⊢ with hidx
    · cases hx : parse (CText.trim t) with
      | none =>
        simp only [hx] at h ⊢
        exact ih h
      | some x =>
        simp only [hx] at h
        split_ifs at h
        have hcount := listLoop_count parse isLast toks (list.wr 0 x) (0 + 1)
        omega
    · rfl

/-- A list is parsed into the live configuration, but an error is reported only
when nothing was parsed. -/
theorem listChange_keeps {α : Type} {n : Nat} (parse : CString → Option α) (isLast : α → Bool)
    (zero : α) :
    KeepsOnError fun call (list : CArray α n) => listChange call parse isLast zero list := by
  intro call list h
  simp only [listChange] at h ⊢
  split_ifs at h ⊢ with hq hidx
  · rfl
  · exact listLoop_keeps parse isLast _ _ hidx
  · exact absurd rfl h

end Helpers

/-! ## Command functions -/

section Commands

variable {F D : Type} {P : Platform F D}

/-- A helper that keeps its variable makes a command that keeps the configuration. -/
theorem KeepsOnError.command {V : Type} {get : SystemConfig F → V}
    {set : SystemConfig F → V → SystemConfig F} {setting : Call → V → Int × V}
    (h : KeepsOnError setting) (hset : ∀ conf, set conf (get conf) = conf) :
    KeepsOnError (onVar get set setting) := by
  intro call conf hres
  have hvar : (setting call (get conf)).2 = get conf := h call _ hres
  calc (onVar get set setting call conf).2 = set conf (setting call (get conf)).2 := rfl
    _ = conf := by rw [hvar, hset]

theorem cmdLed_keeps : KeepsOnError (cmdLed (F := F)) := by
  intro call conf h
  simp only [cmdLed] at h ⊢
  split_ifs at h ⊢ with hq
  · rfl
  · cases hmode : strToInt call.args 10 with
    | none => rfl
    | some mode =>
      simp only [hmode] at h
      split_ifs at h <;> exact absurd rfl h

theorem cmdWifiAuthMode_keeps : KeepsOnError (cmdWifiAuthMode (F := F)) := by
  intro call conf h
  simp only [cmdWifiAuthMode] at h ⊢
  split_ifs at h ⊢ <;> first | rfl | exact absurd rfl h

theorem cmdSshPubkeyAdd_keeps : KeepsOnError (cmdSshPubkeyAdd P) := by
  intro call conf h
  simp only [cmdSshPubkeyAdd] at h ⊢
  split_ifs at h ⊢ with hq
  · rfl
  · cases hkey : pubkeyArgs P call.args with
    | none => rfl
    | some key =>
      simp only [hkey] at h ⊢
      cases hslot : firstFreeSlot conf.sshPubKeys with
      | none => rfl
      | some idx =>
        rw [hslot] at h
        exact absurd rfl h

theorem cmdSshPubkeyDel_keeps : KeepsOnError (cmdSshPubkeyDel (F := F)) := by
  intro call conf h
  simp only [cmdSshPubkeyDel] at h ⊢
  split_ifs at h ⊢ with hq
  · rfl
  · cases hidx : strToInt call.args 10 with
    | none => rfl
    | some idx =>
      simp only [hidx] at h ⊢
      split_ifs at h ⊢ <;> first | rfl | exact absurd rfl h

/-! ## The source of a virtual sensor -/

/-- The offset and the coefficient in `internal,<offset>,<coefficient>`. -/
def internalArgs (P : Platform F D) (args : CString) : Option (F × F) :=
  match CText.tokens (CText.isChar ',') args with
  | tok :: toks =>
    if str2vsmode tok = .internal then
      match toks[0]?.bind P.strtof, toks[1]?.bind P.strtof with
      | some temp_o, some temp_c =>
        if P.floatNe temp_c P.floatZero then some (temp_o, temp_c) else none
      | _, _ => none
    else none
  | [] => none

/-- What an error leaves of the sensor: `internal` with its parameters is stored
all the same. -/
theorem sourceSetting_of_error {args : CString} {v : VsensorInput F}
    (h : (sourceSetting P args v).1 ≠ 0) :
    (sourceSetting P args v).2 =
      match internalArgs P args with
      | some (temp_o, temp_c) =>
        { v with mode := .internal, tempOffset := temp_o, tempCoefficient := temp_c }
      | none => v := by
  simp only [sourceSetting, internalArgs] at h ⊢
  cases htoks : CText.tokens (CText.isChar ',') args with
  | nil => rfl
  | cons tok toks =>
    simp only [htoks] at h ⊢
    cases hmode : str2vsmode tok <;> simp only [hmode, reduceCtorEq, if_false, if_true] at h ⊢
    case manual | i2c => split at h <;> grind
    case internal =>
      cases toks[0]?.bind P.strtof <;> cases toks[1]?.bind P.strtof <;> try rfl
      dsimp only
      split_ifs <;> rfl

/-- `internal` with its parameters is always an error. -/
theorem sourceSetting_of_internalArgs {args : CString} (v : VsensorInput F) {oc : F × F}
    (h : internalArgs P args = some oc) : (sourceSetting P args v).1 = 2 := by
  simp only [internalArgs, sourceSetting] at h ⊢
  cases htoks : CText.tokens (CText.isChar ',') args with
  | nil => rfl
  | cons tok toks =>
    simp only [htoks] at h ⊢
    split_ifs at h with hmode
    simp only [hmode]
    split <;> first | rfl | split_ifs <;> rfl

/-! ## Main result -/

variable [Inhabited F]

theorem cmdVsensorName_keeps : KeepsOnError (cmdVsensorName (F := F)) := by
  intro call conf h
  simp only [cmdVsensorName] at h ⊢
  cases hsensor : sensorIn (getPrevCmdIndex call.prevCmd 0 - 1) with
  | none => rfl
  | some idx =>
    simp only [hsensor] at h ⊢
    have hname := stringSetting_keeps none call (conf.vsensors.rd idx).name h
    rw [hname, CArray.wr_rd_self]

theorem cmdVsensorWrite_keeps (now : UInt64) : KeepsOnError (cmdVsensorWrite P now) := by
  intro call conf h
  simp only [cmdVsensorWrite] at h ⊢
  split_ifs at h ⊢ with hq
  · rfl
  · cases hsensor : sensorIn (headerSensor call) with
    | none => rfl
    | some sensor =>
      simp only [hsensor] at h ⊢
      split_ifs at h ⊢ with hmode
      · cases hval : P.strtof call.args with
        | none => rfl
        | some val =>
          rw [hval] at h
          exact absurd rfl h
      · rfl

/-- Every command that sets the configuration, but the source of a virtual sensor. -/
theorem setterOf_keeps {now : UInt64} {h : Handler} {f : CmdFunc F}
    (hf : setterOf P now h = some f) (hsource : h ≠ .cmdVsensorSource) : KeepsOnError f := by
  cases h <;> simp only [setterOf, reduceCtorEq, Option.some.injEq] at hf <;> subst hf
  case cmdVsensorSource => exact absurd rfl hsource
  case cmdVsensorName => exact cmdVsensorName_keeps
  case cmdVsensorWrite => exact cmdVsensorWrite_keeps now
  case cmdLed => exact cmdLed_keeps
  case cmdAdcVref => exact (floatSetting_keeps _ _).command fun _ => rfl
  case cmdI2cSpeed => exact (uintSetting_keeps _ _ _).command fun _ => rfl
  case cmdWifiAuthMode => exact cmdWifiAuthMode_keeps
  case cmdSshPubkeyAdd => exact cmdSshPubkeyAdd_keeps
  case cmdSshPubkeyDel => exact cmdSshPubkeyDel_keeps
  case cmdHttpMaskVsensor => exact (bitmask16Setting_keeps _ _).command fun _ => rfl
  case cmdBacklight | cmdWifiMode => exact (uintSetting_keeps _ _ _).command fun _ => rfl
  case cmdSshPort | cmdTelnetPort | cmdHttpPort | cmdHttpTlsport =>
    exact (uintSetting_keeps _ _ _).command fun _ => rfl
  case cmdEcho | cmdWifiSyslogClient | cmdWifiNtpClient | cmdSshAuth | cmdSshServer |
      cmdTelnetAuth | cmdTelnetRawmode | cmdTelnetServer | cmdHttpServer =>
    exact boolSetting_keeps.command fun _ => rfl
  case cmdWifiIp | cmdWifiNetmask | cmdWifiGateway | cmdWifiSyslog =>
    exact ipChange_keeps.command fun _ => rfl
  case cmdWifiDns | cmdWifiNtp | cmdSshAcls | cmdTelnetAcls =>
    exact (listChange_keeps _ _ _).command fun _ => rfl
  case cmdName | cmdTimezone | cmdWifiSsid | cmdWifiCountry | cmdWifiPassword | cmdWifiHostname |
      cmdSshUser | cmdTelnetUser =>
    exact (stringSetting_keeps _).command fun _ => rfl
  case cmdSshPass | cmdTelnetPass => exact passwordSetting_keeps.command fun _ => rfl

/-- The command is `CONF:VSENSORx:SOURCE internal,<offset>,<coefficient>`, and
the sensor has another mode or other parameters. -/
def StoresAndFails (P : Platform F D) (h : Handler) (call : Call) (conf : SystemConfig F) : Prop :=
  h = .cmdVsensorSource ∧ call.query = false ∧ ∃ sensor temp_o temp_c,
    sensorIn (getPrevCmdIndex call.prevCmd 0 - 1) = some sensor ∧
    internalArgs P call.args = some (temp_o, temp_c) ∧
    ¬ ((conf.vsensors.rd sensor).mode = .internal ∧
      (conf.vsensors.rd sensor).tempOffset = temp_o ∧
      (conf.vsensors.rd sensor).tempCoefficient = temp_c)

/-- What is stored for a sensor is the sensor as it was, or an `internal` source. -/
theorem cmdVsensorSource_keeps_iff (call : Call) (conf : SystemConfig F) :
    ((cmdVsensorSource P call conf).1 ≠ 0 → (cmdVsensorSource P call conf).2 = conf) ↔
      ¬ StoresAndFails P .cmdVsensorSource call conf := by
  simp only [cmdVsensorSource, StoresAndFails]
  cases hs : sensorIn (getPrevCmdIndex call.prevCmd 0 - 1) with
  | none => simp
  | some sensor =>
    cases hq : call.query with
    | true => simp
    | false =>
      have hconf : ∀ v, { conf with vsensors := conf.vsensors.wr sensor v } = conf ↔
          v = conf.vsensors.rd sensor := by
        intro v
        rw [← CArray.wr_eq_self_iff conf.vsensors (sensorIn_lt hs)]
        exact ⟨congrArg SystemConfig.vsensors, fun h => by rw [h]⟩
      simp only [hconf, Option.some.injEq, true_and, Bool.false_eq_true, if_false]
      constructor
      · rintro hkeep ⟨_, temp_o, temp_c, rfl, hargs, hnew⟩
        have hret := sourceSetting_of_internalArgs (conf.vsensors.rd sensor) hargs
        have herr : (sourceSetting P call.args (conf.vsensors.rd sensor)).1 ≠ 0 := by
          rw [hret]
          decide
        have hstored := sourceSetting_of_error herr
        rw [hkeep herr, hargs] at hstored
        refine hnew ⟨?_, ?_, ?_⟩ <;> rw [hstored]
      · intro hold herr
        rw [sourceSetting_of_error herr]
        cases hargs : internalArgs P call.args with
        | none => rfl
        | some oc =>
          obtain ⟨temp_o, temp_c⟩ := oc
          by_cases hsame : (conf.vsensors.rd sensor).mode = .internal ∧
              (conf.vsensors.rd sensor).tempOffset = temp_o ∧
              (conf.vsensors.rd sensor).tempCoefficient = temp_c
          · obtain ⟨hmode, rfl, rfl⟩ := hsame
            simp only [← hmode]
          · exact absurd ⟨sensor, temp_o, temp_c, rfl, hargs, hsame⟩ hold

/-- **A failed command changes nothing**, whatever the command, its arguments and
the configuration, except for a new internal source of a virtual sensor. -/
theorem failed_command_keeps (P : Platform F D) (now : UInt64) {h : Handler} {f : CmdFunc F}
    (hf : setterOf P now h = some f) (call : Call) (conf : SystemConfig F) :
    ((f call conf).1 ≠ 0 → (f call conf).2 = conf) ↔ ¬ StoresAndFails P h call conf := by
  by_cases hsource : h = .cmdVsensorSource
  · subst hsource
    obtain rfl := Option.some.inj hf
    exact cmdVsensorSource_keeps_iff call conf
  · have hkeeps := setterOf_keeps hf hsource
    exact ⟨fun _ hs => hsource hs.1, fun _ => hkeeps call conf⟩

end Commands

/-- A brightness out of range is an error, and the configuration stays. -/
theorem failed_command_keeps_backlight :
    let call : Call :=
      { cmd := "BACKLIGHT".toList, args := "101".toList, query := false, prevCmd := ["SYS".toList] }
    let conf := clearConfig hostPlatform
    (cmdBacklight call conf).1 = 2 ∧ (cmdBacklight call conf).2 = conf := by
  intro call conf
  have hres : (cmdBacklight call conf).1 = 2 := by decide +kernel
  have hkeeps := (failed_command_keeps hostPlatform 0 (h := .cmdBacklight) rfl call conf).mpr
    fun hs => absurd hs.1 (by decide)
  exact ⟨hres, hkeeps (by rw [hres]; decide)⟩

/-- The internal temperature as the source of a sensor: stored, and reported as an
error. -/
theorem failed_command_stores :
    let call : Call :=
      { cmd := "SOURCE".toList, args := "internal,0.0,1.0".toList, query := false
        prevCmd := ["CONF".toList, "VSENSOR1".toList] }
    let conf := clearConfig hostPlatform
    (cmdVsensorSource hostPlatform call conf).1 = 2 ∧
      (conf.vsensors.rd 0).mode = .manual ∧
      ((cmdVsensorSource hostPlatform call conf).2.vsensors.rd 0).mode = .internal ∧
      ¬ ∀ (h : Handler) (f : CmdFunc ℚ), setterOf hostPlatform 0 h = some f →
        ∀ call conf, call.query = false → (f call conf).1 ≠ 0 → (f call conf).2 = conf := by
  intro call conf
  have hres : (cmdVsensorSource hostPlatform call conf).1 = 2 := by decide +kernel
  have hbefore : (conf.vsensors.rd 0).mode = .manual := by decide +kernel
  have hafter : ((cmdVsensorSource hostPlatform call conf).2.vsensors.rd 0).mode = .internal := by
    decide +kernel
  refine ⟨hres, hbefore, hafter, fun h => ?_⟩
  have hkeep := h .cmdVsensorSource _ rfl call conf rfl (by rw [hres]; decide)
  rw [hkeep, hbefore] at hafter
  cases hafter

end LcdPico
