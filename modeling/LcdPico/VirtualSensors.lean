import LcdPico.ConfigJson
import LcdPico.HostPlatform
import LcdPico.I2cPolling
import LcdPico.Settings

/-!
# The readings of the virtual sensors (`sensors.c`, `i2c.c`, `command.c`)

Three parts of core 0 store readings: `read_temps` for the internal sensor and the manual ones,
`i2c_read_temps` for those on the bus, and the command `WRITE:VSENSORx` for the manual ones. All
other commands may come between, and some of them change what a sensor is. A configuration that
is uploaded replaces everything.

A manual reading counts until it is older than the timeout of its sensor, when `read_temps` puts
the default in its place, or until an upload does. `manual_reading_expires` says which of the two
a sensor has after any run.
-/

namespace LcdPico

variable {F D C : Type}

/-! ## `read_temps` -/

/-- What `read_temps` gets from outside at a sensor. -/
structure TempInput (F : Type) where
  /-- `get_absolute_time` -/
  now : UInt64
  /-- `get_temperature`, as a `float` -/
  temperature : F

/-- `absolute_time_diff_us`, of a reading and the time now. -/
def readingAge (t₀ t : UInt64) : Int := (t - t₀).toInt64.toInt

/-- `float` arithmetic: `temp * coefficient + offset` -/
abbrev ScaleFloat (F : Type) : Type := F → F → F → F

/-- What is known of a sensor: its settings, `vtemp[i]`, and `vtemp_updated[i]`. -/
structure SensorView (F : Type) where
  input : VsensorInput F
  temp : F
  updated : UInt64

section

variable (P : Platform F D) (scale : ScaleFloat F)

/-- The value that a turn of the loop of `read_temps` stores, unless it goes on without. -/
def polledTemp (s : SensorView F) (x : TempInput F) : Option F :=
  match s.input.mode with
  | .internal => some (scale x.temperature s.input.tempCoefficient s.input.tempOffset)
  | .manual =>
    if s.input.timeout > 0 ∧ P.floatNe s.temp s.input.defaultTemp = true then
      if (readingAge s.updated x.now).tdiv 1000000 > s.input.timeout then
        some s.input.defaultTemp
      else none
    else some s.temp
  | _ => none

/-- A reading that is stored. -/
def SensorView.store (s : SensorView F) (temp : F) (now : UInt64) : SensorView F :=
  { s with temp := temp, updated := now }

/-- What a turn of the loop makes of a sensor. -/
def SensorView.poll (s : SensorView F) (x : TempInput F) : SensorView F :=
  match polledTemp P scale s x with
  | some temp => s.store temp x.now
  | none => s

@[simp] theorem SensorView.poll_input (s : SensorView F) (x : TempInput F) :
    (s.poll P scale x).input = s.input := by
  rw [poll]
  cases polledTemp P scale s x <;> rfl

variable [Inhabited F]

def I2cConfig.view (conf : I2cConfig F C) (i : Nat) : SensorView F where
  input := conf.config.vsensors.rd i
  temp := conf.config.vtemp.rd i
  updated := conf.config.vtempUpdated.rd i

/-- A turn of the loop of `read_temps`. -/
def readTemp (x : Nat → TempInput F) (conf : I2cConfig F C) (i : Nat) : I2cConfig F C :=
  match polledTemp P scale (conf.view i) (x i) with
  | some temp => conf.store i ⟨temp, P.floatMinusOne, P.floatMinusOne⟩ (x i).now
  | none => conf

/-- `read_temps` -/
def readTemps (x : Nat → TempInput F) (conf : I2cConfig F C) : I2cConfig F C :=
  (List.range VSENSOR_COUNT).foldl (readTemp P scale x) conf

end

/-! ## Manual readings -/

theorem readingAge_eq {t₀ t : UInt64} (h : t₀ ≤ t) (ht : t.toNat < 2 ^ 63) :
    readingAge t₀ t = t.toNat - t₀.toNat := by
  have hsub : (t - t₀).toNat = t.toNat - t₀.toNat := UInt64.toNat_sub_of_le _ _ h
  have hle : t₀.toNat ≤ t.toNat := h
  have hint : (t - t₀).toInt64.toInt = ((t - t₀).toNat : Int) := by
    rw [Int64.toInt, UInt64.toInt64, Int64.toBitVec, BitVec.toInt_eq_toNat_of_lt]
    · rfl
    · change 2 * (t - t₀).toNat < 2 ^ 64
      omega
  rw [readingAge, hint, hsub]
  omega

/-- The settings that a manual reading depends on. -/
structure SameManual (v w : VsensorInput F) : Prop where
  mode : w.mode = .manual
  timeout : w.timeout = v.timeout
  defaultTemp : w.defaultTemp = v.defaultTemp

section Manual

variable {P : Platform F D} {v : VsensorInput F} {temp : F} {t₀ : UInt64} {s : SensorView F}

/-- The reading can time out. -/
def CanExpire (P : Platform F D) (v : VsensorInput F) (temp : F) : Prop :=
  0 < v.timeout ∧ P.floatNe temp v.defaultTemp = true

instance (P : Platform F D) (v : VsensorInput F) (temp : F) : Decidable (CanExpire P v temp) :=
  inferInstanceAs (Decidable (_ ∧ _))

/-- More than `timeout` whole seconds have passed since `t₀`. -/
def Expired (v : VsensorInput F) (t₀ t : UInt64) : Prop :=
  (t₀.toNat : Int) + (v.timeout + 1) * 1000000 ≤ t.toNat

instance (v : VsensorInput F) (t₀ t : UInt64) : Decidable (Expired v t₀ t) :=
  inferInstanceAs (Decidable (_ ≤ _))

/-- The reading was written at `t₀`, and still counts. -/
structure Counts (P : Platform F D) (v : VsensorInput F) (temp : F) (t₀ : UInt64)
    (s : SensorView F) : Prop where
  input : SameManual v s.input
  updated : CanExpire P v temp → s.updated = t₀
  temp : s.temp = temp

/-- The default has replaced the reading. -/
structure Replaced (v : VsensorInput F) (s : SensorView F) : Prop where
  input : SameManual v s.input
  temp : s.temp = v.defaultTemp

theorem timedOut_iff {t : UInt64} (h : t₀ ≤ t) (ht : t.toNat < 2 ^ 63) :
    (readingAge t₀ t).tdiv 1000000 > v.timeout ↔ Expired v t₀ t := by
  have hle : t₀.toNat ≤ t.toNat := h
  rw [readingAge_eq h ht, Int.tdiv_eq_ediv_of_nonneg (by omega), Expired]
  omega

/-- What `read_temps` makes of a reading that counts. -/
theorem Counts.poll (scale : ScaleFloat F) (h : Counts P v temp t₀ s) {x : TempInput F}
    (hx : t₀ ≤ x.now) (hx63 : x.now.toNat < 2 ^ 63) :
    if CanExpire P v temp ∧ Expired v t₀ x.now then Replaced v (s.poll P scale x)
    else Counts P v temp t₀ (s.poll P scale x) := by
  obtain ⟨⟨hmode, htimeout, hdefault⟩, hupdated, htemp⟩ := h
  have hpolled : polledTemp P scale s x =
      if CanExpire P v temp then
        if (readingAge s.updated x.now).tdiv 1000000 > v.timeout then some v.defaultTemp
        else none
      else some temp := by
    rw [polledTemp, hmode, htimeout, hdefault, htemp]
    rfl
  rw [SensorView.poll, hpolled]
  by_cases hcan : CanExpire P v temp
  · rw [if_pos hcan, hupdated hcan]
    by_cases hexpired : Expired v t₀ x.now
    · rw [if_pos (And.intro hcan hexpired), if_pos ((timedOut_iff hx hx63).mpr hexpired)]
      exact ⟨⟨hmode, htimeout, hdefault⟩, rfl⟩
    · rw [if_neg fun hboth => hexpired hboth.2,
        if_neg (mt (timedOut_iff hx hx63).mp hexpired)]
      exact ⟨⟨hmode, htimeout, hdefault⟩, hupdated, htemp⟩
  · rw [if_neg hcan, if_neg fun hboth => hcan hboth.1]
    exact ⟨⟨hmode, htimeout, hdefault⟩, fun h => absurd h hcan, rfl⟩

/-- The default stays. -/
theorem Replaced.poll (P : Platform F D) (scale : ScaleFloat F) (h : Replaced v s)
    (x : TempInput F) : Replaced v (s.poll P scale x) := by
  obtain ⟨⟨hmode, htimeout, hdefault⟩, htemp⟩ := h
  have hkeeps : polledTemp P scale s x = none ∨ polledTemp P scale s x = some v.defaultTemp := by
    rw [polledTemp, hmode, htemp, hdefault]
    dsimp only
    split_ifs
    · exact .inr rfl
    · exact .inl rfl
    · exact .inr rfl
  rw [SensorView.poll]
  obtain hnone | hsome := hkeeps
  · rw [hnone]
    exact ⟨⟨hmode, htimeout, hdefault⟩, htemp⟩
  · rw [hsome]
    exact ⟨⟨hmode, htimeout, hdefault⟩, rfl⟩

end Manual

/-! ## One sensor among the others -/

variable [Inhabited F]

theorem I2cConfig.view_store_self (conf : I2cConfig F C) {i : Nat} (hi : i < VSENSOR_COUNT)
    (m : Measurement F) (t : UInt64) :
    (conf.store i m t).view i = (conf.view i).store m.temp t := by
  have hin : i < VSENSOR_MAX_COUNT := hi
  rw [view, store, SensorView.store, CArray.rd_wr_self _ hin, CArray.rd_wr_self _ hin]
  rfl

theorem I2cConfig.view_store_ne (conf : I2cConfig F C) {i j : Nat} (h : j ≠ i) (m : Measurement F)
    (t : UInt64) : (conf.store j m t).view i = conf.view i := by
  rw [view, store, CArray.rd_wr_ne _ h, CArray.rd_wr_ne _ h]
  rfl

section

variable (P : Platform F D) (scale : ScaleFloat F)

theorem view_readTemp_self (x : Nat → TempInput F) (conf : I2cConfig F C) {i : Nat}
    (hi : i < VSENSOR_COUNT) :
    (readTemp P scale x conf i).view i = (conf.view i).poll P scale (x i) := by
  rw [readTemp, SensorView.poll]
  cases polledTemp P scale (conf.view i) (x i) with
  | none => rfl
  | some temp => exact conf.view_store_self hi _ _

theorem view_readTemp_ne (x : Nat → TempInput F) (conf : I2cConfig F C) {i j : Nat} (h : j ≠ i) :
    (readTemp P scale x conf j).view i = conf.view i := by
  rw [readTemp]
  cases polledTemp P scale (conf.view j) (x j) with
  | none => rfl
  | some temp => exact conf.view_store_ne h _ _

/-- `read_temps` takes every sensor for itself. -/
theorem view_readTemps (x : Nat → TempInput F) (conf : I2cConfig F C) {i : Nat}
    (hi : i < VSENSOR_COUNT) :
    (readTemps P scale x conf).view i = (conf.view i).poll P scale (x i) := by
  have hothers (is : List Nat) (his : i ∉ is) (conf : I2cConfig F C) :
      (is.foldl (readTemp P scale x) conf).view i = conf.view i := by
    induction is generalizing conf with
    | nil => rfl
    | cons j is ih =>
      obtain ⟨hj, his⟩ := not_or.mp (mt List.mem_cons.mpr his)
      rw [List.foldl_cons, ih his, view_readTemp_ne P scale x conf (Ne.symm hj)]
  obtain ⟨before, after, hsplit⟩ := List.append_of_mem (List.mem_range.mpr hi)
  have hnodup : (before ++ i :: after).Nodup := hsplit ▸ List.nodup_range
  obtain ⟨-, hafter, hbefore⟩ := List.nodup_append.mp hnodup
  rw [readTemps, hsplit, List.foldl_append, List.foldl_cons,
    hothers after (List.nodup_cons.mp hafter).1, view_readTemp_self P scale x _ hi,
    hothers before fun h => hbefore i h i (List.mem_cons_self ..) rfl]

end

/-- `i2c_read_temps` stores nothing for a sensor that is not on the bus. -/
theorem view_readLoop (conf : I2cConfig F C) (a : I2cAnswers F C) {i : Nat}
    (hmode : (conf.view i).input.mode ≠ .i2c) (n k : Nat) :
    ((readLoop conf a n k).2.2).view i = conf.view i := by
  induction n generalizing k with
  | zero => rfl
  | succ n ih =>
    rw [readLoop]
    cases hctx : conf.readyContext k with
    | none => exact ih (k + 1)
    | some ctx =>
      have hk : k ≠ i := by
        rintro rfl
        have hnot : (conf.config.vsensors.rd k).mode ≠ .i2c := hmode
        rw [I2cConfig.readyContext, if_pos hnot] at hctx
        cases hctx
      dsimp only
      split
      · exact conf.view_store_ne hk _ _
      · rfl

theorem i2cReadTemps_conf (s : I2cState F C) (a : I2cAnswers F C) :
    (i2cReadTemps s a).1.conf = s.conf ∨
      ∃ n k, (i2cReadTemps s a).1.conf = (readLoop s.conf a n k).2.2 := by
  obtain ⟨t, ht, hconf⟩ :
      ∃ t, (if s.step > 1 then { s with step := 0 } else s) = t ∧ t.conf = s.conf := by
    split
    · exact ⟨_, rfl, rfl⟩
    · exact ⟨_, rfl, rfl⟩
  rw [i2cReadTemps, ht, ← hconf]
  dsimp only
  split
  · exact .inl rfl
  · refine .inr ⟨VSENSOR_COUNT - t.sensor, t.sensor, ?_⟩
    split
    · rfl
    · rfl

/-! ## Commands -/

/-- A command but `WRITE:VSENSORx` stores no reading. -/
theorem setter_keeps_readings {P : Platform F D} {now : UInt64} {handler : Handler} {f : CmdFunc F}
    (hf : setterOf P now handler = some f) (hwrite : handler ≠ .cmdVsensorWrite) (call : Call)
    (conf : SystemConfig F) :
    (f call conf).2.vtemp = conf.vtemp ∧ (f call conf).2.vtempUpdated = conf.vtempUpdated := by
  cases handler <;> simp only [setterOf, reduceCtorEq, Option.some.injEq] at hf <;> subst hf
  case cmdVsensorWrite => exact absurd rfl hwrite
  case cmdVsensorName =>
    simp only [cmdVsensorName]
    split <;> exact ⟨rfl, rfl⟩
  case cmdVsensorSource =>
    simp only [cmdVsensorSource]
    split
    · exact ⟨rfl, rfl⟩
    · split <;> exact ⟨rfl, rfl⟩
  case cmdLed =>
    simp only [cmdLed]
    split_ifs
    · exact ⟨rfl, rfl⟩
    · split
      · split_ifs <;> exact ⟨rfl, rfl⟩
      · exact ⟨rfl, rfl⟩
  case cmdWifiAuthMode =>
    simp only [cmdWifiAuthMode]
    split_ifs <;> exact ⟨rfl, rfl⟩
  case cmdSshPubkeyAdd =>
    simp only [cmdSshPubkeyAdd]
    split_ifs
    · exact ⟨rfl, rfl⟩
    · split
      · exact ⟨rfl, rfl⟩
      · split <;> exact ⟨rfl, rfl⟩
  case cmdSshPubkeyDel =>
    simp only [cmdSshPubkeyDel]
    split_ifs
    · exact ⟨rfl, rfl⟩
    · split
      · exact ⟨rfl, rfl⟩
      · split_ifs <;> exact ⟨rfl, rfl⟩
  all_goals exact ⟨rfl, rfl⟩

/-- The reading that `WRITE:VSENSORx` stores, and its sensor. -/
def writtenReading (P : Platform F D) (call : Call) (conf : SystemConfig F) : Option (Nat × F) :=
  if call.query then none
  else
    (sensorIn (headerSensor call)).bind fun i =>
      if (conf.vsensors.rd i).mode = .manual then (P.strtof call.args).map (i, ·) else none

theorem cmdVsensorWrite_eq (P : Platform F D) (now : UInt64) (call : Call)
    (conf : SystemConfig F) :
    (cmdVsensorWrite P now call conf).2 =
      match writtenReading P call conf with
      | some (i, temp) =>
        { conf with
          vtemp := conf.vtemp.wr i temp
          vtempUpdated := conf.vtempUpdated.wr i now }
      | none => conf := by
  rw [cmdVsensorWrite, writtenReading]
  split
  · rfl
  · cases sensorIn (headerSensor call) with
    | none => rfl
    | some i =>
      dsimp only [Option.bind_some]
      split
      · cases P.strtof call.args <;> rfl
      · rfl

theorem writtenReading_manual {P : Platform F D} {call : Call} {conf : SystemConfig F} {i : Nat}
    {temp : F} (h : writtenReading P call conf = some (i, temp)) :
    i < VSENSOR_COUNT ∧ (conf.vsensors.rd i).mode = .manual := by
  rw [writtenReading] at h
  split at h
  · cases h
  · obtain ⟨j, hj, hmatch⟩ := Option.bind_eq_some_iff.mp h
    split at hmatch
    · rename_i hmode
      obtain ⟨val, -, heq⟩ := Option.map_eq_some_iff.mp hmatch
      obtain ⟨rfl, -⟩ := Prod.mk.inj heq
      exact ⟨sensorIn_lt hj, hmode⟩
    · cases hmatch

/-! ## Uploads -/

/-- Each manual sensor has its default for a reading. -/
def ManualDefaults (conf : SystemConfig F) : Prop :=
  ∀ i < VSENSOR_COUNT, (conf.vsensors.rd i).mode = .manual →
    conf.vtemp.rd i = (conf.vsensors.rd i).defaultTemp

theorem ManualDefaults.vsensorsStep {conf : SystemConfig F} (h : ManualDefaults conf)
    (P : Platform F D) (item : Json D) : ManualDefaults (vsensorsStep P conf item) := by
  rw [LcdPico.vsensorsStep]
  dsimp only
  split
  · exact h
  · rename_i id hid
    intro i hi hmode
    dsimp only at hmode ⊢
    have hin : id < VSENSOR_MAX_COUNT := sensorIn_lt hid
    by_cases hsame : id = i
    · subst hsame
      rw [CArray.rd_wr_self _ hin] at hmode ⊢
      rw [if_pos hmode, CArray.rd_wr_self _ hin]
    · rw [CArray.rd_wr_ne _ hsame] at hmode ⊢
      split
      · rw [CArray.rd_wr_ne _ hsame]
        exact h i hi hmode
      · exact h i hi hmode

/-- What `upload_config` leaves. -/
theorem manualDefaults_upload (P : Platform F D) (config : Json D) :
    ManualDefaults (jsonToConfig P config (clearConfig P)) := by
  have hclear : ManualDefaults (jsonToSettings P config (clearConfig P)) := by
    intro i hi _
    have hin : i < VSENSOR_MAX_COUNT := hi
    simp [jsonToSettings, clearConfig, clearVsensor, CArray.rd, hin]
  have hloop (items : List (Json D)) {conf : SystemConfig F} (h : ManualDefaults conf) :
      ManualDefaults (items.foldl (vsensorsStep P) conf) := by
    induction items generalizing conf with
    | nil => exact h
    | cons item items ih => exact ih (h.vsensorsStep P item)
  exact hloop _ hclear

/-! ## Runs -/

/-- The variables of core 0 that the sensors depend on. -/
structure Sensors (F C : Type) where
  i2cBusActive : Bool
  i2cTempSensors : Nat
  i2c : I2cState F C

/-- What happens to the sensors. -/
inductive SensorEvent (F D C : Type) where
  /-- a command function is called -/
  | command (handler : Handler) (call : Call) (now : UInt64)
  /-- `upload_config`, which that of `CONF:UPLOAD` calls, accepts a configuration -/
  | upload (config : Json D)
  /-- `read_temps` -/
  | readTemps (x : Nat → TempInput F)
  /-- `i2c_read_temps` -/
  | readI2c (a : I2cAnswers F C)

namespace Sensors

/-- What is known of sensor `i`. -/
def view (s : Sensors F C) (i : Nat) : SensorView F := s.i2c.conf.view i

def withConf (s : Sensors F C) (conf : I2cConfig F C) : Sensors F C :=
  { s with i2c := { s.i2c with conf := conf } }

variable (P : Platform F D) (scale : ScaleFloat F)

def step (s : Sensors F C) : SensorEvent F D C → Sensors F C
  | .command handler call now =>
    match setterOf P now handler with
    | some f =>
      s.withConf { s.i2c.conf with config := (f call s.i2c.conf.config).2 }
    -- the function of `CONF:UPLOAD` changes nothing until a text is accepted: that is `upload`
    | none => s
  | .upload config =>
    s.withConf
      { config := jsonToConfig P config (clearConfig P)
        i2cContext := Vector.replicate _ none }
  | .readTemps x => s.withConf (LcdPico.readTemps P scale x s.i2c.conf)
  | .readI2c a => { s with i2c := (i2cReadTemps? s.i2cBusActive s.i2cTempSensors s.i2c a).1 }

@[simp] theorem view_withConf (s : Sensors F C) (conf : I2cConfig F C) (i : Nat) :
    (s.withConf conf).view i = conf.view i := rfl

variable {P scale} {s : Sensors F C} {i : Nat}

theorem view_command (handler : Handler) (call : Call) (now : UInt64)
    (hnone : handler = .cmdVsensorWrite →
      ∀ temp, writtenReading P call s.i2c.conf.config ≠ some (i, temp)) :
    ((s.step P scale (.command handler call now)).view i).temp = (s.view i).temp ∧
      ((s.step P scale (.command handler call now)).view i).updated = (s.view i).updated := by
  rw [step]
  cases hf : setterOf P now handler with
  | none => exact ⟨rfl, rfl⟩
  | some f =>
    dsimp only [withConf, view, I2cConfig.view]
    by_cases hwrite : handler = .cmdVsensorWrite
    · subst hwrite
      obtain rfl := Option.some.inj hf
      rw [cmdVsensorWrite_eq]
      cases hwritten : writtenReading P call s.i2c.conf.config with
      | none => exact ⟨rfl, rfl⟩
      | some r =>
        obtain ⟨j, temp⟩ := r
        have hj : j ≠ i := by
          rintro rfl
          exact hnone rfl temp hwritten
        exact ⟨CArray.rd_wr_ne _ hj _, CArray.rd_wr_ne _ hj _⟩
    · obtain ⟨htemp, hupdated⟩ := setter_keeps_readings hf hwrite call s.i2c.conf.config
      rw [htemp, hupdated]
      exact ⟨rfl, rfl⟩

theorem view_readI2c (hmode : (s.view i).input.mode ≠ .i2c) (a : I2cAnswers F C) :
    (s.step P scale (.readI2c a)).view i = s.view i := by
  rw [step, i2cReadTemps?]
  split
  · rfl
  · obtain hsame | ⟨n, k, hloop⟩ := i2cReadTemps_conf s.i2c a
    · exact congrArg (I2cConfig.view · i) hsame
    · exact (congrArg (I2cConfig.view · i) hloop).trans (view_readLoop s.i2c.conf a hmode n k)

/-- What happens writes no reading to sensor `i`, leaves its settings `v`, and is after `t₀`. -/
structure Undisturbed (P : Platform F D) (scale : ScaleFloat F) (i : Nat) (v : VsensorInput F)
    (t₀ : UInt64) (s : Sensors F C) (e : SensorEvent F D C) : Prop where
  noWrite : ∀ call now, e = .command .cmdVsensorWrite call now →
    ∀ temp, writtenReading P call s.i2c.conf.config ≠ some (i, temp)
  settings : SameManual v ((s.step P scale e).view i).input
  clock : ∀ x, e = .readTemps x → t₀ ≤ (x i).now ∧ (x i).now.toNat < 2 ^ 63

variable {v : VsensorInput F} {temp : F} {t₀ : UInt64} {e : SensorEvent F D C}

/-- `read_temps` changes no settings. -/
theorem undisturbed_readTemps (hi : i < VSENSOR_COUNT) (hv : SameManual v (s.view i).input)
    {x : Nat → TempInput F} (hx : t₀ ≤ (x i).now) (hx63 : (x i).now.toNat < 2 ^ 63) :
    s.Undisturbed P scale i v t₀ (.readTemps x) where
  noWrite _ _ h := by cases h
  settings := by
    rw [step, view_withConf, view_readTemps P scale x s.i2c.conf hi, SensorView.poll_input]
    exact hv
  clock y hy := by
    cases hy
    exact ⟨hx, hx63⟩

/-- What happens at a sensor that is left alone. -/
inductive ViewStep (P : Platform F D) (scale : ScaleFloat F) (i : Nat)
    (before after : SensorView F) : SensorEvent F D C → Prop
  | polled (x : Nat → TempInput F) (h : after = before.poll P scale (x i)) :
      ViewStep P scale i before after (.readTemps x)
  | uploaded (config : Json D) (h : after.temp = after.input.defaultTemp) :
      ViewStep P scale i before after (.upload config)
  | other (e : SensorEvent F D C) (hpoll : ∀ x, e ≠ .readTemps x)
      (hupload : ∀ config, e ≠ .upload config) (htemp : after.temp = before.temp)
      (hupdated : after.updated = before.updated) : ViewStep P scale i before after e

theorem Undisturbed.view_step (he : Undisturbed P scale i v t₀ s e) (hi : i < VSENSOR_COUNT)
    (hmode : (s.view i).input.mode = .manual) :
    ViewStep P scale i (s.view i) ((s.step P scale e).view i) e := by
  cases e with
  | command handler call now =>
    have hkept : ((s.step P scale (.command handler call now)).view i).temp = (s.view i).temp ∧
        ((s.step P scale (.command handler call now)).view i).updated = (s.view i).updated :=
      view_command handler call now (by rintro rfl; exact he.noWrite call now rfl)
    exact .other _ nofun nofun hkept.1 hkept.2
  | upload config =>
    exact .uploaded config (manualDefaults_upload P config i hi he.settings.mode)
  | readTemps x =>
    refine .polled x ?_
    rw [step, view_withConf, view_readTemps P scale x s.i2c.conf hi, view]
  | readI2c a =>
    have hsame : (s.step P scale (.readI2c a : SensorEvent F D C)).view i = s.view i :=
      view_readI2c (by rw [hmode]; decide) a
    rw [hsame]
    exact .other _ nofun nofun rfl rfl

end Sensors

/-- The default replaces the reading of sensor `i`: it is too old for `read_temps`, or a
configuration is uploaded. -/
def SensorEvent.Resets (P : Platform F D) (v : VsensorInput F) (temp : F) (t₀ : UInt64) (i : Nat) :
    SensorEvent F D C → Prop
  | .readTemps x => CanExpire P v temp ∧ Expired v t₀ (x i).now
  | .upload _ => True
  | _ => False

instance (P : Platform F D) (v : VsensorInput F) (temp : F) (t₀ : UInt64) (i : Nat)
    (e : SensorEvent F D C) : Decidable (e.Resets P v temp t₀ i) :=
  match e with
  | .command _ _ _ => .isFalse id
  | .upload _ => .isTrue trivial
  | .readTemps x => inferInstanceAs (Decidable (CanExpire P v temp ∧ Expired v t₀ (x i).now))
  | .readI2c _ => .isFalse id

section Manual

variable {P : Platform F D} {scale : ScaleFloat F} {s : Sensors F C} {i : Nat}
  {v : VsensorInput F} {temp : F} {t₀ : UInt64} {e : SensorEvent F D C}

theorem Counts.step (h : Counts P v temp t₀ (s.view i)) (hi : i < VSENSOR_COUNT)
    (he : s.Undisturbed P scale i v t₀ e) :
    if e.Resets P v temp t₀ i then Replaced v ((s.step P scale e).view i)
    else Counts P v temp t₀ ((s.step P scale e).view i) := by
  have hsettings := he.settings
  have hview := he.view_step hi h.input.mode
  generalize (s.step P scale e).view i = after at hsettings hview ⊢
  cases hview with
  | polled x hpoll =>
    obtain ⟨hx, hx63⟩ := he.clock x rfl
    rw [hpoll]
    exact h.poll scale hx hx63
  | uploaded config hdefault =>
    have hresets : (SensorEvent.upload config : SensorEvent F D C).Resets P v temp t₀ i := trivial
    rw [if_pos hresets]
    exact ⟨hsettings, hdefault.trans hsettings.defaultTemp⟩
  | other _ hpoll hupload htemp hupdated =>
    have hnot : ¬e.Resets P v temp t₀ i := by
      cases e with
      | command handler call now => exact id
      | upload config => exact absurd rfl (hupload config)
      | readTemps x => exact absurd rfl (hpoll x)
      | readI2c a => exact id
    rw [if_neg hnot]
    exact ⟨hsettings, fun hcan => hupdated.trans (h.updated hcan), htemp.trans h.temp⟩

theorem Replaced.step (h : Replaced v (s.view i)) (hi : i < VSENSOR_COUNT)
    (he : s.Undisturbed P scale i v t₀ e) : Replaced v ((s.step P scale e).view i) := by
  have hsettings := he.settings
  have hview := he.view_step hi h.input.mode
  generalize (s.step P scale e).view i = after at hsettings hview ⊢
  cases hview with
  | polled x hpoll =>
    rw [hpoll]
    exact h.poll P scale (x i)
  | uploaded config hdefault => exact ⟨hsettings, hdefault.trans hsettings.defaultTemp⟩
  | other _ _ _ htemp _ => exact ⟨hsettings, htemp.trans h.temp⟩

theorem Replaced.run (h : Replaced v (s.view i)) (hi : i < VSENSOR_COUNT)
    {es : List (SensorEvent F D C)}
    (hes : Machine.Within (Sensors.step P scale) (Sensors.Undisturbed P scale i v t₀) s es) :
    Replaced v ((Machine.run (Sensors.step P scale) s es).view i) :=
  Machine.run_within (P := fun s : Sensors F C => Replaced v (s.view i))
    (fun _ _ h he => h.step hi he) h hes

theorem Counts.run (h : Counts P v temp t₀ (s.view i)) (hi : i < VSENSOR_COUNT)
    {es : List (SensorEvent F D C)}
    (hes : Machine.Within (Sensors.step P scale) (Sensors.Undisturbed P scale i v t₀) s es) :
    if ∃ e ∈ es, e.Resets P v temp t₀ i then
      Replaced v ((Machine.run (Sensors.step P scale) s es).view i)
    else Counts P v temp t₀ ((Machine.run (Sensors.step P scale) s es).view i) := by
  induction es generalizing s with
  | nil =>
    rw [if_neg]
    · exact h
    · rintro ⟨e, he, -⟩
      exact absurd he List.not_mem_nil
  | cons e es ih =>
    obtain ⟨he, hes⟩ := hes
    have hstep := h.step hi he
    by_cases hnow : e.Resets P v temp t₀ i
    · rw [if_pos hnow] at hstep
      rw [if_pos ⟨e, List.mem_cons_self .., hnow⟩]
      exact hstep.run hi hes
    · rw [if_neg hnow] at hstep
      simp only [List.exists_mem_cons_iff, hnow, false_or]
      exact ih hstep hes

/-- A reading that was just written counts. -/
theorem counts_write (t₀ : UInt64) {call : Call}
    (hwrite : writtenReading P call s.i2c.conf.config = some (i, temp)) :
    Counts P (s.view i).input temp t₀
      ((s.step P scale (.command .cmdVsensorWrite call t₀)).view i) := by
  obtain ⟨hi, hmode⟩ := writtenReading_manual hwrite
  have hin : i < VSENSOR_MAX_COUNT := hi
  have hset : setterOf P t₀ .cmdVsensorWrite = some (cmdVsensorWrite P t₀) := rfl
  rw [Sensors.step, hset]
  dsimp only [Sensors.withConf, Sensors.view, I2cConfig.view]
  rw [cmdVsensorWrite_eq, hwrite]
  exact ⟨⟨hmode, rfl, rfl⟩, fun _ => CArray.rd_wr_self _ hin _, CArray.rd_wr_self _ hin _⟩

end Manual

/-- **A manual reading counts until it is too old.** After `WRITE:VSENSORx`, and whatever else the
commands, `read_temps` and `i2c_read_temps` do, the sensor has the reading that was written; from
the first `read_temps` on that comes more than the timeout later, or the first upload of a
configuration with the same settings, it has the default. -/
theorem manual_reading_expires (P : Platform F D) (scale : ScaleFloat F) {s : Sensors F C}
    {call : Call} {i : Nat} {temp : F} {t₀ : UInt64}
    (hwrite : writtenReading P call s.i2c.conf.config = some (i, temp))
    {es : List (SensorEvent F D C)}
    (hes : Machine.Within (Sensors.step P scale)
      (Sensors.Undisturbed P scale i (s.view i).input t₀)
      (s.step P scale (.command .cmdVsensorWrite call t₀)) es) :
    ((Machine.run (Sensors.step P scale)
        (s.step P scale (.command .cmdVsensorWrite call t₀)) es).view i).temp =
      if ∃ e ∈ es, e.Resets P (s.view i).input temp t₀ i then (s.view i).input.defaultTemp
      else temp := by
  obtain ⟨hi, -⟩ := writtenReading_manual hwrite
  have hend := (counts_write t₀ hwrite).run hi hes
  split at hend
  · rename_i hreset
    rw [if_pos hreset]
    exact hend.temp
  · rename_i hkept
    rw [if_neg hkept]
    exact hend.temp

/-- The default configuration, and no sensors on the bus. -/
def noBus : Sensors ℚ Unit where
  i2cBusActive := false
  i2cTempSensors := 0
  i2c :=
    { step := 0
      sensor := 0
      conf := { config := clearConfig hostPlatform, i2cContext := Vector.replicate _ none } }

/-- `WRITE:VSENSOR1 25.5` -/
def writeFirst : Call := ⟨"VSENSOR1".toList, "25.5".toList, false, ["WRITE".toList]⟩

def scaleRational : ScaleFloat ℚ := fun temp coefficient offset => temp * coefficient + offset

/-- The sensors after this command, at one second. -/
def writtenSensors : Sensors ℚ Unit :=
  noBus.step hostPlatform scaleRational (.command .cmdVsensorWrite writeFirst 1000000)

/-- `read_temps`, with the time at the first sensor. -/
def readAt (now : UInt64) : SensorEvent ℚ (Option ℚ) Unit :=
  .readTemps fun _ => { now := now, temperature := 0 }

/-- With the timeout of 60 seconds, the reading counts for 61. -/
theorem manual_reading_expires_minute :
    ((Machine.run (Sensors.step hostPlatform scaleRational) writtenSensors
        [readAt 61999999]).view 0).temp = mkRat 51 2 ∧
      ((Machine.run (Sensors.step hostPlatform scaleRational) writtenSensors
        [readAt 61999999, readAt 62000000]).view 0).temp = 0 := by
  have hwrite : writtenReading hostPlatform writeFirst noBus.i2c.conf.config =
      some (0, mkRat 51 2) := by decide +kernel
  have hread {now : UInt64} (hnow : 1000000 ≤ now ∧ now.toNat < 2 ^ 63) {s : Sensors ℚ Unit}
      (hs : SameManual (noBus.view 0).input (s.view 0).input) :
      s.Undisturbed hostPlatform scaleRational 0 (noBus.view 0).input 1000000 (readAt now) :=
    Sensors.undisturbed_readTemps (by decide) hs hnow.1 hnow.2
  have hfirst : writtenSensors.Undisturbed hostPlatform scaleRational 0 (noBus.view 0).input
      1000000 (readAt 61999999) := hread (by decide) (counts_write 1000000 hwrite).input
  have hone := manual_reading_expires hostPlatform scaleRational hwrite
    (show Machine.Within _ _ _ [readAt 61999999] from ⟨hfirst, trivial⟩)
  have htwo := manual_reading_expires hostPlatform scaleRational hwrite
    (show Machine.Within _ _ _ [readAt 61999999, readAt 62000000] from
      ⟨hfirst, hread (by decide) hfirst.settings, trivial⟩)
  rw [if_neg (by decide +kernel)] at hone
  rw [if_pos (by decide +kernel)] at htwo
  exact ⟨hone, htwo⟩

end LcdPico
