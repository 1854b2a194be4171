import LcdPico.HostPlatform
import LcdPico.Lib.Sweep

/-!
# Polling the I2C sensors (`i2c.c`)

The main loop calls `i2c_read_temps` again and again, each time after the delay that the last
call returned. The first call of a cycle starts the measurement on all sensors, each call
after it reads the next one, and commands may change the configuration between any two
calls: `i2c_cycle` says what a cycle does all the same.

A sensor that is configured, has a type, and was initialised is ready. What the sensors
answer is an input of each call.
-/

namespace LcdPico

variable {F D C : Type}

/-- `temp`, `pressure`, `humidity` -/
structure Measurement (F : Type) where
  temp : F
  pressure : F
  humidity : F

/-- The configuration, with `i2c_context`: the sensors that were initialised. -/
structure I2cConfig (F C : Type) where
  config : SystemConfig F
  i2cContext : CArray (Option C) VSENSOR_MAX_COUNT

/-- What the sensors answer to one call, by their contexts. -/
structure I2cAnswers (F C : Type) where
  /-- `i2c_start_measurement` -/
  startMeasurement : C → Int
  /-- `i2c_read_measurement`; the measurement counts if the result is 0 -/
  readMeasurement : C → Int × Measurement F
  /-- `get_absolute_time` -/
  now : UInt64

/-- The static variables of `i2c_read_temps`, and the configuration. -/
structure I2cState (F C : Type) where
  step : Nat
  sensor : Nat
  conf : I2cConfig F C

/-- What is asked of a sensor. -/
inductive I2cRequest where
  /-- `i2c_start_measurement` -/
  | start (sensor : Nat)
  /-- `i2c_read_measurement` -/
  | read (sensor : Nat)
deriving DecidableEq, Repr

variable [Inhabited F]

/-! ## `setup_i2c_bus` -/

/-- A turn of the loop of `setup_i2c_bus`: `initSensor` is `i2c_init_sensor`, with the context
it stores. The result is the configuration and `i2c_temp_sensors`. -/
def setupSensor (initSensor : UInt8 → UInt8 → Int × Option C) (s : I2cConfig F C × Nat) (i : Nat) :
    I2cConfig F C × Nat :=
  let v := s.1.config.vsensors.rd i
  if v.mode ≠ .i2c then s
  else if v.i2cType < 1 then s
  else
    let (res, ctx) := initSensor v.i2cType v.i2cAddr
    if res ≠ 0 then s
    else ({ s.1 with i2cContext := s.1.i2cContext.wr i ctx }, s.2 + 1)

def setupI2cBus (initSensor : UInt8 → UInt8 → Int × Option C) (conf : I2cConfig F C) :
    I2cConfig F C × Nat :=
  (List.range VSENSOR_COUNT).foldl (setupSensor initSensor) (conf, 0)

/-! ## `i2c_read_temps` -/

/-- The context of a sensor that is to be polled. -/
def I2cConfig.readyContext (conf : I2cConfig F C) (i : Nat) : Option C :=
  let v := conf.config.vsensors.rd i
  if v.mode ≠ .i2c then none
  else if v.i2cType < 1 then none
  else conf.i2cContext.rd i

/-- The sensor is ready. -/
def I2cConfig.ready (conf : I2cConfig F C) (i : Nat) : Bool := (conf.readyContext i).isSome

/-- `config->vtemp[i] = temp` and the three assignments after it. -/
def I2cConfig.store (conf : I2cConfig F C) (i : Nat) (m : Measurement F) (t : UInt64) :
    I2cConfig F C :=
  { conf with
    config :=
      { conf.config with
        vtemp := conf.config.vtemp.wr i m.temp
        vpressure := conf.config.vpressure.wr i m.pressure
        vhumidity := conf.config.vhumidity.wr i m.humidity
        vtempUpdated := conf.config.vtempUpdated.wr i t } }

/-- A turn of the loop of the first step: the requests, and `wait_time`. -/
def startSensor (conf : I2cConfig F C) (a : I2cAnswers F C) :
    List I2cRequest × Int → Nat → List I2cRequest × Int
  | (requests, waitTime), i =>
    match conf.readyContext i with
    | none => (requests, waitTime)
    | some ctx =>
      let res := a.startMeasurement ctx
      (requests ++ [.start i],
        if res ≥ 0 then if res > waitTime then res else waitTime else waitTime)

def startMeasurements (conf : I2cConfig F C) (a : I2cAnswers F C) : List I2cRequest × Int :=
  (List.range VSENSOR_COUNT).foldl (startSensor conf a) ([], 0)

/-- The loop of the second step, from `i` on, with `n` turns at most: the value of `i` after it,
what is asked, and the configuration. -/
def readLoop (conf : I2cConfig F C) (a : I2cAnswers F C) :
    Nat → Nat → Nat × List I2cRequest × I2cConfig F C
  | 0, i => (i, [], conf)
  | n + 1, i =>
    match conf.readyContext i with
    | none => readLoop conf a n (i + 1)
    | some ctx =>
      let (res, m) := a.readMeasurement ctx
      (i, [.read i], if res = 0 then conf.store i m a.now else conf)

/-- `i2c_read_temps` with the bus active and some sensor initialised: the state after it, the
requests it makes, and the delay it returns. -/
def i2cReadTemps (s : I2cState F C) (a : I2cAnswers F C) :
    I2cState F C × List I2cRequest × Int :=
  let s := if s.step > 1 then { s with step := 0 } else s
  if s.step = 0 then
    let (requests, waitTime) := startMeasurements s.conf a
    ({ s with sensor := 0, step := s.step + 1 }, requests,
      if waitTime < 1 then 15000 else waitTime)
  else
    let (i, requests, conf) := readLoop s.conf a (VSENSOR_COUNT - s.sensor) s.sensor
    let sensor := i + 1
    if sensor ≥ VSENSOR_COUNT then
      ({ step := s.step + 1, sensor := sensor, conf := conf }, requests, 10000)
    else ({ step := s.step, sensor := sensor, conf := conf }, requests, 50)

/-- `i2c_read_temps`, with `i2c_bus_active` and `i2c_temp_sensors`. -/
def i2cReadTemps? (i2cBusActive : Bool) (i2cTempSensors : Nat) (s : I2cState F C)
    (a : I2cAnswers F C) : I2cState F C × List I2cRequest × Int :=
  if !i2cBusActive || i2cTempSensors < 1 then (s, [], -1) else i2cReadTemps s a

/-! ## The loops -/

theorem setupSensor_cases (initSensor : UInt8 → UInt8 → Int × Option C) (s : I2cConfig F C × Nat)
    (i : Nat) :
    setupSensor initSensor s i = s ∨ (setupSensor initSensor s i).2 = s.2 + 1 := by
  simp only [setupSensor]
  split
  · exact .inl rfl
  · split
    · exact .inl rfl
    · split
      · exact .inl rfl
      · exact .inr rfl

/-- If no sensor is counted, none was initialised: the polls that `i2c_read_temps` then
declines would find none that became ready. -/
theorem setupI2cBus_none (initSensor : UInt8 → UInt8 → Int × Option C) (conf : I2cConfig F C)
    (h : (setupI2cBus initSensor conf).2 = 0) : (setupI2cBus initSensor conf).1 = conf := by
  have hloop (is : List Nat) (s : I2cConfig F C × Nat)
      (hzero : (is.foldl (setupSensor initSensor) s).2 = 0) :
      (is.foldl (setupSensor initSensor) s).1 = s.1 ∧ s.2 = 0 := by
    induction is generalizing s with
    | nil => exact ⟨rfl, hzero⟩
    | cons i is ih =>
      obtain ⟨hconf, hcount⟩ := ih (setupSensor initSensor s i) hzero
      obtain hsame | hmore := setupSensor_cases initSensor s i
      · rw [List.foldl_cons, hconf, hsame]
        rw [hsame] at hcount
        exact ⟨rfl, hcount⟩
      · omega
  exact (hloop _ _ h).1

/-- The second step visits the next sensor that is ready. -/
theorem readLoop_eq (conf : I2cConfig F C) (a : I2cAnswers F C) {n i : Nat} (hi : i ≤ n) :
    (readLoop conf a (n - i) i).1 + 1 = Sweep.step n i conf.ready ∧
      (readLoop conf a (n - i) i).2.1 = (Sweep.visit n i conf.ready).map .read := by
  obtain ⟨k, hk⟩ : ∃ k, n - i = k := ⟨_, rfl⟩
  induction k generalizing i with
  | zero =>
    have hnone : Sweep.next n conf.ready i = none := by rw [Sweep.next, hk]; rfl
    rw [hk, readLoop, Sweep.step, Sweep.visit, hnone, Option.getD_none, Nat.max_eq_right hi]
    exact ⟨by dsimp only; omega, rfl⟩
  | succ k ih =>
    have hnext : Sweep.next n conf.ready i =
        if conf.ready i = true then some i else Sweep.next n conf.ready (i + 1) := by
      rw [Sweep.next, Sweep.next, hk, List.range'_succ, List.find?_cons,
        show n - (i + 1) = k by omega]
      cases conf.ready i <;> rfl
    rw [hk, readLoop]
    cases hctx : conf.readyContext i with
    | none =>
      have hready : conf.ready i = false := by rw [I2cConfig.ready, hctx]; rfl
      rw [hready, if_neg Bool.false_ne_true] at hnext
      have hsame := ih (i := i + 1) (by omega) (by omega)
      rw [show n - (i + 1) = k by omega] at hsame
      rw [Sweep.step, Sweep.visit] at hsame ⊢
      rw [hnext, Nat.max_eq_right hi]
      rw [Nat.max_eq_right (by omega : i + 1 ≤ n)] at hsame
      exact hsame
    | some ctx =>
      have hready : conf.ready i = true := by rw [I2cConfig.ready, hctx]; rfl
      rw [hready, if_pos rfl] at hnext
      rw [Sweep.step, Sweep.visit, hnext]
      exact ⟨rfl, rfl⟩

theorem foldl_startSensor_requests (conf : I2cConfig F C) (a : I2cAnswers F C) (is : List Nat)
    (acc : List I2cRequest × Int) :
    (is.foldl (startSensor conf a) acc).1 =
      acc.1 ++ (is.filter conf.ready).map I2cRequest.start := by
  induction is generalizing acc with
  | nil => simp
  | cons i is ih =>
    rw [List.foldl_cons, ih, List.filter_cons, startSensor, I2cConfig.ready]
    cases conf.readyContext i with
    | none => simp
    | some ctx => simp

/-- The first step asks all sensors that are ready. -/
theorem startMeasurements_requests (conf : I2cConfig F C) (a : I2cAnswers F C) :
    (startMeasurements conf a).1 =
      ((List.range VSENSOR_COUNT).filter conf.ready).map I2cRequest.start :=
  (foldl_startSensor_requests conf a _ _).trans (List.nil_append _)

/-- `wait_time` only grows. -/
theorem le_startSensor (conf : I2cConfig F C) (a : I2cAnswers F C) (acc : List I2cRequest × Int)
    (i : Nat) : acc.2 ≤ (startSensor conf a acc i).2 := by
  rw [startSensor]
  cases conf.readyContext i with
  | none => exact Int.le_refl _
  | some ctx =>
    dsimp only
    split
    · split
      · rename_i hmore
        exact Int.le_of_lt hmore
      · exact Int.le_refl _
    · exact Int.le_refl _

theorem le_foldl_startSensor (conf : I2cConfig F C) (a : I2cAnswers F C) (is : List Nat)
    (acc : List I2cRequest × Int) : acc.2 ≤ (is.foldl (startSensor conf a) acc).2 := by
  induction is generalizing acc with
  | nil => exact Int.le_refl _
  | cons i is ih => exact Int.le_trans (le_startSensor conf a acc i) (ih _)

/-- `wait_time` ends as long as any sensor asks for. -/
theorem le_startMeasurements (conf : I2cConfig F C) (a : I2cAnswers F C) {i : Nat}
    (hi : i < VSENSOR_COUNT) {ctx : C} (hctx : conf.readyContext i = some ctx) :
    a.startMeasurement ctx ≤ (startMeasurements conf a).2 := by
  obtain ⟨before, after, hsplit⟩ := List.append_of_mem (List.mem_range.mpr hi)
  have hpos : 0 ≤ (before.foldl (startSensor conf a) ([], 0)).2 :=
    le_foldl_startSensor conf a before ([], 0)
  rw [startMeasurements, hsplit, List.foldl_append, List.foldl_cons]
  refine Int.le_trans ?_ (le_foldl_startSensor conf a after _)
  rw [startSensor, hctx]
  dsimp only
  split
  · split
    · exact Int.le_refl _
    · omega
  · omega

/-- The first call of a cycle. -/
theorem i2cReadTemps_first {s : I2cState F C} (hs : s.step ≠ 1) (a : I2cAnswers F C) :
    i2cReadTemps s a =
      ({ s with sensor := 0, step := 1 }, (startMeasurements s.conf a).1,
        if (startMeasurements s.conf a).2 < 1 then 15000 else (startMeasurements s.conf a).2) := by
  have hstep : (if s.step > 1 then { s with step := 0 } else s) = { s with step := 0 } := by
    split
    · rfl
    · rw [show (0 : Nat) = s.step by omega]
  rw [i2cReadTemps, hstep]
  rfl

/-! ## Cycles -/

/-- What happens between two calls: a command may leave any configuration behind. -/
inductive I2cAction (F C : Type) where
  /-- `i2c_read_temps` -/
  | poll (a : I2cAnswers F C)
  /-- the configuration is replaced -/
  | configure (conf : I2cConfig F C)

namespace I2cState

def act (s : I2cState F C) : I2cAction F C → I2cState F C
  | .poll a => (i2cReadTemps s a).1
  | .configure conf => { s with conf := conf }

/-- What is asked of the sensors. -/
def requests (s : I2cState F C) : I2cAction F C → List I2cRequest
  | .poll a => (i2cReadTemps s a).2.1
  | .configure _ => []

/-- The configuration that a call finds. -/
def polled (s : I2cState F C) : I2cAction F C → List (I2cConfig F C)
  | .poll _ => [s.conf]
  | .configure _ => []

/-- What the actions `acts` ask of the sensors. -/
def requested (s : I2cState F C) (acts : List (I2cAction F C)) : List I2cRequest :=
  Machine.trace act requests s acts

/-- The configurations that the calls among the actions `acts` find. -/
def found (s : I2cState F C) (acts : List (I2cAction F C)) : List (I2cConfig F C) :=
  Machine.trace act polled s acts

/-- The second step is open as long as there are sensors to go. -/
def Ok (s : I2cState F C) : Prop := s.step = 1 ↔ s.sensor < VSENSOR_COUNT

/-- The first call of a cycle. -/
theorem poll_first {s : I2cState F C} (hs : s.step ≠ 1) (a : I2cAnswers F C) :
    s.requests (.poll a) = ((List.range VSENSOR_COUNT).filter s.conf.ready).map I2cRequest.start ∧
      (s.act (.poll a)).step = 1 ∧ (s.act (.poll a)).sensor = 0 := by
  rw [requests, act, i2cReadTemps_first hs]
  exact ⟨startMeasurements_requests s.conf a, rfl, rfl⟩

/-- A later call of the cycle. -/
theorem poll_next {s : I2cState F C} (hs : s.step = 1) (hsensor : s.sensor ≤ VSENSOR_COUNT)
    (a : I2cAnswers F C) :
    s.requests (.poll a) =
        (Sweep.visit VSENSOR_COUNT s.sensor s.conf.ready).map I2cRequest.read ∧
      (s.act (.poll a)).sensor = Sweep.step VSENSOR_COUNT s.sensor s.conf.ready ∧
      (s.act (.poll a)).Ok := by
  obtain ⟨hnext, hvisit⟩ := readLoop_eq s.conf a hsensor
  have hone : (if s.step > 1 then { s with step := 0 } else s) = s :=
    if_neg (by rw [hs]; decide)
  rw [requests, act, i2cReadTemps, hone, if_neg (by rw [hs]; decide)]
  dsimp only
  rw [hnext, hvisit]
  split
  · rename_i hdone
    refine ⟨rfl, rfl, ?_⟩
    rw [Ok]
    refine iff_of_false ?_ (Nat.not_lt_of_le hdone)
    dsimp only
    omega
  · rename_i hopen
    refine ⟨rfl, rfl, ?_⟩
    rw [Ok]
    exact iff_of_true hs (Nat.lt_of_not_le hopen)

/-- As long as the cycle is open, the calls sweep over the sensors. -/
theorem run_sweeps {s : I2cState F C} (hok : s.Ok) {acts : List (I2cAction F C)}
    (hopen : Machine.Within act (fun s _ => s.step = 1) s acts) :
    s.requested acts =
        (Sweep.visits VSENSOR_COUNT s.sensor
          ((s.found acts).map I2cConfig.ready)).map I2cRequest.read ∧
      (Machine.run act s acts).sensor =
        Machine.run (Sweep.step VSENSOR_COUNT) s.sensor ((s.found acts).map I2cConfig.ready) ∧
      (Machine.run act s acts).Ok := by
  induction acts generalizing s with
  | nil => exact ⟨rfl, rfl, hok⟩
  | cons x acts ih =>
    obtain ⟨hs, hopen⟩ := hopen
    cases x with
    | configure conf => exact ih hok hopen
    | poll a =>
      obtain ⟨hvisit, hsensor, hok'⟩ := poll_next hs (Nat.le_of_lt (hok.mp hs)) a
      obtain ⟨htrace, hrun, hend⟩ := ih hok' hopen
      rw [hsensor] at htrace hrun
      refine ⟨?_, hrun, hend⟩
      rw [requested, Machine.trace_cons, hvisit, ← requested, htrace, ← List.map_append]
      rfl

/-- Every call but the last leaves some sensors to go. -/
theorem length_polled_le {s : I2cState F C} (hok : s.Ok) {acts : List (I2cAction F C)}
    (hopen : Machine.Within act (fun s _ => s.step = 1) s acts) :
    (s.found acts).length ≤ VSENSOR_COUNT - s.sensor := by
  induction acts generalizing s with
  | nil => exact Nat.zero_le _
  | cons x acts ih =>
    obtain ⟨hs, hopen⟩ := hopen
    cases x with
    | configure conf => exact ih hok hopen
    | poll a =>
      have hroom := hok.mp hs
      obtain ⟨-, hsensor, hok'⟩ := poll_next hs (Nat.le_of_lt hroom) a
      have hrest := ih hok' hopen
      have hmoves := Sweep.lt_step VSENSOR_COUNT s.sensor s.conf.ready
      rw [hsensor] at hrest
      rw [found, Machine.trace_cons, polled, List.length_append, List.length_singleton, ← found]
      omega

end I2cState

/-- **A cycle of measurements.** Whatever commands do between its calls, a cycle starts the
measurement on the sensors that are ready, and then reads in order, none twice, sensors that are
ready, among them each one that stays ready; it takes at most one call per sensor. -/
theorem i2c_cycle {s : I2cState F C} (hs : s.step ≠ 1) (a : I2cAnswers F C)
    {acts : List (I2cAction F C)}
    (hopen : Machine.Within I2cState.act (fun s _ => s.step = 1) (s.act (.poll a)) acts)
    (hend : (Machine.run I2cState.act (s.act (.poll a)) acts).step ≠ 1) :
    s.requests (.poll a) = ((List.range VSENSOR_COUNT).filter s.conf.ready).map .start ∧
      ∃ l : List Nat, (s.act (.poll a)).requested acts = l.map .read ∧ l.Pairwise (· < ·) ∧
        (∀ i ∈ l, i < VSENSOR_COUNT ∧
          ∃ conf ∈ (s.act (.poll a)).found acts, conf.ready i = true) ∧
        (∀ i < VSENSOR_COUNT,
          (∀ conf ∈ (s.act (.poll a)).found acts, conf.ready i = true) → i ∈ l) ∧
        ((s.act (.poll a)).found acts).length ≤ VSENSOR_COUNT := by
  obtain ⟨hstart, hone, hzero⟩ := I2cState.poll_first hs a
  have hok : (s.act (.poll a)).Ok := by
    rw [I2cState.Ok, hone, hzero]
    exact iff_of_true rfl (by decide)
  obtain ⟨hrequested, hsensor, hok'⟩ := I2cState.run_sweeps hok hopen
  have hlen := I2cState.length_polled_le hok hopen
  rw [hzero] at hrequested hsensor hlen
  refine ⟨hstart, _, hrequested, Sweep.visits_increasing _ _, fun i hi => ?_,
    fun i hi hready => ?_, hlen⟩
  · obtain ⟨-, hlt, p, hp, hpi⟩ := Sweep.of_mem_visits hi
    obtain ⟨conf, hconf, rfl⟩ := List.mem_map.mp hp
    exact ⟨hlt, conf, hconf, hpi⟩
  · have hdone : VSENSOR_COUNT ≤ (Machine.run I2cState.act (s.act (.poll a)) acts).sensor :=
      Nat.le_of_not_lt fun hlt => hend (hok'.mpr hlt)
    rw [hsensor] at hdone
    refine Sweep.visited_of_passed (Nat.zero_le i) hi (Nat.lt_of_lt_of_le hi hdone) ?_
    rintro p hp
    obtain ⟨conf, hconf, rfl⟩ := List.mem_map.mp hp
    exact hready conf hconf

/-- The configuration with the sensors `is`. -/
def i2cSensors (is : List Nat) : I2cConfig ℚ Unit :=
  { config :=
      { clearConfig hostPlatform with
        vsensors := Vector.ofFn fun i =>
          if i.val ∈ is then { clearVsensor hostPlatform with mode := .i2c, i2cType := 1 }
          else clearVsensor hostPlatform }
    i2cContext := Vector.replicate _ (some ()) }

/-- All sensors answer. -/
def allAnswer : I2cAnswers ℚ Unit :=
  { startMeasurement := fun _ => 20, readMeasurement := fun _ => (0, ⟨21, -1, -1⟩), now := 7 }

/-- In the middle of a cycle two sensors take the place of two others. -/
theorem i2c_cycle_replaced :
    let s : I2cState ℚ Unit := ⟨0, 0, i2cSensors [2, 5]⟩
    let acts := [.poll allAnswer, .configure (i2cSensors [1, 6]), .poll allAnswer, .poll allAnswer]
    s.requests (.poll allAnswer) = [.start 2, .start 5] ∧
      (s.act (.poll allAnswer)).requested acts = [.read 2, .read 6] ∧
      ∃ l : List Nat, (s.act (.poll allAnswer)).requested acts = l.map .read ∧
        l.Pairwise (· < ·) := by
  intro s acts
  have hopen : Machine.Within I2cState.act (fun s _ => s.step = 1) (s.act (.poll allAnswer))
      acts := by
    decide +kernel
  obtain ⟨-, l, hl, hsorted, -⟩ := i2c_cycle (s := s) (by decide) allAnswer hopen
    (by decide +kernel)
  exact ⟨by decide +kernel, by decide +kernel, l, hl, hsorted⟩

end LcdPico
