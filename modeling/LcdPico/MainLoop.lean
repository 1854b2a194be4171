import LcdPico.I2cPolling
import LcdPico.Lib.Periodic

/-!
# The tasks of core 0 (`main`)

Each turn of the loop of `main` polls its tasks with `time_passed`: six with a fixed period,
among them the watchdog, and the I2C sensors with the delay that the last call of
`i2c_read_temps` asked for. How long a turn takes depends on the commands and the network.

* `core0_tasks_periodic` — what the length of the turns means for the tasks
* `i2c_reads_wait` — the time that a sensor asked for runs from the call that starts it: no
  sensor is read before it is over, less what of the call was over when the sensor was started
-/

namespace LcdPico

variable {F C : Type} [Inhabited F]

/-- `time_passed`, with clock readings in microseconds: the result, and `*t`. -/
def timePassed (t ms now : Nat) : Bool × Nat :=
  if t = 0 ∨ t + 1000 * ms < now then (true, now) else (false, t)

/-- The tasks with a fixed period. -/
inductive Core0Task where
  /-- `network_poll` -/
  | network
  /-- `update_persistent_memory` -/
  | ram
  /-- the status LED -/
  | led
  /-- the periodic call of `update_system_state`; the one before a user command is no task -/
  | state
  /-- `read_temps` -/
  | intTemp
  /-- `watchdog_update` -/
  | watchdog
deriving DecidableEq, Repr

/-- The period in milliseconds. -/
def Core0Task.ms : Core0Task → Nat
  | .network => 1
  | .ram | .led | .state | .watchdog => 1000
  | .intTemp => 5000

/-- The variables of `main` that the tasks depend on: `t_network` to `t_watchdog`, and those of
the I2C sensors. -/
structure Core0 (F C : Type) where
  timers : Core0Task → Nat
  tI2cTemp : Nat
  i2cTempDelay : Int
  i2cBusActive : Bool
  i2cTempSensors : Nat
  i2c : I2cState F C

/-- What a turn of the loop finds: the clock at each call of `time_passed`, the answers of the
sensors, and what the commands make of the configuration. A request reaches its sensor some
time after the `time_passed` of the call that makes it. -/
structure Core0Turn (F C : Type) where
  clock : Core0Task → Nat
  i2cClock : Nat
  /-- the clock at each request of the call -/
  requestClock : Nat → Nat
  i2cClock_le : ∀ n, i2cClock ≤ requestClock n
  answers : I2cAnswers F C
  commands : I2cConfig F C → I2cConfig F C

namespace Core0

/-- The turn calls `i2c_read_temps`. -/
def pollsI2c (s : Core0 F C) (x : Core0Turn F C) : Bool :=
  s.i2cTempDelay > 0 && (timePassed s.tI2cTemp s.i2cTempDelay.toNat x.i2cClock).1

/-- `i2c_read_temps`, as the turn calls it. -/
def readTemps (s : Core0 F C) (x : Core0Turn F C) : I2cState F C × List I2cRequest × Int :=
  i2cReadTemps? s.i2cBusActive s.i2cTempSensors s.i2c x.answers

/-- A turn of the loop. -/
def turn (s : Core0 F C) (x : Core0Turn F C) : Core0 F C :=
  let timers := fun k => (timePassed (s.timers k) k.ms (x.clock k)).2
  let s := { s with timers := timers }
  let s :=
    if s.pollsI2c x then
      let (i2c, _, delay) := s.readTemps x
      { s with tI2cTemp := x.i2cClock, i2cTempDelay := delay, i2c := i2c }
    else s
  { s with i2c := { s.i2c with conf := x.commands s.i2c.conf } }

/-- The start of the task `k` in a turn. -/
def starts (k : Core0Task) (s : Core0 F C) (x : Core0Turn F C) : List Nat :=
  if (timePassed (s.timers k) k.ms (x.clock k)).1 then [x.clock k] else []

/-- What a turn asks of the sensors, with the time of each request. -/
def asks (s : Core0 F C) (x : Core0Turn F C) : List (Nat × I2cRequest) :=
  if s.pollsI2c x then (s.readTemps x).2.1.mapIdx fun n r => (x.requestClock n, r) else []

end Core0

/-! ## Tasks with a fixed period -/

theorem timePassed_eq (t ms now : Nat) :
    timePassed t ms now = (Periodic.due (1000 * ms) t now, Periodic.poll (1000 * ms) t now) := by
  rw [timePassed, Periodic.poll]
  by_cases h : t = 0 ∨ t + 1000 * ms < now
  · rw [if_pos h, Periodic.due_iff.mpr h, if_pos rfl]
  · have hdue : Periodic.due (1000 * ms) t now = false :=
      Bool.eq_false_iff.mpr (mt Periodic.due_iff.mp h)
    rw [if_neg h, hdue, if_neg Bool.false_ne_true]

theorem turn_timers (s : Core0 F C) (x : Core0Turn F C) (k : Core0Task) :
    (s.turn x).timers k = Periodic.poll (1000 * k.ms) (s.timers k) (x.clock k) := by
  rw [Core0.turn]
  dsimp only
  split
  · exact congrArg Prod.snd (timePassed_eq _ _ _)
  · exact congrArg Prod.snd (timePassed_eq _ _ _)

/-- The starts of a task in the turns `xs`. -/
theorem trace_starts (s : Core0 F C) (k : Core0Task) (xs : List (Core0Turn F C)) :
    Machine.trace Core0.turn (Core0.starts k) s xs =
      Periodic.starts (1000 * k.ms) (s.timers k) (xs.map fun x => x.clock k) := by
  induction xs generalizing s with
  | nil => rfl
  | cons x xs ih =>
    rw [Machine.trace_cons, ih, turn_timers, Core0.starts, timePassed_eq]
    rfl

/-- **Tasks of core 0.** Two starts of a task are more than its period apart, and, if no turn
takes more than `d` µs, at most its period and `d`. -/
theorem core0_tasks_periodic (s : Core0 F C) (k : Core0Task) {xs : List (Core0Turn F C)}
    (hclock : ∀ x ∈ xs, x.clock k ≠ 0) {d : Nat}
    (hturns : (xs.map fun x => x.clock k).IsChain fun a b => b ≤ a + d) :
    ((Machine.trace Core0.turn (Core0.starts k) s xs).Pairwise fun a b => a + 1000 * k.ms < b) ∧
      (Machine.trace Core0.turn (Core0.starts k) s xs).IsChain
        fun a b => b ≤ a + 1000 * k.ms + d := by
  rw [trace_starts]
  exact ⟨Periodic.starts_spaced _ _ (List.forall_mem_map.mpr hclock),
    Periodic.starts_close _ _ hturns⟩

/-- The loop of `main` with one sensor, before its first turn. -/
def core0Start : Core0 ℚ Unit :=
  { timers := fun _ => 0
    tI2cTemp := 0
    i2cTempDelay := 1000
    i2cBusActive := true
    i2cTempSensors := 1
    i2c := ⟨0, 0, i2cSensors [2]⟩ }

/-- A turn in which all clock readings are `now`, and the requests `late` µs after it. -/
def core0Turn (late now : Nat) : Core0Turn ℚ Unit :=
  { clock := fun _ => now
    i2cClock := now
    requestClock := fun _ => now + late
    i2cClock_le := fun _ => Nat.le_add_right now late
    answers := allAnswer
    commands := id }

/-- Turns that take 0.6 s. -/
theorem core0_tasks_periodic_led :
    Machine.trace Core0.turn (Core0.starts .led) core0Start
        ([5, 600005, 1200005].map (core0Turn 0)) = [5, 1200005] ∧
      [5, 1200005].IsChain fun a b => b ≤ a + 1000 * 1000 + 600000 := by
  have hclock : ∀ x ∈ [5, 600005, 1200005].map (core0Turn 0), x.clock .led ≠ 0 := by decide
  have hstarts := (core0_tasks_periodic core0Start .led hclock (d := 600000) (by decide)).2
  have htrace : Machine.trace Core0.turn (Core0.starts .led) core0Start
      ([5, 600005, 1200005].map (core0Turn 0)) = [5, 1200005] := by
    decide +kernel
  rw [htrace] at hstarts
  exact ⟨htrace, hstarts⟩

/-! ## The I2C sensors -/

omit [Inhabited F] in
theorem pollsI2c_iff (s : Core0 F C) (x : Core0Turn F C) :
    s.pollsI2c x = true ↔
      0 < s.i2cTempDelay ∧
        (s.tI2cTemp = 0 ∨ (s.tI2cTemp : Int) + 1000 * s.i2cTempDelay < x.i2cClock) := by
  rw [Core0.pollsI2c, timePassed_eq, Bool.and_eq_true, decide_eq_true_iff, Periodic.due_iff]
  refine and_congr_right fun hpos => or_congr_right ?_
  omega

/-- The sensors are not polled up to `t`. -/
def Core0.QuietUntil (t : Int) (s : Core0 F C) : Prop := ∀ x, s.pollsI2c x = true → t < x.i2cClock

/-- What a turn asks, it asks in its poll. -/
theorem le_of_mem_asks {s : Core0 F C} {x : Core0Turn F C} {time : Nat} {r : I2cRequest}
    (hr : (time, r) ∈ s.asks x) : s.pollsI2c x = true ∧ x.i2cClock ≤ time := by
  rw [Core0.asks] at hr
  split at hr
  · rename_i hpolls
    obtain ⟨n, _, hn⟩ := List.mem_mapIdx.mp hr
    rw [← (Prod.mk.inj hn).1]
    exact ⟨hpolls, x.i2cClock_le n⟩
  · exact absurd hr List.not_mem_nil

/-- What a turn leaves of the variables of the I2C sensors. -/
theorem turn_i2c (s : Core0 F C) (x : Core0Turn F C) :
    (s.turn x).tI2cTemp = (if s.pollsI2c x then x.i2cClock else s.tI2cTemp) ∧
      (s.turn x).i2cTempDelay = if s.pollsI2c x then (s.readTemps x).2.2 else s.i2cTempDelay := by
  rw [Core0.turn]
  split
  · rename_i hpolls
    have hpolls' : s.pollsI2c x = true := hpolls
    rw [if_pos hpolls', if_pos hpolls']
    exact ⟨rfl, rfl⟩
  · rename_i hpolls
    have hpolls' : ¬s.pollsI2c x = true := hpolls
    rw [if_neg hpolls', if_neg hpolls']
    exact ⟨rfl, rfl⟩

/-- The delay that a call asks for passes before the next one. -/
theorem quietUntil_turn {s : Core0 F C} {x : Core0Turn F C} (hpolls : s.pollsI2c x = true)
    (hclock : x.i2cClock ≠ 0) :
    (s.turn x).QuietUntil (x.i2cClock + 1000 * (s.readTemps x).2.2) := by
  intro y hy
  obtain ⟨htime, hdelay⟩ := turn_i2c s x
  rw [pollsI2c_iff, htime, hdelay, if_pos hpolls, if_pos hpolls] at hy
  exact hy.2.resolve_left hclock

/-- Quiet remains quiet: the delays only move the next call away. -/
theorem Core0.QuietUntil.turn {t : Int} (ht : 0 ≤ t) {s : Core0 F C} (hquiet : s.QuietUntil t)
    (x : Core0Turn F C) : (s.turn x).QuietUntil t := by
  intro y hy
  obtain ⟨htime, hdelay⟩ := turn_i2c s x
  rw [pollsI2c_iff, htime, hdelay] at hy
  by_cases hpolls : s.pollsI2c x = true
  · have hx := hquiet x hpolls
    rw [if_pos hpolls, if_pos hpolls] at hy
    obtain ⟨hpos, hzero | hlater⟩ := hy
    · rw [hzero] at hx
      exact absurd ht (Int.not_le.mpr hx)
    · exact Int.lt_trans hx (by omega)
  · rw [if_neg hpolls, if_neg hpolls, ← pollsI2c_iff] at hy
    exact hquiet y hy

theorem Core0.QuietUntil.trace {t : Int} (ht : 0 ≤ t) {s : Core0 F C} (hquiet : s.QuietUntil t)
    {xs : List (Core0Turn F C)} {time : Nat} {r : I2cRequest}
    (hr : (time, r) ∈ Machine.trace Core0.turn Core0.asks s xs) : t < time := by
  induction xs generalizing s with
  | nil => exact absurd hr List.not_mem_nil
  | cons x xs ih =>
    obtain hnow | hlater := List.mem_append.mp hr
    · obtain ⟨hpolls, hlate⟩ := le_of_mem_asks hnow
      have hpoll := hquiet x hpolls
      omega
    · exact ih (hquiet.turn ht x) hlater

/-- The delay that the first call of a cycle asks for is long enough for each sensor, and
there is none if the bus is not active. -/
theorem delay_first {s : Core0 F C} (hs : s.i2c.step ≠ 1) (x : Core0Turn F C) {i : Nat}
    (hi : i < VSENSOR_COUNT) {ctx : C} (hctx : s.i2c.conf.readyContext i = some ctx) :
    (s.readTemps x).2.2 = -1 ∨
      0 < (s.readTemps x).2.2 ∧ x.answers.startMeasurement ctx ≤ (s.readTemps x).2.2 := by
  have hwait := le_startMeasurements s.i2c.conf x.answers hi hctx
  rw [Core0.readTemps, i2cReadTemps?]
  split
  · exact .inl rfl
  · rw [i2cReadTemps_first hs]
    dsimp only
    split
    · exact .inr ⟨by omega, by omega⟩
    · exact .inr ⟨by omega, hwait⟩

/-- **The sensors are given the time they ask for.** In the first call of a cycle each sensor
is started at its own time, `start`, at most `d` µs after the clock reading of the call. Until
the time that its `i2c_start_measurement` asked for is over, but for these `d` µs, no sensor is
read and none started again: the delay runs from the call, not from the start. -/
theorem i2c_reads_wait {s : Core0 F C} {x : Core0Turn F C} (hclock : x.i2cClock ≠ 0)
    (hfirst : s.i2c.step ≠ 1) {i : Nat} (hi : i < VSENSOR_COUNT) {ctx : C}
    (hctx : s.i2c.conf.readyContext i = some ctx) {start d : Nat}
    (hstart : (start, .start i) ∈ s.asks x) (hd : start ≤ x.i2cClock + d)
    {xs : List (Core0Turn F C)} {time : Nat} {r : I2cRequest}
    (hr : (time, r) ∈ Machine.trace Core0.turn Core0.asks (s.turn x) xs) :
    (start : Int) + 1000 * x.answers.startMeasurement ctx < time + d := by
  have hpolls := (le_of_mem_asks hstart).1
  have hquiet := quietUntil_turn hpolls hclock
  obtain hnone | ⟨hpos, hwait⟩ := delay_first hfirst x hi hctx
  · have hnever : (s.turn x).QuietUntil time := by
      intro y hy
      obtain ⟨-, hdelay⟩ := turn_i2c s x
      rw [pollsI2c_iff, hdelay, if_pos hpolls, hnone] at hy
      exact absurd hy.1 (by decide)
    exact absurd (hnever.trace (Int.natCast_nonneg time) hr) (Int.lt_irrefl _)
  · have hlater := hquiet.trace (by omega) hr
    omega

/-- A sensor that asks for 20 ms, started 3 ms into the call and read 17 ms after that. -/
theorem i2c_reads_wait_second :
    core0Start.asks (core0Turn 3000 5) = [(3005, .start 2)] ∧
      Machine.trace Core0.turn Core0.asks (core0Start.turn (core0Turn 3000 5))
        ([12005, 20006].map (core0Turn 0)) = [(20006, .read 2)] ∧
      (3005 : Nat) + (1000 : Int) * 20 < (20006 : Nat) + (3000 : Nat) := by
  have hasks : core0Start.asks (core0Turn 3000 5) = [(3005, .start 2)] := by decide +kernel
  have htrace : Machine.trace Core0.turn Core0.asks (core0Start.turn (core0Turn 3000 5))
      ([12005, 20006].map (core0Turn 0)) = [(20006, .read 2)] := by
    decide +kernel
  have hctx : core0Start.i2c.conf.readyContext 2 = some () := by decide +kernel
  refine ⟨hasks, htrace, ?_⟩
  exact i2c_reads_wait (s := core0Start) (x := core0Turn 3000 5) (by decide) (by decide) (i := 2)
    (by decide) hctx (by rw [hasks]; exact List.mem_singleton_self _) (by decide) (r := .read 2)
    (by rw [htrace]; exact List.mem_singleton_self _)

end LcdPico
