import LcdPico.Lib.CInt
import LcdPico.Settings

/-!
# The number of a sensor (`get_cmd_index`, `array_string_setting`, `cmd_vsensor_*`)

A header token ends in the number of a sensor, and the command functions take 1 from
it. The subtraction is checked here, and next to the result stand the elements that a
function accesses. A function that gets stuck overflows: the number in the token is
not above -2^31.
-/

namespace LcdPico

open CInt

/-! ## The functions -/

/-- What a function does: its result, what it leaves behind, and the elements that it
accesses, in order. -/
structure SensorRun (C : Type) where
  res : Int
  conf : C
  accessed : List Nat

/-- `get_prev_cmd_index(prev_cmd, depth) - 1` -/
def prevSensor? (prev_cmd : List CString) (depth : Nat) : Option Int :=
  fit? 32 (getPrevCmdIndex prev_cmd depth - 1)

/-- The sensor that `cmd_vsensor_temp` and `cmd_vsensor_write` act upon. -/
def headerSensor? (call : Call) : Option Int :=
  if CText.strncaseeq (getPrevCmd call.prevCmd 0) "vsensor".toList 7 then
    prevSensor? call.prevCmd 0
  else fit? 32 (getCmdIndex call.cmd - 1)

section

variable {C : Type}

/-- A function on the sensor with a number: it returns 1 if there is none. -/
def onSensor? (sensor : Option Int) (conf : C) (body : Nat → SensorRun C) :
    Option (SensorRun C) := do
  let sensor ← sensor
  match sensorIn sensor with
  | none => some ⟨1, conf, []⟩
  | some sensor => some (body sensor)

end

section

variable {F D : Type} [Inhabited F] (P : Platform F D)

/-- `cmd_vsensor_source` -/
def cmdVsensorSource? (call : Call) (conf : SystemConfig F) : Option (SensorRun (SystemConfig F)) :=
  onSensor? (prevSensor? call.prevCmd 0) conf fun sensor =>
    if call.query then ⟨0, conf, [sensor]⟩
    else
      let (ret, v) := sourceSetting P call.args (conf.vsensors.rd sensor)
      ⟨ret, { conf with vsensors := conf.vsensors.wr sensor v }, [sensor]⟩

/-- `cmd_vsensor_temp` -/
def cmdVsensorTemp? (call : Call) (conf : SystemConfig F) : Option (SensorRun (SystemConfig F)) :=
  if !call.query then some ⟨1, conf, []⟩
  else onSensor? (headerSensor? call) conf fun sensor => ⟨0, conf, [sensor]⟩

/-- `cmd_vsensor_humidity` -/
def cmdVsensorHumidity? (call : Call) (conf : SystemConfig F) :
    Option (SensorRun (SystemConfig F)) :=
  if !call.query then some ⟨1, conf, []⟩
  else onSensor? (prevSensor? call.prevCmd 0) conf fun sensor => ⟨0, conf, [sensor]⟩

/-- `cmd_vsensor_pressure` -/
def cmdVsensorPressure? (call : Call) (conf : SystemConfig F) :
    Option (SensorRun (SystemConfig F)) :=
  if !call.query then some ⟨1, conf, []⟩
  else onSensor? (prevSensor? call.prevCmd 0) conf fun sensor => ⟨0, conf, [sensor]⟩

/-- `cmd_vsensor_write` -/
def cmdVsensorWrite? (now : UInt64) (call : Call) (conf : SystemConfig F) :
    Option (SensorRun (SystemConfig F)) :=
  if call.query then some ⟨1, conf, []⟩
  else
    onSensor? (headerSensor? call) conf fun sensor =>
      -- the mode first, then the value and its time
      if (conf.vsensors.rd sensor).mode = .manual then
        match P.strtof call.args with
        | some val =>
          ⟨0, { conf with
            vtemp := conf.vtemp.wr sensor val
            vtempUpdated := conf.vtempUpdated.wr sensor now }, [sensor, sensor, sensor]⟩
        | none => ⟨1, conf, [sensor]⟩
      else ⟨2, conf, [sensor]⟩

end

/-- The string of an element: `element_size`, `var_offset` and `var_len`. -/
structure StringMember (α : Type) (size : Nat) where
  get : α → CStr size
  set : α → CStr size → α

/-- `array_string_setting`; `idx` is compared with a `size_t`. -/
def arrayStringSetting? {α : Type} [Inhabited α] {n size : Nat} (call : Call) (cmd_offset : Nat)
    (array : CArray α n) (var : StringMember α size)
    (validate_func : Option (CString → Bool)) : Option (SensorRun (CArray α n)) := do
  let idx ← prevSensor? call.prevCmd cmd_offset
  if idx ≥ 0 ∧ (UInt32.ofInt idx).toNat < n then
    let element := array.rd idx.toNat
    let (res, str) := stringSetting call (var.get element) validate_func
    some ⟨res, array.wr idx.toNat (var.set element str), [idx.toNat]⟩
  else some ⟨1, array, []⟩

/-! ## The number in a token -/

/-- The token is read as a number that is not above -2^31: letters and blanks, white
space, a minus, and the digits. -/
def NumberTooLow (tok : CString) : Prop :=
  tok.length < 256 ∧ ∃ letters ws ds rest, tok = letters ++ (ws ++ '-' :: (ds ++ rest)) ∧
    (∀ c ∈ letters, c.isAlpha || CText.isBlank c) ∧ (∀ c ∈ ws, CText.isSpace c = true) ∧
    (∀ c ∈ ds, c.isDigit = true) ∧ 2 ^ 31 ≤ CText.digitsVal 10 ds

theorem skipLetters_append {letters s : CString}
    (hl : ∀ c ∈ letters, c.isAlpha || CText.isBlank c) (hs : s ≠ []) :
    skipLetters (letters ++ s) = skipLetters s := by
  induction letters with
  | nil => rfl
  | cons c letters ih =>
    have hc := hl c (List.mem_cons_self ..)
    have hrest := ih fun d hd => hl d (List.mem_cons_of_mem c hd)
    cases hnext : letters ++ s with
    | nil => exact absurd (List.append_eq_nil_iff.mp hnext).2 hs
    | cons d t => rw [List.cons_append, hnext, skipLetters, if_pos hc, ← hnext, hrest]

/-- What is skipped, and what is left. -/
theorem skipLetters_split (s : CString) : ∃ letters, s = letters ++ skipLetters s ∧
    ∀ c ∈ letters, c.isAlpha || CText.isBlank c := by
  induction s with
  | nil => exact ⟨[], rfl, fun c hc => absurd hc List.not_mem_nil⟩
  | cons c s ih =>
    cases s with
    | nil => exact ⟨[], rfl, fun c hc => absurd hc List.not_mem_nil⟩
    | cons d s =>
      rw [skipLetters]
      by_cases hc : c.isAlpha || CText.isBlank c
      · obtain ⟨letters, hsplit, hl⟩ := ih
        rw [if_pos hc]
        refine ⟨c :: letters, ?_, ?_⟩
        · rw [List.cons_append, ← hsplit]
        · intro e he
          rcases List.mem_cons.mp he with rfl | he
          · exact hc
          · exact hl e he
      · rw [if_neg hc]
        exact ⟨[], rfl, fun c hc => absurd hc List.not_mem_nil⟩

/-- White space before the minus is skipped up to the first character that is no blank. -/
theorem skipLetters_minus {ws : CString} (hws : ∀ c ∈ ws, CText.isSpace c = true) (t : CString) :
    ∃ ws', skipLetters (ws ++ '-' :: t) = ws' ++ '-' :: t ∧ ∀ c ∈ ws', CText.isSpace c = true := by
  induction ws with
  | nil =>
    refine ⟨[], ?_, hws⟩
    cases t with
    | nil => rfl
    | cons d t => rw [List.nil_append, skipLetters, if_neg (by decide)]
  | cons c ws ih =>
    obtain ⟨ws', heq, hws'⟩ := ih fun d hd => hws d (List.mem_cons_of_mem c hd)
    obtain ⟨d, s, hnext⟩ : ∃ d s, ws ++ '-' :: t = d :: s :=
      List.exists_cons_of_ne_nil (by simp)
    rw [List.cons_append, hnext, skipLetters, ← hnext]
    by_cases hc : c.isAlpha || CText.isBlank c
    · rw [if_pos hc]
      exact ⟨ws', heq, hws'⟩
    · rw [if_neg hc]
      exact ⟨c :: ws, rfl, hws⟩

theorem getCmdIndex_eq_min_iff (tok : CString) : getCmdIndex tok = -2 ^ 31 ↔ NumberTooLow tok := by
  constructor
  · intro h
    rw [getCmdIndex] at h
    split_ifs at h with hlen
    · exact absurd h (by decide)
    cases hint : strToInt (skipLetters tok) 10 with
    | none =>
      rw [hint] at h
      exact absurd h (by decide)
    | some idx =>
      rw [hint] at h
      obtain rfl : idx = -2 ^ 31 := h
      obtain ⟨ws, ds, rest, heq, hws, hds, hval⟩ := (CText.strtol_eq_min_iff _).mp hint
      obtain ⟨letters, hsplit, hl⟩ := skipLetters_split tok
      rw [heq] at hsplit
      exact ⟨by omega, letters, ws, ds, rest, hsplit, hl, hws, hds, hval⟩
  · rintro ⟨hlen, letters, ws, ds, rest, rfl, hl, hws, hds, hval⟩
    obtain ⟨ws', heq, hws'⟩ := skipLetters_minus hws (ds ++ rest)
    have hne : ws ++ '-' :: (ds ++ rest) ≠ [] := by simp
    have hpos : 1 ≤ (letters ++ (ws ++ '-' :: (ds ++ rest))).length :=
      List.length_pos_iff.mpr (by simp)
    have hmin : strToInt (skipLetters (letters ++ (ws ++ '-' :: (ds ++ rest)))) 10 =
        some (-2 ^ 31) := by
      rw [skipLetters_append hl hne, heq]
      exact (CText.strtol_eq_min_iff _).mpr ⟨ws', ds, rest, rfl, hws', hds, hval⟩
    rw [getCmdIndex, if_neg (by omega), hmin]

/-- The value of `strtol` is a `long`. -/
theorem strToInt_fits {s : CString} {v : Int} (h : strToInt s 10 = some v) : Fits 32 v := by
  obtain ⟨⟨v, rest⟩, hv, rfl⟩ := Option.map_eq_some_iff.mp h
  simp only [CText.strtol] at hv
  split_ifs at hv <;>
  · obtain rfl := (Prod.mk.inj (Option.some.inj hv)).1
    constructor
    · exact le_max_left _ _
    · simp only
      omega

theorem getCmdIndex_fits (tok : CString) : Fits 32 (getCmdIndex tok) := by
  rw [getCmdIndex]
  split
  · decide
  · split
    · decide
    · rename_i idx hidx
      exact strToInt_fits hidx

/-! ## The token that a number is taken from -/

/-- The token of `get_prev_cmd_index`. -/
def prevToken (prev_cmd : List CString) (depth : Nat) : Option CString :=
  if depth ≥ prev_cmd.length then none
  else some (prev_cmd.getD (prev_cmd.length - depth - 1) [])

/-- The token that `cmd_vsensor_temp` and `cmd_vsensor_write` take the number from. -/
def headerToken (call : Call) : Option CString :=
  if CText.strncaseeq (getPrevCmd call.prevCmd 0) "vsensor".toList 7 then
    prevToken call.prevCmd 0
  else some call.cmd

/-- The number that is taken from a token, or from none. -/
def tokenIndex (token : Option CString) : Int := (token.map getCmdIndex).getD (-2)

theorem prevSensor?_eq (prev_cmd : List CString) (depth : Nat) :
    prevSensor? prev_cmd depth = fit? 32 (tokenIndex (prevToken prev_cmd depth) - 1) := by
  rw [prevSensor?, getPrevCmdIndex, prevToken]
  split <;> rfl

theorem headerSensor?_eq (call : Call) :
    headerSensor? call = fit? 32 (tokenIndex (headerToken call) - 1) := by
  rw [headerSensor?, headerToken, prevSensor?_eq]
  split <;> rfl

/-- No number in the token is too low. -/
def NumberInRange (token : Option CString) : Prop := ∀ tok ∈ token, ¬NumberTooLow tok

theorem fit?_tokenIndex_iff (token : Option CString) :
    Fits 32 (tokenIndex token - 1) ↔ NumberInRange token := by
  cases token with
  | none =>
    exact iff_of_true (by decide) fun tok htok => absurd htok (Option.not_mem_none tok)
  | some tok =>
    obtain ⟨hlo, hhi⟩ := getCmdIndex_fits tok
    have hmin := getCmdIndex_eq_min_iff tok
    have hrange : NumberInRange (some tok) ↔ getCmdIndex tok ≠ -2 ^ 31 := by
      rw [ne_eq, hmin]
      simp [NumberInRange]
    rw [hrange]
    constructor
    · rintro ⟨hlow, -⟩ heq
      rw [tokenIndex, Option.map_some, Option.getD_some, heq] at hlow
      exact absurd hlow (by decide)
    · intro hne
      constructor
      · show -2 ^ 31 ≤ getCmdIndex tok - 1
        omega
      · show getCmdIndex tok - 1 < 2 ^ 31
        omega

/-! ## The functions without overflow -/

theorem prevSensor?_some {prev_cmd : List CString} {depth : Nat}
    (h : NumberInRange (prevToken prev_cmd depth)) :
    prevSensor? prev_cmd depth = some (getPrevCmdIndex prev_cmd depth - 1) := by
  have hfits := fit?_eq ((fit?_tokenIndex_iff _).mpr h)
  rw [← prevSensor?_eq] at hfits
  rw [prevSensor?, fit?] at hfits ⊢
  split_ifs at hfits with hin
  rw [if_pos hin]

theorem headerSensor?_some {call : Call} (h : NumberInRange (headerToken call)) :
    headerSensor? call = some (headerSensor call) := by
  rw [headerToken] at h
  rw [headerSensor?, headerSensor]
  split_ifs at h ⊢ with hname
  · exact prevSensor?_some h
  · exact fit?_eq ((fit?_tokenIndex_iff _).mpr h)

section

variable {C : Type}

/-- What the caller gets. -/
def SensorRun.outcome (r : SensorRun C) : Int × C := (r.res, r.conf)

theorem onSensor?_outcome (sensor : Int) (conf : C) (body : Nat → SensorRun C) :
    (onSensor? (some sensor) conf body).map SensorRun.outcome =
      some (match sensorIn sensor with
        | none => (1, conf)
        | some sensor => (body sensor).outcome) := by
  rw [onSensor?, Option.bind_eq_bind, Option.bind_some]
  cases sensorIn sensor <;> rfl

end

section

variable {F : Type} {call : Call} (conf : SystemConfig F)

theorem cmdVsensorTemp?_outcome (h : call.query = true → NumberInRange (headerToken call)) :
    (cmdVsensorTemp? call conf).map SensorRun.outcome = some (cmdVsensorTemp call conf) := by
  rw [cmdVsensorTemp?, cmdVsensorTemp]
  cases hquery : call.query with
  | false => rfl
  | true =>
    simp only [Bool.not_true, Bool.false_eq_true, if_false]
    rw [headerSensor?_some (h hquery), onSensor?_outcome]
    rfl

theorem cmdVsensorHumidity?_outcome
    (h : call.query = true → NumberInRange (prevToken call.prevCmd 0)) :
    (cmdVsensorHumidity? call conf).map SensorRun.outcome =
      some (cmdVsensorHumidity call conf) := by
  rw [cmdVsensorHumidity?, cmdVsensorHumidity]
  cases hquery : call.query with
  | false => rfl
  | true =>
    simp only [Bool.not_true, Bool.false_eq_true, if_false]
    rw [prevSensor?_some (h hquery), onSensor?_outcome]
    rfl

/-- `cmd_vsensor_pressure` differs from `cmd_vsensor_humidity` in what it prints. -/
theorem cmdVsensorPressure?_outcome
    (h : call.query = true → NumberInRange (prevToken call.prevCmd 0)) :
    (cmdVsensorPressure? call conf).map SensorRun.outcome =
      some (cmdVsensorPressure call conf) :=
  cmdVsensorHumidity?_outcome conf h

end

section

variable {F D : Type} [Inhabited F] (P : Platform F D) {call : Call} (conf : SystemConfig F)

theorem cmdVsensorSource?_outcome (h : NumberInRange (prevToken call.prevCmd 0)) :
    (cmdVsensorSource? P call conf).map SensorRun.outcome =
      some (cmdVsensorSource P call conf) := by
  rw [cmdVsensorSource?, prevSensor?_some h, onSensor?_outcome, cmdVsensorSource]
  cases sensorIn (getPrevCmdIndex call.prevCmd 0 - 1) with
  | none => rfl
  | some sensor => cases call.query <;> rfl

theorem cmdVsensorWrite?_outcome (now : UInt64)
    (h : call.query = false → NumberInRange (headerToken call)) :
    (cmdVsensorWrite? P now call conf).map SensorRun.outcome =
      some (cmdVsensorWrite P now call conf) := by
  rw [cmdVsensorWrite?, cmdVsensorWrite]
  cases hquery : call.query with
  | true => rfl
  | false =>
    simp only [Bool.false_eq_true, if_false]
    rw [headerSensor?_some (h hquery), onSensor?_outcome]
    cases sensorIn (headerSensor call) with
    | none => rfl
    | some sensor =>
      simp only
      split <;> cases P.strtof call.args <;> rfl

end

/-! ## Main result -/

/-- The function comes to an end; it accesses the elements of a sensor only if the
number in the token is that of the sensor, and returns an error without touching
anything if the number is that of none. -/
def SensorChecked {C : Type} (token : Option CString) (conf : C) (run : Option (SensorRun C)) :
    Prop :=
  ∃ r, run = some r ∧
    (∀ i ∈ r.accessed, tokenIndex token = i + 1 ∧ i + 1 ≤ VSENSOR_COUNT) ∧
    (¬(1 ≤ tokenIndex token ∧ tokenIndex token ≤ VSENSOR_COUNT) →
      r.res ≠ 0 ∧ r.accessed = [] ∧ r.conf = conf)

variable {C : Type} {token : Option CString} {conf : C}

theorem onSensor?_checked {body : Nat → SensorRun C}
    (hbody : ∀ sensor, ∀ i ∈ (body sensor).accessed, i = sensor) :
    SensorChecked token conf (onSensor? (fit? 32 (tokenIndex token - 1)) conf body) ↔
      NumberInRange token := by
  rw [← fit?_tokenIndex_iff]
  by_cases hfits : Fits 32 (tokenIndex token - 1)
  · refine iff_of_true ?_ hfits
    rw [fit?_eq hfits]
    by_cases hin : 0 ≤ tokenIndex token - 1 ∧ tokenIndex token - 1 < VSENSOR_COUNT
    · refine ⟨body (tokenIndex token - 1).toNat, ?_, ?_, ?_⟩
      · simp only [onSensor?, Option.bind_eq_bind, Option.bind_some, sensorIn, if_pos hin]
      · intro i hi
        obtain rfl := hbody _ i hi
        omega
      · intro hout
        omega
    · refine ⟨⟨1, conf, []⟩, ?_, ?_, ?_⟩
      · simp only [onSensor?, Option.bind_eq_bind, Option.bind_some, sensorIn, if_neg hin]
      · exact fun _ hi => absurd hi List.not_mem_nil
      · exact fun _ => ⟨one_ne_zero, rfl, rfl⟩
  · refine iff_of_false ?_ hfits
    rintro ⟨r, hr, -⟩
    rw [fit?_eq_none_iff.mpr hfits] at hr
    cases hr

/-- A function that returns an error at once does not get to the number. -/
theorem sensorChecked_of_error : SensorChecked token conf (some ⟨1, conf, []⟩) :=
  ⟨_, rfl, fun _ hi => absurd hi List.not_mem_nil, fun _ => ⟨one_ne_zero, rfl, rfl⟩⟩

theorem queried?_checked (query : Bool) {run : Option (SensorRun C)}
    (h : query = true → (SensorChecked token conf run ↔ NumberInRange token)) :
    SensorChecked token conf (if !query then some ⟨1, conf, []⟩ else run) ↔
      query = false ∨ NumberInRange token := by
  cases query with
  | false => exact iff_of_true sensorChecked_of_error (Or.inl rfl)
  | true => simpa using h rfl

/-- On eight elements, the comparison with a `size_t` is that of the integers. -/
theorem arrayStringSetting?_eq {α : Type} [Inhabited α] {size : Nat} (call : Call)
    (cmd_offset : Nat) (array : CArray α VSENSOR_COUNT) (var : StringMember α size)
    (validate_func : Option (CString → Bool)) :
    arrayStringSetting? call cmd_offset array var validate_func =
      onSensor? (prevSensor? call.prevCmd cmd_offset) array fun sensor =>
        let element := array.rd sensor
        let (res, str) := stringSetting call (var.get element) validate_func
        ⟨res, array.wr sensor (var.set element str), [sensor]⟩ := by
  rw [arrayStringSetting?, onSensor?]
  cases hsensor : prevSensor? call.prevCmd cmd_offset with
  | none => rfl
  | some idx =>
    have hfits : Fits 32 idx := by
      rw [prevSensor?, fit?] at hsensor
      split_ifs at hsensor with hfits
      exact Option.some_inj.mp hsensor ▸ hfits
    have hcond : idx ≥ 0 ∧ (UInt32.ofInt idx).toNat < VSENSOR_COUNT ↔
        0 ≤ idx ∧ idx < VSENSOR_COUNT := by
      have hmod : idx ≥ 0 → (UInt32.ofInt idx).toNat = idx.toNat := by
        intro hpos
        have hlt : idx < 2 ^ 31 := hfits.2
        rw [UInt32.ofInt, UInt32.toNat_ofNat']
        omega
      constructor
      · rintro ⟨hpos, hlt⟩
        rw [hmod hpos] at hlt
        omega
      · rintro ⟨hpos, hlt⟩
        rw [hmod hpos]
        omega
    simp only [Option.bind_eq_bind, Option.bind_some, hcond, sensorIn]
    split_ifs <;> rfl

/-- The names of the sensors, as `cmd_vsensor_name` passes them. -/
def vsensorName {F : Type} : StringMember (VsensorInput F) MAX_NAME_LEN :=
  ⟨VsensorInput.name, fun v name => { v with name := name }⟩

theorem arrayStringSetting?_outcome {F : Type} [Inhabited F] {call : Call} (conf : SystemConfig F)
    (h : NumberInRange (prevToken call.prevCmd 0)) :
    ((arrayStringSetting? call 0 conf.vsensors vsensorName none).map fun r =>
        (r.res, { conf with vsensors := r.conf })) = some (cmdVsensorName call conf) := by
  rw [arrayStringSetting?_eq, prevSensor?_some h, onSensor?, Option.bind_eq_bind,
    Option.bind_some, cmdVsensorName]
  cases sensorIn (getPrevCmdIndex call.prevCmd 0 - 1) <;> rfl

/-- A function on a sensor number is checked exactly if it returns before the number is
taken, or the number is in range. -/
theorem sensor_numbers_checked {F D : Type} [Inhabited F] (P : Platform F D) (now : UInt64)
    (call : Call) (conf : SystemConfig F) {α : Type} [Inhabited α] {size : Nat} (cmd_offset : Nat)
    (array : CArray α VSENSOR_COUNT) (var : StringMember α size)
    (validate_func : Option (CString → Bool)) :
    (SensorChecked (prevToken call.prevCmd 0) conf (cmdVsensorSource? P call conf) ↔
      NumberInRange (prevToken call.prevCmd 0)) ∧
    (SensorChecked (headerToken call) conf (cmdVsensorTemp? call conf) ↔
      call.query = false ∨ NumberInRange (headerToken call)) ∧
    (SensorChecked (prevToken call.prevCmd 0) conf (cmdVsensorHumidity? call conf) ↔
      call.query = false ∨ NumberInRange (prevToken call.prevCmd 0)) ∧
    (SensorChecked (prevToken call.prevCmd 0) conf (cmdVsensorPressure? call conf) ↔
      call.query = false ∨ NumberInRange (prevToken call.prevCmd 0)) ∧
    (SensorChecked (headerToken call) conf (cmdVsensorWrite? P now call conf) ↔
      call.query = true ∨ NumberInRange (headerToken call)) ∧
    (SensorChecked (prevToken call.prevCmd cmd_offset) array
        (arrayStringSetting? call cmd_offset array var validate_func) ↔
      NumberInRange (prevToken call.prevCmd cmd_offset)) := by
  refine ⟨?_, ?_, ?_, ?_, ?_, ?_⟩
  · rw [cmdVsensorSource?, prevSensor?_eq]
    apply onSensor?_checked
    intro sensor i hi
    split at hi <;> exact List.mem_singleton.mp hi
  · rw [cmdVsensorTemp?, headerSensor?_eq]
    exact queried?_checked call.query fun _ => onSensor?_checked fun _ _ => List.mem_singleton.mp
  · rw [cmdVsensorHumidity?, prevSensor?_eq]
    exact queried?_checked call.query fun _ => onSensor?_checked fun _ _ => List.mem_singleton.mp
  · rw [cmdVsensorPressure?, prevSensor?_eq]
    exact queried?_checked call.query fun _ => onSensor?_checked fun _ _ => List.mem_singleton.mp
  · rw [cmdVsensorWrite?, headerSensor?_eq]
    cases hquery : call.query with
    | true => exact iff_of_true sensorChecked_of_error (Or.inl rfl)
    | false =>
      simp only [Bool.false_eq_true, if_false, false_or]
      apply onSensor?_checked
      intro sensor i hi
      split at hi
      · split at hi
        · simpa using hi
        · exact List.mem_singleton.mp hi
      · exact List.mem_singleton.mp hi
  · rw [arrayStringSetting?_eq, prevSensor?_eq]
    exact onSensor?_checked fun _ _ => List.mem_singleton.mp

/-- The number 2^31 after a minus: taking 1 from it overflows. -/
theorem sensor_number_overflows :
    let call : Call :=
      { cmd := "NAME?".toList
        args := []
        query := true
        prevCmd := ["CONF".toList, "VSENSOR-2147483648".toList] }
    let name : StringMember (CStr 32) 32 := ⟨id, fun _ str => str⟩
    ¬SensorChecked (prevToken call.prevCmd 0) (Vector.replicate VSENSOR_COUNT CStr.empty)
      (arrayStringSetting? call 0 (Vector.replicate VSENSOR_COUNT CStr.empty) name none) := by
  rintro call name ⟨r, hr, -⟩
  have hover : prevSensor? call.prevCmd 0 = none := by decide +kernel
  rw [arrayStringSetting?, hover] at hr
  cases hr

end LcdPico
