import LcdPico.FlashStore
import LcdPico.Lib.Clocked
import LcdPico.SaveReload

/-!
# The saved configuration on the flash (`config.c`, `flash.c`)

`save_config` writes the text of the configuration and a NUL over the file `lcdpico.cfg`;
a longer text that was there before keeps its tail behind the NUL. `read_config` reads the
whole file at the next boot and parses it up to the NUL. The calls of littlefs may fail;
`save_config` does not ask whether they did.

`Slot` is what this is for: a device that remembers the last configuration that was saved.

* `device_refines_slot` — the device does what the slot does, over all runs, and never reads
  behind a buffer
* `boot_loads_last_save` — after a boot, the settings are those of the last save
-/

namespace LcdPico

variable {F D S : Type}

/-- `cJSON_Print`, which returns NULL if there is no memory, and `cJSON_Parse`. A text that is
printed is a C string in memory. -/
structure JsonText (D : Type) where
  print : Json D → Option (List UInt8)
  parse : List UInt8 → Option (Json D)
  print_noNul : ∀ {json text}, print json = some text → (0 : UInt8) ∉ text
  print_length : ∀ {json text}, print json = some text → text.length < LFS_FILE_MAX

def CONFIG_FILE : CString := "lcdpico.cfg".toList

/-! ## The device -/

/-- What is done with other files: keys, certificates, and the files that the commands copy,
rename and remove. It leaves the configuration file alone. -/
structure OtherFiles {lfs : Lfs S} (doc : Documented lfs) where
  op : S → S
  keeps : ∀ s, (doc.files (op s)).contents CONFIG_FILE = (doc.files s).contents CONFIG_FILE

/-- The configuration, and the flash. -/
structure Device (F S : Type) where
  conf : SystemConfig F
  flash : S

/-- What happens to a device. -/
inductive DeviceAct (D : Type) {lfs : Lfs S} (doc : Documented lfs) where
  /-- a command that sets the configuration -/
  | set (c : SetCommand)
  /-- `upload_config`, when it accepts the text -/
  | upload (config : Json D)
  /-- `save_config` -/
  | save (levels : LogLevels)
  /-- `delete_config` -/
  | delete
  | files (other : OtherFiles doc)
  /-- `read_config`: `malloc` gives a buffer with garbage in it, or fails -/
  | boot (garbage : Option (Nat → UInt8)) (safemode : Bool)

/-- The C string at the beginning of a buffer; stuck if it goes on behind the buffer. -/
def cString? (buf : List UInt8) : Option (List UInt8) :=
  if 0 ∈ buf then some (buf.takeWhile (· ≠ 0)) else none

/-- `malloc`, for one call: NULL, or a buffer with garbage in it. -/
def mallocOnce (garbage : Option (Nat → UInt8)) (size : UInt32) : Option (List UInt8) :=
  garbage.map fun g => (List.range size.toNat).map g

/-- `config` in `read_config`: what is parsed of the saved file. -/
def readSaved? (T : JsonText D) (lfs : Lfs S) (s : S) (garbage : Option (Nat → UInt8)) :
    Option (Option (Json D)) :=
  let file := flashReadFile lfs s (mallocOnce garbage) none 0 (some CONFIG_FILE)
  match if file.res = 0 then file.bufptr else none with
  | some buf => (cString? buf).map T.parse
  | none => some none

/-- The calls of `flash_delete_file` succeed. -/
def Lfs.Removes (lfs : Lfs S) (s : S) (name : CString) : Prop :=
  lfs.mount s = LFS_ERR_OK ∧ lfs.stat s name = LFS_ERR_OK ∧ (lfs.remove s name).1 = LFS_ERR_OK

instance (lfs : Lfs S) (s : S) (name : CString) : Decidable (lfs.Removes s name) :=
  inferInstanceAs (Decidable (_ ∧ _))

section Device

variable (P : Platform F D) (T : JsonText D) (default_config : Json D) [Inhabited F]
  {lfs : Lfs S} {doc : Documented lfs}

/-- `save_config` -/
def Device.saveConfig (lfs : Lfs S) (levels : LogLevels) (d : Device F S) : Device F S :=
  match T.print (configToJson P levels d.conf) with
  | none => d
  | some text =>
    { d with
      flash := (flashWriteFile lfs d.flash (some (text ++ [0]))
        (UInt32.ofNat (text ++ [0]).length) (some CONFIG_FILE)).2 }

/-- `read_config` -/
def Device.readConfig? (lfs : Lfs S) (garbage : Option (Nat → UInt8)) (use_default_config : Bool)
    (d : Device F S) : Option (Device F S) :=
  (if use_default_config then some none else readSaved? T lfs d.flash garbage).map fun saved =>
    { d with conf := readConfig P default_config saved use_default_config }

def Device.step (d : Device F S) : DeviceAct D doc → Option (Device F S)
  | .set c => some { d with conf := setStep P d.conf c }
  | .upload config => some { d with conf := jsonToConfig P config (clearConfig P) }
  | .save levels => some (d.saveConfig P T lfs levels)
  | .delete => some { d with flash := (flashDeleteFile lfs d.flash (some CONFIG_FILE)).2 }
  | .files other => some { d with flash := other.op d.flash }
  | .boot garbage safemode => d.readConfig? P T default_config lfs garbage safemode

/-- All calls of littlefs succeed. -/
def Device.done (d : Device F S) : DeviceAct D doc → Bool
  | .save levels =>
    match T.print (configToJson P levels d.conf) with
    | none => true
    | some text =>
      lfs.Writes d.flash (text ++ [0]) (UInt32.ofNat (text ++ [0]).length) CONFIG_FILE
  | .delete => lfs.Removes d.flash CONFIG_FILE
  | .boot _ _ => lfs.Reads d.flash CONFIG_FILE
  | _ => true

/-- A device with a slot for a saved configuration. -/
structure Slot (F D : Type) where
  conf : SystemConfig F
  saved : Option (Json D)

/-- What a slot does. A configuration that cannot be printed, or not be written, is not saved,
and one that cannot be read, or that there is no memory for, is not loaded. -/
def Slot.step (s : Slot F D) (done : Bool) : DeviceAct D doc → Slot F D
  | .set c => { s with conf := setStep P s.conf c }
  | .upload config => { s with conf := jsonToConfig P config (clearConfig P) }
  | .save levels =>
    match T.print (configToJson P levels s.conf) with
    | none => s
    | some text => if done then { s with saved := T.parse text } else s
  | .delete => if done then { s with saved := none } else s
  | .files _ => s
  | .boot garbage safemode =>
    { s with
      conf :=
        readConfig P default_config (if done && garbage.isSome then s.saved else none) safemode }

/-- The device and the slot, side by side. -/
def sideBySide? (x : Device F S × Slot F D) (a : DeviceAct D doc) :
    Option (Device F S × Slot F D) :=
  (x.1.step P T default_config a).map fun d =>
    (d, x.2.step P T default_config (x.1.done P T a) a)

end Device

/-! ## The file holds what the slot holds -/

/-- The file is empty, or it holds a text with its NUL, and what was there before. -/
structure Device.Holds {lfs : Lfs S} (doc : Documented lfs) (T : JsonText D) (d : Device F S)
    (s : Slot F D) : Prop where
  conf : d.conf = s.conf
  file : (doc.files d.flash).held CONFIG_FILE = [] ∧ s.saved = none ∨
    ∃ text tail, (doc.files d.flash).held CONFIG_FILE = text ++ 0 :: tail ∧ 0 ∉ text ∧
      T.parse text = s.saved

theorem cString?_append {text : List UInt8} (h : 0 ∉ text) (tail : List UInt8) :
    cString? (text ++ 0 :: tail) = some text := by
  have hmem : (0 : UInt8) ∈ text ++ 0 :: tail := List.mem_append_right text List.mem_cons_self
  have hword : ∀ c ∈ text, decide (c ≠ 0) = true := fun c hc =>
    decide_eq_true fun heq => h (heq ▸ hc)
  rw [cString?, if_pos hmem, List.takeWhile_append_of_pos hword,
    List.takeWhile_cons_of_neg (by simp), List.append_nil]

section Steps

variable {T : JsonText D} {lfs : Lfs S} {doc : Documented lfs} {d : Device F S} {s : Slot F D}

/-- What is in the file stays there. -/
theorem Device.Holds.keep (h : d.Holds doc T s) {flash : S}
    (hheld : (doc.files flash).held CONFIG_FILE = (doc.files d.flash).held CONFIG_FILE) :
    Device.Holds doc T { d with flash := flash } s :=
  ⟨h.conf, by rw [hheld]; exact h.file⟩

theorem Device.Holds.delete (h : d.Holds doc T s) :
    Device.Holds doc T { d with flash := (flashDeleteFile lfs d.flash (some CONFIG_FILE)).2 }
      (if lfs.Removes d.flash CONFIG_FILE then { s with saved := none } else s) := by
  by_cases hmount : lfs.mount d.flash = LFS_ERR_OK
  · by_cases hstat : lfs.stat d.flash CONFIG_FILE = LFS_ERR_OK
    · rw [flashDeleteFile, if_neg (not_not.mpr hmount), if_neg (not_not.mpr hstat)]
      by_cases hremove : (lfs.remove d.flash CONFIG_FILE).1 = LFS_ERR_OK
      · rw [if_pos ⟨hmount, hstat, hremove⟩]
        refine ⟨h.conf, .inl ⟨?_, rfl⟩⟩
        rw [Files.held, doc.remove_ok hremove, Option.getD_none]
      · rw [if_neg fun hall => hremove hall.2.2]
        exact h.keep (congrArg (Option.getD · []) (doc.remove_err hremove))
    · rw [flashDeleteFile, if_neg (not_not.mpr hmount), if_pos hstat,
        if_neg fun hall => hstat hall.2.1]
      exact h
  · rw [flashDeleteFile, if_pos hmount, if_neg fun hall => hmount hall.1]
    exact h

/-- The file is read whole, and its text parsed. -/
theorem Device.Holds.readSaved (h : d.Holds doc T s)
    (hread : ∀ s malloc, ¬ ReadErrorTaken lfs s malloc (some CONFIG_FILE))
    (garbage : Option (Nat → UInt8)) :
    readSaved? T lfs d.flash garbage =
      some (if decide (lfs.Reads d.flash CONFIG_FILE) && garbage.isSome then s.saved
        else none) := by
  by_cases hreads : lfs.Reads d.flash CONFIG_FILE
  · rw [readSaved?, decide_eq_true hreads, Bool.true_and]
    obtain ⟨hempty, hnone⟩ | ⟨text, tail, hheld, hnul, hparse⟩ := h.file
    · rw [doc.read_empty hreads hempty, hnone]
      cases garbage with
      | none => rfl
      | some g => rfl
    · have hpos : 0 < ((doc.files d.flash).held CONFIG_FILE).length := by
        rw [hheld, List.length_append, List.length_cons]
        exact Nat.add_pos_right _ (Nat.succ_pos _)
      have hroom : ∀ n b, mallocOnce garbage n = some b → b.length = n.toNat := by
        intro n b hb
        obtain ⟨g, -, rfl⟩ := Option.map_eq_some_iff.mp hb
        rw [List.length_map, List.length_range]
      rw [doc.read hreads hpos hroom, hheld]
      cases garbage with
      | none => rfl
      | some g =>
        change (cString? (text ++ 0 :: tail)).map T.parse = some s.saved
        rw [cString?_append hnul, Option.map_some, hparse]
  · have hnot : decide (lfs.Reads d.flash CONFIG_FILE) = false := decide_eq_false hreads
    have hfails := @flashReadFile_fails _ lfs d.flash CONFIG_FILE (mallocOnce garbage) none 0
      hreads (hread d.flash (mallocOnce garbage))
    rw [readSaved?, hnot, Bool.false_and, ite_eq_right_iff.mpr hfails]
    rfl

variable {P : Platform F D} {default_config : Json D} [Inhabited F]

/-- What was in the file before lies behind the NUL, or is what is still there. -/
theorem Device.Holds.save (h : d.Holds doc T s) (levels : LogLevels) :
    Device.Holds doc T (d.saveConfig P T lfs levels)
      (s.step P T default_config (d.done P T (.save levels : DeviceAct D doc))
        (.save levels : DeviceAct D doc)) := by
  rw [Device.saveConfig, Slot.step, Device.done, ← h.conf]
  cases hprint : T.print (configToJson P levels d.conf) with
  | none => exact h
  | some text =>
    by_cases hwrites : lfs.Writes d.flash (text ++ [0]) (UInt32.ofNat (text ++ [0]).length)
        CONFIG_FILE
    · have hlen : (UInt32.ofNat (text ++ [0]).length).toNat = (text ++ [0]).length := by
        refine toNat_ofNat_of_le ?_
        rw [List.length_append]
        exact T.print_length hprint
      have hheld := Files.held_of_contents _ (doc.written hwrites).2
      rw [hlen, List.take_length] at hheld
      dsimp only
      rw [if_pos (decide_eq_true hwrites)]
      refine ⟨rfl, .inr ⟨text, ((doc.files d.flash).held CONFIG_FILE).drop (text ++ [0]).length,
        ?_, T.print_noNul hprint, rfl⟩⟩
      rw [hheld, Files.overlay, List.append_assoc, List.singleton_append]
    · dsimp only
      rw [if_neg (by rw [decide_eq_true_iff]; exact hwrites)]
      exact h.keep (doc.not_written hwrites)

theorem Device.Holds.boot (h : d.Holds doc T s)
    (hread : ∀ s malloc, ¬ ReadErrorTaken lfs s malloc (some CONFIG_FILE))
    (garbage : Option (Nat → UInt8)) (safemode : Bool) :
    ∃ d', d.readConfig? P T default_config lfs garbage safemode = some d' ∧
      d'.Holds doc T (s.step P T default_config
        (d.done P T (.boot garbage safemode : DeviceAct D doc))
        (.boot garbage safemode : DeviceAct D doc)) := by
  cases safemode with
  | true => exact ⟨_, rfl, rfl, h.file⟩
  | false =>
    rw [Device.readConfig?, if_neg Bool.false_ne_true, h.readSaved hread]
    exact ⟨_, rfl, rfl, h.file⟩

/-- One thing that happens to the device, and to the slot. -/
theorem Device.Holds.step (h : d.Holds doc T s)
    (hread : ∀ s malloc, ¬ ReadErrorTaken lfs s malloc (some CONFIG_FILE)) (P : Platform F D)
    (default_config : Json D) (a : DeviceAct D doc) :
    ∃ d', d.step P T default_config a = some d' ∧
      d'.Holds doc T (s.step P T default_config (d.done P T a) a) := by
  cases a with
  | set c => exact ⟨_, rfl, congrArg (setStep P · c) h.conf, h.file⟩
  | upload config => exact ⟨_, rfl, rfl, h.file⟩
  | save levels => exact ⟨_, rfl, h.save levels⟩
  | delete =>
    refine ⟨_, rfl, ?_⟩
    rw [Slot.step, Device.done]
    simp only [decide_eq_true_iff]
    exact h.delete
  | files other => exact ⟨_, rfl, h.keep (congrArg (Option.getD · []) (other.keeps d.flash))⟩
  | boot garbage safemode => exact h.boot hread garbage safemode

theorem Device.Holds.run (h : d.Holds doc T s)
    (hread : ∀ s malloc, ¬ ReadErrorTaken lfs s malloc (some CONFIG_FILE)) (P : Platform F D)
    (default_config : Json D) (acts : List (DeviceAct D doc)) :
    ∃ d' s', acts.foldlM (sideBySide? P T default_config) (d, s) = some (d', s') ∧
      acts.foldlM (Device.step P T default_config) d = some d' ∧ d'.Holds doc T s' := by
  induction acts generalizing d s with
  | nil => exact ⟨d, s, rfl, rfl, h⟩
  | cons a acts ih =>
    obtain ⟨d₁, hstep, h₁⟩ := h.step hread P default_config a
    obtain ⟨d', s', hrun, hdevice, h'⟩ := ih h₁
    refine ⟨d', s', ?_, ?_, h'⟩
    · rw [List.foldlM_cons, sideBySide?, hstep]
      exact hrun
    · rw [List.foldlM_cons, hstep]
      exact hdevice

end Steps

/-! ## JSON texts on the host platform -/

/-- `print_string_ptr`, for one character. -/
def jsonEscape (c : Char) : CString :=
  if c = '"' ∨ c = '\\' then ['\\', c]
  else if c.toNat < 32 then
    ['\\', 'u', '0', '0', Nat.digitChar (c.toNat / 16), Nat.digitChar (c.toNat % 16)]
  else [c]

def jsonString (s : CString) : CString := '"' :: s.flatMap jsonEscape ++ ['"']

/-- `print_number`, with at most 15 digits behind the point. -/
def jsonNumber (q : ℚ) : CString :=
  let digits := CText.utoa (q.num.natAbs % q.den * 10 ^ 15 / q.den)
  let frac := (List.replicate (15 - digits.length) '0' ++ digits).reverse.dropWhile (· = '0')
  (if q < 0 then ['-'] else []) ++ CText.utoa (q.num.natAbs / q.den) ++
    (if frac = [] then [] else '.' :: frac.reverse)

mutual

/-- `print_value`, formatted. -/
def cjsonPrint (depth : Nat) : Json (Option ℚ) → CString
  | .null => "null".toList
  | .bool true => "true".toList
  | .bool false => "false".toList
  | .number none => "null".toList
  | .number (some q) => jsonNumber q
  | .string s => jsonString s
  | .array items => '[' :: cjsonPrintItems depth items ++ [']']
  | .object items =>
    ['\x7b', '\n'] ++ cjsonPrintFields (depth + 1) items ++ List.replicate depth '\t' ++ ['\x7d']

/-- `print_array` -/
def cjsonPrintItems (depth : Nat) : List (Json (Option ℚ)) → CString
  | [] => []
  | [item] => cjsonPrint depth item
  | item :: next :: items =>
    cjsonPrint depth item ++ ", ".toList ++ cjsonPrintItems depth (next :: items)

/-- `print_object` -/
def cjsonPrintFields (depth : Nat) : List (CString × Json (Option ℚ)) → CString
  | [] => []
  | field :: fields =>
    List.replicate depth '\t' ++ cjsonPrintField depth field ++
      (if fields.isEmpty then ['\n'] else [',', '\n']) ++ cjsonPrintFields depth fields

def cjsonPrintField (depth : Nat) : CString × Json (Option ℚ) → CString
  | (name, value) => jsonString name ++ [':', '\t'] ++ cjsonPrint depth value

end

example : cjsonPrint 0 (.object [("a".toList, .number (some (mkRat 33 10)))]) =
    "\x7b\n\t\"a\":\t3.3\n\x7d".toList := by decide +kernel

def jsonBytes (json : Json (Option ℚ)) : List UInt8 :=
  (cjsonPrint 0 json).map fun c => UInt8.ofNat c.toNat

/-- `cJSON_Print`, and what `cJSON_Parse` does with the text of `known`. -/
def hostJsonText (known : Json (Option ℚ)) : JsonText (Option ℚ) where
  print json :=
    if 0 ∉ jsonBytes json ∧ (jsonBytes json).length < LFS_FILE_MAX then some (jsonBytes json)
    else none
  parse text := if text = jsonBytes known then some known else none
  print_noNul h := by
    split_ifs at h with hfits
    exact Option.some.inj h ▸ hfits.1
  print_length h := by
    split_ifs at h with hfits
    exact Option.some.inj h ▸ hfits.2

theorem print_hostJsonText (known : Json (Option ℚ)) {json : Json (Option ℚ)}
    (h : 0 ∉ jsonBytes json ∧ (jsonBytes json).length < LFS_FILE_MAX) :
    (hostJsonText known).print json = some (jsonBytes json) := if_pos h

theorem parse_hostJsonText (known : Json (Option ℚ)) :
    (hostJsonText known).parse (jsonBytes known) = some known := if_pos rfl

/-- A flash without files. -/
def noFiles : RamFlash where
  files :=
    { contents := fun _ => none
      length_le := fun _ _ h => absurd h.symm (Option.some_ne_none _) }
  pending := []
  pending_le := Nat.zero_le _

/-- A key is written. -/
def OtherFiles.write (room : Nat) (name : CString) (data : List UInt8)
    (hname : CONFIG_FILE ≠ name) : OtherFiles (ramDocumented room) where
  op s := (flashWriteFile (ramLfs room) s (some data) (UInt32.ofNat data.length) (some name)).2
  keeps s := by
    rw [flashWriteFile_opened _ _ ⟨rfl, by rw [ramLfs_openWrite]⟩]
    change (if CONFIG_FILE = name then _ else _) = _
    rw [if_neg hname, Lfs.writeOpen, ramLfs_fileWrite_files, ramLfs_openWrite]
    exact if_neg hname

theorem ramLfs_noError (room : Nat) (s : RamFlash) (malloc : UInt32 → Option (List UInt8)) :
    ¬ ReadErrorTaken (ramLfs room) s malloc (some CONFIG_FILE) := by
  rintro ⟨name, -, -, -, -, herror⟩
  exact absurd herror.1 (Int.not_lt.mpr (ramLfs_readOpen room s name))

/-- `SYS:HTTP:MASK:VSENSOR` -/
def setMask (args : String) (h : args.toList.all fun c => 0 < c.toNat ∧ c.toNat < 256) :
    SetCommand where
  now := 0
  handler := .cmdHttpMaskVsensor
  call := maskCall args
  bytes := List.all_iff_forall_prop.mp h

/-! ## Main results -/

section Main

variable (P : Platform F D) (T : JsonText D) (default_config : Json D) [Inhabited F]

/-- **The flash is a slot.** From an empty flash, whatever is done and whatever fails but the
reading of an open file, the device never reads behind a buffer, and its configuration is the one
of the device that has a slot for what was saved last. -/
theorem device_refines_slot {lfs : Lfs S} (doc : Documented lfs)
    (hread : ∀ s malloc, ¬ ReadErrorTaken lfs s malloc (some CONFIG_FILE)) {d : Device F S}
    (hnew : (doc.files d.flash).contents CONFIG_FILE = none) (acts : List (DeviceAct D doc)) :
    ∃ d' s', acts.foldlM (sideBySide? P T default_config) (d, ⟨d.conf, none⟩) = some (d', s') ∧
      d'.conf = s'.conf := by
  have hstart : Device.Holds doc T d ⟨d.conf, none⟩ :=
    ⟨rfl, .inl ⟨by rw [Files.held, hnew, Option.getD_none], rfl⟩⟩
  obtain ⟨d', s', hrun, -, h⟩ := hstart.run hread P default_config acts
  exact ⟨d', s', hrun, h.conf⟩

end Main

/-- What was saved is loaded, not what was set later; where the flash is full, the default is. -/
theorem device_refines_slot_mask :
    let T := hostJsonText (configToJson hostPlatform ⟨0, 3, 3⟩ (afterMask "1,3"))
    let acts (room : Nat) : List (DeviceAct (Option ℚ) (ramDocumented room)) :=
      [.set (setMask "1,3" (by decide)), .save ⟨0, 3, 3⟩, .set (setMask "2" (by decide)),
        .boot (some fun _ => 7) false]
    let d : Device ℚ RamFlash := ⟨readConfig hostPlatform (.object []) none false, noFiles⟩
    (∃ d' s', (acts 65536).foldlM (sideBySide? hostPlatform T (.object [])) (d, ⟨d.conf, none⟩) =
        some (d', s') ∧ d'.conf.httpVsensorMask = 5) ∧
      ∃ d' s', (acts 16).foldlM (sideBySide? hostPlatform T (.object [])) (d, ⟨d.conf, none⟩) =
        some (d', s') ∧ d'.conf.httpVsensorMask = 0 := by
  intro T acts d
  refine ⟨?_, ?_⟩
  · obtain ⟨d', s', hrun, hconf⟩ := device_refines_slot hostPlatform T (.object [])
      (ramDocumented 65536) (ramLfs_noError 65536) (d := d) rfl (acts 65536)
    have hmask : ((acts 65536).foldlM (sideBySide? hostPlatform T (.object []))
        (d, ⟨d.conf, none⟩)).map (·.2.conf.httpVsensorMask) = some 5 := by decide +kernel
    rw [hrun] at hmask
    exact ⟨d', s', hrun, hconf ▸ Option.some.inj hmask⟩
  · obtain ⟨d', s', hrun, hconf⟩ := device_refines_slot hostPlatform T (.object [])
      (ramDocumented 16) (ramLfs_noError 16) (d := d) rfl (acts 16)
    have hmask : ((acts 16).foldlM (sideBySide? hostPlatform T (.object []))
        (d, ⟨d.conf, none⟩)).map (·.2.conf.httpVsensorMask) = some 0 := by decide +kernel
    rw [hrun] at hmask
    exact ⟨d', s', hrun, hconf ▸ Option.some.inj hmask⟩

section Main

variable {P : Platform F D} {T : JsonText D} {default_config : Json D} [Inhabited F]
  {lfs : Lfs S} {doc : Documented lfs}

/-- What leaves the saved configuration alone. -/
def DeviceAct.KeepsSaved : DeviceAct D doc → Prop
  | .save _ => False
  | .delete => False
  | _ => True

theorem SystemConfig.Ok.setStep {cfg : SystemConfig F} (h : cfg.Ok P) (c : SetCommand) :
    (setStep P cfg c).Ok P := by
  rw [LcdPico.setStep]
  split
  · rename_i f hf
    exact h.set hf c.bytes
  · exact h

theorem Slot.ok_step {s : Slot F D} (h : s.conf.Ok P) (done : Bool) (a : DeviceAct D doc) :
    (s.step P T default_config done a).conf.Ok P := by
  cases a with
  | set c => exact h.setStep c
  | upload config => exact clearConfig_ok.json config
  | save levels =>
    rw [Slot.step]
    split
    · exact h
    · split
      · exact h
      · exact h
  | delete =>
    rw [Slot.step]
    split
    · exact h
    · exact h
  | files other => exact h
  | boot garbage safemode => exact readConfig_ok _ _ _

theorem Slot.saved_step {a : DeviceAct D doc} (h : a.KeepsSaved) (s : Slot F D) (done : Bool) :
    (s.step P T default_config done a).saved = s.saved := by
  cases a with
  | set c => rfl
  | upload config => rfl
  | save levels => exact h.elim
  | delete => exact h.elim
  | files other => rfl
  | boot garbage safemode => rfl

/-- What the slot does along a run. -/
theorem sideBySide_invariant {I : Slot F D → Prop} {acts : List (DeviceAct D doc)}
    (hstep : ∀ a ∈ acts, ∀ s done, I s → I (s.step P T default_config done a))
    {d d' : Device F S} {s s' : Slot F D} (h : I s)
    (hrun : acts.foldlM (sideBySide? P T default_config) (d, s) = some (d', s')) : I s' := by
  induction acts generalizing d s with
  | nil =>
    obtain ⟨-, rfl⟩ := Prod.mk.inj (Option.some.inj hrun)
    exact h
  | cons a acts ih =>
    obtain ⟨ha, hacts⟩ := List.forall_mem_cons.mp hstep
    rw [List.foldlM_cons] at hrun
    obtain ⟨x, hx, hrest⟩ := Option.bind_eq_some_iff.mp hrun
    obtain ⟨d₁, -, rfl⟩ := Option.map_eq_some_iff.mp hx
    exact ih hacts (ha s _ h) hrest

/-- **The last save is loaded.** Whatever was saved, loaded, removed or set since the flash was
empty, and whatever failed of it but the reading of an open file, a configuration that is saved
with success comes back with the next boot that can read the file, if its text can be parsed and
there is memory: `reloaded` says what comes back of each setting. -/
theorem boot_loads_last_save (hP : P.RoundTrips) (doc : Documented lfs)
    (hread : ∀ s malloc, ¬ ReadErrorTaken lfs s malloc (some CONFIG_FILE)) {flash : S}
    (hnew : (doc.files flash).contents CONFIG_FILE = none) {safemode : Bool}
    {before after : List (DeviceAct D doc)} {d : Device F S}
    (hbefore : before.foldlM (Device.step P T default_config)
      ⟨readConfig P default_config none safemode, flash⟩ = some d)
    {levels : LogLevels} {text : List UInt8}
    (hprint : T.print (configToJson P levels d.conf) = some text)
    (hparse : T.parse text = some (configToJson P levels d.conf))
    (hwrites : lfs.Writes d.flash (text ++ [0]) (UInt32.ofNat (text ++ [0]).length) CONFIG_FILE)
    (hafter : ∀ a ∈ after, a.KeepsSaved) (garbage : Nat → UInt8) :
    ∃ d₁, (.save levels :: after).foldlM (Device.step P T default_config) d = some d₁ ∧
      (lfs.Reads d₁.flash CONFIG_FILE →
        ∃ d', d₁.step P T default_config (.boot (some garbage) false : DeviceAct D doc) =
            some d' ∧
          d'.conf.persisted = (reloaded P d.conf).persisted) := by
  have hstart : Device.Holds doc T ⟨readConfig P default_config none safemode, flash⟩
      (⟨readConfig P default_config none safemode, none⟩ : Slot F D) :=
    ⟨rfl, .inl ⟨by rw [Files.held, hnew, Option.getD_none], rfl⟩⟩
  obtain ⟨d₀, s, hboth, hrun, hholds⟩ := hstart.run hread P default_config before
  obtain rfl : d = d₀ := Option.some.inj (hbefore.symm.trans hrun)
  have hok : d.conf.Ok P := by
    rw [hholds.conf]
    exact sideBySide_invariant (I := fun s : Slot F D => s.conf.Ok P)
      (fun a _ s done hs => Slot.ok_step hs done a) (readConfig_ok default_config none safemode)
      hboth
  obtain ⟨d₂, hsave, hholds₂⟩ := hholds.step hread P default_config
    (.save levels : DeviceAct D doc)
  have hsaved : (s.step P T default_config (d.done P T (.save levels : DeviceAct D doc))
      (.save levels : DeviceAct D doc)).saved = some (configToJson P levels d.conf) := by
    rw [Slot.step, Device.done, ← hholds.conf, hprint]
    dsimp only
    rw [if_pos (decide_eq_true hwrites)]
    exact hparse
  obtain ⟨d₁, s₁, hboth₁, hrun₁, hholds₁⟩ := hholds₂.run hread P default_config after
  refine ⟨d₁, ?_, fun hreads => ?_⟩
  · rw [List.foldlM_cons, hsave]
    exact hrun₁
  have hsaved₁ : s₁.saved = some (configToJson P levels d.conf) :=
    sideBySide_invariant (I := fun s : Slot F D => s.saved = some (configToJson P levels d.conf))
      (fun a ha s done hs => (Slot.saved_step (hafter a ha) s done).trans hs) hsaved hboth₁
  obtain ⟨d', hboot, hholds'⟩ := hholds₁.boot hread (some garbage) false
  refine ⟨d', hboot, ?_⟩
  have hreload : d'.conf = reload P levels d.conf := by
    rw [hholds'.conf, Slot.step, Device.done, decide_eq_true hreads, hsaved₁]
    rfl
  rw [hreload]
  exact persisted_reload hP hok

end Main

/-- Between the save and the boot, a key is written and the mask is changed. -/
theorem boot_loads_last_save_mask :
    let T := hostJsonText (configToJson hostPlatform ⟨0, 3, 3⟩ (afterMask "1,3"))
    let after : List (DeviceAct (Option ℚ) (ramDocumented 65536)) :=
      [.files (.write 65536 "key.pem".toList [1, 2, 3] (by decide)),
        .set (setMask "2" (by decide))]
    ∃ d₁, (.save ⟨0, 3, 3⟩ :: after).foldlM (Device.step hostPlatform T (.object []))
        ⟨afterMask "1,3", noFiles⟩ = some d₁ ∧
      ∃ d', d₁.step hostPlatform T (.object [])
          (.boot (some fun _ => 7) false : DeviceAct (Option ℚ) (ramDocumented 65536)) = some d' ∧
        d'.conf.persisted = (reloaded hostPlatform (afterMask "1,3")).persisted := by
  intro T after
  have hafter : ∀ a ∈ after, a.KeepsSaved :=
    List.forall_mem_cons.mpr ⟨trivial, List.forall_mem_singleton.mpr trivial⟩
  have hset : [(.set (setMask "1,3" (by decide)) : DeviceAct (Option ℚ)
      (ramDocumented 65536))].foldlM (Device.step hostPlatform T (.object []))
        ⟨readConfig hostPlatform (.object []) none false, noFiles⟩ =
      some ⟨afterMask "1,3", noFiles⟩ := rfl
  obtain ⟨d₁, hrun, hboot⟩ := boot_loads_last_save hostPlatform_roundTrips (ramDocumented 65536)
    (ramLfs_noError 65536) rfl hset (print_hostJsonText _ (by decide +kernel))
    (parse_hostJsonText _) (by decide +kernel) hafter fun _ => 7
  have hfile : ((.save ⟨0, 3, 3⟩ :: after).foldlM (Device.step hostPlatform T (.object []))
      ⟨afterMask "1,3", noFiles⟩).map (fun d => (d.flash.files.contents CONFIG_FILE).isSome) =
        some true := by decide +kernel
  rw [hrun] at hfile
  refine ⟨d₁, hrun, hboot (ramLfs_reads 65536 ?_)⟩
  exact Option.isSome_iff_ne_none.mp (Option.some.inj hfile)

end LcdPico
