import LcdPico.ConfigCodec
import LcdPico.Lib.Machine

/-!
# Reachable configurations

A configuration is reachable if commands lead to it from what `read_config` makes
of some file. `Ok` collects what the commands and `json_to_config` guarantee of its
values: masks and prefix lengths in range, key slots with keys that were parsed.
-/

namespace LcdPico

variable {F D : Type} {P : Platform F D}

/-! ## Values -/

/-- Bits below the length stay below it. -/
theorem or_bit_lt {len mask a : Nat} (hmask : mask < 2 ^ len) (ha : a < len) :
    mask ||| 1 <<< a < 2 ^ len := by
  rw [Nat.one_shiftLeft]
  exact Nat.or_lt_two_pow hmask (Nat.pow_lt_pow_right (by decide) ha)

theorem foldl_or_bit_lt {len : Nat} {f : Nat → Nat} {l : List Nat} (hl : ∀ i ∈ l, f i < len)
    {mask : Nat} (hmask : mask < 2 ^ len) :
    l.foldl (fun m i => m ||| 1 <<< f i) mask < 2 ^ len := by
  induction l generalizing mask with
  | nil => exact hmask
  | cons i l ih =>
    have hi := hl i (List.mem_cons_self ..)
    exact ih (fun j hj => hl j (List.mem_cons_of_mem i hj)) (or_bit_lt hmask hi)

/-- A token of a mask sets no bit beyond the length. -/
theorem bitmaskToken_lt {len base mask : Nat} (hlen : 0 < len) (hmask : mask < 2 ^ len)
    (tok : CString) : bitmaskToken len base mask tok < 2 ^ len := by
  simp only [bitmaskToken]
  split
  · exact hmask
  · rename_i a _
    have hfirst : (if 0 ≤ a - (base : Int) ∧ a - (base : Int) < len then
        mask ||| 1 <<< (a - (base : Int)).toNat else mask) < 2 ^ len := by
      split_ifs with ha
      · exact or_bit_lt hmask (by omega)
      · exact hmask
    generalize (if 0 ≤ a - (base : Int) ∧ a - (base : Int) < len then
      mask ||| 1 <<< (a - (base : Int)).toNat else mask) = first at hfirst ⊢
    split
    · exact hfirst
    · split_ifs with hb
      · refine foldl_or_bit_lt (fun i hi => ?_) hfirst
        have := List.mem_range.mp hi
        omega
      · exact hfirst

theorem strToBitmask_lt {str : CString} {len base new : Nat}
    (h : strToBitmask str len base = some new) : new < 2 ^ len := by
  have hpos : 0 < 2 ^ len := Nat.two_pow_pos len
  rw [strToBitmask] at h
  split_ifs at h with hlen hall
  · obtain rfl := Option.some.inj h
    rw [Nat.one_shiftLeft]
    omega
  · have hfold : ∀ (toks : List CString) (m : Nat), m < 2 ^ len →
        toks.foldl (bitmaskToken len base) m < 2 ^ len := by
      intro toks
      induction toks with
      | nil => exact fun m hm => hm
      | cons tok toks ih => exact fun m hm => ih _ (bitmaskToken_lt (by omega) hm tok)
    obtain rfl := Option.some.inj h
    exact hfold _ 0 hpos

/-- A mask of the virtual sensors, stored in its variable. -/
theorem toNat_mask_lt {str : CString} {new : Nat}
    (h : strToBitmask str VSENSOR_MAX_COUNT 1 = some new) : (UInt16.ofNat new).toNat < 256 := by
  rw [UInt16.toNat_ofNat']
  exact Nat.lt_of_le_of_lt (Nat.mod_le new _) (strToBitmask_lt h)

theorem aclEntry_prefix {t : CString} {e : AclEntry} (h : aclEntry P t = some e) :
    e.prefixLen ≤ 32 := by
  simp only [aclEntry] at h
  split at h
  · rename_i ip len _ _
    obtain rfl := Option.some.inj h
    have hclamp : 0 ≤ clampInt len 0 32 ∧ clampInt len 0 32 ≤ 32 := by
      simp only [clampInt]
      omega
    rw [UInt8.le_iff_toNat_le]
    simp only [UInt8.ofInt, UInt8.toNat_ofNat']
    have : (32 : UInt8).toNat = 32 := rfl
    omega
  · cases h

/-- A key that is accepted. -/
theorem strToSshPubkey_wellFormed {s : CString} {pk k : SshPublicKey}
    (h : strToSshPubkey P s pk = (true, k)) : k.WellFormed := by
  have hblank : ∀ t ∈ CText.tokens (CText.isChar ' ') s, ∀ n, ' ' ∉ t.take n := by
    intro t ht n hmem
    have := CText.delim_of_mem_tokens ht (List.mem_of_mem_take hmem)
    cases this
  simp only [strToSshPubkey] at h
  split at h
  · cases h
  · cases h
  · rename_i t₁ t₂ rest htoks
    have ht₁ : t₁ ∈ CText.tokens (CText.isChar ' ') s := htoks ▸ List.mem_cons_self ..
    have htype : (CStr.copy t₁ : CStr 33).val ≠ [] := by
      have hne := CText.ne_nil_of_mem_tokens ht₁
      simpa [CStr.copy, CText.strncopy] using hne
    split at h
    · cases h
    · rename_i key hkey
      have hbytes : 0 < key.val.length ∧
          memmem key.val (rawBytes (CStr.copy t₁ : CStr 33).val) = true := by
        simp only [keyBytes] at hkey
        split_ifs at hkey with hk
        obtain rfl := Option.some.inj hkey
        exact ⟨hk.1, hk.2.2⟩
      obtain ⟨hpos, hmem⟩ := hbytes
      split at h
      · obtain ⟨-, rfl⟩ := Prod.mk.inj h
        exact ⟨htype, hblank t₁ ht₁ _, List.not_mem_nil, hpos, hmem⟩
      · rename_i t₃ rest'
        have ht₃ : t₃ ∈ CText.tokens (CText.isChar ' ') s := by
          rw [htoks]
          simp
        obtain ⟨-, rfl⟩ := Prod.mk.inj h
        exact ⟨htype, hblank t₁ ht₁ _, hblank t₃ ht₃ _, hpos, hmem⟩

/-- The user name is no part of the key. -/
theorem SshPublicKey.WellFormed.withUsername {k : SshPublicKey} (h : k.WellFormed)
    (username : CStr (MAX_USERNAME_LEN + 1)) : { k with username := username }.WellFormed :=
  ⟨h.type_ne_nil, h.type_noBlank, h.name_noBlank, h.pubkey_pos, h.type_mem⟩

/-- A key that is not accepted leaves the slot empty. -/
theorem strToSshPubkey_false {s : CString} {pk k : SshPublicKey}
    (h : strToSshPubkey P s pk = (false, k)) : k.pubkeySize = 0 := by
  simp only [strToSshPubkey] at h
  split at h
  · obtain ⟨-, rfl⟩ := Prod.mk.inj h
    rfl
  · obtain ⟨-, rfl⟩ := Prod.mk.inj h
    rfl
  · split at h
    · obtain ⟨-, rfl⟩ := Prod.mk.inj h
      rfl
    · split at h <;> cases h

/-- The user name and the key in the arguments of `SYS:SSH:PUBKEY:ADD`. -/
theorem pubkeyArgs_wellFormed {args username : CString} {k : SshPublicKey}
    (h : pubkeyArgs P args = some (username, k)) : username ≠ [] ∧ k.WellFormed := by
  simp only [pubkeyArgs] at h
  split at h
  · cases h
  · split_ifs at h with hname
    split at h
    · cases h
    · split at h
      · rename_i hparse
        obtain ⟨rfl, rfl⟩ := Prod.mk.inj (Option.some.inj h)
        exact ⟨hname, strToSshPubkey_wellFormed hparse⟩
      · cases h

/-- A byte is a character of its own. -/
theorem toNat_byteChar : ∀ n < 256, (Char.ofNat n).toNat = n := by
  decide +kernel

/-! ## Lists -/

theorem listLoop_all {α : Type} [Inhabited α] {n : Nat} {Q : α → Prop}
    {parse : CString → Option α} (hparse : ∀ s x, parse s = some x → Q x) (isLast : α → Bool)
    (toks : List CString) {list : CArray α n} (h : list.All Q) (idx : Nat) :
    (listLoop parse isLast toks list idx).1.All Q := by
  induction toks generalizing list idx with
  | nil => exact h
  | cons t toks ih =>
    rw [listLoop]
    split_ifs with hidx
    · cases hx : parse (CText.trim t) with
      | none => exact ih h idx
      | some x =>
        have hwr := h.wr idx (hparse _ x hx)
        dsimp only
        split_ifs
        · exact hwr
        · exact ih hwr (idx + 1)
    · exact h

theorem rd_zeroFrom {α : Type} [Inhabited α] {n : Nat} (a : CArray α n) (idx : Nat) (zero : α)
    {i : Nat} (hi : i < n) : (zeroFrom a idx zero).rd i = if i ≥ idx then zero else a.rd i := by
  simp only [zeroFrom, CArray.rd, hi, Vector.getElem?_eq_getElem, Vector.getElem_ofFn,
    Option.getD_some]
  rfl

theorem listChange_all {α : Type} [Inhabited α] {n : Nat} {Q : α → Prop}
    {parse : CString → Option α} (hparse : ∀ s x, parse s = some x → Q x) (isLast : α → Bool)
    {zero : α} (hzero : Q zero) (call : Call) {list : CArray α n} (h : list.All Q) :
    (listChange call parse isLast zero list).2.All Q := by
  have hloop := listLoop_all hparse isLast (CText.tokens (CText.isChar ',') call.args) h 0
  simp only [listChange]
  split_ifs
  · exact h
  · exact hloop
  · intro i hi
    rw [rd_zeroFrom _ _ _ hi]
    split_ifs
    · exact hzero
    · exact hloop i hi

theorem aclListChange_all (call : Call) {n : Nat} {acl : CArray AclEntry n}
    (h : acl.All fun e => e.prefixLen ≤ 32) :
    (aclListChange call P acl).2.All fun e => e.prefixLen ≤ 32 := by
  have hzero : (default : AclEntry).prefixLen ≤ 32 := by decide
  exact listChange_all (fun _ _ he => aclEntry_prefix he) _ hzero call h

theorem jsonListLoop_all {α : Type} [Inhabited α] {n : Nat} {Q : α → Prop}
    {parse : CString → Option α} (hparse : ∀ s x, parse s = some x → Q x) (items : List (Json D))
    {list : CArray α n} (h : list.All Q) (count : Nat) :
    (jsonListLoop parse items list count).All Q := by
  induction items generalizing list count with
  | nil => exact h
  | cons o items ih =>
    rw [jsonListLoop]
    cases hval : o.getStringValue with
    | none => exact ih h count
    | some val =>
      dsimp only
      split_ifs
      · cases hx : parse val with
        | none => exact ih h count
        | some x => exact ih (h.wr count (hparse val x hx)) (count + 1)
      · exact ih h count

theorem json2acllist_all (item : Json D) (len : Nat) :
    (json2acllist P item len).All fun e => e.prefixLen ≤ 32 := by
  have hzero : (default : AclEntry).prefixLen ≤ 32 := by decide
  exact jsonListLoop_all (fun _ _ he => aclEntry_prefix he) _ (CArray.All.replicate hzero) 0

theorem sshPubkeysLoop_all (items : List (Json D)) {keys : CArray SshPublicKey SSH_MAX_PUB_KEYS}
    (h : keys.All fun k => 0 < k.pubkeySize → k.WellFormed) (idx : Nat) :
    (sshPubkeysLoop P items keys idx).All fun k => 0 < k.pubkeySize → k.WellFormed := by
  induction items generalizing keys idx with
  | nil => exact h
  | cons r items ih =>
    rw [sshPubkeysLoop]
    split
    rename_i keys' idx' hround
    have hkeys : keys'.All fun k => 0 < k.pubkeySize → k.WellFormed := by
      split at hround
      · rename_i user pkey _ _
        cases hval : pkey.getStringValue with
        | none =>
          rw [hval] at hround
          obtain ⟨rfl, -⟩ := Prod.mk.inj hround
          exact h
        | some s =>
          simp only [hval] at hround
          split at hround
          · rename_i k hparse
            obtain ⟨rfl, -⟩ := Prod.mk.inj hround
            exact h.wr idx fun _ => (strToSshPubkey_wellFormed hparse).withUsername _
          · rename_i k hparse
            have hfree := strToSshPubkey_false hparse
            obtain ⟨rfl, -⟩ := Prod.mk.inj hround
            exact h.wr idx fun hpos => absurd hpos (by omega)
      · obtain ⟨rfl, -⟩ := Prod.mk.inj hround
        exact h
    split_ifs
    · exact hkeys
    · exact ih hkeys idx'

/-! ## Sensors -/

theorem strToInt_range {base : Nat} {s : CString} {v : Int} (h : strToInt s base = some v) :
    -2 ^ 31 ≤ v ∧ v < 2 ^ 31 := by
  rw [strToInt, CText.strtol] at h
  obtain ⟨⟨w, rest⟩, hw, rfl⟩ := Option.map_eq_some_iff.mp h
  split_ifs at hw
  all_goals
    obtain ⟨rfl, -⟩ := Prod.mk.inj (Option.some.inj hw)
    dsimp only
    omega

/-- The type that a name stands for, if there is a name. -/
theorem knownType_getD (name : Option CString) :
    KnownType P ((name.map P.getI2cSensorType).getD 0) := by
  cases name with
  | none => exact .inl rfl
  | some name => exact .inr ⟨name, rfl⟩

/-- Every source that is accepted keeps the sensor in order. -/
theorem sourceSetting_ok {args : CString} {v : VsensorInput F} (hv : v.Ok P) :
    (sourceSetting P args v).2.Ok P := by
  simp only [sourceSetting]
  cases CText.tokens (CText.isChar ',') args with
  | nil => exact hv
  | cons tok toks =>
    dsimp only
    split
    · -- manual
      split
      · rename_i default_temp timeout htemp htimeout
        obtain ⟨tok, -, htok⟩ := Option.bind_eq_some_iff.mp htimeout
        have hrange := strToInt_range htok
        refine ⟨hv.i2cType, ?_⟩
        dsimp only
        split_ifs <;> omega
      · exact hv
    · -- i2c
      split
      · split_ifs
        · exact ⟨knownType_getD toks[1]?, hv.timeout⟩
        · exact hv
        · exact hv
      · exact hv
    · -- internal
      split
      · split_ifs
        · exact ⟨hv.i2cType, hv.timeout⟩
        · exact hv
      · exact hv
    · exact hv

/-- A sensor that is read from the saved configuration. -/
theorem jsonToVsensor_ok (item : Json D) {v : VsensorInput F} (hv : v.Ok P) :
    (jsonToVsensor P item v).Ok P := by
  have htimeout : ∀ var : Int, -2 ^ 31 ≤ var ∧ var < 2 ^ 31 →
      -2 ^ 31 ≤ jsonToNum P item "timeout".toList (toI32 P) var ∧
        jsonToNum P item "timeout".toList (toI32 P) var < 2 ^ 31 := by
    intro var hvar
    rw [jsonToNum]
    split
    · simp only [toI32]
      omega
    · exact hvar
  simp only [jsonToVsensor]
  cases item.getObjectItem "mode".toList
  all_goals
    dsimp only
    split
    · exact ⟨hv.i2cType, htimeout _ hv.timeout⟩
    · refine ⟨?_, hv.timeout⟩
      cases item.getObjectItem "i2c_type".toList with
      | none => exact hv.i2cType
      | some r => exact knownType_getD r.getStringValue
    · exact ⟨hv.i2cType, hv.timeout⟩
    · exact ⟨hv.i2cType, hv.timeout⟩

/-! ## Reachable configurations -/

variable [Inhabited F]

/-- A command with its arguments, which are bytes other than NUL. -/
structure SetCommand where
  now : UInt64
  handler : Handler
  call : Call
  bytes : ∀ c ∈ call.args, 0 < c.toNat ∧ c.toNat < 256

/-- One command, of those that set the configuration. -/
def setStep (P : Platform F D) (cfg : SystemConfig F) (c : SetCommand) : SystemConfig F :=
  match setterOf P c.now c.handler with
  | some f => (f c.call cfg).2
  | none => cfg

/-- The configurations that commands reach from `read_config`. -/
def SystemConfig.Reachable (P : Platform F D) (default_config : Json D) (cfg : SystemConfig F) :
    Prop :=
  Machine.Reachable
    (fun cfg => ∃ saved use_default, cfg = readConfig P default_config saved use_default)
    (setStep P) cfg

/-- What every reachable configuration is like, as far as saving relies on it. -/
structure SystemConfig.Ok (P : Platform F D) (cfg : SystemConfig F) : Prop where
  vsensors : cfg.vsensors.All (VsensorInput.Ok P)
  wifiPasswd : ∀ c ∈ cfg.wifiPasswd.val, 0 < c.toNat ∧ c.toNat < 256
  telnetAcls : cfg.telnetAcls.All fun e => e.prefixLen ≤ 32
  sshAcls : cfg.sshAcls.All fun e => e.prefixLen ≤ 32
  sshPubKeys : cfg.sshPubKeys.All fun k => 0 < k.pubkeySize → k.WellFormed
  httpVsensorMask : cfg.httpVsensorMask.toNat < 256

/-! ## Commands -/

/-- A command that sets the configuration keeps it in order. -/
theorem SystemConfig.Ok.set {cfg : SystemConfig F} (h : cfg.Ok P) {now : UInt64} {handler : Handler}
    {f : CmdFunc F} (hf : setterOf P now handler = some f) {call : Call}
    (hbytes : ∀ c ∈ call.args, 0 < c.toNat ∧ c.toNat < 256) : (f call cfg).2.Ok P := by
  cases handler <;> simp only [setterOf, reduceCtorEq, Option.some.injEq] at hf <;> subst hf
  case cmdVsensorName =>
    simp only [cmdVsensorName]
    cases hsensor : sensorIn (getPrevCmdIndex call.prevCmd 0 - 1) with
    | none => exact h
    | some idx =>
      have hv := h.vsensors idx (sensorIn_lt hsensor)
      exact { h with vsensors := h.vsensors.wr idx ⟨hv.i2cType, hv.timeout⟩ }
  case cmdVsensorSource =>
    simp only [cmdVsensorSource]
    cases hsensor : sensorIn (getPrevCmdIndex call.prevCmd 0 - 1) with
    | none => exact h
    | some sensor =>
      dsimp only
      split_ifs
      · exact h
      · have hv := h.vsensors sensor (sensorIn_lt hsensor)
        exact { h with vsensors := h.vsensors.wr sensor (sourceSetting_ok hv) }
  case cmdVsensorWrite =>
    simp only [cmdVsensorWrite]
    split_ifs
    · exact h
    · split
      · exact h
      · split_ifs
        · split
          · exact { h with }
          · exact h
        · exact h
  case cmdLed =>
    simp only [cmdLed]
    split_ifs
    · exact h
    · split
      · split_ifs <;> exact { h with }
      · exact h
  case cmdWifiAuthMode =>
    simp only [cmdWifiAuthMode]
    split_ifs <;> exact { h with }
  case cmdSshPubkeyAdd =>
    simp only [cmdSshPubkeyAdd]
    split_ifs
    · exact h
    · cases hargs : pubkeyArgs P call.args with
      | none => exact h
      | some userKey =>
        obtain ⟨username, pubkey⟩ := userKey
        dsimp only
        split
        · exact h
        · rename_i idx _
          have hkey := (pubkeyArgs_wellFormed hargs).2.withUsername (CStr.copy username)
          exact { h with sshPubKeys := h.sshPubKeys.wr idx fun _ => hkey }
  case cmdSshPubkeyDel =>
    simp only [cmdSshPubkeyDel]
    split_ifs
    · exact h
    · split
      · exact h
      · split_ifs
        · exact h
        · exact { h with sshPubKeys := h.sshPubKeys.wr _ fun hpos => absurd hpos (by decide) }
        · exact h
  case cmdWifiPassword =>
    refine { h with wifiPasswd := ?_ }
    simp only [cmdWifiPassword, onVar, stringSetting]
    split_ifs
    · exact h.wifiPasswd
    · exact h.wifiPasswd
    · exact fun c hc => hbytes c (List.mem_of_mem_take hc)
    · exact h.wifiPasswd
  case cmdHttpMaskVsensor =>
    refine { h with httpVsensorMask := ?_ }
    simp only [cmdHttpMaskVsensor, onVar, bitmask16Setting]
    split_ifs
    · exact h.httpVsensorMask
    · cases hmask : strToBitmask call.args VSENSOR_MAX_COUNT 1 with
      | none => exact h.httpVsensorMask
      | some new =>
        dsimp only
        split_ifs
        · exact toNat_mask_lt hmask
        · exact h.httpVsensorMask
  case cmdSshAcls =>
    exact { h with sshAcls := aclListChange_all call h.sshAcls }
  case cmdTelnetAcls =>
    exact { h with telnetAcls := aclListChange_all call h.telnetAcls }
  all_goals exact { h with }

/-! ## Reading the configuration -/

theorem clearConfig_ok : (clearConfig P).Ok P where
  vsensors := CArray.All.replicate ⟨.inl rfl, by simp [clearVsensor]⟩
  wifiPasswd := fun _ hc => absurd hc List.not_mem_nil
  telnetAcls := CArray.All.replicate (by decide)
  sshAcls := CArray.All.replicate (by decide)
  sshPubKeys := CArray.All.replicate fun hpos => absurd hpos (by decide)
  httpVsensorMask := by simp [clearConfig]

/-- What is read but for the sensors. -/
theorem SystemConfig.Ok.settings {cfg : SystemConfig F} (h : cfg.Ok P) (config : Json D) :
    (jsonToSettings P config cfg).Ok P where
  vsensors := h.vsensors
  wifiPasswd := by
    simp only [jsonToSettings, jsonToPasswd]
    split
    · intro c hc
      have hc := List.mem_of_mem_take hc
      obtain ⟨b, hb, rfl⟩ := List.mem_map.mp hc
      have hne : b ≠ 0 := by simpa using List.mem_takeWhile_imp hb
      have hpos : b.toNat ≠ 0 := fun h => hne (UInt8.toNat_inj.mp h)
      have hlt := b.toNat_lt
      have hchar : (Char.ofNat b.toNat).toNat = b.toNat :=
        toNat_byteChar b.toNat hlt
      omega
    · exact h.wifiPasswd
  telnetAcls := by
    simp only [jsonToSettings]
    split
    · exact json2acllist_all _ _
    · exact h.telnetAcls
  sshAcls := by
    simp only [jsonToSettings]
    split
    · exact json2acllist_all _ _
    · exact h.sshAcls
  sshPubKeys := by
    simp only [jsonToSettings]
    split
    · exact sshPubkeysLoop_all _ (clearConfig_ok (P := P)).sshPubKeys 0
    · exact h.sshPubKeys
  httpVsensorMask := by
    simp only [jsonToSettings, jsonToBitmask]
    split
    · rename_i val _
      cases hmask : strToBitmask val VSENSOR_MAX_COUNT 1 with
      | none => exact h.httpVsensorMask
      | some new =>
        exact toNat_mask_lt hmask
    · exact h.httpVsensorMask

theorem SystemConfig.Ok.vsensorsStep {cfg : SystemConfig F} (h : cfg.Ok P) (item : Json D) :
    (vsensorsStep P cfg item).Ok P := by
  simp only [LcdPico.vsensorsStep]
  split
  · exact h
  · rename_i id hid
    have hv := h.vsensors id (sensorIn_lt hid)
    exact { h with vsensors := h.vsensors.wr id (jsonToVsensor_ok item hv) }

theorem SystemConfig.Ok.json {cfg : SystemConfig F} (h : cfg.Ok P) (config : Json D) :
    (jsonToConfig P config cfg).Ok P := by
  rw [jsonToConfig]
  generalize ((config.getObjectItem "vsensors".toList).map Json.children).getD [] = items
  have hsettings := h.settings config
  generalize jsonToSettings P config cfg = cfg at hsettings
  induction items generalizing cfg with
  | nil => exact hsettings
  | cons item items ih => exact ih _ (hsettings.vsensorsStep item)

theorem readConfig_ok (default_config : Json D) (saved : Option (Json D))
    (use_default_config : Bool) :
    (readConfig P default_config saved use_default_config).Ok P := by
  have h := clearConfig_ok.json (P := P)
    (if use_default_config then default_config else saved.getD default_config)
  simp only [readConfig]
  split_ifs at h ⊢
  · exact { h with }
  · exact h

/-- Every reachable configuration is in order. -/
theorem SystemConfig.Reachable.ok {default_config : Json D} {cfg : SystemConfig F}
    (h : SystemConfig.Reachable P default_config cfg) : cfg.Ok P := by
  refine Machine.Reachable.invariant ?_ ?_ h
  · rintro cfg ⟨saved, use_default, rfl⟩
    exact readConfig_ok default_config saved use_default
  · intro cfg c hcfg
    rw [setStep]
    split
    · rename_i f hf
      exact hcfg.set hf c.bytes
    · exact hcfg

end LcdPico
