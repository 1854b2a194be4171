import LcdPico.ConfigJson
import LcdPico.HostPlatform
import LcdPico.Lib.Machine

/-!
# Missing strings in a configuration that is loaded

cJSON gives NULL for the string of an item that is no string. `f?` is the source
function `f` on a `char *` that can be NULL: it gets stuck where the source would
compare, print or copy the missing string. Numbers are never stuck, and are read as in
`ConfigJson`.
-/

namespace LcdPico

/-- `char *`; none is NULL. -/
abbrev CharPtr : Type := Option CString

/-- `f(s)`, where `f` reads the string without asking whether there is one. -/
def readString? {α : Type} (f : CString → α) (s : CharPtr) : Option α := s.map f

/-! ## Functions that take a NULL (`util.c`, `ssh_util.c`, `config.c`) -/

def strncopy? {size : Nat} (dst : CStr size) (src : CharPtr) : Option (CStr size) :=
  if src.isNone then some dst else readString? CStr.copy src

def strToBitmask? (str : CharPtr) (len base : Nat) : Option (Option Nat) :=
  if str.isNone then some none else readString? (fun s => strToBitmask s len base) str

def str2vsmode? (s : CharPtr) : Option VsMode :=
  if s.isSome then readString? str2vsmode s else some .manual

section

variable {F D : Type} (P : Platform F D)

/-- `base64decode`, which returns NULL for a NULL. -/
def base64decode? (input : CharPtr) : Option CharPtr :=
  if input.isNone then some none else readString? (fun s => some (base64decode P s)) input

def strToSshPubkey? (s : CharPtr) (pk : SshPublicKey) : Option (Bool × SshPublicKey) :=
  if s.isNone then some (false, pk) else readString? (fun s => strToSshPubkey P s pk) s

/-- `get_i2c_sensor_type`: `null_type` is what it returns for a NULL, if it returns. -/
def getI2cSensorType? (null_type : Option UInt8) (name : CharPtr) : Option UInt8 :=
  if name.isNone then null_type else readString? P.getI2cSensorType name

/-! ## The log -/

def LOG_INFO : Int := 6

/-- `log_msg` of a text with the string `s` in it. -/
def logMsg? (levels : LogLevels) (priority : Int) (s : CharPtr) : Option Unit :=
  if priority > levels.log ∧ priority > levels.syslog then some ()
  else readString? (fun _ => ()) s

/-! ## `json_to_config` -/

/-- A variable that is read from an item, if there is one of the name. -/
def jsonToItem? {V : Type} (obj : Json D) (name : CString) (read? : Json D → Option V) (var : V) :
    Option V :=
  match obj.getObjectItem name with
  | some ref => read? ref
  | none => some var

section

variable (obj : Json D) (name : CString)

/-- The same, of the string of the item. -/
def jsonToText? {V : Type} (use : CharPtr → Option V) (var : V) : Option V :=
  jsonToItem? obj name (fun ref => use ref.getStringValue) var

/-- `JSON_TO_IP` -/
def jsonToIp? (var : IpAddr) : Option IpAddr :=
  jsonToText? obj name
    (fun val =>
      if val.isSome then readString? (fun s => (P.ipaddrAton s).getD var) val else some var)
    var

/-- `JSON_TO_BITMASK` -/
def jsonToBitmask? (var : UInt16) (max_count : Nat) : Option UInt16 :=
  jsonToText? obj name
    (fun val => do
      let m ← strToBitmask? val max_count 1
      return (m.map UInt16.ofNat).getD var)
    var

/-- `JSON_TO_STRING` -/
def jsonToString? {size : Nat} (var : CStr size) : Option (CStr size) :=
  jsonToText? obj name (fun val => if val.isSome then strncopy? var val else some var) var

/-- `JSON_TO_PASSWD` -/
def jsonToPasswd? {size : Nat} (var : CStr size) : Option (CStr size) :=
  jsonToText? obj name
    (fun val =>
      if val.isSome then do
        let p ← base64decode? P val
        if p.isSome then strncopy? var p else return var
      else some var)
    var

end

/-- The loop of `json2iplist` and `json2acllist`. -/
def jsonListLoop? {α : Type} {n : Nat} (parse : CString → Option α) :
    List (Json D) → CArray α n → Nat → Option (CArray α n)
  | [], list, _ => some list
  | o :: items, list, count =>
    let val := o.getStringValue
    if val.isSome ∧ count < n then do
      let x ← readString? parse val
      match x with
      | some x => jsonListLoop? parse items (list.wr count x) (count + 1)
      | none => jsonListLoop? parse items list count
    else jsonListLoop? parse items list count

def json2iplist? (item : Json D) (len : Nat) : Option (CArray IpAddr len) :=
  jsonListLoop? P.ipaddrAton item.children (Vector.replicate len 0) 0

def json2acllist? (item : Json D) (len : Nat) : Option (CArray AclEntry len) :=
  jsonListLoop? (aclEntry P) item.children (Vector.replicate len default) 0

/-- One round of the loop of `json2sshpubkeys`: the keys, and their number. -/
def sshPubkeysRound? (r : Json D) (keys : CArray SshPublicKey SSH_MAX_PUB_KEYS) (idx : Nat) :
    Option (CArray SshPublicKey SSH_MAX_PUB_KEYS × Nat) :=
  match r.getObjectItem "user".toList, r.getObjectItem "pubkey".toList with
  | some user, some pkey => do
    let (res, k) ← strToSshPubkey? P pkey.getStringValue (keys.rd idx)
    if res then do
      let username ← strncopy? k.username user.getStringValue
      return (keys.wr idx { k with username := username }, idx + 1)
    else return (keys.wr idx k, idx)
  | _, _ => some (keys, idx)

/-- The loop of `json2sshpubkeys`. -/
def sshPubkeysLoop? : List (Json D) → CArray SshPublicKey SSH_MAX_PUB_KEYS → Nat →
    Option (CArray SshPublicKey SSH_MAX_PUB_KEYS)
  | [], keys, _ => some keys
  | r :: items, keys, idx => do
    let (keys, idx) ← sshPubkeysRound? P r keys idx
    if idx ≥ SSH_MAX_PUB_KEYS then return keys else sshPubkeysLoop? items keys idx

def json2sshpubkeys? (list : Json D) : Option (CArray SshPublicKey SSH_MAX_PUB_KEYS) :=
  sshPubkeysLoop? P list.children (Vector.replicate _ clearSshPublicKey) 0

/-- `ntp_servers`, or `ntp_server` where there is no such item. -/
def ntpServers? (config : Json D) (var : CArray IpAddr SNTP_MAX_SERVERS) :
    Option (CArray IpAddr SNTP_MAX_SERVERS) :=
  match config.getObjectItem "ntp_servers".toList with
  | some ref => json2iplist? P ref SNTP_MAX_SERVERS
  | none => do
    let ip ← jsonToIp? P config "ntp_server".toList (var.rd 0)
    return var.wr 0 ip

/-- `json_to_config`, but for the virtual sensors: the items with strings, in the order
of the source, and then the others. -/
def jsonToSettings? (config : Json D) (cfg : SystemConfig F) : Option (SystemConfig F) := do
  let name ← jsonToString? config "name".toList cfg.name
  let timezone ← jsonToString? config "timezone".toList cfg.timezone
  let hostname ← jsonToString? config "hostname".toList cfg.hostname
  let wifiCountry ← jsonToString? config "wifi_country".toList cfg.wifiCountry
  let wifiSsid ← jsonToString? config "wifi_ssid".toList cfg.wifiSsid
  let wifiPasswd ← jsonToPasswd? P config "wifi_passwd".toList cfg.wifiPasswd
  let wifiAuthMode ← jsonToString? config "wifi_auth_mode".toList cfg.wifiAuthMode
  let dnsServers ← jsonToItem? config "dns_servers".toList
    (json2iplist? P · DNS_MAX_SERVERS) cfg.dnsServers
  let syslogServer ← jsonToIp? P config "syslog_server".toList cfg.syslogServer
  let ntpServers ← ntpServers? P config cfg.ntpServers
  let ip ← jsonToIp? P config "ip".toList cfg.ip
  let netmask ← jsonToIp? P config "netmask".toList cfg.netmask
  let gateway ← jsonToIp? P config "gateway".toList cfg.gateway
  let telnetUser ← jsonToString? config "telnet_user".toList cfg.telnetUser
  let telnetPwhash ← jsonToString? config "telnet_pwhash".toList cfg.telnetPwhash
  let telnetAcls ← jsonToItem? config "telnet_acls".toList
    (json2acllist? P · TELNET_MAX_ACL_ENTRIES) cfg.telnetAcls
  let sshUser ← jsonToString? config "ssh_user".toList cfg.sshUser
  let sshPwhash ← jsonToString? config "ssh_pwhash".toList cfg.sshPwhash
  let sshPubKeys ← jsonToItem? config "ssh_pubkeys".toList (json2sshpubkeys? P) cfg.sshPubKeys
  let sshAcls ← jsonToItem? config "ssh_acls".toList
    (json2acllist? P · SSH_MAX_ACL_ENTRIES) cfg.sshAcls
  let httpVsensorMask ←
    jsonToBitmask? config "http_vsensor_mask".toList cfg.httpVsensorMask VSENSOR_MAX_COUNT
  return { jsonToSettings P config cfg with
    name, timezone, hostname, wifiCountry, wifiSsid, wifiPasswd, wifiAuthMode, dnsServers,
    syslogServer, ntpServers, ip, netmask, gateway, telnetUser, telnetPwhash, telnetAcls,
    sshUser, sshPwhash, sshPubKeys, sshAcls, httpVsensorMask }

variable (null_type : Option UInt8)

/-- The `mode` of an item, for a sensor in the mode `mode`. -/
def vsensorMode? (item : Json D) (mode : VsMode) : Option VsMode :=
  jsonToText? item "mode".toList str2vsmode? mode

/-- The `i2c_type` of an item. -/
def vsensorI2cType? (item : Json D) (type : UInt8) : Option UInt8 :=
  jsonToText? item "i2c_type".toList (getI2cSensorType? P null_type) type

/-- One item of `vsensors`, for the sensor `s`. -/
def jsonToVsensor? (item : Json D) (s : VsensorInput F) : Option (VsensorInput F) := do
  let name ← jsonToString? item "name".toList s.name
  let mode ← vsensorMode? item s.mode
  let s := { s with name := name, mode := mode }
  match mode with
  | .manual =>
    return { s with
      defaultTemp := jsonToNum P item "default_temp".toList P.toFloat s.defaultTemp
      timeout := jsonToNum P item "timeout".toList (toI32 P) s.timeout }
  | .i2c => do
    let i2cType ← vsensorI2cType? P null_type item s.i2cType
    return { s with
      i2cType := i2cType
      i2cAddr := jsonToNum P item "i2c_addr".toList (toU8 P) s.i2cAddr }
  | .internal =>
    return { s with
      tempOffset := jsonToNum P item "temp_offset".toList P.toFloat s.tempOffset
      tempCoefficient := jsonToNum P item "temp_coefficient".toList P.toFloat s.tempCoefficient }
  | _ => return s

/-- The sensor of an item of `vsensors`. -/
def vsensorId (item : Json D) : Option Nat :=
  sensorIn (P.toInt (((item.getObjectItem "id".toList).map (·.getNumberValue P.nan)).getD P.nan))

/-- One round of the loop over `vsensors`. -/
def vsensorsStep? [Inhabited F] (cfg : SystemConfig F) (item : Json D) :
    Option (SystemConfig F) :=
  match vsensorId P item with
  | none => some cfg
  | some id => do
    let s ← jsonToVsensor? P null_type item (cfg.vsensors.rd id)
    return { cfg with
      vsensors := cfg.vsensors.wr id s
      vtemp := if s.mode = .manual then cfg.vtemp.wr id s.defaultTemp else cfg.vtemp }

/-- The items of `vsensors`. -/
def vsensorItems (config : Json D) : List (Json D) :=
  ((config.getObjectItem "vsensors".toList).map Json.children).getD []

variable (levels : LogLevels)

/-- The line with the version in the log. -/
def logVersion? (config : Json D) : Option Unit :=
  match config.getObjectItem "id".toList with
  | some ref => logMsg? levels LOG_INFO ref.valuestring
  | none => some ()

def jsonToConfig? [Inhabited F] (config : Json D) (cfg : SystemConfig F) :
    Option (SystemConfig F) := do
  logVersion? levels config
  let cfg ← jsonToSettings? P config cfg
  (vsensorItems config).foldlM (vsensorsStep? P null_type) cfg

def readConfig? [Inhabited F] (default_config : Json D) (saved : Option (Json D))
    (use_default_config : Bool) : Option (SystemConfig F) := do
  let config := if use_default_config then default_config else saved.getD default_config
  let cfg ← jsonToConfig? P null_type levels config (clearConfig P)
  return if use_default_config then { cfg with localEcho := true } else cfg

/-- `upload_config` with the text that was parsed, and the configuration before it. -/
def uploadConfig? [Inhabited F] (config : Json D) (cfg : SystemConfig F) :
    Option (SystemConfig F) :=
  match config.getObjectItem "id".toList with
  | none => some cfg
  | some ref => do
    let same ← readString? (CText.strneq · "lcdpico-config-v".toList 16) ref.valuestring
    if same then jsonToConfig? P null_type levels config (clearConfig P) else return cfg

end

/-! ## Uses behind a check -/

/-- A use that is skipped for a NULL. -/
theorem readString?_guarded {α : Type} (f : CString → α) (s : CharPtr) (d : α) :
    (if s.isSome = true then readString? f s else some d) = some ((s.map f).getD d) := by
  cases s with
  | none => rfl
  | some s => rfl

/-- A function that returns early for a NULL. -/
theorem readString?_early {α : Type} (f : CString → α) (s : CharPtr) (d : α) :
    (if s.isNone = true then some d else readString? f s) = some ((s.map f).getD d) := by
  cases s with
  | none => rfl
  | some s => rfl

theorem strncopy?_eq {size : Nat} (dst : CStr size) (src : CharPtr) :
    strncopy? dst src = some ((src.map CStr.copy).getD dst) :=
  readString?_early CStr.copy src dst

theorem strToBitmask?_eq (str : CharPtr) (len base : Nat) :
    strToBitmask? str len base = some (str.bind fun s => strToBitmask s len base) := by
  rw [strToBitmask?, readString?_early]
  cases str with
  | none => rfl
  | some s => rfl

theorem str2vsmode?_eq (s : CharPtr) : str2vsmode? s = some ((s.map str2vsmode).getD .manual) :=
  readString?_guarded str2vsmode s .manual

section

variable {F D : Type} (P : Platform F D)

theorem base64decode?_eq (input : CharPtr) :
    base64decode? P input = some (input.map (base64decode P)) := by
  rw [base64decode?, readString?_early]
  cases input with
  | none => rfl
  | some s => rfl

theorem strToSshPubkey?_eq (s : CharPtr) (pk : SshPublicKey) :
    strToSshPubkey? P s pk = some ((s.map (strToSshPubkey P · pk)).getD (false, pk)) :=
  readString?_early (strToSshPubkey P · pk) s (false, pk)

theorem jsonToItem?_eq {V : Type} (obj : Json D) (name : CString) {read? : Json D → Option V}
    {read : Json D → V} (h : ∀ ref, read? ref = some (read ref)) (var : V) :
    jsonToItem? obj name read? var =
      some (match obj.getObjectItem name with
        | some ref => read ref
        | none => var) := by
  rw [jsonToItem?]
  cases obj.getObjectItem name with
  | none => rfl
  | some ref => exact h ref

/-- A string that is used where there is one leaves the variable alone otherwise. -/
theorem jsonToText?_eq {V : Type} (obj : Json D) (name : CString) {use : CharPtr → Option V}
    {f : CString → V} {var : V} (h : ∀ val, use val = some ((val.map f).getD var)) :
    jsonToText? obj name use var =
      some (match (obj.getObjectItem name).bind Json.getStringValue with
        | some val => f val
        | none => var) := by
  rw [jsonToText?, jsonToItem?]
  cases obj.getObjectItem name with
  | none => rfl
  | some ref =>
    simp only [h, Option.bind_some]
    cases ref.getStringValue with
    | none => rfl
    | some val => rfl

theorem jsonToIp?_eq (obj : Json D) (name : CString) (var : IpAddr) :
    jsonToIp? P obj name var = some (jsonToIp P obj name var) :=
  jsonToText?_eq obj name fun val => readString?_guarded _ val var

theorem jsonToBitmask?_eq (obj : Json D) (name : CString) (var : UInt16) (max_count : Nat) :
    jsonToBitmask? obj name var max_count = some (jsonToBitmask obj name var max_count) := by
  refine jsonToText?_eq obj name fun val => ?_
  rw [strToBitmask?_eq]
  cases val with
  | none => rfl
  | some val => rfl

theorem jsonToString?_eq {size : Nat} (obj : Json D) (name : CString) (var : CStr size) :
    jsonToString? obj name var = some (jsonToString obj name var) := by
  refine jsonToText?_eq obj name fun val => ?_
  rw [strncopy?_eq]
  cases val with
  | none => rfl
  | some val => rfl

theorem jsonToPasswd?_eq {size : Nat} (obj : Json D) (name : CString) (var : CStr size) :
    jsonToPasswd? P obj name var = some (jsonToPasswd P obj name var) := by
  refine jsonToText?_eq obj name fun val => ?_
  simp only [base64decode?_eq, strncopy?_eq, Option.bind_eq_bind, Option.bind_some]
  cases val with
  | none => rfl
  | some val => rfl

/-! ## Lists -/

theorem jsonListLoop?_eq {α : Type} {n : Nat} (parse : CString → Option α) (items : List (Json D))
    (list : CArray α n) (count : Nat) :
    jsonListLoop? parse items list count = some (jsonListLoop parse items list count) := by
  induction items generalizing list count with
  | nil => rfl
  | cons o items ih =>
    rw [jsonListLoop?, jsonListLoop]
    cases o.getStringValue with
    | none => exact ih list count
    | some val =>
      by_cases hcount : count < n
      · simp only [Option.isSome_some, hcount, and_self, if_true, readString?, Option.map_some,
          Option.bind_eq_bind, Option.bind_some]
        cases parse val with
        | none => exact ih list count
        | some x => exact ih (list.wr count x) (count + 1)
      · simp only [hcount, and_false, if_false]
        exact ih list count

theorem sshPubkeysLoop?_eq (items : List (Json D)) (keys : CArray SshPublicKey SSH_MAX_PUB_KEYS)
    (idx : Nat) : sshPubkeysLoop? P items keys idx = some (sshPubkeysLoop P items keys idx) := by
  induction items generalizing keys idx with
  | nil => rfl
  | cons r items ih =>
    -- after the round: the array is full, or the loop goes on
    have stopOrGo (keys : CArray SshPublicKey SSH_MAX_PUB_KEYS) (idx : Nat) :
        (if idx ≥ SSH_MAX_PUB_KEYS then some keys else sshPubkeysLoop? P items keys idx) =
          some (if idx ≥ SSH_MAX_PUB_KEYS then keys else sshPubkeysLoop P items keys idx) := by
      rw [ih, apply_ite some]
    rw [sshPubkeysLoop?, sshPubkeysLoop, sshPubkeysRound?]
    cases r.getObjectItem "user".toList with
    | none => exact stopOrGo keys idx
    | some user =>
      cases r.getObjectItem "pubkey".toList with
      | none => exact stopOrGo keys idx
      | some pkey =>
        simp only [strToSshPubkey?_eq, strncopy?_eq, Option.bind_eq_bind, Option.bind_some]
        cases pkey.getStringValue with
        | none =>
          simp only [Option.map_none, Option.getD_none, Bool.false_eq_true, if_false,
            CArray.wr_rd_self]
          exact stopOrGo keys idx
        | some s =>
          simp only [Option.map_some, Option.getD_some]
          obtain ⟨res, k⟩ := strToSshPubkey P s (keys.rd idx)
          cases res with
          | false => exact stopOrGo (keys.wr idx k) idx
          | true => exact stopOrGo _ (idx + 1)

theorem json2sshpubkeys?_eq (list : Json D) :
    json2sshpubkeys? P list = some (json2sshpubkeys P list) := sshPubkeysLoop?_eq P _ _ _

theorem ntpServers?_eq (config : Json D) (var : CArray IpAddr SNTP_MAX_SERVERS) :
    ntpServers? P config var =
      some (match config.getObjectItem "ntp_servers".toList with
        | some ref => json2iplist P ref SNTP_MAX_SERVERS
        | none => var.wr 0 (jsonToIp P config "ntp_server".toList (var.rd 0))) := by
  rw [ntpServers?]
  cases config.getObjectItem "ntp_servers".toList with
  | none =>
    simp only [jsonToIp?_eq, Option.bind_eq_bind, Option.bind_some]
    rfl
  | some ref => exact jsonListLoop?_eq P.ipaddrAton ref.children _ 0

/-- Every string among the settings is used behind a check. -/
theorem jsonToSettings?_eq (config : Json D) (cfg : SystemConfig F) :
    jsonToSettings? P config cfg = some (jsonToSettings P config cfg) := by
  have hips (len : Nat) (ref : Json D) : json2iplist? P ref len = some (json2iplist P ref len) :=
    jsonListLoop?_eq P.ipaddrAton ref.children _ 0
  have hacls (len : Nat) (ref : Json D) :
      json2acllist? P ref len = some (json2acllist P ref len) :=
    jsonListLoop?_eq (aclEntry P) ref.children _ 0
  rw [jsonToSettings?]
  simp only [jsonToString?_eq, jsonToPasswd?_eq, jsonToIp?_eq, jsonToBitmask?_eq, ntpServers?_eq,
    jsonToItem?_eq _ _ (hips _), jsonToItem?_eq _ _ (hacls _),
    jsonToItem?_eq _ _ (json2sshpubkeys?_eq P), Option.bind_eq_bind, Option.bind_some]
  rfl

/-! ## Virtual sensors -/

/-- The mode that an item leaves its sensor in. -/
def itemMode (item : Json D) (mode : VsMode) : VsMode :=
  match item.getObjectItem "mode".toList with
  | some r => (r.getStringValue.map str2vsmode).getD .manual
  | none => mode

/-- The item has an `i2c_type` that is no string. -/
def LacksTypeName (item : Json D) : Prop :=
  ∃ r, item.getObjectItem "i2c_type".toList = some r ∧ r.getStringValue = none

theorem vsensorMode?_eq (item : Json D) (mode : VsMode) :
    vsensorMode? item mode = some (itemMode item mode) :=
  jsonToItem?_eq item "mode".toList (fun r => str2vsmode?_eq r.getStringValue) mode

variable (null_type : Option UInt8)

theorem vsensorI2cType?_isSome_iff (item : Json D) (type : UInt8) :
    (vsensorI2cType? P null_type item type).isSome = true ↔
      LacksTypeName item → null_type.isSome = true := by
  rw [vsensorI2cType?, jsonToText?, jsonToItem?, LacksTypeName]
  cases item.getObjectItem "i2c_type".toList with
  | none => simp
  | some r =>
    simp only [getI2cSensorType?, Option.some.injEq, exists_eq_left']
    cases r.getStringValue with
    | none => simp
    | some val => simp [readString?]

/-- In I2C mode the name of the sensor type is read; nothing else can be missing. -/
theorem jsonToVsensor?_isSome_iff (item : Json D) (s : VsensorInput F) :
    (jsonToVsensor? P null_type item s).isSome = true ↔
      (itemMode item s.mode = .i2c → LacksTypeName item → null_type.isSome = true) := by
  rw [jsonToVsensor?]
  simp only [jsonToString?_eq, vsensorMode?_eq, Option.bind_eq_bind, Option.bind_some]
  cases itemMode item s.mode with
  | i2c =>
    rw [← vsensorI2cType?_isSome_iff P null_type item s.i2cType]
    cases vsensorI2cType? P null_type item s.i2cType with
    | none =>
      exact iff_of_false Bool.false_ne_true fun h => absurd (h rfl) Bool.false_ne_true
    | some i2cType => exact iff_of_true rfl fun _ => rfl
  | _ =>
    refine iff_of_true rfl fun h => ?_
    cases h

theorem jsonToVsensor?_mode {item : Json D} {s s' : VsensorInput F}
    (h : jsonToVsensor? P null_type item s = some s') : s'.mode = itemMode item s.mode := by
  rw [jsonToVsensor?] at h
  simp only [jsonToString?_eq, vsensorMode?_eq, Option.bind_eq_bind, Option.bind_some] at h
  generalize itemMode item s.mode = mode at h ⊢
  cases mode with
  | i2c =>
    obtain ⟨i2cType, -, h⟩ := Option.bind_eq_some_iff.mp h
    obtain rfl := Option.some.inj h
    rfl
  | _ =>
    obtain rfl := Option.some.inj h
    rfl

/-- The modes of the sensors after an item. -/
def modesStep (modes : Nat → VsMode) (item : Json D) : Nat → VsMode :=
  match vsensorId P item with
  | none => modes
  | some id => Function.update modes id (itemMode item (modes id))

/-- The item names its sensor type, where it is read: where the sensor is left in I2C mode. -/
def NamesType (modes : Nat → VsMode) (item : Json D) : Prop :=
  ∀ id, vsensorId P item = some id → itemMode item (modes id) = .i2c → ¬ LacksTypeName item

/-- All items of `vsensors` name their sensor types, where they are read. All sensors are in
manual mode at first. -/
def TypesNamed (config : Json D) : Prop :=
  Machine.Within (modesStep P) (NamesType P) (fun _ => .manual) (vsensorItems config)

/-- The modes of the sensors in the configuration. -/
def SensorModes [Inhabited F] (cfg : SystemConfig F) (modes : Nat → VsMode) : Prop :=
  ∀ id < VSENSOR_COUNT, (cfg.vsensors.rd id).mode = modes id

variable {P null_type} in
/-- One round goes through where the item names its sensor type, or need not. -/
theorem vsensorsStep?_isSome_iff [Inhabited F] {cfg : SystemConfig F} {modes : Nat → VsMode}
    (hmodes : SensorModes cfg modes) (item : Json D) :
    (vsensorsStep? P null_type cfg item).isSome = true ↔
      null_type.isSome = true ∨ NamesType P modes item := by
  rw [NamesType]
  cases hid : vsensorId P item with
  | none => simp [vsensorsStep?, hid]
  | some id =>
    have hmode := hmodes id (sensorIn_lt hid)
    have hsensor := jsonToVsensor?_isSome_iff P null_type item (cfg.vsensors.rd id)
    rw [hmode] at hsensor
    have hround : (vsensorsStep? P null_type cfg item).isSome =
        (jsonToVsensor? P null_type item (cfg.vsensors.rd id)).isSome := by
      simp only [vsensorsStep?, hid, Option.bind_eq_bind]
      cases jsonToVsensor? P null_type item (cfg.vsensors.rd id) with
      | none => rfl
      | some s => rfl
    simp only [hround, hsensor, Option.some.injEq, forall_eq']
    tauto

variable {P null_type} in
/-- A round leaves the sensors in the modes that the items name. -/
theorem vsensorsStep?_modes [Inhabited F] {cfg cfg' : SystemConfig F} {modes : Nat → VsMode}
    (hmodes : SensorModes cfg modes) {item : Json D}
    (h : vsensorsStep? P null_type cfg item = some cfg') :
    SensorModes cfg' (modesStep P modes item) := by
  rw [vsensorsStep?] at h
  cases hid : vsensorId P item with
  | none =>
    simp only [hid] at h
    obtain rfl := Option.some.inj h
    simpa only [modesStep, hid] using hmodes
  | some sensor =>
    simp only [hid, Option.bind_eq_bind] at h
    obtain ⟨s, hs, h⟩ := Option.bind_eq_some_iff.mp h
    obtain rfl := Option.some.inj h
    have hsensor := sensorIn_lt hid
    intro id hlt
    simp only [modesStep, hid]
    rcases eq_or_ne sensor id with rfl | hne
    · rw [Function.update_self, CArray.rd_wr_self _ hsensor, jsonToVsensor?_mode P null_type hs,
        hmodes sensor hsensor]
    · rw [Function.update_of_ne hne.symm, CArray.rd_wr_ne _ hne]
      exact hmodes id hlt

/-- A library that takes a NULL for an unknown name makes it the type 0. -/
theorem jsonToVsensor?_eq (item : Json D) (s : VsensorInput F) :
    jsonToVsensor? P (some 0) item s = some (jsonToVsensor P item s) := by
  have htype (type : UInt8) : vsensorI2cType? P (some 0) item type =
      some (match item.getObjectItem "i2c_type".toList with
        | some r => (r.getStringValue.map P.getI2cSensorType).getD 0
        | none => type) :=
    jsonToItem?_eq item "i2c_type".toList
      (fun r => readString?_early P.getI2cSensorType r.getStringValue 0) type
  rw [jsonToVsensor?, jsonToVsensor]
  simp only [jsonToString?_eq, vsensorMode?_eq, htype, Option.bind_eq_bind, Option.bind_some]
  rw [itemMode]
  cases item.getObjectItem "mode".toList with
  | none => cases s.mode <;> rfl
  | some r =>
    dsimp only
    generalize (r.getStringValue.map str2vsmode).getD .manual = mode
    cases mode <;> rfl

theorem vsensorsStep?_eq [Inhabited F] (cfg : SystemConfig F) (item : Json D) :
    vsensorsStep? P (some 0) cfg item = some (vsensorsStep P cfg item) := by
  rw [vsensorsStep?, vsensorsStep, vsensorId]
  simp only [jsonToVsensor?_eq, Option.bind_eq_bind, Option.bind_some]
  cases sensorIn (P.toInt (((item.getObjectItem "id".toList).map
    (·.getNumberValue P.nan)).getD P.nan)) with
  | none => rfl
  | some id => rfl

/-! ## Loading -/

variable (levels : LogLevels)

/-- The `id` is a string, if there is one. -/
def IdIsString (config : Json D) : Prop :=
  ∀ ref, config.getObjectItem "id".toList = some ref → ref.valuestring.isSome = true

/-- No text of level `LOG_INFO` is logged. -/
def InfoNotLogged : Prop := LOG_INFO > levels.log ∧ LOG_INFO > levels.syslog

theorem logVersion?_isSome_iff (config : Json D) :
    (logVersion? levels config).isSome = true ↔ IdIsString config ∨ InfoNotLogged levels := by
  rw [logVersion?, IdIsString, InfoNotLogged]
  cases config.getObjectItem "id".toList with
  | none => simp
  | some ref =>
    by_cases hquiet : LOG_INFO > levels.log ∧ LOG_INFO > levels.syslog
    · simp [logMsg?, hquiet]
    · simp [logMsg?, hquiet, readString?]

variable {null_type} in
/-- The items of `vsensors`, from a configuration with all sensors in manual mode. -/
theorem vsensors_isSome_iff [Inhabited F] {cfg : SystemConfig F}
    (hmanual : SensorModes cfg fun _ => .manual) (config : Json D) :
    ((vsensorItems config).foldlM (vsensorsStep? P null_type) cfg).isSome = true ↔
      null_type.isSome = true ∨ TypesNamed P config := by
  have hstep (cfg : SystemConfig F) (modes : Nat → VsMode) (item : Json D)
      (hmodes : SensorModes cfg modes) :
      (vsensorsStep? P null_type cfg item).isSome = true ↔
        null_type.isSome = true ∨ NamesType P modes item := vsensorsStep?_isSome_iff hmodes item
  have hkeep (cfg : SystemConfig F) (modes : Nat → VsMode) (item : Json D) (cfg' : SystemConfig F)
      (hmodes : SensorModes cfg modes) (h : vsensorsStep? P null_type cfg item = some cfg') :
      SensorModes cfg' (modesStep P modes item) := vsensorsStep?_modes hmodes h
  rw [Machine.foldlM_isSome_iff_within hstep hkeep hmanual, TypesNamed]
  refine ⟨fun h => ?_, Machine.within_or⟩
  by_cases hnull : null_type.isSome = true
  · exact .inl hnull
  · have hiff (modes : Nat → VsMode) (item : Json D) (_ : True) :
        null_type.isSome = true ∨ NamesType P modes item ↔ NamesType P modes item :=
      or_iff_right hnull
    exact .inr ((Machine.within_congr (fun _ _ (_ : True) => trivial) hiff trivial _).mp h)

theorem jsonToConfig?_isSome_iff [Inhabited F] (config : Json D) :
    (jsonToConfig? P null_type levels config (clearConfig P)).isSome = true ↔
      (IdIsString config ∨ InfoNotLogged levels) ∧
        (null_type.isSome = true ∨ TypesNamed P config) := by
  have hmanual : SensorModes (jsonToSettings P config (clearConfig P)) fun _ => .manual := by
    intro id hlt
    have hrd : (clearConfig P).vsensors.rd id = clearVsensor P := by
      simp [clearConfig, CArray.rd, hlt]
    rw [jsonToSettings, hrd]
    rfl
  rw [← logVersion?_isSome_iff, ← vsensors_isSome_iff P hmanual, jsonToConfig?]
  simp only [jsonToSettings?_eq, Option.bind_eq_bind, Option.bind_some]
  cases logVersion? levels config with
  | none => simp
  | some u => simp

/-- With a library that takes a NULL for an unknown name, and no missing version, what is
loaded is what `ConfigJson` says. -/
theorem jsonToConfig?_eq [Inhabited F] {config : Json D}
    (hid : IdIsString config ∨ InfoNotLogged levels) (cfg : SystemConfig F) :
    jsonToConfig? P (some 0) levels config cfg = some (jsonToConfig P config cfg) := by
  obtain ⟨u, hlog⟩ := Option.isSome_iff_exists.mp ((logVersion?_isSome_iff levels config).mpr hid)
  have hstep : vsensorsStep? P (some 0) = fun cfg item => some (vsensorsStep P cfg item) := by
    funext cfg item
    exact vsensorsStep?_eq P cfg item
  rw [jsonToConfig?, hlog, hstep]
  simp only [jsonToSettings?_eq, Option.bind_eq_bind, Option.bind_some]
  exact List.foldlM_pure

/-! ## `read_config` and `upload_config` -/

/-- The `id` is a string that starts with "lcdpico-config-v". -/
def IdAccepted (config : Json D) : Prop :=
  ∃ ref s, config.getObjectItem "id".toList = some ref ∧ ref.valuestring = some s ∧
    "lcdpico-config-v".toList <+: s

theorem strneq_configId (s : CString) :
    CText.strneq s "lcdpico-config-v".toList 16 = true ↔ "lcdpico-config-v".toList <+: s := by
  have hlen : "lcdpico-config-v".toList.length = 16 := rfl
  rw [CText.strneq, beq_iff_eq, List.prefix_iff_eq_take, hlen, eq_comm]
  rfl

/-- What is read is what `ConfigJson` says, with such a library. -/
theorem readConfig?_eq [Inhabited F] (default_config : Json D) (saved : Option (Json D))
    (use_default_config : Bool)
    (hid : IdIsString (if use_default_config then default_config else saved.getD default_config) ∨
      InfoNotLogged levels) :
    readConfig? P (some 0) levels default_config saved use_default_config =
      some (readConfig P default_config saved use_default_config) := by
  rw [readConfig?, readConfig, jsonToConfig?_eq P levels hid]
  rfl

variable {config : Json D} (cfg : SystemConfig F)

/-- The id is compared before anything is known of it. -/
theorem uploadConfig?_notString [Inhabited F] (h : ¬ IdIsString config) :
    uploadConfig? P null_type levels config cfg = none := by
  simp only [IdIsString, not_forall] at h
  obtain ⟨ref, hid, hstring⟩ := h
  have hnull := Option.not_isSome_iff_eq_none.mp hstring
  simp only [uploadConfig?, hid, hnull]
  rfl

theorem uploadConfig?_accepted [Inhabited F] (h : IdAccepted config) :
    uploadConfig? P null_type levels config cfg =
      jsonToConfig? P null_type levels config (clearConfig P) := by
  obtain ⟨ref, s, hid, hs, hprefix⟩ := h
  have hsame := (strneq_configId s).mpr hprefix
  simp only [uploadConfig?, hid, hs, readString?, Option.map_some, hsame]
  rfl

theorem uploadConfig?_rejected [Inhabited F] (hstring : IdIsString config)
    (h : ¬ IdAccepted config) : uploadConfig? P null_type levels config cfg = some cfg := by
  rw [uploadConfig?]
  cases hid : config.getObjectItem "id".toList with
  | none => rfl
  | some ref =>
    obtain ⟨s, hs⟩ := Option.isSome_iff_exists.mp (hstring ref hid)
    have hother : CText.strneq s "lcdpico-config-v".toList 16 = false := by
      by_contra hsame
      exact h ⟨ref, s, hid, hs, (strneq_configId s).mp (Bool.not_eq_false _ ▸ hsame)⟩
    simp only [hs, readString?, Option.map_some, hother]
    rfl

/-- A configuration that is loaded: in `read_config` no missing string is used where the
version is a string or is not logged, and the sensor types are named or need not be; in
`upload_config` where the version is a string in any case. Then an upload with another
`id` changes nothing. -/
theorem config_strings_present [Inhabited F] (default_config : Json D) (saved : Option (Json D))
    (use_default_config : Bool) (uploaded : Json D) (cfg : SystemConfig F) :
    let config := if use_default_config then default_config else saved.getD default_config
    ((readConfig? P null_type levels default_config saved use_default_config).isSome = true ↔
      (IdIsString config ∨ InfoNotLogged levels) ∧
        (null_type.isSome = true ∨ TypesNamed P config)) ∧
    ((∃ cfg', uploadConfig? P null_type levels uploaded cfg = some cfg' ∧
        (¬ IdAccepted uploaded → cfg' = cfg)) ↔
      IdIsString uploaded ∧
        (IdAccepted uploaded → null_type.isSome = true ∨ TypesNamed P uploaded)) := by
  intro config
  refine ⟨?_, ?_⟩
  · rw [← jsonToConfig?_isSome_iff, readConfig?]
    simp only [Option.bind_eq_bind]
    cases jsonToConfig? P null_type levels config (clearConfig P) with
    | none => simp
    | some loaded => simp
  · by_cases hstring : IdIsString uploaded
    · by_cases haccepted : IdAccepted uploaded
      · rw [uploadConfig?_accepted P null_type levels cfg haccepted]
        have hloads : (∃ cfg', jsonToConfig? P null_type levels uploaded (clearConfig P) =
            some cfg') ↔ null_type.isSome = true ∨ TypesNamed P uploaded := by
          rw [← Option.isSome_iff_exists, jsonToConfig?_isSome_iff]
          exact and_iff_right (.inl hstring)
        refine ⟨?_, ?_⟩
        · rintro ⟨cfg', h, -⟩
          exact ⟨hstring, fun _ => hloads.mp ⟨cfg', h⟩⟩
        · rintro ⟨-, hnamed⟩
          obtain ⟨cfg', h⟩ := hloads.mpr (hnamed haccepted)
          exact ⟨cfg', h, fun hother => absurd haccepted hother⟩
      · rw [uploadConfig?_rejected P null_type levels cfg hstring haccepted]
        exact ⟨fun _ => ⟨hstring, fun h => absurd h haccepted⟩, fun _ => ⟨cfg, rfl, fun _ => rfl⟩⟩
    · rw [uploadConfig?_notString P null_type levels cfg hstring]
      refine ⟨?_, fun h => absurd h.1 hstring⟩
      rintro ⟨cfg', h, -⟩
      cases h

end

/-- The id is a number: its missing string is compared. -/
theorem upload_id_is_number :
    ¬ ∃ cfg', uploadConfig? hostPlatform (some 0) { debug := 0, log := 3, syslog := 3 }
        (.object [("id".toList, .number (some 1))]) (clearConfig hostPlatform) = some cfg' ∧
      (¬ IdAccepted (D := Option ℚ) (.object [("id".toList, .number (some 1))]) →
        cfg' = clearConfig hostPlatform) := by
  rintro ⟨cfg', h, -⟩
  cases h

end LcdPico
