import LcdPico.Config
import LcdPico.RunCmd
import Mathlib.Data.List.Infix

/-!
# Commands that set the configuration (`command_util.c`, `command.c`)

A setting helper works on one variable: it takes the variable's value and returns
the result of the command with the value after it. A command function is the
helper applied to its own field, bounds and checks. What is printed and logged is
left out.
-/

namespace LcdPico

/-! ## Reading the arguments (`util.c`) -/

/-- `str_to_int`; none when it returns 0. -/
def strToInt (str : CString) (base : Nat) : Option Int := (CText.strtol base str).map Prod.fst

theorem strToInt_utoa {n : Nat} (hn : n < 2 ^ 31) :
    strToInt (CText.utoa n) 10 = some (n : Int) := by
  have h : CText.strtol 10 (CText.utoa n ++ []) = some ((n : Int), []) :=
    CText.strtol_utoa_append hn (by simp)
  rw [List.append_nil] at h
  rw [strToInt, h]
  rfl

/-- `clamp_int` -/
def clampInt (val min max : Int) : Int :=
  let res := if val < min then min else val
  if res > max then max else res

/-- One token of `str_to_bitmask`: a number, or a range. -/
def bitmaskToken (len base mask : Nat) (tok : CString) : Nat :=
  let toks := CText.tokens (CText.isChar '-') tok
  match toks[0]?.bind (strToInt · 10) with
  | none => mask
  | some a =>
    let a := a - base
    let mask := if 0 ≤ a ∧ a < len then mask ||| 1 <<< a.toNat else mask
    match toks[1]?.bind (strToInt · 10) with
    | none => mask
    | some b =>
      let b := b - base
      if b > a ∧ b < len then
        (List.range (b - a).toNat).foldl (fun (m i : Nat) => m ||| 1 <<< (a + 1 + (i : Int)).toNat)
          mask
      else mask

/-- `str_to_bitmask`; none when it does not return 0. Its `strdup` is taken to succeed. -/
def strToBitmask (str : CString) (len base : Nat) : Option Nat :=
  if len < 1 ∨ len > 32 then none
  else if CText.strneq str "*".toList 2 then some (1 <<< len - 1)
  else some ((CText.tokens (CText.isChar ',') str).foldl (bitmaskToken len base) 0)

/-! ## The numbers in header tokens -/

/-- Spaces and letters at the beginning are skipped, except the last character. -/
def skipLetters : CString → CString
  | c :: d :: s => if c.isAlpha || CText.isBlank c then skipLetters (d :: s) else c :: d :: s
  | s => s

/-- `get_cmd_index` -/
def getCmdIndex (cmd : CString) : Int :=
  if cmd.length < 1 ∨ cmd.length ≥ 256 then -2
  else
    match strToInt (skipLetters cmd) 10 with
    | none => -3
    | some idx => idx

/-- `get_prev_cmd` -/
def getPrevCmd (prev_cmd : List CString) (depth : Nat) : CString :=
  if depth ≥ prev_cmd.length then [] else prev_cmd.getD (prev_cmd.length - depth - 1) []

/-- `get_prev_cmd_index` -/
def getPrevCmdIndex (prev_cmd : List CString) (depth : Nat) : Int :=
  if depth ≥ prev_cmd.length then -2
  else getCmdIndex (prev_cmd.getD (prev_cmd.length - depth - 1) [])

/-! ## Setting helpers (`command_util.c`) -/

section Helpers

variable (call : Call)

/-- `string_setting` -/
def stringSetting {size : Nat} (var : CStr size)
    (validate_func : Option (CString → Bool)) : Int × CStr size :=
  if call.query then (0, var)
  else if validate_func.any fun valid => !valid call.args then (2, var)
  else if var.val ≠ call.args then (0, CStr.copy call.args)
  else (0, var)

/-- `bitmask16_setting` -/
def bitmask16Setting (mask : UInt16) (len base : Nat) : Int × UInt16 :=
  if call.query then (0, mask)
  else
    match strToBitmask call.args len base with
    | some new => (0, if mask.toNat ≠ new then UInt16.ofNat new else mask)
    | none => (1, mask)

/-- The range check of `uint8_setting` and its siblings, once the argument is
converted to the type of the variable. -/
def uintSetting {U : Type} [DecidableEq U] [LE U] [DecidableLE U] (ofInt : Int → U)
    (var min_val max_val : U) : Int × U :=
  if call.query then (0, var)
  else
    match strToInt call.args 10 with
    | some v =>
      let val := ofInt v
      if min_val ≤ val ∧ val ≤ max_val then (0, if var ≠ val then val else var) else (2, var)
    | none => (1, var)

/-- `uint32_setting` -/
def uint32Setting (var min_val max_val : UInt32) : Int × UInt32 :=
  uintSetting call UInt32.ofInt var min_val max_val

/-- `uint16_setting` -/
def uint16Setting (var min_val max_val : UInt16) : Int × UInt16 :=
  uintSetting call UInt16.ofInt var min_val max_val

/-- `uint8_setting` -/
def uint8Setting (var min_val max_val : UInt8) : Int × UInt8 :=
  uintSetting call UInt8.ofInt var min_val max_val

/-- `float_setting` -/
def floatSetting {F D : Type} (P : Platform F D) (var min_val max_val : F) : Int × F :=
  if call.query then (0, var)
  else
    match P.strtof call.args with
    | some val =>
      if P.floatLe min_val val && P.floatLe val max_val then
        (0, if P.floatNe var val then val else var)
      else (1, var)
    | none => (1, var)

/-- `bool_setting` -/
def boolSetting (var : Bool) : Int × Bool :=
  if call.query then (0, var)
  else if call.args = ['1'] ∨ CText.strncaseeq call.args "true".toList 5 ∨
      CText.strncaseeq call.args "on".toList 3 then
    (0, if var ≠ true then true else var)
  else if call.args = ['0'] ∨ CText.strncaseeq call.args "false".toList 6 ∨
      CText.strncaseeq call.args "off".toList 4 then
    (0, if var ≠ false then false else var)
  else (2, var)

/-- `ip_change` -/
def ipChange {F D : Type} (P : Platform F D) (ip : IpAddr) : Int × IpAddr :=
  if call.query then (0, ip)
  else
    match P.ipaddrAton call.args with
    | none => (2, ip)
    | some tmpip => (0, tmpip)

/-- The loop of `ip_list_change` and `acl_list_change` over the tokens: the list
and `idx`. An element that `isLast` ends the list. -/
def listLoop {α : Type} {n : Nat} (parse : CString → Option α) (isLast : α → Bool) :
    List CString → CArray α n → Nat → CArray α n × Nat
  | [], list, idx => (list, idx)
  | t :: toks, list, idx =>
    if idx < n then
      match parse (CText.trim t) with
      | some x =>
        if isLast x then (list.wr idx x, idx + 1)
        else listLoop parse isLast toks (list.wr idx x) (idx + 1)
      | none => listLoop parse isLast toks list idx
    else (list, idx)

/-- The elements from `idx` on are zeroed. -/
def zeroFrom {α : Type} {n : Nat} (a : CArray α n) (idx : Nat) (zero : α) : CArray α n :=
  Vector.ofFn fun i => if i.val ≥ idx then zero else a.get i

/-- What `ip_list_change` and `acl_list_change` have in common. -/
def listChange {α : Type} {n : Nat} (parse : CString → Option α) (isLast : α → Bool) (zero : α)
    (list : CArray α n) : Int × CArray α n :=
  if call.query then (0, list)
  else
    let (list, idx) := listLoop parse isLast (CText.tokens (CText.isChar ',') call.args) list 0
    if idx = 0 then (1, list) else (0, zeroFrom list idx zero)

/-- `ip_list_change` -/
def ipListChange {F D : Type} (P : Platform F D) {n : Nat} (ip : CArray IpAddr n) :
    Int × CArray IpAddr n :=
  listChange call P.ipaddrAton ipAddrIsany 0 ip

/-- One token of an ACL list: an address and a prefix length. -/
def aclEntry {F D : Type} (P : Platform F D) (t : CString) : Option AclEntry :=
  let toks := CText.tokens (CText.isChar '/') t
  match toks[0]?.bind P.ipaddrAton, toks[1]?.bind (strToInt · 10) with
  | some tmpip, some prefixLen =>
    some { ip := tmpip, prefixLen := UInt8.ofInt (clampInt prefixLen 0 32) }
  | _, _ => none

/-- `acl_list_change` -/
def aclListChange {F D : Type} (P : Platform F D) {n : Nat} (acl : CArray AclEntry n) :
    Int × CArray AclEntry n :=
  listChange call (aclEntry P) (·.prefixLen == 0) default acl

end Helpers

/-! ## Checks (`util_net.c`, `network.c`) -/

/-- `valid_wifi_country` -/
def validWifiCountry (country : CString) : Bool :=
  match country with
  | a :: b :: rest =>
    'A' ≤ a && a ≤ 'Z' && 'A' ≤ b && b ≤ 'Z' &&
      match rest with
      | [] => true
      | d :: _ => '1' ≤ d && d ≤ '9'
  | _ => false

/-- `valid_hostname` -/
def validHostname (name : CString) : Bool := name.all fun c => c.isAlphanum || c == '-'

/-- The names in `auth_types`. -/
def authTypes : List CString :=
  ["default".toList, "WPA3_WPA2".toList, "WPA3".toList, "WPA2".toList, "WPA2_WPA".toList,
    "WPA".toList, "OPEN".toList]

/-- `wifi_get_auth_type` finds the name. -/
def wifiGetAuthType (name : CString) : Bool :=
  !name.isEmpty && authTypes.any fun auth => CText.strncaseeq name auth (name.length + 1)

/-! ## SSH public keys (`ssh_util.c`) -/

/-- The bytes of a string. -/
def rawBytes (s : CString) : List UInt8 := s.map fun c => UInt8.ofNat c.toNat

/-- `memmem` finds the needle. -/
def memmem (haystack needle : List UInt8) : Bool := needle ≠ [] && needle <:+: haystack

/-- The bytes of a key that is accepted: 1 to 128 of them, its type among them. -/
def keyBytes {F D : Type} (P : Platform F D) (type t : CString) : Option PubkeyBytes :=
  let buf := P.base64decodeRaw t
  if h : 0 < buf.length ∧ buf.length ≤ 128 ∧ memmem buf (rawBytes type) = true then
    some ⟨buf, h.2.1⟩
  else none

/-- `str_to_ssh_pubkey`, into the key `pk`: whether it returns 0, and the key. -/
def strToSshPubkey {F D : Type} (P : Platform F D) (s : CString) (pk : SshPublicKey) :
    Bool × SshPublicKey :=
  let pk := { pk with type := CStr.empty, name := CStr.empty, pubkey := default }
  match CText.tokens (CText.isChar ' ') s with
  | [] => (false, pk)
  | [t] => (false, { pk with type := CStr.copy t })
  | t₁ :: t₂ :: rest =>
    let pk := { pk with type := CStr.copy t₁ }
    match keyBytes P pk.type.val t₂ with
    | none => (false, pk)
    | some key =>
      let pk := { pk with pubkey := key }
      match rest with
      | [] => (true, pk)
      | t₃ :: _ => (true, { pk with name := CStr.copy t₃ })

/-! ## Command functions (`command.c`) -/

section Commands

variable {F D : Type} [Inhabited F] (P : Platform F D)

/-- What a command function returns, with the configuration it leaves. -/
abbrev CmdFunc (F : Type) : Type := Call → SystemConfig F → Int × SystemConfig F

/-- A command function that is a setting helper applied to one variable of the
configuration. -/
def onVar {V : Type} (get : SystemConfig F → V) (set : SystemConfig F → V → SystemConfig F)
    (setting : Call → V → Int × V) : CmdFunc F := fun call conf =>
  let (res, var) := setting call (get conf)
  (res, set conf var)

def cmdLed : CmdFunc F := fun call conf =>
  if call.query then (0, conf)
  else
    match strToInt call.args 10 with
    | some mode =>
      if 0 ≤ mode ∧ mode ≤ 2 then (0, { conf with ledMode := UInt8.ofInt mode }) else (0, conf)
    | none => (0, conf)

def cmdBacklight : CmdFunc F :=
  onVar (·.blBrightness) (fun conf var => { conf with blBrightness := var })
    fun call var => uint8Setting call var 0 100

def cmdAdcVref : CmdFunc F :=
  onVar (·.adcVref) (fun conf var => { conf with adcVref := var })
    fun call var => floatSetting call P var P.floatZero P.floatHundred

def cmdEcho : CmdFunc F :=
  onVar (·.localEcho) (fun conf var => { conf with localEcho := var }) boolSetting

def cmdName : CmdFunc F :=
  onVar (·.name) (fun conf var => { conf with name := var })
    fun call var => stringSetting call var none

def cmdTimezone : CmdFunc F :=
  onVar (·.timezone) (fun conf var => { conf with timezone := var })
    fun call var => stringSetting call var none

def cmdI2cSpeed : CmdFunc F :=
  onVar (·.i2cSpeed) (fun conf var => { conf with i2cSpeed := var })
    fun call var => uint32Setting call var 10000 3400000

def cmdWifiIp : CmdFunc F :=
  onVar (·.ip) (fun conf var => { conf with ip := var }) fun call var => ipChange call P var

def cmdWifiNetmask : CmdFunc F :=
  onVar (·.netmask) (fun conf var => { conf with netmask := var })
    fun call var => ipChange call P var

def cmdWifiGateway : CmdFunc F :=
  onVar (·.gateway) (fun conf var => { conf with gateway := var })
    fun call var => ipChange call P var

def cmdWifiDns : CmdFunc F :=
  onVar (·.dnsServers) (fun conf var => { conf with dnsServers := var })
    fun call var => ipListChange call P var

def cmdWifiSyslogClient : CmdFunc F :=
  onVar (·.syslogActive) (fun conf var => { conf with syslogActive := var }) boolSetting

def cmdWifiSyslog : CmdFunc F :=
  onVar (·.syslogServer) (fun conf var => { conf with syslogServer := var })
    fun call var => ipChange call P var

def cmdWifiNtpClient : CmdFunc F :=
  onVar (·.ntpActive) (fun conf var => { conf with ntpActive := var }) boolSetting

def cmdWifiNtp : CmdFunc F :=
  onVar (·.ntpServers) (fun conf var => { conf with ntpServers := var })
    fun call var => ipListChange call P var

def cmdWifiSsid : CmdFunc F :=
  onVar (·.wifiSsid) (fun conf var => { conf with wifiSsid := var })
    fun call var => stringSetting call var none

def cmdWifiCountry : CmdFunc F :=
  onVar (·.wifiCountry) (fun conf var => { conf with wifiCountry := var })
    fun call var => stringSetting call var (some validWifiCountry)

def cmdWifiPassword : CmdFunc F :=
  onVar (·.wifiPasswd) (fun conf var => { conf with wifiPasswd := var })
    fun call var => stringSetting call var none

def cmdWifiHostname : CmdFunc F :=
  onVar (·.hostname) (fun conf var => { conf with hostname := var })
    fun call var => stringSetting call var (some validHostname)

def cmdWifiAuthMode : CmdFunc F := fun call conf =>
  if call.query then (0, conf)
  else if !wifiGetAuthType call.args then (1, conf)
  else if !CText.strneq conf.wifiAuthMode.val call.args 16 then
    (0, { conf with wifiAuthMode := CStr.copy call.args })
  else (0, conf)

def cmdWifiMode : CmdFunc F :=
  onVar (·.wifiMode) (fun conf var => { conf with wifiMode := var })
    fun call var => uint8Setting call var 0 1

def cmdSshAuth : CmdFunc F :=
  onVar (·.sshAuth) (fun conf var => { conf with sshAuth := var }) boolSetting

def cmdSshServer : CmdFunc F :=
  onVar (·.sshActive) (fun conf var => { conf with sshActive := var }) boolSetting

def cmdSshPort : CmdFunc F :=
  onVar (·.sshPort) (fun conf var => { conf with sshPort := var })
    fun call var => uint16Setting call var 0 65535

def cmdSshUser : CmdFunc F :=
  onVar (·.sshUser) (fun conf var => { conf with sshUser := var })
    fun call var => stringSetting call var none

/-- `strncopy` of a hash that may be missing: then the variable stays. -/
def passwordSetting {size : Nat} (call : Call) (var : CStr size) :
    Int × CStr size :=
  if call.query then (0, var)
  else if call.args ≠ [] then
    (0, ((P.generateSha512cryptPwhash call.args).map CStr.copy).getD var)
  else (0, CStr.empty)

def cmdSshPass : CmdFunc F :=
  onVar (·.sshPwhash) (fun conf var => { conf with sshPwhash := var }) (passwordSetting P)

/-- The first slot without a key. -/
def firstFreeSlot (keys : CArray SshPublicKey SSH_MAX_PUB_KEYS) : Option Nat :=
  (List.range SSH_MAX_PUB_KEYS).find? fun i => (keys.rd i).pubkeySize = 0

/-- The user name and the key in the arguments of `SYS:SSH:PUBKEY:ADD`. -/
def pubkeyArgs (args : CString) : Option (CString × SshPublicKey) :=
  match CText.strtok (CText.isChar ' ') args with
  | none => none
  | some (username, rest) =>
    let username := CText.trim username
    if username = [] then none
    else
      match CText.strtok (CText.isChar ',') rest with
      | none => none
      | some (pkey, _) =>
        match strToSshPubkey P (CText.trim pkey) default with
        | (true, pubkey) => some (username, pubkey)
        | (false, _) => none

def cmdSshPubkeyAdd : CmdFunc F := fun call conf =>
  if call.query then (1, conf)
  else
    match pubkeyArgs P call.args with
    | none => (0, conf)
    | some (username, pubkey) =>
      match firstFreeSlot conf.sshPubKeys with
      | none => (2, conf)
      | some idx =>
        (0, { conf with
          sshPubKeys := conf.sshPubKeys.wr idx { pubkey with username := CStr.copy username } })

def cmdSshPubkeyDel : CmdFunc F := fun call conf =>
  if call.query then (1, conf)
  else
    match strToInt call.args 10 with
    | none => (2, conf)
    | some idx =>
      if idx < 1 ∨ idx > SSH_MAX_PUB_KEYS then (2, conf)
      else
        let idx := (idx - 1).toNat
        if (conf.sshPubKeys.rd idx).pubkeySize > 0 then
          (0, { conf with sshPubKeys := conf.sshPubKeys.wr idx clearSshPublicKey })
        else (0, conf)

def cmdSshAcls : CmdFunc F :=
  onVar (·.sshAcls) (fun conf var => { conf with sshAcls := var })
    fun call var => aclListChange call P var

def cmdTelnetAuth : CmdFunc F :=
  onVar (·.telnetAuth) (fun conf var => { conf with telnetAuth := var }) boolSetting

def cmdTelnetRawmode : CmdFunc F :=
  onVar (·.telnetRawMode) (fun conf var => { conf with telnetRawMode := var }) boolSetting

def cmdTelnetServer : CmdFunc F :=
  onVar (·.telnetActive) (fun conf var => { conf with telnetActive := var }) boolSetting

def cmdTelnetPort : CmdFunc F :=
  onVar (·.telnetPort) (fun conf var => { conf with telnetPort := var })
    fun call var => uint16Setting call var 0 65535

def cmdTelnetUser : CmdFunc F :=
  onVar (·.telnetUser) (fun conf var => { conf with telnetUser := var })
    fun call var => stringSetting call var none

def cmdTelnetPass : CmdFunc F :=
  onVar (·.telnetPwhash) (fun conf var => { conf with telnetPwhash := var }) (passwordSetting P)

def cmdTelnetAcls : CmdFunc F :=
  onVar (·.telnetAcls) (fun conf var => { conf with telnetAcls := var })
    fun call var => aclListChange call P var

def cmdHttpServer : CmdFunc F :=
  onVar (·.httpActive) (fun conf var => { conf with httpActive := var }) boolSetting

def cmdHttpPort : CmdFunc F :=
  onVar (·.httpPort) (fun conf var => { conf with httpPort := var })
    fun call var => uint16Setting call var 0 65535

def cmdHttpTlsport : CmdFunc F :=
  onVar (·.httpsPort) (fun conf var => { conf with httpsPort := var })
    fun call var => uint16Setting call var 0 65535

def cmdHttpMaskVsensor : CmdFunc F :=
  onVar (·.httpVsensorMask) (fun conf var => { conf with httpVsensorMask := var })
    fun call var => bitmask16Setting call var VSENSOR_MAX_COUNT 1

/-! ### Virtual sensors -/

/-- The sensor a number stands for, when there is one. -/
def sensorIn (sensor : Int) : Option Nat :=
  if 0 ≤ sensor ∧ sensor < VSENSOR_COUNT then some sensor.toNat else none

theorem sensorIn_lt {i : Int} {sensor : Nat} (h : sensorIn i = some sensor) :
    sensor < VSENSOR_COUNT := by
  rw [sensorIn] at h
  split_ifs at h with hi
  obtain rfl := Option.some.inj h
  omega

/-- `array_string_setting` on the names of the sensors. -/
def cmdVsensorName : CmdFunc F := fun call conf =>
  match sensorIn (getPrevCmdIndex call.prevCmd 0 - 1) with
  | none => (1, conf)
  | some idx =>
    let v := conf.vsensors.rd idx
    let (res, name) := stringSetting call v.name none
    (res, { conf with vsensors := conf.vsensors.wr idx { v with name := name } })

/-- The arguments of `CONF:VSENSORx:SOURCE`, for the sensor `v`: the result, and
the sensor. -/
def sourceSetting (args : CString) (v : VsensorInput F) : Int × VsensorInput F :=
  match CText.tokens (CText.isChar ',') args with
  | [] => (2, v)
  | tok :: toks =>
    match str2vsmode tok with
    | .manual =>
      match toks[0]?.bind P.strtof, toks[1]?.bind (strToInt · 10) with
      | some default_temp, some timeout =>
        (0, { v with
          mode := .manual
          defaultTemp := default_temp
          timeout := if timeout < 0 then 0 else timeout })
      | _, _ => (2, v)
    | .i2c =>
      match toks[0]?.bind (strToInt · 16) with
      | some val =>
        if val > 0 ∧ val < 128 ∧ P.i2cReservedAddress val = false then
          let type := (toks[1]?.map P.getI2cSensorType).getD 0
          if type > 0 then
            (0, { v with mode := .i2c, i2cType := type, i2cAddr := UInt8.ofInt val })
          else (2, v)
        else (2, v)
      | none => (2, v)
    | .internal =>
      match toks[0]?.bind P.strtof, toks[1]?.bind P.strtof with
      | some temp_o, some temp_c =>
        if P.floatNe temp_c P.floatZero then
          -- `ret` is not set to 0 here
          (2, { v with mode := .internal, tempOffset := temp_o, tempCoefficient := temp_c })
        else (2, v)
      | _, _ => (2, v)
    | _ => (2, v)

def cmdVsensorSource : CmdFunc F := fun call conf =>
  match sensorIn (getPrevCmdIndex call.prevCmd 0 - 1) with
  | none => (1, conf)
  | some sensor =>
    if call.query then (0, conf)
    else
      let (ret, v) := sourceSetting P call.args (conf.vsensors.rd sensor)
      (ret, { conf with vsensors := conf.vsensors.wr sensor v })

/-- The sensor that `cmd_vsensor_temp` and `cmd_vsensor_write` act upon: that of
the header when it ends in VSENSORx, else that of the command itself. -/
def headerSensor (call : Call) : Int :=
  if CText.strncaseeq (getPrevCmd call.prevCmd 0) "vsensor".toList 7 then
    getPrevCmdIndex call.prevCmd 0 - 1
  else getCmdIndex call.cmd - 1

/-- `now` is what `get_absolute_time` returns. -/
def cmdVsensorWrite (now : UInt64) : CmdFunc F := fun call conf =>
  if call.query then (1, conf)
  else
    match sensorIn (headerSensor call) with
    | none => (1, conf)
    | some sensor =>
      if (conf.vsensors.rd sensor).mode = .manual then
        match P.strtof call.args with
        | some val =>
          (0, { conf with
            vtemp := conf.vtemp.wr sensor val
            vtempUpdated := conf.vtempUpdated.wr sensor now })
        | none => (1, conf)
      else (2, conf)

/-- `cmd_vsensor_temp`: it prints a temperature. -/
def cmdVsensorTemp : CmdFunc F := fun call conf =>
  if !call.query then (1, conf)
  else
    match sensorIn (headerSensor call) with
    | none => (1, conf)
    | some _ => (0, conf)

/-- `cmd_vsensor_humidity`: it prints a humidity. -/
def cmdVsensorHumidity : CmdFunc F := fun call conf =>
  if !call.query then (1, conf)
  else
    match sensorIn (getPrevCmdIndex call.prevCmd 0 - 1) with
    | none => (1, conf)
    | some _ => (0, conf)

/-- `cmd_vsensor_pressure`: it prints a pressure. -/
def cmdVsensorPressure : CmdFunc F := cmdVsensorHumidity

/-! ### The functions that set the configuration -/

/-- The command functions that set the configuration, by name. -/
def setterOf (now : UInt64) : Handler → Option (CmdFunc F)
  | .cmdVsensorName => some cmdVsensorName
  | .cmdVsensorSource => some (cmdVsensorSource P)
  | .cmdVsensorWrite => some (cmdVsensorWrite P now)
  | .cmdLed => some cmdLed
  | .cmdBacklight => some cmdBacklight
  | .cmdAdcVref => some (cmdAdcVref P)
  | .cmdEcho => some cmdEcho
  | .cmdName => some cmdName
  | .cmdTimezone => some cmdTimezone
  | .cmdI2cSpeed => some cmdI2cSpeed
  | .cmdWifiIp => some (cmdWifiIp P)
  | .cmdWifiNetmask => some (cmdWifiNetmask P)
  | .cmdWifiGateway => some (cmdWifiGateway P)
  | .cmdWifiDns => some (cmdWifiDns P)
  | .cmdWifiSyslogClient => some cmdWifiSyslogClient
  | .cmdWifiSyslog => some (cmdWifiSyslog P)
  | .cmdWifiNtpClient => some cmdWifiNtpClient
  | .cmdWifiNtp => some (cmdWifiNtp P)
  | .cmdWifiSsid => some cmdWifiSsid
  | .cmdWifiCountry => some cmdWifiCountry
  | .cmdWifiPassword => some cmdWifiPassword
  | .cmdWifiHostname => some cmdWifiHostname
  | .cmdWifiAuthMode => some cmdWifiAuthMode
  | .cmdWifiMode => some cmdWifiMode
  | .cmdSshAuth => some cmdSshAuth
  | .cmdSshServer => some cmdSshServer
  | .cmdSshPort => some cmdSshPort
  | .cmdSshUser => some cmdSshUser
  | .cmdSshPass => some (cmdSshPass P)
  | .cmdSshPubkeyAdd => some (cmdSshPubkeyAdd P)
  | .cmdSshPubkeyDel => some cmdSshPubkeyDel
  | .cmdSshAcls => some (cmdSshAcls P)
  | .cmdTelnetAuth => some cmdTelnetAuth
  | .cmdTelnetRawmode => some cmdTelnetRawmode
  | .cmdTelnetServer => some cmdTelnetServer
  | .cmdTelnetPort => some cmdTelnetPort
  | .cmdTelnetUser => some cmdTelnetUser
  | .cmdTelnetPass => some (cmdTelnetPass P)
  | .cmdTelnetAcls => some (cmdTelnetAcls P)
  | .cmdHttpServer => some cmdHttpServer
  | .cmdHttpPort => some cmdHttpPort
  | .cmdHttpTlsport => some cmdHttpTlsport
  | .cmdHttpMaskVsensor => some cmdHttpMaskVsensor
  | _ => none

end Commands

end LcdPico
