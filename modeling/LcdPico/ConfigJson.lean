import LcdPico.Lib.CJson
import LcdPico.Settings

/-!
# The saved configuration (`config.c`)

`configToJson` and `jsonToConfig` go between the configuration and a JSON tree;
writing the tree to flash and parsing it again is cJSON's. The functions of the
source that store one variable after the other are one record here, a variable
at a time. Log levels are saved with the configuration, but are no part of it
(`LogLevels`). Running out of memory is left out.
-/

namespace LcdPico

/-! ## Bit masks (`util.c`) -/

/-- The variables of `bitmask_to_str`. -/
structure BitmaskText where
  buf : CString
  state : Nat
  prev : Int
  last : Nat

/-- One bit in the loop of `bitmask_to_str`. -/
def bitmaskBit (mask base : Nat) (range : Bool) (t : BitmaskText) (i : Nat) : BitmaskText :=
  if mask.testBit i then
    let consecutive : Bool := (i : Int) - t.prev = 1
    let t :=
      match t.state with
      | 0 => { t with buf := t.buf ++ CText.strncopy (CText.utoa (i + base)) 3, state := 1 }
      | 1 =>
        if range && consecutive then { t with last := i, state := 2 }
        else { t with buf := t.buf ++ CText.strncopy (',' :: CText.utoa (i + base)) 4 }
      | _ =>
        if consecutive then { t with last := i }
        else
          let s := '-' :: CText.utoa (t.last + base) ++ ',' :: CText.utoa (i + base)
          { t with buf := t.buf ++ CText.strncopy s 7, state := 1 }
    { t with prev := i }
  else t

/-- `bitmask_to_str` -/
def bitmaskToStr (mask len base : Nat) (range : Bool) : CString :=
  if len < 1 ∨ len > 32 then []
  else if range = false ∧ mask = 1 <<< len - 1 then ['*']
  else
    let t := (List.range len).foldl (bitmaskBit mask base range)
      { buf := [], state := 0, prev := -2, last := 0 }
    if range ∧ t.state = 2 then t.buf ++ CText.strncopy ('-' :: CText.utoa (t.last + base)) 12
    else t.buf

/-! ## Base64 (`util.c`) and SSH public keys (`ssh_util.c`) -/

/-- The string that bytes up to a NUL make. -/
def bytesText (bytes : List UInt8) : CString :=
  (bytes.takeWhile (· ≠ 0)).map fun b => Char.ofNat b.toNat

section

variable {F D : Type} (P : Platform F D)

/-- `base64encode` -/
def base64encode (input : CString) : CString := P.base64encodeRaw (rawBytes input)

/-- `base64decode` -/
def base64decode (input : CString) : CString := bytesText (P.base64decodeRaw input)

/-- `ssh_pubkey_to_str` -/
def sshPubkeyToStr (pk : SshPublicKey) (s_len : Nat) : CString :=
  CText.strncopy
    (pk.type.val ++ ' ' :: P.base64encodeRaw pk.pubkey.val ++ ' ' :: pk.name.val) s_len

/-! ## Lists in JSON -/

/-- The loop of `json2iplist` and `json2acllist`. -/
def jsonListLoop {α : Type} {n : Nat} (parse : CString → Option α) :
    List (Json D) → CArray α n → Nat → CArray α n
  | [], list, _ => list
  | o :: items, list, count =>
    match o.getStringValue with
    | some val =>
      if count < n then
        match parse val with
        | some x => jsonListLoop parse items (list.wr count x) (count + 1)
        | none => jsonListLoop parse items list count
      else jsonListLoop parse items list count
    | none => jsonListLoop parse items list count

/-- `json2iplist` -/
def json2iplist (item : Json D) (len : Nat) : CArray IpAddr len :=
  jsonListLoop P.ipaddrAton item.children (Vector.replicate len 0) 0

/-- An address in a list; 0.0.0.0 is left out. -/
def ipItem (ip : IpAddr) : Option (Json D) :=
  if ipAddrIsany ip then none else some (.string (P.ipaddrNtoa ip))

/-- `iplist2json` -/
def iplist2json {len : Nat} (list : CArray IpAddr len) : Json D :=
  .array (list.toList.filterMap (ipItem P))

/-- `json2acllist` -/
def json2acllist (item : Json D) (len : Nat) : CArray AclEntry len :=
  jsonListLoop (aclEntry P) item.children (Vector.replicate len default) 0

/-- An ACL entry in a list; one without a prefix is left out. -/
def aclItem (e : AclEntry) : Option (Json D) :=
  if e.prefixLen > 0 then
    some (.string
      (CText.strncopy (P.ipaddrNtoa e.ip ++ '/' :: CText.utoa e.prefixLen.toNat) 128))
  else none

/-- An array of items, none when there is no item. -/
def someArray (items : List (Json D)) : Option (Json D) :=
  if items.length < 1 then none else some (.array items)

/-- `acllist2json` -/
def acllist2json {len : Nat} (list : CArray AclEntry len) : Option (Json D) :=
  someArray (list.toList.filterMap (aclItem P))

/-- The loop of `json2sshpubkeys`. -/
def sshPubkeysLoop : List (Json D) → CArray SshPublicKey SSH_MAX_PUB_KEYS → Nat →
    CArray SshPublicKey SSH_MAX_PUB_KEYS
  | [], keys, _ => keys
  | r :: items, keys, idx =>
    let (keys, idx) :=
      match r.getObjectItem "user".toList, r.getObjectItem "pubkey".toList with
      | some user, some pkey =>
        match pkey.getStringValue with
        | some s =>
          match strToSshPubkey P s (keys.rd idx) with
          | (true, k) =>
            (keys.wr idx
              { k with username := (user.getStringValue.map CStr.copy).getD k.username }, idx + 1)
          | (false, k) => (keys.wr idx k, idx)
        | none => (keys, idx)
      | _, _ => (keys, idx)
    if idx ≥ SSH_MAX_PUB_KEYS then keys else sshPubkeysLoop items keys idx

/-- `json2sshpubkeys` -/
def json2sshpubkeys (list : Json D) : CArray SshPublicKey SSH_MAX_PUB_KEYS :=
  sshPubkeysLoop P list.children (Vector.replicate _ clearSshPublicKey) 0

/-- A key that is saved and listed: one with a user. -/
def SshPublicKey.isListed (k : SshPublicKey) : Bool :=
  k.pubkeySize > 0 && k.username.val.length > 0

/-- A key in the list; one without a user is left out. -/
def sshPubkeyItem (k : SshPublicKey) : Option (Json D) :=
  if k.isListed then
    some (.objectOf
      [("pubkey".toList, some (.string (sshPubkeyToStr P k 256))),
        ("user".toList, some (.string k.username.val))])
  else none

/-- `sshpubkeys2json` -/
def sshpubkeys2json (keys : CArray SshPublicKey SSH_MAX_PUB_KEYS) : Option (Json D) :=
  someArray (keys.toList.filterMap (sshPubkeyItem P))

/-! ## `config_to_json` -/

/-- `get_debug_level` and its siblings. -/
structure LogLevels where
  debug : Int
  log : Int
  syslog : Int

/-- The items that are numbers or bools, in the forms that `config_to_json` uses. -/
def numToJson (n : Int) : Json D := .number (P.ofInt n)

/-- The double of a bool. -/
def boolToNum (b : Bool) : Json D := numToJson P (if b then 1 else 0)

/-- `STRING_TO_JSON` -/
def stringToJson {size : Nat} (var : CStr size) : Option (Json D) :=
  if var.val.length > 0 then some (.string var.val) else none

/-- `PASSWD_TO_JSON` -/
def passwdToJson {size : Nat} (var : CStr size) : Option (Json D) :=
  if var.val.length > 0 then some (.string (base64encode P var.val)) else none

/-- `IP_TO_JSON` -/
def ipToJson (var : IpAddr) : Option (Json D) :=
  if ipAddrIsany var then none else some (.string (P.ipaddrNtoa var))

/-- `BITMASK_TO_JSON` -/
def bitmaskToJson (var : UInt16) (max_count : Nat) : Option (Json D) :=
  if var ≠ 0 then some (.string (bitmaskToStr var.toNat max_count 1 true)) else none

/-- The items of a virtual sensor in `config_to_json`. -/
def vsensorFields (i : Nat) (s : VsensorInput F) : List (CString × Option (Json D)) :=
  [("id".toList, some (numToJson P i)),
    ("name".toList, some (.string s.name.val)),
    ("mode".toList, some (.string (vsmode2str s.mode))),
    ("default_temp".toList,
      if s.mode = .manual then some (.number (P.ofFloat s.defaultTemp)) else none),
    ("timeout".toList, if s.mode = .manual then some (numToJson P s.timeout) else none),
    ("i2c_type".toList,
      if s.mode = .i2c then some (.string (P.i2cSensorTypeStr s.i2cType)) else none),
    ("i2c_addr".toList, if s.mode = .i2c then some (numToJson P s.i2cAddr.toNat) else none),
    ("temp_offset".toList,
      if s.mode = .internal then some (.number (P.ofFloat s.tempOffset)) else none),
    ("temp_coefficient".toList,
      if s.mode = .internal then some (.number (P.ofFloat s.tempCoefficient)) else none)]

/-- A virtual sensor in `config_to_json`. -/
def vsensorToJson (i : Nat) (s : VsensorInput F) : Json D := .objectOf (vsensorFields P i s)

/-- The items of `config_to_json`, each with the condition it is written under. -/
def configFields [Inhabited F] (levels : LogLevels) (cfg : SystemConfig F) :
    List (CString × Option (Json D)) :=
  [("id".toList, some (.string "lcdpico-config-v1".toList)),
    ("debug".toList, some (numToJson P levels.debug)),
    ("log_level".toList, some (numToJson P levels.log)),
    ("syslog_level".toList, some (numToJson P levels.syslog)),
    ("local_echo".toList, some (.bool cfg.localEcho)),
    ("led_mode".toList, some (numToJson P cfg.ledMode.toNat)),
    ("bl_brightness".toList, some (numToJson P cfg.blBrightness.toNat)),
    ("i2c_speed".toList, some (numToJson P cfg.i2cSpeed.toNat)),
    ("adc_vref".toList, some (.number (P.ofFloat cfg.adcVref))),
    ("name".toList, stringToJson cfg.name),
    ("timezone".toList, stringToJson cfg.timezone),
    ("hostname".toList, stringToJson cfg.hostname),
    ("wifi_country".toList, stringToJson cfg.wifiCountry),
    ("wifi_ssid".toList, stringToJson cfg.wifiSsid),
    ("wifi_passwd".toList, passwdToJson P cfg.wifiPasswd),
    ("wifi_auth_mode".toList, stringToJson cfg.wifiAuthMode),
    ("wifi_mode".toList,
      if cfg.wifiMode ≠ 0 then some (numToJson P cfg.wifiMode.toNat) else none),
    ("dns_servers".toList,
      if ipAddrIsany (cfg.dnsServers.rd 0) then none else some (iplist2json P cfg.dnsServers)),
    ("syslog_active".toList,
      if cfg.syslogActive ≠ true then some (boolToNum P cfg.syslogActive) else none),
    ("syslog_server".toList, ipToJson P cfg.syslogServer),
    ("ntp_active".toList,
      if cfg.ntpActive ≠ true then some (boolToNum P cfg.ntpActive) else none),
    ("ntp_servers".toList,
      if ipAddrIsany (cfg.ntpServers.rd 0) then none else some (iplist2json P cfg.ntpServers)),
    ("ip".toList, ipToJson P cfg.ip),
    ("netmask".toList, ipToJson P cfg.netmask),
    ("gateway".toList, ipToJson P cfg.gateway),
    ("telnet_active".toList,
      if cfg.telnetActive then some (boolToNum P cfg.telnetActive) else none),
    ("telnet_auth".toList,
      if cfg.telnetAuth ≠ true then some (boolToNum P cfg.telnetAuth) else none),
    ("telnet_raw_mode".toList,
      if cfg.telnetRawMode then some (boolToNum P cfg.telnetRawMode) else none),
    ("telnet_port".toList,
      if cfg.telnetPort > 0 then some (numToJson P cfg.telnetPort.toNat) else none),
    ("telnet_user".toList, stringToJson cfg.telnetUser),
    ("telnet_pwhash".toList, stringToJson cfg.telnetPwhash),
    ("telnet_acls".toList, acllist2json P cfg.telnetAcls),
    ("ssh_active".toList, if cfg.sshActive then some (boolToNum P cfg.sshActive) else none),
    ("ssh_auth".toList, if cfg.sshAuth ≠ true then some (boolToNum P cfg.sshAuth) else none),
    ("ssh_port".toList, if cfg.sshPort > 0 then some (numToJson P cfg.sshPort.toNat) else none),
    ("ssh_user".toList, stringToJson cfg.sshUser),
    ("ssh_pwhash".toList, stringToJson cfg.sshPwhash),
    ("ssh_pubkeys".toList, sshpubkeys2json P cfg.sshPubKeys),
    ("ssh_acls".toList, acllist2json P cfg.sshAcls),
    ("http_active".toList, if !cfg.httpActive then some (boolToNum P cfg.httpActive) else none),
    ("http_port".toList, if cfg.httpPort > 0 then some (numToJson P cfg.httpPort.toNat) else none),
    ("https_port".toList,
      if cfg.httpsPort > 0 then some (numToJson P cfg.httpsPort.toNat) else none),
    ("http_vsensor_mask".toList,
      if cfg.httpVsensorMask.toNat ≠ 1 <<< VSENSOR_COUNT - 1 then
        bitmaskToJson cfg.httpVsensorMask VSENSOR_MAX_COUNT
      else none),
    ("vsensors".toList,
      some (.array ((List.range VSENSOR_COUNT).map fun i =>
        vsensorToJson P i (cfg.vsensors.rd i))))]

/-- `config_to_json` -/
def configToJson [Inhabited F] (levels : LogLevels) (cfg : SystemConfig F) : Json D :=
  .objectOf (configFields P levels cfg)

/-! ## `json_to_config` -/

section

variable (obj : Json D) (name : CString)

/-- `JSON_TO_NUM`, with the conversion to the type of the variable. -/
def jsonToNum {V : Type} (ofDouble : D → V) (var : V) : V :=
  match obj.getObjectItem name with
  | some ref => ofDouble (ref.getNumberValue P.nan)
  | none => var

/-- `JSON_TO_IP` -/
def jsonToIp (var : IpAddr) : IpAddr :=
  match (obj.getObjectItem name).bind Json.getStringValue with
  | some val => (P.ipaddrAton val).getD var
  | none => var

/-- `JSON_TO_BITMASK` -/
def jsonToBitmask (var : UInt16) (max_count : Nat) : UInt16 :=
  match (obj.getObjectItem name).bind Json.getStringValue with
  | some val => ((strToBitmask val max_count 1).map UInt16.ofNat).getD var
  | none => var

/-- `JSON_TO_STRING` -/
def jsonToString {size : Nat} (var : CStr size) : CStr size :=
  match (obj.getObjectItem name).bind Json.getStringValue with
  | some val => CStr.copy val
  | none => var

/-- `JSON_TO_PASSWD` -/
def jsonToPasswd {size : Nat} (var : CStr size) : CStr size :=
  match (obj.getObjectItem name).bind Json.getStringValue with
  | some val => CStr.copy (base64decode P val)
  | none => var

end

/-- Conversions of a double to the integer types. -/
def toU8 (d : D) : UInt8 := UInt8.ofInt (P.toInt d)
def toU16 (d : D) : UInt16 := UInt16.ofInt (P.toInt d)
def toU32 (d : D) : UInt32 := UInt32.ofInt (P.toInt d)
/-- Out of range it saturates, as on the target. -/
def toI32 (d : D) : Int := max (-2 ^ 31) (min (P.toInt d) (2 ^ 31 - 1))

/-- One item of `vsensors`, for the sensor `s`. -/
def jsonToVsensor (item : Json D) (s : VsensorInput F) : VsensorInput F :=
  let s := { s with name := jsonToString item "name".toList s.name }
  let s :=
    match item.getObjectItem "mode".toList with
    | some r => { s with mode := (r.getStringValue.map str2vsmode).getD .manual }
    | none => s
  match s.mode with
  | .manual =>
    { s with
      defaultTemp := jsonToNum P item "default_temp".toList P.toFloat s.defaultTemp
      timeout := jsonToNum P item "timeout".toList (toI32 P) s.timeout }
  | .i2c =>
    { s with
      i2cType :=
        match item.getObjectItem "i2c_type".toList with
        | some r => (r.getStringValue.map P.getI2cSensorType).getD 0
        | none => s.i2cType
      i2cAddr := jsonToNum P item "i2c_addr".toList (toU8 P) s.i2cAddr }
  | .internal =>
    { s with
      tempOffset := jsonToNum P item "temp_offset".toList P.toFloat s.tempOffset
      tempCoefficient := jsonToNum P item "temp_coefficient".toList P.toFloat s.tempCoefficient }
  | _ => s

/-- One round of the loop over `vsensors`. -/
def vsensorsStep [Inhabited F] (cfg : SystemConfig F) (item : Json D) : SystemConfig F :=
  let id := P.toInt (((item.getObjectItem "id".toList).map (·.getNumberValue P.nan)).getD P.nan)
  match sensorIn id with
  | none => cfg
  | some id =>
    let s := jsonToVsensor P item (cfg.vsensors.rd id)
    { cfg with
      vsensors := cfg.vsensors.wr id s
      vtemp := if s.mode = .manual then cfg.vtemp.wr id s.defaultTemp else cfg.vtemp }

/-- `json_to_config`, but for the virtual sensors. -/
def jsonToSettings (config : Json D) (cfg : SystemConfig F) : SystemConfig F :=
  { cfg with
    localEcho := ((config.getObjectItem "local_echo".toList).map Json.isTrue).getD cfg.localEcho
    ledMode := jsonToNum P config "led_mode".toList (toU8 P) cfg.ledMode
    blBrightness := jsonToNum P config "bl_brightness".toList (toU8 P) cfg.blBrightness
    i2cSpeed := jsonToNum P config "i2c_speed".toList (toU32 P) cfg.i2cSpeed
    adcVref := jsonToNum P config "adc_vref".toList P.toFloat cfg.adcVref
    name := jsonToString config "name".toList cfg.name
    timezone := jsonToString config "timezone".toList cfg.timezone
    hostname := jsonToString config "hostname".toList cfg.hostname
    wifiCountry := jsonToString config "wifi_country".toList cfg.wifiCountry
    wifiSsid := jsonToString config "wifi_ssid".toList cfg.wifiSsid
    wifiPasswd := jsonToPasswd P config "wifi_passwd".toList cfg.wifiPasswd
    wifiAuthMode := jsonToString config "wifi_auth_mode".toList cfg.wifiAuthMode
    wifiMode := jsonToNum P config "wifi_mode".toList (toU8 P) cfg.wifiMode
    dnsServers :=
      match config.getObjectItem "dns_servers".toList with
      | some ref => json2iplist P ref DNS_MAX_SERVERS
      | none => cfg.dnsServers
    syslogActive := jsonToNum P config "syslog_active".toList P.toBool cfg.syslogActive
    syslogServer := jsonToIp P config "syslog_server".toList cfg.syslogServer
    ntpActive := jsonToNum P config "ntp_active".toList P.toBool cfg.ntpActive
    ntpServers :=
      match config.getObjectItem "ntp_servers".toList with
      | some ref => json2iplist P ref SNTP_MAX_SERVERS
      | none => cfg.ntpServers.wr 0 (jsonToIp P config "ntp_server".toList (cfg.ntpServers.rd 0))
    ip := jsonToIp P config "ip".toList cfg.ip
    netmask := jsonToIp P config "netmask".toList cfg.netmask
    gateway := jsonToIp P config "gateway".toList cfg.gateway
    telnetActive := jsonToNum P config "telnet_active".toList P.toBool cfg.telnetActive
    telnetAuth := jsonToNum P config "telnet_auth".toList P.toBool cfg.telnetAuth
    telnetRawMode := jsonToNum P config "telnet_raw_mode".toList P.toBool cfg.telnetRawMode
    telnetPort := jsonToNum P config "telnet_port".toList (toU16 P) cfg.telnetPort
    telnetUser := jsonToString config "telnet_user".toList cfg.telnetUser
    telnetPwhash := jsonToString config "telnet_pwhash".toList cfg.telnetPwhash
    telnetAcls :=
      match config.getObjectItem "telnet_acls".toList with
      | some ref => json2acllist P ref TELNET_MAX_ACL_ENTRIES
      | none => cfg.telnetAcls
    sshActive := jsonToNum P config "ssh_active".toList P.toBool cfg.sshActive
    sshAuth := jsonToNum P config "ssh_auth".toList P.toBool cfg.sshAuth
    sshPort := jsonToNum P config "ssh_port".toList (toU16 P) cfg.sshPort
    sshUser := jsonToString config "ssh_user".toList cfg.sshUser
    sshPwhash := jsonToString config "ssh_pwhash".toList cfg.sshPwhash
    sshPubKeys :=
      match config.getObjectItem "ssh_pubkeys".toList with
      | some ref => json2sshpubkeys P ref
      | none => cfg.sshPubKeys
    sshAcls :=
      match config.getObjectItem "ssh_acls".toList with
      | some ref => json2acllist P ref SSH_MAX_ACL_ENTRIES
      | none => cfg.sshAcls
    httpActive := jsonToNum P config "http_active".toList P.toBool cfg.httpActive
    httpPort := jsonToNum P config "http_port".toList (toU16 P) cfg.httpPort
    httpsPort := jsonToNum P config "https_port".toList (toU16 P) cfg.httpsPort
    httpVsensorMask :=
      jsonToBitmask config "http_vsensor_mask".toList cfg.httpVsensorMask VSENSOR_MAX_COUNT }

/-- `json_to_config` -/
def jsonToConfig [Inhabited F] (config : Json D) (cfg : SystemConfig F) : SystemConfig F :=
  (((config.getObjectItem "vsensors".toList).map Json.children).getD []).foldl (vsensorsStep P)
    (jsonToSettings P config cfg)

/-- `read_config`: `saved` is the file, if there is one that can be parsed. -/
def readConfig [Inhabited F] (default_config : Json D) (saved : Option (Json D))
    (use_default_config : Bool) : SystemConfig F :=
  let config := if use_default_config then default_config else saved.getD default_config
  let cfg := jsonToConfig P config (clearConfig P)
  if use_default_config then { cfg with localEcho := true } else cfg

/-- The configuration after it was saved and read again. -/
def reload [Inhabited F] (levels : LogLevels) (cfg : SystemConfig F) : SystemConfig F :=
  jsonToConfig P (configToJson P levels cfg) (clearConfig P)

end

end LcdPico
