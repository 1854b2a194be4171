import LcdPico.Lib.CArray
import LcdPico.Lib.CText

/-!
# The configuration (`lcd-pico.h`, `clear_config`)

`SystemConfig` is `struct system_config` of a build with WiFi and TLS. A `char[n]`
is a `CStr n`, which cannot be overfull; an SSH public key is its used bytes,
which cannot exceed the key buffer. Fields that no command and no part of the
saved configuration touches are left out: `sensors` and `filter` of a virtual
sensor, the previous temperatures and the I2C contexts.

`Platform` collects what the firmware takes from outside: floating point, the
lwIP address functions, libb64, the names of the sensor types, `crypt`.
-/

namespace LcdPico

abbrev VSENSOR_COUNT : Nat := 8
abbrev VSENSOR_MAX_COUNT : Nat := 8
abbrev MAX_NAME_LEN : Nat := 64
abbrev WIFI_SSID_MAX_LEN : Nat := 32
abbrev WIFI_PASSWD_MAX_LEN : Nat := 64
abbrev WIFI_COUNTRY_MAX_LEN : Nat := 3
abbrev TELNET_MAX_ACL_ENTRIES : Nat := 4
abbrev SSH_MAX_ACL_ENTRIES : Nat := 4
abbrev SSH_MAX_PUB_KEYS : Nat := 4
abbrev MAX_USERNAME_LEN : Nat := 16
abbrev MAX_PWHASH_LEN : Nat := 128
/-- lwIP's default; `lwipopts.h` does not set it. -/
abbrev DNS_MAX_SERVERS : Nat := 2
abbrev SNTP_MAX_SERVERS : Nat := 2
def I2C_DEFAULT_SPEED : UInt32 := 1000000

/-! ## Strings in fixed-size arrays -/

/-- The string in a `char[size]`, which has room for its NUL. -/
def CStr (size : Nat) : Type := { s : CString // s.length ≤ size - 1 }

namespace CStr

variable {size : Nat}

instance : DecidableEq (CStr size) :=
  inferInstanceAs (DecidableEq { s : CString // s.length ≤ size - 1 })

/-- `strncopy(var, src, sizeof(var))` -/
def copy (src : CString) : CStr size := ⟨CText.strncopy src size, List.length_take_le _ _⟩

/-- `var[0] = 0` -/
def empty : CStr size := ⟨[], Nat.zero_le _⟩

instance : Inhabited (CStr size) := ⟨empty⟩

/-- A string that was stored is stored again as it is. -/
@[simp] theorem copy_val (s : CStr size) : copy s.val = s :=
  Subtype.ext (List.take_of_length_le s.property)

end CStr

/-! ## Types of the configuration -/

/-- `enum vsensor_modes` -/
inductive VsMode where
  | manual
  | max
  | min
  | avg
  | delta
  | internal
  | i2c
deriving DecidableEq, Repr

/-- `struct vsensor_input`, over the type `F` of `float`. -/
structure VsensorInput (F : Type) where
  name : CStr MAX_NAME_LEN
  mode : VsMode
  defaultTemp : F
  timeout : Int
  tempOffset : F
  tempCoefficient : F
  i2cType : UInt8
  i2cAddr : UInt8
deriving DecidableEq

instance {F : Type} [Inhabited F] : Inhabited (VsensorInput F) :=
  ⟨{ name := default
     mode := .manual
     defaultTemp := default
     timeout := 0
     tempOffset := default
     tempCoefficient := default
     i2cType := 0
     i2cAddr := 0 }⟩

/-- `ip_addr_t`; lwIP is built for IPv4 alone. -/
abbrev IpAddr : Type := UInt32

/-- `ip_addr_isany` -/
def ipAddrIsany (ip : IpAddr) : Bool := ip == 0

/-- `acl_entry_t` -/
structure AclEntry where
  ip : IpAddr
  prefixLen : UInt8
deriving DecidableEq, Inhabited

/-- `pubkey` and `pubkey_size`: at most 128 bytes. -/
abbrev PubkeyBytes : Type := { l : List UInt8 // l.length ≤ 128 }

instance : Inhabited PubkeyBytes := ⟨⟨[], Nat.zero_le _⟩⟩

/-- `struct ssh_public_key` -/
structure SshPublicKey where
  username : CStr (MAX_USERNAME_LEN + 1)
  type : CStr (32 + 1)
  name : CStr (32 + 1)
  pubkey : PubkeyBytes
deriving DecidableEq, Inhabited

/-- `pubkey_size` -/
def SshPublicKey.pubkeySize (k : SshPublicKey) : Nat := k.pubkey.val.length

/-- `struct system_config`, over the type `F` of `float`. -/
@[ext] structure SystemConfig (F : Type) where
  vsensors : CArray (VsensorInput F) VSENSOR_MAX_COUNT
  localEcho : Bool
  ledMode : UInt8
  blBrightness : UInt8
  name : CStr 32
  timezone : CStr 64
  i2cSpeed : UInt32
  adcVref : F
  wifiSsid : CStr (WIFI_SSID_MAX_LEN + 1)
  wifiPasswd : CStr (WIFI_PASSWD_MAX_LEN + 1)
  wifiCountry : CStr (WIFI_COUNTRY_MAX_LEN + 1)
  wifiAuthMode : CStr 16
  wifiMode : UInt8
  hostname : CStr 32
  dnsServers : CArray IpAddr DNS_MAX_SERVERS
  syslogActive : Bool
  syslogServer : IpAddr
  ntpActive : Bool
  ntpServers : CArray IpAddr SNTP_MAX_SERVERS
  ip : IpAddr
  netmask : IpAddr
  gateway : IpAddr
  telnetActive : Bool
  telnetAuth : Bool
  telnetRawMode : Bool
  telnetPort : UInt16
  telnetUser : CStr (MAX_USERNAME_LEN + 1)
  telnetPwhash : CStr (MAX_PWHASH_LEN + 1)
  telnetAcls : CArray AclEntry TELNET_MAX_ACL_ENTRIES
  sshActive : Bool
  sshAuth : Bool
  sshPort : UInt16
  sshUser : CStr (MAX_USERNAME_LEN + 1)
  sshPwhash : CStr (MAX_PWHASH_LEN + 1)
  sshPubKeys : CArray SshPublicKey SSH_MAX_PUB_KEYS
  sshAcls : CArray AclEntry SSH_MAX_ACL_ENTRIES
  httpActive : Bool
  httpPort : UInt16
  httpsPort : UInt16
  httpVsensorMask : UInt16
  /-- not saved: the measured values -/
  vtemp : CArray F VSENSOR_MAX_COUNT
  vhumidity : CArray F VSENSOR_MAX_COUNT
  vpressure : CArray F VSENSOR_MAX_COUNT
  vtempUpdated : CArray UInt64 VSENSOR_MAX_COUNT

/-! ## What the firmware takes from outside -/

/-- Functions of the C library, the SDK, lwIP and libb64, over the types `F` of
`float` and `D` of `double`. -/
structure Platform (F D : Type) where
  /-- `0.0` -/
  floatZero : F
  /-- `1.0` -/
  floatOne : F
  /-- `-1.0` -/
  floatMinusOne : F
  /-- `100.0` -/
  floatHundred : F
  /-- `ADC_REF_VOLTAGE` -/
  adcRefVoltage : F
  /-- `a <= b` -/
  floatLe : F → F → Bool
  /-- `a != b` -/
  floatNe : F → F → Bool
  /-- `strtof`; none when no conversion is made -/
  strtof : CString → Option F
  /-- `double` of an integer -/
  ofInt : Int → D
  /-- `double` of a `float` -/
  ofFloat : F → D
  /-- `float` of a `double` -/
  toFloat : D → F
  /-- integers of a `double` -/
  toInt : D → Int
  /-- `bool` of a `double` -/
  toBool : D → Bool
  /-- what `cJSON_GetNumberValue` returns of an item that is no number -/
  nan : D
  /-- `ipaddr_aton` -/
  ipaddrAton : CString → Option IpAddr
  /-- `ipaddr_ntoa` -/
  ipaddrNtoa : IpAddr → CString
  /-- `base64encode_raw` -/
  base64encodeRaw : List UInt8 → CString
  /-- `base64decode_raw`: the bytes it stores and counts -/
  base64decodeRaw : CString → List UInt8
  /-- `get_i2c_sensor_type`, 0 of an unknown name -/
  getI2cSensorType : CString → UInt8
  /-- `i2c_sensor_type_str` -/
  i2cSensorTypeStr : UInt8 → CString
  /-- `i2c_reserved_address` -/
  i2cReservedAddress : Int → Bool
  /-- `generate_sha512crypt_pwhash`; none when it fails -/
  generateSha512cryptPwhash : CString → Option CString

variable {F D : Type}

/-! ## The defaults -/

/-- The virtual sensors of `clear_config`. -/
def clearVsensor (P : Platform F D) : VsensorInput F :=
  { name := CStr.empty
    mode := .manual
    defaultTemp := P.floatZero
    timeout := 60
    tempOffset := P.floatZero
    tempCoefficient := P.floatOne
    i2cType := 0
    i2cAddr := 0 }

def clearSshPublicKey : SshPublicKey :=
  { username := CStr.empty, type := CStr.empty, name := CStr.empty, pubkey := default }

/-- `clear_config` -/
def clearConfig (P : Platform F D) : SystemConfig F :=
  { vsensors := Vector.replicate _ (clearVsensor P)
    localEcho := false
    ledMode := 0
    blBrightness := 100
    name := CStr.copy "lcdpico1".toList
    timezone := CStr.copy "".toList
    i2cSpeed := I2C_DEFAULT_SPEED
    adcVref := P.adcRefVoltage
    wifiSsid := CStr.empty
    wifiPasswd := CStr.empty
    wifiCountry := CStr.copy "XX".toList
    wifiAuthMode := CStr.copy "default".toList
    wifiMode := 0
    hostname := CStr.empty
    dnsServers := Vector.replicate _ 0
    syslogActive := true
    syslogServer := 0
    ntpActive := true
    ntpServers := Vector.replicate _ 0
    ip := 0
    netmask := 0
    gateway := 0
    telnetActive := false
    telnetAuth := true
    telnetRawMode := false
    telnetPort := 0
    telnetUser := CStr.empty
    telnetPwhash := CStr.empty
    telnetAcls := Vector.replicate _ default
    sshActive := false
    sshAuth := true
    sshPort := 0
    sshUser := CStr.empty
    sshPwhash := CStr.empty
    sshPubKeys := Vector.replicate _ clearSshPublicKey
    sshAcls := Vector.replicate _ default
    httpActive := true
    httpPort := 0
    httpsPort := 0
    httpVsensorMask := 0
    vtemp := Vector.replicate _ P.floatZero
    vhumidity := Vector.replicate _ P.floatMinusOne
    vpressure := Vector.replicate _ P.floatMinusOne
    vtempUpdated := Vector.replicate _ 0 }

/-! ## Modes of the virtual sensors -/

/-- `str2vsmode` -/
def str2vsmode (s : CString) : VsMode :=
  if CText.strncaseeq s "max".toList 3 then .max
  else if CText.strncaseeq s "min".toList 3 then .min
  else if CText.strncaseeq s "avg".toList 3 then .avg
  else if CText.strncaseeq s "delta".toList 5 then .delta
  else if CText.strncaseeq s "internal".toList 8 then .internal
  else if CText.strncaseeq s "i2c".toList 3 then .i2c
  else .manual

/-- `vsmode2str` -/
def vsmode2str : VsMode → CString
  | .max => "max".toList
  | .min => "min".toList
  | .avg => "avg".toList
  | .delta => "delta".toList
  | .internal => "internal".toList
  | .i2c => "i2c".toList
  | .manual => "manual".toList

/-- Every mode is read back from its name. -/
@[simp] theorem str2vsmode_vsmode2str (m : VsMode) : str2vsmode (vsmode2str m) = m := by
  cases m <;> decide

end LcdPico
