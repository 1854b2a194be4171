import LcdPico.ConfigInvariant
import LcdPico.HostPlatform
import Mathlib.Data.Bool.AllAny

/-!
# Saving and reloading the configuration

`persisted` is what of a configuration is meant to be saved: all settings, of a
virtual sensor those that its mode uses, of a key slot the key it holds. `reloaded`
is what comes back. They differ in the values that `config_to_json` leaves out
although `clear_config` sets another one (`Survives` says where they agree).
-/

namespace LcdPico

variable {F D : Type} [Inhabited F] {P : Platform F D}

/-! ## What is saved and what comes back -/

/-- What a key slot holds: nothing, if it is free. -/
def SshPublicKey.held (k : SshPublicKey) : SshPublicKey :=
  if k.pubkeySize = 0 then clearSshPublicKey else k

/-- The settings of a configuration, without the parameters that the modes of the
sensors do not use, what is left in free key slots, and the measured values. -/
def SystemConfig.persisted (cfg : SystemConfig F) : SystemConfig F :=
  { cfg with
    vsensors := cfg.vsensors.map VsensorInput.relevant
    sshPubKeys := cfg.sshPubKeys.map SshPublicKey.held
    vtemp := Vector.replicate _ default
    vhumidity := Vector.replicate _ default
    vpressure := Vector.replicate _ default
    vtempUpdated := Vector.replicate _ 0 }

/-- What comes back of a list of addresses. -/
def reloadedIps {n : Nat} (list : CArray IpAddr n) : CArray IpAddr n :=
  if ipAddrIsany (list.rd 0) then Vector.replicate n 0
  else CArray.fill 0 (list.toList.filter fun ip => !ipAddrIsany ip)

/-- What comes back of an access list. -/
def reloadedAcls {n : Nat} (list : CArray AclEntry n) : CArray AclEntry n :=
  CArray.fill default (list.toList.filter fun e => e.prefixLen > 0)

/-- What comes back of a configuration. -/
def reloaded (P : Platform F D) (cfg : SystemConfig F) : SystemConfig F :=
  { cfg with
    name := if cfg.name.val = [] then (clearConfig P).name else cfg.name
    wifiCountry := if cfg.wifiCountry.val = [] then (clearConfig P).wifiCountry else cfg.wifiCountry
    wifiAuthMode :=
      if cfg.wifiAuthMode.val = [] then (clearConfig P).wifiAuthMode else cfg.wifiAuthMode
    dnsServers := reloadedIps cfg.dnsServers
    ntpServers := reloadedIps cfg.ntpServers
    telnetAcls := reloadedAcls cfg.telnetAcls
    sshAcls := reloadedAcls cfg.sshAcls
    sshPubKeys := CArray.fill clearSshPublicKey (cfg.sshPubKeys.toList.filter SshPublicKey.isListed)
    httpVsensorMask := if cfg.httpVsensorMask = 255 then 0 else cfg.httpVsensorMask }

/-- The names of the items of the saved configuration. -/
def configNames : List CString :=
  ["id".toList, "debug".toList, "log_level".toList, "syslog_level".toList, "local_echo".toList,
    "led_mode".toList, "bl_brightness".toList, "i2c_speed".toList, "adc_vref".toList,
    "name".toList, "timezone".toList, "hostname".toList, "wifi_country".toList,
    "wifi_ssid".toList, "wifi_passwd".toList, "wifi_auth_mode".toList, "wifi_mode".toList,
    "dns_servers".toList, "syslog_active".toList, "syslog_server".toList, "ntp_active".toList,
    "ntp_servers".toList, "ip".toList, "netmask".toList, "gateway".toList,
    "telnet_active".toList, "telnet_auth".toList, "telnet_raw_mode".toList,
    "telnet_port".toList, "telnet_user".toList, "telnet_pwhash".toList, "telnet_acls".toList,
    "ssh_active".toList, "ssh_auth".toList, "ssh_port".toList, "ssh_user".toList,
    "ssh_pwhash".toList, "ssh_pubkeys".toList, "ssh_acls".toList, "http_active".toList,
    "http_port".toList, "https_port".toList, "http_vsensor_mask".toList, "vsensors".toList]

section

variable {levels : LogLevels} {cfg : SystemConfig F}

/-- Each name gets its own item. -/
theorem configToJson_item {name : CString} {item : Option (Json D)}
    (h : ((configFields P levels cfg).find? fun f => Json.sameName name f.1) = some (name, item)) :
    (configToJson P levels cfg).getObjectItem name = item :=
  Json.getObjectItem_objectOf configNames rfl (by decide +kernel) h

/-- There is no item of the name that older versions saved. -/
theorem configToJson_ntpServer :
    (configToJson P levels cfg).getObjectItem "ntp_server".toList = none := by
  refine Json.getObjectItem_objectOf_none fun f hf => ?_
  have hnames : ∀ n ∈ configNames, Json.sameName "ntp_server".toList n = false := by
    decide +kernel
  have hmap : (configFields P levels cfg).map Prod.fst = configNames := rfl
  exact hnames f.1 (hmap ▸ List.mem_map_of_mem hf)

/-- The settings but for the virtual sensors. -/
theorem jsonToSettings_configToJson (hP : P.RoundTrips) (hcfg : cfg.Ok P) :
    jsonToSettings P (configToJson P levels cfg) (clearConfig P) =
      { reloaded P cfg with
        vsensors := (clearConfig P).vsensors
        vtemp := (clearConfig P).vtemp
        vhumidity := (clearConfig P).vhumidity
        vpressure := (clearConfig P).vpressure
        vtempUpdated := (clearConfig P).vtempUpdated } := by
  apply SystemConfig.ext
  case timezone | hostname | wifiSsid | telnetUser | telnetPwhash | sshUser | sshPwhash =>
    exact jsonToString_empty rfl (configToJson_item rfl)
  case name | wifiCountry | wifiAuthMode => exact jsonToString_eq _ (configToJson_item rfl)
  case syslogServer | ip | netmask | gateway => exact jsonToIp_eq hP (configToJson_item rfl)
  case ledMode =>
    have hitem : (configToJson P levels cfg).getObjectItem "led_mode".toList =
        some (numToJson P cfg.ledMode.toNat) := configToJson_item rfl
    exact jsonToNum_some (clearConfig P).ledMode hitem (toU8_ofInt hP _)
  case blBrightness =>
    have hitem : (configToJson P levels cfg).getObjectItem "bl_brightness".toList =
        some (numToJson P cfg.blBrightness.toNat) := configToJson_item rfl
    exact jsonToNum_some (clearConfig P).blBrightness hitem (toU8_ofInt hP _)
  case i2cSpeed =>
    have hitem : (configToJson P levels cfg).getObjectItem "i2c_speed".toList =
        some (numToJson P cfg.i2cSpeed.toNat) := configToJson_item rfl
    exact jsonToNum_some (clearConfig P).i2cSpeed hitem (toU32_ofInt hP _)
  case adcVref =>
    have hitem : (configToJson P levels cfg).getObjectItem "adc_vref".toList =
        some (.number (P.ofFloat cfg.adcVref)) := configToJson_item rfl
    exact jsonToNum_some (clearConfig P).adcVref hitem (hP.toFloat_ofFloat _)
  case wifiMode =>
    exact jsonToNum_ite (configToJson_item rfl) (toU8_ofInt hP _) fun h => (not_not.mp h).symm
  case telnetPort | sshPort | httpPort | httpsPort =>
    refine jsonToNum_ite (configToJson_item rfl) (toU16_ofInt hP _) fun h => ?_
    exact (UInt16.le_zero_iff.mp (UInt16.not_lt.mp h)).symm
  case syslogActive | ntpActive | telnetAuth | sshAuth =>
    exact jsonToNum_ite (configToJson_item rfl) (toBool_boolToNum hP _) fun h => (not_not.mp h).symm
  case telnetActive | telnetRawMode | sshActive =>
    refine jsonToNum_ite (configToJson_item rfl) (toBool_boolToNum hP _) fun h => ?_
    exact (Bool.not_eq_true _ ▸ h).symm
  case httpActive =>
    refine jsonToNum_ite (configToJson_item rfl) (toBool_boolToNum hP _) fun h => ?_
    have htrue : cfg.httpActive = true := by simpa using h
    exact htrue.symm
  case localEcho =>
    have hitem : (configToJson P levels cfg).getObjectItem "local_echo".toList =
        some (.bool cfg.localEcho) := configToJson_item rfl
    simp only [jsonToSettings, hitem]
    rfl
  case wifiPasswd => exact jsonToPasswd_eq hP rfl hcfg.wifiPasswd (configToJson_item rfl)
  case telnetAcls => exact acls_eq hP hcfg.telnetAcls (configToJson_item rfl)
  case sshAcls => exact acls_eq hP hcfg.sshAcls (configToJson_item rfl)
  case sshPubKeys => exact sshPubKeys_eq hP hcfg.sshPubKeys (configToJson_item rfl)
  case httpVsensorMask => exact jsonToBitmask_eq hcfg.httpVsensorMask (configToJson_item rfl)
  case dnsServers =>
    have hitem : (configToJson P levels cfg).getObjectItem "dns_servers".toList =
        if ipAddrIsany (cfg.dnsServers.rd 0) then none
        else some (iplist2json P cfg.dnsServers) := configToJson_item rfl
    simp only [jsonToSettings, hitem, reloaded, reloadedIps]
    split_ifs
    · rfl
    · exact json2iplist_iplist2json hP cfg.dnsServers
  case ntpServers =>
    have hitem : (configToJson P levels cfg).getObjectItem "ntp_servers".toList =
        if ipAddrIsany (cfg.ntpServers.rd 0) then none
        else some (iplist2json P cfg.ntpServers) := configToJson_item rfl
    simp only [jsonToSettings, hitem, reloaded, reloadedIps]
    split_ifs
    · simp only [jsonToIp, configToJson_ntpServer, Option.bind_none, CArray.wr_rd_self]
      rfl
    · exact json2iplist_iplist2json hP cfg.ntpServers
  all_goals rfl

/-- What of a reloaded configuration is saved. -/
theorem persisted_reload (hP : P.RoundTrips) (hcfg : cfg.Ok P) :
    (reload P levels cfg).persisted = (reloaded P cfg).persisted := by
  have hvsensors : (configToJson P levels cfg).getObjectItem "vsensors".toList =
      some (.array ((List.range VSENSOR_COUNT).map fun i =>
        vsensorToJson P i (cfg.vsensors.rd i))) := configToJson_item rfl
  obtain ⟨vsensors, vtemp, hfold, hrd⟩ := foldl_vsensorsStep hP cfg.vsensors.rd
    (jsonToSettings P (configToJson P levels cfg) (clearConfig P)) (Nat.le_refl VSENSOR_COUNT)
  have hrelevant : vsensors.map VsensorInput.relevant = cfg.vsensors.map VsensorInput.relevant := by
    apply CArray.ext_rd
    intro i hi
    rw [CArray.rd_map _ _ hi, CArray.rd_map _ _ hi, hrd i hi, if_pos hi]
    exact jsonToVsensor_relevant hP (hcfg.vsensors i hi) i _
  rw [reload, jsonToConfig, hvsensors]
  simp only [Option.map_some, Option.getD_some, Json.children]
  rw [hfold, jsonToSettings_configToJson hP hcfg]
  simp only [SystemConfig.persisted, hrelevant]
  rfl

end

/-! ## Which configurations survive -/

theorem SshPublicKey.held_clear : clearSshPublicKey.held = clearSshPublicKey := by decide

/-- A free slot is not listed. -/
theorem SshPublicKey.isListed_held (k : SshPublicKey) : k.held.isListed = k.isListed := by
  rw [held]
  split_ifs with hfree
  · simp only [isListed, hfree]
    rfl
  · rfl

/-- Keys that come back hold what they held. -/
theorem map_held_fill {n : Nat} (keys : CArray SshPublicKey n) :
    (CArray.fill clearSshPublicKey (keys.toList.filter SshPublicKey.isListed) :
      CArray SshPublicKey n).map SshPublicKey.held =
      CArray.fill clearSshPublicKey
        ((keys.map SshPublicKey.held).toList.filter SshPublicKey.isListed) := by
  have hlisted : SshPublicKey.isListed ∘ SshPublicKey.held = SshPublicKey.isListed :=
    funext SshPublicKey.isListed_held
  rw [Vector.toList_map, List.filter_map, hlisted]
  apply Vector.ext
  intro i hi
  rw [Vector.getElem_map, CArray.getElem_fill, CArray.getElem_fill, ← SshPublicKey.held_clear,
    List.getD_map, SshPublicKey.held_clear]

/-- The values that are saved and come back. Strings that `clear_config` does not
leave empty are not empty, lists have no gap and nothing left behind their end, and the mask
is not the one that is left out. -/
structure SystemConfig.Survives (cfg : SystemConfig F) : Prop where
  name : cfg.name.val ≠ []
  wifiCountry : cfg.wifiCountry.val ≠ []
  wifiAuthMode : cfg.wifiAuthMode.val ≠ []
  dnsServers : CArray.Packed (fun ip => !ipAddrIsany ip) 0 cfg.dnsServers.toList
  ntpServers : CArray.Packed (fun ip => !ipAddrIsany ip) 0 cfg.ntpServers.toList
  telnetAcls : CArray.Packed (fun e => e.prefixLen > 0) default cfg.telnetAcls.toList
  sshAcls : CArray.Packed (fun e => e.prefixLen > 0) default cfg.sshAcls.toList
  sshPubKeys : CArray.Packed SshPublicKey.isListed clearSshPublicKey
    (cfg.sshPubKeys.map SshPublicKey.held).toList
  httpVsensorMask : cfg.httpVsensorMask ≠ 255

/-- An empty string comes back as the default. -/
theorem ite_default_eq_iff {n : Nat} {s d : CStr n} (hd : d.val ≠ []) :
    (if s.val = [] then d else s) = s ↔ s.val ≠ [] := by
  split_ifs with hs
  · refine iff_of_false ?_ (not_not.mpr hs)
    rintro rfl
    exact hd hs
  · exact iff_of_true rfl hs

theorem reloadedIps_eq_iff {n : Nat} (list : CArray IpAddr n) :
    reloadedIps list = list ↔ CArray.Packed (fun ip => !ipAddrIsany ip) 0 list.toList := by
  rw [reloadedIps]
  split_ifs with hfirst
  · -- without a first address there is none
    constructor
    · rintro h i j - hj -
      have hj' : j < n := by simpa using hj
      rw [← h]
      simp [List.getD, hj']
    · intro h
      apply Vector.ext
      intro i hi
      have hkeep : (!ipAddrIsany (list.toList.getD 0 0)) = false := by
        have hget : list.toList.getD 0 0 = list.rd 0 := by
          simp only [CArray.rd, List.getD, Vector.getElem?_toList]
          rfl
        rw [hget, hfirst]
        rfl
      have hzero := h 0 i (Nat.zero_le i) (by simpa using hi) hkeep
      simpa [List.getD, hi] using hzero.symm
  · exact CArray.fill_filter_eq_self_iff (fun ip => !ipAddrIsany ip) 0 (by decide) list

/-- The settings that come back are those that were saved exactly if the
configuration survives. -/
theorem persisted_reloaded_iff (cfg : SystemConfig F) :
    (reloaded P cfg).persisted = cfg.persisted ↔ cfg.Survives := by
  have hname : (CStr.copy "lcdpico1".toList : CStr 32).val ≠ [] := by decide
  have hcountry : (CStr.copy "XX".toList : CStr (WIFI_COUNTRY_MAX_LEN + 1)).val ≠ [] := by decide
  have hmode : (CStr.copy "default".toList : CStr 16).val ≠ [] := by decide
  have hacls (list : CArray AclEntry 4) :=
    CArray.fill_filter_eq_self_iff (fun e : AclEntry => e.prefixLen > 0) default (by decide) list
  have hkeys (keys : CArray SshPublicKey SSH_MAX_PUB_KEYS) :=
    CArray.fill_filter_eq_self_iff SshPublicKey.isListed clearSshPublicKey (by decide) keys
  have hmask : (if cfg.httpVsensorMask = 255 then 0 else cfg.httpVsensorMask) =
      cfg.httpVsensorMask ↔ cfg.httpVsensorMask ≠ 255 := by
    split_ifs with h
    · simp [h]
    · exact iff_of_true rfl h
  constructor
  · intro h
    refine
      { name := (ite_default_eq_iff hname).mp (congrArg SystemConfig.name h)
        wifiCountry := (ite_default_eq_iff hcountry).mp (congrArg SystemConfig.wifiCountry h)
        wifiAuthMode := (ite_default_eq_iff hmode).mp (congrArg SystemConfig.wifiAuthMode h)
        dnsServers := (reloadedIps_eq_iff _).mp (congrArg SystemConfig.dnsServers h)
        ntpServers := (reloadedIps_eq_iff _).mp (congrArg SystemConfig.ntpServers h)
        telnetAcls := (hacls _).mp (congrArg SystemConfig.telnetAcls h)
        sshAcls := (hacls _).mp (congrArg SystemConfig.sshAcls h)
        sshPubKeys := ?_
        httpVsensorMask := hmask.mp (congrArg SystemConfig.httpVsensorMask h) }
    exact (hkeys _).mp ((map_held_fill _).symm.trans (congrArg SystemConfig.sshPubKeys h))
  · intro h
    apply SystemConfig.ext
    case name => exact (ite_default_eq_iff hname).mpr h.name
    case wifiCountry => exact (ite_default_eq_iff hcountry).mpr h.wifiCountry
    case wifiAuthMode => exact (ite_default_eq_iff hmode).mpr h.wifiAuthMode
    case dnsServers => exact (reloadedIps_eq_iff _).mpr h.dnsServers
    case ntpServers => exact (reloadedIps_eq_iff _).mpr h.ntpServers
    case telnetAcls => exact (hacls _).mpr h.telnetAcls
    case sshAcls => exact (hacls _).mpr h.sshAcls
    case sshPubKeys => exact (map_held_fill _).trans ((hkeys _).mpr h.sshPubKeys)
    case httpVsensorMask => exact hmask.mpr h.httpVsensorMask
    all_goals rfl

/-- The settings come back after a save and a reload exactly if the configuration
survives. -/
theorem save_reload (hP : P.RoundTrips) {default_config : Json D} {cfg : SystemConfig F}
    (hcfg : SystemConfig.Reachable P default_config cfg) (levels : LogLevels) :
    (reload P levels cfg).persisted = cfg.persisted ↔ cfg.Survives := by
  rw [persisted_reload hP hcfg.ok]
  exact persisted_reloaded_iff cfg

/-! ## On the host platform -/

/-- The host platform reads back what it writes. -/
theorem hostPlatform_roundTrips : hostPlatform.RoundTrips where
  toInt_ofInt i _ _ := by simp [hostPlatform]
  toBool_zero := by decide
  toBool_one := by decide
  toFloat_ofFloat _ := rfl
  aton_ntoa := DottedQuad.aton_ntoa
  ntoa_ne_nil := DottedQuad.ntoa_ne_nil
  ntoa_noSlash ip h := by
    rcases DottedQuad.mem_ntoa h with h | h <;> exact absurd h (by decide)
  length_ntoa := DottedQuad.length_ntoa_le
  decode_encode := Base64.decode_encode
  encode_ne_nil _ := Base64.encode_ne_nil
  encode_noBlank := Base64.blank_notMem_encode
  length_encode bytes h := by
    have hlen := Base64.length_encode_le bytes
    change (Base64.encode bytes).length ≤ 176
    omega
  sensorType_str s := by
    have hknown : ∀ i < i2cSensorTypes.length, hostPlatform.getI2cSensorType
        (hostPlatform.i2cSensorTypeStr (UInt8.ofNat i)) = UInt8.ofNat i := by
      decide +kernel
    refine hknown ((i2cSensorTypes.findIdx? fun name =>
      CText.strncaseeq s name (name.length + 1)).getD 0) ?_
    cases hfind : i2cSensorTypes.findIdx? fun name =>
      CText.strncaseeq s name (name.length + 1) with
    | none => decide
    | some i => exact (List.findIdx?_eq_some_iff_findIdx_eq.mp hfind).1
  sensorType_zero := by decide +kernel

/-- `SYS:HTTP:MASK:VSENSOR` -/
def maskCall (args : String) : Call :=
  { cmd := "VSENSOR".toList, args := args.toList, query := false, prevCmd := [] }

/-- The configuration after the command, on a device without a saved one. -/
def afterMask (args : String) : SystemConfig ℚ :=
  (cmdHttpMaskVsensor (maskCall args) (readConfig hostPlatform (.object []) none false)).2

theorem afterMask_reachable {args : String}
    (hbytes : ∀ c ∈ (maskCall args).args, 0 < c.toNat ∧ c.toNat < 256) :
    SystemConfig.Reachable hostPlatform (.object []) (afterMask args) :=
  .step (SetCommand.mk 0 .cmdHttpMaskVsensor (maskCall args) hbytes) (.init ⟨none, false, rfl⟩)

theorem save_reload_someSensors :
    (reload hostPlatform ⟨0, 0, 0⟩ (afterMask "1,3")).persisted = (afterMask "1,3").persisted := by
  have hreachable : SystemConfig.Reachable hostPlatform (.object []) (afterMask "1,3") :=
    afterMask_reachable (List.all_iff_forall_prop.mp (by decide))
  refine (save_reload hostPlatform_roundTrips hreachable _).mpr ?_
  exact
    { name := by decide +kernel
      wifiCountry := by decide +kernel
      wifiAuthMode := by decide +kernel
      dnsServers := (CArray.fill_filter_eq_self_iff _ _ (by decide) _).mp (by decide +kernel)
      ntpServers := (CArray.fill_filter_eq_self_iff _ _ (by decide) _).mp (by decide +kernel)
      telnetAcls := (CArray.fill_filter_eq_self_iff _ _ (by decide) _).mp (by decide +kernel)
      sshAcls := (CArray.fill_filter_eq_self_iff _ _ (by decide) _).mp (by decide +kernel)
      sshPubKeys := (CArray.fill_filter_eq_self_iff _ _ (by decide) _).mp (by decide +kernel)
      httpVsensorMask := by decide +kernel }

/-- The mask of all sensors is left out, and comes back as the mask of none. -/
theorem save_reload_allSensors :
    hostPlatform.RoundTrips ∧
      SystemConfig.Reachable hostPlatform (.object []) (afterMask "1-8") ∧
      (reload hostPlatform ⟨0, 0, 0⟩ (afterMask "1-8")).persisted ≠ (afterMask "1-8").persisted ∧
      (afterMask "1-8").httpVsensorMask = 255 ∧
      (reload hostPlatform ⟨0, 0, 0⟩ (afterMask "1-8")).httpVsensorMask = 0 := by
  have hsaved : (afterMask "1-8").httpVsensorMask = 255 := by decide +kernel
  have hback : (reload hostPlatform ⟨0, 0, 0⟩ (afterMask "1-8")).httpVsensorMask = 0 := by
    decide +kernel
  have hreachable : SystemConfig.Reachable hostPlatform (.object []) (afterMask "1-8") :=
    afterMask_reachable (List.all_iff_forall_prop.mp (by decide))
  refine ⟨hostPlatform_roundTrips, hreachable, fun h => ?_, hsaved, hback⟩
  have hmask := hback.symm.trans ((congrArg SystemConfig.httpVsensorMask h).trans hsaved)
  exact absurd hmask (by decide)

end LcdPico
