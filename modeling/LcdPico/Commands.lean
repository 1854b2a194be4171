import LcdPico.Lib.CText

/-!
# The command tree (`command.c`)

A command table is an array of `struct cmd_t`; a pointer to a table or to a
command function is modelled by its name. The tables are those of a build with
WiFi and TLS (`WIFI_SUPPORT`, `TLS_SUPPORT`).
-/

namespace LcdPico

/-- `struct cmd_t`, over the names `T` of tables and `H` of command functions. -/
structure Cmd (T H : Type) where
  cmd : CString
  minMatch : Nat
  subcmds : Option T
  func : Option H
deriving DecidableEq

/-- An entry as `command.c` writes it. -/
def cmd {T H : Type} (name : String) (min_match : Nat) (subcmds : Option T) (func : Option H) :
    Cmd T H :=
  { cmd := name.toList, minMatch := min_match, subcmds := subcmds, func := func }

/-- The command functions. -/
inductive Handler where
  | cmdLfsCopy
  | cmdLfsDel
  | cmdLfsDir
  | cmdLfsFormat
  | cmdLfsRen
  | cmdWifiAuthMode
  | cmdWifiCountry
  | cmdWifiGateway
  | cmdWifiHostname
  | cmdWifiIp
  | cmdWifiMac
  | cmdWifiNetmask
  | cmdWifiDns
  | cmdWifiNtpClient
  | cmdWifiNtp
  | cmdWifiMode
  | cmdWifiPassword
  | cmdWifiRejoin
  | cmdWifiSsid
  | cmdWifiStats
  | cmdWifiStatus
  | cmdWifiInfo
  | cmdWifiSyslogClient
  | cmdWifiSyslog
  | cmdHttpMaskVsensor
  | cmdHttpPort
  | cmdHttpTlsport
  | cmdHttpServer
  | cmdSshPkeyCreate
  | cmdSshPkeyDel
  | cmdSshPkey
  | cmdSshPubkeyAdd
  | cmdSshPubkeyDel
  | cmdSshPubkey
  | cmdSshAcls
  | cmdSshAuth
  | cmdSshPort
  | cmdSshServer
  | cmdSshPass
  | cmdSshUser
  | cmdTelnetAcls
  | cmdTelnetAuth
  | cmdTelnetPort
  | cmdTelnetRawmode
  | cmdTelnetServer
  | cmdTelnetPass
  | cmdTelnetUser
  | cmdTlsCert
  | cmdTlsPkey
  | cmdI2cScan
  | cmdI2cSpeed
  | cmdBoard
  | cmdEcho
  | cmdErr
  | cmdFlash
  | cmdI2c
  | cmdLed
  | cmdBacklight
  | cmdLfs
  | cmdLogLevel
  | cmdMemtest
  | cmdMemory
  | cmdName
  | cmdSyslogLevel
  | cmdTimezone
  | cmdTime
  | cmdUsbBoot
  | cmdUptime
  | cmdVersion
  | cmdAdcVref
  | cmdVsensors
  | cmdWifi
  | cmdVsensorName
  | cmdVsensorSource
  | cmdVsensorsSources
  | cmdDeleteConfig
  | cmdPrintConfig
  | cmdSaveConfig
  | cmdUploadConfig
  | cmdVsensorHumidity
  | cmdVsensorPressure
  | cmdVsensorTemp
  | cmdRead
  | cmdMain
  | cmdAnnunciators
  | cmdVsensorsRead
  | cmdVsensorWrite
  | cmdNull
  | cmdZero
  | cmdIdn
  | cmdOne
  | cmdReset
  | cmdDebug
  | cmdExit
  | cmdWho
deriving DecidableEq, Repr

/-- The command tables. -/
inductive Table where
  | lfsCommands
  | wifiCommands
  | httpMaskCommands
  | httpCommands
  | sshPkeyCommands
  | sshPubkeyCommands
  | sshCommands
  | telnetCommands
  | tlsCommands
  | i2cCommands
  | systemCommands
  | vsensorCCommands
  | vsensorsCCommands
  | configCommands
  | vsensorCommands
  | measureCommands
  | writeCommands
  | commands
deriving DecidableEq, Repr

open Handler Table in
/-- The entries of a command table, in order. -/
def entries : Table → List (Cmd Table Handler)
  | .lfsCommands =>
    [cmd "COPY" 4 none (some cmdLfsCopy),
      cmd "DELete" 3 none (some cmdLfsDel),
      cmd "DIRectory" 3 none (some cmdLfsDir),
      cmd "FORMAT" 6 none (some cmdLfsFormat),
      cmd "REName" 3 none (some cmdLfsRen)]
  | .wifiCommands =>
    [cmd "AUTHmode" 4 none (some cmdWifiAuthMode),
      cmd "COUntry" 3 none (some cmdWifiCountry),
      cmd "GATEway" 4 none (some cmdWifiGateway),
      cmd "HOSTname" 4 none (some cmdWifiHostname),
      cmd "IPaddress" 2 none (some cmdWifiIp),
      cmd "MAC" 3 none (some cmdWifiMac),
      cmd "NETMask" 4 none (some cmdWifiNetmask),
      cmd "DNS" 3 none (some cmdWifiDns),
      cmd "NTPClient" 4 none (some cmdWifiNtpClient),
      cmd "NTP" 3 none (some cmdWifiNtp),
      cmd "MODE" 4 none (some cmdWifiMode),
      cmd "PASSword" 4 none (some cmdWifiPassword),
      cmd "REJOIN" 6 none (some cmdWifiRejoin),
      cmd "SSID" 4 none (some cmdWifiSsid),
      cmd "STATS" 5 none (some cmdWifiStats),
      cmd "STATus" 4 none (some cmdWifiStatus),
      cmd "INFO" 4 none (some cmdWifiInfo),
      cmd "SYSLOGClient" 7 none (some cmdWifiSyslogClient),
      cmd "SYSLOG" 6 none (some cmdWifiSyslog)]
  | .httpMaskCommands =>
    [cmd "VSENSOR" 7 none (some cmdHttpMaskVsensor)]
  | .httpCommands =>
    [cmd "MASK" 4 (some httpMaskCommands) none,
      cmd "PORT" 4 none (some cmdHttpPort),
      cmd "TLSPORT" 7 none (some cmdHttpTlsport),
      cmd "SERVer" 4 none (some cmdHttpServer)]
  | .sshPkeyCommands =>
    [cmd "CREate" 3 none (some cmdSshPkeyCreate),
      cmd "DELete" 3 none (some cmdSshPkeyDel),
      cmd "LIST" 4 none (some cmdSshPkey)]
  | .sshPubkeyCommands =>
    [cmd "ADD" 3 none (some cmdSshPubkeyAdd),
      cmd "DELete" 3 none (some cmdSshPubkeyDel),
      cmd "LIST" 4 none (some cmdSshPubkey)]
  | .sshCommands =>
    [cmd "ACLs" 3 none (some cmdSshAcls),
      cmd "AUTH" 4 none (some cmdSshAuth),
      cmd "PORT" 4 none (some cmdSshPort),
      cmd "SERVer" 4 none (some cmdSshServer),
      cmd "PASSword" 4 none (some cmdSshPass),
      cmd "USER" 4 none (some cmdSshUser),
      cmd "KEY" 3 (some sshPkeyCommands) (some cmdSshPkey),
      cmd "PUBKEY" 6 (some sshPubkeyCommands) (some cmdSshPubkey)]
  | .telnetCommands =>
    [cmd "ACLs" 3 none (some cmdTelnetAcls),
      cmd "AUTH" 4 none (some cmdTelnetAuth),
      cmd "PORT" 4 none (some cmdTelnetPort),
      cmd "RAWmode" 3 none (some cmdTelnetRawmode),
      cmd "SERVer" 4 none (some cmdTelnetServer),
      cmd "PASSword" 4 none (some cmdTelnetPass),
      cmd "USER" 4 none (some cmdTelnetUser)]
  | .tlsCommands =>
    [cmd "CERT" 4 none (some cmdTlsCert),
      cmd "PKEY" 4 none (some cmdTlsPkey)]
  | .i2cCommands =>
    [cmd "SCAN" 4 none (some cmdI2cScan),
      cmd "SPEED" 5 none (some cmdI2cSpeed)]
  | .systemCommands =>
    [cmd "BOARD" 5 none (some cmdBoard),
      cmd "ECHO" 4 none (some cmdEcho),
      cmd "ERRor" 3 none (some cmdErr),
      cmd "FLASH" 5 none (some cmdFlash),
      cmd "I2C" 3 (some i2cCommands) (some cmdI2c),
      cmd "LED" 3 none (some cmdLed),
      cmd "BACKLight" 5 none (some cmdBacklight),
      cmd "LFS" 3 (some lfsCommands) (some cmdLfs),
      cmd "LOG" 3 none (some cmdLogLevel),
      cmd "MEMTEST" 7 none (some cmdMemtest),
      cmd "MEMory" 3 none (some cmdMemory),
      cmd "NAME" 4 none (some cmdName),
      cmd "SYSLOG" 6 none (some cmdSyslogLevel),
      cmd "TIMEZONE" 8 none (some cmdTimezone),
      cmd "TIME" 4 none (some cmdTime),
      cmd "UPGRADE" 7 none (some cmdUsbBoot),
      cmd "UPTIme" 4 none (some cmdUptime),
      cmd "VERsion" 3 none (some cmdVersion),
      cmd "VREFadc" 4 none (some cmdAdcVref),
      cmd "VSENSORS" 8 none (some cmdVsensors),
      cmd "WIFI" 4 (some wifiCommands) (some cmdWifi),
      cmd "IFCONFIG" 8 none (some cmdWifiInfo),
      cmd "HTTP" 4 (some httpCommands) none,
      cmd "TELNET" 6 (some telnetCommands) none,
      cmd "SSH" 3 (some sshCommands) none,
      cmd "TLS" 3 (some tlsCommands) none]
  | .vsensorCCommands =>
    [cmd "NAME" 4 none (some cmdVsensorName),
      cmd "SOUrce" 3 none (some cmdVsensorSource)]
  | .vsensorsCCommands =>
    [cmd "SOUrce" 3 none (some cmdVsensorsSources)]
  | .configCommands =>
    [cmd "DELete" 3 none (some cmdDeleteConfig),
      cmd "Read" 1 none (some cmdPrintConfig),
      cmd "SAVe" 3 none (some cmdSaveConfig),
      cmd "UPLOAD" 6 none (some cmdUploadConfig),
      cmd "VSENSORS" 8 (some vsensorsCCommands) (some cmdVsensorsSources),
      cmd "VSENSOR" 7 (some vsensorCCommands) none]
  | .vsensorCommands =>
    [cmd "HUMidity" 3 none (some cmdVsensorHumidity),
      cmd "PREssure" 3 none (some cmdVsensorPressure),
      cmd "Read" 1 none (some cmdVsensorTemp),
      cmd "TEMP" 4 none (some cmdVsensorTemp)]
  | .measureCommands =>
    [cmd "Read" 1 none (some cmdRead),
      cmd "Main" 1 none (some cmdMain),
      cmd "ANNunciators" 3 none (some cmdAnnunciators),
      cmd "VSENSORS" 8 none (some cmdVsensorsRead),
      cmd "VSENSOR" 7 (some vsensorCommands) (some cmdVsensorTemp)]
  | .writeCommands =>
    [cmd "VSENSOR" 7 none (some cmdVsensorWrite)]
  | .commands =>
    [cmd "*CLS" 4 none (some cmdNull),
      cmd "*ESE" 4 none (some cmdNull),
      cmd "*ESR" 4 none (some cmdZero),
      cmd "*IDN" 4 none (some cmdIdn),
      cmd "*OPC" 4 none (some cmdOne),
      cmd "*RST" 4 none (some cmdReset),
      cmd "*SRE" 4 none (some cmdZero),
      cmd "*STB" 4 none (some cmdZero),
      cmd "*TST" 4 none (some cmdZero),
      cmd "*WAI" 4 none (some cmdNull),
      cmd "CONFigure" 4 (some configCommands) (some cmdPrintConfig),
      cmd "Debug" 1 none (some cmdDebug),
      cmd "EXIT" 4 none (some cmdExit),
      cmd "MEAsure" 3 (some measureCommands) none,
      cmd "SYStem" 3 (some systemCommands) none,
      cmd "Read" 1 none (some cmdRead),
      cmd "WHO" 3 none (some cmdWho),
      cmd "WRIte" 3 (some writeCommands) none]

end LcdPico
