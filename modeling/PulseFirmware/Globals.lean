import PulseFirmware.Lib.CString

/-! The variables of cmd.c, main_app.c and ble.c that the command handler, the storage task
and the network task share, with the depth-one request queue between the last two. Arrays
have the sizes the linker gave them. -/
namespace PulseFirmware
open PulseFirmware.CString

inductive Iface
  | eth
  | wlan
deriving DecidableEq

inductive SecType
  | openNet
  | wpaPsk
  | wep
  | sec8021x
deriving DecidableEq

def m2mMaxPskLen : Nat := 65
def m2m1xUsrNameMax : Nat := 21
def m2mWifiChAll : UInt16 := 255

structure WifiConnParam where
  u8SsidLen : Nat
  u8SecType : SecType
  u16Ch : UInt16
  ssid : Bytes 65
  authInfo : Bytes 65
deriving DecidableEq

structure NetworkIpconfig where
  dhcp : Bool
  iface : Iface
  ipaddr : UInt32
  gwaddr : UInt32
  netmask : UInt32
deriving DecidableEq

/-- `network_msg_t`, the request code together with the part of the buffer it uses. -/
inductive NetworkMsg
  | connect (param : WifiConnParam)
  | scan
  | disconnect
  | connectDefault
  | settingsShow
  | settingsShowWifi
  | ipsettings (config : NetworkIpconfig)
deriving DecidableEq

structure ShownSettings where
  ipAddr : UInt32
  netmask : UInt32
  gw : UInt32
  dhcp : Bool
deriving DecidableEq

inductive Reply
  | successInternet
  | failedInternet
  | successToken
  | successLink
  | successSsid
  | successKey
  | successWifiEth
  | successEquipment
  | successEthernet
  | successVersion
  | successConnected
  | successIpconfigSaved
  | successIpconfigDhcpSaved
  | disconnectedFromAp
  | circuit1
  | mac (shown : ShownSettings)
  | wifimac (shown : ShownSettings)
deriving DecidableEq

/-- The fixed text of a message; the reports print sensor and interface values instead. -/
def Reply.text : Reply → Option String
  | .successInternet => some "success internet\n"
  | .failedInternet => some "failed internet\n"
  | .successToken => some "success token\n"
  | .successLink => some "success link\n"
  | .successSsid => some "success ssid\n"
  | .successKey => some "success key\n"
  | .successWifiEth => some "success wifi_eth\n"
  | .successEquipment => some "success equipment\n"
  | .successEthernet => some "success ethernet\n"
  | .successVersion => some "success version_1.1.4\n"
  | .successConnected => some "success connected\n"
  | .successIpconfigSaved => some "success ipconfig saved\n"
  | .successIpconfigDhcpSaved => some "success ipconfig dhcp saved\n"
  | .disconnectedFromAp => some "wifi disconnected from AP\n"
  | .circuit1 | .mac _ | .wifimac _ => none

structure WifiParam where
  ssidSaved : Bytes 33
  ssidSavedLen : Nat
  key : Bytes 65
  keyInd : UInt8
  login : Bytes 21
deriving DecidableEq

structure Globals where
  /-- `cmd_buff.p` and `cmd_buff.len` -/
  cmdBuff : Bytes 256
  cmdLen : Nat
  timesCount : UInt32
  configString : Bytes 240
  configString1 : Bytes 240
  resetPulse : Bytes 30
  apiToken : Bytes 240
  apiTokenFirst : Bytes 240
  apiToken1 : Bytes 240
  isInternet : Bytes 240
  isInternetFirst : Bytes 240
  isInternet1 : Bytes 240
  apiLink : Bytes 240
  apiLinkFirst : Bytes 240
  apiLink1 : Bytes 240
  ipaddr : UInt32
  gwaddr : UInt32
  netmask : UInt32
  ipaddressChanged : Bytes 50
  dhcpCheckWifi : Bytes 50
  dhcpCheckEth : Bytes 50
  dhcpCheckChanged : Bytes 50
  /-- `true_dhcp` and the memory behind it -/
  trueDhcp : Bytes 240
  /-- `ipaddr_value[0]`, `gw_value[0]` and `mask_value[0]` -/
  ipaddrValue : UInt32
  gwValue : UInt32
  maskValue : UInt32
  wifiParam : WifiParam
  ssidSavedCopy : Bytes 80
  keyCopy : Bytes 80
  ssidChanged : Bool
  keyChanged : Bool
  ssidNew : Bytes 80
  keyNew : Bytes 80
  ssidLen : Nat
  checkInternet : Bool
  testInternet : Bool
  keyflag : Bool
  keyconnect : Bool
  tryConnect : Bool
  ledOn : Bool
  restartSystem : Bool
  isBleOn : Bool
  update : Bytes 6
  sensorsTimerActive : Bool
  /-- `WifiConQ` -/
  wifiConQ : Option NetworkMsg
  /-- the messages handed to `ble_serial_send`, the last one at the end -/
  bleOut : List Reply

/-- The values the C initialisers give, with the bytes the linker put behind `true_dhcp`;
everything else starts at zero. -/
def Globals.initial (behind : Bytes 235) : Globals where
  cmdBuff := zeros 256
  cmdLen := 0
  timesCount := 2
  configString := strcpyLit (zeros 240) "z"
  configString1 := zeros 240
  resetPulse := zeros 30
  apiToken := zeros 240
  apiTokenFirst := zeros 240
  apiToken1 := zeros 240
  isInternet := zeros 240
  isInternetFirst := zeros 240
  isInternet1 := zeros 240
  apiLink := zeros 240
  apiLinkFirst := zeros 240
  apiLink1 := zeros 240
  ipaddr := 0
  gwaddr := 0
  netmask := 0
  ipaddressChanged := zeros 50
  dhcpCheckWifi := strcpyLit (zeros 50) "true"
  dhcpCheckEth := strcpyLit (zeros 50) "true"
  dhcpCheckChanged := strcpyLit (zeros 50) "false"
  trueDhcp := ⟨literal "true" ++ behind.toList, by simp [behind.toList_length, literal, ascii]⟩
  ipaddrValue := 0
  gwValue := 0
  maskValue := 0
  wifiParam := ⟨zeros 33,0,zeros 65,0,zeros 21⟩
  ssidSavedCopy := zeros 80
  keyCopy := zeros 80
  ssidChanged := false
  keyChanged := false
  ssidNew := zeros 80
  keyNew := zeros 80
  ssidLen := 0
  checkInternet := false
  testInternet := false
  keyflag := false
  keyconnect := false
  tryConnect := false
  ledOn := false
  restartSystem := false
  isBleOn := false
  update := strcpyLit (zeros 6) "false"
  sensorsTimerActive := false
  wifiConQ := none
  bleOut := []

/-- Why a piece of code does not come to its end: the chip was reset, or the code did
something C gives no meaning to. -/
inductive Stop
  | reset
  | fault
deriving DecidableEq

abbrev Outcome := Except Stop

def strcpyOr {n : Nat} (dst : Bytes n) (src : List UInt8) : Outcome (Bytes n) :=
  match strcpy dst src with
  | some copied => .ok copied
  | none => .error .fault

theorem bind_ok {α β : Type} {first : Outcome α} {rest : α → Outcome β} {result : β}
    (done : (first >>= rest) = .ok result) : ∃ middle, first = .ok middle ∧ rest middle = .ok result := by
  cases first with
  | error stop => contradiction
  | ok middle => exact ⟨middle,rfl,done⟩

theorem ok_bind {α β : Type} (middle : α) (rest : α → Outcome β) : ((.ok middle : Outcome α) >>= rest) = rest middle := rfl

theorem toOption_ok {α : Type} {outcome : Outcome α} {result : α} (done : outcome.toOption = some result) :
    outcome = .ok result := by
  cases outcome with
  | error stop => contradiction
  | ok answer => rw [Option.some.inj done]

theorem strcpyOr_fits {n : Nat} (dst : Bytes n) {src : List UInt8} (terminated : 0 ∈ src) (fits : strlen src < n) :
    strcpyOr dst src = .ok (memcpy dst (chars src ++ [0])) := by
  simp only [strcpyOr, strcpy, terminated, fits, and_self, if_true]

theorem strcpyOr_value {n : Nat} {dst copy : Bytes n} {src : List UInt8} (copied : strcpyOr dst src = .ok copy) :
    copy = memcpy dst (chars src ++ [0]) := by
  unfold strcpyOr strcpy at copied
  split at copied
  next result =>
    split at result
    next => exact (Except.ok.inj copied).symm.trans (Option.some.inj result).symm
    next => contradiction
  next => contradiction

theorem strcpyOr_chars {n : Nat} {dst copy : Bytes n} {src : List UInt8} (copied : strcpyOr dst src = .ok copy) :
    chars copy.toList = chars src := by
  unfold strcpyOr at copied
  split at copied
  next result => cases copied; exact strcpy_chars result
  next => contradiction

theorem observed {α β : Type} {result : Outcome α} {f : α → β} {value : β} (seen : result.toOption.map f = some value) :
    ∃ x, result = .ok x ∧ f x = value := by
  cases result with
  | error stop => contradiction
  | ok x => exact ⟨x,rfl,Option.some.inj seen⟩

/-- `ble_serial_send`, seen from its callers. -/
def Globals.reply (g : Globals) (message : Reply) : Globals := { g with bleOut := g.bleOut ++ [message] }

end PulseFirmware
