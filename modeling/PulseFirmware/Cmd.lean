import PulseFirmware.Globals

/-! The command line interface of cmd.c and the request builders of network.c: lines come in
through `cmd_feed`, `cmd_parse` selects a handler, and handlers write the globals, queue a
request for the network task or reply over BLE. -/
namespace PulseFirmware
open PulseFirmware.CString

/-- `network_msg_send`: a send with zero timeout to a queue of depth one. -/
def networkMsgSend (g : Globals) (msg : NetworkMsg) : Globals × Int :=
  match g.wifiConQ with
  | none => ({ g with wifiConQ := some msg },0)
  | some _ => (g,-1)

def strncpy (src : List UInt8) (n : Nat) : List UInt8 :=
  (chars src).take n ++ List.replicate (n - (chars src).length) 0

def wifiMsgConnect (g : Globals) (pcSsid : List UInt8) (u8SsidLen : Nat) (u8SecType : SecType)
    (pvAuthInfo : List UInt8) (u16Ch : UInt16) : Outcome (Globals × Int) :=
  let ssid := memcpy (zeros 65) (pcSsid.take u8SsidLen)
  let send := fun authInfo => networkMsgSend g (.connect ⟨u8SsidLen,u8SecType,u16Ch,ssid,authInfo⟩)
  match u8SecType with
  | .openNet => .ok (send (zeros 65))
  | .wpaPsk => .ok (send (memcpy (zeros 65) (strncpy pvAuthInfo m2mMaxPskLen)))
  -- these two copy through a pointer that is never set
  | .wep | .sec8021x => .error .fault

def networkMsgIpconfig (g : Globals) (config : NetworkIpconfig) : Globals × Int :=
  networkMsgSend g (.ipsettings config)

/-- The bytes of `cmd_buff` from its start: the line buffer, then its length. -/
def Globals.mem (g : Globals) : List UInt8 :=
  g.cmdBuff.toList ++ [(g.cmdLen % 256).toUInt8,(g.cmdLen / 256).toUInt8]

/-- The return value of `cmd_cmp`, for a string at offset `str` of the line buffer. -/
def cmdCmp (mem : List UInt8) (str len : Nat) (cmd : String) : Bool :=
  let l := (ascii cmd).length
  decide (0 < l) && strncmpEq (mem.drop str) (literal cmd) l &&
    (if (ascii cmd).getLast? = some 32 then decide (l < len) else decide (len = l))

theorem cmdCmp_iff {cmd : String} (nonempty : 0 < (ascii cmd).length) (printable : 0 ∉ ascii cmd) (mem : List UInt8)
    (str len : Nat) : cmdCmp mem str len cmd = true ↔ ascii cmd <+: mem.drop str ∧
      if (ascii cmd).getLast? = some 32 then (ascii cmd).length < len else len = (ascii cmd).length := by
  have starts := strncmpEq_append printable (mem.drop str) [0]
  simp only [cmdCmp, nonempty, decide_true, Bool.true_and, Bool.and_eq_true]
  apply and_congr starts
  split <;> exact decide_eq_true_iff

/-- The out-parameter `arg` of `cmd_cmp`, which is set as soon as the command is a prefix. -/
def cmdCmpArg (mem : List UInt8) (str : Nat) (cmd : String) (arg : Nat) : Nat :=
  let l := (ascii cmd).length
  if 0 < l ∧ strncmpEq (mem.drop str) (literal cmd) l then str + l else arg

/-- What a scan of an address finds: the bytes end before it does, no address, or a value and
the bytes after the one that ended it. -/
inductive Scan (α : Type)
  | off
  | invalid
  | value (v : α) (rest : List UInt8)
deriving DecidableEq

/-- The inner loop of `ip_to_int`; `last` is `i == 3`. -/
def ipOctet (last : Bool) : List UInt8 → Int16 → Bool → Scan Int16
  | [], _, _ => .off
  | c :: start, n, l =>
    if 48 ≤ c ∧ c ≤ 57 then ipOctet last start (n * 10 + (c - 48).toUInt16.toInt16) true
    else if (last || c == 46) && l then .value n start
    else .invalid

/-- The outer loop of `ip_to_int`, with `k` octets left. -/
def ipOctets : Nat → UInt32 → List UInt8 → Scan UInt32
  | 0, v, start => .value v start
  | k + 1, v, start =>
    match ipOctet (k == 0) start 0 false with
    | .off => .off
    | .invalid => .invalid
    | .value n rest => if 256 ≤ n then .invalid else ipOctets k (v * 256 + n.toInt32.toUInt32) rest

def swapBytes (v : UInt32) : UInt32 :=
  ((v &&& 0xff) <<< 24) ||| ((v &&& 0xff00) <<< 8) ||| ((v &&& 0xff0000) >>> 8) ||| ((v &&& 0xff000000) >>> 24)

/-- `ip_to_int` with the bytes from `*ip` on; `none` when it reads past the end of `cmd_buff`. -/
def ipToInt (start : List UInt8) : Option (UInt32 × List UInt8) :=
  match ipOctets 4 0 start with
  | .off => none
  | .invalid => some (0,start)
  | .value v rest => some (swapBytes v,rest)

def setDhcpCheck (g : Globals) (wifi eth : String) : Globals :=
  { g with
    dhcpCheckWifi := strcpyLit g.dhcpCheckWifi wifi
    dhcpCheckEth := strcpyLit g.dhcpCheckEth eth
    dhcpCheckChanged := strcpyLit g.dhcpCheckChanged "true" }

def cmdIpconfigDhcp (g : Globals) (iface : Iface) : Globals × Int :=
  let g := match iface with
    | .wlan => setDhcpCheck g "true" "false"
    | .eth => setDhcpCheck g "false" "true"
  networkMsgIpconfig g ⟨true,iface,0,0,0⟩

def cmdIpconfigStatic (g : Globals) (iface : Iface) (start : List UInt8) : Outcome (Globals × Int) :=
  match ipToInt start with
  | none => .error .fault
  | some (ip,start) =>
    let g := { g with ipaddr := ip }
    if ip = 0 then .ok (g,-1) else
    match ipToInt start with
    | none => .error .fault
    | some (gw,start) =>
      let g := { g with gwaddr := gw }
      if gw = 0 then .ok (g,-1) else
      match ipToInt start with
      | none => .error .fault
      | some (mask,_) =>
        let g := { g with netmask := mask }
        if mask = 0 then .ok (g,-1) else
        let g := match iface with
          | .wlan => setDhcpCheck g "false" "true"
          | .eth => setDhcpCheck g "true" "false"
        let g := { g with ipaddressChanged := strcpyLit g.ipaddressChanged "changed" }
        .ok (networkMsgIpconfig g ⟨false,iface,ip,gw,mask⟩)

def cmdIpconfigIface (g : Globals) (iface : Iface) (str len : Nat) : Outcome (Globals × Int) :=
  if cmdCmp g.mem str len "dhcp" then .ok (cmdIpconfigDhcp g iface)
  else cmdIpconfigStatic g iface (g.mem.drop (cmdCmpArg g.mem str "dhcp" str))

def cmdIpconfig (g : Globals) (str len : Nat) : Outcome (Globals × Int) :=
  if cmdCmp g.mem str len "wlan " then cmdIpconfigIface g .wlan (str + 5) (len - 5)
  else if cmdCmp g.mem str len "eth " then cmdIpconfigIface g .eth (str + 4) (len - 4)
  else .ok (g,-1)

def authBuff (w : WifiParam) : SecType → Bytes 128
  | .openNet => zeros 128
  | .wpaPsk => memcpy (zeros 128) (strncpy w.key.toList 65)
  | .wep => memcpy (zeros 128) ([w.keyInd,(strlen w.key.toList).toUInt8] ++ strncpy w.key.toList 65)
  | .sec8021x => memcpy (zeros 128) (strncpy w.key.toList m2m1xUsrNameMax)

def cmdWifiConnect (g : Globals) (str len : Nat) : Outcome Globals :=
  let connect := fun sectype => do
    let g := { g with tryConnect := true }
    let (g,_) ← wifiMsgConnect g g.wifiParam.ssidSaved.toList g.wifiParam.ssidSavedLen .wpaPsk
      (authBuff g.wifiParam sectype).toList m2mWifiChAll
    return g
  if cmdCmp g.mem str len "wpa" then connect .wpaPsk
  else if cmdCmp g.mem str len "wep" then connect .wep
  else if cmdCmp g.mem str len "802_1x" then connect .sec8021x
  else if cmdCmp g.mem str len "open" then connect .openNet
  else if cmdCmp g.mem str len "default" then .ok (networkMsgSend g .connectDefault).1
  else .ok g

/-- `wifi ssid`; `str` is the parameter of `cmd_wifi`, so the reply is printed into the line buffer. -/
def cmdWifiSsid (g : Globals) (str ptr arglen : Nat) : Outcome Globals := do
  if 32 < arglen then return g
  let saved := memcpy g.wifiParam.ssidSaved (slice g.mem ptr arglen ++ [0])
  let copy ← strcpyOr g.ssidSavedCopy saved.toList
  let g := { g with
    wifiParam := { g.wifiParam with ssidSaved := saved, ssidSavedLen := arglen }
    ssidSavedCopy := copy
    ssidChanged := true
    cmdBuff := memcpyAt g.cmdBuff str (literal "success ssid\n") }
  return g.reply .successSsid

def cmdWifiKey (g : Globals) (str ptr arglen : Nat) : Outcome Globals := do
  if 64 < arglen then return g
  let key := memcpy g.wifiParam.key (slice g.mem ptr arglen ++ [0])
  let copy ← strcpyOr g.keyCopy key.toList
  let g := { g with
    wifiParam := { g.wifiParam with key := key }
    keyCopy := copy
    keyChanged := true
    keyflag := true
    cmdBuff := memcpyAt g.cmdBuff str (literal "success key\n") }
  return g.reply .successKey

def cmdWifiKeyind (g : Globals) (ptr arglen : Nat) : Globals :=
  let ind := g.mem.getD ptr 0 - 48
  if arglen = 1 ∧ ind < 4 then { g with wifiParam := { g.wifiParam with keyInd := ind } } else g

def cmdWifiLogin (g : Globals) (ptr arglen : Nat) : Globals :=
  if arglen < m2m1xUsrNameMax then
    { g with
      wifiParam := { g.wifiParam with login := memcpy g.wifiParam.login (slice g.mem ptr arglen) }
      cmdBuff := memcpyAt g.cmdBuff (ptr + arglen) [0] }
  else g

def cmdWifi (g : Globals) (str len : Nat) : Outcome Globals :=
  if cmdCmp g.mem str len "ssid " then cmdWifiSsid g str (str + 5) (len - 5)
  else if cmdCmp g.mem str len "key " then cmdWifiKey g str (str + 4) (len - 4)
  else if cmdCmp g.mem str len "keyind " then .ok (cmdWifiKeyind g (str + 7) (len - 7))
  else if cmdCmp g.mem str len "login " then .ok (cmdWifiLogin g (str + 6) (len - 6))
  else if cmdCmp g.mem str len "connect " then cmdWifiConnect { g with keyconnect := true } (str + 8) (len - 8)
  else if cmdCmp g.mem str len "disconnect" then .ok (networkMsgSend g .disconnect).1
  else if cmdCmp g.mem str len "scan" then .ok (networkMsgSend g .scan).1
  else .ok g

def cmdSensors (g : Globals) (str len : Nat) : Globals :=
  if cmdCmp g.mem str len "cont" then { g with sensorsTimerActive := true }
  else if cmdCmp g.mem str len "stop" then { g with sensorsTimerActive := false }
  else g

inductive Handler
  | wifi
  | sensors
  | config
  | token
  | internet
  | resetPulse
  | link
  | testInternet
  | testEthernet
  | getVersion
  | activateDfutarg
  | restartPulse
  | getMac
  | getWifimac
  | ipconfig
  | none
deriving DecidableEq

/-- The chain of comparisons of `cmd_parse`, most of them with a length of their own. -/
def dispatch (mem : List UInt8) (len : Nat) : Handler :=
  if cmdCmp mem 0 len "wifi " then .wifi
  else if cmdCmp mem 0 len "sensors " then .sensors
  else if cmdCmp mem 0 6 "config" then .config
  else if cmdCmp mem 0 5 "token" then .token
  else if cmdCmp mem 0 8 "internet" then .internet
  else if cmdCmp mem 0 12 "reset_pulse!" then .resetPulse
  else if cmdCmp mem 0 4 "link" then .link
  else if cmdCmp mem 0 13 "test internet" then .testInternet
  else if cmdCmp mem 0 13 "test ethernet" then .testEthernet
  else if cmdCmp mem 0 11 "get version" then .getVersion
  else if cmdCmp mem 0 16 "activate dfutarg" then .activateDfutarg
  else if cmdCmp mem 0 13 "restart pulse" then .restartPulse
  else if cmdCmp mem 0 7 "get mac" then .getMac
  else if cmdCmp mem 0 11 "get wifimac" then .getWifimac
  else if cmdCmp mem 0 len "ipconfig " then .ipconfig
  else .none

def cmdInternet (g : Globals) : Globals :=
  let isInternet := memcpy g.isInternet (slice g.mem 9 240)
  let wifi := strncmpEq isInternet.toList (literal "wifi") 4
  { g with
    isInternetFirst := memcpy g.isInternetFirst (slice g.mem 0 240)
    isInternet := isInternet
    dhcpCheckEth := if wifi then strcpyLit g.dhcpCheckEth "true" else g.dhcpCheckEth
    dhcpCheckWifi := if wifi then g.dhcpCheckWifi else strcpyLit g.dhcpCheckWifi "true"
    dhcpCheckChanged := strcpyLit g.dhcpCheckChanged "true" }

/-- `link`; a length below 5 becomes a huge copy, one above 245 leaves `API_link`. -/
def cmdLink (g : Globals) (len : Nat) : Outcome Globals :=
  if len < 5 ∨ 245 < len then .error .fault
  else .ok { g with
    apiLinkFirst := memcpy g.apiLinkFirst (slice g.mem 0 4)
    apiLink := memcpy g.apiLink (slice g.mem 5 (len - 5)) }

def handle (g : Globals) (len : Nat) : Handler → Outcome Globals
  | .wifi => cmdWifi g 5 (len - 5)
  | .sensors => .ok (cmdSensors (g.reply .circuit1) 8 (len - 8))
  | .config => .ok { g with configString := memcpy g.configString (slice g.mem 0 240) }
  | .token => .ok { g with
      apiTokenFirst := memcpy g.apiTokenFirst (slice g.mem 0 5)
      apiToken := memcpy g.apiToken (slice g.mem 6 240) }
  | .internet => .ok (cmdInternet g)
  | .resetPulse => .ok { g with resetPulse := memcpy g.resetPulse (slice g.mem 0 12) }
  | .link => cmdLink g len
  | .testInternet => .ok { g with testInternet := true }
  | .testEthernet => .ok (if g.timesCount % 2 = 0 then g else g.reply .successEthernet)
  | .getVersion => .ok (g.reply .successVersion)
  | .activateDfutarg => .ok { g with update := strcpyLit g.update "true" }
  | .restartPulse => .error .reset
  | .getMac => .ok (networkMsgSend g .settingsShow).1
  | .getWifimac => .ok (networkMsgSend g .settingsShowWifi).1
  | .ipconfig => do
      let (g,_) ← cmdIpconfig g 9 (len - 9)
      return g
  | .none => .ok g

/-- `cmd_parse` on the line buffer; its return value is never used. -/
def cmdParse (g : Globals) (len : Nat) : Outcome Globals :=
  handle { g with timesCount := g.timesCount + 1 } len (dispatch g.mem len)

def cmdFeed (g : Globals) : List UInt8 → Outcome (Globals × Int)
  | [] => .ok (g,0)
  | b :: buff =>
    if b = 13 ∨ b = 10 then do
      let g ← cmdParse g g.cmdLen
      cmdFeed { g with cmdLen := 0 } buff
    else if g.cmdLen < 256 then
      cmdFeed { g with cmdBuff := memcpyAt g.cmdBuff g.cmdLen [b], cmdLen := g.cmdLen + 1 } buff
    else .ok ({ g with cmdLen := 0 },-1)

end PulseFirmware
