import PulseFirmware.Globals

/-! The network task of network.c: bringing up the two interfaces, the polls of the PHY and
of the Wi-Fi chip, the request queue and the choice of the default interface. What the chips
and the TCP/IP stack answer is an input. -/
namespace PulseFirmware
open PulseFirmware.CString

structure NetifFlags where
  up : Bool
  broadcast : Bool
  dhcp : Bool
  linkUp : Bool
  etharp : Bool
deriving DecidableEq

/-- `struct netif`; `dhcpBound` is `dhcp->state == DHCP_BOUND`. -/
structure Netif where
  flags : NetifFlags
  ipAddr : UInt32
  gw : UInt32
  netmask : UInt32
  dhcpBound : Bool
deriving DecidableEq

def Netif.unused : Netif := ⟨⟨false,false,false,false,false⟩,0,0,0,false⟩

/-- `dhcp_start`; `started` tells whether memory, a port and the first packet could be had. -/
def dhcpStart (netif : Netif) (started : Bool) : Netif :=
  if netif.flags.etharp then
    { netif with flags := { netif.flags with dhcp := started }, dhcpBound := false }
  else { netif with flags := { netif.flags with dhcp := false } }

def dhcpStop (netif : Netif) : Netif :=
  { netif with flags := { netif.flags with dhcp := false }, dhcpBound := false }

def netifSetAddr (netif : Netif) (ipaddr netmask gw : UInt32) : Netif :=
  { netif with ipAddr := ipaddr, netmask := netmask, gw := gw }

def netifConfigure (g : Globals) (netif : Netif) (dhcp started : Bool) : Netif :=
  if dhcp then dhcpStart netif started
  else netifSetAddr netif g.ipaddrValue g.maskValue g.gwValue

/-- `net_add_winc_netif`; `wifiInit` is the success of `m2m_wifi_init`. -/
def netAddWincNetif (g : Globals) (wifiInit started : Bool) : Netif :=
  if wifiInit then
    let netif : Netif := ⟨⟨true,true,false,false,true⟩,0,0,0xffffffff,false⟩
    netifConfigure g netif (strncmpEq g.dhcpCheckWifi.toList (literal "true") 4) started
  else .unused

/-- `net_add_enc_netif`; `encInit` is the success of `mchdrv_init`. -/
def netAddEncNetif (g : Globals) (encInit started : Bool) : Netif :=
  if encInit then
    let netif : Netif := ⟨⟨true,true,false,true,true⟩,0,0,0xffffffff,false⟩
    netifConfigure g netif (!strncmpEq g.dhcpCheckEth.toList (literal "false") 4) started
  else ⟨⟨false,true,false,false,true⟩,0,0,0xffffffff,false⟩

structure Net where
  enc : Netif
  winc : Netif
  /-- `netif_default` -/
  netifDefault : Option Iface
  /-- `encdevice->state` -/
  encState : Bool
  wifiAutoconnect : Bool
  wifiDisconnected : Bool
  tryingToConnect : Bool
  countLedOn : UInt8
  dhcpTimeout : UInt16

/-- How the chips answer while the interfaces are brought up. -/
structure NetBoot where
  wifiInit : Bool
  encInit : Bool
  wifiStarted : Bool
  encStarted : Bool

def ethernetInitInsideThread (g : Globals) (boot : NetBoot) : Net where
  enc := netAddEncNetif g boot.encInit boot.encStarted
  winc := netAddWincNetif g boot.wifiInit boot.wifiStarted
  netifDefault := none
  encState := boot.encInit
  wifiAutoconnect := boot.wifiInit
  wifiDisconnected := false
  tryingToConnect := false
  countLedOn := 0
  dhcpTimeout := 1

inductive ConnState
  | disconnected
  | connected
  | undef
deriving DecidableEq

/-- `M2M_WIFI_RESP_CON_STATE_CHANGED`; the other events only print scan reports. -/
inductive WifiEvent
  | conStateChanged (state : ConnState)
  | other
deriving DecidableEq

def Net.setWincLink (net : Net) (linkUp : Bool) : Net :=
  { net with winc := { net.winc with flags := { net.winc.flags with linkUp := linkUp } } }

def wifiCb (s : Globals × Net) : WifiEvent → Globals × Net
  | .conStateChanged .connected =>
    (s.1,{ s.2.setWincLink true with tryingToConnect := true, wifiDisconnected := false, wifiAutoconnect := true })
  | .conStateChanged .disconnected | .conStateChanged .undef =>
    let net := { s.2 with wifiDisconnected := s.1.tryConnect || s.2.wifiDisconnected }
    ({ s.1 with tryConnect := false }.reply .disconnectedFromAp,net.setWincLink false)
  | .other => s

def netWincPoll (g : Globals) (net : Net) (events : List WifiEvent) : Globals × Net :=
  events.foldl wifiCb (g,net)

/-- `mchdrv_poll`; `linkstate` is the link bit of the PHY status. -/
def mchdrvPoll (net : Net) (linkstate : Bool) : Net :=
  if net.encState then
    { net with enc := { net.enc with flags := { net.enc.flags with linkUp := linkstate } } }
  else net

structure PollInput where
  linkstate : Bool
  events : List WifiEvent

def pollMode (g : Globals) (net : Net) (input : PollInput) : Globals × Net :=
  if strncmpEq g.isInternet1.toList (literal "wifi") 4 then netWincPoll g net input.events
  else if strncmpEq g.isInternet1.toList (literal "ethernet") 8 then (g,mchdrvPoll net input.linkstate)
  else (g,net)

def networkShowSettings (g : Globals) (net : Net) : Globals :=
  g.reply (.mac ⟨net.enc.ipAddr,net.enc.netmask,net.enc.gw,strncmpEq g.dhcpCheckEth.toList (literal "true") 4⟩)

def networkShowSettingsWifi (g : Globals) (net : Net) : Globals :=
  g.reply (.wifimac ⟨net.winc.ipAddr,net.winc.netmask,net.winc.gw,strncmpEq g.dhcpCheckWifi.toList (literal "true") 4⟩)

def Net.update (net : Net) (iface : Iface) (f : Netif → Netif) : Net :=
  match iface with
  | .eth => { net with enc := f net.enc }
  | .wlan => { net with winc := f net.winc }

/-- The branches of `wifi_check_connect_queue`; the first two hand their request to the Wi-Fi driver. -/
def dispatchRequest (g : Globals) (net : Net) (started : Bool) : NetworkMsg → Globals × Net
  | .connect _ | .scan => (g,net)
  | .disconnect => (g,{ net with wifiAutoconnect := false })
  | .connectDefault => (g,{ net with wifiAutoconnect := true })
  | .settingsShow => (networkShowSettings g net,net)
  | .settingsShowWifi => (networkShowSettingsWifi g net,net)
  | .ipsettings config =>
    if config.dhcp then
      (g.reply .successIpconfigDhcpSaved,net.update config.iface (dhcpStart · started))
    else
      (g.reply .successIpconfigSaved,net.update config.iface fun netif =>
        netifSetAddr (dhcpStop netif) config.ipaddr config.netmask config.gwaddr)

def wifiCheckConnectQueue (g : Globals) (net : Net) (started : Bool) : Globals × Net :=
  match g.wifiConQ with
  | none => (g,net)
  | some msg => dispatchRequest { g with wifiConQ := none } net started msg

def Netif.configured (netif : Netif) : Bool := !netif.flags.dhcp || netif.dhcpBound

def Netif.usable (netif : Netif) : Bool := netif.configured && netif.flags.linkUp

/-- `netifapi_netif_set_default` where it is not the default already, and the LED with it. -/
def setDefault (g : Globals) (net : Net) (iface : Iface) : Globals × Net :=
  if net.netifDefault = some iface then (g,net)
  else ({ g with ledOn := true },{ net with netifDefault := some iface })

def reportConnected (g : Globals) (net : Net) : Globals × Net :=
  if g.keyflag && g.keyconnect && g.ledOn then
    if 10 < net.countLedOn + 1 then
      ({ g with keyflag := false, keyconnect := false }.reply .successConnected,
        { net with countLedOn := 0, tryingToConnect := false })
    else (g,{ net with countLedOn := net.countLedOn + 1 })
  else (g,net)

def selectInterface (g : Globals) (net : Net) : Globals × Net :=
  if net.enc.usable then setDefault g net .eth
  else if net.winc.usable then
    let (g,net) := setDefault g net .wlan
    reportConnected g net
  else ({ g with ledOn := false },{ net with netifDefault := none })

/-- The end of an iteration, with a selection pass every second time. -/
def selectTimeout (g : Globals) (net : Net) : Globals × Net :=
  if net.dhcpTimeout = 0 then selectInterface g { net with dhcpTimeout := 1 }
  else (g,{ net with dhcpTimeout := net.dhcpTimeout - 1 })

def networkIteration (g : Globals) (net : Net) (input : PollInput) (started : Bool) : Globals × Net :=
  let (g,net) := pollMode g net input
  let (g,net) := wifiCheckConnectQueue g net started
  selectTimeout g net

end PulseFirmware
