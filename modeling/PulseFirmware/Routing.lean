import PulseFirmware.Network
import PulseFirmware.Lib.Run

/-! Which interface carries the traffic. The run records the last PHY status read and the
last connection event, and the default interface after a selection pass is compared with them. -/
namespace PulseFirmware.Routing
open PulseFirmware.Run

/-- The place of the network task in its loop. -/
inductive Place
  | poll
  | queue
  | select
deriving DecidableEq

structure Router where
  g : Globals
  net : Net
  place : Place
  /-- the last link bit `mchdrv_poll` read -/
  lastPhy : Option Bool
  /-- the state in the last `M2M_WIFI_RESP_CON_STATE_CHANGED` -/
  lastConn : Option ConnState
  /-- the last step was a selection pass -/
  passed : Bool

/-- Steps of the network task, of the TCP/IP thread and of everything else, which may change
any variable, the stored mode and the request queue among them. -/
inductive Event
  | poll (input : PollInput)
  | queue (started : Bool)
  | select
  | tcpip (iface : Iface) (bound : Bool) (ipAddr netmask gw : UInt32)
  | others (g : Globals)

def Router.start (g : Globals) (boot : NetBoot) : Router :=
  ⟨g,ethernetInitInsideThread g boot,.poll,none,none,false⟩

def lastState (last : Option ConnState) : WifiEvent → Option ConnState
  | .conStateChanged state => some state
  | .other => last

def Router.wifiMode (s : Router) : Bool :=
  CString.strncmpEq s.g.isInternet1.toList (CString.literal "wifi") 4

def Router.ethernetMode (s : Router) : Bool :=
  !s.wifiMode && CString.strncmpEq s.g.isInternet1.toList (CString.literal "ethernet") 8

def Router.step (s : Router) : Event → Option Router
  | .poll input =>
    if s.place = .poll then
      some { s with
        g := (pollMode s.g s.net input).1
        net := (pollMode s.g s.net input).2
        place := .queue
        lastPhy := if s.ethernetMode && s.net.encState then some input.linkstate else s.lastPhy
        lastConn := if s.wifiMode then input.events.foldl lastState s.lastConn else s.lastConn
        passed := false }
    else none
  | .queue started =>
    if s.place = .queue then
      some { s with
        g := (wifiCheckConnectQueue s.g s.net started).1
        net := (wifiCheckConnectQueue s.g s.net started).2
        place := .select
        passed := false }
    else none
  | .select =>
    if s.place = .select then
      some { s with
        g := (selectTimeout s.g s.net).1
        net := (selectTimeout s.g s.net).2
        place := .poll
        passed := s.net.dhcpTimeout = 0 }
    else none
  | .tcpip iface bound ipAddr netmask gw =>
    some { s with
      net := s.net.update iface fun netif => { netifSetAddr netif ipAddr netmask gw with dhcpBound := bound }
      passed := false }
  | .others g => some { s with g, passed := false }

/-- After a selection pass the default interface is one whose last report was good. -/
def Live (s : Router) : Prop :=
  s.passed = true →
    (s.net.netifDefault = some .eth → s.lastPhy = some true) ∧
    (s.net.netifDefault = some .wlan → s.lastConn = some .connected)

/-- A selection pass finds a PHY status read before, or an Ethernet interface that failed to
initialise or still waits for its DHCP lease. -/
def Polled (s : Router) : Event → Prop
  | .select => s.net.dhcpTimeout = 0 →
      s.lastPhy ≠ none ∨ s.net.encState = false ∨ s.net.enc.configured = false
  | _ => True

/-- What the link flags say about the reports: that of the Ethernet interface starts out
set, that of the Wi-Fi interface does not. -/
structure Tracks (s : Router) : Prop where
  enc : s.net.enc.flags.linkUp = s.lastPhy.getD s.net.encState
  winc : s.net.winc.flags.linkUp = true → s.lastConn = some .connected

private theorem wifiCb_tracks (p : Globals × Net) (last : Option ConnState) (event : WifiEvent)
    (up : p.2.winc.flags.linkUp = true → last = some .connected) :
    (wifiCb p event).2.enc = p.2.enc ∧ (wifiCb p event).2.encState = p.2.encState ∧
      ((wifiCb p event).2.winc.flags.linkUp = true → lastState last event = some .connected) := by
  cases event with
  | conStateChanged state => cases state <;> simp [wifiCb, Net.setWincLink, lastState]
  | other => exact ⟨rfl,rfl,up⟩

private theorem netWincPoll_tracks (g : Globals) (net : Net) (events : List WifiEvent) (last : Option ConnState)
    (up : net.winc.flags.linkUp = true → last = some .connected) :
    (netWincPoll g net events).2.enc = net.enc ∧ (netWincPoll g net events).2.encState = net.encState ∧
      ((netWincPoll g net events).2.winc.flags.linkUp = true →
        events.foldl lastState last = some .connected) := by
  unfold netWincPoll
  induction events generalizing g net last with
  | nil => exact ⟨rfl,rfl,up⟩
  | cons event events ih =>
    obtain ⟨enc,state,after⟩ := wifiCb_tracks (g,net) last event up
    obtain ⟨enc',state',after'⟩ := ih (wifiCb (g,net) event).1 (wifiCb (g,net) event).2 _ after
    exact ⟨enc'.trans enc,state'.trans state,after'⟩

private theorem poll_tracks (s next : Router) (input : PollInput) (tracks : Tracks s)
    (stepped : s.step (.poll input) = some next) : Tracks next := by
  simp only [Router.step] at stepped
  split at stepped
  next =>
    cases Option.some.inj stepped
    by_cases wifi : s.wifiMode = true
    · obtain ⟨enc,state,up⟩ := netWincPoll_tracks s.g s.net input.events s.lastConn tracks.winc
      have polled : pollMode s.g s.net input = netWincPoll s.g s.net input.events := if_pos wifi
      constructor
      · simpa [polled, enc, state, Router.ethernetMode, wifi] using tracks.enc
      · simpa [polled, wifi] using up
    · have slow : s.wifiMode = false := by simpa using wifi
      by_cases ethernet : s.ethernetMode = true
      · have mode := ethernet
        simp only [Router.ethernetMode, slow, Bool.not_false, Bool.true_and] at mode
        have polled : pollMode s.g s.net input = (s.g,mchdrvPoll s.net input.linkstate) :=
          (if_neg wifi).trans (if_pos mode)
        constructor
        · cases state : s.net.encState <;> simp [polled, mchdrvPoll, state, ethernet]
          simpa [state] using tracks.enc
        · cases state : s.net.encState <;> simpa [polled, mchdrvPoll, state, slow] using tracks.winc
      · have mode := ethernet
        simp only [Router.ethernetMode, slow, Bool.not_false, Bool.true_and] at mode
        have polled : pollMode s.g s.net input = (s.g,s.net) := (if_neg wifi).trans (if_neg mode)
        constructor
        · simpa [polled, ethernet] using tracks.enc
        · simpa [polled, slow] using tracks.winc
  next => contradiction

structure SameLinks (net net' : Net) : Prop where
  enc : net'.enc.flags.linkUp = net.enc.flags.linkUp
  winc : net'.winc.flags.linkUp = net.winc.flags.linkUp
  encState : net'.encState = net.encState

private theorem update_links (net : Net) (iface : Iface) (f : Netif → Netif)
    (keeps : ∀ netif, (f netif).flags.linkUp = netif.flags.linkUp) : SameLinks net (net.update iface f) := by
  cases iface
  · exact ⟨keeps _,rfl,rfl⟩
  · exact ⟨rfl,keeps _,rfl⟩

private theorem dhcpStart_linkUp (netif : Netif) (started : Bool) :
    (dhcpStart netif started).flags.linkUp = netif.flags.linkUp := by
  unfold dhcpStart
  split <;> rfl

private theorem queue_links (g : Globals) (net : Net) (started : Bool) :
    SameLinks net (wifiCheckConnectQueue g net started).2 := by
  unfold wifiCheckConnectQueue
  split
  next => exact ⟨rfl,rfl,rfl⟩
  next msg _ =>
    cases msg with
    | ipsettings config =>
      simp only [dispatchRequest]
      split
      next => exact update_links net _ _ fun netif => dhcpStart_linkUp netif started
      next =>
        exact update_links net config.iface
          (fun netif => netifSetAddr (dhcpStop netif) config.ipaddr config.netmask config.gwaddr) fun _ => rfl
    | _ => exact ⟨rfl,rfl,rfl⟩

private theorem setDefault_spec (g : Globals) (net : Net) (iface : Iface) :
    SameLinks net (setDefault g net iface).2 ∧ (setDefault g net iface).2.netifDefault = some iface := by
  unfold setDefault
  split
  next already => exact ⟨⟨rfl,rfl,rfl⟩,already⟩
  next => exact ⟨⟨rfl,rfl,rfl⟩,rfl⟩

private theorem reportConnected_spec (g : Globals) (net : Net) :
    SameLinks net (reportConnected g net).2 ∧ (reportConnected g net).2.netifDefault = net.netifDefault := by
  unfold reportConnected
  split
  next => split <;> exact ⟨⟨rfl,rfl,rfl⟩,rfl⟩
  next => exact ⟨⟨rfl,rfl,rfl⟩,rfl⟩

def choice (net : Net) : Option Iface :=
  if net.enc.usable then some .eth else if net.winc.usable then some .wlan else none

theorem selectInterface_spec (g : Globals) (net : Net) :
    SameLinks net (selectInterface g net).2 ∧ (selectInterface g net).2.netifDefault = choice net := by
  unfold selectInterface choice
  split
  next => exact setDefault_spec g net .eth
  next =>
    split
    next =>
      obtain ⟨links,default⟩ := setDefault_spec g net .wlan
      obtain ⟨links',default'⟩ := reportConnected_spec (setDefault g net .wlan).1 (setDefault g net .wlan).2
      exact ⟨⟨links'.enc.trans links.enc,links'.winc.trans links.winc,links'.encState.trans links.encState⟩,
        default'.trans default⟩
    next => exact ⟨⟨rfl,rfl,rfl⟩,rfl⟩

private theorem selectTimeout_links (g : Globals) (net : Net) : SameLinks net (selectTimeout g net).2 := by
  unfold selectTimeout
  split
  next =>
    have links := (selectInterface_spec g { net with dhcpTimeout := 1 }).1
    exact ⟨links.enc,links.winc,links.encState⟩
  next => exact ⟨rfl,rfl,rfl⟩

private theorem Tracks.of_links {s next : Router} (tracks : Tracks s) (links : SameLinks s.net next.net)
    (phy : next.lastPhy = s.lastPhy) (conn : next.lastConn = s.lastConn) : Tracks next := by
  constructor
  · rw [links.enc, phy, links.encState]
    exact tracks.enc
  · rw [links.winc, conn]
    exact tracks.winc

theorem start_tracks (g : Globals) (boot : NetBoot) : Tracks (.start g boot) := by
  constructor
  · cases init : boot.encInit
    · simp [Router.start, ethernetInitInsideThread, netAddEncNetif, init]
    · simp only [Router.start, ethernetInitInsideThread, netAddEncNetif, init, netifConfigure, if_true]
      split
      next => exact dhcpStart_linkUp _ _
      next => rfl
  · intro up
    cases init : boot.wifiInit
    · simp [Router.start, ethernetInitInsideThread, netAddWincNetif, init, Netif.unused] at up
    · simp only [Router.start, ethernetInitInsideThread, netAddWincNetif, init, netifConfigure, if_true] at up
      split at up
      next => rw [dhcpStart_linkUp] at up; contradiction
      next => contradiction

theorem step_tracks (s : Router) (event : Event) (next : Router) (tracks : Tracks s)
    (stepped : s.step event = some next) : Tracks next := by
  cases event with
  | poll input => exact poll_tracks s next input tracks stepped
  | queue started =>
    simp only [Router.step] at stepped
    split at stepped
    next => cases Option.some.inj stepped; exact tracks.of_links (queue_links _ _ _) rfl rfl
    next => contradiction
  | select =>
    simp only [Router.step] at stepped
    split at stepped
    next => cases Option.some.inj stepped; exact tracks.of_links (selectTimeout_links _ _) rfl rfl
    next => contradiction
  | tcpip iface bound ipAddr netmask gw =>
    cases Option.some.inj stepped
    exact tracks.of_links (update_links s.net iface
      (fun netif => { netifSetAddr netif ipAddr netmask gw with dhcpBound := bound }) fun _ => rfl) rfl rfl
  | others g => cases Option.some.inj stepped; exact tracks.of_links ⟨rfl,rfl,rfl⟩ rfl rfl

private theorem choice_live (s : Router) (tracks : Tracks s) :
    ((choice s.net = some .eth → s.lastPhy = some true) ∧
      (choice s.net = some .wlan → s.lastConn = some .connected)) ↔
    (s.lastPhy ≠ none ∨ s.net.encState = false ∨ s.net.enc.configured = false) := by
  have link := tracks.enc
  constructor
  · rintro ⟨eth,_⟩
    by_contra unread
    obtain ⟨phy,up,ready⟩ : s.lastPhy = none ∧ s.net.encState = true ∧ s.net.enc.configured = true := by
      simpa [not_or] using unread
    have usable : s.net.enc.usable = true := by simp [Netif.usable, ready, link, phy, up]
    have read := eth (by simp [choice, usable])
    rw [phy] at read
    contradiction
  · intro polled
    constructor
    · intro chosen
      have usable : s.net.enc.usable = true := by
        unfold choice at chosen
        split at chosen
        next usable => exact usable
        next => split at chosen <;> contradiction
      obtain ⟨ready,up⟩ : s.net.enc.configured = true ∧ s.net.enc.flags.linkUp = true := by
        simpa [Netif.usable] using usable
      rw [up] at link
      cases phy : s.lastPhy with
      | none =>
        rcases polled with read | failed | waiting
        · exact absurd phy read
        · rw [phy, failed] at link; contradiction
        · rw [ready] at waiting; contradiction
      | some status => rw [phy] at link; exact congrArg some link.symm
    · intro chosen
      have usable : s.net.winc.usable = true := by
        unfold choice at chosen
        split at chosen
        next => contradiction
        next =>
          split at chosen
          next usable => exact usable
          next => contradiction
      exact tracks.winc (by simpa [Netif.usable] using (Bool.and_eq_true _ _ ▸ usable).2)

private theorem step_live (s : Router) (event : Event) (next : Router) (tracks : Tracks s)
    (stepped : s.step event = some next) : Live next ↔ Polled s event := by
  cases event with
  | select =>
    simp only [Router.step] at stepped
    split at stepped
    next =>
      cases Option.some.inj stepped
      by_cases due : s.net.dhcpTimeout = 0
      · have pass : selectTimeout s.g s.net = selectInterface s.g { s.net with dhcpTimeout := 1 } := if_pos due
        have default := (selectInterface_spec s.g { s.net with dhcpTimeout := 1 }).2
        have same : choice { s.net with dhcpTimeout := 1 } = choice s.net := rfl
        simp only [Live, Polled, due, pass, default, same, decide_true, true_implies]
        exact choice_live s tracks
      · simp [Live, Polled, due]
    next => contradiction
  | poll input =>
    simp only [Router.step] at stepped
    split at stepped
    next => cases Option.some.inj stepped; simp [Live, Polled]
    next => contradiction
  | queue started =>
    simp only [Router.step] at stepped
    split at stepped
    next => cases Option.some.inj stepped; simp [Live, Polled]
    next => contradiction
  | tcpip iface bound ipAddr netmask gw => cases Option.some.inj stepped; simp [Live, Polled]
  | others g => cases Option.some.inj stepped; simp [Live, Polled]

/-- From any boot, traffic goes to a live interface after every selection pass exactly when
no pass finds the Ethernet interface configured and its PHY not yet read. -/
theorem routed_live (g : Globals) (boot : NetBoot) (events : List Event) :
    Always Router.step Live (.start g boot) events ↔ Meets Router.step Polled (.start g boot) events :=
  always_iff_meets step_tracks (fun s event next tracks _ stepped => step_live s event next tracks stepped)
    (start_tracks g boot) (by simp [Live, Router.start])

/-- With a static address and Wi-Fi selected the first pass takes the Ethernet interface, whose
PHY no poll has read. -/
theorem routed_unread : ¬ ∀ g boot events, Always Router.step Live (.start g boot) events := by
  intro live
  let g := { Globals.initial (CString.zeros 235) with
    dhcpCheckEth := CString.strcpyLit (CString.zeros 50) "false"
    isInternet1 := CString.strcpyLit (CString.zeros 240) "wifi" }
  have mode : CString.strncmpEq g.isInternet1.toList (CString.literal "wifi") 4 = true := by decide
  have fixed : CString.strncmpEq g.dhcpCheckEth.toList (CString.literal "false") 4 = true := by decide
  have last := live g ⟨true,true,true,true⟩
    [.poll ⟨false,[]⟩,.queue true,.select,.poll ⟨false,[]⟩,.queue true,.select]
  have empty : g.wifiConQ = none := rfl
  simp [Always, Router.step, Router.start, ethernetInitInsideThread, pollMode, mode, netWincPoll,
    Router.wifiMode, Router.ethernetMode, wifiCheckConnectQueue, empty, selectTimeout, selectInterface, netAddEncNetif, netifConfigure,
    fixed, netifSetAddr, Netif.usable, Netif.configured, setDefault, Live] at last

end PulseFirmware.Routing
