import PulseFirmware.Commands
import PulseFirmware.Storage

/-! The effect of every command handler on the settings: a handler gives a setting the value
its line carries and marks it, or leaves it alone; `ipconfig` lines that are refused and
`internet` lines are the exceptions, for the addresses and the flags. -/
namespace PulseFirmware
open PulseFirmware.CString

structure Quiet (g g' : Globals) : Prop where
  keeps : ∀ x : Setting, x.Keeps g g'
  copies : SameCopies g g'
  bleOut : g'.bleOut = g.bleOut

theorem Quiet.refl (g : Globals) : Quiet g g := ⟨fun _ => ⟨rfl,rfl⟩,⟨rfl,rfl,rfl,rfl⟩,rfl⟩

theorem quiet_send (g : Globals) (msg : NetworkMsg) : Quiet g (networkMsgSend g msg).1 := by
  rcases networkMsgSend_cases g msg with ⟨_,sent⟩ | ⟨_,full⟩
  · rw [sent]
    exact ⟨fun x => by cases x <;> exact ⟨rfl,rfl⟩,⟨rfl,rfl,rfl,rfl⟩,rfl⟩
  · rw [full]
    exact .refl g

theorem cmdWifi_cases {g g' : Globals} {len : Nat} (done : cmdWifi g 5 (len - 5) = .ok g') :
    (cmdCmp g.mem 5 (len - 5) "ssid " = true ∧ len - 10 ≤ 32 ∧
      g' = setSsid g (memcpy g.wifiParam.ssidSaved (slice g.mem 10 (len - 10) ++ [0])) (len - 10)
        (memcpy g.ssidSavedCopy
          (chars (memcpy g.wifiParam.ssidSaved (slice g.mem 10 (len - 10) ++ [0])).toList ++ [0]))) ∨
    (cmdCmp g.mem 5 (len - 5) "ssid " = false ∧ cmdCmp g.mem 5 (len - 5) "key " = true ∧ len - 9 ≤ 64 ∧
      g' = setKey g (memcpy g.wifiParam.key (slice g.mem 9 (len - 9) ++ [0]))
        (memcpy g.keyCopy (chars (memcpy g.wifiParam.key (slice g.mem 9 (len - 9) ++ [0])).toList ++ [0]))) ∨
    (Quiet g g' ∧ Setting.ssid.commanded g len .wifi = false ∧ Setting.key.commanded g len .wifi = false) := by
  have other (free : Quiet g g') (noSsid : cmdCmp g.mem 5 (len - 5) "ssid " = true → 32 < len - 10)
      (noKey : cmdCmp g.mem 5 (len - 5) "ssid " = false → cmdCmp g.mem 5 (len - 5) "key " = true → 64 < len - 9) :
      Quiet g g' ∧ Setting.ssid.commanded g len .wifi = false ∧ Setting.key.commanded g len .wifi = false := by
    refine ⟨free,?_,?_⟩
    · cases ssid : cmdCmp g.mem 5 (len - 5) "ssid "
      · simp [Setting.commanded, ssid]
      · have long := noSsid ssid
        simp [Setting.commanded, ssid]
        omega
    · cases ssid : cmdCmp g.mem 5 (len - 5) "ssid "
      · cases key : cmdCmp g.mem 5 (len - 5) "key "
        · simp [Setting.commanded, ssid, key]
        · have long := noKey ssid key
          simp [Setting.commanded, ssid, key]
          omega
      · simp [Setting.commanded, ssid]
  cases cmdWifi_taken done with
  | ssid ssid fits => exact Or.inl ⟨ssid,fits,rfl⟩
  | key noSsid key fits => exact Or.inr (Or.inl ⟨noSsid,key,fits,rfl⟩)
  | ssidLong ssid long =>
    exact Or.inr (Or.inr (other (.refl g) (fun _ => long) fun not => absurd ssid (by simp [not])))
  | keyLong noSsid _ long =>
    exact Or.inr (Or.inr (other (.refl g) (fun ssid => absurd ssid (by simp [noSsid])) fun _ _ => long))
  | keyind noSsid noKey =>
    refine Or.inr (Or.inr (other ?_ (fun ssid => absurd ssid (by simp [noSsid])) fun _ key => absurd key (by simp [noKey])))
    unfold cmdWifiKeyind
    dsimp only
    split
    next => exact ⟨fun x => by cases x <;> exact ⟨rfl,rfl⟩,⟨rfl,rfl,rfl,rfl⟩,rfl⟩
    next => exact .refl g
  | login noSsid noKey =>
    refine Or.inr (Or.inr (other ?_ (fun ssid => absurd ssid (by simp [noSsid])) fun _ key => absurd key (by simp [noKey])))
    unfold cmdWifiLogin
    split
    next => exact ⟨fun x => by cases x <;> exact ⟨rfl,rfl⟩,⟨rfl,rfl,rfl,rfl⟩,rfl⟩
    next => exact .refl g
  | request keyconnect tryConnect msg noSsid noKey =>
    refine Or.inr (Or.inr (other ?_ (fun ssid => absurd ssid (by simp [noSsid])) fun _ key => absurd key (by simp [noKey])))
    have sent := quiet_send { g with keyconnect := keyconnect, tryConnect := tryConnect } msg
    refine ⟨fun x => ?_,⟨sent.copies.token,sent.copies.link,sent.copies.internet,sent.copies.config⟩,sent.bleOut⟩
    cases x <;> exact ⟨(sent.keeps _).pending,(sent.keeps _).saved⟩
  | idle keyconnect noSsid noKey =>
    refine Or.inr (Or.inr (other ?_ (fun ssid => absurd ssid (by simp [noSsid])) fun _ key => absurd key (by simp [noKey])))
    exact ⟨fun x => by cases x <;> exact ⟨rfl,rfl⟩,⟨rfl,rfl,rfl,rfl⟩,rfl⟩

def Handler.keyword : Handler → Option String
  | .token => some "token"
  | .link => some "link"
  | .internet => some "internet"
  | .config => some "config"
  | _ => .none

def Named (mem : List UInt8) (h : Handler) : Prop := ∀ keyword, h.keyword = some keyword → ascii keyword <+: mem

private theorem named_ite {mem : List UInt8} {selected : Bool} {h rest : Handler} (now : selected = true → Named mem h)
    (later : Named mem rest) : Named mem (if selected = true then h else rest) := by
  split
  next chosen => exact now chosen
  next => exact later

private theorem unnamed {mem : List UInt8} {h : Handler} (none : h.keyword = .none) : Named mem h := by
  intro keyword named
  rw [none] at named
  contradiction

private theorem named_cmp {mem : List UInt8} {len : Nat} {h : Handler} {keyword : String}
    (named : h.keyword = some keyword) (printable : 0 < (ascii keyword).length ∧ 0 ∉ ascii keyword)
    (matched : cmdCmp mem 0 len keyword = true) : Named mem h := by
  intro keyword' named'
  rw [named] at named'
  cases Option.some.inj named'
  exact ((cmdCmp_iff printable.1 printable.2 mem 0 len).mp matched).1

theorem dispatch_named (mem : List UInt8) (len : Nat) : Named mem (dispatch mem len) := by
  unfold dispatch
  refine named_ite (fun _ => unnamed rfl) ?_
  refine named_ite (fun _ => unnamed rfl) ?_
  refine named_ite (named_cmp rfl (by decide)) ?_
  refine named_ite (named_cmp rfl (by decide)) ?_
  refine named_ite (named_cmp rfl (by decide)) ?_
  refine named_ite (fun _ => unnamed rfl) ?_
  refine named_ite (named_cmp rfl (by decide)) ?_
  iterate 8 refine named_ite (fun _ => unnamed rfl) ?_
  exact unnamed rfl

private theorem keyword_marks {n k : Nat} (dst : Bytes n) {mem word : List UInt8} (printable : 0 ∉ word)
    (start : word <+: mem) (long : word.length ≤ k) (fits : k ≤ n) :
    strncmpEq (memcpy dst (slice mem 0 k)).toList (word ++ [0]) word.length = true := by
  rw [strncmpEq_append printable]
  have inside : (slice mem 0 k).length ≤ n := by
    simp only [slice, List.length_take]
    omega
  rw [memcpy_toList dst _ inside]
  have copied : word <+: slice mem 0 k := List.prefix_take_iff.mpr ⟨by simpa using start,long⟩
  exact copied.trans (List.prefix_append _ _)

private theorem mem_length (g : Globals) : g.mem.length = 258 := by
  simp [Globals.mem, g.cmdBuff.toList_length]

private theorem slice_length (g : Globals) (off : Nat) (inside : off ≤ 18) : (slice g.mem off 240).length = 240 := by
  simp only [slice, List.length_take, List.length_drop, mem_length]
  omega

private theorem config_marks (g : Globals) (start : ascii "config" <+: g.mem) :
    strcmpEq (slice g.mem 0 240) (literal "z") = false := by
  obtain ⟨rest,mem⟩ := start
  rw [← mem]
  rfl

private theorem ipconfig_pending (g : Globals) (iface : Iface) (addr gw mask : UInt32) :
    Setting.ip.pending (setStatic g iface addr gw mask) = true := by
  have marked := strcpyLit_starts g.ipaddressChanged "changed" (by decide)
  have printable : 0 ∉ ascii "changed" := by decide
  cases iface <;> exact (strcmpEq_terminated printable _).mpr marked

private theorem setDhcpCheck_pending (g : Globals) (wifi eth : String) :
    Setting.dhcp.pending (setDhcpCheck g wifi eth) = true := by
  have marked := strcpyLit_starts g.dhcpCheckChanged "true" (by decide)
  have printable : 0 ∉ ascii "true" := by decide
  exact (strcmpEq_terminated printable _).mpr marked

/-- The flags after an `ipconfig` line: the Wi-Fi flag is `true` for `wlan dhcp` and for an
`eth` address, the Ethernet flag for `eth dhcp` and for a `wlan` address. -/
def setFlags (g : Globals) (wifi : Prop) [Decidable wifi] : Globals :=
  setDhcpCheck g (if wifi then "true" else "false") (if wifi then "false" else "true")

theorem ipconfig_sent {g g' : Globals} {len : Nat} (accepted : ipconfigAccepted g len = true)
    (done : handle g len .ipconfig = .ok g') :
    ∃ iface off, ipconfigIface g.mem len = some (iface,off) ∧
      ((ipconfigDhcp g.mem len off = true ∧
          g' = (networkMsgIpconfig (setFlags g (iface = .wlan)) ⟨true,iface,0,0,0⟩).1) ∨
        (ipconfigDhcp g.mem len off = false ∧ ∃ addr gw mask,
          ipTriple (ipconfigArgs g.mem off) = some (addr,gw,mask) ∧ addr ≠ 0 ∧ gw ≠ 0 ∧ mask ≠ 0 ∧
          g' = (networkMsgIpconfig (setStatic g iface addr gw mask) ⟨false,iface,addr,gw,mask⟩).1)) ∧
      g.wifiConQ = none := by
  obtain ⟨⟨g'',code⟩,run,rest⟩ := bind_ok done
  cases rest
  have zero : code = 0 := by
    unfold ipconfigAccepted at accepted
    rw [run] at accepted
    simpa using accepted
  subst zero
  have refused : ¬ (0 : Int) = -1 := by decide
  rcases cmdIpconfig_cases run with ⟨_,_,failed⟩ | ⟨iface,off,found,⟨dhcp,sent⟩ | ⟨noDhcp,static⟩⟩
  · exact absurd failed (by decide)
  · refine ⟨iface,off,found,Or.inl ⟨dhcp,?_⟩,?_⟩
    · cases iface <;> exact congrArg Prod.fst sent
    · rcases networkMsgSend_cases (setFlags g (iface = .wlan)) (.ipsettings ⟨true,iface,0,0,0⟩) with
        ⟨empty,_⟩ | ⟨_,full⟩
      · exact empty
      · cases iface <;> exact absurd ((congrArg Prod.snd sent).trans (congrArg Prod.snd full)) refused
  · rcases cmdIpconfigStatic_cases static with ⟨failed,_⟩ | ⟨addr,gw,mask,parsed,addrSet,gwSet,maskSet,sent⟩
    · exact absurd failed (by decide)
    · refine ⟨iface,off,found,Or.inr ⟨noDhcp,addr,gw,mask,parsed,addrSet,gwSet,maskSet,congrArg Prod.fst sent⟩,?_⟩
      rcases networkMsgSend_cases (setStatic g iface addr gw mask) (.ipsettings ⟨false,iface,addr,gw,mask⟩) with
        ⟨empty,_⟩ | ⟨_,full⟩
      · cases iface <;> exact empty
      · exact absurd ((congrArg Prod.snd sent).trans (congrArg Prod.snd full)) refused

private theorem ip_commanded {g g' : Globals} {len : Nat} (done : handle g len .ipconfig = .ok g')
    (commanded : Setting.ip.commanded g len .ipconfig = true) :
    Setting.ip.pending g' = true ∧ Setting.ip.saved g' = Setting.ip.carried g len := by
  simp only [Setting.commanded, decide_true, Bool.true_and, Bool.and_eq_true] at commanded
  obtain ⟨iface,off,found,⟨dhcp,_⟩ | ⟨_,addr,gw,mask,parsed,_,_,_,sent⟩,_⟩ := ipconfig_sent commanded.1 done
  · simp [ipconfigStatic, found, dhcp] at commanded
  · have quiet := quiet_send (setStatic g iface addr gw mask) (.ipsettings ⟨false,iface,addr,gw,mask⟩)
    have carried : Setting.ip.carried g len = [word addr,word gw,word mask] := by
      simp [Setting.carried, found, parsed]
    subst sent
    refine ⟨(quiet.keeps .ip).pending.trans (ipconfig_pending g iface addr gw mask),?_⟩
    rw [carried]
    refine (quiet.keeps .ip).saved.trans ?_
    cases iface <;> rfl

private theorem dhcp_commanded {g g' : Globals} {len : Nat} (done : handle g len .ipconfig = .ok g')
    (commanded : Setting.dhcp.commanded g len .ipconfig = true) :
    Setting.dhcp.pending g' = true ∧ Setting.dhcp.saved g' = Setting.dhcp.carried g len := by
  simp only [Setting.commanded, decide_true, Bool.true_and] at commanded
  obtain ⟨iface,off,found,⟨dhcp,sent⟩ | ⟨noDhcp,addr,gw,mask,_,_,_,_,sent⟩,_⟩ := ipconfig_sent commanded done
  · have quiet := quiet_send (setFlags g (iface = .wlan)) (.ipsettings ⟨true,iface,0,0,0⟩)
    subst sent
    refine ⟨(quiet.keeps .dhcp).pending.trans (setDhcpCheck_pending g _ _),?_⟩
    refine (quiet.keeps .dhcp).saved.trans ?_
    cases iface <;> simp [Setting.carried, found, dhcp, setFlags, setDhcpCheck, Setting.saved, Setting.parts, Part.flag]
  · have quiet := quiet_send (setStatic g iface addr gw mask) (.ipsettings ⟨false,iface,addr,gw,mask⟩)
    subst sent
    constructor
    · refine (quiet.keeps .dhcp).pending.trans ?_
      cases iface
      · exact setDhcpCheck_pending g "true" "false"
      · exact setDhcpCheck_pending g "false" "true"
    · refine (quiet.keeps .dhcp).saved.trans ?_
      cases iface <;>
        simp [Setting.carried, found, noDhcp, setStatic, setDhcpCheck, Setting.saved, Setting.parts, Part.flag]

/-- A command marks its setting and leaves the value it carries in the source variables. -/
theorem handle_commanded {x : Setting} {g g' : Globals} {len : Nat}
    (done : handle g len (dispatch g.mem len) = .ok g')
    (commanded : x.commanded g len (dispatch g.mem len) = true) :
    x.pending g' = true ∧ x.saved g' = x.carried g len := by
  have named := dispatch_named g.mem len
  cases x with
  | token =>
    have selected : dispatch g.mem len = .token := of_decide_eq_true commanded
    rw [selected] at done named
    cases done
    exact ⟨keyword_marks g.apiTokenFirst (by decide) (named "token" rfl) (by decide) (by decide),
      congrArg ([·]) (memcpy_full g.apiToken _ (slice_length g 6 (by decide)))⟩
  | link =>
    have selected : dispatch g.mem len = .link := of_decide_eq_true commanded
    rw [selected] at done named
    simp only [handle, cmdLink] at done
    split at done
    next => contradiction
    next =>
      cases done
      exact ⟨keyword_marks g.apiLinkFirst (by decide) (named "link" rfl) (by decide) (by decide),rfl⟩
  | internet =>
    have selected : dispatch g.mem len = .internet := of_decide_eq_true commanded
    rw [selected] at done named
    cases done
    exact ⟨keyword_marks g.isInternetFirst (by decide) (named "internet" rfl) (by decide) (by decide),
      congrArg ([·]) (memcpy_full g.isInternet _ (slice_length g 9 (by decide)))⟩
  | config =>
    have selected : dispatch g.mem len = .config := of_decide_eq_true commanded
    rw [selected] at done named
    cases done
    have whole := memcpy_full g.configString _ (slice_length g 0 (by decide))
    refine ⟨?_,congrArg ([·]) whole⟩
    change (!strcmpEq (memcpy g.configString (slice g.mem 0 240)).toList (literal "z")) = true
    rw [whole, config_marks g (named "config" rfl)]
    rfl
  | ssid =>
    have selected : dispatch g.mem len = .wifi := by
      simp only [Setting.commanded, Bool.and_eq_true, decide_eq_true_eq] at commanded
      exact commanded.1.1
    rw [selected] at done commanded
    rcases cmdWifi_cases done with ⟨_,_,rfl⟩ | ⟨other,_⟩ | ⟨_,not,_⟩
    · exact ⟨rfl,rfl⟩
    · simp [Setting.commanded, other] at commanded
    · rw [not] at commanded; contradiction
  | key =>
    have selected : dispatch g.mem len = .wifi := by
      simp only [Setting.commanded, Bool.and_eq_true, decide_eq_true_eq] at commanded
      exact commanded.1.1.1
    rw [selected] at done commanded
    rcases cmdWifi_cases done with ⟨other,_⟩ | ⟨_,_,_,rfl⟩ | ⟨_,_,not⟩
    · simp [Setting.commanded, other] at commanded
    · exact ⟨rfl,rfl⟩
    · rw [not] at commanded; contradiction
  | ip =>
    have selected : dispatch g.mem len = .ipconfig := by
      simp only [Setting.commanded, Bool.and_eq_true, decide_eq_true_eq] at commanded
      exact commanded.1.1
    rw [selected] at done commanded
    exact ip_commanded done commanded
  | dhcp =>
    have selected : dispatch g.mem len = .ipconfig := by
      simp only [Setting.commanded, Bool.and_eq_true, decide_eq_true_eq] at commanded
      exact commanded.1
    rw [selected] at done commanded
    exact dhcp_commanded done commanded

/-- What every `ipconfig` line, taken or refused, leaves alone. -/
structure IpconfigFrame (g g' : Globals) : Prop where
  keeps : ∀ x : Setting, x ≠ .ip → x ≠ .dhcp → x.Keeps g g'
  copies : SameCopies g g'
  bleOut : g'.bleOut = g.bleOut

private theorem ipconfig_send_frame {g h : Globals} (frame : IpconfigFrame g h) (config : NetworkIpconfig) :
    IpconfigFrame g (networkMsgIpconfig h config).1 := by
  have quiet := quiet_send h (.ipsettings config)
  refine ⟨fun x notIp notDhcp => (frame.keeps x notIp notDhcp).trans (quiet.keeps x),?_,
    quiet.bleOut.trans frame.bleOut⟩
  exact ⟨quiet.copies.token.trans frame.copies.token,quiet.copies.link.trans frame.copies.link,
    quiet.copies.internet.trans frame.copies.internet,quiet.copies.config.trans frame.copies.config⟩

def FlagsSet (g : Globals) : Prop := flagSet g.dhcpCheckWifi = true ∧ flagSet g.dhcpCheckEth = true

private theorem flagSet_lit (flag : Bytes 50) (text : String) (word : text = "true" ∨ text = "false") :
    flagSet (strcpyLit flag text) = true := by
  unfold flagSet
  rcases word with rfl | rfl
  · have marked := strcpyLit_starts flag "true" (by decide)
    have start : ascii "true" <+: (strcpyLit flag "true").toList := (List.prefix_append _ _).trans marked
    exact Bool.or_eq_true_iff.mpr (Or.inl ((strncmpEq_append (by decide) _ [0]).mpr start))
  · have marked := strcpyLit_starts flag "false" (by decide)
    have start : ascii "fals" <+: (strcpyLit flag "false").toList :=
      ((by decide : ascii "fals" <+: literal "false")).trans marked
    exact Bool.or_eq_true_iff.mpr (Or.inr ((strncmpEq_append (by decide) _ [101,0]).mpr start))

private theorem setStatic_frame (g : Globals) (iface : Iface) (addr gw mask : UInt32) :
    IpconfigFrame g (setStatic g iface addr gw mask) := by
  cases iface <;> refine ⟨fun x notIp notDhcp => ?_,⟨rfl,rfl,rfl,rfl⟩,rfl⟩ <;> cases x <;>
    first | exact ⟨rfl,rfl⟩ | exact absurd rfl notIp | exact absurd rfl notDhcp

private theorem setFlags_frame (g : Globals) (wifi : Prop) [Decidable wifi] : IpconfigFrame g (setFlags g wifi) := by
  refine ⟨fun x notIp notDhcp => ?_,⟨rfl,rfl,rfl,rfl⟩,rfl⟩
  cases x <;> first | exact ⟨rfl,rfl⟩ | exact absurd rfl notIp | exact absurd rfl notDhcp

private theorem cmdIpconfigDhcp_eq (g : Globals) (iface : Iface) :
    cmdIpconfigDhcp g iface = networkMsgIpconfig (setFlags g (iface = .wlan)) ⟨true,iface,0,0,0⟩ := by
  cases iface <;> rfl

theorem ipconfig_frame {g g' : Globals} {len : Nat} (done : handle g len .ipconfig = .ok g') : IpconfigFrame g g' := by
  obtain ⟨⟨g'',code⟩,run,rest⟩ := bind_ok done
  cases rest
  rcases cmdIpconfig_cases run with ⟨_,rfl,_⟩ | ⟨iface,off,_,⟨_,sent⟩ | ⟨_,static⟩⟩
  · exact ⟨fun x _ _ => ⟨rfl,rfl⟩,⟨rfl,rfl,rfl,rfl⟩,rfl⟩
  · rw [cmdIpconfigDhcp_eq] at sent
    obtain rfl := congrArg Prod.fst sent
    exact ipconfig_send_frame (setFlags_frame g _) _
  · rcases cmdIpconfigStatic_cases static with ⟨_,addr,gw,mask,rfl⟩ | ⟨addr,gw,mask,_,_,_,_,sent⟩
    · refine ⟨fun x notIp notDhcp => ?_,⟨rfl,rfl,rfl,rfl⟩,rfl⟩
      cases x <;> first | exact ⟨rfl,rfl⟩ | exact absurd rfl notIp
    · obtain rfl := congrArg Prod.fst sent
      exact ipconfig_send_frame (setStatic_frame g iface addr gw mask) _

/-- A line that is no command for a setting leaves it alone, but for the addresses and the flags. -/
theorem handle_keeps {x : Setting} {g g' : Globals} {len : Nat} {h : Handler}
    (notIpconfig : h = .ipconfig → x ≠ .ip ∧ x ≠ .dhcp) (notInternet : h = .internet → x ≠ .dhcp)
    (done : handle g len h = .ok g') (uncommanded : x.commanded g len h = false) : x.Keeps g g' := by
  cases h with
  | wifi =>
    rcases cmdWifi_cases done with ⟨ssid,fits,rfl⟩ | ⟨noSsid,key,fits,rfl⟩ | ⟨quiet,_⟩
    · cases x with
      | ssid => simp [Setting.commanded, ssid] at uncommanded; omega
      | _ => exact ⟨rfl,rfl⟩
    · cases x with
      | key => simp [Setting.commanded, noSsid, key] at uncommanded; omega
      | _ => exact ⟨rfl,rfl⟩
    · exact quiet.keeps x
  | sensors =>
    cases done
    unfold cmdSensors
    split
    next => cases x <;> exact ⟨rfl,rfl⟩
    next => split <;> cases x <;> exact ⟨rfl,rfl⟩
  | config =>
    cases done
    cases x with
    | config => contradiction
    | _ => exact ⟨rfl,rfl⟩
  | token =>
    cases done
    cases x with
    | token => contradiction
    | _ => exact ⟨rfl,rfl⟩
  | internet =>
    cases done
    cases x with
    | internet => contradiction
    | dhcp => exact absurd rfl (notInternet rfl)
    | _ => exact ⟨rfl,rfl⟩
  | link =>
    simp only [handle, cmdLink] at done
    split at done
    next => contradiction
    next =>
      cases done
      cases x with
      | link => contradiction
      | _ => exact ⟨rfl,rfl⟩
  | testEthernet =>
    cases done
    split <;> cases x <;> exact ⟨rfl,rfl⟩
  | restartPulse => contradiction
  | getMac => cases done; exact (quiet_send g _).keeps x
  | getWifimac => cases done; exact (quiet_send g _).keeps x
  | ipconfig => exact (ipconfig_frame done).keeps x (notIpconfig rfl).1 (notIpconfig rfl).2
  | resetPulse | testInternet | getVersion | activateDfutarg | none =>
    cases done
    cases x <;> exact ⟨rfl,rfl⟩

theorem handle_copies {g g' : Globals} {len : Nat} {h : Handler} (done : handle g len h = .ok g') : SameCopies g g' := by
  cases h with
  | wifi =>
    rcases cmdWifi_cases done with ⟨_,_,rfl⟩ | ⟨_,_,_,rfl⟩ | ⟨quiet,_⟩
    · exact ⟨rfl,rfl,rfl,rfl⟩
    · exact ⟨rfl,rfl,rfl,rfl⟩
    · exact quiet.copies
  | sensors =>
    cases done
    unfold cmdSensors
    split
    next => exact ⟨rfl,rfl,rfl,rfl⟩
    next => split <;> exact ⟨rfl,rfl,rfl,rfl⟩
  | link =>
    simp only [handle, cmdLink] at done
    split at done
    next => contradiction
    next => cases done; exact ⟨rfl,rfl,rfl,rfl⟩
  | testEthernet =>
    cases done
    split <;> exact ⟨rfl,rfl,rfl,rfl⟩
  | restartPulse => contradiction
  | getMac => cases done; exact (quiet_send g _).copies
  | getWifimac => cases done; exact (quiet_send g _).copies
  | ipconfig => exact (ipconfig_frame done).copies
  | config | token | internet | resetPulse | testInternet | getVersion | activateDfutarg | none =>
    cases done
    exact ⟨rfl,rfl,rfl,rfl⟩

theorem handle_ip_refused {g g' : Globals} {len : Nat} {h : Handler} (done : handle g len h = .ok g')
    (uncommanded : Setting.ip.commanded g len h = false) :
    Setting.ip.pending g' = Setting.ip.pending g ∨
      (Setting.ip.pending g' = true ∧ g'.ipaddr ≠ 0 ∧ g'.gwaddr ≠ 0 ∧ g'.netmask ≠ 0) := by
  by_cases own : h = .ipconfig
  · subst own
    obtain ⟨⟨g'',code⟩,run,rest⟩ := bind_ok done
    cases rest
    rcases cmdIpconfig_cases run with ⟨_,rfl,_⟩ | ⟨iface,off,_,⟨_,sent⟩ | ⟨_,static⟩⟩
    · exact Or.inl rfl
    · rw [cmdIpconfigDhcp_eq] at sent
      obtain rfl := congrArg Prod.fst sent
      exact Or.inl ((quiet_send (setFlags g (iface = .wlan)) _).keeps .ip).pending
    · rcases cmdIpconfigStatic_cases static with ⟨_,addr,gw,mask,rfl⟩ | ⟨addr,gw,mask,_,addrSet,gwSet,maskSet,sent⟩
      · exact Or.inl rfl
      · obtain rfl := congrArg Prod.fst sent
        have quiet := quiet_send (setStatic g iface addr gw mask) (.ipsettings ⟨false,iface,addr,gw,mask⟩)
        refine Or.inr ⟨(quiet.keeps .ip).pending.trans (ipconfig_pending g iface addr gw mask),?_⟩
        rcases networkMsgSend_cases (setStatic g iface addr gw mask) (.ipsettings ⟨false,iface,addr,gw,mask⟩) with
          ⟨_,sent⟩ | ⟨_,sent⟩ <;> rw [networkMsgIpconfig, sent] <;> cases iface <;> exact ⟨addrSet,gwSet,maskSet⟩
  · exact Or.inl (handle_keeps (fun own' => absurd own' own) (fun _ => by decide) done uncommanded).pending

private theorem setFlags_set (g : Globals) (wifi : Prop) [Decidable wifi] : FlagsSet (setFlags g wifi) := by
  unfold setFlags
  split
  next => exact ⟨flagSet_lit _ _ (Or.inl rfl),flagSet_lit _ _ (Or.inr rfl)⟩
  next => exact ⟨flagSet_lit _ _ (Or.inr rfl),flagSet_lit _ _ (Or.inl rfl)⟩

private theorem setStatic_set (g : Globals) (iface : Iface) (addr gw mask : UInt32) :
    FlagsSet (setStatic g iface addr gw mask) := by
  cases iface
  · exact ⟨flagSet_lit _ _ (Or.inl rfl),flagSet_lit _ _ (Or.inr rfl)⟩
  · exact ⟨flagSet_lit _ _ (Or.inr rfl),flagSet_lit _ _ (Or.inl rfl)⟩

private theorem flags_send {h : Globals} (set : FlagsSet h) (msg : NetworkMsg) : FlagsSet (networkMsgSend h msg).1 := by
  rcases networkMsgSend_cases h msg with ⟨_,sent⟩ | ⟨_,sent⟩ <;> rw [sent] <;> exact set

theorem flagSet_congr {flag flag' : Bytes 50} (same : flag'.toList.take 8 = flag.toList.take 8) :
    flagSet flag' = flagSet flag := by
  unfold flagSet
  rw [← strncmpEq_take flag'.toList (literal "true") (by decide : 4 ≤ 8), same,
    ← strncmpEq_take flag'.toList (literal "false") (by decide : 4 ≤ 8), same,
    strncmpEq_take _ _ (by decide), strncmpEq_take _ _ (by decide)]

theorem flags_keep {g g' : Globals} (set : FlagsSet g) (keeps : Setting.dhcp.saved g' = Setting.dhcp.saved g) :
    FlagsSet g' := by
  obtain ⟨wifi,rest⟩ := List.cons.inj keeps
  obtain ⟨eth,_⟩ := List.cons.inj rest
  exact ⟨(flagSet_congr wifi).trans set.1,(flagSet_congr eth).trans set.2⟩

theorem handle_dhcp_flags {g g' : Globals} {len : Nat} {h : Handler} (done : handle g len h = .ok g')
    (commanded : Setting.dhcp.commanded g len h = true) : FlagsSet g' := by
  simp only [Setting.commanded, Bool.and_eq_true, decide_eq_true_eq] at commanded
  obtain ⟨rfl,accepted⟩ := commanded
  obtain ⟨iface,off,_,⟨_,rfl⟩ | ⟨_,addr,gw,mask,_,_,_,_,rfl⟩,_⟩ := ipconfig_sent accepted done
  · exact flags_send (setFlags_set g _) _
  · exact flags_send (setStatic_set g iface addr gw mask) _

def Reply.acks : Reply → List Setting
  | .successToken => [.token]
  | .successLink => [.link]
  | .successSsid => [.ssid]
  | .successKey => [.key]
  | .successWifiEth => [.internet]
  | .successEquipment => [.config]
  | .successIpconfigSaved => [.ip,.dhcp]
  | .successIpconfigDhcpSaved => [.dhcp]
  | _ => []

/-- A line reports success only for a setting it gives a value. -/
theorem handle_replies {g g' : Globals} {len : Nat} {h : Handler} (done : handle g len h = .ok g') :
    ∃ replies, g'.bleOut = g.bleOut ++ replies ∧
      ∀ reply ∈ replies, ∀ x ∈ reply.acks, x.commanded g len h = true := by
  have silent (same : g'.bleOut = g.bleOut) : ∃ replies, g'.bleOut = g.bleOut ++ replies ∧
      ∀ reply ∈ replies, ∀ x ∈ reply.acks, x.commanded g len h = true :=
    ⟨[],by simpa using same,by simp⟩
  have report (reply : Reply) (same : g'.bleOut = g.bleOut ++ [reply]) (none : reply.acks = []) :
      ∃ replies, g'.bleOut = g.bleOut ++ replies ∧
        ∀ reply ∈ replies, ∀ x ∈ reply.acks, x.commanded g len h = true :=
    ⟨[reply],same,by simp [none]⟩
  cases h with
  | wifi =>
    rcases cmdWifi_cases done with ⟨ssid,fits,rfl⟩ | ⟨noSsid,key,fits,rfl⟩ | ⟨quiet,_⟩
    · refine ⟨[.successSsid],rfl,?_⟩
      simp [Reply.acks, Setting.commanded, ssid]
      omega
    · refine ⟨[.successKey],rfl,?_⟩
      simp [Reply.acks, Setting.commanded, noSsid, key]
      omega
    · exact silent quiet.bleOut
  | sensors =>
    cases done
    refine report .circuit1 ?_ rfl
    unfold cmdSensors
    split
    next => rfl
    next => split <;> rfl
  | link =>
    simp only [handle, cmdLink] at done
    split at done
    next => contradiction
    next => cases done; exact silent rfl
  | testEthernet =>
    cases done
    split
    next => exact ⟨[],by simp,by simp⟩
    next => exact ⟨[.successEthernet],rfl,by simp [Reply.acks]⟩
  | getVersion => cases done; exact report .successVersion rfl rfl
  | restartPulse => contradiction
  | getMac => cases done; exact silent (quiet_send g _).bleOut
  | getWifimac => cases done; exact silent (quiet_send g _).bleOut
  | ipconfig => exact silent (ipconfig_frame done).bleOut
  | config | token | internet | resetPulse | testInternet | activateDfutarg | none =>
    cases done
    exact silent rfl

def Setting.hears (x : Setting) (g : Globals) (line : Line) : Bool :=
  x.commanded (g.typed line) line.bytes.length (g.handler line)

/-- The value the line carries for the setting. -/
def Setting.carries (x : Setting) (g : Globals) (line : Line) : List (List UInt8) :=
  x.carried (g.typed line) line.bytes.length

private theorem runLine_ok {g g' : Globals} {line : Line} (done : g.runLine line = .ok g') :
    ∃ h, handle (g.typed line) line.bytes.length (g.handler line) = .ok h ∧ g' = { h with cmdLen := 0 } := by
  obtain ⟨h,handled,rest⟩ := bind_ok done
  cases rest
  exact ⟨h,handled,rfl⟩

private theorem keeps_line {x : Setting} {g h : Globals} {line : Line} (keeps : x.Keeps (g.typed line) h) :
    x.Keeps g { h with cmdLen := 0 } := by
  cases x <;> exact ⟨keeps.pending,keeps.saved⟩

theorem runLine_hears {x : Setting} {g g' : Globals} {line : Line} (done : g.runLine line = .ok g')
    (hears : x.hears g line = true) : x.pending g' = true ∧ x.saved g' = x.carries g line := by
  obtain ⟨h,handled,rfl⟩ := runLine_ok done
  obtain ⟨pending,saved⟩ := handle_commanded handled hears
  cases x <;> exact ⟨pending,saved⟩

theorem runLine_keeps {x : Setting} {g g' : Globals} {line : Line} (notIp : x ≠ .ip) (notDhcp : x ≠ .dhcp)
    (done : g.runLine line = .ok g') (deaf : x.hears g line = false) : x.Keeps g g' := by
  obtain ⟨h,handled,rfl⟩ := runLine_ok done
  exact keeps_line (handle_keeps (fun _ => ⟨notIp,notDhcp⟩) (fun _ => notDhcp) handled deaf)

theorem runLine_copies {g g' : Globals} {line : Line} (done : g.runLine line = .ok g') : SameCopies g g' := by
  obtain ⟨h,handled,rfl⟩ := runLine_ok done
  have same := handle_copies handled
  exact ⟨same.token,same.link,same.internet,same.config⟩

theorem runLine_ip_refused {g g' : Globals} {line : Line} (done : g.runLine line = .ok g')
    (deaf : Setting.ip.hears g line = false) :
    Setting.ip.pending g' = Setting.ip.pending g ∨
      (Setting.ip.pending g' = true ∧ g'.ipaddr ≠ 0 ∧ g'.gwaddr ≠ 0 ∧ g'.netmask ≠ 0) := by
  obtain ⟨h,handled,rfl⟩ := runLine_ok done
  have refused := handle_ip_refused handled deaf
  exact refused

theorem runLine_dhcp_flags {g g' : Globals} {line : Line} (done : g.runLine line = .ok g')
    (hears : Setting.dhcp.hears g line = true) : FlagsSet g' := by
  obtain ⟨h,handled,rfl⟩ := runLine_ok done
  have set : FlagsSet h := handle_dhcp_flags handled hears
  exact set

theorem runLine_replies {g g' : Globals} {line : Line} (done : g.runLine line = .ok g') :
    ∃ replies, g'.bleOut = g.bleOut ++ replies ∧ ∀ reply ∈ replies, ∀ x ∈ reply.acks, x.hears g line = true := by
  obtain ⟨h,handled,rfl⟩ := runLine_ok done
  have replied := handle_replies handled
  exact replied

end PulseFirmware
