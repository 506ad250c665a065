import PulseFirmware.Commands

/-! `cmd_ipconfig` when it returns an error. The addresses are assigned one by one as they are
read, the flags before the request is sent, and no error takes anything back. -/
namespace PulseFirmware
open PulseFirmware.CString

structure IpconfigVars where
  ipaddr : UInt32
  gwaddr : UInt32
  netmask : UInt32
  dhcpCheckWifi : Bytes 50
  dhcpCheckEth : Bytes 50
  dhcpCheckChanged : Bytes 50
  ipaddressChanged : Bytes 50
deriving DecidableEq

def Globals.ipconfigVars (g : Globals) : IpconfigVars :=
  ⟨g.ipaddr,g.gwaddr,g.netmask,g.dhcpCheckWifi,g.dhcpCheckEth,g.dhcpCheckChanged,g.ipaddressChanged⟩

def addressesRead : Nat → List UInt8 → Option (List UInt32)
  | 0, _ => some []
  | n + 1, start =>
    match ipToInt start with
    | none => none
    | some (v,rest) => if v = 0 then some [0] else (addressesRead n rest).map (v :: ·)

def Globals.FlagsAlready (g : Globals) (wifi eth : String) : Prop :=
  strcpyLit g.dhcpCheckWifi wifi = g.dhcpCheckWifi ∧ strcpyLit g.dhcpCheckEth eth = g.dhcpCheckEth ∧
    strcpyLit g.dhcpCheckChanged "true" = g.dhcpCheckChanged

def dhcpHarmless (g : Globals) : Iface → Prop
  | .wlan => g.wifiConQ = none ∨ g.FlagsAlready "true" "false"
  | .eth => g.wifiConQ = none ∨ g.FlagsAlready "false" "true"

def Globals.StaticAlready (g : Globals) : Iface → Prop
  | .wlan => g.FlagsAlready "false" "true" ∧ strcpyLit g.ipaddressChanged "changed" = g.ipaddressChanged
  | .eth => g.FlagsAlready "true" "false" ∧ strcpyLit g.ipaddressChanged "changed" = g.ipaddressChanged

/-- Three valid addresses meet an empty queue, or what is read, a zero for an invalid address
included, is what the variables hold. -/
def staticHarmless (g : Globals) (iface : Iface) (start : List UInt8) : Prop :=
  ∀ addrs, addressesRead 3 start = some addrs →
    (0 ∉ addrs ∧ g.wifiConQ = none) ∨
      (addrs <+: [g.ipaddr,g.gwaddr,g.netmask] ∧ (0 ∉ addrs → g.StaticAlready iface))

def ifaceHarmless (g : Globals) (iface : Iface) (str len : Nat) : Prop :=
  if cmdCmp g.mem str len "dhcp" then dhcpHarmless g iface
  else staticHarmless g iface (g.mem.drop (cmdCmpArg g.mem str "dhcp" str))

def ipconfigHarmless (g : Globals) (str len : Nat) : Prop :=
  if cmdCmp g.mem str len "wlan " then ifaceHarmless g .wlan (str + 5) (len - 5)
  else if cmdCmp g.mem str len "eth " then ifaceHarmless g .eth (str + 4) (len - 4)
  else True

def ErrorKeeps (g : Globals) (outcome : Outcome (Globals × Int)) : Prop :=
  ∀ g' code, outcome = .ok (g',code) → code ≠ 0 → g'.ipconfigVars = g.ipconfigVars

private theorem errorKeeps_ok (g g' : Globals) : ErrorKeeps g (.ok (g',-1)) ↔ g'.ipconfigVars = g.ipconfigVars := by
  constructor
  · exact fun keeps => keeps g' (-1) rfl (by decide)
  · intro same g'' code done failed
    cases done
    exact same

private theorem errorKeeps_send (g g' : Globals) (queue : g'.wifiConQ = g.wifiConQ) (msg : NetworkIpconfig) :
    ErrorKeeps g (.ok (networkMsgIpconfig g' msg)) ↔ g.wifiConQ = none ∨ g'.ipconfigVars = g.ipconfigVars := by
  rw [networkMsgIpconfig, ← queue]
  rcases networkMsgSend_cases g' (.ipsettings msg) with ⟨empty,sent⟩ | ⟨full,sent⟩
  · rw [sent]
    refine iff_of_true ?_ (.inl empty)
    intro g'' code done failed
    cases done
    exact absurd rfl failed
  · rw [sent, errorKeeps_ok]
    exact ⟨.inr,fun or => or.resolve_left full⟩

private theorem errorKeeps_fault (g : Globals) (stop : Stop) : ErrorKeeps g (.error stop) :=
  fun _ _ done => nomatch done

private theorem dhcp_iff (g : Globals) (iface : Iface) :
    ErrorKeeps g (.ok (cmdIpconfigDhcp g iface)) ↔ dhcpHarmless g iface := by
  cases iface with
  | wlan =>
    refine (errorKeeps_send g (setDhcpCheck g "true" "false") rfl _).trans ?_
    simp [dhcpHarmless,Globals.FlagsAlready,Globals.ipconfigVars,setDhcpCheck]
  | eth =>
    refine (errorKeeps_send g (setDhcpCheck g "false" "true") rfl _).trans ?_
    simp [dhcpHarmless,Globals.FlagsAlready,Globals.ipconfigVars,setDhcpCheck]

private theorem static_kept (g : Globals) (iface : Iface) (ip gw mask : UInt32) :
    (setStatic g iface ip gw mask).ipconfigVars = g.ipconfigVars ↔
      [ip,gw,mask] <+: [g.ipaddr,g.gwaddr,g.netmask] ∧ g.StaticAlready iface := by
  cases iface
  all_goals
    simp [setStatic,setDhcpCheck,Globals.ipconfigVars,Globals.StaticAlready,Globals.FlagsAlready,and_assoc]

private theorem staticHarmless_read {start : List UInt8} {addrs : List UInt32} (read : addressesRead 3 start = some addrs)
    (g : Globals) (iface : Iface) :
    staticHarmless g iface start ↔ (0 ∉ addrs ∧ g.wifiConQ = none) ∨
      (addrs <+: [g.ipaddr,g.gwaddr,g.netmask] ∧ (0 ∉ addrs → g.StaticAlready iface)) := by
  constructor
  · exact fun harmless => harmless addrs read
  · intro harmless other again
    cases (read.symm.trans again)
    exact harmless

private theorem staticHarmless_off {start : List UInt8} (off : addressesRead 3 start = none) (g : Globals) (iface : Iface) :
    staticHarmless g iface start :=
  fun _ read => nomatch off.symm.trans read

private theorem static_invalid {start : List UInt8} {addrs : List UInt32} (read : addressesRead 3 start = some addrs)
    (invalid : 0 ∈ addrs) (g g' : Globals) (iface : Iface)
    (assigned : g'.ipconfigVars = g.ipconfigVars ↔ addrs <+: [g.ipaddr,g.gwaddr,g.netmask]) :
    ErrorKeeps g (.ok (g',-1)) ↔ staticHarmless g iface start := by
  rw [errorKeeps_ok, staticHarmless_read read, assigned]
  constructor
  · exact fun same => .inr ⟨same,fun valid => absurd invalid valid⟩
  · exact fun or => (or.resolve_left fun valid => valid.1 invalid).1

private theorem static_valid {start : List UInt8} {ip gw mask : UInt32} (read : addressesRead 3 start = some [ip,gw,mask])
    (valid : 0 ∉ [ip,gw,mask]) (g : Globals) (iface : Iface) (msg : NetworkIpconfig) :
    ErrorKeeps g (.ok (networkMsgIpconfig (setStatic g iface ip gw mask) msg)) ↔ staticHarmless g iface start := by
  have queue : (setStatic g iface ip gw mask).wifiConQ = g.wifiConQ := by cases iface <;> rfl
  rw [errorKeeps_send g _ queue, static_kept, staticHarmless_read read]
  simp only [valid, not_false_eq_true, true_and, forall_const]

private theorem static_iff (g : Globals) (iface : Iface) (start : List UInt8) :
    ErrorKeeps g (cmdIpconfigStatic g iface start) ↔ staticHarmless g iface start := by
  rw [cmdIpconfigStatic]
  cases first : ipToInt start with
  | none => exact iff_of_true (errorKeeps_fault g .fault) (staticHarmless_off (by simp [addressesRead,first]) g iface)
  | some result =>
    obtain ⟨ip,rest⟩ := result
    dsimp only
    split
    next zero =>
      have read : addressesRead 3 start = some [0] := by simp [addressesRead,first,zero]
      exact static_invalid read (by simp) g _ iface (by simp [Globals.ipconfigVars,zero])
    next ipValid =>
      cases second : ipToInt rest with
      | none =>
        exact iff_of_true (errorKeeps_fault g .fault)
          (staticHarmless_off (by simp [addressesRead,first,ipValid,second]) g iface)
      | some result =>
        obtain ⟨gw,rest'⟩ := result
        dsimp only
        split
        next zero =>
          have read : addressesRead 3 start = some [ip,0] := by simp [addressesRead,first,ipValid,second,zero]
          exact static_invalid read (by simp) g _ iface (by simp [Globals.ipconfigVars,zero])
        next gwValid =>
          cases third : ipToInt rest' with
          | none =>
            exact iff_of_true (errorKeeps_fault g .fault)
              (staticHarmless_off (by simp [addressesRead,first,ipValid,second,gwValid,third]) g iface)
          | some result =>
            obtain ⟨mask,rest''⟩ := result
            dsimp only
            split
            next zero =>
              have read : addressesRead 3 start = some [ip,gw,0] := by
                simp [addressesRead,first,ipValid,second,gwValid,third,zero]
              exact static_invalid read (by simp) g _ iface (by simp [Globals.ipconfigVars,zero])
            next maskValid =>
              have read : addressesRead 3 start = some [ip,gw,mask] := by
                simp [addressesRead,first,ipValid,second,gwValid,third,maskValid]
              have valid : 0 ∉ [ip,gw,mask] := by
                simp [Ne.symm ipValid,Ne.symm gwValid,Ne.symm maskValid]
              exact static_valid read valid g iface _

private theorem iface_iff (g : Globals) (iface : Iface) (str len : Nat) :
    ErrorKeeps g (cmdIpconfigIface g iface str len) ↔ ifaceHarmless g iface str len := by
  rw [cmdIpconfigIface, ifaceHarmless]
  split
  next => exact dhcp_iff g iface
  next => exact static_iff g iface _

/-- An error of `cmd_ipconfig` leaves its variables alone exactly when the line names no interface,
or finds the queue empty and its addresses valid, or assigns what is there already. -/
theorem ipconfig_refused (g : Globals) (str len : Nat) :
    (∀ g' code, cmdIpconfig g str len = .ok (g',code) → code ≠ 0 → g'.ipconfigVars = g.ipconfigVars) ↔
      ipconfigHarmless g str len := by
  change ErrorKeeps g _ ↔ _
  rw [cmdIpconfig, ipconfigHarmless]
  split
  next => exact iface_iff g .wlan _ _
  next =>
    split
    next => exact iface_iff g .eth _ _
    next => exact iff_of_true ((errorKeeps_ok g g).mpr rfl) trivial

/-- The first address of a line stays although the second is invalid. -/
theorem half_assigned : ¬ ∀ (g : Globals) (str len : Nat) (g' : Globals) (code : Int),
    cmdIpconfig g str len = .ok (g',code) → code ≠ 0 → g'.ipconfigVars = g.ipconfigVars := by
  intro all
  have kept := all { Globals.initial (zeros 235) with cmdBuff := memcpy (zeros 256) (ascii "ipconfig eth 10.0.0.9 x"), cmdLen := 23 } 9 14
  have answered : (cmdIpconfig { Globals.initial (zeros 235) with
      cmdBuff := memcpy (zeros 256) (ascii "ipconfig eth 10.0.0.9 x"), cmdLen := 23 } 9 14).toOption.map
        (fun r => (r.1.ipaddr,r.2)) = some (0x0900000a,-1) := by decide +kernel
  obtain ⟨⟨g',code⟩,done,result⟩ := Option.map_eq_some_iff.mp answered
  obtain ⟨addr,failed⟩ := Prod.mk.inj result
  dsimp only at addr failed
  have same := congrArg IpconfigVars.ipaddr (kept g' code (toOption_ok done) (by rw [failed]; decide))
  have changed : g'.ipaddr = 0 := same
  rw [addr] at changed
  exact absurd changed (by decide)

end PulseFirmware
