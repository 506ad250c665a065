import PulseFirmware.Commands
import PulseFirmware.Recognition

/-! The copies the command handlers make, with the arrays as cmd.c and main_app.c declare them.
`behind` is the memory after `cmd_buff`, which `ip_to_int` may read. -/
namespace PulseFirmware
open PulseFirmware.CString

inductive Target
  | configString
  | apiToken
  | apiTokenFirst
  | isInternet
  | isInternetFirst
  | apiLink
  | apiLinkFirst
  | resetPulse
  | update
  | dhcpCheckWifi
  | dhcpCheckEth
  | dhcpCheckChanged
  | ipaddressChanged
  | ssidSaved
  | ssidSavedCopy
  | key
  | keyCopy
  | login
  | line
deriving DecidableEq

/-- The declared size. cmd.h declares the flags before cmd.c starts them with a shorter string;
`update` is as long as the string it starts with. -/
def Target.declared : Target → Nat
  | .configString | .apiToken | .apiTokenFirst | .isInternet | .isInternetFirst | .apiLink | .apiLinkFirst => 240
  | .resetPulse => 30
  | .update => (literal "false").length
  | .dhcpCheckWifi | .dhcpCheckEth | .dhcpCheckChanged | .ipaddressChanged => 50
  | .ssidSaved => 33
  | .key => 65
  | .ssidSavedCopy | .keyCopy => 80
  | .login => m2m1xUsrNameMax
  | .line => 256

inductive Source
  | line (off : Nat)
  | string (bytes : List UInt8)

structure Copy where
  target : Target
  off : Nat
  source : Source
  count : Int

def Source.Covers (count : Int) : Source → Prop
  | .line off => off + count ≤ 256
  | .string bytes => 0 ∈ bytes ∧ count ≤ strlen bytes + 1

instance (count : Int) : DecidablePred (Source.Covers count)
  | .line off => inferInstanceAs (Decidable (off + count ≤ 256))
  | .string bytes => inferInstanceAs (Decidable (0 ∈ bytes ∧ count ≤ strlen bytes + 1))

def Copy.InBounds (c : Copy) : Prop :=
  0 ≤ c.count ∧ c.off + c.count ≤ c.target.declared ∧ c.source.Covers c.count

instance : DecidablePred Copy.InBounds := fun _ => inferInstanceAs (Decidable (_ ∧ _ ∧ _))

def memcpyLine (target : Target) (off : Nat) (count : Int) : Copy := ⟨target,0,.line off,count⟩

def strcpyFrom (target : Target) (bytes : List UInt8) : Copy := ⟨target,0,.string bytes,strlen bytes + 1⟩

def terminate (target : Target) (off : Nat) : Copy := ⟨target,off,.string [0],1⟩

def flagCopies : Iface → Bool → List Copy
  | .wlan, true => [strcpyFrom .dhcpCheckWifi (literal "true"),strcpyFrom .dhcpCheckEth (literal "false"),
      strcpyFrom .dhcpCheckChanged (literal "true")]
  | .eth, true => [strcpyFrom .dhcpCheckEth (literal "true"),strcpyFrom .dhcpCheckWifi (literal "false"),
      strcpyFrom .dhcpCheckChanged (literal "true")]
  | .wlan, false => [strcpyFrom .dhcpCheckWifi (literal "false"),strcpyFrom .dhcpCheckEth (literal "true"),
      strcpyFrom .dhcpCheckChanged (literal "true"),strcpyFrom .ipaddressChanged (literal "changed")]
  | .eth, false => [strcpyFrom .dhcpCheckEth (literal "false"),strcpyFrom .dhcpCheckWifi (literal "true"),
      strcpyFrom .dhcpCheckChanged (literal "true"),strcpyFrom .ipaddressChanged (literal "changed")]

def ipconfigTaken (mem : List UInt8) (len : Nat) : Option (Iface × Bool) :=
  match ipconfigIface mem len with
  | none => none
  | some (iface,off) =>
    if ipconfigDhcp mem len off then some (iface,true) else
    match ipTriple (ipconfigArgs mem off) with
    | none => none
    | some (ip,gw,mask) => if ip ≠ 0 ∧ gw ≠ 0 ∧ mask ≠ 0 then some (iface,false) else none

def ipconfigCopies (mem : List UInt8) (len : Nat) : List Copy :=
  match ipconfigTaken mem len with
  | none => []
  | some (iface,dhcp) => flagCopies iface dhcp

def wifiCopies (w : WifiParam) (mem : List UInt8) (len : Nat) : List Copy :=
  if cmdCmp mem 5 (len - 5) "ssid " then
    if 32 < len - 10 then [] else
      [memcpyLine .ssidSaved 10 ↑(len - 10),terminate .ssidSaved (len - 10),
        strcpyFrom .ssidSavedCopy (memcpy w.ssidSaved (slice mem 10 (len - 10) ++ [0])).toList]
  else if cmdCmp mem 5 (len - 5) "key " then
    if 64 < len - 9 then [] else
      [memcpyLine .key 9 ↑(len - 9),terminate .key (len - 9),
        strcpyFrom .keyCopy (memcpy w.key (slice mem 9 (len - 9) ++ [0])).toList]
  else if cmdCmp mem 5 (len - 5) "keyind " then []
  else if cmdCmp mem 5 (len - 5) "login " then
    if len - 11 < m2m1xUsrNameMax then [memcpyLine .login 11 ↑(len - 11),terminate .line (11 + (len - 11))] else []
  else []

def copies (w : WifiParam) (mem : List UInt8) (len : Nat) : Handler → List Copy
  | .wifi => wifiCopies w mem len
  | .config => [memcpyLine .configString 0 240]
  | .token => [memcpyLine .apiTokenFirst 0 5,memcpyLine .apiToken 6 240]
  | .internet => [memcpyLine .isInternetFirst 0 240,memcpyLine .isInternet 9 240,
      strcpyFrom (if strncmpEq (slice mem 9 240) (literal "wifi") 4 then .dhcpCheckEth else .dhcpCheckWifi)
        (literal "true"),
      strcpyFrom .dhcpCheckChanged (literal "true")]
  | .resetPulse => [memcpyLine .resetPulse 0 12]
  | .link => [memcpyLine .apiLinkFirst 0 4,memcpyLine .apiLink 5 (len - 5)]
  | .activateDfutarg => [strcpyFrom .update (literal "true")]
  | .ipconfig => ipconfigCopies mem len
  | .sensors | .testInternet | .testEthernet | .getVersion | .restartPulse | .getMac | .getWifimac | .none => []

def Target.content (g : Globals) : Target → List UInt8
  | .configString => g.configString.toList
  | .apiToken => g.apiToken.toList
  | .apiTokenFirst => g.apiTokenFirst.toList
  | .isInternet => g.isInternet.toList
  | .isInternetFirst => g.isInternetFirst.toList
  | .apiLink => g.apiLink.toList
  | .apiLinkFirst => g.apiLinkFirst.toList
  | .resetPulse => g.resetPulse.toList
  | .update => g.update.toList
  | .dhcpCheckWifi => g.dhcpCheckWifi.toList
  | .dhcpCheckEth => g.dhcpCheckEth.toList
  | .dhcpCheckChanged => g.dhcpCheckChanged.toList
  | .ipaddressChanged => g.ipaddressChanged.toList
  | .ssidSaved => g.wifiParam.ssidSaved.toList
  | .ssidSavedCopy => g.ssidSavedCopy.toList
  | .key => g.wifiParam.key.toList
  | .keyCopy => g.keyCopy.toList
  | .login => g.wifiParam.login.toList
  | .line => g.cmdBuff.toList

def Copy.bytes (mem : List UInt8) (c : Copy) : List UInt8 :=
  match c.source with
  | .line off => slice mem off c.count.toNat
  | .string bytes => bytes.take c.count.toNat

def Copy.perform (mem : List UInt8) (contents : Target → List UInt8) (c : Copy) (t : Target) : List UInt8 :=
  if t = c.target then
    (contents t).take c.off ++ c.bytes mem ++ (contents t).drop (c.off + (c.bytes mem).length)
  else contents t

private theorem memcpy_performed {n : Nat} (dst : Bytes n) (src : List UInt8) (fits : src.length ≤ n) :
    (memcpy dst src).toList = dst.toList.take 0 ++ src ++ dst.toList.drop (0 + src.length) := by
  rw [memcpy_toList dst src fits, Nat.zero_add]
  rfl

private theorem slice_length_le (mem : List UInt8) (off count : Nat) : (slice mem off count).length ≤ count := by
  rw [slice, List.length_take]
  exact Nat.min_le_left _ _

def Performs (g g' : Globals) (made : List Copy) : Prop :=
  ∀ t ≠ Target.line, t.content g' = made.foldl (Copy.perform g.mem) (fun t => t.content g) t

private theorem performs_send (g : Globals) (msg : NetworkMsg) (t : Target) :
    t.content (networkMsgSend g msg).1 = t.content g := by
  rcases networkMsgSend_cases g msg with ⟨-,sent⟩ | ⟨-,full⟩
  · rw [sent]
    cases t <;> rfl
  · rw [full]

private theorem performs_dhcp (g : Globals) (iface : Iface) : Performs g (cmdIpconfigDhcp g iface).1 (flagCopies iface true) := by
  intro t other
  cases iface <;> unfold cmdIpconfigDhcp networkMsgIpconfig <;> rw [performs_send] <;> cases t <;>
    first | rfl | exact absurd rfl other | exact memcpy_performed _ _ (by decide)

private theorem performs_static (g : Globals) (iface : Iface) (addr gw mask : UInt32) :
    Performs g (setStatic g iface addr gw mask) (flagCopies iface false) := by
  intro t other
  cases iface <;> cases t <;>
    first | rfl | exact absurd rfl other | exact memcpy_performed _ _ (by decide)

private theorem static_taken (g : Globals) (iface : Iface) {start : List UInt8} {addr gw mask : UInt32}
    (read : ipTriple start = some (addr,gw,mask)) (nonzero : addr ≠ 0 ∧ gw ≠ 0 ∧ mask ≠ 0) :
    cmdIpconfigStatic g iface start = .ok (networkMsgIpconfig (setStatic g iface addr gw mask) ⟨false,iface,addr,gw,mask⟩) := by
  obtain ⟨⟨addr',start'⟩,first,read⟩ := Option.bind_eq_some_iff.mp read
  obtain ⟨⟨gw',start''⟩,second,read⟩ := Option.bind_eq_some_iff.mp read
  obtain ⟨⟨mask',rest⟩,third,read⟩ := Option.bind_eq_some_iff.mp read
  cases read
  obtain ⟨addrSet,gwSet,maskSet⟩ := nonzero
  simp only [cmdIpconfigStatic, first, second, third, addrSet, gwSet, maskSet, if_false]
  rfl

private theorem performs_args {g g' : Globals} {iface : Iface} {start : List UInt8} {code : Int}
    (done : cmdIpconfigStatic g iface start = .ok (g',code)) :
    Performs g g' (match (match ipTriple start with
      | none => none
      | some (ip,gw,mask) => if ip ≠ 0 ∧ gw ≠ 0 ∧ mask ≠ 0 then some (iface,false) else none) with
      | none => []
      | some (iface,dhcp) => flagCopies iface dhcp) := by
  rcases cmdIpconfigStatic_cases done with ⟨-,addr,gw,mask,same⟩ | ⟨addr,gw,mask,read,first,second,third,same⟩
  · split
    next =>
      subst same
      intro t _
      cases t <;> rfl
    next found =>
      split at found
      next => contradiction
      next addr' gw' mask' read =>
        split at found
        next nonzero =>
          cases found
          have taken := Except.ok.inj (done.symm.trans (static_taken g iface read nonzero))
          obtain rfl : g' = (networkMsgIpconfig (setStatic g iface addr' gw' mask') ⟨false,iface,addr',gw',mask'⟩).1 :=
            congrArg Prod.fst taken
          intro t other
          exact (performs_send _ _ t).trans (performs_static g iface addr' gw' mask' t other)
        next => contradiction
  · obtain rfl : g' = (networkMsgIpconfig (setStatic g iface addr gw mask) ⟨false,iface,addr,gw,mask⟩).1 :=
      congrArg Prod.fst same
    simp only [read, first, second, third, ne_eq, not_false_eq_true, and_self, if_true]
    intro t other
    exact (performs_send _ _ t).trans (performs_static g iface addr gw mask t other)

private theorem performs_ipconfig {g g' : Globals} {len : Nat} {code : Int}
    (done : cmdIpconfig g 9 (len - 9) = .ok (g',code)) : Performs g g' (ipconfigCopies g.mem len) := by
  unfold ipconfigCopies ipconfigTaken
  rcases cmdIpconfig_cases done with ⟨none,same,-⟩ | ⟨iface,off,found,taken⟩
  · rw [none, same]
    exact fun _ _ => rfl
  · rw [found]
    rcases taken with ⟨dhcp,same⟩ | ⟨dhcp,static⟩
    · obtain rfl : g' = (cmdIpconfigDhcp g iface).1 := congrArg Prod.fst same
      simp only [dhcp, if_true]
      exact performs_dhcp g iface
    · simp only [dhcp, Bool.false_eq_true, if_false]
      exact performs_args static

private theorem take_string {bytes : List UInt8} (terminated : 0 ∈ bytes) :
    bytes.take (strlen bytes + 1) = chars bytes ++ [0] := by
  have start := List.prefix_iff_eq_take.mp (chars_starts terminated)
  rw [List.length_append] at start
  exact start.symm

private theorem performs_terminated {n : Nat} (dst : Bytes n) (src : List UInt8) {count : Nat} (size : src.length = count)
    (fits : count < n) : (memcpy dst (src ++ [0])).toList =
      (dst.toList.take 0 ++ src ++ dst.toList.drop (0 + src.length)).take count ++ [0] ++
        (dst.toList.take 0 ++ src ++ dst.toList.drop (0 + src.length)).drop (count + 1) := by
  subst size
  rw [memcpy_toList dst _ (by simp; omega), Nat.zero_add, List.take_zero, List.nil_append, List.take_left,
    ← List.drop_drop, List.drop_left, List.drop_drop, List.length_append]
  rfl

private theorem performs_copied {n : Nat} (dst : Bytes n) {bytes : List UInt8} (terminated : 0 ∈ bytes)
    (fits : bytes.length < n) : (memcpy dst (chars bytes ++ [0])).toList =
      dst.toList.take 0 ++ bytes.take ((strlen bytes : Int) + 1).toNat ++
        dst.toList.drop (0 + (bytes.take ((strlen bytes : Int) + 1).toNat).length) := by
  have count : ((strlen bytes : Int) + 1).toNat = strlen bytes + 1 := by omega
  have short : (chars bytes).length ≤ bytes.length := strlen_le bytes
  rw [count, take_string terminated]
  exact memcpy_performed _ _ (by simp; omega)

private theorem performs_wifi {g g' : Globals} {len : Nat} (done : cmdWifi g 5 (len - 5) = .ok g') :
    Performs g g' (wifiCopies g.wifiParam g.mem len) := by
  intro t other
  cases cmdWifi_taken done with
  | ssid ssid fits =>
    rw [wifiCopies, if_pos ssid, if_neg (Nat.not_lt.mpr fits)]
    have size : (slice g.mem 10 (len - 10)).length = len - 10 := mem_slice_length g 10 (by omega)
    have terminated := memcpy_terminated g.wifiParam.ssidSaved (slice g.mem 10 (len - 10)) (by omega)
    have room : len - 10 < 33 := by omega
    cases t with
    | ssidSaved => exact performs_terminated g.wifiParam.ssidSaved _ size room
    | ssidSavedCopy => exact performs_copied g.ssidSavedCopy terminated (by rw [List.Vector.toList_length]; decide)
    | line => exact absurd rfl other
    | _ => rfl
  | ssidLong ssid long =>
    rw [wifiCopies, if_pos ssid, if_pos long]
    rfl
  | key noSsid key fits =>
    rw [wifiCopies, if_neg (by simp [noSsid]), if_pos key, if_neg (Nat.not_lt.mpr fits)]
    have size : (slice g.mem 9 (len - 9)).length = len - 9 := mem_slice_length g 9 (by omega)
    have terminated := memcpy_terminated g.wifiParam.key (slice g.mem 9 (len - 9)) (by omega)
    have room : len - 9 < 65 := by omega
    cases t with
    | key => exact performs_terminated g.wifiParam.key _ size room
    | keyCopy => exact performs_copied g.keyCopy terminated (by rw [List.Vector.toList_length]; decide)
    | line => exact absurd rfl other
    | _ => rfl
  | keyLong noSsid key long =>
    rw [wifiCopies, if_neg (by simp [noSsid]), if_pos key, if_pos long]
    rfl
  | keyind noSsid noKey keyind =>
    rw [wifiCopies, if_neg (by simp [noSsid]), if_neg (by simp [noKey]), if_pos keyind]
    unfold cmdWifiKeyind
    dsimp only
    split <;> cases t <;> rfl
  | login noSsid noKey noKeyind login =>
    rw [wifiCopies, if_neg (by simp [noSsid]), if_neg (by simp [noKey]), if_neg (by simp [noKeyind]), if_pos login,
      Nat.sub_sub]
    unfold cmdWifiLogin
    split
    next fits =>
      cases t <;> first
        | rfl
        | exact absurd rfl other
        | exact memcpy_performed _ _ ((slice_length_le _ _ _).trans fits.le)
    next => rfl
  | request keyconnect tryConnect msg noSsid noKey noKeyind noLogin =>
    rw [wifiCopies, if_neg (by simp [noSsid]), if_neg (by simp [noKey]), if_neg (by simp [noKeyind]),
      if_neg (by simp [noLogin])]
    exact (performs_send _ msg t).trans (by cases t <;> rfl)
  | idle keyconnect noSsid noKey noKeyind noLogin =>
    rw [wifiCopies, if_neg (by simp [noSsid]), if_neg (by simp [noKey]), if_neg (by simp [noKeyind]),
      if_neg (by simp [noLogin])]
    cases t <;> rfl

/-- A handler that comes to its end has made these copies and no others. -/
theorem handle_performs {g g' : Globals} {len : Nat} {h : Handler} (done : handle g len h = .ok g') :
    Performs g g' (copies g.wifiParam g.mem len h) := by
  have nothing : Performs g g [] := fun _ _ => rfl
  intro t other
  cases h with
  | wifi => exact performs_wifi done t other
  | ipconfig =>
    obtain ⟨⟨g'',code⟩,taken,same⟩ := bind_ok done
    cases same
    exact performs_ipconfig taken t other
  | sensors =>
    cases done
    unfold cmdSensors
    split <;> try split
    all_goals cases t <;> rfl
  | link =>
    change cmdLink g len = .ok g' at done
    unfold cmdLink at done
    split at done
    next => contradiction
    next fits =>
      cases done
      have room : (slice g.mem 5 (len - 5)).length ≤ 240 := (slice_length_le _ _ _).trans (by omega)
      have count : ((len : Int) - 5).toNat = len - 5 := by omega
      cases t <;> first
        | rfl
        | exact memcpy_performed _ _ ((slice_length_le _ _ _).trans (by decide))
        | exact (memcpy_performed _ _ room).trans (by rw [← count]; rfl)
  | internet =>
    cases done
    have whole : (memcpy g.isInternet (slice g.mem 9 240)).toList = slice g.mem 9 240 :=
      memcpy_full _ _ (by simp [slice, Globals.mem, g.cmdBuff.toList_length])
    simp only [cmdInternet, copies, whole]
    cases strncmpEq (slice g.mem 9 240) (literal "wifi") 4 <;> cases t <;> first
      | rfl
      | exact absurd rfl other
      | exact memcpy_performed _ _ (by decide)
      | exact memcpy_performed _ _ ((slice_length_le _ _ _).trans (by decide))
  | testEthernet =>
    cases done
    split <;> cases t <;> rfl
  | getMac =>
    cases done
    exact performs_send g .settingsShow t
  | getWifimac =>
    cases done
    exact performs_send g .settingsShowWifi t
  | restartPulse => contradiction
  | config | token | resetPulse | activateDfutarg =>
    cases done
    cases t <;> first
      | rfl
      | exact memcpy_performed _ _ (by decide)
      | exact memcpy_performed _ _ ((slice_length_le _ _ _).trans (by decide))
  | testInternet | getVersion | none =>
    cases done
    cases t <;> rfl

private theorem memcpyLine_bounds {target : Target} {off count : Nat} (fits : count ≤ target.declared)
    (inside : off + count ≤ 256) : (memcpyLine target off count).InBounds := by
  refine ⟨Int.natCast_nonneg count,?_,?_⟩
  · change (0 : Int) + count ≤ target.declared
    omega
  · change (off : Int) + count ≤ 256
    omega

private theorem terminate_bounds {target : Target} {off : Nat} (fits : off < target.declared) :
    (terminate target off).InBounds := by
  have room : (off : Int) + 1 ≤ target.declared := by omega
  have covered : Source.Covers 1 (.string [0]) := by decide
  exact ⟨Int.one_nonneg,room,covered⟩

private theorem strcpyFrom_bounds {target : Target} {bytes : List UInt8} (terminated : 0 ∈ bytes)
    (fits : bytes.length < target.declared) : (strcpyFrom target bytes).InBounds := by
  have short := strlen_le bytes
  refine ⟨?_,?_,terminated,Int.le_refl _⟩
  · change (0 : Int) ≤ strlen bytes + 1
    omega
  · change (0 : Int) + (strlen bytes + 1) ≤ target.declared
    omega

private theorem argument_bounds {n : Nat} (dst : Bytes n) (mem : List UInt8) {field copy : Target} {off count : Nat}
    (short : count < n) (inside : off + count ≤ 256) (declared : n ≤ field.declared) (room : n < copy.declared) :
    ∀ c ∈ [memcpyLine field off count,terminate field count,
      strcpyFrom copy (memcpy dst (slice mem off count ++ [0])).toList], c.InBounds := by
  have size := slice_length_le mem off count
  simp only [List.forall_mem_cons, List.not_mem_nil, false_imp_iff, implies_true, and_true]
  refine ⟨memcpyLine_bounds (short.le.trans declared) inside,terminate_bounds (short.trans_le declared),
    strcpyFrom_bounds (memcpy_terminated _ _ (size.trans_lt short)) ?_⟩
  rw [List.Vector.toList_length]
  exact room

private theorem cmdCmp_longer {mem : List UInt8} {off len : Nat} {cmd : String} (spaced : (ascii cmd).getLast? = some 32)
    (matched : cmdCmp mem off len cmd = true) : (ascii cmd).length < len := by
  simp only [cmdCmp, Bool.and_eq_true, spaced, if_true, decide_eq_true_eq] at matched
  exact matched.2

private theorem wifi_bounds (w : WifiParam) (mem : List UInt8) {len : Nat} (bound : len ≤ 256) :
    ∀ c ∈ wifiCopies w mem len, c.InBounds := by
  unfold wifiCopies
  split
  next matched =>
    split
    next => exact fun c none => absurd none (List.not_mem_nil)
    next fits =>
      have longer : 5 < len - 5 := cmdCmp_longer (by decide) matched
      exact argument_bounds w.ssidSaved mem (by omega) (by omega) (by decide) (by decide)
  next =>
    split
    next matched =>
      split
      next => exact fun c none => absurd none (List.not_mem_nil)
      next fits =>
        have longer : 4 < len - 5 := cmdCmp_longer (by decide) matched
        exact argument_bounds w.key mem (by omega) (by omega) (by decide) (by decide)
    next =>
      split
      next => exact fun c none => absurd none (List.not_mem_nil)
      next =>
        split
        next =>
          split
          next fits =>
            simp only [m2m1xUsrNameMax] at fits
            simp only [List.forall_mem_cons, List.not_mem_nil, false_imp_iff, implies_true, and_true]
            exact ⟨memcpyLine_bounds (by simp [Target.declared, m2m1xUsrNameMax]; omega) (by omega),
              terminate_bounds (by simp [Target.declared]; omega)⟩
          next => exact fun c none => absurd none (List.not_mem_nil)
        next => exact fun c none => absurd none (List.not_mem_nil)

private theorem flags_bounds (iface : Iface) (dhcp : Bool) : ∀ c ∈ flagCopies iface dhcp, c.InBounds := by
  cases iface <;> cases dhcp <;> decide +kernel

private theorem ipconfig_bounds (mem : List UInt8) (len : Nat) : ∀ c ∈ ipconfigCopies mem len, c.InBounds := by
  unfold ipconfigCopies
  cases ipconfigTaken mem len with
  | none => exact fun c none => absurd none List.not_mem_nil
  | some taken => exact flags_bounds taken.1 taken.2

private theorem link_bounds (len : Nat) :
    (∀ c ∈ [memcpyLine .apiLinkFirst 0 4,memcpyLine .apiLink 5 (len - 5)], c.InBounds) ↔ 5 ≤ len ∧ len ≤ 245 := by
  simp only [List.forall_mem_cons, List.not_mem_nil, false_imp_iff, implies_true, and_true]
  simp only [Copy.InBounds, memcpyLine, Target.declared, Source.Covers]
  omega

private theorem internet_flags (wifi : Bool) :
    ∀ c ∈ [strcpyFrom (if wifi then .dhcpCheckEth else .dhcpCheckWifi) (literal "true"),
      strcpyFrom .dhcpCheckChanged (literal "true")], c.InBounds := by
  cases wifi <;> decide +kernel

private theorem constant_bounds :
    (∀ c ∈ [memcpyLine .configString 0 240], c.InBounds) ∧
    (∀ c ∈ [memcpyLine .apiTokenFirst 0 5,memcpyLine .apiToken 6 240], c.InBounds) ∧
    (∀ c ∈ [memcpyLine .resetPulse 0 12], c.InBounds) ∧
    ∀ c ∈ [strcpyFrom .update (literal "true")], c.InBounds := by
  decide +kernel

private theorem copies_bounds (w : WifiParam) (mem : List UInt8) {len : Nat} (bound : len ≤ 256) (h : Handler) :
    (∀ c ∈ copies w mem len h, c.InBounds) ↔ (h = .link → 5 ≤ len ∧ len ≤ 245) := by
  have bounded (other : h ≠ .link) (same : h = .link) : 5 ≤ len ∧ len ≤ 245 := absurd same other
  cases h with
  | wifi => exact iff_of_true (wifi_bounds w mem bound) (bounded (by decide))
  | link => exact (link_bounds len).trans ⟨fun fits _ => fits,fun fits => fits rfl⟩
  | ipconfig => exact iff_of_true (ipconfig_bounds mem len) (bounded (by decide))
  | internet =>
    refine iff_of_true (fun c member => ?_) (bounded (by decide))
    rcases List.mem_cons.mp member with rfl | member
    · exact memcpyLine_bounds (by decide) (by decide)
    · rcases List.mem_cons.mp member with rfl | member
      · exact memcpyLine_bounds (by decide) (by decide)
      · exact internet_flags _ c member
  | config => exact iff_of_true (constant_bounds.1) (bounded (by decide))
  | token => exact iff_of_true (constant_bounds.2.1) (bounded (by decide))
  | resetPulse => exact iff_of_true (constant_bounds.2.2.1) (bounded (by decide))
  | activateDfutarg => exact iff_of_true (constant_bounds.2.2.2) (bounded (by decide))
  | sensors | testInternet | testEthernet | getVersion | restartPulse | getMac | getWifimac | none =>
    exact iff_of_true (fun c member => absurd member List.not_mem_nil) (bounded (by decide))

def CopiesInBounds (g : Globals) (behind : List UInt8) (len : Nat) : Prop :=
  ∀ c ∈ copies g.wifiParam (g.mem ++ behind) len (dispatch (g.mem ++ behind) len), c.InBounds

private theorem starts_buffer (g : Globals) (behind : List UInt8) {word : List UInt8} (short : word.length ≤ 256) :
    word <+: g.mem ++ behind ↔ word <+: g.cmdBuff.toList := by
  rw [Globals.mem, List.append_assoc]
  have size := g.cmdBuff.toList_length
  exact ⟨fun starts => List.prefix_of_prefix_length_le starts (List.prefix_append _ _) (by omega),
    fun starts => starts.trans (List.prefix_append _ _)⟩

private theorem cmdParse_performs {g g' : Globals} {len : Nat} (done : cmdParse g len = .ok g') :
    Performs g g' (copies g.wifiParam g.mem len (dispatch g.mem len)) := by
  have counted := handle_performs done
  intro t other
  have same (t : Target) : t.content { g with timesCount := g.timesCount + 1 } = t.content g := by cases t <;> rfl
  have made := counted t other
  rw [funext same] at made
  exact made

/-- All copies stay in bounds just when a `link` line is of a length between 5 and 245, and the copies
are those that `cmd_parse` makes. -/
theorem copies_bounded_iff (g : Globals) (behind : List UInt8) (len : Nat) (bound : len ≤ 256) :
    (CopiesInBounds g behind len ↔ (ascii "link" <+: g.cmdBuff.toList → 5 ≤ len ∧ len ≤ 245)) ∧
      ∀ g', cmdParse g len = .ok g' → Performs g g' (copies g.wifiParam g.mem len (dispatch g.mem len)) := by
  have link : dispatch (g.mem ++ behind) len = .link ↔ ascii "link" <+: g.cmdBuff.toList := by
    rw [dispatch_iff (by decide), compared_iff (by decide)]
    exact (and_iff_left fun absurd => by contradiction).trans (starts_buffer g behind (by decide))
  rw [← link]
  exact ⟨copies_bounds g.wifiParam (g.mem ++ behind) bound _,fun g' done => cmdParse_performs done⟩

/-- After a longer line `link` has the link of 13 bytes in the buffer, and what the longer line left behind it. -/
def shorterLink : Globals :=
  { Globals.initial (zeros 235) with cmdBuff := memcpy (zeros 256) (ascii "link new.pulse.io/api/measurements"), cmdLen := 17 }

theorem copies_bounded_shorter : (CopiesInBounds shorterLink [] 17 ↔
      (ascii "link" <+: shorterLink.cmdBuff.toList → 5 ≤ 17 ∧ 17 ≤ 245)) ∧
    ∀ g', cmdParse shorterLink 17 = .ok g' →
      Performs shorterLink g' (copies shorterLink.wifiParam shorterLink.mem 17 (dispatch shorterLink.mem 17)) :=
  copies_bounded_iff shorterLink [] 17 (by decide)

/-- Without an argument the length of the copy is negative. -/
theorem link_copy_overflows : ¬ CopiesInBounds
    { Globals.initial (zeros 235) with cmdBuff := memcpy (zeros 256) (ascii "link"), cmdLen := 4 } [] 4 := by
  unfold CopiesInBounds
  decide +kernel

end PulseFirmware
