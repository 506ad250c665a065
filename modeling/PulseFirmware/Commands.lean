import PulseFirmware.Cmd
import PulseFirmware.Settings

/-! What a complete command line does to the settings: which settings it gives a value, what
that value is, and that it leaves the others and all working copies alone. -/
namespace PulseFirmware
open PulseFirmware.CString

/-- A line as it arrives between two terminators, within the size of the line buffer. -/
structure Line where
  bytes : List UInt8
  fits : bytes.length ≤ 256
  unbroken : ∀ b ∈ bytes, b ≠ 13 ∧ b ≠ 10

def Line.ofText (text : String) (fits : (ascii text).length ≤ 256) (unbroken : ∀ b ∈ ascii text, b ≠ 13 ∧ b ≠ 10) :
    Line :=
  ⟨ascii text,fits,unbroken⟩

/-- The variables as the handler of a complete line finds them. -/
def Globals.typed (g : Globals) (line : Line) : Globals :=
  { g with
    cmdBuff := memcpyAt g.cmdBuff 0 line.bytes
    cmdLen := line.bytes.length
    timesCount := g.timesCount + 1 }

def Globals.handler (g : Globals) (line : Line) : Handler :=
  dispatch (g.typed line).mem line.bytes.length

/-- A complete line, from an empty line buffer to the next. -/
def Globals.runLine (g : Globals) (line : Line) : Outcome Globals := do
  let g ← handle (g.typed line) line.bytes.length (g.handler line)
  return { g with cmdLen := 0 }

theorem memcpyAt_snoc {n : Nat} (dst : Bytes n) (src : List UInt8) (b : UInt8) (room : src.length < n) :
    memcpyAt (memcpyAt dst 0 src) src.length [b] = memcpyAt dst 0 (src ++ [b]) := by
  have size := dst.toList_length
  apply List.Vector.toList_injective
  have first : (memcpyAt dst 0 src).toList = src ++ dst.toList.drop src.length :=
    memcpy_toList dst src (by omega)
  have second : (memcpyAt dst 0 (src ++ [b])).toList = src ++ [b] ++ dst.toList.drop (src.length + 1) := by
    have copied := memcpy_toList dst (src ++ [b]) (by rw [List.length_append]; exact room)
    rw [List.length_append] at copied
    exact copied
  rw [second]
  change ((memcpyAt dst 0 src).toList.take src.length ++ [b] ++
    (memcpyAt dst 0 src).toList.drop (src.length + [b].length)).take n = _
  rw [first, List.take_left, List.length_singleton, List.drop_append, List.drop_drop]
  simp only [List.drop_eq_nil_of_le (Nat.le_succ src.length), List.nil_append]
  have offset : src.length + (src.length + 1 - src.length) = src.length + 1 := by omega
  rw [offset]
  apply List.take_of_length_le
  simp only [List.length_append, List.length_singleton, List.length_drop, size]
  omega

private theorem cmdFeed_bytes (g : Globals) (before rest : List UInt8) (fits : before.length + rest.length ≤ 256)
    (unbroken : ∀ b ∈ rest, b ≠ 13 ∧ b ≠ 10) (tail : List UInt8) :
    cmdFeed { g with cmdBuff := memcpyAt g.cmdBuff 0 before, cmdLen := before.length } (rest ++ tail) =
      cmdFeed { g with
        cmdBuff := memcpyAt g.cmdBuff 0 (before ++ rest)
        cmdLen := (before ++ rest).length } tail := by
  induction rest generalizing before with
  | nil => simp
  | cons b rest ih =>
    have plain : ¬ (b = 13 ∨ b = 10) := not_or.mpr (unbroken b List.mem_cons_self)
    rw [List.length_cons] at fits
    have room : before.length < 256 := by omega
    rw [List.cons_append, cmdFeed, if_neg plain, if_pos room, memcpyAt_snoc _ _ _ room]
    have step := ih (before ++ [b]) (by simp; omega) fun c member => unbroken c (List.mem_cons_of_mem b member)
    simpa using step

/-- Feeding a complete line and its terminator to an empty buffer runs the line. -/
theorem cmdFeed_line (g : Globals) (line : Line) (empty : g.cmdLen = 0) :
    cmdFeed g (line.bytes ++ [10]) = do return (← g.runLine line,0) := by
  have start : g = { g with cmdBuff := memcpyAt g.cmdBuff 0 [], cmdLen := ([] : List UInt8).length } := by
    have unchanged : memcpyAt g.cmdBuff 0 [] = g.cmdBuff := by
      apply List.Vector.toList_injective
      exact memcpy_toList g.cmdBuff [] (by decide)
    rw [unchanged, List.length_nil, ← empty]
  have fed := cmdFeed_bytes g [] line.bytes (by simpa using line.fits) line.unbroken [10]
  rw [← start, List.nil_append] at fed
  rw [fed, cmdFeed, if_pos (Or.inr rfl)]
  change (do
    let g ← handle (g.typed line) line.bytes.length (g.handler line)
    cmdFeed { g with cmdLen := 0 } []) = _
  rw [Globals.runLine]
  cases handle (g.typed line) line.bytes.length (g.handler line) <;> rfl

/-- What stands behind a line in the memory `cmd_parse` reads. -/
def Globals.stale (g : Globals) (line : Line) : List UInt8 :=
  g.cmdBuff.toList.drop line.bytes.length ++ [(line.bytes.length % 256).toUInt8,(line.bytes.length / 256).toUInt8]

theorem typed_mem (g : Globals) (line : Line) : (g.typed line).mem = line.bytes ++ g.stale line := by
  have copied := memcpy_toList g.cmdBuff line.bytes line.fits
  change (memcpy g.cmdBuff line.bytes).toList ++ _ = _
  rw [copied, List.append_assoc]
  rfl

theorem mem_slice_length (g : Globals) (off : Nat) {count : Nat} (inside : off + count ≤ 258) :
    (slice g.mem off count).length = count := by
  have size : g.mem.length = 258 := by simp [Globals.mem, g.cmdBuff.toList_length]
  rw [slice, List.length_take, List.length_drop, size]
  omega

def ipTriple (start : List UInt8) : Option (UInt32 × UInt32 × UInt32) := do
  let (ip,start) ← ipToInt start
  let (gw,start) ← ipToInt start
  let (mask,_) ← ipToInt start
  return (ip,gw,mask)

def ipconfigIface (mem : List UInt8) (len : Nat) : Option (Iface × Nat) :=
  if cmdCmp mem 9 (len - 9) "wlan " then some (.wlan,14)
  else if cmdCmp mem 9 (len - 9) "eth " then some (.eth,13)
  else none

def ipconfigDhcp (mem : List UInt8) (len off : Nat) : Bool := cmdCmp mem off (len - off) "dhcp"

def ipconfigArgs (mem : List UInt8) (off : Nat) : List UInt8 := mem.drop (cmdCmpArg mem off "dhcp" off)

def ipconfigAccepted (g : Globals) (len : Nat) : Bool :=
  match cmdIpconfig g 9 (len - 9) with
  | .ok (_,code) => code == 0
  | .error _ => false

def ipconfigStatic (mem : List UInt8) (len : Nat) : Bool :=
  (ipconfigIface mem len).any fun (_,off) => !ipconfigDhcp mem len off

def Setting.commanded (x : Setting) (g : Globals) (len : Nat) (h : Handler) : Bool :=
  match x with
  | .token => h = .token
  | .link => h = .link
  | .internet => h = .internet
  | .config => h = .config
  | .ssid => h = .wifi && cmdCmp g.mem 5 (len - 5) "ssid " && decide (len - 10 ≤ 32)
  | .key => h = .wifi && !cmdCmp g.mem 5 (len - 5) "ssid " && cmdCmp g.mem 5 (len - 5) "key " &&
      decide (len - 9 ≤ 64)
  | .ip => h = .ipconfig && ipconfigAccepted g len && ipconfigStatic g.mem len
  | .dhcp => h = .ipconfig && ipconfigAccepted g len

def Setting.carried (x : Setting) (g : Globals) (len : Nat) : List (List UInt8) :=
  match x with
  | .token => [slice g.mem 6 240]
  | .link => [(memcpy g.apiLink (slice g.mem 5 (len - 5))).toList]
  | .internet => [slice g.mem 9 240]
  | .config => [slice g.mem 0 240]
  | .ssid =>
    let saved := memcpy g.wifiParam.ssidSaved (slice g.mem 10 (len - 10) ++ [0])
    [(memcpy g.ssidSavedCopy (chars saved.toList ++ [0])).toList]
  | .key =>
    let key := memcpy g.wifiParam.key (slice g.mem 9 (len - 9) ++ [0])
    [(memcpy g.keyCopy (chars key.toList ++ [0])).toList]
  | .ip =>
    match (ipconfigIface g.mem len).bind fun (_,off) => ipTriple (ipconfigArgs g.mem off) with
    | some (addr,gw,mask) => [word addr,word gw,word mask]
    | none => []
  | .dhcp =>
    match ipconfigIface g.mem len with
    | some (iface,off) =>
      let own := iface = .wlan ↔ ipconfigDhcp g.mem len off
      [(strcpyLit g.dhcpCheckWifi (if own then "true" else "false")).toList.take 8,
        (strcpyLit g.dhcpCheckEth (if own then "false" else "true")).toList.take 8]
    | none => []

structure Setting.Keeps (x : Setting) (g g' : Globals) : Prop where
  pending : x.pending g' = x.pending g
  saved : x.saved g' = x.saved g

structure SameCopies (g g' : Globals) : Prop where
  token : g'.apiToken1 = g.apiToken1
  link : g'.apiLink1 = g.apiLink1
  internet : g'.isInternet1 = g.isInternet1
  config : g'.configString1 = g.configString1

theorem Setting.Keeps.trans {x : Setting} {g h k : Globals} (first : x.Keeps g h) (second : x.Keeps h k) : x.Keeps g k :=
  ⟨second.pending.trans first.pending,second.saved.trans first.saved⟩

theorem SameCopies.working {g g' : Globals} (same : SameCopies g g') (x : Setting) (value : List (List UInt8)) :
    x.working g' value ↔ x.working g value := by
  cases x <;> simp only [Setting.working, same.token, same.link, same.internet, same.config]

theorem networkMsgSend_cases (g : Globals) (msg : NetworkMsg) :
    (g.wifiConQ = none ∧ networkMsgSend g msg = ({ g with wifiConQ := some msg },0)) ∨
      (g.wifiConQ ≠ none ∧ networkMsgSend g msg = (g,-1)) := by
  unfold networkMsgSend
  split
  next empty => exact Or.inl ⟨empty,rfl⟩
  next full => exact Or.inr ⟨by rw [full]; exact Option.some_ne_none _,rfl⟩

def setSsid (g : Globals) (saved : Bytes 33) (len : Nat) (copy : Bytes 80) : Globals :=
  { g with
    wifiParam := { g.wifiParam with ssidSaved := saved, ssidSavedLen := len }
    ssidSavedCopy := copy
    ssidChanged := true
    cmdBuff := memcpyAt g.cmdBuff 5 (literal "success ssid\n") }.reply .successSsid

def setKey (g : Globals) (key : Bytes 65) (copy : Bytes 80) : Globals :=
  { g with
    wifiParam := { g.wifiParam with key := key }
    keyCopy := copy
    keyChanged := true
    keyflag := true
    cmdBuff := memcpyAt g.cmdBuff 5 (literal "success key\n") }.reply .successKey

/-- What a `wifi` line that comes to its end has done, by the word that follows. -/
inductive WifiTaken (g : Globals) (len : Nat) : Globals → Prop
  | ssid (word : cmdCmp g.mem 5 (len - 5) "ssid " = true) (fits : len - 10 ≤ 32) :
      WifiTaken g len (setSsid g (memcpy g.wifiParam.ssidSaved (slice g.mem 10 (len - 10) ++ [0])) (len - 10)
        (memcpy g.ssidSavedCopy (chars (memcpy g.wifiParam.ssidSaved (slice g.mem 10 (len - 10) ++ [0])).toList ++ [0])))
  | ssidLong (word : cmdCmp g.mem 5 (len - 5) "ssid " = true) (long : 32 < len - 10) : WifiTaken g len g
  | key (noSsid : cmdCmp g.mem 5 (len - 5) "ssid " = false) (word : cmdCmp g.mem 5 (len - 5) "key " = true)
      (fits : len - 9 ≤ 64) :
      WifiTaken g len (setKey g (memcpy g.wifiParam.key (slice g.mem 9 (len - 9) ++ [0]))
        (memcpy g.keyCopy (chars (memcpy g.wifiParam.key (slice g.mem 9 (len - 9) ++ [0])).toList ++ [0])))
  | keyLong (noSsid : cmdCmp g.mem 5 (len - 5) "ssid " = false) (word : cmdCmp g.mem 5 (len - 5) "key " = true)
      (long : 64 < len - 9) : WifiTaken g len g
  | keyind (noSsid : cmdCmp g.mem 5 (len - 5) "ssid " = false) (noKey : cmdCmp g.mem 5 (len - 5) "key " = false)
      (word : cmdCmp g.mem 5 (len - 5) "keyind " = true) : WifiTaken g len (cmdWifiKeyind g 12 (len - 5 - 7))
  | login (noSsid : cmdCmp g.mem 5 (len - 5) "ssid " = false) (noKey : cmdCmp g.mem 5 (len - 5) "key " = false)
      (noKeyind : cmdCmp g.mem 5 (len - 5) "keyind " = false) (word : cmdCmp g.mem 5 (len - 5) "login " = true) :
      WifiTaken g len (cmdWifiLogin g 11 (len - 5 - 6))
  | request (keyconnect tryConnect : Bool) (msg : NetworkMsg) (noSsid : cmdCmp g.mem 5 (len - 5) "ssid " = false)
      (noKey : cmdCmp g.mem 5 (len - 5) "key " = false) (noKeyind : cmdCmp g.mem 5 (len - 5) "keyind " = false)
      (noLogin : cmdCmp g.mem 5 (len - 5) "login " = false) :
      WifiTaken g len (networkMsgSend { g with keyconnect := keyconnect, tryConnect := tryConnect } msg).1
  | idle (keyconnect : Bool) (noSsid : cmdCmp g.mem 5 (len - 5) "ssid " = false)
      (noKey : cmdCmp g.mem 5 (len - 5) "key " = false) (noKeyind : cmdCmp g.mem 5 (len - 5) "keyind " = false)
      (noLogin : cmdCmp g.mem 5 (len - 5) "login " = false) : WifiTaken g len { g with keyconnect := keyconnect }

private theorem cmdWifiConnect_cases {g g' : Globals} {str len : Nat} (done : cmdWifiConnect g str len = .ok g') :
    g' = g ∨ ∃ tryConnect msg, g' = (networkMsgSend { g with tryConnect := tryConnect } msg).1 := by
  unfold cmdWifiConnect at done
  split at done
  next => cases done; exact Or.inr ⟨true,_,rfl⟩
  next =>
    split at done
    next => cases done; exact Or.inr ⟨true,_,rfl⟩
    next =>
      split at done
      next => cases done; exact Or.inr ⟨true,_,rfl⟩
      next =>
        split at done
        next => cases done; exact Or.inr ⟨true,_,rfl⟩
        next =>
          split at done
          next => cases done; exact Or.inr ⟨g.tryConnect,.connectDefault,rfl⟩
          next => cases done; exact Or.inl rfl

theorem cmdWifi_taken {g g' : Globals} {len : Nat} (done : cmdWifi g 5 (len - 5) = .ok g') : WifiTaken g len g' := by
  unfold cmdWifi at done
  split at done
  next ssid =>
    rw [Nat.sub_sub] at done
    unfold cmdWifiSsid at done
    split at done
    next long =>
      cases done
      exact .ssidLong ssid long
    next fits =>
      obtain ⟨copy,copied,rest⟩ := bind_ok done
      cases rest
      rw [strcpyOr_value copied]
      exact .ssid ssid (Nat.not_lt.mp fits)
  next noSsid =>
    have noSsid := Bool.eq_false_of_not_eq_true noSsid
    split at done
    next key =>
      rw [Nat.sub_sub] at done
      unfold cmdWifiKey at done
      split at done
      next long =>
        cases done
        exact .keyLong noSsid key long
      next fits =>
        obtain ⟨copy,copied,rest⟩ := bind_ok done
        cases rest
        rw [strcpyOr_value copied]
        exact .key noSsid key (Nat.not_lt.mp fits)
    next noKey =>
      have noKey := Bool.eq_false_of_not_eq_true noKey
      split at done
      next keyind =>
        cases done
        exact .keyind noSsid noKey keyind
      next noKeyind =>
        have noKeyind := Bool.eq_false_of_not_eq_true noKeyind
        split at done
        next login =>
          cases done
          exact .login noSsid noKey noKeyind login
        next noLogin =>
          have noLogin := Bool.eq_false_of_not_eq_true noLogin
          split at done
          next =>
            rcases cmdWifiConnect_cases done with rfl | ⟨tryConnect,msg,rfl⟩
            · exact .idle true noSsid noKey noKeyind noLogin
            · exact .request true tryConnect msg noSsid noKey noKeyind noLogin
          next =>
            split at done
            next =>
              cases done
              exact .request g.keyconnect g.tryConnect .disconnect noSsid noKey noKeyind noLogin
            next =>
              split at done
              next =>
                cases done
                exact .request g.keyconnect g.tryConnect .scan noSsid noKey noKeyind noLogin
              next =>
                cases done
                exact .idle g.keyconnect noSsid noKey noKeyind noLogin

def setStatic (g : Globals) (iface : Iface) (addr gw mask : UInt32) : Globals :=
  let g := { g with ipaddr := addr, gwaddr := gw, netmask := mask }
  let g := match iface with
    | .wlan => setDhcpCheck g "false" "true"
    | .eth => setDhcpCheck g "true" "false"
  { g with ipaddressChanged := strcpyLit g.ipaddressChanged "changed" }

/-- A static `ipconfig` gives up at a zero address, or is read to its end and sends its request. -/
theorem cmdIpconfigStatic_cases {g g' : Globals} {iface : Iface} {start : List UInt8} {code : Int}
    (done : cmdIpconfigStatic g iface start = .ok (g',code)) :
    (code = -1 ∧ ∃ addr gw mask, g' = { g with ipaddr := addr, gwaddr := gw, netmask := mask }) ∨
      (∃ addr gw mask, ipTriple start = some (addr,gw,mask) ∧ addr ≠ 0 ∧ gw ≠ 0 ∧ mask ≠ 0 ∧
        (g',code) = networkMsgIpconfig (setStatic g iface addr gw mask) ⟨false,iface,addr,gw,mask⟩) := by
  unfold cmdIpconfigStatic at done
  split at done
  next => contradiction
  next addr rest first =>
    by_cases zero : addr = 0
    · simp only [zero, if_true, Except.ok.injEq, Prod.mk.injEq] at done
      exact Or.inl ⟨done.2.symm,0,g.gwaddr,g.netmask,done.1.symm⟩
    · simp only [zero, if_false] at done
      split at done
      next => contradiction
      next gw rest' second =>
        by_cases zero' : gw = 0
        · simp only [zero', if_true, Except.ok.injEq, Prod.mk.injEq] at done
          exact Or.inl ⟨done.2.symm,addr,0,g.netmask,done.1.symm⟩
        · simp only [zero', if_false] at done
          split at done
          next => contradiction
          next mask rest'' third =>
            by_cases zero'' : mask = 0
            · simp only [zero'', if_true, Except.ok.injEq, Prod.mk.injEq] at done
              exact Or.inl ⟨done.2.symm,addr,gw,0,done.1.symm⟩
            · simp only [zero'', if_false, Except.ok.injEq] at done
              refine Or.inr ⟨addr,gw,mask,?_,zero,zero',zero'',done.symm⟩
              simp [ipTriple, first, second, third]

theorem cmdIpconfig_cases {g g' : Globals} {len : Nat} {code : Int}
    (done : cmdIpconfig g 9 (len - 9) = .ok (g',code)) :
    (ipconfigIface g.mem len = none ∧ g' = g ∧ code = -1) ∨
      ∃ iface off, ipconfigIface g.mem len = some (iface,off) ∧
        ((ipconfigDhcp g.mem len off = true ∧ (g',code) = cmdIpconfigDhcp g iface) ∨
          (ipconfigDhcp g.mem len off = false ∧
            cmdIpconfigStatic g iface (ipconfigArgs g.mem off) = .ok (g',code))) := by
  have branch (iface : Iface) (off rest : Nat) (same : rest = len - off)
      (done : cmdIpconfigIface g iface off rest = .ok (g',code)) :
      (ipconfigDhcp g.mem len off = true ∧ (g',code) = cmdIpconfigDhcp g iface) ∨
        (ipconfigDhcp g.mem len off = false ∧
          cmdIpconfigStatic g iface (ipconfigArgs g.mem off) = .ok (g',code)) := by
    rw [same] at done
    unfold cmdIpconfigIface at done
    split at done
    next dhcp => exact Or.inl ⟨dhcp,(Except.ok.inj done).symm⟩
    next other => exact Or.inr ⟨by simpa [ipconfigDhcp] using other,done⟩
  unfold cmdIpconfig at done
  unfold ipconfigIface
  split at done
  next wlan => exact Or.inr ⟨.wlan,14,if_pos wlan,branch .wlan 14 _ (by omega) done⟩
  next other =>
    rw [if_neg other]
    split at done
    next eth => exact Or.inr ⟨.eth,13,if_pos eth,branch .eth 13 _ (by omega) done⟩
    next neither =>
      obtain ⟨same,failed⟩ := Prod.mk.inj (Except.ok.inj done)
      exact Or.inl ⟨if_neg neither,same.symm,failed.symm⟩

end PulseFirmware
