import PulseFirmware.Recognition
import PulseFirmware.CommandEffects
import PulseFirmware.Network

/-! The way of the Wi-Fi credentials: stored by `cmd_wifi`, packed by `cmd_wifi_connect`, queued
by `wifi_msg_connect` and handed to the driver by `wifi_check_connect_queue`. -/
namespace PulseFirmware
open PulseFirmware.CString

inductive DriverCall
  | connect (pcSsid : List UInt8) (u8SsidLen : Nat) (u8SecType : SecType) (pvAuthInfo : List UInt8) (u16Ch : UInt16)
  | requestScan (ch : UInt16)
  | disconnect
  | defaultConnect

def NetworkMsg.driverCall : NetworkMsg → Option DriverCall
  | .connect param => some (.connect param.ssid.toList param.u8SsidLen param.u8SecType param.authInfo.toList param.u16Ch)
  | .scan => some (.requestScan m2mWifiChAll)
  | .disconnect => some .disconnect
  | .connectDefault => some .defaultConnect
  | .settingsShow | .settingsShowWifi | .ipsettings _ => none

/-- What the user has stored, within the sizes `cmd_wifi` accepts. -/
structure Credentials where
  ssid : List UInt8
  key : List UInt8
  keyInd : UInt8
  login : List UInt8
  ssidSize : 1 ≤ ssid.length ∧ ssid.length ≤ 32
  keySize : 1 ≤ key.length ∧ key.length ≤ 64
  keyIndSmall : keyInd < 4
  loginSize : login.length < m2m1xUsrNameMax

structure Credentials.Stored (c : Credentials) (w : WifiParam) : Prop where
  ssid : c.ssid <+: w.ssidSaved.toList
  ssidLen : w.ssidSavedLen = c.ssid.length
  key : c.key ++ [0] <+: w.key.toList
  keyInd : w.keyInd = c.keyInd
  login : c.login <+: w.login.toList

def SecType.word : SecType → String
  | .openNet => "open"
  | .wpaPsk => "wpa"
  | .wep => "wep"
  | .sec8021x => "802_1x"

/-- The layouts of `tuniM2MWifiAuth`: a key, a `tstrM2mWifiWepParams` or a `tstr1xAuthCredentials`. -/
def Credentials.Authenticates (c : Credentials) (auth : List UInt8) : SecType → Prop
  | .openNet => True
  | .wpaPsk => chars auth = c.key
  | .wep => auth.take 2 = [c.keyInd,c.key.length.toUInt8] ∧ chars (slice auth 2 27) = c.key
  | .sec8021x => chars (slice auth 0 m2m1xUsrNameMax) = c.login ∧ chars (slice auth m2m1xUsrNameMax 41) = c.key

def Credentials.Carried (c : Credentials) (t : SecType) : DriverCall → Prop
  | .connect pcSsid u8SsidLen u8SecType pvAuthInfo _ =>
    u8SsidLen = c.ssid.length ∧ pcSsid.take u8SsidLen = c.ssid ∧ u8SecType = t ∧ c.Authenticates pvAuthInfo t
  | .requestScan _ | .disconnect | .defaultConnect => False

theorem strncpy_length (src : List UInt8) (n : Nat) : (strncpy src n).length = n := by
  rw [strncpy, List.length_append, List.length_take, List.length_replicate]
  omega

theorem strncpy_chars (src rest : List UInt8) {n : Nat} (fits : strlen src < n) :
    chars (strncpy src n ++ rest) = chars src := by
  obtain ⟨k,grown⟩ := Nat.exists_eq_add_of_lt fits
  have size : n - (chars src).length = k + 1 := by
    change n - strlen src = _
    omega
  rw [strncpy, List.take_of_length_le fits.le, size, List.replicate_succ, List.append_assoc]
  exact chars_append_zero _ _ (zero_notMem_chars src)

/-- The request `cmd_wifi_connect` queues for a type. -/
def WifiParam.request (w : WifiParam) (t : SecType) : NetworkMsg :=
  .connect ⟨w.ssidSavedLen,.wpaPsk,m2mWifiChAll,memcpy (zeros 65) (w.ssidSaved.toList.take w.ssidSavedLen),
    memcpy (zeros 65) (strncpy (authBuff w t).toList m2mMaxPskLen)⟩

def connectLine (t : SecType) : List UInt8 := ascii "wifi connect " ++ ascii t.word

theorem cmdCmp_other {mem text rest : List UInt8} {str len : Nat} (cmd : String)
    (start : mem.drop str = text ++ rest) (printable : 0 < (ascii cmd).length ∧ 0 ∉ ascii cmd)
    (differs : ¬ (ascii cmd).take text.length <+: text) : ¬ cmdCmp mem str len cmd = true := by
  rw [cmdCmp_iff printable.1 printable.2, start]
  rintro ⟨starts,-⟩
  exact differs (List.prefix_of_prefix_length_le ((List.take_prefix _ _).trans starts) (List.prefix_append _ _)
    (List.length_take_le _ _))

theorem cmdCmp_word {mem text rest : List UInt8} {str len : Nat} (cmd : String)
    (start : mem.drop str = text ++ rest) (printable : 0 < (ascii cmd).length ∧ 0 ∉ ascii cmd)
    (same : ascii cmd <+: text) (size : if (ascii cmd).getLast? = some 32 then (ascii cmd).length < len
      else len = (ascii cmd).length) : cmdCmp mem str len cmd = true := by
  rw [cmdCmp_iff printable.1 printable.2, start]
  exact ⟨same.trans (List.prefix_append _ _),size⟩

private theorem connect_selected {g : Globals} {t : SecType} {rest : List UInt8} {len : Nat}
    (start : g.mem.drop 13 = ascii t.word ++ rest) (size : len = (ascii t.word).length) :
    cmdWifiConnect g 13 len = .ok (networkMsgSend { g with tryConnect := true } (g.wifiParam.request t)).1 := by
  unfold cmdWifiConnect
  cases t with
  | wpaPsk =>
    rw [if_pos (cmdCmp_word "wpa" start (by decide) (by decide) size)]
    rfl
  | wep =>
    rw [if_neg (cmdCmp_other "wpa" start (by decide) (by decide)),
      if_pos (cmdCmp_word "wep" start (by decide) (by decide) size)]
    rfl
  | sec8021x =>
    rw [if_neg (cmdCmp_other "wpa" start (by decide) (by decide)),
      if_neg (cmdCmp_other "wep" start (by decide) (by decide)),
      if_pos (cmdCmp_word "802_1x" start (by decide) (by decide) size)]
    rfl
  | openNet =>
    rw [if_neg (cmdCmp_other "wpa" start (by decide) (by decide)),
      if_neg (cmdCmp_other "wep" start (by decide) (by decide)),
      if_neg (cmdCmp_other "802_1x" start (by decide) (by decide)),
      if_pos (cmdCmp_word "open" start (by decide) (by decide) size)]
    rfl

theorem wifi_line (g : Globals) (line : Line) {word rest : List UInt8} (named : line.bytes = ascii "wifi " ++ (word ++ rest))
    (longer : 0 < word.length) : g.handler line = .wifi ∧ (g.typed line).mem.drop 5 = word ++ (rest ++ g.stale line) ∧
      line.bytes.length - 5 = word.length + rest.length := by
  have size : line.bytes.length = 5 + (word.length + rest.length) := by
    rw [named, List.length_append, List.length_append]
    rfl
  have text : (g.typed line).mem = ascii "wifi " ++ (word ++ (rest ++ g.stale line)) := by
    rw [typed_mem, named]
    simp
  refine ⟨?_,by rw [text]; exact List.drop_left' (by decide),by omega⟩
  apply dispatch_starts (by decide)
  rw [compared_iff (by decide), text]
  exact ⟨List.prefix_append _ _,fun _ => by change 5 < _; omega⟩

theorem connect_line (g : Globals) (line : Line) {t : SecType} (named : line.bytes = connectLine t) :
    g.runLine line = .ok { (networkMsgSend { g.typed line with keyconnect := true, tryConnect := true }
      (g.wifiParam.request t)).1 with cmdLen := 0 } := by
  have whole : line.bytes = ascii "wifi " ++ (ascii "connect " ++ ascii t.word) := by
    rw [named, connectLine, ← List.append_assoc]
    rfl
  have longer : 0 < (ascii t.word).length := by cases t <;> decide
  obtain ⟨chosen,start,size⟩ := wifi_line g line whole (by decide)
  have eight : (ascii "connect ").length = 8 := by decide
  have wifi : cmdWifi (g.typed line) 5 (line.bytes.length - 5) =
      cmdWifiConnect { g.typed line with keyconnect := true } 13 (line.bytes.length - 5 - 8) := by
    unfold cmdWifi
    rw [if_neg (cmdCmp_other "ssid " start (by decide) (by decide)),
      if_neg (cmdCmp_other "key " start (by decide) (by decide)),
      if_neg (cmdCmp_other "keyind " start (by decide) (by decide)),
      if_neg (cmdCmp_other "login " start (by decide) (by decide)),
      if_pos (cmdCmp_word "connect " start (by decide) (by decide) (by change 8 < _; omega))]
  have last : (Globals.mem { g.typed line with keyconnect := true }).drop 13 = ascii t.word ++ g.stale line := by
    change (g.typed line).mem.drop (5 + 8) = _
    rw [← List.drop_drop, start]
    exact List.drop_left' eight
  rw [Globals.runLine, chosen, handle, wifi, connect_selected last (by omega)]
  rfl

private theorem connect_queued {g : Globals} {line : Line} {t : SecType} (named : line.bytes = connectLine t)
    (free : g.wifiConQ = none) : ∃ g', g.runLine line = .ok g' ∧ g'.wifiConQ = some (g.wifiParam.request t) := by
  refine ⟨_,connect_line g line named,?_⟩
  rcases networkMsgSend_cases { g.typed line with keyconnect := true, tryConnect := true } (g.wifiParam.request t) with
    ⟨-,sent⟩ | ⟨full,-⟩
  · rw [sent]
  · exact absurd free full

private theorem wifi_argument {mem word arg rest : List UInt8} {count : Nat} (size : word.length = count)
    (start : mem.drop 5 = word ++ (arg ++ rest)) : slice mem (5 + count) arg.length = arg := by
  rw [slice, ← List.drop_drop, start, List.drop_left' size]
  exact List.take_left

private theorem wifi_done {g h : Globals} {line : Line} (chosen : g.handler line = .wifi)
    (done : cmdWifi (g.typed line) 5 (line.bytes.length - 5) = .ok h) : g.runLine line = .ok { h with cmdLen := 0 } := by
  rw [Globals.runLine, chosen, handle, done]
  rfl

/-- `wifi ssid` and `wifi key`: the argument with its terminator goes into the settings, the
string found there into the copy the storage task saves. -/
private theorem argument_stored {n m : Nat} (g : Globals) (line : Line) {word arg : List UInt8} (dst : Bytes n)
    (copy : Bytes m) (set : Bytes n → Bytes m → Globals) (named : line.bytes = ascii "wifi " ++ (word ++ arg))
    (longer : 0 < word.length) (short : arg.length < n) (room : n < m)
    (selected : (g.typed line).mem.drop 5 = word ++ (arg ++ g.stale line) →
      line.bytes.length - 5 = word.length + arg.length →
      cmdWifi (g.typed line) 5 (line.bytes.length - 5) =
        strcpyOr copy (memcpy dst (slice (g.typed line).mem (5 + word.length) arg.length ++ [0])).toList >>= fun copied =>
          .ok (set (memcpy dst (slice (g.typed line).mem (5 + word.length) arg.length ++ [0])) copied)) :
    ∃ copied, g.runLine line = .ok { set (memcpy dst (arg ++ [0])) copied with cmdLen := 0 } := by
  obtain ⟨chosen,start,length⟩ := wifi_line g line named longer
  have bound := strlen_le (memcpy dst (arg ++ [0])).toList
  rw [List.Vector.toList_length] at bound
  have copied := strcpyOr_fits copy (memcpy_terminated dst arg short) (bound.trans_lt room)
  have done : cmdWifi (g.typed line) 5 (line.bytes.length - 5) = .ok (set (memcpy dst (arg ++ [0]))
      (memcpy copy (chars (memcpy dst (arg ++ [0])).toList ++ [0]))) := by
    rw [selected start length, wifi_argument rfl start, copied]
    rfl
  exact ⟨_,wifi_done chosen done⟩

theorem ssid_stored (g : Globals) (line : Line) {ssid : List UInt8} (named : line.bytes = ascii "wifi " ++ (ascii "ssid " ++ ssid))
    (size : 1 ≤ ssid.length ∧ ssid.length ≤ 32) : ∃ g', g.runLine line = .ok g' ∧ g'.wifiConQ = g.wifiConQ ∧ g'.wifiParam =
      { g.wifiParam with ssidSaved := memcpy g.wifiParam.ssidSaved (ssid ++ [0]), ssidSavedLen := ssid.length } := by
  obtain ⟨copied,run⟩ := argument_stored g line g.wifiParam.ssidSaved g.ssidSavedCopy
    (fun saved copied => setSsid (g.typed line) saved ssid.length copied) named (by decide) (by omega) (by decide)
    fun start length => by
      have five : (ascii "ssid ").length = 5 := by decide
      have count : line.bytes.length - 5 - 5 = ssid.length := by omega
      unfold cmdWifi
      rw [if_pos (cmdCmp_word "ssid " start (by decide) (by decide) (by change 5 < _; omega)), count]
      rw [cmdWifiSsid, if_neg (by omega), five]
      rfl
  exact ⟨_,run,rfl,rfl⟩

theorem key_stored (g : Globals) (line : Line) {key : List UInt8} (named : line.bytes = ascii "wifi " ++ (ascii "key " ++ key))
    (size : 1 ≤ key.length ∧ key.length ≤ 64) : ∃ g', g.runLine line = .ok g' ∧ g'.wifiConQ = g.wifiConQ ∧
      g'.wifiParam = { g.wifiParam with key := memcpy g.wifiParam.key (key ++ [0]) } := by
  obtain ⟨copied,run⟩ := argument_stored g line g.wifiParam.key g.keyCopy
    (fun saved copied => setKey (g.typed line) saved copied) named (by decide) (by omega) (by decide)
    fun start length => by
      have four : (ascii "key ").length = 4 := by decide
      have count : line.bytes.length - 5 - 4 = key.length := by omega
      unfold cmdWifi
      rw [if_neg (cmdCmp_other "ssid " start (by decide) (by decide)),
        if_pos (cmdCmp_word "key " start (by decide) (by decide) (by change 4 < _; omega)), count]
      rw [cmdWifiKey, if_neg (by omega), four]
      rfl
  exact ⟨_,run,rfl,rfl⟩

theorem keyInd_stored (g : Globals) (line : Line) {ind : UInt8} (small : ind < 4)
    (named : line.bytes = ascii "wifi " ++ (ascii "keyind " ++ [48 + ind])) :
    ∃ g', g.runLine line = .ok g' ∧ g'.wifiConQ = g.wifiConQ ∧ g'.wifiParam = { g.wifiParam with keyInd := ind } := by
  obtain ⟨chosen,start,length⟩ := wifi_line g line named (by decide)
  have seven : (ascii "keyind ").length = 7 := by decide
  have count : line.bytes.length - 5 - 7 = 1 := by
    rw [length, seven]
    rfl
  have argument : (g.typed line).mem.getD 12 0 - 48 = ind := by
    have digits : (g.typed line).mem.drop (5 + 7) = (48 + ind) :: g.stale line := by
      rw [← List.drop_drop, start]
      exact List.drop_left' seven
    have first : (g.typed line).mem[12]? = some (48 + ind) := by
      rw [← List.head?_drop]
      exact congrArg List.head? digits
    rw [List.getD_eq_getElem?_getD, first]
    rw [UInt8.add_comm]
    exact UInt8.add_sub_cancel ind 48
  have wifi : cmdWifi (g.typed line) 5 (line.bytes.length - 5) = .ok (cmdWifiKeyind (g.typed line) 12 1) := by
    unfold cmdWifi
    rw [if_neg (cmdCmp_other "ssid " start (by decide) (by decide)),
      if_neg (cmdCmp_other "key " start (by decide) (by decide)),
      if_pos (cmdCmp_word "keyind " start (by decide) (by decide) (by change 7 < _; omega)), count]
  have set : cmdWifiKeyind (g.typed line) 12 1 = { g.typed line with wifiParam := { g.wifiParam with keyInd := ind } } := by
    unfold cmdWifiKeyind
    rw [argument]
    exact if_pos ⟨rfl,small⟩
  exact ⟨_,wifi_done chosen (wifi.trans (congrArg _ set)),rfl,rfl⟩

theorem login_stored (g : Globals) (line : Line) {login : List UInt8}
    (named : line.bytes = ascii "wifi " ++ (ascii "login " ++ login))
    (size : 1 ≤ login.length ∧ login.length < m2m1xUsrNameMax) : ∃ g', g.runLine line = .ok g' ∧
      g'.wifiConQ = g.wifiConQ ∧ g'.wifiParam = { g.wifiParam with login := memcpy g.wifiParam.login login } := by
  obtain ⟨chosen,start,length⟩ := wifi_line g line named (by decide)
  have six : (ascii "login ").length = 6 := by decide
  have count : line.bytes.length - 5 - 6 = login.length := by omega
  have argument : slice (g.typed line).mem 11 login.length = login := wifi_argument six start
  have wifi : cmdWifi (g.typed line) 5 (line.bytes.length - 5) = .ok (cmdWifiLogin (g.typed line) 11 login.length) := by
    unfold cmdWifi
    rw [if_neg (cmdCmp_other "ssid " start (by decide) (by decide)),
      if_neg (cmdCmp_other "key " start (by decide) (by decide)),
      if_neg (cmdCmp_other "keyind " start (by decide) (by decide)),
      if_pos (cmdCmp_word "login " start (by decide) (by decide) (by change 6 < _; omega)), count]
  refine ⟨_,wifi_done chosen wifi,?_,?_⟩
  · rw [cmdWifiLogin, if_pos size.2]
    rfl
  · rw [cmdWifiLogin, if_pos size.2, argument]
    rfl

theorem credentials_stored (c : Credentials) (g : Globals) (ssid key keyInd login : Line)
    (ssidNamed : ssid.bytes = ascii "wifi " ++ (ascii "ssid " ++ c.ssid))
    (keyNamed : key.bytes = ascii "wifi " ++ (ascii "key " ++ c.key))
    (keyIndNamed : keyInd.bytes = ascii "wifi " ++ (ascii "keyind " ++ [48 + c.keyInd]))
    (loginNamed : login.bytes = ascii "wifi " ++ (ascii "login " ++ c.login)) (some : 1 ≤ c.login.length) :
    ∃ g', (do
      let g ← g.runLine ssid
      let g ← g.runLine key
      let g ← g.runLine keyInd
      g.runLine login) = .ok g' ∧ g'.wifiConQ = g.wifiConQ ∧ c.Stored g'.wifiParam := by
  obtain ⟨g₁,run₁,queue₁,same₁⟩ := ssid_stored g ssid ssidNamed c.ssidSize
  obtain ⟨g₂,run₂,queue₂,same₂⟩ := key_stored g₁ key keyNamed c.keySize
  obtain ⟨g₃,run₃,queue₃,same₃⟩ := keyInd_stored g₂ keyInd c.keyIndSmall keyIndNamed
  obtain ⟨g₄,run₄,queue₄,same₄⟩ := login_stored g₃ login loginNamed ⟨some,c.loginSize⟩
  refine ⟨g₄,?_,?_,?_⟩
  · rw [run₁]
    change (g₁.runLine key >>= fun g => g.runLine keyInd >>= fun g => g.runLine login) = _
    rw [run₂]
    change (g₂.runLine keyInd >>= fun g => g.runLine login) = _
    rw [run₃]
    exact run₄
  · rw [queue₄, queue₃, queue₂, queue₁]
  · rw [same₄, same₃, same₂, same₁]
    have ssidBound := c.ssidSize.2
    have keyBound := c.keySize.2
    have loginBound := c.loginSize
    have ssidRoom : (c.ssid ++ [0]).length ≤ 33 := by
      rw [List.length_append]
      exact Nat.succ_le_succ ssidBound
    have keyRoom : (c.key ++ [0]).length ≤ 65 := by
      rw [List.length_append]
      exact Nat.succ_le_succ keyBound
    exact ⟨(List.prefix_append _ _).trans (memcpy_starts _ _ ssidRoom),rfl,memcpy_starts _ _ keyRoom,rfl,
      memcpy_starts _ _ loginBound.le⟩

private theorem string_key {key bytes : List UInt8} (stored : key ++ [0] <+: bytes) :
    strlen bytes ≤ key.length ∧ (chars bytes = key ↔ 0 ∉ key) := by
  obtain ⟨rest,rfl⟩ := stored
  rw [List.append_assoc]
  have short : strlen (key ++ ([0] ++ rest)) ≤ key.length := by
    change (chars (key ++ 0 :: rest)).length ≤ _
    rw [chars_append_stop]
    exact strlen_le key
  refine ⟨short,fun same => same ▸ zero_notMem_chars _,fun printable => ?_⟩
  exact chars_append_zero key rest printable

private theorem authBuff_key {w : WifiParam} (short : strlen w.key.toList < 65) :
    chars (memcpy (zeros 65) (strncpy (authBuff w .wpaPsk).toList m2mMaxPskLen)).toList = chars w.key.toList := by
  have packed : chars (authBuff w .wpaPsk).toList = chars w.key.toList := by
    rw [authBuff, memcpy_toList _ _ (by rw [strncpy_length]; decide)]
    exact strncpy_chars _ _ short
  have short' : strlen (authBuff w .wpaPsk).toList < m2mMaxPskLen := by
    rw [strlen, packed]
    exact short
  have whole : (memcpy (zeros 65) (strncpy (authBuff w .wpaPsk).toList m2mMaxPskLen)).toList =
      strncpy (authBuff w .wpaPsk).toList m2mMaxPskLen := memcpy_full _ _ (strncpy_length _ _)
  rw [whole, ← packed, ← strncpy_chars _ [] short', List.append_nil]

/-- The call carries the credentials just when the type is `wpa` and the key is a string. -/
theorem connect_carries (g : Globals) (line : Line) (c : Credentials) (t : SecType) (stored : c.Stored g.wifiParam)
    (named : line.bytes = connectLine t) (free : g.wifiConQ = none) :
    ∃ g' msg call, g.runLine line = .ok g' ∧ g'.wifiConQ = some msg ∧ msg.driverCall = some call ∧
      (c.Carried t call ↔ t = .wpaPsk ∧ 0 ∉ c.key) := by
  obtain ⟨g',run,queued⟩ := connect_queued named free
  refine ⟨g',g.wifiParam.request t,_,run,queued,rfl,?_⟩
  obtain ⟨short,exact_key⟩ := string_key stored.key
  have key := authBuff_key (w := g.wifiParam) (by have := c.keySize.2; omega)
  constructor
  · rintro ⟨-,-,type,same⟩
    obtain rfl : SecType.wpaPsk = t := type
    exact ⟨rfl,exact_key.mp (key.symm.trans same)⟩
  · rintro ⟨rfl,printable⟩
    have size : (g.wifiParam.ssidSaved.toList.take g.wifiParam.ssidSavedLen).length = g.wifiParam.ssidSavedLen := by
      have bound := c.ssidSize.2
      rw [List.length_take, List.Vector.toList_length, stored.ssidLen]
      omega
    have copied := memcpy_take (zeros 65) _ (by rw [size, stored.ssidLen]; exact c.ssidSize.2.trans (by decide))
    have name : (memcpy (zeros 65) (g.wifiParam.ssidSaved.toList.take g.wifiParam.ssidSavedLen)).toList.take
        g.wifiParam.ssidSavedLen = c.ssid := by
      rw [size] at copied
      rw [copied, stored.ssidLen, List.prefix_iff_eq_take.mp stored.ssid]
      simp
    exact ⟨stored.ssidLen,name,rfl,key.trans (exact_key.mpr printable)⟩

def homeCredentials : Credentials :=
  ⟨ascii "house",ascii "secret",0,ascii "me",by decide,by decide,by decide,by decide⟩

def storeHome : Outcome Globals := do
  let g ← (Globals.initial (zeros 235)).runLine (.ofText "wifi ssid house" (by decide) (by decide +kernel))
  let g ← g.runLine (.ofText "wifi key secret" (by decide) (by decide +kernel))
  let g ← g.runLine (.ofText "wifi keyind 0" (by decide) (by decide +kernel))
  g.runLine (.ofText "wifi login me" (by decide) (by decide +kernel))

private theorem home_stored : ∃ g, storeHome = .ok g ∧ g.wifiConQ = none ∧ homeCredentials.Stored g.wifiParam :=
  credentials_stored homeCredentials (Globals.initial (zeros 235)) _ _ _ _ (by decide +kernel) (by decide +kernel)
    (by decide +kernel) (by decide +kernel) (by decide)

theorem connect_carries_wpa : ∃ g, storeHome = .ok g ∧
    ∃ g' msg call, g.runLine (.ofText "wifi connect wpa" (by decide) (by decide +kernel)) = .ok g' ∧
      g'.wifiConQ = some msg ∧ msg.driverCall = some call ∧
      (homeCredentials.Carried .wpaPsk call ↔ SecType.wpaPsk = .wpaPsk ∧ 0 ∉ homeCredentials.key) := by
  obtain ⟨g,run,free,stored⟩ := home_stored
  exact ⟨g,run,connect_carries g _ homeCredentials .wpaPsk stored (by decide +kernel) free⟩

/-- `wifi connect open` asks the driver for a WPA connection. -/
theorem open_as_wpa : ∃ g, storeHome = .ok g ∧ homeCredentials.Stored g.wifiParam ∧
    ∃ g' msg call, g.runLine (.ofText "wifi connect open" (by decide) (by decide +kernel)) = .ok g' ∧
      g'.wifiConQ = some msg ∧ msg.driverCall = some call ∧ ¬ homeCredentials.Carried .openNet call := by
  obtain ⟨g,run,free,stored⟩ := home_stored
  have named : (Line.ofText "wifi connect open" (by decide) (by decide +kernel)).bytes = connectLine .openNet := by decide +kernel
  obtain ⟨g',asked,queued⟩ := connect_queued named free
  refine ⟨g,run,stored,g',_,_,asked,queued,rfl,?_⟩
  rintro ⟨-,-,type,-⟩
  exact nomatch type

end PulseFirmware
