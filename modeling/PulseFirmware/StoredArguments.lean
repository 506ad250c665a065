import Mathlib.Data.List.TakeWhile
import PulseFirmware.Recognition
import PulseFirmware.AddressText
import PulseFirmware.Storage
import PulseFirmware.Commands

/-! What a line stores of its argument, over whatever earlier lines left behind it: in the line
buffer for `token`, `internet` and `ipconfig`, in `API_link` for `link`. -/
namespace PulseFirmware
open PulseFirmware.CString

/-- The string the storage task copies to the working copy of a setting. -/
def Setting.string : Setting → Globals → Option (List UInt8)
  | .token, g => (tokenDone g).toOption.map fun g => chars g.apiToken1.toList
  | .link, g => (linkDone g).toOption.map fun g => chars g.apiLink1.toList
  | .internet, g => (internetCopy g).toOption.map fun g => chars g.isInternet1.toList
  | _, _ => none

def Setting.command : Setting → Option (Handler × String)
  | .token => some (.token,"token ")
  | .link => some (.link,"link ")
  | .internet => some (.internet,"internet ")
  | _ => none

/-- A line of the command and its argument. -/
def Setting.Carries (x : Setting) (line : Line) (a : List UInt8) : Prop :=
  ∃ h word, x.command = some (h,word) ∧ line.bytes = ascii word ++ a ∧ 1 ≤ a.length ∧ a.length ≤ 239 ∧ 0 ∉ a

/-- The byte that stands behind an argument of `n` bytes when the string is copied. -/
def Setting.behind : Setting → Globals → Nat → Option UInt8
  | .token, g, n => g.cmdBuff.toList[6 + n]?
  | .link, g, n => g.apiLink.toList[n]?
  | .internet, g, n => g.cmdBuff.toList[9 + n]?
  | _, _, _ => none

private theorem string_start {bytes a : List UInt8} (printable : 0 ∉ a) :
    0 ∈ bytes ∧ chars bytes = a ↔ a ++ [0] <+: bytes := by
  constructor
  · rintro ⟨terminated,rfl⟩
    exact chars_starts terminated
  · rintro ⟨rest,rfl⟩
    refine ⟨by simp,?_⟩
    rw [List.append_assoc]
    exact chars_append_zero a rest printable

theorem string_copied {n : Nat} (dst src : Bytes n) {a : List UInt8} (printable : 0 ∉ a) :
    (strcpyOr dst src.toList).toOption.map (fun copy => chars copy.toList) = some a ↔ a ++ [0] <+: src.toList := by
  rw [← string_start printable]
  constructor
  · intro seen
    obtain ⟨copy,copied,same⟩ := observed seen
    refine ⟨?_,(strcpyOr_chars copied).symm.trans same⟩
    by_contra endless
    simp [strcpyOr, strcpy, endless] at copied
  · rintro ⟨terminated,rfl⟩
    have short : strlen src.toList < n := by
      have start := (string_start (zero_notMem_chars src.toList)).mp ⟨terminated,rfl⟩
      have bound := start.length_le
      rw [List.length_append, src.toList_length] at bound
      exact bound
    have copied := strcpyOr_fits dst terminated short
    rw [copied]
    exact congrArg some (strcpyOr_chars copied)

private theorem token_string (g : Globals) :
    Setting.token.string g = (strcpyOr g.apiToken1 g.apiToken.toList).toOption.map fun copy => chars copy.toList := by
  change (tokenDone g).toOption.map _ = _
  unfold tokenDone
  cases strcpyOr g.apiToken1 g.apiToken.toList <;> rfl

private theorem link_string (g : Globals) :
    Setting.link.string g = (strcpyOr g.apiLink1 g.apiLink.toList).toOption.map fun copy => chars copy.toList := by
  change (linkDone g).toOption.map _ = _
  unfold linkDone
  cases strcpyOr g.apiLink1 g.apiLink.toList <;> rfl

private theorem internet_string (g : Globals) :
    Setting.internet.string g = (strcpyOr g.isInternet1 g.isInternet.toList).toOption.map fun copy => chars copy.toList := by
  change (internetCopy g).toOption.map _ = _
  unfold internetCopy
  cases strcpyOr g.isInternet1 g.isInternet.toList <;> rfl

private theorem terminated_at {a rest : List UInt8} : a ++ [0] <+: a ++ rest ↔ rest.head? = some 0 := by
  rw [List.prefix_append_right_inj]
  cases rest with
  | nil => simp
  | cons b rest => simp [List.cons_prefix_cons, eq_comm]

private theorem stale_head (g : Globals) (line : Line) (short : line.bytes.length < 256) :
    (g.stale line).head? = g.cmdBuff.toList[line.bytes.length]? := by
  have size := g.cmdBuff.toList_length
  rw [Globals.stale, List.head?_append, List.head?_drop]
  have inside : line.bytes.length < g.cmdBuff.toList.length := by omega
  rw [List.getElem?_eq_getElem inside]
  rfl

private theorem window_exact (g : Globals) (line : Line) {word a : List UInt8} (split : line.bytes = word ++ a)
    (short : a.length ≤ 239) (small : word.length ≤ 16) :
    a ++ [0] <+: slice (g.typed line).mem word.length 240 ↔ g.cmdBuff.toList[word.length + a.length]? = some 0 := by
  have size : line.bytes.length = word.length + a.length := by rw [split, List.length_append]
  rw [typed_mem, split, slice, List.append_assoc, List.drop_left, List.prefix_take_iff,
    and_iff_left (by simp; omega), terminated_at, stale_head g line (by omega), size]

theorem argument_handler (g : Globals) (line : Line) {h : Handler} {word a : List UInt8} (member : h ∈ commands)
    (unspaced : h.spaced = false) (split : line.bytes = word ++ a) (starts : h.word <+: word) : g.handler line = h := by
  apply dispatch_starts member
  rw [compared_iff member, typed_mem, split, List.append_assoc]
  exact ⟨starts.trans (List.prefix_append _ _),by simp [unspaced]⟩

/-- A line that copies 240 bytes from behind its word. -/
private theorem window_stored {x : Setting} {g g' : Globals} {line : Line} {word a : List UInt8} (source copy : Globals → Bytes 240)
    (string : ∀ h, x.string h = (strcpyOr (copy h) (source h).toList).toOption.map fun copied => chars copied.toList)
    (saved : ∀ h, x.saved h = [(source h).toList]) (split : line.bytes = word ++ a) (short : a.length ≤ 239)
    (printable : 0 ∉ a) (small : word.length ≤ 16)
    (stored : source g' = memcpy (source g) (slice (g.typed line).mem word.length 240)) (h : Globals)
    (same : x.saved h = x.saved g') : x.string h = some a ↔ g.cmdBuff.toList[word.length + a.length]? = some 0 := by
  rw [saved, saved, stored] at same
  have kept := (List.cons.inj same).1
  rw [string, string_copied _ _ printable, kept, memcpy_full _ _ (mem_slice_length _ _ (by omega))]
  exact window_exact g line split short small

private theorem token_exact (g : Globals) (line : Line) {a : List UInt8} (split : line.bytes = ascii "token " ++ a)
    (short : a.length ≤ 239) (printable : 0 ∉ a) :
    ∃ g', g.runLine line = .ok g' ∧ ∀ h : Globals, Setting.token.saved h = Setting.token.saved g' →
      (Setting.token.string h = some a ↔ Setting.token.behind g a.length = some 0) := by
  have chosen : g.handler line = .token := argument_handler g line (by decide) (by decide) split (by decide)
  exact ⟨_,by rw [Globals.runLine, chosen]; rfl,
    window_stored Globals.apiToken Globals.apiToken1 token_string (fun _ => rfl) split short printable (by decide) rfl⟩

private theorem internet_exact (g : Globals) (line : Line) {a : List UInt8} (split : line.bytes = ascii "internet " ++ a)
    (short : a.length ≤ 239) (printable : 0 ∉ a) :
    ∃ g', g.runLine line = .ok g' ∧ ∀ h : Globals, Setting.internet.saved h = Setting.internet.saved g' →
      (Setting.internet.string h = some a ↔ Setting.internet.behind g a.length = some 0) := by
  have chosen : g.handler line = .internet := argument_handler g line (by decide) (by decide) split (by decide)
  exact ⟨_,by rw [Globals.runLine, chosen]; rfl,
    window_stored Globals.isInternet Globals.isInternet1 internet_string (fun _ => rfl) split short printable (by decide) rfl⟩

private theorem link_exact (g : Globals) (line : Line) {a : List UInt8} (split : line.bytes = ascii "link " ++ a)
    (short : a.length ≤ 239) (printable : 0 ∉ a) :
    ∃ g', g.runLine line = .ok g' ∧ ∀ h : Globals, Setting.link.saved h = Setting.link.saved g' →
      (Setting.link.string h = some a ↔ Setting.link.behind g a.length = some 0) := by
  have chosen : g.handler line = .link := argument_handler g line (by decide) (by decide) split (by decide)
  have size : line.bytes.length = 5 + a.length := by rw [split, List.length_append]; rfl
  have fits : ¬ (line.bytes.length < 5 ∨ 245 < line.bytes.length) := by omega
  have argument : slice (g.typed line).mem 5 (line.bytes.length - 5) = a := by
    rw [typed_mem, size, split, slice, List.append_assoc, Nat.add_sub_cancel_left]
    exact List.take_left
  refine ⟨_,by rw [Globals.runLine, chosen, handle, cmdLink, if_neg fits]; rfl,fun h same => ?_⟩
  have source := (List.cons.inj same).1
  change h.apiLink.toList = (memcpy g.apiLink (slice (g.typed line).mem 5 (line.bytes.length - 5))).toList at source
  rw [link_string, string_copied _ _ printable, source, argument, memcpy_toList _ _ (by omega), terminated_at,
    List.head?_drop]
  rfl

/-- The addresses `cmd_ipconfig` stores, in turn; it gives up at one that is zero. -/
def addresses (start : List UInt8) : Option (List UInt32) := do
  let (ip,start) ← ipToInt start
  if ip = 0 then return [0]
  let (gw,start) ← ipToInt start
  if gw = 0 then return [ip,0]
  let (mask,_) ← ipToInt start
  return [ip,gw,mask]

def stored (values old : List UInt32) : List UInt32 := values ++ old.drop values.length

def Globals.parsed (g : Globals) (line : Line) : Option (List UInt32) :=
  (ipconfigIface (g.typed line).mem line.bytes.length).bind fun (_,off) =>
    addresses (ipconfigArgs (g.typed line).mem off)

def Iface.word : Iface → String
  | .wlan => "ipconfig wlan "
  | .eth => "ipconfig eth "

def ipconfigText (iface : Iface) (ip gw mask : Dotted) : List UInt8 :=
  ascii iface.word ++ (ip.text ++ 32 :: (gw.text ++ 32 :: mask.text))

/-- What a line with these addresses stores by itself. -/
def given (ip gw mask : UInt32) : List UInt32 := if ip = 0 then [0] else if gw = 0 then [ip,0] else [ip,gw,mask]

def Globals.staleDigits (g : Globals) (line : Line) : List UInt8 := (g.stale line).takeWhile digit

private theorem stale_split (g : Globals) (line : Line) : (∀ c ∈ g.staleDigits line, digit c = true) ∧
    ∃ stop rest, digit stop = false ∧ g.stale line = g.staleDigits line ++ stop :: rest := by
  have ends : ¬ digit (line.bytes.length / 256).toUInt8 = true := by
    have bound := line.fits
    have high : line.bytes.length / 256 = 0 ∨ line.bytes.length / 256 = 1 := by omega
    rcases high with zero | one
    · rw [zero]; decide
    · rw [one]; decide
  refine ⟨fun c => List.mem_takeWhile_imp,?_⟩
  have whole := List.takeWhile_append_dropWhile (p := digit) (l := g.stale line)
  cases tail : (g.stale line).dropWhile digit with
  | nil => exact absurd (List.dropWhile_eq_nil_iff.mp tail _ (by simp [Globals.stale])) ends
  | cons stop rest =>
    have stops := List.head?_dropWhile_not digit (g.stale line)
    rw [tail] at stops whole
    exact ⟨stop,rest,by simpa using stops,whole.symm⟩

theorem dotted_start (q : Dotted) (rest : List UInt8) : ¬ ascii "dhcp" <+: q.text ++ rest := by
  intro starts
  obtain ⟨c,digits,split⟩ := List.exists_cons_of_ne_nil q.a.nonempty
  have numeric := q.a.numeric c (by rw [split]; exact List.mem_cons_self)
  rw [Dotted.text, split] at starts
  obtain rfl : 100 = c := (List.cons_prefix_cons.mp starts).1
  contradiction

/-- The interface of a line is read, and behind it something follows. -/
theorem iface_found (g : Globals) (line : Line) {iface : Iface} {rest : List UInt8} (nonempty : rest ≠ [])
    (split : line.bytes = ascii iface.word ++ rest) :
    ipconfigIface (g.typed line).mem line.bytes.length = some (iface,(ascii iface.word).length) := by
  have text : (g.typed line).mem = ascii iface.word ++ (rest ++ g.stale line) := by
    rw [typed_mem, split, List.append_assoc]
  have longer : (ascii iface.word).length < line.bytes.length := by
    rw [split, List.length_append]
    exact Nat.lt_add_of_pos_right (List.length_pos_iff.mpr nonempty)
  cases iface with
  | wlan =>
    refine if_pos ((cmdCmp_iff (by decide) (by decide) _ _ _).mpr ⟨?_,?_⟩)
    · rw [text]
      exact List.prefix_append _ _
    · change 5 < line.bytes.length - 9
      change 14 < line.bytes.length at longer
      omega
  | eth =>
    have other : ¬ cmdCmp (g.typed line).mem 9 (line.bytes.length - 9) "wlan " = true := by
      rw [cmdCmp_iff (by decide) (by decide), text]
      rintro ⟨starts,-⟩
      exact absurd (List.cons_prefix_cons.mp starts).1 (by decide)
    refine (if_neg other).trans (if_pos ((cmdCmp_iff (by decide) (by decide) _ _ _).mpr ⟨?_,?_⟩))
    · rw [text]
      exact List.prefix_append _ _
    · change 4 < line.bytes.length - 9
      change 13 < line.bytes.length at longer
      omega

theorem ipconfig_handler (g : Globals) (line : Line) {iface : Iface} {rest : List UInt8}
    (split : line.bytes = ascii iface.word ++ rest) : g.handler line = .ipconfig := by
  refine dispatch_starts (by decide) ((compared_iff (by decide) _ _).mpr ⟨?_,fun _ => ?_⟩)
  · rw [typed_mem, split, List.append_assoc]
    refine List.IsPrefix.trans ?_ (List.prefix_append _ _)
    cases iface <;> decide
  · rw [split, List.length_append]
    cases iface <;> exact Nat.lt_add_right _ (by decide)

private theorem cmdIpconfig_found {g : Globals} {len off : Nat} {iface : Iface}
    (found : ipconfigIface g.mem len = some (iface,off)) :
    cmdIpconfig g 9 (len - 9) = cmdIpconfigIface g iface off (len - off) := by
  unfold ipconfigIface at found
  unfold cmdIpconfig
  split at found
  next wlan =>
    cases found
    rw [if_pos wlan, Nat.sub_sub]
  next other =>
    split at found
    next eth =>
      cases found
      rw [if_neg other, if_pos eth, Nat.sub_sub]
    next => contradiction

theorem dhcp_line (g : Globals) (line : Line) {iface : Iface} (text : line.bytes = ascii iface.word ++ ascii "dhcp") :
    g.runLine line = .ok { (cmdIpconfigDhcp (g.typed line) iface).1 with cmdLen := 0 } := by
  have dhcp : cmdCmp (g.typed line).mem (ascii iface.word).length (line.bytes.length - (ascii iface.word).length) "dhcp" = true := by
    refine (cmdCmp_iff (by decide) (by decide) _ _ _).mpr ⟨?_,?_⟩
    · rw [typed_mem, text, List.append_assoc, List.drop_left]
      exact List.prefix_append _ _
    · rw [if_neg (by decide), text, List.length_append, Nat.add_sub_cancel_left]
  rw [Globals.runLine, ipconfig_handler g line text, handle, cmdIpconfig_found (iface_found g line (by decide) text),
    cmdIpconfigIface, if_pos dhcp]
  rfl

def Globals.addressText (g : Globals) (line : Line) (iface : Iface) : List UInt8 :=
  ipconfigArgs (g.typed line).mem (ascii iface.word).length

/-- A line that gives an interface addresses, which are those that are read from it. -/
theorem address_line (g : Globals) (line : Line) {iface : Iface} {ip gw mask : Dotted}
    (text : line.bytes = ipconfigText iface ip gw mask) : g.parsed line = addresses (g.addressText line iface) ∧
      g.runLine line = do
        let (g,_) ← cmdIpconfigStatic (g.typed line) iface (g.addressText line iface)
        return { g with cmdLen := 0 } := by
  have nonempty : ip.text ++ 32 :: (gw.text ++ 32 :: mask.text) ≠ [] :=
    List.append_ne_nil_of_right_ne_nil _ (List.cons_ne_nil _ _)
  have found := iface_found g line nonempty text
  have other : ¬ cmdCmp (g.typed line).mem (ascii iface.word).length (line.bytes.length - (ascii iface.word).length) "dhcp" =
      true := by
    rw [cmdCmp_iff (by decide) (by decide)]
    rintro ⟨starts,-⟩
    rw [typed_mem, text, ipconfigText, List.append_assoc, List.drop_left, List.append_assoc] at starts
    exact dotted_start ip _ starts
  constructor
  · rw [Globals.parsed, found]
    rfl
  · rw [Globals.runLine, ipconfig_handler g line text, handle, cmdIpconfig_found found, cmdIpconfigIface, if_neg other]
    change ((cmdIpconfigStatic (g.typed line) iface (g.addressText line iface) >>= _) >>= _) = _
    cases cmdIpconfigStatic (g.typed line) iface (g.addressText line iface) <;> rfl

private theorem parsed_behind (g : Globals) (line : Line) {iface : Iface} {off : Nat} {q : Dotted} {rest : List UInt8}
    (found : ipconfigIface (g.typed line).mem line.bytes.length = some (iface,off))
    (start : (g.typed line).mem.drop off = q.text ++ rest) : g.parsed line = addresses (q.text ++ rest) := by
  have other : ¬ (0 < (ascii "dhcp").length ∧ strncmpEq ((g.typed line).mem.drop off) (literal "dhcp") (ascii "dhcp").length) := by
    rintro ⟨-,same⟩
    rw [start] at same
    exact dotted_start q rest ((strncmpEq_append (by decide) _ [0]).mp same)
  rw [Globals.parsed, found, Option.bind_some]
  dsimp only
  rw [ipconfigArgs, cmdCmpArg, if_neg other, start]

private theorem ipconfig_start (g : Globals) (line : Line) {iface : Iface} {ip gw mask : Dotted}
    (split : line.bytes = ipconfigText iface ip gw mask) :
    g.parsed line = addresses (ip.text ++ 32 :: (gw.text ++ 32 :: (mask.text ++ g.stale line))) := by
  have text : (g.typed line).mem = ascii iface.word ++ (ip.text ++ 32 :: (gw.text ++ 32 :: (mask.text ++ g.stale line))) := by
    rw [typed_mem, split]
    simp [ipconfigText]
  refine parsed_behind g line (iface_found g line ?_ split) (by rw [text, List.drop_left])
  exact List.append_ne_nil_of_right_ne_nil _ (List.cons_ne_nil _ _)

private theorem addresses_exact {ip gw mask : Dotted} {stale : List UInt8} (numeric : ∀ c ∈ stale, digit c = true)
    {stop : UInt8} (ends : digit stop = false) (rest : List UInt8) :
    addresses (ip.text ++ 32 :: (gw.text ++ 32 :: (mask.text ++ (stale ++ stop :: rest)))) =
      some (given ip.value gw.value
        (if 256 ≤ mask.last stale then 0 else mask.upTo (mask.last stale).toInt32.toUInt32)) := by
  unfold addresses given
  rw [ipToInt_exact ip (by decide)]
  by_cases zero : ip.value = 0
  · simp [zero]
  · simp only [zero, if_false, Option.bind_eq_bind, Option.bind_some]
    rw [ipToInt_exact gw (by decide)]
    by_cases zero' : gw.value = 0
    · simp [zero']
    · simp only [zero', if_false, Option.bind_some]
      rw [ipToInt_text mask numeric ends]
      split <;> rfl

/-- The digits behind the line do not change the last number of the mask. -/
def Dotted.Ends (mask : Dotted) (stale : List UInt8) : Prop :=
  mask.last stale = .ofNat (decimal mask.d.digits) ∨ (256 ≤ mask.last stale ∧ mask.value = 0)

private theorem given_exact (ip gw mask other : UInt32) :
    given ip gw other = given ip gw mask ↔ ip = 0 ∨ gw = 0 ∨ other = mask := by
  unfold given
  by_cases zero : ip = 0
  · simp [zero]
  · by_cases zero' : gw = 0
    · simp [zero']
    · simp [zero, zero']

/-- A line with addresses is read to its end, and only the mask can differ from the text. -/
theorem parsed_given (g : Globals) (line : Line) {iface : Iface} {ip gw mask : Dotted}
    (split : line.bytes = ipconfigText iface ip gw mask) :
    ∃ m, g.parsed line = some (given ip.value gw.value m) ∧ (m = mask.value ↔ mask.Ends (g.staleDigits line)) := by
  obtain ⟨numeric,stop,rest,ends,stale⟩ := stale_split g line
  rw [ipconfig_start g line split, stale, addresses_exact numeric ends rest]
  exact ⟨_,rfl,last_exact mask _⟩

private theorem ipconfig_exact (g : Globals) (line : Line) {iface : Iface} {ip gw mask : Dotted}
    (split : line.bytes = ipconfigText iface ip gw mask) :
    g.parsed line = some (given ip.value gw.value mask.value) ↔
      ip.value = 0 ∨ gw.value = 0 ∨ mask.Ends (g.staleDigits line) := by
  obtain ⟨m,parsed,exact_mask⟩ := parsed_given g line split
  rw [parsed, Option.some_inj, given_exact, exact_mask]

/-- What a line carries is stored as it is just when, behind the argument, the line buffer (for
`link`, the old `API_link`) holds a terminator, and behind an `ipconfig` line no digits that
change the mask. -/
theorem argument_exact (g : Globals) (line : Line) (empty : g.cmdLen = 0) :
    (∀ x a, Setting.Carries x line a → ∃ g', cmdFeed g (line.bytes ++ [10]) = .ok (g',0) ∧
      ∀ h : Globals, x.saved h = x.saved g' → (x.string h = some a ↔ x.behind g a.length = some 0)) ∧
    (∀ iface ip gw mask, line.bytes = ipconfigText iface ip gw mask →
      (g.parsed line = some (given ip.value gw.value mask.value) ↔
        ip.value = 0 ∨ gw.value = 0 ∨ mask.Ends (g.staleDigits line))) := by
  refine ⟨?_,fun iface ip gw mask split => ipconfig_exact g line split⟩
  rintro x a ⟨h,word,command,split,-,short,printable⟩
  have fed (kept : ∃ g', g.runLine line = .ok g' ∧ ∀ h : Globals, x.saved h = x.saved g' →
      (x.string h = some a ↔ x.behind g a.length = some 0)) : ∃ g', cmdFeed g (line.bytes ++ [10]) = .ok (g',0) ∧
      ∀ h : Globals, x.saved h = x.saved g' → (x.string h = some a ↔ x.behind g a.length = some 0) := by
    obtain ⟨g',done,exact⟩ := kept
    exact ⟨g',by rw [cmdFeed_line g line empty, done]; rfl,exact⟩
  cases x with
  | token => cases command; exact fed (token_exact g line split short printable)
  | link => cases command; exact fed (link_exact g line split short printable)
  | internet => cases command; exact fed (internet_exact g line split short printable)
  | ssid | key | config | ip | dhcp => contradiction

def tokenLine : Line := .ofText "token xy" (by decide) (by decide +kernel)

theorem argument_exact_fresh : ∃ g', cmdFeed (Globals.initial (zeros 235)) (tokenLine.bytes ++ [10]) = .ok (g',0) ∧
    ∀ h : Globals, Setting.token.saved h = Setting.token.saved g' →
      (Setting.token.string h = some [120,121] ↔ Setting.token.behind (Globals.initial (zeros 235)) 2 = some 0) :=
  (argument_exact (Globals.initial (zeros 235)) tokenLine rfl).1 .token [120,121]
    ⟨.token,"token ",rfl,by decide,by decide,by decide,by decide⟩

private theorem token_runs : (cmdFeed (Globals.initial (zeros 235)) (ascii "token abcd" ++ [10])).toOption.map
    (fun r => decide (r.2 = 0 ∧ r.1.cmdLen = 0 ∧ (cmdFeed r.1 (tokenLine.bytes ++ [10])).toOption.map
      (fun r' => decide (r'.2 = 0 ∧ Setting.token.string r'.1 = some (ascii "xycd"))) = some true)) = some true := by
  decide +kernel

/-- After a longer token, its end is stored behind the shorter one. -/
theorem token_leaks : ∃ g g', cmdFeed (Globals.initial (zeros 235)) (ascii "token abcd" ++ [10]) = .ok (g,0) ∧
    g.cmdLen = 0 ∧ cmdFeed g (tokenLine.bytes ++ [10]) = .ok (g',0) ∧
    Setting.token.Carries tokenLine (ascii "xy") ∧ Setting.token.string g' ≠ some (ascii "xy") := by
  obtain ⟨⟨g,code⟩,run,seen⟩ := observed token_runs
  obtain ⟨rfl,empty,rest⟩ := of_decide_eq_true seen
  obtain ⟨⟨g',code'⟩,run',seen'⟩ := observed rest
  obtain ⟨rfl,stored⟩ := of_decide_eq_true seen'
  refine ⟨g,g',run,empty,run',⟨.token,"token ",rfl,by decide,by decide,by decide,by decide⟩,?_⟩
  rw [stored]
  decide

end PulseFirmware
