import PulseFirmware.Commands
import PulseFirmware.Recognition
import PulseFirmware.Writes

/-! Replies to `test ethernet`. Every run of `cmd_parse` counts, also that of the empty line
between a carriage return and a line feed, and only every other run replies. -/
namespace PulseFirmware
open PulseFirmware.CString PulseFirmware.Run

def Ethernet (p : Bytes 256) : Prop := ascii "test ethernet" <+: p.toList

instance (p : Bytes 256) : Decidable (Ethernet p) := inferInstanceAs (Decidable (_ <+: _))

def Globals.ethernets (g : Globals) : Nat := g.bleOut.count .successEthernet

private structure Kept (g g' : Globals) : Prop where
  times : g'.timesCount = g.timesCount
  front : g'.cmdBuff.toList.take 5 = g.cmdBuff.toList.take 5
  ethernets : g'.ethernets = g.ethernets

private theorem Kept.refl (g : Globals) : Kept g g := ⟨rfl,rfl,rfl⟩

private theorem kept_send (g : Globals) (msg : NetworkMsg) : Kept g (networkMsgSend g msg).1 := by
  rcases networkMsgSend_cases g msg with ⟨_,sent⟩ | ⟨_,sent⟩
  · rw [sent]
    exact ⟨rfl,rfl,rfl⟩
  · rw [sent]
    exact .refl g

private theorem memcpyAt_front (p : Bytes 256) {off : Nat} (behind : 5 ≤ off) (bytes : List UInt8) :
    (memcpyAt p off bytes).toList.take 5 = p.toList.take 5 := by
  change ((p.toList.take off ++ bytes ++ p.toList.drop (off + bytes.length)).take 256).take 5 = _
  have size : 5 ≤ (p.toList.take off).length := by
    rw [List.length_take, p.toList_length]
    exact Nat.le_min.mpr ⟨behind,by decide⟩
  rw [List.take_take, Nat.min_eq_left (show 5 ≤ 256 by decide), List.append_assoc, List.take_append_of_le_length size,
    List.take_take, Nat.min_eq_left behind]

private theorem ethernets_reply (g : Globals) (reply : Reply) (other : reply ≠ .successEthernet) :
    (g.reply reply).ethernets = g.ethernets := by
  change (g.bleOut ++ [reply]).count .successEthernet = _
  rw [List.count_append, List.count_singleton, if_neg (by simpa using other)]
  rfl

private theorem kept_wifi {g g' : Globals} {len : Nat} (done : cmdWifi g 5 (len - 5) = .ok g') : Kept g g' := by
  cases cmdWifi_taken done with
  | ssid => exact ⟨rfl,memcpyAt_front g.cmdBuff (Nat.le_refl 5) _,ethernets_reply _ _ (by decide)⟩
  | key => exact ⟨rfl,memcpyAt_front g.cmdBuff (Nat.le_refl 5) _,ethernets_reply _ _ (by decide)⟩
  | ssidLong | keyLong => exact .refl g
  | keyind =>
    unfold cmdWifiKeyind
    dsimp only
    split <;> exact ⟨rfl,rfl,rfl⟩
  | login =>
    unfold cmdWifiLogin
    split
    next => exact ⟨rfl,memcpyAt_front g.cmdBuff (by omega) _,rfl⟩
    next => exact .refl g
  | request keyconnect tryConnect msg =>
    obtain ⟨times,front,ethernets⟩ := kept_send { g with keyconnect := keyconnect, tryConnect := tryConnect } msg
    exact ⟨times,front,ethernets⟩
  | idle => exact ⟨rfl,rfl,rfl⟩

private structure Same (g g' : Globals) : Prop where
  times : g'.timesCount = g.timesCount
  buff : g'.cmdBuff = g.cmdBuff
  ethernets : g'.ethernets = g.ethernets

private theorem same_send (g : Globals) (msg : NetworkMsg) : Same g (networkMsgSend g msg).1 := by
  rcases networkMsgSend_cases g msg with ⟨_,sent⟩ | ⟨_,sent⟩
  · rw [sent]
    exact ⟨rfl,rfl,rfl⟩
  · rw [sent]
    exact ⟨rfl,rfl,rfl⟩

private theorem same_ipconfig {g g' : Globals} {len : Nat} {code : Int}
    (done : cmdIpconfig g 9 (len - 9) = .ok (g',code)) : Same g g' := by
  rcases cmdIpconfig_cases done with ⟨_,rfl,_⟩ | ⟨iface,off,_,⟨_,dhcp⟩ | ⟨_,address⟩⟩
  · exact ⟨rfl,rfl,rfl⟩
  · have same := congrArg Prod.fst dhcp
    subst same
    cases iface with
    | wlan =>
      obtain ⟨times,buff,ethernets⟩ := same_send (setDhcpCheck g "true" "false") (.ipsettings ⟨true,.wlan,0,0,0⟩)
      exact ⟨times,buff,ethernets⟩
    | eth =>
      obtain ⟨times,buff,ethernets⟩ := same_send (setDhcpCheck g "false" "true") (.ipsettings ⟨true,.eth,0,0,0⟩)
      exact ⟨times,buff,ethernets⟩
  · rcases cmdIpconfigStatic_cases address with ⟨_,addr,gw,mask,rfl⟩ | ⟨addr,gw,mask,_,_,_,_,sent⟩
    · exact ⟨rfl,rfl,rfl⟩
    · have same := congrArg Prod.fst sent
      subst same
      obtain ⟨times,buff,ethernets⟩ := same_send (setStatic g iface addr gw mask) (.ipsettings ⟨false,iface,addr,gw,mask⟩)
      cases iface <;> exact ⟨times,buff,ethernets⟩

private theorem same_handle {g g' : Globals} {len : Nat} {h : Handler} (done : handle g len h = .ok g')
    (wifi : h ≠ .wifi) (ethernet : h ≠ .testEthernet) : Same g g' := by
  cases h with
  | wifi => contradiction
  | testEthernet => contradiction
  | restartPulse => contradiction
  | sensors =>
    cases done
    have replied := ethernets_reply g .circuit1 (by decide)
    unfold cmdSensors
    split
    next => exact ⟨rfl,rfl,replied⟩
    next => split <;> exact ⟨rfl,rfl,replied⟩
  | link =>
    simp only [handle, cmdLink] at done
    split at done
    next => contradiction
    next => cases done; exact ⟨rfl,rfl,rfl⟩
  | getVersion => cases done; exact ⟨rfl,rfl,ethernets_reply g .successVersion (by decide)⟩
  | getMac => cases done; exact same_send g _
  | getWifimac => cases done; exact same_send g _
  | ipconfig =>
    obtain ⟨⟨middle,code⟩,ran,rest⟩ := bind_ok done
    cases rest
    exact same_ipconfig ran
  | config | token | internet | resetPulse | testInternet | activateDfutarg | none =>
    cases done
    exact ⟨rfl,rfl,rfl⟩

private theorem dispatch_ethernet (g : Globals) (len : Nat) : dispatch g.mem len = .testEthernet ↔ Ethernet g.cmdBuff := by
  have word : Handler.testEthernet.word = ascii "test ethernet" := rfl
  have unspaced : ¬ Handler.testEthernet.spaced = true := by decide
  rw [dispatch_iff (by decide), compared_iff (by decide), word]
  constructor
  · rintro ⟨starts,_⟩
    have inside : (ascii "test ethernet").length ≤ g.cmdBuff.toList.length := by
      rw [g.cmdBuff.toList_length]
      decide
    exact List.prefix_of_prefix_length_le starts (List.prefix_append _ _) inside
  · exact fun starts => ⟨starts.trans (List.prefix_append _ _),fun spaced => absurd spaced unspaced⟩

private theorem wifi_other {g g' : Globals} {len : Nat} (selected : dispatch g.mem len = .wifi)
    (front : g'.cmdBuff.toList.take 5 = g.cmdBuff.toList.take 5) : ¬ Ethernet g'.cmdBuff := by
  intro starts
  have wifi := ((compared_iff (by decide) g.mem len).mp (dispatch_compared (by decide) selected)).1
  have behind : g.cmdBuff.toList <+: g.mem := List.prefix_append _ _
  have shown : ascii "wifi " <+: g.cmdBuff.toList := by
    refine List.prefix_of_prefix_length_le wifi behind ?_
    rw [g.cmdBuff.toList_length]
    decide
  have first : ascii "wifi " = g.cmdBuff.toList.take 5 := List.prefix_iff_eq_take.mp shown
  have second : (ascii "test ethernet").take 5 = g'.cmdBuff.toList.take 5 := by
    rw [List.prefix_iff_eq_take.mp starts, List.take_take]
    rfl
  rw [front, ← first] at second
  exact absurd second (by decide +kernel)

private theorem parity (t : UInt32) : (t + 1) % 2 = 0 ↔ ¬ t % 2 = 0 := by
  rw [← UInt32.toNat_inj, ← UInt32.toNat_inj, UInt32.toNat_mod, UInt32.toNat_mod, UInt32.toNat_add]
  change (t.toNat + 1) % 4294967296 % 2 = 0 ↔ ¬ t.toNat % 2 = 0
  omega

private theorem parse_ethernet {g g' : Globals} {p p' : Bytes 256} {len : Nat} (done : parseGlobals g p len = .ok (g',p')) :
    g'.timesCount = g.timesCount + 1 ∧ (Ethernet p' ↔ Ethernet p) ∧
      g'.ethernets = g.ethernets + if Ethernet p ∧ g.timesCount % 2 = 0 then 1 else 0 := by
  obtain ⟨after,handled,rest⟩ := bind_ok done
  cases rest
  rw [cmdParse] at handled
  have command := dispatch_ethernet { g with cmdBuff := p, cmdLen := len } len
  dsimp only at command
  by_cases ethernet : dispatch (Globals.mem { g with cmdBuff := p, cmdLen := len }) len = .testEthernet
  · have starts := command.mp ethernet
    rw [ethernet] at handled
    cases handled
    by_cases even : g.timesCount % 2 = 0
    · rw [if_neg fun odd => (parity g.timesCount).mp odd even, if_pos ⟨starts,even⟩]
      refine ⟨rfl,Iff.rfl,?_⟩
      exact List.count_append.trans (congrArg _ List.count_singleton_self)
    · rw [if_pos ((parity g.timesCount).mpr even), if_neg fun both => even both.2]
      exact ⟨rfl,Iff.rfl,rfl⟩
  · have other : ¬ Ethernet p := fun starts => ethernet (command.mpr starts)
    rw [if_neg fun both => other both.1]
    by_cases wifi : dispatch (Globals.mem { g with cmdBuff := p, cmdLen := len }) len = .wifi
    · rw [wifi] at handled
      obtain ⟨times,front,ethernets⟩ := kept_wifi handled
      exact ⟨times,iff_of_false (wifi_other wifi front) other,ethernets⟩
    · obtain ⟨times,buff,ethernets⟩ := same_handle handled wifi ethernet
      exact ⟨times,by rw [buff],ethernets⟩

inductive LineEnd
  | cr
  | lf
  | crlf

def LineEnd.bytes : LineEnd → List UInt8
  | .cr => [13]
  | .lf => [10]
  | .crlf => [13,10]

/-- A line on its way through `cmd_feed`: the bytes of its text with the starts of writes among
them, its end, and the writes that start between the two bytes of a `crlf`. -/
structure LineIn where
  body : List (Option UInt8)
  plain : ∀ b ∈ body.reduceOption, terminator b = false
  stop : LineEnd
  between : Nat

def LineIn.text (l : LineIn) : List UInt8 := l.body.reduceOption

def LineIn.ending (l : LineIn) : List (Option UInt8) :=
  match l.stop with
  | .cr => [some 13]
  | .lf => [some 10]
  | .crlf => some 13 :: (List.replicate l.between none ++ [some 10])

def LineIn.arrival (l : LineIn) : List (Option UInt8) := l.body ++ l.ending

private theorem starts_before {es : List (Option UInt8)} {b : UInt8} {rest : List UInt8}
    (bytes : es.reduceOption = b :: rest) :
    ∃ n later, es = List.replicate n none ++ some b :: later ∧ later.reduceOption = rest := by
  induction es with
  | nil => contradiction
  | cons e es ih =>
    cases e with
    | none =>
      obtain ⟨n,later,rfl,rest⟩ := ih bytes
      exact ⟨n + 1,later,rfl,rest⟩
    | some c =>
      obtain ⟨rfl,rest⟩ := List.cons.inj bytes
      exact ⟨0,es,rfl,rest⟩

private theorem starts_only {es : List (Option UInt8)} (empty : es.reduceOption = []) : ∃ n, es = List.replicate n none := by
  obtain ⟨n,same⟩ := (List.reduceOption_eq_nil_iff es).mp empty
  exact ⟨n,same⟩

/-- However lines are cut into writes, they arrive one after the other. -/
theorem lines_arrive (content : List (List UInt8 × LineEnd))
    (plain : ∀ line ∈ content, ∀ b ∈ line.1, terminator b = false) (pieces : List (List UInt8))
    (stream : pieces.flatten = content.flatMap fun line => line.1 ++ line.2.bytes) :
    ∃ (lines : List LineIn) (n : Nat), lines.map (fun l => (l.text,l.stop)) = content ∧
      arrivals pieces = lines.flatMap LineIn.arrival ++ List.replicate n none := by
  rw [← arrivals_bytes] at stream
  generalize arrivals pieces = es at stream
  induction content generalizing es with
  | nil =>
    obtain ⟨n,rfl⟩ := starts_only stream
    exact ⟨[],n,rfl,rfl⟩
  | cons line content ih =>
    obtain ⟨text,stop⟩ := line
    obtain ⟨plainText,plainRest⟩ := List.forall_mem_cons.mp plain
    rw [List.flatMap_cons, List.append_assoc] at stream
    obtain ⟨body,after,rfl,bodyText,afterBytes⟩ := (List.reduceOption_eq_append_iff ..).mp stream
    have bytes (n : Nat) : (body ++ List.replicate n none).reduceOption = text := by
      rw [List.reduceOption_append, List.reduceOption_replicate_none, List.append_nil, bodyText]
    have goes (n : Nat) : ∀ b ∈ (body ++ List.replicate n none).reduceOption, terminator b = false := by
      rw [bytes n]
      exact plainText
    cases stop with
    | cr =>
      obtain ⟨n,later,rfl,rest⟩ := starts_before afterBytes
      obtain ⟨lines,m,same,arrived⟩ := ih plainRest later rest
      refine ⟨⟨body ++ List.replicate n none,goes n,.cr,0⟩ :: lines,m,?_,?_⟩
      · rw [List.map_cons, same, LineIn.text, bytes n]
      · rw [arrived]
        simp [LineIn.arrival,LineIn.ending]
    | lf =>
      obtain ⟨n,later,rfl,rest⟩ := starts_before afterBytes
      obtain ⟨lines,m,same,arrived⟩ := ih plainRest later rest
      refine ⟨⟨body ++ List.replicate n none,goes n,.lf,0⟩ :: lines,m,?_,?_⟩
      · rw [List.map_cons, same, LineIn.text, bytes n]
      · rw [arrived]
        simp [LineIn.arrival,LineIn.ending]
    | crlf =>
      obtain ⟨n,middle,rfl,second⟩ := starts_before afterBytes
      obtain ⟨between,later,rfl,rest⟩ := starts_before second
      obtain ⟨lines,m,same,arrived⟩ := ih plainRest later rest
      refine ⟨⟨body ++ List.replicate n none,goes n,.crlf,between⟩ :: lines,m,?_,?_⟩
      · rw [List.map_cons, same, LineIn.text, bytes n]
      · rw [arrived]
        simp [LineIn.arrival,LineIn.ending]

def Reader.hold {σ : Type} (s : Reader σ) : Option UInt8 → Reader σ
  | none => { s with dropping := false }
  | some b =>
    if s.dropping then s
    else if s.buff.len < 256 then ⟨s.w,⟨memcpyAt s.buff.p s.buff.len [b],s.buff.len + 1⟩,false⟩
    else ⟨s.w,⟨s.buff.p,0⟩,true⟩

def LineIn.reads (l : LineIn) (dropping : Bool) : Nat :=
  match l.stop with
  | .cr | .lf => if dropping then 0 else 1
  | .crlf => if dropping then (if l.between = 0 then 0 else 1) else 2

/-- `test ethernet` reaches the buffer and is run at an even count or by both bytes of its end;
another line leaves no `test ethernet` in the buffer, or its end goes by, or a single byte of
it is read at an odd count. -/
def LineIn.Settled (s : Reader Globals) (l : LineIn) : Prop :=
  let held := l.body.foldl Reader.hold s
  if l.text = ascii "test ethernet" then
    Ethernet held.buff.p ∧ (l.reads held.dropping = 2 ∨ (l.reads held.dropping = 1 ∧ s.w.timesCount % 2 = 0))
  else
    ¬ Ethernet held.buff.p ∨ l.reads held.dropping = 0 ∨ (l.reads held.dropping = 1 ∧ ¬ s.w.timesCount % 2 = 0)

structure Tested where
  reader : Reader Globals
  due : Nat

def Tested.step (s : Tested) (l : LineIn) : Option Tested :=
  (run (Reader.arrive parseGlobals) s.reader l.arrival).map fun reader =>
    ⟨reader,s.due + if l.text = ascii "test ethernet" then 1 else 0⟩

def Tested.Answered (s : Tested) : Prop := s.reader.w.ethernets = s.due

private theorem run_body (s : Reader Globals) (body : List (Option UInt8))
    (plain : ∀ b ∈ body.reduceOption, terminator b = false) :
    run (Reader.arrive parseGlobals) s body = some (body.foldl Reader.hold s) := by
  induction body generalizing s with
  | nil => rfl
  | cons e body ih =>
    have later : run (Reader.arrive parseGlobals) (s.hold e) body = some (body.foldl Reader.hold (s.hold e)) := by
      refine ih (s.hold e) fun b member => plain b ?_
      cases e with
      | none => exact member
      | some c => exact List.mem_cons_of_mem c member
    have arrived : s.arrive parseGlobals e = some (s.hold e) := by
      cases e with
      | none => rfl
      | some b =>
        have goes : ¬ (b = 13 ∨ b = 10) := of_decide_eq_false (plain b List.mem_cons_self)
        rw [Reader.arrive, Reader.read, Reader.hold, if_neg goes]
        split
        next => rfl
        next => split <;> rfl
    rw [run, arrived]
    exact later

private theorem hold_w {σ : Type} (s : Reader σ) (body : List (Option UInt8)) : (body.foldl Reader.hold s).w = s.w := by
  induction body generalizing s with
  | nil => rfl
  | cons e body ih =>
    refine (ih (s.hold e)).trans ?_
    cases e with
    | none => rfl
    | some b =>
      rw [Reader.hold]
      split
      next => rfl
      next => split <;> rfl

private theorem terminator_ethernet {s t : Reader Globals} {b : UInt8} (ends : b = 13 ∨ b = 10)
    (arrived : s.arrive parseGlobals (some b) = some t) :
    (s.dropping = true ∧ t = s) ∨ (s.dropping = false ∧ t.dropping = false ∧
      t.w.timesCount = s.w.timesCount + 1 ∧ (Ethernet t.buff.p ↔ Ethernet s.buff.p) ∧
      t.w.ethernets = s.w.ethernets + if Ethernet s.buff.p ∧ s.w.timesCount % 2 = 0 then 1 else 0) := by
  rw [Reader.arrive, Reader.read] at arrived
  cases dropping : s.dropping with
  | true =>
    rw [if_pos dropping] at arrived
    cases arrived
    exact .inl ⟨rfl,rfl⟩
  | false =>
    rw [if_neg (by simp [dropping]), if_pos ends] at arrived
    obtain ⟨⟨w,p⟩,parsed,rest⟩ := bind_ok (toOption_ok arrived)
    cases rest
    exact .inr ⟨rfl,rfl,parse_ethernet parsed⟩

private theorem run_starts (s : Reader Globals) (n : Nat) :
    run (Reader.arrive parseGlobals) s (List.replicate n none) =
      some { s with dropping := if n = 0 then s.dropping else false } := by
  induction n generalizing s with
  | zero => rfl
  | succ n ih =>
    rw [List.replicate_succ, run, Reader.arrive, Option.bind_some, ih]
    simp

private theorem single_ethernet {s t : Reader Globals} {b : UInt8} (ends : b = 13 ∨ b = 10)
    (reached : run (Reader.arrive parseGlobals) s [some b] = some t) :
    t.w.ethernets = s.w.ethernets +
      if Ethernet s.buff.p ∧ ¬ s.dropping = true ∧ s.w.timesCount % 2 = 0 then 1 else 0 := by
  obtain ⟨next,arrived,last⟩ := (run_cons_eq ..).mp reached
  cases last
  rcases terminator_ethernet ends arrived with ⟨dropped,rfl⟩ | ⟨reads,_,_,_,replied⟩
  · rw [if_neg fun both => both.2.1 dropped]
    rfl
  · rw [replied]
    simp [reads]

private theorem ending_ethernet {s t : Reader Globals} (l : LineIn)
    (reached : run (Reader.arrive parseGlobals) s l.ending = some t) :
    t.w.ethernets = s.w.ethernets +
      if Ethernet s.buff.p ∧ (l.reads s.dropping = 2 ∨ (l.reads s.dropping = 1 ∧ s.w.timesCount % 2 = 0)) then 1 else 0 := by
  rw [LineIn.ending] at reached
  rw [LineIn.reads]
  cases stop : l.stop with
  | cr =>
    rw [stop] at reached
    rw [single_ethernet (.inl rfl) reached]
    cases s.dropping <;> simp
  | lf =>
    rw [stop] at reached
    rw [single_ethernet (.inr rfl) reached]
    cases s.dropping <;> simp
  | crlf =>
    rw [stop] at reached
    obtain ⟨next,arrived,later⟩ := (run_cons_eq ..).mp reached
    rw [run_append, run_starts, Option.bind_some] at later
    have replied := single_ethernet (.inr rfl) later
    dsimp only at replied
    rcases terminator_ethernet (.inl rfl) arrived with ⟨dropped,rfl⟩ | ⟨reads,reading,times,same,first⟩
    · rw [replied, dropped]
      by_cases together : l.between = 0
      · simp [together]
      · simp [together]
    · rw [replied, first, reads, times, reading]
      by_cases starts : Ethernet s.buff.p
      · by_cases even : s.w.timesCount % 2 = 0
        · simp [same,starts,even,parity]
        · simp [same,starts,even,parity]
      · simp [same,starts]

private theorem reads_cases (l : LineIn) (dropping : Bool) :
    l.reads dropping = 0 ∨ l.reads dropping = 1 ∨ l.reads dropping = 2 := by
  rw [LineIn.reads]
  split
  next => cases dropping <;> simp
  next => cases dropping <;> simp
  next =>
    cases dropping with
    | false => exact .inr (.inr rfl)
    | true => by_cases together : l.between = 0 <;> simp [together]

private theorem step_answered {s next : Tested} {l : LineIn} (answered : s.Answered) (stepped : s.step l = some next) :
    next.Answered ↔ l.Settled s.reader := by
  obtain ⟨reader,reached,rfl⟩ := Option.map_eq_some_iff.mp stepped
  rw [LineIn.arrival, run_append, run_body s.reader l.body l.plain, Option.bind_some] at reached
  have replied := ending_ethernet l reached
  rw [hold_w] at replied
  rw [Tested.Answered, LineIn.Settled]
  dsimp only
  rw [replied, answered, Nat.add_left_cancel_iff]
  by_cases tested : l.text = ascii "test ethernet"
  · rw [if_pos tested, if_pos tested]
    split
    next settled => exact iff_of_true rfl settled
    next unsettled => exact iff_of_false (by decide) unsettled
  · rw [if_neg tested, if_neg tested]
    by_cases starts : Ethernet (l.body.foldl Reader.hold s.reader).buff.p
    · rcases reads_cases l (l.body.foldl Reader.hold s.reader).dropping with none | one | both
      · simp [none]
      · simp [starts,one]
      · simp [starts,both]
    · simp [starts]

/-- Each `test ethernet` line, and no other, is answered once, exactly when every line settles. -/
theorem ethernet_answered (reader : Reader Globals) (lines : List LineIn) :
    Always Tested.step Tested.Answered ⟨reader,reader.w.ethernets⟩ lines ↔
      Meets Tested.step (fun s l => l.Settled s.reader) ⟨reader,reader.w.ethernets⟩ lines :=
  always_iff_meets (fun _ _ _ (_ : True) _ => trivial) (fun _ _ _ _ answered stepped => step_answered answered stepped)
    trivial rfl

instance : DecidablePred Tested.Answered := fun s => inferInstanceAs (Decidable (s.reader.w.ethernets = s.due))

/-- After `get version` a single `test ethernet` is the second run of `cmd_parse`. -/
theorem ethernet_unanswered : ¬ ∀ (reader : Reader Globals) (lines : List LineIn),
    Always Tested.step Tested.Answered ⟨reader,reader.w.ethernets⟩ lines := by
  intro all
  have answered := all ⟨Globals.initial (zeros 235),⟨zeros 256,0⟩,false⟩
    [⟨(ascii "get version").map some,by decide +kernel,.lf,0⟩,⟨(ascii "test ethernet").map some,by decide +kernel,.lf,0⟩]
  exact absurd answered (by decide +kernel)

end PulseFirmware
