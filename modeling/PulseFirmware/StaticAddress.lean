import PulseFirmware.Boots
import PulseFirmware.SaveFlash

/-! Which static addresses a boot uses. Every command leaves each flag at a value that the commands
alone determine, and the addresses in flash are those of the last command that gave some. -/
namespace PulseFirmware
open PulseFirmware.CString PulseFirmware.Flash PulseFirmware.Run

def flagText (dhcp : Bool) : String := if dhcp then "true" else "false"

def flagOf (heard : List Accepted) (i : Iface) : Bool := (heard.findSome? (·.flag i)).getD true

def Flags (heard : List Accepted) (bytes : Iface → List UInt8) : Prop :=
  ∀ i, literal (flagText (flagOf heard i)) <+: bytes i

def Globals.flagBytes (g : Globals) : Iface → List UInt8
  | .wlan => g.dhcpCheckWifi.toList.take 8
  | .eth => g.dhcpCheckEth.toList.take 8

def Addresses.words (a : Addresses) : List (List UInt8) := [word a.ip,word a.gw,word a.mask]

/-- What a line of an accepted command does to the flags and the addresses. -/
structure Effect (g g' : Globals) (accepted : Accepted) : Prop where
  pending : Setting.dhcp.pending g' = true
  written : ∀ i value, accepted.flag i = some value → literal (flagText value) <+: g'.flagBytes i
  left : ∀ i, accepted.flag i = none → g'.flagBytes i = g.flagBytes i
  taken : ∀ a, accepted.taken = some a → Setting.ip.pending g' = true ∧ Setting.ip.saved g' = a.words
  kept : accepted.taken = none → Setting.ip.Keeps g g'

theorem Globals.flagBytes_congr {g g' : Globals} (keeps : Setting.dhcp.Keeps g g') (i : Iface) :
    g'.flagBytes i = g.flagBytes i := by
  obtain ⟨wifi,eth⟩ := List.cons.inj keeps.saved
  cases i with
  | wlan => exact wifi
  | eth => exact (List.cons.inj eth).1

theorem Effect.quiet {g h g' : Globals} {accepted : Accepted} (effect : Effect g h accepted) (quiet : Quiet h g') :
    Effect g g' accepted where
  pending := (quiet.keeps .dhcp).pending.trans effect.pending
  written i value writes := by
    rw [Globals.flagBytes_congr (quiet.keeps .dhcp)]
    exact effect.written i value writes
  left i leaves := (Globals.flagBytes_congr (quiet.keeps .dhcp) i).trans (effect.left i leaves)
  taken a takes := by
    obtain ⟨pending,saved⟩ := effect.taken a takes
    exact ⟨(quiet.keeps .ip).pending.trans pending,(quiet.keeps .ip).saved.trans saved⟩
  kept keeps := (effect.kept keeps).trans (quiet.keeps .ip)

private theorem flag_written (flag : Bytes 50) (value : Bool) :
    literal (flagText value) <+: (strcpyLit flag (flagText value)).toList.take 8 := by
  have starts := strcpyLit_starts flag (flagText value) (by cases value <;> decide)
  exact List.prefix_take_iff.mpr ⟨starts,by cases value <;> decide⟩

private theorem changed_pending {g : Globals} {flag : Bytes 50} (marked : g.dhcpCheckChanged = strcpyLit flag "true") :
    Setting.dhcp.pending g = true := by
  have starts := strcpyLit_starts flag "true" (by decide)
  rw [Setting.pending, marked]
  exact (strcmpEq_terminated (by decide) _).mpr starts

private theorem setFlags_effect (g : Globals) (iface : Iface) : Effect g (setFlags g (iface = .wlan)) (.dhcp iface) where
  pending := changed_pending rfl
  written i value writes := by
    cases writes
    cases iface <;> cases i
    · exact flag_written g.dhcpCheckEth true
    · exact flag_written g.dhcpCheckWifi false
    · exact flag_written g.dhcpCheckEth false
    · exact flag_written g.dhcpCheckWifi true
  left i leaves := by contradiction
  taken a takes := by contradiction
  kept _ := ⟨rfl,rfl⟩

private theorem setStatic_effect (g : Globals) (iface : Iface) (own : Addresses) (a b c : UInt32) :
    Effect g (setStatic g iface a b c) (.address iface own ⟨a,b,c⟩) where
  pending := by cases iface <;> exact changed_pending rfl
  written i value writes := by
    cases writes
    cases iface <;> cases i
    · exact flag_written g.dhcpCheckEth false
    · exact flag_written g.dhcpCheckWifi true
    · exact flag_written g.dhcpCheckEth true
    · exact flag_written g.dhcpCheckWifi false
  left i leaves := by contradiction
  taken values takes := by
    cases takes
    have marked := strcpyLit_starts g.ipaddressChanged "changed" (by decide)
    cases iface <;> exact ⟨(strcmpEq_terminated (by decide) _).mpr marked,rfl⟩
  kept keeps := by contradiction

private theorem cmdInternet_effect (g : Globals) (iface : Iface)
    (named : strncmpEq (memcpy g.isInternet (slice g.mem 9 240)).toList (literal "wifi") 4 = decide (iface = .wlan)) :
    Effect g (cmdInternet g) (.internet iface) where
  pending := changed_pending rfl
  written i value writes := by
    cases iface <;> cases i <;> cases writes
    · change literal "true" <+: ((if _ then g.dhcpCheckWifi else strcpyLit g.dhcpCheckWifi "true") : Bytes 50).toList.take 8
      rw [named]
      exact flag_written g.dhcpCheckWifi true
    · change literal "true" <+: ((if _ then strcpyLit g.dhcpCheckEth "true" else g.dhcpCheckEth) : Bytes 50).toList.take 8
      rw [named]
      exact flag_written g.dhcpCheckEth true
  left i leaves := by
    cases iface <;> cases i
    · change ((if _ then strcpyLit g.dhcpCheckEth "true" else g.dhcpCheckEth) : Bytes 50).toList.take 8 = _
      rw [named]
      rfl
    · contradiction
    · contradiction
    · change ((if _ then g.dhcpCheckWifi else strcpyLit g.dhcpCheckWifi "true") : Bytes 50).toList.take 8 = _
      rw [named]
      rfl
  taken a takes := by contradiction
  kept _ := ⟨rfl,rfl⟩

private theorem quiet_end (g : Globals) : Quiet g { g with cmdLen := 0 } :=
  ⟨fun x => by cases x <;> exact ⟨rfl,rfl⟩,⟨rfl,rfl,rfl,rfl⟩,rfl⟩

private theorem Effect.typed {g g' : Globals} {line : Line} {accepted : Accepted}
    (effect : Effect (g.typed line) g' accepted) : Effect g g' accepted :=
  ⟨effect.pending,effect.written,effect.left,effect.taken,
    fun keeps => ⟨(effect.kept keeps).pending,(effect.kept keeps).saved⟩⟩

private theorem dhcp_effect {g g' : Globals} {line : Line} {iface : Iface}
    (text : line.bytes = (NetCommand.dhcp iface).text) (done : g.runLine line = .ok g') : Effect g g' (.dhcp iface) := by
  rw [dhcp_line g line text] at done
  cases done
  have queued := quiet_send (setFlags (g.typed line) (iface = .wlan)) (.ipsettings ⟨true,iface,0,0,0⟩)
  have same : cmdIpconfigDhcp (g.typed line) iface =
      networkMsgSend (setFlags (g.typed line) (iface = .wlan)) (.ipsettings ⟨true,iface,0,0,0⟩) := by cases iface <;> rfl
  rw [← same] at queued
  exact (((setFlags_effect (g.typed line) iface).quiet queued).quiet (quiet_end _)).typed

private theorem cmdIpconfigStatic_read (g : Globals) (iface : Iface) {start : List UInt8} {a b c : UInt32}
    (values : addresses start = some [a,b,c]) (nonzero : c ≠ 0) :
    cmdIpconfigStatic g iface start = .ok (networkMsgIpconfig (setStatic g iface a b c) ⟨false,iface,a,b,c⟩) := by
  unfold addresses at values
  obtain ⟨⟨ip,rest⟩,first,values⟩ := Option.bind_eq_some_iff.mp values
  dsimp only at values
  split at values
  next => cases values
  next set =>
    obtain ⟨⟨gw,rest'⟩,second,values⟩ := Option.bind_eq_some_iff.mp values
    dsimp only at values
    split at values
    next => cases values
    next set' =>
      obtain ⟨⟨mask,rest''⟩,third,values⟩ := Option.bind_eq_some_iff.mp values
      cases values
      simp only [cmdIpconfigStatic, first, second, third, set, set', nonzero, if_false]
      rfl

private theorem address_effect {g g' : Globals} {line : Line} {iface : Iface} {ip gw mask : Dotted} {a b c : UInt32}
    (own : Addresses) (text : line.bytes = (NetCommand.address iface ip gw mask).text)
    (values : g.parsed line = some [a,b,c]) (nonzero : c ≠ 0) (done : g.runLine line = .ok g') :
    Effect g g' (.address iface own ⟨a,b,c⟩) := by
  obtain ⟨taken,ran⟩ := address_line g line text
  rw [taken] at values
  rw [ran, cmdIpconfigStatic_read (g.typed line) iface values nonzero] at done
  cases done
  have queued := quiet_send (setStatic (g.typed line) iface a b c) (.ipsettings ⟨false,iface,a,b,c⟩)
  exact (((setStatic_effect (g.typed line) iface own a b c).quiet queued).quiet (quiet_end _)).typed

private theorem internet_effect {g g' : Globals} {line : Line} {iface : Iface}
    (text : line.bytes = (NetCommand.internet iface).text) (done : g.runLine line = .ok g') : Effect g g' (.internet iface) := by
  obtain ⟨argument,split,named⟩ : ∃ argument, line.bytes = ascii "internet " ++ argument ∧ ∀ rest,
      strncmpEq (argument ++ rest) (literal "wifi") 4 = decide (iface = .wlan) := by
    cases iface with
    | wlan => exact ⟨ascii "wifi",text.trans (by decide),fun rest => (strncmpEq_append (by decide) _ [0]).mpr (List.prefix_append _ _)⟩
    | eth => exact ⟨ascii "ethernet",text.trans (by decide),fun rest => rfl⟩
  have chosen : g.handler line = .internet := argument_handler g line (by decide) (by decide) split (by decide)
  rw [Globals.runLine, chosen] at done
  cases done
  refine ((cmdInternet_effect (g.typed line) iface ?_).quiet (quiet_end _)).typed
  have window : slice (g.typed line).mem 9 240 = (argument ++ g.stale line).take 240 := by
    rw [typed_mem, split, slice, List.append_assoc]
    exact congrArg (List.take 240) (List.drop_left' (by decide))
  rw [memcpy_full _ _ (mem_slice_length _ _ (by decide)), window, strncmpEq_take _ _ (by decide)]
  exact named _

theorem command_effect {g g' : Globals} {line : Line} {command : NetCommand} {accepted : Accepted}
    (text : line.bytes = command.text) (heard : command.accepted g line = some accepted) (done : g.runLine line = .ok g') :
    Effect g g' accepted := by
  cases command with
  | dhcp iface => cases heard; exact dhcp_effect text done
  | internet iface => cases heard; exact internet_effect text done
  | address iface ip gw mask =>
    simp only [NetCommand.accepted] at heard
    split at heard
    next a b c values =>
      split at heard
      next => contradiction
      next nonzero => cases heard; exact address_effect _ text values nonzero done
    next => contradiction

/-- The addresses of the last command that gave some; without one, those of an erased page. -/
def lastTaken (heard : List Accepted) : Addresses :=
  (heard.findSome? Accepted.taken).getD ⟨0xffffffff,0xffffffff,0xffffffff⟩

private theorem lastTaken_cons (accepted : Accepted) (heard : List Accepted) :
    lastTaken (accepted :: heard) = accepted.taken.getD (lastTaken heard) := by
  unfold lastTaken
  rw [List.findSome?_cons]
  cases accepted.taken <;> rfl

def flagStored (flash : Content UInt8) : Iface → List UInt8
  | .wlan => read flash 0xf0000 8
  | .eth => read flash 0xf1000 8

/-- The first device state is one of a boot; every later boot reads what the commands left. -/
structure Lifetime.Sound (s : Lifetime) : Prop where
  looping : s.device.pc.stage.boots = false
  flags : Flags s.heard s.device.g.flagBytes
  stored : ∃ bytes, Flags s.heard bytes ∧
    Setting.dhcp.Phase [bytes .wlan,bytes .eth] false s.device.g s.device.flash s.device.pc
  addresses : Setting.ip.Phase (lastTaken s.heard).words false s.device.g s.device.flash s.device.pc
  fromFlash : ∀ i, s.booted.fromFlash i = !flagOf s.before i
  values : s.booted.values = lastTaken s.before

private theorem flag_whole {g : Globals} {i : Iface} {value : Bool} (starts : literal (flagText value) <+: g.flagBytes i) :
    ∃ rest, literal (flagText value) ++ rest = match i with
      | .wlan => g.dhcpCheckWifi.toList
      | .eth => g.dhcpCheckEth.toList := by
  cases i <;> exact starts.trans (List.take_prefix _ _)

private theorem fromFlash_eq {g : Globals} {i : Iface} {value : Bool} (starts : literal (flagText value) <+: g.flagBytes i) :
    g.fromFlash i = !value := by
  obtain ⟨rest,whole⟩ := flag_whole starts
  unfold Globals.fromFlash
  cases i <;> dsimp only at whole ⊢ <;> rw [← whole] <;> cases value <;> rfl

private theorem flagSet_eq {g : Globals} {heard : List Accepted} (flags : Flags heard g.flagBytes) :
    flagSet g.dhcpCheckWifi = true ∧ flagSet g.dhcpCheckEth = true := by
  obtain ⟨wifi,whole⟩ := flag_whole (flags .wlan)
  obtain ⟨eth,whole'⟩ := flag_whole (flags .eth)
  unfold flagSet
  dsimp only at whole whole'
  rw [← whole, ← whole']
  constructor
  · cases flagOf heard .wlan <;> rfl
  · cases flagOf heard .eth <;> rfl

private theorem bootRead_result (flash : Content UInt8) (behind : Bytes 235) : ∃ g,
    runStage .bootRead (.initial behind) flash = .ok (g,flash) ∧ g.trueDhcp = (Globals.initial behind).trueDhcp ∧
      (∀ x : Setting, x.pending g = false) ∧ g.flagBytes = flagStored flash ∧
      Setting.ip.bootBytes g = Setting.ip.loaded flash := by
  obtain ⟨g,ran,loaded⟩ := bootReads_loaded ideal (.initial behind) flash
  have flags := loaded .dhcp
  have addresses := loaded .ip
  cases ran
  refine ⟨_,rfl,rfl,fun x => by cases x <;> rfl,?_,addresses⟩
  obtain ⟨wifi,rest⟩ := List.cons.inj flags
  funext i
  cases i with
  | wlan => exact wifi
  | eth => exact (List.cons.inj rest).1

private theorem default_stored {behind : Bytes 235} {g : Globals} (text : g.trueDhcp = (Globals.initial behind).trueDhcp)
    (flash : Content UInt8) (addr : Nat) :
    literal "true" <+: read (ideal.program flash addr (g.trueDhcp.toList.take 240)) addr 8 := by
  have size : (g.trueDhcp.toList.take 240).length = 240 := by simp [g.trueDhcp.toList_length]
  rw [(read_program_take_iff ideal flash addr 8 _ (by omega)).mpr fun i _ _ => ideal_overwrites _ _, text]
  exact List.prefix_append (literal "true") _

private theorem bootSection_result {flash : Content UInt8} (behind : Bytes 235) {heard : List Accepted}
    (ready : Flags heard (flagStored flash) ∨ (heard = [] ∧ flash = fun _ => 0xff)) :
    ∃ g flash', bootSection flash behind = .ok (g,flash') ∧ (∀ x : Setting, x.pending g = false) ∧
      Flags heard g.flagBytes ∧ Flags heard (flagStored flash') ∧ Setting.ip.stored flash' = Setting.ip.stored flash ∧
      Setting.ip.bootBytes g = Setting.ip.loaded flash := by
  obtain ⟨g,ran,text,idle,flags,addresses⟩ := bootRead_result flash behind
  rw [bootSection, ran]
  rcases ready with stored | ⟨rfl,rfl⟩
  · rw [← flags] at stored
    obtain ⟨wifi,eth⟩ := flagSet_eq stored
    refine ⟨g,flash,?_,idle,stored,flags ▸ stored,rfl,addresses⟩
    have first : runStage .bootWifi g flash = .ok (g,flash) := by
      rw [runStage, Stage.guard, wifi]
      rfl
    rw [ok_bind]
    dsimp only
    rw [first, ok_bind]
    dsimp only
    rw [runStage, Stage.guard, eth]
    rfl
  · have blank (flag : Bytes 50) (bytes : flag.toList.take 8 = List.replicate 8 0xff) : flagSet flag = false := by
      unfold flagSet
      rw [← strncmpEq_take _ (literal "true") (by decide : 4 ≤ 8), ← strncmpEq_take _ (literal "false") (by decide : 4 ≤ 8),
        bytes]
      rfl
    have wifi : flagSet g.dhcpCheckWifi = false := blank _ (congrFun flags .wlan)
    have eth : flagSet g.dhcpCheckEth = false := blank _ (congrFun flags .eth)
    let first := ideal.program (fun _ => 0xff) 0xf0000 (g.trueDhcp.toList.take 240)
    let second := ideal.program first 0xf1000 (g.trueDhcp.toList.take 240)
    let g' := { g with dhcpCheckWifi := strcpyLit g.dhcpCheckWifi "true" }
    refine ⟨{ g' with dhcpCheckEth := strcpyLit g.dhcpCheckEth "true" },second,?_,fun x => ?_,fun i => ?_,fun i => ?_,
      ?_,addresses⟩
    · have wifiDone : runStage .bootWifi g (fun _ => 0xff) = .ok (g',first) := by
        rw [runStage, Stage.guard, wifi]
        rfl
      rw [ok_bind]
      dsimp only
      rw [wifiDone, ok_bind]
      dsimp only
      rw [runStage, Stage.guard, eth]
      rfl
    · rw [← idle x]
      cases x <;> rfl
    · cases i with
      | wlan => exact flag_written g.dhcpCheckWifi true
      | eth => exact flag_written g.dhcpCheckEth true
    · cases i with
      | wlan =>
        have kept : read second 0xf0000 8 = read first 0xf0000 8 :=
          read_program_disjoint ideal first 0xf0000 8 0xf1000 _ (Or.inl (by decide))
        change literal "true" <+: read second 0xf0000 8
        rw [kept]
        exact default_stored text _ 0xf0000
      | eth => exact default_stored text first 0xf1000
    · have kept (addr : Nat) (apart : addr + 4 ≤ 0xf0000) : read second addr 4 = read (fun _ => 0xff) addr 4 :=
        (read_program_disjoint ideal first addr 4 0xf1000 _ (Or.inl (by omega))).trans
          (read_program_disjoint ideal _ addr 4 0xf0000 _ (Or.inl apart))
      change [read second 0xef000 4,read second 0xef100 4,read second 0xef200 4] = _
      rw [kept 0xef000 (by decide), kept 0xef100 (by decide), kept 0xef200 (by decide)]
      rfl

private theorem word_injective {v w : UInt32} (same : word v = word w) : v = w := by
  rw [← unword_word v, same, unword_word]

private theorem boot_sound {flash : Content UInt8} {behind : Bytes 235} {boot : NetBoot} {heard : List Accepted}
    {next : Lifetime} (ready : Flags heard (flagStored flash) ∨ (heard = [] ∧ flash = fun _ => 0xff))
    (stored : Setting.ip.stored flash = (lastTaken heard).words)
    (booted : Lifetime.boot flash behind boot heard = some next) :
    next.Sound ∧ next.before = heard := by
  obtain ⟨g,flash',ran,idle,flags,flagsStored,same,addresses⟩ := bootSection_result behind ready
  rw [Lifetime.boot, Device.boot, ran] at booted
  obtain rfl := Option.some.inj booted
  refine ⟨⟨rfl,flags,⟨_,flagsStored,Or.inr ⟨idle .dhcp,rfl,fun copies => by contradiction⟩⟩,
    Or.inr ⟨idle .ip,same.trans stored,fun copies => by contradiction⟩,fun i => fromFlash_eq (flags i),?_⟩,rfl⟩
  · have loaded : Setting.ip.bootBytes g = (lastTaken heard).words := addresses.trans stored
    obtain ⟨ip,rest⟩ := List.cons.inj loaded
    obtain ⟨gw,rest⟩ := List.cons.inj rest
    obtain ⟨mask,_⟩ := List.cons.inj rest
    change (⟨g.ipaddrValue,g.gwValue,g.maskValue⟩ : Addresses) = _
    rw [word_injective ip, word_injective gw, word_injective mask]

private theorem erased_words : Setting.ip.stored (fun _ => 0xff) = (lastTaken []).words := by decide +kernel

private theorem looping_defaults {pc : Pc} (looping : pc.stage.boots = false) : pc.defaults = false := by
  cases pc with
  | enter stage => rfl
  | inside stage branch k =>
    change stage.boots = false at looping
    change stage.defaults branch = false
    cases stage <;> first | rfl | contradiction

private theorem storage_flags {g g' : Globals} {flash flash' : Content UInt8} {pc pc' : Pc} (looping : pc.stage.boots = false)
    (stepped : storageStep ideal g flash pc = .ok (g',flash',pc')) : g'.flagBytes = g.flagBytes := by
  cases storage_cases .dhcp stepped with
  | enter stage => rfl
  | @own k op _ found computed =>
    have member := List.mem_of_getElem? found
    simp only [saveOps, List.mem_cons, List.not_mem_nil, or_false] at member
    rcases member with rfl | rfl | rfl | rfl | rfl | rfl | rfl | rfl | rfl | rfl | rfl | rfl | rfl <;> cases computed <;> rfl
  | @other stage branch k op _ away found computed =>
    have notRead : stage ≠ .bootRead := by rintro rfl; contradiction
    have notDefault : stage.defaults branch = false := by cases stage <;> first | rfl | contradiction
    funext i
    exact Globals.flagBytes_congr (other_spared found computed away notRead fun _ => notDefault).keeps i

private theorem task_sound {s : Lifetime} {event : Event} {device : Device} (sound : s.Sound) (background : event.background = true)
    (moved : s.device.step event = some device) : Lifetime.Sound { s with device } := by
  obtain ⟨bytes,held,stored⟩ := sound.stored
  cases device_step moved with
  | storage stepped =>
    have looping := sound.looping
    have notRead : s.device.pc.stage ≠ .bootRead := by intro boot; rw [boot] at looping; contradiction
    have notFlags := looping_defaults looping
    refine ⟨?_,?_,⟨bytes,held,?_⟩,?_,sound.fromFlash,sound.values⟩
    · rcases storage_stage stepped with same | after
      · exact same ▸ looping
      · exact after ▸ boots_next looping
    · rw [storage_flags looping stepped]
      exact sound.flags
    · exact phase_storage stepped stored notRead (fun _ => notFlags) fun _ shares => by contradiction
    · exact phase_storage stepped sound.addresses notRead (fun _ => notFlags) fun _ shares => by contradiction
  | line => contradiction
  | quiet _ spared =>
    refine ⟨sound.looping,fun i => ?_,⟨bytes,held,stored.spared (spared .dhcp)⟩,
      sound.addresses.spared (spared .ip),sound.fromFlash,sound.values⟩
    rw [Globals.flagBytes_congr (spared .dhcp).keeps]
    exact sound.flags i
  | reset => contradiction

private theorem command_sound {s : Lifetime} {g : Globals} {accepted : Accepted} (sound : s.Sound)
    (between : s.device.pc.betweenSaves) (effect : Effect s.device.g g accepted) :
    Lifetime.Sound { s with device := { s.device with g }, heard := accepted :: s.heard } := by
  have flags : Flags (accepted :: s.heard) g.flagBytes := by
    intro i
    unfold flagOf
    rw [List.findSome?_cons]
    cases writes : accepted.flag i with
    | none =>
      rw [effect.left i writes]
      exact sound.flags i
    | some value => exact effect.written i value writes
  refine ⟨sound.looping,flags,⟨g.flagBytes,flags,?_⟩,?_,sound.fromFlash,sound.values⟩
  · unfold Setting.Phase
    rw [between .dhcp]
    exact Or.inl ⟨effect.pending,rfl,rfl⟩
  · unfold Setting.Phase
    rw [lastTaken_cons, between .ip]
    cases takes : accepted.taken with
    | none =>
      have phase := sound.addresses
      unfold Setting.Phase at phase
      rw [between .ip] at phase
      have keeps := effect.kept takes
      rcases phase with waits | ⟨idle,kept⟩
      · exact Or.inl ⟨keeps.pending.trans waits.pending,keeps.saved.trans waits.saved,rfl⟩
      · exact Or.inr ⟨keeps.pending.trans idle,kept.stored,fun copies => by contradiction⟩
    | some a =>
      obtain ⟨pending,saved⟩ := effect.taken a takes
      exact Or.inl ⟨pending,saved,rfl⟩

private theorem reboot_sound {s next : Lifetime} {junk : Content UInt8} {behind : Bytes 235} {boot : NetBoot} (sound : s.Sound)
    (idle : s.device.NothingPending) (booted : Lifetime.boot (s.device.survives junk) behind boot s.heard = some next) :
    next.Sound ∧ next.before = s.heard := by
  obtain ⟨between,clear⟩ := idle
  have notFlags := looping_defaults sound.looping
  have survives (x : Setting) (own : x.sharesPage = false) : x.stored (s.device.survives junk) = x.stored s.device.flash :=
    survives_stored junk (between x) (fun _ => notFlags) fun _ => own
  have rests {x : Setting} {value : List (List UInt8)} (phase : x.Phase value false s.device.g s.device.flash s.device.pc) :
      x.stored s.device.flash = value := by
    unfold Setting.Phase at phase
    rw [between x] at phase
    rcases phase with waits | ⟨_,kept⟩
    · exact absurd ((clear x).symm.trans waits.pending) (by decide)
    · exact kept.stored
  obtain ⟨bytes,held,stored⟩ := sound.stored
  refine boot_sound (Or.inl fun i => ?_) ((survives .ip rfl).trans (rests sound.addresses)) booted
  obtain ⟨wifi,rest⟩ := List.cons.inj ((survives .dhcp rfl).trans (rests stored))
  cases i with
  | wlan =>
    have same : flagStored (s.device.survives junk) .wlan = bytes .wlan := wifi
    exact same ▸ held .wlan
  | eth =>
    have same : flagStored (s.device.survives junk) .eth = bytes .eth := (List.cons.inj rest).1
    exact same ▸ held .eth

private theorem config_taken {heard : List Accepted} {i : Iface} {own : Addresses}
    (last : lastConfig heard i = some (some own)) : ∃ a, heard.findSome? Accepted.taken = some a := by
  obtain ⟨accepted,member,config⟩ := List.exists_of_findSome?_eq_some last
  refine Option.isSome_iff_exists.mp (List.findSome?_isSome_iff.mpr ⟨accepted,member,?_⟩)
  cases accepted with
  | dhcp j => simp only [Accepted.config] at config; split at config <;> simp at config
  | address j own' taken => rfl
  | internet j => contradiction

/-- With the last addresses in flash, an interface is configured from its own just when no command
came between. -/
private theorem own_iff (heard : List Accepted) (i : Iface) (values : Addresses)
    (stored : ∀ a, heard.findSome? Accepted.taken = some a → values = a) :
    (flagOf heard i = false → lastConfig heard i = some (some values)) ↔ Undisturbed heard i := by
  induction heard with
  | nil => simp [flagOf, Undisturbed]
  | cons accepted heard ih =>
    cases accepted with
    | dhcp j =>
      by_cases own : j = i
      · simp [flagOf, Undisturbed, Accepted.flag, own]
      · have writes : flagOf (.dhcp j :: heard) i = false := by simp [flagOf, Accepted.flag, own]
        simp only [writes, forall_const, Undisturbed, List.find?_cons, Accepted.flag, Option.isSome_some, own, false_or]
        constructor
        · intro last
          obtain ⟨a,taken⟩ := config_taken last
          obtain rfl := stored a taken
          exact ⟨values,taken,last⟩
        · rintro ⟨own,taken,last⟩
          exact stored own taken ▸ last
    | address j own taken =>
      have read : values = taken := stored taken rfl
      by_cases same : j = i
      · simp [flagOf, Undisturbed, Accepted.flag, Accepted.config, lastConfig, same, read, eq_comm]
      · simp [flagOf, Undisturbed, Accepted.flag, same]
    | internet j =>
      by_cases own : j = i
      · have flags : flagOf (.internet j :: heard) i = flagOf heard i := by simp [flagOf, Accepted.flag, own]
        have same : Undisturbed (.internet j :: heard) i = Undisturbed heard i := by
          unfold Undisturbed
          rw [List.find?_cons_of_neg (by simp [Accepted.flag, own])]
          rfl
        rw [flags, same]
        exact ih stored
      · simp [flagOf, Undisturbed, Accepted.flag, own]

private theorem own_careful {s : Lifetime} (sound : s.Sound) : s.Own ↔ ∀ i, Undisturbed s.before i := by
  refine forall_congr' fun i => ?_
  have last (a : Addresses) (taken : s.before.findSome? Accepted.taken = some a) : s.booted.values = a := by
    rw [sound.values, lastTaken, taken]
    rfl
  rw [← own_iff s.before i s.booted.values last, sound.fromFlash i]
  simp

private theorem step_cases {s next : Lifetime} {event : LifeEvent} (sound : s.Sound) (stepped : s.step event = some next) :
    next.Sound ∧ match event with
      | .reboot _ _ _ => next.before = s.heard
      | .command _ _ | .task _ => next.before = s.before ∧ next.booted = s.booted := by
  cases event with
  | command command line =>
    simp only [Lifetime.step] at stepped
    split at stepped
    next typed =>
      obtain ⟨accepted,heard,moved⟩ := Option.bind_eq_some_iff.mp stepped
      obtain ⟨device,ran,rfl⟩ := Option.map_eq_some_iff.mp moved
      cases device_step ran with
      | line _ done => exact ⟨command_sound sound typed.2 (command_effect typed.1 heard done),rfl,rfl⟩
      | quiet foreign => contradiction
    next => contradiction
  | task event =>
    simp only [Lifetime.step] at stepped
    split at stepped
    next background =>
      obtain ⟨device,moved,rfl⟩ := Option.map_eq_some_iff.mp stepped
      exact ⟨task_sound sound background moved,rfl,rfl⟩
    next => contradiction
  | reboot junk behind boot =>
    simp only [Lifetime.step] at stepped
    split at stepped
    next idle =>
      exact reboot_sound sound idle stepped
    next => contradiction

/-- From the first boot on, over all commands, saves and reboots, every interface that is configured
from flash gets its own addresses exactly when each reboot finds both interfaces undisturbed. -/
theorem static_own (behind : Bytes 235) (boot : NetBoot) (s : Lifetime)
    (first : Lifetime.boot (fun _ => 0xff) behind boot [] = some s) (events : List LifeEvent) :
    Always Lifetime.step Lifetime.Own s events ↔ Meets Lifetime.step Lifetime.Careful s events := by
  obtain ⟨sound,before⟩ := boot_sound (Or.inr ⟨rfl,rfl⟩) erased_words first
  have own : s.Own := (own_careful sound).mpr fun i => by rw [before]; exact trivial
  refine always_iff_meets (fun s event next sound stepped => (step_cases sound stepped).1) ?_ sound own
  intro s event next sound own stepped
  obtain ⟨next_sound,change⟩ := step_cases sound stepped
  cases event with
  | command | task =>
    refine iff_of_true ?_ trivial
    unfold Lifetime.Own
    rw [change.1, change.2]
    exact own
  | reboot => rw [own_careful next_sound, change]; rfl

def powered : NetBoot := ⟨true,true,true,true⟩

def wlanDhcp : Line := ⟨(NetCommand.dhcp .wlan).text,by decide,by decide +kernel⟩

private theorem boots_first : (Lifetime.boot (fun _ => 0xff) (zeros 235) powered []).isSome = true := by
  obtain ⟨device,booted⟩ := boot_some (fun _ => 0xff) (zeros 235) powered
  rw [Lifetime.boot, booted]
  rfl

private def octet (digits : List UInt8) (numeric : digits ≠ [] ∧ (∀ c ∈ digits, digit c = true) ∧ decimal digits < 256) : Octet :=
  ⟨digits,numeric.1,numeric.2.1,numeric.2.2⟩

private def host (last : Octet) : Dotted :=
  ⟨octet (ascii "10") (by decide +kernel),octet (ascii "0") (by decide +kernel),octet (ascii "0") (by decide +kernel),last⟩

private def netmask : Dotted :=
  ⟨octet (ascii "255") (by decide +kernel),octet (ascii "0") (by decide +kernel),octet (ascii "0") (by decide +kernel),
    octet (ascii "0") (by decide +kernel)⟩

private def wlanStatic : NetCommand :=
  .address .wlan (host (octet (ascii "7") (by decide +kernel))) (host (octet (ascii "1") (by decide +kernel))) netmask

/-- `ipconfig wlan 10.0.0.7 10.0.0.1 255.0.0.0` and its saves. -/
private def wlanSaved : List LifeEvent :=
  .command wlanStatic ⟨wlanStatic.text,by decide +kernel,by decide +kernel⟩ :: List.replicate 40 (.task .storage)

private def rebooted : LifeEvent := .reboot (fun _ => 0) (zeros 235) powered

theorem static_own_saved : ∃ s, Lifetime.boot (fun _ => 0xff) (zeros 235) powered [] = some s ∧
    Always Lifetime.step Lifetime.Own s (wlanSaved ++ [rebooted]) :=
  ⟨_,Option.eq_some_of_isSome boots_first,
    (static_own (zeros 235) powered _ (Option.eq_some_of_isSome boots_first) (wlanSaved ++ [rebooted])).mpr (by decide +kernel)⟩

/-- After `ipconfig wlan dhcp` the next boot gives the Ethernet interface an address of no command. -/
theorem address_invented : ¬ ∀ (behind : Bytes 235) (boot : NetBoot) (s : Lifetime),
    Lifetime.boot (fun _ => 0xff) behind boot [] = some s → ∀ events, Always Lifetime.step Lifetime.Own s events := by
  intro all
  have own := all (zeros 235) powered _ (Option.eq_some_of_isSome boots_first)
    (.command (.dhcp .wlan) wlanDhcp :: List.replicate 24 (.task .storage) ++ [.reboot (fun _ => 0) (zeros 235) powered])
  exact absurd own (by decide +kernel)

/-- The interface as a boot brings it up after the commands: by DHCP, or with addresses. -/
def Follows (heard : List Accepted) (i : Iface) (started : Bool) (netif : Netif) : Prop :=
  netif = if flagOf heard i then dhcpStart (.added i) started
    else netifSetAddr (.added i) (lastTaken heard).ip (lastTaken heard).mask (lastTaken heard).gw

/-- The tasks run from the reset to the device, and the chips that answer have their interfaces. -/
def Brought (reset : Device) (boot : NetBoot) (heard : List Accepted) (device : Device) : Prop :=
  ∃ n net, run Device.step reset (List.replicate n .storage ++ [.netStart boot]) = some device ∧ device.net = some net ∧
    (boot.encInit = true → Follows heard .eth boot.encStarted net.enc) ∧
    (boot.wifiInit = true → Follows heard .wlan boot.wifiStarted net.winc)

private theorem boot_brought {flash : Content UInt8} {behind : Bytes 235} {boot : NetBoot} {heard : List Accepted} {next : Lifetime}
    (sound : next.Sound) (booted : Lifetime.boot flash behind boot heard = some next) :
    Brought (.start flash behind) boot heard next.device := by
  obtain ⟨device,up,rfl⟩ := Option.map_eq_some_iff.mp booted
  obtain ⟨n,ran⟩ := boot_run up
  have net : device.net = some (ethernetInitInsideThread device.g boot) := by
    unfold Device.boot at up
    split at up
    next => cases up; rfl
    next => contradiction
  have configured (i : Iface) (started : Bool) :
      Follows heard i started (if device.g.fromFlash i then netifSetAddr (.added i) device.g.ipaddrValue device.g.maskValue
        device.g.gwValue else dhcpStart (.added i) started) := by
    have values : device.g.values = lastTaken heard := sound.values
    have flag : device.g.fromFlash i = !flagOf heard i := sound.fromFlash i
    rw [Follows, ← values, flag]
    cases flagOf heard i <;> rfl
  refine ⟨n,_,ran,net,fun answers => ?_,fun answers => ?_⟩
  · rw [ethernetInitInsideThread, answers, netAddEncNetif_eq]
    exact configured .eth boot.encStarted
  · rw [ethernetInitInsideThread, answers, netAddWincNetif_eq]
    exact configured .wlan boot.wifiStarted

/-- The first boot and each later one are runs of the tasks, and what they make of an interface
follows from the commands before: DHCP while the last one that wrote its flag wrote `true`, and
otherwise the addresses of the last one that gave some. -/
theorem boots_follow (behind : Bytes 235) (boot : NetBoot) (s : Lifetime)
    (first : Lifetime.boot (fun _ => 0xff) behind boot [] = some s) :
    Brought (.start (fun _ => 0xff) behind) boot [] s.device ∧
      ∀ events now, run Lifetime.step s events = some now → ∀ junk behind boot next,
        now.step (.reboot junk behind boot) = some next →
        Brought (.start (now.device.survives junk) behind) boot now.heard next.device := by
  obtain ⟨sound,-⟩ := boot_sound (Or.inr ⟨rfl,rfl⟩) erased_words first
  refine ⟨boot_brought sound first,fun events now reached junk behind boot next stepped => ?_⟩
  have held : now.Sound := run_invariant (fun _ _ _ sound stepped => (step_cases sound stepped).1) sound reached
  obtain ⟨after,-⟩ := step_cases held stepped
  simp only [Lifetime.step] at stepped
  split at stepped
  next => exact boot_brought after stepped
  next => contradiction

private theorem stored_reboots : ((Lifetime.boot (fun _ => 0xff) (zeros 235) powered []).bind fun s =>
    (run Lifetime.step s wlanSaved).bind fun now => now.step rebooted).isSome = true := by decide +kernel

theorem boots_follow_stored : ∃ s now next, Lifetime.boot (fun _ => 0xff) (zeros 235) powered [] = some s ∧
    run Lifetime.step s wlanSaved = some now ∧ now.step rebooted = some next ∧
    Brought (.start (now.device.survives fun _ => 0) (zeros 235)) powered now.heard next.device := by
  obtain ⟨next,reboots⟩ := Option.isSome_iff_exists.mp stored_reboots
  obtain ⟨s,first,reboots⟩ := Option.bind_eq_some_iff.mp reboots
  obtain ⟨now,reached,stepped⟩ := Option.bind_eq_some_iff.mp reboots
  exact ⟨s,now,next,first,reached,stepped,(boots_follow (zeros 235) powered s first).2 wlanSaved now reached _ _ _ next stepped⟩

end PulseFirmware
