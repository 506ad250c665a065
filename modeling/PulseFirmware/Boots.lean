import PulseFirmware.Resting
import PulseFirmware.StoredArguments

/-! The device over its boots: commands that set how an interface gets its address, the storage task
and the network task between them, and reboots, each of which brings the interfaces up from what it
reads in flash. -/
namespace PulseFirmware
open PulseFirmware.CString PulseFirmware.Flash PulseFirmware.Run

def runStage (stage : Stage) (g : Globals) (flash : Content UInt8) : Outcome (Globals × Content UInt8) :=
  execOps ideal (stage.ops (stage.guard g)) g flash

private theorem ops_run (net : Option Net) {stage : Stage} {branch : Bool} {k : Nat} {g g' : Globals} {flash flash' : Content UInt8}
    (done : execOps ideal ((stage.ops branch).drop k) g flash = .ok (g',flash')) :
    run Device.step ⟨g,net,flash,.goto stage branch k⟩ (List.replicate ((stage.ops branch).length - k) .storage) =
      some ⟨g',net,flash',.enter stage.next⟩ := by
  induction more : (stage.ops branch).length - k generalizing k g flash with
  | zero =>
    rw [List.drop_eq_nil_of_le (by omega)] at done
    cases done
    rw [Pc.goto, if_neg (by omega)]
    rfl
  | succ n ih =>
    have inside : k < (stage.ops branch).length := by omega
    rw [List.drop_eq_getElem_cons inside] at done
    obtain ⟨⟨h,content⟩,executed,rest⟩ := bind_ok done
    rw [Pc.goto, if_pos inside, List.replicate_succ, run]
    have stepped : Device.step ⟨g,net,flash,.inside stage branch k⟩ .storage =
        some ⟨h,net,content,.goto stage branch (k + 1)⟩ := by
      simp only [Device.step, storageStep, List.getElem?_eq_getElem inside, executed]
      rfl
    rw [stepped]
    exact ih rest (by omega)

theorem stage_run (net : Option Net) {stage : Stage} {g g' : Globals} {flash flash' : Content UInt8}
    (done : runStage stage g flash = .ok (g',flash')) : ∃ n, run Device.step ⟨g,net,flash,.enter stage⟩
      (List.replicate n .storage) = some ⟨g',net,flash',.enter stage.next⟩ := by
  refine ⟨(stage.ops (stage.guard g)).length + 1,?_⟩
  rw [List.replicate_succ, run]
  change run Device.step ⟨g,net,flash,.goto stage (stage.guard g) 0⟩ _ = _
  exact ops_run net (by rw [List.drop_zero]; exact done)

def bootSection (flash : Content UInt8) (behind : Bytes 235) : Outcome (Globals × Content UInt8) := do
  let (g,flash) ← runStage .bootRead (.initial behind) flash
  let (g,flash) ← runStage .bootWifi g flash
  runStage .bootEth g flash

/-- A boot, up to the end of the first pass of the loop, in which nothing is to be done. -/
def Device.boot (flash : Content UInt8) (behind : Bytes 235) (boot : NetBoot) : Option Device :=
  match bootSection flash behind with
  | .ok (g,flash) => some ⟨g,some (ethernetInitInsideThread g boot),flash,.inside .update false 0⟩
  | .error _ => none

private theorem default_ok {stage : Stage} (default : stage = .bootWifi ∨ stage = .bootEth) (g : Globals) (flash : Content UInt8) :
    ∃ g' flash', runStage stage g flash = .ok (g',flash') := by
  unfold runStage
  rcases default with rfl | rfl
  · cases Stage.bootWifi.guard g <;> exact ⟨_,_,rfl⟩
  · cases Stage.bootEth.guard g <;> exact ⟨_,_,rfl⟩

theorem boot_some (flash : Content UInt8) (behind : Bytes 235) (boot : NetBoot) :
    ∃ device, Device.boot flash behind boot = some device := by
  obtain ⟨g,flash',read⟩ : ∃ g flash', runStage .bootRead (.initial behind) flash = .ok (g,flash') := ⟨_,_,rfl⟩
  obtain ⟨g1,flash1,wifi⟩ := default_ok (Or.inl rfl) g flash'
  obtain ⟨g2,flash2,eth⟩ := default_ok (Or.inr rfl) g1 flash1
  have ran : bootSection flash behind = .ok (g2,flash2) := by
    rw [bootSection, read]
    change (runStage .bootWifi g flash' >>= fun (g,flash) => runStage .bootEth g flash) = _
    rw [wifi]
    exact eth
  exact ⟨_,by rw [Device.boot, ran]⟩

private theorem boot_guard {stage later : Stage} {g g' : Globals} {flash flash' : Content UInt8}
    (default : stage = .bootWifi ∨ stage = .bootEth) (looping : later.boots = false)
    (done : runStage stage g flash = .ok (g',flash')) : later.guard g' = later.guard g := by
  unfold runStage at done
  rcases default with rfl | rfl
  · cases guard : Stage.bootWifi.guard g <;> rw [guard] at done <;> cases done <;> cases later <;>
      first | rfl | contradiction | (next x => cases x <;> rfl)
  · cases guard : Stage.bootEth.guard g <;> rw [guard] at done <;> cases done <;> cases later <;>
      first | rfl | contradiction | (next x => cases x <;> rfl)

private theorem boot_idle {g : Globals} {flash flash' : Content UInt8} {behind : Bytes 235}
    (ran : bootSection flash behind = .ok (g,flash')) {stage : Stage} (looping : stage.boots = false) : stage.guard g = false := by
  obtain ⟨⟨g1,flash1⟩,read,rest⟩ := bind_ok ran
  obtain ⟨⟨g2,flash2⟩,wifi,eth⟩ := bind_ok rest
  rw [boot_guard (Or.inr rfl) looping eth, boot_guard (Or.inl rfl) looping wifi]
  cases read
  cases stage with
  | save x => cases x <;> rfl
  | _ => first | rfl | contradiction

theorem boot_run {flash : Content UInt8} {behind : Bytes 235} {boot : NetBoot} {device : Device}
    (booted : Device.boot flash behind boot = some device) :
    ∃ n, run Device.step (.start flash behind) (List.replicate n .storage ++ [.netStart boot]) = some device := by
  unfold Device.boot at booted
  split at booted
  next g flash' ran =>
    cases booted
    have idle := @boot_idle _ _ _ _ ran
    obtain ⟨⟨g1,flash1⟩,read,rest⟩ := bind_ok ran
    obtain ⟨⟨g2,flash2⟩,wifi,eth⟩ := bind_ok rest
    obtain ⟨a,first⟩ := stage_run none read
    obtain ⟨b,second⟩ := stage_run none wifi
    obtain ⟨c,third⟩ := stage_run none eth
    have pass : run Device.step ⟨g,none,flash',.enter .testInternet⟩ (List.replicate 11 .storage) =
        some ⟨g,none,flash',.inside .update false 0⟩ := by
      have enter (stage : Stage) (looping : stage.boots = false) (empty : stage.ops false = []) :
          Device.step ⟨g,none,flash',.enter stage⟩ .storage = some ⟨g,none,flash',.enter stage.next⟩ := by
        simp [Device.step, storageStep, idle looping, Pc.goto, empty]
      have save (x : Setting) := enter (.save x) rfl rfl
      have last : Device.step ⟨g,none,flash',.enter .update⟩ .storage = some ⟨g,none,flash',.inside .update false 0⟩ := by
        simp [Device.step, storageStep, @idle .update rfl, Pc.goto, Stage.ops]
      simp only [List.replicate, run, enter .testInternet rfl rfl, enter .restart rfl rfl, save, Option.bind_some, Stage.next, last]
    refine ⟨a + (b + (c + 11)),?_⟩
    rw [run_append, List.replicate_add, run_append, Device.start, first, Option.bind_some, List.replicate_add, run_append]
    change ((run Device.step ⟨g1,none,flash1,.enter .bootWifi⟩ _).bind _).bind _ = _
    rw [second, Option.bind_some, List.replicate_add, run_append]
    change ((run Device.step ⟨g2,none,flash2,.enter .bootEth⟩ _).bind _).bind _ = _
    rw [third, Option.bind_some]
    change (run Device.step ⟨g,none,flash',.enter .testInternet⟩ _).bind _ = _
    rw [pass]
    rfl
  next => contradiction

inductive NetCommand
  | dhcp (iface : Iface)
  | address (iface : Iface) (ip gw mask : Dotted)
  | internet (iface : Iface)

def NetCommand.text : NetCommand → List UInt8
  | .dhcp iface => ascii iface.word ++ ascii "dhcp"
  | .address iface ip gw mask => ipconfigText iface ip gw mask
  | .internet .wlan => ascii "internet wifi"
  | .internet .eth => ascii "internet ethernet"

structure Addresses where
  ip : UInt32
  gw : UInt32
  mask : UInt32
deriving DecidableEq

/-- A command that was accepted; for addresses, with those of its text and those read from it. -/
inductive Accepted
  | dhcp (iface : Iface)
  | address (iface : Iface) (own taken : Addresses)
  | internet (iface : Iface)
deriving DecidableEq

def NetCommand.accepted (g : Globals) (line : Line) : NetCommand → Option Accepted
  | .dhcp iface => some (.dhcp iface)
  | .address iface ip gw mask =>
    match g.parsed line with
    | some [a,b,c] => if c = 0 then none else some (.address iface ⟨ip.value,gw.value,mask.value⟩ ⟨a,b,c⟩)
    | _ => none
  | .internet iface => some (.internet iface)

/-- The device with the commands accepted so far and those before the last boot, the last one
first, and the variables from which that boot brought the interfaces up. -/
structure Lifetime where
  device : Device
  heard : List Accepted
  booted : Globals
  before : List Accepted

def Lifetime.boot (flash : Content UInt8) (behind : Bytes 235) (boot : NetBoot) (heard : List Accepted) : Option Lifetime :=
  (Device.boot flash behind boot).map fun device => ⟨device,heard,device.g,heard⟩

def Pc.betweenSaves (pc : Pc) : Prop := ∀ x : Setting, x.place pc = none

instance (pc : Pc) : Decidable pc.betweenSaves := inferInstanceAs (Decidable (∀ x : Setting, x.place pc = none))

def Device.NothingPending (s : Device) : Prop := s.pc.betweenSaves ∧ ∀ x : Setting, x.pending s.g = false

instance (s : Device) : Decidable s.NothingPending := inferInstanceAs (Decidable (_ ∧ _))

def Event.background : Event → Bool
  | .line _ | .reset _ _ => false
  | .storage | .netStart _ | .poll _ | .queue _ | .select | .others _ _ _ => true

inductive LifeEvent
  | command (command : NetCommand) (line : Line)
  | task (event : Event)
  | reboot (junk : Content UInt8) (behind : Bytes 235) (boot : NetBoot)

/-- Commands come between the saves, reboots when nothing is pending. -/
def Lifetime.step (s : Lifetime) : LifeEvent → Option Lifetime
  | .command command line =>
    if line.bytes = command.text ∧ s.device.pc.betweenSaves then
      (command.accepted s.device.g line).bind fun accepted =>
        (s.device.step (.line line)).map fun device => { s with device, heard := accepted :: s.heard }
    else none
  | .task event => if event.background then (s.device.step event).map fun device => { s with device } else none
  | .reboot junk behind boot =>
    if s.device.NothingPending then Lifetime.boot (s.device.survives junk) behind boot s.heard else none

/-- The boot configures the interface from `ipaddr_value`, `gw_value` and `mask_value`. -/
def Globals.fromFlash (g : Globals) : Iface → Bool
  | .eth => strncmpEq g.dhcpCheckEth.toList (literal "false") 4
  | .wlan => !strncmpEq g.dhcpCheckWifi.toList (literal "true") 4

/-- An interface as `netif_add` and the flags set after it leave it. -/
def Netif.added : Iface → Netif
  | .eth => ⟨⟨true,true,false,true,true⟩,0,0,0xffffffff,false⟩
  | .wlan => ⟨⟨true,true,false,false,true⟩,0,0,0xffffffff,false⟩

theorem netAddEncNetif_eq (g : Globals) (started : Bool) : netAddEncNetif g true started =
    if g.fromFlash .eth then netifSetAddr (.added .eth) g.ipaddrValue g.maskValue g.gwValue
    else dhcpStart (.added .eth) started := by
  unfold netAddEncNetif netifConfigure Globals.fromFlash
  cases strncmpEq g.dhcpCheckEth.toList (literal "false") 4 <;> rfl

theorem netAddWincNetif_eq (g : Globals) (started : Bool) : netAddWincNetif g true started =
    if g.fromFlash .wlan then netifSetAddr (.added .wlan) g.ipaddrValue g.maskValue g.gwValue
    else dhcpStart (.added .wlan) started := by
  unfold netAddWincNetif netifConfigure Globals.fromFlash
  cases strncmpEq g.dhcpCheckWifi.toList (literal "true") 4 <;> rfl

def Globals.values (g : Globals) : Addresses := ⟨g.ipaddrValue,g.gwValue,g.maskValue⟩

/-- What a command makes of the interface, if it is an `ipconfig` for it: DHCP, or its addresses. -/
def Accepted.config (i : Iface) : Accepted → Option (Option Addresses)
  | .dhcp j => if j = i then some none else none
  | .address j own _ => if j = i then some (some own) else none
  | .internet _ => none

def lastConfig (heard : List Accepted) (i : Iface) : Option (Option Addresses) := heard.findSome? (·.config i)

/-- An interface that was configured from flash got the addresses of its last `ipconfig` command. -/
def Lifetime.Own (s : Lifetime) : Prop :=
  ∀ i, s.booted.fromFlash i = true → lastConfig s.before i = some (some s.booted.values)

instance (s : Lifetime) : Decidable s.Own :=
  decidable_of_iff (∀ i ∈ [Iface.eth,.wlan], s.booted.fromFlash i = true → lastConfig s.before i = some (some s.booted.values))
    ⟨fun all i => all i (by cases i <;> decide),fun all i _ => all i⟩

def Accepted.flag (i : Iface) : Accepted → Option Bool
  | .dhcp j => some (j = i)
  | .address j _ _ => some (j ≠ i)
  | .internet j => if j = i then none else some true

def Accepted.taken : Accepted → Option Addresses
  | .address _ _ taken => some taken
  | .dhcp _ | .internet _ => none

/-- Where the last command that writes the flag of the interface is the `dhcp` of the other one, its
own last `ipconfig` command was the last with addresses; and its addresses were read as they are. -/
def Undisturbed (heard : List Accepted) (i : Iface) : Prop :=
  match heard.find? fun accepted => (accepted.flag i).isSome with
  | some (.dhcp j) => j = i ∨ ∃ own ∈ heard.findSome? Accepted.taken, lastConfig heard i = some (some own)
  | some (.address j own taken) => j = i → taken = own
  | some (.internet _) | none => True

instance (heard : List Accepted) (i : Iface) : Decidable (Undisturbed heard i) :=
  match found : heard.find? fun accepted => (accepted.flag i).isSome with
  | some (.dhcp j) =>
    decidable_of_iff (j = i ∨ ∃ own ∈ heard.findSome? Accepted.taken, lastConfig heard i = some (some own))
      (by rw [Undisturbed, found])
  | some (.address j own taken) => decidable_of_iff (j = i → taken = own) (by rw [Undisturbed, found])
  | some (.internet _) | none => isTrue (by rw [Undisturbed, found]; trivial)

def Lifetime.Careful (s : Lifetime) : LifeEvent → Prop
  | .reboot _ _ _ => ∀ i, Undisturbed s.heard i
  | .command _ _ | .task _ => True

instance (s : Lifetime) : DecidablePred s.Careful
  | .reboot _ _ _ => decidable_of_iff (∀ i ∈ [Iface.eth,.wlan], Undisturbed s.heard i)
    ⟨fun all i => all i (by cases i <;> decide),fun all i _ => all i⟩
  | .command _ _ | .task _ => isTrue trivial

end PulseFirmware
