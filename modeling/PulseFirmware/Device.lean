import PulseFirmware.Phase
import PulseFirmware.Network
import PulseFirmware.Lib.Run

/-! The device: the storage task, the network task, the command lines and resets over one set
of variables and one flash. Other tasks run only while the storage task waits. -/
namespace PulseFirmware
open PulseFirmware.CString PulseFirmware.Flash

structure Device where
  g : Globals
  /-- the network interfaces, once they are up -/
  net : Option Net
  flash : Content UInt8
  pc : Pc

/-- A step of the storage task, a complete line, a step of the network task, the flags of the
remaining tasks, or a reset for whatever reason. -/
inductive Event
  | storage
  | line (line : Line)
  | netStart (boot : NetBoot)
  | poll (input : PollInput)
  | queue (started : Bool)
  | select
  | others (checkInternet restartSystem isBleOn : Bool)
  | reset (junk : Content UInt8) (behind : Bytes 235)

def Pc.inFlight (g : Globals) (a : Nat) : Pc → Bool
  | .inside stage branch (k + 1) =>
    match (stage.ops branch)[k + 1]?,(stage.ops branch)[k]? with
    | some .waitForFlashReady,some op => op.touches g a
    | _,_ => false
  | _ => false

def Device.start (flash : Content UInt8) (behind : Bytes 235) : Device :=
  ⟨.initial behind,none,flash,.enter .bootRead⟩

/-- What is in flash after a reset: the operation in flight may have left anything. -/
def Device.survives (s : Device) (junk : Content UInt8) : Content UInt8 :=
  fun a => if s.pc.inFlight s.g a then junk a else s.flash a

def Device.withNet (s : Device) (f : Globals → Net → Globals × Net) : Option Device :=
  if s.pc.yields then s.net.map fun net => { s with g := (f s.g net).1, net := some (f s.g net).2 } else none

/-- A line or a step that resets the chip is the `reset` event at that place. -/
def Device.step (s : Device) : Event → Option Device
  | .storage =>
    match storageStep ideal s.g s.flash s.pc with
    | .ok (g,flash,pc) => some { s with g, flash, pc }
    | .error _ => none
  | .line line =>
    if s.pc.yields then
      match s.g.runLine line with
      | .ok g => some { s with g }
      | .error _ => none
    else none
  | .netStart boot =>
    if s.pc.yields ∧ s.net = none then some { s with net := some (ethernetInitInsideThread s.g boot) } else none
  | .poll input => s.withNet fun g net => pollMode g net input
  | .queue started => s.withNet fun g net => wifiCheckConnectQueue g net started
  | .select => s.withNet selectTimeout
  | .others checkInternet restartSystem isBleOn =>
    if s.pc.yields then some { s with g := { s.g with checkInternet, restartSystem, isBleOn } } else none
  | .reset junk behind => some (.start (s.survives junk) behind)

private theorem wifiCb_spared (x : Setting) (p : Globals × Net) (event : WifiEvent) : x.Spared p.1 (wifiCb p event).1 := by
  rcases event with (_ | _ | _) | _ <;> cases x <;> exact ⟨⟨rfl,rfl⟩,fun _ => Iff.rfl⟩

theorem Setting.Spared.trans {x : Setting} {g h k : Globals} (first : x.Spared g h) (second : x.Spared h k) :
    x.Spared g k :=
  ⟨first.keeps.trans second.keeps,fun value => (second.working value).trans (first.working value)⟩

theorem pollMode_spared (x : Setting) (g : Globals) (net : Net) (input : PollInput) :
    x.Spared g (pollMode g net input).1 := by
  have polled (events : List WifiEvent) (p : Globals × Net) : x.Spared p.1 (events.foldl wifiCb p).1 := by
    induction events generalizing p with
    | nil => exact .refl x p.1
    | cons event events ih => exact (wifiCb_spared x p event).trans (ih (wifiCb p event))
  unfold pollMode
  split
  next => exact polled input.events (g,net)
  next => split <;> exact .refl x g

theorem queue_spared (x : Setting) (g : Globals) (net : Net) (started : Bool) :
    x.Spared g (wifiCheckConnectQueue g net started).1 := by
  unfold wifiCheckConnectQueue
  split
  next => exact .refl x g
  next msg _ =>
    cases msg with
    | ipsettings config =>
      simp only [dispatchRequest]
      split <;> cases x <;> exact ⟨⟨rfl,rfl⟩,fun _ => Iff.rfl⟩
    | _ => cases x <;> exact ⟨⟨rfl,rfl⟩,fun _ => Iff.rfl⟩

private theorem setDefault_spared (x : Setting) (g : Globals) (net : Net) (iface : Iface) :
    x.Spared g (setDefault g net iface).1 := by
  unfold setDefault
  split
  next => exact .refl x g
  next => cases x <;> exact ⟨⟨rfl,rfl⟩,fun _ => Iff.rfl⟩

private theorem reportConnected_spared (x : Setting) (g : Globals) (net : Net) :
    x.Spared g (reportConnected g net).1 := by
  unfold reportConnected
  split
  next => split <;> cases x <;> exact ⟨⟨rfl,rfl⟩,fun _ => Iff.rfl⟩
  next => exact .refl x g

theorem select_spared (x : Setting) (g : Globals) (net : Net) : x.Spared g (selectTimeout g net).1 := by
  unfold selectTimeout selectInterface
  split
  next =>
    split
    next => exact setDefault_spared x g _ .eth
    next =>
      split
      next => exact (setDefault_spared x g _ .wlan).trans (reportConnected_spared x _ _)
      next => cases x <;> exact ⟨⟨rfl,rfl⟩,fun _ => Iff.rfl⟩
  next => exact .refl x g

theorem withNet_cases {s next : Device} {f : Globals → Net → Globals × Net} (stepped : s.withNet f = some next) :
    s.pc.yields = true ∧ ∃ net, s.net = some net ∧ next = { s with g := (f s.g net).1, net := some (f s.g net).2 } := by
  unfold Device.withNet at stepped
  split at stepped
  next waits =>
    obtain ⟨net,up,same⟩ := Option.map_eq_some_iff.mp stepped
    exact ⟨waits,net,up,same.symm⟩
  next => contradiction

def Event.foreign : Event → Bool
  | .storage | .line _ | .reset _ _ => false
  | .netStart _ | .poll _ | .queue _ | .select | .others _ _ _ => true

inductive DeviceStep (s : Device) : Event → Device → Prop
  | storage {g : Globals} {flash : Content UInt8} {pc : Pc}
      (stepped : storageStep ideal s.g s.flash s.pc = .ok (g,flash,pc)) :
      DeviceStep s .storage { s with g, flash, pc }
  | line {line : Line} {g : Globals} (waits : s.pc.yields = true) (done : s.g.runLine line = .ok g) :
      DeviceStep s (.line line) { s with g }
  | quiet {event : Event} {g : Globals} {net : Option Net} (foreign : event.foreign = true) (spared : ∀ x : Setting, x.Spared s.g g) :
      DeviceStep s event { s with g, net }
  | reset {junk : Content UInt8} {behind : Bytes 235} :
      DeviceStep s (.reset junk behind) (.start (s.survives junk) behind)

theorem device_step {s next : Device} {event : Event} (stepped : s.step event = some next) : DeviceStep s event next := by
  cases event with
  | storage =>
    simp only [Device.step] at stepped
    split at stepped
    next result => cases stepped; exact .storage result
    next => contradiction
  | line line =>
    simp only [Device.step] at stepped
    split at stepped
    next waits =>
      split at stepped
      next done => cases stepped; exact .line waits done
      next => contradiction
    next => contradiction
  | netStart boot =>
    simp only [Device.step] at stepped
    split at stepped
    next => cases stepped; exact .quiet rfl fun x => .refl x s.g
    next => contradiction
  | poll input =>
    simp only [Device.step] at stepped
    obtain ⟨_,net,_,rfl⟩ := withNet_cases stepped
    exact .quiet rfl fun x => pollMode_spared x s.g net input
  | queue started =>
    simp only [Device.step] at stepped
    obtain ⟨_,net,_,rfl⟩ := withNet_cases stepped
    exact .quiet rfl fun x => queue_spared x s.g net started
  | select =>
    simp only [Device.step] at stepped
    obtain ⟨_,net,_,rfl⟩ := withNet_cases stepped
    exact .quiet rfl fun x => select_spared x s.g net
  | others checkInternet restartSystem isBleOn =>
    simp only [Device.step] at stepped
    split at stepped
    next => cases stepped; exact .quiet rfl fun x => by cases x <;> exact ⟨⟨rfl,rfl⟩,fun _ => Iff.rfl⟩
    next => contradiction
  | reset junk behind => cases stepped; exact .reset

theorem storage_stage {g g' : Globals} {flash flash' : Content UInt8} {pc pc' : Pc}
    (stepped : storageStep ideal g flash pc = .ok (g',flash',pc')) :
    pc'.stage = pc.stage ∨ pc'.stage = pc.stage.next := by
  have goto (stage : Stage) (branch : Bool) (k : Nat) :
      (Pc.goto stage branch k).stage = stage ∨ (Pc.goto stage branch k).stage = stage.next := by
    unfold Pc.goto
    split
    next => exact Or.inl rfl
    next => exact Or.inr rfl
  cases pc with
  | enter stage => cases stepped; exact goto stage _ 0
  | inside stage branch k =>
    simp only [storageStep] at stepped
    split at stepped
    next => contradiction
    next op _ =>
      obtain ⟨⟨h,content⟩,_,rest⟩ := bind_ok stepped
      cases rest
      exact goto stage branch (k + 1)

theorem stage_next_notRead (stage : Stage) : stage.next ≠ .bootRead := by
  cases stage with
  | save x => cases x <;> exact fun same => nomatch same
  | _ => exact fun same => nomatch same

theorem yields_notRead {pc : Pc} (waits : pc.yields = true) : pc.stage ≠ .bootRead := by
  intro boot
  cases pc with
  | enter stage => contradiction
  | inside stage branch k =>
    obtain rfl : stage = .bootRead := boot
    cases branch
    · contradiction
    · rcases k with _ | _ | _ | _ | _ | _ | _ | _ | _ | _ | _ | _ | k <;> contradiction

end PulseFirmware
