import PulseFirmware.Device

/-! Settings updates between the command handler and the storage task. The mark of a setting
says that something is to be saved, not what: a command that comes after the write and before
the mark is cleared is forgotten, and so is a saved token or link when the internet mode
erases the page they share. -/
namespace PulseFirmware
open PulseFirmware.CString PulseFirmware.Flash PulseFirmware.Run

/-- The settings the working copies belong to. -/
def trackedSettings : List Setting := [.token,.link,.internet,.config]

/-- The device with the value of the last command for each setting since the last reset. -/
structure Log where
  device : Device
  received : Setting → Option (List (List UInt8))

def Log.start (flash : Content UInt8) (behind : Bytes 235) : Log := ⟨.start flash behind,fun _ => none⟩

def Log.hear (s : Log) : Event → Setting → Option (List (List UInt8))
  | .line line, x => if x.hears s.device.g line then some (x.carries s.device.g line) else s.received x
  | .reset _ _, _ => none
  | _, x => s.received x

def Log.step (s : Log) (event : Event) : Option Log :=
  (s.device.step event).map fun device => ⟨device,s.hear event⟩

/-- At the head of the loop, a setting whose mark is clear has the last value in flash and in RAM. -/
def Log.Current (s : Log) : Prop :=
  s.device.pc = .head → ∀ x ∈ trackedSettings, ∀ value ∈ s.received x, x.pending s.device.g = false →
    x.stored s.device.flash = value ∧ x.working s.device.g value

/-- No command but a repetition comes for a setting between its write and the end of its save,
and the internet mode is saved while no token or link received is in flash alone. -/
def Timely (s : Log) : Event → Prop
  | .line line => ∀ x ∈ trackedSettings, x.late s.device.pc = true → x.hears s.device.g line = true →
      s.received x = some (x.carries s.device.g line)
  | .storage => s.device.pc = .inside (.save .internet) true 0 → ∀ x ∈ trackedSettings, x.sharesPage = true →
      s.received x ≠ none → x.pending s.device.g = true
  | _ => True

instance (s : Log) (event : Event) : Decidable (Timely s event) :=
  match event with
  | .line line => inferInstanceAs (Decidable (∀ x ∈ trackedSettings, x.late s.device.pc = true →
      x.hears s.device.g line = true → s.received x = some (x.carries s.device.g line)))
  | .storage => inferInstanceAs (Decidable (s.device.pc = .inside (.save .internet) true 0 →
      ∀ x ∈ trackedSettings, x.sharesPage = true → s.received x ≠ none → x.pending s.device.g = true))
  | .netStart _ | .poll _ | .queue _ | .select | .others _ _ _ | .reset _ _ => isTrue trivial

instance (s : Log) : Decidable s.Current :=
  inferInstanceAs (Decidable (s.device.pc = .head → ∀ x ∈ trackedSettings, ∀ value ∈ s.received x,
    x.pending s.device.g = false → x.stored s.device.flash = value ∧ x.working s.device.g value))

structure Log.OnWay (s : Log) : Prop where
  phase : ∀ x ∈ trackedSettings, ∀ value ∈ s.received x, x.Phase value true s.device.g s.device.flash s.device.pc
  booted : ∀ x, s.received x ≠ none → s.device.pc.stage ≠ .bootRead

private theorem onWay_current {s : Log} (way : s.OnWay) : s.Current := by
  intro head x tracked value received idle
  have phase := way.phase x tracked value received
  rw [head, Setting.Phase, Pc.head, Setting.place_enter] at phase
  rcases phase with waits | ⟨_,kept⟩
  · rw [waits.pending] at idle; contradiction
  · exact ⟨kept.stored,kept.working rfl⟩

private theorem log_line {s : Log} {line : Line} {g : Globals} (way : s.OnWay) (timely : Timely s (.line line))
    (waits : s.device.pc.yields = true) (done : s.device.g.runLine line = .ok g) :
    Log.OnWay ⟨{ s.device with g },s.hear (.line line)⟩ := by
  refine ⟨fun x tracked value received => ?_,fun _ _ => yields_notRead waits⟩
  have same := (runLine_copies done).working x
  cases hears : x.hears s.device.g line with
  | true =>
    simp only [Log.hear, hears, if_true, Option.mem_some_iff] at received
    subst received
    obtain ⟨pending,saved⟩ := runLine_hears done hears
    refine phase_heard pending saved same fun k place after => ?_
    exact way.phase x tracked _ (timely x tracked (Setting.late_of_place place after) hears)
  | false =>
    simp only [Log.hear, hears, Bool.false_eq_true, if_false] at received
    have notIp : x ≠ .ip := fun ip => by subst ip; contradiction
    have notDhcp : x ≠ .dhcp := fun dhcp => by subst dhcp; contradiction
    exact (way.phase x tracked value received).spared ⟨runLine_keeps notIp notDhcp done hears,same⟩

private theorem log_keeps (s : Log) (event : Event) (next : Log) (way : s.OnWay) (timely : Timely s event)
    (stepped : s.step event = some next) : next.OnWay := by
  obtain ⟨device,moved,rfl⟩ := Option.map_eq_some_iff.mp stepped
  cases device_step moved with
  | storage taken =>
    refine ⟨fun x tracked value received => ?_,fun x received => ?_⟩
    · have known : s.received x ≠ none := Option.ne_none_iff_exists'.mpr ⟨value,received⟩
      refine phase_storage taken (way.phase x tracked value received) (way.booted x known) ?_ fun erasing shares => ?_
      · intro dhcp; subst dhcp; contradiction
      · exact timely erasing x tracked shares known
    · rcases storage_stage taken with same | after
      · exact same ▸ way.booted x received
      · exact after ▸ stage_next_notRead _
  | line waits done => exact log_line way timely waits done
  | quiet foreign spared =>
    have same : s.hear event = s.received := by cases event <;> first | rfl | contradiction
    rw [same]
    exact ⟨fun x tracked value received => (way.phase x tracked value received).spared (spared x),way.booted⟩
  | reset => exact ⟨fun _ _ _ received => (nomatch received),fun _ received => absurd rfl received⟩

private theorem start_onWay (flash : Content UInt8) (behind : Bytes 235) : (Log.start flash behind).OnWay :=
  ⟨fun _ _ _ received => (nomatch received),fun _ received => absurd rfl received⟩

/-- In a run whose commands are timely no update is lost. A run ends where `strcpy` reads a
240-byte array that holds no terminator, since C gives that read no meaning. -/
theorem updates_kept (flash : Content UInt8) (behind : Bytes 235) (events : List Event)
    (timely : Meets Log.step Timely (.start flash behind) events) :
    Always Log.step Log.Current (.start flash behind) events :=
  always_of_invariant log_keeps (fun _ => onWay_current) (start_onWay flash behind) timely

private theorem firstToken_fits : (ascii "token a").length ≤ 256 := by decide

private theorem firstToken_unbroken : ∀ b ∈ ascii "token a", b ≠ 13 ∧ b ≠ 10 := by decide +kernel

def firstToken : Line := .ofText "token a" firstToken_fits firstToken_unbroken

def secondToken : Line := .ofText "token b" (by decide) (by decide +kernel)

theorem updates_kept_token :
    Meets Log.step Timely (.start (fun _ => 0xff) (zeros 235))
        (List.replicate 19 .storage ++ [.line firstToken] ++ List.replicate 19 .storage) ∧
      Always Log.step Log.Current (.start (fun _ => 0xff) (zeros 235))
        (List.replicate 19 .storage ++ [.line firstToken] ++ List.replicate 19 .storage) :=
  have timely : Meets Log.step Timely (.start (fun _ => 0xff) (zeros 235))
      (List.replicate 19 .storage ++ [.line firstToken] ++ List.replicate 19 .storage) := by decide +kernel
  ⟨timely,updates_kept _ _ _ timely⟩

/-- The second `token` command comes while the task waits for the write of the first. -/
theorem second_token_lost : ¬ ∀ (flash : Content UInt8) (behind : Bytes 235) (events : List Event),
    Always Log.step Log.Current (.start flash behind) events := by
  intro all
  have kept := all (fun _ => 0xff) (zeros 235)
    (List.replicate 19 .storage ++ [.line firstToken] ++ List.replicate 7 .storage ++
      [.line secondToken] ++ List.replicate 11 .storage)
  exact absurd kept (by decide +kernel)

end PulseFirmware
