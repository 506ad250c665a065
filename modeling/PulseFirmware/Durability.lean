import PulseFirmware.Reports
import PulseFirmware.Resting

/-! Acknowledged settings and resets. Success is reported by whoever handled the command, the
save follows when the storage task comes to it, and a reset may come at any point. -/
namespace PulseFirmware
open PulseFirmware.CString PulseFirmware.Flash PulseFirmware.Run

/-- The device with what it has been asked to keep and what it has acknowledged. -/
structure Ledger where
  device : Device
  /-- the value of the last command since the reset -/
  asked : Setting → Option (List (List UInt8))
  /-- a line that was no command for the setting has changed it since -/
  stale : Setting → Bool
  /-- the value success was last reported for, unless a later line has touched the setting -/
  acked : Setting → Option (List (List UInt8))

def Ledger.start (flash : Content UInt8) (behind : Bytes 235) : Ledger :=
  ⟨.start flash behind,fun _ => none,fun _ => false,fun _ => none⟩

def Setting.changed (x : Setting) (g g' : Globals) : Bool :=
  decide (x.pending g' ≠ x.pending g) || decide (x.saved g' ≠ x.saved g)

def Ledger.ask (s : Ledger) : Event → Setting → Option (List (List UInt8))
  | .line line, x => if x.hears s.device.g line then some (x.carries s.device.g line) else s.asked x
  | .reset _ _, _ => none
  | _, x => s.asked x

def Ledger.spoil (s : Ledger) (device : Device) : Event → Setting → Bool
  | .line line, x => !x.hears s.device.g line && (s.stale x || x.changed s.device.g device.g)
  | .reset _ _, _ => false
  | _, x => s.stale x

/-- What is left of the acknowledgements when no success is reported. -/
def Ledger.left (s : Ledger) (device : Device) : Event → Setting → Option (List (List UInt8))
  | .line line, x => if x.hears s.device.g line || x.changed s.device.g device.g then none else s.acked x
  | _, x => s.acked x

def Ledger.step (s : Ledger) (event : Event) : Option Ledger :=
  (s.device.step event).map fun device =>
    { device
      asked := s.ask event
      stale := s.spoil device event
      acked := fun x => if x.reported s.device.g device.g then s.ask event x else s.left device event x }

/-- The boot finds every acknowledged value in flash. -/
def Durable (s : Ledger) : Prop :=
  s.device.pc = .enter .bootRead → ∀ x, ∀ value ∈ s.acked x, x.loaded s.device.flash = x.kept value

/-- All that is left of the save are delays and assignments. -/
def Setting.written (x : Setting) (pc : Pc) : Bool :=
  (x.place pc).any fun k => ((saveOps x).drop k).all fun op =>
    match op with
    | .vTaskDelay | .compute _ => true
    | _ => false

def Ledger.clean (s : Ledger) : Option NetworkMsg → Bool
  | some (.ipsettings config) => !s.stale .dhcp && (config.dhcp || !s.stale .ip)
  | _ => true

/-- The steps that keep what was acknowledged. -/
def Careful (s : Ledger) : Event → Prop
  -- a command between the write and the end of the save repeats the value
  | .line line => ∀ x, x.late s.device.pc = true → x.hears s.device.g line = true →
      s.stale x = false ∧ s.asked x = some (x.carries s.device.g line)
  | .storage =>
    -- the internet mode is saved while nothing else on its page is in flash alone
    (s.device.pc = .inside (.save .internet) true 0 → ∀ x, x.sharesPage = true →
      (s.asked x = none ∧ s.acked x = none) ∨ x.pending s.device.g = true) ∧
    -- a default flag takes no other value away
    (s.asked .dhcp ≠ none → s.stale .dhcp = false →
      (s.device.pc = .inside .bootWifi false 2 → strcmpEq s.device.g.dhcpCheckWifi.toList (literal "true") = true) ∧
      (s.device.pc = .inside .bootEth false 2 → strcmpEq s.device.g.dhcpCheckEth.toList (literal "true") = true))
  -- success is reported while the variables are as the command has left them
  | .queue _ => s.clean s.device.g.wifiConQ = true
  -- a reset finds every acknowledged value written
  | .reset _ _ => ∀ x, s.acked x ≠ none → x.pending s.device.g = false ∨ x.written s.device.pc = true
  | _ => True

instance (s : Ledger) : Decidable (Durable s) :=
  inferInstanceAs (Decidable (s.device.pc = .enter .bootRead → ∀ x, ∀ value ∈ s.acked x,
    x.loaded s.device.flash = x.kept value))

instance (s : Ledger) (event : Event) : Decidable (Careful s event) :=
  match event with
  | .line line => inferInstanceAs (Decidable (∀ x : Setting, x.late s.device.pc = true →
      x.hears s.device.g line = true → s.stale x = false ∧ s.asked x = some (x.carries s.device.g line)))
  | .storage => inferInstanceAs (Decidable
      ((s.device.pc = .inside (.save .internet) true 0 → ∀ x : Setting, x.sharesPage = true →
        (s.asked x = none ∧ s.acked x = none) ∨ x.pending s.device.g = true) ∧
      (s.asked .dhcp ≠ none → s.stale .dhcp = false →
        (s.device.pc = .inside .bootWifi false 2 →
          strcmpEq s.device.g.dhcpCheckWifi.toList (literal "true") = true) ∧
        (s.device.pc = .inside .bootEth false 2 →
          strcmpEq s.device.g.dhcpCheckEth.toList (literal "true") = true))))
  | .queue _ => inferInstanceAs (Decidable (s.clean s.device.g.wifiConQ = true))
  | .reset _ _ => inferInstanceAs (Decidable (∀ x : Setting, s.acked x ≠ none →
      x.pending s.device.g = false ∨ x.written s.device.pc = true))
  | .netStart _ | .poll _ | .select | .others _ _ _ => isTrue trivial

structure Setting.Owed (x : Setting) (value : List (List UInt8)) (g : Globals) (flash : Content UInt8) (pc : Pc) :
    Prop where
  booted : pc.stage ≠ .bootRead
  phase : x.Phase value false g flash pc
  flags : x = .dhcp → FlagValues value ∧ (pc.stage = .bootWifi ∨ pc.stage = .bootEth → x.Saving value 0 g flash)

theorem Setting.Owed.spared {x : Setting} {value : List (List UInt8)} {g g' : Globals} {flash : Content UInt8}
    {pc : Pc} (owed : x.Owed value g flash pc) (spared : x.Spared g g') : x.Owed value g' flash pc where
  booted := owed.booted
  phase := owed.phase.spared spared
  flags own := by
    refine ⟨(owed.flags own).1,fun booting => ?_⟩
    have waits := (owed.flags own).2 booting
    exact ⟨spared.keeps.pending.trans waits.pending,spared.keeps.saved.trans waits.saved,rfl⟩

private theorem strcpyLit_same {n : Nat} {flag : Bytes n} {text : String} (printable : 0 ∉ ascii text)
    (same : strcmpEq flag.toList (literal text) = true) : strcpyLit flag text = flag := by
  have start : literal text <+: flag.toList := (strcmpEq_terminated printable _).mp same
  apply List.Vector.toList_injective
  have size := flag.toList_length
  rw [strcpyLit, memcpy_toList _ _ (by simpa [size] using start.length_le)]
  obtain ⟨rest,whole⟩ := start
  rw [← whole, List.drop_left]

private theorem owed_boot {value : List (List UInt8)} {g g' : Globals} {flash flash' : Content UInt8} {pc pc' : Pc}
    (stepped : StorageStep .dhcp g flash pc g' flash' pc') (booting : pc.stage = .bootWifi ∨ pc.stage = .bootEth)
    (waits : Setting.dhcp.Saving value 0 g flash)
    (wifi : pc = .inside .bootWifi false 2 → strcmpEq g.dhcpCheckWifi.toList (literal "true") = true)
    (eth : pc = .inside .bootEth false 2 → strcmpEq g.dhcpCheckEth.toList (literal "true") = true) :
    Setting.dhcp.Saving value 0 g' flash' ∧ Setting.dhcp.place pc' = none := by
  cases stepped with
  | enter stage =>
    refine ⟨⟨waits.pending,waits.saved,rfl⟩,Setting.place_goto ?_⟩
    rcases booting with at_wifi | at_eth
    · rw [show stage = .bootWifi from at_wifi]; exact fun own => nomatch own
    · rw [show stage = .bootEth from at_eth]; exact fun own => nomatch own
  | own => rcases booting with other | other <;> contradiction
  | @other stage branch k op _ away found computed =>
    refine ⟨?_,Setting.place_goto away⟩
    rcases booting with at_wifi | at_eth
    · obtain rfl : stage = .bootWifi := at_wifi
      cases branch <;> rcases k with _ | _ | _ | k <;> cases found <;> cases computed
      · exact ⟨waits.pending,waits.saved,rfl⟩
      · exact ⟨waits.pending,waits.saved,rfl⟩
      · refine ⟨waits.pending,?_,rfl⟩
        change [(strcpyLit g.dhcpCheckWifi "true").toList.take 8,g.dhcpCheckEth.toList.take 8] = value
        rw [strcpyLit_same (by decide) (wifi rfl)]
        exact waits.saved
      · exact ⟨waits.pending,waits.saved,rfl⟩
    · obtain rfl : stage = .bootEth := at_eth
      cases branch <;> rcases k with _ | _ | _ | k <;> cases found <;> cases computed
      · exact ⟨waits.pending,waits.saved,rfl⟩
      · exact ⟨waits.pending,waits.saved,rfl⟩
      · refine ⟨waits.pending,?_,rfl⟩
        change [g.dhcpCheckWifi.toList.take 8,(strcpyLit g.dhcpCheckEth "true").toList.take 8] = value
        rw [strcpyLit_same (by decide) (eth rfl)]
        exact waits.saved
      · exact ⟨waits.pending,waits.saved,rfl⟩

private theorem owed_storage {x : Setting} {value : List (List UInt8)} {g g' : Globals} {flash flash' : Content UInt8}
    {pc pc' : Pc} (stepped : storageStep ideal g flash pc = .ok (g',flash',pc')) (owed : x.Owed value g flash pc)
    (ownPage : pc = .inside (.save .internet) true 0 → x.sharesPage = true → x.pending g = true)
    (defaults : x = .dhcp →
      (pc = .inside .bootWifi false 2 → strcmpEq g.dhcpCheckWifi.toList (literal "true") = true) ∧
      (pc = .inside .bootEth false 2 → strcmpEq g.dhcpCheckEth.toList (literal "true") = true)) :
    x.Owed value g' flash' pc' := by
  have booted : pc'.stage ≠ .bootRead := by
    rcases storage_stage stepped with same | after
    · exact same ▸ owed.booted
    · exact after ▸ stage_next_notRead _
  by_cases boot : x = .dhcp ∧ (pc.stage = .bootWifi ∨ pc.stage = .bootEth)
  · obtain ⟨rfl,booting⟩ := boot
    obtain ⟨values,waits⟩ := owed.flags rfl
    obtain ⟨still,away⟩ := owed_boot (storage_cases .dhcp stepped) booting (waits booting) (defaults rfl).1 (defaults rfl).2
    refine ⟨booted,?_,fun _ => ⟨values,fun _ => still⟩⟩
    rw [Setting.Phase, away]
    exact Or.inl still
  · have looping (own : x = .dhcp) : pc.stage.boots = false := by
      have outside := fun booting => boot ⟨own,booting⟩
      have read := owed.booted
      cases at_stage : pc.stage <;> simp_all [Stage.boots]
    refine ⟨booted,?_,fun own => ⟨(owed.flags own).1,fun booting => ?_⟩⟩
    · refine phase_storage stepped owed.phase owed.booted (fun own => ?_) ownPage
      have stays := looping own
      cases pc with
      | enter stage => rfl
      | inside stage branch k => cases stage <;> first | rfl | contradiction
    · have stays : pc'.stage.boots = false := by
        rcases storage_stage stepped with same | after
        · exact same ▸ looping own
        · exact after ▸ boots_next (looping own)
      rcases booting with other | other <;> rw [other] at stays <;> contradiction

private theorem owed_heard {x : Setting} {g g' : Globals} {flash : Content UInt8} {pc : Pc} {line : Line}
    (done : g.runLine line = .ok g') (hears : x.hears g line = true) (waits : pc.yields = true)
    (late : x.late pc = true → x.Owed (x.carries g line) g flash pc) : x.Owed (x.carries g line) g' flash pc where
  booted := yields_notRead waits
  phase := by
    obtain ⟨pending,saved⟩ := runLine_hears done hears
    exact phase_heard pending saved ((runLine_copies done).working x)
      fun k place after => (late (Setting.late_of_place place after)).phase
  flags own := by
    subst own
    obtain ⟨pending,saved⟩ := runLine_hears done hears
    exact ⟨⟨g',runLine_dhcp_flags done hears,saved⟩,fun _ => ⟨pending,saved,rfl⟩⟩

private theorem written_stored {x : Setting} {pc : Pc} (written : x.written pc = true) :
    ∃ k, x.place pc = some k ∧ x.writes k = x.parts.length ∧ ∀ g a, pc.inFlight g a = false := by
  cases at_k : x.place pc with
  | none => simp [Setting.written, at_k] at written
  | some k =>
    obtain rfl := Setting.place_some at_k
    simp only [Setting.written, at_k, Option.any_some] at written
    refine ⟨k,rfl,?_⟩
    cases x <;> rcases k with _ | _ | _ | _ | _ | _ | _ | _ | _ | _ | _ | _ | _ | _ | _ | k <;>
      first | contradiction | exact ⟨rfl,fun _ _ => rfl⟩

private theorem copied_written {x : Setting} {k : Nat} (copied : x.copied k = true) :
    x.written (.inside (.save x) true k) = true := by
  cases x <;> rcases k with _ | _ | _ | _ | _ | _ | _ | _ | _ | _ | _ | _ | _ | _ | _ | k <;>
    first | rfl | contradiction

private theorem kept_survives {x : Setting} {value : List (List UInt8)} {s : Device} (junk : Content UInt8)
    (away : x.place s.pc = none) (idle : x.pending s.g = false) (stored : x.stored s.flash = value)
    (notFlags : x = .dhcp → s.pc.defaults = false)
    (ownPage : s.pc = .inside (.save .internet) true 1 → x.sharesPage = true → x.pending s.g = true) :
    x.stored (s.survives junk) = value := by
  refine (survives_stored junk away notFlags fun erasing => ?_).trans stored
  cases shares : x.sharesPage with
  | false => rfl
  | true => exact absurd (idle.symm.trans (ownPage erasing shares)) Bool.false_ne_true

private theorem booting_of_defaults {pc : Pc} (defaults : pc.defaults = true) :
    pc.stage = .bootWifi ∨ pc.stage = .bootEth := by
  cases pc with
  | enter stage => contradiction
  | inside stage branch k =>
    cases stage with
    | bootWifi => exact Or.inl rfl
    | bootEth => exact Or.inr rfl
    | _ => cases branch <;> contradiction

private theorem owed_survives {x : Setting} {value : List (List UInt8)} {s : Device} (junk : Content UInt8)
    (owed : x.Owed value s.g s.flash s.pc) (safe : x.pending s.g = false ∨ x.written s.pc = true)
    (ownPage : s.pc = .inside (.save .internet) true 1 → x.sharesPage = true → x.pending s.g = true) :
    x.stored (s.survives junk) = value := by
  have phase := owed.phase
  by_cases written : x.written s.pc = true
  · obtain ⟨k,at_k,whole,quiet⟩ := written_stored written
    have stays : s.survives junk = s.flash := funext fun a => by simp [Device.survives, quiet]
    rw [stays]
    simp only [Setting.Phase, at_k] at phase
    split at phase
    next => exact phase.stored
    next =>
      have parts := phase.stored
      rw [whole, List.take_of_length_le (by simp), List.take_of_length_le (by simp [← phase.saved])] at parts
      exact parts
  · have idle := safe.resolve_right written
    unfold Setting.Phase at phase
    split at phase
    next away =>
      rcases phase with waits | ⟨_,kept⟩
      · exact absurd (idle.symm.trans waits.pending) Bool.false_ne_true
      · refine kept_survives junk away idle kept.stored (fun own => ?_) ownPage
        by_contra defaults
        have waits := (owed.flags own).2 (booting_of_defaults (by simpa using defaults))
        exact absurd (idle.symm.trans waits.pending) Bool.false_ne_true
    next k at_k =>
      rw [Setting.place_some at_k] at written
      have before : ¬ x.copied k = true := fun copied => written (copied_written copied)
      rw [if_neg before] at phase
      exact absurd (idle.symm.trans phase.pending) Bool.false_ne_true

private theorem rests_survives {x : Setting} {value : List (List UInt8)} {s : Device} (junk : Content UInt8)
    (rests : x.Rests value s.g s.flash s.pc)
    (ownPage : s.pc = .inside (.save .internet) true 1 → x.sharesPage = true → x.pending s.g = true) :
    x.stored (s.survives junk) = value := by
  refine kept_survives junk rests.away rests.idle rests.stored (fun own => ?_) ownPage
  by_contra defaults
  have booting := booting_of_defaults (by simpa using defaults)
  have at_pc := (rests.flags own).2
  unfold FlagsAt at at_pc
  split at at_pc
  next read => rcases booting with other | other <;> rw [read] at other <;> contradiction
  next => exact defaults (at_pc booting).2

/-- What is asked is on its way, and what is acknowledged is asked, or at rest since a reset. -/
structure Ledger.Sound (s : Ledger) : Prop where
  owed : ∀ x, ∀ value ∈ s.asked x, s.stale x = false → x.Owed value s.device.g s.device.flash s.device.pc
  acked : ∀ x, ∀ value ∈ s.acked x, s.stale x = false ∧
    (s.asked x = some value ∨ (s.asked x = none ∧ x.Rests value s.device.g s.device.flash s.device.pc))
  stale : ∀ x, s.stale x = true → x = .ip ∨ x = .dhcp
  page : s.device.pc = .inside (.save .internet) true 1 → ∀ x, x.sharesPage = true → s.acked x ≠ none →
    x.pending s.device.g = true

private theorem start_rests {x : Setting} {value : List (List UInt8)} {flash : Content UInt8} {behind : Bytes 235}
    (stored : x.stored flash = value) (flags : x = .dhcp → FlagValues value) :
    x.Rests value (.initial behind) flash (.enter .bootRead) where
  away := rfl
  idle := by cases x <;> rfl
  stored := stored
  flags own := ⟨flags own,fun booting => by rcases booting with other | other <;> contradiction⟩

private theorem start_sound (flash : Content UInt8) (behind : Bytes 235) : (Ledger.start flash behind).Sound where
  owed _ _ asked := nomatch asked
  acked _ _ acked := nomatch acked
  stale _ stale := nomatch stale
  page at_wait := nomatch at_wait

private theorem sound_durable {s : Ledger} (sound : s.Sound) : Durable s := by
  intro boot x value acked
  rcases (sound.acked x value acked).2 with asked | ⟨_,rests⟩
  · have owed := sound.owed x value asked (sound.acked x value acked).1
    exact absurd (congrArg Pc.stage boot) owed.booted
  · rw [← Setting.kept_stored, rests.stored]

private theorem erase_before {g g' : Globals} {flash flash' : Content UInt8} {pc : Pc}
    (stepped : storageStep ideal g flash pc = .ok (g',flash',.inside (.save .internet) true 1)) :
    pc = .inside (.save .internet) true 0 ∧ g' = g := by
  have goto {stage : Stage} {branch : Bool} {k : Nat}
      (same : Pc.goto stage branch k = .inside (.save .internet) true 1) :
      stage = .save .internet ∧ branch = true ∧ k = 1 := by
    unfold Pc.goto at same
    split at same <;> cases same
    exact ⟨rfl,rfl,rfl⟩
  generalize after : Pc.inside (.save .internet) true 1 = pc' at stepped
  cases storage_cases .internet stepped with
  | enter stage => exact absurd (goto after.symm).2.2 (by decide)
  | @own k op _ found computed =>
    obtain rfl : k = 0 := Nat.succ.inj (goto after.symm).2.2
    cases found
    cases computed
    exact ⟨rfl,rfl⟩
  | other away => exact absurd (goto after.symm).1 away

private theorem unchanged_keeps {x : Setting} {g g' : Globals} (same : x.changed g g' = false) : x.Keeps g g' := by
  simp only [Setting.changed, Bool.or_eq_false_iff, decide_eq_false_iff_not, not_not] at same
  exact ⟨same.1,same.2⟩

private theorem sound_storage {s : Ledger} {g : Globals} {flash : Content UInt8} {pc : Pc} (sound : s.Sound)
    (careful : Careful s .storage) (stepped : storageStep ideal s.device.g s.device.flash s.device.pc = .ok (g,flash,pc))
    (reports : ∀ x, x.reported s.device.g g = true → ReportingStep x s.device.g .storage) :
    Ledger.Sound ⟨{ s.device with g, flash, pc },s.asked,s.stale,
      fun x => if x.reported s.device.g g then s.asked x else s.acked x⟩ := by
  obtain ⟨ownPage,defaults⟩ := careful
  refine ⟨fun x value asked fresh => ?_,fun x value acked => ?_,sound.stale,fun at_wait x shares acked => ?_⟩
  · have known : s.asked x ≠ none := Option.ne_none_iff_exists'.mpr ⟨value,asked⟩
    refine owed_storage stepped (sound.owed x value asked fresh) (fun erasing shares => ?_) fun own => ?_
    · exact (ownPage erasing x shares).resolve_left fun both => known both.1
    · subst own; exact defaults known fresh
  · dsimp only at acked
    split at acked
    next reported =>
      refine ⟨?_,Or.inl acked⟩
      cases reports x reported with
      | storage notIp notDhcp =>
        by_contra stale
        rcases sound.stale x (by simpa using stale) with ip | dhcp
        · exact notIp ip
        · exact notDhcp dhcp
    next =>
      obtain ⟨fresh,asked | ⟨silent,rests⟩⟩ := sound.acked x value acked
      · exact ⟨fresh,Or.inl asked⟩
      · refine ⟨fresh,Or.inr ⟨silent,rests_storage stepped rests fun erasing => ?_⟩⟩
        by_contra shares
        rcases ownPage erasing x (by simpa using shares) with both | pending
        · exact absurd (both.2.symm.trans acked) (Option.some_ne_none value).symm
        · exact absurd (rests.idle.symm.trans pending) Bool.false_ne_true
  · obtain rfl : pc = .inside (.save .internet) true 1 := at_wait
    obtain ⟨erasing,rfl⟩ := erase_before stepped
    rcases ownPage erasing x shares with both | pending
    · dsimp only at acked
      split at acked
      next => exact absurd both.1 acked
      next => exact absurd both.2 acked
    · exact pending

private theorem sound_line {s : Ledger} {line : Line} {g : Globals} (sound : s.Sound)
    (careful : Careful s (.line line)) (waits : s.device.pc.yields = true) (done : s.device.g.runLine line = .ok g)
    (reports : ∀ x, x.reported s.device.g g = true → ReportingStep x s.device.g (.line line)) :
    Ledger.Sound ⟨{ s.device with g },s.ask (.line line),s.spoil { s.device with g } (.line line),
      fun x => if x.reported s.device.g g then s.ask (.line line) x else s.left { s.device with g } (.line line) x⟩ := by
  have deaf {x : Setting} (quiet : (x.hears s.device.g line || x.changed s.device.g g) = false) :
      x.hears s.device.g line = false ∧ x.Spared s.device.g g := by
    obtain ⟨deaf,same⟩ := Bool.or_eq_false_iff.mp quiet
    exact ⟨deaf,unchanged_keeps same,(runLine_copies done).working x⟩
  refine ⟨fun x value asked fresh => ?_,fun x value acked => ?_,fun x stale => ?_,fun at_wait x shares acked => ?_⟩
  · cases hears : x.hears s.device.g line with
    | true =>
      simp only [Ledger.ask, hears, if_true, Option.mem_some_iff] at asked
      subst asked
      refine owed_heard done hears waits fun late => ?_
      obtain ⟨clean,same⟩ := careful x late hears
      exact sound.owed x _ same clean
    | false =>
      simp only [Ledger.ask, hears, Bool.false_eq_true, if_false] at asked
      simp only [Ledger.spoil, hears, Bool.not_false, Bool.true_and, Bool.or_eq_false_iff] at fresh
      have quiet := deaf (Bool.or_eq_false_iff.mpr ⟨hears,fresh.2⟩)
      exact (sound.owed x value asked fresh.1).spared quiet.2
  · dsimp only at acked
    split at acked
    next reported =>
      cases reports x reported with
      | line hears => exact ⟨by simp [Ledger.spoil, hears],Or.inl acked⟩
    next =>
      simp only [Ledger.left] at acked
      split at acked
      next => contradiction
      next quiet =>
        obtain ⟨unheard,spared⟩ := deaf (by simpa using quiet)
        obtain ⟨fresh,held⟩ := sound.acked x value acked
        have same : x.changed s.device.g g = false := by simpa [unheard] using quiet
        simp only [Ledger.ask, Ledger.spoil, unheard, fresh, same]
        refine ⟨rfl,?_⟩
        rcases held with asked | ⟨silent,rests⟩
        · exact Or.inl asked
        · exact Or.inr ⟨silent,rests.keeps spared.keeps⟩
  · simp only [Ledger.spoil, Bool.and_eq_true, Bool.not_eq_true', Bool.or_eq_true] at stale
    obtain ⟨unheard,before | changed⟩ := stale
    · exact sound.stale x before
    · by_contra neither
      obtain ⟨notIp,notDhcp⟩ := not_or.mp neither
      have keeps := runLine_keeps notIp notDhcp done unheard
      simp [Setting.changed, keeps.pending, keeps.saved] at changed
  · cases hears : x.hears s.device.g line with
    | true => exact (runLine_hears done hears).1
    | false =>
      dsimp only at acked
      split at acked
      next reported => cases reports x reported with | line heard => rw [hears] at heard; contradiction
      next =>
        simp only [Ledger.left] at acked
        split at acked
        next => contradiction
        next quiet =>
          obtain ⟨_,spared⟩ := deaf (by simpa using quiet)
          exact spared.keeps.pending.trans (sound.page at_wait x shares acked)

private theorem sound_foreign {s : Ledger} {event : Event} {g : Globals} {net : Option Net} (sound : s.Sound)
    (careful : Careful s event) (foreign : event.foreign = true) (spared : ∀ x : Setting, x.Spared s.device.g g)
    (reports : ∀ x, x.reported s.device.g g = true → ReportingStep x s.device.g event) :
    Ledger.Sound ⟨{ s.device with g, net },s.asked,s.stale,
      fun x => if x.reported s.device.g g then s.asked x else s.acked x⟩ := by
  refine ⟨fun x value asked fresh => (sound.owed x value asked fresh).spared (spared x),fun x value acked => ?_,
    sound.stale,fun at_wait x shares acked => ?_⟩
  · dsimp only at acked
    split at acked
    next reported =>
      refine ⟨?_,Or.inl acked⟩
      cases reports x reported with
      | storage | line => contradiction
      | queue waiting own =>
        simp only [Careful, Ledger.clean, waiting, Bool.and_eq_true, Bool.not_eq_true', Bool.or_eq_true] at careful
        obtain ⟨dhcp,static⟩ := careful
        rcases own with rfl | ⟨rfl,fixed⟩
        · exact dhcp
        · exact static.resolve_left (by simp [fixed])
    next =>
      obtain ⟨fresh,asked | ⟨silent,rests⟩⟩ := sound.acked x value acked
      · exact ⟨fresh,Or.inl asked⟩
      · exact ⟨fresh,Or.inr ⟨silent,rests.keeps (spared x).keeps⟩⟩
  · rw [(spared x).keeps.pending]
    refine sound.page at_wait x shares ?_
    dsimp only at acked
    split at acked
    next reported =>
      cases reports x reported with
      | storage | line => contradiction
      | queue waiting own => rcases own with rfl | ⟨rfl,_⟩ <;> contradiction
    next => exact acked

private theorem sound_reset {s : Ledger} {junk : Content UInt8} {behind : Bytes 235} (sound : s.Sound)
    (careful : Careful s (.reset junk behind)) :
    Ledger.Sound ⟨.start (s.device.survives junk) behind,fun _ => none,fun _ => false,s.acked⟩ := by
  refine ⟨fun _ _ asked => (nomatch asked),fun x value acked => ?_,fun _ stale => (nomatch stale),
    fun at_wait => (nomatch at_wait)⟩
  have known : s.acked x ≠ none := Option.ne_none_iff_exists'.mpr ⟨value,acked⟩
  have ownPage (at_wait : s.device.pc = .inside (.save .internet) true 1) (shares : x.sharesPage = true) :
      x.pending s.device.g = true := sound.page at_wait x shares known
  refine ⟨rfl,Or.inr ⟨rfl,?_⟩⟩
  obtain ⟨fresh,asked | ⟨_,rests⟩⟩ := sound.acked x value acked
  · have owed := sound.owed x value asked fresh
    exact start_rests (owed_survives junk owed (careful x known) ownPage) fun own => (owed.flags own).1
  · exact start_rests (rests_survives junk rests ownPage) fun own => (rests.flags own).1

private theorem sound_keeps (s : Ledger) (event : Event) (next : Ledger) (sound : s.Sound) (careful : Careful s event)
    (stepped : s.step event = some next) : next.Sound := by
  obtain ⟨device,moved,rfl⟩ := Option.map_eq_some_iff.mp stepped
  have reports (x : Setting) (reported : x.reported s.device.g device.g = true) : ReportingStep x s.device.g event :=
    device_reported moved reported
  cases device_step moved with
  | storage taken => exact sound_storage sound careful taken reports
  | line waits done => exact sound_line sound careful waits done reports
  | quiet foreign spared =>
    cases event <;> first | contradiction | exact sound_foreign sound careful foreign spared reports
  | @reset junk behind =>
    have silent : (fun x : Setting => if x.reported s.device.g (.initial behind) then none else s.acked x) = s.acked :=
      funext fun x => if_neg fun reported => nomatch reports x reported
    have after := sound_reset sound careful
    rw [← silent] at after
    exact after

/-- In a careful run what is acknowledged is durable. A run ends where `strcpy` reads a 240-byte
array that holds no terminator, since C gives that read no meaning. -/
theorem acknowledged_durable (flash : Content UInt8) (behind : Bytes 235) (events : List Event)
    (careful : Meets Ledger.step Careful (.start flash behind) events) :
    Always Ledger.step Durable (.start flash behind) events :=
  always_of_invariant sound_keeps (fun _ => sound_durable) (start_sound flash behind) careful

def storedToken : Line := .ofText "token a" (by decide) (by decide +kernel)

def networkName : Line := .ofText "wifi ssid home" (by decide) (by decide +kernel)

theorem acknowledged_durable_token :
    Meets Ledger.step Careful (.start (fun _ => 0xff) (zeros 235))
        (List.replicate 19 .storage ++ [.line storedToken] ++ List.replicate 19 .storage ++
          [.reset (fun _ => 0) (zeros 235)]) ∧
      Always Ledger.step Durable (.start (fun _ => 0xff) (zeros 235))
        (List.replicate 19 .storage ++ [.line storedToken] ++ List.replicate 19 .storage ++
          [.reset (fun _ => 0) (zeros 235)]) :=
  have careful : Meets Ledger.step Careful (.start (fun _ => 0xff) (zeros 235))
      (List.replicate 19 .storage ++ [.line storedToken] ++ List.replicate 19 .storage ++
        [.reset (fun _ => 0) (zeros 235)]) := by decide +kernel
  ⟨careful,acknowledged_durable _ _ _ careful⟩

/-- The name of the network is acknowledged before it is written: a reset right after the
report finds nothing in flash. -/
theorem acknowledged_name_lost : ¬ ∀ (flash : Content UInt8) (behind : Bytes 235) (events : List Event),
    Always Ledger.step Durable (.start flash behind) events := by
  intro all
  have durable := all (fun _ => 0xff) (zeros 235)
    (List.replicate 19 .storage ++ [.line networkName,.reset (fun _ => 0) (zeros 235)])
  exact absurd durable (by decide +kernel)

end PulseFirmware
