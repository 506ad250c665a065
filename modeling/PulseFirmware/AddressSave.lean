import PulseFirmware.Device

/-! The save of the static address: three words, written one by one with breaks in between,
from variables the command handler assigns while it is still reading its line. -/
namespace PulseFirmware
open PulseFirmware.CString PulseFirmware.Flash PulseFirmware.Run

/-- The device with what the `ipconfig` lines since the last reset have left. -/
structure Triple where
  device : Device
  /-- the words of the last accepted static `ipconfig` -/
  accepted : Option (List (List UInt8))
  /-- a line that was not accepted has changed the variable of the word since -/
  spoiled : Nat → Bool
  /-- a save has come to its end -/
  finished : Bool

def Triple.start (flash : Content UInt8) (behind : Bytes 235) : Triple :=
  ⟨.start flash behind,none,fun _ => false,false⟩

def Setting.ending (x : Setting) (pc : Pc) : Bool := (x.place pc).any fun k => decide (k + 1 = (saveOps x).length)

def Triple.after (s : Triple) (device : Device) : Event → Triple
  | .line line =>
    if Setting.ip.hears s.device.g line then
      { s with device, accepted := some (Setting.ip.carries s.device.g line), spoiled := fun _ => false }
    else
      { s with
        device
        spoiled := fun i =>
          s.spoiled i || decide ((Setting.ip.saved device.g)[i]? ≠ (Setting.ip.saved s.device.g)[i]?) }
  | .storage => { s with device, finished := s.finished || Setting.ip.ending s.device.pc }
  | .reset _ _ => ⟨device,none,fun _ => false,false⟩
  | _ => { s with device }

def Triple.step (s : Triple) (event : Event) : Option Triple :=
  (s.device.step event).map fun device => s.after device event

/-- After a save the flash holds the last accepted triple, until the mark is set again. -/
def Untorn (s : Triple) : Prop :=
  Setting.ip.place s.device.pc = none → s.finished = true →
    strcmpEq s.device.g.ipaddressChanged.toList (literal "unchanged") = true →
    s.accepted = some (Setting.ip.stored s.device.flash)

/-- Each word is written while its variable is as the last accepted line has left it, and no
other triple is accepted between the first write and the end of the save. -/
def Settled (s : Triple) : Event → Prop
  | .line line => Setting.ip.late s.device.pc = true → Setting.ip.hears s.device.g line = true →
      s.accepted = some (Setting.ip.carries s.device.g line)
  | .storage => ∀ k ∈ Setting.ip.place s.device.pc, (saveOps .ip)[k]?.any Op.isWrite = true →
      s.spoiled (Setting.ip.writes k) = false
  | _ => True

instance (s : Triple) (event : Event) : Decidable (Settled s event) :=
  match event with
  | .line line => inferInstanceAs (Decidable (Setting.ip.late s.device.pc = true →
      Setting.ip.hears s.device.g line = true → s.accepted = some (Setting.ip.carries s.device.g line)))
  | .storage => inferInstanceAs (Decidable (∀ k ∈ Setting.ip.place s.device.pc,
      (saveOps .ip)[k]?.any Op.isWrite = true → s.spoiled (Setting.ip.writes k) = false))
  | .netStart _ | .poll _ | .queue _ | .select | .others _ _ _ | .reset _ _ => isTrue trivial

instance (s : Triple) : Decidable (Untorn s) :=
  inferInstanceAs (Decidable (Setting.ip.place s.device.pc = none → s.finished = true →
    strcmpEq s.device.g.ipaddressChanged.toList (literal "unchanged") = true →
    s.accepted = some (Setting.ip.stored s.device.flash)))

/-- What the variables and the words written so far have to do with the last accepted line. -/
structure Triple.Whole (s : Triple) : Prop where
  size : ∀ value ∈ s.accepted, value.length = Setting.ip.parts.length
  clean : ∀ value ∈ s.accepted, ∀ i, s.spoiled i = false → (Setting.ip.saved s.device.g)[i]? = value[i]?
  zero : s.accepted = none → ∀ i < 3, s.spoiled i = false → (Setting.ip.saved s.device.g)[i]? = some (word 0)
  marked : s.accepted = none → Setting.ip.pending s.device.g = true → ∀ i < 3, s.spoiled i = true
  inside : ∀ k, Setting.ip.place s.device.pc = some k → Setting.ip.pending s.device.g = true ∧
    (0 < Setting.ip.writes k → ∃ value, s.accepted = some value ∧
      (Setting.ip.stored s.device.flash).take (Setting.ip.writes k) = value.take (Setting.ip.writes k))
  done : Setting.ip.place s.device.pc = none → s.finished = true → Setting.ip.pending s.device.g = false →
    s.accepted = some (Setting.ip.stored s.device.flash)

private theorem unchanged_idle {g : Globals} (unchanged : strcmpEq g.ipaddressChanged.toList (literal "unchanged") = true) :
    Setting.ip.pending g = false := by
  have printable : 0 ∉ ascii "unchanged" := by decide
  have start := (strcmpEq_terminated printable _).mp unchanged
  obtain ⟨rest,same⟩ := start
  change strcmpEq g.ipaddressChanged.toList (literal "changed") = false
  rw [← same]
  rfl

private theorem whole_untorn {s : Triple} (whole : s.Whole) : Untorn s :=
  fun outside finished unchanged => whole.done outside finished (unchanged_idle unchanged)

private theorem whole_step {s : Triple} {device : Device} {finished : Bool} (whole : s.Whole)
    (saved : Setting.ip.saved device.g = Setting.ip.saved s.device.g)
    (pending : Setting.ip.pending device.g = true → Setting.ip.pending s.device.g = true)
    (inside : ∀ k, Setting.ip.place device.pc = some k → Setting.ip.pending device.g = true ∧
      (0 < Setting.ip.writes k → ∃ value, s.accepted = some value ∧
        (Setting.ip.stored device.flash).take (Setting.ip.writes k) = value.take (Setting.ip.writes k)))
    (done : Setting.ip.place device.pc = none → finished = true → Setting.ip.pending device.g = false →
      s.accepted = some (Setting.ip.stored device.flash)) :
    Triple.Whole ⟨device,s.accepted,s.spoiled,finished⟩ where
  size := whole.size
  clean value taken i clean := by rw [saved]; exact whole.clean value taken i clean
  zero none i word clean := by rw [saved]; exact whole.zero none i word clean
  marked none marked := whole.marked none (pending marked)
  inside := inside
  done := done

private theorem whole_frame {s : Triple} {device : Device} (whole : s.Whole)
    (keeps : Setting.ip.Keeps s.device.g device.g)
    (place : Setting.ip.place device.pc = Setting.ip.place s.device.pc)
    (stored : Setting.ip.stored device.flash = Setting.ip.stored s.device.flash) :
    Triple.Whole { s with device } := by
  refine whole_step whole keeps.saved (fun marked => keeps.pending ▸ marked) (fun k at_k => ?_) ?_
  · rw [stored, keeps.pending]
    exact whole.inside k (place ▸ at_k)
  · rw [stored, keeps.pending, place]
    exact whole.done

private theorem whole_enter {s : Triple} {stage : Stage} (whole : s.Whole) (at_stage : s.device.pc = .enter stage) :
    Triple.Whole { s with device := { s.device with pc := .goto stage (stage.guard s.device.g) 0 } } := by
  refine whole_step whole rfl id (fun k at_k => ?_) fun _ => ?_
  · simp only [Setting.place_entered] at at_k
    split at at_k
    next own => cases at_k; exact ⟨own.2,fun none => absurd none (Nat.lt_irrefl 0)⟩
    next => contradiction
  · exact whole.done (at_stage ▸ Setting.place_enter .ip stage)

private theorem whole_written {s : Triple} {k len : Nat} {part : Part} {src : Globals → List UInt8} (whole : s.Whole)
    (place : Setting.ip.place s.device.pc = some k) (next : Setting.ip.parts[Setting.ip.writes k]? = some part)
    (same : (src s.device.g).take len = part.src s.device.g)
    (early : Setting.ip.early k (.write part.addr len src) = true) (clean : s.spoiled (Setting.ip.writes k) = false) :
    ∃ value, s.accepted = some value ∧
      (Setting.ip.stored ((Op.write part.addr len src).flashed ideal s.device.g s.device.flash)).take
        (Setting.ip.writes k + 1) = value.take (Setting.ip.writes k + 1) := by
  obtain ⟨pending,written⟩ := whole.inside k place
  have entry : (Setting.ip.saved s.device.g)[Setting.ip.writes k]? = some (part.src s.device.g) := by
    rw [Setting.saved, List.getElem?_map, next, Option.map_some]
  have word : Setting.ip.writes k < 3 := (List.getElem?_eq_some_iff.mp next).1
  obtain ⟨value,taken⟩ : ∃ value, s.accepted = some value := by
    cases none : s.accepted with
    | none => rw [whole.marked none pending _ word] at clean; contradiction
    | some value => exact ⟨value,rfl⟩
  refine ⟨value,taken,?_⟩
  have before : (Setting.ip.stored s.device.flash).take (Setting.ip.writes k) = value.take (Setting.ip.writes k) := by
    rcases Nat.eq_zero_or_pos (Setting.ip.writes k) with none | some
    · rw [none]; rfl
    · obtain ⟨value',taken',same⟩ := written some
      cases Option.some.inj (taken.symm.trans taken')
      exact same
  rw [Setting.stored_write s.device.g s.device.flash next same early, before, List.take_add_one,
    ← whole.clean value taken _ clean, entry]
  rfl

private theorem whole_own {s : Triple} {k : Nat} {op : Op} {g : Globals} (whole : s.Whole)
    (at_k : s.device.pc = .inside (.save .ip) true k) (found : (saveOps .ip)[k]? = some op)
    (computed : op.computed s.device.g s.device.flash = .ok g)
    (clean : op.isWrite = true → s.spoiled (Setting.ip.writes k) = false) :
    Triple.Whole ⟨{ s.device with
      g, flash := op.flashed ideal s.device.g s.device.flash, pc := .goto (.save .ip) true (k + 1) },
      s.accepted,s.spoiled,s.finished || Setting.ip.ending s.device.pc⟩ := by
  have place : Setting.ip.place s.device.pc = some k := by rw [at_k]; exact Setting.place_own .ip k
  obtain ⟨pending,written⟩ := whole.inside k place
  have onward (more : k + 1 < (saveOps .ip).length) (flash : Content UInt8)
      (words : 0 < Setting.ip.writes (k + 1) → ∃ value, s.accepted = some value ∧
        (Setting.ip.stored flash).take (Setting.ip.writes (k + 1)) = value.take (Setting.ip.writes (k + 1))) :
      Triple.Whole ⟨{ s.device with flash, pc := .goto (.save .ip) true (k + 1) },
        s.accepted,s.spoiled,s.finished || Setting.ip.ending s.device.pc⟩ := by
    have next := Setting.place_onward more
    refine whole_step whole rfl id (fun k' at_k' => ?_) fun outside => ?_
    · cases Option.some.inj (next.symm.trans at_k')
      exact ⟨pending,words⟩
    · rw [next] at outside; contradiction
  cases saveOps_action found with
  | pause yields more writes copied =>
    have same : g = s.device.g ∧ op.flashed ideal s.device.g s.device.flash = s.device.flash := by
      cases op <;> first | contradiction | exact ⟨(Except.ok.inj computed).symm,rfl⟩
    obtain ⟨rfl,unchanged⟩ := same
    exact onward more _ (by rw [unchanged, writes]; exact written)
  | erase addr more early writes before after =>
    cases computed
    refine onward more _ fun some => ?_
    rw [writes] at some ⊢
    obtain ⟨value,taken,same⟩ := written some
    exact ⟨value,taken,(Setting.stored_early _ _ _ early).trans same⟩
  | write more part next at_part same early writes before after =>
    cases computed
    subst at_part
    refine onward more _ fun _ => ?_
    rw [writes]
    exact whole_written whole place next (same s.device.g) early (clean rfl)
  | copy own => contradiction
  | done own last writes before =>
    subst own
    have saved : Setting.ip.saved g = Setting.ip.saved s.device.g := by cases computed; rfl
    refine whole_step whole saved (fun _ => pending) (fun k' at_k' => ?_) fun _ _ _ => ?_
    · rw [Setting.place_left last] at at_k'; contradiction
    · obtain ⟨value,taken,same⟩ := written (by rw [writes]; decide)
      have size := whole.size value taken
      rw [writes, List.take_of_length_le (by simp), List.take_of_length_le (Nat.le_of_eq size)] at same
      rw [taken, ← same]
      rfl

private theorem zero_word {v : UInt32} (same : word v = word 0) : v = 0 := by
  rw [← unword_word v, same]
  rfl

private theorem whole_refused {s : Triple} {line : Line} {g : Globals} (whole : s.Whole)
    (ran : s.device.g.runLine line = .ok g) (deaf : Setting.ip.hears s.device.g line = false) :
    Triple.Whole { s with
      device := { s.device with g }
      spoiled := fun i =>
        s.spoiled i || decide ((Setting.ip.saved g)[i]? ≠ (Setting.ip.saved s.device.g)[i]?) } := by
  have refused := runLine_ip_refused ran deaf
  have unspoiled {i : Nat} (clean : (s.spoiled i ||
      decide ((Setting.ip.saved g)[i]? ≠ (Setting.ip.saved s.device.g)[i]?)) = false) :
      s.spoiled i = false ∧ (Setting.ip.saved g)[i]? = (Setting.ip.saved s.device.g)[i]? := by
    simpa using clean
  refine ⟨whole.size,fun value taken i clean => ?_,fun none i inside clean => ?_,
    fun none pending i inside => ?_,fun k at_k => ?_,fun outside finished idle => ?_⟩
  · rw [(unspoiled clean).2]
    exact whole.clean value taken i (unspoiled clean).1
  · rw [(unspoiled clean).2]
    exact whole.zero none i inside (unspoiled clean).1
  · rcases refused with same | ⟨_,addr,gw,mask⟩
    · exact Bool.or_eq_true_iff.mpr (Or.inl (whole.marked none (same ▸ pending) i inside))
    · by_contra clean
      obtain ⟨before,same⟩ := unspoiled (Bool.eq_false_of_not_eq_true clean)
      have still := same.trans (whole.zero none i inside before)
      rcases i with _ | _ | _ | i
      · exact addr (zero_word (Option.some.inj still))
      · exact gw (zero_word (Option.some.inj still))
      · exact mask (zero_word (Option.some.inj still))
      · omega
  · obtain ⟨pending,written⟩ := whole.inside k at_k
    refine ⟨?_,written⟩
    rcases refused with same | ⟨marked,_⟩
    · exact same.trans pending
    · exact marked
  · rcases refused with same | ⟨marked,_⟩
    · exact whole.done outside finished (same ▸ idle)
    · exact absurd (idle.symm.trans marked) Bool.false_ne_true

private theorem whole_line {s : Triple} {line : Line} {g : Globals} (whole : s.Whole) (settled : Settled s (.line line))
    (ran : s.device.g.runLine line = .ok g) : (s.after { s.device with g } (.line line)).Whole := by
  cases hears : Setting.ip.hears s.device.g line with
  | false =>
    simp only [Triple.after, hears, Bool.false_eq_true, if_false]
    exact whole_refused whole ran hears
  | true =>
    simp only [Triple.after, hears, if_true]
    obtain ⟨pending,saved⟩ := runLine_hears ran hears
    refine ⟨fun value taken => ?_,fun value taken i _ => ?_,fun none => (nomatch none),fun none => (nomatch none),
      fun k at_k => ⟨pending,fun after => ⟨_,rfl,?_⟩⟩,fun _ _ idle => ?_⟩
    · rw [← Option.some.inj taken, ← saved, Setting.saved_length]
    · rw [← Option.some.inj taken, ← saved]
    · obtain ⟨value,taken,written⟩ := (whole.inside k at_k).2 after
      have same := settled (Setting.late_of_place at_k after) hears
      rw [← Option.some.inj (taken.symm.trans same)]
      exact written
    · exact absurd (idle.symm.trans pending) Bool.false_ne_true

private theorem whole_storage {s : Triple} {g : Globals} {flash : Content UInt8} {pc : Pc} (whole : s.Whole)
    (settled : Settled s .storage) (stepped : storageStep ideal s.device.g s.device.flash s.device.pc = .ok (g,flash,pc)) :
    (s.after { s.device with g, flash, pc } .storage).Whole := by
  have outside (none : Setting.ip.place s.device.pc = none) :
      (s.finished || Setting.ip.ending s.device.pc) = s.finished := by simp [Setting.ending, none]
  generalize at_pc : s.device.pc = place at stepped
  simp only [Triple.after]
  cases storage_cases .ip stepped with
  | enter stage =>
    rw [outside (by rw [at_pc]; rfl)]
    exact whole_enter whole at_pc
  | @own k op _ found computed =>
    refine whole_own whole at_pc found computed fun write => ?_
    exact settled k (by rw [at_pc]; exact Setting.place_own .ip k) (by rw [found]; exact write)
  | @other stage branch k op _ away found computed =>
    have left : Setting.ip.place s.device.pc = none := by rw [at_pc]; exact Setting.place_other away
    rw [outside left]
    refine whole_frame whole ?_ ((Setting.place_goto away).trans left.symm)
      (other_stored _ _ _ found away (fun flags => nomatch flags) fun _ _ => rfl)
    by_cases boot : stage = .bootRead
    · subst boot; exact bootRead_keeps (by decide) found computed
    · exact (other_spared found computed away boot fun flags => nomatch flags).keeps

private theorem whole_start (flash : Content UInt8) (behind : Bytes 235) : (Triple.start flash behind).Whole where
  size _ taken := nomatch taken
  clean _ taken := nomatch taken
  zero _ i inside _ := by rcases i with _ | _ | _ | i <;> first | rfl | omega
  marked _ pending := absurd pending Bool.false_ne_true
  inside _ at_k := nomatch at_k
  done _ finished := nomatch finished

private theorem whole_keeps (s : Triple) (event : Event) (next : Triple) (whole : s.Whole) (settled : Settled s event)
    (stepped : s.step event = some next) : next.Whole := by
  obtain ⟨device,moved,rfl⟩ := Option.map_eq_some_iff.mp stepped
  cases device_step moved with
  | storage taken => exact whole_storage whole settled taken
  | line _ ran => exact whole_line whole settled ran
  | quiet foreign spared =>
    cases event <;> first | contradiction | exact whole_frame whole (spared .ip).keeps rfl rfl
  | reset => exact whole_start _ _

/-- In a run that lets every save settle the address in flash is never torn. -/
theorem address_untorn (flash : Content UInt8) (behind : Bytes 235) (events : List Event)
    (settled : Meets Triple.step Settled (.start flash behind) events) :
    Always Triple.step Untorn (.start flash behind) events :=
  always_of_invariant whole_keeps (fun _ => whole_untorn) (whole_start flash behind) settled

def acceptedAddress : Line := .ofText "ipconfig wlan 10.0.0.9 10.0.0.1 255.0.0.0" (by decide) (by decide +kernel)

def refusedAddress : Line := .ofText "ipconfig wlan 10.0.0.8 0.0.0.0 255.0.0.0" (by decide) (by decide +kernel)

theorem address_untorn_once :
    Meets Triple.step Settled (.start (fun _ => 0xff) (zeros 235))
        (List.replicate 19 .storage ++ [.line acceptedAddress] ++ List.replicate 26 .storage) ∧
      Always Triple.step Untorn (.start (fun _ => 0xff) (zeros 235))
        (List.replicate 19 .storage ++ [.line acceptedAddress] ++ List.replicate 26 .storage) :=
  have settled : Meets Triple.step Settled (.start (fun _ => 0xff) (zeros 235))
      (List.replicate 19 .storage ++ [.line acceptedAddress] ++ List.replicate 26 .storage) := by decide +kernel
  ⟨settled,address_untorn _ _ _ settled⟩

/-- The refused line comes before the save of the accepted one: the flash then holds the
address of the one and the mask of the other, and no gateway. -/
theorem address_torn : ¬ ∀ (flash : Content UInt8) (behind : Bytes 235) (events : List Event),
    Always Triple.step Untorn (.start flash behind) events := by
  intro all
  have untorn := all (fun _ => 0xff) (zeros 235)
    (List.replicate 19 .storage ++ [.line acceptedAddress,.line refusedAddress] ++ List.replicate 25 .storage)
  exact absurd untorn (by decide +kernel)

end PulseFirmware
