import PulseFirmware.Device

/-! A value at rest in flash: no command has touched its setting since the last reset, so it
has to outlive resets and the boot section, which reads the flags into the variables they
are saved from and replaces those that are not set. -/
namespace PulseFirmware
open PulseFirmware.CString PulseFirmware.Flash

def FlagValues (value : List (List UInt8)) : Prop := ∃ g, FlagsSet g ∧ Setting.dhcp.saved g = value

/-- The boot section has read the flags it has come past, and replaces none. -/
def FlagsAt (value : List (List UInt8)) (g : Globals) : Pc → Prop
  | .inside .bootRead _ k => ∀ i < 2, i + 6 < k → (Setting.dhcp.saved g)[i]? = value[i]?
  | pc => pc.stage = .bootWifi ∨ pc.stage = .bootEth → Setting.dhcp.saved g = value ∧ pc.defaults = false

structure Setting.Rests (x : Setting) (value : List (List UInt8)) (g : Globals) (flash : Content UInt8)
    (pc : Pc) : Prop where
  away : x.place pc = none
  idle : x.pending g = false
  stored : x.stored flash = value
  flags : x = .dhcp → FlagValues value ∧ FlagsAt value g pc

theorem FlagsAt.keeps {value : List (List UInt8)} {g g' : Globals} {pc : Pc} (flags : FlagsAt value g pc)
    (same : Setting.dhcp.saved g' = Setting.dhcp.saved g) : FlagsAt value g' pc := by
  unfold FlagsAt at flags ⊢
  split <;> simpa only [same] using flags

theorem Setting.Rests.keeps {x : Setting} {value : List (List UInt8)} {g g' : Globals} {flash : Content UInt8}
    {pc : Pc} (rests : x.Rests value g flash pc) (keeps : x.Keeps g g') : x.Rests value g' flash pc where
  away := rests.away
  idle := keeps.pending.trans rests.idle
  stored := rests.stored
  flags own := by
    subst own
    obtain ⟨values,at_pc⟩ := rests.flags rfl
    exact ⟨values,at_pc.keeps keeps.saved⟩

private theorem bootRead_flags {branch : Bool} {k : Nat} {op : Op} {g g' : Globals} {flash : Content UInt8}
    (found : (Stage.bootRead.ops branch)[k]? = some op) (computed : op.computed g flash = .ok g') :
    Setting.dhcp.pending g' = Setting.dhcp.pending g ∧ k < 12 ∧ ∀ i < 2, (Setting.dhcp.saved g')[i]? =
      if i + 6 = k then (Setting.dhcp.stored flash)[i]? else (Setting.dhcp.saved g)[i]? := by
  have copied (flag : Bytes 50) (addr : Nat) : (memcpy flag (read flash addr 8)).toList.take 8 = read flash addr 8 := by
    have whole := memcpy_take flag (read flash addr 8) (by simp)
    rwa [read_length] at whole
  cases branch
  · simp [Stage.ops] at found
  · rcases k with _ | _ | _ | _ | _ | _ | _ | _ | _ | _ | _ | _ | k <;> cases found <;> cases computed <;>
      refine ⟨rfl,by decide,fun i inside => ?_⟩ <;> rcases i with _ | _ | i <;>
      first
        | rfl
        | exact congrArg some (copied _ _)
        | omega

def Stage.boots : Stage → Bool
  | .bootRead | .bootWifi | .bootEth => true
  | _ => false

theorem boots_next {stage : Stage} (looping : stage.boots = false) : stage.next.boots = false := by
  cases stage with
  | save x => cases x <;> rfl
  | _ => first | rfl | contradiction

private theorem flagsAt_looping {value : List (List UInt8)} {g : Globals} {pc : Pc} (looping : pc.stage.boots = false) :
    FlagsAt value g pc := by
  unfold FlagsAt
  split
  next => contradiction
  next =>
    intro booting
    rcases booting with same | same <;> simp [same, Stage.boots] at looping

private theorem flagsAt_goto {value : List (List UInt8)} {g : Globals} {stage : Stage} (branch : Bool) (k : Nat)
    (looping : stage.boots = false) : FlagsAt value g (.goto stage branch k) := by
  unfold Pc.goto
  split
  next => exact flagsAt_looping looping
  next => exact flagsAt_looping (boots_next looping)

private theorem flags_storage {value : List (List UInt8)} {g g' : Globals} {flash flash' : Content UInt8} {pc pc' : Pc}
    (stepped : StorageStep .dhcp g flash pc g' flash' pc') (away : Setting.dhcp.place pc = none)
    (stored : Setting.dhcp.stored flash = value) (values : FlagValues value) (flags : FlagsAt value g pc) :
    FlagsAt value g' pc' := by
  have set (saved : Setting.dhcp.saved g = value) : FlagsSet g := by
    obtain ⟨h,set,same⟩ := values
    exact flags_keep set (saved.trans same.symm)
  cases stepped with
  | enter stage =>
    cases stage with
    | bootRead => exact fun _ _ none => absurd none (by omega)
    | bootWifi =>
      obtain ⟨saved,_⟩ := flags (Or.inl rfl)
      have guard : Stage.bootWifi.guard g = true := (set saved).1
      rw [guard]
      exact fun _ => ⟨saved,rfl⟩
    | bootEth =>
      obtain ⟨saved,_⟩ := flags (Or.inr rfl)
      have guard : Stage.bootEth.guard g = true := (set saved).2
      rw [guard]
      exact fun _ => ⟨saved,rfl⟩
    | _ => exact flagsAt_goto _ 0 rfl
  | @own k => rw [Setting.place_own] at away; contradiction
  | @other stage branch k op _ _ found computed =>
    cases stage with
    | bootRead =>
      obtain ⟨_,inside,after⟩ := bootRead_flags found computed
      have read (i : Nat) (flag : i < 2) (past : i + 6 < k + 1) : (Setting.dhcp.saved g')[i]? = value[i]? := by
        rw [after i flag]
        split
        next => rw [stored]
        next before => exact flags i flag (by omega)
      cases branch
      · simp [Stage.ops] at found
      · unfold Pc.goto
        split
        next => exact read
        next last =>
          have beyond : 12 ≤ k + 1 := Nat.not_lt.mp last
          refine fun _ => ⟨?_,rfl⟩
          obtain ⟨h,_,same⟩ := values
          subst same
          apply List.ext_getElem?
          intro i
          rcases i with _ | _ | i
          · exact read 0 (by decide) (by omega)
          · exact read 1 (by decide) (by omega)
          · rfl
    | bootWifi =>
      obtain ⟨saved,chosen⟩ := flags (Or.inl rfl)
      cases branch
      · contradiction
      · rcases k with _ | k
        · cases found
          cases computed
          exact fun _ => ⟨saved,rfl⟩
        · contradiction
    | bootEth =>
      obtain ⟨saved,chosen⟩ := flags (Or.inr rfl)
      cases branch
      · contradiction
      · rcases k with _ | k
        · exact fun booting => by rcases booting with other | other <;> contradiction
        · contradiction
    | _ => exact flagsAt_goto _ _ rfl

theorem rests_storage {x : Setting} {value : List (List UInt8)} {g g' : Globals} {flash flash' : Content UInt8}
    {pc pc' : Pc} (stepped : storageStep ideal g flash pc = .ok (g',flash',pc'))
    (rests : x.Rests value g flash pc)
    (ownPage : pc = .inside (.save .internet) true 0 → x.sharesPage = false) : x.Rests value g' flash' pc' := by
  have cases := storage_cases x stepped
  have flags : x = .dhcp → FlagValues value ∧ FlagsAt value g' pc' := by
    intro own
    subst own
    obtain ⟨values,at_pc⟩ := rests.flags rfl
    exact ⟨values,flags_storage cases rests.away rests.stored values at_pc⟩
  cases cases with
  | enter stage =>
    refine ⟨?_,rests.idle,rests.stored,flags⟩
    rw [Setting.place_entered, if_neg fun marked => absurd (rests.idle.symm.trans marked.2) Bool.false_ne_true]
  | @own k => exact absurd (rests.away.symm.trans (Setting.place_own x k)) (Option.some_ne_none k).symm
  | @other stage branch k op _ away found computed =>
    have notFlags : x = .dhcp → stage.defaults branch = false := by
      intro own
      cases branch
      · obtain ⟨_,at_pc⟩ := rests.flags own
        cases stage with
        | bootWifi => exact (at_pc (Or.inl rfl)).2
        | bootEth => exact (at_pc (Or.inr rfl)).2
        | _ => rfl
      · cases stage <;> rfl
    have pending : x.pending g' = x.pending g := by
      by_cases boot : stage = .bootRead
      · subst boot
        by_cases own : x = .dhcp
        · subst own; exact (bootRead_flags found computed).1
        · exact (bootRead_keeps own found computed).pending
      · exact (other_spared found computed away boot notFlags).keeps.pending
    refine ⟨Setting.place_goto away,pending.trans rests.idle,?_,flags⟩
    refine (other_stored _ g flash found away notFlags fun internet first => ?_).trans rests.stored
    subst internet first
    cases branch
    · simp [Stage.ops] at found
    · exact ownPage rfl

/-- A reset spoils nothing but what an unfinished operation of the flash works on. -/
theorem survives_stored {x : Setting} {s : Device} (junk : Content UInt8) (away : x.place s.pc = none)
    (notFlags : x = .dhcp → s.pc.defaults = false)
    (ownPage : s.pc = .inside (.save .internet) true 1 → x.sharesPage = false) :
    x.stored (s.survives junk) = x.stored s.flash := by
  apply List.map_congr_left
  intro part member
  apply read_congr
  intro a inside
  have settled : s.pc.inFlight s.g a = false := by
    unfold Pc.inFlight
    split
    next stage branch k at_k =>
      rw [at_k] at away notFlags ownPage
      split
      next op _ found =>
        have other : stage ≠ .save x := by
          intro own
          subst own
          cases branch
          · contradiction
          · rw [Setting.place_own] at away; contradiction
        refine apart_untouched s.g (other_apart found other notFlags (fun internet first => ?_) part member) inside
        subst internet first
        cases branch
        · contradiction
        · exact ownPage rfl
      next => rfl
    next => rfl
  simp [Device.survives, settled]

end PulseFirmware
