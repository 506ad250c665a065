import PulseFirmware.Progress

/-! The life of one value of a setting, from the command that carries it to the flash: marked,
partly written, written, copied. Every step of the storage task keeps the value on this way,
but for an erase of its page by another save. -/
namespace PulseFirmware
open PulseFirmware.CString PulseFirmware.Flash

/-- The action of its own save that the task is at. -/
def Setting.place (x : Setting) : Pc → Option Nat
  | .inside (.save y) true k => if y = x then some k else none
  | _ => none

def Setting.late (x : Setting) (pc : Pc) : Bool := (x.place pc).any fun k => decide (0 < x.writes k)

theorem Setting.late_of_place {x : Setting} {pc : Pc} {k : Nat} (place : x.place pc = some k) (after : 0 < x.writes k) :
    x.late pc = true := by
  rw [late, place]
  exact decide_eq_true after

/-- The value is in flash and, where the working copies are tracked, in RAM. -/
structure Setting.Kept (x : Setting) (value : List (List UInt8)) (copies : Bool) (g : Globals)
    (flash : Content UInt8) : Prop where
  stored : x.stored flash = value
  working : copies = true → x.working g value

/-- The value waits in the source variables, and the parts written so far are in flash. -/
structure Setting.Saving (x : Setting) (value : List (List UInt8)) (count : Nat) (g : Globals)
    (flash : Content UInt8) : Prop where
  pending : x.pending g = true
  saved : x.saved g = value
  stored : (x.stored flash).take count = value.take count

def Setting.Phase (x : Setting) (value : List (List UInt8)) (copies : Bool) (g : Globals) (flash : Content UInt8)
    (pc : Pc) : Prop :=
  match x.place pc with
  | none => x.Saving value 0 g flash ∨ (x.pending g = false ∧ x.Kept value copies g flash)
  | some k => if x.copied k then x.Kept value copies g flash else x.Saving value (x.writes k) g flash

theorem Setting.place_enter (x : Setting) (stage : Stage) : x.place (.enter stage) = none := rfl

theorem Setting.place_other {x : Setting} {stage : Stage} {branch : Bool} {k : Nat} (other : stage ≠ .save x) :
    x.place (.inside stage branch k) = none := by
  cases stage with
  | save y =>
    cases branch
    · rfl
    · exact if_neg fun same => other (congrArg Stage.save same)
  | _ => rfl

theorem Setting.place_own (x : Setting) (k : Nat) : x.place (.inside (.save x) true k) = some k := if_pos rfl

theorem Setting.place_some {x : Setting} {pc : Pc} {k : Nat} (at_k : x.place pc = some k) :
    pc = .inside (.save x) true k := by
  unfold place at at_k
  split at at_k
  next y _ =>
    split at at_k
    next same => cases at_k; rw [same]
    next => contradiction
  next => contradiction

theorem Setting.place_goto {x : Setting} {stage : Stage} {branch : Bool} {k : Nat} (other : stage ≠ .save x) :
    x.place (.goto stage branch k) = none := by
  unfold Pc.goto
  split
  next => exact place_other other
  next => rfl

theorem Setting.place_onward {x : Setting} {k : Nat} (more : k < (saveOps x).length) :
    x.place (.goto (.save x) true k) = some k := by
  have inside : k < ((Stage.save x).ops true).length := more
  rw [Pc.goto, if_pos inside]
  exact place_own x k

theorem Setting.place_left {x : Setting} {k : Nat} (last : k = (saveOps x).length) :
    x.place (.goto (.save x) true k) = none := by
  have beyond : ¬ k < ((Stage.save x).ops true).length := Nat.not_lt.mpr (Nat.le_of_eq last.symm)
  rw [Pc.goto, if_neg beyond]
  rfl

theorem Setting.place_entered (x : Setting) (g : Globals) (stage : Stage) :
    x.place (.goto stage (stage.guard g) 0) = if stage = .save x ∧ x.pending g = true then some 0 else none := by
  by_cases own : stage = .save x
  · subst own
    change x.place (.goto (.save x) (x.pending g) 0) = _
    cases x.pending g with
    | false => simp [Pc.goto, Stage.ops, place_enter]
    | true =>
      rw [place_onward (by cases x <;> exact Nat.zero_lt_succ _)]
      simp
  · rw [place_goto own, if_neg fun both => own both.1]

/-- What a step of the storage task can be, seen from one setting: a condition, an action of
its own save, or an action of another section. -/
inductive StorageStep (x : Setting) (g : Globals) (flash : Content UInt8) : Pc → Globals → Content UInt8 → Pc → Prop
  | enter (stage : Stage) : StorageStep x g flash (.enter stage) g flash (.goto stage (stage.guard g) 0)
  | own {k : Nat} {op : Op} {g' : Globals} (found : (saveOps x)[k]? = some op)
      (computed : op.computed g flash = .ok g') :
      StorageStep x g flash (.inside (.save x) true k) g' (op.flashed ideal g flash) (.goto (.save x) true (k + 1))
  | other {stage : Stage} {branch : Bool} {k : Nat} {op : Op} {g' : Globals} (away : stage ≠ .save x)
      (found : (stage.ops branch)[k]? = some op) (computed : op.computed g flash = .ok g') :
      StorageStep x g flash (.inside stage branch k) g' (op.flashed ideal g flash) (.goto stage branch (k + 1))

theorem storage_cases (x : Setting) {g g' : Globals} {flash flash' : Content UInt8} {pc pc' : Pc}
    (stepped : storageStep ideal g flash pc = .ok (g',flash',pc')) : StorageStep x g flash pc g' flash' pc' := by
  cases pc with
  | enter stage => cases stepped; exact .enter stage
  | inside stage branch k =>
    simp only [storageStep] at stepped
    split at stepped
    next => contradiction
    next op found =>
      obtain ⟨⟨h,content⟩,executed,rest⟩ := bind_ok stepped
      obtain ⟨h',computed,same⟩ := bind_ok executed
      cases same
      cases rest
      by_cases own : stage = .save x
      · subst own
        cases branch
        · simp [Stage.ops] at found
        · exact .own found computed
      · exact .other own found computed

theorem Setting.stored_early {x : Setting} {k : Nat} {op : Op} (cell : UInt8 → UInt8 → UInt8) (g : Globals)
    (flash : Content UInt8) (early : x.early k op = true) :
    (x.stored (op.flashed (paged cell) g flash)).take (x.writes k) = (x.stored flash).take (x.writes k) := by
  unfold Setting.stored
  rw [← List.map_take, ← List.map_take]
  apply List.map_congr_left
  intro part member
  exact flashed_apart cell g flash (List.all_eq_true.mp early part member)

theorem Setting.stored_write {x : Setting} {k len : Nat} {part : Part} {src : Globals → List UInt8} (g : Globals)
    (flash : Content UInt8) (next : x.parts[x.writes k]? = some part)
    (same : (src g).take len = part.src g) (early : x.early k (.write part.addr len src) = true) :
    (x.stored ((Op.write part.addr len src).flashed ideal g flash)).take (x.writes k + 1) =
      (x.stored flash).take (x.writes k) ++ [part.src g] := by
  have before := Setting.stored_early (fun _ new => new) g flash early
  have entry : (x.stored ((Op.write part.addr len src).flashed ideal g flash))[x.writes k]? = some (part.src g) := by
    unfold Setting.stored
    rw [List.getElem?_map, next, Option.map_some]
    have written := read_program_overwrites ideal_overwrites flash part.addr (part.src g)
    rw [part.size g] at written
    change some (read (ideal.program flash part.addr ((src g).take len)) part.addr part.len) = _
    rw [same, written]
  rw [List.take_add_one, entry]
  exact congrArg (· ++ [part.src g]) before

private theorem saved_next {x : Setting} {value : List (List UInt8)} {g : Globals} {count : Nat} {part : Part}
    (saved : x.saved g = value) (next : x.parts[count]? = some part) :
    value.take (count + 1) = value.take count ++ [part.src g] := by
  have entry : value[count]? = some (part.src g) := by
    rw [← saved, Setting.saved, List.getElem?_map, next, Option.map_some]
  rw [List.take_add_one, entry]
  rfl

private theorem phase_own {x : Setting} {value : List (List UInt8)} {copies : Bool} {k : Nat} {op : Op}
    {g g' : Globals} {flash : Content UInt8} (found : (saveOps x)[k]? = some op)
    (computed : op.computed g flash = .ok g') (phase : x.Phase value copies g flash (.inside (.save x) true k)) :
    x.Phase value copies g' (op.flashed ideal g flash) (.goto (.save x) true (k + 1)) := by
  simp only [Setting.Phase, Setting.place_own] at phase
  cases saveOps_action found with
  | pause yields more writes copied =>
    have same : g' = g ∧ op.flashed ideal g flash = flash := by
      cases op <;> first | contradiction | exact ⟨(Except.ok.inj computed).symm,rfl⟩
    rw [same.1, same.2, Setting.Phase, Setting.place_onward more]
    simpa only [writes, copied] using phase
  | erase addr more early writes before after =>
    cases computed
    rw [Setting.Phase, Setting.place_onward more]
    simp only [before, after, writes] at phase ⊢
    exact ⟨phase.pending,phase.saved,(Setting.stored_early _ g flash early).trans phase.stored⟩
  | write more part next place same early writes before after =>
    cases computed
    subst place
    rw [Setting.Phase, Setting.place_onward more]
    simp only [before, after, writes] at phase ⊢
    refine ⟨phase.pending,phase.saved,?_⟩
    rw [Setting.stored_write g flash next (same g) early, phase.stored, saved_next phase.saved next]
  | copy own more writes same before after =>
    subst own
    rw [Setting.Phase, Setting.place_onward more]
    simp only [before, after] at phase ⊢
    obtain ⟨_,working,_⟩ := internetCopy_spec computed
    refine ⟨?_,fun _ => phase.saved ▸ working⟩
    have whole := phase.stored
    rw [writes, List.take_of_length_le (by simp), List.take_of_length_le (by simp [← phase.saved])] at whole
    exact whole
  | done own last writes before =>
    subst own
    rw [Setting.Phase, Setting.place_left last]
    refine Or.inr ⟨done_pending computed,?_⟩
    have working := done_working computed
    by_cases internet : x = .internet
    · rw [if_pos (before.trans (decide_eq_true internet))] at phase
      subst internet
      exact ⟨phase.stored,fun track => (working.2 rfl value).mpr (phase.working track)⟩
    · have early : ¬ x.copied k = true := by simp [before, internet]
      rw [if_neg early] at phase
      have whole := phase.stored
      rw [writes, List.take_of_length_le (by simp), List.take_of_length_le (by simp [← phase.saved])] at whole
      exact ⟨whole,fun _ => phase.saved ▸ working.1 internet⟩

private theorem stage_apart {y : Setting} {stage : Stage} (branch : Bool) (other : stage ≠ .save y)
    (notFlags : y = .dhcp → stage.defaults branch = false)
    (ownPage : stage = .save .internet → y.sharesPage = false) : y.apart (stage.ops branch) = true := by
  cases stage with
  | save x =>
    cases branch
    · cases y <;> rfl
    · exact saveOps_apart (fun same => other (congrArg Stage.save same.symm)) fun internet => ownPage (by rw [internet])
  | bootWifi => cases branch <;> cases y <;> first | rfl | exact absurd (notFlags rfl) (by decide)
  | bootEth => cases branch <;> cases y <;> first | rfl | exact absurd (notFlags rfl) (by decide)
  | _ => cases branch <;> cases y <;> rfl

/-- An action of another section leaves the stored bytes of a setting alone, but for the page
erase of the internet mode and the default flags of the boot section. -/
theorem other_apart {y : Setting} {stage : Stage} {branch : Bool} {k : Nat} {op : Op}
    (found : (stage.ops branch)[k]? = some op) (other : stage ≠ .save y)
    (notFlags : y = .dhcp → stage.defaults branch = false)
    (ownPage : stage = .save .internet → k = 0 → y.sharesPage = false) :
    ∀ part ∈ y.parts, op.apart part.addr part.len = true := by
  have among {ops : List Op} (apart : y.apart ops = true) (member : op ∈ ops) :
      ∀ part ∈ y.parts, op.apart part.addr part.len = true :=
    fun part inside => List.all_eq_true.mp (List.all_eq_true.mp apart part inside) op member
  by_cases shared : stage = .save .internet ∧ y.sharesPage = true
  · obtain ⟨rfl,shares⟩ := shared
    have later : k ≠ 0 := fun first => by rw [ownPage rfl first] at shares; contradiction
    obtain ⟨k,rfl⟩ : ∃ n, k = n + 1 := ⟨k - 1,by omega⟩
    cases branch
    · simp [Stage.ops] at found
    · have tail : (saveOps .internet).tail[k]? = some op := List.getElem?_tail.trans found
      exact among (by cases y <;> first | rfl | contradiction) (List.mem_of_getElem? tail)
  · refine among (stage_apart branch other notFlags ?_) (List.mem_of_getElem? found)
    intro internet
    simpa [internet] using shared

theorem other_stored {y : Setting} {stage : Stage} {branch : Bool} {k : Nat} {op : Op} (cell : UInt8 → UInt8 → UInt8)
    (g : Globals) (flash : Content UInt8) (found : (stage.ops branch)[k]? = some op) (other : stage ≠ .save y)
    (notFlags : y = .dhcp → stage.defaults branch = false)
    (ownPage : stage = .save .internet → k = 0 → y.sharesPage = false) :
    y.stored (op.flashed (paged cell) g flash) = y.stored flash :=
  List.map_congr_left fun part member =>
    flashed_apart cell g flash (other_apart found other notFlags ownPage part member)

private theorem phase_frame {x : Setting} {value : List (List UInt8)} {copies : Bool} {g g' : Globals}
    {flash flash' : Content UInt8} {pc pc' : Pc} (phase : x.Phase value copies g flash pc)
    (outside : x.place pc = none) (outside' : x.place pc' = none) (spared : x.Spared g g')
    (stored : x.stored flash' = x.stored flash) : x.Phase value copies g' flash' pc' := by
  rw [Setting.Phase, outside] at phase
  rw [Setting.Phase, outside']
  rcases phase with waits | ⟨idle,kept⟩
  · exact Or.inl ⟨spared.keeps.pending.trans waits.pending,spared.keeps.saved.trans waits.saved,rfl⟩
  · exact Or.inr ⟨spared.keeps.pending.trans idle,stored.trans kept.stored,
      fun track => (spared.working value).mpr (kept.working track)⟩

theorem Setting.Phase.spared {x : Setting} {value : List (List UInt8)} {copies : Bool} {g g' : Globals}
    {flash : Content UInt8} {pc : Pc} (phase : x.Phase value copies g flash pc) (spared : x.Spared g g') :
    x.Phase value copies g' flash pc := by
  have kept (held : x.Kept value copies g flash) : x.Kept value copies g' flash :=
    ⟨held.stored,fun track => (spared.working value).mpr (held.working track)⟩
  have saving (count : Nat) (held : x.Saving value count g flash) : x.Saving value count g' flash :=
    ⟨spared.keeps.pending.trans held.pending,spared.keeps.saved.trans held.saved,held.stored⟩
  unfold Setting.Phase at phase ⊢
  split
  next outside =>
    rw [outside] at phase
    rcases phase with waits | ⟨idle,held⟩
    · exact Or.inl (saving 0 waits)
    · exact Or.inr ⟨spared.keeps.pending.trans idle,kept held⟩
  next k place =>
    simp only [place] at phase
    split
    next copied => rw [if_pos copied] at phase; exact kept phase
    next early => rw [if_neg early] at phase; exact saving _ phase

/-- A command: before the write of the save the value is on its way, after it the value has to
be the one already written. -/
theorem phase_heard {x : Setting} {value : List (List UInt8)} {copies : Bool} {g g' : Globals}
    {flash : Content UInt8} {pc : Pc} (pending : x.pending g' = true) (saved : x.saved g' = value)
    (working : ∀ value, x.working g' value ↔ x.working g value)
    (late : ∀ k, x.place pc = some k → 0 < x.writes k → x.Phase value copies g flash pc) :
    x.Phase value copies g' flash pc := by
  unfold Setting.Phase
  split
  next => exact Or.inl ⟨pending,saved,rfl⟩
  next k place =>
    by_cases early : x.writes k = 0
    · have before : ¬ x.copied k = true := fun copied => by have := copied_writes copied; omega
      rw [if_neg before, early]
      exact ⟨pending,saved,rfl⟩
    · have phase := late k place (Nat.pos_of_ne_zero early)
      simp only [Setting.Phase, place] at phase
      split
      next copied =>
        rw [if_pos copied] at phase
        exact ⟨phase.stored,fun track => (working value).mpr (phase.working track)⟩
      next before =>
        rw [if_neg before] at phase
        exact ⟨pending,saved,phase.stored⟩

private theorem phase_enter {x : Setting} {value : List (List UInt8)} {copies : Bool} {g : Globals}
    {flash : Content UInt8} {stage : Stage} (phase : x.Phase value copies g flash (.enter stage)) :
    x.Phase value copies g flash (.goto stage (stage.guard g) 0) := by
  rw [Setting.Phase, Setting.place_entered]
  by_cases marked : stage = .save x ∧ x.pending g = true
  · have first : ¬ x.copied 0 = true := by simp [Setting.copied]
    have none : x.writes 0 = 0 := by simp [Setting.writes]
    simp only [if_pos marked, if_neg first, none]
    rcases phase with waits | ⟨idle,_⟩
    · exact waits
    · rw [marked.2] at idle; contradiction
  · rw [if_neg marked]
    exact phase

/-- Every step of the storage task keeps a value on its way, but for the boot section and an
erase of its page by another save. -/
theorem phase_storage {x : Setting} {value : List (List UInt8)} {copies : Bool} {g g' : Globals}
    {flash flash' : Content UInt8} {pc pc' : Pc} (stepped : storageStep ideal g flash pc = .ok (g',flash',pc'))
    (phase : x.Phase value copies g flash pc) (notRead : pc.stage ≠ .bootRead)
    (notFlags : x = .dhcp → pc.defaults = false)
    (ownPage : pc = .inside (.save .internet) true 0 → x.sharesPage = true → x.pending g = true) :
    x.Phase value copies g' flash' pc' := by
  cases storage_cases x stepped with
  | enter stage => exact phase_enter phase
  | own found computed => exact phase_own found computed phase
  | @other stage branch k op _ away found computed =>
    by_cases erased : stage = .save .internet ∧ k = 0 ∧ x.sharesPage = true
    · obtain ⟨rfl,rfl,shares⟩ := erased
      cases branch
      · simp [Stage.ops] at found
      · cases found
        cases computed
        have marked := ownPage rfl shares
        rw [Setting.Phase, Setting.place_other away] at phase
        rw [Setting.Phase, Setting.place_goto away]
        rcases phase with waits | ⟨idle,_⟩
        · exact Or.inl ⟨waits.pending,waits.saved,rfl⟩
        · rw [marked] at idle; contradiction
    · refine phase_frame phase (Setting.place_other away) (Setting.place_goto away)
        (other_spared found computed away notRead notFlags)
        (other_stored _ g flash found away notFlags fun internet first => ?_)
      simpa [internet, first] using erased

end PulseFirmware
