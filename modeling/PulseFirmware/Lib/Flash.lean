import Mathlib.Data.List.Basic
import Mathlib.Data.List.GetD
import Mathlib.Order.Lattice

/-! Byte- or word-addressed flash with page erase and programming. A chip says what
programming a cell over its old content leaves, so NOR memory and an idealised
overwriting memory are two values of one parameter. -/
namespace PulseFirmware.Flash

abbrev Content (β : Type) := Nat → β

/-- Page size, erased cell, and what programming a new value over an old one leaves. -/
structure Chip (β : Type) where
  page : Nat
  blank : β
  cell : β → β → β

/-- Programming an erased cell stores the new value. -/
def Chip.Fresh {β : Type} (chip : Chip β) : Prop := ∀ new, chip.cell chip.blank new = new

/-- Programming any cell stores the new value. -/
def Chip.Overwrites {β : Type} (chip : Chip β) : Prop := ∀ old new, chip.cell old new = new

section
variable {β : Type} (chip : Chip β)

theorem Chip.Overwrites.fresh {chip : Chip β} (overwrites : chip.Overwrites) : chip.Fresh :=
  fun new => overwrites chip.blank new

def Chip.erase (flash : Content β) (addr : Nat) : Content β :=
  fun a => if a / chip.page = addr / chip.page then chip.blank else flash a

/-- Programming touches the cells of its data only. -/
def Chip.program (flash : Content β) (addr : Nat) (data : List β) : Content β :=
  fun a => if addr ≤ a then (data[a - addr]?).elim (flash a) (chip.cell (flash a)) else flash a

def read (flash : Content β) (addr len : Nat) : List β :=
  (List.range len).map (fun i => flash (addr + i))

def Inside (addr len a : Nat) : Prop := addr ≤ a ∧ a < addr + len

instance (addr len a : Nat) : Decidable (Inside addr len a) :=
  inferInstanceAs (Decidable (_ ∧ _))

def Disjoint (addr len addr' len' : Nat) : Prop := addr + len ≤ addr' ∨ addr' + len' ≤ addr

instance (addr len addr' len' : Nat) : Decidable (Disjoint addr len addr' len') :=
  inferInstanceAs (Decidable (_ ∨ _))

@[simp] theorem read_length (flash : Content β) (addr len : Nat) : (read flash addr len).length = len := by
  simp [read]

@[simp] theorem read_getElem (flash : Content β) (addr len i : Nat) (bound : i < (read flash addr len).length) :
    (read flash addr len)[i] = flash (addr + i) := by
  simp [read]

theorem read_congr {flash flash' : Content β} {addr len : Nat}
    (same : ∀ a, Inside addr len a → flash a = flash' a) : read flash addr len = read flash' addr len := by
  apply List.map_congr_left
  intro i member
  have bound := List.mem_range.mp member
  exact same (addr + i) ⟨by omega, by omega⟩

theorem read_eq_iff (flash : Content β) (addr : Nat) (data : List β) :
    read flash addr data.length = data ↔ ∀ i (bound : i < data.length), flash (addr + i) = data[i] := by
  constructor
  · intro equal i bound
    have entry := List.getElem_of_eq equal (by simpa using bound)
    simpa using entry
  · intro entries
    apply List.ext_getElem
    · simp
    · intro i left right
      simpa using entries i right

theorem read_take (flash : Content β) (addr len n : Nat) (bound : n ≤ len) :
    (read flash addr len).take n = read flash addr n := by
  simp [read, ← List.map_take, List.take_range, Nat.min_eq_left bound]

theorem program_outside (flash : Content β) (addr a : Nat) (data : List β)
    (outside : ¬ Inside addr data.length a) : chip.program flash addr data a = flash a := by
  unfold Chip.program
  split
  next above =>
    have beyond : data.length ≤ a - addr := by
      by_contra inside
      exact outside ⟨above, by omega⟩
    simp [List.getElem?_eq_none beyond]
  next => rfl

theorem program_inside (flash : Content β) (addr i : Nat) (data : List β) (bound : i < data.length) :
    chip.program flash addr data (addr + i) = chip.cell (flash (addr + i)) data[i] := by
  simp [Chip.program, bound]

theorem read_program_disjoint (flash : Content β) (addr len addr' : Nat) (data : List β)
    (apart : Disjoint addr len addr' data.length) :
    read (chip.program flash addr' data) addr len = read flash addr len := by
  apply read_congr
  intro a inside
  apply program_outside
  intro hit
  rcases apart with apart | apart <;> have := inside.1 <;> have := inside.2 <;>
    have := hit.1 <;> have := hit.2 <;> omega

/-- The data read back is the data programmed exactly when every cell takes its value. -/
theorem read_program_iff (flash : Content β) (addr : Nat) (data : List β) :
    read (chip.program flash addr data) addr data.length = data ↔
      ∀ i (bound : i < data.length), chip.cell (flash (addr + i)) data[i] = data[i] := by
  rw [read_eq_iff]
  constructor
  · intro entries i bound
    rw [← program_inside chip flash addr i data bound]
    exact entries i bound
  · intro takes i bound
    rw [program_inside chip flash addr i data bound]
    exact takes i bound

theorem read_program_take_iff (flash : Content β) (addr n : Nat) (data : List β) (bound : n ≤ data.length) :
    read (chip.program flash addr data) addr n = data.take n ↔
      ∀ i (inside : i < data.length), i < n → chip.cell (flash (addr + i)) data[i] = data[i] := by
  have size : (data.take n).length = n := by simpa using bound
  have same : read (chip.program flash addr data) addr n =
      read (chip.program flash addr data) addr (data.take n).length := by rw [size]
  rw [same, read_eq_iff]
  constructor
  · intro entries i inside below
    rw [← program_inside chip flash addr i data inside]
    rw [entries i (by omega), List.getElem_take]
  · intro takes i below
    have inside : i < data.length := by omega
    rw [List.getElem_take, program_inside chip flash addr i data inside]
    exact takes i inside (by omega)

theorem read_program_overwrites {chip : Chip β} (overwrites : chip.Overwrites) (flash : Content β)
    (addr : Nat) (data : List β) : read (chip.program flash addr data) addr data.length = data :=
  (read_program_iff chip flash addr data).mpr fun i _ => overwrites _ data[i]

theorem erase_inside (flash : Content β) (addr a : Nat) (samePage : a / chip.page = addr / chip.page) :
    chip.erase flash addr a = chip.blank := by
  simp [Chip.erase, samePage]

theorem erase_outside (flash : Content β) (addr a : Nat) (other : a / chip.page ≠ addr / chip.page) :
    chip.erase flash addr a = flash a := by
  simp [Chip.erase, other]

/-- Programming a range of a page that was just erased stores the data, whatever was there. -/
theorem read_program_erased {chip : Chip β} (fresh : chip.Fresh) (flash : Content β) (addr : Nat)
    (data : List β) (erased : ∀ a, Inside addr data.length a → flash a = chip.blank) :
    read (chip.program flash addr data) addr data.length = data := by
  rw [read_program_iff]
  intro i bound
  rw [erased (addr + i) ⟨by omega, by omega⟩]
  exact fresh data[i]

theorem read_program_erased_take {chip : Chip β} (fresh : chip.Fresh) (flash : Content β) (addr n : Nat)
    (data : List β) (bound : n ≤ data.length) (erased : ∀ a, Inside addr data.length a → flash a = chip.blank) :
    read (chip.program flash addr data) addr n = data.take n := by
  rw [read_program_take_iff chip flash addr n data bound]
  intro i inside _
  rw [erased (addr + i) ⟨by omega, by omega⟩]
  exact fresh data[i]

theorem read_erase_other (flash : Content β) (addr len addr' : Nat)
    (other : ∀ a, Inside addr len a → a / chip.page ≠ addr' / chip.page) :
    read (chip.erase flash addr') addr len = read flash addr len :=
  read_congr fun a inside => erase_outside chip flash addr' a (other a inside)

/-- A range in the erased page reads as before exactly when it was blank already. -/
theorem read_erase_iff (flash : Content β) (addr len addr' : Nat)
    (same : ∀ a, Inside addr len a → a / chip.page = addr' / chip.page) :
    read (chip.erase flash addr') addr len = read flash addr len ↔
      ∀ a, Inside addr len a → flash a = chip.blank := by
  constructor
  · intro equal a inside
    have bound : a - addr < len := by have := inside.1; have := inside.2; omega
    have entry := List.getElem_of_eq equal (i := a - addr) (by simpa using bound)
    have place : addr + (a - addr) = a := by have := inside.1; omega
    simp only [read_getElem, place] at entry
    rw [← entry, erase_inside chip flash addr' a (same a inside)]
  · intro blank
    apply read_congr
    intro a inside
    rw [erase_inside chip flash addr' a (same a inside), blank a inside]

end

end PulseFirmware.Flash
