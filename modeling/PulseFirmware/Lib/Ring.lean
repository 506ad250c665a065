import Mathlib.Data.List.Basic
import Mathlib.Data.List.Induction
import Mathlib.Logic.Function.Basic

/-! A memory of which the first `size` cells form a ring: what is stored at a place of the ring goes
on at its start, and does not touch what was stored before it as long as both fit. -/
namespace PulseFirmware.Ring

section
variable {β : Type} (size : Nat)

def load (mem : Nat → β) (start n : Nat) : List β := (List.range n).map fun i => mem ((start + i) % size)

def store (mem : Nat → β) (start : Nat) : List β → Nat → β
  | [] => mem
  | b :: data => store (Function.update mem (start % size) b) (start + 1) data

@[simp] theorem load_length (mem : Nat → β) (start n : Nat) : (load size mem start n).length = n := by
  rw [load, List.length_map, List.length_range]

theorem load_succ (mem : Nat → β) (start n : Nat) :
    load size mem start (n + 1) = mem (start % size) :: load size mem (start + 1) n := by
  rw [load, List.range_succ_eq_map, List.map_cons, List.map_map, load]
  refine congrArg _ (List.map_congr_left fun i _ => ?_)
  change mem ((start + (i + 1)) % size) = mem ((start + 1 + i) % size)
  rw [Nat.add_right_comm, Nat.add_assoc]

theorem load_congr {mem mem' : Nat → β} {start n : Nat}
    (same : ∀ i < n, mem' ((start + i) % size) = mem ((start + i) % size)) :
    load size mem' start n = load size mem start n :=
  List.map_congr_left fun i inside => same i (List.mem_range.mp inside)

theorem store_append (mem : Nat → β) (start : Nat) (data more : List β) :
    store size mem start (data ++ more) = store size (store size mem start data) (start + data.length) more := by
  induction data generalizing mem start with
  | nil => rfl
  | cons b data ih =>
    rw [List.cons_append, store, store, ih, List.length_cons, Nat.add_right_comm, Nat.add_assoc]

theorem store_mod (mem : Nat → β) (start : Nat) (data : List β) :
    store size mem (start % size) data = store size mem start data := by
  induction data using List.reverseRecOn with
  | nil => rfl
  | append_singleton data b ih =>
    rw [store_append, store_append, ih]
    simp only [store, Nat.mod_add_mod]

variable {size}

theorem apart {start i j : Nat} (before : i < j) (turn : j < i + size) : (start + i) % size ≠ (start + j) % size := by
  intro same
  have zero : (start + j - (start + i)) % size = 0 := Nat.sub_mod_eq_zero_of_mod_eq same.symm
  rw [Nat.add_sub_add_left, Nat.mod_eq_of_lt (by omega)] at zero
  omega

theorem store_outside {mem : Nat → β} {start a : Nat} {data : List β}
    (outside : ∀ i < data.length, (start + i) % size ≠ a) : store size mem start data a = mem a := by
  induction data generalizing mem start with
  | nil => rfl
  | cons b data ih =>
    rw [store, ih fun i inside => ?_]
    · have first := outside 0 (Nat.succ_pos _)
      rw [Nat.add_zero] at first
      exact Function.update_of_ne (Ne.symm first) _ _
    · have next := outside (i + 1) (Nat.succ_lt_succ inside)
      rwa [← Nat.add_assoc, Nat.add_right_comm] at next

theorem store_above {mem : Nat → β} {start a : Nat} {data : List β} (some : 0 < size) (above : size ≤ a) :
    store size mem start data a = mem a :=
  store_outside fun _ _ => Nat.ne_of_lt (Nat.lt_of_lt_of_le (Nat.mod_lt _ some) above)

theorem load_store (mem : Nat → β) (start : Nat) {data : List β} (fits : data.length ≤ size) :
    load size (store size mem start data) start data.length = data := by
  induction data generalizing mem start with
  | nil => rfl
  | cons b data ih =>
    rw [List.length_cons] at fits ⊢
    rw [load_succ, store, ih _ _ (Nat.le_of_succ_le fits), store_outside fun i _ => ?_, Function.update_self]
    rw [Nat.add_right_comm, Nat.add_assoc]
    exact Ne.symm (apart (i := 0) (Nat.succ_pos i) (by omega))

end

end PulseFirmware.Ring
