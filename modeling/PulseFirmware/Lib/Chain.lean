import Mathlib.Data.List.Nodup
import Mathlib.Data.List.Perm.Subperm
import Mathlib.Logic.Function.Basic

/-! Linked lists in a store: the cells met from a pointer on, each naming the next. -/
namespace PulseFirmware

/-- From the pointer the cells in the list are met, in this order. -/
inductive Chain {α : Type} (next : α → Option α) : Option α → List α → Prop
  | nil : Chain next none []
  | cons (a : α) {rest : List α} : Chain next (next a) rest → Chain next (some a) (a :: rest)

namespace Chain

section
variable {α : Type} {next next' : α → Option α}

/-- Follow the pointers, through at most so many cells. -/
def walk (next : α → Option α) : Nat → Option α → Option (List α)
  | _, none => some []
  | 0, some _ => none
  | n+1, some a => (walk next n (next a)).map (a :: ·)

theorem walk_eq {start : Option α} {cells : List α} (chain : Chain next start cells) (n : Nat)
    (budget : cells.length ≤ n) : walk next n start = some cells := by
  induction chain generalizing n with
  | nil => cases n <;> rfl
  | cons a chain ih =>
    cases n with
    | zero => contradiction
    | succ n =>
      have rest := ih n (Nat.le_of_succ_le_succ budget)
      simp only [walk, rest, Option.map_some]

theorem congr {start : Option α} {cells : List α} (chain : Chain next start cells)
    (same : ∀ a ∈ cells, next' a = next a) : Chain next' start cells := by
  induction chain with
  | nil => exact .nil
  | cons a chain ih =>
    have rest := ih fun b inside => same b (List.mem_cons_of_mem a inside)
    rw [← same a List.mem_cons_self] at rest
    exact .cons a rest

theorem snoc {start : Option α} {cells : List α} {last new : α} (chain : Chain next start (cells ++ [last]))
    (same : ∀ a ∈ cells, next' a = next a) (linked : next' last = some new) (ends : next' new = none) :
    Chain next' start (cells ++ [last] ++ [new]) := by
  induction cells generalizing start with
  | nil =>
    cases chain with
    | cons a chain =>
      refine .cons last ?_
      rw [linked]
      refine .cons new ?_
      rw [ends]
      exact .nil
  | cons a cells ih =>
    cases chain with
    | cons a chain =>
      have rest := ih chain fun b inside => same b (List.mem_cons_of_mem a inside)
      rw [← same a List.mem_cons_self] at rest
      exact .cons a rest

theorem single {a : α} (ends : next a = none) : Chain next (some a) [a] := by
  refine .cons a ?_
  rw [ends]
  exact .nil

theorem start_eq {start : Option α} {cells : List α} (chain : Chain next start cells) : start = cells.head? := by
  cases chain with
  | nil => rfl
  | cons a chain => rfl

end

end Chain

/-- A list without repetitions of numbers below a bound is no longer than the bound. -/
theorem Chain.length_bounded {cells : List Nat} {bound : Nat} (distinct : cells.Nodup)
    (below : ∀ a ∈ cells, a < bound) : cells.length ≤ bound := by
  have inside : cells ⊆ List.range bound := fun a here => List.mem_range.mpr (below a here)
  have short := (List.subperm_of_subset distinct inside).length_le
  rwa [List.length_range] at short

end PulseFirmware
