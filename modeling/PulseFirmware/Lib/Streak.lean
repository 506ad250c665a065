import Mathlib.Data.List.Basic

/-! Histories of events, some of which break the streaks of the others. -/
namespace PulseFirmware.Streak

section
variable {α : Type} [DecidableEq α] {breaks : α → Bool} {demand : α → Option (α × Nat)}

/-- The history ends in a stretch without a break that has the event `n` times at least. -/
def Series (breaks : α → Bool) (x : α) (n : Nat) (past : List α) : Prop :=
  ∃ earlier recent, past = earlier ++ recent ∧ (∀ a ∈ recent, breaks a = false) ∧ n ≤ recent.count x

theorem series_zero (x : α) (past : List α) : Series breaks x 0 past :=
  ⟨past,[],(List.append_nil past).symm,fun _ none => absurd none List.not_mem_nil,Nat.zero_le _⟩

theorem series_append {x : α} {n : Nat} {past actions : List α} (series : Series breaks x n past)
    (quiet : ∀ a ∈ actions, breaks a = false) : Series breaks x (n + actions.count x) (past ++ actions) := by
  obtain ⟨earlier,recent,rfl,unbroken,enough⟩ := series
  refine ⟨earlier,recent ++ actions,List.append_assoc _ _ _,fun a member => ?_,?_⟩
  · exact (List.mem_append.mp member).elim (unbroken a) (quiet a)
  · rw [List.count_append]
    omega

theorem series_weaken {x : α} {m n : Nat} {past : List α} (series : Series breaks x n past) (less : m ≤ n) :
    Series breaks x m past := by
  obtain ⟨earlier,recent,same,unbroken,enough⟩ := series
  exact ⟨earlier,recent,same,unbroken,Nat.le_trans less enough⟩

theorem series_broken {x b : α} {n : Nat} {past actions : List α} (broken : breaks b = true)
    (series : Series breaks x n (past ++ b :: actions)) : n ≤ actions.count x := by
  obtain ⟨earlier,recent,same,unbroken,enough⟩ := series
  rcases List.append_eq_append_iff.mp same with ⟨middle,_,here⟩ | ⟨middle,_,here⟩
  · cases middle with
    | nil =>
      rw [List.nil_append] at here
      have calm := unbroken b (here ▸ List.mem_cons_self)
      rw [broken] at calm
      contradiction
    | cons first middle =>
      rw [List.cons_append] at here
      rw [(List.cons.inj here).2, List.count_append]
      omega
  · have calm := unbroken b (by rw [here]; exact List.mem_append_right _ List.mem_cons_self)
    rw [broken] at calm
    contradiction

/-- Each event comes after the series that it demands. -/
def Preceded (breaks : α → Bool) (demand : α → Option (α × Nat)) (past : List α) : Prop :=
  ∀ before a after, past = before ++ a :: after → ∀ x n, demand a = some (x,n) → Series breaks x n before

theorem preceded_nil : Preceded breaks demand [] := by
  intro before a after same
  exact absurd (congrArg List.length same) (by simp)

theorem preceded_snoc {past : List α} {a : α} (preceded : Preceded breaks demand past)
    (last : ∀ x n, demand a = some (x,n) → Series breaks x n past) : Preceded breaks demand (past ++ [a]) := by
  intro before b after same x n demanded
  rcases List.append_eq_append_iff.mp same with ⟨middle,begun,rest⟩ | ⟨middle,begun,rest⟩
  · cases middle with
    | nil =>
      obtain ⟨rfl,_⟩ := List.cons.inj rest
      rw [begun, List.append_nil]
      exact last x n demanded
    | cons first middle =>
      have sizes := congrArg List.length rest
      simp at sizes
  · cases middle with
    | nil =>
      obtain ⟨rfl,_⟩ := List.cons.inj rest
      rw [List.append_nil] at begun
      exact begun ▸ last x n demanded
    | cons first middle =>
      obtain ⟨rfl,_⟩ := List.cons.inj rest
      exact preceded before _ middle begun x n demanded

theorem preceded_append {past actions : List α} (preceded : Preceded breaks demand past)
    (quiet : ∀ a ∈ actions, demand a = none) : Preceded breaks demand (past ++ actions) := by
  induction actions generalizing past with
  | nil =>
    rw [List.append_nil]
    exact preceded
  | cons a actions ih =>
    obtain ⟨first,rest⟩ := List.forall_mem_cons.mp quiet
    rw [List.append_cons]
    refine ih (preceded_snoc preceded fun x n demanded => ?_) rest
    rw [first] at demanded
    contradiction

end

end PulseFirmware.Streak
