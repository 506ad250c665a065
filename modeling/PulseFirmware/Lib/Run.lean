import Mathlib.Logic.Basic

/-! Runs of a system whose step is a partial function of state and label, with the
rules that carry an invariant from one step to whole runs. -/
namespace PulseFirmware.Run

section
variable {σ ε : Type} (step : σ → ε → Option σ)

/-- The state after taking the labelled steps in turn, if each of them is possible. -/
def run : σ → List ε → Option σ
  | s, [] => some s
  | s, e :: es => (step s e).bind fun next => run next es

/-- Every step the run takes meets the condition on its label and the state before it. -/
def Meets (cond : σ → ε → Prop) : σ → List ε → Prop
  | _, [] => True
  | s, e :: es => ∀ next, step s e = some next → cond s e ∧ Meets cond next es

/-- Every state the run goes through, the first and the last included, has the property. -/
def Always (good : σ → Prop) : σ → List ε → Prop
  | s, [] => good s
  | s, e :: es => good s ∧ ∀ next, step s e = some next → Always good next es

variable {step}

instance Meets.decidable {cond : σ → ε → Prop} [∀ s e, Decidable (cond s e)] :
    ∀ s es, Decidable (Meets step cond s es)
  | _, [] => isTrue trivial
  | s, e :: es =>
    match found : step s e with
    | none => isTrue fun next stepped => by rw [found] at stepped; contradiction
    | some next =>
      have : Decidable (Meets step cond next es) := Meets.decidable next es
      decidable_of_iff (cond s e ∧ Meets step cond next es) (by simp [Meets, found])

instance Always.decidable {good : σ → Prop} [DecidablePred good] : ∀ s es, Decidable (Always step good s es)
  | s, [] => inferInstanceAs (Decidable (good s))
  | s, e :: es =>
    match found : step s e with
    | none => decidable_of_iff (good s) (by simp [Always, found])
    | some next =>
      have : Decidable (Always step good next es) := Always.decidable next es
      decidable_of_iff (good s ∧ Always step good next es) (by simp [Always, found])

@[simp] theorem run_nil (s : σ) : run step s [] = some s := rfl

theorem run_cons_eq (s t : σ) (e : ε) (es : List ε) :
    run step s (e :: es) = some t ↔ ∃ next, step s e = some next ∧ run step next es = some t := by
  simp only [run, Option.bind_eq_some_iff]

theorem run_append (s : σ) (es later : List ε) :
    run step s (es ++ later) = (run step s es).bind fun t => run step t later := by
  induction es generalizing s with
  | nil => rfl
  | cons e es ih =>
    simp only [List.cons_append, run, Option.bind_assoc]
    exact congrArg _ (funext ih)

/-- Conditions that agree on every possible step are met by the same runs. -/
theorem meets_congr {cond cond' : σ → ε → Prop}
    (same : ∀ s e next, step s e = some next → (cond s e ↔ cond' s e)) (s : σ) (es : List ε) :
    Meets step cond s es ↔ Meets step cond' s es := by
  induction es generalizing s with
  | nil => exact Iff.rfl
  | cons e es ih =>
    constructor
    · intro meets next stepped
      obtain ⟨met,later⟩ := meets next stepped
      exact ⟨(same s e next stepped).mp met,(ih next).mp later⟩
    · intro meets next stepped
      obtain ⟨met,later⟩ := meets next stepped
      exact ⟨(same s e next stepped).mpr met,(ih next).mpr later⟩

theorem always_start {good : σ → Prop} {s : σ} {es : List ε} (always : Always step good s es) : good s := by
  cases es with
  | nil => exact always
  | cons e es => exact always.1

theorem always_of_invariant {cond : σ → ε → Prop} {inv good : σ → Prop}
    (keeps : ∀ s e next, inv s → cond s e → step s e = some next → inv next)
    (implies : ∀ s, inv s → good s) {s : σ} {es : List ε} (start : inv s)
    (meets : Meets step cond s es) : Always step good s es := by
  induction es generalizing s with
  | nil => exact implies s start
  | cons e es ih =>
    refine ⟨implies s start, fun next stepped => ?_⟩
    obtain ⟨met, later⟩ := meets next stepped
    exact ih (keeps s e next start met stepped) later

theorem run_invariant {inv : σ → Prop} (keeps : ∀ s e next, inv s → step s e = some next → inv next) {s t : σ}
    {es : List ε} (start : inv s) (reached : run step s es = some t) : inv t := by
  induction es generalizing s with
  | nil =>
    cases reached
    exact start
  | cons e es ih =>
    obtain ⟨next, stepped, rest⟩ := (run_cons_eq s t e es).mp reached
    exact ih (keeps s e next start stepped) rest

/-- Where each step keeps the property exactly when it meets the condition, a run has the
property throughout exactly when all its steps meet the condition. -/
theorem always_iff_meets {cond : σ → ε → Prop} {inv good : σ → Prop}
    (keeps : ∀ s e next, inv s → step s e = some next → inv next)
    (exact_step : ∀ s e next, inv s → good s → step s e = some next → (good next ↔ cond s e))
    {s : σ} {es : List ε} (start : inv s) (first : good s) :
    Always step good s es ↔ Meets step cond s es := by
  induction es generalizing s with
  | nil => exact ⟨fun _ => trivial, fun _ => first⟩
  | cons e es ih =>
    constructor
    · intro always next stepped
      have later := always.2 next stepped
      have held := always_start later
      exact ⟨(exact_step s e next start first stepped).mp held,
        (ih (keeps s e next start stepped) held).mp later⟩
    · intro meets
      refine ⟨first, fun next stepped => ?_⟩
      obtain ⟨met, later⟩ := meets next stepped
      have held := (exact_step s e next start first stepped).mpr met
      exact (ih (keeps s e next start stepped) held).mpr later

/-- A property holds throughout a run exactly when it holds at the end of each of its beginnings. -/
theorem always_beginnings {good : σ → Prop} {s : σ} {es : List ε} :
    Always step good s es ↔ ∀ begun, begun <+: es → ∀ t, run step s begun = some t → good t := by
  induction es generalizing s with
  | nil =>
    constructor
    · intro holds begun cut t reached
      rw [List.prefix_nil.mp cut, run_nil] at reached
      cases reached
      exact holds
    · exact fun ends => ends [] List.prefix_rfl s rfl
  | cons e es ih =>
    constructor
    · intro always begun cut t reached
      cases begun with
      | nil =>
        cases reached
        exact always.1
      | cons first begun =>
        obtain ⟨same, shorter⟩ := List.cons_prefix_cons.mp cut
        subst same
        obtain ⟨next, stepped, rest⟩ := (run_cons_eq s t first begun).mp reached
        exact ih.mp (always.2 next stepped) begun shorter t rest
    · intro ends
      refine ⟨ends [] List.nil_prefix s rfl, fun next stepped => ih.mpr fun begun cut t reached => ?_⟩
      exact ends (e :: begun) (List.cons_prefix_cons.mpr ⟨rfl, cut⟩) t ((run_cons_eq s t e begun).mpr ⟨next, stepped, reached⟩)

/-- A condition on a view of the state, where the view of the next state follows from that of the last. -/
theorem meets_view {τ : Type} {view : σ → τ} {viewed : τ → ε → τ} {cond : τ → ε → Prop}
    (follows : ∀ s e next, step s e = some next → view next = viewed (view s) e)
    (possible : ∀ s e, (step s e).isSome) (s : σ) (es : List ε) :
    Meets step (fun s e => cond (view s) e) s es ↔ Meets (fun t e => some (viewed t e)) cond (view s) es := by
  induction es generalizing s with
  | nil => exact Iff.rfl
  | cons e es ih =>
    obtain ⟨next, stepped⟩ := Option.isSome_iff_exists.mp (possible s e)
    have same := follows s e next stepped
    constructor
    · intro meets t viewed
      cases viewed
      obtain ⟨met, later⟩ := meets next stepped
      rw [← same]
      exact ⟨met, (ih next).mp later⟩
    · intro meets other taken
      cases (stepped.symm.trans taken)
      obtain ⟨met, later⟩ := meets _ rfl
      rw [← same] at later
      exact ⟨met, (ih next).mpr later⟩

end

end PulseFirmware.Run
