import Mathlib.Data.List.DropRight
import PulseFirmware.AirSensors

/-! When a sensor for the air is reported as missing. Timeouts and bad values are counted; a call that
the driver refuses returns before that. -/
namespace PulseFirmware.Sensors
open PulseFirmware.CString SensorField Struct

def Rx.good : Rx → Bool
  | .delivered t => !t.bad
  | .error | .timeout => false

def Rx.counted : Rx → Bool
  | .error => false
  | .delivered _ | .timeout => true

def outcomes (q : Quantity) (port : Port) (acts : List Act) : List Rx :=
  acts.filterMap fun act =>
    match act with
    | .read a => if a.field = airField q port then some a.rx else none
    | .other .. => none

def failures (q : Quantity) (port : Port) (acts : List Act) : List Rx :=
  (outcomes q port acts).rtakeWhile fun rx => !rx.good

/-- A series of 501 failures has 501 that the driver accepted. -/
def Counted (series : List Rx) : Prop := 501 ≤ series.length → 501 ≤ series.countP Rx.counted

instance (series : List Rx) : Decidable (Counted series) := inferInstanceAs (Decidable (_ → _))

section
variable {V : Type} (φ : Formulas V)

/-- No value that is converted, and not the first one either, is the mark. -/
def Formulas.Apart : Prop := φ.zero ≠ φ.null ∧ ∀ q n, φ.air q n ≠ φ.null

/-- What is asked of a sensor for the air after a history. -/
structure Reported (configString1 : Bytes 240) (acts : List Act) (q : Quantity) (port : Port) : Prop where
  marked : 501 ≤ (failures q port acts).length →
    ∀ k : Struct, ((Bus.init φ configString1).run φ acts).board.sensors k (airField q port) = φ.null
  published : ∀ t : Transfer, t.bad = false → ∀ k : Struct,
    ((Bus.init φ configString1).run φ (acts ++ [.read ⟨q,port,.delivered t⟩])).board.sensors k (airField q port) = φ.air q t.raw
  bounded : ((Bus.init φ configString1).run φ acts).board.badCount (airField q port) ≤ 500
  own : ∀ act : Act, act.field ≠ some (airField q port) →
    ((Bus.init φ configString1).run φ (acts ++ [act])).board.badCount (airField q port) =
      ((Bus.init φ configString1).run φ acts).board.badCount (airField q port)

structure Board.Counts (b : Board V) (f : SensorField) (n : Nat) : Prop where
  bounded : b.badCount f ≤ 500
  counted : n ≤ 500 → b.badCount f = n
  marked : 500 < n → ∀ k : Struct, b.sensors k f = φ.null
  unmarked : φ.Apart → n ≤ 500 → ∀ k : Struct, b.sensors k f ≠ φ.null

variable {φ}

private theorem failures_apart {q : Quantity} {port : Port} {acts : List Act} {act : Act}
    (apart : act.field ≠ some (airField q port)) : failures q port (acts ++ [act]) = failures q port acts := by
  have none : outcomes q port [act] = [] := by
    cases act with
    | other e elsewhere => rfl
    | read a =>
      have other : ¬ a.field = airField q port := fun same => apart (congrArg some same)
      simp [outcomes, other]
  rw [failures, outcomes, List.filterMap_append]
  change (outcomes q port acts ++ outcomes q port [act]).rtakeWhile _ = _
  rw [none, List.append_nil]
  rfl

private theorem failures_read (q : Quantity) (port : Port) (acts : List Act) (rx : Rx) :
    failures q port (acts ++ [.read ⟨q,port,rx⟩]) = if rx.good then [] else failures q port acts ++ [rx] := by
  have single : outcomes q port [.read ⟨q,port,rx⟩] = [rx] := by simp [outcomes, Acquisition.field]
  rw [failures, outcomes, List.filterMap_append]
  change (outcomes q port acts ++ outcomes q port [.read ⟨q,port,rx⟩]).rtakeWhile _ = _
  rw [single]
  by_cases good : rx.good = true
  · rw [if_pos good]
    exact List.rtakeWhile_concat_neg _ _ _ (by simp [good])
  · rw [if_neg good]
    exact List.rtakeWhile_concat_pos _ _ _ (by simp [good])

private theorem Board.Counts.miss {b : Board V} {f : SensorField} {n : Nat} (counts : b.Counts φ f n) :
    (b.miss φ f).Counts φ f (n + 1) := by
  have bound := counts.bounded
  have same := counts.counted
  constructor
  · rw [miss_badCount]
    split <;> omega
  · intro few
    rw [miss_badCount, if_neg (by omega)]
    omega
  · intro many k
    rw [miss_sensors]
    split
    next => rfl
    next below => exact counts.marked (by omega) k
  · intro apart few k
    rw [miss_sensors, if_neg (by omega)]
    exact counts.unmarked apart (by omega) k

private theorem Board.Counts.publish (b : Board V) (f : SensorField) (q : Quantity) (raw : Nat) :
    (b.publish f (φ.air q raw)).Counts φ f 0 := by
  have count : (b.publish f (φ.air q raw)).badCount f = 0 := Function.update_self ..
  constructor
  · rw [count]
    exact Nat.zero_le _
  · exact fun _ => count
  · exact fun many => absurd many (Nat.not_lt_zero _)
  · intro apart _ k
    rw [publish_sensors]
    exact apart.2 q raw

private theorem Board.Counts.same {b b' : Board V} {f : SensorField} {n : Nat} (counts : b.Counts φ f n)
    (fields : ∀ k, b'.sensors k f = b.sensors k f) (count : b'.badCount f = b.badCount f) : b'.Counts φ f n :=
  ⟨count ▸ counts.bounded,count ▸ counts.counted,fun many k => (fields k).trans (counts.marked many k),
    fun apart few k null => counts.unmarked apart few k ((fields k).symm.trans null)⟩

theorem run_counts (φ : Formulas V) (configString1 : Bytes 240) (acts : List Act) (q : Quantity) (port : Port) :
    ((Bus.init φ configString1).run φ acts).board.Counts φ (airField q port) ((failures q port acts).countP Rx.counted) := by
  induction acts using List.reverseRecOn with
  | nil =>
    exact ⟨Nat.zero_le _,fun _ => rfl,fun many => absurd many (Nat.not_lt_zero _),fun apart _ _ => apart.1⟩
  | append_singleton acts act ih =>
    rw [run_act]
    by_cases mine : act.field = some (airField q port)
    · cases act with
      | other e elsewhere => contradiction
      | read a =>
        obtain ⟨q',port',rx⟩ := a
        obtain ⟨rfl,rfl⟩ := airField_injective (Option.some.inj mine)
        change (Bus.read φ _ ⟨q',port',rx⟩).board.Counts φ _ _
        rw [read_board (run_stale φ configString1 acts), failures_read]
        cases rx with
        | error =>
          rw [if_neg (by decide), List.countP_append]
          exact ih
        | timeout =>
          rw [if_neg (by decide), List.countP_append]
          exact ih.miss
        | delivered t =>
          dsimp only
          by_cases bad : t.bad = true
          · rw [if_pos bad, if_neg (by simp [Rx.good, bad]), List.countP_append]
            exact ih.miss
          · rw [if_neg bad, if_pos (by simp [Rx.good, bad])]
            exact Board.Counts.publish _ _ _ _
    · obtain ⟨fields,count⟩ := step_apart ((Bus.init φ configString1).run φ acts) mine
      rw [failures_apart mine]
      exact ih.same fields count

private theorem good_published (φ : Formulas V) (configString1 : Bytes 240) (acts : List Act) (q : Quantity) (port : Port)
    {t : Transfer} (good : t.bad = false) (k : Struct) :
    ((Bus.init φ configString1).run φ (acts ++ [.read ⟨q,port,.delivered t⟩])).board.sensors k (airField q port) =
      φ.air q t.raw := by
  rw [run_act]
  change (Bus.read φ _ ⟨q,port,.delivered t⟩).board.sensors k _ = _
  rw [read_board (run_stale φ configString1 acts)]
  dsimp only
  rw [if_neg (by simp [good])]
  exact publish_sensors ..

/-- After any history a sensor for the air is reported as it should be if 501 of a series of failures were
accepted by the driver, and only then. -/
theorem dead_sensor (φ : Formulas V) (configString1 : Bytes 240) (acts : List Act) (q : Quantity) (port : Port) :
    (Counted (failures q port acts) → Reported φ configString1 acts q port) ∧
      (φ.Apart → Reported φ configString1 acts q port → Counted (failures q port acts)) := by
  have counts := run_counts φ configString1 acts q port
  constructor
  · intro counted
    refine ⟨fun many => counts.marked (counted many),fun t good k => ?_,counts.bounded,fun act apart => ?_⟩
    · exact good_published φ configString1 acts q port good k
    · rw [run_act]
      exact (step_apart _ apart).2
  · intro apart reported many
    by_contra few
    exact counts.unmarked apart (by omega) state1 (reported.marked many state1)

theorem dead_sensor_silent :
    let φ : Formulas Int := ⟨0,1,-514,fun _ => false,fun _ _ => 0,fun raw => raw,fun raw => raw,fun p => p,fun p => p,
      fun n => n,fun n => n,fun n => n,fun n => n⟩
    ∀ k : Struct, ((Bus.init φ (zeros 240)).run φ (List.replicate 501 (.read ⟨.hum,.port6,.timeout⟩))).board.sensors k
      (airField .hum .port6) = -514 := by
  intro φ
  have counted : Counted (failures .hum .port6 (List.replicate 501 (.read ⟨.hum,.port6,.timeout⟩))) := by decide +kernel
  obtain ⟨reports,_⟩ := dead_sensor φ (zeros 240) (List.replicate 501 (.read ⟨.hum,.port6,.timeout⟩)) .hum .port6
  exact (reports counted).marked (by decide +kernel)

/-- After one good value the driver refuses 501 calls, and the value is still there. -/
theorem dead_sensor_refused :
    let φ : Formulas Int := ⟨0,1,-514,fun _ => false,fun _ _ => 0,fun raw => raw,fun raw => raw,fun p => p,fun p => p,
      fun n => n,fun n => n,fun n => n,fun n => n⟩
    let acts : List Act := .read ⟨.temp,.port2,.delivered ⟨0x68,0x3A,0x7C⟩⟩ :: List.replicate 501 (.read ⟨.temp,.port2,.error⟩)
    ((Bus.init φ (zeros 240)).run φ acts).board.sensors state1 oadb10 = 0x683A ∧
      ¬ Reported φ (zeros 240) acts .temp .port2 := by
  intro φ acts
  have old : ((Bus.init φ (zeros 240)).run φ acts).board.sensors state1 oadb10 = 0x683A := by decide +kernel
  refine ⟨old,fun reported => ?_⟩
  have null := reported.marked (by decide +kernel) state1
  rw [airField, old] at null
  exact absurd null (by decide)

end

end PulseFirmware.Sensors
