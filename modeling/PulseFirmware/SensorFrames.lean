import PulseFirmware.SensorReports

/-! What a call of `sensors_task_fn` leaves alone: the fields that it does not write, the statics of the
one-wire probes, and the counters of the air sensors. -/
namespace PulseFirmware.Sensors
open PulseFirmware.CString SensorField Struct

def Event.reading : Event → Option (Place × Bytes 9)
  | .sltc11 scratch => some (.sltc11,scratch)
  | .lltc11 scratch => some (.lltc11,scratch)
  | .sltc21 scratch => some (.sltc21,scratch)
  | .lltc21 scratch => some (.lltc21,scratch)
  | .sltc31 scratch => some (.sltc31,scratch)
  | .lltc31 scratch => some (.lltc31,scratch)
  | .sltc41 scratch => some (.sltc41,scratch)
  | .lltc41 scratch => some (.lltc41,scratch)
  | _ => none

def Event.air : Event → Option SensorField
  | .temp .port2 _ => some oadb10
  | .temp .port4 _ => some radb10
  | .temp .port6 _ => some sadb10
  | .hum .port2 _ => some oarh10
  | .hum .port4 _ => some rarh10
  | .hum .port6 _ => some sarh10
  | _ => none

def Event.writes (e : Event) : List SensorField :=
  match e with
  | .sltc11 _ => [.sltc11]
  | .lltc11 _ => [.lltc11]
  | .sltc21 _ => [.sltc21]
  | .lltc21 _ => [.lltc21]
  | .sltc31 _ => [.sltc31]
  | .lltc31 _ => [.lltc31]
  | .sltc41 _ => [.sltc41]
  | .lltc41 _ => [.lltc41]
  | .thermostat .. => [wire1_orange,wire2_white,wire3_yellow]
  | .energy _ => powerFactor :: activeWatts :: phases
  | .temp .. | .hum .. => e.air.toList
  | .update => phases
  | .saadc _ => [spc11,llpc11,spc21,llpc21,spc31,llpc31,spc41,llpc41]
  | .config _ | .reset _ => []

section
variable {V : Type} {φ : Formulas V}

theorem assign_apart (b : Board V) (structs : List Struct) {f g : SensorField} (apart : g ≠ f) (v : V) (k : Struct) :
    (b.assign structs f v).sensors k g = b.sensors k g := if_neg fun both => apart both.2

def Spared (g : SensorField) (b b' : Board V) : Prop := ∀ k : Struct, b'.sensors k g = b.sensors k g

theorem Spared.assign {g f : SensorField} {b b' : Board V} (spared : Spared g b b') (structs : List Struct) (apart : g ≠ f)
    (v : V) : Spared g b (b'.assign structs f v) := fun k => (assign_apart b' structs apart v k).trans (spared k)

private theorem readTemperature_spared {g f : SensorField} (apart : g ≠ f) (structs : List Struct) (place : Place)
    (scratch : Bytes 9) (b : Board V) : Spared g b (readTemperature φ structs f place scratch b) := by
  have start : Spared g b b := fun _ => rfl
  unfold readTemperature
  dsimp only
  split
  next => exact start.assign structs apart _
  next =>
    split
    next => exact start.assign structs apart _
    next => exact start

private theorem wire_spared {g f : SensorField} {b b' : Board V} (spared : Spared g b b') (apart : g ≠ f) (pin : Pin) :
    Spared g b (wire φ f pin b') := by
  unfold wire
  split
  next => exact spared.assign _ apart _
  next => split <;> exact spared.assign _ apart _

private theorem pressure_spared {g f : SensorField} {b b' : Board V} (spared : Spared g b b') (structs : List Struct)
    (apart : g ≠ f) (p : V) : Spared g b (pressure φ structs f p b') := by
  unfold pressure
  split
  next => exact spared.assign _ apart _
  next => exact spared

theorem readSensorData_spared {g f : SensorField} (apart : g ≠ f) (formula : Nat → V) (rx : Option Transfer) (b : Board V) :
    Spared g b (readSensorData φ f formula rx b) := by
  have start : Spared g b b := fun _ => rfl
  unfold readSensorData
  cases rx with
  | none => exact start
  | some t =>
    dsimp only
    split
    next =>
      split
      next => exact start.assign _ apart _
      next => exact start
    next => exact start.assign _ apart _

private theorem bleSensorsUpdate_spared {g : SensorField} (apart : g ∉ phases) (b : Board V) :
    Spared g b (bleSensorsUpdate φ b) := by
  intro k
  unfold bleSensorsUpdate
  split
  next => rfl
  next =>
    split
    next => rfl
    next struct nulls found =>
      obtain ⟨branch,here,same⟩ := Option.map_eq_some_iff.mp found
      have phase := nulls_phases branch (List.mem_of_find?_eq_some here) g
      rw [same] at phase
      exact (assigns_sensors struct φ.null nulls b k g).trans (if_neg fun both => apart (phase both.2))

/-- A field that a call does not write stays. -/
theorem step_spared {e : Event} {g : SensorField} (outside : g ∉ e.writes) (b : Board V) : Spared g b (b.step φ e) := by
  have start : Spared g b b := fun _ => rfl
  cases e with
  | sltc11 scratch | lltc11 scratch | sltc21 scratch | lltc21 scratch | sltc31 scratch | lltc31 scratch | sltc41 scratch
  | lltc41 scratch => exact readTemperature_spared (List.ne_of_not_mem_cons outside) _ _ scratch b
  | thermostat orange white yellow =>
    simp only [Event.writes, List.mem_cons, List.not_mem_nil, or_false, not_or] at outside
    exact wire_spared (wire_spared (wire_spared start outside.1 _) outside.2.1 _) outside.2.2 _
  | energy meter =>
    simp only [Event.writes, phases, List.mem_cons, List.not_mem_nil, or_false, not_or] at outside
    obtain ⟨pf,watts,u1,u2,u3,i1,i2,i3⟩ := outside
    exact (((((((start.assign _ u1 _).assign _ u2 _).assign _ u3 _).assign _ i1 _).assign _ i2 _).assign _ i3 _).assign
      _ pf _).assign _ watts _
  | temp port rx =>
    cases port <;> exact readSensorData_spared (List.ne_of_not_mem_cons outside) _ rx b
  | hum port rx =>
    cases port <;> exact readSensorData_spared (List.ne_of_not_mem_cons outside) _ rx b
  | update => exact bleSensorsUpdate_spared outside b
  | saadc adc =>
    simp only [Event.writes, List.mem_cons, List.not_mem_nil, or_false, not_or] at outside
    obtain ⟨s1,l1,s2,l2,s3,l3,s4,l4⟩ := outside
    change Spared g b (saadcCallback φ adc b)
    unfold saadcCallback
    dsimp only
    exact pressure_spared (pressure_spared (pressure_spared (pressure_spared (pressure_spared (pressure_spared
      (pressure_spared (pressure_spared start _ s1 _) _ l1 _) _ s2 _) _ l2 _) _ s3 _) _ l3 _) _ s4 _) _ l4 _
  | config | reset => exact start

def Still (b b' : Board V) : Prop := b'.probe = b.probe ∧ b'.badCount = b.badCount

private theorem wire_still {b b' : Board V} (still : Still b b') (f : SensorField) (pin : Pin) : Still b (wire φ f pin b') := by
  unfold wire
  split
  next => exact still
  next => split <;> exact still

private theorem pressure_still {b b' : Board V} (still : Still b b') (structs : List Struct) (f : SensorField) (p : V) :
    Still b (pressure φ structs f p b') := by
  unfold pressure
  split <;> exact still

private theorem bleSensorsUpdate_still (b : Board V) : Still b (bleSensorsUpdate φ b) := by
  have assigns (struct : Struct) (nulls : List SensorField) (b : Board V) :
      Still b (nulls.foldl (fun b f => b.assign [struct] f φ.null) b) := by
    induction nulls generalizing b with
    | nil => exact ⟨rfl,rfl⟩
    | cons f nulls ih => exact ih (b.assign [struct] f φ.null)
  unfold bleSensorsUpdate
  split
  next => exact ⟨rfl,rfl⟩
  next =>
    split
    next => exact ⟨rfl,rfl⟩
    next struct nulls _ => exact assigns struct nulls b

/-- Only the sensors on a line or in the air have statics. -/
theorem step_still {e : Event} (noReading : e.reading = none) (noAir : e.air = none) (b : Board V) : Still b (b.step φ e) := by
  have start : Still b b := ⟨rfl,rfl⟩
  cases e with
  | sltc11 | lltc11 | sltc21 | lltc21 | sltc31 | lltc31 | sltc41 | lltc41 => contradiction
  | temp port rx => cases port <;> contradiction
  | hum port rx => cases port <;> contradiction
  | thermostat => exact wire_still (wire_still (wire_still start _ _) _ _) _ _
  | energy => exact start
  | update => exact bleSensorsUpdate_still b
  | saadc adc =>
    change Still b (saadcCallback φ adc b)
    unfold saadcCallback
    dsimp only
    iterate 8 refine pressure_still ?_ _ _ _
    exact start
  | config | reset => exact start

theorem readTemperature_badCount (structs : List Struct) (f : SensorField) (place : Place) (scratch : Bytes 9) (b : Board V) :
    (readTemperature φ structs f place scratch b).badCount = b.badCount := by
  unfold readTemperature
  dsimp only
  split
  next => rfl
  next => split <;> rfl

theorem readSensorData_probe (f : SensorField) (formula : Nat → V) (rx : Option Transfer) (b : Board V) :
    (readSensorData φ f formula rx b).probe = b.probe := by
  unfold readSensorData
  cases rx with
  | none => rfl
  | some t =>
    dsimp only
    split
    next => split <;> rfl
    next => rfl

theorem step_badCount {e : Event} (noAir : e.air = none) (b : Board V) : (b.step φ e).badCount = b.badCount := by
  cases reads : e.reading with
  | none => exact (step_still reads noAir b).2
  | some reading => cases e <;> cases reads <;> exact readTemperature_badCount ..

theorem step_probe {e : Event} (noReading : e.reading = none) (b : Board V) : (b.step φ e).probe = b.probe := by
  cases air : e.air with
  | none => exact (step_still noReading air b).1
  | some f =>
    cases e with
    | temp port rx => cases port <;> exact readSensorData_probe ..
    | hum port rx => cases port <;> exact readSensorData_probe ..
    | _ => contradiction

end

end PulseFirmware.Sensors
