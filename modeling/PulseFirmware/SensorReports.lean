import Mathlib.Data.List.Find
import PulseFirmware.Sensors

/-! The notification over BLE and the HTTP body report the same readings: each structure agrees with
`sensors_state4` but for the phases that one of them set to NULL, and a cycle ends that. -/
namespace PulseFirmware.Sensors
open PulseFirmware.CString SensorField Struct

def circuitFields : Nat → List SensorField
  | 1 => [spc11,llpc11,sltc11,lltc11]
  | 2 => [spc21,llpc21,sltc21,lltc21]
  | 3 => [spc31,llpc31,sltc31,lltc31]
  | 4 => [spc41,llpc41,sltc41,lltc41]
  | _ => []

def phaseFields : Nat → List SensorField
  | 1 => [uUei1,iUei1]
  | 2 => [uUei2,iUei2]
  | 3 => [uUei3,iUei3]
  | _ => []

def commonFields : List SensorField :=
  [rarh10,radb10,sarh10,sadb10,oarh10,oadb10,wire1_orange,wire2_white,wire3_yellow,powerFactor,activeWatts]

def phases : List SensorField := [uUei1,uUei2,uUei3,iUei1,iUei2,iUei3]

namespace Config

def phaseCount (c : Config) : Nat := if c.phase = 3 then 3 else if c.voltage = 120 then 1 else 2

/-- The fields to report: the common ones, circuits 1 to N and the phases. -/
def shown (c : Config) : List SensorField :=
  commonFields ++ (List.range c.circuit).flatMap (fun n => circuitFields (n + 1)) ++
    (List.range c.phaseCount).flatMap fun n => phaseFields (n + 1)

def struct (c : Config) : Struct :=
  match c.circuit with
  | 1 => state1
  | 2 => state2
  | 3 => state3
  | _ => state4

end Config

section
variable {V : Type} {φ : Formulas V}

/-- The body has the fields of the configuration, each as it is in the notification, in which the
other phases are NULL. -/
structure Board.Reports (φ : Formulas V) (b : Board V) (c : Config) : Prop where
  body : ∃ lines : List Line, (lines.map Prod.snd).Perm c.shown ∧
    httpBody b = some (lines.map fun (label,f) => (label,b.sensors state4 f))
  notified : ∃ state, b.notified = some (c.struct,state) ∧
    (∀ f ∈ c.shown, f ∈ c.struct.fields ∧ b.sensors state4 f = state f) ∧
    ∀ f ∈ phases, f ∉ c.shown → f ∈ c.struct.fields ∧ state f = φ.null

def Board.Agrees (b : Board V) (f : SensorField) : Prop := ∀ k : Struct, f ∈ k.fields → b.sensors k f = b.sensors state4 f

theorem all_state4 (f : SensorField) : f ∈ state4.fields := by cases f <;> decide

theorem Board.assign_agrees {b : Board V} {structs : List Struct} {f : SensorField} {v : V} (covers : ∀ k : Struct, f ∈ k.fields → k ∈ structs)
    {g : SensorField} (before : g ≠ f → b.Agrees g) : (b.assign structs f v).Agrees g := by
  intro k has
  by_cases same : g = f
  · subst same
    change (if k ∈ structs ∧ g = g then v else _) = if state4 ∈ structs ∧ g = g then v else _
    rw [if_pos ⟨covers k has,rfl⟩, if_pos ⟨covers state4 (all_state4 g),rfl⟩]
  · change (if k ∈ structs ∧ g = f then v else _) = if state4 ∈ structs ∧ g = f then v else _
    rw [if_neg (fun both => same both.2), if_neg (fun both => same both.2)]
    exact before same k has

theorem readTemperature_agrees {b : Board V} {structs : List Struct} {f : SensorField} (place : Place) (scratch : Bytes 9)
    (covers : ∀ k : Struct, f ∈ k.fields → k ∈ structs) {g : SensorField} (before : b.Agrees g) :
    (readTemperature φ structs f place scratch b).Agrees g := by
  unfold readTemperature
  dsimp only
  split
  next => exact Board.assign_agrees covers fun _ => before
  next =>
    split
    next => exact Board.assign_agrees covers fun _ => before
    next => exact before

theorem wire_agrees {b : Board V} (f : SensorField) (pin : Pin) {g : SensorField} (before : b.Agrees g) : (wire φ f pin b).Agrees g := by
  have covers (k : Struct) (_ : f ∈ k.fields) : k ∈ [state1,state2,state3,state4] := by cases k <;> decide
  unfold wire
  split
  next => exact Board.assign_agrees covers fun _ => before
  next =>
    split
    next => exact Board.assign_agrees covers fun _ => before
    next => exact Board.assign_agrees covers fun _ => before

theorem pressure_agrees {b : Board V} {structs : List Struct} {f : SensorField} (p : V)
    (covers : ∀ k : Struct, f ∈ k.fields → k ∈ structs) {g : SensorField} (before : b.Agrees g) :
    (pressure φ structs f p b).Agrees g := by
  unfold pressure
  split
  next => exact Board.assign_agrees covers fun _ => before
  next => exact before

theorem readSensorData_agrees {b : Board V} (f : SensorField) (formula : Nat → V) (rx : Option Transfer) {g : SensorField}
    (before : b.Agrees g) : (readSensorData φ f formula rx b).Agrees g := by
  have covers (k : Struct) (_ : f ∈ k.fields) : k ∈ [state1,state2,state3,state4] := by cases k <;> decide
  unfold readSensorData
  cases rx with
  | none => exact before
  | some t =>
    dsimp only
    split
    next =>
      split
      next => exact Board.assign_agrees covers fun _ => before
      next => exact before
    next => exact Board.assign_agrees covers fun _ => before

theorem saadcCallback_agrees {b : Board V} (adc : Samples) {g : SensorField} (before : b.Agrees g) :
    (saadcCallback φ adc b).Agrees g := by
  unfold saadcCallback
  iterate 8 refine pressure_agrees _ (by intro k; cases k <;> decide) ?_
  exact before

theorem energyMeasurement_agrees {b : Board V} (m : Meter) {g : SensorField} (before : g ∉ phases → b.Agrees g) :
    (energyMeasurement φ m b).Agrees g := by
  have covers (f : SensorField) (k : Struct) (_ : f ∈ k.fields) : k ∈ [state1,state2,state3,state4] := by cases k <;> decide
  unfold energyMeasurement
  dsimp only
  refine Board.assign_agrees (covers _) fun _ => Board.assign_agrees (covers _) fun _ => ?_
  refine Board.assign_agrees (covers _) fun h1 => Board.assign_agrees (covers _) fun h2 => ?_
  refine Board.assign_agrees (covers _) fun h3 => Board.assign_agrees (covers _) fun h4 => ?_
  refine Board.assign_agrees (covers _) fun h5 => Board.assign_agrees (covers _) fun h6 => ?_
  exact before (by simp [phases, h1, h2, h3, h4, h5, h6])

/-- The configurations that occur in the comparisons. -/
def known : List Config := bleBranches.flatMap Prod.fst

def Config.nulls (c : Config) : List SensorField :=
  if c.phaseCount = 1 then [uUei2,uUei3,iUei2,iUei3] else if c.phaseCount = 2 then [uUei3,iUei3] else []

def digits (n : Nat) : List UInt8 := ascii (toString n)

theorem text_eq (c : Config) : ascii c.text =
    ascii "config[circuit:" ++ digits c.circuit ++ ascii ",phase:" ++ digits c.phase ++ ascii ",voltage:" ++
      digits c.voltage ++ ascii ",frequen:" ++ digits c.frequen ++ ascii "]" := by
  unfold Config.text
  repeat rw [ascii_append]
  rfl

theorem known_lengths : ∀ c ∈ known,
    (digits c.circuit).length = 1 ∧ (digits c.phase).length = 1 ∧ (digits c.voltage).length = 3 := by decide +kernel

theorem known_digits : (known.map fun c => (digits c.circuit,digits c.phase,digits c.voltage,digits c.frequen)).Nodup := by
  decide +kernel

theorem known_texts {c c' : Config} (member : c ∈ known) (member' : c' ∈ known) (same : ascii c.text = ascii c'.text) :
    c = c' := by
  obtain ⟨circuit,phase,voltage⟩ := known_lengths c member
  obtain ⟨circuit',phase',voltage'⟩ := known_lengths c' member'
  refine List.inj_on_of_nodup_map known_digits member member' ?_
  simp only [text_eq, List.append_assoc, List.append_cancel_left_eq] at same
  obtain ⟨circuits,same⟩ := List.append_inj same (circuit.trans circuit'.symm)
  obtain ⟨phases,same⟩ := List.append_inj (List.append_cancel_left same) (phase.trans phase'.symm)
  obtain ⟨voltages,same⟩ := List.append_inj (List.append_cancel_left same) (voltage.trans voltage'.symm)
  have frequens := List.append_cancel_right (List.append_cancel_left same)
  simp only [circuits, phases, voltages, frequens]

theorem known_printable : ∀ c ∈ known, 0 ∉ ascii c.text := by
  have labels : ∀ label ∈ ["config[circuit:",",phase:",",voltage:",",frequen:","]"], 0 ∉ ascii label := by decide +kernel
  have numbers : ∀ c ∈ known, 0 ∉ digits c.circuit ∧ 0 ∉ digits c.phase ∧ 0 ∉ digits c.voltage ∧ 0 ∉ digits c.frequen := by
    decide +kernel
  intro c member
  simp only [List.forall_mem_cons, List.not_mem_nil, false_implies, implies_true, and_true] at labels
  simp only [text_eq, List.mem_append, labels, numbers c member, or_self, not_false_eq_true]

theorem http_known : httpBranches.flatMap Prod.fst = known := by decide +kernel

def branchOf {α : Type} (branches : List (List Config × α)) (c : Config) : Option α :=
  (branches.find? fun branch => branch.1.contains c).map Prod.snd

/-- What the two chains hold of a configuration that occurs in them. -/
structure Config.Listed (c : Config) : Prop where
  ble : branchOf bleBranches c = some (c.struct,c.nulls)
  http : ((branchOf httpBranches c).any fun parts => decide ((parts.flatten.map Prod.snd).Perm c.shown)) = true
  shown : ∀ f ∈ c.shown, f ∈ c.struct.fields ∧ f ∉ c.nulls
  hidden : ∀ f ∈ phases, f ∉ c.shown → f ∈ c.struct.fields ∧ f ∈ c.nulls

theorem known_listed {c : Config} (member : c ∈ known) : c.Listed := by
  have listed : ∀ c ∈ known, branchOf bleBranches c = some (c.struct,c.nulls) ∧
      ((branchOf httpBranches c).any fun parts => decide ((parts.flatten.map Prod.snd).Perm c.shown)) = true ∧
      (∀ f ∈ c.shown, f ∈ c.struct.fields ∧ f ∉ c.nulls) ∧
      ∀ f ∈ phases, f ∉ c.shown → f ∈ c.struct.fields ∧ f ∈ c.nulls := by decide +kernel
  obtain ⟨ble,http,shown,hidden⟩ := listed c member
  exact ⟨ble,http,shown,hidden⟩

theorem nulls_phases : ∀ branch ∈ bleBranches, ∀ f ∈ branch.2.2, f ∈ phases := by decide +kernel

theorem compared_single {configString1 : Bytes 240} {c : Config} (member : c ∈ known) :
    compared configString1 [c] = true ↔ literal c.text <+: configString1.toList := by
  simp only [compared, List.any_cons, List.any_nil, Bool.or_false]
  exact strcmpEq_terminated (known_printable c member) _

theorem compared_unique {configString1 : Bytes 240} {c c' : Config} (member : c ∈ known) (member' : c' ∈ known)
    (equal : compared configString1 [c] = true) (equal' : compared configString1 [c'] = true) : c' = c := by
  obtain ⟨rest,whole⟩ := (compared_single member).mp equal
  obtain ⟨rest',whole'⟩ := (compared_single member').mp equal'
  have first := chars_append_zero _ rest (known_printable c member)
  have second := chars_append_zero _ rest' (known_printable c' member')
  rw [List.append_cons, show ascii c.text ++ [0] = literal c.text from rfl, whole] at first
  rw [List.append_cons, show ascii c'.text ++ [0] = literal c'.text from rfl, whole'] at second
  exact known_texts member' member (second.symm.trans first)

theorem compared_iff {configString1 : Bytes 240} {configs : List Config} :
    compared configString1 configs = true ↔ ∃ c ∈ configs, compared configString1 [c] = true := by
  simp [compared]

/-- The comparisons pick the branch of the configuration that the string is. -/
theorem chosen_eq {α : Type} {branches : List (List Config × α)} (inside : branches.flatMap Prod.fst = known)
    {configString1 : Bytes 240} {c : Config} (member : c ∈ known) (equal : compared configString1 [c] = true) :
    chosen configString1 branches = branchOf branches c := by
  refine congrArg (Option.map Prod.snd) (List.find?_congr fun branch here => ?_)
  rw [Bool.eq_iff_iff, List.contains_iff_mem, compared_iff]
  constructor
  · rintro ⟨c',listed,equal'⟩
    have member' : c' ∈ known := by
      rw [← inside]
      exact List.mem_flatMap.mpr ⟨branch,here,listed⟩
    exact compared_unique member member' equal equal' ▸ listed
  · exact fun listed => ⟨c,listed,equal⟩

theorem chosen_isSome {α : Type} {branches : List (List Config × α)} (inside : branches.flatMap Prod.fst = known)
    (configString1 : Bytes 240) :
    (chosen configString1 branches).isSome = true ↔ ∃ c ∈ known, compared configString1 [c] = true := by
  rw [chosen, Option.isSome_map, List.find?_isSome, ← inside]
  constructor
  · rintro ⟨branch,here,matched⟩
    obtain ⟨c,listed,equal⟩ := compared_iff.mp matched
    exact ⟨c,List.mem_flatMap.mpr ⟨branch,here,listed⟩,equal⟩
  · rintro ⟨c,listed,equal⟩
    obtain ⟨branch,here,listed⟩ := List.mem_flatMap.mp listed
    exact ⟨branch,here,compared_iff.mpr ⟨c,listed,equal⟩⟩

theorem step_agrees {b : Board V} {e : Event} (e_ne : e ≠ .update) {g : SensorField} (before : b.Agrees g) : (b.step φ e).Agrees g := by
  cases e with
  | sltc11 | lltc11 | sltc21 | lltc21 | sltc31 | lltc31 | sltc41 | lltc41 =>
    exact readTemperature_agrees _ _ (by intro k; cases k <;> decide) before
  | thermostat orange white yellow => exact wire_agrees _ _ (wire_agrees _ _ (wire_agrees _ _ before))
  | energy meter => exact energyMeasurement_agrees meter fun _ => before
  | temp port rx => cases port <;> exact readSensorData_agrees _ _ rx before
  | hum port rx => cases port <;> exact readSensorData_agrees _ _ rx before
  | update => contradiction
  | saadc adc => exact saadcCallback_agrees adc before
  | config configString1 => exact before
  | reset resetPulse => exact before

theorem assigns_sensors (struct : Struct) (v : V) (nulls : List SensorField) (b : Board V) (k : Struct) (g : SensorField) :
    (nulls.foldl (fun b f => b.assign [struct] f v) b).sensors k g = if k = struct ∧ g ∈ nulls then v else b.sensors k g := by
  induction nulls generalizing b with
  | nil => simp
  | cons f nulls ih =>
    rw [List.foldl_cons, ih]
    simp only [Board.assign, List.mem_cons]
    grind

theorem assigns_config (struct : Struct) (v : V) (nulls : List SensorField) (b : Board V) :
    (nulls.foldl (fun b f => b.assign [struct] f v) b).configString1 = b.configString1 ∧
      (nulls.foldl (fun b f => b.assign [struct] f v) b).resetPulse = b.resetPulse := by
  induction nulls generalizing b with
  | nil => exact ⟨rfl,rfl⟩
  | cons f nulls ih => exact ih (b.assign [struct] f v)

theorem bleSensorsUpdate_config (φ : Formulas V) (b : Board V) :
    (bleSensorsUpdate φ b).configString1 = b.configString1 ∧ (bleSensorsUpdate φ b).resetPulse = b.resetPulse := by
  unfold bleSensorsUpdate
  split
  next => exact ⟨rfl,rfl⟩
  next =>
    split
    next => exact ⟨rfl,rfl⟩
    next struct nulls _ => exact assigns_config struct φ.null nulls b

theorem bleSensorsUpdate_agrees {b : Board V} {g : SensorField} (other : g ∉ phases) (before : b.Agrees g) :
    (bleSensorsUpdate φ b).Agrees g := by
  unfold bleSensorsUpdate
  split
  next => exact before
  next =>
    split
    next => exact before
    next struct nulls found =>
      have outside : g ∉ nulls := by
        obtain ⟨branch,here,same⟩ := Option.map_eq_some_iff.mp found
        have phase := nulls_phases branch (List.mem_of_find?_eq_some here) g
        rw [same] at phase
        exact fun inside => other (phase inside)
      intro k has
      have same := before k has
      simp only [assigns_sensors, outside, and_false, ↓reduceIte]
      exact same

theorem run_agrees {b : Board V} (events : List Event) {g : SensorField} (other : g ∉ phases) (before : b.Agrees g) :
    (b.run φ events).Agrees g := by
  induction events generalizing b with
  | nil => exact before
  | cons e events ih =>
    refine ih ?_
    by_cases update : e = .update
    · subst update
      exact bleSensorsUpdate_agrees other before
    · exact step_agrees update before

/-- A cycle measures the phases anew, after which nothing but the notification writes them. -/
theorem cycle_agrees {b : Board V} {cycle : List Event} (quiet : ∀ e ∈ cycle, e ≠ .update) {meter : Meter}
    (measured : .energy meter ∈ cycle) (before : ∀ g, g ∉ phases → b.Agrees g) (g : SensorField) : (b.run φ cycle).Agrees g := by
  obtain ⟨earlier,later,rfl⟩ := List.append_of_mem measured
  have kept (events : List Event) (still : ∀ e ∈ events, e ≠ .update) (b : Board V) (agrees : b.Agrees g) :
      (b.run φ events).Agrees g := by
    induction events generalizing b with
    | nil => exact agrees
    | cons e events ih =>
      exact ih (fun e inside => still e (List.mem_cons_of_mem _ inside)) _ (step_agrees (still e List.mem_cons_self) agrees)
  rw [Board.run, List.foldl_append, List.foldl_cons]
  refine kept later (fun e inside => quiet e (by simp [inside])) _ ?_
  exact energyMeasurement_agrees meter fun other => run_agrees earlier other (before g other)

theorem bleSensorsUpdate_eq {b : Board V} {c : Config} (member : c ∈ known) (equal : compared b.configString1 [c] = true)
    (going : strcmpEq b.resetPulse.toList (literal "reset_pulse!") = false) :
    let b' := c.nulls.foldl (fun b f => b.assign [c.struct] f φ.null) b
    bleSensorsUpdate φ b = { b' with notified := some (c.struct,b'.sensors c.struct) } := by
  have branch : chosen b.configString1 bleBranches = some (c.struct,c.nulls) :=
    (chosen_eq rfl member equal).trans (known_listed member).ble
  simp only [bleSensorsUpdate, going, Bool.false_eq_true, ↓reduceIte, branch]

theorem update_reports {b : Board V} {c : Config} (member : c ∈ known) (equal : compared b.configString1 [c] = true)
    (going : strcmpEq b.resetPulse.toList (literal "reset_pulse!") = false) (agrees : ∀ g, b.Agrees g) :
    (bleSensorsUpdate φ b).Reports φ c := by
  have listed := (known_listed member).http
  obtain ⟨parts,chosen_parts,same⟩ := (Option.any_eq_true _ _).mp listed
  rw [bleSensorsUpdate_eq member equal going]
  have kept := (assigns_config c.struct φ.null c.nulls b).1
  constructor
  · refine ⟨parts.flatten,of_decide_eq_true same,?_⟩
    change (chosen _ httpBranches).map _ = _
    rw [kept, chosen_eq http_known member equal, chosen_parts]
    rfl
  · refine ⟨_,rfl,fun f shown => ?_,fun f phase hidden => ?_⟩
    · obtain ⟨has,outside⟩ := (known_listed member).shown f shown
      refine ⟨has,?_⟩
      change (c.nulls.foldl _ b).sensors state4 f = (c.nulls.foldl _ b).sensors c.struct f
      simp only [assigns_sensors, outside, and_false, ↓reduceIte]
      exact (agrees f c.struct has).symm
    · obtain ⟨has,inside⟩ := (known_listed member).hidden f phase hidden
      refine ⟨has,?_⟩
      simp only [assigns_sensors, inside, and_self, ↓reduceIte]

end

/-- Both chains recognise the same strings; and after any history and a cycle of `sensors_task_fn`,
with the interrupts of the analog channels anywhere in it, the notification and the body report the
same for the configuration. -/
theorem reports_agree {V : Type} (φ : Formulas V) :
    (∀ configString1, (chosen configString1 bleBranches).isSome = true ↔ (chosen configString1 httpBranches).isSome = true) ∧
      ∀ (start : Bytes 240) (history cycle : List Event) (readings : Readings) (b : Board V),
        cycle.filter (fun e => !e.interrupt) = readings.cycle →
        b = (Board.init φ start).run φ (history ++ cycle ++ [.update]) →
        strcmpEq b.resetPulse.toList (literal "reset_pulse!") = false →
        (chosen b.configString1 httpBranches).isSome = true →
        ∃ c, compared b.configString1 [c] = true ∧ b.Reports φ c := by
  refine ⟨fun configString1 => ?_,fun start history cycle readings b turn reached going recognised => ?_⟩
  · rw [chosen_isSome rfl, chosen_isSome http_known]
  · obtain ⟨c,member,equal⟩ := (chosen_isSome http_known b.configString1).mp recognised
    refine ⟨c,equal,?_⟩
    have listed (e : Event) : e ∈ readings.cycle ↔ e ∈ cycle ∧ (!e.interrupt) = true := by
      rw [← turn]
      exact List.mem_filter
    have measured : .energy readings.meter ∈ cycle := ((listed _).mp (by simp [Readings.cycle])).1
    have quiet (e : Event) (inside : e ∈ cycle) : e ≠ .update := by
      rintro rfl
      have update := (listed .update).mpr ⟨inside,rfl⟩
      simp [Readings.cycle] at update
    have initial (g : SensorField) (_ : g ∉ phases) : (Board.init φ start).Agrees g := fun _ _ => rfl
    have agrees := cycle_agrees (φ := φ) quiet measured (fun g other => run_agrees (φ := φ) history other (initial g other))
    rw [Board.run, List.foldl_append, List.foldl_append] at reached
    change b = bleSensorsUpdate φ (((Board.init φ start).run φ history).run φ cycle) at reached
    have config := (bleSensorsUpdate_config φ (((Board.init φ start).run φ history).run φ cycle))
    rw [← reached] at config
    rw [config.1] at equal
    rw [config.2] at going
    rw [reached]
    exact update_reports member equal going agrees

theorem reports_agree_single :
    let φ : Formulas Int := ⟨0,1,-1,fun v => decide (v < 0),fun low high => low.toNat + 256 * high.toNat,
      fun raw => raw,fun raw => raw,fun p => p,fun p => p,fun n => n,fun n => n,fun n => n,fun n => n⟩
    let off : Pin := ⟨true,true⟩
    let pad : Bytes 9 := zeros 9
    let readings : Readings :=
      ⟨pad,pad,pad,pad,pad,pad,pad,pad,off,off,off,⟨120,121,122,7,8,9,95,800⟩,none,none,none,none,none,none⟩
    let start := memcpy (zeros 240) (literal "config[circuit:1,phase:1,voltage:120,frequen:60]")
    let cycle := readings.cycle ++ [.saadc ⟨1,2,3,4,5,6,7,8⟩]
    let b := (Board.init φ start).run φ ([.update,.thermostat off off off] ++ cycle ++ [.update])
    ∃ c, compared b.configString1 [c] = true ∧ b.Reports φ c := by
  intro φ off pad readings start cycle b
  refine (reports_agree φ).2 start [.update,.thermostat off off off] cycle readings b rfl ?_ ?_ ?_
  · with_reducible rfl
  · decide +kernel
  · decide +kernel

end PulseFirmware.Sensors
