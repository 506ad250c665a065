import Mathlib.Data.List.Induction
import PulseFirmware.SensorFrames

/-! The sensors for the air behind the multiplexer. One buffer for each quantity serves the three ports,
and a transfer that times out leaves in it what an earlier one delivered. -/
namespace PulseFirmware.Sensors
open PulseFirmware.CString SensorField Struct

inductive Quantity
  | temp | hum
deriving DecidableEq

/-- How `nrf_drv_twi_rx` and the wait for it end: an error at the start, three bytes, or none in time. -/
inductive Rx
  | error
  | delivered (t : Transfer)
  | timeout

structure Acquisition where
  quantity : Quantity
  port : Port
  rx : Rx

/-- The readings, with `returned_over_I2C` and `returned1_over_I2C`. -/
structure Bus (V : Type) where
  board : Board V
  returned : Quantity → Transfer

inductive Act
  | read (a : Acquisition)
  | other (e : Event) (elsewhere : e.air = none)

def airField : Quantity → Port → SensorField
  | .temp, .port2 => oadb10
  | .temp, .port4 => radb10
  | .temp, .port6 => sadb10
  | .hum, .port2 => oarh10
  | .hum, .port4 => rarh10
  | .hum, .port6 => sarh10

def Acquisition.field (a : Acquisition) : SensorField := airField a.quantity a.port

def Acquisition.call (a : Acquisition) (found : Option Transfer) : Event :=
  match a.quantity with
  | .temp => .temp a.port found
  | .hum => .hum a.port found

def Act.field : Act → Option SensorField
  | .read a => some a.field
  | .other .. => none

def Transfer.raw (t : Transfer) : Nat := t.msb.toNat * 256 + t.lsb.toNat

def Transfer.bad (t : Transfer) : Bool := decide (checkCRC t.raw t.crc.toNat ≠ 0 ∨ (t.msb = 0 ∧ t.lsb = 0))

def everywhere : List Struct := [state1,state2,state3,state4]

section
variable {V : Type} (φ : Formulas V)

def Formulas.air : Quantity → Nat → V
  | .temp => φ.temperature
  | .hum => φ.humidity

def Bus.init (configString1 : Bytes 240) : Bus V := ⟨Board.init φ configString1,fun _ => ⟨0,0,0⟩⟩

/-- From the CRC on. Bytes that were good are set to zero. -/
def Bus.convert (bus : Bus V) (a : Acquisition) (t : Transfer) : Bus V :=
  ⟨bus.board.step φ (a.call (some t)),
    Function.update bus.returned a.quantity (if t.bad then t else { t with msb := 0, lsb := 0 })⟩

def Bus.read (bus : Bus V) (a : Acquisition) : Bus V :=
  match a.rx with
  | .error => { bus with board := bus.board.step φ (a.call none) }
  | .delivered t => bus.convert φ a t
  | .timeout => bus.convert φ a (bus.returned a.quantity)

def Bus.step (bus : Bus V) : Act → Bus V
  | .read a => bus.read φ a
  | .other e _ => { bus with board := bus.board.step φ e }

def Bus.run (bus : Bus V) (acts : List Act) : Bus V := acts.foldl (Bus.step φ) bus

/-- A bad value: it is counted, and after 500 in a row the field is marked. -/
def Board.miss (b : Board V) (f : SensorField) : Board V :=
  if 500 < b.badCount f + 1 then { b.assign everywhere f φ.null with badCount := Function.update b.badCount f 0 }
  else { b with badCount := Function.update b.badCount f (b.badCount f + 1) }

def Board.publish (b : Board V) (f : SensorField) (v : V) : Board V :=
  { b.assign everywhere f v with badCount := Function.update b.badCount f 0 }

variable {φ}

theorem airField_injective {q q' : Quantity} {port port' : Port} (same : airField q port = airField q' port') :
    q = q' ∧ port = port' := by
  cases q <;> cases q' <;> cases port <;> cases port' <;> first | exact ⟨rfl,rfl⟩ | contradiction

private theorem readSensorData_some (f : SensorField) (formula : Nat → V) (t : Transfer) (b : Board V) :
    readSensorData φ f formula (some t) b = if t.bad then b.miss φ f else b.publish f (formula t.raw) := by
  unfold readSensorData
  dsimp only
  by_cases wrong : checkCRC (t.msb.toNat * 256 + t.lsb.toNat) t.crc.toNat ≠ 0 ∨ (t.msb = 0 ∧ t.lsb = 0)
  · have bad : t.bad = true := decide_eq_true wrong
    rw [if_pos wrong, if_pos bad]
    rfl
  · have good : ¬ t.bad = true := fun bad => wrong (of_decide_eq_true bad)
    rw [if_neg wrong, if_neg good]
    rfl

theorem call_some (a : Acquisition) (t : Transfer) (b : Board V) :
    b.step φ (a.call (some t)) = if t.bad then b.miss φ a.field else b.publish a.field (φ.air a.quantity t.raw) := by
  obtain ⟨q,port,rx⟩ := a
  cases q <;> cases port <;> exact readSensorData_some _ _ t b

theorem call_none (a : Acquisition) (b : Board V) : b.step φ (a.call none) = b := by
  obtain ⟨q,port,rx⟩ := a
  cases q <;> cases port <;> rfl

theorem publish_sensors (b : Board V) (f : SensorField) (v : V) (k : Struct) : (b.publish f v).sensors k f = v :=
  if_pos ⟨by cases k <;> decide,rfl⟩

theorem miss_sensors (b : Board V) (f : SensorField) (k : Struct) :
    (b.miss φ f).sensors k f = if 500 < b.badCount f + 1 then φ.null else b.sensors k f := by
  unfold Board.miss
  split
  next => exact if_pos ⟨by cases k <;> decide,rfl⟩
  next => rfl

theorem miss_badCount (b : Board V) (f : SensorField) :
    (b.miss φ f).badCount f = if 500 < b.badCount f + 1 then 0 else b.badCount f + 1 := by
  unfold Board.miss
  split <;> exact Function.update_self ..

/-- What is left in the buffers would not be published: the CRC is wrong, or the value was set to zero. -/
def Bus.Stale (bus : Bus V) : Prop := ∀ q, (bus.returned q).bad = true

theorem cleared_bad (t : Transfer) : ({ t with msb := 0, lsb := 0 } : Transfer).bad = true :=
  decide_eq_true (.inr ⟨rfl,rfl⟩)

private theorem Bus.Stale.convert {bus : Bus V} (stale : bus.Stale) (a : Acquisition) (t : Transfer) :
    (bus.convert φ a t).Stale := by
  intro q
  change (Function.update bus.returned a.quantity _ q).bad = true
  by_cases same : q = a.quantity
  · subst same
    rw [Function.update_self]
    split
    next bad => exact bad
    next => exact cleared_bad t
  · rw [Function.update_of_ne same]
    exact stale q

theorem step_stale {bus : Bus V} (stale : bus.Stale) (act : Act) : (bus.step φ act).Stale := by
  cases act with
  | other e elsewhere => exact stale
  | read a =>
    obtain ⟨q,port,rx⟩ := a
    cases rx with
    | error => exact stale
    | delivered t => exact stale.convert _ t
    | timeout => exact stale.convert _ _

theorem run_stale (φ : Formulas V) (configString1 : Bytes 240) (acts : List Act) :
    ((Bus.init φ configString1).run φ acts).Stale := by
  have start : (Bus.init φ configString1).Stale := fun _ => cleared_bad ⟨0,0,0⟩
  generalize Bus.init φ configString1 = bus at start
  induction acts generalizing bus with
  | nil => exact start
  | cons act acts ih => exact ih _ (step_stale start act)

/-- A value that is published was delivered to the call, and a timeout counts as a bad one. -/
theorem read_board {bus : Bus V} (stale : bus.Stale) (a : Acquisition) : (bus.read φ a).board =
    match a.rx with
    | .error => bus.board
    | .delivered t => if t.bad then bus.board.miss φ a.field else bus.board.publish a.field (φ.air a.quantity t.raw)
    | .timeout => bus.board.miss φ a.field := by
  obtain ⟨q,port,rx⟩ := a
  cases rx with
  | error => exact call_none _ _
  | delivered t => exact call_some _ t _
  | timeout => exact (call_some _ _ _).trans (if_pos (stale q))

theorem run_act (bus : Bus V) (acts : List Act) (act : Act) : bus.run φ (acts ++ [act]) = (bus.run φ acts).step φ act := by
  rw [Bus.run, List.foldl_append]
  rfl

theorem step_apart (bus : Bus V) {act : Act} {q : Quantity} {port : Port} (apart : act.field ≠ some (airField q port)) :
    (∀ k, (bus.step φ act).board.sensors k (airField q port) = bus.board.sensors k (airField q port)) ∧
      (bus.step φ act).board.badCount (airField q port) = bus.board.badCount (airField q port) := by
  cases act with
  | other e elsewhere =>
    have outside : airField q port ∉ e.writes := by
      cases e with
      | temp port' => cases port' <;> contradiction
      | hum port' => cases port' <;> contradiction
      | _ => cases q <;> cases port <;> simp [Event.writes, airField, phases]
    exact ⟨step_spared outside bus.board,congrFun (step_badCount elsewhere bus.board) _⟩
  | read a =>
    have other : airField q port ≠ a.field := fun same => apart (congrArg some same.symm)
    have missed : (∀ k, (bus.board.miss φ a.field).sensors k (airField q port) = bus.board.sensors k (airField q port)) ∧
        (bus.board.miss φ a.field).badCount (airField q port) = bus.board.badCount (airField q port) := by
      unfold Board.miss
      split
      next => exact ⟨assign_apart _ _ other _,Function.update_of_ne other ..⟩
      next => exact ⟨fun _ => rfl,Function.update_of_ne other ..⟩
    have converted (t : Transfer) :
        (∀ k, (bus.board.step φ (a.call (some t))).sensors k (airField q port) = bus.board.sensors k (airField q port)) ∧
          (bus.board.step φ (a.call (some t))).badCount (airField q port) = bus.board.badCount (airField q port) := by
      rw [call_some]
      split
      next => exact missed
      next => exact ⟨assign_apart _ _ other _,Function.update_of_ne other ..⟩
    change (∀ k, (bus.read φ a).board.sensors k _ = _) ∧ (bus.read φ a).board.badCount _ = _
    unfold Bus.read
    split
    next => rw [call_none]; exact ⟨fun _ => rfl,rfl⟩
    next t _ => exact converted t
    next => exact converted _

/-- What a field may show: its first value, the mark for none, or what the last good call for it converted. -/
def Shown (φ : Formulas V) (acts : List Act) (q : Quantity) (port : Port) (v : V) : Prop :=
  v = φ.zero ∨ v = φ.null ∨ ∃ begun t rest, acts = begun ++ Act.read ⟨q,port,.delivered t⟩ :: rest ∧ t.bad = false ∧
    v = φ.air q t.raw ∧ ∀ t', Act.read ⟨q,port,.delivered t'⟩ ∈ rest → t'.bad = true

theorem Shown.later {acts : List Act} {q : Quantity} {port : Port} {v : V} (shown : Shown φ acts q port v) {act : Act}
    (quiet : ∀ t, act = Act.read ⟨q,port,.delivered t⟩ → t.bad = true) : Shown φ (acts ++ [act]) q port v := by
  rcases shown with zero | null | ⟨begun,t,rest,rfl,good,value,none⟩
  · exact .inl zero
  · exact .inr (.inl null)
  · refine .inr (.inr ⟨begun,t,rest ++ [act],by rw [List.append_assoc, List.cons_append],good,value,?_⟩)
    intro t' member
    rcases List.mem_append.mp member with before | last
    · exact none t' before
    · exact quiet t' (List.mem_singleton.mp last).symm

private theorem miss_shown {b : Board V} {acts : List Act} {q : Quantity} {port : Port}
    (shown : ∀ k, Shown φ acts q port (b.sensors k (airField q port))) {act : Act}
    (quiet : ∀ t, act = Act.read ⟨q,port,.delivered t⟩ → t.bad = true) (k : Struct) :
    Shown φ (acts ++ [act]) q port ((b.miss φ (airField q port)).sensors k (airField q port)) := by
  rw [miss_sensors]
  split
  next => exact .inr (.inl rfl)
  next => exact (shown k).later quiet

theorem run_shown (φ : Formulas V) (configString1 : Bytes 240) (acts : List Act) (q : Quantity) (port : Port) (k : Struct) :
    Shown φ acts q port (((Bus.init φ configString1).run φ acts).board.sensors k (airField q port)) := by
  induction acts using List.reverseRecOn generalizing k with
  | nil => exact .inl rfl
  | append_singleton acts act ih =>
    have stale := run_stale φ configString1 acts
    rw [run_act]
    by_cases mine : act.field = some (airField q port)
    · cases act with
      | other e elsewhere => contradiction
      | read a =>
        obtain ⟨q',port',rx⟩ := a
        obtain ⟨rfl,rfl⟩ := airField_injective (Option.some.inj mine)
        have next := read_board (φ := φ) stale ⟨q',port',rx⟩
        change Shown φ _ q' port' ((Bus.read φ _ ⟨q',port',rx⟩).board.sensors k _)
        rw [next]
        cases rx with
        | error => exact (ih k).later fun t same => by cases same
        | timeout => exact miss_shown ih (fun t same => by cases same) k
        | delivered t =>
          dsimp only
          by_cases bad : t.bad = true
          · rw [if_pos bad]
            exact miss_shown ih (fun t' same => by cases same; exact bad) k
          · rw [if_neg bad]
            refine .inr (.inr ⟨acts,t,[],rfl,Bool.eq_false_iff.mpr bad,publish_sensors _ _ _ k,?_⟩)
            exact fun _ none => absurd none List.not_mem_nil
    · rw [(step_apart _ mine).1 k]
      refine (ih k).later fun t same => ?_
      subst same
      exact absurd rfl mine

private theorem miss_fields (b : Board V) (f : SensorField) : (b.miss φ f).sensors = b.sensors ∨
    (b.miss φ f).sensors = (b.assign everywhere f φ.null).sensors ∧ 500 ≤ b.badCount f := by
  unfold Board.miss
  split
  next many => exact .inr ⟨rfl,Nat.le_of_lt_succ many⟩
  next => exact .inl rfl

/-- After any history a call publishes only what was delivered to it, for its own port, and each field shows the
value of the last good call for it unless it is marked. -/
theorem air_fresh (φ : Formulas V) (configString1 : Bytes 240) (acts : List Act) :
    let bus := (Bus.init φ configString1).run φ acts
    (∀ a : Acquisition,
      (bus.read φ a).board.sensors = bus.board.sensors ∨
      (bus.read φ a).board.sensors = (bus.board.assign everywhere a.field φ.null).sensors ∧ 500 ≤ bus.board.badCount a.field ∨
      ∃ t, a.rx = .delivered t ∧ t.bad = false ∧
        (bus.read φ a).board.sensors = (bus.board.assign everywhere a.field (φ.air a.quantity t.raw)).sensors) ∧
    ∀ q port k, Shown φ acts q port (bus.board.sensors k (airField q port)) := by
  intro bus
  have stale : bus.Stale := run_stale φ configString1 acts
  refine ⟨fun a => ?_,run_shown φ configString1 acts⟩
  rw [read_board stale]
  cases rx : a.rx with
  | error => exact .inl rfl
  | timeout => exact (miss_fields bus.board a.field).imp_right .inl
  | delivered t =>
    dsimp only
    by_cases bad : t.bad = true
    · rw [if_pos bad]
      exact (miss_fields bus.board a.field).imp_right .inl
    · rw [if_neg bad]
      exact .inr (.inr ⟨t,rfl,Bool.eq_false_iff.mpr bad,rfl⟩)

/-- Port 4 times out after a good transfer for port 2, and shows nothing of it. -/
example : let φ : Formulas Int := ⟨0,1,-514,fun _ => false,fun _ _ => 0,fun raw => raw,fun raw => raw,fun p => p,fun p => p,
      fun n => n,fun n => n,fun n => n,fun n => n⟩
    let b := ((Bus.init φ (zeros 240)).run φ [.read ⟨.temp,.port2,.delivered ⟨0x68,0x3A,0x7C⟩⟩,.read ⟨.temp,.port4,.timeout⟩]).board
    b.sensors state1 oadb10 = 0x683A ∧ b.sensors state1 radb10 = 0 ∧ b.badCount radb10 = 1 := by
  decide +kernel

end

end PulseFirmware.Sensors
