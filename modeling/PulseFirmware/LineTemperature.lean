import Mathlib.Data.List.Induction
import Mathlib.Tactic.Linarith
import Mathlib.Tactic.NormNum
import PulseFirmware.SensorFrames

/-! The eight line temperatures. What a channel shows follows from the scratch pads that were read
on it alone: the last one accepted, and how many were rejected since. -/
namespace PulseFirmware.Sensors
open PulseFirmware.CString SensorField Struct

def isKthBitSet (n k : Nat) : Nat := if n &&& 1 <<< (k - 1) ≠ 0 then 1 else 0

/-- `temp`. Every summand is a multiple of 1/16 of at most 64, so nothing is rounded. -/
def temp (lsb msb : UInt8) : ℚ :=
  let bit (b : UInt8) (k : Nat) : ℚ := isKthBitSet b.toNat k
  if isKthBitSet msb.toNat 4 = 1 ∧ isKthBitSet msb.toNat 5 = 1 ∧ isKthBitSet msb.toNat 6 = 1 ∧
      isKthBitSet msb.toNat 7 = 1 ∧ isKthBitSet msb.toNat 8 = 1 then
    bit msb 2 * 32 + bit msb 1 * 16 + bit lsb 8 * 8 + bit lsb 7 * 4 + bit lsb 6 * 2 + bit lsb 5 * 1 +
      bit lsb 4 * 0.5 + bit lsb 3 * 0.25 + bit lsb 2 * 0.125 + bit lsb 1 * 0.0625 - bit msb 3 * 64
  else
    bit msb 3 * 64 + bit msb 2 * 32 + bit msb 1 * 16 + bit lsb 8 * 8 + bit lsb 7 * 4 + bit lsb 6 * 2 + bit lsb 5 * 1 +
      bit lsb 4 * 0.5 + bit lsb 3 * 0.25 + bit lsb 2 * 0.125 + bit lsb 1 * 0.0625

/-- The values of the line temperatures; those of the other sensors do not matter here. -/
def Formulas.line (φ : Formulas ℚ) : Formulas ℚ := { φ with zero := 0, null := -32.125, scratchpad := temp }

def raw (lsb msb : UInt8) : Int := (msb.toBitVec ++ lsb.toBitVec).toInt

private theorem bits_sum : ∀ n : Fin 256, n.val = isKthBitSet n 1 + 2 * isKthBitSet n 2 + 4 * isKthBitSet n 3 +
    8 * isKthBitSet n 4 + 16 * isKthBitSet n 5 + 32 * isKthBitSet n 6 + 64 * isKthBitSet n 7 + 128 * isKthBitSet n 8 := by
  decide +kernel

private theorem bit_le (n k : Nat) : isKthBitSet n k ≤ 1 := by
  unfold isKthBitSet
  split <;> decide

private theorem raw_eq (lsb msb : UInt8) :
    raw lsb msb = if msb.toNat < 128 then (msb.toNat * 256 + lsb.toNat : Int) else msb.toNat * 256 + lsb.toNat - 65536 := by
  have low := lsb.toNat_lt
  have high := msb.toNat_lt
  have joined : (msb.toBitVec ++ lsb.toBitVec).toNat = msb.toNat * 256 + lsb.toNat := by
    rw [BitVec.toNat_append, ← Nat.shiftLeft_add_eq_or_of_lt lsb.toBitVec.isLt, Nat.shiftLeft_eq]
    rfl
  rw [raw, BitVec.toInt_eq_toNat_cond, joined]
  split <;> split <;> push_cast <;> omega

/-- From -64 degrees up to 128 the bits that are summed up give the number. -/
theorem temp_raw {lsb msb : UInt8} (range : -1024 ≤ raw lsb msb ∧ raw lsb msb < 2048) : temp lsb msb = raw lsb msb / 16 := by
  have low := bits_sum ⟨lsb.toNat,lsb.toNat_lt⟩
  have high := bits_sum ⟨msb.toNat,msb.toNat_lt⟩
  have small := fun k => bit_le msb.toNat k
  have smalls := And.intro (small 1) (And.intro (small 2) (And.intro (small 3) (And.intro (small 4)
    (And.intro (small 5) (And.intro (small 6) (And.intro (small 7) (small 8)))))))
  have bound := lsb.toNat_lt
  dsimp only at low high
  have lowQ := congrArg (Nat.cast (R := ℚ)) low
  have highQ := congrArg (Nat.cast (R := ℚ)) high
  push_cast at lowQ highQ
  rw [raw_eq] at range ⊢
  unfold temp
  dsimp only
  by_cases positive : msb.toNat < 128
  · rw [if_pos positive] at range ⊢
    have none : isKthBitSet msb.toNat 4 = 0 ∧ isKthBitSet msb.toNat 5 = 0 ∧ isKthBitSet msb.toNat 6 = 0 ∧
        isKthBitSet msb.toNat 7 = 0 ∧ isKthBitSet msb.toNat 8 = 0 := by omega
    obtain ⟨h4,h5,h6,h7,h8⟩ := none
    rw [if_neg (by simp [h4])]
    simp only [h4, h5, h6, h7, h8, Nat.cast_zero] at highQ
    push_cast
    linarith
  · rw [if_neg positive] at range ⊢
    have all : isKthBitSet msb.toNat 3 = 1 ∧ isKthBitSet msb.toNat 4 = 1 ∧ isKthBitSet msb.toNat 5 = 1 ∧
        isKthBitSet msb.toNat 6 = 1 ∧ isKthBitSet msb.toNat 7 = 1 ∧ isKthBitSet msb.toNat 8 = 1 := by omega
    obtain ⟨h3,h4,h5,h6,h7,h8⟩ := all
    rw [if_pos ⟨h4,h5,h6,h7,h8⟩]
    simp only [h3, h4, h5, h6, h7, h8, Nat.cast_one] at highQ ⊢
    push_cast
    linarith

def Struct.number : Struct → Nat
  | .state1 => 1
  | .state2 => 2
  | .state3 => 3
  | .state4 => 4

def Place.circuit : Place → Nat
  | .sltc11 | .lltc11 => 1
  | .sltc21 | .lltc21 => 2
  | .sltc31 | .lltc31 => 3
  | .sltc41 | .lltc41 => 4

def Place.field : Place → SensorField
  | .sltc11 => .sltc11
  | .lltc11 => .lltc11
  | .sltc21 => .sltc21
  | .lltc21 => .lltc21
  | .sltc31 => .sltc31
  | .lltc31 => .lltc31
  | .sltc41 => .sltc41
  | .lltc41 => .lltc41

def Place.structs (place : Place) : List Struct :=
  [state1,state2,state3,state4].filter fun k => place.circuit ≤ k.number

def Place.read (place : Place) (scratch : Bytes 9) : Event :=
  match place with
  | .sltc11 => .sltc11 scratch
  | .lltc11 => .lltc11 scratch
  | .sltc21 => .sltc21 scratch
  | .lltc21 => .lltc21 scratch
  | .sltc31 => .sltc31 scratch
  | .lltc31 => .lltc31 scratch
  | .sltc41 => .sltc41 scratch
  | .lltc41 => .lltc41 scratch

/-- The scratch pads that a history has read on a channel. -/
def scratches (place : Place) (history : List Event) : List (Bytes 9) :=
  history.filterMap fun e =>
    match e.reading with
    | some (place',scratch) => if place' = place then some scratch else none
    | none => none

theorem place_structs (place : Place) (k : Struct) : k ∈ place.structs ↔ place.circuit ≤ k.number := by
  cases place <;> cases k <;> decide

theorem field_injective {place place' : Place} (same : place.field = place'.field) : place = place' := by
  cases place <;> cases place' <;> first | rfl | contradiction

section
variable {V : Type} (φ : Formulas V)

def Board.reject (b : Board V) (place : Place) : Board V :=
  let probe := b.probe place
  if 500 < probe.bad + 1 then
    { b.assign place.structs place.field φ.null with probe := Function.update b.probe place { probe with bad := 0 } }
  else { b with probe := Function.update b.probe place { probe with bad := probe.bad + 1 } }

def Board.accept (b : Board V) (place : Place) (v : V) (x : List UInt8) : Board V :=
  { b.assign place.structs place.field v with probe := Function.update b.probe place ⟨0,true,x⟩ }

def Probe.accepts (probe : Probe) (scratch : Bytes 9) : Bool :=
  decide (dsCRC8 ((probe.get scratch).take 8) = (probe.get scratch).getD 8 0)

theorem Probe.get_start (probe : Probe) (scratch : Bytes 9) :
    (probe.get scratch).getD 0 0 = scratch.toList.getD 0 0 ∧ (probe.get scratch).getD 1 0 = scratch.toList.getD 1 0 := by
  obtain ⟨bytes,size⟩ := scratch
  match bytes, size with
  | b0 :: b1 :: rest, _ =>
    unfold Probe.get
    split <;> exact ⟨rfl,rfl⟩

theorem step_reading {e : Event} {place : Place} {scratch : Bytes 9} (reads : e.reading = some (place,scratch)) (b : Board V) :
    b.step φ e = readTemperature φ place.structs place.field place scratch b := by
  cases e <;> cases reads <;> rfl

theorem readTemperature_eq (place : Place) (scratch : Bytes 9) (b : Board V) :
    readTemperature φ place.structs place.field place scratch b =
      if (b.probe place).accepts scratch = true then
        b.accept place (φ.scratchpad (scratch.toList.getD 0 0) (scratch.toList.getD 1 0))
          ((((b.probe place).get scratch).drop 2).take 6)
      else b.reject φ place := by
  obtain ⟨lsb,msb⟩ := (b.probe place).get_start scratch
  unfold readTemperature Probe.accepts Board.reject Board.accept
  dsimp only
  rw [lsb, msb]
  by_cases good : dsCRC8 (((b.probe place).get scratch).take 8) = ((b.probe place).get scratch).getD 8 0
  · rw [if_pos good, if_pos (decide_eq_true good)]
    rfl
  · have refused : ¬ decide (dsCRC8 (((b.probe place).get scratch).take 8) = ((b.probe place).get scratch).getD 8 0) = true :=
      fun accepted => good (of_decide_eq_true accepted)
    rw [if_neg good, if_neg refused]
    rfl

variable {φ}

theorem accept_sensors (b : Board V) (place : Place) (v : V) (x : List UInt8) {k : Struct} (inside : place.circuit ≤ k.number) :
    (b.accept place v x).sensors k place.field = v := if_pos ⟨(place_structs place k).mpr inside,rfl⟩

theorem accept_probe (b : Board V) (place : Place) (v : V) (x : List UInt8) : (b.accept place v x).probe place = ⟨0,true,x⟩ :=
  Function.update_self ..

theorem reject_probe (b : Board V) (place : Place) : (b.reject φ place).probe place =
    { b.probe place with bad := if 500 < (b.probe place).bad + 1 then 0 else (b.probe place).bad + 1 } := by
  unfold Board.reject
  dsimp only
  split <;> exact Function.update_self ..

theorem reject_sensors (b : Board V) (place : Place) {k : Struct} (inside : place.circuit ≤ k.number) :
    (b.reject φ place).sensors k place.field = if 500 < (b.probe place).bad + 1 then φ.null else b.sensors k place.field := by
  unfold Board.reject
  dsimp only
  split
  next => exact if_pos ⟨(place_structs place k).mpr inside,rfl⟩
  next => rfl

def Board.channel (b : Board V) (place : Place) : (Struct → V) × Probe := (fun k => b.sensors k place.field,b.probe place)

theorem read_apart (b : Board V) {place place' : Place} (apart : place' ≠ place) (scratch : Bytes 9) :
    (readTemperature φ place.structs place.field place scratch b).channel place' = b.channel place' := by
  have fields : place'.field ≠ place.field := fun same => apart (field_injective same)
  rw [readTemperature_eq]
  split
  next => exact Prod.ext (funext fun k => assign_apart b _ fields _ k) (Function.update_of_ne apart ..)
  next =>
    unfold Board.reject
    dsimp only
    split
    next => exact Prod.ext (funext fun k => assign_apart b _ fields _ k) (Function.update_of_ne apart ..)
    next => exact Prod.ext rfl (Function.update_of_ne apart ..)

def Kept (b b' : Board V) : Prop := ∀ place, b'.channel place = b.channel place

theorem step_kept {e : Event} (other : e.reading = none) (b : Board V) : Kept b (b.step φ e) := by
  intro place
  have outside : place.field ∉ e.writes := by
    cases e with
    | sltc11 | lltc11 | sltc21 | lltc21 | sltc31 | lltc31 | sltc41 | lltc41 => contradiction
    | temp port | hum port => cases port <;> cases place <;> simp [Event.writes, Event.air, Place.field]
    | _ => cases place <;> simp [Event.writes, Place.field, phases]
  exact Prod.ext (funext fun k => step_spared outside b k) (congrFun (step_probe other b) place)

theorem step_scratches (place : Place) (e : Event) :
    (scratches place [e] = [] ∧ ∀ b : Board V, (b.step φ e).channel place = b.channel place) ∨
      ∃ scratch, scratches place [e] = [scratch] ∧
        ∀ b : Board V, b.step φ e = readTemperature φ place.structs place.field place scratch b := by
  cases reads : e.reading with
  | none =>
    have none : scratches place [e] = [] := by simp [scratches, reads]
    exact .inl ⟨none,fun b => step_kept reads b place⟩
  | some reading =>
    obtain ⟨place',scratch⟩ := reading
    by_cases here : place' = place
    · subst here
      have single : scratches place' [e] = [scratch] := by simp [scratches, reads]
      exact .inr ⟨scratch,single,step_reading φ reads⟩
    · have none : scratches place [e] = [] := by simp [scratches, reads, here]
      refine .inl ⟨none,fun b => ?_⟩
      rw [step_reading φ reads]
      exact read_apart b (fun same => here same.symm) scratch

end

/-- What the scratch pads of a channel come to: the bytes 2 to 7 in use, the number in the last one
that was accepted, and how many were rejected since. -/
structure Tally where
  cached : Option (List UInt8)
  last : Option Int
  rejected : Nat

def Tally.substituted (t : Tally) (scratch : Bytes 9) : List UInt8 :=
  match t.cached with
  | none => scratch.toList
  | some x => scratch.toList.take 2 ++ x ++ scratch.toList.drop 8

def Tally.accepts (t : Tally) (scratch : Bytes 9) : Bool :=
  decide (dsCRC8 ((t.substituted scratch).take 8) = (t.substituted scratch).getD 8 0)

def number (scratch : Bytes 9) : Int := raw (scratch.toList.getD 0 0) (scratch.toList.getD 1 0)

def Tally.next (t : Tally) (scratch : Bytes 9) : Tally :=
  if t.accepts scratch then ⟨some (((t.substituted scratch).drop 2).take 6),some (number scratch),0⟩
  else { t with rejected := t.rejected + 1 }

def tally (readings : List (Bytes 9)) : Tally := readings.foldl Tally.next ⟨none,none,0⟩

def Tally.shown (t : Tally) : ℚ :=
  if 500 < t.rejected then -32.125
  else
    match t.last with
    | none => 0
    | some n => n / 16

/-- Accepted scratch pads are within the range of the sensor, -55 to 125 degrees. -/
def Ranged (readings : List (Bytes 9)) : Prop :=
  ∀ begun scratch rest, readings = begun ++ scratch :: rest → (tally begun).accepts scratch = true →
    -55 * 16 ≤ number scratch ∧ number scratch ≤ 125 * 16

/-- The channel is as its scratch pads say. -/
structure Follows (b : Board ℚ) (place : Place) (t : Tally) : Prop where
  flag : (b.probe place).flag = t.cached.isSome
  x : ∀ x, t.cached = some x → (b.probe place).x = x
  bad : (b.probe place).bad ≤ 500
  counted : t.rejected ≤ 500 → (b.probe place).bad = t.rejected
  shown : ∀ k : Struct, place.circuit ≤ k.number → b.sensors k place.field = t.shown

private theorem Follows.get {b : Board ℚ} {place : Place} {t : Tally} (follows : Follows b place t) (scratch : Bytes 9) :
    (b.probe place).get scratch = t.substituted scratch := by
  unfold Probe.get Tally.substituted
  cases cached : t.cached with
  | none => rw [follows.flag, cached]; rfl
  | some x => rw [follows.flag, follows.x x cached, cached]; rfl

private theorem Follows.accepts {b : Board ℚ} {place : Place} {t : Tally} (follows : Follows b place t) (scratch : Bytes 9) :
    (b.probe place).accepts scratch = t.accepts scratch := by
  rw [Probe.accepts, Tally.accepts, follows.get]

private theorem Follows.read {φ : Formulas ℚ} {b : Board ℚ} {place : Place} {t : Tally} (follows : Follows b place t)
    (scratch : Bytes 9) (ranged : t.accepts scratch = true → -55 * 16 ≤ number scratch ∧ number scratch ≤ 125 * 16) :
    Follows (readTemperature φ.line place.structs place.field place scratch b) place (t.next scratch) := by
  rw [readTemperature_eq, follows.accepts]
  unfold Tally.next
  by_cases good : t.accepts scratch = true
  · rw [if_pos good, if_pos good]
    have within := ranged good
    have value : temp (scratch.toList.getD 0 0) (scratch.toList.getD 1 0) = number scratch / 16 :=
      temp_raw ⟨by change -1024 ≤ number scratch; omega,by change number scratch < 2048; omega⟩
    constructor
    · rw [accept_probe]; rfl
    · intro x same
      rw [accept_probe, follows.get]
      exact Option.some.inj same
    · rw [accept_probe]; exact Nat.zero_le _
    · rw [accept_probe]; exact fun _ => rfl
    · intro k inside
      rw [accept_sensors _ _ _ _ inside]
      exact value
  · rw [if_neg good, if_neg good]
    have bound := follows.bad
    have counted := follows.counted
    constructor
    · rw [reject_probe]; exact follows.flag
    · rw [reject_probe]; exact follows.x
    · rw [reject_probe]
      dsimp only
      split <;> omega
    · rw [reject_probe]
      dsimp only
      intro few
      rw [if_neg (by omega)]
      omega
    · intro k inside
      rw [reject_sensors _ _ inside, follows.shown k inside]
      unfold Tally.shown
      dsimp only
      by_cases many : 500 < t.rejected
      · rw [if_pos many, if_pos (show 500 < t.rejected + 1 from Nat.lt_succ_of_lt many)]
        split <;> rfl
      · have same := counted (by omega)
        rw [if_neg many, same]
        rfl

private theorem Follows.other {b b' : Board ℚ} {place : Place} {t : Tally} (follows : Follows b place t)
    (same : b'.channel place = b.channel place) : Follows b' place t := by
  have probe : b'.probe place = b.probe place := congrArg Prod.snd same
  have fields (k : Struct) : b'.sensors k place.field = b.sensors k place.field := congrFun (congrArg Prod.fst same) k
  exact ⟨probe ▸ follows.flag,probe ▸ follows.x,probe ▸ follows.bad,probe ▸ follows.counted,
    fun k inside => (fields k).trans (follows.shown k inside)⟩

theorem scratches_snoc (place : Place) (history : List Event) (e : Event) :
    scratches place (history ++ [e]) = scratches place history ++ scratches place [e] := List.filterMap_append

theorem run_snoc {V : Type} (φ : Formulas V) (b : Board V) (history : List Event) (e : Event) :
    b.run φ (history ++ [e]) = (b.run φ history).step φ e := by
  rw [Board.run, List.foldl_append]
  rfl

theorem tally_snoc (readings : List (Bytes 9)) (scratch : Bytes 9) :
    tally (readings ++ [scratch]) = (tally readings).next scratch := by
  rw [tally, List.foldl_append]
  rfl

private theorem run_follows (φ : Formulas ℚ) (configString1 : Bytes 240) (place : Place) (history : List Event)
    (ranged : Ranged (scratches place history)) :
    Follows ((Board.init φ.line configString1).run φ.line history) place (tally (scratches place history)) := by
  induction history using List.reverseRecOn with
  | nil => exact ⟨rfl,fun _ none => (nomatch none),Nat.zero_le _,fun _ => rfl,fun _ _ => rfl⟩
  | append_singleton history e ih =>
    rw [scratches_snoc] at ranged ⊢
    rw [run_snoc]
    have before : Ranged (scratches place history) := fun begun scratch rest split =>
      ranged begun scratch (rest ++ scratches place [e]) (by rw [split, List.append_assoc, List.cons_append])
    have follows := ih before
    obtain ⟨none,same⟩ | ⟨scratch,single,step⟩ := step_scratches (φ := φ.line) place e
    · rw [none, List.append_nil]
      exact follows.other (same _)
    · rw [single] at ranged ⊢
      rw [tally_snoc, step]
      exact follows.read scratch (ranged _ scratch [] rfl)

theorem read_reading (place : Place) (scratch : Bytes 9) : (place.read scratch).reading = some (place,scratch) := by
  cases place <;> rfl

/-- After any history a channel shows in all its structures what its scratch pads come to, its counter
stays within 500, and a reading leaves the other channels alone. -/
theorem line_temperature (φ : Formulas ℚ) (configString1 : Bytes 240) (history : List Event) (place : Place)
    (ranged : Ranged (scratches place history)) :
    let b := (Board.init φ.line configString1).run φ.line history
    (∀ k : Struct, place.circuit ≤ k.number → b.sensors k place.field = (tally (scratches place history)).shown) ∧
      (b.probe place).bad ≤ 500 ∧
      ∀ (b : Board ℚ) (scratch : Bytes 9) (place' : Place), place' ≠ place →
        (b.step φ.line (place.read scratch)).channel place' = b.channel place' := by
  have follows := run_follows φ configString1 place history ranged
  refine ⟨follows.shown,follows.bad,fun b scratch place' apart => ?_⟩
  rw [step_reading _ (read_reading place scratch)]
  exact read_apart b apart scratch

theorem line_temperature_single :
    let φ : Formulas ℚ := ⟨0,1,0,fun _ => false,fun _ _ => 0,fun raw => raw,fun raw => raw,fun p => p,fun p => p,fun n => n,
      fun n => n,fun n => n,fun n => n⟩
    let cold : Bytes 9 := ⟨[0x6f,0xfe,0x4b,0x46,0x7f,0xff,0x0c,0x10,0xe8],rfl⟩
    let torn : Bytes 9 := ⟨[0x50,0x05,0x4b,0x46,0x7f,0xff,0x0c,0x10,0x00],rfl⟩
    ((Board.init φ.line (zeros 240)).run φ.line [.sltc21 cold,.lltc11 torn,.sltc21 torn]).sensors state3 sltc21 = -25.0625 := by
  intro φ cold torn
  have ranged : Ranged (scratches .sltc21 [.sltc21 cold,.lltc11 torn,.sltc21 torn]) := by
    change Ranged [cold,torn]
    have small : -55 * 16 ≤ number cold ∧ number cold ≤ 125 * 16 := by decide +kernel
    have large : -55 * 16 ≤ number torn ∧ number torn ≤ 125 * 16 := by decide +kernel
    intro begun scratch rest split _
    have member : scratch ∈ [cold,torn] := split ▸ List.mem_append_right _ List.mem_cons_self
    rcases List.mem_pair.mp member with rfl | rfl
    · exact small
    · exact large
  have value : (tally (scratches .sltc21 [.sltc21 cold,.lltc11 torn,.sltc21 torn])).shown = -25.0625 := by decide +kernel
  obtain ⟨shown,_⟩ := line_temperature φ (zeros 240) [.sltc21 cold,.lltc11 torn,.sltc21 torn] .sltc21 ranged
  have third := shown state3 (by decide)
  rw [value, Place.field] at third
  exact third

end PulseFirmware.Sensors
