import PulseFirmware.BurstErrors

/-! What the cached bytes 2 to 7 do to a scratch pad that is valid as it was received. They are those of
the first valid scratch pad of the channel, and stay. -/
namespace PulseFirmware.Sensors
open PulseFirmware.CString PulseFirmware.Bits PulseFirmware.Lfsr SensorField Struct

def valid (scratch : Bytes 9) : Bool := decide (dsCRC8 (scratch.toList.take 8) = scratch.toList.getD 8 0)

/-- The bytes 2 to 7: alarm registers, configuration and reserved ones. -/
def middle (scratch : Bytes 9) : List UInt8 := (scratch.toList.drop 2).take 6

def firstValid (place : Place) (history : List Event) : Option (Bytes 9) := (scratches place history).find? valid

theorem dsCRC8_behind (front : List UInt8) {x y : List UInt8} (same : x.length = y.length) :
    dsCRC8 (front ++ x) = dsCRC8 (front ++ y) ↔ dsCRC8 x = dsCRC8 y := by
  have bitwise : (bits x).length = (bits y).length := by rw [bits_length, bits_length, same]
  rw [← UInt8.toBitVec_inj, ← UInt8.toBitVec_inj, dsCRC8_absorb, dsCRC8_absorb, dsCRC8_absorb, dsCRC8_absorb, bits_append,
    bits_append, absorb_append, absorb_append]
  exact absorb_same _ bitwise

private theorem parts (scratch : Bytes 9) :
    scratch.toList.take 8 = scratch.toList.take 2 ++ middle scratch ∧ (middle scratch).length = 6 := by
  obtain ⟨bytes,size⟩ := scratch
  match bytes, size with
  | [b0,b1,b2,b3,b4,b5,b6,b7,b8], _ => exact ⟨rfl,rfl⟩

private theorem substituted_parts (scratch : Bytes 9) {x : List UInt8} (six : x.length = 6) :
    let get := scratch.toList.take 2 ++ x ++ scratch.toList.drop 8
    get.take 8 = scratch.toList.take 2 ++ x ∧ get.getD 8 0 = scratch.toList.getD 8 0 ∧ (get.drop 2).take 6 = x := by
  obtain ⟨bytes,size⟩ := scratch
  match bytes, size, x, six with
  | [b0,b1,b2,b3,b4,b5,b6,b7,b8], _, [x2,x3,x4,x5,x6,x7], _ => exact ⟨rfl,rfl,rfl⟩

/-- The statics of a channel hold the bytes of this scratch pad, or none. -/
structure Probe.Holds (probe : Probe) (first : Option (Bytes 9)) : Prop where
  flag : probe.flag = first.isSome
  x : ∀ scratch, first = some scratch → probe.x = middle scratch

private theorem Probe.Holds.accepts_none {probe : Probe} (holds : probe.Holds none) (scratch : Bytes 9) :
    probe.get scratch = scratch.toList ∧ probe.accepts scratch = valid scratch := by
  have plain : probe.get scratch = scratch.toList := by rw [Probe.get, holds.flag]; rfl
  exact ⟨plain,by rw [Probe.accepts, plain, valid]⟩

private theorem Probe.Holds.accepts_some {probe : Probe} {first : Bytes 9} (holds : probe.Holds (some first))
    (scratch : Bytes 9) : ((probe.get scratch).drop 2).take 6 = middle first ∧
      (valid scratch = true → (probe.accepts scratch = true ↔ dsCRC8 (middle first) = dsCRC8 (middle scratch))) := by
  have replaced : probe.get scratch = scratch.toList.take 2 ++ middle first ++ scratch.toList.drop 8 := by
    rw [Probe.get, holds.flag, holds.x first rfl]
    rfl
  obtain ⟨eight,own⟩ := parts scratch
  obtain ⟨start,last,inner⟩ := substituted_parts scratch (parts first).2
  refine ⟨replaced ▸ inner,fun good => ?_⟩
  have crc := of_decide_eq_true good
  rw [eight] at crc
  rw [Probe.accepts, decide_eq_true_iff, replaced, start, last, ← crc]
  exact dsCRC8_behind _ ((parts first).2.trans own.symm)

private theorem Probe.Holds.read {V : Type} {φ : Formulas V} {b : Board V} {place : Place} {first : Option (Bytes 9)}
    (holds : (b.probe place).Holds first) (scratch : Bytes 9) :
    ((readTemperature φ place.structs place.field place scratch b).probe place).Holds
      (first.or (if valid scratch then some scratch else none)) := by
  rw [readTemperature_eq]
  cases first with
  | none =>
    obtain ⟨plain,same⟩ := holds.accepts_none scratch
    rw [same, Option.none_or]
    by_cases good : valid scratch = true
    · rw [if_pos good, if_pos good, accept_probe, plain]
      exact ⟨rfl,fun _ first => Option.some.inj first ▸ rfl⟩
    · rw [if_neg good, if_neg good, reject_probe]
      exact ⟨holds.flag,holds.x⟩
  | some first =>
    rw [Option.some_or]
    split
    next =>
      rw [accept_probe, (holds.accepts_some scratch).1]
      exact ⟨rfl,fun _ same => Option.some.inj same ▸ rfl⟩
    next =>
      rw [reject_probe]
      exact ⟨holds.flag,holds.x⟩

theorem run_holds {V : Type} (φ : Formulas V) (configString1 : Bytes 240) (place : Place) (history : List Event) :
    (((Board.init φ configString1).run φ history).probe place).Holds (firstValid place history) := by
  induction history using List.reverseRecOn with
  | nil => exact ⟨rfl,fun _ none => (nomatch none)⟩
  | append_singleton history e ih =>
    rw [run_snoc, firstValid, scratches_snoc, List.find?_append]
    obtain ⟨none,same⟩ | ⟨scratch,single,step⟩ := step_scratches (φ := φ) place e
    · have kept : (((Board.init φ configString1).run φ history).step φ e).probe place = _ := congrArg Prod.snd (same _)
      rw [none, List.find?_nil, Option.or_none, kept]
      exact ih
    · rw [single, List.find?_singleton, step]
      exact ih.read scratch

/-- A valid scratch pad counts if it is the first valid one of its channel, or if its bytes 2 to 7 have the
CRC of those of the first. Otherwise it is refused as a bad one. -/
theorem valid_published {V : Type} (φ : Formulas V) (configString1 : Bytes 240) (history : List Event) (place : Place)
    (scratch : Bytes 9) (good : valid scratch = true) :
    let b := (Board.init φ configString1).run φ history
    let b' := b.step φ (place.read scratch)
    let agrees := ∀ first, firstValid place history = some first → dsCRC8 (middle first) = dsCRC8 (middle scratch)
    (agrees →
      (∀ k : Struct, place.circuit ≤ k.number →
        b'.sensors k place.field = φ.scratchpad (scratch.toList.getD 0 0) (scratch.toList.getD 1 0)) ∧
      (b'.probe place).bad = 0) ∧
    (¬ agrees → b' = b.reject φ place) := by
  intro b b' agrees
  have holds : (b.probe place).Holds (firstValid place history) := run_holds φ configString1 place history
  have accepted : (b.probe place).accepts scratch = true ↔ agrees := by
    cases before : firstValid place history with
    | none =>
      rw [before] at holds
      rw [(holds.accepts_none scratch).2, good]
      exact ⟨fun _ first same => (nomatch before.symm.trans same),fun _ => rfl⟩
    | some first =>
      rw [before] at holds
      rw [(holds.accepts_some scratch).2 good]
      exact ⟨fun crc first' same => Option.some.inj (before.symm.trans same) ▸ crc,fun agree => agree first before⟩
  have next : b' = _ := step_reading φ (read_reading place scratch) b
  rw [next, readTemperature_eq]
  constructor
  · intro agree
    rw [if_pos (accepted.mpr agree)]
    exact ⟨fun k inside => accept_sensors _ _ _ _ inside,by rw [accept_probe]⟩
  · intro differ
    rw [if_neg (fun good => differ (accepted.mp good))]

theorem valid_published_replaced :
    let φ : Formulas ℚ := ⟨0,1,-32.125,fun _ => false,temp,fun raw => raw,fun raw => raw,fun p => p,fun p => p,fun n => n,
      fun n => n,fun n => n,fun n => n⟩
    let cold : Bytes 9 := ⟨[0x6f,0xfe,0x4b,0x46,0x7f,0xff,0x0c,0x10,0xe8],rfl⟩
    let warm : Bytes 9 := ⟨[0x50,0x05,0x4b,0x46,0x7f,0xff,0x0c,0x10,0x1c],rfl⟩
    let zero : Bytes 9 := zeros 9
    ((((Board.init φ (zeros 240)).run φ [.sltc21 cold,.sltc21 zero]).step φ (Place.sltc21.read warm)).probe .sltc21).bad = 0 := by
  intro φ cold warm zero
  have first : firstValid .sltc21 [.sltc21 cold,.sltc21 zero] = some cold := by decide +kernel
  obtain ⟨published,_⟩ := valid_published φ (zeros 240) [.sltc21 cold,.sltc21 zero] .sltc21 warm (by decide +kernel)
  have agrees : dsCRC8 (middle cold) = dsCRC8 (middle warm) := by decide +kernel
  have reset := (published fun first' same => Option.some.inj (first.symm.trans same) ▸ agrees).2
  exact reset

/-- A line that is held low delivers nine zero bytes, which are valid. The sensor that comes after them is
refused with 85 degrees, and counted as bad. -/
theorem valid_refused :
    let φ : Formulas ℚ := ⟨0,1,-32.125,fun _ => false,temp,fun raw => raw,fun raw => raw,fun p => p,fun p => p,fun n => n,
      fun n => n,fun n => n,fun n => n⟩
    let warm : Bytes 9 := ⟨[0x50,0x05,0x4b,0x46,0x7f,0xff,0x0c,0x10,0x1c],rfl⟩
    let b := ((Board.init φ (zeros 240)).run φ [.sltc11 (zeros 9)]).step φ (.sltc11 warm)
    valid warm = true ∧ temp 0x50 0x05 = 85 ∧ b.sensors state1 sltc11 = 0 ∧ (b.probe .sltc11).bad = 1 := by
  decide +kernel

end PulseFirmware.Sensors
