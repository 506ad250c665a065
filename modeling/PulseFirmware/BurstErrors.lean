import PulseFirmware.Lib.Bits
import PulseFirmware.Lib.Lfsr
import PulseFirmware.LineTemperature

/-! The CRC of a scratch pad: `dsCRC8` is the register of the one-wire bus, so it notices every burst
of up to eight bits, wherever it stands in the message or in the CRC behind it. -/
namespace PulseFirmware.Sensors
open PulseFirmware.CString PulseFirmware.Bits PulseFirmware.Lfsr

/-- x^8 + x^5 + x^4 + 1, lowest power last. -/
def onewire : BitVec 8 := 0x8C

private theorem low_bit (n : UInt8) : n &&& 1 ≠ 0 ↔ n.toNat.testBit 0 = true := by
  rw [Nat.testBit_zero, decide_eq_true_iff, ← UInt8.toNat_inj.ne, UInt8.toNat_and]
  change n.toNat &&& 1 ≠ 0 ↔ _
  rw [Nat.and_one_is_mod]
  omega

private theorem mix_shift (crc inbyte : UInt8) :
    (if (crc ^^^ inbyte) &&& 1 ≠ 0 then crc >>> 1 ^^^ 0x8C else crc >>> 1).toBitVec =
      shift onewire crc.toBitVec (inbyte.toNat.testBit 0) := by
  have mix : (crc ^^^ inbyte) &&& 1 ≠ 0 ↔ (crc.toBitVec.getLsbD 0 ^^ inbyte.toNat.testBit 0) = true := by
    rw [low_bit, UInt8.toNat_xor, Nat.testBit_xor]
    rfl
  have down : (crc >>> 1).toBitVec = crc.toBitVec >>> 1 := rfl
  unfold shift
  by_cases set : (crc ^^^ inbyte) &&& 1 ≠ 0
  · rw [if_pos set, if_pos (mix.mp set), UInt8.toBitVec_xor, down]
    rfl
  · rw [if_neg set, if_neg (fun odd => set (mix.mpr odd)), down]

private theorem byte_absorb (crc inbyte : UInt8) (n : Nat) (inside : n ≤ 8) :
    let after := (List.range n).foldl (fun (crc,inbyte) _ =>
      let mix := (crc ^^^ inbyte) &&& 1
      let crc := crc >>> 1
      (if mix ≠ 0 then crc ^^^ 0x8C else crc,inbyte >>> 1)) (crc,inbyte)
    after.1.toBitVec = absorb onewire crc.toBitVec ((List.range n).map inbyte.toNat.testBit) ∧
      after.2.toNat = inbyte.toNat >>> n := by
  induction n with
  | zero => exact ⟨rfl,rfl⟩
  | succ n ih =>
    obtain ⟨register,rest⟩ := ih (by omega)
    rw [List.range_succ, List.foldl_append, List.map_append, absorb_append, ← register]
    refine ⟨?_,?_⟩
    · refine (mix_shift _ _).trans ?_
      rw [rest, Nat.testBit_shiftRight]
      rfl
    · refine (UInt8.toNat_shiftRight _ 1).trans ?_
      rw [rest]
      rfl

/-- `dsCRC8` is what is left in the register. -/
theorem dsCRC8_absorb (addr : List UInt8) : (dsCRC8 addr).toBitVec = absorb onewire 0 (bits addr) := by
  have from_ (crc : UInt8) : (addr.foldl (fun crc inbyte => ((List.range 8).foldl (fun (crc,inbyte) _ =>
      let mix := (crc ^^^ inbyte) &&& 1
      let crc := crc >>> 1
      (if mix ≠ 0 then crc ^^^ 0x8C else crc,inbyte >>> 1)) (crc,inbyte)).1) crc).toBitVec =
      absorb onewire crc.toBitVec (bits addr) := by
    induction addr generalizing crc with
    | nil => rfl
    | cons b addr ih =>
      rw [List.foldl_cons, ih, bits_cons, absorb_append, (byte_absorb crc b 8 (Nat.le_refl 8)).1]
      rfl
  exact from_ 0

theorem onewire_top : onewire.msb = true := rfl

private theorem loaded_byte (b : UInt8) : loaded 8 (byteBits b) = b.toBitVec := by
  apply BitVec.eq_of_getLsbD_eq
  intro i inside
  rw [loaded_getLsbD, List.getD_eq_getElem?_getD, byteBits_getElem b i inside, decide_eq_true inside]
  rfl

private theorem dsCRC8_zero (addr : List UInt8) : dsCRC8 addr = 0 ↔ absorb onewire 0 (bits addr) = 0 := by
  rw [← dsCRC8_absorb]
  exact UInt8.toBitVec_inj.symm

/-- The one byte to put behind a message is its CRC. -/
theorem dsCRC8_closes (d : List UInt8) (x : UInt8) : dsCRC8 (d ++ [x]) = 0 ↔ x = dsCRC8 d := by
  have single : bits [x] = byteBits x := List.append_nil _
  rw [dsCRC8_zero, bits_append, absorb_append, single,
    absorb_checksum onewire_top _ (byteBits_length x).le, loaded_byte, ← dsCRC8_absorb]
  exact UInt8.toBitVec_inj

theorem dsCRC8_xor {a b : List UInt8} (same : a.length = b.length) :
    dsCRC8 (List.zipWith (· ^^^ ·) a b) = dsCRC8 a ^^^ dsCRC8 b := by
  have bitwise : (bits a).length = (bits b).length := by rw [bits_length, bits_length, same]
  rw [← UInt8.toBitVec_inj, UInt8.toBitVec_xor, dsCRC8_absorb, dsCRC8_absorb, dsCRC8_absorb, bits_xor same]
  exact absorb_xor 0 0 bitwise

def codeword (d : List UInt8) : List UInt8 := d ++ [dsCRC8 d]

private theorem corrupted_crc {d e : List UInt8} (same : e.length = (codeword d).length) (some : true ∈ bits e)
    (burst : Burst 8 (bits e)) : dsCRC8 (List.zipWith (· ^^^ ·) (codeword d) e) ≠ 0 := by
  have whole : dsCRC8 (codeword d) = 0 := (dsCRC8_closes d _).mpr rfl
  rw [dsCRC8_xor same.symm, whole, UInt8.zero_xor]
  exact fun zero => absorb_burst onewire_top burst some ((dsCRC8_zero e).mp zero)

/-- A codeword has CRC zero. With up to eight bits in a row wrong, the last byte is no longer the CRC
of the others, and a scratch pad like this is rejected. -/
theorem dsCRC8_detects (d : List UInt8) :
    dsCRC8 (codeword d) = 0 ∧
      ∀ e : List UInt8, e.length = (codeword d).length → true ∈ bits e → Burst 8 (bits e) →
        let received := List.zipWith (· ^^^ ·) (codeword d) e
        received.getLast? ≠ some (dsCRC8 received.dropLast) ∧
          ∀ {V : Type} (φ : Formulas V) (b : Board V) (place : Place) (scratch : Bytes 9), scratch.toList = received →
            (b.probe place).get scratch = scratch.toList →
              b.step φ (place.read scratch) = b.reject φ place := by
  refine ⟨(dsCRC8_closes d _).mpr rfl,fun e same some burst => ?_⟩
  intro received
  have wrong : dsCRC8 received ≠ 0 := corrupted_crc same some burst
  have mismatch : received.getLast? ≠ Option.some (dsCRC8 received.dropLast) := by
    intro last
    have parts := List.dropLast_append_getLast? _ last
    exact wrong (parts ▸ (dsCRC8_closes _ _).mpr rfl)
  refine ⟨mismatch,fun φ b place scratch bytes plain => ?_⟩
  rw [step_reading φ (read_reading place scratch), readTemperature_eq, if_neg]
  intro accepted
  have crc := of_decide_eq_true accepted
  rw [plain, bytes] at crc
  have size : received.length = 9 := bytes ▸ scratch.property
  apply mismatch
  rw [List.getLast?_eq_getElem?, List.dropLast_eq_take, size, crc, List.getD_eq_getElem _ _ (by omega),
    List.getElem?_eq_getElem (by omega)]

theorem dsCRC8_detects_scratch :
    let φ : Formulas Int := ⟨0,1,0,fun _ => false,fun _ _ => 0,fun raw => raw,fun raw => raw,fun p => p,fun p => p,fun n => n,
      fun n => n,fun n => n,fun n => n⟩
    let b : Board Int := Board.init φ (zeros 240)
    let torn : Bytes 9 := ⟨[0x50,0x05,0x4B,0x46,0x7F,0x7F,0x73,0x10,0x1C],rfl⟩
    b.step φ (.sltc31 torn) = b.reject φ .sltc31 := by
  intro φ b torn
  have within : ∀ i < 72, (bits [0,0,0,0,0,0x80,0x7F,0,0])[i]? = some true → 47 ≤ i ∧ i < 47 + 8 := by decide +kernel
  have stretch : ∀ i : Nat, (bits [0,0,0,0,0,0x80,0x7F,0,0])[i]? = some true → 47 ≤ i ∧ i < 47 + 8 :=
    fun i set => within i (List.getElem?_eq_some_iff.mp set).1 set
  obtain ⟨_,detects⟩ := dsCRC8_detects [0x50,0x05,0x4B,0x46,0x7F,0xFF,0x0C,0x10]
  obtain ⟨_,rejected⟩ := detects [0,0,0,0,0,0x80,0x7F,0,0] (by decide +kernel) (by decide +kernel) ⟨47,stretch⟩
  exact rejected φ b .sltc31 torn (by decide +kernel) rfl

end PulseFirmware.Sensors
