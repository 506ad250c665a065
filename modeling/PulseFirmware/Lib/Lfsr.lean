import Mathlib.Data.List.Basic

/-! A shift register with feedback that a serial line runs through, least significant end first:
the checksum of a message is what is left in it. -/
namespace PulseFirmware.Lfsr

section
variable {w : Nat} (poly : BitVec w)

/-- One bit of the line goes into the register. -/
def shift (crc : BitVec w) (bit : Bool) : BitVec w :=
  if (crc.getLsbD 0 ^^ bit) = true then crc >>> 1 ^^^ poly else crc >>> 1

def absorb (crc : BitVec w) (sent : List Bool) : BitVec w := sent.foldl (shift poly) crc

def loaded (w : Nat) (sent : List Bool) : BitVec w := (BitVec.ofBoolListLE sent).setWidth w

variable {poly}

theorem absorb_append (crc : BitVec w) (sent later : List Bool) :
    absorb poly crc (sent ++ later) = absorb poly (absorb poly crc sent) later := List.foldl_append

theorem shift_xor (a b : BitVec w) (x y : Bool) :
    shift poly (a ^^^ b) (x ^^ y) = shift poly a x ^^^ shift poly b y := by
  have apart : (a ^^^ b) >>> 1 = a >>> 1 ^^^ b >>> 1 := BitVec.ushiftRight_xor_distrib a b 1
  unfold shift
  rw [apart, BitVec.getLsbD_xor]
  apply BitVec.eq_of_getLsbD_eq
  intro i _
  cases a.getLsbD 0 <;> cases b.getLsbD 0 <;> cases x <;> cases y <;> simp <;> grind

/-- The register is linear in its content and in the line. -/
theorem absorb_xor (a b : BitVec w) {x y : List Bool} (same : x.length = y.length) :
    absorb poly (a ^^^ b) (List.zipWith xor x y) = absorb poly a x ^^^ absorb poly b y := by
  induction x generalizing a b y with
  | nil =>
    cases y with
    | nil => rfl
    | cons => contradiction
  | cons s x ih =>
    cases y with
    | nil => contradiction
    | cons t y =>
      change absorb poly (shift poly (a ^^^ b) (s ^^ t)) (List.zipWith xor x y) = _
      rw [shift_xor]
      exact ih (shift poly a s) (shift poly b t) (Nat.succ.inj same)

/-- Whether two lines leave the same behind does not depend on what the register held. -/
theorem absorb_same (crc : BitVec w) {x y : List Bool} (same : x.length = y.length) :
    absorb poly crc x = absorb poly crc y ↔ absorb poly 0 x = absorb poly 0 y := by
  have differ (start : BitVec w) : absorb poly 0 (List.zipWith xor x y) = absorb poly start x ^^^ absorb poly start y := by
    rw [← absorb_xor start start same, BitVec.xor_self]
    rfl
  rw [← BitVec.xor_eq_zero_iff, ← differ crc, differ 0, BitVec.xor_eq_zero_iff]

theorem absorb_zero (n : Nat) : absorb poly 0 (List.replicate n false) = 0 := by
  induction n with
  | zero => rfl
  | succ n ih =>
    have still : shift poly 0 false = 0 := by simp [shift]
    rw [List.replicate_succ]
    change absorb poly (shift poly 0 false) (List.replicate n false) = 0
    rw [still, ih]

theorem shift_zero (top : poly.msb = true) {crc : BitVec w} (cleared : shift poly crc false = 0) : crc = 0 := by
  have wide : 0 < w := by
    rcases Nat.eq_zero_or_pos w with rfl | wide
    · simp [BitVec.eq_nil poly] at top
    · exact wide
  have out : (crc >>> 1).getLsbD (w - 1) = false := by
    rw [BitVec.getLsbD_ushiftRight]
    exact BitVec.getLsbD_of_ge crc _ (by omega)
  have low : crc.getLsbD 0 = false := by
    by_contra set
    rw [shift, if_pos (by simpa using set)] at cleared
    have last := congrArg (fun x => x.getLsbD (w - 1)) cleared
    rw [BitVec.msb_eq_getLsbD_last] at top
    simp [out, top] at last
  rw [shift, if_neg (by simp [low])] at cleared
  apply BitVec.eq_of_getLsbD_eq
  intro i _
  cases i with
  | zero => simpa using low
  | succ i =>
    have above := congrArg (fun x => x.getLsbD i) cleared
    simpa [BitVec.getLsbD_ushiftRight, Nat.add_comm] using above

theorem absorb_low (top : poly.msb = true) {n : Nat} {crc : BitVec w}
    (cleared : absorb poly crc (List.replicate n false) = 0) : crc = 0 := by
  induction n generalizing crc with
  | zero => exact cleared
  | succ n ih =>
    rw [List.replicate_succ] at cleared
    exact shift_zero top (ih cleared)

theorem loaded_getLsbD (sent : List Bool) (i : Nat) :
    (loaded w sent).getLsbD i = (decide (i < w) && sent.getD i false) := by
  rw [loaded, BitVec.getLsbD_setWidth, BitVec.getLsbD_ofBoolListLE]

private theorem shift_loaded (bit : Bool) {sent : List Bool} (fits : sent.length < w) :
    shift poly (loaded w (bit :: sent)) bit = loaded w sent := by
  have first : (loaded w (bit :: sent)).getLsbD 0 = bit := by
    rw [loaded_getLsbD]
    simp [show 0 < w by omega]
  rw [shift, first, if_neg (by simp)]
  apply BitVec.eq_of_getLsbD_eq
  intro i inside
  rw [BitVec.getLsbD_ushiftRight, loaded_getLsbD, loaded_getLsbD, Nat.add_comm, List.getD_cons_succ]
  by_cases last : i + 1 < w
  · simp [last, inside]
  · have beyond : sent[i]? = none := List.getElem?_eq_none (by omega)
    simp [beyond, last]

/-- Bits that fit into the register can be put there at once. -/
theorem absorb_loaded (crc : BitVec w) {sent : List Bool} (fits : sent.length ≤ w) :
    absorb poly crc sent = absorb poly (crc ^^^ loaded w sent) (List.replicate sent.length false) := by
  induction sent generalizing crc with
  | nil =>
    have none : loaded w [] = 0 := by
      apply BitVec.eq_of_getLsbD_eq
      intro i _
      rw [loaded_getLsbD]
      simp
    rw [none]
    exact congrArg (absorb poly · []) (BitVec.xor_zero).symm
  | cons bit sent ih =>
    have first : shift poly (crc ^^^ loaded w (bit :: sent)) false = shift poly crc bit ^^^ loaded w sent := by
      rw [← shift_loaded bit fits, ← shift_xor, Bool.xor_self]
    rw [List.length_cons, List.replicate_succ]
    change absorb poly (shift poly crc bit) sent = absorb poly (shift poly _ false) _
    rw [first]
    exact ih (shift poly crc bit) (Nat.le_of_lt fits)

/-- The checksum of a message with its checksum behind it is zero, and nothing else behind it has that effect. -/
theorem absorb_checksum (top : poly.msb = true) (crc : BitVec w) {sent : List Bool} (fits : sent.length ≤ w) :
    absorb poly crc sent = 0 ↔ loaded w sent = crc := by
  rw [absorb_loaded crc fits]
  constructor
  · intro cleared
    exact (BitVec.xor_eq_zero_iff.mp (absorb_low top cleared)).symm
  · intro same
    rw [same, BitVec.xor_self]
    exact absorb_zero sent.length

/-- All bits that are set stand in a stretch of `n`. -/
def Burst (n : Nat) (sent : List Bool) : Prop := ∃ start, ∀ i : Nat, sent[i]? = some true → start ≤ i ∧ i < start + n

private theorem low_stretch {sent : List Bool} (low : ∀ i : Nat, sent[i]? ≠ some true) : sent = List.replicate sent.length false := by
  refine List.eq_replicate_iff.mpr ⟨rfl,fun bit member => ?_⟩
  obtain ⟨i,found⟩ := List.mem_iff_getElem?.mp member
  cases bit with
  | true => exact absurd found (low i)
  | false => rfl

private theorem absorb_window (top : poly.msb = true) {window : List Bool} (short : window.length ≤ w) (some : true ∈ window)
    (before behind : Nat) :
    absorb poly 0 (List.replicate before false ++ (window ++ List.replicate behind false)) ≠ 0 := by
  intro cleared
  rw [absorb_append, absorb_append, absorb_zero] at cleared
  have burst : loaded w window = 0 := (absorb_checksum top 0 short).mp (absorb_low top cleared)
  obtain ⟨i,inside,set⟩ := List.mem_iff_getElem.mp some
  have bit := loaded_getLsbD (w := w) window i
  rw [burst, List.getD_eq_getElem?_getD, List.getElem?_eq_getElem inside, set] at bit
  simp [show i < w by omega] at bit

/-- A burst no longer than the register is noticed, wherever it stands. -/
theorem absorb_burst (top : poly.msb = true) {sent : List Bool} (burst : Burst w sent) (some : true ∈ sent) :
    absorb poly 0 sent ≠ 0 := by
  obtain ⟨start,stretch⟩ := burst
  have before : sent.take start = List.replicate (sent.take start).length false := by
    refine low_stretch fun i set => ?_
    rw [List.getElem?_take] at set
    split at set
    next inside => have := (stretch i set).1; omega
    next => contradiction
  have behind : (sent.drop start).drop w = List.replicate ((sent.drop start).drop w).length false := by
    refine low_stretch fun i set => ?_
    rw [List.getElem?_drop, List.getElem?_drop] at set
    have := (stretch _ set).2
    omega
  have parts : sent = sent.take start ++ ((sent.drop start).take w ++ (sent.drop start).drop w) := by
    rw [List.take_append_drop, List.take_append_drop]
  have inside : true ∈ (sent.drop start).take w := by
    rw [parts, List.mem_append, List.mem_append, before, behind] at some
    rcases some with first | window | last
    · exact absurd (List.eq_of_mem_replicate first) (by decide)
    · exact window
    · exact absurd (List.eq_of_mem_replicate last) (by decide)
  rw [parts, before, behind]
  exact absorb_window top (List.length_take_le _ _) inside _ _

end

end PulseFirmware.Lfsr
