import Mathlib.Tactic.IntervalCases
import PulseFirmware.Cmd

/-! What `ip_to_int` makes of an address in dotted notation, with any bytes behind it: the last
number goes on over the digits that follow. -/
namespace PulseFirmware
open PulseFirmware.CString

def digit (c : UInt8) : Bool := 48 ≤ c ∧ c ≤ 57

/-- A number read on over some digits, in the 16 bits of `n`. -/
def readOn (n : Int16) (digits : List UInt8) : Int16 :=
  digits.foldl (fun n c => n * 10 + (c - 48).toUInt16.toInt16) n

def decimal (digits : List UInt8) : Nat := digits.foldl (fun n c => n * 10 + (c.toNat - 48)) 0

structure Octet where
  digits : List UInt8
  nonempty : digits ≠ []
  numeric : ∀ c ∈ digits, digit c = true
  small : decimal digits < 256

def Octet.value (o : Octet) : UInt32 := .ofNat (decimal o.digits)

structure Dotted where
  a : Octet
  b : Octet
  c : Octet
  d : Octet

def Dotted.text (q : Dotted) : List UInt8 :=
  q.a.digits ++ 46 :: (q.b.digits ++ 46 :: (q.c.digits ++ 46 :: q.d.digits))

def Dotted.upTo (q : Dotted) (last : UInt32) : UInt32 :=
  swapBytes ((((0 * 256 + q.a.value) * 256 + q.b.value) * 256 + q.c.value) * 256 + last)

def Dotted.value (q : Dotted) : UInt32 := q.upTo q.d.value

def Dotted.last (q : Dotted) (stale : List UInt8) : Int16 := readOn (.ofNat (decimal q.d.digits)) stale

theorem ipOctet_step (last : Bool) {c : UInt8} (numeric : digit c = true) (rest : List UInt8) (n : Int16) (l : Bool) :
    ipOctet last (c :: rest) n l = ipOctet last rest (readOn n [c]) true := by
  rw [ipOctet, if_pos (of_decide_eq_true numeric)]
  rfl

theorem ipOctet_run (last : Bool) (digits rest : List UInt8) (numeric : ∀ c ∈ digits, digit c = true) (n : Int16) :
    ipOctet last (digits ++ rest) n true = ipOctet last rest (readOn n digits) true := by
  induction digits generalizing n with
  | nil => rfl
  | cons c digits ih =>
    rw [List.cons_append, ipOctet_step last (numeric c List.mem_cons_self),
      ih fun c' member => numeric c' (List.mem_cons_of_mem c member)]
    rfl

private theorem ipOctet_number (last : Bool) {digits : List UInt8} (nonempty : digits ≠ [])
    (numeric : ∀ c ∈ digits, digit c = true) {stop : UInt8} (ends : digit stop = false)
    (accepted : (last || stop == 46) = true) (rest : List UInt8) :
    ipOctet last (digits ++ stop :: rest) 0 false = .value (readOn 0 digits) rest := by
  have plain : ¬ (48 ≤ stop ∧ stop ≤ 57) := of_decide_eq_false ends
  have stopped : ipOctet last (stop :: rest) (readOn 0 digits) true = .value (readOn 0 digits) rest := by
    rw [ipOctet, if_neg plain, accepted]
    rfl
  cases digits with
  | nil => exact absurd rfl nonempty
  | cons c digits =>
    rw [List.cons_append, ipOctet_step last (numeric c List.mem_cons_self),
      ipOctet_run last digits _ fun c' member => numeric c' (List.mem_cons_of_mem c member)]
    exact stopped

private theorem digit_value {c : UInt8} (numeric : digit c = true) : (c - 48).toUInt16.toInt16 = .ofNat (c.toNat - 48) := by
  have low : (48 : UInt8) ≤ c := (of_decide_eq_true numeric).1
  have value : (c - 48).toUInt16 = .ofNat (c.toNat - 48) := by
    apply UInt16.toNat.inj
    have bound := c.toNat_lt
    rw [UInt8.toNat_toUInt16, UInt8.toNat_sub_of_le c 48 low, UInt16.toNat_ofNat_of_lt']
    · rfl
    · change c.toNat - 48 < 65536
      omega
  rw [value]
  rfl

private theorem readOn_fold (digits : List UInt8) (numeric : ∀ c ∈ digits, digit c = true) (n : Nat) :
    readOn (.ofNat n) digits = .ofNat (digits.foldl (fun n c => n * 10 + (c.toNat - 48)) n) := by
  induction digits generalizing n with
  | nil => rfl
  | cons c digits ih =>
    change readOn (Int16.ofNat n * 10 + (c - 48).toUInt16.toInt16) digits = _
    have step : Int16.ofNat n * 10 + Int16.ofNat (c.toNat - 48) = .ofNat (n * 10 + (c.toNat - 48)) := by
      rw [Int16.ofNat_add, Int16.ofNat_mul]
      rfl
    rw [digit_value (numeric c List.mem_cons_self), step]
    exact ih (fun c' member => numeric c' (List.mem_cons_of_mem c member)) _

theorem readOn_decimal {digits : List UInt8} (numeric : ∀ c ∈ digits, digit c = true) :
    readOn 0 digits = .ofNat (decimal digits) :=
  readOn_fold digits numeric 0

theorem octet_small {n : Nat} (small : n < 256) : ¬ (256 : Int16) ≤ .ofNat n := by
  rw [Int16.le_iff_toInt_le, Int16.toInt_ofNat_of_lt (by omega)]
  change ¬ (256 : Int) ≤ n
  omega

theorem octet_wide {n : Nat} (small : n < 256) : (Int16.ofNat n).toInt32.toUInt32 = .ofNat n := by
  rw [Int16.toInt32_ofNat' (by change (n : Int) ≤ 32767; omega)]
  rfl

private theorem ipOctets_dot (k : Nat) (v : UInt32) (o : Octet) (rest : List UInt8) :
    ipOctets (k + 2) v (o.digits ++ 46 :: rest) = ipOctets (k + 1) (v * 256 + o.value) rest := by
  rw [ipOctets, ipOctet_number _ o.nonempty o.numeric (by decide) (by simp), readOn_decimal o.numeric]
  dsimp only
  rw [if_neg (octet_small o.small), octet_wide o.small]
  rfl

private theorem ipOctets_last (v : UInt32) (o : Octet) {stale : List UInt8} (numeric : ∀ c ∈ stale, digit c = true)
    {stop : UInt8} (ends : digit stop = false) (rest : List UInt8) :
    ipOctets 1 v (o.digits ++ (stale ++ stop :: rest)) =
      if 256 ≤ readOn (.ofNat (decimal o.digits)) stale then .invalid
      else .value (v * 256 + (readOn (.ofNat (decimal o.digits)) stale).toInt32.toUInt32) rest := by
  have numerics : ∀ c ∈ o.digits ++ stale, digit c = true := by
    intro c member
    rcases List.mem_append.mp member with first | second
    · exact o.numeric c first
    · exact numeric c second
  have value : readOn 0 (o.digits ++ stale) = readOn (.ofNat (decimal o.digits)) stale := by
    rw [readOn, List.foldl_append, ← readOn_decimal o.numeric]
    rfl
  rw [ipOctets, ← List.append_assoc,
    ipOctet_number _ (by simp [o.nonempty]) numerics ends rfl, value]
  dsimp only
  split <;> rfl

theorem ipToInt_off {start : List UInt8} (off : ipOctets 4 0 start = .off) : ipToInt start = none := by rw [ipToInt, off]

theorem ipToInt_invalid {start : List UInt8} (invalid : ipOctets 4 0 start = .invalid) : ipToInt start = some (0,start) := by
  rw [ipToInt, invalid]

theorem ipToInt_value {start : List UInt8} {v : UInt32} {rest : List UInt8} (value : ipOctets 4 0 start = .value v rest) :
    ipToInt start = some (swapBytes v,rest) := by rw [ipToInt, value]

/-- An address with digits behind it, and a byte that is none. -/
theorem ipToInt_text (q : Dotted) {stale : List UInt8} (numeric : ∀ c ∈ stale, digit c = true) {stop : UInt8}
    (ends : digit stop = false) (rest : List UInt8) :
    ipToInt (q.text ++ (stale ++ stop :: rest)) =
      if 256 ≤ q.last stale then some (0,q.text ++ (stale ++ stop :: rest))
      else some (q.upTo (q.last stale).toInt32.toUInt32,rest) := by
  have start : q.text ++ (stale ++ stop :: rest) =
      q.a.digits ++ 46 :: (q.b.digits ++ 46 :: (q.c.digits ++ 46 :: (q.d.digits ++ (stale ++ stop :: rest)))) := by
    simp [Dotted.text]
  unfold ipToInt
  rw [start, ipOctets_dot, ipOctets_dot, ipOctets_dot, ipOctets_last _ _ numeric ends, ← start]
  unfold Dotted.last
  split
  next found =>
    split at found <;> contradiction
  next found =>
    split at found
    next => rw [if_pos ‹_›]
    next => contradiction
  next found =>
    split at found
    next => contradiction
    next =>
      cases found
      rw [if_neg ‹_›]
      rfl

theorem ipToInt_exact (q : Dotted) {stop : UInt8} (ends : digit stop = false) (rest : List UInt8) :
    ipToInt (q.text ++ stop :: rest) = some (q.value,rest) := by
  have none : ∀ c ∈ ([] : List UInt8), digit c = true := fun _ member => nomatch member
  have read := ipToInt_text q none ends rest
  have last : q.last [] = .ofNat (decimal q.d.digits) := rfl
  rw [last, if_neg (octet_small q.d.small), octet_wide q.d.small] at read
  exact read

theorem swapBytes_bit (v : UInt32) {i : Nat} (inside : i < 32) :
    (swapBytes v).toBitVec.getLsbD i = v.toBitVec.getLsbD (8 * (3 - i / 8) + i % 8) := by
  change (((v.toBitVec &&& 0xff#32) <<< 24) ||| ((v.toBitVec &&& 0xff00#32) <<< 8) |||
    ((v.toBitVec &&& 0xff0000#32) >>> 8) ||| ((v.toBitVec &&& 0xff000000#32) >>> 24)).getLsbD i = _
  interval_cases i <;> simp

theorem swapBytes_injective {v w : UInt32} (same : swapBytes v = swapBytes w) : v = w := by
  apply UInt32.eq_of_toBitVec_eq
  apply BitVec.eq_of_getLsbD_eq
  intro i inside
  have place : 8 * (3 - (8 * (3 - i / 8) + i % 8) / 8) + (8 * (3 - i / 8) + i % 8) % 8 = i := by omega
  have bits := congrArg (fun v => v.toBitVec.getLsbD (8 * (3 - i / 8) + i % 8)) same
  simpa only [swapBytes_bit _ (show 8 * (3 - i / 8) + i % 8 < 32 by omega), place] using bits

private theorem wide_injective {m n : Int16} (same : m.toInt32.toUInt32 = n.toInt32.toUInt32) : m = n := by
  have signed := congrArg UInt32.toInt32 same
  simpa using congrArg Int32.toInt16 signed

theorem last_exact (q : Dotted) (stale : List UInt8) :
    (if 256 ≤ q.last stale then 0 else q.upTo (q.last stale).toInt32.toUInt32) = q.value ↔
      q.last stale = .ofNat (decimal q.d.digits) ∨ (256 ≤ q.last stale ∧ q.value = 0) := by
  split
  next large =>
    constructor
    · exact fun zero => Or.inr ⟨large,zero.symm⟩
    · rintro (same | ⟨-,zero⟩)
      · exact absurd (same ▸ large) (octet_small q.d.small)
      · exact zero.symm
  next small =>
    rw [or_iff_left fun both => small both.1]
    constructor
    · intro same
      have last := (UInt32.add_right_inj _).mp (swapBytes_injective same)
      exact wide_injective (last.trans (octet_wide q.d.small).symm)
    · intro same
      rw [same, octet_wide q.d.small]
      rfl

end PulseFirmware
