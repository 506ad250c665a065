import Mathlib.Data.List.Basic
import Mathlib.Data.Nat.Bitwise

/-! Bytes as the bits of a serial line, the least significant bit of each byte first. -/
namespace PulseFirmware.Bits

def byteBits (b : UInt8) : List Bool := (List.range 8).map b.toNat.testBit

def bits (bytes : List UInt8) : List Bool := bytes.flatMap byteBits

@[simp] theorem byteBits_length (b : UInt8) : (byteBits b).length = 8 := rfl

theorem byteBits_getElem (b : UInt8) (i : Nat) (inside : i < 8) :
    (byteBits b)[i]? = some (b.toNat.testBit i) := by
  rw [byteBits, List.getElem?_map, List.getElem?_range inside]
  rfl

@[simp] theorem bits_nil : bits [] = [] := rfl

theorem bits_cons (b : UInt8) (bytes : List UInt8) : bits (b :: bytes) = byteBits b ++ bits bytes := rfl

theorem bits_append (bytes more : List UInt8) : bits (bytes ++ more) = bits bytes ++ bits more := by
  rw [bits, List.flatMap_append]
  rfl

@[simp] theorem bits_length (bytes : List UInt8) : (bits bytes).length = 8 * bytes.length := by
  induction bytes with
  | nil => rfl
  | cons b bytes ih =>
    rw [bits_cons, List.length_append, byteBits_length, ih, List.length_cons]
    omega

theorem byteBits_xor (a b : UInt8) : byteBits (a ^^^ b) = List.zipWith xor (byteBits a) (byteBits b) := by
  apply List.ext_getElem?
  intro i
  rw [List.getElem?_zipWith]
  by_cases inside : i < 8
  · rw [byteBits_getElem _ _ inside, byteBits_getElem _ _ inside, byteBits_getElem _ _ inside, UInt8.toNat_xor,
      Nat.testBit_xor]
  · have none (c : UInt8) : (byteBits c)[i]? = none := List.getElem?_eq_none (Nat.not_lt.mp inside)
    rw [none, none, none]

theorem bits_xor {a b : List UInt8} (same : a.length = b.length) :
    bits (List.zipWith (· ^^^ ·) a b) = List.zipWith xor (bits a) (bits b) := by
  induction a generalizing b with
  | nil => rfl
  | cons x a ih =>
    cases b with
    | nil => contradiction
    | cons y b =>
      rw [List.zipWith_cons_cons, bits_cons, bits_cons, bits_cons, List.zipWith_append (by rfl),
        byteBits_xor, ih (Nat.succ.inj same)]

theorem bits_getElem (bytes : List UInt8) (p : Nat) {i : Nat} (low : i < 8) :
    (bits bytes)[8 * p + i]? = bytes[p]?.map fun b => b.toNat.testBit i := by
  induction bytes generalizing p with
  | nil => rfl
  | cons b bytes ih =>
    rw [bits_cons]
    cases p with
    | zero => rw [List.getElem?_append_left (by simpa using low), Nat.mul_zero, Nat.zero_add, byteBits_getElem b i low]; rfl
    | succ p =>
      have behind : 8 * (p + 1) + i - (byteBits b).length = 8 * p + i := by rw [byteBits_length]; omega
      rw [List.getElem?_append_right (by rw [byteBits_length]; omega), behind, ih, List.getElem?_cons_succ]

theorem bits_set {bytes : List UInt8} {p i : Nat} (inside : p < bytes.length) (low : i < 8) :
    bits (bytes.set p (bytes[p] ||| UInt8.ofNat (1 <<< i))) = (bits bytes).set (8 * p + i) true := by
  have small : 1 <<< i < 2 ^ 8 := by rw [Nat.one_shiftLeft]; exact Nat.pow_lt_pow_right (by decide) low
  have byte (j : Nat) : (bytes[p] ||| UInt8.ofNat (1 <<< i)).toNat.testBit j = (bytes[p].toNat.testBit j || decide (i = j)) := by
    rw [UInt8.toNat_or, UInt8.toNat_ofNat_of_lt' small, Nat.testBit_or, Nat.one_shiftLeft, Nat.testBit_two_pow]
  apply List.ext_getElem?
  intro k
  obtain ⟨q,j,below,rfl⟩ : ∃ q j, j < 8 ∧ k = 8 * q + j := ⟨k / 8,k % 8,Nat.mod_lt _ (by decide),by omega⟩
  rw [bits_getElem _ _ below, List.getElem?_set, List.getElem?_set, bits_getElem _ _ below, bits_length]
  by_cases there : p = q
  · subst there
    rw [if_pos rfl, if_pos inside, List.getElem?_eq_getElem inside, Option.map_some, byte]
    by_cases same : i = j
    · subst same
      rw [if_pos rfl, if_pos (by omega), decide_eq_true rfl, Bool.or_true]
    · rw [if_neg (by omega), decide_eq_false same, Bool.or_false]
      rfl
  · rw [if_neg there, if_neg (by omega)]

end PulseFirmware.Bits
