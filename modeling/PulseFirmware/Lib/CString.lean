import Mathlib.Data.Vector.Basic
import Mathlib.Data.List.TakeWhile

/-! C byte arrays of a declared size and the string functions that work on them.
A copy that would leave its destination is cut off here; callers that can reach one
check for it first, since C gives it no meaning. -/
namespace PulseFirmware.CString

abbrev Bytes (n : Nat) := List.Vector UInt8 n

def ascii (text : String) : List UInt8 := text.toList.map (fun c => c.toNat.toUInt8)

theorem ascii_append (a b : String) : ascii (a ++ b) = ascii a ++ ascii b := by
  simp only [ascii, String.toList_append, List.map_append]

def literal (text : String) : List UInt8 := ascii text ++ [0]

def zeros (n : Nat) : Bytes n := List.Vector.replicate n 0

def memcpyAt {n : Nat} (dst : Bytes n) (off : Nat) (src : List UInt8) : Bytes n :=
  ⟨(dst.toList.take off ++ src ++ dst.toList.drop (off + src.length)).take n, by
    have size := dst.toList_length
    simp only [List.length_take, List.length_append, List.length_drop, size]
    omega⟩

def memcpy {n : Nat} (dst : Bytes n) (src : List UInt8) : Bytes n := memcpyAt dst 0 src

def slice (mem : List UInt8) (off count : Nat) : List UInt8 := (mem.drop off).take count

def strncmpEq : List UInt8 → List UInt8 → Nat → Bool
  | _, _, 0 => true
  | a :: as, b :: bs, n + 1 => a == b && (a == 0 || strncmpEq as bs n)
  | _, _, _ + 1 => false

def strcmpEq (a b : List UInt8) : Bool := strncmpEq a b b.length

def chars (mem : List UInt8) : List UInt8 := mem.takeWhile (· ≠ 0)

def strlen (mem : List UInt8) : Nat := (chars mem).length

/-- `strcpy`, which has no meaning when the source has no terminator or does not fit. -/
def strcpy {n : Nat} (dst : Bytes n) (src : List UInt8) : Option (Bytes n) :=
  if 0 ∈ src ∧ strlen src < n then some (memcpy dst (chars src ++ [0])) else none

def strcpyLit {n : Nat} (dst : Bytes n) (text : String) : Bytes n := memcpy dst (literal text)

theorem memcpy_toList {n : Nat} (dst : Bytes n) (src : List UInt8) (fits : src.length ≤ n) :
    (memcpy dst src).toList = src ++ dst.toList.drop src.length := by
  have size := dst.toList_length
  have whole : (src ++ dst.toList.drop src.length).length = n := by
    simp only [List.length_append, List.length_drop, size]
    omega
  change (([] ++ src ++ dst.toList.drop (0 + src.length)).take n) = _
  rw [List.nil_append, Nat.zero_add]
  exact List.take_of_length_le (by omega)

theorem memcpy_full {n : Nat} (dst : Bytes n) (src : List UInt8) (size : src.length = n) :
    (memcpy dst src).toList = src := by
  rw [memcpy_toList dst src (by omega), List.drop_eq_nil_of_le (by rw [dst.toList_length]; omega),
    List.append_nil]

theorem memcpy_take {n : Nat} (dst : Bytes n) (src : List UInt8) (fits : src.length ≤ n) :
    (memcpy dst src).toList.take src.length = src := by
  rw [memcpy_toList dst src fits, List.take_left]

theorem memcpy_starts {n : Nat} (dst : Bytes n) (src : List UInt8) (fits : src.length ≤ n) :
    src <+: (memcpy dst src).toList := by
  rw [memcpy_toList dst src fits]
  exact List.prefix_append _ _

theorem memcpy_terminated {n : Nat} (dst : Bytes n) (src : List UInt8) (fits : src.length < n) :
    0 ∈ (memcpy dst (src ++ [0])).toList := by
  rw [memcpy_toList dst _ (by rw [List.length_append]; exact fits)]
  simp

theorem strncmpEq_append {word : List UInt8} (printable : 0 ∉ word) (mem rest : List UInt8) :
    strncmpEq mem (word ++ rest) word.length = true ↔ word <+: mem := by
  induction word generalizing mem with
  | nil => simp [strncmpEq]
  | cons b word ih =>
    have nonzero : b ≠ 0 := fun zero => printable (by simp [zero])
    have tail : 0 ∉ word := fun member => printable (by simp [member])
    cases mem with
    | nil => simp [strncmpEq]
    | cons a mem =>
      simp only [List.cons_append, List.length_cons, strncmpEq, Bool.and_eq_true, beq_iff_eq,
        Bool.or_eq_true, List.cons_prefix_cons]
      constructor
      · rintro ⟨rfl, zero | rest⟩
        · exact absurd zero nonzero
        · exact ⟨rfl, (ih tail mem).mp rest⟩
      · rintro ⟨rfl, rest⟩
        exact ⟨rfl, Or.inr ((ih tail mem).mpr rest)⟩

theorem strncmpEq_take (mem word : List UInt8) {n m : Nat} (bound : n ≤ m) :
    strncmpEq (mem.take m) word n = strncmpEq mem word n := by
  induction n generalizing mem word m with
  | zero => simp [strncmpEq]
  | succ n ih =>
    obtain ⟨m,rfl⟩ : ∃ k, m = k + 1 := ⟨m - 1,by omega⟩
    cases mem with
    | nil => rfl
    | cons a mem =>
      cases word with
      | nil => rfl
      | cons b word => rw [List.take_succ_cons, strncmpEq, strncmpEq, ih mem word (by omega)]

theorem strcmpEq_terminated {word : List UInt8} (printable : 0 ∉ word) (mem : List UInt8) :
    strcmpEq mem (word ++ [0]) = true ↔ word ++ [0] <+: mem := by
  induction word generalizing mem with
  | nil =>
    cases mem with
    | nil => simp [strcmpEq, strncmpEq]
    | cons a mem =>
      have terminator : (0 : UInt8) = a ↔ a = 0 := eq_comm
      simp [strcmpEq, strncmpEq, List.cons_prefix_cons, terminator]
  | cons b word ih =>
    have nonzero : b ≠ 0 := fun zero => printable (by simp [zero])
    have tail : 0 ∉ word := fun member => printable (by simp [member])
    cases mem with
    | nil => simp [strcmpEq, strncmpEq]
    | cons a mem =>
      have step := ih tail mem
      simp only [strcmpEq] at step
      simp only [strcmpEq, List.cons_append, List.length_cons, strncmpEq, Bool.and_eq_true, beq_iff_eq,
        Bool.or_eq_true, List.cons_prefix_cons]
      constructor
      · rintro ⟨rfl, zero | rest⟩
        · exact absurd zero nonzero
        · exact ⟨rfl, step.mp rest⟩
      · rintro ⟨rfl, rest⟩
        exact ⟨rfl, Or.inr (step.mpr rest)⟩

theorem strlen_le (mem : List UInt8) : strlen mem ≤ mem.length := (List.takeWhile_prefix _).length_le

theorem chars_append_stop (word rest : List UInt8) : chars (word ++ 0 :: rest) = chars word := by
  induction word with
  | nil => rfl
  | cons b word ih =>
    by_cases zero : b = 0
    · subst zero
      rfl
    · simp only [chars, List.cons_append] at ih ⊢
      rw [List.takeWhile_cons_of_pos (by simpa using zero), List.takeWhile_cons_of_pos (by simpa using zero), ih]

theorem chars_append_zero (word rest : List UInt8) (printable : 0 ∉ word) :
    chars (word ++ 0 :: rest) = word := by
  rw [chars_append_stop]
  refine List.takeWhile_eq_self_iff.mpr fun b member => ?_
  exact decide_eq_true fun zero => printable (zero ▸ member)

theorem zero_notMem_chars (mem : List UInt8) : 0 ∉ chars mem := by
  intro member
  have nonzero := List.all_takeWhile (p := fun b : UInt8 => decide (b ≠ 0)) (l := mem)
  simpa using List.all_eq_true.mp nonzero 0 member

theorem chars_starts {mem : List UInt8} (terminated : 0 ∈ mem) : chars mem ++ [0] <+: mem := by
  induction mem with
  | nil => contradiction
  | cons b mem ih =>
    by_cases zero : b = 0
    · subst zero
      exact List.prefix_append [0] mem
    · have rest : 0 ∈ mem := (List.mem_cons.mp terminated).resolve_left fun same => zero same.symm
      have grown : chars (b :: mem) = b :: chars mem := List.takeWhile_cons_of_pos (by simpa using zero)
      rw [grown, List.cons_append]
      exact List.cons_prefix_cons.mpr ⟨rfl,ih rest⟩

theorem strcpy_chars {n : Nat} {dst result : Bytes n} {src : List UInt8}
    (copied : strcpy dst src = some result) : chars result.toList = chars src := by
  unfold strcpy at copied
  split at copied
  next fits =>
    cases Option.some.inj copied
    have bound : (chars src ++ [0]).length ≤ n := by simpa [strlen] using Nat.succ_le_of_lt fits.2
    rw [memcpy_toList dst _ bound, List.append_assoc]
    exact chars_append_zero _ _ (zero_notMem_chars src)
  next => contradiction

theorem strcpyLit_starts {n : Nat} (dst : Bytes n) (text : String) (fits : (literal text).length ≤ n) :
    literal text <+: (strcpyLit dst text).toList := by
  rw [strcpyLit, memcpy_toList dst _ fits]
  exact List.prefix_append _ _

end PulseFirmware.CString
