import PulseFirmware.AddressText
import PulseFirmware.Settings

/-! The strings `ip_to_int` takes for an address, against the grammar of four numbers up to 255
with dots between them. Runs of digits may be of any length, the accumulator has 16 bits. -/
namespace PulseFirmware
open PulseFirmware.CString

def Digits (run : List UInt8) : Prop := run ≠ [] ∧ ∀ c ∈ run, digit c = true

/-- Runs with a dot behind each but the last, and the byte behind the last. -/
def written (stop : UInt8) : List (List UInt8) → List UInt8
  | [] => []
  | [run] => run ++ [stop]
  | run :: next :: runs => run ++ 46 :: written stop (next :: runs)

/-- The string starts with `n` numbers in dotted form. -/
structure Numbers (n : Nat) (start : List UInt8) (runs : List (List UInt8)) (stop : UInt8) (rest : List UInt8) : Prop where
  count : runs.length = n
  digits : ∀ run ∈ runs, Digits run
  ends : digit stop = false
  text : start = written stop runs ++ rest

/-- The runs are the numbers of an address other than 0.0.0.0. -/
def Valid (runs : List (List UInt8)) : Prop := (∀ run ∈ runs, decimal run ≤ 255) ∧ ∃ run ∈ runs, decimal run ≠ 0

/-- What the grammar asks of `ip_to_int`. -/
def Grammatical (start : List UInt8) : Prop :=
  (∀ runs stop rest, Numbers 4 start runs stop rest → Valid runs →
    ∃ v, ipToInt start = some (v,rest) ∧ v ≠ 0 ∧ word v = runs.map fun run => .ofNat (decimal run)) ∧
  ((¬ ∃ runs stop rest, Numbers 4 start runs stop rest ∧ Valid runs) → ipToInt start = some (0,start))

/-- The string ends within the first `n` numbers, with none before that is 256 or more in 16 bits. -/
def RunsOff (n : Nat) (start : List UInt8) : Prop :=
  ∃ (done : List (List UInt8)) (last : List UInt8), done.length < n ∧
    (∀ run ∈ done, Digits run ∧ readOn 0 run < 256) ∧ (∀ c ∈ last, digit c = true) ∧
    start = done.flatMap (· ++ [46]) ++ last

private theorem split_run (start : List UInt8) :
    (∀ c ∈ start, digit c = true) ∨
      ∃ run stop rest, (∀ c ∈ run, digit c = true) ∧ digit stop = false ∧ start = run ++ stop :: rest := by
  induction start with
  | nil => exact .inl fun _ member => nomatch member
  | cons c start ih =>
    cases numeric : digit c with
    | false => exact .inr ⟨[],c,start,(fun _ member => nomatch member),numeric,rfl⟩
    | true =>
      rcases ih with all | ⟨run,stop,rest,digits,ends,rfl⟩
      · exact .inl (List.forall_mem_cons.mpr ⟨numeric,all⟩)
      · exact .inr ⟨c :: run,stop,rest,List.forall_mem_cons.mpr ⟨numeric,digits⟩,ends,rfl⟩

private theorem run_taken {run rest : List UInt8} {stop : UInt8} (digits : ∀ c ∈ run, digit c = true)
    (ends : digit stop = false) : (run ++ stop :: rest).takeWhile digit = run := by
  rw [List.takeWhile_append_of_pos digits, List.takeWhile_cons_of_neg (by simp [ends]), List.append_nil]

private theorem run_unique {run run' rest rest' : List UInt8} {stop stop' : UInt8} (digits : ∀ c ∈ run, digit c = true)
    (digits' : ∀ c ∈ run', digit c = true) (ends : digit stop = false) (ends' : digit stop' = false)
    (same : run ++ stop :: rest = run' ++ stop' :: rest') : run = run' ∧ stop = stop' ∧ rest = rest' := by
  have taken := congrArg (List.takeWhile digit) same
  rw [run_taken digits ends, run_taken digits' ends'] at taken
  subst taken
  exact ⟨rfl,List.cons.inj (List.append_cancel_left same)⟩

private theorem not_all {run rest : List UInt8} {stop : UInt8} (ends : digit stop = false) :
    ¬ ∀ c ∈ run ++ stop :: rest, digit c = true := by
  intro all
  have numeric := all stop (List.mem_append_right run List.mem_cons_self)
  exact Bool.noConfusion (ends.symm.trans numeric)

private theorem ipOctet_digits (last : Bool) {run : List UInt8} (digits : ∀ c ∈ run, digit c = true) (rest : List UInt8) :
    ipOctet last (run ++ rest) 0 false = ipOctet last rest (readOn 0 run) (decide (run ≠ [])) := by
  cases run with
  | nil => rfl
  | cons c run =>
    rw [List.cons_append, ipOctet_step last (digits c List.mem_cons_self),
      ipOctet_run last run rest fun c' member => digits c' (List.mem_cons_of_mem c member)]
    rfl

private theorem ipOctet_off (last : Bool) {run : List UInt8} (digits : ∀ c ∈ run, digit c = true) :
    ipOctet last run 0 false = .off := by
  have read := ipOctet_digits last digits []
  rw [List.append_nil] at read
  rw [read]
  rfl

private theorem ipOctet_stop (last : Bool) {run : List UInt8} (digits : ∀ c ∈ run, digit c = true) {stop : UInt8}
    (ends : digit stop = false) (rest : List UInt8) :
    ipOctet last (run ++ stop :: rest) 0 false =
      if (last = true ∨ stop = 46) ∧ run ≠ [] then .value (readOn 0 run) rest else .invalid := by
  have plain : ¬ (48 ≤ stop ∧ stop ≤ 57) := of_decide_eq_false ends
  rw [ipOctet_digits last digits, ipOctet, if_neg plain]
  simp only [Bool.and_eq_true, Bool.or_eq_true, beq_iff_eq, decide_eq_true_eq]

section
variable {run rest : List UInt8} {stop : UInt8}

private theorem numbers_last (digits : ∀ c ∈ run, digit c = true) (ends : digit stop = false) {runs : List (List UInt8)}
    {stop' : UInt8} {rest' : List UInt8}
    (numbers : Numbers 1 (run ++ stop :: rest) runs stop' rest') : runs = [run] ∧ stop' = stop ∧ rest' = rest ∧ run ≠ [] := by
  obtain ⟨only,rfl⟩ := List.length_eq_one_iff.mp numbers.count
  obtain ⟨nonempty,digits'⟩ := numbers.digits only List.mem_cons_self
  have text : run ++ stop :: rest = only ++ stop' :: rest' := by
    rw [numbers.text, written, List.append_assoc]
    rfl
  obtain ⟨rfl,rfl,rfl⟩ := run_unique digits digits' ends numbers.ends text
  exact ⟨rfl,rfl,rfl,nonempty⟩

private theorem numbers_next (digits : ∀ c ∈ run, digit c = true) (ends : digit stop = false) {k : Nat}
    {runs : List (List UInt8)} {stop' : UInt8} {rest' : List UInt8}
    (numbers : Numbers (k + 2) (run ++ stop :: rest) runs stop' rest') :
    stop = 46 ∧ run ≠ [] ∧ ∃ runs', runs = run :: runs' ∧ Numbers (k + 1) rest runs' stop' rest' := by
  obtain ⟨count,all,last,text⟩ := numbers
  match runs, count with
  | first :: next :: runs, count =>
    obtain ⟨nonempty,digits'⟩ := all first List.mem_cons_self
    rw [written, List.append_assoc, List.cons_append] at text
    obtain ⟨rfl,rfl,rfl⟩ := run_unique digits digits' ends (by decide) text
    refine ⟨rfl,nonempty,next :: runs,rfl,?_,fun run member => all run (List.mem_cons_of_mem _ member),last,rfl⟩
    exact Nat.succ.inj count

private theorem numbers_cons (digits : ∀ c ∈ run, digit c = true) (nonempty : run ≠ []) {k : Nat} {runs : List (List UInt8)}
    {stop' : UInt8} {rest' : List UInt8}
    (numbers : Numbers (k + 1) rest runs stop' rest') :
    Numbers (k + 2) (run ++ 46 :: rest) (run :: runs) stop' rest' := by
  obtain ⟨count,all,last,text⟩ := numbers
  match runs, count with
  | next :: runs, count =>
    refine ⟨congrArg Nat.succ count,List.forall_mem_cons.mpr ⟨⟨nonempty,digits⟩,all⟩,last,?_⟩
    rw [written, List.append_assoc, List.cons_append, ← text]

private theorem runsOff_next (digits : ∀ c ∈ run, digit c = true) (ends : digit stop = false) {k : Nat} :
    RunsOff (k + 1) (run ++ stop :: rest) ↔ stop = 46 ∧ run ≠ [] ∧ readOn 0 run < 256 ∧ RunsOff k rest := by
  constructor
  · rintro ⟨before,last,count,passed,numeric,text⟩
    cases before with
    | nil =>
      rw [List.flatMap_nil, List.nil_append] at text
      exact absurd (text ▸ numeric) (not_all ends)
    | cons first before =>
      obtain ⟨⟨nonempty,digits'⟩,small⟩ := passed first List.mem_cons_self
      rw [List.flatMap_cons, List.append_assoc, List.append_assoc] at text
      obtain ⟨rfl,rfl,rfl⟩ := run_unique digits digits' ends (by decide) text
      exact ⟨rfl,nonempty,small,before,last,Nat.lt_of_succ_lt_succ count,
        fun run member => passed run (List.mem_cons_of_mem _ member),numeric,rfl⟩
  · rintro ⟨rfl,nonempty,small,before,last,count,passed,numeric,rfl⟩
    refine ⟨run :: before,last,Nat.succ_lt_succ count,List.forall_mem_cons.mpr ⟨⟨⟨nonempty,digits⟩,small⟩,passed⟩,numeric,?_⟩
    simp

end

private theorem runsOff_all {run : List UInt8} (digits : ∀ c ∈ run, digit c = true) (k : Nat) : RunsOff (k + 1) run :=
  ⟨[],run,Nat.succ_pos k,(fun _ member => nomatch member),digits,rfl⟩

/-- The first `n` numbers are not there, or one of them is 256 or more in 16 bits. -/
private def Refused (n : Nat) (start : List UInt8) : Prop :=
  ¬ RunsOff n start ∧ ∀ runs stop rest, Numbers n start runs stop rest → ∃ run ∈ runs, 256 ≤ readOn 0 run

private theorem ipOctets_first (k : Nat) (v : UInt32) (start : List UInt8) :
    (ipOctets (k + 1) v start = .off ∧ RunsOff (k + 1) start) ∨
    (ipOctets (k + 1) v start = .invalid ∧ Refused (k + 1) start) ∨
    ∃ run stop rest, (∀ c ∈ run, digit c = true) ∧ digit stop = false ∧ start = run ++ stop :: rest ∧
      (k = 0 ∨ stop = 46) ∧ run ≠ [] ∧ readOn 0 run < 256 ∧
      ipOctets (k + 1) v start = ipOctets k (v * 256 + (readOn 0 run).toInt32.toUInt32) rest := by
  rw [ipOctets]
  rcases split_run start with all | ⟨run,stop,rest,digits,ends,rfl⟩
  · rw [ipOctet_off _ all]
    exact .inl ⟨rfl,runsOff_all all k⟩
  · rw [ipOctet_stop _ digits ends]
    by_cases accepted : ((k == 0) = true ∨ stop = 46) ∧ run ≠ []
    · rw [if_pos accepted]
      dsimp only
      split
      next large =>
        refine .inr (.inl ⟨rfl,?_,?_⟩)
        · intro off
          exact Int16.not_le.mpr ((runsOff_next digits ends).mp off).2.2.1 large
        · intro runs stop' rest' numbers
          cases k with
          | zero => exact ⟨run,(numbers_last digits ends numbers).1 ▸ List.mem_cons_self,large⟩
          | succ k =>
            obtain ⟨_,_,runs',rfl,_⟩ := numbers_next digits ends numbers
            exact ⟨run,List.mem_cons_self,large⟩
      next small =>
        exact .inr (.inr ⟨run,stop,rest,digits,ends,rfl,accepted.1.imp_left eq_of_beq,accepted.2,Int16.not_le.mp small,rfl⟩)
    · rw [if_neg accepted]
      refine .inr (.inl ⟨rfl,?_,?_⟩)
      · intro off
        obtain ⟨dot,nonempty,_⟩ := (runsOff_next digits ends).mp off
        exact accepted ⟨.inr dot,nonempty⟩
      · intro runs stop' rest' numbers
        cases k with
        | zero => exact absurd ⟨.inl rfl,(numbers_last digits ends numbers).2.2.2⟩ accepted
        | succ k =>
          obtain ⟨dot,nonempty,_⟩ := numbers_next digits ends numbers
          exact absurd ⟨.inr dot,nonempty⟩ accepted

private theorem ipOctets_scan (k : Nat) (v : UInt32) (start : List UInt8) :
    (ipOctets (k + 1) v start = .off ∧ RunsOff (k + 1) start) ∨
    (ipOctets (k + 1) v start = .invalid ∧ Refused (k + 1) start) ∨
    ∃ runs stop rest, Numbers (k + 1) start runs stop rest ∧ (∀ run ∈ runs, readOn 0 run < 256) ∧
      ¬ RunsOff (k + 1) start ∧
      ipOctets (k + 1) v start = .value (runs.foldl (fun v run => v * 256 + (readOn 0 run).toInt32.toUInt32) v) rest := by
  induction k generalizing v start with
  | zero =>
    rcases ipOctets_first 0 v start with off | refused | ⟨run,stop,rest,digits,ends,rfl,_,nonempty,small,read⟩
    · exact .inl off
    · exact .inr (.inl refused)
    · refine .inr (.inr ⟨[run],stop,rest,⟨rfl,?_,ends,?_⟩,?_,?_,read⟩)
      · exact List.forall_mem_singleton.mpr ⟨nonempty,digits⟩
      · rw [written, List.append_assoc]
        rfl
      · exact List.forall_mem_singleton.mpr small
      · intro off
        obtain ⟨_,_,_,_,_,count,_⟩ := (runsOff_next digits ends).mp off
        exact Nat.not_lt_zero _ count
  | succ k ih =>
    rcases ipOctets_first (k + 1) v start with off | refused | ⟨run,stop,rest,digits,ends,rfl,dot,nonempty,small,read⟩
    · exact .inl off
    · exact .inr (.inl refused)
    · have dot : stop = 46 := dot.resolve_left (Nat.succ_ne_zero k)
      subst dot
      rw [read]
      rcases ih (v * 256 + (readOn 0 run).toInt32.toUInt32) rest with ⟨off,runs⟩ | ⟨invalid,stays,large⟩ | ⟨runs,stop,rest',numbers,smalls,stays,found⟩
      · exact .inl ⟨off,(runsOff_next digits ends).mpr ⟨rfl,nonempty,small,runs⟩⟩
      · refine .inr (.inl ⟨invalid,fun off => stays ((runsOff_next digits ends).mp off).2.2.2,?_⟩)
        intro runs stop' rest' numbers
        obtain ⟨_,_,runs',rfl,later⟩ := numbers_next digits ends numbers
        obtain ⟨run',member,big⟩ := large runs' stop' rest' later
        exact ⟨run',List.mem_cons_of_mem run member,big⟩
      · refine .inr (.inr ⟨run :: runs,stop,rest',numbers_cons digits nonempty numbers,?_,?_,found⟩)
        · exact List.forall_mem_cons.mpr ⟨small,smalls⟩
        · exact fun off => stays ((runsOff_next digits ends).mp off).2.2.2

private theorem numbers_split {k : Nat} {start rest : List UInt8} {runs : List (List UInt8)} {stop : UInt8}
    (numbers : Numbers (k + 1) start runs stop rest) :
    ∃ run first behind, (∀ c ∈ run, digit c = true) ∧ digit first = false ∧ start = run ++ first :: behind ∧
      behind.length < start.length ∧ rest <:+ behind := by
  obtain ⟨count,digits,ends,rfl⟩ := numbers
  match runs, count with
  | [run], _ =>
    refine ⟨run,stop,rest,(digits run List.mem_cons_self).2,ends,by simp [written],?_,List.suffix_rfl⟩
    simp only [written, List.length_append, List.length_singleton]
    omega
  | run :: next :: runs, _ =>
    refine ⟨run,46,written stop (next :: runs) ++ rest,(digits run List.mem_cons_self).2,rfl,by simp [written],?_,
      List.suffix_append _ rest⟩
    simp only [written, List.length_append, List.length_cons]
    omega

private theorem numbers_unique {k : Nat} {start rest rest' : List UInt8} {runs runs' : List (List UInt8)} {stop stop' : UInt8}
    (numbers : Numbers (k + 1) start runs stop rest) (numbers' : Numbers (k + 1) start runs' stop' rest') :
    runs = runs' ∧ rest = rest' := by
  induction k generalizing start runs runs' with
  | zero =>
    obtain ⟨run,first,behind,digits,ends,rfl,_,_⟩ := numbers_split numbers
    obtain ⟨rfl,rfl,rfl,_⟩ := numbers_last digits ends numbers
    obtain ⟨rfl,rfl,rfl,_⟩ := numbers_last digits ends numbers'
    exact ⟨rfl,rfl⟩
  | succ k ih =>
    obtain ⟨run,first,behind,digits,ends,rfl,_,_⟩ := numbers_split numbers
    obtain ⟨_,_,later,rfl,rest⟩ := numbers_next digits ends numbers
    obtain ⟨_,_,later',rfl,rest'⟩ := numbers_next digits ends numbers'
    obtain ⟨same,same'⟩ := ih rest rest'
    exact ⟨congrArg _ same,same'⟩

private theorem numbers_behind {k : Nat} {start rest : List UInt8} {runs : List (List UInt8)} {stop : UInt8}
    (numbers : Numbers (k + 1) start runs stop rest) : rest ≠ start := by
  obtain ⟨_,_,behind,_,_,_,shorter,ends⟩ := numbers_split numbers
  intro same
  have length := ends.length_le
  rw [same] at length
  omega

private theorem byte_bit (v : UInt32) {k i : Nat} (low : k < 4) (inside : i < 8) :
    (v >>> (8 * k).toUInt32).toUInt8.toBitVec.getLsbD i = v.toBitVec.getLsbD (8 * k + i) := by
  interval_cases k <;> simp [inside]

private theorem swapBytes_byte (v : UInt32) {k : Nat} (low : k < 4) :
    (swapBytes v >>> (8 * k).toUInt32).toUInt8 = (v >>> (8 * (3 - k)).toUInt32).toUInt8 := by
  apply UInt8.eq_of_toBitVec_eq
  apply BitVec.eq_of_getLsbD_eq
  intro i inside
  have place : 8 * (3 - (8 * k + i) / 8) + (8 * k + i) % 8 = 8 * (3 - k) + i := by omega
  rw [byte_bit _ low inside, byte_bit _ (by omega) inside, swapBytes_bit v (by omega), place]

private theorem word_swapBytes (v : UInt32) : word (swapBytes v) = (word v).reverse := by
  have bytes (v : UInt32) : word v = [0,1,2,3].map fun k => (v >>> (8 * k).toUInt32).toUInt8 := by
    simp [word]
  rw [bytes, bytes]
  simp only [List.map_cons, List.map_nil]
  rw [swapBytes_byte v (k := 0) (by decide), swapBytes_byte v (k := 1) (by decide),
    swapBytes_byte v (k := 2) (by decide), swapBytes_byte v (k := 3) (by decide)]
  rfl

private theorem octet_value {run : List UInt8} (digits : Digits run) (small : decimal run ≤ 255) :
    (readOn 0 run).toInt32.toUInt32 = .ofNat (decimal run) := by
  rw [readOn_decimal digits.2, octet_wide (Nat.lt_succ_of_le small)]

private theorem octets_value {runs : List (List UInt8)} (four : runs.length = 4) (digits : ∀ run ∈ runs, Digits run)
    (small : ∀ run ∈ runs, decimal run ≤ 255) :
    word (swapBytes (runs.foldl (fun v run => v * 256 + (readOn 0 run).toInt32.toUInt32) 0)) =
      runs.map fun run => .ofNat (decimal run) := by
  match runs, four with
  | [a,b,c,d], _ =>
    simp only [List.forall_mem_cons] at digits small
    obtain ⟨da,db,dc,dd,_⟩ := digits
    obtain ⟨sa,sb,sc,sd,_⟩ := small
    simp only [List.foldl_cons, List.foldl_nil, octet_value da sa, octet_value db sb, octet_value dc sc, octet_value dd sd]
    have wide (n : Nat) (small : n ≤ 255) : UInt32.ofNat n = (UInt8.ofNat n).toUInt32 := by
      apply UInt32.toNat.inj
      rw [UInt32.toNat_ofNat_of_lt' (by change n < 4294967296; omega), UInt8.toNat_toUInt32,
        UInt8.toNat_ofNat_of_lt' (by change n < 256; omega)]
    have value : (((0 * 256 + UInt32.ofNat (decimal a)) * 256 + .ofNat (decimal b)) * 256 + .ofNat (decimal c)) * 256 +
        .ofNat (decimal d) =
          unword [UInt8.ofNat (decimal d),.ofNat (decimal c),.ofNat (decimal b),.ofNat (decimal a)] := by
      rw [wide _ sa, wide _ sb, wide _ sc, wide _ sd]
      rfl
    rw [value, word_swapBytes, word_unword]
    rfl

private theorem valid_nonzero {runs : List (List UInt8)} (valid : Valid runs) {v : UInt32}
    (value : word v = runs.map fun run => .ofNat (decimal run)) : v ≠ 0 := by
  intro zero
  obtain ⟨small,run,member,nonzero⟩ := valid
  have inside : UInt8.ofNat (decimal run) ∈ word v := value ▸ List.mem_map_of_mem member
  have zeros : ∀ b ∈ word 0, b = 0 := by decide +kernel
  have same := congrArg UInt8.toNat (zeros _ (zero ▸ inside))
  rw [UInt8.toNat_ofNat_of_lt' (Nat.lt_succ_of_le (small run member))] at same
  exact nonzero same

private theorem valid_small {runs : List (List UInt8)} (digits : ∀ run ∈ runs, Digits run) (valid : Valid runs) :
    ∀ run ∈ runs, readOn 0 run < 256 := by
  intro run member
  rw [readOn_decimal (digits run member).2]
  exact Int16.not_le.mp (octet_small (Nat.lt_succ_of_le (valid.1 run member)))

/-- `ip_to_int` follows the grammar exactly when it stays inside the string and four numbers that
are below 256 in 16 bits are so as decimals, and not all zero. -/
theorem ip_grammatical (start : List UInt8) :
    Grammatical start ↔ ¬ RunsOff 4 start ∧ ∀ runs stop rest, Numbers 4 start runs stop rest →
      (∀ run ∈ runs, readOn 0 run < 256) → Valid runs := by
  rcases ipOctets_scan 3 0 start with ⟨off,runs⟩ | ⟨invalid,stays,large⟩ | ⟨runs,stop,rest,numbers,small,stays,found⟩
  · have result := ipToInt_off off
    refine iff_of_false ?_ fun holds => holds.1 runs
    rintro ⟨taken,refused⟩
    by_cases valid : ∃ runs stop rest, Numbers 4 start runs stop rest ∧ Valid runs
    · obtain ⟨runs,stop,rest,numbers,valid⟩ := valid
      obtain ⟨v,read,_⟩ := taken runs stop rest numbers valid
      exact nomatch result.symm.trans read
    · exact nomatch result.symm.trans (refused valid)
  · have result := ipToInt_invalid invalid
    have none_small : ∀ runs stop rest, Numbers 4 start runs stop rest → ¬ ∀ run ∈ runs, readOn 0 run < 256 := by
      intro runs stop rest numbers small
      obtain ⟨run,member,big⟩ := large runs stop rest numbers
      exact Int16.not_le.mpr (small run member) big
    refine iff_of_true ⟨?_,fun _ => result⟩ ⟨stays,?_⟩
    · intro runs stop rest numbers valid
      exact absurd (valid_small numbers.digits valid) (none_small runs stop rest numbers)
    · intro runs stop rest numbers small
      exact absurd small (none_small runs stop rest numbers)
  · have result := ipToInt_value found
    by_cases valid : Valid runs
    · have value := octets_value numbers.count numbers.digits valid.1
      refine iff_of_true ⟨?_,?_⟩ ⟨stays,?_⟩
      · intro runs' stop' rest' numbers' valid'
        obtain ⟨rfl,rfl⟩ := numbers_unique numbers numbers'
        exact ⟨_,result,valid_nonzero valid value,value⟩
      · exact fun other => absurd ⟨runs,stop,rest,numbers,valid⟩ other
      · intro runs' stop' rest' numbers' _
        exact (numbers_unique numbers numbers').1 ▸ valid
    · refine iff_of_false ?_ fun holds => valid (holds.2 runs stop rest numbers small)
      rintro ⟨_,refused⟩
      have other : ¬ ∃ runs stop rest, Numbers 4 start runs stop rest ∧ Valid runs := by
        rintro ⟨runs',stop',rest',numbers',valid'⟩
        exact valid ((numbers_unique numbers numbers').1 ▸ valid')
      have same := congrArg Prod.snd (Option.some.inj (result.symm.trans (refused other)))
      exact numbers_behind numbers same

/-- 65546 is 10 in 16 bits. -/
theorem overlong_octet : ¬ ∀ start, Grammatical start := by
  intro all
  have numbers : Numbers 4 (ascii "65546.0.0.1 ") [ascii "65546",ascii "0",ascii "0",ascii "1"] 32 [] :=
    ⟨rfl,by unfold Digits; decide +kernel,by decide,by decide +kernel⟩
  have other : ¬ ∃ runs stop rest, Numbers 4 (ascii "65546.0.0.1 ") runs stop rest ∧ Valid runs := by
    rintro ⟨runs,stop,rest,numbers',valid⟩
    obtain ⟨rfl,_⟩ := numbers_unique numbers numbers'
    exact absurd (valid.1 (ascii "65546") List.mem_cons_self) (by decide +kernel)
  have refused := (all (ascii "65546.0.0.1 ")).2 other
  exact absurd refused (by decide +kernel)

end PulseFirmware
