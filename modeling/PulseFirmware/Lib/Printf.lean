import PulseFirmware.Lib.CString

/-! `printf`, byte by byte over its format. A directive takes one argument, whatever its letter;
which ones have a meaning, and what they print, is up to the library in use. -/
namespace PulseFirmware.Printf
open PulseFirmware.CString

inductive Arg (V : Type)
  | string (mem : List UInt8)
  | integer (n : Nat)
  | real (x : V)

def base10 (n : Nat) : List UInt8 := (Nat.toDigits 10 n).map fun c => c.toNat.toUInt8

theorem base10_clean (n : Nat) : 0 ∉ base10 n := by
  intro zero
  obtain ⟨digit,member,same⟩ := List.mem_map.mp zero
  have numeric := Nat.isDigit_of_mem_toDigits (by decide) (by decide) member
  obtain ⟨low,high⟩ := Char.isDigit_iff_toNat.mp numeric
  have value := congrArg UInt8.toNat same
  change digit.toNat % 256 = 0 at value
  change 48 ≤ digit.toNat at low
  change digit.toNat ≤ 57 at high
  omega

/-- What a directive prints, from the bytes between the percent sign and its letter, the letter
and the argument, if it has a meaning. -/
structure Conversions (V : Type) where
  convert : List UInt8 → UInt8 → Arg V → Option (List UInt8)
  string : ∀ mem, convert [] 115 (.string mem) = some (chars mem)
  integer : ∀ n, convert [] 105 (.integer n) = some (base10 n)
  /-- `%0.2f` and its like -/
  real : ∀ digit x, ∃ text, convert [48,46,digit] 102 (.real x) = some text ∧ text ≠ [] ∧ 0 ∉ text

def flag (b : UInt8) : Bool := (48 ≤ b && b ≤ 57) || [32,35,43,45,46,76,104,106,108,113,116,122].contains b

/-- The output so far, the directive that has begun, and the arguments left. -/
structure Printing (V : Type) where
  out : List UInt8
  spec : Option (List UInt8)
  args : List (Arg V)

section
variable {V : Type} (c : Conversions V)

def Printing.step (s : Printing V) (b : UInt8) : Option (Printing V) :=
  match s.spec with
  | none => if b = 37 then some { s with spec := some [] } else some { s with out := s.out ++ [b] }
  | some spec =>
    if b = 37 then some ⟨s.out ++ [37],none,s.args⟩
    else if flag b then some { s with spec := some (spec ++ [b]) }
    else
      match s.args with
      | [] => none
      | arg :: args => (c.convert spec b arg).map fun text => ⟨s.out ++ text,none,args⟩

/-- The text that a format prints, if it has a meaning with these arguments. -/
def printf (format : List UInt8) (args : List (Arg V)) : Option (List UInt8) :=
  (format.foldlM (Printing.step c) ⟨[],none,args⟩).bind fun s => if s.spec = none then some s.out else none

theorem fold_append (s : Printing V) (first second : List UInt8) :
    (first ++ second).foldlM (Printing.step c) s =
      (first.foldlM (Printing.step c) s).bind fun s => second.foldlM (Printing.step c) s :=
  List.foldlM_append

theorem fold_text (out text : List UInt8) (args : List (Arg V)) (plain : 37 ∉ text) :
    text.foldlM (Printing.step c) ⟨out,none,args⟩ = some ⟨out ++ text,none,args⟩ := by
  induction text generalizing out with
  | nil =>
    rw [List.append_nil]
    rfl
  | cons b text ih =>
    obtain ⟨ne,rest⟩ := List.ne_and_not_mem_of_not_mem_cons plain
    have step : Printing.step c ⟨out,none,args⟩ b = some ⟨out ++ [b],none,args⟩ := if_neg (Ne.symm ne)
    rw [List.foldlM_cons, step]
    change text.foldlM (Printing.step c) ⟨out ++ [b],none,args⟩ = _
    rw [ih (out ++ [b]) rest, List.append_assoc]
    rfl

theorem fold_integer (out : List UInt8) (n : Nat) (args : List (Arg V)) :
    [37,105].foldlM (Printing.step c) ⟨out,none,.integer n :: args⟩ = some ⟨out ++ base10 n,none,args⟩ := by
  have letter : Printing.step c ⟨out,some [],.integer n :: args⟩ 105 = some ⟨out ++ base10 n,none,args⟩ := by
    change (c.convert [] 105 (.integer n)).map _ = _
    rw [c.integer]
    rfl
  change (Printing.step c ⟨out,some [],.integer n :: args⟩ 105).bind _ = _
  rw [letter]
  rfl

theorem fold_string (out mem : List UInt8) (args : List (Arg V)) :
    [37,115].foldlM (Printing.step c) ⟨out,none,.string mem :: args⟩ = some ⟨out ++ chars mem,none,args⟩ := by
  have letter : Printing.step c ⟨out,some [],.string mem :: args⟩ 115 = some ⟨out ++ chars mem,none,args⟩ := by
    change (c.convert [] 115 (.string mem)).map _ = _
    rw [c.string]
    rfl
  change (Printing.step c ⟨out,some [],.string mem :: args⟩ 115).bind _ = _
  rw [letter]
  rfl

theorem fold_percent (out : List UInt8) (args : List (Arg V)) :
    [37,37].foldlM (Printing.step c) ⟨out,none,args⟩ = some ⟨out ++ [37],none,args⟩ := rfl

private theorem fold_missing (out : List UInt8) {text : List UInt8} (plain : 37 ∉ text) (tail : List UInt8) :
    (text ++ ([37,105] ++ tail)).foldlM (Printing.step c) ⟨out,none,[]⟩ = none := by
  have stuck : [37,105].foldlM (Printing.step c) ⟨out ++ text,none,[]⟩ = none := rfl
  rw [fold_append, fold_text c out text [] plain, Option.bind_some, fold_append, stuck]
  rfl

/-- A text with a percent sign in it, on its way through the format: its argument is gone, or what
was printed is shorter than what was read. -/
private def Injected (before : List UInt8) (n : Nat) (read : List UInt8) (s : Printing V) : Prop :=
  s.args = [] ∨ (s.args = [.integer n] ∧
    match s.spec with
    | none => (37 ∉ read ∧ s.out = before ++ read) ∨ s.out.length < before.length + read.length
    | some spec => s.out.length + spec.length + 1 ≤ before.length + read.length)

private theorem injected_step {before read : List UInt8} {n : Nat} {s s' : Printing V} {b : UInt8}
    (inv : Injected before n read s) (stepped : Printing.step c s b = some s') : Injected before n (read ++ [b]) s' := by
  obtain ⟨out,spec,args⟩ := s
  unfold Printing.step at stepped
  cases spec with
  | none =>
    dsimp only at stepped
    split at stepped
    next percent =>
      cases stepped
      rcases inv with gone | ⟨left,inv⟩
      · exact .inl gone
      · refine .inr ⟨left,?_⟩
        rcases inv with ⟨_,same⟩ | shorter
        · dsimp only at same
          simp only [same, List.length_append, List.length_nil, List.length_singleton]
          omega
        · dsimp only at shorter
          simp only [List.length_append, List.length_nil, List.length_singleton]
          omega
    next plain =>
      cases stepped
      rcases inv with gone | ⟨left,inv⟩
      · exact .inl gone
      · refine .inr ⟨left,?_⟩
        rcases inv with ⟨clean,same⟩ | shorter
        · dsimp only at same
          exact .inl ⟨by simp [clean,Ne.symm plain],by simp [same]⟩
        · dsimp only at shorter
          refine .inr ?_
          simp only [List.length_append, List.length_singleton]
          omega
  | some spec =>
    dsimp only at stepped
    split at stepped
    next percent =>
      cases stepped
      rcases inv with gone | ⟨left,inv⟩
      · exact .inl gone
      · dsimp only at inv
        refine .inr ⟨left,.inr ?_⟩
        simp only [List.length_append, List.length_singleton]
        omega
    next =>
      split at stepped
      next =>
        cases stepped
        rcases inv with gone | ⟨left,inv⟩
        · exact .inl gone
        · dsimp only at inv
          refine .inr ⟨left,?_⟩
          simp only [List.length_append, List.length_singleton]
          omega
      next =>
        split at stepped
        next => contradiction
        next arg args =>
          obtain ⟨text,_,rfl⟩ := Option.map_eq_some_iff.mp stepped
          rcases inv with gone | ⟨left,_⟩
          · contradiction
          · obtain ⟨_,rest⟩ := List.cons.inj left
            exact .inl rest

private theorem injected_fold {before read : List UInt8} {n : Nat} {s s' : Printing V} {text : List UInt8}
    (inv : Injected before n read s) (folded : text.foldlM (Printing.step c) s = some s') :
    Injected before n (read ++ text) s' := by
  induction text generalizing read s with
  | nil =>
    cases folded
    rw [List.append_nil]
    exact inv
  | cons b text ih =>
    rw [List.foldlM_cons] at folded
    obtain ⟨next,stepped,rest⟩ := Option.bind_eq_some_iff.mp folded
    rw [List.append_cons]
    exact ih (injected_step c inv stepped) rest

private theorem injected_stuck {before link behind tail : List UInt8} {n : Nat} {s s' : Printing V}
    (inv : Injected before n link s) (percent : 37 ∈ link) (plain : 37 ∉ behind) (plainTail : 37 ∉ tail)
    (apart : ∃ b rest, behind = b :: rest ∧ flag b = false)
    (folded : (behind ++ ([37,105] ++ tail)).foldlM (Printing.step c) s = some s') :
    s'.out ≠ before ++ (link ++ (behind ++ (base10 n ++ tail))) := by
  obtain ⟨out,spec,args⟩ := s
  cases spec with
  | none =>
    rcases inv with gone | ⟨left,inv⟩
    · dsimp only at gone
      subst gone
      rw [fold_missing c out plain tail] at folded
      contradiction
    · dsimp only at left inv
      subst left
      have shorter := inv.resolve_left fun clean => clean.1 percent
      rw [fold_append, fold_text c out behind _ plain, Option.bind_some, fold_append, fold_integer, Option.bind_some,
        fold_text c _ tail _ plainTail] at folded
      cases folded
      intro same
      have sizes := congrArg List.length same
      simp only [List.length_append] at sizes
      omega
  | some spec =>
    obtain ⟨b,rest,rfl,unflagged⟩ := apart
    obtain ⟨ne,plainRest⟩ := List.ne_and_not_mem_of_not_mem_cons plain
    rw [List.cons_append, List.foldlM_cons] at folded
    obtain ⟨next,stepped,later⟩ := Option.bind_eq_some_iff.mp folded
    unfold Printing.step at stepped
    dsimp only at stepped
    rw [if_neg (Ne.symm ne), if_neg (by simp [unflagged])] at stepped
    -- the directive that the text left open takes the argument of the `%i` behind it
    have last : next.spec = none ∧ next.args = [] := by
      split at stepped
      next => contradiction
      next arg args' =>
        obtain ⟨text,_,rfl⟩ := Option.map_eq_some_iff.mp stepped
        rcases inv with gone | ⟨left,_⟩
        · contradiction
        · exact ⟨rfl,(List.cons.inj left).2⟩
    obtain ⟨out',spec',args'⟩ := next
    obtain ⟨rfl,rfl⟩ := last
    rw [fold_missing c out' plainRest tail] at later
    contradiction

/-- A text inside a format comes out as it is, and the number behind it too, exactly when there is
no percent sign in the text. -/
theorem printf_injected {before behind tail : List UInt8} (plainBefore : 37 ∉ before) (plain : 37 ∉ behind)
    (plainTail : 37 ∉ tail) (apart : ∃ b rest, behind = b :: rest ∧ flag b = false) (link : List UInt8) (n : Nat) :
    printf c (before ++ (link ++ (behind ++ ([37,105] ++ tail)))) [.integer n] =
      some (before ++ (link ++ (behind ++ (base10 n ++ tail)))) ↔ 37 ∉ link := by
  constructor
  · intro printed percent
    obtain ⟨s,folded,out⟩ := Option.bind_eq_some_iff.mp printed
    rw [fold_append, fold_text c [] before _ plainBefore, Option.bind_some, fold_append] at folded
    obtain ⟨middle,first,second⟩ := Option.bind_eq_some_iff.mp folded
    have start : Injected before n [] (⟨[] ++ before,none,[.integer n]⟩ : Printing V) := by
      refine .inr ⟨rfl,.inl ⟨List.not_mem_nil,?_⟩⟩
      simp
    have inv := injected_fold c start first
    split at out
    next => exact injected_stuck c inv percent plain plainTail apart second (Option.some.inj out)
    next => contradiction
  · intro clean
    rw [printf, fold_append, fold_text c [] before _ plainBefore, Option.bind_some, fold_append,
      fold_text c _ link _ clean, Option.bind_some, fold_append, fold_text c _ behind _ plain, Option.bind_some,
      fold_append, fold_integer, Option.bind_some, fold_text c _ tail _ plainTail]
    simp

inductive Kind
  | string
  | integer
  | real
deriving DecidableEq

def Arg.kind : Arg V → Kind
  | .string _ => .string
  | .integer _ => .integer
  | .real _ => .real

def Kind.takes (k : Kind) (spec : List UInt8) (letter : UInt8) : Bool :=
  match k, spec with
  | .string, [] => letter = 115
  | .integer, [] => letter = 105
  | .real, [48,46,_] => letter = 102
  | _, _ => false

/-- The format has the directives for arguments of these kinds, and no other. -/
def accepts : List UInt8 → Option (List UInt8) → List Kind → Bool
  | [], spec, kinds => spec = none && kinds = []
  | b :: format, none, kinds => if b = 37 then accepts format (some []) kinds else b ≠ 0 && accepts format none kinds
  | b :: format, some spec, kinds =>
    if b = 37 then accepts format none kinds
    else if flag b then accepts format (some (spec ++ [b])) kinds
    else
      match kinds with
      | [] => false
      | k :: kinds => k.takes spec b && accepts format none kinds

private theorem kind_prints {arg : Arg V} {spec : List UInt8} {letter : UInt8} (takes : arg.kind.takes spec letter = true) :
    ∃ text, c.convert spec letter arg = some text ∧ 0 ∉ text := by
  unfold Kind.takes at takes
  split at takes
  next kind =>
    cases arg with
    | string mem =>
      rw [of_decide_eq_true takes]
      exact ⟨_,c.string mem,zero_notMem_chars mem⟩
    | integer n => contradiction
    | real x => contradiction
  next kind =>
    cases arg with
    | string mem => contradiction
    | integer n =>
      rw [of_decide_eq_true takes]
      exact ⟨_,c.integer n,base10_clean n⟩
    | real x => contradiction
  next digit kind =>
    cases arg with
    | string mem => contradiction
    | integer n => contradiction
    | real x =>
      obtain ⟨text,printed,_,clean⟩ := c.real digit x
      rw [of_decide_eq_true takes]
      exact ⟨text,printed,clean⟩
  next => contradiction

private theorem accepts_prints {format : List UInt8} {spec : Option (List UInt8)} {args : List (Arg V)}
    (accepted : accepts format spec (args.map Arg.kind) = true) (out : List UInt8) :
    ∃ text, format.foldlM (Printing.step c) ⟨out,spec,args⟩ = some ⟨out ++ text,none,[]⟩ ∧ 0 ∉ text := by
  induction format generalizing out spec args with
  | nil =>
    obtain ⟨closed,used⟩ : spec = none ∧ args = [] := by simpa [accepts] using accepted
    subst closed used
    exact ⟨[],by rw [List.append_nil]; rfl,List.not_mem_nil⟩
  | cons b format ih =>
    cases spec with
    | none =>
      rw [accepts] at accepted
      split at accepted
      next percent =>
        obtain ⟨text,printed,clean⟩ := ih accepted out
        have step : Printing.step c ⟨out,none,args⟩ b = some ⟨out,some [],args⟩ := if_pos percent
        rw [List.foldlM_cons, step]
        exact ⟨text,printed,clean⟩
      next plain =>
        obtain ⟨nonzero,accepted⟩ := Bool.and_eq_true_iff.mp accepted
        obtain ⟨text,printed,clean⟩ := ih accepted (out ++ [b])
        have step : Printing.step c ⟨out,none,args⟩ b = some ⟨out ++ [b],none,args⟩ := if_neg plain
        rw [List.foldlM_cons, step]
        refine ⟨b :: text,printed.trans (by rw [← List.append_cons]),?_⟩
        exact List.not_mem_cons_of_ne_of_not_mem (Ne.symm (of_decide_eq_true nonzero)) clean
    | some spec =>
      unfold accepts at accepted
      split at accepted
      next percent =>
        obtain ⟨text,printed,clean⟩ := ih accepted (out ++ [37])
        have step : Printing.step c ⟨out,some spec,args⟩ b = some ⟨out ++ [37],none,args⟩ := if_pos percent
        rw [List.foldlM_cons, step]
        exact ⟨37 :: text,printed.trans (by rw [← List.append_cons]),List.not_mem_cons_of_ne_of_not_mem (by decide) clean⟩
      next notPercent =>
        split at accepted
        next flagged =>
          obtain ⟨text,printed,clean⟩ := ih accepted out
          have step : Printing.step c ⟨out,some spec,args⟩ b = some ⟨out,some (spec ++ [b]),args⟩ :=
            (if_neg notPercent).trans (if_pos flagged)
          rw [List.foldlM_cons, step]
          exact ⟨text,printed,clean⟩
        next unflagged =>
          cases args with
          | nil => contradiction
          | cons arg args =>
            obtain ⟨takes,accepted⟩ := Bool.and_eq_true_iff.mp accepted
            obtain ⟨piece,converted,cleanPiece⟩ := kind_prints c takes
            obtain ⟨text,printed,clean⟩ := ih accepted (out ++ piece)
            have step : Printing.step c ⟨out,some spec,arg :: args⟩ b = some ⟨out ++ piece,none,args⟩ := by
              refine (if_neg notPercent).trans ((if_neg unflagged).trans ?_)
              dsimp only
              rw [converted]
              rfl
            rw [List.foldlM_cons, step]
            refine ⟨piece ++ text,printed.trans (by rw [List.append_assoc]),?_⟩
            exact fun zero => (List.mem_append.mp zero).elim cleanPiece clean

/-- A format with the directives for its arguments has a meaning, and prints no zero byte. -/
theorem printf_accepted {format : List UInt8} {args : List (Arg V)} (accepted : accepts format none (args.map Arg.kind) = true) :
    ∃ text, printf c format args = some text ∧ 0 ∉ text := by
  obtain ⟨text,printed,clean⟩ := accepts_prints c accepted []
  refine ⟨text,?_,clean⟩
  rw [printf, printed]
  rfl

end

end PulseFirmware.Printf
