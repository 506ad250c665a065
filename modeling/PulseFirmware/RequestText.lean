import PulseFirmware.HttpRequest

/-! The text of the request: header and body, the length that one announces of the other, and what
a link does to the header. -/
namespace PulseFirmware.Http
open PulseFirmware.CString PulseFirmware.Printf
open PulseFirmware.Sensors (SensorField Config compared known chosen)

def beforeLink : List UInt8 := ascii "POST  /Pulse/Data HTTP/1.1\nHost:  "

def behindLink : List UInt8 := ascii "\nContent-Type: application/json\nContent-Length: "

def header (link : List UInt8) (n : Nat) : List UInt8 := beforeLink ++ (link ++ (behindLink ++ (base10 n ++ [10,10])))

def headerFormat (link : List UInt8) : List UInt8 := beforeLink ++ (link ++ (behindLink ++ ([37,105] ++ [10,10])))

private theorem format_pieces :
    joined httpDataReqFormat = beforeLink ++ ([37,115] ++ (behindLink ++ ([37,37] ++ [105,10,10]))) := by decide +kernel

private theorem before_plain : 37 ∉ beforeLink := by decide +kernel

private theorem behind_plain : 37 ∉ behindLink := by decide +kernel

private theorem behind_apart : ∃ b rest, behindLink = b :: rest ∧ flag b = false := ⟨10,_,rfl,rfl⟩

section
variable {V : Type} (c : Conversions V)

private theorem first_stage (mem : List UInt8) :
    printf c (joined httpDataReqFormat) [.string mem] = some (headerFormat (chars mem)) := by
  rw [format_pieces, printf, fold_append, fold_text c _ _ _ before_plain, Option.bind_some, fold_append, fold_string,
    Option.bind_some, fold_append, fold_text c _ _ _ behind_plain, Option.bind_some, fold_append, fold_percent,
    Option.bind_some, fold_text c _ _ _ (by decide)]
  simp [headerFormat]

private theorem second_stage (link : List UInt8) (n : Nat) :
    printf c (headerFormat link) [.integer n] = some (header link n) ↔ 37 ∉ link :=
  printf_injected c before_plain behind_plain (by decide) behind_apart link n

private theorem headerFormat_length (link : List UInt8) : (headerFormat link).length = link.length + 86 := by
  have before : beforeLink.length = 34 := by decide +kernel
  have behind : behindLink.length = 48 := by decide +kernel
  simp only [headerFormat, List.length_append, before, behind, List.length_cons, List.length_nil]
  omega

/-- The two calls of `sprintf` make the header for the link that the memory starts. -/
def HeaderRight (dst : Bytes 200) (mem : List UInt8) (n : Nat) : Prop :=
  ∃ httpDataReq len, sprintf c dst (joined httpDataReqFormat) [.string mem] = .ok (httpDataReq,len) ∧
    printf c (chars httpDataReq.toList) [.integer n] = some (header (chars mem) n)

private theorem sprintf_ok {n : Nat} (dst : Bytes n) {format : List UInt8} {args : List (Arg V)} {text : List UInt8}
    (printed : printf c format args = some text) :
    sprintf c dst format args = if text.length < n then .ok (memcpy dst (text ++ [0]),text.length) else .error .fault := by
  rw [sprintf, printed]

private theorem written_chars {n : Nat} (dst : Bytes n) {text : List UInt8} (clean : 0 ∉ text) (fits : text.length < n) :
    chars (memcpy dst (text ++ [0])).toList = text := by
  rw [memcpy_toList dst _ (by rw [List.length_append]; exact fits), List.append_assoc]
  exact chars_append_zero text _ clean

private theorem headerFormat_clean (mem : List UInt8) : 0 ∉ headerFormat (chars mem) := by
  have before : 0 ∉ beforeLink := by decide +kernel
  have behind : 0 ∉ behindLink := by decide +kernel
  simp only [headerFormat, List.mem_append, not_or]
  exact ⟨before,zero_notMem_chars mem,behind,by decide,by decide⟩

private theorem right_text {dst : Bytes 200} {mem : List UInt8} {n : Nat} (right : HeaderRight c dst mem n) :
    (headerFormat (chars mem)).length < 200 ∧ 37 ∉ chars mem := by
  obtain ⟨httpDataReq,len,done,right⟩ := right
  rw [sprintf_ok c dst (first_stage c mem)] at done
  split at done
  next fits =>
    cases done
    rw [written_chars dst (headerFormat_clean mem) fits] at right
    exact ⟨fits,(second_stage c (chars mem) n).mp right⟩
  next => contradiction

/-- The header is right exactly when the link has no percent sign and at most 113 bytes. -/
theorem header_right (dst : Bytes 200) (mem : List UInt8) (n : Nat) :
    HeaderRight c dst mem n ↔ (chars mem).length ≤ 113 ∧ 37 ∉ chars mem := by
  have size := headerFormat_length (chars mem)
  constructor
  · intro right
    obtain ⟨fits,plain⟩ := right_text c right
    exact ⟨by omega,plain⟩
  · rintro ⟨short,plain⟩
    have fits : (headerFormat (chars mem)).length < 200 := by omega
    refine ⟨_,_,(sprintf_ok c dst (first_stage c mem)).trans (if_pos fits),?_⟩
    rw [written_chars dst (headerFormat_clean mem) fits]
    exact (second_stage c (chars mem) n).mpr plain

def partText (s : Source V) (p : Part) : List UInt8 := (printf c p.datastrFormat (s.args p)).getD []

private def Part.kinds (p : Part) : List Kind :=
  (if p = .circuit1 then [.string,.string] else []) ++ p.lines.map fun _ => .real

private theorem part_accepted (p : Part) : accepts p.datastrFormat none p.kinds = true := by
  cases p <;> decide +kernel

private theorem args_kinds (s : Source V) (p : Part) : (s.args p).map Arg.kind = p.kinds := by
  rw [Source.args, Part.kinds, List.map_append, List.map_map]
  congr 1
  split <;> rfl

theorem part_printed (s : Source V) (p : Part) :
    printf c p.datastrFormat (s.args p) = some (partText c s p) ∧ 0 ∉ partText c s p := by
  obtain ⟨text,printed,clean⟩ := printf_accepted c ((args_kinds s p).symm ▸ part_accepted p : accepts _ _ _ = true)
  rw [partText, printed]
  exact ⟨rfl,clean⟩

private theorem chars_take (mem : List UInt8) : mem.take (strlen mem) = chars mem :=
  (List.prefix_iff_eq_take.mp (List.takeWhile_prefix _)).symm

private theorem strcat_ok {n : Nat} {dst : Bytes n} {src : List UInt8} (fits : strlen dst.toList + strlen src < n) :
    ∃ dst', strcat dst src = .ok dst' ∧ chars dst'.toList = chars dst.toList ++ chars src := by
  refine ⟨_,if_pos fits,?_⟩
  have clean : 0 ∉ chars dst.toList ++ chars src :=
    fun zero => (List.mem_append.mp zero).elim (zero_notMem_chars _) (zero_notMem_chars _)
  change chars ((dst.toList.take (strlen dst.toList) ++ (chars src ++ [0]) ++ _).take n) = _
  rw [chars_take, ← List.append_assoc, List.append_assoc _ [0], List.take_append, List.take_of_length_le]
  · obtain ⟨room,size⟩ : ∃ k, n - (chars dst.toList ++ chars src).length = k + 1 := by
      refine Nat.exists_eq_succ_of_ne_zero ?_
      rw [List.length_append]
      exact Nat.sub_ne_zero_of_lt fits
    rw [size, List.singleton_append, List.take_succ_cons]
    exact chars_append_zero _ _ clean
  · rw [List.length_append]
    exact Nat.le_of_lt fits

private theorem prepare_ok (s : Source V) {prepared : List (Var × Part)}
    (fits : ∀ entry ∈ prepared, (partText c s entry.2).length < 1024) (vars : (prepared.map Prod.fst).Nodup)
    (parts : (prepared.map Prod.snd).Nodup) (b : Buffers) :
    ∃ b', prepareParts c s b prepared = .ok b' ∧ b'.httpDataReq = b.httpDataReq ∧ b'.txbuff = b.txbuff ∧
      (∀ entry ∈ prepared, chars (b'.part entry.2).toList = partText c s entry.2 ∧
        (b'.var entry.1).toNat = (partText c s entry.2).length) ∧
      (∀ p ∉ prepared.map Prod.snd, b'.part p = b.part p) ∧ ∀ v ∉ prepared.map Prod.fst, b'.var v = b.var v := by
  induction prepared generalizing b with
  | nil => exact ⟨b,rfl,rfl,rfl,(fun _ member => nomatch member),fun _ _ => rfl,fun _ _ => rfl⟩
  | cons entry prepared ih =>
    obtain ⟨v,p⟩ := entry
    obtain ⟨fit,fits⟩ := List.forall_mem_cons.mp fits
    obtain ⟨freshVar,vars⟩ := List.nodup_cons.mp vars
    obtain ⟨freshPart,parts⟩ := List.nodup_cons.mp parts
    obtain ⟨printed,clean⟩ := part_printed c s p
    have prepared_one : prepareDataString c s p (b.part p) =
        .ok (memcpy (b.part p) (partText c s p ++ [0]),(partText c s p).length) := by
      rw [prepareDataString, sprintf_ok c _ printed, if_pos fit]
    obtain ⟨b',done,req,tx,each,otherParts,otherVars⟩ := ih fits vars parts
      { b with part := Function.update b.part p (memcpy (b.part p) (partText c s p ++ [0])),
               var := Function.update b.var v (partText c s p).length.toUInt16 }
    refine ⟨b',?_,req,tx,?_,?_,?_⟩
    · rw [prepareParts, prepared_one]
      exact done
    · refine List.forall_mem_cons.mpr ⟨⟨?_,?_⟩,each⟩
      · rw [otherParts p freshPart]
        dsimp only
        rw [Function.update_self]
        exact written_chars (b.part p) clean fit
      · rw [otherVars v freshVar]
        dsimp only
        rw [Function.update_self]
        exact UInt16.toNat_ofNat_of_lt' (Nat.lt_trans fit (by decide))
    · intro p' other
      obtain ⟨ne,later⟩ := List.ne_and_not_mem_of_not_mem_cons other
      rw [otherParts p' later]
      exact Function.update_of_ne ne _ _
    · intro v' other
      obtain ⟨ne,later⟩ := List.ne_and_not_mem_of_not_mem_cons other
      rw [otherVars v' later]
      exact Function.update_of_ne ne _ _

private theorem append_ok (appended : List Part) (b : Buffers)
    (fits : strlen b.txbuff.toList + (appended.flatMap fun p => chars (b.part p).toList).length < 2048) :
    ∃ b', appendParts b appended = .ok b' ∧
      chars b'.txbuff.toList = chars b.txbuff.toList ++ appended.flatMap fun p => chars (b.part p).toList := by
  induction appended generalizing b with
  | nil => exact ⟨b,rfl,(List.append_nil _).symm⟩
  | cons p appended ih =>
    rw [List.flatMap_cons, List.length_append] at fits
    have first : strlen b.txbuff.toList + strlen (b.part p).toList < 2048 := by
      rw [strlen, strlen]
      rw [strlen] at fits
      omega
    obtain ⟨txbuff,done,text⟩ := strcat_ok first
    have later : strlen ({ b with txbuff } : Buffers).txbuff.toList +
        (appended.flatMap fun p => chars (b.part p).toList).length < 2048 := by
      dsimp only
      rw [strlen, text, List.length_append]
      rw [strlen] at fits
      omega
    obtain ⟨b',rest,whole⟩ := ih { b with txbuff } later
    refine ⟨b',?_,?_⟩
    · rw [appendParts, done]
      exact rest
    · rw [whole, text, List.flatMap_cons, List.append_assoc]

/-- The parts that a configuration calls for, in their order. -/
def bodyParts (cfg : Config) : List Part :=
  [.circuit1,.circuit2,.circuit3,.circuit4].take cfg.circuit ++ [.phase1,.phase2,.phase3].take cfg.phaseCount ++ [.last]

def body (s : Source V) (cfg : Config) : List UInt8 := (bodyParts cfg).flatMap (partText c s)

private theorem part_short (s : Source V) {cfg : Config} {p : Part} (member : p ∈ bodyParts cfg) :
    (partText c s p).length ≤ (body c s cfg).length := by
  rw [body, List.flatMap_def]
  exact (List.sublist_flatten_of_mem (List.mem_map_of_mem member)).length_le

private def Branch.Calls (branch : Branch) (cfg : Config) : Prop :=
  branch.prepared.map Prod.snd = bodyParts cfg ∧ branch.sum = branch.prepared.map Prod.fst ∧ branch.sum.Nodup ∧
    (bodyParts cfg).Nodup ∧ branch.appended = bodyParts cfg

private instance (branch : Branch) (cfg : Config) : Decidable (branch.Calls cfg) :=
  inferInstanceAs (Decidable (_ ∧ _))

/-- The branches are those of the readings: the parts appended have the lines. -/
theorem branches_lines : (branches.map fun b => (b.configs,b.appended.map Part.lines)) = Sensors.httpBranches := by
  decide +kernel

private theorem branches_known : (branches.map fun b => (b.configs,b)).flatMap Prod.fst = known := by
  rw [← Sensors.http_known, ← branches_lines, List.flatMap_map, List.flatMap_map]

private theorem branches_call : ∀ cfg ∈ known,
    (Sensors.branchOf (branches.map fun b => (b.configs,b)) cfg).any (fun branch => decide (branch.Calls cfg)) = true := by
  decide +kernel

private theorem branchFor_calls {configString1 : Bytes 240} {cfg : Config} (member : cfg ∈ known)
    (equal : compared configString1 [cfg] = true) : ∃ branch, branchFor configString1 = some branch ∧ branch.Calls cfg := by
  obtain ⟨branch,found,calls⟩ := (Option.any_eq_true _ _).mp (branches_call cfg member)
  refine ⟨branch,?_,of_decide_eq_true calls⟩
  rw [branchFor, Sensors.chosen_eq branches_known member equal]
  exact found

structure Fits (s : Source V) (cfg : Config) : Prop where
  link : (headerFormat (chars s.apiLink1)).length < 200
  part : ∀ p ∈ bodyParts cfg, (partText c s p).length < 1024
  whole : (header (chars s.apiLink1) (body c s cfg).length ++ body c s cfg).length < 2048

private theorem header_clean (mem : List UInt8) (n : Nat) : 0 ∉ header (chars mem) n := by
  have before : 0 ∉ beforeLink := by decide +kernel
  have behind : 0 ∉ behindLink := by decide +kernel
  simp only [header, List.mem_append, not_or]
  exact ⟨before,zero_notMem_chars mem,behind,base10_clean n,by decide⟩

private theorem sum_lengths {b : Buffers} {s : Source V} {prepared : List (Var × Part)}
    (lengths : ∀ entry ∈ prepared, (b.var entry.1).toNat = (partText c s entry.2).length) :
    ((prepared.map Prod.fst).map fun v => (b.var v).toNat).sum =
      ((prepared.map Prod.snd).flatMap (partText c s)).length := by
  rw [List.length_flatMap, List.map_map, List.map_map]
  exact congrArg List.sum (List.map_congr_left lengths)

/-- The buffer holds the header and the body, and the header announces the length of the body. -/
theorem built_request (s : Source V) (b : Buffers) {cfg : Config} (member : cfg ∈ known)
    (equal : compared s.configString1 [cfg] = true) (plain : 37 ∉ chars s.apiLink1) (fits : Fits c s cfg) :
    ∃ b', buildRequest c s b = .ok b' ∧
      chars b'.txbuff.toList = header (chars s.apiLink1) (body c s cfg).length ++ body c s cfg := by
  obtain ⟨branch,found,parts,sum,vars,distinct,appended⟩ := branchFor_calls member equal
  have first := sprintf_ok c b.httpDataReq (first_stage c s.apiLink1)
  rw [if_pos fits.link] at first
  have short : ∀ entry ∈ branch.prepared, (partText c s entry.2).length < 1024 :=
    fun entry inside => fits.part entry.2 (parts ▸ List.mem_map_of_mem inside)
  obtain ⟨b₁,prepared,req,_,each,_,_⟩ := prepare_ok c s short (sum ▸ vars) (parts ▸ distinct)
    { b with httpDataReq := memcpy b.httpDataReq (headerFormat (chars s.apiLink1) ++ [0]) }
  have format : chars b₁.httpDataReq.toList = headerFormat (chars s.apiLink1) := by
    rw [req]
    exact written_chars b.httpDataReq (headerFormat_clean s.apiLink1) fits.link
  have announced : (branch.sum.map fun v => (b₁.var v).toNat).sum = (body c s cfg).length := by
    rw [sum, sum_lengths c fun entry inside => (each entry inside).2, parts]
    rfl
  have room := fits.whole
  rw [List.length_append] at room
  have second := sprintf_ok c b₁.txbuff ((second_stage c (chars s.apiLink1) (body c s cfg).length).mpr plain)
  rw [if_pos (by omega)] at second
  have start := written_chars b₁.txbuff (header_clean s.apiLink1 (body c s cfg).length) (by omega)
  have texts : (bodyParts cfg).flatMap (fun p => chars (b₁.part p).toList) = body c s cfg := by
    refine List.flatMap_congr fun p inside => ?_
    obtain ⟨entry,listed,rfl⟩ := List.mem_map.mp (parts ▸ inside)
    exact (each entry listed).1
  obtain ⟨b',done,whole⟩ := append_ok branch.appended
    { b₁ with txbuff := memcpy b₁.txbuff (header (chars s.apiLink1) (body c s cfg).length ++ [0]) } (by
      dsimp only
      rw [strlen, start, appended, texts]
      exact room)
  refine ⟨b',?_,?_⟩
  · rw [buildRequest, first]
    rw [ok_bind]
    dsimp only
    rw [found]
    dsimp only
    rw [prepared, ok_bind]
    rw [format, announced, second]
    exact done
  · rw [whole, appended]
    dsimp only
    rw [start, texts]

theorem branchFor_none {configString1 : Bytes 240} (other : ¬ ascii "config[circuit:" <+: configString1.toList) :
    branchFor configString1 = none := by
  refine Option.eq_none_iff_forall_ne_some.mpr fun branch found => other ?_
  have recognised : (branchFor configString1).isSome = true := by rw [found]; rfl
  obtain ⟨cfg,member,equal⟩ := (Sensors.chosen_isSome branches_known configString1).mp recognised
  refine List.IsPrefix.trans ?_ ((Sensors.compared_single member).mp equal)
  rw [literal, Sensors.text_eq]
  simp only [List.append_assoc]
  exact List.prefix_append _ _

/-- When the configuration is not recognised, the link alone decides whether the iteration goes on. -/
theorem request_skipped (s : Source V) (b : Buffers) (unknown : branchFor s.configString1 = none)
    (fits : (headerFormat (chars s.apiLink1)).length < 200) : ∃ b₁, buildRequest c s b = .ok b₁ := by
  refine ⟨{ b with httpDataReq := memcpy b.httpDataReq (headerFormat (chars s.apiLink1) ++ [0]) },?_⟩
  rw [buildRequest, (sprintf_ok c _ (first_stage c s.apiLink1)).trans (if_pos fits)]
  rw [ok_bind]
  dsimp only
  rw [unknown]
  rfl

/-- The request of every configuration that is recognised announces the length of its body, which has
the parts that the configuration calls for, each once and in their order. -/
theorem request_announced (s : Source V) (b : Buffers) (recognised : (branchFor s.configString1).isSome = true)
    (plain : 37 ∉ chars s.apiLink1) :
    ∃ cfg ∈ known, compared s.configString1 [cfg] = true ∧ (Fits c s cfg → ∃ b', buildRequest c s b = .ok b' ∧
      chars b'.txbuff.toList = header (chars s.apiLink1) (body c s cfg).length ++ body c s cfg) := by
  obtain ⟨cfg,member,equal⟩ := (Sensors.chosen_isSome branches_known s.configString1).mp recognised
  exact ⟨cfg,member,equal,built_request c s b member equal plain⟩

end

/-- Directives for readings that are natural numbers. -/
def wholeNumbers : Conversions Nat where
  convert spec letter arg :=
    match arg, spec, letter with
    | .string mem, [], 115 => some (chars mem)
    | .integer n, [], 105 => some (base10 n)
    | .real x, [48,46,digit], 102 => some (base10 x ++ 46 :: List.replicate (digit.toNat - 48) 48)
    | _, _, _ => none
  string _ := rfl
  integer _ := rfl
  real digit x := by
    refine ⟨_,rfl,by simp,fun zero => ?_⟩
    rcases List.mem_append.mp zero with number | rest
    · exact base10_clean x number
    · rcases List.mem_cons.mp rest with point | zeros
      · contradiction
      · exact absurd (List.eq_of_mem_replicate zeros) (by decide)

/-- A link with an escaped blank in it: the header asks for a second number. -/
theorem escaped_link :
    ¬ ∀ (link : List UInt8) (n : Nat), 0 ∉ link ∧ 10 ∉ link ∧ 13 ∉ link → link.length ≤ 113 →
      HeaderRight wholeNumbers (zeros 200) (link ++ [0]) n := by
  intro every
  have right := every (ascii "pulse.com/a%20b") 400 (by decide +kernel) (by decide +kernel)
  exact (right_text wholeNumbers right).2 (by decide +kernel)

theorem request_announced_single :
    let s : Source Nat := ⟨memcpy (zeros 240) (literal "config[circuit:1,phase:1,voltage:120,frequen:60]"),literal "token",
      literal "pulse.com",literal "1234",fun _ => 21⟩
    let b : Buffers := ⟨zeros 200,fun _ => zeros 1024,zeros 2048,fun _ => 7⟩
    let cfg : Config := ⟨1,1,120,60⟩
    ∃ b', buildRequest wholeNumbers s b = .ok b' ∧
      chars b'.txbuff.toList = header (ascii "pulse.com") (body wholeNumbers s cfg).length ++ body wholeNumbers s cfg := by
  intro s b cfg
  obtain ⟨cfg',member,equal,announced⟩ := request_announced wholeNumbers s b (by decide +kernel) (by decide +kernel)
  have same := Sensors.compared_unique member (by decide +kernel : cfg ∈ known) equal (by decide +kernel)
  subst same
  have size : (body wholeNumbers s cfg).length = 361 := by decide +kernel
  refine announced ⟨by decide +kernel,fun p member => ?_,?_⟩
  · refine Nat.lt_of_le_of_lt (part_short wholeNumbers s member) ?_
    rw [size]
    decide
  · rw [List.length_append, size]
    decide +kernel

end PulseFirmware.Http
