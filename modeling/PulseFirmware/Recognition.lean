import Mathlib.Data.List.Find
import PulseFirmware.Cmd
import PulseFirmware.Lib.Stream

/-! Which handler `cmd_parse` runs, against the rule in the comment of `cmd_cmp`. Commands
compared with a length of their own are found by the bytes of the buffer alone. -/
namespace PulseFirmware
open PulseFirmware.CString PulseFirmware.Keyword

def Handler.command : Handler → String
  | .wifi => "wifi "
  | .sensors => "sensors "
  | .config => "config"
  | .token => "token"
  | .internet => "internet"
  | .resetPulse => "reset_pulse!"
  | .link => "link"
  | .testInternet => "test internet"
  | .testEthernet => "test ethernet"
  | .getVersion => "get version"
  | .activateDfutarg => "activate dfutarg"
  | .restartPulse => "restart pulse"
  | .getMac => "get mac"
  | .getWifimac => "get wifimac"
  | .ipconfig => "ipconfig "
  | .none => ""

def commands : List Handler :=
  [.wifi,.sensors,.config,.token,.internet,.resetPulse,.link,.testInternet,.testEthernet,.getVersion,
    .activateDfutarg,.restartPulse,.getMac,.getWifimac,.ipconfig]

def Handler.word (h : Handler) : List UInt8 := ascii h.command

/-- The command ends in a space, so it is compared with the length of the line. -/
def Handler.spaced (h : Handler) : Bool := h.word.getLast? = some 32

/-- The command carries an argument, with or without a space in the comparison. -/
def Handler.argument (h : Handler) : Bool := h.spaced || h ∈ [.config,.token,.internet,.link]

def Handler.Matches (h : Handler) (line : List UInt8) : Prop :=
  if h.argument then h.word <+: line ∧ h.word.length < line.length else line = h.word

instance (h : Handler) (line : List UInt8) : Decidable (h.Matches line) := by
  unfold Handler.Matches
  infer_instance

def recognised (line : List UInt8) : Handler := (commands.find? fun h => h.Matches line).getD .none

/-- The comparison `cmd_parse` makes for a command. -/
def Handler.compared (h : Handler) (mem : List UInt8) (len : Nat) : Bool :=
  cmdCmp mem 0 (if h.spaced then len else h.word.length) h.command

private theorem find_step {p : Handler → Bool} {h : Handler} {rest : List Handler} {chosen : Bool} {other : Handler}
    (now : chosen = p h) (later : other = (rest.find? p).getD .none) :
    (if chosen = true then h else other) = ((h :: rest).find? p).getD .none := by
  subst now later
  rw [List.find?_cons]
  cases p h <;> rfl

theorem dispatch_find (mem : List UInt8) (len : Nat) :
    dispatch mem len = (commands.find? fun h => h.compared mem len).getD .none := by
  unfold dispatch commands
  refine find_step rfl (find_step rfl (find_step rfl (find_step rfl (find_step rfl ?_))))
  refine find_step rfl (find_step rfl (find_step rfl (find_step rfl (find_step rfl ?_))))
  exact find_step rfl (find_step rfl (find_step rfl (find_step rfl (find_step rfl rfl))))

theorem commands_free : PrefixFree Handler.word commands := by
  unfold PrefixFree
  decide +kernel

private theorem words_printable : ∀ h ∈ commands, h.word ≠ [] ∧ 0 ∉ h.word ∧ h.word.length ≤ 256 := by decide +kernel

theorem compared_iff {h : Handler} (member : h ∈ commands) (mem : List UInt8) (len : Nat) :
    h.compared mem len = true ↔ h.word <+: mem ∧ (h.spaced = true → h.word.length < len) := by
  obtain ⟨nonempty,printable,_⟩ := words_printable h member
  unfold Handler.compared
  rw [cmdCmp_iff (List.length_pos_iff.mpr nonempty) printable, List.drop_zero]
  refine and_congr_right fun _ => ?_
  change (if h.word.getLast? = some 32 then h.word.length < if h.spaced = true then len else h.word.length
    else (if h.spaced = true then len else h.word.length) = h.word.length) ↔ _
  by_cases space : h.word.getLast? = some 32
  · have spaced : h.spaced = true := decide_eq_true space
    rw [if_pos space, spaced, if_pos rfl]
    exact ⟨fun longer _ => longer,fun longer => longer rfl⟩
  · have unspaced : h.spaced = false := decide_eq_false space
    rw [if_neg space, unspaced]
    exact iff_of_true rfl fun absurd => by contradiction

private theorem matches_starts {h : Handler} {line : List UInt8} (fits : h.Matches line) : h.word <+: line := by
  unfold Handler.Matches at fits
  split at fits
  next => exact fits.1
  next => exact fits ▸ List.prefix_refl _

private theorem found_some {p : Handler → Bool} {h : Handler} (member : h ∈ commands)
    (same : (commands.find? p).getD .none = h) : p h = true := by
  cases found : commands.find? p with
  | none =>
    rw [found] at same
    subst same
    exact absurd member (by decide)
  | some h' =>
    rw [found] at same
    exact same ▸ List.find?_some found

theorem dispatch_starts {h : Handler} (member : h ∈ commands) {mem : List UInt8} {len : Nat}
    (compared : h.compared mem len = true) : dispatch mem len = h := by
  rw [dispatch_find, find_eq commands_free (fun h' member' holds => ((compared_iff member' mem len).mp holds).1) member
    compared]
  rfl

theorem dispatch_compared {h : Handler} (member : h ∈ commands) {mem : List UInt8} {len : Nat}
    (selected : dispatch mem len = h) : h.compared mem len = true :=
  found_some member (by rw [← dispatch_find, selected])

theorem dispatch_iff {h : Handler} (member : h ∈ commands) {mem : List UInt8} {len : Nat} :
    dispatch mem len = h ↔ h.compared mem len = true :=
  ⟨dispatch_compared member,dispatch_starts member⟩

def Globals.line (g : Globals) (len : Nat) : List UInt8 := g.cmdBuff.toList.take len

/-- The handler is the one the line is for, and stays the same with any other bytes behind it. -/
def Recognises (g : Globals) (len : Nat) : Prop :=
  dispatch g.mem len = recognised (g.line len) ∧
    ∀ g' : Globals, g'.line len = g.line len → dispatch g'.mem len = dispatch g.mem len

/-- No command without a space is longer than the line it is cut off by, or starts a line it is not for. -/
def Decided (line : List UInt8) : Prop :=
  ∀ h ∈ commands, h.spaced = false → ¬ (line <+: h.word ∧ line ≠ h.word) ∧ (h.word <+: line → h.Matches line)

private theorem line_mem (g : Globals) {len : Nat} (bound : len ≤ 256) :
    g.line len <+: g.mem ∧ (g.line len).length = len ∧ ∀ word, word <+: g.mem → word.length ≤ len → word <+: g.line len := by
  have size : (g.line len).length = len := by
    rw [Globals.line, List.length_take, g.cmdBuff.toList_length]
    omega
  have start : g.line len <+: g.mem := (List.take_prefix len _).trans (List.prefix_append _ _)
  exact ⟨start,size,fun word starts short => List.prefix_of_prefix_length_le starts start (by omega)⟩

private theorem compared_matches {g : Globals} {len : Nat} (bound : len ≤ 256) (decided : Decided (g.line len))
    {h : Handler} (member : h ∈ commands) : h.compared g.mem len = decide (h.Matches (g.line len)) := by
  obtain ⟨start,size,within⟩ := line_mem g bound
  apply Bool.eq_iff_iff.mpr
  rw [compared_iff member, decide_eq_true_eq]
  cases spaced : h.spaced with
  | true =>
    have argument : h.argument = true := by simp [Handler.argument, spaced]
    simp only [Handler.Matches, argument, if_true, size, forall_const]
    constructor
    · rintro ⟨starts,longer⟩
      exact ⟨within h.word starts (by omega),longer⟩
    · rintro ⟨starts,longer⟩
      exact ⟨starts.trans start,longer⟩
  | false =>
    obtain ⟨whole,rule⟩ := decided h member spaced
    constructor
    · rintro ⟨starts,-⟩
      rcases List.prefix_or_prefix_of_prefix starts start with shorter | longer
      · exact rule shorter
      · by_cases same : g.line len = h.word
        · exact rule (same ▸ List.prefix_refl _)
        · exact absurd ⟨longer,same⟩ whole
    · intro fits
      exact ⟨(matches_starts fits).trans start,fun absurd => by contradiction⟩

private theorem dispatch_decided {g : Globals} {len : Nat} (bound : len ≤ 256) (decided : Decided (g.line len)) :
    dispatch g.mem len = recognised (g.line len) := by
  rw [dispatch_find, recognised]
  exact congrArg (·.getD .none) (List.find?_congr fun h member => compared_matches bound decided member)

private theorem buffer_line (g : Globals) (bytes : List UInt8) (fits : bytes.length ≤ 256) {len : Nat}
    (within : len ≤ bytes.length) :
    Globals.line { g with cmdBuff := memcpy (zeros 256) bytes } len = bytes.take len ∧
      bytes <+: Globals.mem { g with cmdBuff := memcpy (zeros 256) bytes } := by
  have copied := memcpy_toList (zeros 256) bytes fits
  constructor
  · change (memcpy (zeros 256) bytes).toList.take len = _
    rw [copied, List.take_append_of_le_length within]
  · change _ <+: (memcpy (zeros 256) bytes).toList ++ _
    rw [copied, List.append_assoc]
    exact List.prefix_append _ _

private theorem cut_off {g : Globals} {len : Nat} (bound : len ≤ 256) {h : Handler} (member : h ∈ commands)
    (unspaced : h.spaced = false) (start : g.line len <+: h.word) (shorter : g.line len ≠ h.word) :
    ∃ g' : Globals, g'.line len = g.line len ∧ dispatch g'.mem len ≠ dispatch g.mem len := by
  obtain ⟨-,printable,fits⟩ := words_printable h member
  obtain ⟨-,size,-⟩ := line_mem g bound
  have less : (g.line len).length < h.word.length := by
    rcases Nat.lt_or_ge (g.line len).length h.word.length with less | more
    · exact less
    · exact absurd (start.eq_of_length_le more) shorter
  have inside : len ≤ h.word.length := by omega
  have within : len ≤ (g.line len ++ [0]).length := by
    rw [List.length_append]
    omega
  obtain ⟨whole,starts⟩ := buffer_line g h.word fits inside
  have same : h.word.take len = g.line len := by
    rw [List.prefix_iff_eq_take.mp start, size]
  have taken := dispatch_starts member ((compared_iff member _ len).mpr ⟨starts,by simp [unspaced]⟩)
  obtain ⟨cleared,stale⟩ := buffer_line g (g.line len ++ [0]) (by simp; omega) within
  have same' : (g.line len ++ [0]).take len = g.line len := List.take_left' size
  have refused (selected : dispatch (Globals.mem { g with cmdBuff := memcpy (zeros 256) (g.line len ++ [0]) }) len = h) :
      False := by
    have begins := ((compared_iff member _ len).mp (dispatch_compared member selected)).1
    have zero : g.line len ++ [0] <+: h.word := List.prefix_of_prefix_length_le stale begins (by simp; omega)
    exact printable (zero.subset (by simp))
  by_cases chosen : dispatch g.mem len = h
  · exact ⟨_,cleared.trans same',fun equal => refused (equal.trans chosen)⟩
  · exact ⟨_,whole.trans same,fun equal => chosen (equal.symm.trans taken)⟩

/-- The line alone selects its handler just when no command without a space lies across its end
or starts it against the rule. -/
theorem recognises_iff (g : Globals) (len : Nat) (bound : len ≤ 256) : Recognises g len ↔ Decided (g.line len) := by
  obtain ⟨start,size,-⟩ := line_mem g bound
  constructor
  · rintro ⟨right,stable⟩ h member unspaced
    constructor
    · rintro ⟨cut,shorter⟩
      obtain ⟨g',same,other⟩ := cut_off bound member unspaced cut shorter
      exact other (stable g' same)
    · intro starts
      have selected := dispatch_starts member
        ((compared_iff member g.mem len).mpr ⟨starts.trans start,by simp [unspaced]⟩)
      exact of_decide_eq_true (found_some member (right.symm.trans selected))
  · intro decided
    refine ⟨dispatch_decided bound decided,fun g' same => ?_⟩
    rw [dispatch_decided bound decided, dispatch_decided bound (same ▸ decided), same]

def staleBehind : Globals :=
  { Globals.initial (zeros 235) with cmdBuff := memcpy (zeros 256) (ascii "wifi ssid home network"), cmdLen := 14 }

theorem recognises_iff_stale : Recognises staleBehind 14 ↔ Decided (staleBehind.line 14) :=
  recognises_iff staleBehind 14 (by decide)

private theorem after_return : (cmdFeed (Globals.initial (zeros 235)) (ascii "get version" ++ [13])).toOption.map
    (fun (g,code) => (code,g.cmdLen,dispatch g.mem 0,recognised (g.line 0))) = some (0,0,.getVersion,.none) := by
  decide +kernel

/-- The line feed after a carriage return runs the command once more, as an empty line. -/
theorem empty_line_recognised : ∃ g, cmdFeed (Globals.initial (zeros 235)) (ascii "get version" ++ [13]) = .ok (g,0) ∧
    g.cmdLen = 0 ∧ ¬ Recognises g 0 := by
  obtain ⟨⟨g,code⟩,run,seen⟩ := observed after_return
  obtain ⟨taken,rest⟩ := Prod.mk.inj seen
  obtain ⟨empty,rest⟩ := Prod.mk.inj rest
  obtain ⟨selected,matched⟩ := Prod.mk.inj rest
  obtain rfl : code = 0 := taken
  refine ⟨g,run,empty,?_⟩
  rintro ⟨right,-⟩
  rw [selected, matched] at right
  contradiction

end PulseFirmware
