import PulseFirmware.CommandEffects
import PulseFirmware.Footprint

/-! How far a save has come, and what its actions and those of all other sections do to a
setting: its mark and source variables, its working copy and its stored bytes. -/
namespace PulseFirmware
open PulseFirmware.CString PulseFirmware.Flash

def Op.isWrite : Op → Bool
  | .write _ _ _ => true
  | _ => false

def Op.isCompute : Op → Bool
  | .compute _ => true
  | _ => false

/-- The number of parts written before action `k` of the save. -/
def Setting.writes (x : Setting) (k : Nat) : Nat := ((saveOps x).take k).countP Op.isWrite

/-- The working copy has been made before action `k`; only the internet mode still has
something to do after it. -/
def Setting.copied (x : Setting) (k : Nat) : Bool := ((saveOps x).take k).any Op.isCompute

def Setting.done : Setting → Globals → Outcome Globals
  | .token => tokenDone
  | .link => linkDone
  | .ssid => ssidDone
  | .key => keyDone
  | .internet => internetDone
  | .config => configDone
  | .ip => ipDone
  | .dhcp => dhcpDone

def Setting.early (x : Setting) (k : Nat) (op : Op) : Bool :=
  (x.parts.take (x.writes k)).all fun part => op.apart part.addr part.len

inductive SaveAction (x : Setting) (k : Nat) : Op → Prop
  | pause {op : Op} (yields : op.yields = true) (more : k + 1 < (saveOps x).length)
      (writes : x.writes (k + 1) = x.writes k) (copied : x.copied (k + 1) = x.copied k) : SaveAction x k op
  | erase (addr : Nat) (more : k + 1 < (saveOps x).length) (early : x.early k (.erase addr) = true)
      (writes : x.writes (k + 1) = x.writes k) (before : x.copied k = false) (after : x.copied (k + 1) = false) :
      SaveAction x k (.erase addr)
  | write {addr len : Nat} {src : Globals → List UInt8} (more : k + 1 < (saveOps x).length)
      (part : Part) (next : x.parts[x.writes k]? = some part) (place : part.addr = addr)
      (same : ∀ g, (src g).take len = part.src g)
      (early : x.early k (.write addr len src) = true) (writes : x.writes (k + 1) = x.writes k + 1)
      (before : x.copied k = false) (after : x.copied (k + 1) = false) : SaveAction x k (.write addr len src)
  | copy (own : x = .internet) (more : k + 1 < (saveOps x).length) (writes : x.writes k = x.parts.length)
      (same : x.writes (k + 1) = x.writes k) (before : x.copied k = false) (after : x.copied (k + 1) = true) :
      SaveAction x k (.compute internetCopy)
  | done {f : Globals → Outcome Globals} (own : f = x.done) (last : k + 1 = (saveOps x).length)
      (writes : x.writes k = x.parts.length) (before : x.copied k = decide (x = .internet)) :
      SaveAction x k (.compute f)

private theorem array_take {n : Nat} (bytes : Bytes n) : bytes.toList.take n = bytes.toList :=
  List.take_of_length_le (Nat.le_of_eq bytes.toList_length)

/-- Every action of a save is one of these: the cases are the actions of the eight lists. -/
theorem saveOps_action {x : Setting} {k : Nat} {op : Op} (found : (saveOps x)[k]? = some op) : SaveAction x k op := by
  cases x <;> rcases k with _ | _ | _ | _ | _ | _ | _ | _ | _ | _ | _ | _ | _ | _ | k <;> cases found <;>
    first
      | exact .pause rfl (by decide) rfl rfl
      | exact .erase _ (by decide) rfl rfl rfl rfl
      | exact .write (by decide) _ rfl rfl (fun _ => array_take _) rfl rfl rfl rfl
      | exact .write (by decide) _ rfl rfl (fun _ => rfl) rfl rfl rfl rfl
      | exact .copy rfl (by decide) rfl rfl rfl rfl
      | exact .done rfl rfl rfl (by decide)

theorem copied_writes {x : Setting} {k : Nat} (copied : x.copied k = true) : 0 < x.writes k := by
  cases x <;> rcases k with _ | _ | _ | _ | _ | _ | _ | _ | _ | _ | _ | _ | _ | _ | _ | k <;>
    first | exact Nat.zero_lt_succ _ | contradiction

/-- The mark, the source variables and the working copy of a setting are as before. -/
structure Setting.Spared (y : Setting) (g g' : Globals) : Prop where
  keeps : y.Keeps g g'
  working : ∀ value, y.working g' value ↔ y.working g value

theorem Setting.Spared.refl (y : Setting) (g : Globals) : y.Spared g g := ⟨⟨rfl,rfl⟩,fun _ => Iff.rfl⟩

theorem done_pending {x : Setting} {g g' : Globals} (done : x.done g = .ok g') : x.pending g' = false := by
  cases x with
  | token =>
    obtain ⟨copy,_,rest⟩ := bind_ok done
    cases rest
    change strncmpEq (memcpy g.apiTokenFirst z).toList (literal "token") 5 = false
    rw [memcpy_toList _ _ (by decide)]
    rfl
  | link =>
    obtain ⟨copy,_,rest⟩ := bind_ok done
    cases rest
    change strncmpEq (memcpy g.apiLinkFirst z).toList (literal "link") 4 = false
    rw [memcpy_toList _ _ (by decide)]
    rfl
  | ssid => cases done; rfl
  | key => cases done; rfl
  | internet =>
    cases done
    change strncmpEq (memcpy g.isInternetFirst z).toList (literal "internet") 8 = false
    rw [memcpy_toList _ _ (by decide)]
    rfl
  | config =>
    cases done
    have marked := strcpyLit_starts g.configString "z" (by decide)
    have printable : 0 ∉ ascii "z" := by decide
    exact congrArg (!·) ((strcmpEq_terminated printable _).mpr marked)
  | ip =>
    cases done
    change strcmpEq (strcpyLit g.ipaddressChanged "unchanged").toList (literal "changed") = false
    rw [strcpyLit, memcpy_toList _ _ (by decide)]
    rfl
  | dhcp =>
    cases done
    change strcmpEq (strcpyLit g.dhcpCheckChanged "false").toList (literal "true") = false
    rw [strcpyLit, memcpy_toList _ _ (by decide)]
    rfl

/-- The last action makes the working copy, but for the internet mode, which has it already. -/
theorem done_working {x : Setting} {g g' : Globals} (done : x.done g = .ok g') :
    (x ≠ .internet → x.working g' (x.saved g)) ∧ (x = .internet → ∀ value, x.working g' value ↔ x.working g value) := by
  cases x with
  | token =>
    obtain ⟨copy,copied,rest⟩ := bind_ok done
    cases rest
    exact ⟨fun _ => congrArg ([·]) (strcpyOr_chars copied).symm,fun other => nomatch other⟩
  | link =>
    obtain ⟨copy,copied,rest⟩ := bind_ok done
    cases rest
    exact ⟨fun _ => congrArg ([·]) (strcpyOr_chars copied).symm,fun other => nomatch other⟩
  | internet => cases done; exact ⟨fun other => absurd rfl other,fun _ _ => Iff.rfl⟩
  | config =>
    cases done
    have copied := memcpy_take g.configString1 (g.configString.toList.take 48)
      (by simp [g.configString.toList_length])
    rw [List.length_take, g.configString.toList_length] at copied
    exact ⟨fun _ => congrArg ([·]) copied.symm,fun other => nomatch other⟩
  | _ => exact ⟨fun _ => trivial,fun other => nomatch other⟩

theorem internetCopy_spec {g g' : Globals} (done : internetCopy g = .ok g') :
    Setting.internet.pending g' = Setting.internet.pending g ∧
      Setting.internet.working g' (Setting.internet.saved g) ∧ ∀ y ≠ Setting.internet, y.Spared g g' := by
  obtain ⟨copy,copied,rest⟩ := bind_ok done
  cases rest
  refine ⟨rfl,congrArg ([·]) (strcpyOr_chars copied).symm,fun y other => ?_⟩
  cases y <;> first | exact ⟨⟨rfl,rfl⟩,fun _ => Iff.rfl⟩ | exact absurd rfl other

theorem done_spared {x y : Setting} (other : y ≠ x) {g g' : Globals} (done : x.done g = .ok g') : y.Spared g g' := by
  cases x with
  | token =>
    obtain ⟨copy,_,rest⟩ := bind_ok done
    cases rest
    cases y <;> first | exact ⟨⟨rfl,rfl⟩,fun _ => Iff.rfl⟩ | exact absurd rfl other
  | link =>
    obtain ⟨copy,_,rest⟩ := bind_ok done
    cases rest
    cases y <;> first | exact ⟨⟨rfl,rfl⟩,fun _ => Iff.rfl⟩ | exact absurd rfl other
  | _ =>
    cases done
    cases y <;> first | exact ⟨⟨rfl,rfl⟩,fun _ => Iff.rfl⟩ | exact absurd rfl other

theorem bootRead_keeps {y : Setting} (notFlags : y ≠ .dhcp) {branch : Bool} {k : Nat} {op : Op} {g g' : Globals}
    {flash : Content UInt8} (found : (Stage.bootRead.ops branch)[k]? = some op)
    (computed : op.computed g flash = .ok g') : y.Keeps g g' := by
  have member := List.mem_of_getElem? found
  cases branch <;> simp only [Stage.ops, bootReads, List.mem_cons, List.not_mem_nil, or_false] at member
  rcases member with rfl | rfl | rfl | rfl | rfl | rfl | rfl | rfl | rfl | rfl | rfl | rfl <;> cases computed <;>
    cases y <;> first | exact ⟨rfl,rfl⟩ | exact absurd rfl notFlags

/-- An action of another section touches neither the variables of a setting nor its working
copy; the boot section is the exception, for the copies and the flags. -/
theorem other_spared {y : Setting} {stage : Stage} {branch : Bool} {k : Nat} {op : Op} {g g' : Globals}
    {flash : Content UInt8} (found : (stage.ops branch)[k]? = some op) (computed : op.computed g flash = .ok g')
    (other : stage ≠ .save y) (notRead : stage ≠ .bootRead)
    (notFlags : y = .dhcp → stage.defaults branch = false) : y.Spared g g' := by
  have member := List.mem_of_getElem? found
  cases stage with
  | bootRead => exact absurd rfl notRead
  | bootWifi =>
    cases branch <;> simp only [Stage.ops, defaultWifi, List.mem_cons, List.not_mem_nil, or_false] at member
    · rcases member with rfl | rfl | rfl
      · cases computed; exact .refl y g
      · cases computed; exact .refl y g
      · cases computed
        cases y <;> first | exact ⟨⟨rfl,rfl⟩,fun _ => Iff.rfl⟩ | exact absurd (notFlags rfl) (by decide)
    · subst member; cases computed; exact .refl y g
  | bootEth =>
    cases branch <;> simp only [Stage.ops, defaultEth, List.mem_cons, List.not_mem_nil, or_false] at member
    · rcases member with rfl | rfl | rfl
      · cases computed; exact .refl y g
      · cases computed; exact .refl y g
      · cases computed
        cases y <;> first | exact ⟨⟨rfl,rfl⟩,fun _ => Iff.rfl⟩ | exact absurd (notFlags rfl) (by decide)
    · subst member; cases computed; exact .refl y g
  | testInternet =>
    cases branch <;> simp only [Stage.ops, testInternetOps, List.mem_cons, List.not_mem_nil, or_false] at member
    rcases member with rfl | rfl
    · cases computed; exact .refl y g
    · cases computed
      cases y <;> exact ⟨⟨rfl,rfl⟩,fun _ => Iff.rfl⟩
  | restart =>
    cases branch <;> simp only [Stage.ops, List.mem_cons, List.not_mem_nil, or_false] at member
    subst member
    contradiction
  | update =>
    cases branch <;> simp only [Stage.ops, List.mem_cons, List.not_mem_nil, or_false] at member
    · subst member; cases computed; exact .refl y g
    · subst member; contradiction
  | save x =>
    cases branch
    · simp [Stage.ops] at member
    · have distinct : y ≠ x := fun same => other (congrArg Stage.save same.symm)
      cases saveOps_action found with
      | pause yields => cases op <;> first | contradiction | (cases computed; exact .refl y g)
      | erase => cases computed; exact .refl y g
      | write => cases computed; exact .refl y g
      | copy own => exact (internetCopy_spec computed).2.2 y (own ▸ distinct)
      | done own => exact done_spared distinct (own ▸ computed)

end PulseFirmware
