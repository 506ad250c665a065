import PulseFirmware.Storage

/-! Which flash ranges the actions of the storage task leave alone. -/
namespace PulseFirmware
open PulseFirmware.CString PulseFirmware.Flash

def Op.apart (addr len : Nat) : Op → Bool
  | .erase page => decide ((addr + (len - 1)) / 4096 < page / 4096 ∨ page / 4096 < addr / 4096)
  | .write addr' len' _ => decide (Flash.Disjoint addr len addr' len')
  | .vTaskDelay | .waitForFlashReady | .read _ _ _ | .compute _ => true

def Setting.apart (x : Setting) (ops : List Op) : Bool :=
  x.parts.all fun part => ops.all (·.apart part.addr part.len)

theorem apart_untouched {addr len a : Nat} {op : Op} (g : Globals) (apart : op.apart addr len = true)
    (inside : Inside addr len a) : op.touches g a = false := by
  obtain ⟨low,high⟩ := inside
  cases op with
  | erase page =>
    have last : a ≤ addr + (len - 1) := by omega
    have upper : a / 4096 ≤ (addr + (len - 1)) / 4096 := Nat.div_le_div_right last
    have lower : addr / 4096 ≤ a / 4096 := Nat.div_le_div_right low
    apply decide_eq_false
    rcases of_decide_eq_true apart with before | after <;> omega
  | write addr' len' src =>
    have short : ((src g).take len').length ≤ len' := List.length_take_le _ _
    apply decide_eq_false
    rintro ⟨low',high'⟩
    rcases of_decide_eq_true apart with before | after <;> omega
  | _ => rfl

theorem flashed_untouched (cell : UInt8 → UInt8 → UInt8) (g : Globals) (flash : Content UInt8) {op : Op} {a : Nat}
    (untouched : op.touches g a = false) : op.flashed (paged cell) g flash a = flash a := by
  cases op with
  | erase page => exact erase_outside (paged cell) flash page a (of_decide_eq_false untouched)
  | write addr len src => exact program_outside (paged cell) flash addr a _ (of_decide_eq_false untouched)
  | _ => rfl

theorem flashed_apart (cell : UInt8 → UInt8 → UInt8) (g : Globals) (flash : Content UInt8) {addr len : Nat}
    {op : Op} (apart : op.apart addr len = true) :
    read (op.flashed (paged cell) g flash) addr len = read flash addr len :=
  read_congr fun _ inside => flashed_untouched cell g flash (apart_untouched g apart inside)

theorem flashOps_apart (cell : UInt8 → UInt8 → UInt8) (g : Globals) {addr len : Nat} (ops : List Op)
    (flash : Content UInt8) (apart : ∀ op ∈ ops, op.apart addr len = true) :
    read (flashOps (paged cell) g ops flash) addr len = read flash addr len := by
  unfold flashOps
  induction ops generalizing flash with
  | nil => rfl
  | cons op ops ih =>
    rw [List.foldl_cons, ih _ fun later member => apart later (List.mem_cons_of_mem op member)]
    exact flashed_apart cell g flash (apart op List.mem_cons_self)

theorem apart_loaded {part : Part} {op : Op} (apart : op.apart part.addr part.len = true) :
    op.apart part.addr part.load = true := by
  have fits := part.fits
  cases op with
  | erase page =>
    have last : (part.addr + (part.load - 1)) / 4096 ≤ (part.addr + (part.len - 1)) / 4096 :=
      Nat.div_le_div_right (by omega)
    have apart := of_decide_eq_true apart
    apply decide_eq_true
    omega
  | write addr' len' src =>
    have apart := of_decide_eq_true apart
    apply decide_eq_true
    unfold Flash.Disjoint at apart ⊢
    omega
  | _ => rfl

theorem loaded_apart (cell : UInt8 → UInt8 → UInt8) (g : Globals) (flash : Content UInt8) {x : Setting}
    {ops : List Op} (apart : x.apart ops = true) :
    x.loaded (flashOps (paged cell) g ops flash) = x.loaded flash := by
  apply List.map_congr_left
  intro part inside
  exact flashOps_apart cell g ops flash fun op member =>
    apart_loaded (List.all_eq_true.mp (List.all_eq_true.mp apart part inside) op member)

/-- The settings whose range lies in the page that holds the internet mode. -/
def Setting.sharesPage : Setting → Bool
  | .token | .link | .ssid | .key => true
  | .internet | .config | .ip | .dhcp => false

theorem saveOps_apart {x y : Setting} (other : y ≠ x) (spared : x = .internet → y.sharesPage = false) :
    y.apart (saveOps x) = true := by
  cases x <;> cases y <;> first | rfl | exact absurd rfl other | exact absurd (spared rfl) (by decide)

end PulseFirmware
