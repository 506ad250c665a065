import Mathlib.Algebra.Ring.Nat
import PulseFirmware.Enc28j60

/-! What one transfer to the ENC28J60 does: its effect on the register it names, before which frames may
have come in and other registers changed. -/
namespace PulseFirmware.Enc28j60

/-- Neither what the chip does by itself nor a choice of the bank ends the property. -/
structure Stable (P : Chip → Prop) : Prop where
  hw : ∀ c h, P c → P (c.hw h)
  bank : ∀ c b, P c → P { c with bank := b }

/-- The register that the driver reaches under a name, whichever bank is chosen. -/
def Known (r : UInt8) (i : Place) : Prop :=
  r &&& bankmask ≠ bankIndeterminate ∧
    ∀ b : Fin 4, (r &&& bankmask = bankall ∨ b.val = (r >>> 6).toNat % 4) → place b (r &&& registermask) = i

instance (r : UInt8) (i : Place) : Decidable (Known r i) := inferInstanceAs (Decidable (_ ∧ _))

structure World.Later (w w' : World) : Prop where
  dev : w'.dev = w.dev
  hardware : w'.hardware = w.hardware
  now : w.now ≤ w'.now

theorem World.Later.refl (w : World) : w.Later w := ⟨rfl,rfl,Nat.le_refl _⟩

theorem World.Later.trans {w w' w'' : World} (first : w.Later w') (second : w'.Later w'') : w.Later w'' :=
  ⟨second.dev.trans first.dev,second.hardware.trans first.hardware,Nat.le_trans first.now second.now⟩

section
variable {P Q R : Chip → Prop} {w : World} {r : UInt8} {i : Place}

theorem Stable.and (first : Stable P) (second : Stable Q) : Stable fun c => P c ∧ Q c :=
  ⟨fun c h both => ⟨first.hw c h both.1,second.hw c h both.2⟩,fun c b both => ⟨first.bank c b both.1,second.bank c b both.2⟩⟩

theorem Stable.events (stable : Stable P) {c : Chip} (holds : P c) (events : List Hw) : P (events.foldl Chip.hw c) := by
  induction events generalizing c with
  | nil => exact holds
  | cons h events ih => exact ih (stable.hw c h holds)

theorem Stable.tick (stable : Stable P) (holds : P w.chip) : P w.tick.chip := stable.events holds _

theorem hw_bank (c : Chip) (h : Hw) : (c.hw h).bank = c.bank := by
  cases h <;> unfold Chip.hw <;> dsimp only
  · split <;> rfl
  · split <;> rfl

theorem tick_bank (w : World) : w.tick.chip.bank = w.chip.bank := by
  unfold World.tick
  dsimp only
  generalize w.chip = c
  induction w.hardware w.now generalizing c with
  | nil => rfl
  | cons h events ih => exact (ih (c.hw h)).trans (hw_bank c h)

private theorem settled_bank (b : Fin 4) (n : Nat) (low : n < 4) (control : Control) :
    Fin.ofNat 4 (control.value ||| .ofNat b.val ||| .ofNat n).toNat = .ofNat 4 (UInt8.ofNat b.val ||| .ofNat n).toNat ∧
      settle (control.value ||| .ofNat b.val ||| .ofNat n) = control.value ∧
      Fin.ofNat 4 ((control.value ||| .ofNat b.val) &&& ~~~.ofNat n).toNat =
        .ofNat 4 (UInt8.ofNat b.val &&& ~~~.ofNat n).toNat ∧
      settle ((control.value ||| .ofNat b.val) &&& ~~~.ofNat n) = control.value := by
  have all : ∀ v < 256, settle (.ofNat v) = .ofNat v → ∀ n < 4, ∀ b : Fin 4,
      Fin.ofNat 4 (UInt8.ofNat v ||| .ofNat b.val ||| .ofNat n).toNat = .ofNat 4 (UInt8.ofNat b.val ||| .ofNat n).toNat ∧
        settle (.ofNat v ||| .ofNat b.val ||| .ofNat n) = .ofNat v ∧
        Fin.ofNat 4 ((UInt8.ofNat v ||| .ofNat b.val) &&& ~~~.ofNat n).toNat =
          .ofNat 4 (UInt8.ofNat b.val &&& ~~~.ofNat n).toNat ∧
        settle ((.ofNat v ||| .ofNat b.val) &&& ~~~.ofNat n) = .ofNat v := by decide +kernel
  have here := all _ control.value.toNat_lt
  rw [UInt8.ofNat_toNat] at here
  exact here control.settled n low b

private theorem Control.of_settled {v : UInt8} {control : Control} (same : settle v = control.value) :
    Control.of v = control := by
  cases control
  unfold Control.of
  congr

private theorem command_set (w : World) (n : Nat) (low : n < 4) :
    (w.command (0x80 ||| (econ1 &&& registermask)) (.ofNat n)).1.chip =
      { w.tick.chip with bank := .ofNat 4 (UInt8.ofNat w.chip.bank.val ||| .ofNat n).toNat } := by
  obtain ⟨bank,control,-⟩ := settled_bank w.chip.bank n low w.tick.chip.control
  have written : (w.command (0x80 ||| (econ1 &&& registermask)) (.ofNat n)).1.chip =
    w.tick.chip.put .econ1 (w.tick.chip.fetch .econ1 ||| .ofNat n) := rfl
  rw [written, Chip.put, Chip.fetch, tick_bank, Control.of_settled control, bank]

private theorem command_clear (w : World) (n : Nat) (low : n < 4) :
    (w.command (0xa0 ||| (econ1 &&& registermask)) (.ofNat n)).1.chip =
      { w.tick.chip with bank := .ofNat 4 (UInt8.ofNat w.chip.bank.val &&& ~~~.ofNat n).toNat } := by
  obtain ⟨-,-,bank,control⟩ := settled_bank w.chip.bank n low w.tick.chip.control
  have written : (w.command (0xa0 ||| (econ1 &&& registermask)) (.ofNat n)).1.chip =
    w.tick.chip.put .econ1 (w.tick.chip.fetch .econ1 &&& ~~~.ofNat n) := rfl
  rw [written, Chip.put, Chip.fetch, tick_bank, Control.of_settled control, bank]

private theorem Stable.set (stable : Stable P) (holds : P w.chip) (n : Nat) (low : n < 4) :
    P (w.command (0x80 ||| (econ1 &&& registermask)) (.ofNat n)).1.chip := by
  rw [command_set w n low]
  exact stable.bank _ _ (stable.tick holds)

private theorem Stable.clear (stable : Stable P) (holds : P w.chip) (n : Nat) (low : n < 4) :
    P (w.command (0xa0 ||| (econ1 &&& registermask)) (.ofNat n)).1.chip := by
  rw [command_clear w n low]
  exact stable.bank _ _ (stable.tick holds)

theorem selectPage_holds (stable : Stable P) (holds : P w.chip) (page : Nat) (low : page < 4) :
    P (w.selectPage (.ofNat page)).chip ∧ (w.selectPage (.ofNat page)).chip.bank = .ofNat 4 page := by
  have halves : UInt8.ofNat page &&& 0x03 = .ofNat page ∧ ~~~UInt8.ofNat page &&& 0x03 = .ofNat (3 - page) ∧
      (UInt8.ofNat page = 0 ↔ page = 0) ∧ (UInt8.ofNat (3 - page) = 0 ↔ page = 3) := by
    revert page
    decide
  have chosen : ∀ page < 4, ∀ b : Fin 4,
      let set := if page = 0 then b else Fin.ofNat 4 (UInt8.ofNat b.val ||| .ofNat page).toNat
      (if page = 3 then set else .ofNat 4 (UInt8.ofNat set.val &&& ~~~.ofNat (3 - page)).toNat) = .ofNat 4 page := by
    decide
  have choose := chosen page low w.chip.bank
  unfold World.selectPage
  dsimp only
  rw [halves.1, halves.2.1]
  simp only [halves.2.2.1, halves.2.2.2]
  have first : P (if page = 0 then w else (w.command (0x80 ||| (econ1 &&& registermask)) (.ofNat page)).1).chip ∧
      (if page = 0 then w else (w.command (0x80 ||| (econ1 &&& registermask)) (.ofNat page)).1).chip.bank =
        if page = 0 then w.chip.bank else .ofNat 4 (UInt8.ofNat w.chip.bank.val ||| .ofNat page).toNat := by
    split
    · exact ⟨holds,rfl⟩
    · exact ⟨stable.set holds page low,by rw [command_set w page low]⟩
  dsimp only at choose
  rw [← first.2] at choose
  split
  next last => exact ⟨first.1,by rwa [if_pos last] at choose⟩
  next last =>
    refine ⟨stable.clear first.1 (3 - page) (by omega),?_⟩
    rw [if_neg last] at choose
    rw [command_clear _ (3 - page) (by omega)]
    exact choose

private theorem page_value (r : UInt8) : ∃ page < 4, r >>> 6 = .ofNat page ∧ (r >>> 6).toNat = page := by
  have all : ∀ n < 256, (UInt8.ofNat n >>> 6).toNat < 4 := by decide +kernel
  have low := all _ r.toNat_lt
  rw [UInt8.ofNat_toNat] at low
  exact ⟨_,low,UInt8.ofNat_toNat.symm,rfl⟩

theorem Known.accessible (known : Known r i) (unused : w.dev.lastUsedRegister = bankIndeterminate) (stable : Stable P)
    (holds : P w.chip) : P (w.ensureRegisterAccessible r).chip ∧
      place (w.ensureRegisterAccessible r).chip.bank (r &&& registermask) = i := by
  unfold World.ensureRegisterAccessible
  rw [unused, if_neg known.1]
  split
  next all => exact ⟨holds,known.2 _ (Or.inl all)⟩
  next =>
    obtain ⟨page,low,value,number⟩ := page_value r
    rw [value]
    obtain ⟨kept,bank⟩ := selectPage_holds stable holds page low
    refine ⟨kept,known.2 _ (Or.inr ?_)⟩
    rw [bank, number]
    rfl

private theorem decoded (r : UInt8) (op : Nat) (few : op < 8) :
    ((UInt8.ofNat op <<< 5 ||| (r &&& registermask)) &&& registermask = r &&& registermask) ∧
      (UInt8.ofNat op <<< 5 ||| (r &&& registermask)) >>> 5 = UInt8.ofNat op := by
  have all : ∀ n < 256, ∀ op < 8,
      ((UInt8.ofNat op <<< 5 ||| (UInt8.ofNat n &&& registermask)) &&& registermask = UInt8.ofNat n &&& registermask) ∧
        (UInt8.ofNat op <<< 5 ||| (UInt8.ofNat n &&& registermask)) >>> 5 = UInt8.ofNat op := by decide +kernel
  have here := all _ r.toNat_lt op few
  rwa [UInt8.ofNat_toNat] at here

private theorem tick_place (address : UInt8) (at_place : place w.chip.bank address = i) :
    place w.tick.chip.bank address = i := by rwa [tick_bank]

theorem encRCR_holds (known : Known r i) (unused : w.dev.lastUsedRegister = bankIndeterminate) (stable : Stable P)
    (holds : P w.chip) : P (w.encRCR r).1.chip ∧ (w.encRCR r).2 = (w.encRCR r).1.chip.fetch i := by
  obtain ⟨kept,found⟩ := known.accessible unused stable holds
  obtain ⟨address,op⟩ := decoded r 0 (by decide)
  have same : (0 : UInt8) <<< 5 ||| (r &&& registermask) = r &&& registermask := UInt8.zero_or
  change ((0 : UInt8) <<< 5 ||| (r &&& registermask)) &&& registermask = _ at address
  change ((0 : UInt8) <<< 5 ||| (r &&& registermask)) >>> 5 = 0 at op
  rw [same] at address op
  unfold World.encRCR World.command Chip.command
  dsimp only
  rw [address, op, tick_place _ found, if_pos rfl]
  exact ⟨stable.tick kept,rfl⟩

private theorem command_put (known : Known r i) (unused : w.dev.lastUsedRegister = bankIndeterminate) (stable : Stable P)
    (holds : P w.chip) (op : Nat) (few : op < 8) (data : UInt8) : ∃ c, P c ∧
      ((w.ensureRegisterAccessible r).command (UInt8.ofNat op <<< 5 ||| (r &&& registermask)) data).1.chip =
        if UInt8.ofNat op = 0 then c else if UInt8.ofNat op = 2 then c.put i data
        else if UInt8.ofNat op = 4 then c.put i (c.fetch i ||| data)
        else if UInt8.ofNat op = 5 then c.put i (c.fetch i &&& ~~~data) else c := by
  obtain ⟨kept,found⟩ := known.accessible unused stable holds
  obtain ⟨address,code⟩ := decoded r op few
  refine ⟨_,stable.tick kept,?_⟩
  unfold World.command Chip.command
  dsimp only
  rw [address, code, tick_place _ found]
  simp only [apply_ite Prod.fst]

theorem encWCR_holds (known : Known r i) (unused : w.dev.lastUsedRegister = bankIndeterminate) (stable : Stable P)
    (holds : P w.chip) (data : UInt8) : ∃ c, P c ∧ (w.encWCR r data).chip = c.put i data :=
  command_put known unused stable holds 2 (by decide) data

theorem encBFS_holds (known : Known r i) (unused : w.dev.lastUsedRegister = bankIndeterminate) (stable : Stable P)
    (holds : P w.chip) (data : UInt8) : ∃ c, P c ∧ (w.encBFS r data).chip = c.put i (c.fetch i ||| data) :=
  command_put known unused stable holds 4 (by decide) data

theorem encBFC_holds (known : Known r i) (unused : w.dev.lastUsedRegister = bankIndeterminate) (stable : Stable P)
    (holds : P w.chip) (data : UInt8) : ∃ c, P c ∧ (w.encBFC r data).chip = c.put i (c.fetch i &&& ~~~data) :=
  command_put known unused stable holds 5 (by decide) data

theorem fetch_control {m : UInt8} (other : ∀ b : Fin 4, UInt8.ofNat b.val &&& m = 0) (c : Chip) :
    c.fetch .econ1 &&& m = c.control.value &&& m := by
  have none := congrArg UInt8.toNat (other c.bank)
  rw [UInt8.toNat_and] at none
  apply UInt8.toNat_inj.mp
  rw [Chip.fetch, UInt8.toNat_and, UInt8.toNat_or, Nat.and_or_distrib_right, none, UInt8.toNat_and]
  exact Nat.or_zero _

theorem command_later (w : World) (first second : UInt8) : w.Later (w.command first second).1 := ⟨rfl,rfl,Nat.le_succ _⟩

theorem selectPage_later (w : World) (page : UInt8) : w.Later (w.selectPage page) := by
  unfold World.selectPage
  dsimp only
  split <;> split
  · exact .refl w
  · exact command_later _ _ _
  · exact command_later _ _ _
  · exact (command_later _ _ _).trans (command_later _ _ _)

theorem accessible_later (w : World) (r : UInt8) : w.Later (w.ensureRegisterAccessible r) := by
  unfold World.ensureRegisterAccessible
  split
  · exact .refl w
  · split
    · exact .refl w
    · exact selectPage_later _ _

theorem encRCR_later (w : World) (r : UInt8) : w.Later (w.encRCR r).1 := (accessible_later w r).trans (command_later _ _ _)

theorem encWCR_later (w : World) (r data : UInt8) : w.Later (w.encWCR r data) :=
  (accessible_later w r).trans (command_later _ _ _)

theorem encBFS_later (w : World) (r data : UInt8) : w.Later (w.encBFS r data) :=
  (accessible_later w r).trans (command_later _ _ _)

theorem encBFC_later (w : World) (r data : UInt8) : w.Later (w.encBFC r data) :=
  (accessible_later w r).trans (command_later _ _ _)

theorem encRCR16_later (w : World) (r : UInt8) : w.Later (w.encRCR16 r).1 := (encRCR_later _ _).trans (encRCR_later _ _)

theorem encWCR16_later (w : World) (r : UInt8) (data : UInt16) : w.Later (w.encWCR16 r data) :=
  (encWCR_later _ _ _).trans (encWCR_later _ _ _)

theorem rcvbuff_later (n : Nat) (w : World) : w.Later (World.rcvbuff n w).1 := by
  induction n generalizing w with
  | zero => exact .refl w
  | succ n ih =>
    have first : w.Later { w.tick with chip := w.tick.chip.readByte.1 } := ⟨rfl,rfl,Nat.le_succ _⟩
    exact first.trans (ih _)

theorem sendbuff_later (w : World) (data : List UInt8) : w.Later (w.sendbuff data) := by
  induction data generalizing w with
  | nil => exact .refl w
  | cons b data ih =>
    have first : w.Later { w.tick with chip := w.tick.chip.writeByte b } := ⟨rfl,rfl,Nat.le_succ _⟩
    exact first.trans (ih _)

theorem encRBM_later (w : World) (start : UInt16) (n : Nat) : w.Later (w.encRBM start n).1 := by
  unfold World.encRBM
  split
  · exact rcvbuff_later _ _
  · exact (encWCR16_later _ _ _).trans (rcvbuff_later _ _)

theorem encWBM_later (w : World) (src : List UInt8) (start : UInt16) : w.Later (w.encWBM src start) :=
  (encWCR16_later _ _ _).trans (sendbuff_later _ _)

theorem low_byte (data : UInt16) : (data &&& 0xff).toUInt8.toNat = data.toNat % 256 := by
  simp only [UInt16.toNat_toUInt8, UInt16.toNat_and]
  change (data.toNat &&& 2 ^ 8 - 1) % 2 ^ 8 = _
  rw [Nat.and_two_pow_sub_one_eq_mod, Nat.mod_mod]

theorem high_byte (data : UInt16) : (data >>> 8).toUInt8.toNat = data.toNat / 256 := by
  have small := data.toNat_lt
  simp only [UInt16.toNat_toUInt8, UInt16.toNat_shiftRight]
  change (data.toNat >>> 8) % 2 ^ 8 = _
  rw [Nat.shiftRight_eq_div_pow]
  omega

theorem encWCR16_holds {p : Pointer} (low : Known (r &&& 0xfe) (.pointer p false)) (high : Known (r ||| 1) (.pointer p true))
    (unused : w.dev.lastUsedRegister = bankIndeterminate) (before : Stable P) (between : Stable Q) (holds : P w.chip)
    (data : UInt16) (step : ∀ c, P c → Q (c.put (.pointer p false) (data &&& 0xff).toUInt8)) :
    ∃ c, Q c ∧ (w.encWCR16 r data).chip = c.put (.pointer p true) (data >>> 8).toUInt8 := by
  obtain ⟨c,kept,first⟩ := encWCR_holds low unused before holds (data &&& 0xff).toUInt8
  have middle := step c kept
  rw [← first] at middle
  exact encWCR_holds high ((congrArg EncDevice.lastUsedRegister (encWCR_later _ _ _).dev).trans unused) between middle _

/-- Writing its two bytes does to a pointer what an assignment does. -/
def Plain (p : Pointer) : Prop := p.val ≠ 4 ∧ p.val ≠ 6 ∧ p.val ≠ 7

instance (p : Pointer) : Decidable (Plain p) := inferInstanceAs (Decidable (_ ∧ _))

theorem hw_pointer {p : Pointer} (chosen : p ≠ 7) (c : Chip) (h : Hw) : (c.hw h).pointers p = c.pointers p := by
  cases h <;> unfold Chip.hw <;> dsimp only
  · split
    · exact Function.update_of_ne chosen _ _
    · rfl
  · split <;> rfl

theorem stable_pointer {p : Pointer} (chosen : p ≠ 7) (value : Nat → Prop) : Stable fun c => value (c.pointers p) :=
  ⟨fun c h holds => by rwa [hw_pointer chosen],fun _ _ holds => holds⟩

theorem put_low {p : Pointer} (plain : Plain p) (c : Chip) (v : UInt8) :
    c.put (.pointer p false) v = c.setPointer p (setLow (c.pointers p) v) := by
  unfold Chip.put
  split <;> simp_all [Plain]

theorem put_high {p : Pointer} (plain : Plain p) (c : Chip) (v : UInt8) :
    c.put (.pointer p true) v = c.setPointer p (setHigh (c.pointers p) v) := by
  unfold Chip.put
  split <;> simp_all [Plain]

theorem encWCR16_plain {p : Pointer} (plain : Plain p) (low : Known (r &&& 0xfe) (.pointer p false))
    (high : Known (r ||| 1) (.pointer p true)) (unused : w.dev.lastUsedRegister = bankIndeterminate) (stable : Stable P)
    (frame : ∀ c v, P c → P (c.setPointer p v)) (holds : P w.chip) (data : UInt16) :
    P (w.encWCR16 r data).chip ∧ (w.encWCR16 r data).chip.pointers p = data.toNat := by
  have half : Stable fun c => P c ∧ c.pointers p % 256 = data.toNat % 256 :=
    stable.and (stable_pointer (fun same => plain.2.2 (congrArg Fin.val same)) fun v => v % 256 = data.toNat % 256)
  obtain ⟨c,⟨kept,half⟩,written⟩ := encWCR16_holds low high unused stable half holds data fun c kept => by
    rw [put_low plain]
    refine ⟨frame c _ kept,?_⟩
    rw [Chip.setPointer_self, setLow, low_byte]
    omega
  rw [written, put_high plain]
  refine ⟨frame c _ kept,?_⟩
  rw [Chip.setPointer_self, setHigh, high_byte, half]
  omega

theorem hw_low (c : Chip) (h : Hw) : (c.hw h).erxrdptLow = c.erxrdptLow := by
  cases h <;> unfold Chip.hw <;> dsimp only
  · split <;> rfl
  · split <;> rfl

theorem encWCR16_erxrdpt (unused : w.dev.lastUsedRegister = bankIndeterminate) (stable : Stable P)
    (frame : ∀ c v, P c → P { c with erxrdptLow := v }) (holds : P w.chip) (data : UInt16) :
    ∃ c, P c ∧ (w.encWCR16 erxrdptl data).chip = c.setPointer 6 data.toNat := by
  have half : Stable fun c => P c ∧ c.erxrdptLow = (data &&& 0xff).toUInt8 :=
    stable.and ⟨fun c h low => (hw_low c h).trans low,fun _ _ low => low⟩
  obtain ⟨c,⟨kept,low⟩,written⟩ := encWCR16_holds (r := erxrdptl) (p := 6) (by decide) (by decide) unused stable half holds data
    fun c kept => ⟨frame c _ kept,rfl⟩
  refine ⟨c,kept,?_⟩
  rw [written]
  change c.setPointer 6 ((data >>> 8).toUInt8.toNat * 256 + c.erxrdptLow.toNat) = _
  rw [low, low_byte, high_byte, Nat.div_add_mod']

/-- A burst of reads that finds a byte at each step. -/
theorem rcvbuff_holds {S : Nat → Chip → Prop} (data : List UInt8) (stable : ∀ i, Stable (S i))
    (step : ∀ i c (inside : i < data.length), S i c → c.readByte.2 = data[i] ∧ S (i + 1) c.readByte.1) (holds : S 0 w.chip) :
    (World.rcvbuff data.length w).2 = data ∧ S data.length (World.rcvbuff data.length w).1.chip := by
  induction data generalizing w S with
  | nil => exact ⟨rfl,holds⟩
  | cons b data ih =>
    obtain ⟨first,later⟩ := step 0 w.tick.chip (Nat.succ_pos _) ((stable 0).tick holds)
    obtain ⟨rest,done⟩ := ih (S := fun i => S (i + 1)) (w := { w.tick with chip := w.tick.chip.readByte.1 }) (fun i => stable (i + 1))
      (fun i c inside reached => step (i + 1) c (Nat.succ_lt_succ inside) reached) later
    rw [List.length_cons, World.rcvbuff]
    exact ⟨congrArg₂ List.cons first rest,done⟩

/-- A burst of writes, after `i` bytes of which `S i` holds. -/
theorem sendbuff_holds {S : Nat → Chip → Prop} (data : List UInt8) (stable : ∀ i, Stable (S i))
    (step : ∀ i c (inside : i < data.length), S i c → S (i + 1) (c.writeByte data[i])) (holds : S 0 w.chip) :
    S data.length (w.sendbuff data).chip := by
  induction data generalizing w S with
  | nil => exact holds
  | cons b data ih =>
    have first := step 0 w.tick.chip (Nat.succ_pos _) ((stable 0).tick holds)
    exact ih (S := fun i => S (i + 1)) (w := { w.tick with chip := w.tick.chip.writeByte b }) (fun i => stable (i + 1))
      (fun i c inside reached => step (i + 1) c (Nat.succ_lt_succ inside) reached) first

end

end PulseFirmware.Enc28j60
