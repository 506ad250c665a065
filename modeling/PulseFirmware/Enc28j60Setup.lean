import Mathlib.Algebra.Ring.Nat
import PulseFirmware.Enc28j60Receive

/-! `enc_setup_basic`, `enc_bist_manual` and `enc_ethernet_setup`: from a chip in any state to an empty receive buffer. -/
namespace PulseFirmware.Enc28j60

structure Chip.Off (wire : List (List UInt8)) (log : List Received) (c : Chip) : Prop where
  off : c.control.value &&& econ1Rxen = 0
  idle : ¬ c.Sending
  increments : c.Increments
  wire : c.wire = wire
  log : c.received = log

section
variable {stream : Nat → List Hw} {last : Nat} {wire : List (List UInt8)} {log : List Received} {c : Chip} {w : World}

theorem Chip.Off.hw_eq (off : c.Off wire log) (h : Hw) : ∃ others, c.hw h = { c with others } := by
  cases h with
  | frame r =>
    refine ⟨c.others,?_⟩
    unfold Chip.hw
    dsimp only
    rw [if_neg fun accepts => accepts.1.1 off.off]
  | sent status =>
    refine ⟨c.others,?_⟩
    unfold Chip.hw
    dsimp only
    rw [if_neg off.idle]
  | register number v => exact ⟨_,rfl⟩

theorem Chip.Off.stable (wire : List (List UInt8)) (log : List Received) {F : Chip → Prop}
    (free : ∀ c others, F c → F { c with others }) (bank : ∀ c b, F c → F { c with bank := b }) :
    Stable fun c => c.Off wire log ∧ F c := by
  constructor
  · intro c h both
    obtain ⟨others,same⟩ := both.1.hw_eq h
    rw [same]
    exact ⟨⟨both.1.off,both.1.idle,both.1.increments,both.1.wire,both.1.log⟩,free c others both.2⟩
  · intro c b both
    exact ⟨⟨both.1.off,both.1.idle,both.1.increments,both.1.wire,both.1.log⟩,bank c b both.2⟩

private theorem reset_bits (v : UInt8) : settle (v ||| (econ1Txrst ||| econ1Rxrst)) &&& econ1Rxen = 0 ∧
    settle (v ||| (econ1Txrst ||| econ1Rxrst)) &&& econ1Txrts = 0 ∧
    settle (v &&& ~~~(econ1Txrst ||| econ1Rxrst)) &&& econ1Txrst = 0 ∧
    (v &&& econ1Rxen = 0 → settle (v &&& ~~~(econ1Txrst ||| econ1Rxrst)) &&& econ1Rxen = 0) ∧
    (v &&& econ1Txrts = 0 → settle (v &&& ~~~(econ1Txrst ||| econ1Rxrst)) &&& econ1Txrts = 0) ∧
    settle (v ||| econ1Rxen) &&& econ1Txrst = v &&& econ1Txrst ∧
    (v &&& econ1Txrts = 0 → settle (v ||| econ1Rxen) &&& econ1Txrts = 0) := by
  have all : ∀ n < 256, settle (.ofNat n ||| (econ1Txrst ||| econ1Rxrst)) &&& econ1Rxen = 0 ∧
      settle (.ofNat n ||| (econ1Txrst ||| econ1Rxrst)) &&& econ1Txrts = 0 ∧
      settle (.ofNat n &&& ~~~(econ1Txrst ||| econ1Rxrst)) &&& econ1Txrst = 0 ∧
      (UInt8.ofNat n &&& econ1Rxen = 0 → settle (.ofNat n &&& ~~~(econ1Txrst ||| econ1Rxrst)) &&& econ1Rxen = 0) ∧
      (UInt8.ofNat n &&& econ1Txrts = 0 → settle (.ofNat n &&& ~~~(econ1Txrst ||| econ1Rxrst)) &&& econ1Txrts = 0) ∧
      settle (.ofNat n ||| econ1Rxen) &&& econ1Txrst = UInt8.ofNat n &&& econ1Txrst ∧
      (UInt8.ofNat n &&& econ1Txrts = 0 → settle (.ofNat n ||| econ1Rxen) &&& econ1Txrts = 0) := by decide +kernel
  have here := all _ v.toNat_lt
  rwa [UInt8.ofNat_toNat] at here

private theorem Chip.Off.reset (increments : c.Increments) :
    (c.put .econ1 (c.fetch .econ1 ||| (econ1Txrst ||| econ1Rxrst))).Off c.wire c.received := by
  obtain ⟨off,idle,-⟩ := reset_bits (c.fetch .econ1)
  exact ⟨off,fun still => still idle,increments,rfl,rfl⟩

private theorem Chip.Off.released (off : c.Off wire log) :
    (c.put .econ1 (c.fetch .econ1 &&& ~~~(econ1Txrst ||| econ1Rxrst))).Off wire log ∧
      (c.put .econ1 (c.fetch .econ1 &&& ~~~(econ1Txrst ||| econ1Rxrst))).control.value &&& econ1Txrst = 0 := by
  obtain ⟨-,-,ready,rxen,txrts,-⟩ := reset_bits (c.fetch .econ1)
  rw [fetch_control (by decide)] at rxen txrts
  exact ⟨⟨rxen off.off,fun still => still (txrts (not_not.mp off.idle)),off.increments,off.wire,off.log⟩,ready⟩

private theorem Chip.Off.stable_count (wire : List (List UInt8)) (log : List Received) (m : Nat) :
    Stable fun c => c.Off wire log ∧ c.count.toNat = m :=
  Chip.Off.stable wire log (fun _ _ same => same) fun _ _ same => same

private theorem Chip.Off.counted {m : Nat} (off : c.Off wire log) (count : c.count.toNat = m + 1) :
    (c.put .econ2 (c.fetch .econ2 ||| econ2Pktdec)).Off wire log ∧
      (c.put .econ2 (c.fetch .econ2 ||| econ2Pktdec)).count.toNat = m := by
  obtain ⟨set,kept⟩ := pktdec_bits c.autoinc
  have some : c.count ≠ 0 := by
    intro none
    rw [none] at count
    exact Nat.succ_ne_zero m count.symm
  refine ⟨⟨off.off,off.idle,?_,off.wire,off.log⟩,?_⟩
  · change (c.autoinc ||| econ2Pktdec) &&& ~~~econ2Pktdec &&& econ2Autoinc ≠ 0
    rw [kept]
    exact off.increments
  · change (if (c.autoinc ||| econ2Pktdec) &&& econ2Pktdec = 0 ∨ c.count = 0 then c.count else c.count - 1).toNat = m
    rw [if_neg (by simp [set, some]), UInt8.toNat_sub_of_le _ _ (UInt8.le_iff_toNat_le.mpr ?_)]
    · rw [count]
      rfl
    · rw [count]
      exact Nat.succ_le_succ (Nat.zero_le _)

/-- `EPKTCNT` reaches 0 before the loop has used up its turns. -/
private theorem discardAll_empty (unused : w.dev.lastUsedRegister = bankIndeterminate) {n m : Nat} (enough : m < n)
    (off : w.chip.Off wire log ∧ w.chip.count.toNat = m) :
    ((World.discardAll n w).chip.Off wire log ∧ (World.discardAll n w).chip.count.toNat = 0) ∧ w.Later (World.discardAll n w) := by
  induction n generalizing w m with
  | zero => contradiction
  | succ n ih =>
    obtain ⟨after,value⟩ := encRCR_holds (r := epktcnt) (i := .epktcnt) (by decide) unused (Chip.Off.stable_count wire log m) off
    have later := encRCR_later w epktcnt
    have count : (w.encRCR epktcnt).2.toNat = m := (congrArg UInt8.toNat value).trans after.2
    unfold World.discardAll
    dsimp only
    split
    next empty =>
      rw [empty] at count
      rw [← count] at after
      exact ⟨after,later⟩
    next more =>
      obtain ⟨rest,rfl⟩ := Nat.exists_eq_succ_of_ne_zero fun zero => more (UInt8.toNat_inj.mp (count.trans zero))
      have unused := (congrArg EncDevice.lastUsedRegister later.dev).trans unused
      obtain ⟨c,before,written⟩ := encBFS_holds (r := econ2) (i := .econ2) (by decide) unused
        (Chip.Off.stable_count wire log (rest + 1)) after econ2Pktdec
      have fewer := before.1.counted before.2
      rw [← written] at fewer
      have past := encBFS_later (w.encRCR epktcnt).1 econ2 econ2Pktdec
      obtain ⟨empty,done⟩ := ih ((congrArg EncDevice.lastUsedRegister past.dev).trans unused) (Nat.lt_of_succ_lt_succ enough) fewer
      exact ⟨empty,(later.trans past).trans done⟩

structure Chip.Cleared (c : Chip) : Prop where
  ready : c.control.value &&& econ1Txrst = 0
  count : c.count.toNat = 0
  erxst : c.erxst = 0
  erxwrpt : c.erxwrpt = 0

private theorem Chip.Cleared.stable (wire : List (List UInt8)) (log : List Received) (F : (Pointer → Nat) → Prop) :
    Stable fun c => c.Off wire log ∧ c.Cleared ∧ F c.pointers :=
  Chip.Off.stable wire log (fun _ _ both => ⟨⟨both.1.ready,both.1.count,both.1.erxst,both.1.erxwrpt⟩,both.2⟩)
    fun _ _ both => ⟨⟨both.1.ready,both.1.count,both.1.erxst,both.1.erxwrpt⟩,both.2⟩

private theorem erxst_cleared (unused : w.dev.lastUsedRegister = bankIndeterminate)
    (off : w.chip.Off wire log ∧ w.chip.control.value &&& econ1Txrst = 0 ∧ w.chip.count.toNat = 0) :
    (w.encWCR16 erxstl 0).chip.Off wire log ∧ (w.encWCR16 erxstl 0).chip.Cleared := by
  have before : Stable fun c => c.Off wire log ∧ c.control.value &&& econ1Txrst = 0 ∧ c.count.toNat = 0 :=
    Chip.Off.stable wire log (fun _ _ same => same) fun _ _ same => same
  have between : Stable fun c => c.Off wire log ∧ (c.control.value &&& econ1Txrst = 0 ∧ c.count.toNat = 0) ∧ c.erxst % 256 = 0 :=
    Chip.Off.stable wire log (fun _ _ same => same) fun _ _ same => same
  obtain ⟨c,⟨off,⟨ready,count⟩,low⟩,written⟩ := encWCR16_holds (r := erxstl) (p := 4) (by decide) (by decide) unused before between off 0
    fun c both => by
      refine ⟨⟨both.1.off,both.1.idle,both.1.increments,both.1.wire,both.1.log⟩,both.2,?_⟩
      change (c.erxst / 256 * 256 + 0) % 256 = 0
      omega
  have zero : setHigh c.erxst 0 = 0 := by rw [setHigh, low]; rfl
  rw [written]
  exact ⟨⟨off.off,off.idle,off.increments,off.wire,off.log⟩,ready,count,zero,zero⟩

private theorem setErxnd_cleared (unused : w.dev.lastUsedRegister = bankIndeterminate) {size : UInt16} (other : size ≠ w.dev.rxbufsize)
    (off : w.chip.Off wire log ∧ w.chip.Cleared) : (w.setErxnd size).chip.Off wire log ∧ (w.setErxnd size).chip.Cleared ∧
      (w.setErxnd size).chip.erxnd = size.toNat := by
  unfold World.setErxnd
  rw [if_neg other]
  obtain ⟨both,value⟩ := encWCR16_plain (w := { w with dev := { w.dev with rxbufsize := size } }) (r := erxndl) (p := 5) (by decide)
    (by decide) (by decide) unused (Chip.Cleared.stable wire log fun _ => True)
    (fun c v both => ⟨⟨both.1.off,both.1.idle,both.1.increments,both.1.wire,both.1.log⟩,
      ⟨both.2.1.ready,both.2.1.count,both.2.1.erxst,both.2.1.erxwrpt⟩,trivial⟩) ⟨off.1,off.2,trivial⟩ size
  exact ⟨both.1,both.2.1,value⟩

theorem setErxnd_dev (w : World) (size : UInt16) : (w.setErxnd size).dev = { w.dev with rxbufsize := size } ∧
    (w.setErxnd size).hardware = w.hardware := by
  unfold World.setErxnd
  split
  next same => exact ⟨by rw [same],rfl⟩
  next =>
    have later := encWCR16_later { w with dev := { w.dev with rxbufsize := size } } erxndl size
    exact ⟨later.dev,later.hardware⟩

structure Chip.Prepared (last : Nat) (wire : List (List UInt8)) (log : List Received) (c : Chip) : Prop where
  off : c.Off wire log
  cleared : c.Cleared
  erxnd : c.erxnd = last
  erxrdpt : c.erxrdpt = 0

theorem Chip.Prepared.stable (last : Nat) (wire : List (List UInt8)) (log : List Received) :
    Stable (Chip.Prepared last wire log) := by
  have all := Chip.Cleared.stable wire log fun pointers => pointers 5 = last ∧ pointers 6 = 0
  constructor
  · intro c h prepared
    obtain ⟨off,cleared,erxnd,erxrdpt⟩ := all.hw c h ⟨prepared.off,prepared.cleared,prepared.erxnd,prepared.erxrdpt⟩
    exact ⟨off,cleared,erxnd,erxrdpt⟩
  · intro c b prepared
    obtain ⟨off,cleared,erxnd,erxrdpt⟩ := all.bank c b ⟨prepared.off,prepared.cleared,prepared.erxnd,prepared.erxrdpt⟩
    exact ⟨off,cleared,erxnd,erxrdpt⟩

/-- `ENC_ECON1_RXEN`: from here on the chip fills the buffer. -/
private theorem Chip.Prepared.enabled (prepared : c.Prepared last wire log) :
    (c.put .econ1 (c.fetch .econ1 ||| econ1Rxen)).Idle last 0 log.length 0 wire log := by
  obtain ⟨-,-,-,-,-,ready,txrts⟩ := reset_bits (c.fetch .econ1)
  rw [fetch_control (by decide)] at ready txrts
  have idle : ¬ (c.put .econ1 (c.fetch .econ1 ||| econ1Rxen)).Sending := fun still => still (txrts (not_not.mp prepared.off.idle))
  have none : (c.put .econ1 (c.fetch .econ1 ||| econ1Rxen)).received.drop log.length = [] := by
    rw [List.drop_eq_nil_iff]
    exact Nat.le_of_eq (congrArg List.length prepared.off.log)
  refine ⟨⟨prepared.cleared.erxst,prepared.erxnd,prepared.off.increments,?_,?_,?_,?_,?_,fun still => absurd still idle⟩,
    ⟨idle,ready.trans prepared.cleared.ready,prepared.off.wire⟩,?_⟩
  · exact Nat.le_of_eq (congrArg List.length prepared.off.log).symm
  · rw [none]
    exact prepared.cleared.count
  · rw [none]
    exact prepared.cleared.erxwrpt.trans (Nat.zero_mod _).symm
  · rw [none]
    exact Or.inr ⟨prepared.erxrdpt,rfl,Nat.zero_le _⟩
  · rw [none]
    trivial
  · rw [← prepared.off.log]
    exact List.prefix_rfl

private theorem Chip.Idle.released {base k : Nat} (idle : c.Idle last base k 0 wire log) :
    (c.put .econ1 (c.fetch .econ1 &&& ~~~(econ1Txrst ||| econ1Rxrst))).Idle last base k 0 wire log := by
  obtain ⟨-,-,ready,-,txrts,-⟩ := reset_bits (c.fetch .econ1)
  rw [fetch_control (by decide)] at txrts
  have quiet : ¬ (c.put .econ1 (c.fetch .econ1 &&& ~~~(econ1Txrst ||| econ1Rxrst))).Sending :=
    fun still => still (txrts (not_not.mp idle.quiet.idle))
  exact ⟨idle.holds.elsewhere (fun _ _ => rfl) rfl rfl rfl (fun _ _ => rfl) fun still => absurd still quiet,
    ⟨quiet,ready,idle.quiet.wire⟩,idle.log⟩

private theorem reset_empty {P : Chip → Prop} (unused : w.dev.lastUsedRegister = bankIndeterminate) (stable : Stable P)
    (increments : ∀ c, P c → c.Increments) (holds : P w.chip) :
    let reset := (World.discardAll 256 (w.encBFS econ1 (econ1Txrst ||| econ1Rxrst))).encBFC econ1 (econ1Txrst ||| econ1Rxrst)
    w.Later reset ∧ ∃ c, P c ∧ reset.chip.Off c.wire c.received ∧ reset.chip.control.value &&& econ1Txrst = 0 ∧
      reset.chip.count.toNat = 0 := by
  obtain ⟨c,before,written⟩ := encBFS_holds (r := econ1) (i := .econ1) (by decide) unused stable holds (econ1Txrst ||| econ1Rxrst)
  have off := Chip.Off.reset (increments c before)
  rw [← written] at off
  have later := encBFS_later w econ1 (econ1Txrst ||| econ1Rxrst)
  have unused := (congrArg EncDevice.lastUsedRegister later.dev).trans unused
  obtain ⟨empty,past⟩ := discardAll_empty unused (w.encBFS econ1 (econ1Txrst ||| econ1Rxrst)).chip.count.toNat_lt ⟨off,rfl⟩
  have unused := (congrArg EncDevice.lastUsedRegister past.dev).trans unused
  obtain ⟨d,held,released⟩ := encBFC_holds (r := econ1) (i := .econ1) (by decide) unused (Chip.Off.stable_count c.wire c.received 0) empty
    (econ1Txrst ||| econ1Rxrst)
  obtain ⟨off,ready⟩ := held.1.released
  dsimp only
  refine ⟨(later.trans past).trans (encBFC_later _ _ _),c,before,?_⟩
  rw [released]
  exact ⟨off,ready,held.2⟩

private theorem erxrdpt_prepared (unused : w.dev.lastUsedRegister = bankIndeterminate) (off : w.chip.Off wire log)
    (cleared : w.chip.Cleared) (erxnd : w.chip.erxnd = last) : (w.encWCR16 erxrdptl 0).chip.Prepared last wire log := by
  obtain ⟨c,⟨off,cleared,erxnd⟩,written⟩ := encWCR16_erxrdpt unused (Chip.Cleared.stable wire log fun pointers => pointers 5 = last)
    (fun c v both => ⟨⟨both.1.off,both.1.idle,both.1.increments,both.1.wire,both.1.log⟩,
      ⟨both.2.1.ready,both.2.1.count,both.2.1.erxst,both.2.1.erxwrpt⟩,both.2.2⟩) ⟨off,cleared,erxnd⟩ 0
  rw [written]
  exact ⟨⟨off.off,off.idle,off.increments,off.wire,off.log⟩,⟨cleared.ready,cleared.count,cleared.erxst,cleared.erxwrpt⟩,erxnd,rfl⟩

private theorem enabled_idle (unused : w.dev.lastUsedRegister = bankIndeterminate) (prepared : w.chip.Prepared last wire log) :
    let enabled := ((w.encBFC erxfcon 1).encBFS econ1 econ1Rxen).encBFC econ1 (econ1Txrst ||| econ1Rxrst)
    w.Later ((enabled.encBFS eie 0x80).encRCR eie).1 ∧
      ((enabled.encBFS eie 0x80).encRCR eie).1.chip.Idle last 0 log.length 0 wire log := by
  have known {w' : World} (later : w.Later w') : w'.dev.lastUsedRegister = bankIndeterminate :=
    (congrArg EncDevice.lastUsedRegister later.dev).trans unused
  have stable := Chip.Idle.stable last 0 log.length 0 wire log
  obtain ⟨c1,before1,written1⟩ := encBFC_holds (r := erxfcon) (i := .other 56) (by decide) unused
    (Chip.Prepared.stable last wire log) prepared 1
  have first : (w.encBFC erxfcon 1).chip.Prepared last wire log := by
    rw [written1]
    obtain ⟨off,cleared,erxnd,erxrdpt⟩ := before1
    exact ⟨⟨off.off,off.idle,off.increments,off.wire,off.log⟩,⟨cleared.ready,cleared.count,cleared.erxst,cleared.erxwrpt⟩,erxnd,erxrdpt⟩
  have later1 := encBFC_later w erxfcon 1
  obtain ⟨c2,before2,written2⟩ := encBFS_holds (r := econ1) (i := .econ1) (by decide) (known later1)
    (Chip.Prepared.stable last wire log) first econ1Rxen
  have second := before2.enabled
  rw [← written2] at second
  have later2 := later1.trans (encBFS_later _ econ1 econ1Rxen)
  obtain ⟨c3,before3,written3⟩ := encBFC_holds (r := econ1) (i := .econ1) (by decide) (known later2) stable second
    (econ1Txrst ||| econ1Rxrst)
  have third := before3.released
  rw [← written3] at third
  have later3 := later2.trans (encBFC_later _ econ1 (econ1Txrst ||| econ1Rxrst))
  obtain ⟨c4,before4,written4⟩ := encBFS_holds (r := eie) (i := .other 27) (by decide) (known later3) stable third 0x80
  have fourth : (c4.put (.other 27) (c4.fetch (.other 27) ||| 0x80)).Idle last 0 log.length 0 wire log :=
    before4.elsewhere (fun _ _ => rfl) rfl rfl rfl (fun _ _ => rfl) rfl rfl
  rw [← written4] at fourth
  have later4 := later3.trans (encBFS_later _ eie 0x80)
  exact ⟨later4.trans (encRCR_later _ _),(encRCR_holds (r := eie) (i := .other 27) (by decide) (known later4) stable fourth).1⟩

private theorem buffer_prepared (unused : w.dev.lastUsedRegister = bankIndeterminate) {size : UInt16} (other : size ≠ w.dev.rxbufsize)
    (off : w.chip.Off wire log ∧ w.chip.control.value &&& econ1Txrst = 0 ∧ w.chip.count.toNat = 0) :
    (((w.encWCR16 erxstl 0).setErxnd size).encWCR16 erxrdptl 0).chip.Prepared size.toNat wire log ∧
      (((w.encWCR16 erxstl 0).setErxnd size).encWCR16 erxrdptl 0).dev = { w.dev with rxbufsize := size } ∧
      (((w.encWCR16 erxstl 0).setErxnd size).encWCR16 erxrdptl 0).hardware = w.hardware := by
  obtain ⟨off,cleared⟩ := erxst_cleared unused off
  have later := encWCR16_later w erxstl 0
  generalize w.encWCR16 erxstl 0 = started at off cleared later ⊢
  have unused1 := (congrArg EncDevice.lastUsedRegister later.dev).trans unused
  rw [← later.dev] at other
  obtain ⟨off,cleared,erxnd⟩ := setErxnd_cleared unused1 other ⟨off,cleared⟩
  obtain ⟨dev,hardware⟩ := setErxnd_dev started size
  rw [later.dev] at dev
  rw [later.hardware] at hardware
  generalize started.setErxnd size = sized at off cleared erxnd dev hardware ⊢
  have unused2 := (congrArg EncDevice.lastUsedRegister dev).trans unused
  have past := encWCR16_later sized erxrdptl 0
  exact ⟨erxrdpt_prepared unused2 off cleared erxnd,past.dev.trans dev,past.hardware.trans hardware⟩

/-- Whatever the chip was doing before, its buffer is empty when it opens. -/
theorem encEthernetSetup_idle {P : Chip → Prop} (unused : w.dev.lastUsedRegister = bankIndeterminate) (up : w.dev.state ≠ 0)
    (stable : Stable P) (increments : ∀ c, P c → c.Increments) (holds : P w.chip) {size : UInt16} (other : size ≠ w.dev.rxbufsize) :
    ∃ c, P c ∧ (w.encEthernetSetup size).Idle w.hardware size.toNat 0 c.received.length c.wire c.received := by
  obtain ⟨later,c,before,off⟩ := reset_empty unused stable increments holds
  unfold World.encEthernetSetup
  dsimp only
  generalize (World.discardAll 256 (w.encBFS econ1 (econ1Txrst ||| econ1Rxrst))).encBFC econ1 (econ1Txrst ||| econ1Rxrst) = reset
    at later off ⊢
  have unused1 := (congrArg EncDevice.lastUsedRegister later.dev).trans unused
  rw [← later.dev] at other
  obtain ⟨prepared,dev,hardware⟩ := buffer_prepared unused1 other off
  rw [later.dev] at dev
  rw [later.hardware] at hardware
  generalize ((reset.encWCR16 erxstl 0).setErxnd size).encWCR16 erxrdptl 0 = written at prepared dev hardware ⊢
  obtain ⟨lastly,idle⟩ := enabled_idle (w := { written with dev := { written.dev with nextFrameLocation := 0 } })
    ((congrArg EncDevice.lastUsedRegister dev).trans unused) prepared
  have last_dev := lastly.dev.trans (congrArg (fun dev => ({ dev with nextFrameLocation := 0 } : EncDevice)) dev)
  refine ⟨c,before,idle,⟨?_,?_,?_,lastly.hardware.trans hardware⟩,?_⟩
  · exact (congrArg EncDevice.lastUsedRegister last_dev).trans unused
  · exact congrArg (fun dev => dev.rxbufsize.toNat) last_dev
  · exact fun off => up ((congrArg EncDevice.state last_dev).symm.trans off)
  · exact (congrArg (fun dev => dev.nextFrameLocation.toNat) last_dev).trans (Nat.zero_mod _).symm

theorem awaitClock_later (n : Nat) (w : World) (stable : Nat) (last : UInt8) : w.Later (World.awaitClock n w stable last).1 := by
  induction n generalizing w stable last with
  | zero => exact .refl w
  | succ n ih =>
    have first := encRCR_later w estat
    unfold World.awaitClock
    dsimp only
    generalize (if (w.encRCR estat).2 = last then stable + 1 else stable) = count
    split
    · exact first.trans (ih _ _ _)
    · split
      · exact first
      · exact first.trans (ih _ _ _)

theorem writePatterns_later (addresses : List Nat) (w : World) : w.Later (World.writePatterns addresses w) := by
  induction addresses generalizing w with
  | nil => exact .refl w
  | cons address rest ih => exact (encWBM_later _ _ _).trans (ih _)

theorem checkPatterns_later (addresses : List Nat) (w : World) : w.Later (World.checkPatterns addresses w).1 := by
  induction addresses generalizing w with
  | nil => exact .refl w
  | cons address rest ih =>
    have first := encRBM_later w (.ofNat address) 256
    unfold World.checkPatterns
    generalize w.encRBM (.ofNat address) 256 = read at first ⊢
    dsimp only
    split
    · exact first.trans (ih _)
    · exact first

theorem Chip.Off.alone (wire : List (List UInt8)) (log : List Received) : Stable (Chip.Off wire log) := by
  have all := Chip.Off.stable wire log (F := fun _ => True) (fun _ _ _ => trivial) fun _ _ _ => trivial
  exact ⟨fun c h off => (all.hw c h ⟨off,trivial⟩).1,fun c b off => (all.bank c b ⟨off,trivial⟩).1⟩

private theorem awaitClock_off (n : Nat) (off : w.chip.Off wire log) (stable : Nat) (last : UInt8) :
    (World.awaitClock n w stable last).1.chip.Off wire log := by
  induction n generalizing w stable last with
  | zero => exact off
  | succ n ih =>
    have first : (w.encRCR estat).1.chip.Off wire log := (Chip.Off.alone wire log).tick off
    unfold World.awaitClock
    dsimp only
    generalize (if (w.encRCR estat).2 = last then stable + 1 else stable) = count
    split
    · exact ih first _ _
    · split
      · exact first
      · exact ih first _ _

private theorem Chip.Off.autoinc (off : c.Off wire log) : (c.put .econ2 (c.fetch .econ2 ||| econ2Autoinc)).Off wire log := by
  have kept (v : UInt8) : (v ||| econ2Autoinc) &&& ~~~econ2Pktdec &&& econ2Autoinc ≠ 0 := by
    have all : ∀ n < 256, (UInt8.ofNat n ||| econ2Autoinc) &&& ~~~econ2Pktdec &&& econ2Autoinc ≠ 0 := by decide +kernel
    have here := all _ v.toNat_lt
    rwa [UInt8.ofNat_toNat] at here
  exact ⟨off.off,off.idle,kept _,off.wire,off.log⟩

private theorem revision_off (unused : w.dev.lastUsedRegister = bankIndeterminate) (off : w.chip.Off wire log) :
    (((w.encRCR erevid).1.encBFS econ2 econ2Autoinc).encWCR ecocon 0).chip.Off wire log ∧
      w.Later (((w.encRCR erevid).1.encBFS econ2 econ2Autoinc).encWCR ecocon 0) := by
  have stable := Chip.Off.alone wire log
  have later1 := encRCR_later w erevid
  have first := (encRCR_holds (r := erevid) (i := .other 114) (by decide) unused stable off).1
  have later2 := later1.trans (encBFS_later _ econ2 econ2Autoinc)
  obtain ⟨c2,before2,written2⟩ := encBFS_holds (r := econ2) (i := .econ2) (by decide)
    ((congrArg EncDevice.lastUsedRegister later1.dev).trans unused) stable first econ2Autoinc
  have second := before2.autoinc
  rw [← written2] at second
  obtain ⟨c3,before3,written3⟩ := encWCR_holds (r := ecocon) (i := .other 117) (by decide)
    ((congrArg EncDevice.lastUsedRegister later2.dev).trans unused) stable second 0
  refine ⟨?_,later2.trans (encWCR_later _ _ _)⟩
  rw [written3]
  exact ⟨before3.off,before3.idle,before3.increments,before3.wire,before3.log⟩

theorem encSetupBasic_off (off : w.chip.Off wire log) (ok : w.encSetupBasic.2 = true) : w.encSetupBasic.1.chip.Off wire log ∧
    w.encSetupBasic.1.dev = { w.dev with lastUsedRegister := bankIndeterminate, rxbufsize := ~~~0 } ∧
    w.encSetupBasic.1.hardware = w.hardware := by
  have later := awaitClock_later 100000 w 0 0
  have clocked := awaitClock_off 100000 off 0 0
  unfold World.encSetupBasic at ok ⊢
  generalize World.awaitClock 100000 w 0 0 = answer at later clocked ok ⊢
  dsimp only at ok ⊢
  split at ok
  next => exact absurd ok Bool.false_ne_true
  next ready =>
    rw [if_neg ready]
    split at ok
    next => exact absurd ok Bool.false_ne_true
    next known =>
      rw [if_neg known]
      obtain ⟨off,past⟩ := revision_off
        (w := { answer.1 with dev := { answer.1.dev with lastUsedRegister := bankIndeterminate, rxbufsize := ~~~0 } }) rfl clocked
      refine ⟨off,past.dev.trans ?_,past.hardware.trans later.hardware⟩
      exact congrArg (fun dev => ({ dev with lastUsedRegister := bankIndeterminate, rxbufsize := ~~~0 } : EncDevice)) later.dev

def patternAt (a : Nat) : UInt8 := .ofNat ((a / 256 + a % 256) % 256)

structure Chip.Patterned (wire : List (List UInt8)) (log : List Received) (upto : Nat) (c : Chip) : Prop where
  off : c.Off wire log
  erxnd : c.erxnd = ramsize - 1
  mem : ∀ a < upto, c.mem a = patternAt a

theorem Chip.Patterned.stable (wire : List (List UInt8)) (log : List Received) (upto : Nat) :
    Stable (Chip.Patterned wire log upto) := by
  have all := Chip.Off.stable wire log (F := fun c => c.erxnd = ramsize - 1 ∧ ∀ a < upto, c.mem a = patternAt a)
    (fun _ _ same => same) fun _ _ same => same
  constructor
  · intro c h patterned
    obtain ⟨off,erxnd,mem⟩ := all.hw c h ⟨patterned.off,patterned.erxnd,patterned.mem⟩
    exact ⟨off,erxnd,mem⟩
  · intro c b patterned
    obtain ⟨off,erxnd,mem⟩ := all.bank c b ⟨patterned.off,patterned.erxnd,patterned.mem⟩
    exact ⟨off,erxnd,mem⟩

theorem Chip.Patterned.setPointer {upto : Nat} (patterned : c.Patterned wire log upto) {p : Pointer} (low : p < 2) (v : Nat) :
    (c.setPointer p v).Patterned wire log upto := by
  obtain ⟨⟨off,idle,increments,wire,log⟩,erxnd,mem⟩ := patterned
  exact ⟨⟨off,idle,increments,wire,log⟩,(setPointer_other (lt_trans low (by decide)).ne' c v).trans erxnd,mem⟩

private theorem pattern_length (address : Nat) : (World.pattern address).length = 256 := by
  rw [World.pattern, List.length_map, List.length_range]

private theorem pattern_getElem {address : Nat} (block : address % 256 = 0) {i : Nat} (inside : i < (World.pattern address).length) :
    (World.pattern address)[i] = patternAt (address + i) := by
  have small : i < 256 := by rwa [pattern_length] at inside
  have high : (address + i) / 256 = address / 256 := by omega
  have low : (address + i) % 256 = i := by omega
  simp only [World.pattern, List.getElem_map, List.getElem_range]
  rw [patternAt, high, low]

private theorem address_toNat {address : Nat} (fits : address + 256 ≤ ramsize) : (UInt16.ofNat address).toNat = address := by
  have ram : ramsize = 8192 := rfl
  rw [UInt16.toNat_ofNat']
  exact Nat.mod_eq_of_lt (by omega)

private theorem Chip.Patterned.writeByte {upto : Nat} (patterned : c.Patterned wire log upto) (ewrpt : c.ewrpt = upto) :
    (c.writeByte (patternAt upto)).Patterned wire log (upto + 1) ∧ (c.writeByte (patternAt upto)).ewrpt = (upto + 1) % ramsize := by
  have written : Chip.Patterned wire log (upto + 1) { c with mem := Function.update c.mem c.ewrpt (patternAt upto) } := by
    obtain ⟨⟨off,idle,increments,wire,log⟩,erxnd,mem⟩ := patterned
    refine ⟨⟨off,idle,increments,wire,log⟩,erxnd,fun a below => ?_⟩
    change Function.update c.mem c.ewrpt (patternAt upto) a = patternAt a
    rw [ewrpt]
    by_cases same : a = upto
    · rw [same, Function.update_self]
    · rw [Function.update_of_ne same]
      exact mem a (by omega)
  unfold Chip.writeByte
  dsimp only
  rw [if_pos patterned.off.increments, ewrpt]
  rw [ewrpt] at written
  exact ⟨written.setPointer (by decide) _,setPointer_self _ _ _⟩

private theorem encWBM_patterned {address : Nat} (block : address % 256 = 0) (fits : address + 256 ≤ ramsize)
    (unused : w.dev.lastUsedRegister = bankIndeterminate) (patterned : w.chip.Patterned wire log address) :
    (w.encWBM (World.pattern address) (.ofNat address)).chip.Patterned wire log (address + 256) := by
  obtain ⟨kept,pointed⟩ := encWCR16_plain (r := ewrptl) (p := 1) (by decide) (by decide) (by decide) unused
    (Chip.Patterned.stable wire log address) (fun c v patterned => patterned.setPointer (by decide) v) patterned (.ofNat address)
  rw [address_toNat fits] at pointed
  have sent := sendbuff_holds (w := w.encWCR16 ewrptl (.ofNat address)) (World.pattern address)
    (S := fun i c => c.Patterned wire log (address + i) ∧ c.pointers 1 = (address + i) % ramsize)
    (fun i => (Chip.Patterned.stable wire log (address + i)).and (stable_pointer (p := 1) (by decide) fun v => v = (address + i) % ramsize))
    (fun i c inside both => by
      rw [pattern_getElem block, ← Nat.add_assoc]
      rw [pattern_length] at inside
      exact both.1.writeByte (both.2.trans (Nat.mod_eq_of_lt (by omega))))
    ⟨kept,pointed.trans (Nat.mod_eq_of_lt (by omega)).symm⟩
  rw [pattern_length] at sent
  exact sent.1

private theorem encRBM_patterned {address : Nat} (block : address % 256 = 0) (fits : address + 256 ≤ ramsize)
    (unused : w.dev.lastUsedRegister = bankIndeterminate) (patterned : w.chip.Patterned wire log ramsize) :
    (w.encRBM (.ofNat address) 256).2 = World.pattern address ∧ (w.encRBM (.ofNat address) 256).1.chip.Patterned wire log ramsize := by
  have ram : ramsize = 8192 := rfl
  obtain ⟨kept,pointed⟩ := encWCR16_plain (r := erdptl) (p := 0) (by decide) (by decide) (by decide) unused
    (Chip.Patterned.stable wire log ramsize) (fun c v patterned => patterned.setPointer (by decide) v) patterned (.ofNat address)
  rw [address_toNat fits] at pointed
  have read := rcvbuff_holds (w := w.encWCR16 erdptl (.ofNat address)) (World.pattern address)
    (S := fun i c => c.Patterned wire log ramsize ∧ (i < 256 → c.pointers 0 = address + i))
    (fun i => (Chip.Patterned.stable wire log ramsize).and (stable_pointer (p := 0) (by decide) fun v => i < 256 → v = address + i))
    (fun i c inside both => by
      rw [pattern_getElem block]
      rw [pattern_length] at inside
      have place : c.erdpt = address + i := both.2 inside
      refine ⟨?_,?_⟩
      · change c.mem c.erdpt = _
        rw [place]
        exact both.1.mem _ (by omega)
      · unfold Chip.readByte
        dsimp only
        rw [if_pos both.1.off.increments, both.1.erxnd, place]
        refine ⟨both.1.setPointer (by decide) _,fun more => ?_⟩
        have inner : ¬ address + i = ramsize - 1 := by omega
        rw [if_neg inner, Nat.mod_eq_of_lt (by omega)]
        exact Chip.setPointer_self _ _ _)
    ⟨kept,fun _ => pointed⟩
  rw [pattern_length] at read
  have other : UInt16.ofNat address ≠ readlocationAny := by
    intro any
    have value := congrArg UInt16.toNat any
    rw [address_toNat fits] at value
    change address = 65535 at value
    omega
  unfold World.encRBM
  rw [if_neg other]
  exact ⟨read.1,read.2.1⟩

private def blocks (from_block n : Nat) : List Nat := (List.range' from_block n).map (· * 256)

private theorem writePatterns_patterned (n k : Nat) (fits : k + n ≤ 32) (unused : w.dev.lastUsedRegister = bankIndeterminate)
    (patterned : w.chip.Patterned wire log (k * 256)) :
    (World.writePatterns (blocks k n) w).chip.Patterned wire log ((k + n) * 256) := by
  have ram : ramsize = 8192 := rfl
  induction n generalizing k w with
  | zero => exact patterned
  | succ n ih =>
    have written := encWBM_patterned (Nat.mul_mod_left k 256) (by omega) unused patterned
    have next : k * 256 + 256 = (k + 1) * 256 := (Nat.succ_mul k 256).symm
    rw [next] at written
    have later := encWBM_later w (World.pattern (k * 256)) (.ofNat (k * 256))
    have rest := ih (k + 1) (by omega) ((congrArg EncDevice.lastUsedRegister later.dev).trans unused) written
    have last : k + 1 + n = k + (n + 1) := by omega
    rw [last] at rest
    have list : blocks k (n + 1) = k * 256 :: blocks (k + 1) n := rfl
    rw [list, World.writePatterns]
    exact rest

private theorem checkPatterns_works (n k : Nat) (fits : k + n ≤ 32) (unused : w.dev.lastUsedRegister = bankIndeterminate)
    (patterned : w.chip.Patterned wire log ramsize) :
    (World.checkPatterns (blocks k n) w).2 = true ∧ (World.checkPatterns (blocks k n) w).1.chip.Patterned wire log ramsize := by
  have ram : ramsize = 8192 := rfl
  induction n generalizing k w with
  | zero =>
    have list : blocks k 0 = [] := rfl
    rw [list, World.checkPatterns]
    exact ⟨rfl,patterned⟩
  | succ n ih =>
    obtain ⟨read,kept⟩ := encRBM_patterned (Nat.mul_mod_left k 256) (by omega) unused patterned
    have later := encRBM_later w (.ofNat (k * 256)) 256
    have rest := ih (k + 1) (by omega) ((congrArg EncDevice.lastUsedRegister later.dev).trans unused) kept
    have list : blocks k (n + 1) = k * 256 :: blocks (k + 1) n := rfl
    rw [list, World.checkPatterns, if_pos read]
    exact rest

private theorem Chip.Off.patterned (off : c.Off wire log) (erxnd : c.erxnd = ramsize - 1) : c.Patterned wire log 0 :=
  ⟨off,erxnd,fun _ none => absurd none (Nat.not_lt_zero _)⟩

/-- The self test finds no fault in a memory that keeps what is written. -/
theorem encBistManual_works (unused : w.dev.lastUsedRegister = bankIndeterminate) (other : w.dev.rxbufsize ≠ 0x1fff)
    (off : w.chip.Off wire log) : w.encBistManual.2 = true ∧ w.encBistManual.1.chip.Off wire log ∧
      w.encBistManual.1.dev = { w.dev with rxbufsize := 0x1fff } ∧ w.encBistManual.1.hardware = w.hardware := by
  obtain ⟨dev,hardware⟩ := setErxnd_dev w 0x1fff
  obtain ⟨off,erxnd⟩ := encWCR16_plain (w := { w with dev := { w.dev with rxbufsize := 0x1fff } }) (r := erxndl) (p := 5) (by decide)
    (by decide) (by decide) unused (Chip.Off.alone wire log)
    (fun c v off => ⟨off.off,off.idle,off.increments,off.wire,off.log⟩) off 0x1fff
  have sized : w.setErxnd 0x1fff = World.encWCR16 { w with dev := { w.dev with rxbufsize := 0x1fff } } erxndl 0x1fff := by
    rw [World.setErxnd, if_neg (Ne.symm other)]
  rw [← sized] at off erxnd
  have patterned := off.patterned erxnd
  generalize start : w.setErxnd 0x1fff = sized at dev hardware patterned
  have unused1 : sized.dev.lastUsedRegister = bankIndeterminate := (congrArg EncDevice.lastUsedRegister dev).trans unused
  have written := writePatterns_patterned 32 0 (by decide) unused1 patterned
  have later := writePatterns_later (blocks 0 32) sized
  have unused2 := (congrArg EncDevice.lastUsedRegister later.dev).trans unused1
  obtain ⟨works,kept⟩ := checkPatterns_works 32 0 (by decide) unused2 written
  have past := later.trans (checkPatterns_later (blocks 0 32) (World.writePatterns (blocks 0 32) sized))
  have test : w.encBistManual = World.checkPatterns (blocks 0 32) (World.writePatterns (blocks 0 32) sized) := by
    rw [← start]
    rfl
  rw [test]
  exact ⟨works,kept.off,past.dev.trans dev,past.hardware.trans hardware⟩

theorem mchdrvInit_idle (off : w.chip.Off wire log) : (w.mchdrvInit.dev.state ≠ 0 ↔ (w.setState 1).encSetupBasic.2 = true) ∧
    (w.mchdrvInit.dev.state ≠ 0 → w.mchdrvInit.Idle w.hardware 4096 0 log.length wire log) := by
  have same : (w.setState 1).chip.Off wire log := off
  unfold World.mchdrvInit
  dsimp only
  cases basic : (w.setState 1).encSetupBasic.2 with
  | false =>
    rw [if_pos rfl]
    exact ⟨⟨fun up => absurd rfl up,fun none => absurd none Bool.false_ne_true⟩,fun up => absurd rfl up⟩
  | true =>
    rw [if_neg (Ne.symm Bool.false_ne_true)]
    obtain ⟨off,dev,hardware⟩ := encSetupBasic_off same basic
    generalize (w.setState 1).encSetupBasic.1 = ready at off dev hardware ⊢
    have unused : ready.dev.lastUsedRegister = bankIndeterminate := congrArg EncDevice.lastUsedRegister dev
    have size : ready.dev.rxbufsize ≠ 0x1fff := by
      rw [dev]
      exact (by decide : (~~~0 : UInt16) ≠ 0x1fff)
    obtain ⟨works,off,dev',hardware'⟩ := encBistManual_works unused size off
    rw [works, if_neg (Ne.symm Bool.false_ne_true)]
    generalize ready.encBistManual.1 = tested at off dev' hardware' ⊢
    have up : tested.dev.state ≠ 0 := by
      rw [dev', dev]
      exact (by decide : (1 : UInt16) ≠ 0)
    have size' : (4 * 1024 : UInt16) ≠ tested.dev.rxbufsize := by
      rw [dev']
      exact (by decide : (4 * 1024 : UInt16) ≠ 0x1fff)
    obtain ⟨c,before,idle⟩ := encEthernetSetup_idle ((congrArg EncDevice.lastUsedRegister dev').trans unused) up
      (Chip.Off.alone wire log) (fun _ off => off.increments) off size'
    rw [hardware', hardware, before.wire, before.log] at idle
    exact ⟨⟨fun _ => rfl,fun _ => idle.ready.state⟩,fun _ => idle⟩

/-- After `mchdrv_init` the interface is up if and only if the chip answered in time as one of the known revisions: the self
test stops no chip that works. Nothing went out so far, and the frames stored since then are those that `EPKTCNT` counts. -/
theorem interface_up (w : World) (wire : List (List UInt8)) (log : List Received) (off : w.chip.Off wire log) :
    (w.mchdrvInit.dev.state ≠ 0 ↔ (w.setState 1).encSetupBasic.2 = true) ∧
      (w.mchdrvInit.dev.state ≠ 0 → w.mchdrvInit.chip.wire = wire ∧
        ∃ waiting, w.mchdrvInit.chip.received = log ++ waiting ∧ w.mchdrvInit.chip.count.toNat = waiting.length) := by
  obtain ⟨basic,idle⟩ := mchdrvInit_idle off
  refine ⟨basic,fun up => ⟨(idle up).chip.quiet.wire,?_⟩⟩
  obtain ⟨waiting,whole⟩ := (idle up).chip.log
  refine ⟨waiting,whole.symm,?_⟩
  rw [(idle up).chip.holds.count, ← whole, List.drop_left]
  rfl

end

/-- To this chip a frame will come, and a transmission ends as soon as it has begun. -/
def fresh : World :=
  { dev := ⟨0,0,0,0⟩
    chip := .reset
    hardware := fun n => (if n = 16780 then [.frame ⟨List.replicate 64 7,(0,0),false⟩] else []) ++ [.sent (CString.zeros 7)]
    now := 0 }

theorem fresh_off : fresh.chip.Off [] [] := ⟨by decide,by decide,by decide,rfl,rfl⟩

theorem fresh_up : fresh.mchdrvInit.dev.state ≠ 0 := (mchdrvInit_idle fresh_off).1.mpr (by decide +kernel)

theorem fresh_interface : (fresh.mchdrvInit.dev.state ≠ 0 ↔ (fresh.setState 1).encSetupBasic.2 = true) ∧
    (fresh.mchdrvInit.dev.state ≠ 0 → fresh.mchdrvInit.chip.wire = [] ∧
      ∃ waiting, fresh.mchdrvInit.chip.received = [] ++ waiting ∧ fresh.mchdrvInit.chip.count.toNat = waiting.length) :=
  interface_up fresh [] [] fresh_off

end PulseFirmware.Enc28j60
