import Mathlib.Algebra.Ring.Nat
import PulseFirmware.Enc28j60Receive

/-! `enc_transmit_pbuf`: a chain goes to the memory behind the receive buffer and from there to the line as one frame, while the
chip may receive at any time. -/
namespace PulseFirmware.Enc28j60

def startAddress (last : Nat) : Nat := (last + 2) / 2 * 2

section
variable {stream : Nat → List Hw} {last base k : Nat} {wire : List (List UInt8)} {log : List Received} {c : Chip} {w : World} {frame : List UInt8}

theorem startAddress_above (last : Nat) : last < startAddress last := by
  unfold startAddress
  omega

private theorem even_toNat (v : UInt16) : (v &&& 0xfffe).toNat = v.toNat / 2 * 2 := by
  have small := v.toNat_lt
  rw [UInt16.toNat_and]
  change v.toNat &&& 65534 = _
  have half : (v.toNat &&& 65534) / 2 = v.toNat / 2 := by
    rw [Nat.and_div_two]
    change v.toNat / 2 &&& 2 ^ 15 - 1 = _
    rw [Nat.and_two_pow_sub_one_eq_mod]
    omega
  have even : (v.toNat &&& 65534) % 2 = 0 := by
    rw [← Nat.and_one_is_mod, Nat.and_assoc]
    exact Nat.and_zero _
  omega

theorem transmitStartAddress_eq (small : last < ramsize) (size : w.dev.rxbufsize.toNat = last) :
    w.transmitStartAddress.toNat = startAddress last := by
  have ram : ramsize = 8192 := rfl
  rw [World.transmitStartAddress, even_toNat, UInt16.toNat_add, UInt16.toNat_add, size, startAddress]
  change ((last + 1) % 2 ^ 16 + 1) % 2 ^ 16 / 2 * 2 = _
  omega

theorem World.Later.transmitStartAddress_eq {w' : World} (later : w.Later w') :
    w'.transmitStartAddress = w.transmitStartAddress := by
  rw [World.transmitStartAddress, later.dev]
  rfl

/-- The first bytes of the frame are in memory from the start address on. -/
def Chip.Written (start : Nat) (frame : List UInt8) (i : Nat) (c : Chip) : Prop := ∀ j < i, frame[j]? = some (c.mem (start + j))

/-- What holds after the control byte and a part of the chain were written. -/
structure Chip.Loading (last base k : Nat) (wire : List (List UInt8)) (log : List Received) (frame : List UInt8) (i : Nat) (c : Chip) :
    Prop where
  idle : c.Idle last base k 0 wire log
  etxst : c.etxst = startAddress last
  ewrpt : c.ewrpt = startAddress last + i
  written : c.Written (startAddress last) frame i

theorem hw_memory (erxnd : c.erxnd = last) {a : Nat} (above : last < a) (h : Hw)
    (quiet : c.Sending → c.etxnd + 8 ≤ ramsize ∧ a ≤ c.etxnd) : (c.hw h).mem a = c.mem a := by
  cases h with
  | frame r =>
    unfold Chip.hw
    dsimp only
    split
    · rw [erxnd]
      exact Ring.store_above (Nat.succ_pos last) above
    · rfl
  | sent status =>
    unfold Chip.hw
    dsimp only
    split
    next sending =>
      obtain ⟨fits,before⟩ := quiet sending
      refine Ring.store_outside fun i inside => ?_
      rw [status.toList_length] at inside
      rw [Nat.mod_eq_of_lt (by omega)]
      omega
    next => rfl
  | register number v => rfl

theorem Chip.Loading.stable (frame : List UInt8) (i : Nat) :
    Stable (Chip.Loading last base k wire log frame i) := by
  constructor
  · intro c h loading
    refine ⟨(Chip.Idle.stable last base k 0 wire log).hw c h loading.idle,?_,?_,fun j inside => ?_⟩
    · exact (hw_pointer (p := 2) (by decide) c h).trans loading.etxst
    · exact (hw_pointer (p := 1) (by decide) c h).trans loading.ewrpt
    · have above := startAddress_above last
      rw [hw_memory loading.idle.holds.erxnd (by omega) h fun sending => absurd sending loading.idle.quiet.idle]
      exact loading.written j inside
  · intro c b loading
    exact ⟨(Chip.Idle.stable last base k 0 wire log).bank c b loading.idle,loading.etxst,loading.ewrpt,loading.written⟩

theorem Chip.Loading.start (idle : c.Idle last base k 0 wire log) (etxst : c.pointers 2 = startAddress last)
    (ewrpt : c.pointers 1 = startAddress last) : c.Loading last base k wire log frame 0 :=
  ⟨idle,etxst,ewrpt,fun _ none => absurd none (Nat.not_lt_zero _)⟩

theorem Chip.Loading.writeByte {i : Nat} (inside : i < frame.length)
    (fits : startAddress last + frame.length < ramsize) (loading : c.Loading last base k wire log frame i) :
    (c.writeByte frame[i]).Loading last base k wire log frame (i + 1) := by
  have above := startAddress_above last
  have idle : Chip.Idle last base k 0 wire log { c with mem := Function.update c.mem c.ewrpt frame[i] } := by
    refine loading.idle.elsewhere (fun _ _ => rfl) rfl rfl rfl (fun j below => Function.update_of_ne ?_ _ _) rfl rfl
    rw [loading.ewrpt]
    omega
  have next : (c.ewrpt + 1) % ramsize = startAddress last + (i + 1) := by
    rw [loading.ewrpt, Nat.mod_eq_of_lt (by omega), Nat.add_assoc]
  have increments : Chip.Increments { c with mem := Function.update c.mem c.ewrpt frame[i] } := loading.idle.holds.increments
  unfold Chip.writeByte
  dsimp only
  rw [if_pos loading.idle.holds.increments, next]
  refine ⟨idle.setPointer (by decide) _,loading.etxst,Chip.setPointer_self _ _ _,fun j below => ?_⟩
  change frame[j]? = some (Function.update c.mem c.ewrpt frame[i] (startAddress last + j))
  rw [loading.ewrpt]
  by_cases same : j = i
  · rw [same, Function.update_self, List.getElem?_eq_getElem inside]
  · rw [Function.update_of_ne (by omega)]
    exact loading.written j (by omega)

theorem sendbuff_loading {i : Nat} {data : List UInt8} (part : data = (frame.drop i).take data.length)
    (fits : startAddress last + frame.length < ramsize) (loading : w.chip.Loading last base k wire log frame i) :
    (w.sendbuff data).chip.Loading last base k wire log frame (i + data.length) := by
  have bound : data.length ≤ frame.length - i := by
    have size := congrArg List.length part
    rw [List.length_take, List.length_drop] at size
    omega
  refine sendbuff_holds data (S := fun j => Chip.Loading last base k wire log frame (i + j))
    (fun j => Chip.Loading.stable frame (i + j)) (fun j c inside loading => ?_) loading
  have value : data[j] = frame[i + j] := by
    rw [List.getElem_of_eq part, List.getElem_take, List.getElem_drop]
  rw [value, ← Nat.add_assoc]
  exact loading.writeByte (by omega) fits

theorem transmitStart_loading (small : last < ramsize) (bytes : List UInt8) (fits : startAddress last + (bytes.length + 1) < ramsize)
    (idle : w.Idle stream last base k wire log) : w.transmitStart.chip.Loading last base k wire log (0 :: bytes) 1 := by
  have start := transmitStartAddress_eq small idle.ready.rxbufsize
  have stable := Chip.Idle.stable last base k 0 wire log
  obtain ⟨kept,etxst⟩ := encWCR16_plain (r := etxstl) (p := 2) (by decide) (by decide) (by decide) idle.ready.unused stable
    (fun c v idle => idle.setPointer (by decide) v) idle.chip w.transmitStartAddress
  have later := encWCR16_later w etxstl w.transmitStartAddress
  have same := later.transmitStartAddress_eq
  obtain ⟨⟨kept,etxst⟩,ewrpt⟩ := encWCR16_plain (w := w.encWCR16 etxstl w.transmitStartAddress) (r := ewrptl) (p := 1) (by decide)
    (by decide) (by decide) (idle.ready.later later).unused
    (stable.and (stable_pointer (p := 2) (by decide) fun v => v = w.transmitStartAddress.toNat))
    (fun c v both => ⟨both.1.setPointer (by decide) v,both.2⟩) ⟨kept,etxst⟩ w.transmitStartAddress
  rw [start] at etxst ewrpt
  have started : ((w.encWCR16 etxstl w.transmitStartAddress).encWCR16 ewrptl w.transmitStartAddress).chip.Loading last base k wire log (0 :: bytes) 0 :=
    .start kept etxst ewrpt
  have sent := sendbuff_loading (rfl : [0] = ((0 :: bytes).drop 0).take 1) fits started
  unfold World.transmitStart World.encWBM
  dsimp only
  rw [same]
  exact sent

theorem transmitPartials_loading (fits : startAddress last + frame.length < ramsize) {segments : List Reception.Segment} {i : Nat}
    (rest : frame.drop i = segments.flatMap Reception.Segment.bytes) (inside : i ≤ frame.length) (some : segments ≠ [])
    (totals : Reception.Totals 0 segments) (loading : w.chip.Loading last base k wire log frame i) :
    ∃ next, w.transmitPartials segments = .some next ∧ next.chip.Loading last base k wire log frame frame.length ∧ w.Later next := by
  induction segments generalizing i w with
  | nil => contradiction
  | cons buf segments ih =>
    rw [List.flatMap_cons] at rest
    have part : buf.bytes = (frame.drop i).take buf.bytes.length := by rw [rest, List.take_left]
    have after : frame.drop (i + buf.bytes.length) = segments.flatMap Reception.Segment.bytes := by
      rw [← List.drop_drop, rest, List.drop_left]
    have lengths := congrArg List.length rest
    rw [List.length_drop, List.length_append] at lengths
    have sent := sendbuff_loading part fits loading
    have later := sendbuff_later w buf.bytes
    have count : (segments.map fun s => s.bytes.length).sum = (segments.flatMap Reception.Segment.bytes).length := by
      rw [List.length_flatMap]
    have total := totals.1
    rw [count] at total
    unfold World.transmitPartials
    dsimp only
    split
    next last_one =>
      have ends : i + buf.bytes.length = frame.length := by omega
      rw [ends] at sent
      exact ⟨_,rfl,sent,later⟩
    next more =>
      have others : segments ≠ [] := by
        rintro rfl
        exact more (by simpa using total.symm)
      obtain ⟨next,done,reached,past⟩ := ih after (by omega) others totals.2 sent
      exact ⟨next,done,reached,later.trans past⟩

structure Chip.Sends (last base k : Nat) (wire : List (List UInt8)) (log : List Received) (bytes : List UInt8) (c : Chip) : Prop where
  holds : c.Holds last base k 0
  log : log <+: c.received
  ready : c.control.value &&& econ1Txrst = 0
  etxst : c.etxst = startAddress last
  etxnd : c.etxnd = startAddress last + bytes.length
  written : c.Written (startAddress last) (0 :: bytes) (bytes.length + 1)
  state : c.Sending ∧ c.wire = wire ∨ ¬ c.Sending ∧ c.wire = wire ++ [bytes]

private theorem control_bits (v : UInt8) : settle (v &&& ~~~econ1Txrts) &&& econ1Txrst = v &&& econ1Txrst ∧
    settle (v ||| econ1Txrst) &&& econ1Txrts = 0 ∧
    settle (v &&& ~~~econ1Txrst) &&& econ1Txrst = 0 ∧ (v &&& econ1Txrts = 0 → settle (v &&& ~~~econ1Txrst) &&& econ1Txrts = 0) ∧
    (v &&& econ1Txrst = 0 → settle (v ||| econ1Txrts) &&& econ1Txrst = 0 ∧ settle (v ||| econ1Txrts) &&& econ1Txrts ≠ 0) := by
  have all : ∀ n < 256, settle (.ofNat n &&& ~~~econ1Txrts) &&& econ1Txrst = .ofNat n &&& econ1Txrst ∧
      settle (.ofNat n ||| econ1Txrst) &&& econ1Txrts = 0 ∧
      settle (.ofNat n &&& ~~~econ1Txrst) &&& econ1Txrst = 0 ∧
      (UInt8.ofNat n &&& econ1Txrts = 0 → settle (.ofNat n &&& ~~~econ1Txrst) &&& econ1Txrts = 0) ∧
      (UInt8.ofNat n &&& econ1Txrst = 0 →
        settle (.ofNat n ||| econ1Txrts) &&& econ1Txrst = 0 ∧ settle (.ofNat n ||| econ1Txrts) &&& econ1Txrts ≠ 0) := by
    decide +kernel
  have here := all _ v.toNat_lt
  rwa [UInt8.ofNat_toNat] at here

private theorem fetch_bits (c : Chip) : c.fetch .econ1 &&& econ1Txrts = c.control.value &&& econ1Txrts ∧
    c.fetch .econ1 &&& econ1Txrst = c.control.value &&& econ1Txrst :=
  ⟨fetch_control (by decide) c,fetch_control (by decide) c⟩

theorem Chip.Sends.outgoing_eq {bytes : List UInt8} (sends : c.Sends last base k wire log bytes)
    (fits : startAddress last + bytes.length + 8 ≤ ramsize) : c.outgoing = bytes := by
  unfold Chip.outgoing
  rw [sends.etxst, sends.etxnd, Nat.add_sub_cancel_left]
  refine List.ext_getElem (by rw [Ring.load_length]) fun i _ inside => ?_
  have value := sends.written (i + 1) (by omega)
  rw [List.getElem?_cons_succ, List.getElem?_eq_getElem inside] at value
  simp only [Ring.load, List.getElem_map, List.getElem_range]
  rw [Nat.mod_eq_of_lt (by omega), Nat.add_assoc, Nat.add_comm 1]
  exact (Option.some.inj value).symm

theorem Chip.Sends.stable {bytes : List UInt8} (fits : startAddress last + bytes.length + 8 ≤ ramsize) :
    Stable (Chip.Sends last base k wire log bytes) := by
  have above := startAddress_above last
  constructor
  · intro c h sends
    have holds := (Chip.Holds.stable last base k 0).hw c h sends.holds
    have kept := (stable_log log).hw c h sends.log
    have etxst := (hw_pointer (p := 2) (by decide) c h).trans sends.etxst
    have etxnd := (hw_pointer (p := 3) (by decide) c h).trans sends.etxnd
    have written : (c.hw h).Written (startAddress last) (0 :: bytes) (bytes.length + 1) := by
      intro j inside
      rw [hw_memory sends.holds.erxnd (by omega) h fun _ => by rw [sends.etxnd]; omega]
      exact sends.written j inside
    have control : (c.hw h).control.value &&& econ1Txrst = 0 ∧
        ((c.hw h).Sending ∧ (c.hw h).wire = wire ∨ ¬ (c.hw h).Sending ∧ (c.hw h).wire = wire ++ [bytes]) := by
      cases h with
      | frame r =>
        unfold Chip.hw
        dsimp only
        split <;> exact ⟨sends.ready,sends.state⟩
      | sent status =>
        unfold Chip.hw
        dsimp only
        split
        next sending =>
          rcases sends.state with ⟨-,same⟩ | ⟨idle,-⟩
          · refine ⟨(control_bits c.control.value).1.trans sends.ready,Or.inr ⟨fun still => still (settled_sent _),?_⟩⟩
            rw [same, sends.outgoing_eq fits]
          · contradiction
        next => exact ⟨sends.ready,sends.state⟩
      | register number v => exact ⟨sends.ready,sends.state⟩
    exact ⟨holds,kept,control.1,etxst,etxnd,written,control.2⟩
  · intro c b sends
    exact ⟨(Chip.Holds.stable last base k 0).bank c b sends.holds,sends.log,sends.ready,sends.etxst,sends.etxnd,sends.written,sends.state⟩

theorem Chip.Loading.begin {bytes : List UInt8} (loading : c.Loading last base k wire log (0 :: bytes) (bytes.length + 1))
    (etxnd : c.etxnd = startAddress last + bytes.length) (fits : startAddress last + bytes.length + 8 ≤ ramsize) :
    (c.put .econ1 (c.fetch .econ1 ||| econ1Txrts)).Sends last base k wire log bytes ∧
      (c.put .econ1 (c.fetch .econ1 ||| econ1Txrts)).Sending := by
  have above := startAddress_above last
  obtain ⟨ready,sending⟩ := (control_bits (c.fetch .econ1)).2.2.2.2 ((fetch_bits c).2.trans loading.idle.quiet.ready)
  refine ⟨⟨?_,loading.idle.log,ready,loading.etxst,etxnd,loading.written,Or.inl ⟨sending,loading.idle.quiet.wire⟩⟩,sending⟩
  refine loading.idle.holds.elsewhere (fun _ _ => rfl) rfl rfl rfl (fun _ _ => rfl) fun _ => ?_
  change last ≤ c.etxnd ∧ c.etxnd + 8 ≤ ramsize
  omega

/-- The loop ends with the bit read as 0, or after all of its turns. -/
theorem awaitSent_holds {P : Chip → Prop} (stable : Stable P) (unused : w.dev.lastUsedRegister = bankIndeterminate) (n : Nat)
    (holds : P w.chip) : P (World.awaitSent n w).1.chip ∧ w.Later (World.awaitSent n w).1 ∧
      ((World.awaitSent n w).2 = true → ¬ (World.awaitSent n w).1.chip.Sending) := by
  induction n generalizing w with
  | zero => exact ⟨holds,.refl w,fun sent => absurd sent Bool.false_ne_true⟩
  | succ n ih =>
    obtain ⟨kept,value⟩ := encRCR_holds (r := econ1) (i := .econ1) (by decide) unused stable holds
    have later := encRCR_later w econ1
    unfold World.awaitSent
    dsimp only
    rw [value]
    split
    next clear =>
      refine ⟨kept,later,fun _ sending => sending ?_⟩
      rw [← (fetch_bits _).1]
      exact clear
    next =>
      obtain ⟨after,past,outcome⟩ := ih ((congrArg EncDevice.lastUsedRegister later.dev).trans unused) kept
      exact ⟨after,later.trans past,outcome⟩

theorem stable_unsending : Stable fun c => ¬ c.Sending := by
  refine ⟨fun c h idle => ?_,fun _ _ idle => idle⟩
  cases h with
  | frame r =>
    unfold Chip.hw
    dsimp only
    split <;> exact idle
  | sent status =>
    unfold Chip.hw
    dsimp only
    rw [if_neg idle]
    exact idle
  | register number v => exact idle

private theorem events_sending {events : List Hw} {c : Chip} (sending : (events.foldl Chip.hw c).Sending) (status : CString.Bytes 7) :
    .sent status ∉ events := by
  induction events generalizing c with
  | nil => exact List.not_mem_nil
  | cons h events ih =>
    intro inside
    rcases List.mem_cons.mp inside with rfl | later
    · refine stable_unsending.events ?_ events sending
      unfold Chip.hw
      dsimp only
      split
      · exact fun still => still (settled_sent _)
      · assumption
    · exact ih sending later

/-- The driver gives up only on a chip that did not end the transmission before any of its reads. -/
theorem awaitSent_unsent (n : Nat) (sending : w.chip.Sending) (ended : (World.awaitSent n w).2 = false) :
    (World.awaitSent n w).1.now = w.now + n ∧ ∀ i < n, ∀ status, .sent status ∉ w.hardware (w.now + i) := by
  induction n generalizing w with
  | zero => exact ⟨rfl,fun _ none => absurd none (Nat.not_lt_zero _)⟩
  | succ n ih =>
    have read : w.encRCR econ1 = (w.tick,w.tick.chip.fetch .econ1) := rfl
    unfold World.awaitSent at ended ⊢
    rw [read] at ended ⊢
    dsimp only at ended ⊢
    split at ended
    next => exact absurd ended Bool.false_ne_true.symm
    next set =>
      rw [if_neg set]
      have still : w.tick.chip.Sending := by rwa [(fetch_bits _).1] at set
      obtain ⟨now,later⟩ := ih still ended
      have count : w.tick.now + n = w.now + (n + 1) := Nat.add_right_comm w.now 1 n
      refine ⟨now.trans count,fun i inside status => ?_⟩
      cases i with
      | zero => exact events_sending still status
      | succ i =>
        have rest := later i (Nat.lt_of_succ_lt_succ inside) status
        rwa [← Nat.add_assoc, Nat.add_right_comm]

theorem Chip.Sends.idle {bytes : List UInt8} (sends : c.Sends last base k wire log bytes) (ended : ¬ c.Sending) :
    c.Idle last base k 0 (wire ++ [bytes]) log := by
  rcases sends.state with ⟨still,-⟩ | ⟨-,same⟩
  · contradiction
  · exact ⟨sends.holds,⟨ended,sends.ready,same⟩,sends.log⟩

theorem Chip.Idle.readByte (idle : c.Idle last base k 0 wire log) : c.readByte.1.Idle last base k 0 wire log := by
  unfold Chip.readByte
  dsimp only
  split
  · exact idle.setPointer (by decide) _
  · exact idle

theorem rcvbuff_idle (n : Nat) (idle : w.chip.Idle last base k 0 wire log) :
    (World.rcvbuff n w).1.chip.Idle last base k 0 wire log := by
  induction n generalizing w with
  | zero => exact idle
  | succ n ih => exact ih ((Chip.Idle.stable last base k 0 wire log).tick idle).readByte

theorem encRBM_idle (unused : w.dev.lastUsedRegister = bankIndeterminate) (start : UInt16) (n : Nat)
    (idle : w.chip.Idle last base k 0 wire log) : (w.encRBM start n).1.chip.Idle last base k 0 wire log := by
  unfold World.encRBM
  split
  · exact rcvbuff_idle n idle
  · exact rcvbuff_idle n (encWCR16_plain (r := erdptl) (p := 0) (by decide) (by decide) (by decide) unused
      (Chip.Idle.stable last base k 0 wire log) (fun c v idle => idle.setPointer (by decide) v) idle start).1

/-- While the transmit logic is reset the frame went out before or does not go out. -/
structure Chip.Reset (last base k : Nat) (wires : List (List UInt8) → Prop) (log : List Received) (c : Chip) : Prop where
  holds : c.Holds last base k 0
  log : log <+: c.received
  idle : ¬ c.Sending
  wire : wires c.wire

theorem Chip.Reset.stable (wires : List (List UInt8) → Prop) : Stable (Chip.Reset last base k wires log) := by
  constructor
  · intro c h reset
    refine ⟨(Chip.Holds.stable last base k 0).hw c h reset.holds,(stable_log log).hw c h reset.log,stable_unsending.hw c h reset.idle,?_⟩
    cases h with
    | frame r =>
      unfold Chip.hw
      dsimp only
      split <;> exact reset.wire
    | sent status =>
      unfold Chip.hw
      dsimp only
      rw [if_neg reset.idle]
      exact reset.wire
    | register number v => exact reset.wire
  · intro c b reset
    exact ⟨(Chip.Holds.stable last base k 0).bank c b reset.holds,reset.log,reset.idle,reset.wire⟩

theorem Chip.Sends.reset {bytes : List UInt8} (sends : c.Sends last base k wire log bytes) :
    (c.put .econ1 (c.fetch .econ1 ||| econ1Txrst)).Reset last base k (fun out => out = wire ∨ out = wire ++ [bytes]) log := by
  have idle : ¬ (c.put .econ1 (c.fetch .econ1 ||| econ1Txrst)).Sending := fun still => still (control_bits (c.fetch .econ1)).2.1
  refine ⟨sends.holds.elsewhere (fun _ _ => rfl) rfl rfl rfl (fun _ _ => rfl) fun still => absurd still idle,sends.log,idle,?_⟩
  rcases sends.state with ⟨-,same⟩ | ⟨-,same⟩
  · exact Or.inl same
  · exact Or.inr same

theorem Chip.Reset.released {wires : List (List UInt8) → Prop} (reset : c.Reset last base k wires log) :
    (c.put .econ1 (c.fetch .econ1 &&& ~~~econ1Txrst)).Idle last base k 0 c.wire log := by
  obtain ⟨ready,clear⟩ := (control_bits (c.fetch .econ1)).2.2.1,(control_bits (c.fetch .econ1)).2.2.2.1
  have idle : ¬ (c.put .econ1 (c.fetch .econ1 &&& ~~~econ1Txrst)).Sending := by
    intro still
    refine still (clear ?_)
    rw [(fetch_bits c).1]
    exact not_not.mp reset.idle
  exact ⟨reset.holds.elsewhere (fun _ _ => rfl) rfl rfl rfl (fun _ _ => rfl) fun still => absurd still idle,⟨idle,ready,rfl⟩,reset.log⟩

/-- The frame went out, or the chip ended no transmission before any of 10000 transfers in a row. -/
def Outcome (w next : World) (wire : List (List UInt8)) (bytes : List UInt8) (out : List (List UInt8)) : Prop :=
  out = wire ++ [bytes] ∨ out = wire ∧ ∃ t, w.now ≤ t ∧ t + 10000 ≤ next.now ∧
    ∀ i < 10000, ∀ status, .sent status ∉ w.hardware (t + i)

theorem transmitEnd_outcome (small : last < ramsize) {bytes : List UInt8} (fits : startAddress last + bytes.length + 8 ≤ ramsize)
    (ready : w.Ready stream last) {length : UInt16}
    (whole : length.toNat = bytes.length)
    (loading : w.chip.Loading last base k wire log (0 :: bytes) (bytes.length + 1)) :
    ∃ out, (w.transmitEnd length).chip.Idle last base k 0 out log ∧ w.Later (w.transmitEnd length) ∧
      Outcome w (w.transmitEnd length) wire bytes out := by
  have ram : ramsize = 8192 := rfl
  have start := transmitStartAddress_eq small ready.rxbufsize
  have ends : (w.transmitStartAddress + 1 + length - 1).toNat = startAddress last + bytes.length := by
    rw [UInt16.toNat_sub, UInt16.toNat_add, UInt16.toNat_add, start, whole]
    change (2^16 - 1 + ((startAddress last + 1) % 2^16 + bytes.length) % 2^16) % 2^16 = _
    omega
  obtain ⟨kept,etxnd⟩ := encWCR16_plain (r := etxndl) (p := 3) (by decide) (by decide) (by decide) ready.unused
    (Chip.Loading.stable (0 :: bytes) (bytes.length + 1))
    (fun c v loading => ⟨loading.idle.setPointer (by decide) v,loading.etxst,loading.ewrpt,loading.written⟩) loading
    (w.transmitStartAddress + 1 + length - 1)
  rw [ends] at etxnd
  have later := encWCR16_later w etxndl (w.transmitStartAddress + 1 + length - 1)
  let loaded := w.encWCR16 etxndl (w.transmitStartAddress + 1 + length - 1)
  obtain ⟨c,⟨before,pointed⟩,written⟩ := encBFS_holds (w := loaded) (r := econ1) (i := .econ1) (by decide) (ready.later later).unused
    ((Chip.Loading.stable (0 :: bytes) (bytes.length + 1)).and
      (stable_pointer (p := 3) (by decide) fun v => v = startAddress last + bytes.length)) ⟨kept,etxnd⟩ econ1Txrts
  obtain ⟨sends,sending⟩ := before.begin pointed fits
  rw [← written] at sends sending
  have later := later.trans (encBFS_later loaded econ1 econ1Txrts)
  obtain ⟨after,past,clear⟩ := awaitSent_holds (Chip.Sends.stable fits) (ready.later later).unused 10000 sends
  have unsent := awaitSent_unsent 10000 sending
  unfold World.transmitEnd
  dsimp only
  cases result : (World.awaitSent 10000 (loaded.encBFS econ1 econ1Txrts)).2 with
  | true =>
    rw [if_pos rfl]
    have idle := after.idle (clear result)
    exact ⟨_,encRBM_idle (ready.later (later.trans past)).unused _ 7 idle,(later.trans past).trans (encRBM_later _ _ _),Or.inl rfl⟩
  | false =>
    rw [if_neg Bool.false_ne_true]
    have ready := ready.later (later.trans past)
    let timeout := (World.awaitSent 10000 (loaded.encBFS econ1 econ1Txrts)).1
    obtain ⟨c,sends,first⟩ := encBFS_holds (w := timeout) (r := econ1) (i := .econ1) (by decide) ready.unused
      (Chip.Sends.stable fits) after econ1Txrst
    have reset := sends.reset
    rw [← first] at reset
    have released := (ready.later (encBFS_later timeout econ1 econ1Txrst)).unused
    obtain ⟨d,held,second⟩ := encBFC_holds (r := econ1) (i := .econ1) (by decide) released
      (Chip.Reset.stable fun out => out = wire ∨ out = wire ++ [bytes]) reset econ1Txrst
    have idle := held.released
    rw [← second] at idle
    have ended := (encBFS_later timeout econ1 econ1Txrst).trans (encBFC_later _ econ1 econ1Txrst)
    refine ⟨_,idle,(later.trans past).trans ended,?_⟩
    rcases held.wire with same | same
    · obtain ⟨now,none⟩ := unsent result
      refine Or.inr ⟨same,_,later.now,?_,?_⟩
      · rw [← now]
        exact ended.now
      · rw [← later.hardware]
        exact none
    · exact Or.inl same

theorem encTransmitPbuf_outcome (small : last < ramsize) {segments : List Reception.Segment} (some : segments ≠ [])
    (totals : Reception.Totals 0 segments)
    (fits : startAddress last + (segments.flatMap Reception.Segment.bytes).length + 8 ≤ ramsize)
    (idle : w.Idle stream last base k wire log) : ∃ next out, w.encTransmitPbuf segments = .some next ∧
      next.Idle stream last base k out log ∧ Outcome w next wire (segments.flatMap Reception.Segment.bytes) out := by
  have ram : ramsize = 8192 := rfl
  let bytes := segments.flatMap Reception.Segment.bytes
  have fits : startAddress last + bytes.length + 8 ≤ ramsize := fits
  have loading := transmitStart_loading small bytes (by omega) idle
  have started : w.Later w.transmitStart := (encWCR16_later _ _ _).trans (encWBM_later _ _ _)
  obtain ⟨loaded,partials,whole,later⟩ := transmitPartials_loading (i := 1) (w := w.transmitStart)
    (by rw [List.length_cons]; omega) rfl (by rw [List.length_cons]; omega) some totals loading
  have later := started.trans later
  obtain ⟨first,rest,rfl⟩ := List.exists_cons_of_ne_nil some
  have length : (UInt16.ofNat first.totLen).toNat = bytes.length := by
    have total := totals.1
    have sum : (rest.map fun s => s.bytes.length).sum = (rest.flatMap Reception.Segment.bytes).length := by
      rw [List.length_flatMap]
    have parts : bytes.length = first.bytes.length + (rest.flatMap Reception.Segment.bytes).length := List.length_append
    rw [sum, Nat.add_zero, ← parts] at total
    rw [UInt16.toNat_ofNat', total]
    omega
  obtain ⟨out,idle',past,outcome⟩ := transmitEnd_outcome small fits (idle.ready.later later) length whole
  have all := later.trans past
  refine ⟨_,out,?_,⟨idle',idle.ready.later all,?_⟩,?_⟩
  · unfold World.encTransmitPbuf
    rw [List.head?_cons, Option.bind_eq_bind, Option.bind_some, partials]
    rfl
  · rw [all.dev]
    exact idle.next
  · rcases outcome with sent | ⟨same,t,from_start,until_end,none⟩
    · exact Or.inl sent
    · refine Or.inr ⟨same,t,Nat.le_trans later.now from_start,until_end,?_⟩
      rw [← later.hardware]
      exact none

end

end PulseFirmware.Enc28j60
