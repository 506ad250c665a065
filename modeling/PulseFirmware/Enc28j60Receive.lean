import Mathlib.Algebra.Ring.Nat
import Mathlib.Order.Fin.Basic
import PulseFirmware.Enc28j60Ring
import PulseFirmware.PbufOwnership

/-! `enc_read_received_pbuf` and `mchdrv_poll` over a chip that goes on receiving: each frame is read whole from the ring, in the
order of arrival. -/
namespace PulseFirmware.Enc28j60

structure Chip.Quiet (wire : List (List UInt8)) (c : Chip) : Prop where
  idle : ¬ c.Sending
  ready : c.control.value &&& econ1Txrst = 0
  wire : c.wire = wire

/-- What holds between the driver's transfers while it does not send. -/
structure Chip.Idle (last base k extra : Nat) (wire : List (List UInt8)) (log : List Received) (c : Chip) : Prop where
  holds : c.Holds last base k extra
  quiet : c.Quiet wire
  log : log <+: c.received

/-- The device as it is from the setup on, over a chip of which `stream` has what it will do. -/
structure World.Ready (stream : Nat → List Hw) (last : Nat) (w : World) : Prop where
  unused : w.dev.lastUsedRegister = bankIndeterminate
  rxbufsize : w.dev.rxbufsize.toNat = last
  state : w.dev.state ≠ 0
  hardware : w.hardware = stream

structure World.Idle (stream : Nat → List Hw) (last base k : Nat) (wire : List (List UInt8)) (log : List Received) (w : World) :
    Prop where
  chip : w.chip.Idle last base k 0 wire log
  ready : w.Ready stream last
  next : w.dev.nextFrameLocation.toNat = base % (last + 1)

theorem World.Ready.later {stream : Nat → List Hw} {last : Nat} {w w' : World} (ready : w.Ready stream last) (later : w.Later w') :
    w'.Ready stream last := by
  refine ⟨?_,?_,?_,later.hardware.trans ready.hardware⟩
  · rw [later.dev]
    exact ready.unused
  · rw [later.dev]
    exact ready.rxbufsize
  · rw [later.dev]
    exact ready.state

section
variable {stream : Nat → List Hw} {last base k extra : Nat} {wire : List (List UInt8)} {log : List Received} {c : Chip} {w : World} {r : Received}

theorem Chip.Quiet.stable (wire : List (List UInt8)) : Stable (Chip.Quiet wire) := by
  constructor
  · intro c h quiet
    cases h with
    | frame r =>
      unfold Chip.hw
      dsimp only
      split
      · exact ⟨quiet.idle,quiet.ready,quiet.wire⟩
      · exact quiet
    | sent status =>
      unfold Chip.hw
      dsimp only
      rw [if_neg quiet.idle]
      exact quiet
    | register number v => exact ⟨quiet.idle,quiet.ready,quiet.wire⟩
  · intro c b quiet
    exact ⟨quiet.idle,quiet.ready,quiet.wire⟩

theorem stable_log (log : List Received) : Stable fun c => log <+: c.received := by
  refine ⟨fun c h kept => ?_,fun _ _ kept => kept⟩
  cases h with
  | frame r =>
    unfold Chip.hw
    dsimp only
    split
    · exact kept.trans (List.prefix_append _ _)
    · exact kept
  | sent status =>
    unfold Chip.hw
    dsimp only
    split <;> exact kept
  | register number v => exact kept

theorem Chip.Idle.stable (last base k extra : Nat) (wire : List (List UInt8)) (log : List Received) :
    Stable (Chip.Idle last base k extra wire log) := by
  have all := ((Chip.Holds.stable last base k extra).and (Chip.Quiet.stable wire)).and (stable_log log)
  constructor
  · intro c h idle
    obtain ⟨⟨holds,quiet⟩,kept⟩ := all.hw c h ⟨⟨idle.holds,idle.quiet⟩,idle.log⟩
    exact ⟨holds,quiet,kept⟩
  · intro c b idle
    obtain ⟨⟨holds,quiet⟩,kept⟩ := all.bank c b ⟨⟨idle.holds,idle.quiet⟩,idle.log⟩
    exact ⟨holds,quiet,kept⟩

theorem Chip.Idle.elsewhere {c' : Chip} (idle : c.Idle last base k extra wire log)
    (pointers : ∀ p : Pointer, 4 ≤ p → c'.pointers p = c.pointers p) (autoinc : c'.autoinc = c.autoinc) (count : c'.count = c.count)
    (received : c'.received = c.received) (mem : ∀ i ≤ last, c'.mem i = c.mem i) (control : c'.control = c.control)
    (same : c'.wire = c.wire) : c'.Idle last base k extra wire log := by
  have quiet : c'.Quiet wire := by
    refine ⟨?_,?_,same.trans idle.quiet.wire⟩
    · rw [Chip.Sending, control]
      exact idle.quiet.idle
    · rw [control]
      exact idle.quiet.ready
  refine ⟨idle.holds.elsewhere pointers autoinc count received mem fun sending => absurd sending quiet.idle,quiet,?_⟩
  rw [received]
  exact idle.log

theorem Chip.Idle.setPointer (idle : c.Idle last base k extra wire log) {p : Pointer} (low : p < 4) (v : Nat) :
    (c.setPointer p v).Idle last base k extra wire log :=
  idle.elsewhere (fun _ above => setPointer_other (lt_of_lt_of_le low above).ne' c v) rfl rfl rfl (fun _ _ => rfl) rfl rfl

theorem Chip.Idle.next (idle : c.Idle last base k extra wire log) (found : log[k]? = some r) : c.Next k r := by
  obtain ⟨inside,-⟩ := List.getElem?_eq_some_iff.mp found
  obtain ⟨more,whole⟩ := idle.log
  rw [Chip.Next, ← whole, List.getElem?_append_left inside, found]

theorem rcvbuff_frame (small : last < ramsize) (found : log[k]? = some r) {i n : Nat} (inside : i + n ≤ 6 + r.data.length)
    (idle : w.chip.Idle last base k 0 wire log) (reached : w.chip.erdpt = (base + i) % (last + 1)) :
    (World.rcvbuff n w).2 = ((r.cells ((base + r.size) % (last + 1))).drop i).take n ∧
      (World.rcvbuff n w).1.chip.Idle last base k 0 wire log ∧
      (World.rcvbuff n w).1.chip.erdpt = (base + (i + n)) % (last + 1) := by
  have size : (((r.cells ((base + r.size) % (last + 1))).drop i).take n).length = n := by
    rw [List.length_take, List.length_drop, Received.cells_length]
    omega
  have burst := rcvbuff_holds (w := w) (((r.cells ((base + r.size) % (last + 1))).drop i).take n)
    (S := fun j c => c.Idle last base k 0 wire log ∧ c.erdpt = (base + (i + j)) % (last + 1))
    (fun j => (Chip.Idle.stable last base k 0 wire log).and (stable_pointer (p := 0) (by decide) fun v => v = (base + (i + j)) % (last + 1)))
    (fun j c below both => by
      obtain ⟨idle,reached⟩ := both
      rw [size] at below
      obtain ⟨value,moved⟩ := idle.holds.readByte_eq small reached
      refine ⟨?_,?_⟩
      · rw [value, idle.holds.cell (idle.next found) (by omega), List.get_eq_getElem, List.getElem_take, List.getElem_drop]
      · rw [moved]
        exact ⟨idle.setPointer (by decide) _,Chip.setPointer_self _ _ _⟩)
    ⟨idle,reached⟩
  rw [size] at burst
  exact ⟨burst.1,burst.2.1,burst.2.2⟩

theorem word_toNat (low high : UInt8) : (low.toUInt16 + high.toUInt16 <<< 8).toNat = low.toNat + 256 * high.toNat := by
  have first := low.toNat_lt
  have second := high.toNat_lt
  simp only [UInt16.toNat_add, UInt16.toNat_shiftLeft, UInt8.toNat_toUInt16]
  change (low.toNat + high.toNat <<< 8 % 2 ^ 16) % 2 ^ 16 = _
  rw [Nat.shiftLeft_eq]
  omega

theorem length_toNat (low high : UInt8) :
    (low.toUInt16 ||| (high &&& 0x7f).toUInt16 <<< 8).toNat = low.toNat + 256 * (high.toNat % 128) := by
  have first := low.toNat_lt
  have masked : (high &&& 0x7f).toNat = high.toNat % 128 := by
    rw [UInt8.toNat_and]
    exact Nat.and_two_pow_sub_one_eq_mod _ 7
  simp only [UInt16.toNat_or, UInt16.toNat_shiftLeft, UInt8.toNat_toUInt16, masked]
  change low.toNat ||| (high.toNat % 128) <<< 8 % 2 ^ 16 = _
  rw [Nat.mod_eq_of_lt (by rw [Nat.shiftLeft_eq]; omega), Nat.or_comm, ← Nat.shiftLeft_add_eq_or_of_lt first, Nat.shiftLeft_eq]
  omega

theorem read16_toNat (high low : UInt8) : (high.toUInt16 <<< 8 ||| low.toUInt16).toNat = low.toNat + 256 * high.toNat := by
  have first := low.toNat_lt
  have second := high.toNat_lt
  simp only [UInt16.toNat_or, UInt16.toNat_shiftLeft, UInt8.toNat_toUInt16]
  change high.toNat <<< 8 % 2 ^ 16 ||| low.toNat = _
  rw [Nat.mod_eq_of_lt (by rw [Nat.shiftLeft_eq]; omega), ← Nat.shiftLeft_add_eq_or_of_lt first, Nat.shiftLeft_eq]
  omega

theorem ofNat_bytes {n : Nat} (small : n < 2^16) : (UInt8.ofNat n).toNat + 256 * (UInt8.ofNat (n / 256)).toNat = n := by
  rw [UInt8.toNat_ofNat', UInt8.toNat_ofNat']
  omega

theorem receiveStart_eq (small : last < ramsize) (found : log[k]? = some r) (length : r.data.length < 2^15)
    (idle : w.Idle stream last base k wire log) :
    w.receiveStart.2.1 = (r.cells ((base + r.size) % (last + 1))).take 6 ∧ w.receiveStart.2.2.toNat = r.data.length ∧
      w.receiveStart.1.chip.Idle last base k 0 wire log ∧ w.receiveStart.1.chip.erdpt = (base + 6) % (last + 1) ∧
      w.Later w.receiveStart.1 := by
  have inside : base % (last + 1) < last + 1 := Nat.mod_lt _ (Nat.succ_pos last)
  have start : w.dev.nextFrameLocation ≠ readlocationAny := by
    intro any
    have next := idle.next
    rw [any] at next
    change 65535 = base % (last + 1) at next
    have ram : ramsize = 8192 := rfl
    omega
  obtain ⟨kept,pointed⟩ := encWCR16_plain (r := erdptl) (p := 0) (by decide) (by decide) (by decide) idle.ready.unused
    (Chip.Idle.stable last base k 0 wire log) (fun c v idle => idle.setPointer (by decide) v) idle.chip w.dev.nextFrameLocation
  obtain ⟨header,after,reached⟩ := rcvbuff_frame small found (i := 0) (n := 6) (by omega) kept (pointed.trans idle.next)
  have same : w.encRBM w.dev.nextFrameLocation 6 = World.rcvbuff 6 (w.encWCR16 erdptl w.dev.nextFrameLocation) := by
    rw [World.encRBM, if_neg start]
  have read : w.receiveStart.2.1 = (r.cells ((base + r.size) % (last + 1))).take 6 := by
    change (w.encRBM w.dev.nextFrameLocation 6).2 = _
    rw [same, header, List.drop_zero]
  refine ⟨read,?_,?_,?_,encRBM_later w w.dev.nextFrameLocation 6⟩
  · change ((w.receiveStart.2.1.getD 2 0).toUInt16 ||| (w.receiveStart.2.1.getD 3 0 &&& 0x7f).toUInt16 <<< 8).toNat = _
    rw [read, length_toNat]
    change (UInt8.ofNat r.data.length).toNat + 256 * ((UInt8.ofNat (r.data.length / 256)).toNat % 128) = _
    rw [Nat.mod_eq_of_lt]
    · exact ofNat_bytes (by omega)
    · rw [UInt8.toNat_ofNat']
      omega
  · change (w.encRBM w.dev.nextFrameLocation 6).1.chip.Idle last base k 0 wire log
    rw [same]
    exact after
  · change (w.encRBM w.dev.nextFrameLocation 6).1.chip.erdpt = _
    rw [same]
    exact reached

private theorem encRCR16_erxnd (small : last < ramsize) (unused : w.dev.lastUsedRegister = bankIndeterminate)
    (idle : w.chip.Idle last base k extra wire log) :
    (w.encRCR16 erxndl).2.toNat = last ∧ (w.encRCR16 erxndl).1.chip.Idle last base k extra wire log := by
  have ram : ramsize = 8192 := rfl
  have stable := Chip.Idle.stable last base k extra wire log
  obtain ⟨first,high⟩ := encRCR_holds (r := erxndl ||| 1) (i := .pointer 5 true) (by decide) unused stable idle
  obtain ⟨second,low⟩ := encRCR_holds (r := erxndl &&& 0xfe) (i := .pointer 5 false) (by decide)
    ((congrArg EncDevice.lastUsedRegister (encRCR_later _ _).dev).trans unused) stable first
  refine ⟨?_,second⟩
  change ((w.encRCR (erxndl ||| 1)).2.toUInt16 <<< 8 ||| ((w.encRCR (erxndl ||| 1)).1.encRCR (erxndl &&& 0xfe)).2.toUInt16).toNat = last
  rw [read16_toNat, high, low]
  change (UInt8.ofNat (Chip.erxnd _)).toNat + 256 * (UInt8.ofNat (Chip.erxnd _ / 256)).toNat = last
  rw [first.holds.erxnd, second.holds.erxnd, ofNat_bytes (by omega)]

/-- `ERXRDPT` gets the place before the next frame, once around at the start of the ring. -/
private theorem before_next {last next : Nat} (inside : next < last + 1) :
    (next + last) % (last + 1) = if next = 0 then last else next - 1 := by
  split
  next start => rw [start, Nat.zero_add, Nat.mod_eq_of_lt (Nat.lt_succ_self last)]
  next later =>
    rw [Nat.mod_eq_sub_mod (by omega)]
    exact (Nat.mod_eq_of_lt (by omega)).trans (by omega)

private theorem Chip.Idle.taken (idle : c.Idle last base k 0 wire log) (found : log[k]? = some r) :
    (c.setPointer 6 ((base + r.size + last) % (last + 1))).Idle last (base + r.size) (k + 1) 1 wire log :=
  ⟨idle.holds.take (idle.next found),⟨idle.quiet.idle,idle.quiet.ready,idle.quiet.wire⟩,idle.log⟩

private theorem Chip.Idle.low (c : Chip) (v : UInt8) (idle : c.Idle last base k extra wire log) :
    Chip.Idle last base k extra wire log { c with erxrdptLow := v } :=
  idle.elsewhere (fun _ _ => rfl) rfl rfl rfl (fun _ _ => rfl) rfl rfl

/-- The device remembers the place of the next frame and the chip may use that of this one again. -/
private theorem erxrdpt_taken (small : last < ramsize) (found : log[k]? = some r) (idle : w.chip.Idle last base k 0 wire log)
    (unused : w.dev.lastUsedRegister = bankIndeterminate) (next : UInt16)
    (value : next.toNat = (base + r.size) % (last + 1)) :
    (if next = 0 then (w.encRCR16 erxndl).1.encWCR16 erxrdptl (w.encRCR16 erxndl).2
      else w.encWCR16 erxrdptl (next - 1)).chip.Idle last (base + r.size) (k + 1) 1 wire log := by
  have inside : (base + r.size) % (last + 1) < last + 1 := Nat.mod_lt _ (Nat.succ_pos last)
  have place := before_next inside
  rw [Nat.mod_add_mod, ← value] at place
  have stable := Chip.Idle.stable last base k 0 wire log
  have zero : next = 0 ↔ next.toNat = 0 := by
    rw [← UInt16.toNat_inj]
    rfl
  split
  next start =>
    obtain ⟨read,kept⟩ := encRCR16_erxnd small unused idle
    obtain ⟨c,before,written⟩ := encWCR16_erxrdpt ((congrArg EncDevice.lastUsedRegister (encRCR16_later w erxndl).dev).trans unused)
      stable Chip.Idle.low kept (w.encRCR16 erxndl).2
    have taken := before.taken found
    rw [if_pos (zero.mp start)] at place
    rw [place] at taken
    rwa [written, read]
  next later =>
    obtain ⟨c,before,written⟩ := encWCR16_erxrdpt unused stable Chip.Idle.low idle (next - 1)
    have positive : 1 ≤ next.toNat := Nat.one_le_iff_ne_zero.mpr fun none => later (zero.mpr none)
    have taken := before.taken found
    rw [if_neg (Nat.one_le_iff_ne_zero.mp positive)] at place
    rw [place] at taken
    rw [written, UInt16.toNat_sub_of_le next 1 (UInt16.le_iff_toNat_le.mpr positive)]
    exact taken

private theorem Chip.Idle.counted (idle : c.Idle last base k 1 wire log) :
    (c.put .econ2 (c.fetch .econ2 ||| econ2Pktdec)).Idle last base k 0 wire log :=
  ⟨idle.holds.counted,⟨idle.quiet.idle,idle.quiet.ready,idle.quiet.wire⟩,idle.log⟩

theorem receiveEnd_idle (small : last < ramsize) (found : log[k]? = some r) (idle : w.chip.Idle last base k 0 wire log)
    (ready : w.Ready stream last) :
    (w.receiveEnd ((r.cells ((base + r.size) % (last + 1))).take 6)).Idle stream last (base + r.size) (k + 1) wire log := by
  have ram : ramsize = 8192 := rfl
  have inside : (base + r.size) % (last + 1) < last + 1 := Nat.mod_lt _ (Nat.succ_pos last)
  have value : ((UInt8.ofNat ((base + r.size) % (last + 1))).toUInt16 +
      (UInt8.ofNat ((base + r.size) % (last + 1) / 256)).toUInt16 <<< 8).toNat = (base + r.size) % (last + 1) := by
    rw [word_toNat, ofNat_bytes (by omega)]
  let next : UInt16 := (UInt8.ofNat ((base + r.size) % (last + 1))).toUInt16 +
    (UInt8.ofNat ((base + r.size) % (last + 1) / 256)).toUInt16 <<< 8
  let moved : World := { w with dev := { w.dev with nextFrameLocation := next } }
  let freed := if next = 0 then (moved.encRCR16 erxndl).1.encWCR16 erxrdptl (moved.encRCR16 erxndl).2
    else moved.encWCR16 erxrdptl (next - 1)
  have chosen : moved.Ready stream last := ⟨ready.unused,ready.rxbufsize,ready.state,ready.hardware⟩
  have taken : freed.chip.Idle last (base + r.size) (k + 1) 1 wire log := by
    have both := erxrdpt_taken (w := moved) small found idle chosen.unused next value
    exact both
  have later : moved.Later freed := by
    unfold freed
    split
    · exact (encRCR16_later _ _).trans (encWCR16_later _ _ _)
    · exact encWCR16_later _ _ _
  obtain ⟨c,before,written⟩ := encBFS_holds (r := econ2) (i := .econ2) (by decide) (chosen.later later).unused
    (Chip.Idle.stable last (base + r.size) (k + 1) 1 wire log) taken econ2Pktdec
  have done : (freed.encBFS econ2 econ2Pktdec).Idle stream last (base + r.size) (k + 1) wire log := by
    have later := later.trans (encBFS_later freed econ2 econ2Pktdec)
    refine ⟨?_,chosen.later later,?_⟩
    · rw [written]
      exact before.counted
    · rw [later.dev]
      exact value
  exact done

def payload (r : Received) : List UInt8 := r.data.take (r.data.length - 4)

/-- A frame in the ring as the packet that `enc_read_received_pbuf` makes of it. -/
def packet (r : Received) (answer : Option (Nat → UInt8) × Bool) : Reception.Packet :=
  ⟨r.data.length,Reception.writeAt (answer.1.getD fun _ => 0) 0 (payload r),answer.1.isSome,answer.2⟩

theorem pbufAlloc_filled (m : Pbufs) (length : Nat) (memory : Nat → UInt8) (bytes : List UInt8) :
    (m.pbufAlloc length (some memory)).1.modify m.allocated (fun b => { b with payload := Reception.writeAt b.payload 0 bytes }) =
      some (m.pbufAlloc length (some (Reception.writeAt memory 0 bytes))).1 := by
  have found : (m.pbufAlloc length (some memory)).1.cells m.allocated = some ⟨none,memory,length,length,1⟩ := Pbufs.set_self _ _ _
  rw [Pbufs.modify_eq found]
  simp only [Pbufs.pbufAlloc, Pbufs.set, Function.update_idem]

theorem Chip.Idle.size_le (idle : c.Idle last base k extra wire log) (found : log[k]? = some r) : r.size ≤ last := by
  have room := idle.holds.room
  rw [(idle.next found).drop_eq, total_cons] at room
  rcases room with ⟨-,fits⟩ | ⟨-,-,fits⟩ <;> omega

theorem payload_length (r : Received) : (payload r).length = r.data.length - 4 := by
  rw [payload, List.length_take]
  exact Nat.min_eq_left (Nat.sub_le _ _)

private theorem read_payload (small : last < ramsize) (found : log[k]? = some r) (idle : w.chip.Idle last base k 0 wire log)
    (reached : w.chip.erdpt = (base + 6) % (last + 1)) :
    (w.encRBM readlocationAny (r.data.length - 4)).2 = payload r ∧
      (w.encRBM readlocationAny (r.data.length - 4)).1.chip.Idle last base k 0 wire log := by
  obtain ⟨read,kept,-⟩ := rcvbuff_frame small found (i := 6) (n := r.data.length - 4) (by omega) idle reached
  have same : w.encRBM readlocationAny (r.data.length - 4) = World.rcvbuff (r.data.length - 4) w := by
    rw [World.encRBM, if_pos rfl]
  rw [same]
  exact ⟨read,kept⟩

theorem encReadReceivedPbuf_eq (small : last < ramsize) (found : log[k]? = some r) (idle : w.Idle stream last base k wire log)
    (m : Pbufs) (answer : Option (Nat → UInt8) × Bool) : ∃ next,
      w.encReadReceivedPbuf m answer.1 = some (next,Reception.encReadReceivedPbuf m (packet r answer)) ∧
        next.Idle stream last (base + r.size) (k + 1) wire log := by
  have ram : ramsize = 8192 := rfl
  have size := idle.chip.size_le found
  rw [Received.size] at size
  obtain ⟨header,length,kept,reached,later⟩ := receiveStart_eq small found (by omega) idle
  have ready := idle.ready.later later
  have ended := receiveEnd_idle small found kept ready
  rw [← header] at ended
  have short : w.receiveStart.2.2 < 4 ↔ (packet r answer).length < 4 := by
    rw [UInt16.lt_iff_toNat_lt, length]
    exact Iff.rfl
  unfold World.encReadReceivedPbuf Reception.encReadReceivedPbuf
  dsimp only
  by_cases few : (packet r answer).length < 4
  · rw [if_pos (short.mpr few), if_pos few]
    exact ⟨_,rfl,ended⟩
  · have whole : (w.receiveStart.2.2 - 4).toNat = r.data.length - 4 := by
      rw [UInt16.toNat_sub_of_le _ _ (UInt16.not_lt.mp fun less => few (short.mp less)), length]
      rfl
    have huge : ¬ 32000 < w.receiveStart.2.2 - 4 := by
      rw [UInt16.lt_iff_toNat_lt, whole]
      change ¬ 32000 < r.data.length - 4
      omega
    have fits : ¬ (packet r answer).length - 4 > 32000 := by
      change ¬ r.data.length - 4 > 32000
      omega
    rw [if_neg (fun less => few (short.mp less)), if_neg huge, if_neg few, if_neg fits, whole]
    obtain ⟨answer,ok⟩ := answer
    cases answer with
    | none => exact ⟨_,rfl,ended⟩
    | some memory =>
      obtain ⟨read,after⟩ := read_payload small found kept reached
      have past := encRBM_later w.receiveStart.1 readlocationAny (r.data.length - 4)
      have done := receiveEnd_idle small found after (ready.later past)
      rw [← header] at done
      refine ⟨_,?_,done⟩
      change ((m.pbufAlloc (r.data.length - 4) (some memory)).1.modify m.allocated _).map _ = _
      rw [pbufAlloc_filled, Option.map_some, read]
      rfl

end

end PulseFirmware.Enc28j60
