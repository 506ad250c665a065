import Mathlib.Algebra.Ring.Nat
import PulseFirmware.Enc28j60Transfer

/-! The receive buffer between the chip that fills it and the driver that takes the frames out: the frames not
yet taken lie one behind the other in the ring, however the chip's steps and the driver's transfers interleave. -/
namespace PulseFirmware.Enc28j60

def total (frames : List Received) : Nat := (frames.map Received.size).sum

/-- The frames from a place on, each behind the place of the next. -/
def Laid (last : Nat) (mem : Nat → UInt8) : Nat → List Received → Prop
  | _, [] => True
  | base, r :: rest =>
    Ring.load (last + 1) mem base (6 + r.data.length) = r.cells ((base + r.size) % (last + 1)) ∧
      Laid last mem (base + r.size) rest

/-- After `k` frames were taken the next one is at `base`, which counts on where the ring starts again; `extra`
of the frames taken are still in `EPKTCNT`. -/
structure Chip.Holds (last base k extra : Nat) (c : Chip) : Prop where
  erxst : c.erxst = 0
  erxnd : c.erxnd = last
  increments : c.Increments
  taken : k ≤ c.received.length
  count : c.count.toNat = (c.received.drop k).length + extra
  erxwrpt : c.erxwrpt = (base + total (c.received.drop k)) % (last + 1)
  room : c.erxrdpt = (base + last) % (last + 1) ∧ total (c.received.drop k) < last ∨
    c.erxrdpt = 0 ∧ base = 0 ∧ total (c.received.drop k) ≤ last
  laid : Laid last c.mem base (c.received.drop k)
  safe : c.Sending → last ≤ c.etxnd ∧ c.etxnd + 8 ≤ ramsize

section
variable {last base k extra : Nat} {c : Chip} {mem mem' : Nat → UInt8} {frames : List Received} {r : Received}

@[simp] theorem total_nil : total [] = 0 := rfl

@[simp] theorem total_cons (r : Received) (frames : List Received) : total (r :: frames) = r.size + total frames := rfl

@[simp] theorem total_append (frames more : List Received) : total (frames ++ more) = total frames + total more := by
  unfold total
  rw [List.map_append, List.sum_append]

@[simp] theorem Received.cells_length (next : Nat) (r : Received) : (r.cells next).length = 6 + r.data.length := by
  rw [cells, List.length_append]
  rfl

theorem Received.cells_fit (next : Nat) (r : Received) : (r.cells next).length ≤ r.size := by
  rw [cells_length, size]
  exact Nat.le_add_right _ _

theorem Laid.congr (laid : Laid last mem base frames)
    (same : ∀ i < total frames, mem' ((base + i) % (last + 1)) = mem ((base + i) % (last + 1))) : Laid last mem' base frames := by
  induction frames generalizing base with
  | nil => trivial
  | cons r frames ih =>
    rw [total_cons] at same
    refine ⟨(Ring.load_congr (last + 1) fun i inside => same i ?_).trans laid.1,ih laid.2 fun i inside => ?_⟩
    · rw [Received.size]
      omega
    · rw [Nat.add_assoc]
      exact same _ (by omega)

theorem Laid.snoc (laid : Laid last mem base frames)
    (stored : Ring.load (last + 1) mem (base + total frames) (6 + r.data.length) =
      r.cells ((base + total frames + r.size) % (last + 1))) : Laid last mem base (frames ++ [r]) := by
  induction frames generalizing base with
  | nil => exact ⟨stored,trivial⟩
  | cons s frames ih =>
    rw [total_cons, ← Nat.add_assoc] at stored
    exact ⟨laid.1,ih laid.2 stored⟩

/-- A frame stored behind the others while all of them fit. -/
theorem Laid.store (laid : Laid last mem base frames) (fits : total frames + r.size ≤ last + 1) :
    Laid last (Ring.store (last + 1) mem ((base + total frames) % (last + 1)) (r.cells ((base + total frames + r.size) % (last + 1))))
      base (frames ++ [r]) := by
  have short := r.cells_fit ((base + total frames + r.size) % (last + 1))
  rw [Ring.store_mod]
  refine Laid.snoc (laid.congr fun i inside => Ring.store_outside fun j below => ?_) ?_
  · rw [Nat.add_assoc]
    exact Ne.symm (Ring.apart (by omega) (by omega))
  · have whole := Ring.load_store mem (base + total frames) (le_trans short (by omega : r.size ≤ last + 1))
    rwa [Received.cells_length] at whole

private theorem wrap {b x n : Nat} (inside : b < n) (turn : x ≤ n) : (b + x) % n = if b + x < n then b + x else b + x - n := by
  split
  next small => exact Nat.mod_eq_of_lt small
  next large =>
    rw [Nat.mod_eq_sub_mod (Nat.not_lt.mp large)]
    exact Nat.mod_eq_of_lt (by omega)

private theorem free_behind {w r last base used : Nat} (w_eq : w = (base + used) % (last + 1))
    (r_eq : r = (base + last) % (last + 1)) (fits : used < last) :
    (if r < w then last - 0 - (w - r) else if w = r then last - 0 else r - w - 1) = last - 1 - used := by
  rw [← Nat.mod_add_mod] at w_eq r_eq
  have inside := Nat.mod_lt base (Nat.succ_pos last)
  rw [wrap inside (by omega)] at w_eq r_eq
  split at w_eq <;> split at r_eq <;> split <;> try omega
  all_goals split <;> omega

theorem Chip.Holds.fits (holds : c.Holds last base k extra) (accepts : r.size ≤ c.free) :
    c.erxrdpt = (base + last) % (last + 1) ∧ total (c.received.drop k) + r.size < last ∨
      c.erxrdpt = 0 ∧ base = 0 ∧ total (c.received.drop k) + r.size ≤ last := by
  have large : 6 ≤ r.size := by
    rw [Received.size, Nat.add_assoc]
    exact Nat.le_add_right _ _
  rw [Chip.free, holds.erxst, holds.erxnd] at accepts
  rcases holds.room with ⟨behind,fits⟩ | ⟨start,zero,fits⟩
  · rw [free_behind holds.erxwrpt behind fits] at accepts
    exact Or.inl ⟨behind,by omega⟩
  · have write := holds.erxwrpt
    subst zero
    rw [Nat.zero_add, Nat.mod_eq_of_lt (by omega)] at write
    rw [start, write] at accepts
    refine Or.inr ⟨start,rfl,?_⟩
    split at accepts
    · omega
    · split at accepts <;> omega

private theorem Chip.Holds.frame_holds (holds : c.Holds last base k extra) (accepts : c.Accepts r ∧ c.erxst = 0) :
    Chip.Holds last base k extra
      { c.setPointer 7 ((c.erxwrpt + r.size) % (c.erxnd + 1)) with
        mem := Ring.store (c.erxnd + 1) c.mem c.erxwrpt (r.cells ((c.erxwrpt + r.size) % (c.erxnd + 1)))
        count := c.count + 1
        received := c.received ++ [r] } := by
  obtain ⟨⟨-,free,some⟩,-⟩ := accepts
  have room := holds.fits free
  have next : (c.erxwrpt + r.size) % (c.erxnd + 1) = (base + total (c.received.drop k) + r.size) % (last + 1) := by
    rw [holds.erxwrpt, holds.erxnd, Nat.mod_add_mod]
  have drop : (c.received ++ [r]).drop k = c.received.drop k ++ [r] := List.drop_append_of_le_length holds.taken
  have sum : total ((c.received ++ [r]).drop k) = total (c.received.drop k) + r.size := by
    rw [drop, total_append, total_cons, total_nil, Nat.add_zero]
  have small : c.count.toNat < 255 := by
    have bound := c.count.toNat_lt
    have other : c.count.toNat ≠ 255 := fun full => some (UInt8.toNat_inj.mp full)
    omega
  refine ⟨holds.erxst,holds.erxnd,holds.increments,?_,?_,?_,?_,?_,holds.safe⟩
  · exact le_trans holds.taken (by simp)
  · dsimp only
    rw [drop, List.length_append, UInt8.toNat_add, Nat.mod_eq_of_lt (by simpa using by omega), holds.count]
    simp only [List.length_singleton]
    change _ + 1 = _
    omega
  · dsimp only
    rw [sum, next, ← Nat.add_assoc]
    rfl
  · dsimp only
    rw [sum]
    exact room
  · dsimp only
    rw [drop, next, holds.erxwrpt, holds.erxnd]
    exact holds.laid.store (by rcases room with ⟨-,fits⟩ | ⟨-,-,fits⟩ <;> omega)

theorem settled_sent (v : UInt8) : settle (v &&& ~~~econ1Txrts) &&& econ1Txrts = 0 := by
  have all : ∀ n < 256, settle (.ofNat n &&& ~~~econ1Txrts) &&& econ1Txrts = 0 := by decide +kernel
  rw [← UInt8.ofNat_toNat (x := v)]
  exact all _ v.toNat_lt

private theorem Chip.Holds.sent_holds (holds : c.Holds last base k extra) (sending : c.Sending) (status : CString.Bytes 7) :
    Chip.Holds last base k extra
      { c with
        wire := c.wire ++ [c.outgoing]
        mem := Ring.store ramsize c.mem (c.etxnd + 1) status.toList
        control := .of (c.control.value &&& ~~~econ1Txrts) } := by
  obtain ⟨above,below⟩ := holds.safe sending
  refine ⟨holds.erxst,holds.erxnd,holds.increments,holds.taken,holds.count,holds.erxwrpt,holds.room,?_,?_⟩
  · refine holds.laid.congr fun i _ => Ring.store_outside fun j inside => ?_
    have place : (base + i) % (last + 1) < last + 1 := Nat.mod_lt _ (Nat.succ_pos last)
    rw [status.toList_length] at inside
    rw [Nat.mod_eq_of_lt (by omega)]
    omega
  · intro still
    exact absurd (settled_sent _) still

theorem Chip.Holds.stable (last base k extra : Nat) : Stable (Chip.Holds last base k extra) := by
  constructor
  · intro c h holds
    cases h with
    | frame r =>
      unfold Chip.hw
      dsimp only
      split
      next accepts => exact holds.frame_holds accepts
      next => exact holds
    | sent status =>
      unfold Chip.hw
      dsimp only
      split
      next sending => exact holds.sent_holds sending status
      next => exact holds
    | register number v => exact ⟨holds.1,holds.2,holds.3,holds.4,holds.5,holds.6,holds.7,holds.8,holds.9⟩
  · intro c b holds
    exact ⟨holds.1,holds.2,holds.3,holds.4,holds.5,holds.6,holds.7,holds.8,holds.9⟩

def Chip.Next (k : Nat) (r : Received) (c : Chip) : Prop := c.received[k]? = some r

theorem Chip.Next.stable (k : Nat) (r : Received) : Stable (Chip.Next k r) := by
  refine ⟨fun c h next => ?_,fun _ _ next => next⟩
  cases h with
  | frame s =>
    unfold Chip.hw
    dsimp only
    split
    · obtain ⟨inside,-⟩ := List.getElem?_eq_some_iff.mp next
      exact (List.getElem?_append_left inside).trans next
    · exact next
  | sent status =>
    unfold Chip.hw
    dsimp only
    split <;> exact next
  | register number v => exact next

theorem Chip.Next.drop_eq (next : c.Next k r) : c.received.drop k = r :: c.received.drop (k + 1) := by
  obtain ⟨inside,rfl⟩ := List.getElem?_eq_some_iff.mp next
  exact List.drop_eq_getElem_cons inside

theorem Chip.Holds.elsewhere {c' : Chip} (holds : c.Holds last base k extra) (pointers : ∀ p : Pointer, 4 ≤ p → c'.pointers p = c.pointers p)
    (autoinc : c'.autoinc = c.autoinc) (count : c'.count = c.count) (received : c'.received = c.received)
    (mem : ∀ i ≤ last, c'.mem i = c.mem i) (safe : c'.Sending → last ≤ c'.etxnd ∧ c'.etxnd + 8 ≤ ramsize) :
    c'.Holds last base k extra := by
  refine ⟨(pointers 4 (by decide)).trans holds.erxst,(pointers 5 (by decide)).trans holds.erxnd,?_,?_,?_,?_,?_,?_,safe⟩
  · rw [Chip.Increments, autoinc]
    exact holds.increments
  · rw [received]
    exact holds.taken
  · rw [count, received]
    exact holds.count
  · rw [received]
    exact (pointers 7 (by decide)).trans holds.erxwrpt
  · have same : c'.erxrdpt = c.erxrdpt := pointers 6 (by decide)
    rw [same, received]
    exact holds.room
  · rw [received]
    exact holds.laid.congr fun i _ => mem _ (Nat.le_of_lt_succ (Nat.mod_lt _ (Nat.succ_pos last)))

theorem Chip.Holds.readByte_eq (holds : c.Holds last base k extra) (small : last < ramsize) {i : Nat}
    (reached : c.erdpt = (base + i) % (last + 1)) :
    c.readByte.2 = c.mem ((base + i) % (last + 1)) ∧ c.readByte.1 = c.setPointer 0 ((base + (i + 1)) % (last + 1)) := by
  have inside : (base + i) % (last + 1) < last + 1 := Nat.mod_lt _ (Nat.succ_pos last)
  refine ⟨congrArg c.mem reached,?_⟩
  unfold Chip.readByte
  dsimp only
  rw [if_pos holds.increments, holds.erxnd, holds.erxst, reached, ← Nat.add_assoc, ← Nat.mod_add_mod (base + i)]
  congr 1
  split
  next ends => rw [ends, Nat.mod_self]
  next => exact (Nat.mod_eq_of_lt (by omega)).trans (Nat.mod_eq_of_lt (by omega)).symm

theorem Chip.Holds.cell (holds : c.Holds last base k extra) (next : c.Next k r) {i : Nat} (inside : i < 6 + r.data.length) :
    c.mem ((base + i) % (last + 1)) =
      (r.cells ((base + r.size) % (last + 1))).get ⟨i,by rwa [Received.cells_length]⟩ := by
  have laid := holds.laid
  rw [next.drop_eq] at laid
  rw [List.get_eq_getElem]
  have stored := congrArg (fun cells => cells[i]?) laid.1
  rw [Ring.load, List.getElem?_map, List.getElem?_range inside, List.getElem?_eq_getElem (by rwa [Received.cells_length])] at stored
  exact Option.some.inj stored

theorem Chip.Holds.take (holds : c.Holds last base k 0) (next : c.Next k r) :
    (c.setPointer 6 ((base + r.size + last) % (last + 1))).Holds last (base + r.size) (k + 1) 1 := by
  have drop := next.drop_eq
  obtain ⟨inside,-⟩ := List.getElem?_eq_some_iff.mp next
  have count := holds.count
  have write := holds.erxwrpt
  have laid := holds.laid
  have large : 6 ≤ r.size := by
    rw [Received.size, Nat.add_assoc]
    exact Nat.le_add_right _ _
  rw [drop] at count write laid
  refine ⟨holds.erxst,holds.erxnd,holds.increments,inside,count,?_,?_,laid.2,holds.safe⟩
  · rw [total_cons, ← Nat.add_assoc] at write
    exact write
  · refine Or.inl ⟨rfl,?_⟩
    have room := holds.room
    rw [drop, total_cons] at room
    change total (c.received.drop (k + 1)) < last
    rcases room with ⟨-,fits⟩ | ⟨-,-,fits⟩ <;> omega

theorem pktdec_bits (v : UInt8) : (v ||| econ2Pktdec) &&& econ2Pktdec ≠ 0 ∧
    (v ||| econ2Pktdec) &&& ~~~econ2Pktdec &&& econ2Autoinc = v &&& econ2Autoinc := by
  have all : ∀ n < 256, (UInt8.ofNat n ||| econ2Pktdec) &&& econ2Pktdec ≠ 0 ∧
      (UInt8.ofNat n ||| econ2Pktdec) &&& ~~~econ2Pktdec &&& econ2Autoinc = UInt8.ofNat n &&& econ2Autoinc := by decide +kernel
  rw [← UInt8.ofNat_toNat (x := v)]
  exact all _ v.toNat_lt

theorem Chip.Holds.counted (holds : c.Holds last base k 1) :
    (c.put .econ2 (c.fetch .econ2 ||| econ2Pktdec)).Holds last base k 0 := by
  obtain ⟨set,kept⟩ := pktdec_bits c.autoinc
  have count := holds.count
  have some : c.count ≠ 0 := by
    intro none
    rw [none] at count
    exact Nat.succ_ne_zero _ count.symm
  refine ⟨holds.erxst,holds.erxnd,?_,holds.taken,?_,holds.erxwrpt,holds.room,holds.laid,holds.safe⟩
  · change (c.autoinc ||| econ2Pktdec) &&& ~~~econ2Pktdec &&& econ2Autoinc ≠ 0
    rw [kept]
    exact holds.increments
  · change (if (c.autoinc ||| econ2Pktdec) &&& econ2Pktdec = 0 ∨ c.count = 0 then c.count else c.count - 1).toNat = (c.received.drop k).length + 0
    rw [if_neg (by simp [set, some]), UInt8.toNat_sub_of_le _ _ (UInt8.le_iff_toNat_le.mpr ?_)]
    · rw [count]
      rfl
    · rw [count]
      exact Nat.succ_le_succ (Nat.zero_le _)

end

end PulseFirmware.Enc28j60
