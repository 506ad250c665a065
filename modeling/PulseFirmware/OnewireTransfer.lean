import PulseFirmware.Onewire

/-! When a one-wire transfer that reports success has moved every bit. Two things get in the way: the
number of bytes is kept in eight bits, and a semaphore that comes after a timeout ends the next call. -/
namespace PulseFirmware.Onewire
open PulseFirmware.Bits PulseFirmware.Run

def Call.size : Call → Nat
  | .reset => 0
  | .write buff | .read buff => buff.bytes.length

/-- The slots are the bits of the buffer, or the samples fill it. -/
def Returned.Moved (r : Returned) : Prop :=
  match r.call with
  | .reset => True
  | .write buff => r.slots = (bits buff.bytes).map slot
  | .read buff => r.samples.length = 8 * buff.bytes.length ∧ bits r.buff = r.samples

instance : DecidablePred Returned.Moved
  | ⟨.reset,_,_,_,_,_⟩ => isTrue trivial
  | ⟨.write buff,_,_,slots,_,_⟩ => inferInstanceAs (Decidable (slots = (bits buff.bytes).map slot))
  | ⟨.read buff,_,_,_,samples,after⟩ =>
    inferInstanceAs (Decidable (samples.length = 8 * buff.bytes.length ∧ bits after = samples))

/-- Every call that has returned success has moved its bits. -/
def Machine.Moves (m : Machine) : Prop := ∀ r ∈ m.log, r.ret = .success → r.Moved

instance : DecidablePred Machine.Moves := fun m => inferInstanceAs (Decidable (∀ r ∈ m.log, r.ret = .success → r.Moved))

/-- A call starts with no more than 255 bytes, and with the semaphore not given. -/
def Starts (m : Machine) : Event → Prop
  | .call c => c.size ≤ 255 ∧ m.xSemaphore = false
  | _ => True

instance (m : Machine) (e : Event) : Decidable (Starts m e) := by
  cases e <;> unfold Starts <;> infer_instance

/-- `n` bits of a transfer of `total` bytes are done. -/
structure OnewireT.Counts (o : OnewireT) (total n : Nat) : Prop where
  place : n = 8 * o.pos + o.ibit
  inside : o.ibit < 8
  left : o.nbytes.toNat + o.pos = total
  last : o.nbytes = 0 → total ≠ 0 → o.ibit = 0

def Buffer.nbytes (buff : Buffer) : Nat := buff.bytes.length % 256

structure Writing (m : Machine) (buff : Buffer) : Prop where
  state : m.onewire.state = .write
  some : 0 < buff.bytes.length
  memory : m.onewire.buff = buff.bytes
  counts : m.onewire.Counts buff.nbytes m.slots.length
  slots : m.slots = ((bits buff.bytes).take m.slots.length).map slot

structure Reading (m : Machine) (buff : Buffer) : Prop where
  state : m.onewire.state = .read
  some : 0 < buff.bytes.length
  counts : m.onewire.Counts buff.nbytes m.samples.length
  size : m.onewire.buff.length = buff.bytes.length
  filled : bits m.onewire.buff = m.samples ++ List.replicate (8 * buff.bytes.length - m.samples.length) false

def Machine.Ended (m : Machine) : Prop := m.timer = [] ∧ m.onewire.nbytes = 0

/-- The call is as far as its interrupts, if the semaphore was not given before. -/
def Machine.Waits (m : Machine) : Call → Prop
  | .reset => True
  | .write buff => Writing m buff ∧ (m.Ended ∨ m.xSemaphore = false ∧ m.timer = [.compare1])
  | .read buff => Reading m buff ∧ (m.Ended ∨ m.xSemaphore = false ∧ (m.timer = [.compare2] ∨
      m.timer = [.compare1,.compare2] ∧ (m.onewire.nbytes ≠ 0 ∨ m.samples = [])))

def Machine.Completes (m : Machine) : Call → Prop
  | .reset => True
  | .write buff => Writing m buff ∧ m.Ended
  | .read buff => Reading m buff ∧ m.Ended

def Machine.At (m : Machine) : Pc → Prop
  | .idle => m.onewire.state = .ready
  | .waiting c given => given = false → m.Waits c
  | .taken c given => given = false → m.Completes c
  | .timedOut .. => True

structure Sound (m : Machine) : Prop where
  place : m.At m.pc
  log : ∀ r ∈ m.log, r.ret = .success → r.given = false → (r.Moved ↔ r.call.size ≤ 255)

private theorem len_nbytes (buff : Buffer) : buff.len.toUInt8.toNat = buff.nbytes := by
  rw [UInt16.toNat_toUInt8, Buffer.len, UInt16.toNat_ofNat_of_lt' buff.short]
  rfl

private theorem nbytes_zero {n : UInt8} : n = 0 ↔ n.toNat = 0 := UInt8.toNat_inj.symm

theorem OnewireT.Counts.advance {o : OnewireT} {total n : Nat} (counts : o.Counts total n)
    (going : o.nbytes ≠ 0 ∨ n = 0 ∧ total = 0) : o.advance.Counts total (n + 1) := by
  obtain ⟨state,presence,ibit,nbytes,buff,pos⟩ := o
  obtain ⟨place,inside,left,last⟩ := counts
  dsimp only at place inside left last going
  unfold OnewireT.advance
  dsimp only
  by_cases full : 7 < ibit + 1
  · have more : nbytes ≠ 0 := going.resolve_right fun first => by omega
    have positive : 0 < nbytes.toNat := Nat.pos_of_ne_zero fun zero => more (nbytes_zero.mpr zero)
    have fewer : (nbytes - 1).toNat = nbytes.toNat - 1 := UInt8.toNat_sub_of_le _ _ (UInt8.le_iff_toNat_le.mpr positive)
    rw [if_pos full]
    exact ⟨by dsimp only; omega,Nat.zero_lt_succ 7,by dsimp only; omega,fun _ _ => rfl⟩
  · rw [if_neg full]
    refine ⟨by dsimp only; omega,by dsimp only; omega,left,fun none all => ?_⟩
    exact absurd none (going.resolve_right fun first => all first.2)

/-- All bits of the bytes that are kept are done, or with none of them fewer than eight. -/
theorem OnewireT.Counts.ended {o : OnewireT} {total n : Nat} (counts : o.Counts total n) (none : o.nbytes = 0) :
    n = 8 * total ∨ total = 0 ∧ n < 8 := by
  obtain ⟨place,inside,left,last⟩ := counts
  have zero := nbytes_zero.mp none
  rcases Nat.eq_zero_or_pos total with empty | positive
  · exact .inr ⟨empty,by omega⟩
  · have first := last none (by omega)
    exact .inl (by omega)

private theorem ended_size {buff : Buffer} {o : OnewireT} {n : Nat} (some : 0 < buff.bytes.length)
    (counts : o.Counts buff.nbytes n) (none : o.nbytes = 0) : n = 8 * buff.bytes.length ↔ buff.bytes.length ≤ 255 := by
  have ended := counts.ended none
  unfold Buffer.nbytes at ended
  omega

theorem Writing.moved {m : Machine} {buff : Buffer} (writing : Writing m buff) (none : m.onewire.nbytes = 0) :
    m.slots = (bits buff.bytes).map slot ↔ buff.bytes.length ≤ 255 := by
  rw [← ended_size writing.some writing.counts none]
  constructor
  · intro all
    rw [all, List.length_map, bits_length]
  · intro all
    have whole : (bits buff.bytes).take m.slots.length = bits buff.bytes := List.take_of_length_le (by rw [bits_length, all])
    rw [writing.slots, whole]

theorem Reading.moved {m : Machine} {buff : Buffer} (reading : Reading m buff) (none : m.onewire.nbytes = 0) :
    m.samples.length = 8 * buff.bytes.length ∧ bits m.onewire.buff = m.samples ↔ buff.bytes.length ≤ 255 := by
  rw [← ended_size reading.some reading.counts none]
  refine ⟨And.left,fun all => ⟨all,?_⟩⟩
  rw [reading.filled, all, Nat.sub_self]
  exact List.append_nil _

private theorem pos_inside {buff : Buffer} {o : OnewireT} {n : Nat} (counts : o.Counts buff.nbytes n)
    (more : o.nbytes ≠ 0) : o.pos < buff.bytes.length := by
  have positive : 0 < o.nbytes.toNat := Nat.pos_of_ne_zero fun zero => more (nbytes_zero.mpr zero)
  have left := counts.left
  have kept := Nat.mod_le buff.bytes.length 256
  unfold Buffer.nbytes at left
  omega

theorem advance_fields (o : OnewireT) : o.advance.state = o.state ∧ o.advance.buff = o.buff := by
  unfold OnewireT.advance
  dsimp only
  split <;> exact ⟨rfl,rfl⟩

private theorem next_slot {m : Machine} {buff : Buffer} (writing : Writing m buff) (more : m.onewire.nbytes ≠ 0) :
    (bits buff.bytes)[m.slots.length]? = some (m.onewire.current.toNat.testBit m.onewire.ibit) := by
  have bound := pos_inside writing.counts more
  rw [writing.counts.place, bits_getElem _ _ writing.counts.inside, OnewireT.current, writing.memory,
    List.getD_eq_getElem?_getD, List.getElem?_eq_getElem bound]
  rfl

private theorem Writing.next {m : Machine} {buff : Buffer} (writing : Writing m buff) (more : m.onewire.nbytes ≠ 0)
    (timer : List Compare) :
    Writing { m with onewire := m.onewire.advance
                     slots := m.slots ++ [slot (m.onewire.current.toNat.testBit m.onewire.ibit)]
                     timer := timer } buff := by
  obtain ⟨state,memory⟩ := advance_fields m.onewire
  refine ⟨state.trans writing.state,writing.some,memory.trans writing.memory,?_,?_⟩
  · rw [List.length_append]
    exact writing.counts.advance (.inl more)
  · rw [List.length_append, List.length_singleton, List.take_add_one, next_slot writing more, List.map_append, ← writing.slots]
    rfl

private theorem sample_fields (o : OnewireT) (level : Bool) : (o.sample level).state = o.state ∧
    (o.sample level).ibit = o.ibit ∧ (o.sample level).nbytes = o.nbytes ∧ (o.sample level).pos = o.pos ∧
    (o.sample level).buff.length = o.buff.length := by
  unfold OnewireT.sample
  split
  next => exact ⟨rfl,rfl,rfl,rfl,List.length_set⟩
  next => exact ⟨rfl,rfl,rfl,rfl,rfl⟩

private theorem sample_filled {m : Machine} {buff : Buffer} (reading : Reading m buff)
    (bound : m.onewire.pos < buff.bytes.length) (level : Bool) : bits (m.onewire.sample level).buff =
      m.samples ++ [level] ++ List.replicate (8 * buff.bytes.length - (m.samples.length + 1)) false := by
  have place := reading.counts.place
  have low := reading.counts.inside
  have inside : m.onewire.pos < m.onewire.buff.length := reading.size ▸ bound
  have blank : 8 * buff.bytes.length - m.samples.length = 8 * buff.bytes.length - (m.samples.length + 1) + 1 := by omega
  have filled := reading.filled
  rw [blank, List.replicate_succ] at filled
  cases level with
  | false => rw [List.append_assoc]; exact filled
  | true =>
    have current : m.onewire.current = m.onewire.buff[m.onewire.pos] := List.getD_eq_getElem _ _ inside
    change bits (m.onewire.buff.set m.onewire.pos (m.onewire.current ||| _)) = _
    rw [current, bits_set inside low, ← place, filled, List.set_append_right _ _ (Nat.le_refl _), Nat.sub_self,
      List.set_cons_zero, List.append_assoc]
    rfl

private theorem Reading.next {m : Machine} {buff : Buffer} (reading : Reading m buff)
    (going : m.onewire.nbytes ≠ 0 ∨ m.samples = []) (level : Bool) (timer : List Compare) :
    Reading { m with onewire := (m.onewire.sample level).advance, samples := m.samples ++ [level], timer := timer } buff := by
  obtain ⟨place,low,left,last⟩ := reading.counts
  obtain ⟨state,ibit,nbytes,pos,size⟩ := sample_fields m.onewire level
  obtain ⟨advanced,memory⟩ := advance_fields (m.onewire.sample level)
  have first : m.samples = [] → m.onewire.pos = 0 := fun none => by
    rw [none, List.length_nil] at place
    omega
  have bound : m.onewire.pos < buff.bytes.length :=
    going.elim (pos_inside reading.counts) fun none => (first none).symm ▸ reading.some
  have counts : (m.onewire.sample level).Counts buff.nbytes m.samples.length :=
    ⟨by rw [pos, ibit, place],ibit.symm ▸ low,by rw [nbytes, pos, left],by rw [nbytes, ibit]; exact last⟩
  have more : (m.onewire.sample level).nbytes ≠ 0 ∨ m.samples.length = 0 ∧ buff.nbytes = 0 := by
    rw [nbytes]
    by_cases zero : m.onewire.nbytes = 0
    · have none := going.resolve_left (fun more => more zero)
      refine .inr ⟨List.length_eq_zero_iff.mpr none,?_⟩
      rw [← left, first none, nbytes_zero.mp zero]
    · exact .inl zero
  refine ⟨advanced.trans (state.trans reading.state),reading.some,?_,?_,?_⟩
  · rw [List.length_append]
    exact counts.advance more
  · dsimp only
    rw [memory, size, reading.size]
  · dsimp only
    rw [memory, sample_filled reading bound, List.length_append]
    rfl

inductive Machine.Steps (m : Machine) : Event → Machine → Prop
  | call (c : Call) (idle : m.pc = .idle) : m.Steps (.call c) (m.start c)
  | late (event : Compare) (level : Bool) (idle : m.pc = .idle) : m.Steps (.late event level) (handler event level m)
  | compare (level : Bool) {event : Compare} {rest : List Compare} (due : m.timer = event :: rest) :
      m.Steps (.compare level) (handler event level { m with timer := rest })
  | take {c : Call} {given : Bool} (waiting : m.pc = .waiting c given) (free : m.xSemaphore = true) :
      m.Steps .take { m with xSemaphore := false, pc := .taken c given }
  | timeout {c : Call} {given : Bool} (waiting : m.pc = .waiting c given) :
      m.Steps .timeout { m with pc := .timedOut c given }
  | finish {c : Call} {given : Bool} (taken : m.pc = .taken c given) : m.Steps .finish (m.finish c given .success)
  | fail {c : Call} {given : Bool} (late : m.pc = .timedOut c given) : m.Steps .finish (m.finish c given .err)

private theorem step_steps {m next : Machine} {e : Event} (stepped : m.step e = some next) : m.Steps e next := by
  cases e with
  | compare level =>
    unfold Machine.step at stepped
    dsimp only at stepped
    split at stepped
    next => contradiction
    next event rest due => exact Option.some.inj stepped ▸ .compare level due
  | call c =>
    obtain ⟨onewire,timer,xSemaphore,pc,slots,samples,log⟩ := m
    cases pc <;> cases stepped
    exact .call c rfl
  | late event level =>
    obtain ⟨onewire,timer,xSemaphore,pc,slots,samples,log⟩ := m
    cases pc <;> cases stepped
    exact .late event level rfl
  | take =>
    obtain ⟨onewire,timer,xSemaphore,pc,slots,samples,log⟩ := m
    cases xSemaphore <;> cases pc <;> cases stepped
    exact .take rfl rfl
  | timeout =>
    obtain ⟨onewire,timer,xSemaphore,pc,slots,samples,log⟩ := m
    cases xSemaphore <;> cases pc <;> cases stepped
    exact .timeout rfl
  | finish =>
    obtain ⟨onewire,timer,xSemaphore,pc,slots,samples,log⟩ := m
    cases pc <;> cases stepped
    · exact .finish rfl
    · exact .fail rfl

private theorem handler_task (event : Compare) (level : Bool) (m : Machine) :
    (handler event level m).pc = m.pc ∧ (handler event level m).log = m.log := by
  unfold handler
  cases event <;> cases m.onewire.state <;> dsimp only <;> (try split) <;> exact ⟨rfl,rfl⟩

private theorem handler_ready (event : Compare) (level : Bool) {m : Machine} (ready : m.onewire.state = .ready) :
    handler event level m = m := by
  unfold handler
  rw [ready]
  cases event <;> rfl

private theorem handler_write {m : Machine} {buff : Buffer} (writing : Writing m buff) (free : m.xSemaphore = false)
    (level : Bool) : (handler .compare1 level { m with timer := [] }).Waits (.write buff) := by
  unfold handler
  dsimp only
  rw [writing.state]
  dsimp only
  split
  next none =>
    exact ⟨⟨writing.state,writing.some,writing.memory,writing.counts,writing.slots⟩,.inl ⟨rfl,none⟩⟩
  next more => exact ⟨writing.next more _,.inr ⟨free,rfl⟩⟩

private theorem handler_sample {m : Machine} {buff : Buffer} (reading : Reading m buff) (free : m.xSemaphore = false)
    (going : m.onewire.nbytes ≠ 0 ∨ m.samples = []) (level : Bool) :
    (handler .compare1 level { m with timer := [.compare2] }).Waits (.read buff) := by
  unfold handler
  dsimp only
  rw [reading.state]
  exact ⟨reading.next going level _,.inr ⟨free,.inl rfl⟩⟩

private theorem handler_read {m : Machine} {buff : Buffer} (reading : Reading m buff) (free : m.xSemaphore = false)
    (level : Bool) : (handler .compare2 level { m with timer := [] }).Waits (.read buff) := by
  have same : m.onewire.nbytes = m.onewire.nbytes := rfl
  unfold handler
  dsimp only
  rw [reading.state]
  dsimp only
  split
  next none =>
    exact ⟨⟨reading.state,reading.some,reading.counts,reading.size,reading.filled⟩,.inl ⟨rfl,none⟩⟩
  next more =>
    exact ⟨⟨reading.state,reading.some,reading.counts,reading.size,reading.filled⟩,.inr ⟨free,.inr ⟨rfl,.inl more⟩⟩⟩

private theorem compare_waits {m : Machine} {c : Call} (waits : m.Waits c) {event : Compare} {rest : List Compare}
    (due : m.timer = event :: rest) (level : Bool) : (handler event level { m with timer := rest }).Waits c := by
  cases c with
  | reset => trivial
  | write buff =>
    obtain ⟨writing,ended | ⟨free,timer⟩⟩ := waits
    · exact absurd (ended.1.symm.trans due) (List.cons_ne_nil _ _).symm
    · obtain ⟨rfl,rfl⟩ := List.cons.inj (due.symm.trans timer)
      exact handler_write writing free level
  | read buff =>
    obtain ⟨reading,ended | ⟨free,timer | ⟨timer,going⟩⟩⟩ := waits
    · exact absurd (ended.1.symm.trans due) (List.cons_ne_nil _ _).symm
    · obtain ⟨rfl,rfl⟩ := List.cons.inj (due.symm.trans timer)
      exact handler_read reading free level
    · obtain ⟨rfl,rfl⟩ := List.cons.inj (due.symm.trans timer)
      exact handler_sample reading free going level

private theorem take_completes {m : Machine} {c : Call} (waits : m.Waits c) (given : m.xSemaphore = true) (pc : Pc) :
    ({ m with xSemaphore := false, pc := pc } : Machine).Completes c := by
  cases c with
  | reset => trivial
  | write buff =>
    obtain ⟨writing,ended | free⟩ := waits
    · exact ⟨⟨writing.state,writing.some,writing.memory,writing.counts,writing.slots⟩,ended⟩
    · rw [given] at free
      exact absurd free.1 (by decide)
  | read buff =>
    obtain ⟨reading,ended | free⟩ := waits
    · exact ⟨⟨reading.state,reading.some,reading.counts,reading.size,reading.filled⟩,ended⟩
    · rw [given] at free
      exact absurd free.1 (by decide)

private theorem len_zero {buff : Buffer} : buff.len = 0 ↔ buff.bytes.length = 0 := by
  rw [← UInt16.toNat_inj, Buffer.len, UInt16.toNat_ofNat_of_lt' buff.short]
  rfl

private theorem write_waits {m : Machine} {buff : Buffer} (ready : m.onewire.state = .ready) (some : buff.len ≠ 0) :
    (onewireWrite buff m).pc = .waiting (.write buff) m.xSemaphore ∧ (onewireWrite buff m).log = m.log ∧
      (m.xSemaphore = false → (onewireWrite buff m).Waits (.write buff)) := by
  have positive : 0 < buff.bytes.length := Nat.pos_of_ne_zero fun none => some (len_zero.mpr none)
  unfold onewireWrite
  rw [if_neg (not_not_intro ready), if_neg some]
  refine ⟨rfl,rfl,fun free => ⟨⟨rfl,positive,rfl,?_,?_⟩,.inr ⟨free,rfl⟩⟩⟩
  · refine ⟨rfl,(by decide : 1 < 8),len_nbytes buff,fun none all => ?_⟩
    exact absurd ((len_nbytes buff).symm.trans (nbytes_zero.mp none)) all
  · obtain ⟨bytes,short⟩ := buff
    cases bytes with
    | nil => contradiction
    | cons b bytes => rfl

private theorem read_waits {m : Machine} {buff : Buffer} (ready : m.onewire.state = .ready) (some : buff.len ≠ 0) :
    (onewireRead buff m).pc = .waiting (.read buff) m.xSemaphore ∧ (onewireRead buff m).log = m.log ∧
      (m.xSemaphore = false → (onewireRead buff m).Waits (.read buff)) := by
  have positive : 0 < buff.bytes.length := Nat.pos_of_ne_zero fun none => some (len_zero.mpr none)
  have blank (n : Nat) : bits (List.replicate n 0) = List.replicate (8 * n) false := by
    induction n with
    | zero => rfl
    | succ n ih =>
      have zero : byteBits 0 = List.replicate 8 false := by decide
      rw [List.replicate_succ, bits_cons, ih, zero, List.replicate_append_replicate]
      exact congrArg (List.replicate · false) (by omega)
  unfold onewireRead
  rw [if_neg (not_not_intro ready), if_neg some]
  refine ⟨rfl,rfl,fun free => ⟨⟨rfl,positive,?_,List.length_replicate,blank _⟩,.inr ⟨free,.inr ⟨rfl,.inr rfl⟩⟩⟩⟩
  refine ⟨rfl,(by decide : 0 < 8),len_nbytes buff,fun none all => ?_⟩
  exact absurd ((len_nbytes buff).symm.trans (nbytes_zero.mp none)) all

private theorem answer_sound {m : Machine} (sound : Sound m) (idle : m.pc = .idle) (c : Call) (ret : Ret) (buff : List UInt8)
    (moved : ret = .success → (Returned.Moved ⟨c,m.xSemaphore,ret,[],[],buff⟩ ↔ c.size ≤ 255)) :
    Sound (m.answer c ret buff) := by
  refine ⟨?_,fun r member success given => ?_⟩
  · have place := sound.place
    change (m.answer c ret buff).At m.pc
    rw [idle] at place ⊢
    exact place
  · rcases List.mem_append.mp member with before | last
    · exact sound.log r before success given
    · cases List.mem_singleton.mp last
      exact moved success

private theorem waiting_sound {m m' : Machine} (sound : Sound m) {c : Call} {given : Bool} (pc : m'.pc = .waiting c given)
    (log : m'.log = m.log) (waits : given = false → m'.Waits c) : Sound m' := by
  refine ⟨?_,log ▸ sound.log⟩
  rw [pc]
  exact waits

private theorem start_sound {m : Machine} (sound : Sound m) (idle : m.pc = .idle) (c : Call) : Sound (m.start c) := by
  have ready : m.onewire.state = .ready := by
    have place := sound.place
    rw [idle] at place
    exact place
  cases c with
  | reset =>
    have started : (onewireReset m).pc = .waiting .reset m.xSemaphore ∧ (onewireReset m).log = m.log := by
      unfold onewireReset
      rw [if_neg (not_not_intro ready)]
      exact ⟨rfl,rfl⟩
    exact waiting_sound sound started.1 started.2 fun _ => trivial
  | write buff =>
    by_cases none : buff.len = 0
    · have empty : buff.bytes = [] := List.length_eq_zero_iff.mp (len_zero.mp none)
      change Sound (onewireWrite buff m)
      unfold onewireWrite
      rw [if_neg (not_not_intro ready), if_pos none]
      refine answer_sound sound idle _ _ _ fun _ => ?_
      simp [Returned.Moved, Call.size, empty]
    · obtain ⟨pc,log,waits⟩ := write_waits ready none
      exact waiting_sound sound pc log waits
  | read buff =>
    by_cases none : buff.len = 0
    · have empty : buff.bytes = [] := List.length_eq_zero_iff.mp (len_zero.mp none)
      change Sound (onewireRead buff m)
      unfold onewireRead
      rw [if_neg (not_not_intro ready), if_pos none]
      refine answer_sound sound idle _ _ _ fun _ => ?_
      simp [Returned.Moved, Call.size, empty]
    · obtain ⟨pc,log,waits⟩ := read_waits ready none
      exact waiting_sound sound pc log waits

private theorem finish_sound {m : Machine} (sound : Sound m) {c : Call} {given : Bool} {ret : Ret}
    (completes : ret = .success → given = false → m.Completes c) : Sound (m.finish c given ret) := by
  refine ⟨rfl,fun r member success fresh => ?_⟩
  rcases List.mem_append.mp member with before | last
  · exact sound.log r before success fresh
  · cases List.mem_singleton.mp last
    cases c with
    | reset => exact ⟨fun _ => Nat.zero_le _,fun _ => trivial⟩
    | write buff =>
      obtain ⟨writing,ended⟩ := completes success fresh
      exact writing.moved ended.2
    | read buff =>
      obtain ⟨reading,ended⟩ := completes success fresh
      exact reading.moved ended.2

private theorem compare_sound {m next : Machine} (sound : Sound m) {event : Compare} {rest : List Compare}
    (due : m.timer = event :: rest) {level : Bool} (taken : next = handler event level { m with timer := rest }) :
    Sound next := by
  have pc : next.pc = m.pc := taken ▸ (handler_task event level { m with timer := rest }).1
  have log : next.log = m.log := taken ▸ (handler_task event level { m with timer := rest }).2
  have place := sound.place
  refine ⟨?_,log ▸ sound.log⟩
  rw [pc]
  cases here : m.pc with
  | idle =>
    rw [here] at place
    have ready : ({ m with timer := rest } : Machine).onewire.state = .ready := place
    rw [taken, handler_ready event level ready]
    exact place
  | waiting c given =>
    rw [here] at place
    exact fun fresh => taken ▸ compare_waits (place fresh) due level
  | taken c given =>
    rw [here] at place
    intro fresh
    have completes := place fresh
    cases c with
    | reset => trivial
    | write buff => exact absurd (completes.2.1.symm.trans due) (List.cons_ne_nil _ _).symm
    | read buff => exact absurd (completes.2.1.symm.trans due) (List.cons_ne_nil _ _).symm
  | timedOut c given => trivial

theorem step_sound {m next : Machine} {e : Event} (sound : Sound m) (stepped : m.step e = some next) : Sound next := by
  have place := sound.place
  cases step_steps stepped with
  | call c idle => exact start_sound sound idle c
  | late event level idle =>
    rw [idle] at place
    rw [handler_ready event level place]
    exact sound
  | compare level due => exact compare_sound sound due rfl
  | take waiting free =>
    rw [waiting] at place
    exact ⟨fun fresh => take_completes (place fresh) free _,sound.log⟩
  | timeout waiting => exact ⟨trivial,sound.log⟩
  | finish taken =>
    rw [taken] at place
    exact finish_sound sound fun _ => place
  | fail late => exact finish_sound sound fun success => nomatch success

private theorem init_sound : Sound Machine.init := ⟨rfl,fun _ none => absurd none List.not_mem_nil⟩

theorem run_sound {events : List Event} {m : Machine} (reached : run Machine.step Machine.init events = some m) : Sound m :=
  run_invariant (fun _ _ _ sound stepped => step_sound sound stepped) init_sound reached

def Pc.call : Pc → Option (Call × Bool)
  | .idle => none
  | .waiting c given | .taken c given | .timedOut c given => some (c,given)

structure Started (m : Machine) : Prop where
  sound : Sound m
  task : ∀ c given, m.pc.call = some (c,given) → given = false ∧ c.size ≤ 255
  log : ∀ r ∈ m.log, r.given = false ∧ r.call.size ≤ 255

private theorem start_task (m : Machine) (c : Call) :
    (m.start c).pc.call = some (c,m.xSemaphore) ∧ (m.start c).log = m.log ∨
      (m.start c).pc = m.pc ∧ ∃ ret buff, (m.start c).log = m.log ++ [⟨c,m.xSemaphore,ret,[],[],buff⟩] := by
  cases c with
  | reset =>
    change (onewireReset m).pc.call = _ ∧ (onewireReset m).log = _ ∨ (onewireReset m).pc = _ ∧ ∃ ret buff, (onewireReset m).log = _
    unfold onewireReset
    split
    next => exact .inr ⟨rfl,_,_,rfl⟩
    next => exact .inl ⟨rfl,rfl⟩
  | write bytes =>
    change (onewireWrite bytes m).pc.call = _ ∧ (onewireWrite bytes m).log = _ ∨
      (onewireWrite bytes m).pc = _ ∧ ∃ ret buff, (onewireWrite bytes m).log = _
    unfold onewireWrite
    split
    next => exact .inr ⟨rfl,_,_,rfl⟩
    next =>
      split
      next => exact .inr ⟨rfl,_,_,rfl⟩
      next => exact .inl ⟨rfl,rfl⟩
  | read bytes =>
    change (onewireRead bytes m).pc.call = _ ∧ (onewireRead bytes m).log = _ ∨
      (onewireRead bytes m).pc = _ ∧ ∃ ret buff, (onewireRead bytes m).log = _
    unfold onewireRead
    split
    next => exact .inr ⟨rfl,_,_,rfl⟩
    next =>
      split
      next => exact .inr ⟨rfl,_,_,rfl⟩
      next => exact .inl ⟨rfl,rfl⟩

private theorem Started.finish {m : Machine} (started : Started m) {c : Call} {given : Bool} {ret : Ret}
    (task : m.pc.call = some (c,given)) (sound : Sound (m.finish c given ret)) : Started (m.finish c given ret) := by
  refine ⟨sound,fun _ _ none => (nomatch none),fun r member => ?_⟩
  rcases List.mem_append.mp member with before | last
  · exact started.log r before
  · cases List.mem_singleton.mp last
    exact started.task c given task

theorem step_started {m next : Machine} {e : Event} (started : Started m) (starts : Starts m e)
    (stepped : m.step e = some next) : Started next := by
  have sound := step_sound started.sound stepped
  cases step_steps stepped with
  | call c idle =>
    obtain ⟨size,free⟩ := starts
    rcases start_task m c with ⟨task,log⟩ | ⟨pc,ret,buff,log⟩
    · refine ⟨sound,fun c' given same => ?_,fun r member => started.log r (log ▸ member)⟩
      cases Option.some.inj (task.symm.trans same)
      exact ⟨free,size⟩
    · refine ⟨sound,fun c' given same => started.task c' given (pc ▸ same),fun r member => ?_⟩
      rw [log] at member
      rcases List.mem_append.mp member with before | last
      · exact started.log r before
      · cases List.mem_singleton.mp last
        exact ⟨free,size⟩
  | late event level idle =>
    obtain ⟨pc,log⟩ := handler_task event level m
    exact ⟨sound,fun c given same => started.task c given (pc ▸ same),fun r member => started.log r (log ▸ member)⟩
  | @compare level event rest due =>
    obtain ⟨pc,log⟩ := handler_task event level { m with timer := rest }
    exact ⟨sound,fun c given same => started.task c given (pc ▸ same),fun r member => started.log r (log ▸ member)⟩
  | take waiting free =>
    exact ⟨sound,fun c given same => started.task c given (by rw [waiting]; exact same),started.log⟩
  | timeout waiting =>
    exact ⟨sound,fun c given same => started.task c given (by rw [waiting]; exact same),started.log⟩
  | finish taken => exact started.finish (by rw [taken]; rfl) sound
  | fail late => exact started.finish (by rw [late]; rfl) sound

/-- With the semaphore given a call that waits for it returns with what it has. -/
private theorem given_finishes {m : Machine} {c : Call} {given : Bool} (waiting : m.pc = .waiting c given)
    (free : m.xSemaphore = true) : run Machine.step m [.take,.finish] =
      some (({ m with xSemaphore := false, pc := .taken c given } : Machine).finish c given .success) := by
  simp only [run, Machine.step, waiting, free, if_true, Option.bind_some]

def Machine.Fails (m : Machine) (c : Call) : Prop :=
  ∃ next r, run Machine.step m [.call c,.take,.finish] = some next ∧ next.log = m.log ++ [r] ∧ r.call = c ∧
    r.ret = .success ∧ ¬ r.Moved

/-- A semaphore left given lets the next call return after its first bit. -/
private theorem given_returns {m : Machine} (ready : m.onewire.state = .ready) (idle : m.pc = .idle)
    (given : m.xSemaphore = true) {c : Call} (some : 0 < c.size) : m.Fails c := by
  have called : m.step (.call c) = Option.some (m.start c) := by simp only [Machine.step, idle]
  cases c with
  | reset => contradiction
  | write buff =>
    have bytes : buff.len ≠ 0 := fun none => absurd (len_zero.mp none) (Nat.ne_of_gt some)
    have first : (onewireWrite buff m).slots.length = 1 ∧ (onewireWrite buff m).xSemaphore = m.xSemaphore := by
      unfold onewireWrite
      rw [if_neg (not_not_intro ready), if_neg bytes]
      exact ⟨rfl,rfl⟩
    obtain ⟨waiting,log,-⟩ := write_waits ready bytes
    have finished := given_finishes waiting (first.2.trans given)
    refine ⟨_,_,(run_cons_eq ..).mpr ⟨_,called,finished⟩,congrArg (· ++ [_]) log,rfl,rfl,fun moved => ?_⟩
    have all : (onewireWrite buff m).slots = (bits buff.bytes).map slot := moved
    have size := congrArg List.length all
    rw [first.1, List.length_map, bits_length] at size
    omega
  | read buff =>
    have bytes : buff.len ≠ 0 := fun none => absurd (len_zero.mp none) (Nat.ne_of_gt some)
    have first : (onewireRead buff m).samples = [] ∧ (onewireRead buff m).xSemaphore = m.xSemaphore := by
      unfold onewireRead
      rw [if_neg (not_not_intro ready), if_neg bytes]
      exact ⟨rfl,rfl⟩
    obtain ⟨waiting,log,-⟩ := read_waits ready bytes
    have finished := given_finishes waiting (first.2.trans given)
    refine ⟨_,_,(run_cons_eq ..).mpr ⟨_,called,finished⟩,congrArg (· ++ [_]) log,rfl,rfl,fun moved => ?_⟩
    have all : (onewireRead buff m).samples.length = 8 * buff.bytes.length ∧ _ := moved
    have size := all.1
    rw [first.1, List.length_nil] at size
    change 0 < buff.bytes.length at some
    omega

/-- A one-wire call that starts with at most 255 bytes and with the semaphore not given moves every bit if it returns
success, in any order of interrupts and timeouts. With more bytes it never does, and with the semaphore given it need not. -/
theorem transfer_moves (events : List Event) :
    (Meets Machine.step Starts Machine.init events → Always Machine.step Machine.Moves Machine.init events) ∧
    ∀ m, run Machine.step Machine.init events = some m →
      (∀ r ∈ m.log, r.ret = .success → r.given = false → (r.Moved ↔ r.call.size ≤ 255)) ∧
      ∀ c, m.pc = .idle → m.xSemaphore = true → 0 < c.size → m.Fails c := by
  refine ⟨fun meets => ?_,fun m reached => ⟨(run_sound reached).log,fun c idle given some => ?_⟩⟩
  · refine always_of_invariant (fun _ _ _ started starts stepped => step_started started starts stepped) (fun m started => ?_)
      (⟨init_sound,fun _ _ none => (nomatch none),fun _ none => absurd none List.not_mem_nil⟩ : Started Machine.init) meets
    intro r member success
    obtain ⟨fresh,size⟩ := started.log r member
    exact (started.sound.log r member success fresh).mpr size
  · have place := (run_sound reached).place
    rw [idle] at place
    exact given_returns place idle given some

/-- A byte that is read from a pin that is low for its first bit only. -/
theorem transfer_moves_byte :
    let one : Buffer := ⟨[0xF0],by decide⟩
    let events : List Event := [.call (.read one),.compare false,.compare false] ++ List.replicate 14 (.compare true) ++
      [.take,.finish]
    ∃ m, run Machine.step Machine.init events = some m ∧ m.log.map Returned.buff = [[0xFE]] ∧ m.Moves := by
  intro one events
  obtain ⟨moves,_⟩ := transfer_moves events
  have always := moves (by decide +kernel)
  have seen : (run Machine.step Machine.init events).map (fun m => m.log.map Returned.buff) = some [[0xFE]] := by
    decide +kernel
  obtain ⟨m,reached,buffers⟩ := Option.map_eq_some_iff.mp seen
  exact ⟨m,reached,buffers,always_beginnings.mp always events List.prefix_rfl m reached⟩

/-- A length of 256 is kept as zero bytes: one slot, and success. A write that times out leaves the semaphore given
when its last interrupt comes late, and the next write returns success after one slot, too. -/
theorem transfer_moves_none :
    let page : Buffer := ⟨List.replicate 256 0,by rw [List.length_replicate]; decide⟩
    let one : Buffer := ⟨[0x0F],by decide⟩
    (∃ m, run Machine.step Machine.init [.call (.write page),.compare true,.take,.finish] = some m ∧ ¬ m.Moves ∧
      m.log.map (fun r => (r.ret,r.slots)) = [(.success,[100])]) ∧
    ∃ m, run Machine.step Machine.init ([.call (.write one)] ++ List.replicate 7 (.compare true) ++
        [.timeout,.compare true,.finish,.call (.write one),.take,.finish]) = some m ∧ ¬ m.Moves ∧
      m.log.map (fun r => (r.ret,r.slots)) = [(.err,[5,5,5,5,100,100,100,100]),(.success,[5])] := by
  intro page one
  have found {events : List Event} {log : List (Ret × List Nat)}
      (seen : (run Machine.step Machine.init events).map (fun m => (decide m.Moves,m.log.map fun r => (r.ret,r.slots))) =
        some (false,log)) :
      ∃ m, run Machine.step Machine.init events = some m ∧ ¬ m.Moves ∧ m.log.map (fun r => (r.ret,r.slots)) = log := by
    obtain ⟨m,reached,both⟩ := Option.map_eq_some_iff.mp seen
    exact ⟨m,reached,of_decide_eq_false (congrArg Prod.fst both),congrArg Prod.snd both⟩
  exact ⟨found (by decide +kernel),found (by decide +kernel)⟩

end PulseFirmware.Onewire
