import PulseFirmware.Reassembly

/-! Who owns the buffers of received packets: each that a driver allocated was accepted by the
stack, freed once, or is in the chain at `rx_first`. -/
namespace PulseFirmware.Reception
open PulseFirmware.Run

def Drivers.kept (s : Drivers) : List Nat := (s.pbufs.chain s.rxFirst).getD []

structure World.Balanced (w : World) : Prop where
  memory : w.fault = false
  ledger : (List.range w.drivers.pbufs.allocated).Perm (w.drivers.pbufs.accepted ++ w.drivers.pbufs.freed ++ w.drivers.kept)
  bounded : w.drivers.kept.length ≤ 2^16

instance : DecidablePred World.Balanced := fun w =>
  decidable_of_iff (w.fault = false ∧
      (List.range w.drivers.pbufs.allocated).Perm (w.drivers.pbufs.accepted ++ w.drivers.pbufs.freed ++ w.drivers.kept) ∧
      w.drivers.kept.length ≤ 2^16)
    ⟨fun ⟨memory,ledger,bounded⟩ => ⟨memory,ledger,bounded⟩,fun b => ⟨b.memory,b.ledger,b.bounded⟩⟩

def Packet.read (packet : Packet) : Bool := 4 ≤ packet.length && packet.length - 4 ≤ 32000 && packet.allocated

/-- `mchdrv_poll` is never refused a packet, and what is copied from `rx_buf` fits into it. -/
def World.Owned (w : World) : Event → Prop
  | .packet _ => True
  | .chunk size answers => w.drivers.rxFirst = none → answers.first.isSome = true → size ≤ wincRxBufSz
  | .poll packets => ∀ packet ∈ packets.takeWhile Packet.read, packet.ok = true

section
variable {s : Drivers} {ids done : List Nat} {last : Nat} {b : Pbuf} {m m' m'' : Pbufs}

theorem Drivers.Ready.kept_eq (ready : s.Ready ids) : s.kept = ids := by
  rw [kept, ready.held.chain_eq, Option.getD_some]

theorem Ledger.refl (m : Pbufs) : Ledger m m [] [] [] :=
  ⟨(List.append_nil _).symm,(List.append_nil _).symm,(List.append_nil _).symm⟩

theorem Ledger.trans {new accepted freed new' accepted' freed' : List Nat} (before : Ledger m m' new accepted freed)
    (after : Ledger m' m'' new' accepted' freed') :
    Ledger m m'' (new ++ new') (accepted ++ accepted') (freed ++ freed') := by
  refine ⟨?_,?_,?_⟩
  · rw [after.allocated, before.allocated, List.append_assoc]
  · rw [after.accepted, before.accepted, List.append_assoc]
  · rw [after.freed, before.freed, List.append_assoc]

/-- What was held or is new is accepted, freed or held. -/
structure Turnover (ids new accepted freed ids' : List Nat) (grown : Nat) : Prop where
  moved : (ids ++ new).Perm (accepted ++ freed ++ ids')
  size : ids'.length ≤ grown

theorem Drivers.Loaded.turnover (loaded : s.Loaded done last b) (sz rem : Nat) (answers : Answers) :
    ∃ t ids' new accepted freed, s.chunkDone sz rem answers = some t ∧ t.Ready ids' ∧
      (rem ≠ 0 → t.passed = s.passed) ∧ Ledger s.pbufs t.pbufs new accepted freed ∧
      Turnover (done ++ [last]) new accepted freed ids' (if rem = 0 then 1 else (done ++ [last]).length + 1) := by
  by_cases complete : rem = 0
  · subst complete
    obtain ⟨t,stepped,ready,-,ledger⟩ := loaded.complete sz answers
    refine ⟨t,_,_,_,_,stepped,ready,fun more => absurd rfl more,ledger,?_,?_⟩
    · cases answers.ok with
      | true => simp
      | false => simp
    · cases answers.p <;> simp [Pbufs.pbufAlloc]
  · rw [if_neg complete]
    cases found : answers.p with
    | none =>
      obtain ⟨t,stepped,ready,passed,ledger⟩ := loaded.discard sz complete answers found
      exact ⟨t,_,_,_,_,stepped,ready,fun _ => passed,ledger,by simp,by simp⟩
    | some payload =>
      obtain ⟨t,stepped,ready,passed,ledger,-⟩ := loaded.extend sz complete answers found
      exact ⟨t,_,_,_,_,stepped,ready,fun _ => passed,ledger,by simp,by simp⟩

/-- Every callback that keeps to its buffers hands on all that it held. -/
theorem Drivers.Ready.turnover (ready : s.Ready ids) {data : List UInt8} (fits : data.length ≤ s.gu16ethRcvBufSize) (rem : Nat)
    (answers : Answers) (small : s.rxFirst = none → answers.first.isSome = true → data.length ≤ wincRxBufSz) :
    ∃ t ids' new accepted freed, s.chunk data rem answers = some t ∧ t.Ready ids' ∧
      (rem ≠ 0 → t.passed = s.passed) ∧ Ledger s.pbufs t.pbufs new accepted freed ∧
      Turnover ids new accepted freed ids' (if rem = 0 then 1 else max ids.length 1 + 1) := by
  rcases List.eq_nil_or_concat ids with rfl | ⟨done,last,rfl⟩
  · cases found : answers.first with
    | none =>
      obtain ⟨t,stepped,later,passed,same⟩ := ready.refused fits rem answers found
      refine ⟨t,[],[],[],[],stepped,later,fun _ => passed,?_,List.Perm.refl _,Nat.zero_le _⟩
      rw [same]
      exact Ledger.refl _
    | some payload =>
      obtain ⟨t,b,begun,loaded,-,passed,given⟩ := ready.begins fits rem answers found
        (small ready.rxFirst_eq (by simp [found]))
      obtain ⟨t',ids',new,accepted,freed,stepped,later,passed',ledger,turnover⟩ := loaded.turnover data.length rem answers
      exact ⟨t',ids',_,_,_,begun.trans stepped,later,fun more => (passed' more).trans passed,given.trans ledger,turnover.moved,turnover.size⟩
  · rw [List.concat_eq_append] at ready ⊢
    obtain ⟨t,b,c,begun,loaded,-,passed,given,-⟩ := ready.continues fits rem answers
    obtain ⟨t',ids',new,accepted,freed,stepped,later,passed',ledger,turnover⟩ := loaded.turnover data.length rem answers
    refine ⟨t',ids',_,_,_,begun.trans stepped,later,fun more => (passed' more).trans passed,given.trans ledger,turnover.moved,?_⟩
    have grown := turnover.size
    split at grown
    next complete =>
      rw [if_pos complete]
      exact grown
    next more =>
      rw [if_neg more]
      omega

theorem encReadReceivedPbuf_eq (m : Pbufs) (packet : Packet) : encReadReceivedPbuf m packet =
    m.pbufAlloc (packet.length - 4) (if packet.read then some packet.data else none) := by
  unfold encReadReceivedPbuf Packet.read
  split
  next short => simp [Nat.not_le.mpr short, Pbufs.pbufAlloc]
  next whole =>
    split
    next huge => simp [Nat.not_le.mpr huge, Pbufs.pbufAlloc]
    next small => simp [Nat.not_lt.mp whole, Nat.not_lt.mp small]

theorem input_fresh (m : Pbufs) (length : Nat) (payload : Nat → UInt8) (ok : Bool) :
    ∃ m', (m.pbufAlloc length (some payload)).1.input (some m.allocated) ok = some m' ∧
      Ledger m m' [m.allocated] (if ok then [m.allocated] else []) [] ∧ m.allocated ≤ m'.allocated ∧
      ∀ p < m.allocated, m'.cells p = m.cells p := by
  have alloc := Ledger.alloc m length (some payload)
  have same (p : Nat) (below : p < m.allocated) : (m.pbufAlloc length (some payload)).1.cells p = m.cells p :=
    Pbufs.alloc_other payload below
  have single := (Pbufs.Held.fresh m length (some payload)).chain_eq
  change (m.pbufAlloc length (some payload)).1.chain (some m.allocated) = some [m.allocated] at single
  unfold Pbufs.input
  rw [single]
  cases ok with
  | true => exact ⟨_,rfl,⟨alloc.allocated,rfl,alloc.freed⟩,Nat.le_succ _,same⟩
  | false => exact ⟨_,rfl,⟨alloc.allocated,alloc.accepted,alloc.freed⟩,Nat.le_succ _,same⟩

/-- The loop of `mchdrv_poll` takes what the controller has; the packets that were refused are lost. -/
theorem mchdrvPoll_cases (m : Pbufs) (packets : List Packet) :
    ∃ m' new accepted, mchdrvPoll m packets = some m' ∧ Ledger m m' new accepted [] ∧
      m.allocated ≤ m'.allocated ∧ (∀ p < m.allocated, m'.cells p = m.cells p) ∧
      (accepted = new ∧ (∀ packet ∈ packets.takeWhile Packet.read, packet.ok = true) ∨
        accepted.length < new.length ∧ ¬ ∀ packet ∈ packets.takeWhile Packet.read, packet.ok = true) := by
  induction packets generalizing m with
  | nil => exact ⟨m,[],[],rfl,Ledger.refl m,Nat.le_refl _,fun _ _ => rfl,Or.inl ⟨rfl,by simp⟩⟩
  | cons packet packets ih =>
    have received := encReadReceivedPbuf_eq m packet
    cases readable : packet.read with
    | false =>
      rw [readable] at received
      refine ⟨m,[],[],?_,Ledger.refl m,Nat.le_refl _,fun _ _ => rfl,Or.inl ⟨rfl,by simp [readable]⟩⟩
      rw [mchdrvPoll, received]
      rfl
    | true =>
      rw [readable] at received
      obtain ⟨m1,input,first,more,same⟩ := input_fresh m (packet.length - 4) packet.data packet.ok
      obtain ⟨m2,new,accepted,polled,later,grown,kept,outcome⟩ := ih m1
      refine ⟨m2,_,_,?_,first.trans later,Nat.le_trans more grown,fun p below => ?_,?_⟩
      · rw [mchdrvPoll, received]
        change ((m.pbufAlloc (packet.length - 4) (some packet.data)).1.input (some m.allocated) packet.ok).bind _ = some m2
        rw [input, Option.bind_some, polled]
      · rw [kept p (Nat.lt_of_lt_of_le below more), same p below]
      · rw [List.takeWhile_cons_of_pos readable, List.forall_mem_cons]
        cases accepts : packet.ok with
        | true =>
          rcases outcome with ⟨rfl,all⟩ | ⟨fewer,refused⟩
          · exact Or.inl ⟨rfl,rfl,all⟩
          · exact Or.inr ⟨Nat.succ_lt_succ fewer,fun all => refused all.2⟩
        | false =>
          refine Or.inr ⟨?_,fun all => Bool.false_ne_true all.1⟩
          have fewer : accepted.length ≤ new.length := by
            rcases outcome with ⟨rfl,-⟩ | ⟨fewer,-⟩
            · exact Nat.le_refl _
            · exact Nat.le_of_lt fewer
          exact Nat.lt_succ_of_le fewer

/-- While memory is in order there is a chain, no longer than the bytes fetched allow. -/
structure World.Chained (w : World) (ids : List Nat) : Prop where
  ready : w.drivers.Ready ids
  frame : w.frame.length < 2^16
  idle : w.rest = none → ids.length ≤ 1
  fetching : ∀ rest, w.rest = some rest → rest.length ≤ w.frame.length ∧ ids.length + rest.length ≤ w.frame.length + 1

theorem World.Chained.bounded {w : World} (chained : w.Chained ids) : ids.length ≤ 2^16 := by
  have frame := chained.frame
  cases rest : w.rest with
  | none => exact Nat.le_trans (chained.idle rest) (by decide)
  | some bytes =>
    have fetching := (chained.fetching bytes rest).2
    omega

def World.Inv (w : World) : Prop := w.fault = true ∨ ∃ ids, w.Chained ids

theorem World.Chained.balanced {w : World} (chained : w.Chained ids) (memory : w.fault = false)
    (ledger : (List.range w.drivers.pbufs.allocated).Perm (w.drivers.pbufs.accepted ++ w.drivers.pbufs.freed ++ ids)) :
    w.Balanced := by
  have kept := chained.ready.kept_eq
  refine ⟨memory,?_,?_⟩
  · rw [kept]
    exact ledger
  · rw [kept]
    exact chained.bounded

theorem Ledger.perm {new accepted freed ids' : List Nat} (ledger : Ledger m m' new accepted freed)
    (before : (List.range m.allocated).Perm (m.accepted ++ m.freed ++ ids)) (moved : (ids ++ new).Perm (accepted ++ freed ++ ids')) :
    (List.range m'.allocated).Perm (m'.accepted ++ m'.freed ++ ids') := by
  rw [ledger.allocated, ledger.accepted, ledger.freed]
  calc (List.range m.allocated ++ new).Perm (m.accepted ++ m.freed ++ ids ++ new) := before.append_right new
    _ = m.accepted ++ m.freed ++ (ids ++ new) := List.append_assoc _ _ _
    List.Perm _ (m.accepted ++ m.freed ++ (accepted ++ freed ++ ids')) := moved.append_left _
    _ = m.accepted ++ ((m.freed ++ accepted) ++ (freed ++ ids')) := by simp only [List.append_assoc]
    List.Perm _ (m.accepted ++ ((accepted ++ m.freed) ++ (freed ++ ids'))) :=
      (List.perm_append_comm.append_right _).append_left _
    _ = m.accepted ++ accepted ++ (m.freed ++ freed) ++ ids' := by simp only [List.append_assoc]

theorem World.chunk_cases {w next : World} {size : Nat} {answers : Answers} (stepped : w.step (.chunk size answers) = some next) :
    ∃ rest, w.rest = some rest ∧ size ≤ rest.length ∧ size ≤ w.drivers.gu16ethRcvBufSize ∧ (size = 0 → rest = []) ∧
      (w.drivers.chunk (rest.take size) (rest.length - size) answers = none ∧ next = { w with fault := true } ∨
        ∃ drivers, w.drivers.chunk (rest.take size) (rest.length - size) answers = some drivers ∧
          next = { w with
            drivers
            hit := w.hit || w.drivers.drops (rest.length - size) answers
            rest := if rest.length - size = 0 then none else some (rest.drop size)
            kept := if rest.length - size = 0 ∧ (w.hit || w.drivers.drops (rest.length - size) answers) = false
              then w.kept ++ [w.frame] else w.kept }) := by
  obtain ⟨rest,fetching,stepped⟩ := Option.bind_eq_some_iff.mp stepped
  split at stepped
  next allowed =>
    refine ⟨rest,fetching,allowed.1,allowed.2.1,allowed.2.2,?_⟩
    dsimp only at stepped
    split at stepped
    next failed =>
      cases stepped
      exact Or.inl ⟨failed,rfl⟩
    next drivers done =>
      cases stepped
      exact Or.inr ⟨drivers,done,rfl⟩
  next => contradiction

theorem World.Chained.chunk {w next : World} (chained : w.Chained ids) {size : Nat} {answers : Answers}
    (owned : w.Owned (.chunk size answers)) (stepped : w.step (.chunk size answers) = some next) :
    ∃ ids' new accepted freed, next.Chained ids' ∧ next.fault = w.fault ∧
      (next.rest ≠ none → next.drivers.passed = w.drivers.passed) ∧ Ledger w.drivers.pbufs next.drivers.pbufs new accepted freed ∧ (ids ++ new).Perm (accepted ++ freed ++ ids') := by
  obtain ⟨rest,fetching,enough,fits,nonempty,outcome⟩ := chunk_cases stepped
  have length : (rest.take size).length = size := List.length_take_of_le enough
  have small (empty : w.drivers.rxFirst = none) (some : answers.first.isSome = true) : (rest.take size).length ≤ wincRxBufSz := by
    rw [length]
    exact owned empty some
  rw [← length] at fits
  obtain ⟨t,ids',new,accepted,freed,done,ready,passed,ledger,turnover⟩ := chained.ready.turnover fits (rest.length - size) answers small
  rcases outcome with ⟨failed,-⟩ | ⟨drivers,same,rfl⟩
  · rw [done] at failed
    contradiction
  · cases done.symm.trans same
    refine ⟨ids',new,accepted,freed,⟨ready,chained.frame,fun idle => ?_,fun left more => ?_⟩,rfl,fun more => passed ?_,ledger,
      turnover.moved⟩
    · have grown := turnover.size
      split at grown
      next => exact grown
      next more => simp [more] at idle
    · have grown := turnover.size
      have room := chained.fetching rest fetching
      split at grown
      next complete => simp [complete] at more
      next incomplete =>
        simp only [incomplete, ↓reduceIte, Option.some.injEq] at more
        subst more
        have some : size ≠ 0 := by
          intro none
          rw [nonempty none] at incomplete
          exact incomplete (Nat.zero_sub size)
        rw [List.length_drop]
        change rest.length - size ≤ w.frame.length ∧ _ ≤ w.frame.length + 1
        omega
    · intro complete
      simp [complete] at more

theorem World.Chained.chunk_fault {w next : World} (chained : w.Chained ids) {size : Nat} {answers : Answers}
    (broken : ¬ w.Owned (.chunk size answers)) (stepped : w.step (.chunk size answers) = some next) : next.fault = true := by
  obtain ⟨rest,fetching,enough,fits,nonempty,outcome⟩ := chunk_cases stepped
  simp only [Owned, Classical.not_imp, Nat.not_le] at broken
  obtain ⟨empty,some,large⟩ := broken
  obtain ⟨payload,found⟩ := Option.isSome_iff_exists.mp some
  have length : (rest.take size).length = size := List.length_take_of_le enough
  rw [← length] at fits large
  have none : ids = [] := by
    have start := chained.ready.rxFirst_eq
    rw [empty] at start
    exact List.head?_eq_none_iff.mp start.symm
  subst none
  have failed := chained.ready.overrun fits (rest.length - size) answers found large
  rcases outcome with ⟨-,rfl⟩ | ⟨drivers,same,-⟩
  · rfl
  · rw [failed] at same
    contradiction

theorem World.Chained.poll {w next : World} (chained : w.Chained ids) {packets : List Packet}
    (stepped : w.step (.poll packets) = some next) :
    ∃ m new accepted, next = { w with drivers := { w.drivers with pbufs := m } } ∧
      (∀ p ∈ ids, m.cells p = w.drivers.pbufs.cells p) ∧ next.Chained ids ∧ Ledger w.drivers.pbufs m new accepted [] ∧
      (accepted = new ∧ w.Owned (.poll packets) ∨ accepted.length < new.length ∧ ¬ w.Owned (.poll packets)) := by
  obtain ⟨m,new,accepted,polled,ledger,grown,same,outcome⟩ := mchdrvPoll_cases w.drivers.pbufs packets
  simp only [step, polled, Option.some.injEq] at stepped
  subst stepped
  have unchanged (p : Nat) (inside : p ∈ ids) := same p (chained.ready.held.live p inside).1
  have held := chained.ready.held.frame unchanged grown
  have posted : Drivers.Posted { w.drivers with pbufs := m } ids := by
    cases chained.ready.posted with
    | rxBuf goes size => exact .rxBuf goes size
    | ethBuffer goes size => exact .ethBuffer goes size
    | last done last rxLast goes size => exact .last done last rxLast goes size
  exact ⟨m,new,accepted,rfl,unchanged,⟨⟨held,posted⟩,chained.frame,chained.idle,chained.fetching⟩,ledger,outcome⟩

theorem World.Chained.packet {w next : World} (chained : w.Chained ids) {frame : List UInt8}
    (stepped : w.step (.packet frame) = some next) : next.Chained ids ∧ next.fault = w.fault ∧ next.drivers = w.drivers := by
  simp only [step] at stepped
  split at stepped
  next allowed =>
    cases stepped
    have idle := chained.idle allowed.1
    refine ⟨⟨chained.ready,allowed.2,fun none => ?_,fun rest fetching => ?_⟩,rfl,rfl⟩
    · contradiction
    · cases fetching
      change _ ≤ frame.length ∧ _ ≤ frame.length + 1
      omega
  next => contradiction

private theorem fault_kept {w next : World} {e : Event} (fault : w.fault = true) (stepped : w.step e = some next) :
    next.fault = true := by
  cases e with
  | packet frame =>
    simp only [World.step] at stepped
    split at stepped
    next =>
      cases stepped
      exact fault
    next => contradiction
  | chunk size answers =>
    obtain ⟨rest,-,-,-,-,⟨-,rfl⟩ | ⟨drivers,-,rfl⟩⟩ := World.chunk_cases stepped
    · rfl
    · exact fault
  | poll packets =>
    simp only [World.step] at stepped
    split at stepped <;> cases stepped
    · rfl
    · exact fault

private theorem step_keeps {w next : World} {e : Event} (inv : w.Inv) (stepped : w.step e = some next) : next.Inv := by
  rcases inv with fault | ⟨ids,chained⟩
  · exact Or.inl (fault_kept fault stepped)
  · cases e with
    | packet frame => exact Or.inr ⟨ids,(chained.packet stepped).1⟩
    | chunk size answers =>
      by_cases owned : w.Owned (.chunk size answers)
      · obtain ⟨ids',_,_,_,later,-⟩ := chained.chunk owned stepped
        exact Or.inr ⟨ids',later⟩
      · exact Or.inl (chained.chunk_fault owned stepped)
    | poll packets =>
      obtain ⟨_,_,_,-,-,later,-⟩ := chained.poll stepped
      exact Or.inr ⟨ids,later⟩

private theorem step_exact {w next : World} {e : Event} (inv : w.Inv) (balanced : w.Balanced) (stepped : w.step e = some next) :
    next.Balanced ↔ w.Owned e := by
  rcases inv with fault | ⟨ids,chained⟩
  · rw [balanced.memory] at fault
    contradiction
  · have before := balanced.ledger
    rw [chained.ready.kept_eq] at before
    cases e with
    | packet frame =>
      obtain ⟨later,memory,same⟩ := chained.packet stepped
      rw [← same] at before
      exact ⟨fun _ => trivial,fun _ => later.balanced (memory.trans balanced.memory) before⟩
    | chunk size answers =>
      constructor
      · intro after
        by_contra broken
        have fault := chained.chunk_fault broken stepped
        rw [after.memory] at fault
        contradiction
      · intro owned
        obtain ⟨ids',new,accepted,freed,later,memory,-,ledger,moved⟩ := chained.chunk owned stepped
        exact later.balanced (memory.trans balanced.memory) (ledger.perm before moved)
    | poll packets =>
      obtain ⟨m,new,accepted,rfl,-,later,ledger,⟨rfl,owned⟩ | ⟨fewer,broken⟩⟩ := chained.poll stepped
      · refine ⟨fun _ => owned,fun _ => later.balanced balanced.memory (ledger.perm before ?_)⟩
        rw [List.append_nil]
        exact List.perm_append_comm
      · refine ⟨fun after => ?_,fun owned => absurd owned broken⟩
        have counted := after.ledger.length_eq
        have earlier := before.length_eq
        rw [later.ready.kept_eq, ledger.allocated, ledger.accepted, ledger.freed] at counted
        simp only [List.length_append, List.length_nil] at counted earlier
        omega

theorem World.init_chained (rxBuf ethBuffer : Nat → UInt8) : (World.init rxBuf ethBuffer).Chained [] :=
  ⟨⟨Pbufs.Held.nil _,.ethBuffer rfl rfl⟩,Nat.two_pow_pos 16,fun _ => Nat.zero_le _,fun rest none => by contradiction⟩

/-- In a run every buffer is always accounted for exactly if the stack takes each packet that
`mchdrv_poll` gives to it, and no chunk that is copied from `rx_buf` is longer than it. -/
theorem buffers_owned (rxBuf ethBuffer : Nat → UInt8) (events : List Event) :
    Always World.step World.Balanced (.init rxBuf ethBuffer) events ↔
      Meets World.step World.Owned (.init rxBuf ethBuffer) events := by
  have start : World.Inv (.init rxBuf ethBuffer) := Or.inr ⟨[],World.init_chained rxBuf ethBuffer⟩
  have balanced : World.Balanced (.init rxBuf ethBuffer) :=
    (World.init_chained rxBuf ethBuffer).balanced rfl (List.Perm.refl _)
  exact always_iff_meets (fun _ _ _ => step_keeps) (fun _ _ _ => step_exact) start balanced

theorem refused_lost : ¬ Always World.step World.Balanced (.init (fun _ => 0) (fun _ => 0))
    [.poll [⟨64,fun _ => 0,true,false⟩]] := by decide

end

end PulseFirmware.Reception
