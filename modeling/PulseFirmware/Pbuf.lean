import PulseFirmware.Lib.Chain

/-! The packet buffers of the IP stack as far as the two network drivers use them for received
packets. An address is never given out twice here, so that each buffer can be followed. -/
namespace PulseFirmware

structure Pbuf where
  next : Option Nat
  payload : Nat → UInt8
  totLen : Nat
  len : Nat
  ref : Nat

def Pbuf.bytes (b : Pbuf) : List UInt8 := (List.range b.len).map b.payload

/-- The buffers by address: those below `allocated` were given out, and `freed` and `accepted`
keep a record of what became of them. -/
structure Pbufs where
  cells : Nat → Option Pbuf
  allocated : Nat
  freed : List Nat
  /-- taken over by the stack -/
  accepted : List Nat

namespace Pbufs

def empty : Pbufs := ⟨fun _ => none,0,[],[]⟩

def next (m : Pbufs) (p : Nat) : Option Nat := (m.cells p).bind Pbuf.next

def set (m : Pbufs) (p : Nat) (b : Pbuf) : Pbufs := { m with cells := Function.update m.cells p (some b) }

def modify (m : Pbufs) (p : Nat) (f : Pbuf → Pbuf) : Option Pbufs := (m.cells p).map fun b => m.set p (f b)

/-- `pbuf_alloc(PBUF_RAW, length, ...)` for a length that one buffer holds: NULL, or a buffer with
what its memory happens to contain. -/
def pbufAlloc (m : Pbufs) (length : Nat) : Option (Nat → UInt8) → Pbufs × Option Nat
  | none => (m,none)
  | some payload => ({ m.set m.allocated ⟨none,payload,length,length,1⟩ with allocated := m.allocated + 1 },some m.allocated)

/-- The loop of `pbuf_free`, which does not follow a pointer to a buffer that is not allocated. -/
def pbufFree : Nat → Pbufs → Option Nat → Option Pbufs
  | _, m, none => some m
  | 0, _, some _ => none
  | n+1, m, some p =>
    (m.cells p).bind fun b =>
      if b.ref - 1 = 0 then
        pbufFree n { m with cells := Function.update m.cells p none, freed := m.freed ++ [p] } b.next
      else some (m.set p { b with ref := b.ref - 1 })

def free (m : Pbufs) (p : Option Nat) : Option Pbufs := pbufFree m.allocated m p

def chain (m : Pbufs) (p : Option Nat) : Option (List Nat) := Chain.walk m.next m.allocated p

/-- `netif->input`: on `ERR_OK` the stack owns the whole chain. -/
def input (m : Pbufs) (p : Option Nat) (ok : Bool) : Option Pbufs :=
  if ok then (m.chain p).map fun ids => { m with accepted := m.accepted ++ ids } else some m

structure Held (m : Pbufs) (start : Option Nat) (ids : List Nat) : Prop where
  chain : Chain m.next start ids
  distinct : ids.Nodup
  live : ∀ p ∈ ids, p < m.allocated ∧ ∃ b, m.cells p = some b ∧ b.ref = 1

section
variable {m : Pbufs} {start : Option Nat} {ids : List Nat}

theorem Held.nil (m : Pbufs) : m.Held none [] := ⟨.nil,List.nodup_nil,by simp⟩

theorem Held.chain_eq (held : m.Held start ids) : m.chain start = some ids :=
  held.chain.walk_eq m.allocated (Chain.length_bounded held.distinct fun p inside => (held.live p inside).1)

theorem Held.frame {m' : Pbufs} (held : m.Held start ids) (same : ∀ p ∈ ids, m'.cells p = m.cells p)
    (more : m.allocated ≤ m'.allocated) : m'.Held start ids := by
  refine ⟨held.chain.congr ?_,held.distinct,?_⟩
  · intro p inside
    rw [next, next, same p inside]
  · intro p inside
    obtain ⟨below,found⟩ := held.live p inside
    rw [same p inside]
    exact ⟨Nat.lt_of_lt_of_le below more,found⟩

theorem Held.pbufFree_eq (held : m.Held start ids) (n : Nat) (budget : ids.length ≤ n) :
    ∃ m', pbufFree n m start = some m' ∧ m'.freed = m.freed ++ ids ∧ m'.accepted = m.accepted ∧
      m'.allocated = m.allocated ∧ ∀ p, p ∉ ids → m'.cells p = m.cells p := by
  induction ids generalizing n m start with
  | nil =>
    cases held.chain
    refine ⟨m,?_,by simp,rfl,rfl,fun _ _ => rfl⟩
    cases n <;> rfl
  | cons p ids ih =>
    obtain ⟨outside,distinct⟩ := List.nodup_cons.mp held.distinct
    obtain ⟨-,b,found,single⟩ := held.live p List.mem_cons_self
    cases n with
    | zero => contradiction
    | succ n =>
      cases held.chain with
      | cons p chain =>
        rw [next, found] at chain
        have apart (q : Nat) (inside : q ∈ ids) : Function.update m.cells p Option.none q = m.cells q := by
          have different : q ≠ p := by
            rintro rfl
            exact outside inside
          exact Function.update_of_ne different _ _
        have rest : Held { m with cells := Function.update m.cells p Option.none, freed := m.freed ++ [p] } b.next ids := by
          refine ⟨chain.congr fun q inside => ?_,distinct,fun q inside => ?_⟩
          · simp only [next, apart q inside]
          · obtain ⟨below,cell⟩ := held.live q (List.mem_cons_of_mem p inside)
            rw [← apart q inside] at cell
            exact ⟨below,cell⟩
        obtain ⟨m',done,freed,accepted,allocated,others⟩ := ih rest n (Nat.le_of_succ_le_succ budget)
        refine ⟨m',?_,?_,accepted,allocated,fun q elsewhere => ?_⟩
        · simp only [pbufFree, found, Option.bind_some, single, Nat.sub_self, ↓reduceIte]
          exact done
        · rw [freed, List.append_assoc]
          rfl
        · rw [others q (List.not_mem_of_not_mem_cons elsewhere)]
          exact Function.update_of_ne (List.ne_of_not_mem_cons elsewhere) _ _

theorem modify_eq {p : Nat} {b : Pbuf} (found : m.cells p = some b) (f : Pbuf → Pbuf) :
    m.modify p f = some (m.set p (f b)) := by rw [modify, found, Option.map_some]

@[simp] theorem set_self (m : Pbufs) (p : Nat) (b : Pbuf) : (m.set p b).cells p = some b := Function.update_self _ _ _

theorem set_other {p q : Nat} (different : q ≠ p) (b : Pbuf) : (m.set p b).cells q = m.cells q :=
  Function.update_of_ne different _ _

theorem Held.set {p : Nat} {b b' : Pbuf} (held : m.Held start ids) (found : m.cells p = some b)
    (next_eq : b'.next = b.next) (ref_eq : b'.ref = b.ref) : (m.set p b').Held start ids := by
  refine ⟨held.chain.congr fun q _ => ?_,held.distinct,fun q inside => ?_⟩
  · by_cases same : q = p
    · subst same
      simp only [next, set_self, found, Option.bind_some, next_eq]
    · rw [next, next, set_other same]
  · obtain ⟨below,cell,here,single⟩ := held.live q inside
    by_cases same : q = p
    · subst same
      cases found.symm.trans here
      exact ⟨below,b',set_self _ _ _,ref_eq.trans single⟩
    · exact ⟨below,cell,(set_other same b').trans here,single⟩

theorem alloc_other {length q : Nat} (payload : Nat → UInt8) (below : q < m.allocated) :
    (m.pbufAlloc length (some payload)).1.cells q = m.cells q := set_other (Nat.ne_of_lt below) _

theorem Held.alloc (held : m.Held start ids) (length : Nat) (answer : Option (Nat → UInt8)) :
    (m.pbufAlloc length answer).1.Held start ids := by
  cases answer with
  | none => exact held
  | some payload => exact held.frame (fun p inside => alloc_other payload (held.live p inside).1) (Nat.le_succ _)

theorem Held.fresh (m : Pbufs) (length : Nat) (answer : Option (Nat → UInt8)) :
    (m.pbufAlloc length answer).1.Held (m.pbufAlloc length answer).2 (m.pbufAlloc length answer).2.toList := by
  cases answer with
  | none => exact Held.nil m
  | some payload =>
    have found : (m.pbufAlloc length (some payload)).1.cells m.allocated = some ⟨Option.none,payload,length,length,1⟩ :=
      set_self _ _ _
    refine ⟨Chain.single ?_,List.nodup_singleton _,fun p inside => ?_⟩
    · rw [next, found, Option.bind_some]
    · cases List.mem_singleton.mp inside
      exact ⟨Nat.lt_succ_self _,_,found,rfl⟩

theorem Held.link {done : List Nat} {last new : Nat} {b : Pbuf} (held : m.Held start (done ++ [last]))
    (single : m.Held (some new) [new]) (outside : new ∉ done ++ [last]) (found : m.cells last = some b) :
    (m.set last { b with next := some new }).Held start (done ++ [last] ++ [new]) := by
  have apart : last ∉ done := by
    have distinct := held.distinct
    rw [List.nodup_append] at distinct
    exact fun inside => distinct.2.2 last inside last (List.mem_singleton_self last) rfl
  have different : new ≠ last := by
    rintro rfl
    exact outside (by simp)
  have ends : m.next new = none := by
    cases single.chain with
    | cons _ rest => exact rest.start_eq
  refine ⟨held.chain.snoc (fun p inside => ?_) ?_ ?_,?_,fun p inside => ?_⟩
  · have other : p ≠ last := by
      rintro rfl
      exact apart inside
    rw [next, next, set_other other]
  · simp only [next, set_self, Option.bind_some]
  · rw [next, set_other different]
    exact ends
  · rw [List.nodup_append]
    refine ⟨held.distinct,List.nodup_singleton _,fun p inside q last_eq => ?_⟩
    cases List.mem_singleton.mp last_eq
    rintro rfl
    exact outside inside
  · rcases List.mem_append.mp inside with inside | inside
    · obtain ⟨below,cell,here,ref⟩ := held.live p inside
      by_cases same : p = last
      · subst same
        cases found.symm.trans here
        exact ⟨below,_,set_self _ _ _,ref⟩
      · exact ⟨below,cell,(set_other same _).trans here,ref⟩
    · obtain ⟨below,cell,here,ref⟩ := single.live p inside
      cases List.mem_singleton.mp inside
      exact ⟨below,cell,(set_other different _).trans here,ref⟩

theorem Held.free_eq (held : m.Held start ids) :
    ∃ m', m.free start = some m' ∧ m'.freed = m.freed ++ ids ∧ m'.accepted = m.accepted ∧
      m'.allocated = m.allocated ∧ ∀ p, p ∉ ids → m'.cells p = m.cells p :=
  held.pbufFree_eq m.allocated (Chain.length_bounded held.distinct fun p inside => (held.live p inside).1)

end

end Pbufs

end PulseFirmware
