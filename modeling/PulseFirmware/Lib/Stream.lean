import Mathlib.Data.List.Basic
import Mathlib.Data.List.Infix

/-! Streams of elements: the runs between the terminators, cut off element by element, with the
unterminated tail; keys told apart by the word that a run starts with; and conduits that pass
their elements on in order. -/
namespace PulseFirmware.Framing

structure Frames (α : Type) where
  complete : List (List α)
  tail : List α
deriving DecidableEq

variable {α : Type} (stop : α → Bool)

def Frames.runs (s : Frames α) : List (List α) := s.complete ++ [s.tail]

def Frames.feed (s : Frames α) (a : α) : Frames α :=
  if stop a then ⟨s.complete ++ [s.tail],[]⟩ else ⟨s.complete,s.tail ++ [a]⟩

def Frames.feeds (s : Frames α) (stream : List α) : Frames α := stream.foldl (feed stop) s

def frames (stream : List α) : Frames α := Frames.feeds stop ⟨[],[]⟩ stream

@[simp] theorem feeds_nil (s : Frames α) : s.feeds stop [] = s := rfl

@[simp] theorem feeds_cons (s : Frames α) (a : α) (rest : List α) :
    s.feeds stop (a :: rest) = (s.feed stop a).feeds stop rest := rfl

theorem feeds_append (s : Frames α) (first second : List α) :
    s.feeds stop (first ++ second) = (s.feeds stop first).feeds stop second :=
  List.foldl_append

/-- What was complete before stays in front. -/
theorem feeds_complete (s : Frames α) (stream : List α) :
    s.feeds stop stream = ⟨s.complete ++ (Frames.feeds stop ⟨[],s.tail⟩ stream).complete,(Frames.feeds stop ⟨[],s.tail⟩ stream).tail⟩ := by
  induction stream generalizing s with
  | nil => simp
  | cons a stream ih =>
    rw [feeds_cons, feeds_cons, ih, ih (Frames.feed stop ⟨[],s.tail⟩ a)]
    unfold Frames.feed
    split <;> simp

theorem feeds_runs (s : Frames α) (stream : List α) :
    (s.feeds stop stream).runs = s.complete ++ stream.splitOnPPrepend stop s.tail.reverse := by
  induction stream generalizing s with
  | nil => simp [Frames.runs]
  | cons a stream ih =>
    rw [feeds_cons, ih, Frames.feed]
    split
    next ends => simp [List.splitOnPPrepend_cons_pos ends]
    next goes =>
      have goes : stop a = false := by simpa using goes
      simp [List.splitOnPPrepend_cons_neg goes]

theorem frames_runs (stream : List α) : (frames stop stream).runs = stream.splitOnP stop :=
  (feeds_runs stop ⟨[],[]⟩ stream).trans (List.nil_append _)

theorem feeds_bounded {n : Nat} (s : Frames α) (stream : List α)
    (bound : ∀ run ∈ (s.feeds stop stream).runs, run.length ≤ n) : ∀ run ∈ s.runs, run.length ≤ n := by
  induction stream generalizing s with
  | nil => exact bound
  | cons a stream ih =>
    have after := ih (s.feed stop a) bound
    intro run member
    unfold Frames.feed at after
    split at after
    next =>
      apply after
      rw [Frames.runs]
      exact List.mem_append_left _ member
    next =>
      rcases List.mem_append.mp member with early | last
      · exact after run (List.mem_append_left _ early)
      · have longer := after (s.tail ++ [a]) (List.mem_append_right _ List.mem_cons_self)
        rw [List.mem_singleton.mp last]
        rw [List.length_append] at longer
        omega

end PulseFirmware.Framing

namespace PulseFirmware.Keyword
variable {α κ : Type} {word : κ → List α} {keys : List κ}

/-- No word is the start of another, so at most one key is found, whatever the order of the keys. -/
def PrefixFree (word : κ → List α) (keys : List κ) : Prop := ∀ a ∈ keys, ∀ b ∈ keys, word a <+: word b → a = b

theorem starts_unique (free : PrefixFree word keys) {text : List α} {a b : κ} (memberA : a ∈ keys) (memberB : b ∈ keys)
    (startsA : word a <+: text) (startsB : word b <+: text) : a = b := by
  rcases List.prefix_or_prefix_of_prefix startsA startsB with shorter | longer
  · exact free a memberA b memberB shorter
  · exact (free b memberB a memberA longer).symm

theorem find_eq {text : List α} {p : κ → Bool} (free : PrefixFree word keys)
    (starts : ∀ k ∈ keys, p k = true → word k <+: text) {k : κ} (member : k ∈ keys) (holds : p k = true) :
    keys.find? p = some k := by
  cases found : keys.find? p with
  | none => exact absurd holds (List.find?_eq_none.mp found k member)
  | some k' =>
    have member' := List.mem_of_find?_eq_some found
    have holds' := List.find?_some found
    exact congrArg some (starts_unique free member' member (starts k' member' holds') (starts k member holds))

end PulseFirmware.Keyword

namespace PulseFirmware.Lib

/-- What was accepted is what was delivered followed by what is pending. -/
structure Conduit (α : Type) where
  accepted : List α
  delivered : List α
  pending : List α
  split : accepted = delivered ++ pending

inductive Conduit.Op (α : Type)
  | accept (data : List α)
  | deliver (count : Nat)
  | restart

section
variable {α : Type}

def Conduit.empty : Conduit α := ⟨[],[],[],rfl⟩

def Conduit.apply (s : Conduit α) : Conduit.Op α → Conduit α
  | .accept data => ⟨s.accepted ++ data,s.delivered,s.pending ++ data,by simp [s.split]⟩
  | .deliver count => ⟨s.accepted,s.delivered ++ s.pending.take count,s.pending.drop count,by simp [s.split]⟩
  | .restart => .empty

theorem Conduit.delivered_prefix (s : Conduit α) : s.delivered <+: s.accepted :=
  ⟨s.pending,s.split.symm⟩

/-- Data accepted while nothing is pending may be delivered at once. -/
theorem Conduit.accept_deliver (s : Conduit α) (data : List α) (count : Nat) (idle : s.pending = []) :
    ((s.apply (.accept data)).apply (.deliver count)).delivered = s.delivered ++ data.take count ∧
      ((s.apply (.accept data)).apply (.deliver count)).pending = data.drop count := by
  simp [Conduit.apply, idle]

end

end PulseFirmware.Lib
