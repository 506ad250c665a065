import Mathlib.Data.List.ReduceOption
import PulseFirmware.LineFraming
import PulseFirmware.Lib.Run

/-! `cmd_feed` byte by byte. After a byte that finds the line buffer full the rest of the write
goes by unread, and the next write starts with an empty buffer. -/
namespace PulseFirmware
open PulseFirmware.CString PulseFirmware.Run

structure Reader (σ : Type) where
  w : σ
  buff : CmdBuff
  dropping : Bool

section
variable {σ : Type} (parse : σ → Bytes 256 → Nat → Outcome (σ × Bytes 256))

def Reader.read (s : Reader σ) (b : UInt8) : Outcome (Reader σ) :=
  if s.dropping then .ok s
  else if b = 13 ∨ b = 10 then do
    let (w,p) ← parse s.w s.buff.p s.buff.len
    return ⟨w,⟨p,0⟩,false⟩
  else if s.buff.len < 256 then .ok ⟨s.w,⟨memcpyAt s.buff.p s.buff.len [b],s.buff.len + 1⟩,false⟩
  else .ok ⟨s.w,⟨s.buff.p,0⟩,true⟩

def Reader.arrive (s : Reader σ) : Option UInt8 → Option (Reader σ)
  | none => some { s with dropping := false }
  | some b => (s.read parse b).toOption

def arrivals (pieces : List (List UInt8)) : List (Option UInt8) :=
  pieces.flatMap fun piece => none :: piece.map some

private theorem run_dropping (s : Reader σ) (dropped : s.dropping = true) (bytes : List UInt8) :
    run (Reader.arrive parse) s (bytes.map some) = some s := by
  induction bytes with
  | nil => rfl
  | cons b bytes ih =>
    have stays : s.arrive parse (some b) = some s := by
      rw [Reader.arrive, Reader.read, if_pos dropped]
      rfl
    rw [List.map_cons, run, stays]
    exact ih

private theorem run_piece (w : σ) (buff : CmdBuff) (bytes : List UInt8) :
    run (Reader.arrive parse) ⟨w,buff,false⟩ (bytes.map some) =
      (feed parse w buff bytes).toOption.map fun (w,buff,code) => ⟨w,buff,decide (code ≠ 0)⟩ := by
  induction bytes generalizing w buff with
  | nil => rfl
  | cons b bytes ih =>
    rw [List.map_cons, run, Reader.arrive, Reader.read, feed, if_neg Bool.false_ne_true]
    split
    next =>
      cases called : parse w buff.p buff.len with
      | error stop => rfl
      | ok result => exact ih result.1 ⟨result.2,0⟩
    next =>
      split
      next => exact ih w ⟨memcpyAt buff.p buff.len [b],buff.len + 1⟩
      next => exact run_dropping parse ⟨w,⟨buff.p,0⟩,true⟩ rfl bytes

/-- Calls of `cmd_feed` leave what the reader leaves. -/
theorem run_arrivals (s : Reader σ) (pieces : List (List UInt8)) :
    (run (Reader.arrive parse) s (arrivals pieces)).map (fun s => (s.w,s.buff)) =
      (feedAll parse s.w s.buff pieces).toOption.map fun (w,buff,_) => (w,buff) := by
  induction pieces generalizing s with
  | nil => rfl
  | cons piece pieces ih =>
    change (run _ s ((none :: piece.map some) ++ arrivals pieces)).map _ = _
    rw [List.cons_append, run, Reader.arrive, Option.bind_some, run_append, run_piece, feedAll]
    cases fed : feed parse s.w s.buff piece with
    | error stop => rfl
    | ok result =>
      refine (ih ⟨result.1,result.2.1,decide (result.2.2 ≠ 0)⟩).trans ?_
      change _ = (do
        let (w,buff,codes) ← feedAll parse result.1 result.2.1 pieces
        return (w,buff,result.2.2 :: codes)).toOption.map _
      cases feedAll parse result.1 result.2.1 pieces <;> rfl

end

theorem arrivals_bytes (pieces : List (List UInt8)) : (arrivals pieces).reduceOption = pieces.flatten := by
  induction pieces with
  | nil => rfl
  | cons piece pieces ih =>
    change ((none :: piece.map some) ++ arrivals pieces).reduceOption = _
    rw [List.cons_append, List.reduceOption_cons_of_none, List.reduceOption_append, ih, List.flatten_cons]
    simp [List.reduceOption]

/-- A beginning of what arrives is itself some writes, the last perhaps not to its end. -/
theorem arrivals_cut {begun : List (Option UInt8)} {pieces : List (List UInt8)} (cut : begun <+: arrivals pieces) :
    ∃ seen, begun = arrivals seen := by
  induction pieces generalizing begun with
  | nil => exact ⟨[],List.prefix_nil.mp cut⟩
  | cons piece pieces ih =>
    cases begun with
    | nil => exact ⟨[],rfl⟩
    | cons first begun =>
      obtain ⟨same,shorter⟩ := List.cons_prefix_cons.mp cut
      subst same
      rcases List.prefix_or_prefix_of_prefix shorter (List.prefix_append (piece.map some) (arrivals pieces)) with early | late
      · obtain ⟨part,_,rfl⟩ := List.prefix_map_iff.mp early
        exact ⟨[part],by simp [arrivals]⟩
      · obtain ⟨rest,rfl⟩ := late
        obtain ⟨seen,rfl⟩ := ih ((List.prefix_append_right_inj _).mp shorter)
        exact ⟨piece :: seen,rfl⟩

end PulseFirmware
