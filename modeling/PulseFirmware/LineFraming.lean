import PulseFirmware.Cmd
import PulseFirmware.Lib.Stream

/-! `cmd_feed` over any `cmd_parse`. A call may change the bytes of the line buffer, but not
its length. -/
namespace PulseFirmware
open PulseFirmware.CString PulseFirmware.Framing

structure CmdBuff where
  p : Bytes 256
  len : Nat

def feed {σ : Type} (parse : σ → Bytes 256 → Nat → Outcome (σ × Bytes 256)) (w : σ) (buff : CmdBuff) :
    List UInt8 → Outcome (σ × CmdBuff × Int)
  | [] => .ok (w,buff,0)
  | b :: bytes =>
    if b = 13 ∨ b = 10 then do
      let (w,p) ← parse w buff.p buff.len
      feed parse w ⟨p,0⟩ bytes
    else if buff.len < 256 then feed parse w ⟨memcpyAt buff.p buff.len [b],buff.len + 1⟩ bytes
    else .ok (w,⟨buff.p,0⟩,-1)

/-- Successive calls of `cmd_feed`, with their return values. -/
def feedAll {σ : Type} (parse : σ → Bytes 256 → Nat → Outcome (σ × Bytes 256)) (w : σ) (buff : CmdBuff) :
    List (List UInt8) → Outcome (σ × CmdBuff × List Int)
  | [] => .ok (w,buff,[])
  | piece :: pieces => do
    let (w,buff,code) ← feed parse w buff piece
    let (w,buff,codes) ← feedAll parse w buff pieces
    return (w,buff,code :: codes)

def parseGlobals (g : Globals) (p : Bytes 256) (len : Nat) : Outcome (Globals × Bytes 256) := do
  let g ← cmdParse { g with cmdBuff := p, cmdLen := len } len
  return (g,g.cmdBuff)

/-- `cmd_feed` of the firmware is the one over `cmd_parse` of the firmware. -/
theorem cmdFeed_feed (w : Globals) (buff : CmdBuff) (bytes : List UInt8) :
    cmdFeed { w with cmdBuff := buff.p, cmdLen := buff.len } bytes = do
      let (w,buff,code) ← feed parseGlobals w buff bytes
      return ({ w with cmdBuff := buff.p, cmdLen := buff.len },code) := by
  induction bytes generalizing w buff with
  | nil => rfl
  | cons b bytes ih =>
    rw [cmdFeed, feed]
    split
    next =>
      simp only [parseGlobals, bind_assoc, pure_bind]
      apply bind_congr
      intro g
      exact ih g ⟨g.cmdBuff,0⟩
    next =>
      split
      next => exact ih w ⟨memcpyAt buff.p buff.len [b],buff.len + 1⟩
      next => rfl

/-- A call of `cmd_parse`: its length, and that many bytes of the buffer. -/
structure Call where
  len : Nat
  bytes : List UInt8

def logged {σ : Type} (parse : σ → Bytes 256 → Nat → σ × Bytes 256) (s : List Call × σ) (p : Bytes 256) (len : Nat) :
    Outcome ((List Call × σ) × Bytes 256) :=
  .ok ((s.1 ++ [⟨len,p.toList.take len⟩],(parse s.2 p len).1),(parse s.2 p len).2)

def terminator (b : UInt8) : Bool := b = 13 ∨ b = 10

/-- The calls a stream gives rise to. -/
def callsOf (lines : List (List UInt8)) : List Call := lines.map fun line => ⟨line.length,line⟩

def CmdBuff.Holds (buff : CmdBuff) (bytes : List UInt8) : Prop :=
  buff.len = bytes.length ∧ buff.p.toList.take buff.len = bytes

theorem memcpyAt_holds {p : Bytes 256} {bytes : List UInt8} (b : UInt8) (room : bytes.length < 256)
    (holds : CmdBuff.Holds ⟨p,bytes.length⟩ bytes) :
    CmdBuff.Holds ⟨memcpyAt p bytes.length [b],bytes.length + 1⟩ (bytes ++ [b]) := by
  refine ⟨by simp,?_⟩
  have before : p.toList.take bytes.length = bytes := holds.2
  change ((p.toList.take bytes.length ++ [b] ++ p.toList.drop (bytes.length + 1)).take 256).take (bytes.length + 1) = _
  rw [before, List.take_take, Nat.min_eq_left room]
  have size : (bytes ++ [b]).length = bytes.length + 1 := by simp
  exact List.take_left' size

section
variable {σ : Type} (parse : σ → Bytes 256 → Nat → σ × Bytes 256)

private theorem feed_piece (bytes : List UInt8) (calls : List Call) (w : σ) (buff : CmdBuff) (s : Frames UInt8)
    (called : calls = callsOf s.complete) (holds : buff.Holds s.tail)
    (short : ∀ run ∈ (s.feeds terminator bytes).runs, run.length ≤ 256) :
    ∃ w' buff', feed (logged parse) (calls,w) buff bytes =
        .ok ((callsOf (s.feeds terminator bytes).complete,w'),buff',0) ∧
      buff'.Holds (s.feeds terminator bytes).tail := by
  induction bytes generalizing calls w buff s with
  | nil =>
    subst called
    exact ⟨w,buff,rfl,holds⟩
  | cons b bytes ih =>
    have now : ∀ run ∈ (s.feed terminator b).runs, run.length ≤ 256 := feeds_bounded terminator _ bytes short
    obtain ⟨p,len⟩ := buff
    obtain ⟨size,bytesHeld⟩ := holds
    dsimp only at size bytesHeld
    subst size called
    rw [feed]
    split
    next ends =>
      have stops : terminator b = true := decide_eq_true ends
      have call : callsOf s.complete ++ [⟨s.tail.length,p.toList.take s.tail.length⟩] =
          callsOf (s.feed terminator b).complete := by
        rw [Frames.feed, if_pos stops, bytesHeld, callsOf, callsOf, List.map_append]
        rfl
      have fresh : (s.feed terminator b).tail = [] := by rw [Frames.feed, if_pos stops]
      refine ih _ _ _ (s.feed terminator b) call ?_ short
      rw [fresh]
      exact ⟨rfl,rfl⟩
    next goes =>
      have plain : ¬ terminator b = true := fun stops => goes (of_decide_eq_true stops)
      have grown : s.feed terminator b = ⟨s.complete,s.tail ++ [b]⟩ := if_neg plain
      have room : s.tail.length < 256 := by
        have bound := now (s.tail ++ [b]) (by rw [grown]; exact List.mem_append_right _ List.mem_cons_self)
        rw [List.length_append] at bound
        exact bound
      rw [if_pos room]
      refine ih _ _ _ (s.feed terminator b) (by rw [grown]) ?_ short
      rw [grown]
      exact memcpyAt_holds b room ⟨rfl,bytesHeld⟩

private theorem feed_pieces (pieces : List (List UInt8)) (calls : List Call) (w : σ) (buff : CmdBuff) (s : Frames UInt8)
    (called : calls = callsOf s.complete) (holds : buff.Holds s.tail)
    (short : ∀ run ∈ (s.feeds terminator pieces.flatten).runs, run.length ≤ 256) :
    ∃ w' buff', feedAll (logged parse) (calls,w) buff pieces =
        .ok ((callsOf (s.feeds terminator pieces.flatten).complete,w'),buff',pieces.map fun _ => 0) ∧
      buff'.Holds (s.feeds terminator pieces.flatten).tail := by
  induction pieces generalizing calls w buff s with
  | nil =>
    subst called
    exact ⟨w,buff,rfl,holds⟩
  | cons piece pieces ih =>
    rw [List.flatten_cons, feeds_append] at short ⊢
    obtain ⟨w',buff',fed,held⟩ := feed_piece parse piece calls w buff s called holds
      (feeds_bounded terminator _ pieces.flatten short)
    obtain ⟨w'',buff'',rest,end_holds⟩ := ih _ w' buff' (s.feeds terminator piece) rfl held short
    refine ⟨w'',buff'',?_,end_holds⟩
    rw [feedAll, fed]
    change (do
      let (w,buff,codes) ← feedAll (logged parse) (callsOf (s.feeds terminator piece).complete,w') buff' pieces
      return (w,buff,(0 : Int) :: codes)) = _
    rw [rest]
    rfl

/-- However a stream is cut into calls of `cmd_feed`, every terminator makes one call of
`cmd_parse` with the line before it, and the tail stays in the buffer. -/
theorem feed_framing (w : σ) (p : Bytes 256) (pieces : List (List UInt8))
    (short : ∀ run ∈ pieces.flatten.splitOnP terminator, run.length ≤ 256) :
    ∃ w' buff, feedAll (logged parse) ([],w) ⟨p,0⟩ pieces =
        .ok ((callsOf (frames terminator pieces.flatten).complete,w'),buff,pieces.map fun _ => 0) ∧
      buff.Holds (frames terminator pieces.flatten).tail := by
  rw [← frames_runs] at short
  exact feed_pieces parse pieces [] w ⟨p,0⟩ ⟨[],[]⟩ rfl ⟨rfl,rfl⟩ short

end

theorem feed_framing_split : ∃ w' buff, feedAll (logged fun (w : Unit) p _ => (w,p)) ([],()) ⟨zeros 256,0⟩ [[97],[],[98,13,99]] =
      .ok ((callsOf (frames terminator [97,98,13,99]).complete,w'),buff,[0,0,0]) ∧
    buff.Holds (frames terminator [97,98,13,99]).tail :=
  feed_framing _ () (zeros 256) [[97],[],[98,13,99]] (by decide)

end PulseFirmware
