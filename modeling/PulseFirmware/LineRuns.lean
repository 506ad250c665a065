import PulseFirmware.Commands
import PulseFirmware.LineFraming

/-! Writes of the application against lines. However the lines are cut into writes, `cmd_feed` runs
one after the other and keeps what stands behind the last terminator. -/
namespace PulseFirmware
open PulseFirmware.CString PulseFirmware.Framing

private theorem memcpyAt_nil {n : Nat} (p : Bytes n) : memcpyAt p 0 [] = p := by
  apply List.Vector.toList_injective
  exact memcpy_toList p [] (Nat.zero_le n)

def CmdBuff.held (p : Bytes 256) (bytes : List UInt8) : CmdBuff := ⟨memcpyAt p 0 bytes,bytes.length⟩

private theorem held_nil (p : Bytes 256) : (⟨p,0⟩ : CmdBuff) = .held p [] := by
  rw [CmdBuff.held, memcpyAt_nil]
  rfl

section
variable {σ : Type} (parse : σ → Bytes 256 → Nat → Outcome (σ × Bytes 256))

/-- The calls of `cmd_parse` for complete lines, each copied over what the last one left. -/
def runCalls (s : σ × Bytes 256) : List (List UInt8) → Outcome (σ × Bytes 256)
  | [] => .ok s
  | line :: lines => parse s.1 (memcpyAt s.2 0 line) line.length >>= fun next => runCalls next lines

theorem runCalls_append (s : σ × Bytes 256) (lines later : List (List UInt8)) :
    runCalls parse s (lines ++ later) = runCalls parse s lines >>= fun next => runCalls parse next later := by
  induction lines generalizing s with
  | nil => rfl
  | cons line lines ih =>
    rw [List.cons_append, runCalls, runCalls, bind_assoc]
    exact bind_congr ih

private theorem feed_runs (s : σ × Bytes 256) (start bytes : List UInt8)
    (short : ∀ run ∈ (Frames.feeds terminator ⟨[],start⟩ bytes).runs, run.length ≤ 256) :
    feed parse s.1 (.held s.2 start) bytes =
      runCalls parse s (Frames.feeds terminator ⟨[],start⟩ bytes).complete >>= fun next =>
        .ok (next.1,.held next.2 (Frames.feeds terminator ⟨[],start⟩ bytes).tail,0) := by
  induction bytes generalizing s start with
  | nil => rfl
  | cons b bytes ih =>
    rw [CmdBuff.held, feed, feeds_cons]
    rw [feeds_cons] at short
    have now := feeds_bounded terminator _ bytes short
    split
    next ends =>
      have stopped : Frames.feed terminator ⟨[],start⟩ b = ⟨[start],[]⟩ := if_pos (decide_eq_true ends)
      rw [stopped, feeds_complete] at short ⊢
      rw [runCalls_append, runCalls, bind_assoc, bind_assoc]
      refine bind_congr fun next => ?_
      change feed parse next.1 ⟨next.2,0⟩ bytes = _
      rw [held_nil]
      exact ih next [] fun run member => short run (List.mem_cons_of_mem start member)
    next goes =>
      have grown : Frames.feed terminator ⟨[],start⟩ b = ⟨[],start ++ [b]⟩ :=
        if_neg fun stops => goes (of_decide_eq_true stops)
      rw [grown] at short now ⊢
      have room : start.length < 256 := by
        have bound := now (start ++ [b]) List.mem_cons_self
        rw [List.length_append] at bound
        exact bound
      have size : start.length + 1 = (start ++ [b]).length := by simp
      rw [if_pos room, memcpyAt_snoc s.2 start b room, size]
      exact ih s (start ++ [b]) short

private theorem feedAll_runs (s : σ × Bytes 256) (start : List UInt8) (pieces : List (List UInt8))
    (short : ∀ run ∈ (Frames.feeds terminator ⟨[],start⟩ pieces.flatten).runs, run.length ≤ 256) :
    feedAll parse s.1 (.held s.2 start) pieces =
      runCalls parse s (Frames.feeds terminator ⟨[],start⟩ pieces.flatten).complete >>= fun next =>
        .ok (next.1,.held next.2 (Frames.feeds terminator ⟨[],start⟩ pieces.flatten).tail,pieces.map fun _ => 0) := by
  induction pieces generalizing s start with
  | nil => rfl
  | cons piece pieces ih =>
    rw [List.flatten_cons, feeds_append] at short ⊢
    have first := feeds_bounded terminator _ pieces.flatten short
    rw [feeds_complete] at short ⊢
    rw [feedAll, feed_runs parse s start piece first, runCalls_append, bind_assoc, bind_assoc]
    refine bind_congr fun next => ?_
    change (feedAll parse next.1 (.held next.2 _) pieces >>= fun fed => .ok (fed.1,fed.2.1,0 :: fed.2.2)) = _
    rw [ih next _ fun run member => short run ?_, bind_assoc]
    · rfl
    · exact (List.mem_append.mp member).elim
        (fun inside => List.mem_append_left _ (List.mem_append_right _ inside)) (List.mem_append_right _)

end

/-- Successive calls of the firmware's `cmd_feed`, with their return values. -/
def cmdFeedAll (g : Globals) : List (List UInt8) → Outcome (Globals × List Int)
  | [] => .ok (g,[])
  | piece :: pieces => cmdFeed g piece >>= fun fed => cmdFeedAll fed.1 pieces >>= fun rest => .ok (rest.1,fed.2 :: rest.2)

private theorem cmdFeedAll_feedAll (w : Globals) (buff : CmdBuff) (pieces : List (List UInt8)) :
    cmdFeedAll { w with cmdBuff := buff.p, cmdLen := buff.len } pieces = feedAll parseGlobals w buff pieces >>= fun fed =>
      .ok ({ fed.1 with cmdBuff := fed.2.1.p, cmdLen := fed.2.1.len },fed.2.2) := by
  induction pieces generalizing w buff with
  | nil => rfl
  | cons piece pieces ih =>
    rw [cmdFeedAll, cmdFeed_feed, feedAll, bind_assoc, bind_assoc]
    refine bind_congr fun fed => ?_
    obtain ⟨next,later,code⟩ := fed
    change (cmdFeedAll { next with cmdBuff := later.p, cmdLen := later.len } pieces >>= fun rest => .ok (rest.1,code :: rest.2)) =
      (feedAll parseGlobals next later pieces >>= fun rest => .ok (rest.1,rest.2.1,code :: rest.2.2)) >>= _
    rw [ih, bind_assoc, bind_assoc]
    rfl

private theorem runCalls_lines (w : Globals) (p : Bytes 256) (lines : List Line) :
    (runCalls parseGlobals (w,p) (lines.map Line.bytes) >>= fun next => .ok { next.1 with cmdBuff := next.2, cmdLen := 0 }) =
      lines.foldlM Globals.runLine { w with cmdBuff := p, cmdLen := 0 } := by
  induction lines generalizing w p with
  | nil => rfl
  | cons line lines ih =>
    rw [List.map_cons, runCalls, List.foldlM_cons, Globals.runLine, parseGlobals]
    simp only [bind_assoc, pure_bind]
    refine bind_congr fun next => ?_
    exact ih next next.cmdBuff

/-- However lines and the start of a further one are cut into writes, `cmd_feed` runs the lines one
after the other, stops where one of them does, and otherwise returns 0 from every call, with the
start in the line buffer. -/
theorem writes_run (g : Globals) (empty : g.cmdLen = 0) (lines : List Line) (start : Line) (pieces : List (List UInt8))
    (stream : frames terminator pieces.flatten = ⟨lines.map Line.bytes,start.bytes⟩) :
    cmdFeedAll g pieces = lines.foldlM Globals.runLine g >>= fun g =>
      .ok ({ g with cmdBuff := memcpyAt g.cmdBuff 0 start.bytes, cmdLen := start.bytes.length },pieces.map fun _ => 0) := by
  have short : ∀ run ∈ (Frames.feeds terminator ⟨[],[]⟩ pieces.flatten).runs, run.length ≤ 256 := by
    change ∀ run ∈ (frames terminator pieces.flatten).runs, _
    rw [stream]
    intro run member
    rcases List.mem_append.mp member with complete | last
    · obtain ⟨line,_,rfl⟩ := List.mem_map.mp complete
      exact line.fits
    · exact List.mem_singleton.mp last ▸ start.fits
  have ran := feedAll_runs parseGlobals (g,g.cmdBuff) [] pieces short
  have cut : Frames.feeds terminator ⟨[],[]⟩ pieces.flatten = ⟨lines.map Line.bytes,start.bytes⟩ := stream
  have typed : g = { g with cmdBuff := (CmdBuff.held g.cmdBuff []).p, cmdLen := (CmdBuff.held g.cmdBuff []).len } := by
    rw [← held_nil, ← empty]
  have idle : { g with cmdBuff := g.cmdBuff, cmdLen := 0 } = g := by rw [← empty]
  calc cmdFeedAll g pieces
      = feedAll parseGlobals g (.held g.cmdBuff []) pieces >>= fun fed =>
          .ok ({ fed.1 with cmdBuff := fed.2.1.p, cmdLen := fed.2.1.len },fed.2.2) := by
        rw [← cmdFeedAll_feedAll, ← typed]
    _ = (runCalls parseGlobals (g,g.cmdBuff) (lines.map Line.bytes) >>= fun next =>
          .ok { next.1 with cmdBuff := next.2, cmdLen := 0 }) >>= fun g =>
          .ok ({ g with cmdBuff := memcpyAt g.cmdBuff 0 start.bytes, cmdLen := start.bytes.length },pieces.map fun _ => 0) := by
        rw [ran, cut, bind_assoc, bind_assoc]
        rfl
    _ = _ := by rw [runCalls_lines, idle]

theorem writes_run_token :
    cmdFeedAll (.initial (zeros 235)) [ascii "tok",ascii "en xyz" ++ [13],ascii "get"] =
      [Line.ofText "token xyz" (by decide) (by decide +kernel)].foldlM Globals.runLine (.initial (zeros 235)) >>= fun g =>
        .ok ({ g with cmdBuff := memcpyAt g.cmdBuff 0 (ascii "get"), cmdLen := 3 },[0,0,0]) :=
  writes_run (.initial (zeros 235)) rfl [.ofText "token xyz" (by decide) (by decide +kernel)]
    (.ofText "get" (by decide) (by decide +kernel)) [ascii "tok",ascii "en xyz" ++ [13],ascii "get"] (by decide +kernel)

end PulseFirmware
