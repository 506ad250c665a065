import PulseFirmware.Writes

/-! Lines longer than the line buffer. What follows an overflow in its write is not looked at,
terminators included, and what the next write brings begins a line of its own. -/
namespace PulseFirmware
open PulseFirmware.CString PulseFirmware.Framing PulseFirmware.Run

def fits (line : List UInt8) : Bool := line.length ≤ 256

def shortLines (stream : List UInt8) : List (List UInt8) := (frames terminator stream).complete.filter fits

/-- Counts over a stream that arrives in writes: the bytes of the line so far, those of them that
came since the last empty buffer, and whether the rest of the write is to go by. -/
structure Arrival where
  line : Nat
  held : Nat
  dropping : Bool

def Arrival.next (a : Arrival) : Option UInt8 → Arrival
  | none => { a with dropping := false }
  | some b =>
    if a.dropping then { a with line := if terminator b then 0 else a.line + 1 }
    else if terminator b then ⟨0,0,false⟩
    else if a.held < 256 then ⟨a.line + 1,a.held + 1,false⟩
    else ⟨a.line + 1,0,true⟩

/-- A terminator that is read finds its whole line, and one that goes by ends a line that is too long. -/
def Arrival.Harmless (a : Arrival) : Option UInt8 → Prop
  | none => True
  | some b => terminator b = true → if a.dropping then 256 < a.line else a.held = a.line

instance (a : Arrival) (e : Option UInt8) : Decidable (a.Harmless e) := by
  cases e with
  | none => exact isTrue trivial
  | some b => exact inferInstanceAs (Decidable (_ → _))

def Unharmed (pieces : List (List UInt8)) : Prop :=
  Meets (fun a e => some (Arrival.next a e)) Arrival.Harmless ⟨0,0,false⟩ (arrivals pieces)

section
variable {σ : Type} (parse : σ → Bytes 256 → Nat → σ × Bytes 256)

def Executes (w : σ) (p : Bytes 256) (pieces : List (List UInt8)) : Prop :=
  ∃ w' buff codes, feedAll (logged parse) ([],w) ⟨p,0⟩ pieces =
    .ok ((callsOf (shortLines pieces.flatten),w'),buff,codes)

private structure Feeding (σ : Type) where
  reader : Reader (List Call × σ)
  seen : Frames UInt8

private def Feeding.step (s : Feeding σ) (e : Option UInt8) : Option (Feeding σ) :=
  (s.reader.arrive (logged parse) e).map fun reader => ⟨reader,s.seen.feeds terminator e.toList⟩

private def Feeding.view (s : Feeding σ) : Arrival := ⟨s.seen.tail.length,s.reader.buff.len,s.reader.dropping⟩

private def Feeding.Executed (s : Feeding σ) : Prop :=
  s.reader.w.1 = callsOf (s.seen.complete.filter fits)

/-- The buffer holds an end of the line; while bytes go by it is empty. -/
private def Feeding.Holds (s : Feeding σ) : Prop :=
  ∃ held, s.reader.buff.Holds held ∧ held.length ≤ 256 ∧
    if s.reader.dropping then held = [] else held <:+ s.seen.tail

variable {parse}

private theorem feeding_cases {s next : Feeding σ} {e : Option UInt8} (stepped : s.step parse e = some next) :
    (e = none ∧ next = ⟨{ s.reader with dropping := false },s.seen⟩) ∨
    ∃ b, e = some b ∧ next.seen = s.seen.feed terminator b ∧
      ((s.reader.dropping = true ∧ next.reader = s.reader) ∨
      (s.reader.dropping = false ∧ terminator b = true ∧
        ∃ w p, next.reader = ⟨(s.reader.w.1 ++ [⟨s.reader.buff.len,s.reader.buff.p.toList.take s.reader.buff.len⟩],w),⟨p,0⟩,false⟩) ∨
      (s.reader.dropping = false ∧ terminator b = false ∧ s.reader.buff.len < 256 ∧
        next.reader = ⟨s.reader.w,⟨memcpyAt s.reader.buff.p s.reader.buff.len [b],s.reader.buff.len + 1⟩,false⟩) ∨
      (s.reader.dropping = false ∧ terminator b = false ∧ 256 ≤ s.reader.buff.len ∧
        next.reader = ⟨s.reader.w,⟨s.reader.buff.p,0⟩,true⟩)) := by
  obtain ⟨reader,arrived,rfl⟩ := Option.map_eq_some_iff.mp stepped
  cases e with
  | none =>
    cases arrived
    exact .inl ⟨rfl,rfl⟩
  | some b =>
    refine .inr ⟨b,rfl,rfl,?_⟩
    rw [Reader.arrive, Reader.read] at arrived
    split at arrived
    next dropped =>
      cases arrived
      exact .inl ⟨dropped,rfl⟩
    next reads =>
      have reading : s.reader.dropping = false := by simpa using reads
      split at arrived
      next ends =>
        cases arrived
        exact .inr (.inl ⟨reading,decide_eq_true ends,_,_,rfl⟩)
      next goes =>
        have plain : terminator b = false := decide_eq_false goes
        split at arrived
        next room =>
          cases arrived
          exact .inr (.inr (.inl ⟨reading,plain,room,rfl⟩))
        next full =>
          cases arrived
          exact .inr (.inr (.inr ⟨reading,plain,Nat.not_lt.mp full,rfl⟩))

private theorem feeding_possible (s : Feeding σ) (e : Option UInt8) : (s.step parse e).isSome := by
  rw [Feeding.step, Option.isSome_map]
  cases e with
  | none => rfl
  | some b =>
    rw [Reader.arrive, Reader.read]
    split
    next => rfl
    next =>
      split
      next => rfl
      next => split <;> rfl

private theorem fed_tail (s : Frames UInt8) (b : UInt8) :
    (s.feed terminator b).tail = if terminator b then [] else s.tail ++ [b] := by
  rw [Frames.feed]
  split <;> rfl

private theorem view_step {s next : Feeding σ} {e : Option UInt8} (stepped : s.step parse e = some next) :
    next.view = s.view.next e := by
  obtain ⟨reader,seen⟩ := next
  rcases feeding_cases stepped with ⟨rfl,same⟩ | ⟨b,rfl,fed,moved⟩
  · rw [same]
    rfl
  · dsimp only at fed moved
    subst fed
    rw [Feeding.view, Arrival.next, fed_tail]
    rcases moved with ⟨dropped,rfl⟩ | ⟨reading,ends,w,p,rfl⟩ | ⟨reading,goes,room,rfl⟩ | ⟨reading,goes,full,rfl⟩
    · rw [if_pos (show s.view.dropping = true from dropped)]
      split <;> simp [Feeding.view]
    · simp [Feeding.view,reading,ends]
    · simp [Feeding.view,reading,goes,room]
    · simp [Feeding.view,reading,goes,Nat.not_lt.mpr full]

private theorem holds_step {s next : Feeding σ} {e : Option UInt8} (holds : s.Holds)
    (stepped : s.step parse e = some next) : next.Holds := by
  obtain ⟨held,inBuffer,short,part⟩ := holds
  obtain ⟨reader,seen⟩ := next
  rcases feeding_cases stepped with ⟨rfl,same⟩ | ⟨b,rfl,fed,moved⟩
  · rw [same]
    refine ⟨held,inBuffer,short,?_⟩
    split at part
    next => exact part ▸ List.nil_suffix
    next => exact part
  · dsimp only at fed moved
    subst fed
    rcases moved with ⟨dropped,rfl⟩ | ⟨reading,ends,w,p,rfl⟩ | ⟨reading,goes,room,rfl⟩ | ⟨reading,goes,full,rfl⟩
    · rw [if_pos dropped] at part
      exact ⟨held,inBuffer,short,(if_pos dropped).symm ▸ part⟩
    · exact ⟨[],⟨rfl,rfl⟩,Nat.zero_le 256,List.nil_suffix⟩
    · rw [reading] at part
      have size : s.reader.buff.len = held.length := inBuffer.1
      refine ⟨held ++ [b],?_,?_,?_⟩
      · have room : held.length < 256 := size ▸ room
        have before : CmdBuff.Holds ⟨s.reader.buff.p,held.length⟩ held := ⟨rfl,size ▸ inBuffer.2⟩
        rw [size]
        exact memcpyAt_holds b room before
      · rw [List.length_append]
        exact size ▸ room
      · change held ++ [b] <:+ (s.seen.feed terminator b).tail
        rw [fed_tail, goes]
        exact (List.suffix_append_inj_of_length_eq rfl).mpr ⟨part,rfl⟩
    · exact ⟨[],⟨rfl,rfl⟩,Nat.zero_le 256,rfl⟩

private theorem callsOf_injective {lines lines' : List (List UInt8)} (same : callsOf lines = callsOf lines') :
    lines = lines' :=
  List.map_injective_iff.mpr (fun _ _ called => congrArg Call.bytes called) same

private theorem fed_complete (s : Frames UInt8) (b : UInt8) :
    (s.feed terminator b).complete = if terminator b then s.complete ++ [s.tail] else s.complete := by
  rw [Frames.feed]
  split <;> rfl

private theorem passed_iff (complete : List (List UInt8)) (line : List UInt8) :
    callsOf (complete.filter fits) = callsOf ((complete ++ [line]).filter fits) ↔ 256 < line.length := by
  rw [List.filter_append]
  constructor
  · intro same
    have none_left := List.self_eq_append_right.mp (callsOf_injective same)
    have long : ¬ fits line = true := List.filter_eq_nil_iff.mp none_left line List.mem_cons_self
    exact Nat.not_le.mp fun short => long (decide_eq_true short)
  · intro long
    have tooLong : ¬ fits line = true := fun short => Nat.not_le.mpr long (of_decide_eq_true short)
    rw [List.filter_cons_of_neg tooLong, List.filter_nil, List.append_nil]

private theorem called_iff (complete : List (List UInt8)) {held line : List UInt8} (part : held <:+ line)
    (short : held.length ≤ 256) :
    callsOf (complete.filter fits) ++ callsOf [held] = callsOf ((complete ++ [line]).filter fits) ↔
      held.length = line.length := by
  have joined : callsOf (complete.filter fits) ++ callsOf [held] = callsOf (complete.filter fits ++ [held]) :=
    List.map_append.symm
  rw [joined, List.filter_append]
  constructor
  · intro same
    have last := List.append_cancel_left (callsOf_injective same)
    have member : held ∈ [line].filter fits := last ▸ List.mem_cons_self
    rw [List.mem_singleton.mp (List.mem_of_mem_filter member)]
  · intro whole
    have same := part.eq_of_length whole
    subst same
    have kept : fits held = true := decide_eq_true short
    rw [List.filter_cons_of_pos kept, List.filter_nil]

private theorem executed_step {s next : Feeding σ} {e : Option UInt8} (holds : s.Holds) (executed : s.Executed)
    (stepped : s.step parse e = some next) : next.Executed ↔ s.view.Harmless e := by
  obtain ⟨held,inBuffer,short,part⟩ := holds
  obtain ⟨reader,seen⟩ := next
  rcases feeding_cases stepped with ⟨rfl,same⟩ | ⟨b,rfl,fed,moved⟩
  · rw [same]
    exact iff_of_true executed trivial
  · dsimp only at fed moved
    subst fed
    rw [Feeding.Executed, fed_complete]
    rcases moved with ⟨dropped,rfl⟩ | ⟨reading,ends,w,p,rfl⟩ | ⟨reading,goes,room,rfl⟩ | ⟨reading,goes,full,rfl⟩
    · rw [executed]
      cases ends : terminator b with
      | false => exact iff_of_true rfl fun stops => Bool.noConfusion (ends.symm.trans stops)
      | true =>
        rw [if_pos rfl, passed_iff]
        have gone : s.view.Harmless (some b) ↔ 256 < s.seen.tail.length := by
          rw [Arrival.Harmless, if_pos (show s.view.dropping = true from dropped)]
          exact ⟨fun harmless => harmless ends,fun long _ => long⟩
        exact gone.symm
    · have whole : s.view.Harmless (some b) ↔ s.reader.buff.len = s.seen.tail.length := by
        rw [Arrival.Harmless, if_neg (show ¬ s.view.dropping = true by simp [Feeding.view,reading])]
        exact ⟨fun harmless => harmless ends,fun all _ => all⟩
      have call : callsOf [held] = [⟨s.reader.buff.len,s.reader.buff.p.toList.take s.reader.buff.len⟩] := by
        rw [inBuffer.2, inBuffer.1]
        rfl
      rw [reading] at part
      rw [ends, if_pos rfl, whole, ← call, executed, called_iff s.seen.complete part short, inBuffer.1]
    · rw [goes]
      exact iff_of_true executed fun stops => Bool.noConfusion (goes.symm.trans stops)
    · rw [goes]
      exact iff_of_true executed fun stops => Bool.noConfusion (goes.symm.trans stops)

private theorem run_seen {s t : Feeding σ} {es : List (Option UInt8)} (reached : run (Feeding.step parse) s es = some t) :
    run (Reader.arrive (logged parse)) s.reader es = some t.reader ∧ t.seen = s.seen.feeds terminator es.reduceOption := by
  induction es generalizing s with
  | nil =>
    cases reached
    exact ⟨rfl,rfl⟩
  | cons e es ih =>
    obtain ⟨next,stepped,rest⟩ := (run_cons_eq s t e es).mp reached
    obtain ⟨reader,arrived,rfl⟩ := Option.map_eq_some_iff.mp stepped
    obtain ⟨read,seen⟩ := ih rest
    refine ⟨(run_cons_eq ..).mpr ⟨reader,arrived,read⟩,?_⟩
    rw [seen]
    cases e <;> rfl

private theorem feeding_runs (s : Feeding σ) (es : List (Option UInt8)) : ∃ t, run (Feeding.step parse) s es = some t := by
  induction es generalizing s with
  | nil => exact ⟨s,rfl⟩
  | cons e es ih =>
    obtain ⟨next,stepped⟩ := Option.isSome_iff_exists.mp (feeding_possible s e : (s.step parse e).isSome)
    obtain ⟨t,rest⟩ := ih next
    exact ⟨t,(run_cons_eq ..).mpr ⟨next,stepped,rest⟩⟩

private def Feeding.start (w : σ) (p : Bytes 256) : Feeding σ := ⟨⟨([],w),⟨p,0⟩,false⟩,⟨[],[]⟩⟩

private theorem executes_iff (w : σ) (p : Bytes 256) (pieces : List (List UInt8)) :
    Executes parse w p pieces ↔
      ∀ t, run (Feeding.step parse) (Feeding.start w p) (arrivals pieces) = some t → t.Executed := by
  have runs : ∃ t, run (Feeding.step parse) (Feeding.start w p) (arrivals pieces) = some t := feeding_runs _ _
  obtain ⟨t,reached⟩ := runs
  obtain ⟨read,seen⟩ := run_seen reached
  rw [arrivals_bytes] at seen
  have lines : t.seen.complete.filter fits = shortLines pieces.flatten := by
    rw [seen]
    rfl
  have fed := run_arrivals (logged parse) (Feeding.start w p).reader pieces
  rw [read] at fed
  obtain ⟨⟨w',buff',codes⟩,done,same⟩ := Option.map_eq_some_iff.mp fed.symm
  obtain ⟨same_w,same_buff⟩ := Prod.mk.inj same
  have answered : feedAll (logged parse) ([],w) ⟨p,0⟩ pieces = .ok (w',buff',codes) := toOption_ok done
  constructor
  · rintro ⟨w'',buff,others,executed⟩ t' again
    cases (reached.symm.trans again)
    rw [answered] at executed
    cases executed
    rw [Feeding.Executed, ← same_w, lines]
  · intro executed
    have calls := executed t reached
    rw [Feeding.Executed, ← same_w, lines] at calls
    refine ⟨w'.2,buff',codes,?_⟩
    rw [answered, ← calls]

/-- A line too long for the buffer is dropped whole, and the others are executed, exactly when no
terminator is read with bytes of its line missing or goes by behind a line that would fit. -/
theorem overlong_dropped (w : σ) (p : Bytes 256) (pieces : List (List UInt8)) :
    (∀ seen, arrivals seen <+: arrivals pieces → Executes parse w p seen) ↔ Unharmed pieces := by
  have executed : (∀ seen, arrivals seen <+: arrivals pieces → Executes parse w p seen) ↔
      Always (Feeding.step parse) Feeding.Executed (Feeding.start w p) (arrivals pieces) := by
    rw [always_beginnings]
    constructor
    · intro all begun cut
      obtain ⟨seen,rfl⟩ := arrivals_cut cut
      exact (executes_iff w p seen).mp (all seen cut)
    · exact fun all seen cut => (executes_iff w p seen).mpr (all (arrivals seen) cut)
  have empty : (Feeding.start w p).Holds := ⟨[],⟨rfl,rfl⟩,Nat.zero_le 256,List.nil_suffix⟩
  have harmless : Always (Feeding.step parse) Feeding.Executed (Feeding.start w p) (arrivals pieces) ↔
      Meets (Feeding.step parse) (fun s e => s.view.Harmless e) (Feeding.start w p) (arrivals pieces) :=
    always_iff_meets (fun s e next holds stepped => holds_step holds stepped)
      (fun s e next holds done stepped => executed_step holds done stepped) empty rfl
  rw [executed, harmless]
  exact meets_view (fun s e next stepped => view_step stepped) feeding_possible (Feeding.start w p) (arrivals pieces)

end

/-- The tail of a line of 273 bytes is executed when it comes in a write of its own. -/
theorem tail_executed : ¬ ∀ seen, arrivals seen <+: arrivals [List.replicate 257 97,ascii "activate dfutarg\n"] →
    Executes (fun (w : Unit) p _ => (w,p)) () (zeros 256) seen := by
  intro all
  obtain ⟨w,buff,codes,fed⟩ := all _ List.prefix_rfl
  have called : (feedAll (logged fun (w : Unit) p _ => (w,p)) ([],()) ⟨zeros 256,0⟩
      [List.replicate 257 97,ascii "activate dfutarg\n"]).toOption.map (fun r => r.1.1.map Call.bytes) =
        some [ascii "activate dfutarg"] := by decide +kernel
  have lines : shortLines [List.replicate 257 97,ascii "activate dfutarg\n"].flatten = [] := by decide +kernel
  rw [fed, lines] at called
  cases called

end PulseFirmware
