import PulseFirmware.PbufOwnership

/-! The packets of the WINC as the stack gets them: each chain given to `winc_netif.input` is the
next packet of which `pbuf_alloc` let no chunk be dropped. -/
namespace PulseFirmware.Reception
open PulseFirmware.Run

def content (chain : List Segment) : List UInt8 := (chain.flatMap Segment.bytes).drop ethPadSize

structure World.Intact (w : World) : Prop where
  memory : w.fault = false
  whole : w.drivers.passed.map content = w.kept
  totals : ∀ chain ∈ w.drivers.passed, Totals 0 chain

/-- Nothing is copied from `rx_buf` while `eth_buffer` is the receive buffer, and the last chunk of
a packet that lost one is dropped too. -/
def World.Whole (w : World) : Event → Prop
  | .chunk size answers =>
    (w.drivers.gau8ethRcvBuf = .ethBuffer → answers.first = none) ∧
      (w.hit = true → w.rest.map List.length = some size → w.drivers.rxFirst = none ∧ answers.first = none)
  | .packet _ | .poll _ => True

instance Totals.decidable : ∀ rest segments, Decidable (Totals rest segments)
  | _, [] => isTrue trivial
  | rest, segment :: later =>
    have : Decidable (Totals rest later) := Totals.decidable rest later
    inferInstanceAs (Decidable (segment.totLen = segment.bytes.length + (later.map fun s => s.bytes.length).sum + rest ∧
      Totals rest later))

instance : DecidablePred World.Intact := fun w =>
  decidable_of_iff (w.fault = false ∧ w.drivers.passed.map content = w.kept ∧ ∀ chain ∈ w.drivers.passed, Totals 0 chain)
    ⟨fun ⟨memory,whole,totals⟩ => ⟨memory,whole,totals⟩,fun i => ⟨i.memory,i.whole,i.totals⟩⟩

instance (w : World) : DecidablePred w.Whole
  | .chunk size answers => inferInstanceAs (Decidable ((w.drivers.gau8ethRcvBuf = .ethBuffer → answers.first = none) ∧
      (w.hit = true → w.rest.map List.length = some size → w.drivers.rxFirst = none ∧ answers.first = none)))
  | .packet _ | .poll _ => isTrue trivial

section
variable {s : Drivers} {ids done : List Nat} {last : Nat} {b : Pbuf}

theorem content_append (xs ys : List Segment) : content (xs ++ ys) = content xs ++ content ys := by
  simp [content, ethPadSize]

theorem content_single (segment : Segment) : content [segment] = segment.bytes := by
  simp [content, ethPadSize]

theorem filled_bytes {data : List UInt8} (bytes : (List.range data.length).map (fun i => b.payload (offset done + i)) = data)
    (rem : Nat) (small : data.length < 2^16) : (filled b done data.length rem).bytes = data := by
  have start : offset done = 0 := by
    unfold offset
    split <;> rfl
  have len : (filled b done data.length rem).len = data.length := by
    change (if done = [] then (data.length + ethPadSize) % 2^16 else data.length) = data.length
    split
    · exact Nat.mod_eq_of_lt small
    · rfl
  simp only [start, Nat.zero_add] at bytes
  rw [Pbuf.bytes, len]
  exact bytes

theorem filled_total {size rem : Nat} (small : size + rem < 2^16) (total : done ≠ [] → b.totLen = size + rem) :
    (filled b done size rem).totLen = size + rem := by
  change (if done = [] then ((if done = [] then (size + ethPadSize) % 2^16 else size) + rem) % 2^16 else b.totLen) = size + rem
  by_cases first : done = []
  · rw [if_pos first, if_pos first, Nat.mod_eq_of_lt (show size + ethPadSize < 2^16 from Nat.lt_of_le_of_lt (Nat.le_add_right _ _) small)]
    exact Nat.mod_eq_of_lt small
  · rw [if_neg first]
    exact total first

theorem Drivers.Loaded.segments_measured (loaded : s.Loaded done last b) (size rem : Nat) (answer : Option (Nat → UInt8)) :
    segments (s.measured done last b size rem answer).pbufs (done ++ [last]) =
      segments s.pbufs done ++ [⟨(filled b done size rem).bytes,(filled b done size rem).totLen⟩] := by
  rw [segments_append, segments_single (loaded.measure size rem answer).cell]
  refine congrArg (· ++ _) (segments_congr fun p inside => ?_)
  have distinct := loaded.held.distinct
  rw [List.nodup_append] at distinct
  have apart := distinct.2.2 p inside last (List.mem_singleton_self last)
  have below := (loaded.held.live p (List.mem_append_left _ inside)).1
  refine (Pbufs.set_other apart _).trans ?_
  cases answer with
  | none => rfl
  | some payload => exact Pbufs.alloc_other payload below

/-- The chain has the first bytes of a packet, and `rest` are still to come. -/
def Drivers.Collected (s : Drivers) (ids : List Nat) (got : List UInt8) (rest : Nat) : Prop :=
  (got = [] ∧ ids.length ≤ 1) ∨
    ∃ done last c, ids = done ++ [last] ∧ done ≠ [] ∧ content (segments s.pbufs done) = got ∧
      Totals rest (segments s.pbufs done) ∧ s.pbufs.cells last = some c ∧ c.totLen = rest

theorem Drivers.Ready.collect (ready : s.Ready ids) {got data : List UInt8} {rem : Nat}
    (collected : s.Collected ids got (data.length + rem)) (fits : data.length ≤ s.gu16ethRcvBufSize)
    (small : data.length + rem < 2^16) {answers : Answers} (goes : s.gau8ethRcvBuf = .ethBuffer → answers.first = none)
    (taken : s.rxFirst = none → answers.first ≠ none) :
    ∃ (t : Drivers) (done : List Nat) (last : Nat) (b : Pbuf), s.chunk data rem answers = t.chunkDone data.length rem answers ∧ t.Loaded done last b ∧
      t.passed = s.passed ∧
      content (segments (t.measured done last b data.length rem answers.p).pbufs (done ++ [last])) = got ++ data ∧
      Totals rem (segments (t.measured done last b data.length rem answers.p).pbufs (done ++ [last])) := by
  have short : data.length < 2^16 := Nat.lt_of_le_of_lt (Nat.le_add_right _ _) small
  -- the first buffer of the chain holds the chunk
  have first {t : Drivers} {last : Nat} {b : Pbuf} (loaded : t.Loaded [] last b)
      (bytes : (List.range data.length).map (fun i => b.payload (offset [] + i)) = data) (none : got = []) :
      content (segments (t.measured [] last b data.length rem answers.p).pbufs ([] ++ [last])) = got ++ data ∧
      Totals rem (segments (t.measured [] last b data.length rem answers.p).pbufs ([] ++ [last])) := by
    rw [loaded.segments_measured, filled_bytes bytes rem short, filled_total small (fun more => absurd rfl more), none]
    exact ⟨content_single _,by simp [segments, Totals]⟩
  rcases collected with ⟨none,single⟩ | ⟨done,last,c,rfl,more,content_eq,totals,cell,total⟩
  · rcases ids with _ | ⟨last,_ | _⟩
    · obtain ⟨payload,found⟩ := Option.ne_none_iff_exists'.mp (taken ready.rxFirst_eq)
      have elsewhere (here : s.gau8ethRcvBuf = .ethBuffer) : False := by
        rw [goes here] at found
        contradiction
      have room : data.length ≤ wincRxBufSz := by
        rcases ready.posted.of_empty with ⟨-,size⟩ | ⟨here,-⟩
        · exact size ▸ fits
        · exact absurd here elsewhere
      obtain ⟨t,b,begun,loaded,bytes,passed,-⟩ := ready.begins fits rem answers found room
      exact ⟨t,[],_,b,begun,loaded,passed,first loaded (bytes elsewhere) none⟩
    · obtain ⟨t,b,c,begun,loaded,bytes,passed,-⟩ := @Drivers.Ready.continues s [] last ready data fits rem answers
      exact ⟨t,[],last,b,begun,loaded,passed,first loaded bytes none⟩
    · simp at single
  · obtain ⟨t,b,c',begun,loaded,bytes,passed,-,same,here,kept⟩ := ready.continues fits rem answers
    cases cell.symm.trans here
    refine ⟨t,done,last,b,begun,loaded,passed,?_⟩
    rw [loaded.segments_measured, filled_bytes bytes rem short, filled_total small (fun _ => kept.trans total),
      segments_congr same]
    refine ⟨?_,Totals.snoc totals rfl⟩
    rw [content_append, content_single, content_eq]

/-- What holds while no condition was broken. -/
structure World.Fetched (w : World) (ids : List Nat) : Prop where
  chained : w.Chained ids
  intact : w.Intact
  collected : ∀ rest, w.rest = some rest → w.hit = false → ∃ got, w.frame = got ++ rest ∧ w.drivers.Collected ids got rest.length

theorem World.Whole.owned {w next : World} (chained : w.Chained ids) {size : Nat} {answers : Answers}
    (met : w.Whole (.chunk size answers)) (stepped : w.step (.chunk size answers) = some next) : w.Owned (.chunk size answers) := by
  intro empty taken
  obtain ⟨-,-,-,fits,-⟩ := chunk_cases stepped
  have start := chained.ready.rxFirst_eq
  rw [empty] at start
  have posted := chained.ready.posted
  rw [List.head?_eq_none_iff.mp start.symm] at posted
  rcases posted.of_empty with ⟨-,room⟩ | ⟨here,-⟩
  · rw [room] at fits
    exact fits
  · rw [met.1 here] at taken
    contradiction

private theorem refused_passed (ready : s.Ready ids) {data : List UInt8} (fits : data.length ≤ s.gu16ethRcvBufSize) {rem : Nat}
    {answers : Answers} {t : Drivers} (done : s.chunk data rem answers = some t)
    (refused : s.rxFirst = none ∧ answers.first = none) : t.passed = s.passed := by
  have start := ready.rxFirst_eq
  rw [refused.1] at start
  cases List.head?_eq_none_iff.mp start.symm
  obtain ⟨t',done',-,passed,-⟩ := ready.refused fits rem answers refused.2
  cases done.symm.trans done'
  exact passed

private theorem drops_last {answers : Answers} (dropped : s.drops 0 answers = true) : s.rxFirst = none ∧ answers.first = none := by
  simpa [Drivers.drops] using dropped

private theorem drops_not {rem : Nat} {answers : Answers} (kept : s.drops rem answers = false) :
    (s.rxFirst = none → answers.first ≠ none) ∧ (rem ≠ 0 → ∃ payload, answers.p = some payload) := by
  simp only [Drivers.drops, Bool.or_eq_false_iff, Bool.and_eq_false_iff, bne_eq_false_iff_eq, Option.isNone_eq_false_iff,
    Option.isSome_iff_exists] at kept
  refine ⟨fun empty refused => ?_,fun more => kept.2.resolve_left more⟩
  rcases kept.1 with ⟨p,found⟩ | ⟨payload,found⟩
  · rw [empty] at found
    contradiction
  · rw [refused] at found
    contradiction

/-- A chunk is behind those collected, and the packet goes to the stack with the last one. -/
theorem Drivers.Ready.deliver (ready : s.Ready ids) {got data : List UInt8} {rem : Nat}
    (collected : s.Collected ids got (data.length + rem)) (fits : data.length ≤ s.gu16ethRcvBufSize)
    (small : data.length + rem < 2^16) {answers : Answers} (goes : s.gau8ethRcvBuf = .ethBuffer → answers.first = none)
    (taken : s.drops rem answers = false) {t : Drivers} (done : s.chunk data rem answers = some t) :
    (rem = 0 → ∃ chain, t.passed = s.passed ++ [chain] ∧ content chain = got ++ data ∧ Totals 0 chain) ∧
      (rem ≠ 0 → t.passed = s.passed ∧ t.Collected t.kept (got ++ data) rem) := by
  obtain ⟨first,next⟩ := drops_not taken
  obtain ⟨u,linked,last,b,begun,loaded,passed,bytes,totals⟩ := ready.collect collected fits small goes first
  rw [begun] at done
  constructor
  · rintro rfl
    obtain ⟨t',done',-,passed',-⟩ := loaded.complete data.length answers
    cases done.symm.trans done'
    exact ⟨_,by rw [passed', passed],bytes,totals⟩
  · intro more
    obtain ⟨payload,found⟩ := next more
    obtain ⟨t',done',ready',passed',-,segs,c,cell,total⟩ := loaded.extend data.length more answers found
    cases done.symm.trans done'
    refine ⟨passed'.trans passed,Or.inr ⟨linked ++ [last],_,c,ready'.kept_eq,by simp,?_,?_,cell,total⟩⟩
    · rw [segs]
      exact bytes
    · rw [segs]
      exact totals

theorem World.Fetched.chunk {w next : World} (fetched : w.Fetched ids) {size : Nat} {answers : Answers}
    (met : w.Whole (.chunk size answers)) (stepped : w.step (.chunk size answers) = some next) : ∃ ids', next.Fetched ids' := by
  obtain ⟨ids',_,_,_,later,memory,passed,-⟩ := fetched.chained.chunk (met.owned fetched.chained stepped) stepped
  obtain ⟨rest,fetching,enough,fits,-,⟨-,rfl⟩ | ⟨drivers,done,next_eq⟩⟩ := chunk_cases stepped
  · rw [fetched.intact.memory] at memory
    contradiction
  have length : (rest.take size).length = size := List.length_take_of_le enough
  rw [← length] at fits
  cases hit : w.hit || w.drivers.drops (rest.length - size) answers with
  | true =>
    rw [hit] at next_eq
    subst next_eq
    have same : drivers.passed = w.drivers.passed := by
      by_cases complete : rest.length - size = 0
      · rw [complete] at hit done
        refine refused_passed fetched.chained.ready fits done ?_
        rcases Bool.or_eq_true_iff.mp hit with before | dropped
        · have last : w.rest.map List.length = some size := by
            rw [fetching, Option.map_some]
            exact congrArg some (by omega)
          exact met.2 before last
        · exact drops_last dropped
      · exact passed (by simp [complete])
    have dropped : ¬ (rest.length - size = 0 ∧ true = false) := fun both => by simp at both
    refine ⟨ids',later,⟨fetched.intact.memory,?_,?_⟩,fun _ _ kept => by contradiction⟩
    · change drivers.passed.map content = if _ then _ else w.kept
      rw [same, if_neg dropped]
      exact fetched.intact.whole
    · change ∀ chain ∈ drivers.passed, _
      rw [same]
      exact fetched.intact.totals
  | false =>
    rw [hit] at next_eq
    subst next_eq
    obtain ⟨clear,taken⟩ := Bool.or_eq_false_iff.mp hit
    obtain ⟨got,frame,collected⟩ := fetched.collected rest fetching clear
    have total : rest.length = (rest.take size).length + (rest.length - size) := by omega
    have small : (rest.take size).length + (rest.length - size) < 2^16 := by
      have bound := fetched.chained.frame
      rw [frame, List.length_append] at bound
      omega
    rw [total] at collected
    obtain ⟨last,more⟩ := fetched.chained.ready.deliver collected fits small met.1 taken done
    by_cases complete : rest.length - size = 0
    · obtain ⟨chain,given,bytes,totals⟩ := last complete
      have whole : rest.take size = rest := List.take_of_length_le (by omega)
      rw [whole, ← frame] at bytes
      refine ⟨ids',later,⟨fetched.intact.memory,?_,?_⟩,fun left none => ?_⟩
      · change drivers.passed.map content = if _ then _ else _
        rw [given, if_pos ⟨complete,rfl⟩, List.map_append, fetched.intact.whole, List.map_singleton, bytes]
      · change ∀ c ∈ drivers.passed, _
        rw [given]
        intro c inside
        rcases List.mem_append.mp inside with old | new
        · exact fetched.intact.totals c old
        · cases List.mem_singleton.mp new
          exact totals
      · simp [complete] at none
    · obtain ⟨same,further⟩ := more complete
      refine ⟨ids',later,⟨fetched.intact.memory,?_,?_⟩,fun left remaining _ => ?_⟩
      · change drivers.passed.map content = if _ then _ else w.kept
        rw [same, if_neg (fun both => complete both.1)]
        exact fetched.intact.whole
      · change ∀ chain ∈ drivers.passed, _
        rw [same]
        exact fetched.intact.totals
      · simp only [complete, ↓reduceIte, Option.some.injEq] at remaining
        subst remaining
        rw [later.ready.kept_eq] at further
        refine ⟨got ++ rest.take size,?_,?_⟩
        · change w.frame = _
          rw [frame, List.append_assoc, List.take_append_drop]
        · rw [List.length_drop]
          exact further

theorem World.Fetched.step {w next : World} (fetched : w.Fetched ids) {e : Event} (met : w.Whole e)
    (stepped : w.step e = some next) : ∃ ids', next.Fetched ids' := by
  cases e with
  | packet frame =>
    have chained := fetched.chained.packet stepped
    simp only [World.step] at stepped
    split at stepped
    next allowed =>
      cases stepped
      refine ⟨ids,chained.1,⟨fetched.intact.memory,fetched.intact.whole,fetched.intact.totals⟩,fun rest fetching _ => ?_⟩
      cases fetching
      exact ⟨[],rfl,Or.inl ⟨rfl,fetched.chained.idle allowed.1⟩⟩
    next => contradiction
  | chunk size answers => exact fetched.chunk met stepped
  | poll packets =>
    obtain ⟨m,_,_,rfl,same,later,-⟩ := fetched.chained.poll stepped
    refine ⟨ids,later,⟨fetched.intact.memory,fetched.intact.whole,fetched.intact.totals⟩,fun rest fetching clear => ?_⟩
    obtain ⟨got,frame,⟨none,single⟩ | ⟨done,last,c,rfl,more,bytes,totals,cell,total⟩⟩ := fetched.collected rest fetching clear
    · exact ⟨got,frame,Or.inl ⟨none,single⟩⟩
    · have kept : segments m done = segments w.drivers.pbufs done :=
        segments_congr fun p inside => same p (List.mem_append_left _ inside)
      rw [← kept] at bytes totals
      exact ⟨got,frame,Or.inr ⟨done,last,c,rfl,more,bytes,totals,(same last (by simp)).trans cell,total⟩⟩

end

/-- In a run in which `rx_buf` is the buffer whenever a chunk is copied from it, and a packet that
lost a chunk loses its last one too, the stack gets the packets that lost none, whole and in turn. -/
theorem frames_intact (rxBuf ethBuffer : Nat → UInt8) (events : List Event)
    (whole : Meets World.step World.Whole (.init rxBuf ethBuffer) events) :
    Always World.step World.Intact (.init rxBuf ethBuffer) events := by
  have start : World.Fetched (.init rxBuf ethBuffer) [] :=
    ⟨World.init_chained rxBuf ethBuffer,⟨rfl,rfl,by simp [World.init, Drivers.init]⟩,fun rest none => by contradiction⟩
  have keeps (w : World) (e : Event) (next : World) (inv : ∃ ids, w.Fetched ids) (met : w.Whole e)
      (stepped : w.step e = some next) : ∃ ids, next.Fetched ids := by
    obtain ⟨ids,fetched⟩ := inv
    exact fetched.step met stepped
  have implies (w : World) (inv : ∃ ids, w.Fetched ids) : w.Intact := by
    obtain ⟨ids,fetched⟩ := inv
    exact fetched.intact
  exact always_of_invariant keeps implies ⟨[],start⟩ whole

/-- The first packet finds no buffer, the second comes in three chunks between two polls of the other
driver, and of the third the second chunk finds none. -/
def secondPacket : List Event :=
  [.packet [1],.chunk 1 ⟨none,none,true⟩,.packet [7,8,9,10],.chunk 2 ⟨some fun _ => 0,some fun _ => 0,true⟩,
    .poll [⟨64,fun _ => 0,true,true⟩],.chunk 1 ⟨none,some fun _ => 0,true⟩,.chunk 1 ⟨none,none,true⟩,
    .packet [11,12,13],.chunk 1 ⟨some fun _ => 0,some fun _ => 0,true⟩,.chunk 1 ⟨none,none,true⟩,.chunk 1 ⟨none,none,true⟩]

theorem frames_intact_second : Always World.step World.Intact (.init (fun _ => 0) fun _ => 0) secondPacket :=
  frames_intact (fun _ => 0) (fun _ => 0) secondPacket (by decide)

/-- The first packet is in `eth_buffer`, and the stack gets what was in `rx_buf`. -/
theorem first_frame_lost : ¬ Always World.step World.Intact (.init (fun _ => 0) fun _ => 0)
    [.packet [7,8],.chunk 2 ⟨some fun _ => 0,none,true⟩] := by decide

end PulseFirmware.Reception
