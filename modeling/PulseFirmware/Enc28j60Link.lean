import Mathlib.Algebra.Order.BigOperators.Group.List
import Mathlib.Algebra.Order.Ring.Nat
import PulseFirmware.Enc28j60Send
import PulseFirmware.Enc28j60Setup

/-! Whole runs of the interface: what is polled and sent in any order, while the chip receives by itself. -/
namespace PulseFirmware.Enc28j60
open PulseFirmware.Run

def kept (answers : Nat → Option (Nat → UInt8) × Bool) : Nat → List Received → List Received
  | n+1, r :: rest => if (packet r (answers n)).read then r :: kept answers n rest else []
  | _, _ => []

def packets (answers : Nat → Option (Nat → UInt8) × Bool) : Nat → List Received → List Reception.Packet
  | n+1, r :: rest => packet r (answers n) :: packets answers n rest
  | _, _ => []

section
variable {stream : Nat → List Hw} {last base k : Nat} {wire : List (List UInt8)} {log : List Received} {l : Link} {r : Received}
  {answers : Nat → Option (Nat → UInt8) × Bool}

theorem kept_prefix (answers : Nat → Option (Nat → UInt8) × Bool) (n : Nat) (frames : List Received) :
    kept answers n frames <+: frames.take n := by
  induction n generalizing frames with
  | zero => exact List.nil_prefix
  | succ n ih =>
    cases frames with
    | nil => exact List.nil_prefix
    | cons r frames =>
      unfold kept
      split
      · exact List.cons_prefix_cons.mpr ⟨rfl,ih frames⟩
      · exact List.nil_prefix

theorem packet_payload (r : Received) (answer : Option (Nat → UInt8) × Bool) :
    (List.range (r.data.length - 4)).map (packet r answer).data = payload r := by
  have read := Reception.writeAt_read (answer.1.getD fun _ => 0) 0 (payload r)
  rw [payload_length] at read
  simp only [Nat.zero_add] at read
  exact read

private theorem readPackets_refused {next : World} (n : Nat)
    (read : l.world.encReadReceivedPbuf l.pbufs (answers n).1 = some (next,l.pbufs,none)) :
    Link.readPackets answers (n + 1) l = some { l with world := next } := by
  rw [Link.readPackets, read]

private theorem readPackets_taken {next : World} {m m' : Pbufs} {buf : Nat} {b : Pbuf} (n : Nat)
    (read : l.world.encReadReceivedPbuf l.pbufs (answers n).1 = some (next,m,some buf)) (found : m.cells buf = some b)
    (input : m.input (some buf) (answers n).2 = some m') :
    Link.readPackets answers (n + 1) l = Link.readPackets answers n ⟨next,m',l.passed ++ [b.bytes]⟩ := by
  rw [Link.readPackets, read]
  dsimp only
  rw [found, Option.bind_some, input, Option.bind_some]

theorem readPackets_eq (small : last < ramsize) (n : Nat) (counted : k + n ≤ log.length) (idle : l.world.Idle stream last base k wire log) :
    ∃ world j, Link.readPackets answers n l = (Reception.mchdrvPoll l.pbufs (packets answers n (log.drop k))).map
        (fun pbufs => ⟨world,pbufs,l.passed ++ (kept answers n (log.drop k)).map payload⟩) ∧
      world.Idle stream last (base + total ((log.drop k).take j)) (k + j) wire log ∧
      j = min n ((kept answers n (log.drop k)).length + 1) := by
  induction n generalizing k base l with
  | zero =>
    refine ⟨l.world,0,?_,?_,?_⟩
    · simp [Link.readPackets, packets, kept, Reception.mchdrvPoll]
    · simpa using idle
    · simp
  | succ n ih =>
    have inside : k < log.length := by omega
    have found : log[k]? = some log[k] := List.getElem?_eq_getElem inside
    have frames : log.drop k = log[k] :: log.drop (k + 1) := List.drop_eq_getElem_cons inside
    generalize log[k] = r at found frames
    obtain ⟨next,taken,after⟩ := encReadReceivedPbuf_eq small found idle l.pbufs (answers n)
    have received := Reception.encReadReceivedPbuf_eq l.pbufs (packet r (answers n))
    rw [frames, packets, kept, Reception.mchdrvPoll]
    cases readable : (packet r (answers n)).read with
    | false =>
      rw [readable] at received
      rw [received] at taken ⊢
      refine ⟨next,1,(readPackets_refused n taken).trans ?_,?_,?_⟩
      · simp [Pbufs.pbufAlloc]
      · simpa using after
      · simp
    | true =>
      rw [readable, if_pos rfl] at received
      rw [received] at taken ⊢
      obtain ⟨m',input,-⟩ := Reception.input_fresh l.pbufs ((packet r (answers n)).length - 4) (packet r (answers n)).data (answers n).2
      have cell : (l.pbufs.pbufAlloc ((packet r (answers n)).length - 4) (some (packet r (answers n)).data)).1.cells l.pbufs.allocated =
        some ⟨none,(packet r (answers n)).data,r.data.length - 4,r.data.length - 4,1⟩ := Pbufs.set_self _ _ _
      have step := readPackets_taken n taken cell input
      obtain ⟨world,j,rest,idle',count⟩ := ih (k := k + 1) (l := ⟨next,m',l.passed ++ [payload r]⟩) (by omega) after
      have passed : l.passed ++ payload r :: (kept answers n (log.drop (k + 1))).map payload =
          l.passed ++ [payload r] ++ (kept answers n (log.drop (k + 1))).map payload := by
        rw [List.append_assoc, List.singleton_append]
      have bytes : Pbuf.bytes ⟨none,(packet r (answers n)).data,r.data.length - 4,r.data.length - 4,1⟩ = payload r :=
        packet_payload r (answers n)
      refine ⟨world,j + 1,?_,?_,?_⟩
      · rw [step, bytes, rest, if_pos rfl, List.map_cons, passed]
        change _ = Option.map _ (((l.pbufs.pbufAlloc ((packet r (answers n)).length - 4) (some (packet r (answers n)).data)).1.input
          (some l.pbufs.allocated) (answers n).2).bind _)
        rw [input, Option.bind_some]
      · rw [List.take_succ_cons, total_cons, ← Nat.add_assoc, ← Nat.add_assoc, Nat.add_right_comm k]
        exact idle'
      · rw [count, if_pos rfl, List.length_cons]
        omega

/-- A poll takes from the ring what its packets say and the stack gets as `mchdrv_poll` gave it. -/
theorem mchdrvPoll_eq (answers : Nat → Option (Nat → UInt8) × Bool) (small : last < ramsize) (idle : l.world.Idle stream last base k wire log) :
    ∃ world log' j, log <+: log' ∧ total (log'.drop k) ≤ last ∧ l.mchdrvPoll answers =
        (Reception.mchdrvPoll l.pbufs (packets answers (log'.length - k) (log'.drop k))).map
          (fun pbufs => ⟨world,pbufs,l.passed ++ (kept answers (log'.length - k) (log'.drop k)).map payload⟩) ∧
      world.Idle stream last (base + total ((log'.drop k).take j)) (k + j) wire log' ∧
      j = min (log'.length - k) ((kept answers (log'.length - k) (log'.drop k)).length + 1) := by
  obtain ⟨after,value⟩ := encRCR_holds (r := epktcnt) (i := .epktcnt) (by decide) idle.ready.unused
    (Chip.Idle.stable last base k 0 wire log) idle.chip
  have later := encRCR_later l.world epktcnt
  let read := (l.world.encRCR epktcnt).1
  have count : (l.world.encRCR epktcnt).2.toNat = read.chip.received.length - k := by
    rw [value]
    change read.chip.count.toNat = _
    rw [after.holds.count, Nat.add_zero, List.length_drop]
  have counted : k + (read.chip.received.length - k) ≤ read.chip.received.length := by
    have taken : k ≤ read.chip.received.length := after.holds.taken
    omega
  have now : read.Idle stream last base k wire read.chip.received := by
    refine ⟨⟨after.holds,after.quiet,List.prefix_rfl⟩,idle.ready.later later,?_⟩
    rw [later.dev]
    exact idle.next
  obtain ⟨world,j,polled,after',taken⟩ := readPackets_eq (l := { l with world := read }) small _ counted now
  have fits : total (read.chip.received.drop k) ≤ last := by
    rcases after.holds.room with ⟨-,below⟩ | ⟨-,-,below⟩
    · exact Nat.le_of_lt below
    · exact below
  refine ⟨world,read.chip.received,j,after.log,fits,?_,after',taken⟩
  unfold Link.mchdrvPoll
  rw [if_neg idle.ready.state]
  dsimp only
  rw [count]
  exact polled

/-- A chain whose frame fits behind the receive buffer, which the driver does not check. -/
def Sendable (last : Nat) : Link.Call → Prop
  | .poll _ => True
  | .output p => p ≠ [] ∧ Reception.Totals 0 p ∧ startAddress last + (p.flatMap Reception.Segment.bytes).length + 8 ≤ ramsize

def Supplied : Link.Call → Prop
  | .poll answers => ∀ n, (answers n).1.isSome
  | .output _ => True

def outputs : List Link.Call → List (List UInt8)
  | [] => []
  | .poll _ :: calls => outputs calls
  | .output p :: calls => p.flatMap Reception.Segment.bytes :: outputs calls

/-- The chip ends each transmission within the driver's patience. -/
def Prompt (stream : Nat → List Hw) : Prop := ∀ t, ∃ i < 10000, ∃ status, .sent status ∈ stream (t + i)

def window (log : List Received) (k k' : Nat) : List Received := (log.take k').drop k

/-- The bytes of the packets that a poll of the model of packets passes on. -/
def delivered (packets : List Reception.Packet) : List (List UInt8) :=
  (packets.takeWhile Reception.Packet.read).map fun p => (List.range (p.length - 4)).map p.data

/-- What calls do to an idle interface: `got` are the frames read into buffers, `sent` those that went out. -/
structure Progress (stream : Nat → List Hw) (last k : Nat) (wire : List (List UInt8)) (log : List Received) (calls : List Link.Call)
    (l l' : Link) (base' k' : Nat) (log' got : List Received) (sent : List (List UInt8)) : Prop where
  idle : l'.world.Idle stream last base' k' (wire ++ sent) log'
  log : log <+: log'
  further : k ≤ k'
  known : k' ≤ log'.length
  passed : l'.passed = l.passed ++ got.map payload
  polls : ∃ polls : List (List Reception.Packet), polls.foldlM Reception.mchdrvPoll l.pbufs = some l'.pbufs ∧
    polls.flatMap delivered = got.map payload
  order : got.Sublist (window log' k k')
  whole : (∀ call ∈ calls, Supplied call) → (∀ r ∈ log', 4 ≤ r.data.length) → got = window log' k k'
  output : sent.Sublist (outputs calls)
  prompt : Prompt stream → sent = outputs calls

theorem kept_whole (n : Nat) (frames : List Received) (supplied : ∀ n, (answers n).1.isSome)
    (sizes : ∀ r ∈ frames, 4 ≤ r.data.length ∧ r.data.length - 4 ≤ 32000) : kept answers n frames = frames.take n := by
  induction n generalizing frames with
  | zero => rfl
  | succ n ih =>
    cases frames with
    | nil => rfl
    | cons r frames =>
      obtain ⟨least,most⟩ := sizes r List.mem_cons_self
      have readable : (packet r (answers n)).read = true := by
        unfold Reception.Packet.read packet
        simp [least, most, supplied n]
      rw [kept, if_pos readable, ih frames fun r inside => sizes r (List.mem_cons_of_mem _ inside), List.take_succ_cons]

theorem delivered_packets (n : Nat) (frames : List Received) :
    delivered (packets answers n frames) = (kept answers n frames).map payload := by
  induction n generalizing frames with
  | zero => rfl
  | succ n ih =>
    cases frames with
    | nil => rfl
    | cons r frames =>
      rw [packets, kept]
      cases readable : (packet r (answers n)).read with
      | false => simp [delivered, readable]
      | true =>
        have rest := ih frames
        unfold delivered at rest ⊢
        rw [List.takeWhile_cons_of_pos readable, List.map_cons, rest, if_pos rfl, List.map_cons]
        exact congrArg (· :: _) (packet_payload r (answers n))

theorem size_le_total {frames : List Received} (inside : r ∈ frames) : r.size ≤ total frames :=
  List.le_sum_of_mem (List.mem_map_of_mem inside)

theorem poll_progress (small : last < ramsize) (known : k ≤ log.length) (idle : l.world.Idle stream last base k wire log)
    (answers : Nat → Option (Nat → UInt8) × Bool) :
    ∃ l' base' k' log' got, l.mchdrvPoll answers = some l' ∧
      Progress stream last k wire log [.poll answers] l l' base' k' log' got [] := by
  have ram : ramsize = 8192 := rfl
  obtain ⟨world,log',j,grown,fits,polled,after,count⟩ := mchdrvPoll_eq answers small idle
  obtain ⟨pbufs,-,-,input,-⟩ := Reception.mchdrvPoll_cases l.pbufs (packets answers (log'.length - k) (log'.drop k))
  have size : (log'.drop k).length = log'.length - k := List.length_drop
  have begins := kept_prefix answers (log'.length - k) (log'.drop k)
  have fewer := begins.length_le
  rw [List.take_of_length_le (Nat.le_of_eq size)] at begins fewer
  rw [size] at fewer
  have known := Nat.le_trans known grown.length_le
  have view : window log' k (k + j) = (log'.drop k).take j := by
    rw [window, List.drop_take, Nat.add_sub_cancel_left]
  rw [input, Option.map_some] at polled
  refine ⟨_,base + total ((log'.drop k).take j),k + j,log',kept answers (log'.length - k) (log'.drop k),polled,?_⟩
  have polls : [packets answers (log'.length - k) (log'.drop k)].foldlM Reception.mchdrvPoll l.pbufs = some pbufs := by
    rw [List.foldlM_cons, input]
    rfl
  refine ⟨?_,grown,Nat.le_add_right _ _,by omega,rfl,⟨_,polls,?_⟩,?_,fun supplied sizes => ?_,List.Sublist.refl _,fun _ => rfl⟩
  · rw [List.append_nil]
    exact after
  · rw [List.flatMap_singleton]
    exact delivered_packets _ _
  · rw [view]
    refine (List.prefix_of_prefix_length_le begins (List.take_prefix j _) ?_).sublist
    rw [List.length_take, size]
    omega
  · have whole := kept_whole (log'.length - k) (log'.drop k) (supplied _ (List.mem_singleton_self _)) fun r inside => by
      have bound := size_le_total inside
      rw [Received.size] at bound
      exact ⟨sizes r (List.mem_of_mem_drop inside),by omega⟩
    rw [List.take_of_length_le (Nat.le_of_eq size)] at whole
    rw [whole, size] at count
    rw [whole, view, count, List.take_of_length_le (by omega)]

theorem output_progress (small : last < ramsize) (known : k ≤ log.length) (idle : l.world.Idle stream last base k wire log)
    (p : List Reception.Segment) (sendable : Sendable last (.output p)) : ∃ l' sent, l.mchdrvLinkoutput p = some l' ∧
      Progress stream last k wire log [.output p] l l' base k log [] sent := by
  obtain ⟨some,totals,fits⟩ := sendable
  obtain ⟨next,out,sent,after,outcome⟩ := encTransmitPbuf_outcome small some totals fits idle
  have done : l.mchdrvLinkoutput p = .some { l with world := next } := by
    unfold Link.mchdrvLinkoutput
    rw [if_neg idle.ready.state, sent, Option.map_some]
  have none : window log k k = [] := by rw [window, List.drop_take, Nat.sub_self, List.take_zero]
  rcases outcome with same | ⟨same,t,-,-,silent⟩
  · refine ⟨_,[p.flatMap Reception.Segment.bytes],done,?_,List.prefix_rfl,Nat.le_refl _,known,(List.append_nil _).symm,⟨[],rfl,rfl⟩,List.nil_sublist _,
      fun _ _ => none.symm,List.Sublist.refl _,fun _ => rfl⟩
    rw [← same]
    exact after
  · refine ⟨_,[],done,?_,List.prefix_rfl,Nat.le_refl _,known,(List.append_nil _).symm,⟨[],rfl,rfl⟩,List.nil_sublist _,fun _ _ => none.symm,
      List.nil_sublist _,fun prompt => ?_⟩
    · rw [List.append_nil, ← same]
      exact after
    · obtain ⟨i,inside,status,ends⟩ := prompt t
      rw [← idle.ready.hardware] at ends
      exact absurd ends (silent i inside status)

theorem window_append {log log' : List Received} {k k' k'' : Nat} (grown : log <+: log') (first : k ≤ k') (known : k' ≤ log.length)
    (second : k' ≤ k'') : window log' k k'' = window log k k' ++ window log' k' k'' := by
  obtain ⟨more,rfl⟩ := grown
  have start : ((log ++ more).take k'').take k' = log.take k' := by
    rw [List.take_take, Nat.min_eq_left second, List.take_append_of_le_length known]
  have split := List.take_append_drop k' ((log ++ more).take k'')
  unfold window
  conv_lhs => rw [← split, start, List.drop_append_of_le_length (by rw [List.length_take]; omega)]

theorem outputs_cons (call : Link.Call) (calls : List Link.Call) : outputs (call :: calls) = outputs [call] ++ outputs calls := by
  cases call <;> rfl

theorem Progress.cons {call : Link.Call} {calls : List Link.Call} {l' l'' : Link} {base' k' base'' k'' : Nat}
    {log' log'' got got' : List Received} {sent sent' : List (List UInt8)}
    (first : Progress stream last k wire log [call] l l' base' k' log' got sent)
    (second : Progress stream last k' (wire ++ sent) log' calls l' l'' base'' k'' log'' got' sent') :
    Progress stream last k wire log (call :: calls) l l'' base'' k'' log'' (got ++ got') (sent ++ sent') := by
  have view := window_append second.log first.further first.known second.further
  obtain ⟨polls,before,here⟩ := first.polls
  obtain ⟨polls',after,there⟩ := second.polls
  refine ⟨?_,first.log.trans second.log,Nat.le_trans first.further second.further,second.known,?_,⟨polls ++ polls',?_,?_⟩,?_,?_,?_,?_⟩
  · rw [← List.append_assoc]
    exact second.idle
  · rw [second.passed, first.passed, List.map_append, List.append_assoc]
  · rw [List.foldlM_append, before]
    exact after
  · rw [List.flatMap_append, here, there, List.map_append]
  · rw [view]
    exact first.order.append second.order
  · intro supplied sizes
    obtain ⟨here,later⟩ := List.forall_mem_cons.mp supplied
    have grown := second.log.subset
    rw [view, second.whole later sizes, first.whole (List.forall_mem_singleton.mpr here) fun r inside => sizes r (grown inside)]
  · rw [outputs_cons]
    exact first.output.append second.output
  · intro prompt
    rw [outputs_cons, first.prompt prompt, second.prompt prompt]

theorem step_progress (small : last < ramsize) (known : k ≤ log.length) (idle : l.world.Idle stream last base k wire log)
    {call : Link.Call} (sendable : Sendable last call) : ∃ l' base' k' log' got sent, l.step call = some l' ∧
      Progress stream last k wire log [call] l l' base' k' log' got sent := by
  cases call with
  | poll answers =>
    obtain ⟨l',base',k',log',got,done,progress⟩ := poll_progress small known idle answers
    exact ⟨l',base',k',log',got,[],done,progress⟩
  | output p =>
    obtain ⟨l',sent,done,progress⟩ := output_progress small known idle p sendable
    exact ⟨l',base,k,log,[],sent,done,progress⟩

theorem run_progress (small : last < ramsize) (known : k ≤ log.length) (idle : l.world.Idle stream last base k wire log)
    (calls : List Link.Call) (sendable : ∀ call ∈ calls, Sendable last call) : ∃ l' base' k' log' got sent,
      run Link.step l calls = some l' ∧ Progress stream last k wire log calls l l' base' k' log' got sent := by
  induction calls generalizing l base k wire log with
  | nil =>
    refine ⟨l,base,k,log,[],[],rfl,?_,List.prefix_rfl,Nat.le_refl _,known,(List.append_nil _).symm,⟨[],rfl,rfl⟩,List.nil_sublist _,?_,
      List.Sublist.refl _,fun _ => rfl⟩
    · rw [List.append_nil]
      exact idle
    · intro _ _
      rw [window, List.drop_take, Nat.sub_self, List.take_zero]
  | cons call calls ih =>
    obtain ⟨here,later⟩ := List.forall_mem_cons.mp sendable
    obtain ⟨l',base',k',log',got,sent,stepped,first⟩ := step_progress small known idle here
    obtain ⟨l'',base'',k'',log'',got',sent',ran,second⟩ := ih first.known first.idle later
    exact ⟨l'',base'',k'',log'',got ++ got',sent ++ sent',(run_cons_eq l l'' call calls).mpr ⟨l',stepped,ran⟩,first.cons second⟩

theorem init_progress {w : World} (off : w.chip.Off wire log) (up : w.mchdrvInit.dev.state ≠ 0) (m : Pbufs) (calls : List Link.Call)
    (sendable : ∀ call ∈ calls, Sendable 4096 call) : ∃ l base k' log' got sent, run Link.step ⟨w.mchdrvInit,m,[]⟩ calls = some l ∧
      Progress w.hardware 4096 log.length wire log calls ⟨w.mchdrvInit,m,[]⟩ l base k' log' got sent :=
  run_progress (by decide) (Nat.le_refl _) ((mchdrvInit_idle off).2 up) calls sendable

private def exchange : List Link.Call := [.output [⟨[1,2,3],5⟩,⟨[4,5],2⟩],.poll fun _ => (some fun _ => 0,true)]

private theorem exchange_sendable : ∀ call ∈ exchange, Sendable 4096 call :=
  List.forall_mem_cons.mpr ⟨⟨by decide,⟨rfl,rfl,trivial⟩,by decide⟩,List.forall_mem_cons.mpr ⟨trivial,List.forall_mem_nil _⟩⟩

/-- Of the frames stored since the reset the interface has taken the first ones, in their order; the others wait, and
`EPKTCNT` counts them. -/
theorem frames_in_order (w : World) (wire : List (List UInt8)) (log : List Received) (off : w.chip.Off wire log)
    (up : w.mchdrvInit.dev.state ≠ 0) (m : Pbufs) (calls : List Link.Call) (sendable : ∀ call ∈ calls, Sendable 4096 call) :
    ∃ l taken waiting got, run Link.step ⟨w.mchdrvInit,m,[]⟩ calls = some l ∧
      l.world.chip.received = log ++ taken ++ waiting ∧ l.world.chip.count.toNat = waiting.length ∧
      l.passed = got.map payload ∧ got.Sublist taken ∧
      ((∀ call ∈ calls, Supplied call) → (∀ r ∈ l.world.chip.received, 4 ≤ r.data.length) → got = taken) := by
  obtain ⟨l,base,k',log',got,sent,ran,progress⟩ := init_progress off up m calls sendable
  have holds := progress.idle.chip.holds
  have grown := progress.idle.chip.log
  have begun : l.world.chip.received.take k' = log ++ window log' log.length k' := by
    obtain ⟨more,whole⟩ := grown
    obtain ⟨later,first⟩ := progress.log
    rw [← whole, List.take_append_of_le_length progress.known, window, ← first]
    have split := List.take_append_drop log.length ((log ++ later).take k')
    rw [List.take_take, Nat.min_eq_left progress.further, List.take_append_of_le_length (Nat.le_refl _), List.take_length] at split
    exact split.symm
  refine ⟨l,window log' log.length k',l.world.chip.received.drop k',got,ran,?_,?_,progress.passed,progress.order,?_⟩
  · rw [← begun, List.take_append_drop]
  · rw [holds.count, Nat.add_zero]
  · exact fun supplied sizes => progress.whole supplied fun r inside => sizes r (grown.subset inside)

theorem fresh_frames : ∃ l taken waiting got, run Link.step ⟨fresh.mchdrvInit,.empty,[]⟩ exchange = some l ∧
    l.world.chip.received = [] ++ taken ++ waiting ∧ l.world.chip.count.toNat = waiting.length ∧
    l.passed = got.map payload ∧ got.Sublist taken ∧
    ((∀ call ∈ exchange, Supplied call) → (∀ r ∈ l.world.chip.received, 4 ≤ r.data.length) → got = taken) :=
  frames_in_order fresh [] [] fresh_off fresh_up .empty exchange exchange_sendable

/-- Each chain goes out at most once and as it is, in the order of the calls, and all do on a chip that is prompt. -/
theorem chains_in_order (w : World) (wire : List (List UInt8)) (log : List Received) (off : w.chip.Off wire log)
    (up : w.mchdrvInit.dev.state ≠ 0) (m : Pbufs) (calls : List Link.Call) (sendable : ∀ call ∈ calls, Sendable 4096 call) :
    ∃ l sent, run Link.step ⟨w.mchdrvInit,m,[]⟩ calls = some l ∧ l.world.chip.wire = wire ++ sent ∧
      sent.Sublist (outputs calls) ∧ (Prompt w.hardware → sent = outputs calls) := by
  obtain ⟨l,base,k',log',got,sent,ran,progress⟩ := init_progress off up m calls sendable
  exact ⟨l,sent,ran,progress.idle.chip.quiet.wire,progress.output,progress.prompt⟩

theorem fresh_chains : ∃ l, run Link.step ⟨fresh.mchdrvInit,.empty,[]⟩ exchange = some l ∧ l.world.chip.wire = [[1,2,3,4,5]] := by
  obtain ⟨l,sent,ran,wire,-,prompt⟩ := chains_in_order fresh [] [] fresh_off fresh_up .empty exchange exchange_sendable
  have whole : sent = [[1,2,3,4,5]] := prompt fun t => ⟨0,by decide,CString.zeros 7,List.mem_append_right _ (List.mem_singleton_self _)⟩
  exact ⟨l,ran,wire.trans whole⟩

theorem polls_refined {polls : List (List Reception.Packet)} {m m' : Pbufs} (polled : polls.foldlM Reception.mchdrvPoll m = some m')
    (v : Reception.World) (same : v.drivers.pbufs = m) : ∃ v', run Reception.World.step v (polls.map .poll) = some v' ∧
      v' = { v with drivers := { v.drivers with pbufs := m' } } := by
  induction polls generalizing m v with
  | nil =>
    cases polled
    subst same
    exact ⟨v,rfl,rfl⟩
  | cons packets polls ih =>
    rw [List.foldlM_cons, Option.bind_eq_bind, Option.bind_eq_some_iff] at polled
    obtain ⟨next,first,rest⟩ := polled
    obtain ⟨v',ran,done⟩ := ih rest { v with drivers := { v.drivers with pbufs := next } } rfl
    refine ⟨v',?_,done⟩
    rw [List.map_cons]
    refine (run_cons_eq _ _ _ _).mpr ⟨_,?_,ran⟩
    unfold Reception.World.step
    dsimp only
    rw [same, first]

/-- Seen from the packet buffers, the transfers to the chip are polls that find packets ready, and what these pass on is what
the driver passes on. -/
theorem transfers_refine_polls (w : World) (wire : List (List UInt8)) (log : List Received) (off : w.chip.Off wire log)
    (up : w.mchdrvInit.dev.state ≠ 0) (v : Reception.World) (calls : List Link.Call)
    (sendable : ∀ call ∈ calls, Sendable 4096 call) : ∃ l, ∃ polls : List (List Reception.Packet),
      run Link.step ⟨w.mchdrvInit,v.drivers.pbufs,[]⟩ calls = some l ∧
      run Reception.World.step v (polls.map .poll) = some { v with drivers := { v.drivers with pbufs := l.pbufs } } ∧
      polls.flatMap delivered = l.passed := by
  obtain ⟨l,base,k',log',got,sent,ran,progress⟩ := init_progress off up v.drivers.pbufs calls sendable
  obtain ⟨polls,polled,same⟩ := progress.polls
  obtain ⟨v',refined,rfl⟩ := polls_refined polled v rfl
  exact ⟨l,polls,ran,refined,same.trans progress.passed.symm⟩

theorem fresh_refines : ∃ l, ∃ polls : List (List Reception.Packet),
    run Link.step ⟨fresh.mchdrvInit,(Reception.World.init (fun _ => 0) fun _ => 0).drivers.pbufs,[]⟩ exchange = some l ∧
    run Reception.World.step (.init (fun _ => 0) fun _ => 0) (polls.map .poll) = some { Reception.World.init (fun _ => 0) fun _ => 0 with
      drivers := { (Reception.World.init (fun _ => 0) fun _ => 0).drivers with pbufs := l.pbufs } } ∧
    polls.flatMap delivered = l.passed :=
  transfers_refine_polls fresh [] [] fresh_off fresh_up (.init (fun _ => 0) fun _ => 0) exchange exchange_sendable

end

end PulseFirmware.Enc28j60
