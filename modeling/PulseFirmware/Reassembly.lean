import PulseFirmware.Reception

/-! What a call of `winc_netif_rx_callback` does to the chain that begins at `rx_first`, in each of
its branches. -/
namespace PulseFirmware.Reception

/-- Where the chunk for the last buffer begins. -/
def offset (done : List Nat) : Nat := if done = [] then ethPadSize else 0

/-- The receive buffer is the end of the chain, or one of the two static buffers. -/
inductive Drivers.Posted (s : Drivers) : List Nat → Prop
  | rxBuf (goes : s.gau8ethRcvBuf = .rxBuf) (size : s.gu16ethRcvBufSize = wincRxBufSz) : s.Posted []
  | ethBuffer (goes : s.gau8ethRcvBuf = .ethBuffer) (size : s.gu16ethRcvBufSize = ethBufferSize) : s.Posted []
  | last (done : List Nat) (last : Nat) (rxLast : s.rxLast = some last) (goes : s.gau8ethRcvBuf = .payload last (offset done))
      (size : s.gu16ethRcvBufSize = pbufPoolBufsize - offset done) : s.Posted (done ++ [last])

structure Drivers.Ready (s : Drivers) (ids : List Nat) : Prop where
  held : s.pbufs.Held s.rxFirst ids
  posted : s.Posted ids

structure Drivers.Loaded (s : Drivers) (done : List Nat) (last : Nat) (b : Pbuf) : Prop where
  held : s.pbufs.Held s.rxFirst (done ++ [last])
  rxLast : s.rxLast = some last
  cell : s.pbufs.cells last = some b

def filled (b : Pbuf) (done : List Nat) (sz rem : Nat) : Pbuf :=
  let sz := if done = [] then (sz + ethPadSize) % 2^16 else sz
  { b with totLen := if done = [] then (sz + rem) % 2^16 else b.totLen, len := sz }

structure Ledger (m m' : Pbufs) (new accepted freed : List Nat) : Prop where
  allocated : List.range m'.allocated = List.range m.allocated ++ new
  accepted : m'.accepted = m.accepted ++ accepted
  freed : m'.freed = m.freed ++ freed

theorem Ledger.alloc (m : Pbufs) (length : Nat) (answer : Option (Nat → UInt8)) :
    Ledger m (m.pbufAlloc length answer).1 (m.pbufAlloc length answer).2.toList [] [] := by
  cases answer with
  | none => exact ⟨by simp [Pbufs.pbufAlloc],by simp [Pbufs.pbufAlloc],by simp [Pbufs.pbufAlloc]⟩
  | some payload => exact ⟨List.range_succ,(List.append_nil _).symm,(List.append_nil _).symm⟩

/-- The totals of a chain of which `rest` bytes are still to come. -/
def Totals (rest : Nat) : List Segment → Prop
  | [] => True
  | segment :: later =>
    segment.totLen = segment.bytes.length + (later.map fun s => s.bytes.length).sum + rest ∧ Totals rest later

section
variable {s : Drivers} {ids done : List Nat} {last : Nat} {b : Pbuf}

theorem segments_append (m : Pbufs) (xs ys : List Nat) : segments m (xs ++ ys) = segments m xs ++ segments m ys :=
  List.filterMap_append

theorem segments_congr {m m' : Pbufs} (same : ∀ p ∈ ids, m'.cells p = m.cells p) : segments m' ids = segments m ids :=
  List.filterMap_congr fun p inside => by rw [same p inside]

theorem segments_single {m : Pbufs} (found : m.cells last = some b) : segments m [last] = [⟨b.bytes,b.totLen⟩] := by
  simp [segments, found]

theorem Totals.snoc {segs : List Segment} {segment : Segment} {rest : Nat} (totals : Totals (segment.bytes.length + rest) segs)
    (total : segment.totLen = segment.bytes.length + rest) : Totals rest (segs ++ [segment]) := by
  induction segs with
  | nil => exact ⟨total,trivial⟩
  | cons first segs ih =>
    rw [List.cons_append]
    refine ⟨?_,ih totals.2⟩
    rw [totals.1, List.map_append, List.sum_append, List.map_singleton, List.sum_singleton]
    omega

theorem Drivers.Loaded.single_iff (loaded : s.Loaded done last b) : s.rxFirst = s.rxLast ↔ done = [] := by
  rw [loaded.held.chain.start_eq, loaded.rxLast]
  constructor
  · intro same
    cases done with
    | nil => rfl
    | cons p done =>
      cases Option.some.inj same
      exact absurd (List.mem_append_right done (List.mem_singleton_self last)) (List.nodup_cons.mp loaded.held.distinct).1
  · rintro rfl
    rfl

theorem Drivers.Loaded.below (loaded : s.Loaded done last b) : last < s.pbufs.allocated :=
  (loaded.held.live last (by simp)).1

def Drivers.measured (s : Drivers) (done : List Nat) (last : Nat) (b : Pbuf) (sz rem : Nat) (answer : Option (Nat → UInt8)) : Drivers :=
  { s with pbufs := (s.pbufs.pbufAlloc pbufPoolBufsize answer).1.set last (filled b done sz rem) }

theorem Drivers.Loaded.alloc_cell (loaded : s.Loaded done last b) (length : Nat) (answer : Option (Nat → UInt8)) :
    (s.pbufs.pbufAlloc length answer).1.cells last = some b := by
  cases answer with
  | none => exact loaded.cell
  | some payload => exact (Pbufs.alloc_other payload loaded.below).trans loaded.cell

theorem Drivers.Loaded.measure (loaded : s.Loaded done last b) (sz rem : Nat) (answer : Option (Nat → UInt8)) :
    (s.measured done last b sz rem answer).Loaded done last (filled b done sz rem) :=
  ⟨(loaded.held.alloc pbufPoolBufsize answer).set (loaded.alloc_cell _ _) rfl rfl,loaded.rxLast,Pbufs.set_self _ _ _⟩

theorem Drivers.Loaded.chunkDone_eq (loaded : s.Loaded done last b) (sz rem : Nat) (answers : Answers) :
    s.chunkDone sz rem answers =
      if rem = 0 then
        ((s.measured done last b sz rem answers.p).input answers.ok).bind fun t =>
          { t with rxFirst := (s.pbufs.pbufAlloc pbufPoolBufsize answers.p).2 }.reload (s.pbufs.pbufAlloc pbufPoolBufsize answers.p).2
      else
        match (s.pbufs.pbufAlloc pbufPoolBufsize answers.p).2 with
        | none => ((s.measured done last b sz rem answers.p).pbufs.free s.rxFirst).bind fun pbufs =>
          some ({ s with pbufs, rxFirst := none }.m2mWifiSetReceiveBuffer .rxBuf wincRxBufSz)
        | some q => ((s.measured done last b sz rem answers.p).pbufs.modify q fun b => { b with totLen := rem }).bind
          fun pbufs => (pbufs.modify last fun b => { b with next := some q }).bind
          fun pbufs => Drivers.reload { s with pbufs } (some q) := by
  have cell := loaded.alloc_cell pbufPoolBufsize answers.p
  simp only [chunkDone, measured, loaded.single_iff]
  rw [loaded.rxLast]
  simp only [Option.bind_eq_bind, Option.bind_some, Pbufs.modify_eq cell]
  rfl

theorem Drivers.Loaded.fresh_outside (loaded : s.Loaded done last b) (length : Nat) (answer : Option (Nat → UInt8)) {p : Nat}
    (new : p ∈ (s.pbufs.pbufAlloc length answer).2.toList) : p ∉ done ++ [last] := by
  intro inside
  have below := (loaded.held.live p inside).1
  cases answer with
  | none => contradiction
  | some payload =>
    cases List.mem_singleton.mp new
    exact absurd below (Nat.lt_irrefl _)

theorem Drivers.Loaded.fresh_held (loaded : s.Loaded done last b) (answer : Option (Nat → UInt8)) {m : Pbufs} (length : Nat)
    (same : ∀ p, p ∉ done ++ [last] → m.cells p = (s.pbufs.pbufAlloc length answer).1.cells p)
    (allocated : m.allocated = (s.pbufs.pbufAlloc length answer).1.allocated) :
    m.Held (s.pbufs.pbufAlloc length answer).2 (s.pbufs.pbufAlloc length answer).2.toList :=
  (Pbufs.Held.fresh s.pbufs length answer).frame (fun p new => same p (loaded.fresh_outside length answer new))
    (Nat.le_of_eq allocated.symm)

theorem Drivers.measured_other {p : Nat} (outside : p ∉ done ++ [last]) (sz rem : Nat) (answer : Option (Nat → UInt8)) :
    (s.measured done last b sz rem answer).pbufs.cells p = (s.pbufs.pbufAlloc pbufPoolBufsize answer).1.cells p := by
  have different : p ≠ last := by
    rintro rfl
    exact outside (by simp)
  exact Pbufs.set_other different _

theorem Drivers.reload_ready {q : Nat} (held : s.pbufs.Held s.rxFirst (done ++ [q])) : ∃ t, s.reload (some q) = some t ∧
    t.Ready (done ++ [q]) ∧ t.pbufs = s.pbufs ∧ t.passed = s.passed := by
  obtain ⟨c,cell,-⟩ := (held.live q (by simp)).2
  have loaded : Drivers.Loaded { s with rxLast := some q } done q c := ⟨held,rfl,cell⟩
  have single : s.rxFirst = some q ↔ done = [] := loaded.single_iff
  by_cases empty : done = []
  · have posted : offset done = ethPadSize := if_pos empty
    refine ⟨_,if_pos (single.mpr empty),⟨held,.last done q rfl ?_ ?_⟩,rfl,rfl⟩
    · rw [posted]
      rfl
    · rw [posted]
      rfl
  · have posted : offset done = 0 := if_neg empty
    refine ⟨_,if_neg (fun same => empty (single.mp same)),⟨held,.last done q rfl ?_ ?_⟩,rfl,rfl⟩
    · rw [posted]
      rfl
    · rw [posted]
      rfl

theorem Drivers.Loaded.complete (loaded : s.Loaded done last b) (sz : Nat) (answers : Answers) :
    ∃ t, s.chunkDone sz 0 answers = some t ∧ t.Ready (s.pbufs.pbufAlloc pbufPoolBufsize answers.p).2.toList ∧
      t.passed = s.passed ++ [segments (s.measured done last b sz 0 answers.p).pbufs (done ++ [last])] ∧
      Ledger s.pbufs t.pbufs (s.pbufs.pbufAlloc pbufPoolBufsize answers.p).2.toList
        (if answers.ok then done ++ [last] else []) (if answers.ok then [] else done ++ [last]) := by
  have measured := loaded.measure sz 0 answers.p
  have alloc := Ledger.alloc s.pbufs pbufPoolBufsize answers.p
  obtain ⟨m,taken,accepted,freed,allocated,others⟩ : ∃ m : Pbufs,
      (s.measured done last b sz 0 answers.p).input answers.ok = some { s.measured done last b sz 0 answers.p with
        pbufs := m, passed := s.passed ++ [segments (s.measured done last b sz 0 answers.p).pbufs (done ++ [last])] } ∧
      m.accepted = s.pbufs.accepted ++ (if answers.ok then done ++ [last] else []) ∧
      m.freed = s.pbufs.freed ++ (if answers.ok then [] else done ++ [last]) ∧
      m.allocated = (s.pbufs.pbufAlloc pbufPoolBufsize answers.p).1.allocated ∧
      ∀ p, p ∉ done ++ [last] → m.cells p = (s.pbufs.pbufAlloc pbufPoolBufsize answers.p).1.cells p := by
    unfold input Pbufs.input
    simp only [measured.held.chain_eq, Option.bind_eq_bind, Option.bind_some]
    cases answers.ok with
    | true =>
      refine ⟨_,rfl,?_,?_,rfl,fun p outside => measured_other outside sz 0 answers.p⟩
      · change (s.pbufs.pbufAlloc pbufPoolBufsize answers.p).1.accepted ++ _ = _
        rw [alloc.accepted, List.append_nil]
        rfl
      · change (s.pbufs.pbufAlloc pbufPoolBufsize answers.p).1.freed = _
        exact alloc.freed
    | false =>
      obtain ⟨m,freeing,freed,accepted,allocated,others⟩ := measured.held.free_eq
      refine ⟨m,?_,?_,?_,allocated,fun p outside => ?_⟩
      · simp only [Bool.false_eq_true, ↓reduceIte, Option.bind_some, freeing]
        rfl
      · rw [accepted]
        exact alloc.accepted
      · rw [freed]
        change (s.pbufs.pbufAlloc pbufPoolBufsize answers.p).1.freed ++ _ = _
        rw [alloc.freed, List.append_nil]
        rfl
      · rw [others p outside]
        exact measured_other outside sz 0 answers.p
  rw [loaded.chunkDone_eq, if_pos rfl, taken, Option.bind_some]
  have held := loaded.fresh_held answers.p pbufPoolBufsize others allocated
  have given : List.range m.allocated = List.range s.pbufs.allocated ++ (s.pbufs.pbufAlloc pbufPoolBufsize answers.p).2.toList := by
    rw [allocated]
    exact alloc.allocated
  cases new : (s.pbufs.pbufAlloc pbufPoolBufsize answers.p).2 with
  | none =>
    rw [new] at held given
    exact ⟨_,rfl,⟨held,.rxBuf rfl rfl⟩,rfl,given,accepted,freed⟩
  | some q =>
    rw [new] at held given
    obtain ⟨t,reloaded,ready,pbufs,passed⟩ := @reload_ready { s.measured done last b sz 0 answers.p with
        pbufs := m, passed := s.passed ++ [segments (s.measured done last b sz 0 answers.p).pbufs (done ++ [last])],
        rxFirst := some q } [] q held
    refine ⟨t,reloaded,ready,passed,?_⟩
    rw [pbufs]
    exact ⟨given,accepted,freed⟩

theorem Drivers.Loaded.discard (loaded : s.Loaded done last b) (sz : Nat) {rem : Nat} (more : rem ≠ 0) (answers : Answers)
    (failed : answers.p = none) : ∃ t, s.chunkDone sz rem answers = some t ∧ t.Ready [] ∧ t.passed = s.passed ∧
      Ledger s.pbufs t.pbufs [] [] (done ++ [last]) := by
  have measured := loaded.measure sz rem answers.p
  obtain ⟨m,freeing,freed,accepted,allocated,-⟩ := measured.held.free_eq
  have alloc := Ledger.alloc s.pbufs pbufPoolBufsize answers.p
  rw [loaded.chunkDone_eq, if_neg more]
  rw [failed] at freeing freed accepted allocated alloc ⊢
  change ∃ t, ((s.measured done last b sz rem none).pbufs.free s.rxFirst).bind _ = some t ∧ _
  rw [show s.rxFirst = (s.measured done last b sz rem none).rxFirst from rfl, freeing, Option.bind_some]
  refine ⟨_,rfl,⟨Pbufs.Held.nil _,.rxBuf rfl rfl⟩,rfl,?_,?_,?_⟩
  · change List.range m.allocated = _
    rw [allocated]
    exact alloc.allocated
  · change m.accepted = _
    rw [accepted]
    exact alloc.accepted
  · change m.freed = _
    rw [freed]
    change (s.pbufs.pbufAlloc pbufPoolBufsize none).1.freed ++ _ = _
    rw [alloc.freed, List.append_nil]

theorem link_new {m : Pbufs} {start : Option Nat} {new : Nat} {c : Pbuf} (held : m.Held start (done ++ [last]))
    (cell : m.cells last = some c) (single : m.Held (some new) [new])
    (outside : new ∉ done ++ [last]) (rem : Nat) :
    ∃ m', ((m.modify new fun b => { b with totLen := rem }).bind fun m => m.modify last fun b => { b with next := some new }) = some m' ∧
      m'.Held start (done ++ [last] ++ [new]) ∧ m'.allocated = m.allocated ∧ m'.accepted = m.accepted ∧ m'.freed = m.freed ∧
      segments m' (done ++ [last]) = segments m (done ++ [last]) ∧ ∃ c, m'.cells new = some c ∧ c.totLen = rem := by
  obtain ⟨-,fresh,here,-⟩ := single.live new (List.mem_singleton_self new)
  have different : last ≠ new := by
    rintro rfl
    exact outside (by simp)
  have apart (p : Nat) (inside : p ∈ done) : p ≠ last := by
    rintro rfl
    have distinct := held.distinct
    rw [List.nodup_append] at distinct
    exact distinct.2.2 p inside p (List.mem_singleton_self p) rfl
  have old (p : Nat) (inside : p ∈ done ++ [last]) : p ≠ new := by
    rintro rfl
    exact outside inside
  have total : (m.set new { fresh with totLen := rem }).Held (some new) [new] := single.set here rfl rfl
  have kept : (m.set new { fresh with totLen := rem }).Held start (done ++ [last]) :=
    held.frame (fun p inside => Pbufs.set_other (old p inside) _) (Nat.le_refl _)
  have lastCell := (Pbufs.set_other (m := m) different { fresh with totLen := rem }).trans cell
  have segs : segments ((m.set new { fresh with totLen := rem }).set last { c with next := some new }) (done ++ [last]) =
      segments m (done ++ [last]) := by
    rw [segments_append, segments_append, segments_single (Pbufs.set_self _ _ _), segments_single cell]
    refine congrArg (· ++ _) (segments_congr fun p inside => ?_)
    rw [Pbufs.set_other (apart p inside)]
    exact Pbufs.set_other (old p (List.mem_append_left _ inside)) _
  rw [Pbufs.modify_eq here, Option.bind_some, Pbufs.modify_eq lastCell]
  exact ⟨_,rfl,kept.link total outside lastCell,rfl,rfl,rfl,segs,_,(Pbufs.set_other different.symm _).trans (Pbufs.set_self _ _ _),rfl⟩

theorem Drivers.Loaded.extend (loaded : s.Loaded done last b) (sz : Nat) {rem : Nat} (more : rem ≠ 0) (answers : Answers)
    {payload : Nat → UInt8} (found : answers.p = some payload) : ∃ t, s.chunkDone sz rem answers = some t ∧
      t.Ready (done ++ [last] ++ [s.pbufs.allocated]) ∧ t.passed = s.passed ∧
      Ledger s.pbufs t.pbufs [s.pbufs.allocated] [] [] ∧
      segments t.pbufs (done ++ [last]) = segments (s.measured done last b sz rem answers.p).pbufs (done ++ [last]) ∧
      ∃ c, t.pbufs.cells s.pbufs.allocated = some c ∧ c.totLen = rem := by
  have measured := loaded.measure sz rem answers.p
  have alloc := Ledger.alloc s.pbufs pbufPoolBufsize answers.p
  have fresh := loaded.fresh_held answers.p (m := (s.measured done last b sz rem answers.p).pbufs) pbufPoolBufsize
    (fun p outside => measured_other outside sz rem answers.p) rfl
  have outside := loaded.fresh_outside pbufPoolBufsize answers.p (p := s.pbufs.allocated)
  rw [loaded.chunkDone_eq, if_neg more]
  rw [found] at measured alloc fresh outside ⊢
  have new := outside (List.mem_singleton_self s.pbufs.allocated)
  obtain ⟨m,linked,held,allocated,accepted,freed,segs,total⟩ := link_new measured.held measured.cell fresh new rem
  change ∃ t, ((s.measured done last b sz rem (some payload)).pbufs.modify s.pbufs.allocated _).bind _ = some t ∧ _
  rw [← Option.bind_assoc, linked, Option.bind_some]
  obtain ⟨t,reloaded,ready,pbufs,passed⟩ := reload_ready (s := { s with pbufs := m }) held
  refine ⟨t,reloaded,ready,passed,?_⟩
  rw [pbufs]
  refine ⟨⟨?_,accepted.trans alloc.accepted,freed.trans alloc.freed⟩,segs,total⟩
  rw [allocated]
  exact alloc.allocated

theorem Drivers.Ready.rxFirst_eq (ready : s.Ready ids) : s.rxFirst = ids.head? := ready.held.chain.start_eq

theorem Drivers.Posted.of_empty (posted : s.Posted []) :
    s.gau8ethRcvBuf = .rxBuf ∧ s.gu16ethRcvBufSize = wincRxBufSz ∨
      s.gau8ethRcvBuf = .ethBuffer ∧ s.gu16ethRcvBufSize = ethBufferSize := by
  generalize empty : ([] : List Nat) = ids at posted
  cases posted with
  | rxBuf goes size => exact Or.inl ⟨goes,size⟩
  | ethBuffer goes size => exact Or.inr ⟨goes,size⟩
  | last done last => cases done <;> contradiction

theorem Drivers.Posted.of_last (posted : s.Posted (done ++ [last])) : s.rxLast = some last ∧
    s.gau8ethRcvBuf = .payload last (offset done) ∧ s.gu16ethRcvBufSize = pbufPoolBufsize - offset done := by
  generalize chain : done ++ [last] = ids at posted
  cases posted with
  | rxBuf => cases done <;> contradiction
  | ethBuffer => cases done <;> contradiction
  | last done' last' rxLast goes size =>
    obtain ⟨rfl,same⟩ := List.append_inj' chain rfl
    cases same
    exact ⟨rxLast,goes,size⟩

private theorem Drivers.Ready.hifReceive_static (ready : s.Ready []) {data : List UInt8} (fits : data.length ≤ s.gu16ethRcvBufSize) :
    ∃ t, s.hifReceive data = some t ∧ t.pbufs = s.pbufs ∧ t.rxFirst = none ∧ t.passed = s.passed ∧
      (s.gau8ethRcvBuf ≠ .ethBuffer → (List.range data.length).map t.rxBuf = data) := by
  have first := ready.rxFirst_eq
  rcases ready.posted.of_empty with ⟨goes,size⟩ | ⟨goes,size⟩
  · rw [size] at fits
    refine ⟨{ s with rxBuf := writeAt s.rxBuf 0 data },?_,rfl,first,rfl,fun _ => ?_⟩
    · rw [hifReceive, goes]
      exact if_pos fits
    · have read := writeAt_read s.rxBuf 0 data
      simp only [Nat.zero_add] at read
      change (List.range data.length).map (fun i => writeAt s.rxBuf 0 data i) = data
      exact read
  · rw [size] at fits
    refine ⟨{ s with ethBuffer := writeAt s.ethBuffer 0 data },?_,rfl,first,rfl,fun elsewhere => absurd goes elsewhere⟩
    rw [hifReceive, goes]
    exact if_pos fits

theorem Drivers.Ready.refused (ready : s.Ready []) {data : List UInt8} (fits : data.length ≤ s.gu16ethRcvBufSize) (rem : Nat)
    (answers : Answers) (failed : answers.first = none) :
    ∃ t, s.chunk data rem answers = some t ∧ t.Ready [] ∧ t.passed = s.passed ∧ t.pbufs = s.pbufs := by
  obtain ⟨t,received,pbufs,first,passed,-⟩ := ready.hifReceive_static fits
  simp only [chunk, received, Option.bind_eq_bind, Option.bind_some, wincNetifRxCallback, first, failed, Pbufs.pbufAlloc]
  exact ⟨_,rfl,⟨Pbufs.Held.nil _,.rxBuf rfl rfl⟩,passed,pbufs⟩

theorem Drivers.Ready.overrun (ready : s.Ready []) {data : List UInt8} (fits : data.length ≤ s.gu16ethRcvBufSize) (rem : Nat)
    (answers : Answers) {payload : Nat → UInt8} (found : answers.first = some payload) (large : wincRxBufSz < data.length) :
    s.chunk data rem answers = none := by
  obtain ⟨t,received,-,first,-⟩ := ready.hifReceive_static fits
  have not : ¬ (data.length ≤ wincRxBufSz ∧ ethPadSize + data.length ≤ pbufPoolBufsize) := fun both => absurd both.1 (Nat.not_le.mpr large)
  simp only [chunk, received, Option.bind_eq_bind, Option.bind_some, wincNetifRxCallback, first, found, Pbufs.pbufAlloc, if_neg not]

theorem Drivers.Ready.begins (ready : s.Ready []) {data : List UInt8} (fits : data.length ≤ s.gu16ethRcvBufSize) (rem : Nat)
    (answers : Answers) {payload : Nat → UInt8} (found : answers.first = some payload) (small : data.length ≤ wincRxBufSz) :
    ∃ (t : Drivers) (b : Pbuf), s.chunk data rem answers = t.chunkDone data.length rem answers ∧ t.Loaded [] s.pbufs.allocated b ∧
      (s.gau8ethRcvBuf ≠ .ethBuffer → (List.range data.length).map (fun i => b.payload (offset [] + i)) = data) ∧
      t.passed = s.passed ∧ Ledger s.pbufs t.pbufs [s.pbufs.allocated] [] [] := by
  obtain ⟨t,received,pbufs,first,passed,bytes⟩ := ready.hifReceive_static fits
  have room : data.length ≤ wincRxBufSz ∧ ethPadSize + data.length ≤ pbufPoolBufsize := by
    refine ⟨small,?_⟩
    simp only [wincRxBufSz, pbufPoolBufsize, ethPadSize] at small ⊢
    omega
  have alloc := Ledger.alloc s.pbufs pbufPoolBufsize answers.first
  have fresh := Pbufs.Held.fresh s.pbufs pbufPoolBufsize answers.first
  rw [found] at alloc fresh
  obtain ⟨-,b,cell,-⟩ := fresh.live s.pbufs.allocated (List.mem_singleton_self _)
  rw [← pbufs] at alloc fresh cell ⊢
  let filled := { b with payload := writeAt b.payload ethPadSize ((List.range data.length).map t.rxBuf) }
  refine ⟨{ t with
      pbufs := (t.pbufs.pbufAlloc pbufPoolBufsize (some payload)).1.set t.pbufs.allocated filled
      rxFirst := some t.pbufs.allocated, rxLast := some t.pbufs.allocated },filled,?_,
    ⟨fresh.set cell rfl rfl,rfl,Pbufs.set_self _ _ _⟩,fun elsewhere => ?_,passed,alloc.allocated,alloc.accepted,alloc.freed⟩
  · simp only [chunk, received, Option.bind_eq_bind, Option.bind_some, wincNetifRxCallback, first, found]
    change (if _ then ((t.pbufs.pbufAlloc pbufPoolBufsize (some payload)).1.modify t.pbufs.allocated _).bind _ else _) = _
    rw [if_pos room, Pbufs.modify_eq cell, Option.bind_some]
  · have read := writeAt_read b.payload ethPadSize ((List.range data.length).map t.rxBuf)
    rw [bytes elsewhere] at read
    change (List.range data.length).map (fun i =>
      writeAt b.payload ethPadSize ((List.range data.length).map t.rxBuf) (ethPadSize + i)) = data
    rw [bytes elsewhere]
    exact read

theorem Drivers.Ready.continues (ready : s.Ready (done ++ [last])) {data : List UInt8} (fits : data.length ≤ s.gu16ethRcvBufSize)
    (rem : Nat) (answers : Answers) :
    ∃ (t : Drivers) (b c : Pbuf), s.chunk data rem answers = t.chunkDone data.length rem answers ∧ t.Loaded done last b ∧
      (List.range data.length).map (fun i => b.payload (offset done + i)) = data ∧ t.passed = s.passed ∧
      Ledger s.pbufs t.pbufs [] [] [] ∧ (∀ p ∈ done, t.pbufs.cells p = s.pbufs.cells p) ∧
      s.pbufs.cells last = some c ∧ b.totLen = c.totLen := by
  obtain ⟨rxLast,goes,size⟩ := ready.posted.of_last
  obtain ⟨-,c,cell,-⟩ := ready.held.live last (by simp)
  have room : offset done + data.length ≤ pbufPoolBufsize := by
    have small : offset done ≤ pbufPoolBufsize := by
      unfold offset
      split <;> decide
    omega
  have first : ∃ p, s.rxFirst = some p := by
    rw [ready.rxFirst_eq]
    cases done with
    | nil => exact ⟨_,rfl⟩
    | cons p done => exact ⟨_,rfl⟩
  obtain ⟨p,first⟩ := first
  refine ⟨{ s with pbufs := s.pbufs.set last { c with payload := writeAt c.payload (offset done) data } },_,c,?_,
    ⟨ready.held.set cell rfl rfl,rxLast,Pbufs.set_self _ _ _⟩,writeAt_read c.payload (offset done) data,rfl,
    ⟨(List.append_nil _).symm,(List.append_nil _).symm,(List.append_nil _).symm⟩,fun p inside => ?_,cell,rfl⟩
  · have received : s.hifReceive data =
        some { s with pbufs := s.pbufs.set last { c with payload := writeAt c.payload (offset done) data } } := by
      rw [hifReceive, goes]
      change (if offset done + data.length ≤ pbufPoolBufsize then _ else _) = _
      rw [if_pos room, Pbufs.modify_eq cell, Option.map_some]
    simp only [chunk, received, Option.bind_eq_bind, Option.bind_some, wincNetifRxCallback, first]
  · have distinct := ready.held.distinct
    rw [List.nodup_append] at distinct
    exact Pbufs.set_other (distinct.2.2 p inside last (List.mem_singleton_self last)) _

end

end PulseFirmware.Reception
