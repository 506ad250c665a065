import PulseFirmware.Lib.Run
import PulseFirmware.Lib.Streak
import PulseFirmware.SocketTask
import PulseFirmware.RequestText

/-! The reports of a failed internet connection, and the failures that come before each. -/
namespace PulseFirmware.SocketTest
open PulseFirmware.CString PulseFirmware.Printf PulseFirmware.Http PulseFirmware.Run PulseFirmware.Streak

def Action.success : Action → Bool
  | .connected | .received => true
  | _ => false

def Counter.asks : Counter → Nat
  | .socketConnIssue => 13
  | .countCheckInternet => 4
  | .countInsideSelect => 3

def Action.demand : Action → Option (Action × Nat)
  | .bleSerialSend k text => if text = "failed internet\n" then some (k.failure,k.asks) else none
  | _ => none

private theorem asks_eq (k : Counter) : k.asks = k.bound.toNat + 1 := by cases k <;> rfl

private theorem next_count {n : UInt8} {k : Counter} (below : n ≤ k.bound) : (n + 1).toNat = n.toNat + 1 := by
  have bounded : k.bound.toNat ≤ 12 := by cases k <;> decide
  have small := UInt8.le_iff_toNat_le.mp below
  rw [UInt8.toNat_add]
  exact Nat.mod_eq_of_lt (by change n.toNat + 1 < 256; omega)

/-- No counter is ahead of the failures since the last success, and every report had its failures. -/
structure Books (t : Task) (past : List Action) : Prop where
  series : ∀ k, Series Action.success k.failure (t.count k).toNat past
  below : ∀ k, t.count k ≤ k.bound
  preceded : Preceded Action.success Action.demand past

private theorem books_same {t t' : Task} {past : List Action} (books : Books t past) (same : ∀ k, t'.count k = t.count k) :
    Books t' past :=
  ⟨fun k => same k ▸ books.series k,fun k => same k ▸ books.below k,books.preceded⟩

private theorem books_quiet {t t' : Task} {past actions : List Action} (books : Books t past)
    (same : ∀ k, t'.count k = t.count k) (quiet : ∀ a ∈ actions, a.success = false ∧ a.demand = none) :
    Books t' (past ++ actions) := by
  refine ⟨fun k => ?_,fun k => same k ▸ books.below k,preceded_append books.preceded fun a member => (quiet a member).2⟩
  rw [same k]
  exact series_weaken (series_append (books.series k) fun a member => (quiet a member).1) (Nat.le_add_right _ _)

private theorem books_success {t t' : Task} {past : List Action} {a : Action} (books : Books t past)
    (same : ∀ k, t'.count k = t.count k) (zero : ∀ k, t.count k = 0) (silent : a.demand = none) : Books t' (past ++ [a]) := by
  refine ⟨fun k => ?_,fun k => same k ▸ books.below k,preceded_append books.preceded ?_⟩
  · rw [same k, zero k]
    exact series_zero k.failure _
  · exact fun b member => List.mem_singleton.mp member ▸ silent

@[simp] theorem count_setCount (t : Task) (k : Counter) (n : UInt8) (k' : Counter) :
    (t.setCount k n).count k' = if k' = k then n else t.count k' := by
  cases k <;> cases k' <;> rfl

@[simp] theorem count_lower (t : Task) (k k' : Counter) : (t.lower k).count k' = t.count k' := by
  cases k <;> cases k' <;> rfl

private theorem failure_plain (k : Counter) : k.failure.success = false ∧ k.failure.demand = none := by
  cases k <;> exact ⟨rfl,rfl⟩

private theorem books_counted {t : Task} {past : List Action} (books : Books t past) (k : Counter) :
    Books (t.counted k).1 (past ++ (t.counted k).2) := by
  have next := next_count (books.below k)
  have failed : Series Action.success k.failure ((t.count k).toNat + 1) (past ++ [k.failure]) := by
    have quiet : ∀ a ∈ [k.failure], a.success = false := fun a member => List.mem_singleton.mp member ▸ (failure_plain k).1
    have longer := series_append (books.series k) quiet
    rwa [List.count_singleton_self] at longer
  -- whatever is sent, the failures of the other counters stay
  have kept (text : String) (k' : Counter) :
      Series Action.success k'.failure (t.count k').toNat (past ++ [k.failure,.bleSerialSend k text]) := by
    refine series_weaken (series_append (books.series k') fun a member => ?_) (Nat.le_add_right _ _)
    rcases List.mem_cons.mp member with rfl | sent
    · exact (failure_plain k).1
    · exact List.mem_singleton.mp sent ▸ rfl
  have upTo : Preceded Action.success Action.demand (past ++ [k.failure]) :=
    preceded_append books.preceded fun a member => List.mem_singleton.mp member ▸ (failure_plain k).2
  unfold Task.counted
  simp only [count_setCount, ↓reduceIte]
  split
  next above =>
    refine ⟨fun k' => ?_,fun k' => ?_,?_⟩
    · simp only [count_setCount, count_lower]
      split
      next => exact series_zero k'.failure _
      next => exact kept _ k'
    · simp only [count_setCount, count_lower]
      split
      next => exact UInt8.le_iff_toNat_le.mpr (Nat.zero_le _)
      next => exact books.below k'
    · have enough : k.asks ≤ (t.count k).toNat + 1 := by
        have more := UInt8.lt_iff_toNat_lt.mp above
        rw [next] at more
        rw [asks_eq]
        exact more
      dsimp only
      rw [List.append_cons]
      refine preceded_snoc upTo fun x n demanded => ?_
      cases demanded
      exact series_weaken failed enough
  next within =>
    refine ⟨fun k' => ?_,fun k' => ?_,?_⟩
    · simp only [count_setCount]
      split
      next here =>
        subst here
        rw [next, List.append_cons]
        have quiet : ∀ a ∈ [Action.bleSerialSend k' "success trying to connect\n"], a.success = false :=
          fun a member => List.mem_singleton.mp member ▸ rfl
        exact series_weaken (series_append failed quiet) (Nat.le_add_right _ _)
      next => exact kept _ k'
    · simp only [count_setCount]
      split
      next here =>
        subst here
        exact UInt8.not_lt.mp within
      next => exact books.below k'
    · dsimp only
      rw [List.append_cons]
      exact preceded_append upTo fun a member => List.mem_singleton.mp member ▸ rfl

section
variable {V : Type}

private theorem sendRequest_quiet (t : Task) (i : Iteration V) : (∀ k, (t.sendRequest i).1.count k = t.count k) ∧
    ∀ a ∈ (t.sendRequest i).2, a.success = false ∧ a.demand = none := by
  unfold Task.sendRequest
  dsimp only
  split_ifs <;> exact ⟨fun k => by cases k <;> rfl,by simp [Action.success, Action.demand]⟩

private theorem readTls_quiet (t : Task) (i : Iteration V) : (∀ k, (t.readTls i).1.count k = t.count k) ∧
    ∀ a ∈ (t.readTls i).2, a.success = false ∧ a.demand = none := by
  obtain ⟨same,quiet⟩ := sendRequest_quiet (if i.tlsRead then { t with waitingForResponse := false } else t) i
  refine ⟨fun k => (same k).trans ?_,quiet⟩
  split <;> cases k <;> rfl

def Task.receives (t : Task) (i : Iteration V) : Bool :=
  decide (0 ≤ i.rc) && !(i.rc = 0 && t.waitingForResponse) && i.fdIsSet && decide (0 < i.recvRet)

private theorem books_receive {t : Task} {past : List Action} (books : Books t past) (i : Iteration V)
    (rested : i.fdIsSet = true → 0 < i.recvRet → ∀ k, t.count k = 0) : Books (t.receive i).1 (past ++ (t.receive i).2) := by
  unfold Task.receive
  split
  next set =>
    split
    next positive =>
      obtain ⟨same,quiet⟩ := readTls_quiet { t with isTimeout := false } i
      have received : Books { t with isTimeout := false } (past ++ [.received]) :=
        books_success books (fun k => by cases k <;> rfl) (rested set positive) rfl
      dsimp only
      rw [List.append_cons]
      exact books_quiet received same quiet
    next =>
      exact books_quiet books (fun k => by cases k <;> rfl) fun a none => absurd none List.not_mem_nil
  next =>
    obtain ⟨same,quiet⟩ := readTls_quiet t i
    exact books_quiet books same quiet

private theorem receive_count (t : Task) (i : Iteration V) (k : Counter) : (t.receive i).1.count k = t.count k := by
  unfold Task.receive
  split
  next =>
    split
    next =>
      refine ((readTls_quiet _ i).1 k).trans ?_
      cases k <;> rfl
    next => cases k <;> rfl
  next => exact (readTls_quiet t i).1 k

private theorem books_selectTimeout {t : Task} {past : List Action} (books : Books t past) :
    Books t.selectTimeout.1 (past ++ t.selectTimeout.2) := by
  unfold Task.selectTimeout
  dsimp only
  split
  next =>
    have counted := books_counted books .countInsideSelect
    exact books_same counted fun k => by cases k <;> rfl
  next =>
    exact books_quiet books (fun k => by cases k <;> rfl) fun a member => List.mem_singleton.mp member ▸ ⟨rfl,rfl⟩

private theorem selectTimeout_count (t : Task) {k : Counter} (other : k ≠ .countInsideSelect) :
    t.selectTimeout.1.count k = t.count k := by
  obtain ⟨inside,wifi,actions,timedOut,_⟩ := selectTimeout_eq t
  rw [timedOut]
  cases k with
  | countInsideSelect => contradiction
  | _ => rfl

def Task.selected (t : Task) (i : Iteration V) : Task := if i.rc = 0 then t.selectTimeout.1 else t

private theorem books_select {t : Task} {past : List Action} (books : Books t past) (i : Iteration V)
    (rested : t.receives i = true → ∀ k, (t.selected i).count k = 0) : Books (t.select i).1 (past ++ (t.select i).2) := by
  have closed {t : Task} {past : List Action} (books : Books t past) : Books t.leave past :=
    books_same books fun k => by cases k <;> rfl
  unfold Task.select
  split
  next =>
    rw [List.append_nil]
    exact closed books
  next going =>
    have nonnegative : 0 ≤ i.rc := Int.not_lt.mp going
    split
    next timedOut =>
      have after := books_selectTimeout books
      have waiting : t.selectTimeout.1.waitingForResponse = t.waitingForResponse := by
        obtain ⟨inside,wifi,actions,timedOut,_⟩ := selectTimeout_eq t
        rw [timedOut]
      dsimp only
      split
      next => exact closed after
      next free =>
        rw [← List.append_assoc]
        refine books_receive after i fun set positive k => ?_
        rw [waiting] at free
        have zero := rested (by simp [Task.receives, timedOut, free, set, positive]) k
        rwa [Task.selected, if_pos timedOut] at zero
    next ready =>
      refine books_receive books i fun set positive k => ?_
      have zero := rested (by simp [Task.receives, nonnegative, ready, set, positive]) k
      rwa [Task.selected, if_neg ready] at zero

private theorem selectTimeout_inside (t : Task) : t.selectTimeout.1.countInsideSelect =
    if t.wifi.wifiDisconnected = true then if 2 < t.countInsideSelect + 1 then 0 else t.countInsideSelect + 1
    else t.countInsideSelect := by
  unfold Task.selectTimeout
  dsimp only
  split
  next =>
    change (t.counted .countInsideSelect).1.count .countInsideSelect = _
    unfold Task.counted
    simp only [count_setCount, ↓reduceIte]
    change (if 2 < t.countInsideSelect + 1 then _ else _ : Task × List Action).1.count .countInsideSelect = _
    split
    next => simp only [count_setCount, ↓reduceIte]
    next => rfl
  next => rfl

private theorem selected_buffers (t : Task) (buffers buffers' : Buffers) (i : Iteration V) :
    ((t.waited buffers i).selected i).countInsideSelect = ((t.waited buffers' i).selected i).countInsideSelect := by
  unfold Task.selected
  split
  next =>
    rw [selectTimeout_inside, selectTimeout_inside]
    rfl
  next => rfl

private theorem select_count (t : Task) (i : Iteration V) {k : Counter} (other : k ≠ .countInsideSelect) :
    (t.select i).1.count k = t.count k := by
  have closed (t : Task) : t.leave.count k = t.count k := by cases k <;> rfl
  unfold Task.select
  split
  next => exact closed t
  next =>
    split
    next =>
      dsimp only
      split
      next => exact (closed _).trans (selectTimeout_count t other)
      next => exact (receive_count _ i k).trans (selectTimeout_count t other)
    next => exact receive_count t i k

/-- No failure is still counted when a connection succeeds, nor a timeout when data is received. -/
def Settled (t : Traced) : Event V → Prop
  | .network _ => True
  | .connectToAddr socketFd _ =>
    0 ≤ socketFd → t.task.socketConnIssue = 0 ∧ t.task.countCheckInternet = 0 ∧ t.task.countInsideSelect = 0
  | .iteration i => t.task.receives i = true → ((t.task.waited t.task.buffers i).selected i).countInsideSelect = 0

instance (t : Traced) : (e : Event V) → Decidable (Settled t e)
  | .network _ => inferInstanceAs (Decidable True)
  | .connectToAddr socketFd _ => inferInstanceAs (Decidable (0 ≤ socketFd → _))
  | .iteration i => inferInstanceAs (Decidable (t.task.receives i = true → _))

private structure Inv (t : Traced) : Prop where
  books : Books t.task t.past
  inside : t.task.inLoop = true → ∀ k, k ≠ .countInsideSelect → t.task.count k = 0

variable {c : Conversions V}

private theorem connectFailed_inLoop (t : Task) : t.connectFailed.1.inLoop = t.inLoop := by
  obtain ⟨issue,check,wifi,actions,failed,_⟩ := connectFailed_eq t
  rw [failed]

private theorem books_connectFailed {t : Task} {past : List Action} (books : Books t past) :
    Books t.connectFailed.1 (past ++ t.connectFailed.2) := by
  have started : Books { t with checkInternet := false } past := books_same books fun k => by cases k <;> rfl
  unfold Task.connectFailed
  dsimp only
  split
  next => exact books_counted started .socketConnIssue
  next =>
    split
    next => exact books_counted started .countCheckInternet
    next => exact books_quiet started (fun _ => rfl) fun a member => List.mem_singleton.mp member ▸ ⟨rfl,rfl⟩

private theorem inv_step (t : Traced) (e : Event V) (t' : Traced) (inv : Inv t) (settled : Settled t e)
    (stepped : t.step c e = some t') : Inv t' := by
  obtain ⟨actions,_,past,kind⟩ := step_cases stepped
  clear stepped
  obtain ⟨next,_⟩ := t'
  dsimp only at past kind
  subst past
  cases kind with
  | network w =>
    refine ⟨?_,fun inside k => ?_⟩
    · exact books_quiet inv.books (fun k => by cases k <;> rfl) fun a none => absurd none List.not_mem_nil
    · exact (by cases k <;> rfl : Task.count { t.task with wifi := t.task.wifi.after w } k = t.task.count k) ▸ inv.inside inside k
  | failed socketFd now out negative =>
    refine ⟨books_connectFailed inv.books,fun inside => ?_⟩
    dsimp only at inside
    rw [connectFailed_inLoop, out] at inside
    contradiction
  | connected socketFd now out valid =>
    obtain ⟨first,second,third⟩ := settled valid
    have zero (k : Counter) : t.task.count k = 0 := by
      cases k
      · exact first
      · exact second
      · exact third
    exact ⟨books_success inv.books (fun k => by cases k <;> rfl) zero rfl,fun _ k _ => zero k⟩
  | iteration i buffers inside built =>
    have same (k : Counter) : (t.task.waited buffers i).count k = t.task.count k := by cases k <;> rfl
    have waited : Books (t.task.waited buffers i) t.past := books_same inv.books same
    refine ⟨books_select waited i fun received k => ?_,fun _ k other => ?_⟩
    · by_cases here : k = .countInsideSelect
      · subst here
        exact (selected_buffers t.task buffers t.task.buffers i).trans (settled received)
      · have kept : ((t.task.waited buffers i).selected i).count k = (t.task.waited buffers i).count k := by
          unfold Task.selected
          split
          next => exact selectTimeout_count _ here
          next => rfl
        exact kept.trans ((same k).trans (inv.inside inside k here))
    · exact (select_count _ i other).trans ((same k).trans (inv.inside inside k other))

/-- When no successful connection finds a failure still counted, and no received data a timeout, then
every report of a failed connection comes after as many failures as its counter asks for, with no
success between them. -/
theorem reports_preceded (u : Uninitialised) (wifi : WifiFlags) (es : List (Event V))
    (settled : Meets (Traced.step c) Settled (.start u wifi) es) :
    Always (Traced.step c) (fun t => Preceded Action.success Action.demand t.past) (.start u wifi) es := by
  refine always_of_invariant inv_step (fun _ inv => inv.books.preceded) ⟨⟨?_,?_,preceded_nil⟩,?_⟩ settled
  · intro k
    cases k <;> exact series_zero _ _
  · intro k
    cases k <;> exact UInt8.le_iff_toNat_le.mpr (Nat.zero_le _)
  · intro inside
    contradiction

end

private def erased : Http.Source Nat :=
  ⟨List.Vector.replicate 240 0xff,literal "token",literal "pulse.com",literal "1234",fun _ => 21⟩

/-- A connection over which data comes and no request can be written, and four failures behind it. -/
def answered : List (Event Nat) :=
  [.connectToAddr 3 0,.iteration ⟨erased,[],1,true,5,true,1,true,false,1⟩] ++ List.replicate 4 (.connectToAddr (-1) 0)

private theorem failures_settled (n : Nat) (t : Traced) :
    Meets (Traced.step wholeNumbers) Settled t (List.replicate n (.connectToAddr (-1) 0)) := by
  induction n generalizing t with
  | zero => trivial
  | succ n ih => exact fun next _ => ⟨fun connected => absurd connected (by decide),ih next⟩

private theorem answered_settled : Meets (Traced.step wholeNumbers) Settled (.start ⟨false,false,0,0,fun _ => 0⟩ ⟨false,true⟩) answered := by
  intro next stepped
  cases stepped
  exact ⟨fun _ => ⟨rfl,rfl,rfl⟩,fun next _ => ⟨fun _ => rfl,failures_settled 4 next⟩⟩

theorem reports_preceded_answered :
    Always (Traced.step wholeNumbers) (fun t => Preceded Action.success Action.demand t.past)
      (.start ⟨false,false,0,0,fun _ => 0⟩ ⟨false,true⟩) answered :=
  reports_preceded _ _ answered answered_settled

private def trying : Action := .bleSerialSend .countCheckInternet "success trying to connect\n"

/-- Three failures, a success, a failing `select` and one more failure. -/
private theorem early_report (u : Uninitialised) : ∃ es t, run (Traced.step wholeNumbers) (.start u ⟨false,true⟩) es = some t ∧
    t.past = [.connectFailed,trying,.connectFailed,trying,.connectFailed,trying] ++
      .connected :: [.connectFailed,.bleSerialSend .countCheckInternet "failed internet\n"] := by
  have unknown : branchFor erased.configString1 = none := branchFor_none (by decide +kernel)
  let i : Iteration Nat := ⟨erased,[],-1,false,0,false,1,false,false,1⟩
  let start : Task := .start u ⟨false,true⟩
  let t : Traced := ⟨(start.connectFailed.1.connectFailed.1.connectFailed.1.connected 0).1,
    [.connectFailed,trying,.connectFailed,trying,.connectFailed,trying,.connected]⟩
  have first : run (Traced.step wholeNumbers) (.start u ⟨false,true⟩)
      [.connectToAddr (-1) 0,.connectToAddr (-1) 0,.connectToAddr (-1) 0,.connectToAddr 3 0] = some t := rfl
  obtain ⟨buffers,built⟩ := request_skipped wholeNumbers i.source t.task.buffers unknown (by decide +kernel)
  have going : ¬ 1440 < t.task.restartPulseCount := by
    change ¬ (1440 : UInt16) < 0
    decide
  have second := traced_step wholeNumbers (iteration_taken wholeNumbers (i := i) rfl going built)
  refine ⟨[.connectToAddr (-1) 0,.connectToAddr (-1) 0,.connectToAddr (-1) 0,.connectToAddr 3 0] ++
    [.iteration i,.connectToAddr (-1) 0],⟨(t.task.waited buffers i).leave.connectFailed.1,
      t.past ++ [] ++ (t.task.waited buffers i).leave.connectFailed.2⟩,?_,?_⟩
  · rw [run_append, first, Option.bind_some, run, second]
    rfl
  · rfl

theorem success_between :
    ¬ ∀ (u : Uninitialised) (wifi : WifiFlags) (es : List (Event Nat)),
      Always (Traced.step wholeNumbers) (fun t => Preceded Action.success Action.demand t.past) (.start u wifi) es := by
  intro every
  obtain ⟨es,t,reached,past⟩ := early_report ⟨false,false,0,0,fun _ => 0⟩
  have preceded := always_beginnings.mp (every _ ⟨false,true⟩ es) es List.prefix_rfl t reached
  rw [past] at preceded
  have series := preceded ([.connectFailed,trying,.connectFailed,trying,.connectFailed,trying] ++ .connected :: [.connectFailed])
    (.bleSerialSend .countCheckInternet "failed internet\n") [] rfl .connectFailed 4 rfl
  exact absurd (series_broken rfl series) (by decide)

end PulseFirmware.SocketTest
