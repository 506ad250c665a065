import PulseFirmware.Lib.Run
import PulseFirmware.Storage
import PulseFirmware.RequestText
import PulseFirmware.SocketTask

/-! When the task asks for a restart of the device: `write_error` is read at each connection, and a
count of the iterations in which no request was due sets it. -/
namespace PulseFirmware.SocketTest
open PulseFirmware.CString PulseFirmware.Printf PulseFirmware.Http PulseFirmware.Run

def Calm (t : Traced) : Prop :=
  t.task.restartSystem = false ∧ ∀ g : Globals, g.restartSystem = t.task.restartSystem → Stage.restart.guard g = false

private theorem calm_iff (t : Traced) : Calm t ↔ t.task.restartSystem = false := by
  refine ⟨And.left,fun unset => ⟨unset,fun g same => ?_⟩⟩
  rw [Stage.guard, same, unset]
  rfl

private structure Advance (t t' : Task) (actions : List Action) : Prop where
  restart : t'.restartSystem = t.restartSystem
  errors : (actions.count .early = 0 ∧ t'.writeErrorCount = t.writeErrorCount ∧ t'.writeError = t.writeError) ∨
    (actions.count .early = 1 ∧ t'.writeErrorCount = t.writeErrorCount + 1 ∧
      t'.writeError = if 200 < t.writeErrorCount + 1 then 1 else t.writeError)

private theorem advance_from {t t₁ t' : Task} (before : List Action) {actions : List Action} (advance : Advance t₁ t' actions)
    (silent : .early ∉ before) (restart : t₁.restartSystem = t.restartSystem)
    (count : t₁.writeErrorCount = t.writeErrorCount) (error : t₁.writeError = t.writeError) :
    Advance t t' (before ++ actions) := by
  refine ⟨advance.restart.trans restart,?_⟩
  rw [List.count_append, List.count_eq_zero.mpr silent, Nat.zero_add, ← count, ← error]
  exact advance.errors

private theorem advance_none {t t' : Task} {actions : List Action} (silent : .early ∉ actions)
    (restart : t'.restartSystem = t.restartSystem) (count : t'.writeErrorCount = t.writeErrorCount)
    (error : t'.writeError = t.writeError) : Advance t t' actions :=
  ⟨restart,.inl ⟨List.count_eq_zero.mpr silent,count,error⟩⟩

section
variable {V : Type}

private theorem advance_sendRequest (t : Task) (i : Iteration V) : Advance t (t.sendRequest i).1 (t.sendRequest i).2 := by
  unfold Task.sendRequest
  dsimp only
  split
  next => split_ifs <;> exact advance_none (by simp) rfl rfl rfl
  next => exact ⟨rfl,.inr ⟨rfl,rfl,rfl⟩⟩

private theorem advance_readTls (t : Task) (i : Iteration V) : Advance t (t.readTls i).1 (t.readTls i).2 := by
  have advance := advance_sendRequest (if i.tlsRead then { t with waitingForResponse := false } else t) i
  refine advance_from [] advance List.not_mem_nil ?_ ?_ ?_ <;> split <;> rfl

private theorem advance_receive (t : Task) (i : Iteration V) : Advance t (t.receive i).1 (t.receive i).2 := by
  unfold Task.receive
  split
  next =>
    split
    next => exact advance_from [.received] (advance_readTls _ i) (by simp) rfl rfl rfl
    next => exact advance_none List.not_mem_nil rfl rfl rfl
  next => exact advance_readTls t i

private theorem advance_select (t : Task) (i : Iteration V) : Advance t (t.select i).1 (t.select i).2 := by
  obtain ⟨inside,wifi,actions,timedOut,kind⟩ := selectTimeout_eq t
  have silent : .early ∉ actions := by
    rcases kind with rfl | ⟨k,text,rfl⟩ <;> simp
  unfold Task.select
  rw [timedOut]
  split
  next => exact advance_none List.not_mem_nil rfl rfl rfl
  next =>
    split
    next =>
      dsimp only
      split
      next => exact advance_none silent rfl rfl rfl
      next => exact advance_from _ (advance_receive _ i) silent rfl rfl rfl
    next => exact advance_receive t i

/-- The early iterations so far decide what `write_error` and its count hold. -/
private structure Tally (u : Uninitialised) (t : Task) (n : Nat) : Prop where
  few : n ≤ 200 → t.writeErrorCount.toNat = n ∧ t.writeError = u.writeError
  many : 200 < n → t.writeError = 1

private theorem tally_advance {u : Uninitialised} {t t' : Task} {past actions : List Action}
    (tally : Tally u t (past.count .early)) (advance : Advance t t' actions) : Tally u t' ((past ++ actions).count .early) := by
  rw [List.count_append]
  rcases advance.errors with ⟨none,count,error⟩ | ⟨one,count,error⟩
  · rw [none, Nat.add_zero]
    exact ⟨fun few => count ▸ error ▸ tally.few few,fun many => error.trans (tally.many many)⟩
  · rw [one]
    have next (few : past.count .early ≤ 200) : (t.writeErrorCount + 1).toNat = past.count .early + 1 := by
      rw [UInt8.toNat_add, (tally.few few).1]
      exact Nat.mod_eq_of_lt (by change past.count .early + 1 < 256; omega)
    constructor
    · intro few
      have earlier : past.count .early ≤ 200 := by omega
      have within : ¬ 200 < t.writeErrorCount + 1 := by
        rw [UInt8.lt_iff_toNat_lt, next earlier]
        exact Nat.not_lt.mpr few
      rw [count, error, if_neg within]
      exact ⟨next earlier,(tally.few earlier).2⟩
    · intro many
      rw [error]
      split
      next => rfl
      next within =>
        refine tally.many (Nat.lt_of_not_le fun few => within ?_)
        rw [UInt8.lt_iff_toNat_lt, next few]
        exact many

/-- A connection succeeds after 200 early iterations at most, and `write_error` did not start as 1. -/
def Patient (u : Uninitialised) (t : Traced) : Event V → Prop
  | .connectToAddr socketFd _ => 0 ≤ socketFd → u.writeError ≠ 1 ∧ t.past.count .early ≤ 200
  | _ => True

variable {c : Conversions V}

private theorem advance_connectFailed (t : Task) : Advance t t.connectFailed.1 t.connectFailed.2 := by
  obtain ⟨issue,check,wifi,actions,failed,kind⟩ := connectFailed_eq t
  rw [failed]
  rcases kind with rfl | ⟨k,text,rfl⟩ <;> exact advance_none (by simp) rfl rfl rfl

private theorem tally_step {u : Uninitialised} (t : Traced) (e : Event V) (t' : Traced)
    (tally : Tally u t.task (t.past.count .early)) (stepped : t.step c e = some t') :
    Tally u t'.task (t'.past.count .early) ∧ (t.task.restartSystem = false → (t'.task.restartSystem = false ↔ Patient u t e)) := by
  obtain ⟨actions,_,past,kind⟩ := step_cases stepped
  clear stepped
  obtain ⟨next,_⟩ := t'
  dsimp only at past kind ⊢
  subst past
  cases kind with
  | network w =>
    exact ⟨tally_advance tally (advance_none List.not_mem_nil rfl rfl rfl),fun unset => ⟨fun _ => trivial,fun _ => unset⟩⟩
  | failed socketFd now out negative =>
    have advance := advance_connectFailed t.task
    refine ⟨tally_advance tally advance,fun unset => ⟨fun _ valid => absurd valid (Int.not_le.mpr negative),fun _ => ?_⟩⟩
    exact advance.restart.trans unset
  | connected socketFd now out valid =>
    have calm : (t.past ++ [Action.connected]).count .early = t.past.count .early := by rw [List.count_append]; rfl
    refine ⟨?_,fun unset => ?_⟩
    · rw [calm]
      exact ⟨tally.few,tally.many⟩
    · have set : (t.task.connected now).1.restartSystem = false ↔ t.task.writeError ≠ 1 := by
        change (decide (t.task.writeError = 1) || t.task.restartSystem) = false ↔ _
        rw [unset, Bool.or_false, decide_eq_false_iff_not]
      refine set.trans ⟨fun ne _ => ?_,fun patient => ?_⟩
      · have few : t.past.count .early ≤ 200 := Nat.le_of_not_lt fun many => ne (tally.many many)
        rw [← (tally.few few).2]
        exact ⟨ne,few⟩
      · obtain ⟨start,few⟩ := patient valid
        rw [(tally.few few).2]
        exact start
  | iteration i buffers inside built =>
    have advance : Advance t.task _ _ :=
      advance_from [] (advance_select (t.task.waited buffers i) i) List.not_mem_nil rfl rfl rfl
    exact ⟨tally_advance tally advance,fun unset => ⟨fun _ => trivial,fun _ => advance.restart.trans unset⟩⟩

/-- In a run the task never asks for a restart exactly when `write_error` does not happen to start as 1 and
every connection succeeds after 200 early iterations at most; whether writes fail makes no difference. -/
theorem restart_unset (u : Uninitialised) (wifi : WifiFlags) (es : List (Event V)) :
    Always (Traced.step c) Calm (.start u wifi) es ↔ Meets (Traced.step c) (Patient u) (.start u wifi) es := by
  have keeps (t : Traced) (e : Event V) (t' : Traced) (tally : Tally u t.task (t.past.count .early))
      (stepped : t.step c e = some t') : Tally u t'.task (t'.past.count .early) := (tally_step t e t' tally stepped).1
  refine always_iff_meets keeps ?_ ⟨fun _ => ⟨rfl,rfl⟩,?_⟩ ?_
  · intro t e t' tally calm stepped
    rw [calm_iff] at calm ⊢
    exact (tally_step t e t' tally stepped).2 calm
  · exact fun many => absurd many (Nat.not_lt_zero _)
  · exact (calm_iff _).mpr rfl

end

/-- The first connection, with 1 in the uninitialised `write_error`. -/
theorem restart_without_error :
    ¬ ∀ (u : Uninitialised) (wifi : WifiFlags) (es : List (Event Nat)),
      Always (Traced.step wholeNumbers) (fun t => ∀ text, .tlsWrite text false ∉ t.past) (.start u wifi) es →
        Always (Traced.step wholeNumbers) Calm (.start u wifi) es := by
  intro every
  have calm := every ⟨false,false,1,0,fun _ => 0⟩ ⟨false,false⟩ [.connectToAddr 3 0] (by
    refine ⟨fun text => List.not_mem_nil,fun next stepped text => ?_⟩
    cases stepped
    exact fun member => nomatch List.mem_singleton.mp member)
  have unset := (calm.2 _ rfl).1
  contradiction

end PulseFirmware.SocketTest
