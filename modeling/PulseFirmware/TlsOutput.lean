import Mathlib.Data.List.Basic
import PulseFirmware.Lib.Run

/-! The way of the TLS records out: the library offers a record to `interface_transport_write`,
`tls_output_handler` gives it to a non-blocking `send`, and the loop of `socket_test_task`
decides by the code of `nrf_tls_write` whether to go on. A record that was refused is kept
whole by the library and offered again from its first byte. -/
namespace PulseFirmware.TlsOutput
open PulseFirmware.Run

/-- `send` on the non-blocking socket: an error, or the number of bytes it took. -/
def send (p_data : List UInt8) (socket : Option Nat) : Option Nat := socket.map (min · p_data.length)

/-- `tls_output_handler`: the bytes taken by the socket, and whether it returns `NRF_SUCCESS`. -/
def tlsOutputHandler (p_data : List UInt8) (socket : Option Nat) : List UInt8 × Bool :=
  if p_data = [] then ([],true)
  else
    let n := send p_data socket
    (p_data.take (n.getD 0),n = some p_data.length)

/-- What the library returns from a call. -/
inductive LibResult
  | written (len : Nat)
  | connEof
  | error

/-- `interface_transport_write`, with the bytes taken by the socket. -/
def interfaceTransportWrite (p_buf : List UInt8) (socket : Option Nat) : List UInt8 × LibResult :=
  let output := tlsOutputHandler p_buf socket
  (output.1,if output.2 then .written p_buf.length else .connEof)

/-- What a call of the library has done with its records. -/
structure Offered where
  accepted : List UInt8
  done : List (List UInt8)
  todo : List (List UInt8)
  failed : Bool

/-- The records the library offers in one call, until the transport refuses one. -/
def offer : List (List UInt8) → List (Option Nat) → Offered
  | [], _ => ⟨[],[],[],false⟩
  | record :: todo, [] => ⟨[],[],record :: todo,false⟩
  | record :: todo, socket :: sends =>
    match interfaceTransportWrite record socket with
    | (bytes,.written _) =>
      let rest := offer todo sends
      ⟨bytes ++ rest.accepted,record :: rest.done,rest.todo,rest.failed⟩
    | (bytes,_) => ⟨bytes,[],record :: todo,true⟩

inductive Ret
  | success
  | handshakeInProgress
  | internal
deriving DecidableEq

structure Call where
  sends : List (Option Nat)
  result : LibResult
  handshakeOver : Bool

def nrfTlsWrite (call : Call) (failed : Bool) : Ret :=
  match if failed then .connEof else call.result with
  | .written _ => .success
  | .connEof => if call.handshakeOver then .internal else .handshakeInProgress
  | .error => .internal

inductive Site
  | input
  | firstWrite
  | secondWrite (isTimeout : Bool)
  | dataWrite

/-- The loop is left; the first two calls are made for their effect only. -/
def Site.leaves (ret : Ret) : Site → Bool
  | .input | .firstWrite => false
  | .secondWrite isTimeout => ret ≠ .success && isTimeout
  | .dataWrite => ret ≠ .success

/-- A connection: the records it has sent and those to come, and the bytes the socket took. -/
structure Conn where
  isOpen : Bool
  done : List (List UInt8)
  todo : List (List UInt8)
  accepted : List UInt8
  /-- the socket took a part of a record that was then refused -/
  cut : Bool

def Conn.fresh (records : List (List UInt8)) : Conn := ⟨true,[],records,[],false⟩

/-- A call of the library, an exit from the loop for other reasons, or the next connection. -/
inductive Event
  | call (site : Site) (call : Call)
  | leave
  | reconnect (records : List (List UInt8))

def Conn.call (s : Conn) (site : Site) (call : Call) : Conn :=
  let o := offer s.todo call.sends
  { isOpen := !site.leaves (nrfTlsWrite call o.failed)
    done := s.done ++ o.done
    todo := o.todo
    accepted := s.accepted ++ o.accepted
    cut := s.cut || o.accepted ≠ o.done.flatten }

def Conn.step (s : Conn) : Event → Option Conn
  | .call site call => if s.isOpen then some (s.call site call) else none
  | .leave => if s.isOpen then some { s with isOpen := false } else none
  | .reconnect records => if s.isOpen then none else some (.fresh records)

/-- While the connection is kept, the socket has taken the first bytes of its records. -/
def Conn.Intact (s : Conn) : Prop := s.isOpen = true → s.accepted <+: (s.done ++ s.todo).flatten

instance : DecidablePred Conn.Intact := fun _ => inferInstanceAs (Decidable (_ → _))

/-- Nothing is taken from the connection once a part of a record has been. -/
def Conn.Uncut (s : Conn) : Event → Prop
  | .call _ call => s.cut = true → (offer s.todo call.sends).accepted = []
  | .leave | .reconnect _ => True

instance (s : Conn) : DecidablePred s.Uncut
  | .call _ call => inferInstanceAs (Decidable (s.cut = true → (offer s.todo call.sends).accepted = []))
  | .leave | .reconnect _ => isTrue trivial

private theorem write_cases (record : List UInt8) (socket : Option Nat) :
    interfaceTransportWrite record socket = (record,.written record.length) ∨
      ∃ n, interfaceTransportWrite record socket = (record.take n,.connEof) := by
  unfold interfaceTransportWrite tlsOutputHandler
  by_cases empty : record = []
  · subst empty
    exact Or.inl rfl
  · rw [if_neg empty]
    by_cases whole : send record socket = some record.length
    · exact Or.inl (by simp [whole])
    · exact Or.inr ⟨(send record socket).getD 0,by simp [whole]⟩

/-- A call moves records from the front; the socket takes those, and a part of the next. -/
theorem offer_spec (todo : List (List UInt8)) (sends : List (Option Nat)) :
    todo = (offer todo sends).done ++ (offer todo sends).todo ∧ (offer todo sends).accepted <+: todo.flatten := by
  induction todo generalizing sends with
  | nil => exact ⟨rfl,List.nil_prefix⟩
  | cons record todo ih =>
    cases sends with
    | nil => exact ⟨rfl,List.nil_prefix⟩
    | cons socket sends =>
      unfold offer
      rcases write_cases record socket with written | ⟨n,refused⟩
      · obtain ⟨split,start⟩ := ih sends
        rw [written, List.flatten_cons]
        exact ⟨congrArg (record :: ·) split,(List.prefix_append_right_inj record).mpr start⟩
      · rw [refused, List.flatten_cons]
        exact ⟨rfl,(List.take_prefix n record).trans (List.prefix_append _ _)⟩

structure Conn.Inv (s : Conn) : Prop where
  first : s.accepted <+: (s.done ++ s.todo).flatten
  whole : s.cut = false → s.accepted = s.done.flatten

private theorem call_inv {s : Conn} (inv : s.Inv) (site : Site) (call : Call)
    (uncut : s.cut = true → (offer s.todo call.sends).accepted = []) : (s.call site call).Inv := by
  obtain ⟨split,start⟩ := offer_spec s.todo call.sends
  have same : (s.done ++ (offer s.todo call.sends).done) ++ (offer s.todo call.sends).todo = s.done ++ s.todo := by
    rw [List.append_assoc, ← split]
  constructor
  · change s.accepted ++ _ <+: ((s.done ++ _) ++ (offer s.todo call.sends).todo).flatten
    rw [same]
    cases cut : s.cut with
    | true =>
      rw [uncut cut, List.append_nil]
      exact inv.first
    | false =>
      rw [inv.whole cut, List.flatten_append]
      exact (List.prefix_append_right_inj _).mpr start
  · intro kept
    obtain ⟨before,now⟩ := Bool.or_eq_false_iff.mp kept
    change s.accepted ++ _ = (s.done ++ _).flatten
    rw [inv.whole before, List.flatten_append]
    exact congrArg (s.done.flatten ++ ·) (by simpa using now)

private theorem step_inv {s next : Conn} {e : Event} (inv : s.Inv) (uncut : s.Uncut e) (stepped : s.step e = some next) :
    next.Inv := by
  cases e with
  | call site call =>
    simp only [Conn.step] at stepped
    split at stepped
    next =>
      cases stepped
      exact call_inv inv site call uncut
    next => contradiction
  | leave =>
    simp only [Conn.step] at stepped
    split at stepped
    next =>
      cases stepped
      exact ⟨inv.first,inv.whole⟩
    next => contradiction
  | reconnect records =>
    simp only [Conn.step] at stepped
    split at stepped
    next => contradiction
    next =>
      cases stepped
      exact ⟨List.nil_prefix,fun _ => rfl⟩

/-- In a run in which the socket takes nothing more from a connection once it has taken a part
of a record, it has taken the first bytes of the records. -/
theorem output_intact (records : List (List UInt8)) (events : List Event)
    (uncut : Meets Conn.step Conn.Uncut (.fresh records) events) :
    Always Conn.step Conn.Intact (.fresh records) events := by
  have implies (s : Conn) (inv : s.Inv) : s.Intact := fun _ => inv.first
  have start : (Conn.fresh records).Inv := ⟨List.nil_prefix,fun _ => rfl⟩
  exact always_of_invariant (fun _ _ _ inv met stepped => step_inv inv met stepped) implies start uncut

/-- The first record goes in a second attempt, of the next one the socket takes two bytes, the loop is left,
and the next connection has a record that goes at once. -/
def retried : List Event :=
  [.call .firstWrite ⟨[none],.connEof,false⟩,.call (.secondWrite false) ⟨[some 3],.connEof,false⟩,
    .call .dataWrite ⟨[some 2],.connEof,true⟩,.reconnect [[7]],.call .dataWrite ⟨[some 1],.written 1,true⟩]

theorem output_intact_retried : Always Conn.step Conn.Intact (.fresh [[1,2,3],[4,5,6]]) retried :=
  output_intact [[1,2,3],[4,5,6]] retried (by decide)

/-- The first two bytes of a handshake record are sent twice. -/
theorem output_repeated : ¬ Always Conn.step Conn.Intact (.fresh [[1,2,3]])
    [.call .firstWrite ⟨[some 2],.connEof,false⟩,.call (.secondWrite false) ⟨[some 3],.connEof,false⟩] := by
  decide

end PulseFirmware.TlsOutput
