import Mathlib.Data.List.Basic
import PulseFirmware.Lib.Run

/-! The way of received bytes into the TLS library: `recv` in `socket_test_task`, then
`nrf_tls_input`, which writes them to the input FIFO. The FIFO is that of the SDK, known here by
what its documentation says of it. -/
namespace PulseFirmware.TlsInput
open PulseFirmware.Run

inductive Ret
  | success
  | noMem
  | notFound
deriving DecidableEq

/-- `app_fifo_t` with `app_fifo_write`, which returns a code and the count in `*p_size`. -/
structure AppFifo (φ : Type) where
  room : φ → Nat
  content : φ → List UInt8
  write : φ → Option (List UInt8) → Nat → φ × Ret × Nat

/-- `app_fifo_write`: without data it only tells the room, a full FIFO is an error, and as many
bytes are queued as there is room for. -/
structure AppFifo.Documented {φ : Type} (fifo : AppFifo φ) : Prop where
  full : ∀ f data size, fifo.room f = 0 → fifo.write f data size = (f,.noMem,0)
  query : ∀ f size, 0 < fifo.room f → fifo.write f none size = (f,.success,fifo.room f)
  store : ∀ f data size, 0 < fifo.room f → ∃ f', fifo.write f (some data) size =
    (f',.success,min size (fifo.room f)) ∧ fifo.content f' = fifo.content f ++ data.take (min size (fifo.room f))

section
variable {φ : Type} (fifo : AppFifo φ)

/-- `nrf_tls_input`, up to `interface_continue`; `registered` is `m_interface[id] != NULL`. -/
def nrfTlsInput (registered : Bool) (f : φ) (p_data : List UInt8) : φ × Ret :=
  if registered then
    let (f,errCode,actualSize) := fifo.write f none 0
    if errCode = .success then
      -- avoid partial write
      if p_data.length ≤ actualSize then
        let (f,errCode,_) := fifo.write f (some p_data) p_data.length
        (f,errCode)
      else (f,errCode)
    else (f,.noMem)
  else (f,.notFound)

/-- A connection: its TLS instance, and the bytes received and queued since it was made. -/
structure Conn (φ : Type) where
  registered : Bool
  fifo : φ
  received : List UInt8
  queued : List UInt8
  /-- a chunk was not queued -/
  lost : Bool

def Conn.fresh (registered : Bool) (f : φ) : Conn φ := ⟨registered,f,[],[],false⟩

/-- `recv` returned a chunk, the library has read from the FIFO, or the loop was left and the
next connection was made. -/
inductive Event (φ : Type)
  | recv (data : List UInt8)
  | level (f : φ)
  | reconnect (registered : Bool) (f : φ)

def Conn.fits (s : Conn φ) (data : List UInt8) : Bool := s.registered && data.length ≤ fifo.room s.fifo

/-- The receiving part of the loop; the code of `nrf_tls_input` is only logged. -/
def Conn.input (s : Conn φ) (data : List UInt8) : Conn φ :=
  let (f,_) := nrfTlsInput fifo s.registered s.fifo data
  { s with
    fifo := f
    received := s.received ++ data
    queued := s.queued ++ (fifo.content f).drop (fifo.content s.fifo).length
    lost := s.lost || !s.fits fifo data }

def Conn.step (s : Conn φ) : Event φ → Option (Conn φ)
  | .recv data => if 1 ≤ data.length ∧ data.length ≤ 2048 then some (s.input fifo data) else none
  | .level f => some { s with fifo := f }
  | .reconnect registered f => some (.fresh registered f)

/-- The bytes in the FIFO are the first of those received. -/
def Conn.Gapless (s : Conn φ) : Prop := s.queued <+: s.received

/-- A chunk that is queued does not come after one of its connection that was not. -/
def Conn.Unbroken (s : Conn φ) : Event φ → Prop
  | .recv data => s.fits fifo data = true → s.lost = false
  | .level _ | .reconnect _ _ => True

variable {fifo}

/-- What `nrf_tls_input` does: the whole chunk is queued, or nothing. -/
theorem nrfTlsInput_cases (documented : fifo.Documented) (s : Conn φ) (data : List UInt8) (some : 1 ≤ data.length) :
    (s.fits fifo data = true ∧ ∃ f, nrfTlsInput fifo s.registered s.fifo data = (f,.success) ∧
      fifo.content f = fifo.content s.fifo ++ data) ∨
    (s.fits fifo data = false ∧ (nrfTlsInput fifo s.registered s.fifo data).1 = s.fifo) := by
  unfold nrfTlsInput Conn.fits
  cases s.registered with
  | false => exact Or.inr ⟨rfl,rfl⟩
  | true =>
    rcases Nat.eq_zero_or_pos (fifo.room s.fifo) with full | room
    · rw [documented.full s.fifo none 0 full, full]
      have large : ¬ data.length ≤ 0 := by omega
      exact Or.inr ⟨decide_eq_false large,rfl⟩
    · rw [documented.query s.fifo 0 room]
      by_cases small : data.length ≤ fifo.room s.fifo
      · obtain ⟨f,written,content⟩ := documented.store s.fifo data data.length room
        rw [Nat.min_eq_left small] at written content
        rw [List.take_length] at content
        exact Or.inl ⟨by simp [small],f,by simp [small, written],content⟩
      · exact Or.inr ⟨by simp [small],by simp [small]⟩

private theorem input_fits (documented : fifo.Documented) (s : Conn φ) (data : List UInt8) (some : 1 ≤ data.length)
    (fits : s.fits fifo data = true) : (s.input fifo data).queued = s.queued ++ data ∧ (s.input fifo data).lost = s.lost := by
  rcases nrfTlsInput_cases documented s data some with ⟨-,f,written,content⟩ | ⟨not,-⟩
  · simp [Conn.input, written, content, fits]
  · exact absurd fits (by simp [not])

private theorem input_dropped (documented : fifo.Documented) (s : Conn φ) (data : List UInt8) (some : 1 ≤ data.length)
    (tight : s.fits fifo data = false) : (s.input fifo data).queued = s.queued ∧ (s.input fifo data).lost = true := by
  rcases nrfTlsInput_cases documented s data some with ⟨fits,-⟩ | ⟨-,same⟩
  · exact absurd fits (by simp [tight])
  · simp [Conn.input, same, tight]

structure Conn.Inv (s : Conn φ) : Prop where
  gapless : s.Gapless
  whole : s.lost = false → s.queued = s.received

private theorem step_inv (documented : fifo.Documented) {s next : Conn φ} {e : Event φ} (inv : s.Inv)
    (unbroken : s.Unbroken fifo e) (stepped : s.step fifo e = some next) : next.Inv := by
  cases e with
  | recv data =>
    simp only [Conn.step] at stepped
    split at stepped
    next size =>
      cases stepped
      cases fits : s.fits fifo data with
      | true =>
        obtain ⟨queued,lost⟩ := input_fits documented s data size.1 fits
        have whole := inv.whole (unbroken fits)
        have same : (s.input fifo data).queued = (s.input fifo data).received := by
          rw [queued, whole]
          rfl
        refine ⟨?_,fun _ => same⟩
        exact List.prefix_iff_eq_take.mpr (by rw [same, List.take_length])
      | false =>
        obtain ⟨queued,lost⟩ := input_dropped documented s data size.1 fits
        refine ⟨?_,fun kept => absurd kept (by simp [lost])⟩
        rw [Conn.Gapless, queued]
        exact inv.gapless.trans (List.prefix_append _ _)
    next => contradiction
  | level f =>
    cases stepped
    exact ⟨inv.gapless,inv.whole⟩
  | reconnect registered f =>
    cases stepped
    exact ⟨List.prefix_refl _,fun _ => rfl⟩

/-- In a run in which no chunk is queued after one of the same connection that was dropped, the
FIFO always got the first bytes received. -/
theorem input_gapless (documented : fifo.Documented) (registered : Bool) (f : φ) (events : List (Event φ))
    (unbroken : Meets (Conn.step fifo) (Conn.Unbroken fifo) (.fresh registered f) events) :
    Always (Conn.step fifo) Conn.Gapless (.fresh registered f) events := by
  have implies (s : Conn φ) (inv : s.Inv) : s.Gapless := inv.gapless
  have start : (Conn.fresh registered f).Inv := ⟨List.prefix_refl _,fun _ => rfl⟩
  exact always_of_invariant (fun _ _ _ inv met stepped => step_inv documented inv met stepped) implies start unbroken

end

def byteFifo : AppFifo (List UInt8) where
  room f := 8192 - f.length
  content f := f
  write f data size :=
    if 8192 - f.length = 0 then (f,.noMem,0)
    else match data with
      | none => (f,.success,8192 - f.length)
      | some data => (f ++ data.take (min size (8192 - f.length)),.success,min size (8192 - f.length))

theorem byteFifo_documented : byteFifo.Documented where
  full _ _ _ none := if_pos none
  query _ _ room := if_neg (Nat.pos_iff_ne_zero.mp room)
  store _ _ _ room := ⟨_,if_neg (Nat.pos_iff_ne_zero.mp room),rfl⟩

/-- The second chunk finds no room, and the connection is given up. -/
def crowded (backlog : List UInt8) : List (Event (List UInt8)) :=
  [.recv [1],.level backlog,.recv [2,3],.reconnect true [],.recv [4]]

private theorem crowded_unbroken (backlog : List UInt8) (size : backlog.length = 8191) :
    Meets (Conn.step byteFifo) (Conn.Unbroken byteFifo) (.fresh true []) (crowded backlog) := by
  have tight : decide (2 ≤ 8192 - backlog.length) = false := by
    rw [size]
    rfl
  intro next stepped
  cases stepped
  refine ⟨fun _ => rfl,fun next stepped => ⟨trivial,?_⟩⟩
  cases stepped
  intro next stepped
  refine ⟨fun fits => absurd (tight.symm.trans fits) Bool.false_ne_true,fun next stepped => ⟨trivial,?_⟩⟩
  cases stepped
  exact fun next stepped => ⟨fun _ => rfl,trivial⟩

theorem input_gapless_crowded :
    Always (Conn.step byteFifo) Conn.Gapless (.fresh true []) (crowded (List.replicate 8191 0)) :=
  input_gapless byteFifo_documented true [] (crowded (List.replicate 8191 0)) (crowded_unbroken _ List.length_replicate)

private theorem crowded_gap (backlog : List UInt8) (size : backlog.length = 8191) :
    ¬ Always (Conn.step byteFifo) Conn.Gapless (.fresh true backlog) [.recv [1,2],.level [],.recv [3]] := by
  intro always
  have tight : Conn.fits byteFifo (.fresh true backlog) [1,2] = false := by
    have small : ¬ 2 ≤ 8192 - backlog.length := by omega
    exact decide_eq_false small
  obtain ⟨queued,-⟩ := input_dropped byteFifo_documented (.fresh true backlog) [1,2] (by decide) tight
  have first := always.2 _ rfl
  have second := first.2 _ rfl
  have third := always_start (second.2 _ rfl)
  obtain ⟨queued',-⟩ := input_fits byteFifo_documented { Conn.input byteFifo (.fresh true backlog) [1,2] with fifo := [] }
    [3] (by decide) (by rfl)
  have last : ([3] : List UInt8) <+: [1,2,3] := by
    rw [Conn.Gapless, queued', queued] at third
    exact third
  exact absurd last (by decide)

theorem chunk_dropped : ¬ Always (Conn.step byteFifo) Conn.Gapless (.fresh true (List.replicate 8191 0))
    [.recv [1,2],.level [],.recv [3]] :=
  crowded_gap _ List.length_replicate

end PulseFirmware.TlsInput
