import PulseFirmware.BleSerial
import PulseFirmware.Lib.Stream

/-! Order of the BLE serial channel. The channel refines an ordered conduit as long as no
message is sent directly past bytes that wait in the buffer, and none is sent in part and
then refused. -/
namespace PulseFirmware.BleSerial
open PulseFirmware.Run PulseFirmware.Lib

def fullRadio : Radio := some bleNusMaxDataLen

def Link.orderStep (s : Link) (event : Event) : Option Link := some (s.step event fullRadio)

/-- The bytes on the air are a prefix of the accepted ones. -/
def InOrder (s : Link) : Prop := s.air <+: s.accepted

/-- A call of `ble_serial_send` that finds the semaphore given finds the buffer empty (or has
no data), and the rest of its message fits into the buffer. -/
def Prompt (s : Link) : Event → Prop
  | .send data => s.channel.semp = true →
      (s.channel.buff = [] ∨ data = []) ∧ RestFits s.channel data fullRadio
  | _ => True

structure Shows (s : Link) (conduit : Conduit UInt8) : Prop where
  accepted : s.accepted = conduit.accepted
  delivered : s.air = conduit.delivered
  pending : s.channel.buff = conduit.pending

theorem start_shows : Shows .start Conduit.empty := ⟨rfl,rfl,rfl⟩

private theorem send_shows (s : Link) (conduit : Conduit UInt8) (data : List UInt8)
    (shows : Shows s conduit) (prompt : Prompt s (.send data)) :
    ∃ ops : List (Conduit.Op UInt8), Shows (s.step (.send data) fullRadio) (ops.foldl Conduit.apply conduit) := by
  obtain ⟨accepted,delivered,pending⟩ := shows
  rcases bleSerialSend_cases s.channel data fullRadio with ⟨ok,_,air,stored⟩ | ⟨failed,kept,reason⟩
  · have taken : (s.step (.send data) fullRadio).accepted = s.accepted ++ data := by
      simp [Link.step, ok, failure]
    by_cases nothing : direct s.channel data fullRadio = []
    · refine ⟨[.accept data],?_,?_,?_⟩
      · rw [taken, accepted]; rfl
      · simp [Link.step, air, nothing, delivered, Conduit.apply]
      · simp [Link.step, stored, nothing, pending, Conduit.apply]
    · have ready : s.channel.semp = true := by
        by_contra blocked
        exact nothing (by simp [direct, blocked])
      have nonempty : data ≠ [] := by
        rintro rfl
        exact nothing (by simp [direct, nusSent])
      have idle : conduit.pending = [] := pending ▸ ((prompt ready).1.resolve_right nonempty)
      have settled := conduit.accept_deliver data (direct s.channel data fullRadio).length idle
      refine ⟨[.accept data,.deliver (direct s.channel data fullRadio).length],?_,?_,?_⟩
      · rw [taken, accepted]; rfl
      · change s.air ++ (bleSerialSend s.channel data fullRadio).air = _
        rw [air, delivered]
        exact (congrArg (conduit.delivered ++ ·) (direct_take _ _ _)).trans settled.1.symm
      · change (bleSerialSend s.channel data fullRadio).channel.buff = _
        rw [stored, pending, idle, List.nil_append]
        exact settled.2.symm
  · rcases reason with ⟨_,none,_⟩ | ⟨full,air⟩
    · exact absurd none (by decide)
    · have blocked : s.channel.semp = false := by
        by_contra ready
        exact full (prompt (by simpa using ready)).2
      refine ⟨[],?_,?_,?_⟩
      · simp [Link.step, failed, accepted]
      · simp [Link.step, air, direct, blocked, delivered]
      · simp [Link.step, kept, pending]

private theorem task_shows (s : Link) (conduit : Conduit UInt8) (shows : Shows s conduit) :
    ∃ ops : List (Conduit.Op UInt8), Shows (s.step .task fullRadio) (ops.foldl Conduit.apply conduit) := by
  obtain ⟨accepted,delivered,pending⟩ := shows
  by_cases idle : s.channel.semp = false ∨ s.channel.buff = []
  · refine ⟨[],?_,?_,?_⟩ <;> simp [Link.step, bleSerialTask_idle _ _ idle, accepted, delivered, pending]
  · obtain ⟨ready,waiting⟩ := not_or.mp idle
    obtain ⟨air,left⟩ := bleSerialTask_busy s.channel fullRadio (by simpa using ready) waiting
    have sent : nusSent fullRadio (s.channel.buff.take bleNusMaxDataLen) =
        s.channel.buff.take (removed s.channel fullRadio) := by
      simp only [nusSent, fullRadio, Option.getD_some, List.take_take, Nat.min_self, removed]
      split
      next short => rw [List.take_of_length_le (Nat.le_of_lt short), List.take_of_length_le (Nat.le_refl _)]
      next => rfl
    refine ⟨[.deliver (removed s.channel fullRadio)],accepted,?_,?_⟩
    · change s.air ++ (bleSerialTask s.channel fullRadio).air = _
      rw [air, sent, delivered, pending]; rfl
    · change (bleSerialTask s.channel fullRadio).channel.buff = _
      rw [left, pending]; rfl

/-- Each prompt step of the channel is a sequence of operations of the ordered conduit. -/
theorem step_shows (s : Link) (conduit : Conduit UInt8) (event : Event) (shows : Shows s conduit)
    (prompt : Prompt s event) :
    ∃ ops : List (Conduit.Op UInt8), Shows (s.step event fullRadio) (ops.foldl Conduit.apply conduit) := by
  cases event with
  | send data => exact send_shows s conduit data shows prompt
  | txRdy => exact ⟨[],shows.accepted,shows.delivered,shows.pending⟩
  | commStarted => exact ⟨[.restart],start_shows⟩
  | task => exact task_shows s conduit shows

/-- In every order of calls and events whose calls are all prompt, what is on the air since
the last `COMM_STARTED` is a prefix of what was accepted since then. -/
theorem serial_order (events : List Event) (prompt : Meets Link.orderStep Prompt .start events) :
    Always Link.orderStep InOrder .start events := by
  have keeps (s : Link) (event : Event) (next : Link) (shown : ∃ conduit, Shows s conduit) (met : Prompt s event)
      (stepped : s.orderStep event = some next) : ∃ conduit, Shows next conduit := by
    obtain ⟨conduit,shows⟩ := shown
    cases Option.some.inj stepped
    obtain ⟨ops,after⟩ := step_shows s conduit event shows met
    exact ⟨_,after⟩
  refine always_of_invariant keeps (fun s shown => ?_) ⟨_,start_shows⟩ prompt
  obtain ⟨conduit,shows⟩ := shown
  rw [InOrder, shows.accepted, shows.delivered]
  exact conduit.delivered_prefix

theorem serial_order_two : Always Link.orderStep InOrder .start
    [.send [1,2],.send [3],.txRdy,.task,.txRdy,.send [4]] :=
  serial_order _ (by simp [Meets, Link.orderStep, Prompt, Link.step, Link.start, nusCommStarted, bleSerialSend,
    bleSerialStore, bleSerialTask, nusTxRdy, RestFits, direct, nusSent, fullRadio, bleNusMaxDataLen, buffSize,
    Channel.append])

/-- The second message waits in the buffer when the radio becomes ready, and the third one
takes the semaphore before the task wakes up. -/
theorem serial_overtaken : ¬ ∀ events, Always Link.orderStep InOrder .start events := by
  intro ordered
  have last := ordered [.send [1,2],.send [3],.txRdy,.send [4]]
  simp [Always, Link.orderStep, InOrder, Link.step, Link.start, nusCommStarted, bleSerialSend,
    bleSerialStore, nusTxRdy, nusSent, fullRadio, bleNusMaxDataLen, buffSize, failure, Channel.append] at last

end PulseFirmware.BleSerial
