import PulseFirmware.BleSerial

/-! Conservation of bytes in the BLE serial channel: what was accepted is, as a multiset,
what is on the air together with what waits in the buffer. A single call may fail halfway. -/
namespace PulseFirmware.BleSerial
open PulseFirmware.Run

def Link.radioStep (s : Link) (event : Event × Radio) : Option Link :=
  match event.1 with
  | .commStarted => none
  | _ => some (s.step event.1 event.2)

def Conserved (s : Link) : Prop := s.accepted.Perm (s.air ++ s.channel.buff)

def RemovesSent (c : Channel) (radio : Radio) : Prop :=
  (bleSerialTask c radio).air ++ (bleSerialTask c radio).channel.buff = c.buff

/-- The radio takes what the task gives it: all of a buffer shorter than one notification,
and at least does not fail on a longer one. -/
def TaskTaken (c : Channel) (radio : Radio) : Prop :=
  c.semp = true → c.buff ≠ [] →
    match radio with
    | none => False
    | some n => c.buff.length < bleNusMaxDataLen → c.buff.length ≤ n

/-- A message of which bytes go out at once has room for its rest. -/
def Lossless (s : Link) (event : Event × Radio) : Prop :=
  match event.1 with
  | .send data => direct s.channel data event.2 = [] ∨ RestFits s.channel data event.2
  | .task => TaskTaken s.channel event.2
  | _ => True

theorem start_conserved : Conserved .start := List.Perm.refl _

private theorem removed_taken (c : Channel) (radio : Radio) (ready : c.semp = true) (waiting : c.buff ≠ []) :
    nusSent radio (c.buff.take bleNusMaxDataLen) = c.buff.take (removed c radio) ↔ TaskTaken c radio := by
  have some_waiting := List.length_pos_of_ne_nil waiting
  unfold TaskTaken removed nusSent
  simp only [ready, waiting, ne_eq, not_false_eq_true, forall_const]
  cases radio with
  | none =>
    simp only [Option.getD_none, List.take_zero, iff_false]
    intro equal
    have sizes := congrArg List.length equal
    split at sizes <;> simp only [List.length_nil, List.length_take, bleNusMaxDataLen] at sizes <;> omega
  | some n =>
    simp only [Option.getD_some, List.take_take]
    split
    next short =>
      simp only [short, forall_const]
      constructor
      · intro equal
        have sizes := congrArg List.length equal
        simp only [List.length_take] at sizes
        omega
      · intro all
        rw [List.take_of_length_le (Nat.le_refl c.buff.length), List.take_of_length_le (by omega)]
    next long => simp [long]

theorem removes_sent_iff (c : Channel) (radio : Radio) : RemovesSent c radio ↔ TaskTaken c radio := by
  by_cases idle : c.semp = false ∨ c.buff = []
  · have vacuous : TaskTaken c radio := by
      intro ready waiting
      rcases idle with blocked | empty
      · rw [blocked] at ready; contradiction
      · exact absurd empty waiting
    simp [RemovesSent, bleSerialTask_idle c radio idle, vacuous]
  · obtain ⟨ready,waiting⟩ := not_or.mp idle
    have ready : c.semp = true := by simpa using ready
    obtain ⟨air,left⟩ := bleSerialTask_busy c radio ready waiting
    rw [← removed_taken c radio ready waiting, RemovesSent, air, left]
    constructor
    · intro whole
      refine List.append_cancel_right (whole.trans ?_)
      exact (List.take_append_drop _ _).symm
    · intro same
      rw [same]
      exact List.take_append_drop _ _

private theorem task_exact (s : Link) (radio : Radio) (held : Conserved s) :
    Conserved (s.step .task radio) ↔ TaskTaken s.channel radio := by
  rw [← removes_sent_iff]
  have after : Conserved (s.step .task radio) ↔
      s.accepted.Perm (s.air ++ ((bleSerialTask s.channel radio).air ++ (bleSerialTask s.channel radio).channel.buff)) := by
    rw [← List.append_assoc]; rfl
  rw [after]
  constructor
  · intro balanced
    have same := (List.perm_append_left_iff s.air).mp (held.symm.trans balanced)
    by_cases idle : s.channel.semp = false ∨ s.channel.buff = []
    · simp [RemovesSent, bleSerialTask_idle _ radio idle]
    · obtain ⟨ready,waiting⟩ := not_or.mp idle
      have ready : s.channel.semp = true := by simpa using ready
      obtain ⟨air,left⟩ := bleSerialTask_busy s.channel radio ready waiting
      -- what goes out is a prefix of what is removed, so equal lengths make them equal
      have sizes := same.length_eq
      have bounded : removed s.channel radio ≤ s.channel.buff.length := by
        unfold removed
        split
        · exact Nat.le_refl _
        · cases radio <;> simp only <;> omega
      rw [RemovesSent, air, left]
      rw [air, left] at sizes
      simp only [nusSent, List.take_take, List.length_append, List.length_take, List.length_drop] at sizes ⊢
      rw [List.take_eq_take_iff.mpr (show min (min (radio.getD 0) bleNusMaxDataLen) s.channel.buff.length =
        min (removed s.channel radio) s.channel.buff.length by omega)]
      exact List.take_append_drop _ _
  · intro whole
    rw [RemovesSent] at whole
    rw [whole]
    exact held

private theorem send_exact (s : Link) (data : List UInt8) (radio : Radio) (held : Conserved s) :
    Conserved (s.step (.send data) radio) ↔
      (direct s.channel data radio = [] ∨ RestFits s.channel data radio) := by
  rcases bleSerialSend_cases s.channel data radio with ⟨ok,fits,air,stored⟩ | ⟨failed,kept,reason⟩
  · refine iff_of_true ?_ (Or.inr fits)
    have shape : s.step (.send data) radio = ⟨(bleSerialSend s.channel data radio).channel,
        s.accepted ++ data,s.air ++ direct s.channel data radio⟩ := by
      simp [Link.step, ok, failure, air]
    rw [shape, Conserved, stored]
    have balanced := held.append_right data
    have split : data = direct s.channel data radio ++ data.drop (direct s.channel data radio).length := by
      rw [direct_append]
    refine balanced.trans ?_
    nth_rewrite 1 [split]
    simp only [List.append_assoc]
    refine List.Perm.append_left _ ?_
    rw [← List.append_assoc, ← List.append_assoc]
    exact List.Perm.append_right _ List.perm_append_comm
  · have shape : s.step (.send data) radio = ⟨(bleSerialSend s.channel data radio).channel,
        s.accepted,s.air ++ (bleSerialSend s.channel data radio).air⟩ := by
      simp [Link.step, failed]
    rw [shape, Conserved, kept]
    rcases reason with ⟨_,none,silent⟩ | ⟨full,air⟩
    · refine iff_of_true ?_ (Or.inl ?_)
      · rw [silent, List.append_nil]; exact held
      · simp [direct, none, nusSent]
    · rw [air]
      constructor
      · intro balanced
        have sizes := balanced.length_eq.symm.trans held.length_eq
        simp only [List.length_append] at sizes
        exact Or.inl (List.length_eq_zero_iff.mp (by omega))
      · rintro (silent | fits)
        · rw [silent, List.append_nil]; exact held
        · exact absurd fits full

/-- In every order of calls and events without `COMM_STARTED`, bytes are conserved throughout
exactly when every step is lossless, and an iteration of the task removes exactly what it sent
exactly when the radio took what it was given. -/
theorem serial_conserved (events : List (Event × Radio)) :
    (Always Link.radioStep Conserved .start events ↔ Meets Link.radioStep Lossless .start events) ∧
      ∀ c radio, RemovesSent c radio ↔ TaskTaken c radio := by
  refine ⟨?_,removes_sent_iff⟩
  refine always_iff_meets (fun _ _ _ (_ : True) _ => trivial) ?_ trivial start_conserved
  rintro s ⟨event,radio⟩ next _ held stepped
  cases event with
  | send data => cases Option.some.inj stepped; exact send_exact s data radio held
  | txRdy => cases Option.some.inj stepped; exact iff_of_true held trivial
  | commStarted => contradiction
  | task => cases Option.some.inj stepped; exact task_exact s radio held

/-- A failed send in the task loses what waited in the buffer. -/
theorem serial_lost : ¬ ∀ events, Always Link.radioStep Conserved .start events := by
  intro conserved
  have last := conserved [(.send [1],some 1),(.send [2],none),(.txRdy,none),(.task,none)]
  simp [Always, Link.radioStep, Conserved, Link.step, Link.start, nusCommStarted, bleSerialSend,
    bleSerialStore, bleSerialTask, nusTxRdy, nusSent, bleNusMaxDataLen, buffSize, failure, Channel.append] at last

/-- How many bytes `ble_nus_data_send` takes of a message. -/
def taken (c : Channel) (data : List UInt8) (radio : Radio) : Nat :=
  if c.semp then min (radio.getD 0) (min bleNusMaxDataLen data.length) else 0

private theorem direct_length (c : Channel) (data : List UInt8) (radio : Radio) :
    (direct c data radio).length = taken c data radio := by
  unfold direct taken
  split
  · rw [nusSent, List.length_take, List.length_take]
  · rfl

/-- A failed call leaves nothing of its message anywhere, another call puts all of it, in order,
on the air and behind the buffer. -/
def AllOrNothing (c : Channel) (data : List UInt8) (radio : Radio) : Prop :=
  let result := bleSerialSend c data radio
  (result.ret = failure → result.air = [] ∧ result.channel.buff = c.buff) ∧
    (result.ret ≠ failure → ∃ rest, data = result.air ++ rest ∧ result.channel.buff = c.buff ++ rest)

/-- A call is all or nothing exactly when the radio takes nothing of the message or what it leaves
fits into the buffer. -/
theorem send_all_or_nothing (c : Channel) (data : List UInt8) (radio : Radio) :
    AllOrNothing c data radio ↔ taken c data radio = 0 ∨ data.length - taken c data radio < buffSize - c.buff.length := by
  rw [← direct_length]
  change _ ↔ _ ∨ RestFits c data radio
  rw [AllOrNothing]
  rcases bleSerialSend_cases c data radio with ⟨ok,fits,air,stored⟩ | ⟨failed,kept,⟨ready,radioFailed,air⟩ | ⟨full,air⟩⟩
  · rw [ok, air, stored]
    refine iff_of_true ⟨fun failed => absurd failed (by decide),fun _ => ?_⟩ (.inr fits)
    exact ⟨_,(direct_append c data radio).symm,rfl⟩
  · have none : direct c data radio = [] := by
      rw [direct, radioFailed]
      split <;> rfl
    rw [failed, air, kept, none]
    exact iff_of_true ⟨fun _ => ⟨rfl,rfl⟩,fun other => absurd rfl other⟩ (.inl rfl)
  · rw [failed, air, kept, List.length_eq_zero_iff]
    constructor
    · exact fun silent => .inl (silent.1 rfl).1
    · intro or
      exact ⟨fun _ => ⟨or.resolve_right full,rfl⟩,fun other => absurd rfl other⟩

theorem failed_send_heard : ¬ ∀ (c : Channel) (data : List UInt8) (radio : Radio), AllOrNothing c data radio := by
  intro all
  have silent := (all ⟨List.replicate 2040 0,true,by rw [List.length_replicate]; decide⟩ (List.replicate 300 1) (some 244)).1 (by decide +kernel)
  exact absurd silent.1 (by decide +kernel)

end PulseFirmware.BleSerial
