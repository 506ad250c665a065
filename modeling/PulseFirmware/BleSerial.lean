import Mathlib.Data.List.Basic
import PulseFirmware.Lib.Run

/-! The buffered BLE serial channel of ble.c: `ble_serial_send`, one iteration of
`ble_serial_task_fn` and the events of `nus_data_handler`, with the byte logs the
properties of the channel are about. -/
namespace PulseFirmware.BleSerial

/-- `BLE_NUS_MAX_DATA_LEN`: the 247 byte MTU of sdk_config.h less opcode and handle. -/
def bleNusMaxDataLen : Nat := 247 - 1 - 2

def buffSize : Nat := 2048

/-- `ble_serial_buff` up to its `len`, and `ble_serial_semp`. -/
structure Channel where
  buff : List UInt8
  semp : Bool
  room : buff.length < buffSize

/-- What `ble_nus_data_send` did with a request: it failed, or it took a prefix of at most
the given number of bytes. -/
abbrev Radio := Option Nat

def nusSent (radio : Radio) (data : List UInt8) : List UInt8 := data.take (radio.getD 0)

structure Result where
  channel : Channel
  air : List UInt8
  ret : UInt32

/-- The returned `-1`, as the `uint32_t` it becomes. -/
def failure : UInt32 := 0xFFFFFFFF

def Channel.append (c : Channel) (data : List UInt8) (fits : data.length < buffSize - c.buff.length) :
    Channel :=
  ⟨c.buff ++ data,c.semp,by rw [List.length_append]; omega⟩

def bleSerialStore (c : Channel) (air data : List UInt8) : Result :=
  if data = [] then ⟨c,air,0⟩
  else if fits : data.length < buffSize - c.buff.length then ⟨c.append data fits,air,0⟩
  else ⟨c,air,failure⟩

def bleSerialSend (c : Channel) (data : List UInt8) (radio : Radio) : Result :=
  if c.semp then
    match radio with
    | none => ⟨c,[],failure⟩
    | some n =>
      let air := nusSent (some n) (data.take bleNusMaxDataLen)
      bleSerialStore { c with semp := false } air (data.drop air.length)
  else bleSerialStore c [] data

/-- One iteration of `ble_serial_task_fn`; without the semaphore the task stays blocked. The `memcpy` to
the front of the buffer, whose ranges may overlap, is taken as a move of the bytes. -/
def bleSerialTask (c : Channel) (radio : Radio) : Result :=
  if c.semp then
    if c.buff = [] then ⟨c,[],0⟩
    else if c.buff.length < bleNusMaxDataLen then
      -- the length is cleared whatever ble_nus_data_send returned or stored in it
      ⟨⟨[],radio.isNone,by decide⟩,nusSent radio c.buff,0⟩
    else
      let taken := match radio with
        | none => bleNusMaxDataLen
        | some n => min n bleNusMaxDataLen
      ⟨⟨c.buff.drop taken,radio.isNone,by have := c.room; rw [List.length_drop]; omega⟩,
        nusSent radio (c.buff.take bleNusMaxDataLen),0⟩
  else ⟨c,[],0⟩

/-- `TX_RDY` gives the semaphore, `COMM_STARTED` also empties the buffer. -/
def nusTxRdy (c : Channel) : Channel := { c with semp := true }

def nusCommStarted : Channel := ⟨[],true,by decide⟩

inductive Event
  | send (data : List UInt8)
  | txRdy
  | commStarted
  | task
deriving DecidableEq

/-- The channel with the bytes accepted by `ble_serial_send` (calls that did not return -1)
and the bytes put on the air since the last `COMM_STARTED`. -/
structure Link where
  channel : Channel
  accepted : List UInt8
  air : List UInt8

def Link.start : Link := ⟨nusCommStarted,[],[]⟩

def Link.step (s : Link) (event : Event) (radio : Radio) : Link :=
  match event with
  | .send data =>
    let result := bleSerialSend s.channel data radio
    ⟨result.channel,if result.ret = failure then s.accepted else s.accepted ++ data,s.air ++ result.air⟩
  | .txRdy => { s with channel := nusTxRdy s.channel }
  | .commStarted => .start
  | .task =>
    let result := bleSerialTask s.channel radio
    { s with channel := result.channel, air := s.air ++ result.air }

/-- What a store into the buffer does: all of the rest, or nothing and a failure. -/
theorem bleSerialStore_cases (c : Channel) (air data : List UInt8) :
    (data.length < buffSize - c.buff.length ∧ (bleSerialStore c air data).ret = 0 ∧
      (bleSerialStore c air data).channel.buff = c.buff ++ data ∧ (bleSerialStore c air data).air = air) ∨
    (¬ data.length < buffSize - c.buff.length ∧ bleSerialStore c air data = ⟨c,air,failure⟩) := by
  unfold bleSerialStore
  split
  next empty =>
    have room := c.room
    exact Or.inl ⟨by simp only [empty, List.length_nil]; omega,rfl,by simp [empty],rfl⟩
  next =>
    split
    next fits => exact Or.inl ⟨fits,rfl,rfl,rfl⟩
    next full => exact Or.inr ⟨full,rfl⟩

def direct (c : Channel) (data : List UInt8) (radio : Radio) : List UInt8 :=
  if c.semp then nusSent radio (data.take bleNusMaxDataLen) else []

def RestFits (c : Channel) (data : List UInt8) (radio : Radio) : Prop :=
  data.length - (direct c data radio).length < buffSize - c.buff.length

theorem direct_take (c : Channel) (data : List UInt8) (radio : Radio) :
    direct c data radio = data.take (direct c data radio).length := by
  unfold direct
  split
  · rw [nusSent, List.take_take, List.length_take]
    exact (List.take_eq_take_min).trans (by congr 1)
  · rfl

theorem direct_append (c : Channel) (data : List UInt8) (radio : Radio) :
    direct c data radio ++ data.drop (direct c data radio).length = data := by
  conv_lhs => rw [direct_take c data radio]
  rw [List.length_take, Nat.min_eq_left]
  · exact List.take_append_drop _ _
  · unfold direct
    split
    · simp only [nusSent, List.length_take]; omega
    · simp

/-- A call that does not return -1 sends its first part and stores the rest; one that does
stores nothing, and has sent its first part if only the rest had no room. -/
theorem bleSerialSend_cases (c : Channel) (data : List UInt8) (radio : Radio) :
    ((bleSerialSend c data radio).ret = 0 ∧ RestFits c data radio ∧
      (bleSerialSend c data radio).air = direct c data radio ∧
      (bleSerialSend c data radio).channel.buff = c.buff ++ data.drop (direct c data radio).length) ∨
    ((bleSerialSend c data radio).ret = failure ∧ (bleSerialSend c data radio).channel.buff = c.buff ∧
      ((c.semp = true ∧ radio = none ∧ (bleSerialSend c data radio).air = []) ∨
        (¬ RestFits c data radio ∧ (bleSerialSend c data radio).air = direct c data radio))) := by
  unfold bleSerialSend RestFits direct
  cases ready : c.semp with
  | false =>
    simp only [Bool.false_eq_true, if_false, List.length_nil, Nat.sub_zero, List.drop_zero]
    rcases bleSerialStore_cases c [] data with ⟨fits,ok,stored,air⟩ | ⟨full,failed⟩
    · exact Or.inl ⟨ok,fits,air,stored⟩
    · rw [failed]
      exact Or.inr ⟨rfl,rfl,Or.inr ⟨full,rfl⟩⟩
  | true =>
    simp only [if_true]
    cases radio with
    | none => exact Or.inr ⟨rfl,rfl,Or.inl ⟨trivial,rfl,rfl⟩⟩
    | some n =>
      simp only
      rcases bleSerialStore_cases { c with semp := false } (nusSent (some n) (data.take bleNusMaxDataLen))
        (data.drop (nusSent (some n) (data.take bleNusMaxDataLen)).length) with ⟨fits,ok,stored,air⟩ | ⟨full,failed⟩
      · rw [List.length_drop] at fits
        exact Or.inl ⟨ok,fits,air,stored⟩
      · rw [List.length_drop] at full
        rw [failed]
        exact Or.inr ⟨rfl,rfl,Or.inr ⟨full,rfl⟩⟩

def removed (c : Channel) (radio : Radio) : Nat :=
  if c.buff.length < bleNusMaxDataLen then c.buff.length
  else match radio with
    | none => bleNusMaxDataLen
    | some n => min n bleNusMaxDataLen

theorem bleSerialTask_idle (c : Channel) (radio : Radio) (idle : c.semp = false ∨ c.buff = []) :
    bleSerialTask c radio = ⟨c,[],0⟩ := by
  unfold bleSerialTask
  rcases idle with blocked | empty
  · simp [blocked]
  · simp [empty]

theorem bleSerialTask_busy (c : Channel) (radio : Radio) (ready : c.semp = true) (waiting : c.buff ≠ []) :
    (bleSerialTask c radio).air = nusSent radio (c.buff.take bleNusMaxDataLen) ∧
      (bleSerialTask c radio).channel.buff = c.buff.drop (removed c radio) := by
  unfold bleSerialTask removed
  simp only [ready, if_true, waiting, if_false]
  split
  next short => simp [List.take_of_length_le (Nat.le_of_lt short)]
  next long => cases radio <;> exact ⟨rfl,rfl⟩

end PulseFirmware.BleSerial
