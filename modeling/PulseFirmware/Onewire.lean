import PulseFirmware.Lib.Run
import PulseFirmware.Lib.Bits

/-! The one-wire transfers of `onewire.c`: a task that starts the timer and waits for a semaphore, and the
handler of the compare interrupts that does the rest. -/
namespace PulseFirmware.Onewire
open PulseFirmware.Bits PulseFirmware.Run

inductive State
  | ready | reset | write | read
deriving DecidableEq

inductive Compare
  | compare0 | compare1 | compare2 | compare3
deriving DecidableEq

inductive Ret
  | success | err | errBusy | errNoResponse
deriving DecidableEq

/-- The bytes that a caller passes, with their number as a `uint16_t`. -/
structure Buffer where
  bytes : List UInt8
  short : bytes.length < 65536

def Buffer.len (b : Buffer) : UInt16 := UInt16.ofNat b.bytes.length

inductive Call
  | reset
  | write (buff : Buffer)
  | read (buff : Buffer)

/-- `onewire_t`, without the pin. `pos` is how far `buff` was moved. -/
structure OnewireT where
  state : State
  presence : Bool
  ibit : Nat
  nbytes : UInt8
  buff : List UInt8
  pos : Nat

/-- Where the task is. A call remembers whether the semaphore was given when it started. -/
inductive Pc
  | idle
  | waiting (c : Call) (given : Bool)
  | taken (c : Call) (given : Bool)
  | timedOut (c : Call) (given : Bool)

/-- A call that has returned: the time slots it programmed, its samples, and what the buffer holds. -/
structure Returned where
  call : Call
  given : Bool
  ret : Ret
  slots : List Nat
  samples : List Bool
  buff : List UInt8

structure Machine where
  onewire : OnewireT
  /-- the interrupts to come before the counter stops -/
  timer : List Compare
  xSemaphore : Bool
  pc : Pc
  slots : List Nat
  samples : List Bool
  log : List Returned

def timerChannels : State → List Compare
  | .write => [.compare1]
  | .read => [.compare1,.compare2]
  | .reset => [.compare2,.compare3]
  | .ready => []

/-- The microseconds on channel 0: the line is low for 5 for a one, and for 100 for a zero. -/
def slot (bit : Bool) : Nat := if bit then 5 else 100

def OnewireT.current (o : OnewireT) : UInt8 := o.buff.getD o.pos 0

/-- `if ((++onewire.ibit) > 7)` and what depends on it. -/
def OnewireT.advance (o : OnewireT) : OnewireT :=
  match o with
  | ⟨state,presence,ibit,nbytes,buff,pos⟩ =>
    if 7 < ibit + 1 then ⟨state,presence,0,nbytes - 1,buff,pos + 1⟩ else ⟨state,presence,ibit + 1,nbytes,buff,pos⟩

def OnewireT.sample (o : OnewireT) (level : Bool) : OnewireT :=
  if level then { o with buff := o.buff.set o.pos (o.current ||| UInt8.ofNat (1 <<< o.ibit)) } else o

/-- `timer_onewire_event_handler`, with the level of the pin -/
def handler (event : Compare) (level : Bool) (m : Machine) : Machine :=
  match event with
  | .compare0 | .compare1 =>
    match m.onewire.state with
    | .write =>
      if m.onewire.nbytes = 0 then { m with xSemaphore := true }
      else
        let bit := m.onewire.current.toNat.testBit m.onewire.ibit
        { m with onewire := m.onewire.advance, slots := m.slots ++ [slot bit], timer := timerChannels .write }
    | .read => { m with onewire := (m.onewire.sample level).advance, samples := m.samples ++ [level] }
    | .reset | .ready => m
  | .compare2 =>
    match m.onewire.state with
    | .reset => if level then m else { m with onewire := { m.onewire with presence := true } }
    | .read =>
      if m.onewire.nbytes = 0 then { m with xSemaphore := true } else { m with timer := timerChannels .read }
    | .write | .ready => m
  | .compare3 =>
    match m.onewire.state with
    | .reset => { m with xSemaphore := true }
    | .write | .read | .ready => m

def Machine.answer (m : Machine) (c : Call) (ret : Ret) (buff : List UInt8) : Machine :=
  { m with log := m.log ++ [⟨c,m.xSemaphore,ret,[],[],buff⟩] }

/-- `onewire_reset`, up to the semaphore -/
def onewireReset (m : Machine) : Machine :=
  if m.onewire.state ≠ .ready then m.answer .reset .errBusy []
  else
    { m with
      onewire := { m.onewire with state := .reset, presence := false }
      timer := timerChannels .reset
      pc := .waiting .reset m.xSemaphore
      slots := []
      samples := [] }

/-- `onewire_write`, up to the semaphore: the first bit is programmed here -/
def onewireWrite (buff : Buffer) (m : Machine) : Machine :=
  if m.onewire.state ≠ .ready then m.answer (.write buff) .errBusy buff.bytes
  else if buff.len = 0 then m.answer (.write buff) .success buff.bytes
  else
    let o : OnewireT := ⟨.write,m.onewire.presence,0,buff.len.toUInt8,buff.bytes,0⟩
    { m with
      onewire := { o with ibit := o.ibit + 1 }
      timer := timerChannels .write
      pc := .waiting (.write buff) m.xSemaphore
      slots := [slot (o.current.toNat.testBit 0)]
      samples := [] }

/-- `onewire_read`, up to the semaphore -/
def onewireRead (buff : Buffer) (m : Machine) : Machine :=
  if m.onewire.state ≠ .ready then m.answer (.read buff) .errBusy buff.bytes
  else if buff.len = 0 then m.answer (.read buff) .success buff.bytes
  else
    { m with
      onewire := ⟨.read,m.onewire.presence,0,buff.len.toUInt8,List.replicate buff.bytes.length 0,0⟩
      timer := timerChannels .read
      pc := .waiting (.read buff) m.xSemaphore
      slots := []
      samples := [] }

def Machine.start (m : Machine) : Call → Machine
  | .reset => onewireReset m
  | .write buff => onewireWrite buff m
  | .read buff => onewireRead buff m

def Machine.finish (m : Machine) (c : Call) (given : Bool) (ret : Ret) : Machine :=
  let ret := match c with
    | .reset => if ret = .success ∧ m.onewire.presence = false then .errNoResponse else ret
    | .write _ | .read _ => ret
  { m with
    onewire := { m.onewire with state := .ready }
    timer := []
    pc := .idle
    log := m.log ++ [⟨c,given,ret,m.slots,m.samples,m.onewire.buff⟩] }

/-- A step of the task, or an interrupt. One that is handled after the call has returned is `late`. -/
inductive Event
  | call (c : Call)
  | compare (level : Bool)
  | late (event : Compare) (level : Bool)
  | take
  | timeout
  | finish

def Machine.step (m : Machine) (e : Event) : Option Machine :=
  match e, m.pc with
  | .call c, .idle => some (m.start c)
  | .late event level, .idle => some (handler event level m)
  | .compare level, _ =>
    match m.timer with
    | [] => none
    | event :: rest => some (handler event level { m with timer := rest })
  | .take, .waiting c given => if m.xSemaphore then some { m with xSemaphore := false, pc := .taken c given } else none
  | .timeout, .waiting c given => if m.xSemaphore then none else some { m with pc := .timedOut c given }
  | .finish, .taken c given => some (m.finish c given .success)
  | .finish, .timedOut c given => some (m.finish c given .err)
  | _, _ => none

def Machine.init : Machine := ⟨⟨.ready,false,0,0,[],0⟩,[],false,.idle,[],[],[]⟩

end PulseFirmware.Onewire
