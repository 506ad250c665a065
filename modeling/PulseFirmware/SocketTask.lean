import PulseFirmware.Network
import PulseFirmware.HttpRequest

/-! The task of socket_test.c: it connects until it succeeds, then builds, waits, receives and sends
until something fails, and connects anew. What the network and the TLS library answer is an input. -/
namespace PulseFirmware.SocketTest
open PulseFirmware.CString PulseFirmware.Printf PulseFirmware.Http

structure WifiFlags where
  tryingToConnect : Bool
  wifiDisconnected : Bool

/-- What network.c does to them; the callback also looks at `try_connect`. -/
inductive WifiStep
  | wifiCb (tryConnect : Bool) (event : WifiEvent)
  | reportConnected

def WifiFlags.after (w : WifiFlags) : WifiStep → WifiFlags
  | .wifiCb _ (.conStateChanged .connected) => ⟨true,false⟩
  | .wifiCb tryConnect (.conStateChanged _) => { w with wifiDisconnected := tryConnect || w.wifiDisconnected }
  | .wifiCb _ .other => w
  | .reportConnected => { w with tryingToConnect := false }

inductive Counter
  | socketConnIssue
  | countCheckInternet
  | countInsideSelect
deriving DecidableEq

/-- The count that the task still puts up with. -/
def Counter.bound : Counter → UInt8
  | .socketConnIssue => 12
  | .countCheckInternet => 3
  | .countInsideSelect => 2

/-- What happens in the task: the results it meets, the branch of the period test that does not send,
what it hands to `ble_serial_send`, and the requests it hands to `nrf_tls_write`. -/
inductive Action
  | connectFailed
  | connected
  | selectTimeout
  | received
  | early
  | bleSerialSend (counter : Counter) (text : String)
  | tlsWrite (text : List UInt8) (success : Bool)
deriving DecidableEq

def Counter.failure : Counter → Action
  | .socketConnIssue | .countCheckInternet => .connectFailed
  | .countInsideSelect => .selectTimeout

def sendPeriod : UInt32 := 50000

/-- The locals and the globals of the task. -/
structure Task where
  inLoop : Bool
  waitingForResponse : Bool
  isTimeout : Bool
  writeError : UInt8
  writeErrorCount : UInt8
  restartPulseCount : UInt16
  timeout : UInt32
  socketConnIssue : UInt8
  countCheckInternet : UInt8
  countInsideSelect : UInt8
  wifi : WifiFlags
  checkInternet : Bool
  restartSystem : Bool
  buffers : Buffers

/-- The locals that have no initial value. -/
structure Uninitialised where
  waitingForResponse : Bool
  isTimeout : Bool
  writeError : UInt8
  timeout : UInt32
  var : Var → UInt16

def Task.start (u : Uninitialised) (wifi : WifiFlags) : Task where
  inLoop := false
  waitingForResponse := u.waitingForResponse
  isTimeout := u.isTimeout
  writeError := u.writeError
  writeErrorCount := 0
  restartPulseCount := 0
  timeout := u.timeout
  socketConnIssue := 0
  countCheckInternet := 0
  countInsideSelect := 0
  wifi := wifi
  checkInternet := false
  restartSystem := false
  buffers := ⟨zeros 200,fun _ => zeros 1024,zeros 2048,Function.update u.var .j 0⟩

/-- The inputs of one iteration of the loop; `during` happens while `select` waits. -/
structure Iteration (V : Type) where
  source : Http.Source V
  during : List WifiStep
  rc : Int
  fdIsSet : Bool
  recvRet : Int
  tlsRead : Bool
  now : UInt32
  /-- the second `nrf_tls_write` of no bytes -/
  probed : Bool
  /-- the `nrf_tls_write` of the request -/
  written : Bool
  later : UInt32

inductive Event (V : Type)
  | network (step : WifiStep)
  | connectToAddr (socketFd : Int) (now : UInt32)
  | iteration (i : Iteration V)

def Task.count (t : Task) : Counter → UInt8
  | .socketConnIssue => t.socketConnIssue
  | .countCheckInternet => t.countCheckInternet
  | .countInsideSelect => t.countInsideSelect

def Task.setCount (t : Task) (k : Counter) (n : UInt8) : Task :=
  match k with
  | .socketConnIssue => { t with socketConnIssue := n }
  | .countCheckInternet => { t with countCheckInternet := n }
  | .countInsideSelect => { t with countInsideSelect := n }

/-- The flag that makes the task count, and that a report takes back. -/
def Task.lower (t : Task) : Counter → Task
  | .socketConnIssue => { t with wifi := { t.wifi with tryingToConnect := false } }
  | .countCheckInternet | .countInsideSelect => { t with wifi := { t.wifi with wifiDisconnected := false } }

/-- A failure that is counted; one too many is reported. -/
def Task.counted (t : Task) (k : Counter) : Task × List Action :=
  let t := t.setCount k (t.count k + 1)
  if k.bound < t.count k then ((t.lower k).setCount k 0,[k.failure,.bleSerialSend k "failed internet\n"])
  else (t,[k.failure,.bleSerialSend k "success trying to connect\n"])

def Task.connectFailed (t : Task) : Task × List Action :=
  let t := { t with checkInternet := false }
  if t.wifi.tryingToConnect then t.counted .socketConnIssue
  else if t.wifi.wifiDisconnected then t.counted .countCheckInternet
  else (t,[.connectFailed])

def Task.connected (t : Task) (now : UInt32) : Task × List Action :=
  ({ t with inLoop := true, checkInternet := true, restartSystem := t.writeError = 1 || t.restartSystem,
            timeout := now - sendPeriod, isTimeout := false, waitingForResponse := false },[.connected])

/-- Behind the loop: the socket is closed and the task connects anew. -/
def Task.leave (t : Task) : Task := { t with inLoop := false }

/-- `API_token1[0]` and `API_link1[0]` are not erased flash. -/
def available {V : Type} (s : Http.Source V) : Bool := s.apiToken1.head? ≠ some 0xff && s.apiLink1.head? ≠ some 0xff

section
variable {V : Type}

def Task.sendRequest (t : Task) (i : Iteration V) : Task × List Action :=
  if sendPeriod < i.now - t.timeout then
    if i.probed then
      if available i.source then
        let text := chars t.buffers.txbuff.toList
        if i.written then
          ({ t with timeout := i.later, waitingForResponse := true, isTimeout := false,
                    restartPulseCount := t.restartPulseCount + 1 },[.tlsWrite text true])
        else (t.leave,[.tlsWrite text false])
      else (t,[])
    else if t.isTimeout then (t.leave,[])
    else (t,[])
  else
    let t := { t with writeErrorCount := t.writeErrorCount + 1 }
    ({ t with writeError := if 200 < t.writeErrorCount then 1 else t.writeError },[.early])

def Task.readTls (t : Task) (i : Iteration V) : Task × List Action :=
  (if i.tlsRead then { t with waitingForResponse := false } else t).sendRequest i

def Task.receive (t : Task) (i : Iteration V) : Task × List Action :=
  if i.fdIsSet then
    if 0 < i.recvRet then
      let (t,actions) := { t with isTimeout := false }.readTls i
      (t,.received :: actions)
    else (t.leave,[])
  else t.readTls i

def Task.selectTimeout (t : Task) : Task × List Action :=
  let (t,actions) := if t.wifi.wifiDisconnected then t.counted .countInsideSelect else (t,[.selectTimeout])
  ({ t with isTimeout := true },actions)

def Task.select (t : Task) (i : Iteration V) : Task × List Action :=
  if i.rc < 0 then (t.leave,[])
  else if i.rc = 0 then
    let (t,actions) := t.selectTimeout
    if t.waitingForResponse then (t.leave,actions)
    else
      let (t,later) := t.receive i
      (t,actions ++ later)
  else t.receive i

/-- A failed connection touches its two counters and the flags, and sends one message at most. -/
theorem connectFailed_eq (t : Task) : ∃ issue check wifi actions, t.connectFailed =
      ({ t with checkInternet := false, socketConnIssue := issue, countCheckInternet := check, wifi },actions) ∧
    (actions = [.connectFailed] ∨ ∃ k text, actions = [.connectFailed,.bleSerialSend k text]) := by
  unfold Task.connectFailed Task.counted
  dsimp only
  split_ifs
  · exact ⟨_,t.countCheckInternet,_,_,rfl,.inr ⟨_,_,rfl⟩⟩
  · exact ⟨_,t.countCheckInternet,t.wifi,_,rfl,.inr ⟨_,_,rfl⟩⟩
  · exact ⟨t.socketConnIssue,_,_,_,rfl,.inr ⟨_,_,rfl⟩⟩
  · exact ⟨t.socketConnIssue,_,t.wifi,_,rfl,.inr ⟨_,_,rfl⟩⟩
  · exact ⟨_,_,_,_,rfl,.inl rfl⟩

theorem selectTimeout_eq (t : Task) : ∃ inside wifi actions,
    t.selectTimeout = ({ t with countInsideSelect := inside, isTimeout := true, wifi },actions) ∧
      (actions = [.selectTimeout] ∨ ∃ k text, actions = [.selectTimeout,.bleSerialSend k text]) := by
  unfold Task.selectTimeout Task.counted
  dsimp only
  split_ifs
  · exact ⟨_,_,_,rfl,.inr ⟨_,_,rfl⟩⟩
  · exact ⟨_,t.wifi,_,rfl,.inr ⟨_,_,rfl⟩⟩
  · exact ⟨_,_,_,rfl,.inl rfl⟩

def Task.waited (t : Task) (buffers : Buffers) (i : Iteration V) : Task :=
  { t with buffers, wifi := i.during.foldl WifiFlags.after t.wifi }

variable (c : Conversions V)

def Task.iteration (t : Task) (i : Iteration V) : Outcome (Task × List Action) :=
  if 1440 < t.restartPulseCount then .error .reset
  else do
    let buffers ← buildRequest c i.source t.buffers
    return (t.waited buffers i).select i

/-- A fault and a reset of the chip end the run. -/
def Task.step (t : Task) : Event V → Option (Task × List Action)
  | .network w => some ({ t with wifi := t.wifi.after w },[])
  | .connectToAddr socketFd now =>
    if t.inLoop then none
    else some (if socketFd < 0 then t.connectFailed else t.connected now)
  | .iteration i => if t.inLoop then (t.iteration c i).toOption else none

/-- The task with all that happened so far. -/
structure Traced where
  task : Task
  past : List Action

def Traced.step (t : Traced) (e : Event V) : Option Traced :=
  (t.task.step c e).map fun (task,actions) => ⟨task,t.past ++ actions⟩

def Traced.start (u : Uninitialised) (wifi : WifiFlags) : Traced := ⟨.start u wifi,[]⟩

theorem iteration_taken {t : Task} {i : Iteration V} {buffers : Buffers} (inside : t.inLoop = true)
    (going : ¬ 1440 < t.restartPulseCount) (built : buildRequest c i.source t.buffers = .ok buffers) :
    t.step c (.iteration i) = some ((t.waited buffers i).select i) := by
  rw [Task.step, if_pos inside, Task.iteration, if_neg going, built]
  rfl

theorem traced_step {t : Traced} {e : Event V} {next : Task} {actions : List Action}
    (taken : t.task.step c e = some (next,actions)) : t.step c e = some ⟨next,t.past ++ actions⟩ := by
  rw [Traced.step, taken]
  rfl

variable {c}

inductive Stepped (t : Task) : Event V → Task → List Action → Prop
  | network (w : WifiStep) : Stepped t (.network w) { t with wifi := t.wifi.after w } []
  | failed (socketFd : Int) (now : UInt32) (out : t.inLoop = false) (negative : socketFd < 0) :
      Stepped t (.connectToAddr socketFd now) t.connectFailed.1 t.connectFailed.2
  | connected (socketFd : Int) (now : UInt32) (out : t.inLoop = false) (valid : 0 ≤ socketFd) :
      Stepped t (.connectToAddr socketFd now) (t.connected now).1 [.connected]
  | iteration (i : Iteration V) (buffers : Buffers) (inside : t.inLoop = true)
      (built : buildRequest c i.source t.buffers = .ok buffers) :
      Stepped t (.iteration i) ((t.waited buffers i).select i).1 ((t.waited buffers i).select i).2

theorem step_cases {t : Traced} {e : Event V} {t' : Traced} (stepped : t.step c e = some t') :
    ∃ actions, t.task.step c e = some (t'.task,actions) ∧ t'.past = t.past ++ actions ∧
      Stepped (c := c) t.task e t'.task actions := by
  obtain ⟨⟨next,actions⟩,taken,rfl⟩ := Option.map_eq_some_iff.mp stepped
  refine ⟨actions,taken,rfl,?_⟩
  cases e with
  | network w =>
    cases taken
    exact .network w
  | connectToAddr socketFd now =>
    rw [Task.step] at taken
    split at taken
    next => contradiction
    next out =>
      have result := Option.some.inj taken
      split at result
      next negative =>
        obtain ⟨rfl,rfl⟩ := Prod.mk.inj result
        exact .failed socketFd now (Bool.eq_false_of_not_eq_true out) negative
      next valid =>
        obtain ⟨rfl,rfl⟩ := Prod.mk.inj result
        exact .connected socketFd now (Bool.eq_false_of_not_eq_true out) (Int.not_lt.mp valid)
  | iteration i =>
    rw [Task.step] at taken
    split at taken
    next inside =>
      have done := toOption_ok taken
      unfold Task.iteration at done
      split at done
      next => contradiction
      next =>
        obtain ⟨buffers,built,rest⟩ := bind_ok done
        obtain ⟨rfl,rfl⟩ := Prod.mk.inj (Except.ok.inj rest)
        exact .iteration i buffers inside built
    next => contradiction

end

end PulseFirmware.SocketTest

namespace PulseFirmware
open SocketTest (WifiFlags WifiStep)

def Net.wifi (net : Net) : WifiFlags := ⟨net.tryingToConnect,net.wifiDisconnected⟩

theorem wifiCb_wifi (s : Globals × Net) (e : WifiEvent) :
    (wifiCb s e).2.wifi = s.2.wifi.after (.wifiCb s.1.tryConnect e) := by
  cases e with
  | other => rfl
  | conStateChanged state => cases state <;> rfl

private theorem poll_wifi (s : Globals × Net) (events : List WifiEvent) :
    ∃ steps : List WifiStep, (events.foldl wifiCb s).2.wifi = steps.foldl WifiFlags.after s.2.wifi := by
  induction events generalizing s with
  | nil => exact ⟨[],rfl⟩
  | cons e events ih =>
    obtain ⟨steps,same⟩ := ih (wifiCb s e)
    refine ⟨.wifiCb s.1.tryConnect e :: steps,?_⟩
    rw [List.foldl_cons, same, wifiCb_wifi]
    rfl

private theorem dispatch_wifi (g : Globals) (net : Net) (started : Bool) (msg : NetworkMsg) :
    (dispatchRequest g net started msg).2.wifi = net.wifi := by
  cases msg with
  | ipsettings config =>
    rw [dispatchRequest]
    cases config.iface <;> split <;> rfl
  | _ => rfl

/-- The flags stay, or the success of a connection has been reported. -/
private def FlagsKept (net net' : Net) : Prop := net'.wifi = net.wifi ∨ net'.wifi = net.wifi.after .reportConnected

private theorem report_kept (g : Globals) (net : Net) : FlagsKept net (reportConnected g net).2 := by
  unfold reportConnected
  split
  next =>
    split
    next => exact .inr rfl
    next => exact .inl rfl
  next => exact .inl rfl

private theorem default_wifi (g : Globals) (net : Net) (iface : Iface) : (setDefault g net iface).2.wifi = net.wifi := by
  unfold setDefault
  split <;> rfl

private theorem select_kept (g : Globals) (net : Net) : FlagsKept net (selectTimeout g net).2 := by
  unfold selectTimeout selectInterface
  split
  next =>
    split
    next => exact .inl (default_wifi g _ .eth)
    next =>
      split
      next =>
        have kept := report_kept (setDefault g { net with dhcpTimeout := 1 } .wlan).1 (setDefault g { net with dhcpTimeout := 1 } .wlan).2
        rw [FlagsKept, default_wifi] at kept
        exact kept
      next => exact .inl rfl
  next => exact .inl rfl

/-- An iteration of the network task changes the flags by such steps alone. -/
theorem networkIteration_wifi (g : Globals) (net : Net) (input : PollInput) (started : Bool) :
    ∃ steps : List WifiStep, (networkIteration g net input started).2.wifi = steps.foldl WifiFlags.after net.wifi := by
  obtain ⟨steps,polled⟩ : ∃ steps : List WifiStep, (pollMode g net input).2.wifi = steps.foldl WifiFlags.after net.wifi := by
    unfold pollMode
    split
    next => exact poll_wifi (g,net) input.events
    next =>
      split
      next =>
        refine ⟨[],?_⟩
        unfold mchdrvPoll
        split <;> rfl
      next => exact ⟨[],rfl⟩
  have checked (g : Globals) (net : Net) : (wifiCheckConnectQueue g net started).2.wifi = net.wifi := by
    unfold wifiCheckConnectQueue
    split
    next => rfl
    next => exact dispatch_wifi _ net started _
  rcases select_kept (wifiCheckConnectQueue (pollMode g net input).1 (pollMode g net input).2 started).1
    (wifiCheckConnectQueue (pollMode g net input).1 (pollMode g net input).2 started).2 with same | reported
  · exact ⟨steps,same.trans ((checked _ _).trans polled)⟩
  · refine ⟨steps ++ [.reportConnected],reported.trans ?_⟩
    rw [List.foldl_append, checked, polled]
    rfl

end PulseFirmware
