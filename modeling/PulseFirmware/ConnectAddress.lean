import PulseFirmware.Cmd
import PulseFirmware.Routing

/-! `connect_to_addr` beside the network task, which may take the default interface away between any two
of its calls. -/
namespace PulseFirmware.ConnectAddress
open PulseFirmware.CString PulseFirmware.Run PulseFirmware.Routing

def isdigit (c : UInt8) : Bool := 48 ≤ c ∧ c ≤ 57

def isxdigit (c : UInt8) : Bool := isdigit c || (97 ≤ c ∧ c ≤ 102) || (65 ≤ c ∧ c ≤ 70)

def islower (c : UInt8) : Bool := 97 ≤ c ∧ c ≤ 122

def isspace (c : UInt8) : Bool := c = 32 || c = 12 || c = 10 || c = 13 || c = 9 || c = 11

/-- The inner loop of `ipaddr_aton`: the number and what comes after it. -/
def ipaddrNumber (base : UInt32) : UInt32 → List UInt8 → UInt32 × List UInt8
  | val, [] => (val,[])
  | val, c :: cp =>
    if isdigit c then ipaddrNumber base (val * base + (c - 48).toUInt32) cp
    else if base = 16 ∧ isxdigit c then
      ipaddrNumber base (val <<< 4 ||| (c + 10 - (if islower c then 97 else 65)).toUInt32) cp
    else (val,c :: cp)

/-- The base of a number, by `0x` or `0`, and where its digits start. -/
def ipaddrBase : List UInt8 → UInt32 × List UInt8
  | 48 :: 120 :: cp | 48 :: 88 :: cp => (16,cp)
  | 48 :: cp => (8,cp)
  | cp => (10,cp)

/-- The outer loop, with up to `n` points to come. -/
def ipaddrParts : Nat → List UInt8 → Option (List UInt32 × List UInt8)
  | n, cp =>
    if cp.head?.any isdigit then
      let (base,digits) := ipaddrBase cp
      let (val,rest) := ipaddrNumber base 0 digits
      match n, rest with
      | 0, 46 :: _ => none
      | n + 1, 46 :: more => (ipaddrParts n more).map fun (parts,left) => (val :: parts,left)
      | _, rest => some ([val],rest)
    else none

/-- `ipaddr_aton`, for the characters before the terminator -/
def ipaddrAton (cp : List UInt8) : Option UInt32 :=
  match ipaddrParts 3 cp with
  | none => none
  | some (parts,rest) =>
    if rest.head?.any fun c => !isspace c then none
    else
      match parts with
      | [val] => some (swapBytes val)
      | [a,val] => if 0xffffff < val then none else some (swapBytes (val ||| a <<< 24))
      | [a,b,val] => if 0xffff < val then none else some (swapBytes (val ||| (a <<< 24 ||| b <<< 16)))
      | [a,b,c,val] => if 0xff < val then none else some (swapBytes (val ||| (a <<< 24 ||| b <<< 16 ||| c <<< 8)))
      | _ => none

example : ipaddrAton (ascii "10.0.0.1") = some 0x0100000A ∧ ipaddrAton (ascii "0x0a.1") = some 0x0100000A ∧
    ipaddrAton (ascii "10.0.0.256") = none := by
  decide +kernel

/-- `dns_gethostbyname`; `answer` is what the table of known names or a server gives, if anything. -/
def dnsGethostbyname (hostname : List UInt8) (answer : Option UInt32) : Option UInt32 :=
  if hostname = [] ∨ 256 ≤ hostname.length then none
  else
    let ipaddr := (ipaddrAton hostname).getD 0xffffffff
    if ipaddr ≠ 0xffffffff then some ipaddr else answer

/-- `getaddrinfo`; `memory` tells whether there is an element for the result. -/
def getaddrinfo (nodename : List UInt8) (answer : Option UInt32) (memory : Bool) : Option UInt32 :=
  match dnsGethostbyname nodename answer with
  | none => none
  | some addr => if memory then some addr else none

inductive Pc
  | start
  | resolved (server : UInt32)
  | opened (server : UInt32)
  | addressed (server source : UInt32)
  | bound (server : UInt32)
  | connected

structure Device where
  router : Router
  pc : Pc
  /-- the default interface at each read of its address -/
  reads : List (Option Iface)
  /-- the last selection pass found an interface with an address and a link -/
  found : Bool

/-- A step of the network task or of anything else that the routing depends on, or of the socket task. A read
through a null pointer gives what lies at the low address. -/
inductive Act
  | network (e : Event)
  | getaddrinfo (answer : Option UInt32) (memory : Bool)
  | socket (success : Bool)
  | readAddress (low : UInt32)
  | bind (success : Bool)
  | connect (success : Bool)
  | repeat_

def Net.get (net : Net) : Iface → Netif
  | .eth => net.enc
  | .wlan => net.winc

def Device.start (g : Globals) (boot : NetBoot) : Device := ⟨.start g boot,.start,[],false⟩

/-- Whether a pass finds an interface, and what was found before if the step is none. -/
def Device.foundBy (d : Device) : Event → Bool
  | .select => if d.router.net.dhcpTimeout = 0 then d.router.net.enc.usable || d.router.net.winc.usable else d.found
  | _ => d.found

def Device.step (d : Device) : Act → Option Device
  | .network e => (d.router.step e).map fun router => { d with router, found := d.foundBy e }
  | .getaddrinfo answer memory =>
    match d.pc with
    | .start =>
      match ConnectAddress.getaddrinfo (chars d.router.g.apiLink1.toList) answer memory with
      | none => some { d with pc := .start }
      | some server => some { d with pc := .resolved server }
    | _ => none
  | .socket success =>
    match d.pc with
    | .resolved server => some { d with pc := if success then .opened server else .start }
    | _ => none
  | .readAddress low =>
    match d.pc with
    | .opened server =>
      let source := match d.router.net.netifDefault with
        | some iface => (Net.get d.router.net iface).ipAddr
        | none => low
      some { d with pc := .addressed server source, reads := d.reads ++ [d.router.net.netifDefault] }
    | _ => none
  | .bind success =>
    match d.pc with
    | .addressed server _ => some { d with pc := if success then .bound server else .start }
    | _ => none
  | .connect success =>
    match d.pc with
    | .bound _ => some { d with pc := if success then .connected else .start }
    | _ => none
  | .repeat_ =>
    match d.pc with
    | .connected => some { d with pc := .start }
    | _ => none

def Safe (d : Device) : Prop := none ∉ d.reads

instance : DecidablePred Safe := fun d => inferInstanceAs (Decidable (none ∉ d.reads))

/-- The address is read when the last selection pass found an interface. -/
def Found (d : Device) : Act → Prop
  | .readAddress _ => d.found = true
  | _ => True

def Passed (d : Device) : Prop := d.router.net.netifDefault.isSome = d.found

private theorem netWincPoll_default (g : Globals) (net : Net) (events : List WifiEvent) :
    (netWincPoll g net events).2.netifDefault = net.netifDefault := by
  unfold netWincPoll
  induction events generalizing g net with
  | nil => rfl
  | cons event events ih =>
    have kept : (wifiCb (g,net) event).2.netifDefault = net.netifDefault := by
      cases event with
      | conStateChanged state => cases state <;> rfl
      | other => rfl
    exact (ih _ _).trans kept

private theorem pollMode_default (g : Globals) (net : Net) (input : PollInput) :
    (pollMode g net input).2.netifDefault = net.netifDefault := by
  unfold pollMode
  split
  next => exact netWincPoll_default g net input.events
  next =>
    split
    next =>
      unfold mchdrvPoll
      split <;> rfl
    next => rfl

private theorem queue_default (g : Globals) (net : Net) (started : Bool) :
    (wifiCheckConnectQueue g net started).2.netifDefault = net.netifDefault := by
  unfold wifiCheckConnectQueue
  split
  next => rfl
  next msg _ =>
    cases msg with
    | ipsettings config =>
      simp only [dispatchRequest]
      split <;> cases config.iface <;> rfl
    | _ => rfl

private theorem choice_isSome (net : Net) : (choice net).isSome = (net.enc.usable || net.winc.usable) := by
  unfold choice
  cases net.enc.usable <;> cases net.winc.usable <;> rfl

private theorem network_passed {d : Device} {e : Event} {router : Router} (passed : Passed d)
    (stepped : d.router.step e = some router) : Passed { d with router, found := d.foundBy e } := by
  cases e with
  | poll input =>
    simp only [Router.step] at stepped
    split at stepped
    next => cases stepped; exact (congrArg Option.isSome (pollMode_default ..)).trans passed
    next => contradiction
  | queue started =>
    simp only [Router.step] at stepped
    split at stepped
    next => cases stepped; exact (congrArg Option.isSome (queue_default ..)).trans passed
    next => contradiction
  | select =>
    simp only [Router.step] at stepped
    split at stepped
    next =>
      cases stepped
      unfold Passed Device.foundBy selectTimeout
      dsimp only
      split
      next =>
        rw [(selectInterface_spec d.router.g { d.router.net with dhcpTimeout := 1 }).2]
        exact choice_isSome _
      next => exact passed
    next => contradiction
  | tcpip iface bound ipAddr netmask gw =>
    cases stepped
    cases iface <;> exact passed
  | others g =>
    cases stepped
    exact passed

private theorem socket_kept {d next : Device} {a : Act} (stepped : d.step a = some next) (stays : ∀ e, a ≠ .network e)
    (unread : ∀ low, a ≠ .readAddress low) :
    next.router = d.router ∧ next.reads = d.reads ∧ next.found = d.found := by
  cases a with
  | network e => exact absurd rfl (stays e)
  | readAddress low => exact absurd rfl (unread low)
  | getaddrinfo answer memory =>
    simp only [Device.step] at stepped
    split at stepped
    next => split at stepped <;> cases stepped <;> exact ⟨rfl,rfl,rfl⟩
    next => contradiction
  | socket | bind | connect | repeat_ =>
    simp only [Device.step] at stepped
    split at stepped
    next => cases stepped; exact ⟨rfl,rfl,rfl⟩
    next => contradiction

private theorem read_step {d next : Device} {low : UInt32} (stepped : d.step (.readAddress low) = some next) :
    next.router = d.router ∧ next.reads = d.reads ++ [d.router.net.netifDefault] ∧ next.found = d.found := by
  simp only [Device.step] at stepped
  split at stepped
  next => cases stepped; exact ⟨rfl,rfl,rfl⟩
  next => contradiction

theorem step_passed (d : Device) (a : Act) (next : Device) (passed : Passed d) (stepped : d.step a = some next) :
    Passed next := by
  have same (router : next.router = d.router) (found : next.found = d.found) : Passed next := by
    rw [Passed, router, found]
    exact passed
  cases a with
  | network e =>
    obtain ⟨router,moved,rfl⟩ := Option.map_eq_some_iff.mp stepped
    exact network_passed passed moved
  | readAddress low =>
    obtain ⟨router,_,found⟩ := read_step stepped
    exact same router found
  | getaddrinfo | socket | bind | connect | repeat_ =>
    obtain ⟨router,_,found⟩ := socket_kept stepped (fun _ => by simp) (fun _ => by simp)
    exact same router found

private theorem step_safe (d : Device) (a : Act) (next : Device) (passed : Passed d) (safe : Safe d)
    (stepped : d.step a = some next) : Safe next ↔ Found d a := by
  have kept (reads : next.reads = d.reads) : Safe next := by
    rw [Safe, reads]
    exact safe
  cases a with
  | network e =>
    obtain ⟨router,_,rfl⟩ := Option.map_eq_some_iff.mp stepped
    exact iff_of_true (kept rfl) trivial
  | readAddress low =>
    obtain ⟨_,reads,_⟩ := read_step stepped
    have pointer : d.router.net.netifDefault.isSome = d.found := passed
    rw [Safe, reads, List.mem_append, List.mem_singleton, Found, ← pointer, Option.isSome_iff_ne_none]
    exact ⟨fun outside null => outside (.inr null.symm),fun some either => either.elim safe fun null => some null.symm⟩
  | getaddrinfo | socket | bind | connect | repeat_ =>
    obtain ⟨_,reads,_⟩ := socket_kept stepped (fun _ => by simp) (fun _ => by simp)
    exact iff_of_true (kept reads) trivial

/-- From any boot the address of the default interface is never read through a null pointer exactly when each
read comes after a selection pass that found an interface, with none since that found none. -/
theorem address_read (g : Globals) (boot : NetBoot) (acts : List Act) :
    Always Device.step Safe (.start g boot) acts ↔ Meets Device.step Found (.start g boot) acts :=
  always_iff_meets step_passed step_safe rfl List.not_mem_nil

/-- A link that is a number needs no network, and with no lease and no link there is no interface. -/
theorem address_read_null :
    let g := { Globals.initial (zeros 235) with apiLink1 := strcpyLit (zeros 240) "10.0.0.1" }
    let iteration := [Event.poll ⟨false,[]⟩,.queue true,.select]
    ¬ Always Device.step Safe (.start g ⟨true,true,true,true⟩)
      ((iteration ++ iteration).map Act.network ++ [.getaddrinfo none true,.socket true,.readAddress 0]) := by
  decide +kernel

end PulseFirmware.ConnectAddress
