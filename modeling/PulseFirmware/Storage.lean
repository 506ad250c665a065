import PulseFirmware.Settings

/-! The storage task of main_app.c, as sections that are entered when their condition holds.
A section is a list of actions, so that the places where other tasks may run are states of
their own. -/
namespace PulseFirmware
open PulseFirmware.CString PulseFirmware.Flash

def configAddr : Nat := 0xed000
def flashAddrToken : Nat := 0xee200
def flashAddrLink : Nat := 0xee100
def flashAddrIp : Nat := 0xef000
def flashAddrGw : Nat := 0xef100
def flashAddrMask : Nat := 0xef200
def flashAddrCheckWifi : Nat := 0xf0000
def flashAddrDhcp : Nat := 0xf1000
def flashAddrIsInternet : Nat := 0xee000
def flashAddrSsid : Nat := 0xee500
def flashAddrKey : Nat := 0xee600

/-- The pages of the chip, with what programming leaves in a cell. -/
def paged (cell : UInt8 → UInt8 → UInt8) : Chip UInt8 := ⟨4096,0xff,cell⟩

/-- The flash of the chip: a program operation can only clear bits. -/
def nor : Chip UInt8 := paged (· &&& ·)

/-- The same pages, on cells that take any value. -/
def ideal : Chip UInt8 := paged fun _ new => new

theorem nor_fresh : nor.Fresh := fun _ => UInt8.neg_one_and

theorem ideal_overwrites : ideal.Overwrites := fun _ _ => rfl

/-- An action of the task: a delay, `wait_for_flash_ready`, a call of fstorage with its address
and length, or plain code. -/
inductive Op
  | vTaskDelay
  | waitForFlashReady
  | erase (addr : Nat)
  | write (addr len : Nat) (src : Globals → List UInt8)
  | read (addr len : Nat) (dst : Globals → List UInt8 → Globals)
  | compute (f : Globals → Outcome Globals)

/-- Other tasks run during these actions. -/
def Op.yields : Op → Bool
  | .vTaskDelay | .waitForFlashReady => true
  | _ => false

def Op.flashed (chip : Chip UInt8) (g : Globals) (flash : Content UInt8) : Op → Content UInt8
  | .erase addr => chip.erase flash addr
  | .write addr len src => chip.program flash addr ((src g).take len)
  | .vTaskDelay | .waitForFlashReady | .read _ _ _ | .compute _ => flash

def Op.touches (g : Globals) (a : Nat) : Op → Bool
  | .erase addr => decide (a / 4096 = addr / 4096)
  | .write addr len src => decide (Inside addr ((src g).take len).length a)
  | .vTaskDelay | .waitForFlashReady | .read _ _ _ | .compute _ => false

def Op.computed (g : Globals) (flash : Content UInt8) : Op → Outcome Globals
  | .read addr len dst => .ok (dst g (Flash.read flash addr len))
  | .compute f => f g
  | .vTaskDelay | .waitForFlashReady | .erase _ | .write _ _ _ => .ok g

def Op.exec (chip : Chip UInt8) (g : Globals) (flash : Content UInt8) (op : Op) : Outcome (Globals × Content UInt8) := do
  let g' ← op.computed g flash
  return (g',op.flashed chip g flash)

/-- The `'z'` that takes a string back to its initial state. -/
def z : List UInt8 := ascii "z"

def bootReads : List Op := [
  .read configAddr 48 fun g data => { g with configString1 := memcpy g.configString1 data },
  .read flashAddrToken 240 fun g data => { g with apiToken1 := memcpy g.apiToken1 data },
  .read flashAddrLink 240 fun g data => { g with apiLink1 := memcpy g.apiLink1 data },
  .read flashAddrIp 4 fun g data => { g with ipaddrValue := unword data },
  .read flashAddrGw 4 fun g data => { g with gwValue := unword data },
  .read flashAddrMask 4 fun g data => { g with maskValue := unword data },
  .read flashAddrCheckWifi 8 fun g data => { g with dhcpCheckWifi := memcpy g.dhcpCheckWifi data },
  .read flashAddrDhcp 8 fun g data => { g with dhcpCheckEth := memcpy g.dhcpCheckEth data },
  .read flashAddrIsInternet 8 fun g data => { g with isInternet1 := memcpy g.isInternet1 data },
  .read flashAddrSsid 80 fun g data => { g with ssidNew := memcpy g.ssidNew data },
  .read flashAddrKey 80 fun g data => { g with keyNew := memcpy g.keyNew data },
  .compute fun g => .ok { g with ssidLen := strlen g.ssidNew.toList }]

def flagSet (flag : Bytes 50) : Bool :=
  strncmpEq flag.toList (literal "true") 4 || strncmpEq flag.toList (literal "false") 4

def defaultWifi : List Op := [
  .write 0xf0000 240 (·.trueDhcp.toList),
  .waitForFlashReady,
  .compute fun g => .ok { g with dhcpCheckWifi := strcpyLit g.dhcpCheckWifi "true" }]

def defaultEth : List Op := [
  .write 0xf1000 240 (·.trueDhcp.toList),
  .waitForFlashReady,
  .compute fun g => .ok { g with dhcpCheckEth := strcpyLit g.dhcpCheckEth "true" }]

def testInternetOps : List Op := [
  .vTaskDelay,
  .compute fun g =>
    .ok { g.reply (if g.checkInternet && g.ledOn then .successInternet else .failedInternet) with
      testInternet := false }]

def tokenDone (g : Globals) : Outcome Globals := do
  let copy ← strcpyOr g.apiToken1 g.apiToken.toList
  return { g.reply .successToken with
    apiToken1 := copy
    apiToken := memcpy g.apiToken z
    apiTokenFirst := memcpy g.apiTokenFirst z }

def linkDone (g : Globals) : Outcome Globals := do
  let copy ← strcpyOr g.apiLink1 g.apiLink.toList
  return { g.reply .successLink with
    apiLink1 := copy
    apiLink := memcpy g.apiLink z
    apiLinkFirst := memcpy g.apiLinkFirst z }

def ssidDone (g : Globals) : Outcome Globals := .ok { g with ssidChanged := false }

def keyDone (g : Globals) : Outcome Globals := .ok { g with keyChanged := false }

def internetCopy (g : Globals) : Outcome Globals := do
  let copy ← strcpyOr g.isInternet1 g.isInternet.toList
  return { g with isInternet1 := copy, isInternet := memcpy g.isInternet z }

def internetDone (g : Globals) : Outcome Globals :=
  .ok { g.reply .successWifiEth with isInternetFirst := memcpy g.isInternetFirst z }

def configDone (g : Globals) : Outcome Globals :=
  .ok { g.reply .successEquipment with
    configString1 := memcpy g.configString1 (g.configString.toList.take 48)
    configString := strcpyLit g.configString "z" }

def ipDone (g : Globals) : Outcome Globals :=
  .ok { g with ipaddressChanged := strcpyLit g.ipaddressChanged "unchanged" }

def dhcpDone (g : Globals) : Outcome Globals :=
  .ok { g with dhcpCheckChanged := strcpyLit g.dhcpCheckChanged "false" }

def saveOps : Setting → List Op
  | .token => [.vTaskDelay,.write 0xee200 240 (·.apiToken.toList),.waitForFlashReady,.compute tokenDone]
  | .link => [.vTaskDelay,.write 0xee100 240 (·.apiLink.toList),.waitForFlashReady,.compute linkDone]
  | .ssid => [.vTaskDelay,.write 0xee500 80 (·.ssidSavedCopy.toList),.waitForFlashReady,.compute ssidDone]
  | .key => [.vTaskDelay,.write 0xee600 80 (·.keyCopy.toList),.waitForFlashReady,.compute keyDone]
  | .internet => [
    .erase 0xee000,.waitForFlashReady,
    .vTaskDelay,.write 0xee000 240 (·.isInternet.toList),.waitForFlashReady,.compute internetCopy,
    .vTaskDelay,.compute internetDone]
  | .config => [
    .erase 0xed000,.waitForFlashReady,
    .vTaskDelay,.write 0xed000 240 (·.configString.toList),.waitForFlashReady,.compute configDone]
  | .ip => [
    .erase 0xef000,.waitForFlashReady,
    .vTaskDelay,.write 0xef000 4 (fun g => word g.ipaddr),.waitForFlashReady,.vTaskDelay,
    .vTaskDelay,.write 0xef100 4 (fun g => word g.gwaddr),.waitForFlashReady,
    .vTaskDelay,.write 0xef200 4 (fun g => word g.netmask),.waitForFlashReady,
    .vTaskDelay,.compute ipDone]
  | .dhcp => [
    .erase 0xf0000,.waitForFlashReady,
    .vTaskDelay,.write 0xf0000 8 (·.dhcpCheckWifi.toList),.waitForFlashReady,.vTaskDelay,
    .erase 0xf1000,.waitForFlashReady,
    .vTaskDelay,.write 0xf1000 8 (·.dhcpCheckEth.toList),.waitForFlashReady,.vTaskDelay,
    .compute dhcpDone]

/-- The parts of `storage_task_fn`, in the order of the source. -/
inductive Stage
  | bootRead
  | bootWifi
  | bootEth
  | testInternet
  | restart
  | save (x : Setting)
  | update
deriving DecidableEq

def Stage.next : Stage → Stage
  | .bootRead => .bootWifi
  | .bootWifi => .bootEth
  | .bootEth => .testInternet
  | .testInternet => .restart
  | .restart => .save .token
  | .save .token => .save .link
  | .save .link => .save .ssid
  | .save .ssid => .save .key
  | .save .key => .save .internet
  | .save .internet => .save .config
  | .save .config => .save .ip
  | .save .ip => .save .dhcp
  | .save .dhcp => .update
  | .update => .testInternet

def Stage.guard : Stage → Globals → Bool
  | .bootRead, _ => true
  | .bootWifi, g => flagSet g.dhcpCheckWifi
  | .bootEth, g => flagSet g.dhcpCheckEth
  | .testInternet, g => g.testInternet
  | .restart, g => g.restartSystem && !g.isBleOn
  | .save x, g => x.pending g
  | .update, g => strcmpEq g.update.toList (literal "true")

def Stage.ops : Stage → Bool → List Op
  | .bootRead, true => bootReads
  | .bootWifi, true => [.vTaskDelay]
  | .bootWifi, false => defaultWifi
  | .bootEth, true => [.vTaskDelay]
  | .bootEth, false => defaultEth
  | .testInternet, true => testInternetOps
  | .restart, true => [.compute fun _ => .error .reset]
  | .save x, true => saveOps x
  | .update, true => [.compute fun _ => .error .reset]
  | .update, false => [.vTaskDelay]
  | .bootRead, false | .testInternet, false | .restart, false | .save _, false => []

/-- The branches that write a default flag. -/
def Stage.defaults : Stage → Bool → Bool
  | .bootWifi, false | .bootEth, false => true
  | _, _ => false

/-- A place in the task: before the condition of a stage, or before action `k` of a branch. -/
inductive Pc
  | enter (stage : Stage)
  | inside (stage : Stage) (branch : Bool) (k : Nat)
deriving DecidableEq

def Pc.stage : Pc → Stage
  | .enter stage => stage
  | .inside stage _ _ => stage

def Pc.defaults : Pc → Bool
  | .enter _ => false
  | .inside stage branch _ => stage.defaults branch

def Pc.head : Pc := .enter .testInternet

def Pc.goto (stage : Stage) (branch : Bool) (k : Nat) : Pc :=
  if k < (stage.ops branch).length then .inside stage branch k else .enter stage.next

/-- The action the task is about to take, or waits in. -/
def Pc.op? : Pc → Option Op
  | .enter _ => none
  | .inside stage branch k => (stage.ops branch)[k]?

def Pc.yields (pc : Pc) : Bool := pc.op?.any Op.yields

/-- One step of the task; `goto` leads to no place without an action. -/
def storageStep (chip : Chip UInt8) (g : Globals) (flash : Content UInt8) : Pc →
    Outcome (Globals × Content UInt8 × Pc)
  | .enter stage => .ok (g,flash,.goto stage (stage.guard g) 0)
  | .inside stage branch k =>
    match (stage.ops branch)[k]? with
    | none => .error .fault
    | some op => do
      let (g,flash) ← op.exec chip g flash
      return (g,flash,.goto stage branch (k + 1))

def execOps (chip : Chip UInt8) : List Op → Globals → Content UInt8 → Outcome (Globals × Content UInt8)
  | [], g, flash => .ok (g,flash)
  | op :: ops, g, flash => do
    let (g,flash) ← op.exec chip g flash
    execOps chip ops g flash

/-- What a list of actions does to the flash, the variables being as they are. -/
def flashOps (chip : Chip UInt8) (g : Globals) (ops : List Op) (flash : Content UInt8) : Content UInt8 :=
  ops.foldl (fun flash op => op.flashed chip g flash) flash

end PulseFirmware
