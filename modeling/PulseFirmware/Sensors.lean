import Mathlib.Data.List.Basic
import PulseFirmware.Lib.CString

/-! The sensor readings: four structures that hold the same values for one to four circuits, the
functions of `sensors_task_fn` that write them, the notification over BLE and the body of the HTTP
request. What the float formulas compute does not matter here. -/
namespace PulseFirmware.Sensors
open PulseFirmware.CString

inductive SensorField
  | rarh10 | radb10 | sarh10 | sadb10 | oarh10 | oadb10
  | sltc11 | sltc21 | sltc31 | sltc41 | lltc11 | lltc21 | lltc31 | lltc41
  | spc11 | spc21 | spc31 | spc41 | llpc11 | llpc21 | llpc31 | llpc41
  | iUei1 | iUei2 | iUei3 | uUei1 | uUei2 | uUei3
  | powerFactor | activeWatts | wire1_orange | wire2_white | wire3_yellow
deriving DecidableEq

inductive Struct
  | state1 | state2 | state3 | state4
deriving DecidableEq

open SensorField Struct

def Struct.fields : Struct → List SensorField
  | .state1 => [rarh10,radb10,sarh10,sadb10,oarh10,oadb10,sltc11,lltc11,spc11,llpc11,
      iUei1,iUei2,iUei3,uUei1,uUei2,uUei3,powerFactor,activeWatts,wire1_orange,wire2_white,wire3_yellow]
  | .state2 => [rarh10,radb10,sarh10,sadb10,oarh10,oadb10,sltc11,sltc21,lltc11,lltc21,spc11,spc21,llpc11,llpc21,
      iUei1,iUei2,iUei3,uUei1,uUei2,uUei3,powerFactor,activeWatts,wire1_orange,wire2_white,wire3_yellow]
  | .state3 => [rarh10,radb10,sarh10,sadb10,oarh10,oadb10,sltc11,sltc21,sltc31,lltc11,lltc21,lltc31,
      spc11,spc21,spc31,llpc11,llpc21,llpc31,
      iUei1,iUei2,iUei3,uUei1,uUei2,uUei3,powerFactor,activeWatts,wire1_orange,wire2_white,wire3_yellow]
  | .state4 => [rarh10,radb10,sarh10,sadb10,oarh10,oadb10,sltc11,sltc21,sltc31,sltc41,lltc11,lltc21,lltc31,lltc41,
      spc11,spc21,spc31,spc41,llpc11,llpc21,llpc31,llpc41,
      iUei1,iUei2,iUei3,uUei1,uUei2,uUei3,powerFactor,activeWatts,wire1_orange,wire2_white,wire3_yellow]

/-- The float values that occur and the formulas that give them. -/
structure Formulas (V : Type) where
  zero : V
  one : V
  /-- -32.125 -/
  null : V
  isnan : V → Bool
  scratchpad : UInt8 → UInt8 → V
  temperature : Nat → V
  humidity : Nat → V
  suction : Int → V
  liquid : Int → V
  volts : Nat → V
  amps : Nat → V
  powerFactor : Nat → V
  watts : Nat → V

/-- The statics of a one-wire probe: `bad_`, `flag_`, and `x1_` to `x6_`. -/
structure Probe where
  bad : Nat
  flag : Bool
  x : List UInt8

/-- The one-wire probes and the places of the HTU21D sensors. -/
inductive Place
  | sltc11 | lltc11 | sltc21 | lltc21 | sltc31 | lltc31 | sltc41 | lltc41
deriving DecidableEq

structure Board (V : Type) where
  sensors : Struct → SensorField → V
  probe : Place → Probe
  /-- `bad_oadb_count` and so on, by field -/
  badCount : SensorField → Nat
  configString1 : Bytes 240
  resetPulse : Bytes 30
  /-- the structure of the last notification, if it had one -/
  notified : Option (Struct × (SensorField → V))

section
variable {V : Type} (φ : Formulas V)

def Board.init (configString1 : Bytes 240) : Board V :=
  ⟨fun _ _ => φ.zero,fun _ => ⟨0,false,[0,0,0,0,0,0]⟩,fun _ => 0,configString1,zeros 30,none⟩

variable {φ}

def Board.assign (b : Board V) (structs : List Struct) (f : SensorField) (v : V) : Board V :=
  { b with sensors := fun k g => if k ∈ structs ∧ g = f then v else b.sensors k g }

variable (φ)

def dsCRC8 (addr : List UInt8) : UInt8 :=
  addr.foldl (fun crc inbyte =>
    ((List.range 8).foldl (fun (crc,inbyte) _ =>
      let mix := (crc ^^^ inbyte) &&& 1
      let crc := crc >>> 1
      (if mix ≠ 0 then crc ^^^ 0x8C else crc,inbyte >>> 1)) (crc,inbyte)).1) 0

/-- The scratch pad, with the bytes 2 to 7 of the last good one. -/
def Probe.get (probe : Probe) (scratch : Bytes 9) : List UInt8 :=
  if probe.flag then scratch.toList.take 2 ++ probe.x ++ scratch.toList.drop 8 else scratch.toList

/-- The part that the `Read_Temperature_` functions share, from the scratch pad on. -/
def readTemperature (structs : List Struct) (f : SensorField) (place : Place) (scratch : Bytes 9) (b : Board V) : Board V :=
  let probe := b.probe place
  let get := probe.get scratch
  let crc1 := dsCRC8 (get.take 8)
  let temp := φ.scratchpad (get.getD 0 0) (get.getD 1 0)
  let keep (b : Board V) (probe : Probe) : Board V := { b with probe := Function.update b.probe place probe }
  if crc1 = get.getD 8 0 then
    keep (b.assign structs f temp) ⟨0,true,(get.drop 2).take 6⟩
  else if probe.bad + 1 > 500 then
    keep (b.assign structs f φ.null) { probe with bad := 0 }
  else keep b { probe with bad := probe.bad + 1 }

def readTemperatureSltc11 := readTemperature φ [state1,state2,state3,state4] sltc11 .sltc11
def readTemperatureLltc11 := readTemperature φ [state1,state2,state3,state4] lltc11 .lltc11
def readTemperatureSltc21 := readTemperature φ [state2,state3,state4] sltc21 .sltc21
def readTemperatureLltc21 := readTemperature φ [state2,state3,state4] lltc21 .lltc21
def readTemperatureSltc31 := readTemperature φ [state3,state4] sltc31 .sltc31
def readTemperatureLltc31 := readTemperature φ [state3,state4] lltc31 .lltc31
def readTemperatureSltc41 := readTemperature φ [state4] sltc41 .sltc41
def readTemperatureLltc41 := readTemperature φ [state4] lltc41 .lltc41

structure Pin where
  first : Bool
  again : Bool

/-- A wire is on when its pin is low, or is low a millisecond later. -/
def wire (f : SensorField) (pin : Pin) (b : Board V) : Board V :=
  if pin.first = false then b.assign [state1,state2,state3,state4] f φ.one
  else if pin.again then b.assign [state1,state2,state3,state4] f φ.zero
  else b.assign [state1,state2,state3,state4] f φ.one

def thermostatSignals (orange white yellow : Pin) (b : Board V) : Board V :=
  wire φ wire3_yellow yellow (wire φ wire2_white white (wire φ wire1_orange orange b))

structure Meter where
  urmsA : UInt16
  urmsB : UInt16
  urmsC : UInt16
  irmsA : UInt16
  irmsB : UInt16
  irmsC : UInt16
  pf : UInt16
  activePower : UInt16

def energyMeasurement (m : Meter) (b : Board V) : Board V :=
  let b := b.assign [state1,state2,state3,state4] uUei1 (φ.volts m.urmsA.toNat)
  let b := b.assign [state1,state2,state3,state4] uUei2 (φ.volts m.urmsB.toNat)
  let b := b.assign [state1,state2,state3,state4] uUei3 (φ.volts m.urmsC.toNat)
  let b := b.assign [state1,state2,state3,state4] iUei1 (φ.amps m.irmsA.toNat)
  let b := b.assign [state1,state2,state3,state4] iUei2 (φ.amps m.irmsB.toNat)
  let b := b.assign [state1,state2,state3,state4] iUei3 (φ.amps m.irmsC.toNat)
  let b := b.assign [state1,state2,state3,state4] powerFactor (φ.powerFactor m.pf.toNat)
  b.assign [state1,state2,state3,state4] activeWatts (φ.watts m.activePower.toNat)

structure Samples where
  p1 : Int
  p2 : Int
  p3 : Int
  p4 : Int
  p5 : Int
  p6 : Int
  p7 : Int
  p8 : Int

def pressure (structs : List Struct) (f : SensorField) (p : V) (b : Board V) : Board V :=
  if φ.isnan p = false then b.assign structs f p else b

def saadcCallback (adc : Samples) (b : Board V) : Board V :=
  let b := pressure φ [state1,state2,state3,state4] spc11 (φ.suction adc.p1) b
  let b := pressure φ [state1,state2,state3,state4] llpc11 (φ.liquid adc.p2) b
  let b := pressure φ [state2,state3,state4] spc21 (φ.suction adc.p3) b
  let b := pressure φ [state2,state3,state4] llpc21 (φ.liquid adc.p4) b
  let b := pressure φ [state3,state4] spc31 (φ.suction adc.p5) b
  let b := pressure φ [state3,state4] llpc31 (φ.liquid adc.p6) b
  let b := pressure φ [state4] spc41 (φ.suction adc.p7) b
  pressure φ [state4] llpc41 (φ.liquid adc.p8) b

def checkCRC (messageFromSensor checkValueFromSensor : Nat) : Nat :=
  (List.range 16).foldl (fun remainder i =>
    if remainder.testBit (23 - i) then remainder ^^^ (0x988000 >>> i) else remainder)
    (messageFromSensor <<< 8 ||| checkValueFromSensor) % 256

/-- The bytes in `returned_over_I2C` after a transfer. -/
structure Transfer where
  msb : UInt8
  lsb : UInt8
  crc : UInt8

/-- The part that `read_sensor_data_temp` and `read_sensor_data_HUM` share for a port with a
sensor; no transfer means that `nrf_drv_twi_rx` failed. -/
def readSensorData (f : SensorField) (formula : Nat → V) (rx : Option Transfer) (b : Board V) : Board V :=
  match rx with
  | none => b
  | some t =>
    let raw := t.msb.toNat * 256 + t.lsb.toNat
    let count (b : Board V) (n : Nat) : Board V := { b with badCount := Function.update b.badCount f n }
    if checkCRC raw t.crc.toNat ≠ 0 ∨ (t.msb = 0 ∧ t.lsb = 0) then
      if b.badCount f + 1 > 500 then count (b.assign [state1,state2,state3,state4] f φ.null) 0
      else count b (b.badCount f + 1)
    else count (b.assign [state1,state2,state3,state4] f (formula raw)) 0

inductive Port
  | port2 | port4 | port6

def readSensorDataTemp : Port → Option Transfer → Board V → Board V
  | .port2 => readSensorData φ oadb10 φ.temperature
  | .port4 => readSensorData φ radb10 φ.temperature
  | .port6 => readSensorData φ sadb10 φ.temperature

def readSensorDataHUM : Port → Option Transfer → Board V → Board V
  | .port2 => readSensorData φ oarh10 φ.humidity
  | .port4 => readSensorData φ rarh10 φ.humidity
  | .port6 => readSensorData φ sarh10 φ.humidity

structure Config where
  circuit : Nat
  phase : Nat
  voltage : Nat
  frequen : Nat
deriving DecidableEq

def Config.text (c : Config) : String :=
  "config[circuit:" ++ toString c.circuit ++ ",phase:" ++ toString c.phase ++ ",voltage:" ++ toString c.voltage ++
    ",frequen:" ++ toString c.frequen ++ "]"

/-- `strcmp(config_string1, text) == 0` for one of the texts. -/
def compared (configString1 : Bytes 240) (configs : List Config) : Bool :=
  configs.any fun c => strcmpEq configString1.toList (literal c.text)

/-- The branches of `ble_sensors_update`: the structure to notify and its fields set to NULL. -/
def bleBranches : List (List Config × Struct × List SensorField) :=
  [([⟨1,1,120,60⟩],state1,[uUei2,uUei3,iUei2,iUei3]),
   ([⟨1,1,240,60⟩,⟨1,1,460,60⟩,⟨1,1,240,50⟩],state1,[uUei3,iUei3]),
   ([⟨1,3,240,60⟩,⟨1,3,460,60⟩,⟨1,3,460,50⟩],state1,[]),
   ([⟨2,1,120,60⟩],state2,[uUei2,uUei3,iUei2,iUei3]),
   ([⟨2,1,240,60⟩,⟨2,1,460,60⟩,⟨2,1,240,50⟩],state2,[uUei3,iUei3]),
   ([⟨2,3,240,60⟩,⟨2,3,460,60⟩,⟨2,3,460,50⟩],state2,[]),
   ([⟨3,1,120,60⟩],state3,[uUei2,uUei3,iUei2,iUei3]),
   ([⟨3,1,240,60⟩,⟨3,1,460,60⟩,⟨3,1,240,50⟩],state3,[uUei3,iUei3]),
   ([⟨3,3,240,60⟩,⟨3,3,460,60⟩,⟨3,3,460,50⟩],state3,[]),
   ([⟨4,1,120,60⟩],state4,[uUei2,uUei3,iUei2,iUei3]),
   ([⟨4,1,240,60⟩,⟨4,1,460,60⟩,⟨4,1,240,50⟩],state4,[uUei3,iUei3]),
   ([⟨4,3,240,60⟩,⟨4,3,460,60⟩,⟨4,3,460,50⟩],state4,[])]

def chosen {α : Type} (configString1 : Bytes 240) (branches : List (List Config × α)) : Option α :=
  (branches.find? fun branch => compared configString1 branch.1).map Prod.snd

def bleSensorsUpdate (b : Board V) : Board V :=
  if strcmpEq b.resetPulse.toList (literal "reset_pulse!") then { b with notified := none }
  else
    match chosen b.configString1 bleBranches with
    | none => { b with notified := none }
    | some (struct,nulls) =>
      let b := nulls.foldl (fun b f => b.assign [struct] f φ.null) b
      { b with notified := some (struct,b.sensors struct) }

/-- A line of the JSON text and the field of `sensors_state4` that is printed in it. -/
abbrev Line := String × SensorField

def prepareDataStringCircuit1 : List Line :=
  [("rarh-1",rarh10),("radb-1",radb10),("sarh-1",sarh10),("sadb-1",sadb10),("oarh-1",oarh10),("oadb-1",oadb10),
   ("spc-1",spc11),("llpc-1",llpc11),("sltc-1",sltc11),("lltc-1",lltc11),
   ("to",wire1_orange),("tw",wire2_white),("ty",wire3_yellow)]
def prepareDataStringCircuit2 : List Line := [("spc-2",spc21),("llpc-2",llpc21),("sltc-2",sltc21),("lltc-2",lltc21)]
def prepareDataStringCircuit3 : List Line := [("spc-3",spc31),("llpc-3",llpc31),("sltc-3",sltc31),("lltc-3",lltc31)]
def prepareDataStringCircuit4 : List Line := [("spc-4",spc41),("llpc-4",llpc41),("sltc-4",sltc41),("lltc-4",lltc41)]
def prepareDataStringPhase1 : List Line := [("volts-1",uUei1),("amps-1",iUei1)]
def prepareDataStringPhase2 : List Line := [("volts-2",uUei2),("amps-2",iUei2)]
def prepareDataStringPhase3 : List Line := [("volts-3",uUei3),("amps-3",iUei3)]
def prepareDataStringLast : List Line := [("pf",powerFactor),("watts",activeWatts)]

/-- The branches of `socket_test_task`: the parts of the body, in order. -/
def httpBranches : List (List Config × List (List Line)) :=
  [([⟨1,1,120,60⟩],
      [prepareDataStringCircuit1,prepareDataStringPhase1,prepareDataStringLast]),
   ([⟨1,1,240,60⟩,⟨1,1,460,60⟩,⟨1,1,240,50⟩],
      [prepareDataStringCircuit1,prepareDataStringPhase1,prepareDataStringPhase2,prepareDataStringLast]),
   ([⟨1,3,240,60⟩,⟨1,3,460,60⟩,⟨1,3,460,50⟩],
      [prepareDataStringCircuit1,prepareDataStringPhase1,prepareDataStringPhase2,prepareDataStringPhase3,
       prepareDataStringLast]),
   ([⟨2,1,120,60⟩],
      [prepareDataStringCircuit1,prepareDataStringCircuit2,prepareDataStringPhase1,prepareDataStringLast]),
   ([⟨2,1,240,60⟩,⟨2,1,460,60⟩,⟨2,1,240,50⟩],
      [prepareDataStringCircuit1,prepareDataStringCircuit2,prepareDataStringPhase1,prepareDataStringPhase2,
       prepareDataStringLast]),
   ([⟨2,3,240,60⟩,⟨2,3,460,60⟩,⟨2,3,460,50⟩],
      [prepareDataStringCircuit1,prepareDataStringCircuit2,prepareDataStringPhase1,prepareDataStringPhase2,
       prepareDataStringPhase3,prepareDataStringLast]),
   ([⟨3,1,120,60⟩],
      [prepareDataStringCircuit1,prepareDataStringCircuit2,prepareDataStringCircuit3,prepareDataStringPhase1,
       prepareDataStringLast]),
   ([⟨3,1,240,60⟩,⟨3,1,460,60⟩,⟨3,1,240,50⟩],
      [prepareDataStringCircuit1,prepareDataStringCircuit2,prepareDataStringCircuit3,prepareDataStringPhase1,
       prepareDataStringPhase2,prepareDataStringLast]),
   ([⟨3,3,240,60⟩,⟨3,3,460,60⟩,⟨3,3,460,50⟩],
      [prepareDataStringCircuit1,prepareDataStringCircuit2,prepareDataStringCircuit3,prepareDataStringPhase1,
       prepareDataStringPhase2,prepareDataStringPhase3,prepareDataStringLast]),
   ([⟨4,1,120,60⟩],
      [prepareDataStringCircuit1,prepareDataStringCircuit2,prepareDataStringCircuit3,prepareDataStringCircuit4,
       prepareDataStringPhase1,prepareDataStringLast]),
   ([⟨4,1,240,60⟩,⟨4,1,460,60⟩,⟨4,1,240,50⟩],
      [prepareDataStringCircuit1,prepareDataStringCircuit2,prepareDataStringCircuit3,prepareDataStringCircuit4,
       prepareDataStringPhase1,prepareDataStringPhase2,prepareDataStringLast]),
   ([⟨4,3,240,60⟩,⟨4,3,460,60⟩,⟨4,3,460,50⟩],
      [prepareDataStringCircuit1,prepareDataStringCircuit2,prepareDataStringCircuit3,prepareDataStringCircuit4,
       prepareDataStringPhase1,prepareDataStringPhase2,prepareDataStringPhase3,prepareDataStringLast])]

/-- The body that `socket_test_task` builds: labels, and values from `sensors_state4`. -/
def httpBody (b : Board V) : Option (List (String × V)) :=
  (chosen b.configString1 httpBranches).map fun parts => parts.flatten.map fun (label,f) => (label,b.sensors state4 f)

/-- A call that `sensors_task_fn` makes, the interrupt of the analog channels, or a change of the
configuration or a reset command from another task. -/
inductive Event
  | sltc11 (scratch : Bytes 9) | lltc11 (scratch : Bytes 9) | sltc21 (scratch : Bytes 9) | lltc21 (scratch : Bytes 9)
  | sltc31 (scratch : Bytes 9) | lltc31 (scratch : Bytes 9) | sltc41 (scratch : Bytes 9) | lltc41 (scratch : Bytes 9)
  | thermostat (orange white yellow : Pin)
  | energy (meter : Meter)
  | temp (port : Port) (rx : Option Transfer)
  | hum (port : Port) (rx : Option Transfer)
  | update
  | saadc (adc : Samples)
  | config (configString1 : Bytes 240)
  | reset (resetPulse : Bytes 30)

def Board.step (b : Board V) : Event → Board V
  | .sltc11 scratch => readTemperatureSltc11 φ scratch b
  | .lltc11 scratch => readTemperatureLltc11 φ scratch b
  | .sltc21 scratch => readTemperatureSltc21 φ scratch b
  | .lltc21 scratch => readTemperatureLltc21 φ scratch b
  | .sltc31 scratch => readTemperatureSltc31 φ scratch b
  | .lltc31 scratch => readTemperatureLltc31 φ scratch b
  | .sltc41 scratch => readTemperatureSltc41 φ scratch b
  | .lltc41 scratch => readTemperatureLltc41 φ scratch b
  | .thermostat orange white yellow => thermostatSignals φ orange white yellow b
  | .energy meter => energyMeasurement φ meter b
  | .temp port rx => readSensorDataTemp φ port rx b
  | .hum port rx => readSensorDataHUM φ port rx b
  | .update => bleSensorsUpdate φ b
  | .saadc adc => saadcCallback φ adc b
  | .config configString1 => { b with configString1 }
  | .reset resetPulse => { b with resetPulse }

def Board.run (b : Board V) (events : List Event) : Board V := events.foldl (Board.step φ) b

end

/-- What the sensors deliver in one cycle. -/
structure Readings where
  sltc11 : Bytes 9
  lltc11 : Bytes 9
  sltc21 : Bytes 9
  lltc21 : Bytes 9
  sltc31 : Bytes 9
  lltc31 : Bytes 9
  sltc41 : Bytes 9
  lltc41 : Bytes 9
  orange : Pin
  white : Pin
  yellow : Pin
  meter : Meter
  oadb : Option Transfer
  oarh : Option Transfer
  radb : Option Transfer
  rarh : Option Transfer
  sadb : Option Transfer
  sarh : Option Transfer

/-- The loop body of `sensors_task_fn` up to the notification. -/
def Readings.cycle (r : Readings) : List Event :=
  [.sltc11 r.sltc11,.lltc11 r.lltc11,.sltc21 r.sltc21,.lltc21 r.lltc21,
   .sltc31 r.sltc31,.lltc31 r.lltc31,.sltc41 r.sltc41,.lltc41 r.lltc41,
   .thermostat r.orange r.white r.yellow,.energy r.meter,
   .temp .port2 r.oadb,.hum .port2 r.oarh,.temp .port4 r.radb,.hum .port4 r.rarh,.temp .port6 r.sadb,.hum .port6 r.sarh]

def Event.interrupt : Event → Bool
  | .saadc _ => true
  | _ => false

end PulseFirmware.Sensors
