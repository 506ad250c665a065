import Mathlib.Algebra.Ring.Nat
import PulseFirmware.Globals
import PulseFirmware.Lib.Printf
import PulseFirmware.SensorReports

/-! The request that `socket_test_task` builds: the header goes through `sprintf` twice, first with
the link, then with the length of the body, and the parts of the body are appended to it. -/
namespace PulseFirmware.Http
open PulseFirmware.CString PulseFirmware.Printf
open PulseFirmware.Sensors (SensorField Config compared known chosen)

def joined (lines : List String) : List UInt8 := lines.flatMap ascii

inductive Part
  | circuit1 | circuit2 | circuit3 | circuit4 | phase1 | phase2 | phase3 | last
deriving DecidableEq

def datastrFormatCircuit1 : List String :=
  ["\x7b\n","\t\"token\":\"%s\",\n","\t\"pulseID\": \"%s\",\n","\t\"data\":\x7b\n",
   "\t\t\"rarh-1\": %0.2f,\n","\t\t\"radb-1\": %0.2f,\n","\t\t\"sarh-1\": %0.2f,\n","\t\t\"sadb-1\": %0.2f,\n",
   "\t\t\"oarh-1\": %0.2f,\n","\t\t\"oadb-1\": %0.2f,\n","\t\t\"spc-1\": %0.2f,\n","\t\t\"llpc-1\": %0.2f,\n",
   "\t\t\"sltc-1\": %0.2f,\n","\t\t\"lltc-1\": %0.2f,\n","\t\t\"to\": %0.2f,\n","\t\t\"tw\": %0.2f,\n","\t\t\"ty\": %0.2f,\n"]
def datastrFormatCircuit2 : List String :=
  ["\t\t\"spc-2\": %0.2f,\n","\t\t\"llpc-2\": %0.2f,\n","\t\t\"sltc-2\": %0.2f,\n","\t\t\"lltc-2\": %0.2f,\n"]
def datastrFormatCircuit3 : List String :=
  ["\t\t\"spc-3\": %0.2f,\n","\t\t\"llpc-3\": %0.2f,\n","\t\t\"sltc-3\": %0.2f,\n","\t\t\"lltc-3\": %0.2f,\n"]
def datastrFormatCircuit4 : List String :=
  ["\t\t\"spc-4\": %0.2f,\n","\t\t\"llpc-4\": %0.2f,\n","\t\t\"sltc-4\": %0.2f,\n","\t\t\"lltc-4\": %0.2f,\n"]
def datastrFormatPhase1 : List String := ["\t\t\"volts-1\": %0.2f,\n","\t\t\"amps-1\": %0.2f,\n"]
def datastrFormatPhase2 : List String := ["\t\t\"volts-2\": %0.2f,\n","\t\t\"amps-2\": %0.2f,\n"]
def datastrFormatPhase3 : List String := ["\t\t\"volts-3\": %0.2f,\n","\t\t\"amps-3\": %0.2f,\n"]
def datastrFormatLast : List String := ["\t\t\"pf\": %0.3f,\n","\t\t\"watts\": %0.2f\n","\t\x7d\n","\x7d\n"]

def Part.datastrFormat : Part → List UInt8
  | .circuit1 => joined datastrFormatCircuit1
  | .circuit2 => joined datastrFormatCircuit2
  | .circuit3 => joined datastrFormatCircuit3
  | .circuit4 => joined datastrFormatCircuit4
  | .phase1 => joined datastrFormatPhase1
  | .phase2 => joined datastrFormatPhase2
  | .phase3 => joined datastrFormatPhase3
  | .last => joined datastrFormatLast

def Part.lines : Part → List Sensors.Line
  | .circuit1 => Sensors.prepareDataStringCircuit1
  | .circuit2 => Sensors.prepareDataStringCircuit2
  | .circuit3 => Sensors.prepareDataStringCircuit3
  | .circuit4 => Sensors.prepareDataStringCircuit4
  | .phase1 => Sensors.prepareDataStringPhase1
  | .phase2 => Sensors.prepareDataStringPhase2
  | .phase3 => Sensors.prepareDataStringPhase3
  | .last => Sensors.prepareDataStringLast

/-- What a request is built from: `config_string1`, the memory from `API_token1`, `API_link1` and
`iM_pulse_ID` on, and `sensors_state4`. -/
structure Source (V : Type) where
  configString1 : Bytes 240
  apiToken1 : List UInt8
  apiLink1 : List UInt8
  iMPulseID : List UInt8
  sensorsState4 : SensorField → V

inductive Var
  | i | i1 | i2 | i3 | i4 | i5 | i6 | j
deriving DecidableEq

structure Buffers where
  httpDataReq : Bytes 200
  part : Part → Bytes 1024
  txbuff : Bytes 2048
  var : Var → UInt16

section
variable {V : Type} (c : Conversions V)

def sprintf {n : Nat} (dst : Bytes n) (format : List UInt8) (args : List (Arg V)) : Outcome (Bytes n × Nat) :=
  match printf c format args with
  | none => .error .fault
  | some text => if text.length < n then .ok (memcpy dst (text ++ [0]),text.length) else .error .fault

def strcat {n : Nat} (dst : Bytes n) (src : List UInt8) : Outcome (Bytes n) :=
  if strlen dst.toList + strlen src < n then .ok (memcpyAt dst (strlen dst.toList) (chars src ++ [0])) else .error .fault

/-- The arguments after the format; the first part also prints the token and the pulse ID. -/
def Source.args (s : Source V) (p : Part) : List (Arg V) :=
  (if p = .circuit1 then [.string s.apiToken1,.string s.iMPulseID] else []) ++
    p.lines.map fun (_,f) => .real (s.sensorsState4 f)

/-- `prepare_data_string_circuit1` to `prepare_data_string_last` -/
def prepareDataString (s : Source V) (p : Part) (dst : Bytes 1024) : Outcome (Bytes 1024 × Nat) :=
  sprintf c dst p.datastrFormat (s.args p)

def httpDataReqFormat : List String :=
  ["POST  /Pulse/Data HTTP/1.1\n","Host:  %s\n","Content-Type: application/json\n","Content-Length: %%i\n","\n"]

/-- A branch of the chain: the configurations it compares with, the parts it prepares with the variables
for their lengths, the variables in the sum, and the parts it appends. -/
structure Branch where
  configs : List Config
  prepared : List (Var × Part)
  sum : List Var
  appended : List Part

def branches : List Branch :=
  [⟨[⟨1,1,120,60⟩],[(.i,.circuit1),(.i1,.phase1),(.j,.last)],[.i,.i1,.j],[.circuit1,.phase1,.last]⟩,
   ⟨[⟨1,1,240,60⟩,⟨1,1,460,60⟩,⟨1,1,240,50⟩],[(.i,.circuit1),(.i1,.phase1),(.i2,.phase2),(.j,.last)],
    [.i,.i1,.i2,.j],[.circuit1,.phase1,.phase2,.last]⟩,
   ⟨[⟨1,3,240,60⟩,⟨1,3,460,60⟩,⟨1,3,460,50⟩],[(.i,.circuit1),(.i1,.phase1),(.i2,.phase2),(.i3,.phase3),(.j,.last)],
    [.i,.i1,.i2,.i3,.j],[.circuit1,.phase1,.phase2,.phase3,.last]⟩,
   ⟨[⟨2,1,120,60⟩],[(.i,.circuit1),(.i1,.circuit2),(.i2,.phase1),(.i3,.last)],
    [.i,.i1,.i2,.i3],[.circuit1,.circuit2,.phase1,.last]⟩,
   ⟨[⟨2,1,240,60⟩,⟨2,1,460,60⟩,⟨2,1,240,50⟩],[(.i,.circuit1),(.i1,.circuit2),(.i2,.phase1),(.i3,.phase2),(.i4,.last)],
    [.i,.i1,.i2,.i3,.i4],[.circuit1,.circuit2,.phase1,.phase2,.last]⟩,
   ⟨[⟨2,3,240,60⟩,⟨2,3,460,60⟩,⟨2,3,460,50⟩],
    [(.i,.circuit1),(.i1,.circuit2),(.i2,.phase1),(.i3,.phase2),(.i4,.phase3),(.i5,.last)],
    [.i,.i1,.i2,.i3,.i4,.i5],[.circuit1,.circuit2,.phase1,.phase2,.phase3,.last]⟩,
   ⟨[⟨3,1,120,60⟩],[(.i,.circuit1),(.i1,.circuit2),(.i2,.circuit3),(.i3,.phase1),(.i4,.last)],
    [.i,.i1,.i2,.i3,.i4],[.circuit1,.circuit2,.circuit3,.phase1,.last]⟩,
   ⟨[⟨3,1,240,60⟩,⟨3,1,460,60⟩,⟨3,1,240,50⟩],
    [(.i,.circuit1),(.i1,.circuit2),(.i2,.circuit3),(.i3,.phase1),(.i4,.phase2),(.j,.last)],
    [.i,.i1,.i2,.i3,.i4,.j],[.circuit1,.circuit2,.circuit3,.phase1,.phase2,.last]⟩,
   ⟨[⟨3,3,240,60⟩,⟨3,3,460,60⟩,⟨3,3,460,50⟩],
    [(.i,.circuit1),(.i1,.circuit2),(.i2,.circuit3),(.i3,.phase1),(.i4,.phase2),(.i5,.phase3),(.j,.last)],
    [.i,.i1,.i2,.i3,.i4,.i5,.j],[.circuit1,.circuit2,.circuit3,.phase1,.phase2,.phase3,.last]⟩,
   ⟨[⟨4,1,120,60⟩],[(.i,.circuit1),(.i1,.circuit2),(.i2,.circuit3),(.i3,.circuit4),(.i4,.phase1),(.j,.last)],
    [.i,.i1,.i2,.i3,.i4,.j],[.circuit1,.circuit2,.circuit3,.circuit4,.phase1,.last]⟩,
   ⟨[⟨4,1,240,60⟩,⟨4,1,460,60⟩,⟨4,1,240,50⟩],
    [(.i,.circuit1),(.i1,.circuit2),(.i2,.circuit3),(.i3,.circuit4),(.i4,.phase1),(.i5,.phase2),(.j,.last)],
    [.i,.i1,.i2,.i3,.i4,.i5,.j],[.circuit1,.circuit2,.circuit3,.circuit4,.phase1,.phase2,.last]⟩,
   ⟨[⟨4,3,240,60⟩,⟨4,3,460,60⟩,⟨4,3,460,50⟩],
    [(.i,.circuit1),(.i1,.circuit2),(.i2,.circuit3),(.i3,.circuit4),(.i4,.phase1),(.i5,.phase2),(.i6,.phase3),(.j,.last)],
    [.i,.i1,.i2,.i3,.i4,.i5,.i6,.j],[.circuit1,.circuit2,.circuit3,.circuit4,.phase1,.phase2,.phase3,.last]⟩]

def branchFor (configString1 : Bytes 240) : Option Branch := chosen configString1 (branches.map fun b => (b.configs,b))

def prepareParts (s : Source V) (b : Buffers) : List (Var × Part) → Outcome Buffers
  | [] => .ok b
  | (v,p) :: rest => do
    let (text,len) ← prepareDataString c s p (b.part p)
    prepareParts s { b with part := Function.update b.part p text, var := Function.update b.var v len.toUInt16 } rest

def appendParts (b : Buffers) : List Part → Outcome Buffers
  | [] => .ok b
  | p :: rest => do
    let txbuff ← strcat b.txbuff (b.part p).toList
    appendParts { b with txbuff } rest

/-- The part of the loop of `socket_test_task` before `select`. -/
def buildRequest (s : Source V) (b : Buffers) : Outcome Buffers := do
  let (httpDataReq,_) ← sprintf c b.httpDataReq (joined httpDataReqFormat) [.string s.apiLink1]
  let b := { b with httpDataReq }
  match branchFor s.configString1 with
  | none => return b
  | some branch =>
    let b ← prepareParts c s b branch.prepared
    let (txbuff,_) ← sprintf c b.txbuff (chars b.httpDataReq.toList) [.integer (branch.sum.map fun v => (b.var v).toNat).sum]
    appendParts { b with txbuff } branch.appended

end

end PulseFirmware.Http
