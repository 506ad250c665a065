import Mathlib.Algebra.Ring.Nat
import PulseFirmware.Lib.CString
import PulseFirmware.Lib.Ring
import PulseFirmware.Reception

/-! `enc28j60.c` and the calls of `mchdrv.c` into it, one SPI transfer after the other, and of the ENC28J60
what its data sheet tells the driver: four banks of registers, the receive buffer that it fills by itself,
and the memory from which it sends. Between two transfers frames arrive, transmissions end and other
registers change, in any order. The chip is an ideal one: its memory keeps what is written, a transmission
that ends has sent the bytes of the memory without padding or check bytes, none is aborted, the supply
holds, and no erratum shows. Transfers to the registers of the MAC, the MII and the PHY are left out. -/
namespace PulseFirmware.Enc28j60
open PulseFirmware.CString

-- `enc_register_t`
def bankmask : UInt8 := 0xe0
def bankall : UInt8 := 0xc0
def bank0 : UInt8 := 0x20
def bank1 : UInt8 := 0x60
def bank3 : UInt8 := 0xe0
def bankIndeterminate : UInt8 := 0x80
def registermask : UInt8 := 0x1f

def eie : UInt8 := 0x1b ||| bankall
def estat : UInt8 := 0x1d ||| bankall
def econ2 : UInt8 := 0x1e ||| bankall
def econ1 : UInt8 := 0x1f ||| bankall
def erdptl : UInt8 := 0x00 ||| bank0
def ewrptl : UInt8 := 0x02 ||| bank0
def etxstl : UInt8 := 0x04 ||| bank0
def etxndl : UInt8 := 0x06 ||| bank0
def erxstl : UInt8 := 0x08 ||| bank0
def erxndl : UInt8 := 0x0a ||| bank0
def erxrdptl : UInt8 := 0x0c ||| bank0
def erxfcon : UInt8 := 0x18 ||| bank1
def epktcnt : UInt8 := 0x19 ||| bank1
def erevid : UInt8 := 0x12 ||| bank3
def ecocon : UInt8 := 0x15 ||| bank3

def estatClkrdy : UInt8 := 0x01
def econ2Pktdec : UInt8 := 0x40
def econ2Autoinc : UInt8 := 0x80
def econ1Rxen : UInt8 := 0x04
def econ1Txrts : UInt8 := 0x08
def econ1Rxrst : UInt8 := 0x40
def econ1Txrst : UInt8 := 0x80

def ramsize : Nat := 8 * 1024
def readlocationAny : UInt16 := 0xffff

/-- The registers of two bytes at the start of bank 0, from `ERDPT` to the `ERXWRPT` that only the chip writes. -/
abbrev Pointer := Fin 8

/-- What an address selects; the last five addresses do so in all banks. -/
inductive Place
  | pointer (p : Pointer) (high : Bool)
  | econ1
  | econ2
  | epktcnt
  | other (number : Nat)
deriving DecidableEq

def place (bank : Fin 4) (address : UInt8) : Place :=
  if address = 0x1f then .econ1
  else if address = 0x1e then .econ2
  else if 0x1b ≤ address then .other address.toNat
  else if bank = 0 ∧ address < 0x10 then .pointer (.ofNat 8 (address.toNat / 2)) (address.toNat % 2 = 1)
  else if bank = 1 ∧ address = 0x19 then .epktcnt
  else .other (bank.val * 32 + address.toNat)

def setLow (p : Nat) (v : UInt8) : Nat := p / 256 * 256 + v.toNat
def setHigh (p : Nat) (v : UInt8) : Nat := v.toNat * 256 + p % 256

/-- What is left of a value for `ECON1` above the bank: a reset of the transmit or receive logic also
ends what it was doing. -/
def settle (v : UInt8) : UInt8 :=
  let v := v &&& 0xfc
  let v := if v &&& econ1Txrst = 0 then v else v &&& ~~~econ1Txrts
  if v &&& econ1Rxrst = 0 then v else v &&& ~~~econ1Rxen

theorem settle_settle (v : UInt8) : settle (settle v) = settle v := by
  have all : ∀ n < 256, settle (settle (.ofNat n)) = settle (.ofNat n) := by decide +kernel
  rw [← UInt8.ofNat_toNat (x := v)]
  exact all _ v.toNat_lt

structure Control where
  value : UInt8
  settled : settle value = value

def Control.of (v : UInt8) : Control := ⟨settle v,settle_settle v⟩

/-- A frame on the line as the chip stores it: its bytes with the checksum, two bytes of its status vector,
and whether a byte is left free behind it. -/
structure Received where
  data : List UInt8
  status : UInt8 × UInt8
  pad : Bool

def Received.size (r : Received) : Nat := 6 + r.data.length + r.pad.toNat

/-- The place of the next frame, the status vector and the frame. -/
def Received.cells (next : Nat) (r : Received) : List UInt8 :=
  [.ofNat next,.ofNat (next / 256),.ofNat r.data.length,.ofNat (r.data.length / 256),r.status.1,r.status.2] ++ r.data

/-- The registers the driver uses and the memory, which only writes and arriving frames change. -/
structure Chip where
  bank : Fin 4
  control : Control
  /-- `ECON2` -/
  autoinc : UInt8
  count : UInt8
  pointers : Pointer → Nat
  /-- what was written to `ERXRDPTL` and counts from the next write to `ERXRDPTH` on -/
  erxrdptLow : UInt8
  others : Nat → UInt8
  mem : Nat → UInt8
  /-- the frames stored so far -/
  received : List Received
  /-- the frames sent so far -/
  wire : List (List UInt8)

def Chip.reset : Chip :=
  { bank := 0
    control := .of 0
    autoinc := econ2Autoinc
    count := 0
    pointers := fun p => if p = 4 then 0x05fa else if p = 5 then 0x1fff else 0
    erxrdptLow := 0xfa
    others := fun i => if i = 0x1d then estatClkrdy else if i = 114 then 0x06 else 0
    mem := fun _ => 0
    received := []
    wire := [] }

/-- What the ideal chip does by itself: a frame arrives, a transmission ends with its status vector, or a
register of which no more is known here changes. -/
inductive Hw
  | frame (r : Received)
  | sent (status : Bytes 7)
  | register (number : Nat) (v : UInt8)

namespace Chip

def erdpt (c : Chip) : Nat := c.pointers 0
def ewrpt (c : Chip) : Nat := c.pointers 1
def etxst (c : Chip) : Nat := c.pointers 2
def etxnd (c : Chip) : Nat := c.pointers 3
def erxst (c : Chip) : Nat := c.pointers 4
def erxnd (c : Chip) : Nat := c.pointers 5
def erxrdpt (c : Chip) : Nat := c.pointers 6
def erxwrpt (c : Chip) : Nat := c.pointers 7

def setPointer (c : Chip) (p : Pointer) (v : Nat) : Chip := { c with pointers := Function.update c.pointers p v }

@[simp] theorem setPointer_self (c : Chip) (p : Pointer) (v : Nat) : (c.setPointer p v).pointers p = v := Function.update_self _ _ _

theorem setPointer_other {p q : Pointer} (different : q ≠ p) (c : Chip) (v : Nat) :
    (c.setPointer p v).pointers q = c.pointers q := Function.update_of_ne different _ _

def fetch (c : Chip) : Place → UInt8
  | .pointer p false => .ofNat (c.pointers p)
  | .pointer p true => .ofNat (c.pointers p / 256)
  | .econ1 => c.control.value ||| .ofNat c.bank.val
  | .econ2 => c.autoinc
  | .epktcnt => c.count
  | .other number => c.others number

def put (c : Chip) (i : Place) (v : UInt8) : Chip :=
  match i with
  | .pointer 6 false => { c with erxrdptLow := v }
  | .pointer 6 true => c.setPointer 6 (v.toNat * 256 + c.erxrdptLow.toNat)
  | .pointer 7 _ => c
  | .pointer 4 false => (c.setPointer 4 (setLow c.erxst v)).setPointer 7 (setLow c.erxst v)
  | .pointer 4 true => (c.setPointer 4 (setHigh c.erxst v)).setPointer 7 (setHigh c.erxst v)
  | .pointer p false => c.setPointer p (setLow (c.pointers p) v)
  | .pointer p true => c.setPointer p (setHigh (c.pointers p) v)
  | .econ1 => { c with bank := .ofNat 4 v.toNat, control := .of v }
  | .econ2 =>
    { c with
      autoinc := v &&& ~~~econ2Pktdec
      count := if v &&& econ2Pktdec = 0 ∨ c.count = 0 then c.count else c.count - 1 }
  | .epktcnt => c
  | .other number => { c with others := Function.update c.others number v }

/-- The transfers `RCR`, `WCR`, `BFS` and `BFC`. -/
def command (c : Chip) (first second : UInt8) : Chip × UInt8 :=
  let i := place c.bank (first &&& registermask)
  let op := first >>> 5
  if op = 0 then (c,c.fetch i)
  else if op = 2 then (c.put i second,0)
  else if op = 4 then (c.put i (c.fetch i ||| second),0)
  else if op = 5 then (c.put i (c.fetch i &&& ~~~second),0)
  else (c,0)

def Increments (c : Chip) : Prop := c.autoinc &&& econ2Autoinc ≠ 0

instance (c : Chip) : Decidable c.Increments := inferInstanceAs (Decidable (_ ≠ _))

def readByte (c : Chip) : Chip × UInt8 :=
  let next := if c.erdpt = c.erxnd then c.erxst else (c.erdpt + 1) % ramsize
  (if c.Increments then c.setPointer 0 next else c,c.mem c.erdpt)

def writeByte (c : Chip) (b : UInt8) : Chip :=
  let written := { c with mem := Function.update c.mem c.ewrpt b }
  if c.Increments then written.setPointer 1 ((c.ewrpt + 1) % ramsize) else written

def free (c : Chip) : Nat :=
  if c.erxrdpt < c.erxwrpt then c.erxnd - c.erxst - (c.erxwrpt - c.erxrdpt)
  else if c.erxwrpt = c.erxrdpt then c.erxnd - c.erxst
  else c.erxrdpt - c.erxwrpt - 1

def Accepts (c : Chip) (r : Received) : Prop :=
  c.control.value &&& econ1Rxen ≠ 0 ∧ r.size ≤ c.free ∧ c.count ≠ 255

instance (c : Chip) (r : Received) : Decidable (c.Accepts r) := inferInstanceAs (Decidable (_ ∧ _ ∧ _))

def Sending (c : Chip) : Prop := c.control.value &&& econ1Txrts ≠ 0

instance (c : Chip) : Decidable c.Sending := inferInstanceAs (Decidable (_ ≠ _))

def outgoing (c : Chip) : List UInt8 := Ring.load ramsize c.mem (c.etxst + 1) (c.etxnd - c.etxst)

/-- The receive buffer starts at 0, as the errata want it; a chip set up otherwise stores no frame here. -/
def hw (c : Chip) : Hw → Chip
  | .frame r =>
    if c.Accepts r ∧ c.erxst = 0 then
      let next := (c.erxwrpt + r.size) % (c.erxnd + 1)
      { c.setPointer 7 next with
        mem := Ring.store (c.erxnd + 1) c.mem c.erxwrpt (r.cells next)
        count := c.count + 1
        received := c.received ++ [r] }
    else c
  | .sent status =>
    if c.Sending then
      { c with
        wire := c.wire ++ [c.outgoing]
        mem := Ring.store ramsize c.mem (c.etxnd + 1) status.toList
        control := .of (c.control.value &&& ~~~econ1Txrts) }
    else c
  | .register number v => { c with others := Function.update c.others number v }

end Chip

structure EncDevice where
  lastUsedRegister : UInt8
  rxbufsize : UInt16
  nextFrameLocation : UInt16
  state : UInt16

/-- The device and the chip, with all that the chip does by itself before its next transfers. -/
structure World where
  dev : EncDevice
  chip : Chip
  hardware : Nat → List Hw
  now : Nat

namespace World

def tick (w : World) : World := { w with chip := (w.hardware w.now).foldl Chip.hw w.chip, now := w.now + 1 }

def command (w : World) (first second : UInt8) : World × UInt8 :=
  let w := w.tick
  let (chip,result) := w.chip.command first second
  ({ w with chip },result)

/-- `select_page`. As `ECON1` is in all banks, `enc_BFS` and `enc_BFC` come to a command here. -/
def selectPage (w : World) (page : UInt8) : World :=
  let set := page &&& 0x03
  let clear := ~~~page &&& 0x03
  let w := if set = 0 then w else (w.command (0x80 ||| (econ1 &&& registermask)) set).1
  if clear = 0 then w else (w.command (0xa0 ||| (econ1 &&& registermask)) clear).1

def ensureRegisterAccessible (w : World) (r : UInt8) : World :=
  if r &&& bankmask = bankall then w
  else if r &&& bankmask = w.dev.lastUsedRegister then w
  else w.selectPage (r >>> 6)

def encRCR (w : World) (reg : UInt8) : World × UInt8 := (w.ensureRegisterAccessible reg).command (reg &&& registermask) 0

def encWCR (w : World) (reg data : UInt8) : World :=
  ((w.ensureRegisterAccessible reg).command (0x40 ||| (reg &&& registermask)) data).1

def encBFS (w : World) (reg data : UInt8) : World :=
  ((w.ensureRegisterAccessible reg).command (0x80 ||| (reg &&& registermask)) data).1

def encBFC (w : World) (reg data : UInt8) : World :=
  ((w.ensureRegisterAccessible reg).command (0xa0 ||| (reg &&& registermask)) data).1

def encRCR16 (w : World) (reg : UInt8) : World × UInt16 :=
  let (w,high) := w.encRCR (reg ||| 1)
  let (w,low) := w.encRCR (reg &&& 0xfe)
  (w,high.toUInt16 <<< 8 ||| low.toUInt16)

def encWCR16 (w : World) (reg : UInt8) (data : UInt16) : World :=
  (w.encWCR (reg &&& 0xfe) (data &&& 0xff).toUInt8).encWCR (reg ||| 1) (data >>> 8).toUInt8

def setErxnd (w : World) (erxnd : UInt16) : World :=
  if erxnd = w.dev.rxbufsize then w
  else { w with dev := { w.dev with rxbufsize := erxnd } }.encWCR16 erxndl erxnd

def rcvbuff : Nat → World → World × List UInt8
  | 0, w => (w,[])
  | n+1, w =>
    let w := w.tick
    let (chip,b) := w.chip.readByte
    let (w,rest) := rcvbuff n { w with chip }
    (w,b :: rest)

def sendbuff (w : World) : List UInt8 → World
  | [] => w
  | b :: data =>
    let w := w.tick
    { w with chip := w.chip.writeByte b }.sendbuff data

def encRBM (w : World) (start : UInt16) (length : Nat) : World × List UInt8 :=
  rcvbuff length (if start = readlocationAny then w else w.encWCR16 erdptl start)

def encWBM (w : World) (src : List UInt8) (start : UInt16) : World := (w.encWCR16 ewrptl start).sendbuff src

/-- The loop of `enc_wait` over the turns left, the stable ones, and the last `estat`. -/
def awaitClock : Nat → World → Nat → UInt8 → World × Bool
  | 0, w, _, _ => (w,false)
  | n+1, w, stable, last =>
    let (w,value) := w.encRCR estat
    if value = 0xff then awaitClock n w stable last
    else
      let stable := if value = last then stable + 1 else stable
      if 100 ≤ stable ∧ value &&& estatClkrdy ≠ 0 then (w,true) else awaitClock n w stable value

/-- `enc_setup_basic` behind the reset of `enchw_setup`, and whether it succeeds. -/
def encSetupBasic (w : World) : World × Bool :=
  let (w,ready) := awaitClock 100000 w 0 0
  if ready = false then (w,false)
  else
    let w := { w with dev := { w.dev with lastUsedRegister := bankIndeterminate, rxbufsize := ~~~0 } }
    let (w,revid) := w.encRCR erevid
    if revid ≠ 0x02 ∧ revid ≠ 0x04 ∧ revid ≠ 0x05 ∧ revid ≠ 0x06 then (w,false)
    else ((w.encBFS econ2 econ2Autoinc).encWCR ecocon 0,true)

def pattern (address : Nat) : List UInt8 := (List.range 256).map fun i => .ofNat ((address / 256 + i) % 256)

def writePatterns : List Nat → World → World
  | [], w => w
  | address :: rest, w => writePatterns rest (w.encWBM (pattern address) (.ofNat address))

def checkPatterns : List Nat → World → World × Bool
  | [], w => (w,true)
  | address :: rest, w =>
    let read := w.encRBM (.ofNat address) 256
    if read.2 = pattern address then checkPatterns rest read.1 else (read.1,false)

/-- `enc_bist_manual`, and whether the memory has the patterns that were written. -/
def encBistManual (w : World) : World × Bool :=
  let addresses := (List.range 32).map (· * 256)
  checkPatterns addresses (writePatterns addresses (w.setErxnd (.ofNat (ramsize - 1))))

def discardAll : Nat → World → World
  | 0, w => w
  | n+1, w =>
    let (w,left) := w.encRCR epktcnt
    if left = 0 then w else discardAll n (w.encBFS econ2 econ2Pktdec)

/-- `enc_ethernet_setup` without the transfers to the MAC and, over the MII, to the PHY, which no other
transfer reads back; 256 turns empty the receive buffer. -/
def encEthernetSetup (w : World) (rxbufsize : UInt16) : World :=
  let w := w.encBFS econ1 (econ1Txrst ||| econ1Rxrst)
  let w := discardAll 256 w
  let w := w.encBFC econ1 (econ1Txrst ||| econ1Rxrst)
  let w := w.encWCR16 erxstl 0
  let w := w.setErxnd rxbufsize
  let w := w.encWCR16 erxrdptl 0
  let w := { w with dev := { w.dev with nextFrameLocation := 0 } }
  let w := w.encBFC erxfcon 1
  let w := w.encBFS econ1 econ1Rxen
  let w := w.encBFC econ1 (econ1Txrst ||| econ1Rxrst)
  ((w.encBFS eie 0x80).encRCR eie).1

def setState (w : World) (state : UInt16) : World := { w with dev := { w.dev with state } }

def mchdrvInit (w : World) : World :=
  let (w,basic) := (w.setState 1).encSetupBasic
  if basic = false then w.setState 0
  else
    let (w,works) := w.encBistManual
    if works = false then w.setState 0 else w.encEthernetSetup (4 * 1024)

def transmitStartAddress (w : World) : UInt16 := (w.dev.rxbufsize + 1 + 1) &&& 0xfffe

def transmitStart (w : World) : World :=
  let w := w.encWCR16 etxstl w.transmitStartAddress
  w.encWBM [0] w.transmitStartAddress

/-- The loop of `transmit_end`, and whether it was left by `goto done`. -/
def awaitSent : Nat → World → World × Bool
  | 0, w => (w,false)
  | n+1, w =>
    let (w,value) := w.encRCR econ1
    if value &&& econ1Txrts = 0 then (w,true) else awaitSent n w

def transmitEnd (w : World) (length : UInt16) : World :=
  let w := w.encWCR16 etxndl (w.transmitStartAddress + 1 + length - 1)
  let w := w.encBFS econ1 econ1Txrts
  let (w,sent) := awaitSent 10000 w
  if sent then (w.encRBM (w.transmitStartAddress + length) 7).1
  else (w.encBFS econ1 econ1Txrst).encBFC econ1 econ1Txrst

/-- The loop of `enc_transmit_pbuf`; it does not follow a NULL pointer. -/
def transmitPartials (w : World) : List Reception.Segment → Option World
  | [] => none
  | buf :: rest =>
    let w := w.sendbuff buf.bytes
    if buf.bytes.length = buf.totLen then some w else w.transmitPartials rest

def encTransmitPbuf (w : World) (buf : List Reception.Segment) : Option World := do
  let first ← buf.head?
  let w ← w.transmitStart.transmitPartials buf
  w.transmitEnd (.ofNat first.totLen)

def receiveStart (w : World) : World × List UInt8 × UInt16 :=
  let (w,header) := w.encRBM w.dev.nextFrameLocation 6
  (w,header,(header.getD 2 0).toUInt16 ||| (header.getD 3 0 &&& 0x7f).toUInt16 <<< 8)

/-- `receive_end`, with the workaround for the erratum of `ERXRDPT` -/
def receiveEnd (w : World) (header : List UInt8) : World :=
  let next := (header.getD 0 0).toUInt16 + (header.getD 1 0).toUInt16 <<< 8
  let w := { w with dev := { w.dev with nextFrameLocation := next } }
  let w :=
    if next = 0 then
      let (w,last) := w.encRCR16 erxndl
      w.encWCR16 erxrdptl last
    else w.encWCR16 erxrdptl (next - 1)
  w.encBFS econ2 econ2Pktdec

/-- `enc_read_received_pbuf`; the answer is that of `pbuf_alloc`, with what its memory happens to contain. -/
def encReadReceivedPbuf (w : World) (m : Pbufs) (answer : Option (Nat → UInt8)) : Option (World × Pbufs × Option Nat) :=
  let (w,header,length) := w.receiveStart
  if length < 4 then some (w.receiveEnd header,m,none)
  else
    let length := length - 4
    if 32000 < length then some (w.receiveEnd header,m,none)
    else
      match m.pbufAlloc length.toNat answer with
      | (m,none) => some (w.receiveEnd header,m,none)
      | (m,some buf) =>
        let (w,bytes) := w.encRBM readlocationAny length.toNat
        (m.modify buf fun b => { b with payload := Reception.writeAt b.payload 0 bytes }).map fun m =>
          (w.receiveEnd header,m,some buf)

end World

/-- The interface: the driver, the packet buffers, and the packets given to `netif->input`. -/
structure Link where
  world : World
  pbufs : Pbufs
  passed : List (List UInt8)

namespace Link

/-- The loop of `mchdrv_poll`; each packet has the answers of `pbuf_alloc` and of `input`. -/
def readPackets (answers : Nat → Option (Nat → UInt8) × Bool) : Nat → Link → Option Link
  | 0, l => some l
  | n+1, l =>
    match l.world.encReadReceivedPbuf l.pbufs (answers n).1 with
    | none => none
    | some (world,pbufs,none) => some { l with world, pbufs }
    | some (world,pbufs,some buf) =>
      (pbufs.cells buf).bind fun b => (pbufs.input (some buf) (answers n).2).bind fun pbufs =>
        readPackets answers n { world, pbufs, passed := l.passed ++ [b.bytes] }

/-- `mchdrv_poll` without the read of `ENC_PHSTAT1` over the MII, which sets `NETIF_FLAG_LINK_UP` alone -/
def mchdrvPoll (l : Link) (answers : Nat → Option (Nat → UInt8) × Bool) : Option Link :=
  if l.world.dev.state = 0 then some l
  else
    let (world,epktcnt) := l.world.encRCR epktcnt
    readPackets answers epktcnt.toNat { l with world }

def mchdrvLinkoutput (l : Link) (p : List Reception.Segment) : Option Link :=
  if l.world.dev.state = 0 then some l else (l.world.encTransmitPbuf p).map fun world => { l with world }

/-- Under `enc_semph` one call ends before the next begins. -/
inductive Call
  | poll (answers : Nat → Option (Nat → UInt8) × Bool)
  | output (p : List Reception.Segment)

def step (l : Link) : Call → Option Link
  | .poll answers => l.mchdrvPoll answers
  | .output p => l.mchdrvLinkoutput p

end Link

end PulseFirmware.Enc28j60
