import Mathlib.Algebra.Ring.Nat
import PulseFirmware.Pbuf
import PulseFirmware.Lib.Run

/-! Received packets on their way to the IP stack: `mchdrv_poll` for the ENC28J60, and for the WINC
`winc_netif_rx_callback`, which the chunk loop of `m2m_wifi_cb` calls. -/
namespace PulseFirmware.Reception
open PulseFirmware.Run

/-- `LWIP_MEM_ALIGN_SIZE(TCP_MSS+40+PBUF_LINK_HLEN)` for a `TCP_MSS` of 1460 -/
def pbufPoolBufsize : Nat := 1516
def ethPadSize : Nat := 0
def wincRxBufSz : Nat := pbufPoolBufsize - ethPadSize
def ethBufferSize : Nat := 2048

def writeAt (memory : Nat → UInt8) (offset : Nat) (data : List UInt8) (i : Nat) : UInt8 :=
  if offset ≤ i then data[i - offset]?.getD (memory i) else memory i

theorem writeAt_read (memory : Nat → UInt8) (offset : Nat) (data : List UInt8) :
    (List.range data.length).map (fun i => writeAt memory offset data (offset + i)) = data := by
  apply List.ext_getElem
  · simp
  · intro i _ inside
    simp [writeAt, List.getElem?_eq_getElem inside]

/-- What `gau8ethRcvBuf` points to. -/
inductive RcvBuf
  | ethBuffer
  | rxBuf
  | payload (p offset : Nat)
deriving DecidableEq

structure Segment where
  bytes : List UInt8
  totLen : Nat
deriving DecidableEq

structure Drivers where
  pbufs : Pbufs
  rxBuf : Nat → UInt8
  ethBuffer : Nat → UInt8
  rxFirst : Option Nat
  rxLast : Option Nat
  gau8ethRcvBuf : RcvBuf
  gu16ethRcvBufSize : Nat
  /-- the chains given to `winc_netif.input` -/
  passed : List (List Segment)

/-- What decides a callback besides the chunk: the outcomes of `pbuf_alloc` for `rx_first` and
for `p`, and whether `input` returns `ERR_OK`. -/
structure Answers where
  first : Option (Nat → UInt8)
  p : Option (Nat → UInt8)
  ok : Bool

def segments (m : Pbufs) (ids : List Nat) : List Segment :=
  ids.filterMap fun p => (m.cells p).map fun b => ⟨b.bytes,b.totLen⟩

namespace Drivers

/-- After `net_add_winc_netif`; `m2m_wifi_init` got `eth_buffer`. -/
def init (rxBuf ethBuffer : Nat → UInt8) : Drivers :=
  ⟨.empty,rxBuf,ethBuffer,none,none,.ethBuffer,ethBufferSize,[]⟩

def m2mWifiSetReceiveBuffer (s : Drivers) (buffer : RcvBuf) (size : Nat) : Drivers :=
  { s with gau8ethRcvBuf := buffer, gu16ethRcvBufSize := size }

def hifReceive (s : Drivers) (data : List UInt8) : Option Drivers :=
  match s.gau8ethRcvBuf with
  | .ethBuffer =>
    if data.length ≤ ethBufferSize then some { s with ethBuffer := writeAt s.ethBuffer 0 data } else none
  | .rxBuf => if data.length ≤ wincRxBufSz then some { s with rxBuf := writeAt s.rxBuf 0 data } else none
  | .payload p offset =>
    if offset + data.length ≤ pbufPoolBufsize then
      (s.pbufs.modify p fun b => { b with payload := writeAt b.payload offset data }).map fun pbufs => { s with pbufs }
    else none

/-- `winc_netif.input(rx_first, &winc_netif)`, with `pbuf_free` where it fails. -/
def input (s : Drivers) (ok : Bool) : Option Drivers := do
  let ids ← s.pbufs.chain s.rxFirst
  let pbufs ← s.pbufs.input s.rxFirst ok
  let pbufs ← if ok then some pbufs else pbufs.free s.rxFirst
  some { s with pbufs, passed := s.passed ++ [segments s.pbufs ids] }

/-- The end of the callback, from `rx_last = p` on. -/
def reload (s : Drivers) (p : Option Nat) : Option Drivers :=
  let s := { s with rxLast := p }
  if s.rxFirst = p then
    let b := match p with
      | some q => RcvBuf.payload q ethPadSize
      | none => .rxBuf
    some (s.m2mWifiSetReceiveBuffer b (pbufPoolBufsize - ethPadSize))
  else p.map fun q => s.m2mWifiSetReceiveBuffer (.payload q 0) pbufPoolBufsize

/-- The callback from the allocation of `p` on; `rx_last` holds the chunk. -/
def chunkDone (s : Drivers) (sz rem : Nat) (answers : Answers) : Option Drivers := do
  let (pbufs,p) := s.pbufs.pbufAlloc pbufPoolBufsize answers.p
  let last ← s.rxLast
  let single := s.rxFirst = s.rxLast
  let sz := if single then (sz + ethPadSize) % 2^16 else sz
  let pbufs ← pbufs.modify last fun b =>
    { b with totLen := if single then (sz + rem) % 2^16 else b.totLen, len := sz }
  let s := { s with pbufs }
  if rem = 0 then
    let s ← s.input answers.ok
    { s with rxFirst := p }.reload p
  else
    match p with
    | none =>
      let pbufs ← s.pbufs.free s.rxFirst
      some ({ s with pbufs, rxFirst := none }.m2mWifiSetReceiveBuffer .rxBuf wincRxBufSz)
    | some q =>
      let pbufs ← s.pbufs.modify q fun b => { b with totLen := rem }
      let pbufs ← pbufs.modify last fun b => { b with next := some q }
      { s with pbufs }.reload (some q)

def wincNetifRxCallback (s : Drivers) (sz rem : Nat) (answers : Answers) : Option Drivers :=
  match s.rxFirst with
  | some _ => s.chunkDone sz rem answers
  | none =>
    match s.pbufs.pbufAlloc pbufPoolBufsize answers.first with
    | (_,none) => some ({ s with rxFirst := none, rxLast := none }.m2mWifiSetReceiveBuffer .rxBuf wincRxBufSz)
    | (pbufs,some first) =>
      if sz ≤ wincRxBufSz ∧ ethPadSize + sz ≤ pbufPoolBufsize then do
        let pbufs ← pbufs.modify first fun b =>
          { b with payload := writeAt b.payload ethPadSize ((List.range sz).map s.rxBuf) }
        { s with pbufs, rxFirst := some first, rxLast := some first }.chunkDone sz rem answers
      else none

def chunk (s : Drivers) (data : List UInt8) (rem : Nat) (answers : Answers) : Option Drivers := do
  let s ← s.hifReceive data
  s.wincNetifRxCallback data.length rem answers

end Drivers

/-- A packet in the ENC28J60, with its length in the header, and what decides its way. -/
structure Packet where
  length : Nat
  data : Nat → UInt8
  allocated : Bool
  ok : Bool

def encReadReceivedPbuf (m : Pbufs) (packet : Packet) : Pbufs × Option Nat :=
  if packet.length < 4 then (m,none)
  else if packet.length - 4 > 32000 then (m,none)
  else m.pbufAlloc (packet.length - 4) (if packet.allocated then some packet.data else none)

def mchdrvPoll (m : Pbufs) : List Packet → Option Pbufs
  | [] => some m
  | packet :: packets =>
    match encReadReceivedPbuf m packet with
    | (m,some buf) => (m.input (some buf) packet.ok).bind fun m => mchdrvPoll m packets
    | (m,none) => some m

/-- Both drivers, and what they were given: the packet that `m2m_wifi_cb` fetches, with what is
left of it. -/
structure World where
  drivers : Drivers
  /-- memory was accessed out of its bounds -/
  fault : Bool
  frame : List UInt8
  rest : Option (List UInt8)
  /-- a chunk of the packet was dropped -/
  hit : Bool
  /-- the packets fetched of which no chunk was dropped -/
  kept : List (List UInt8)

def World.init (rxBuf ethBuffer : Nat → UInt8) : World := ⟨.init rxBuf ethBuffer,false,[],none,false,[]⟩

/-- A packet of the WINC, a turn of the loop that fetches it, or a call of `mchdrv_poll`. -/
inductive Event
  | packet (frame : List UInt8)
  | chunk (size : Nat) (answers : Answers)
  | poll (packets : List Packet)

/-- The callback frees or never takes a chunk because `pbuf_alloc` failed. -/
def Drivers.drops (s : Drivers) (rem : Nat) (answers : Answers) : Bool :=
  (s.rxFirst.isNone && answers.first.isNone) || (rem != 0 && answers.p.isNone)

/-- The loop fetches as much as fits into the receive buffer, or less. -/
def World.step (w : World) : Event → Option World
  | .packet frame =>
    if w.rest = none ∧ frame.length < 2^16 then
      some { w with frame, rest := some frame, hit := false }
    else none
  | .chunk size answers => do
    let rest ← w.rest
    let rem := rest.length - size
    let hit := w.hit || w.drivers.drops rem answers
    if size ≤ rest.length ∧ size ≤ w.drivers.gu16ethRcvBufSize ∧ (size = 0 → rest = []) then
      match w.drivers.chunk (rest.take size) rem answers with
      | none => some { w with fault := true }
      | some drivers =>
        some { w with
          drivers
          hit
          rest := if rem = 0 then none else some (rest.drop size)
          kept := if rem = 0 ∧ hit = false then w.kept ++ [w.frame] else w.kept }
    else none
  | .poll packets =>
    match mchdrvPoll w.drivers.pbufs packets with
    | none => some { w with fault := true }
    | some pbufs => some { w with drivers := { w.drivers with pbufs } }

end PulseFirmware.Reception
