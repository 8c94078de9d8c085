import Xtcp.Library.Reading
import Xtcp.Pip.Address.State
import Xtcp.Pip.Tcp.Stack
import Xtcp.Pip.Tftp
import Xtcp.Pip.Udp

namespace Xtcp.Pip.Frame

open Halfword Reading

def onesReduce (sum carry : Word) : Word :=
  let sum := (sum &&& 0xffff) + sum >>> 16 + carry
  (sum &&& 0xffff) + sum >>> 16

def onesAdd (x y : Word) : Word :=
  onesReduce (x + y) (BitVec.ofNat 32 ((x.toNat + y.toNat) / 4294967296))

-- byterev(x) >> 16
def rev (x : BitVec 16) : Word := byterev (x.setWidth 32) >>> 16

def onesChecksum (sum : Word) (start lengthInBytes : Nat) : Scan Word := do
  let words ← each (fun i => short (start + i)) (lengthInBytes / 2)
  let last ← each (fun i => byte (2 * (start + lengthInBytes / 2) + i)) (lengthInBytes % 2)
  let sum := words.foldl (fun (sum : Word) x => sum + rev x) sum
  let sum := last.foldl (fun (sum : Word) b => sum + (b.setWidth 32 : Word) <<< 8) sum
  pure (byterev (~~~onesReduce sum 0 &&& 0xffff) >>> 16)

structure Config where
  ipv4 : Bool
  arp : Bool
  tcp : Option Tcp.Config
  udp : Bool
  icmp : Bool
  tftp : Bool
  address : Address.Config

-- What the handlers look at besides the frame.
structure Host (n m : Nat) where
  address : Address.Host
  loader : Tftp.Loader
  udp : Udp.Host m
  stack : Tcp.Stack n
  env : Tcp.Env

-- What a frame makes of itself: each is a change of a state.
inductive Call where
  | conflict
  | answer (spa : Word) (sha : List (BitVec 8))
  | store (ipAddress : Word) (macAddress : List (BitVec 8))
  | segment (seg : Tcp.Segment)
  | lease (proposedIP : Word) (options : List (BitVec 8 × List (BitVec 8)))
  | block (opcode block : BitVec 16) (bytes : List (BitVec 8))
  | datagram (bytes : List (BitVec 8))
  | pong (icmpOffset : Nat) (srcIP : Word) (bytes : List (BitVec 8))

variable {n m : Nat} (cfg : Config) (h : Host n m)

-- The tags of virtual networks are passed: a frame has room for fewer than it has bytes.
def etherType : Nat → Nat → Scan (Option (BitVec 16 × Nat))
  | 0, _ => pure none
  | fuel + 1, offset => do
    let ethType ← short offset
    if ethType = 0x0081 then etherType fuel (offset + 1) else pure (some (ethType, offset + 1))

def macCopy (offset : Nat) : Scan (List (BitVec 8)) := each (fun i => byte (offset + i)) 6

def pipIncomingARP (offset : Nat) : Scan (List Call) := do
  let oper ← short (offset + 3)
  let tpa ← int (2 * offset + 24)
  let spa ← int (2 * offset + 14)
  if oper = Address.request then
    if Address.matchesLinkLocal cfg.address tpa h.address then pure [.conflict]
    else if tpa = h.address.myIP then do
      let sha ← macCopy (2 * offset + 8)
      pure [.store spa sha, .answer spa sha]
    else pure []
  else if oper = Address.reply then
    if Address.matchesLinkLocal cfg.address spa h.address then pure [.conflict]
    else do
      let sha ← macCopy (2 * offset + 8)
      pure [.store spa sha]
  else pure []

def pipIncomingICMP (icmpOffset : Nat) (srcIP : Word) (length : Int) : Scan (List Call) := do
  let type ← byte (icmpOffset * 2)
  if h.address.myIP ≠ 0 ∧ type = 8 then do
    let bytes ← each (fun i => byte (34 + i)) length.toNat
    pure [.pong icmpOffset srcIP bytes]
  else pure []

def tcpFlags (x : BitVec 16) : Tcp.Flags where
  fin := x.getLsbD 8
  syn := x.getLsbD 9
  rst := x.getLsbD 10
  psh := x.getLsbD 11
  ack := x.getLsbD 12

def tcpSegment (mem : Bytes) (offset : Nat) (srcIP dstIP : Word) (totalLength : Int) :
    Tcp.Segment :=
  let dataOffset := (load mem (2 * (offset + 6)) >>> 4 &&& 0xF).toNat
  { srcPortRev := load mem (2 * offset)
    dstPortRev := load mem (2 * (offset + 1))
    srcIP := srcIP
    dstIP := dstIP
    seq := byterev (load mem (2 * (offset + 3)) ++ load mem (2 * (offset + 2)))
    ack := byterev (load mem (2 * (offset + 5)) ++ load mem (2 * (offset + 4)))
    flags := tcpFlags (load mem (2 * (offset + 6)))
    window := (rev (load mem (2 * (offset + 8)))).setWidth 16
    length := totalLength - dataOffset * 4
    payload := fun i => ⟨mem ((offset + dataOffset * 2) * 2 + i)⟩ }

def storedPlaces : Tcp.Note → List Nat
  | .stored _ data => List.range data.length
  | _ => []

-- The bytes of the payload that storeIncomingData comes to.
def taken (c : Tcp.Config) (seg : Tcp.Segment) : List Nat :=
  match Tcp.pipIncomingTCP c h.env seg h.stack with
  | some s => (s.log.drop h.stack.log.length).flatMap storedPlaces
  | none => []

def storing (c : Tcp.Config) (offset : Nat) (srcIP dstIP : Word) (totalLength : Int)
    (tcpOffset : Nat) : Scan (List Call) := fun mem =>
  let seg := tcpSegment mem offset srcIP dstIP totalLength
  ([.segment seg], (taken h c seg).map fun i => tcpOffset * 2 + i)

def pipIncomingTCP (c : Tcp.Config) (offset : Nat) (srcIP dstIP : Word) (totalLength : Int) :
    Scan (List Call) := do
  let _ ← each (fun i => short (offset + i)) 7
  let flags ← short (offset + 6)
  let _ ← short (offset + 8)
  storing h c offset srcIP dstIP totalLength (offset + (flags >>> 4 &&& 0xF).toNat * 2)

def optionWidth (type : BitVec 8) : Nat :=
  if type = 0x35 then 1
  else if type = 0x36 ∨ type = 0x33 ∨ type = 0x3A ∨ type = 0x3B ∨ type = 0x01 then 4
  else if type = 0x96 ∧ cfg.tftp then 4
  else if type = 0x03 ∧ cfg.address.gateway then 4
  else 0

def scanOptions (stop : Int) : Nat → Nat → Scan (List (BitVec 8 × List (BitVec 8)))
  | 0, _ => pure []
  | fuel + 1, i =>
    if (i : Int) < stop then do
      let type ← byte i
      if type = 255 then pure []
      else do
        let value ← each (fun j => byte (i + 2 + j)) (optionWidth cfg type)
        let length ← byte (i + 1)
        let rest ← scanOptions stop fuel (i + length.toNat + 2)
        pure ((type, value) :: rest)
    else pure []

def pipIncomingDHCP (offset : Nat) (length : Int) : Scan (List Call) := do
  let cookie ← short (offset + 118)
  if cookie ≠ 0x8263 then pure []
  else do
    let cookie ← short (offset + 119)
    if cookie ≠ 0x6353 then pure []
    else do
      let low ← short (offset + 2)
      let high ← short (offset + 3)
      if high ++ low ≠ h.address.xid then pure []
      else do
        let proposedIP ← int (offset * 2 + 16)
        let options ← scanOptions cfg (offset * 2 + length) length.toNat (offset * 2 + 240)
        pure [.lease proposedIP options]

def pipIncomingTFTP (srcPort : Nat) (offset : Nat) (length : Int) : Scan (List Call) := do
  let opcode ← short offset
  if srcPort ≠ h.loader.clientPort ∧ h.loader.clientPort ≠ Tftp.tftpServerPort then pure []
  else do
    let block ← short (offset + 1)
    if (rev opcode).toNat = Tftp.data ∧
        h.loader.address + ((rev block).toNat - 1) * Tftp.blockSize < Tftp.ourBase then do
      let start := offset * 2 + 4
      let bytes ← each (fun i => byte (start + i)) (length - start).toNat
      pure [.block opcode block bytes]
    else pure [.block opcode block []]

-- length is unsigned: what is less than a header wraps.
def serveUDPChannels (localPort offset : Nat) (length : Int) : Scan (List Call) :=
  match (List.range h.udp.nAppUDP).find? fun i => localPort = (h.udp.appUDP i).portNr with
  | none => pure []
  | some i =>
    match h.udp.asking (h.udp.appUDP i).channel with
    | none => pure []
    | some (_, maxBytes) => do
      let bytes ← each (fun j => byte (offset * 2 + j)) (min (length % 4294967296).toNat maxBytes)
      pure [.datagram bytes]

def pipIncomingUDP (offset : Nat) (remoteIP localIP : Word) : Scan (List Call) := do
  let remotePort ← short offset
  let localPort ← short (offset + 1)
  let totalLength ← short (offset + 2)
  let chkSum ← onesChecksum (0x0011 + rev totalLength + onesAdd remoteIP localIP) offset
    (rev totalLength).toNat
  let length : Int := (rev totalLength).toNat - 8
  if chkSum ≠ 0 then pure []
  else if cfg.address.dhcp ∧ (rev localPort).toNat = 0x44 then
    pipIncomingDHCP cfg h (offset + 4) length
  else if cfg.tftp ∧ (rev localPort).toNat = h.loader.pipPortTFTP then
    pipIncomingTFTP h (rev remotePort).toNat (offset + 4) length
  else serveUDPChannels h (rev localPort).toNat (offset + 4) length

def foreign (dstIP : Word) : Bool :=
  dstIP ||| h.address.mySubnetIP != 0xFFFFFFFF && dstIP >>> 24 != 224 && dstIP != 0 &&
    dstIP != h.address.myIP

def dispatch (ipType : BitVec 8) (contentOffset : Nat) (srcIP dstIP : Word) (length : Int) :
    Scan (List Call) :=
  match cfg.tcp with
  | some c =>
    if ipType = 6 then pipIncomingTCP h c contentOffset srcIP dstIP length
    else others
  | none => others
where
  others : Scan (List Call) :=
    if cfg.udp ∧ ipType = 17 then pipIncomingUDP cfg h contentOffset srcIP dstIP
    else if cfg.icmp ∧ ipType = 1 then pipIncomingICMP h contentOffset srcIP length
    else pure []

def pipIncomingIPv4 (offset : Nat) : Scan (List Call) := do
  let ipType ← byte (offset * 2 + 9)
  let first ← byte (offset * 2)
  let headerLength := (first &&& 0xF).toNat
  let total ← short (offset + 1)
  let srcIP ← int (2 * offset + 12)
  let dstIP ← int (2 * offset + 16)
  let chkSum ← onesChecksum 0 offset (headerLength * 4)
  if chkSum ≠ 0 then pure []
  else if foreign h dstIP then pure []
  else do
    let mac ← macCopy 6
    let calls ← dispatch cfg h ipType (headerLength * 2 + offset) srcIP dstIP
      ((rev total).toNat - headerLength * 4)
    pure (.store srcIP mac :: calls)

def pipIncomingEthernet (nBytes : Nat) : Scan (List Call) := do
  let found ← etherType (nBytes + 1) 6
  match found with
  | none => pure []
  | some (ethType, offset) =>
    if cfg.ipv4 ∧ ethType = 0x0008 then pipIncomingIPv4 cfg h offset
    else if cfg.arp ∧ ethType = 0x0608 then pipIncomingARP cfg h offset
    else pure []

end Xtcp.Pip.Frame
