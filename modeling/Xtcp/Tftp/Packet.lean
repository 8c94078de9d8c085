import Mathlib.Data.List.Basic
import Mathlib.Algebra.Ring.Nat

namespace Xtcp.Tftp

def chars (s : String) : List UInt8 := s.toList.map fun c => UInt8.ofNat c.toNat

def tftpOpcodeRrq : Nat := 1
def tftpOpcodeWrq : Nat := 2
def tftpOpcodeData : Nat := 3
def tftpOpcodeAck : Nat := 4
def tftpOpcodeError : Nat := 5

def tftpErrorNotDefined : Nat := 0
def tftpErrorAccessViolation : Nat := 2
def tftpErrorDiskFull : Nat := 3
def tftpErrorIllegalOperation : Nat := 4

def tftpMinPktSize : Nat := 4
def tftpBlockSize : Nat := 512
def tftpMaxFileSize : Nat := 128 * 1024
def tftpRxBufferSize : Nat := tftpMinPktSize + tftpBlockSize
def tftpErrorMsgMaxLength : Nat := 25
def tftpTxBufferSize : Nat := tftpMinPktSize + tftpErrorMsgMaxLength
def tftpImageFilename : List UInt8 := chars "upgrade.bin"
def octet : List UInt8 := chars "octet"

def hton16 (n : Nat) : List UInt8 := [UInt8.ofNat (n / 256), UInt8.ofNat n]

-- Memory from an address on; behind the bytes listed it is zero.
abbrev Memory := List UInt8

def byteAt (m : Memory) (i : Nat) : UInt8 := m.getD i 0

def ntoh16 (m : Memory) (i : Nat) : Nat := (byteAt m i).toNat * 256 + (byteAt m (i + 1)).toNat

def strlen (m : Memory) : Nat := (m.takeWhile (· != 0)).length

def strncmp (a b : Memory) : Nat → Int
  | 0 => 0
  | n + 1 =>
    if a.headD 0 = b.headD 0 then if a.headD 0 = 0 then 0 else strncmp a.tail b.tail n
    else (a.headD 0).toNat - (b.headD 0).toNat

-- The call-backs and the calls to the server that a TFTP event leads to.
inductive Call where
  | transferBegin (result : Int)
  | processDataBlock (block : Nat) (data : List UInt8) (numBytes result : Int)
  | transferComplete
  | transferError
  | recv
  | send (data : List UInt8)
  | completeSend
  | initSend (id : Int)
  | bindLocal (id : Int) (port : Nat)
  | setPollInterval (id : Int) (interval : Nat)
  | close (id : Int)
  deriving DecidableEq, Repr

-- What tftp_process_packet changes: its own static counter, tx_buf and what it is given by reference.
structure Globals where
  prevBlockNum : Nat
  txBuf : List UInt8
  blockNum : Nat
  error : Bool
  complete : Bool
  deriving DecidableEq, Repr

abbrev Reply := Globals × Int × List Call

def Globals.write (g : Globals) (pkt : List UInt8) : Globals :=
  { g with txBuf := pkt ++ g.txBuf.drop pkt.length }

def ackPkt (blockNum : Nat) : List UInt8 := hton16 tftpOpcodeAck ++ hton16 blockNum

def errorPkt (code : Nat) (msg : List UInt8) : List UInt8 :=
  hton16 tftpOpcodeError ++ hton16 code ++ msg ++ [0]

def tftpMakeAckPkt (blockNum : Nat) (g : Globals) : Reply :=
  (g.write (ackPkt blockNum), (ackPkt blockNum).length, [])

def tftpMakeErrorPkt (code : Nat) (msg : List UInt8) (g : Globals) : Reply :=
  ({ g with error := true }.write (errorPkt code msg), (errorPkt code msg).length, [])

def tftpProcessAppError (g : Globals) : Globals × Int :=
  let pkt := errorPkt tftpErrorNotDefined (chars "Application error")
  (g.write pkt, pkt.length)

def tftpWriteRequest (rxBuf : Memory) (g : Globals) : Reply :=
  let filename := rxBuf.drop 2
  if strncmp filename tftpImageFilename tftpImageFilename.length ≠ 0 then
    tftpMakeErrorPkt tftpErrorNotDefined (chars "Invalid filename") g
  else
    let mode := filename.drop (strlen filename + 1)
    if strncmp mode octet 5 ≠ 0 then
      tftpMakeErrorPkt tftpErrorNotDefined (chars "Invalid transfer mode") g
    else tftpMakeAckPkt 0 g

def dataAt (m : Memory) (len : Nat) : List UInt8 :=
  (List.range len).map fun i => byteAt m (tftpMinPktSize + i)

section DataPacket

variable (rxBuf : Memory) (numBytes : Nat) (g : Globals)

-- A short packet is taken for the last one before its number is looked at.
def Globals.noted : Globals :=
  let g := if numBytes < tftpBlockSize + tftpMinPktSize then { g with complete := true } else g
  { g with blockNum := ntoh16 rxBuf 2 }

def Globals.counted : Globals := { g.noted rxBuf numBytes with prevBlockNum := ntoh16 rxBuf 2 }

def dataLen : Int := numBytes - tftpMinPktSize

def payload : List UInt8 := dataAt rxBuf (dataLen numBytes).toNat

-- app: the result of tftp_app_process_data_block.
def tftpData (app : List UInt8 → Int → Int) : Reply :=
  let blockNum := ntoh16 rxBuf 2
  if blockNum = (g.noted rxBuf numBytes).prevBlockNum + 1 then
    let g := g.counted rxBuf numBytes
    if tftpMaxFileSize ≤ blockNum * tftpBlockSize then tftpMakeErrorPkt tftpErrorDiskFull [] g
    else
      let data := payload rxBuf numBytes
      let result := app data (dataLen numBytes)
      let (g, n, _) :=
        if result ≠ 0 then tftpMakeErrorPkt tftpErrorAccessViolation [] g
        else tftpMakeAckPkt blockNum g
      (g, n, [.processDataBlock blockNum data (dataLen numBytes) result])
  else tftpMakeAckPkt blockNum (g.noted rxBuf numBytes)

end DataPacket

def tftpProcessPacket (app : List UInt8 → Int → Int) (rxBuf : Memory) (numBytes : Nat)
    (g : Globals) : Reply :=
  let opcode := ntoh16 rxBuf 0
  if opcode = tftpOpcodeRrq then
    tftpMakeErrorPkt tftpErrorNotDefined (chars "Read not supported") g
  else if opcode = tftpOpcodeWrq then tftpWriteRequest rxBuf g
  else if opcode = tftpOpcodeData then tftpData rxBuf numBytes g app
  else if opcode = tftpOpcodeAck then tftpMakeErrorPkt tftpErrorIllegalOperation [] g
  else if opcode = tftpOpcodeError then (g, -1, [])
  else tftpMakeErrorPkt tftpErrorIllegalOperation [] g

-- The receive buffer and what lies behind it, once a datagram has been received.
def received (payload stale : List UInt8) : Memory := payload.take tftpRxBufferSize ++ stale

section Handled

variable (app : List UInt8 → Int → Int) (rxBuf : Memory) (numBytes : Nat) (g : Globals)

@[simp] theorem noted_prevBlockNum : (g.noted rxBuf numBytes).prevBlockNum = g.prevBlockNum := by
  simp only [Globals.noted]
  split <;> rfl

@[simp] theorem noted_error : (g.noted rxBuf numBytes).error = g.error := by
  simp only [Globals.noted]
  split <;> rfl

theorem noted_complete : (g.noted rxBuf numBytes).complete =
    (g.complete || decide (numBytes < tftpRxBufferSize)) := by
  simp only [Globals.noted, tftpRxBufferSize, Nat.add_comm tftpMinPktSize]
  split
  · rename_i h
    simp [h]
  · rename_i h
    simp [h]

def deliveredCall (result : Int) : Call :=
  .processDataBlock (ntoh16 rxBuf 2) (payload rxBuf numBytes) (dataLen numBytes) result

-- What tftp_process_packet can come to.
inductive Handled : Reply → Prop where
  | errorReceived : Handled (g, -1, [])
  | rejected (code : Nat) (msg : List UInt8) :
      Handled ({ g with error := true }.write (errorPkt code msg), (errorPkt code msg).length, [])
  | writeRequest : Handled (g.write (ackPkt 0), 4, [])
  | repeated : ntoh16 rxBuf 0 = tftpOpcodeData → ntoh16 rxBuf 2 ≠ g.prevBlockNum + 1 →
      Handled ((g.noted rxBuf numBytes).write (ackPkt (ntoh16 rxBuf 2)), 4, [])
  | full (pkt : List UInt8) : ntoh16 rxBuf 0 = tftpOpcodeData →
      ntoh16 rxBuf 2 = g.prevBlockNum + 1 → tftpMaxFileSize ≤ ntoh16 rxBuf 2 * tftpBlockSize →
      pkt = errorPkt tftpErrorDiskFull [] →
      Handled ({ g.counted rxBuf numBytes with error := true }.write pkt, 5, [])
  | refused (pkt : List UInt8) (result : Int) : ntoh16 rxBuf 0 = tftpOpcodeData →
      ntoh16 rxBuf 2 = g.prevBlockNum + 1 → ntoh16 rxBuf 2 * tftpBlockSize < tftpMaxFileSize →
      result ≠ 0 → pkt = errorPkt tftpErrorAccessViolation [] →
      Handled ({ g.counted rxBuf numBytes with error := true }.write pkt, 5,
        [deliveredCall rxBuf numBytes result])
  | accepted : ntoh16 rxBuf 0 = tftpOpcodeData →
      ntoh16 rxBuf 2 = g.prevBlockNum + 1 → ntoh16 rxBuf 2 * tftpBlockSize < tftpMaxFileSize →
      Handled ((g.counted rxBuf numBytes).write (ackPkt (ntoh16 rxBuf 2)), 4,
        [deliveredCall rxBuf numBytes 0])

theorem tftpData_handled (hdata : ntoh16 rxBuf 0 = tftpOpcodeData) :
    Handled rxBuf numBytes g (tftpData rxBuf numBytes g app) := by
  simp only [tftpData, noted_prevBlockNum]
  split
  · rename_i hnext
    split
    · rename_i hfull
      exact .full _ hdata hnext hfull rfl
    · rename_i hfull
      split
      · rename_i hr
        exact .refused _ _ hdata hnext (Nat.lt_of_not_le hfull) hr rfl
      · rename_i hr
        rw [not_not.mp hr]
        exact .accepted hdata hnext (Nat.lt_of_not_le hfull)
  · rename_i hnext
    exact .repeated hdata hnext

theorem tftpProcessPacket_handled :
    Handled rxBuf numBytes g (tftpProcessPacket app rxBuf numBytes g) := by
  simp only [tftpProcessPacket]
  split
  · exact .rejected _ _
  split
  · simp only [tftpWriteRequest]
    split
    · exact .rejected _ _
    split
    · exact .rejected _ _
    · exact .writeRequest
  split
  · rename_i _ _ hdata
    exact tftpData_handled app rxBuf numBytes g hdata
  split
  · exact .rejected _ _
  split
  · exact .errorReceived
  · exact .rejected _ _

end Handled

end Xtcp.Tftp
