import Mathlib.Data.Nat.Bitwise
import Xtcp.Library.Segment
import Xtcp.Library.Serial
import Xtcp.Pip.Timer

namespace Xtcp.Pip.Tcp
open Segment Serial

-- The sizes pass the checks of config.h, and an int holds them.
structure Config where
  bufsizeRx : Nat
  bufsizeTx : Nat
  powerRx : ∃ k ≤ 30, bufsizeRx = 2 ^ k
  powerTx : ∃ k ≤ 30, bufsizeTx = 2 ^ k

-- What an int keeps of a sum.
def int (x : Int) : Int := x.bmod (2 ^ 32)

-- x & (size - 1)
def mask (size : Nat) (x : Int) : Nat := (BitVec.ofInt 32 x &&& BitVec.ofNat 32 (size - 1)).toNat

theorem int_eq {x : Int} (h : -2 ^ 31 ≤ x) (h' : x < 2 ^ 31) : int x = x :=
  Int.bmod_eq_of_le (by omega) (by omega)

theorem int_range (x : Int) : -2 ^ 31 ≤ int x ∧ int x < 2 ^ 31 :=
  ⟨Int.le_bmod (by decide), Int.bmod_lt (by decide)⟩

theorem mask_eq {size : Nat} (h : ∃ k ≤ 30, size = 2 ^ k) (x : Int) :
    (mask size x : Int) = x % size := by
  obtain ⟨k, hk, rfl⟩ := h
  have hlt : 2 ^ k - 1 < 2 ^ 32 :=
    Nat.lt_of_lt_of_le (Nat.sub_one_lt (Nat.two_pow_pos k).ne')
      (Nat.pow_le_pow_right (by decide) (by omega))
  have hdvd : ((2 ^ k : Nat) : Int) ∣ (2 ^ 32 : Nat) :=
    Int.natCast_dvd_natCast.mpr (Nat.pow_dvd_pow 2 (by omega))
  rw [mask, BitVec.toNat_and, BitVec.toNat_ofNat, Nat.mod_eq_of_lt hlt,
    Nat.and_two_pow_sub_one_eq_mod, Int.natCast_mod, BitVec.toNat_ofInt,
    Int.toNat_of_nonneg (Int.emod_nonneg _ (by decide)), Int.emod_emod_of_dvd _ hdvd]

theorem mask_natCast {size : Nat} (h : ∃ k ≤ 30, size = 2 ^ k) (n : Nat) :
    mask size n = n % size := by
  have hmask := mask_eq h n
  omega

def byterev (x : Word) : Word :=
  x.extractLsb' 0 8 ++ x.extractLsb' 8 8 ++ x.extractLsb' 16 8 ++ x.extractLsb' 24 8

-- The array has PIP_TCP_BUFSIZE_RX elements, in the queue for transmission too.
structure Xqueue where
  rd : Nat
  wr : Nat
  free : Int
  length : Int
  buffer : Nat → UInt8

inductive State where
  | closed | listen | synsent | synrcvd | estab | finwait1 | finwait2 | closing | closewait
  | lastack | timewait | timewait0
  deriving DecidableEq, Repr

inductive AppStatus where
  | notWaiting | closing | reading | writing | accepting | connecting
  deriving DecidableEq, Repr

inductive Token where
  | ack | error | closed
  deriving DecidableEq, Repr

abbrev Chanend := Nat

structure Flags where
  fin : Bool := false
  syn : Bool := false
  rst : Bool := false
  psh : Bool := false
  ack : Bool := false
  deriving DecidableEq, Repr

-- The data and the header that pipOutgoingTCP puts before it, in host order but for the ports.
structure Sent where
  srcPortRev : BitVec 16
  dstPortRev : BitVec 16
  dstIP : Word
  seq : Word
  ack : Word
  flags : Flags
  window : BitVec 16
  data : List UInt8
  deriving DecidableEq, Repr

-- length is what the IP header leaves for data: it may be negative, and payload goes on behind
-- the frame.
structure Segment where
  srcPortRev : BitVec 16
  dstPortRev : BitVec 16
  srcIP : Word
  dstIP : Word
  seq : Word
  ack : Word
  flags : Flags
  window : BitVec 16
  length : Int
  payload : Nat → UInt8

-- What has been done on a connection. token: for which kind of request. stored: the bytes of a
-- segment with this sequence number. finished: the FIN of the close and its number.
inductive Note where
  | opened
  | requested (app : Chanend)
  | iss (n : Word)
  | irs (n : Word)
  | acked (n : Word)
  | entered (st : State)
  | sent (s : Sent)
  | bounced (s : Sent)
  | token (app : Option Chanend) (request : AppStatus) (ct : Token)
  | accepted (data : List UInt8)
  | stored (seq : Word) (data : List UInt8)
  | returned (data : List UInt8)
  | finished (n : Word)
  | ready
  deriving DecidableEq

-- appWaiting is none where the source has 0. log is not in the source.
structure TcpConnection where
  remotePortRev : BitVec 16
  localPortRev : BitVec 16
  remoteIP : Word
  localIP : Word
  state : State
  sndNXT : Word
  sndUNA : Word
  rcvNXT : Word
  rcvWND : Int
  sndWND : Int
  appWaiting : Option Chanend
  appStatus : AppStatus
  ackRequired : Bool
  timeouts : Word
  rx : Xqueue
  tx : Xqueue
  log : List Note

def Xqueue.zero : Xqueue := ⟨0, 0, 0, 0, fun _ => 0⟩

def TcpConnection.zero (localPortRev : BitVec 16) : TcpConnection :=
  ⟨0, localPortRev, 0, 0, .closed, 0, 0, 0, 0, 0, none, .notWaiting, false, 0, .zero, .zero, []⟩

-- count and data: what an application says of its read or write. other: the answer of the writer
-- that waits when the write of another application is served. pseudo: what the local variable of
-- bounceRST holds before it is assigned to.
structure Answer where
  count : Int
  data : Nat → UInt8

structure Env where
  now : Word
  myIP : Word
  answer : Answer
  other : Answer
  pseudo : TcpConnection

variable (cfg : Config) (env : Env)

section Queue

def Xqueue.put (size : Nat) (b : UInt8) (q : Xqueue) : Option Xqueue :=
  if q.wr < cfg.bufsizeRx then
    some { q with buffer := Function.update q.buffer q.wr b, wr := mask size (q.wr + 1) }
  else none

def Xqueue.putAll (size : Nat) : List UInt8 → Xqueue → Option Xqueue
  | [], q => some q
  | b :: bs, q => (q.put cfg size b).bind (Xqueue.putAll size bs)

def Xqueue.takeAll (size : Nat) : Nat → Xqueue → Option (List UInt8 × Xqueue)
  | 0, q => some ([], q)
  | n + 1, q =>
    if q.rd < cfg.bufsizeRx then
      (Xqueue.takeAll size n { q with rd := mask size (q.rd + 1) }).map fun r =>
        (q.buffer q.rd :: r.1, r.2)
    else none

-- The first loop of storeIncomingData: i and the queue.
def Xqueue.store (size : Nat) : List UInt8 → Xqueue → Option (Nat × Xqueue)
  | [], q => some (0, q)
  | b :: bs, q =>
    if q.free = 0 then some (0, q)
    else do
      let q ← q.put cfg size b
      let r ← Xqueue.store size bs { q with free := int (q.free - 1) }
      return (r.1 + 1, r.2)

end Queue

namespace TcpConnection

variable (c : TcpConnection)

def note (x : Note) : TcpConnection := { c with log := c.log ++ [x] }

def enter (st : State) : TcpConnection := { c with state := st }.note (.entered st)

def setTx (f : Xqueue → Xqueue) : TcpConnection := { c with tx := f c.tx }

-- sndUNA = segACK
def acknowledge (n : Word) : TcpConnection := { c with sndUNA := n }.note (.acked n)

end TcpConnection

attribute [simp] TcpConnection.note TcpConnection.enter TcpConnection.setTx
  TcpConnection.acknowledge

def tcpMinTimeout : Word := 4

def tcpMaxTimeout : Word := 4096

def header (data : List UInt8) (flags : Flags) (c : TcpConnection) : Sent :=
  let flags := { flags with ack := flags.ack || c.ackRequired }
  ⟨c.localPortRev, c.remotePortRev, c.remoteIP, c.sndNXT, if flags.ack then c.rcvNXT else 0, flags,
    BitVec.ofInt 16 c.rx.free, data⟩

@[simp] def pipOutgoingTCP (data : List UInt8) (flags : Flags) (c : TcpConnection) : TcpConnection :=
  { c with rcvWND := c.rx.free, ackRequired := false, timeouts := tcpMinTimeout }.note
    (.sent (header data flags c))

def bounceRST (seg : Segment) (incorporateACK : Bool) : Sent :=
  let pseudoConnection := { env.pseudo with
    localPortRev := seg.dstPortRev, remotePortRev := seg.srcPortRev, remoteIP := seg.srcIP }
  if incorporateACK then
    header [] { rst := true } { pseudoConnection with rcvNXT := 0, sndNXT := seg.ack }
  else
    header [] { ack := true, rst := true } { pseudoConnection with sndNXT := 0, rcvNXT := seg.seq }

@[simp] def appSend (ct : Token) (c : TcpConnection) : TcpConnection :=
  { c with appStatus := .notWaiting }.note (.token c.appWaiting c.appStatus ct)

@[simp] def appSendAcknowledge (c : TcpConnection) : TcpConnection := appSend .ack c

@[simp] def appSendClose (c : TcpConnection) : TcpConnection := appSend .closed c

@[simp] def appSendError (c : TcpConnection) : TcpConnection := appSend .error c

-- soutct
@[simp] def answer (app : Chanend) (request : AppStatus) (ct : Token) (c : TcpConnection) : TcpConnection :=
  c.note (.token (some app) request ct)

@[simp] def setAppWaiting (app : Chanend) (status : AppStatus) (c : TcpConnection) : TcpConnection :=
  { c with appWaiting := some app, appStatus := status }

def copyDataForRead (app : Option Chanend) (c : TcpConnection) : Option TcpConnection := do
  let bytesToSend := min (int (cfg.bufsizeRx - c.rx.free)) env.answer.count
  let rx := { c.rx with free := int (c.rx.free + bytesToSend) }
  let r ← rx.takeAll cfg cfg.bufsizeRx bytesToSend.toNat
  return ({ c with rx := r.2 }.note (.token app .reading .ack)).note (.returned r.1)

def copyDataForRead2 (c : TcpConnection) : Option TcpConnection :=
  copyDataForRead cfg env c.appWaiting c

-- The read that waits, in storeIncomingData.
def serveReader (c : TcpConnection) : Option TcpConnection :=
  if c.appStatus = .reading ∧ c.rx.free ≠ (cfg.bufsizeRx : Int) then
    (copyDataForRead2 cfg env c).map fun c => { c with appStatus := .notWaiting }
  else some c

def storeIncomingData (seg : Segment) (c : TcpConnection) : Option (Bool × TcpConnection) := do
  let data := slice seg.payload 0 seg.length.toNat
  let r ← c.rx.store cfg cfg.bufsizeRx data
  let c := { c with rx := r.2 }.note (.stored seg.seq (data.take r.1))
  let c ← serveReader cfg env c
  return ((r.1 : Int) == seg.length, { c with rcvNXT := c.rcvNXT + BitVec.ofNat 32 r.1 })

def copyDataFromWrite (app : Option Chanend) (c : TcpConnection) : Option TcpConnection := do
  let bytesRequested := min env.answer.count c.tx.free
  let data := slice env.answer.data 0 bytesRequested.toNat
  let tx := { c.tx with
    free := int (c.tx.free - bytesRequested), length := int (c.tx.length + bytesRequested) }
  let tx ← tx.putAll cfg cfg.bufsizeTx data
  return ({ c with tx := tx }.note (.token app .writing .ack)).note (.accepted data)

def copyDataFromWrite2 (c : TcpConnection) : Option TcpConnection :=
  copyDataFromWrite cfg env c.appWaiting c

-- The write that waits, in loadOutgoingData.
def serveWriter (c : TcpConnection) : Option TcpConnection :=
  if c.appStatus = .writing ∧ c.tx.free ≠ (cfg.bufsizeTx : Int) then
    (copyDataFromWrite2 cfg env c).map fun c => { c with appStatus := .notWaiting }
  else some c

def loadOutgoingData (c : TcpConnection) : Option TcpConnection := do
  let length := c.tx.length
  let c := if c.sndWND < length then c.note .ready else c
  let r ← { c.tx with length := int (c.tx.length - length) }.takeAll cfg cfg.bufsizeTx length.toNat
  let c := { c with tx := r.2 }
  let c ← serveWriter cfg env c
  let c := pipOutgoingTCP r.1 { psh := true, ack := true } c
  return { c with sndNXT := c.sndNXT + BitVec.ofNat 32 length.toNat }

end Xtcp.Pip.Tcp
