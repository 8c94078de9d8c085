import Xtcp.Library.Extent
import Xtcp.Pip.Frame.Receive

namespace Xtcp.Pip.Frame

open Halfword Reading Extents

-- pip_conf.h, for config.h. PIP_TCP_BUFSIZE_TX is defined without PIP_TCP too.
structure Defines where
  debugTCP : Bool
  tftp : Bool
  dhcpDontWait : Bool
  dhcp : Bool
  linkLocal : Bool
  tcp : Bool
  udp : Bool
  icmp : Bool
  ipv4 : Bool
  arp : Bool
  gateway : Bool
  sizes : Tcp.Config
  udpChannels : Nat
  ethTxWords : Option Nat
  myMacAddress : Bytes

namespace Defines

variable (d : Defines)

def hasICMP : Bool := d.icmp || d.debugTCP

def hasDHCP : Bool := d.dhcp || d.dhcpDontWait

def hasUDP : Bool := d.udp || d.tftp || d.hasDHCP

def hasIPv4 : Bool := d.ipv4 || d.tcp || d.hasUDP || d.hasICMP

def hasARP : Bool := d.arp || d.linkLocal || d.hasIPv4

def config : Config where
  ipv4 := d.hasIPv4
  arp := d.hasARP
  tcp := if d.tcp then some d.sizes else none
  udp := d.hasUDP
  icmp := d.hasICMP
  tftp := d.tftp
  address := ⟨d.linkLocal, d.hasDHCP, d.dhcpDontWait, d.gateway, d.myMacAddress⟩

-- PIP_ETHTX_WORDS
def words : Nat :=
  let words := d.ethTxWords.getD 200
  let words := if d.hasARP ∧ words < 22 then 22 else words
  let words := if d.hasDHCP ∧ words < 64 then 64 else words
  if d.hasDHCP ∧ words < (62 + d.sizes.bufsizeTx) / 4 then (62 + d.sizes.bufsizeTx) / 4 else words

end Defines

section Tx

-- The bytes of txbuf to which these write.
def txInt (offset : Nat) : Extent := ⟨offset * 2, 4⟩

def txShort (offset : Nat) : Extent := ⟨offset * 2, 2⟩

def txByte (offset : Nat) : Extent := ⟨offset, 1⟩

def txData (offset n : Nat) : Extent := ⟨offset * 2, n⟩

def txShortZeroes (offset len : Nat) : Extent := ⟨offset * 2, len * 2⟩

end Tx

section Messages

variable (cfg : Config) (s : Address.Host)

def pipOutgoingEthernet : List Extent := [txData 0 6, txData 3 6, txShort 6]

-- offset is -1 for a broadcast.
def pipCreateARP (broadcast : Bool) : List Extent :=
  [txInt 32, txInt 7, txInt 9, txData 11 6, txInt 14, txInt 19] ++
    (if broadcast then [txShortZeroes 16 3] else [txData 16 6]) ++ pipOutgoingEthernet

-- The loop over pipArpTable finds the destination, or the router before it.
def resolved (ipDst : Word) : Bool :=
  let ipDst := if cfg.address.gateway ∧ ipDst &&& s.mySubnetIP ≠ s.myIP &&& s.mySubnetIP ∧
    s.myRouterIP ≠ 0 then s.myRouterIP else ipDst
  (List.range Address.arpEntries).any fun i => (s.pipArpTable i).ipAddress == ipDst

def pipOutgoingIPv4 (ipDst : Word) : List Extent :=
  [txShort 7, txShort 8, txInt 9, txShort 11, txShort 12, txInt 13, txInt 15, txShort 12] ++
    if resolved cfg s ipDst then pipOutgoingEthernet else pipCreateARP false

def pipOutgoingUDP (remoteIP : Word) : List Extent :=
  [txShort 17, txShort 18, txShort 19, txShort 20, txShort 20] ++ pipOutgoingIPv4 cfg s remoteIP

def pipCreateDHCP (firstMessage : Bool) : List Extent :=
  [txInt 21, txInt 23, txShort 25, txShort 26, txShortZeroes 27 112, txData 35 6, txInt 139,
    txInt 141] ++
    (if firstMessage then [txInt 141] else [txInt 141, txInt 143, txInt 145, txInt 147]) ++
    pipOutgoingUDP cfg s 0xFFFFFFFF

def doSend (pipIpTFTP : Word) : List Extent := txShort 21 :: pipOutgoingUDP cfg s pipIpTFTP

def pipAcknowledgeTFTP (pipIpTFTP : Word) : List Extent := txShort 22 :: doSend cfg s pipIpTFTP

def pipReadTFTP (pipIpTFTP : Word) : List Extent := txData 22 9 :: doSend cfg s pipIpTFTP

def doWriteUDP (remoteIP : Word) (maxBytes : Nat) : List Extent :=
  bytesFrom 42 maxBytes ++ pipOutgoingUDP cfg s remoteIP

-- The reply of pipIncomingICMP.
def pong (icmpOffset : Nat) (srcIP : Word) (length : Nat) : List Extent :=
  [txData 17 length, txByte (icmpOffset * 2), txShort 18, txShort 18] ++
    pipOutgoingIPv4 cfg s srcIP

def pipOutgoingTCP (syn : Bool) (remoteIP : Word) : List Extent :=
  [txShort 17, txShort 18, txInt 19, txInt 21, txShort 23, txShort 24, txInt 25] ++
    (if syn then [txInt 27] else []) ++ [txShort 25] ++ pipOutgoingIPv4 cfg s remoteIP

-- loadOutgoingData has put the data behind the header before.
def built : Tcp.Note → List Extent
  | .sent p => bytesFrom 54 p.data.length ++ pipOutgoingTCP cfg s p.flags.syn p.dstIP
  | .bounced p => pipOutgoingTCP cfg s p.flags.syn p.dstIP
  | _ => []

end Messages

section Options

def wordOf : List (BitVec 8) → Word
  | [a, b, c, d] => a ++ b ++ c ++ d
  | _ => 0

def take (o : Address.Options) (x : BitVec 8 × List (BitVec 8)) : Address.Options :=
  if x.1 = 0x35 then { o with messageType := x.2.headD 0 }
  else if x.1 = 0x36 then { o with serverIP := wordOf x.2 }
  else if x.1 = 0x33 then { o with leaseTime := wordOf x.2 }
  else if x.1 = 0x3A then { o with renewalTime := wordOf x.2 }
  else if x.1 = 0x3B then { o with rebindTime := wordOf x.2 }
  else if x.1 = 0x01 then { o with subnet := wordOf x.2 }
  else if x.1 = 0x03 ∧ x.2 ≠ [] then { o with router := wordOf x.2 }
  else o

def taking (options : List (BitVec 8 × List (BitVec 8))) : Address.Options :=
  options.foldl take ⟨0, 0, 0, 0, 0, 0, 0⟩

-- pipIpTFTP behind the options.
def tftpServer (pipIpTFTP : Word) (options : List (BitVec 8 × List (BitVec 8))) : Word :=
  options.foldl (fun ip x => if x.1 = 0x96 ∧ x.2 ≠ [] then wordOf x.2 else ip) pipIpTFTP

end Options

variable {n m : Nat}

inductive Event (n : Nat) where
  | frame (nBytes : Nat) (mem : Bytes)
  | applicationTCP (env : Tcp.Env) (app : Tcp.Chanend) (i : Fin n) (r : Tcp.Request)
  | writeUDP (remoteIP : Word) (maxBytes : Nat)
  | prepareTCP (env : Tcp.Env)
  | timeOutTCP (env : Fin n → Tcp.Env)
  | timeOut (timer : Address.Timer)
  | timeOutTFTP

section Writes

variable (d : Defines) (h : Host n m) (pipIpTFTP : Word)

def tcpWrites (e : Tcp.Event n) : List Extent :=
  if d.tcp then
    match Tcp.step d.sizes h.stack e with
    | some s => (s.log.drop h.stack.log.length).flatMap (built d.config h.address)
    | none => []
  else []

def reply : Call → List Extent
  | .conflict | .store _ _ | .datagram _ => []
  | .answer _ _ => pipCreateARP false
  | .segment seg => tcpWrites d h (.segment h.env seg)
  | .lease proposedIP options =>
    if (taking options).messageType = 2 then pipCreateDHCP d.config h.address false
    else if (taking options).messageType = 5 ∧ d.tftp then
      pipReadTFTP d.config (Address.dhcpAck d.config.address proposedIP (taking options) h.address)
        (tftpServer pipIpTFTP options)
    else []
  | .block opcode _ _ =>
    if (rev opcode).toNat = Tftp.data then pipAcknowledgeTFTP d.config h.address pipIpTFTP else []
  | .pong icmpOffset srcIP bytes => pong d.config h.address icmpOffset srcIP bytes.length

def Host.stored (h : Host n m) : Call → Host n m
  | .store ipAddress macAddress =>
    { h with address := Address.pipARPStoreEntry ipAddress macAddress h.address }
  | _ => h

-- Only what is stored comes before another call.
def replies (h : Host n m) : List Call → List Extent
  | [] => []
  | call :: calls => reply d h pipIpTFTP call ++ replies (h.stored call) calls

def expired (s : Address.Host) : Address.Timer → List Extent
  | .dhcpT1 => if d.hasDHCP then pipCreateDHCP d.config s false else []
  | .dhcpT2 =>
    if d.hasDHCP then
      pipCreateDHCP d.config
        (if s.dhcpState = .allocated then Address.pipUnassignIPv4 s else s) true
    else []
  | .arp => []
  | .linkLocal =>
    if d.linkLocal ∧ s.linkState ≠ .announcedTwice ∧ s.linkState ≠ .gotIt then pipCreateARP true
    else []

def writes : Event n → List Extent
  | .frame nBytes mem =>
    replies d pipIpTFTP h ((pipIncomingEthernet d.config h nBytes).value mem)
  | .applicationTCP env app i r => tcpWrites d h (.request env app i r)
  | .writeUDP remoteIP maxBytes =>
    if d.udpChannels = 0 then [] else doWriteUDP d.config h.address remoteIP maxBytes
  | .prepareTCP env => tcpWrites d h (.prepare env)
  | .timeOutTCP env => tcpWrites d h (.timeOut env)
  | .timeOut timer => if h.address.due timer then expired d h.address timer else []
  | .timeOutTFTP =>
    if d.tftp then
      if h.loader.lastCmd = Tftp.rrq then pipReadTFTP d.config h.address pipIpTFTP
      else if h.loader.lastCmd = Tftp.ack then pipAcknowledgeTFTP d.config h.address pipIpTFTP
      else []
    else []

end Writes

end Xtcp.Pip.Frame
