import Xtcp.Channel.Command
import Xtcp.Library.Fields
import Xtcp.Library.Segment

namespace Xtcp.Dhcpc

open Channel Segment

def dhcpRequest : UInt8 := 1
def dhcpReply : UInt8 := 2
def htypeEthernet : UInt8 := 1

def dhcpDiscover : UInt8 := 1
def dhcpOffer : UInt8 := 2
def dhcpRequestType : UInt8 := 3
def dhcpAck : UInt8 := 5
def dhcpNak : UInt8 := 6

def optionSubnetMask : UInt8 := 1
def optionRouter : UInt8 := 3
def optionDnsServer : UInt8 := 6
def optionReqIpaddr : UInt8 := 50
def optionLeaseTime : UInt8 := 51
def optionMsgType : UInt8 := 53
def optionServerId : UInt8 := 54
def optionReqList : UInt8 := 55
def optionEnd : UInt8 := 255

def magicCookie : List UInt8 := [99, 130, 83, 99]

-- The place of options[4] in struct dhcp_msg.
def optionsStart : Nat := 240

-- What a server's message sets: lease_time holds two halves in host order.
structure Lease where
  serverid : Ipaddr
  leaseTime0 : BitVec 16
  leaseTime1 : BitVec 16
  ipaddr : Ipaddr
  netmask : Ipaddr
  dnsaddr : Ipaddr
  defaultRouter : Ipaddr
  deriving DecidableEq, Repr

-- The bytes from uip_appdata on, of which datalen have been received.
structure Datagram where
  appdata : Nat → UInt8
  datalen : Nat

def ipaddrBytes (a : Ipaddr) : List UInt8 := [a.b0, a.b1, a.b2, a.b3]

def macaddrBytes (a : MacAddr) : List UInt8 := [a.b0, a.b1, a.b2, a.b3, a.b4, a.b5]

section Create

def addMsgType (type : UInt8) : List UInt8 := [optionMsgType, 1, type]

def addServerId (l : Lease) : List UInt8 := optionServerId :: 4 :: ipaddrBytes l.serverid

def addReqIpaddr (l : Lease) : List UInt8 := optionReqIpaddr :: 4 :: ipaddrBytes l.ipaddr

def addReqOptions : List UInt8 :=
  [optionReqList, 3, optionSubnetMask, optionRouter, optionDnsServer]

def addEnd : List UInt8 := [optionEnd]

-- dhcpc_init takes the last four bytes of the hardware address.
def xid (macAddr : MacAddr) : List UInt8 := [macAddr.b2, macAddr.b3, macAddr.b4, macAddr.b5]

-- ciaddr is uip_hostaddr in STATE_CONFIG_RECEIVED only. All bytes are written.
def createMsg (macAddr : MacAddr) (ciaddr : Ipaddr) : List UInt8 :=
  [dhcpRequest, htypeEthernet, 6, 0] ++ xid macAddr ++ [0, 0] ++ [0x80, 0] ++
    ipaddrBytes ciaddr ++ List.replicate 12 0 ++ (macaddrBytes macAddr ++ List.replicate 10 0) ++
    List.replicate 64 0 ++ List.replicate 128 0 ++ magicCookie

def sendDiscover (macAddr : MacAddr) (ciaddr : Ipaddr) : List UInt8 :=
  createMsg macAddr ciaddr ++ addMsgType dhcpDiscover ++ addReqOptions ++ addEnd

def sendRequest (macAddr : MacAddr) (ciaddr : Ipaddr) (l : Lease) : List UInt8 :=
  createMsg macAddr ciaddr ++ addMsgType dhcpRequestType ++ addServerId l ++ addReqIpaddr l ++
    addEnd

end Create

section Parse

variable (mem : Nat → UInt8)

def four (p : Nat) : Ipaddr := ⟨mem p, mem (p + 1), mem (p + 2), mem (p + 3)⟩

-- A half that memcpy put in network order, after its bytes are swapped.
def half (p : Nat) : BitVec 16 := (mem p).toBitVec ++ (mem (p + 1)).toBitVec

def readOption (p : Nat) (l : Lease) : Lease :=
  if mem p = optionSubnetMask then { l with netmask := four mem (p + 2) }
  else if mem p = optionRouter then { l with defaultRouter := four mem (p + 2) }
  else if mem p = optionDnsServer then { l with dnsaddr := four mem (p + 2) }
  else if mem p = optionServerId then { l with serverid := four mem (p + 2) }
  else if mem p = optionLeaseTime then
    { l with leaseTime0 := half mem (p + 2), leaseTime1 := half mem (p + 4) }
  else l

-- Each turn of the loop advances by two at least.
def parseOptions (stop : Nat) : Nat → Nat → UInt8 → Lease → UInt8 × Lease
  | 0, _, type, l => (type, l)
  | fuel + 1, p, type, l =>
    if p < stop then
      if mem p = optionEnd then (type, l)
      else if mem p = optionMsgType then
        parseOptions stop fuel (p + ((mem (p + 1)).toNat + 2)) (mem (p + 2)) l
      else parseOptions stop fuel (p + ((mem (p + 1)).toNat + 2)) type (readOption mem p l)
    else (type, l)

def findMsgType (stop : Nat) : Nat → Nat → Option UInt8
  | 0, _ => none
  | fuel + 1, p =>
    if p < stop then
      if mem p = optionMsgType then some (mem (p + 2))
      else if mem p = optionEnd then none
      else findMsgType stop fuel (p + ((mem (p + 1)).toNat + 2))
    else none

def ForMe (macAddr : MacAddr) : Prop :=
  mem 0 = dhcpReply ∧ slice mem 4 4 = xid macAddr ∧ slice mem 28 6 = macaddrBytes macAddr

instance (macAddr : MacAddr) : Decidable (ForMe mem macAddr) :=
  inferInstanceAs (Decidable (_ ∧ _))

end Parse

-- uip_datalen() counts from uip_appdata, and not from the options.
def parseMsg (macAddr : MacAddr) (d : Datagram) (l : Lease) : UInt8 × Lease :=
  if ForMe d.appdata macAddr then
    parseOptions d.appdata (optionsStart + d.datalen) d.datalen optionsStart 0
      { l with ipaddr := four d.appdata 16 }
  else (0, l)

-- -1 is none.
def msgForMe (macAddr : MacAddr) (d : Datagram) : Option UInt8 :=
  if ForMe d.appdata macAddr then findMsgType d.appdata d.datalen d.datalen optionsStart else none

end Xtcp.Dhcpc
