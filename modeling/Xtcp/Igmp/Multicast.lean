import Xtcp.Igmp.Message
import Xtcp.Uip.Server

namespace Xtcp.Igmp
open Channel Uip

def arpRequest : Nat := 1
def arpHwtypeEth : Nat := 1
def ethtypeArp : Nat := 0x0806

structure EthHdr where
  dest : MacAddr
  src : MacAddr
  ethtype : Nat
  deriving DecidableEq, Repr

structure ArpHdr where
  ethhdr : EthHdr
  hwtype : Nat
  protocol : Nat
  hwlen : Nat
  protolen : Nat
  opcode : Nat
  shwaddr : MacAddr
  sipaddr : Ipaddr
  dhwaddr : MacAddr
  dipaddr : Ipaddr
  deriving DecidableEq, Repr

-- The header that is put before the packet, or the request that takes its place, and uip_len.
inductive Framed where
  | ip (ethhdr : EthHdr) (uipLen : Nat)
  | arp (hdr : ArpHdr) (uipLen : Nat)
  deriving DecidableEq, Repr

def ethHdrLen : Nat := 14
def arpHdrLen : Nat := 42

def broadcastMac : MacAddr := ⟨0xff, 0xff, 0xff, 0xff, 0xff, 0xff⟩
def zeroMac : MacAddr := ⟨0, 0, 0, 0, 0, 0⟩

-- The address that is looked up: the router's for another network.
def nextHop (arp : Arp) (destipaddr : Ipaddr) : Ipaddr :=
  if maskcmp destipaddr arp.hostaddr arp.netmask then destipaddr else arp.draddr

def arpRequestHdr (ethaddr : MacAddr) (arp : Arp) (ipaddr : Ipaddr) : ArpHdr :=
  { ethhdr := ⟨broadcastMac, ethaddr, ethtypeArp⟩
    hwtype := arpHwtypeEth
    protocol := ethtypeIp
    hwlen := 6
    protolen := 4
    opcode := arpRequest
    shwaddr := ethaddr
    sipaddr := arp.hostaddr
    dhwaddr := zeroMac
    dipaddr := ipaddr }

-- uip_arp_out, for what it leaves in uip_buf.
def arpOut (ethaddr : MacAddr) (arp : Arp) (destipaddr : Ipaddr) (uipLen : Nat) : Framed :=
  let ip (dest : MacAddr) : Framed := .ip ⟨dest, ethaddr, ethtypeIp⟩ (uipLen + ethHdrLen)
  if destipaddr = broadcastIpaddr then ip broadcastMac
  else if isMulticast destipaddr then
    -- the lines that create_igmp_msg has, too
    ip (destHwaddr destipaddr)
  else
    match arp.table.find? fun e => nextHop arp destipaddr == e.ipaddr with
    | some e => ip e.ethaddr
    | none => .arp (arpRequestHdr ethaddr arp (nextHop arp destipaddr)) arpHdrLen

def Framed.isIp : Framed → Bool
  | .ip _ _ => true
  | .arp _ _ => false

section Lookup

variable (ethaddr : MacAddr) (arp : Arp) (destipaddr : Ipaddr) (uipLen : Nat)

def arpEntry : Option ArpEntry := arp.table.find? fun e => nextHop arp destipaddr == e.ipaddr

theorem arpOut_isIp : (arpOut ethaddr arp destipaddr uipLen).isIp = arpResolves arp destipaddr := by
  unfold arpOut arpResolves
  by_cases hb : destipaddr = broadcastIpaddr
  · simp [hb, Framed.isIp]
  · by_cases hm : isMulticast destipaddr = true
    · simp [hb, hm, Framed.isIp]
    · simp only [if_neg hb, if_neg hm]
      have hb' : (destipaddr == broadcastIpaddr) = false := beq_eq_false_iff_ne.mpr hb
      have hm' : isMulticast destipaddr = false := Bool.eq_false_iff.mpr hm
      rw [hb', hm', Bool.false_or, Bool.false_or]
      cases he : arp.table.find? fun e => nextHop arp destipaddr == e.ipaddr with
      | none =>
        have hnone := List.find?_eq_none.mp he
        exact (List.any_eq_false.mpr hnone).symm
      | some e =>
        have hsome := List.find?_some he
        exact (List.any_eq_true.mpr ⟨e, List.mem_of_find?_eq_some he, hsome⟩).symm

end Lookup

-- 01:00:5e and the low 23 bits of the address.
def multicastMac (a : Ipaddr) : MacAddr := ⟨0x01, 0x00, 0x5e, a.b1 &&& 0x7f, a.b2, a.b3⟩

def Multicast (a : Ipaddr) : Prop := 224 ≤ a.b0 ∧ a.b0 ≤ 239

instance (a : Ipaddr) : Decidable (Multicast a) := by
  unfold Multicast
  infer_instance

section Mapped

variable {ethaddr : MacAddr} {arp : Arp} {dest : Ipaddr} {uipLen : Nat}

theorem destHwaddr_eq (a : Ipaddr) :
    destHwaddr a = ⟨0x01, 0x00, 0x5e, a.b1, a.b2 &&& 0xf, a.b3⟩ := by
  have h0 := a.b0.toNat_lt
  have h2 := a.b2.toNat_lt
  have hb1 : half0 a >>> 8 = a.b1.toNat := by
    rw [half0, Nat.shiftRight_eq_div_pow]
    omega
  have hb3 : half1 a >>> 8 = a.b3.toNat := by
    rw [half1, Nat.shiftRight_eq_div_pow]
    omega
  have hb2 : UInt8.ofNat (half1 a &&& 0xf) = a.b2 &&& 0xf := by
    have hmask (n : Nat) : n &&& 15 = n % 16 := Nat.and_two_pow_sub_one_eq_mod n 4
    have hlit : (0xf : UInt8).toNat = 15 := rfl
    apply UInt8.toNat_inj.mp
    rw [UInt8.toNat_and, hlit, hmask, UInt8.toNat_ofNat', hmask, half1]
    omega
  rw [destHwaddr, hb1, hb2, hb3, UInt8.ofNat_toNat, UInt8.ofNat_toNat]

theorem destHwaddr_iff (a : Ipaddr) : destHwaddr a = multicastMac a ↔ a.b1 < 128 ∧ a.b2 < 16 := by
  have hmask (b : UInt8) (k : Nat) (c : UInt8) (hc : c.toNat = 2 ^ k - 1) (d : UInt8)
      (hd : d.toNat = 2 ^ k) : b &&& c = b ↔ b < d := by
    rw [← UInt8.toNat_inj, UInt8.toNat_and, hc, Nat.and_two_pow_sub_one_eq_mod,
      UInt8.lt_iff_toNat_lt, hd]
    exact ⟨fun h => h ▸ Nat.mod_lt _ (Nat.two_pow_pos k), Nat.mod_eq_of_lt⟩
  rw [destHwaddr_eq, multicastMac, MacAddr.mk.injEq, eq_comm (b := a.b1 &&& 0x7f),
    hmask a.b1 7 0x7f rfl 128 rfl, hmask a.b2 4 0xf rfl 16 rfl]
  simp

-- The entry that answers for a group outside 224/8 would have to hold the group's own address.
theorem arpOut_iff (hm : Multicast dest) : (∃ h n, arpOut ethaddr arp dest uipLen = .ip h n ∧
      h.dest = multicastMac dest) ↔
    if dest.b0 = 224 then dest.b1 < 128 ∧ dest.b2 < 16
    else ∃ e, arpEntry arp dest = some e ∧ e.ethaddr = multicastMac dest := by
  have hb : dest ≠ broadcastIpaddr := by
    rintro rfl
    exact absurd hm.2 (by decide)
  rw [← destHwaddr_iff]
  unfold arpOut arpEntry
  rw [if_neg hb]
  by_cases h224 : dest.b0 = 224
  · have hmul : isMulticast dest = true := beq_iff_eq.mpr h224
    rw [if_pos hmul, if_pos h224]
    constructor
    · rintro ⟨h, n, heq, hd⟩
      obtain ⟨rfl, -⟩ := Framed.ip.inj heq
      exact hd
    · exact fun hd => ⟨_, _, rfl, hd⟩
  · have hmul : ¬ isMulticast dest = true := fun h => h224 (beq_iff_eq.mp h)
    rw [if_neg hmul, if_neg h224]
    cases arp.table.find? fun e => nextHop arp dest == e.ipaddr with
    | none =>
      constructor
      · rintro ⟨h, n, heq, -⟩
        cases heq
      · rintro ⟨e, he, -⟩
        cases he
    | some e =>
      constructor
      · rintro ⟨h, n, heq, hd⟩
        obtain ⟨rfl, -⟩ := Framed.ip.inj heq
        exact ⟨e, rfl, hd⟩
      · rintro ⟨e', he, hd⟩
        obtain rfl := Option.some.inj he
        exact ⟨_, _, rfl, hd⟩

end Mapped

-- Both paths put the mapped address, and no request is sent.
def Mapped (ethaddr : MacAddr) (hostaddr : Ipaddr) (ipid : BitVec 16) (msgtype : UInt8)
    (groupAddr : Ipaddr) (arp : Arp) (uipLen : Nat) (dest : Ipaddr) : Prop :=
  (createIgmpMsg ethaddr hostaddr ipid msgtype dest groupAddr).dest = multicastMac dest ∧
    ∃ h n, arpOut ethaddr arp dest uipLen = .ip h n ∧ h.dest = multicastMac dest

theorem multicast_mapping_exact (ethaddr : MacAddr) (hostaddr groupAddr : Ipaddr)
    (ipid : BitVec 16) (msgtype : UInt8) (arp : Arp) (uipLen : Nat) {dest : Ipaddr}
    (hm : Multicast dest) :
    Mapped ethaddr hostaddr ipid msgtype groupAddr arp uipLen dest ↔
      dest.b1 < 128 ∧ dest.b2 < 16 ∧ (dest.b0 = 224 ∨
        ∃ e, arpEntry arp dest = some e ∧ e.ethaddr = multicastMac dest) := by
  have hcreate : (createIgmpMsg ethaddr hostaddr ipid msgtype dest groupAddr).dest =
      destHwaddr dest := rfl
  rw [Mapped, hcreate, destHwaddr_iff, arpOut_iff hm]
  by_cases h224 : dest.b0 = 224
  · simp [h224]
  · simp [h224, and_assoc]

def bareArp : Arp := ⟨[], 0, ⟨192, 168, 0, 5⟩, ⟨255, 255, 255, 0⟩, ⟨192, 168, 0, 1⟩⟩

theorem mapping_allHosts :
    Mapped ⟨0, 1, 2, 3, 4, 5⟩ ⟨192, 168, 0, 5⟩ 0 igmpMembershipReport ⟨224, 0, 0, 1⟩ bareArp 28
      ⟨224, 0, 0, 1⟩ :=
  (multicast_mapping_exact _ _ _ _ _ _ _ (by decide : Multicast ⟨224, 0, 0, 1⟩)).mpr
    ⟨by decide, by decide, Or.inl rfl⟩

-- 224.0.251.1 is sent to 01:00:5e:00:0b:01, and for 239.255.255.250 there is a request.
theorem group_masked :
    Multicast ⟨224, 0, 251, 1⟩ ∧ multicastMac ⟨224, 0, 251, 1⟩ = ⟨0x01, 0x00, 0x5e, 0, 251, 1⟩ ∧
    (createIgmpMsg ⟨0, 1, 2, 3, 4, 5⟩ ⟨192, 168, 0, 5⟩ 0 igmpMembershipReport ⟨224, 0, 251, 1⟩
      ⟨224, 0, 251, 1⟩).dest = ⟨0x01, 0x00, 0x5e, 0, 11, 1⟩ ∧
    arpOut ⟨0, 1, 2, 3, 4, 5⟩ bareArp ⟨224, 0, 251, 1⟩ 28 =
      .ip ⟨⟨0x01, 0x00, 0x5e, 0, 11, 1⟩, ⟨0, 1, 2, 3, 4, 5⟩, ethtypeIp⟩ 42 ∧
    Multicast ⟨239, 255, 255, 250⟩ ∧
    arpOut ⟨0, 1, 2, 3, 4, 5⟩ bareArp ⟨239, 255, 255, 250⟩ 28 =
      .arp (arpRequestHdr ⟨0, 1, 2, 3, 4, 5⟩ bareArp ⟨192, 168, 0, 1⟩) arpHdrLen := by
  refine ⟨by decide, by decide, by decide, by decide, by decide, by decide⟩

end Xtcp.Igmp
