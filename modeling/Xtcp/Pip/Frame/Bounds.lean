import Xtcp.Pip.Frame.Receive
import Xtcp.Pip.Tcp.Payload

namespace Xtcp.Pip.Frame

open Halfword Reading

variable {n m : Nat}

section Fields

variable (cfg : Config) (h : Host n m) (mem : Bytes)

-- The short behind v tags of virtual networks.
structure Tagged (offset v : Nat) : Prop where
  tags : ∀ k < v, load mem (2 * (offset + k)) = 0x0081
  type : load mem (2 * (offset + v)) ≠ 0x0081

def headerLength (offset : Nat) : Nat := (mem (offset * 2) &&& 0xF).toNat

def totalLength (offset : Nat) : Nat := (rev (load mem (2 * (offset + 1)))).toNat

def contentOffset (offset : Nat) : Nat := headerLength mem offset * 2 + offset

def srcIP (offset : Nat) : Word := word mem (2 * offset + 12)

def dstIP (offset : Nat) : Word := word mem (2 * offset + 16)

def dataLength (offset : Nat) : Int := totalLength mem offset - headerLength mem offset * 4

def Accepted (offset : Nat) : Prop :=
  (onesChecksum 0 offset (headerLength mem offset * 4)).value mem = 0 ∧
    foreign h (dstIP mem offset) = false

def IsTcp (offset : Nat) : Prop := cfg.tcp.isSome = true ∧ mem (offset * 2 + 9) = 6

def IsUdp (offset : Nat) : Prop := cfg.udp = true ∧ mem (offset * 2 + 9) = 17

def IsIcmp (offset : Nat) : Prop := cfg.icmp = true ∧ mem (offset * 2 + 9) = 1

def dataOffset (offset : Nat) : Nat := (load mem (2 * (offset + 6)) >>> 4 &&& 0xF).toNat

def udpLength (offset : Nat) : Nat := (rev (load mem (2 * (offset + 2)))).toNat

def localPort (offset : Nat) : Nat := (rev (load mem (2 * (offset + 1)))).toNat

def remotePort (offset : Nat) : Nat := (rev (load mem (2 * offset))).toNat

def UdpValid (srcIP dstIP : Word) (offset : Nat) : Prop :=
  (onesChecksum (0x0011 + rev (load mem (2 * (offset + 2))) + onesAdd srcIP dstIP) offset
    (udpLength mem offset)).value mem = 0

def IsDhcp (offset : Nat) : Prop := cfg.address.dhcp = true ∧ localPort mem offset = 0x44

def IsTftp (offset : Nat) : Prop := cfg.tftp = true ∧ localPort mem offset = h.loader.pipPortTFTP

end Fields

section Claim

variable (cfg : Config) (h : Host n m) (nBytes : Nat) (mem : Bytes)

-- An option that the scan of a DHCP packet comes to has more bytes than the frame.
def OptionsBeyond (stop : Int) : Nat → Nat → Prop
  | 0, _ => False
  | fuel + 1, i => (i : Int) < stop ∧ mem i ≠ 255 ∧
      (nBytes < i + 2 + (mem (i + 1)).toNat ∨
        OptionsBeyond stop fuel (i + (mem (i + 1)).toNat + 2))

def DhcpBeyond (offset : Nat) (length : Int) : Prop :=
  Address.Answers mem offset h.address ∧
    OptionsBeyond nBytes mem (offset * 2 + length) length.toNat (offset * 2 + 240)

structure Udp (offset : Nat) : Prop where
  udp : IsUdp cfg mem offset
  valid : UdpValid mem (srcIP mem offset) (dstIP mem offset) (contentOffset mem offset)

-- A length field of the packet at offset goes beyond the frame.
def Oversized (offset : Nat) : Prop :=
  nBytes < offset * 2 + headerLength mem offset * 4 ∨
  nBytes < offset * 2 + totalLength mem offset ∨
  (IsTcp cfg mem offset ∧
    nBytes < contentOffset mem offset * 2 + dataOffset mem (contentOffset mem offset) * 4) ∨
  (IsUdp cfg mem offset ∧
    nBytes < contentOffset mem offset * 2 + udpLength mem (contentOffset mem offset)) ∨
  (Udp cfg mem offset ∧ IsDhcp cfg mem (contentOffset mem offset) ∧
    DhcpBeyond h nBytes mem (contentOffset mem offset + 4)
      (udpLength mem (contentOffset mem offset) - 8))

structure Bounded : Prop where
  reads : Within nBytes mem (pipIncomingEthernet cfg h nBytes)
  dropped : ∀ v, Tagged mem 6 v → cfg.ipv4 = true → load mem (2 * (6 + v)) = 0x0008 →
    Oversized cfg h nBytes mem (7 + v) → (pipIncomingEthernet cfg h nBytes).value mem = []

end Claim

section Condition

variable (cfg : Config) (h : Host n m) (nBytes : Nat) (mem : Bytes)

def OptionsFit (stop : Int) : Nat → Nat → Prop
  | 0, _ => True
  | fuel + 1, i => (i : Int) < stop → i < nBytes ∧ (mem i ≠ 255 →
      i + 2 + optionWidth cfg (mem i) ≤ nBytes ∧ i + 2 + (mem (i + 1)).toNat ≤ nBytes ∧
        OptionsFit stop fuel (i + (mem (i + 1)).toNat + 2))

structure DhcpFits (offset : Nat) (length : Int) : Prop where
  first : offset * 2 + 238 ≤ nBytes
  second : load mem (2 * (offset + 118)) = 0x8263 → offset * 2 + 240 ≤ nBytes
  options : Address.Answers mem offset h.address →
    OptionsFit cfg nBytes mem (offset * 2 + length) length.toNat (offset * 2 + 240)

structure TftpFits (srcPort offset : Nat) : Prop where
  opcode : offset * 2 + 2 ≤ nBytes
  block : srcPort = h.loader.clientPort ∨ h.loader.clientPort = Tftp.tftpServerPort →
    offset * 2 + 4 ≤ nBytes

-- What is passed to the application that waits for the port.
def passed (port : Nat) (length : Int) : Nat :=
  match (List.range h.udp.nAppUDP).find? fun i => port = (h.udp.appUDP i).portNr with
  | none => 0
  | some i =>
    match h.udp.asking (h.udp.appUDP i).channel with
    | none => 0
    | some (_, maxBytes) => min (length % 4294967296).toNat maxBytes

structure UdpFits (srcIP dstIP : Word) (offset : Nat) : Prop where
  header : offset * 2 + 6 ≤ nBytes
  length : offset * 2 + udpLength mem offset ≤ nBytes
  dhcp : UdpValid mem srcIP dstIP offset → IsDhcp cfg mem offset →
    DhcpFits cfg h nBytes mem (offset + 4) (udpLength mem offset - 8)
  tftp : UdpValid mem srcIP dstIP offset → ¬IsDhcp cfg mem offset → IsTftp cfg h mem offset →
    TftpFits h nBytes (remotePort mem offset) (offset + 4)
  reader : UdpValid mem srcIP dstIP offset → ¬IsDhcp cfg mem offset → ¬IsTftp cfg h mem offset →
    0 < passed h (localPort mem offset) (udpLength mem offset - 8) →
    offset * 2 + 8 + passed h (localPort mem offset) (udpLength mem offset - 8) ≤ nBytes

structure Ipv4Fits (offset : Nat) : Prop where
  fixed : offset * 2 + 20 ≤ nBytes
  header : 0 < headerLength mem offset → offset * 2 + headerLength mem offset * 4 ≤ nBytes
  length : Accepted h mem offset → offset * 2 + totalLength mem offset ≤ nBytes
  tcp : Accepted h mem offset → IsTcp cfg mem offset → contentOffset mem offset * 2 + 18 ≤ nBytes ∧
    contentOffset mem offset * 2 + dataOffset mem (contentOffset mem offset) * 4 ≤ nBytes
  udp : Accepted h mem offset → IsUdp cfg mem offset →
    UdpFits cfg h nBytes mem (srcIP mem offset) (dstIP mem offset) (contentOffset mem offset)
  icmp : Accepted h mem offset → IsIcmp cfg mem offset → contentOffset mem offset * 2 < nBytes ∧
    (h.address.myIP ≠ 0 ∧ mem (contentOffset mem offset * 2) = 8 → 0 < dataLength mem offset →
      34 + dataLength mem offset ≤ nBytes)

-- The frame has v tags, and holds what the handlers of its type look at.
structure Fits : Prop where
  frame : ∃ v, Tagged mem 6 v ∧ 14 + 2 * v ≤ nBytes ∧
    (cfg.ipv4 = true ∧ load mem (2 * (6 + v)) = 0x0008 → Ipv4Fits cfg h nBytes mem (7 + v)) ∧
    (cfg.arp = true ∧ load mem (2 * (6 + v)) = 0x0608 → 42 + 2 * v ≤ nBytes)

end Condition

section Extents

variable {cfg : Config} {h : Host n m} {nBytes : Nat} {mem : Bytes}

theorem within_onesChecksum (sum : Word) (start length : Nat) :
    Within nBytes mem (onesChecksum sum start length) ↔
      (0 < length → start * 2 + length ≤ nBytes) := by
  simp only [onesChecksum, within_bind, within_each, within_short, within_byte, within_pure,
    and_true]
  constructor
  · rintro ⟨hwords, hlast⟩ hpos
    by_cases hodd : length % 2 = 1
    · have hbyte := hlast 0 (by omega)
      omega
    · have hword := hwords (length / 2 - 1) (by omega)
      omega
  · intro hfits
    exact ⟨fun j hj => by have := hfits (by omega); omega,
      fun j hj => by have := hfits (by omega); omega⟩

theorem forall_lt_iff (k start : Nat) :
    (∀ j < k, start + j < nBytes) ↔ (0 < k → start + k ≤ nBytes) := by
  constructor
  · intro hall hpos
    have hlast := hall (k - 1) (by omega)
    omega
  · intro hfits j hj
    have hle := hfits (by omega)
    omega

theorem optionsFit_iff (stop : Int) (fuel i : Nat) : OptionsFit cfg nBytes mem stop fuel i ↔
    Within nBytes mem (scanOptions cfg stop fuel i) ∧ ¬OptionsBeyond nBytes mem stop fuel i := by
  induction fuel generalizing i with
  | zero => simp [OptionsFit, scanOptions, OptionsBeyond]
  | succ fuel ih =>
    simp only [OptionsFit, scanOptions, OptionsBeyond, within_ite, within_bind, within_byte,
      within_each, within_pure, ih]
    simp only [value_byte, forall_lt_iff]
    by_cases hstop : (i : Int) < stop
    · by_cases hend : mem i = 255
      · simp [hstop, hend]
      · simp only [hstop, hend, forall_const, not_true_eq_false, not_false_eq_true, true_and,
          false_implies, and_true, ne_eq, not_or, Nat.not_lt]
        constructor
        · rintro ⟨hi, hwidth, hlength, hscan, hbeyond⟩
          exact ⟨⟨hi, fun _ => hwidth, by omega, hscan⟩, hlength, hbeyond⟩
        · rintro ⟨⟨hi, hwidth, hnext, hscan⟩, hlength, hbeyond⟩
          refine ⟨hi, ?_, hlength, hscan, hbeyond⟩
          by_cases hzero : optionWidth cfg (mem i) = 0
          · omega
          · exact hwidth (by omega)
    · simp [hstop]

theorem dhcpFits_iff (offset : Nat) (length : Int) : DhcpFits cfg h nBytes mem offset length ↔
    Within nBytes mem (pipIncomingDHCP cfg h offset length) ∧
      ¬DhcpBeyond h nBytes mem offset length := by
  simp only [pipIncomingDHCP, within_ite, within_bind, within_short, within_int, within_pure,
    DhcpBeyond, Address.Answers]
  simp only [value_short, ne_eq, Decidable.not_not, implies_true, true_and, and_true]
  constructor
  · rintro ⟨hfirst, hsecond, hoptions⟩
    refine ⟨⟨by omega, fun hcookie => ?_⟩, ?_⟩
    · have hend := hsecond hcookie
      refine ⟨by omega, fun hcookie' => ⟨by omega, by omega, fun hxid => ⟨by omega, ?_⟩⟩⟩
      exact ((optionsFit_iff _ _ _).mp (hoptions ⟨hcookie, hcookie', hxid⟩)).1
    · rintro ⟨hanswers, hbeyond⟩
      exact ((optionsFit_iff _ _ _).mp (hoptions hanswers)).2 hbeyond
  · rintro ⟨⟨hfirst, hrest⟩, hbeyond⟩
    refine ⟨by omega, fun hcookie => by have := (hrest hcookie).1; omega, fun hanswers => ?_⟩
    obtain ⟨hcookie, hcookie', hxid⟩ := hanswers
    have hscan := ((hrest hcookie).2 hcookie').2.2 hxid
    exact (optionsFit_iff _ _ _).mpr ⟨hscan.2, fun hb => hbeyond ⟨⟨hcookie, hcookie', hxid⟩, hb⟩⟩

theorem tftpFits_iff (srcPort offset : Nat) {length : Int}
    (hlength : offset * 2 + length ≤ nBytes) :
    TftpFits h nBytes srcPort offset ↔
      Within nBytes mem (pipIncomingTFTP h srcPort offset length) := by
  simp only [pipIncomingTFTP, within_ite, within_bind, within_short, within_each, within_byte,
    within_pure, and_true, implies_true]
  constructor
  · rintro ⟨hopcode, hblock⟩
    refine ⟨by omega, trivial, fun hsource => ?_⟩
    have hend := hblock (by tauto)
    exact ⟨by omega, fun _ j hj => by omega⟩
  · rintro ⟨hopcode, -, hrest⟩
    refine ⟨by omega, fun hsource => ?_⟩
    have hend := (hrest (by tauto)).1
    omega

theorem within_serve (port offset : Nat) (length : Int) :
    Within nBytes mem (serveUDPChannels h port offset length) ↔
      (0 < passed h port length → offset * 2 + passed h port length ≤ nBytes) := by
  unfold serveUDPChannels
  split
  next hfind => simp [passed, hfind]
  next i hfind =>
    split
    next hasking => simp [passed, hfind, hasking]
    next hasking =>
      simp only [within_bind, within_each, within_byte, within_pure, and_true, forall_lt_iff,
        passed, hfind, hasking]

theorem within_udp (srcIP dstIP : Word) (offset : Nat) :
    Within nBytes mem (pipIncomingUDP cfg h offset srcIP dstIP) ↔ offset * 2 + 6 ≤ nBytes ∧
      (0 < udpLength mem offset → offset * 2 + udpLength mem offset ≤ nBytes) ∧
      (UdpValid mem srcIP dstIP offset →
        (IsDhcp cfg mem offset → Within nBytes mem
          (pipIncomingDHCP cfg h (offset + 4) (udpLength mem offset - 8))) ∧
        (¬IsDhcp cfg mem offset → (IsTftp cfg h mem offset → Within nBytes mem
          (pipIncomingTFTP h (remotePort mem offset) (offset + 4) (udpLength mem offset - 8))) ∧
          (¬IsTftp cfg h mem offset → Within nBytes mem (serveUDPChannels h (localPort mem offset)
            (offset + 4) (udpLength mem offset - 8))))) := by
  simp only [pipIncomingUDP, within_ite, within_bind, within_short, within_pure,
    within_onesChecksum]
  simp only [value_short, ne_eq, Decidable.not_not, implies_true, true_and]
  constructor
  · rintro ⟨-, -, hheader, hsum, hrest⟩
    exact ⟨by omega, hsum, hrest⟩
  · rintro ⟨hheader, hsum, hrest⟩
    exact ⟨by omega, by omega, by omega, hsum, hrest⟩

theorem udpFits_iff (srcIP dstIP : Word) (offset : Nat) :
    UdpFits cfg h nBytes mem srcIP dstIP offset ↔
      Within nBytes mem (pipIncomingUDP cfg h offset srcIP dstIP) ∧
        offset * 2 + udpLength mem offset ≤ nBytes ∧
        ¬(UdpValid mem srcIP dstIP offset ∧ IsDhcp cfg mem offset ∧
          DhcpBeyond h nBytes mem (offset + 4) (udpLength mem offset - 8)) := by
  have hpassed : (offset + 4) * 2 = offset * 2 + 8 := by omega
  rw [within_udp, within_serve, hpassed]
  constructor
  · rintro ⟨hheader, hlength, hdhcp, htftp, hreader⟩
    refine ⟨⟨hheader, fun _ => hlength, fun hvalid => ⟨fun hport => ?_, fun hport =>
      ⟨fun hport' => ?_, hreader hvalid hport⟩⟩⟩, hlength, ?_⟩
    · exact ((dhcpFits_iff _ _).mp (hdhcp hvalid hport)).1
    · exact (tftpFits_iff _ _ (by omega)).mp (htftp hvalid hport hport')
    · rintro ⟨hvalid, hport, hbeyond⟩
      exact ((dhcpFits_iff _ _).mp (hdhcp hvalid hport)).2 hbeyond
  · rintro ⟨⟨hheader, -, hrest⟩, hlength, hbeyond⟩
    refine ⟨hheader, hlength, fun hvalid hport => ?_, fun hvalid hport hport' => ?_,
      fun hvalid hport hport' => ((hrest hvalid).2 hport).2 hport'⟩
    · exact (dhcpFits_iff _ _).mpr ⟨(hrest hvalid).1 hport, fun hb => hbeyond ⟨hvalid, hport, hb⟩⟩
    · exact (tftpFits_iff _ _ (by omega)).mpr (((hrest hvalid).2 hport).1 hport')

theorem within_icmp (offset : Nat) (srcIP : Word) (length : Int) :
    Within nBytes mem (pipIncomingICMP h offset srcIP length) ↔ offset * 2 < nBytes ∧
      (h.address.myIP ≠ 0 ∧ mem (offset * 2) = 8 → 0 < length → 34 + length ≤ nBytes) := by
  simp only [pipIncomingICMP, within_ite, within_bind, within_byte, within_each, within_pure,
    forall_lt_iff]
  simp only [value_byte, implies_true, and_true]
  refine and_congr_right fun _ => imp_congr_right fun _ => ?_
  omega

theorem taken_lt {c : Tcp.Config} {seg : Tcp.Segment} {i : Nat} (hi : i ∈ taken h c seg) :
    (i : Int) < seg.length := by
  unfold taken at hi
  split at hi
  next s hs =>
    obtain ⟨x, hx, hi⟩ := List.mem_flatMap.mp hi
    obtain ⟨new, hlog, hnew⟩ := Tcp.pipIncomingTCP_sized hs
    rw [hlog, List.drop_left] at hx
    have hsized := hnew x hx
    cases x with
    | stored seq data =>
      have hlt : i < data.length := List.mem_range.mp hi
      have hle : data.length ≤ seg.length.toNat := hsized
      omega
    | _ => cases hi
  next => cases hi

theorem within_tcp (c : Tcp.Config) (offset : Nat) (srcIP dstIP : Word) {length : Int}
    (hlength : offset * 2 + length ≤ nBytes) :
    Within nBytes mem (pipIncomingTCP h c offset srcIP dstIP length) ↔
      offset * 2 + 18 ≤ nBytes := by
  simp only [pipIncomingTCP, within_bind, within_each, within_short]
  constructor
  · rintro ⟨-, -, hwindow, -⟩
    omega
  · intro hheader
    refine ⟨fun i hi => by omega, by omega, by omega, fun i hi => ?_⟩
    obtain ⟨j, hj, rfl⟩ := List.mem_map.mp hi
    have hlt := taken_lt hj
    simp only [value_short, tcpSegment] at hlt ⊢
    omega

theorem within_dispatch (contentOffset offset : Nat) (srcIP dstIP : Word) {length : Int}
    (hlength : contentOffset * 2 + length ≤ nBytes) :
    Within nBytes mem (dispatch cfg h (mem (offset * 2 + 9)) contentOffset srcIP dstIP length) ↔
      (IsTcp cfg mem offset → contentOffset * 2 + 18 ≤ nBytes) ∧
      (IsUdp cfg mem offset →
        Within nBytes mem (pipIncomingUDP cfg h contentOffset srcIP dstIP)) ∧
      (IsIcmp cfg mem offset →
        Within nBytes mem (pipIncomingICMP h contentOffset srcIP length)) := by
  have hothers (hne : ¬IsTcp cfg mem offset) : Within nBytes mem
      (dispatch.others cfg h (mem (offset * 2 + 9)) contentOffset srcIP dstIP length) ↔
      (IsTcp cfg mem offset → contentOffset * 2 + 18 ≤ nBytes) ∧
      (IsUdp cfg mem offset →
        Within nBytes mem (pipIncomingUDP cfg h contentOffset srcIP dstIP)) ∧
      (IsIcmp cfg mem offset →
        Within nBytes mem (pipIncomingICMP h contentOffset srcIP length)) := by
    have hexcl (hudp : IsUdp cfg mem offset) : ¬IsIcmp cfg mem offset :=
      fun hicmp => absurd (hudp.2.symm.trans hicmp.2) (by decide)
    simp only [dispatch.others, within_ite, within_pure, hne]
    change ((IsUdp cfg mem offset → _) ∧ (¬IsUdp cfg mem offset →
      (IsIcmp cfg mem offset → _) ∧ _)) ↔ _
    tauto
  unfold dispatch
  split
  next c hc =>
    by_cases htype : mem (offset * 2 + 9) = 6
    · have hudp : ¬IsUdp cfg mem offset := fun hudp => absurd (htype.symm.trans hudp.2) (by decide)
      have hicmp : ¬IsIcmp cfg mem offset :=
        fun hicmp => absurd (htype.symm.trans hicmp.2) (by decide)
      simp [htype, hudp, hicmp, IsTcp, hc, within_tcp c contentOffset srcIP dstIP hlength]
    · rw [if_neg htype]
      exact hothers fun htcp => htype htcp.2
  next hc =>
    exact hothers fun htcp => by simp [IsTcp, hc] at htcp

theorem value_ipv4 (offset : Nat) :
    (pipIncomingIPv4 cfg h offset).value mem = [] ↔ ¬Accepted h mem offset := by
  simp -implicitDefEqProofs only [pipIncomingIPv4, value_bind, value_ite, value_pure]
  rw [ite_eq_left_iff, ite_eq_left_iff, imp_iff_not (List.cons_ne_nil _ _), Bool.not_eq_true,
    ← not_and, not_not]
  simp only [value_byte, value_int, Accepted, headerLength, dstIP]

theorem within_ipv4 (offset : Nat) : Within nBytes mem (pipIncomingIPv4 cfg h offset) ↔
    offset * 2 + 20 ≤ nBytes ∧
      (0 < headerLength mem offset → offset * 2 + headerLength mem offset * 4 ≤ nBytes) ∧
      (Accepted h mem offset → Within nBytes mem (dispatch cfg h (mem (offset * 2 + 9))
        (contentOffset mem offset) (srcIP mem offset) (dstIP mem offset)
        (dataLength mem offset))) := by
  simp only [pipIncomingIPv4, macCopy, within_ite, within_bind, within_short, within_int,
    within_byte, within_each, within_pure, within_onesChecksum]
  simp only [value_byte, value_short, value_int, ne_eq, Decidable.not_not, implies_true, true_and,
    and_true, Bool.not_eq_true, headerLength]
  constructor
  · rintro ⟨-, -, -, -, hdst, hsum, hrest⟩
    refine ⟨by omega, fun hpos => hsum (by omega), fun haccepted => ?_⟩
    exact (hrest haccepted.1 haccepted.2).2
  · rintro ⟨hfixed, hheader, hrest⟩
    refine ⟨by omega, by omega, by omega, by omega, by omega, fun hpos => hheader (by omega), ?_⟩
    exact fun hsum hforeign => ⟨fun j hj => by omega, hrest ⟨hsum, hforeign⟩⟩

theorem ipv4Fits_iff (offset : Nat) : Ipv4Fits cfg h nBytes mem offset ↔
    Within nBytes mem (pipIncomingIPv4 cfg h offset) ∧
      (Oversized cfg h nBytes mem offset → (pipIncomingIPv4 cfg h offset).value mem = []) := by
  have hcontent : contentOffset mem offset * 2 = offset * 2 + headerLength mem offset * 4 := by
    unfold contentOffset
    omega
  rw [value_ipv4, within_ipv4]
  constructor
  · rintro ⟨hfixed, hheader, hlength, htcp, hudp, hicmp⟩
    refine ⟨⟨hfixed, hheader, fun haccepted => ?_⟩, fun hover haccepted => ?_⟩
    · have htotal := hlength haccepted
      rw [within_dispatch _ _ _ _ (by unfold dataLength; omega)]
      refine ⟨fun h => (htcp haccepted h).1, fun h => ((udpFits_iff _ _ _).mp (hudp haccepted h)).1,
        fun h => (within_icmp _ _ _).mpr (hicmp haccepted h)⟩
    · have htotal := hlength haccepted
      obtain hover | hover | ⟨htype, hover⟩ | ⟨htype, hover⟩ | ⟨hvalid, hport, hbeyond⟩ := hover
      · omega
      · omega
      · have hdata := (htcp haccepted htype).2
        omega
      · have hdata := (hudp haccepted htype).length
        omega
      · exact ((udpFits_iff _ _ _).mp (hudp haccepted hvalid.udp)).2.2
          ⟨hvalid.valid, hport, hbeyond⟩
  · rintro ⟨⟨hfixed, hheader, hrest⟩, hdrop⟩
    have hfits (haccepted : Accepted h mem offset) : ¬Oversized cfg h nBytes mem offset :=
      fun hover => hdrop hover haccepted
    simp only [Oversized, not_or, not_and, Nat.not_lt] at hfits
    have hinner (haccepted : Accepted h mem offset) := (within_dispatch (contentOffset mem offset)
      offset (srcIP mem offset) (dstIP mem offset) (by
        have htotal := (hfits haccepted).2.1
        unfold dataLength
        omega)).mp (hrest haccepted)
    refine ⟨hfixed, hheader, fun haccepted => (hfits haccepted).2.1,
      fun haccepted htype => ⟨(hinner haccepted).1 htype, (hfits haccepted).2.2.1 htype⟩,
      fun haccepted htype => (udpFits_iff _ _ _).mpr ⟨(hinner haccepted).2.1 htype,
        (hfits haccepted).2.2.2.1 htype, ?_⟩,
      fun haccepted htype => (within_icmp _ _ _).mp ((hinner haccepted).2.2 htype)⟩
    rintro ⟨hvalid, hport, hbeyond⟩
    exact (hfits haccepted).2.2.2.2 ⟨htype, hvalid⟩ hport hbeyond

theorem within_arp (offset : Nat) :
    Within nBytes mem (pipIncomingARP cfg h offset) ↔ offset * 2 + 28 ≤ nBytes := by
  simp only [pipIncomingARP, macCopy, within_ite, within_bind, within_short, within_int,
    within_byte, within_each, within_pure]
  constructor
  · rintro ⟨-, htpa, -⟩
    omega
  · intro hfits
    refine ⟨by omega, by omega, by omega, ?_⟩
    simp only [implies_true, true_and, and_true]
    exact ⟨fun _ _ _ j hj => by omega, fun _ _ _ j hj => by omega⟩

theorem etherType_tagged {fuel offset v : Nat} (htagged : Tagged mem offset v) (hv : v < fuel) :
    (etherType fuel offset).value mem = some (load mem (2 * (offset + v)), offset + v + 1) ∧
      (Within nBytes mem (etherType fuel offset) ↔ 2 * (offset + v) + 2 ≤ nBytes) := by
  induction fuel generalizing offset v with
  | zero => omega
  | succ fuel ih =>
    cases v with
    | zero =>
      have htype : (short offset).value mem ≠ 0x0081 := htagged.type
      simp only [etherType, value_bind, within_bind, if_neg htype, value_pure, within_pure,
        within_short, and_true]
      exact ⟨rfl, by omega⟩
    | succ v =>
      have htag : (short offset).value mem = 0x0081 := htagged.tags 0 (by omega)
      have hrest : Tagged mem (offset + 1) v := by
        refine ⟨fun k hk => ?_, ?_⟩
        · have hnext := htagged.tags (k + 1) (by omega)
          rwa [← Nat.add_assoc, Nat.add_right_comm] at hnext
        · have hlast := htagged.type
          rwa [← Nat.add_assoc, Nat.add_right_comm] at hlast
      obtain ⟨hvalue, hwithin⟩ := ih hrest (by omega)
      simp only [etherType, value_bind, within_bind, if_pos htag, hvalue, hwithin, within_short]
      rw [← Nat.add_assoc, Nat.add_right_comm]
      exact ⟨rfl, by omega⟩

theorem within_tags {fuel offset : Nat} (htags : ∀ k < fuel, load mem (2 * (offset + k)) = 0x0081)
    (hwithin : Within nBytes mem (etherType fuel offset)) (hpos : 0 < fuel) :
    2 * (offset + fuel) ≤ nBytes := by
  induction fuel generalizing offset with
  | zero => omega
  | succ fuel ih =>
    have htag : (short offset).value mem = 0x0081 := htags 0 (by omega)
    simp only [etherType, within_bind, if_pos htag, within_short] at hwithin
    cases fuel with
    | zero => omega
    | succ fuel =>
      have hrest : 2 * (offset + 1 + (fuel + 1)) ≤ nBytes := by
        refine ih (fun k hk => ?_) hwithin.2 (by omega)
        have hnext := htags (k + 1) (by omega)
        rwa [← Nat.add_assoc, Nat.add_right_comm] at hnext
      omega

theorem tagged_or (fuel offset : Nat) : (∃ v < fuel, Tagged mem offset v) ∨
    ∀ k < fuel, load mem (2 * (offset + k)) = 0x0081 := by
  by_cases hex : ∃ v, v < fuel ∧ load mem (2 * (offset + v)) ≠ 0x0081
  · obtain ⟨hlt, htype⟩ := Nat.find_spec hex
    refine Or.inl ⟨Nat.find hex, hlt, fun k hk => ?_, htype⟩
    by_contra htag
    exact Nat.find_min hex hk ⟨hk.trans hlt, htag⟩
  · exact Or.inr fun k hk => by_contra fun htag => hex ⟨k, hk, htag⟩

theorem Tagged.unique {offset v w : Nat} (hv : Tagged mem offset v) (hw : Tagged mem offset w) :
    v = w := by
  rcases Nat.lt_trichotomy v w with hlt | heq | hlt
  · exact absurd (hw.tags v hlt) hv.type
  · exact heq
  · exact absurd (hv.tags w hlt) hw.type

theorem within_ethernet {v : Nat} (htagged : Tagged mem 6 v) (hv : v < nBytes + 1) :
    Within nBytes mem (pipIncomingEthernet cfg h nBytes) ↔ 14 + 2 * v ≤ nBytes ∧
      (cfg.ipv4 = true ∧ load mem (2 * (6 + v)) = 0x0008 →
        Within nBytes mem (pipIncomingIPv4 cfg h (7 + v))) ∧
      (cfg.arp = true ∧ load mem (2 * (6 + v)) = 0x0608 → 42 + 2 * v ≤ nBytes) := by
  obtain ⟨hvalue, hwithin⟩ : _ ∧ (Within nBytes mem (etherType (nBytes + 1) 6) ↔ _) :=
    etherType_tagged htagged hv
  have hoffset : 6 + v + 1 = 7 + v := by omega
  have hexcl (h4 : cfg.ipv4 = true ∧ load mem (2 * (6 + v)) = 0x0008) :
      ¬(cfg.arp = true ∧ load mem (2 * (6 + v)) = 0x0608) :=
    fun harp => absurd (h4.2.symm.trans harp.2) (by decide)
  have harp : (7 + v) * 2 + 28 ≤ nBytes ↔ 42 + 2 * v ≤ nBytes := by omega
  simp only [pipIncomingEthernet, within_bind, hvalue, hwithin, hoffset, within_ite, within_pure,
    within_arp, harp]
  refine and_congr (by omega) ⟨fun hrest => ⟨hrest.1, fun htype => ?_⟩, fun hrest => ⟨hrest.1,
    fun _ => ⟨hrest.2, fun _ => trivial⟩⟩⟩
  exact (hrest.2 fun h4 => hexcl h4 htype).1 htype

theorem value_ethernet {v : Nat} (htagged : Tagged mem 6 v) (hv : v < nBytes + 1)
    (htype : cfg.ipv4 = true ∧ load mem (2 * (6 + v)) = 0x0008) :
    (pipIncomingEthernet cfg h nBytes).value mem = (pipIncomingIPv4 cfg h (7 + v)).value mem := by
  obtain ⟨hvalue, -⟩ : _ ∧ (Within nBytes mem (etherType (nBytes + 1) 6) ↔ _) :=
    etherType_tagged htagged hv
  have hoffset : 6 + v + 1 = 7 + v := by omega
  simp only [pipIncomingEthernet, value_bind, hvalue, hoffset, if_pos htype]

end Extents

theorem receive_bounds_exact (cfg : Config) (h : Host n m) (nBytes : Nat) (mem : Bytes) :
    Bounded cfg h nBytes mem ↔ Fits cfg h nBytes mem := by
  constructor
  · rintro ⟨hreads, hdropped⟩
    rcases tagged_or (nBytes + 1) 6 with ⟨v, hv, htagged⟩ | htags
    · obtain ⟨hframe, hipv4, harp⟩ := (within_ethernet htagged hv).mp hreads
      refine ⟨v, htagged, hframe, fun htype => (ipv4Fits_iff _).mpr ⟨hipv4 htype, fun hover => ?_⟩,
        harp⟩
      rw [← value_ethernet htagged hv htype]
      exact hdropped v htagged htype.1 htype.2 hover
    · have hframe := within_tags htags ((within_bind _ _).mp hreads).1 (by omega)
      omega
  · rintro ⟨v, htagged, hframe, hipv4, harp⟩
    have hv : v < nBytes + 1 := by omega
    refine ⟨(within_ethernet htagged hv).mpr ⟨hframe, fun htype =>
      ((ipv4Fits_iff _).mp (hipv4 htype)).1, harp⟩, fun w hw h4 htype hover => ?_⟩
    obtain rfl := htagged.unique hw
    rw [value_ethernet htagged hv ⟨h4, htype⟩]
    exact ((ipv4Fits_iff _).mp (hipv4 ⟨h4, htype⟩)).2 hover

def echoOnly : Config :=
  ⟨true, true, none, false, true, false, ⟨false, false, false, false, fun _ => 0⟩⟩

def listening : Host 0 1 :=
  ⟨Address.pipAssignIPv4 0xC0A80002 0xFFFFFF00 0 (Address.init echoOnly.address 0), Tftp.init,
    ⟨fun _ => ⟨0, 0⟩, 0, fun _ => none, false, []⟩, .start 0, Tcp.during 0 0⟩

-- Of these 60 bytes the length field says that they are 142.
def ping : List (BitVec 8) :=
  List.replicate 12 0 ++ [8, 0, 0x45, 0, 0, 0x80, 0, 0, 0, 0, 0x40, 1, 0xF9, 0x29,
    0xC0, 0xA8, 0, 1, 0xC0, 0xA8, 0, 2, 8] ++ List.replicate 25 0

theorem long_ping_echoed : ¬∀ (n m : Nat) (cfg : Config) (h : Host n m) (nBytes : Nat)
    (mem : Bytes), Bounded cfg h nBytes mem := by
  intro hall
  have hreads := (hall 0 1 echoOnly listening ping.length fun i => ping.getD i 0).reads
  exact absurd (hreads 141 (by decide +kernel)) (by decide)

end Xtcp.Pip.Frame
