import Xtcp.Igmp.Membership
import Xtcp.Uip.Checksum

namespace Xtcp.Igmp
open Channel OnesSum

def ethtypeIp : Nat := 0x0800

def ipBytes (a : Ipaddr) : List UInt8 := [a.b0, a.b1, a.b2, a.b3]

-- A halfword as the processor writes it.
def halfBytes (v : Nat) : List UInt8 := [UInt8.ofNat v, UInt8.ofNat (v / 256)]

structure IgmpFrame where
  dest : MacAddr
  src : MacAddr
  ethtype : Nat
  header : List UInt8
  msg : IgmpMsg
  deriving DecidableEq, Repr

def iphLen : Nat := 20

-- The IP header and its options.
def igmpHeader (ipid : BitVec 16) (ipchksum : Nat) (srcipaddr destipaddr : Ipaddr) : List UInt8 :=
  [0x46, 0, 0, 32, UInt8.ofNat (ipid.toNat / 256), UInt8.ofNat ipid.toNat, 0, 0, 1, 2] ++
    halfBytes ipchksum ++ ipBytes srcipaddr ++ ipBytes destipaddr ++ [0x94, 0x04, 0, 0]

def uipChksum (data : List UInt8) (len : BitVec 16) : BitVec 16 :=
  Uip.htons16 (Uip.chksum 0 (fun i => (data.getD i 0).toBitVec) 0 len)

def complement (checksum : Nat) : Nat := 2 ^ 16 - 1 - checksum % 2 ^ 16

theorem complement_lt (checksum : Nat) : complement checksum < 2 ^ 16 := by
  unfold complement
  omega

-- max_response is zero; the halfwords are added in 16 bits.
def igmpMessage (msgtype : UInt8) (groupAddr : Ipaddr) : IgmpMsg :=
  ⟨msgtype, 0, ⟨complement (msgtype.toNat + half0 groupAddr + half1 groupAddr), complement_lt _⟩,
    groupAddr⟩

-- The two halves of dest_addr are taken apart by shifts and masks.
def destHwaddr (destAddr : Ipaddr) : MacAddr :=
  ⟨0x01, 0x00, 0x5e, UInt8.ofNat (half0 destAddr >>> 8), UInt8.ofNat (half1 destAddr &&& 0xf),
    UInt8.ofNat (half1 destAddr >>> 8)⟩

def createIgmpMsg (ethaddr : MacAddr) (hostaddr : Ipaddr) (ipid : BitVec 16) (msgtype : UInt8)
    (destAddr groupAddr : Ipaddr) : IgmpFrame :=
  let checksum := uipChksum (igmpHeader ipid 0 hostaddr destAddr) (BitVec.ofNat 16 (iphLen + 4))
  let checksum := if checksum = 0 then 0xffff#16 else checksum
  { dest := destHwaddr destAddr
    src := ethaddr
    ethtype := ethtypeIp
    header := igmpHeader ipid (~~~checksum).toNat hostaddr destAddr
    msg := igmpMessage msgtype groupAddr }

section Checksums

def IgmpMsg.bytes (m : IgmpMsg) : List UInt8 :=
  [m.msgtype, m.maxResponse] ++ halfBytes m.checksum.val ++ ipBytes m.addr

-- All ones is the sum of a message with its checksum.
def IgmpMsg.Sums (m : IgmpMsg) : Prop :=
  total 65535 0 (Uip.words (m.bytes.map UInt8.toBitVec)) = 65535

instance (m : IgmpMsg) : Decidable m.Sums := by
  unfold IgmpMsg.Sums
  infer_instance

def IgmpMsg.hostSum (m : IgmpMsg) : Nat :=
  m.msgtype.toNat + 256 * m.maxResponse.toNat + m.checksum.val + half0 m.addr + half1 m.addr

variable {m : IgmpMsg}

theorem fold_eq_iff (n : Nat) : fold 65535 n = 65535 ↔ n ≠ 0 ∧ n % 65535 = 0 := by
  unfold fold
  split <;> omega

theorem swapped_mod (a b : Nat) : (256 * a + b) % 65535 = 0 ↔ (a + 256 * b) % 65535 = 0 := by
  have hab : 256 * (256 * a + b) = a + 256 * b + 65535 * a := by omega
  have hba : 256 * (a + 256 * b) = 256 * a + b + 65535 * b := by omega
  constructor
  · intro h
    have := Nat.mul_mod_right 65535 a
    omega
  · intro h
    have := Nat.mul_mod_right 65535 b
    omega

-- The order of the bytes in a halfword does not matter.
theorem sums_iff : m.Sums ↔ m.hostSum ≠ 0 ∧ m.hostSum % 65535 = 0 := by
  have hw : Uip.words (m.bytes.map UInt8.toBitVec) =
      [256 * m.msgtype.toNat + m.maxResponse.toNat,
        256 * (UInt8.ofNat m.checksum.val).toNat + (UInt8.ofNat (m.checksum.val / 256)).toNat,
        256 * m.addr.b0.toNat + m.addr.b1.toNat, 256 * m.addr.b2.toNat + m.addr.b3.toNat] := rfl
  have hlt := m.checksum.isLt
  rw [IgmpMsg.Sums, total_eq_fold (by decide) (by decide) _ (Uip.words_le _), hw, fold_eq_iff]
  have hbig : [256 * m.msgtype.toNat + m.maxResponse.toNat,
      256 * (UInt8.ofNat m.checksum.val).toNat + (UInt8.ofNat (m.checksum.val / 256)).toNat,
      256 * m.addr.b0.toNat + m.addr.b1.toNat, 256 * m.addr.b2.toNat + m.addr.b3.toNat].sum =
      256 * (m.msgtype.toNat + m.checksum.val % 256 + m.addr.b0.toNat + m.addr.b2.toNat) +
        (m.maxResponse.toNat + m.checksum.val / 256 + m.addr.b1.toNat + m.addr.b3.toNat) := by
    simp only [List.sum_cons, List.sum_nil, UInt8.toNat_ofNat']
    omega
  have hlittle : m.hostSum =
      m.msgtype.toNat + m.checksum.val % 256 + m.addr.b0.toNat + m.addr.b2.toNat +
        256 * (m.maxResponse.toNat + m.checksum.val / 256 + m.addr.b1.toNat + m.addr.b3.toNat) := by
    simp only [IgmpMsg.hostSum, half0, half1]
    omega
  rw [Nat.zero_add, hbig, hlittle, swapped_mod]
  refine and_congr_left fun _ => ?_
  omega

theorem igmpMessage_sums (msgtype : UInt8) (groupAddr : Ipaddr) :
    (igmpMessage msgtype groupAddr).Sums ↔
      msgtype.toNat + half0 groupAddr + half1 groupAddr < 2 ^ 16 := by
  have h := msgtype.toNat_lt
  have h0 := groupAddr.b0.toNat_lt
  have h1 := groupAddr.b1.toNat_lt
  have h2 := groupAddr.b2.toNat_lt
  have h3 := groupAddr.b3.toNat_lt
  rw [sums_iff]
  simp only [IgmpMsg.hostSum, igmpMessage, complement, half0, half1, UInt8.toNat_zero]
  omega

-- What is to become of the groups when a message is accepted.
def acted (clock : Nat → Timer.Word) (m : IgmpMsg) (groups : Groups) : Groups :=
  if m.msgtype = igmpMembershipQuery then groups.mapIdx (queried clock m)
  else if m.msgtype = igmpMembershipReport then groups.map (reported m)
  else groups

def ActsIfSums (m : IgmpMsg) : Prop :=
  ∀ clock groups, igmpIn clock m groups = if m.Sums then acted clock m groups else groups

theorem acted_ne (h : m.msgtype = igmpMembershipQuery ∨ m.msgtype = igmpMembershipReport)
    (clock : Nat → Timer.Word) (timer : Timer.UipTimer) :
    ∃ groups, acted clock m groups ≠ groups := by
  rcases h with h | h
  · refine ⟨[⟨.idleMember, m.addr, false, timer⟩], fun heq => ?_⟩
    simp [acted, h, queried] at heq
  · have hne : igmpMembershipReport ≠ igmpMembershipQuery := by decide
    refine ⟨[⟨.delayedMember, m.addr, false, timer⟩], fun heq => ?_⟩
    simp [acted, h, hne, reported] at heq

theorem actsIfSums_iff (h : m.msgtype = igmpMembershipQuery ∨ m.msgtype = igmpMembershipReport) :
    ActsIfSums m ↔ ¬ m.Sums := by
  constructor
  · intro ha hs
    obtain ⟨groups, hne⟩ := acted_ne h (fun _ => 0) ⟨0, 0⟩
    have := ha (fun _ => 0) groups
    rw [if_pos hs, igmpIn_eq] at this
    exact hne this.symm
  · intro hs clock groups
    rw [if_neg hs, igmpIn_eq]

end Checksums

-- A message is built right where the sum of its halfwords gives no carry, and none is accepted.
theorem igmp_checksums_exact (ethaddr : MacAddr) (hostaddr destAddr groupAddr : Ipaddr)
    (ipid : BitVec 16) (msgtype : UInt8) (m : IgmpMsg)
    (h : m.msgtype = igmpMembershipQuery ∨ m.msgtype = igmpMembershipReport) :
    ((createIgmpMsg ethaddr hostaddr ipid msgtype destAddr groupAddr).msg.Sums ↔
      msgtype.toNat + half0 groupAddr + half1 groupAddr < 2 ^ 16) ∧
    (ActsIfSums m ↔ ¬ m.Sums) ∧
    igmpChecksumValid (createIgmpMsg ethaddr hostaddr ipid msgtype destAddr groupAddr).msg =
      false :=
  ⟨igmpMessage_sums msgtype groupAddr, actsIfSums_iff h, igmpChecksumValid_eq _⟩

def generalQuery : IgmpMsg := igmpMessage igmpMembershipQuery ⟨0, 0, 0, 0⟩

def reportFor (groupAddr : Ipaddr) : IgmpFrame :=
  createIgmpMsg ⟨0, 1, 2, 3, 4, 5⟩ ⟨10, 0, 0, 1⟩ 0 igmpMembershipReport groupAddr groupAddr

theorem igmp_checksums_generalQuery :
    ((reportFor ⟨224, 0, 0, 5⟩).msg.Sums ↔
      igmpMembershipReport.toNat + half0 ⟨224, 0, 0, 5⟩ + half1 ⟨224, 0, 0, 5⟩ < 2 ^ 16) ∧
    (ActsIfSums generalQuery ↔ ¬ generalQuery.Sums) ∧
    igmpChecksumValid (reportFor ⟨224, 0, 0, 5⟩).msg = false :=
  igmp_checksums_exact _ _ _ _ _ _ _ (Or.inl rfl)

-- A report for 239.255.255.250 has a wrong checksum, and a correct general query is not heard.
theorem carry_lost :
    ¬ (reportFor ⟨239, 255, 255, 250⟩).msg.Sums ∧
    generalQuery.msgtype = igmpMembershipQuery ∧ generalQuery.Sums ∧
    igmpChecksumValid generalQuery = false := by
  refine ⟨fun h => ?_, rfl, (igmpMessage_sums _ _).mpr (by decide), by decide⟩
  exact absurd ((igmpMessage_sums _ _).mp h) (by decide)

end Xtcp.Igmp
