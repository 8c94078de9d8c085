import Xtcp.Igmp.Group
import Xtcp.Uip.Output
import Xtcp.Uip.Process

namespace Xtcp.Uip
open Channel Halfword Igmp OnesSum Xtcp.Segment

-- Where the start of uip_process hands a packet.
inductive Handed where
  | drop
  | tcp
  | udp
  | igmp
  | icmp
  deriving DecidableEq, Repr

def ipaddrAt (buf : Bytes) (a : Nat) : Ipaddr :=
  ⟨UInt8.ofBitVec (buf a), UInt8.ofBitVec (buf (a + 1)), UInt8.ofBitVec (buf (a + 2)),
    UInt8.ofBitVec (buf (a + 3))⟩

def setIpaddr (a : Nat) (ip : Ipaddr) (buf : Bytes) : Bytes :=
  let buf := setByte (a + 1) ip.b1.toBitVec (setByte a ip.b0.toBitVec buf)
  setByte (a + 3) ip.b3.toBitVec (setByte (a + 2) ip.b2.toBitVec buf)

section Input

variable (useIgmp : Bool) (groups : Groups) (hostaddr : Ipaddr)

def ipHeader (buf : Bytes) : Handed :=
  if uipIpchksum buf ≠ 0xffff#16 then .drop
  else if buf 23 = 6 then .tcp
  else if buf 23 = 17 then .udp
  else if useIgmp ∧ buf 23 = 2 then .igmp
  else if buf 23 ≠ 1 then .drop
  else .icmp

-- The build has UIP_BROADCAST and neither UIP_REASSEMBLY nor UIP_PINGADDRCONF.
def ipDest (buf : Bytes) : Handed :=
  let destipaddr := ipaddrAt buf 30
  if hostaddr = zeroIpaddr then ipHeader useIgmp buf
  else if buf 23 = 17 ∧ (destipaddr = ⟨255, 255, 255, 255⟩ ∨ isMulticast destipaddr) then .udp
  else if destipaddr ≠ hostaddr ∧ ¬ (useIgmp ∧ igmpCheckAddr destipaddr groups ≠ 0) then .drop
  else ipHeader useIgmp buf

-- uip_len still counts the Ethernet header.
def ipInput (uipLen : Nat) (buf : Bytes) : Handed × Nat :=
  let len := 256 * (buf 16).toNat + (buf 17).toNat
  if buf 14 ≠ 0x45 then (.drop, 0)
  else if uipLen < len then (.drop, 0)
  else if buf 20 &&& 0x3f ≠ 0 ∨ buf 21 ≠ 0 then (.drop, 0)
  else (ipDest useIgmp groups hostaddr buf, len)

def icmpEcho : BitVec 8 := 8
def icmpEchoReply : BitVec 8 := 0

-- HTONS(0xffff - (ICMP_ECHO << 8)) and HTONS(ICMP_ECHO << 8)
def adjusted (icmpchksum : BitVec 16) : BitVec 16 :=
  if htons16 0xf7ff#16 ≤ icmpchksum then icmpchksum + (htons16 0x0800#16 + 1)
  else icmpchksum + htons16 0x0800#16

def icmpInput (buf : Bytes) : Option Bytes :=
  if buf 34 ≠ icmpEcho then none
  else
    let buf := setByte 34 icmpEchoReply buf
    let buf := store buf 36 (adjusted (load buf 36))
    let buf := setIpaddr 30 (ipaddrAt buf 26) buf
    some (setIpaddr 26 hostaddr buf)

-- What uip_process sends back where it ends in icmp_input.
def pingAnswer (uipLen : Nat) (buf : Bytes) : Option (Bytes × Nat) :=
  let q := ipInput useIgmp groups hostaddr uipLen buf
  if q.1 = .icmp then (icmpInput hostaddr buf).map fun reply => (reply, q.2) else none

end Input

section Bytes

variable {a x : Nat} {ip : Ipaddr} {buf : Bytes}

theorem setIpaddr_other (h : x < a ∨ a + 4 ≤ x) : setIpaddr a ip buf x = buf x := by
  rw [setIpaddr]
  rw [setByte_other _ _ (by omega), setByte_other _ _ (by omega), setByte_other _ _ (by omega),
    setByte_other _ _ (by omega)]

theorem setIpaddr_bytes (a : Nat) (ip : Ipaddr) (buf : Bytes) :
    setIpaddr a ip buf a = ip.b0.toBitVec ∧ setIpaddr a ip buf (a + 1) = ip.b1.toBitVec ∧
      setIpaddr a ip buf (a + 2) = ip.b2.toBitVec ∧
      setIpaddr a ip buf (a + 3) = ip.b3.toBitVec := by
  refine ⟨?_, ?_, ?_, ?_⟩ <;> simp [setIpaddr, setByte]

theorem ipaddrAt_setIpaddr (a : Nat) (ip : Ipaddr) (buf : Bytes) :
    ipaddrAt (setIpaddr a ip buf) a = ip := by
  obtain ⟨h0, h1, h2, h3⟩ := setIpaddr_bytes a ip buf
  rw [ipaddrAt, h0, h1, h2, h3]

theorem ipaddrAt_congr {buf' : Bytes} (h : ∀ k < 4, buf' (a + k) = buf (x + k)) :
    ipaddrAt buf' a = ipaddrAt buf x := by
  rw [ipaddrAt, ipaddrAt, h 1 (by decide), h 2 (by decide), h 3 (by decide)]
  exact congrArg (fun b => Ipaddr.mk (UInt8.ofBitVec b) _ _ _) (h 0 (by decide))

theorem words_sum_eq_zero (bs : List (BitVec 8)) : (words bs).sum = 0 ↔ ∀ b ∈ bs, b = 0 := by
  have hzero (b : BitVec 8) : b.toNat = 0 ↔ b = 0 := by
    rw [← BitVec.toNat_inj]
    rfl
  fun_induction words bs with
  | case1 => simp
  | case2 b => simp [hzero]
  | case3 b c bs ih =>
    rw [List.sum_cons, List.forall_mem_cons, List.forall_mem_cons, ← hzero b, ← hzero c]
    have hrest := ih
    constructor
    · intro h
      exact ⟨by omega, by omega, hrest.mp (by omega)⟩
    · rintro ⟨hb, hc, hbs⟩
      rw [hb, hc, hrest.mpr hbs]

end Bytes

section Sums

def addrSum (ip : Ipaddr) : Nat :=
  256 * ip.b0.toNat + ip.b1.toNat + (256 * ip.b2.toNat + ip.b3.toNat)

theorem addrSum_src (buf : Bytes) : addrSum (ipaddrAt buf 26) = be buf 26 + be buf 28 := rfl

theorem addrSum_dest (buf : Bytes) : addrSum (ipaddrAt buf 30) = be buf 30 + be buf 32 := rfl

theorem ipSum_eq (buf : Bytes) : ipSum buf = be buf 14 + be buf 16 + be buf 18 + be buf 20 +
    be buf 22 + be buf 24 + be buf 26 + be buf 28 + be buf 30 + be buf 32 := by
  rw [ipSum, sum_words_slice]
  simp [Finset.sum_range_succ]

theorem fold_full (n : Nat) : fold 65535 n = 65535 ↔ n ≠ 0 ∧ n % 65535 = 0 := by
  rw [fold]
  split_ifs with h
  · exact iff_of_false (by decide) fun hn => hn.1 h
  · have hdiv := Nat.div_add_mod (n - 1) 65535
    have hlt := Nat.mod_lt (n - 1) (show 0 < 65535 by decide)
    constructor <;> omega

theorem check_full (n : Nat) : check 65535 n = 65535 ↔ n % 65535 = 0 := by
  have h := fold_full n
  rw [check]
  split_ifs with hz
  · have hn := fold_eq_zero_iff.mp hz
    omega
  · have hn := fold_eq_zero_iff.not.mp hz
    omega

theorem adjusted_eq (c : BitVec 16) : (htons16 (adjusted c)).toNat < 65535 ∧
    ((htons16 (adjusted c)).toNat = (htons16 c).toNat + 2048 ∨
      (htons16 (adjusted c)).toNat + 65535 = (htons16 c).toNat + 2048) := by
  have hc := c.isLt
  have hadjusted : (adjusted c).toNat =
      if 65527 ≤ c.toNat then c.toNat + 9 - 65536 else c.toNat + 8 := by
    have hle : htons16 0xf7ff#16 ≤ c ↔ 65527 ≤ c.toNat := Iff.rfl
    by_cases h : 65527 ≤ c.toNat
    · rw [adjusted, if_pos (hle.mpr h), if_pos h]
      change (c.toNat + 9) % 65536 = _
      omega
    · rw [adjusted, if_neg (hle.not.mpr h), if_neg h]
      change (c.toNat + 8) % 65536 = _
      omega
  rw [toNat_htons16, toNat_htons16, hadjusted]
  split_ifs <;> omega

end Sums

section Reply

variable {useIgmp : Bool} {groups : Groups} {hostaddr : Ipaddr} {buf reply : Bytes}
  {uipLen len : Nat}

def icmpSum (len : Nat) (buf : Bytes) : Nat := (words (slice buf 34 (len - 20))).sum

-- The code, the identifier, the sequence number and the data are zero.
def Blank (len : Nat) (buf : Bytes) : Prop :=
  buf 35 = 0 ∧ ∀ b ∈ slice buf 38 (len - 24), b = 0

theorem icmpInput_some (h : icmpInput hostaddr buf = some reply) : buf 34 = icmpEcho ∧
    reply = setIpaddr 26 hostaddr (setIpaddr 30
      (ipaddrAt (store (setByte 34 icmpEchoReply buf) 36 (adjusted (load buf 36))) 26)
      (store (setByte 34 icmpEchoReply buf) 36 (adjusted (load buf 36)))) := by
  have hload : load (setByte 34 icmpEchoReply buf) 36 = load buf 36 := by
    rw [load, load, setByte_other _ _ (by decide), setByte_other _ _ (by decide)]
  rw [icmpInput] at h
  split_ifs at h with htype
  dsimp only at h
  rw [hload] at h
  exact ⟨not_not.mp htype, (Option.some.inj h).symm⟩

-- What the answer is, byte by byte.
structure Echoed (hostaddr : Ipaddr) (buf reply : Bytes) : Prop where
  type : buf 34 = icmpEcho ∧ reply 34 = icmpEchoReply
  chksum : load reply 36 = adjusted (load buf 36)
  src : ipaddrAt reply 26 = hostaddr
  dest : ipaddrAt reply 30 = ipaddrAt buf 26
  other : ∀ x, x < 26 ∨ x = 35 ∨ 38 ≤ x → reply x = buf x

theorem echoed (h : icmpInput hostaddr buf = some reply) : Echoed hostaddr buf reply := by
  obtain ⟨htype, rfl⟩ := icmpInput_some h
  refine ⟨⟨htype, ?_⟩, ?_, ipaddrAt_setIpaddr _ _ _, ?_, fun x hx => ?_⟩
  · rw [setIpaddr_other (by decide), setIpaddr_other (by decide), store_other _ (by decide)]
    rfl
  · rw [load, setIpaddr_other (by decide), setIpaddr_other (by decide),
      setIpaddr_other (by decide), setIpaddr_other (by decide)]
    exact load_store_same _ _ _
  · rw [ipaddrAt_congr fun k hk => setIpaddr_other (by omega), ipaddrAt_setIpaddr]
    refine ipaddrAt_congr fun k hk => ?_
    rw [store_other _ (by omega), setByte_other _ _ (by omega)]
  · rw [setIpaddr_other (by omega), setIpaddr_other (by omega), store_other _ (by omega),
      setByte_other _ _ (by omega)]

theorem Echoed.ipSum (h : Echoed hostaddr buf reply) :
    ipSum reply + addrSum (ipaddrAt buf 30) = ipSum buf + addrSum hostaddr := by
  have hsame (a : Nat) (ha : a + 1 < 26) : be reply a = be buf a := by
    rw [be, be, h.other a (by omega), h.other (a + 1) (by omega)]
  have hsrc := congrArg addrSum h.src
  have hdest := congrArg addrSum h.dest
  rw [addrSum_src] at hsrc
  rw [addrSum_dest, addrSum_src] at hdest
  rw [ipSum_eq, ipSum_eq, addrSum_dest, hsame 14 (by decide), hsame 16 (by decide),
    hsame 18 (by decide), hsame 20 (by decide), hsame 22 (by decide), hsame 24 (by decide)]
  omega

theorem icmpSum_eq (hlen : 24 ≤ len) (buf : Bytes) : icmpSum len buf =
    be buf 34 + (htons16 (load buf 36)).toNat + (words (slice buf 38 (len - 24))).sum := by
  obtain ⟨n, rfl⟩ := Nat.exists_eq_add_of_le' hlen
  have hsplit : slice buf 34 (n + 24 - 20) =
      buf 34 :: buf 35 :: buf 36 :: buf 37 :: slice buf 38 n := by
    rw [show n + 24 - 20 = n + 1 + 1 + 1 + 1 by omega, Memory.slice_cons, Memory.slice_cons,
      Memory.slice_cons, Memory.slice_cons]
  have hword : (htons16 (load buf 36)).toNat = be buf 36 := by
    rw [toNat_htons16, toNat_load, be]
    have h := (buf 36).isLt
    omega
  rw [icmpSum, hsplit, hword, words, words, List.sum_cons, List.sum_cons, Nat.add_sub_cancel,
    ← Nat.add_assoc]
  rfl

theorem Echoed.icmpSum (h : Echoed hostaddr buf reply) (hlen : 24 ≤ len) :
    fold 65535 (icmpSum len reply) = 65535 ↔
      fold 65535 (icmpSum len buf) = 65535 ∧ ¬ Blank len buf := by
  have htail : slice reply 38 (len - 24) = slice buf 38 (len - 24) :=
    slice_congr fun j hj => h.other (38 + j) (by omega)
  have hblank : Blank len buf ↔
      (buf 35).toNat = 0 ∧ (words (slice buf 38 (len - 24))).sum = 0 := by
    rw [words_sum_eq_zero, Blank, ← BitVec.toNat_inj]
    rfl
  have hadjusted := adjusted_eq (load buf 36)
  have hcode := (buf 35).isLt
  rw [fold_full, fold_full, icmpSum_eq hlen, icmpSum_eq hlen, h.chksum, htail, hblank, be, be,
    h.type.1, h.type.2, h.other 35 (by decide)]
  change 256 * 0 + (buf 35).toNat + _ + _ ≠ 0 ∧ (256 * 0 + (buf 35).toNat + _ + _) % 65535 = 0 ↔
    (256 * 8 + (buf 35).toNat + _ + _ ≠ 0 ∧ (256 * 8 + (buf 35).toNat + _ + _) % 65535 = 0) ∧ _
  omega

-- A packet that is answered. With no address yet the host answers for any, and the groups let
-- others through.
structure Pinged (useIgmp : Bool) (groups : Groups) (hostaddr : Ipaddr) (uipLen len : Nat)
    (buf : Bytes) : Prop where
  vhl : buf 14 = 0x45
  len : len = 256 * (buf 16).toNat + (buf 17).toNat ∧ len ≤ uipLen
  whole : buf 20 &&& 0x3f = 0 ∧ buf 21 = 0
  dest : hostaddr = zeroIpaddr ∨ ipaddrAt buf 30 = hostaddr ∨
    (useIgmp ∧ igmpCheckAddr (ipaddrAt buf 30) groups ≠ 0)
  chksum : uipIpchksum buf = 0xffff#16
  proto : buf 23 = 1

theorem ipHeader_icmp (h : ipHeader useIgmp buf = .icmp) :
    uipIpchksum buf = 0xffff#16 ∧ buf 23 = 1 := by
  rw [ipHeader] at h
  split_ifs at h with hsum _ _ _ hproto
  exact ⟨not_not.mp hsum, not_not.mp hproto⟩

theorem pinged (h : ipInput useIgmp groups hostaddr uipLen buf = (.icmp, len)) :
    Pinged useIgmp groups hostaddr uipLen len buf := by
  rw [ipInput] at h
  split_ifs at h with hvhl hlen hfrag
  · exact Handed.noConfusion (congrArg Prod.fst h)
  · exact Handed.noConfusion (congrArg Prod.fst h)
  · exact Handed.noConfusion (congrArg Prod.fst h)
  · obtain ⟨hdest, hlen'⟩ := Prod.mk.inj h
    obtain ⟨hoffset, hoffset'⟩ := not_or.mp hfrag
    have hto : ipHeader useIgmp buf = .icmp ∧ (hostaddr = zeroIpaddr ∨ ipaddrAt buf 30 = hostaddr ∨
        (useIgmp ∧ igmpCheckAddr (ipaddrAt buf 30) groups ≠ 0)) := by
      rw [ipDest] at hdest
      split_ifs at hdest with hzero hbroadcast hother
      · exact ⟨hdest, .inl hzero⟩
      · refine ⟨hdest, .inr (or_iff_not_imp_left.mpr fun hne => ?_)⟩
        exact not_not.mp fun hnot => hother ⟨hne, hnot⟩
    obtain ⟨hsum, hproto⟩ := ipHeader_icmp hto.1
    exact ⟨not_not.mp hvhl, ⟨hlen'.symm, hlen' ▸ Nat.le_of_not_lt hlen⟩,
      ⟨not_not.mp hoffset, not_not.mp hoffset'⟩, hto.2, hsum, hproto⟩

-- The header's sum is kept when the request was for the host's own address. The message's sum is
-- kept unless the message is blank: its checksum then becomes the other zero.
theorem ping_answer
    (h : pingAnswer useIgmp groups hostaddr uipLen buf = some (reply, len)) :
    Pinged useIgmp groups hostaddr uipLen len buf ∧ Echoed hostaddr buf reply ∧
      (uipIpchksum reply = 0xffff#16 ↔
        addrSum hostaddr % 65535 = addrSum (ipaddrAt buf 30) % 65535) ∧
      (24 ≤ len → (fold 65535 (icmpSum len reply) = 65535 ↔
        fold 65535 (icmpSum len buf) = 65535 ∧ ¬ Blank len buf)) ∧
      ∀ useIgmp' groups' hostaddr' uipLen',
        pingAnswer useIgmp' groups' hostaddr' uipLen' reply = none := by
  rw [pingAnswer] at h
  split_ifs at h with hicmp
  obtain ⟨r, hr, heq⟩ := Option.map_eq_some_iff.mp h
  obtain ⟨rfl, hlen⟩ := Prod.mk.inj heq
  have hping := pinged (Prod.ext hicmp hlen)
  have hecho := echoed hr
  refine ⟨hping, hecho, ?_, fun h24 => hecho.icmpSum h24, fun _ _ _ _ => ?_⟩
  · have hsum := hecho.ipSum
    have hbuf : ipSum buf % 65535 = 0 := by
      rw [← check_full, ← ofNat_check_eq_iff, ← uipIpchksum_eq]
      exact hping.chksum
    rw [uipIpchksum_eq, ofNat_check_eq_iff, check_full]
    omega
  · have htype : r 34 ≠ icmpEcho := by
      rw [hecho.type.2]
      decide
    rw [pingAnswer, icmpInput, if_pos htype]
    exact ite_self _

end Reply

section Ping

def pingBuf : Bytes := fun a => [0, 0, 0, 0, 0, 0, 0, 0, 0, 0, 0, 0, 0x08, 0,
  0x45, 0, 0, 28, 0, 0, 0, 0, 64, 1, 0x66, 0xdf, 10, 0, 0, 1, 10, 0, 0, 2,
  8, 0, 0xf7, 0xfd, 0, 1, 0, 1].getD a 0

def pingReply : Bytes := (icmpInput ⟨10, 0, 0, 2⟩ pingBuf).getD pingBuf

theorem ping_answer_small :
    pingAnswer false [] ⟨10, 0, 0, 2⟩ 42 pingBuf = some (pingReply, 28) ∧
      uipIpchksum pingReply = 0xffff#16 := by
  have h : pingAnswer false [] ⟨10, 0, 0, 2⟩ 42 pingBuf = some (pingReply, 28) := by
    have hinput : ipInput false [] ⟨10, 0, 0, 2⟩ 42 pingBuf = (.icmp, 28) := by decide
    rw [pingAnswer, hinput]
    rfl
  exact ⟨h, (ping_answer h).2.2.1.mpr (by decide)⟩

end Ping

end Xtcp.Uip
