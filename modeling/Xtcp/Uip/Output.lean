import Xtcp.Uip.Checksum

namespace Xtcp.Uip
open Halfword OnesSum Xtcp.Segment

def setByte (a : Nat) (v : BitVec 8) (buf : Bytes) : Bytes := Function.update buf a v

def highByte (v : BitVec 16) : BitVec 8 := (v >>> 8).setWidth 8

def lowByte (v : BitVec 16) : BitVec 8 := v.setWidth 8

def setLen (len : BitVec 16) (buf : Bytes) : Bytes :=
  setByte 17 (lowByte len) (setByte 16 (highByte len) buf)

-- Two halves in network order, as an address is copied.
structure Halves where
  first : BitVec 16
  second : BitVec 16

def copyHalves (a : Nat) (h : Halves) (buf : Bytes) : Bytes :=
  store (store buf a h.first) (a + 2) h.second

def ipSendNolen (ipid : BitVec 16) (buf : Bytes) : Bytes :=
  let buf := setByte 14 0x45 buf
  let buf := setByte 15 0 buf
  let buf := setByte 21 0 (setByte 20 0 buf)
  let buf := setByte 18 (highByte (ipid + 1)) buf
  let buf := setByte 19 (lowByte (ipid + 1)) buf
  complemented uipIpchksum 24 buf

structure UdpOut where
  slen : BitVec 16
  ttl : BitVec 8
  lport : BitVec 16
  rport : BitVec 16
  hostaddr : Halves
  ripaddr : Halves
  ipid : BitVec 16

def UdpOut.uipLen (u : UdpOut) : BitVec 16 := u.slen + 28

def udpHeader (u : UdpOut) (buf : Bytes) : Bytes :=
  let buf := setLen u.uipLen buf
  let buf := setByte 22 u.ttl buf
  let buf := setByte 23 17 buf
  let buf := store buf 38 (htons16 (u.slen + 8))
  let buf := store buf 40 0
  let buf := store buf 34 u.lport
  let buf := store buf 36 u.rport
  let buf := copyHalves 26 u.hostaddr buf
  copyHalves 30 u.ripaddr buf

def udpChecksum (buf : Bytes) : Bytes :=
  let buf := store buf 40 (~~~uipUdpchksum buf)
  if load buf 40 = 0 then store buf 40 0xffff#16 else buf

def udpSendBuf (u : UdpOut) (buf : Bytes) : Bytes :=
  ipSendNolen u.ipid (udpChecksum (udpHeader u buf))

-- The packet of a TCP connection or a reset, up to its checksum.
def tcpSendNoconn (uipLen ipid : BitVec 16) (buf : Bytes) : Bytes :=
  let buf := setByte 22 64 buf
  let buf := setLen uipLen buf
  ipSendNolen ipid (setByte 53 0 (setByte 52 0 buf))

structure TcpOut where
  ackno : Halves
  seqno : Halves
  lport : BitVec 16
  rport : BitVec 16
  hostaddr : Halves
  ripaddr : Halves
  wnd : BitVec 16

-- The label tcp_send, up to tcp_send_noconn, where a reset comes in.
def tcpSendHeader (t : TcpOut) (buf : Bytes) : Bytes :=
  let buf := copyHalves 42 t.ackno buf
  let buf := copyHalves 38 t.seqno buf
  let buf := setByte 23 6 buf
  let buf := store buf 34 t.lport
  let buf := store buf 36 t.rport
  let buf := copyHalves 26 t.hostaddr buf
  let buf := copyHalves 30 t.ripaddr buf
  setByte 49 (lowByte t.wnd) (setByte 48 (highByte t.wnd) buf)

-- What uip_arp_out writes before a packet whose destination it knows.
def ethHeader (eth buf : Bytes) : Bytes := fun a => if a < 14 then eth a else buf a

theorem setByte_other {a x : Nat} (v : BitVec 8) (buf : Bytes) (h : x ≠ a) :
    setByte a v buf x = buf x := by
  rw [setByte, Function.update_of_ne h]

theorem complemented_other {sum : Bytes → BitVec 16} {field x : Nat} (buf : Bytes)
    (h : x < field ∨ field + 2 ≤ x) : complemented sum field buf x = buf x := by
  rw [complemented, store_other _ h, store_other _ h]

theorem ipSendNolen_other (ipid : BitVec 16) (buf : Bytes) {x : Nat}
    (h : x = 16 ∨ x = 17 ∨ x = 22 ∨ x = 23 ∨ 26 ≤ x) : ipSendNolen ipid buf x = buf x := by
  rw [ipSendNolen, complemented_other _ (by omega), setByte_other _ _ (by omega),
    setByte_other _ _ (by omega), setByte_other _ _ (by omega), setByte_other _ _ (by omega),
    setByte_other _ _ (by omega), setByte_other _ _ (by omega)]

theorem tcpSendNoconn_proto (uipLen ipid : BitVec 16) (buf : Bytes) :
    tcpSendNoconn uipLen ipid buf 23 = buf 23 := by
  simp only [tcpSendNoconn, setLen]
  rw [ipSendNolen_other _ _ (by omega), setByte_other _ _ (by omega), setByte_other _ _ (by omega),
    setByte_other _ _ (by omega), setByte_other _ _ (by omega), setByte_other _ _ (by omega)]

theorem tcpSendNoconn_len (uipLen ipid : BitVec 16) (buf : Bytes) :
    tcpSendNoconn uipLen ipid buf 16 = highByte uipLen ∧
      tcpSendNoconn uipLen ipid buf 17 = lowByte uipLen := by
  have h : ∀ x, x = 16 ∨ x = 17 → tcpSendNoconn uipLen ipid buf x =
      setLen uipLen (setByte 22 64 buf) x := fun x hx => by
    simp only [tcpSendNoconn]
    rw [ipSendNolen_other _ _ (by omega), setByte_other _ _ (by omega),
      setByte_other _ _ (by omega)]
  exact ⟨(h 16 (Or.inl rfl)).trans rfl, (h 17 (Or.inr rfl)).trans rfl⟩

theorem uipIpchksum_ipSendNolen (ipid : BitVec 16) (buf : Bytes) :
    uipIpchksum (ipSendNolen ipid buf) = 0xffff#16 := uipIpchksum_complemented _

theorem upperLayerLen_of_len {buf : Bytes} {len : BitVec 16} (h₁ : buf 16 = highByte len)
    (h₂ : buf 17 = lowByte len) : upperLayerLen buf = len - 20 := by
  have hlen : (highByte len).setWidth 16 <<< 8 + (lowByte len).setWidth 16 = len := by
    apply BitVec.eq_of_toNat_eq
    have hl := len.isLt
    simp [highByte, lowByte, BitVec.toNat_add, BitVec.toNat_shiftLeft, Nat.shiftLeft_eq,
      Nat.shiftRight_eq_div_pow]
    omega
  rw [upperLayerLen, h₁, h₂, hlen]

theorem udpHeader_len (u : UdpOut) (buf : Bytes) :
    upperLayerLen (udpHeader u buf) = u.slen + 8 := by
  have h : ∀ x, x = 16 ∨ x = 17 → udpHeader u buf x = setLen u.uipLen buf x := by
    intro x hx
    simp only [udpHeader, copyHalves]
    rw [store_other _ (by omega), store_other _ (by omega), store_other _ (by omega),
      store_other _ (by omega), store_other _ (by omega), store_other _ (by omega),
      store_other _ (by omega), store_other _ (by omega), setByte_other _ _ (by omega),
      setByte_other _ _ (by omega)]
  rw [upperLayerLen_of_len ((h 16 (Or.inl rfl)).trans rfl) ((h 17 (Or.inr rfl)).trans rfl),
    UdpOut.uipLen]
  apply BitVec.eq_of_toNat_eq
  have hs := u.slen.isLt
  simp [BitVec.toNat_add, BitVec.toNat_sub]
  omega

theorem store_zero_of_zero {buf : Bytes} {a : Nat} (h₁ : buf a = 0) (h₂ : buf (a + 1) = 0) :
    store buf a 0 = buf := by
  funext x
  unfold store
  split
  next h => rw [h, h₁]; rfl
  split
  next h => rw [h, h₂]; rfl
  · rfl

theorem udpHeader_checksum (u : UdpOut) (buf : Bytes) :
    udpHeader u buf 40 = 0 ∧ udpHeader u buf 41 = 0 := by
  have h : ∀ x, x = 40 ∨ x = 41 → ∀ m : Bytes,
      copyHalves 30 u.ripaddr (copyHalves 26 u.hostaddr
        (store (store (store m 40 0) 34 u.lport) 36 u.rport)) x = 0 := by
    intro x hx m
    rw [copyHalves, copyHalves, store_other _ (by omega), store_other _ (by omega),
      store_other _ (by omega), store_other _ (by omega), store_other _ (by omega),
      store_other _ (by omega)]
    rcases hx with rfl | rfl <;> rfl
  exact ⟨h 40 (Or.inl rfl) _, h 41 (Or.inr rfl) _⟩

-- A datagram has at most 65535 bytes with its headers.
theorem uipUdpchksum_udpChecksum (u : UdpOut) (buf : Bytes) (hlen : u.slen.toNat + 28 < 65536) :
    uipUdpchksum (udpChecksum (udpHeader u buf)) = 0xffff#16 ∧
      load (udpChecksum (udpHeader u buf)) 40 ≠ 0 := by
  have hupper : 8 ≤ (upperLayerLen (udpHeader u buf)).toNat := by
    rw [udpHeader_len, BitVec.toNat_add, Nat.mod_eq_of_lt (by simp; omega)]
    simp
  have hsums : Sums (upperLayerSum 17) 40 (udpHeader u buf) :=
    sums_upperLayerSum 17 (j := 3) (by omega)
  have hzero : store (udpHeader u buf) 40 0 = udpHeader u buf :=
    store_zero_of_zero (udpHeader_checksum u buf).1 (udpHeader_checksum u buf).2
  have hcompl : store (udpHeader u buf) 40 (~~~uipUdpchksum (udpHeader u buf)) =
      complemented uipUdpchksum 40 (udpHeader u buf) := by
    rw [complemented, hzero]
  have hcheck := check_complemented hsums
  rw [← ofNat_check_eq_iff, ← funext (upperLayerChksum_eq 17), ← upperLayerChksum_eq] at hcheck
  unfold udpChecksum
  dsimp only
  rw [load_store_same]
  split
  next h =>
    have hother := check_other_zero hsums (by rw [← upperLayerChksum_eq, hzero]; exact h)
    rw [h, load_store_same, uipUdpchksum, upperLayerChksum_eq]
    exact ⟨(ofNat_check_eq_iff _).mpr hother, by decide⟩
  next h =>
    rw [load_store_same, hcompl]
    exact ⟨hcheck, h⟩

theorem udpChecksum_other (buf : Bytes) {x : Nat} (h : x < 40 ∨ 42 ≤ x) :
    udpChecksum buf x = buf x := by
  unfold udpChecksum
  split
  · rw [store_other _ h, store_other _ h]
  · rw [store_other _ h]

theorem udpSendBuf_checked (u : UdpOut) (buf : Bytes) (hlen : u.slen.toNat + 28 < 65536) :
    uipIpchksum (udpSendBuf u buf) = 0xffff#16 ∧ uipUdpchksum (udpSendBuf u buf) = 0xffff#16 ∧
      load (udpSendBuf u buf) 40 ≠ 0 := by
  obtain ⟨hcheck, hne⟩ := uipUdpchksum_udpChecksum u buf hlen
  refine ⟨uipIpchksum_ipSendNolen _ _, ?_, ?_⟩
  · refine Eq.trans ?_ hcheck
    exact upperLayerChksum_congr (ipSendNolen_other _ _ (by omega))
      (ipSendNolen_other _ _ (by omega)) fun a ha _ => ipSendNolen_other _ _ (by omega)
  · rw [udpSendBuf, load, ipSendNolen_other _ _ (by omega), ipSendNolen_other _ _ (by omega)]
    exact hne

theorem udpSendBuf_other (u : UdpOut) (buf : Bytes) {x : Nat} (h : x = 16 ∨ x = 17 ∨ x = 23) :
    udpSendBuf u buf x = udpHeader u buf x := by
  rw [udpSendBuf, ipSendNolen_other _ _ (by omega), udpChecksum_other _ (by omega)]

theorem udpSendBuf_proto (u : UdpOut) (buf : Bytes) : udpSendBuf u buf 23 = 17 := by
  rw [udpSendBuf_other _ _ (by omega)]
  simp only [udpHeader, copyHalves]
  rw [store_other _ (by omega), store_other _ (by omega), store_other _ (by omega),
    store_other _ (by omega), store_other _ (by omega), store_other _ (by omega),
    store_other _ (by omega), store_other _ (by omega)]
  rfl

theorem udpSendBuf_len (u : UdpOut) (buf : Bytes) : upperLayerLen (udpSendBuf u buf) = u.slen + 8 :=
  (upperLayerLen_congr (udpSendBuf_other u buf (by omega))
    (udpSendBuf_other u buf (by omega))).trans (udpHeader_len u buf)

end Xtcp.Uip
