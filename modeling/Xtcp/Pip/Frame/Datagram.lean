import Xtcp.Pip.Frame.Wire

namespace Xtcp.Pip.Wire

open Halfword Reading OnesSum Xtcp.Segment Xtcp.Pip.Frame

def pseudoHeader (srcIP dstIP : Word) (totalLength : Nat) : List Nat :=
  halves srcIP ++ halves dstIP ++ [0x0011, totalLength]

-- The sum over pseudo header, header and data of the datagram at offset.
def Correct (mem : Bytes) (srcIP dstIP : Word) (offset : Nat) : Prop :=
  total 65535 0 (pseudoHeader srcIP dstIP (udpLength mem offset) ++
    Uip.words (slice mem (2 * offset) (udpLength mem offset))) = 65535

def checksumField (mem : Bytes) (offset : Nat) : BitVec 16 := load mem (2 * (offset + 3))

-- The same sum, of what is handed to pipOutgoingUDP.
def inputSum (srcIP dstIP : Word) (localPort remotePort : BitVec 16) (length : Nat)
    (payload : List (BitVec 8)) : Nat :=
  (pseudoHeader srcIP dstIP (length + 8)).sum + localPort.toNat + remotePort.toNat +
    (length + 8) + (Uip.words payload).sum

section Sums

variable {mem : Bytes} {srcIP dstIP : Word} {offset : Nat}

theorem pseudoHeader_le {totalLength : Nat} (h : totalLength ≤ 65535) :
    ∀ w ∈ pseudoHeader srcIP dstIP totalLength, w ≤ 65535 := by
  intro w hw
  rcases List.mem_append.mp hw with hw | hw
  · rcases List.mem_append.mp hw with hw | hw
    · exact halves_le srcIP w hw
    · exact halves_le dstIP w hw
  · rcases List.mem_cons.mp hw with rfl | hw
    · decide
    · rw [List.mem_singleton.mp hw]
      exact h

theorem sum_pseudoHeader (totalLength : Nat) : (pseudoHeader srcIP dstIP totalLength).sum =
    (srcIP.toNat / 65536 + srcIP.toNat % 65536) + (dstIP.toNat / 65536 + dstIP.toNat % 65536) +
      (17 + totalLength) := by
  simp only [pseudoHeader, List.sum_append, sum_halves, List.sum_cons, List.sum_nil, Nat.add_zero]

-- The addresses are folded before the rest is added to them.
theorem fold_pseudo (x y : Word) (n : Nat) (hn : n ≠ 0) :
    fold 65535 (n + (onesAdd x y).toNat) =
      fold 65535 ((x.toNat / 65536 + x.toNat % 65536) + (y.toNat / 65536 + y.toNat % 65536) + n) := by
  rw [toNat_onesAdd, Nat.add_comm, fold_fold_add, Nat.add_assoc, fold_halves _ _ (by omega),
    show x.toNat / 65536 + x.toNat % 65536 + (y.toNat + n) =
      y.toNat + (x.toNat / 65536 + x.toNat % 65536 + n) by omega, fold_halves _ _ (by omega)]
  congr 1
  omega

theorem toNat_udpStart {x y l : Word} (hl : l.toNat ≤ 65535) :
    (0x0011 + l + onesAdd x y).toNat = 17 + l.toNat + (onesAdd x y).toNat := by
  have hle := fold_le (m := 65535) (by decide) (x.toNat + y.toNat)
  rw [← toNat_onesAdd] at hle
  rw [BitVec.toNat_add, BitVec.toNat_add, show (0x0011 : Word).toNat = 17 from rfl]
  omega

theorem udpValid_iff : UdpValid mem srcIP dstIP offset ↔ Correct mem srcIP dstIP offset := by
  have hlen : udpLength mem offset ≤ 65535 := by
    rw [udpLength, toNat_rev, swapped]
    have := (load mem (2 * (offset + 2))).isLt
    omega
  have hstart := toNat_udpStart (x := srcIP) (y := dstIP) hlen
  have hle := fold_le (m := 65535) (by decide) (srcIP.toNat + dstIP.toNat)
  rw [← toNat_onesAdd] at hle
  have hpacket := packetSum_le mem offset (udpLength mem offset)
  have hwords : ∀ w ∈ pseudoHeader srcIP dstIP (udpLength mem offset) ++
      Uip.words (slice mem (2 * offset) (udpLength mem offset)), w ≤ 65535 := by
    intro w hw
    rcases List.mem_append.mp hw with hw | hw
    · exact pseudoHeader_le hlen w hw
    · exact Uip.words_le _ w hw
  have hrev : (rev (load mem (2 * (offset + 2)))).toNat = udpLength mem offset := rfl
  rw [hrev] at hstart
  rw [UdpValid, onesChecksum_eq_zero mem (by rw [hstart]; omega), hstart, Correct,
    total_eq_fold (by decide) (by decide) _ hwords, List.sum_append, sum_pseudoHeader, ← packetSum]
  rw [show 17 + udpLength mem offset + (onesAdd srcIP dstIP).toNat +
      packetSum mem offset (udpLength mem offset) = 17 + udpLength mem offset +
        packetSum mem offset (udpLength mem offset) + (onesAdd srcIP dstIP).toNat by omega,
    fold_pseudo _ _ _ (by omega), Nat.zero_add]
  simp only [Nat.add_assoc]

end Sums

section Outgoing

variable {s : Address.Host} {remoteIP : Word} {localPort remotePort : BitVec 16} {length : Nat}
  {b : Buffer}

def udpUnsummed (localPort remotePort : BitVec 16) (length : Nat) (mem : Bytes) : Bytes :=
  let mem := store mem 34 ((byterev (localPort.setWidth 32) >>> 16).setWidth 16)
  let mem := store mem 36 ((byterev (remotePort.setWidth 32) >>> 16).setWidth 16)
  let mem := store mem 38 ((byterev (BitVec.ofNat 32 (length + 8)) >>> 16).setWidth 16)
  store mem 40 0

def udpStart (s : Address.Host) (remoteIP : Word) (length : Nat) : Word :=
  0x0011 + BitVec.ofNat 32 (length + 8) + onesAdd s.myIP remoteIP

def udpChecksum (s : Address.Host) (remoteIP : Word) (localPort remotePort : BitVec 16)
    (length : Nat) (b : Buffer) : Word :=
  (onesChecksum (udpStart s remoteIP length) 17 (length + 8)).value
    (udpUnsummed localPort remotePort length b.txbuf)

theorem txbuf_udpHeader :
    (udpHeader s remoteIP (localPort.setWidth 32) (remotePort.setWidth 32) length b).txbuf =
      store (udpUnsummed localPort remotePort length b.txbuf) 40
        ((udpChecksum s remoteIP localPort remotePort length b).setWidth 16) := by
  simp only [udpHeader, txbuf_txShort, txbuf_txShortRev]
  rfl

theorem be_stored (mem : Bytes) (a : Nat) {x : Word} (h : x.toNat < 65536) :
    Uip.be (store mem a ((byterev x >>> 16).setWidth 16)) a = x.toNat := by
  rw [← toNat_rev_load, load_store_same, rev_byterev x h]

theorem be_store_other {mem : Bytes} {a c : Nat} (v : BitVec 16) (h : c + 2 ≤ a ∨ a + 2 ≤ c) :
    Uip.be (store mem a v) c = Uip.be mem c := by
  rw [← toNat_rev_load, ← toNat_rev_load, load_store_other v h]

theorem toNat_length (h : length + 8 ≤ 65535) :
    (BitVec.ofNat 32 (length + 8) : Word).toNat = length + 8 := by
  rw [BitVec.toNat_ofNat]
  omega

theorem toNat_port (p : BitVec 16) : (p.setWidth 32 : Word).toNat = p.toNat := by
  have := p.isLt
  rw [BitVec.toNat_setWidth]
  omega

theorem packetSum_udpUnsummed (h : length + 8 ≤ 65535) (mem : Bytes) :
    packetSum (udpUnsummed localPort remotePort length mem) 17 (length + 8) =
      localPort.toNat + remotePort.toNat + (length + 8) +
        (Uip.words (slice mem 42 length)).sum := by
  have hlocal := localPort.isLt
  have hremote := remotePort.isLt
  have hrest : slice (udpUnsummed localPort remotePort length mem) 42 length =
      slice mem 42 length := by
    apply slice_congr
    intro j _
    rw [udpUnsummed, store_other _ (by omega), store_other _ (by omega), store_other _ (by omega),
      store_other _ (by omega)]
  have hsplit : slice (udpUnsummed localPort remotePort length mem) 34 (length + 8) =
      slice (udpUnsummed localPort remotePort length mem) 34 (2 * 4) ++ slice mem 42 length := by
    rw [← hrest, ← Memory.slice_append, Nat.add_comm length 8]
  have h34 : Uip.be (udpUnsummed localPort remotePort length mem) 34 = localPort.toNat := by
    rw [udpUnsummed, be_store_other _ (by omega), be_store_other _ (by omega),
      be_store_other _ (by omega), be_stored _ _ (by rw [toNat_port]; omega), toNat_port]
  have h36 : Uip.be (udpUnsummed localPort remotePort length mem) 36 = remotePort.toNat := by
    rw [udpUnsummed, be_store_other _ (by omega), be_store_other _ (by omega),
      be_stored _ _ (by rw [toNat_port]; omega), toNat_port]
  have h38 : Uip.be (udpUnsummed localPort remotePort length mem) 38 = length + 8 := by
    rw [udpUnsummed, be_store_other _ (by omega), be_stored _ _ (by rw [toNat_length h]; omega),
      toNat_length h]
  have h40 : Uip.be (udpUnsummed localPort remotePort length mem) 40 = 0 := by
    rw [udpUnsummed, ← toNat_rev_load, load_store_same]
    rfl
  rw [packetSum, hsplit, Uip.words_slice_even, Finset.sum_range_succ, Finset.sum_range_succ,
    Finset.sum_range_succ, Finset.sum_range_one]
  simp only [h34, h36, h38, h40, Nat.mul_zero, Nat.mul_one, Nat.add_zero]

theorem udpSum_eq (h : length + 8 ≤ 65535) :
    fold 65535 ((udpStart s remoteIP length).toNat +
      packetSum (udpUnsummed localPort remotePort length b.txbuf) 17 (length + 8)) =
      fold 65535 (inputSum s.myIP remoteIP localPort remotePort length
        (slice b.txbuf 42 length)) := by
  have hlen := toNat_length h
  rw [udpStart, toNat_udpStart (by omega), hlen, packetSum_udpUnsummed h, inputSum,
    sum_pseudoHeader]
  generalize (Uip.words (slice b.txbuf 42 length)).sum = p
  rw [show 17 + (length + 8) + (onesAdd s.myIP remoteIP).toNat +
      (localPort.toNat + remotePort.toNat + (length + 8) + p) =
        17 + (length + 8) + (localPort.toNat + remotePort.toNat + (length + 8) + p) +
          (onesAdd s.myIP remoteIP).toNat by omega, fold_pseudo _ _ _ (by omega)]
  congr 1
  omega

theorem udpSum_lt (h : length + 8 ≤ 65535) : (udpStart s remoteIP length).toNat +
    packetSum (udpUnsummed localPort remotePort length b.txbuf) 17 (length + 8) + 65535 < 2 ^ 32 := by
  have hlen := toNat_length h
  have hle := fold_le (m := 65535) (by decide) (s.myIP.toNat + remoteIP.toNat)
  have hpacket := packetSum_le (udpUnsummed localPort remotePort length b.txbuf) 17 (length + 8)
  rw [← toNat_onesAdd] at hle
  rw [udpStart, toNat_udpStart (by omega), hlen]
  omega

theorem udpChecksum_eq_zero (h : length + 8 ≤ 65535) :
    (udpChecksum s remoteIP localPort remotePort length b).setWidth 16 = 0 ↔
      inputSum s.myIP remoteIP localPort remotePort length (slice b.txbuf 42 length) % 65535 =
        0 := by
  have hlt : (udpStart s remoteIP length).toNat +
      packetSum (udpUnsummed localPort remotePort length b.txbuf) 17 (length + 8) + 65535 <
        2 ^ 32 := udpSum_lt h
  have hne : inputSum s.myIP remoteIP localPort remotePort length (slice b.txbuf 42 length) ≠ 0 := by
    rw [inputSum]
    omega
  have hsmall : (udpChecksum s remoteIP localPort remotePort length b).toNat < 65536 := by
    rw [udpChecksum, value_onesChecksum, swapped]
    omega
  have hzero : (udpChecksum s remoteIP localPort remotePort length b).setWidth 16 = 0 ↔
      udpChecksum s remoteIP localPort remotePort length b = 0 := by
    rw [← BitVec.toNat_inj, ← BitVec.toNat_inj, BitVec.toNat_setWidth, Nat.mod_eq_of_lt hsmall]
    rfl
  rw [hzero, udpChecksum, onesChecksum_eq_zero _ (by omega), udpSum_eq h, fold_eq_top]
  exact ⟨And.right, fun hmod => ⟨hne, hmod⟩⟩

end Outgoing

section Received

variable {cfg : Address.Config} {s : Address.Host} {remoteIP : Word}
  {localPort remotePort : BitVec 16} {length : Nat} {b : Buffer} {macDest : Address.Mac}

def udpFrame (cfg : Address.Config) (s : Address.Host) (remoteIP : Word)
    (localPort remotePort : BitVec 16) (length : Nat) (b : Buffer) : Bytes :=
  (pipOutgoingUDP cfg s remoteIP (localPort.setWidth 32) (remotePort.setWidth 32) length b).txbuf

theorem udpFrame_other (h : Address.pipOutgoingIPv4 cfg remoteIP s = .frame macDest) {i : Nat}
    (hi : 34 ≤ i) : udpFrame cfg s remoteIP localPort remotePort length b i =
      store (udpUnsummed localPort remotePort length b.txbuf) 40
        ((udpChecksum s remoteIP localPort remotePort length b).setWidth 16) i := by
  rw [udpFrame, pipOutgoingUDP, pipOutgoingIPv4_other h hi, txbuf_udpHeader]

theorem load_udpFrame (h : Address.pipOutgoingIPv4 cfg remoteIP s = .frame macDest) {a : Nat}
    (ha : 34 ≤ a) : load (udpFrame cfg s remoteIP localPort remotePort length b) a =
      load (store (udpUnsummed localPort remotePort length b.txbuf) 40
        ((udpChecksum s remoteIP localPort remotePort length b).setWidth 16)) a := by
  rw [load, load, udpFrame_other h ha, udpFrame_other h (by omega)]

theorem checksumField_udpFrame (h : Address.pipOutgoingIPv4 cfg remoteIP s = .frame macDest) :
    checksumField (udpFrame cfg s remoteIP localPort remotePort length b) 17 =
      (udpChecksum s remoteIP localPort remotePort length b).setWidth 16 :=
  (load_udpFrame h (by decide)).trans (load_store_same _ _ _)

theorem rev_length (h : length + 8 ≤ 65535) (mem : Bytes) :
    rev (load (udpUnsummed localPort remotePort length mem) 38) =
      BitVec.ofNat 32 (length + 8) := by
  apply BitVec.eq_of_toNat_eq
  rw [udpUnsummed, load_store_other _ (by omega), load_store_same,
    rev_byterev _ (by rw [toNat_length h]; omega)]

theorem udpValid_udpFrame (h : Address.pipOutgoingIPv4 cfg remoteIP s = .frame macDest)
    (hlen : length + 8 ≤ 65535) :
    UdpValid (udpFrame cfg s remoteIP localPort remotePort length b) s.myIP remoteIP 17 := by
  have hrev : rev (load (udpFrame cfg s remoteIP localPort remotePort length b) (2 * (17 + 2))) =
      BitVec.ofNat 32 (length + 8) := by
    rw [load_udpFrame h (by decide), load_store_other _ (by decide)]
    exact rev_length hlen b.txbuf
  have hz : load (udpUnsummed localPort remotePort length b.txbuf) (2 * 20) = 0 :=
    load_store_same _ _ _
  have hfilled : (onesChecksum (udpStart s remoteIP length) 17 (length + 8)).value
      (store (udpUnsummed localPort remotePort length b.txbuf) (2 * 20)
        ((udpChecksum s remoteIP localPort remotePort length b).setWidth 16)) = 0 :=
    onesChecksum_filled hz (by omega) (by omega) (udpSum_lt hlen)
  rw [UdpValid, udpLength, hrev, toNat_length hlen]
  rw [value_onesChecksum_congr _ _ fun i hi => udpFrame_other h hi]
  exact hfilled

end Received

section Handed

variable {n m : Nat} {cfg : Config} {h : Host n m} {mem : Bytes} {offset : Nat}
  {remoteIP localIP : Word}

-- A datagram with a wrong sum is ignored; with a right one it goes to the handler of its port.
theorem value_pipIncomingUDP_ignored (hsum : ¬UdpValid mem remoteIP localIP offset) :
    (pipIncomingUDP cfg h offset remoteIP localIP).value mem = [] := by
  rw [pipIncomingUDP, value_bind, value_bind, value_bind, value_bind]
  rw [UdpValid, udpLength] at hsum
  exact value_if_pos mem hsum _ _

theorem value_pipIncomingUDP_handed (hsum : UdpValid mem remoteIP localIP offset) :
    (pipIncomingUDP cfg h offset remoteIP localIP).value mem =
      if cfg.address.dhcp ∧ localPort mem offset = 0x44 then
        (pipIncomingDHCP cfg h (offset + 4) (udpLength mem offset - 8)).value mem
      else if cfg.tftp ∧ localPort mem offset = h.loader.pipPortTFTP then
        (pipIncomingTFTP h (remotePort mem offset) (offset + 4)
          (udpLength mem offset - 8)).value mem
      else (serveUDPChannels h (localPort mem offset) (offset + 4)
        (udpLength mem offset - 8)).value mem := by
  rw [UdpValid, udpLength] at hsum
  rw [pipIncomingUDP, value_bind, value_bind, value_bind, value_bind, ← value_ite, ← value_ite]
  exact value_if_neg mem (not_not_intro hsum) _ _

end Handed

theorem udp_checksum_exact (cfg : Address.Config) (s : Address.Host) (remoteIP localIP : Word)
    (localPort remotePort : BitVec 16) (length : Nat) (b : Buffer) (macDest : Address.Mac)
    (mem : Bytes) (offset : Nat) (x y sum : Word) (start lengthInBytes : Nat) :
    (Address.pipOutgoingIPv4 cfg remoteIP s = .frame macDest → length + 28 ≤ 65535 →
      let frame := udpFrame cfg s remoteIP localPort remotePort length b
      (checksumField frame 17 ≠ 0 ∧
          UdpValid frame (srcIP frame 7) (dstIP frame 7) (contentOffset frame 7) ↔
        inputSum s.myIP remoteIP localPort remotePort length (slice b.txbuf 42 length) % 65535 ≠
          0)) ∧
    ((UdpValid mem remoteIP localIP offset ↔
        checksumField mem offset = 0 ∨ Correct mem remoteIP localIP offset) ↔
      checksumField mem offset ≠ 0 ∨ Correct mem remoteIP localIP offset) ∧
    (onesAdd x y).toNat = total 65535 0 (halves x ++ halves y) ∧
    (lengthInBytes < 2 ^ 31 →
      (((onesChecksum sum start lengthInBytes).value mem).toNat = swapped (65535 -
          total 65535 0 (halves sum ++ Uip.words (slice mem (2 * start) lengthInBytes))) ↔
        sum.toNat + packetSum mem start lengthInBytes < 2 ^ 32)) := by
  refine ⟨?_, ?_, onesAdd_eq_total x y, fun h => onesChecksum_eq_total mem sum start h⟩
  · intro h hlen frame
    have hheaded : Headed frame s 17 remoteIP (length + 8) := headed h (by omega)
    have hvalid : UdpValid frame s.myIP remoteIP 17 := udpValid_udpFrame h (by omega)
    have hoffset : contentOffset frame 7 = 17 := by rw [contentOffset, hheaded.headerLength]
    rw [hheaded.srcIP, hheaded.dstIP, hoffset, and_iff_left hvalid]
    rw [checksumField_udpFrame h, Ne, udpChecksum_eq_zero (by omega)]
  · rw [udpValid_iff]
    tauto

-- A discovery with an empty payload.
def discovery : Bytes :=
  udpFrame Address.linkLocalOnly (Address.powerOn 0) 0xFFFFFFFF 68 67 0 ⟨fun _ => 0, 0⟩

theorem udp_checksum_exact_discovery :
    (checksumField discovery 17 ≠ 0 ∧
      UdpValid discovery (srcIP discovery 7) (dstIP discovery 7) (contentOffset discovery 7)) ∧
    ((onesChecksum 0xFFFFFFFF 0 0).value (fun _ => 0)).toNat = 0 := by
  obtain ⟨hsent, -, -, hsum⟩ := udp_checksum_exact Address.linkLocalOnly (Address.powerOn 0)
    0xFFFFFFFF 0 68 67 0 ⟨fun _ => 0, 0⟩ Address.broadcast (fun _ => 0) 0 0 0 0xFFFFFFFF 0 0
  exact ⟨(hsent (by decide) (by decide)).mpr (by decide),
    ((hsum (by decide)).mpr (by decide)).trans (by decide)⟩

theorem udp_checksum_not_exact :
    (¬∀ (cfg : Address.Config) (s : Address.Host) (remoteIP : Word)
      (localPort remotePort : BitVec 16) (length : Nat) (b : Buffer) (macDest : Address.Mac),
      Address.pipOutgoingIPv4 cfg remoteIP s = .frame macDest → length + 28 ≤ 65535 →
        checksumField (udpFrame cfg s remoteIP localPort remotePort length b) 17 ≠ 0) ∧
    ¬∀ (mem : Bytes) (remoteIP localIP : Word) (offset : Nat),
      UdpValid mem remoteIP localIP offset ↔
        checksumField mem offset = 0 ∨ Correct mem remoteIP localIP offset := by
  constructor
  · intro h
    have hsent : Address.pipOutgoingIPv4 Address.linkLocalOnly 0xFFFFFFFF (Address.powerOn 0) =
        .frame Address.broadcast := by decide
    have hne := h Address.linkLocalOnly (Address.powerOn 0) 0xFFFFFFFF 1000 64502 0
      ⟨fun _ => 0, 0⟩ Address.broadcast hsent (by decide)
    rw [checksumField_udpFrame hsent] at hne
    exact hne ((udpChecksum_eq_zero (by decide)).mpr (by decide))
  · intro h
    have hvalid := (h (fun i => if i = 5 then 8 else 0) 0 0 0).mpr (Or.inl (by decide))
    rw [udpValid_iff] at hvalid
    exact absurd hvalid (by unfold Correct; decide)

end Xtcp.Pip.Wire
