import Xtcp.Pip.Frame.Datagram

namespace Xtcp.Pip.Wire

open Halfword Reading OnesSum Xtcp.Segment Xtcp.Pip.Frame

section Values

variable {n m : Nat} {cfg : Config} {h : Host n m} {mem : Bytes} {offset : Nat}

theorem value_macCopy (mem : Bytes) (offset : Nat) :
    (macCopy offset).value mem = slice mem offset 6 := value_each mem _ 6

theorem value_pipIncomingIPv4 (haccepted : Accepted h mem offset) :
    (pipIncomingIPv4 cfg h offset).value mem =
      .store (srcIP mem offset) (slice mem 6 6) ::
        (dispatch cfg h (mem (offset * 2 + 9)) (contentOffset mem offset) (srcIP mem offset)
          (dstIP mem offset) (dataLength mem offset)).value mem := by
  obtain ⟨hsum, hmine⟩ := haccepted
  rw [← value_macCopy]
  rw [pipIncomingIPv4, value_bind, value_bind, value_bind, value_bind, value_bind, value_bind]
  have hsum : ¬(onesChecksum 0 offset (headerLength mem offset * 4)).value mem ≠ 0 :=
    not_not_intro hsum
  refine (value_if_neg mem hsum _ _).trans ?_
  have hmine : ¬foreign h (dstIP mem offset) = true := by
    rw [hmine]
    exact Bool.false_ne_true
  exact value_if_neg mem hmine _ _

theorem value_dispatch_icmp (hicmp : IsIcmp cfg mem offset) (contentOffset : Nat)
    (srcIP dstIP : Word) (length : Int) :
    dispatch cfg h (mem (offset * 2 + 9)) contentOffset srcIP dstIP length =
      pipIncomingICMP h contentOffset srcIP length := by
  have hothers : dispatch.others cfg h (mem (offset * 2 + 9)) contentOffset srcIP dstIP length =
      pipIncomingICMP h contentOffset srcIP length := by
    rw [dispatch.others, hicmp.2, if_neg (fun hudp => absurd hudp.2 (by decide)),
      if_pos ⟨hicmp.1, rfl⟩]
  rw [dispatch]
  split
  · rw [if_neg (by rw [hicmp.2]; decide)]
    exact hothers
  · exact hothers

end Values

section Echo

variable {n m : Nat}

-- An echo request that pipIncomingIPv4 takes, in a frame with v halfwords of tags.
structure Echo (cfg : Config) (h : Host n m) (packet : Bytes) (v : Nat) : Prop where
  ipv4 : cfg.ipv4 = true
  tagged : Tagged packet 6 v
  ethType : load packet (2 * (6 + v)) = 0x0008
  accepted : Accepted h packet (7 + v)
  icmp : IsIcmp cfg packet (7 + v)
  header : 5 ≤ headerLength packet (7 + v)
  assigned : h.address.myIP ≠ 0
  type : packet (contentOffset packet (7 + v) * 2) = 8
  length : 8 ≤ dataLength packet (7 + v)

def icmpLength (packet : Bytes) (v : Nat) : Nat := (dataLength packet (7 + v)).toNat

-- pipARPStoreEntry has been called before the reply is built.
def hostAfter (h : Host n m) (packet : Bytes) (v : Nat) : Address.Host :=
  Address.pipARPStoreEntry (srcIP packet (7 + v)) (slice packet 6 6) h.address

def replyFrame (cfg : Config) (h : Host n m) (packet : Bytes) (v : Nat) (b : Buffer) : Bytes :=
  (pong cfg.address (hostAfter h packet v) packet (contentOffset packet (7 + v))
    (srcIP packet (7 + v)) (icmpLength packet v) b).txbuf

-- The call of pipIncomingICMP that builds the reply.
theorem Echo.called {cfg : Config} {h : Host n m} {packet : Bytes} {v : Nat}
    (he : Echo cfg h packet v) {nBytes : Nat} (hv : v < nBytes + 1) :
    (pipIncomingEthernet cfg h nBytes).value packet =
      [.store (srcIP packet (7 + v)) (slice packet 6 6),
        .pong (contentOffset packet (7 + v)) (srcIP packet (7 + v))
          (slice packet 34 (icmpLength packet v))] := by
  rw [value_ethernet he.tagged hv ⟨he.ipv4, he.ethType⟩, value_pipIncomingIPv4 he.accepted,
    value_dispatch_icmp he.icmp, pipIncomingICMP, value_bind]
  have hpong : h.address.myIP ≠ 0 ∧
      (byte (contentOffset packet (7 + v) * 2)).value packet = 8 := ⟨he.assigned, he.type⟩
  rw [if_pos hpong, value_bind, value_pure, value_each]
  rfl

-- What the reply has to be, for the request at byte 2 * icmpOffset of the packet.
structure Replies (frame packet : Bytes) (icmpOffset length : Nat) : Prop where
  type : frame 34 = 0
  code : frame 35 = packet (2 * icmpOffset + 1)
  rest : ∀ i < length, 4 ≤ i → frame (34 + i) = packet (2 * icmpOffset + i)
  headerLength : headerLength frame 7 = 5
  totalLength : totalLength frame 7 = 20 + length
  ipChecksum : (onesChecksum 0 7 20).value frame = 0
  icmpChecksum : (onesChecksum 0 17 length).value frame = 0

-- The bytes from 34 on are by chance those of the reply. The byte at 2 * icmpOffset becomes 0.
structure Repeats (packet : Bytes) (icmpOffset length : Nat) : Prop where
  type : packet 34 = 0
  code : packet 35 = packet (2 * icmpOffset + 1)
  rest : ∀ i < length, 4 ≤ i →
    (if 34 + i = 2 * icmpOffset then 0 else packet (34 + i)) = packet (2 * icmpOffset + i)

end Echo

section Reply

variable {cfg : Address.Config} {s : Address.Host} {packet : Bytes} {icmpOffset length : Nat}
  {srcIP : Word} {b : Buffer} {macDest : Address.Mac}

def copied (packet : Bytes) (icmpOffset length : Nat) (b : Buffer) : Bytes :=
  Function.update (txData 17 packet 34 length b).txbuf (icmpOffset * 2) 0

theorem txbuf_txByte (offset : Nat) (x : BitVec 8) (b : Buffer) :
    (txByte offset x b).txbuf = Function.update b.txbuf offset x := txbuf_adjustBufLength ..

theorem pong_other (h : Address.pipOutgoingIPv4 cfg srcIP s = .frame macDest) {i : Nat}
    (hi : 34 ≤ i) : (pong cfg s packet icmpOffset srcIP length b).txbuf i =
      store (store (copied packet icmpOffset length b) 36 0) 36
        (((onesChecksum 0 17 length).value
          (store (copied packet icmpOffset length b) 36 0)).setWidth 16) i := by
  rw [pong, pipOutgoingIPv4_other h hi]
  simp only [txbuf_txShort, txbuf_txByte]
  rfl

theorem copied_eq {i : Nat} (hi : i < length) :
    copied packet icmpOffset length b (34 + i) =
      if 34 + i = 2 * icmpOffset then 0 else packet (34 + i) := by
  rw [copied, Function.update_apply]
  have hsame : (txData 17 packet 34 length b).txbuf (17 * 2 + i) = packet (i + 34) :=
    txData_same packet 34 b hi
  rw [Nat.mul_comm icmpOffset 2]
  split_ifs
  · rfl
  · rw [Nat.add_comm 34 i]
    rwa [show 17 * 2 + i = i + 34 by omega] at hsame

theorem pong_eq (h : Address.pipOutgoingIPv4 cfg srcIP s = .frame macDest) {i : Nat}
    (hi : i < length) (hsum : i < 2 ∨ 4 ≤ i) :
    (pong cfg s packet icmpOffset srcIP length b).txbuf (34 + i) =
      if 34 + i = 2 * icmpOffset then 0 else packet (34 + i) := by
  rw [pong_other h (Nat.le_add_right 34 i), store_other _ (by omega), store_other _ (by omega),
    copied_eq hi]

theorem pong_checksum (h : Address.pipOutgoingIPv4 cfg srcIP s = .frame macDest)
    (hmin : 4 ≤ length) (hmax : length < 65536) :
    (onesChecksum 0 17 length).value (pong cfg s packet icmpOffset srcIP length b).txbuf = 0 := by
  have hz : load (store (copied packet icmpOffset length b) 36 0) (2 * 18) = 0 :=
    load_store_same _ _ _
  have hle := packetSum_le (store (copied packet icmpOffset length b) 36 0) 17 length
  have hzero : (0 : Word).toNat = 0 := rfl
  rw [value_onesChecksum_congr 0 length fun i hi => pong_other h hi]
  exact onesChecksum_filled (k := 18) hz (by omega) (by omega) (by omega)

theorem replies_iff {frame : Bytes} (hheaded : Headed frame s 1 srcIP length)
    (hbytes : ∀ i < length, i < 2 ∨ 4 ≤ i →
      frame (34 + i) = if 34 + i = 2 * icmpOffset then 0 else packet (34 + i))
    (hsum : (onesChecksum 0 17 length).value frame = 0) (hoffset : 17 ≤ icmpOffset)
    (hmin : 8 ≤ length) :
    Replies frame packet icmpOffset length ↔
      icmpOffset = 17 ∨ Repeats packet icmpOffset length := by
  have hfirst : frame 34 = if 34 = 2 * icmpOffset then 0 else packet 34 :=
    hbytes 0 (by omega) (Or.inl (by decide))
  have hcode : frame 35 = if 35 = 2 * icmpOffset then 0 else packet 35 :=
    hbytes 1 (by omega) (Or.inl (by decide))
  rw [if_neg (by omega)] at hcode
  constructor
  · intro hr
    by_cases h17 : icmpOffset = 17
    · exact Or.inl h17
    · right
      rw [if_neg (by omega)] at hfirst
      refine ⟨hfirst.symm.trans hr.type, hcode.symm.trans hr.code, fun i hi h4 => ?_⟩
      rw [← hbytes i hi (Or.inr h4)]
      exact hr.rest i hi h4
  · intro hr
    refine ⟨?_, ?_, ?_, hheaded.headerLength, ?_, hheaded.checksum, hsum⟩
    · rcases hr with rfl | hr
      · rwa [if_pos rfl] at hfirst
      · refine hfirst.trans ?_
        split_ifs
        · rfl
        · exact hr.type
    · rcases hr with rfl | hr
      · exact hcode
      · exact hcode.trans hr.code
    · intro i hi h4
      rw [hbytes i hi (Or.inr h4)]
      rcases hr with rfl | hr
      · rw [if_neg (by omega)]
      · exact hr.rest i hi h4
    · rw [hheaded.totalLength, Nat.add_comm]

end Reply

section Exact

variable {n m : Nat}

theorem ping_exact (cfg : Config) (h : Host n m) (packet : Bytes) (v : Nat) (b : Buffer)
    (he : Echo cfg h packet v) (macDest : Address.Mac)
    (hsent : Address.pipOutgoingIPv4 cfg.address (srcIP packet (7 + v)) (hostAfter h packet v) =
      .frame macDest) :
    Replies (replyFrame cfg h packet v b) packet (contentOffset packet (7 + v))
        (icmpLength packet v) ↔
      contentOffset packet (7 + v) = 17 ∨
        Repeats packet (contentOffset packet (7 + v)) (icmpLength packet v) := by
  have hheader := he.header
  have hlength := he.length
  have htotal : totalLength packet (7 + v) < 65536 := by
    rw [totalLength, toNat_rev, swapped]
    have := (load packet (2 * (7 + v + 1))).isLt
    omega
  have hoffset : 17 ≤ contentOffset packet (7 + v) := by
    rw [contentOffset]
    omega
  have hicmp : (icmpLength packet v : Int) = dataLength packet (7 + v) :=
    Int.toNat_of_nonneg (by omega)
  rw [dataLength] at hicmp hlength
  exact replies_iff (headed hsent (by omega)) (fun i hi hplace => pong_eq hsent hi hplace)
    (pong_checksum hsent (by omega) (by omega)) hoffset (by omega)

-- Without a router in between the sender is found: its entry has just been stored.
theorem echo_sent {cfg : Config} (hgateway : cfg.address.gateway = false) (h : Host n m)
    (packet : Bytes) (v : Nat) :
    ∃ macDest, Address.pipOutgoingIPv4 cfg.address (srcIP packet (7 + v)) (hostAfter h packet v) =
      .frame macDest := by
  have hslot := Address.arpSlot_mem h.address.pipArpTable (srcIP packet (7 + v))
  have hip : ((hostAfter h packet v).pipArpTable
      (Address.arpSlot h.address.pipArpTable (srcIP packet (7 + v)))).ipAddress =
        srcIP packet (7 + v) :=
    congrArg Address.Entry.ipAddress (Address.stored_slot _ _ (slice packet 6 6))
  rw [Address.pipOutgoingIPv4, Address.nextHop_direct hgateway]
  cases hfind : Address.lookup (hostAfter h packet v).pipArpTable (srcIP packet (7 + v)) with
  | some e => exact ⟨e.macAddr, rfl⟩
  | none =>
    rw [Address.lookup, Option.map_eq_none_iff, List.find?_eq_none] at hfind
    exact absurd (by simpa using hip) (hfind _ (List.mem_range.mpr hslot.2))

-- Without tags and options the request is where the copy begins.
theorem contentOffset_eq_iff {cfg : Config} {h : Host n m} {packet : Bytes} {v : Nat}
    (he : Echo cfg h packet v) :
    contentOffset packet (7 + v) = 17 ↔ v = 0 ∧ headerLength packet (7 + v) = 5 := by
  have hheader := he.header
  rw [contentOffset]
  omega

end Exact

section Requests

def plainPing : Bytes := fun i =>
  (List.replicate 12 0 ++ [8, 0, 0x45, 0, 0, 0x1C, 0, 0, 0, 0, 0x40, 1, 0xF9, 0x8D, 0xC0, 0xA8, 0, 1,
    0xC0, 0xA8, 0, 2, 8, 0, 0, 0, 0, 7, 0, 9] : List (BitVec 8)).getD i 0

-- The same request behind four options that do nothing.
def optionPing : Bytes := fun i =>
  (List.replicate 12 0 ++ [8, 0, 0x46, 0, 0, 0x20, 0, 0, 0, 0, 0x40, 1, 0xF6, 0x87, 0xC0, 0xA8, 0, 1,
    0xC0, 0xA8, 0, 2, 1, 1, 1, 1, 8, 0, 0, 0, 0, 7, 0, 9] : List (BitVec 8)).getD i 0

theorem echo_plainPing : Echo echoOnly listening plainPing 0 where
  ipv4 := rfl
  tagged := ⟨fun _ hk => absurd hk (Nat.not_lt_zero _), by decide⟩
  ethType := by decide
  accepted := ⟨by decide +kernel, by decide +kernel⟩
  icmp := ⟨rfl, by decide⟩
  header := by decide +kernel
  assigned := by decide
  type := by decide +kernel
  length := by decide +kernel

theorem echo_optionPing : Echo echoOnly listening optionPing 0 where
  ipv4 := rfl
  tagged := ⟨fun _ hk => absurd hk (Nat.not_lt_zero _), by decide⟩
  ethType := by decide
  accepted := ⟨by decide +kernel, by decide +kernel⟩
  icmp := ⟨rfl, by decide⟩
  header := by decide +kernel
  assigned := by decide
  type := by decide +kernel
  length := by decide +kernel

theorem ping_exact_plain :
    Replies (replyFrame echoOnly listening plainPing 0 ⟨fun _ => 0, 0⟩) plainPing
      (contentOffset plainPing 7) (icmpLength plainPing 0) :=
  (ping_exact echoOnly listening plainPing 0 ⟨fun _ => 0, 0⟩ echo_plainPing
    (List.replicate 6 0) (by decide +kernel)).mpr (Or.inl (by decide +kernel))

-- The reply has the first option for its type.
theorem ping_options_copied :
    ¬∀ (n m : Nat) (cfg : Config) (h : Host n m) (packet : Bytes) (v : Nat) (b : Buffer)
      (macDest : Address.Mac), Echo cfg h packet v →
        Address.pipOutgoingIPv4 cfg.address (srcIP packet (7 + v)) (hostAfter h packet v) =
          .frame macDest →
        Replies (replyFrame cfg h packet v b) packet (contentOffset packet (7 + v))
          (icmpLength packet v) := by
  intro hall
  have hsent : Address.pipOutgoingIPv4 echoOnly.address (srcIP optionPing (7 + 0))
      (hostAfter listening optionPing 0) = .frame (List.replicate 6 0) := by decide +kernel
  have hr := hall 0 1 echoOnly listening optionPing 0 ⟨fun _ => 0, 0⟩ _ echo_optionPing hsent
  have hfirst : replyFrame echoOnly listening optionPing 0 ⟨fun _ => 0, 0⟩ (34 + 0) = _ :=
    pong_eq hsent (by decide +kernel) (Or.inl (by decide))
  exact absurd (hfirst.symm.trans hr.type) (by decide +kernel)

end Requests

end Xtcp.Pip.Wire
