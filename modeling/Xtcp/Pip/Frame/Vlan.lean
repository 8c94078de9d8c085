import Xtcp.Pip.Frame.Ping
import Xtcp.Pip.Frame.Tags

namespace Xtcp.Pip.Wire

open Halfword Reading OnesSum Xtcp.Segment Xtcp.Pip.Frame

-- The message that pipIncomingICMP has put behind the place of the IP header.
def message (packet : Bytes) (icmpOffset length : Nat) (b : Buffer) : List (BitVec 8) :=
  slice (store (store (copied packet icmpOffset length b) 36 0) 36
    (((onesChecksum 0 17 length).value
      (store (copied packet icmpOffset length b) 36 0)).setWidth 16)) 34 length

theorem slice_pong {cfg : Address.Config} {s : Address.Host} {packet : Bytes}
    {icmpOffset length : Nat} {srcIP : Word} {b : Buffer} {macDest : Address.Mac}
    (h : Address.pipOutgoingIPv4 cfg srcIP s = .frame macDest) :
    slice (pong cfg s packet icmpOffset srcIP length b).txbuf 34 length =
      message packet icmpOffset length b :=
  slice_congr fun i _ => pong_other h (Nat.le_add_right 34 i)

-- What a call does. What a block of TFTP data does is told by the loader.
inductive Effect where
  | call (c : Frame.Call)
  | block (opcode block : BitVec 16)
  | reply (srcIP : Word) (message : List (BitVec 8))

def effect (packet : Bytes) (b : Buffer) : Frame.Call → Effect
  | .block opcode block _ => .block opcode block
  | .pong icmpOffset srcIP bytes => .reply srcIP (message packet icmpOffset bytes.length b)
  | c => .call c

section Moves

variable {n m : Nat} {cfg : Config} {h : Host n m} {mem mem' : Bytes} {w : Nat} {b : Buffer}

def Told (mem mem' : Bytes) (b : Buffer) (cs cs' : List Frame.Call) : Prop :=
  cs.map (effect mem b) = cs'.map (effect mem' b)

theorem told_nil : Told mem mem' b [] [] := by
  rw [Told, List.map_nil, List.map_nil]

theorem told_calls {cs : List Frame.Call}
    (h : ∀ packet, cs.map (effect packet b) = cs.map Effect.call) : Told mem mem' b cs cs :=
  (h mem).trans (h mem').symm

theorem told_block (opcode block : BitVec 16) (bytes bytes' : List (BitVec 8)) :
    Told mem mem' b [.block opcode block bytes] [.block opcode block bytes'] := by
  have heffect : ∀ packet bytes, effect packet b (.block opcode block bytes) =
      .block opcode block := fun _ _ => rfl
  rw [Told, List.map_singleton, List.map_singleton, heffect, heffect]

theorem same_macCopy (hm : Moved 12 (2 * w) mem mem') {a c : Nat} (ha : 12 ≤ a)
    (hc : c = a + 2 * w) : Same mem mem' (macCopy a) (macCopy c) :=
  same_each (fun i => hm.byte (by omega) (by omega)) 6

theorem same_onesChecksum (hm : Moved 12 (2 * w) mem mem') (sum : Word) {start : Nat} (len : Nat)
    (hs : 6 ≤ start) :
    Same mem mem' (onesChecksum sum start len) (onesChecksum sum (start + w) len) := by
  refine same_bind (same_each (fun i => hm.short (by omega) (by omega)) _) fun words => ?_
  exact same_bind (same_each (fun i => hm.byte (by omega) (by omega)) _) fun last => same_pure _

theorem told_arp (hm : Moved 12 (2 * w) mem mem') {offset : Nat} (ho : 6 ≤ offset) :
    Related mem mem' (Told mem mem' b) (pipIncomingARP cfg h offset)
      (pipIncomingARP cfg h (offset + w)) := by
  refine related_bind (hm.short (by omega) (by omega)) ?_
  refine related_bind (hm.int (by omega) (by omega)) ?_
  refine related_bind (hm.int (by omega) (by omega)) ?_
  have hsha : Same mem mem' (macCopy (2 * offset + 8)) (macCopy (2 * (offset + w) + 8)) :=
    same_macCopy hm (by omega) (by omega)
  refine related_ite (fun _ => ?_) fun _ => related_ite (fun _ => ?_) fun _ => related_pure told_nil
  · refine related_ite (fun _ => related_pure (told_calls fun _ => rfl)) fun _ => ?_
    refine related_ite (fun _ => ?_) fun _ => related_pure told_nil
    exact related_bind hsha (related_pure (told_calls fun _ => rfl))
  · refine related_ite (fun _ => related_pure (told_calls fun _ => rfl)) fun _ => ?_
    exact related_bind hsha (related_pure (told_calls fun _ => rfl))

theorem tcpSegment_moved (hm : Moved 12 (2 * w) mem mem') {offset : Nat} (ho : 6 ≤ offset)
    (srcIP dstIP : Word) (length : Int) :
    tcpSegment mem' (offset + w) srcIP dstIP length = tcpSegment mem offset srcIP dstIP length := by
  have hload : ∀ i, load mem' (2 * (offset + w + i)) = load mem (2 * (offset + i)) :=
    fun i => hm.load (by omega) (by omega)
  have hfirst : load mem' (2 * (offset + w)) = load mem (2 * offset) := hload 0
  have hbyte : ∀ k i, mem' ((offset + w + k * 2) * 2 + i) = mem ((offset + k * 2) * 2 + i) := by
    intro k i
    rw [show (offset + w + k * 2) * 2 + i = (offset + k * 2) * 2 + i + 2 * w by omega]
    exact hm _ (by omega)
  simp only [tcpSegment, hload, hfirst, hbyte]

theorem told_tcp (hm : Moved 12 (2 * w) mem mem') {offset : Nat} (ho : 6 ≤ offset)
    (c : Tcp.Config) (srcIP dstIP : Word) (length : Int) :
    Related mem mem' (Told mem mem' b) (pipIncomingTCP h c offset srcIP dstIP length)
      (pipIncomingTCP h c (offset + w) srcIP dstIP length) := by
  show Told mem mem' b [.segment (tcpSegment mem offset srcIP dstIP length)]
    [.segment (tcpSegment mem' (offset + w) srcIP dstIP length)]
  rw [tcpSegment_moved hm ho]
  exact told_calls fun _ => rfl

theorem same_scanOptions (hm : Moved 12 (2 * w) mem mem') {stop stop' : Int} (fuel : Nat)
    {i j : Nat} (hi : 12 ≤ i) (hj : j = i + 2 * w) (hstop : stop' = stop + 2 * w) :
    Same mem mem' (scanOptions cfg stop fuel i) (scanOptions cfg stop' fuel j) := by
  induction fuel generalizing i j with
  | zero => rfl
  | succ fuel ih =>
    rw [scanOptions, scanOptions]
    have hmore : ((i : Int) < stop) = ((j : Int) < stop') := by
      rw [hj, hstop]
      push_cast
      exact propext (by omega)
    simp only [← hmore]
    refine same_ite (same_bind (hm.byte hi hj) fun type => ?_) (same_pure _)
    refine same_ite (same_pure _) ?_
    refine same_bind (same_each (fun k => hm.byte (by omega) (by omega)) _) fun value => ?_
    refine same_bind (hm.byte (by omega) (by omega)) fun length => ?_
    exact same_bind (ih (by omega) (by omega)) fun rest => same_pure _

theorem told_dhcp (hm : Moved 12 (2 * w) mem mem') {offset : Nat} (ho : 6 ≤ offset)
    (length : Int) :
    Related mem mem' (Told mem mem' b) (pipIncomingDHCP cfg h offset length)
      (pipIncomingDHCP cfg h (offset + w) length) := by
  refine related_bind (hm.short (by omega) (by omega)) ?_
  refine related_ite (fun _ => related_pure told_nil) fun _ => ?_
  refine related_bind (hm.short (by omega) (by omega)) ?_
  refine related_ite (fun _ => related_pure told_nil) fun _ => ?_
  refine related_bind (hm.short (by omega) (by omega)) ?_
  refine related_bind (hm.short (by omega) (by omega)) ?_
  refine related_ite (fun _ => related_pure told_nil) fun _ => ?_
  refine related_bind (hm.int (by omega) (by omega)) ?_
  refine related_bind (same_scanOptions hm _ (by omega) (by omega) (by push_cast; omega)) ?_
  exact related_pure (told_calls fun _ => rfl)

theorem told_tftp (hm : Moved 12 (2 * w) mem mem') {offset : Nat} (ho : 6 ≤ offset)
    (srcPort : Nat) (length : Int) :
    Related mem mem' (Told mem mem' b) (pipIncomingTFTP h srcPort offset length)
      (pipIncomingTFTP h srcPort (offset + w) length) := by
  refine related_bind (hm.short (by omega) (by omega)) ?_
  refine related_ite (fun _ => related_pure told_nil) fun _ => ?_
  refine related_bind (hm.short (by omega) (by omega)) ?_
  exact related_ite (fun _ => told_block _ _ _ _) fun _ => related_pure (told_block _ _ _ _)

theorem told_serve (hm : Moved 12 (2 * w) mem mem') {offset : Nat} (ho : 6 ≤ offset)
    (port : Nat) (length : Int) :
    Related mem mem' (Told mem mem' b) (serveUDPChannels h port offset length)
      (serveUDPChannels h port (offset + w) length) := by
  rw [serveUDPChannels, serveUDPChannels]
  split
  · exact related_pure told_nil
  · split
    · exact related_pure told_nil
    · refine related_bind (same_each (fun j => hm.byte (by omega) (by omega)) _) ?_
      exact related_pure (told_calls fun _ => rfl)

theorem told_udp (hm : Moved 12 (2 * w) mem mem') {offset : Nat} (ho : 6 ≤ offset)
    (remoteIP localIP : Word) :
    Related mem mem' (Told mem mem' b) (pipIncomingUDP cfg h offset remoteIP localIP)
      (pipIncomingUDP cfg h (offset + w) remoteIP localIP) := by
  refine related_bind (hm.short (by omega) (by omega)) ?_
  refine related_bind (hm.short (by omega) (by omega)) ?_
  refine related_bind (hm.short (by omega) (by omega)) ?_
  refine related_bind (same_onesChecksum hm _ _ ho) ?_
  refine related_ite (fun _ => related_pure told_nil) fun _ => ?_
  rw [show offset + w + 4 = offset + 4 + w by omega]
  refine related_ite (fun _ => told_dhcp hm (by omega) _) fun _ => ?_
  exact related_ite (fun _ => told_tftp hm (by omega) _ _) fun _ => told_serve hm (by omega) _ _

theorem value_pipIncomingICMP (icmpOffset : Nat) (srcIP : Word) (length : Int) :
    (pipIncomingICMP h icmpOffset srcIP length).value mem =
      if h.address.myIP ≠ 0 ∧ mem (icmpOffset * 2) = 8 then
        [.pong icmpOffset srcIP (slice mem 34 length.toNat)]
      else [] := by
  rw [pipIncomingICMP, value_bind, value_byte]
  split_ifs with hpong
  · rw [value_bind, value_pure, value_each]
    rfl
  · rfl

theorem told_icmp_iff (hm : Moved 12 (2 * w) mem mem') {icmpOffset : Nat} (ho : 6 ≤ icmpOffset)
    (srcIP : Word) (length : Int) :
    Related mem mem' (Told mem mem' b) (pipIncomingICMP h icmpOffset srcIP length)
        (pipIncomingICMP h (icmpOffset + w) srcIP length) ↔
      (h.address.myIP ≠ 0 ∧ mem (icmpOffset * 2) = 8 →
        message mem icmpOffset length.toNat b = message mem' (icmpOffset + w) length.toNat b) := by
  have htype : mem' ((icmpOffset + w) * 2) = mem (icmpOffset * 2) := by
    rw [show (icmpOffset + w) * 2 = icmpOffset * 2 + 2 * w by omega]
    exact hm _ (by omega)
  rw [Related, value_pipIncomingICMP, value_pipIncomingICMP, htype]
  split_ifs with hpong
  · simp only [Told, List.map_cons, List.map_nil, effect, length_slice, List.cons.injEq, and_true,
      Effect.reply.injEq, true_and, hpong, ne_eq, not_false_eq_true, forall_const]
  · exact iff_of_true told_nil fun h => absurd h hpong

theorem told_dispatch (hm : Moved 12 (2 * w) mem mem') {contentOffset : Nat}
    (ho : 6 ≤ contentOffset) (ipType : BitVec 8) (srcIP dstIP : Word) (length : Int)
    (hicmp : cfg.icmp = true ∧ ipType = 1 →
      Related mem mem' (Told mem mem' b) (pipIncomingICMP h contentOffset srcIP length)
        (pipIncomingICMP h (contentOffset + w) srcIP length)) :
    Related mem mem' (Told mem mem' b) (dispatch cfg h ipType contentOffset srcIP dstIP length)
      (dispatch cfg h ipType (contentOffset + w) srcIP dstIP length) := by
  have hothers : Related mem mem' (Told mem mem' b)
      (dispatch.others cfg h ipType contentOffset srcIP dstIP length)
      (dispatch.others cfg h ipType (contentOffset + w) srcIP dstIP length) := by
    rw [dispatch.others, dispatch.others]
    refine related_ite (fun _ => told_udp hm ho srcIP dstIP) fun _ => ?_
    exact related_ite hicmp fun _ => related_pure told_nil
  rw [dispatch, dispatch]
  split
  · exact related_ite (fun _ => told_tcp hm ho _ srcIP dstIP length) fun _ => hothers
  · exact hothers

section Fields

theorem headerLength_moved (hm : Moved 12 (2 * w) mem mem') {offset : Nat} (ho : 6 ≤ offset) :
    headerLength mem' (offset + w) = headerLength mem offset := by
  rw [headerLength, headerLength, show (offset + w) * 2 = offset * 2 + 2 * w by omega,
    hm _ (by omega)]

theorem contentOffset_moved (hm : Moved 12 (2 * w) mem mem') {offset : Nat} (ho : 6 ≤ offset) :
    contentOffset mem' (offset + w) = contentOffset mem offset + w := by
  rw [contentOffset, contentOffset, headerLength_moved hm ho, Nat.add_assoc]

theorem dataLength_moved (hm : Moved 12 (2 * w) mem mem') {offset : Nat} (ho : 6 ≤ offset) :
    dataLength mem' (offset + w) = dataLength mem offset := by
  rw [dataLength, dataLength, headerLength_moved hm ho, totalLength, totalLength,
    hm.load (a := 2 * (offset + 1)) (by omega) (by omega)]

theorem srcIP_moved (hm : Moved 12 (2 * w) mem mem') {offset : Nat} (ho : 6 ≤ offset) :
    srcIP mem' (offset + w) = srcIP mem offset := hm.word (by omega) (by omega)

theorem dstIP_moved (hm : Moved 12 (2 * w) mem mem') {offset : Nat} (ho : 6 ≤ offset) :
    dstIP mem' (offset + w) = dstIP mem offset := hm.word (by omega) (by omega)

theorem protocol_moved (hm : Moved 12 (2 * w) mem mem') {offset : Nat} (ho : 6 ≤ offset) :
    mem' ((offset + w) * 2 + 9) = mem (offset * 2 + 9) := by
  rw [show (offset + w) * 2 + 9 = offset * 2 + 9 + 2 * w by omega]
  exact hm _ (by omega)

theorem accepted_moved (hm : Moved 12 (2 * w) mem mem') {offset : Nat} (ho : 6 ≤ offset) :
    Accepted h mem' (offset + w) ↔ Accepted h mem offset := by
  rw [Accepted, Accepted, headerLength_moved hm ho, dstIP_moved hm ho]
  have hsum : (onesChecksum 0 offset (headerLength mem offset * 4)).value mem =
      (onesChecksum 0 (offset + w) (headerLength mem offset * 4)).value mem' :=
    same_onesChecksum hm 0 _ ho
  rw [hsum]

end Fields

theorem value_pipIncomingIPv4_dropped {offset : Nat} (hdropped : ¬Accepted h mem offset) :
    (pipIncomingIPv4 cfg h offset).value mem = [] := by
  rw [pipIncomingIPv4, value_bind, value_bind, value_bind, value_bind, value_bind, value_bind]
  by_cases hsum : (onesChecksum 0 offset (headerLength mem offset * 4)).value mem ≠ 0
  · exact value_if_pos mem hsum _ _
  · refine (value_if_neg mem hsum _ _).trans ?_
    have hforeign : foreign h (dstIP mem offset) = true := by
      by_contra hmine
      exact hdropped ⟨not_not.mp hsum, Bool.eq_false_iff.mpr hmine⟩
    exact value_if_pos mem hforeign _ _

-- Only the reply to an echo request may tell the two frames apart.
theorem told_ipv4_iff (hm : Moved 12 (2 * w) mem mem') (hfirst : ∀ i < 12, mem' i = mem i)
    {offset : Nat} (ho : 6 ≤ offset) :
    Related mem mem' (Told mem mem' b) (pipIncomingIPv4 cfg h offset)
        (pipIncomingIPv4 cfg h (offset + w)) ↔
      (Accepted h mem offset → IsIcmp cfg mem offset →
        h.address.myIP ≠ 0 ∧ mem (contentOffset mem offset * 2) = 8 →
          message mem (contentOffset mem offset) (dataLength mem offset).toNat b =
            message mem' (contentOffset mem offset + w) (dataLength mem offset).toNat b) := by
  have hcontent : 6 ≤ contentOffset mem offset := by
    rw [contentOffset]
    omega
  have hicmp := told_icmp_iff (h := h) (b := b) hm hcontent (srcIP mem offset)
    (dataLength mem offset)
  by_cases haccepted : Accepted h mem offset
  · have hmac : slice mem' 6 6 = slice mem 6 6 :=
      slice_congr fun i hi => hfirst (6 + i) (by omega)
    rw [Related, value_pipIncomingIPv4 haccepted,
      value_pipIncomingIPv4 ((accepted_moved hm ho).mpr haccepted), srcIP_moved hm ho,
      dstIP_moved hm ho, dataLength_moved hm ho, contentOffset_moved hm ho, protocol_moved hm ho,
      hmac]
    have hcons : ∀ cs cs' : List Frame.Call, Told mem mem' b
        (.store (srcIP mem offset) (slice mem 6 6) :: cs)
        (.store (srcIP mem offset) (slice mem 6 6) :: cs') ↔ Told mem mem' b cs cs' := by
      intro cs cs'
      simp only [Told, List.map_cons, List.cons.injEq, effect, true_and]
    rw [hcons]
    constructor
    · intro htold _ hisIcmp
      rw [value_dispatch_icmp hisIcmp, value_dispatch_icmp hisIcmp] at htold
      exact hicmp.mp htold
    · intro hsame
      exact told_dispatch hm hcontent _ _ _ _ fun h => hicmp.mpr (hsame haccepted h)
  · rw [Related, value_pipIncomingIPv4_dropped haccepted,
      value_pipIncomingIPv4_dropped ((accepted_moved hm ho).not.mpr haccepted)]
    exact iff_of_true told_nil fun h => absurd h haccepted

end Moves

section Messages

variable {mem mem' : Bytes} {b : Buffer}

theorem store_congr {a i : Nat} (v : BitVec 16) (h : i ≠ a → i ≠ a + 1 → mem' i = mem i) :
    store mem' a v i = store mem a v i := by
  rw [store, store]
  split_ifs with h1 h2
  · rfl
  · rfl
  · exact h h1 h2

theorem message_eq_iff (icmpOffset icmpOffset' length : Nat) :
    message mem icmpOffset length b = message mem' icmpOffset' length b ↔
      ∀ i < length, i < 2 ∨ 4 ≤ i →
        (if 34 + i = 2 * icmpOffset then 0 else mem (34 + i)) =
          if 34 + i = 2 * icmpOffset' then 0 else mem' (34 + i) := by
  constructor
  · intro heq i hi hplace
    have hbyte := congrArg (fun l : List (BitVec 8) => l.getD i 0) heq
    simp only [message] at hbyte
    rw [getD_slice _ _ hi, getD_slice _ _ hi, store_other _ (by omega), store_other _ (by omega),
      store_other _ (by omega), store_other _ (by omega), copied_eq hi, copied_eq hi] at hbyte
    exact hbyte
  · intro h
    -- With the places of the checksum cleared the two agree, and so do their sums.
    have hcleared : ∀ i < length, store (copied mem icmpOffset length b) 36 0 (34 + i) =
        store (copied mem' icmpOffset' length b) 36 0 (34 + i) := by
      intro i hi
      apply store_congr
      intro h1 h2
      rw [copied_eq hi, copied_eq hi]
      exact h i hi (by omega)
    have hsum : (onesChecksum 0 17 length).value
        (store (copied mem icmpOffset length b) 36 0) =
          (onesChecksum 0 17 length).value (store (copied mem' icmpOffset' length b) 36 0) := by
      have hslice : slice (store (copied mem icmpOffset length b) 36 0) (2 * 17) length =
          slice (store (copied mem' icmpOffset' length b) 36 0) (2 * 17) length :=
        slice_congr fun i hi => hcleared i hi
      apply BitVec.eq_of_toNat_eq
      rw [value_onesChecksum, value_onesChecksum, packetSum, packetSum, hslice]
    rw [message, message, hsum]
    exact slice_congr fun i hi => store_congr _ fun _ _ => hcleared i hi

end Messages

section Loader

variable {n m : Nat} {cfg : Config} {h : Host n m} {mem mem' : Bytes} {w : Nat}

open Xtcp.Pip.Tftp

theorem half_moved (hm : Moved 12 (2 * w) mem mem') {i : Nat} (hi : 6 ≤ i) :
    half mem' (i + w) = half mem i := by
  rw [half, half, hm.load (a := 2 * i) (by omega) (by omega)]

def dataBase (s : Loader) (mem : Bytes) (offset : Nat) : Int :=
  s.address + ((half mem (offset + 1) : Int) - 1) * blockSize

-- What is left of the length when the place of the data has been taken from it.
def dataLeft (offset : Nat) (length : Int) : Int := length - (offset * 2 + 4 : Nat)

def Taken (s : Loader) (mem : Bytes) (srcPort offset : Nat) : Prop :=
  (srcPort = s.clientPort ∨ s.clientPort = tftpServerPort) ∧ half mem offset = data

-- Neither what is stored nor the end of the file is another for a block w shorts further on.
def Steady (s : Loader) (mem : Bytes) (offset : Nat) (length : Int) (w : Nat) : Prop :=
  (ourBase ≤ dataBase s mem offset ∨ dataLeft offset length ≤ 0) ∧
    dataLeft offset length ≠ blockSize ∧ dataLeft offset length ≠ blockSize + 2 * w

theorem arrived_moved (hm : Moved 12 (2 * w) mem mem') {offset : Nat} (ho : 6 ≤ offset)
    (length : Int) : arrived mem' (offset + w) length = arrived mem offset length := by
  have hbyte : ∀ j, mem' (2 * (offset + w) + 4 + j) = mem (2 * offset + 4 + j) := by
    intro j
    rw [show 2 * (offset + w) + 4 + j = 2 * offset + 4 + j + 2 * w by omega]
    exact hm _ (by omega)
  rw [arrived, arrived, show offset + w + 1 = offset + 1 + w by omega,
    half_moved hm (by omega : 6 ≤ offset + 1)]
  simp only [hbyte]

theorem length_stores (packet : Bytes) (start : Nat) (base length : Int) :
    (stores packet start base length).length = if base < ourBase then length.toNat else 0 := by
  rw [stores]
  split_ifs
  · rw [List.length_map, List.length_range]
  · rfl

theorem incomingData_log (packet : Bytes) (offset : Nat) (length : Int) (s : Loader) :
    (incomingData packet offset length s).log.length = s.log.length +
      (arrived packet offset length).length +
      (stores packet (offset * 2 + 4) (s.address + ((s.nextAck : Int) - 1) * blockSize)
        (dataLeft offset length)).length + 1 +
      if dataLeft offset length ≠ blockSize then 1 else 0 := by
  rw [incomingData, dataLeft]
  dsimp only
  split_ifs
  · simp only [Tftp.pipAcknowledgeTFTP, Tftp.doSend, Loader.note, List.length_append,
      List.length_cons, List.length_nil]
    omega
  · simp only [Tftp.pipAcknowledgeTFTP, Tftp.doSend, Loader.note, List.length_append,
      List.length_cons, List.length_nil]
    omega

theorem stores_nil {packet : Bytes} {start : Nat} {base length : Int}
    (h : ourBase ≤ base ∨ length ≤ 0) : stores packet start base length = [] := by
  rw [stores]
  split_ifs with hbase
  · rw [show length.toNat = 0 by omega]
    rfl
  · rfl

theorem incomingData_moved_iff (hm : Moved 12 (2 * w) mem mem') {offset : Nat} (ho : 6 ≤ offset)
    (length : Int) (hw : 0 < w) {s : Loader} (hack : s.nextAck = half mem (offset + 1)) :
    incomingData mem' (offset + w) length s = incomingData mem offset length s ↔
      Steady s mem offset length w := by
  have hleft : dataLeft (offset + w) length = dataLeft offset length - 2 * w := by
    rw [dataLeft, dataLeft]
    push_cast
    omega
  have hbase : s.address + ((s.nextAck : Int) - 1) * blockSize = dataBase s mem offset := by
    rw [dataBase, hack]
  have harrived := arrived_moved hm ho length
  have h512 : blockSize = 512 := rfl
  constructor
  · intro heq
    have hlog := congrArg (fun s : Loader => s.log.length) heq
    rw [incomingData_log, incomingData_log, harrived, length_stores, length_stores, hbase, hleft]
      at hlog
    rw [Steady]
    split_ifs at hlog <;> omega
  · rintro ⟨hnone, hend, hend'⟩
    have hstores : ∀ (packet : Bytes) (start : Nat) (left : Int), left ≤ dataLeft offset length →
        stores packet start (dataBase s mem offset) left = [] :=
      fun _ _ left hleft => stores_nil (hnone.imp_right fun h => by omega)
    have hmore : dataLeft (offset + w) length ≠ blockSize := by omega
    rw [incomingData, incomingData]
    dsimp only
    rw [← dataLeft, ← dataLeft, harrived, hbase, hstores _ _ _ (Int.le_refl _),
      hstores _ _ _ (by omega), if_pos hend, if_pos hmore]

theorem pipIncomingTFTP_moved_iff (hm : Moved 12 (2 * w) mem mem') {offset : Nat} (ho : 6 ≤ offset)
    (srcPort : Nat) (length : Int) (hw : 0 < w) (s : Loader) :
    Tftp.pipIncomingTFTP mem' srcPort (offset + w) length s =
        Tftp.pipIncomingTFTP mem srcPort offset length s ↔
      (Taken s mem srcPort offset → Steady s mem offset length w) := by
  have hack : half mem' (offset + w + 1) = half mem (offset + 1) := by
    rw [Nat.add_right_comm]
    exact half_moved hm (by omega)
  rw [Tftp.pipIncomingTFTP, Tftp.pipIncomingTFTP]
  dsimp only
  rw [hack, half_moved hm ho]
  split_ifs with hsource hopcode
  · exact iff_of_true rfl fun htaken => absurd htaken.1 (by omega)
  · have hdata := incomingData_moved_iff hm ho length hw
      (s := { s with clientPort := srcPort, nextAck := half mem (offset + 1) }) rfl
    rw [hdata]
    exact ⟨fun hsteady _ => hsteady, fun hsteady => hsteady ⟨by omega, hopcode⟩⟩
  · exact iff_of_true rfl fun htaken => absurd htaken.2 hopcode

end Loader

section Reached

variable {n m : Nat} (cfg : Config) (h : Host n m) (mem : Bytes)

instance (offset : Nat) : Decidable (Accepted h mem offset) := inferInstanceAs (Decidable (_ ∧ _))

instance (offset : Nat) : Decidable (IsUdp cfg mem offset) := inferInstanceAs (Decidable (_ ∧ _))

instance (srcIP dstIP : Word) (offset : Nat) : Decidable (UdpValid mem srcIP dstIP offset) :=
  inferInstanceAs (Decidable (_ = _))

instance (offset : Nat) : Decidable (IsDhcp cfg mem offset) := inferInstanceAs (Decidable (_ ∧ _))

instance (offset : Nat) : Decidable (IsTftp cfg h mem offset) :=
  inferInstanceAs (Decidable (_ ∧ _))

-- The packets that pipIncomingUDP hands to pipIncomingTFTP.
def TftpReached (offset : Nat) : Prop :=
  Accepted h mem offset ∧ IsUdp cfg mem offset ∧
    UdpValid mem (srcIP mem offset) (dstIP mem offset) (contentOffset mem offset) ∧
    ¬IsDhcp cfg mem (contentOffset mem offset) ∧ IsTftp cfg h mem (contentOffset mem offset)

instance (offset : Nat) : Decidable (TftpReached cfg h mem offset) :=
  inferInstanceAs (Decidable (_ ∧ _ ∧ _ ∧ ¬_ ∧ _))

def loaderAfter : Option (Handler × Nat) → Tftp.Loader
  | some (.ipv4, offset) =>
    if TftpReached cfg h mem offset then
      Tftp.pipIncomingTFTP mem (remotePort mem (contentOffset mem offset))
        (contentOffset mem offset + 4) (udpLength mem (contentOffset mem offset) - 8) h.loader
    else h.loader
  | _ => h.loader

-- A boot loader has TFTP and DHCP.
theorem loaderAfter_udp {offset : Nat} (hdhcp : cfg.address.dhcp = true) (htftp : cfg.tftp = true)
    (haccepted : Accepted h mem offset) (hudp : IsUdp cfg mem offset)
    (hvalid : UdpValid mem (srcIP mem offset) (dstIP mem offset) (contentOffset mem offset)) :
    loaderAfter cfg h mem (some (.ipv4, offset)) =
      Tftp.pipIncomingUDP mem (contentOffset mem offset) h.loader := by
  have hreached : TftpReached cfg h mem offset ↔
      localPort mem (contentOffset mem offset) ≠ 0x44 ∧
        localPort mem (contentOffset mem offset) = h.loader.pipPortTFTP :=
    ⟨fun hr => ⟨fun hport => hr.2.2.2.1 ⟨hdhcp, hport⟩, hr.2.2.2.2.2⟩,
      fun hports => ⟨haccepted, hudp, hvalid, fun hd => hports.1 hd.2, htftp, hports.2⟩⟩
  have hport : Tftp.half mem (contentOffset mem offset + 1) =
      localPort mem (contentOffset mem offset) := rfl
  rw [loaderAfter, Tftp.pipIncomingUDP, hport, if_congr hreached rfl rfl]
  split_ifs with hboth hfirst hsecond hfirst hsecond
  · exact absurd hfirst hboth.1
  · rfl
  · exact absurd hboth.2 hsecond
  · rfl
  · exact absurd ⟨hfirst, hsecond⟩ hboth
  · rfl

variable {cfg h mem} {mem' : Bytes} {w : Nat}

theorem tftpReached_moved (hm : Moved 12 (2 * w) mem mem') {offset : Nat} (ho : 6 ≤ offset) :
    TftpReached cfg h mem' (offset + w) ↔ TftpReached cfg h mem offset := by
  have hcontent : 6 ≤ contentOffset mem offset := by
    rw [contentOffset]
    omega
  have hshort : ∀ i, load mem' (2 * (contentOffset mem offset + w + i)) =
      load mem (2 * (contentOffset mem offset + i)) := fun i => hm.load (by omega) (by omega)
  have hsum := fun sum len => same_onesChecksum hm sum len hcontent
  rw [TftpReached, TftpReached, accepted_moved hm ho, IsUdp, IsUdp, protocol_moved hm ho,
    contentOffset_moved hm ho, srcIP_moved hm ho, dstIP_moved hm ho, UdpValid, UdpValid, udpLength,
    udpLength, hshort, ← (hsum _ _ : _ = _), IsDhcp, IsDhcp, IsTftp, IsTftp, localPort, localPort,
    hshort]

-- No block is another block at another place.
def BlockSteady (cfg : Config) (h : Host n m) (mem : Bytes) (offset w : Nat) : Prop :=
  TftpReached cfg h mem offset →
    Taken h.loader mem (remotePort mem (contentOffset mem offset))
      (contentOffset mem offset + 4) →
    Steady h.loader mem (contentOffset mem offset + 4)
      (udpLength mem (contentOffset mem offset) - 8) w

theorem loaderAfter_moved_iff (hm : Moved 12 (2 * w) mem mem') {offset : Nat} (ho : 6 ≤ offset)
    (hw : 0 < w) :
    loaderAfter cfg h mem' (some (.ipv4, offset + w)) =
        loaderAfter cfg h mem (some (.ipv4, offset)) ↔ BlockSteady cfg h mem offset w := by
  have hcontent : 6 ≤ contentOffset mem offset := by
    rw [contentOffset]
    omega
  rw [loaderAfter, loaderAfter, BlockSteady, if_congr (tftpReached_moved hm ho) rfl rfl]
  split_ifs with hreached
  · have hport : remotePort mem' (contentOffset mem offset + w) =
        remotePort mem (contentOffset mem offset) := by
      rw [remotePort, remotePort, hm.load (a := 2 * contentOffset mem offset) (by omega) (by omega)]
    have hlength : udpLength mem' (contentOffset mem offset + w) =
        udpLength mem (contentOffset mem offset) := by
      rw [udpLength, udpLength,
        hm.load (a := 2 * (contentOffset mem offset + 2)) (by omega) (by omega)]
    rw [contentOffset_moved hm ho, hport, hlength, Nat.add_right_comm,
      pipIncomingTFTP_moved_iff hm (by omega) _ _ hw]
    exact ⟨fun hsteady _ => hsteady, fun hsteady => hsteady hreached⟩
  · exact iff_of_true rfl fun h => absurd h hreached

end Reached

section Claim

variable {n m : Nat} {cfg : Config} {h : Host n m} {b : Buffer} {nBytes : Nat} {frame : Bytes}
  {tcis : List (BitVec 16)}

-- The tags are passed, and nothing else tells the tagged frame from the frame.
structure Unseen (cfg : Config) (h : Host n m) (b : Buffer) (nBytes : Nat) (frame : Bytes)
    (tcis : List (BitVec 16)) : Prop where
  dispatched : dispatched cfg (nBytes + 4 * tcis.length) (taggedFrame frame tcis) =
    (dispatched cfg nBytes frame).map fun d => (d.1, d.2 + 2 * tcis.length)
  effects : Told frame (taggedFrame frame tcis) b
    ((pipIncomingEthernet cfg h nBytes).value frame)
    ((pipIncomingEthernet cfg h (nBytes + 4 * tcis.length)).value (taggedFrame frame tcis))
  loader : loaderAfter cfg h (taggedFrame frame tcis)
      (Frame.dispatched cfg (nBytes + 4 * tcis.length) (taggedFrame frame tcis)) =
    loaderAfter cfg h frame (Frame.dispatched cfg nBytes frame)

-- No reply has other bytes where it is copied from.
def EchoSteady (cfg : Config) (h : Host n m) (frame : Bytes) (tcis : List (BitVec 16)) : Prop :=
  Accepted h frame 7 → IsIcmp cfg frame 7 →
    h.address.myIP ≠ 0 ∧ frame (contentOffset frame 7 * 2) = 8 →
      ∀ i < (dataLength frame 7).toNat, i < 2 ∨ 4 ≤ i →
        (if 34 + i = 2 * contentOffset frame 7 then 0 else frame (34 + i)) =
          if 34 + i = 2 * (contentOffset frame 7 + 2 * tcis.length) then 0
          else taggedFrame frame tcis (34 + i)

def TagsPass (cfg : Config) (h : Host n m) (frame : Bytes) (tcis : List (BitVec 16)) : Prop :=
  match handler cfg (load frame 12) with
  | none => ∀ tci, tcis.find? (· ≠ 0x8100) = some tci → handler cfg (typeOf tci) = none
  | some .arp => ∀ tci ∈ tcis, tci = 0x8100
  | some .ipv4 => (∀ tci ∈ tcis, tci = 0x8100) ∧ EchoSteady cfg h frame tcis ∧
      BlockSteady cfg h frame 7 (2 * tcis.length)

theorem taggedFrame_nil (frame : Bytes) : taggedFrame frame [] = frame := by
  funext i
  rw [taggedFrame, List.length_nil]
  split_ifs
  · rfl
  · rfl

theorem unseen_nil : Unseen cfg h b nBytes frame [] := by
  refine ⟨?_, ?_, ?_⟩
  · rw [taggedFrame_nil]
    cases dispatched cfg nBytes frame <;> rfl
  · rw [taggedFrame_nil]
    rfl
  · rw [taggedFrame_nil]
    rfl

theorem unseen_none (htype : load frame 12 ≠ 0x0081)
    (hnone : handler cfg (load frame 12) = none) :
    Unseen cfg h b nBytes frame tcis ↔
      ∀ tci, tcis.find? (· ≠ 0x8100) = some tci → handler cfg (typeOf tci) = none := by
  have hplain : dispatched cfg nBytes frame = none := by
    rw [dispatched_plain htype, hnone]
    rfl
  have hiff : dispatched cfg (nBytes + 4 * tcis.length) (taggedFrame frame tcis) = none ↔
      ∀ tci, tcis.find? (· ≠ 0x8100) = some tci → handler cfg (typeOf tci) = none := by
    cases hfind : tcis.find? (· ≠ 0x8100) with
    | none =>
      rw [dispatched_taggedFrame htype (find_other_iff.mp hfind), hnone]
      exact iff_of_true rfl fun tci htci => absurd htci.symm (Option.some_ne_none tci)
    | some tci =>
      obtain ⟨k, hk⟩ : ∃ k, dispatched cfg (nBytes + 4 * tcis.length) (taggedFrame frame tcis) =
          (handler cfg (typeOf tci)).map fun called => (called, 7 + (2 * k + 1)) :=
        dispatched_misread hfind
      rw [hk, Option.map_eq_none_iff]
      exact ⟨fun hun tci' htci => Option.some.inj htci ▸ hun, fun hun => hun tci rfl⟩
  rw [← hiff]
  constructor
  · intro hunseen
    rw [hunseen.dispatched, hplain]
    rfl
  · intro hdropped
    refine ⟨?_, ?_, ?_⟩
    · rw [hdropped, hplain]
      rfl
    · rw [value_pipIncomingEthernet, value_pipIncomingEthernet, hdropped, hplain]
      exact told_nil
    · rw [hdropped, hplain]
      rfl

theorem unseen_some {called : Handler} (hcalled : handler cfg (load frame 12) = some called)
    (htype : load frame 12 ≠ 0x0081) :
    Unseen cfg h b nBytes frame tcis ↔ (∀ tci ∈ tcis, tci = 0x8100) ∧
      Related frame (taggedFrame frame tcis) (Told frame (taggedFrame frame tcis) b)
        (calling cfg h (some (called, 7)))
        (calling cfg h (some (called, 7 + 2 * tcis.length))) ∧
      loaderAfter cfg h (taggedFrame frame tcis) (some (called, 7 + 2 * tcis.length)) =
        loaderAfter cfg h frame (some (called, 7)) := by
  have hplain : dispatched cfg nBytes frame = some (called, 7) := by
    rw [dispatched_plain htype, hcalled]
    rfl
  have hiff : dispatched cfg (nBytes + 4 * tcis.length) (taggedFrame frame tcis) =
      some (called, 7 + 2 * tcis.length) ↔ ∀ tci ∈ tcis, tci = 0x8100 := dispatched_iff hcalled
  constructor
  · rintro ⟨hdispatched, heffects, hloader⟩
    rw [hplain] at hdispatched
    rw [value_pipIncomingEthernet, value_pipIncomingEthernet, hdispatched, hplain] at heffects
    rw [hdispatched, hplain] at hloader
    exact ⟨hiff.mp hdispatched, heffects, hloader⟩
  · rintro ⟨hall, heffects, hloader⟩
    have hdispatched := hiff.mpr hall
    refine ⟨?_, ?_, ?_⟩
    · rw [hdispatched, hplain]
      rfl
    · rw [value_pipIncomingEthernet, value_pipIncomingEthernet, hdispatched, hplain]
      exact heffects
    · rw [hdispatched, hplain]
      exact hloader

theorem moved_tags (frame : Bytes) (tcis : List (BitVec 16)) :
    Moved 12 (2 * (2 * tcis.length)) frame (taggedFrame frame tcis) := by
  rw [show 2 * (2 * tcis.length) = 4 * tcis.length by omega]
  exact moved_taggedFrame frame tcis

theorem echoSteady_iff :
    Related frame (taggedFrame frame tcis) (Told frame (taggedFrame frame tcis) b)
        (pipIncomingIPv4 cfg h 7) (pipIncomingIPv4 cfg h (7 + 2 * tcis.length)) ↔
      EchoSteady cfg h frame tcis := by
  rw [told_ipv4_iff (moved_tags frame tcis) (fun i hi => taggedFrame_address hi) (by decide),
    message_eq_iff, EchoSteady]

theorem vlan_exact (cfg : Config) (h : Host n m) (b : Buffer) (nBytes : Nat) (frame : Bytes)
    (tcis : List (BitVec 16)) (hframe : load frame 12 = 0x0008 ∨ load frame 12 = 0x0608) :
    Unseen cfg h b nBytes frame tcis ↔ tcis = [] ∨ TagsPass cfg h frame tcis := by
  have htype : load frame 12 ≠ 0x0081 := by
    rcases hframe with hipv4 | harp
    · rw [hipv4]
      decide
    · rw [harp]
      decide
  by_cases hnil : tcis = []
  · rw [hnil]
    exact iff_of_true unseen_nil (Or.inl rfl)
  · have hlength : 0 < tcis.length := List.length_pos_iff.mpr hnil
    rw [or_iff_right hnil, TagsPass]
    cases hcalled : handler cfg (load frame 12) with
    | none => exact unseen_none htype hcalled
    | some called =>
      rw [unseen_some hcalled htype]
      cases called with
      | arp =>
        have htold : Related frame (taggedFrame frame tcis)
            (Told frame (taggedFrame frame tcis) b) (pipIncomingARP cfg h 7)
            (pipIncomingARP cfg h (7 + 2 * tcis.length)) :=
          told_arp (moved_tags frame tcis) (by decide)
        exact ⟨fun hunseen => hunseen.1, fun hall => ⟨hall, htold, rfl⟩⟩
      | ipv4 =>
        exact and_congr_right fun _ => and_congr echoSteady_iff
          (loaderAfter_moved_iff (moved_tags frame tcis) (by decide) (by omega))

def arpQuestion : Bytes := fun i =>
  (List.replicate 12 0 ++ [8, 6, 0, 1, 8, 0, 6, 4, 0, 1] : List (BitVec 8)).getD i 0

theorem vlan_exact_arp :
    Unseen echoOnly listening ⟨fun _ => 0, 0⟩ 60 arpQuestion [0x8100, 0x8100] := by
  have hpass : TagsPass echoOnly listening arpQuestion [0x8100, 0x8100] := by
    rw [TagsPass, show handler echoOnly (load arpQuestion 12) = some .arp by decide +kernel]
    intro tci htci
    simpa using htci
  exact (vlan_exact echoOnly listening ⟨fun _ => 0, 0⟩ 60 arpQuestion [0x8100, 0x8100]
    (Or.inr (by decide +kernel))).mpr (Or.inr hpass)

-- The number of the network is taken for the type.
theorem vlan_tag_not_skipped :
    ¬∀ (n m : Nat) (cfg : Config) (h : Host n m) (b : Buffer) (nBytes : Nat) (frame : Bytes)
      (tcis : List (BitVec 16)), load frame 12 = 0x0008 ∨ load frame 12 = 0x0608 →
        Unseen cfg h b nBytes frame tcis := by
  intro hall
  have hunseen := hall 0 1 echoOnly listening ⟨fun _ => 0, 0⟩ 42 plainPing [0x0001]
    (Or.inl (by decide))
  have hplain : dispatched echoOnly 42 plainPing = some (.ipv4, 7) := by decide +kernel
  have htagged : dispatched echoOnly 46 (taggedFrame plainPing [0x0001]) = none := by
    decide +kernel
  have hdispatched := hunseen.dispatched
  rw [hplain] at hdispatched
  exact Option.some_ne_none _ (hdispatched.symm.trans htagged)

end Claim

end Xtcp.Pip.Wire
