import Xtcp.Pip.Address.ArpExpiry
import Xtcp.Pip.Frame.Bounds
import Xtcp.Pip.Frame.Sum

namespace Xtcp.Pip.Wire

open Halfword Reading Xtcp.Segment Xtcp.Pip.Frame

structure Buffer where
  txbuf : Bytes
  txbufLength : Nat

def adjustBufLength (offset : Nat) (b : Buffer) : Buffer :=
  if b.txbufLength < offset then { b with txbufLength := offset } else b

def txInt (offset : Nat) (x : Word) (b : Buffer) : Buffer :=
  adjustBufLength (offset * 2 + 4) { b with txbuf := storeWord b.txbuf (offset * 2) x }

def txShort (offset : Nat) (x : Word) (b : Buffer) : Buffer :=
  adjustBufLength (offset * 2 + 2) { b with txbuf := store b.txbuf (offset * 2) (x.setWidth 16) }

def txShortRev (offset : Nat) (x : Word) (b : Buffer) : Buffer :=
  txShort offset (byterev x >>> 16) b

def txByte (offset : Nat) (x : BitVec 8) (b : Buffer) : Buffer :=
  adjustBufLength (offset + 1) { b with txbuf := Function.update b.txbuf offset x }

def txData (offset : Nat) (data : Bytes) (dataOffset n : Nat) (b : Buffer) : Buffer :=
  adjustBufLength (offset * 2 + n) { b with
    txbuf := fun i =>
      if offset * 2 ≤ i ∧ i < offset * 2 + n then data (i - offset * 2 + dataOffset)
      else b.txbuf i }

def txShortZeroes (offset len : Nat) (b : Buffer) : Buffer :=
  adjustBufLength ((offset + len) * 2) { b with
    txbuf := fun i => if offset * 2 ≤ i ∧ i < (offset + len) * 2 then 0 else b.txbuf i }

def txClear (b : Buffer) : Buffer := { b with txbufLength := 0 }

section Messages

variable (cfg : Address.Config) (s : Address.Host)

def macBytes (mac : Address.Mac) : Bytes := fun i => mac.getD i 0

def pipOutgoingEthernet (macDest : Address.Mac) (revType : Word) (b : Buffer) : Buffer :=
  txShort 6 revType (txData 3 cfg.myMacAddress 0 6 (txData 0 (macBytes macDest) 0 6 b))

-- offset is -1 for a broadcast.
def pipCreateARP (reply : Bool) (tpa : Word) (tha : Option Address.Mac) (b : Buffer) : Buffer :=
  let b := txInt 7 0x00080100 (txInt 32 0 b)
  let b := txInt 9 (0x01000406 + if reply then 0x01000000 else 0) b
  let b := txData 11 cfg.myMacAddress 0 6 b
  let b := txInt 19 (byterev tpa) (txInt 14 (byterev s.myIP) b)
  match tha with
  | none => pipOutgoingEthernet cfg Address.broadcast 0x0608 (txShortZeroes 16 3 b)
  | some mac => pipOutgoingEthernet cfg mac 0x0608 (txData 16 (macBytes mac) 0 6 b)

def ipv4Header (ipType : BitVec 8) (ipDst : Word) (totalLength : Nat) (b : Buffer) : Buffer :=
  let b := txShort 7 0x0045 b
  let b := txShortRev 8 (BitVec.ofNat 32 totalLength) b
  let b := txInt 9 0 b
  let b := txShort 11 (0xff ||| ipType.setWidth 32 <<< 8) b
  let b := txShort 12 0 b
  let b := txInt 13 (byterev s.myIP) b
  let b := txInt 15 (byterev ipDst) b
  txShort 12 ((onesChecksum 0 7 20).value b.txbuf) b

def pipOutgoingIPv4 (ipType : BitVec 8) (ipDst : Word) (length : Nat) (b : Buffer) : Buffer :=
  let b := ipv4Header s ipType ipDst (length + 20) b
  match Address.pipOutgoingIPv4 cfg ipDst s with
  | .frame macDest => pipOutgoingEthernet cfg macDest 0x0008 b
  | .request tpa =>
    pipCreateARP cfg s false tpa (some (s.pipArpTable 0).macAddr) (txClear b)

def udpHeader (remoteIP localPort remotePort : Word) (length : Nat) (b : Buffer) : Buffer :=
  let totalLength := length + 8
  let b := txShortRev 17 localPort b
  let b := txShortRev 18 remotePort b
  let b := txShortRev 19 (BitVec.ofNat 32 totalLength) b
  let b := txShort 20 0 b
  txShort 20 ((onesChecksum (0x0011 + BitVec.ofNat 32 totalLength + onesAdd s.myIP remoteIP) 17
    totalLength).value b.txbuf) b

def pipOutgoingUDP (remoteIP localPort remotePort : Word) (length : Nat) (b : Buffer) : Buffer :=
  pipOutgoingIPv4 cfg s 17 remoteIP (length + 8)
    (udpHeader s remoteIP localPort remotePort length b)

-- The reply of pipIncomingICMP.
def pong (packet : Bytes) (icmpOffset : Nat) (srcIP : Word) (length : Nat) (b : Buffer) : Buffer :=
  let b := txData 17 packet 34 length b
  let b := txByte (icmpOffset * 2) 0 b
  let b := txShort 18 0 b
  let b := txShort 18 ((onesChecksum 0 17 length).value b.txbuf) b
  pipOutgoingIPv4 cfg s 1 srcIP length b

end Messages

section Places

@[simp] theorem txbuf_adjustBufLength (offset : Nat) (b : Buffer) :
    (adjustBufLength offset b).txbuf = b.txbuf := by
  rw [adjustBufLength]
  split_ifs <;> rfl

@[simp] theorem txbuf_txInt (offset : Nat) (x : Word) (b : Buffer) :
    (txInt offset x b).txbuf = storeWord b.txbuf (offset * 2) x := txbuf_adjustBufLength ..

@[simp] theorem txbuf_txShort (offset : Nat) (x : Word) (b : Buffer) :
    (txShort offset x b).txbuf = store b.txbuf (offset * 2) (x.setWidth 16) :=
  txbuf_adjustBufLength ..

@[simp] theorem txbuf_txShortRev (offset : Nat) (x : Word) (b : Buffer) :
    (txShortRev offset x b).txbuf =
      store b.txbuf (offset * 2) ((byterev x >>> 16).setWidth 16) := txbuf_adjustBufLength ..

theorem txData_other {offset n i : Nat} (data : Bytes) (dataOffset : Nat) (b : Buffer)
    (h : i < offset * 2 ∨ offset * 2 + n ≤ i) :
    (txData offset data dataOffset n b).txbuf i = b.txbuf i := by
  rw [txData, txbuf_adjustBufLength]
  exact if_neg (by omega)

theorem txData_same {offset n i : Nat} (data : Bytes) (dataOffset : Nat) (b : Buffer)
    (h : i < n) : (txData offset data dataOffset n b).txbuf (offset * 2 + i) =
      data (i + dataOffset) := by
  rw [txData, txbuf_adjustBufLength]
  show (if _ then _ else _) = _
  rw [if_pos (by omega), Nat.add_sub_cancel_left]

theorem pipOutgoingEthernet_other {cfg : Address.Config} {i : Nat} (macDest : Address.Mac)
    (revType : Word) (b : Buffer) (h : 14 ≤ i) :
    (pipOutgoingEthernet cfg macDest revType b).txbuf i = b.txbuf i := by
  rw [pipOutgoingEthernet, txbuf_txShort, store_other _ (by omega), txData_other _ _ _ (by omega),
    txData_other _ _ _ (by omega)]

theorem load_storeWord_other {mem : Bytes} {a b : Nat} (x : Word) (h : b + 2 ≤ a ∨ a + 4 ≤ b) :
    load (storeWord mem a x) b = load mem b := by
  unfold load
  rw [storeWord_other x (by omega), storeWord_other x (by omega)]

theorem word_store_other {mem : Bytes} {a b : Nat} (v : BitVec 16) (h : b + 4 ≤ a ∨ a + 2 ≤ b) :
    word (store mem a v) b = word mem b :=
  word_congr fun _ _ => store_other v (by omega)

theorem word_storeWord_other {mem : Bytes} {a b : Nat} (x : Word) (h : b + 4 ≤ a ∨ a + 4 ≤ b) :
    word (storeWord mem a x) b = word mem b :=
  word_congr fun _ _ => storeWord_other x (by omega)

theorem low_load (mem : Bytes) (a : Nat) : (load mem a).setWidth 8 = mem a := by
  apply BitVec.eq_of_toNat_eq
  have h := (mem a).isLt
  rw [BitVec.toNat_setWidth, toNat_load]
  omega

theorem store_high (mem : Bytes) (a : Nat) (v : BitVec 16) :
    store mem a v (a + 1) = v.extractLsb' 8 8 := by
  rw [store, if_neg (Nat.succ_ne_self a), if_pos rfl]

theorem rev_byterev (x : Word) (h : x.toNat < 65536) :
    (rev ((byterev x >>> 16).setWidth 16)).toNat = x.toNat := by
  have hx : (x.setWidth 16).setWidth 32 = x := by
    apply BitVec.eq_of_toNat_eq
    rw [BitVec.toNat_setWidth, BitVec.toNat_setWidth]
    omega
  have hrev : (byterev x >>> 16).toNat = swapped x.toNat := by
    rw [← hx, ← rev, toNat_rev, BitVec.toNat_setWidth, BitVec.toNat_setWidth, BitVec.toNat_setWidth]
    congr 1
    omega
  have hlt : swapped x.toNat < 65536 := by
    rw [swapped]
    omega
  rw [toNat_rev, BitVec.toNat_setWidth, hrev, Nat.mod_eq_of_lt hlt, swapped_swapped (by omega)]

end Places

section Header

variable {s : Address.Host} {ipType : BitVec 8} {ipDst : Word} {total : Nat} {b : Buffer}

def unsummed (s : Address.Host) (ipType : BitVec 8) (ipDst : Word) (total : Nat) (mem : Bytes) :
    Bytes :=
  let mem := store mem 14 0x0045
  let mem := store mem 16 ((byterev (BitVec.ofNat 32 total) >>> 16).setWidth 16)
  let mem := storeWord mem 18 0
  let mem := store mem 22 ((0xff ||| ipType.setWidth 32 <<< 8 : Word).setWidth 16)
  let mem := store mem 24 0
  storeWord (storeWord mem 26 (byterev s.myIP)) 30 (byterev ipDst)

theorem txbuf_ipv4Header : (ipv4Header s ipType ipDst total b).txbuf =
    store (unsummed s ipType ipDst total b.txbuf) 24
      (((onesChecksum 0 7 20).value (unsummed s ipType ipDst total b.txbuf)).setWidth 16) := by
  simp only [ipv4Header, txbuf_txShort, txbuf_txInt, txbuf_txShortRev]
  rfl

theorem ipv4Header_other {i : Nat} (h : 34 ≤ i) :
    (ipv4Header s ipType ipDst total b).txbuf i = b.txbuf i := by
  rw [txbuf_ipv4Header, store_other _ (by omega), unsummed]
  rw [storeWord_other _ (by omega), storeWord_other _ (by omega), store_other _ (by omega),
    store_other _ (by omega), storeWord_other _ (by omega), store_other _ (by omega),
    store_other _ (by omega)]

theorem load_ipv4Header {a : Nat} (h : a + 2 ≤ 24) :
    load (ipv4Header s ipType ipDst total b).txbuf a =
      load (unsummed s ipType ipDst total b.txbuf) a := by
  rw [txbuf_ipv4Header, load_store_other _ (by omega)]

theorem headerLength_ipv4Header :
    headerLength (ipv4Header s ipType ipDst total b).txbuf 7 = 5 := by
  have h : load (ipv4Header s ipType ipDst total b).txbuf 14 = 0x0045 := by
    rw [load_ipv4Header (by omega), unsummed]
    rw [load_storeWord_other _ (by omega), load_storeWord_other _ (by omega),
      load_store_other _ (by omega), load_store_other _ (by omega),
      load_storeWord_other _ (by omega), load_store_other _ (by omega), load_store_same]
  have hlow : (ipv4Header s ipType ipDst total b).txbuf 14 = 0x45 := by
    rw [← low_load (ipv4Header s ipType ipDst total b).txbuf 14, h]
    rfl
  rw [headerLength, hlow]
  rfl

theorem totalLength_ipv4Header (h : total < 65536) :
    totalLength (ipv4Header s ipType ipDst total b).txbuf 7 = total := by
  have hload : load (ipv4Header s ipType ipDst total b).txbuf 16 =
      (byterev (BitVec.ofNat 32 total) >>> 16).setWidth 16 := by
    rw [load_ipv4Header (by omega), unsummed]
    rw [load_storeWord_other _ (by omega), load_storeWord_other _ (by omega),
      load_store_other _ (by omega), load_store_other _ (by omega),
      load_storeWord_other _ (by omega), load_store_same]
  have hnat : (BitVec.ofNat 32 total).toNat = total := by
    rw [BitVec.toNat_ofNat]
    omega
  rw [totalLength, hload, rev_byterev _ (by omega), hnat]

theorem protocol_ipv4Header :
    (ipv4Header s ipType ipDst total b).txbuf 23 = ipType := by
  rw [txbuf_ipv4Header, store_other _ (by omega), unsummed]
  rw [storeWord_other _ (by omega), storeWord_other _ (by omega), store_other _ (by omega),
    store_high]
  have hbyte : ∀ x : BitVec 8,
      ((0xff ||| x.setWidth 32 <<< 8 : Word).setWidth 16).extractLsb' 8 8 = x := by decide
  exact hbyte ipType

theorem srcIP_ipv4Header : srcIP (ipv4Header s ipType ipDst total b).txbuf 7 = s.myIP := by
  rw [srcIP, txbuf_ipv4Header, word_store_other _ (by omega), unsummed]
  rw [word_storeWord_other _ (by omega), word_storeWord, byterev_byterev]

theorem dstIP_ipv4Header : dstIP (ipv4Header s ipType ipDst total b).txbuf 7 = ipDst := by
  rw [dstIP, txbuf_ipv4Header, word_store_other _ (by omega), unsummed]
  rw [word_storeWord, byterev_byterev]

theorem checksum_ipv4Header :
    (onesChecksum 0 7 20).value (ipv4Header s ipType ipDst total b).txbuf = 0 := by
  have hz : load (unsummed s ipType ipDst total b.txbuf) (2 * 12) = 0 := by
    rw [unsummed]
    rw [load_storeWord_other _ (by omega), load_storeWord_other _ (by omega), load_store_same]
  have hle := packetSum_le (unsummed s ipType ipDst total b.txbuf) 7 20
  have hzero : (0 : Word).toNat = 0 := rfl
  rw [txbuf_ipv4Header]
  exact onesChecksum_filled (k := 12) hz (by omega) (by omega) (by omega)

end Header

section Frame

variable {cfg : Address.Config} {s : Address.Host} {ipType : BitVec 8} {ipDst : Word}
  {length : Nat} {b : Buffer} {macDest : Address.Mac}

theorem pipOutgoingIPv4_frame
    (h : Address.pipOutgoingIPv4 cfg ipDst s = .frame macDest) :
    pipOutgoingIPv4 cfg s ipType ipDst length b =
      pipOutgoingEthernet cfg macDest 0x0008 (ipv4Header s ipType ipDst (length + 20) b) := by
  rw [pipOutgoingIPv4, h]

-- The header that a frame with an Internet datagram has.
structure Headed (frame : Bytes) (s : Address.Host) (ipType : BitVec 8) (ipDst : Word)
    (length : Nat) : Prop where
  headerLength : headerLength frame 7 = 5
  totalLength : totalLength frame 7 = length + 20
  protocol : frame 23 = ipType
  srcIP : srcIP frame 7 = s.myIP
  dstIP : dstIP frame 7 = ipDst
  checksum : (onesChecksum 0 7 20).value frame = 0

theorem Headed.congr {frame frame' : Bytes} (h : Headed frame s ipType ipDst length)
    (hsame : ∀ i, 14 ≤ i → frame' i = frame i) : Headed frame' s ipType ipDst length := by
  have hload : load frame' 16 = load frame 16 := by
    rw [load, load, hsame 16 (by omega), hsame (16 + 1) (by omega)]
  constructor
  · refine Eq.trans ?_ h.headerLength
    show (frame' 14 &&& 0xF).toNat = (frame 14 &&& 0xF).toNat
    rw [hsame 14 (by omega)]
  · refine Eq.trans ?_ h.totalLength
    show (rev (load frame' 16)).toNat = (rev (load frame 16)).toNat
    rw [hload]
  · rw [hsame 23 (by omega)]
    exact h.protocol
  · exact (word_congr fun j _ => hsame (26 + j) (by omega)).trans h.srcIP
  · exact (word_congr fun j _ => hsame (30 + j) (by omega)).trans h.dstIP
  · exact (value_onesChecksum_congr 0 20 hsame).trans h.checksum

theorem headed (h : Address.pipOutgoingIPv4 cfg ipDst s = .frame macDest)
    (hlen : length + 20 < 65536) :
    Headed (pipOutgoingIPv4 cfg s ipType ipDst length b).txbuf s ipType ipDst length := by
  have hheader : Headed (ipv4Header s ipType ipDst (length + 20) b).txbuf s ipType ipDst length :=
    ⟨headerLength_ipv4Header, totalLength_ipv4Header hlen, protocol_ipv4Header, srcIP_ipv4Header,
      dstIP_ipv4Header, checksum_ipv4Header⟩
  rw [pipOutgoingIPv4_frame h]
  exact hheader.congr fun i hi => pipOutgoingEthernet_other macDest 0x0008 _ hi

theorem pipOutgoingIPv4_other (h : Address.pipOutgoingIPv4 cfg ipDst s = .frame macDest) {i : Nat}
    (hi : 34 ≤ i) : (pipOutgoingIPv4 cfg s ipType ipDst length b).txbuf i = b.txbuf i := by
  rw [pipOutgoingIPv4_frame h, pipOutgoingEthernet_other _ _ _ (by omega), ipv4Header_other hi]

end Frame

end Xtcp.Pip.Wire
