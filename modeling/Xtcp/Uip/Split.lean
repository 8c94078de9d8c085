import Xtcp.Uip.Output

namespace Xtcp.Uip
open Halfword OnesSum Xtcp.Segment

abbrev Frame := List (BitVec 8)

-- A short frame is filled up in uip_buf itself.
def xcoredevSend (uipLen : Nat) (buf : Bytes) : List Frame × Bytes :=
  if uipLen = 0 then ([], buf)
  else if uipLen < 64 then
    let buf : Bytes := fun a => if uipLen ≤ a ∧ a < 64 then 0 else buf a
    ([slice buf 0 64], buf)
  else ([slice buf 0 uipLen], buf)

def uipSplitOutputSend (uipLen : Nat) (buf : Bytes) : List Frame × Bytes :=
  xcoredevSend (uipLen + 14) (complemented uipIpchksum 24 (complemented uipTcpchksum 50 buf))

def uipAdd32 (op32 : Nat) (op16 : BitVec 16) (buf : Bytes) : BitVec 32 :=
  let x := ((load buf (op32 + 2)).setWidth 32 <<< 16) + (load buf op32).setWidth 32
  byterev (byterev x + op16.setWidth 32)

def copyWords (dst src n : Nat) (buf : Bytes) : Bytes :=
  (List.range n).foldl (fun buf i => Memory.move buf (dst + 4 * i) (src + 4 * i) 4) buf

def copyDown (len1 len2 : Nat) (buf : Bytes) : Bytes :=
  copyWords 56 (56 + len1) (len2 / 4 + 1) (store buf 54 (load buf (54 + len1)))

def splitThreshold (clientBufSize : Nat) : Nat := max ((clientBufSize + 54) / 2) 4

def uipSplitOutput (clientBufSize uipLen : Nat) (buf : Bytes) : List Frame :=
  if buf 23 = 6 then
    if (uipLen : Int) - 40 - 14 > splitThreshold clientBufSize then
      let tcplen := uipLen - 40 - 14
      let len1 := tcplen / 2 / 4 * 4
      let len2 := tcplen - len1
      let (frames, buf) :=
        uipSplitOutputSend (len1 + 40) (setLen (BitVec.ofNat 16 (len1 + 40)) buf)
      let buf := copyDown len1 len2 (setLen (BitVec.ofNat 16 (len2 + 40)) buf)
      let buf := storeWord buf 38 (uipAdd32 38 (BitVec.ofNat 16 len1) buf)
      frames ++ (uipSplitOutputSend (len2 + 40) buf).1
    else (xcoredevSend uipLen (complemented uipTcpchksum 50 buf)).1
  else (xcoredevSend uipLen buf).1

def received (f : Frame) : Bytes := fun a => f.getD a 0

def ipTotalLen (f : Frame) : Nat := 256 * (received f 16).toNat + (received f 17).toNat

def payload (f : Frame) : Frame := (f.drop 54).take (ipTotalLen f - 40)

-- A word is read before the copy of an earlier one gets there.
theorem copyWords_spec (dst len1 n : Nat) (buf : Bytes) (a : Nat) :
    copyWords dst (dst + len1) n buf a =
      if dst ≤ a ∧ a < dst + 4 * n then buf (a + len1) else buf a := by
  induction n generalizing a with
  | zero =>
    rw [if_neg (by omega)]
    rfl
  | succ n ih =>
    have hstep : copyWords dst (dst + len1) (n + 1) buf =
        Memory.move (copyWords dst (dst + len1) n buf) (dst + 4 * n) (dst + len1 + 4 * n) 4 := by
      rw [copyWords, List.range_succ, List.foldl_append]
      rfl
    rw [hstep, Memory.move, Memory.write]
    split
    next h =>
      by_cases hlast : a - (dst + 4 * n) < 4
      · rw [getD_slice _ _ hlast, ih, if_neg (by omega), if_pos (by omega)]
        exact congrArg buf (by omega)
      · rw [List.getD_eq_default _ _ (by rw [length_slice]; omega), ih, if_neg (by omega),
          if_neg (by omega)]
    next h =>
      rw [ih]
      by_cases hin : dst ≤ a
      · rw [if_pos (by omega), if_pos (by omega)]
      · rw [if_neg (by omega), if_neg (by omega)]

theorem copyDown_spec (len1 len2 : Nat) (hlen : 2 ≤ len1) (buf : Bytes) (a : Nat) :
    copyDown len1 len2 buf a =
      if 54 ≤ a ∧ a < 60 + len2 / 4 * 4 then buf (a + len1) else buf a := by
  have hstore : ∀ x, 56 ≤ x → store buf 54 (load buf (54 + len1)) x = buf x := fun x hx =>
    store_other _ (by omega)
  rw [copyDown, copyWords_spec]
  by_cases h : 56 ≤ a
  · rw [hstore _ h, hstore _ (by omega)]
    split
    · rw [if_pos (by omega)]
    · rw [if_neg (by omega)]
  · rw [if_neg (by omega)]
    by_cases h54 : 54 ≤ a
    · obtain ⟨hfirst, hsecond⟩ := store_load buf 54 (54 + len1)
      rw [if_pos (by omega)]
      obtain rfl | rfl : a = 54 ∨ a = 55 := by omega
      · exact hfirst
      · exact hsecond.trans (congrArg buf (by omega))
    · rw [if_neg (by omega), store_other _ (by omega)]

theorem word_uipAdd32 (op32 : Nat) (op16 : BitVec 16) (buf : Bytes) :
    byterev (uipAdd32 op32 op16 buf) = word buf op32 + op16.setWidth 32 := by
  have hword : ((load buf (op32 + 2)).setWidth 32 <<< 16) + (load buf op32).setWidth 32 =
      load buf (op32 + 2) ++ load buf op32 := by
    apply BitVec.eq_of_toNat_eq
    have h₁ := (load buf (op32 + 2)).isLt
    have h₂ := (load buf op32).isLt
    rw [toNat_append]
    simp [BitVec.toNat_add, BitVec.toNat_shiftLeft, Nat.shiftLeft_eq]
    omega
  rw [uipAdd32, byterev_byterev, hword, word_eq]

-- A packet in uip_buf as uip_process leaves it: its length, its protocol and its IP checksum.
structure Prepared (buf : Bytes) (uipLen : Nat) : Prop where
  lower : 54 ≤ uipLen
  upper : uipLen < 65536
  proto : buf 23 = 6
  len : 256 * (buf 16).toNat + (buf 17).toNat = uipLen - 14
  ip : uipIpchksum buf = 0xffff#16

-- What a frame carries: its payload, its sequence number and the other fields of its header.
structure Carries (f : Frame) (data : List (BitVec 8)) (seqno : BitVec 32) (buf : Bytes) :
    Prop where
  payload : payload f = data
  seqno : word (received f) 38 = seqno
  header : ∀ a, 34 ≤ a → a < 54 → ¬ (38 ≤ a ∧ a < 42) → ¬ (50 ≤ a ∧ a < 52) →
    received f a = buf a
  len : ipTotalLen f = data.length + 40
  ip : uipIpchksum (received f) = 0xffff#16
  tcp : uipTcpchksum (received f) = 0xffff#16

theorem toNat_upperLayerLen {buf : Bytes} {len : Nat}
    (h : 256 * (buf 16).toNat + (buf 17).toNat = len) (hlen : 20 ≤ len) :
    (upperLayerLen buf).toNat = len - 20 := by
  have h₁ := (buf 16).isLt
  have h₂ := (buf 17).isLt
  have hsum : ((buf 16).setWidth 16 <<< 8 + (buf 17).setWidth 16 : BitVec 16).toNat = len := by
    rw [BitVec.toNat_add, BitVec.toNat_shiftLeft, Nat.shiftLeft_eq, BitVec.toNat_setWidth,
      BitVec.toNat_setWidth]
    omega
  have hle : (20 : BitVec 16) ≤ (buf 16).setWidth 16 <<< 8 + (buf 17).setWidth 16 := by
    rw [BitVec.le_def, hsum]
    exact hlen
  rw [upperLayerLen, BitVec.toNat_sub_of_le hle, hsum]
  rfl

theorem xcoredevSend_frame (uipLen : Nat) (h : uipLen ≠ 0) (buf : Bytes) :
    ∃ f, (xcoredevSend uipLen buf).1 = [f] ∧ uipLen ≤ f.length ∧
      ∀ a < uipLen, received f a = buf a := by
  unfold xcoredevSend
  rw [if_neg h]
  split
  · refine ⟨_, rfl, by rw [length_slice]; omega, fun a ha => ?_⟩
    rw [received, getD_slice _ _ (by omega), Nat.zero_add, if_neg (by omega)]
  · refine ⟨_, rfl, by rw [length_slice], fun a ha => ?_⟩
    rw [received, getD_slice _ _ ha, Nat.zero_add]

theorem carries_of_received (len : Nat) {f : Frame} {buf : Bytes}
    (hf : ∀ a < len + 14, received f a = buf a) (hlength : len + 14 ≤ f.length)
    (hlen : 256 * (buf 16).toNat + (buf 17).toNat = len) (h40 : 40 ≤ len)
    (hip : uipIpchksum buf = 0xffff#16) (htcp : uipTcpchksum buf = 0xffff#16) :
    Carries f (slice buf 54 (len - 40)) (word buf 38) buf where
  payload := by
    have htotal : ipTotalLen f = len := by
      rw [ipTotalLen, hf 16 (by omega), hf 17 (by omega), hlen]
    rw [payload, htotal]
    refine List.ext_getElem (by simp; omega) fun j h₁ h₂ => ?_
    rw [length_slice] at h₂
    have hget := hf (54 + j) (by omega)
    rw [received, List.getD_eq_getElem _ _ (by omega)] at hget
    simp [slice, hget]
  seqno := word_congr fun j hj => hf (38 + j) (by omega)
  header a ha ha' _ _ := hf a (by omega)
  len := by
    rw [ipTotalLen, hf 16 (by omega), hf 17 (by omega), hlen, length_slice]
    omega
  ip := (uipIpchksum_congr fun a _ ha => hf a (by omega)).trans hip
  tcp := by
    refine (upperLayerChksum_congr (hf 16 (by omega)) (hf 17 (by omega))
      fun a _ ha => ?_).trans htcp
    rw [toNat_upperLayerLen hlen (by omega)] at ha
    exact hf a (by omega)

theorem uipTcpchksum_two_complements {buf : Bytes} (h : 18 ≤ (upperLayerLen buf).toNat) :
    uipTcpchksum (complemented uipIpchksum 24 (complemented uipTcpchksum 50 buf)) = 0xffff#16 := by
  refine Eq.trans ?_ (uipTcpchksum_complemented h)
  exact upperLayerChksum_congr (complemented_other _ (by omega)) (complemented_other _ (by omega))
    fun a ha _ => complemented_other _ (by omega)

theorem two_complements_other (buf : Bytes) {a : Nat} (h : a < 24 ∨ 26 ≤ a ∧ a < 50 ∨ 52 ≤ a) :
    complemented uipIpchksum 24 (complemented uipTcpchksum 50 buf) a = buf a := by
  rw [complemented_other _ (by omega), complemented_other _ (by omega)]

theorem slice_of_other {buf buf' : Bytes} {start n : Nat} (hstart : 52 ≤ start)
    (h : ∀ a, 52 ≤ a → buf' a = buf a) : slice buf' start n = slice buf start n :=
  slice_congr fun j _ => h (start + j) (by omega)

theorem setLen_len {n : Nat} (hn : n < 65536) (buf : Bytes) :
    256 * (setLen (BitVec.ofNat 16 n) buf 16).toNat +
      (setLen (BitVec.ofNat 16 n) buf 17).toNat = n := by
  have h₁ : setLen (BitVec.ofNat 16 n) buf 16 = highByte (BitVec.ofNat 16 n) := rfl
  have h₂ : setLen (BitVec.ofNat 16 n) buf 17 = lowByte (BitVec.ofNat 16 n) := rfl
  rw [h₁, h₂]
  simp [highByte, lowByte, Nat.shiftRight_eq_div_pow]
  omega

theorem setLen_other (len : BitVec 16) (buf : Bytes) {a : Nat} (h : a < 16 ∨ 18 ≤ a) :
    setLen len buf a = buf a := by
  rw [setLen, setByte_other _ _ (by omega), setByte_other _ _ (by omega)]

theorem splitOutputSend_carries {buf : Bytes} {len : Nat}
    (hlen : 256 * (buf 16).toNat + (buf 17).toNat = len) (h40 : 40 ≤ len) :
    ∃ f, (uipSplitOutputSend len buf).1 = [f] ∧
      Carries f (slice buf 54 (len - 40)) (word buf 38) buf := by
  obtain ⟨f, hframe, hlength, hf⟩ := xcoredevSend_frame (len + 14) (by omega)
    (complemented uipIpchksum 24 (complemented uipTcpchksum 50 buf))
  have hother := fun a h => two_complements_other buf (a := a) h
  have hcarries := carries_of_received len hf hlength
    (by rw [hother 16 (by omega), hother 17 (by omega), hlen]) h40 (uipIpchksum_complemented _)
    (uipTcpchksum_two_complements (by rw [toNat_upperLayerLen hlen (by omega)]; omega))
  refine ⟨f, hframe, ?_⟩
  rw [slice_of_other (by omega) fun a ha => hother a (by omega),
    word_congr fun j hj => hother (38 + j) (by omega)] at hcarries
  exact { hcarries with
    header := fun a ha ha' hseq hsum =>
      (hcarries.header a ha ha' hseq hsum).trans (hother a (by omega)) }

theorem splitOutputSend_buf (len : Nat) (h : 50 ≤ len) (buf : Bytes) :
    (uipSplitOutputSend len buf).2 =
      complemented uipIpchksum 24 (complemented uipTcpchksum 50 buf) := by
  rw [uipSplitOutputSend, xcoredevSend, if_neg (by omega), if_neg (by omega)]

theorem Carries.header_congr {f : Frame} {data : List (BitVec 8)} {seqno : BitVec 32}
    {buf buf' : Bytes} (h : Carries f data seqno buf')
    (hbuf : ∀ a, 34 ≤ a → a < 54 → ¬ (38 ≤ a ∧ a < 42) → ¬ (50 ≤ a ∧ a < 52) → buf' a = buf a) :
    Carries f data seqno buf :=
  { h with header := fun a ha ha' hseq hsum =>
      (h.header a ha ha' hseq hsum).trans (hbuf a ha ha' hseq hsum) }

def secondPacket (len1 len2 : Nat) (buf : Bytes) : Bytes :=
  let buf := copyDown len1 len2 (setLen (BitVec.ofNat 16 (len2 + 40)) buf)
  storeWord buf 38 (uipAdd32 38 (BitVec.ofNat 16 len1) buf)

theorem secondPacket_other {len1 len2 a : Nat} (hlen : 2 ≤ len1) (buf : Bytes)
    (h : 18 ≤ a ∧ a < 38 ∨ 42 ≤ a ∧ a < 54) : secondPacket len1 len2 buf a = buf a := by
  rw [secondPacket, storeWord_other _ (by omega), copyDown_spec _ _ hlen, if_neg (by omega),
    setLen_other _ _ (by omega)]

theorem slice_secondPacket {len1 len2 : Nat} (hlen : 2 ≤ len1) (buf : Bytes) :
    slice (secondPacket len1 len2 buf) 54 len2 = slice buf (54 + len1) len2 := by
  refine slice_congr fun j hj => ?_
  rw [secondPacket, storeWord_other _ (by omega), copyDown_spec _ _ hlen, if_pos (by omega),
    setLen_other _ _ (by omega)]
  exact congrArg buf (by omega)

theorem word_secondPacket {len1 len2 : Nat} (hlen : 2 ≤ len1) (hlt : len1 < 65536) (buf : Bytes) :
    word (secondPacket len1 len2 buf) 38 = word buf 38 + BitVec.ofNat 32 len1 := by
  have hseq : word (copyDown len1 len2 (setLen (BitVec.ofNat 16 (len2 + 40)) buf)) 38 =
      word buf 38 := word_congr fun j hj => by
    rw [copyDown_spec _ _ hlen, if_neg (by omega), setLen_other _ _ (by omega)]
  rw [secondPacket, word_storeWord, word_uipAdd32, hseq]
  congr 1
  apply BitVec.eq_of_toNat_eq
  simp
  omega

theorem second_carries (len1 len2 : Nat) (hlen : 2 ≤ len1) (hlt : len1 < 65536)
    (hlen2 : len2 + 40 < 65536) (buf : Bytes) :
    ∃ f, (uipSplitOutputSend (len2 + 40) (secondPacket len1 len2 buf)).1 = [f] ∧
      Carries f (slice buf (54 + len1) len2) (word buf 38 + BitVec.ofNat 32 len1) buf := by
  have htotal : 256 * (secondPacket len1 len2 buf 16).toNat +
      (secondPacket len1 len2 buf 17).toNat = len2 + 40 := by
    rw [← setLen_len hlen2 buf, secondPacket, storeWord_other _ (by omega),
      storeWord_other _ (by omega), copyDown_spec _ _ hlen, copyDown_spec _ _ hlen,
      if_neg (by omega), if_neg (by omega)]
  obtain ⟨f, hf, hcarries⟩ := splitOutputSend_carries htotal (by omega)
  rw [Nat.add_sub_cancel, slice_secondPacket hlen, word_secondPacket hlen hlt] at hcarries
  exact ⟨f, hf, hcarries.header_congr fun a _ _ _ _ => secondPacket_other hlen buf (by omega)⟩

theorem first_carries (len1 : Nat) (hlt : len1 + 40 < 65536) (buf : Bytes) :
    ∃ f, (uipSplitOutputSend (len1 + 40) (setLen (BitVec.ofNat 16 (len1 + 40)) buf)).1 = [f] ∧
      Carries f (slice buf 54 len1) (word buf 38) buf := by
  obtain ⟨f, hf, hcarries⟩ := splitOutputSend_carries (setLen_len hlt buf) (by omega)
  rw [Nat.add_sub_cancel, slice_of_other (by omega) fun a ha => setLen_other _ _ (by omega),
    word_congr fun j hj => setLen_other _ _ (by omega)] at hcarries
  exact ⟨f, hf, hcarries.header_congr fun a _ _ _ _ => setLen_other _ _ (by omega)⟩

theorem split_carries {uipLen clientBufSize : Nat} {buf : Bytes} (h : Prepared buf uipLen)
    (hfit : uipLen - 54 ≤ clientBufSize) (hsplit : splitThreshold clientBufSize < uipLen - 54) :
    ∃ f₁ f₂ data₁ data₂, uipSplitOutput clientBufSize uipLen buf = [f₁, f₂] ∧
      data₁ ++ data₂ = slice buf 54 (uipLen - 54) ∧
      Carries f₁ data₁ (word buf 38) buf ∧
      Carries f₂ data₂ (word buf 38 + BitVec.ofNat 32 data₁.length) buf := by
  have hlower := h.lower
  have hupper := h.upper
  obtain ⟨len1, hlen1⟩ : ∃ n, n = (uipLen - 40 - 14) / 2 / 4 * 4 := ⟨_, rfl⟩
  unfold splitThreshold at hsplit
  obtain ⟨f₁, hf₁, hcarries₁⟩ := first_carries len1 (by omega) buf
  have hbuf := splitOutputSend_buf (len1 + 40) (by omega)
    (setLen (BitVec.ofNat 16 (len1 + 40)) buf)
  have hsame : ∀ a, 18 ≤ a → ¬ (24 ≤ a ∧ a < 26) → ¬ (50 ≤ a ∧ a < 52) →
      (uipSplitOutputSend (len1 + 40) (setLen (BitVec.ofNat 16 (len1 + 40)) buf)).2 a = buf a := by
    intro a ha hip htcp
    rw [hbuf, two_complements_other _ (by omega), setLen_other _ _ (by omega)]
  obtain ⟨f₂, hf₂, hcarries₂⟩ := second_carries len1 (uipLen - 40 - 14 - len1)
    (by omega) (by omega) (by omega)
    (uipSplitOutputSend (len1 + 40) (setLen (BitVec.ofNat 16 (len1 + 40)) buf)).2
  rw [slice_congr fun j hj => hsame (54 + len1 + j) (by omega) (by omega) (by omega),
    word_congr fun j hj => hsame (38 + j) (by omega) (by omega) (by omega)] at hcarries₂
  refine ⟨f₁, f₂, _, slice buf (54 + len1) (uipLen - 40 - 14 - len1), ?_, ?_, hcarries₁, ?_⟩
  · unfold uipSplitOutput
    rw [if_pos h.proto, if_pos (by unfold splitThreshold; omega)]
    dsimp only
    rw [← hlen1, hf₁]
    exact congrArg _ hf₂
  · rw [← Memory.slice_append]
    congr 1
    omega
  · rw [length_slice]
    exact hcarries₂.header_congr fun a _ _ _ _ => hsame a (by omega) (by omega) (by omega)

theorem whole_carries {uipLen clientBufSize : Nat} {buf : Bytes} (h : Prepared buf uipLen)
    (hsplit : uipLen - 54 ≤ splitThreshold clientBufSize) :
    ∃ f, uipSplitOutput clientBufSize uipLen buf = [f] ∧
      Carries f (slice buf 54 (uipLen - 54)) (word buf 38) buf := by
  have hlower := h.lower
  obtain ⟨f, hframe, hlength, hf⟩ := xcoredevSend_frame uipLen (by omega)
    (complemented uipTcpchksum 50 buf)
  have hother : ∀ a, a < 50 ∨ 52 ≤ a → complemented uipTcpchksum 50 buf a = buf a := fun a ha =>
    complemented_other buf ha
  have hcarries := carries_of_received (uipLen - 14)
    (fun a ha => hf a (by omega)) (by omega)
    (by rw [hother 16 (by omega), hother 17 (by omega), h.len]) (by omega)
    ((uipIpchksum_congr fun a _ _ => hother a (by omega)).trans h.ip)
    (uipTcpchksum_complemented (by rw [toNat_upperLayerLen h.len (by omega)]; omega))
  rw [slice_of_other (by omega) fun a ha => hother a (by omega),
    word_congr fun j hj => hother (38 + j) (by omega),
    show uipLen - 14 - 40 = uipLen - 54 by omega] at hcarries
  refine ⟨f, ?_, hcarries.header_congr fun a _ _ _ _ => hother a (by omega)⟩
  unfold uipSplitOutput
  rw [if_pos h.proto, if_neg (by omega)]
  exact hframe

theorem toNat_bytes (len : BitVec 16) :
    256 * (highByte len).toNat + (lowByte len).toNat = len.toNat := by
  have hlen := len.isLt
  simp [highByte, lowByte, Nat.shiftRight_eq_div_pow]
  omega

theorem prepared_tcpSendNoconn (uipLen ipid : BitVec 16) (eth buf : Bytes) (hproto : buf 23 = 6)
    (hlower : 40 ≤ uipLen.toNat) (hupper : uipLen.toNat + 14 < 65536) :
    Prepared (ethHeader eth (tcpSendNoconn uipLen ipid buf)) (uipLen.toNat + 14) where
  lower := by omega
  upper := hupper
  proto := (tcpSendNoconn_proto uipLen ipid buf).trans hproto
  len := by
    obtain ⟨h₁, h₂⟩ := tcpSendNoconn_len uipLen ipid buf
    rw [Nat.add_sub_cancel, ← toNat_bytes, ← h₁, ← h₂]
    rfl
  ip := (uipIpchksum_congr fun a ha _ => if_neg (by omega)).trans
    (uipIpchksum_ipSendNolen ipid _)

theorem uip_split_output_frames (clientBufSize uipLen : Nat) (buf : Bytes)
    (h : Prepared buf uipLen) (hfit : uipLen - 54 ≤ clientBufSize) :
    (splitThreshold clientBufSize < uipLen - 54 →
      ∃ f₁ f₂ data₁ data₂, uipSplitOutput clientBufSize uipLen buf = [f₁, f₂] ∧
        data₁ ++ data₂ = slice buf 54 (uipLen - 54) ∧
        Carries f₁ data₁ (word buf 38) buf ∧
        Carries f₂ data₂ (word buf 38 + BitVec.ofNat 32 data₁.length) buf) ∧
    (uipLen - 54 ≤ splitThreshold clientBufSize →
      ∃ f, uipSplitOutput clientBufSize uipLen buf = [f] ∧
        Carries f (slice buf 54 (uipLen - 54)) (word buf 38) buf) :=
  ⟨split_carries h hfit, whole_carries h⟩

-- A full segment of the default build is sent in two frames.
theorem uip_split_output_full :
    let buf := ethHeader (fun _ => 0) (tcpSendNoconn 1512 7 fun a => if a = 23 then 6 else 1)
    ∃ f₁ f₂ data₁ data₂, uipSplitOutput 1472 1526 buf = [f₁, f₂] ∧
      data₁ ++ data₂ = slice buf 54 1472 ∧ Carries f₁ data₁ (word buf 38) buf ∧
      Carries f₂ data₂ (word buf 38 + BitVec.ofNat 32 data₁.length) buf :=
  (uip_split_output_frames 1472 1526 _
    (prepared_tcpSendNoconn 1512 7 (fun _ => 0) _ rfl (by decide) (by decide)) (by decide)).1
    (by decide)

theorem udp_frame (clientBufSize : Nat) (u : UdpOut) (eth buf : Bytes)
    (hlen : u.slen.toNat + 28 < 65536) :
    ∃ f, uipSplitOutput clientBufSize (u.uipLen.toNat + 14)
        (ethHeader eth (udpSendBuf u buf)) = [f] ∧
      uipIpchksum (received f) = 0xffff#16 ∧ uipUdpchksum (received f) = 0xffff#16 ∧
      load (received f) 40 ≠ 0 := by
  obtain ⟨hip, hudp, hne⟩ := udpSendBuf_checked u buf hlen
  have huip : u.uipLen.toNat = u.slen.toNat + 28 := by
    rw [UdpOut.uipLen, BitVec.toNat_add, Nat.mod_eq_of_lt (by simp; omega)]
    rfl
  have hupper : (upperLayerLen (udpSendBuf u buf)).toNat = u.slen.toNat + 8 := by
    rw [udpSendBuf_len, BitVec.toNat_add, Nat.mod_eq_of_lt (by simp; omega)]
    rfl
  obtain ⟨f, hframe, -, hf⟩ := xcoredevSend_frame (u.uipLen.toNat + 14) (by omega)
    (ethHeader eth (udpSendBuf u buf))
  have hsame : ∀ a, 14 ≤ a → a < u.slen.toNat + 42 → received f a = udpSendBuf u buf a :=
    fun a ha ha' => (hf a (by omega)).trans (if_neg (by omega))
  refine ⟨f, ?_, ?_, ?_, ?_⟩
  · have hproto : ethHeader eth (udpSendBuf u buf) 23 = 17 := udpSendBuf_proto u buf
    rw [uipSplitOutput, if_neg (by rw [hproto]; decide)]
    exact hframe
  · exact (uipIpchksum_congr fun a ha ha' => hsame a ha (by omega)).trans hip
  · refine (upperLayerChksum_congr (hsame 16 (by omega) (by omega))
      (hsame 17 (by omega) (by omega)) fun a ha ha' => hsame a (by omega) ?_).trans hudp
    rw [hupper] at ha'
    omega
  · rw [load, hsame 40 (by omega) (by omega), hsame 41 (by omega) (by omega)]
    exact hne

theorem tcp_frames (clientBufSize : Nat) (uipLen ipid : BitVec 16) (eth buf : Bytes)
    (hproto : buf 23 = 6) (hlower : 40 ≤ uipLen.toNat)
    (hfit : uipLen.toNat ≤ clientBufSize + 40) (hupper : uipLen.toNat + 14 < 65536) :
    ∀ f ∈ uipSplitOutput clientBufSize (uipLen.toNat + 14)
        (ethHeader eth (tcpSendNoconn uipLen ipid buf)),
      uipIpchksum (received f) = 0xffff#16 ∧ uipTcpchksum (received f) = 0xffff#16 := by
  have h := prepared_tcpSendNoconn uipLen ipid eth buf hproto hlower hupper
  intro f hf
  by_cases hsplit : splitThreshold clientBufSize < uipLen.toNat + 14 - 54
  · obtain ⟨f₁, f₂, data₁, data₂, hframes, -, h₁, h₂⟩ := split_carries h (by omega) hsplit
    rw [hframes] at hf
    rcases List.mem_cons.mp hf with rfl | hf
    · exact ⟨h₁.ip, h₁.tcp⟩
    · rw [List.mem_singleton.mp hf]
      exact ⟨h₂.ip, h₂.tcp⟩
  · obtain ⟨f', hframe, hcarries⟩ := whole_carries h (Nat.le_of_not_lt hsplit)
    rw [hframe] at hf
    rw [List.mem_singleton.mp hf]
    exact ⟨hcarries.ip, hcarries.tcp⟩

theorem stack_checksums :
    (∀ (sum : BitVec 16) (mem : Bytes) (data : Nat) (len : BitVec 16),
      (chksum sum mem data len).toNat =
        total 65535 sum.toNat (words (slice mem data len.toNat))) ∧
    (∀ (clientBufSize : Nat) (u : UdpOut) (eth buf : Bytes), u.slen.toNat + 28 < 65536 →
      ∃ f, uipSplitOutput clientBufSize (u.uipLen.toNat + 14) (ethHeader eth (udpSendBuf u buf)) =
          [f] ∧
        uipIpchksum (received f) = 0xffff#16 ∧ uipUdpchksum (received f) = 0xffff#16 ∧
        load (received f) 40 ≠ 0) ∧
    ∀ (clientBufSize : Nat) (uipLen ipid : BitVec 16) (eth buf : Bytes), buf 23 = 6 →
      40 ≤ uipLen.toNat → uipLen.toNat ≤ clientBufSize + 40 → uipLen.toNat + 14 < 65536 →
      ∀ f ∈ uipSplitOutput clientBufSize (uipLen.toNat + 14)
          (ethHeader eth (tcpSendNoconn uipLen ipid buf)),
        uipIpchksum (received f) = 0xffff#16 ∧ uipTcpchksum (received f) = 0xffff#16 :=
  ⟨chksum_eq_total, udp_frame, tcp_frames⟩

end Xtcp.Uip
