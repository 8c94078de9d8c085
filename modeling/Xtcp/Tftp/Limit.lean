import Xtcp.Tftp.Transfer
import Xtcp.Tftp.Received

namespace Xtcp.Tftp

section Within

-- TFTP_MAX_FILE_SIZE, where it is set to another value.
variable (maxFileSize : Nat) (app : List UInt8 → Int → Int) (rxBuf : Memory) (numBytes : Nat)
  (g : Globals)

def tftpDataWithin : Reply :=
  let blockNum := ntoh16 rxBuf 2
  if blockNum = (g.noted rxBuf numBytes).prevBlockNum + 1 then
    let g := g.counted rxBuf numBytes
    if maxFileSize ≤ blockNum * tftpBlockSize then tftpMakeErrorPkt tftpErrorDiskFull [] g
    else
      let data := payload rxBuf numBytes
      let result := app data (dataLen numBytes)
      let (g, n, _) :=
        if result ≠ 0 then tftpMakeErrorPkt tftpErrorAccessViolation [] g
        else tftpMakeAckPkt blockNum g
      (g, n, [.processDataBlock blockNum data (dataLen numBytes) result])
  else tftpMakeAckPkt blockNum (g.noted rxBuf numBytes)

def tftpProcessPacketWithin : Reply :=
  let opcode := ntoh16 rxBuf 0
  if opcode = tftpOpcodeRrq then
    tftpMakeErrorPkt tftpErrorNotDefined (chars "Read not supported") g
  else if opcode = tftpOpcodeWrq then tftpWriteRequest rxBuf g
  else if opcode = tftpOpcodeData then tftpDataWithin maxFileSize app rxBuf numBytes g
  else if opcode = tftpOpcodeAck then tftpMakeErrorPkt tftpErrorIllegalOperation [] g
  else if opcode = tftpOpcodeError then (g, -1, [])
  else tftpMakeErrorPkt tftpErrorIllegalOperation [] g

theorem tftpProcessPacketWithin_default :
    tftpProcessPacketWithin tftpMaxFileSize app rxBuf numBytes g =
      tftpProcessPacket app rxBuf numBytes g := rfl

end Within

section Upload

variable (file : List UInt8)

def chunk (k : Nat) : List UInt8 := (file.drop (k * tftpBlockSize)).take tftpBlockSize

def lastBlock : Nat := file.length / tftpBlockSize + 1

def Reply.sent (r : Reply) : List UInt8 := r.1.txBuf.take r.2.1.toNat

def Call.data : Call → List (List UInt8)
  | .processDataBlock _ data _ _ => [data]
  | _ => []

def delivered (rs : List Reply) : List (List UInt8) := rs.flatMap fun r => r.2.2.flatMap Call.data

variable (maxFileSize : Nat) (app : List UInt8 → Int → Int) (stale : Nat → List UInt8)

-- The replies to the first n blocks.
def uploaded (g : Globals) : Nat → Globals × List Reply
  | 0 => (g, [])
  | n + 1 =>
    let pkt := dataPacket (n + 1) (chunk file n)
    let r := tftpProcessPacketWithin maxFileSize app (received pkt (stale n)) pkt.length
      (uploaded g n).1
    (r.1, (uploaded g n).2 ++ [r])

def DiskFull (rs : List Reply) : Prop := ∃ r ∈ rs, Reply.sent r = errorPkt tftpErrorDiskFull []

structure SizeLimit (g : Globals) (rs : List Reply) : Prop where
  fits : file.length ≤ maxFileSize →
    delivered rs = (List.range (lastBlock file)).map (chunk file) ∧ g.complete = true ∧
      g.error = false
  full : maxFileSize < file.length → DiskFull rs ∧ (delivered rs).flatten.length ≤ maxFileSize

end Upload

section Packets

variable {k : Nat} {bytes : List UInt8}

theorem received_dataPacket (h : bytes.length ≤ tftpBlockSize) (stale : List UInt8) :
    received (dataPacket k bytes) stale = dataPacket k bytes ++ stale := by
  rw [received, List.take_of_length_le]
  simp only [dataPacket, hton16, List.length_append, List.length_cons, List.length_nil,
    tftpRxBufferSize, tftpMinPktSize]
  omega

theorem length_dataPacket : (dataPacket k bytes).length = bytes.length + 4 := by
  simp only [dataPacket, hton16, List.length_append, List.length_cons, List.length_nil]
  omega

theorem ntoh16_hton16 (n : Nat) (m : Memory) : ntoh16 (hton16 n ++ m) 0 = n % 2 ^ 16 := by
  have heq : ntoh16 (hton16 n ++ m) 0 =
      (UInt8.ofNat (n / 256)).toNat * 256 + (UInt8.ofNat n).toNat := rfl
  rw [heq, UInt8.toNat_ofNat', UInt8.toNat_ofNat']
  omega

theorem dataPacket_append (stale : List UInt8) : dataPacket k bytes ++ stale =
    hton16 tftpOpcodeData ++ (hton16 k ++ (bytes ++ stale)) := by
  simp only [dataPacket, List.append_assoc]

theorem opcode_dataPacket (stale : List UInt8) :
    ntoh16 (dataPacket k bytes ++ stale) 0 = tftpOpcodeData := by
  rw [dataPacket_append, ntoh16_hton16]
  rfl

theorem ntoh16_drop (b0 b1 : UInt8) (m : Memory) (i : Nat) :
    ntoh16 (b0 :: b1 :: m) (i + 2) = ntoh16 m i := rfl

theorem number_dataPacket (stale : List UInt8) :
    ntoh16 (dataPacket k bytes ++ stale) 2 = k % 2 ^ 16 := by
  have hcons : hton16 tftpOpcodeData ++ (hton16 k ++ (bytes ++ stale)) =
      0 :: 3 :: (hton16 k ++ (bytes ++ stale)) := rfl
  rw [dataPacket_append, hcons, ntoh16_drop, ntoh16_hton16]

theorem payload_dataPacket (stale : List UInt8) :
    payload (dataPacket k bytes ++ stale) (dataPacket k bytes).length = bytes := by
  have hlen : (dataLen (dataPacket k bytes).length).toNat = bytes.length := by
    rw [length_dataPacket]
    simp only [dataLen, tftpMinPktSize]
    omega
  rw [payload, dataAt, hlen]
  refine List.ext_getElem (by simp) fun i h1 h2 => ?_
  have hlt : tftpMinPktSize + i < (dataPacket k bytes).length := by
    rw [length_dataPacket, tftpMinPktSize]
    omega
  simp only [List.getElem_map, List.getElem_range, byteAt]
  rw [List.getD_append _ _ _ _ hlt]
  have hpre : (hton16 tftpOpcodeData ++ hton16 k).length ≤ tftpMinPktSize + i := by
    simp [hton16, tftpMinPktSize]
  rw [dataPacket, List.getD_append_right _ _ _ _ hpre]
  have hi : tftpMinPktSize + i - (hton16 tftpOpcodeData ++ hton16 k).length = i := by
    simp [hton16, tftpMinPktSize]
  rw [hi, List.getD_eq_getElem _ _ h2]

end Packets

section Replies

variable {maxFileSize k : Nat} {app : List UInt8 → Int → Int} {bytes stale : List UInt8}
  {g : Globals}

theorem block_reply (happ : ∀ data n, app data n = 0) (hb : bytes.length ≤ tftpBlockSize) :
    tftpProcessPacketWithin maxFileSize app (received (dataPacket k bytes) stale)
        (dataPacket k bytes).length g =
      if k % 2 ^ 16 = g.prevBlockNum + 1 then
        if maxFileSize ≤ k % 2 ^ 16 * tftpBlockSize then
          tftpMakeErrorPkt tftpErrorDiskFull []
            (g.counted (dataPacket k bytes ++ stale) (dataPacket k bytes).length)
        else
          ((g.counted (dataPacket k bytes ++ stale) (dataPacket k bytes).length).write
            (ackPkt (k % 2 ^ 16)), 4,
            [.processDataBlock (k % 2 ^ 16) bytes (dataLen (dataPacket k bytes).length) 0])
      else
        ((g.noted (dataPacket k bytes ++ stale) (dataPacket k bytes).length).write
          (ackPkt (k % 2 ^ 16)), 4, []) := by
  have hop : tftpProcessPacketWithin maxFileSize app (dataPacket k bytes ++ stale)
      (dataPacket k bytes).length g =
        tftpDataWithin maxFileSize app (dataPacket k bytes ++ stale)
          (dataPacket k bytes).length g := by
    simp only [tftpProcessPacketWithin, opcode_dataPacket]
    rfl
  rw [received_dataPacket hb, hop]
  simp only [tftpDataWithin, number_dataPacket, noted_prevBlockNum, payload_dataPacket, happ,
    ne_eq, not_true_eq_false, if_false]
  rfl

theorem complete_noted (h : bytes.length < tftpBlockSize) :
    (g.noted (dataPacket k bytes ++ stale) (dataPacket k bytes).length).complete = true := by
  have hlt : (dataPacket k bytes).length < tftpRxBufferSize := by
    rw [length_dataPacket, tftpRxBufferSize, tftpMinPktSize]
    omega
  rw [noted_complete, decide_eq_true hlt, Bool.or_true]

theorem block_complete (happ : ∀ data n, app data n = 0) (h : bytes.length < tftpBlockSize) :
    (tftpProcessPacketWithin maxFileSize app (received (dataPacket k bytes) stale)
      (dataPacket k bytes).length g).1.complete = true := by
  have hc := @complete_noted k bytes stale g h
  rw [block_reply happ (Nat.le_of_lt h)]
  split
  · split
    · exact hc
    · exact hc
  · exact hc

theorem sent_ack (g : Globals) (n : Nat) (calls : List Call) :
    Reply.sent (g.write (ackPkt n), 4, calls) = ackPkt n := take_write g (ackPkt n)

theorem sent_error (g : Globals) :
    Reply.sent (tftpMakeErrorPkt tftpErrorDiskFull [] g) = errorPkt tftpErrorDiskFull [] :=
  take_write _ _

theorem ackPkt_ne (n : Nat) : ackPkt n ≠ errorPkt tftpErrorDiskFull [] := by
  intro h
  have := congrArg List.length h
  simp [ackPkt, errorPkt, hton16] at this

theorem diskFull_append {rs : List Reply} {r : Reply} :
    DiskFull (rs ++ [r]) ↔ DiskFull rs ∨ r.sent = errorPkt tftpErrorDiskFull [] := by
  simp [DiskFull, or_and_right, exists_or]

theorem delivered_append {rs : List Reply} {r : Reply} :
    delivered (rs ++ [r]) = delivered rs ++ r.2.2.flatMap Call.data := by
  simp [delivered]

end Replies

-- Block numbers are taken up to this one.
def maxBlockNum : Nat := 65535

section Counts

variable {file : List UInt8} {maxFileSize : Nat} {app : List UInt8 → Int → Int}
  {stale : Nat → List UInt8} {g : Globals}

theorem length_chunk_le (k : Nat) : (chunk file k).length ≤ tftpBlockSize := by
  rw [chunk, List.length_take]
  exact Nat.min_le_left _ _

theorem length_chunk_last : (chunk file (file.length / tftpBlockSize)).length < tftpBlockSize := by
  rw [chunk, List.length_take, List.length_drop, tftpBlockSize]
  omega

-- After n blocks: those behind the counter that the limit lets through have been delivered.
structure Counted (file : List UInt8) (maxFileSize : Nat) (g : Globals) (n : Nat)
    (r : Globals × List Reply) : Prop where
  counter : r.1.prevBlockNum = max g.prevBlockNum (min n maxBlockNum)
  error : r.1.error = true ↔ g.error = true ∨ DiskFull r.2
  full : DiskFull r.2 ↔
    g.prevBlockNum < min n maxBlockNum ∧ maxFileSize ≤ min n maxBlockNum * tftpBlockSize
  blocks : delivered r.2 = (List.range' g.prevBlockNum
    (min n (min maxBlockNum ((maxFileSize - 1) / tftpBlockSize)) - g.prevBlockNum)).map (chunk file)

theorem capped {n m c p : Nat} (h : ¬ (p ≤ n ∧ n < m)) :
    min (n + 1) (min m c) - p = min n (min m c) - p := by omega

section Next

variable {n : Nat} {r : Globals × List Reply} (stale : List UInt8)

-- The counter passes the number of a block that comes in its turn.
theorem counter_taken (hn : g.prevBlockNum ≤ n ∧ n < maxBlockNum) :
    ntoh16 (dataPacket (n + 1) (chunk file n) ++ stale) 2 =
      max g.prevBlockNum (min (n + 1) maxBlockNum) := by
  have hM : maxBlockNum = 65535 := rfl
  rw [number_dataPacket]
  omega

theorem Counted.refused (h : Counted file maxFileSize g n r)
    (hn : g.prevBlockNum ≤ n ∧ n < maxBlockNum) (hle : maxFileSize ≤ (n + 1) * tftpBlockSize)
    {reply : Reply}
    (hr : reply = tftpMakeErrorPkt tftpErrorDiskFull []
      (r.1.counted (dataPacket (n + 1) (chunk file n) ++ stale)
        (dataPacket (n + 1) (chunk file n)).length)) :
    Counted file maxFileSize g (n + 1) (reply.1, r.2 ++ [reply]) := by
  have hmin : min (n + 1) maxBlockNum = n + 1 := Nat.min_eq_left hn.2
  have hB : tftpBlockSize = 512 := rfl
  have hdisk : DiskFull (r.2 ++ [reply]) :=
    diskFull_append.mpr (Or.inr (hr ▸ sent_error _))
  subst hr
  refine ⟨counter_taken stale hn, iff_of_true rfl (Or.inr hdisk), iff_of_true hdisk ?_, ?_⟩
  · rw [hmin]
    exact ⟨Nat.lt_succ_of_le hn.1, hle⟩
  · rw [delivered_append, h.blocks]
    have hcap : min (n + 1) (min maxBlockNum ((maxFileSize - 1) / tftpBlockSize)) =
        min n (min maxBlockNum ((maxFileSize - 1) / tftpBlockSize)) := by
      rw [hB] at hle ⊢
      omega
    rw [hcap]
    exact List.append_nil _

theorem diskFull_ack {g' : Globals} {k : Nat} {calls : List Call} :
    DiskFull (r.2 ++ [(g'.write (ackPkt k), 4, calls)]) ↔ DiskFull r.2 := by
  rw [diskFull_append, sent_ack]
  simp only [ackPkt_ne, or_false]

theorem Counted.taken (h : Counted file maxFileSize g n r)
    (hn : g.prevBlockNum ≤ n ∧ n < maxBlockNum) (hle : ¬ maxFileSize ≤ (n + 1) * tftpBlockSize)
    {reply : Reply}
    (hr : reply = ((r.1.counted (dataPacket (n + 1) (chunk file n) ++ stale)
      (dataPacket (n + 1) (chunk file n)).length).write (ackPkt (n + 1)), 4,
        [.processDataBlock (n + 1) (chunk file n)
          (dataLen (dataPacket (n + 1) (chunk file n)).length) 0])) :
    Counted file maxFileSize g (n + 1) (reply.1, r.2 ++ [reply]) := by
  have hmin : min (n + 1) maxBlockNum = n + 1 := Nat.min_eq_left hn.2
  have hmin' : min n maxBlockNum = n := Nat.min_eq_left (Nat.le_of_lt hn.2)
  have hM : maxBlockNum = 65535 := rfl
  have hB : tftpBlockSize = 512 := rfl
  have hnone : ¬ DiskFull r.2 := by
    rw [h.full, hmin', hB]
    rw [hB] at hle
    omega
  subst hr
  refine ⟨counter_taken stale hn, ?_, ?_, ?_⟩
  · have hkeep := noted_error (dataPacket (n + 1) (chunk file n) ++ stale)
      (dataPacket (n + 1) (chunk file n)).length r.1
    rw [diskFull_ack]
    exact (iff_of_eq (congrArg (· = true) hkeep)).trans h.error
  · rw [diskFull_ack, hmin]
    exact iff_of_false hnone fun hd => hle hd.2
  · rw [delivered_append, h.blocks]
    rw [hB] at hle
    have hcap : min (n + 1) (min maxBlockNum ((maxFileSize - 1) / tftpBlockSize)) -
        g.prevBlockNum = n - g.prevBlockNum + 1 := by
      rw [hB]
      omega
    have hcap' : min n (min maxBlockNum ((maxFileSize - 1) / tftpBlockSize)) = n := by
      rw [hB]
      omega
    have hlast : g.prevBlockNum + (n - g.prevBlockNum) = n := by omega
    rw [hcap, hcap', List.range'_concat, List.map_append, Nat.one_mul, hlast]
    rfl

theorem Counted.repeated (h : Counted file maxFileSize g n r)
    (hg : g.prevBlockNum ≤ maxBlockNum) (hn : ¬ (g.prevBlockNum ≤ n ∧ n < maxBlockNum))
    {reply : Reply}
    (hr : reply = ((r.1.noted (dataPacket (n + 1) (chunk file n) ++ stale)
      (dataPacket (n + 1) (chunk file n)).length).write (ackPkt ((n + 1) % 2 ^ 16)), 4, [])) :
    Counted file maxFileSize g (n + 1) (reply.1, r.2 ++ [reply]) := by
  have hkeeps : max g.prevBlockNum (min (n + 1) maxBlockNum) =
      max g.prevBlockNum (min n maxBlockNum) := by omega
  subst hr
  refine ⟨?_, ?_, ?_, ?_⟩
  · have hkeep := noted_prevBlockNum (dataPacket (n + 1) (chunk file n) ++ stale)
      (dataPacket (n + 1) (chunk file n)).length r.1
    rw [hkeeps]
    exact hkeep.trans h.counter
  · have hkeep := noted_error (dataPacket (n + 1) (chunk file n) ++ stale)
      (dataPacket (n + 1) (chunk file n)).length r.1
    rw [diskFull_ack]
    exact (iff_of_eq (congrArg (· = true) hkeep)).trans h.error
  · rw [diskFull_ack, h.full]
    by_cases hp : g.prevBlockNum ≤ n
    · have hmin : min (n + 1) maxBlockNum = min n maxBlockNum := by omega
      rw [hmin]
    · exact iff_of_false (fun hd => by omega) fun hd => by omega
  · rw [delivered_append, h.blocks]
    rw [capped hn]
    exact List.append_nil _

theorem Counted.next {reply : Reply} (happ : ∀ data n, app data n = 0)
    (hg : g.prevBlockNum ≤ maxBlockNum) (h : Counted file maxFileSize g n r)
    (hr : reply = tftpProcessPacketWithin maxFileSize app
      (received (dataPacket (n + 1) (chunk file n)) stale)
      (dataPacket (n + 1) (chunk file n)).length r.1) :
    Counted file maxFileSize g (n + 1) (reply.1, r.2 ++ [reply]) := by
  rw [block_reply happ (length_chunk_le n), h.counter] at hr
  have hM : maxBlockNum = 65535 := rfl
  by_cases hn : g.prevBlockNum ≤ n ∧ n < maxBlockNum
  · have hnum : (n + 1) % 2 ^ 16 = max g.prevBlockNum (min n maxBlockNum) + 1 := by omega
    have hnum' : (n + 1) % 2 ^ 16 = n + 1 := by omega
    rw [if_pos hnum, hnum'] at hr
    by_cases hle : maxFileSize ≤ (n + 1) * tftpBlockSize
    · rw [if_pos hle] at hr
      exact h.refused stale hn hle hr
    · rw [if_neg hle] at hr
      exact h.taken stale hn hle hr
  · have hnum : ¬ (n + 1) % 2 ^ 16 = max g.prevBlockNum (min n maxBlockNum) + 1 := by omega
    rw [if_neg hnum] at hr
    exact h.repeated stale hg hn hr

end Next

theorem counted_upload (happ : ∀ data n, app data n = 0) (hg : g.prevBlockNum ≤ maxBlockNum)
    (n : Nat) : Counted file maxFileSize g n (uploaded file maxFileSize app stale g n) := by
  induction n with
  | zero =>
    have hnone : ¬ DiskFull [] := by simp [DiskFull]
    rw [uploaded]
    refine ⟨?_, ?_, ?_, ?_⟩
    · rw [Nat.zero_min, Nat.max_zero]
    · simp only [hnone, or_false]
    · exact iff_of_false hnone fun h => Nat.not_lt_zero _ (Nat.zero_min _ ▸ h.1)
    · rw [Nat.zero_min, Nat.zero_sub]
      rfl
  | succ n ih =>
    simp only [uploaded]
    exact ih.next _ happ hg rfl

theorem complete_next (happ : ∀ data n, app data n = 0) {n : Nat}
    (h : (chunk file n).length < tftpBlockSize) :
    (uploaded file maxFileSize app stale g (n + 1)).1.complete = true := by
  simp only [uploaded]
  exact block_complete happ h

theorem length_chunks_le (ks : List Nat) :
    ((ks.map (chunk file)).flatten).length ≤ ks.length * tftpBlockSize := by
  induction ks with
  | nil => exact Nat.zero_le _
  | cons k ks ih =>
    have := @length_chunk_le file k
    rw [List.map_cons, List.flatten_cons, List.length_append, List.length_cons, Nat.succ_mul]
    omega

end Counts

-- A block must end below the limit, the last one as if it were full, and come with a number of its
-- own.
theorem size_limit_exact {app : List UInt8 → Int → Int} {g : Globals}
    (happ : ∀ data n, app data n = 0) (hg : g.prevBlockNum ≤ maxBlockNum) (file : List UInt8)
    (maxFileSize : Nat) (stale : Nat → List UInt8) :
    SizeLimit file maxFileSize (uploaded file maxFileSize app stale g (lastBlock file)).1
        (uploaded file maxFileSize app stale g (lastBlock file)).2 ↔
      (file.length ≤ maxFileSize → lastBlock file * tftpBlockSize < maxFileSize ∧
        lastBlock file ≤ maxBlockNum ∧ g.prevBlockNum = 0 ∧ g.error = false) ∧
      (maxFileSize < file.length → maxFileSize ≤ maxBlockNum * tftpBlockSize ∧
        g.prevBlockNum < min (lastBlock file) maxBlockNum) := by
  have h := @counted_upload file maxFileSize app stale g happ hg (lastBlock file)
  have hB : tftpBlockSize = 512 := rfl
  have hlast : lastBlock file = file.length / 512 + 1 := rfl
  constructor
  · intro hs
    refine ⟨fun hle => ?_, fun hlt => ?_⟩
    · obtain ⟨hblocks, -, he⟩ := hs.fits hle
      have hlen := congrArg List.length (h.blocks.symm.trans hblocks)
      rw [List.length_map, List.length_map, List.length_range', List.length_range, hB] at hlen
      have herr : g.error = false := by
        rw [← Bool.not_eq_true] at he ⊢
        exact fun hg => he (h.error.mpr (Or.inl hg))
      rw [hB]
      refine ⟨?_, ?_, ?_, herr⟩
      · omega
      · omega
      · omega
    · obtain ⟨hp, hm⟩ := h.full.mp (hs.full hlt).1
      exact ⟨hm.trans (Nat.mul_le_mul_right _ (Nat.min_le_right _ _)), hp⟩
  · rintro ⟨hfits, hfull⟩
    refine ⟨fun hle => ?_, fun hlt => ?_⟩
    · obtain ⟨hm, hn, hp, he⟩ := hfits hle
      rw [hB] at hm
      have hcap : min (lastBlock file) (min maxBlockNum ((maxFileSize - 1) / tftpBlockSize)) =
          lastBlock file := by
        rw [hB]
        omega
      refine ⟨?_, complete_next happ length_chunk_last, ?_⟩
      · rw [h.blocks, hcap, hp, List.range_eq_range']
        rfl
      · have hnone : ¬ DiskFull (uploaded file maxFileSize app stale g (lastBlock file)).2 := by
          rw [h.full, hB]
          omega
        rw [← Bool.not_eq_true, h.error]
        rintro (hg | hd)
        · rw [he] at hg
          cases hg
        · exact hnone hd
    · obtain ⟨hm, hp⟩ := hfull hlt
      have hn : maxFileSize ≤ lastBlock file * tftpBlockSize := by
        rw [hB]
        omega
      refine ⟨h.full.mpr ⟨hp, ?_⟩, ?_⟩
      · rcases Nat.le_total (lastBlock file) maxBlockNum with hle | hle
        · rw [Nat.min_eq_left hle]
          exact hn
        · rw [Nat.min_eq_right hle]
          exact hm
      · rw [h.blocks]
        refine (length_chunks_le _).trans ?_
        rw [List.length_range', hB]
        omega

def firstUpload (maxFileSize : Nat) (file : List UInt8) : Globals × List Reply :=
  uploaded file maxFileSize (fun _ _ => 0) (fun _ => []) ⟨0, [], 0, false, false⟩ (lastBlock file)

theorem size_limit_empty :
    SizeLimit [] 1024 (firstUpload 1024 []).1 (firstUpload 1024 []).2 := by
  refine (size_limit_exact (fun _ _ => rfl) (Nat.zero_le _) [] 1024 fun _ => []).mpr ?_
  exact ⟨fun _ => by decide, fun h => by cases h⟩

-- A file of just the size that is allowed gets a disk full error.
theorem largest_file_refused : ∃ file : List UInt8, file.length = tftpMaxFileSize ∧
    ¬ SizeLimit file tftpMaxFileSize (firstUpload tftpMaxFileSize file).1
      (firstUpload tftpMaxFileSize file).2 := by
  have hlen : (List.replicate tftpMaxFileSize (0 : UInt8)).length = tftpMaxFileSize :=
    List.length_replicate
  generalize List.replicate tftpMaxFileSize (0 : UInt8) = file at hlen
  refine ⟨file, hlen, fun hs => ?_⟩
  have h := @counted_upload file tftpMaxFileSize (fun _ _ => 0) (fun _ => [])
    ⟨0, [], 0, false, false⟩ (fun _ _ => rfl) (Nat.zero_le _) (lastBlock file)
  have hblocks := congrArg List.length (h.blocks.symm.trans (hs.fits (Nat.le_of_eq hlen)).1)
  rw [List.length_map, List.length_map, List.length_range', List.length_range, lastBlock,
    hlen] at hblocks
  revert hblocks
  decide

end Xtcp.Tftp
