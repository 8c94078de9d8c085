import Xtcp.Buffered.Receive

namespace Xtcp.Buffered
open Segment Memory

inductive Output where
  | initSend
  | pause
  | unpause
  | send (data : List UInt8)
  deriving DecidableEq, Repr

-- out: what the client has told the server.
structure Sender where
  mem : Nat → UInt8
  bufinfo : Bufinfo
  out : List Output

def Sender.tell (o : Output) (w : Sender) : Sender := { w with out := w.out ++ [o] }

def xtcpBufferedSetTxBuffer (buf buflen : Nat) (lowmark : Int) (b : Bufinfo) : Bufinfo :=
  { b with
    txBuf := buf
    txEnd := buf + buflen
    txRdptr := buf
    txPrevRdptr := buf
    txWrptr := buf
    txLowmark := lowmark }

def Bufinfo.shift (b : Bufinfo) : Nat := b.txPrevRdptr - b.txBuf

-- The last chunk and the unsent data are moved to the front of the buffer.
def compact (w : Sender) : Sender :=
  let b := w.bufinfo
  { w with
    mem := move w.mem b.txBuf b.txPrevRdptr (b.txWrptr - b.txPrevRdptr)
    bufinfo := { b with
      txPrevRdptr := b.txPrevRdptr - b.shift
      txRdptr := b.txRdptr - b.shift
      txWrptr := b.txWrptr - b.shift } }

def spaceAtEnd (b : Bufinfo) : Int := b.txEnd - b.txWrptr

def xtcpBufferedSendBufferRemaining (b : Bufinfo) : Int :=
  (b.txEnd - b.txWrptr) + (b.txPrevRdptr - b.txBuf)

def append (data : List UInt8) (w : Sender) : Sender :=
  let b := w.bufinfo
  let w := { w with mem := write w.mem b.txWrptr data }
  let w := if b.txRdptr = b.txWrptr then w.tell .initSend else w
  { w with bufinfo := { b with txWrptr := b.txWrptr + data.length } }

def xtcpBufferedSend (data : List UInt8) (w : Sender) : Bool × Sender :=
  let spaceLeft := spaceAtEnd w.bufinfo
  let r := if spaceLeft < data.length then (spaceLeft + w.bufinfo.shift, compact w)
    else (spaceLeft, w)
  if r.1 < data.length then (false, r.2)
  else
    let w := append data r.2
    let spaceLeft := r.1 - data.length + (w.bufinfo.txPrevRdptr - w.bufinfo.txBuf : Int)
    (true, if spaceLeft < w.bufinfo.txLowmark then w.tell .pause else w)

inductive SendEvent where
  | requestData
  | sentData
  | resendData
  deriving DecidableEq, Repr

def resendChunk (w : Sender) : Sender :=
  let b := w.bufinfo
  w.tell (.send (slice w.mem b.txPrevRdptr (b.txRdptr - b.txPrevRdptr)))

def nextLen (mss : Nat) (b : Bufinfo) : Nat :=
  if mss < b.txWrptr - b.txRdptr then mss else b.txWrptr - b.txRdptr

def sendChunk (mss : Nat) (w : Sender) : Sender :=
  let b := w.bufinfo
  let spaceLeft := xtcpBufferedSendBufferRemaining b
  let len := nextLen mss b
  let w := w.tell (.send (slice w.mem b.txRdptr len))
  let w := if spaceLeft < b.txLowmark ∧ b.txLowmark ≤ spaceLeft + len then w.tell .unpause else w
  { w with bufinfo := { b with txPrevRdptr := b.txRdptr, txRdptr := b.txRdptr + len } }

def xtcpBufferedSendHandler (event : SendEvent) (mss : Nat) (w : Sender) : Sender :=
  match event with
  | .resendData => resendChunk w
  | _ => sendChunk mss w

structure Ordered (b : Bufinfo) : Prop where
  low : b.txBuf ≤ b.txPrevRdptr
  prev : b.txPrevRdptr ≤ b.txRdptr
  next : b.txRdptr ≤ b.txWrptr
  high : b.txWrptr ≤ b.txEnd

def Sender.chunk (w : Sender) : List UInt8 :=
  slice w.mem w.bufinfo.txPrevRdptr (w.bufinfo.txRdptr - w.bufinfo.txPrevRdptr)

def Sender.queued (w : Sender) : List UInt8 :=
  slice w.mem w.bufinfo.txRdptr (w.bufinfo.txWrptr - w.bufinfo.txRdptr)

section Specs

variable {w : Sender}

@[simp] theorem length_chunk (w : Sender) :
    w.chunk.length = w.bufinfo.txRdptr - w.bufinfo.txPrevRdptr := length_slice _ _ _

@[simp] theorem length_queued (w : Sender) :
    w.queued.length = w.bufinfo.txWrptr - w.bufinfo.txRdptr := length_slice _ _ _

theorem chunk_queued (h : Ordered w.bufinfo) :
    slice w.mem w.bufinfo.txPrevRdptr (w.bufinfo.txWrptr - w.bufinfo.txPrevRdptr) =
      w.chunk ++ w.queued := by
  have hprev := h.prev
  have hnext := h.next
  have hlen : w.bufinfo.txWrptr - w.bufinfo.txPrevRdptr =
      (w.bufinfo.txRdptr - w.bufinfo.txPrevRdptr) + (w.bufinfo.txWrptr - w.bufinfo.txRdptr) := by
    omega
  rw [hlen, slice_append, Nat.add_sub_cancel' hprev]
  rfl

-- What a change of the buffer leaves as it is.
structure Kept (w w' : Sender) : Prop where
  ordered : Ordered w'.bufinfo
  chunk : w'.chunk = w.chunk
  txBuf : w'.bufinfo.txBuf = w.bufinfo.txBuf
  txEnd : w'.bufinfo.txEnd = w.bufinfo.txEnd
  txLowmark : w'.bufinfo.txLowmark = w.bufinfo.txLowmark

theorem kept_compact (h : Ordered w.bufinfo) :
    Kept w (compact w) ∧ (compact w).queued = w.queued ∧
      spaceAtEnd (compact w).bufinfo = spaceAtEnd w.bufinfo + w.bufinfo.shift ∧
      xtcpBufferedSendBufferRemaining (compact w).bufinfo =
        xtcpBufferedSendBufferRemaining w.bufinfo ∧
      (compact w).bufinfo.txPrevRdptr = (compact w).bufinfo.txBuf := by
  have hlow := h.low
  have hprev := h.prev
  have hnext := h.next
  have hhigh := h.high
  have hord : Ordered (compact w).bufinfo := by
    refine ⟨?_, ?_, ?_, ?_⟩ <;> simp only [compact, Bufinfo.shift] <;> omega
  have hfront : (compact w).bufinfo.txPrevRdptr = (compact w).bufinfo.txBuf := by
    simp only [compact, Bufinfo.shift]
    omega
  have hmoved : (compact w).chunk ++ (compact w).queued = w.chunk ++ w.queued := by
    have hlen : (compact w).bufinfo.txWrptr - (compact w).bufinfo.txPrevRdptr =
        w.bufinfo.txWrptr - w.bufinfo.txPrevRdptr := by
      simp only [compact, Bufinfo.shift]
      omega
    rw [← chunk_queued hord, ← chunk_queued h, hlen, hfront]
    exact slice_move _ _ _ _
  have hlen : (compact w).chunk.length = w.chunk.length := by
    simp only [length_chunk, compact, Bufinfo.shift]
    omega
  obtain ⟨hchunk, hqueued⟩ := List.append_inj hmoved hlen
  refine ⟨⟨hord, hchunk, rfl, rfl, rfl⟩, hqueued, ?_, ?_, hfront⟩
  · simp only [spaceAtEnd, compact, Bufinfo.shift]
    omega
  · simp only [xtcpBufferedSendBufferRemaining, compact, Bufinfo.shift]
    omega

theorem kept_append (h : Ordered w.bufinfo) (data : List UInt8)
    (hroom : (data.length : Int) ≤ spaceAtEnd w.bufinfo) :
    Kept w (append data w) ∧ (append data w).queued = w.queued ++ data ∧
      (append data w).out = w.out ++ (if w.queued = [] then [.initSend] else []) ∧
      xtcpBufferedSendBufferRemaining (append data w).bufinfo =
        xtcpBufferedSendBufferRemaining w.bufinfo - data.length := by
  have hprev := h.prev
  have hnext := h.next
  unfold spaceAtEnd at hroom
  have hmem : (append data w).mem = write w.mem w.bufinfo.txWrptr data := by
    unfold append
    dsimp only
    split <;> rfl
  have hbuf : (append data w).bufinfo =
      { w.bufinfo with txWrptr := w.bufinfo.txWrptr + data.length } := rfl
  have hempty : (w.bufinfo.txRdptr = w.bufinfo.txWrptr) ↔ w.queued = [] := by
    rw [← List.length_eq_zero_iff, length_queued]
    omega
  refine ⟨⟨?_, ?_, rfl, rfl, rfl⟩, ?_, ?_, ?_⟩
  · rw [hbuf]
    refine ⟨h.low, hprev, hnext.trans (Nat.le_add_right _ _), ?_⟩
    show w.bufinfo.txWrptr + data.length ≤ w.bufinfo.txEnd
    omega
  · unfold Sender.chunk
    rw [hmem, hbuf]
    have hbefore : w.bufinfo.txPrevRdptr + (w.bufinfo.txRdptr - w.bufinfo.txPrevRdptr) ≤
        w.bufinfo.txWrptr := by omega
    exact slice_write_before w.mem data hbefore
  · unfold Sender.queued
    rw [hmem, hbuf]
    show slice _ _ (w.bufinfo.txWrptr + data.length - w.bufinfo.txRdptr) = _
    have hlen : w.bufinfo.txWrptr + data.length - w.bufinfo.txRdptr =
        w.bufinfo.txWrptr - w.bufinfo.txRdptr + data.length := by omega
    rw [hlen]
    exact slice_write_append w.mem hnext data
  · unfold append
    dsimp only
    by_cases hq : w.queued = []
    · rw [if_pos hq, if_pos (hempty.mpr hq)]
      rfl
    · rw [if_neg hq, if_neg fun he => hq (hempty.mp he)]
      exact (List.append_nil _).symm
  · rw [hbuf]
    simp only [xtcpBufferedSendBufferRemaining]
    omega

theorem send_refused {data : List UInt8} (h : Ordered w.bufinfo)
    (hroom : xtcpBufferedSendBufferRemaining w.bufinfo < data.length) :
    (xtcpBufferedSend data w).1 = false ∧ Kept w (xtcpBufferedSend data w).2 ∧
      (xtcpBufferedSend data w).2.queued = w.queued ∧ (xtcpBufferedSend data w).2.out = w.out ∧
      xtcpBufferedSendBufferRemaining (xtcpBufferedSend data w).2.bufinfo =
        xtcpBufferedSendBufferRemaining w.bufinfo := by
  have hlow := h.low
  obtain ⟨hkept, hqueued, hspace, hremaining, hfront⟩ := kept_compact h
  have hshort : spaceAtEnd w.bufinfo < data.length := by
    unfold xtcpBufferedSendBufferRemaining at hroom
    unfold spaceAtEnd
    omega
  have hstill : spaceAtEnd w.bufinfo + w.bufinfo.shift < data.length := by
    unfold xtcpBufferedSendBufferRemaining at hroom
    unfold spaceAtEnd Bufinfo.shift
    omega
  have hsend : xtcpBufferedSend data w = (false, compact w) := by
    unfold xtcpBufferedSend
    dsimp only
    rw [if_pos hshort, if_pos hstill]
  rw [hsend]
  exact ⟨rfl, hkept, hqueued, rfl, hremaining⟩

theorem remaining_eq (b : Bufinfo) :
    xtcpBufferedSendBufferRemaining b = spaceAtEnd b + (b.txPrevRdptr - b.txBuf) := rfl

theorem Kept.tell {w' : Sender} (h : Kept w w') (o : Output) : Kept w (w'.tell o) :=
  ⟨h.ordered, h.chunk, h.txBuf, h.txEnd, h.txLowmark⟩

theorem Kept.trans {w' w'' : Sender} (h : Kept w w') (h' : Kept w' w'') : Kept w w'' :=
  ⟨h'.ordered, h'.chunk.trans h.chunk, h'.txBuf.trans h.txBuf, h'.txEnd.trans h.txEnd,
    h'.txLowmark.trans h.txLowmark⟩

theorem send_accepted {data : List UInt8} (h : Ordered w.bufinfo)
    (hroom : (data.length : Int) ≤ xtcpBufferedSendBufferRemaining w.bufinfo) :
    (xtcpBufferedSend data w).1 = true ∧ Kept w (xtcpBufferedSend data w).2 ∧
      (xtcpBufferedSend data w).2.queued = w.queued ++ data ∧
      (xtcpBufferedSend data w).2.out = w.out ++ (if w.queued = [] then [.initSend] else []) ++
        (if xtcpBufferedSendBufferRemaining w.bufinfo - data.length < w.bufinfo.txLowmark then
          [.pause] else []) ∧
      xtcpBufferedSendBufferRemaining (xtcpBufferedSend data w).2.bufinfo =
        xtcpBufferedSendBufferRemaining w.bufinfo - data.length := by
  -- the buffer in which the data is put, compacted or not
  have hput : ∃ w₁, Kept w w₁ ∧ w₁.queued = w.queued ∧ w₁.out = w.out ∧
      xtcpBufferedSendBufferRemaining w₁.bufinfo = xtcpBufferedSendBufferRemaining w.bufinfo ∧
      (data.length : Int) ≤ spaceAtEnd w₁.bufinfo ∧
      xtcpBufferedSend data w = (true,
        if xtcpBufferedSendBufferRemaining w.bufinfo - data.length < w₁.bufinfo.txLowmark then
          (append data w₁).tell .pause else append data w₁) := by
    have hlow := h.low
    obtain ⟨hkept, hqueued, hspace, hremaining, hfront⟩ := kept_compact h
    by_cases hshort : spaceAtEnd w.bufinfo < data.length
    · have hfits : (data.length : Int) ≤ spaceAtEnd (compact w).bufinfo := by
        rw [hspace]
        rw [remaining_eq] at hroom
        unfold Bufinfo.shift
        omega
      refine ⟨compact w, hkept, hqueued, rfl, hremaining, hfits, ?_⟩
      unfold xtcpBufferedSend
      dsimp only
      rw [if_pos hshort, if_neg (by rw [← hspace]; omega)]
      have hafter : spaceAtEnd w.bufinfo + w.bufinfo.shift - data.length +
          ((append data (compact w)).bufinfo.txPrevRdptr - (append data (compact w)).bufinfo.txBuf :
            Int) = xtcpBufferedSendBufferRemaining w.bufinfo - data.length := by
        rw [← hspace, ← hremaining, remaining_eq]
        show spaceAtEnd (compact w).bufinfo - data.length +
          ((compact w).bufinfo.txPrevRdptr - (compact w).bufinfo.txBuf : Int) = _
        omega
      rw [hafter]
      rfl
    · refine ⟨w, ⟨h, rfl, rfl, rfl, rfl⟩, rfl, rfl, rfl, Int.not_lt.mp hshort, ?_⟩
      unfold xtcpBufferedSend
      dsimp only
      rw [if_neg hshort, if_neg hshort]
      have hafter : spaceAtEnd w.bufinfo - data.length +
          ((append data w).bufinfo.txPrevRdptr - (append data w).bufinfo.txBuf : Int) =
          xtcpBufferedSendBufferRemaining w.bufinfo - data.length := by
        rw [remaining_eq]
        show spaceAtEnd w.bufinfo - data.length +
          (w.bufinfo.txPrevRdptr - w.bufinfo.txBuf : Int) = _
        omega
      rw [hafter]
      rfl
  obtain ⟨w₁, hkept, hqueued, hout, hremaining, hfits, hsend⟩ := hput
  obtain ⟨hkept', hqueued', hout', hremaining'⟩ := kept_append hkept.ordered data hfits
  rw [hsend, hkept.txLowmark]
  rw [hqueued, hout] at hout'
  rw [hqueued] at hqueued'
  rw [hremaining] at hremaining'
  split
  · refine ⟨rfl, (hkept.trans hkept').tell _, hqueued', ?_, hremaining'⟩
    show (append data w₁).out ++ [Output.pause] = _
    rw [hout']
  · exact ⟨rfl, hkept.trans hkept', hqueued', hout'.trans (List.append_nil _).symm, hremaining'⟩

theorem nextLen_eq (mss : Nat) (w : Sender) :
    nextLen mss w.bufinfo = min w.queued.length mss := by
  rw [length_queued]
  unfold nextLen
  split <;> omega

theorem sendChunk_spec (h : Ordered w.bufinfo) (mss : Nat) :
    Ordered (sendChunk mss w).bufinfo ∧ (sendChunk mss w).chunk = w.queued.take mss ∧
      (sendChunk mss w).queued = w.queued.drop mss ∧
      (sendChunk mss w).out = w.out ++ [.send (w.queued.take mss)] ++
        (if xtcpBufferedSendBufferRemaining w.bufinfo < w.bufinfo.txLowmark ∧
            w.bufinfo.txLowmark ≤ xtcpBufferedSendBufferRemaining w.bufinfo +
              (min w.queued.length mss : Nat) then [.unpause] else []) ∧
      xtcpBufferedSendBufferRemaining (sendChunk mss w).bufinfo =
        xtcpBufferedSendBufferRemaining w.bufinfo + w.chunk.length := by
  have hprev := h.prev
  have hnext := h.next
  have hlen := nextLen_eq mss w
  have hle : nextLen mss w.bufinfo ≤ w.bufinfo.txWrptr - w.bufinfo.txRdptr := by
    rw [hlen, length_queued]
    exact Nat.min_le_left _ _
  have hmem : (sendChunk mss w).mem = w.mem := by
    unfold sendChunk
    dsimp only
    split <;> rfl
  have hbuf : (sendChunk mss w).bufinfo = { w.bufinfo with
      txPrevRdptr := w.bufinfo.txRdptr, txRdptr := w.bufinfo.txRdptr + nextLen mss w.bufinfo } := rfl
  have htake : slice w.mem w.bufinfo.txRdptr (nextLen mss w.bufinfo) = w.queued.take mss := by
    unfold Sender.queued
    rw [slice_take, hlen, length_queued, Nat.min_comm]
  refine ⟨?_, ?_, ?_, ?_, ?_⟩
  · rw [hbuf]
    refine ⟨h.low.trans hprev, Nat.le_add_right _ _, ?_, h.high⟩
    show w.bufinfo.txRdptr + nextLen mss w.bufinfo ≤ w.bufinfo.txWrptr
    omega
  · unfold Sender.chunk
    rw [hmem, hbuf]
    show slice w.mem w.bufinfo.txRdptr (w.bufinfo.txRdptr + nextLen mss w.bufinfo -
      w.bufinfo.txRdptr) = _
    rw [Nat.add_sub_cancel_left, htake]
  · have hdrop : slice w.mem (w.bufinfo.txRdptr + nextLen mss w.bufinfo)
        (w.bufinfo.txWrptr - (w.bufinfo.txRdptr + nextLen mss w.bufinfo)) =
        w.queued.drop (nextLen mss w.bufinfo) := by
      unfold Sender.queued
      rw [slice_drop, Nat.sub_add_eq]
    unfold Sender.queued
    rw [hmem, hbuf]
    refine hdrop.trans ?_
    rw [hlen]
    show w.queued.drop _ = w.queued.drop mss
    by_cases hm : w.queued.length ≤ mss
    · rw [Nat.min_eq_left hm, List.drop_length, List.drop_eq_nil_of_le hm]
    · rw [Nat.min_eq_right (by omega)]
  · rw [← htake, ← hlen]
    unfold sendChunk
    dsimp only
    split
    · rfl
    · exact (List.append_nil _).symm
  · rw [hbuf, length_chunk]
    unfold xtcpBufferedSendBufferRemaining
    show (w.bufinfo.txEnd - w.bufinfo.txWrptr + (w.bufinfo.txRdptr - w.bufinfo.txBuf) : Int) = _
    omega

end Specs

end Xtcp.Buffered
