import Xtcp.Buffered.Transmit

namespace Xtcp.Buffered
open Segment Memory

-- A connection that is sent on, with what has been accepted for it, the chunks that REQUEST_DATA
-- and SENT_DATA were answered with and the mss of each, and the calls of xtcp_init_send that have
-- not yet led to REQUEST_DATA.
structure Stream where
  sender : Sender
  accepted : List UInt8
  chunks : List (Nat × List UInt8)
  initSends : Nat

inductive Op where
  | send (data : List UInt8)
  | request (mss : Nat)
  | sent (mss : Nat)
  | resend (mss : Nat)

def Output.data : Output → List UInt8
  | .send data => data
  | _ => []

namespace Stream

def start (buf buflen : Nat) (lowmark : Int) (mem : Nat → UInt8) (b : Bufinfo) : Stream where
  sender := ⟨mem, xtcpBufferedSetTxBuffer buf buflen lowmark b, []⟩
  accepted := []
  chunks := []
  initSends := 0

def answer (s : Stream) (event : SendEvent) (mss : Nat) : Stream :=
  let w := xtcpBufferedSendHandler event mss s.sender
  { s with
    sender := w
    chunks := s.chunks ++ [(mss, (w.out.drop s.sender.out.length).flatMap Output.data)] }

def step (s : Stream) : Op → Stream
  | .send data =>
      let r := xtcpBufferedSend data s.sender
      { s with
        sender := r.2
        accepted := if r.1 then s.accepted ++ data else s.accepted
        initSends := s.initSends + (r.2.out.drop s.sender.out.length).count .initSend }
  | .request mss => { s.answer .requestData mss with initSends := s.initSends - 1 }
  | .sent mss => s.answer .sentData mss
  | .resend mss => { s with sender := xtcpBufferedSendHandler .resendData mss s.sender }

def run (s : Stream) (ops : List Op) : Stream := ops.foldl step s

-- Empty when every chunk has been acknowledged.
def lastChunk (s : Stream) : List UInt8 := (s.chunks.getLast?.map Prod.snd).getD []

def Allowed (s : Stream) : Op → Prop
  | .request mss => 0 < mss ∧ s.lastChunk = []
  | .sent mss => 0 < mss
  | _ => True

def Valid : Stream → List Op → Prop
  | _, [] => True
  | s, op :: ops => s.Allowed op ∧ Valid (s.step op) ops

instance (s : Stream) : (op : Op) → Decidable (s.Allowed op)
  | .send _ => .isTrue trivial
  | .request mss => inferInstanceAs (Decidable (0 < mss ∧ s.lastChunk = []))
  | .sent mss => inferInstanceAs (Decidable (0 < mss))
  | .resend _ => .isTrue trivial

instance decidableValid : (s : Stream) → (ops : List Op) → Decidable (s.Valid ops)
  | _, [] => .isTrue trivial
  | s, op :: ops =>
      have := decidableValid (s.step op) ops
      inferInstanceAs (Decidable (s.Allowed op ∧ (s.step op).Valid ops))

structure Inv (buf last : Nat) (s : Stream) : Prop where
  txBuf : s.sender.bufinfo.txBuf = buf
  txEnd : s.sender.bufinfo.txEnd = last
  ordered : Ordered s.sender.bufinfo
  stream : (s.chunks.map Prod.snd).flatten ++ s.sender.queued = s.accepted
  chunk : s.sender.chunk = s.lastChunk
  sizes : ∀ c ∈ s.chunks, c.2.length ≤ c.1
  wake : s.sender.queued ≠ [] → s.lastChunk ≠ [] ∨ 0 < s.initSends

variable {s : Stream} {buf last : Nat}

theorem answer_eq (hs : Ordered s.sender.bufinfo) {event : SendEvent} (he : event ≠ .resendData)
    (mss : Nat) : s.answer event mss = { s with
      sender := sendChunk mss s.sender
      chunks := s.chunks ++ [(mss, s.sender.queued.take mss)] } := by
  have hhandler : xtcpBufferedSendHandler event mss s.sender = sendChunk mss s.sender := by
    cases event with
    | resendData => exact absurd rfl he
    | _ => rfl
  obtain ⟨_, _, _, hout, _⟩ := sendChunk_spec hs mss
  unfold answer
  have hdata : ((sendChunk mss s.sender).out.drop s.sender.out.length).flatMap Output.data =
      s.sender.queued.take mss := by
    rw [hout, List.append_assoc, List.drop_left]
    split <;> simp [Output.data]
  dsimp only
  rw [hhandler, hdata]

theorem Inv.answer (h : s.Inv buf last) {mss : Nat} (hmss : 0 < mss) {event : SendEvent}
    (he : event ≠ .resendData) (n : Nat) :
    Inv buf last { s.answer event mss with initSends := n } := by
  rw [answer_eq h.ordered he]
  obtain ⟨hord, hchunk, hqueued, _, _⟩ := sendChunk_spec h.ordered mss
  have hlast : lastChunk { s with
      sender := sendChunk mss s.sender
      chunks := s.chunks ++ [(mss, s.sender.queued.take mss)]
      initSends := n } = s.sender.queued.take mss := by
    unfold lastChunk
    rw [List.getLast?_concat]
    rfl
  refine ⟨h.txBuf, h.txEnd, hord, ?_, hchunk.trans hlast.symm, ?_, fun hne => Or.inl ?_⟩
  · show (List.map Prod.snd (s.chunks ++ [_])).flatten ++ (sendChunk mss s.sender).queued = _
    rw [hqueued, List.map_append, List.flatten_append, List.append_assoc, ← h.stream]
    simp
  · intro c hc
    rcases List.mem_append.mp hc with hc | hc
    · exact h.sizes c hc
    · obtain rfl := List.mem_singleton.mp hc
      exact List.length_take_le _ _
  · -- what is queued still did not fit in the chunk
    rw [hlast]
    intro hempty
    rcases List.take_eq_nil_iff.mp hempty with h0 | h0
    · omega
    · refine hne ?_
      show (sendChunk mss s.sender).queued = []
      rw [hqueued, h0, List.drop_nil]

theorem Inv.send (h : s.Inv buf last) (data : List UInt8) :
    Inv buf last (s.step (.send data)) := by
  by_cases hroom : (data.length : Int) ≤ xtcpBufferedSendBufferRemaining s.sender.bufinfo
  · obtain ⟨htrue, hkept, hqueued, hout, _⟩ := send_accepted h.ordered hroom
    refine ⟨hkept.txBuf.trans h.txBuf, hkept.txEnd.trans h.txEnd, hkept.ordered, ?_,
      hkept.chunk.trans h.chunk, h.sizes, fun hne => ?_⟩
    · show (s.chunks.map Prod.snd).flatten ++ (xtcpBufferedSend data s.sender).2.queued =
        if (xtcpBufferedSend data s.sender).1 = true then s.accepted ++ data else s.accepted
      rw [if_pos htrue, hqueued, ← List.append_assoc, h.stream]
    · by_cases hempty : s.sender.queued = []
      · refine Or.inr ?_
        show 0 < s.initSends + ((xtcpBufferedSend data s.sender).2.out.drop _).count .initSend
        rw [hout, if_pos hempty, List.append_assoc, List.drop_left, List.count_append]
        exact Nat.lt_of_lt_of_le Nat.one_pos
          ((Nat.le_add_right 1 _).trans (Nat.le_add_left _ s.initSends))
      · exact (h.wake hempty).imp_right fun hlt => Nat.lt_add_right _ hlt
  · obtain ⟨hfalse, hkept, hqueued, hout, _⟩ := send_refused h.ordered (Int.not_le.mp hroom)
    refine ⟨hkept.txBuf.trans h.txBuf, hkept.txEnd.trans h.txEnd, hkept.ordered, ?_,
      hkept.chunk.trans h.chunk, h.sizes, fun hne => ?_⟩
    · show (s.chunks.map Prod.snd).flatten ++ (xtcpBufferedSend data s.sender).2.queued =
        if (xtcpBufferedSend data s.sender).1 = true then s.accepted ++ data else s.accepted
      rw [hfalse, hqueued]
      exact h.stream
    · have hne' : s.sender.queued ≠ [] := hqueued ▸ hne
      exact (h.wake hne').imp_right fun hlt => Nat.lt_add_right _ hlt

theorem Inv.step (h : s.Inv buf last) {op : Op} (hop : s.Allowed op) :
    (s.step op).Inv buf last := by
  cases op with
  | send data => exact h.send data
  | request mss => exact h.answer hop.1 (by decide : SendEvent.requestData ≠ .resendData) _
  | sent mss => exact h.answer hop (by decide : SendEvent.sentData ≠ .resendData) s.initSends
  | resend mss => exact ⟨h.txBuf, h.txEnd, h.ordered, h.stream, h.chunk, h.sizes, h.wake⟩

theorem Inv.run (h : s.Inv buf last) {ops : List Op} (hops : s.Valid ops) :
    (s.run ops).Inv buf last := by
  induction ops generalizing s with
  | nil => exact h
  | cons op ops ih => exact ih (h.step hops.1) hops.2

theorem inv_start (buf buflen : Nat) (lowmark : Int) (mem : Nat → UInt8) (b : Bufinfo) :
    (start buf buflen lowmark mem b).Inv buf (buf + buflen) := by
  have hqueued : (start buf buflen lowmark mem b).sender.queued = [] :=
    List.eq_nil_of_length_eq_zero ((length_queued _).trans (Nat.sub_self buf))
  have hchunk : (start buf buflen lowmark mem b).sender.chunk = [] :=
    List.eq_nil_of_length_eq_zero ((length_chunk _).trans (Nat.sub_self buf))
  exact ⟨rfl, rfl, ⟨le_rfl, le_rfl, le_rfl, Nat.le_add_right _ _⟩, hqueued, hchunk, nofun,
    fun hne => absurd hqueued hne⟩

end Stream

theorem send_returns {w : Sender} (h : Ordered w.bufinfo) (data : List UInt8) :
    ((xtcpBufferedSend data w).1 = true ↔
      (data.length : Int) ≤ xtcpBufferedSendBufferRemaining w.bufinfo) ∧
    ((xtcpBufferedSend data w).1 = false → (xtcpBufferedSend data w).2.queued = w.queued ∧
      (xtcpBufferedSend data w).2.chunk = w.chunk ∧ (xtcpBufferedSend data w).2.out = w.out) := by
  by_cases hroom : (data.length : Int) ≤ xtcpBufferedSendBufferRemaining w.bufinfo
  · obtain ⟨htrue, _⟩ := send_accepted h hroom
    refine ⟨⟨fun _ => hroom, fun _ => htrue⟩, fun hfalse => ?_⟩
    rw [htrue] at hfalse
    cases hfalse
  · obtain ⟨hfalse, hkept, hqueued, hout, _⟩ := send_refused h (Int.not_le.mp hroom)
    refine ⟨⟨fun htrue => ?_, fun hle => absurd hle hroom⟩, fun _ => ⟨hqueued, hkept.chunk, hout⟩⟩
    rw [hfalse] at htrue
    cases htrue

theorem buffered_send (buf buflen : Nat) (lowmark : Int) (mem : Nat → UInt8) (b : Bufinfo)
    (ops : List Op) (hops : (Stream.start buf buflen lowmark mem b).Valid ops) :
    let s := (Stream.start buf buflen lowmark mem b).run ops
    (s.sender.bufinfo.txBuf = buf ∧ s.sender.bufinfo.txEnd = buf + buflen ∧
        Ordered s.sender.bufinfo) ∧
      (s.chunks.map Prod.snd).flatten ++ s.sender.queued = s.accepted ∧
      (∀ c ∈ s.chunks, c.2.length ≤ c.1) ∧
      (∀ mss, (xtcpBufferedSendHandler .resendData mss s.sender).out =
        s.sender.out ++ [.send s.lastChunk]) ∧
      (∀ data, let r := xtcpBufferedSend data s.sender
        (r.1 = true ↔ (data.length : Int) ≤ xtcpBufferedSendBufferRemaining s.sender.bufinfo) ∧
        (r.1 = false → r.2.queued = s.sender.queued ∧ r.2.chunk = s.lastChunk ∧
          r.2.out = s.sender.out)) ∧
      (s.sender.queued ≠ [] → s.lastChunk ≠ [] ∨ 0 < s.initSends) := by
  intro s
  have h : s.Inv buf (buf + buflen) := (Stream.inv_start buf buflen lowmark mem b).run hops
  refine ⟨⟨h.txBuf, h.txEnd, h.ordered⟩, h.stream, h.sizes, fun _ => ?_, fun data => ?_, h.wake⟩
  · show s.sender.out ++ [.send s.sender.chunk] = _
    rw [h.chunk]
  · have hret := send_returns h.ordered data
    rw [h.chunk] at hret
    exact hret

-- The second send finds its room by moving the chunk that is then sent again.
def compactedOps : List Op :=
  [.send [1, 2, 3, 4], .request 2, .sent 2, .send [5, 6, 7], .resend 2, .sent 3]

theorem buffered_send_compacted :
    let s := (Stream.start 0 6 0 (fun _ => 0) ⟨false, 0, 0, 0, 0, 0, 0, 0, 0, 0, 0⟩).run compactedOps
    (Stream.start 0 6 0 (fun _ => 0) ⟨false, 0, 0, 0, 0, 0, 0, 0, 0, 0, 0⟩).Valid compactedOps ∧
      (s.chunks.map Prod.snd).flatten ++ s.sender.queued = s.accepted ∧
      s.chunks.map Prod.snd = [[1, 2], [3, 4], [5, 6, 7]] ∧
      .send [3, 4] ∈ s.sender.out.drop 3 ∧ s.sender.queued = [] := by
  intro s
  have hvalid : (Stream.start 0 6 0 (fun _ => 0) ⟨false, 0, 0, 0, 0, 0, 0, 0, 0, 0, 0⟩).Valid
      compactedOps := by decide +kernel
  exact ⟨hvalid, (buffered_send 0 6 0 (fun _ => 0) _ compactedOps hvalid).2.1, by decide +kernel,
    by decide +kernel, by decide +kernel⟩

end Xtcp.Buffered
