import Xtcp.Library.Prefix
import Xtcp.Buffered.SendStream

namespace Xtcp.Buffered
open Segment Memory

-- The last of the pause and unpause commands is a pause.
def paused (out : List Output) : Bool :=
  out.foldl (fun p o => match o with | .pause => true | .unpause => false | _ => p) false

theorem paused_append (out : List Output) (o : Output) :
    paused (out ++ [o]) = match o with
      | .pause => true
      | .unpause => false
      | _ => paused out := by
  unfold paused
  rw [List.foldl_concat]

namespace Stream

variable {s : Stream} {buf last : Nat}

def remaining (s : Stream) : Int := xtcpBufferedSendBufferRemaining s.sender.bufinfo

def lowmark (s : Stream) : Int := s.sender.bufinfo.txLowmark

def Marked (s : Stream) : Prop := paused s.sender.out = true ↔ s.remaining < s.lowmark

-- Below the low mark, the chunk about to be sent reaches it just when the chunk that is now
-- acknowledged does.
def Crosses (s : Stream) (mss : Nat) : Prop :=
  s.remaining < s.lowmark →
    (s.lowmark ≤ s.remaining + (min s.sender.queued.length mss : Nat) ↔
      s.lowmark ≤ s.remaining + s.sender.chunk.length)

def Meets (s : Stream) : Op → Prop
  | .request mss => s.Crosses mss
  | .sent mss => s.Crosses mss
  | _ => True

instance (s : Stream) (mss : Nat) : Decidable (s.Crosses mss) :=
  inferInstanceAs (Decidable (_ → (_ ↔ _)))

instance (s : Stream) : (op : Op) → Decidable (s.Meets op)
  | .send _ => .isTrue trivial
  | .request mss => inferInstanceAs (Decidable (s.Crosses mss))
  | .sent mss => inferInstanceAs (Decidable (s.Crosses mss))
  | .resend _ => .isTrue trivial

structure Buffer (s : Stream) (lowmark : Int) : Prop where
  ordered : Ordered s.sender.bufinfo
  lowmark : s.lowmark = lowmark

theorem Buffer.step {lowmark : Int} (h : s.Buffer lowmark) (op : Op) :
    (s.step op).Buffer lowmark := by
  have hsent (mss : Nat) : Buffer { s with sender := sendChunk mss s.sender } lowmark :=
    ⟨(sendChunk_spec h.ordered mss).1, h.lowmark⟩
  cases op with
  | send data =>
    by_cases hroom : (data.length : Int) ≤ xtcpBufferedSendBufferRemaining s.sender.bufinfo
    · obtain ⟨_, hkept, _⟩ := send_accepted h.ordered hroom
      exact ⟨hkept.ordered, hkept.txLowmark.trans h.lowmark⟩
    · obtain ⟨_, hkept, _⟩ := send_refused h.ordered (Int.not_le.mp hroom)
      exact ⟨hkept.ordered, hkept.txLowmark.trans h.lowmark⟩
  | request mss => exact ⟨(hsent mss).ordered, (hsent mss).lowmark⟩
  | sent mss => exact ⟨(hsent mss).ordered, (hsent mss).lowmark⟩
  | resend mss => exact ⟨h.ordered, h.lowmark⟩

theorem Buffer.run {lowmark : Int} (h : s.Buffer lowmark) (ops : List Op) :
    (s.run ops).Buffer lowmark := by
  induction ops generalizing s with
  | nil => exact h
  | cons op ops ih => exact ih (h.step op)

theorem marked_send (hs : Ordered s.sender.bufinfo) (h : s.Marked) (data : List UInt8) :
    (s.step (.send data)).Marked := by
  by_cases hroom : (data.length : Int) ≤ xtcpBufferedSendBufferRemaining s.sender.bufinfo
  · obtain ⟨_, hkept, _, hout, hremaining⟩ := send_accepted hs hroom
    have hwake : paused (s.sender.out ++ if s.sender.queued = [] then [.initSend] else []) =
        paused s.sender.out := by
      split
      · exact paused_append _ _
      · rw [List.append_nil]
    have hafter : (s.step (.send data)).remaining = s.remaining - data.length := hremaining
    have hlow : (s.step (.send data)).lowmark = s.lowmark := hkept.txLowmark
    unfold Marked
    rw [hafter, hlow]
    show paused (xtcpBufferedSend data s.sender).2.out = true ↔ _
    rw [hout]
    unfold Marked at h
    rw [← hwake] at h
    generalize (s.sender.out ++ if s.sender.queued = [] then [.initSend] else []) = out at h ⊢
    split
    next hlt =>
      rw [paused_append]
      exact ⟨fun _ => hlt, fun _ => rfl⟩
    next hge =>
      have hge' : ¬ s.remaining - data.length < s.lowmark := hge
      rw [List.append_nil, h]
      exact ⟨fun hlt => absurd (by omega) hge', fun hlt => absurd hlt hge'⟩
  · obtain ⟨_, hkept, _, hout, hremaining⟩ := send_refused hs (Int.not_le.mp hroom)
    have hafter : (s.step (.send data)).remaining = s.remaining := hremaining
    have hlow : (s.step (.send data)).lowmark = s.lowmark := hkept.txLowmark
    unfold Marked
    rw [hafter, hlow]
    show paused (xtcpBufferedSend data s.sender).2.out = true ↔ _
    rw [hout]
    exact h

theorem marked_chunk (hs : Ordered s.sender.bufinfo) (h : s.Marked) (mss : Nat)
    {t : Stream} (ht : t.sender = sendChunk mss s.sender) : t.Marked ↔ s.Crosses mss := by
  obtain ⟨_, _, _, hout, hremaining⟩ := sendChunk_spec hs mss
  have hafter : t.remaining = s.remaining + s.sender.chunk.length := by
    unfold remaining
    rw [ht]
    exact hremaining
  have hlow : t.lowmark = s.lowmark := by
    unfold lowmark
    rw [ht]
    rfl
  have hpaused : paused t.sender.out = true ↔ paused s.sender.out = true ∧
      ¬ (s.remaining < s.lowmark ∧
        s.lowmark ≤ s.remaining + (min s.sender.queued.length mss : Nat)) := by
    rw [ht, hout]
    split
    next hcross =>
      rw [paused_append]
      exact ⟨nofun, fun hn => absurd hcross hn.2⟩
    next hcross =>
      rw [List.append_nil, paused_append]
      exact ⟨fun hp => ⟨hp, hcross⟩, And.left⟩
  unfold Marked at h ⊢
  unfold Crosses
  rw [hpaused, hafter, hlow, h]
  omega

theorem marked_step (hs : Ordered s.sender.bufinfo) (h : s.Marked) (op : Op) :
    (s.step op).Marked ↔ s.Meets op := by
  cases op with
  | send data => exact ⟨fun _ => trivial, fun _ => marked_send hs h data⟩
  | request mss => exact marked_chunk hs h mss rfl
  | sent mss => exact marked_chunk hs h mss rfl
  | resend mss =>
    refine ⟨fun _ => trivial, fun _ => ?_⟩
    unfold Marked
    show paused (s.sender.out ++ [_]) = true ↔ _
    rw [paused_append]
    exact h

end Stream

-- The low mark is kept in every state of a run just when every step of it meets the condition.
theorem low_mark (buf buflen : Nat) (lowmark : Int) (hlow : lowmark ≤ buflen) (mem : Nat → UInt8)
    (b : Bufinfo) (ops : List Op) :
    let start := Stream.start buf buflen lowmark mem b
    (∀ pre, pre <+: ops → (start.run pre).Marked) ↔
      ∀ pre op, pre ++ [op] <+: ops → (start.run pre).Meets op := by
  intro start
  have hstart : start.Buffer lowmark :=
    ⟨⟨le_rfl, le_rfl, le_rfl, Nat.le_add_right _ _⟩, rfl⟩
  have hmarked : start.Marked := by
    have hremaining : start.remaining = buflen := by
      show ((buf + buflen : Nat) - buf + (buf - buf) : Int) = buflen
      omega
    unfold Stream.Marked
    rw [hremaining, hstart.lowmark]
    exact ⟨nofun, fun hlt => absurd hlt (Int.not_lt.mpr hlow)⟩
  refine Prefix.forall_prefix_iff (fun pre => (start.run pre).Marked) _ hmarked
    (fun pre op h => ?_) ops
  show (start.run (pre ++ [op])).Marked ↔ _
  unfold Stream.run at h ⊢
  rw [List.foldl_concat]
  exact Stream.marked_step (hstart.run pre).ordered h op

-- Four bytes in a buffer of six, sent two by two: the last one frees the buffer and sends nothing.
def drainedOps : List Op := [.send [1, 2, 3, 4], .request 2, .sent 2, .sent 2]

theorem paused_when_drained :
    ¬ ∀ (buf buflen : Nat) (lowmark : Int) (mem : Nat → UInt8) (b : Bufinfo) (ops : List Op),
      0 ≤ lowmark → lowmark ≤ buflen → (Stream.start buf buflen lowmark mem b).Valid ops →
      ((Stream.start buf buflen lowmark mem b).run ops).Marked := by
  intro h
  have hmarked := h 0 6 5 (fun _ => 0) ⟨false, 0, 0, 0, 0, 0, 0, 0, 0, 0, 0⟩ drainedOps (by decide)
    (by decide) (by decide +kernel)
  have hpaused : paused ((Stream.start 0 6 5 (fun _ => 0)
      ⟨false, 0, 0, 0, 0, 0, 0, 0, 0, 0, 0⟩).run drainedOps).sender.out = true := by decide +kernel
  have hroom : ¬ ((Stream.start 0 6 5 (fun _ => 0)
      ⟨false, 0, 0, 0, 0, 0, 0, 0, 0, 0, 0⟩).run drainedOps).remaining < 5 := by decide +kernel
  exact hroom (hmarked.mp hpaused)

-- Six bytes in a buffer of eight: the connection is paused, and goes on with the third chunk.
def freedOps : List Op := [.send [1, 2, 3, 4, 5, 6], .request 2, .sent 2, .sent 2]

theorem low_mark_freed :
    let start := Stream.start 0 8 5 (fun _ => 0) ⟨false, 0, 0, 0, 0, 0, 0, 0, 0, 0, 0⟩
    (5 : Int) ≤ (8 : Nat) ∧ (∀ pre, pre <+: freedOps → (start.run pre).Marked) ∧
      paused (start.run (freedOps.take 3)).sender.out = true ∧
      paused (start.run freedOps).sender.out = false := by
  intro start
  have hmeets : ∀ k (hk : k < freedOps.length),
      (start.run (freedOps.take k)).Meets freedOps[k] := by decide +kernel
  refine ⟨by decide, (low_mark 0 8 5 (by decide) (fun _ => 0) _ _).mpr ?_, by decide +kernel,
    by decide +kernel⟩
  exact Prefix.forall_step_take (C := fun pre op => (start.run pre).Meets op) hmeets

end Xtcp.Buffered
