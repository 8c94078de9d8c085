import Xtcp.Library.Prefix
import Xtcp.Library.Memory

namespace Xtcp.Blocking
open Segment Memory

inductive EventKind where
  | newConnection
  | requestData
  | sentData
  | resendData
  | recvData
  | timedOut
  | aborted
  | closed
  | ifdown
  | other
  deriving DecidableEq, Repr

structure Event where
  kind : EventKind
  id : Nat
  mss : Nat
  deriving DecidableEq, Repr

-- The data that an event was answered with.
structure Reply where
  event : Event
  data : List UInt8
  deriving DecidableEq, Repr

-- closes: the ids of xtcp_close. delays: the events whose receive was put off.
structure Writer where
  finished : Bool
  success : Bool
  index : Nat
  prev : Nat
  replies : List Reply
  closes : List Nat
  delays : List Nat

def Writer.start : Writer := ⟨false, true, 0, 0, [], [], []⟩

section Write

variable (id : Nat) (buf : Nat → UInt8) (len : Nat)

def xtcpSendi (index len : Nat) (e : Event) (w : Writer) : Writer :=
  { w with replies := w.replies ++ [⟨e, slice buf index len⟩] }

def sendLen (w : Writer) (e : Event) : Nat :=
  if e.mss < len - w.index then e.mss else len - w.index

def sendNext (w : Writer) (e : Event) : Writer :=
  let sendlen := sendLen len w e
  { xtcpSendi buf w.index sendlen e w with
    prev := w.index
    index := w.index + sendlen
    finished := w.finished || sendlen == 0 }

def fail (w : Writer) : Writer := { w with finished := true, success := false }

def handle (w : Writer) (e : Event) : Writer :=
  match e.kind with
  | .newConnection => { w with closes := w.closes ++ [e.id] }
  | .requestData => sendNext buf len w e
  | .sentData => sendNext buf len w e
  | .resendData => xtcpSendi buf w.prev (w.index - w.prev) e w
  | .recvData => { w with
      delays := w.delays ++ [e.id]
      success := w.success && w.prev == len
      finished := true }
  | .timedOut => if e.id = id then fail w else w
  | .aborted => if e.id = id then fail w else w
  | .closed => if e.id = id then fail w else w
  | .ifdown => fail w
  | .other => w

def step (w : Writer) (e : Event) : Writer := if w.finished then w else handle id buf len w e

def xtcpWrite (events : List Event) : Writer := events.foldl (step id buf len) .start

def Writer.result (w : Writer) : Option Bool := if w.finished then some w.success else none

end Write

-- What the server has been given on a connection: the bytes that are acknowledged, and the last
-- chunk, which is not.
structure Link where
  acked : List UInt8
  last : List UInt8
  deriving DecidableEq, Repr

def Link.next (k : Link) (r : Reply) : Link :=
  match r.event.kind with
  | .requestData => { k with last := r.data }
  | .sentData => ⟨k.acked ++ k.last, r.data⟩
  | _ => k

def link (id : Nat) (replies : List Reply) : Link :=
  (replies.filter fun r => r.event.id == id).foldl Link.next ⟨[], []⟩

section Faithful

variable (id : Nat) (buf : Nat → UInt8) (len : Nat)

structure Faithful (w : Writer) : Prop where
  own : ∀ r ∈ w.replies, r.data ≠ [] → r.event.id = id
  repeats : ∀ pre r post, w.replies = pre ++ r :: post → r.event.kind = .resendData →
    r.event.id = id → r.data = (link id pre).last
  complete : w.result = some true → (link id w.replies).acked = slice buf 0 len

-- REQUEST_DATA comes only when nothing is unacknowledged.
def Legal (w : Writer) (e : Event) : Prop :=
  e.kind = .requestData → e.id = id → (link id w.replies).last = []

def Meets (w : Writer) (e : Event) : Prop :=
  w.finished = true ∨ len = 0 ∨
    ((e.kind = .requestData ∨ e.kind = .sentData → e.id = id ∧ (w.index < len → 0 < e.mss)) ∧
      (e.kind = .resendData → e.id = id ∨ w.index = 0))

instance (w : Writer) (e : Event) : Decidable (Legal id w e) :=
  inferInstanceAs (Decidable (_ → _ → _ = _))

instance (w : Writer) (e : Event) : Decidable (Meets id len w e) :=
  inferInstanceAs (Decidable (_ ∨ _ ∨ (_ → _ ∧ (_ → _)) ∧ (_ → _ ∨ _)))

-- What holds until the call returns.
structure Underway (w : Writer) : Prop where
  success : w.success = true
  ordered : w.prev ≤ w.index
  bound : w.index ≤ len
  chunk : w.index = 0 ∨ w.prev < w.index
  acked : (link id w.replies).acked = slice buf 0 w.prev
  last : (link id w.replies).last = slice buf w.prev (w.index - w.prev)

structure Inv (w : Writer) : Prop where
  faithful : Faithful id buf len w
  underway : w.finished = false → Underway id buf len w

variable {id buf len} {w : Writer} {e : Event}

theorem link_append (id : Nat) (replies : List Reply) (r : Reply) :
    link id (replies ++ [r]) = if r.event.id = id then (link id replies).next r
      else link id replies := by
  unfold link
  rw [List.filter_append, List.foldl_append]
  by_cases h : r.event.id = id
  · have hr : [r].filter (fun r => r.event.id == id) = [r] := List.filter_eq_self.mpr (by simpa)
    rw [if_pos h, hr]
    rfl
  · have hr : [r].filter (fun r => r.event.id == id) = [] := List.filter_eq_nil_iff.mpr (by simpa)
    rw [if_neg h, hr]
    rfl

theorem Underway.empty (h : Underway id buf len w) (hlen : len = 0) :
    w.index = 0 ∧ w.prev = 0 := by
  have hb := h.bound
  have ho := h.ordered
  omega

theorem sendLen_eq (w : Writer) (e : Event) : sendLen len w e = min (len - w.index) e.mss := by
  unfold sendLen
  split <;> omega

-- A reply keeps what has been said of the replies when it is one the connection is to have.
theorem Faithful.reply (h : Faithful id buf len w) {w' : Writer} {r : Reply}
    (hreplies : w'.replies = w.replies ++ [r]) (hown : r.data ≠ [] → r.event.id = id)
    (hrepeat : r.event.kind = .resendData → r.event.id = id → r.data = (link id w.replies).last)
    (hcomplete : w'.result = some true → (link id w'.replies).acked = slice buf 0 len) :
    Faithful id buf len w' := by
  refine ⟨fun x hx => ?_, fun pre x post hsplit => ?_, hcomplete⟩
  · rw [hreplies] at hx
    rcases List.mem_append.mp hx with hx | hx
    · exact h.own x hx
    · obtain rfl := List.mem_singleton.mp hx
      exact hown
  · rw [hreplies] at hsplit
    rcases Prefix.split_concat hsplit with ⟨post', hpost⟩ | ⟨rfl, rfl⟩
    · exact h.repeats pre x post' hpost
    · exact hrepeat

theorem Faithful.same (h : Faithful id buf len w) {w' : Writer}
    (hreplies : w'.replies = w.replies)
    (hcomplete : w'.result = some true → (link id w'.replies).acked = slice buf 0 len) :
    Faithful id buf len w' := by
  refine ⟨?_, ?_, hcomplete⟩
  · rw [hreplies]
    exact h.own
  · rw [hreplies]
    exact h.repeats

theorem link_other {r : Reply} (h : r.event.kind ≠ .requestData) (h' : r.event.kind ≠ .sentData)
    (k : Link) : k.next r = k := by
  unfold Link.next
  split
  · contradiction
  · contradiction
  · rfl

theorem result_running {w : Writer} (h : w.finished = false) : w.result ≠ some true := by
  unfold Writer.result
  rw [h]
  nofun

theorem slice_nil {mem : Nat → UInt8} {start n : Nat} (h : slice mem start n = []) : n = 0 := by
  have hl := length_slice mem start n
  rw [h] at hl
  exact hl.symm

-- REQUEST_DATA finds nothing unacknowledged, and SENT_DATA acknowledges the last chunk.
theorem Underway.link_send (hu : Underway id buf len w)
    (hkind : e.kind = .requestData ∨ e.kind = .sentData) (hlegal : Legal id w e) (hid : e.id = id)
    (data : List UInt8) :
    link id (w.replies ++ [⟨e, data⟩]) = ⟨slice buf 0 w.index, data⟩ := by
  have ho := hu.ordered
  rw [link_append, if_pos hid]
  have hacked := hu.acked
  have hlast := hu.last
  rcases hkind with hk | hk
  · have hempty := hlegal hk hid
    rw [hlast] at hempty
    have hchunk := hu.chunk
    have hz := slice_nil hempty
    have hindex : w.prev = w.index := by omega
    rw [hindex] at hacked
    unfold Link.next
    dsimp only
    rw [hk, hacked]
  · unfold Link.next
    dsimp only
    rw [hk, hacked, hlast]
    have happ := slice_append buf 0 w.prev (w.index - w.prev)
    rw [Nat.add_sub_cancel' ho, Nat.zero_add] at happ
    rw [happ]

theorem sendNext_finished (hw : w.finished = false) (e : Event) :
    (sendNext buf len w e).finished = (sendLen len w e == 0) := by
  show (w.finished || _) = _
  rw [hw, Bool.false_or]

theorem inv_sendNext (h : Inv id buf len w) (hw : w.finished = false)
    (hkind : e.kind = .requestData ∨ e.kind = .sentData) (hlegal : Legal id w e)
    (hmeets : len = 0 ∨ (e.id = id ∧ (w.index < len → 0 < e.mss))) :
    Inv id buf len (sendNext buf len w e) := by
  have hu := h.underway hw
  have hb := hu.bound
  have hn : sendLen len w e = min (len - w.index) e.mss := sendLen_eq w e
  have hfin : (sendNext buf len w e).finished = (sendLen len w e == 0) := sendNext_finished hw e
  have hreplies : (sendNext buf len w e).replies =
      w.replies ++ [⟨e, slice buf w.index (sendLen len w e)⟩] := rfl
  have hresend : e.kind ≠ .resendData := by
    rcases hkind with hk | hk <;> rw [hk] <;> decide
  by_cases hid : e.id = id
  · have hlink := hu.link_send hkind hlegal hid (slice buf w.index (sendLen len w e))
    refine ⟨h.faithful.reply hreplies (fun _ => hid) (fun hk => absurd hk hresend) fun hres => ?_,
      fun hrun => ?_⟩
    · -- nothing was left to send
      have hall : w.index = len := by
        have hzero : sendLen len w e = 0 := by
          by_contra hpos
          refine result_running (w := sendNext buf len w e) ?_ hres
          rw [hfin]
          exact beq_false_of_ne hpos
        rcases hmeets with hlen | ⟨_, hmss⟩
        · omega
        · by_contra hne
          have := hmss (by omega)
          omega
      rw [hreplies, hlink, hall]
    · rw [hfin] at hrun
      have hpos : sendLen len w e ≠ 0 := fun hz => by rw [hz] at hrun; cases hrun
      refine ⟨hu.success, Nat.le_add_right _ _, ?_, Or.inr ?_, ?_, ?_⟩
      · show w.index + sendLen len w e ≤ len
        omega
      · show w.index < w.index + sendLen len w e
        omega
      · rw [hreplies, hlink]
        rfl
      · rw [hreplies, hlink]
        show slice buf w.index (sendLen len w e) =
          slice buf w.index (w.index + sendLen len w e - w.index)
        rw [Nat.add_sub_cancel_left]
  · have hlen : len = 0 := hmeets.resolve_right fun hm => hid hm.1
    obtain ⟨hindex, hprev⟩ := hu.empty hlen
    have hzero : sendLen len w e = 0 := by omega
    have hdata : slice buf w.index (sendLen len w e) = [] := by
      rw [hzero]
      rfl
    refine ⟨h.faithful.reply hreplies (fun hne => absurd hdata hne) (fun hk => absurd hk hresend)
      fun _ => ?_, fun hrun => ?_⟩
    · rw [hreplies, link_append, if_neg hid, hu.acked, hprev, hlen]
    · rw [hfin, hzero] at hrun
      cases hrun

theorem inv_resend (h : Inv id buf len w) (hw : w.finished = false) (hk : e.kind = .resendData)
    (hmeets : len = 0 ∨ e.id = id ∨ w.index = 0) :
    Inv id buf len (xtcpSendi buf w.prev (w.index - w.prev) e w) := by
  have hu := h.underway hw
  have ho := hu.ordered
  have hb := hu.bound
  have hreplies : (xtcpSendi buf w.prev (w.index - w.prev) e w).replies =
      w.replies ++ [⟨e, slice buf w.prev (w.index - w.prev)⟩] := rfl
  have hlink : link id (w.replies ++ [⟨e, slice buf w.prev (w.index - w.prev)⟩]) =
      link id w.replies := by
    rw [link_append]
    split
    · exact link_other (by rw [hk]; decide) (by rw [hk]; decide) _
    · rfl
  refine ⟨h.faithful.reply hreplies (fun hne => ?_) (fun _ _ => hu.last.symm) fun hres => ?_,
    fun _ => ?_⟩
  · by_contra hid
    have hindex : w.index = 0 := by
      rcases hmeets with hlen | hid' | hindex
      · omega
      · exact absurd hid' hid
      · exact hindex
    refine hne ?_
    show slice buf w.prev (w.index - w.prev) = []
    rw [hindex, Nat.zero_sub]
    rfl
  · exact absurd hres (result_running hw)
  · refine ⟨hu.success, ho, hb, hu.chunk, ?_, ?_⟩
    · rw [hreplies, hlink]
      exact hu.acked
    · rw [hreplies, hlink]
      exact hu.last

theorem inv_fail (h : Inv id buf len w) : Inv id buf len (fail w) :=
  ⟨h.faithful.same rfl nofun, nofun⟩

theorem inv_delay (h : Inv id buf len w) (hw : w.finished = false) (ids : List Nat) :
    Inv id buf len { w with
      delays := ids, success := w.success && w.prev == len, finished := true } := by
  have hu := h.underway hw
  refine ⟨h.faithful.same rfl fun hres => ?_, nofun⟩
  have hand : (w.success && w.prev == len) = true := Option.some.inj hres
  rw [Bool.and_eq_true] at hand
  have hprev : w.prev = len := eq_of_beq hand.2
  show (link id w.replies).acked = _
  rw [hu.acked, hprev]

theorem inv_step (h : Inv id buf len w) (hlegal : Legal id w e) (hmeets : Meets id len w e) :
    Inv id buf len (step id buf len w e) := by
  unfold step
  cases hw : w.finished with
  | true => exact h
  | false =>
    have hm := hmeets.resolve_left (by rw [hw]; decide)
    rw [if_neg (by decide)]
    unfold handle
    split
    next => exact ⟨h.faithful.same rfl fun hres => absurd hres (result_running hw),
      fun _ => have hu := h.underway hw
        ⟨hu.success, hu.ordered, hu.bound, hu.chunk, hu.acked, hu.last⟩⟩
    next hk => exact inv_sendNext h hw (Or.inl hk) hlegal (hm.imp_right fun hm => hm.1 (Or.inl hk))
    next hk => exact inv_sendNext h hw (Or.inr hk) hlegal (hm.imp_right fun hm => hm.1 (Or.inr hk))
    next hk => exact inv_resend h hw hk (hm.imp_right fun hm => hm.2 hk)
    next => exact inv_delay h hw _
    next => split; exacts [inv_fail h, h]
    next => split; exacts [inv_fail h, h]
    next => split; exacts [inv_fail h, h]
    next => exact inv_fail h
    next => exact h

-- A chunk for another connection, or a return before the bytes are acknowledged.
theorem meets_sendNext (h : Inv id buf len w) (hw : w.finished = false)
    (hkind : e.kind = .requestData ∨ e.kind = .sentData) (hlegal : Legal id w e)
    (hnext : Faithful id buf len (sendNext buf len w e)) :
    len = 0 ∨ (e.id = id ∧ (w.index < len → 0 < e.mss)) := by
  by_contra hnot
  obtain ⟨hlen, hnot⟩ := not_or.mp hnot
  have hu := h.underway hw
  have ho := hu.ordered
  have hb := hu.bound
  have hn : sendLen len w e = min (len - w.index) e.mss := sendLen_eq w e
  have hreplies : (sendNext buf len w e).replies =
      w.replies ++ [⟨e, slice buf w.index (sendLen len w e)⟩] := rfl
  by_cases hzero : sendLen len w e = 0
  · have hres : (sendNext buf len w e).result = some true := by
      unfold Writer.result
      rw [sendNext_finished hw, hzero]
      exact congrArg some hu.success
    have hcomplete := congrArg List.length (hnext.complete hres)
    rw [length_slice, hreplies] at hcomplete
    by_cases hid : e.id = id
    · rw [hu.link_send hkind hlegal hid, length_slice] at hcomplete
      exact hnot ⟨hid, fun hlt => by omega⟩
    · rw [link_append, if_neg hid, hu.acked, length_slice] at hcomplete
      have := hu.chunk
      omega
  · have hid : e.id = id := by
      refine hnext.own ⟨e, slice buf w.index (sendLen len w e)⟩ ?_ fun hnil => hzero (slice_nil hnil)
      rw [hreplies]
      exact List.mem_append_right _ (List.mem_singleton.mpr rfl)
    exact hnot ⟨hid, fun _ => by omega⟩

theorem meets_resend (h : Inv id buf len w) (hw : w.finished = false)
    (hnext : Faithful id buf len (xtcpSendi buf w.prev (w.index - w.prev) e w)) :
    len = 0 ∨ e.id = id ∨ w.index = 0 := by
  have hu := h.underway hw
  by_cases hindex : w.index = 0
  · exact Or.inr (Or.inr hindex)
  · refine Or.inr (Or.inl ?_)
    have hlt := hu.chunk.resolve_left hindex
    refine hnext.own ⟨e, slice buf w.prev (w.index - w.prev)⟩ ?_ fun hnil => ?_
    · exact List.mem_append_right _ (List.mem_singleton.mpr rfl)
    · have := slice_nil hnil
      omega

theorem meets_step (h : Inv id buf len w) (hlegal : Legal id w e)
    (hnext : Faithful id buf len (step id buf len w e)) : Meets id len w e := by
  unfold Meets
  cases hw : w.finished with
  | true => exact Or.inl rfl
  | false =>
    have hstep : step id buf len w e = handle id buf len w e := if_neg (by rw [hw]; decide)
    rw [hstep] at hnext
    unfold handle at hnext
    refine Or.inr (or_iff_not_imp_left.mpr fun hlen => ⟨fun hk => ?_, fun hk => ?_⟩)
    · have hsend : Faithful id buf len (sendNext buf len w e) := by
        rcases hk with hk | hk <;> rw [hk] at hnext <;> exact hnext
      exact (meets_sendNext h hw hk hlegal hsend).resolve_left hlen
    · rw [hk] at hnext
      exact (meets_resend h hw hnext).resolve_left hlen

end Faithful

theorem inv_start (id : Nat) (buf : Nat → UInt8) (len : Nat) : Inv id buf len .start :=
  ⟨⟨nofun, fun pre _ _ h => absurd h.symm (List.append_ne_nil_of_right_ne_nil pre nofun), nofun⟩,
    fun _ => ⟨rfl, le_rfl, Nat.zero_le _, Or.inl rfl, rfl, rfl⟩⟩

-- xtcp_write keeps its promise in every state of a run just when every step of the run meets the
-- condition.
theorem blocking_write (id : Nat) (buf : Nat → UInt8) (len : Nat) (events : List Event)
    (hlegal : ∀ pre e, pre ++ [e] <+: events → Legal id (xtcpWrite id buf len pre) e) :
    (∀ pre, pre <+: events → Faithful id buf len (xtcpWrite id buf len pre)) ↔
      ∀ pre e, pre ++ [e] <+: events → Meets id len (xtcpWrite id buf len pre) e := by
  refine Prefix.forall_prefix_iff_of (I := fun pre => Inv id buf len (xtcpWrite id buf len pre))
    (inv_start id buf len) (fun pre h => h.faithful) fun pre e hp h => ?_
  have hnext : xtcpWrite id buf len (pre ++ [e]) = step id buf len (xtcpWrite id buf len pre) e :=
    List.foldl_concat _ _ _ _
  rw [hnext]
  exact ⟨inv_step h (hlegal pre e hp), meets_step h (hlegal pre e hp)⟩

def threeBytes (a : Nat) : UInt8 := UInt8.ofNat (a + 1)

-- Connection 2 is asked for data while connection 1 is written to.
theorem write_to_other_connection :
    ¬ ∀ (id : Nat) (buf : Nat → UInt8) (len : Nat) (events : List Event),
      (∀ pre e, pre ++ [e] <+: events → Legal id (xtcpWrite id buf len pre) e) →
      Faithful id buf len (xtcpWrite id buf len events) := by
  intro h
  have hlegal : ∀ k (hk : k < [Event.mk .requestData 2 10].length),
      Legal 1 (xtcpWrite 1 threeBytes 3 ([Event.mk .requestData 2 10].take k))
        [Event.mk .requestData 2 10][k] := by decide
  have hown := (h 1 threeBytes 3 [⟨.requestData, 2, 10⟩] (Prefix.forall_step_take
    (C := fun pre e => Legal 1 (xtcpWrite 1 threeBytes 3 pre) e) hlegal)).own
  exact absurd (hown ⟨⟨.requestData, 2, 10⟩, [1, 2, 3]⟩ (by decide) (by decide)) (by decide)

def writeEvents : List Event :=
  [⟨.requestData, 1, 2⟩, ⟨.resendData, 1, 2⟩, ⟨.closed, 2, 0⟩, ⟨.sentData, 1, 2⟩, ⟨.sentData, 1, 2⟩]

theorem blocking_write_resent :
    (∀ pre e, pre ++ [e] <+: writeEvents → Legal 1 (xtcpWrite 1 threeBytes 3 pre) e) ∧
      (∀ pre, pre <+: writeEvents → Faithful 1 threeBytes 3 (xtcpWrite 1 threeBytes 3 pre)) ∧
      (xtcpWrite 1 threeBytes 3 writeEvents).result = some true ∧
      (xtcpWrite 1 threeBytes 3 writeEvents).replies.map Reply.data = [[1, 2], [1, 2], [3], []] := by
  have hlegal : ∀ k (hk : k < writeEvents.length),
      Legal 1 (xtcpWrite 1 threeBytes 3 (writeEvents.take k)) writeEvents[k] := by decide
  have hmeets : ∀ k (hk : k < writeEvents.length),
      Meets 1 3 (xtcpWrite 1 threeBytes 3 (writeEvents.take k)) writeEvents[k] := by decide
  have hlegal' := Prefix.forall_step_take
    (C := fun pre e => Legal 1 (xtcpWrite 1 threeBytes 3 pre) e) hlegal
  exact ⟨hlegal', (blocking_write 1 threeBytes 3 writeEvents hlegal').mpr (Prefix.forall_step_take
    (C := fun pre e => Meets 1 3 (xtcpWrite 1 threeBytes 3 pre) e) hmeets), by decide, by decide⟩

end Xtcp.Blocking
