import Xtcp.Channel.Position

namespace Xtcp.Channel
open Session Relation

def Mark.isOp : Mark → Bool
  | .queued _ => false
  | _ => true

def Mark.isRecord : Mark → Bool
  | .delivered _ => true
  | .record _ => true
  | _ => false

def Mark.mail : Mark → Option (Mailbox.Act Nat)
  | .queued event => some (.put event)
  | .delivered event => some (.take event)
  | _ => none

def ops (hist : List Mark) : List Mark := hist.filter Mark.isOp

def mails (hist : List Mark) : List (Mailbox.Act Nat) := hist.filterMap Mark.mail

def Ordered (ms : List Mark) : Prop :=
  ∀ pre m post, ms = pre ++ m :: post → (m.isRecord = true ↔ pre.getLast? = some .answered)

structure Traced (hist : List Mark) (pending : Option Nat) (answered : Bool) : Prop where
  ordered : Ordered (ops hist)
  last : answered = true ↔ (ops hist).getLast? = some .answered
  mail : Mailbox.run none (mails hist) = some pending

theorem ordered_concat {ms : List Mark} {m : Mark} (h : Ordered ms)
    (hm : m.isRecord = true ↔ ms.getLast? = some .answered) : Ordered (ms ++ [m]) := by
  intro pre x post hs
  rcases List.eq_nil_or_concat post with rfl | ⟨post, y, rfl⟩
  · obtain ⟨rfl, hx⟩ := List.append_inj' hs rfl
    obtain rfl : m = x := by simpa using hx
    exact hm
  · have hs' : ms ++ [m] = (pre ++ x :: post) ++ [y] := by simpa using hs
    obtain ⟨hms, _⟩ := List.append_inj' hs' rfl
    exact h pre x post hms

theorem traced_nil : Traced [] none false := by
  refine ⟨?_, by simp [ops], rfl⟩
  intro pre m post h
  simp [ops] at h

theorem traced_queued {hist : List Mark} {pending : Option Nat} {answered : Bool} (event : Nat)
    (h : Traced hist pending answered) :
    Traced (hist ++ [.queued event]) (some event) answered := by
  have ho : ops (hist ++ [.queued event]) = ops hist := by simp [ops, Mark.isOp]
  refine ⟨by rw [ho]; exact h.ordered, by rw [ho]; exact h.last, ?_⟩
  simp only [mails, List.filterMap_append, Mailbox.run_append] at *
  rw [show Mailbox.run none (hist.filterMap Mark.mail) = some pending from h.mail]
  rfl

theorem traced_op {hist : List Mark} {pending pending' : Option Nat} {answered : Bool}
    (m : Mark) (hop : m.isOp = true) (h : Traced hist pending answered)
    (hrec : m.isRecord = answered)
    (hmail : Mailbox.run pending (mails [m]) = some pending') :
    Traced (hist ++ [m]) pending' (m == .answered) := by
  have ho : ops (hist ++ [m]) = ops hist ++ [m] := by simp [ops, hop]
  refine ⟨?_, ?_, ?_⟩
  · rw [ho]
    exact ordered_concat h.ordered (by rw [hrec]; exact h.last)
  · rw [ho]
    simp
  · rw [mails, List.filterMap_append, Mailbox.run_append]
    rw [show Mailbox.run none (hist.filterMap Mark.mail) = some pending from h.mail]
    exact hmail

def Served.plain : Served → Bool
  | .idle => true
  | .command _ => true
  | _ => false

-- What the two flags say, given where the client stands, what the server is about to finish on
-- the link, whether it waits for this link, and whether an answer is still owed a record.
inductive Flags : Bool → Place → Served → Bool → Option Nat → Bool → Prop
  | quiet (v : Served) (hv : v.plain = true) : Flags false .quiet v false none false
  | noted (waiting : Bool) (v : Served) (hv : v.plain = true) (pending : Option Nat)
      (h : waiting = false → pending.isSome = true) : Flags waiting .noted v true pending false
  | ready : Flags true .ready .idle false none true
  | delivered (waiting : Bool) (event : Nat) :
      Flags waiting .quiet (.delivered event) false (some event) true
  | record (conn : Conn) : Flags false .quiet (.record conn) false none true

structure Linked (waiting busy : Bool) (l : Chan) (p : Place) (v : Served) (answered : Bool) :
    Prop where
  rests : Rests l.pair p v
  idle : busy = false → l.pair.server = .ret .idle
  flags : Flags waiting p v l.notified l.pendingEvent answered
  traced : Traced l.hist l.pendingEvent answered

def Inv (waiting busy : Bool) (l : Chan) : Prop := ∃ p v answered, Linked waiting busy l p v answered

theorem linked_idle {waiting : Bool} {l : Chan} {p : Place} {v : Served} {answered : Bool}
    (h : Linked waiting false l p v answered) : v = .idle :=
  rests_result h.rests (h.idle rfl)

theorem inv_move {waiting busy : Bool} {l : Chan} {x : Link Served Reply}
    (h : Inv waiting busy l) (hm : Move l.pair x)
    (hs : busy = false → x.server = l.pair.server) :
    Inv waiting busy { l with pair := x } := by
  obtain ⟨p, v, answered, h⟩ := h
  exact ⟨p, v, answered, rests_move h.rests hm, fun hb => (hs hb).trans (h.idle hb), h.flags,
    h.traced⟩

theorem inv_call {waiting busy : Bool} {l : Chan} {r : Reply} (c : Call)
    (h : Inv waiting busy l) (hr : l.pair.client = .ret r) :
    Inv waiting busy { l with pair := { l.pair with client := c.code } } := by
  obtain ⟨p, v, answered, h⟩ := h
  exact ⟨p, v, answered, rests_call c h.rests hr, h.idle, h.flags, h.traced⟩

theorem traced_notification {hist : List Mark} {pending : Option Nat}
    (h : Traced hist pending false) : Traced (hist ++ [.notification]) pending false :=
  traced_op .notification rfl h rfl rfl

theorem inv_note (pending : Option Nat) {waiting : Bool} {l : Chan}
    (hr : Rests l.pair .quiet .idle) (hs : l.pair.server = .ret .idle)
    (ht : Traced l.hist l.pendingEvent false) (hp : pending = l.pendingEvent)
    (hw : waiting = false → pending.isSome = true) : Inv waiting false l.note := by
  subst hp
  exact ⟨.noted, .idle, false, rests_end hr hs, fun _ => hs, .noted waiting .idle rfl _ hw,
    traced_notification ht⟩

theorem inv_queueEvent {l : Chan} (event : Nat) (h : Inv false false l) :
    Inv false false (xtcpdQueueEvent l event) := by
  obtain ⟨p, v, answered, h⟩ := h
  have hv := linked_idle h
  subst hv
  have hs := h.idle rfl
  have ht := traced_queued event h.traced
  have hf := h.flags
  generalize hn : l.notified = notified at hf
  generalize l.pendingEvent = pending at hf
  cases hf with
  | quiet _ _ =>
    simp only [xtcpdQueueEvent, Chan.notify, hn, Bool.false_eq_true, if_false]
    exact inv_note (some event) h.rests hs ht rfl fun _ => rfl
  | noted _ _ _ _ _ =>
    simp only [xtcpdQueueEvent, Chan.notify, hn, if_true]
    exact ⟨.noted, .idle, false, h.rests, fun _ => hs,
      by simpa [hn] using Flags.noted false .idle rfl (some event) fun _ => rfl, ht⟩

theorem inv_notify {l : Chan} (h : Inv false false l) : Inv true false l.notify := by
  obtain ⟨p, v, answered, h⟩ := h
  have hv := linked_idle h
  subst hv
  have hs := h.idle rfl
  have hf := h.flags
  have ht := h.traced
  generalize hn : l.notified = notified at hf
  generalize hp : l.pendingEvent = pending at hf
  cases hf with
  | quiet _ _ =>
    simp only [Chan.notify, hn, Bool.false_eq_true, if_false]
    exact inv_note _ h.rests hs ht rfl (by simp)
  | noted _ _ _ _ _ =>
    simp only [Chan.notify, hn, if_true]
    exact ⟨.noted, .idle, false, h.rests, fun _ => hs,
      by simpa [hn] using Flags.noted true .idle rfl l.pendingEvent (by simp), ht⟩

theorem inv_answer {waiting : Bool} {l : Chan} {bs : List Tok} (net : Net)
    (h : Inv waiting false l) (hb : l.pair.toServer = .endToken :: bs) :
    Inv waiting true (xtcpdServiceClient0 net l) := by
  obtain ⟨p, v, answered, h⟩ := h
  have hv := linked_idle h
  subst hv
  have hs := h.idle rfl
  obtain ⟨rfl, hrun⟩ := rests_answer h.rests hs hb
  have hf := h.flags
  have ht := h.traced
  generalize hn : l.notified = notified at hf
  generalize hp : l.pendingEvent = pending at hf ht
  cases hf with
  | noted _ _ _ _ hw =>
    have hta : Traced (l.hist ++ [.answered]) pending true :=
      traced_op .answered rfl ht rfl rfl
    rw [xtcpdServiceClient0, hb]
    cases pending with
    | some event =>
      simp only [hp]
      refine ⟨.quiet, .delivered event, true, rests_send (hrun (deliver event)), by simp, ?_,
        hta⟩
      exact .delivered waiting event
    | none =>
      cases waiting with
      | false => simp at hw
      | true =>
        simp only [hp, hs]
        exact ⟨.ready, .idle, true, ⟨_, _, _, .ready, hrun (.ret .idle)⟩, fun _ => rfl, .ready,
          hta⟩

theorem inv_token {waiting : Bool} {l : Chan} {bs : List Tok} (net : Net)
    (h : Inv waiting false l) (hb : l.pair.toServer = .cmdToken :: bs) :
    Inv waiting true (xtcpdServiceClient0 net l) := by
  obtain ⟨p, v, answered, h⟩ := h
  have hv := linked_idle h
  subst hv
  obtain ⟨notified, c, hp, hr⟩ := rests_token h.rests (h.idle rfl) hb net
  have hf := h.flags
  have ht := h.traced
  simp only [xtcpdServiceClient0, hb]
  generalize hn : l.notified = n at hf
  generalize hpe : l.pendingEvent = pending at hf ht
  cases hf with
  | quiet _ _ =>
    obtain rfl : notified = false := by cases notified <;> simp at hp ⊢
    exact ⟨.quiet, .command (some c), false, hr, by simp,
      by simpa [hn, hpe] using Flags.quiet (.command (some c)) rfl, by simpa [hpe] using ht⟩
  | noted _ _ _ _ hw =>
    obtain rfl : notified = true := by cases notified <;> simp at hp ⊢
    exact ⟨.noted, .command (some c), false, hr, by simp,
      by simpa [hn, hpe] using Flags.noted waiting (.command (some c)) rfl _ hw,
      by simpa [hpe] using ht⟩
  | ready => cases notified <;> simp at hp

theorem inv_serviceClient0 {waiting : Bool} {l : Chan} (net : Net) (h : Inv waiting false l) :
    Inv waiting true (xtcpdServiceClient0 net l) := by
  cases hb : l.pair.toServer with
  | nil =>
    rw [xtcpdServiceClient0, hb]
    obtain ⟨p, v, answered, h⟩ := h
    exact ⟨p, v, answered, h.rests, by simp, h.flags, h.traced⟩
  | cons t bs =>
    have ht : t = .endToken ∨ t = .cmdToken := by
      obtain ⟨p, v, answered, h⟩ := h
      exact rests_head h.rests (h.idle rfl) hb
    rcases ht with rfl | rfl
    · exact inv_answer net h hb
    · exact inv_token net h hb

theorem inv_sendEvent {l : Chan} (conn : Conn) (h : Inv true false l)
    (hn : l.notified = false) :
    Inv false true { l with pair := { l.pair with server := sendEvent conn } } := by
  obtain ⟨p, v, answered, h⟩ := h
  have hv := linked_idle h
  subst hv
  have hf := h.flags
  have ht := h.traced
  generalize hp : l.pendingEvent = pending at hf ht
  rw [hn] at hf
  cases hf with
  | ready =>
    refine ⟨.quiet, .record conn, true, rests_send (rests_ready h.rests (h.idle rfl) _), by simp,
      ?_, by simpa [hp] using ht⟩
    simpa [hn, hp] using Flags.record conn

theorem inv_finish {waiting : Bool} {l : Chan} {v : Served} (h : Inv waiting true l)
    (hs : l.pair.server = .ret v) : Inv waiting false (finish waiting l v) := by
  obtain ⟨p, v', answered, h⟩ := h
  have hv := rests_result h.rests hs
  subst hv
  have hrest : Rests l.rest.pair p .idle := rests_server h.rests hs .idle
  have hf := h.flags
  have ht := h.traced
  generalize hn : l.notified = notified at hf
  generalize hp : l.pendingEvent = pending at hf ht
  cases v' with
  | idle => exact ⟨p, .idle, answered, h.rests, fun _ => hs, h.flags, h.traced⟩
  | delivered event =>
    cases hf with
    | quiet _ hv => cases hv
    | noted _ _ hv _ _ => cases hv
    | delivered _ _ =>
      have hta : Traced (l.hist ++ [.delivered event]) none false :=
        traced_op (.delivered event) rfl ht rfl (by simp [mails, Mark.mail, Mailbox.run,
          Mailbox.step])
      cases waiting with
      | false =>
        exact ⟨.quiet, .idle, false, hrest, fun _ => rfl,
          by simpa [finish, Chan.rest, hn] using Flags.quiet .idle rfl, hta⟩
      | true => exact inv_note none hrest rfl hta rfl (by simp)
  | command c =>
    have hta : answered = false → Traced (l.hist ++ [.command c]) pending false := by
      rintro rfl
      exact traced_op (.command c) rfl ht rfl rfl
    cases hf with
    | quiet _ _ =>
      exact ⟨.quiet, .idle, false, hrest, fun _ => rfl,
        by simpa [finish, Chan.rest, Chan.mark, hn, hp] using Flags.quiet .idle rfl,
        by simpa [finish, Chan.rest, Chan.mark, hp] using hta rfl⟩
    | noted _ _ _ _ hw =>
      exact ⟨.noted, .idle, false, hrest, fun _ => rfl,
        by simpa [finish, Chan.rest, Chan.mark, hn, hp] using Flags.noted waiting .idle rfl _ hw,
        by simpa [finish, Chan.rest, Chan.mark, hp] using hta rfl⟩
  | record conn =>
    cases hf with
    | quiet _ hv => cases hv
    | noted _ _ hv _ _ => cases hv
    | record _ =>
      have hta : Traced (l.hist ++ [.record conn]) none false :=
        traced_op (.record conn) rfl ht rfl rfl
      exact ⟨.quiet, .idle, false, hrest, fun _ => rfl,
        by simpa [finish, Chan.rest, Chan.mark, hn, hp] using Flags.quiet .idle rfl,
        by simpa [finish, Chan.rest, Chan.mark, hp] using hta⟩

end Xtcp.Channel
