import Xtcp.Pip.Tcp.Story

namespace Xtcp.Pip.Tcp
open Serial Prefix

section Incoming

variable (cfg : Config) (env : Env) (seg : Segment)

@[simp] def offered (c : TcpConnection) : TcpConnection := { c with sndWND := seg.window.toNat }

structure InOrder (c : TcpConnection) : Prop where
  seq : seg.seq = c.rcvNXT
  rst : seg.flags.rst = false
  syn : seg.flags.syn = false
  ack : seg.flags.ack = true

structure InWindow (c : TcpConnection) : Prop where
  state : c.state ≠ .lastack
  range : outside c.sndUNA c.sndNXT seg.ack = false

inductive Acked (c : TcpConnection) : TcpConnection → Prop where
  | lastAck (hst : c.state = .lastack) : Acked c (incomingLastAck seg c)
  | duplicate (hst : c.state ≠ .lastack) (ha : after c.sndUNA seg.ack = true) : Acked c c
  | beyond (hst : c.state ≠ .lastack) (ha : after c.sndUNA seg.ack = false)
      (hb : after seg.ack c.sndNXT = true) : Acked c (pipOutgoingTCP [] { ack := true } c)
  | finwait2 {c₂ : TcpConnection} (hw : InWindow seg c) (htake : takeAck cfg env seg c = some c₂)
      (hst : c₂.state = .finwait1) (hfree : c₂.tx.free = cfg.bufsizeTx + 1) :
      Acked c (c₂.enter .finwait2)
  | timewait {c₂ : TcpConnection} (hw : InWindow seg c) (htake : takeAck cfg env seg c = some c₂)
      (hst : c₂.state = .closing) :
      Acked c (if (c₂.enter .timewait).appStatus ≠ .notWaiting then
        appSendClose (c₂.enter .timewait) else c₂.enter .timewait)
  | data {c₂ c₃ : TcpConnection} {b : Bool} (hw : InWindow seg c)
      (htake : takeAck cfg env seg c = some c₂)
      (hst : ¬ (c₂.state = .finwait1 ∧ c₂.tx.free = cfg.bufsizeTx + 1))
      (hst' : c₂.state ≠ .closing) (hdata : incomingData cfg env seg c₂ = some (b, c₃)) :
      Acked c (if b then incomingFIN c₃ else c₃)

inductive Synchronized (c : TcpConnection) : TcpConnection → Prop where
  | outOfOrder (h : seg.seq ≠ c.rcvNXT) : Synchronized c (pipOutgoingTCP [] { ack := true } c)
  | reset (h : seg.seq = c.rcvNXT) (hr : seg.flags.rst = true) : Synchronized c (incomingRST c)
  | restart (h : seg.seq = c.rcvNXT) (hr : seg.flags.rst = false) (hs : seg.flags.syn = true) :
      Synchronized c (incomingSYN c)
  | silent (h : seg.seq = c.rcvNXT) (hr : seg.flags.rst = false) (hs : seg.flags.syn = false)
      (ha : seg.flags.ack = false) : Synchronized c c
  | refused (h : InOrder seg c) (hst : c.state = .synrcvd)
      (ho : outside c.sndUNA c.sndNXT seg.ack = true) :
      Synchronized c ((offered seg c).note (.bounced (bounceRST env seg true)))
  | opened {c' : TcpConnection} (h : InOrder seg c) (hst : c.state = .synrcvd)
      (ho : outside c.sndUNA c.sndNXT seg.ack = false)
      (ha : Acked cfg env seg (establish (offered seg c)) c') : Synchronized c c'
  | acked {c' : TcpConnection} (h : InOrder seg c) (hst : c.state ≠ .synrcvd)
      (ha : Acked cfg env seg (offered seg c) c') : Synchronized c c'

variable {cfg env seg} {c c' : TcpConnection}

-- The connection behind tx.free += extraBytes.
def credited (seg : Segment) (c : TcpConnection) : TcpConnection :=
  (c.acknowledge seg.ack).setTx fun q => { q with free := int (q.free + (seg.ack - c.sndUNA).toInt) }

theorem takeAck_cases (h : takeAck cfg env seg c = some c') :
    ((credited seg c).tx.free ≠ (seg.ack - c.sndUNA).toInt ∨ c.appStatus ≠ .writing) ∧
        c' = credited seg c ∨
      (credited seg c).tx.free = (seg.ack - c.sndUNA).toInt ∧ c.appStatus = .writing ∧
        ∃ c₂, copyDataFromWrite cfg env c.appWaiting (credited seg c) = some c₂ ∧
          loadOutgoingData cfg env { c₂ with appStatus := .notWaiting } = some c' := by
  change (if (credited seg c).tx.free = (seg.ack - c.sndUNA).toInt ∧ c.appStatus = .writing then
    (copyDataFromWrite cfg env c.appWaiting (credited seg c)).bind fun c =>
      loadOutgoingData cfg env { c with appStatus := .notWaiting }
    else some (credited seg c)) = some c' at h
  split at h
  · next hw =>
    obtain ⟨c₂, hwrite, hload⟩ := Option.bind_eq_some_iff.mp h
    exact Or.inr ⟨hw.1, hw.2, c₂, hwrite, hload⟩
  · next hw => exact Or.inl ⟨not_and_or.mp hw, (Option.some.inj h).symm⟩

theorem incomingAck_cases (h : incomingAck cfg env seg c = some c') : Acked cfg env seg c c' := by
  unfold incomingAck at h
  split at h
  · next hst => exact Option.some.inj h ▸ .lastAck hst
  next hst =>
  split at h
  · next ha => exact Option.some.inj h ▸ .duplicate hst ha
  next ha =>
  split at h
  · next hb => exact Option.some.inj h ▸ .beyond hst (Bool.eq_false_iff.mpr ha) hb
  next hb =>
  have hw : InWindow seg c := ⟨hst, by simp [outside, ha, hb]⟩
  obtain ⟨c₂, htake, h⟩ := Option.bind_eq_some_iff.mp h
  unfold afterAck at h
  split at h
  · next hf => exact Option.some.inj h ▸ .finwait2 hw htake hf.1 hf.2
  next hf =>
  split at h
  · next hc => exact Option.some.inj h ▸ .timewait hw htake hc
  next hc =>
  obtain ⟨⟨b, c₃⟩, hdata, rfl⟩ := Option.map_eq_some_iff.mp h
  exact .data hw htake hf hc hdata

theorem incomingSynchronized_cases (h : incomingSynchronized cfg env seg c = some c') :
    Synchronized cfg env seg c c' := by
  unfold incomingSynchronized at h
  split at h
  · next hseq => exact Option.some.inj h ▸ .outOfOrder hseq
  next hseq =>
  have hseq := not_not.mp hseq
  split at h
  · next hr => exact Option.some.inj h ▸ .reset hseq hr
  next hr =>
  have hr := Bool.eq_false_iff.mpr hr
  split at h
  · next hs => exact Option.some.inj h ▸ .restart hseq hr hs
  next hs =>
  have hs := Bool.eq_false_iff.mpr hs
  split at h
  · next ha => exact Option.some.inj h ▸ .silent hseq hr hs ha
  next ha =>
  have hin : InOrder seg c := ⟨hseq, hr, hs, Bool.eq_true_of_not_eq_false ha⟩
  dsimp only at h
  split at h
  · next hst =>
    split at h
    · next ho => exact Option.some.inj h ▸ .refused hin hst ho
    · next ho => exact .opened hin hst (Bool.eq_false_iff.mpr ho) (incomingAck_cases h)
  · next hst => exact .acked hin hst (incomingAck_cases h)

-- The reset of incomingSynsent.
def declined (env : Env) (seg : Segment) (c : TcpConnection) : TcpConnection :=
  let c := (offered seg c).note (.bounced (bounceRST env seg false))
  (if c.appStatus ≠ .notWaiting then appSendError c else c).enter .closed

def heard (seg : Segment) (c : TcpConnection) : TcpConnection :=
  let c := if seg.flags.ack then (offered seg c).acknowledge seg.ack else offered seg c
  if seg.flags.rst ∧ seg.flags.ack then (appSendError c).enter .closed else c

def greeted (seg : Segment) (c : TcpConnection) : TcpConnection :=
  let c := { c with rcvNXT := seg.seq + 1 }.note (.irs seg.seq)
  appSendAcknowledge (if seg.flags.ack then c.acknowledge seg.ack else c)

inductive Greeting (env : Env) (seg : Segment) (c : TcpConnection) : TcpConnection → Prop where
  | declined (ha : seg.flags.ack = true) (ho : outside c.sndUNA c.sndNXT seg.ack = true) :
      Greeting env seg c (declined env seg c)
  | heard (ho : seg.flags.ack = true → outside c.sndUNA c.sndNXT seg.ack = false)
      (hs : seg.flags.syn = false) : Greeting env seg c (heard seg c)
  | estab (ho : seg.flags.ack = true → outside c.sndUNA c.sndNXT seg.ack = false)
      (hs : seg.flags.syn = true) (hu : (greeted seg (Tcp.heard seg c)).sndUNA = seg.ack) :
      Greeting env seg c
        ((pipOutgoingTCP [] { ack := true } (greeted seg (Tcp.heard seg c))).enter .estab)
  | synrcvd (ho : seg.flags.ack = true → outside c.sndUNA c.sndNXT seg.ack = false)
      (hs : seg.flags.syn = true) (hu : (greeted seg (Tcp.heard seg c)).sndUNA ≠ seg.ack) :
      Greeting env seg c
        ((pipOutgoingTCP [] { syn := true, ack := true } (greeted seg (Tcp.heard seg c))).enter
          .synrcvd)

theorem incomingSynsent_cases : Greeting env seg c (incomingSynsent env seg c) := by
  have heq : incomingSynsent env seg c =
      if seg.flags.ack ∧ outside c.sndUNA c.sndNXT seg.ack then declined env seg c
      else if seg.flags.syn then
        if (greeted seg (heard seg c)).sndUNA = seg.ack then
          (pipOutgoingTCP [] { ack := true } (greeted seg (heard seg c))).enter .estab
        else
          (pipOutgoingTCP [] { syn := true, ack := true } (greeted seg (heard seg c))).enter .synrcvd
      else heard seg c := rfl
  rw [heq]
  split
  · next h => exact .declined h.1 h.2
  next h =>
  have ho : seg.flags.ack = true → outside c.sndUNA c.sndNXT seg.ack = false :=
    fun ha => Bool.eq_false_iff.mpr fun ho => h ⟨ha, ho⟩
  split
  · next hs =>
    split
    · next hu => exact .estab ho hs hu
    · next hu => exact .synrcvd ho hs hu
  · next hs => exact .heard ho (Bool.eq_false_iff.mpr hs)

inductive Arrival (cfg : Config) (env : Env) (seg : Segment) (c : TcpConnection) :
    TcpConnection → Prop where
  | closed (hst : c.state = .closed) : Arrival cfg env seg c c
  | listen (hst : c.state = .listen) : Arrival cfg env seg c (incomingListen env seg c)
  | synsent {c' : TcpConnection} (hst : c.state = .synsent) (h : Greeting env seg c c') :
      Arrival cfg env seg c c'
  | timewait (hst : c.state = .timewait ∨ c.state = .timewait0) :
      Arrival cfg env seg c (incomingTimewait seg c)
  | synchronized {c' : TcpConnection}
      (hst : c.state = .synrcvd ∨ c.state = .estab ∨ c.state = .finwait1 ∨ c.state = .finwait2 ∨
        c.state = .closewait ∨ c.state = .closing ∨ c.state = .lastack)
      (h : Synchronized cfg env seg c c') : Arrival cfg env seg c c'

theorem incoming_cases (h : incoming cfg env seg c = some c') : Arrival cfg env seg c c' := by
  unfold incoming at h
  split at h
  · next hst => exact Option.some.inj h ▸ .closed hst
  · next hst => exact Option.some.inj h ▸ .listen hst
  · next hst => exact .synsent hst (Option.some.inj h ▸ incomingSynsent_cases)
  · next hst => exact Option.some.inj h ▸ .timewait (Or.inl hst)
  · next hst => exact Option.some.inj h ▸ .timewait (Or.inr hst)
  · next h1 h2 h3 h4 h5 =>
    refine .synchronized ?_ (incomingSynchronized_cases h)
    cases hst : c.state <;> simp_all

end Incoming

section TimeOut

variable {cfg : Config} {env : Env} {c c' : TcpConnection}

def fires (c : TcpConnection) : Prop :=
  c.timeouts ≠ 0 ∧ c.timeouts &&& (c.timeouts + 1) = 0

instance : Decidable (fires c) := inferInstanceAs (Decidable (_ ∧ _))

-- The connection behind the test of TCP_MAX_TIMEOUT.
def lapse (c : TcpConnection) : TcpConnection :=
  let t2 := c.timeouts + 1
  if tcpMaxTimeout.sle t2 then expire { c with timeouts := t2 } else { c with timeouts := t2 }

inductive Ticked (cfg : Config) (env : Env) (c : TcpConnection) : TcpConnection → Prop where
  | stopped (h : c.timeouts = 0) : Ticked cfg env c c
  | counted (h : c.timeouts ≠ 0) (hf : ¬ fires c) :
      Ticked cfg env c { c with timeouts := c.timeouts + 1 }
  | again {c₂ : TcpConnection} (hf : fires c) (hn : 0 < notAcknowledged cfg (lapse c))
      (hload : loadOutgoingData cfg env
        (rewind cfg (notAcknowledged cfg (lapse c)) (lapse c)) = some c₂) :
      Ticked cfg env c { c₂ with timeouts := c.timeouts + 1 }
  | rest (hf : fires c) (hn : ¬ 0 < notAcknowledged cfg (lapse c)) :
      Ticked cfg env c (resend (c.timeouts + 1) (lapse c))

theorem timeOut_cases (h : timeOut cfg env c = some c') : Ticked cfg env c c' := by
  unfold timeOut at h
  split at h
  · next hzero => exact Option.some.inj h ▸ .stopped hzero
  next hzero =>
  change (if c.timeouts &&& (c.timeouts + 1) ≠ 0 then some { c with timeouts := c.timeouts + 1 }
    else if 0 < notAcknowledged cfg (lapse c) then
      (loadOutgoingData cfg env (rewind cfg (notAcknowledged cfg (lapse c)) (lapse c))).map
        fun c₂ => { c₂ with timeouts := c.timeouts + 1 }
    else some (resend (c.timeouts + 1) (lapse c))) = some c' at h
  split at h
  · next hf => exact Option.some.inj h ▸ .counted hzero fun hfires => hf hfires.2
  next hf =>
  have hfires : fires c := ⟨hzero, not_not.mp hf⟩
  split at h
  · next hn =>
    obtain ⟨c₂, hload, rfl⟩ := Option.map_eq_some_iff.mp h
    exact .again hfires hn hload
  · next hn => exact Option.some.inj h ▸ .rest hfires hn

-- Our FIN may be outstanding.
def finishing (st : State) : Prop :=
  st = .finwait1 ∨ st = .finwait2 ∨ st = .closewait ∨ st = .closing ∨ st = .lastack

def synFlags (c : TcpConnection) : Flags :=
  if c.state = .synsent then { syn := true } else { syn := true, ack := true }

inductive Resent (t2 : Word) (c : TcpConnection) : TcpConnection → Prop where
  | timewait (hst : c.state = .timewait) :
      Resent t2 c ({ c with timeouts := t2 }.enter .timewait0)
  | timewait0 (hst : c.state = .timewait0) :
      Resent t2 c { (if c.appStatus ≠ .notWaiting then appSendClose (c.enter .closed)
        else c.enter .closed) with timeouts := 0 }
  | syn (hst : c.state = .synsent ∨ c.state = .synrcvd) (hu : after c.sndNXT c.sndUNA = true) :
      Resent t2 c { pipOutgoingTCP [] (synFlags c) { c with sndNXT := c.sndNXT - 1 } with
        sndNXT := c.sndNXT, timeouts := t2 }
  | fin (hst : finishing c.state) (hu : after (c.sndNXT + 1) c.sndUNA = true) :
      Resent t2 c { pipOutgoingTCP [] { fin := true, ack := true } c with timeouts := t2 }
  | nothing (hst : c.state ≠ .timewait) (hst' : c.state ≠ .timewait0)
      (hsyn : c.state = .synsent ∨ c.state = .synrcvd → after c.sndNXT c.sndUNA = false)
      (hfin : finishing c.state → after (c.sndNXT + 1) c.sndUNA = false) :
      Resent t2 c { c with timeouts := 0 }

theorem resend_cases (t2 : Word) : Resent t2 c (resend t2 c) := by
  unfold resend
  split
  · next hst => exact .timewait hst
  · next hst => exact .timewait0 hst
  iterate 2
    · next hst =>
      split
      · next hu =>
        have hresent : Resent t2 c _ := .syn (by simp [hst]) hu
        simpa [synFlags, hst, BitVec.sub_add_cancel] using hresent
      · next hu =>
        exact .nothing (by simp [hst]) (by simp [hst]) (fun _ => by simpa using hu)
          (by simp [hst, finishing])
  iterate 5
    · next hst =>
      split
      · next hu => exact .fin (by simp [hst, finishing]) hu
      · next hu =>
        exact .nothing (by simp [hst]) (by simp [hst]) (by simp [hst]) fun _ => by simpa using hu
  · next h1 h2 h3 h4 h5 h6 h7 h8 h9 =>
    refine .nothing h1 h2 ?_ ?_
    all_goals simp_all [finishing]

end TimeOut

section Flush

variable {cfg : Config} {env : Env} {c c' : TcpConnection}

theorem Xqueue.takeAll_same {size n : Nat} {q q' : Xqueue} {data : List UInt8}
    (h : q.takeAll cfg size n = some (data, q')) : q'.free = q.free ∧ q'.length = q.length := by
  induction n generalizing q data with
  | zero =>
    obtain ⟨-, rfl⟩ := Prod.mk.inj (Option.some.inj h)
    exact ⟨rfl, rfl⟩
  | succ n ih =>
    unfold Xqueue.takeAll at h
    split at h
    · obtain ⟨r, hr, heq⟩ := Option.map_eq_some_iff.mp h
      obtain ⟨-, rfl⟩ := Prod.mk.inj heq
      obtain ⟨hfree, hlength⟩ := ih hr
      exact ⟨hfree, hlength⟩
    · cases h

-- What had not been sent is sent, and no writer is served.
structure Flushed (c c' : TcpConnection) : Prop where
  free : c'.tx.free = c.tx.free
  length : c'.tx.length = 0
  nxt : c'.sndNXT = c.sndNXT + BitVec.ofInt 32 c.tx.length
  una : c'.sndUNA = c.sndUNA
  appStatus : c'.appStatus = c.appStatus

theorem loadOutgoingData_flushed (hs : c.appStatus ≠ .writing) (hlength : 0 ≤ c.tx.length)
    (h : loadOutgoingData cfg env c = some c') : Flushed c c' := by
  obtain ⟨data, tx, htx, ⟨-, rfl⟩ | ⟨hw, -⟩⟩ := loadOutgoingData_frame h
  · obtain ⟨hfree, hzero⟩ := Xqueue.takeAll_same htx
    have hcount : BitVec.ofNat 32 c.tx.length.toNat = BitVec.ofInt 32 c.tx.length := by
      rw [← BitVec.ofInt_natCast, Int.toNat_of_nonneg hlength]
    exact ⟨hfree, hzero, by rw [hcount], rfl, rfl⟩
  · exact absurd hw hs

theorem notAcknowledged_eq (hlength : 0 ≤ c.tx.length) (hfree : 0 ≤ c.tx.free)
    (hsum : c.tx.free + c.tx.length < 2 ^ 31) :
    notAcknowledged cfg c = cfg.bufsizeTx - (c.tx.length + c.tx.free) := by
  obtain ⟨k, hk, hsize⟩ := cfg.powerTx
  have hle : 2 ^ k ≤ 2 ^ 30 := Nat.pow_le_pow_right (by decide) hk
  have hint : int (c.tx.length + c.tx.free) = c.tx.length + c.tx.free :=
    int_eq (by omega) (by omega)
  rw [notAcknowledged, hint, int_eq (by omega) (by omega)]

-- The timer goes back to the first byte that is not acknowledged.
theorem rewind_flushed (hs : c.appStatus ≠ .writing) (hlength : 0 ≤ c.tx.length)
    (hfree : 0 ≤ c.tx.free) (hsum : c.tx.free + c.tx.length < 2 ^ 31)
    (hn : 0 < notAcknowledged cfg c)
    (h : loadOutgoingData cfg env (rewind cfg (notAcknowledged cfg c) c) = some c') :
    Flushed c c' := by
  have heq : notAcknowledged cfg c = _ := notAcknowledged_eq hlength hfree hsum
  obtain ⟨k, hk, hsize⟩ := cfg.powerTx
  have hle : 2 ^ k ≤ 2 ^ 30 := Nat.pow_le_pow_right (by decide) hk
  generalize notAcknowledged cfg c = n at hn heq h
  have hint : int (c.tx.length + n) = c.tx.length + n := int_eq (by omega) (by omega)
  have hrewound : (rewind cfg n c).tx.length = c.tx.length + n := hint
  have hflushed := loadOutgoingData_flushed (by exact hs) (by omega) h
  refine ⟨hflushed.free, hflushed.length, ?_, hflushed.una, hflushed.appStatus⟩
  rw [hflushed.nxt, hrewound, BitVec.ofInt_add, BitVec.add_comm (BitVec.ofInt 32 _),
    ← BitVec.add_assoc]
  simp only [rewind, TcpConnection.setTx, BitVec.sub_add_cancel]

end Flush

section Aside

variable {cfg : Config} {env : Env} {seg : Segment} {c c' c₂ : TcpConnection}

-- What the log tells of the receiving side, and the queue.
def receiving (c : TcpConnection) :
    Xqueue × Word × List (Word × List UInt8) × Bool × List (Word × List UInt8) × List UInt8 :=
  (c.rx, c.story.irs, c.story.pieces, c.story.ended, c.story.late, c.story.returned)

-- The notes of the sending side.
def outward : Note → Prop
  | .token _ request ct => request = .writing ∧ ct = .ack
  | .sent _ | .ready | .acked _ | .accepted _ => True
  | _ => False

-- Nothing but the sending side has changed, and a writer may have been answered.
structure Aside (c c' : TcpConnection) : Prop where
  receiving : receiving c' = receiving c
  notes : ∃ new, c'.log = c.log ++ new ∧ ∀ x ∈ new, outward x
  state : c'.state = c.state
  rcvNXT : c'.rcvNXT = c.rcvNXT
  appWaiting : c'.appWaiting = c.appWaiting
  appStatus : c'.appStatus = c.appStatus ∨ (c.appStatus = .writing ∧ c'.appStatus = .notWaiting)

theorem Aside.trans (h : Aside c c₂) (h₂ : Aside c₂ c') : Aside c c' := by
  refine ⟨h₂.receiving.trans h.receiving, ?_, h₂.state.trans h.state, h₂.rcvNXT.trans h.rcvNXT,
    h₂.appWaiting.trans h.appWaiting, ?_⟩
  · obtain ⟨new, hlog, hnew⟩ := h.notes
    obtain ⟨new₂, hlog₂, hnew₂⟩ := h₂.notes
    refine ⟨new ++ new₂, by rw [hlog₂, hlog, List.append_assoc], fun x hx => ?_⟩
    exact (List.mem_append.mp hx).elim (hnew x) (hnew₂ x)
  rcases h.appStatus with hs | ⟨hw, hs⟩
  · rw [← hs]
    exact h₂.appStatus
  · exact Or.inr ⟨hw, h₂.appStatus.elim (fun h => h.trans hs) (·.2)⟩

theorem Aside.iss (h : Aside c c') : c'.story.iss = c.story.iss := by
  have hkept (s : Story) (new : List Note) (hnew : ∀ x ∈ new, outward x) :
      (new.foldl Story.tell s).iss = s.iss := by
    induction new generalizing s with
    | nil => rfl
    | cons x new ih =>
      rw [List.foldl_cons, ih _ fun y hy => hnew y (List.mem_cons_of_mem x hy)]
      have hx := hnew x List.mem_cons_self
      cases x with
      | iss | opened => exact hx.elim
      | stored =>
        rw [Story.tell]
        split <;> rfl
      | _ => rfl
  obtain ⟨new, hlog, hnew⟩ := h.notes
  rw [TcpConnection.story, hlog, story_append, hkept _ _ hnew]
  rfl

theorem pipOutgoingTCP_aside (data : List UInt8) (flags : Flags) :
    Aside c (pipOutgoingTCP data flags c) := by
  constructor <;> simp [Tcp.receiving, TcpConnection.story, outward]

theorem copyDataFromWrite_aside {app : Option Chanend}
    (h : copyDataFromWrite cfg env app c = some c') :
    Aside c c' := by
  obtain ⟨tx, -, rfl⟩ := copyDataFromWrite_frame h
  constructor <;> simp [Tcp.receiving, TcpConnection.story, outward]

theorem loadOutgoingData_aside (h : loadOutgoingData cfg env c = some c') : Aside c c' := by
  obtain ⟨data, tx, -, ⟨-, rfl⟩ | ⟨hs, -, tx', -, rfl⟩⟩ := loadOutgoingData_frame h
  all_goals
    unfold readyNote
    constructor
    all_goals
      split
      all_goals simp_all [Tcp.receiving, TcpConnection.story, outward]

theorem takeAck_aside (h : takeAck cfg env seg c = some c') : Aside c c' := by
  have hack : Aside c (credited seg c) := by
    constructor <;> simp [Tcp.receiving, TcpConnection.story, credited, outward]
  rcases takeAck_cases h with ⟨-, rfl⟩ | ⟨-, hw, c₂, hwrite, hload⟩
  · exact hack
  · have hcopy := copyDataFromWrite_aside hwrite
    have hanswered : Aside c₂ { c₂ with appStatus := .notWaiting } := by
      refine ⟨rfl, ⟨[], by simp⟩, rfl, rfl, rfl, ?_⟩
      rcases hcopy.appStatus with hs | ⟨-, hs⟩
      · exact Or.inr ⟨hs.trans hw, rfl⟩
      · exact Or.inl hs.symm
    exact ((hack.trans hcopy).trans hanswered).trans (loadOutgoingData_aside hload)

def sending (c : TcpConnection) :
    Xqueue × Word × Word × Word × Word × List UInt8 × List Word × Option Word :=
  (c.tx, c.sndNXT, c.sndUNA, c.timeouts, c.story.iss, c.story.written, c.story.acks, c.story.fin)

-- The notes of the receiving side.
def inward : Note → Prop
  | .token _ request ct => request = .reading ∧ ct = .ack
  | .stored _ _ | .returned _ => True
  | _ => False

-- Nothing but the receiving side has changed, and a reader may have been answered.
structure Beside (c c' : TcpConnection) : Prop where
  sending : sending c' = sending c
  sent : c'.story.sent = c.story.sent
  notes : ∃ new, c'.log = c.log ++ new ∧ ∀ x ∈ new, inward x
  state : c'.state = c.state
  appWaiting : c'.appWaiting = c.appWaiting
  appStatus : c'.appStatus = c.appStatus ∨ (c.appStatus = .reading ∧ c'.appStatus = .notWaiting)

theorem storeIncomingData_beside {b : Bool} (h : storeIncomingData cfg env seg c = some (b, c')) :
    Beside c c' := by
  obtain ⟨i, rx, -, -, ⟨-, rfl⟩ | ⟨hr, -, data, rx', -, rfl⟩⟩ := storeIncomingData_frame h
  all_goals
    cases hended : (story c.log).ended
    all_goals constructor <;> simp_all [Tcp.sending, TcpConnection.story, inward]

theorem incomingData_state {b : Bool} (h : incomingData cfg env seg c = some (b, c')) :
    c'.state = c.state := by
  unfold incomingData at h
  split at h
  · obtain ⟨⟨b', c₂⟩, hstore, heq⟩ := Option.map_eq_some_iff.mp h
    obtain ⟨-, rfl⟩ := Prod.mk.inj heq
    exact (storeIncomingData_beside hstore).state
  · obtain ⟨-, rfl⟩ := Prod.mk.inj (Option.some.inj h)
    rfl

@[simp] theorem establish_state : (establish c).state = .estab := by
  unfold establish
  dsimp only
  split <;> rfl

@[simp] theorem establish_sndNXT : (establish c).sndNXT = c.sndNXT := by
  unfold establish
  dsimp only
  split <;> rfl

@[simp] theorem establish_sndUNA : (establish c).sndUNA = c.sndUNA + 1 := by
  unfold establish
  dsimp only
  split <;> rfl

theorem establish_appStatus : (establish c).appStatus = c.appStatus ∨
    (establish c).appStatus = .notWaiting := by
  unfold establish
  dsimp only
  split
  · exact Or.inr rfl
  · exact Or.inl rfl

variable {C : Story → Note → Prop}

theorem Aside.tells (h : Aside c c') (hC : ∀ s x, outward x → C s x) (hc : Tells C c.log) :
    Tells C c'.log := by
  obtain ⟨new, hlog, hnew⟩ := h.notes
  rw [hlog, tells_append]
  exact ⟨hc, along_of_forall fun s x hx => hC s x (hnew x hx)⟩

theorem Beside.tells (h : Beside c c') (hC : ∀ s x, inward x → C s x) (hc : Tells C c.log) :
    Tells C c'.log := by
  obtain ⟨new, hlog, hnew⟩ := h.notes
  rw [hlog, tells_append]
  exact ⟨hc, along_of_forall fun s x hx => hC s x (hnew x hx)⟩

end Aside

end Xtcp.Pip.Tcp
