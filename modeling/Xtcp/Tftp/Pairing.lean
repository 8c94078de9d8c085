import Xtcp.Tftp.Event
import Xtcp.Library.Prefix

namespace Xtcp.Tftp

-- Whether a transfer is open after a call.
def takeOpen (isOpen : Bool) : Call → Bool
  | .transferBegin result => result == 0
  | .transferComplete | .transferError => false
  | _ => isOpen

def transferOpen (calls : List Call) : Bool := calls.foldl takeOpen false

def Pairs (isOpen : Bool) : Call → Prop
  | .transferBegin _ => isOpen = false
  | .transferComplete | .transferError => isOpen = true
  | _ => True

def Call.isClose : Call → Bool
  | .close _ => true
  | _ => false

-- XTCP_IFDOWN in a transfer ends it.
def DownEnds (r : Step) (id : Int) : Prop :=
  let (s, new) := tftpHandleEvent r.1 (.ifdown id)
  s.stage = .idle ∧ new.filter Call.isClose = [.close r.1.connId]

structure CallbacksPaired (txBuf : List UInt8) (events : List Event) : Prop where
  paired : Prefix.Along takeOpen Pairs false (run txBuf events).2
  ended : (run txBuf events).1.connId = -1 → transferOpen (run txBuf events).2 = false
  down : ∀ pre id, pre ++ [.ifdown id] <+: events → transferOpen (run txBuf pre).2 = true →
    DownEnds (run txBuf pre) id

-- No transfer begins over another or is refused, and none is cut off by the link or the clock.
def Orderly (s : TftpState) : Event → Prop
  | .newConnection conn begin => Begins s conn → begin = 0 ∧ s.connId = -1
  | .ifdown _ => s.connId = -1 ∧ s.stage ≠ .waitingForData ∧ s.stage ≠ .sendingAck
  | .poll conn => OnPort s (.poll conn) → s.stage = .waitingForData →
      s.prevBlockNum = s.globals.blockNum → s.connId = -1
  | _ => True

structure Paired (s : TftpState) (calls : List Call) : Prop where
  paired : Prefix.Along takeOpen Pairs false calls
  isOpen : transferOpen calls = true ↔ s.connId ≠ -1
  signals : s.globals.error = true ∨ s.globals.complete = true → s.connId ≠ -1

variable {s s' : TftpState} {calls new : List Call}

theorem transferOpen_append (calls new : List Call) :
    transferOpen (calls ++ new) = new.foldl takeOpen (transferOpen calls) := List.foldl_append

theorem natCast_ne (id : Nat) : (id : Int) ≠ -1 := by omega

theorem Paired.not_open (h : Paired s calls) (hid : s.connId = -1) : transferOpen calls = false :=
  Bool.eq_false_iff.mpr fun ho => h.isOpen.mp ho hid

theorem Paired.keep (h : Paired s calls)
    (hsame : new.foldl takeOpen (transferOpen calls) = transferOpen calls)
    (hpairs : Prefix.Along takeOpen Pairs (transferOpen calls) new) (hid : s'.connId = s.connId)
    (hsignals : s'.globals.error = true ∨ s'.globals.complete = true → s.connId ≠ -1) :
    Paired s' (calls ++ new) := by
  constructor
  · exact (Prefix.along_append _ _ _).mpr ⟨h.paired, hpairs⟩
  · rw [transferOpen_append, hsame, hid]
    exact h.isOpen
  · rw [hid]
    exact hsignals

theorem Paired.closed (h : Paired s calls)
    (hended : new.foldl takeOpen (transferOpen calls) = false)
    (hpairs : Prefix.Along takeOpen Pairs (transferOpen calls) new) (stage : Stage) :
    Paired { tftpClose s with stage := stage } (calls ++ new) := by
  constructor
  · exact (Prefix.along_append _ _ _).mpr ⟨h.paired, hpairs⟩
  · rw [transferOpen_append, hended]
    simp [tftpClose]
  · rintro (he | hc)
    · cases he
    · cases hc

theorem handled_open {rxBuf : Memory} {n : Nat} {g : Globals} {r : Reply}
    (h : Handled rxBuf n g r) (o : Bool) (id : Int) :
    (Call.recv :: r.2.2 ++ [Call.initSend id]).foldl takeOpen o = o ∧
      Prefix.Along takeOpen Pairs o (.recv :: r.2.2 ++ [.initSend id]) := by
  cases h with
  | _ => exact ⟨rfl, by simp [Prefix.Along, Pairs, deliveredCall]⟩

theorem paired_step (h : Paired s calls) {e : Event} (hc : Orderly s e) :
    Paired (tftpHandleEvent s e).1 (calls ++ (tftpHandleEvent s e).2) := by
  have heff := tftpHandleEvent_effect s e
  generalize tftpHandleEvent s e = r at heff ⊢
  obtain ⟨s', new⟩ := r
  simp only at heff ⊢
  cases heff with
  | ignored => rwa [List.append_nil]
  | up => exact h.keep rfl trivial rfl h.signals
  | down id hst => exact absurd hst (not_or.mpr hc.2)
  | begun conn hb =>
    have hclosed := h.not_open (hc hb).2
    constructor
    · exact (Prefix.along_append _ _ _).mpr ⟨h.paired, trivial, hclosed, trivial, trivial, trivial⟩
    · rw [transferOpen_append]
      exact iff_of_true rfl (natCast_ne conn.id)
    · exact fun _ => natCast_ne conn.id
  | refused conn begin hb hne => exact absurd (hc hb).1 hne
  | dropped => exact h.keep rfl (by simp [Prefix.Along, Pairs]) rfl h.signals
  | processed conn payload stale app r hon hp hr hpos =>
    obtain ⟨hsame, hpairs⟩ := handled_open hr (transferOpen calls) conn.id
    exact h.keep hsame hpairs rfl fun _ => hp.2 ▸ natCast_ne conn.id
  | errorReceived conn payload stale app hp =>
    have ho := h.isOpen.mpr (hp.2 ▸ natCast_ne conn.id)
    exact h.closed rfl (by simp [Prefix.Along, Pairs, takeOpen, ho]) _
  | requested => exact h.keep rfl (by simp [Prefix.Along, Pairs]) rfl h.signals
  | failed conn he =>
    have ho := h.isOpen.mpr (h.signals (Or.inl he))
    exact h.closed rfl (by simp [Prefix.Along, Pairs, takeOpen, ho]) _
  | completed conn he hcomplete =>
    have ho := h.isOpen.mpr (h.signals (Or.inr hcomplete))
    exact h.closed rfl (by simp [Prefix.Along, Pairs, takeOpen, ho]) _
  | acked => exact h.keep rfl (by simp [Prefix.Along, Pairs]) rfl h.signals
  | timedOut conn hon hst hprev =>
    have hended : [Call.close s.connId].foldl takeOpen (transferOpen calls) = false :=
      h.not_open (hc hon hst hprev)
    exact h.closed hended (by simp [Prefix.Along, Pairs]) _
  | polled => exact h.keep rfl trivial rfl h.signals

theorem paired_init (txBuf : List UInt8) : Paired (tftpInit (powerOn txBuf)) [] where
  paired := trivial
  isOpen := by simp [transferOpen, tftpInit]
  signals := by simp [tftpInit]

theorem paired_run {txBuf : List UInt8} {events : List Event}
    (h : ∀ pre e, pre ++ [e] <+: events → Orderly (run txBuf pre).1 e) :
    ∀ pre, pre <+: events → Paired (run txBuf pre).1 (run txBuf pre).2 :=
  Prefix.forall_prefix_of_step (paired_init txBuf) fun pre e hp hpre => by
    rw [run_concat]
    exact paired_step hpre (h pre e hp)

theorem callbacks_paired {txBuf : List UInt8} {events : List Event}
    (h : ∀ pre e, pre ++ [e] <+: events → Orderly (run txBuf pre).1 e) :
    CallbacksPaired txBuf events where
  paired := (paired_run h events (List.prefix_refl events)).paired
  ended := (paired_run h events (List.prefix_refl events)).not_open
  down pre id hp ho := by
    have hclosed := (paired_run h pre ((List.prefix_append pre _).trans hp)).not_open (h pre _ hp).1
    rw [hclosed] at ho
    cases ho

section Examples

theorem callbacks_paired_upload : CallbacksPaired [] (opened ++ exchange (dataPacket 1 [1])) := by
  refine callbacks_paired (Prefix.forall_step_take fun k hk => ?_)
  match k, hk with
  | 0, _ => trivial
  | 1, _ => exact fun _ => by decide +kernel
  | 2, _ => trivial
  | 3, _ => trivial
  | 4, _ => trivial

-- The clock ends the transfer and the application is not told.
theorem timeout_unreported : ¬ CallbacksPaired [] (opened ++ [.poll peer]) := by
  intro h
  have ho := h.ended (by decide +kernel)
  revert ho
  decide +kernel

end Examples

end Xtcp.Tftp
