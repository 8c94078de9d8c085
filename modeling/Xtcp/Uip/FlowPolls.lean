import Xtcp.Uip.FlowRefine

namespace Xtcp.Uip
open Channel Listen Labelled

variable {nT nU : Nat} {win : Nat} {d : Bool} {cfg : Config} {i : Fin nT}

def Moment.arrived : Moment → Option Segment
  | .arrive seg => some seg
  | _ => none

def arrivals (ms : List (Moment × Flow nT nU)) : List Segment := ms.filterMap fun m => m.1.arrived

def Tale (win : Nat) (i : Fin nT) (a : Flow nT nU) (segs : List Segment) (b : Flow nT nU) : Prop :=
  a.Own → ∃ ms, Told win i a ms b ∧ arrivals ms = segs

-- A poll that takes up the request ends with a segment.
def Answers (win : Nat) (i : Fin nT) (a b : Flow nT nU) : Prop :=
  ∃ a' mid seg, Told win i a ((.answer, a') :: mid ++ [(.output seg, b)]) b ∧ Calm mid

section Tale

variable {a b c : Flow nT nU} {ms ms' : List (Moment × Flow nT nU)} {segs segs' : List Segment}

theorem arrivals_calm (h : Calm ms) : arrivals ms = [] := by
  refine List.filterMap_eq_nil_iff.mpr fun m hm => ?_
  have hcalm := h m hm
  obtain ⟨m, b⟩ := m
  cases m with
  | arrive seg => cases hcalm
  | _ => rfl

theorem arrivals_append (ms ms' : List (Moment × Flow nT nU)) :
    arrivals (ms ++ ms') = arrivals ms ++ arrivals ms' := List.filterMap_append

theorem Moves.tale (h : Moves win i a b) : Tale win i a [] b := by
  intro ha
  obtain ⟨ms, hms, hcalm⟩ := h ha
  exact ⟨ms, hms, arrivals_calm hcalm⟩

theorem Answers.tale (h : Answers win i a b) : Tale win i a [] b := by
  intro _
  obtain ⟨a', mid, seg, hms, hcalm⟩ := h
  have hout : Calm (mid ++ [(Moment.output seg, b)]) :=
    hcalm.append fun m hm => List.mem_singleton.mp hm ▸ rfl
  exact ⟨_, hms, (arrivals_calm hout :)⟩

theorem Tale.trans (h : Tale win i a segs b) (h' : Tale win i b segs' c) :
    Tale win i a (segs ++ segs') c := by
  intro ha
  obtain ⟨ms, hms, harr⟩ := h ha
  obtain ⟨ms', hms', harr'⟩ := h' (hms.own ha)
  refine ⟨ms ++ ms', hms.append hms', ?_⟩
  rw [arrivals_append, harr, harr']

theorem Tale.cons {m : Moment} (hm : Act win i a m b) (h : Tale win i b segs c) :
    Tale win i a (m.arrived.toList ++ segs) c := by
  intro ha
  obtain ⟨ms, hms, harr⟩ := h (hm.own ha)
  refine ⟨(m, b) :: ms, .cons hm hms, ?_⟩
  have hcons := arrivals_append [(m, b)] ms
  rw [harr] at hcons
  refine hcons.trans (congrArg (· ++ segs) ?_)
  cases m <;> rfl

end Tale

section Poll

variable (cfg) (i)

theorem appcall_polled (w : Stack nT nU) (h : w.uipFlags = { Flags.none with poll := true }) :
    xtcpdAppcall cfg (.tcp i) w =
      onClosed cfg (.tcp i) (onPush cfg (.tcp i) (pollRest cfg (.tcp i) (pollAck (.tcp i) w))) := by
  rw [appcall_connected cfg i w (by rw [h]; rfl)]
  simp [appcallData, appcallRest, onAcked, onRexmit, onPoll, handlePoll_eq, h, Flags.none]

def Replies (w : Stack nT nU) : Prop :=
  w.uipFlags.abort = true ∨ w.uipFlags.close = true ∨ w.uipFlags.newdata = true

theorem replies_pollRest (w : Stack nT nU) (h : w.uipFlags.newdata = true) :
    Replies (pollRest cfg (.tcp i) w) := by
  unfold pollRest
  split
  · exact Or.inl rfl
  split
  · exact Or.inr (Or.inl rfl)
  split
  · exact Or.inr (Or.inr h)
  split
  · refine Or.inr (Or.inr ?_)
    rw [flags_pollSend]
    exact h
  · refine Or.inr (Or.inr ?_)
    rw [flags_pollTimer]
    exact h

theorem replies_polled (w : Stack nT nU) (h : w.uipFlags = { Flags.none with poll := true })
    (hreq : (w.app (.tcp i)).s.ackRequest = true) : Replies (xtcpdAppcall cfg (.tcp i) w) := by
  have hack : (pollAck (.tcp i) w).uipFlags.newdata = true := by
    unfold pollAck
    rw [if_pos hreq]
  have hrest := replies_pollRest cfg i _ hack
  rw [appcall_polled cfg i w h]
  unfold Replies
  rw [flags_closed, flags_push]
  exact hrest

theorem appsend_replies (w : Stack nT nU) (h : Replies w) :
    ∃ w₁ flags len, Moves cfg.receiveWindow i (w.flow i d) (w₁.flow i d) ∧
      appsend cfg i w = tcpSend cfg i flags len w₁ := by
  unfold appsend
  by_cases habort : w.uipFlags.abort = true
  · rw [if_pos habort]
    exact ⟨_, _, _, moves_setState i { w with uipSlen := 0 } (by decide), rfl⟩
  by_cases hclose : w.uipFlags.close = true
  · rw [if_neg habort, if_pos hclose]
    refine ⟨_, _, _, .trans (.of_eq ?_) (moves_setState i _ (by decide)), rfl⟩
    exact (flow_setTcp_same { w with uipSlen := 0 } i _ fun _ => ⟨rfl, rfl⟩).symm
  · rw [if_neg habort, if_neg hclose]
    have hnew :
        (appsendData i (w.setTcp i fun c => { c with nrtx := 0 })).uipFlags.newdata = true := by
      rw [flags_appsendData]
      exact (h.resolve_left habort).resolve_left hclose
    have hflow : (appsendData i (w.setTcp i fun c => { c with nrtx := 0 })).flow i d =
        w.flow i d := by
      rw [flow_appsendData]
      exact flow_setTcp_same w i _ fun _ => ⟨rfl, rfl⟩
    refine ⟨appsendData i (w.setTcp i fun c => { c with nrtx := 0 }), ?_⟩
    unfold apprexmit
    split
    · exact ⟨_, _, .of_eq hflow.symm, rfl⟩
    · exact ⟨_, _, .of_eq hflow.symm, rfl⟩

-- The application call of a poll when there is no request to answer.
theorem moves_polled (w : Stack nT nU) (h : w.uipFlags = { Flags.none with poll := true })
    (hreq : (w.app (.tcp i)).s.ackRequest = false) :
    Moves cfg.receiveWindow i (w.flow i d) ((xtcpdAppcall cfg (.tcp i) w).flow i d) := by
  have hack : pollAck (.tcp i) w = w := by
    unfold pollAck
    rw [hreq]
    rfl
  rw [appcall_polled cfg i w h, hack]
  exact (moves_pollRest _ cfg w).trans ((moves_onPush _ cfg _).trans (moves_onClosed _ cfg _))

theorem answers_polled (w : Stack nT nU) (h : w.uipFlags = { Flags.none with poll := true })
    (hreq : (w.app (.tcp i)).s.ackRequest = true) (hown : (w.flow i d).Own) :
    Answers cfg.receiveWindow i (w.flow i d)
      ((appsend cfg i (xtcpdAppcall cfg (.tcp i) w)).flow i d) := by
  have hans : Act cfg.receiveWindow i (w.flow i d) .answer ((pollAck (.tcp i) w).flow i d) := by
    rw [flow_pollAck, if_pos rfl]
    exact .answer _ hreq
  obtain ⟨w₁, flags, len, hm, he⟩ := @appsend_replies _ _ d cfg i _ (replies_polled cfg i w h hreq)
  rw [appcall_polled cfg i w h] at hm
  have hcall := ((moves_pollRest (.tcp i) cfg (pollAck (.tcp i) w)).trans
    ((moves_onPush _ cfg _).trans (moves_onClosed _ cfg _))).trans hm
  obtain ⟨mid, hmid, hcalm⟩ := hcall (hans.own hown)
  rw [he]
  refine ⟨(pollAck (.tcp i) w).flow i d, mid, segmentOf cfg i flags len w₁, ?_, hcalm⟩
  exact Path.append (.cons hans hmid) (.single (output_tcpSend cfg flags len w₁))

variable (d)

theorem answers_call (w w₁ : Stack nT nU) (hflow : w₁.flow i d = w.flow i d)
    (h : w₁.uipFlags = { Flags.none with poll := true }) (hown : (w.flow i d).Own)
    (hreq : (w.app (.tcp i)).s.ackRequest = true) :
    Answers cfg.receiveWindow i (w.flow i d)
      ((appsend cfg i (xtcpdAppcall cfg (.tcp i) w₁)).flow i d) := by
  rw [← hflow] at hown ⊢
  exact answers_polled cfg i w₁ h ((congrArg Flow.ackRequest hflow).trans hreq) hown

theorem tale_call (w w₁ : Stack nT nU) (hflow : w₁.flow i d = w.flow i d)
    (h : w₁.uipFlags = { Flags.none with poll := true }) :
    Tale cfg.receiveWindow i (w.flow i d) []
      ((appsend cfg i (xtcpdAppcall cfg (.tcp i) w₁)).flow i d) := by
  intro hown
  refine (?_ : Tale cfg.receiveWindow i _ _ _) hown
  cases hreq : (w.app (.tcp i)).s.ackRequest with
  | true => exact (answers_call d cfg i w w₁ hflow h hown hreq).tale
  | false =>
    have hreq' : (w₁.app (.tcp i)).s.ackRequest = false :=
      (congrArg Flow.ackRequest hflow).trans hreq
    rw [← hflow]
    exact ((moves_polled cfg i w₁ h hreq').trans (moves_appsend i _)).tale

-- The stack in which the application call of a poll is made.
def asked (w : Stack nT nU) : Stack nT nU :=
  { w with uipFlags := { Flags.none with poll := true }, uipLen := 0, uipSlen := 0 }

theorem answers_pollTcp (w : Stack nT nU) (hown : (w.flow i d).Own)
    (hstate : w.state i = .established) (hlen : (w.tcp i).len = 0)
    (hreq : (w.app (.tcp i)).s.ackRequest = true) :
    Answers cfg.receiveWindow i (w.flow i d) ((pollTcp cfg w i).flow i d) := by
  have hpoll : needsPoll (w.app (.tcp i)).s = true := by
    unfold needsPoll
    rw [hreq, Bool.or_true]
  unfold pollTcp
  rw [if_pos hpoll]
  unfold pollConn
  rw [if_pos ⟨hstate, hlen⟩]
  exact answers_call d cfg i w (asked w) rfl rfl hown hreq

theorem answers_periodic (w : Stack nT nU) (hown : (w.flow i d).Own)
    (hstate : w.state i = .established) (hlen : (w.tcp i).len = 0)
    (hreq : (w.app (.tcp i)).s.ackRequest = true) :
    Answers cfg.receiveWindow i (w.flow i d) ((periodic cfg i w).flow i d) := by
  have hne {st : TcpState} (hst : st ≠ .established) : (w.tcp i).tcpstateflags ≠ ⟨st, false⟩ :=
    fun h => hst ((congrArg TcpFlags.state h).symm.trans hstate)
  have hstate' : (w.tcp i).tcpstateflags.state = .established := hstate
  unfold periodic periodicConn
  dsimp only
  rw [if_neg (not_or.mpr ⟨hne (by decide), hne (by decide)⟩), if_neg (hne (by decide)),
    if_neg (not_not.mpr hlen), if_pos hstate']
  exact answers_call d cfg i w _ rfl rfl hown hreq

theorem tale_pollTcp (w : Stack nT nU) (j : Fin nT) :
    Tale cfg.receiveWindow i (w.flow i d) [] ((pollTcp cfg w j).flow i d) := by
  unfold pollTcp pollConn
  split
  · split
    · by_cases hj : j = i
      · subst hj
        exact tale_call d cfg j w (asked w) rfl rfl
      · exact ((moves_appcall_other _ cfg (asked w) fun h => hj (Slot.tcp.inj h)).trans
          (moves_appsend j _)).tale
    · exact Moves.tale .refl
  · exact Moves.tale .refl

theorem tale_periodic (w : Stack nT nU) (j : Fin nT) :
    Tale cfg.receiveWindow i (w.flow i d) [] ((periodic cfg j w).flow i d) := by
  show Tale cfg.receiveWindow i
    (Stack.flow { w with iss := incrementedApart w.iss, uipLen := 0, uipSlen := 0 } i d) [] _
  unfold periodic periodicConn
  generalize ({ w with iss := incrementedApart w.iss, uipLen := 0, uipSlen := 0 } : Stack nT nU) = w
  dsimp only
  split
  · rw [← flow_setTcp_same w j (fun c => { c with timer := c.timer + 1 }) fun _ => ⟨rfl, rfl⟩]
    refine Moves.tale ?_
    split
    · exact moves_setState j _ (by decide)
    · exact .refl
  split
  · exact Moves.tale .refl
  split
  · exact (moves_outstandingTimer j w).tale
  split
  · by_cases hj : j = i
    · subst hj
      exact tale_call d cfg j w _ rfl rfl
    · exact ((moves_appcall_other _ cfg (withFlags { Flags.none with poll := true } w)
        fun h => hj (Slot.tcp.inj h)).trans (moves_appsend j _)).tale
  · exact Moves.tale .refl

end Poll

end Xtcp.Uip
