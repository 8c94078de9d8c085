import Xtcp.Uip.FlowCalls
import Xtcp.Uip.Server

namespace Xtcp.Uip
open Channel Listen Labelled

variable {nT nU : Nat} {i : Fin nT} {d : Bool} {cfg : Config}

section Send

variable (cfg)

def segmentOf (i : Fin nT) (flags : Ctl) (len : Nat) (w : Stack nT nU) : Segment :=
  ((tcpSend cfg i flags len w).wire.drop w.wire.length).headD
    ⟨zeroIpaddr, 0, 0, 0, 0, false, false, false, false, false, false, 0, 0, 0, none⟩

theorem flow_tcpSend (j : Fin nT) (flags : Ctl) (len : Nat) (w : Stack nT nU) :
    (tcpSend cfg j flags len w).flow i d =
      { w.flow i d with wire := w.wire ++ [segmentOf cfg j flags len w] } := by
  refine Flow.ext rfl rfl rfl rfl rfl rfl ?_ rfl rfl rfl
  show w.wire ++ [_] = w.wire ++ [_]
  simp [segmentOf, tcpSend]

theorem wnd_segmentOf (flags : Ctl) (len : Nat) (w : Stack nT nU) :
    (segmentOf cfg i flags len w).wnd = if (w.flow i d).stopped then 0 else cfg.receiveWindow := by
  simp only [segmentOf, tcpSend, List.drop_left, List.headD_cons]
  rfl

theorem output_tcpSend (flags : Ctl) (len : Nat) (w : Stack nT nU) :
    Act cfg.receiveWindow i (w.flow i d) (.output (segmentOf cfg i flags len w))
      ((tcpSend cfg i flags len w).flow i d) := by
  rw [flow_tcpSend]
  exact .output _ _ (wnd_segmentOf cfg flags len w)

theorem moves_tcpSend (j : Fin nT) (flags : Ctl) (len : Nat) (w : Stack nT nU) :
    Moves cfg.receiveWindow i (w.flow i d) ((tcpSend cfg j flags len w).flow i d) := by
  by_cases hj : j = i
  · subst hj
    exact .act (output_tcpSend cfg flags len w) rfl
  · rw [flow_tcpSend]
    exact .act (.other _ _) rfl

end Send

theorem moves_reset {win : Nat} (seg : Segment) (w : Stack nT nU) :
    Moves win i (w.flow i d) ((reset seg w).flow i d) := by
  unfold reset
  split
  · exact .refl
  · exact .act (.other (w.flow i d) _) rfl

theorem moves_setState {win : Nat} (j : Fin nT) {st : TcpState} (w : Stack nT nU)
    (hst : st ≠ .established) : Moves win i (w.flow i d) ((w.setState j st).flow i d) := by
  by_cases hj : j = i
  · subst hj
    rw [flow_setState]
    exact .act (.leave _ st hst) rfl
  · exact .of_eq (flow_setTcp_same w j _ fun h => absurd h hj).symm

theorem flow_withFlags (flags : Flags) (w : Stack nT nU) :
    (withFlags flags w).flow i d = w.flow i d := rfl

theorem flow_setRcvNxt (w : Stack nT nU) (f : TcpConn → TcpConn)
    (hflags : (f (w.tcp i)).tcpstateflags = (w.tcp i).tcpstateflags) :
    (w.setTcp i f).flow i d = { w.flow i d with rcvNxt := (f (w.tcp i)).rcvNxt } := by
  rw [flow_setTcp, hflags]
  rfl

theorem flow_addRcvNxt (n : Nat) (w : Stack nT nU) :
    (addRcvNxt i n w).flow i d =
      { w.flow i d with rcvNxt := (w.tcp i).rcvNxt + BitVec.ofNat 32 n } := flow_setRcvNxt w _ rfl

theorem flow_addRcvNxt_other {j : Fin nT} (hj : j ≠ i) (n : Nat) (w : Stack nT nU) :
    (addRcvNxt j n w).flow i d = w.flow i d := flow_setTcp_same w j _ fun h => absurd h hj

theorem flow_setState_other {j : Fin nT} (hj : j ≠ i) (st : TcpState) (w : Stack nT nU) :
    (w.setState j st).flow i d = w.flow i d := flow_setTcp_same w j _ fun h => absurd h hj

theorem state_setState (j : Fin nT) (st : TcpState) (w : Stack nT nU) :
    (w.setState j st).state j = st :=
  (congrFun (state_setTcp w j _) j).trans (Function.update_self _ _ _)

theorem state_addRcvNxt (j : Fin nT) (n : Nat) (w : Stack nT nU) :
    (addRcvNxt j n w).state j = w.state j :=
  (congrFun (state_setTcp w j _) j).trans (Function.update_self _ _ _)

theorem moves_addRcvNxt {win : Nat} (j : Fin nT) (n : Nat) (w : Stack nT nU)
    (h : j = i → ¬ (w.flow i d).Shut) :
    Moves win i (w.flow i d) ((addRcvNxt j n w).flow i (d || decide (j = i))) := by
  by_cases hj : j = i
  · subst hj
    refine .trans (.act (.accept _ n (h rfl)) rfl) (.of_eq ?_)
    rw [flow_addRcvNxt, decide_eq_true rfl, Bool.or_true]
    rfl
  · rw [decide_eq_false hj, Bool.or_false]
    exact .of_eq (flow_addRcvNxt_other hj n w).symm

theorem flow_setLen (j : Fin nT) (w : Stack nT nU) (n : Nat) :
    (w.setTcp j fun c => { c with len := n }).flow i d = w.flow i d :=
  flow_setTcp_same w j _ fun _ => ⟨rfl, rfl⟩

theorem moves_apprexmit (j : Fin nT) (w : Stack nT nU) :
    Moves cfg.receiveWindow i (w.flow i d) ((apprexmit cfg j w).flow i d) := by
  unfold apprexmit
  split
  · exact moves_tcpSend cfg j _ _ w
  split
  · exact moves_tcpSend cfg j _ _ w
  · exact .refl

theorem flow_appsendData (j : Fin nT) (w : Stack nT nU) :
    (appsendData j w).flow i d = w.flow i d := by
  unfold appsendData
  split
  · dsimp only
    split
    · split
      · exact (flow_setLen j _ _).trans (flow_setLen j w 0)
      · exact flow_setLen j w 0
    · split
      · exact flow_setLen j w _
      · rfl
  · rfl

theorem flags_appsendData (j : Fin nT) (w : Stack nT nU) :
    (appsendData j w).uipFlags = w.uipFlags := by
  unfold appsendData
  split
  · dsimp only
    split <;> split <;> rfl
  · rfl

theorem moves_appsend (j : Fin nT) (w : Stack nT nU) :
    Moves cfg.receiveWindow i (w.flow i d) ((appsend cfg j w).flow i d) := by
  unfold appsend
  split
  · exact (moves_setState j { w with uipSlen := 0 } (by decide)).trans (moves_tcpSend cfg j _ _ _)
  split
  · refine .trans (.of_eq ?_) ((moves_setState j _ (by decide)).trans (moves_tcpSend cfg j _ _ _))
    exact (flow_setTcp_same { w with uipSlen := 0 } j _ fun _ => ⟨rfl, rfl⟩).symm
  · refine .trans (.of_eq ?_) (moves_apprexmit j _)
    rw [flow_appsendData]
    exact (flow_setTcp_same w j _ fun _ => ⟨rfl, rfl⟩).symm

theorem moves_appcall (j : Fin nT) (w : Stack nT nU)
    (hflags : j = i → w.uipFlags.connected = false ∧ w.uipFlags.poll = false ∧
      (w.uipFlags.newdata = true → 0 < w.uipLen → d = true)) :
    Moves cfg.receiveWindow i (w.flow i d) ((xtcpdAppcall cfg (.tcp j) w).flow i d) := by
  by_cases hj : j = i
  · subst hj
    obtain ⟨hconn, hpoll, hnew⟩ := hflags rfl
    rw [appcall_connected cfg j w hconn]
    refine moves_appcallData _ cfg w (fun hn hl _ => hnew hn hl) fun hp => ?_
    rw [hpoll] at hp
    cases hp
  · exact moves_appcall_other _ cfg w fun h => hj (Slot.tcp.inj h)

theorem moves_kill {win : Nat} (j : Fin nT) (w : Stack nT nU) :
    Moves win i (w.flow i d) ((w.kill j).flow i d) :=
  .trans (.of_eq (flow_note w (.killed (.tcp j) (w.state j)) rfl).symm)
    (moves_setState j _ (by decide))

theorem moves_retransmit (j : Fin nT) (w : Stack nT nU) :
    Moves cfg.receiveWindow i (w.flow i d) ((retransmit cfg j w).flow i d) := by
  unfold retransmit
  dsimp only
  rw [← flow_setTcp_same w j (fun c => { c with timer := rexmitTimer c.nrtx, nrtx := c.nrtx + 1 })
    fun _ => ⟨rfl, rfl⟩]
  generalize (w.setTcp j fun c => { c with timer := rexmitTimer c.nrtx, nrtx := c.nrtx + 1 }) = w₁
  split
  · exact moves_tcpSend cfg j _ _ w₁
  · exact moves_tcpSend cfg j _ _ w₁
  · exact .trans (moves_appcall j (withFlags { Flags.none with rexmit := true } w₁)
      fun _ => ⟨rfl, rfl, nofun⟩) (moves_apprexmit j _)
  · exact moves_tcpSend cfg j _ _ w₁
  · exact moves_tcpSend cfg j _ _ w₁
  · exact moves_tcpSend cfg j _ _ w₁
  · exact .refl

theorem moves_outstandingTimer (j : Fin nT) (w : Stack nT nU) :
    Moves cfg.receiveWindow i (w.flow i d) ((outstandingTimer cfg j w).flow i d) := by
  unfold outstandingTimer
  dsimp only
  rw [← flow_setTcp_same w j (fun c => { c with timer := c.timer - 1 }) fun _ => ⟨rfl, rfl⟩]
  generalize (w.setTcp j fun c => { c with timer := c.timer - 1 }) = w₁
  split
  · split
    · refine (moves_kill j w₁).trans ?_
      exact .trans (moves_appcall j (withFlags { Flags.none with timedout := true } (w₁.kill j))
        fun _ => ⟨rfl, rfl, nofun⟩) (moves_tcpSend cfg j _ _ _)
    · exact moves_retransmit j w₁
  · exact .refl

theorem moves_establish {w w₁ : Stack nT nU} {rcvNxt : BitVec 32}
    (hstate : w.state i = .synRcvd ∨ w.state i = .synSent)
    (hflow : w₁.flow i true =
      { (w.flow i d).setState .established with rcvNxt := rcvNxt, data := true })
    (hconn : w₁.uipFlags.connected = true) (hpoll : w₁.uipFlags.poll = false) :
    Moves cfg.receiveWindow i (w.flow i d) ((xtcpdAppcall cfg (.tcp i) w₁).flow i true) := by
  rw [appcall_tcp]
  have hf : (onConnected cfg (.tcp i) w₁).uipFlags = w₁.uipFlags := flags_onConnected _ cfg w₁
  refine .trans ?_ (moves_appcallData _ cfg _ (fun _ _ _ => rfl) fun hp => ?_)
  · unfold onConnected
    rw [if_pos hconn]
    refine .trans ?_ (moves_event _ cfg _ (by decide))
    obtain ⟨conn, hc, he⟩ := flow_initState (i := i) (d := true) w₁ (.tcp i)
    rw [he, if_pos rfl, if_pos rfl, hflow]
    exact .act (.establish (w.flow i d) rcvNxt conn true hstate hc) rfl
  · rw [hf, hpoll] at hp
    cases hp

theorem moves_connected (j : Fin nT) {w w₁ : Stack nT nU}
    (hstate : w.state j = .synRcvd ∨ w.state j = .synSent)
    (hself : j = i → ∃ rcvNxt, w₁.flow i true =
      { (w.flow i d).setState .established with rcvNxt := rcvNxt, data := true })
    (hother : j ≠ i → w₁.flow i d = w.flow i d)
    (hconn : w₁.uipFlags.connected = true) (hpoll : w₁.uipFlags.poll = false) :
    Moves cfg.receiveWindow i (w.flow i d)
      ((xtcpdAppcall cfg (.tcp j) w₁).flow i (d || decide (j = i))) := by
  by_cases hj : j = i
  · subst hj
    rw [decide_eq_true rfl, Bool.or_true]
    obtain ⟨rcvNxt, hflow⟩ := hself rfl
    exact moves_establish hstate hflow hconn hpoll
  · rw [decide_eq_false hj, Bool.or_false, ← hother hj]
    exact moves_appcall_other _ cfg w₁ fun h => hj (Slot.tcp.inj h)

def Goes (win : Nat) (i : Fin nT) (a : Flow nT nU) (w : Stack nT nU) : Prop :=
  ∃ d, Moves win i a (w.flow i d)

theorem Moves.goes {win : Nat} {a : Flow nT nU} {w : Stack nT nU} (h : Moves win i a (w.flow i d)) :
    Goes win i a w := ⟨d, h⟩

theorem Moves.then {win : Nat} {a b : Flow nT nU} {w : Stack nT nU} (h : Moves win i a b)
    (h' : Goes win i b w) : Goes win i a w := h'.imp fun _ hm => h.trans hm

theorem moves_appcallSend (j : Fin nT) (w : Stack nT nU)
    (hflags : j = i → w.uipFlags.connected = false ∧ w.uipFlags.poll = false ∧
      (w.uipFlags.newdata = true → 0 < w.uipLen → d = true)) :
    Moves cfg.receiveWindow i (w.flow i d)
      ((appsend cfg j (xtcpdAppcall cfg (.tcp j) w)).flow i d) :=
  (moves_appcall j w hflags).trans (moves_appsend j _)

-- The state in which NEW_CONNECTION is announced after the handshake of a passive open.
def handshaken (j : Fin nT) (w : Stack nT nU) : Stack nT nU :=
  let w := (w.setTcp j fun c => { c with len := 0 }).setState j .established
  let w := if 0 < w.uipLen then
      addRcvNxt j w.uipLen (withFlags { Flags.none with connected := true, newdata := true } w)
    else withFlags { Flags.none with connected := true } w
  { w with uipSlen := 0 }

theorem handshaken_flags (j : Fin nT) (w : Stack nT nU) :
    (handshaken j w).uipFlags.connected = true ∧ (handshaken j w).uipFlags.poll = false := by
  unfold handshaken
  dsimp only
  split <;> exact ⟨rfl, rfl⟩

theorem handshaken_other {j : Fin nT} (hj : j ≠ i) (w : Stack nT nU) :
    (handshaken j w).flow i d = w.flow i d := by
  have hst : ((w.setTcp j fun c => { c with len := 0 }).setState j .established).flow i d =
      w.flow i d := (flow_setState_other hj _ _).trans (flow_setLen j w 0)
  unfold handshaken
  dsimp only
  generalize ((w.setTcp j fun c => { c with len := 0 }).setState j .established) = w₁ at hst ⊢
  split
  · have hadd := flow_addRcvNxt_other (d := d) hj w₁.uipLen
      (withFlags { Flags.none with connected := true, newdata := true } w₁)
    exact hadd.trans hst
  · exact hst

theorem handshaken_self (w : Stack nT nU) :
    ∃ rcvNxt, (handshaken i w).flow i true =
      { (w.flow i d).setState .established with rcvNxt := rcvNxt, data := true } := by
  have hst : ((w.setTcp i fun c => { c with len := 0 }).setState i .established).flow i true =
      (w.flow i true).setState .established := by
    rw [flow_setState, flow_setLen]
  unfold handshaken
  dsimp only
  generalize ((w.setTcp i fun c => { c with len := 0 }).setState i .established) = w₁ at hst ⊢
  split
  · have hadd := flow_addRcvNxt (i := i) (d := true) w₁.uipLen
      (withFlags { Flags.none with connected := true, newdata := true } w₁)
    rw [flow_withFlags, hst] at hadd
    exact ⟨_, hadd⟩
  · refine ⟨(w.tcp i).rcvNxt, ?_⟩
    show w₁.flow i true = _
    rw [hst]
    rfl

theorem goes_synRcvdInput (j : Fin nT) (w : Stack nT nU) (hstate : w.state j = .synRcvd) :
    Goes cfg.receiveWindow i (w.flow i d) (synRcvdInput cfg j w) := by
  have heq : synRcvdInput cfg j w = if w.uipFlags.ackdata then
      appsend cfg j (xtcpdAppcall cfg (.tcp j) (handshaken j w)) else w.drop := rfl
  rw [heq]
  split
  · obtain ⟨hconn, hpoll⟩ := handshaken_flags j w
    refine ⟨d || decide (j = i), .trans ?_ (moves_appsend j _)⟩
    refine moves_connected j (Or.inl hstate) (fun hj => ?_) (fun hj => ?_) hconn hpoll
    · subst hj
      exact handshaken_self w
    · exact handshaken_other hj w
  · exact ⟨d, .refl⟩

theorem goes_synSentInput (j : Fin nT) (seg : Segment) (w : Stack nT nU)
    (hstate : w.state j = .synSent) :
    Goes cfg.receiveWindow i (w.flow i d) (synSentInput cfg j seg w) := by
  have hmss (e : Bool) : (setMss cfg j seg w).flow i e = w.flow i e := by
    unfold setMss
    split
    · rfl
    · exact flow_setTcp_same w j _ fun _ => ⟨rfl, rfl⟩
  unfold synSentInput
  split
  · dsimp only
    refine ⟨d || decide (j = i), .trans ?_ (moves_appsend j _)⟩
    refine moves_connected j (Or.inr hstate) (fun hj => ⟨seg.seqno + 1, ?_⟩) (fun hj => ?_) rfl rfl
    · subst hj
      have hset := flow_setRcvNxt (i := j) (d := true) ((setMss cfg j seg w).setState j .established)
        (fun c => { c with rcvNxt := seg.seqno + 1, len := 0 }) rfl
      have hst : ((setMss cfg j seg w).setState j .established).flow j true =
          (w.flow j true).setState .established := by rw [flow_setState, hmss]
      rw [hst] at hset
      exact hset
    · have hset := flow_setTcp_same (i := i) (d := d) ((setMss cfg j seg w).setState j .established) j
        (fun c => { c with rcvNxt := seg.seqno + 1, len := 0 }) fun h => absurd h hj
      exact (hset :).trans ((flow_setState_other hj _ _).trans (hmss d))
  · refine ⟨d, .trans ?_ ((moves_setState j _ (by decide)).trans (moves_reset seg _))⟩
    refine .trans (.of_eq (flow_note w (.killed (.tcp j) (w.state j)) rfl).symm) ?_
    exact moves_appcall j (withFlags { Flags.none with abort := true }
      (w.note (.killed (.tcp j) (w.state j)))) fun _ => ⟨rfl, rfl, nofun⟩

structure Plain (w : Stack nT nU) : Prop where
  connected : w.uipFlags.connected = false
  poll : w.uipFlags.poll = false
  newdata : w.uipFlags.newdata = false

theorem goes_finInput (j : Fin nT) (w : Stack nT nU) (hplain : Plain w)
    (hshut : j = i → ¬ (w.flow i d).Shut) :
    Goes cfg.receiveWindow i (w.flow i d) (finInput cfg j w) := by
  unfold finInput
  split
  · exact ⟨d, .refl⟩
  · dsimp only
    refine ⟨d || decide (j = i), (moves_addRcvNxt j (1 + w.uipLen) w hshut).trans ?_⟩
    generalize addRcvNxt j (1 + w.uipLen) w = w₁
    refine .trans ?_ (moves_tcpSend cfg j _ _ _)
    refine .trans ?_ (moves_setState j _ (by decide))
    rw [flow_setTcp_same _ j (fun c => { c with len := 1, nrtx := 0 }) fun _ => ⟨rfl, rfl⟩]
    have hcall (flags : Flags) (hconn : flags.connected = false) (hpoll : flags.poll = false) :
        Moves cfg.receiveWindow i (w₁.flow i (d || decide (j = i)))
          ((xtcpdAppcall cfg (.tcp j) (withFlags flags w₁)).flow i (d || decide (j = i))) :=
      moves_appcall j (withFlags flags w₁) fun hj => ⟨hconn, hpoll, fun _ _ => by
        rw [decide_eq_true hj, Bool.or_true]⟩
    split <;> exact hcall _ hplain.connected hplain.poll

theorem moves_takeData (hpause : cfg.acceptAfterPause = false) (j : Fin nT) (w : Stack nT nU)
    (hplain : Plain w) :
    ∃ d', Moves cfg.receiveWindow i (w.flow i d) ((takeData cfg j w).flow i d') ∧
      (takeData cfg j w).uipFlags.connected = false ∧ (takeData cfg j w).uipFlags.poll = false ∧
      (j = i → (takeData cfg j w).uipFlags.newdata = true → d' = true) := by
  unfold takeData
  split
  next htake =>
    have hrun : ¬ (w.tcp j).tcpstateflags.stopped = true := by
      rcases htake.2 with h | h
      · rw [hpause] at h
        cases h
      · exact h
    refine ⟨d || decide (j = i), moves_addRcvNxt j _ (withFlags _ w) fun hj hs => ?_,
      hplain.connected, hplain.poll, fun hj _ => ?_⟩
    · subst hj
      exact hrun hs.2
    · rw [decide_eq_true hj, Bool.or_true]
  · refine ⟨d, .refl, hplain.connected, hplain.poll, fun _ h => ?_⟩
    rw [hplain.newdata] at h
    cases h

theorem plain_takeUrgent (seg : Segment) {w : Stack nT nU} (h : Plain w) :
    Plain (takeUrgent seg w) ∧ (takeUrgent seg w).flow i d = w.flow i d := by
  unfold takeUrgent
  split
  · exact ⟨⟨h.connected, h.poll, h.newdata⟩, rfl⟩
  · exact ⟨h, rfl⟩

theorem goes_establishedInput (hpause : cfg.acceptAfterPause = false) (j : Fin nT) (seg : Segment)
    (w : Stack nT nU) (hplain : Plain w) :
    Goes cfg.receiveWindow i (w.flow i d) (establishedInput cfg j seg w) := by
  unfold establishedInput
  split
  next hfin =>
    simp only [Bool.and_eq_true, Bool.not_eq_true'] at hfin
    refine goes_finInput j w hplain fun hj hs => ?_
    subst hj
    have hstopped : (w.tcp j).tcpstateflags.stopped = true := hs.2
    rw [hfin.2] at hstopped
    cases hstopped
  · obtain ⟨hplain', hflow⟩ := plain_takeUrgent (i := i) (d := d) seg hplain
    rw [← hflow]
    generalize takeUrgent seg w = w₀ at hplain' ⊢
    obtain ⟨d', hm, hconn, hpoll, hnew⟩ := moves_takeData (i := i) (d := d) hpause j w₀ hplain'
    dsimp only
    refine hm.then ?_
    generalize takeData cfg j w₀ = w₁ at hconn hpoll hnew ⊢
    have hwin : (takeWindow j seg w₁).flow i d' = w₁.flow i d' :=
      flow_setTcp_same w₁ j _ fun _ => ⟨rfl, rfl⟩
    rw [← hwin]
    split
    · exact ⟨d', moves_appcallSend j { takeWindow j seg w₁ with uipSlen := 0 } fun hj =>
        ⟨hconn, hpoll, fun hn _ => hnew hj hn⟩⟩
    · exact ⟨d', .refl⟩

theorem goes_lastAckInput (j : Fin nT) (w : Stack nT nU) :
    Goes cfg.receiveWindow i (w.flow i d) (lastAckInput cfg j w) := by
  unfold lastAckInput
  split
  · refine ⟨d, (moves_setState j w (by decide : TcpState.closed ≠ .established)).trans ?_⟩
    exact moves_appcall j (withFlags { Flags.none with close := true } (w.setState j .closed))
      fun _ => ⟨rfl, rfl, nofun⟩
  · exact ⟨d, .refl⟩

theorem moves_addRcvNxt_if {win : Nat} (j : Fin nT) (n : Nat) (w : Stack nT nU)
    (h : w.state j ≠ .established) :
    ∃ d', Moves win i (w.flow i d) ((if 0 < n then addRcvNxt j n w else w).flow i d') ∧
      (if 0 < n then addRcvNxt j n w else w).state j = w.state j := by
  split
  · refine ⟨d || decide (j = i), moves_addRcvNxt j n w fun hj hs => ?_, ?_⟩
    · subst hj
      exact h hs.1
    · exact state_addRcvNxt j n w
  · exact ⟨d, .refl, rfl⟩

-- The peer's FIN in FIN_WAIT_1 or FIN_WAIT_2.
theorem goes_finish (j : Fin nT) {st : TcpState} (w : Stack nT nU) (hst : st ≠ .established) :
    Goes cfg.receiveWindow i (w.flow i d) (tcpSend cfg j .ackOnly 0
      (xtcpdAppcall cfg (.tcp j) (withFlags { Flags.none with close := true }
        (addRcvNxt j 1 (w.setState j st))))) := by
  refine ⟨d || decide (j = i), (moves_setState j w hst).trans ?_⟩
  refine (moves_addRcvNxt j 1 (w.setState j st) fun hj hs => ?_).trans ?_
  · subst hj
    exact hst ((state_setState j st w).symm.trans hs.1)
  · exact (moves_appcall j (withFlags { Flags.none with close := true } (addRcvNxt j 1
      (w.setState j st))) fun _ => ⟨rfl, rfl, nofun⟩).trans (moves_tcpSend cfg j _ _ _)

theorem goes_finWait1Input (j : Fin nT) (seg : Segment) (w : Stack nT nU)
    (hstate : w.state j ≠ .established) :
    Goes cfg.receiveWindow i (w.flow i d) (finWait1Input cfg j seg w) := by
  obtain ⟨d', hm, _⟩ := @moves_addRcvNxt_if nT nU i d cfg.receiveWindow j w.uipLen w hstate
  unfold finWait1Input
  dsimp only
  refine hm.then ?_
  generalize (if 0 < w.uipLen then addRcvNxt j w.uipLen w else w) = w₁
  split
  · split
    · rw [← flow_setTcp_same w₁ j (fun c => { c with timer := 0, len := 0 }) fun _ => ⟨rfl, rfl⟩]
      exact goes_finish j _ (by decide)
    · exact goes_finish j w₁ (by decide)
  split
  · rw [← flow_setLen j w₁ 0]
    exact ⟨d', moves_setState j _ (by decide)⟩
  split
  · exact ⟨d', moves_tcpSend cfg j _ _ w₁⟩
  · exact ⟨d', .refl⟩

theorem goes_finWait2Input (j : Fin nT) (seg : Segment) (w : Stack nT nU)
    (hstate : w.state j ≠ .established) :
    Goes cfg.receiveWindow i (w.flow i d) (finWait2Input cfg j seg w) := by
  obtain ⟨d', hm, _⟩ := @moves_addRcvNxt_if nT nU i d cfg.receiveWindow j w.uipLen w hstate
  unfold finWait2Input
  dsimp only
  refine hm.then ?_
  generalize (if 0 < w.uipLen then addRcvNxt j w.uipLen w else w) = w₁
  split
  · rw [← flow_setTcp_same w₁ j (fun c => { c with timer := 0 }) fun _ => ⟨rfl, rfl⟩]
    exact goes_finish j _ (by decide)
  split
  · exact ⟨d', moves_tcpSend cfg j _ _ w₁⟩
  · exact ⟨d', .refl⟩

theorem goes_closingInput {win : Nat} (j : Fin nT) (w : Stack nT nU) :
    Goes win i (w.flow i d) (closingInput j w) := by
  unfold closingInput
  split
  · rw [← flow_setTcp_same w j (fun c => { c with timer := 0 }) fun _ => ⟨rfl, rfl⟩]
    exact ⟨d, moves_setState j _ (by decide)⟩
  · exact ⟨d, .refl⟩

theorem goes_stateInput (hpause : cfg.acceptAfterPause = false) (j : Fin nT) (seg : Segment)
    (w : Stack nT nU) (hplain : Plain w) :
    Goes cfg.receiveWindow i (w.flow i d) (stateInput cfg j seg w) := by
  unfold stateInput
  split
  next h => exact goes_synRcvdInput j w h
  next h => exact goes_synSentInput j seg w h
  next => exact goes_establishedInput hpause j seg w hplain
  next => exact goes_lastAckInput j w
  next h => exact goes_finWait1Input j seg w (by rw [h]; decide)
  next h => exact goes_finWait2Input j seg w (by rw [h]; decide)
  next => exact ⟨d, moves_tcpSend cfg j _ _ w⟩
  next => exact goes_closingInput j w
  next => exact ⟨d, .refl⟩

theorem plain_ack (j : Fin nT) (seg : Segment) {w : Stack nT nU} (h : Plain w) :
    Plain (setPush seg (ackOutstanding j seg w)) ∧
      (setPush seg (ackOutstanding j seg w)).flow i d = w.flow i d := by
  have hack : Plain (ackOutstanding j seg w) ∧ (ackOutstanding j seg w).flow i d = w.flow i d := by
    unfold ackOutstanding
    dsimp only
    split
    · refine ⟨⟨rfl, rfl, rfl⟩, flow_setTcp_same w j ackConn fun _ => ?_⟩
      unfold ackConn
      dsimp only
      split <;> exact ⟨rfl, rfl⟩
    · exact ⟨h, rfl⟩
  generalize ackOutstanding j seg w = w₁ at hack ⊢
  unfold setPush
  split
  · exact ⟨⟨hack.1.connected, hack.1.poll, hack.1.newdata⟩, hack.2⟩
  · exact hack

theorem goes_foundInput (hpause : cfg.acceptAfterPause = false) (j : Fin nT) (seg : Segment)
    (w : Stack nT nU) : Goes cfg.receiveWindow i (w.flow i d) (foundInput cfg j seg w) := by
  have hplain : Plain { w with uipFlags := Flags.none, uipLen := seg.len } := ⟨rfl, rfl, rfl⟩
  unfold foundInput
  dsimp only
  split
  · refine ⟨d, .trans (moves_kill j w) ?_⟩
    exact moves_appcall j (withFlags { Flags.none with abort := true }
      ({ w with uipFlags := Flags.none, uipLen := seg.len }.kill j)) fun _ => ⟨rfl, rfl, nofun⟩
  split
  · exact ⟨d, moves_tcpSend cfg j _ _ _⟩
  · obtain ⟨hplain', hflow⟩ := plain_ack (i := i) (d := d) j seg hplain
    show Goes cfg.receiveWindow i
        (Stack.flow { w with uipFlags := Flags.none, uipLen := seg.len } i d) _
    rw [← hflow]
    exact goes_stateInput hpause j seg _ hplain'

end Xtcp.Uip
