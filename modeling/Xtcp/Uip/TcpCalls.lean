import Xtcp.Uip.Deliver
import Xtcp.Uip.Guid

namespace Xtcp.Uip
open Channel Listen

variable {nT nU : Nat} {w w' : Stack nT nU} {slot : Slot nT nU}

theorem regs_event (cfg : Config) (event : XtcpEvent) (w : Stack nT nU) :
    (xtcpdEvent cfg event slot w).regs = w.regs := by
  unfold xtcpdEvent
  split
  · rfl
  · exact regs_untilReady _ cfg event _ w

theorem flags_event (slot : Slot nT nU) (cfg : Config) (event : XtcpEvent) (w : Stack nT nU) :
    (xtcpdEvent cfg event slot w).uipFlags = w.uipFlags := congrArg Prod.fst (regs_event cfg event w)

theorem flags_newdata (slot : Slot nT nU) (cfg : Config) (w : Stack nT nU) :
    (onNewdata cfg slot w).uipFlags = w.uipFlags := by
  unfold onNewdata
  split
  · rfl
  next ready _ =>
    have hrecv : (xtcpdRecv cfg slot ready w).uipFlags = w.uipFlags :=
      congrArg Prod.fst ((regs_recvRounds _ cfg _ _ _ _).trans
        (regs_untilReady _ cfg .recvData (some ready) w))
    dsimp only
    split
    · exact (congrArg Prod.fst (regs_uipStop _)).trans hrecv
    · exact hrecv

theorem flags_uipSend (len : Nat) (w : Stack nT nU) : (uipSend len w).uipFlags = w.uipFlags := by
  unfold uipSend
  split <;> rfl

theorem flags_doSend (cfg : Config) (event : XtcpEvent) (link mss : Nat) (w : Stack nT nU) :
    (doXtcpdSend cfg slot event link mss w).2.uipFlags = w.uipFlags :=
  congrArg Prod.fst (regs_untilReady _ cfg event (some link) w)

theorem flags_acked (slot : Slot nT nU) (cfg : Config) (w : Stack nT nU) :
    (onAcked cfg slot w).uipFlags = w.uipFlags := by
  unfold onAcked
  split
  · split
    · rfl
    · exact (flags_uipSend _ _).trans (flags_doSend cfg .sentData _ _ w)
  · rfl

theorem flags_rexmit (slot : Slot nT nU) (cfg : Config) (w : Stack nT nU) :
    (onRexmit cfg slot w).uipFlags = w.uipFlags := by
  unfold onRexmit
  split
  · split
    · rfl
    next ready _ =>
      exact (flags_uipSend _ _).trans
        (congrArg Prod.fst (regs_untilReady _ cfg .resendData (some ready) w))
  · rfl

theorem flags_push (slot : Slot nT nU) (cfg : Config) (w : Stack nT nU) :
    (onPush cfg slot w).uipFlags = w.uipFlags := by
  unfold onPush
  split
  · exact flags_event _ cfg .pushData w
  · rfl

variable {p : Option (Fin nT)}

theorem life_pollAck (slot : Slot nT nU) (w : Stack nT nU) :
    (pollAck slot w).life p = w.life p := by
  unfold pollAck
  split
  · exact life_setS_same w p slot (fun s => { s with ackRequest := false }) rfl rfl
  · rfl

theorem flags_pollAck (slot : Slot nT nU) (w : Stack nT nU) :
    (pollAck slot w).uipFlags = { w.uipFlags with newdata := (pollAck slot w).uipFlags.newdata } := by
  unfold pollAck
  split <;> rfl

theorem slen_pollAck (slot : Slot nT nU) (w : Stack nT nU) :
    (pollAck slot w).uipSlen ≤ w.uipSlen := by
  unfold pollAck
  split
  · exact Nat.zero_le _
  · exact le_rfl

theorem delivered_pollSend (cfg : Config) (ho : (w.life p).IsOpen slot) :
    Delivered slot p (w.life p) w (pollSend cfg slot w) := by
  unfold pollSend
  cases hl : (w.app slot).linknum with
  | none =>
    exact Delivered.same .refl (life_setS_same w p slot _ rfl rfl) (Or.inl le_rfl)
  | some link =>
    have hs := sends_uipSend (sends_doSend (p := p) cfg .requestData (sendMss cfg w slot) hl) hl
      (doXtcpdSend cfg slot .requestData link (sendMss cfg w slot) w).1
    exact (hs.delivered (.data _ _ slot .requestData ho (isData_request slot) hs.delivers)).same
      (life_setS_same _ p slot _ rfl rfl) (Or.inl le_rfl)

theorem delivered_pollTimer (cfg : Config) (ho : (w.life p).IsOpen slot) :
    Delivered slot p (w.life p) w (pollTimer cfg slot w) := by
  unfold pollTimer
  split
  · exact .refl
  · dsimp only
    split
    · have hd := delivered_data (w := (timerExpired w).2) cfg ho (isData_poll slot)
      exact ⟨hd.acts, hd.kept, hd.slen⟩
    · exact Delivered.same .refl rfl (Or.inl le_rfl)

theorem flags_pollSend (cfg : Config) (w : Stack nT nU) :
    (pollSend cfg slot w).uipFlags = w.uipFlags := by
  unfold pollSend
  split
  · rfl
  · exact (flags_uipSend _ _).trans (flags_doSend cfg .requestData _ _ w)

theorem flags_pollTimer (cfg : Config) (w : Stack nT nU) :
    (pollTimer cfg slot w).uipFlags = w.uipFlags := by
  unfold pollTimer
  split
  · rfl
  · dsimp only
    split
    · exact flags_event _ cfg .poll _
    · rfl

def Flags.single (f : Flags) : Prop := f.abort = true → f.close = false

theorem poll_tcp (cfg : Config) (i : Fin nT) (ho : (w.life p).IsOpen (.tcp i))
    (hflags : w.uipFlags.single) :
    Delivered (.tcp i) p (w.life p) w (uipXtcpdHandlePoll cfg (.tcp i) w) ∧
      (uipXtcpdHandlePoll cfg (.tcp i) w).uipFlags.single := by
  have hlife := life_pollAck (p := p) (.tcp i) w
  have hack : Delivered (.tcp i) p (w.life p) w (pollAck (.tcp i) w) :=
    Delivered.same .refl hlife (Or.inl (slen_pollAck _ w))
  have hf : (pollAck (.tcp i) w).uipFlags.single := by
    rw [flags_pollAck]
    exact hflags
  have ho' : ((pollAck (.tcp i) w).life p).IsOpen (.tcp i) := hlife.symm ▸ ho
  unfold uipXtcpdHandlePoll
  dsimp only
  generalize pollAck (.tcp i) w = w₁ at hack hf ho' ⊢
  split
  · exact ⟨hack.same (life_setS_same _ p _ _ rfl rfl) (Or.inl le_rfl), fun _ => rfl⟩
  split
  · exact ⟨hack.same (life_setS_same _ p _ _ rfl rfl) (Or.inl le_rfl), fun h => nomatch h⟩
  split
  · exact ⟨hack, hf⟩
  split
  · refine ⟨hack.trans (delivered_pollSend cfg ho'), ?_⟩
    rw [flags_pollSend]
    exact hf
  · refine ⟨hack.trans (delivered_pollTimer cfg ho'), ?_⟩
    rw [flags_pollTimer]
    exact hf

structure Handled (i : Fin nT) (a : Life nT nU) (w' : Stack nT nU) (p : Option (Fin nT)) :
    Prop where
  acts : a.Acts (w'.life p)
  established : w'.state i = .established
  closing : p = none ∨ p = some i
  closed : w'.uipFlags.close = true → (w'.app (.tcp i)).s.closed = true
  running : w'.uipFlags.close = false → p = none
  single : w'.uipFlags.single

theorem life_setClosed (w : Stack nT nU) :
    (w.setS slot fun s => { s with closed := true }).life p = (w.life p).setClosed slot := by
  rw [Stack.setS, life_setApp]
  exact Life.ext rfl rfl rfl rfl (Function.update_eq_self _ _) (Function.update_eq_self _ _)
    (Function.update_eq_self _ _) (Function.update_eq_self _ _) rfl rfl rfl rfl rfl rfl rfl rfl

theorem handled_closed (cfg : Config) (i : Fin nT) (ho : (w.life none).IsOpen (.tcp i))
    (hflags : w.uipFlags.single) :
    ∃ p, Handled i (w.life none) (onClosed cfg (.tcp i) w) p := by
  unfold onClosed
  by_cases hclose : w.uipFlags.close = true
  · cases hclosed : (w.app (.tcp i)).s.closed with
    | true =>
      rw [hclose]
      refine ⟨none, .refl, ho.1, Or.inl rfl, fun _ => hclosed, fun _ => rfl, hflags⟩
    | false =>
      simp only [hclose, Bool.not_false, Bool.and_self, if_true]
      have hd := (sends_event (p := some i) (.tcp i) cfg .closed
        (w.setS (.tcp i) fun s => { s with closed := true })).delivers
      have hkept := Life.kept_delivers (.tcp i) hd
      rw [life_setClosed] at hd
      have hf := flags_event (.tcp i) cfg .closed
        (w.setS (.tcp i) fun s => { s with closed := true })
      refine ⟨some i, .single (.close (w.life none) _ i ho.1 rfl hclosed hd),
        hkept.established i rfl ho.1, Or.inr rfl, ?_, ?_, ?_⟩
      · intro _
        exact hkept.closed.trans (by simp [Stack.life, Stack.setS, Stack.setApp])
      · intro h
        rw [hf] at h
        exact absurd hclose (by rw [show w.uipFlags.close = false from h]; exact Bool.false_ne_true)
      · rw [hf]
        exact hflags
  · rw [Bool.not_eq_true] at hclose
    simp only [hclose, Bool.false_and, Bool.false_eq_true, if_false]
    refine ⟨none, .refl, ho.1, Or.inl rfl, fun h => ?_, fun _ => rfl, hflags⟩
    rw [hclose] at h
    cases h

theorem handled_rest (cfg : Config) (i : Fin nT) (ho : (w.life none).IsOpen (.tcp i))
    (hflags : w.uipFlags.single) :
    ∃ p, Handled i (w.life none) (appcallRest cfg (.tcp i) w) p := by
  have hacked := delivered_acked cfg ho rfl
  have hf₁ := flags_acked (.tcp i) cfg w
  unfold appcallRest
  generalize onAcked cfg (.tcp i) w = w₁ at hacked hf₁ ⊢
  have ho₁ := hacked.kept.isOpen ho
  have hrexmit := delivered_rexmit cfg ho₁ rfl
  have hf₂ := flags_rexmit (.tcp i) cfg w₁
  generalize onRexmit cfg (.tcp i) w₁ = w₂ at hrexmit hf₂ ⊢
  have ho₂ := hrexmit.kept.isOpen ho₁
  have hs₂ : w₂.uipFlags.single := by
    rw [hf₂, hf₁]
    exact hflags
  have hpoll : Delivered (.tcp i) none (w₂.life none) w₂ (onPoll cfg (.tcp i) w₂) ∧
      (onPoll cfg (.tcp i) w₂).uipFlags.single := by
    unfold onPoll
    split
    · exact poll_tcp cfg i ho₂ hs₂
    · exact ⟨.refl, hs₂⟩
  obtain ⟨hpoll, hs₃⟩ := hpoll
  generalize onPoll cfg (.tcp i) w₂ = w₃ at hpoll hs₃ ⊢
  have ho₃ := hpoll.kept.isOpen ho₂
  have hpush : Delivered (.tcp i) none (w₃.life none) w₃ (onPush cfg (.tcp i) w₃) := by
    unfold onPush
    split
    · exact delivered_data cfg ho₃ rfl
    · exact .refl
  have hf₄ := flags_push (.tcp i) cfg w₃
  generalize onPush cfg (.tcp i) w₃ = w₄ at hpush hf₄ ⊢
  obtain ⟨p, hc⟩ := handled_closed cfg i (hpush.kept.isOpen ho₃) (hf₄ ▸ hs₃)
  have hacts := ((hacked.trans hrexmit).trans hpoll).trans hpush
  exact ⟨p, { hc with acts := hacts.acts.trans hc.acts }⟩

theorem handled_data (cfg : Config) (i : Fin nT) (ho : (w.life none).IsOpen (.tcp i))
    (habort : w.uipFlags.abort = false) (htimedout : w.uipFlags.timedout = false) :
    ∃ p, Handled i (w.life none) (appcallData cfg (.tcp i) w) p := by
  have hs : w.uipFlags.single := by
    intro h
    rw [habort] at h
    cases h
  unfold appcallData
  split
  · have hd := delivered_newdata (p := none) cfg ho
    have hf := flags_newdata (.tcp i) cfg w
    obtain ⟨p, hc⟩ := handled_rest cfg i (hd.kept.isOpen ho) (hf ▸ hs)
    exact ⟨p, { hc with acts := hd.acts.trans hc.acts }⟩
  · rw [habort, htimedout]
    exact handled_rest cfg i ho hs

theorem flags_closed (cfg : Config) (w : Stack nT nU) :
    (onClosed cfg slot w).uipFlags = w.uipFlags := by
  unfold onClosed
  split
  · exact flags_event _ cfg .closed _
  · rfl

theorem flags_rest (cfg : Config) (w : Stack nT nU) (hpoll : w.uipFlags.poll = false) :
    (appcallRest cfg slot w).uipFlags = w.uipFlags := by
  have h : (onRexmit cfg slot (onAcked cfg slot w)).uipFlags = w.uipFlags :=
    (flags_rexmit _ cfg _).trans (flags_acked _ cfg w)
  unfold appcallRest
  rw [flags_closed, flags_push, onPoll, h, hpoll]
  exact h

theorem flags_appcallData (slot : Slot nT nU) (cfg : Config) (w : Stack nT nU)
    (hpoll : w.uipFlags.poll = false) :
    (appcallData cfg slot w).uipFlags = w.uipFlags := by
  unfold appcallData
  split
  · have h := flags_newdata slot cfg w
    exact (flags_rest cfg _ (h ▸ hpoll)).trans h
  split
  · exact flags_event _ cfg .aborted w
  split
  · exact flags_event _ cfg .timedOut w
  · exact flags_rest cfg w hpoll

theorem appcall_tcp (cfg : Config) (i : Fin nT) (w : Stack nT nU) :
    xtcpdAppcall cfg (.tcp i) w = appcallData cfg (.tcp i) (onConnected cfg (.tcp i) w) := rfl

theorem appcall_connected (cfg : Config) (i : Fin nT) (w : Stack nT nU)
    (h : w.uipFlags.connected = false) :
    xtcpdAppcall cfg (.tcp i) w = appcallData cfg (.tcp i) w := by
  rw [appcall_tcp, onConnected, h]
  rfl

theorem appcall_rest (cfg : Config) (i : Fin nT) (w : Stack nT nU)
    (h : w.uipFlags = { Flags.none with close := true }) :
    xtcpdAppcall cfg (.tcp i) w = onClosed cfg (.tcp i) w := by
  rw [appcall_connected cfg i w (by rw [h]; rfl)]
  simp [appcallData, appcallRest, onAcked, onRexmit, onPoll, onPush, h, Flags.none]

theorem appcall_aborted (cfg : Config) (i : Fin nT) (w : Stack nT nU)
    (h : w.uipFlags = { Flags.none with abort := true }) :
    xtcpdAppcall cfg (.tcp i) w = xtcpdEvent cfg .aborted (.tcp i) w := by
  rw [appcall_connected cfg i w (by rw [h]; rfl)]
  simp [appcallData, h, Flags.none]

theorem appcall_timedout (cfg : Config) (i : Fin nT) (w : Stack nT nU)
    (h : w.uipFlags = { Flags.none with timedout := true }) :
    xtcpdAppcall cfg (.tcp i) w = xtcpdEvent cfg .timedOut (.tcp i) w := by
  rw [appcall_connected cfg i w (by rw [h]; rfl)]
  simp [appcallData, h, Flags.none]

theorem regs_initState (w : Stack nT nU) (slot : Slot nT nU) :
    (xtcpdInitState w slot).regs = w.regs := by
  unfold xtcpdInitState
  dsimp only
  split <;> rfl

theorem handled_connected (hconns : nT + nU ≤ maxGuid) (cfg : Config) (i : Fin nT)
    {a : Life nT nU} (hstate : a.state i = .synRcvd ∨ a.state i = .synSent)
    (hclosing : a.closing = none) (hlife : w.life none = a.setState i .established)
    (hconnected : w.uipFlags.connected = true) (habort : w.uipFlags.abort = false)
    (htimedout : w.uipFlags.timedout = false) :
    ∃ p, Handled i a (xtcpdAppcall cfg (.tcp i) w) p := by
  obtain ⟨guid, hguid, hinit⟩ := life_initState hconns w (.tcp i) none
  rw [hlife] at hguid
  have hs := (sends_event (p := none) (.tcp i) cfg .newConnection
    (xtcpdInitState w (.tcp i))).delivers
  have hkept := Life.kept_delivers (.tcp i) hs
  rw [hinit, hlife] at hs hkept
  have hact : a.Acts ((xtcpdEvent cfg .newConnection (.tcp i)
      (xtcpdInitState w (.tcp i))).life none) :=
    .single (.establish a _ i guid hstate hclosing hguid hs)
  have ho : ((a.setState i .established).issue (.tcp i) guid).IsOpen (.tcp i) :=
    ⟨Function.update_self _ _ _, hclosing⟩
  have hf : (xtcpdEvent cfg .newConnection (.tcp i) (xtcpdInitState w (.tcp i))).uipFlags =
      w.uipFlags :=
        (flags_event _ cfg .newConnection _).trans (congrArg Prod.fst (regs_initState w (.tcp i)))
  rw [appcall_tcp, onConnected, if_pos hconnected]
  obtain ⟨p, h⟩ := handled_data cfg i (hkept.isOpen ho) (hf ▸ habort) (hf ▸ htimedout)
  exact ⟨p, { h with acts := hact.trans h.acts }⟩

theorem acts_killed (cfg : Config) (i : Fin nT) {a : Life nT nU} {event : XtcpEvent}
    {st : TcpState} (hclosing : a.closing = none) (hevent : event = .aborted ∨ event = .timedOut)
    (hst : st = .closed ∨ a.state i = .synSent ∧ st = .synSent)
    (hlife : w.life none = (a.note (.killed (.tcp i) (a.state i))).setState i st) :
    a.Acts ((xtcpdEvent cfg event (.tcp i) w).life none) := by
  have hs := (sends_event (p := none) (.tcp i) cfg event w).delivers
  rw [hlife] at hs
  exact .single (.kill a _ i event st hclosing hevent hst hs)

theorem acts_lateClose (st : TcpState) (cfg : Config) (i : Fin nT) {a : Life nT nU}
    (hfin : isFin (a.state i) = true) (hst : isFin st = true ∨ st = .timeWait ∨ st = .closed)
    (hclosing : a.closing = none) (hlife : w.life none = a.setState i st)
    (hflags : w.uipFlags = { Flags.none with close := true }) :
    a.Acts ((xtcpdAppcall cfg (.tcp i) w).life none) := by
  have hclosed : (w.app (.tcp i)).s.closed = a.closed (.tcp i) :=
    congrFun (congrArg Life.closed hlife) (.tcp i)
  have hclose : w.uipFlags.close = true := by rw [hflags]
  rw [appcall_rest cfg i w hflags, onClosed, hclose, hclosed]
  cases hc : a.closed (.tcp i) with
  | true =>
    simp only [Bool.not_true, Bool.and_false, Bool.false_eq_true, if_false]
    rw [hlife]
    refine .single (.down a i st hclosing ?_)
    rcases hst with h | h | h
    · exact Or.inr ⟨hfin, Or.inl h⟩
    · exact Or.inr ⟨hfin, Or.inr h⟩
    · exact Or.inl h
  | false =>
    simp only [Bool.not_false, Bool.and_self, if_true]
    have hs := (sends_event (p := none) (.tcp i) cfg .closed
      (w.setS (.tcp i) fun s => { s with closed := true })).delivers
    rw [life_setClosed, hlife] at hs
    exact .single (.lateClose a _ i st hfin hst hclosing hc hs)

end Xtcp.Uip
