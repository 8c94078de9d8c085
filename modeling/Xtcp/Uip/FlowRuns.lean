import Xtcp.Uip.FlowPolls

namespace Xtcp.Uip
open Channel Listen Labelled

variable {nT nU : Nat} {d : Bool} {cfg : Config} {i : Fin nT}

theorem moves_listen {win : Nat} (j : Fin nT) (rcvNxt : BitVec 32) (w w₁ : Stack nT nU)
    (hstate : w.state j = .closed ∨ w.state j = .timeWait)
    (hself : j = i → w₁.flow i d = { (w.flow i d).setState .synRcvd with rcvNxt := rcvNxt })
    (hother : j ≠ i → w₁.flow i d = w.flow i d) : Moves win i (w.flow i d) (w₁.flow i d) := by
  by_cases hj : j = i
  · subst hj
    rw [hself rfl]
    exact .act (.listen _ rcvNxt hstate) rfl
  · exact .of_eq (hother hj).symm

theorem moves_foundListen (seg : Segment) (w : Stack nT nU) :
    Moves cfg.receiveWindow i (w.flow i d) ((foundListen cfg seg w).flow i d) := by
  unfold foundListen
  split
  · exact .refl
  next j hj =>
    dsimp only
    refine .trans ?_ (moves_tcpSend cfg j _ _ _)
    have hopen : (w.open (.tcp j) (.passive seg.destport)).flow i d = w.flow i d :=
      flow_note w _ rfl
    have hmss (w : Stack nT nU) : (setMss cfg j seg w).flow i d = w.flow i d := by
      unfold setMss
      split
      · rfl
      · exact flow_setTcp_same w j _ fun _ => ⟨rfl, rfl⟩
    refine moves_listen j (seg.seqno + 1) w _ (unusedTcp_state w hj) (fun h => ?_) fun h => ?_
    · subst h
      rw [hmss, flow_setTcp]
      exact congrArg (fun a => { a.setState .synRcvd with rcvNxt := seg.seqno + 1 }) hopen
    · rw [hmss]
      exact (flow_setTcp_same _ j _ fun hj => absurd hj h).trans hopen

-- The segment of an input when it is one for this connection.
def arrivedSegment (i : Fin nT) (w : Stack nT nU) : Input → List Segment
  | .segment seg =>
      if (List.finRange nT).find? (fun j => seg.matches (w.tcp j)) = some i then [seg] else []
  | _ => []

def Tells (win : Nat) (i : Fin nT) (a : Flow nT nU) (segs : List Segment) (w : Stack nT nU) :
    Prop := ∃ d, Tale win i a segs (w.flow i d)

theorem Goes.tells {win : Nat} {a : Flow nT nU} {w : Stack nT nU} (h : Goes win i a w) :
    Tells win i a [] w := h.imp fun _ hm => hm.tale

theorem tells_segment (hpause : cfg.acceptAfterPause = false) (seg : Segment) (w : Stack nT nU) :
    Tells cfg.receiveWindow i (w.flow i d) (arrivedSegment i w (.segment seg))
      (tcpInput cfg seg w) := by
  unfold tcpInput
  dsimp only [arrivedSegment]
  cases (List.finRange nT).find? fun j => seg.matches (w.tcp j) with
  | some j =>
    dsimp only
    by_cases hi : j = i
    · subst hi
      rw [if_pos rfl]
      obtain ⟨d', hm⟩ := goes_foundInput (i := j) (d := false) hpause j seg w
      exact ⟨d', .cons (.arrive (w.flow j d) seg) hm.tale⟩
    · rw [if_neg fun h => hi (Option.some.inj h)]
      exact (goes_foundInput hpause j seg w).tells
  | none =>
    rw [if_neg nofun]
    dsimp only
    split
    · exact ⟨d, (moves_reset seg w).tale⟩
    split
    · exact ⟨d, (moves_foundListen seg w).tale⟩
    · exact ⟨d, (moves_reset seg w).tale⟩

section Udp

variable {win : Nat}

theorem flow_flush (r : Option (Fin nU) × Stack nT nU) : (flush r).flow i d = r.2.flow i d := by
  obtain ⟨j, w⟩ := r
  cases j with
  | none => rfl
  | some j =>
    show (uipArpOut j w).flow i d = w.flow i d
    unfold uipArpOut
    dsimp only
    split
    · rw [flow_setUdp]
      exact flow_note w _ rfl
    · rw [flow_setUdp]
      exact flow_note w _ rfl

theorem flow_udpSend (j : Fin nU) (w : Stack nT nU) : (udpSend j w).2.flow i d = w.flow i d := by
  unfold udpSend
  split <;> rfl

theorem moves_udpCall (j : Fin nU) (flags : Flags) (w : Stack nT nU) :
    Moves win i (w.flow i d) ((udpCall cfg j flags w).2.flow i d) := by
  unfold udpCall
  rw [flow_udpSend]
  exact moves_appcall_other _ cfg { withFlags flags w with uipLen := 0, uipSlen := 0 } nofun

theorem moves_udpInput (dg : Datagram) (w : Stack nT nU) :
    Moves win i (w.flow i d) ((udpInput cfg dg w).2.flow i d) := by
  show Moves win i (Stack.flow
    { w with uipLen := dg.len, srcport := dg.srcport, srcipaddr := dg.srcipaddr } i d) _
  unfold udpInput
  generalize ({ w with uipLen := dg.len, srcport := dg.srcport, srcipaddr := dg.srcipaddr } :
    Stack nT nU) = w
  dsimp only
  split
  next j _ =>
    rw [flow_udpSend]
    exact moves_appcall_other _ cfg
      { withFlags { Flags.none with newdata := true } w with uipSlen := 0 } nofun
  split
  · split
    · exact .refl
    next j _ =>
      rw [flow_udpSend]
      refine .trans (.of_eq ?_) (moves_appcall_other (.udp j) cfg _ nofun)
      have hclear : (w.clear j).flow i d = w.flow i d := flow_note w _ rfl
      have hopen : ((w.clear j).open (.udp j) (.passive dg.destport)).flow i d =
          (w.clear j).flow i d := flow_note _ _ rfl
      exact (hopen.trans hclear).symm
  · exact .refl

theorem moves_udpPeriodic (j : Fin nU) (w : Stack nT nU) :
    Moves win i (w.flow i d) ((udpPeriodic cfg j w).2.flow i d) := by
  unfold udpPeriodic
  split
  · exact moves_udpCall j _ w
  · exact .refl

theorem moves_udpAckdata (j : Fin nU) (w : Stack nT nU) :
    Moves win i (w.flow i d) ((udpAckdata cfg j w).2.flow i d) := by
  unfold udpAckdata
  split
  · exact moves_udpCall j _ (w.setUdp j fun c => { c with udpSent := !c.udpSent })
  · exact .refl

theorem moves_udpArpEvent (j : Fin nU) (w : Stack nT nU) :
    Moves win i (w.flow i d) ((udpArpEvent cfg j w).2.flow i d) := by
  unfold udpArpEvent
  split
  · exact moves_udpCall j _ (w.setUdp j fun c => { c with udpPendingArp := !c.udpPendingArp })
  · exact .refl

end Udp

theorem tale_foldl {win : Nat} {J : Type} (f : Stack nT nU → J → Stack nT nU)
    (h : ∀ w j, Tale win i (w.flow i d) [] ((f w j).flow i d)) (js : List J) (w : Stack nT nU) :
    Tale win i (w.flow i d) [] ((js.foldl f w).flow i d) := by
  induction js generalizing w with
  | nil => exact Moves.tale .refl
  | cons j js ih => exact (h w j).trans (ih (f w j))

theorem tale_flush {win : Nat} {a : Flow nT nU} {r : Option (Fin nU) × Stack nT nU}
    (h : Moves win i a (r.2.flow i d)) : Tale win i a [] ((flush r).flow i d) := by
  rw [flow_flush]
  exact h.tale

theorem tells_perform (hpause : cfg.acceptAfterPause = false) (w : Stack nT nU) (input : Input) :
    Tells cfg.receiveWindow i
      (w.serving i d (match input with | .serviceClients cs => cs | _ => []))
      (arrivedSegment i w input) (perform cfg w input) := by
  cases input with
  | serviceClients cs => exact ⟨d, (moves_runCommands w cfg cs).tale⟩
  | checkConnectionPoll =>
    refine ⟨d, Tale.trans (tale_foldl _ (fun w j => tale_pollTcp d cfg i w j) _ w)
      (tale_foldl _ (fun w j => ?_) _ _)⟩
    unfold pollUdp
    split
    · exact tale_flush (moves_udpPeriodic j w)
    · exact Moves.tale .refl
  | segment seg => exact tells_segment hpause seg w
  | datagram dg => exact ⟨d, tale_flush (moves_udpInput dg w)⟩
  | arpPacket p =>
    exact ⟨d, tale_foldl _ (fun w j => tale_flush (moves_udpArpEvent j w)) _
      { w with arp := uipArpArpin w.arp p }⟩
  | otherPacket => exact ⟨d, Moves.tale .refl⟩
  | udpAcks =>
    refine ⟨d, tale_foldl _ (fun w j => ?_) _ w⟩
    unfold ackUdp
    split
    · exact tale_flush (moves_udpAckdata j w)
    · exact Moves.tale .refl
  | periodicTimer =>
    exact ⟨d, Tale.trans (tale_foldl _ (fun w j => tale_flush (moves_udpPeriodic j w)) _ w)
      (tale_foldl _ (fun w j => tale_periodic d cfg i w j) _ _)⟩
  | arpTimer => exact ⟨d, Moves.tale .refl⟩
  | configure hostaddr netmask draddr => exact ⟨d, Moves.tale .refl⟩

theorem tells_step (hpause : cfg.acceptAfterPause = false) (w : Stack nT nU) (input : Env × Input) :
    Tells cfg.receiveWindow i (w.flow i d) (arrivedSegment i w input.2) (step cfg w input) := by
  obtain ⟨env, input⟩ := input
  obtain ⟨d', h⟩ := tells_perform (i := i) (d := false) hpause { w with env := env } input
  exact ⟨d', .cons (.turn (w.flow i d) _) h⟩

def arrivedSegments (cfg : Config) (i : Fin nT) (w : Stack nT nU) :
    List (Env × Input) → List Segment
  | [] => []
  | input :: inputs =>
      arrivedSegment i w input.2 ++ arrivedSegments cfg i (step cfg w input) inputs

theorem tells_run (hpause : cfg.acceptAfterPause = false) (w : Stack nT nU)
    (inputs : List (Env × Input)) :
    Tells cfg.receiveWindow i (w.flow i d) (arrivedSegments cfg i w inputs) (run cfg w inputs) := by
  induction inputs generalizing w d with
  | nil => exact ⟨d, Moves.tale .refl⟩
  | cons input inputs ih =>
    obtain ⟨d', h⟩ := tells_step (i := i) (d := d) hpause w input
    obtain ⟨d'', h'⟩ := ih (d := d') (step cfg w input)
    exact ⟨d'', h.trans h'⟩

end Xtcp.Uip
