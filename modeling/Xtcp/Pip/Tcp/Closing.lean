import Xtcp.Pip.Tcp.Parting

namespace Xtcp.Pip.Tcp
open Xtcp.Segment Serial

variable {cfg : Config} {env : Env} {c c' c₂ : TcpConnection} {seg : Segment} {fin : Word} {L : Int}

structure ClosingHandshake (cfg : Config) (a : Act) (c c' : TcpConnection) : Prop where
  fin : ∀ seg, a = .segment seg →
    c.state = .estab ∨ c.state = .finwait1 ∨ c.state = .finwait2 → finInSequence cfg seg c →
      c'.rcvNXT = c.rcvNXT + BitVec.ofInt 32 seg.length + 1 ∧
        ∃ y, .sent y ∈ fresh c c' ∧ y.flags.ack = true ∧ y.ack = c'.rcvNXT
  timewait : c'.state = .timewait → (farewell c'.log).acked = true
  closed : c.state = .lastack → c'.state = .closed →
    (∃ seg, a = .segment seg ∧ seg.seq = c.rcvNXT ∧ (seg.flags.rst = true ∨
      seg.flags.ack = true ∧ ∃ fin, (farewell c.log).fin = some fin ∧ after seg.ack fin = true)) ∨
    a = .timeOut ∧ fires c ∧ tcpMaxTimeout.sle (c.timeouts + 1) = true

def PartsInOrder (cfg : Config) (_ : Env) : Act → TcpConnection → Prop
  | .request _ .close, c => closesEvenly cfg c
  | .segment seg, c =>
      (c.state = .estab ∨ c.state = .finwait2 → finInSequence cfg seg c →
        outside c.sndUNA c.sndNXT seg.ack = false) ∧
      (c.state = .finwait1 → ¬ finInSequence cfg seg c) ∧
      (c.state = .lastack → seg.seq = c.rcvNXT → seg.flags.rst = false → seg.flags.syn = false)
  | _, _ => True

instance (env : Env) (a : Act) : Decidable (PartsInOrder cfg env a c) :=
  match a with
  | .request _ .close => inferInstanceAs (Decidable (closesEvenly cfg c))
  | .segment _ => @instDecidableAnd _ _ inferInstance inferInstance
  | .request _ .accept | .request _ (.connect _ _ _) | .request _ .read | .request _ .write
  | .timeOut | .prepare => isTrue trivial

theorem Parting.act {a : Act} (h : Parting cfg c) (hok : PartsInOrder cfg env a c)
    (hact : Tcp.act cfg env a c = some c') : Parting cfg c' := by
  cases a with
  | request app r =>
    have hnote : Parting cfg (c.note (.requested app)) := h.same (by simp [midway]) rfl rfl rfl rfl id
    cases r with
    | accept =>
      obtain rfl := Option.some.inj hact
      exact .of_not (by simp [doAccept, initConnection, departs])
    | connect =>
      obtain rfl := Option.some.inj hact
      exact .of_not (by simp [doConnect, initConnection, departs])
    | close => exact Option.some.inj hact ▸ hnote.doClose hok
    | read => exact hnote.doRead hact
    | write => exact hnote.doWrite hact
  | segment seg =>
    have hclaim : Parting cfg (claim seg c) ∧
        ((claim seg c).state = .finwait1 → ¬ finInSequence cfg seg (claim seg c)) := by
      obtain ⟨_, _, _, hsame⟩ := claim_same seg c
      rw [hsame]
      exact ⟨h.same (by simp) rfl rfl rfl rfl id, hok.2.1⟩
    exact hclaim.1.incoming hclaim.2 hact
  | timeOut => exact h.ticked (timeOut_cases hact)
  | prepare => exact h.loadOutgoingData hact

section Fin

theorem incomingFIN_accepted (hst : c.state = .estab ∨ c.state = .finwait2) :
    (incomingFIN c).rcvNXT = c.rcvNXT + 1 ∧
      ∃ y, c.log ++ [.sent y] <+: (incomingFIN c).log ∧ y.flags.ack = true ∧
        y.ack = c.rcvNXT + 1 := by
  unfold incomingFIN
  rcases hst with hst | hst
  all_goals
    rw [hst]
    dsimp only
    split
    all_goals exact ⟨rfl, header [] { ack := true } { c with rcvNXT := c.rcvNXT + 1 },
      by simp [header], rfl, rfl⟩

theorem Acked.takes (ha : Acked cfg env seg c c') (hst : c.state = .estab ∨ c.state = .finwait2)
    (ho : outside c.sndUNA c.sndNXT seg.ack = false)
    (hfin : seg.flags.fin = true ∧ stores cfg seg c) :
    c'.rcvNXT = c.rcvNXT + BitVec.ofInt 32 seg.length + 1 ∧
      ∃ y, .sent y ∈ fresh c c' ∧ y.flags.ack = true ∧ y.ack = c'.rcvNXT := by
  obtain ⟨hbelow, habove⟩ := Bool.or_eq_false_iff.mp ho
  cases ha with
  | lastAck hlast => simp [hlast] at hst
  | duplicate _ ha => simp [hbelow] at ha
  | beyond _ _ hb => simp [habove] at hb
  | finwait2 _ htake hst₂ =>
    rw [(takeAck_aside htake).state] at hst₂
    simp [hst₂] at hst
  | timewait _ htake hst₂ =>
    rw [(takeAck_aside htake).state] at hst₂
    simp [hst₂] at hst
  | @data c₂ c₃ b _ htake _ _ hdata =>
    have htook := takeAck_aside htake
    have hrx : c₂.rx = c.rx := congrArg (·.1) htook.receiving
    obtain ⟨htaken, hnxt⟩ := incomingData_fin hdata
    have hb : b = true := htaken.mpr (by simpa only [stores, hrx] using hfin)
    have hst₃ : c₃.state = .estab ∨ c₃.state = .finwait2 := by
      rwa [incomingData_state hdata, htook.state]
    obtain ⟨hone, y, hlog, hack, hy⟩ := incomingFIN_accepted hst₃
    have hdone := hnxt hb
    rw [htook.rcvNXT] at hdone
    rw [if_pos hb, hone, hdone]
    refine ⟨rfl, y, mem_fresh ?_ hlog, hack, hdone ▸ hy⟩
    exact (htook.tacit.trans (incomingData_tacit hdata)).isPrefix

theorem fin_acknowledged (hst : c.state = .estab ∨ c.state = .finwait2)
    (ho : outside c.sndUNA c.sndNXT seg.ack = false) (hfin : finInSequence cfg seg c)
    (hi : incoming cfg env seg c = some c') :
    c'.rcvNXT = c.rcvNXT + BitVec.ofInt 32 seg.length + 1 ∧
      ∃ y, .sent y ∈ fresh c c' ∧ y.flags.ack = true ∧ y.ack = c'.rcvNXT := by
  obtain ⟨⟨hseq, hrst, hsyn, hack⟩, hfin⟩ := hfin
  cases incoming_cases hi with
  | closed hst' | listen hst' | synsent hst' => simp [hst'] at hst
  | timewait hst' => rcases hst' with hst' | hst' <;> simp [hst'] at hst
  | synchronized _ hs =>
    cases hs with
    | outOfOrder hne => exact absurd hseq hne
    | reset _ hr => simp [hrst] at hr
    | restart _ _ hs => simp [hsyn] at hs
    | silent _ _ _ ha => simp [hack] at ha
    | refused _ hst' | opened _ hst' => simp [hst'] at hst
    | acked _ _ ha => exact ha.takes (by exact hst) ho hfin

end Fin

section LastAck

theorem Behind.beyond (h : Behind fin L c) (hack : c.sndNXT + 1 = seg.ack) :
    after seg.ack fin = true := by
  obtain ⟨h0, hle, hL⟩ := h.length
  have hnxt := h.nxt_sub
  rw [after_iff, ← hack]
  have hsplit : c.sndNXT + 1 - fin = c.sndNXT - fin + 1 := by grind
  rw [hsplit, BitVec.toNat_add, hnxt]
  simp
  omega

theorem Parting.closed_incoming (h : Parting cfg c) (hst : c.state = .lastack)
    (hok : seg.seq = c.rcvNXT → seg.flags.rst = false → seg.flags.syn = false)
    (hi : Tcp.incoming cfg env seg c = some c') (hst' : c'.state = .closed) :
    seg.seq = c.rcvNXT ∧ (seg.flags.rst = true ∨
      seg.flags.ack = true ∧ ∃ fin, (farewell c.log).fin = some fin ∧ after seg.ack fin = true) := by
  cases incoming_cases hi with
  | closed hs | listen hs | synsent hs => simp [hst] at hs
  | timewait hs => simp [hst] at hs
  | synchronized _ hs =>
    cases hs with
    | outOfOrder => simp [hst] at hst'
    | reset hseq hr => exact ⟨hseq, Or.inl hr⟩
    | restart hseq hr hsyn => simp [hok hseq hr] at hsyn
    | silent => simp [hst] at hst'
    | refused _ hs | opened _ hs => simp [hst] at hs
    | acked hin _ ha =>
      refine ⟨hin.seq, Or.inr ⟨hin.ack, ?_⟩⟩
      obtain ⟨fin, L, hfin, hb⟩ := h.lastack hst
      cases ha with
      | lastAck =>
        by_cases hack : c.sndNXT + 1 = seg.ack
        · exact ⟨fin, hfin, hb.beyond hack⟩
        · rw [incomingLastAck, if_neg (by exact hack)] at hst'
          exact absurd (hst.symm.trans hst') (by decide)
      | duplicate hne | beyond hne => exact absurd hst hne
      | finwait2 hw | timewait hw | data hw => exact absurd hst hw.state

theorem lapse_state (hmax : tcpMaxTimeout.sle (c.timeouts + 1) = false) :
    (lapse c).state = c.state := by
  rw [lapse, hmax]
  rfl

theorem closed_ticked (hst : c.state = .lastack) (ht : Ticked cfg env c c')
    (hst' : c'.state = .closed) : fires c ∧ tcpMaxTimeout.sle (c.timeouts + 1) = true := by
  cases ht with
  | stopped | counted => simp [hst] at hst'
  | again hf _ hload =>
    refine ⟨hf, Bool.of_not_eq_false fun hmax => ?_⟩
    have hstate := (loadOutgoingData_aside hload).state.trans ((lapse_state hmax).trans hst)
    simp [hstate] at hst'
  | rest hf _ =>
    refine ⟨hf, Bool.of_not_eq_false fun hmax => ?_⟩
    have hstate := (lapse_state hmax).trans hst
    unfold resend at hst'
    rw [hstate] at hst'
    dsimp only at hst'
    split at hst' <;> simp [hstate] at hst'

theorem closed_request {app : Chanend} {r : Request} (hst : c.state = .lastack)
    (hr : pipApplicationTCP cfg env app r c = some c') : c'.state ≠ .closed := by
  cases r with
  | accept =>
    obtain rfl := Option.some.inj hr
    simp [doAccept, initConnection]
  | connect =>
    obtain rfl := Option.some.inj hr
    simp [doConnect, initConnection]
  | close =>
    obtain rfl := Option.some.inj hr
    simp [doClose, hst]
  | read =>
    simp only [pipApplicationTCP, doRead, TcpConnection.note, hst] at hr
    obtain rfl := Option.some.inj hr
    simp
  | write =>
    simp only [pipApplicationTCP, doWrite, TcpConnection.note, hst] at hr
    obtain rfl := Option.some.inj hr
    simp

end LastAck

theorem Parting.handshake_incoming (h : Parting cfg c) (hok : PartsInOrder cfg env (.segment seg) c)
    (hi : Tcp.incoming cfg env seg c = some c') : ClosingHandshake cfg (.segment seg) c c' := by
  obtain ⟨hwindow, hsimultaneous, hsyn⟩ := hok
  refine ⟨fun seg' ha hst hfin => ?_, fun hst => ?_, fun hst hst' => ?_⟩
  · obtain rfl := Act.segment.inj ha
    rcases hst with hst | hst | hst
    · exact fin_acknowledged (Or.inl hst) (hwindow (Or.inl hst) hfin) hfin hi
    · exact absurd hfin (hsimultaneous hst)
    · exact fin_acknowledged (Or.inr hst) (hwindow (Or.inr hst) hfin) hfin hi
  · exact (h.incoming hsimultaneous hi).acked (Or.inr (Or.inl hst))
  · exact Or.inl ⟨seg, rfl, h.closed_incoming hst (hsyn hst) hi hst'⟩

theorem Parting.handshake {a : Act} (h : Parting cfg c) (hok : PartsInOrder cfg env a c)
    (hact : Tcp.act cfg env a c = some c') : ClosingHandshake cfg a c c' := by
  have htimewait (hst : c'.state = .timewait) : (farewell c'.log).acked = true :=
    (h.act hok hact).acked (Or.inr (Or.inl hst))
  cases a with
  | request =>
    exact ⟨nofun, htimewait, fun hst hst' => absurd hst' (closed_request hst hact)⟩
  | segment seg =>
    obtain ⟨_, _, _, hsame⟩ := claim_same seg c
    have hclaim : Parting cfg (claim seg c) ∧ PartsInOrder cfg env (.segment seg) (claim seg c) := by
      rw [hsame]
      exact ⟨h.same (by simp) rfl rfl rfl rfl id, hok⟩
    have hshake := hclaim.1.handshake_incoming hclaim.2 hact
    rw [hsame] at hshake
    exact ⟨hshake.fin, hshake.timewait, hshake.closed⟩
  | timeOut =>
    exact ⟨nofun, htimewait, fun hst hst' =>
      Or.inr ⟨rfl, closed_ticked hst (timeOut_cases hact) hst'⟩⟩
  | prepare =>
    refine ⟨nofun, htimewait, fun hst hst' => ?_⟩
    simp [(loadOutgoingData_aside hact).state, hst] at hst'

section Runs

variable {n : Nat} {s s' : Stack n}

theorem Run.parting (h : Run cfg (Each (PartsInOrder cfg)) s) (i : Fin n) :
    Parting cfg (s.conns i) :=
  h.invariant parting_zero (fun _ _ _ _ hc hok _ hs => hc.act hok hs) i

theorem closing_handshake (h : Run cfg (Each (PartsInOrder cfg)) s) {e : Event n}
    (hok : Each (PartsInOrder cfg) s e) (hs : step cfg s e = some s') {i : Fin n} {a : Act}
    (hc : concerns s e i = some (env, a)) :
    ClosingHandshake cfg a (s.conns i) (s'.conns i) := by
  have hact := step_evolves hs i
  rw [hc] at hact
  exact (h.parting i).handshake (hok i env a hc) hact

-- The close, the acknowledgement of our FIN, the FIN of the peer.
theorem closing_handshake_of_close : ∃ s s' : Stack 1,
    Run small (Each (PartsInOrder small)) s ∧ (s.conns 0).state = .finwait2 ∧
      (s'.conns 0).state = .timewait ∧
      ClosingHandshake small (.segment (packet 1001 102 { ack := true, fin := true } []))
        (s.conns 0) (s'.conns 0) := by
  obtain ⟨s, hrun, hfound, hst, hok, hs⟩ := exists_run small (C := PartsInOrder small)
    (P := fun s : Stack 1 =>
      ((List.finRange 1).find? fun j =>
        found (packet 1001 102 { ack := true, fin := true } []) (s.conns j)) = some 0 ∧
      (s.conns 0).state = .finwait2 ∧
      Each (PartsInOrder small) s
        (.segment (during 100 0) (packet 1001 102 { ack := true, fin := true } [])) ∧
      ((step small s (.segment (during 100 0)
        (packet 1001 102 { ack := true, fin := true } []))).any fun s' =>
          (s'.conns 0).state == .timewait) = true)
    [.request (during 100 0) 5 0 .accept,
      .segment (during 100 0) (packet 1000 0 { syn := true } []),
      .segment (during 100 0) (packet 1001 101 { ack := true } []),
      .request (during 100 0) 5 0 .close,
      .segment (during 100 0) (packet 1001 102 { ack := true } [])] (by decide)
  obtain ⟨s', hs, hst'⟩ := (Option.any_eq_true _ _).mp hs
  have hc : concerns s (.segment (during 100 0)
      (packet 1001 102 { ack := true, fin := true } [])) 0 =
        some (during 100 0, .segment (packet 1001 102 { ack := true, fin := true } [])) := by
    simp only [concerns, hfound, if_true]
  exact ⟨s, s', hrun, hst, by simpa using hst', closing_handshake hrun hok hs hc⟩

-- Both sides close: the FIN of the peer is neither counted nor acknowledged. A close in SYNRCVD:
-- the acknowledgement of our SYN passes for one of our FIN.
theorem fin_ignored_and_timewait_unacknowledged :
    (∃ s s' : Stack 1, Run small (Each fun _ _ _ => True) s ∧
      step small s (.segment (during 100 0) (packet 1001 101 { ack := true, fin := true } [])) =
        some s' ∧ (s'.conns 0).state = .closing ∧
      ¬ ClosingHandshake small (.segment (packet 1001 101 { ack := true, fin := true } []))
        (s.conns 0) (s'.conns 0)) ∧
    ∃ s s' : Stack 1, Run small (Each fun _ _ _ => True) s ∧
      step small s (.segment (during 100 0) (packet 1001 101 { ack := true, fin := true } [])) =
        some s' ∧ (s'.conns 0).state = .timewait ∧
      ¬ ClosingHandshake small (.segment (packet 1001 101 { ack := true, fin := true } []))
        (s.conns 0) (s'.conns 0) := by
  obtain ⟨s, hrun, hst, hfin, hs⟩ := exists_run small (C := fun _ _ _ => True)
    (P := fun s : Stack 1 => (s.conns 0).state = .finwait1 ∧
      finInSequence small (packet 1001 101 { ack := true, fin := true } []) (s.conns 0) ∧
      ((step small s (.segment (during 100 0)
        (packet 1001 101 { ack := true, fin := true } []))).any fun s' =>
          (s'.conns 0).state == .closing && (s'.conns 0).rcvNXT == 1001 &&
            (s.conns 0).rcvNXT == 1001) = true)
    [.request (during 100 0) 5 0 .accept,
      .segment (during 100 0) (packet 1000 0 { syn := true } []),
      .segment (during 100 0) (packet 1001 101 { ack := true } []),
      .request (during 100 0) 5 0 .close] (by decide)
  obtain ⟨s', hs, hclosing⟩ := (Option.any_eq_true _ _).mp hs
  obtain ⟨t, htrun, ht⟩ := exists_run small (C := fun _ _ _ => True)
    (P := fun s : Stack 1 => ((step small s (.segment (during 100 0)
      (packet 1001 101 { ack := true, fin := true } []))).any fun s' =>
        (s'.conns 0).state == .timewait && !(farewell (s'.conns 0).log).acked) = true)
    [.request (during 100 0) 5 0 .accept,
      .segment (during 100 0) (packet 1000 0 { syn := true } []),
      .request (during 100 0) 5 0 .close,
      .segment (during 100 0) (packet 1001 101 { ack := true } [])] (by decide)
  obtain ⟨t', ht, htimewait⟩ := (Option.any_eq_true _ _).mp ht
  simp only [Bool.and_eq_true, beq_iff_eq] at hclosing
  simp only [Bool.and_eq_true, beq_iff_eq, Bool.not_eq_true'] at htimewait
  obtain ⟨⟨hst', hnxt'⟩, hnxt⟩ := hclosing
  refine ⟨⟨s, s', hrun, hs, hst', fun h => ?_⟩, t, t', htrun, ht, htimewait.1, fun h => ?_⟩
  · have hcount := (h.fin _ rfl (Or.inr (Or.inl hst)) hfin).1
    rw [hnxt', hnxt] at hcount
    exact absurd hcount (by decide)
  · have hacked := h.timewait htimewait.1
    simp [htimewait.2] at hacked

end Runs

end Xtcp.Pip.Tcp
