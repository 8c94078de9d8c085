import Xtcp.Pip.Tcp.Stack

namespace Xtcp.Pip.Tcp

variable {n : Nat} {cfg : Config} {env : Env} {seg : Segment} {c c' : TcpConnection}
  {s s' : Stack n} {i : Fin n}

-- The connection that the search of pipIncomingTCP stops at.
def opened (seg : Segment) (s : Stack n) : Option (Fin n) :=
  (List.finRange n).find? fun i => found seg (s.conns i)

def named (seg : Segment) (c : TcpConnection) : Prop :=
  c.remotePortRev = seg.srcPortRev ∧ c.remoteIP = seg.srcIP ∧ c.localIP = seg.dstIP

def connected (seg : Segment) (c : TcpConnection) : Prop :=
  seg.dstPortRev = c.localPortRev ∧ c.state ≠ .closed ∧ c.state ≠ .listen ∧ named seg c

def listens (seg : Segment) (c : TcpConnection) : Prop :=
  seg.dstPortRev = c.localPortRev ∧ c.state = .listen

def starts (seg : Segment) : Prop :=
  seg.flags.syn = true ∧ seg.flags.rst = false ∧ seg.flags.ack = false

instance (seg : Segment) (c : TcpConnection) : Decidable (connected seg c) :=
  inferInstanceAs (Decidable (_ ∧ _ ∧ _ ∧ _ ∧ _ ∧ _))

instance (seg : Segment) (c : TcpConnection) : Decidable (listens seg c) :=
  inferInstanceAs (Decidable (_ ∧ _))

-- Every field that the source has.
def unchanged (c c' : TcpConnection) : Prop := { c' with log := c.log } = c

structure Demultiplexed (cfg : Config) (env : Env) (seg : Segment) (s : Stack n) : Prop where
  connected : ∀ i, connected seg (s.conns i) → opened seg s = some i ∧
    pipIncomingTCP cfg env seg s = (incoming cfg env seg (s.conns i)).map (s.put i)
  listening : ∀ i, opened seg s = some i → (s.conns i).state = .listen →
    ∀ j, ¬ Tcp.connected seg (s.conns j)
  kept : ∀ i s', opened seg s = some i → (s.conns i).state = .listen →
    pipIncomingTCP cfg env seg s = some s' → (s'.conns i).state = .listen →
    unchanged (s.conns i) (s'.conns i)

-- The order of the table, and what former peers have left in a listening connection.
structure Ordered (seg : Segment) (s : Stack n) : Prop where
  alone : ∀ i j, connected seg (s.conns i) → connected seg (s.conns j) → i = j
  before : ∀ i j, connected seg (s.conns i) → listens seg (s.conns j) → i < j
  settled : ∀ j, listens seg (s.conns j) →
    (∀ k < j, ¬ connected seg (s.conns k) ∧ ¬ listens seg (s.conns k)) →
    starts seg ∨ named seg (s.conns j)

theorem openStream_iff : openStream seg c = true ↔ c.state ≠ .closed ∧ named seg c := by
  simp [openStream, named, and_assoc]

theorem found_iff : found seg c = true ↔ connected seg c ∨ listens seg c := by
  rw [found, Bool.and_eq_true, beq_iff_eq, Bool.or_eq_true, beq_iff_eq, openStream_iff]
  constructor
  · rintro ⟨hport, ⟨hst, hnamed⟩ | hst⟩
    · by_cases hl : c.state = .listen
      · exact Or.inr ⟨hport, hl⟩
      · exact Or.inl ⟨hport, hst, hl, hnamed⟩
    · exact Or.inr ⟨hport, hst⟩
  · rintro (⟨hport, hst, -, hnamed⟩ | ⟨hport, hst⟩)
    · exact ⟨hport, Or.inl ⟨hst, hnamed⟩⟩
    · exact ⟨hport, Or.inr hst⟩

theorem opened_iff : opened seg s = some i ↔
    found seg (s.conns i) = true ∧ ∀ j < i, found seg (s.conns j) = false := by
  rw [opened, List.find?_eq_some_iff_getElem]
  refine and_congr_right fun _ => ⟨?_, fun hall => ?_⟩
  · rintro ⟨k, hk, hi, hall⟩ j hj
    rw [List.getElem_finRange] at hi
    have hik : i.val = k := by simp [← hi]
    simpa using hall j.val (by omega)
  · refine ⟨i.val, by simp, by simp, fun j hj => ?_⟩
    simpa using hall ⟨j, by omega⟩ hj

theorem Ordered.opened_connected (h : Ordered seg s) (hc : connected seg (s.conns i)) :
    opened seg s = some i := by
  refine opened_iff.mpr ⟨found_iff.mpr (Or.inl hc), fun j hj => ?_⟩
  rw [Bool.eq_false_iff, Ne, found_iff]
  rintro (hother | hl)
  · exact absurd (h.alone i j hc hother) (Fin.ne_of_gt hj)
  · exact absurd (h.before i j hc hl) (Fin.lt_asymm hj)

theorem claim_open (h : openStream seg c = true) : claim seg c = c := by
  rw [claim, if_pos h]

theorem named_claim : named seg (claim seg c) := by
  unfold claim
  split
  · next h => exact (openStream_iff.mp h).2
  · exact ⟨rfl, rfl, rfl⟩

theorem claim_state : (claim seg c).state = c.state := by
  unfold claim
  split <;> rfl

theorem pipIncomingTCP_opened (h : opened seg s = some i) :
    pipIncomingTCP cfg env seg s =
      (incoming cfg env seg (claim seg (s.conns i))).map (s.put i) := by
  have hfind : ((List.finRange n).find? fun i => found seg (s.conns i)) = some i := h
  rw [pipIncomingTCP, hfind]
  rfl

-- A listening connection takes a SYN and leaves everything else.
theorem incomingListen_starts (h : starts seg) : (incomingListen env seg c).state = .synrcvd := by
  obtain ⟨hsyn, hrst, hack⟩ := h
  simp [incomingListen, hsyn, hrst, hack]

theorem incomingListen_declined (h : ¬ starts seg) : unchanged c (incomingListen env seg c) := by
  unfold incomingListen unchanged
  split
  · rfl
  · next hrst =>
    split
    · rfl
    · next hack =>
      rw [if_neg fun hsyn => h ⟨hsyn, by simpa using hrst, by simpa using hack⟩]

theorem put_conns : (s.put i c).conns i = c := by
  simp [Stack.put]

theorem listening_step (h : opened seg s = some i) (hst : (s.conns i).state = .listen) :
    pipIncomingTCP cfg env seg s =
      some (s.put i (incomingListen env seg (claim seg (s.conns i)))) := by
  have hclaim : (claim seg (s.conns i)).state = .listen := claim_state.trans hst
  rw [pipIncomingTCP_opened h, incoming, hclaim]
  rfl

theorem Ordered.demultiplexed (h : Ordered seg s) : Demultiplexed cfg env seg s := by
  refine ⟨fun i hc => ?_, fun i hi hst j hc => ?_, fun i s' hi hst hs hst' => ?_⟩
  · have hi := h.opened_connected hc
    have hopen := openStream_iff.mpr ⟨hc.2.1, hc.2.2.2⟩
    exact ⟨hi, by rw [pipIncomingTCP_opened hi, claim_open hopen]⟩
  · obtain rfl : j = i := Option.some.inj ((h.opened_connected hc).symm.trans hi)
    exact hc.2.2.1 hst
  · obtain rfl := Option.some.inj ((listening_step hi hst).symm.trans hs)
    obtain ⟨hfound, hbefore⟩ := opened_iff.mp hi
    have hl : listens seg (s.conns i) := (found_iff.mp hfound).resolve_left fun hc => hc.2.2.1 hst
    have hnone : ∀ k < i, ¬ connected seg (s.conns k) ∧ ¬ listens seg (s.conns k) := by
      intro k hk
      rw [← not_or, ← found_iff, hbefore k hk]
      exact Bool.false_ne_true
    rw [put_conns] at hst' ⊢
    rcases h.settled i hl hnone with hstarts | hnamed
    · rw [incomingListen_starts hstarts] at hst'
      cases hst'
    · have hopen : openStream seg (s.conns i) = true :=
        openStream_iff.mpr ⟨by simp [hst], hnamed⟩
      rw [claim_open hopen] at hst' ⊢
      refine incomingListen_declined fun hstarts => ?_
      rw [incomingListen_starts hstarts] at hst'
      cases hst'

theorem unchanged.named (h : unchanged c c') : named seg c' ↔ named seg c := by
  have hport : c'.remotePortRev = c.remotePortRev := congrArg (·.remotePortRev) h
  have hremote : c'.remoteIP = c.remoteIP := congrArg (·.remoteIP) h
  have hlocal : c'.localIP = c.localIP := congrArg (·.localIP) h
  rw [Tcp.named, Tcp.named, hport, hremote, hlocal]

theorem unchanged.state (h : unchanged c c') : c'.state = c.state := congrArg (·.state) h

theorem Demultiplexed.ordered (h : Demultiplexed cfg env seg s) : Ordered seg s := by
  refine ⟨fun i j hi hj => ?_, fun i j hi hj => ?_, fun j hj hbefore => ?_⟩
  · exact Option.some.inj ((h.connected i hi).1.symm.trans (h.connected j hj).1)
  · obtain ⟨hfound, hbefore⟩ := opened_iff.mp (h.connected i hi).1
    rcases lt_trichotomy i j with hlt | rfl | hgt
    · exact hlt
    · exact absurd hj.2 hi.2.2.1
    · have hjfound := found_iff.mpr (Or.inr hj)
      rw [hbefore j hgt] at hjfound
      cases hjfound
  · by_cases hstarts : starts seg
    · exact Or.inl hstarts
    · have hopened : opened seg s = some j := by
        refine opened_iff.mpr ⟨found_iff.mpr (Or.inr hj), fun k hk => ?_⟩
        rw [Bool.eq_false_iff, Ne, found_iff, not_or]
        exact hbefore k hk
      have hstep : pipIncomingTCP cfg env seg s = _ := listening_step hopened hj.2
      have hdeclined : unchanged (claim seg (s.conns j))
          (incomingListen env seg (claim seg (s.conns j))) := incomingListen_declined hstarts
      have hkept := h.kept j _ hopened hj.2 hstep
        (by rw [put_conns, hdeclined.state, claim_state, hj.2])
      rw [put_conns] at hkept
      exact Or.inr (hkept.named.mp (hdeclined.named.mpr named_claim))

theorem demultiplexing_exact (cfg : Config) (env : Env) (seg : Segment) (s : Stack n) :
    Demultiplexed cfg env seg s ↔ Ordered seg s :=
  ⟨fun h => h.ordered, fun h => h.demultiplexed⟩

-- A connection is opened from the port that the first entry then listens on.
theorem listener_takes_segment : ∃ s : Stack 2, Run small (Each fun _ _ _ => True) s ∧
    ¬ Demultiplexed small (during 0 0) (packet 5 1 { syn := true, ack := true } []) s := by
  obtain ⟨s, hrun, hc, hl⟩ := exists_run (n := 2) (C := fun _ _ _ => True) small
    (P := fun s => connected (packet 5 1 { syn := true, ack := true } []) (s.conns 1) ∧
      listens (packet 5 1 { syn := true, ack := true } []) (s.conns 0))
    [.request (during 0 0) 0 1 (.connect 2 0x0100 0x0017), .request (during 0 0) 1 0 .accept]
    (by decide +kernel)
  exact ⟨s, hrun, fun h => absurd (h.ordered.before 1 0 hc hl) (by decide)⟩

end Xtcp.Pip.Tcp
