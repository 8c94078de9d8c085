import Xtcp.Pip.Tcp.Log
import Xtcp.Pip.Tcp.Transmit

namespace Xtcp.Pip.Tcp
open Serial

variable {cfg : Config} {env : Env} {c c' : TcpConnection} {seg : Segment}

def greets (st : State) : Prop := st = .listen ∨ st = .synsent ∨ st = .synrcvd

-- The numbers of a connection that is being opened. The bytes of the ring are not used yet, the
-- SYN that answers another is counted as one.
structure Shaking (cfg : Config) (c : TcpConnection) : Prop where
  unsent : greets c.state → c.tx.length = 0 ∧ c.appStatus ≠ .writing
  free : greets c.state → c.tx.free = cfg.bufsizeTx ∨ c.state = .synrcvd ∧
    c.tx.free = cfg.bufsizeTx - 1
  connecting : c.state = .synsent → c.appStatus = .connecting
  nxt : c.state = .synsent ∨ c.state = .synrcvd → c.sndNXT = c.story.iss + 1
  una : c.state = .synsent ∨ c.state = .synrcvd → after c.sndUNA c.sndNXT = false
  rcv : c.state = .synrcvd → c.rcvNXT = c.story.irs + 1

theorem Shaking.of_not (h : ¬ greets c.state) : Shaking cfg c := by
  have hsynsent : c.state ≠ .synsent := fun hs => h (Or.inr (Or.inl hs))
  have hsynrcvd : c.state ≠ .synrcvd := fun hs => h (Or.inr (Or.inr hs))
  constructor
  all_goals simp_all

theorem Shaking.still (h : Shaking cfg c) (hstate : c'.state = c.state) (htx : c'.tx = c.tx)
    (hs : c'.appStatus = c.appStatus) (hnxt : c'.sndNXT = c.sndNXT) (huna : c'.sndUNA = c.sndUNA)
    (hrcv : c'.rcvNXT = c.rcvNXT) (hiss : c'.story.iss = c.story.iss)
    (hirs : c'.story.irs = c.story.irs) : Shaking cfg c' := by
  obtain ⟨h1, h2, h3, h4, h5, h6⟩ := h
  constructor
  all_goals
    rw [hstate]
    simp only [htx, hs, hnxt, huna, hrcv, hiss, hirs]
    assumption

theorem shaking_zero (port : BitVec 16) : Shaking cfg (.zero port) :=
  .of_not (by simp [greets, TcpConnection.zero])

theorem after_opened (n : Word) : after (n - 1#32) (n + 1#32) = false := by
  have hdiff : n - 1#32 - (n + 1#32) = -2#32 := by grind
  rw [after, hdiff]
  decide

section Application

variable {app : Chanend}

theorem Shaking.doAccept (c : TcpConnection) : Shaking cfg (Tcp.doAccept cfg app c) := by
  constructor
  all_goals simp [Tcp.doAccept, initConnection]

theorem Shaking.doConnect {ip port port' : Word} (c : TcpConnection) :
    Shaking cfg (Tcp.doConnect cfg env app ip port port' c) := by
  have hafter := after_opened env.now
  constructor
  all_goals simp [Tcp.doConnect, initConnection, TcpConnection.story, hafter]

theorem Shaking.doClose (h : Shaking cfg c) : Shaking cfg (Tcp.doClose app c) := by
  unfold Tcp.doClose
  split
  · exact h.still rfl rfl rfl rfl rfl rfl (by simp [TcpConnection.story])
      (by simp [TcpConnection.story])
  iterate 4 exact .of_not (by simp [greets])
  iterate 6 exact h
  · exact .of_not (by simp [greets])

theorem Shaking.doRead (h : Shaking cfg c) (hread : Tcp.doRead cfg env app c = some c') :
    Shaking cfg c' := by
  unfold Tcp.doRead at hread
  split at hread
  · next hst =>
    refine .of_not ?_
    split at hread
    · obtain ⟨data, rx, -, rfl⟩ := copyDataForRead_frame hread
      simp [greets, hst]
    · obtain rfl := Option.some.inj hread
      simp [greets, hst]
  all_goals
    obtain rfl := Option.some.inj hread
    exact h.still rfl rfl rfl rfl rfl rfl (by simp [TcpConnection.story])
      (by simp [TcpConnection.story])

theorem Shaking.doWrite (h : Shaking cfg c) (hwrite : Tcp.doWrite cfg env app c = some c') :
    Shaking cfg c' := by
  unfold Tcp.doWrite at hwrite
  split at hwrite
  · next hst =>
    refine .of_not ?_
    split at hwrite
    · obtain ⟨c₂, hcopy, hload⟩ := Option.bind_eq_some_iff.mp hwrite
      rw [((copyDataFromWrite_aside hcopy).trans (loadOutgoingData_aside hload)).state, hst]
      simp [greets]
    · obtain rfl := Option.some.inj hwrite
      simp [greets, hst]
  all_goals
    obtain rfl := Option.some.inj hwrite
    exact h.still rfl rfl rfl rfl rfl rfl (by simp [TcpConnection.story])
      (by simp [TcpConnection.story])

end Application

section Incoming

theorem Shaking.incomingListen (h : Shaking cfg c) (hst : c.state = .listen) :
    Shaking cfg (Tcp.incomingListen env seg c) := by
  have hpos := bufsizeTx_pos cfg
  have hlt := bufsizeTx_lt cfg
  obtain ⟨hlength, hs⟩ := h.unsent (Or.inl hst)
  have hfree : c.tx.free = cfg.bufsizeTx := by
    rcases h.free (Or.inl hst) with hfree | ⟨hst', -⟩
    · exact hfree
    · rw [hst] at hst'
      cases hst'
  have hint : int ((cfg.bufsizeTx : Int) - 1) = cfg.bufsizeTx - 1 := int_eq (by omega) (by omega)
  have hafter := after_opened env.now
  unfold Tcp.incomingListen
  split
  · exact h
  split
  · exact h.still rfl rfl rfl rfl rfl rfl (by simp [TcpConnection.story])
      (by simp [TcpConnection.story])
  split
  · constructor
    all_goals simp [hlength, hs, hfree, hint, hafter, TcpConnection.story]
  · exact h

theorem Shaking.synsent (h : Shaking cfg c) (hst : c.state = .synsent)
    (hg : Greeting env seg c c') : Shaking cfg c' := by
  obtain ⟨hlength, hs⟩ := h.unsent (Or.inr (Or.inl hst))
  have hfree : c.tx.free = cfg.bufsizeTx := by simpa [hst, greets] using h.free
  have hnxt : c.sndNXT = (story c.log).iss + 1#32 := h.nxt (Or.inl hst)
  have huna := h.una (Or.inl hst)
  have hconnecting := h.connecting hst
  cases hg with
  | declined => exact .of_not (by simp [Tcp.declined, greets])
  | heard ho _ =>
    unfold Tcp.heard
    cases hack : seg.flags.ack
    all_goals cases seg.flags.rst
    · exact h.still rfl rfl rfl rfl rfl rfl rfl rfl
    · exact h.still rfl rfl rfl rfl rfl rfl rfl rfl
    · have hwindow := (Bool.or_eq_false_iff.mp (ho hack)).2
      rw [hnxt] at hwindow
      constructor
      all_goals simp [hst, hlength, hfree, hconnecting, hnxt, hwindow, TcpConnection.story]
    · exact .of_not (by simp [greets])
  | estab => exact .of_not (by simp [greets])
  | synrcvd _ _ hu =>
    -- Otherwise sndUNA is what the segment acknowledges.
    have hack : seg.flags.ack = false := by
      cases hack : seg.flags.ack
      · rfl
      · exact absurd (by simp [greeted, hack]) hu
    rw [hnxt] at huna
    constructor
    all_goals
      simp [greeted, Tcp.heard, hack, hlength, hfree, hnxt, huna, TcpConnection.story]

theorem incomingFIN_greets (hst : ¬ greets c.state) : ¬ greets (incomingFIN c).state := by
  unfold incomingFIN
  dsimp only
  split
  all_goals split <;> simp_all [greets]

theorem Acked.greets (ha : Acked cfg env seg c c') (hst : ¬ Tcp.greets c.state) :
    ¬ Tcp.greets c'.state := by
  cases ha with
  | lastAck =>
    unfold incomingLastAck
    dsimp only
    split
    · split <;> simp [Tcp.greets]
    · exact hst
  | duplicate => exact hst
  | beyond => exact hst
  | finwait2 => simp [Tcp.greets]
  | timewait => split <;> simp [Tcp.greets]
  | @data c₂ c₃ b _ htake _ _ hdata =>
    have hstate := (incomingData_state hdata).trans (takeAck_aside htake).state
    rw [← hstate] at hst
    split
    · exact incomingFIN_greets hst
    · exact hst

theorem Shaking.synchronized (h : Shaking cfg c) (hst : c.state ≠ .listen)
    (hst' : c.state ≠ .synsent) (hs : Synchronized cfg env seg c c') : Shaking cfg c' := by
  cases hs with
  | outOfOrder =>
    exact h.still rfl rfl rfl rfl rfl rfl (by simp [TcpConnection.story])
      (by simp [TcpConnection.story])
  | reset =>
    refine .of_not ?_
    simp [Tcp.incomingRST, greets]
  | restart =>
    refine .of_not ?_
    simp [Tcp.incomingSYN, greets]
  | silent => exact h
  | refused =>
    exact h.still rfl rfl rfl rfl rfl rfl (by simp [TcpConnection.story])
      (by simp [TcpConnection.story])
  | opened _ _ _ ha => exact .of_not (ha.greets (by simp [greets]))
  | acked _ hsyn ha => exact .of_not (ha.greets (by simp [greets, hst, hst', hsyn]))

theorem Shaking.incoming (h : Shaking cfg c) (hi : Tcp.incoming cfg env seg c = some c') :
    Shaking cfg c' := by
  cases incoming_cases hi with
  | closed => exact h
  | listen hst => exact h.incomingListen hst
  | synsent hst hg => exact h.synsent hst hg
  | timewait hst =>
    refine .of_not ?_
    unfold incomingTimewait
    split
    · simp [greets]
    · rcases hst with hst | hst
      all_goals simp [greets, hst]
  | synchronized hst hs =>
    refine h.synchronized ?_ ?_ hs
    all_goals
      intro hst'
      simp [hst'] at hst

end Incoming

section TimeOut

theorem expire_state : (expire c).state = .closed := by
  unfold expire
  dsimp only
  split <;> rfl

theorem Shaking.lapse (h : Shaking cfg c) : Shaking cfg (Tcp.lapse c) := by
  unfold Tcp.lapse
  dsimp only
  split
  · exact .of_not (by simp [expire_state, greets])
  · exact h.still rfl rfl rfl rfl rfl rfl rfl rfl

theorem Shaking.resends (h : Shaking cfg c) (hst : greets c.state)
    (hn : 0 < notAcknowledged cfg c) :
    c.state = .synrcvd ∧ c.tx.free = cfg.bufsizeTx - 1 := by
  have hlt := bufsizeTx_lt cfg
  obtain ⟨hlength, -⟩ := h.unsent hst
  rcases h.free hst with hfree | hsyn
  · have hint : int cfg.bufsizeTx = cfg.bufsizeTx := int_eq (by omega) (by omega)
    rw [notAcknowledged, hlength, hfree, Int.zero_add, hint, int_sub_self] at hn
    exact absurd hn (by decide)
  · exact hsyn

-- Before the connection is open a byte of the ring is sent in the place of the SYN.
theorem Shaking.again (h : Shaking cfg c) (hn : 0 < Tcp.notAcknowledged cfg c)
    (hload : loadOutgoingData cfg env (rewind cfg (Tcp.notAcknowledged cfg c) c) = some c') :
    Shaking cfg c' := by
  have hrewound : Aside c (rewind cfg (Tcp.notAcknowledged cfg c) c) := by
    constructor <;> simp [rewind, receiving, TcpConnection.story]
  have haside := hrewound.trans (loadOutgoingData_aside hload)
  by_cases hst : greets c.state
  · obtain ⟨hlength, hs⟩ := h.unsent hst
    obtain ⟨hsyn, hfree⟩ := h.resends hst hn
    obtain ⟨k, hk, hsize⟩ := cfg.powerTx
    have hle : 2 ^ k ≤ 2 ^ 30 := Nat.pow_le_pow_right (by decide) hk
    have hpos := bufsizeTx_pos cfg
    have hflushed := rewind_flushed hs (by omega) (by omega) (by omega) hn hload
    have hnxt : c'.sndNXT = c.sndNXT := by
      rw [hflushed.nxt, hlength]
      exact BitVec.add_zero _
    have hirs := congrArg (·.2.1) haside.receiving
    refine ⟨fun _ => ⟨hflushed.length, hflushed.appStatus ▸ hs⟩, ?_, ?_, ?_, ?_, ?_⟩
    all_goals rw [haside.state]
    · rw [hflushed.free]
      exact h.free
    · rw [hflushed.appStatus]
      exact h.connecting
    · rw [hnxt, haside.iss]
      exact h.nxt
    · rw [hnxt, hflushed.una]
      exact h.una
    · rw [haside.rcvNXT, show c'.story.irs = c.story.irs from hirs]
      exact h.rcv
  · refine .of_not ?_
    rw [haside.state]
    exact hst

theorem Shaking.loadOutgoingData (h : Shaking cfg c) (hlength : c.tx.length ≠ 0)
    (hload : Tcp.loadOutgoingData cfg env c = some c') : Shaking cfg c' := by
  refine .of_not ?_
  rw [(loadOutgoingData_aside hload).state]
  exact fun hst => hlength (h.unsent hst).1

theorem Shaking.resent {t2 : Word} (h : Shaking cfg c) (hr : Resent t2 c c') : Shaking cfg c' := by
  cases hr with
  | timewait => exact .of_not (by simp [greets])
  | timewait0 =>
    refine .of_not ?_
    dsimp only
    split <;> simp [greets]
  | syn | fin =>
    exact h.still rfl rfl rfl rfl rfl rfl (by simp [TcpConnection.story])
      (by simp [TcpConnection.story])
  | nothing => exact h.still rfl rfl rfl rfl rfl rfl rfl rfl

theorem Shaking.ticked (h : Shaking cfg c) (ht : Ticked cfg env c c') : Shaking cfg c' := by
  cases ht with
  | stopped => exact h
  | counted => exact h.still rfl rfl rfl rfl rfl rfl rfl rfl
  | again _ hn hload => exact (h.lapse.again hn hload).still rfl rfl rfl rfl rfl rfl rfl rfl
  | rest => exact h.lapse.resent (resend_cases _)

end TimeOut

theorem Shaking.act {a : Act} (h : Shaking cfg c) (hdue : due a c)
    (hact : Tcp.act cfg env a c = some c') : Shaking cfg c' := by
  cases a with
  | request app r =>
    have hnoted : Shaking cfg (c.note (.requested app)) :=
      h.still rfl rfl rfl rfl rfl rfl (by simp [TcpConnection.story])
        (by simp [TcpConnection.story])
    cases r with
    | accept => exact Option.some.inj hact ▸ .doAccept _
    | connect => exact Option.some.inj hact ▸ .doConnect _
    | close => exact Option.some.inj hact ▸ hnoted.doClose
    | read => exact hnoted.doRead hact
    | write => exact hnoted.doWrite hact
  | segment seg =>
    have hclaim : Shaking cfg (claim seg c) := by
      obtain ⟨_, _, _, hsame⟩ := claim_same seg c
      rw [hsame]
      exact h.still rfl rfl rfl rfl rfl rfl rfl rfl
    exact hclaim.incoming hact
  | timeOut => exact h.ticked (timeOut_cases hact)
  | prepare =>
    refine h.loadOutgoingData (fun hzero => ?_) hact
    simp [due, Tcp.unsent, hzero] at hdue

-- A segment whose acknowledgement is not heeded: it may be answered with a reset, or with an
-- acknowledgement when it is out of order.
def ignores : Note → Prop
  | .bounced _ | .acked _ => True
  | .sent x => x.flags = { ack := true } ∧ x.data = []
  | _ => False

-- It acknowledges our SYN, and the SYN of the peer is there.
structure Opens (seg : Segment) (c c' : TcpConnection) : Prop where
  ack : seg.flags.ack = true
  number : seg.ack = c.story.iss + 1
  heard : c.state = .synrcvd ∧ c.rcvNXT = c.story.irs + 1 ∨
    c.state = .synsent ∧ seg.flags.syn = true ∧ c'.story.irs = seg.seq ∧
      c'.rcvNXT = c'.story.irs + 1

structure Handshake (a : Act) (c c' : TcpConnection) : Prop where
  opened : ∀ x ∈ fresh c c', announces x → ∃ seg, a = .segment seg ∧ Opens seg c c'
  ignored : ∀ seg, a = .segment seg → c.state = .synsent ∨ c.state = .synrcvd →
    seg.flags.ack = true → seg.ack ≠ c.story.iss + 1 →
      c'.state = c.state ∧ ∀ x ∈ fresh c c', ignores x

def Acknowledges : Act → TcpConnection → Prop
  | .segment seg, c =>
      (c.state = .synsent →
        if seg.flags.ack then
          seg.ack = c.story.iss + 1 ∨ outside c.sndUNA c.sndNXT seg.ack = false ∧
            seg.flags.syn = false ∧ seg.flags.rst = false
        else seg.flags.syn = false) ∧
      (c.state = .synrcvd → seg.seq = c.rcvNXT → seg.flags.ack = true →
        seg.ack ≠ c.story.iss + 1 →
          seg.flags.rst = false ∧ seg.flags.syn = false ∧
            outside c.sndUNA c.sndNXT seg.ack = true)
  | _, _ => True

instance (a : Act) (c : TcpConnection) : Decidable (Acknowledges a c) :=
  match a with
  | .segment _ => @instDecidableAnd _ _ inferInstance inferInstance
  | .request _ _ | .timeOut | .prepare => isTrue trivial

theorem handshake_of_adds {a : Act} (h : Adds (fun x => ¬ announces x) c.log c'.log)
    (hignored : ∀ seg, a = .segment seg → c.state = .synsent ∨ c.state = .synrcvd →
      seg.flags.ack = true → seg.ack ≠ c.story.iss + 1 →
        c'.state = c.state ∧ ∀ x ∈ fresh c c', ignores x) : Handshake a c c' :=
  ⟨fun x hx ha => absurd ha (h.fresh x hx), hignored⟩

theorem handshake_of_tacit {a : Act} (h : Tacit c c')
    (hignored : ∀ seg, a = .segment seg → c.state = .synsent ∨ c.state = .synrcvd →
      seg.flags.ack = true → seg.ack ≠ c.story.iss + 1 →
        c'.state = c.state ∧ ∀ x ∈ fresh c c', ignores x) : Handshake a c c' :=
  handshake_of_adds (h.mono fun _ hx => hx.1) hignored

theorem handshake_elsewhere (hst : c.state ≠ .synsent) (hst' : c.state ≠ .synrcvd)
    (h : Tacit c c') : Handshake (.segment seg) c c' ↔ Acknowledges (.segment seg) c := by
  refine iff_of_true (handshake_of_tacit h fun _ _ hs => ?_) ⟨fun hs => ?_, fun hs => ?_⟩
  · simp_all
  · exact absurd hs hst
  · exact absurd hs hst'

theorem Shaking.handshake_synsent (h : Shaking cfg c) (hst : c.state = .synsent)
    (hg : Greeting env seg c c') :
    Handshake (.segment seg) c c' ↔ Acknowledges (.segment seg) c := by
  have hnxt := h.nxt (Or.inl hst)
  have hin : seg.ack = c.story.iss + 1 → outside c.sndUNA c.sndNXT seg.ack = false := by
    intro heq
    rw [outside, heq, ← hnxt, h.una (Or.inl hst)]
    simp [after]
  have hchanged (hack : seg.flags.ack = true) (hne : seg.ack ≠ c.story.iss + 1)
      (hs : c'.state ≠ .synsent) : ¬ Handshake (.segment seg) c c' :=
    fun hh => hs ((hh.ignored seg rfl (Or.inl hst) hack hne).1.trans hst)
  have hcond : Acknowledges (.segment seg) c ↔
      if seg.flags.ack then
        seg.ack = c.story.iss + 1 ∨ outside c.sndUNA c.sndNXT seg.ack = false ∧
          seg.flags.syn = false ∧ seg.flags.rst = false
      else seg.flags.syn = false := by
    simp [Acknowledges, hst]
  rw [hcond]
  cases hg with
  | declined hack ho =>
    have hne : seg.ack ≠ c.story.iss + 1 := fun heq => by simp [hin heq] at ho
    refine iff_of_false (hchanged hack hne (by simp [Tcp.declined])) ?_
    rw [if_pos hack]
    rintro (heq | ⟨ho', -⟩)
    · exact hne heq
    · simp [ho] at ho'
  | heard ho hs =>
    cases hack : seg.flags.ack
    · refine iff_of_true (handshake_of_tacit heard_tacit fun seg' heq _ hack' => ?_) (by simp [hs])
      simp_all
    rw [if_pos rfl]
    by_cases hnum : seg.ack = c.story.iss + 1
    · refine iff_of_true (handshake_of_tacit heard_tacit fun seg' heq _ _ hne => ?_) (Or.inl hnum)
      exact absurd (Act.segment.inj heq ▸ hnum) hne
    cases hrst : seg.flags.rst
    · refine iff_of_true (handshake_of_tacit heard_tacit fun _ _ _ _ _ => ?_)
        (Or.inr ⟨ho hack, hs, rfl⟩)
      have hlog : (Tcp.heard seg c).log = c.log ++ [.acked seg.ack] := by
        simp [Tcp.heard, hack, hrst]
      rw [fresh_eq hlog]
      simp [Tcp.heard, hack, hrst, ignores]
    · refine iff_of_false (hchanged hack hnum (by simp [Tcp.heard, hack, hrst])) ?_
      rintro (heq | ⟨-, -, hr⟩)
      · exact hnum heq
      · cases hr
  | estab ho hs =>
    have hmem : Note.entered .estab ∈ fresh c
        ((pipOutgoingTCP [] { ack := true } (greeted seg (Tcp.heard seg c))).enter .estab) := by
      have hlog : c.log <+: (greeted seg (Tcp.heard seg c)).log :=
        heard_tacit.isPrefix.trans greeted_midway.isPrefix
      exact mem_fresh (hlog.trans (List.prefix_append _ _)) (List.prefix_refl _)
    cases hack : seg.flags.ack
    · refine iff_of_false (fun hh => ?_) (by simp [hs])
      obtain ⟨seg', heq, hopens⟩ := hh.opened _ hmem rfl
      rw [← Act.segment.inj heq] at hopens
      simp [hopens.ack] at hack
    rw [if_pos rfl]
    by_cases hnum : seg.ack = c.story.iss + 1
    · refine iff_of_true ⟨fun x _ _ => ⟨seg, rfl, hack, hnum, ?_⟩, fun seg' heq _ _ hne => ?_⟩
        (Or.inl hnum)
      · refine Or.inr ⟨hst, hs, ?_, ?_⟩
        all_goals simp [greeted, hack, TcpConnection.story]
      · exact absurd (Act.segment.inj heq ▸ hnum) hne
    · refine iff_of_false (hchanged hack hnum (by simp)) ?_
      rintro (heq | ⟨-, hs', -⟩)
      · exact hnum heq
      · simp [hs] at hs'
  | synrcvd ho hs hu =>
    have hack : seg.flags.ack = false := by
      cases hack : seg.flags.ack
      · rfl
      · exact absurd (by simp [greeted, hack]) hu
    refine iff_of_false (fun hh => ?_) (by simp [hs, hack])
    have hmem : Note.token c.appWaiting .connecting .ack ∈ fresh c
        ((pipOutgoingTCP [] { syn := true, ack := true } (greeted seg (Tcp.heard seg c))).enter
          .synrcvd) := by
      refine mem_fresh (List.prefix_append c.log [.irs seg.seq]) ?_
      simp [greeted, Tcp.heard, hack, h.connecting hst]
    obtain ⟨seg', heq, hopens⟩ := hh.opened _ hmem ⟨Or.inr rfl, rfl⟩
    rw [← Act.segment.inj heq] at hopens
    simp [hopens.ack] at hack

theorem Shaking.handshake_synrcvd (h : Shaking cfg c) (hst : c.state = .synrcvd)
    (hs : Synchronized cfg env seg c c') :
    Handshake (.segment seg) c c' ↔ Acknowledges (.segment seg) c := by
  have hcond : Acknowledges (.segment seg) c ↔
      (seg.seq = c.rcvNXT → seg.flags.ack = true → seg.ack ≠ c.story.iss + 1 →
        seg.flags.rst = false ∧ seg.flags.syn = false ∧
          outside c.sndUNA c.sndNXT seg.ack = true) := by
    simp [Acknowledges, hst]
  have hchanged (hs : c'.state ≠ .synrcvd) (hack : seg.flags.ack = true)
      (hne : seg.ack ≠ c.story.iss + 1) : ¬ Handshake (.segment seg) c c' :=
    fun hh => hs ((hh.ignored seg rfl (Or.inr hst) hack hne).1.trans hst)
  rw [hcond]
  -- Of what closes the connection nothing is asked, but that it does not acknowledge the SYN.
  have hclosed (htacit : Tacit c c') (hs : c'.state ≠ .synrcvd) (hseq : seg.seq = c.rcvNXT)
      (hnot : ¬ (seg.flags.rst = false ∧ seg.flags.syn = false ∧
        outside c.sndUNA c.sndNXT seg.ack = true)) :
      Handshake (.segment seg) c c' ↔ (seg.seq = c.rcvNXT → seg.flags.ack = true →
        seg.ack ≠ c.story.iss + 1 → seg.flags.rst = false ∧ seg.flags.syn = false ∧
          outside c.sndUNA c.sndNXT seg.ack = true) := by
    by_cases hwrong : seg.flags.ack = true ∧ seg.ack ≠ c.story.iss + 1
    · exact iff_of_false (hchanged hs hwrong.1 hwrong.2)
        fun hok => hnot (hok hseq hwrong.1 hwrong.2)
    · refine iff_of_true (handshake_of_tacit htacit fun seg' heq _ hack hne => ?_)
        fun _ hack hne => absurd ⟨hack, hne⟩ hwrong
      obtain rfl := Act.segment.inj heq
      exact absurd ⟨hack, hne⟩ hwrong
  cases hs with
  | outOfOrder hseq =>
    refine iff_of_true (handshake_of_tacit (by simp [announces, midway]) fun _ _ _ _ _ => ⟨rfl, ?_⟩)
      fun heq => absurd heq hseq
    rw [fresh_eq rfl]
    simp [ignores, header]
  | reset hseq hr =>
    exact hclosed incomingRST_plain.tacit (by simp [incomingRST]) hseq (by simp [hr])
  | restart hseq hr hsyn =>
    exact hclosed incomingSYN_plain.tacit (by simp [incomingSYN]) hseq (by simp [hsyn])
  | silent hseq hr hsyn hack =>
    refine iff_of_true (handshake_of_tacit adds_refl fun seg' heq _ hack' => ?_)
      fun _ hack' => ?_
    · obtain rfl := Act.segment.inj heq
      simp [hack] at hack'
    · simp [hack] at hack'
  | refused hin _ ho =>
    refine iff_of_true (handshake_of_tacit (by simp [announces, midway]) fun _ _ _ _ _ => ⟨rfl, ?_⟩)
      fun _ _ _ => ⟨hin.rst, hin.syn, ho⟩
    rw [fresh_eq rfl]
    simp [ignores]
  | opened hin _ ho ha =>
    have hlog := (establish_log (c := offered seg c)).trans ha.tacit.isPrefix
    have hmem : Note.entered .estab ∈ fresh c c' := mem_fresh (List.prefix_refl _) hlog
    by_cases hnum : seg.ack = c.story.iss + 1
    · refine iff_of_true ⟨fun x _ _ => ⟨seg, rfl, hin.ack, hnum, Or.inl ⟨hst, h.rcv hst⟩⟩,
        fun seg' heq _ _ hne => ?_⟩ fun _ _ hne => absurd hnum hne
      exact absurd (Act.segment.inj heq ▸ hnum) hne
    · refine iff_of_false (fun hh => ?_) fun hok => ?_
      · obtain ⟨seg', heq, hopens⟩ := hh.opened _ hmem rfl
        obtain rfl := Act.segment.inj heq
        exact hnum hopens.number
      · have hout := (hok hin.seq hin.ack hnum).2.2
        simp [ho] at hout
  | acked _ hne => exact absurd hst hne

theorem Shaking.handshake_incoming (h : Shaking cfg c)
    (hi : Tcp.incoming cfg env seg c = some c') :
    Handshake (.segment seg) c c' ↔ Acknowledges (.segment seg) c := by
  cases incoming_cases hi with
  | closed hst => exact handshake_elsewhere (by simp [hst]) (by simp [hst]) adds_refl
  | listen hst => exact handshake_elsewhere (by simp [hst]) (by simp [hst]) incomingListen_tacit
  | synsent hst hg => exact h.handshake_synsent hst hg
  | timewait hst =>
    refine handshake_elsewhere ?_ ?_ incomingTimewait_plain.tacit
    all_goals rcases hst with hst | hst <;> simp [hst]
  | synchronized hst hs =>
    by_cases hsyn : c.state = .synrcvd
    · exact h.handshake_synrcvd hsyn hs
    · refine handshake_elsewhere ?_ hsyn (hs.tacit hsyn)
      rcases hst with hst | hst | hst | hst | hst | hst | hst
      all_goals simp [hst]

theorem handshake_claim (seg : Segment) :
    Handshake (.segment seg) (claim seg c) c' ↔ Handshake (.segment seg) c c' := by
  obtain ⟨_, _, _, hsame⟩ := claim_same seg c
  rw [hsame]
  constructor
  all_goals
    refine fun h => ⟨fun x hx ha => ?_, h.ignored⟩
    obtain ⟨seg', heq, hopens⟩ := h.opened x hx ha
    exact ⟨seg', heq, hopens.ack, hopens.number, hopens.heard⟩

theorem Shaking.handshake {a : Act} (h : Shaking cfg c) (hact : Tcp.act cfg env a c = some c') :
    Handshake a c c' ↔ Acknowledges a c := by
  cases a with
  | request => exact iff_of_true (handshake_of_adds (pipApplicationTCP_adds hact) nofun) trivial
  | segment seg =>
    have hclaim : Shaking cfg (claim seg c) ∧
        (Acknowledges (.segment seg) (claim seg c) ↔ Acknowledges (.segment seg) c) := by
      obtain ⟨_, _, _, hsame⟩ := claim_same seg c
      rw [hsame]
      exact ⟨h.still rfl rfl rfl rfl rfl rfl rfl rfl, Iff.rfl⟩
    rw [← handshake_claim, hclaim.1.handshake_incoming hact, hclaim.2]
  | timeOut =>
    exact iff_of_true (handshake_of_tacit (timeOut_cases hact).tacit nofun) trivial
  | prepare =>
    exact iff_of_true (handshake_of_tacit (loadOutgoingData_aside hact).tacit nofun) trivial

section Runs

variable {n : Nat} {s s' : Stack n}

theorem Run.shaking {C : Env → Act → TcpConnection → Prop} (h : Run cfg (Each C) s) (i : Fin n) :
    Shaking cfg (s.conns i) :=
  h.invariant shaking_zero (fun _ _ _ _ h _ hdue hs => h.act hdue hs) i

theorem opening_handshake (h : Run cfg (Each fun _ _ _ => True) s) {e : Event n}
    (hs : step cfg s e = some s') {i : Fin n} {a : Act} (hc : concerns s e i = some (env, a)) :
    Handshake a (s.conns i) (s'.conns i) ↔ Acknowledges a (s.conns i) := by
  have hact := step_evolves hs i
  rw [hc] at hact
  exact (h.shaking i).handshake hact

-- The third segment of an accept.
theorem opening_handshake_of_accept : ∃ s s' : Stack 1,
    Run small (Each fun _ _ _ => True) s ∧ (s'.conns 0).state = .estab ∧
      Handshake (.segment (packet 1001 101 { ack := true } [])) (s.conns 0) (s'.conns 0) := by
  obtain ⟨s, hrun, hfound, hs, hok⟩ := exists_run small (C := fun _ _ _ => True)
    (P := fun s : Stack 1 =>
      ((List.finRange 1).find? fun j =>
        found (packet 1001 101 { ack := true } []) (s.conns j)) = some 0 ∧
      ((step small s (.segment (during 100 0) (packet 1001 101 { ack := true } []))).any fun s' =>
        (s'.conns 0).state == .estab) = true ∧
      Acknowledges (.segment (packet 1001 101 { ack := true } [])) (s.conns 0))
    [.request (during 100 0) 5 0 .accept,
      .segment (during 100 0) (packet 1000 0 { syn := true } [])] (by decide)
  obtain ⟨s', hs, hstate⟩ := (Option.any_eq_true _ _).mp hs
  have hc : concerns s (.segment (during 100 0) (packet 1001 101 { ack := true } [])) 0 =
      some (during 100 0, .segment (packet 1001 101 { ack := true } [])) := by
    simp only [concerns, hfound, if_true]
  exact ⟨s, s', hrun, by simpa using hstate, (opening_handshake hrun hs hc).mpr hok⟩

-- The same, but it acknowledges ISS: our SYN is still on its way.
theorem opened_by_old_acknowledgement : ∃ s s' : Stack 1,
    Run small (Each fun _ _ _ => True) s ∧
      step small s (.segment (during 100 0) (packet 1001 100 { ack := true } [])) = some s' ∧
      (s'.conns 0).state = .estab ∧ (s.conns 0).story.iss = 100 ∧
      ¬ Handshake (.segment (packet 1001 100 { ack := true } [])) (s.conns 0) (s'.conns 0) := by
  obtain ⟨s, hrun, hfound, hs, hiss, hnot⟩ := exists_run small (C := fun _ _ _ => True)
    (P := fun s : Stack 1 =>
      ((List.finRange 1).find? fun j =>
        found (packet 1001 100 { ack := true } []) (s.conns j)) = some 0 ∧
      ((step small s (.segment (during 100 0) (packet 1001 100 { ack := true } []))).any fun s' =>
        (s'.conns 0).state == .estab) = true ∧ (s.conns 0).story.iss = 100 ∧
      ¬ Acknowledges (.segment (packet 1001 100 { ack := true } [])) (s.conns 0))
    [.request (during 100 0) 5 0 .accept,
      .segment (during 100 0) (packet 1000 0 { syn := true } [])] (by decide)
  obtain ⟨s', hs, hstate⟩ := (Option.any_eq_true _ _).mp hs
  have hact := step_evolves hs 0
  simp only [concerns, hfound, if_true] at hact
  exact ⟨s, s', hrun, hs, by simpa using hstate, hiss,
    fun hh => hnot (((hrun.shaking 0).handshake hact).mp hh)⟩

end Runs

end Xtcp.Pip.Tcp
