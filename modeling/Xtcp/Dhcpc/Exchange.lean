import Mathlib.Data.List.Induction
import Xtcp.Dhcpc.Thread
import Xtcp.Library.Path

namespace Xtcp.Dhcpc

open Channel Timer Labelled

inductive Stage where
  | off
  | idle
  | selecting
  | requesting
  | acked
  | bound
  deriving DecidableEq, Repr

-- The lease as the messages accepted so far have filled it in.
def accepted (macAddr : MacAddr) (d : Datagram) (l : Lease) : Lease := (parseMsg macAddr d l).2

def Took (macAddr : MacAddr) (type : UInt8) (d : Datagram) : Prop := msgForMe macAddr d = some type

-- What a client may say to the servers, and what it may make of their answers.
inductive Exchange (macAddr : MacAddr) : Stage × Lease → Note → Stage × Lease → Prop where
  | started {q : Stage} {l : Lease} : Exchange macAddr (q, l) .started (.idle, l)
  | stopped {q : Stage} {l : Lease} : Exchange macAddr (q, l) .stopped (.off, l)
  | discover {q : Stage} {l : Lease} (hoff : q ≠ .off) (hacked : q ≠ .acked) :
      Exchange macAddr (q, l) (.discover (sendDiscover macAddr zeroIpaddr)) (.selecting, l)
  | autoip {l : Lease} : Exchange macAddr (.selecting, l) .autoipStart (.selecting, l)
  | offer {l : Lease} {d : Datagram} (hd : Took macAddr dhcpOffer d) :
      Exchange macAddr (.selecting, l) (.took dhcpOffer d) (.requesting, accepted macAddr d l)
  | request {l : Lease} :
      Exchange macAddr (.requesting, l) (.request (sendRequest macAddr zeroIpaddr l))
        (.requesting, l)
  | renew {l : Lease} (a : Ipaddr) :
      Exchange macAddr (.bound, l) (.request (sendRequest macAddr a l)) (.bound, l)
  | ack {q : Stage} {l : Lease} {d : Datagram} (hq : q = .requesting ∨ q = .bound)
      (hd : Took macAddr dhcpAck d) :
      Exchange macAddr (q, l) (.took dhcpAck d) (.acked, accepted macAddr d l)
  | nak {q : Stage} {l : Lease} {d : Datagram} (hq : q = .requesting ∨ q = .bound)
      (hd : Took macAddr dhcpNak d) : Exchange macAddr (q, l) (.took dhcpNak d) (.idle, l)
  | configured {l : Lease} : Exchange macAddr (.acked, l) (.configured l) (.bound, l)

def DhcpcState.stage (s : DhcpcState) : Stage :=
  match s.pt with
  | .init => if s.state = .disabled then .off else .idle
  | .initwait => .idle
  | .discovering => .selecting
  | .selecting => .requesting
  | .bound => .bound
  | .renewing => .bound

def DhcpcState.abs (s : DhcpcState) : Stage × Lease := (s.stage, s.toLease)

-- The state at each place where the thread yields.
def DhcpcState.Settled (s : DhcpcState) : Prop :=
  match s.pt with
  | .init => True
  | .initwait => s.state ≠ .disabled
  | .discovering => s.state = .sending
  | .selecting => s.state = .offerReceived
  | .bound => s.state = .configReceived
  | .renewing => s.state = .configReceived

-- What a call leads to, as moves of the exchange.
structure Leads (macAddr : MacAddr) (q : Stage × Lease) (r : Result) : Prop where
  path : ∃ ms, ms.map Prod.fst = r.2 ∧ Path (Exchange macAddr) q ms r.1.abs
  settled : r.1.Settled
  macAddr : r.1.macAddr = macAddr

variable {macAddr : MacAddr} {q q' : Stage × Lease} {r : Result} {n : Note} {i : Input}
  {s : DhcpcState}

theorem Leads.stay (hs : s.Settled) (hm : s.macAddr = macAddr) :
    Leads macAddr s.abs (s, []) :=
  ⟨⟨[], rfl, .nil⟩, hs, hm⟩

theorem Leads.cons (hn : Exchange macAddr q n q') (h : Leads macAddr q' r) :
    Leads macAddr q (r.1, n :: r.2) := by
  obtain ⟨⟨ms, hms, hpath⟩, hs, hm⟩ := h
  exact ⟨⟨(n, q') :: ms, congrArg (n :: ·) hms, .cons hn hpath⟩, hs, hm⟩

theorem ciaddr_of_ne (h : s.state ≠ .configReceived) : ciaddr i s = zeroIpaddr := if_pos h

theorem leads_initwait (hs : s.state ≠ .disabled) (hm : s.macAddr = macAddr) :
    Leads macAddr (.idle, s.toLease) (initwait i s) :=
  ⟨⟨[], rfl, .nil⟩, hs, hm⟩

theorem leads_discover {stage : Stage} (hoff : stage ≠ .off) (hacked : stage ≠ .acked)
    (hs : s.state = .sending) (hm : s.macAddr = macAddr) :
    Leads macAddr (stage, s.toLease) (discover i s) := by
  have hsent : Exchange macAddr (stage, s.toLease)
      (.discover (sendDiscover s.macAddr (ciaddr i s))) (.selecting, s.toLease) := by
    rw [ciaddr_of_ne (by rw [hs]; decide), hm]
    exact .discover hoff hacked
  exact ⟨⟨_, rfl, .single hsent⟩, hs, hm⟩

theorem leads_init {stage : Stage} (hoff : stage ≠ .off) (hacked : stage ≠ .acked)
    (hm : s.macAddr = macAddr) : Leads macAddr (stage, s.toLease) (init i s) := by
  have h := leads_discover (i := i) hoff hacked
    (s := { s with state := .sending, ticks := clockSecond }) rfl hm
  exact h

theorem leads_rediscover {useAutoip : Bool} (hs : s.state = .sending) (hm : s.macAddr = macAddr) :
    Leads macAddr (.selecting, s.toLease) (rediscover useAutoip i s) := by
  have hnext : ∀ t : Word, Leads macAddr (.selecting, s.toLease)
      (discover i { s with ticks := t }) := fun t =>
    leads_discover (s := { s with ticks := t }) (by decide) (by decide) hs hm
  have hsame :
      discover i (if s.ticks < clockSecond * 60 then { s with ticks := s.ticks * 2 } else s) =
        discover i
          { s with ticks := if s.ticks < clockSecond * 60 then s.ticks * 2 else s.ticks } := by
    split_ifs <;> rfl
  rw [rediscover, hsame]
  split_ifs
  · exact .cons .autoip (hnext _)
  · exact hnext _
  · exact .cons .autoip (hnext _)
  · exact hnext _

theorem leads_request (hs : s.state = .offerReceived) (hm : s.macAddr = macAddr) :
    Leads macAddr (.requesting, s.toLease) (request i s) := by
  have hsent : Exchange macAddr (.requesting, s.toLease)
      (.request (sendRequest s.macAddr (ciaddr i s) s.toLease)) (.requesting, s.toLease) := by
    rw [ciaddr_of_ne (by rw [hs]; decide), hm]
    exact .request
  exact ⟨⟨_, rfl, .single hsent⟩, hs, hm⟩

theorem leads_renew (hs : s.state = .configReceived) (hm : s.macAddr = macAddr) :
    Leads macAddr (.bound, s.toLease) (renew i s) := by
  have hsent : Exchange macAddr (.bound, s.toLease)
      (.request (sendRequest s.macAddr (ciaddr i s) s.toLease)) (.bound, s.toLease) := by
    rw [hm]
    exact .renew _
  exact ⟨⟨_, rfl, .single hsent⟩, hs, hm⟩

theorem leads_boundWait (hs : s.state = .configReceived) (hm : s.macAddr = macAddr) :
    Leads macAddr (.bound, s.toLease) (boundWait i s) := by
  rw [boundWait]
  split_ifs
  · exact ⟨⟨[], rfl, .nil⟩, hs, hm⟩
  · exact leads_renew (s := { s with ticks := leaseTicks s.toLease }) hs hm

theorem leads_bound (hs : s.state = .configReceived) (hm : s.macAddr = macAddr) :
    Leads macAddr (.acked, s.toLease) (bound i s) :=
  .cons .configured (leads_boundWait (s := { s with ticks := leaseTicks s.toLease }) hs hm)

theorem leads_rerequest (hs : s.state = .offerReceived) (hm : s.macAddr = macAddr) :
    Leads macAddr (.requesting, s.toLease) (rerequest i s) := by
  rw [rerequest]
  dsimp only
  split_ifs with hmore hstate
  · exact leads_request (s := { s with ticks := s.ticks + clockSecond }) hs hm
  · exact absurd (hs ▸ by decide) hstate
  · exact leads_init (by decide) (by decide) hm

theorem leads_rerenew (hs : s.state = .configReceived) (hm : s.macAddr = macAddr) :
    Leads macAddr (.bound, s.toLease) (rerenew i s) := by
  rw [rerenew]
  split_ifs
  · exact leads_renew hs hm
  · exact leads_init (by decide) (by decide) hm

theorem leads_offered {d : Datagram} (hd : Took macAddr dhcpOffer d) (hm : s.macAddr = macAddr) :
    Leads macAddr (.selecting, s.toLease) (offered i d s) := by
  subst hm
  exact .cons (.offer hd) (leads_request (s := { (take dhcpOffer d s).1 with
    state := .offerReceived, ticks := clockSecond }) rfl rfl)

theorem leads_acked {d : Datagram} {stage : Stage} (hd : Took macAddr dhcpAck d)
    (hstage : stage = .requesting ∨ stage = .bound) (hm : s.macAddr = macAddr) :
    Leads macAddr (stage, s.toLease) (acked i d s) := by
  subst hm
  exact .cons (.ack hstage hd) (leads_bound (s := { (take dhcpAck d s).1 with
    state := .configReceived }) rfl rfl)

theorem leads_reacked {d : Datagram} (hd : Took macAddr dhcpAck d) (hs : s.state = .configReceived)
    (hm : s.macAddr = macAddr) : Leads macAddr (.bound, s.toLease) (reacked i d s) := by
  subst hm
  exact .cons (.ack (Or.inr rfl) hd) (leads_bound (s := (take dhcpAck d s).1) hs rfl)

theorem Leads.whenExpired {next : Result} (hs : s.Settled) (hm : s.macAddr = macAddr)
    (h : Leads macAddr s.abs next) : Leads macAddr s.abs (whenExpired i s next) := by
  rw [Dhcpc.whenExpired]
  split_ifs
  · exact h
  · exact .stay hs hm

theorem news_took {type : UInt8} {d : Datagram} (h : news i s = some (type, d))
    (hm : s.macAddr = macAddr) : Took macAddr type d := by
  obtain ⟨d', -, hd'⟩ := Option.bind_eq_some_iff.mp h
  obtain ⟨type', htype, heq⟩ := Option.map_eq_some_iff.mp hd'
  obtain ⟨rfl, rfl⟩ := Prod.mk.inj heq
  exact hm ▸ htype

theorem leads_handleDhcp (useAutoip : Bool) (hs : s.Settled) (hm : s.macAddr = macAddr) :
    Leads macAddr s.abs (handleDhcp useAutoip i s) := by
  have hsettled := hs
  rw [handleDhcp]
  cases hpt : s.pt with
  | init =>
    dsimp only
    split_ifs with hdisabled
    · exact .stay hs hm
    · have habs : s.abs = (.idle, s.toLease) := by
        rw [DhcpcState.abs, DhcpcState.stage, hpt]
        exact congrArg (·, s.toLease) (if_neg hdisabled)
      rw [habs]
      exact leads_initwait hdisabled hm
  | initwait =>
    have habs : s.abs = (.idle, s.toLease) := by rw [DhcpcState.abs, DhcpcState.stage, hpt]
    refine .whenExpired hs hm ?_
    rw [habs]
    exact leads_init (by decide) (by decide) hm
  | discovering =>
    have habs : s.abs = (.selecting, s.toLease) := by rw [DhcpcState.abs, DhcpcState.stage, hpt]
    rw [DhcpcState.Settled, hpt] at hsettled
    have hwait : Leads macAddr s.abs (whenExpired i s (rediscover useAutoip i s)) :=
      .whenExpired hs hm (habs ▸ leads_rediscover hsettled hm)
    cases hnews : news i s with
    | none => exact hwait
    | some r =>
      dsimp only
      split_ifs with htype
      · rw [habs]
        exact leads_offered (htype ▸ news_took hnews hm) hm
      · exact hwait
  | selecting =>
    have habs : s.abs = (.requesting, s.toLease) := by rw [DhcpcState.abs, DhcpcState.stage, hpt]
    rw [DhcpcState.Settled, hpt] at hsettled
    have hwait : Leads macAddr s.abs (whenExpired i s (rerequest i s)) :=
      .whenExpired hs hm (habs ▸ leads_rerequest hsettled hm)
    cases hnews : news i s with
    | none => exact hwait
    | some r =>
      dsimp only
      split_ifs with hack hnak
      · rw [habs]
        exact leads_acked (hack ▸ news_took hnews hm) (Or.inl rfl) hm
      · rw [habs]
        have hstate : s.state ≠ .disabled := by
          rw [hsettled]
          decide
        exact .cons (.nak (Or.inl rfl) (hnak ▸ news_took hnews hm)) (leads_initwait hstate hm)
      · exact hwait
  | bound =>
    have habs : s.abs = (.bound, s.toLease) := by rw [DhcpcState.abs, DhcpcState.stage, hpt]
    rw [DhcpcState.Settled, hpt] at hsettled
    exact .whenExpired hs hm (habs ▸ leads_boundWait hsettled hm)
  | renewing =>
    have habs : s.abs = (.bound, s.toLease) := by rw [DhcpcState.abs, DhcpcState.stage, hpt]
    rw [DhcpcState.Settled, hpt] at hsettled
    have hwait : Leads macAddr s.abs (whenExpired i s (rerenew i s)) :=
      .whenExpired hs hm (habs ▸ leads_rerenew hsettled hm)
    cases hnews : news i s with
    | none => exact hwait
    | some r =>
      dsimp only
      split_ifs with hack hnak
      · rw [habs]
        exact leads_reacked (hack ▸ news_took hnews hm) hsettled hm
      · rw [habs]
        exact .cons (.nak (Or.inr rfl) (hnak ▸ news_took hnews hm))
          (leads_init (by decide) (by decide) hm)
      · exact hwait

theorem leads_step (useAutoip : Bool) (e : Event) (hs : s.Settled) (hm : s.macAddr = macAddr) :
    Leads macAddr s.abs (step useAutoip s e) := by
  cases e with
  | start => exact ⟨⟨[(.started, (.idle, s.toLease))], rfl, .single .started⟩, trivial, hm⟩
  | stop => exact ⟨⟨[(.stopped, (.off, s.toLease))], rfl, .single .stopped⟩, trivial, hm⟩
  | appcall i => exact leads_handleDhcp useAutoip hs hm

theorem leads_run (useAutoip : Bool) (macAddr : MacAddr) (s : DhcpcState) (es : List Event) :
    Leads macAddr (.off, s.toLease) (run useAutoip (dhcpcInit macAddr s) es) := by
  induction es using List.reverseRecOn with
  | nil =>
    have hs : (dhcpcInit macAddr s).Settled := trivial
    exact .stay hs rfl
  | append_singleton es e ih =>
    rw [run_concat]
    obtain ⟨⟨ms, hms, hpath⟩, hs, hm⟩ := ih
    obtain ⟨⟨ms', hms', hpath'⟩, hs', hm'⟩ := leads_step useAutoip e hs hm
    exact ⟨⟨ms ++ ms', by rw [List.map_append, hms, hms'], hpath.append hpath'⟩, hs', hm'⟩

section Grants

variable {notes : List Note} {l l' : Lease} {ms : List (Note × (Stage × Lease))}

-- A lease is filled in by every offer and every acknowledgement that is taken.
def fill (macAddr : MacAddr) (l : Lease) : Note → Lease
  | .took type d => if type = dhcpNak then l else accepted macAddr d l
  | _ => l

def leaseAfter (macAddr : MacAddr) (l : Lease) (notes : List Note) : Lease :=
  notes.foldl (fill macAddr) l

def Granted (macAddr : MacAddr) (l0 : Lease) (notes : List Note) (l : Lease) : Prop :=
  ∃ before d, notes = before ++ [.took dhcpAck d] ∧ Took macAddr dhcpAck d ∧
    l = leaseAfter macAddr l0 notes

theorem Exchange.lease (h : Exchange macAddr q n q') : q'.2 = fill macAddr q.2 n := by
  cases h <;> rfl

theorem Exchange.acked (h : Exchange macAddr q n q') (hq : q'.1 = .acked) :
    ∃ d, n = .took dhcpAck d ∧ Took macAddr dhcpAck d := by
  cases h with
  | ack _ hd => exact ⟨_, rfl, hd⟩
  | _ => cases hq

theorem path_lease (h : Path (Exchange macAddr) q ms q') :
    q'.2 = leaseAfter macAddr q.2 (ms.map Prod.fst) := by
  induction h with
  | nil => rfl
  | cons hs _ ih =>
    rw [ih, hs.lease]
    rfl

theorem path_acked (h : Path (Exchange macAddr) q ms q') (hq : q.1 ≠ .acked)
    (hq' : q'.1 = .acked) : ∃ before d, ms.map Prod.fst = before ++ [.took dhcpAck d] ∧
      Took macAddr dhcpAck d := by
  rcases List.eq_nil_or_concat ms with rfl | ⟨ms, ⟨n, r⟩, rfl⟩
  · cases h
    exact absurd hq' hq
  · rw [List.concat_eq_append] at h ⊢
    obtain ⟨_, -, hs, hlast⟩ := h.split_cons
    cases hlast
    obtain ⟨d, rfl, hd⟩ := hs.acked hq'
    exact ⟨_, d, by rw [List.map_append]; rfl, hd⟩

theorem path_granted (h : Path (Exchange macAddr) (.off, l) ms q) {pre post : List Note}
    (hms : ms.map Prod.fst = pre ++ .configured l' :: post) : Granted macAddr l pre l' := by
  obtain ⟨ms₁, ms₂, rfl, rfl, hms₂⟩ := List.map_eq_append_iff.mp hms
  obtain ⟨⟨n, r⟩, ms₃, rfl, rfl, -⟩ := List.map_eq_cons_iff.mp hms₂
  obtain ⟨q', hpre, hs, -⟩ := h.split_cons
  cases hs
  obtain ⟨before, d, hbefore, hd⟩ := path_acked hpre (fun hoff => Stage.noConfusion hoff) rfl
  exact ⟨before, d, hbefore, hd, path_lease hpre⟩

end Grants

-- Every run is an exchange, and every lease that is used has been granted.
theorem exchange_run (useAutoip : Bool) (macAddr : MacAddr) (s : DhcpcState) (es : List Event) :
    (∃ ms q, ms.map Prod.fst = (run useAutoip (dhcpcInit macAddr s) es).2 ∧
      Path (Exchange macAddr) (.off, s.toLease) ms q) ∧
    ∀ pre l post, (run useAutoip (dhcpcInit macAddr s) es).2 = pre ++ .configured l :: post →
      Granted macAddr s.toLease pre l := by
  obtain ⟨ms, hms, hpath⟩ := (leads_run useAutoip macAddr s es).path
  exact ⟨⟨ms, _, hms, hpath⟩, fun pre l post heq => path_granted hpath (hms.trans heq)⟩

end Xtcp.Dhcpc
