import Xtcp.Library.Prefix
import Xtcp.Pip.Address.Steps

namespace Xtcp.Pip.Address

open Halfword Prefix

def Note.lease : Note → Option Lease
  | .leased lease => some lease
  | _ => none

def Note.request : Note → Option DhcpMessage
  | .builtDHCP m => some m
  | _ => none

def lastLease (log : List Note) : Option Lease := (log.filterMap Note.lease).getLast?

def lastRequest (log : List Note) : Option DhcpMessage := (log.filterMap Note.request).getLast?

-- The lease is due for a rebind at the end of its fuzz.
structure Stable (s : Host) : Prop where
  kept : ∀ lease, lastLease s.log = some lease → s.now < lease.rebind →
    s.myIP = lease.myIP ∧ s.mySubnetIP = lease.mySubnetIP ∧ s.myRouterIP = lease.myRouterIP
  asked : ∀ pre x post, s.log = pre ++ x :: post → ∀ lease, x = .leased lease →
    ∃ m, lastRequest pre = some m ∧ m.xid = lease.xid

-- An offer may only put the rebind off. An ARP packet may not be about the candidate.
def Settled (cfg : Config) (s : Host) : Event → Prop
  | .arp packet offset => s.dhcpState = .allocated → ¬Hit cfg (arpPacket packet offset) s
  | .dhcp packet offset length =>
    let messageType := (dhcpOptions cfg packet offset length).messageType
    Answers packet offset s →
      (messageType = 2 → s.dhcpState = .allocated → ∀ t, s.timeOut .dhcpT2 = some t →
        t ≤ wakeUp s.now 1 0 fuzz1s) ∧
      (messageType = 5 → (lastRequest s.log).isSome = true)
  | _ => True

structure Holds (s : Host) (lease : Lease) : Prop where
  allocated : s.dhcpState = .allocated
  myIP : s.myIP = lease.myIP
  mySubnetIP : s.mySubnetIP = lease.mySubnetIP
  myRouterIP : s.myRouterIP = lease.myRouterIP
  rebind : ∃ t, s.timeOut .dhcpT2 = some t ∧ lease.rebind ≤ t
  linkLocal : s.timeOut .linkLocal = none

structure Leasing (cfg : Config) (s : Host) : Prop where
  kept : ∀ lease, lastLease s.log = some lease → s.now < lease.rebind → Holds s lease
  asked : ∀ pre x post, s.log = pre ++ x :: post → ∀ lease, x = .leased lease →
    ∃ m, lastRequest pre = some m ∧ m.xid = lease.xid
  xid : ∀ m, lastRequest s.log = some m → m.xid = s.xid
  unlinked : cfg.linkLocal = false → s.timeOut .linkLocal = none

theorem Leasing.stable {cfg : Config} {s : Host} (h : Leasing cfg s) : Stable s where
  kept lease hlast hnow :=
    ⟨(h.kept lease hlast hnow).myIP, (h.kept lease hlast hnow).mySubnetIP,
      (h.kept lease hlast hnow).myRouterIP⟩
  asked := h.asked

section Logs

variable {log new : List Note}

theorem lastLease_append (h : ∀ lease, .leased lease ∉ new) :
    lastLease (log ++ new) = lastLease log := by
  have hnone : new.filterMap Note.lease = [] := by
    rw [List.filterMap_eq_nil_iff]
    intro x hx
    cases x with
    | leased lease => exact absurd hx (h lease)
    | _ => rfl
  rw [lastLease, List.filterMap_append, hnone, List.append_nil, lastLease]

theorem lastRequest_append (h : ∀ m, .builtDHCP m ∉ new) :
    lastRequest (log ++ new) = lastRequest log := by
  have hnone : new.filterMap Note.request = [] := by
    rw [List.filterMap_eq_nil_iff]
    intro x hx
    cases x with
    | builtDHCP m => exact absurd hx (h m)
    | _ => rfl
  rw [lastRequest, List.filterMap_append, hnone, List.append_nil, lastRequest]

theorem lastLease_concat (lease : Lease) : lastLease (log ++ [.leased lease]) = some lease := by
  simp [lastLease, Note.lease]

theorem lastRequest_concat (m : DhcpMessage) :
    lastRequest (log ++ [.builtDHCP m]) = some m := by
  simp [lastRequest, Note.request]

end Logs

section Steps

variable {cfg : Config} {s s' : Host}

theorem Leasing.frame (h : Leasing cfg s) (new : List Note) (hlog : s'.log = s.log ++ new)
    (hnew : ∀ lease, .leased lease ∉ new) (hnow : s.now ≤ s'.now)
    (hxid : ∀ m, lastRequest s'.log = some m → m.xid = s'.xid)
    (hunlinked : cfg.linkLocal = false → s'.timeOut .linkLocal = none)
    (hholds : ∀ lease, Holds s lease → s'.now < lease.rebind → Holds s' lease) :
    Leasing cfg s' where
  kept lease hlast hlt := by
    rw [hlog, lastLease_append hnew] at hlast
    exact hholds lease (h.kept lease hlast (Nat.lt_of_le_of_lt hnow hlt)) hlt
  asked := by
    rw [hlog]
    refine forall_split_append (C := fun pre x => ∀ lease, x = .leased lease →
      ∃ m, lastRequest pre = some m ∧ m.xid = lease.xid) h.asked ?_
    rintro pre x post rfl lease rfl
    exact absurd (by simp) (hnew lease)
  xid := hxid
  unlinked := hunlinked

theorem Leasing.quiet (h : Leasing cfg s) (new : List Note) (hlog : s'.log = s.log ++ new)
    (hnew : ∀ lease, .leased lease ∉ new) (hrequest : ∀ m, .builtDHCP m ∉ new)
    (hnow : s.now ≤ s'.now) (hxid : s'.xid = s.xid)
    (hunlinked : cfg.linkLocal = false → s'.timeOut .linkLocal = none)
    (hholds : ∀ lease, Holds s lease → s'.now < lease.rebind → Holds s' lease) :
    Leasing cfg s' :=
  h.frame new hlog hnew hnow (by rw [hlog, lastRequest_append hrequest, hxid]; exact h.xid)
    hunlinked hholds

theorem Leasing.ask {m : DhcpMessage} (h : Leasing cfg s)
    (hlog : s'.log = s.log ++ [.builtDHCP m])
    (hnow : s'.now = s.now) (hm : m.xid = s'.xid)
    (hunlinked : cfg.linkLocal = false → s'.timeOut .linkLocal = none)
    (hholds : ∀ lease, Holds s lease → s'.now < lease.rebind → Holds s' lease) :
    Leasing cfg s' := by
  refine h.frame [.builtDHCP m] hlog (by simp) (Nat.le_of_eq hnow.symm) (fun m' hm' => ?_)
    hunlinked hholds
  rw [hlog, lastRequest_concat] at hm'
  obtain rfl := Option.some.inj hm'
  exact hm

structure Kept (s s' : Host) : Prop where
  dhcpState : s'.dhcpState = s.dhcpState
  myIP : s'.myIP = s.myIP
  mySubnetIP : s'.mySubnetIP = s.mySubnetIP
  myRouterIP : s'.myRouterIP = s.myRouterIP
  dhcpT2 : s'.timeOut .dhcpT2 = s.timeOut .dhcpT2
  linkLocal : s'.timeOut .linkLocal = s.timeOut .linkLocal

theorem Holds.keep {lease : Lease} (h : Holds s lease) (hkept : Kept s s') : Holds s' lease where
  allocated := hkept.dhcpState.trans h.allocated
  myIP := hkept.myIP.trans h.myIP
  mySubnetIP := hkept.mySubnetIP.trans h.mySubnetIP
  myRouterIP := hkept.myRouterIP.trans h.myRouterIP
  rebind := hkept.dhcpT2 ▸ h.rebind
  linkLocal := hkept.linkLocal.trans h.linkLocal

theorem Leasing.keep (h : Leasing cfg s) (new : List Note) (hkept : Kept s s')
    (hlog : s'.log = s.log ++ new) (hnew : ∀ lease, .leased lease ∉ new)
    (hrequest : ∀ m, .builtDHCP m ∉ new) (hnow : s.now ≤ s'.now) (hxid : s'.xid = s.xid) :
    Leasing cfg s' :=
  h.quiet new hlog hnew hrequest hnow hxid (fun hnone => hkept.linkLocal.trans (h.unlinked hnone))
    fun _ hholds _ => hholds.keep hkept

theorem setTimeOut_self (timer : Timer) (secs tens fuzz : Nat) (s : Host) :
    (pipSetTimeOut timer secs tens fuzz s).timeOut timer = some (wakeUp s.now secs tens fuzz) :=
  Function.update_self ..

theorem setTimeOut_ne {timer other : Timer} (h : other ≠ timer) (secs tens fuzz : Nat) (s : Host) :
    (pipSetTimeOut timer secs tens fuzz s).timeOut other = s.timeOut other :=
  Function.update_of_ne h _ _

theorem kept_setTimeOut (timer : Timer) (hT2 : timer ≠ .dhcpT2) (hlink : timer ≠ .linkLocal)
    (secs tens fuzz : Nat) (h : Kept s s') : Kept s (pipSetTimeOut timer secs tens fuzz s') :=
  ⟨h.dhcpState, h.myIP, h.mySubnetIP, h.myRouterIP,
    (setTimeOut_ne hT2.symm _ _ _ _).trans h.dhcpT2,
    (setTimeOut_ne hlink.symm _ _ _ _).trans h.linkLocal⟩

theorem reset_apply_ne {timer other : Timer} (s : Host) (h : other ≠ timer) :
    (pipResetTimeOut timer s).timeOut other = s.timeOut other := Function.update_of_ne h _ _

theorem Leasing.reset (h : Leasing cfg s) (timer : Timer) (htimer : timer ≠ .dhcpT2) :
    Leasing cfg (pipResetTimeOut timer s) := by
  have hnone : s.timeOut .linkLocal = none →
      (pipResetTimeOut timer s).timeOut .linkLocal = none := by
    intro hnone
    show Function.update s.timeOut timer none .linkLocal = none
    rw [Function.update_apply, hnone]
    split <;> rfl
  refine h.quiet [] (List.append_nil _).symm (fun _ hx => nomatch hx)
    (fun _ hx => nomatch hx) (Nat.le_refl _) rfl (fun hlink => hnone (h.unlinked hlink))
    fun lease hholds _ => ?_
  refine ⟨hholds.allocated, hholds.myIP, hholds.mySubnetIP, hholds.myRouterIP, ?_,
    hnone hholds.linkLocal⟩
  rw [reset_apply_ne s htimer.symm]
  exact hholds.rebind

theorem timeOutLinkLocal_log (cfg : Config) (s : Host) : ∃ new,
    (pipTimeOutLinkLocal cfg s).log = s.log ++ new ∧ (∀ lease, .leased lease ∉ new) ∧
      (∀ m, .builtDHCP m ∉ new) ∧ (pipTimeOutLinkLocal cfg s).now = s.now ∧
      (pipTimeOutLinkLocal cfg s).xid = s.xid := by
  unfold pipTimeOutLinkLocal
  cases s.linkState with
  | waiting => exact ⟨[.builtARP _], rfl, by simp, by simp, rfl, rfl⟩
  | probedOnce => exact ⟨[.builtARP _], rfl, by simp, by simp, rfl, rfl⟩
  | probedTwice => exact ⟨[.builtARP _], rfl, by simp, by simp, rfl, rfl⟩
  | probedThrice =>
    exact ⟨[.claimed _, .builtARP _], List.append_assoc _ _ _, by simp, by simp, rfl, rfl⟩
  | announcedOnce =>
    exact ⟨[.claimed _, .builtARP _], List.append_assoc _ _ _, by simp, by simp, rfl, rfl⟩
  | announcedTwice => exact ⟨[.claimed _], rfl, by simp, by simp, rfl, rfl⟩
  | gotIt => exact ⟨[], (List.append_nil _).symm, by simp, by simp, rfl, rfl⟩

theorem Leasing.timeOutLinkLocal (h : Leasing cfg s) (hdue : s.due .linkLocal = true) :
    Leasing cfg (pipTimeOutLinkLocal cfg (pipResetTimeOut .linkLocal s)) := by
  have harmed := due_isSome hdue
  obtain ⟨new, hlog, hlease, hrequest, hnow, hxid⟩ :=
    timeOutLinkLocal_log cfg (pipResetTimeOut .linkLocal s)
  refine h.quiet new hlog hlease hrequest (Nat.le_of_eq hnow.symm) hxid (fun hlink => ?_)
    fun lease hholds _ => ?_
  · rw [h.unlinked hlink] at harmed
    exact nomatch harmed
  · rw [hholds.linkLocal] at harmed
    exact nomatch harmed

-- What the expiry of T2 adds: that a lease is over, the request, and a new candidate.
structure Restarted (cfg : Config) (s s' : Host) : Prop where
  log : ∃ pre m post, s'.log = s.log ++ pre ++ [.builtDHCP m] ++ post ∧ m.xid = s'.xid ∧
    (∀ x ∈ pre, x = .dropped) ∧ ∀ x ∈ post, ∃ r, x = .chose r
  now : s'.now = s.now
  linkLocal : cfg.linkLocal = false → s'.timeOut .linkLocal = s.timeOut .linkLocal

theorem discovered_restarted (cfg : Config) (s : Host) : Restarted cfg s (discovered s) := by
  have hreleased : (∃ pre, (released s).log = s.log ++ pre ∧ ∀ x ∈ pre, x = .dropped) ∧
      (released s).now = s.now ∧ (released s).timeOut .linkLocal = s.timeOut .linkLocal := by
    rcases released_cases s with ⟨-, heq⟩ | heq
    · rw [heq]
      exact ⟨⟨[], (List.append_nil _).symm, by simp⟩, rfl, rfl⟩
    · rw [heq]
      exact ⟨⟨[.dropped], rfl, by simp⟩, rfl, rfl⟩
  obtain ⟨⟨pre, hpre, hdropped⟩, hnow, htimeOut⟩ := hreleased
  refine ⟨⟨pre, ⟨true, (released s).xid, 0, 0⟩, [], ?_, rfl, hdropped, by simp⟩, hnow,
    fun _ => htimeOut⟩
  rw [← hpre, List.append_nil]
  rfl

theorem Restarted.restarted {cfg : Config} {s s' : Host} (h : Restarted cfg s s') :
    Restarted cfg s (restarted cfg s') := by
  unfold Address.restarted
  split
  next hlink =>
    rcases initLinkLocal_eq cfg s' with heq | ⟨-, random, r, t, -, heq⟩
    · rwa [heq]
    · rw [heq]
      obtain ⟨pre, m, post, hlog, hxid, hpre, hpost⟩ := h.log
      refine ⟨⟨pre, m, post ++ [.chose r], ?_, hxid, hpre, fun x hx => ?_⟩, h.now, fun hnone => ?_⟩
      · rw [← List.append_assoc, ← hlog]
      · rcases List.mem_append.mp hx with hx | hx
        · exact hpost x hx
        · exact ⟨r, List.mem_singleton.mp hx⟩
      · rw [hlink.1] at hnone
        exact nomatch hnone
  next => exact h

theorem Leasing.timeOutDHCPT2 (h : Leasing cfg s) (hdue : s.due .dhcpT2 = true) :
    Leasing cfg (pipTimeOutDHCPT2 cfg (pipResetTimeOut .dhcpT2 s)) := by
  have hall := (discovered_restarted cfg (pipResetTimeOut .dhcpT2 s)).restarted
  obtain ⟨pre, m, post, hlog, hxid, hpre, hpost⟩ := hall.log
  rw [timeOutDHCPT2_eq]
  refine h.frame (pre ++ [.builtDHCP m] ++ post) ?_ (fun lease hlease => ?_)
    (Nat.le_of_eq hall.now.symm) (fun m' hm' => ?_) (fun hnone => ?_) fun lease hholds hnow => ?_
  · rw [← List.append_assoc, ← List.append_assoc]
    exact hlog
  · rcases List.mem_append.mp hlease with hlease | hlease
    · rcases List.mem_append.mp hlease with hlease | hlease
      · exact nomatch hpre _ hlease
      · exact nomatch List.mem_singleton.mp hlease
    · obtain ⟨r, hr⟩ := hpost _ hlease
      exact nomatch hr
  · have hlast : lastRequest (s.log ++ pre ++ [.builtDHCP m] ++ post) = some m := by
      rw [lastRequest_append, lastRequest_concat]
      intro m hm
      obtain ⟨r, hr⟩ := hpost _ hm
      exact nomatch hr
    have hm : lastRequest (s.log ++ pre ++ [.builtDHCP m] ++ post) = some m' := hlog ▸ hm'
    obtain rfl := Option.some.inj (hlast.symm.trans hm)
    exact hxid
  · exact (hall.linkLocal hnone).trans ((reset_apply_ne s (by decide)).trans (h.unlinked hnone))
  · obtain ⟨t, ht, hle⟩ := hholds.rebind
    have hpast := due_le hdue ht
    have hsame : (restarted cfg (discovered (pipResetTimeOut .dhcpT2 s))).now = s.now := hall.now
    have hlt : (restarted cfg (discovered (pipResetTimeOut .dhcpT2 s))).now < lease.rebind := hnow
    omega

theorem Leasing.expire (h : Leasing cfg s) (timer : Timer) :
    Leasing cfg (step cfg s (.expire timer)) := by
  unfold step
  dsimp only
  split
  next hdue =>
    cases timer with
    | dhcpT1 =>
      have hreset : Leasing cfg (pipResetTimeOut .dhcpT1 s) := h.reset .dhcpT1 (by decide)
      exact hreset.ask (m := ⟨false, s.xid, s.myIP, s.serverIP⟩) rfl rfl rfl hreset.unlinked
        fun lease hholds _ => hholds.keep ⟨rfl, rfl, rfl, rfl, rfl, rfl⟩
    | dhcpT2 => exact h.timeOutDHCPT2 hdue
    | arp =>
      exact (h.reset .arp (by decide)).keep []
        (kept_setTimeOut .arp (by decide) (by decide) 1 0 0 ⟨rfl, rfl, rfl, rfl, rfl, rfl⟩)
        (List.append_nil _).symm (by simp) (by simp) (Nat.le_refl _) rfl
    | linkLocal => exact h.timeOutLinkLocal hdue
  next => exact h

theorem Leasing.heard (h : Leasing cfg s) {packet : Bytes} {offset : Nat}
    (hsettled : Settled cfg s (.arp packet offset)) :
    Leasing cfg (step cfg s (.arp packet offset)) := by
  show Leasing cfg (incomingARP cfg (arpPacket packet offset)
    (s.note [.heard (arpPacket packet offset)]))
  have hsettled : s.dhcpState = .allocated → ¬Hit cfg (arpPacket packet offset) s := hsettled
  generalize arpPacket packet offset = p at hsettled ⊢
  have hstep := incomingARP_arp cfg p (s.note [.heard p])
  generalize incomingARP cfg p (s.note [.heard p]) = s' at hstep ⊢
  cases hstep with
  | hit hhit =>
    obtain ⟨random, r, conflicts, t, -, heq⟩ := conflict_eq cfg (s.note [.heard p])
    rw [heq]
    refine h.quiet [.heard p, .dropped, .chose r] ?_ (by simp) (by simp) (Nat.le_refl _)
      rfl (fun hnone => ?_) fun lease hholds _ => ?_
    · simp [Host.note]
    · rw [hhit.1] at hnone
      exact nomatch hnone
    · exact absurd hhit (hsettled hholds.allocated)
  | answered table hnot hreq htpa =>
    exact h.keep [.heard p, .builtARP (answer cfg p s)] ⟨rfl, rfl, rfl, rfl, rfl, rfl⟩
      (List.append_assoc _ _ _) (by simp) (by simp) (Nat.le_refl _) rfl
  | passed table hnot hother =>
    exact h.keep [.heard p] ⟨rfl, rfl, rfl, rfl, rfl, rfl⟩ rfl (by simp) (by simp)
      (Nat.le_refl _) rfl

theorem Leasing.offer (h : Leasing cfg s) (proposedIP serverIP : Word)
    (hlate : s.dhcpState = .allocated → ∀ t, s.timeOut .dhcpT2 = some t →
      t ≤ wakeUp s.now 1 0 fuzz1s) :
    Leasing cfg (dhcpOffer proposedIP { s with serverIP := serverIP }) := by
  have hset (other : Timer) (hother : other ≠ .dhcpT2) :
      (dhcpOffer proposedIP { s with serverIP := serverIP }).timeOut other = s.timeOut other :=
    Function.update_of_ne hother _ _
  refine h.ask (m := ⟨false, s.xid, proposedIP, serverIP⟩) rfl rfl rfl (fun hnone => ?_)
    fun lease hholds _ => ?_
  · rw [hset _ (by decide)]
    exact h.unlinked hnone
  · obtain ⟨t, ht, hle⟩ := hholds.rebind
    have hself : (dhcpOffer proposedIP { s with serverIP := serverIP }).timeOut .dhcpT2 =
        some (wakeUp s.now 1 0 fuzz1s) := setTimeOut_self .dhcpT2 1 0 fuzz1s _
    refine ⟨hholds.allocated, hholds.myIP, hholds.mySubnetIP, hholds.myRouterIP,
      ⟨_, hself, Nat.le_trans hle (hlate hholds.allocated t ht)⟩, ?_⟩
    rw [hset _ (by decide)]
    exact hholds.linkLocal

theorem Leasing.ack (h : Leasing cfg s) (proposedIP serverIP : Word) (o : Options)
    (hasked : (lastRequest s.log).isSome = true) :
    Leasing cfg (dhcpAck cfg proposedIP o { s with serverIP := serverIP }) := by
  obtain ⟨lease, hlease⟩ : ∃ lease : Lease, lease =
    ⟨s.xid, proposedIP, o.subnet, o.router, wakeUp s.now o.rebind.toNat 0 fuzz1s⟩ := ⟨_, rfl⟩
  obtain ⟨s', hs'⟩ : ∃ s', s' = dhcpAck cfg proposedIP o { s with serverIP := serverIP } :=
    ⟨_, rfl⟩
  have hlog : s'.log = s.log ++ [.leased lease] := by
    rw [hs', hlease, dhcpAck]
    split <;> rfl
  have hlink : s'.timeOut .linkLocal = none := by
    rw [hs', dhcpAck]
    split
    next => simp [pipAssignIPv4, pipSetTimeOut, pipDisableLinkLocal, pipResetTimeOut, Host.note]
    next hnot =>
      have hnone := h.unlinked (by simpa using hnot)
      simpa [pipAssignIPv4, pipSetTimeOut, Host.note] using hnone
  have hxid : s'.xid = s.xid := by
    rw [hs', dhcpAck]
    split <;> rfl
  have hholds : Holds s' lease := by
    have hset : s'.timeOut .dhcpT2 = some lease.rebind := by
      rw [hs', hlease, dhcpAck]
      split
      · exact setTimeOut_self .dhcpT2 o.rebind.toNat 0 fuzz1s (pipSetTimeOut .dhcpT1 _ _ _ _)
      · exact setTimeOut_self .dhcpT2 o.rebind.toNat 0 fuzz1s (pipSetTimeOut .dhcpT1 _ _ _ _)
    exact ⟨by rw [hs']; rfl, by rw [hs', hlease]; rfl, by rw [hs', hlease]; rfl,
      by rw [hs', hlease]; rfl, ⟨_, hset, Nat.le_refl _⟩, hlink⟩
  rw [← hs']
  refine ⟨fun lease' hlast _ => ?_, ?_, fun m hm => ?_, fun _ => hlink⟩
  · rw [hlog, lastLease_concat] at hlast
    obtain rfl := Option.some.inj hlast
    exact hholds
  · rw [hlog]
    intro pre x post heq lease' hx
    rcases split_concat heq with ⟨post', hpost⟩ | ⟨hlast, rfl⟩
    · exact h.asked pre x post' hpost lease' hx
    · obtain ⟨m, hm⟩ := Option.isSome_iff_exists.mp hasked
      obtain rfl := Note.leased.inj (hx.symm.trans hlast)
      exact ⟨m, hm, (h.xid m hm).trans (by rw [hlease])⟩
  · rw [hlog, lastRequest_append (by simp)] at hm
    rw [hxid]
    exact h.xid m hm

theorem Leasing.dhcp (h : Leasing cfg s) {packet : Bytes} {offset : Nat} {length : Int}
    (hsettled : Settled cfg s (.dhcp packet offset length)) :
    Leasing cfg (step cfg s (.dhcp packet offset length)) := by
  unfold step
  dsimp only
  split
  · have hstep := incomingDHCP_dhcp cfg packet offset length s
    generalize pipIncomingDHCP cfg packet offset length s = s' at hstep ⊢
    cases hstep with
    | dropped _ => exact h
    | offer serverIP hanswers htype => exact h.offer _ _ ((hsettled hanswers).1 htype)
    | ack serverIP hanswers htype => exact h.ack _ _ _ ((hsettled hanswers).2 htype)
    | other serverIP =>
      exact h.keep [] ⟨rfl, rfl, rfl, rfl, rfl, rfl⟩ (List.append_nil _).symm (by simp)
        (by simp) (Nat.le_refl _) rfl
  · exact h

theorem leasing_step (h : Leasing cfg s) {e : Event} (hsettled : Settled cfg s e) :
    Leasing cfg (step cfg s e) := by
  cases e with
  | wait ticks =>
    exact h.keep [] ⟨rfl, rfl, rfl, rfl, rfl, rfl⟩ (List.append_nil _).symm (by simp)
      (by simp) (Nat.le_add_right _ _) rfl
  | expire timer => exact h.expire timer
  | arp packet offset => exact h.heard hsettled
  | dhcp packet offset length => exact h.dhcp hsettled

theorem leasing_run (h : Leasing cfg s) {es : List Event}
    (hsettled : Along (step cfg) (Settled cfg) s es) : Leasing cfg (run cfg s es) := by
  induction es generalizing s with
  | nil => exact h
  | cons e es ih => exact ih (leasing_step h hsettled.1) hsettled.2

theorem leasing_powerOn (now : Nat) : Leasing cfg (pipInitARP (powerOn now)) where
  kept lease hlast := nomatch hlast
  asked pre x post heq := by simp [pipInitARP, pipSetTimeOut, powerOn] at heq
  xid m hm := nomatch hm
  unlinked _ := setTimeOut_ne (by decide : Timer.linkLocal ≠ .arp) 1 0 0 _

theorem Leasing.initDHCP (h : Leasing cfg s) (hnone : lastLease s.log = none)
    (secs tens fuzz : Nat) : Leasing cfg (pipSetTimeOut .dhcpT2 secs tens fuzz s) where
  kept lease hlast := by
    have heq : none = some lease := hnone.symm.trans hlast
    exact nomatch heq
  asked := h.asked
  xid := h.xid
  unlinked hlink := (setTimeOut_ne (by decide) secs tens fuzz s).trans (h.unlinked hlink)

theorem leasing_init (now : Nat) : Leasing cfg (init cfg now) := by
  have h : Leasing cfg (pipInitARP (powerOn now)) := leasing_powerOn now
  unfold init
  dsimp only
  split
  · unfold pipInitDHCP
    split
    · exact h.initDHCP rfl 3 0 0
    · exact h.initDHCP rfl 1 0 fuzz10s
  · split
    next hlink =>
      rcases initLinkLocal_eq cfg (pipInitARP (powerOn now)) with heq | ⟨-, random, r, t, -, heq⟩
      · rwa [heq]
      · rw [heq]
        refine h.quiet [.chose r] rfl (by simp) (by simp) (Nat.le_refl _) rfl (fun hnone => ?_)
          fun lease hholds _ => ?_
        · rw [hlink] at hnone
          exact nomatch hnone
        · exact nomatch hholds.allocated
    next => exact h

end Steps

def dhcpOnly : Config := { linkLocalOnly with linkLocal := false, dhcp := true }

-- The answers to a request of one second after the start: a lease of an hour.
def dhcpPacket (messageType : BitVec 8) : Bytes := fun i =>
  if i < 8 then [0, 0, 0, 0, 0x00, 0xE1, 0xF5, 0x05].getD i 0
  else if i < 20 then [192, 168, 1, 50].getD (i - 16) 0
  else if i < 236 then 0
  else [0x63, 0x82, 0x53, 0x63, 0x35, 1, messageType, 0x33, 4, 0, 0, 0x0E, 0x10, 255].getD
    (i - 236) 0

def leased : List Event :=
  [.wait 100000000, .expire .dhcpT2, .dhcp (dhcpPacket 2) 0 250, .dhcp (dhcpPacket 5) 0 250]

end Xtcp.Pip.Address
