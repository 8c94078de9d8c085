import Xtcp.Library.Prefix
import Xtcp.Pip.Address.Steps

namespace Xtcp.Pip.Address

open Halfword Prefix

def probe (cfg : Config) (r : Word) : ArpMessage := ⟨false, cfg.mac, 0, noMac, r, broadcast⟩

-- A packet that says the address is in use, or about to be.
def Adverse (cfg : Config) (r : Word) (p : ArpPacket) : Prop :=
  ((p.oper = request ∨ p.oper = reply) ∧ p.sha ≠ cfg.mac ∧ p.spa = r) ∨
    (p.oper = request ∧ p.spa = 0 ∧ p.tpa = r)

def sinceStep (o : Option (Word × List Note)) : Note → Option (Word × List Note)
  | .chose r => some (r, [])
  | x => o.map fun c => (c.1, c.2 ++ [x])

-- The candidate and what was noted since it was chosen.
def since (log : List Note) : Option (Word × List Note) := log.foldl sinceStep none

def heldStep (o : Option Word) : Note → Option Word
  | .claimed r => some r
  | .leased _ => none
  | .dropped => none
  | _ => o

-- The address that pipTimeOutLinkLocal has set and that stands.
def held (log : List Note) : Option Word := log.foldl heldStep none

structure Tested (cfg : Config) (r : Word) (n : Nat) (log : List Note) : Prop where
  chosen : ∃ notes, since log = some (r, notes) ∧
    n ≤ notes.count (.builtARP (probe cfg r)) ∧ ∀ p, .heard p ∈ notes → ¬Adverse cfg r p

structure Claiming (cfg : Config) (now : Nat) (es : List Event) : Prop where
  tested : ∀ pre x post, (run cfg (init cfg now) es).log = pre ++ x :: post →
    ∀ r, x = .claimed r → Tested cfg r 3 pre
  yields : ∀ pre packet offset r, pre ++ [.arp packet offset] <+: es →
    held (run cfg (init cfg now) pre).log = some r → Adverse cfg r (arpPacket packet offset) →
    (run cfg (init cfg now) (pre ++ [.arp packet offset])).myIP ≠ r

-- A candidate is being probed, or it is ours.
def Live (s : Host) : Prop :=
  (s.timeOut .linkLocal).isSome = true ∨ s.linkState.claimed = true

-- A request of another host that names the candidate as its sender asks for it too.
def Meets (cfg : Config) (s : Host) : Event → Prop
  | .arp packet offset =>
    let p := arpPacket packet offset
    Live s → p.oper = request → p.sha ≠ cfg.mac → p.spa = s.randomIPAddress →
      p.tpa = s.randomIPAddress
  | _ => True

def LinkState.probes : LinkState → Nat
  | .waiting => 0
  | .probedOnce => 1
  | .probedTwice => 2
  | _ => 3

structure Sound (cfg : Config) (s : Host) : Prop where
  linked : Live s → cfg.linkLocal = true
  tested : ∀ pre x post, s.log = pre ++ x :: post → ∀ r, x = .claimed r → Tested cfg r 3 pre
  fresh : Live s → s.randomIPAddress ≠ 0 ∧
    Tested cfg s.randomIPAddress s.linkState.probes s.log
  stands : ∀ r, held s.log = some r →
    s.linkState.claimed = true ∧ r = s.randomIPAddress ∧ s.myIP = r
  zero : s.linkState.claimed = false →
    (s.dhcpState ≠ .allocated ∨ (s.timeOut .linkLocal).isSome = true) → s.myIP = 0

section Notes

variable {cfg : Config} {log new : List Note} {r : Word} {n : Nat}

theorem since_append (h : ∀ r, .chose r ∉ new) {notes : List Note}
    (hs : since log = some (r, notes)) : since (log ++ new) = some (r, notes ++ new) := by
  induction new generalizing log notes with
  | nil => rwa [List.append_nil, List.append_nil]
  | cons x new ih =>
    have hx : since (log ++ [x]) = some (r, notes ++ [x]) := by
      rw [since, List.foldl_concat, ← since, hs]
      cases x with
      | chose r => exact absurd List.mem_cons_self (h r)
      | _ => rfl
    have hrest := ih (fun r hr => h r (List.mem_cons_of_mem x hr)) hx
    simpa using hrest

theorem since_chose (log : List Note) (r : Word) : since (log ++ [.chose r]) = some (r, []) := by
  rw [since, List.foldl_concat]
  rfl

-- Neither sets myIP nor chooses a candidate.
def Note.plain : Note → Bool
  | .heard _ | .builtARP _ | .builtDHCP _ => true
  | _ => false

def Plain (new : List Note) : Prop := ∀ x ∈ new, x.plain = true

theorem held_concat (log : List Note) (x : Note) : held (log ++ [x]) = heldStep (held log) x :=
  List.foldl_concat ..

theorem held_append (h : Plain new) : held (log ++ new) = held log := by
  induction new generalizing log with
  | nil => rw [List.append_nil]
  | cons x new ih =>
    have hx : held (log ++ [x]) = held log := by
      rw [held_concat]
      have hplain := h x List.mem_cons_self
      cases x with
      | heard p => rfl
      | builtARP m => rfl
      | builtDHCP m => rfl
      | _ => exact nomatch hplain
    rw [List.append_cons, ih fun y hy => h y (List.mem_cons_of_mem x hy), hx]

theorem Tested.append (h : Tested cfg r n log) (hchose : ∀ r, .chose r ∉ new)
    (hheard : ∀ p, .heard p ∈ new → ¬Adverse cfg r p) : Tested cfg r n (log ++ new) := by
  obtain ⟨notes, hsince, hcount, hnone⟩ := h.chosen
  refine ⟨notes ++ new, since_append hchose hsince, ?_, ?_⟩
  · rw [List.count_append]
    omega
  · intro p hp
    rcases List.mem_append.mp hp with hp | hp
    · exact hnone p hp
    · exact hheard p hp

theorem Tested.mono {m : Nat} (h : Tested cfg r n log) (hm : m ≤ n) : Tested cfg r m log := by
  obtain ⟨notes, hsince, hcount, hnone⟩ := h.chosen
  exact ⟨notes, hsince, Nat.le_trans hm hcount, hnone⟩

theorem Tested.probed (h : Tested cfg r n log) :
    Tested cfg r (n + 1) (log ++ [.builtARP (probe cfg r)]) := by
  obtain ⟨notes, hsince, hcount, hnone⟩ := h.chosen
  refine ⟨notes ++ [.builtARP (probe cfg r)], since_append (by simp) hsince, ?_, ?_⟩
  · rw [List.count_append, List.count_singleton_self]
    omega
  · intro p hp
    exact hnone p (by simpa using hp)

theorem tested_chose (log : List Note) (r : Word) : Tested cfg r 0 (log ++ [.chose r]) :=
  ⟨[], since_chose log r, Nat.zero_le _, fun _ hp => absurd hp List.not_mem_nil⟩

theorem tested_append (hlog : ∀ pre x post, log = pre ++ x :: post →
      ∀ r, x = .claimed r → Tested cfg r 3 pre) (hnew : ∀ r, .claimed r ∉ new) :
    ∀ pre x post, log ++ new = pre ++ x :: post → ∀ r, x = .claimed r → Tested cfg r 3 pre := by
  refine forall_split_append (C := fun pre x => ∀ r, x = .claimed r → Tested cfg r 3 pre) hlog ?_
  rintro pre x post rfl r rfl
  exact absurd (by simp) (hnew r)

end Notes

section Steps

variable {cfg : Config} {s s' : Host}

structure Same (s s' : Host) : Prop where
  myIP : s'.myIP = s.myIP
  randomIPAddress : s'.randomIPAddress = s.randomIPAddress
  linkState : s'.linkState = s.linkState
  dhcpState : s'.dhcpState = s.dhcpState
  timeOut : s'.timeOut .linkLocal = s.timeOut .linkLocal

theorem Same.live (h : Same s s') : Live s' ↔ Live s := by
  unfold Live
  rw [h.timeOut, h.linkState]

theorem Sound.plain (h : Sound cfg s) (new : List Note) (hsame : Same s s')
    (hlog : s'.log = s.log ++ new) (hplain : Plain new)
    (hheard : ∀ p, .heard p ∈ new → Live s → ¬Adverse cfg s.randomIPAddress p) :
    Sound cfg s' where
  linked hlive := h.linked (hsame.live.mp hlive)
  tested := hlog ▸ tested_append h.tested fun r hr => nomatch hplain _ hr
  fresh hlive := by
    have hlive := hsame.live.mp hlive
    obtain ⟨hne, htested⟩ := h.fresh hlive
    rw [hsame.randomIPAddress, hsame.linkState, hlog]
    exact ⟨hne, htested.append (fun r hr => nomatch hplain _ hr) fun p hp => hheard p hp hlive⟩
  stands r hr := by
    rw [hlog, held_append hplain] at hr
    rw [hsame.linkState, hsame.randomIPAddress, hsame.myIP]
    exact h.stands r hr
  zero := by
    rw [hsame.linkState, hsame.dhcpState, hsame.timeOut, hsame.myIP]
    exact h.zero

theorem same_setTimeOut (timer : Timer) (htimer : timer ≠ .linkLocal) (secs tens fuzz : Nat)
    (h : Same s s') : Same s (pipSetTimeOut timer secs tens fuzz s') :=
  ⟨h.myIP, h.randomIPAddress, h.linkState, h.dhcpState,
    (Function.update_of_ne htimer.symm _ _).trans h.timeOut⟩

theorem Sound.same (h : Sound cfg s) (hsame : Same s s') (hlog : s'.log = s.log) :
    Sound cfg s' :=
  h.plain [] hsame (by rw [hlog, List.append_nil]) (fun _ hx => nomatch hx)
    fun _ hx => nomatch hx

theorem Sound.conflict (h : Sound cfg s) (hlink : cfg.linkLocal = true) (p : ArpPacket) :
    Sound cfg (conflict cfg (s.note [.heard p])) := by
  obtain ⟨random, r, conflicts, t, hr, heq⟩ := conflict_eq cfg (s.note [.heard p])
  have hheard : ∀ r, .claimed r ∉ [Note.heard p] := by simp
  have htested := tested_append h.tested hheard
  rw [heq]
  refine ⟨fun _ => hlink, tested_append (tested_append htested (by simp)) (by simp),
    fun _ => ⟨hr, tested_chose _ _⟩, fun r' hr' => ?_, fun _ _ => rfl⟩
  rw [held_concat, held_concat] at hr'
  exact nomatch hr'

theorem Sound.initLinkLocal (h : Sound cfg s) (hlink : cfg.linkLocal = true)
    (hzero : s.linkState = .waiting → s.myIP = 0) : Sound cfg (pipInitLinkLocal cfg s) := by
  rcases initLinkLocal_eq cfg s with heq | ⟨hwaiting, random, r, t, hr, heq⟩
  · rw [heq]
    exact h
  · have hprobes : s.linkState.probes = 0 := by rw [hwaiting]; rfl
    rw [heq]
    refine ⟨fun _ => hlink, tested_append h.tested (by simp), fun _ => ⟨hr, ?_⟩, fun r' hr' => ?_,
      fun _ _ => hzero hwaiting⟩
    · show Tested cfg r s.linkState.probes (s.log ++ [.chose r])
      rw [hprobes]
      exact tested_chose _ _
    · rw [held_concat] at hr'
      have hclaimed := (h.stands r' hr').1
      rw [hwaiting] at hclaimed
      exact nomatch hclaimed

theorem Sound.probed (h : Sound cfg s) (harmed : (s.timeOut .linkLocal).isSome = true)
    {newState : LinkState} (hold : s.linkState.claimed = false)
    (hprobes : newState.probes ≤ s.linkState.probes + 1) (wait fuzz : Nat) :
    Sound cfg (progressState cfg newState wait fuzz (pipResetTimeOut .linkLocal s)) := by
  have hzero := h.zero hold (Or.inr harmed)
  have hlive : Live s := Or.inl harmed
  obtain ⟨s', hs'⟩ : ∃ s', s' =
    progressState cfg newState wait fuzz (pipResetTimeOut .linkLocal s) := ⟨_, rfl⟩
  have hlog : s'.log = s.log ++ [.builtARP (probe cfg s.randomIPAddress)] := by
    rw [hs', probe, ← hzero]
    rfl
  have hip : s'.myIP = s.myIP := by rw [hs']; rfl
  have hstate : s'.linkState = newState := by rw [hs']; rfl
  have hrandom : s'.randomIPAddress = s.randomIPAddress := by rw [hs']; rfl
  rw [← hs']
  refine ⟨fun _ => h.linked hlive, hlog ▸ tested_append h.tested (by simp), fun _ => ?_,
    fun r hr => ?_, fun _ _ => hip.trans hzero⟩
  · obtain ⟨hne, htested⟩ := h.fresh hlive
    rw [hrandom, hstate, hlog]
    exact ⟨hne, htested.probed.mono hprobes⟩
  · rw [hlog, held_append (by simp [Plain, Note.plain])] at hr
    have hclaimed := (h.stands r hr).1
    rw [hold] at hclaimed
    exact nomatch hclaimed

theorem Sound.claim (h : Sound cfg s) (new : List Note) (hlive : Live s)
    (hprobes : s.linkState.probes = 3)
    (hlog : s'.log = s.log ++ .claimed s.randomIPAddress :: new) (hplain : Plain new)
    (hheard : ∀ p, .heard p ∉ new) (hip : s'.myIP = s.randomIPAddress)
    (hrandom : s'.randomIPAddress = s.randomIPAddress) (hclaimed : s'.linkState.claimed = true)
    (hprobes' : s'.linkState.probes = 3) : Sound cfg s' := by
  obtain ⟨hne, htested⟩ := h.fresh hlive
  rw [hprobes] at htested
  refine ⟨fun _ => h.linked hlive, ?_, fun _ => ?_, fun r hr => ?_, fun hfree => ?_⟩
  · rw [hlog]
    refine forall_split_append (C := fun pre x => ∀ r, x = .claimed r → Tested cfg r 3 pre)
      h.tested fun pre x post heq r hr => ?_
    subst hr
    cases pre with
    | nil =>
      obtain ⟨hr, -⟩ := List.cons.inj heq
      obtain rfl := Note.claimed.inj hr
      rwa [List.append_nil]
    | cons y pre =>
      obtain ⟨-, hnew⟩ := List.cons.inj heq
      exact nomatch hplain (.claimed r) (by simp [hnew])
  · rw [hrandom, hprobes', hlog]
    refine ⟨hne, htested.append (fun r hr => ?_) fun p hp => ?_⟩
    · rcases List.mem_cons.mp hr with hr | hr
      · exact nomatch hr
      · exact nomatch hplain _ hr
    · rcases List.mem_cons.mp hp with hp | hp
      · exact nomatch hp
      · exact absurd hp (hheard p)
  · rw [hlog, List.append_cons, held_append hplain, held_concat] at hr
    obtain rfl := Option.some.inj hr
    exact ⟨hclaimed, hrandom.symm, hip⟩
  · rw [hclaimed] at hfree
    exact nomatch hfree

theorem Sound.timeOutLinkLocal (h : Sound cfg s)
    (harmed : (s.timeOut .linkLocal).isSome = true) :
    Sound cfg (pipTimeOutLinkLocal cfg (pipResetTimeOut .linkLocal s)) := by
  have hlive : Live s := Or.inl harmed
  obtain ⟨state, hstate⟩ : ∃ state, s.linkState = state := ⟨_, rfl⟩
  have hreset : (pipResetTimeOut .linkLocal s).linkState = state := hstate
  unfold pipTimeOutLinkLocal
  rw [hreset]
  cases state with
  | waiting => exact h.probed harmed (by rw [hstate]; rfl) (by simp [LinkState.probes]) 1 _
  | probedOnce =>
    exact h.probed harmed (by rw [hstate]; rfl) (by simp [hstate, LinkState.probes]) 1 _
  | probedTwice =>
    exact h.probed harmed (by rw [hstate]; rfl) (by simp [hstate, LinkState.probes]) 2 _
  | probedThrice =>
    exact h.claim [_] hlive (by rw [hstate]; rfl) (List.append_assoc _ _ _)
      (by simp [Plain, Note.plain]) (by simp) rfl rfl rfl rfl
  | announcedOnce =>
    exact h.claim [_] hlive (by rw [hstate]; rfl) (List.append_assoc _ _ _)
      (by simp [Plain, Note.plain]) (by simp) rfl rfl rfl rfl
  | announcedTwice =>
    exact h.claim [] hlive (by rw [hstate]; rfl) rfl
      (fun _ hx => nomatch hx) (by simp) rfl rfl rfl rfl
  | gotIt =>
    have hclaimed : s.linkState.claimed = true := by rw [hstate]; rfl
    refine ⟨fun _ => h.linked hlive, h.tested, fun _ => h.fresh hlive, h.stands, fun hfree => ?_⟩
    exact nomatch hclaimed.symm.trans hfree

theorem Sound.ack (h : Sound cfg s) (proposedIP : Word) (o : Options) :
    Sound cfg (dhcpAck cfg proposedIP o s) := by
  obtain ⟨s', hs'⟩ : ∃ s', s' = dhcpAck cfg proposedIP o s := ⟨_, rfl⟩
  have hlog : ∃ lease, s'.log = s.log ++ [.leased lease] := by
    rw [hs', dhcpAck]
    split <;> exact ⟨_, rfl⟩
  have hdead : ¬Live s' := by
    rw [hs', dhcpAck]
    split
    next => simp [Live, pipAssignIPv4, pipSetTimeOut, pipDisableLinkLocal, pipResetTimeOut,
      Host.note, LinkState.claimed]
    next hlink =>
      intro hlive
      refine hlink (h.linked ?_)
      simpa [Live, pipAssignIPv4, pipSetTimeOut, Host.note] using hlive
  have hallocated : s'.dhcpState = .allocated := by rw [hs']; rfl
  obtain ⟨lease, hlog⟩ := hlog
  rw [← hs']
  refine ⟨fun hlive => absurd hlive hdead, hlog ▸ tested_append h.tested (by simp),
    fun hlive => absurd hlive hdead, fun r hr => ?_, fun _ hor => ?_⟩
  · rw [hlog, held_concat] at hr
    exact nomatch hr
  · rcases hor with hinited | harmed
    · exact absurd hallocated hinited
    · exact absurd (Or.inl harmed) hdead

theorem Sound.released (h : Sound cfg s) :
    Sound cfg (released s) ∧ (released s).dhcpState ≠ .allocated := by
  rcases released_cases s with ⟨hnot, heq⟩ | heq
  · rw [heq]
    exact ⟨h.same ⟨rfl, rfl, rfl, rfl, rfl⟩ rfl, hnot⟩
  · rw [heq]
    refine ⟨⟨h.linked, tested_append h.tested (by simp), fun hlive => ?_, fun r hr => ?_,
      fun _ _ => rfl⟩, by simp⟩
    · obtain ⟨hne, htested⟩ := h.fresh hlive
      exact ⟨hne, htested.append (by simp) (by simp)⟩
    · rw [held_concat] at hr
      exact nomatch hr

theorem Sound.restarted (h : Sound cfg s) (hnot : s.dhcpState ≠ .allocated) :
    Sound cfg (restarted cfg s) ∧ (restarted cfg s).dhcpState ≠ .allocated := by
  unfold Address.restarted
  split
  next hlink =>
    refine ⟨h.initLinkLocal hlink.1 fun hwaiting => ?_, ?_⟩
    · exact h.zero (by rw [hwaiting]; rfl) (Or.inl hnot)
    · rcases initLinkLocal_eq cfg s with heq | ⟨-, random, r, t, -, heq⟩
      · rwa [heq]
      · rwa [heq]
  next => exact ⟨h, hnot⟩

theorem Sound.timeOutDHCPT2 (h : Sound cfg s) : Sound cfg (pipTimeOutDHCPT2 cfg s) := by
  obtain ⟨hreleased, hnot⟩ := h.released
  have hdiscovered : Sound cfg (discovered s) :=
    hreleased.plain [.builtDHCP _] ⟨rfl, rfl, rfl, rfl, rfl⟩ rfl
      (by simp [Plain, Note.plain]) (by simp)
  obtain ⟨hrestarted, hnot⟩ := hdiscovered.restarted hnot
  rw [timeOutDHCPT2_eq]
  exact ⟨hrestarted.linked, hrestarted.tested, hrestarted.fresh, hrestarted.stands,
    fun hfree _ => hrestarted.zero hfree (Or.inl hnot)⟩

theorem Sound.reset (h : Sound cfg s) (timer : Timer) (htimer : timer ≠ .linkLocal) :
    Sound cfg (pipResetTimeOut timer s) :=
  h.same ⟨rfl, rfl, rfl, rfl, Function.update_of_ne htimer.symm _ _⟩ rfl

theorem Sound.expire (h : Sound cfg s) (timer : Timer) :
    Sound cfg (step cfg s (.expire timer)) := by
  unfold step
  dsimp only
  split
  next hdue =>
    cases timer with
    | dhcpT1 =>
      exact (h.reset .dhcpT1 (by decide)).plain [.builtDHCP _]
        ⟨rfl, rfl, rfl, rfl, rfl⟩ rfl (by simp [Plain, Note.plain]) (by simp)
    | dhcpT2 => exact (h.reset .dhcpT2 (by decide)).timeOutDHCPT2
    | arp =>
      exact (h.reset .arp (by decide)).same
        (same_setTimeOut .arp (by decide) 1 0 0 ⟨rfl, rfl, rfl, rfl, rfl⟩) rfl
    | linkLocal => exact h.timeOutLinkLocal (due_isSome hdue)
  next => exact h

theorem hit_of_adverse {packet : Bytes} {offset : Nat} (h : Sound cfg s) (hlive : Live s)
    (hmeets : Meets cfg s (.arp packet offset))
    (hadverse : Adverse cfg s.randomIPAddress (arpPacket packet offset)) :
    Hit cfg (arpPacket packet offset) s := by
  refine ⟨h.linked hlive, ?_⟩
  rcases hadverse with ⟨hreq | hrep, hmac, hspa⟩ | ⟨hreq, -, htpa⟩
  · exact Or.inl ⟨hreq, hmeets hlive hreq hmac hspa⟩
  · exact Or.inr ⟨hrep, hspa⟩
  · exact Or.inl ⟨hreq, htpa⟩

theorem Sound.heard (h : Sound cfg s) {packet : Bytes} {offset : Nat}
    (hmeets : Meets cfg s (.arp packet offset)) :
    Sound cfg (step cfg s (.arp packet offset)) := by
  obtain ⟨p, hp⟩ : ∃ p, p = arpPacket packet offset := ⟨_, rfl⟩
  show Sound cfg (incomingARP cfg (arpPacket packet offset)
    (s.note [.heard (arpPacket packet offset)]))
  have hstep := incomingARP_arp cfg p (s.note [.heard p])
  have hheard (hnot : ¬Hit cfg p s) (hlive : Live s) : ¬Adverse cfg s.randomIPAddress p :=
    fun hadverse => hnot (hp ▸ hit_of_adverse h hlive hmeets (hp ▸ hadverse))
  rw [← hp]
  generalize incomingARP cfg p (s.note [.heard p]) = s' at hstep ⊢
  cases hstep with
  | hit hhit => exact h.conflict hhit.1 p
  | answered table hnot _ _ =>
    refine h.plain [.heard p, .builtARP (answer cfg p s)] ⟨rfl, rfl, rfl, rfl, rfl⟩
      (List.append_assoc _ _ _) (by simp [Plain, Note.plain]) fun p' hp' => ?_
    obtain rfl : p' = p := by simpa using hp'
    exact hheard hnot
  | passed table hnot _ =>
    refine h.plain [.heard p] ⟨rfl, rfl, rfl, rfl, rfl⟩ rfl (by simp [Plain, Note.plain])
      fun p' hp' => ?_
    obtain rfl : p' = p := by simpa using hp'
    exact hheard hnot

theorem Sound.dhcp (h : Sound cfg s) (packet : Bytes) (offset : Nat) (length : Int) :
    Sound cfg (step cfg s (.dhcp packet offset length)) := by
  unfold step
  dsimp only
  split
  · have hstep := incomingDHCP_dhcp cfg packet offset length s
    generalize pipIncomingDHCP cfg packet offset length s = s' at hstep ⊢
    cases hstep with
    | dropped _ => exact h
    | offer serverIP _ _ =>
      exact h.plain [.builtDHCP _] ⟨rfl, rfl, rfl, rfl, rfl⟩ rfl
        (by simp [Plain, Note.plain]) (by simp)
    | ack serverIP _ _ =>
      have hsame : Sound cfg { s with serverIP := serverIP } :=
        h.same ⟨rfl, rfl, rfl, rfl, rfl⟩ rfl
      exact hsame.ack _ _
    | other serverIP => exact h.same ⟨rfl, rfl, rfl, rfl, rfl⟩ rfl
  · exact h

theorem sound_step (h : Sound cfg s) {e : Event} (hmeets : Meets cfg s e) :
    Sound cfg (step cfg s e) := by
  cases e with
  | wait ticks => exact h.same ⟨rfl, rfl, rfl, rfl, rfl⟩ rfl
  | expire timer => exact h.expire timer
  | arp packet offset => exact h.heard hmeets
  | dhcp packet offset length => exact h.dhcp packet offset length

theorem sound_powerOn (now : Nat) : Sound cfg (pipInitARP (powerOn now)) where
  linked hlive := by simp [Live, pipInitARP, pipSetTimeOut, powerOn, LinkState.claimed] at hlive
  tested pre x post heq := by simp [pipInitARP, pipSetTimeOut, powerOn] at heq
  fresh hlive := by simp [Live, pipInitARP, pipSetTimeOut, powerOn, LinkState.claimed] at hlive
  stands r hr := nomatch hr
  zero _ _ := rfl

theorem sound_init (now : Nat) : Sound cfg (init cfg now) := by
  have h : Sound cfg (pipInitARP (powerOn now)) := sound_powerOn now
  unfold init
  dsimp only
  split
  · unfold pipInitDHCP
    split
    · exact h.same (same_setTimeOut .dhcpT2 (by decide) 3 0 0 ⟨rfl, rfl, rfl, rfl, rfl⟩) rfl
    · exact h.same (same_setTimeOut .dhcpT2 (by decide) 1 0 fuzz10s ⟨rfl, rfl, rfl, rfl, rfl⟩) rfl
  · split
    next hlink => exact h.initLinkLocal hlink fun _ => rfl
    next => exact h

theorem sound_run (h : Sound cfg s) {es : List Event}
    (hmeets : Along (step cfg) (Meets cfg) s es) : Sound cfg (run cfg s es) := by
  induction es generalizing s with
  | nil => exact h
  | cons e es ih => exact ih (sound_step h hmeets.1) hmeets.2

theorem Sound.yields (h : Sound cfg s) {packet : Bytes} {offset : Nat}
    (hmeets : Meets cfg s (.arp packet offset)) {r : Word} (hr : held s.log = some r)
    (hadverse : Adverse cfg r (arpPacket packet offset)) :
    (step cfg s (.arp packet offset)).myIP ≠ r := by
  obtain ⟨hclaimed, rfl, hip⟩ := h.stands r hr
  have hlive : Live s := Or.inr hclaimed
  have hhit := hit_of_adverse h hlive hmeets hadverse
  show (incomingARP cfg (arpPacket packet offset)
    (s.note [.heard (arpPacket packet offset)])).myIP ≠ _
  have hstep := incomingARP_arp cfg (arpPacket packet offset)
    (s.note [.heard (arpPacket packet offset)])
  generalize incomingARP cfg _ (s.note _) = s' at hstep ⊢
  cases hstep with
  | hit _ =>
    obtain ⟨random, r, conflicts, t, -, heq⟩ :=
      conflict_eq cfg (s.note [.heard (arpPacket packet offset)])
    rw [heq]
    exact (h.fresh hlive).1.symm
  | answered table hnot _ _ => exact absurd hhit hnot
  | passed table hnot _ => exact absurd hhit hnot

end Steps

theorem along_expirations (cfg : Config) (s : Host) (n : Nat) :
    Along (step cfg) (Meets cfg) s (expirations n) := by
  refine along_of_forall fun t e he => ?_
  obtain ⟨es, hes, he⟩ := List.mem_flatten.mp he
  rw [List.eq_of_mem_replicate hes] at he
  rcases List.mem_pair.mp he with rfl | rfl
  · trivial
  · trivial

end Xtcp.Pip.Address
