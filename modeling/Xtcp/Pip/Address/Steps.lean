import Xtcp.Pip.Address.State

namespace Xtcp.Pip.Address

open Halfword

def About (p : ArpPacket) (s : Host) : Prop :=
  (p.oper = request ∧ p.tpa = s.randomIPAddress) ∨ (p.oper = reply ∧ p.spa = s.randomIPAddress)

def Hit (cfg : Config) (p : ArpPacket) (s : Host) : Prop := cfg.linkLocal = true ∧ About p s

theorem request_ne_reply : request ≠ reply := by decide

theorem matchesLinkLocal_iff {cfg : Config} {ipAddress : Word} {s : Host} :
    matchesLinkLocal cfg ipAddress s = true ↔
      cfg.linkLocal = true ∧ ipAddress = s.randomIPAddress := by
  simp [matchesLinkLocal]

theorem candidate_ne_zero (random : Word) : candidate random ≠ 0 := by
  intro h
  have hbit : (candidate random).getLsbD 31 = false := by rw [h]; rfl
  simp [candidate] at hbit

theorem conflict_eq (cfg : Config) (s : Host) : ∃ random r conflicts t, r ≠ 0 ∧
    conflict cfg s = { s with
      myIP := 0
      linkState := .waiting
      random := random
      randomIPAddress := r
      conflicts := conflicts
      timeOut := Function.update s.timeOut .linkLocal (some t)
      log := s.log ++ [.dropped] ++ [.chose r] } := by
  have hne := candidate_ne_zero (advanceRandom cfg s.random)
  unfold conflict
  dsimp only
  split
  · exact ⟨advanceRandom cfg s.random, _, 0, wakeUp s.now 60 0 fuzz10s, hne, rfl⟩
  · exact ⟨advanceRandom cfg s.random, _, s.conflicts + 1, wakeUp s.now 0 100000 fuzz1s, hne, rfl⟩

theorem initLinkLocal_eq (cfg : Config) (s : Host) : pipInitLinkLocal cfg s = s ∨
    s.linkState = .waiting ∧ ∃ random r t, r ≠ 0 ∧ pipInitLinkLocal cfg s = { s with
      random := random
      randomIPAddress := r
      timeOut := Function.update s.timeOut .linkLocal (some t)
      log := s.log ++ [.chose r] } := by
  unfold pipInitLinkLocal
  split
  · exact Or.inl rfl
  next h => exact Or.inr ⟨Decidable.not_not.mp h, _, _, _, candidate_ne_zero _, rfl⟩

def answer (cfg : Config) (p : ArpPacket) (s : Host) : ArpMessage :=
  ⟨true, cfg.mac, s.myIP, p.sha, p.spa, p.sha⟩

-- What an ARP packet can do.
inductive Arp (cfg : Config) (p : ArpPacket) (s : Host) : Host → Prop where
  | hit : Hit cfg p s → Arp cfg p s (conflict cfg s)
  | answered (table : Nat → Entry) : ¬Hit cfg p s → p.oper = request → p.tpa = s.myIP →
      Arp cfg p s { s with
        pipArpTable := table, log := s.log ++ [.builtARP (answer cfg p s)] }
  | passed (table : Nat → Entry) : ¬Hit cfg p s → ¬(p.oper = request ∧ p.tpa = s.myIP) →
      Arp cfg p s { s with pipArpTable := table }

theorem incomingARP_arp (cfg : Config) (p : ArpPacket) (s : Host) :
    Arp cfg p s (incomingARP cfg p s) := by
  unfold incomingARP
  split
  next hreq =>
    split
    next hmatch =>
      obtain ⟨hlink, htpa⟩ := matchesLinkLocal_iff.mp hmatch
      exact .hit ⟨hlink, Or.inl ⟨hreq, htpa⟩⟩
    next hmatch =>
      have hnot : ¬Hit cfg p s := by
        rintro ⟨hlink, ⟨-, htpa⟩ | ⟨hrep, -⟩⟩
        · exact hmatch (matchesLinkLocal_iff.mpr ⟨hlink, htpa⟩)
        · exact request_ne_reply (hreq.symm.trans hrep)
      split
      next htpa => exact .answered _ hnot hreq htpa
      next htpa => exact .passed s.pipArpTable hnot fun h => htpa h.2
  next hreq =>
    split
    next hrep =>
      split
      next hmatch =>
        obtain ⟨hlink, hspa⟩ := matchesLinkLocal_iff.mp hmatch
        exact .hit ⟨hlink, Or.inr ⟨hrep, hspa⟩⟩
      next hmatch =>
        refine .passed _ ?_ fun h => hreq h.1
        rintro ⟨hlink, ⟨hreq', -⟩ | ⟨-, hspa⟩⟩
        · exact hreq hreq'
        · exact hmatch (matchesLinkLocal_iff.mpr ⟨hlink, hspa⟩)
    next hrep =>
      refine .passed s.pipArpTable ?_ fun h => hreq h.1
      rintro ⟨-, ⟨hreq', -⟩ | ⟨hrep', -⟩⟩
      · exact hreq hreq'
      · exact hrep hrep'

def LinkState.claimed : LinkState → Bool
  | .announcedOnce | .announcedTwice | .gotIt => true
  | _ => false

theorem due_isSome {s : Host} {timer : Timer} (h : s.due timer = true) :
    (s.timeOut timer).isSome = true := by
  unfold Host.due at h
  split at h
  next t ht => rw [ht]; rfl
  next => exact nomatch h

theorem due_le {s : Host} {timer : Timer} {t : Nat} (h : s.due timer = true)
    (ht : s.timeOut timer = some t) : t ≤ s.now := by
  unfold Host.due at h
  rw [ht] at h
  exact of_decide_eq_true h

-- pipTimeOutDHCPT2 ends a lease and asks for another.
def released (s : Host) : Host :=
  let s := { s with xid := BitVec.ofNat 32 s.now }
  if s.dhcpState = .allocated then pipUnassignIPv4 { s with dhcpState := .inited } else s

def discovered (s : Host) : Host :=
  pipSetTimeOut .dhcpT2 (released s).interval 0 fuzz1s (pipCreateDHCP true 0 0 (released s))

def restarted (cfg : Config) (s : Host) : Host :=
  if cfg.linkLocal ∧ s.dhcpState ≠ .blank then pipInitLinkLocal cfg s else s

theorem timeOutDHCPT2_eq (cfg : Config) (s : Host) : pipTimeOutDHCPT2 cfg s =
    { restarted cfg (discovered s) with
      dhcpState := .inited
      interval := min ((restarted cfg (discovered s)).interval * 2) 60 } := rfl

theorem released_cases (s : Host) :
    (s.dhcpState ≠ .allocated ∧ released s = { s with xid := BitVec.ofNat 32 s.now }) ∨
    released s = { s with
      xid := BitVec.ofNat 32 s.now
      dhcpState := .inited
      myIP := 0
      mySubnetIP := 0
      myRouterIP := 0
      log := s.log ++ [.dropped] } := by
  unfold released
  dsimp only
  split
  · exact Or.inr rfl
  next h => exact Or.inl ⟨h, rfl⟩

-- What a DHCP packet can do.
inductive Dhcp (cfg : Config) (packet : Bytes) (offset : Nat) (length : Int) (s : Host) :
    Host → Prop where
  | dropped : ¬Answers packet offset s → Dhcp cfg packet offset length s s
  | offer (serverIP : Word) : Answers packet offset s →
      (dhcpOptions cfg packet offset length).messageType = 2 →
      Dhcp cfg packet offset length s
        (dhcpOffer (word packet (offset * 2 + 16)) { s with serverIP := serverIP })
  | ack (serverIP : Word) : Answers packet offset s →
      (dhcpOptions cfg packet offset length).messageType = 5 →
      Dhcp cfg packet offset length s (dhcpAck cfg (word packet (offset * 2 + 16))
        (dhcpOptions cfg packet offset length) { s with serverIP := serverIP })
  | other (serverIP : Word) : Dhcp cfg packet offset length s { s with serverIP := serverIP }

theorem incomingDHCP_dhcp (cfg : Config) (packet : Bytes) (offset : Nat) (length : Int)
    (s : Host) :
    Dhcp cfg packet offset length s (pipIncomingDHCP cfg packet offset length s) := by
  unfold pipIncomingDHCP
  split
  next hnot => exact .dropped hnot
  next hanswers =>
    have hanswers := Decidable.not_not.mp hanswers
    dsimp only
    split
    next htype => exact .offer _ hanswers htype
    next =>
      split
      next htype => exact .ack _ hanswers htype
      next => exact .other _

end Xtcp.Pip.Address
