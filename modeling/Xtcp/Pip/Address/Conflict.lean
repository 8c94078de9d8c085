import Xtcp.Pip.Address.Steps

namespace Xtcp.Pip.Address

open Halfword

def Configured (s : Host) : Prop := s.linkState.claimed = true ∨ s.dhcpState = .allocated

def Asks (cfg : Config) (p : ArpPacket) (s : Host) : Prop :=
  p.oper = request ∧ p.sha ≠ cfg.mac ∧ p.tpa = s.myIP

-- From s to s' by the packet. An address that is chosen is one to be probed.
structure Undisturbed (cfg : Config) (p : ArpPacket) (s s' : Host) : Prop where
  answered : Configured s → Asks cfg p s →
    s'.log = s.log ++ [.heard p, .builtARP (answer cfg p s)] ∧ s'.myIP = s.myIP
  kept : s.dhcpState = .allocated → s'.myIP = s.myIP ∧ s'.linkState = s.linkState ∧
    s'.timeOut .linkLocal = s.timeOut .linkLocal ∧ ∀ r, .chose r ∉ s'.log.drop s.log.length

def Spared (cfg : Config) (p : ArpPacket) (s : Host) : Prop :=
  Hit cfg p s → s.dhcpState ≠ .allocated ∧ ¬(Configured s ∧ Asks cfg p s)

theorem undisturbed_iff (cfg : Config) (p : ArpPacket) (s : Host) :
    Undisturbed cfg p s (incomingARP cfg p (s.note [.heard p])) ↔ Spared cfg p s := by
  obtain ⟨s', hs'⟩ : ∃ s', s' = incomingARP cfg p (s.note [.heard p]) := ⟨_, rfl⟩
  have hstep := incomingARP_arp cfg p (s.note [.heard p])
  rw [← hs'] at hstep ⊢
  cases hstep with
  | hit hhit =>
    obtain ⟨random, r, conflicts, t, -, heq⟩ := conflict_eq cfg (s.note [.heard p])
    rw [heq]
    constructor
    · rintro ⟨hanswered, hkept⟩ -
      refine ⟨fun halloc => ?_, fun ⟨hconf, hasks⟩ => ?_⟩
      · exact (hkept halloc).2.2.2 r (by simp [Host.note])
      · have hlog := (hanswered hconf hasks).1
        simp [Host.note] at hlog
    · intro hspared
      obtain ⟨hinited, hnone⟩ := hspared hhit
      exact ⟨fun hconf hasks => absurd ⟨hconf, hasks⟩ hnone, fun halloc => absurd halloc hinited⟩
  | answered table hnot hreq htpa =>
    refine ⟨fun _ hhit => absurd hhit hnot, fun _ => ⟨fun _ _ => ⟨?_, rfl⟩, fun _ => ?_⟩⟩
    · exact List.append_assoc _ _ _
    · exact ⟨rfl, rfl, rfl, fun r => by simp [Host.note]⟩
  | passed table hnot hother =>
    refine ⟨fun _ hhit => absurd hhit hnot, fun _ => ⟨fun _ hasks => ?_, fun _ => ?_⟩⟩
    · exact absurd ⟨hasks.1, hasks.2.2⟩ hother
    · exact ⟨rfl, rfl, rfl, fun r => by simp [Host.note]⟩

theorem arp_undisturbed_exact (cfg : Config) (now : Nat) (es : List Event) (packet : Bytes)
    (offset : Nat) :
    let s := run cfg (init cfg now) es
    Undisturbed cfg (arpPacket packet offset) s (step cfg s (.arp packet offset)) ↔
      Spared cfg (arpPacket packet offset) s :=
  undisturbed_iff cfg _ _

-- Four expiries claim the address; then another host asks for it.
theorem claimed_address_dropped : ¬∀ cfg now es packet offset,
    Undisturbed cfg (arpPacket packet offset) (run cfg (init cfg now) es)
      (step cfg (run cfg (init cfg now) es) (.arp packet offset)) := by
  intro h
  have hanswered := (h linkLocalOnly 0 (expirations 4) (requestOf 0xC0A80009 0xA9FEE4F7) 7).answered
  have hip := (hanswered (Or.inl (by decide)) ⟨by decide, by decide, by decide +kernel⟩).2
  exact absurd hip (by decide +kernel)

end Xtcp.Pip.Address
