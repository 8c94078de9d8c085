import Xtcp.Arp.Expiry
import Xtcp.Igmp.Multicast

namespace Xtcp.ArpCache

open Channel Uip Igmp

def arpReply : Nat := 2

-- uip_arp_arpin, with what it leaves in uip_buf to be sent.
def arpArpin (ethaddr : MacAddr) (uipLen : Nat) (p : ArpHdr) (arp : Arp) : Arp × Option ArpHdr :=
  if uipLen < arpHdrLen then (arp, none)
  else if p.opcode = arpRequest then
    if p.dipaddr = arp.hostaddr then
      (uipArpUpdate arp p.sipaddr p.shwaddr,
        some { p with
          opcode := arpReply
          dhwaddr := p.shwaddr
          shwaddr := ethaddr
          ethhdr := ⟨p.shwaddr, ethaddr, ethtypeArp⟩
          dipaddr := p.sipaddr
          sipaddr := arp.hostaddr })
    else (arp, none)
  else if p.opcode = arpReply then
    if p.dipaddr = arp.hostaddr then (uipArpUpdate arp p.sipaddr p.shwaddr, none)
    else (arp, none)
  else (arp, none)

def opcodeOf (n : Nat) : ArpOpcode :=
  if n = arpRequest then .request else if n = arpReply then .reply else .other

section Arpin

variable {ethaddr : MacAddr} {uipLen : Nat} {p : ArpHdr} {arp : Arp}

-- The table changes as in the model that leaves out what is sent.
theorem arpArpin_fst : (arpArpin ethaddr uipLen p arp).1 =
    uipArpArpin arp ⟨opcodeOf p.opcode, p.sipaddr, p.dipaddr, p.shwaddr,
      decide (arpHdrLen ≤ uipLen)⟩ := by
  rw [arpArpin, uipArpArpin, opcodeOf]
  by_cases hlen : uipLen < arpHdrLen
  · simp [hlen, Nat.not_le.mpr hlen]
  · by_cases hreq : p.opcode = arpRequest
    · by_cases hip : p.dipaddr = arp.hostaddr
      · simp [hlen, hreq, hip, Nat.not_lt.mp hlen]
      · simp [hlen, hreq, hip]
    · by_cases hreply : p.opcode = arpReply
      · have hne : arpReply ≠ arpRequest := by decide
        by_cases hip : p.dipaddr = arp.hostaddr
        · simp [hlen, hreply, hne, hip, Nat.not_lt.mp hlen]
        · simp [hlen, hreply, hne, hip]
      · simp [hlen, hreq, hreply]

theorem arpArpin_request (hop : p.opcode = arpRequest) (hip : p.dipaddr = arp.hostaddr) :
    arpArpin ethaddr arpHdrLen p arp = (uipArpUpdate arp p.sipaddr p.shwaddr,
      some { p with
        opcode := arpReply
        dhwaddr := p.shwaddr
        shwaddr := ethaddr
        ethhdr := ⟨p.shwaddr, ethaddr, ethtypeArp⟩
        dipaddr := p.sipaddr
        sipaddr := arp.hostaddr }) := by
  rw [arpArpin, if_neg (Nat.lt_irrefl _), if_pos hop, if_pos hip]

theorem arpArpin_reply (hop : p.opcode = arpReply) (hip : p.dipaddr = arp.hostaddr) :
    arpArpin ethaddr arpHdrLen p arp = (uipArpUpdate arp p.sipaddr p.shwaddr, none) := by
  rw [arpArpin, if_neg (Nat.lt_irrefl _), if_neg (by rw [hop]; decide), if_pos hop, if_pos hip]

end Arpin

section Resolve

variable {arp : Arp} {a dest : Ipaddr} {m : MacAddr} {ethaddr : MacAddr} {n : Nat}

theorem not_before_slotOf (ha : hostUsed a = true) {j : Nat} (hj : j < slotOf arp a) {e : ArpEntry}
    (he : arp.table[j]? = some e) : e.ipaddr ≠ a := by
  rintro rfl
  rw [slotOf] at hj
  cases hused : arp.table.findIdx? fun e' => hostUsed e'.ipaddr && e.ipaddr == e'.ipaddr with
  | some i =>
    rw [hused] at hj
    obtain ⟨hlt, -, hbefore⟩ := List.findIdx?_eq_some_iff_getElem.mp hused
    have hne := hbefore j hj
    obtain ⟨hjlt, rfl⟩ := List.getElem?_eq_some_iff.mp he
    exact hne (by rw [ha, beq_self_eq_true]; rfl)
  | none =>
    have hne := List.findIdx?_eq_none_iff.mp hused e (List.mem_of_getElem? he)
    rw [ha, beq_self_eq_true] at hne
    exact Bool.noConfusion hne

theorem find_update (ha : hostUsed a = true) (hlen : 0 < arp.table.length) :
    (uipArpUpdate arp a m).table.find? (fun e => a == e.ipaddr) = some ⟨a, m, arp.arptime⟩ := by
  rw [update_eq]
  dsimp only
  have hlt := slotOf_lt hlen a
  refine List.find?_eq_some_iff_getElem.mpr
    ⟨beq_self_eq_true a, slotOf arp a, by rwa [List.length_set], List.getElem_set_self _, ?_⟩
  intro j hj
  have hjlt : j < arp.table.length := Nat.lt_trans hj hlt
  rw [List.getElem_set_ne (Nat.ne_of_gt hj), Bool.not_eq_true', beq_eq_false_iff_ne]
  exact (not_before_slotOf ha hj (List.getElem?_eq_getElem hjlt)).symm

theorem arpOut_request {hdr : ArpHdr} {k : Nat} (h : arpOut ethaddr arp dest n = .arp hdr k) :
    dest ≠ broadcastIpaddr ∧ isMulticast dest = false ∧
      hdr = arpRequestHdr ethaddr arp (nextHop arp dest) ∧ k = arpHdrLen := by
  unfold arpOut at h
  split_ifs at h with hb hm
  cases hf : arp.table.find? fun e => nextHop arp dest == e.ipaddr with
  | some e =>
    rw [hf] at h
    cases h
  | none =>
    rw [hf] at h
    obtain ⟨rfl, rfl⟩ := Framed.arp.inj h
    exact ⟨hb, eq_false_of_ne_true hm, rfl, rfl⟩

theorem arpOut_resolved {e : ArpEntry} (hb : dest ≠ broadcastIpaddr)
    (hm : isMulticast dest = false)
    (hf : arp.table.find? (fun e => nextHop arp dest == e.ipaddr) = some e) :
    arpOut ethaddr arp dest n = .ip ⟨e.ethaddr, ethaddr, ethtypeIp⟩ (n + ethHdrLen) := by
  unfold arpOut
  rw [if_neg hb, if_neg (by rw [hm]; exact Bool.false_ne_true), hf]

-- The request that takes a packet's place, the answer of the host that it is for, and the
-- packet sent again.
theorem resolve {ethA ethB : MacAddr} {arpA arpB : Arp} {hdr : ArpHdr} {k : Nat}
    (hout : arpOut ethA arpA dest n = .arp hdr k) (hB : arpB.hostaddr = nextHop arpA dest)
    (husedA : hostUsed arpA.hostaddr = true) (husedB : hostUsed arpB.hostaddr = true)
    (hlenA : 0 < arpA.table.length) (hlenB : 0 < arpB.table.length) :
    ∃ reply, (arpArpin ethB k hdr arpB).2 = some reply ∧
      lookup (arpArpin ethB k hdr arpB).1 arpA.hostaddr = some ethA ∧
      (arpArpin ethA arpHdrLen reply arpA).2 = none ∧
      arpOut ethA (arpArpin ethA arpHdrLen reply arpA).1 dest n =
        .ip ⟨ethB, ethA, ethtypeIp⟩ (n + ethHdrLen) := by
  obtain ⟨hb, hm, rfl, rfl⟩ := arpOut_request hout
  rw [arpArpin_request rfl hB.symm]
  refine ⟨_, rfl, ?_, ?_⟩
  · rw [lookup]
    exact congrArg (Option.map ArpEntry.ethaddr) (find_update husedA hlenB)
  · rw [arpArpin_reply rfl rfl]
    have hhop : nextHop (uipArpUpdate arpA arpB.hostaddr ethB) dest = arpB.hostaddr := by
      rw [update_eq, hB]
      rfl
    have hfind := find_update (m := ethB) husedB hlenA
    have hsent : arpOut ethA (uipArpUpdate arpA arpB.hostaddr ethB) dest n =
        .ip ⟨ethB, ethA, ethtypeIp⟩ (n + ethHdrLen) :=
      arpOut_resolved (e := ⟨arpB.hostaddr, ethB, arpA.arptime⟩) hb hm (by rw [hhop]; exact hfind)
    exact ⟨rfl, hsent⟩

end Resolve

def ownMac : MacAddr := ⟨0, 0x22, 0x97, 0, 0, 1⟩

theorem resolve_neighbour : ∃ hdr reply, arpOut ownMac emptyArp neighbour 60 = .arp hdr arpHdrLen ∧
    arpOut ownMac (arpArpin ownMac arpHdrLen reply emptyArp).1 neighbour 60 =
      .ip ⟨⟨0, 1, 2, 3, 4, 5⟩, ownMac, ethtypeIp⟩ (60 + ethHdrLen) := by
  have hout : arpOut ownMac emptyArp neighbour 60 =
      .arp (arpRequestHdr ownMac emptyArp neighbour) arpHdrLen := by decide
  obtain ⟨reply, -, -, -, hsent⟩ := @resolve neighbour 60 ownMac ⟨0, 1, 2, 3, 4, 5⟩ emptyArp
    { emptyArp with hostaddr := neighbour } _ _ hout (by decide) (by decide) (by decide) (by decide)
    (by decide)
  exact ⟨_, reply, hout, hsent⟩

end Xtcp.ArpCache
