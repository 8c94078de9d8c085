import Xtcp.Arp.Cache

namespace Xtcp.ArpCache

open Channel Uip

def timers (calls : List Call) : Nat := calls.count .timer

-- No packet speaks of b, and none is given the slot i.
def Spares (arp : Arp) (b : Ipaddr) (i : Nat) (calls : List Call) : Prop :=
  ∀ pre a m post, calls = pre ++ .update a m :: post → a ≠ b ∧ slotOf (run arp pre) a ≠ i

-- The clock is eight bits wide and the difference of two readings is an int.
def Lives (t : BitVec 8) (k : Nat) : Prop := k < 120 ∨ 136 ≤ t.toNat

instance (t : BitVec 8) (k : Nat) : Decidable (Lives t k) := by
  unfold Lives
  infer_instance

section Ages

theorem toNat_later (t : BitVec 8) (k : Nat) :
    (t + BitVec.ofNat 8 k).toNat = (t.toNat + k) % 256 := by
  rw [BitVec.toNat_add, BitVec.toNat_ofNat]
  omega

end Ages

-- The entry of b, k timer calls after it was made at t in the slot i.
structure Aged (arp : Arp) (b : Ipaddr) (m : MacAddr) (t : BitVec 8) (i k : Nat) : Prop where
  arptime : arp.arptime = t + BitVec.ofNat 8 k
  entry : arp.table[i]? = some ⟨if Lives t k then b else zeroIpaddr, m, t⟩
  other : ∀ (j : Nat) (e : ArpEntry), j ≠ i → arp.table[j]? = some e → e.ipaddr ≠ b

section Aged

variable {arp : Arp} {b : Ipaddr} {m : MacAddr} {t : BitVec 8} {i k : Nat}

theorem Aged.update (h : Aged arp b m t i k) {a : Ipaddr} {m' : MacAddr} (ha : a ≠ b)
    (hi : slotOf arp a ≠ i) : Aged (uipArpUpdate arp a m') b m t i k := by
  rw [update_eq]
  refine ⟨h.arptime, ?_, fun j e hj hje => ?_⟩
  · exact (List.getElem?_set_ne hi).trans h.entry
  · dsimp only at hje
    rw [List.getElem?_set] at hje
    split_ifs at hje
    · obtain rfl := Option.some.inj hje
      exact ha
    · exact h.other j e hj hje

theorem Aged.timer (hb : hostUnused b = false) (h : Aged arp b m t i k) :
    Aged (uipArpTimer arp) b m t i (k + 1) := by
  have htime : arp.arptime + 1 = t + BitVec.ofNat 8 (k + 1) := by
    rw [h.arptime, BitVec.ofNat_add, BitVec.add_assoc]
    rfl
  refine ⟨htime, ?_, fun j e hj hje => ?_⟩
  · rw [uipArpTimer]
    dsimp only
    rw [List.getElem?_map, h.entry, Option.map_some, arpAge, htime, toNat_later]
    have ht := t.isLt
    by_cases hlives : Lives t k
    · simp only [if_pos hlives, hb, Bool.not_false, Bool.true_and, decide_eq_true_eq]
      by_cases hnext : Lives t (k + 1)
      · have hage : ¬ (((t.toNat + (k + 1)) % 256 : Nat) : Int) - t.toNat ≥ arpMaxage := by
          unfold Lives arpMaxage at *
          omega
        rw [if_pos hnext, if_neg hage]
      · have hage : (((t.toNat + (k + 1)) % 256 : Nat) : Int) - t.toNat ≥ arpMaxage := by
          unfold Lives arpMaxage at *
          omega
        rw [if_neg hnext, if_pos hage]
    · have hnext : ¬ Lives t (k + 1) := by
        unfold Lives at *
        omega
      rw [if_neg hlives, if_neg hnext]
      rfl
  · rw [uipArpTimer] at hje
    dsimp only at hje
    rw [List.getElem?_map] at hje
    obtain ⟨e0, he0, rfl⟩ := Option.map_eq_some_iff.mp hje
    split_ifs
    · rintro rfl
      exact Bool.noConfusion hb
    · exact h.other j e0 hj he0

theorem aged_run (hb : hostUnused b = false) (h : Aged arp b m t i k) {calls : List Call}
    (hspare : Spares arp b i calls) : Aged (run arp calls) b m t i (k + timers calls) := by
  induction calls using List.reverseRecOn with
  | nil => exact h
  | append_singleton calls c ih =>
    have hpre : Spares arp b i calls := fun pre a m post heq =>
      hspare pre a m (post ++ [c]) (by rw [heq]; simp)
    rw [run_concat, timers, List.count_append]
    cases c with
    | update a m' =>
      obtain ⟨ha, hi⟩ := hspare calls a m' [] rfl
      exact (ih hpre).update ha hi
    | timer => exact (ih hpre).timer hb

theorem lookup_aged (hb : hostUnused b = false) (h : Aged arp b m t i k) :
    lookup arp b = if Lives t k then some m else none := by
  have hzero : zeroIpaddr ≠ b := by
    rintro rfl
    exact absurd hb (by decide)
  cases hl : arp.table.find? fun e => b == e.ipaddr with
  | none =>
    have hnone := List.find?_eq_none.mp hl _ (List.mem_of_getElem? h.entry)
    rw [lookup, hl]
    split_ifs at hnone ⊢ with hlives
    · exact absurd (beq_self_eq_true b) hnone
    · rfl
  | some e =>
    have hfound := List.find?_some hl
    obtain ⟨j, hj⟩ := List.getElem?_of_mem (List.mem_of_find?_eq_some hl)
    have heb : e.ipaddr = b := (beq_iff_eq.mp hfound).symm
    by_cases hji : j = i
    · subst hji
      obtain rfl := Option.some.inj (hj.symm.trans h.entry)
      dsimp only at heb
      split_ifs at heb with hlives
      · rw [lookup, hl, if_pos hlives, if_pos hlives]
        rfl
      · exact absurd heb hzero
    · exact absurd heb (h.other j e hji hj)

theorem aged_update {calls : List Call} (h : Fresh arp calls) (hb : hostUsed b = true)
    (hlen : 0 < arp.table.length) :
    Aged (uipArpUpdate arp b m) b m arp.arptime (slotOf arp b) 0 := by
  have hupdated := h.update b m
  have hentry : (uipArpUpdate arp b m).table[slotOf arp b]? = some ⟨b, m, arp.arptime⟩ := by
    rw [update_eq]
    exact List.getElem?_set_self (slotOf_lt hlen b)
  refine ⟨?_, ?_, fun j e hj hje heq => ?_⟩
  · rw [update_eq]
    exact (BitVec.add_zero _).symm
  · rw [if_pos (.inl (by decide))]
    exact hentry
  · exact hj (hupdated.single _ j _ e hentry hje hb heq).symm

end Aged

theorem length_run (arp : Arp) (calls : List Call) :
    (run arp calls).table.length = arp.table.length := by
  induction calls using List.reverseRecOn with
  | nil => rfl
  | append_singleton calls c ih =>
    rw [run_concat]
    cases c with
    | update a m =>
      rw [apply, update_eq]
      exact (List.length_set ..).trans ih
    | timer => exact (List.length_map ..).trans ih

-- An entry that nothing else touches goes at the 120th call of the timer, or never.
theorem lookup_expiry (arp : Arp) (before calls : List Call) {b : Ipaddr} {m : MacAddr}
    (hlen : 0 < arp.table.length) (hb : hostUsed b = true)
    (hspare : Spares (run (uipArpInit arp) (before ++ [.update b m])) b
      (slotOf (run (uipArpInit arp) before) b) calls) :
    lookup (run (uipArpInit arp) (before ++ .update b m :: calls)) b =
      if timers calls < 120 ∨ 136 ≤ (run (uipArpInit arp) before).arptime.toNat then some m
      else none := by
  have hused : hostUnused b = false := by
    cases hu : hostUnused b with
    | false => rfl
    | true =>
      rw [beq_iff_eq.mp hu] at hb
      exact absurd hb (by decide)
  have haged := aged_update (m := m) (fresh_run arp before) hb
    (by rw [length_run, uipArpInit, List.length_map]; exact hlen)
  rw [run_concat] at hspare
  have hrun := lookup_aged hused (aged_run hused haged hspare)
  rw [Nat.zero_add] at hrun
  rw [run, List.foldl_append, List.foldl_cons]
  exact hrun

theorem spares_timers (arp : Arp) (b : Ipaddr) (i n : Nat) :
    Spares arp b i (List.replicate n .timer) := by
  intro pre a m post heq
  have hmem : Call.update a m ∈ List.replicate n Call.timer := by rw [heq]; simp
  exact Call.noConfusion (List.eq_of_mem_replicate hmem)

theorem lookup_expiry_quiet :
    lookup (run (uipArpInit emptyArp) ([] ++ .update neighbour ⟨0, 1, 2, 3, 4, 5⟩ ::
      List.replicate 120 .timer)) neighbour = none := by
  rw [lookup_expiry emptyArp [] _ (by decide) (by decide) (spares_timers _ _ _ 120),
    timers, List.count_replicate_self]
  exact if_neg (by decide)

end Xtcp.ArpCache
