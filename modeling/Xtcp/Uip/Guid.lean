import Mathlib.Data.Fintype.Sum
import Xtcp.Uip.Serve

namespace Xtcp.Uip
open Channel Listen

variable {nT nU : Nat} {w : Stack nT nU} {slot : Slot nT nU}

def Slot.equiv : Slot nT nU ≃ Fin nT ⊕ Fin nU where
  toFun
    | .tcp i => .inl i
    | .udp i => .inr i
  invFun
    | .inl i => .tcp i
    | .inr i => .udp i
  left_inv slot := by cases slot <;> rfl
  right_inv i := by cases i <;> rfl

instance : Fintype (Slot nT nU) := Fintype.ofEquiv _ Slot.equiv.symm

theorem card_slot : Fintype.card (Slot nT nU) = nT + nU := by
  rw [Fintype.card_congr Slot.equiv]
  simp

theorem lookup_isSome (w : Stack nT nU) (id : Nat) :
    (lookupXtcpdState w id).isSome = true ↔ ∃ slot, (w.app slot).conn.id = id := by
  simp only [lookupXtcpdState, List.find?_isSome, beq_iff_eq]
  exact ⟨fun ⟨slot, _, h⟩ => ⟨slot, h⟩, fun ⟨slot, h⟩ => ⟨slot, slot.mem_all, h⟩⟩

theorem lookup_id {id : Nat} (h : lookupXtcpdState w id = some slot) :
    (w.app slot).conn.id = id := by
  simpa using List.find?_some h

def bumps : Nat → Nat → Nat
  | 0, guid => guid
  | n + 1, guid => bumps n (bumpGuid guid)

theorem searchGuid_none {used : Nat → Bool} {turns guid : Nat}
    (h : searchGuid used turns guid = none) (n : Nat) (hn : n < turns) :
    used (bumps n guid) = true := by
  induction turns generalizing guid n with
  | zero => cases hn
  | succ turns ih =>
    rw [searchGuid] at h
    split at h
    next hused =>
      cases n with
      | zero => exact hused
      | succ n => exact ih h n (by omega)
    next => cases h

theorem searchGuid_some {used : Nat → Bool} {turns guid found : Nat}
    (h : searchGuid used turns guid = some found) :
    used found = false ∧ (1 ≤ guid ∧ guid ≤ maxGuid → 1 ≤ found ∧ found ≤ maxGuid) := by
  induction turns generalizing guid with
  | zero => cases h
  | succ turns ih =>
    rw [searchGuid] at h
    split at h
    next =>
      obtain ⟨hused, hrange⟩ := ih h
      refine ⟨hused, fun hg => hrange ?_⟩
      unfold bumpGuid
      split <;> omega
    next hused =>
      cases h
      exact ⟨by simpa using hused, fun hg => hg⟩

theorem bumps_add (n guid : Nat) (h : guid + n ≤ maxGuid) : bumps n guid = guid + n := by
  induction n generalizing guid with
  | zero => rfl
  | succ n ih =>
    have hb : bumpGuid guid = guid + 1 := by
      unfold bumpGuid
      split <;> omega
    rw [bumps, hb, ih (guid + 1) (by omega)]
    omega

theorem bumps_wrap (n guid : Nat) (h : maxGuid ≤ guid) (hn : n < maxGuid) :
    bumps (n + 1) guid = n + 1 := by
  have hb : bumpGuid guid = 1 := by
    unfold bumpGuid
    split <;> omega
  rw [bumps, hb, bumps_add n 1 (by omega)]
  omega

theorem bumps_split (m n guid : Nat) : bumps (m + n) guid = bumps n (bumps m guid) := by
  induction m generalizing guid with
  | zero => simp [bumps]
  | succ m ih =>
    rw [Nat.succ_add, bumps, ih]
    rfl

-- Every id is tried within one turn more than there are ids, wherever the search starts.
theorem bumps_reach (guid id : Nat) (hid : 1 ≤ id ∧ id ≤ maxGuid) :
    ∃ n, n < maxGuid + 1 ∧ bumps n guid = id := by
  obtain ⟨k, rfl⟩ : ∃ k, id = k + 1 := ⟨id - 1, by omega⟩
  by_cases hg : maxGuid ≤ guid
  · exact ⟨k + 1, by omega, bumps_wrap k guid hg (by omega)⟩
  · by_cases hle : guid ≤ k + 1
    · exact ⟨k + 1 - guid, by omega, by rw [bumps_add _ _ (by omega)]; omega⟩
    · refine ⟨(maxGuid - guid) + (k + 1), by omega, ?_⟩
      rw [bumps_split, bumps_add (maxGuid - guid) guid (by omega)]
      exact bumps_wrap k _ (by omega) (by omega)

theorem searchGuid_ne_none (hconns : nT + nU ≤ maxGuid) (w : Stack nT nU) (slot : Slot nT nU)
    (hslot : (w.app slot).conn.id = 0) (guid : Nat) :
    searchGuid (fun g => (lookupXtcpdState w g).isSome) (maxGuid + 1) guid ≠ none := by
  intro h
  have hused : ∀ id : Fin maxGuid, ∃ other, (w.app other).conn.id = id.val + 1 := by
    intro id
    obtain ⟨n, hn, hid⟩ := bumps_reach guid (id.val + 1) (by omega)
    rw [← lookup_isSome, ← hid]
    exact searchGuid_none h n hn
  choose f hf using hused
  have hinj : Function.Injective f := by
    intro a b hab
    have ha := hf a
    rw [hab, hf b] at ha
    exact Fin.ext (by omega)
  have hnot : slot ∉ Set.range f := by
    rintro ⟨id, rfl⟩
    rw [hf id] at hslot
    omega
  have hcard := Fintype.card_lt_of_injective_of_notMem f hinj hnot
  rw [Fintype.card_fin, card_slot] at hcard
  omega

theorem life_initState (hconns : nT + nU ≤ maxGuid) (w : Stack nT nU) (slot : Slot nT nU)
    (p : Option (Fin nT)) :
    ∃ guid, (w.life p).Issuable slot guid ∧
      (xtcpdInitState w slot).life p = (w.life p).issue slot guid := by
  unfold xtcpdInitState
  dsimp only
  have hslot : ((w.setApp slot fun _ => .zero).app slot).conn.id = 0 := by
    simp [Stack.setApp, Xtcpd.zero, zeroConn]
  have hother : ∀ other, other ≠ slot →
      ((w.setApp slot fun _ => .zero).app other) = w.app other := by
    intro other h
    simp [Stack.setApp, h]
  cases hs : searchGuid (fun g => (lookupXtcpdState (w.setApp slot fun _ => .zero) g).isSome)
      (maxGuid + 1) w.guid with
  | none => exact absurd hs (searchGuid_ne_none hconns _ slot hslot w.guid)
  | some guid =>
    obtain ⟨hfree, hrange⟩ := searchGuid_some hs
    refine ⟨guid, ⟨?_, hrange⟩, ?_⟩
    · intro other hne hid
      have hsome := (lookup_isSome (w.setApp slot fun _ => .zero) guid).mpr
        ⟨other, by rw [hother other hne]; exact hid⟩
      rw [hfree] at hsome
      cases hsome
    · have happ (x : Xtcpd nT nU) {β : Type} (g : Xtcpd nT nU → β) :
          g ∘ Function.update (Function.update w.app slot .zero) slot x =
            Function.update (g ∘ w.app) slot (g x) := by
        rw [Function.update_idem]
        exact Function.comp_update g w.app slot x
      exact Life.ext rfl rfl rfl rfl (happ _ (·.linknum)) (happ _ (·.conn.id))
        (happ _ (·.conn.connectionType)) (happ _ (·.s.connectRequest)) (happ _ (·.s.closed))
        rfl rfl rfl rfl rfl rfl rfl

end Xtcp.Uip
