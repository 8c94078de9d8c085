import Mathlib.Data.List.Find
import Xtcp.Pip.Address.State

namespace Xtcp.Pip.Address

-- The search of pipOutgoingIPv4.
def lookup (table : Nat → Entry) (ipDst : Word) : Option Entry :=
  ((List.range arpEntries).find? fun i => (table i).ipAddress = ipDst).map table

-- The loop of pipARPStoreEntry at entry i, with n entries to go.
def storeLoop (table : Nat → Entry) (ipAddress : Word) : Nat → Nat → BitVec 8 → Nat → Nat
  | 0, _, _, minEntry => minEntry
  | n + 1, i, min, minEntry =>
    if (table i).ipAddress = ipAddress then i
    else if (table i).age < min then storeLoop table ipAddress n (i + 1) (table i).age i
    else storeLoop table ipAddress n (i + 1) min minEntry

inductive TableCall where
  | store (ipAddress : Word) (macAddress : Mac)
  | timeOut

def TableCall.apply (s : Host) : TableCall → Host
  | .store ipAddress macAddress => pipARPStoreEntry ipAddress macAddress s
  | .timeOut => pipTimeOutARP s

def runTable (s : Host) (cs : List TableCall) : Host := cs.foldl TableCall.apply s

section Slot

variable (table : Nat → Entry) (a : Word)

theorem storeLoop_eq (n i m : Nat) :
    storeLoop table a n i (table m).age m =
      match (List.range' i n).find? fun j => (table j).ipAddress = a with
      | some j => j
      | none => (List.range' i n).foldl
          (fun m j => if (table j).age < (table m).age then j else m) m := by
  induction n generalizing i m with
  | zero => rfl
  | succ n ih =>
    rw [storeLoop, List.range'_succ, List.find?_cons, List.foldl_cons]
    by_cases h : (table i).ipAddress = a
    · simp only [h, if_true, decide_true]
    · simp only [h, if_false, decide_false]
      split_ifs with hlt
      · exact ih (i + 1) i
      · exact ih (i + 1) m

-- The one loop of the source finds the slot.
theorem arpSlot_eq_storeLoop :
    arpSlot table a = storeLoop table a (arpEntries - 1) 1 (table 1).age 1 :=
  (storeLoop_eq table a _ 1 1).symm

theorem foldl_least_mem (l : List Nat) (m : Nat) :
    l.foldl (fun m j => if (table j).age < (table m).age then j else m) m ∈ m :: l := by
  induction l generalizing m with
  | nil => exact List.mem_cons_self
  | cons j l ih =>
    rw [List.foldl_cons]
    have h := ih (if (table j).age < (table m).age then j else m)
    split_ifs at h ⊢
    · exact List.mem_cons_of_mem m h
    · rcases List.mem_cons.mp h with h | h
      · rw [h]
        exact List.mem_cons_self
      · exact List.mem_cons_of_mem m (List.mem_cons_of_mem j h)

theorem foldl_least_le (l : List Nat) (m : Nat) :
    ∀ j ∈ m :: l, (table (l.foldl
      (fun m j => if (table j).age < (table m).age then j else m) m)).age ≤ (table j).age := by
  induction l generalizing m with
  | nil =>
    intro j hj
    rw [List.mem_singleton.mp hj]
    exact BitVec.le_refl _
  | cons k l ih =>
    rw [List.foldl_cons]
    split_ifs with hlt
    · intro j hj
      have hk := ih k k List.mem_cons_self
      rcases List.mem_cons.mp hj with rfl | hj
      · exact BitVec.le_trans hk (BitVec.le_of_lt hlt)
      · exact ih k j hj
    · intro j hj
      have hm := ih m m List.mem_cons_self
      rcases List.mem_cons.mp hj with rfl | hj
      · exact hm
      · rcases List.mem_cons.mp hj with rfl | hj
        · exact BitVec.le_trans hm (BitVec.not_lt.mp hlt)
        · exact ih m j (List.mem_cons_of_mem m hj)

theorem mem_slots {i : Nat} : i ∈ List.range' 1 (arpEntries - 1) ↔ 1 ≤ i ∧ i < arpEntries := by
  simp only [List.mem_range'_1, arpEntries]

theorem arpSlot_cases :
    ((table (arpSlot table a)).ipAddress = a ∧
        arpSlot table a ∈ List.range' 1 (arpEntries - 1)) ∨
      ((∀ j ∈ List.range' 1 (arpEntries - 1), (table j).ipAddress ≠ a) ∧
        arpSlot table a ∈ List.range' 1 (arpEntries - 1) ∧
        ∀ j ∈ List.range' 1 (arpEntries - 1), (table (arpSlot table a)).age ≤ (table j).age) := by
  rw [arpSlot]
  cases hfind : (List.range' 1 (arpEntries - 1)).find? fun i => (table i).ipAddress = a with
  | some i =>
    left
    have hi := List.find?_some hfind
    simp only [decide_eq_true_eq] at hi
    exact ⟨hi, List.mem_of_find?_eq_some hfind⟩
  | none =>
    right
    have hnone := List.find?_eq_none.mp hfind
    have hone : 1 ∈ List.range' 1 (arpEntries - 1) := mem_slots.mpr (by decide)
    refine ⟨fun j hj h => hnone j hj (by simpa using h), ?_, ?_⟩
    · rcases List.mem_cons.mp (foldl_least_mem table (List.range' 1 (arpEntries - 1)) 1) with h | h
      · rw [h]
        exact hone
      · exact h
    · intro j hj
      exact foldl_least_le table _ 1 j (List.mem_cons_of_mem 1 hj)

theorem arpSlot_mem : 1 ≤ arpSlot table a ∧ arpSlot table a < arpEntries := by
  rcases arpSlot_cases table a with h | h
  · exact mem_slots.mp h.2
  · exact mem_slots.mp h.2.1

end Slot

section Lookup

variable {table : Nat → Entry} {a : Word}

theorem lookup_eq_some {e : Entry} (h : lookup table a = some e) :
    ∃ i < arpEntries, table i = e ∧ e.ipAddress = a := by
  obtain ⟨i, hi, rfl⟩ := Option.map_eq_some_iff.mp h
  have hip := List.find?_some hi
  simp only [decide_eq_true_eq] at hip
  exact ⟨i, List.mem_range.mp (List.mem_of_find?_eq_some hi), rfl, hip⟩

-- Two tables that agree on which entries hold b, and on these entries.
theorem lookup_congr {t t' : Nat → Entry} {b : Word}
    (h : ∀ i < arpEntries, t' i = t i ∨ (t i).ipAddress ≠ b ∧ (t' i).ipAddress ≠ b) :
    lookup t' b = lookup t b := by
  have hfind : ((List.range arpEntries).find? fun i => (t' i).ipAddress = b) =
      (List.range arpEntries).find? fun i => (t i).ipAddress = b := by
    apply List.find?_congr
    intro i hi
    rcases h i (List.mem_range.mp hi) with heq | hne
    · rw [heq]
    · rw [decide_eq_false hne.1, decide_eq_false hne.2]
  rw [lookup, lookup, hfind]
  cases hi : (List.range arpEntries).find? fun i => (t i).ipAddress = b with
  | none => rfl
  | some i =>
    have hb := List.find?_some hi
    simp only [decide_eq_true_eq] at hb
    rcases h i (List.mem_range.mp (List.mem_of_find?_eq_some hi)) with heq | hne
    · rw [Option.map_some, Option.map_some, heq]
    · exact absurd hb hne.1

def Single (table : Nat → Entry) (a : Word) : Prop :=
  ∀ i < arpEntries, ∀ j < arpEntries, (table i).ipAddress = a → (table j).ipAddress = a → i = j

theorem lookup_of_single (hs : Single table a) {i : Nat} (hi : i < arpEntries)
    (hip : (table i).ipAddress = a) : lookup table a = some (table i) := by
  cases hl : lookup table a with
  | none =>
    rw [lookup, Option.map_eq_none_iff, List.find?_eq_none] at hl
    exact absurd (by simpa using hip) (hl i (List.mem_range.mpr hi))
  | some e =>
    obtain ⟨j, hj, he, hje⟩ := lookup_eq_some hl
    rw [← he, hs i hi j hj hip (by rw [he, hje])]

end Lookup

section Store

variable {table : Nat → Entry} {a b : Word} {m : Mac}

def stored (table : Nat → Entry) (a : Word) (m : Mac) : Nat → Entry :=
  Function.update table (arpSlot table a) ⟨a, m, 1, 0xfe⟩

theorem pipARPStoreEntry_table (s : Host) :
    (pipARPStoreEntry a m s).pipArpTable = stored s.pipArpTable a m := rfl

theorem stored_slot (table : Nat → Entry) (a : Word) (m : Mac) :
    stored table a m (arpSlot table a) = ⟨a, m, 1, 0xfe⟩ :=
  Function.update_self ..

theorem stored_of_ne {i : Nat} (h : i ≠ arpSlot table a) : stored table a m i = table i :=
  Function.update_of_ne h ..

theorem stored_zero : stored table a m 0 = table 0 :=
  stored_of_ne (Nat.ne_of_lt (arpSlot_mem table a).1)

theorem lookup_stored (hb : b ≠ a) (hslot : (table (arpSlot table a)).ipAddress ≠ b) :
    lookup (stored table a m) b = lookup table b := by
  apply lookup_congr
  intro i _
  by_cases h : i = arpSlot table a
  · rw [h, stored_slot]
    exact Or.inr ⟨hslot, hb.symm⟩
  · exact Or.inl (stored_of_ne h)

structure Mapped (table : Nat → Entry) : Prop where
  broadcast : table 0 = arpStart 0
  single : ∀ b, b ≠ 0 → b ≠ 0xFFFFFFFF → Single table b

theorem Mapped.start : Mapped arpStart where
  broadcast := rfl
  single := by
    intro b h0 hb i _ j _ hi hj
    have hzero : ∀ i, (arpStart i).ipAddress = 0 ∨ (arpStart i).ipAddress = 0xFFFFFFFF := by
      intro i
      rw [arpStart]
      split_ifs
      · exact Or.inr rfl
      · exact Or.inl rfl
    rcases hzero i with h | h
    · exact absurd (hi.symm.trans h) h0
    · exact absurd (hi.symm.trans h) hb

-- The slot that holds the address is the only one, the one of the victim the first.
theorem Mapped.slot_of_mem (hm : Mapped table) (h0 : a ≠ 0) (hb : a ≠ 0xFFFFFFFF) {i : Nat}
    (hi : i < arpEntries) (hip : (table i).ipAddress = a) : i = arpSlot table a := by
  rcases arpSlot_cases table a with h | h
  · exact hm.single a h0 hb i hi _ (arpSlot_mem table a).2 hip h.1
  · rcases Nat.eq_zero_or_pos i with rfl | hpos
    · rw [hm.broadcast] at hip
      exact absurd hip.symm hb
    · exact absurd hip (h.1 i (mem_slots.mpr ⟨hpos, hi⟩))

theorem Mapped.stored (hm : Mapped table) : Mapped (stored table a m) where
  broadcast := stored_zero.trans hm.broadcast
  single := by
    intro b h0 hb i hi j hj hib hjb
    by_cases h : b = a
    · have hslot : ∀ k < arpEntries, (Address.stored table a m k).ipAddress = b →
          k = arpSlot table a := by
        intro k hk hkb
        by_contra hne
        rw [stored_of_ne hne, h] at hkb
        exact hne (hm.slot_of_mem (h ▸ h0) (h ▸ hb) hk hkb)
      rw [hslot i hi hib, hslot j hj hjb]
    · have hold : ∀ k, (Address.stored table a m k).ipAddress = b → (table k).ipAddress = b := by
        intro k hk
        by_cases hks : k = arpSlot table a
        · rw [hks, stored_slot] at hk
          exact absurd hk.symm h
        · rwa [stored_of_ne hks] at hk
      exact hm.single b h0 hb i hi j hj (hold i hib) (hold j hjb)

end Store

section TimeOut

variable {table : Nat → Entry}

def aged (table : Nat → Entry) (i : Nat) : Entry :=
  if 1 ≤ i ∧ i < arpEntries then
    if 0 < (table i).age then { table i with age := (table i).age - 1 }
    else { table i with valid := 0 }
  else table i

theorem pipTimeOutARP_table (s : Host) : (pipTimeOutARP s).pipArpTable = aged s.pipArpTable := rfl

theorem aged_ipAddress (i : Nat) : (aged table i).ipAddress = (table i).ipAddress := by
  rw [aged]
  split_ifs <;> rfl

theorem aged_macAddr (i : Nat) : (aged table i).macAddr = (table i).macAddr := by
  rw [aged]
  split_ifs <;> rfl

theorem Mapped.aged (hm : Mapped table) : Mapped (aged table) where
  broadcast := hm.broadcast
  single := by
    intro b h0 hb i hi j hj hib hjb
    rw [aged_ipAddress] at hib hjb
    exact hm.single b h0 hb i hi j hj hib hjb

end TimeOut

theorem Mapped.run {s : Host} (hm : Mapped s.pipArpTable) (cs : List TableCall) :
    Mapped (runTable s cs).pipArpTable := by
  induction cs generalizing s with
  | nil => exact hm
  | cons c cs ih =>
    cases c with
    | store ipAddress macAddress => exact ih (s := pipARPStoreEntry ipAddress macAddress s) hm.stored
    | timeOut => exact ih (s := pipTimeOutARP s) hm.aged

theorem arpTable_map (s : Host) (hs : s.pipArpTable = arpStart) (cs : List TableCall) {a : Word}
    (h0 : a ≠ 0) (hb : a ≠ 0xFFFFFFFF) (m : Mac) :
    let table := (runTable s cs).pipArpTable
    let after := (pipARPStoreEntry a m (runTable s cs)).pipArpTable
    Single table a ∧ Single after a ∧
      (lookup after a).map Entry.macAddr = some m ∧
      after 0 = table 0 ∧ table 0 = ⟨0xFFFFFFFF, broadcast, 1, 0xff⟩ ∧
      (∀ i < arpEntries, (table i).ipAddress = a →
        (∀ j, j ≠ i → after j = table j) ∧ ∀ b, b ≠ a → lookup after b = lookup table b) ∧
      ((∀ i < arpEntries, (table i).ipAddress ≠ a) →
        ∃ i, 1 ≤ i ∧ i < arpEntries ∧ (after i).ipAddress = a ∧
          (∀ j, 1 ≤ j → j < arpEntries → (table i).age ≤ (table j).age) ∧
          (∀ j, j ≠ i → after j = table j) ∧
          ∀ b, b ≠ a → b ≠ (table i).ipAddress → lookup after b = lookup table b) := by
  intro table after
  have hm : Mapped table := Mapped.run (by rw [hs]; exact Mapped.start) cs
  have hm' : Mapped after := hm.stored
  have hslot := arpSlot_mem table a
  have hat : after (arpSlot table a) = ⟨a, m, 1, 0xfe⟩ := stored_slot table a m
  refine ⟨hm.single a h0 hb, hm'.single a h0 hb, ?_, stored_zero, hm.broadcast, ?_, ?_⟩
  · rw [lookup_of_single (hm'.single a h0 hb) hslot.2 (by rw [hat]), hat]
    rfl
  · intro i hi hip
    have hi' := hm.slot_of_mem h0 hb hi hip
    subst hi'
    refine ⟨fun j hj => stored_of_ne hj, fun b hba => ?_⟩
    exact lookup_stored hba (by rw [hip]; exact hba.symm)
  · intro hnew
    rcases arpSlot_cases table a with h | h
    · exact absurd h.1 (hnew _ hslot.2)
    · refine ⟨arpSlot table a, hslot.1, hslot.2, by rw [hat], ?_, fun j hj => stored_of_ne hj, ?_⟩
      · intro j h1 hj
        exact h.2.2 j (mem_slots.mpr ⟨h1, hj⟩)
      · intro b hba hbs
        exact lookup_stored hba hbs.symm

theorem arpTable_map_refresh :
    let cs : List TableCall := [.store 0xC0A80101 noMac, .timeOut]
    let after := (pipARPStoreEntry 0xC0A80101 broadcast (runTable (powerOn 0) cs)).pipArpTable
    (0xC0A80101 : Word) ≠ 0 ∧ (lookup after 0xC0A80101).map Entry.macAddr = some broadcast := by
  intro cs after
  have h := arpTable_map (powerOn 0) rfl cs (a := 0xC0A80101) (by decide) (by decide) broadcast
  exact ⟨by decide, h.2.2.1⟩

end Xtcp.Pip.Address
