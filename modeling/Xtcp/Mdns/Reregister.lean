import Xtcp.Mdns.Probing
import Xtcp.Mdns.Fit

namespace Xtcp.Mdns

namespace Registration

-- What a call hands to mdns_add_entry: the name and its type.
def namePrefix : Registration → List UInt8
  | .canonicalName name => name
  | .hostName name => name
  | .service name _ _ _ => name

def namePostfix : Registration → List UInt8
  | .canonicalName _ => text "local"
  | .hostName _ => text "local"
  | .service _ srvType _ _ => srvType

def entryType : Registration → EntryType
  | .canonicalName _ => .canonicalNameEntry
  | .hostName _ => .nameEntry
  | .service _ _ _ _ => .srvEntry

def srvPort : Registration → Int
  | .service _ _ port _ => port
  | _ => 0

def txt : Registration → List UInt8
  | .service _ _ _ txt => txt
  | _ => []

def slot (r : Registration) (table : Table) : Option Nat :=
  findEntry r.namePrefix r.namePostfix table

def sameKey (r r' : Registration) : Prop :=
  r.namePrefix = r'.namePrefix ∧ r.namePostfix = r'.namePostfix

theorem apply_eq (r : Registration) (table : Table) :
    r.apply table = ((r.slot table).map fun i => table.modify i r.fill).getD table := by
  have h : r.apply table =
      mdnsAddEntry r.namePrefix r.namePostfix r.txt r.srvPort r.entryType table := by
    cases r <;> rfl
  rw [h, mdnsAddEntry]
  have hf : fillEntry r.namePrefix r.namePostfix r.txt r.srvPort r.entryType = r.fill := by
    cases r <;> rfl
  cases hs : r.slot table with
  | none =>
    rw [slot] at hs
    rw [hs]
    rfl
  | some i =>
    rw [slot] at hs
    rw [hs, hf]
    rfl

end Registration

-- An entry for a service has the type and .local as its postfix.
def Entry.isFor (r : Registration) (e : Entry) : Prop :=
  e.state ≠ .unused ∧ e.namePrefix = r.namePrefix ∧
    e.namePostfix = if e.entryType = .srvEntry then r.namePostfix ++ text ".local"
      else r.namePostfix

section Entry

variable {n p : List UInt8} {e : Entry} {table : Table} {i : Nat} {r r' : Registration}

theorem registered_iff : e.registered n p ↔
    e.state ≠ .unused ∧ e.namePostfix = p ∧ e.namePrefix = n := by
  simp only [Entry.registered, Bool.and_eq_true, bne_iff_ne, beq_iff_eq]
  exact ⟨fun ⟨⟨hu, hp⟩, hn⟩ => ⟨hu, hp.symm, hn.symm⟩,
    fun ⟨hu, hp, hn⟩ => ⟨⟨hu, hp.symm⟩, hn.symm⟩⟩

@[simp] theorem fill_state : (r.fill e).state = .disabled := by
  cases r <;> rfl

@[simp] theorem fill_prefix : (r.fill e).namePrefix = r.namePrefix := by
  cases r <;> rfl

@[simp] theorem fill_entryType : (r.fill e).entryType = r.entryType := by
  cases r <;> rfl

@[simp] theorem fill_srvPort : (r.fill e).srvPort = r.srvPort := by
  cases r <;> rfl

theorem fill_namePostfix : (r.fill e).namePostfix =
    if r.entryType = .srvEntry then r.namePostfix ++ text ".local" else r.namePostfix := by
  cases r <;> rfl

theorem fill_txt (h : r.entryType = .srvEntry) : (r.fill e).txtRecord = r.txt := by
  cases r with
  | canonicalName _ => cases h
  | hostName _ => cases h
  | service _ _ _ _ => rfl

theorem fill_isFor : (r.fill e).isFor r' ↔ r.sameKey r' := by
  simp only [Entry.isFor, fill_state, fill_prefix, fill_entryType, fill_namePostfix,
    Registration.sameKey]
  by_cases h : r.entryType = .srvEntry <;> simp [h]

theorem findEntry_none : findEntry n p table = none ↔
    ∀ e ∈ table, e.state ≠ .unused ∧ ¬ e.registered n p := by
  simp only [findEntry, Option.or_eq_none_iff, List.findIdx?_eq_none_iff, beq_eq_false_iff_ne,
    Bool.not_eq_true]
  exact ⟨fun h e he => ⟨h.2 e he, h.1 e he⟩,
    fun h => ⟨fun e he => (h e he).2, fun e he => (h e he).1⟩⟩

theorem findEntry_some (h : findEntry n p table = some i) : ∃ e, table[i]? = some e ∧
    (e.registered n p ∨ e.state = .unused ∧ ∀ e' ∈ table, ¬ e'.registered n p) := by
  rcases Option.or_eq_some_iff.mp h with h | ⟨hnone, h⟩
  · obtain ⟨hi, hp, -⟩ := List.findIdx?_eq_some_iff_getElem.mp h
    exact ⟨_, List.getElem?_eq_getElem hi, Or.inl hp⟩
  · obtain ⟨hi, hp, -⟩ := List.findIdx?_eq_some_iff_getElem.mp h
    refine ⟨_, List.getElem?_eq_getElem hi, Or.inr ⟨eq_of_beq hp, fun e he => ?_⟩⟩
    rw [List.findIdx?_eq_none_iff.mp hnone e he]
    exact Bool.false_ne_true

theorem findEntry_eq (hi : table[i]? = some e) (he : e.registered n p)
    (hu : ∀ j e', table[j]? = some e' → e'.registered n p → j = i) :
    findEntry n p table = some i := by
  cases h : findEntry n p table with
  | none => exact absurd he (findEntry_none.mp h e (List.mem_of_getElem? hi)).2
  | some j =>
    obtain ⟨e', hj, hr | ⟨-, hr⟩⟩ := findEntry_some h
    · rw [hu j e' hj hr]
    · exact absurd he (hr e (List.mem_of_getElem? hi))

end Entry

section Run

variable (calls : List Registration)

def before (k : Nat) : Table := register (calls.take k)

-- The call at k takes the entry at i.
def Uses (k : Nat) (r : Registration) (i : Nat) : Prop :=
  calls[k]? = some r ∧ r.slot (before calls k) = some i

-- What is said of registering a name and type again.
structure OneEntry : Prop where
  same {k k' i : Nat} {r r' : Registration} : k < k' → Uses calls k r i → calls[k']? = some r' →
    r.sameKey r' → Uses calls k' r' i
  updated {k i : Nat} {r : Registration} : Uses calls k r i →
    ∃ e, (before calls (k + 1))[i]? = some e ∧ e.isFor r ∧ e.srvPort = r.srvPort ∧
      (r.entryType = .srvEntry → e.txtRecord = r.txt)
  once {k i j : Nat} {r : Registration} {e e' : Entry} : (before calls k)[i]? = some e →
    (before calls k)[j]? = some e' → e.isFor r → e'.isFor r → i = j
  ignored {k : Nat} {r : Registration} : calls[k]? = some r → r.slot (before calls k) = none →
    (before calls k).length = mdnsNumTableEntries ∧
      ∀ e ∈ before calls k, e.state ≠ .unused ∧ ¬ e.isFor r

-- A free entry, or one with these very strings.
def HasRoom (r : Registration) (table : Table) : Prop :=
  ∃ e ∈ table, e.state = .unused ∨ e.registered r.namePrefix r.namePostfix

end Run

section Run

variable {calls : List Registration} {k m i : Nat} {r : Registration} {e : Entry}

theorem before_succ (k : Nat) : before calls (k + 1) =
    match calls[k]? with
    | none => before calls k
    | some r => r.apply (before calls k) := by
  unfold before register
  rw [List.take_add_one, List.foldl_append]
  cases calls[k]? <;> rfl

theorem next_get (calls : List Registration) (k i : Nat) :
    (∃ r, Uses calls k r i ∧
      (before calls (k + 1))[i]? = ((before calls k)[i]?).map r.fill) ∨
    (∀ r, ¬ Uses calls k r i) ∧ (before calls (k + 1))[i]? = (before calls k)[i]? := by
  rw [before_succ]
  cases hr : calls[k]? with
  | none =>
    refine Or.inr ⟨fun r hu => ?_, rfl⟩
    cases hr.symm.trans hu.1
  | some r =>
    simp only [Registration.apply_eq]
    cases hs : r.slot (before calls k) with
    | none =>
      refine Or.inr ⟨fun r' hu => ?_, rfl⟩
      obtain rfl := Option.some.inj (hr.symm.trans hu.1)
      cases hs.symm.trans hu.2
    | some j =>
      simp only [Option.map_some, Option.getD_some, List.getElem?_modify]
      by_cases hj : j = i
      · subst hj
        exact Or.inl ⟨r, ⟨hr, hs⟩, by simp⟩
      · refine Or.inr ⟨fun r' hu => ?_, by simp [hj]⟩
        obtain rfl := Option.some.inj (hr.symm.trans hu.1)
        exact hj (Option.some.inj (hs.symm.trans hu.2))

theorem Uses.unique {i' : Nat} {r' : Registration} (h : Uses calls k r i)
    (h' : Uses calls k r' i') : r = r' ∧ i = i' := by
  obtain rfl := Option.some.inj (h.1.symm.trans h'.1)
  exact ⟨rfl, Option.some.inj (h.2.symm.trans h'.2)⟩

theorem Uses.taken (h : Uses calls k r i) : ∃ e, (before calls k)[i]? = some e ∧
    (before calls (k + 1))[i]? = some (r.fill e) ∧
    (e.registered r.namePrefix r.namePostfix ∨
      e.state = .unused ∧ ∀ e' ∈ before calls k, ¬ e'.registered r.namePrefix r.namePostfix) := by
  obtain ⟨e, hi, he⟩ := findEntry_some h.2
  rcases next_get calls k i with ⟨r', hu, hn⟩ | ⟨hu, -⟩
  · obtain ⟨rfl, -⟩ := h.unique hu
    rw [hi] at hn
    exact ⟨e, hi, hn, he⟩
  · exact absurd h (hu r)

theorem slot_isSome : (r.slot (before calls k)).isSome ↔ HasRoom r (before calls k) := by
  rw [← not_iff_not, Bool.not_eq_true, Option.isSome_eq_false_iff, Option.isNone_iff_eq_none,
    Registration.slot, findEntry_none, HasRoom]
  simp only [not_exists, not_and, not_or]

theorem postfix_of_ne (h : r.entryType ≠ .srvEntry) : r.namePostfix = text "local" := by
  cases r with
  | canonicalName _ => rfl
  | hostName _ => rfl
  | service _ _ _ _ => exact absurd rfl h

theorem fill_local {n : List UInt8} : (r.fill e).registered n (text "local") ↔
    r.entryType ≠ .srvEntry ∧ r.namePrefix = n := by
  rw [registered_iff, fill_namePostfix, fill_prefix, fill_state]
  by_cases h : r.entryType = .srvEntry
  · have hlen : r.namePostfix ++ text ".local" ≠ text "local" := by
      intro heq
      have := congrArg List.length heq
      rw [List.length_append] at this
      have h1 : (text ".local").length = 6 := by decide
      have h2 : (text "local").length = 5 := by decide
      omega
    simp [h, hlen]
  · simp [h, postfix_of_ne h]

-- The stored type of a service only grows, so that its own type does not find it again.
theorem Uses.grown (h : Uses calls k r i) (hr : r.entryType = .srvEntry) (hm : k < m) :
    ∃ e, (before calls m)[i]? = some e ∧ e.state ≠ .unused ∧ e.namePrefix = r.namePrefix ∧
      r.namePostfix.length < e.namePostfix.length := by
  induction m, hm using Nat.le_induction with
  | base =>
    obtain ⟨e, -, hn, -⟩ := h.taken
    refine ⟨_, hn, by simp, by simp, ?_⟩
    have hlen : (text ".local").length = 6 := by decide
    rw [fill_namePostfix, if_pos hr, List.length_append]
    omega
  | succ m _ ih =>
    obtain ⟨e, hi, hu, hp, hl⟩ := ih
    rcases next_get calls m i with ⟨r', hu', hn⟩ | ⟨-, hn⟩
    · obtain ⟨e', hi', -, he'⟩ := hu'.taken
      obtain rfl := Option.some.inj (hi.symm.trans hi')
      have hreg := registered_iff.mp (he'.resolve_right fun h => hu h.1)
      rw [hi] at hn
      refine ⟨_, hn, by simp, fill_prefix.trans (hreg.2.2.symm.trans hp), ?_⟩
      rw [hreg.2.1] at hl
      rw [fill_namePostfix]
      split
      · rw [List.length_append]
        omega
      · exact hl
    · exact ⟨e, hn.trans hi, hu, hp, hl⟩

-- At most one entry has a name as a host's.
theorem local_once {n : List UInt8} {j : Nat} {e' : Entry} (hi : (before calls k)[i]? = some e)
    (hj : (before calls k)[j]? = some e') (he : e.registered n (text "local"))
    (he' : e'.registered n (text "local")) : i = j := by
  induction k generalizing i j e e' with
  | zero =>
    have h0 := List.eq_of_mem_replicate (List.mem_of_getElem? hi)
    subst h0
    exact absurd rfl (registered_iff.mp he).1
  | succ k ih =>
    have hused {i j : Nat} {e e' : Entry} {r : Registration} (hu : Uses calls k r i)
        (hi : (before calls (k + 1))[i]? = some e) (hj : (before calls (k + 1))[j]? = some e')
        (he : e.registered n (text "local")) (he' : e'.registered n (text "local")) : i = j := by
      obtain ⟨e0, hi0, hi1, h0⟩ := hu.taken
      obtain rfl := Option.some.inj (hi1.symm.trans hi)
      obtain ⟨hr, rfl⟩ := fill_local.mp he
      rcases next_get calls k j with ⟨r', hu', -⟩ | ⟨-, hn⟩
      · exact (hu.unique hu').2
      · rw [hn] at hj
        rw [postfix_of_ne hr] at h0
        rcases h0 with h0 | ⟨-, h0⟩
        · exact ih hi0 hj h0 he'
        · exact absurd he' (h0 e' (List.mem_of_getElem? hj))
    rcases next_get calls k i with ⟨r, hu, -⟩ | ⟨-, hn⟩
    · exact hused hu hi hj he he'
    · rcases next_get calls k j with ⟨r, hu, -⟩ | ⟨-, hn'⟩
      · exact (hused hu hj hi he' he).symm
      · exact ih (hn.symm.trans hi) (hn'.symm.trans hj) he he'

-- Each entry was filled by a call of its name and type.
theorem last_use (hi : (before calls m)[i]? = some e) (he : e.state ≠ .unused) :
    ∃ k r, k < m ∧ Uses calls k r i ∧ ∀ r', e.isFor r' ↔ r.sameKey r' := by
  induction m generalizing e with
  | zero =>
    have h0 := List.eq_of_mem_replicate (List.mem_of_getElem? hi)
    subst h0
    exact absurd rfl he
  | succ m ih =>
    rcases next_get calls m i with ⟨r, hu, -⟩ | ⟨-, hn⟩
    · obtain ⟨e0, -, hi1, -⟩ := hu.taken
      obtain rfl := Option.some.inj (hi1.symm.trans hi)
      exact ⟨m, r, Nat.lt_succ_self m, hu, fun r' => fill_isFor⟩
    · obtain ⟨k, r, hk, hu, hr⟩ := ih (hn.symm.trans hi) he
      exact ⟨k, r, Nat.lt_succ_of_lt hk, hu, hr⟩

end Run

section Again

variable {calls : List Registration} {k k' i : Nat} {r r' : Registration}

-- No service for which the table had room is registered again.
def NoServiceAgain (calls : List Registration) : Prop :=
  ∀ k k' r r', k < k' → calls[k]? = some r → calls[k']? = some r' → r.sameKey r' →
    HasRoom r (before calls k) → r.entryType ≠ .srvEntry

theorem Uses.room (h : Uses calls k r i) : HasRoom r (before calls k) :=
  slot_isSome.mp (by rw [h.2]; rfl)

-- A host's entry keeps its strings up to the next call of the name and type.
theorem Uses.held (hq : NoServiceAgain calls) (h : Uses calls k r i) (hr : calls[k']? = some r')
    (hs : r.sameKey r') {m : Nat} (hm : k < m) (hmk : m ≤ k') :
    ∃ e, (before calls m)[i]? = some e ∧ e.registered r.namePrefix (text "local") := by
  induction m, hm using Nat.le_induction with
  | base =>
    obtain ⟨e, -, hn, -⟩ := h.taken
    exact ⟨_, hn, fill_local.mpr ⟨hq k k' r r' hmk h.1 hr hs h.room, rfl⟩⟩
  | succ m hkm ih =>
    obtain ⟨e, hi, he⟩ := ih (by omega)
    rcases next_get calls m i with ⟨r0, hu, hn⟩ | ⟨-, hn⟩
    · obtain ⟨e', hi', -, he'⟩ := hu.taken
      obtain rfl := Option.some.inj (hi.symm.trans hi')
      have hreg := registered_iff.mp he
      have hreg' := registered_iff.mp (he'.resolve_right fun h => hreg.1 h.1)
      have hlocal := postfix_of_ne (hq k k' r r' (by omega) h.1 hr hs h.room)
      have hkey : r0.sameKey r' := by
        refine ⟨?_, ?_⟩
        · rw [← hs.1, ← hreg.2.2, hreg'.2.2]
        · rw [← hs.2, hlocal, ← hreg.2.1, hreg'.2.1]
      rw [hi] at hn
      refine ⟨_, hn, fill_local.mpr ⟨hq m k' r0 r' (by omega) hu.1 hr hkey hu.room, ?_⟩⟩
      rw [← hreg.2.2, hreg'.2.2]
    · exact ⟨e, hn.trans hi, he⟩

theorem same_entry (hq : NoServiceAgain calls) (hk : k < k') (h : Uses calls k r i)
    (hr : calls[k']? = some r') (hs : r.sameKey r') : Uses calls k' r' i := by
  obtain ⟨e, hi, he⟩ := h.held hq hr hs hk (Nat.le_refl _)
  have hlocal := postfix_of_ne (hq k k' r r' hk h.1 hr hs h.room)
  refine ⟨hr, ?_⟩
  rw [Registration.slot, ← hs.1, ← hs.2, hlocal]
  exact findEntry_eq hi he fun j e' hj he' => local_once hj hi he' he

theorem two_entries (hk : k < k') (h : Uses calls k r i) (hr : r.entryType = .srvEntry)
    (hs : r.sameKey r') : ¬ Uses calls k' r' i := by
  intro h'
  obtain ⟨e, hi, hu, -, hl⟩ := h.grown hr hk
  obtain ⟨e', hi', -, he'⟩ := h'.taken
  obtain rfl := Option.some.inj (hi.symm.trans hi')
  have hreg := registered_iff.mp (he'.resolve_right fun h => hu h.1)
  rw [hreg.2.1, hs.2] at hl
  omega

end Again

theorem one_entry_iff (calls : List Registration) : OneEntry calls ↔ NoServiceAgain calls := by
  constructor
  · intro h k k' r r' hk hr hr' hs hroom hsrv
    obtain ⟨i, hi⟩ := Option.isSome_iff_exists.mp (slot_isSome.mpr hroom)
    exact two_entries hk ⟨hr, hi⟩ hsrv hs (h.same hk ⟨hr, hi⟩ hr' hs)
  · intro hq
    refine ⟨fun hk h hr' hs => same_entry hq hk h hr' hs, ?_, ?_, ?_⟩
    · intro k i r h
      obtain ⟨e, -, hn, -⟩ := h.taken
      exact ⟨_, hn, fill_isFor.mpr ⟨rfl, rfl⟩, fill_srvPort, fill_txt⟩
    · intro k i j r e e' hi hj he he'
      obtain ⟨k1, r1, -, hu1, hr1⟩ := last_use hi he.1
      obtain ⟨k2, r2, -, hu2, hr2⟩ := last_use hj he'.1
      have h1 := (hr1 r).mp he
      have h2 := (hr2 r).mp he'
      have h12 : r1.sameKey r2 := ⟨h1.1.trans h2.1.symm, h1.2.trans h2.2.symm⟩
      have h21 : r2.sameKey r1 := ⟨h12.1.symm, h12.2.symm⟩
      rcases Nat.lt_trichotomy k1 k2 with hlt | rfl | hlt
      · exact ((same_entry hq hlt hu1 hu2.1 h12).unique hu2).2
      · exact (hu1.unique hu2).2
      · exact ((same_entry hq hlt hu2 hu1.1 h21).unique hu1).2.symm
    · intro k r hr hnone
      refine ⟨length_register _, fun e he => ?_⟩
      have hused := (findEntry_none.mp hnone e he).1
      refine ⟨hused, fun hfor => ?_⟩
      obtain ⟨i, hi⟩ := List.mem_iff_getElem?.mp he
      obtain ⟨k1, r1, hk1, hu1, hr1⟩ := last_use hi hused
      cases hnone.symm.trans (same_entry hq hk1 hu1 hr ((hr1 r).mp hfor)).2

-- A service registered again takes a second entry, and the first one keeps its port.
theorem service_registered_twice : ∃ calls : List Registration, ¬ OneEntry calls ∧
    ((register calls).filter fun e => e.state != .unused).map
        (fun e => (e.namePrefix, e.namePostfix, e.srvPort)) =
      [(text "printer", text "_http._tcp.local", 80),
        (text "printer", text "_http._tcp.local", 8080)] := by
  refine ⟨[.service (text "printer") (text "_http._tcp") 80 (text "a"),
    .service (text "printer") (text "_http._tcp") 8080 (text "b")], fun h => ?_, by decide +kernel⟩
  have h1 := (h.same (i := 0) (Nat.lt_succ_self 0) ⟨rfl, by decide +kernel⟩ rfl ⟨rfl, rfl⟩).2
  revert h1
  decide +kernel

end Xtcp.Mdns
