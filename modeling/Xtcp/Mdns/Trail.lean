import Xtcp.Mdns.Name
import Mathlib.Algebra.Ring.Nat

namespace Xtcp.Mdns

section Trail

variable (data : List UInt8)

def byte (p : Nat) : UInt8 := data.getD p 0

-- The address behind the label at p, or the one to which the pointer there leads.
def next (p : Nat) : Nat :=
  if compressed (byte data p) then offset (byte data p) (byte data (p + 1))
  else p + 1 + (byte data p).toNat

def Inside (p : Nat) : Prop :=
  p < data.length ∧ (compressed (byte data p) → p + 1 < data.length)

-- A record goes on behind the first pointer of its name, one byte late.
def behind (p e : Nat) : Nat := if compressed (byte data p) then p + 3 else e

-- The labels from p on come to an end in as many hops, or to an address beyond the datagram, and
-- are within it up to there.
inductive Trail : Nat → Nat → Option Nat → Prop where
  | beyond {hops p : Nat} : Inside data p → data.length < next data p → Trail (hops + 1) p none
  | ends {hops p : Nat} : Inside data p → next data p < data.length →
      byte data (next data p) = 0 → Trail (hops + 1) p (some (behind data p (next data p + 1)))
  | more {hops p : Nat} {r : Option Nat} : Inside data p → next data p < data.length →
      byte data (next data p) ≠ 0 → Trail hops (next data p) r →
      Trail (hops + 1) p (r.map (behind data p))

def Named (hops p : Nat) (r : Option Nat) : Prop :=
  data.length < p ∧ r = none ∨ p ≤ data.length ∧ Trail data hops p r

-- The first i bytes of q stand at p.
def Agree (p : Nat) (q : List UInt8) (i : Nat) : Prop := ∀ j < i, q[j]? = some (byte data (p + j))

-- A comparison of n bytes at p with q stays inside, up to the first that differs.
def BytesWithin (p n : Nat) (q : List UInt8) : Prop :=
  ∀ i < n, i < q.length → Agree data p q i → p + i < data.length

-- The same for a comparison of q with the labels at p, which ends at a pointer.
inductive Compares : List UInt8 → Nat → Prop where
  | pointer {q : List UInt8} {p : Nat} : Inside data p → compressed (byte data p) →
      (q = [] → next data p < data.length) → Compares q p
  | label {q : List UInt8} {p n : Nat} : p < data.length → ¬ compressed (byte data p) →
      n = (byte data p).toNat → BytesWithin data (p + 1) n q →
      (Agree data (p + 1) q (min n q.length) → p + 1 + min n q.length < data.length) →
      (Agree data (p + 1) q n → byte data (p + 1 + n) ≠ 0 → q.drop (n + 1) ≠ [] →
        Compares (q.drop (n + 1)) (p + 1 + n)) → Compares q p

end Trail

section Parse

variable {data : List UInt8} {p : Nat}

theorem read_of_lt (h : p < data.length) : data[p]? = some (byte data p) := by
  rw [byte, List.getD_eq_getElem?_getD, List.getElem?_eq_getElem h]
  rfl

theorem read_of_le (h : data.length ≤ p) : data[p]? = none := List.getElem?_eq_none h

theorem skipLabel_le {limit query n : Nat} (h : query ≤ limit) :
    skipLabel limit query n = if limit < query + n then none else some (query + n) := by
  induction n generalizing query with
  | zero => rw [skipLabel, if_neg (by omega), Nat.add_zero]
  | succ n ih =>
    unfold skipLabel
    split
    · rw [if_pos (by omega)]
    · rw [ih (by omega), Nat.add_assoc, Nat.add_comm 1]

theorem parseTurn_inside (h : Inside data p) (saved : Option Nat) :
    parseTurn (fun i => data[i]?) data.length p saved =
      some (if data.length < next data p then none
        else some (next data p,
          if compressed (byte data p) then some (saved.getD (p + 2)) else saved)) := by
  have hlim : ¬ data.length < p + 1 := by have := h.1; omega
  simp only [parseTurn, read_of_lt h.1, Option.bind_eq_bind, Option.bind_some, if_neg hlim, next]
  by_cases hc : compressed (byte data p)
  · simp only [if_pos hc, read_of_lt (h.2 hc), Option.bind_some]
    split <;> rfl
  · simp only [if_neg hc, skipLabel_le (Nat.le_of_not_lt hlim)]
    split <;> rfl

theorem parseTurn_outside (h : ¬ Inside data p) (saved : Option Nat) :
    parseTurn (fun i => data[i]?) data.length p saved = none := by
  by_cases hp : p < data.length
  · have hc : compressed (byte data p) ∧ data.length ≤ p + 1 := by
      by_contra hn
      exact h ⟨hp, fun hc => by_contra fun hl => hn ⟨hc, Nat.le_of_not_lt hl⟩⟩
    have hlim : ¬ data.length < p + 1 := by omega
    simp only [parseTurn, read_of_lt hp, Option.bind_eq_bind, Option.bind_some, if_neg hlim,
      if_pos hc.1, read_of_le hc.2, Option.bind_none]
  · simp only [parseTurn, read_of_le (Nat.le_of_not_lt hp), Option.bind_eq_bind, Option.bind_none]

theorem parseLoop_iff {fuel : Nat} {saved r : Option Nat} :
    parseLoop (fun i => data[i]?) data.length fuel p saved = some r ↔
      ∃ r', Trail data fuel p r' ∧ r = r'.map fun e => saved.elim e (· + 1) := by
  induction fuel generalizing p saved with
  | zero =>
    constructor
    · intro h
      cases h
    · rintro ⟨_, ht, -⟩
      cases ht
  | succ fuel ih =>
    by_cases hin : Inside data p
    · rw [parseLoop, parseTurn_inside hin]
      have hsaved (e : Nat) : (if compressed (byte data p) then some (saved.getD (p + 2))
          else saved).elim e (· + 1) = saved.elim (behind data p e) (· + 1) := by
        unfold behind
        split <;> cases saved <;> rfl
      by_cases hb : data.length < next data p
      · simp only [if_pos hb]
        constructor
        · rintro ⟨⟩
          exact ⟨none, .beyond hin hb, rfl⟩
        · rintro ⟨_, ht, rfl⟩
          cases ht with
          | beyond _ _ => rfl
          | ends _ hlt _ => omega
          | more _ hlt _ _ => omega
      · simp only [if_neg hb]
        by_cases hl : next data p < data.length
        · rw [read_of_lt hl]
          by_cases hz : byte data (next data p) = 0
          · have hend (s : Option Nat) : s.getD (next data p) + 1 =
                s.elim (next data p + 1) (· + 1) := by cases s <;> rfl
            simp only [if_pos hz, hend, hsaved]
            constructor
            · rintro ⟨⟩
              exact ⟨_, .ends hin hl hz, rfl⟩
            · rintro ⟨_, ht, rfl⟩
              cases ht with
              | beyond _ h => exact absurd h hb
              | ends _ _ _ => rfl
              | more _ _ h _ => exact absurd hz h
          · simp only [if_neg hz, ih]
            constructor
            · rintro ⟨r', ht, rfl⟩
              refine ⟨_, .more hin hl hz ht, ?_⟩
              cases r' with
              | none => rfl
              | some e => exact congrArg some (hsaved e)
            · rintro ⟨_, ht, rfl⟩
              cases ht with
              | beyond _ h => exact absurd h hb
              | ends _ _ h => exact absurd h hz
              | @more _ _ r' _ _ _ ht =>
                refine ⟨r', ht, ?_⟩
                cases r' with
                | none => rfl
                | some e => exact congrArg some (hsaved e).symm
        · rw [read_of_le (Nat.le_of_not_lt hl)]
          constructor
          · intro h
            cases h
          · rintro ⟨_, ht, -⟩
            cases ht with
            | beyond _ h => exact absurd h hb
            | ends _ h _ => exact absurd h hl
            | more _ h _ _ => exact absurd h hl
    · rw [parseLoop, parseTurn_outside hin]
      constructor
      · intro h
        cases h
      · rintro ⟨_, ht, -⟩
        cases ht with
        | beyond h _ => exact absurd h hin
        | ends h _ _ => exact absurd h hin
        | more h _ _ _ => exact absurd h hin

theorem parseName_iff {fuel : Nat} {r : Option Nat} :
    mdnsParseName (fun i => data[i]?) data.length fuel p = some r ↔ Named data fuel p r := by
  unfold mdnsParseName Named
  split
  · next h => simp [h, Nat.not_le_of_lt h, eq_comm]
  · next h =>
    rw [parseLoop_iff]
    simp [h, Nat.le_of_not_lt h]

end Parse

section Compare

variable {data : List UInt8} {p n : Nat} {q : List UInt8}

theorem agree_cons {c : UInt8} {i : Nat} : Agree data p (c :: q) (i + 1) ↔
    c = byte data p ∧ Agree data (p + 1) q i := by
  constructor
  · intro h
    refine ⟨by simpa using h 0 (Nat.succ_pos i), fun j hj => ?_⟩
    have hj := h (j + 1) (Nat.succ_lt_succ hj)
    rwa [List.getElem?_cons_succ, Nat.add_comm j, ← Nat.add_assoc] at hj
  · rintro ⟨rfl, h⟩ j hj
    cases j with
    | zero => rfl
    | succ j =>
      rw [List.getElem?_cons_succ, Nat.add_comm j, ← Nat.add_assoc]
      exact h j (Nat.lt_of_succ_lt_succ hj)

theorem bytesWithin_cons {c : UInt8} : BytesWithin data p (n + 1) (c :: q) ↔
    p < data.length ∧ (c = byte data p → BytesWithin data (p + 1) n q) := by
  constructor
  · intro h
    refine ⟨h 0 (Nat.succ_pos n) (Nat.succ_pos _) (fun j hj => by omega), fun hc i hi hq ha => ?_⟩
    have := h (i + 1) (Nat.succ_lt_succ hi) (Nat.succ_lt_succ hq) (agree_cons.mpr ⟨hc, ha⟩)
    omega
  · rintro ⟨hp, h⟩ i hi hq ha
    cases i with
    | zero => exact hp
    | succ i =>
      obtain ⟨hc, ha⟩ := agree_cons.mp ha
      have := h hc i (Nat.lt_of_succ_lt_succ hi) (Nat.lt_of_succ_lt_succ hq) ha
      omega

theorem ordered_isSome {a b : UInt8} {less more : α} {rest : Option α} :
    (if a < b then some less else if b < a then some more else rest).isSome ↔
      (a = b → rest.isSome) := by
  split
  · next h => simp [UInt8.ne_of_lt h]
  · next h =>
    split
    · next h' => simp [(UInt8.ne_of_lt h').symm]
    · next h' =>
      rw [UInt8.not_lt] at h h'
      simp [UInt8.le_antisymm h' h]

theorem compareLabel_isSome : (compareLabel (fun i => data[i]?) n q p).isSome ↔
    BytesWithin data p n q := by
  induction n generalizing q p with
  | zero => simp [compareLabel, BytesWithin]
  | succ n ih =>
    cases q with
    | nil => simp [compareLabel, BytesWithin]
    | cons c q =>
      rw [bytesWithin_cons, compareLabel]
      by_cases hp : p < data.length
      · rw [read_of_lt hp]
        simp only [hp, true_and, ordered_isSome, ih]
        exact imp_congr_left eq_comm
      · simp [hp]

theorem compareLabel_ok {q' : List UInt8} {p' : Nat}
    (h : compareLabel (fun i => data[i]?) n q p = some (.ok (q', p'))) :
    Agree data p q (min n q.length) ∧ q' = q.drop n ∧ p' = p + min n q.length := by
  induction n generalizing q p with
  | zero =>
    obtain ⟨rfl, rfl⟩ := Prod.mk.inj (Except.ok.inj (Option.some.inj h))
    exact ⟨fun j hj => by omega, rfl, by simp⟩
  | succ n ih =>
    cases q with
    | nil =>
      obtain ⟨rfl, rfl⟩ := Prod.mk.inj (Except.ok.inj (Option.some.inj h))
      exact ⟨fun j hj => by simp at hj, rfl, by simp⟩
    | cons c q =>
      rw [compareLabel] at h
      by_cases hp : p < data.length
      · rw [read_of_lt hp] at h
        simp only at h
        split at h
        · cases h
        · next hgt =>
          split at h
          · cases h
          · next hlt =>
            have hc : c = byte data p := by
              rw [UInt8.not_lt] at hgt hlt
              exact UInt8.le_antisymm hgt hlt
            obtain ⟨ha, hq, hp'⟩ := ih h
            rw [List.length_cons, Nat.succ_min_succ]
            exact ⟨agree_cons.mpr ⟨hc, ha⟩, hq, by omega⟩
      · rw [read_of_le (Nat.le_of_not_lt hp)] at h
        cases h

theorem compareLabel_agrees (hw : BytesWithin data p n q)
    (ha : Agree data p q (min n q.length)) :
    compareLabel (fun i => data[i]?) n q p = some (.ok (q.drop n, p + min n q.length)) := by
  induction n generalizing q p with
  | zero => simp [compareLabel]
  | succ n ih =>
    cases q with
    | nil => simp [compareLabel]
    | cons c q =>
      rw [List.length_cons, Nat.succ_min_succ] at ha
      obtain ⟨hc, ha⟩ := agree_cons.mp ha
      obtain ⟨hp, hw⟩ := bytesWithin_cons.mp hw
      rw [compareLabel, read_of_lt hp, ← hc]
      simp only [UInt8.lt_irrefl, if_false]
      rw [ih (hw hc) ha, List.length_cons, Nat.succ_min_succ, List.drop_succ_cons, Nat.add_assoc,
        Nat.add_comm 1]

theorem compareEnd_isSome : (compareEnd (fun i => data[i]?) q p).isSome ↔
    (q = [] → p < data.length) := by
  unfold compareEnd
  by_cases hq : q = []
  · by_cases hp : p < data.length
    · simp only [read_of_lt hp, hq, hp]
      by_cases hz : byte data p = 0 <;> simp [hz]
    · simp [hq, hp]
  · simp [hq]

theorem compares_label (hp : p < data.length) (hc : ¬ compressed (byte data p))
    (hn : n = (byte data p).toNat) : Compares data q p ↔ BytesWithin data (p + 1) n q ∧
      (Agree data (p + 1) q (min n q.length) → p + 1 + min n q.length < data.length) ∧
      (Agree data (p + 1) q n → byte data (p + 1 + n) ≠ 0 → q.drop (n + 1) ≠ [] →
        Compares data (q.drop (n + 1)) (p + 1 + n)) := by
  constructor
  · intro h
    cases h with
    | pointer _ hc' _ => exact absurd hc' hc
    | label _ _ hn' hw he hm =>
      rw [← hn] at hn'
      subst hn'
      exact ⟨hw, he, hm⟩
  · rintro ⟨hw, he, hm⟩
    exact .label hp hc hn hw he hm

theorem compareLoop_isSome {fuel : Nat} (hf : q.length < fuel) :
    (compareLoop (fun i => data[i]?) fuel q p).isSome ↔ Compares data q p := by
  induction fuel generalizing q p with
  | zero => omega
  | succ fuel ih =>
    rw [compareLoop]
    by_cases hp : p < data.length
    · rw [read_of_lt hp]
      by_cases hc : compressed (byte data p)
      · have hptr : Compares data q p ↔
            p + 1 < data.length ∧ (q = [] → next data p < data.length) := by
          constructor
          · intro h
            cases h with
            | pointer hin _ hq => exact ⟨hin.2 hc, hq⟩
            | label _ hc' _ _ _ _ => exact absurd hc hc'
          · rintro ⟨hp1, hq⟩
            exact .pointer ⟨hp, fun _ => hp1⟩ hc hq
        have hnext : next data p = offset (byte data p) (byte data (p + 1)) := if_pos hc
        simp only [if_pos hc]
        rw [hptr, hnext]
        by_cases hp1 : p + 1 < data.length
        · simp only [read_of_lt hp1, compareEnd_isSome, hp1, true_and]
        · simp [hp1]
      · simp only [if_neg hc]
        rw [compares_label hp hc rfl]
        generalize (byte data p).toNat = n
        cases hl : compareLabel (fun i => data[i]?) n q (p + 1) with
        | none =>
          have hw : ¬ BytesWithin data (p + 1) n q := by
            rw [← compareLabel_isSome, hl]
            exact Bool.false_ne_true
          simp [hw]
        | some x =>
          have hw : BytesWithin data (p + 1) n q := by
            rw [← compareLabel_isSome, hl]
            rfl
          cases x with
          | error v =>
            have ha : ¬ Agree data (p + 1) q (min n q.length) := fun ha => by
              rw [compareLabel_agrees hw ha] at hl
              cases hl
            have hn : ¬ Agree data (p + 1) q n := fun h => ha fun j hj => h j (by omega)
            simp [hw, ha, hn]
          | ok x =>
            obtain ⟨q', p'⟩ := x
            obtain ⟨ha, rfl, rfl⟩ := compareLabel_ok hl
            by_cases he : p + 1 + min n q.length < data.length
            · simp only [read_of_lt he, List.tail_drop]
              by_cases hd : q.drop (n + 1) = []
              · simp [hd, hw, he, compareEnd_isSome]
              · have hlen : n + 1 < q.length := by
                  by_contra hlt
                  exact hd (List.drop_eq_nil_of_le (Nat.le_of_not_lt hlt))
                have hmin : min n q.length = n := by omega
                rw [hmin] at ha he
                have hrec := @ih (p + 1 + n) (q.drop (n + 1)) (by rw [List.length_drop]; omega)
                simp only [hmin, hw, he, ha]
                by_cases hz : byte data (p + 1 + n) = 0
                · simp [hz, compareEnd_isSome, he]
                · simp [hz, hlen, hrec]
            · simp [ha, he]
    · rw [read_of_le (Nat.le_of_not_lt hp)]
      constructor
      · intro h
        cases h
      · intro h
        cases h with
        | pointer hin _ _ => exact absurd hin.1 hp
        | label h _ _ _ _ _ => exact absurd h hp

theorem compareName_isSome : (mdnsCompareName (fun i => data[i]?) q p).isSome ↔
    Compares data q p :=
  compareLoop_isSome (Nat.lt_succ_self _)

-- What was parsed as a name can be compared.
theorem Trail.compares {hops e : Nat} (h : Trail data hops p (some e)) (q : List UInt8) :
    Compares data q p := by
  generalize hr : some e = r at h
  induction h generalizing q e with
  | beyond _ _ => cases hr
  | @ends hops p hin hlt hz =>
    by_cases hc : compressed (byte data p)
    · exact .pointer hin hc fun _ => hlt
    · have hnext : next data p = p + 1 + (byte data p).toNat := if_neg hc
      rw [hnext] at hlt hz
      refine .label hin.1 hc rfl (fun i hi _ _ => by omega) (fun _ => by omega) ?_
      exact fun _ hne _ => absurd hz hne
  | @more hops p r hin hlt hne _ ih =>
    by_cases hc : compressed (byte data p)
    · exact .pointer hin hc fun _ => hlt
    · have hnext : next data p = p + 1 + (byte data p).toNat := if_neg hc
      rw [hnext] at hlt ih
      refine .label hin.1 hc rfl (fun i hi _ _ => by omega) (fun _ => by omega) ?_
      intro _ _ _
      obtain ⟨e', rfl, -⟩ := Option.map_eq_some_iff.mp hr.symm
      exact ih _ rfl

end Compare

end Xtcp.Mdns
