import Mathlib.Data.List.Infix

namespace Xtcp.Incremental

-- Records taken one after another from the front of a stream. What is asked for may depend on
-- the records got so far.
structure Parser (α C : Type) where
  next : C → List α → Option (List α × List α)
  splits : ∀ {c s r t}, next c s = some (r, t) → r ++ t = s
  progress : ∀ {c s r t}, next c s = some (r, t) → r ≠ []
  stable : ∀ {c s r t}, next c s = some (r, t) → ∀ u, next c (s ++ u) = some (r, t ++ u)
  whole : ∀ {c s u r t}, next c s = none → next c (s ++ u) = some (r, t) → s.length ≤ r.length

namespace Parser

variable {α C : Type} (p : Parser α C) (choose : List (List α) → C)

theorem shorter {c : C} {s r t : List α} (h : p.next c s = some (r, t)) : t.length < s.length := by
  have hlen := congrArg List.length (p.splits h)
  rw [List.length_append] at hlen
  have hpos : 0 < r.length := List.length_pos_iff.mpr (p.progress h)
  omega

theorem next_nil (c : C) : p.next c [] = none := by
  cases h : p.next c [] with
  | none => rfl
  | some x => exact absurd (p.shorter h) (Nat.not_lt_zero _)

def drainWithin : Nat → List (List α) → List α → List (List α) × List α
  | 0, recs, s => (recs, s)
  | n + 1, recs, s =>
      match p.next (choose recs) s with
      | none => (recs, s)
      | some (r, t) => drainWithin n (recs ++ [r]) t

-- The records of a stream that is there at once, and what is left of it.
def drain (recs : List (List α)) (s : List α) : List (List α) × List α :=
  p.drainWithin choose s.length recs s

variable {recs : List (List α)} {s r t : List α}

theorem drainWithin_none (n : Nat) (h : p.next (choose recs) s = none) :
    p.drainWithin choose n recs s = (recs, s) := by
  cases n with
  | zero => rfl
  | succ n => rw [drainWithin, h]

theorem drainWithin_eq {n : Nat} (h : s.length ≤ n) :
    p.drainWithin choose n recs s = p.drain choose recs s := by
  have henough : ∀ n m recs s, s.length ≤ n → s.length ≤ m →
      p.drainWithin choose n recs s = p.drainWithin choose m recs s := by
    intro n
    induction n with
    | zero =>
      intro m recs s hn _
      obtain rfl := List.eq_nil_of_length_eq_zero (Nat.le_zero.mp hn)
      have hnone := p.next_nil (choose recs)
      rw [p.drainWithin_none choose 0 hnone, p.drainWithin_none choose m hnone]
    | succ n ih =>
      intro m recs s hn hm
      cases hs : p.next (choose recs) s with
      | none => rw [p.drainWithin_none choose _ hs, p.drainWithin_none choose _ hs]
      | some x =>
        obtain ⟨r, t⟩ := x
        have hshort := p.shorter hs
        cases m with
        | zero => omega
        | succ m =>
          rw [drainWithin, drainWithin, hs]
          exact ih m _ t (by omega) (by omega)
  exact henough n s.length recs s h le_rfl

theorem drain_none (h : p.next (choose recs) s = none) : p.drain choose recs s = (recs, s) :=
  p.drainWithin_none choose _ h

theorem drain_some (h : p.next (choose recs) s = some (r, t)) :
    p.drain choose recs s = p.drain choose (recs ++ [r]) t := by
  have hshort := p.shorter h
  obtain ⟨n, hn⟩ : ∃ n, s.length = n + 1 := ⟨s.length - 1, by omega⟩
  rw [drain, hn, drainWithin, h]
  exact p.drainWithin_eq choose (by omega)

theorem drain_induct {P : List (List α) → List α → Prop}
    (hnone : ∀ recs s, p.next (choose recs) s = none → P recs s)
    (hsome : ∀ recs s r t, p.next (choose recs) s = some (r, t) → P (recs ++ [r]) t → P recs s)
    (recs : List (List α)) (s : List α) : P recs s := by
  induction hn : s.length using Nat.strong_induction_on generalizing recs s with
  | _ n ih =>
    cases hs : p.next (choose recs) s with
    | none => exact hnone recs s hs
    | some x =>
      obtain ⟨r, t⟩ := x
      exact hsome recs s r t hs (ih t.length (hn ▸ p.shorter hs) (recs ++ [r]) t rfl)

-- More of the stream only adds to what was parsed before.
theorem drain_append (recs : List (List α)) (s u : List α) :
    p.drain choose recs (s ++ u) =
      p.drain choose (p.drain choose recs s).1 ((p.drain choose recs s).2 ++ u) := by
  induction recs, s using p.drain_induct choose with
  | hnone recs s h => rw [p.drain_none choose h]
  | hsome recs s r t h ih => rw [p.drain_some choose (p.stable h u), p.drain_some choose h, ih]

theorem drain_append_congr {recs recs' : List (List α)} {s s' : List α}
    (h : p.drain choose recs s = p.drain choose recs' s') (u : List α) :
    p.drain choose recs (s ++ u) = p.drain choose recs' (s' ++ u) := by
  rw [p.drain_append, h, ← p.drain_append]

theorem drain_prefix (recs : List (List α)) (s : List α) :
    recs <+: (p.drain choose recs s).1 := by
  induction recs, s using p.drain_induct choose with
  | hnone recs s h => rw [p.drain_none choose h]
  | hsome recs s r t h ih =>
    rw [p.drain_some choose h]
    exact (List.prefix_append recs [r]).trans ih

theorem drain_flatten (recs : List (List α)) (s : List α) :
    (p.drain choose recs s).1.flatten ++ (p.drain choose recs s).2 = recs.flatten ++ s := by
  induction recs, s using p.drain_induct choose with
  | hnone recs s h => rw [p.drain_none choose h]
  | hsome recs s r t h ih =>
    rw [p.drain_some choose h, ih, ← p.splits h]
    simp

-- The part of a record that is there is no longer than the record, when it comes to its end, or
-- else than what is left over.
theorem held_le (h : p.next (choose recs) s = none) (u : List α) :
    s.length ≤ (p.drain choose recs (s ++ u)).2.length ∨
      ∃ r ∈ (p.drain choose recs (s ++ u)).1, s.length ≤ r.length := by
  cases hu : p.next (choose recs) (s ++ u) with
  | none =>
    rw [p.drain_none choose hu]
    exact Or.inl (by simp)
  | some x =>
    obtain ⟨r, t⟩ := x
    rw [p.drain_some choose hu]
    refine Or.inr ⟨r, ?_, p.whole h hu⟩
    exact (p.drain_prefix choose (recs ++ [r]) t).subset (by simp)

end Parser

end Xtcp.Incremental
