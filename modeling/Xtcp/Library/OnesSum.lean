import Mathlib.Algebra.BigOperators.Group.List.Basic
import Mathlib.Algebra.Ring.Nat

namespace Xtcp.OnesSum

variable {m a b : Nat}

-- One's-complement addition with end-around carry, where m is the greatest number.
def add (m a b : Nat) : Nat := if a + b ≤ m then a + b else a + b - m

def total (m a : Nat) (ws : List Nat) : Nat := ws.foldl (add m) a

-- The representative of a number from 1 to m, or 0 for 0 only.
def fold (m n : Nat) : Nat := if n = 0 then 0 else (n - 1) % m + 1

theorem fold_le (h : 0 < m) (n : Nat) : fold m n ≤ m := by
  unfold fold
  split
  · omega
  · exact Nat.mod_lt _ h

theorem fold_of_le (h : a ≤ m) : fold m a = a := by
  unfold fold
  split
  · omega
  · rw [Nat.mod_eq_of_lt (by omega)]
    omega

theorem fold_eq_zero_iff : fold m a = 0 ↔ a = 0 := by
  unfold fold
  split <;> simp [*]

theorem fold_add_self (h : 0 < m) (ha : a ≠ 0) : fold m (a + m) = fold m a := by
  unfold fold
  rw [if_neg (by omega), if_neg ha, show a + m - 1 = a - 1 + m by omega, Nat.add_mod_right]

theorem fold_add_mul (ha : a ≠ 0) (k : Nat) : fold m (a + m * k) = fold m a := by
  unfold fold
  rw [if_neg (by omega), if_neg ha, show a + m * k - 1 = a - 1 + m * k by omega,
    Nat.add_mul_mod_self_left]

theorem fold_fold_add (m a b : Nat) : fold m (fold m a + b) = fold m (a + b) := by
  by_cases ha : a = 0
  · rw [ha]
    rfl
  · have hdiv := Nat.div_add_mod (a - 1) m
    have hfold : fold m a = (a - 1) % m + 1 := if_neg ha
    have hsum : a + b = fold m a + b + m * ((a - 1) / m) := by omega
    rw [hsum, fold_add_mul (by omega)]

theorem add_eq_fold (ha : a ≤ m) (hb : b ≤ m) : add m a b = fold m (a + b) := by
  unfold add
  split
  next h => exact (fold_of_le h).symm
  next h =>
    rw [show a + b = a + b - m + m * 1 by omega, fold_add_mul (by omega), fold_of_le (by omega)]
    omega

theorem total_eq_fold (hm : 0 < m) (ha : a ≤ m) (ws : List Nat) (hws : ∀ w ∈ ws, w ≤ m) :
    total m a ws = fold m (a + ws.sum) := by
  induction ws generalizing a with
  | nil => exact (fold_of_le ha).symm
  | cons w ws ih =>
    have hw := hws w List.mem_cons_self
    rw [total, List.foldl_cons, ← total, add_eq_fold ha hw,
      ih (fold_le hm _) (fun v hv => hws v (List.mem_cons_of_mem _ hv)), fold_fold_add,
      List.sum_cons, Nat.add_assoc]

-- The value returned for a sum: a zero sum is reported in its other form.
def check (m n : Nat) : Nat := if fold m n = 0 then m else fold m n

theorem check_le (hm : 0 < m) (n : Nat) : check m n ≤ m := by
  unfold check
  split
  · exact Nat.le_refl _
  · exact fold_le hm n

theorem check_add_complement (hm : 0 < m) (n : Nat) : check m (n + (m - check m n)) = m := by
  by_cases hn : n = 0
  · subst hn
    simp [check, fold]
  · have hne : fold m n ≠ 0 := fold_eq_zero_iff.not.mpr hn
    have hle := fold_le hm n
    have hcheck : check m n = fold m n := if_neg hne
    have hsum : fold m (n + (m - fold m n)) = m := by
      rw [← fold_fold_add, Nat.add_sub_cancel' hle, fold_of_le (Nat.le_refl _)]
    rw [hcheck, check, hsum, if_neg (by omega)]

theorem check_add_other_zero (hm : 0 < m) {n : Nat} (h : check m n = m) : check m (n + m) = m := by
  by_cases hn : n = 0
  · subst hn
    rw [Nat.zero_add, check, fold_of_le (Nat.le_refl _), if_neg (by omega)]
  · rw [check, fold_add_self hm hn]
    exact h

end Xtcp.OnesSum
