import Mathlib.Data.Nat.Bitwise

namespace Xtcp.Serial

variable {a b : BitVec 32} {d w : Nat}

-- a - b > 0 on 32-bit integers
def after (a b : BitVec 32) : Bool := (0 : BitVec 32).slt (a - b)

-- The numbers from first to last, as two comparisons find them.
def outside (first last a : BitVec 32) : Bool := after first a || after a last

theorem slt_zero (x : BitVec 32) : (0 : BitVec 32).slt x = true ↔ 0 < x.toNat ∧ x.toNat < 2 ^ 31 := by
  rw [BitVec.slt_iff_toInt_lt, BitVec.toInt_eq_toNat_cond x]
  have hzero : (0 : BitVec 32).toInt = 0 := rfl
  have hx := x.isLt
  rw [hzero]
  split <;> omega

theorem after_iff : after a b = true ↔ 0 < (a - b).toNat ∧ (a - b).toNat < 2 ^ 31 := slt_zero _

theorem toNat_sub_comm (hd : (b - a).toNat = d) : (a - b).toNat = if d = 0 then 0 else 2 ^ 32 - d := by
  have ha := a.isLt
  have hb := b.isLt
  rw [BitVec.toNat_sub] at hd ⊢
  split <;> omega

theorem toNat_sub_sub (c : BitVec 32) (hd : (a - c).toNat = d) (hw : (b - c).toNat = w) :
    (a - b).toNat = if w ≤ d then d - w else 2 ^ 32 + d - w := by
  have ha := a.isLt
  have hb := b.isLt
  have hc := c.isLt
  rw [BitVec.toNat_sub] at hd hw ⊢
  split <;> omega

-- Besides the numbers from first to last the comparisons let one through, half way round, when
-- there is only one.
theorem outside_eq_false_iff {first last : BitVec 32} (hw : (last - first).toNat < 2 ^ 31) :
    outside first last a = false ↔
      (a - first).toNat ≤ (last - first).toNat ∨
        (last = first ∧ (a - first).toNat = 2 ^ 31) := by
  have hlt := (a - first).isLt
  have hfirst : last = first ↔ (last - first).toNat = 0 := by
    rw [← BitVec.toNat_inj]
    have hl := last.isLt
    have hf := first.isLt
    rw [BitVec.toNat_sub]
    omega
  have hbelow : (first - a).toNat = _ := toNat_sub_comm rfl
  have habove : (a - last).toNat = _ := toNat_sub_sub first rfl rfl
  rw [outside, Bool.or_eq_false_iff, ← Bool.not_eq_true, ← Bool.not_eq_true, after_iff, after_iff,
    hbelow, habove, hfirst]
  split <;> split <;> omega

-- Numbers that all come before the limit are no more than the distance.
theorem forall_after_iff {limit first : BitVec 32} {n : Nat} :
    (∀ k < n, after limit (first + BitVec.ofNat 32 k) = true) ↔
      n = 0 ∨ (n : Int) ≤ (limit - first).toInt := by
  have hstep (k : Nat) (hk : k < 2 ^ 32) : (limit - (first + BitVec.ofNat 32 k)).toNat =
      if k ≤ (limit - first).toNat then (limit - first).toNat - k
        else 2 ^ 32 + (limit - first).toNat - k := by
    have hd : (first + BitVec.ofNat 32 k - first).toNat = k := by
      rw [BitVec.add_comm, BitVec.add_sub_cancel, BitVec.toNat_ofNat, Nat.mod_eq_of_lt hk]
    exact toNat_sub_sub first rfl hd
  have hlt := (limit - first).isLt
  have hint := BitVec.toInt_eq_toNat_cond (limit - first)
  constructor
  · intro hall
    rcases Nat.eq_zero_or_pos n with hzero | hpos
    · exact Or.inl hzero
    have hfirst := after_iff.mp (hall 0 hpos)
    rw [hstep 0 (by omega), if_pos (Nat.zero_le _), Nat.sub_zero] at hfirst
    rw [if_pos (by omega)] at hint
    refine Or.inr (Int.not_lt.mp fun hlong => ?_)
    have hlast := after_iff.mp (hall (limit - first).toNat (by omega))
    rw [hstep _ hlt, if_pos le_rfl] at hlast
    omega
  · rintro (rfl | hle) k hk
    · exact absurd hk (Nat.not_lt_zero k)
    · split at hint
      · rw [after_iff, hstep k (by omega), if_pos (by omega)]
        omega
      · omega

section Pieces

variable {α : Type} {n : BitVec 32} {ps : List (BitVec 32 × List α)}

-- Pieces of a sequence, each with the number of its first element.
def elements (ps : List (BitVec 32 × List α)) : List α := ps.flatMap Prod.snd

def Gapless : BitVec 32 → List (BitVec 32 × List α) → Prop
  | _, [] => True
  | n, p :: ps => p.1 = n ∧ Gapless (n + BitVec.ofNat 32 p.2.length) ps

@[simp] theorem elements_nil : elements ([] : List (BitVec 32 × List α)) = [] := rfl

@[simp] theorem elements_append (ps qs : List (BitVec 32 × List α)) :
    elements (ps ++ qs) = elements ps ++ elements qs := by
  simp [elements]

@[simp] theorem elements_cons (p : BitVec 32 × List α) : elements (p :: ps) = p.2 ++ elements ps := by
  simp [elements]

theorem ofNat_add_ofNat (n : BitVec 32) (j k : Nat) :
    n + BitVec.ofNat 32 j + BitVec.ofNat 32 k = n + BitVec.ofNat 32 (j + k) := by
  rw [BitVec.add_assoc, ← BitVec.ofNat_add]

theorem Gapless.push (h : Gapless n ps) (d : List α) :
    Gapless n (ps ++ [(n + BitVec.ofNat 32 (elements ps).length, d)]) := by
  induction ps generalizing n with
  | nil => simp [Gapless]
  | cons p ps ih =>
    refine ⟨h.1, ?_⟩
    have hrest := ih h.2
    rwa [ofNat_add_ofNat, ← List.length_append, ← elements_cons] at hrest

end Pieces

end Xtcp.Serial
