import Mathlib.Algebra.BigOperators.Fin
import Mathlib.Algebra.Order.Group.Int
import Mathlib.Algebra.Order.BigOperators.Group.Finset
import Mathlib.Algebra.Order.Pi
import Xtcp.Library.Prefix

namespace Xtcp.Ledger
open Prefix

-- An entry adds to what is owed to each party, or takes from it.
variable {α κ : Type} (entry : α → κ → Int)

def balance (log : List α) : κ → Int := (log.map entry).sum

-- Nothing is ever paid that is not owed: b is what is owed at first.
def Solvent (b : κ → Int) (log : List α) : Prop :=
  Along (fun b x => b + entry x) (fun b x => 0 ≤ b + entry x) b log

variable {entry} {b b' : κ → Int} {x : α} {log new : List α}

@[simp] theorem balance_nil : balance entry [] = 0 := rfl

@[simp] theorem balance_append :
    balance entry (log ++ new) = balance entry log + balance entry new := by
  simp [balance]

@[simp] theorem balance_cons : balance entry (x :: log) = entry x + balance entry log := by
  simp [balance]

theorem foldl_eq : log.foldl (fun b x => b + entry x) b = b + balance entry log := by
  induction log generalizing b with
  | nil => simp
  | cons x log ih => rw [List.foldl_cons, ih, balance_cons, add_assoc]

@[simp] theorem solvent_nil : Solvent entry b [] := trivial

@[simp] theorem solvent_cons :
    Solvent entry b (x :: log) ↔ 0 ≤ b + entry x ∧ Solvent entry (b + entry x) log := Iff.rfl

@[simp] theorem solvent_append :
    Solvent entry b (log ++ new) ↔
      Solvent entry b log ∧ Solvent entry (b + balance entry log) new := by
  rw [Solvent, along_append, foldl_eq]
  rfl

theorem solvent_iff : Solvent entry 0 log ↔ ∀ pre, pre <+: log → 0 ≤ balance entry pre := by
  rw [Solvent, along_iff]
  constructor
  · intro h pre hpre
    rcases List.eq_nil_or_concat pre with rfl | ⟨pre, x, rfl⟩
    · exact le_refl 0
    · obtain ⟨post, rfl⟩ := hpre
      have hx := h pre x post (by simp)
      rw [foldl_eq, zero_add] at hx
      simpa using hx
  · rintro h pre x post rfl
    rw [foldl_eq, zero_add]
    simpa using h (pre ++ [x]) ⟨post, by simp⟩

theorem Solvent.mono (h : Solvent entry b log) (hb : b ≤ b') : Solvent entry b' log := by
  induction log generalizing b b' with
  | nil => trivial
  | cons x log ih =>
    have hx : b + entry x ≤ b' + entry x := by gcongr
    exact ⟨le_trans h.1 hx, ih h.2 hx⟩

theorem Solvent.nonneg (h : Solvent entry 0 log) : 0 ≤ balance entry log :=
  solvent_iff.mp h log (List.prefix_refl log)

-- Entries that change nothing.
theorem balance_eq_zero (h : ∀ x ∈ new, entry x = 0) : balance entry new = 0 := by
  rw [balance, List.map_eq_map_iff.mpr h]
  simp

theorem solvent_of_zero (hb : 0 ≤ b) (h : ∀ x ∈ new, entry x = 0) : Solvent entry b new := by
  induction new with
  | nil => trivial
  | cons x new ih =>
    have hx := h x List.mem_cons_self
    rw [solvent_cons, hx, add_zero]
    exact ⟨hb, ih fun y hy => h y (List.mem_cons_of_mem x hy)⟩

section Accounts

variable {ι : Type} [Fintype ι] {logs : ι → List α}

-- A ledger for each account and one for all of them.
structure Joint (entry : α → κ → Int) (logs : ι → List α) (log : List α) : Prop where
  each : ∀ i, Solvent entry 0 (logs i)
  all : Solvent entry 0 log
  sum : balance entry log = ∑ i, balance entry (logs i)

theorem joint_nil : Joint entry (fun _ : ι => []) [] := ⟨fun _ => trivial, trivial, by simp⟩

theorem Joint.add [DecidableEq ι] (h : Joint entry logs log) (i : ι)
    (hi : Solvent entry 0 (logs i ++ new)) :
    Joint entry (Function.update logs i (logs i ++ new)) (log ++ new) := by
  have hle : balance entry (logs i) ≤ balance entry log := by
    rw [h.sum]
    exact Finset.single_le_sum (f := fun i => balance entry (logs i))
      (fun j _ => (h.each j).nonneg) (Finset.mem_univ i)
  refine ⟨fun j => ?_, ?_, ?_⟩
  · by_cases hj : j = i
    · subst hj
      simpa using hi
    · simpa [hj] using h.each j
  · rw [solvent_append] at hi ⊢
    exact ⟨h.all, hi.2.mono (by simpa using hle)⟩
  · rw [balance_append, h.sum, ← Finset.add_sum_erase _ _ (Finset.mem_univ i),
      ← Finset.add_sum_erase _ _ (Finset.mem_univ i), Function.update_self, balance_append,
      add_right_comm]
    congr 1
    refine Finset.sum_congr rfl fun j hj => ?_
    rw [Function.update_of_ne (Finset.ne_of_mem_erase hj)]

theorem Joint.neutral (h : Joint entry logs log) (hnew : ∀ x ∈ new, entry x = 0) :
    Joint entry logs (log ++ new) := by
  refine ⟨h.each, ?_, ?_⟩
  · rw [solvent_append]
    exact ⟨h.all, solvent_of_zero (by simpa using h.all.nonneg) hnew⟩
  · rw [balance_append, balance_eq_zero hnew, add_zero, h.sum]

end Accounts

end Xtcp.Ledger
