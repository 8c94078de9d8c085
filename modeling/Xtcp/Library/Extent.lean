import Mathlib.Data.List.Basic

namespace Xtcp.Extents

-- size bytes from start on.
structure Extent where
  start : Nat
  size : Nat
  deriving DecidableEq, Repr

def Extent.Below (n : Nat) (e : Extent) : Prop := ∀ i < e.size, e.start + i < n

def Inside (n : Nat) (l : List Extent) : Prop := ∀ e ∈ l, e.Below n

variable {n : Nat}

theorem below_iff (e : Extent) : e.Below n ↔ (0 < e.size → e.start + e.size ≤ n) := by
  constructor
  · intro h hpos
    have hlast := h (e.size - 1) (by omega)
    omega
  · intro h i hi
    have hstop := h (by omega)
    omega

@[simp] theorem inside_nil : Inside n [] := fun _ he => absurd he List.not_mem_nil

@[simp] theorem inside_cons (e : Extent) (l : List Extent) :
    Inside n (e :: l) ↔ (0 < e.size → e.start + e.size ≤ n) ∧ Inside n l := by
  rw [← below_iff]
  exact List.forall_mem_cons

@[simp] theorem inside_append (l l' : List Extent) :
    Inside n (l ++ l') ↔ Inside n l ∧ Inside n l' := List.forall_mem_append

theorem inside_flatMap {α : Type} (f : α → List Extent) (l : List α) :
    Inside n (l.flatMap f) ↔ ∀ x ∈ l, Inside n (f x) := by
  simp only [Inside, List.mem_flatMap]
  exact ⟨fun h x hx e he => h e ⟨x, hx, he⟩, fun h e ⟨x, hx, he⟩ => h x hx e he⟩

-- One byte after another.
def bytesFrom (start k : Nat) : List Extent := (List.range k).map fun i => ⟨start + i, 1⟩

@[simp] theorem inside_bytesFrom (start k : Nat) :
    Inside n (bytesFrom start k) ↔ (0 < k → start + k ≤ n) := by
  constructor
  · intro h hpos
    have hlast := h ⟨start + (k - 1), 1⟩ (List.mem_map.mpr ⟨k - 1, by simp; omega, rfl⟩) 0 (by simp)
    simp only at hlast
    omega
  · intro h e he
    obtain ⟨i, hi, rfl⟩ := List.mem_map.mp he
    have hlt := List.mem_range.mp hi
    rw [below_iff]
    simp only
    omega

end Xtcp.Extents
