import Xtcp.Library.Halfword

namespace Xtcp.Reading

open Halfword

variable {α β : Type}

-- A computation over bytes, with the places it has read.
def Scan (α : Type) : Type := Bytes → α × List Nat

def Scan.value (m : Scan α) (mem : Bytes) : α := (m mem).1

def Scan.places (m : Scan α) (mem : Bytes) : List Nat := (m mem).2

instance : Monad Scan where
  pure a := fun _ => (a, [])
  bind m f := fun mem =>
    let r := m mem
    let r' := f r.1 mem
    (r'.1, r.2 ++ r'.2)

def byte (i : Nat) : Scan (BitVec 8) := fun mem => (mem i, [i])

def short (i : Nat) : Scan (BitVec 16) := fun mem => (load mem (2 * i), [2 * i, 2 * i + 1])

def int (i : Nat) : Scan (BitVec 32) := fun mem => (word mem i, [i, i + 1, i + 2, i + 3])

def each (f : Nat → Scan α) : Nat → Scan (List α)
  | 0 => pure []
  | n + 1 => do
    let xs ← each f n
    let x ← f n
    return xs ++ [x]

def Within (n : Nat) (mem : Bytes) (m : Scan α) : Prop := ∀ i ∈ m.places mem, i < n

section Values

variable (mem : Bytes)

@[simp] theorem value_pure (a : α) : (pure a : Scan α).value mem = a := rfl

@[simp] theorem value_bind (m : Scan α) (f : α → Scan β) :
    (m >>= f).value mem = (f (m.value mem)).value mem := rfl

@[simp] theorem value_byte (i : Nat) : (byte i).value mem = mem i := rfl

@[simp] theorem value_short (i : Nat) : (short i).value mem = load mem (2 * i) := rfl

@[simp] theorem value_int (i : Nat) : (int i).value mem = word mem i := rfl

@[simp] theorem value_ite {p : Prop} [Decidable p] (m m' : Scan α) :
    (if p then m else m').value mem = if p then m.value mem else m'.value mem := by
  split <;> rfl

theorem value_if_pos {p : Prop} [Decidable p] (h : p) (m m' : Scan α) :
    (if p then m else m').value mem = m.value mem := by
  rw [if_pos h]

theorem value_if_neg {p : Prop} [Decidable p] (h : ¬p) (m m' : Scan α) :
    (if p then m else m').value mem = m'.value mem := by
  rw [if_neg h]

@[simp] theorem length_each (f : Nat → Scan α) (n : Nat) : ((each f n).value mem).length = n := by
  induction n with
  | zero => rfl
  | succ n ih => rw [each, value_bind, value_bind, value_pure, List.length_append, ih,
      List.length_singleton]

theorem value_each (f : Nat → Scan α) (n : Nat) :
    (each f n).value mem = (List.range n).map fun i => (f i).value mem := by
  induction n with
  | zero => rfl
  | succ n ih => rw [each, value_bind, value_bind, value_pure, ih, List.range_succ, List.map_append,
      List.map_singleton]

end Values

section Within

variable {n : Nat} {mem : Bytes}

@[simp] theorem within_pure (a : α) : Within n mem (pure a : Scan α) :=
  fun _ hi => absurd hi List.not_mem_nil

@[simp] theorem within_bind (m : Scan α) (f : α → Scan β) :
    Within n mem (m >>= f) ↔ Within n mem m ∧ Within n mem (f (m.value mem)) := by
  constructor
  · intro h
    exact ⟨fun i hi => h i (List.mem_append_left _ hi),
      fun i hi => h i (List.mem_append_right _ hi)⟩
  · rintro ⟨hm, hf⟩ i hi
    rcases List.mem_append.mp hi with hi | hi
    · exact hm i hi
    · exact hf i hi

@[simp] theorem within_byte (i : Nat) : Within n mem (byte i) ↔ i < n :=
  ⟨fun h => h i (List.mem_singleton_self i), fun h _ hj => (List.mem_singleton.mp hj).symm ▸ h⟩

@[simp] theorem within_short (i : Nat) : Within n mem (short i) ↔ 2 * i + 1 < n := by
  constructor
  · intro h
    exact h _ (List.mem_cons_of_mem _ List.mem_cons_self)
  · intro h j hj
    have hj : j = 2 * i ∨ j = 2 * i + 1 := by simpa [short, Scan.places] using hj
    omega

@[simp] theorem within_int (i : Nat) : Within n mem (int i) ↔ i + 3 < n := by
  constructor
  · intro h
    exact h (i + 3) (by simp [int, Scan.places])
  · intro h j hj
    have hj : j = i ∨ j = i + 1 ∨ j = i + 2 ∨ j = i + 3 := by
      simpa [int, Scan.places] using hj
    omega

@[simp] theorem within_ite {p : Prop} [Decidable p] (m m' : Scan α) :
    Within n mem (if p then m else m') ↔ (p → Within n mem m) ∧ (¬p → Within n mem m') := by
  split
  next h => simp [h]
  next h => simp [h]

@[simp] theorem within_each (f : Nat → Scan α) (k : Nat) :
    Within n mem (each f k) ↔ ∀ j < k, Within n mem (f j) := by
  induction k with
  | zero => simp [each]
  | succ k ih =>
    rw [each, within_bind, within_bind, ih]
    constructor
    · rintro ⟨hinit, hlast, -⟩ j hj
      rcases Nat.lt_succ_iff_lt_or_eq.mp hj with hj | rfl
      · exact hinit j hj
      · exact hlast
    · exact fun h => ⟨fun j hj => h j (Nat.lt_succ_of_lt hj), h k (Nat.lt_succ_self k),
        within_pure _⟩

end Within

end Xtcp.Reading
