import Mathlib.Data.List.Basic
import Mathlib.Data.List.Count

namespace Xtcp.SlotTable

variable {α κ : Type}

def keys (key : α → Option κ) (xs : List α) : List κ := xs.filterMap key

def hasFree (key : α → Option κ) (xs : List α) : Prop := ∃ x ∈ xs, key x = none

instance (key : α → Option κ) (xs : List α) : Decidable (hasFree key xs) :=
  decidable_of_iff (∃ x ∈ xs, (key x).isNone = true) (by simp [hasFree])

def putFirst (key : α → Option κ) (a : α) : List α → List α
  | [] => []
  | x :: xs => if (key x).isNone then a :: xs else x :: putFirst key a xs

def clearFirst [DecidableEq κ] (key : α → Option κ) (clear : α → α) (k : κ) : List α → List α
  | [] => []
  | x :: xs => if key x = some k then clear x :: xs else x :: clearFirst key clear k xs

def clearAll [DecidableEq κ] (key : α → Option κ) (clear : α → α) (k : κ) (xs : List α) : List α :=
  xs.map fun x => if key x = some k then clear x else x

@[simp] theorem keys_nil (key : α → Option κ) : keys key [] = [] := rfl

theorem keys_cons (key : α → Option κ) (x : α) (xs : List α) :
    keys key (x :: xs) = (key x).toList ++ keys key xs := by
  cases h : key x <;> simp [keys, h]

@[simp] theorem length_putFirst (key : α → Option κ) (a : α) (xs : List α) :
    (putFirst key a xs).length = xs.length := by
  induction xs with
  | nil => rfl
  | cons x xs ih =>
    simp only [putFirst]
    split <;> simp [ih]

@[simp] theorem length_clearFirst [DecidableEq κ] (key : α → Option κ) (clear : α → α) (k : κ)
    (xs : List α) : (clearFirst key clear k xs).length = xs.length := by
  induction xs with
  | nil => rfl
  | cons x xs ih =>
    simp only [clearFirst]
    split <;> simp [ih]

theorem putFirst_full (key : α → Option κ) (a : α) (xs : List α) (h : ¬ hasFree key xs) :
    putFirst key a xs = xs := by
  induction xs with
  | nil => rfl
  | cons x xs ih =>
    have hx : key x ≠ none := fun hx => h ⟨x, by simp, hx⟩
    have hxs : ¬ hasFree key xs := fun ⟨y, hy, hk⟩ => h ⟨y, by simp [hy], hk⟩
    simp [putFirst, hx, ih hxs]

theorem keys_putFirst (key : α → Option κ) (a : α) (k : κ) (ha : key a = some k) (xs : List α)
    (h : hasFree key xs) : (keys key (putFirst key a xs)).Perm (k :: keys key xs) := by
  induction xs with
  | nil =>
    obtain ⟨x, hx, _⟩ := h
    simp at hx
  | cons x xs ih =>
    cases hx : key x with
    | none => simp [putFirst, keys_cons, hx, ha]
    | some j =>
      have hxs : hasFree key xs := by
        obtain ⟨y, hy, hk⟩ := h
        rcases List.mem_cons.mp hy with rfl | hy
        · simp [hx] at hk
        · exact ⟨y, hy, hk⟩
      have hp := ((ih hxs).cons j).trans (List.Perm.swap k j (keys key xs))
      simpa [putFirst, hx, keys_cons] using hp

theorem mem_keys_putFirst (key : α → Option κ) (a : α) (k j : κ) (ha : key a = some k)
    (xs : List α) :
    j ∈ keys key (putFirst key a xs) ↔ j ∈ keys key xs ∨ (j = k ∧ hasFree key xs) := by
  by_cases h : hasFree key xs
  · rw [(keys_putFirst key a k ha xs h).mem_iff]
    simp [h, or_comm]
  · simp [putFirst_full key a xs h, h]

theorem keys_clearFirst [DecidableEq κ] (key : α → Option κ) (clear : α → α)
    (hc : ∀ x, key (clear x) = none) (k : κ) (xs : List α) :
    keys key (clearFirst key clear k xs) = (keys key xs).erase k := by
  induction xs with
  | nil => rfl
  | cons x xs ih =>
    by_cases hx : key x = some k
    · simp [clearFirst, keys_cons, hx, hc]
    · cases hk : key x with
      | none => simpa [clearFirst, keys_cons, hk] using ih
      | some j =>
        have hne : ¬ j = k := fun he => hx (by rw [hk, he])
        simp [clearFirst, keys_cons, hk, hne, ih]

theorem keys_clearAll [DecidableEq κ] (key : α → Option κ) (clear : α → α)
    (hc : ∀ x, key (clear x) = none) (k : κ) (xs : List α) :
    keys key (clearAll key clear k xs) = (keys key xs).filter (fun j => decide (j ≠ k)) := by
  induction xs with
  | nil => rfl
  | cons x xs ih =>
    have hm : clearAll key clear k (x :: xs) =
        (if key x = some k then clear x else x) :: clearAll key clear k xs := rfl
    rw [hm, keys_cons, keys_cons, ih]
    cases hk : key x with
    | none => simp [hk]
    | some j =>
      by_cases hj : j = k
      · subst hj; simp [hc]
      · simp [hk, hj]

theorem mem_erase_iff_count [DecidableEq κ] (k j : κ) (ks : List κ) :
    j ∈ ks.erase k ↔ j ∈ ks ∧ (j = k → 1 < ks.count k) := by
  by_cases hj : j = k
  · subst hj
    rw [← List.count_pos_iff, List.count_erase_self]
    constructor
    · intro h
      exact ⟨List.count_pos_iff.mp (by omega), fun _ => by omega⟩
    · rintro ⟨_, h⟩
      have := h rfl
      omega
  · simp [List.mem_erase_of_ne hj, hj]

theorem agree_put_iff {β : Type} (key : α → Option κ) (key' : β → Option κ) (a : α) (b : β)
    (k : κ) (ha : key a = some k) (hb : key' b = some k) (xs : List α) (ys : List β)
    (h : ∀ j, j ∈ keys key xs ↔ j ∈ keys key' ys) :
    (∀ j, j ∈ keys key (putFirst key a xs) ↔ j ∈ keys key' (putFirst key' b ys)) ↔
      (k ∈ keys key' ys ∨ (hasFree key xs ↔ hasFree key' ys)) := by
  simp only [mem_keys_putFirst key a k _ ha, mem_keys_putFirst key' b k _ hb, h]
  constructor
  · intro hall
    have hk := hall k
    by_cases hm : k ∈ keys key' ys
    · exact Or.inl hm
    · exact Or.inr (by simpa [hm] using hk)
  · rintro hk j
    by_cases hj : j = k
    · subst hj
      rcases hk with hk | hk
      · simp [hk]
      · simp [hk]
    · simp [hj]

theorem agree_clear_iff {β : Type} [DecidableEq κ] (key : α → Option κ) (key' : β → Option κ)
    (clear : α → α) (clear' : β → β) (hc : ∀ x, key (clear x) = none)
    (hc' : ∀ y, key' (clear' y) = none) (k : κ) (xs : List α) (ys : List β)
    (h : ∀ j, j ∈ keys key xs ↔ j ∈ keys key' ys) :
    (∀ j, j ∈ keys key (clearAll key clear k xs) ↔ j ∈ keys key' (clearFirst key' clear' k ys)) ↔
      (keys key' ys).count k ≤ 1 := by
  simp only [keys_clearAll key clear hc, keys_clearFirst key' clear' hc', mem_erase_iff_count,
    List.mem_filter, decide_eq_true_eq, h]
  constructor
  · intro hall
    by_contra hgt
    have hm : k ∈ keys key' ys := List.count_pos_iff.mp (by omega)
    exact ((hall k).mpr ⟨hm, fun _ => by omega⟩).2 rfl
  · intro hle j
    constructor
    · rintro ⟨hj, hne⟩
      exact ⟨hj, fun he => absurd he hne⟩
    · rintro ⟨hj, himp⟩
      refine ⟨hj, fun he => ?_⟩
      have := himp he
      omega

end Xtcp.SlotTable
