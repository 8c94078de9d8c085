import Mathlib.Data.List.Basic

namespace Xtcp.View

variable {α : Type} {rd : Nat → Option α}

-- The memory that rd reads holds xs from p on.
def Shows (rd : Nat → Option α) : Nat → List α → Prop
  | _, [] => True
  | p, x :: xs => rd p = some x ∧ Shows rd (p + 1) xs

@[simp] theorem shows_nil (p : Nat) : Shows rd p [] := trivial

@[simp] theorem shows_cons {p : Nat} {x : α} {xs : List α} :
    Shows rd p (x :: xs) ↔ rd p = some x ∧ Shows rd (p + 1) xs := Iff.rfl

theorem shows_append {p : Nat} {xs ys : List α} :
    Shows rd p (xs ++ ys) ↔ Shows rd p xs ∧ Shows rd (p + xs.length) ys := by
  induction xs generalizing p with
  | nil => simp
  | cons x xs ih =>
    rw [List.cons_append, shows_cons, shows_cons, ih, and_assoc, List.length_cons,
      Nat.add_assoc, Nat.add_comm 1]

theorem shows_of_getElem? {p : Nat} {xs : List α}
    (h : ∀ k x, xs[k]? = some x → rd (p + k) = some x) : Shows rd p xs := by
  induction xs generalizing p with
  | nil => trivial
  | cons x xs ih =>
    refine ⟨h 0 x rfl, ih ?_⟩
    intro k y hy
    have := h (k + 1) y (by simpa using hy)
    rwa [← Nat.add_assoc, Nat.add_right_comm] at this

theorem Shows.get {p j : Nat} {xs : List α} {x : α} (h : Shows rd p xs) (hj : xs[j]? = some x) :
    rd (p + j) = some x := by
  induction xs generalizing p j with
  | nil => cases hj
  | cons y xs ih =>
    cases j with
    | zero => exact h.1.trans hj
    | succ j =>
      rw [Nat.add_comm j 1, ← Nat.add_assoc]
      exact ih h.2 hj

theorem shows_getElem? (xs : List α) : Shows (fun p => xs[p]?) 0 xs :=
  shows_of_getElem? fun k x hx => by simpa using hx

end Xtcp.View
