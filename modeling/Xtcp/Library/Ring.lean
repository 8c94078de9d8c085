import Mathlib.Data.List.Basic
import Mathlib.Logic.Function.Basic

namespace Xtcp.Ring

variable {α : Type} {size : Nat} {buf : Nat → α} {xs : List α}

def write (size : Nat) : (Nat → α) → Nat → List α → (Nat → α)
  | buf, _, [] => buf
  | buf, wr, a :: as => write size (Function.update buf wr a) ((wr + 1) % size) as

def read (size : Nat) (buf : Nat → α) : Nat → Nat → List α
  | _, 0 => []
  | rd, n + 1 => buf rd :: read size buf ((rd + 1) % size) n

-- The ring has the last elements of the list, each at its number modulo the size.
def Holds (size : Nat) (buf : Nat → α) (xs : List α) : Prop :=
  ∀ k (h : k < xs.length), xs.length ≤ k + size → buf (k % size) = xs[k]

@[simp] theorem length_read (rd n : Nat) : (read size buf rd n).length = n := by
  induction n generalizing rd with
  | zero => rfl
  | succ n ih => simp [read, ih]

theorem holds_nil : Holds size buf [] := fun _ h => absurd h (Nat.not_lt_zero _)

theorem mod_ne_of_lt {j k : Nat} (h : j < k) (hk : k < j + size) : j % size ≠ k % size := by
  intro heq
  have hdvd : size ∣ k - j := Nat.dvd_of_mod_eq_zero (Nat.sub_mod_eq_zero_of_mod_eq heq.symm)
  exact absurd (Nat.le_of_dvd (by omega) hdvd) (by omega)

theorem Holds.push (h : Holds size buf xs) (a : α) :
    Holds size (Function.update buf (xs.length % size) a) (xs ++ [a]) := by
  intro k hk hsize
  rw [List.length_append, List.length_singleton] at hk hsize
  rcases Nat.lt_or_eq_of_le (Nat.lt_succ_iff.mp hk) with hlt | rfl
  · rw [Function.update_of_ne (mod_ne_of_lt hlt (by omega)), h k hlt (by omega),
      List.getElem_append_left]
  · simp

theorem Holds.write (h : Holds size buf xs) (as : List α) :
    Holds size (write size buf (xs.length % size) as) (xs ++ as) := by
  induction as generalizing buf xs with
  | nil => simpa [Ring.write] using h
  | cons a as ih =>
    have hnext := ih (h.push a)
    rw [List.length_append, List.length_singleton] at hnext
    rw [Ring.write, Nat.mod_add_mod]
    simpa using hnext

theorem Holds.read (h : Holds size buf xs) {p n : Nat} (hsize : xs.length ≤ p + size)
    (hn : p + n ≤ xs.length) : read size buf (p % size) n = (xs.drop p).take n := by
  induction n generalizing p with
  | zero => simp [Ring.read]
  | succ n ih =>
    have hp : p < xs.length := by omega
    rw [Ring.read, h p hp hsize, Nat.mod_add_mod, ih (by omega) (by omega),
      List.drop_eq_getElem_cons hp, List.take_succ_cons]

end Xtcp.Ring
