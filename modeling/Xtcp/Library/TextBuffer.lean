import Mathlib.Data.List.Induction
import Mathlib.Logic.Function.Basic

-- A buffer of characters that is written from its start on.
namespace TextBuffer

abbrev Buffer := Nat → UInt8

def Begins (buf : Buffer) (l : List UInt8) : Prop :=
  ∀ (i : Nat) (c : UInt8), l[i]? = some c → buf i = c

def poke (limit : Nat) (buf : Buffer) (i : Nat) (c : UInt8) : Option Buffer :=
  if i < limit then some (Function.update buf i c) else none

variable {limit : Nat} {buf : Buffer} {l r : List UInt8}

theorem poke_eq {i : Nat} (h : i < limit) (c : UInt8) :
    poke limit buf i c = some (Function.update buf i c) := if_pos h

theorem begins_nil (buf : Buffer) : Begins buf [] := fun _ _ h => by cases h

theorem Begins.append_left (h : Begins buf (l ++ r)) : Begins buf l := by
  intro i c hi
  apply h i c
  rw [List.getElem?_append_left (List.getElem?_eq_some_iff.mp hi).1, hi]

theorem Begins.update {c d : UInt8} (h : Begins buf (l ++ c :: r)) :
    Begins (Function.update buf l.length d) (l ++ d :: r) := by
  intro i x hi
  rcases Nat.lt_trichotomy i l.length with hlt | rfl | hgt
  · rw [Function.update_of_ne (Nat.ne_of_lt hlt)]
    rw [List.getElem?_append_left hlt] at hi
    exact h i x (by rw [List.getElem?_append_left hlt, hi])
  · rw [Function.update_self]
    rw [List.getElem?_append_right (Nat.le_refl _), Nat.sub_self] at hi
    exact Option.some.inj hi
  · rw [Function.update_of_ne (Nat.ne_of_gt hgt)]
    obtain ⟨k, hk⟩ : ∃ k, i - l.length = k + 1 := ⟨i - l.length - 1, by omega⟩
    rw [List.getElem?_append_right (Nat.le_of_lt hgt), hk, List.getElem?_cons_succ] at hi
    apply h i x
    rw [List.getElem?_append_right (Nat.le_of_lt hgt), hk, List.getElem?_cons_succ, hi]

theorem Begins.get (h : Begins buf (l ++ r)) {c : UInt8} {s : List UInt8} (hr : r = c :: s) :
    buf l.length = c := by
  apply h l.length c
  rw [List.getElem?_append_right (Nat.le_refl _), Nat.sub_self, hr]
  rfl

theorem Begins.snoc (h : Begins buf l) (c : UInt8) :
    Begins (Function.update buf l.length c) (l ++ [c]) := by
  intro i x hi
  by_cases hlt : i < l.length
  · rw [Function.update_of_ne (Nat.ne_of_lt hlt)]
    rw [List.getElem?_append_left hlt] at hi
    exact h i x hi
  · have hi' := (List.getElem?_eq_some_iff.mp hi).1
    rw [List.length_append, List.length_singleton] at hi'
    obtain rfl : i = l.length := by omega
    rw [List.getElem?_append_right (Nat.le_refl _), Nat.sub_self] at hi
    rw [Function.update_self]
    exact Option.some.inj hi

theorem poke_snoc (limit : Nat) (h : Begins buf l) (hfit : l.length < limit) (c : UInt8) :
    ∃ buf', poke limit buf l.length c = some buf' ∧ Begins buf' (l ++ [c]) :=
  ⟨_, poke_eq hfit c, h.snoc c⟩

end TextBuffer
