import Mathlib.Data.List.Induction

-- Numerals in decimal: ASCII digits, the most significant one first.
namespace Decimal

def value (l : List UInt8) : Nat := l.foldl (fun n c => 10 * n + (c.toNat - 48)) 0

def IsDigit (c : UInt8) : Prop := 48 ≤ c.toNat ∧ c.toNat < 58

structure Represents (l : List UInt8) (x : Nat) : Prop where
  digits : ∀ c ∈ l, IsDigit c
  nonempty : l ≠ []
  value : value l = x
  leading : l.head? = some 48 → l = [48]

theorem value_append_singleton (l : List UInt8) (c : UInt8) :
    value (l ++ [c]) = 10 * value l + (c.toNat - 48) := by
  rw [value, List.foldl_append]
  rfl

def digit (d : Nat) : UInt8 := UInt8.ofNat d + 48

theorem toNat_digit {d : Nat} (h : d < 10) : (digit d).toNat = d + 48 := by
  have hdigits : ∀ d < 10, (digit d).toNat = d + 48 := by decide
  exact hdigits d h

theorem isDigit_digit {d : Nat} (h : d < 10) : IsDigit (digit d) := by
  rw [IsDigit, toNat_digit h]
  omega

theorem Represents.singleton {d : Nat} (h : d < 10) : Represents [digit d] d where
  digits := by
    intro c hc
    rw [List.mem_singleton.mp hc]
    exact isDigit_digit h
  nonempty := List.cons_ne_nil _ _
  value := by
    show 10 * 0 + ((digit d).toNat - 48) = d
    rw [toNat_digit h]
    omega
  leading := fun h => by rw [Option.some.inj h]

-- One more digit behind a number that is not zero.
theorem Represents.snoc {l : List UInt8} {x d : Nat} (h : Represents l x) (hx : x ≠ 0)
    (hd : d < 10) : Represents (l ++ [digit d]) (10 * x + d) where
  digits := by
    intro c hc
    rcases List.mem_append.mp hc with hc | hc
    · exact h.digits c hc
    · rw [List.mem_singleton.mp hc]
      exact isDigit_digit hd
  nonempty := List.append_ne_nil_of_right_ne_nil _ (List.cons_ne_nil _ _)
  value := by
    rw [value_append_singleton, h.value, toNat_digit hd]
    omega
  leading := by
    intro hhead
    have hsame : (l ++ [digit d]).head? = l.head? := by
      obtain ⟨c, s, rfl⟩ := List.exists_cons_of_ne_nil h.nonempty
      rfl
    have hzero : l = [48] := h.leading (hsame.symm.trans hhead)
    have hval := h.value
    rw [hzero] at hval
    exact absurd hval.symm hx

theorem Represents.inj {l : List UInt8} {x y : Nat} (hx : Represents l x)
    (hy : Represents l y) : x = y :=
  hx.value.symm.trans hy.value

end Decimal
