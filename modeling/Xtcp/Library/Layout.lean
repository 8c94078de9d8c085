import Mathlib.Data.Nat.Bitwise
import Mathlib.Logic.Function.Basic

namespace Xtcp.Layout

variable {ι : Type}

structure Member (ι : Type) where
  name : ι
  size : Nat
  align : Nat
  deriving DecidableEq

def alignUp (n align : Nat) : Nat := (n + align - 1) / align * align

-- Name, offset and size of each member, under natural alignment.
def placed (start : Nat) : List (Member ι) → List (ι × Nat × Nat)
  | [] => []
  | m :: ms =>
      (m.name, alignUp start m.align, m.size) :: placed (alignUp start m.align + m.size) ms

def offsetOf [DecidableEq ι] (ms : List (Member ι)) (name : ι) : Option Nat :=
  ((placed 0 ms).find? fun m => m.1 = name).map fun m => m.2.1

-- A member in memory, the least significant byte first.
def read (mem : Nat → BitVec 8) (start : Nat) : Nat → Nat
  | 0 => 0
  | size + 1 => (mem start).toNat + 256 * read mem (start + 1) size

theorem testBit_read (mem : Nat → BitVec 8) (start size m : Nat) :
    (read mem start size).testBit m =
      (decide (m < 8 * size) && (mem (start + m / 8)).getLsbD (m % 8)) := by
  induction size generalizing start m with
  | zero => simp [read]
  | succ size ih =>
    have hlt := (mem start).isLt
    have hor : read mem start (size + 1) =
        read mem (start + 1) size <<< 8 ||| (mem start).toNat := by
      rw [← Nat.shiftLeft_add_eq_or_of_lt hlt, Nat.shiftLeft_eq, read]
      omega
    rw [hor, Nat.testBit_or, Nat.testBit_shiftLeft, ih]
    by_cases hm : m < 8
    · rw [Nat.div_eq_of_lt hm, Nat.mod_eq_of_lt hm]
      simp [BitVec.getLsbD, show ¬ 8 ≤ m by omega, show m < 8 * (size + 1) by omega]
    · have hdiv : start + 1 + (m - 8) / 8 = start + m / 8 := by omega
      have hmod : (m - 8) % 8 = m % 8 := by omega
      have hbig : (mem start).toNat.testBit m = false := by
        refine Nat.testBit_eq_false_of_lt (Nat.lt_of_lt_of_le hlt ?_)
        exact Nat.pow_le_pow_right (by decide) (by omega)
      have hsize : decide (m - 8 < 8 * size) = decide (m < 8 * (size + 1)) := by
        rw [decide_eq_decide]
        omega
      rw [hdiv, hmod, hbig, hsize, Bool.or_false]
      simp [show 8 ≤ m by omega]

theorem read_update_other {mem : Nat → BitVec 8} {start size a : Nat} (v : BitVec 8)
    (h : a < start ∨ start + size ≤ a) :
    read (Function.update mem a v) start size = read mem start size := by
  refine Nat.eq_of_testBit_eq fun m => ?_
  rw [testBit_read, testBit_read]
  by_cases hm : m < 8 * size
  · rw [Function.update_of_ne (by omega)]
  · simp [hm]

theorem testBit_read_update {mem : Nat → BitVec 8} {start size k : Nat} (v : BitVec 8)
    (hk : k < size) (m : Nat) :
    (read (Function.update mem (start + k) v) start size).testBit m =
      if m / 8 = k then v.getLsbD (m % 8) else (read mem start size).testBit m := by
  rw [testBit_read, testBit_read]
  split
  next h =>
    rw [h, Function.update_self, decide_eq_true (by omega), Bool.true_and]
  next h => rw [Function.update_of_ne (by omega)]

end Xtcp.Layout
