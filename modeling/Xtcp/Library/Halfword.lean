import Mathlib.Algebra.Ring.Nat
import Mathlib.Data.List.Basic

namespace Xtcp.Halfword

abbrev Bytes := Nat → BitVec 8

def load (mem : Bytes) (a : Nat) : BitVec 16 := mem (a + 1) ++ mem a

def store (mem : Bytes) (a : Nat) (v : BitVec 16) : Bytes := fun x =>
  if x = a then v.extractLsb' 0 8 else if x = a + 1 then v.extractLsb' 8 8 else mem x

def load? (mem : Bytes) (a : Nat) : Option (BitVec 16) :=
  if a % 2 = 0 then some (load mem a) else none

def store? (mem : Bytes) (a : Nat) (v : BitVec 16) : Option Bytes :=
  if a % 2 = 0 then some (store mem a v) else none

def byterev (x : BitVec 32) : BitVec 32 :=
  x.extractLsb' 0 8 ++ x.extractLsb' 8 8 ++ x.extractLsb' 16 8 ++ x.extractLsb' 24 8

def word (mem : Bytes) (a : Nat) : BitVec 32 :=
  mem a ++ mem (a + 1) ++ mem (a + 2) ++ mem (a + 3)

theorem toNat_append {m n : Nat} (x : BitVec m) (y : BitVec n) :
    (x ++ y).toNat = 2 ^ n * x.toNat + y.toNat := by
  rw [BitVec.toNat_append, ← Nat.shiftLeft_add_eq_or_of_lt y.isLt, Nat.shiftLeft_eq, Nat.mul_comm]

theorem toNat_load (mem : Bytes) (a : Nat) :
    (load mem a).toNat = 256 * (mem (a + 1)).toNat + (mem a).toNat := toNat_append _ _

theorem toNat_word (mem : Bytes) (a : Nat) :
    (word mem a).toNat = 16777216 * (mem a).toNat + 65536 * (mem (a + 1)).toNat +
      256 * (mem (a + 2)).toNat + (mem (a + 3)).toNat := by
  simp only [word, toNat_append]
  omega

theorem exists_bytes (x : BitVec 32) :
    ∃ b₀ b₁ b₂ b₃ : BitVec 8, x.toNat =
      16777216 * b₃.toNat + 65536 * b₂.toNat + 256 * b₁.toNat + b₀.toNat := by
  refine ⟨x.extractLsb' 0 8, x.extractLsb' 8 8, x.extractLsb' 16 8, x.extractLsb' 24 8, ?_⟩
  simp only [BitVec.extractLsb'_toNat, Nat.shiftRight_eq_div_pow]
  have hx := x.isLt
  omega

theorem toNat_byterev {x : BitVec 32} {b₀ b₁ b₂ b₃ : BitVec 8}
    (h : x.toNat = 16777216 * b₃.toNat + 65536 * b₂.toNat + 256 * b₁.toNat + b₀.toNat) :
    (byterev x).toNat =
      16777216 * b₀.toNat + 65536 * b₁.toNat + 256 * b₂.toNat + b₃.toNat := by
  have h₀ : x.toNat / 2 ^ 0 % 2 ^ 8 = b₀.toNat := by omega
  have h₁ : x.toNat / 2 ^ 8 % 2 ^ 8 = b₁.toNat := by omega
  have h₂ : x.toNat / 2 ^ 16 % 2 ^ 8 = b₂.toNat := by omega
  have h₃ : x.toNat / 2 ^ 24 % 2 ^ 8 = b₃.toNat := by omega
  simp only [byterev, toNat_append, BitVec.extractLsb'_toNat, Nat.shiftRight_eq_div_pow, h₀, h₁,
    h₂, h₃]
  omega

theorem byterev_byterev (x : BitVec 32) : byterev (byterev x) = x := by
  obtain ⟨b₀, b₁, b₂, b₃, h⟩ := exists_bytes x
  exact BitVec.eq_of_toNat_eq ((toNat_byterev (toNat_byterev h)).trans h.symm)

theorem word_eq (mem : Bytes) (a : Nat) :
    word mem a = byterev (load mem (a + 2) ++ load mem a : BitVec 32) := by
  have h : (load mem (a + 2) ++ load mem a : BitVec 32).toNat =
      16777216 * (mem (a + 3)).toNat + 65536 * (mem (a + 2)).toNat +
        256 * (mem (a + 1)).toNat + (mem a).toNat := by
    rw [toNat_append, toNat_load, toNat_load, show a + 2 + 1 = a + 3 from rfl]
    omega
  exact BitVec.eq_of_toNat_eq ((toNat_word mem a).trans (toNat_byterev h).symm)

theorem store_other {mem : Bytes} {a x : Nat} (v : BitVec 16) (h : x < a ∨ a + 2 ≤ x) :
    store mem a v x = mem x := by
  unfold store
  rw [if_neg (by omega), if_neg (by omega)]

theorem load_store_same (mem : Bytes) (a : Nat) (v : BitVec 16) : load (store mem a v) a = v := by
  apply BitVec.eq_of_toNat_eq
  have hv := v.isLt
  rw [toNat_load, store, store, if_neg (Nat.succ_ne_self a), if_pos rfl, if_pos rfl,
    BitVec.extractLsb'_toNat, BitVec.extractLsb'_toNat, Nat.shiftRight_eq_div_pow,
    Nat.shiftRight_eq_div_pow]
  omega

theorem load_store_other {mem : Bytes} {a b : Nat} (v : BitVec 16) (h : b + 2 ≤ a ∨ a + 2 ≤ b) :
    load (store mem a v) b = load mem b := by
  unfold load
  rw [store_other v (by omega), store_other v (by omega)]

theorem store_load (mem : Bytes) (a b : Nat) :
    store mem a (load mem b) a = mem b ∧ store mem a (load mem b) (a + 1) = mem (b + 1) := by
  have hload := congrArg BitVec.toNat (load_store_same mem a (load mem b))
  rw [toNat_load, toNat_load] at hload
  have h := (mem b).isLt
  have h' := (store mem a (load mem b) a).isLt
  exact ⟨BitVec.eq_of_toNat_eq (by omega), BitVec.eq_of_toNat_eq (by omega)⟩

theorem append_setWidth (s : BitVec 32) :
    ((s >>> 16).setWidth 16 ++ s.setWidth 16 : BitVec 32) = s := by
  apply BitVec.eq_of_toNat_eq
  rw [toNat_append, BitVec.toNat_setWidth, BitVec.toNat_setWidth, BitVec.toNat_ushiftRight,
    Nat.shiftRight_eq_div_pow]
  have hs := s.isLt
  omega

theorem byterev_word (mem : Bytes) (a : Nat) :
    byterev (word mem a) = load mem (a + 2) ++ load mem a := by
  rw [word_eq, byterev_byterev]

theorem setWidth_append (hi lo : BitVec 16) : (hi ++ lo : BitVec 32).setWidth 16 = lo := by
  apply BitVec.eq_of_toNat_eq
  rw [BitVec.toNat_setWidth, toNat_append]
  have hlo := lo.isLt
  omega

theorem shift_append (hi lo : BitVec 16) : ((hi ++ lo : BitVec 32) >>> 16).setWidth 16 = hi := by
  apply BitVec.eq_of_toNat_eq
  rw [BitVec.toNat_setWidth, BitVec.toNat_ushiftRight, Nat.shiftRight_eq_div_pow, toNat_append]
  have hhi := hi.isLt
  have hlo := lo.isLt
  omega

def storeWord (mem : Bytes) (a : Nat) (s : BitVec 32) : Bytes :=
  store (store mem a (s.setWidth 16)) (a + 2) ((s >>> 16).setWidth 16)

theorem word_storeWord (mem : Bytes) (a : Nat) (s : BitVec 32) :
    word (storeWord mem a s) a = byterev s := by
  rw [word_eq, storeWord, load_store_same, load_store_other _ (by omega), load_store_same,
    append_setWidth]

theorem storeWord_other {mem : Bytes} {a x : Nat} (s : BitVec 32) (h : x < a ∨ a + 4 ≤ x) :
    storeWord mem a s x = mem x := by
  rw [storeWord, store_other _ (by omega), store_other _ (by omega)]

theorem word_congr {mem mem' : Bytes} {a : Nat} (h : ∀ j < 4, mem' (a + j) = mem (a + j)) :
    word mem' a = word mem a := by
  have h₀ := h 0 (by decide)
  rw [Nat.add_zero] at h₀
  rw [word, word, h₀, h 1 (by decide), h 2 (by decide), h 3 (by decide)]

theorem upper_word (mem : Bytes) (a : Nat) :
    (word mem a).extractLsb' 16 16 = mem a ++ mem (a + 1) := by
  apply BitVec.eq_of_toNat_eq
  rw [BitVec.extractLsb'_toNat, toNat_word, toNat_append, Nat.shiftRight_eq_div_pow]
  omega

theorem lower_word (mem : Bytes) (a : Nat) :
    (word mem a).setWidth 16 = mem (a + 2) ++ mem (a + 3) := by
  apply BitVec.eq_of_toNat_eq
  rw [BitVec.toNat_setWidth, toNat_word, toNat_append]
  omega

theorem word_halves (mem : Bytes) (a : Nat) :
    word mem a = (mem a ++ mem (a + 1)) ++ (mem (a + 2) ++ mem (a + 3)) := by
  apply BitVec.eq_of_toNat_eq
  rw [toNat_word, toNat_append, toNat_append, toNat_append]
  omega

theorem msb_load (mem : Bytes) (a : Nat) :
    (load mem a).msb = decide (128 ≤ (mem (a + 1)).toNat) := by
  rw [BitVec.msb_eq_decide, toNat_load, decide_eq_decide]
  have h := (mem a).isLt
  omega

end Xtcp.Halfword
