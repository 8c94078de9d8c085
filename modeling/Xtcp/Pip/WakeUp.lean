import Mathlib.Algebra.Ring.Nat
import Mathlib.Tactic.Ring
import Xtcp.Pip.Timer

namespace Xtcp.Pip

-- Times are counted in ticks from the start.
def epochOf (t : Nat) : Word := BitVec.ofNat 32 (t / 2 ^ epochBit)

def timeOf (t : Nat) : Word := BitVec.ofNat 32 t

theorem toNat_timeOf_shift (t : Nat) : (timeOf t >>> 30).toNat = t / 2 ^ 30 % 4 := by
  simp only [timeOf, BitVec.toNat_ushiftRight, BitVec.toNat_ofNat, Nat.shiftRight_eq_div_pow]
  omega

theorem toNat_and_three (x : Word) : (x &&& 3).toNat = x.toNat % 4 := by
  rw [BitVec.toNat_and]
  exact Nat.and_two_pow_sub_one_eq_mod x.toNat 2

theorem window_of (t : Nat) : timeOf t >>> 30 = epochOf t &&& 3 := by
  apply BitVec.eq_of_toNat_eq
  rw [toNat_timeOf_shift, toNat_and_three, epochOf, BitVec.toNat_ofNat, epochBit]
  omega

def Wake.ofTicks (t : Nat) : Wake := ⟨epochOf t, timeOf t, window_of t⟩

theorem Wake.ext_of_toNat {w v : Wake} (he : w.epoch = v.epoch) (ht : w.time = v.time) :
    w = v := by
  cases w
  cases v
  cases he
  cases ht
  rfl

theorem toNat_epochOf {t : Nat} (h : t < 2 ^ 61) : (epochOf t).toNat = t / 2 ^ 30 := by
  rw [epochOf, BitVec.toNat_ofNat, epochBit]
  omega

-- What is waited for, when the delay is set at time t.
def Delay.ticks (d : Delay) (t : Nat) : Nat :=
  100000000 * d.secsDelay.toNat + (d.tenNSDelay.toNat + (t % 2 ^ 32 &&& d.fuzz.toNat))

-- The sum of the ticks and the fuzz is kept in one word.
def Delay.Fits (d : Delay) (t : Nat) : Prop :=
  d.tenNSDelay.toNat + (t % 2 ^ 32 &&& d.fuzz.toNat) < 2 ^ 32

theorem Delay.fits_of_nonneg {d : Delay} (hs : 0 ≤ d.tenNSDelay.toInt) (hf : 0 ≤ d.fuzz.toInt)
    (t : Nat) : d.Fits t := by
  have hle : t % 2 ^ 32 &&& d.fuzz.toNat ≤ d.fuzz.toNat := Nat.and_le_right
  have hs' := BitVec.toInt_eq_toNat_cond d.tenNSDelay
  have hf' := BitVec.toInt_eq_toNat_cond d.fuzz
  rw [Delay.Fits]
  split_ifs at hs' hf' <;> omega

section Mac

theorem toNat_mac (a b c d : Word) :
    (mac a b c d).toNat = (a.toNat * b.toNat + (c.toNat * 2 ^ 32 + d.toNat)) % 2 ^ 64 := by
  have hc := c.isLt
  have hd := d.isLt
  have happ : (c ++ d : BitVec 64).toNat = c.toNat * 2 ^ 32 + d.toNat := by
    rw [BitVec.toNat_append, ← Nat.shiftLeft_add_eq_or_of_lt hd, Nat.shiftLeft_eq]
  have ha : (a.zeroExtend 64).toNat = a.toNat := by
    have := a.isLt
    simp only [BitVec.toNat_setWidth]
    omega
  have hb : (b.zeroExtend 64).toNat = b.toNat := by
    have := b.isLt
    simp only [BitVec.toNat_setWidth]
    omega
  simp only [mac, BitVec.toNat_add, BitVec.toNat_mul, ha, hb, happ]
  rw [Nat.mod_add_mod]

theorem toNat_high (x : BitVec 64) : (high x).toNat = x.toNat / 2 ^ 32 := by
  have := x.isLt
  simp only [high, BitVec.truncate, BitVec.toNat_setWidth, BitVec.toNat_ushiftRight,
    Nat.shiftRight_eq_div_pow]
  omega

theorem toNat_low (x : BitVec 64) : (low x).toNat = x.toNat % 2 ^ 32 := by
  simp only [low, BitVec.truncate, BitVec.toNat_setWidth]

theorem high_low (x : BitVec 64) : (high x).toNat * 2 ^ 32 + (low x).toNat = x.toNat := by
  rw [toNat_high, toNat_low]
  omega

end Mac

section Epoch

-- The two bits that epoch and time share tell whether the counter lags.
theorem epochAt_of (t : Nat) {epoch : Word}
    (h : epoch = epochOf t ∨ epoch + 1 = epochOf t) : epochAt epoch (timeOf t) = epochOf t := by
  have hshift := window_of t
  rcases h with h | h
  · rw [epochAt, epochBit, hshift, h, if_neg (by simp)]
  · have hne : epoch &&& (3 : Word) ≠ timeOf t >>> 30 := by
      intro he
      rw [hshift, ← h] at he
      have hn := congrArg BitVec.toNat he
      rw [toNat_and_three, toNat_and_three, BitVec.toNat_add, show (1 : Word).toNat = 1 from rfl]
        at hn
      omega
    rw [epochAt, epochBit, if_pos hne, h]

end Epoch

section Wake

variable {t : Nat} {epoch : Word} {d : Delay}

theorem toNat_epoch_shift (h : t < 2 ^ 61) : (epochOf t >>> (32 - epochBit)).toNat = t / 2 ^ 32 := by
  simp only [epochOf, epochBit, BitVec.toNat_ushiftRight, BitVec.toNat_ofNat,
    Nat.shiftRight_eq_div_pow]
  omega

theorem toNat_wakeTime (he : epoch = epochOf t ∨ epoch + 1 = epochOf t)
    (hf : d.Fits t)
    (hd : t + d.ticks t < 2 ^ 61) :
    (wakeTime epoch (timeOf t) d).toNat = t + d.ticks t := by
  have hnow : (timeOf t).toNat = t % 2 ^ 32 := by rw [timeOf, BitVec.toNat_ofNat]
  have hfuzz : (d.tenNSDelay + (timeOf t &&& d.fuzz)).toNat =
      d.tenNSDelay.toNat + (t % 2 ^ 32 &&& d.fuzz.toNat) := by
    rw [BitVec.toNat_add, BitVec.toNat_and, hnow]
    exact Nat.mod_eq_of_lt hf
  have hhigh : (epochAt epoch (timeOf t) >>> (32 - epochBit)).toNat = t / 2 ^ 32 := by
    rw [epochAt_of t he]
    exact toNat_epoch_shift (by omega)
  rw [Delay.ticks] at hd
  simp only [wakeTime]
  rw [toNat_mac, high_low, toNat_mac, hhigh, hfuzz, hnow]
  simp only [Delay.ticks, show (1 : Word).toNat = 1 from rfl,
    show (100000000 : Word).toNat = 100000000 from rfl]
  omega

theorem toNat_wakeEpoch (x : BitVec 64) (h : x.toNat < 2 ^ 61) :
    (high x <<< (32 - epochBit) ||| low x >>> epochBit).toNat = x.toNat / 2 ^ 30 := by
  have hlow : (low x >>> epochBit).toNat = x.toNat % 2 ^ 32 / 2 ^ 30 := by
    rw [BitVec.toNat_ushiftRight, toNat_low, Nat.shiftRight_eq_div_pow, epochBit]
  have hhigh : (high x <<< (32 - epochBit)).toNat = x.toNat / 2 ^ 32 * 4 := by
    rw [BitVec.toNat_shiftLeft, toNat_high, Nat.shiftLeft_eq, epochBit]
    omega
  rw [BitVec.toNat_or, hhigh, hlow]
  have hor := Nat.shiftLeft_add_eq_or_of_lt (i := 2) (show x.toNat % 2 ^ 32 / 2 ^ 30 < 2 ^ 2 by omega)
    (x.toNat / 2 ^ 32)
  rw [Nat.shiftLeft_eq] at hor
  rw [← hor]
  omega

theorem wakeUp_eq (he : epoch = epochOf t ∨ epoch + 1 = epochOf t)
    (hf : d.Fits t)
    (hd : t + d.ticks t < 2 ^ 61) :
    wakeUp epoch (timeOf t) d = Wake.ofTicks (t + d.ticks t) := by
  have hx := toNat_wakeTime he hf hd
  have hepoch : (wakeUp epoch (timeOf t) d).epoch.toNat =
      (wakeTime epoch (timeOf t) d).toNat / 2 ^ 30 := toNat_wakeEpoch _ (by omega)
  have htime : (wakeUp epoch (timeOf t) d).time.toNat =
      (wakeTime epoch (timeOf t) d).toNat % 2 ^ 32 := toNat_low _
  apply Wake.ext_of_toNat
  · apply BitVec.eq_of_toNat_eq
    rw [hepoch, hx]
    exact (toNat_epochOf hd).symm
  · apply BitVec.eq_of_toNat_eq
    rw [htime, hx]
    exact (BitVec.toNat_ofNat _ _).symm

end Wake

section After

theorem toInt_epochOf {t : Nat} (h : t < 2 ^ 61) : (epochOf t).toInt = (t / 2 ^ 30 : Nat) := by
  have hn := toNat_epochOf h
  rw [BitVec.toInt_eq_toNat_of_lt (by omega), hn]

-- Within an epoch two times are less than half of the clock's range apart.
theorem slt_timeOf {a b : Nat} (h : a / 2 ^ 30 = b / 2 ^ 30) :
    (0 : Word).slt (timeOf a - timeOf b) = decide (b < a) := by
  have hsub : (timeOf a - timeOf b).toInt = (a : Int) - b := by
    rw [timeOf, timeOf, BitVec.toInt_sub, BitVec.toInt_ofNat', BitVec.toInt_ofNat']
    simp only [Int.bmod_def]
    omega
  rw [BitVec.slt, hsub, decide_eq_decide, show (0 : Word).toInt = 0 from rfl]
  omega

theorem epochAfter_ofTicks {a b : Nat} (ha : a < 2 ^ 61) (hb : b < 2 ^ 61) :
    epochAfter (Wake.ofTicks a) (Wake.ofTicks b) = decide (b < a) := by
  simp only [epochAfter, Wake.ofTicks, BitVec.slt, toInt_epochOf ha, toInt_epochOf hb,
    decide_eq_true_eq]
  split_ifs with h1 h2
  · symm
    rw [decide_eq_true_eq]
    omega
  · symm
    rw [decide_eq_false_iff_not]
    omega
  · exact slt_timeOf (by omega)

end After

section Clock

theorem wakeUp_exact :
    (∀ (t : Nat) (epoch : Word) (d : Delay), epoch = epochOf t ∨ epoch + 1 = epochOf t →
      0 ≤ d.secsDelay.toInt → 0 ≤ d.tenNSDelay.toInt → d.Fits t → t + d.ticks t < 2 ^ 61 →
        (wakeUp epoch (timeOf t) d).epoch.toNat = (t + d.ticks t) / 2 ^ 30 ∧
          (wakeUp epoch (timeOf t) d).time.toNat = (t + d.ticks t) % 2 ^ 32) ∧
    (∀ (t : Nat) (d : Delay), 0 ≤ d.tenNSDelay.toInt → 0 ≤ d.fuzz.toInt → d.Fits t) ∧
    (∀ a b : Nat, a < 2 ^ 61 → b < 2 ^ 61 →
      epochAfter (Wake.ofTicks a) (Wake.ofTicks b) = decide (b < a)) := by
  refine ⟨?_, fun t d hs hf => d.fits_of_nonneg hs hf t, fun a b => epochAfter_ofTicks⟩
  intro t epoch d he _ _ hf hd
  rw [wakeUp_eq he hf hd]
  exact ⟨toNat_epochOf hd, BitVec.toNat_ofNat _ _⟩

-- A second and a fuzz, set just before the clock wraps, with the counter behind.
theorem wakeUp_exact_wrap :
    (wakeUp 2 (timeOf 0xFFFFFFFF) ⟨1, 7, 0x07FFFFFF⟩).epoch.toNat = 4 ∧
      (wakeUp 2 (timeOf 0xFFFFFFFF) ⟨1, 7, 0x07FFFFFF⟩).time.toNat = 234217733 ∧
      epochAfter (Wake.ofTicks 4529185029) (Wake.ofTicks 0xFFFFFFFF) = true := by
  have hfits := wakeUp_exact.2.1 0xFFFFFFFF ⟨1, 7, 0x07FFFFFF⟩ (by decide) (by decide)
  have h := wakeUp_exact.1 0xFFFFFFFF 2 ⟨1, 7, 0x07FFFFFF⟩ (Or.inr (by decide)) (by decide)
    (by decide) hfits (by decide)
  exact ⟨h.1, h.2, wakeUp_exact.2.2 4529185029 0xFFFFFFFF (by decide) (by decide)⟩

-- A mask with the top bit set: the sum of tick and fuzz wraps to 0.
theorem wakeUp_not_exact :
    ¬∀ (t : Nat) (epoch : Word) (d : Delay), epoch = epochOf t ∨ epoch + 1 = epochOf t →
      0 ≤ d.secsDelay.toInt → 0 ≤ d.tenNSDelay.toInt → t + d.ticks t < 2 ^ 61 →
        (wakeUp epoch (timeOf t) d).epoch.toNat = (t + d.ticks t) / 2 ^ 30 ∧
          (wakeUp epoch (timeOf t) d).time.toNat = (t + d.ticks t) % 2 ^ 32 := by
  intro h
  have h := h 0xFFFFFFFF 3 ⟨0, 1, 0xFFFFFFFF⟩ (Or.inl (by decide)) (by decide) (by decide)
    (by decide)
  exact absurd h (by decide)

end Clock

end Xtcp.Pip
