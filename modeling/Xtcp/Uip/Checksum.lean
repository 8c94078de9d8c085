import Mathlib.Algebra.BigOperators.Intervals
import Xtcp.Library.Memory
import Xtcp.Library.OnesSum
import Xtcp.Uip.Word

namespace Xtcp.Uip
open Halfword OnesSum Xtcp.Segment

def htons16 (v : BitVec 16) : BitVec 16 := v.extractLsb' 0 8 ++ v.extractLsb' 8 8

def onesReduce (sum carry : BitVec 32) : BitVec 32 :=
  let sum := (sum &&& 0xffff#32) + (sum >>> 16) + carry
  (sum &&& 0xffff#32) + (sum >>> 16)

def halfwordSum (mem : Bytes) (data n : Nat) (s : BitVec 32) : BitVec 32 :=
  (List.range n).foldl (fun s i => s + byterev ((load mem (data + 2 * i)).signExtend 32) >>> 16) s

def chksum (sum : BitVec 16) (mem : Bytes) (data : Nat) (lengthInBytes : BitVec 16) : BitVec 16 :=
  let n := (lengthInBytes >>> 1).toNat
  let s := halfwordSum mem data n (sum.setWidth 32)
  let s := if lengthInBytes &&& 1#16 ≠ 0 then s + (mem (data + 2 * n)).setWidth 32 <<< 8 else s
  (onesReduce s 0#32).setWidth 16

-- The big-endian words of a byte string, the last odd byte padded with zero.
def words : List (BitVec 8) → List Nat
  | [] => []
  | [b] => [256 * b.toNat]
  | b :: c :: bs => (256 * b.toNat + c.toNat) :: words bs

def be (mem : Bytes) (a : Nat) : Nat := 256 * (mem a).toNat + (mem (a + 1)).toNat

theorem be_le (mem : Bytes) (a : Nat) : be mem a ≤ 65535 := by
  have h := (mem a).isLt
  have h' := (mem (a + 1)).isLt
  unfold be
  omega

theorem words_le (bs : List (BitVec 8)) : ∀ w ∈ words bs, w ≤ 65535 := by
  fun_induction words bs with
  | case1 => exact fun w hw => absurd hw List.not_mem_nil
  | case2 b =>
    intro w hw
    have hb := b.isLt
    rw [List.mem_singleton.mp hw]
    omega
  | case3 b c bs ih =>
    intro w hw
    have hb := b.isLt
    have hc := c.isLt
    rcases List.mem_cons.mp hw with rfl | hw
    · omega
    · exact ih w hw

theorem toNat_reversedHalf (h : BitVec 16) :
    (byterev (h.signExtend 32) >>> 16).toNat = 256 * (h.toNat % 256) + h.toNat / 256 := by
  have hh := h.isLt
  obtain ⟨u, hu⟩ : ∃ u : BitVec 8, (h.signExtend 32).toNat =
      16777216 * u.toNat + 65536 * u.toNat + h.toNat := by
    rw [BitVec.toNat_signExtend, BitVec.toNat_setWidth, Nat.mod_eq_of_lt (by omega)]
    cases h.msb
    · exact ⟨0, by simp⟩
    · exact ⟨255, by simp; omega⟩
  have hbytes : (h.signExtend 32).toNat = 16777216 * u.toNat + 65536 * u.toNat +
      256 * (h.extractLsb' 8 8).toNat + (h.extractLsb' 0 8).toNat := by
    rw [hu, BitVec.extractLsb'_toNat, BitVec.extractLsb'_toNat, Nat.shiftRight_eq_div_pow,
      Nat.shiftRight_eq_div_pow]
    omega
  have hlt := u.isLt
  rw [BitVec.toNat_ushiftRight, Nat.shiftRight_eq_div_pow, toNat_byterev hbytes,
    BitVec.extractLsb'_toNat, BitVec.extractLsb'_toNat, Nat.shiftRight_eq_div_pow,
    Nat.shiftRight_eq_div_pow]
  omega

theorem toNat_reversedLoad (mem : Bytes) (a : Nat) :
    (byterev ((load mem a).signExtend 32) >>> 16).toNat = be mem a := by
  have h := (mem a).isLt
  rw [toNat_reversedHalf, toNat_load, be]
  omega

theorem sum_be_le (mem : Bytes) (data n : Nat) :
    ∑ i ∈ Finset.range n, be mem (data + 2 * i) ≤ 65535 * n := by
  induction n with
  | zero => exact Nat.le_refl 0
  | succ n ih =>
    have hlast := be_le mem (data + 2 * n)
    rw [Finset.sum_range_succ]
    omega

theorem toNat_halfwordSum (mem : Bytes) (data n : Nat) (s : BitVec 32)
    (h : s.toNat + 65535 * n < 2 ^ 32) :
    (halfwordSum mem data n s).toNat =
      s.toNat + ∑ i ∈ Finset.range n, be mem (data + 2 * i) := by
  induction n with
  | zero => rfl
  | succ n ih =>
    have hstep : halfwordSum mem data (n + 1) s = halfwordSum mem data n s +
        byterev ((load mem (data + 2 * n)).signExtend 32) >>> 16 := by
      rw [halfwordSum, List.range_succ, List.foldl_append]
      rfl
    have hle := sum_be_le mem data n
    have hlast := be_le mem (data + 2 * n)
    rw [hstep, BitVec.toNat_add, ih (by omega), toNat_reversedLoad, Finset.sum_range_succ,
      Nat.mod_eq_of_lt (by omega)]
    omega

theorem fold_twice {n : Nat} (h : n < 2 ^ 31 + 2 ^ 17) :
    (n % 65536 + n / 65536) % 65536 + (n % 65536 + n / 65536) / 65536 = fold 65535 n := by
  by_cases hn : n = 0
  · rw [hn]
    rfl
  · have hsplit : n = (n % 65536 + n / 65536) % 65536 + (n % 65536 + n / 65536) / 65536 +
        65535 * (n / 65536 + (n % 65536 + n / 65536) / 65536) := by omega
    have hfold := fold_add_mul (m := 65535) (a := (n % 65536 + n / 65536) % 65536 +
      (n % 65536 + n / 65536) / 65536) (by omega) (n / 65536 + (n % 65536 + n / 65536) / 65536)
    rw [← hsplit] at hfold
    rw [hfold, fold_of_le (by omega)]

theorem toNat_onesReduce {s : BitVec 32} (h : s.toNat < 2 ^ 31 + 2 ^ 17) :
    (onesReduce s 0#32).toNat = fold 65535 s.toNat := by
  have hlow : ∀ x : BitVec 32, (x &&& 0xffff#32).toNat = x.toNat % 65536 := fun x => by
    rw [BitVec.toNat_and]
    exact Nat.and_two_pow_sub_one_eq_mod x.toNat 16
  have hhigh : ∀ x : BitVec 32, (x >>> 16).toNat = x.toNat / 65536 := fun x => by
    rw [BitVec.toNat_ushiftRight, Nat.shiftRight_eq_div_pow]
  simp only [onesReduce, BitVec.add_zero, BitVec.toNat_add, hlow, hhigh]
  rw [← fold_twice h, Nat.mod_eq_of_lt (a := s.toNat % 65536 + s.toNat / 65536) (by omega),
    Nat.mod_eq_of_lt (by omega)]

theorem words_slice_even (mem : Bytes) (data n : Nat) (tail : List (BitVec 8)) :
    (words (slice mem data (2 * n) ++ tail)).sum =
      ∑ i ∈ Finset.range n, be mem (data + 2 * i) + (words tail).sum := by
  induction n generalizing data with
  | zero => simp [slice]
  | succ n ih =>
    have hcons : slice mem data (2 * (n + 1)) =
        mem data :: mem (data + 1) :: slice mem (data + 2) (2 * n) := by
      rw [show 2 * (n + 1) = 2 * n + 1 + 1 by omega, Memory.slice_cons, Memory.slice_cons]
    rw [hcons, List.cons_append, List.cons_append, words, List.sum_cons, ih,
      Finset.sum_range_succ']
    have hshift : ∀ i, data + 2 + 2 * i = data + 2 * (i + 1) := fun i => by omega
    simp only [hshift, Nat.mul_zero, Nat.add_zero, be]
    omega

theorem sum_words_slice (mem : Bytes) (data len : Nat) :
    (words (slice mem data len)).sum = ∑ i ∈ Finset.range (len / 2), be mem (data + 2 * i) +
      if len % 2 = 1 then 256 * (mem (data + 2 * (len / 2))).toNat else 0 := by
  have hlen : len = 2 * (len / 2) + len % 2 := by omega
  have hsplit : slice mem data len =
      slice mem data (2 * (len / 2)) ++ slice mem (data + 2 * (len / 2)) (len % 2) := by
    rw [← Memory.slice_append, ← hlen]
  rw [hsplit, words_slice_even]
  rcases Nat.mod_two_eq_zero_or_one len with h | h
  · rw [h]
    rfl
  · rw [h]
    simp [slice, words]

theorem toNat_chksum (sum : BitVec 16) (mem : Bytes) (data : Nat) (len : BitVec 16) :
    (chksum sum mem data len).toNat =
      fold 65535 (sum.toNat + (words (slice mem data len.toNat)).sum) := by
  have hlen := len.isLt
  have hsum := sum.isLt
  have hhalf : (len >>> 1).toNat = len.toNat / 2 := by
    rw [BitVec.toNat_ushiftRight, Nat.shiftRight_eq_div_pow]
  have hodd : (len &&& 1#16 ≠ 0) ↔ len.toNat % 2 = 1 := by
    rw [ne_eq, ← BitVec.toNat_inj, BitVec.toNat_and]
    have h := Nat.and_two_pow_sub_one_eq_mod len.toNat 1
    simp at h ⊢
  have hle := sum_be_le mem data (len.toNat / 2)
  have hbyte := (mem (data + 2 * (len.toNat / 2))).isLt
  have heven : (halfwordSum mem data (len.toNat / 2) (sum.setWidth 32)).toNat =
      sum.toNat + ∑ i ∈ Finset.range (len.toNat / 2), be mem (data + 2 * i) := by
    rw [toNat_halfwordSum] <;> simp <;> omega
  unfold chksum
  dsimp only
  rw [sum_words_slice, hhalf, BitVec.toNat_setWidth]
  by_cases hone : len.toNat % 2 = 1
  · have htail : ((mem (data + 2 * (len.toNat / 2))).setWidth 32 <<< 8).toNat =
        256 * (mem (data + 2 * (len.toNat / 2))).toNat := by
      rw [BitVec.toNat_shiftLeft, BitVec.toNat_setWidth, Nat.shiftLeft_eq]
      omega
    rw [if_pos (hodd.mpr hone), if_pos hone, toNat_onesReduce, BitVec.toNat_add, heven, htail,
      Nat.mod_eq_of_lt (a := sum.toNat + _ + _) (by omega), Nat.add_assoc]
    · exact Nat.mod_eq_of_lt (Nat.lt_succ_of_le (fold_le (by decide) _))
    · rw [BitVec.toNat_add, heven, htail]
      omega
  · rw [if_neg (hodd.not.mpr hone), if_neg hone, toNat_onesReduce, heven, Nat.add_zero]
    · exact Nat.mod_eq_of_lt (Nat.lt_succ_of_le (fold_le (by decide) _))
    · rw [heven]
      omega

theorem chksum_eq_total (sum : BitVec 16) (mem : Bytes) (data : Nat) (len : BitVec 16) :
    (chksum sum mem data len).toNat =
      total 65535 sum.toNat (words (slice mem data len.toNat)) := by
  have hsum := sum.isLt
  rw [toNat_chksum, total_eq_fold (by decide) (by omega) _ (words_le _)]

section Checks

-- uip_buf is at address 0.
def uipIpchksum (buf : Bytes) : BitVec 16 :=
  let sum := chksum 0 buf 14 20
  if sum = 0 then 0xffff#16 else htons16 sum

def upperLayerLen (buf : Bytes) : BitVec 16 :=
  ((buf 16).setWidth 16 <<< 8) + (buf 17).setWidth 16 - 20

def upperLayerChksum (proto : BitVec 8) (buf : Bytes) : BitVec 16 :=
  let sum := upperLayerLen buf + proto.setWidth 16
  let sum := chksum sum buf 26 8
  let sum := chksum sum buf 34 (upperLayerLen buf)
  if sum = 0 then 0xffff#16 else htons16 sum

def uipTcpchksum (buf : Bytes) : BitVec 16 := upperLayerChksum 6 buf

def uipUdpchksum (buf : Bytes) : BitVec 16 := upperLayerChksum 17 buf

def ipSum (buf : Bytes) : Nat := (words (slice buf 14 20)).sum

def upperLayerSum (proto : BitVec 8) (buf : Bytes) : Nat :=
  (upperLayerLen buf + proto.setWidth 16).toNat + (words (slice buf 26 8)).sum +
    (words (slice buf 34 (upperLayerLen buf).toNat)).sum

theorem toNat_htons16 (v : BitVec 16) :
    (htons16 v).toNat = 256 * (v.toNat % 256) + v.toNat / 256 := by
  have hv := v.isLt
  simp only [htons16, toNat_append, BitVec.extractLsb'_toNat, Nat.shiftRight_eq_div_pow]
  omega

theorem htons16_htons16 (v : BitVec 16) : htons16 (htons16 v) = v := by
  apply BitVec.eq_of_toNat_eq
  have hv := v.isLt
  rw [toNat_htons16, toNat_htons16]
  omega

theorem htons16_not (v : BitVec 16) : htons16 (~~~v) = ~~~htons16 v := by
  apply BitVec.eq_of_toNat_eq
  have hv := v.isLt
  rw [toNat_htons16, BitVec.toNat_not, BitVec.toNat_not, toNat_htons16]
  omega

theorem returned_eq {sum : BitVec 16} {n : Nat} (h : sum.toNat = fold 65535 n) :
    (if sum = 0 then 0xffff#16 else htons16 sum) = htons16 (BitVec.ofNat 16 (check 65535 n)) := by
  have hzero : sum = 0 ↔ fold 65535 n = 0 := by
    rw [← h, ← BitVec.toNat_inj]
    rfl
  unfold check
  split
  next hs =>
    rw [if_pos (hzero.mp hs)]
    rfl
  next hs =>
    rw [if_neg (hzero.not.mp hs), ← h, BitVec.ofNat_toNat, BitVec.setWidth_eq]

theorem uipIpchksum_eq (buf : Bytes) :
    uipIpchksum buf = htons16 (BitVec.ofNat 16 (check 65535 (ipSum buf))) :=
  returned_eq ((toNat_chksum 0 buf 14 20).trans (by rw [ipSum]; simp))

theorem upperLayerChksum_eq (proto : BitVec 8) (buf : Bytes) :
    upperLayerChksum proto buf =
      htons16 (BitVec.ofNat 16 (check 65535 (upperLayerSum proto buf))) := by
  refine returned_eq ?_
  rw [toNat_chksum, toNat_chksum, fold_fold_add]
  rfl

theorem ofNat_check_eq_iff (n : Nat) :
    htons16 (BitVec.ofNat 16 (check 65535 n)) = 0xffff#16 ↔ check 65535 n = 65535 := by
  have hle := check_le (m := 65535) (by decide) n
  constructor
  · intro h
    have h' := congrArg (fun v => (htons16 v).toNat) h
    simp only [htons16_htons16, BitVec.toNat_ofNat] at h'
    rw [Nat.mod_eq_of_lt (by omega)] at h'
    exact h'
  · intro h
    rw [h]
    rfl

theorem be_store (mem : Bytes) (a : Nat) (v : BitVec 16) :
    be (store mem a v) a = (htons16 v).toNat := by
  have hload := congrArg BitVec.toNat (load_store_same mem a v)
  rw [toNat_load] at hload
  have h := (store mem a v a).isLt
  rw [toNat_htons16, ← hload, be]
  omega

-- A field of a sum is written: what it holds in network order is added.
theorem sum_words_store (mem : Bytes) (data : Nat) {len j : Nat} (v : BitVec 16)
    (hj : j < len / 2) :
    (words (slice (store mem (data + 2 * j) v) data len)).sum + be mem (data + 2 * j) =
      (words (slice mem data len)).sum + (htons16 v).toNat := by
  have hother : ∀ i ∈ (Finset.range (len / 2)).erase j,
      be (store mem (data + 2 * j) v) (data + 2 * i) = be mem (data + 2 * i) := by
    intro i hi
    have hne := (Finset.mem_erase.mp hi).1
    unfold be
    rw [store_other v (by omega), store_other v (by omega)]
  have hmem := Finset.mem_range.mpr hj
  have hlast : store mem (data + 2 * j) v (data + 2 * (len / 2)) = mem (data + 2 * (len / 2)) :=
    store_other v (by omega)
  rw [sum_words_slice, sum_words_slice, hlast,
    ← Finset.add_sum_erase _ (fun i => be (store mem (data + 2 * j) v) (data + 2 * i)) hmem,
    ← Finset.add_sum_erase _ (fun i => be mem (data + 2 * i)) hmem, Finset.sum_congr rfl hother,
    be_store]
  omega

-- A sum over memory that has a field for the complement of its own value.
def Sums (sum : Bytes → Nat) (field : Nat) (mem : Bytes) : Prop :=
  ∀ v w, sum (store (store mem field v) field w) + (htons16 v).toNat =
    sum (store mem field v) + (htons16 w).toNat

def complemented (sum : Bytes → BitVec 16) (field : Nat) (mem : Bytes) : Bytes :=
  store (store mem field 0) field (~~~sum (store mem field 0))

theorem toNat_complement (n : Nat) :
    (htons16 (~~~htons16 (BitVec.ofNat 16 (check 65535 n)))).toNat = 65535 - check 65535 n := by
  have hle := check_le (m := 65535) (by decide) n
  rw [htons16_not, htons16_htons16, BitVec.toNat_not, BitVec.toNat_ofNat,
    Nat.mod_eq_of_lt (by omega)]

theorem check_complemented {sum : Bytes → Nat} {field : Nat} {mem : Bytes}
    (h : Sums sum field mem) :
    check 65535 (sum (complemented (fun m => htons16 (BitVec.ofNat 16 (check 65535 (sum m))))
      field mem)) = 65535 := by
  have hsum := h 0 (~~~htons16 (BitVec.ofNat 16 (check 65535 (sum (store mem field 0)))))
  rw [toNat_complement, show (htons16 0).toNat = 0 from rfl, Nat.add_zero] at hsum
  rw [complemented, hsum]
  exact check_add_complement (by decide) _

-- The complement is sent in its other form where it is zero.
theorem check_other_zero {sum : Bytes → Nat} {field : Nat} {mem : Bytes} (h : Sums sum field mem)
    (hzero : ~~~htons16 (BitVec.ofNat 16 (check 65535 (sum (store mem field 0)))) = 0) :
    check 65535 (sum (store (store mem field 0) field 0xffff#16)) = 65535 := by
  have hsum := h 0 0xffff#16
  rw [show (htons16 0).toNat = 0 from rfl, Nat.add_zero,
    show (htons16 0xffff#16).toNat = 65535 from rfl] at hsum
  have hcheck := toNat_complement (sum (store mem field 0))
  rw [hzero, show (htons16 0).toNat = 0 from rfl] at hcheck
  have hle := check_le (m := 65535) (by decide) (sum (store mem field 0))
  rw [hsum]
  exact check_add_other_zero (by decide) (by omega)

theorem sums_ipSum (buf : Bytes) : Sums ipSum 24 buf := by
  intro v w
  have h := sum_words_store (store buf (14 + 2 * 5) v) 14 w (show 5 < 20 / 2 by decide)
  rw [be_store] at h
  exact h

theorem upperLayerLen_congr {buf buf' : Bytes} (h₁ : buf' 16 = buf 16) (h₂ : buf' 17 = buf 17) :
    upperLayerLen buf' = upperLayerLen buf := by
  rw [upperLayerLen, upperLayerLen, h₁, h₂]

theorem sums_upperLayerSum (proto : BitVec 8) {buf : Bytes} {j : Nat}
    (hj : j < (upperLayerLen buf).toNat / 2) : Sums (upperLayerSum proto) (34 + 2 * j) buf := by
  intro v w
  have hlen : ∀ (m : Bytes) (u : BitVec 16),
      upperLayerLen (store m (34 + 2 * j) u) = upperLayerLen m := fun m u =>
    upperLayerLen_congr (store_other u (by omega)) (store_other u (by omega))
  have haddr : ∀ (m : Bytes) (u : BitVec 16),
      slice (store m (34 + 2 * j) u) 26 8 = slice m 26 8 := fun m u =>
    slice_congr fun k hk => store_other u (by omega)
  have h := sum_words_store (store buf (34 + 2 * j) v) 34 w hj
  rw [be_store] at h
  simp only [upperLayerSum, hlen, haddr]
  omega

theorem uipIpchksum_congr {buf buf' : Bytes} (h : ∀ a, 14 ≤ a → a < 34 → buf' a = buf a) :
    uipIpchksum buf' = uipIpchksum buf := by
  rw [uipIpchksum_eq, uipIpchksum_eq, ipSum, ipSum,
    slice_congr fun k hk => h (14 + k) (by omega) (by omega)]

theorem upperLayerChksum_congr {proto : BitVec 8} {buf buf' : Bytes} (h₁ : buf' 16 = buf 16)
    (h₂ : buf' 17 = buf 17)
    (h : ∀ a, 26 ≤ a → a < 34 + (upperLayerLen buf).toNat → buf' a = buf a) :
    upperLayerChksum proto buf' = upperLayerChksum proto buf := by
  rw [upperLayerChksum_eq, upperLayerChksum_eq, upperLayerSum, upperLayerSum,
    upperLayerLen_congr h₁ h₂, slice_congr fun k hk => h (26 + k) (by omega) (by omega),
    slice_congr fun k hk => h (34 + k) (by omega) (by omega)]

theorem uipIpchksum_complemented (buf : Bytes) :
    uipIpchksum (complemented uipIpchksum 24 buf) = 0xffff#16 := by
  have h := check_complemented (sums_ipSum buf)
  rw [← ofNat_check_eq_iff, ← funext uipIpchksum_eq, ← uipIpchksum_eq] at h
  exact h

theorem uipTcpchksum_complemented {buf : Bytes} (h : 18 ≤ (upperLayerLen buf).toNat) :
    uipTcpchksum (complemented uipTcpchksum 50 buf) = 0xffff#16 := by
  have hsums : Sums (upperLayerSum 6) 50 buf :=
    sums_upperLayerSum 6 (j := 8) (by omega)
  have h := check_complemented hsums
  rw [← ofNat_check_eq_iff, ← funext (upperLayerChksum_eq 6), ← upperLayerChksum_eq] at h
  exact h

end Checks

end Xtcp.Uip
