import Xtcp.Pip.Frame.Receive
import Xtcp.Uip.Checksum

namespace Xtcp.Pip.Frame

open Halfword Reading OnesSum Xtcp.Segment

def halves (x : Word) : List Nat := [x.toNat / 65536, x.toNat % 65536]

def swapped (n : Nat) : Nat := 256 * (n % 256) + n / 256

-- The halfwords of the packet that onesChecksum comes to.
def packetSum (mem : Bytes) (start lengthInBytes : Nat) : Nat :=
  (Uip.words (slice mem (2 * start) lengthInBytes)).sum

theorem fold_halves (x n : Nat) (h : x + n ≠ 0) :
    fold 65535 (x + n) = fold 65535 (x / 65536 + x % 65536 + n) := by
  have hsplit : x + n = x / 65536 + x % 65536 + n + 65535 * (x / 65536) := by omega
  rw [hsplit, fold_add_mul (by omega)]

theorem halves_le (x : Word) : ∀ w ∈ halves x, w ≤ 65535 := by
  have hx := x.isLt
  intro w hw
  rcases List.mem_cons.mp hw with rfl | hw
  · omega
  · rw [List.mem_singleton.mp hw]
    omega

theorem sum_halves (x : Word) : (halves x).sum = x.toNat / 65536 + x.toNat % 65536 := by
  simp [halves]

section Fold

theorem toNat_rev (x : BitVec 16) : (rev x).toNat = swapped x.toNat := by
  have hx := x.isLt
  have hzero : (0 : BitVec 8).toNat = 0 := rfl
  have hbytes : (x.setWidth 32).toNat = 16777216 * (0 : BitVec 8).toNat +
      65536 * (0 : BitVec 8).toNat + 256 * (x.extractLsb' 8 8).toNat +
        (x.extractLsb' 0 8).toNat := by
    simp only [BitVec.toNat_setWidth, BitVec.extractLsb'_toNat, Nat.shiftRight_eq_div_pow]
    omega
  rw [rev, BitVec.toNat_ushiftRight, Nat.shiftRight_eq_div_pow, toNat_byterev hbytes, swapped,
    BitVec.extractLsb'_toNat, BitVec.extractLsb'_toNat, Nat.shiftRight_eq_div_pow,
    Nat.shiftRight_eq_div_pow, hzero, Nat.pow_zero, Nat.div_one]
  omega

theorem toNat_rev_load (mem : Bytes) (a : Nat) : (rev (load mem a)).toNat = Uip.be mem a := by
  have h := (mem a).isLt
  have h' := (mem (a + 1)).isLt
  rw [toNat_rev, toNat_load, swapped, Uip.be]
  omega

-- Two folds are enough, as long as the first one leaves no more than two halfwords' worth.
theorem toNat_onesReduce {s c : Word} (h : s.toNat % 65536 + s.toNat / 65536 + c.toNat ≤ 131070) :
    (onesReduce s c).toNat = fold 65535 (s.toNat + c.toNat) := by
  have hlow : ∀ x : Word, (x &&& (0xffff : Word)).toNat = x.toNat % 65536 := fun x => by
    rw [BitVec.toNat_and]
    exact Nat.and_two_pow_sub_one_eq_mod x.toNat 16
  have hhigh : ∀ x : Word, (x >>> 16).toNat = x.toNat / 65536 := fun x => by
    rw [BitVec.toNat_ushiftRight, Nat.shiftRight_eq_div_pow]
  have hfirst : ((s &&& (0xffff : Word)) + s >>> 16 + c).toNat =
      s.toNat % 65536 + s.toNat / 65536 + c.toNat := by
    rw [BitVec.toNat_add, BitVec.toNat_add, hlow, hhigh]
    omega
  have hsecond : (onesReduce s c).toNat =
      (s.toNat % 65536 + s.toNat / 65536 + c.toNat) % 65536 +
        (s.toNat % 65536 + s.toNat / 65536 + c.toNat) / 65536 := by
    have hred : onesReduce s c = ((s &&& (0xffff : Word)) + s >>> 16 + c &&& (0xffff : Word)) +
        ((s &&& (0xffff : Word)) + s >>> 16 + c) >>> 16 := rfl
    rw [hred, BitVec.toNat_add, hlow, hhigh, hfirst]
    omega
  rw [hsecond]
  generalize hn : s.toNat % 65536 + s.toNat / 65536 + c.toNat = n at h
  have hsame : s.toNat + c.toNat = n + 65535 * (s.toNat / 65536) := by omega
  rw [hsame]
  by_cases hz : n = 0
  · have hs : s.toNat / 65536 = 0 := by omega
    rw [hz, hs]
    rfl
  · have hsplit : n = n % 65536 + n / 65536 + 65535 * (n / 65536) := by omega
    have hfold := fold_add_mul (m := 65535) (a := n % 65536 + n / 65536) (by omega) (n / 65536)
    rw [← hsplit] at hfold
    rw [fold_add_mul hz, hfold, fold_of_le (by omega)]

theorem toNat_onesReduce_zero (s : Word) : (onesReduce s 0).toNat = fold 65535 s.toNat := by
  have hs := s.isLt
  have hzero : (0 : Word).toNat = 0 := rfl
  rw [toNat_onesReduce (by rw [hzero]; omega), hzero, Nat.add_zero]

theorem toNat_complement {s : Word} (h : s.toNat ≤ 65535) :
    (byterev (~~~s &&& (0xffff : Word)) >>> 16).toNat = swapped (65535 - s.toNat) := by
  have hmask : (~~~s &&& (0xffff : Word)).toNat = 65535 - s.toNat := by
    rw [BitVec.toNat_and, BitVec.toNat_not]
    have h16 := Nat.and_two_pow_sub_one_eq_mod (2 ^ 32 - 1 - s.toNat) 16
    rw [show (0xffff : Word).toNat = 2 ^ 16 - 1 from rfl, h16]
    omega
  have hrev : ~~~s &&& (0xffff : Word) =
      ((~~~s &&& (0xffff : Word)).setWidth 16).setWidth 32 := by
    apply BitVec.eq_of_toNat_eq
    rw [BitVec.toNat_setWidth, BitVec.toNat_setWidth, hmask]
    omega
  rw [hrev, ← rev, toNat_rev, BitVec.toNat_setWidth, hmask]
  congr 1
  omega

theorem toNat_onesAdd (x y : Word) : (onesAdd x y).toNat = fold 65535 (x.toNat + y.toNat) := by
  have hx := x.isLt
  have hy := y.isLt
  have hcarry : (BitVec.ofNat 32 ((x.toNat + y.toNat) / 4294967296) : Word).toNat =
      (x.toNat + y.toNat) / 4294967296 := by
    rw [BitVec.toNat_ofNat]
    omega
  rw [onesAdd, toNat_onesReduce (by rw [hcarry, BitVec.toNat_add]; omega), hcarry,
    BitVec.toNat_add]
  generalize hn : (x.toNat + y.toNat) % 2 ^ 32 + (x.toNat + y.toNat) / 4294967296 = n
  have hsplit : x.toNat + y.toNat = n + 65535 * (65537 * ((x.toNat + y.toNat) / 4294967296)) := by
    omega
  by_cases hz : n = 0
  · rw [hsplit, hz, show (x.toNat + y.toNat) / 4294967296 = 0 by omega]
  · rw [hsplit, fold_add_mul hz]

theorem onesAdd_eq_total (x y : Word) :
    (onesAdd x y).toNat = total 65535 0 (halves x ++ halves y) := by
  have hle : ∀ w ∈ halves x ++ halves y, w ≤ 65535 := by
    intro w hw
    rcases List.mem_append.mp hw with hw | hw
    · exact halves_le x w hw
    · exact halves_le y w hw
  rw [toNat_onesAdd, total_eq_fold (by decide) (by decide) _ hle, List.sum_append, sum_halves,
    sum_halves, Nat.zero_add]
  by_cases hz : x.toNat + y.toNat = 0
  · rw [show x.toNat = 0 by omega, show y.toNat = 0 by omega]
  · rw [fold_halves _ _ hz, Nat.add_comm, fold_halves _ _ (by omega), Nat.add_comm]

end Fold

section Checksum

theorem toNat_addWords (mem : Bytes) (start n : Nat) (sum : Word) :
    (((each (fun i => short (start + i)) n).value mem).foldl
      (fun (sum : Word) x => sum + rev x) sum).toNat =
      (sum.toNat + ∑ i ∈ Finset.range n, Uip.be mem (2 * start + 2 * i)) % 2 ^ 32 := by
  rw [value_each]
  induction n with
  | zero => exact (Nat.mod_eq_of_lt sum.isLt).symm
  | succ n ih =>
    rw [List.range_succ, List.map_append, List.foldl_append, List.map_singleton, List.foldl_cons,
      List.foldl_nil, BitVec.toNat_add, ih, value_short, toNat_rev_load, Finset.sum_range_succ,
      Nat.mul_add, Nat.mod_add_mod, Nat.add_assoc]

theorem value_onesChecksum (mem : Bytes) (sum : Word) (start len : Nat) :
    ((onesChecksum sum start len).value mem).toNat =
      swapped (65535 - fold 65535 ((sum.toNat + packetSum mem start len) % 2 ^ 32)) := by
  have hodd : len % 2 = 0 ∨ len % 2 = 1 := by omega
  have hbyte := (mem (2 * start + 2 * (len / 2))).isLt
  have hsum : packetSum mem start len = ∑ i ∈ Finset.range (len / 2), Uip.be mem (2 * start + 2 * i) +
      if len % 2 = 1 then 256 * (mem (2 * start + 2 * (len / 2))).toNat else 0 :=
    Uip.sum_words_slice mem (2 * start) len
  have hrun := toNat_addWords mem start (len / 2) sum
  have hlast : ∀ b : Word, (((each (fun i => byte (2 * (start + len / 2) + i)) (len % 2)).value
      mem).foldl (fun (sum : Word) b => sum + (b.setWidth 32 : Word) <<< 8) b).toNat =
      (b.toNat + if len % 2 = 1 then 256 * (mem (2 * start + 2 * (len / 2))).toNat else 0) %
        2 ^ 32 := by
    intro b
    rcases hodd with h | h
    · rw [h]
      exact (Nat.mod_eq_of_lt b.isLt).symm
    · rw [h, value_each]
      simp only [List.range_one, List.map_singleton, List.foldl_cons, List.foldl_nil, value_byte,
        BitVec.toNat_add, BitVec.toNat_shiftLeft, BitVec.toNat_setWidth, Nat.shiftLeft_eq,
        Nat.add_zero, Nat.mul_add, if_true]
      omega
  have hvalue : (onesChecksum sum start len).value mem = byterev
      (~~~onesReduce (((each (fun i => byte (2 * (start + len / 2) + i)) (len % 2)).value mem).foldl
        (fun (sum : Word) b => sum + (b.setWidth 32 : Word) <<< 8)
          (((each (fun i => short (start + i)) (len / 2)).value mem).foldl
            (fun (sum : Word) x => sum + rev x) sum)) 0 &&& (0xffff : Word)) >>> 16 := rfl
  rw [hvalue, toNat_complement (by rw [toNat_onesReduce_zero]; exact fold_le (by decide) _),
    toNat_onesReduce_zero, hlast, hrun, hsum, Nat.mod_add_mod,
    Nat.add_assoc]

theorem value_onesChecksum_congr {mem mem' : Bytes} (sum : Word) {start : Nat} (len : Nat)
    (h : ∀ i, 2 * start ≤ i → mem' i = mem i) :
    (onesChecksum sum start len).value mem' = (onesChecksum sum start len).value mem := by
  have hslice : slice mem' (2 * start) len = slice mem (2 * start) len :=
    slice_congr fun j _ => h _ (Nat.le_add_right _ j)
  apply BitVec.eq_of_toNat_eq
  rw [value_onesChecksum, value_onesChecksum, packetSum, packetSum, hslice]

theorem swapped_swapped {n : Nat} (h : n ≤ 65535) : swapped (swapped n) = n := by
  rw [swapped, swapped]
  omega

theorem swapped_eq_zero {n : Nat} : swapped n = 0 ↔ n = 0 := by
  rw [swapped]
  omega

theorem fold_eq_top (n : Nat) : fold 65535 n = 65535 ↔ n ≠ 0 ∧ n % 65535 = 0 := by
  unfold fold
  split <;> omega

theorem onesChecksum_eq_zero (mem : Bytes) {sum : Word} {start len : Nat}
    (h : sum.toNat + packetSum mem start len < 2 ^ 32) :
    (onesChecksum sum start len).value mem = 0 ↔
      fold 65535 (sum.toNat + packetSum mem start len) = 65535 := by
  have hle := fold_le (m := 65535) (by decide) (sum.toNat + packetSum mem start len)
  have hvalue := value_onesChecksum mem sum start len
  rw [Nat.mod_eq_of_lt h] at hvalue
  rw [← BitVec.toNat_inj, hvalue, show (0 : Word).toNat = 0 from rfl, swapped_eq_zero]
  omega

theorem packetSum_le (mem : Bytes) (start len : Nat) :
    packetSum mem start len ≤ 65535 * ((len + 1) / 2) := by
  have hsum := Uip.sum_words_slice mem (2 * start) len
  have heven := Uip.sum_be_le mem (2 * start) (len / 2)
  have hbyte := (mem (2 * start + 2 * (len / 2))).isLt
  rw [packetSum, hsum]
  split_ifs <;> omega

theorem be_store (mem : Bytes) (k j : Nat) (v : BitVec 16) (hz : load mem (2 * k) = 0) :
    Uip.be (store mem (2 * k) v) (2 * j) =
      Uip.be mem (2 * j) + if j = k then swapped v.toNat else 0 := by
  rw [← toNat_rev_load, ← toNat_rev_load]
  split_ifs with hj
  · rw [hj, load_store_same, hz, toNat_rev, toNat_rev, show (0 : BitVec 16).toNat = 0 from rfl]
    exact (Nat.zero_add _).symm
  · rw [load_store_other _ (by omega), Nat.add_zero]

theorem packetSum_store {mem : Bytes} {start len k : Nat} (v : BitVec 16)
    (hz : load mem (2 * k) = 0) (hk : start ≤ k) (hfit : 2 * (k - start) + 2 ≤ len) :
    packetSum (store mem (2 * k) v) start len = packetSum mem start len + swapped v.toNat := by
  have hlast : store mem (2 * k) v (2 * start + 2 * (len / 2)) = mem (2 * start + 2 * (len / 2)) :=
    store_other v (by omega)
  have hmem : k - start ∈ Finset.range (len / 2) := Finset.mem_range.mpr (by omega)
  have heach : ∀ i, Uip.be (store mem (2 * k) v) (2 * start + 2 * i) =
      Uip.be mem (2 * start + 2 * i) + if i = k - start then swapped v.toNat else 0 := by
    intro i
    have hi : i = k - start ↔ start + i = k := by omega
    rw [← Nat.mul_add, be_store mem k (start + i) v hz]
    simp only [hi]
  rw [packetSum, packetSum, Uip.sum_words_slice, Uip.sum_words_slice, hlast]
  simp only [heach]
  rw [Finset.sum_add_distrib, Finset.sum_ite_eq', if_pos hmem]
  omega

-- With its own checksum put in the place of a zero a packet is right.
theorem onesChecksum_filled {mem : Bytes} {sum : Word} {start len k : Nat}
    (hz : load mem (2 * k) = 0) (hk : start ≤ k) (hfit : 2 * (k - start) + 2 ≤ len)
    (h : sum.toNat + packetSum mem start len + 65535 < 2 ^ 32) :
    (onesChecksum sum start len).value
      (store mem (2 * k) (((onesChecksum sum start len).value mem).setWidth 16)) = 0 := by
  have hvalue := value_onesChecksum mem sum start len
  have hle := fold_le (m := 65535) (by decide) (sum.toNat + packetSum mem start len)
  rw [Nat.mod_eq_of_lt (by omega)] at hvalue
  have hbound : swapped (65535 - fold 65535 (sum.toNat + packetSum mem start len)) < 65536 := by
    rw [swapped]
    omega
  have hpacket := packetSum_store (((onesChecksum sum start len).value mem).setWidth 16) hz hk hfit
  rw [BitVec.toNat_setWidth, hvalue, Nat.mod_eq_of_lt hbound, swapped_swapped (by omega)] at hpacket
  rw [onesChecksum_eq_zero _ (by omega), hpacket, ← Nat.add_assoc, ← fold_fold_add,
    Nat.add_sub_cancel' hle]
  exact fold_of_le (Nat.le_refl _)

theorem total_packet (mem : Bytes) (sum : Word) (start len : Nat) :
    total 65535 0 (halves sum ++ Uip.words (slice mem (2 * start) len)) =
      fold 65535 (sum.toNat + packetSum mem start len) := by
  have hle : ∀ w ∈ halves sum ++ Uip.words (slice mem (2 * start) len), w ≤ 65535 := by
    intro w hw
    rcases List.mem_append.mp hw with hw | hw
    · exact halves_le sum w hw
    · exact Uip.words_le _ w hw
  rw [total_eq_fold (by decide) (by decide) _ hle, List.sum_append, sum_halves, ← packetSum,
    Nat.zero_add]
  by_cases hz : sum.toNat + packetSum mem start len = 0
  · rw [show sum.toNat = 0 by omega, show packetSum mem start len = 0 by omega]
  · exact (fold_halves _ _ hz).symm

-- 2 ^ 32 is 1 for the sum: the carries that are lost are missing from it.
theorem fold_mod_word {n : Nat} (h : n < 65535 * 2 ^ 32) :
    fold 65535 (n % 2 ^ 32) = fold 65535 n ↔ n < 2 ^ 32 := by
  constructor
  · intro heq
    by_contra hge
    unfold fold at heq
    split_ifs at heq <;> omega
  · intro hlt
    rw [Nat.mod_eq_of_lt hlt]

theorem onesChecksum_eq_total (mem : Bytes) (sum : Word) (start : Nat) {len : Nat}
    (h : len < 2 ^ 31) :
    ((onesChecksum sum start len).value mem).toNat =
        swapped (65535 - total 65535 0 (halves sum ++ Uip.words (slice mem (2 * start) len))) ↔
      sum.toNat + packetSum mem start len < 2 ^ 32 := by
  have hsum := sum.isLt
  have hpacket := packetSum_le mem start len
  have hle := fold_le (m := 65535) (by decide) (sum.toNat + packetSum mem start len)
  have hle' := fold_le (m := 65535) (by decide) ((sum.toNat + packetSum mem start len) % 2 ^ 32)
  rw [value_onesChecksum, total_packet, ← fold_mod_word (by omega)]
  constructor
  · intro heq
    have hback := congrArg swapped heq
    rw [swapped_swapped (by omega), swapped_swapped (by omega)] at hback
    omega
  · intro heq
    rw [heq]

end Checksum

end Xtcp.Pip.Frame
