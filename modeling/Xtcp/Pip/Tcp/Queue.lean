import Xtcp.Library.Ring
import Xtcp.Pip.Tcp.State

namespace Xtcp.Pip.Tcp

variable {cfg : Config} {size : Nat} {q q' : Xqueue}

theorem Xqueue.put_some {b : UInt8} (hsize : ∃ k ≤ 30, size = 2 ^ k)
    (h : q.put cfg size b = some q') :
    q' = { q with buffer := Function.update q.buffer q.wr b, wr := (q.wr + 1) % size } := by
  unfold Xqueue.put at h
  split at h
  · have hmask : mask size (q.wr + 1) = (q.wr + 1) % size := mask_natCast hsize (q.wr + 1)
    rw [← Option.some.inj h, hmask]
  · cases h

theorem Xqueue.putAll_some {bs : List UInt8} (hsize : ∃ k ≤ 30, size = 2 ^ k) (hwr : q.wr < size)
    (h : q.putAll cfg size bs = some q') :
    q' = { q with
      buffer := Ring.write size q.buffer q.wr bs, wr := (q.wr + bs.length) % size } := by
  induction bs generalizing q with
  | nil =>
    rw [← Option.some.inj h]
    simp [Ring.write, Nat.mod_eq_of_lt hwr]
  | cons b bs ih =>
    obtain ⟨q₁, hput, hrest⟩ := Option.bind_eq_some_iff.mp h
    have hq₁ := Xqueue.put_some hsize hput
    subst hq₁
    rw [ih (Nat.mod_lt _ (Nat.zero_lt_of_lt hwr)) hrest]
    simp [Ring.write, Nat.add_comm 1, Nat.add_assoc]

theorem Xqueue.takeAll_some {n : Nat} {data : List UInt8} (hsize : ∃ k ≤ 30, size = 2 ^ k)
    (hrd : q.rd < size) (h : q.takeAll cfg size n = some (data, q')) :
    data = Ring.read size q.buffer q.rd n ∧ q' = { q with rd := (q.rd + n) % size } := by
  induction n generalizing q data with
  | zero =>
    obtain ⟨rfl, rfl⟩ := Prod.mk.inj (Option.some.inj h)
    simp [Ring.read, Nat.mod_eq_of_lt hrd]
  | succ n ih =>
    unfold Xqueue.takeAll at h
    split at h
    · obtain ⟨r, hr, hdata⟩ := Option.map_eq_some_iff.mp h
      obtain ⟨rfl, rfl⟩ := Prod.mk.inj hdata
      have hmask : mask size (q.rd + 1) = (q.rd + 1) % size := mask_natCast hsize (q.rd + 1)
      rw [hmask] at hr
      obtain ⟨hbytes, hq⟩ := ih (Nat.mod_lt _ (Nat.zero_lt_of_lt hrd)) hr
      refine ⟨?_, ?_⟩
      · rw [hbytes, Ring.read]
      · rw [hq]
        simp [Nat.add_comm 1, Nat.add_assoc]
    · cases h

theorem Xqueue.store_some {bs : List UInt8} {i : Nat} (hsize : ∃ k ≤ 30, size = 2 ^ k)
    (hwr : q.wr < size) (hfree : 0 ≤ q.free) (hint : q.free < 2 ^ 31)
    (h : q.store cfg size bs = some (i, q')) :
    i = min bs.length q.free.toNat ∧
      q' = { q with
        free := q.free - i
        buffer := Ring.write size q.buffer q.wr (bs.take i)
        wr := (q.wr + i) % size } := by
  induction bs generalizing q i with
  | nil =>
    obtain ⟨rfl, rfl⟩ := Prod.mk.inj (Option.some.inj h)
    simp [Ring.write, Nat.mod_eq_of_lt hwr]
  | cons b bs ih =>
    unfold Xqueue.store at h
    split at h
    · next hzero =>
      obtain ⟨rfl, rfl⟩ := Prod.mk.inj (Option.some.inj h)
      refine ⟨by rw [hzero]; simp, ?_⟩
      simp [Ring.write, Nat.mod_eq_of_lt hwr]
    · next hpos =>
      obtain ⟨q₁, hput, h⟩ := Option.bind_eq_some_iff.mp h
      obtain ⟨⟨j, q₂⟩, hr, hdata⟩ := Option.bind_eq_some_iff.mp h
      obtain ⟨rfl, rfl⟩ := Prod.mk.inj (Option.some.inj hdata)
      have hq₁ := Xqueue.put_some hsize hput
      subst hq₁
      have hless : int (q.free - 1) = q.free - 1 := int_eq (by omega) (by omega)
      simp only [hless] at hr
      obtain ⟨hj, hq⟩ := ih (Nat.mod_lt _ (Nat.zero_lt_of_lt hwr)) (by simp only; omega)
        (by simp only; omega) hr
      simp only at hj hq
      refine ⟨by rw [hj, List.length_cons]; omega, ?_⟩
      rw [hq]
      simp [Ring.write, Nat.add_comm 1, Nat.add_assoc]
      omega

end Xtcp.Pip.Tcp
