import Xtcp.Library.Agenda
import Xtcp.Library.Memory
import Xtcp.Pip.Timer

namespace Xtcp.Pip
open Agenda Memory Segment

section Order

def Due (x y : TimeOut) : Prop := epochAfter x.wake y.wake = false

instance : DecidableRel Due := fun x y => by
  unfold Due
  infer_instance

theorem timeAfter_iff {w1 w2 : Wake} (h : w1.epoch = w2.epoch) :
    (0 : Word).slt (w1.time - w2.time) = true ↔ w2.time.toNat < w1.time.toNat := by
  have hw := w1.window
  rw [h, ← w2.window] at hw
  have hw := congrArg BitVec.toNat hw
  simp only [BitVec.toNat_ushiftRight, Nat.shiftRight_eq_div_pow] at hw
  have h1 := w1.time.isLt
  have h2 := w2.time.isLt
  have h0 : (0 : Word).toInt = 0 := rfl
  rw [BitVec.slt, decide_eq_true_iff, h0, BitVec.toInt_eq_toNat_cond, BitVec.toNat_sub]
  split <;> omega

theorem epochAfter_iff (w1 w2 : Wake) : epochAfter w1 w2 = true ↔
    w2.epoch.toInt < w1.epoch.toInt ∨
      (w1.epoch.toInt = w2.epoch.toInt ∧ w2.time.toNat < w1.time.toNat) := by
  unfold epochAfter
  by_cases h : w2.epoch.slt w1.epoch
  · rw [if_pos h]
    rw [BitVec.slt, decide_eq_true_iff] at h
    simp [h]
  · rw [if_neg h]
    rw [BitVec.slt, decide_eq_true_iff] at h
    by_cases h' : w1.epoch.slt w2.epoch
    · rw [if_pos h']
      rw [BitVec.slt, decide_eq_true_iff] at h'
      simp only [Bool.false_eq_true, false_iff]
      omega
    · rw [if_neg h']
      rw [BitVec.slt, decide_eq_true_iff] at h'
      have he : w1.epoch.toInt = w2.epoch.toInt := by omega
      rw [timeAfter_iff (BitVec.eq_of_toInt_eq he)]
      simp [he]

theorem due_iff (x y : TimeOut) : Due x y ↔
    x.wake.epoch.toInt < y.wake.epoch.toInt ∨
      (x.wake.epoch.toInt = y.wake.epoch.toInt ∧ x.wake.time.toNat ≤ y.wake.time.toNat) := by
  have h := epochAfter_iff x.wake y.wake
  rw [Due, ← Bool.not_eq_true, h]
  omega

instance : Std.Total Due where
  total x y := by
    rw [due_iff, due_iff]
    omega

instance : IsTrans TimeOut Due where
  trans x y z hxy hyz := by
    rw [due_iff] at *
    omega

end Order

section Loops

-- The entries from a to b moved up by one.
def shiftUp (q : Slots) (a b : Nat) : Slots := fun j => if a < j ∧ j ≤ b then q (j - 1) else q j

def shiftDown (q : Slots) (a b : Nat) : Slots := fun j => if a ≤ j ∧ j < b then q (j + 1) else q j

variable {q : Slots}

theorem shiftUp_self (a : Nat) : shiftUp q a a = q := by
  funext j
  exact if_neg (by omega)

theorem copy_eq {dest src : Nat} (hd : dest < timeOutSize) (hs : src < timeOutSize) :
    copy q dest src = some (Function.update q dest (q src)) := by
  rw [copy, if_pos hs, put, if_pos hd]

theorem put_eq {i : Nat} (h : i < timeOutSize) (x : TimeOut) :
    put q i x = some (Function.update q i x) := if_pos h

theorem shiftUp_copy {a k : Nat} (h : a ≤ k) :
    shiftUp (Function.update q (k + 1) (q k)) a k = shiftUp q a (k + 1) := by
  funext j
  unfold shiftUp
  by_cases hj : j = k + 1
  · subst hj
    rw [if_neg (by omega), if_pos (by omega), Function.update_self, Nat.add_sub_cancel]
  · rw [Function.update_of_ne hj]
    by_cases hin : a < j ∧ j ≤ k
    · rw [if_pos hin, if_pos (by omega), Function.update_of_ne (by omega)]
    · rw [if_neg hin, if_neg (by omega)]

theorem closeGap_eq {i n : Nat} (h : i + n < timeOutSize) :
    closeGap i n q = some (shiftDown q i (i + n)) := by
  induction n generalizing i q with
  | zero =>
    rw [closeGap]
    congr 1
    funext j
    exact (if_neg (by omega)).symm
  | succ n ih =>
    rw [closeGap, copy_eq (by omega) (by omega), Option.bind_some, ih (by omega)]
    congr 1
    funext j
    unfold shiftDown
    by_cases hj : j = i
    · subst hj
      rw [if_neg (by omega), if_pos (by omega), Function.update_self]
    · rw [Function.update_of_ne hj]
      by_cases hin : i + 1 ≤ j ∧ j < i + 1 + n
      · rw [if_pos hin, if_pos (by omega), Function.update_of_ne (by omega)]
      · rw [if_neg hin, if_neg (by omega)]

-- Where a loop that looks for an earlier entry stops.
structure Stops (w : Wake) (q : Slots) (k' k : Nat) : Prop where
  le : k' ≤ k
  later : ∀ j, k' ≤ j → j < k → epochAfter w (q j).wake = false
  earlier : k' = 0 ∨ epochAfter w (q (k' - 1)).wake = true

theorem Stops.step {w : Wake} {k' k : Nat}
    (h : Stops w (Function.update q (k + 1) (q k)) k' k)
    (hk : epochAfter w (q k).wake = false) : Stops w q k' (k + 1) := by
  have hle := h.le
  refine ⟨by omega, ?_, ?_⟩
  · intro j hj hjk
    by_cases he : j = k
    · exact he ▸ hk
    · have := h.later j hj (by omega)
      rwa [Function.update_of_ne (by omega)] at this
  · rcases h.earlier with h0 | ha
    · exact Or.inl h0
    · rw [Function.update_of_ne (by omega)] at ha
      exact Or.inr ha

theorem sink_eq {w : Wake} {k : Nat} (h : k < timeOutSize) :
    ∃ k', sink w k q = some (k', shiftUp q k' k) ∧ Stops w q k' k := by
  induction k generalizing q with
  | zero => exact ⟨0, by rw [shiftUp_self]; rfl, Nat.le_refl 0, fun j _ hj => by omega, Or.inl rfl⟩
  | succ k ih =>
    unfold sink
    by_cases ha : epochAfter w (q k).wake
    · exact ⟨k + 1, by rw [if_pos ha, shiftUp_self], Nat.le_refl _, fun j _ _ => by omega,
        Or.inr ha⟩
    · rw [if_neg ha, copy_eq h (by omega), Option.bind_some]
      obtain ⟨k', hk', hstop⟩ := @ih (Function.update q (k + 1) (q k)) (by omega)
      exact ⟨k', by rw [hk', shiftUp_copy hstop.le], hstop.step (by simpa using ha)⟩

-- Where the first loop of pipSetTimeOut ends.
inductive Searched (timerNumber : Int) (w : Wake) (timeOuts : Nat) (q : Slots) (k : Nat) :
    Option Found → Prop where
  | missed {k' : Nat} (hstop : Stops w q k' k)
      (hother : ∀ j, k' ≤ j → j < k → (q j).timerNumber ≠ timerNumber) :
      Searched timerNumber w timeOuts q k (some ⟨k', shiftUp q k' k, false⟩)
  | hit {i : Nat} (hi : i < k) (hold : (q i).timerNumber = timerNumber)
      (hlater : ∀ j, i ≤ j → j < k → epochAfter w (q j).wake = false) :
      Searched timerNumber w timeOuts q k
        ((closeGap i (timeOuts - 1 - i) (shiftUp q (i + 1) k)).bind fun q =>
          (sink w i q).map fun r => ⟨r.1, r.2, true⟩)

theorem search_eq {timerNumber : Int} {w : Wake} {m k : Nat} (hk : k ≤ m)
    (hm : m < timeOutSize) :
    Searched timerNumber w m q k (search timerNumber w m k q) := by
  induction k generalizing q with
  | zero =>
    have hq := @shiftUp_self q 0
    unfold search
    nth_rewrite 2 [← hq]
    exact .missed ⟨Nat.le_refl 0, fun j _ hj => by omega, Or.inl rfl⟩ fun j _ hj => by omega
  | succ k ih =>
    unfold search
    by_cases ha : epochAfter w (q k).wake
    · have hq := @shiftUp_self q (k + 1)
      rw [if_pos ha]
      nth_rewrite 2 [← hq]
      exact .missed ⟨Nat.le_refl _, fun j _ _ => by omega, Or.inr ha⟩ fun j _ _ => by omega
    · have ha' : epochAfter w (q k).wake = false := by simpa using ha
      rw [if_neg ha]
      by_cases hn : (q k).timerNumber = timerNumber
      · have hq := @shiftUp_self q (k + 1)
        rw [if_pos hn]
        nth_rewrite 2 [← hq]
        refine .hit (Nat.lt_succ_self k) hn fun j hj hjk => ?_
        obtain rfl : j = k := by omega
        exact ha'
      · rw [if_neg hn, copy_eq (by omega) (by omega), Option.bind_some]
        have hat {j : Nat} (hj : j ≤ k) : Function.update q (k + 1) (q k) j = q j :=
          Function.update_of_ne (by omega) _ _
        have hs := @ih (Function.update q (k + 1) (q k)) (by omega)
        generalize search timerNumber w m k (Function.update q (k + 1) (q k)) = r at hs ⊢
        cases hs with
        | missed hstop hother =>
          rw [shiftUp_copy hstop.le]
          refine .missed (hstop.step ha') fun j hj hjk => ?_
          by_cases he : j = k
          · exact he ▸ hn
          · have := hother j hj (by omega)
            rwa [hat (by omega)] at this
        | hit hi hold hlater =>
          rw [hat (by omega)] at hold
          rw [shiftUp_copy (by omega)]
          refine .hit (by omega) hold fun j hj hjk => ?_
          by_cases he : j = k
          · exact he ▸ ha'
          · have := hlater j hj (by omega)
            rwa [hat (by omega)] at this

theorem dropOld_eq {timerNumber : Int} {m k : Nat} (hk : k < m) (hm : m ≤ timeOutSize) :
    ((∀ j < k, (q j).timerNumber ≠ timerNumber) ∧ dropOld timerNumber m k q = some (q, m)) ∨
      ∃ i < k, (q i).timerNumber = timerNumber ∧
        dropOld timerNumber m k q = some (shiftDown q i (m - 1), m - 1) := by
  induction k with
  | zero => exact Or.inl ⟨fun j hj => by omega, rfl⟩
  | succ k ih =>
    unfold dropOld
    by_cases hn : (q k).timerNumber = timerNumber
    · refine Or.inr ⟨k, Nat.lt_succ_self k, hn, ?_⟩
      rw [if_pos hn, closeGap_eq (by omega), Nat.add_sub_cancel' (by omega)]
      rfl
    · rw [if_neg hn]
      rcases ih (by omega) with ⟨hother, he⟩ | ⟨i, hi, hold, he⟩
      · refine Or.inl ⟨fun j hj => ?_, he⟩
        by_cases hjk : j = k
        · exact hjk ▸ hn
        · exact hother j (by omega)
      · exact Or.inr ⟨i, by omega, hold, he⟩

theorem resetLoop_eq {timerNumber : Int} {m i n : Nat} (hi : i + n = m) (hm : m ≤ timeOutSize) :
    ((∀ j, i ≤ j → j < m → (q j).timerNumber ≠ timerNumber) ∧
        resetLoop timerNumber m i q n = some none) ∨
      ∃ k, i ≤ k ∧ k < m ∧ (q k).timerNumber = timerNumber ∧
        resetLoop timerNumber m i q n = some (some (shiftDown q k (m - 1))) := by
  induction n generalizing i with
  | zero => exact Or.inl ⟨fun j _ _ => by omega, rfl⟩
  | succ n ih =>
    unfold resetLoop
    by_cases hn : (q i).timerNumber = timerNumber
    · refine Or.inr ⟨i, Nat.le_refl i, by omega, hn, ?_⟩
      rw [if_pos hn, closeGap_eq (by omega), Nat.add_sub_cancel' (by omega)]
      rfl
    · rw [if_neg hn]
      rcases @ih (i + 1) (by omega) with ⟨hother, he⟩ | ⟨k, hik, hkm, hold, he⟩
      · refine Or.inl ⟨fun j hj hjm => ?_, he⟩
        by_cases hji : j = i
        · exact hji ▸ hn
        · exact hother j (by omega) hjm
      · exact Or.inr ⟨k, by omega, hkm, hold, he⟩

end Loops

section Slices

variable {q : Slots}

theorem slice_split {i m : Nat} (h : i < m) :
    slice q 0 m = slice q 0 i ++ q i :: slice q (i + 1) (m - 1 - i) := by
  have hm : m = i + (m - 1 - i + 1) := by omega
  nth_rewrite 1 [hm]
  rw [slice_append, slice_cons, Nat.zero_add]

theorem slice_shiftDown {i m : Nat} (h : i < m) :
    slice (shiftDown q i (m - 1)) 0 (m - 1) = slice q 0 i ++ slice q (i + 1) (m - 1 - i) := by
  have hm : m - 1 = i + (m - 1 - i) := by omega
  nth_rewrite 2 [hm]
  rw [slice_append]
  congr 1
  · exact slice_congr fun j hj => if_neg (by omega)
  · refine slice_congr fun j hj => ?_
    rw [shiftDown, if_pos (by omega)]
    congr 1
    omega

theorem slice_put {k' k : Nat} (h : k' ≤ k) (x : TimeOut) :
    slice (Function.update (shiftUp q k' k) k' x) 0 (k + 1) =
      slice q 0 k' ++ x :: slice q k' (k - k') := by
  have hk : k + 1 = k' + (k - k' + 1) := by omega
  rw [hk, slice_append, slice_cons, Nat.zero_add, Function.update_self]
  congr 1
  · refine slice_congr fun j hj => ?_
    rw [Function.update_of_ne (by omega), shiftUp, if_neg (by omega)]
  · congr 1
    refine slice_congr fun j hj => ?_
    rw [Function.update_of_ne (by omega), shiftUp, if_pos (by omega)]
    congr 1
    omega

theorem mem_slice {start n : Nat} {x : TimeOut} :
    x ∈ slice q start n ↔ ∃ j, start ≤ j ∧ j < start + n ∧ q j = x := by
  unfold slice
  rw [List.mem_map]
  constructor
  · rintro ⟨j, hj, rfl⟩
    exact ⟨start + j, by omega, by have := List.mem_range.mp hj; omega, rfl⟩
  · rintro ⟨j, hs, hj, rfl⟩
    exact ⟨j - start, List.mem_range.mpr (by omega), by congr 1; omega⟩

theorem due_slice {m i j : Nat} (h : (slice q 0 m).Pairwise Due) (hij : i ≤ j) (hj : j < m) :
    Due (q i) (q j) := by
  rcases Nat.lt_or_eq_of_le hij with hlt | rfl
  · have := List.pairwise_iff_getElem.mp h i j (by rw [length_slice]; omega)
      (by rw [length_slice]; omega) hlt
    simpa [slice] using this
  · exact (Std.Total.total (r := Due) (q i) (q i)).elim id id

theorem Stops.before {x : TimeOut} {k' k m : Nat} (h : Stops x.wake q k' k) (hk : k ≤ m)
    (hs : (slice q 0 m).Pairwise Due) : ∀ y ∈ slice q 0 k', ¬ Due x y := by
  intro y hy hd
  obtain ⟨j, -, hj, rfl⟩ := mem_slice.mp hy
  have hle := h.le
  rcases h.earlier with rfl | ha
  · omega
  · have hlast := due_slice hs (show j ≤ k' - 1 by omega) (by omega)
    have hx : Due x (q (k' - 1)) := Trans.trans hd hlast
    rw [Due, ha] at hx
    exact absurd hx (by decide)

theorem Stops.behind {x : TimeOut} {k' k : Nat} (h : Stops x.wake q k' k) :
    ∀ y ∈ slice q k' (k - k'), Due x y := by
  intro y hy
  obtain ⟨j, hj, hlt, rfl⟩ := mem_slice.mp hy
  exact h.later j hj (by omega)

end Slices

section Set

variable {q : Slots} {m k' : Nat} {x : TimeOut}

-- The first loop has not met the timer.
theorem missed_active (hs : Sound Due TimeOut.timerNumber (slice q 0 m)) (hm : m < timeOutSize)
    (hstop : Stops x.wake q k' m)
    (hother : ∀ j, k' ≤ j → j < m → (q j).timerNumber ≠ x.timerNumber) :
    ∃ r, dropOld x.timerNumber (m + 1) k' (Function.update (shiftUp q k' m) k' x) = some r ∧
      slice r.1 0 r.2 = schedule Due TimeOut.timerNumber x (slice q 0 m) ∧ r.2 ≤ m + 1 := by
  have hle := hstop.le
  have hput := slice_put (q := q) hstop.le x
  have hbefore := hstop.before (Nat.le_refl m) hs.sorted
  have hsplit : slice q 0 m = slice q 0 k' ++ slice q k' (m - k') := by
    have := slice_append q 0 k' (m - k')
    rwa [Nat.add_sub_cancel' hle, Nat.zero_add] at this
  have hnone : remove TimeOut.timerNumber x.timerNumber (slice q k' (m - k')) =
      slice q k' (m - k') := by
    refine remove_of_forall_ne fun y hy => ?_
    obtain ⟨j, hj, hlt, rfl⟩ := mem_slice.mp hy
    exact hother j hj (by omega)
  have hat {j : Nat} (hj : j < k') : Function.update (shiftUp q k' m) k' x j = q j := by
    rw [Function.update_of_ne (by omega), shiftUp, if_neg (by omega)]
  rcases @dropOld_eq (Function.update (shiftUp q k' m) k' x) x.timerNumber (m + 1) k' (by omega)
    (by omega) with ⟨hno, he⟩ | ⟨i, hi, hold, he⟩
  · refine ⟨_, he, ?_, Nat.le_refl _⟩
    have hfront : remove TimeOut.timerNumber x.timerNumber (slice q 0 k') = slice q 0 k' := by
      refine remove_of_forall_ne fun y hy => ?_
      obtain ⟨j, -, hj, rfl⟩ := mem_slice.mp hy
      have := hno j (by omega)
      rwa [hat (by omega)] at this
    simp only
    rw [hput, schedule, hsplit, remove_append, hfront, hnone,
      orderedInsert_append hbefore hstop.behind]
  · refine ⟨_, he, ?_, by simp only; omega⟩
    rw [hat hi] at hold
    have hfront : slice q 0 k' = slice q 0 i ++ q i :: slice q (i + 1) (k' - 1 - i) := slice_split hi
    have hsound : Sound Due TimeOut.timerNumber
        (slice q 0 i ++ q i :: slice q (i + 1) (k' - 1 - i)) :=
      hfront ▸ hs.sublist (hsplit ▸ List.sublist_append_left _ _)
    have hgone := hsound.remove_split
    rw [hold, ← hfront] at hgone
    have hall := slice_split (q := Function.update (shiftUp q k' m) k' x) (show i < m + 1 by omega)
    rw [hput, hfront, List.append_assoc, List.cons_append] at hall
    obtain ⟨hhead, htail⟩ := List.append_inj hall (by simp)
    have htail := (List.cons.inj htail).2
    have hrest := slice_shiftDown (q := Function.update (shiftUp q k' m) k' x)
      (show i < m + 1 by omega)
    have hmem : ∀ y ∈ slice q 0 i ++ slice q (i + 1) (k' - 1 - i), ¬ Due x y := by
      intro y hy
      refine hbefore y ?_
      rw [hfront]
      rcases List.mem_append.mp hy with hy | hy
      · exact List.mem_append_left _ hy
      · exact List.mem_append_right _ (List.mem_cons_of_mem _ hy)
    simp only
    rw [hrest, ← hhead, ← htail, schedule, hsplit, remove_append, hgone, hnone,
      orderedInsert_append hmem hstop.behind, List.append_assoc]

-- It has, and no more than one entry stands behind it.
theorem hit_active {i : Nat} (hs : Sound Due TimeOut.timerNumber (slice q 0 m))
    (hm : m < timeOutSize) (hi : i < m) (hold : (q i).timerNumber = x.timerNumber)
    (hlater : ∀ j, i ≤ j → j < m → epochAfter x.wake (q j).wake = false) (hlast : m ≤ i + 2) :
    ∃ f, ((closeGap i (m - 1 - i) (shiftUp q (i + 1) m)).bind fun q =>
        (sink x.wake i q).map fun r => (⟨r.1, r.2, true⟩ : Found)) = some f ∧
      f.done = true ∧ f.index < m ∧
      slice (Function.update f.slots f.index x) 0 m =
        schedule Due TimeOut.timerNumber x (slice q 0 m) := by
  have hgap : i + (m - 1 - i) = m - 1 := by omega
  rw [closeGap_eq (by omega), hgap, Option.bind_some]
  obtain ⟨k', hk', hstop⟩ := @sink_eq (shiftDown (shiftUp q (i + 1) m) i (m - 1)) x.wake i (by omega)
  have hle := hstop.le
  have hat {j : Nat} (hj : j < i) : shiftDown (shiftUp q (i + 1) m) i (m - 1) j = q j := by
    rw [shiftDown, if_neg (by omega), shiftUp, if_neg (by omega)]
  have hstop : Stops x.wake q k' i := by
    refine ⟨hle, fun j hj hji => ?_, ?_⟩
    · rw [← hat hji]
      exact hstop.later j hj hji
    · rcases hstop.earlier with h0 | ha
      · exact Or.inl h0
      · by_cases h0 : k' = 0
        · exact Or.inl h0
        · rw [hat (by omega)] at ha
          exact Or.inr ha
  rw [hk']
  refine ⟨_, rfl, rfl, by simp only; omega, ?_⟩
  have hput := slice_put (q := shiftDown (shiftUp q (i + 1) m) i (m - 1)) hle x
  have hslice {a n : Nat} (h : a + n ≤ i) :
      slice (shiftDown (shiftUp q (i + 1) m) i (m - 1)) a n = slice q a n :=
    slice_congr fun j hj => hat (by omega)
  rw [hslice (by omega), hslice (by omega)] at hput
  have hrest : slice
      (Function.update (shiftUp (shiftDown (shiftUp q (i + 1) m) i (m - 1)) k' i) k' x)
      (i + 1) (m - 1 - i) = slice q (i + 1) (m - 1 - i) := by
    refine slice_congr fun j hj => ?_
    rw [Function.update_of_ne (by omega), shiftUp, if_neg (by omega), shiftDown,
      if_neg (by omega), shiftUp, if_neg (by omega)]
  have happend := slice_append
    (Function.update (shiftUp (shiftDown (shiftUp q (i + 1) m) i (m - 1)) k' i) k' x)
    0 (i + 1) (m - 1 - i)
  have hm1 : i + 1 + (m - 1 - i) = m := by omega
  rw [hm1, hput, Nat.zero_add, hrest] at happend
  have hsplit : slice q 0 m = slice q 0 i ++ q i :: slice q (i + 1) (m - 1 - i) := slice_split hi
  have hfront : slice q 0 i = slice q 0 k' ++ slice q k' (i - k') := by
    have := slice_append q 0 k' (i - k')
    rwa [Nat.add_sub_cancel' hle, Nat.zero_add] at this
  have hgone := (hsplit ▸ hs).remove_split
  rw [hold, ← hsplit, hfront, List.append_assoc] at hgone
  have hbehind : ∀ y ∈ slice q k' (i - k') ++ slice q (i + 1) (m - 1 - i), Due x y := by
    intro y hy
    rcases List.mem_append.mp hy with hy | hy
    · exact hstop.behind y hy
    · obtain ⟨j, hj, hlt, rfl⟩ := mem_slice.mp hy
      exact hlater j (by omega) (by omega)
  rw [schedule, hgone, orderedInsert_append (hstop.before (by omega) hs.sorted) hbehind]
  simp only
  rw [happend, List.append_assoc, List.cons_append]

end Set

namespace Timers

def active (s : Timers) : List TimeOut := slice s.timeOut 0 s.timeOuts.toNat

structure Good (s : Timers) : Prop where
  nonneg : 0 ≤ s.timeOuts
  room : s.timeOuts.toNat ≤ timeOutSize
  sound : Sound Due TimeOut.timerNumber s.active

@[simp] theorem length_active (s : Timers) : s.active.length = s.timeOuts.toNat :=
  length_slice _ _ _

section SetTimeOutValue

variable (s : Timers)

@[simp] theorem timeOut_setTimeOutValue : (setTimeOutValue s).timeOut = s.timeOut := by
  unfold setTimeOutValue
  split <;> rfl

@[simp] theorem timeOuts_setTimeOutValue : (setTimeOutValue s).timeOuts = s.timeOuts := by
  unfold setTimeOutValue
  split <;> rfl

@[simp] theorem epoch_setTimeOutValue : (setTimeOutValue s).epoch = s.epoch := by
  unfold setTimeOutValue
  split <;> rfl

@[simp] theorem active_setTimeOutValue : (setTimeOutValue s).active = s.active := by
  rw [active, timeOut_setTimeOutValue, timeOuts_setTimeOutValue, active]

end SetTimeOutValue

theorem Good.setTimeOutValue {s : Timers} (h : s.Good) : (Pip.setTimeOutValue s).Good := by
  refine ⟨?_, ?_, ?_⟩
  · rw [timeOuts_setTimeOutValue]
    exact h.nonneg
  · rw [timeOuts_setTimeOutValue]
    exact h.room
  · rw [active_setTimeOutValue]
    exact h.sound

-- timeOutValue and waitingForEpoch are those of the entry at the head.
def Cached (s : Timers) : Prop := setTimeOutValue s = s

theorem cached_setTimeOutValue (s : Timers) : (setTimeOutValue s).Cached := by
  unfold Cached setTimeOutValue
  split
  · simp
  · simp

end Timers

open Timers

-- The timer is queued at a time that is not before the new one.
def Requeued (s : Timers) (timerNumber : Int) (w : Wake) : Prop :=
  ∃ y ∈ s.active, y.timerNumber = timerNumber ∧ epochAfter w y.wake = false

def LastTwo (s : Timers) (timerNumber : Int) (w : Wake) : Prop :=
  ∀ pre y post, s.active = pre ++ y :: post → y.timerNumber = timerNumber →
    epochAfter w y.wake = true ∨ post.length ≤ 1

theorem set_spec {s : Timers} {timerNumber : Int} {d : Delay} {now : Word} (hg : s.Good)
    (hroom : s.active.length < timeOutSize)
    (hlast : LastTwo s timerNumber (wakeUp s.epoch now d)) :
    ∃ s', pipSetTimeOut timerNumber d now s = some s' ∧ s'.Good ∧ s'.epoch = s.epoch ∧
      s'.active =
        schedule Due TimeOut.timerNumber ⟨timerNumber, wakeUp s.epoch now d⟩ s.active ∧
      (s'.Cached ∨ (Requeued s timerNumber (wakeUp s.epoch now d) ∧
        s'.timeOutValue = s.timeOutValue ∧ s'.waitingForEpoch = s.waitingForEpoch)) := by
  rw [length_active] at hroom
  have hsound := hg.sound.schedule ⟨timerNumber, wakeUp s.epoch now d⟩
  have hneg : ¬ s.timeOuts < 0 := by
    have := hg.nonneg
    omega
  have hs := @search_eq s.timeOut timerNumber (wakeUp s.epoch now d) _ _ (Nat.le_refl _) hroom
  unfold pipSetTimeOut
  rw [if_neg hneg]
  simp only [Option.bind_eq_bind]
  generalize search timerNumber (wakeUp s.epoch now d) s.timeOuts.toNat s.timeOuts.toNat
    s.timeOut = r at hs ⊢
  cases hs with
  | @missed k' hstop hother =>
    obtain ⟨r, hr, hslice, hle⟩ := @missed_active _ _ _ ⟨timerNumber, wakeUp s.epoch now d⟩ hg.sound
      hroom hstop hother
    have hle' := hstop.le
    have hk' : k' < timeOutSize := Nat.lt_of_le_of_lt hle' hroom
    simp only [Option.bind_some, put_eq hk', Bool.false_eq_true, if_false, hr]
    refine ⟨_, rfl, ?_, ?_, ?_, Or.inl (cached_setTimeOutValue _)⟩
    · refine Good.setTimeOutValue ⟨Int.natCast_nonneg _, ?_, ?_⟩
      · simp only [Int.toNat_natCast]
        omega
      · simp only [active, Int.toNat_natCast]
        rw [hslice]
        exact hsound
    · rw [epoch_setTimeOutValue]
    · rw [active_setTimeOutValue]
      simp only [active, Int.toNat_natCast]
      exact hslice
  | @hit i hi hold hlater =>
    have hsplit : s.active = slice s.timeOut 0 i ++
        s.timeOut i :: slice s.timeOut (i + 1) (s.timeOuts.toNat - 1 - i) := slice_split hi
    have hpost : s.timeOuts.toNat ≤ i + 2 := by
      rcases hlast _ _ _ hsplit hold with ha | hl
      · rw [hlater i (Nat.le_refl i) hi] at ha
        exact absurd ha (by decide)
      · rw [length_slice] at hl
        omega
    obtain ⟨f, hf, hdone, hindex, hslice⟩ := @hit_active _ _ ⟨timerNumber, wakeUp s.epoch now d⟩ _
      hg.sound hroom hi hold hlater hpost
    have hk' : f.index < timeOutSize := Nat.lt_trans hindex hroom
    simp only [hf, Option.bind_some, put_eq hk', hdone, if_true]
    refine ⟨_, rfl, ⟨hg.nonneg, hg.room, ?_⟩, rfl, hslice, Or.inr ⟨?_, rfl, rfl⟩⟩
    · change Sound Due TimeOut.timerNumber (slice _ 0 _)
      rw [hslice]
      exact hsound
    · exact ⟨_, mem_slice.mpr ⟨i, Nat.zero_le i, by omega, rfl⟩, hold, hlater i (Nat.le_refl i) hi⟩

theorem active_shiftDown {s : Timers} {i : Nat} (hg : s.Good) (hi : i < s.timeOuts.toNat) :
    slice (shiftDown s.timeOut i (s.timeOuts.toNat - 1)) 0 (s.timeOuts.toNat - 1) =
      remove TimeOut.timerNumber (s.timeOut i).timerNumber s.active := by
  have hsplit : s.active = slice s.timeOut 0 i ++
      s.timeOut i :: slice s.timeOut (i + 1) (s.timeOuts.toNat - 1 - i) := slice_split hi
  have hsound := hg.sound
  rw [hsplit] at hsound
  rw [slice_shiftDown hi, hsplit, hsound.remove_split]

theorem reset_spec {s : Timers} (hg : s.Good) (timerNumber : Int) :
    ∃ s', pipResetTimeOut timerNumber s = some s' ∧ s'.Good ∧ s'.epoch = s.epoch ∧
      s'.active = remove TimeOut.timerNumber timerNumber s.active ∧
      (s'.Cached ∨ ((∃ y ∈ s.active, y.timerNumber = timerNumber) ∧
        s'.timeOutValue = s.timeOutValue ∧ s'.waitingForEpoch = s.waitingForEpoch)) := by
  have hn := hg.nonneg
  have hr := hg.room
  have hsound := hg.sound.remove timerNumber
  unfold pipResetTimeOut
  rcases @resetLoop_eq s.timeOut timerNumber _ 0 _ (Nat.zero_add s.timeOuts.toNat) hg.room with
    ⟨hother, he⟩ | ⟨k, -, hk, hold, he⟩
  · have hnone : remove TimeOut.timerNumber timerNumber s.active = s.active := by
      refine remove_of_forall_ne fun y hy => ?_
      obtain ⟨j, hj, hlt, rfl⟩ := mem_slice.mp hy
      exact hother j hj (by omega)
    simp only [he, Option.bind_eq_bind, Option.bind_some]
    exact ⟨_, rfl, hg.setTimeOutValue, by rw [epoch_setTimeOutValue],
      by rw [active_setTimeOutValue, hnone], Or.inl (cached_setTimeOutValue s)⟩
  · have hslice := active_shiftDown hg hk
    have hcount : (s.timeOuts - 1).toNat = s.timeOuts.toNat - 1 := by omega
    rw [hold, ← hcount] at hslice
    simp only [he, Option.bind_eq_bind, Option.bind_some]
    refine ⟨_, rfl, ⟨by simp only; omega, by simp only; omega, ?_⟩, rfl, ?_, Or.inr ⟨?_, rfl, rfl⟩⟩
    · simp only [active]
      rw [hcount, ← hcount, hslice]
      exact hsound
    · simp only [active]
      rw [hcount, ← hcount]
      exact hslice
    · exact ⟨_, mem_slice.mpr ⟨k, Nat.zero_le k, by omega, rfl⟩, hold⟩

theorem expire_spec {s : Timers} (hg : s.Good) (hne : s.active ≠ []) :
    ∃ x s', numberZeroTimedOut s = some (x.timerNumber, s') ∧ s'.Good ∧ s'.epoch = s.epoch ∧
      s.active = x :: s'.active ∧ x = s.timeOut 0 := by
  have hpos : 0 < s.timeOuts.toNat := by
    rw [← length_active]
    exact List.length_pos_of_ne_nil hne
  have hr := hg.room
  have hcount : (s.timeOuts - 1).toNat = s.timeOuts.toNat - 1 := by omega
  have hsplit : s.active = slice s.timeOut 0 0 ++
      s.timeOut 0 :: slice s.timeOut (0 + 1) (s.timeOuts.toNat - 1 - 0) := slice_split hpos
  have hslice : slice (shiftDown s.timeOut 0 (s.timeOuts.toNat - 1)) 0 (s.timeOuts.toNat - 1) = _ :=
    slice_shiftDown hpos
  have htail : s.active = s.timeOut 0 ::
      slice (shiftDown s.timeOut 0 (s.timeOuts.toNat - 1)) 0 (s.timeOuts.toNat - 1) := by
    rw [hslice, hsplit]
    rfl
  unfold numberZeroTimedOut
  rw [closeGap_eq (by omega), hcount, Nat.zero_add]
  refine ⟨s.timeOut 0, _, rfl, ⟨by simp only; omega, by simp only; omega, ?_⟩, rfl, ?_, rfl⟩
  · simp only [active, hcount]
    exact hg.sound.sublist (htail ▸ List.sublist_cons_self _ _)
  · simp only [active, hcount]
    exact htail

inductive Op where
  | set (timerNumber : Int) (d : Delay) (now : Word)
  | reset (timerNumber : Int)
  | expire

def perform : Op → Timers → Option Timers
  | .set timerNumber d now, s => pipSetTimeOut timerNumber d now s
  | .reset timerNumber, s => pipResetTimeOut timerNumber s
  | .expire, s => (numberZeroTimedOut s).map (·.2)

-- A timer that is set stands among the last two, or moves to a later time; one expires if there
-- is one.
def Meets (s : Timers) : Op → Prop
  | .set timerNumber d now =>
    s.active.length < timeOutSize ∧ LastTwo s timerNumber (wakeUp s.epoch now d)
  | .reset _ => True
  | .expire => s.active ≠ []

inductive Reached : Timers → Prop where
  | start : Reached start
  | step {s s' : Timers} {op : Op} :
      Reached s → Meets s op → perform op s = some s' → Reached s'

def Effect (s s' : Timers) : Op → Prop
  | .set timerNumber d now =>
    (∀ w, ⟨timerNumber, w⟩ ∈ s'.active ↔ w = wakeUp s.epoch now d) ∧
      ∀ y, y.timerNumber ≠ timerNumber → (y ∈ s'.active ↔ y ∈ s.active)
  | .reset timerNumber => s'.active = s.active.filter fun y => y.timerNumber ≠ timerNumber
  | .expire => ∃ x, s.active = x :: s'.active ∧ ∀ y ∈ s'.active, Due x y

theorem good_start : start.Good := ⟨Int.le_refl 0, by decide, sound_nil⟩

theorem perform_spec {s : Timers} {op : Op} (hg : s.Good) (hm : Meets s op) :
    ∃ s', perform op s = some s' ∧ s'.Good ∧ Effect s s' op := by
  cases op with
  | set timerNumber d now =>
    obtain ⟨s', hs', hg', -, hactive, -⟩ := set_spec hg hm.1 hm.2
    refine ⟨s', hs', hg', ?_, ?_⟩
    · intro w
      rw [hactive, mem_schedule]
      simp
    · intro y hy
      rw [hactive, mem_schedule]
      constructor
      · rintro (rfl | h)
        · exact absurd rfl hy
        · exact h.1
      · exact fun h => Or.inr ⟨h, hy⟩
  | reset timerNumber =>
    obtain ⟨s', hs', hg', -, hactive, -⟩ := reset_spec hg timerNumber
    exact ⟨s', hs', hg', hactive⟩
  | expire =>
    obtain ⟨x, s', hs', hg', -, hactive, -⟩ := expire_spec hg hm
    refine ⟨s', by rw [perform, hs']; rfl, hg', x, hactive, ?_⟩
    have hsorted := hg.sound.sorted
    rw [hactive] at hsorted
    exact (List.pairwise_cons.mp hsorted).1

theorem reached_good {s : Timers} (h : Reached s) : s.Good := by
  induction h with
  | start => exact good_start
  | step _ hm hp ih =>
    obtain ⟨s', hs', hg', -⟩ := perform_spec ih hm
    rw [hs'] at hp
    exact Option.some.inj hp ▸ hg'

theorem timer_queue {s : Timers} (h : Reached s) :
    s.active.Pairwise Due ∧ (s.active.map (·.timerNumber)).Nodup ∧
      ∀ op, Meets s op → ∃ s', perform op s = some s' ∧ Effect s s' op := by
  have hg := reached_good h
  refine ⟨hg.sound.sorted, hg.sound.distinct, ?_⟩
  intro op hm
  obtain ⟨s', hs', -, he⟩ := perform_spec hg hm
  exact ⟨s', hs', he⟩

section Runs

def seconds (n : Word) : Delay := ⟨n, 0, 0⟩

def performAll (ops : List Op) (s : Timers) : Option Timers :=
  ops.foldlM (fun s op => perform op s) s

def fourTimers : List Op :=
  [.set 0 (seconds 30) 0, .set 1 (seconds 40) 0, .set 2 (seconds 50) 0, .set 0 (seconds 10) 0]

theorem timer_queue_first : ∃ s, perform (.set 0 (seconds 30) 0) start = some s ∧
    s.active.Pairwise Due ∧ (s.active.map (·.timerNumber)).Nodup ∧
    ∀ op, Meets s op → ∃ s', perform op s = some s' ∧ Effect s s' op := by
  have hempty : start.active = [] := rfl
  have hm : Meets start (.set 0 (seconds 30) 0) := by
    refine ⟨by rw [hempty]; decide, ?_⟩
    intro pre y post h
    rw [hempty] at h
    exact absurd h (by simp)
  obtain ⟨s, hs, -, -⟩ := perform_spec good_start hm
  exact ⟨s, hs, timer_queue (.step .start hm hs)⟩

-- The first timer is set to an earlier time: the last one is gone.
theorem last_timer_lost : ((performAll (fourTimers.take 3) start).map fun s =>
      s.active.map (·.timerNumber)) = some [0, 1, 2] ∧
    ((performAll fourTimers start).map fun s => s.active.map (·.timerNumber)) = some [0, 1, 1] := by
  constructor <;> decide +kernel

end Runs

end Xtcp.Pip
