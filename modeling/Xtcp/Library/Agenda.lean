import Mathlib.Data.List.Sort

namespace Xtcp.Agenda

variable {α κ : Type} {r : α → α → Prop} {key : α → κ}

-- In order, with one entry for a key.
structure Sound (r : α → α → Prop) (key : α → κ) (xs : List α) : Prop where
  sorted : xs.Pairwise r
  distinct : (xs.map key).Nodup

theorem sound_nil : Sound r key [] := ⟨List.Pairwise.nil, List.nodup_nil⟩

theorem Sound.sublist {xs ys : List α} (h : Sound r key ys) (hs : xs.Sublist ys) :
    Sound r key xs :=
  ⟨h.sorted.sublist hs, h.distinct.sublist (hs.map key)⟩

section Remove

variable [DecidableEq κ]

def remove (key : α → κ) (k : κ) (xs : List α) : List α := xs.filter fun x => key x ≠ k

theorem Sound.remove {xs : List α} (h : Sound r key xs) (k : κ) : Sound r key (remove key k xs) :=
  h.sublist List.filter_sublist

theorem mem_remove {k : κ} {x : α} {xs : List α} : x ∈ remove key k xs ↔ x ∈ xs ∧ key x ≠ k := by
  simp [remove]

theorem remove_append (key : α → κ) (k : κ) (xs ys : List α) :
    Agenda.remove key k (xs ++ ys) = Agenda.remove key k xs ++ Agenda.remove key k ys :=
  List.filter_append ..

theorem remove_of_forall_ne {k : κ} {xs : List α} (h : ∀ x ∈ xs, key x ≠ k) :
    Agenda.remove key k xs = xs := by
  refine List.filter_eq_self.mpr ?_
  intro x hx
  simpa using h x hx

theorem Sound.remove_split {xs ys : List α} {x : α} (h : Sound r key (xs ++ x :: ys)) :
    Agenda.remove key (key x) (xs ++ x :: ys) = xs ++ ys := by
  have hd := h.distinct
  rw [List.map_append, List.map_cons, List.nodup_append] at hd
  obtain ⟨-, htail, hne⟩ := hd
  have hys : ∀ y ∈ ys, key y ≠ key x := by
    intro y hy he
    exact (List.nodup_cons.mp htail).1 (he ▸ List.mem_map_of_mem hy)
  have hxs : ∀ y ∈ xs, key y ≠ key x := fun y hy =>
    hne _ (List.mem_map_of_mem hy) _ (List.mem_cons_self ..)
  have hsingle : Agenda.remove key (key x) [x] = [] := by simp [Agenda.remove]
  rw [← List.singleton_append, remove_append, remove_append, remove_of_forall_ne hxs, hsingle,
    remove_of_forall_ne hys]
  rfl

end Remove

section Schedule

variable [DecidableEq κ] [DecidableRel r]

def schedule (r : α → α → Prop) [DecidableRel r] (key : α → κ) (x : α) (xs : List α) : List α :=
  (remove key (key x) xs).orderedInsert r x

theorem orderedInsert_append {x : α} {xs ys : List α} (hx : ∀ y ∈ xs, ¬ r x y)
    (hy : ∀ y ∈ ys, r x y) : (xs ++ ys).orderedInsert r x = xs ++ x :: ys := by
  induction xs with
  | nil =>
    cases ys with
    | nil => rfl
    | cons y ys => rw [List.nil_append, List.orderedInsert_cons_of_le _ _ (hy y (by simp))]; rfl
  | cons z xs ih =>
    rw [List.cons_append, List.orderedInsert_of_not_le _ _ (hx z (by simp)),
      ih fun y hy => hx y (List.mem_cons_of_mem _ hy), List.cons_append]

theorem mem_schedule {x y : α} {xs : List α} :
    y ∈ schedule r key x xs ↔ y = x ∨ (y ∈ xs ∧ key y ≠ key x) := by
  rw [schedule, List.mem_orderedInsert, mem_remove]

theorem Sound.schedule [Std.Total r] [IsTrans α r] {xs : List α} (h : Sound r key xs) (x : α) :
    Sound r key (schedule r key x xs) := by
  refine ⟨(h.remove (key x)).sorted.orderedInsert x _, ?_⟩
  have hp := (List.perm_orderedInsert r x (Agenda.remove key (key x) xs)).map key
  refine hp.nodup_iff.mpr (List.nodup_cons.mpr ⟨?_, (h.remove (key x)).distinct⟩)
  intro hk
  obtain ⟨y, hy, he⟩ := List.mem_map.mp hk
  exact (mem_remove.mp hy).2 he

end Schedule

end Xtcp.Agenda
