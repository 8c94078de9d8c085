import Mathlib.Data.List.Induction
import Mathlib.Data.List.Infix

namespace Xtcp.Prefix

variable {α σ : Type}

theorem split_concat {pre post xs : List α} {a b : α} (h : xs ++ [b] = pre ++ a :: post) :
    (∃ post', xs = pre ++ a :: post') ∨ (a = b ∧ pre = xs) := by
  rcases List.eq_nil_or_concat post with rfl | ⟨post', x, rfl⟩
  · obtain ⟨hp, ha⟩ := List.append_inj' h rfl
    exact Or.inr ⟨(List.singleton_inj.mp ha).symm, hp.symm⟩
  · have h' : xs ++ [b] = (pre ++ a :: post') ++ [x] := by simpa using h
    exact Or.inl ⟨post', (List.append_inj' h' rfl).1⟩

-- What holds of each element and those before it.
theorem forall_split_append {C : List α → α → Prop} {xs ys : List α}
    (hx : ∀ pre a post, xs = pre ++ a :: post → C pre a)
    (hy : ∀ pre a post, ys = pre ++ a :: post → C (xs ++ pre) a) :
    ∀ pre a post, xs ++ ys = pre ++ a :: post → C pre a := by
  intro pre a post heq
  rcases List.append_eq_append_iff.mp heq with ⟨as, rfl, hpost⟩ | ⟨bs, hxs, hpost⟩
  · exact hy as a post hpost
  · cases bs with
    | nil =>
      rw [List.append_nil] at hxs
      subst hxs
      have h := hy [] a post hpost.symm
      rwa [List.append_nil] at h
    | cons b bs =>
      obtain ⟨rfl, -⟩ := List.cons.inj hpost
      exact hx pre a bs hxs

theorem forall_concat_iff (P : List α → Prop) (xs : List α) (a : α) :
    (∀ pre, pre <+: xs ++ [a] → P pre) ↔ (∀ pre, pre <+: xs → P pre) ∧ P (xs ++ [a]) := by
  simp only [List.prefix_concat_iff]
  constructor
  · intro h
    exact ⟨fun pre hp => h pre (Or.inr hp), h _ (Or.inl rfl)⟩
  · rintro ⟨h, ha⟩ pre (rfl | hp)
    · exact ha
    · exact h pre hp

theorem forall_step_concat_iff (C : List α → α → Prop) (xs : List α) (a : α) :
    (∀ pre b, pre ++ [b] <+: xs ++ [a] → C pre b) ↔
      (∀ pre b, pre ++ [b] <+: xs → C pre b) ∧ C xs a := by
  simp only [List.prefix_concat_iff]
  constructor
  · intro h
    exact ⟨fun pre b hp => h pre b (Or.inr hp), h xs a (Or.inl rfl)⟩
  · rintro ⟨h, ha⟩ pre b (heq | hp)
    · obtain ⟨rfl, rfl⟩ := List.append_singleton_inj.mp heq
      exact ha
    · exact h pre b hp

theorem forall_prefix_iff (P : List α → Prop) (C : List α → α → Prop) (h0 : P [])
    (hstep : ∀ pre a, P pre → (P (pre ++ [a]) ↔ C pre a)) (xs : List α) :
    (∀ pre, pre <+: xs → P pre) ↔ ∀ pre a, pre ++ [a] <+: xs → C pre a := by
  induction xs using List.reverseRecOn with
  | nil =>
    constructor
    · intro _ pre a h
      simp at h
    · intro _ pre h
      rw [List.prefix_nil.mp h]
      exact h0
  | append_singleton xs a ih =>
    rw [forall_concat_iff, forall_step_concat_iff, ← ih]
    exact and_congr_right fun h => hstep xs a (h xs (List.prefix_refl xs))

theorem forall_prefix_of_step {I : List α → Prop} {xs : List α} (h0 : I [])
    (hstep : ∀ pre a, pre ++ [a] <+: xs → I pre → I (pre ++ [a])) (pre : List α)
    (hp : pre <+: xs) : I pre := by
  induction pre using List.reverseRecOn with
  | nil => exact h0
  | append_singleton pre a ih =>
    exact hstep pre a hp (ih ((List.prefix_append pre [a]).trans hp))

theorem forall_prefix_iff_of {P I : List α → Prop} {C : List α → α → Prop} {xs : List α}
    (h0 : I []) (hI : ∀ pre, I pre → P pre)
    (hstep : ∀ pre a, pre ++ [a] <+: xs → I pre →
      (C pre a → I (pre ++ [a])) ∧ (P (pre ++ [a]) → C pre a)) :
    (∀ pre, pre <+: xs → P pre) ↔ ∀ pre a, pre ++ [a] <+: xs → C pre a := by
  have hall (hC : ∀ pre a, pre ++ [a] <+: xs → I pre → C pre a) : ∀ pre, pre <+: xs → I pre :=
    forall_prefix_of_step h0 fun pre a hp hpre => (hstep pre a hp hpre).1 (hC pre a hp hpre)
  constructor
  · intro h
    have hC (pre : List α) (a : α) (hp : pre ++ [a] <+: xs) (hpre : I pre) : C pre a :=
      (hstep pre a hp hpre).2 (h _ hp)
    exact fun pre a hp => hC pre a hp (hall hC pre ((List.prefix_append pre [a]).trans hp))
  · exact fun hC pre hp => hI pre (hall (fun pre a hp _ => hC pre a hp) pre hp)

theorem forall_step_take {C : List α → α → Prop} {xs : List α}
    (h : ∀ k (hk : k < xs.length), C (xs.take k) xs[k]) (pre : List α) (a : α)
    (hp : pre ++ [a] <+: xs) : C pre a := by
  obtain ⟨post, rfl⟩ := hp
  have hk := h pre.length (by simp)
  simpa using hk

theorem foldl_invariant {f : σ → α → σ} {P : σ → List α → Prop} {s : σ} (h0 : P s [])
    (hstep : ∀ t pre a, P t pre → P (f t a) (pre ++ [a])) (xs : List α) :
    P (xs.foldl f s) xs := by
  induction xs using List.reverseRecOn with
  | nil => exact h0
  | append_singleton xs a ih =>
    rw [List.foldl_concat]
    exact hstep _ _ _ ih

-- What holds of each element, given what the ones before it have come to.
def Along (step : σ → α → σ) (C : σ → α → Prop) : σ → List α → Prop
  | _, [] => True
  | s, a :: as => C s a ∧ Along step C (step s a) as

instance {step : σ → α → σ} {C : σ → α → Prop} [∀ s a, Decidable (C s a)] :
    ∀ s xs, Decidable (Along step C s xs)
  | _, [] => isTrue trivial
  | s, a :: as =>
    have : Decidable (Along step C (step s a) as) := instDecidableAlong _ as
    inferInstanceAs (Decidable (C s a ∧ Along step C (step s a) as))

theorem along_append {step : σ → α → σ} {C : σ → α → Prop} (s : σ) (xs ys : List α) :
    Along step C s (xs ++ ys) ↔ Along step C s xs ∧ Along step C (xs.foldl step s) ys := by
  induction xs generalizing s with
  | nil => simp [Along]
  | cons a xs ih => simp [Along, ih, and_assoc]

theorem along_iff {step : σ → α → σ} {C : σ → α → Prop} (s : σ) (xs : List α) :
    Along step C s xs ↔ ∀ pre a post, xs = pre ++ a :: post → C (pre.foldl step s) a := by
  constructor
  · rintro h pre a post rfl
    exact ((along_append s pre (a :: post)).mp h).2.1
  · intro h
    induction xs generalizing s with
    | nil => trivial
    | cons a xs ih => exact ⟨h [] a xs rfl, ih _ fun pre b post hxs => h (a :: pre) b post (hxs ▸ rfl)⟩

theorem along_of_forall {step : σ → α → σ} {C : σ → α → Prop} {s : σ} {xs : List α}
    (h : ∀ t, ∀ a ∈ xs, C t a) : Along step C s xs := by
  induction xs generalizing s with
  | nil => trivial
  | cons a xs ih =>
    exact ⟨h s a List.mem_cons_self, ih fun t b hb => h t b (List.mem_cons_of_mem a hb)⟩

end Xtcp.Prefix
