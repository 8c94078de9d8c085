import Mathlib.Data.List.Basic

namespace Xtcp.Lifetime

variable {α : Type}

-- What happens to one name: it is issued, then a holder begins, goes on and stops with it.
inductive Act (α : Type) where
  | issue
  | begin (a : α)
  | go (a : α)
  | stop (a : α)
  deriving DecidableEq, Repr

inductive Phase (α : Type) where
  | ended
  | issued
  | active (a : α)
  deriving DecidableEq, Repr

def Goes (a : α) (acts : List (Act α)) : Prop := ∀ x ∈ acts, x = .go a

def Session (acts : List (Act α)) : Prop :=
  acts = [] ∨ ∃ a mid, Goes a mid ∧ (acts = .begin a :: mid ∨ acts = .begin a :: (mid ++ [.stop a]))

-- Nothing before the first issue; between two issues, at most one session.
def Lives (acts : List (Act α)) : Prop :=
  (∀ mid rest, acts = mid ++ rest → .issue ∉ mid → mid = []) ∧
    ∀ pre mid rest, acts = pre ++ .issue :: (mid ++ rest) → .issue ∉ mid → Session mid

variable [DecidableEq α]

def step : Phase α → Act α → Option (Phase α)
  | _, .issue => some .issued
  | .issued, .begin a => some (.active a)
  | .active a, .go b => if a = b then some (.active a) else none
  | .active a, .stop b => if a = b then some .ended else none
  | _, _ => none

def run (phase : Phase α) (acts : List (Act α)) : Option (Phase α) := acts.foldlM step phase

theorem run_append (phase : Phase α) (xs ys : List (Act α)) :
    run phase (xs ++ ys) = (run phase xs).bind fun p => run p ys := by
  simp only [run, List.foldlM_append]
  rfl

theorem run_snoc {phase p : Phase α} {acts : List (Act α)} (h : run phase acts = some p)
    (x : Act α) : run phase (acts ++ [x]) = step p x := by
  rw [run_append, h]
  simp [run]

theorem run_cons (phase : Phase α) (x : Act α) (acts : List (Act α)) :
    run phase (x :: acts) = (step phase x).bind fun p => run p acts := rfl

theorem ended_run {acts : List (Act α)} (h : run .ended acts ≠ none) (hno : .issue ∉ acts) :
    acts = [] := by
  cases acts with
  | nil => rfl
  | cons x acts =>
    cases x with
    | issue => exact absurd (List.mem_cons_self ..) hno
    | _ => exact absurd rfl h

theorem active_run {a : α} {acts : List (Act α)} (h : run (.active a) acts ≠ none)
    (hno : .issue ∉ acts) : ∃ mid, Goes a mid ∧ (acts = mid ∨ acts = mid ++ [.stop a]) := by
  induction acts with
  | nil => exact ⟨[], by simp [Goes], Or.inl rfl⟩
  | cons x acts ih =>
    have hrest : .issue ∉ acts := fun hx => hno (List.mem_cons_of_mem _ hx)
    rw [run_cons] at h
    cases x with
    | issue => exact absurd (List.mem_cons_self ..) hno
    | begin b => exact absurd rfl h
    | go b =>
      by_cases hb : a = b
      · subst hb
        simp only [step, if_true, Option.bind_some] at h
        obtain ⟨mid, hmid, hacts⟩ := ih h hrest
        refine ⟨.go a :: mid, ?_, hacts.imp (congrArg _) (congrArg _)⟩
        intro y hy
        rcases List.mem_cons.mp hy with rfl | hy
        · rfl
        · exact hmid y hy
      · simp [step, hb] at h
    | stop b =>
      by_cases hb : a = b
      · subst hb
        simp only [step, if_true, Option.bind_some] at h
        have hnil := ended_run h hrest
        subst hnil
        exact ⟨[], by simp [Goes], Or.inr rfl⟩
      · simp [step, hb] at h

theorem issued_run {acts : List (Act α)} (h : run .issued acts ≠ none) (hno : .issue ∉ acts) :
    Session acts := by
  cases acts with
  | nil => exact Or.inl rfl
  | cons x acts =>
    cases x with
    | issue => exact absurd (List.mem_cons_self ..) hno
    | begin a =>
      rw [run_cons] at h
      obtain ⟨mid, hmid, hacts⟩ := active_run (a := a) h fun hx => hno (List.mem_cons_of_mem _ hx)
      exact Or.inr ⟨a, mid, hmid, hacts.imp (congrArg _) (congrArg _)⟩
    | _ => exact absurd rfl h

theorem run_init {phase : Phase α} {xs ys : List (Act α)} (h : run phase (xs ++ ys) ≠ none) :
    run phase xs ≠ none := by
  rintro hxs
  rw [run_append, hxs] at h
  exact h rfl

theorem lives_of_run {acts : List (Act α)} (h : run .ended acts ≠ none) : Lives acts := by
  constructor
  · rintro mid rest rfl hno
    exact ended_run (run_init h) hno
  · rintro pre mid rest rfl hno
    rw [run_append] at h
    cases hpre : run .ended pre with
    | none => exact absurd (by rw [hpre]; rfl) h
    | some p =>
      rw [hpre, Option.bind_some, run_cons] at h
      have hissued : step p .issue = some .issued := by cases p <;> rfl
      rw [hissued, Option.bind_some] at h
      exact issued_run (run_init h) hno

end Xtcp.Lifetime
