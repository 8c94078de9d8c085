import Mathlib.Data.List.Basic

namespace Xtcp.Mailbox

inductive Act (α : Type) where
  | put (a : α)
  | take (a : α)
  deriving DecidableEq, Repr

variable {α : Type} [DecidableEq α]

def step (slot : Option α) : Act α → Option (Option α)
  | .put a => some (some a)
  | .take a => if slot = some a then some none else none

def run (slot : Option α) (acts : List (Act α)) : Option (Option α) := acts.foldlM step slot

def takes : List (Act α) → List α
  | .take a :: acts => a :: takes acts
  | _ => []

def Exact (acts : List (Act α)) (slot : Option α) : Prop :=
  (∀ pre a post, acts = pre ++ .put a :: post →
    (takes post = [] ∨ takes post = [a]) ∧
    ((∀ b, .put b ∉ post) → (takes post = [a] ↔ slot = none))) ∧
  takes acts = []

theorem run_append (slot : Option α) (xs ys : List (Act α)) :
    run slot (xs ++ ys) = (run slot xs).bind fun s => run s ys := by
  simp only [run, List.foldlM_append]
  rfl

theorem run_put (slot : Option α) (a : α) (acts : List (Act α)) :
    run slot (.put a :: acts) = run (some a) acts := rfl

theorem run_take {slot m : Option α} {a : α} {acts : List (Act α)}
    (h : run slot (.take a :: acts) = some m) : slot = some a ∧ run none acts = some m := by
  simp only [run, List.foldlM_cons, step] at h
  split at h
  · exact ⟨by assumption, h⟩
  · cases h

theorem takes_none {m : Option α} {acts : List (Act α)} (h : run none acts = some m) :
    takes acts = [] := by
  cases acts with
  | nil => rfl
  | cons x acts =>
    cases x with
    | put a => rfl
    | take a => cases (run_take h).1

theorem none_of_no_put {m : Option α} {acts : List (Act α)} (h : run none acts = some m)
    (hno : ∀ b, .put b ∉ acts) : m = none := by
  cases acts with
  | nil => exact (Option.some.inj h).symm
  | cons x acts =>
    cases x with
    | put a => exact absurd (List.mem_cons_self ..) (hno a)
    | take a => cases (run_take h).1

theorem takes_some {m : Option α} {a : α} {acts : List (Act α)}
    (h : run (some a) acts = some m) :
    (takes acts = [] ∨ takes acts = [a]) ∧
    ((∀ b, .put b ∉ acts) → (takes acts = [a] ↔ m = none)) := by
  cases acts with
  | nil =>
    have hm : m = some a := (Option.some.inj h).symm
    simp [takes, hm]
  | cons x acts =>
    cases x with
    | put b => exact ⟨Or.inl rfl, fun hno => absurd (List.mem_cons_self ..) (hno b)⟩
    | take b =>
      obtain ⟨hb, hrun⟩ := run_take h
      cases hb
      rw [takes, takes_none hrun]
      refine ⟨Or.inr rfl, ?_⟩
      intro hno
      have hm := none_of_no_put hrun fun b hb => hno b (List.mem_cons_of_mem _ hb)
      simp [hm]

theorem exact_of_run {acts : List (Act α)} {slot : Option α} (h : run none acts = some slot) :
    Exact acts slot := by
  refine ⟨?_, takes_none h⟩
  rintro pre a post rfl
  rw [run_append, Option.bind_eq_some_iff] at h
  obtain ⟨s, _, hs⟩ := h
  exact takes_some (by rwa [run_put] at hs)

-- A mailbox that nobody fills while it is full: every put is taken, and taken once, before the
-- next.
def stepOnce (slot : Option α) : Act α → Option (Option α)
  | .put a => if slot = none then some (some a) else none
  | .take a => if slot = some a then some none else none

def runOnce (slot : Option α) (acts : List (Act α)) : Option (Option α) := acts.foldlM stepOnce slot

def Once (acts : List (Act α)) : Prop :=
  takes acts = [] ∧
    ∀ pre a post, acts = pre ++ .put a :: post → takes post = [a] ∨ post = []

theorem runOnce_append (slot : Option α) (xs ys : List (Act α)) :
    runOnce slot (xs ++ ys) = (runOnce slot xs).bind fun s => runOnce s ys := by
  simp only [runOnce, List.foldlM_append]
  rfl

theorem runOnce_put {slot : Option α} (a : α) {acts : List (Act α)}
    (h : runOnce slot acts = some none) : runOnce slot (acts ++ [.put a]) = some (some a) := by
  rw [runOnce_append, h]
  rfl

theorem runOnce_take {slot : Option α} {a : α} {acts : List (Act α)}
    (h : runOnce slot acts = some (some a)) : runOnce slot (acts ++ [.take a]) = some none := by
  rw [runOnce_append, h]
  simp [runOnce, stepOnce]

theorem takes_once_none {acts : List (Act α)} (h : runOnce none acts ≠ none) :
    takes acts = [] := by
  cases acts with
  | nil => rfl
  | cons x acts =>
    cases x with
    | put a => rfl
    | take a => exact absurd rfl h

theorem takes_once_some {a : α} {acts : List (Act α)} (h : runOnce (some a) acts ≠ none) :
    takes acts = [a] ∨ acts = [] := by
  cases acts with
  | nil => exact Or.inr rfl
  | cons x acts =>
    cases x with
    | put b => exact absurd rfl h
    | take b =>
      have hstep : runOnce (some a) (.take b :: acts) =
          (if some a = some b then some none else none).bind fun s => runOnce s acts := rfl
      rw [hstep] at h
      by_cases hab : a = b
      · subst hab
        have hrest : runOnce none acts ≠ none := by simpa using h
        exact Or.inl (by rw [takes, takes_once_none hrest])
      · simp [hab] at h

theorem once_of_run {acts : List (Act α)} {slot : Option α} (h : runOnce none acts = some slot) :
    Once acts := by
  refine ⟨takes_once_none (by simp [h]), ?_⟩
  rintro pre a post rfl
  rw [runOnce_append, Option.bind_eq_some_iff] at h
  obtain ⟨s, _, hs⟩ := h
  have hstep : runOnce s (.put a :: post) =
      (if s = none then some (some a) else none).bind fun s => runOnce s post := rfl
  rw [hstep] at hs
  by_cases hn : s = none
  · simp only [hn, if_true, Option.bind_some] at hs
    exact takes_once_some (by simp [hs])
  · simp [hn] at hs

theorem full_of_last {acts : List (Act α)} {slot box : Option α} {a : α}
    (h : runOnce slot acts = some box) (hlast : acts.getLast? = some (.put a)) :
    box = some a := by
  obtain ⟨pre, rfl⟩ := List.getLast?_eq_some_iff.mp hlast
  rw [runOnce_append, Option.bind_eq_some_iff] at h
  obtain ⟨s, _, hs⟩ := h
  have hstep : runOnce s [.put a] = if s = none then some (some a) else none := by
    by_cases hn : s = none <;> simp [runOnce, stepOnce, hn]
  rw [hstep] at hs
  by_cases hn : s = none
  · rw [if_pos hn] at hs
    exact (Option.some.inj hs).symm
  · rw [if_neg hn] at hs
    cases hs

end Xtcp.Mailbox
