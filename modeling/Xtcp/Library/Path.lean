import Mathlib.Data.List.Basic

namespace Xtcp.Labelled

variable {S L : Type} {step : S → L → S → Prop} {a b c : S} {l : L} {ms ms' : List (L × S)}

-- A run told move by move: what happened, and the state after it.
inductive Path (step : S → L → S → Prop) : S → List (L × S) → S → Prop where
  | nil {a : S} : Path step a [] a
  | cons {a b c : S} {l : L} {ms : List (L × S)} :
      step a l b → Path step b ms c → Path step a ((l, b) :: ms) c

namespace Path

theorem single (h : step a l b) : Path step a [(l, b)] b := .cons h .nil

theorem append (h : Path step a ms b) (h' : Path step b ms' c) : Path step a (ms ++ ms') c := by
  induction h with
  | nil => exact h'
  | cons hs _ ih => exact .cons hs (ih h')

theorem split (h : Path step a (ms ++ ms') c) : ∃ b, Path step a ms b ∧ Path step b ms' c := by
  induction ms generalizing a with
  | nil => exact ⟨a, .nil, h⟩
  | cons m ms ih =>
    cases h with
    | cons hs h =>
      obtain ⟨b, hpre, hpost⟩ := ih h
      exact ⟨b, .cons hs hpre, hpost⟩

theorem split_cons (h : Path step a (ms ++ (l, b) :: ms') c) :
    ∃ a', Path step a ms a' ∧ step a' l b ∧ Path step b ms' c := by
  obtain ⟨a', hpre, hpost⟩ := h.split
  cases hpost with
  | cons hs hpost => exact ⟨a', hpre, hs, hpost⟩

-- What every move keeps that is not one of those that may end it.
theorem keeps {Q : S → Prop} (ok : L → S → Prop)
    (hstep : ∀ {a b : S} {l : L}, Q a → step a l b → ok l b → Q b) (h : Path step a ms b)
    (ha : Q a) (hok : ∀ m ∈ ms, ok m.1 m.2) : (∀ m ∈ ms, Q m.2) ∧ Q b := by
  induction h with
  | nil => exact ⟨fun m hm => absurd hm List.not_mem_nil, ha⟩
  | cons hs _ ih =>
    have hb := hstep ha hs (hok _ List.mem_cons_self)
    obtain ⟨hms, hc⟩ := ih hb fun m hm => hok m (List.mem_cons_of_mem _ hm)
    refine ⟨fun m hm => ?_, hc⟩
    rcases List.mem_cons.mp hm with rfl | hm
    · exact hb
    · exact hms m hm

theorem invariant {Q : S → Prop} (hstep : ∀ {a b : S} {l : L}, Q a → step a l b → Q b)
    (h : Path step a ms b) (ha : Q a) : Q b :=
  (h.keeps (fun _ _ => True) (fun hq hs _ => hstep hq hs) ha fun _ _ => trivial).2

-- The last move that entered Q, where Q has held ever since.
def Entered (step : S → L → S → Prop) (Q : S → Prop) (a : S) (ms : List (L × S)) (b : S) : Prop :=
  ∃ pre l c post a', ms = pre ++ (l, c) :: post ∧ Path step a pre a' ∧ ¬ Q a' ∧ step a' l c ∧
    Q c ∧ Path step c post b ∧ ∀ m ∈ post, Q m.2

theorem always_or_entered {Q : S → Prop} (h : Path step a ms b) (hb : Q b) :
    (Q a ∧ ∀ m ∈ ms, Q m.2) ∨ Entered step Q a ms b := by
  induction h with
  | nil => exact .inl ⟨hb, fun m hm => absurd hm List.not_mem_nil⟩
  | @cons a b _ l ms hs hpath ih =>
    rcases ih hb with ⟨hq, hall⟩ | ⟨pre, l', c', post, a', rfl, hpre, hentered⟩
    · by_cases ha : Q a
      · refine .inl ⟨ha, fun m hm => ?_⟩
        rcases List.mem_cons.mp hm with rfl | hm
        · exact hq
        · exact hall m hm
      · exact .inr ⟨[], l, b, ms, a, rfl, .nil, ha, hs, hq, hpath, hall⟩
    · exact .inr ⟨(l, b) :: pre, l', c', post, a', rfl, .cons hs hpre, hentered⟩

theorem entered {Q : S → Prop} (h : Path step a ms b) (ha : ¬ Q a) (hb : Q b) :
    Entered step Q a ms b :=
  (h.always_or_entered hb).resolve_left fun hall => ha hall.1

theorem forall_labels {Q : S → Prop} {R : L → Prop}
    (hstep : ∀ {a b : S} {l : L}, step a l b → Q b → R l) (h : Path step a ms b)
    (hall : ∀ m ∈ ms, Q m.2) : ∀ m ∈ ms, R m.1 := by
  induction h with
  | nil => exact fun m hm => absurd hm List.not_mem_nil
  | cons hs _ ih =>
    intro m hm
    rcases List.mem_cons.mp hm with rfl | hm
    · exact hstep hs (hall _ List.mem_cons_self)
    · exact ih (fun m hm => hall m (List.mem_cons_of_mem _ hm)) m hm

end Path

end Xtcp.Labelled
