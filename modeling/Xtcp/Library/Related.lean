import Xtcp.Library.Reading

-- Two scans, each over bytes of its own.
namespace Xtcp.Reading

open Halfword

variable {α β γ : Type} {mem mem' : Bytes}

def Related (mem mem' : Bytes) (R : α → β → Prop) (m : Scan α) (m' : Scan β) : Prop :=
  R (m.value mem) (m'.value mem')

def Same (mem mem' : Bytes) (m m' : Scan α) : Prop := Related mem mem' Eq m m'

theorem related_pure {R : α → β → Prop} {a : α} {b : β} (h : R a b) :
    Related mem mem' R (pure a) (pure b) := h

theorem same_pure (a : α) : Same mem mem' (pure a) (pure a) := rfl

theorem related_bind {R : β → γ → Prop} {m m' : Scan α} {f : α → Scan β} {f' : α → Scan γ}
    (hm : Same mem mem' m m')
    (hf : Related mem mem' R (f (m.value mem)) (f' (m.value mem))) :
    Related mem mem' R (m >>= f) (m' >>= f') := by
  rw [Related, value_bind, value_bind, ← hm]
  exact hf

theorem same_bind {m m' : Scan α} {f f' : α → Scan β} (hm : Same mem mem' m m')
    (hf : ∀ a, Same mem mem' (f a) (f' a)) : Same mem mem' (m >>= f) (m' >>= f') :=
  related_bind hm (hf _)

theorem related_ite {R : α → β → Prop} {p : Prop} [Decidable p] {m₁ m₂ : Scan α}
    {m₁' m₂' : Scan β} (h₁ : p → Related mem mem' R m₁ m₁')
    (h₂ : ¬p → Related mem mem' R m₂ m₂') :
    Related mem mem' R (if p then m₁ else m₂) (if p then m₁' else m₂') := by
  by_cases h : p
  · rw [if_pos h, if_pos h]
    exact h₁ h
  · rw [if_neg h, if_neg h]
    exact h₂ h

theorem same_ite {p : Prop} [Decidable p] {m₁ m₂ m₁' m₂' : Scan α} (h₁ : Same mem mem' m₁ m₁')
    (h₂ : Same mem mem' m₂ m₂') :
    Same mem mem' (if p then m₁ else m₂) (if p then m₁' else m₂') :=
  related_ite (fun _ => h₁) (fun _ => h₂)

theorem same_each {f f' : Nat → Scan α} (h : ∀ i, Same mem mem' (f i) (f' i)) (n : Nat) :
    Same mem mem' (each f n) (each f' n) := by
  induction n with
  | zero => rfl
  | succ n ih => exact same_bind ih fun xs => same_bind (h n) fun x => same_pure _

-- The bytes from place k on are d places further on.
def Moved (k d : Nat) (mem mem' : Bytes) : Prop := ∀ i, k ≤ i → mem' (i + d) = mem i

variable {k d : Nat}

theorem Moved.byte (h : Moved k d mem mem') {i j : Nat} (hi : k ≤ i) (hj : j = i + d) :
    Same mem mem' (byte i) (byte j) := by
  rw [hj]
  exact (h i hi).symm

theorem Moved.load (h : Moved k d mem mem') {a b : Nat} (ha : k ≤ a) (hb : b = a + d) :
    Halfword.load mem' b = Halfword.load mem a := by
  rw [hb, Halfword.load, Halfword.load, Nat.add_right_comm a d 1, h a ha, h (a + 1) (by omega)]

theorem Moved.short (h : Moved k d mem mem') {i j : Nat} (hi : k ≤ 2 * i)
    (hj : 2 * j = 2 * i + d) : Same mem mem' (short i) (short j) := by
  show Halfword.load mem (2 * i) = Halfword.load mem' (2 * j)
  exact (h.load hi hj).symm

theorem Moved.word (h : Moved k d mem mem') {a b : Nat} (ha : k ≤ a) (hb : b = a + d) :
    Halfword.word mem' b = Halfword.word mem a := by
  rw [Halfword.word, Halfword.word, hb, Nat.add_right_comm a d 1, Nat.add_right_comm a d 2,
    Nat.add_right_comm a d 3, h a ha, h (a + 1) (by omega), h (a + 2) (by omega),
    h (a + 3) (by omega)]

theorem Moved.int (h : Moved k d mem mem') {i j : Nat} (hi : k ≤ i) (hj : j = i + d) :
    Same mem mem' (int i) (int j) :=
  (h.word hi hj).symm

end Xtcp.Reading
