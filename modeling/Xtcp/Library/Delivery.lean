import Mathlib.Algebra.Ring.Nat
import Mathlib.Data.Set.Insert

namespace Xtcp.Delivery

-- One way of a connection. The sender has one chunk of its stream on the way and waits for the
-- answer; what was sent may come late, more than once, in pieces or never.
structure Way where
  acked : Nat
  len : Nat
  got : Nat
  chunks : Set (Nat × Nat)
  answers : Set Nat

inductive Step : Way → Way → Prop where
  | hand (w : Way) (n : Nat) : w.len = 0 → Step w { w with len := n }
  | send (w : Way) : Step w { w with chunks := insert (w.acked, w.len) w.chunks }
  | take (w : Way) (c : Nat × Nat) (n : Nat) : c ∈ w.chunks → c.1 ≤ w.got →
      w.got + n ≤ c.1 + c.2 → Step w { w with got := w.got + n }
  | answer (w : Way) : Step w { w with answers := insert w.got w.answers }
  | acked (w : Way) : w.acked + w.len ∈ w.answers →
      Step w { w with acked := w.acked + w.len, len := 0 }

-- Nothing is taken that was not handed over, and nothing is answered that was not taken.
structure Safe (w : Way) : Prop where
  lower : w.acked ≤ w.got
  upper : w.got ≤ w.acked + w.len
  chunks : ∀ c ∈ w.chunks, c.1 + c.2 ≤ w.acked + w.len
  answers : ∀ r ∈ w.answers, r ≤ w.got

variable {w w' : Way}

theorem Safe.step (h : Safe w) (hs : Step w w') : Safe w' := by
  cases hs with
  | hand n hlen =>
    refine ⟨h.lower, ?_, fun c hc => ?_, h.answers⟩
    · have hupper := h.upper
      change w.got ≤ w.acked + n
      omega
    · have hchunk := h.chunks c hc
      change c.1 + c.2 ≤ w.acked + n
      omega
  | send =>
    refine ⟨h.lower, h.upper, fun c hc => ?_, h.answers⟩
    rcases Set.mem_insert_iff.mp hc with rfl | hc
    · exact le_rfl
    · exact h.chunks c hc
  | take c n hc _ hend =>
    refine ⟨h.lower.trans (Nat.le_add_right _ _), hend.trans (h.chunks c hc), h.chunks, ?_⟩
    exact fun r hr => (h.answers r hr).trans (Nat.le_add_right _ _)
  | answer =>
    refine ⟨h.lower, h.upper, h.chunks, fun r hr => ?_⟩
    rcases Set.mem_insert_iff.mp hr with rfl | hr
    · exact le_rfl
    · exact h.answers r hr
  | acked hanswer =>
    exact ⟨h.answers _ hanswer, h.upper, h.chunks, h.answers⟩

-- Numbers that do not come round tell the places apart.
theorem number_inj {m n k j : Nat} {base : BitVec m} (hn : n < 2 ^ m) (hk : k ≤ n) (hj : j ≤ n)
    (heq : base + BitVec.ofNat m k = base + BitVec.ofNat m j) : k = j := by
  have hnat := congrArg BitVec.toNat ((BitVec.add_right_inj base).mp heq)
  rwa [BitVec.toNat_ofNat, BitVec.toNat_ofNat, Nat.mod_eq_of_lt (hk.trans_lt hn),
    Nat.mod_eq_of_lt (hj.trans_lt hn)] at hnat

end Xtcp.Delivery
