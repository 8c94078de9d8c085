import Mathlib.Data.List.Basic
import Mathlib.Data.List.Range

namespace Xtcp.Segment

variable {α : Type} {n : Nat}

def slice (f : Nat → α) (start len : Nat) : List α := (List.range len).map fun j => f (start + j)

@[simp] theorem length_slice (f : Nat → α) (start len : Nat) :
    (slice f start len).length = len := by
  simp [slice]

theorem getD_slice (f : Nat → α) (start : Nat) {len j : Nat} (h : j < len) (a : α) :
    (slice f start len).getD j a = f (start + j) := by
  simp [slice, h]

theorem slice_take (f : Nat → α) (start len k : Nat) :
    (slice f start len).take k = slice f start (min k len) := by
  simp [slice, ← List.map_take, List.take_range]

theorem slice_drop (f : Nat → α) (start len k : Nat) :
    (slice f start len).drop k = slice f (start + k) (len - k) := by
  refine List.ext_getElem (by simp) fun j h₁ h₂ => ?_
  simp [slice, Nat.add_assoc]

theorem slice_congr {f g : Nat → α} {start start' len : Nat}
    (h : ∀ j, j < len → f (start + j) = g (start' + j)) :
    slice f start len = slice g start' len := by
  refine List.map_congr_left fun j hj => h j (List.mem_range.mp hj)

-- The data of a segment at its place in a stream that is numbered from start.
structure Placed (stream : Nat → α) (start seqno : BitVec n) (data : List α) (k : Nat) : Prop where
  seqno : seqno = start + BitVec.ofNat n k
  data : data = slice stream k data.length

variable {stream : Nat → α} {start seqno : BitVec n} {data : List α} {k : Nat}

theorem placed_slice (hseqno : seqno = start + BitVec.ofNat n k) (len : Nat) :
    Placed stream start seqno (slice stream k len) k :=
  ⟨hseqno, by simp⟩

theorem Placed.take (h : Placed stream start seqno data k) (len : Nat) :
    Placed stream start seqno (data.take len) k := by
  refine ⟨h.seqno, ?_⟩
  rw [h.data, slice_take]
  simp

theorem Placed.drop (h : Placed stream start seqno data k) (len : Nat) :
    Placed stream start (seqno + BitVec.ofNat n len) (data.drop len) (k + len) := by
  refine ⟨?_, ?_⟩
  · rw [h.seqno, BitVec.ofNat_add, BitVec.add_assoc]
  · rw [h.data, slice_drop]
    simp

end Xtcp.Segment
