import Mathlib.Data.List.GetD
import Xtcp.Library.Segment

namespace Xtcp.Memory
open Segment

variable {α : Type}

def write (mem : Nat → α) (start : Nat) (data : List α) : Nat → α := fun a =>
  if start ≤ a then data.getD (a - start) (mem a) else mem a

def move (mem : Nat → α) (dest src len : Nat) : Nat → α := write mem dest (slice mem src len)

theorem write_before {mem : Nat → α} {start a : Nat} (data : List α) (h : a < start) :
    write mem start data a = mem a := if_neg (by omega)

theorem write_at (mem : Nat → α) (start : Nat) (data : List α) {j : Nat} (h : j < data.length) :
    write mem start data (start + j) = data[j] := by
  unfold write
  rw [if_pos (by omega), Nat.add_sub_cancel_left, List.getD_eq_getElem _ _ h]

theorem write_after {mem : Nat → α} {start a : Nat} (data : List α) (h : start + data.length ≤ a) :
    write mem start data a = mem a := by
  rw [write, if_pos (by omega), List.getD_eq_default _ _ (by omega)]

theorem slice_append (mem : Nat → α) (start m n : Nat) :
    slice mem start (m + n) = slice mem start m ++ slice mem (start + m) n := by
  have htake := slice_take mem start (m + n) m
  have hdrop := slice_drop mem start (m + n) m
  rw [Nat.min_eq_left (by omega)] at htake
  rw [Nat.add_sub_cancel_left] at hdrop
  rw [← htake, ← hdrop, List.take_append_drop]

theorem slice_cons (mem : Nat → α) (start n : Nat) :
    slice mem start (n + 1) = mem start :: slice mem (start + 1) n := by
  rw [Nat.add_comm n 1, slice_append]
  rfl

theorem slice_write (mem : Nat → α) (start : Nat) (data : List α) :
    slice (write mem start data) start data.length = data := by
  refine List.ext_getElem (length_slice _ _ _) fun j h _ => ?_
  rw [length_slice] at h
  simp [slice, write_at mem start data h]

theorem slice_write_before (mem : Nat → α) {start a n : Nat} (data : List α) (h : a + n ≤ start) :
    slice (write mem start data) a n = slice mem a n :=
  slice_congr fun j hj => write_before data (by omega)

theorem slice_move (mem : Nat → α) (dest src len : Nat) :
    slice (move mem dest src len) dest len = slice mem src len := by
  have h := slice_write mem dest (slice mem src len)
  rwa [length_slice] at h

theorem slice_write_append (mem : Nat → α) {a b : Nat} (h : a ≤ b) (data : List α) :
    slice (write mem b data) a (b - a + data.length) = slice mem a (b - a) ++ data := by
  rw [slice_append, slice_write_before mem data (by omega), Nat.add_sub_cancel' h, slice_write]

end Xtcp.Memory
