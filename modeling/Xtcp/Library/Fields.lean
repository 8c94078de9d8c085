import Mathlib.Data.List.Forall2
import Mathlib.Data.List.GetD
import Xtcp.Library.View

-- Fields of a tag, a length and a value, one behind the other up to a closing tag.
namespace Xtcp.Fields

open View

structure Field where
  tag : UInt8
  value : List UInt8
  deriving DecidableEq, Repr

def Field.bytes (o : Field) : List UInt8 := o.tag :: UInt8.ofNat o.value.length :: o.value

def encode (last : UInt8) (os : List Field) : List UInt8 := os.flatMap Field.bytes ++ [last]

structure Proper (last : UInt8) (o : Field) : Prop where
  tag : o.tag ≠ last
  length : o.value.length < 256

-- The places that a walk from p to stop meets: a field has at least two bytes.
def places (mem : Nat → UInt8) (last : UInt8) (stop : Nat) : Nat → Nat → List Nat
  | 0, _ => []
  | fuel + 1, p =>
    if p < stop ∧ mem p ≠ last then
      p :: places mem last stop fuel (p + ((mem (p + 1)).toNat + 2))
    else []

structure At (mem : Nat → UInt8) (p : Nat) (o : Field) : Prop where
  tag : mem p = o.tag
  value : ∀ j b, o.value[j]? = some b → mem (p + 2 + j) = b

variable {mem : Nat → UInt8} {last : UInt8} {stop fuel p : Nat} {o : Field} {os : List Field}

theorem encode_cons (last : UInt8) (o : Field) (os : List Field) :
    encode last (o :: os) = o.bytes ++ encode last os := by
  rw [encode, encode, List.flatMap_cons, List.append_assoc]

theorem length_bytes (o : Field) : o.bytes.length = o.value.length + 2 := rfl

theorem shows_some {xs : List UInt8} (h : Shows (fun q => some (mem q)) p xs) {j : Nat} {b : UInt8}
    (hj : xs[j]? = some b) : mem (p + j) = b := Option.some.inj (h.get hj)

theorem at_of_shows (h : Shows (fun q => some (mem q)) p o.bytes) : At mem p o where
  tag := shows_some h (j := 0) rfl
  value := by
    intro j b hj
    rw [Nat.add_assoc, Nat.add_comm 2 j]
    exact shows_some h hj

theorem length_of_shows (h : Shows (fun q => some (mem q)) p o.bytes)
    (hlen : o.value.length < 256) : (mem (p + 1)).toNat = o.value.length := by
  rw [shows_some h (j := 1) rfl, UInt8.toNat_ofNat']
  exact Nat.mod_eq_of_lt hlen

theorem At.getD (h : At mem p o) {j : Nat} (hj : j < o.value.length) :
    mem (p + 2 + j) = o.value.getD j 0 :=
  h.value j _ (by rw [List.getD_eq_getElem _ _ hj, List.getElem?_eq_getElem hj])

-- The walk meets the fields that were written, and no byte that is not of theirs.
theorem places_encode (hproper : ∀ o ∈ os, Proper last o)
    (hm : Shows (fun q => some (mem q)) p (encode last os))
    (hstop : p + (encode last os).length ≤ stop) (hfuel : os.length < fuel) :
    List.Forall₂ (At mem) (places mem last stop fuel p) os := by
  induction os generalizing p fuel with
  | nil =>
    obtain ⟨fuel, rfl⟩ := Nat.exists_eq_succ_of_ne_zero (Nat.ne_of_gt hfuel)
    have hlast : mem p = last := Option.some.inj hm.1
    rw [places, if_neg fun h => h.2 hlast]
    exact .nil
  | cons o os ih =>
    obtain ⟨fuel, rfl⟩ := Nat.exists_eq_succ_of_ne_zero (Nat.ne_of_gt (Nat.zero_lt_of_lt hfuel))
    obtain ⟨ho, hos⟩ := List.forall_mem_cons.mp hproper
    rw [encode_cons, shows_append] at hm
    rw [encode_cons, List.length_append, length_bytes] at hstop
    have hat := at_of_shows hm.1
    have hlen := length_of_shows hm.1 ho.length
    rw [places, if_pos ⟨by omega, hat.tag ▸ ho.tag⟩, hlen]
    exact .cons hat (ih hos hm.2 (by omega) (Nat.lt_of_succ_lt_succ hfuel))

theorem length_le_encode (os : List Field) : os.length < (encode last os).length := by
  induction os with
  | nil => exact Nat.one_pos
  | cons o os ih =>
    rw [encode_cons, List.length_append, length_bytes, List.length_cons]
    omega

-- The value of the last field that has the tag.
def latest (t : UInt8) (os : List Field) : Option (List UInt8) :=
  (os.findRev? fun o => o.tag = t).map Field.value

theorem foldl_latest {σ β : Type} {f : σ → Field → σ} {view : σ → β} {t : UInt8}
    {read : List UInt8 → β} (hf : ∀ s o, view (f s o) = if o.tag = t then read o.value else view s)
    (os : List Field) (s : σ) : view (os.foldl f s) = ((latest t os).map read).getD (view s) := by
  induction os generalizing s with
  | nil => rfl
  | cons o os ih =>
    rw [List.foldl_cons, ih, hf, latest, latest, List.findRev?]
    cases List.findRev? (fun o => decide (o.tag = t)) os with
    | some _ => rfl
    | none =>
      by_cases htag : o.tag = t
      · simp [htag]
      · simp [htag]

end Xtcp.Fields
