import Xtcp.Library.View
import Xtcp.Uip.Output

namespace Xtcp.Uip
open Halfword View

section Parse

-- What one turn of the loop over the options comes to. c has eight bits.
inductive OptionTurn where
  | done (mss : Option (BitVec 16))
  | next (c : BitVec 8)
  deriving DecidableEq

def optionTurn (buf : Bytes) (c : BitVec 8) : OptionTurn :=
  let opt := buf (54 + c.toNat)
  if opt = 0 then .done none
  else if opt = 1 then .next (c + 1)
  else if opt = 2 ∧ buf (55 + c.toNat) = 4 then
    .done (some (buf (56 + c.toNat) ++ buf (57 + c.toNat)))
  else if buf (55 + c.toNat) = 0 then .done none
  else .next (c + buf (55 + c.toNat))

-- none: the fuel is used up.
def optionLoop (buf : Bytes) (size : Nat) : Nat → BitVec 8 → Option (Option (BitVec 16))
  | 0, _ => none
  | fuel + 1, c =>
    if c.toNat < size then
      match optionTurn buf c with
      | .done mss => some mss
      | .next c => optionLoop buf size fuel c
    else some none

def optionSize (buf : Bytes) : Nat := ((buf 46 >>> 4).toNat - 5) * 4

def HasOptions (buf : Bytes) : Prop := 0x50 < (buf 46 &&& 0xf0#8).toNat

instance (buf : Bytes) : Decidable (HasOptions buf) := inferInstanceAs (Decidable (_ < _))

-- The two loops, for a SYN and for a SYN and ACK, are the same.
def mssOption (fuel : Nat) (buf : Bytes) : Option (Option (BitVec 16)) :=
  if HasOptions buf then optionLoop buf (optionSize buf) fuel 0 else some none

-- The options of a segment that opens a connection.
def synOptions (mss : BitVec 16) (buf : Bytes) : Bytes :=
  let buf := setByte 55 4 (setByte 54 2 buf)
  let buf := setByte 57 (lowByte mss) (setByte 56 (highByte mss) buf)
  setByte 46 0x60 buf

end Parse

section Format

inductive TcpOption where
  | noop
  | mss (v : BitVec 16)
  | other (kind : BitVec 8) (value : List (BitVec 8))

def TcpOption.bytes : TcpOption → List (BitVec 8)
  | .noop => [1]
  | .mss v => [2, 4, highByte v, lowByte v]
  | .other kind value => kind :: BitVec.ofNat 8 (value.length + 2) :: value

def TcpOption.Proper : TcpOption → Prop
  | .noop => True
  | .mss _ => True
  | .other kind value => kind ≠ 0 ∧ kind ≠ 1 ∧ (kind = 2 → value.length ≠ 2)

def optionBytes (os : List TcpOption) : List (BitVec 8) := os.flatMap TcpOption.bytes

def firstMss : List TcpOption → Option (BitVec 16)
  | [] => none
  | .mss v :: _ => some v
  | .noop :: os => firstMss os
  | .other _ _ :: os => firstMss os

variable {buf : Bytes} {size fuel p : Nat} {os : List TcpOption} {pad : List (BitVec 8)}

theorem shows_byte {xs : List (BitVec 8)} (h : Shows (fun q => some (buf q)) p xs) {j : Nat}
    {b : BitVec 8} (hj : xs[j]? = some b) : buf (p + j) = b :=
  Option.some.inj (h.get hj)

theorem toNat_ofNat_small (h : p < 256) : (BitVec.ofNat 8 p).toNat = p := by
  rw [BitVec.toNat_ofNat]
  exact Nat.mod_eq_of_lt h

theorem highByte_lowByte (v : BitVec 16) : highByte v ++ lowByte v = v := by
  apply BitVec.eq_of_toNat_eq
  have hv := v.isLt
  rw [toNat_append, highByte, lowByte, BitVec.toNat_setWidth, BitVec.toNat_setWidth,
    BitVec.toNat_ushiftRight, Nat.shiftRight_eq_div_pow]
  omega

section Turns

theorem optionTurn_noop (hp : p < 256) (hkind : buf (54 + p) = 1) :
    optionTurn buf (BitVec.ofNat 8 p) = .next (BitVec.ofNat 8 (p + 1)) := by
  rw [optionTurn, toNat_ofNat_small hp, hkind, BitVec.ofNat_add]
  rfl

theorem optionTurn_mss (hp : p < 256) (hkind : buf (54 + p) = 2) (hlen : buf (55 + p) = 4) :
    optionTurn buf (BitVec.ofNat 8 p) = .done (some (buf (56 + p) ++ buf (57 + p))) := by
  rw [optionTurn, toNat_ofNat_small hp, hkind, hlen]
  rfl

theorem optionTurn_other (hp : p < 256) (hkind : buf (54 + p) ≠ 0) (hkind' : buf (54 + p) ≠ 1)
    (hmss : ¬ (buf (54 + p) = 2 ∧ buf (55 + p) = 4)) (hlen : buf (55 + p) ≠ 0) :
    optionTurn buf (BitVec.ofNat 8 p) =
      .next (BitVec.ofNat 8 (p + (buf (55 + p)).toNat)) := by
  rw [optionTurn, toNat_ofNat_small hp, BitVec.ofNat_add, BitVec.ofNat_toNat, BitVec.setWidth_eq,
    if_neg hkind, if_neg hkind', if_neg hmss, if_neg hlen]

theorem optionLoop_next {q : Nat} (hp : p < size) (hsize : size < 256)
    (hturn : optionTurn buf (BitVec.ofNat 8 p) = .next (BitVec.ofNat 8 q)) :
    optionLoop buf size (fuel + 1) (BitVec.ofNat 8 p) =
      optionLoop buf size fuel (BitVec.ofNat 8 q) := by
  rw [optionLoop, toNat_ofNat_small (hp.trans hsize), if_pos hp, hturn]

theorem optionLoop_done {mss : Option (BitVec 16)} (hp : p < size) (hsize : size < 256)
    (hturn : optionTurn buf (BitVec.ofNat 8 p) = .done mss) :
    optionLoop buf size (fuel + 1) (BitVec.ofNat 8 p) = some mss := by
  rw [optionLoop, toNat_ofNat_small (hp.trans hsize), if_pos hp, hturn]

end Turns

-- The loop finds what was written, whatever comes after a closing option.
theorem optionLoop_bytes (hproper : ∀ o ∈ os, o.Proper) (hpad : pad = [] ∨ pad[0]? = some 0)
    (hshow : Shows (fun q => some (buf q)) (54 + p) (optionBytes os ++ pad))
    (hend : p + (optionBytes os ++ pad).length = size) (hsize : size < 256)
    (hfuel : os.length < fuel) :
    optionLoop buf size fuel (BitVec.ofNat 8 p) = some (firstMss os) := by
  induction os generalizing p fuel with
  | nil =>
    obtain ⟨fuel, rfl⟩ := Nat.exists_eq_succ_of_ne_zero (Nat.ne_of_gt hfuel)
    rcases hpad with rfl | hclose
    · have hp : p = size := hend
      rw [optionLoop, toNat_ofNat_small (hp ▸ hsize), if_neg (by omega)]
      rfl
    · have hbyte := shows_byte hshow (j := 0) hclose
      have hlen := List.length_pos_of_mem (List.mem_of_getElem? hclose)
      have hp : p < size := by
        rw [optionBytes, List.flatMap_nil, List.nil_append] at hend
        omega
      refine optionLoop_done hp hsize ?_
      rw [optionTurn, toNat_ofNat_small (hp.trans hsize)]
      exact if_pos hbyte
  | cons o os ih =>
    obtain ⟨fuel, rfl⟩ := Nat.exists_eq_succ_of_ne_zero (Nat.ne_of_gt (Nat.zero_lt_of_lt hfuel))
    obtain ⟨ho, hos⟩ := List.forall_mem_cons.mp hproper
    have hsplit : optionBytes (o :: os) ++ pad = o.bytes ++ (optionBytes os ++ pad) := by
      rw [optionBytes, List.flatMap_cons, List.append_assoc]
      rfl
    rw [hsplit, shows_append] at hshow
    rw [hsplit, List.length_append] at hend
    have hrest (q : Nat) (hq : q = p + o.bytes.length) :
        optionLoop buf size fuel (BitVec.ofNat 8 q) = some (firstMss os) := by
      refine ih hos ?_ (by omega) (Nat.lt_of_succ_lt_succ hfuel)
      rw [hq, ← Nat.add_assoc]
      exact hshow.2
    have hpos : 0 < o.bytes.length := by
      cases o <;> exact Nat.succ_pos _
    have hp : p < size := by omega
    have hp' : p < 256 := hp.trans hsize
    cases o with
    | noop =>
      have hkind : buf (54 + p) = 1 := shows_byte hshow.1 (j := 0) rfl
      exact (optionLoop_next hp hsize (optionTurn_noop hp' hkind)).trans (hrest (p + 1) rfl)
    | mss v =>
      have hbyte (j : Nat) (b : BitVec 8) (hj : (TcpOption.mss v).bytes[j]? = some b) :
          buf (54 + j + p) = b := by
        rw [Nat.add_right_comm]
        exact shows_byte hshow.1 hj
      refine optionLoop_done hp hsize ?_
      rw [optionTurn_mss hp' (hbyte 0 2 rfl) (hbyte 1 4 rfl), hbyte 2 _ rfl, hbyte 3 _ rfl,
        highByte_lowByte]
      rfl
    | other kind value =>
      obtain ⟨hzero, hone, htwo⟩ := ho
      have hlength : (TcpOption.other kind value).bytes.length = value.length + 2 := rfl
      have hkind : buf (54 + p) = kind := shows_byte hshow.1 (j := 0) rfl
      have hlen : (buf (55 + p)).toNat = value.length + 2 := by
        have hbyte : buf (54 + p + 1) = BitVec.ofNat 8 (value.length + 2) :=
          shows_byte hshow.1 (j := 1) rfl
        rw [Nat.add_right_comm 54 p 1] at hbyte
        rw [hbyte, toNat_ofNat_small (by omega)]
      have hturn := optionTurn_other hp' (hkind ▸ hzero) (hkind ▸ hone)
        (fun h => htwo (hkind ▸ h.1) (by
          have h4 := congrArg BitVec.toNat h.2
          rw [hlen] at h4
          exact Nat.add_right_cancel h4))
        (fun h => by
          have h0 := congrArg BitVec.toNat h
          rw [hlen] at h0
          exact absurd h0 (Nat.succ_ne_zero _))
      rw [hlen] at hturn
      exact (optionLoop_next hp hsize hturn).trans (hrest _ rfl)

theorem optionTurn_cases (buf : Bytes) (hp : p < 256) :
    (∃ mss, optionTurn buf (BitVec.ofNat 8 p) = .done mss) ∨
      ∃ d, 0 < d ∧ (d = 1 ∨ d = (buf (55 + p)).toNat) ∧
        optionTurn buf (BitVec.ofNat 8 p) = .next (BitVec.ofNat 8 (p + d)) := by
  by_cases hone : buf (54 + p) = 1
  · exact .inr ⟨1, Nat.one_pos, .inl rfl, optionTurn_noop hp hone⟩
  · by_cases hdone : buf (54 + p) = 0 ∨ (buf (54 + p) = 2 ∧ buf (55 + p) = 4) ∨ buf (55 + p) = 0
    · left
      rw [optionTurn, toNat_ofNat_small hp, if_neg hone]
      split_ifs with hzero hmss hlen
      · exact ⟨_, rfl⟩
      · exact ⟨_, rfl⟩
      · exact ⟨_, rfl⟩
      · exact absurd hdone (not_or.mpr ⟨hzero, not_or.mpr ⟨hmss, hlen⟩⟩)
    · obtain ⟨hzero, hrest⟩ := not_or.mp hdone
      obtain ⟨hmss, hlen⟩ := not_or.mp hrest
      have hpos : 0 < (buf (55 + p)).toNat :=
        Nat.pos_of_ne_zero fun h => hlen (BitVec.eq_of_toNat_eq h)
      exact .inr ⟨_, hpos, .inr rfl, optionTurn_other hp hzero hone hmss hlen⟩

-- Without an option that takes c round, the loop comes to an end.
theorem optionLoop_ends (hsize : size < 256)
    (hround : ∀ q < size, q + (buf (55 + q)).toNat < 256) (hfuel : size ≤ p + fuel)
    (hp : p < 256) : ∃ mss, optionLoop buf size (fuel + 1) (BitVec.ofNat 8 p) = some mss := by
  have hpast (fuel : Nat) (h : size ≤ p) :
      optionLoop buf size (fuel + 1) (BitVec.ofNat 8 p) = some none := by
    rw [optionLoop, toNat_ofNat_small hp, if_neg (Nat.not_lt.mpr h)]
  induction fuel generalizing p with
  | zero => exact ⟨none, hpast 0 hfuel⟩
  | succ fuel ih =>
    rcases Nat.lt_or_ge p size with hlt | hge
    · rcases optionTurn_cases buf hp with ⟨mss, hdone⟩ | ⟨d, hpos, hd, hnext⟩
      · exact ⟨mss, optionLoop_done hlt hsize hdone⟩
      · have hq : p + d < 256 := by
          have hstep := hround p hlt
          omega
        rw [optionLoop_next hlt hsize hnext]
        refine ih (by omega) hq fun fuel h => ?_
        rw [optionLoop, toNat_ofNat_small hq, if_neg (Nat.not_lt.mpr h)]
    · exact ⟨none, hpast _ hge⟩

-- A no-operation and an option of 255 bytes: c is 0 again.
theorem optionLoop_hangs (hsize : 1 < size) (hsize' : size < 256) (hnoop : buf 54 = 1)
    (hkind : buf 55 ≠ 0 ∧ buf 55 ≠ 1) (hlen : buf 56 = 255) (fuel : Nat) :
    optionLoop buf size fuel (BitVec.ofNat 8 0) = none ∧
      optionLoop buf size fuel (BitVec.ofNat 8 1) = none := by
  have hzero : optionTurn buf (BitVec.ofNat 8 0) = .next (BitVec.ofNat 8 1) :=
    optionTurn_noop (by decide) hnoop
  have hone : optionTurn buf (BitVec.ofNat 8 1) = .next (BitVec.ofNat 8 0) := by
    have hturn : optionTurn buf (BitVec.ofNat 8 1) = .next (BitVec.ofNat 8 (1 + (buf 56).toNat)) :=
      optionTurn_other (by decide) hkind.1 hkind.2
        (fun h => absurd (hlen.symm.trans h.2) (by decide))
        (fun h => absurd (hlen.symm.trans h) (by decide))
    rw [hturn, hlen]
    rfl
  induction fuel with
  | zero => exact ⟨rfl, rfl⟩
  | succ fuel ih =>
    constructor
    · rw [optionLoop_next (by omega) hsize' hzero]
      exact ih.2
    · rw [optionLoop_next hsize hsize' hone]
      exact ih.1

theorem length_le_optionBytes (os : List TcpOption) : os.length ≤ (optionBytes os).length := by
  induction os with
  | nil => exact Nat.le_refl 0
  | cons o os ih =>
    have hpos : 0 < o.bytes.length := by
      cases o <;> exact Nat.succ_pos _
    rw [optionBytes, List.flatMap_cons, List.length_append, List.length_cons]
    change os.length + 1 ≤ _ + (optionBytes os).length
    omega

theorem optionSize_le (buf : Bytes) : optionSize buf ≤ 40 := by
  have h := (buf 46).isLt
  rw [optionSize, BitVec.toNat_ushiftRight, Nat.shiftRight_eq_div_pow]
  omega

theorem optionSize_pos (h : HasOptions buf) : 4 ≤ optionSize buf := by
  have hhigh : ∀ x : BitVec 8, (x &&& 0xf0#8).toNat = 16 * (x >>> 4).toNat := by decide
  rw [HasOptions, hhigh] at h
  rw [optionSize]
  omega

theorem mssOption_bytes (hproper : ∀ o ∈ os, o.Proper) (hpad : pad = [] ∨ pad[0]? = some 0)
    (hhas : HasOptions buf) (hshow : Shows (fun q => some (buf q)) 54 (optionBytes os ++ pad))
    (hend : (optionBytes os ++ pad).length = optionSize buf) :
    mssOption 41 buf = some (firstMss os) := by
  have hsize := optionSize_le buf
  have hlen := length_le_optionBytes os
  rw [List.length_append] at hend
  rw [mssOption, if_pos hhas]
  refine optionLoop_bytes (p := 0) hproper hpad hshow ?_ (by omega) (by omega)
  rw [List.length_append]
  omega

theorem mssOption_syn {mss : BitVec 16} (hoffset : buf 46 = 0x60)
    (hshow : Shows (fun q => some (buf q)) 54 (TcpOption.mss mss).bytes) :
    mssOption 41 buf = some (some mss) := by
  have hshow' : Shows (fun q => some (buf q)) 54 (optionBytes [.mss mss] ++ []) := hshow
  change mssOption 41 buf = some (firstMss [.mss mss])
  refine mssOption_bytes (List.forall_mem_singleton.mpr trivial) (.inl rfl) ?_ hshow' ?_
  · rw [HasOptions, hoffset]
    decide
  · rw [optionSize, hoffset]
    rfl

end Format

-- What one host sends the other finds, and so what anyone writes; but an option may take c round
-- to where it was.
theorem tcp_options (buf : Bytes) :
    (∀ os pad, (∀ o ∈ os, o.Proper) → pad = [] ∨ pad[0]? = some 0 → HasOptions buf →
      Shows (fun q => some (buf q)) 54 (optionBytes os ++ pad) →
      (optionBytes os ++ pad).length = optionSize buf → mssOption 41 buf = some (firstMss os)) ∧
    (∀ mss, mssOption 41 (synOptions mss buf) = some (some mss)) ∧
    ((∀ q < optionSize buf, q + (buf (55 + q)).toNat < 256) →
      ∃ mss, mssOption 41 buf = some mss) ∧
    (HasOptions buf → buf 54 = 1 → buf 55 ≠ 0 ∧ buf 55 ≠ 1 → buf 56 = 255 →
      ∀ fuel, mssOption fuel buf = none) := by
  refine ⟨fun os pad => mssOption_bytes, fun mss => ?_, fun hround => ?_,
    fun hhas hnoop hkind hlen fuel => ?_⟩
  · exact mssOption_syn rfl ⟨rfl, rfl, rfl, rfl, trivial⟩
  · have hsize := optionSize_le buf
    rw [mssOption]
    split_ifs
    · exact optionLoop_ends (p := 0) (by omega) hround (by omega) (by decide)
    · exact ⟨none, rfl⟩
  · have hsize := optionSize_le buf
    have hpos := optionSize_pos hhas
    rw [mssOption, if_pos hhas]
    exact (optionLoop_hangs (by omega) (by omega) hnoop hkind hlen fuel).1

def roundBuf : Bytes := fun a =>
  if a = 46 then 0x60 else if a = 54 then 1 else if a = 55 then 3 else if a = 56 then 255 else 0

theorem tcp_options_round : mssOption 1000 roundBuf = none :=
  (tcp_options roundBuf).2.2.2 (by decide) rfl (by decide) rfl 1000

end Xtcp.Uip
