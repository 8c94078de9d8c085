import Xtcp.Library.Related
import Xtcp.Pip.Frame.Bounds

namespace Xtcp.Pip.Frame

open Halfword Reading

-- 0x8100 and the tag control information, most significant byte first.
def tagByte (tci : BitVec 16) (i : Nat) : BitVec 8 :=
  if i = 0 then 0x81
  else if i = 1 then 0
  else if i = 2 then tci.extractLsb' 8 8
  else tci.extractLsb' 0 8

-- The frame with tags behind its addresses.
def taggedFrame (frame : Bytes) (tcis : List (BitVec 16)) : Bytes := fun i =>
  if i < 12 then frame i
  else if i < 12 + 4 * tcis.length then tagByte (tcis.getD ((i - 12) / 4) 0) ((i - 12) % 4)
  else frame (i - 4 * tcis.length)

inductive Handler where
  | ipv4
  | arp
  deriving DecidableEq

def handler (cfg : Config) (ethType : BitVec 16) : Option Handler :=
  if cfg.ipv4 ∧ ethType = 0x0008 then some .ipv4
  else if cfg.arp ∧ ethType = 0x0608 then some .arp
  else none

-- The handler that pipIncomingEthernet calls, and the offset it passes.
def dispatched (cfg : Config) (nBytes : Nat) (mem : Bytes) : Option (Handler × Nat) :=
  ((etherType (nBytes + 1) 6).value mem).bind fun found =>
    (handler cfg found.1).map fun called => (called, found.2)

section Dispatched

variable {n m : Nat} (cfg : Config) (h : Host n m) (nBytes : Nat) (mem : Bytes)

def calling : Option (Handler × Nat) → Scan (List Call)
  | some (.ipv4, offset) => pipIncomingIPv4 cfg h offset
  | some (.arp, offset) => pipIncomingARP cfg h offset
  | none => pure []

theorem value_pipIncomingEthernet : (pipIncomingEthernet cfg h nBytes).value mem =
    (calling cfg h (dispatched cfg nBytes mem)).value mem := by
  rw [pipIncomingEthernet, value_bind, dispatched]
  cases (etherType (nBytes + 1) 6).value mem with
  | none => rfl
  | some found =>
    obtain ⟨ethType, offset⟩ := found
    dsimp only [Option.bind_some]
    rw [handler]
    split_ifs <;> rfl

end Dispatched

section Tags

variable {cfg : Config} {frame : Bytes} {tcis : List (BitVec 16)}

theorem taggedFrame_address {i : Nat} (h : i < 12) : taggedFrame frame tcis i = frame i := if_pos h

theorem moved_taggedFrame (frame : Bytes) (tcis : List (BitVec 16)) :
    Moved 12 (4 * tcis.length) frame (taggedFrame frame tcis) := by
  intro i hi
  rw [taggedFrame, if_neg (by omega), if_neg (by omega), Nat.add_sub_cancel]

theorem taggedFrame_tag {k j : Nat} (hk : k < tcis.length) (hj : j < 4) :
    taggedFrame frame tcis (12 + 4 * k + j) = tagByte (tcis.getD k 0) j := by
  rw [taggedFrame, if_neg (by omega), if_pos (by omega), show (12 + 4 * k + j - 12) / 4 = k by omega,
    show (12 + 4 * k + j - 12) % 4 = j by omega]

theorem load_tag {k : Nat} (hk : k < tcis.length) :
    load (taggedFrame frame tcis) (2 * (6 + 2 * k)) = 0x0081 := by
  rw [load, show 2 * (6 + 2 * k) + 1 = 12 + 4 * k + 1 by omega,
    show 2 * (6 + 2 * k) = 12 + 4 * k + 0 by omega, taggedFrame_tag hk (by omega),
    taggedFrame_tag hk (by omega)]
  have hfirst : tagByte (tcis.getD k 0) 0 = 0x81 := rfl
  have hsecond : tagByte (tcis.getD k 0) 1 = 0 := rfl
  rw [hfirst, hsecond]
  decide

-- What the loop reads for the type at the control information.
def typeOf (tci : BitVec 16) : BitVec 16 := tci.extractLsb' 0 8 ++ tci.extractLsb' 8 8

theorem typeOf_eq_iff (tci : BitVec 16) : typeOf tci = 0x0081 ↔ tci = 0x8100 := by
  have hlt := tci.isLt
  rw [typeOf, ← BitVec.toNat_inj, ← BitVec.toNat_inj, toNat_append, BitVec.extractLsb'_toNat,
    BitVec.extractLsb'_toNat, Nat.shiftRight_eq_div_pow, Nat.shiftRight_eq_div_pow, Nat.pow_zero,
    Nat.div_one, show (0x0081 : BitVec 16).toNat = 129 from rfl,
    show (0x8100 : BitVec 16).toNat = 33024 from rfl]
  omega

theorem load_tci {k : Nat} (hk : k < tcis.length) :
    load (taggedFrame frame tcis) (2 * (6 + (2 * k + 1))) = typeOf (tcis.getD k 0) := by
  rw [load, show 2 * (6 + (2 * k + 1)) + 1 = 12 + 4 * k + 3 by omega,
    show 2 * (6 + (2 * k + 1)) = 12 + 4 * k + 2 by omega, taggedFrame_tag hk (by omega),
    taggedFrame_tag hk (by omega)]
  rfl

theorem load_type : load (taggedFrame frame tcis) (2 * (6 + 2 * tcis.length)) = load frame 12 :=
  (moved_taggedFrame frame tcis).load (Nat.le_refl 12) (by omega)

theorem dispatched_of_tagged {nBytes v : Nat} {mem : Bytes} (h : Tagged mem 6 v)
    (hv : v < nBytes + 1) :
    dispatched cfg nBytes mem =
      (handler cfg (load mem (2 * (6 + v)))).map fun called => (called, 7 + v) := by
  obtain ⟨hvalue, -⟩ : _ ∧ (Within nBytes mem (etherType (nBytes + 1) 6) ↔ _) :=
    etherType_tagged h hv
  rw [dispatched, hvalue, show 6 + v + 1 = 7 + v by omega]
  rfl

-- The shorts before j are tags as the loop sees them.
theorem load_before {k j : Nat} (hk : k ≤ tcis.length) (hall : ∀ i < k, tcis.getD i 0 = 0x8100)
    (hj : j < 2 * k) : load (taggedFrame frame tcis) (2 * (6 + j)) = 0x0081 := by
  rcases Nat.mod_two_eq_zero_or_one j with h | h
  · rw [show j = 2 * (j / 2) by omega]
    exact load_tag (by omega)
  · rw [show j = 2 * (j / 2) + 1 by omega]
    rw [load_tci (by omega), typeOf_eq_iff]
    exact hall (j / 2) (by omega)

theorem dispatched_plain {nBytes : Nat} (htype : load frame 12 ≠ 0x0081) :
    dispatched cfg nBytes frame =
      (handler cfg (load frame 12)).map fun called => (called, 7) := by
  have hplain : Tagged frame 6 0 := ⟨fun _ hk => absurd hk (Nat.not_lt_zero _), htype⟩
  rw [dispatched_of_tagged hplain (Nat.succ_pos nBytes)]

theorem dispatched_taggedFrame {nBytes : Nat} (htype : load frame 12 ≠ 0x0081)
    (hall : ∀ tci ∈ tcis, tci = 0x8100) :
    dispatched cfg (nBytes + 4 * tcis.length) (taggedFrame frame tcis) =
      (handler cfg (load frame 12)).map fun called => (called, 7 + 2 * tcis.length) := by
  have hget : ∀ i < tcis.length, tcis.getD i 0 = 0x8100 := by
    intro i hi
    rw [List.getD_eq_getElem _ _ hi]
    exact hall _ (List.getElem_mem hi)
  have htagged : Tagged (taggedFrame frame tcis) 6 (2 * tcis.length) :=
    ⟨fun j hj => load_before (Nat.le_refl _) hget hj, by rw [load_type]; exact htype⟩
  rw [dispatched_of_tagged htagged (by omega), load_type]

-- The first other control information is taken for the type, at an even offset.
theorem dispatched_misread {nBytes : Nat} {tci : BitVec 16}
    (hother : tcis.find? (· ≠ 0x8100) = some tci) :
    ∃ k, dispatched cfg (nBytes + 4 * tcis.length) (taggedFrame frame tcis) =
      (handler cfg (typeOf tci)).map fun called => (called, 7 + (2 * k + 1)) := by
  obtain ⟨hne, front, back, hsplit, hfront⟩ := List.find?_eq_some_iff_append.mp hother
  have hk : front.length < tcis.length := by
    rw [hsplit, List.length_append, List.length_cons]
    omega
  have hget : tcis.getD front.length 0 = tci := by
    rw [hsplit, List.getD_append_right _ _ _ _ (Nat.le_refl _), Nat.sub_self]
    rfl
  have hbefore : ∀ i < front.length, tcis.getD i 0 = 0x8100 := by
    intro i hi
    rw [hsplit, List.getD_append _ _ _ _ hi, List.getD_eq_getElem _ _ hi]
    simpa using hfront _ (List.getElem_mem hi)
  have hread : load (taggedFrame frame tcis) (2 * (6 + (2 * front.length + 1))) = typeOf tci := by
    rw [load_tci hk, hget]
  have htagged : Tagged (taggedFrame frame tcis) 6 (2 * front.length + 1) := by
    refine ⟨fun j hj => ?_, ?_⟩
    · rcases Nat.lt_succ_iff_lt_or_eq.mp hj with hlt | heq
      · exact load_before (Nat.le_of_lt hk) hbefore hlt
      · rw [heq]
        exact load_tag hk
    · rw [hread, Ne, typeOf_eq_iff]
      simpa using hne
  refine ⟨front.length, ?_⟩
  rw [dispatched_of_tagged htagged (by omega), hread]

theorem find_other_iff : tcis.find? (· ≠ 0x8100) = none ↔ ∀ tci ∈ tcis, tci = 0x8100 := by
  simp only [List.find?_eq_none, decide_eq_true_eq, not_not]

theorem dispatched_iff {nBytes : Nat} {called : Handler}
    (hcalled : handler cfg (load frame 12) = some called) :
    dispatched cfg (nBytes + 4 * tcis.length) (taggedFrame frame tcis) =
        some (called, 7 + 2 * tcis.length) ↔ ∀ tci ∈ tcis, tci = 0x8100 := by
  have htype : load frame 12 ≠ 0x0081 := by
    intro h
    rw [h, handler, if_neg (fun h => absurd h.2 (by decide)),
      if_neg (fun h => absurd h.2 (by decide))] at hcalled
    exact Option.some_ne_none _ hcalled.symm
  constructor
  · intro hd
    refine find_other_iff.mp (Option.eq_none_iff_forall_ne_some.mpr fun tci hother => ?_)
    obtain ⟨k, hk⟩ : ∃ k, dispatched cfg (nBytes + 4 * tcis.length) (taggedFrame frame tcis) =
        (handler cfg (typeOf tci)).map fun called => (called, 7 + (2 * k + 1)) :=
      dispatched_misread hother
    rw [hk, Option.map_eq_some_iff] at hd
    obtain ⟨_, _, heq⟩ := hd
    have hoffset := congrArg Prod.snd heq
    dsimp only at hoffset
    omega
  · intro hall
    rw [dispatched_taggedFrame htype hall, hcalled]
    rfl

end Tags

end Xtcp.Pip.Frame
