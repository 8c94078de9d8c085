import Xtcp.Library.Halfword

namespace Xtcp.Uip
open Halfword

-- Addresses in uip_buf: the link-layer header, then the fields of struct uip_tcpip_hdr.
def llhLen : Nat := 14

def seqnoAddr (uipBuf : Nat) : Nat := uipBuf + llhLen + 24

def acknoAddr (uipBuf : Nat) : Nat := uipBuf + llhLen + 28

def xtcpSwapWords (a b : Nat) (mem : Bytes) : Option Bytes := do
  let c ← load? mem a
  let mem ← store? mem a (← load? mem b)
  let mem ← store? mem b c
  let c ← load? mem (a + 2)
  let mem ← store? mem (a + 2) (← load? mem (b + 2))
  store? mem (b + 2) c

-- The halves are signed, so a negative lower one takes 1 from the upper one.
def incrementHalves (hi lo : BitVec 16) : BitVec 32 :=
  byterev (byterev ((hi.signExtend 32 <<< 16) + lo.signExtend 32) + 1)

def xtcpIncrementWord (uipBuf a : Nat) (mem : Bytes) : Option Bytes := do
  let s := incrementHalves (← load? mem (a + 2)) (← load? mem a)
  let mem ← store? mem a (s.setWidth 16)
  store? mem (acknoAddr uipBuf + 2) ((s >>> 16).setWidth 16)

def V6.xtcpIncrementWord (a : Nat) (mem : Bytes) : Option Bytes := do
  let s := incrementHalves (← load? mem (a + 2)) (← load? mem a)
  let mem ← store? mem a (s.setWidth 16)
  store? mem (a + 2) ((s >>> 16).setWidth 16)

def resetNumbers (uipBuf : Nat) (mem : Bytes) : Option Bytes := do
  let mem ← xtcpSwapWords (seqnoAddr uipBuf) (acknoAddr uipBuf) mem
  xtcpIncrementWord uipBuf (acknoAddr uipBuf) mem

-- What the two calls leave in a word of network order.
def incremented (x : BitVec 32) : BitVec 32 :=
  byterev (incrementHalves ((byterev x >>> 16).setWidth 16) ((byterev x).setWidth 16))

def incrementedApart (x : BitVec 32) : BitVec 32 :=
  (incremented x).extractLsb' 16 16 ++ x.setWidth 16

def Incremented (a : Nat) (mem : Bytes) (r : Option Bytes) : Prop :=
  ∃ mem', r = some mem' ∧ word mem' a = word mem a + 1 ∧
    ∀ x, x < a ∨ a + 4 ≤ x → mem' x = mem x

theorem toNat_signedHalves (hi lo : BitVec 16) :
    ((hi.signExtend 32 <<< 16) + lo.signExtend 32).toNat =
      (65536 * hi.toNat + lo.toNat + if lo.msb then 4294901760 else 0) % 4294967296 := by
  rw [BitVec.toNat_add, BitVec.toNat_shiftLeft, BitVec.toNat_signExtend, BitVec.toNat_signExtend,
    Nat.shiftLeft_eq]
  have hhi := hi.isLt
  have hlo := lo.isLt
  cases hi.msb <;> cases lo.msb <;> simp <;> omega

theorem signedHalves_eq_iff (hi lo : BitVec 16) :
    (hi.signExtend 32 <<< 16) + lo.signExtend 32 = hi ++ lo ↔ lo.msb = false := by
  have h := toNat_signedHalves hi lo
  rw [← BitVec.toNat_inj, h, toNat_append]
  have hhi := hi.isLt
  have hlo := lo.isLt
  cases lo.msb <;> simp <;> omega

theorem byterev_incrementHalves (hi lo : BitVec 16) :
    byterev (incrementHalves hi lo) =
      byterev ((hi.signExtend 32 <<< 16) + lo.signExtend 32) + 1 := byterev_byterev _

theorem byterev_incrementHalves_iff (mem : Bytes) (a : Nat) :
    byterev (incrementHalves (load mem (a + 2)) (load mem a)) = word mem a + 1 ↔
      (mem (a + 1)).toNat < 128 := by
  rw [byterev_incrementHalves, word_eq, BitVec.add_left_inj]
  refine Iff.trans ⟨fun h => ?_, congrArg byterev⟩ ((signedHalves_eq_iff _ _).trans ?_)
  · have h' := congrArg byterev h
    rwa [byterev_byterev, byterev_byterev] at h'
  · rw [msb_load, decide_eq_false_iff_not, Nat.not_le]

theorem v6_xtcpIncrementWord_even {a : Nat} (ha : a % 2 = 0) (mem : Bytes) :
    V6.xtcpIncrementWord a mem =
      some (storeWord mem a (incrementHalves (load mem (a + 2)) (load mem a))) := by
  simp [V6.xtcpIncrementWord, load?, store?, storeWord, ha]

theorem v6_incremented_iff (a : Nat) (mem : Bytes) :
    Incremented a mem (V6.xtcpIncrementWord a mem) ↔ a % 2 = 0 ∧ (mem (a + 1)).toNat < 128 := by
  by_cases ha : a % 2 = 0
  · rw [v6_xtcpIncrementWord_even ha, ← byterev_incrementHalves_iff]
    constructor
    · rintro ⟨mem', hmem, hword, -⟩
      refine ⟨ha, ?_⟩
      rw [← hword, ← Option.some.inj hmem, word_storeWord]
    · rintro ⟨-, h⟩
      exact ⟨_, rfl, (word_storeWord mem a _).trans h, fun x hx => storeWord_other _ hx⟩
  · constructor
    · rintro ⟨mem', hmem, -⟩
      simp [V6.xtcpIncrementWord, load?, ha] at hmem
    · rintro ⟨h, -⟩
      exact absurd h ha

theorem xtcpIncrementWord_ackno (uipBuf : Nat) (mem : Bytes) :
    xtcpIncrementWord uipBuf (acknoAddr uipBuf) mem =
      V6.xtcpIncrementWord (acknoAddr uipBuf) mem := rfl

theorem xtcpIncrementWord_eq_some {uipBuf a : Nat} {mem mem' : Bytes}
    (h : xtcpIncrementWord uipBuf a mem = some mem') :
    a % 2 = 0 ∧ uipBuf % 2 = 0 ∧
      mem' = store (store mem a
        ((incrementHalves (load mem (a + 2)) (load mem a)).setWidth 16)) (acknoAddr uipBuf + 2)
        ((incrementHalves (load mem (a + 2)) (load mem a) >>> 16).setWidth 16) := by
  by_cases ha : a % 2 = 0
  · by_cases hb : uipBuf % 2 = 0
    · simp [xtcpIncrementWord, load?, store?, ha, acknoAddr, llhLen, Nat.add_mod, hb] at h
      exact ⟨ha, hb, by rw [← h]; rfl⟩
    · simp [xtcpIncrementWord, load?, store?, ha, acknoAddr, llhLen, Nat.add_mod, hb] at h
  · simp [xtcpIncrementWord, load?, ha] at h

-- The last byte of the word has to change, and the upper half goes to BUF->ackno.
theorem incremented_iff (uipBuf a : Nat) (mem : Bytes) :
    Incremented a mem (xtcpIncrementWord uipBuf a mem) ↔
      a = acknoAddr uipBuf ∧ a % 2 = 0 ∧ (mem (a + 1)).toNat < 128 := by
  constructor
  · intro h
    have haddr : a = acknoAddr uipBuf := by
      by_contra hne
      obtain ⟨mem', hmem, hword, -⟩ := h
      obtain ⟨ha, hb, rfl⟩ := xtcpIncrementWord_eq_some hmem
      have hlast := congrArg BitVec.toNat hword
      rw [BitVec.toNat_add, toNat_word, toNat_word, store_other _ (x := a + 3),
        store_other _ (x := a + 3)] at hlast
      · have h0 := (mem (a + 3)).isLt
        simp at hlast
        omega
      · omega
      · simp [acknoAddr, llhLen] at hne ⊢
        omega
    subst haddr
    exact ⟨rfl, (v6_incremented_iff _ mem).mp h⟩
  · rintro ⟨rfl, h⟩
    exact (v6_incremented_iff _ mem).mpr h

theorem incremented_word (mem : Bytes) (a : Nat) :
    incremented (word mem a) = byterev (incrementHalves (load mem (a + 2)) (load mem a)) := by
  rw [incremented, byterev_word, shift_append, setWidth_append]

theorem incremented_eq_iff (x : BitVec 32) :
    incremented x = x + 1 ↔ (x.extractLsb' 16 8).toNat < 128 := by
  have hbyte : ((byterev x).setWidth 16).msb = decide (128 ≤ (x.extractLsb' 16 8).toNat) := by
    obtain ⟨b₀, b₁, b₂, b₃, h⟩ := exists_bytes x
    have h₂ : x.toNat / 2 ^ 16 % 2 ^ 8 = b₂.toNat := by omega
    have hlow : (16777216 * b₀.toNat + 65536 * b₁.toNat + 256 * b₂.toNat + b₃.toNat) % 2 ^ 16 =
        256 * b₂.toNat + b₃.toNat := by omega
    rw [BitVec.msb_eq_decide, BitVec.toNat_setWidth, toNat_byterev h, BitVec.extractLsb'_toNat,
      Nat.shiftRight_eq_div_pow, h₂, hlow, decide_eq_decide]
    omega
  have hsigned := signedHalves_eq_iff ((byterev x >>> 16).setWidth 16) ((byterev x).setWidth 16)
  rw [append_setWidth, hbyte, decide_eq_false_iff_not, Nat.not_le] at hsigned
  rw [incremented, byterev_incrementHalves, BitVec.add_left_inj, ← hsigned]
  exact ⟨fun h => (byterev_byterev _).symm.trans (congrArg byterev h),
    fun h => (congrArg byterev h).trans (byterev_byterev x)⟩

theorem incrementedApart_ne (x : BitVec 32) : incrementedApart x ≠ x + 1 := by
  intro h
  have hlow := congrArg BitVec.toNat h
  rw [incrementedApart, toNat_append, BitVec.toNat_setWidth, BitVec.toNat_add] at hlow
  simp at hlow
  omega

theorem word_xtcpIncrementWord_apart {uipBuf a : Nat} {mem mem' : Bytes}
    (h : xtcpIncrementWord uipBuf a mem = some mem')
    (ha : a + 4 ≤ acknoAddr uipBuf ∨ acknoAddr uipBuf + 4 ≤ a) :
    word mem' a = incrementedApart (word mem a) := by
  obtain ⟨-, -, rfl⟩ := xtcpIncrementWord_eq_some h
  rw [incrementedApart, incremented_word, ← word_storeWord mem a, upper_word, lower_word,
    word_halves]
  have hupper : ∀ m : Bytes, ∀ u v : BitVec 16, ∀ j < 2,
      store m (acknoAddr uipBuf + 2) u (a + j) = store m (a + 2) v (a + j) := fun m u v j hj => by
    rw [store_other u (by omega), store_other v (by omega)]
  have hlower : ∀ u v : BitVec 16, ∀ j < 2,
      store (store mem a u) (acknoAddr uipBuf + 2) v (a + 2 + j) = mem (a + 2 + j) :=
    fun u v j hj => by rw [store_other v (by omega), store_other u (by omega)]
  exact congrArg₂ _ (congrArg₂ _ (hupper _ _ _ 0 (by decide)) (hupper _ _ _ 1 (by decide)))
    (congrArg₂ _ (hlower _ _ 0 (by decide)) (hlower _ _ 1 (by decide)))

theorem word_xtcpSwapWords {a b : Nat} {mem mem' : Bytes} (h : xtcpSwapWords a b mem = some mem')
    (hab : a + 4 ≤ b ∨ b + 4 ≤ a) : word mem' b = word mem a := by
  rw [word_eq, word_eq]
  by_cases ha : a % 2 = 0
  · by_cases hb : b % 2 = 0
    · simp [xtcpSwapWords, load?, store?, ha, hb] at h
      subst h
      have hlow : ∀ m : Bytes, ∀ y z u,
          load (store (store (store m b y) (a + 2) z) (b + 2) u) b = y := fun m y z u => by
        rw [load_store_other u (by omega), load_store_other z (by omega), load_store_same]
      rw [load_store_same, hlow, load_store_other _ (by omega), load_store_other _ (by omega)]
    · simp [xtcpSwapWords, load?, store?, ha, hb] at h
  · simp [xtcpSwapWords, load?, ha] at h

theorem word_resetNumbers {uipBuf : Nat} {mem mem' : Bytes}
    (h : resetNumbers uipBuf mem = some mem') :
    word mem' (acknoAddr uipBuf) = incremented (word mem (seqnoAddr uipBuf)) := by
  obtain ⟨swapped, hswap, hinc⟩ := Option.bind_eq_some_iff.mp h
  rw [← word_xtcpSwapWords hswap (by simp [seqnoAddr, acknoAddr]), incremented_word,
    ← word_storeWord swapped (acknoAddr uipBuf)]
  obtain ⟨-, -, rfl⟩ := xtcpIncrementWord_eq_some hinc
  rfl

end Xtcp.Uip
