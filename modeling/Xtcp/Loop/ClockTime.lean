import Mathlib.Data.List.Chain
import Xtcp.Uip.Timer

namespace Xtcp.Loop

open Timer

-- The static variables of clock_time.
structure ClockState where
  time : Word
  prevTimestamp : Word
  init : Bool
  deriving DecidableEq, Repr

def ClockState.start : ClockState := ⟨0, 0, true⟩

-- t: what the timer shows. The difference is unsigned and so is its division.
def clockTime (t : Word) (s : ClockState) : Word × ClockState :=
  let t := t - t % 100000
  let time := if s.init then 0 else s.time + (t - s.prevTimestamp) / 100000
  (time, ⟨time, t, false⟩)

-- The calls of clock_time at us, counted in ticks of 10 ns; the timer has 32 bits of them.
def clockTimes : ClockState → List Nat → List Word
  | _, [] => []
  | s, u :: us =>
    let r := clockTime (BitVec.ofNat 32 u) s
    r.1 :: clockTimes r.2 us

-- A turn of the timer is 42949 whole milliseconds and 67296 ticks.
def millis (u : Nat) : Nat := 42949 * (u / 4294967296) + u % 4294967296 / 100000

def stamp (u : Nat) : Nat := u % 4294967296 / 100000 * 100000

-- Less than a turn of the timer apart, so far that the rounded values show it.
def Soon (u v : Nat) : Prop := u ≤ v ∧ v + 100000 ≤ u + 4294967296

theorem millis_mono {u v : Nat} (h : u ≤ v) : millis u ≤ millis v := by
  rw [millis, millis]
  omega

theorem millis_ticks (u : Nat) :
    u = 100000 * millis u + 67296 * (u / 4294967296) + u % 4294967296 % 100000 := by
  rw [millis]
  omega

theorem rounded (u : Nat) :
    BitVec.ofNat 32 u - BitVec.ofNat 32 u % 100000 = BitVec.ofNat 32 (stamp u) := by
  apply BitVec.eq_of_toNat_eq
  rw [BitVec.toNat_sub, BitVec.toNat_umod, BitVec.toNat_ofNat, BitVec.toNat_ofNat, stamp]
  change (4294967296 - u % 4294967296 % 100000 + u % 4294967296) % 4294967296 =
    u % 4294967296 / 100000 * 100000 % 4294967296
  omega

theorem passed {u v : Nat} (h : Soon u v) :
    (4294967296 - stamp u + stamp v) % 4294967296 / 100000 = millis v - millis u := by
  obtain ⟨hle, hsoon⟩ := h
  have hturn : v / 4294967296 = u / 4294967296 ∨ v / 4294967296 = u / 4294967296 + 1 := by omega
  rw [stamp, stamp, millis, millis]
  rcases hturn with hturn | hturn <;> omega

theorem difference {u v : Nat} (h : Soon u v) :
    (BitVec.ofNat 32 (stamp v) - BitVec.ofNat 32 (stamp u)) / 100000 =
      BitVec.ofNat 32 (millis v - millis u) := by
  have hu : stamp u < 4294967296 := by
    rw [stamp]
    omega
  have hv : stamp v < 4294967296 := by
    rw [stamp]
    omega
  apply BitVec.eq_of_toNat_eq
  rw [← passed h, BitVec.toNat_udiv, BitVec.toNat_sub, BitVec.toNat_ofNat, BitVec.toNat_ofNat,
    BitVec.toNat_ofNat]
  change (4294967296 - stamp u % 4294967296 + stamp v % 4294967296) % 4294967296 / 100000 =
    (4294967296 - stamp u + stamp v) % 4294967296 / 100000 % 4294967296
  rw [Nat.mod_eq_of_lt hu, Nat.mod_eq_of_lt hv]
  omega

-- The clock after it has been read at u, when it was first read at u₀.
def shown (u₀ u : Nat) : ClockState :=
  ⟨BitVec.ofNat 32 (millis u - millis u₀), BitVec.ofNat 32 (stamp u), false⟩

theorem clockTime_start (u₀ : Nat) :
    clockTime (BitVec.ofNat 32 u₀) .start = (BitVec.ofNat 32 0, shown u₀ u₀) := by
  rw [clockTime, shown, Nat.sub_self, rounded]
  rfl

theorem clockTime_shown {u₀ u v : Nat} (h₀ : u₀ ≤ u) (h : Soon u v) :
    clockTime (BitVec.ofNat 32 v) (shown u₀ u) =
      (BitVec.ofNat 32 (millis v - millis u₀), shown u₀ v) := by
  have hsum : millis u - millis u₀ + (millis v - millis u) = millis v - millis u₀ := by
    have hu := millis_mono h₀
    have hv := millis_mono h.1
    omega
  have htime : (shown u₀ u).time + (BitVec.ofNat 32 (stamp v) - (shown u₀ u).prevTimestamp) /
      100000 = BitVec.ofNat 32 (millis v - millis u₀) := by
    rw [← hsum, BitVec.ofNat_add, ← difference h]
    rfl
  rw [clockTime, rounded, htime]
  rfl

theorem clockTimes_shown {u₀ u : Nat} (h₀ : u₀ ≤ u) (us : List Nat) (h : (u :: us).IsChain Soon) :
    clockTimes (shown u₀ u) us = us.map fun v => BitVec.ofNat 32 (millis v - millis u₀) := by
  induction us generalizing u with
  | nil => rfl
  | cons v us ih =>
    obtain ⟨hsoon, hrest⟩ := List.isChain_cons_cons.mp h
    rw [clockTimes, clockTime_shown h₀ hsoon]
    dsimp only
    rw [ih (h₀.trans hsoon.1) hrest, List.map_cons]

-- What the clock shows depends on the time alone, not on the calls in between; it loses 67296
-- ticks in each turn of the timer.
theorem clock_times (u₀ : Nat) (us : List Nat) (h : (u₀ :: us).IsChain Soon) :
    clockTimes .start (u₀ :: us) =
        (u₀ :: us).map (fun u => BitVec.ofNat 32 (millis u - millis u₀)) ∧
      ∀ u ∈ us, 100000 * (millis u - millis u₀) < u - u₀ + 100000 ∧
        u - u₀ < 100000 * (millis u - millis u₀ + 1) +
          67296 * (u / 4294967296 - u₀ / 4294967296) := by
  constructor
  · rw [clockTimes, clockTime_start]
    dsimp only
    rw [clockTimes_shown le_rfl us h, List.map_cons, Nat.sub_self]
  · intro u hu
    have hle : u₀ ≤ u := by
      have hchain := (h.imp fun _ _ hsoon => hsoon.1).pairwise
      exact List.rel_of_pairwise_cons hchain hu
    have hmono := millis_mono hle
    have hturns : u₀ / 4294967296 ≤ u / 4294967296 := Nat.div_le_div_right hle
    have h₀ := millis_ticks u₀
    have h₁ := millis_ticks u
    omega

-- Three calls, with a turn of the timer between the first two.
theorem clock_times_turn : clockTimes .start [4294900000, 4295000000, 5294967296] =
      [BitVec.ofNat 32 0, BitVec.ofNat 32 0, BitVec.ofNat 32 10000] :=
  (clock_times 4294900000 [4295000000, 5294967296]
    (.cons_cons ⟨by decide, by decide⟩ (.cons_cons ⟨by decide, by decide⟩ (.singleton _)))).1

end Xtcp.Loop
