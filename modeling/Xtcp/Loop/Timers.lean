import Mathlib.Data.List.Chain
import Xtcp.Uip.Timer

namespace Xtcp.Loop

open Timer

def timerReset (t : UipTimer) : UipTimer := { t with start := t.start + t.interval }

-- What a timer of the loop calls: uip_arp_timer, autoip_periodic, xtcp_process_periodic_timer.
inductive Tick where
  | arp
  | autoip
  | periodic
  deriving DecidableEq, Repr

-- The clock, in milliseconds, at the three tests of a turn of the loop.
structure Turn where
  arp : Nat
  autoip : Nat
  periodic : Nat

structure Timers where
  periodicTimer : UipTimer
  autoipTimer : UipTimer
  arpTimer : UipTimer

def setTimers (r : Turn) : Timers where
  periodicTimer := timerSet (BitVec.ofNat 32 r.periodic) (clockSecond / 10)
  autoipTimer := timerSet (BitVec.ofNat 32 r.autoip) (clockSecond / 2)
  arpTimer := timerSet (BitVec.ofNat 32 r.arp) (clockSecond * 10)

def test (now : Nat) (tick : Tick) (t : UipTimer) : UipTimer × List Tick :=
  if timerExpired (BitVec.ofNat 32 now) t then (timerReset t, [tick]) else (t, [])

def turn (useAutoip : Bool) (s : Timers) (r : Turn) : Timers × List Tick :=
  let arp := test r.arp .arp s.arpTimer
  let autoip := if useAutoip then test r.autoip .autoip s.autoipTimer else (s.autoipTimer, [])
  let periodic := test r.periodic .periodic s.periodicTimer
  (⟨periodic.1, autoip.1, arp.1⟩, arp.2 ++ autoip.2 ++ periodic.2)

def turns (useAutoip : Bool) (q : Timers × List Tick) (rs : List Turn) : Timers × List Tick :=
  rs.foldl (fun q r => let p := turn useAutoip q.1 r; (p.1, q.2 ++ p.2)) q

def xtcpServerUip (useAutoip : Bool) (r₀ : Turn) (rs : List Turn) : Timers × List Tick :=
  turns useAutoip (setTimers r₀, []) rs

-- The server that drives the Ethernet port itself counts one timer's calls for the other two.
structure Counters where
  timeout : Word
  arpTimer : Word
  autoipTimer : Word

def timerafter (now value : Word) : Bool := (value - now).slt 0

def counted (limit : Word) (tick : Tick) (k : Word) : Word × List Tick :=
  if k + 1 = limit then (0, [tick]) else (k + 1, [])

def select (useAutoip : Bool) (s : Counters) (now : Nat) : Counters × List Tick :=
  if timerafter (BitVec.ofNat 32 now) s.timeout then
    let arp := counted 100 .arp s.arpTimer
    let autoip := if useAutoip then counted 5 .autoip s.autoipTimer else (s.autoipTimer, [])
    (⟨s.timeout + 10000000, arp.1, autoip.1⟩, arp.2 ++ autoip.2 ++ [.periodic])
  else (s, [])

def selects (useAutoip : Bool) (q : Counters × List Tick) (us : List Nat) : Counters × List Tick :=
  us.foldl (fun q u => let p := select useAutoip q.1 u; (p.1, q.2 ++ p.2)) q

def theServer (useAutoip : Bool) (u₀ : Nat) (us : List Nat) : Counters × List Tick :=
  selects useAutoip (⟨BitVec.ofNat 32 u₀ + 10000000, 0, 0⟩, []) us

section Expiry

variable {s c d : Nat}

theorem ofNat_sub (h : s ≤ c) :
    BitVec.ofNat 32 c - BitVec.ofNat 32 s = BitVec.ofNat 32 (c - s) := by
  obtain ⟨e, rfl⟩ := Nat.exists_eq_add_of_le h
  rw [Nat.add_sub_cancel_left, BitVec.ofNat_add, BitVec.add_comm, BitVec.add_sub_cancel]

theorem toInt_small (h : d < 2147483648) : (BitVec.ofNat 32 d).toInt = d := by
  rw [BitVec.toInt_eq_toNat_cond, BitVec.toNat_ofNat]
  split_ifs <;> omega

-- The clock wraps, the difference does not.
theorem timerExpired_iff (h : s ≤ c) (hc : c - s < 2147483648) (hd : d < 2147483648) :
    timerExpired (BitVec.ofNat 32 c) ⟨BitVec.ofNat 32 s, BitVec.ofNat 32 d⟩ = true ↔ d ≤ c - s := by
  rw [timerExpired, ofNat_sub h, BitVec.sle_iff_toInt_le, toInt_small hd, toInt_small hc]
  exact Int.ofNat_le

end Expiry

section Steady

variable {d c₀ c c' : Nat}

-- A timer of interval d that was set at c₀ and has been moved on for each interval that is over.
def steady (d c₀ c : Nat) : UipTimer := ⟨BitVec.ofNat 32 (c₀ + (c - c₀) / d * d), BitVec.ofNat 32 d⟩

theorem steady_start (d c₀ : Nat) :
    steady d c₀ c₀ = timerSet (BitVec.ofNat 32 c₀) (BitVec.ofNat 32 d) := by
  rw [steady, timerSet, Nat.sub_self, Nat.zero_div, Nat.zero_mul, Nat.add_zero]

theorem timerReset_steady : timerReset (steady d c₀ c) =
    ⟨BitVec.ofNat 32 (c₀ + ((c - c₀) / d + 1) * d), BitVec.ofNat 32 d⟩ := by
  rw [timerReset, steady, Nat.succ_mul, ← Nat.add_assoc, BitVec.ofNat_add _ d]

theorem test_steady (tick : Tick) (hd : 0 < d) (hsmall : d < 1073741824) (h₀ : c₀ ≤ c) (hc : c ≤ c')
    (hgap : c' ≤ c + d) : test c' tick (steady d c₀ c) =
      (steady d c₀ c', List.replicate ((c' - c₀) / d - (c - c₀) / d) tick) := by
  have hbelow := Nat.div_mul_le_self (c - c₀) d
  have habove := Nat.lt_div_mul_add (a := c - c₀) hd
  have hexpired : timerExpired (BitVec.ofNat 32 c') (steady d c₀ c) = true ↔
      d ≤ c' - (c₀ + (c - c₀) / d * d) :=
    timerExpired_iff (by omega) (by omega) (by omega)
  rw [test]
  split_ifs with h
  · have hnext : (c' - c₀) / d = (c - c₀) / d + 1 := by
      have hle := hexpired.mp h
      refine Nat.div_eq_of_lt_le ?_ ?_
      · rw [Nat.succ_mul]
        omega
      · rw [Nat.succ_mul, Nat.succ_mul]
        omega
    rw [timerReset_steady, steady, hnext, Nat.add_sub_cancel_left]
    rfl
  · have hsame : (c' - c₀) / d = (c - c₀) / d := by
      have hlt : ¬ d ≤ c' - (c₀ + (c - c₀) / d * d) := fun hle => h (hexpired.mpr hle)
      refine Nat.div_eq_of_lt_le ?_ ?_
      · omega
      · rw [Nat.succ_mul]
        omega
    rw [steady, steady, hsame, Nat.sub_self]
    rfl

end Steady

-- No test comes later than the interval of its timer after the test before.
structure Prompt (r r' : Turn) : Prop where
  arp : r.arp ≤ r'.arp ∧ r'.arp ≤ r.arp + 10000
  autoip : r.autoip ≤ r'.autoip ∧ r'.autoip ≤ r.autoip + 500
  periodic : r.periodic ≤ r'.periodic ∧ r'.periodic ≤ r.periodic + 100

def calls (useAutoip : Bool) (r₀ r : Turn) : Tick → Nat
  | .arp => (r.arp - r₀.arp) / 10000
  | .autoip => if useAutoip then (r.autoip - r₀.autoip) / 500 else 0
  | .periodic => (r.periodic - r₀.periodic) / 100

def kept (useAutoip : Bool) (r₀ r : Turn) : Timers where
  periodicTimer := steady 100 r₀.periodic r.periodic
  autoipTimer := steady 500 r₀.autoip (if useAutoip then r.autoip else r₀.autoip)
  arpTimer := steady 10000 r₀.arp r.arp

-- The turns since the timers were set, in order.
structure Follows (r₀ r : Turn) : Prop where
  arp : r₀.arp ≤ r.arp
  autoip : r₀.autoip ≤ r.autoip
  periodic : r₀.periodic ≤ r.periodic

theorem Follows.next {r₀ r r' : Turn} (h : Follows r₀ r) (hr : Prompt r r') : Follows r₀ r' :=
  ⟨h.arp.trans hr.arp.1, h.autoip.trans hr.autoip.1, h.periodic.trans hr.periodic.1⟩

theorem turn_kept (useAutoip : Bool) {r₀ r r' : Turn} (h : Follows r₀ r) (hr : Prompt r r') :
    (turn useAutoip (kept useAutoip r₀ r) r').1 = kept useAutoip r₀ r' ∧
      ∀ tick, calls useAutoip r₀ r tick + (turn useAutoip (kept useAutoip r₀ r) r').2.count tick =
        calls useAutoip r₀ r' tick := by
  have harp := test_steady .arp (by decide) (by decide) h.arp hr.arp.1 hr.arp.2
  have hautoip := test_steady .autoip (by decide) (by decide) h.autoip hr.autoip.1 hr.autoip.2
  have hperiodic :=
    test_steady .periodic (by decide) (by decide) h.periodic hr.periodic.1 hr.periodic.2
  have hmono {d c₀ c c' : Nat} (hc : c ≤ c') :
      (c - c₀) / d + ((c' - c₀) / d - (c - c₀) / d) = (c' - c₀) / d :=
    Nat.add_sub_cancel' (Nat.div_le_div_right (Nat.sub_le_sub_right hc c₀))
  cases useAutoip with
  | false =>
    rw [turn, kept]
    dsimp only
    rw [harp, hperiodic]
    refine ⟨rfl, fun tick => ?_⟩
    cases tick with
    | arp => simpa [calls, List.count_replicate] using hmono hr.arp.1
    | autoip => simp [calls, List.count_replicate]
    | periodic => simpa [calls, List.count_replicate] using hmono hr.periodic.1
  | true =>
    rw [turn, kept]
    simp only [if_true]
    rw [harp, hautoip, hperiodic]
    refine ⟨rfl, fun tick => ?_⟩
    cases tick with
    | arp => simpa [calls, List.count_replicate] using hmono hr.arp.1
    | autoip => simpa [calls, List.count_replicate] using hmono hr.autoip.1
    | periodic => simpa [calls, List.count_replicate] using hmono hr.periodic.1

theorem turns_kept (useAutoip : Bool) {r₀ r : Turn} (log : List Tick) (rs : List Turn)
    (h : Follows r₀ r) (hrs : (r :: rs).IsChain Prompt) (tick : Tick) :
    calls useAutoip r₀ r tick + (turns useAutoip (kept useAutoip r₀ r, log) rs).2.count tick =
      log.count tick + calls useAutoip r₀ (rs.getLastD r) tick := by
  induction rs generalizing r log with
  | nil => exact Nat.add_comm _ _
  | cons r' rs ih =>
    obtain ⟨hr, hrest⟩ := List.isChain_cons_cons.mp hrs
    obtain ⟨hkept, hcalls⟩ := turn_kept useAutoip h hr
    have hlast := ih (log ++ (turn useAutoip (kept useAutoip r₀ r) r').2) (h.next hr) hrest
    have hnow := hcalls tick
    rw [List.count_append] at hlast
    rw [turns, List.foldl_cons]
    dsimp only
    rw [hkept]
    change _ + (turns useAutoip (kept useAutoip r₀ r', _) rs).2.count tick = _
    rw [List.getLastD_cons]
    omega

theorem setTimers_kept (useAutoip : Bool) (r₀ : Turn) : setTimers r₀ = kept useAutoip r₀ r₀ := by
  rw [setTimers, kept, steady_start, steady_start, ite_self, steady_start]
  rfl

section Counters

variable (useAutoip : Bool) {u₀ u u' : Nat}

-- The calls of a timer that is due every 10000000 ticks, and only after that.
def selected (u₀ u : Nat) : Nat := (u - u₀ - 1) / 10000000

def counters (useAutoip : Bool) (u₀ n : Nat) : Counters :=
  ⟨BitVec.ofNat 32 (u₀ + (n + 1) * 10000000), BitVec.ofNat 32 (n % 100),
    BitVec.ofNat 32 (if useAutoip then n % 5 else 0)⟩

def callsAfter (useAutoip : Bool) (n : Nat) : Tick → Nat
  | .arp => n / 100
  | .autoip => if useAutoip then n / 5 else 0
  | .periodic => n

theorem timerafter_iff {s c : Nat} (h : s < c + 2147483648) (hc : c < s + 2147483648) :
    timerafter (BitVec.ofNat 32 c) (BitVec.ofNat 32 s) = true ↔ s < c := by
  rw [timerafter, BitVec.slt_iff_toInt_lt, BitVec.toInt_eq_toNat_cond, BitVec.toNat_sub,
    BitVec.toNat_ofNat, BitVec.toNat_ofNat]
  change _ < (0 : Int) ↔ _
  split_ifs <;> omega

theorem counted_mod {limit : Nat} (hpos : 0 < limit) (hlimit : limit < 4294967296) (tick : Tick)
    (n : Nat) : counted (BitVec.ofNat 32 limit) tick (BitVec.ofNat 32 (n % limit)) =
      (BitVec.ofNat 32 ((n + 1) % limit), List.replicate ((n + 1) / limit - n / limit) tick) := by
  have hm := Nat.mod_lt n hpos
  have hn := Nat.div_add_mod n limit
  have hfull : BitVec.ofNat 32 (n % limit) + 1 = BitVec.ofNat 32 limit ↔ n % limit + 1 = limit := by
    change BitVec.ofNat 32 (n % limit) + BitVec.ofNat 32 1 = _ ↔ _
    rw [← BitVec.ofNat_add, ← BitVec.toNat_inj, BitVec.toNat_ofNat, BitVec.toNat_ofNat,
      Nat.mod_eq_of_lt hlimit, Nat.mod_eq_of_lt (by omega)]
  rw [counted]
  split_ifs with h
  · have hnext : n + 1 = limit * (n / limit + 1) := by
      have hlast := hfull.mp h
      rw [Nat.mul_succ]
      omega
    rw [hnext, Nat.mul_mod_right, Nat.mul_div_cancel_left _ hpos, Nat.add_sub_cancel_left]
    rfl
  · have hlt : n % limit + 1 < limit := Nat.lt_of_le_of_ne hm fun h' => h (hfull.mpr h')
    have hnext : n + 1 = limit * (n / limit) + (n % limit + 1) := by omega
    rw [hnext, Nat.mul_add_mod, Nat.mod_eq_of_lt hlt, Nat.mul_add_div hpos, Nat.div_eq_of_lt hlt,
      Nat.add_sub_cancel_left, BitVec.ofNat_add]
    rfl

theorem timeout_next (u₀ n : Nat) :
    (counters useAutoip u₀ n).timeout + 10000000 = (counters useAutoip u₀ (n + 1)).timeout := by
  change BitVec.ofNat 32 (u₀ + (n + 1) * 10000000) + BitVec.ofNat 32 10000000 =
    BitVec.ofNat 32 (u₀ + (n + 1 + 1) * 10000000)
  rw [← BitVec.ofNat_add, Nat.succ_mul (n + 1), Nat.add_assoc]

theorem select_timedOut (u₀ n : Nat) :
    counted 100 .arp (counters useAutoip u₀ n).arpTimer =
        (BitVec.ofNat 32 ((n + 1) % 100), List.replicate ((n + 1) / 100 - n / 100) .arp) ∧
      (if useAutoip then counted 5 .autoip (counters useAutoip u₀ n).autoipTimer
        else ((counters useAutoip u₀ n).autoipTimer, [])) =
        (BitVec.ofNat 32 (if useAutoip then (n + 1) % 5 else 0),
          List.replicate (if useAutoip then (n + 1) / 5 - n / 5 else 0) .autoip) := by
  refine ⟨counted_mod (by decide) (by decide) .arp n, ?_⟩
  cases useAutoip with
  | false => rfl
  | true => exact counted_mod (by decide) (by decide) .autoip n

theorem select_counters (h : u₀ ≤ u) (hu : u ≤ u') (hgap : u' ≤ u + 10000000) :
    (select useAutoip (counters useAutoip u₀ (selected u₀ u)) u').1 =
        counters useAutoip u₀ (selected u₀ u') ∧
      ∀ tick, callsAfter useAutoip (selected u₀ u) tick +
        (select useAutoip (counters useAutoip u₀ (selected u₀ u)) u').2.count tick =
          callsAfter useAutoip (selected u₀ u') tick := by
  have hlast : selected u₀ u * 10000000 ≤ u - u₀ - 1 := Nat.div_mul_le_self _ _
  have hnext : u - u₀ - 1 < selected u₀ u * 10000000 + 10000000 := Nat.lt_div_mul_add (by decide)
  have hdue : timerafter (BitVec.ofNat 32 u') (counters useAutoip u₀ (selected u₀ u)).timeout =
      true ↔ u₀ + (selected u₀ u + 1) * 10000000 < u' :=
    timerafter_iff (by omega) (by omega)
  by_cases htimer : timerafter (BitVec.ofNat 32 u') (counters useAutoip u₀ (selected u₀ u)).timeout
  · have hn : selected u₀ u' = selected u₀ u + 1 := by
      have hlt := hdue.mp htimer
      rw [selected]
      omega
    obtain ⟨harp, hautoip⟩ := select_timedOut useAutoip u₀ (selected u₀ u)
    rw [select, if_pos htimer, harp, hautoip, timeout_next, hn]
    refine ⟨rfl, fun tick => ?_⟩
    have hmono (d : Nat) : selected u₀ u / d + ((selected u₀ u + 1) / d - selected u₀ u / d) =
        (selected u₀ u + 1) / d :=
      Nat.add_sub_cancel' (Nat.div_le_div_right (Nat.le_succ _))
    cases tick with
    | arp => simpa [callsAfter, List.count_replicate] using hmono 100
    | autoip =>
      cases useAutoip with
      | false => simp [callsAfter, List.count_replicate]
      | true => simpa [callsAfter, List.count_replicate] using hmono 5
    | periodic => simp [callsAfter, List.count_replicate]
  · have hn : selected u₀ u' = selected u₀ u := by
      have hle : ¬ u₀ + (selected u₀ u + 1) * 10000000 < u' := fun hlt => htimer (hdue.mpr hlt)
      rw [selected]
      omega
    rw [select, if_neg htimer, hn]
    exact ⟨rfl, fun _ => rfl⟩

theorem selects_counters (log : List Tick) (us : List Nat) (h : u₀ ≤ u)
    (hus : (u :: us).IsChain fun a b => a ≤ b ∧ b ≤ a + 10000000) (tick : Tick) :
    callsAfter useAutoip (selected u₀ u) tick +
        (selects useAutoip (counters useAutoip u₀ (selected u₀ u), log) us).2.count tick =
      log.count tick + callsAfter useAutoip (selected u₀ (us.getLastD u)) tick := by
  induction us generalizing u log with
  | nil => exact Nat.add_comm _ _
  | cons u' us ih =>
    obtain ⟨⟨hu, hgap⟩, hrest⟩ := List.isChain_cons_cons.mp hus
    obtain ⟨hcounters, hcalls⟩ := select_counters useAutoip h hu hgap
    have hlast := ih (log ++ (select useAutoip (counters useAutoip u₀ (selected u₀ u)) u').2)
      (h.trans hu) hrest
    have hnow := hcalls tick
    rw [List.count_append] at hlast
    rw [selects, List.foldl_cons]
    dsimp only
    rw [hcounters]
    change _ + (selects useAutoip (counters useAutoip u₀ (selected u₀ u'), _) us).2.count tick = _
    rw [List.getLastD_cons]
    omega

end Counters

-- Both servers make each of their calls once for every period that is over, however long they run
-- and however often the clock and the timer wrap, as long as no turn is slower than a period.
theorem periodic_calls (useAutoip : Bool) (tick : Tick) :
    (∀ (r₀ : Turn) (rs : List Turn), (r₀ :: rs).IsChain Prompt →
      (xtcpServerUip useAutoip r₀ rs).2.count tick =
        calls useAutoip r₀ (rs.getLastD r₀) tick) ∧
    ∀ (u₀ : Nat) (us : List Nat),
      ((u₀ :: us).IsChain fun a b => a ≤ b ∧ b ≤ a + 10000000) →
        (theServer useAutoip u₀ us).2.count tick =
          callsAfter useAutoip ((us.getLastD u₀ - u₀ - 1) / 10000000) tick := by
  constructor
  · intro r₀ rs hrs
    have hfrom := turns_kept useAutoip [] rs ⟨le_rfl, le_rfl, le_rfl⟩ hrs tick
    rw [← setTimers_kept] at hfrom
    have hnone : calls useAutoip r₀ r₀ tick = 0 := by
      cases tick <;> simp [calls]
    rw [hnone, List.count_nil, Nat.zero_add, Nat.zero_add] at hfrom
    exact hfrom
  · intro u₀ us hus
    have hfrom := selects_counters useAutoip [] us (Nat.le_refl u₀) hus tick
    have hstart : selected u₀ u₀ = 0 := by
      rw [selected, Nat.sub_self]
    have hfirst : counters useAutoip u₀ 0 = ⟨BitVec.ofNat 32 u₀ + 10000000, 0, 0⟩ := by
      rw [counters, BitVec.ofNat_add, Nat.zero_mod, ite_self]
      rfl
    have hnone : callsAfter useAutoip 0 tick = 0 := by
      cases tick <;> simp [callsAfter]
    rw [hstart, hfirst, hnone, List.count_nil, Nat.zero_add, Nat.zero_add] at hfrom
    exact hfrom

-- Two turns, after 90 and 170 ms, and two selects, after 90 and 170 ms.
theorem periodic_calls_twice :
    (xtcpServerUip true ⟨0, 0, 0⟩ [⟨90, 90, 90⟩, ⟨170, 170, 170⟩]).2.count .periodic = 1 ∧
      (theServer true 0 [9000000, 17000000]).2.count .periodic = 1 :=
  ⟨(periodic_calls true .periodic).1 ⟨0, 0, 0⟩ [⟨90, 90, 90⟩, ⟨170, 170, 170⟩]
      (.cons_cons ⟨by decide, by decide, by decide⟩
        (.cons_cons ⟨by decide, by decide, by decide⟩ (.singleton _))),
    (periodic_calls true .periodic).2 0 [9000000, 17000000]
      (.cons_cons (by decide) (.cons_cons (by decide) (.singleton _)))⟩

end Xtcp.Loop
