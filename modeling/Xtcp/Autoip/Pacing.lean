import Xtcp.Autoip.Claiming

namespace Xtcp.Autoip
open Channel Timer

-- time and set count from the start and do not wrap; the code reads their low 32 bits.
inductive TimedEvent where
  | start
  | stop
  | periodic (time set : Nat)
  | arpIn (sipaddr : Ipaddr)
  deriving DecidableEq, Repr

def TimedEvent.event : TimedEvent → Event
  | .start => .start
  | .stop => .stop
  | .periodic time set => .periodic (BitVec.ofNat 32 time) (BitVec.ofNat 32 set)
  | .arpIn sipaddr => .arpIn sipaddr

def Note.chooses : Note → Bool
  | .chose _ => true
  | _ => false

def Note.announces : Note → Bool
  | .built p => p.sipaddr != ⟨0, 0, 0, 0⟩
  | _ => false

def Note.probes : Note → Bool
  | .built p => p.sipaddr == ⟨0, 0, 0, 0⟩
  | _ => false

-- The conflicts counted since autoip_start, when the last address was given up, and when the
-- present one was last announced.
structure History where
  state : AutoipState
  counted : Nat
  givenUp : Option Nat
  announced : Option Nat

def begun (s : AutoipState) : History := ⟨s, 0, none, none⟩

def History.next (h : History) (s : AutoipState) (new : List Note) : TimedEvent → History
  | .start => if h.state.state = .disabled then begun s else { h with state := s }
  | .stop => { h with state := s }
  | .arpIn _ =>
    { h with state := s, counted := h.counted + (s.numConflicts - h.state.numConflicts) }
  | .periodic _ set =>
    { h with
      state := s
      givenUp := if h.state.state = .waitForAnnounce ∧ s.state = .noAddress then some set
        else h.givenUp
      announced := if new.any Note.announces then some set
        else if new.any Note.chooses then none else h.announced }

-- The delay that random_timer_set is to give for the value r of the generator.
def spread (a b r : Word) : Nat := a.toNat + r.toNat * (b.toNat - a.toNat) / 2 ^ 32

structure PacedCall (h : History) (s : AutoipState) (new : List Note) (time : Nat) : Prop where
  choice : new.any Note.chooses → maxConflicts < h.counted → ∀ t ∈ h.givenUp,
    t + (rateLimitInterval * clockSecond).toNat ≤ time
  announce : new.any Note.announces → ∀ t ∈ h.announced,
    t + (announceInterval * clockSecond).toNat ≤ time
  wait : new.any Note.chooses →
    s.timer.interval.toNat = spread 0 (probeWait * clockSecond) s.rand
  gap : new.any Note.probes →
    s.timer.interval.toNat = spread (probeMin * clockSecond) (probeMax * clockSecond) s.rand

def Paced (ethaddr : MacAddr) : History → List TimedEvent → Prop
  | _, [] => True
  | h, e :: es =>
    match step ethaddr e.event h.state with
    | none => True
    | some (s, new) =>
      (∀ time set, e = .periodic time set → PacedCall h s new time) ∧
        Paced ethaddr (h.next s new e) es

-- A probe is sent.
def ProbeDue (time : Nat) (s : AutoipState) : Prop :=
  timerExpired (BitVec.ofNat 32 time) s.timer ∧
    (s.state = .waitForProbe ∨ s.state = .probing ∧ s.probesSent ≠ probeNum)

def Small (a b r : Word) : Prop := r.toNat * (b.toNat - a.toNat) < 2 ^ 32

-- How late autoip_periodic is called where the code itself does not wait, and values of the
-- generator that are spread to nothing.
structure KeptCall (h : History) (time : Nat) : Prop where
  choice : h.state.state = .noAddress → maxConflicts < h.counted → ∀ t ∈ h.givenUp,
    t + (rateLimitInterval * clockSecond).toNat ≤ time
  announce : h.state.state = .announcing → ∀ t ∈ h.announced,
    t + (announceInterval * clockSecond).toNat ≤ time
  wait : h.state.state = .noAddress →
    Small 0 (probeWait * clockSecond) (rand (rand h.state)).rand
  gap : ProbeDue time h.state →
    Small (probeMin * clockSecond) (probeMax * clockSecond) (rand h.state).rand

def Kept (ethaddr : MacAddr) : History → List TimedEvent → Prop
  | _, [] => True
  | h, e :: es =>
    match step ethaddr e.event h.state with
    | none => True
    | some (s, new) =>
      (∀ time set, e = .periodic time set → KeptCall h time) ∧ Kept ethaddr (h.next s new e) es

section Delays

variable {a b r : Word} {s : AutoipState} {set : Word}

theorem randomTimerSet_interval (set a b : Word) (s : AutoipState) :
    (randomTimerSet set a b s).timer.interval = a := by
  have hz : ((rand s).rand * (b - a)).zeroExtend 64 >>> 32 = 0 := by
    apply BitVec.eq_of_toNat_eq
    have hlt := ((rand s).rand * (b - a)).isLt
    rw [BitVec.toNat_ushiftRight, Nat.shiftRight_eq_div_pow]
    simp only [BitVec.truncate_eq_setWidth, BitVec.toNat_setWidth]
    rw [Nat.mod_eq_of_lt (by omega), Nat.div_eq_of_lt hlt]
    rfl
  unfold randomTimerSet
  simp only [hz, timerSet]
  exact BitVec.add_zero a

theorem spread_iff : a.toNat = spread a b r ↔ Small a b r := by
  unfold spread Small
  rw [← Nat.div_eq_zero_iff_lt (Nat.two_pow_pos 32)]
  omega

end Delays

section Calls

variable {ethaddr : MacAddr} {h : History} {s : AutoipState} {new : List Note} {time set : Nat}

-- The rate is never limited, and an address that is claimed has not been announced.
structure Unlimited (h : History) : Prop where
  limitRate : h.state.limitRate = false
  announced : listening h.state.state → h.announced = none
  ipaddr : listening h.state.state ∨ h.state.state = .announcing → h.state.ipaddr.b0 = 169

theorem pacedCall_nil : PacedCall h s [] time where
  choice hn := by cases hn
  announce hn := by cases hn
  wait hn := by cases hn
  gap hn := by cases hn

theorem keptCall_quiet (hn : h.state.state ≠ .noAddress) (ha : h.state.state ≠ .announcing)
    (hp : ¬ ProbeDue time h.state) : KeptCall h time where
  choice he := absurd he hn
  announce he := absurd he ha
  wait he := absurd he hn
  gap he := absurd he hp

theorem not_due (hw : h.state.state ≠ .waitForProbe) (hp : h.state.state ≠ .probing) :
    ¬ ProbeDue time h.state := by
  rintro ⟨-, hd | ⟨hd, -⟩⟩
  · exact hw hd
  · exact hp hd

theorem announces_announcement {a : Ipaddr} (ha : a.b0 = 169) :
    Note.announces (.built (announcement ethaddr a)) = true := by
  have hne : a ≠ ⟨0, 0, 0, 0⟩ := by
    rintro rfl
    cases ha
  exact bne_iff_ne.mpr hne

theorem probes_announcement {a : Ipaddr} (ha : a.b0 = 169) :
    Note.probes (.built (announcement ethaddr a)) = false := by
  have hne : a ≠ ⟨0, 0, 0, 0⟩ := by
    rintro rfl
    cases ha
  exact beq_eq_false_iff_ne.mpr hne

theorem chosen_iff (hs : h.state.state = .noAddress) :
    PacedCall h (chooseAddress (BitVec.ofNat 32 set) h.state).1
      (chooseAddress (BitVec.ofNat 32 set) h.state).2 time ↔ KeptCall h time := by
  have hint : (chooseAddress (BitVec.ofNat 32 set) h.state).1.timer.interval = 0 :=
    randomTimerSet_interval _ _ _ _
  have hwait : (chooseAddress (BitVec.ofNat 32 set) h.state).1.timer.interval.toNat =
        spread 0 (probeWait * clockSecond)
          (chooseAddress (BitVec.ofNat 32 set) h.state).1.rand ↔
      Small 0 (probeWait * clockSecond) (rand (rand h.state)).rand := by
    rw [hint]
    exact spread_iff
  have hgap : ¬ ProbeDue time h.state := not_due (by simp [hs]) (by simp [hs])
  have hann : h.state.state ≠ .announcing := by simp [hs]
  constructor
  · intro hp
    exact ⟨fun _ => hp.choice rfl, fun he => absurd he hann, fun _ => hwait.mp (hp.wait rfl),
      fun he => absurd he hgap⟩
  · intro hk
    exact ⟨fun _ => hk.choice hs, nofun, fun _ => hwait.mpr (hk.wait hs), nofun⟩

theorem probed_iff {s0 : AutoipState} (hrand : s0.rand = h.state.rand)
    (hdue : ProbeDue time h.state)
    (hc : sendProbe ethaddr (BitVec.ofNat 32 set) s0 = some (s, new)) :
    PacedCall h s new time ↔ KeptCall h time := by
  obtain ⟨m, -, hc⟩ := Option.bind_eq_some_iff.mp hc
  obtain ⟨rfl, rfl⟩ := Prod.mk.inj (Option.some.inj hc)
  have hint := randomTimerSet_interval (BitVec.ofNat 32 set) (probeMin * clockSecond)
    (probeMax * clockSecond) { s0 with probesSent := m }
  have hr : (randomTimerSet (BitVec.ofNat 32 set) (probeMin * clockSecond)
      (probeMax * clockSecond) { s0 with probesSent := m }).rand = (rand h.state).rand :=
    congrArg (fun v : Word => 1013904223 + 1664525 * v) hrand
  have hne : h.state.state ≠ .noAddress ∧ h.state.state ≠ .announcing := by
    rcases hdue.2 with hp | ⟨hp, -⟩
    · simp [hp]
    · simp [hp]
  constructor
  · intro hp
    refine ⟨fun he => absurd he hne.1, fun he => absurd he hne.2, fun he => absurd he hne.1,
      fun _ => ?_⟩
    have := hp.gap rfl
    rw [hint, hr] at this
    exact spread_iff.mp this
  · intro hk
    refine ⟨nofun, nofun, nofun, fun _ => ?_⟩
    rw [hint, hr]
    exact spread_iff.mpr (hk.gap hdue)

theorem announced_iff
    (hst : h.state.state = .announcing ∨ h.state.state = .waitForAnnounce ∧ h.announced = none)
    (hn : new.any Note.announces = true ∧ new.any Note.chooses = false ∧
      new.any Note.probes = false) :
    PacedCall h s new time ↔ KeptCall h time := by
  have hstate : h.state.state = .announcing ∨ h.state.state = .waitForAnnounce :=
    hst.imp_right And.left
  have hno : h.state.state ≠ .noAddress := by
    rcases hstate with hp | hp
    · simp [hp]
    · simp [hp]
  have hdue : ¬ ProbeDue time h.state := by
    rcases hstate with hp | hp
    · exact not_due (by simp [hp]) (by simp [hp])
    · exact not_due (by simp [hp]) (by simp [hp])
  constructor
  · intro hp
    exact ⟨fun he => absurd he hno, fun _ => hp.announce hn.1, fun he => absurd he hno,
      fun he => absurd he hdue⟩
  · intro hk
    refine ⟨fun hc => absurd (hn.2.1.symm.trans hc) (by decide), fun _ => ?_,
      fun hc => absurd (hn.2.1.symm.trans hc) (by decide),
      fun hc => absurd (hn.2.2.symm.trans hc) (by decide)⟩
    rcases hst with hst | ⟨-, hst⟩
    · exact hk.announce hst
    · rw [hst]
      exact nofun

theorem sendProbe_limitRate {set : Word} {s0 : AutoipState}
    (hs : sendProbe ethaddr set s0 = some (s, new)) : s.limitRate = s0.limitRate := by
  obtain ⟨m, -, hs⟩ := Option.bind_eq_some_iff.mp hs
  obtain ⟨rfl, -⟩ := Prod.mk.inj (Option.some.inj hs)
  rfl

theorem sendAnnounce_limitRate {set : Word} {s0 : AutoipState}
    (hs : sendAnnounce ethaddr set s0 = some (s, new)) : s.limitRate = s0.limitRate := by
  obtain ⟨m, -, hs⟩ := Option.bind_eq_some_iff.mp hs
  obtain ⟨rfl, -⟩ := Prod.mk.inj (Option.some.inj hs)
  rfl

theorem quiet_exact (hi : Unlimited h) (hn : h.state.state ≠ .noAddress)
    (ha : h.state.state ≠ .announcing) (hp : ¬ ProbeDue time h.state) :
    (PacedCall h h.state [] time ↔ KeptCall h time) ∧
      Unlimited (h.next h.state [] (.periodic time set)) :=
  ⟨iff_of_true pacedCall_nil (keptCall_quiet hn ha hp), hi.limitRate, hi.announced, hi.ipaddr⟩

theorem sendProbe_exact {s0 : AutoipState} (hi : Unlimited h) (hdue : ProbeDue time h.state)
    (hrand : s0.rand = h.state.rand) (hip : s0.ipaddr = h.state.ipaddr)
    (hlimit : s0.limitRate = h.state.limitRate)
    (hs : sendProbe ethaddr (BitVec.ofNat 32 set) s0 = some (s, new)) :
    (PacedCall h s new time ↔ KeptCall h time) ∧
      Unlimited (h.next s new (.periodic time set)) := by
  obtain ⟨hst', -, -, hip', -, rfl⟩ := sendProbe_spec hs
  have hl : listening h.state.state = true := by
    rcases hdue.2 with hd | ⟨hd, -⟩
    · rw [hd]
      rfl
    · rw [hd]
      rfl
  refine ⟨probed_iff hrand hdue hs, ?_, fun _ => ?_, fun _ => ?_⟩
  · exact (sendProbe_limitRate hs).trans (hlimit.trans hi.limitRate)
  · exact hi.announced hl
  · have := hi.ipaddr (Or.inl hl)
    rwa [← hip, ← hip'] at this

theorem call_exact (hi : Unlimited h)
    (hs : autoipPeriodic ethaddr (BitVec.ofNat 32 time) (BitVec.ofNat 32 set) h.state =
      some (s, new)) :
    (PacedCall h s new time ↔ KeptCall h time) ∧
      Unlimited (h.next s new (.periodic time set)) := by
  have hquiet (hstate : h.state.state ≠ .noAddress ∧ h.state.state ≠ .announcing)
      (hp : ¬ ProbeDue time h.state) (hs : some (h.state, []) = some (s, new)) :
      (PacedCall h s new time ↔ KeptCall h time) ∧
        Unlimited (h.next s new (.periodic time set)) := by
    obtain ⟨rfl, rfl⟩ := Prod.mk.inj (Option.some.inj hs)
    exact quiet_exact hi hstate.1 hstate.2 hp
  have hdue (he : ¬ timerExpired (BitVec.ofNat 32 time) h.state.timer = true) :
      ¬ ProbeDue time h.state := fun hd => he hd.1
  unfold autoipPeriodic at hs
  cases hst : h.state.state with
  | disabled =>
    simp only [hst] at hs
    exact hquiet ⟨by simp [hst], by simp [hst]⟩ (not_due (by simp [hst]) (by simp [hst])) hs
  | noAddress =>
    simp only [hst, hi.limitRate, Bool.not_false, Bool.true_or, if_true] at hs
    obtain ⟨rfl, rfl⟩ := Prod.mk.inj (Option.some.inj hs)
    exact ⟨chosen_iff hst, hi.limitRate, fun _ => rfl, fun _ => rfl⟩
  | waitForProbe =>
    simp only [hst] at hs
    split at hs
    · next he =>
      refine sendProbe_exact hi ⟨he, Or.inl hst⟩ ?_ ?_ ?_ hs <;> rfl
    · next he => exact hquiet ⟨by simp [hst], by simp [hst]⟩ (hdue he) hs
  | probing =>
    simp only [hst] at hs
    split at hs
    · next he =>
      split at hs
      · next hsent =>
        obtain ⟨rfl, rfl⟩ := Prod.mk.inj (Option.some.inj hs)
        have hl : listening h.state.state = true := by
          rw [hst]
          rfl
        refine ⟨iff_of_true pacedCall_nil (keptCall_quiet (by simp [hst])
          (by simp [hst]) ?_), hi.limitRate, fun _ => hi.announced hl,
            fun _ => hi.ipaddr (Or.inl hl)⟩
        rintro ⟨-, hd | ⟨-, hd⟩⟩
        · exact absurd (hst.symm.trans hd) (by decide)
        · exact hd hsent
      · next hsent => exact sendProbe_exact hi ⟨he, Or.inr ⟨hst, hsent⟩⟩ rfl rfl rfl hs
    · next he => exact hquiet ⟨by simp [hst], by simp [hst]⟩ (hdue he) hs
  | waitForAnnounce =>
    have hl : listening h.state.state = true := by
      rw [hst]
      rfl
    have hp : ¬ ProbeDue time h.state := not_due (by simp [hst]) (by simp [hst])
    simp only [hst] at hs
    split at hs
    · split at hs
      · have hip := hi.ipaddr (Or.inl hl)
        have hlimit := sendAnnounce_limitRate hs
        obtain ⟨hst', -, hip', rfl⟩ := sendAnnounce_spec hs
        refine ⟨announced_iff (Or.inr ⟨hst, hi.announced hl⟩) ⟨?_, rfl, ?_⟩,
          hlimit.trans hi.limitRate, fun hl' => ?_, fun _ => ?_⟩
        · exact (Bool.or_false _).trans (announces_announcement hip)
        · exact (Bool.or_false _).trans (probes_announcement hip)
        · rw [History.next, hst'] at hl'
          cases hl'
        · exact (congrArg Ipaddr.b0 hip').trans hip
      · obtain ⟨rfl, rfl⟩ := Prod.mk.inj (Option.some.inj hs)
        refine ⟨iff_of_true pacedCall_nil (keptCall_quiet (by simp [hst])
          (by simp [hst]) hp), ?_, nofun, nofun⟩
        exact (Bool.or_false _).trans hi.limitRate
    · exact hquiet ⟨by simp [hst], by simp [hst]⟩ hp hs
  | announcing =>
    have hip := hi.ipaddr (Or.inr hst)
    simp only [hst] at hs
    obtain ⟨⟨s1, new1⟩, h1, hs⟩ := Option.bind_eq_some_iff.mp hs
    have hlimit := sendAnnounce_limitRate h1
    obtain ⟨hst', -, hip', rfl⟩ := sendAnnounce_spec h1
    split at hs
    · obtain ⟨rfl, rfl⟩ := Prod.mk.inj (Option.some.inj hs)
      refine ⟨announced_iff (Or.inl hst) ⟨?_, rfl, ?_⟩, hlimit.trans hi.limitRate, nofun, nofun⟩
      · exact (Bool.or_false _).trans (announces_announcement hip)
      · exact (Bool.or_false _).trans (probes_announcement hip)
    · obtain ⟨rfl, rfl⟩ := Prod.mk.inj (Option.some.inj hs)
      refine ⟨announced_iff (Or.inl hst) ⟨?_, rfl, ?_⟩, hlimit.trans hi.limitRate,
        fun hl' => ?_, fun _ => ?_⟩
      · exact (Bool.or_false _).trans (announces_announcement hip)
      · exact (Bool.or_false _).trans (probes_announcement hip)
      · rw [History.next, hst', hst] at hl'
        cases hl'
      · exact (congrArg Ipaddr.b0 hip').trans hip
  | configured =>
    simp only [hst] at hs
    exact hquiet ⟨by simp [hst], by simp [hst]⟩ (not_due (by simp [hst]) (by simp [hst])) hs

theorem unlimited_next {e : TimedEvent} (hi : Unlimited h)
    (hs : step ethaddr e.event h.state = some (s, new)) : Unlimited (h.next s new e) := by
  cases e with
  | start =>
    obtain ⟨rfl, rfl⟩ := Prod.mk.inj (Option.some.inj hs)
    by_cases hd : h.state.state = .disabled
    · simp only [History.next, autoipStart, hd, if_true]
      exact ⟨rfl, nofun, nofun⟩
    · simp only [History.next, autoipStart, hd, if_false]
      exact ⟨hi.limitRate, hi.announced, hi.ipaddr⟩
  | stop =>
    obtain ⟨rfl, rfl⟩ := Prod.mk.inj (Option.some.inj hs)
    exact ⟨hi.limitRate, nofun, nofun⟩
  | periodic time set => exact (call_exact hi hs).2
  | arpIn a =>
    have hs : autoipArpIn a h.state = some (s, new) := hs
    unfold autoipArpIn at hs
    split at hs
    · obtain ⟨m, -, heq⟩ := Option.map_eq_some_iff.mp hs
      obtain ⟨rfl, rfl⟩ := Prod.mk.inj heq
      exact ⟨hi.limitRate, hi.announced, hi.ipaddr⟩
    · obtain ⟨rfl, rfl⟩ := Prod.mk.inj (Option.some.inj hs)
      exact ⟨hi.limitRate, hi.announced, hi.ipaddr⟩

theorem paced_iff (hi : Unlimited h) (events : List TimedEvent) :
    Paced ethaddr h events ↔ Kept ethaddr h events := by
  induction events generalizing h with
  | nil => exact Iff.rfl
  | cons e es ih =>
    rw [Paced, Kept]
    cases hs : step ethaddr e.event h.state with
    | none => exact Iff.rfl
    | some r =>
      obtain ⟨s, new⟩ := r
      refine and_congr ?_ (ih (unlimited_next hi hs))
      refine forall_congr' fun time => forall_congr' fun set => imp_congr_right fun he => ?_
      subst he
      exact (call_exact hi hs).1

end Calls

theorem begun_unlimited (seed : Word) (t : AutoipState) : Unlimited (begun (autoipInit seed t)) :=
  ⟨rfl, nofun, nofun⟩

-- A run is paced as its calls are, and a delay is spread where there is nothing to spread.
theorem link_local_pacing_exact (ethaddr : MacAddr) (seed : Word) (t : AutoipState)
    (events : List TimedEvent) :
    (Paced ethaddr (begun (autoipInit seed t)) events ↔
      Kept ethaddr (begun (autoipInit seed t)) events) ∧
    ∀ (set a b : Word) (s : AutoipState), (randomTimerSet set a b s).timer.interval.toNat =
      spread a b (randomTimerSet set a b s).rand ↔ Small a b (rand s).rand := by
  refine ⟨paced_iff (begun_unlimited seed t) events, fun set a b s => ?_⟩
  rw [randomTimerSet_interval]
  exact spread_iff

section Examples

def runHistory (ethaddr : MacAddr) (h : History) (events : List TimedEvent) : Option History :=
  events.foldlM (fun h e => (step ethaddr e.event h.state).map fun r => h.next r.1 r.2 e) h

-- Three seconds from call to call.
def claimed : List TimedEvent :=
  .start :: (List.range 6).map fun k => .periodic (3000 * k) (3000 * k)

-- As many conflicts with the first address as it takes, and another second.
def contested : List TimedEvent :=
  [.start, .periodic 0 0] ++ List.replicate 11 (.arpIn ⟨169, 254, 219, 133⟩) ++
    (List.range 5).map fun k => .periodic (3000 * (k + 1)) (3000 * (k + 1))

def called (time : Nat) (h : History) (p : Note → Bool) : Bool :=
  (step ownEthaddr (.periodic (BitVec.ofNat 32 time) (BitVec.ofNat 32 time)) h.state).any
    fun r => r.2.any p

-- The next address is chosen, and the second announcement sent, a millisecond later; a delay has
-- one value.
theorem nothing_paced :
    ((runHistory ownEthaddr (begun (autoipInit 1 zeroState)) contested).any fun h =>
      called 15001 h Note.chooses && decide (maxConflicts < h.counted) &&
        h.givenUp == some 15000) = true ∧
    ((runHistory ownEthaddr (begun (autoipInit 1 zeroState)) claimed).any fun h =>
      called 15001 h Note.announces && h.announced == some 15000) = true ∧
    ¬ ((randomTimerSet 0 0 1000 zeroState).timer.interval.toNat =
      spread 0 1000 (randomTimerSet 0 0 1000 zeroState).rand) ∧
    ¬ Paced ownEthaddr (begun (autoipInit 1 zeroState)) [.start, .periodic 0 0] := by
  refine ⟨by decide +kernel, by decide +kernel, by decide, fun h => ?_⟩
  have hwait := (h.2.1 0 0 rfl).wait rfl
  revert hwait
  decide

end Examples

end Xtcp.Autoip
