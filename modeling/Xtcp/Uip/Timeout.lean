import Mathlib.Data.List.FinRange
import Mathlib.Data.List.Induction
import Mathlib.Logic.Function.Iterate
import Xtcp.Uip.ClockCalls

namespace Xtcp.Uip
open Channel Listen

variable {nT nU : Nat}

def Clock.tick (k : Clock) : Clock :=
  if k.timer = 0 then { k with timer := rexmitTimer k.nrtx, nrtx := k.nrtx + 1 }
  else { k with timer := k.timer - 1 }

-- The periodic calls from the retransmission n on.
def backoff (n : Nat) : Nat :=
  (((List.range maxRtx.toNat).drop n).map fun m =>
    (rexmitTimer (BitVec.ofNat 8 m)).toNat + 1).sum

-- The periodic calls that it takes to give the connection up.
def Clock.remaining (k : Clock) : Nat := k.timer.toNat + 1 + backoff k.nrtx.toNat

-- Something is sent and not acknowledged, and the connection is past its opening.
structure Clock.Outstanding (k : Clock) : Prop where
  len : k.len ≠ 0
  nrtx : k.nrtx ≤ maxRtx
  state : k.state ∈ [TcpState.established, .finWait1, .closing, .lastAck]

section Ticks

variable {k : Clock}

theorem backoff_succ : ∀ n < maxRtx.toNat,
    backoff n = (rexmitTimer (BitVec.ofNat 8 n)).toNat + 1 + backoff (n + 1) := by
  decide

theorem backoff_pos : ∀ n < maxRtx.toNat, 0 < backoff n := by
  decide

theorem remaining_eq_one (h : k.nrtx ≤ maxRtx) :
    k.remaining = 1 ↔ k.timer = 0 ∧ k.nrtx = maxRtx := by
  have hzero : k.timer = 0 ↔ k.timer.toNat = 0 :=
    ⟨fun h => by rw [h]; rfl, fun h => BitVec.eq_of_toNat_eq h⟩
  have hmax : k.nrtx = maxRtx ↔ k.nrtx.toNat = maxRtx.toNat :=
    ⟨congrArg BitVec.toNat, BitVec.eq_of_toNat_eq⟩
  rw [hzero, hmax, Clock.remaining]
  have hle : k.nrtx.toNat ≤ maxRtx.toNat := h
  constructor
  · intro hone
    refine ⟨by omega, ?_⟩
    by_contra hne
    have hpos := backoff_pos k.nrtx.toNat (by omega)
    omega
  · rintro ⟨htimer, hnrtx⟩
    rw [htimer, hnrtx]
    rfl

theorem remaining_tick (h : k.nrtx ≤ maxRtx) (hone : k.remaining ≠ 1) :
    k.tick.remaining + 1 = k.remaining ∧ k.tick.nrtx ≤ maxRtx := by
  have hle : k.nrtx.toNat ≤ maxRtx.toNat := h
  rw [Clock.tick]
  split_ifs with htimer
  · have hlt : k.nrtx.toNat < maxRtx.toNat := by
      rcases Nat.lt_or_eq_of_le hle with hlt | heq
      · exact hlt
      · exact absurd ((remaining_eq_one h).mpr ⟨htimer, BitVec.eq_of_toNat_eq heq⟩) hone
    have hsucc : (k.nrtx + 1).toNat = k.nrtx.toNat + 1 := by
      have hmax : maxRtx.toNat = 8 := rfl
      rw [BitVec.toNat_add]
      exact Nat.mod_eq_of_lt (by change k.nrtx.toNat + 1 < 256; omega)
    have hback := backoff_succ k.nrtx.toNat hlt
    rw [BitVec.ofNat_toNat, BitVec.setWidth_eq] at hback
    refine ⟨?_, ?_⟩
    · have hzero : k.timer.toNat = 0 := by rw [htimer]; rfl
      rw [Clock.remaining, Clock.remaining, hsucc, hback, hzero]
      dsimp only
      omega
    · change (k.nrtx + 1).toNat ≤ maxRtx.toNat
      omega
  · have hpos : 0 < k.timer.toNat := by
      rcases Nat.eq_zero_or_pos k.timer.toNat with hz | hpos
      · exact absurd (BitVec.eq_of_toNat_eq hz) htimer
      · exact hpos
    have hpred : (k.timer - 1).toNat = k.timer.toNat - 1 := by
      have hlt := k.timer.isLt
      rw [BitVec.toNat_sub]
      change (2 ^ 8 - 1 + k.timer.toNat) % 2 ^ 8 = k.timer.toNat - 1
      omega
    refine ⟨?_, h⟩
    rw [Clock.remaining, Clock.remaining, hpred]
    dsimp only
    omega

theorem Clock.Outstanding.tick (h : k.Outstanding) (hone : k.remaining ≠ 1) :
    k.tick.Outstanding := by
  refine ⟨?_, (remaining_tick h.nrtx hone).2, ?_⟩
  · rw [Clock.tick]
    split_ifs
    · exact h.len
    · exact h.len
  · rw [Clock.tick]
    split_ifs
    · exact h.state
    · exact h.state

theorem Clock.Outstanding.held (h : k.Outstanding) : k.Held := by
  have hstate := h.state
  refine ⟨?_, ?_⟩
  · intro hc
    rw [hc] at hstate
    exact absurd hstate (by decide)
  · intro ht
    rw [ht] at hstate
    exact absurd hstate (by decide)

end Ticks

section Periodic

variable {i : Fin nT} {k : Clock} {w : Stack nT nU} {cfg : Config}

-- The connection is closed, its client told, and a reset sent.
def GaveUp (cfg : Config) (i : Fin nT) (st : TcpState) (w : Stack nT nU) : Prop :=
  ∃ v : Stack nT nU, v.state i = st ∧ w = tcpSend cfg i .rstAck 0 (xtcpdAppcall cfg (.tcp i)
    (withFlags { Flags.none with timedout := true } (v.kill i)))

theorem clock_retransmit_self (hk : k.Outstanding) (h : w.clock i = k) :
    (retransmit cfg i w).clock i = { k with timer := rexmitTimer k.nrtx, nrtx := k.nrtx + 1 } := by
  have hset : (w.setTcp i fun c =>
      { c with timer := rexmitTimer c.nrtx, nrtx := c.nrtx + 1 }).clock i =
        { k with timer := rexmitTimer k.nrtx, nrtx := k.nrtx + 1 } := by
    rw [Stack.clock, Stack.setTcp, ← h]
    dsimp only
    rw [Function.update_self]
    rfl
  have hheld : Clock.Held { k with timer := rexmitTimer k.nrtx, nrtx := k.nrtx + 1 } := hk.held
  unfold retransmit
  dsimp only
  split
  case h_3 => exact clock_apprexmit (clock_xtcpdAppcall (w := withFlags _ _) hheld hset)
  all_goals exact hset

theorem outstandingTimer_cases (hk : k.Outstanding) (h : w.clock i = k) :
    (k.remaining ≠ 1 ∧ (outstandingTimer cfg i w).clock i = k.tick) ∨
      (k.remaining = 1 ∧ GaveUp cfg i k.state (outstandingTimer cfg i w)) := by
  have hone := remaining_eq_one hk.nrtx
  have hset : (w.setTcp i fun c => { c with timer := c.timer - 1 }).clock i =
      { k with timer := k.timer - 1 } := by
    rw [Stack.clock, Stack.setTcp, ← h]
    dsimp only
    rw [Function.update_self]
    rfl
  have htimer : (w.tcp i).timer = k.timer := congrArg Clock.timer h
  unfold outstandingTimer
  dsimp only
  generalize (w.setTcp i fun c => { c with timer := c.timer - 1 }) = v at hset ⊢
  have hnrtx : (v.tcp i).nrtx = k.nrtx := congrArg Clock.nrtx hset
  have hstate : (v.tcp i).tcpstateflags.state = k.state := congrArg Clock.state hset
  rw [htimer, hnrtx]
  by_cases hzero : k.timer = 0
  · rw [if_pos hzero]
    by_cases hmax : k.nrtx = maxRtx
    · rw [if_pos (.inl hmax)]
      exact .inr ⟨hone.mpr ⟨hzero, hmax⟩, v, hstate, rfl⟩
    · have hsyn : ¬ (k.nrtx = maxRtx ∨ (((v.tcp i).tcpstateflags = ⟨.synSent, false⟩ ∨
          (v.tcp i).tcpstateflags = ⟨.synRcvd, false⟩) ∧ k.nrtx = maxSynRtx)) := by
        rintro (hm | ⟨hs | hs, -⟩)
        · exact hmax hm
        · rw [hs] at hstate
          exact absurd hk.state (by rw [← hstate]; decide)
        · rw [hs] at hstate
          exact absurd hk.state (by rw [← hstate]; decide)
      rw [if_neg hsyn]
      refine .inl ⟨fun hr => hmax (hone.mp hr).2, ?_⟩
      have hk' : Clock.Outstanding { k with timer := k.timer - 1 } := ⟨hk.len, hk.nrtx, hk.state⟩
      rw [Clock.tick, if_pos hzero]
      exact Eq.trans (clock_retransmit_self hk' hset) rfl
  · rw [if_neg hzero]
    refine .inl ⟨fun hr => hzero (hone.mp hr).1, ?_⟩
    rw [Clock.tick, if_neg hzero]
    exact hset

theorem periodic_cases (hk : k.Outstanding) (h : w.clock i = k) :
    (k.remaining ≠ 1 ∧ (periodic cfg i w).clock i = k.tick) ∨
      (k.remaining = 1 ∧ GaveUp cfg i k.state (periodic cfg i w)) := by
  have hstate : (w.tcp i).tcpstateflags.state = k.state := congrArg Clock.state h
  have hlen : (w.tcp i).len ≠ 0 := by
    have hlen : (w.tcp i).len = k.len := congrArg Clock.len h
    rw [hlen]
    exact hk.len
  have hwait : ¬ ((w.tcp i).tcpstateflags = ⟨.timeWait, false⟩ ∨
      (w.tcp i).tcpstateflags = ⟨.finWait2, false⟩) := by
    rintro (hs | hs)
    · rw [hs] at hstate
      exact absurd hk.state (by rw [← hstate]; decide)
    · rw [hs] at hstate
      exact absurd hk.state (by rw [← hstate]; decide)
  have hclosed : ¬ (w.tcp i).tcpstateflags = ⟨.closed, false⟩ := by
    intro hs
    rw [hs] at hstate
    exact absurd hk.state (by rw [← hstate]; decide)
  rw [periodic, periodicConn]
  dsimp only
  rw [if_neg hwait, if_neg hclosed, if_pos hlen]
  exact outstandingTimer_cases hk h

end Periodic

section Inputs

variable {i : Fin nT} {k : Clock} {w : Stack nT nU} {cfg : Config}

theorem clock_pollTcp (hk : k.Outstanding) (h : w.clock i = k) (j : Fin nT) :
    (pollTcp cfg w j).clock i = k := by
  unfold pollTcp
  split
  · by_cases hij : i = j
    · subst hij
      have hlen : (w.tcp i).len ≠ 0 := by
        have hlen : (w.tcp i).len = k.len := congrArg Clock.len h
        rw [hlen]
        exact hk.len
      rw [pollConn, if_neg fun hp => hlen hp.2]
      exact h
    · exact clock_pollConn hij hk.held h
  · exact h

theorem clock_pollUdp (hk : k.Held) (h : w.clock i = k) (l : Fin nU) :
    (pollUdp cfg w l).clock i = k := by
  unfold pollUdp
  split
  · exact clock_flush (clock_udpPeriodic hk h)
  · exact h

theorem clock_ackUdp (hk : k.Held) (h : w.clock i = k) (l : Fin nU) :
    (ackUdp cfg w l).clock i = k := by
  unfold ackUdp
  split
  · exact clock_flush (clock_udpAckdata hk h)
  · exact h

theorem clock_perform (hk : k.Outstanding) (h : w.clock i = k) {input : Input}
    (hseg : ∀ seg, input = .segment seg → seg.matches (w.tcp i) = false)
    (hinput : input ≠ .periodicTimer) : (perform cfg w input).clock i = k := by
  have hheld := hk.held
  cases input with
  | serviceClients cs => exact clock_runCommands hheld cfg h cs
  | checkConnectionPoll =>
    exact clock_foldl (fun l _ v hv => clock_pollUdp hheld hv l)
      (clock_foldl (fun j _ v hv => clock_pollTcp hk hv j) h)
  | segment seg => exact clock_tcpInput hheld h (hseg seg rfl)
  | datagram d => exact clock_flush (clock_udpInput hheld h d)
  | arpPacket p =>
    exact clock_foldl (w := { w with arp := uipArpArpin w.arp p })
      (fun l _ v hv => clock_flush (clock_udpArpEvent hheld hv)) h
  | udpAcks => exact clock_foldl (fun l _ v hv => clock_ackUdp hheld hv l) h
  | periodicTimer => exact absurd rfl hinput
  | _ => exact h

theorem perform_timer_cases (hk : k.Outstanding) (h : w.clock i = k) :
    (k.remaining ≠ 1 ∧ (perform cfg w .periodicTimer).clock i = k.tick) ∨
      (k.remaining = 1 ∧ ∃ (v : Stack nT nU) (post : List (Fin nT)), GaveUp cfg i k.state v ∧
        perform cfg w .periodicTimer = post.foldl (fun w j => periodic cfg j w) v) := by
  obtain ⟨pre, post, hsplit⟩ := List.append_of_mem (List.mem_finRange i)
  have hnodup : (pre ++ i :: post).Nodup := hsplit ▸ List.nodup_finRange nT
  obtain ⟨hnot, -⟩ := List.nodup_cons.mp (List.nodup_middle.mp hnodup)
  have hother {xs : List (Fin nT)} {k' : Clock} (hk' : k'.Held) (hxs : i ∉ xs) :
      ∀ j ∈ xs, ∀ v : Stack nT nU, v.clock i = k' → (periodic cfg j v).clock i = k' :=
    fun j hj v hv => clock_periodic (fun hij => hxs (hij ▸ hj)) hk' hv
  have hudp : ((List.finRange nU).foldl (fun w l => flush (udpPeriodic cfg l w)) w).clock i = k :=
    clock_foldl (fun l _ v hv => clock_flush (clock_udpPeriodic hk.held hv)) h
  have hpre := clock_foldl (hother hk.held fun hi => hnot (List.mem_append_left _ hi)) hudp
  rw [perform, xtcpProcessPeriodicTimer, hsplit, List.foldl_append, List.foldl_cons]
  rcases periodic_cases hk hpre with ⟨hone, htick⟩ | ⟨hone, hup⟩
  · exact .inl ⟨hone, clock_foldl (hother (hk.tick hone).held
      fun hi => hnot (List.mem_append_right _ hi)) htick⟩
  · exact .inr ⟨hone, _, post, hup, rfl⟩

end Inputs

section Runs

variable {i : Fin nT} {cfg : Config}

def ticks (inputs : List (Env × Input)) : Nat :=
  inputs.countP fun input => input.2 == .periodicTimer

-- No segment comes in for the connection.
def Silent (cfg : Config) (w : Stack nT nU) (i : Fin nT) (inputs : List (Env × Input)) : Prop :=
  ∀ pre env seg post, inputs = pre ++ (env, .segment seg) :: post →
    seg.matches ((run cfg w pre).tcp i) = false

theorem ticks_concat (inputs : List (Env × Input)) (input : Env × Input) :
    ticks (inputs ++ [input]) = ticks inputs + if input.2 = .periodicTimer then 1 else 0 := by
  rw [ticks, List.countP_append, List.countP_singleton]
  simp only [beq_iff_eq]
  rfl

theorem run_concat (cfg : Config) (w : Stack nT nU) (inputs : List (Env × Input))
    (input : Env × Input) :
    run cfg w (inputs ++ [input]) = step cfg (run cfg w inputs) input :=
  List.foldl_concat ..

theorem iterate_tick {k : Clock} (h : k.Outstanding) {n : Nat} (hn : n < k.remaining) :
    (Clock.tick^[n] k).Outstanding ∧ (Clock.tick^[n] k).remaining + n = k.remaining ∧
      (Clock.tick^[n] k).state = k.state := by
  induction n with
  | zero => exact ⟨h, rfl, rfl⟩
  | succ n ih =>
    obtain ⟨hout, hrem, hstate⟩ := ih (by omega)
    have hone : (Clock.tick^[n] k).remaining ≠ 1 := by omega
    rw [Function.iterate_succ_apply']
    refine ⟨hout.tick hone, ?_, ?_⟩
    · have hnext := (remaining_tick hout.nrtx hone).1
      omega
    · rw [← hstate, Clock.tick]
      split_ifs <;> rfl

theorem clock_run {w : Stack nT nU} (hout : (w.clock i).Outstanding)
    {inputs : List (Env × Input)} (hsilent : Silent cfg w i inputs)
    (hn : ticks inputs < (w.clock i).remaining) :
    (run cfg w inputs).clock i = Clock.tick^[ticks inputs] (w.clock i) := by
  induction inputs using List.reverseRecOn with
  | nil => rfl
  | append_singleton inputs input ih =>
    have hpre : Silent cfg w i inputs := fun pre env seg post heq =>
      hsilent pre env seg (post ++ [input]) (by rw [heq]; simp)
    rw [ticks_concat] at hn ⊢
    rw [run_concat, step]
    have hih := ih hpre (by omega)
    obtain ⟨hout', hrem, -⟩ := iterate_tick hout (n := ticks inputs) (by omega)
    by_cases htimer : input.2 = .periodicTimer
    · rw [if_pos htimer] at hn ⊢
      rw [htimer, Function.iterate_succ_apply']
      rcases perform_timer_cases (w := { run cfg w inputs with env := input.1 }) hout'
        hih with ⟨-, hclock⟩ | ⟨hone, -⟩
      · exact hclock
      · omega
    · rw [if_neg htimer, Nat.add_zero]
      refine clock_perform (w := { run cfg w inputs with env := input.1 }) hout' hih ?_ htimer
      intro seg hseg
      exact hsilent inputs input.1 seg [] (by rw [← hseg])

theorem backoff_zero : backoff 0 = 245 := by decide

-- A connection whose peer is silent is retransmitted at fixed calls of the timer and then given up.
theorem gives_up {w : Stack nT nU} (hout : (w.clock i).Outstanding)
    {inputs : List (Env × Input)} (hsilent : Silent cfg w i inputs) :
    (ticks inputs < (w.clock i).remaining →
      (run cfg w inputs).clock i = Clock.tick^[ticks inputs] (w.clock i)) ∧
    (ticks inputs + 1 = (w.clock i).remaining → ∀ env, ∃ (v : Stack nT nU) (post : List (Fin nT)),
      GaveUp cfg i (w.state i) v ∧ step cfg (run cfg w inputs) (env, .periodicTimer) =
        post.foldl (fun w j => periodic cfg j w) v) ∧
    ((w.clock i).nrtx = 0 → (w.clock i).remaining = (w.clock i).timer.toNat + 246) := by
  refine ⟨clock_run hout hsilent, fun hn env => ?_, fun hzero => ?_⟩
  · obtain ⟨hout', hrem, hstate⟩ := iterate_tick hout (n := ticks inputs) (by omega)
    have hclock := clock_run hout hsilent (by omega)
    rcases perform_timer_cases (w := { run cfg w inputs with env := env }) hout' hclock
      with ⟨hone, -⟩ | ⟨-, v, post, hup, heq⟩
    · omega
    · rw [hstate] at hup
      exact ⟨v, post, hup, heq⟩
  · have hnrtx : (w.clock i).nrtx.toNat = 0 := by rw [hzero]; rfl
    rw [Clock.remaining, hnrtx, backoff_zero]

def waitingStack : Stack 1 1 :=
  (uipInit 1 1 1 1 1 8 false).setTcp ⟨0, Nat.one_pos⟩ fun c =>
    { c with len := 100, timer := 3, rto := 3, tcpstateflags := ⟨.established, false⟩ }

def timerCalls (n : Nat) : List (Env × Input) :=
  List.replicate n (⟨[], [], [], []⟩, .periodicTimer)

theorem gives_up_waiting :
    (run ⟨1460, 512, 1460, false, false⟩ waitingStack (timerCalls 5)).clock 0 =
    ⟨2, 1, 100, .established⟩ := by
  have hout : (waitingStack.clock 0).Outstanding := ⟨by decide, by decide, by decide⟩
  have hsilent : Silent ⟨1460, 512, 1460, false, false⟩ waitingStack 0 (timerCalls 5) := by
    intro pre env seg post heq
    have hmem : (env, Input.segment seg) ∈ timerCalls 5 := by rw [heq]; simp
    exact Input.noConfusion (congrArg Prod.snd (List.eq_of_mem_replicate hmem))
  rw [(gives_up hout hsilent).1 (by decide)]
  decide

end Runs

end Xtcp.Uip
