import Mathlib.Algebra.Ring.Nat
import Mathlib.Data.List.Induction
import Xtcp.Dhcpc.Exchange

namespace Xtcp.Dhcpc

open Channel Timer

-- The clock as a call tests its timer, and as it sets it.
structure Stamp where
  now : Word
  set : Word
  deriving DecidableEq, Repr

abbrev Log := List (Stamp × Note)

def Input.stamp (i : Input) : Stamp := ⟨i.now, i.set⟩

def Event.stamp : Event → Stamp
  | .appcall i => i.stamp
  | _ => ⟨0, 0⟩

def runStamped (useAutoip : Bool) (s : DhcpcState) (es : List Event) : DhcpcState × Log :=
  es.foldl (fun r e =>
    let q := step useAutoip r.1 e
    (q.1, r.2 ++ q.2.map fun n => (e.stamp, n))) (s, [])

def searchTicks (k : Nat) : Word := BitVec.ofNat 32 (1000 * 2 ^ min k 6)

def askTicks (k : Nat) : Word := BitVec.ofNat 32 (1000 * (k + 1))

def leaseLeft (total : Word) : Nat → Word
  | 0 => total
  | k + 1 => leaseLeft total k - leaseLeft total k / 2

-- The k + 1 discovers of one search, the last of them sent at u.
inductive Searching (useAutoip : Bool) (macAddr : MacAddr) : Nat → Word → Log → Prop where
  | first (t : Stamp) : Searching useAutoip macAddr 0 t.set
      [(t, .discover (sendDiscover macAddr zeroIpaddr))]
  | again {k : Nat} {u : Word} {ns : Log} (t : Stamp) (h : Searching useAutoip macAddr k u ns)
      (hlate : (searchTicks k).sle (t.now - u) = true) :
      Searching useAutoip macAddr (k + 1) t.set
        (ns ++ (if useAutoip ∧ k = 2 then [(t, .autoipStart)] else []) ++
          [(t, .discover (sendDiscover macAddr zeroIpaddr))])

-- The k + 1 requests for one offer.
inductive Asking (macAddr : MacAddr) (l : Lease) : Nat → Word → Log → Prop where
  | first (t : Stamp) : Asking macAddr l 0 t.set [(t, .request (sendRequest macAddr zeroIpaddr l))]
  | again {k : Nat} {u : Word} {ns : Log} (t : Stamp) (h : Asking macAddr l k u ns) (hk : k < 10)
      (hlate : (askTicks k).sle (t.now - u) = true) :
      Asking macAddr l (k + 1) t.set (ns ++ [(t, .request (sendRequest macAddr zeroIpaddr l))])

-- The k + 1 requests that ask for a lease again, of which each waits for half of what is left.
inductive Renewing (macAddr : MacAddr) (l : Lease) : Nat → Word → Log → Prop where
  | first (t : Stamp) (a : Ipaddr) :
      Renewing macAddr l 0 t.set [(t, .request (sendRequest macAddr a l))]
  | again {k : Nat} {u : Word} {ns : Log} (t : Stamp) (a : Ipaddr) (h : Renewing macAddr l k u ns)
      (hleft : clockSecond * 3 ≤ leaseLeft (leaseTicks l) (k + 1))
      (hlate : (leaseLeft (leaseTicks l) k / 2).sle (t.now - u) = true) :
      Renewing macAddr l (k + 1) t.set (ns ++ [(t, .request (sendRequest macAddr a l))])

def NotSearching (log : Log) : Prop := ∀ t m, log.getLast? ≠ some (t, .discover m)

-- What the log holds of the exchange that is under way, at each place where the thread yields.
def Paced (useAutoip : Bool) (macAddr : MacAddr) (s : DhcpcState) (log : Log) : Prop :=
  match s.pt with
  | .init => NotSearching log
  | .initwait => NotSearching log
  | .discovering => ∃ pre k ns, log = pre ++ ns ∧ NotSearching pre ∧
      Searching useAutoip macAddr k s.timer.start ns ∧ s.ticks = searchTicks k ∧
      s.timer.interval = searchTicks k
  | .selecting => ∃ pre t d k ns, log = pre ++ (t, .took dhcpOffer d) :: ns ∧
      Asking macAddr s.toLease k s.timer.start ns ∧ s.ticks = askTicks k ∧
      s.timer.interval = askTicks k
  | .bound => ∃ pre t, log = pre ++ [(t, .configured s.toLease)]
  | .renewing => ∃ pre t k ns, log = pre ++ (t, .configured s.toLease) :: ns ∧
      Renewing macAddr s.toLease k s.timer.start ns ∧
      s.ticks = leaseLeft (leaseTicks s.toLease) (k + 1) ∧
      s.timer.interval = leaseLeft (leaseTicks s.toLease) k / 2

section Ticks

theorem searchTicks_succ (k : Nat) : searchTicks (k + 1) =
    if searchTicks k < clockSecond * 60 then searchTicks k * 2 else searchTicks k := by
  rcases Nat.lt_or_ge k 6 with hk | hk
  · have hsmall : ∀ k < 6, searchTicks (k + 1) =
        if searchTicks k < clockSecond * 60 then searchTicks k * 2 else searchTicks k := by decide
    exact hsmall k hk
  · have hlast (j : Nat) (hj : 6 ≤ j) : searchTicks j = searchTicks 6 := by
      rw [searchTicks, searchTicks, Nat.min_eq_right hj, Nat.min_self]
    rw [hlast k hk, hlast (k + 1) (Nat.le_succ_of_le hk)]
    decide

theorem searchTicks_eq_four (k : Nat) : searchTicks k = clockSecond * 4 ↔ k = 2 := by
  rcases Nat.lt_or_ge k 6 with hk | hk
  · have hsmall : ∀ k < 6, searchTicks k = clockSecond * 4 ↔ k = 2 := by decide
    exact hsmall k hk
  · refine iff_of_false ?_ (by omega)
    rw [searchTicks, Nat.min_eq_right hk]
    decide

theorem askTicks_le {k : Nat} (hk : k ≤ 10) : askTicks k ≤ clockSecond * 10 ↔ k < 10 := by
  have hsmall : ∀ k ≤ 10, askTicks k ≤ clockSecond * 10 ↔ k < 10 := by decide
  exact hsmall k hk

theorem askTicks_zero : clockSecond = askTicks 0 := by decide

theorem askTicks_succ (k : Nat) : askTicks k + clockSecond = askTicks (k + 1) := by
  rw [askTicks, askTicks, clockSecond, Nat.mul_succ 1000 (k + 1), BitVec.ofNat_add]
  rfl

theorem Asking.le {macAddr : MacAddr} {l : Lease} {k : Nat} {u : Word} {ns : Log}
    (h : Asking macAddr l k u ns) : k ≤ 10 := by
  cases h with
  | first => exact Nat.zero_le _
  | again t h hk => exact hk

theorem imin_half (t : Word) : imin (t / 2) maxTicks = t / 2 := by
  have hle : (t / 2).toNat ≤ maxTicks.toNat := by
    have ht := t.isLt
    rw [BitVec.toNat_udiv]
    change t.toNat / 2 ≤ 2147483647
    omega
  rw [imin]
  split_ifs with hlt
  · rfl
  · exact BitVec.eq_of_toNat_eq (Nat.le_antisymm (Nat.le_of_not_lt hlt) hle)

end Ticks

section Logs

variable {log : Log} {t : Stamp} {n : Note}

theorem notSearching_concat (hn : ∀ m, n ≠ .discover m) : NotSearching (log ++ [(t, n)]) := by
  intro t' m hlast
  rw [List.getLast?_concat] at hlast
  exact hn m (Prod.mk.inj (Option.some.inj hlast)).2

theorem Asking.notSearching {macAddr : MacAddr} {l : Lease} {k : Nat} {u : Word} {ns : Log}
    (h : Asking macAddr l k u ns) : NotSearching (log ++ ns) := by
  cases h with
  | first => exact notSearching_concat fun _ h => Note.noConfusion h
  | again =>
    rw [← List.append_assoc]
    exact notSearching_concat fun _ h => Note.noConfusion h

theorem Renewing.notSearching {macAddr : MacAddr} {l : Lease} {k : Nat} {u : Word} {ns : Log}
    (h : Renewing macAddr l k u ns) : NotSearching (log ++ ns) := by
  cases h with
  | first => exact notSearching_concat fun _ h => Note.noConfusion h
  | again =>
    rw [← List.append_assoc]
    exact notSearching_concat fun _ h => Note.noConfusion h

end Logs

section Steps

variable {useAutoip : Bool} {macAddr : MacAddr} {i : Input} {s : DhcpcState} {log : Log}

def PacedTo (useAutoip : Bool) (macAddr : MacAddr) (log : Log) (i : Input) (r : Result) : Prop :=
  Paced useAutoip macAddr r.1 (log ++ r.2.map fun n => (i.stamp, n))

theorem PacedTo.stay (h : Paced useAutoip macAddr s log) :
    PacedTo useAutoip macAddr log i (s, []) := by
  rw [PacedTo, List.map_nil, List.append_nil]
  exact h

theorem PacedTo.cons {n : Note} {r : Result}
    (h : PacedTo useAutoip macAddr (log ++ [(i.stamp, n)]) i r) :
    PacedTo useAutoip macAddr log i (r.1, n :: r.2) := by
  rw [PacedTo, List.append_assoc] at h
  exact h

theorem paced_initwait (h : NotSearching log) :
    PacedTo useAutoip macAddr log i (initwait i s) := by
  rw [PacedTo, initwait, List.map_nil, List.append_nil]
  exact h

theorem paced_init (h : NotSearching log) (hm : s.macAddr = macAddr) :
    PacedTo useAutoip macAddr log i (init i s) := by
  subst hm
  exact ⟨log, 0, _, rfl, h, .first i.stamp, rfl, rfl⟩

theorem paced_request {pre ns : Log} {t : Stamp} {d : Datagram} {k : Nat}
    (hs : s.state = .offerReceived)
    (hask : Asking s.macAddr s.toLease k i.set
      (ns ++ [(i.stamp, .request (sendRequest s.macAddr zeroIpaddr s.toLease))]))
    (hlog : log = pre ++ (t, .took dhcpOffer d) :: ns) (hticks : s.ticks = askTicks k) :
    PacedTo useAutoip s.macAddr log i (request i s) := by
  rw [PacedTo, request, ciaddr_of_ne (by rw [hs]; decide)]
  refine ⟨pre, t, d, k, _, ?_, hask, hticks, hticks⟩
  rw [hlog, List.append_assoc]
  rfl

theorem paced_rerequest {pre ns : Log} {t : Stamp} {d : Datagram} {k : Nat}
    (hs : s.state = .offerReceived) (hm : s.macAddr = macAddr)
    (hask : Asking macAddr s.toLease k s.timer.start ns)
    (hlog : log = pre ++ (t, .took dhcpOffer d) :: ns) (hticks : s.ticks = askTicks k)
    (hlate : (askTicks k).sle (i.now - s.timer.start) = true) :
    PacedTo useAutoip macAddr log i (rerequest i s) := by
  subst hm
  rw [rerequest]
  dsimp only
  split_ifs with hmore hstate
  · rw [hticks, askTicks_le hask.le] at hmore
    exact paced_request (s := { s with ticks := s.ticks + clockSecond }) hs
      (.again i.stamp hask hmore hlate) hlog (by rw [← askTicks_succ, ← hticks])
  · exact absurd (hs ▸ by decide) hstate
  · refine paced_init ?_ rfl
    rw [hlog, ← List.singleton_append, ← List.append_assoc]
    exact hask.notSearching

theorem paced_renew {pre ns : Log} {t : Stamp} {k : Nat}
    (hrenew : ∀ a, Renewing s.macAddr s.toLease k i.set
      (ns ++ [(i.stamp, .request (sendRequest s.macAddr a s.toLease))]))
    (hlog : log = pre ++ (t, .configured s.toLease) :: ns)
    (hticks : s.ticks = leaseLeft (leaseTicks s.toLease) k) :
    PacedTo useAutoip s.macAddr log i (renew i s) := by
  rw [PacedTo, renew]
  dsimp only
  rw [imin_half, hticks]
  refine ⟨pre, t, k, _, ?_, hrenew (ciaddr i s), rfl, rfl⟩
  rw [hlog, List.append_assoc]
  rfl

theorem paced_rerenew {pre ns : Log} {t : Stamp} {k : Nat} (hm : s.macAddr = macAddr)
    (hrenew : Renewing macAddr s.toLease k s.timer.start ns)
    (hlog : log = pre ++ (t, .configured s.toLease) :: ns)
    (hticks : s.ticks = leaseLeft (leaseTicks s.toLease) (k + 1))
    (hlate : (leaseLeft (leaseTicks s.toLease) k / 2).sle (i.now - s.timer.start) = true) :
    PacedTo useAutoip macAddr log i (rerenew i s) := by
  subst hm
  rw [rerenew]
  split_ifs with hmore
  · rw [hticks] at hmore
    exact paced_renew (fun a => .again i.stamp a hrenew hmore hlate) hlog hticks
  · refine paced_init ?_ rfl
    rw [hlog, ← List.singleton_append, ← List.append_assoc]
    exact hrenew.notSearching

theorem paced_boundWait {pre : Log} {t : Stamp} (hm : s.macAddr = macAddr)
    (hlog : log = pre ++ [(t, .configured s.toLease)]) :
    PacedTo useAutoip macAddr log i (boundWait i s) := by
  subst hm
  rw [boundWait]
  split_ifs
  · rw [PacedTo, List.map_nil, List.append_nil]
    exact ⟨pre, t, hlog⟩
  · exact paced_renew (s := { s with ticks := leaseTicks s.toLease })
      (fun a => .first i.stamp a) hlog rfl

theorem paced_bound (hm : s.macAddr = macAddr) : PacedTo useAutoip macAddr log i (bound i s) :=
  .cons (paced_boundWait (i := { i with hostaddr := s.ipaddr })
    (s := { s with ticks := leaseTicks s.toLease }) hm rfl)

theorem paced_rediscover {pre ns : Log} {k : Nat} (hs : s.state = .sending)
    (hm : s.macAddr = macAddr) (hsearch : Searching useAutoip macAddr k s.timer.start ns)
    (hlog : log = pre ++ ns) (hpre : NotSearching pre) (hticks : s.ticks = searchTicks k)
    (hlate : (searchTicks k).sle (i.now - s.timer.start) = true) :
    PacedTo useAutoip macAddr log i (rediscover useAutoip i s) := by
  subst hm
  have hnext : (rediscover useAutoip i s).1.ticks = searchTicks (k + 1) ∧
      (rediscover useAutoip i s).1.timer = timerSet i.set (searchTicks (k + 1)) := by
    rw [rediscover, searchTicks_succ, ← hticks]
    dsimp only
    split_ifs <;> exact ⟨rfl, rfl⟩
  have hnotes : (rediscover useAutoip i s).2 =
      (if useAutoip ∧ k = 2 then [Note.autoipStart] else []) ++
        [.discover (sendDiscover s.macAddr zeroIpaddr)] := by
    have hfour : s.ticks = clockSecond * 4 ↔ k = 2 := hticks ▸ searchTicks_eq_four k
    have hciaddr (t : Word) : ciaddr i { s with ticks := t } = zeroIpaddr :=
      ciaddr_of_ne (by rw [hs]; decide)
    rw [rediscover]
    simp only [hfour]
    split_ifs
    all_goals exact congrArg (fun a => _ ++ [Note.discover (sendDiscover s.macAddr a)]) (hciaddr _)
  have hpt : (rediscover useAutoip i s).1.pt = .discovering := rfl
  rw [PacedTo, Paced, hpt, hnotes]
  dsimp only
  rw [hnext.1, hnext.2]
  refine ⟨pre, k + 1, _, ?_, hpre, .again i.stamp hsearch hlate, rfl, rfl⟩
  rw [hlog, List.append_assoc, List.map_append, List.append_assoc]
  split_ifs
  · rfl
  · rfl

theorem PacedTo.whenExpired {next : Result} (h : Paced useAutoip macAddr s log)
    (hnext : s.timer.interval.sle (i.now - s.timer.start) = true →
      PacedTo useAutoip macAddr log i next) :
    PacedTo useAutoip macAddr log i (whenExpired i s next) := by
  rw [Dhcpc.whenExpired]
  split_ifs with hexpired
  · exact hnext hexpired
  · exact .stay h

theorem paced_offered {d : Datagram} (hm : s.macAddr = macAddr) :
    PacedTo useAutoip macAddr log i (offered i d s) := by
  subst hm
  exact .cons (paced_request (s := { (take dhcpOffer d s).1 with
    state := .offerReceived, ticks := clockSecond }) rfl (.first i.stamp) rfl askTicks_zero)

theorem paced_handleDhcp (hs : s.Settled) (hm : s.macAddr = macAddr)
    (h : Paced useAutoip macAddr s log) :
    PacedTo useAutoip macAddr log i (handleDhcp useAutoip i s) := by
  have hpaced := h
  rw [Paced] at hpaced
  rw [DhcpcState.Settled] at hs
  rw [handleDhcp]
  cases hpt : s.pt with
  | init =>
    rw [hpt] at hpaced
    dsimp only
    split_ifs
    · exact .stay h
    · exact paced_initwait hpaced
  | initwait =>
    rw [hpt] at hpaced
    exact .whenExpired h fun _ => paced_init hpaced hm
  | discovering =>
    rw [hpt] at hpaced hs
    obtain ⟨pre, k, ns, hlog, hpre, hsearch, hticks, hinterval⟩ := hpaced
    have hwait : PacedTo useAutoip macAddr log i (whenExpired i s (rediscover useAutoip i s)) :=
      .whenExpired h fun hlate =>
        paced_rediscover hs hm hsearch hlog hpre hticks (hinterval ▸ hlate)
    cases news i s with
    | none => exact hwait
    | some r =>
      dsimp only
      split_ifs
      · exact paced_offered hm
      · exact hwait
  | selecting =>
    rw [hpt] at hpaced hs
    obtain ⟨pre, t, d, k, ns, hlog, hask, hticks, hinterval⟩ := hpaced
    have hwait : PacedTo useAutoip macAddr log i (whenExpired i s (rerequest i s)) :=
      .whenExpired h fun hlate =>
        paced_rerequest hs hm hask hlog hticks (hinterval ▸ hlate)
    cases news i s with
    | none => exact hwait
    | some r =>
      dsimp only
      split_ifs
      · exact .cons (paced_bound (s := { (take dhcpAck r.2 s).1 with state := .configReceived }) hm)
      · exact .cons (paced_initwait (notSearching_concat fun _ h => Note.noConfusion h))
      · exact hwait
  | bound =>
    rw [hpt] at hpaced
    obtain ⟨pre, t, hlog⟩ := hpaced
    exact .whenExpired h fun _ => paced_boundWait hm hlog
  | renewing =>
    rw [hpt] at hpaced
    obtain ⟨pre, t, k, ns, hlog, hrenew, hticks, hinterval⟩ := hpaced
    have hwait : PacedTo useAutoip macAddr log i (whenExpired i s (rerenew i s)) :=
      .whenExpired h fun hlate =>
        paced_rerenew hm hrenew hlog hticks (hinterval ▸ hlate)
    cases news i s with
    | none => exact hwait
    | some r =>
      dsimp only
      split_ifs
      · exact .cons (paced_bound (s := (take dhcpAck r.2 s).1) hm)
      · exact .cons (paced_init (notSearching_concat fun _ h => Note.noConfusion h) hm)
      · exact hwait

end Steps

theorem runStamped_concat (useAutoip : Bool) (s : DhcpcState) (es : List Event) (e : Event) :
    runStamped useAutoip s (es ++ [e]) =
      ((step useAutoip (runStamped useAutoip s es).1 e).1, (runStamped useAutoip s es).2 ++
        (step useAutoip (runStamped useAutoip s es).1 e).2.map fun n => (e.stamp, n)) := by
  rw [runStamped, List.foldl_concat]
  rfl

-- The stamps change nothing.
theorem runStamped_run (useAutoip : Bool) (s : DhcpcState) (es : List Event) :
    (runStamped useAutoip s es).1 = (run useAutoip s es).1 ∧
      (runStamped useAutoip s es).2.map Prod.snd = (run useAutoip s es).2 := by
  induction es using List.reverseRecOn with
  | nil => exact ⟨rfl, rfl⟩
  | append_singleton es e ih =>
    rw [runStamped_concat, run_concat, ← ih.1, ← ih.2, List.map_append, List.map_map]
    exact ⟨rfl, congrArg _ (List.map_id _)⟩

-- Every search, every request for an offer and every renewal keeps its times.
theorem pacing (useAutoip : Bool) (macAddr : MacAddr) (s : DhcpcState) (es : List Event) :
    Paced useAutoip macAddr (runStamped useAutoip (dhcpcInit macAddr s) es).1
      (runStamped useAutoip (dhcpcInit macAddr s) es).2 := by
  induction es using List.reverseRecOn with
  | nil => exact fun _ _ h => absurd h.symm (Option.some_ne_none _)
  | append_singleton es e ih =>
    rw [runStamped_concat]
    cases e with
    | start => exact notSearching_concat fun _ h => Note.noConfusion h
    | stop => exact notSearching_concat fun _ h => Note.noConfusion h
    | appcall i =>
      have hleads := leads_run useAutoip macAddr s es
      have hsame := (runStamped_run useAutoip (dhcpcInit macAddr s) es).1
      exact paced_handleDhcp (hsame ▸ hleads.settled) (hsame ▸ hleads.macAddr) ih

end Xtcp.Dhcpc
