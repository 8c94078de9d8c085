import Mathlib.Data.List.Destutter
import Mathlib.Data.List.Induction
import Xtcp.Network.Address

namespace Xtcp.Network

open Channel Timer

-- What one client has been told of the interface, and what the checks have found.
def toldTo (linknum : Nat) : Note → Option Bool
  | .told n up => if n = linknum then some up else none
  | _ => none

def found : Note → Option Bool
  | .checked up => some up
  | _ => none

def told (linknum : Nat) (notes : List Note) : List Bool := notes.filterMap (toldTo linknum)

def checks (notes : List Note) : List Bool := notes.filterMap found

section Destutter

variable {α : Type} [DecidableEq α]

theorem destutter'_concat (a x : α) (xs : List α) :
    (xs ++ [x]).destutter' (· ≠ ·) a =
      xs.destutter' (· ≠ ·) a ++ if some x ≠ (a :: xs).getLast? then [x] else [] := by
  induction xs generalizing a with
  | nil =>
    by_cases h : a = x
    · simp [h]
    · simp [h, Ne.symm h]
  | cons y ys ih =>
    rw [List.cons_append, List.getLast?_cons_cons]
    by_cases h : a = y
    · subst h
      rw [List.destutter'_cons_neg _ (not_not.mpr rfl),
        List.destutter'_cons_neg _ (not_not.mpr rfl)]
      exact ih a
    · rw [List.destutter'_cons_pos _ h, List.destutter'_cons_pos _ h, ih y]
      rfl

theorem destutter_concat (xs : List α) (x : α) :
    (xs ++ [x]).destutter (· ≠ ·) =
      xs.destutter (· ≠ ·) ++ if some x ≠ xs.getLast? then [x] else [] := by
  cases xs with
  | nil => rfl
  | cons a xs => exact destutter'_concat a x xs

theorem getLast?_destutter (xs : List α) : (xs.destutter (· ≠ ·)).getLast? = xs.getLast? := by
  induction xs using List.reverseRecOn with
  | nil => rfl
  | append_singleton xs x ih =>
    rw [destutter_concat, List.getLast?_concat]
    split_ifs with h
    · exact List.getLast?_concat
    · rw [List.append_nil, ih]
      exact (not_not.mp h).symm

end Destutter

section Telling

variable {b : Build} {s s' : NetState} {notes new : List Note} {i : Nat}

-- A step other than a check tells nobody anything.
def Quiet (s s' : NetState) (new : List Note) : Prop :=
  s'.prevIfstate = s.prevIfstate ∧ ∀ n ∈ new, found n = none ∧ ∀ i, toldTo i n = none

theorem Quiet.refl (s : NetState) : Quiet s s [] := ⟨rfl, fun _ hn => absurd hn List.not_mem_nil⟩

theorem quiet_component {α : Type} {f : α → Note} {xs : List α}
    (hprev : s'.prevIfstate = s.prevIfstate)
    (hf : ∀ x, found (f x) = none ∧ ∀ i, toldTo i (f x) = none) : Quiet s s' (xs.map f) := by
  refine ⟨hprev, fun n hn => ?_⟩
  obtain ⟨x, -, rfl⟩ := List.mem_map.mp hn
  exact hf x

theorem onDhcp_prevIfstate (n : Dhcpc.Note) : (onDhcp b s n).prevIfstate = s.prevIfstate := by
  cases n with
  | configured l =>
    rw [onDhcp, dhcpcConfigured]
    split_ifs <;> rfl
  | _ => rfl

theorem onAutoip_prevIfstate (n : Autoip.Note) : (onAutoip s n).prevIfstate = s.prevIfstate := by
  cases n with
  | configured a =>
    rw [onAutoip, autoipConfigured]
    split_ifs <;> rfl
  | _ => rfl

theorem foldl_prevIfstate {α : Type} {f : NetState → α → NetState}
    (hf : ∀ s x, (f s x).prevIfstate = s.prevIfstate) (xs : List α) :
    (xs.foldl f s).prevIfstate = s.prevIfstate := by
  induction xs generalizing s with
  | nil => rfl
  | cons x xs ih => exact ih.trans (hf s x)

theorem quiet_autoip (q : Autoip.AutoipState × List Autoip.Note) :
    Quiet s (onAutoipResult s q).1 (onAutoipResult s q).2 :=
  quiet_component (foldl_prevIfstate (fun _ => onAutoip_prevIfstate) q.2) fun _ =>
    ⟨rfl, fun _ => rfl⟩

theorem quiet_dhcp (i : Dhcpc.Input) : Quiet s (dhcpcAppcall b i s).1 (dhcpcAppcall b i s).2 := by
  rw [dhcpcAppcall]
  split_ifs
  · exact quiet_component (foldl_prevIfstate (fun _ => onDhcp_prevIfstate) _) fun _ =>
      ⟨rfl, fun _ => rfl⟩
  · exact .refl s

theorem Quiet.append {s'' : NetState} {new' : List Note} (h : Quiet s s' new)
    (h' : Quiet s' s'' new') : Quiet s s'' (new ++ new') :=
  ⟨h'.1.trans h.1, fun n hn => (List.mem_append.mp hn).elim (h.2 n) (h'.2 n)⟩

theorem quiet_single {n : Note} (hprev : s'.prevIfstate = s.prevIfstate) (hfound : found n = none)
    (htold : ∀ i, toldTo i n = none) : Quiet s s' [n] := by
  refine ⟨hprev, fun m hm => ?_⟩
  rw [List.mem_singleton.mp hm]
  exact ⟨hfound, htold⟩

theorem quiet_dhcpcStop : Quiet s (dhcpcStop b s).1 (dhcpcStop b s).2 := by
  rw [dhcpcStop]
  split_ifs
  · exact quiet_single rfl rfl fun _ => rfl
  · exact .refl s

theorem quiet_dhcpcStart : Quiet s (dhcpcStart b s).1 (dhcpcStart b s).2 := by
  rw [dhcpcStart]
  split_ifs
  · exact quiet_single rfl rfl fun _ => rfl
  · exact .refl s

theorem autoipStop_prevIfstate : (autoipStop b s).prevIfstate = s.prevIfstate := by
  rw [autoipStop]
  split_ifs <;> rfl

theorem autoipLinkup_prevIfstate : (autoipLinkup b s).prevIfstate = s.prevIfstate := by
  rw [autoipLinkup]
  split_ifs
  · rfl
  · exact autoipStop_prevIfstate

theorem quiet_linkdown : Quiet s (uipLinkdown b s).1 (uipLinkdown b s).2 := by
  have hstop := quiet_dhcpcStop (b := b) (s := { s with dhcpDone := false })
  have hdown : Quiet s (uipLinkdown b s).1 [.linkdown] :=
    quiet_single (autoipStop_prevIfstate.trans hstop.1) rfl fun _ => rfl
  exact ⟨hdown.1, fun n hn => (List.mem_cons.mp hn).elim
    (fun heq => hdown.2 n (List.mem_singleton.mpr heq)) (hstop.2 n)⟩

theorem quiet_linkup : Quiet s (uipLinkup b s).1 (uipLinkup b s).2 := by
  have hdown : (if s.ifstate then uipXtcpDown s else s).prevIfstate = s.prevIfstate := by
    split_ifs <;> rfl
  rw [uipLinkup]
  dsimp only
  generalize (if s.ifstate then uipXtcpDown s else s) = t at hdown ⊢
  split
  · exact quiet_single hdown rfl fun _ => rfl
  · have hset : Quiet s { t with dhcpDone := false } [.linkup] :=
      quiet_single hdown rfl fun _ => rfl
    have hstop := hset.append (quiet_dhcpcStop (b := b))
    have hautoip : Quiet s (autoipLinkup b (dhcpcStop b { t with dhcpDone := false }).1) _ :=
      ⟨autoipLinkup_prevIfstate.trans hstop.1, hstop.2⟩
    exact hautoip.append quiet_dhcpcStart

theorem quiet_step {e : Event} {r : Result} (he : e ≠ .check) (hs : step b s e = some r) :
    Quiet s r.1 r.2 := by
  cases e with
  | check => exact absurd rfl he
  | linkup =>
    obtain rfl := Option.some.inj hs
    exact quiet_linkup
  | linkdown =>
    obtain rfl := Option.some.inj hs
    exact quiet_linkdown
  | dhcp i =>
    obtain rfl := Option.some.inj hs
    exact quiet_dhcp i
  | periodic now set =>
    rw [step, autoipPeriodic] at hs
    split_ifs at hs
    · obtain ⟨q, -, rfl⟩ := Option.map_eq_some_iff.mp hs
      exact quiet_autoip q
    · obtain rfl := Option.some.inj hs
      exact .refl s
  | arpIn a =>
    rw [step, autoipArpIn] at hs
    split_ifs at hs
    · obtain ⟨q, -, rfl⟩ := Option.map_eq_some_iff.mp hs
      exact quiet_autoip q
    · obtain rfl := Option.some.inj hs
      exact .refl s

theorem Quiet.checks (h : Quiet s s' new) : checks (notes ++ new) = checks notes := by
  rw [Network.checks, List.filterMap_append,
    List.filterMap_eq_nil_iff.mpr fun n hn => (h.2 n hn).1, List.append_nil]
  rfl

theorem Quiet.told (h : Quiet s s' new) : told i (notes ++ new) = told i notes := by
  rw [Network.told, List.filterMap_append,
    List.filterMap_eq_nil_iff.mpr fun n hn => (h.2 n hn).2 i, List.append_nil]
  rfl

theorem told_tell (up : Bool) (p : Option Bool) (n k : Nat) :
    told i (((List.replicate n p).zipIdx k).flatMap (tell up)) =
      if k ≤ i ∧ i < k + n ∧ some up ≠ p then [up] else [] := by
  induction n generalizing k with
  | zero => rw [if_neg (by omega)]; rfl
  | succ n ih =>
    rw [List.replicate_succ, List.zipIdx_cons, List.flatMap_cons, told, List.filterMap_append]
    have htail := ih (k + 1)
    rw [told] at htail
    rw [htail, tell]
    by_cases hp : some up ≠ p
    · rw [if_pos hp]
      by_cases hk : k = i
      · subst hk
        rw [if_neg (by omega), if_pos ⟨Nat.le_refl k, by omega, hp⟩]
        simp [toldTo]
      · have hiff : (k + 1 ≤ i ∧ i < k + 1 + n ∧ some up ≠ p) ↔
            (k ≤ i ∧ i < k + (n + 1) ∧ some up ≠ p) := by
          rw [← and_assoc, ← and_assoc]
          exact and_congr_left' (by omega)
        rw [if_congr hiff rfl rfl]
        simp [toldTo, hk]
    · rw [if_neg hp, if_neg fun h => hp h.2.2, if_neg fun h => hp h.2.2]
      rfl

-- Every client has been told what the last check has found.
structure Informed (clients : Nat) (s : NetState) (notes : List Note) : Prop where
  prevIfstate : s.prevIfstate = List.replicate clients (checks notes).getLast?
  told : ∀ i < clients, told i notes = (checks notes).destutter (· ≠ ·)

theorem Informed.quiet {clients : Nat} (h : Informed clients s notes) (hq : Quiet s s' new) :
    Informed clients s' (notes ++ new) := by
  refine ⟨?_, fun i hi => ?_⟩
  · rw [hq.1, hq.checks]
    exact h.prevIfstate
  · rw [hq.told, hq.checks]
    exact h.told i hi

theorem checks_checkstate :
    checks (notes ++ (uipXtcpCheckstate s).2) = checks notes ++ [s.ifstate] := by
  have hnone : ∀ n ∈ s.prevIfstate.zipIdx.flatMap (tell s.ifstate), found n = none := by
    intro n hn
    obtain ⟨p, -, hp⟩ := List.mem_flatMap.mp hn
    rw [tell] at hp
    split_ifs at hp
    · obtain rfl := List.mem_singleton.mp hp
      rfl
    · exact absurd hp List.not_mem_nil
  rw [checks, List.filterMap_append, uipXtcpCheckstate, List.filterMap_cons]
  dsimp only [found]
  rw [List.filterMap_eq_nil_iff.mpr hnone]
  rfl

theorem Informed.check {clients : Nat} (h : Informed clients s notes) :
    Informed clients (uipXtcpCheckstate s).1 (notes ++ (uipXtcpCheckstate s).2) := by
  refine ⟨?_, fun i hi => ?_⟩
  · rw [checks_checkstate, List.getLast?_concat, uipXtcpCheckstate, h.prevIfstate]
    dsimp only
    rw [List.map_replicate]
    split_ifs with heq
    · rfl
    · rw [not_not.mp heq]
  · have hnew : Network.told i (uipXtcpCheckstate s).2 =
        if some s.ifstate ≠ (checks notes).getLast? then [s.ifstate] else [] := by
      have htell := told_tell (i := i) s.ifstate (checks notes).getLast? clients 0
      rw [← h.prevIfstate] at htell
      refine Eq.trans htell ?_
      by_cases hp : some s.ifstate ≠ (checks notes).getLast?
      · rw [if_pos hp, if_pos ⟨Nat.zero_le i, by omega, hp⟩]
      · rw [if_neg hp, if_neg fun h => hp h.2.2]
    rw [checks_checkstate, destutter_concat, ← h.told i hi, ← hnew]
    exact List.filterMap_append

end Telling

end Xtcp.Network
