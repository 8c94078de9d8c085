import Mathlib.Data.List.Induction
import Xtcp.Uip.Server

namespace Xtcp.ArpCache

open Channel Uip

-- The slot that uip_arp_update writes.
def slotOf (arp : Arp) (a : Ipaddr) : Nat :=
  match arp.table.findIdx? fun e => hostUsed e.ipaddr && a == e.ipaddr with
  | some i => i
  | none =>
    match arp.table.findIdx? fun e => hostUnused e.ipaddr with
    | some i => i
    | none => oldestEntry arp

-- The search of uip_arp_out.
def lookup (arp : Arp) (a : Ipaddr) : Option MacAddr :=
  (arp.table.find? fun e => a == e.ipaddr).map ArpEntry.ethaddr

def uipArpInit (arp : Arp) : Arp :=
  { arp with table := arp.table.map fun e => { e with ipaddr := zeroIpaddr } }

inductive Call where
  | update (a : Ipaddr) (m : MacAddr)
  | timer
  deriving DecidableEq, Repr

def apply (arp : Arp) : Call → Arp
  | .update a m => uipArpUpdate arp a m
  | .timer => uipArpTimer arp

def run (arp : Arp) (calls : List Call) : Arp := calls.foldl apply arp

theorem run_concat (arp : Arp) (calls : List Call) (c : Call) :
    run arp (calls ++ [c]) = apply (run arp calls) c :=
  List.foldl_concat ..

def updateOf (a : Ipaddr) : Call → Option MacAddr
  | .update b m => if b = a then some m else none
  | .timer => none

-- The hardware address that the packets have given for a last.
def latest (a : Ipaddr) (calls : List Call) : Option MacAddr :=
  (calls.filterMap (updateOf a)).getLast?

section Slot

variable {arp : Arp} {a b : Ipaddr} {m : MacAddr} {e : ArpEntry} {i : Nat}

theorem update_eq (arp : Arp) (a : Ipaddr) (m : MacAddr) : uipArpUpdate arp a m =
    { arp with table := arp.table.set (slotOf arp a) ⟨a, m, arp.arptime⟩ } := by
  rw [uipArpUpdate, slotOf]
  cases arp.table.findIdx? fun e => hostUsed e.ipaddr && a == e.ipaddr with
  | some i => rfl
  | none => cases arp.table.findIdx? fun e => hostUnused e.ipaddr <;> rfl

theorem foldl_oldest (arp : Arp) (es : List ArpEntry) (k : Nat) (best : Int × Nat) :
    ((es.zipIdx k).foldl (fun (best : Int × Nat) (e : ArpEntry × Nat) =>
      if arpAge arp e.1 > best.1 then (arpAge arp e.1, e.2) else best) best).2 = best.2 ∨
    ((es.zipIdx k).foldl (fun (best : Int × Nat) (e : ArpEntry × Nat) =>
      if arpAge arp e.1 > best.1 then (arpAge arp e.1, e.2) else best) best).2 < k + es.length := by
  induction es generalizing k best with
  | nil => exact .inl rfl
  | cons e es ih =>
    rw [List.zipIdx_cons, List.foldl_cons, List.length_cons]
    dsimp only
    split_ifs
    · rcases ih (k + 1) (arpAge arp e, k) with h | h
      · exact .inr (by rw [h]; omega)
      · exact .inr (by omega)
    · rcases ih (k + 1) best with h | h
      · exact .inl h
      · exact .inr (by omega)

theorem oldestEntry_lt (h : 0 < arp.table.length) : oldestEntry arp < arp.table.length := by
  rcases foldl_oldest arp arp.table 0 (0, 0) with h0 | hlt
  · rw [oldestEntry, h0]
    exact h
  · rw [Nat.zero_add] at hlt
    exact hlt

theorem slotOf_lt (h : 0 < arp.table.length) (a : Ipaddr) : slotOf arp a < arp.table.length := by
  rw [slotOf]
  cases hused : arp.table.findIdx? fun e => hostUsed e.ipaddr && a == e.ipaddr with
  | some i => exact (List.findIdx?_eq_some_iff_getElem.mp hused).1
  | none =>
    cases hfree : arp.table.findIdx? fun e => hostUnused e.ipaddr with
    | some i => exact (List.findIdx?_eq_some_iff_getElem.mp hfree).1
    | none => exact oldestEntry_lt h

-- An address in use is written where it stands.
theorem slotOf_of_mem (ha : hostUsed a = true) (hi : arp.table[i]? = some e) (he : e.ipaddr = a) :
    ∃ e', arp.table[slotOf arp a]? = some e' ∧ e'.ipaddr = a := by
  have hsome : (arp.table.findIdx? fun e => hostUsed e.ipaddr && a == e.ipaddr).isSome = true := by
    rw [List.findIdx?_isSome]
    refine List.any_eq_true.mpr ⟨e, List.mem_of_getElem? hi, ?_⟩
    rw [he, ha, beq_self_eq_true, Bool.and_true]
  obtain ⟨j, hj⟩ := Option.isSome_iff_exists.mp hsome
  obtain ⟨hlt, hp, -⟩ := List.findIdx?_eq_some_iff_getElem.mp hj
  rw [slotOf, hj]
  refine ⟨arp.table[j], List.getElem?_eq_getElem hlt, ?_⟩
  exact (beq_iff_eq.mp (Bool.and_eq_true_iff.mp hp).2).symm

end Slot

section Latest

variable {calls : List Call} {a b : Ipaddr} {m : MacAddr}

@[simp] theorem latest_timer : latest a (calls ++ [.timer]) = latest a calls := by
  simp [latest, updateOf]

theorem latest_update : latest a (calls ++ [.update b m]) =
    if b = a then some m else latest a calls := by
  by_cases h : b = a
  · simp [latest, updateOf, h]
  · simp [latest, updateOf, h]

end Latest

-- No address in use stands twice, and each stands with what was given for it last.
structure Fresh (arp : Arp) (calls : List Call) : Prop where
  single : ∀ (i j : Nat) (e e' : ArpEntry), arp.table[i]? = some e → arp.table[j]? = some e' →
      hostUsed e.ipaddr = true → e'.ipaddr = e.ipaddr → i = j
  latest : ∀ e ∈ arp.table, hostUsed e.ipaddr = true →
    latest e.ipaddr calls = some e.ethaddr

section Fresh

variable {arp : Arp} {calls : List Call} {a : Ipaddr} {m : MacAddr}

theorem Fresh.update (h : Fresh arp calls) (a : Ipaddr) (m : MacAddr) :
    Fresh (uipArpUpdate arp a m) (calls ++ [.update a m]) := by
  rw [update_eq]
  have hother : ∀ (i : Nat) (e : ArpEntry), i ≠ slotOf arp a →
      arp.table[i]? = some e → hostUsed e.ipaddr = true → e.ipaddr ≠ a := by
    rintro i e hi he hused rfl
    obtain ⟨e', he', heq⟩ := slotOf_of_mem hused he rfl
    exact hi (h.single i _ e e' he he' hused heq)
  refine ⟨fun i j e e' hi hj hused heq => ?_, fun e he hused => ?_⟩
  · rw [List.getElem?_set] at hi hj
    split_ifs at hi hj with hsi hlt hsj hlt' hsj
    · exact hsi.symm.trans hsj
    · obtain rfl := Option.some.inj hi
      exact absurd heq (hother j e' (Ne.symm hsj) hj (heq ▸ hused))
    · obtain rfl := Option.some.inj hj
      exact absurd heq.symm (hother i e (Ne.symm hsi) hi hused)
    · exact h.single i j e e' hi hj hused heq
  · rw [latest_update]
    obtain ⟨i, hi⟩ := List.getElem?_of_mem he
    rw [List.getElem?_set] at hi
    split_ifs at hi with hsi hlt
    · obtain rfl := Option.some.inj hi
      exact if_pos rfl
    · rw [if_neg (Ne.symm (hother i e (Ne.symm hsi) hi hused))]
      exact h.latest e (List.mem_of_getElem? hi) hused

theorem Fresh.timer (h : Fresh arp calls) : Fresh (uipArpTimer arp) (calls ++ [.timer]) := by
  have hentry : ∀ (i : Nat) (e : ArpEntry), (uipArpTimer arp).table[i]? = some e →
      hostUsed e.ipaddr = true → arp.table[i]? = some e := by
    intro i e hi hused
    rw [uipArpTimer] at hi
    dsimp only at hi
    rw [List.getElem?_map] at hi
    obtain ⟨e0, he0, heq⟩ := Option.map_eq_some_iff.mp hi
    split_ifs at heq
    · rw [← heq] at hused
      exact absurd hused Bool.false_ne_true
    · rw [← heq]
      exact he0
  refine ⟨fun i j e e' hi hj hused heq => ?_, fun e he hused => ?_⟩
  · exact h.single i j e e' (hentry i e hi hused) (hentry j e' hj (heq ▸ hused)) hused heq
  · obtain ⟨i, hi⟩ := List.getElem?_of_mem he
    rw [latest_timer]
    exact h.latest e (List.mem_of_getElem? (hentry i e hi hused)) hused

theorem fresh_run (arp : Arp) (calls : List Call) : Fresh (run (uipArpInit arp) calls) calls := by
  induction calls using List.reverseRecOn with
  | nil =>
    have hzero : ∀ e ∈ (uipArpInit arp).table, e.ipaddr = zeroIpaddr := by
      intro e he
      obtain ⟨e0, -, rfl⟩ := List.mem_map.mp he
      rfl
    refine ⟨fun i j e e' hi hj hused heq => ?_, fun e he hused => ?_⟩
    · rw [hzero e (List.mem_of_getElem? hi)] at hused
      exact absurd hused (by decide)
    · rw [hzero e he] at hused
      exact absurd hused (by decide)
  | append_singleton calls c ih =>
    rw [run_concat]
    cases c with
    | update a m => exact ih.update a m
    | timer => exact ih.timer

-- What the cache answers for an address in use is what was heard of it last.
theorem lookup_latest (arp : Arp) (calls : List Call) {a : Ipaddr} (ha : hostUsed a = true)
    {m : MacAddr} (h : lookup (run (uipArpInit arp) calls) a = some m) :
    latest a calls = some m := by
  obtain ⟨e, he, rfl⟩ := Option.map_eq_some_iff.mp h
  have hfound := List.find?_some he
  have hea : e.ipaddr = a := (beq_iff_eq.mp hfound).symm
  have hlatest := (fresh_run arp calls).latest e (List.mem_of_find?_eq_some he) (by rw [hea, ha])
  rwa [hea] at hlatest

end Fresh

def emptyArp : Arp :=
  { table := List.replicate 8 ⟨zeroIpaddr, ⟨0, 0, 0, 0, 0, 0⟩, 0⟩, arptime := 0,
    hostaddr := ⟨192, 168, 0, 7⟩, netmask := ⟨255, 255, 255, 0⟩, draddr := ⟨192, 168, 0, 1⟩ }

def neighbour : Ipaddr := ⟨192, 168, 0, 9⟩

theorem lookup_latest_moved : latest neighbour [.update neighbour ⟨0, 1, 2, 3, 4, 5⟩, .timer,
    .update neighbour ⟨0, 1, 2, 3, 4, 6⟩] = some ⟨0, 1, 2, 3, 4, 6⟩ :=
  lookup_latest emptyArp _ (by decide) (by decide)

end Xtcp.ArpCache
