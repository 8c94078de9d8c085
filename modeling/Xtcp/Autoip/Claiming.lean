import Xtcp.Autoip.State
import Xtcp.Library.Prefix

namespace Xtcp.Autoip
open Channel Timer

inductive Run (ethaddr : MacAddr) (s : AutoipState) : AutoipState → List Note → Prop where
  | nil : Run ethaddr s s []
  | concat {s' s'' : AutoipState} {notes new : List Note} {e : Event} :
      Run ethaddr s s' notes → step ethaddr e s' = some (s'', new) →
      Run ethaddr s s'' (notes ++ new)

def Note.packet : Note → Option ArpHdr
  | .built p => some p
  | _ => none

def packets (notes : List Note) : List ArpHdr := notes.filterMap Note.packet

-- What was noted since the address was last chosen.
def Since (a : Ipaddr) (notes since : List Note) : Prop :=
  ∃ before, notes = before ++ .chose a :: since ∧ ∀ b, .chose b ∉ since

section Claimed

variable (ethaddr : MacAddr)

def Announced (a : Ipaddr) (since late : List Note) : Prop :=
  ∃ early, since = early ++ .built (announcement ethaddr a) :: late ∧ .heard a ∉ early ∧
    packets early = List.replicate probeNum (probe ethaddr a)

-- Exactly the probes and then exactly the announcements, and nothing heard of the address before.
def Claimed (a : Ipaddr) (notes : List Note) : Prop :=
  ∃ since late, Since a notes since ∧ Announced ethaddr a since late ∧
    packets late = List.replicate (announceNum - 1) (announcement ethaddr a)

structure Probed (s : AutoipState) (notes : List Note) (probes : Nat) : Prop where
  sent : s.probesSent = probes
  announces : s.announcesSent = 0
  since : ∃ since, Since s.ipaddr notes since ∧
    packets since = List.replicate probes (probe ethaddr s.ipaddr) ∧
    (s.numConflicts = 0 → .heard s.ipaddr ∉ since)

structure Announcing (s : AutoipState) (notes : List Note) : Prop where
  announces : s.announcesSent = 1
  since : ∃ since late, Since s.ipaddr notes since ∧ Announced ethaddr s.ipaddr since late ∧
    packets late = []

def Stage (s : AutoipState) (notes : List Note) : Prop :=
  match s.state with
  | .disabled => True
  | .noAddress => s.probesSent = 0 ∧ s.announcesSent = 0 ∧ s.numConflicts = 0
  | .waitForProbe => Probed ethaddr s notes 0
  | .probing => ∃ n, 0 < n ∧ n ≤ probeNum ∧ Probed ethaddr s notes n
  | .waitForAnnounce => Probed ethaddr s notes probeNum
  | .announcing => Announcing ethaddr s notes
  | .configured => True

structure Inv (s : AutoipState) (notes : List Note) : Prop where
  stage : Stage ethaddr s notes
  claimed : ∀ pre x post, notes = pre ++ x :: post → ∀ a, x = .configured a →
    Claimed ethaddr a pre

end Claimed

section Notes

variable {a : Ipaddr} {notes since new : List Note}

@[simp] theorem packets_append (xs ys : List Note) :
    packets (xs ++ ys) = packets xs ++ packets ys :=
  List.filterMap_append

theorem Since.append (h : Since a notes since) (hnew : ∀ b, .chose b ∉ new) :
    Since a (notes ++ new) (since ++ new) := by
  obtain ⟨before, rfl, hs⟩ := h
  refine ⟨before, by simp, ?_⟩
  intro b hb
  rcases List.mem_append.mp hb with hb | hb
  · exact hs b hb
  · exact hnew b hb

theorem since_chosen (a : Ipaddr) (notes : List Note) : Since a (notes ++ [.chose a]) [] :=
  ⟨notes, rfl, fun _ => List.not_mem_nil⟩

end Notes

section Stages

variable {ethaddr : MacAddr} {s : AutoipState} {notes new : List Note} {n : Nat}

-- A packet with another sender, or one that is counted, is heard.
theorem Probed.heard {a : Ipaddr} (h : Probed ethaddr s notes n) {s' : AutoipState}
    (hp : s'.probesSent = s.probesSent) (ha : s'.announcesSent = s.announcesSent)
    (hip : s'.ipaddr = s.ipaddr) (hc : s'.numConflicts = 0 → s.numConflicts = 0 ∧ a ≠ s.ipaddr) :
    Probed ethaddr s' (notes ++ [.heard a]) n := by
  obtain ⟨hsent, hann, since, hs, hpackets, hclean⟩ := h
  refine ⟨hp.trans hsent, ha.trans hann, since ++ [.heard a], ?_, ?_, ?_⟩
  · rw [hip]
    exact hs.append (by simp)
  · rw [hip, packets_append, hpackets]
    exact List.append_nil _
  · rw [hip]
    intro h0 hmem
    obtain ⟨hc0, hne⟩ := hc h0
    rcases List.mem_append.mp hmem with hmem | hmem
    · exact hclean hc0 hmem
    · exact hne (Note.heard.inj (List.mem_singleton.mp hmem)).symm

theorem Announcing.heard {a : Ipaddr} (h : Announcing ethaddr s notes) :
    Announcing ethaddr s (notes ++ [.heard a]) := by
  obtain ⟨hann, since, late, hs, ⟨early, rfl, hclean, hearly⟩, hlate⟩ := h
  refine ⟨hann, _, late ++ [.heard a], hs.append (by simp), ⟨early, by simp, hclean, hearly⟩, ?_⟩
  rw [packets_append, hlate]
  rfl

theorem Probed.probe (h : Probed ethaddr s notes n) {s' : AutoipState}
    (hp : s'.probesSent = n + 1) (ha : s'.announcesSent = s.announcesSent)
    (hip : s'.ipaddr = s.ipaddr) (hc : s'.numConflicts = s.numConflicts) :
    Probed ethaddr s' (notes ++ [.built (probe ethaddr s.ipaddr)]) (n + 1) := by
  obtain ⟨-, hann, since, hs, hpackets, hclean⟩ := h
  refine ⟨hp, ha.trans hann, since ++ [.built (Autoip.probe ethaddr s.ipaddr)], ?_, ?_, ?_⟩
  · rw [hip]
    exact hs.append (by simp)
  · rw [hip, packets_append, hpackets, List.replicate_succ']
    rfl
  · rw [hip, hc]
    intro h0
    simpa using hclean h0

theorem Probed.announce (h : Probed ethaddr s notes probeNum) (hc : s.numConflicts = 0)
    {s' : AutoipState} (ha : s'.announcesSent = s.announcesSent + 1) (hip : s'.ipaddr = s.ipaddr) :
    Announcing ethaddr s' (notes ++ [.built (announcement ethaddr s.ipaddr)]) := by
  obtain ⟨-, hann, since, hs, hpackets, hclean⟩ := h
  refine ⟨by rw [ha, hann], since ++ [.built (announcement ethaddr s.ipaddr)], [], ?_, ?_, rfl⟩
  · rw [hip]
    exact hs.append (by simp)
  · rw [hip]
    exact ⟨since, rfl, hclean hc, hpackets⟩

theorem Announcing.claimed (h : Announcing ethaddr s notes) :
    Claimed ethaddr s.ipaddr (notes ++ [.built (announcement ethaddr s.ipaddr)]) := by
  obtain ⟨-, since, late, hs, ⟨early, rfl, hclean, hearly⟩, hlate⟩ := h
  refine ⟨_, late ++ [.built (announcement ethaddr s.ipaddr)], hs.append (by simp),
    ⟨early, by simp, hclean, hearly⟩, ?_⟩
  rw [packets_append, hlate]
  rfl

theorem Inv.quiet {s' : AutoipState} (h : Inv ethaddr s notes)
    (hs : Stage ethaddr s' (notes ++ new))
    (hnew : ∀ a, .configured a ∉ new) : Inv ethaddr s' (notes ++ new) := by
  refine ⟨hs, Prefix.forall_split_append h.claimed ?_⟩
  rintro pre x post heq a rfl
  exact absurd (by rw [heq]; simp) (hnew a)

theorem Inv.same {s' : AutoipState} (h : Inv ethaddr s notes) (hs : Stage ethaddr s' notes) :
    Inv ethaddr s' (notes ++ []) :=
  h.quiet (by rwa [List.append_nil]) fun _ => List.not_mem_nil

theorem Stage.heard {a : Ipaddr} (h : Stage ethaddr s notes)
    (hl : ¬ (listening s.state = true ∧ a = s.ipaddr)) : Stage ethaddr s (notes ++ [.heard a]) := by
  have hne (hs : listening s.state = true) : s.numConflicts = 0 → s.numConflicts = 0 ∧ a ≠ s.ipaddr :=
    fun h0 => ⟨h0, fun ha => hl ⟨hs, ha⟩⟩
  unfold Stage at h ⊢
  cases hs : s.state with
  | disabled => trivial
  | noAddress =>
    rw [hs] at h
    exact h
  | waitForProbe =>
    rw [hs] at h
    exact Probed.heard h rfl rfl rfl (hne (by rw [hs]; rfl))
  | probing =>
    rw [hs] at h
    obtain ⟨n, h0, hn, h⟩ := h
    exact ⟨n, h0, hn, h.heard rfl rfl rfl (hne (by rw [hs]; rfl))⟩
  | waitForAnnounce =>
    rw [hs] at h
    exact Probed.heard h rfl rfl rfl (hne (by rw [hs]; rfl))
  | announcing =>
    rw [hs] at h
    exact Announcing.heard h
  | configured => trivial

theorem Stage.conflict {a : Ipaddr} {m : Nat} (h : Stage ethaddr s notes)
    (hl : listening s.state = true) (hm : m ≠ 0) :
    Stage ethaddr { s with numConflicts := m } (notes ++ [.heard a]) := by
  have hne (h0 : m = 0) : s.numConflicts = 0 ∧ a ≠ s.ipaddr := absurd h0 hm
  unfold Stage at h ⊢
  cases hs : s.state with
  | waitForProbe =>
    rw [hs] at h
    exact Probed.heard h rfl rfl rfl hne
  | probing =>
    rw [hs] at h
    obtain ⟨n, h0, hn, h⟩ := h
    exact ⟨n, h0, hn, h.heard rfl rfl rfl hne⟩
  | waitForAnnounce =>
    rw [hs] at h
    exact Probed.heard h rfl rfl rfl hne
  | disabled => rw [hs] at hl; cases hl
  | noAddress => rw [hs] at hl; cases hl
  | announcing => rw [hs] at hl; cases hl
  | configured => rw [hs] at hl; cases hl

end Stages

section Steps

variable {ethaddr : MacAddr} {s s' : AutoipState} {notes new : List Note} {n m : Nat}

theorem increment_eq (h : increment n = some m) : m = n + 1 := by
  unfold increment at h
  split at h
  · exact (Option.some.inj h).symm
  · cases h

theorem randomTimerSet_spec (now a b : Word) (s : AutoipState) :
    (randomTimerSet now a b s).state = s.state ∧
      (randomTimerSet now a b s).probesSent = s.probesSent ∧
      (randomTimerSet now a b s).announcesSent = s.announcesSent ∧
      (randomTimerSet now a b s).ipaddr = s.ipaddr ∧
      (randomTimerSet now a b s).numConflicts = s.numConflicts :=
  ⟨rfl, rfl, rfl, rfl, rfl⟩

theorem chooseAddress_spec {set : Word} (h : chooseAddress set s = (s', new)) :
    s'.state = .waitForProbe ∧ s'.probesSent = s.probesSent ∧
      s'.announcesSent = s.announcesSent ∧ new = [.chose s'.ipaddr] := by
  obtain ⟨rfl, rfl⟩ := Prod.mk.inj h
  obtain ⟨hst, hp, ha, hip, -⟩ := randomTimerSet_spec set 0 (probeWait * clockSecond) _
  exact ⟨hst, hp, ha, congrArg (fun a => [Note.chose a]) hip.symm⟩

theorem sendProbe_spec {set : Word} (h : sendProbe ethaddr set s = some (s', new)) :
    s'.state = s.state ∧ s'.probesSent = s.probesSent + 1 ∧ s'.announcesSent = s.announcesSent ∧
      s'.ipaddr = s.ipaddr ∧ s'.numConflicts = s.numConflicts ∧
      new = [.built (probe ethaddr s.ipaddr)] := by
  obtain ⟨m, hm, h⟩ := Option.bind_eq_some_iff.mp h
  obtain rfl := increment_eq hm
  obtain ⟨rfl, rfl⟩ := Prod.mk.inj (Option.some.inj h)
  exact ⟨rfl, rfl, rfl, rfl, rfl, rfl⟩

theorem sendAnnounce_spec {set : Word} (h : sendAnnounce ethaddr set s = some (s', new)) :
    s'.state = s.state ∧ s'.announcesSent = s.announcesSent + 1 ∧ s'.ipaddr = s.ipaddr ∧
      new = [.built (announcement ethaddr s.ipaddr)] := by
  obtain ⟨m, hm, h⟩ := Option.bind_eq_some_iff.mp h
  obtain rfl := increment_eq hm
  obtain ⟨rfl, rfl⟩ := Prod.mk.inj (Option.some.inj h)
  exact ⟨rfl, rfl, rfl, rfl⟩

theorem inv_arpIn {a : Ipaddr} (h : Inv ethaddr s notes)
    (hs : autoipArpIn a s = some (s', new)) : Inv ethaddr s' (notes ++ new) := by
  unfold autoipArpIn at hs
  split at hs
  · next hl =>
    obtain ⟨m, hm, heq⟩ := Option.map_eq_some_iff.mp hs
    obtain ⟨rfl, rfl⟩ := Prod.mk.inj heq
    have hpos := increment_eq hm
    exact h.quiet (h.stage.conflict hl.1 (by omega)) (by simp)
  · next hl =>
    obtain ⟨rfl, rfl⟩ := Prod.mk.inj (Option.some.inj hs)
    exact h.quiet (h.stage.heard hl) (by simp)

theorem inv_start (h : Inv ethaddr s notes) : Inv ethaddr (autoipStart s) (notes ++ []) := by
  refine h.same ?_
  unfold autoipStart
  split
  · exact ⟨rfl, rfl, rfl⟩
  · exact h.stage

theorem inv_periodic {now set : Word} (h : Inv ethaddr s notes)
    (hs : autoipPeriodic ethaddr now set s = some (s', new)) : Inv ethaddr s' (notes ++ new) := by
  have hsame (heq : some (s, ([] : List Note)) = some (s', new)) :
      Inv ethaddr s' (notes ++ new) := by
    obtain ⟨rfl, rfl⟩ := Prod.mk.inj (Option.some.inj heq)
    exact h.same h.stage
  have hstage := h.stage
  unfold autoipPeriodic at hs
  unfold Stage at hstage
  cases hst : s.state with
  | disabled =>
    rw [hst] at hs
    exact hsame hs
  | configured =>
    rw [hst] at hs
    exact hsame hs
  | noAddress =>
    rw [hst] at hs hstage
    obtain ⟨hp, ha, hc⟩ := hstage
    simp only at hs
    split at hs
    · obtain ⟨hst', hp', ha', rfl⟩ := chooseAddress_spec (Option.some.inj hs)
      refine h.quiet ?_ (by simp)
      unfold Stage
      rw [hst']
      exact ⟨hp'.trans hp, ha'.trans ha, [], since_chosen _ _, rfl, fun _ => List.not_mem_nil⟩
    · exact hsame hs
  | waitForProbe =>
    rw [hst] at hs hstage
    simp only at hs
    split at hs
    · obtain ⟨hst', hp, ha, hip, hc, rfl⟩ := sendProbe_spec hs
      refine h.quiet ?_ (by simp)
      unfold Stage
      rw [hst']
      have hsent : s'.probesSent = 0 + 1 := by rw [hp, hstage.sent]
      exact ⟨1, by decide, by decide, Probed.probe hstage hsent ha hip hc⟩
    · exact hsame hs
  | probing =>
    rw [hst] at hs hstage
    obtain ⟨n, hn0, hn, hprobed⟩ := hstage
    simp only at hs
    split at hs
    · split at hs
      · next hnum =>
        obtain ⟨rfl, rfl⟩ := Prod.mk.inj (Option.some.inj hs)
        obtain rfl : n = probeNum := by rw [← hprobed.sent, hnum]
        exact h.same ⟨hprobed.sent, hprobed.announces, hprobed.since⟩
      · next hnum =>
        obtain ⟨hst', hp, ha, hip, hc, rfl⟩ := sendProbe_spec hs
        refine h.quiet ?_ (by simp)
        unfold Stage
        rw [hst', hst]
        have hne : n ≠ probeNum := fun he => hnum (by rw [hprobed.sent, he])
        have hsent : s'.probesSent = n + 1 := by rw [hp, hprobed.sent]
        exact ⟨n + 1, by omega, by omega, hprobed.probe hsent ha hip hc⟩
    · exact hsame hs
  | waitForAnnounce =>
    rw [hst] at hs hstage
    simp only at hs
    split at hs
    · split at hs
      · next hc =>
        obtain ⟨hst', ha, hip, rfl⟩ := sendAnnounce_spec hs
        refine h.quiet ?_ (by simp)
        unfold Stage
        rw [hst']
        exact Probed.announce hstage hc ha hip
      · obtain ⟨rfl, rfl⟩ := Prod.mk.inj (Option.some.inj hs)
        exact h.same ⟨rfl, rfl, rfl⟩
    · exact hsame hs
  | announcing =>
    rw [hst] at hs hstage
    obtain ⟨r, hr, hs⟩ := Option.bind_eq_some_iff.mp hs
    obtain ⟨hst', ha, hip, hnew⟩ := sendAnnounce_spec hr
    have htwo : r.1.announcesSent = announceNum := by rw [ha, hstage.announces]; rfl
    simp only [htwo, if_true] at hs
    obtain ⟨rfl, rfl⟩ := Prod.mk.inj (Option.some.inj hs)
    refine ⟨trivial, Prefix.forall_split_append h.claimed ?_⟩
    rintro pre x post heq a rfl
    rw [hnew] at heq
    cases pre with
    | nil => cases (List.cons.inj heq).1
    | cons y ys =>
      obtain ⟨hfirst, htail⟩ := List.cons.inj heq
      cases ys with
      | nil =>
        obtain rfl := Note.configured.inj (List.cons.inj htail).1
        rw [← hfirst, hip]
        exact hstage.claimed
      | cons z zs => simp at htail

theorem inv_run {seed : Word} {t : AutoipState} (h : Run ethaddr (autoipInit seed t) s notes) :
    Inv ethaddr s notes := by
  induction h with
  | nil => exact ⟨trivial, fun pre x post heq => absurd heq (by simp)⟩
  | @concat s1 s2 notes new e _ hs ih =>
    cases e with
    | start =>
      obtain ⟨rfl, rfl⟩ := Prod.mk.inj (Option.some.inj hs)
      exact inv_start ih
    | stop =>
      obtain ⟨rfl, rfl⟩ := Prod.mk.inj (Option.some.inj hs)
      exact ih.same trivial
    | periodic now set => exact inv_periodic ih hs
    | arpIn a => exact inv_arpIn ih hs

end Steps

section Examples

def perform (ethaddr : MacAddr) (r : AutoipState × List Note) (e : Event) : Result :=
  (step ethaddr e r.1).map fun r' => (r'.1, r.2 ++ r'.2)

theorem run_perform {ethaddr : MacAddr} {s : AutoipState} {r : AutoipState × List Note}
    (hr : Run ethaddr s r.1 r.2) {events : List Event} {r' : AutoipState × List Note}
    (h : events.foldlM (perform ethaddr) r = some r') : Run ethaddr s r'.1 r'.2 := by
  induction events generalizing r with
  | nil =>
    obtain rfl := Option.some.inj h
    exact hr
  | cons e es ih =>
    obtain ⟨r1, h1, h⟩ := Option.bind_eq_some_iff.mp h
    obtain ⟨⟨s1, new⟩, hs, rfl⟩ := Option.map_eq_some_iff.mp h1
    exact ih (.concat hr hs) h

def zeroState : AutoipState :=
  ⟨.disabled, 0, 0, 0, false, 0, 0, ⟨0, 0⟩, ⟨0, 0, 0, 0⟩⟩

def ownEthaddr : MacAddr := ⟨0, 0x22, 0x97, 0, 0, 1⟩

-- The clock goes on by three seconds at each call.
def quietClaim : List Event :=
  .start :: (List.range 8).map fun k =>
    let t := BitVec.ofNat 32 (3000 * k)
    .periodic t t

end Examples

end Xtcp.Autoip
