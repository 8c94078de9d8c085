import Xtcp.Library.Lifetime
import Xtcp.Uip.Ids

namespace Xtcp.Uip
open Channel Listen

variable {nT nU : Nat}

def XtcpEvent.act (link : Option Nat) : XtcpEvent → Lifetime.Act (Option Nat)
  | .newConnection => .begin link
  | .timedOut => .stop link
  | .aborted => .stop link
  | .closed => .stop link
  | _ => .go link

namespace Entry

def act (d : Nat) : Entry nT nU → Option (Lifetime.Act (Option Nat))
  | .issued _ id => if id = d then some .issue else none
  | .sent _ event _ link conn _ _ _ => if conn.id = d then some (event.act link) else none
  | _ => none

-- Only established connections are killed, only announced ones are told anything, no slot is
-- retaken in the wait for one of its events, no UDP connection gets or loses its port by a bind.
def proper : Entry nT nU → Bool
  | .killed _ state => state == .established
  | .sent _ event _ _ _ _ _ request => event == .newConnection || !request
  | .opened slot origin _ during =>
      !(slot matches .udp _ && origin == .passive 0) && during.all fun wait => wait.slot != slot
  | .bound (.udp _) old new =>
      !(old == 0 || dhcpcPort old) && !(new == 0 || dhcpcPort new)
  | _ => true

end Entry

abbrev Proper (log : List (Entry nT nU)) : Prop := Logs Entry.proper log

def talk (d : Nat) (log : List (Entry nT nU)) : List (Lifetime.Act (Option Nat)) :=
  log.filterMap (Entry.act d)

def phaseOf (d : Nat) (log : List (Entry nT nU)) : Option (Lifetime.Phase (Option Nat)) :=
  Lifetime.run .ended (talk d log)

theorem phaseOf_quiet {l log : List (Entry nT nU)} {e : Entry nT nU} {d : Nat}
    (hlog : log = l ++ [e]) (he : e.act d = none) : phaseOf d log = phaseOf d l := by
  simp [phaseOf, talk, hlog, he]

theorem phaseOf_act {log : List (Entry nT nU)} {e : Entry nT nU} {d : Nat}
    {p : Lifetime.Phase (Option Nat)} {x : Lifetime.Act (Option Nat)}
    (hp : phaseOf d log = some p) (he : e.act d = some x) :
    phaseOf d (log ++ [e]) = Lifetime.step p x := by
  have htalk : talk d (log ++ [e]) = talk d log ++ [x] := by simp [talk, he]
  rw [phaseOf, htalk]
  exact Lifetime.run_snoc hp x

namespace Life

variable {a b : Life nT nU} {slot : Slot nT nU} {but : Option (Slot nT nU)}

def Live (a : Life nT nU) : Slot nT nU → Prop
  | .tcp i => a.state i = .established ∧ a.closing ≠ some i
  | .udp i => a.lport (.udp i) ≠ 0 ∧ dhcpcPort (a.lport (.udp i)) = false ∧
      a.connectRequest (.udp i) = false

def InPhase (a : Life nT nU) (slot : Slot nT nU)
    (phase : Option Nat → Lifetime.Phase (Option Nat)) : Prop :=
  ∀ l, a.linknum slot = some l →
    a.id slot ≠ 0 ∧ phaseOf (a.id slot) a.log = some (phase (some l))

structure Talk (but : Option (Slot nT nU)) (a : Life nT nU) : Prop where
  ids : IdsInv a
  total : ∀ d, phaseOf d a.log ≠ none
  live : ∀ s, but ≠ some s → a.Live s → a.InPhase s .active
  fin : ∀ i, isFin (a.state i) = true → a.closed (.tcp i) = true

theorem Talk.frame (h : Talk but a) (hids : IdsInv b)
    (hphase : ∀ d, phaseOf d b.log = phaseOf d a.log)
    (hlive : ∀ s, but ≠ some s → b.Live s →
      a.Live s ∧ b.linknum s = a.linknum s ∧ b.id s = a.id s)
    (hfin : ∀ i, isFin (b.state i) = true → b.closed (.tcp i) = true) : Talk but b where
  ids := hids
  total d := by
    rw [hphase]
    exact h.total d
  live s hs hb := by
    obtain ⟨ha, hlink, hid⟩ := hlive s hs hb
    unfold InPhase
    rw [hlink, hid, hphase]
    exact h.live s hs ha
  fin := hfin

theorem Talk.same (h : Talk but a) (hids : IdsInv b)
    (hphase : ∀ d, phaseOf d b.log = phaseOf d a.log) (hlive : b.Live = a.Live)
    (hlink : b.linknum = a.linknum) (hid : b.id = a.id) (hstate : b.state = a.state)
    (hclosed : b.closed = a.closed) : Talk but b :=
  h.frame hids hphase (fun s _ hb => ⟨hlive ▸ hb, congrFun hlink s, congrFun hid s⟩)
    fun i hi => (congrFun hclosed _).trans (h.fin i ((congrFun hstate i) ▸ hi))

theorem Talk.weaken (h : Talk none a) (slot : Slot nT nU) : Talk (some slot) a :=
  ⟨h.ids, h.total, fun s _ => h.live s (by simp), h.fin⟩

theorem Talk.settle (h : Talk but a) (i : Fin nT) (st : TcpState) (hst : st ≠ .established)
    (hfin : isFin st = true → a.closed (.tcp i) = true) : Talk but (a.setState i st) := by
  refine h.frame (h.ids.same rfl rfl) (fun d => rfl) (fun s _ hb => ?_) fun j hj => ?_
  · cases s with
    | tcp j =>
      by_cases hij : j = i
      · subst hij
        exact absurd hb.1 (by simp [setState, hst])
      · simpa [Live, setState, hij] using hb
    | udp j => exact ⟨hb, rfl, rfl⟩
  · by_cases hij : j = i
    · subst hij
      exact hfin (by simpa [setState] using hj)
    · exact h.fin j (by simpa [setState, hij] using hj)

theorem Talk.command (h : Talk but a) (hc : Command a b) (hb : Proper b.log) : Talk but b := by
  have hids := h.ids.command hc
  cases hc with
  | adjust _ hc =>
    cases hc with
    | tables => exact h.same hids (fun d => rfl) rfl rfl rfl rfl rfl
    | pause => exact h.same hids (fun d => phaseOf_quiet rfl rfl) rfl rfl rfl rfl rfl
    | bind slot port =>
      refine h.frame hids (fun d => phaseOf_quiet rfl rfl) (fun s _ hs => ?_) h.fin
      cases s with
      | tcp i => exact ⟨hs, rfl, rfl⟩
      | udp i =>
        by_cases hslot : slot = .udp i
        · subst hslot
          have hbound := hb.last (l := a.log) rfl
          simp only [Entry.proper, Bool.and_eq_true, Bool.not_eq_true', Bool.or_eq_false_iff,
            beq_eq_false_iff_ne] at hbound
          exact ⟨⟨hbound.1.1, hbound.1.2, hs.2.2⟩, rfl, rfl⟩
        · simpa [Live, setLport, Life.note, Ne.symm hslot] using hs
  | connectTcp j port link hfree =>
    have hset : Talk but (a.setState j .synSent) :=
      h.settle j _ (by simp) (fun hf => absurd hf (by simp [isFin]))
    have hprep : Talk but ((a.setState j .synSent).setLport (.tcp j) port) := by
      refine hset.frame (h.ids.same rfl rfl) (fun d => rfl) (fun s _ hs => ?_) hset.fin
      cases s with
      | tcp i => exact ⟨hs, rfl, rfl⟩
      | udp i => simpa [Live, setLport, setState] using hs
    refine hprep.frame hids (fun d => phaseOf_quiet rfl rfl) (fun s _ hs => ?_) hprep.fin
    have hne : s ≠ .tcp j := by
      rintro rfl
      exact absurd hs.1 (by simp [connect, openAs, setLport, setState])
    refine ⟨?_, by simp [connect, openAs, hne], rfl⟩
    cases s with
    | tcp i => exact hs
    | udp i => simpa [Live, connect, openAs] using hs
  | connectUdp j port link hfree =>
    have hphase (d : Nat) : phaseOf d ((a.clear j port).connect (.udp j) link).log =
        phaseOf d a.log :=
      (phaseOf_quiet (l := (a.clear j port).log) rfl rfl).trans (phaseOf_quiet rfl rfl)
    refine h.frame hids hphase (fun s _ hs => ?_) h.fin
    have hne : s ≠ .udp j := by
      rintro rfl
      exact absurd hs.2.2 (by simp [connect, openAs])
    refine ⟨?_, by simp [connect, openAs, clear, hne], rfl⟩
    cases s with
    | tcp i => exact hs
    | udp i => simpa [Live, connect, openAs, clear, hne] using hs

theorem Talk.commands (h : Talk but a) (hc : Commands a b) (hb : Proper b.log) : Talk but b := by
  induction hc with
  | refl => exact h
  | tail hcs hc ih =>
    obtain ⟨es, hes⟩ := log_command hc
    exact (ih (hb.init hes)).command hc hb

-- The slot of the event stays as it is while the server waits.
structure Waits (slot : Slot nT nU) (a b : Life nT nU) : Prop where
  live : b.Live slot → a.Live slot
  linknum : b.linknum slot = a.linknum slot
  id : b.id slot = a.id slot
  request : b.connectRequest slot = a.connectRequest slot
  phase : ∀ d, phaseOf d b.log = phaseOf d a.log

theorem waits_command {wait : Wait nT nU} (hr : a.raising = some wait) (hc : Command a b)
    (hb : Proper b.log) : Waits wait.slot a b := by
  have hopened {slot : Slot nT nU} {c : Life nT nU} (link : Nat) (hcr : c.raising = some wait)
      (ho : Proper (c.connect slot link).log) : wait.slot ≠ slot := by
    have hlast := ho.last rfl
    simp only [Entry.proper, hcr, Option.all_some, Bool.and_eq_true, bne_iff_ne] at hlast
    exact hlast.2
  cases hc with
  | adjust _ hc =>
    cases hc with
    | tables => exact ⟨fun hs => hs, rfl, rfl, rfl, fun d => rfl⟩
    | pause => exact ⟨fun hs => hs, rfl, rfl, rfl, fun d => phaseOf_quiet rfl rfl⟩
    | bind slot port =>
      refine ⟨fun hs => ?_, rfl, rfl, rfl, fun d => phaseOf_quiet rfl rfl⟩
      generalize wait.slot = s at hs ⊢
      cases s with
      | tcp i => exact hs
      | udp i =>
        by_cases hslot : slot = .udp i
        · subst hslot
          have hbound := hb.last (l := a.log) rfl
          simp only [Entry.proper, Bool.and_eq_true, Bool.not_eq_true', Bool.or_eq_false_iff,
            beq_eq_false_iff_ne] at hbound
          exact ⟨hbound.1.1, hbound.1.2, hs.2.2⟩
        · simpa [Live, setLport, Life.note, Ne.symm hslot] using hs
  | connectTcp j port link hfree =>
    have hne := hopened link (c := (a.setState j .synSent).setLport (.tcp j) port) hr hb
    generalize wait.slot = s at hne ⊢
    refine ⟨fun hs => ?_, by simp [connect, openAs, setLport, setState, hne], rfl,
      by simp [connect, openAs, setLport, setState, hne], fun d => phaseOf_quiet rfl rfl⟩
    cases s with
    | tcp i =>
      have hij := fun h => hne (congrArg Slot.tcp h)
      simpa [Live, connect, openAs, setLport, setState, Function.update_of_ne hij] using hs
    | udp i => simpa [Live, connect, openAs, setLport, setState] using hs
  | connectUdp j port link hfree =>
    have hne := hopened link (c := a.clear j port) hr hb
    have hphase (d : Nat) : phaseOf d ((a.clear j port).connect (.udp j) link).log =
        phaseOf d a.log :=
      (phaseOf_quiet (l := (a.clear j port).log) rfl rfl).trans (phaseOf_quiet rfl rfl)
    generalize wait.slot = s at hne ⊢
    refine ⟨fun hs => ?_, by simp [connect, openAs, clear, hne], rfl,
      by simp [connect, openAs, clear, hne], hphase⟩
    cases s with
    | tcp i => exact hs
    | udp i => simpa [Live, connect, openAs, clear, hne] using hs

theorem waits_commands (wait : Wait nT nU) (hr : a.raising = some wait) (hc : Commands a b)
    (hb : Proper b.log) : Waits wait.slot a b := by
  induction hc with
  | refl => exact ⟨fun hs => hs, rfl, rfl, rfl, fun d => rfl⟩
  | tail hcs hc ih =>
    obtain ⟨es, hes⟩ := log_command hc
    have h := ih (hb.init hes)
    have h' := waits_command (linknum_commands hr hcs).1 hc hb
    exact ⟨fun hs => h.live (h'.live hs), h'.linknum.trans h.linknum, h'.id.trans h.id,
      h'.request.trans h.request, fun d => (h'.phase d).trans (h.phase d)⟩

theorem not_reopened (h : Proper a.log) : ¬ a.Reopened := by
  rintro ⟨e, he, hr⟩
  have hproper := h e he
  cases e with
  | opened slot origin request during =>
    cases during with
    | none => simp [Entry.reopens] at hr
    | some wait =>
      simp only [Entry.reopens, beq_iff_eq] at hr
      simp [Entry.proper, hr] at hproper
  | _ => simp [Entry.reopens] at hr

def before (event : XtcpEvent) (link : Option Nat) : Lifetime.Phase (Option Nat) :=
  if event = .newConnection then .issued else .active link

def isEnd : XtcpEvent → Bool
  | .timedOut => true
  | .aborted => true
  | .closed => true
  | _ => false

def after (event : XtcpEvent) (link : Option Nat) : Lifetime.Phase (Option Nat) :=
  if isEnd event then .ended else .active link

theorem step_before (event : XtcpEvent) (link : Option Nat) :
    Lifetime.step (before event link) (event.act link) = some (after event link) := by
  cases event <;> simp [before, after, isEnd, XtcpEvent.act, Lifetime.step]

theorem talk_delivers {event : XtcpEvent} (hd : Delivers a slot event b) (hb : Proper b.log)
    (h : Talk (some slot) a)
    (hphase : (event ≠ .newConnection → a.connectRequest slot = false) →
      a.InPhase slot (before event))
    (hend : isEnd event = true → ¬ a.Live slot) :
    Talk none b ∧ b.connectRequest slot = a.connectRequest slot := by
  cases hd with
  | skip hnone =>
    refine ⟨⟨h.ids, h.total, fun s _ hs => ?_, h.fin⟩, rfl⟩
    by_cases hslot : slot = s
    · subst hslot
      intro l hl
      rw [hnone] at hl
      cases hl
    · exact h.live s (by simpa using hslot) hs
  | send ready b link conn hready hserved hlink hid =>
    have hproper : Proper b.log := hb.init rfl
    have hraise : Talk (some slot) (a.raise slot event (some ready)) :=
      h.same (h.ids.same rfl rfl) (fun d => rfl) rfl rfl rfl rfl rfl
    have hbut := hraise.commands hserved hproper
    have hw := waits_commands (⟨slot, event, some ready⟩) rfl hserved hproper
    have hl : a.linknum slot = some ready := by
      refine hready.resolve_right fun hre => not_reopened hproper ?_
      exact (kept_commands slot hserved).reopened hre.2
    have hl' : b.linknum slot = some ready := hw.linknum.trans hl
    have hlink' : link = some ready := hlink.elim (fun h => h) fun h => h.trans hl'
    subst hlink'
    have hrequest : event ≠ .newConnection → a.connectRequest slot = false := by
      intro hne
      have hlast := hb.last (l := b.log) rfl
      simp only [Entry.proper, Bool.or_eq_true, beq_iff_eq, Bool.not_eq_true'] at hlast
      exact hw.request.symm.trans (hlast.resolve_left hne)
    obtain ⟨hid₀, hp⟩ := hphase hrequest ready hl
    have hid' : b.id slot = a.id slot := hw.id
    have hp' : phaseOf (b.id slot) b.log = some (before event (some ready)) := by
      rw [hid', hw.phase]
      exact hp
    have hafter : phaseOf (b.id slot) (b.send ⟨slot, event, some ready⟩ (some ready) conn).log =
        some (after event (some ready)) :=
      (phaseOf_act hp' (by simp [Entry.act, hid])).trans (step_before event _)
    have hother : ∀ d, d ≠ b.id slot →
        phaseOf d (b.send ⟨slot, event, some ready⟩ (some ready) conn).log = phaseOf d b.log :=
      fun d hd => phaseOf_quiet rfl (by simp [Entry.act, hid, Ne.symm hd])
    refine ⟨⟨hbut.ids.same rfl rfl, fun d => ?_, fun s _ hs => ?_, hbut.fin⟩, hw.request⟩
    · by_cases hd : d = b.id slot
      · rw [hd, hafter]
        simp
      · rw [hother d hd]
        exact hbut.total d
    · by_cases hslot : slot = s
      · subst hslot
        intro l hl₂
        have hlive : ¬ isEnd event = true := fun he => hend he (hw.live hs)
        have hsame : some l = some ready := hl₂.symm.trans hl'
        refine ⟨hid'.symm ▸ hid₀, hafter.trans ?_⟩
        rw [hsame]
        simp [after, hlive]
      · intro l hl₂
        obtain ⟨hs₀, hps⟩ := hbut.live s (by simpa using hslot) hs l hl₂
        refine ⟨hs₀, (hother _ fun hsame => hslot ?_).trans hps⟩
        exact (hbut.ids.distinct s slot hs₀ hsame).symm

theorem Talk.issue (h : Talk (some slot) a) {guid : Nat} (hguid : a.Issuable slot guid)
    (hfin : ∀ i, slot = .tcp i → isFin (a.state i) = false) :
    Talk (some slot) (a.issue slot guid) ∧ (a.issue slot guid).InPhase slot fun _ => .issued := by
  have hids := h.ids.issue hguid
  have hlog : (a.issue slot guid).log = a.log ++ [.issued slot guid] := rfl
  have hself : phaseOf guid (a.issue slot guid).log = some .issued := by
    obtain ⟨p, hp⟩ := Option.ne_none_iff_exists'.mp (h.total guid)
    refine (phaseOf_act (x := .issue) hp (by simp [Entry.act])).trans ?_
    cases p <;> rfl
  have hother : ∀ d, d ≠ guid → phaseOf d (a.issue slot guid).log = phaseOf d a.log :=
    fun d hd => phaseOf_quiet hlog (by simp [Entry.act, Ne.symm hd])
  have hid : (a.issue slot guid).id slot = guid := Function.update_self _ _ _
  refine ⟨⟨hids, fun d => ?_, fun s hs hlive l hl => ?_, fun i hi => ?_⟩, fun l _ => ?_⟩
  · by_cases hd : d = guid
    · rw [hd, hself]
      simp
    · rw [hother d hd]
      exact h.total d
  · have hslot : s ≠ slot := fun heq => hs (by rw [heq])
    have hlive' : a.Live s := by
      cases s with
      | tcp i => exact hlive
      | udp i => simpa [Live, Life.issue, hslot] using hlive
    have hl' : a.linknum s = some l := by simpa [Life.issue, hslot] using hl
    obtain ⟨hne, hp⟩ := h.live s hs hlive' l hl'
    have hid' : (a.issue slot guid).id s = a.id s := Function.update_of_ne hslot _ _
    rw [hid']
    exact ⟨hne, (hother _ (hguid.1 s hslot)).trans hp⟩
  · have hslot : Slot.tcp i ≠ slot := by
      rintro rfl
      have hstate : isFin (a.state i) = true := hi
      rw [hfin i rfl] at hstate
      cases hstate
    simpa [Life.issue, hslot] using h.fin i hi
  · rw [hid]
    have hrange := hguid.2 h.ids.guid
    exact ⟨by omega, hself⟩

theorem Talk.clear (h : Talk none a) (i : Fin nU) (port : Nat) :
    Talk (some (.udp i)) ((a.clear i port).openAs (.udp i) (.passive port)) := by
  have hphase (d : Nat) :
      phaseOf d ((a.clear i port).openAs (.udp i) (.passive port)).log = phaseOf d a.log :=
    (phaseOf_quiet (l := (a.clear i port).log) rfl rfl).trans (phaseOf_quiet rfl rfl)
  refine (h.weaken (.udp i)).frame (h.ids.same rfl rfl) hphase (fun s hs hlive => ?_) h.fin
  have hslot : s ≠ .udp i := fun heq => hs (by rw [heq])
  refine ⟨?_, rfl, rfl⟩
  cases s with
  | tcp j => exact hlive
  | udp j => simpa [Live, openAs, Life.clear, hslot] using hlive

theorem Talk.unless (h : Talk (some slot) a) (hslot : ¬ a.Live slot) : Talk none a := by
  refine ⟨h.ids, h.total, fun s _ hlive => h.live s (fun heq => hslot ?_) hlive, h.fin⟩
  rw [Option.some.inj heq]
  exact hlive

theorem not_spoiled (h : Proper a.log) (i : Fin nU) : ¬ a.Spoiled (.udp i) := by
  rintro ⟨e, he, hs⟩
  have hproper := h e he
  cases e with
  | bound other old new =>
    simp only [Entry.spoils, Bool.and_eq_true, beq_iff_eq, Bool.or_eq_true] at hs
    obtain ⟨rfl, hnew⟩ := hs
    simp only [Entry.proper, Bool.and_eq_true, Bool.not_eq_true', Bool.or_eq_false_iff,
      beq_eq_false_iff_ne] at hproper
    rcases hnew with hnew | hnew
    · exact hproper.2.1 hnew
    · rw [hproper.2.2] at hnew
      cases hnew
  | opened other origin request during =>
    cases origin with
    | active link => simp [Entry.spoils] at hs
    | passive port =>
      simp only [Entry.spoils, Bool.and_eq_true, beq_iff_eq] at hs
      obtain ⟨rfl, rfl⟩ := hs
      simp [Entry.proper] at hproper
  | _ => simp [Entry.spoils] at hs

theorem live_open (h : Proper a.log) (ho : a.IsOpen slot)
    (hrequest : a.connectRequest slot = false) :
    a.Live slot := by
  cases slot with
  | tcp i => exact ⟨ho.1, by simp [ho.2]⟩
  | udp i =>
    obtain ⟨hl, hd⟩ := ho.resolve_right (not_spoiled h i)
    exact ⟨hl, hd, hrequest⟩

theorem before_active {event : XtcpEvent} (h : event ≠ .newConnection) :
    before event = Lifetime.Phase.active := by
  funext l
  simp [before, h]

def TalkInv (a : Life nT nU) : Prop := Proper a.log → Talk none a

theorem talk_act (h : TalkInv a) (hact : Act a b) : TalkInv b := by
  intro hb
  cases hact with
  | command _ hc =>
    obtain ⟨es, hes⟩ := log_command hc
    exact (h (hb.init hes)).command hc hb
  | listen i port hfree =>
    have ha := h (hb.init rfl)
    have hset := ha.settle i .synRcvd (by simp) (fun hf => absurd hf (by simp [isFin]))
    refine hset.frame (ha.ids.same rfl rfl) (fun d => phaseOf_quiet rfl rfl) (fun s _ hs => ?_)
      hset.fin
    cases s with
    | tcp j => exact ⟨hs, rfl, rfl⟩
    | udp j => simpa [Live, openAs, setState, setLport] using hs
  | establish _ i guid hstate hclosing hguid hd =>
    obtain ⟨es, hes⟩ := log_delivers hd
    have ha := h ((hb.init hes).init rfl)
    have hset : Talk (some (.tcp i)) (a.setState i .established) := by
      refine (ha.weaken (.tcp i)).frame (ha.ids.same rfl rfl) (fun d => rfl) (fun s hs hlive => ?_)
        fun j hj => ?_
      · cases s with
        | tcp j =>
          have hij : j ≠ i := fun heq => hs (by rw [heq])
          simpa [Live, setState, hij] using hlive
        | udp j => exact ⟨hlive, rfl, rfl⟩
      · by_cases hij : j = i
        · subst hij
          simp [setState, isFin] at hj
        · exact ha.fin j (by simpa [setState, hij] using hj)
    have hguid' : (a.setState i .established).Issuable (.tcp i) guid := hguid
    obtain ⟨hissued, hphase⟩ := hset.issue hguid' fun j hj => by
      cases hj
      simp [setState, isFin]
    exact (talk_delivers hd hb hissued (fun _ => hphase) (by simp [isEnd])).1
  | kill _ i event st hclosing hevent hst hd =>
    obtain ⟨es, hes⟩ := log_delivers hd
    have hkilled := (hb.init hes).last (l := a.log) rfl
    simp only [Entry.proper, beq_iff_eq] at hkilled
    have ha := h ((hb.init hes).init rfl)
    have hst : st = .closed := by
      rcases hst with rfl | ⟨hs, _⟩
      · rfl
      · rw [hs] at hkilled
        cases hkilled
    subst hst
    have hlive : a.Live (.tcp i) := ⟨hkilled, by simp [hclosing]⟩
    have hne : event ≠ .newConnection := by rcases hevent with rfl | rfl <;> simp
    have hset := ha.settle i .closed (by simp) (fun hf => absurd hf (by simp [isFin]))
    have hquiet : ∀ d, phaseOf d (a.log ++ [.killed (.tcp i) (a.state i)]) = phaseOf d a.log :=
      fun d => phaseOf_quiet rfl rfl
    have hnote : Talk none ((a.note (.killed (.tcp i) (a.state i))).setState i .closed) :=
      hset.same (ha.ids.same rfl rfl) hquiet rfl rfl rfl rfl rfl
    refine (talk_delivers hd hb (hnote.weaken _) (fun _ => ?_) fun _ => ?_).1
    · rw [before_active hne]
      intro l hl
      obtain ⟨hid, hp⟩ := ha.live (.tcp i) (by simp) hlive l hl
      exact ⟨hid, (hquiet _).trans hp⟩
    · simp [Live, setState]
  | close _ i hstate hclosing hclosed hd =>
    obtain ⟨es, hes⟩ := log_delivers hd
    have ha := h (hb.init hes)
    have hlive : a.Live (.tcp i) := ⟨hstate, by simp [hclosing]⟩
    have hset : Talk none ((a.setClosed (.tcp i)).setClosing (some i)) := by
      refine ha.frame (ha.ids.same rfl rfl) (fun d => rfl) (fun s _ hs => ?_) fun j hj => ?_
      · cases s with
        | tcp j => exact ⟨⟨hs.1, by simp [hclosing]⟩, rfl, rfl⟩
        | udp j => exact ⟨hs, rfl, rfl⟩
      · by_cases hij : j = i
        · simp [setClosing, setClosed, hij]
        · simpa [setClosing, setClosed, hij] using ha.fin j hj
    refine (talk_delivers hd hb (hset.weaken _) (fun _ => ?_) fun _ => ?_).1
    · rw [before_active (by simp)]
      exact ha.live (.tcp i) (by simp) hlive
    · simp [Live, setClosing]
  | lateClose _ i st hfin hst hclosing hclosed hd =>
    obtain ⟨es, hes⟩ := log_delivers hd
    have hc := (h (hb.init hes)).fin i hfin
    rw [hclosed] at hc
    cases hc
  | finish i st hst hstate hclosing hclosed =>
    have hset := (h hb).settle i st (by rintro rfl; cases hst) fun _ => hclosed
    refine hset.frame ((h hb).ids.same rfl rfl) (fun d => rfl) (fun s _ hs => ?_) hset.fin
    cases s with
    | udp j => exact ⟨hs, rfl, rfl⟩
    | tcp j =>
      have hij : j ≠ i := by
        rintro rfl
        have hs' : st = .established := by simpa [Live, setClosing, setState] using hs
        rw [hs'] at hst
        cases hst
      refine ⟨⟨hs.1, ?_⟩, rfl, rfl⟩
      rcases hclosing with hc | hc
      · simp [setState, hc]
      · simpa [setState, hc] using Ne.symm hij
  | down i st hclosing hst =>
    refine (h hb).settle i _ ?_ fun hf => ?_
    · rintro rfl
      rcases hst with hst | ⟨_, hst | hst⟩ <;> cases hst
    · rcases hst with rfl | ⟨hfin, _⟩
      · cases hf
      · exact (h hb).fin i hfin
  | accept _ i port guid hfree hguid hd =>
    obtain ⟨es, hes⟩ := log_delivers hd
    have hopen := (h ((((hb.init hes).init rfl).init rfl).init rfl)).clear i port
    have hguid' : ((a.clear i port).openAs (.udp i) (.passive port)).Issuable (.udp i) guid := hguid
    obtain ⟨hissued, hphase⟩ := hopen.issue hguid' fun j hj => by cases hj
    exact (talk_delivers hd hb hissued (fun _ => hphase) (by simp [isEnd])).1
  | acceptDhcp i port hfree hport =>
    refine ((h ((hb.init rfl).init rfl)).clear i port).unless ?_
    simp [Live, openAs, clear, hport]
  | announce c i guid ho hrequest hguid hd =>
    have hc : Proper c.log := hb
    obtain ⟨es, hes⟩ := log_delivers hd
    have ha := h ((hc.init hes).init rfl)
    obtain ⟨hissued, hphase⟩ := (ha.weaken (.udp i)).issue hguid fun j hj => by cases hj
    obtain ⟨htalk, hsame⟩ := talk_delivers hd hc hissued (fun _ => hphase) (by simp [isEnd])
    have hfalse : c.connectRequest (.udp i) = false := hsame.trans (by simp [issue])
    have hid : c.setRequest (.udp i) false = c := by
      simp [setRequest, ← hfalse]
    rw [hid]
    exact htalk
  | data _ slot event ho hevent hd =>
    obtain ⟨es, hes⟩ := log_delivers hd
    have ha := h (hb.init hes)
    have hne : event ≠ .newConnection := by
      rintro rfl
      cases slot <;> cases hevent
    have hnot : isEnd event = false := by cases slot <;> cases event <;> first | rfl | cases hevent
    refine (talk_delivers hd hb (ha.weaken slot) (fun hrequest => ?_) (by simp [hnot])).1
    rw [before_active hne]
    exact ha.live slot (by simp) (live_open (hb.init hes) ho (hrequest hne))
  | closeUdp _ i ho hdhcp hd =>
    obtain ⟨es, hes⟩ := log_delivers hd
    have ha := h (hb.init hes)
    have hset : Talk none (a.setLport (.udp i) 0) := by
      refine ha.frame (ha.ids.same rfl rfl) (fun d => rfl) (fun s _ hs => ?_) ha.fin
      cases s with
      | tcp j => exact ⟨hs, rfl, rfl⟩
      | udp j =>
        by_cases hij : j = i
        · subst hij
          exact absurd hs.1 (by simp [setLport])
        · simpa [Live, setLport, hij] using hs
    refine (talk_delivers hd hb (hset.weaken _) (fun hrequest => ?_) fun _ => ?_).1
    · rw [before_active (by simp)]
      exact ha.live (.udp i) (by simp) (live_open (hb.init hes) ho (hrequest (by simp)))
    · simp [Live, setLport]
  | transmit =>
    have ha := h (hb.init rfl)
    exact ha.same (ha.ids.same rfl rfl) (fun d => phaseOf_quiet rfl rfl) rfl rfl rfl rfl rfl
  | replace =>
    have ha := h (hb.init rfl)
    exact ha.same (ha.ids.same rfl rfl) (fun d => phaseOf_quiet rfl rfl) rfl rfl rfl rfl rfl
  | ack _ i hsent ho hdhcp hd =>
    obtain ⟨es, hes⟩ := log_delivers hd
    have ha := h (hb.init hes)
    have hset : Talk none (a.setSent i false) :=
      ha.same (ha.ids.same rfl rfl) (fun d => rfl) rfl rfl rfl rfl rfl
    refine (talk_delivers hd hb (hset.weaken _) (fun hrequest => ?_) (by simp [isEnd])).1
    rw [before_active (by simp)]
    exact ha.live (.udp i) (by simp) (live_open (hb.init hes) ho (hrequest (by simp)))
  | arp _ i hpending ho hdhcp hd =>
    obtain ⟨es, hes⟩ := log_delivers hd
    have ha := h (hb.init hes)
    have hset : Talk none (a.setPendingArp i false) :=
      ha.same (ha.ids.same rfl rfl) (fun d => rfl) rfl rfl rfl rfl rfl
    refine (talk_delivers hd hb (hset.weaken _) (fun hrequest => ?_) (by simp [isEnd])).1
    rw [before_active (by simp)]
    exact ha.live (.udp i) (by simp) (live_open (hb.init hes) ho (hrequest (by simp)))
  | ackDhcp =>
    exact (h hb).same ((h hb).ids.same rfl rfl) (fun d => rfl) rfl rfl rfl rfl rfl
  | arpDhcp =>
    exact (h hb).same ((h hb).ids.same rfl rfl) (fun d => rfl) rfl rfl rfl rfl rfl

end Life

theorem talk_init (numTcp numUdp numPorts arptab : Nat) (dhcp : Bool) :
    ((uipInit nT nU numTcp numUdp numPorts arptab dhcp).life none).TalkInv := by
  intro _
  refine ⟨⟨?_, ?_, ⟨le_rfl, (by decide : 1 ≤ maxGuid)⟩⟩,
    fun d => by simp [phaseOf, talk, uipInit, Stack.life, Lifetime.run], ?_, ?_⟩
  · intro s t hs
    exact absurd rfl hs
  · intro s hs
    exact absurd rfl hs
  · intro s _ hlive
    cases s with
    | tcp i => exact absurd hlive.1 (by simp [Stack.life, uipInit, Stack.state, TcpConn.zero])
    | udp i =>
      obtain ⟨hport, hdhcp, _⟩ := hlive
      simp only [Stack.life, Stack.lport, uipInit] at hport hdhcp
      split at hport
      · next hd =>
        rw [if_pos hd] at hdhcp
        exact absurd hdhcp (by decide)
      · exact absurd rfl hport
  · intro i hi
    cases hi

def peerSegment (seqno ackno : BitVec 32) (syn rst ack : Bool) : Env × Input :=
  (noEnv, .segment ⟨host, htons 5000, htons 8080, seqno, ackno, false, syn, rst, false, ack, false,
    1000, 0, 0, none⟩)

-- The peer resets the connection before its handshake is complete.
def halfOpenInputs : List (Env × Input) :=
  [(noEnv, .serviceClients [(1, .listen 8080 .tcp)]), peerSegment 20 0 true false false,
   peerSegment 21 0 false true false]

end Xtcp.Uip
