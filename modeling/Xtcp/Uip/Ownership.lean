import Xtcp.Uip.Ids

namespace Xtcp.Uip
open Channel Listen

variable {nT nU : Nat}

def Origin.isPassive : Origin → Bool
  | .active _ => false
  | .passive _ => true

namespace Entry

-- A passive open finds no request of an earlier connect in its slot; no slot is retaken in the
-- wait for its announcement; no connection is renamed or paused.
def settled : Entry nT nU → Bool
  | .opened slot origin request during =>
      !(origin.isPassive && request) &&
        during.all fun wait => wait.event != .newConnection || wait.slot != slot
  | .bound _ _ _ => false
  | .paused _ => false
  | _ => true

-- owner is the link registered for the port of a passively opened connection.
def owned : Entry nT nU → Bool
  | .sent _ .newConnection _ link conn (some (.active linknum)) _ _ =>
      link == some linknum && conn.connectionType == clientConnection
  | .sent _ .newConnection _ link conn (some (.passive _)) owner _ =>
      link == owner && conn.connectionType == serverConnection
  | .sent _ .newConnection _ _ _ none _ _ => false
  | _ => true

end Entry

abbrev Settled (log : List (Entry nT nU)) : Prop := Logs Entry.settled log

-- What xtcpd_init_state will read when the connection is announced.
structure Side where
  origin : Option Origin
  request : Bool
  linknum : Option Nat
  connectionType : Nat
  lport : Nat
  deriving DecidableEq, Repr

def Side.Mine (s : Side) : Prop :=
  match s.origin with
  | some (.active link) =>
      s.request = true ∧ s.linknum = some link ∧ s.connectionType = clientConnection
  | some (.passive port) => s.request = false ∧ s.lport = port
  | none => False

namespace Life

variable {a b : Life nT nU} {slot other : Slot nT nU}

def side (a : Life nT nU) (slot : Slot nT nU) : Side :=
  ⟨a.origin slot, a.connectRequest slot, a.linknum slot, a.connectionType slot, a.lport slot⟩

def Awaits (a : Life nT nU) : Slot nT nU → Prop
  | .tcp i => a.state i = .synRcvd ∨ a.state i = .synSent
  | .udp i => a.connectRequest (.udp i) = true

def Named (a : Life nT nU) (slot : Slot nT nU) : Prop :=
  match a.origin slot with
  | some (.active link) => a.linknum slot = some link ∧ a.connectionType slot = clientConnection
  | some (.passive _) =>
      a.linknum slot = a.owner slot ∧ a.connectionType slot = serverConnection
  | none => False

structure Own (a : Life nT nU) : Prop where
  ready : ∀ slot, a.Awaits slot → (a.side slot).Mine
  sent : Logs Entry.owned a.log

theorem named_issue (h : (a.side slot).Mine) (guid : Nat) : (a.issue slot guid).Named slot := by
  unfold Side.Mine side at h
  unfold Named
  have horigin : (a.issue slot guid).origin = a.origin := rfl
  rw [horigin]
  cases ho : a.origin slot with
  | none => simp [ho] at h
  | some origin =>
    cases origin with
    | active link =>
      obtain ⟨hrequest, hlink, htype⟩ : a.connectRequest slot = true ∧ a.linknum slot = some link ∧
        a.connectionType slot = clientConnection := by simpa [ho] using h
      simp [issue, initLinknum, initType, hrequest, hlink, htype]
    | passive port =>
      obtain ⟨hrequest, hport⟩ : a.connectRequest slot = false ∧ a.lport slot = port := by
        simpa [ho] using h
      simp [issue, initLinknum, initType, rightOwner, hrequest, hport, ho]

theorem Own.change (h : Own a) (slot : Slot nT nU) {l : List (Entry nT nU)}
    (hslot : b.Awaits slot → (b.side slot).Mine)
    (hother : ∀ s, s ≠ slot → (b.Awaits s → a.Awaits s) ∧ b.side s = a.side s)
    (hlog : b.log = a.log ++ l) (hl : Logs Entry.owned l) : Own b where
  ready s hb := by
    by_cases hs : s = slot
    · subst hs
      exact hslot hb
    · obtain ⟨hawaits, hside⟩ := hother s hs
      rw [hside]
      exact h.ready s (hawaits hb)
  sent := h.sent.append hlog hl

theorem Own.same (h : Own a) {l : List (Entry nT nU)} (hawaits : b.Awaits = a.Awaits)
    (hside : b.side = a.side) (hlog : b.log = a.log ++ l) (hl : Logs Entry.owned l) : Own b where
  ready s hb := by
    rw [hside]
    exact h.ready s (hawaits ▸ hb)
  sent := h.sent.append hlog hl

theorem connect_other (link : Nat) (h : other ≠ slot) :
    ((a.connect slot link).Awaits other → a.Awaits other) ∧
      (a.connect slot link).side other = a.side other := by
  refine ⟨?_, by simp [side, connect, openAs, h]⟩
  cases other with
  | tcp i => exact fun hb => hb
  | udp i => simp [Awaits, connect, openAs, h]

theorem mine_connect (link : Nat) : ((a.connect slot link).side slot).Mine := by
  simp [Side.Mine, side, connect, openAs]

theorem prepared_other (h : Prepared a slot b) (hs : other ≠ slot) :
    (b.Awaits other → a.Awaits other) ∧ b.side other = a.side other := by
  cases h with
  | tcp port =>
    refine ⟨?_, by simp [side, setLport, setState, hs]⟩
    cases other with
    | tcp j =>
      have hj := fun h => hs (congrArg Slot.tcp h)
      simp [Awaits, setLport, setState, Function.update_of_ne hj]
    | udp j => exact fun hb => hb
  | udp port =>
    refine ⟨?_, by simp [side, clear, hs]⟩
    cases other <;> exact fun hb => hb

theorem log_prepared (h : Prepared a slot b) : ∃ es, b.log = a.log ++ es ∧ Logs Entry.owned es := by
  cases h with
  | tcp port => exact ⟨[], by simp [setLport, setState], by simp [Logs]⟩
  | udp port => exact ⟨_, rfl, by simp [Logs, Entry.owned]⟩

theorem Own.connect {c : Life nT nU} (h : Own a) (hc : Prepared a slot c) (link : Nat) :
    Own (c.connect slot link) := by
  obtain ⟨es, hes, howned⟩ := log_prepared hc
  refine h.change slot (l := es ++ [_]) (fun _ => mine_connect link) (fun s hs => ?_)
    ((congrArg (· ++ [_]) hes).trans (List.append_assoc _ _ _)) ?_
  · obtain ⟨hawaits, hside⟩ := connect_other (a := c) link hs
    obtain ⟨hawaits', hside'⟩ := prepared_other hc hs
    exact ⟨fun hb => hawaits' (hawaits hb), hside.trans hside'⟩
  · exact howned.append rfl (by simp [Logs, Entry.owned])

theorem Own.command (h : Own a) (hc : Command a b) (hb : Settled b.log) : Own b := by
  cases hc with
  | adjust _ hc =>
    cases hc with
    | tables => exact h.same (l := []) rfl rfl (by simp) (by simp [Logs])
    | bind => exact absurd (hb.last rfl) (by simp [Entry.settled])
    | pause => exact absurd (hb.last rfl) (by simp [Entry.settled])
  | connectTcp i port link hfree => exact h.connect (.tcp port) link
  | connectUdp i port link hfree => exact h.connect (.udp port) link

-- The slot of the event is not touched while the server waits.
structure Held (slot : Slot nT nU) (a b : Life nT nU) : Prop where
  side : b.side slot = a.side slot
  owner : b.owner slot = a.owner slot

theorem held_command {wait : Wait nT nU} (hr : a.raising = some wait)
    (hnew : wait.event = .newConnection) (hc : Command a b)
    (hb : Settled b.log) : Held wait.slot a b := by
  have hopened {slot : Slot nT nU} {c : Life nT nU} (link : Nat) (hcr : c.raising = some wait)
      (ho : Settled (c.connect slot link).log) : wait.slot ≠ slot := by
    have hlast := ho.last rfl
    simp only [Entry.settled, hcr, hnew, Option.all_some, Bool.and_eq_true, Bool.or_eq_true,
      bne_iff_ne, ne_eq, not_true_eq_false, false_or] at hlast
    exact hlast.2
  cases hc with
  | adjust _ hc =>
    cases hc with
    | tables => exact ⟨rfl, rfl⟩
    | bind => exact absurd (hb.last rfl) (by simp [Entry.settled])
    | pause => exact absurd (hb.last rfl) (by simp [Entry.settled])
  | connectTcp i port link hfree =>
    have hne := hopened link (c := (a.setState i .synSent).setLport (.tcp i) port) hr hb
    exact ⟨(connect_other link hne).2.trans (prepared_other (.tcp port) hne).2, rfl⟩
  | connectUdp i port link hfree =>
    have hne := hopened link (c := a.clear i port) hr hb
    exact ⟨(connect_other link hne).2.trans (prepared_other (.udp port) hne).2, rfl⟩

theorem held_commands (wait : Wait nT nU) (hr : a.raising = some wait)
    (hnew : wait.event = .newConnection) (hc : Commands a b) (hb : Settled b.log) :
    Held wait.slot a b := by
  induction hc with
  | refl => exact ⟨rfl, rfl⟩
  | tail hcs hc ih =>
    obtain ⟨es, hes⟩ := log_command hc
    have hheld := ih (hb.init hes)
    have hheld' := held_command (linknum_commands hr hcs).1 hnew hc hb
    exact ⟨hheld'.side.trans hheld.side, hheld'.owner.trans hheld.owner⟩

theorem Own.commands (h : Own a) (hc : Commands a b) (hb : Settled b.log) : Own b := by
  induction hc with
  | refl => exact h
  | tail hcs hc ih =>
    obtain ⟨es, hes⟩ := log_command hc
    exact (ih (hb.init hes)).command hc hb

theorem own_delivers {event : XtcpEvent} (hd : Delivers a slot event b) (hb : Settled b.log)
    (hnew : event = .newConnection → a.Named slot) (h : Own a) : Own b := by
  cases hd with
  | skip => exact h
  | send ready b link conn hready hserved hlink hid htype =>
    have hraise : Own (a.raise slot event (some ready)) :=
      h.same (l := []) rfl rfl (by simp [raise]) (by simp [Logs])
    have hsettled : Settled b.log := hb.init rfl
    refine (hraise.commands hserved hsettled).same rfl rfl rfl ?_
    intro e he
    rw [List.mem_singleton] at he
    subst he
    cases event with
    | newConnection =>
      have hnamed := hnew rfl
      obtain ⟨hside, howner⟩ := held_commands (⟨slot, .newConnection, some ready⟩) rfl rfl
        hserved hsettled
      have hside : b.side slot = a.side slot := hside
      simp only [side, Side.mk.injEq] at hside
      obtain ⟨horigin, _, hl, ht, _⟩ := hside
      have hready' : a.linknum slot = some ready := hready.resolve_right (by simp)
      have hlink' : link = a.linknum slot := by
        rcases hlink with rfl | rfl
        · exact hready'.symm
        · exact hl
      have howner : b.owner slot = a.owner slot := howner
      unfold Named at hnamed
      cases ho : a.origin slot with
      | none => simp [ho] at hnamed
      | some origin =>
        cases origin with
        | active l =>
          simp only [ho] at hnamed
          simp [Entry.owned, horigin, ho, htype, ht, hlink', hnamed]
        | passive port =>
          simp only [ho] at hnamed
          simp [Entry.owned, horigin, ho, howner, htype, ht, hlink', hnamed]
    | _ => rfl

def OwnInv (a : Life nT nU) : Prop := Settled a.log → Own a

theorem Own.settle (h : Own a) (i : Fin nT) {st : TcpState} (hst : st ≠ .synRcvd ∧ st ≠ .synSent) :
    Own (a.setState i st) := by
  refine h.change (.tcp i) (l := []) (fun hb => ?_) (fun s hs => ⟨?_, rfl⟩) (by simp [setState])
    (by simp [Logs])
  · have hnot : ¬ (a.setState i st).Awaits (.tcp i) := by simp [Awaits, setState, hst]
    exact absurd hb hnot
  · cases s with
    | tcp j =>
      have hj := fun h => hs (congrArg Slot.tcp h)
      simp [Awaits, setState, Function.update_of_ne hj]
    | udp j => exact fun hb => hb

theorem Own.issue (h : Own a) (slot : Slot nT nU) (guid : Nat)
    (hnot : ¬ (a.issue slot guid).Awaits slot) : Own (a.issue slot guid) := by
  refine h.change slot (fun hb => absurd hb hnot) (fun s hs => ⟨?_, ?_⟩) rfl
    (by simp [Logs, Entry.owned])
  · cases s with
    | tcp j => exact fun hb => hb
    | udp j => simp [Awaits, Life.issue, hs]
  · simp [side, Life.issue, hs]

theorem not_awaits_issue (i : Fin nU) (guid : Nat) :
    ¬ (a.issue (.udp i) guid).Awaits (.udp i) := by
  simp [Awaits, Life.issue]

theorem down_state {st : TcpState} (h : isFin st = true ∨ st = .timeWait ∨ st = .closed) :
    st ≠ .synRcvd ∧ st ≠ .synSent := by
  rcases h with h | rfl | rfl
  · constructor <;> rintro rfl <;> cases h
  · simp
  · simp

theorem own_accept {i : Fin nU} {port : Nat} (h : OwnInv a)
    (hb : Settled ((a.clear i port).openAs (.udp i) (.passive port)).log) :
    Own ((a.clear i port).openAs (.udp i) (.passive port)) ∧
      (((a.clear i port).openAs (.udp i) (.passive port)).side (.udp i)).Mine := by
  have hrequest : a.connectRequest (.udp i) = false := by
    have hlast := hb.last (l := (a.clear i port).log) rfl
    simp only [Entry.settled, Origin.isPassive, Bool.true_and, Bool.and_eq_true,
      Bool.not_eq_true'] at hlast
    exact hlast.1
  refine ⟨?_, by simp [Side.Mine, side, openAs, clear, hrequest]⟩
  refine (h ((hb.init rfl).init rfl)).change (.udp i) (fun hn => ?_) (fun s hs => ⟨?_, ?_⟩)
    (List.append_assoc _ _ _) (by simp [Logs, Entry.owned])
  · have hn : a.connectRequest (.udp i) = true := hn
    rw [hrequest] at hn
    cases hn
  · cases s <;> exact fun hn => hn
  · simp [side, openAs, clear, hs]

theorem own_act (h : OwnInv a) (hact : Act a b) : OwnInv b := by
  intro hb
  cases hact with
  | command _ hc =>
    obtain ⟨es, hes⟩ := log_command hc
    exact (h (hb.init hes)).command hc hb
  | listen i port hfree =>
    have hrequest : a.connectRequest (.tcp i) = false := by
      have hlast := hb.last (l := a.log) rfl
      simp only [Entry.settled, Origin.isPassive, Bool.true_and, Bool.and_eq_true,
        Bool.not_eq_true'] at hlast
      exact hlast.1
    refine (h (hb.init rfl)).change (.tcp i) (fun _ => ?_) (fun s hs => ⟨?_, ?_⟩) rfl
      (by simp [Logs, Entry.owned])
    · simp [Side.Mine, side, openAs, setLport, setState, hrequest]
    · cases s with
      | tcp j =>
        have hj := fun h => hs (congrArg Slot.tcp h)
        simp [Awaits, openAs, setLport, setState, Function.update_of_ne hj]
      | udp j => exact fun hb => hb
    · simp [side, openAs, setLport, setState, hs]
  | establish _ i guid hstate hclosing hguid hd =>
    obtain ⟨es, hes⟩ := log_delivers hd
    have ha := h ((hb.init hes).init rfl)
    have hmine : ((a.setState i .established).side (.tcp i)).Mine := ha.ready (.tcp i) hstate
    have hnot : ¬ ((a.setState i .established).issue (.tcp i) guid).Awaits (.tcp i) := by
      simp [Awaits, issue, setState]
    exact own_delivers hd hb (fun _ => named_issue hmine guid)
      ((ha.settle i (by simp)).issue (.tcp i) guid hnot)
  | kill _ i event st hclosing hevent hst hd =>
    obtain ⟨es, hes⟩ := log_delivers hd
    have hnote : Own (a.note (.killed (.tcp i) (a.state i))) :=
      (h ((hb.init hes).init rfl)).same rfl rfl rfl (by simp [Logs, Entry.owned])
    refine own_delivers hd hb (fun hn => ?_) ?_
    · rcases hevent with rfl | rfl <;> cases hn
    · rcases hst with rfl | ⟨hs, rfl⟩
      · exact hnote.settle i (by simp)
      · have hsame : (a.note (.killed (.tcp i) (a.state i))).setState i .synSent =
            a.note (.killed (.tcp i) (a.state i)) := by
          simp [setState, Life.note, ← hs]
        rw [hsame]
        exact hnote
  | close _ i hstate hclosing hclosed hd =>
    obtain ⟨es, hes⟩ := log_delivers hd
    refine own_delivers hd hb (fun hn => by cases hn) ?_
    exact (h (hb.init hes)).same (l := []) rfl rfl (by simp [setClosing, setClosed]) (by simp [Logs])
  | lateClose _ i st hfin hst hclosing hclosed hd =>
    obtain ⟨es, hes⟩ := log_delivers hd
    have ha := (h (hb.init hes)).settle i (down_state hst)
    refine own_delivers hd hb (fun hn => by cases hn) ?_
    exact ha.same (l := []) rfl rfl (by simp [setClosed]) (by simp [Logs])
  | finish i st hst =>
    have ha := (h hb).settle i (down_state (Or.inl hst))
    exact ha.same (l := []) rfl rfl (by simp [setClosing]) (by simp [Logs])
  | down i st hclosing hst =>
    refine (h hb).settle i (down_state ?_)
    rcases hst with hst | ⟨_, hst | hst⟩
    · exact Or.inr (Or.inr hst)
    · exact Or.inl hst
    · exact Or.inr (Or.inl hst)
  | accept _ i port guid hfree hguid hd =>
    obtain ⟨es, hes⟩ := log_delivers hd
    obtain ⟨hown, hmine⟩ := own_accept (fun ha => h ha) ((hb.init hes).init rfl)
    exact own_delivers hd hb (fun _ => named_issue hmine guid)
      (hown.issue (.udp i) guid (not_awaits_issue i guid))
  | acceptDhcp i port hfree hport => exact (own_accept (fun ha => h ha) hb).1
  | announce c i guid ho hrequest hguid hd =>
    have hc : Settled c.log := hb
    obtain ⟨es, hes⟩ := log_delivers hd
    have ha := h ((hc.init hes).init rfl)
    have hown := own_delivers hd hc (fun _ => named_issue (ha.ready (.udp i) hrequest) guid)
      (ha.issue (.udp i) guid (not_awaits_issue i guid))
    refine hown.change (.udp i) (l := []) (fun hn => ?_) (fun s hs => ⟨?_, ?_⟩)
      (by simp [setRequest]) (by simp [Logs])
    · simp [Awaits, setRequest] at hn
    · cases s with
      | tcp j => exact fun hn => hn
      | udp j => simp [Awaits, setRequest, hs]
    · simp [side, setRequest, hs]
  | data _ slot event ho hevent hd =>
    obtain ⟨es, hes⟩ := log_delivers hd
    refine own_delivers hd hb (fun hn => ?_) (h (hb.init hes))
    subst hn
    cases slot <;> cases hevent
  | closeUdp _ i ho hdhcp hd =>
    obtain ⟨es, hes⟩ := log_delivers hd
    refine own_delivers hd hb (fun hn => by cases hn) ?_
    have ha := h (hb.init hes)
    refine ha.change (.udp i) (l := []) (fun hn => ?_) (fun s hs => ⟨?_, ?_⟩)
      (by simp [setLport]) (by simp [Logs])
    · have hmine := ha.ready (.udp i) hn
      have hrequest : a.connectRequest (.udp i) = true := hn
      cases horigin : a.origin (.udp i) with
      | none => simp [Side.Mine, side, horigin] at hmine
      | some origin =>
        cases origin with
        | active link => simpa [Side.Mine, side, setLport, horigin] using hmine
        | passive port => simp [Side.Mine, side, horigin, hrequest] at hmine
    · cases s <;> exact fun hn => hn
    · simp [side, setLport, hs]
  | transmit => exact (h (hb.init rfl)).same rfl rfl rfl (by simp [Logs, Entry.owned])
  | replace => exact (h (hb.init rfl)).same rfl rfl rfl (by simp [Logs, Entry.owned])
  | ack _ i hsent ho hdhcp hd =>
    obtain ⟨es, hes⟩ := log_delivers hd
    refine own_delivers hd hb (fun hn => by cases hn) ?_
    exact (h (hb.init hes)).same (l := []) rfl rfl (by simp [setSent]) (by simp [Logs])
  | arp _ i hpending ho hdhcp hd =>
    obtain ⟨es, hes⟩ := log_delivers hd
    refine own_delivers hd hb (fun hn => by cases hn) ?_
    exact (h (hb.init hes)).same (l := []) rfl rfl (by simp [setPendingArp]) (by simp [Logs])
  | ackDhcp => exact (h hb).same (l := []) rfl rfl (by simp [setSent]) (by simp [Logs])
  | arpDhcp => exact (h hb).same (l := []) rfl rfl (by simp [setPendingArp]) (by simp [Logs])

end Life

theorem ownership (hconns : nT + nU ≤ maxGuid) (cfg : Config)
    (numTcp numUdp numPorts arptab : Nat) (dhcp : Bool) (inputs : List (Env × Input)) :
    let w : Stack nT nU := run cfg (uipInit nT nU numTcp numUdp numPorts arptab dhcp) inputs
    Settled w.log → ∀ e ∈ w.log, e.owned = true := by
  intro w hw
  have h : (w.life none).OwnInv := by
    refine run_invariant hconns cfg Life.OwnInv (fun _ => ⟨fun slot ha => ?_, ?_⟩)
      (fun _ _ => Life.own_act) inputs
    · cases slot with
      | tcp i => rcases ha with ha | ha <;> cases ha
      | udp i => cases ha
    · exact fun e he => absurd he List.not_mem_nil
  exact (h hw).sent

def acceptInputs : List (Env × Input) :=
  [(noEnv, .segment ⟨host, htons 5000, htons 8080, 20, 0, false, true, false, false, false, false,
     1000, 0, 0, none⟩),
   (noEnv, .segment ⟨host, htons 5000, htons 8080, 21, 1, false, false, false, false, true, false,
     1000, 0, 0, none⟩)]

-- Link 0's connect is refused; the peer then connects to the port link 1 listens on.
def refusedInputs : List (Env × Input) :=
  [(noEnv, .serviceClients [(1, .listen 8080 .tcp), (0, .connect 80 host .tcp)]),
   (noEnv, .segment ⟨host, htons 80, htons 1025, 7, 1, false, false, true, false, false, false,
     1000, 0, 0, none⟩)] ++ acceptInputs

theorem accepted_for_other_link :
    ¬ ∀ (cfg : Config) (inputs : List (Env × Input)),
      ∀ e ∈ (run cfg (uipInit 1 1 10 10 10 8 false : Stack 1 1) inputs).log, e.owned = true := by
  intro h
  have hall : (run smallConfig (uipInit 1 1 10 10 10 8 false : Stack 1 1)
      refusedInputs).log.all Entry.owned = false := by decide +kernel
  have htrue := List.all_eq_true.mpr (h smallConfig refusedInputs)
  rw [hall] at htrue
  cases htrue

theorem ownership_accept :
    let w : Stack 1 1 := run smallConfig (uipInit 1 1 10 10 10 8 false)
      ((noEnv, .serviceClients [(1, .listen 8080 .tcp)]) :: acceptInputs)
    (1 + 1 ≤ maxGuid ∧ Settled w.log) ∧ (∀ e ∈ w.log, e.owned = true) ∧ w.log.length = 3 := by
  intro w
  have hw : Settled w.log := by
    have hall : w.log.all Entry.settled = true := by decide +kernel
    exact List.all_eq_true.mp hall
  exact ⟨⟨by decide, hw⟩, ownership (by decide) smallConfig 10 10 10 8 false
    ((noEnv, .serviceClients [(1, .listen 8080 .tcp)]) :: acceptInputs) hw, by decide +kernel⟩

end Xtcp.Uip
