import Xtcp.Library.Mailbox
import Xtcp.Uip.Ids

namespace Xtcp.Uip
open Channel Listen

variable {nT nU : Nat}

inductive Handover where
  | transmission
  | replacement
  deriving DecidableEq, Repr

def Handover.event : Handover → XtcpEvent
  | .transmission => .sentData
  | .replacement => .resendData

namespace Entry

def handsOver (i : Fin nU) : Handover → Entry nT nU → Bool
  | .transmission, .transmitted slot client _ => slot == .udp i && client
  | .replacement, .replaced slot client _ => slot == .udp i && client
  | _, _ => false

def notifies (i : Fin nU) (k : Handover) : Entry nT nU → Bool
  | .sent slot event _ _ _ _ _ _ => slot == .udp i && event == k.event
  | _ => false

-- No datagram goes out and no slot is given away while a notification is outstanding or being
-- delivered; no connection is taken for DHCP's.
def orderly : Entry nT nU → Bool
  | .transmitted _ client pending => !(client && pending)
  | .replaced _ client pending => !(client && pending)
  | .cleared _ pending => !pending
  | .bound (.udp _) old new => !dhcpcPort old && !dhcpcPort new
  | .opened (.udp i) _ _ (some wait) => wait.slot != .udp i
  | _ => true

def silent (i : Fin nU) (k : Handover) (e : Entry nT nU) : Bool :=
  !e.opens (.udp i) && !e.handsOver i k && !e.notifies i k

end Entry

def Handover.entry (k : Handover) (i : Fin nU) (client pending : Bool) : Entry nT nU :=
  match k with
  | .transmission => .transmitted (.udp i) client pending
  | .replacement => .replaced (.udp i) client pending

section

variable {i j : Fin nU} {k q : Handover} {client pending : Bool}

theorem handsOver_entry : (q.entry j client pending : Entry nT nU).handsOver i k =
    (decide (i = j ∧ k = q) && client) := by
  have hslot : (Slot.udp j == (Slot.udp i : Slot nT nU)) = decide (i = j) := by
    by_cases hij : i = j
    · simp [hij]
    · simp [hij, Ne.symm hij]
  cases k <;> cases q <;> simp [Handover.entry, Entry.handsOver, hslot]

theorem opens_entry (slot : Slot nT nU) :
    (q.entry j client pending : Entry nT nU).opens slot = false := by
  cases q <;> rfl

theorem orderly_entry :
    (q.entry j client pending : Entry nT nU).orderly = !(client && pending) := by
  cases q <;> rfl

theorem silent_entry (pending : Bool)
    (h : (q.entry j client pending : Entry nT nU).handsOver i k = false) :
    (q.entry j client pending : Entry nT nU).silent i k = true := by
  rw [Entry.silent, h, opens_entry]
  cases q <;> rfl

end

-- The hand-overs and notifications of a slot, each with the connection of the slot it is about.
structure Ledger where
  generation : Nat
  acts : List (Mailbox.Act Nat)
  deriving DecidableEq, Repr

def Ledger.enter (i : Fin nU) (k : Handover) (l : Ledger) (e : Entry nT nU) : Ledger :=
  if e.opens (.udp i) then { l with generation := l.generation + 1 }
  else if e.handsOver i k then { l with acts := l.acts ++ [.put l.generation] }
  else if e.notifies i k then { l with acts := l.acts ++ [.take l.generation] }
  else l

def ledger (i : Fin nU) (k : Handover) (log : List (Entry nT nU)) : Ledger :=
  log.foldl (Ledger.enter i k) ⟨0, []⟩

theorem ledger_snoc (i : Fin nU) (k : Handover) (log : List (Entry nT nU)) (e : Entry nT nU) :
    ledger i k (log ++ [e]) = (ledger i k log).enter i k e := by
  simp [ledger]

theorem ledger_silent {i : Fin nU} {k : Handover} {log : List (Entry nT nU)} {e : Entry nT nU}
    (h : e.silent i k = true) : ledger i k (log ++ [e]) = ledger i k log := by
  simp only [Entry.silent, Bool.and_eq_true, Bool.not_eq_true'] at h
  obtain ⟨⟨hopens, hover⟩, hnotifies⟩ := h
  simp [ledger_snoc, Ledger.enter, hopens, hover, hnotifies]

abbrev Orderly (log : List (Entry nT nU)) : Prop := Logs Entry.orderly log

namespace Life

variable {a b : Life nT nU} {slot : Slot nT nU} {i j : Fin nU} {k : Handover} {due : Bool}

def flag (a : Life nT nU) (i : Fin nU) : Handover → Bool
  | .transmission => a.udpSent i
  | .replacement => a.udpPendingArp i

def dhcpc (a : Life nT nU) (i : Fin nU) : Bool := dhcpcPort (a.lport (.udp i))

def owes (a : Life nT nU) (i : Fin nU) (k : Handover) (due : Bool) : Option Nat :=
  if a.dhcpc i = false ∧ (a.flag i k || due) = true then some (ledger i k a.log).generation
  else none

-- due: the notification is being delivered, its flag is clear already.
structure Hand (due : Bool) (a : Life nT nU) (i : Fin nU) (k : Handover) : Prop where
  balance : Mailbox.runOnce none (ledger i k a.log).acts = some (a.owes i k due)
  linked : a.flag i k = true → a.dhcpc i = false → a.linknum (.udp i) ≠ none
  due : due = true → a.dhcpc i = false ∧ a.flag i k = false

theorem Hand.same (h : Hand due a i k) (hledger : ledger i k b.log = ledger i k a.log)
    (hflag : b.flag i k = a.flag i k) (hdhcpc : b.dhcpc i = a.dhcpc i)
    (hlink : a.linknum (.udp i) ≠ none → b.linknum (.udp i) ≠ none) : Hand due b i k where
  balance := by
    have howes : b.owes i k due = a.owes i k due := by simp only [owes, hledger, hflag, hdhcpc]
    rw [hledger, howes]
    exact h.balance
  linked hf hd := hlink (h.linked (hflag ▸ hf) (hdhcpc ▸ hd))
  due hdue := by
    rw [hdhcpc, hflag]
    exact h.due hdue

theorem Hand.note (h : Hand due a i k) {e : Entry nT nU} (hlog : b.log = a.log ++ [e])
    (he : e.silent i k = true) (hflag : b.flag i k = a.flag i k) (hdhcpc : b.dhcpc i = a.dhcpc i)
    (hlink : a.linknum (.udp i) ≠ none → b.linknum (.udp i) ≠ none) : Hand due b i k :=
  h.same (hlog ▸ ledger_silent he) hflag hdhcpc hlink

theorem owes_none (h : a.flag i k = false) : a.owes i k false = none := by
  simp [owes, h]

theorem flag_clear (i : Fin nU) (port : Nat) (k : Handover) :
    (a.clear i port).flag i k = false := by
  cases k <;> simp [flag, clear]

theorem flag_clear_of_ne (h : j ≠ i) (port : Nat) (k : Handover) :
    (a.clear i port).flag j k = a.flag j k := by
  cases k <;> simp [flag, clear, h]

theorem dhcpc_clear_of_ne (h : j ≠ i) (port : Nat) :
    (a.clear i port).dhcpc j = a.dhcpc j := by
  simp [dhcpc, clear, h]

theorem Hand.clear (h : Hand due a j k) (i : Fin nU) (port : Nat) (hfree : a.lport (.udp i) = 0)
    (hdue : due = true → j ≠ i) (ho : Orderly (a.clear i port).log) :
    Hand due (a.clear i port) j k := by
  have hlog : (a.clear i port).log = a.log ++ [_] := rfl
  have hsilent : ledger j k (a.clear i port).log = ledger j k a.log :=
    ledger_silent (by cases k <;> rfl)
  by_cases hj : j = i
  · subst hj
    have hpending := ho.last hlog
    simp only [Entry.orderly, Bool.not_eq_true', Bool.or_eq_false_iff] at hpending
    have hflag : a.flag j k = false := by
      cases k
      · exact hpending.1
      · exact hpending.2
    have hnot : due = false := by
      cases due with
      | false => rfl
      | true => exact absurd rfl (hdue rfl)
    subst hnot
    have hcleared := flag_clear (a := a) j port k
    refine ⟨?_, ?_, ?_⟩
    · rw [hsilent, owes_none hcleared]
      exact h.balance.trans (congrArg some (owes_none hflag))
    · intro hf
      rw [hcleared] at hf
      cases hf
    · intro hf
      cases hf
  · exact h.same hsilent (flag_clear_of_ne hj port k) (dhcpc_clear_of_ne hj port) fun hl => hl

theorem Hand.openAs (h : Hand due a i k) (slot : Slot nT nU) (origin : Origin)
    (hslot : slot = .udp i → a.flag i k = false ∧ due = false) :
    Hand due (a.openAs slot origin) i k := by
  by_cases hs : slot = .udp i
  · obtain ⟨hflag, rfl⟩ := hslot hs
    subst hs
    have hledger : ledger i k (a.openAs (.udp i) origin).log =
        { ledger i k a.log with generation := (ledger i k a.log).generation + 1 } := by
      simp [Life.openAs, ledger_snoc, Ledger.enter, Entry.opens]
    refine ⟨?_, h.linked, h.due⟩
    have hopened : (a.openAs (.udp i) origin).flag i k = false := hflag
    rw [hledger, owes_none hopened]
    exact h.balance.trans (congrArg some (owes_none hflag))
  · refine h.note rfl ?_ rfl rfl fun hl => hl
    cases k <;> simp [Entry.silent, Entry.opens, Entry.handsOver, Entry.notifies, hs]

theorem Hand.connect (h : Hand due a i k) (slot : Slot nT nU) (link : Nat)
    (hslot : slot = .udp i → a.flag i k = false ∧ due = false) :
    Hand due (a.connect slot link) i k := by
  refine (h.openAs slot (.active link) hslot).same rfl (by cases k <;> rfl) rfl fun hl => ?_
  by_cases hs : Slot.udp i = slot
  · simp [Life.connect, hs]
  · simpa [Life.connect, Life.openAs, hs] using hl

-- The link of a connection that was asked for stays; an accepted one owes nothing yet.
theorem Hand.issue (h : Hand due a i k) (guid : Nat)
    (hslot : slot = .udp i → a.flag i k = false ∨ a.connectRequest slot = true) :
    Hand due (a.issue slot guid) i k := by
  have hledger : ledger i k (a.issue slot guid).log = ledger i k a.log :=
    ledger_silent (by cases k <;> rfl)
  have hflag : (a.issue slot guid).flag i k = a.flag i k := by cases k <;> rfl
  have howes : (a.issue slot guid).owes i k due = a.owes i k due := by
    simp only [owes, hledger, hflag]
    rfl
  refine ⟨?_, fun hf hd => ?_, fun hd => ?_⟩
  · rw [hledger, howes]
    exact h.balance
  · have hl := h.linked (hflag ▸ hf) hd
    by_cases hs : slot = .udp i
    · subst hs
      have hrequest := (hslot rfl).resolve_left (by simp [← hflag, hf])
      simpa [Life.issue, initLinknum, hrequest] using hl
    · simpa [Life.issue, Ne.symm hs] using hl
  · rw [hflag]
    exact h.due hd

theorem hand_command (hr : due = true → ∃ wait, a.raising = some wait ∧ wait.slot = .udp i)
    (hc : Command a b) (ho : Orderly b.log) (h : Hand due a i k) : Hand due b i k := by
  cases hc with
  | adjust _ hc =>
    cases hc with
    | tables => exact h.same rfl (by cases k <;> rfl) rfl fun hl => hl
    | pause => exact h.note rfl (by cases k <;> rfl) (by cases k <;> rfl) rfl fun hl => hl
    | bind slot port =>
      refine h.note rfl (by cases k <;> rfl) (by cases k <;> rfl) ?_ fun hl => hl
      by_cases hs : slot = .udp i
      · subst hs
        have hbound := ho.last (l := a.log) rfl
        simp only [Entry.orderly, Bool.and_eq_true, Bool.not_eq_true'] at hbound
        simpa [dhcpc, setLport, Life.note, hbound.1] using hbound.2
      · simp [dhcpc, setLport, Life.note, Ne.symm hs]
  | connectTcp j port link hfree =>
    have hprep : Hand due ((a.setState j .synSent).setLport (.tcp j) port) i k :=
      h.same rfl (by cases k <;> rfl) (by simp [dhcpc, setLport, setState]) fun hl => hl
    exact hprep.connect (.tcp j) link fun hs => absurd hs (by simp)
  | connectUdp j port link hfree =>
    have hlog : ((a.clear j port).connect (.udp j) link).log = (a.clear j port).log ++ [_] := rfl
    have hne : due = true → i ≠ j := by
      rintro hdue rfl
      obtain ⟨wait, hraising, hslot⟩ := hr hdue
      have hopened := ho.last hlog
      simp [Entry.orderly, clear, hraising, hslot] at hopened
    refine (h.clear j port hfree hne (ho.init hlog)).connect (.udp j) link fun hs => ?_
    cases hs
    refine ⟨flag_clear i port k, ?_⟩
    cases due with
    | false => rfl
    | true => exact absurd rfl (hne rfl)

theorem hand_commands (hr : due = true → ∃ wait, a.raising = some wait ∧ wait.slot = .udp i)
    (hc : Commands a b) (ho : Orderly b.log) (h : Hand due a i k) : Hand due b i k := by
  induction hc with
  | refl => exact h
  | tail hcs hc ih =>
    obtain ⟨es, hes⟩ := log_command hc
    refine hand_command ?_ hc ho (ih (ho.init hes))
    intro hdue
    obtain ⟨wait, hraising, hslot⟩ := hr hdue
    exact ⟨wait, (linknum_commands hraising hcs).1, hslot⟩

theorem hand_delivers {event : XtcpEvent} (hd : Delivers a slot event b) (ho : Orderly b.log)
    (hdue : due = true ↔ slot = .udp i ∧ event = k.event)
    (hlink : due = true → a.linknum (.udp i) ≠ none) (h : Hand due a i k) : Hand false b i k := by
  cases hd with
  | skip hnone =>
    cases due with
    | false => exact h
    | true =>
      obtain ⟨rfl, _⟩ := hdue.mp rfl
      exact absurd hnone (hlink rfl)
  | send ready b link conn hready hserved =>
    have hraise : Hand due (a.raise slot event (some ready)) i k :=
      h.same rfl (by cases k <;> rfl) rfl fun hl => hl
    have hb : Hand due b i k := by
      refine hand_commands ?_ hserved (ho.init rfl) hraise
      intro hd
      exact ⟨_, rfl, (hdue.mp hd).1⟩
    have hflag : (b.send ⟨slot, event, some ready⟩ link conn).flag i k = b.flag i k := by
      cases k <;> rfl
    cases due with
    | false =>
      refine hb.note rfl ?_ hflag rfl fun hl => hl
      have hnot : ¬ (slot = .udp i ∧ event = k.event) := fun hs => by simpa using hdue.mpr hs
      rw [not_and_or] at hnot
      cases k <;> simpa [Entry.silent, Entry.opens, Entry.handsOver, Entry.notifies] using hnot
    | true =>
      obtain ⟨rfl, rfl⟩ := hdue.mp rfl
      obtain ⟨hdhcpc, hclear⟩ := hb.due rfl
      have hledger : ledger i k (b.send ⟨.udp i, k.event, some ready⟩ link conn).log =
          { ledger i k b.log with
            acts := (ledger i k b.log).acts ++ [.take (ledger i k b.log).generation] } := by
        cases k <;>
          simp [Life.send, ledger_snoc, Ledger.enter, Entry.opens, Entry.handsOver, Entry.notifies]
      have howes : b.owes i k true = some (ledger i k b.log).generation := by
        simp [owes, hdhcpc]
      refine ⟨?_, ?_, fun hf => absurd hf (by simp)⟩
      · rw [hledger, owes_none (hflag.trans hclear)]
        exact Mailbox.runOnce_take (howes ▸ hb.balance)
      · intro hf
        rw [hflag, hclear] at hf
        cases hf

def HandInv (a : Life nT nU) : Prop := Orderly a.log → ∀ i k, Hand false a i k

theorem hand_quiet {event : XtcpEvent} (hd : Delivers a slot event b) (ho : Orderly b.log)
    (hevent : ∀ k : Handover, slot = .udp i → event ≠ k.event) (h : Hand false a i k) :
    Hand false b i k :=
  hand_delivers hd ho ⟨fun hf => absurd hf (by simp), fun ⟨hs, he⟩ => absurd he (hevent k hs)⟩
    (fun hf => absurd hf (by simp)) h

def setFlag (a : Life nT nU) (i : Fin nU) : Handover → Bool → Life nT nU
  | .transmission, v => a.setSent i v
  | .replacement, v => a.setPendingArp i v

theorem flag_setFlag (j : Fin nU) (q : Handover) (v : Bool) (i : Fin nU) (k : Handover) :
    (a.setFlag j q v).flag i k = if i = j ∧ k = q then v else a.flag i k := by
  cases k <;> cases q <;> simp [flag, setFlag, setSent, setPendingArp, Function.update_apply]

theorem linknum_setFlag (j : Fin nU) (q : Handover) (v : Bool) :
    (a.setFlag j q v).linknum = a.linknum := by
  cases q <;> rfl

theorem dhcpc_setFlag (j : Fin nU) (q : Handover) (v : Bool) :
    (a.setFlag j q v).dhcpc = a.dhcpc := by
  cases q <;> rfl

theorem log_setFlag (j : Fin nU) (q : Handover) (v : Bool) :
    (a.setFlag j q v).log = a.log := by
  cases q <;> rfl

theorem hand_setFlag {q : Handover} {v : Bool} (hne : ¬ (i = j ∧ k = q)) (h : Hand due a i k) :
    Hand due (a.setFlag j q v) i k := by
  refine h.same (congrArg (ledger i k) (log_setFlag j q v)) ?_
    (congrFun (dhcpc_setFlag j q v) i) fun hl => ?_
  · rw [flag_setFlag, if_neg hne]
  · rw [linknum_setFlag]
    exact hl

theorem hand_setFlag_dhcpc {q : Handover} {v : Bool} (hdhcpc : a.dhcpc j = true)
    (h : Hand false a i k) : Hand false (a.setFlag j q v) i k := by
  by_cases hne : i = j ∧ k = q
  · obtain ⟨rfl, rfl⟩ := hne
    have hd : (a.setFlag i k v).dhcpc i = true := (congrFun (dhcpc_setFlag i k v) i).trans hdhcpc
    have hbefore : a.owes i k false = none := by simp [owes, hdhcpc]
    have hafter : (a.setFlag i k v).owes i k false = none := by simp [owes, hd]
    refine ⟨?_, fun _ hf => ?_, fun hf => absurd hf (by simp)⟩
    · rw [log_setFlag, hafter]
      exact h.balance.trans (congrArg some hbefore)
    · rw [hd] at hf
      cases hf
  · exact hand_setFlag hne h

theorem hand_notified {q : Handover} (hflag : a.flag j q = true) (hdhcpc : a.dhcpc j = false)
    (hd : Delivers (a.setFlag j q false) (.udp j) q.event b) (ho : Orderly b.log)
    (h : Hand false a i k) : Hand false b i k := by
  by_cases hne : i = j ∧ k = q
  · obtain ⟨rfl, rfl⟩ := hne
    have hclear : (a.setFlag i k false).flag i k = false := by simp [flag_setFlag]
    have hd' : (a.setFlag i k false).dhcpc i = false :=
      (congrFun (dhcpc_setFlag i k false) i).trans hdhcpc
    have hlog : ledger i k (a.setFlag i k false).log = ledger i k a.log :=
      congrArg (ledger i k) (log_setFlag i k false)
    have hdue : Hand true (a.setFlag i k false) i k := by
      refine ⟨?_, fun hf => absurd hf (by simp [hclear]), fun _ => ⟨hd', hclear⟩⟩
      have howes : (a.setFlag i k false).owes i k true = a.owes i k false := by
        simp [owes, hd', hdhcpc, hflag, hlog]
      rw [hlog, howes]
      exact h.balance
    refine hand_delivers hd ho (by simp) (fun _ => ?_) hdue
    rw [linknum_setFlag]
    exact h.linked hflag hdhcpc
  · refine hand_delivers hd ho ⟨fun hf => absurd hf (by simp), ?_⟩ (fun hf => absurd hf (by simp))
      (hand_setFlag hne h)
    rintro ⟨hs, he⟩
    cases hs
    refine absurd ⟨rfl, ?_⟩ hne
    cases k <;> cases q <;> first | rfl | cases he

theorem hand_handed (j : Fin nU) (q : Handover)
    (hl : a.linknum (.udp j) ≠ none ∨ a.dhcpc j = true)
    (ho : (q.entry j (!a.dhcpc j) (a.flag j q) : Entry nT nU).orderly = true)
    (h : Hand false a i k) :
    Hand false ((a.note (q.entry j (!a.dhcpc j) (a.flag j q))).setFlag j q true) i k := by
  cases hdhcpc : a.dhcpc j with
  | true =>
    refine hand_setFlag_dhcpc (a := a.note _) hdhcpc ?_
    refine h.note rfl ?_ (by cases k <;> rfl) rfl fun hl => hl
    exact silent_entry _ (by simp [handsOver_entry])
  | false =>
    by_cases hne : i = j ∧ k = q
    · obtain ⟨rfl, rfl⟩ := hne
      have hflag : a.flag i k = false := by simpa [orderly_entry, hdhcpc] using ho
      generalize ha : a.note (k.entry i (!false) (a.flag i k)) = c
      have hlog : ledger i k (c.setFlag i k true).log = { ledger i k a.log with
          acts := (ledger i k a.log).acts ++ [.put (ledger i k a.log).generation] } := by
        rw [log_setFlag, ← ha]
        simp [Life.note, ledger_snoc, Ledger.enter, opens_entry, handsOver_entry]
      have hset : (c.setFlag i k true).flag i k = true := by simp [flag_setFlag]
      have hd : (c.setFlag i k true).dhcpc i = false := by
        rw [dhcpc_setFlag, ← ha]
        exact hdhcpc
      refine ⟨?_, fun _ _ => ?_, fun hf => absurd hf (by simp)⟩
      · have howes : (c.setFlag i k true).owes i k false = some (ledger i k a.log).generation := by
          simp [owes, hd, hset, hlog]
        rw [hlog, howes]
        exact Mailbox.runOnce_put _ (h.balance.trans (congrArg some (owes_none hflag)))
      · rw [linknum_setFlag, ← ha]
        exact hl.resolve_right (by simp [hdhcpc])
    · refine hand_setFlag hne ?_
      refine h.note rfl ?_ (by cases k <;> rfl) rfl fun hl => hl
      exact silent_entry _ (by simp [handsOver_entry, hne])

theorem hand_act (h : HandInv a) (hact : Act a b) : HandInv b := by
  intro ho i k
  cases hact with
  | command _ hc =>
    obtain ⟨es, hes⟩ := log_command hc
    exact hand_command (fun hf => absurd hf (by simp)) hc ho (h (ho.init hes) i k)
  | listen j port hfree =>
    have hopen := (h (ho.init rfl) i k).openAs (.tcp j) (.passive port) fun hs => by cases hs
    exact hopen.same rfl (by cases k <;> rfl) (by simp [dhcpc, setLport, setState]) fun hl => hl
  | establish _ j guid hstate hclosing hguid hb =>
    obtain ⟨es, hes⟩ := log_delivers hb
    refine hand_quiet hb ho (fun k _ => by cases k <;> simp [Handover.event]) ?_
    refine (h ((ho.init hes).init rfl) i k).note rfl (by cases k <;> rfl) (by cases k <;> rfl) rfl
      fun hl => ?_
    simpa [issue, setState] using hl
  | kill _ j event st hclosing hevent hst hb =>
    obtain ⟨es, hes⟩ := log_delivers hb
    refine hand_quiet hb ho (fun k hs => by cases hs) ?_
    exact (h ((ho.init hes).init rfl) i k).note rfl (by cases k <;> rfl) (by cases k <;> rfl) rfl
      fun hl => hl
  | close _ j hstate hclosing hclosed hb =>
    obtain ⟨es, hes⟩ := log_delivers hb
    refine hand_quiet hb ho (fun k hs => by cases hs) ?_
    exact (h (ho.init hes) i k).same rfl (by cases k <;> rfl) rfl fun hl => hl
  | lateClose _ j st hfin hst hclosing hclosed hb =>
    obtain ⟨es, hes⟩ := log_delivers hb
    refine hand_quiet hb ho (fun k hs => by cases hs) ?_
    exact (h (ho.init hes) i k).same rfl (by cases k <;> rfl) rfl fun hl => hl
  | accept _ j port guid hfree hguid hb =>
    obtain ⟨es, hes⟩ := log_delivers hb
    have hopened := (ho.init hes).init rfl
    have hclear := (h ((hopened.init rfl).init rfl) i k).clear j port hfree (by simp)
      (hopened.init rfl)
    have hopen := hclear.openAs (.udp j) (.passive port) fun hs => by
      cases hs
      exact ⟨flag_clear i port k, rfl⟩
    refine hand_quiet hb ho (fun k _ => by cases k <;> simp [Handover.event]) ?_
    exact hopen.issue guid fun hs => by
      cases hs
      exact Or.inl (flag_clear i port k)
  | acceptDhcp j port hfree hport =>
    have hclear := (h ((ho.init rfl).init rfl) i k).clear j port hfree (by simp) (ho.init rfl)
    exact hclear.openAs (.udp j) (.passive port) fun hs => by
      cases hs
      exact ⟨flag_clear i port k, rfl⟩
  | announce c j guid hopen hrequest hguid hb =>
    obtain ⟨es, hes⟩ := log_delivers hb
    have ho : Orderly c.log := ho
    have hc : Hand false c i k := by
      refine hand_quiet hb ho (fun k _ => by cases k <;> simp [Handover.event]) ?_
      exact (h ((ho.init hes).init rfl) i k).issue guid fun hs => Or.inr (by cases hs; exact hrequest)
    exact hc.same rfl (by cases k <;> rfl) rfl fun hl => hl
  | data _ slot event hopen hevent hb =>
    obtain ⟨es, hes⟩ := log_delivers hb
    refine hand_quiet hb ho (fun k hs he => ?_) (h (ho.init hes) i k)
    subst hs he
    cases k <;> simp [isData, Handover.event] at hevent
  | closeUdp _ j hopen hdhcp hb =>
    obtain ⟨es, hes⟩ := log_delivers hb
    refine hand_quiet hb ho (fun k _ => by cases k <;> simp [Handover.event]) ?_
    refine (h (ho.init hes) i k).same rfl (by cases k <;> rfl) ?_ fun hl => hl
    by_cases hij : i = j
    · subst hij
      simpa [dhcpc, setLport] using (hdhcp.trans (by decide)).symm
    · simp [dhcpc, setLport, hij]
  | transmit j hl => exact hand_handed j .transmission hl (ho.last rfl) (h (ho.init rfl) i k)
  | replace j hl => exact hand_handed j .replacement hl (ho.last rfl) (h (ho.init rfl) i k)
  | ack _ j hsent hopen hdhcp hb =>
    obtain ⟨es, hes⟩ := log_delivers hb
    exact hand_notified (q := .transmission) hsent hdhcp hb ho (h (ho.init hes) i k)
  | arp _ j hpending hopen hdhcp hb =>
    obtain ⟨es, hes⟩ := log_delivers hb
    exact hand_notified (q := .replacement) hpending hdhcp hb ho (h (ho.init hes) i k)
  | ackDhcp j hdhcp => exact hand_setFlag_dhcpc (q := .transmission) hdhcp (h ho i k)
  | arpDhcp j hdhcp => exact hand_setFlag_dhcpc (q := .replacement) hdhcp (h ho i k)
  | finish j st => exact (h ho i k).same rfl (by cases k <;> rfl) rfl fun hl => hl
  | down j st => exact (h ho i k).same rfl (by cases k <;> rfl) rfl fun hl => hl

end Life

-- What xtcp_process_udp_acks and an ARP packet do for one connection.
def notice (cfg : Config) (i : Fin nU) (w : Stack nT nU) : Handover → Stack nT nU
  | .transmission => ackUdp cfg w i
  | .replacement => flush (udpArpEvent cfg i w)

theorem log_flush (i : Fin nU) (w : Stack nT nU) :
    ∃ post, (flush (udpSend i w)).log = w.log ++ post := by
  unfold udpSend
  split
  · exact ⟨[], by simp [flush, Stack.drop]⟩
  · unfold flush uipArpOut
    dsimp only
    split <;> exact ⟨_, rfl⟩

theorem log_sends {i : Fin nU} {k : Handover} {a : Life nT nU} {w' : Stack nT nU}
    (h : a.Delivers (.udp i) k.event (w'.life none)) (hlink : a.linknum (.udp i) ≠ none) :
    ∃ pre e post, (flush (udpSend i w')).log = a.log ++ pre ++ e :: post ∧
      e.notifies i k = true := by
  obtain ⟨post, hpost⟩ := log_flush i w'
  generalize hb : w'.life none = b at h
  have hlog : w'.log = b.log := congrArg Life.log hb
  cases h with
  | skip hnone => exact absurd hnone hlink
  | send ready b link conn hready hserved =>
    obtain ⟨pre, hpre⟩ := Life.log_commands hserved
    have hpre : b.log = a.log ++ pre := hpre
    refine ⟨pre, .sent (.udp i) k.event (some ready) link conn (b.origin (.udp i))
      (b.owner (.udp i)) (b.connectRequest (.udp i)), post, ?_, ?_⟩
    · rw [hpost, hlog, Life.send, hpre, List.append_assoc, List.append_assoc, List.append_assoc,
        List.singleton_append]
    · simp [Entry.notifies]

theorem noticed (cfg : Config) {i : Fin nU} {k : Handover} {w : Stack nT nU}
    (hflag : (w.life none).flag i k = true) (hl : (w.udp i).lport ≠ 0)
    (hdhcpc : isDhcpc w (.udp i) = false) (hlink : (w.app (.udp i)).linknum ≠ none) :
    ∃ pre e post, (notice cfg i w k).log = w.log ++ pre ++ e :: post ∧ e.notifies i k = true := by
  cases k with
  | transmission =>
    have hsent : (w.udp i).udpSent = true := hflag
    have hsame := isDhcpc_setUdp w i (fun c => { c with udpSent := !c.udpSent }) rfl
    have hs := sends_ackdata cfg { withFlags { Flags.none with ackdata := true }
      (w.setUdp i fun c => { c with udpSent := !c.udpSent }) with uipLen := 0, uipSlen := 0 }
      (hsame.trans hdhcpc) rfl
    simp only [notice, ackUdp, hsent, if_true, udpAckdata, if_pos hl, udpCall]
    exact log_sends (k := .transmission) hs.delivers hlink
  | replacement =>
    have hpending : (w.udp i).udpPendingArp = true := hflag
    have hsame := isDhcpc_setUdp w i (fun c => { c with udpPendingArp := !c.udpPendingArp }) rfl
    have hs := sends_resend cfg { withFlags { Flags.none with rexmit := true }
      (w.setUdp i fun c => { c with udpPendingArp := !c.udpPendingArp }) with
      uipLen := 0, uipSlen := 0 } (hsame.trans hdhcpc) rfl
    simp only [notice, udpArpEvent, if_pos (And.intro hl hpending), udpCall]
    exact log_sends (k := .replacement) hs.delivers hlink

theorem hand_init (numTcp numUdp numPorts arptab : Nat) (dhcp : Bool) :
    ((uipInit nT nU numTcp numUdp numPorts arptab dhcp).life none).HandInv := by
  intro _ i k
  have hflag : ((uipInit nT nU numTcp numUdp numPorts arptab dhcp).life none).flag i k = false := by
    cases k
    · show ((uipInit nT nU numTcp numUdp numPorts arptab dhcp).udp i).udpSent = false
      simp only [uipInit]
      split <;> rfl
    · show ((uipInit nT nU numTcp numUdp numPorts arptab dhcp).udp i).udpPendingArp = false
      simp only [uipInit]
      split <;> rfl
  refine ⟨?_, fun hf => absurd hf (by simp [hflag]), fun hf => absurd hf (by simp)⟩
  rw [Life.owes_none hflag]
  rfl

def handing (len : Nat) : Env := { noEnv with lens := [len] }

-- The periodic timer and the next poll both ask for a datagram before the acks are processed.
def twiceInputs : List (Env × Input) :=
  [(noEnv, .serviceClients [(0, .connect 80 broadcastIpaddr .udp)]),
   (noEnv, .checkConnectionPoll),
   (noEnv, .serviceClients [(0, .initSend 1), (0, .initSend 1)]),
   (handing 5, .periodicTimer),
   (handing 5, .checkConnectionPoll),
   (noEnv, .udpAcks)]

-- A datagram replaced by an ARP request, then sent again and not yet acknowledged.
def replacedInputs : List (Env × Input) :=
  [(noEnv, .serviceClients [(0, .connect 80 host .udp)]),
   (noEnv, .checkConnectionPoll),
   (noEnv, .serviceClients [(0, .initSend 1)]),
   (handing 5, .checkConnectionPoll),
   (handing 5, .arpPacket ⟨.reply, host, zeroIpaddr, ⟨1, 2, 3, 4, 5, 6⟩, true⟩)]

end Xtcp.Uip
