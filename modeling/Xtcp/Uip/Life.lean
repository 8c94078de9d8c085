import Mathlib.Logic.Relation
import Xtcp.Uip.Server

namespace Xtcp.Uip
open Channel Listen

variable {nT nU : Nat}

-- The life of the connections: what opens, names, announces and ends them. closing is a TCP
-- connection whose end has been reported while it is still ESTABLISHED.
@[ext] structure Life (nT nU : Nat) where
  state : Fin nT → TcpState
  lport : Slot nT nU → Nat
  udpSent : Fin nU → Bool
  udpPendingArp : Fin nU → Bool
  linknum : Slot nT nU → Option Nat
  id : Slot nT nU → Nat
  connectionType : Slot nT nU → Nat
  connectRequest : Slot nT nU → Bool
  closed : Slot nT nU → Bool
  tables : Tables
  guid : Nat
  raising : Option (Wait nT nU)
  origin : Slot nT nU → Option Origin
  owner : Slot nT nU → Option Nat
  log : List (Entry nT nU)
  closing : Option (Fin nT)

def Stack.life (w : Stack nT nU) (closing : Option (Fin nT)) : Life nT nU where
  state := w.state
  lport := w.lport
  udpSent i := (w.udp i).udpSent
  udpPendingArp i := (w.udp i).udpPendingArp
  linknum slot := (w.app slot).linknum
  id slot := (w.app slot).conn.id
  connectionType slot := (w.app slot).conn.connectionType
  connectRequest slot := (w.app slot).s.connectRequest
  closed slot := (w.app slot).s.closed
  tables := w.tables
  guid := w.guid
  raising := w.raising
  origin := w.origin
  owner := w.owner
  log := w.log
  closing := closing

namespace Life

def note (a : Life nT nU) (e : Entry nT nU) : Life nT nU := { a with log := a.log ++ [e] }

def setState (a : Life nT nU) (i : Fin nT) (st : TcpState) : Life nT nU :=
  { a with state := Function.update a.state i st }

def setLport (a : Life nT nU) (slot : Slot nT nU) (port : Nat) : Life nT nU :=
  { a with lport := Function.update a.lport slot port }

def setSent (a : Life nT nU) (i : Fin nU) (b : Bool) : Life nT nU :=
  { a with udpSent := Function.update a.udpSent i b }

def setPendingArp (a : Life nT nU) (i : Fin nU) (b : Bool) : Life nT nU :=
  { a with udpPendingArp := Function.update a.udpPendingArp i b }

def setRequest (a : Life nT nU) (slot : Slot nT nU) (b : Bool) : Life nT nU :=
  { a with connectRequest := Function.update a.connectRequest slot b }

def setClosed (a : Life nT nU) (slot : Slot nT nU) : Life nT nU :=
  { a with closed := Function.update a.closed slot true }

def setType (a : Life nT nU) (slot : Slot nT nU) (t : Nat) : Life nT nU :=
  { a with connectionType := Function.update a.connectionType slot t }

def setClosing (a : Life nT nU) (closing : Option (Fin nT)) : Life nT nU :=
  { a with closing := closing }

def free (a : Life nT nU) : Slot nT nU → Prop
  | .tcp i => a.state i = .closed ∨ a.state i = .timeWait
  | .udp i => a.lport (.udp i) = 0

def openAs (a : Life nT nU) (slot : Slot nT nU) (origin : Origin) : Life nT nU :=
  { a with
    origin := Function.update a.origin slot (some origin)
    log := a.log ++ [.opened slot origin (a.connectRequest slot) a.raising] }

def clear (a : Life nT nU) (i : Fin nU) (port : Nat) : Life nT nU :=
  { a with
    lport := Function.update a.lport (.udp i) port
    udpSent := Function.update a.udpSent i false
    udpPendingArp := Function.update a.udpPendingArp i false
    log := a.log ++ [.cleared (.udp i) (a.udpSent i || a.udpPendingArp i)] }

def connect (a : Life nT nU) (slot : Slot nT nU) (link : Nat) : Life nT nU :=
  { a.openAs slot (.active link) with
    linknum := Function.update a.linknum slot (some link)
    connectRequest := Function.update a.connectRequest slot true
    connectionType := Function.update a.connectionType slot clientConnection }

def rightOwner (a : Life nT nU) (slot : Slot nT nU) : Option Nat :=
  match a.origin slot with
  | some (.active link) => some link
  | some (.passive port) => getListenerLinknum (listeners a.tables slot) port
  | none => none

def initLinknum (a : Life nT nU) (slot : Slot nT nU) : Option Nat :=
  if a.connectRequest slot then a.linknum slot
  else getListenerLinknum (listeners a.tables slot) (a.lport slot)

def initType (a : Life nT nU) (slot : Slot nT nU) : Nat :=
  if a.connectRequest slot then a.connectionType slot else serverConnection

def issue (a : Life nT nU) (slot : Slot nT nU) (guid : Nat) : Life nT nU :=
  { a with
    linknum := Function.update a.linknum slot (a.initLinknum slot)
    id := Function.update a.id slot guid
    connectionType := Function.update a.connectionType slot (a.initType slot)
    connectRequest := Function.update a.connectRequest slot false
    closed := Function.update a.closed slot false
    guid := guid
    owner := Function.update a.owner slot (a.rightOwner slot)
    log := a.log ++ [.issued slot guid] }

def Issuable (a : Life nT nU) (slot : Slot nT nU) (guid : Nat) : Prop :=
  (∀ other, other ≠ slot → a.id other ≠ guid) ∧
    (1 ≤ a.guid ∧ a.guid ≤ maxGuid → 1 ≤ guid ∧ guid ≤ maxGuid)

def raise (a : Life nT nU) (slot : Slot nT nU) (event : XtcpEvent) (ready : Option Nat) :
    Life nT nU :=
  { a with raising := some ⟨slot, event, ready⟩ }

def send (a : Life nT nU) (wait : Wait nT nU) (link : Option Nat) (conn : Conn) : Life nT nU :=
  { a with
    raising := none
    log := a.log ++ [.sent wait.slot wait.event wait.ready link conn (a.origin wait.slot)
      (a.owner wait.slot) (a.connectRequest wait.slot)] }

end Life

def Logs (p : Entry nT nU → Bool) (log : List (Entry nT nU)) : Prop := ∀ e ∈ log, p e = true

theorem Logs.init {p : Entry nT nU → Bool} {log log' es : List (Entry nT nU)} (h : Logs p log')
    (hlog : log' = log ++ es) : Logs p log := by
  intro e he
  refine h e ?_
  rw [hlog]
  exact List.mem_append_left _ he

theorem Logs.last {p : Entry nT nU → Bool} {l log : List (Entry nT nU)} {e : Entry nT nU}
    (h : Logs p log) (hlog : log = l ++ [e]) : p e = true := by
  refine h e ?_
  rw [hlog]
  exact List.mem_append_right _ (List.mem_singleton_self _)

theorem Logs.append {p : Entry nT nU → Bool} {log log' es : List (Entry nT nU)} (h : Logs p log)
    (hlog : log' = log ++ es) (hes : Logs p es) : Logs p log' := by
  intro e he
  rw [hlog] at he
  exact (List.mem_append.mp he).elim (h e) (hes e)

def isFin : TcpState → Bool
  | .finWait1 => true
  | .finWait2 => true
  | .closing => true
  | .lastAck => true
  | _ => false

def isData : Slot nT nU → XtcpEvent → Bool
  | _, .recvData => true
  | _, .requestData => true
  | _, .poll => true
  | .tcp _, .pushData => true
  | .tcp _, .sentData => true
  | .tcp _, .resendData => true
  | _, _ => false

theorem isData_recv (slot : Slot nT nU) : isData slot .recvData = true := by cases slot <;> rfl

theorem isData_request (slot : Slot nT nU) : isData slot .requestData = true := by
  cases slot <;> rfl

theorem isData_poll (slot : Slot nT nU) : isData slot .poll = true := by cases slot <;> rfl

-- What makes a UDP slot lose its connection, or DHCP take it, without its being closed.
def Entry.spoils (slot : Slot nT nU) : Entry nT nU → Bool
  | .bound other _ new => other == slot && (new == 0 || dhcpcPort new)
  | .opened other (.passive port) _ _ => other == slot && port == 0
  | _ => false

def Entry.opens (slot : Slot nT nU) : Entry nT nU → Bool
  | .opened other _ _ _ => other == slot
  | _ => false

def Entry.reopens : Entry nT nU → Bool
  | .opened slot _ _ (some wait) => wait.slot == slot
  | _ => false

namespace Life

def Spoiled (a : Life nT nU) (slot : Slot nT nU) : Prop := ∃ e ∈ a.log, e.spoils slot = true

def Reopened (a : Life nT nU) : Prop := ∃ e ∈ a.log, e.reopens = true

def IsOpen (a : Life nT nU) : Slot nT nU → Prop
  | .tcp i => a.state i = .established ∧ a.closing = none
  | .udp i => (a.lport (.udp i) ≠ 0 ∧ dhcpcPort (a.lport (.udp i)) = false) ∨ a.Spoiled (.udp i)

inductive Adjust : Life nT nU → Life nT nU → Prop where
  | tables (a) (t : Tables) : Adjust a { a with tables := t }
  | bind (a) (slot) (port : Nat) :
      Adjust a ((a.note (.bound slot (a.lport slot) port)).setLport slot port)
  | pause (a) (slot) (t : Nat) : Adjust a ((a.note (.paused slot)).setType slot t)

abbrev Adjusts : Life nT nU → Life nT nU → Prop := Relation.ReflTransGen Adjust

inductive Prepared (a : Life nT nU) : Slot nT nU → Life nT nU → Prop where
  | tcp {i : Fin nT} (port : Nat) :
      Prepared a (.tcp i) ((a.setState i .synSent).setLport (.tcp i) port)
  | udp {i : Fin nU} (port : Nat) : Prepared a (.udp i) (a.clear i port)

inductive Command : Life nT nU → Life nT nU → Prop where
  | adjust (a b) (h : Adjust a b) : Command a b
  | connectTcp (a) (i : Fin nT) (port link : Nat) (h : a.free (.tcp i)) :
      Command a (((a.setState i .synSent).setLport (.tcp i) port).connect (.tcp i) link)
  | connectUdp (a) (i : Fin nU) (port link : Nat) (h : a.free (.udp i)) :
      Command a ((a.clear i port).connect (.udp i) link)

abbrev Commands : Life nT nU → Life nT nU → Prop := Relation.ReflTransGen Command

-- One event: nothing without a link, else the wait on it, in which any commands are served,
-- and the record.
inductive Delivers (a : Life nT nU) (slot : Slot nT nU) (event : XtcpEvent) :
    Life nT nU → Prop where
  | skip (h : a.linknum slot = none) : Delivers a slot event a
  | send (ready : Nat) (b : Life nT nU) (link : Option Nat) (conn : Conn)
      (hready : a.linknum slot = some ready ∨ event = .recvData ∧ a.Reopened)
      (hserved : Commands (a.raise slot event (some ready)) b)
      (hlink : link = some ready ∨ link = b.linknum slot) (hid : conn.id = b.id slot)
      (htype : conn.connectionType = b.connectionType slot) :
      Delivers a slot event (b.send ⟨slot, event, some ready⟩ link conn)

inductive Act : Life nT nU → Life nT nU → Prop where
  | command (a b) (h : Command a b) : Act a b
  | listen (a) (i : Fin nT) (port : Nat) (h : a.free (.tcp i)) :
      Act a (((a.openAs (.tcp i) (.passive port)).setState i .synRcvd).setLport (.tcp i) port)
  | establish (a b) (i : Fin nT) (guid : Nat) (h : a.state i = .synRcvd ∨ a.state i = .synSent)
      (hclosing : a.closing = none) (hguid : a.Issuable (.tcp i) guid)
      (hb : Delivers ((a.setState i .established).issue (.tcp i) guid) (.tcp i) .newConnection b) :
      Act a b
  | kill (a b) (i : Fin nT) (event : XtcpEvent) (st : TcpState) (hclosing : a.closing = none)
      (hevent : event = .aborted ∨ event = .timedOut)
      (hst : st = .closed ∨ a.state i = .synSent ∧ st = .synSent)
      (hb : Delivers ((a.note (.killed (.tcp i) (a.state i))).setState i st) (.tcp i) event b) :
      Act a b
  | close (a b) (i : Fin nT) (h : a.state i = .established) (hclosing : a.closing = none)
      (hclosed : a.closed (.tcp i) = false)
      (hb : Delivers ((a.setClosed (.tcp i)).setClosing (some i)) (.tcp i) .closed b) : Act a b
  | lateClose (a b) (i : Fin nT) (st : TcpState) (h : isFin (a.state i) = true)
      (hst : isFin st = true ∨ st = .timeWait ∨ st = .closed) (hclosing : a.closing = none)
      (hclosed : a.closed (.tcp i) = false)
      (hb : Delivers ((a.setState i st).setClosed (.tcp i)) (.tcp i) .closed b) : Act a b
  | finish (a) (i : Fin nT) (st : TcpState) (hst : isFin st = true)
      (h : a.state i = .established) (hclosing : a.closing = none ∨ a.closing = some i)
      (hclosed : a.closed (.tcp i) = true) : Act a ((a.setState i st).setClosing none)
  | down (a) (i : Fin nT) (st : TcpState) (hclosing : a.closing = none)
      (h : st = .closed ∨ isFin (a.state i) = true ∧ (isFin st = true ∨ st = .timeWait)) :
      Act a (a.setState i st)
  | accept (a b) (i : Fin nU) (port guid : Nat) (h : a.free (.udp i))
      (hguid : a.Issuable (.udp i) guid)
      (hb : Delivers (((a.clear i port).openAs (.udp i) (.passive port)).issue (.udp i) guid)
        (.udp i) .newConnection b) : Act a b
  | acceptDhcp (a) (i : Fin nU) (port : Nat) (h : a.free (.udp i)) (hport : dhcpcPort port = true) :
      Act a ((a.clear i port).openAs (.udp i) (.passive port))
  | announce (a b) (i : Fin nU) (guid : Nat) (h : a.IsOpen (.udp i))
      (hrequest : a.connectRequest (.udp i) = true) (hguid : a.Issuable (.udp i) guid)
      (hb : Delivers (a.issue (.udp i) guid) (.udp i) .newConnection b) :
      Act a (b.setRequest (.udp i) false)
  | data (a b) (slot) (event : XtcpEvent) (h : a.IsOpen slot)
      (hevent : isData slot event = true) (hb : Delivers a slot event b) : Act a b
  | closeUdp (a b) (i : Fin nU) (h : a.IsOpen (.udp i))
      (hdhcp : dhcpcPort (a.lport (.udp i)) = false)
      (hb : Delivers (a.setLport (.udp i) 0) (.udp i) .closed b) : Act a b
  | transmit (a) (i : Fin nU)
      (h : a.linknum (.udp i) ≠ none ∨ dhcpcPort (a.lport (.udp i)) = true) :
      Act a ((a.note (.transmitted (.udp i) (!dhcpcPort (a.lport (.udp i)))
        (a.udpSent i))).setSent i true)
  | replace (a) (i : Fin nU)
      (h : a.linknum (.udp i) ≠ none ∨ dhcpcPort (a.lport (.udp i)) = true) :
      Act a ((a.note (.replaced (.udp i) (!dhcpcPort (a.lport (.udp i)))
        (a.udpPendingArp i))).setPendingArp i true)
  | ack (a b) (i : Fin nU) (h : a.udpSent i = true) (ho : a.IsOpen (.udp i))
      (hdhcp : dhcpcPort (a.lport (.udp i)) = false)
      (hb : Delivers (a.setSent i false) (.udp i) .sentData b) : Act a b
  | ackDhcp (a) (i : Fin nU) (h : dhcpcPort (a.lport (.udp i)) = true) : Act a (a.setSent i false)
  | arp (a b) (i : Fin nU) (h : a.udpPendingArp i = true) (ho : a.IsOpen (.udp i))
      (hdhcp : dhcpcPort (a.lport (.udp i)) = false)
      (hb : Delivers (a.setPendingArp i false) (.udp i) .resendData b) : Act a b
  | arpDhcp (a) (i : Fin nU) (h : dhcpcPort (a.lport (.udp i)) = true) :
      Act a (a.setPendingArp i false)

abbrev Acts : Life nT nU → Life nT nU → Prop := Relation.ReflTransGen Act

structure Kept (slot : Slot nT nU) (a b : Life nT nU) : Prop where
  isOpen : a.IsOpen slot → b.IsOpen slot
  established : ∀ i, slot = .tcp i → a.state i = .established → b.state i = .established
  linked : a.linknum slot ≠ none → b.linknum slot ≠ none
  reopened : a.Reopened → b.Reopened
  closed : b.closed slot = a.closed slot
  closing : b.closing = a.closing

variable {a : Life nT nU} {b c : Life nT nU} {slot : Slot nT nU}

theorem Kept.refl : Kept slot a a :=
  ⟨fun h => h, fun _ _ h => h, fun h => h, fun h => h, rfl, rfl⟩

theorem Kept.trans (hab : Kept slot a b) (hbc : Kept slot b c) : Kept slot a c where
  isOpen h := hbc.isOpen (hab.isOpen h)
  established i hi h := hbc.established i hi (hab.established i hi h)
  linked h := hbc.linked (hab.linked h)
  reopened h := hbc.reopened (hab.reopened h)
  closed := hbc.closed.trans hab.closed
  closing := hbc.closing.trans hab.closing

theorem reopened_log (h : ∀ e ∈ a.log, e ∈ b.log) (ha : a.Reopened) : b.Reopened := by
  obtain ⟨e, he, hr⟩ := ha
  exact ⟨e, h e he, hr⟩

theorem spoiled_log (h : ∀ e ∈ a.log, e ∈ b.log) (ha : a.Spoiled slot) : b.Spoiled slot := by
  obtain ⟨e, he, hr⟩ := ha
  exact ⟨e, h e he, hr⟩

theorem log_command (h : Command a b) : ∃ es, b.log = a.log ++ es := by
  cases h with
  | adjust _ h =>
    cases h with
    | tables => exact ⟨[], by simp⟩
    | bind => exact ⟨_, rfl⟩
    | pause => exact ⟨_, rfl⟩
  | connectTcp => exact ⟨_, rfl⟩
  | connectUdp => exact ⟨_, List.append_assoc _ _ _⟩

theorem mem_log_command (h : Command a b) : ∀ e ∈ a.log, e ∈ b.log := by
  obtain ⟨es, hes⟩ := log_command h
  intro e he
  rw [hes]
  exact List.mem_append_left _ he

theorem log_commands (h : Commands a b) : ∃ es, b.log = a.log ++ es := by
  induction h with
  | refl => exact ⟨[], by simp⟩
  | tail _ h ih =>
    obtain ⟨es, hes⟩ := ih
    obtain ⟨fs, hfs⟩ := log_command h
    exact ⟨es ++ fs, by rw [hfs, hes, List.append_assoc]⟩

theorem log_delivers {event : XtcpEvent} (h : Delivers a slot event b) :
    ∃ es, b.log = a.log ++ es := by
  cases h with
  | skip => exact ⟨[], by simp⟩
  | send ready b link conn hready hserved =>
    obtain ⟨es, hes⟩ := log_commands hserved
    exact ⟨_, (congrArg (· ++ [_]) hes).trans (List.append_assoc _ _ _)⟩

theorem isOpen_command (h : Command a b) (ho : a.IsOpen slot) : b.IsOpen slot := by
  cases slot with
  | tcp i =>
    obtain ⟨hs, hc⟩ := ho
    cases h with
    | adjust _ h => cases h <;> exact ⟨hs, hc⟩
    | connectUdp => exact ⟨hs, hc⟩
    | connectTcp j port link hfree =>
      have hij : i ≠ j := by
        rintro rfl
        rcases hfree with hf | hf <;> simp [hs] at hf
      exact ⟨(Function.update_of_ne hij _ _).trans hs, hc⟩
  | udp i =>
    rcases ho with ⟨hl, hd⟩ | hs
    · cases h with
      | adjust _ h =>
        cases h with
        | tables => exact Or.inl ⟨hl, hd⟩
        | pause => exact Or.inl ⟨hl, hd⟩
        | bind other port =>
          by_cases hij : other = .udp i
          · subst hij
            by_cases hp : port = 0 ∨ dhcpcPort port = true
            · refine Or.inr ⟨_, List.mem_append_right _ (List.mem_singleton_self _), ?_⟩
              simpa [Entry.spoils] using hp
            · rw [not_or, Bool.not_eq_true] at hp
              refine Or.inl ?_
              simpa [setLport] using hp
          · refine Or.inl ?_
            simpa [setLport, note, Function.update_of_ne (Ne.symm hij)] using ⟨hl, hd⟩
      | connectTcp j port link hfree =>
        refine Or.inl ?_
        simpa [connect, openAs, setLport, setState] using ⟨hl, hd⟩
      | connectUdp j port link hfree =>
        have hij : i ≠ j := by
          rintro rfl
          exact hl hfree
        refine Or.inl ?_
        simpa [connect, openAs, clear, hij] using ⟨hl, hd⟩
    · exact Or.inr (spoiled_log (mem_log_command h) hs)

theorem kept_command (slot : Slot nT nU) (h : Command a b) : Kept slot a b where
  isOpen := isOpen_command h
  established i hi hs := by
    cases h with
    | adjust _ h => cases h <;> exact hs
    | connectUdp => exact hs
    | connectTcp j port link hfree =>
      have hij : i ≠ j := by
        rintro rfl
        rcases hfree with hf | hf <;> simp [hs] at hf
      exact (Function.update_of_ne hij _ _).trans hs
  linked hl := by
    cases h with
    | adjust _ h => cases h <;> exact hl
    | connectTcp j port link hfree =>
      by_cases hs : slot = .tcp j
      · subst hs
        simp [connect]
      · simpa [connect, openAs, setLport, setState, hs] using hl
    | connectUdp j port link hfree =>
      by_cases hs : slot = .udp j
      · subst hs
        simp [connect]
      · simpa [connect, openAs, clear, hs] using hl
  reopened := reopened_log (mem_log_command h)
  closed := by
    cases h with
    | adjust _ h => cases h <;> rfl
    | _ => rfl
  closing := by
    cases h with
    | adjust _ h => cases h <;> rfl
    | _ => rfl

theorem kept_commands (slot : Slot nT nU) (h : Commands a b) : Kept slot a b := by
  induction h with
  | refl => exact .refl
  | tail _ h ih => exact ih.trans (kept_command _ h)

theorem kept_raise (event : XtcpEvent) (ready : Option Nat) (other : Slot nT nU) :
    Kept slot a (a.raise other event ready) := by
  refine ⟨fun h => ?_, fun _ _ h => h, fun h => h, fun h => h, rfl, rfl⟩
  cases slot <;> exact h

theorem kept_send (slot : Slot nT nU) (wait : Wait nT nU) (link : Option Nat) (conn : Conn) :
    Kept slot a (a.send wait link conn) := by
  have hlog : ∀ e ∈ a.log, e ∈ (a.send wait link conn).log :=
    fun e he => List.mem_append_left _ he
  refine ⟨fun h => ?_, fun _ _ h => h, fun h => h, reopened_log hlog, rfl, rfl⟩
  cases slot with
  | tcp i => exact h
  | udp i => exact h.imp (fun h => h) (spoiled_log hlog)

theorem kept_delivers (slot : Slot nT nU) {event : XtcpEvent} {other : Slot nT nU}
    (h : Delivers a other event b) :
    Kept slot a b := by
  cases h with
  | skip => exact .refl
  | send ready b link conn hready hserved =>
    exact ((kept_raise event (some ready) other).trans (kept_commands _ hserved)).trans
      (kept_send _ _ link conn)

theorem delivers_invariant {event : XtcpEvent} (I : Life nT nU → Prop)
    (hraise : ∀ (a : Life nT nU) ready, I a → I (a.raise slot event ready))
    (hcommand : ∀ (a b : Life nT nU), I a → Command a b → I b)
    (hsend : ∀ (a : Life nT nU) wait link conn, I a → I (a.send wait link conn))
    (h : Delivers a slot event b) (ha : I a) : I b := by
  cases h with
  | skip => exact ha
  | send ready b link conn hready hserved hlink hid htype =>
    refine hsend _ _ _ _ ?_
    clear hlink hid htype
    induction hserved with
    | refl => exact hraise _ _ ha
    | tail _ hc ih => exact hcommand _ _ ih hc

theorem linknum_command {wait : Wait nT nU} (hr : a.raising = some wait) (h : Command a b) :
    b.raising = some wait ∧ (b.linknum wait.slot = a.linknum wait.slot ∨ b.Reopened) := by
  have hopened (other : Slot nT nU) (link : Nat) (a : Life nT nU) (hr : a.raising = some wait) :
      ((a.connect other link).linknum wait.slot = a.linknum wait.slot) ∨
        (a.connect other link).Reopened := by
    by_cases hs : wait.slot = other
    · refine Or.inr ⟨_, List.mem_append_right _ (List.mem_singleton_self _), ?_⟩
      simp [Entry.reopens, hr, hs]
    · exact Or.inl (Function.update_of_ne hs _ _)
  cases h with
  | adjust _ h => cases h <;> exact ⟨hr, Or.inl rfl⟩
  | connectTcp j port link => exact ⟨hr, hopened (.tcp j) link _ hr⟩
  | connectUdp j port link => exact ⟨hr, hopened (.udp j) link (a.clear j port) hr⟩

theorem linknum_commands {wait : Wait nT nU} (hr : a.raising = some wait) (h : Commands a b) :
    b.raising = some wait ∧ (b.linknum wait.slot = a.linknum wait.slot ∨ b.Reopened) := by
  induction h with
  | refl => exact ⟨hr, Or.inl rfl⟩
  | tail _ h ih =>
    obtain ⟨hraising, hsame⟩ := ih
    obtain ⟨hraising', hsame'⟩ := linknum_command hraising h
    refine ⟨hraising', ?_⟩
    rcases hsame with hsame | hre
    · exact hsame'.imp_left fun h => h.trans hsame
    · exact Or.inr ((kept_command wait.slot h).reopened hre)

theorem commands_adjusts (h : Adjusts a b) : Commands a b :=
  Relation.ReflTransGen.mono Command.adjust a b h

theorem acts_commands (h : Commands a b) : Acts a b :=
  Relation.ReflTransGen.mono Act.command a b h

end Life

end Xtcp.Uip
