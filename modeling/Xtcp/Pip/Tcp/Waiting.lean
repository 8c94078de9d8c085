import Mathlib.Algebra.Group.Pi.Basic
import Xtcp.Library.Ledger
import Xtcp.Pip.Tcp.Log
import Xtcp.Pip.Tcp.Opened

namespace Xtcp.Pip.Tcp
open Ledger Serial

-- An application is owed a token for each request.
def Note.owes : Note → Chanend → Int
  | .requested app => Pi.single app 1
  | .token (some app) _ _ => -Pi.single app 1
  | _ => 0

-- What is owed for the request that the connection remembers.
def owing : AppStatus → Option Chanend → Chanend → Int
  | .notWaiting, _ | _, none => 0
  | _, some app => Pi.single app 1

-- A token that reaches nobody.
def astray : Note → Prop
  | .token none _ _ => True
  | _ => False

-- Beside the request that is remembered others may be open: extra.
structure Waits (extra : Chanend → Int) (log : List Note) (st : AppStatus) (w : Option Chanend) :
    Prop where
  nonneg : 0 ≤ extra
  solvent : Solvent Note.owes 0 log
  owed : balance Note.owes log = owing st w + extra
  addressed : ∀ x ∈ log, ¬ astray x
  named : st ≠ .notWaiting → w.isSome

section Ledgers

variable {extra : Chanend → Int} {log : List Note} {st : AppStatus} {w : Option Chanend}
  {app : Chanend}

theorem owing_nonneg (st : AppStatus) (w : Option Chanend) : 0 ≤ owing st w := by
  unfold owing
  split <;> simp

theorem owing_waiting (h : st ≠ .notWaiting) : owing st (some app) = Pi.single app 1 := by
  cases st <;> simp_all [owing]

-- A note that is neither a request nor a token.
def silent (x : Note) : Prop := x.owes = 0 ∧ ¬ astray x

theorem Waits.keep (h : Waits extra log st w) (new : List Note)
    (hnew : ∀ x ∈ new, silent x) : Waits extra (log ++ new) st w := by
  have hzero : ∀ x ∈ new, x.owes = 0 := fun x hx => (hnew x hx).1
  refine ⟨h.nonneg, ?_, ?_, fun x hx => ?_, h.named⟩
  · rw [solvent_append, zero_add, h.owed]
    exact ⟨h.solvent, solvent_of_zero (add_nonneg (owing_nonneg st w) h.nonneg) hzero⟩
  · rw [balance_append, h.owed, balance_eq_zero hzero, add_zero]
  · exact (List.mem_append.mp hx).elim (h.addressed x) fun hx => (hnew x hx).2

theorem Waits.requested (h : Waits 0 log st w) (app : Chanend) :
    Waits (Pi.single app 1) (log ++ [.requested app]) st w := by
  refine ⟨by simp, ?_, ?_, ?_, h.named⟩
  · simp only [solvent_append, solvent_cons, zero_add, h.owed, add_zero, Note.owes, solvent_nil,
      and_true]
    exact ⟨h.solvent, add_nonneg (owing_nonneg st w) (by simp)⟩
  · simp [h.owed, Note.owes]
  · simpa [or_imp, forall_and, astray] using h.addressed

-- The answer to a request that is not remembered.
theorem Waits.answer (h : Waits (Pi.single app 1) log st w) (r : AppStatus) (ct : Token) :
    Waits 0 (log ++ [.token (some app) r ct]) st w := by
  refine ⟨le_rfl, ?_, ?_, ?_, h.named⟩
  · simp only [solvent_append, solvent_cons, zero_add, h.owed, Note.owes, solvent_nil, and_true,
      add_neg_cancel_right]
    exact ⟨h.solvent, owing_nonneg st w⟩
  · simp [h.owed, Note.owes]
  · simpa [or_imp, forall_and, astray] using h.addressed

-- The answer to the one that is.
theorem Waits.appSend (h : Waits extra log st w) (hst : st ≠ .notWaiting) (r : AppStatus)
    (ct : Token) : Waits extra (log ++ [.token w r ct]) .notWaiting w := by
  obtain ⟨app, rfl⟩ := Option.isSome_iff_exists.mp (h.named hst)
  have hnonneg := h.nonneg
  refine ⟨hnonneg, ?_, ?_, ?_, fun hn => absurd rfl hn⟩
  · simp only [solvent_append, solvent_cons, zero_add, h.owed, owing_waiting hst, Note.owes,
      solvent_nil, and_true, add_neg_cancel_comm]
    exact ⟨h.solvent, hnonneg⟩
  · simp [h.owed, Note.owes, owing]
  · simpa [or_imp, forall_and, astray] using h.addressed

theorem Waits.setAppWaiting (h : Waits (Pi.single app 1) log .notWaiting w)
    (hst : st ≠ .notWaiting) : Waits 0 log st (some app) := by
  refine ⟨le_rfl, h.solvent, ?_, h.addressed, fun _ => rfl⟩
  rw [owing_waiting hst, add_zero, h.owed, owing, zero_add]

theorem silent_ready (c : TcpConnection) : ∀ x ∈ readyNote c, silent x := by
  unfold readyNote
  split <;> simp [silent, Note.owes, astray]

end Ledgers

-- The waiting that a state goes with.
def fits : State → AppStatus → Prop
  | .closed, st => st = .notWaiting
  | .synsent, st => st = .connecting
  | .listen, st | .synrcvd, st => st = .accepting ∨ st = .notWaiting
  | .lastack, st => st = .closing ∨ st = .notWaiting
  | _, _ => True

theorem fits_served {state : State} {st : AppStatus} (h : fits state st)
    (hst : st = .reading ∨ st = .writing) : fits state .notWaiting := by
  rcases hst with rfl | rfl
  all_goals cases state <;> simp_all [fits]

abbrev waits (extra : Chanend → Int) (c : TcpConnection) : Prop :=
  Waits extra c.log c.appStatus c.appWaiting

structure Obliged (c : TcpConnection) : Prop where
  waits : waits 0 c
  fits : fits c.state c.appStatus

variable {cfg : Config} {env : Env} {c c' : TcpConnection} {seg : Segment}
  {extra : Chanend → Int} {app : Chanend}

theorem obliged_zero (port : BitVec 16) : Obliged (.zero port) :=
  ⟨⟨le_rfl, trivial, by simp [TcpConnection.zero, owing], nofun, nofun⟩, rfl⟩

section Copies

theorem Waits.loadOutgoingData (h : waits extra c)
    (hload : Tcp.loadOutgoingData cfg env c = some c') : waits extra c' := by
  have hready := h.keep _ (silent_ready c)
  obtain ⟨data, tx, -, ⟨-, rfl⟩ | ⟨hs, -, tx', -, rfl⟩⟩ := loadOutgoingData_frame hload
  · have hsent (x : Sent) := hready.keep [.sent x] (by simp [silent, Note.owes, astray])
    simpa only [waits, List.append_assoc] using hsent _
  · have hserved := hready.appSend (by simp [hs]) .writing .ack
    have hsent (d : List UInt8) (x : Sent) := hserved.keep [.accepted d, .sent x]
      (by simp [silent, Note.owes, astray])
    simpa only [waits, List.append_assoc, List.cons_append, List.nil_append] using hsent _ _

-- The write that waits.
theorem Waits.copyDataFromWrite (h : waits extra c) (hs : c.appStatus = .writing)
    (hcopy : Tcp.copyDataFromWrite cfg env c.appWaiting c = some c') :
    waits extra { c' with appStatus := .notWaiting } := by
  obtain ⟨tx, -, rfl⟩ := copyDataFromWrite_frame hcopy
  have hserved := h.appSend (by simp [hs]) .writing .ack
  have haccepted (d : List UInt8) := hserved.keep [.accepted d]
    (by simp [silent, Note.owes, astray])
  simpa only [waits, List.append_assoc, List.cons_append, List.nil_append] using haccepted _

theorem Waits.takeAck (h : waits 0 c) (htake : Tcp.takeAck cfg env seg c = some c') :
    waits 0 c' := by
  have hcredited : waits 0 (credited seg c) := h.keep _ (by simp [silent, Note.owes, astray])
  rcases takeAck_cases htake with ⟨-, rfl⟩ | ⟨-, hw, c₂, hcopy, hload⟩
  · exact hcredited
  · exact Waits.loadOutgoingData (Waits.copyDataFromWrite hcredited hw hcopy) hload

theorem Waits.storeIncomingData (h : waits 0 c) {b : Bool}
    (hs : Tcp.storeIncomingData cfg env seg c = some (b, c')) : waits 0 c' := by
  obtain ⟨i, rx, -, -, ⟨-, rfl⟩ | ⟨hr, -, data, rx', -, rfl⟩⟩ := storeIncomingData_frame hs
  · exact h.keep _ (by simp [silent, Note.owes, astray])
  · have hstored (d : List UInt8) := h.keep [.stored seg.seq d]
      (by simp [silent, Note.owes, astray])
    have hserved (d : List UInt8) := (hstored d).appSend (by simp [hr]) .reading .ack
    have hreturned (d d' : List UInt8) := (hserved d).keep [.returned d']
      (by simp [silent, Note.owes, astray])
    simpa only [waits, List.append_assoc, List.cons_append, List.nil_append] using hreturned _ _

theorem Waits.incomingData (h : waits 0 c) {b : Bool}
    (hdata : Tcp.incomingData cfg env seg c = some (b, c')) : waits 0 c' := by
  unfold Tcp.incomingData at hdata
  split at hdata
  · obtain ⟨⟨b', c₂⟩, hstore, heq⟩ := Option.map_eq_some_iff.mp hdata
    obtain ⟨-, rfl⟩ := Prod.mk.inj heq
    exact (Waits.storeIncomingData h hstore).keep _ (by simp [silent, Note.owes, astray])
  · obtain ⟨-, rfl⟩ := Prod.mk.inj (Option.some.inj hdata)
    exact h

end Copies

section Application

-- The states in which doClose answers, or waits.
def closes (st : State) : Prop :=
  st = .synrcvd ∨ st = .estab ∨ st = .closewait

theorem Obliged.doAccept (h : Obliged c) (hs : c.appStatus = .notWaiting) :
    Obliged (Tcp.doAccept cfg app (c.note (.requested app))) := by
  have hopened := (h.waits.requested app).keep [.opened, .entered .listen]
    (by simp [silent, Note.owes, astray])
  rw [hs] at hopened
  have hwaits : Waits 0 _ .accepting (some app) := hopened.setAppWaiting nofun
  refine ⟨?_, Or.inl rfl⟩
  simpa [waits, Tcp.doAccept, initConnection] using hwaits

theorem Obliged.doConnect {ip port port' : Word} (h : Obliged c) (hs : c.appStatus = .notWaiting) :
    Obliged (Tcp.doConnect cfg env app ip port port' (c.note (.requested app))) := by
  have hopened (n : Word) (x : Sent) := (h.waits.requested app).keep
    [.opened, .entered .synsent, .iss n, .sent x] (by simp [silent, Note.owes, astray])
  rw [hs] at hopened
  have hwaits (n : Word) (x : Sent) : Waits 0 _ .connecting (some app) :=
    (hopened n x).setAppWaiting nofun
  refine ⟨?_, rfl⟩
  simpa [waits, Tcp.doConnect, initConnection] using hwaits _ _

theorem Obliged.doClose (h : Obliged c)
    (hok : c.state = .closed ∨ c.appStatus = .notWaiting ∧ closes c.state) :
    Obliged (Tcp.doClose app (c.note (.requested app))) := by
  have hrequested := h.waits.requested app
  have hfinished (st : State) (n : Word) (x : Sent) :=
    hrequested.keep [.entered st, .finished n, .sent x] (by simp [silent, Note.owes, astray])
  have hwaits (hs : c.appStatus = .notWaiting) (st : State) (n : Word) (x : Sent) :
      Waits 0 _ .closing (some app) := (hs ▸ hfinished st n x).setAppWaiting nofun
  rcases hok with hst | ⟨hs, hst | hst | hst⟩
  · have hfits := h.fits
    simp only [Tcp.doClose, TcpConnection.note, hst] at hfits ⊢
    exact ⟨hrequested.answer .closing .ack, hfits⟩
  all_goals
    refine ⟨?_, by simp [Tcp.doClose, Tcp.fits, hst]⟩
    simpa [waits, Tcp.doClose, hst] using hwaits hs _ _ _

theorem Obliged.answered (h : Obliged c) (r : AppStatus) (ct : Token) :
    Obliged (answer app r ct (c.note (.requested app))) :=
  ⟨(h.waits.requested app).answer r ct, h.fits⟩

theorem Obliged.doRead (h : Obliged c)
    (hok : c.state = .estab → c.rx.free = cfg.bufsizeRx → c.appStatus = .notWaiting)
    (hread : Tcp.doRead cfg env app (c.note (.requested app)) = some c') : Obliged c' := by
  have hrequested := h.waits.requested app
  unfold Tcp.doRead at hread
  split at hread
  · next hst =>
    split at hread
    · obtain ⟨data, rx, -, rfl⟩ := copyDataForRead_frame hread
      have hreturned := (hrequested.answer .reading .ack).keep [.returned data]
        (by simp [silent, Note.owes, astray])
      refine ⟨?_, h.fits⟩
      simpa [waits] using hreturned
    · next hempty =>
      obtain rfl := Option.some.inj hread
      rw [hok hst (not_not.mp hempty)] at hrequested
      simp only [TcpConnection.note] at hst
      exact ⟨hrequested.setAppWaiting nofun, by simp [hst, Tcp.fits]⟩
  all_goals
    obtain rfl := Option.some.inj hread
    exact h.answered _ _

theorem Obliged.doWrite (h : Obliged c)
    (hok : c.state = .estab → c.tx.free = 0 → c.appStatus = .notWaiting)
    (hwrite : Tcp.doWrite cfg env app (c.note (.requested app)) = some c') : Obliged c' := by
  have hrequested := h.waits.requested app
  unfold Tcp.doWrite at hwrite
  split at hwrite
  · next hst =>
    split at hwrite
    · obtain ⟨c₂, hcopy, hload⟩ := Option.bind_eq_some_iff.mp hwrite
      have hstate : c'.state = .estab :=
        ((copyDataFromWrite_aside hcopy).trans (loadOutgoingData_aside hload)).state.trans hst
      obtain ⟨tx, -, rfl⟩ := copyDataFromWrite_frame hcopy
      have haccepted (d : List UInt8) := (hrequested.answer .writing .ack).keep [.accepted d]
        (by simp [silent, Note.owes, astray])
      refine ⟨Waits.loadOutgoingData ?_ hload, by simp [hstate, Tcp.fits]⟩
      simpa [waits] using haccepted _
    · next hfull =>
      obtain rfl := Option.some.inj hwrite
      rw [hok hst (not_not.mp hfull)] at hrequested
      simp only [TcpConnection.note] at hst
      exact ⟨hrequested.setAppWaiting nofun, by simp [hst, Tcp.fits]⟩
  all_goals
    obtain rfl := Option.some.inj hwrite
    exact h.answered _ _

end Application

section Incoming

theorem Obliged.incomingListen (h : Obliged c) (hst : c.state = .listen) :
    Obliged (Tcp.incomingListen env seg c) := by
  have hs := h.fits
  rw [hst] at hs
  unfold Tcp.incomingListen
  split
  · exact h
  split
  · exact ⟨h.waits.keep _ (by simp [silent, Note.owes, astray]), h.fits⟩
  split
  · have hgreeted (x : Sent) := h.waits.keep
      [.irs seg.seq, .iss env.now, .sent x, .entered .synrcvd]
      (by simp [silent, Note.owes, astray])
    refine ⟨?_, hs⟩
    simpa [waits] using hgreeted _
  · exact h

theorem waits_heard (h : waits 0 c) (hs : c.appStatus ≠ .notWaiting) :
    waits 0 (heard seg c) := by
  have hacked := h.keep [.acked seg.ack] (by simp [silent, Note.owes, astray])
  have herror := (hacked.appSend hs c.appStatus .error).keep [.entered .closed]
    (by simp [silent, Note.owes, astray])
  unfold heard
  cases seg.flags.ack
  all_goals cases seg.flags.rst
  · simpa using h
  · simpa using h
  · simpa [waits] using hacked
  · simpa [waits] using herror

theorem waits_greeted (h : waits 0 c) (hs : c.appStatus ≠ .notWaiting) :
    waits 0 (greeted seg c) := by
  have hirs := h.keep [.irs seg.seq] (by simp [silent, Note.owes, astray])
  have hacked := h.keep [.irs seg.seq, .acked seg.ack] (by simp [silent, Note.owes, astray])
  unfold greeted
  cases seg.flags.ack
  · simpa [waits] using hirs.appSend hs c.appStatus .ack
  · simpa [waits] using hacked.appSend hs c.appStatus .ack

theorem Obliged.synsent (h : Obliged c) (hst : c.state = .synsent)
    (hok : outside c.sndUNA c.sndNXT seg.ack = false →
      ¬ (seg.flags.ack = true ∧ seg.flags.rst = true ∧ seg.flags.syn = true))
    (hg : Greeting env seg c c') : Obliged c' := by
  have hs : c.appStatus = .connecting := by simpa [hst, Tcp.fits] using h.fits
  have hwaiting : c.appStatus ≠ .notWaiting := by simp [hs]
  have hheard : Tcp.waits 0 (Tcp.heard seg c) := waits_heard h.waits hwaiting
  cases hg with
  | declined =>
    have hbounced (x : Sent) := h.waits.keep [.bounced x] (by simp [silent, Note.owes, astray])
    have herror (x : Sent) := ((hbounced x).appSend hwaiting c.appStatus .error).keep
      [.entered .closed] (by simp [silent, Note.owes, astray])
    refine ⟨?_, by simp [Tcp.declined, hs, Tcp.fits]⟩
    simpa [waits, Tcp.declined, hs] using herror _
  | heard =>
    refine ⟨hheard, ?_⟩
    unfold Tcp.heard
    cases seg.flags.ack
    all_goals cases seg.flags.rst
    all_goals simp [hst, hs, Tcp.fits]
  | estab ho hsyn | synrcvd ho hsyn =>
    have hstatus : (Tcp.heard seg c).appStatus ≠ .notWaiting := by
      unfold Tcp.heard
      cases hack : seg.flags.ack
      all_goals cases hrst : seg.flags.rst
      all_goals simp_all
    have hgreeted : Tcp.waits 0 (greeted seg (Tcp.heard seg c)) := waits_greeted hheard hstatus
    have hsent (x : Sent) (st : State) := hgreeted.keep [.sent x, .entered st]
      (by simp [silent, Note.owes, astray])
    refine ⟨?_, by simp [greeted, Tcp.fits]⟩
    simpa [waits] using hsent _ _

-- What an application that does not wait is told, it has not asked for.
def resettable (c : TcpConnection) : Prop :=
  (c.state = .estab ∨ c.state = .finwait1 ∨ c.state = .finwait2 ∨ c.state = .closewait →
    c.appWaiting.isSome → c.appStatus ≠ .notWaiting) ∧
  (c.state = .closing ∨ c.state = .lastack → c.appStatus = .notWaiting)

theorem Obliged.incomingRST (h : Obliged c)
    (hst : c.state = .synrcvd ∨ c.state = .estab ∨ c.state = .finwait1 ∨ c.state = .finwait2 ∨
      c.state = .closewait ∨ c.state = .closing ∨ c.state = .lastack)
    (hok : resettable c) : Obliged (Tcp.incomingRST c) := by
  have hfits := h.fits
  have hkept (hs : c.appStatus = .notWaiting) : Obliged (c.enter .closed) :=
    ⟨h.waits.keep [.entered .closed] (by simp [silent, Note.owes, astray]), hs⟩
  have htold (hs : c.appStatus ≠ .notWaiting) (ct : Token) :
      Obliged ((Tcp.appSend ct c).enter .closed) :=
    ⟨(h.waits.appSend hs c.appStatus ct).keep [.entered .closed]
      (by simp [silent, Note.owes, astray]), rfl⟩
  unfold Tcp.incomingRST
  dsimp only
  split
  · next hst =>
    rw [hst] at hfits
    split
    · next hs => exact htold (by simp [hs]) .closed
    · next hs => exact hkept (hfits.resolve_left hs)
  iterate 4
    · next hst =>
      split
      · next hw => exact htold (hok.1 (by simp [hst]) hw) .error
      · next hw => exact hkept (not_not.mp fun hs => hw (h.waits.named hs))
  · next h1 h2 h3 h4 h5 =>
    refine hkept ?_
    rcases hst with hst | hst | hst | hst | hst | hst | hst
    all_goals simp_all [resettable]

theorem Obliged.incomingSYN (h : Obliged c)
    (hok : c.appWaiting.isSome → c.appStatus ≠ .notWaiting) : Obliged (Tcp.incomingSYN c) := by
  unfold Tcp.incomingSYN
  dsimp only
  split
  · next hw =>
    have hanswered := (h.waits.appSend (hok hw) c.appStatus .error).keep [.entered .closed]
      (by simp [silent, Note.owes, astray])
    exact ⟨hanswered, rfl⟩
  · next hw =>
    have hs : c.appStatus = .notWaiting := not_not.mp fun hs => hw (h.waits.named hs)
    exact ⟨h.waits.keep [.entered .closed] (by simp [silent, Note.owes, astray]), hs⟩

theorem Obliged.establish (h : Obliged c) : Obliged (Tcp.establish c) := by
  have hentered := h.waits.keep [.entered .estab] (by simp [silent, Note.owes, astray])
  unfold Tcp.establish
  dsimp only
  split
  · next hs => exact ⟨hentered.appSend (by simp [show c.appStatus = _ from hs]) c.appStatus .ack, trivial⟩
  · exact ⟨hentered, trivial⟩

theorem Obliged.incomingLastAck (h : Obliged c) (hst : c.state = .lastack) :
    Obliged (Tcp.incomingLastAck seg c) := by
  have hentered := h.waits.keep [.entered .closed] (by simp [silent, Note.owes, astray])
  have hfits := h.fits
  rw [hst] at hfits
  unfold Tcp.incomingLastAck
  dsimp only
  split
  · split
    · next hs => exact ⟨hentered.appSend (by simp [show c.appStatus = _ from hs]) c.appStatus .ack, rfl⟩
    · next hs => exact ⟨hentered, hfits.resolve_left hs⟩
  · exact h

theorem Obliged.incomingFIN (h : Obliged c) : Obliged (Tcp.incomingFIN c) := by
  have hclose (c : TcpConnection) (h : Obliged c) :
      Obliged (if c.appStatus = .writing ∨ c.appStatus = .reading then appSendClose c else c) := by
    split
    · next hs =>
      have hwaits := h.waits.appSend (by rcases hs with hs | hs <;> simp [hs]) c.appStatus .closed
      exact ⟨hwaits, fits_served h.fits hs.symm⟩
    · exact h
  have hsent (x : Sent) (st : State) := h.waits.keep [.sent x, .entered st]
    (by simp [silent, Note.owes, astray])
  unfold Tcp.incomingFIN
  refine hclose _ ?_
  split
  · exact ⟨by simpa [waits] using hsent _ .closewait, trivial⟩
  · exact ⟨by simpa [waits] using hsent _ .closewait, trivial⟩
  · exact ⟨h.waits.keep [.entered .closing] (by simp [silent, Note.owes, astray]), trivial⟩
  · exact ⟨by simpa [waits] using hsent _ .timewait, trivial⟩
  · exact h

theorem Obliged.takeAck (h : Obliged c) (htake : Tcp.takeAck cfg env seg c = some c') :
    Obliged c' := by
  refine ⟨Waits.takeAck h.waits htake, ?_⟩
  have haside := takeAck_aside htake
  rw [haside.state]
  rcases haside.appStatus with hs | ⟨hw, hs⟩
  · rw [hs]
    exact h.fits
  · rw [hs]
    exact fits_served h.fits (Or.inr hw)

theorem Obliged.incomingData (h : Obliged c) {b : Bool}
    (hdata : Tcp.incomingData cfg env seg c = some (b, c')) : Obliged c' := by
  refine ⟨Waits.incomingData h.waits hdata, ?_⟩
  unfold Tcp.incomingData at hdata
  split at hdata
  · obtain ⟨⟨b', c₂⟩, hstore, heq⟩ := Option.map_eq_some_iff.mp hdata
    obtain ⟨-, rfl⟩ := Prod.mk.inj heq
    have hbeside := storeIncomingData_beside hstore
    change Tcp.fits c₂.state c₂.appStatus
    rw [hbeside.state]
    rcases hbeside.appStatus with hs | ⟨hr, hs⟩
    · rw [hs]
      exact h.fits
    · rw [hs]
      exact fits_served h.fits (Or.inl hr)
  · obtain ⟨-, rfl⟩ := Prod.mk.inj (Option.some.inj hdata)
    exact h.fits

theorem Obliged.acked (h : Obliged c) (ha : Acked cfg env seg c c') : Obliged c' := by
  cases ha with
  | lastAck hst => exact h.incomingLastAck hst
  | duplicate => exact h
  | beyond => exact ⟨h.waits.keep _ (by simp [silent, Note.owes, astray]), h.fits⟩
  | finwait2 _ htake =>
    exact ⟨(h.takeAck htake).waits.keep [.entered .finwait2] (by simp [silent, Note.owes, astray]),
      trivial⟩
  | timewait _ htake =>
    have hentered := (h.takeAck htake).waits.keep [.entered .timewait]
      (by simp [silent, Note.owes, astray])
    split
    · next hs => exact ⟨hentered.appSend hs _ .closed, trivial⟩
    · exact ⟨hentered, trivial⟩
  | data _ htake _ _ hdata =>
    have hkept := (h.takeAck htake).incomingData hdata
    split
    · exact hkept.incomingFIN
    · exact hkept

end Incoming

section TimeOut

theorem Obliged.expire (h : Obliged c) : Obliged (Tcp.expire c) := by
  have hentered := h.waits.keep [.entered .closed] (by simp [silent, Note.owes, astray])
  unfold Tcp.expire
  dsimp only
  split
  · next hs => exact ⟨hentered.appSend hs c.appStatus .error, rfl⟩
  · next hs => exact ⟨hentered, not_not.mp hs⟩

theorem Obliged.lapse (h : Obliged c) : Obliged (Tcp.lapse c) := by
  have hcounted : Obliged { c with timeouts := c.timeouts + 1 } := ⟨h.waits, h.fits⟩
  unfold Tcp.lapse
  dsimp only
  split
  · exact hcounted.expire
  · exact hcounted

theorem Obliged.loadOutgoingData (h : Obliged c)
    (hload : Tcp.loadOutgoingData cfg env c = some c') : Obliged c' := by
  have haside := loadOutgoingData_aside hload
  refine ⟨Waits.loadOutgoingData h.waits hload, ?_⟩
  rw [haside.state]
  rcases haside.appStatus with hs | ⟨hw, hs⟩
  · rw [hs]
    exact h.fits
  · rw [hs]
    exact fits_served h.fits (Or.inr hw)

theorem Obliged.resent {t2 : Word} (h : Obliged c) (hr : Resent t2 c c') : Obliged c' := by
  cases hr with
  | timewait =>
    exact ⟨h.waits.keep [.entered .timewait0] (by simp [silent, Note.owes, astray]), trivial⟩
  | timewait0 =>
    have hentered := h.waits.keep [.entered .closed] (by simp [silent, Note.owes, astray])
    split
    · next hs => exact ⟨hentered.appSend hs c.appStatus .closed, rfl⟩
    · next hs => exact ⟨hentered, not_not.mp hs⟩
  | syn | fin =>
    exact ⟨h.waits.keep [.sent _] (by simp [silent, Note.owes, astray]), h.fits⟩
  | nothing => exact ⟨h.waits, h.fits⟩

theorem Obliged.ticked (h : Obliged c) (ht : Ticked cfg env c c') : Obliged c' := by
  cases ht with
  | stopped => exact h
  | counted => exact ⟨h.waits, h.fits⟩
  | again _ _ hload =>
    have hrewound : Obliged (rewind cfg (notAcknowledged cfg (Tcp.lapse c)) (Tcp.lapse c)) :=
      ⟨h.lapse.waits, h.lapse.fits⟩
    have hloaded := hrewound.loadOutgoingData hload
    exact ⟨hloaded.waits, hloaded.fits⟩
  | rest => exact h.lapse.resent (resend_cases _)

end TimeOut

end Xtcp.Pip.Tcp
