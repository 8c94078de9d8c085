import Mathlib.Algebra.BigOperators.Pi
import Xtcp.Pip.Tcp.Waiting

namespace Xtcp.Pip.Tcp
open Ledger Serial

variable {cfg : Config} {env : Env} {c c' : TcpConnection} {a : Act} {n : Nat} {s : Stack n}

def synchronized (st : State) : Prop :=
  st = .synrcvd ∨ st = .estab ∨ st = .finwait1 ∨ st = .finwait2 ∨ st = .closewait ∨
    st = .closing ∨ st = .lastack

-- When the request, or the one that waits, is answered once.
def Answerable (cfg : Config) (_ : Env) : Act → TcpConnection → Prop
  | .request _ .accept, c | .request _ (.connect _ _ _), c => c.appStatus = .notWaiting
  | .request _ .close, c => c.state = .closed ∨ c.appStatus = .notWaiting ∧ closes c.state
  | .request _ .read, c =>
      c.state = .estab → c.rx.free = cfg.bufsizeRx → c.appStatus = .notWaiting
  | .request _ .write, c => c.state = .estab → c.tx.free = 0 → c.appStatus = .notWaiting
  | .segment seg, c =>
      (c.state = .synsent → outside c.sndUNA c.sndNXT seg.ack = false →
        ¬ (seg.flags.ack = true ∧ seg.flags.rst = true ∧ seg.flags.syn = true)) ∧
      (synchronized c.state → seg.seq = c.rcvNXT →
        if seg.flags.rst then resettable c
        else seg.flags.syn = true → c.appWaiting.isSome → c.appStatus ≠ .notWaiting)
  | .timeOut, _ | .prepare, _ => True

instance (c : TcpConnection) : Decidable (resettable c) := inferInstanceAs (Decidable (_ ∧ _))

instance (st : State) : Decidable (synchronized st) := inferInstanceAs (Decidable (_ ∨ _))

instance (st : State) : Decidable (closes st) := inferInstanceAs (Decidable (_ ∨ _))

instance (cfg : Config) (env : Env) (a : Act) (c : TcpConnection) :
    Decidable (Answerable cfg env a c) :=
  match a with
  | .request _ .accept | .request _ (.connect _ _ _) =>
      inferInstanceAs (Decidable (c.appStatus = .notWaiting))
  | .request _ .close => inferInstanceAs (Decidable (_ ∨ _))
  | .request _ .read | .request _ .write => inferInstanceAs (Decidable (_ → _))
  | .segment _ => inferInstanceAs (Decidable (_ ∧ _))
  | .timeOut | .prepare => isTrue trivial

theorem Obliged.incoming {seg : Segment} (h : Obliged c) (hok : Answerable cfg env (.segment seg) c)
    (hi : Tcp.incoming cfg env seg c = some c') : Obliged c' := by
  cases incoming_cases hi with
  | closed => exact h
  | listen hst => exact h.incomingListen hst
  | synsent hst hg =>
    exact h.synsent hst (hok.1 hst) hg
  | timewait hst =>
    unfold incomingTimewait
    split
    · have hsent (x : Sent) := h.waits.keep [.sent x, .entered .timewait]
        (by simp [silent, Note.owes, astray])
      exact ⟨by simpa [waits] using hsent _, trivial⟩
    · exact h
  | synchronized hst hs =>
    have hok := hok.2 hst
    have hoffered : Obliged (offered seg c) := ⟨h.waits, h.fits⟩
    cases hs with
    | outOfOrder => exact ⟨h.waits.keep [.sent _] (by simp [silent, Note.owes, astray]), h.fits⟩
    | reset hseq hr =>
      have hok := hok hseq
      rw [if_pos hr] at hok
      exact h.incomingRST hst hok
    | restart hseq hr hsyn =>
      have hok := hok hseq
      rw [hr] at hok
      exact h.incomingSYN (hok hsyn)
    | silent => exact h
    | refused =>
      exact ⟨h.waits.keep [.bounced _] (by simp [Tcp.silent, Note.owes, astray]), h.fits⟩
    | opened _ _ _ ha => exact hoffered.establish.acked ha
    | acked _ _ ha => exact hoffered.acked ha

theorem Obliged.act (h : Obliged c) (hok : Answerable cfg env a c)
    (hact : Tcp.act cfg env a c = some c') : Obliged c' := by
  cases a with
  | request app r =>
    cases r with
    | accept => exact Option.some.inj hact ▸ h.doAccept hok
    | connect => exact Option.some.inj hact ▸ h.doConnect hok
    | close => exact Option.some.inj hact ▸ h.doClose hok
    | read => exact h.doRead hok hact
    | write => exact h.doWrite hok hact
  | segment seg =>
    have hclaim : Obliged (claim seg c) ∧ Answerable cfg env (.segment seg) (claim seg c) := by
      obtain ⟨port, ip, ip', hsame⟩ := claim_same seg c
      rw [hsame]
      exact ⟨⟨h.waits, h.fits⟩, hok⟩
    exact hclaim.1.incoming hclaim.2 hact
  | timeOut => exact h.ticked (timeOut_cases hact)
  | prepare => exact h.loadOutgoingData hact

theorem Run.obliged (h : Run cfg (Each (Answerable cfg)) s) (i : Fin n) : Obliged (s.conns i) :=
  h.invariant obliged_zero (fun _ _ _ _ hc hok _ hs => hc.act hok hs) i

def waitsFor (app : Chanend) (c : TcpConnection) : Prop :=
  c.appStatus ≠ .notWaiting ∧ c.appWaiting = some app

instance (app : Chanend) (c : TcpConnection) : Decidable (waitsFor app c) :=
  inferInstanceAs (Decidable (_ ∧ _))

-- Tokens go to who has an open request, on this connection too. An open request is remembered by a
-- connection that has not been closed.
structure Answered (s : Stack n) : Prop where
  solvent : Solvent Note.owes 0 s.log
  own : ∀ i, Solvent Note.owes 0 (s.conns i).log
  addressed : ∀ x ∈ s.log, ¬ astray x
  remembered : ∀ app,
    balance Note.owes s.log app = (Finset.univ.filter fun i => waitsFor app (s.conns i)).card
  closed : ∀ i, (s.conns i).state = .closed → (s.conns i).appStatus = .notWaiting

theorem Obliged.balance (h : Obliged c) (app : Chanend) :
    balance Note.owes c.log app = if waitsFor app c then 1 else 0 := by
  rw [h.waits.owed, add_zero]
  by_cases hs : c.appStatus = .notWaiting
  · simp [waitsFor, owing, hs]
  · obtain ⟨app', hw⟩ := Option.isSome_iff_exists.mp (h.waits.named hs)
    rw [hw, owing_waiting hs]
    simp [waitsFor, hs, hw, Pi.single_apply, eq_comm]

theorem Run.kept (h : Run cfg (Each (Answerable cfg)) s) :
    Joint Note.owes (fun i => (s.conns i).log) s.log ∧ ∀ x ∈ s.log, ¬ astray x := by
  refine h.whole (J := Obliged)
    (P := fun s => Joint Note.owes (fun i => (s.conns i).log) s.log ∧ ∀ x ∈ s.log, ¬ astray x)
    (fun hrun i => hrun.obliged i) ⟨joint_nil, nofun⟩ ?_ ?_ ?_
  · rintro s i env a c' ⟨hkept, haddressed⟩ hobliged hok - hact
    obtain ⟨new, hnew⟩ := act_log hact
    have hwaits := (hobliged.act hok hact).waits
    have hsolvent := hwaits.solvent
    have hfresh := fresh_eq hnew.symm
    have hlogs : (fun j => ((s.put i c').conns j).log) =
        Function.update (fun j => (s.conns j).log) i ((s.conns i).log ++ new) := by
      funext j
      by_cases hj : j = i
      · subst hj
        simp [Stack.put, hnew]
      · simp [Stack.put, hj]
    rw [← hnew] at hsolvent
    refine ⟨?_, fun x hx => ?_⟩
    · rw [hlogs]
      simpa [Stack.put, hfresh] using hkept.add i hsolvent
    · simp only [Stack.put, hfresh] at hx
      refine (List.mem_append.mp hx).elim (haddressed x) fun hx => hwaits.addressed x ?_
      rw [← hnew]
      exact List.mem_append_right _ hx
  · rintro s x ⟨hkept, haddressed⟩
    refine ⟨hkept.neutral (by simp [Note.owes]), ?_⟩
    simpa [or_imp, forall_and, astray] using haddressed
  · exact fun s h => h

theorem one_token_for_each_request (h : Run cfg (Each (Answerable cfg)) s) : Answered s := by
  obtain ⟨hkept, haddressed⟩ := h.kept
  refine ⟨hkept.all, hkept.each, haddressed, fun app => ?_, fun i hst => ?_⟩
  · rw [hkept.sum, Finset.sum_apply, Finset.card_filter]
    push_cast
    exact Finset.sum_congr rfl fun i _ => (h.obliged i).balance app
  · have hfits := (h.obliged i).fits
    rwa [hst] at hfits

-- A read waits, is served, and another is told that the connection has been closed.
theorem one_token_for_each_read : ∃ s : Stack 1, Run small (Each (Answerable small)) s ∧
    (s.conns 0).state = .closewait ∧ Answered s := by
  obtain ⟨s, hrun, hstate⟩ := exists_run small (C := Answerable small)
    (P := fun s : Stack 1 => (s.conns 0).state = .closewait)
    [.request (during 100 4) 5 0 .accept,
      .segment (during 100 4) (packet 1000 0 { syn := true } []),
      .segment (during 100 4) (packet 1001 101 { ack := true } []),
      .request (during 100 4) 5 0 .read,
      .segment (during 100 4) (packet 1001 101 { ack := true } [7, 8]),
      .request (during 100 4) 5 0 .read,
      .segment (during 100 4) (packet 1003 101 { ack := true, fin := true } [])] (by decide)
  exact ⟨s, hrun, hstate, one_token_for_each_request hrun⟩

-- A reset in LASTACK leaves the close unanswered. One in ESTAB is told to an application that has
-- asked for nothing.
theorem close_unanswered_and_error_unasked :
    (∃ s : Stack 1, Run small (Each fun _ _ _ => True) s ∧ (s.conns 0).state = .closed ∧
      balance Note.owes s.log 5 = 1 ∧ ¬ Answered s) ∧
    ∃ s : Stack 1, Run small (Each fun _ _ _ => True) s ∧ balance Note.owes s.log 5 = -1 ∧
      ¬ Answered s := by
  obtain ⟨s, hrun, hstate, hwaits, howed⟩ := exists_run small (C := fun _ _ _ => True)
    (P := fun s : Stack 1 => (s.conns 0).state = .closed ∧
      (s.conns 0).appStatus ≠ .notWaiting ∧ balance Note.owes s.log 5 = 1)
    [.request (during 100 4) 5 0 .accept,
      .segment (during 100 4) (packet 1000 0 { syn := true } []),
      .segment (during 100 4) (packet 1001 101 { ack := true } []),
      .segment (during 100 4) (packet 1001 101 { ack := true, fin := true } []),
      .request (during 100 4) 5 0 .close,
      .segment (during 100 4) (packet 1002 101 { rst := true } [])] (by decide)
  obtain ⟨s', hrun', howed'⟩ := exists_run small (C := fun _ _ _ => True)
    (P := fun s : Stack 1 => balance Note.owes s.log 5 = -1)
    [.request (during 100 4) 5 0 .accept,
      .segment (during 100 4) (packet 1000 0 { syn := true } []),
      .segment (during 100 4) (packet 1001 101 { ack := true } []),
      .segment (during 100 4) (packet 1001 101 { rst := true } [])] (by decide)
  refine ⟨⟨s, hrun, hstate, howed, fun h => hwaits (h.closed 0 hstate)⟩, s', hrun', howed', ?_⟩
  intro h
  have hnonneg := h.remembered 5
  omega

end Xtcp.Pip.Tcp
