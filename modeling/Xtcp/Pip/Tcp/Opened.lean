import Xtcp.Pip.Tcp.Cases
import Xtcp.Pip.Tcp.Stack

namespace Xtcp.Pip.Tcp

variable {cfg : Config} {env : Env} {c c' : TcpConnection} {a : Act}

def opens : Act → Prop
  | .request _ .accept | .request _ (.connect _ _ _) => True
  | _ => False

-- A connection that nobody has opened.
structure Idle (c : TcpConnection) : Prop where
  state : c.state = .closed
  timeouts : c.timeouts = 0
  appStatus : c.appStatus = .notWaiting
  rx : c.rx = .zero
  tx : c.tx = .zero
  story : c.story = {}

theorem idle_zero (port : BitVec 16) : Idle (.zero port) := ⟨rfl, rfl, rfl, rfl, rfl, rfl⟩

theorem Idle.act (h : Idle c) (hdue : due a c) (hopens : ¬ opens a)
    (hact : act cfg env a c = some c') : Idle c' := by
  obtain ⟨hstate, htimeouts, hstatus, hrx, htx, hstory⟩ := h
  simp only [TcpConnection.story] at hstory
  cases a with
  | request app r =>
    cases r with
    | accept => exact absurd trivial hopens
    | connect => exact absurd trivial hopens
    | close =>
      rw [← Option.some.inj hact]
      constructor <;> simp [doClose, TcpConnection.story, hstate, htimeouts, hstatus, hrx, htx, hstory]
    | read =>
      simp only [Tcp.act, pipApplicationTCP, doRead, TcpConnection.note, hstate] at hact
      rw [← Option.some.inj hact]
      constructor <;> simp [TcpConnection.story, htimeouts, hstatus, hrx, htx, hstory]
    | write =>
      simp only [Tcp.act, pipApplicationTCP, doWrite, TcpConnection.note, hstate] at hact
      rw [← Option.some.inj hact]
      constructor <;> simp [TcpConnection.story, htimeouts, hstatus, hrx, htx, hstory]
  | segment seg => simp [due, found, openStream, hstate] at hdue
  | timeOut =>
    have heq : some c = some c' := by rw [← hact, Tcp.act, timeOut, if_pos htimeouts]
    exact Option.some.inj heq ▸ ⟨hstate, htimeouts, hstatus, hrx, htx, hstory⟩
  | prepare => simp [due, unsent, hstate] at hdue

-- What is told of a connection that nobody has opened.
def refusal : Note → Prop
  | .requested _ => True
  | .token _ request ct =>
      request = .closing ∧ ct = .ack ∨ (request = .reading ∨ request = .writing) ∧ ct = .error
  | _ => False

theorem Idle.notes (h : Idle c) (hdue : due a c) (hopens : ¬ opens a)
    (hact : Tcp.act cfg env a c = some c') :
    ∃ new, c'.log = c.log ++ new ∧ ∀ x ∈ new, refusal x := by
  have hstate := h.state
  cases a with
  | request app r =>
    cases r with
    | accept => exact absurd trivial hopens
    | connect => exact absurd trivial hopens
    | close =>
      rw [← Option.some.inj hact]
      refine ⟨[.requested app, .token (some app) .closing .ack], ?_, ?_⟩
      all_goals simp [doClose, hstate, refusal]
    | read =>
      simp only [Tcp.act, pipApplicationTCP, doRead, TcpConnection.note, hstate] at hact
      rw [← Option.some.inj hact]
      refine ⟨[.requested app, .token (some app) .reading .error], ?_, ?_⟩
      all_goals simp [refusal]
    | write =>
      simp only [Tcp.act, pipApplicationTCP, doWrite, TcpConnection.note, hstate] at hact
      rw [← Option.some.inj hact]
      refine ⟨[.requested app, .token (some app) .writing .error], ?_, ?_⟩
      all_goals simp [refusal]
  | segment seg => simp [due, found, openStream, hstate] at hdue
  | timeOut =>
    rw [Tcp.act, timeOut, if_pos h.timeouts] at hact
    exact ⟨[], by simp [← Option.some.inj hact], nofun⟩
  | prepare => simp [due, unsent, hstate] at hdue

section Runs

variable {n : Nat} {s : Stack n} {C : Env → Act → TcpConnection → Prop}
  {J : TcpConnection → Prop}

theorem Run.opened (h : Run cfg (Each C) s)
    (haccept : ∀ app (c : TcpConnection), J (doAccept cfg app (c.note (.requested app))))
    (hconnect : ∀ env app ip port port' (c : TcpConnection),
      J (doConnect cfg env app ip port port' (c.note (.requested app))))
    (hact : ∀ env a c c', J c → C env a c → due a c → ¬ opens a →
      act cfg env a c = some c' → J c') (i : Fin n) :
    Idle (s.conns i) ∨ J (s.conns i) := by
  refine h.invariant (I := fun c => Idle c ∨ J c) (fun port => Or.inl (idle_zero port)) ?_ i
  intro env a c c' hc hok hdue hs
  by_cases ha : opens a
  · refine Or.inr ?_
    cases a with
    | request app r =>
      cases r with
      | accept => exact Option.some.inj hs ▸ haccept app c
      | connect ip port port' => exact Option.some.inj hs ▸ hconnect env app ip port port' c
      | _ => exact ha.elim
    | _ => exact ha.elim
  · exact hc.imp (·.act hdue ha hs) fun hj => hact env a c c' hj hok hdue ha hs

-- The same where the log is told about, before the connection is opened too.
theorem Run.opened_told {T : Story → Note → Prop} (h : Run cfg (Each C) s)
    (hrefusal : ∀ t x, refusal x → T t x)
    (htold : ∀ c : TcpConnection, J c → Tells T c.log)
    (haccept : ∀ app (c : TcpConnection), Tells T c.log →
      J (doAccept cfg app (c.note (.requested app))))
    (hconnect : ∀ env app ip port port' (c : TcpConnection), Tells T c.log →
      J (doConnect cfg env app ip port port' (c.note (.requested app))))
    (hact : ∀ env a c c', J c → C env a c → due a c → ¬ opens a →
      act cfg env a c = some c' → J c') (i : Fin n) :
    (Idle (s.conns i) ∧ Tells T (s.conns i).log) ∨ J (s.conns i) := by
  refine h.invariant (I := fun c => (Idle c ∧ Tells T c.log) ∨ J c)
    (fun port => Or.inl ⟨idle_zero port, trivial⟩) ?_ i
  intro env a c c' hc hok hdue hs
  have hlog : Tells T c.log := hc.elim (·.2) (htold c)
  by_cases ha : opens a
  · refine Or.inr ?_
    cases a with
    | request app r =>
      cases r with
      | accept => exact Option.some.inj hs ▸ haccept app c hlog
      | connect ip port port' => exact Option.some.inj hs ▸ hconnect env app ip port port' c hlog
      | _ => exact ha.elim
    | _ => exact ha.elim
  · refine hc.imp (fun ⟨hidle, _⟩ => ⟨hidle.act hdue ha hs, ?_⟩) fun hj => hact env a c c' hj hok hdue ha hs
    obtain ⟨new, hnew, hall⟩ := hidle.notes hdue ha hs
    rw [hnew, tells_append]
    exact ⟨hlog, Prefix.along_of_forall fun t x hx => hrefusal t x (hall x hx)⟩

end Runs

end Xtcp.Pip.Tcp
