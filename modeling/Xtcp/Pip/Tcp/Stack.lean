import Mathlib.Data.List.FinRange
import Xtcp.Pip.Tcp.Process

namespace Xtcp.Pip.Tcp

variable {n : Nat} (cfg : Config)

def openStream (seg : Segment) (c : TcpConnection) : Bool :=
  c.state != .closed && c.remotePortRev == seg.srcPortRev && c.remoteIP == seg.srcIP &&
    c.localIP == seg.dstIP

def found (seg : Segment) (c : TcpConnection) : Bool :=
  seg.dstPortRev == c.localPortRev && (openStream seg c || c.state == .listen)

-- A listening connection takes the addresses of whatever comes.
def claim (seg : Segment) (c : TcpConnection) : TcpConnection :=
  if openStream seg c then c
  else { c with remotePortRev := seg.srcPortRev, remoteIP := seg.srcIP, localIP := seg.dstIP }

-- What the server does on one connection.
inductive Act where
  | request (app : Chanend) (r : Request)
  | segment (seg : Segment)
  | timeOut
  | prepare

def act (env : Env) : Act → TcpConnection → Option TcpConnection
  | .request app r, c => pipApplicationTCP cfg env app r c
  | .segment seg, c => incoming cfg env seg (claim seg c)
  | .timeOut, c => timeOut cfg env c
  | .prepare, c => loadOutgoingData cfg env c

def fresh (c c' : TcpConnection) : List Note := c'.log.drop c.log.length

structure Stack (n : Nat) where
  conns : Fin n → TcpConnection
  outgoingReady : Bool
  log : List Note

def Stack.start (n : Nat) : Stack n :=
  ⟨fun i => .zero (if i.val = 0 then 0x1700 else 0), false, []⟩

def Stack.put (s : Stack n) (i : Fin n) (c : TcpConnection) : Stack n :=
  let new := fresh (s.conns i) c
  ⟨Function.update s.conns i c, s.outgoingReady || decide (.ready ∈ new), s.log ++ new⟩

def Stack.perform (env : Env) (i : Fin n) (a : Act) (s : Stack n) : Option (Stack n) :=
  (act cfg env a (s.conns i)).map (s.put i)

def pipIncomingTCP (env : Env) (seg : Segment) (s : Stack n) : Option (Stack n) :=
  match (List.finRange n).find? fun i => found seg (s.conns i) with
  | some i => s.perform cfg env i (.segment seg)
  | none =>
      if seg.flags.rst then some s
      else some { s with log := s.log ++ [.bounced (bounceRST env seg (!seg.flags.ack))] }

def pipTimeOutTCPTimewait (env : Fin n → Env) (s : Stack n) : Option (Stack n) :=
  (List.finRange n).foldlM (fun s i => s.perform cfg (env i) i .timeOut) s

def unsent (c : TcpConnection) : Bool := c.tx.length != 0 && c.state != .closed

def pipOutgoingPrepareTCP (env : Env) (s : Stack n) : Option (Stack n) :=
  match (List.finRange n).find? fun i => unsent (s.conns i) with
  | some i => s.perform cfg env i .prepare
  | none => some { s with outgoingReady := false }

inductive Event (n : Nat) where
  | request (env : Env) (app : Chanend) (i : Fin n) (r : Request)
  | segment (env : Env) (seg : Segment)
  | timeOut (env : Fin n → Env)
  | prepare (env : Env)

def step (s : Stack n) : Event n → Option (Stack n)
  | .request env app i r => s.perform cfg env i (.request app r)
  | .segment env seg => pipIncomingTCP cfg env seg s
  | .timeOut env => pipTimeOutTCPTimewait cfg env s
  | .prepare env => if s.outgoingReady then pipOutgoingPrepareTCP cfg env s else none

-- What an event is for one connection.
def concerns (s : Stack n) : Event n → Fin n → Option (Env × Act)
  | .request env app j r, i => if j = i then some (env, .request app r) else none
  | .segment env seg, i =>
      if ((List.finRange n).find? fun j => found seg (s.conns j)) = some i then
        some (env, .segment seg)
      else none
  | .timeOut env, i => some (env i, .timeOut)
  | .prepare env, i =>
      if ((List.finRange n).find? fun j => unsent (s.conns j)) = some i then some (env, .prepare)
      else none

-- When it does it.
def due : Act → TcpConnection → Prop
  | .segment seg, c => found seg c = true
  | .prepare, c => unsent c = true
  | _, _ => True

theorem due_of_concerns {s : Stack n} {e : Event n} {i : Fin n} {env : Env} {a : Act}
    (h : concerns s e i = some (env, a)) : due a (s.conns i) := by
  cases e with
  | request env' app j r =>
    simp only [concerns, Option.ite_none_right_eq_some, Option.some.injEq, Prod.mk.injEq] at h
    rw [← h.2.2]
    trivial
  | segment env' seg =>
    simp only [concerns, Option.ite_none_right_eq_some, Option.some.injEq, Prod.mk.injEq] at h
    rw [← h.2.2]
    exact List.find?_some (p := fun j => found seg (s.conns j)) h.1
  | timeOut env' =>
    simp only [concerns, Option.some.injEq, Prod.mk.injEq] at h
    rw [← h.2]
    trivial
  | prepare env' =>
    simp only [concerns, Option.ite_none_right_eq_some, Option.some.injEq, Prod.mk.injEq] at h
    rw [← h.2.2]
    exact List.find?_some (p := fun j => unsent (s.conns j)) h.1

def Evolves (s s' : Stack n) (i : Fin n) (e : Option (Env × Act)) : Prop :=
  match e with
  | none => s'.conns i = s.conns i
  | some (env, a) => act cfg env a (s.conns i) = some (s'.conns i)

variable {cfg} {s s' : Stack n}

theorem perform_evolves {env : Env} {j : Fin n} {a : Act} (h : s.perform cfg env j a = some s')
    (i : Fin n) : Evolves cfg s s' i (if j = i then some (env, a) else none) := by
  obtain ⟨c, hc, rfl⟩ := Option.map_eq_some_iff.mp h
  by_cases hi : j = i
  · subst hi
    simpa [Evolves, Stack.put] using hc
  · simp [Evolves, hi, Stack.put, Function.update_of_ne (Ne.symm hi)]

theorem timeOuts_evolve {env : Fin n → Env} (i : Fin n) (l : List (Fin n)) (hl : l.Nodup)
    (h : l.foldlM (fun s i => s.perform cfg (env i) i .timeOut) s = some s') :
    Evolves cfg s s' i (if i ∈ l then some (env i, .timeOut) else none) := by
  induction l generalizing s with
  | nil =>
    rw [← Option.some.inj h]
    rfl
  | cons j l ih =>
    obtain ⟨hj, hl⟩ := List.nodup_cons.mp hl
    obtain ⟨s₁, hfirst, hrest⟩ := Option.bind_eq_some_iff.mp h
    have hone := perform_evolves hfirst i
    have hall := ih hl hrest
    by_cases hi : j = i
    · subst hi
      simp only [hj, if_false, Evolves] at hall
      simpa [Evolves, hall] using hone
    · simp only [hi, if_false, Evolves] at hone
      simpa [Evolves, Ne.symm hi, hone] using hall

theorem step_evolves {e : Event n} (h : step cfg s e = some s') (i : Fin n) :
    Evolves cfg s s' i (concerns s e i) := by
  cases e with
  | request env app j r => exact perform_evolves h i
  | segment env seg =>
    simp only [step, pipIncomingTCP] at h
    simp only [concerns]
    split at h
    · next j hj =>
      rw [hj]
      simpa using perform_evolves h i
    · next hnone =>
      rw [hnone]
      split at h
      all_goals
        rw [← Option.some.inj h]
        simp [Evolves]
  | timeOut env =>
    simpa [List.mem_finRange, concerns] using timeOuts_evolve i _ (List.nodup_finRange n) h
  | prepare env =>
    simp only [step] at h
    split at h
    · simp only [pipOutgoingPrepareTCP] at h
      simp only [concerns]
      split at h
      · next j hj =>
        rw [hj]
        simpa using perform_evolves h i
      · next hnone =>
        rw [hnone, ← Option.some.inj h]
        simp [Evolves]
    · cases h

theorem fresh_eq {c c' : TcpConnection} {new : List Note} (h : c'.log = c.log ++ new) :
    fresh c c' = new := by
  rw [fresh, h, List.drop_left]

section Runs

variable (cfg)

inductive Run (ok : Stack n → Event n → Prop) : Stack n → Prop where
  | start : Run ok (.start n)
  | step {s s' : Stack n} (e : Event n) :
      Run ok s → ok s e → step cfg s e = some s' → Run ok s'

variable {cfg}

-- A condition on every act on every connection.
def Each (C : Env → Act → TcpConnection → Prop) (s : Stack n) (e : Event n) : Prop :=
  ∀ i env a, concerns s e i = some (env, a) → C env a (s.conns i)

variable {C : Env → Act → TcpConnection → Prop} {I : TcpConnection → Prop}

theorem Each.kept {e : Event n} (he : Each C s e) (h : step cfg s e = some s') {i : Fin n}
    (hkept : I (s.conns i))
    (hact : ∀ env a c', C env a (s.conns i) → due a (s.conns i) →
      act cfg env a (s.conns i) = some c' → I c') :
    I (s'.conns i) := by
  have hs := step_evolves h i
  cases hc : concerns s e i with
  | none =>
    rw [hc] at hs
    exact (show s'.conns i = s.conns i from hs) ▸ hkept
  | some x =>
    rw [hc] at hs
    exact hact x.1 x.2 _ (he i x.1 x.2 hc) (due_of_concerns hc) hs

-- J is known to hold all along.
theorem Run.invariant_of {J : TcpConnection → Prop}
    (hall : ∀ {s : Stack n}, Run cfg (Each C) s → ∀ i, J (s.conns i))
    (hzero : ∀ port, I (.zero port))
    (hact : ∀ env a c c', J c → I c → C env a c → due a c → act cfg env a c = some c' → I c')
    (h : Run cfg (Each C) s) (i : Fin n) : I (s.conns i) := by
  induction h with
  | start => exact hzero _
  | step e hrun hok hs ih => exact hok.kept hs ih fun env a c' => hact env a _ c' (hall hrun i) ih

theorem Run.invariant (hzero : ∀ port, I (.zero port))
    (hact : ∀ env a c c', I c → C env a c → due a c → act cfg env a c = some c' → I c')
    (h : Run cfg (Each C) s) (i : Fin n) : I (s.conns i) :=
  h.invariant_of (J := fun _ => True) (fun _ _ => trivial) hzero
    (fun env a c c' _ => hact env a c c') i

theorem Run.mono {C' : Env → Act → TcpConnection → Prop} (hC : ∀ env a c, C env a c → C' env a c)
    (h : Run cfg (Each C) s) : Run cfg (Each C') s := by
  induction h with
  | start => exact .start
  | step e _ hok hs ih => exact ih.step e (fun i env a ha => hC env a _ (hok i env a ha)) hs

-- Inputs for runs: rings of eight bytes, an application that offers 0, 1, 2 and so on.
def small : Config := ⟨8, 8, ⟨3, by decide, rfl⟩, ⟨3, by decide, rfl⟩⟩

def during (now : Word) (count : Int) : Env :=
  ⟨now, 1, ⟨count, fun k => UInt8.ofNat k⟩, ⟨count, fun _ => 0⟩, .zero 0⟩

def packet (seq ack : Word) (flags : Flags) (data : List UInt8) : Segment :=
  ⟨1, 0x1700, 2, 1, seq, ack, flags, 100, data.length, fun k => data.getD k 0⟩

-- Events one after another, as long as they are allowed.
def play (cfg : Config) (ok : Stack n → Event n → Bool) : List (Event n) → Stack n → Option (Stack n)
  | [], s => some s
  | e :: es, s => if ok s e then (step cfg s e).bind (play cfg ok es) else none

theorem Run.play {ok : Stack n → Event n → Prop} {okb : Stack n → Event n → Bool}
    (hok : ∀ s e, okb s e = true → ok s e) {es : List (Event n)} (h : Run cfg ok s)
    (hplay : play cfg okb es s = some s') : Run cfg ok s' := by
  induction es generalizing s with
  | nil => exact Option.some.inj hplay ▸ h
  | cons e es ih =>
    unfold Tcp.play at hplay
    split at hplay
    · next he =>
      obtain ⟨s₁, hs, hrest⟩ := Option.bind_eq_some_iff.mp hplay
      exact ih (h.step e (hok s e he) hs) hrest
    · cases hplay

theorem each_iff {e : Event n} :
    Each C s e ↔ ∀ i, ∀ x ∈ concerns s e i, C x.1 x.2 (s.conns i) :=
  ⟨fun h i x hx => h i x.1 x.2 hx, fun h i env a hx => h i (env, a) hx⟩

instance [∀ env a c, Decidable (C env a c)] (e : Event n) : Decidable (Each C s e) :=
  decidable_of_iff _ each_iff.symm

theorem exists_run (cfg : Config) {P : Stack n → Prop} [DecidablePred P]
    [∀ env a c, Decidable (C env a c)]
    (es : List (Event n))
    (h : (play cfg (fun s e => decide (Each C s e)) es (.start n)).any (fun s => decide (P s)) = true) :
    ∃ s, Run cfg (Each C) s ∧ P s := by
  obtain ⟨s, hs, hP⟩ := (Option.any_eq_true _ _).mp h
  exact ⟨s, .play (fun s e he => of_decide_eq_true he) .start hs, of_decide_eq_true hP⟩

end Runs

end Xtcp.Pip.Tcp
