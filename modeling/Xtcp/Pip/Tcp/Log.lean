import Xtcp.Pip.Tcp.Cases
import Xtcp.Pip.Tcp.Stack

namespace Xtcp.Pip.Tcp
open Serial

variable {cfg : Config} {env : Env} {c c' : TcpConnection} {seg : Segment}

section Adds

variable {P : Note → Prop} {log log' log₂ new : List Note}

-- What is told behind a log.
def Adds (P : Note → Prop) (log log' : List Note) : Prop :=
  ∃ new, log' = log ++ new ∧ ∀ x ∈ new, P x

@[simp] theorem adds_append : Adds P log (log ++ new) ↔ ∀ x ∈ new, P x := by
  constructor
  · rintro ⟨new', heq, hnew⟩
    rwa [List.append_cancel_left heq]
  · exact fun h => ⟨new, rfl, h⟩

@[simp] theorem adds_refl : Adds P log log := ⟨[], by simp, nofun⟩

theorem Adds.trans (h : Adds P log log₂) (h₂ : Adds P log₂ log') : Adds P log log' := by
  obtain ⟨new, rfl, hnew⟩ := h
  obtain ⟨new₂, rfl, hnew₂⟩ := h₂
  rw [List.append_assoc, adds_append]
  exact fun x hx => (List.mem_append.mp hx).elim (hnew x) (hnew₂ x)

theorem Adds.isPrefix (h : Adds P log log') : log <+: log' := by
  obtain ⟨new, rfl, -⟩ := h
  exact List.prefix_append log new

theorem Adds.mono {Q : Note → Prop} (h : Adds P log log') (hPQ : ∀ x, P x → Q x) :
    Adds Q log log' := by
  obtain ⟨new, hlog, hnew⟩ := h
  exact ⟨new, hlog, fun x hx => hPQ x (hnew x hx)⟩

theorem mem_fresh {x : Note} (h : c.log <+: log) (h' : log ++ [x] <+: c'.log) :
    x ∈ Tcp.fresh c c' := by
  obtain ⟨new, rfl⟩ := h
  obtain ⟨post, hpost⟩ := h'
  have hlog : c'.log = c.log ++ (new ++ x :: post) := by simp [← hpost]
  rw [fresh_eq hlog]
  simp

theorem Adds.fresh (h : Adds P c.log c'.log) : ∀ x ∈ Tcp.fresh c c', P x := by
  obtain ⟨new, hlog, hnew⟩ := h
  rwa [fresh_eq hlog]

end Adds

-- That the connection is open.
def announces : Note → Prop
  | .entered st => st = .estab
  | .token _ request ct => (request = .accepting ∨ request = .connecting) ∧ ct = .ack
  | _ => False

-- What comes between the opening of a connection and its close.
def midway : Note → Prop
  | .opened | .finished _ => False
  | _ => True

@[simp] abbrev Tacit (c c' : TcpConnection) : Prop :=
  Adds (fun x => ¬ announces x ∧ midway x) c.log c'.log

theorem Tacit.midway (h : Tacit c c') : Adds midway c.log c'.log := h.mono fun _ hx => hx.2

-- What is told where a segment only changes the state, answers the application or is acknowledged.
def plain : Note → Prop
  | .entered st => st ≠ .estab
  | .token _ request ct => ¬ ((request = .accepting ∨ request = .connecting) ∧ ct = .ack)
  | .sent p => p.data = [] ∧ p.flags.rst = false
  | _ => False

@[simp] abbrev Plain (c c' : TcpConnection) : Prop := Adds plain c.log c'.log

theorem tacit_of_plain (x : Note) (h : plain x) : ¬ announces x ∧ midway x := by
  cases x with
  | entered | token => exact ⟨h, trivial⟩
  | sent => exact ⟨not_false, trivial⟩
  | _ => exact h.elim

theorem Plain.tacit (h : Plain c c') : Tacit c c' := Adds.mono h tacit_of_plain

theorem incomingRST_plain : Plain c (incomingRST c) := by
  unfold incomingRST
  dsimp only
  split
  · split <;> simp [plain]
  iterate 4
    · split <;> simp [plain]
  · simp [plain]

theorem incomingSYN_plain : Plain c (incomingSYN c) := by
  unfold incomingSYN
  dsimp only
  split <;> simp [plain]

theorem incomingFIN_plain : Plain c (incomingFIN c) := by
  unfold incomingFIN
  dsimp only
  split
  all_goals split <;> simp [plain, header]

theorem incomingLastAck_plain : Plain c (incomingLastAck seg c) := by
  unfold incomingLastAck
  dsimp only
  split
  · split
    · next hs => simp [plain, show c.appStatus = _ from hs]
    · simp [plain]
  · simp

theorem incomingTimewait_plain : Plain c (incomingTimewait seg c) := by
  unfold incomingTimewait
  split <;> simp [plain, header]

theorem Acked.adds {P : Note → Prop} (h : Acked cfg env seg c c') (hplain : ∀ x, plain x → P x)
    (htake : ∀ {c₂}, takeAck cfg env seg c = some c₂ → Adds P c.log c₂.log)
    (hdata : ∀ {c₂ c₃ b}, incomingData cfg env seg c₂ = some (b, c₃) → Adds P c₂.log c₃.log) :
    Adds P c.log c'.log := by
  have hmono {c₂ c₃ : TcpConnection} (h : Plain c₂ c₃) : Adds P c₂.log c₃.log := h.mono hplain
  cases h with
  | lastAck => exact hmono incomingLastAck_plain
  | duplicate => exact adds_refl
  | beyond => exact hmono (by simp [plain, header])
  | finwait2 _ hc => exact (htake hc).trans (hmono (by simp [plain]))
  | timewait _ hc =>
    refine (htake hc).trans (hmono ?_)
    split <;> simp [plain]
  | @data c₂ c₃ b _ hc _ _ hd =>
    have hlog := (htake hc).trans (hdata hd)
    split
    · exact hlog.trans (hmono incomingFIN_plain)
    · exact hlog

theorem incomingListen_tacit : Tacit c (incomingListen env seg c) := by
  unfold incomingListen
  split
  · simp
  split
  · simp [announces, midway]
  split
  · simp [announces, midway]
  · simp

theorem declined_tacit : Tacit c (declined env seg c) := by
  unfold declined
  dsimp only
  split <;> simp [announces, midway]

theorem heard_tacit : Tacit c (heard seg c) := by
  unfold heard
  dsimp only
  split <;> split <;> simp [announces, midway]

theorem Aside.tacit (h : Aside c c') : Tacit c c' := by
  obtain ⟨new, hlog, hnew⟩ := h.notes
  refine ⟨new, hlog, fun x hx => ?_⟩
  have hout := hnew x hx
  cases x with
  | token => simp [announces, midway, hout.1]
  | _ => simp_all [announces, midway, outward]

theorem Beside.tacit (h : Beside c c') : Tacit c c' := by
  obtain ⟨new, hlog, hnew⟩ := h.notes
  refine ⟨new, hlog, fun x hx => ?_⟩
  have hin := hnew x hx
  cases x with
  | token => simp [announces, midway, hin.1]
  | _ => simp_all [announces, midway, inward]

theorem incomingData_tacit {b : Bool} (h : incomingData cfg env seg c = some (b, c')) :
    Tacit c c' := by
  unfold incomingData at h
  split at h
  · obtain ⟨⟨b', c₂⟩, hstore, heq⟩ := Option.map_eq_some_iff.mp h
    obtain ⟨-, rfl⟩ := Prod.mk.inj heq
    exact (storeIncomingData_beside hstore).tacit.trans (by simp [announces, midway])
  · obtain ⟨-, rfl⟩ := Prod.mk.inj (Option.some.inj h)
    exact adds_refl

theorem Acked.tacit (h : Acked cfg env seg c c') : Tacit c c' :=
  h.adds tacit_of_plain (fun hc => (takeAck_aside hc).tacit) incomingData_tacit

theorem greeted_midway : Adds midway c.log (greeted seg c).log := by
  unfold greeted
  dsimp only
  split <;> simp [midway]

theorem Greeting.midway (h : Greeting env seg c c') : Adds midway c.log c'.log := by
  cases h with
  | declined => exact declined_tacit.midway
  | heard => exact heard_tacit.midway
  | estab | synrcvd =>
    have hlog : Adds Tcp.midway c.log (greeted seg (Tcp.heard seg c)).log :=
      heard_tacit.midway.trans greeted_midway
    exact hlog.trans (by simp [Tcp.midway])

theorem establish_log : c.log ++ [.entered .estab] <+: (establish c).log := by
  unfold establish
  dsimp only
  split <;> simp

theorem establish_midway : Adds midway c.log (establish c).log := by
  unfold establish
  dsimp only
  split <;> simp [midway]

theorem Synchronized.tacit (hs : Synchronized cfg env seg c c') (hst : c.state ≠ .synrcvd) :
    Tacit c c' := by
  cases hs with
  | outOfOrder => simp [announces, midway]
  | reset => exact incomingRST_plain.tacit
  | restart => exact incomingSYN_plain.tacit
  | silent => exact adds_refl
  | refused => simp [announces, midway]
  | opened _ hsyn => exact absurd hsyn hst
  | acked _ _ ha => exact ha.tacit

theorem Synchronized.midway (h : Synchronized cfg env seg c c') : Adds midway c.log c'.log := by
  by_cases hst : c.state = .synrcvd
  · cases h with
    | opened _ _ _ ha =>
      exact (establish_midway (c := offered seg c)).trans ha.tacit.midway
    | outOfOrder | refused => simp [Tcp.midway]
    | reset => exact incomingRST_plain.tacit.midway
    | restart => exact incomingSYN_plain.tacit.midway
    | silent => exact adds_refl
    | acked _ hne => exact absurd hst hne
  · exact (h.tacit hst).midway

theorem Arrival.midway (h : Arrival cfg env seg c c') : Adds midway c.log c'.log := by
  cases h with
  | closed => exact adds_refl
  | listen => exact incomingListen_tacit.midway
  | synsent _ hg => exact hg.midway
  | timewait => exact incomingTimewait_plain.tacit.midway
  | synchronized _ hs => exact hs.midway

theorem lapse_tacit : Tacit c (lapse c) := by
  unfold lapse expire
  dsimp only
  split
  · split <;> simp [announces, midway]
  · simp

theorem Resent.tacit {t2 : Word} (h : Resent t2 c c') : Tacit c c' := by
  cases h with
  | timewait | syn | fin | nothing => simp [announces, midway]
  | timewait0 =>
    dsimp only
    split <;> simp [announces, midway]

theorem Ticked.tacit (h : Ticked cfg env c c') : Tacit c c' := by
  cases h with
  | stopped | counted => exact adds_refl
  | again _ _ hload =>
    refine lapse_tacit.trans (Adds.trans ?_ (loadOutgoingData_aside hload).tacit)
    simp [rewind]
  | rest => exact lapse_tacit.trans (resend_cases _).tacit

section Application

variable {app : Chanend} {r : Request}

theorem doRead_tacit (h : doRead cfg env app c = some c') : Tacit c c' := by
  unfold doRead at h
  split at h
  · split at h
    · obtain ⟨data, rx, -, rfl⟩ := copyDataForRead_frame h
      simp [announces, midway]
    · obtain rfl := Option.some.inj h
      simp
  all_goals
    obtain rfl := Option.some.inj h
    simp [announces, midway]

theorem doWrite_tacit (h : doWrite cfg env app c = some c') : Tacit c c' := by
  unfold doWrite at h
  split at h
  · split at h
    · obtain ⟨c₂, hcopy, hload⟩ := Option.bind_eq_some_iff.mp h
      exact (copyDataFromWrite_aside hcopy).tacit.trans (loadOutgoingData_aside hload).tacit
    · obtain rfl := Option.some.inj h
      simp
  all_goals
    obtain rfl := Option.some.inj h
    simp [announces, midway]

-- Only a request to open or to close says more.
theorem pipApplicationTCP_adds (h : pipApplicationTCP cfg env app r c = some c') :
    Adds (fun x => ¬ announces x) c.log c'.log := by
  have hnote : Tacit c (c.note (.requested app)) := by simp [announces, midway]
  cases r with
  | accept =>
    obtain rfl := Option.some.inj h
    simp [doAccept, initConnection, announces]
  | connect =>
    obtain rfl := Option.some.inj h
    simp [doConnect, initConnection, announces]
  | close =>
    obtain rfl := Option.some.inj h
    unfold doClose
    split <;> simp [announces]
  | read => exact (hnote.trans (doRead_tacit h)).mono fun _ hx => hx.1
  | write => exact (hnote.trans (doWrite_tacit h)).mono fun _ hx => hx.1

end Application

theorem claim_same (seg : Segment) (c : TcpConnection) :
    ∃ port ip ip', claim seg c = { c with remotePortRev := port, remoteIP := ip, localIP := ip' } := by
  unfold claim
  split
  · exact ⟨_, _, _, rfl⟩
  · exact ⟨_, _, _, rfl⟩

theorem claim_log (seg : Segment) (c : TcpConnection) : (claim seg c).log = c.log := by
  obtain ⟨_, _, _, hsame⟩ := claim_same seg c
  rw [hsame]

-- What is done on a connection is told behind what was.
theorem act_log {a : Act} (h : act cfg env a c = some c') : c.log <+: c'.log := by
  cases a with
  | request app r => exact (pipApplicationTCP_adds h).isPrefix
  | segment seg => exact claim_log seg c ▸ (incoming_cases h).midway.isPrefix
  | timeOut => exact (timeOut_cases h).tacit.isPrefix
  | prepare => exact (loadOutgoingData_aside h).tacit.isPrefix

section Runs

variable {n : Nat} {s s' : Stack n} {C : Env → Act → TcpConnection → Prop}
  {J : TcpConnection → Prop} {P : Stack n → Prop}

theorem timeOuts_kept {env : Fin n → Env} {l : List (Fin n)} (hl : l.Nodup)
    (hput : ∀ (s : Stack n) i env a c', P s → J (s.conns i) → C env a (s.conns i) →
      due a (s.conns i) → act cfg env a (s.conns i) = some c' → P (s.put i c'))
    (hok : ∀ i ∈ l, J (s.conns i) ∧ C (env i) .timeOut (s.conns i)) (hP : P s)
    (h : l.foldlM (fun s i => s.perform cfg (env i) i .timeOut) s = some s') : P s' := by
  induction l generalizing s with
  | nil => exact Option.some.inj h ▸ hP
  | cons j l ih =>
    obtain ⟨hj, hl⟩ := List.nodup_cons.mp hl
    obtain ⟨s₁, hfirst, hrest⟩ := Option.bind_eq_some_iff.mp h
    obtain ⟨c', hc', rfl⟩ := Option.map_eq_some_iff.mp hfirst
    obtain ⟨hJ, hC⟩ := hok j List.mem_cons_self
    refine ih hl (fun i hi => ?_) (hput s j _ _ c' hP hJ hC trivial hc') hrest
    have hne : i ≠ j := fun heq => hj (heq ▸ hi)
    simpa [Stack.put, Function.update_of_ne hne] using hok i (List.mem_cons_of_mem j hi)

-- What holds of the whole stack, when it is kept by what is done on each connection.
theorem Run.whole (h : Run cfg (Each C) s)
    (hall : ∀ {s : Stack n}, Run cfg (Each C) s → ∀ i, J (s.conns i)) (hstart : P (.start n))
    (hput : ∀ (s : Stack n) i env a c', P s → J (s.conns i) → C env a (s.conns i) →
      due a (s.conns i) → act cfg env a (s.conns i) = some c' → P (s.put i c'))
    (hbounced : ∀ (s : Stack n) x, P s → P { s with log := s.log ++ [.bounced x] })
    (hready : ∀ s : Stack n, P s → P { s with outgoingReady := false }) : P s := by
  induction h with
  | start => exact hstart
  | @step s s' e hrun hok hs ih =>
    have hperform : ∀ {i env a}, concerns s e i = some (env, a) →
        s.perform cfg env i a = some s' → P s' := by
      intro i env a hc hp
      obtain ⟨c', hc', rfl⟩ := Option.map_eq_some_iff.mp hp
      exact hput s i env a c' ih (hall hrun i) (hok i env a hc) (due_of_concerns hc) hc'
    cases e with
    | request env app i r => exact hperform (by simp [concerns]) hs
    | segment env seg =>
      simp only [Tcp.step, pipIncomingTCP] at hs
      split at hs
      · next i hi => exact hperform (by simp [concerns, hi]) hs
      · split at hs
        · exact Option.some.inj hs ▸ ih
        · exact Option.some.inj hs ▸ hbounced s _ ih
    | timeOut env =>
      exact timeOuts_kept (List.nodup_finRange n) hput
        (fun i _ => ⟨hall hrun i, hok i (env i) .timeOut rfl⟩) ih hs
    | prepare env =>
      simp only [Tcp.step] at hs
      split at hs
      · simp only [pipOutgoingPrepareTCP] at hs
        split at hs
        · next i hi => exact hperform (by simp [concerns, hi]) hs
        · exact Option.some.inj hs ▸ hready s ih
      · cases hs

end Runs

end Xtcp.Pip.Tcp
