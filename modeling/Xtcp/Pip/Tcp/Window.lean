import Xtcp.Pip.Tcp.Cargo
import Xtcp.Pip.Tcp.Silence

namespace Xtcp.Pip.Tcp
open Serial

variable {cfg : Config} {env : Env} {c c' c₂ : TcpConnection} {seg : Segment} {q : Word}

section Number

-- The number of the first byte that loadOutgoingData sends.
def firstByte (cfg : Config) : Act → TcpConnection → Word
  | .timeOut, c => c.sndNXT - BitVec.ofInt 32 (notAcknowledged cfg c)
  | _, c => c.sndNXT

@[simp] def begins (q : Word) : Note → Prop
  | .sent p => p.data = [] ∨ p.seq = q
  | _ => True

@[simp] abbrev Begins (q : Word) (c c' : TcpConnection) : Prop := Adds (begins q) c.log c'.log

theorem Unladen.begins (h : Unladen c c') : Begins q c c' := by
  refine Adds.mono h fun x hx => ?_
  cases x with
  | sent p => exact Or.inl hx
  | _ => trivial

theorem loadOutgoingData_begins (h : loadOutgoingData cfg env c = some c') :
    Begins c.sndNXT c c' := by
  obtain ⟨data, tx, -, ⟨-, rfl⟩ | ⟨-, -, tx', -, rfl⟩⟩ := loadOutgoingData_frame h
  all_goals
    unfold readyNote
    split <;> simp [header]

theorem takeAck_begins (h : takeAck cfg env seg c = some c') : Begins c.sndNXT c c' := by
  have hcredited : Unladen c (credited seg c) := by simp [credited]
  rcases takeAck_cases h with ⟨-, rfl⟩ | ⟨-, -, c₂, hwrite, hload⟩
  · exact hcredited.begins
  · have hcopied : Unladen c c₂ := hcredited.trans (copyDataFromWrite_bare hwrite).unladen
    have hnxt : c₂.sndNXT = c.sndNXT := by
      obtain ⟨tx, -, rfl⟩ := copyDataFromWrite_frame hwrite
      rfl
    have hload := loadOutgoingData_begins hload
    rw [hnxt] at hload
    exact hcopied.begins.trans hload

theorem Acked.begins (h : Acked cfg env seg c c') : Begins c.sndNXT c c' :=
  h.adds (fun x hx => by cases x <;> simp_all [plain]) takeAck_begins
    fun hdata => (incomingData_unladen hdata).begins

theorem Synchronized.begins (h : Synchronized cfg env seg c c') : Begins c.sndNXT c c' := by
  cases h with
  | outOfOrder | refused => simp
  | reset => exact incomingRST_plain.bare.unladen.begins
  | restart => exact incomingSYN_plain.bare.unladen.begins
  | silent => exact adds_refl
  | opened _ _ _ ha =>
    have hacked := ha.begins
    rw [establish_sndNXT] at hacked
    exact (establish_bare (c := offered seg c)).unladen.begins.trans hacked
  | acked _ _ ha => exact ha.begins

theorem Arrival.begins (h : Arrival cfg env seg c c') : Begins c.sndNXT c c' := by
  cases h with
  | closed => exact adds_refl
  | listen => exact incomingListen_bare.unladen.begins
  | synsent _ hg => exact hg.bare.unladen.begins
  | timewait => exact incomingTimewait_plain.bare.unladen.begins
  | synchronized _ hs => exact hs.begins

theorem lapse_sndNXT : (lapse c).sndNXT = c.sndNXT := by
  unfold lapse expire
  dsimp only
  split
  · split <;> rfl
  · rfl

theorem Ticked.begins (h : Ticked cfg env c c') : Begins (firstByte cfg .timeOut c) c c' := by
  have hlapse : notAcknowledged cfg (lapse c) = notAcknowledged cfg c := by
    simp [notAcknowledged]
  cases h with
  | stopped | counted => exact adds_refl
  | again _ _ hload =>
    rw [hlapse] at hload
    have hbefore : Unladen c (rewind cfg (notAcknowledged cfg c) (lapse c)) :=
      lapse_bare.unladen.trans (by simp [rewind])
    have hnxt : (rewind cfg (notAcknowledged cfg c) (lapse c)).sndNXT =
        firstByte cfg .timeOut c := by simp [rewind, firstByte, lapse_sndNXT]
    have hload := loadOutgoingData_begins hload
    rw [hnxt] at hload
    exact hbefore.begins.trans hload
  | rest =>
    have hrest : Unladen (lapse c) (resend (c.timeouts + 1) (lapse c)) :=
      (resend_cases _).bare.unladen
    exact lapse_bare.unladen.begins.trans hrest.begins

theorem doWrite_begins {app : Chanend} (h : doWrite cfg env app c = some c') :
    Begins c.sndNXT c c' := by
  unfold doWrite at h
  split at h
  · split at h
    · obtain ⟨c₂, hcopy, hload⟩ := Option.bind_eq_some_iff.mp h
      have hnxt : c₂.sndNXT = c.sndNXT := by
        obtain ⟨tx, -, rfl⟩ := copyDataFromWrite_frame hcopy
        rfl
      have hload := loadOutgoingData_begins hload
      rw [hnxt] at hload
      exact (copyDataFromWrite_bare hcopy).unladen.begins.trans hload
    · obtain rfl := Option.some.inj h
      simp
  all_goals
    obtain rfl := Option.some.inj h
    simp

theorem act_begins {a : Act} (h : act cfg env a c = some c') :
    Begins (firstByte cfg a c) c c' := by
  cases a with
  | request app r =>
    have hnote : Unladen c (c.note (.requested app)) := by simp
    cases r with
    | accept =>
      obtain rfl := Option.some.inj h
      simp [doAccept, initConnection]
    | connect =>
      obtain rfl := Option.some.inj h
      simp [doConnect, initConnection]
    | close =>
      obtain rfl := Option.some.inj h
      exact hnote.begins.trans doClose_bare.unladen.begins
    | read => exact hnote.begins.trans (doRead_bare h).unladen.begins
    | write => exact hnote.begins.trans (doWrite_begins h)
  | segment seg =>
    have hbegins := (incoming_cases h).begins
    obtain ⟨port, ip, ip', hclaim⟩ := claim_same seg c
    rw [hclaim] at hbegins
    exact hbegins
  | timeOut => exact (timeOut_cases h).begins
  | prepare => exact loadOutgoingData_begins h

end Number

section Edge

-- The acknowledgement number of the segment is taken, and its window with it. In LASTACK only the
-- window is.
def accepted (seg : Segment) (c : TcpConnection) : Prop :=
  (c.state = .synsent ∧ seg.flags.syn = true ∧ seg.flags.rst = false ∧ seg.flags.ack = true ∧
    outside c.sndUNA c.sndNXT seg.ack = false) ∨
  (synchronized c.state ∧ seg.seq = c.rcvNXT ∧ seg.flags.rst = false ∧ seg.flags.syn = false ∧
    seg.flags.ack = true ∧ (c.state = .synrcvd → outside c.sndUNA c.sndNXT seg.ack = false) ∧
    outside (oldest c) c.sndNXT seg.ack = false)

instance (seg : Segment) (c : TcpConnection) : Decidable (accepted seg c) :=
  inferInstanceAs (Decidable (_ ∨ _))

-- The acknowledgement number and the window of the last segment that has been accepted.
def edgeAfter : Act → TcpConnection → Option Word → Option Word
  | .request _ .accept, _, _ | .request _ (.connect _ _ _), _, _ => none
  | .segment seg, c, edge =>
      if accepted seg c then some (seg.ack + seg.window.setWidth 32) else edge
  | _, _, edge => edge

-- What is done on a connection at one time. edge: where the window of the peer ends then.
structure Moment where
  env : Env
  act : Act
  before : TcpConnection
  after : TcpConnection
  edge : Option Word

@[simp] def within (edge : Option Word) : Note → Prop
  | .sent p => ∀ limit ∈ edge, ∀ k < p.data.length, after limit (p.seq + BitVec.ofNat 32 k) = true
  | _ => True

instance (edge : Option Word) (x : Note) : Decidable (within edge x) :=
  match edge, x with
  | some limit, .sent p =>
      decidable_of_iff (∀ k < p.data.length, after limit (p.seq + BitVec.ofNat 32 k) = true)
        (by simp)
  | none, .sent _ => isTrue nofun
  | _, .opened | _, .requested _ | _, .iss _ | _, .irs _ | _, .acked _ | _, .entered _
  | _, .bounced _ | _, .token _ _ _ | _, .accepted _ | _, .stored _ _ | _, .returned _
  | _, .finished _ | _, .ready => isTrue trivial

-- No byte goes beyond the window, and none that is to be sent is held back for it.
structure KeepsWindow (cfg : Config) (m : Moment) : Prop where
  inside : ∀ x ∈ fresh m.before m.after, within m.edge x
  whole : ∀ L, Loads m.before cfg m.env m.act L → 0 < L →
    ∃ p, .sent p ∈ fresh m.before m.after ∧ p.data.length = L.toNat

-- All that is in the queue has room in the window.
def Fits (cfg : Config) (m : Moment) : Prop :=
  ∀ limit ∈ m.edge, ∀ L, Loads m.before cfg m.env m.act L → 0 < L →
    L ≤ (limit - firstByte cfg m.act m.before).toInt

variable {m : Moment}

theorem moment_whole (h : act cfg m.env m.act m.before = some m.after) {L : Int}
    (hL : Loads m.before cfg m.env m.act L) (hpos : 0 < L) :
    ∃ p, .sent p ∈ fresh m.before m.after ∧ p.data.length = L.toNat := by
  rcases act_moves h with ⟨L', hL', new, hlog, hnew⟩ | ⟨hnone, -⟩
  · obtain rfl := hL.unique hL'
    rw [fresh_eq hlog]
    exact (hnew L.toNat (by omega)).mpr rfl
  · exact absurd hL (hnone L)

theorem keepsWindow_iff (h : act cfg m.env m.act m.before = some m.after) :
    KeepsWindow cfg m ↔ Fits cfg m := by
  have hbegins := (act_begins h).fresh
  constructor
  · intro hkeeps limit hlimit L hL hpos
    obtain ⟨p, hp, hlength⟩ := hkeeps.whole L hL hpos
    have hseq : p.seq = firstByte cfg m.act m.before := by
      refine (hbegins _ hp).resolve_left fun hnil => ?_
      rw [hnil, List.length_nil] at hlength
      omega
    have hroom := forall_after_iff.mp (hkeeps.inside _ hp limit hlimit)
    rw [hseq, hlength] at hroom
    omega
  · intro hfits
    refine ⟨fun x hx => ?_, fun L hL hpos => moment_whole h hL hpos⟩
    cases x with
    | sent p =>
      intro limit hlimit
      rw [forall_after_iff]
      rcases Nat.eq_zero_or_pos p.data.length with hzero | hpos
      · exact Or.inl hzero
      · have hseq : p.seq = firstByte cfg m.act m.before :=
          (hbegins _ hx).resolve_left (List.ne_nil_of_length_pos hpos)
        have hall : ∀ L, Loads m.before cfg m.env m.act L → (L.toNat : Int) = 0 ∨
            (L.toNat : Int) ≤ (limit - firstByte cfg m.act m.before).toInt := by
          intro L hL
          have hroom := hfits limit hlimit L hL
          omega
        have hlength := (act_cargo (Q := fun k => (k : Int) = 0 ∨ (k : Int) ≤ _) (Or.inl rfl)
          h).mpr hall p hx
        rw [hseq]
        omega
    | _ => trivial

end Edge

section Watch

variable {n : Nat} {s s' : Stack n}

structure Watch (n : Nat) where
  stack : Stack n
  edge : Fin n → Option Word
  moments : Fin n → List Moment

def Watch.start (n : Nat) : Watch n := ⟨.start n, fun _ => none, fun _ => []⟩

def Watch.next (w : Watch n) (e : Event n) (s' : Stack n) : Watch n where
  stack := s'
  edge i := match concerns w.stack e i with
    | none => w.edge i
    | some (_, a) => edgeAfter a (w.stack.conns i) (w.edge i)
  moments i := match concerns w.stack e i with
    | none => w.moments i
    | some (env, a) => w.moments i ++ [⟨env, a, w.stack.conns i, s'.conns i,
        edgeAfter a (w.stack.conns i) (w.edge i)⟩]

-- A run, with all that is done on each connection.
inductive Watched (cfg : Config) : Watch n → Prop where
  | start : Watched cfg (.start n)
  | step {w : Watch n} {s' : Stack n} (e : Event n) :
      Watched cfg w → step cfg w.stack e = some s' → Watched cfg (w.next e s')

variable {w : Watch n}

theorem watched_of_run {ok : Stack n → Event n → Prop} (h : Run cfg ok s) :
    ∃ w, Watched cfg w ∧ w.stack = s := by
  induction h with
  | start => exact ⟨_, .start, rfl⟩
  | step e _ _ hs ih =>
    obtain ⟨w, hw, rfl⟩ := ih
    exact ⟨_, hw.step e hs, rfl⟩

theorem Watched.acts (h : Watched cfg w) (i : Fin n) :
    ∀ m ∈ w.moments i, act cfg m.env m.act m.before = some m.after := by
  induction h with
  | start => exact fun m hm => absurd hm List.not_mem_nil
  | @step w s' e _ hs ih =>
    have hevolves := step_evolves hs i
    intro m hm
    unfold Watch.next at hm
    dsimp only at hm
    cases hc : concerns w.stack e i with
    | none =>
      rw [hc] at hm
      exact ih m hm
    | some x =>
      rw [hc] at hm hevolves
      rcases List.mem_append.mp hm with hm | hm
      · exact ih m hm
      · rw [List.mem_singleton.mp hm]
        exact hevolves

def Watch.play (cfg : Config) : List (Event n) → Watch n → Option (Watch n)
  | [], w => some w
  | e :: es, w => (Tcp.step cfg w.stack e).bind fun s' => Watch.play cfg es (w.next e s')

theorem Watched.play {es : List (Event n)} {w' : Watch n} (h : Watched cfg w)
    (hplay : w.play cfg es = some w') : Watched cfg w' := by
  induction es generalizing w with
  | nil => exact Option.some.inj hplay ▸ h
  | cons e es ih =>
    obtain ⟨s', hs, hrest⟩ := Option.bind_eq_some_iff.mp hplay
    exact ih (h.step e hs) hrest

theorem exists_watched (cfg : Config) (P : Watch n → Prop) [DecidablePred P] (es : List (Event n))
    (h : ((Watch.start n).play cfg es).any (fun w => decide (P w)) = true) :
    ∃ w, Watched cfg w ∧ P w := by
  obtain ⟨w, hw, hP⟩ := (Option.any_eq_true _ _).mp h
  exact ⟨w, Watched.start.play hw, of_decide_eq_true hP⟩

-- A connection is opened, with an acknowledgement that advertises this window, and written to.
def written (i : Fin n) (window : BitVec 16) : List (Event n) :=
  [.request (during 100 3) 5 i .accept,
    .segment (during 100 3) (packet 1000 0 { syn := true } []),
    .segment (during 100 3) { packet 1001 101 { ack := true } [] with window := window },
    .request (during 100 3) 5 i .write]

end Watch

end Xtcp.Pip.Tcp
