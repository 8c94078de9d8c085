import Xtcp.Pip.Tcp.Payload

namespace Xtcp.Pip.Tcp

open Xtcp.Segment Serial

section Loads

variable (seg : Segment) (c : TcpConnection)

-- sndUNA when incomingAck is reached.
def oldest : Word := if c.state = .synrcvd then c.sndUNA + 1 else c.sndUNA

def extraBytes : Int := (seg.ack - oldest c).toInt

-- All that was sent is acknowledged, and a writer waits for it.
structure Unblocks : Prop where
  synchronized : c.state = .synrcvd ∨ c.state = .estab ∨ c.state = .finwait1 ∨
    c.state = .finwait2 ∨ c.state = .closewait ∨ c.state = .closing
  order : InOrder seg c
  handshake : c.state = .synrcvd → outside c.sndUNA c.sndNXT seg.ack = false
  range : outside (oldest c) c.sndNXT seg.ack = false
  writer : c.appStatus = .writing
  free : int (c.tx.free + extraBytes seg c) = extraBytes seg c

variable (cfg : Config) (env : Env)

-- What is in the queue when loadOutgoingData comes to it.
inductive Loads : Act → Int → Prop where
  | write {app : Chanend} (hst : c.state = .estab) (hfree : c.tx.free ≠ 0) :
      Loads (.request app .write) (int (c.tx.length + min env.answer.count c.tx.free))
  | segment {seg : Segment} (h : Unblocks seg c) :
      Loads (.segment seg) (int (c.tx.length + min env.answer.count (extraBytes seg c)))
  | timeOut (hf : fires c) (hn : 0 < notAcknowledged cfg c) :
      Loads .timeOut (int (c.tx.length + notAcknowledged cfg c))
  | prepare : Loads .prepare c.tx.length

end Loads

variable {cfg : Config} {env : Env} {c c' c₂ : TcpConnection} {seg : Segment}

theorem Loads.unique {a : Act} {L L' : Int} (h : Loads c cfg env a L) (h' : Loads c cfg env a L') :
    L = L' := by
  cases h <;> cases h' <;> rfl

@[simp] def unladen : Note → Prop
  | .sent p => p.data = []
  | _ => True

@[simp] abbrev Unladen (c c' : TcpConnection) : Prop := Adds unladen c.log c'.log

theorem Bare.unladen (h : Bare c c') : Unladen c c' := by
  refine Adds.mono h fun x hx => ?_
  cases x with
  | sent p => exact hx
  | _ => trivial

-- Among what is told, one segment has k bytes, or none has any and k is 0.
def Bears (k : Nat) (log log' : List Note) : Prop :=
  ∃ new, log' = log ++ new ∧ ∀ j, 0 < j → ((∃ p, .sent p ∈ new ∧ p.data.length = j) ↔ k = j)

theorem Adds.bears {log log' : List Note} (h : Adds unladen log log') : Bears 0 log log' := by
  obtain ⟨new, hlog, hnew⟩ := h
  refine ⟨new, hlog, fun j hj => ⟨?_, fun hzero => (Nat.ne_of_lt hj hzero).elim⟩⟩
  rintro ⟨p, hp, rfl⟩
  have hdata : p.data = [] := hnew _ hp
  simp [hdata] at hj

theorem Bears.trans {k k' : Nat} {log log₂ log' : List Note} (h : Bears k log log₂)
    (h' : Bears k' log₂ log') (hone : k = 0 ∨ k' = 0) : Bears (k + k') log log' := by
  obtain ⟨new, rfl, hnew⟩ := h
  obtain ⟨new', rfl, hnew'⟩ := h'
  refine ⟨new ++ new', List.append_assoc _ _ _, fun j hj => ?_⟩
  have hsplit : (∃ p, .sent p ∈ new ++ new' ∧ p.data.length = j) ↔ k = j ∨ k' = j := by
    rw [← hnew j hj, ← hnew' j hj]
    simp only [List.mem_append, or_and_right, exists_or]
  rw [hsplit]
  rcases hone with rfl | rfl
  · rw [Nat.zero_add]
    exact ⟨fun h => h.resolve_left (Nat.ne_of_lt hj), Or.inr⟩
  · rw [Nat.add_zero]
    exact ⟨fun h => h.resolve_right (Nat.ne_of_lt hj), Or.inl⟩

theorem Unladen.bears_left {k : Nat} (h : Unladen c c₂) (hk : Bears k c₂.log c'.log) :
    Bears k c.log c'.log := by
  have htrans := h.bears.trans hk (Or.inl rfl)
  rwa [Nat.zero_add] at htrans

theorem Bears.unladen {k : Nat} (hk : Bears k c.log c₂.log) (h : Unladen c₂ c') :
    Bears k c.log c'.log :=
  hk.trans h.bears (Or.inr rfl)

theorem Xqueue.takeAll_length {size n : Nat} {q q' : Xqueue} {data : List UInt8}
    (h : q.takeAll cfg size n = some (data, q')) : data.length = n := by
  induction n generalizing q data with
  | zero =>
    obtain ⟨rfl, -⟩ := Prod.mk.inj (Option.some.inj h)
    rfl
  | succ n ih =>
    unfold Xqueue.takeAll at h
    split at h
    · obtain ⟨r, hr, heq⟩ := Option.map_eq_some_iff.mp h
      obtain ⟨rfl, rfl⟩ := Prod.mk.inj heq
      rw [List.length_cons, ih hr]
    · cases h

theorem bears_sent (p : Sent) (log : List Note) :
    Bears p.data.length log (log ++ [.sent p]) := by
  refine ⟨[.sent p], rfl, fun j _ => ⟨?_, fun hj => ⟨p, List.mem_singleton_self _, hj⟩⟩⟩
  rintro ⟨q, hq, rfl⟩
  obtain rfl : q = p := by simpa using hq
  rfl

theorem loadOutgoingData_bears (h : loadOutgoingData cfg env c = some c') :
    Bears c.tx.length.toNat c.log c'.log := by
  obtain ⟨data, tx, htx, hcases⟩ := loadOutgoingData_frame h
  obtain ⟨new, hlog, hnew⟩ : ∃ new, c'.log =
      c.log ++ new ++ [.sent (header data { psh := true, ack := true } c)] ∧
      ∀ x ∈ new, unladen x := by
    have hready : ∀ x ∈ readyNote c, unladen x := by
      unfold readyNote
      split <;> simp
    obtain ⟨-, rfl⟩ | ⟨-, -, tx', -, rfl⟩ := hcases
    · exact ⟨readyNote c, by simp, hready⟩
    · refine ⟨readyNote c ++ [.token c.appWaiting .writing .ack,
        .accepted (slice env.answer.data 0 (taken env tx).toNat)], by simp, fun x hx => ?_⟩
      rcases List.mem_append.mp hx with hx | hx
      · exact hready x hx
      · rcases List.mem_pair.mp hx with rfl | rfl <;> trivial
  have hbefore : Bears 0 c.log (c.log ++ new) := (adds_append.mpr hnew).bears
  have hsent := hbefore.trans (bears_sent (header data { psh := true, ack := true } c) _)
    (Or.inl rfl)
  rwa [header_data, Xqueue.takeAll_length htx, Nat.zero_add, ← hlog] at hsent

theorem Xqueue.putAll_length {size : Nat} {bs : List UInt8} {q q' : Xqueue}
    (h : q.putAll cfg size bs = some q') : q'.length = q.length := by
  induction bs generalizing q with
  | nil => rw [← Option.some.inj h]
  | cons b bs ih =>
    obtain ⟨q₁, hput, hrest⟩ := Option.bind_eq_some_iff.mp h
    rw [ih hrest]
    unfold Xqueue.put at hput
    split at hput
    · rw [← Option.some.inj hput]
    · cases hput

theorem copyDataFromWrite_bare {app : Option Chanend}
    (h : copyDataFromWrite cfg env app c = some c') : Bare c c' := by
  obtain ⟨tx, -, rfl⟩ := copyDataFromWrite_frame h
  simp

theorem incomingData_unladen {b : Bool} (h : incomingData cfg env seg c = some (b, c')) :
    Unladen c c' := by
  unfold incomingData at h
  split at h
  · obtain ⟨⟨b', c₂⟩, hstore, heq⟩ := Option.map_eq_some_iff.mp h
    obtain ⟨-, rfl⟩ := Prod.mk.inj heq
    obtain ⟨i, rx, -, -, ⟨-, rfl⟩ | ⟨-, -, data, rx', -, rfl⟩⟩ := storeIncomingData_frame hstore
    · simp [unladen]
    · simp [unladen]
  · obtain ⟨-, rfl⟩ := Prod.mk.inj (Option.some.inj h)
    exact adds_refl

-- L is what one segment bears when P holds, and none bears any when it does not.
def Moves (P : Prop) (L : Int) (c c' : TcpConnection) : Prop :=
  P ∧ Bears L.toNat c.log c'.log ∨ ¬P ∧ Unladen c c'

theorem Moves.unladen {P : Prop} {L : Int} (h : Moves P L c c₂) (hrest : Unladen c₂ c') :
    Moves P L c c' :=
  h.imp (fun h => ⟨h.1, h.2.unladen hrest⟩) (fun h => ⟨h.1, Adds.trans h.2 hrest⟩)

-- A writer waits for the bytes that takeAck sees acknowledged.
structure Awaits (seg : Segment) (c : TcpConnection) : Prop where
  free : (credited seg c).tx.free = (seg.ack - c.sndUNA).toInt
  writer : c.appStatus = .writing

theorem takeAck_moves (h : takeAck cfg env seg c = some c') :
    Moves (Awaits seg c) (int (c.tx.length + min env.answer.count (seg.ack - c.sndUNA).toInt))
      c c' := by
  rcases takeAck_cases h with ⟨hnot, rfl⟩ | ⟨hfree, hwriter, c₂, hwrite, hload⟩
  · refine Or.inr ⟨fun hawaits => ?_, by simp [credited]⟩
    rcases hnot with hne | hne
    · exact hne hawaits.free
    · exact hne hawaits.writer
  · refine Or.inl ⟨⟨hfree, hwriter⟩, ?_⟩
    have hbefore : Bare c (credited seg c) := by simp [credited]
    have hcopied : Bare c c₂ := hbefore.trans (copyDataFromWrite_bare hwrite)
    have hlength : c₂.tx.length =
        int (c.tx.length + min env.answer.count (seg.ack - c.sndUNA).toInt) := by
      rw [← hfree]
      obtain ⟨tx, htx, rfl⟩ := copyDataFromWrite_frame hwrite
      exact Xqueue.putAll_length htx
    rw [← hlength]
    have hbears := loadOutgoingData_bears hload
    exact hcopied.unladen.bears_left hbears

theorem Acked.moves (h : Acked cfg env seg c c') :
    Moves (InWindow seg c ∧ Awaits seg c)
      (int (c.tx.length + min env.answer.count (seg.ack - c.sndUNA).toInt)) c c' := by
  have hafter {c₂ : TcpConnection} (hw : InWindow seg c) (htake : takeAck cfg env seg c = some c₂)
      (hrest : Unladen c₂ c') : Moves (InWindow seg c ∧ Awaits seg c)
        (int (c.tx.length + min env.answer.count (seg.ack - c.sndUNA).toInt)) c c' := by
    have hmoves := (takeAck_moves htake).unladen hrest
    rwa [← and_iff_right (b := Awaits seg c) hw] at hmoves
  cases h with
  | lastAck hst => exact Or.inr ⟨fun h => h.1.state hst, incomingLastAck_plain.bare.unladen⟩
  | duplicate hst ha =>
    exact Or.inr ⟨fun h => by simpa [outside, ha] using h.1.range, adds_refl⟩
  | beyond hst ha hb =>
    exact Or.inr ⟨fun h => by simpa [outside, hb] using h.1.range, by simp⟩
  | finwait2 hw htake => exact hafter hw htake (by simp)
  | timewait hw htake =>
    refine hafter hw htake ?_
    split <;> simp
  | data hw htake _ _ hdata =>
    refine hafter hw htake ((incomingData_unladen hdata).trans ?_)
    split
    · exact incomingFIN_plain.bare.unladen
    · exact adds_refl

theorem establish_writing : (establish c).appStatus = .writing ↔ c.appStatus = .writing := by
  unfold establish
  dsimp only
  split
  next h => simp_all
  next => simp

@[simp] theorem establish_tx : (establish c).tx = c.tx := by
  unfold establish
  dsimp only
  split <;> rfl

-- The connection with which a segment comes to incomingAck.
structure Joins (c c₂ : TcpConnection) : Prop where
  state : c.state = .synrcvd ∧ c₂.state = .estab ∨ c.state ≠ .synrcvd ∧ c₂.state = c.state
  sndUNA : c₂.sndUNA = oldest c
  sndNXT : c₂.sndNXT = c.sndNXT
  writing : c₂.appStatus = .writing ↔ c.appStatus = .writing
  tx : c₂.tx = c.tx

theorem Joins.unblocks_iff (h : Joins c c₂)
    (hsync : c.state = .synrcvd ∨ c.state = .estab ∨ c.state = .finwait1 ∨
      c.state = .finwait2 ∨ c.state = .closewait ∨ c.state = .closing ∨ c.state = .lastack)
    (horder : InOrder seg c)
    (hhand : c.state = .synrcvd → outside c.sndUNA c.sndNXT seg.ack = false) :
    InWindow seg c₂ ∧ Awaits seg c₂ ↔ Unblocks seg c := by
  have hextra : (seg.ack - c₂.sndUNA).toInt = extraBytes seg c := by
    rw [h.sndUNA]
    rfl
  have hfree : (credited seg c₂).tx.free = int (c.tx.free + extraBytes seg c) := by
    rw [← hextra, ← h.tx]
    rfl
  constructor
  · rintro ⟨hwindow, hawaits⟩
    refine ⟨?_, horder, hhand, ?_, h.writing.mp hawaits.writer, ?_⟩
    · have hlast := hwindow.state
      rcases h.state with ⟨hst, -⟩ | ⟨hst, heq⟩
      · exact Or.inl hst
      · rw [heq] at hlast
        tauto
    · rw [← h.sndUNA, ← h.sndNXT]
      exact hwindow.range
    · rw [← hfree, ← hextra]
      exact hawaits.free
  · intro hu
    refine ⟨⟨?_, ?_⟩, ⟨by rw [hfree, hextra, hu.free], h.writing.mpr hu.writer⟩⟩
    · rcases h.state with ⟨-, hst⟩ | ⟨-, heq⟩
      · simp [hst]
      · rw [heq]
        rcases hu.synchronized with hst | hst | hst | hst | hst | hst <;> simp [hst]
    · rw [h.sndUNA, h.sndNXT]
      exact hu.range

theorem Synchronized.moves (h : Synchronized cfg env seg c c')
    (hsync : c.state = .synrcvd ∨ c.state = .estab ∨ c.state = .finwait1 ∨
      c.state = .finwait2 ∨ c.state = .closewait ∨ c.state = .closing ∨ c.state = .lastack) :
    Moves (Unblocks seg c)
      (int (c.tx.length + min env.answer.count (extraBytes seg c))) c c' := by
  have hjoined (c₂ : TcpConnection) (hj : Joins c c₂) (horder : InOrder seg c)
      (hhand : c.state = .synrcvd → outside c.sndUNA c.sndNXT seg.ack = false)
      (hlog : Unladen c c₂) (ha : Acked cfg env seg c₂ c') : Moves (Unblocks seg c)
        (int (c.tx.length + min env.answer.count (extraBytes seg c))) c c' := by
    have hmoves := ha.moves
    rw [hj.unblocks_iff hsync horder hhand, hj.sndUNA, hj.tx] at hmoves
    exact hmoves.imp (fun h => ⟨h.1, hlog.bears_left h.2⟩) (fun h => ⟨h.1, hlog.trans h.2⟩)
  cases h with
  | outOfOrder hseq => exact Or.inr ⟨fun h => hseq h.order.seq, by simp⟩
  | reset _ hr =>
    exact Or.inr ⟨fun h => by simpa [hr] using h.order.rst, incomingRST_plain.bare.unladen⟩
  | restart _ _ hs =>
    exact Or.inr ⟨fun h => by simpa [hs] using h.order.syn, incomingSYN_plain.bare.unladen⟩
  | silent _ _ _ ha => exact Or.inr ⟨fun h => by simpa [ha] using h.order.ack, adds_refl⟩
  | refused _ hst ho =>
    exact Or.inr ⟨fun h => by simpa [ho] using h.handshake hst, by simp⟩
  | opened horder hst ho ha =>
    refine hjoined (establish (offered seg c)) ⟨Or.inl ⟨hst, establish_state⟩, ?_, ?_,
      establish_writing, establish_tx⟩ horder (fun _ => ho)
      (establish_bare (c := offered seg c)).unladen ha
    · simp [oldest, hst]
    · simp
  | acked horder hst ha =>
    refine hjoined (offered seg c) ⟨Or.inr ⟨hst, rfl⟩, ?_, rfl, Iff.rfl, rfl⟩ horder
      (fun h => absurd h hst) adds_refl ha
    simp [oldest, hst]

theorem Arrival.moves (h : Arrival cfg env seg c c') : Moves (Unblocks seg c)
    (int (c.tx.length + min env.answer.count (extraBytes seg c))) c c' := by
  cases h with
  | closed hst => exact Or.inr ⟨fun h => by simpa [hst] using h.synchronized, adds_refl⟩
  | listen hst =>
    exact Or.inr ⟨fun h => by simpa [hst] using h.synchronized, incomingListen_bare.unladen⟩
  | synsent hst hg =>
    exact Or.inr ⟨fun h => by simpa [hst] using h.synchronized, hg.bare.unladen⟩
  | timewait hst =>
    refine Or.inr ⟨fun h => ?_, incomingTimewait_plain.bare.unladen⟩
    rcases hst with hst | hst <;> simpa [hst] using h.synchronized
  | synchronized hst hs => exact hs.moves hst

theorem lapse_bare : Bare c (lapse c) := by
  unfold lapse expire
  dsimp only
  split
  · split <;> simp
  · simp

@[simp] theorem lapse_tx : (lapse c).tx = c.tx := by
  unfold lapse expire
  dsimp only
  split
  · split <;> rfl
  · rfl

theorem Resent.bare {t2 : Word} (h : Resent t2 c c') : Bare c c' := by
  cases h with
  | timewait | syn | fin | nothing => simp
  | timewait0 =>
    dsimp only
    split <;> simp

theorem Ticked.moves (h : Ticked cfg env c c') :
    Moves (fires c ∧ 0 < notAcknowledged cfg c) (int (c.tx.length + notAcknowledged cfg c))
      c c' := by
  have hlapse : notAcknowledged cfg (lapse c) = notAcknowledged cfg c := by
    simp [notAcknowledged]
  cases h with
  | stopped hzero => exact Or.inr ⟨fun h => h.1.1 hzero, adds_refl⟩
  | counted _ hf => exact Or.inr ⟨fun h => hf h.1, adds_refl⟩
  | again hf hn hload =>
    rw [hlapse] at hn hload
    refine Or.inl ⟨⟨hf, hn⟩, ?_⟩
    have hbears := loadOutgoingData_bears hload
    have hbefore : Unladen c (rewind cfg (notAcknowledged cfg c) (lapse c)) :=
      lapse_bare.unladen.trans (by simp [rewind])
    have hlength : (rewind cfg (notAcknowledged cfg c) (lapse c)).tx.length =
        int (c.tx.length + notAcknowledged cfg c) := by simp [rewind]
    rw [hlength] at hbears
    exact hbefore.bears_left hbears
  | rest _ hn =>
    rw [hlapse] at hn
    exact Or.inr ⟨fun h => hn h.2,
      lapse_bare.unladen.trans (resend_cases _).bare.unladen⟩

section Application

variable {app : Chanend} {r : Request}

theorem doRead_bare (h : doRead cfg env app c = some c') : Bare c c' := by
  unfold doRead at h
  split at h
  · split at h
    · obtain ⟨data, rx, -, rfl⟩ := copyDataForRead_frame h
      simp
    · obtain rfl := Option.some.inj h
      simp
  all_goals
    obtain rfl := Option.some.inj h
    simp

theorem doClose_bare : Bare c (doClose app c) := by
  unfold doClose
  split <;> simp

theorem doWrite_moves (h : doWrite cfg env app c = some c') :
    Moves (c.state = .estab ∧ c.tx.free ≠ 0)
      (int (c.tx.length + min env.answer.count c.tx.free)) c c' := by
  unfold doWrite at h
  split at h
  next hst =>
    split at h
    next hfree =>
      obtain ⟨c₂, hcopy, hload⟩ := Option.bind_eq_some_iff.mp h
      have hbears := loadOutgoingData_bears hload
      have hlength : c₂.tx.length = int (c.tx.length + min env.answer.count c.tx.free) := by
        obtain ⟨tx, htx, rfl⟩ := copyDataFromWrite_frame hcopy
        exact Xqueue.putAll_length htx
      rw [hlength] at hbears
      exact Or.inl ⟨⟨hst, hfree⟩, (copyDataFromWrite_bare hcopy).unladen.bears_left hbears⟩
    next hfree =>
      obtain rfl := Option.some.inj h
      exact Or.inr ⟨fun h => hfree h.2, by simp⟩
  next hst =>
    obtain rfl := Option.some.inj h
    exact Or.inr ⟨fun h => by simp [hst] at h, by simp⟩
  next hne _ =>
    obtain rfl := Option.some.inj h
    exact Or.inr ⟨fun h => hne h.1, by simp⟩

end Application

theorem not_loads {app : Chanend} {r : Request} (h : r ≠ .write) (L : Int) :
    ¬Loads c cfg env (.request app r) L := by
  intro hL
  cases hL
  exact h rfl

theorem act_moves {a : Act} (h : act cfg env a c = some c') :
    (∃ L, Loads c cfg env a L ∧ Bears L.toNat c.log c'.log) ∨
      (∀ L, ¬Loads c cfg env a L) ∧ Unladen c c' := by
  cases a with
  | request app r =>
    have hnote : Bare c (c.note (.requested app)) := by simp
    cases r with
    | accept =>
      obtain rfl := Option.some.inj h
      exact Or.inr ⟨not_loads (by simp), by simp [doAccept, initConnection]⟩
    | connect =>
      obtain rfl := Option.some.inj h
      exact Or.inr ⟨not_loads (by simp), by simp [doConnect, initConnection]⟩
    | close =>
      obtain rfl := Option.some.inj h
      exact Or.inr ⟨not_loads (by simp), hnote.unladen.trans doClose_bare.unladen⟩
    | read => exact Or.inr ⟨not_loads (by simp), hnote.unladen.trans (doRead_bare h).unladen⟩
    | write =>
      rcases doWrite_moves h with ⟨⟨hst, hfree⟩, hc⟩ | ⟨hnot, hc⟩
      · exact Or.inl ⟨_, .write hst hfree, hnote.unladen.bears_left hc⟩
      · refine Or.inr ⟨fun L hL => ?_, hnote.unladen.trans hc⟩
        cases hL with
        | write hst hfree => exact hnot ⟨hst, hfree⟩
  | segment seg =>
    have hmoves := (incoming_cases h).moves
    obtain ⟨port, ip, ip', hclaim⟩ := claim_same seg c
    rw [hclaim] at hmoves
    rcases hmoves with ⟨hu, hc⟩ | ⟨hnot, hc⟩
    · exact Or.inl ⟨_, .segment ⟨hu.synchronized, ⟨hu.order.seq, hu.order.rst, hu.order.syn,
        hu.order.ack⟩, hu.handshake, hu.range, hu.writer, hu.free⟩, hc⟩
    · refine Or.inr ⟨fun L hL => ?_, hc⟩
      cases hL with
      | segment hu =>
        exact hnot ⟨hu.synchronized, ⟨hu.order.seq, hu.order.rst, hu.order.syn, hu.order.ack⟩,
          hu.handshake, hu.range, hu.writer, hu.free⟩
  | timeOut =>
    rcases (timeOut_cases h).moves with ⟨⟨hf, hn⟩, hc⟩ | ⟨hnot, hc⟩
    · exact Or.inl ⟨_, .timeOut hf hn, hc⟩
    · refine Or.inr ⟨fun L hL => ?_, hc⟩
      cases hL with
      | timeOut hf hn => exact hnot ⟨hf, hn⟩
  | prepare => exact Or.inl ⟨_, .prepare, loadOutgoingData_bears h⟩

-- The data that are sent fill what Loads says.
theorem act_cargo {a : Act} {Q : Nat → Prop} (hzero : Q 0) (h : act cfg env a c = some c') :
    (∀ p, .sent p ∈ fresh c c' → Q p.data.length) ↔ ∀ L, Loads c cfg env a L → Q L.toNat := by
  rcases act_moves h with ⟨L, hL, new, hlog, hnew⟩ | ⟨hnone, new, hlog, hnew⟩
  · rw [fresh_eq hlog]
    constructor
    · intro hall L' hL'
      obtain rfl := hL.unique hL'
      rcases Nat.eq_zero_or_pos L.toNat with hz | hpos
      · rwa [hz]
      · obtain ⟨p, hp, hlength⟩ := (hnew _ hpos).mpr rfl
        rw [← hlength]
        exact hall p hp
    · intro hall p hp
      rcases Nat.eq_zero_or_pos p.data.length with hz | hpos
      · rwa [hz]
      · rw [← (hnew _ hpos).mp ⟨p, hp, rfl⟩]
        exact hall L hL
  · rw [fresh_eq hlog]
    refine ⟨fun _ L hL => absurd hL (hnone L), fun _ p hp => ?_⟩
    have hdata : p.data = [] := hnew _ hp
    rwa [hdata]

section Stack

variable {n : Nat} {s s' s₂ : Stack n}

-- The stack has sent what its connections have.
def Gathers (s s' : Stack n) : Prop :=
  ∃ (new : List Note) (told : Fin n → List Note), s'.log = s.log ++ new ∧
    (∀ i, (s'.conns i).log = (s.conns i).log ++ told i) ∧
    ∀ p, .sent p ∈ new ↔ ∃ i, .sent p ∈ told i

theorem Gathers.refl : Gathers s s :=
  ⟨[], fun _ => [], (List.append_nil _).symm, fun _ => (List.append_nil _).symm, by simp⟩

theorem Gathers.trans (h : Gathers s s₂) (h' : Gathers s₂ s') : Gathers s s' := by
  obtain ⟨new, told, hlog, hconns, hsent⟩ := h
  obtain ⟨new', told', hlog', hconns', hsent'⟩ := h'
  refine ⟨new ++ new', fun i => told i ++ told' i, ?_, fun i => ?_, fun p => ?_⟩
  · rw [hlog', hlog, List.append_assoc]
  · rw [hconns', hconns, List.append_assoc]
  · simp only [List.mem_append, hsent, hsent', exists_or]

theorem perform_gathers {i : Fin n} {a : Act} (h : s.perform cfg env i a = some s') :
    Gathers s s' := by
  obtain ⟨c', hc', rfl⟩ := Option.map_eq_some_iff.mp h
  obtain ⟨new, hnew⟩ := act_log hc'
  have hfresh : fresh (s.conns i) c' = new := fresh_eq hnew.symm
  refine ⟨new, fun j => if j = i then new else [], by simp [Stack.put, hfresh], fun j => ?_,
    fun p => ?_⟩
  · by_cases hj : j = i
    · subst hj
      simp [Stack.put, hnew]
    · simp [Stack.put, hj]
  · constructor
    · exact fun hp => ⟨i, by simpa using hp⟩
    · rintro ⟨j, hj⟩
      by_cases hji : j = i
      · simpa [hji] using hj
      · simp [hji] at hj

theorem step_gathers {e : Event n} (h : step cfg s e = some s') : Gathers s s' := by
  cases e with
  | request env app i r => exact perform_gathers h
  | segment env seg =>
    simp only [step, pipIncomingTCP] at h
    split at h
    · exact perform_gathers h
    · split at h
      · exact Option.some.inj h ▸ .refl
      · rw [← Option.some.inj h]
        refine ⟨[.bounced _], fun _ => [], rfl, fun _ => (List.append_nil _).symm, by simp⟩
  | timeOut env =>
    simp only [step, pipTimeOutTCPTimewait] at h
    generalize List.finRange n = l at h
    induction l generalizing s with
    | nil => exact Option.some.inj h ▸ .refl
    | cons i l ih =>
      obtain ⟨s₁, hfirst, hrest⟩ := Option.bind_eq_some_iff.mp h
      exact (perform_gathers hfirst).trans (ih hrest)
  | prepare env =>
    simp only [step] at h
    split at h
    · simp only [pipOutgoingPrepareTCP] at h
      split at h
      · exact perform_gathers h
      · rw [← Option.some.inj h]
        exact ⟨[], fun _ => [], (List.append_nil _).symm,
          fun _ => (List.append_nil _).symm, by simp⟩
    · cases h

theorem step_cargo {e : Event n} {Q : Nat → Prop} (hzero : Q 0) (h : step cfg s e = some s') :
    (∀ p, .sent p ∈ s'.log.drop s.log.length → Q p.data.length) ↔
      ∀ i, ∀ x ∈ concerns s e i, ∀ L, Loads (s.conns i) cfg x.1 x.2 L → Q L.toNat := by
  obtain ⟨new, told, hlog, hconns, hsent⟩ := step_gathers h
  have hone (i : Fin n) : (∀ p, .sent p ∈ told i → Q p.data.length) ↔
      ∀ x ∈ concerns s e i, ∀ L, Loads (s.conns i) cfg x.1 x.2 L → Q L.toNat := by
    have hevolves := step_evolves h i
    have hfresh : fresh (s.conns i) (s'.conns i) = told i := fresh_eq (hconns i)
    cases hc : concerns s e i with
    | none =>
      rw [hc] at hevolves
      have hsame : s'.conns i = s.conns i := hevolves
      have hnil : told i = [] := by rw [← hfresh, hsame, fresh, List.drop_length]
      simp [hnil]
    | some x =>
      rw [hc] at hevolves
      have hact : act cfg x.1 x.2 (s.conns i) = some (s'.conns i) := hevolves
      rw [← hfresh, act_cargo hzero hact]
      simp
  rw [hlog, List.drop_left]
  constructor
  · exact fun hall i => (hone i).mp fun p hp => hall p ((hsent p).mpr ⟨i, hp⟩)
  · intro hall p hp
    obtain ⟨i, hi⟩ := (hsent p).mp hp
    exact (hone i).mpr (hall i) p hi

end Stack

end Xtcp.Pip.Tcp
