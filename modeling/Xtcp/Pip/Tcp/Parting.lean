import Xtcp.Pip.Tcp.Log

namespace Xtcp.Pip.Tcp
open Xtcp.Segment Serial

-- The number of our FIN, and whether a number beyond it has been acknowledged since.
structure Farewell where
  fin : Option Word := none
  acked : Bool := false

@[simp] def Farewell.tell (f : Farewell) : Note → Farewell
  | .opened => {}
  | .finished n => { fin := some n }
  | .acked m => { f with acked := f.acked || f.fin.any fun n => after m n }
  | _ => f

def farewell (log : List Note) : Farewell := log.foldl Farewell.tell {}

@[simp] theorem farewell_append (log new : List Note) :
    farewell (log ++ new) = new.foldl Farewell.tell (farewell log) := by
  simp [farewell, List.foldl_append]

theorem tell_midway (f : Farewell) {new : List Note} (h : ∀ x ∈ new, midway x) :
    (new.foldl Farewell.tell f).fin = f.fin ∧
      (f.acked = true → (new.foldl Farewell.tell f).acked = true) := by
  induction new generalizing f with
  | nil => exact ⟨rfl, id⟩
  | cons x new ih =>
    have hx := h x List.mem_cons_self
    obtain ⟨hfin, hacked⟩ := ih (f.tell x) fun y hy => h y (List.mem_cons_of_mem x hy)
    rw [List.foldl_cons, hfin]
    cases x with
    | opened | finished => exact hx.elim
    | acked m => exact ⟨rfl, fun hf => hacked (by simp [hf])⟩
    | _ => exact ⟨rfl, hacked⟩

theorem farewell_midway {log log' : List Note} (h : Adds midway log log') :
    (farewell log').fin = (farewell log).fin ∧
      ((farewell log).acked = true → (farewell log').acked = true) := by
  obtain ⟨new, rfl, hnew⟩ := h
  rw [farewell_append]
  exact tell_midway _ hnew

variable {cfg : Config} {env : Env} {c c' c₂ : TcpConnection} {seg : Segment} {fin first : Word}
  {L : Int}

-- What follows a number is still to be sent, or has been sent since.
structure Behind (first : Word) (L : Int) (c : TcpConnection) : Prop where
  length : 0 ≤ c.tx.length ∧ c.tx.length ≤ L ∧ L + 1 < 2 ^ 31
  nxt : c.sndNXT + BitVec.ofInt 32 c.tx.length = first + BitVec.ofInt 32 L
  free : 0 ≤ c.tx.free ∧ c.tx.free + c.tx.length < 2 ^ 31
  appStatus : c.appStatus ≠ .writing

theorem Behind.flushed (h : Behind first L c) (hf : Flushed c c') : Behind first L c' := by
  obtain ⟨h0, hle, hL⟩ := h.length
  obtain ⟨hfree, hsum⟩ := h.free
  refine ⟨?_, ?_, ?_, hf.appStatus ▸ h.appStatus⟩
  · rw [hf.length]
    omega
  · rw [hf.length, hf.nxt, ← h.nxt]
    exact BitVec.add_zero _
  · rw [hf.length, hf.free]
    omega

theorem Behind.nxt_sub (h : Behind first L c) :
    (c.sndNXT - first).toNat = (L - c.tx.length).toNat := by
  obtain ⟨h0, hle, hL⟩ := h.length
  have hnxt : c.sndNXT - first = BitVec.ofInt 32 (L - c.tx.length) := by
    have hnxt := h.nxt
    rw [Int.sub_eq_add_neg, BitVec.ofInt_add, BitVec.ofInt_neg]
    grind
  rw [hnxt, BitVec.toNat_ofInt]
  omega

theorem Behind.still (h : Behind first L c) (htx : c'.tx = c.tx) (hnxt : c'.sndNXT = c.sndNXT)
    (hs : c'.appStatus = .writing → c.appStatus = .writing) : Behind first L c' :=
  ⟨htx ▸ h.length, by rw [htx, hnxt]; exact h.nxt, htx ▸ h.free, fun hw => h.appStatus (hs hw)⟩

-- With this acknowledgement as many bytes are free as when our FIN has been acknowledged too.
def awaited (cfg : Config) (c : TcpConnection) : Word :=
  c.sndUNA + BitVec.ofInt 32 (cfg.bufsizeTx + 1 - c.tx.free)

theorem ofInt_int (x : Int) : BitVec.ofInt 32 (int x) = BitVec.ofInt 32 x := by
  have hint : int x = (BitVec.ofInt 32 x).toInt := (BitVec.toInt_ofInt x).symm
  rw [hint, BitVec.ofInt_toInt]

theorem awaited_credited : awaited cfg (credited seg c) = awaited cfg c := by
  simp only [awaited, credited, TcpConnection.acknowledge, TcpConnection.note,
    TcpConnection.setTx, Int.sub_eq_add_neg, BitVec.ofInt_add, BitVec.ofInt_neg, ofInt_int,
    BitVec.ofInt_toInt]
  grind

structure Leaving (cfg : Config) (fin : Word) (c : TcpConnection) : Prop where
  told : (farewell c.log).fin = some fin
  beyond : after (awaited cfg c) fin = true
  appStatus : c.appStatus ≠ .writing

theorem Leaving.still (h : Leaving cfg fin c) (hlog : Adds midway c.log c'.log)
    (hfree : c'.tx.free = c.tx.free) (huna : c'.sndUNA = c.sndUNA)
    (hs : c'.appStatus = .writing → c.appStatus = .writing) : Leaving cfg fin c' := by
  refine ⟨(farewell_midway hlog).1.trans h.told, ?_, fun hw => h.appStatus (hs hw)⟩
  rw [awaited, hfree, huna]
  exact h.beyond

theorem Leaving.credited (h : Leaving cfg fin c) (seg : Segment) :
    Leaving cfg fin (credited seg c) ∧
      ((Tcp.credited seg c).tx.free = cfg.bufsizeTx + 1 →
        (farewell (Tcp.credited seg c).log).acked = true) := by
  have hsame : awaited cfg (Tcp.credited seg c) = awaited cfg c := awaited_credited
  refine ⟨⟨by simp [Tcp.credited, h.told], hsame ▸ h.beyond, h.appStatus⟩, fun hfree => ?_⟩
  have hack : awaited cfg (Tcp.credited seg c) = seg.ack := by
    rw [awaited, hfree, sub_self]
    exact BitVec.add_zero _
  have hbeyond : after seg.ack fin = true := by
    rw [← hack, hsame]
    exact h.beyond
  simp [Tcp.credited, h.told, hbeyond]

-- The data of the segment is stored, all of it.
def stores (cfg : Config) (seg : Segment) (c : TcpConnection) : Prop :=
  seg.length = 0 ∨
    (c.rx.store cfg cfg.bufsizeRx (slice seg.payload 0 seg.length.toNat)).any
      (fun r => (r.1 : Int) == seg.length) = true

def finInSequence (cfg : Config) (seg : Segment) (c : TcpConnection) : Prop :=
  (seg.seq = c.rcvNXT ∧ seg.flags.rst = false ∧ seg.flags.syn = false ∧ seg.flags.ack = true) ∧
    seg.flags.fin = true ∧ stores cfg seg c

instance : Decidable (stores cfg seg c) := inferInstanceAs (Decidable (_ ∨ _))

instance : Decidable (finInSequence cfg seg c) := inferInstanceAs (Decidable (_ ∧ _))

theorem incomingData_fin {b : Bool} (h : incomingData cfg env seg c = some (b, c')) :
    (b = true ↔ seg.flags.fin = true ∧ stores cfg seg c) ∧
      (b = true → c'.rcvNXT = c.rcvNXT + BitVec.ofInt 32 seg.length) := by
  unfold incomingData at h
  split at h
  · next hne =>
    obtain ⟨⟨b', c₂⟩, hstore, heq⟩ := Option.map_eq_some_iff.mp h
    obtain ⟨rfl, rfl⟩ := Prod.mk.inj heq
    obtain ⟨i, rx, hrx, rfl, hc⟩ := storeIncomingData_frame hstore
    have hnxt : c₂.rcvNXT = c.rcvNXT + BitVec.ofNat 32 i := by
      rcases hc with ⟨-, rfl⟩ | ⟨-, -, data, rx', -, rfl⟩
      all_goals rfl
    refine ⟨by simp [stores, hne, hrx], fun hb => ?_⟩
    have hi : (i : Int) = seg.length := by simpa using (Bool.and_eq_true_iff.mp hb).2
    simp [hnxt, ← hi]
  · next hzero =>
    have hzero := not_not.mp hzero
    obtain ⟨rfl, rfl⟩ := Prod.mk.inj (Option.some.inj h)
    refine ⟨by simp [stores, hzero], fun _ => ?_⟩
    rw [hzero]
    exact (BitVec.add_zero _).symm


-- What is known of our FIN in the states behind the close.
structure Parting (cfg : Config) (c : TcpConnection) : Prop where
  finwait1 : c.state = .finwait1 → ∃ fin, Leaving cfg fin c
  acked : c.state = .finwait2 ∨ c.state = .timewait ∨ c.state = .timewait0 →
    (farewell c.log).acked = true
  closing : c.state ≠ .closing
  lastack : c.state = .lastack → ∃ fin L, (farewell c.log).fin = some fin ∧ Behind fin L c

def departs (st : State) : Prop :=
  st = .finwait1 ∨ st = .finwait2 ∨ st = .closing ∨ st = .lastack ∨ st = .timewait ∨
    st = .timewait0

theorem Parting.of_not (h : ¬ departs c.state) : Parting cfg c := by
  unfold departs at h
  constructor
  all_goals simp_all

theorem Parting.of_acked (h : (farewell c.log).acked = true)
    (hst : c.state = .finwait2 ∨ c.state = .timewait ∨ c.state = .timewait0) : Parting cfg c := by
  refine ⟨?_, fun _ => h, ?_, ?_⟩
  all_goals rcases hst with hst | hst | hst <;> simp [hst]

theorem Leaving.parting (h : Leaving cfg fin c) (hst : c.state = .finwait1) : Parting cfg c := by
  refine ⟨fun _ => ⟨fin, h⟩, ?_, ?_, ?_⟩
  all_goals simp [hst]

theorem Parting.still (h : Parting cfg c) (hlog : Adds midway c.log c'.log)
    (hstate : c'.state = c.state) (hfree : c'.tx.free = c.tx.free) (huna : c'.sndUNA = c.sndUNA)
    (hs : c'.appStatus = .writing → c.appStatus = .writing)
    (hbehind : ∀ fin L, c.state = .lastack → Behind fin L c → Behind fin L c') :
    Parting cfg c' := by
  obtain ⟨hfin, hacked⟩ := farewell_midway hlog
  constructor
  all_goals rw [hstate]
  · intro hst
    obtain ⟨fin, hl⟩ := h.finwait1 hst
    exact ⟨fin, hl.still hlog hfree huna hs⟩
  · exact fun hst => hacked (h.acked hst)
  · exact h.closing
  · intro hst
    obtain ⟨fin, L, hf, hb⟩ := h.lastack hst
    exact ⟨fin, L, hfin.trans hf, hbehind fin L hst hb⟩

theorem Parting.same (h : Parting cfg c) (hlog : Adds midway c.log c'.log)
    (hstate : c'.state = c.state) (htx : c'.tx = c.tx) (hnxt : c'.sndNXT = c.sndNXT)
    (huna : c'.sndUNA = c.sndUNA) (hs : c'.appStatus = .writing → c.appStatus = .writing) :
    Parting cfg c' :=
  h.still hlog hstate (by rw [htx]) huna hs fun _ _ _ hb => hb.still htx hnxt hs

theorem parting_zero (port : BitVec 16) : Parting cfg (.zero port) :=
  .of_not (by simp [departs, TcpConnection.zero])

section Application

variable {app : Chanend}

-- Our FIN comes before the acknowledgement that is awaited, or the ring before our FIN.
def closesEvenly (cfg : Config) (c : TcpConnection) : Prop :=
  (c.state = .synrcvd ∨ c.state = .estab → after (awaited cfg c) c.sndNXT = true) ∧
  (c.state = .closewait →
    0 ≤ c.tx.free ∧ 0 ≤ c.tx.length ∧ c.tx.free + c.tx.length + 1 < 2 ^ 31)

instance : Decidable (closesEvenly cfg c) := inferInstanceAs (Decidable (_ ∧ _))

theorem Parting.doClose (h : Parting cfg c) (hok : closesEvenly cfg c) :
    Parting cfg (Tcp.doClose app c) := by
  unfold Tcp.doClose
  split
  · exact h.same (by simp [midway]) rfl rfl rfl rfl id
  · exact .of_not (by simp [departs])
  · exact .of_not (by simp [departs])
  iterate 2
    · next hst =>
      have hleaving : Leaving cfg c.sndNXT (Tcp.setAppWaiting app .closing
          { pipOutgoingTCP [] { fin := true, ack := true }
              ((c.enter .finwait1).note (.finished c.sndNXT)) with sndNXT := c.sndNXT + 1 }) :=
        ⟨by simp, hok.1 (by simp [hst]), by simp⟩
      exact hleaving.parting rfl
  iterate 6 exact h
  · next hst =>
    obtain ⟨hfree, hlength, hsum⟩ := hok.2 hst
    refine ⟨by simp, by simp, by simp, fun _ => ⟨c.sndNXT, c.tx.length, by simp, ?_, rfl, ?_, ?_⟩⟩
    · exact ⟨hlength, le_refl _, by omega⟩
    · exact ⟨hfree, by simp; omega⟩
    · simp

theorem Parting.doRead (h : Parting cfg c) (hread : Tcp.doRead cfg env app c = some c') :
    Parting cfg c' := by
  have hlog := (doRead_tacit hread).midway
  unfold Tcp.doRead at hread
  split at hread
  · next hst =>
    refine .of_not ?_
    split at hread
    · obtain ⟨data, rx, -, rfl⟩ := copyDataForRead_frame hread
      simp [departs, hst]
    · obtain rfl := Option.some.inj hread
      simp [departs, hst]
  all_goals
    obtain rfl := Option.some.inj hread
    exact h.same hlog rfl rfl rfl rfl id

theorem Parting.doWrite (h : Parting cfg c) (hwrite : Tcp.doWrite cfg env app c = some c') :
    Parting cfg c' := by
  have hlog := (doWrite_tacit hwrite).midway
  unfold Tcp.doWrite at hwrite
  split at hwrite
  · next hst =>
    refine .of_not ?_
    split at hwrite
    · obtain ⟨c₂, hcopy, hload⟩ := Option.bind_eq_some_iff.mp hwrite
      rw [((copyDataFromWrite_aside hcopy).trans (loadOutgoingData_aside hload)).state, hst]
      simp [departs]
    · obtain rfl := Option.some.inj hwrite
      simp [departs, hst]
  all_goals
    obtain rfl := Option.some.inj hwrite
    exact h.same hlog rfl rfl rfl rfl id

end Application

section Incoming

theorem heard_state (seg : Segment) (c : TcpConnection) :
    (heard seg c).state = c.state ∨ (heard seg c).state = .closed := by
  unfold heard
  dsimp only
  split
  · exact Or.inr rfl
  · split <;> exact Or.inl rfl

theorem incomingFIN_state : (incomingFIN c).state =
    match c.state with
    | .synrcvd | .estab => .closewait
    | .finwait1 => .closing
    | .finwait2 => .timewait
    | st => st := by
  unfold incomingFIN
  dsimp only
  split
  all_goals split <;> simp_all

theorem incomingData_same {b : Bool} (h : incomingData cfg env seg c = some (b, c')) :
    c'.tx = c.tx ∧ c'.sndNXT = c.sndNXT ∧ c'.sndUNA = c.sndUNA ∧
      (c'.appStatus = .writing → c.appStatus = .writing) := by
  unfold incomingData at h
  split at h
  · obtain ⟨⟨b', c₂⟩, hstore, heq⟩ := Option.map_eq_some_iff.mp h
    obtain ⟨-, rfl⟩ := Prod.mk.inj heq
    obtain ⟨i, rx, -, -, ⟨-, rfl⟩ | ⟨hr, -, data, rx', -, rfl⟩⟩ := storeIncomingData_frame hstore
    · exact ⟨rfl, rfl, rfl, id⟩
    · exact ⟨rfl, rfl, rfl, nofun⟩
  · obtain ⟨-, rfl⟩ := Prod.mk.inj (Option.some.inj h)
    exact ⟨rfl, rfl, rfl, id⟩

theorem Parting.incomingData (h : Parting cfg c) {b : Bool}
    (hdata : Tcp.incomingData cfg env seg c = some (b, c')) : Parting cfg c' := by
  obtain ⟨htx, hnxt, huna, hs⟩ := incomingData_same hdata
  exact h.same (incomingData_tacit hdata).midway (incomingData_state hdata) htx hnxt huna hs

-- Before our close no acknowledgement leads behind it.
theorem Acked.departs (ha : Acked cfg env seg c c') (hst : c.state = .estab ∨ c.state = .closewait) :
    ¬ Tcp.departs c'.state := by
  cases ha with
  | lastAck hlast => simp [hlast] at hst
  | duplicate | beyond => rcases hst with hst | hst <;> simp [Tcp.departs, hst]
  | finwait2 _ htake hst₂ =>
    rw [(takeAck_aside htake).state] at hst₂
    simp [hst₂] at hst
  | timewait _ htake hst₂ =>
    rw [(takeAck_aside htake).state] at hst₂
    simp [hst₂] at hst
  | data _ htake _ _ hdata =>
    have hstate := (incomingData_state hdata).trans (takeAck_aside htake).state
    rw [← hstate] at hst
    split
    · rw [incomingFIN_state]
      rcases hst with hst | hst <;> simp [Tcp.departs, hst]
    · rcases hst with hst | hst <;> simp [Tcp.departs, hst]

theorem takeAck_credited (hs : c.appStatus ≠ .writing) (h : takeAck cfg env seg c = some c') :
    c' = credited seg c := by
  rcases takeAck_cases h with ⟨-, heq⟩ | ⟨-, hw, -⟩
  · exact heq
  · exact absurd hw hs

theorem Leaving.acked (h : Leaving cfg fin c) (hst : c.state = .finwait1)
    (hfin : ¬ (seg.flags.fin = true ∧ stores cfg seg c)) (ha : Acked cfg env seg c c') :
    Parting cfg c' := by
  have hparting := h.parting hst
  obtain ⟨hkept, hlast⟩ := h.credited seg
  cases ha with
  | lastAck hlast => simp [hlast] at hst
  | duplicate => exact hparting
  | beyond => exact hparting.same (by simp [midway]) rfl rfl rfl rfl id
  | finwait2 _ htake _ hfree =>
    obtain rfl := takeAck_credited h.appStatus htake
    exact .of_acked (by simpa using hlast hfree) (by simp)
  | timewait _ htake hst₂ =>
    rw [(takeAck_aside htake).state, hst] at hst₂
    cases hst₂
  | @data c₂ c₃ b _ htake _ _ hdata =>
    obtain rfl := takeAck_credited h.appStatus htake
    have hb : b = false := Bool.eq_false_iff.mpr fun hb => hfin ((incomingData_fin hdata).1.mp hb)
    simpa [hb] using (hkept.parting hst).incomingData hdata

theorem Parting.acked_finwait2 (h : Parting cfg c) (hst : c.state = .finwait2)
    (ha : Acked cfg env seg c c') : Parting cfg c' := by
  refine .of_acked ((farewell_midway ha.tacit.midway).2 (h.acked (Or.inl hst))) ?_
  cases ha with
  | lastAck hlast => simp [hlast] at hst
  | duplicate => exact Or.inl hst
  | beyond => exact Or.inl hst
  | finwait2 => exact Or.inl rfl
  | timewait => exact Or.inr (Or.inl (by split <;> rfl))
  | data _ htake _ _ hdata =>
    have hstate := ((incomingData_state hdata).trans (takeAck_aside htake).state).trans hst
    split
    · simp [incomingFIN_state, hstate]
    · exact Or.inl hstate

theorem Parting.lastAck (h : Parting cfg c) : Parting cfg (incomingLastAck seg c) := by
  unfold incomingLastAck
  dsimp only
  split
  · split <;> exact .of_not (by simp [departs])
  · exact h

theorem Parting.acked_step (h : Parting cfg c) (hin : InOrder seg c) (hsyn : c.state ≠ .synrcvd)
    (hst : c.state = .synrcvd ∨ c.state = .estab ∨ c.state = .finwait1 ∨ c.state = .finwait2 ∨
      c.state = .closewait ∨ c.state = .closing ∨ c.state = .lastack)
    (hfin : c.state = .finwait1 → ¬ finInSequence cfg seg c)
    (ha : Acked cfg env seg (offered seg c) c') : Parting cfg c' := by
  have hoffered : Parting cfg (offered seg c) := h.same (by simp) rfl rfl rfl rfl id
  rcases hst with hst | hst | hst | hst | hst | hst | hst
  · exact absurd hst hsyn
  · exact .of_not (ha.departs (Or.inl hst))
  · obtain ⟨fin, hl⟩ := hoffered.finwait1 hst
    exact hl.acked hst (fun hf => hfin hst ⟨⟨hin.seq, hin.rst, hin.syn, hin.ack⟩, hf⟩) ha
  · exact hoffered.acked_finwait2 hst ha
  · exact .of_not (ha.departs (Or.inr hst))
  · exact absurd hst h.closing
  · cases ha with
    | lastAck => exact hoffered.lastAck
    | duplicate hne | beyond hne => exact absurd hst hne
    | finwait2 hw | timewait hw | data hw => exact absurd hst hw.state

theorem Parting.incoming (h : Parting cfg c)
    (hfin : c.state = .finwait1 → ¬ finInSequence cfg seg c)
    (hi : Tcp.incoming cfg env seg c = some c') : Parting cfg c' := by
  cases incoming_cases hi with
  | closed => exact h
  | listen hst =>
    refine .of_not ?_
    unfold incomingListen
    split
    · simp [departs, hst]
    split
    · simp [departs, hst]
    split <;> simp [departs, hst]
  | synsent hst hg =>
    refine .of_not ?_
    cases hg with
    | declined => simp [declined, departs]
    | heard => rcases heard_state seg c with hs | hs <;> simp [departs, hs, hst]
    | estab | synrcvd => simp [departs]
  | timewait hst =>
    have hacked := h.acked (Or.inr hst)
    unfold incomingTimewait
    split
    · exact .of_acked (by simpa using hacked) (Or.inr (Or.inl rfl))
    · exact h
  | synchronized hst hs =>
    cases hs with
    | outOfOrder => exact h.same (by simp [midway]) rfl rfl rfl rfl id
    | reset => exact .of_not (by simp [incomingRST, departs])
    | restart => exact .of_not (by simp [incomingSYN, departs])
    | silent => exact h
    | refused => exact h.same (by simp [midway]) rfl rfl rfl rfl id
    | opened _ _ _ ha => exact .of_not (ha.departs (Or.inl establish_state))
    | acked hin hsyn ha => exact h.acked_step hin hsyn hst hfin ha

end Incoming

section TimeOut

theorem Parting.lapse (h : Parting cfg c) : Parting cfg (Tcp.lapse c) := by
  unfold Tcp.lapse
  dsimp only
  split
  · exact .of_not (by unfold expire; dsimp only; split <;> simp [departs])
  · exact h.same (by simp) rfl rfl rfl rfl id

-- What is sent from the ring leaves its free bytes and sndUNA as they are.
theorem loadOutgoingData_steady (hs : c.appStatus ≠ .writing)
    (h : loadOutgoingData cfg env c = some c') :
    c'.tx.free = c.tx.free ∧ c'.sndUNA = c.sndUNA ∧ c'.appStatus = c.appStatus := by
  obtain ⟨data, tx, htx, ⟨-, rfl⟩ | ⟨hw, -⟩⟩ := loadOutgoingData_frame h
  · exact ⟨(Xqueue.takeAll_same htx).1, rfl, rfl⟩
  · exact absurd hw hs

theorem Parting.quiet (h : Parting cfg c) (hst : c.state = .finwait1 ∨ c.state = .lastack) :
    c.appStatus ≠ .writing := by
  rcases hst with hst | hst
  · obtain ⟨fin, hl⟩ := h.finwait1 hst
    exact hl.appStatus
  · obtain ⟨fin, L, -, hb⟩ := h.lastack hst
    exact hb.appStatus

theorem Parting.sent (h : Parting cfg c) (hlog : Adds midway c.log c'.log)
    (hstate : c'.state = c.state)
    (hsteady : c.appStatus ≠ .writing →
      c'.tx.free = c.tx.free ∧ c'.sndUNA = c.sndUNA ∧ c'.appStatus = c.appStatus)
    (hbehind : ∀ fin L, c.state = .lastack → Behind fin L c → Behind fin L c') :
    Parting cfg c' := by
  by_cases hst : c.state = .finwait1 ∨ c.state = .lastack
  · obtain ⟨hfree, huna, hs⟩ := hsteady (h.quiet hst)
    exact h.still hlog hstate hfree huna (hs ▸ id) hbehind
  · by_cases hd : departs c.state
    · refine .of_acked ((farewell_midway hlog).2 (h.acked ?_)) ?_
      all_goals
        have hclosing := h.closing
        unfold departs at hd
        simp_all
    · exact .of_not (hstate ▸ hd)

theorem Parting.loadOutgoingData (h : Parting cfg c)
    (hload : Tcp.loadOutgoingData cfg env c = some c') : Parting cfg c' :=
  h.sent (loadOutgoingData_aside hload).tacit.midway (loadOutgoingData_aside hload).state
    (fun hs => loadOutgoingData_steady hs hload)
    fun _ _ _ hb => hb.flushed (loadOutgoingData_flushed hb.appStatus hb.length.1 hload)

theorem Parting.resent {t2 : Word} (h : Parting cfg c) (hr : Resent t2 c c') : Parting cfg c' := by
  cases hr with
  | timewait hst => exact .of_acked (by simpa using h.acked (by simp [hst])) (by simp)
  | timewait0 => exact .of_not (by dsimp only; split <;> simp [departs])
  | syn hst => exact .of_not (by rcases hst with hst | hst <;> simp [departs, hst])
  | fin => exact h.same (by simp [midway]) rfl rfl rfl rfl id
  | nothing => exact h.same (by simp) rfl rfl rfl rfl id

theorem Parting.ticked (h : Parting cfg c) (ht : Ticked cfg env c c') : Parting cfg c' := by
  cases ht with
  | stopped => exact h
  | counted => exact h.same (by simp) rfl rfl rfl rfl id
  | @again c₂ _ hn hload =>
    have hsent : Parting cfg c₂ := by
      refine h.lapse.sent (loadOutgoingData_aside hload).tacit.midway
        (loadOutgoingData_aside hload).state (fun hs => ?_) fun _ _ _ hb => ?_
      · have hsteady := loadOutgoingData_steady (by exact hs) hload
        exact hsteady
      · obtain ⟨hfree, hsum⟩ := hb.free
        exact hb.flushed (rewind_flushed hb.appStatus hb.length.1 hfree hsum hn hload)
    exact hsent.same (by simp) rfl rfl rfl rfl id
  | rest => exact h.lapse.resent (resend_cases _)

end TimeOut

end Xtcp.Pip.Tcp
