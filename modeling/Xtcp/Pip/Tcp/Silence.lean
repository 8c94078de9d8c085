import Xtcp.Pip.Tcp.Closing
import Xtcp.Pip.Tcp.Tokens

namespace Xtcp.Pip.Tcp
open Serial

variable {cfg : Config} {env : Env} {c c' c₂ : TcpConnection} {seg : Segment}

-- A connection is closed until it is opened again; so long neither the timer nor the preparation of
-- data sends, and the timer does not run.
structure Silent (a : Act) (c c' : TcpConnection) : Prop where
  lasts : c.state = .closed → ¬ opens a → c'.state = .closed
  silent : c'.state = .closed → a = .timeOut ∨ a = .prepare → ∀ y, .sent y ∉ fresh c c'
  stopped : c'.state = .closed → c'.timeouts = 0

def closesOn (seg : Segment) (c : TcpConnection) : Prop :=
  (c.state = .synsent ∧ seg.flags.ack = true ∧
    (outside c.sndUNA c.sndNXT seg.ack = true ∨ seg.flags.rst = true ∧ seg.flags.syn = false)) ∨
  (synchronized c.state ∧ seg.seq = c.rcvNXT ∧ (seg.flags.rst = true ∨ seg.flags.syn = true ∨
    c.state = .lastack ∧ seg.flags.ack = true ∧ c.sndNXT + 1 = seg.ack))

-- Nothing is left to be sent again by the timer when the connection is closed.
def StopsTimer (cfg : Config) : Act → TcpConnection → Prop
  | .request _ .close, c => c.state = .synsent ∨ c.state = .listen → c.timeouts = 0
  | .segment seg, c => closesOn seg c → c.timeouts = 0
  | .timeOut, c =>
      fires c → tcpMaxTimeout.sle (c.timeouts + 1) = true → ¬ 0 < notAcknowledged cfg c
  | _, _ => True

instance (seg : Segment) (c : TcpConnection) : Decidable (closesOn seg c) :=
  inferInstanceAs (Decidable (_ ∨ _))

instance (a : Act) (c : TcpConnection) : Decidable (StopsTimer cfg a c) :=
  match a with
  | .request _ .close | .segment _ | .timeOut => inferInstanceAs (Decidable (_ → _))
  | .request _ .accept | .request _ (.connect _ _ _) | .request _ .read | .request _ .write
  | .prepare => isTrue trivial

section Incoming

theorem heard_closed (hst : c.state = .synsent) :
    (heard seg c).state = .closed ↔ seg.flags.ack = true ∧ seg.flags.rst = true := by
  unfold heard
  dsimp only
  split
  · next h => exact iff_of_true rfl h.symm
  · next h => exact iff_of_false (by split <;> simp [hst]) fun hr => h hr.symm

theorem heard_timeouts : (heard seg c).timeouts = c.timeouts := by
  unfold heard
  dsimp only
  split <;> split <;> rfl

theorem Greeting.closed (hg : Greeting env seg c c') (hst : c.state = .synsent) :
    (c'.state = .closed ↔ closesOn seg c) ∧ (c'.state = .closed → c'.timeouts = c.timeouts) := by
  have hcond : closesOn seg c ↔ seg.flags.ack = true ∧
      (outside c.sndUNA c.sndNXT seg.ack = true ∨ seg.flags.rst = true ∧ seg.flags.syn = false) := by
    simp [closesOn, synchronized, hst]
  rw [hcond]
  cases hg with
  | declined ha ho =>
    refine ⟨iff_of_true rfl ⟨ha, Or.inl ho⟩, fun _ => ?_⟩
    unfold Tcp.declined
    dsimp only
    split <;> rfl
  | heard ho hs =>
    refine ⟨?_, fun _ => heard_timeouts⟩
    rw [heard_closed hst]
    refine and_congr_right fun ha => ?_
    simp [ho ha, hs]
  | estab ho hs | synrcvd ho hs =>
    refine ⟨iff_of_false (by simp) ?_, by simp⟩
    rintro ⟨ha, ho' | ⟨-, hs'⟩⟩
    · simp [ho ha] at ho'
    · simp [hs] at hs'

theorem incomingLastAck_closed (seg : Segment) (hst : c.state = .lastack) :
    ((incomingLastAck seg c).state = .closed ↔ c.sndNXT + 1 = seg.ack) ∧
      (incomingLastAck seg c).timeouts = c.timeouts := by
  unfold incomingLastAck
  dsimp only
  split
  · next hack => split <;> exact ⟨iff_of_true rfl hack, rfl⟩
  · next hack => exact ⟨iff_of_false (by simp [hst]) hack, rfl⟩

theorem Acked.open_of (ha : Acked cfg env seg c c') (hst : c.state ≠ .lastack)
    (hst' : c.state ≠ .closed) : c'.state ≠ .closed := by
  cases ha with
  | lastAck hlast => exact absurd hlast hst
  | duplicate | beyond => exact hst'
  | finwait2 => simp
  | timewait => split <;> simp
  | @data c₂ c₃ b _ htake _ _ hdata =>
    have hstate := (incomingData_state hdata).trans (takeAck_aside htake).state
    split
    · rw [incomingFIN_state]
      split
      all_goals simp_all
    · rwa [hstate]

theorem Synchronized.closed (hs : Synchronized cfg env seg c c') (hst : synchronized c.state) :
    (c'.state = .closed ↔ closesOn seg c) ∧ (c'.state = .closed → c'.timeouts = c.timeouts) := by
  have hopen : c.state ≠ .closed := by
    rintro h
    simp [h, synchronized] at hst
  have hcond : closesOn seg c ↔ seg.seq = c.rcvNXT ∧ (seg.flags.rst = true ∨
      seg.flags.syn = true ∨ c.state = .lastack ∧ seg.flags.ack = true ∧
        c.sndNXT + 1 = seg.ack) := by
    have hsent : c.state ≠ .synsent := by
      rintro h
      simp [h, synchronized] at hst
    simp [closesOn, hst, hsent]
  rw [hcond]
  cases hs with
  | outOfOrder hseq =>
    exact ⟨iff_of_false (by simpa using hopen) fun h => hseq h.1, fun h => absurd h hopen⟩
  | reset hseq hr =>
    refine ⟨iff_of_true rfl ⟨hseq, Or.inl hr⟩, fun _ => ?_⟩
    unfold incomingRST
    dsimp only
    split
    · split <;> rfl
    iterate 4
      · split <;> rfl
    · rfl
  | restart hseq _ hsyn =>
    refine ⟨iff_of_true rfl ⟨hseq, Or.inr (Or.inl hsyn)⟩, fun _ => ?_⟩
    unfold incomingSYN
    dsimp only
    split <;> rfl
  | silent hseq hr hsyn ha =>
    exact ⟨iff_of_false hopen (by simp [hr, hsyn, ha]), fun _ => rfl⟩
  | refused hin hst =>
    exact ⟨iff_of_false (by simpa using hopen) (by simp [hin.rst, hin.syn, hst]), fun _ => rfl⟩
  | opened hin hst _ ha =>
    have hstill := ha.open_of (by simp) (by simp)
    exact ⟨iff_of_false hstill (by simp [hin.rst, hin.syn, hst]), fun h => absurd h hstill⟩
  | acked hin hsyn ha =>
    by_cases hlast : c.state = .lastack
    · cases ha with
      | lastAck =>
        obtain ⟨hiff, htimeouts⟩ := incomingLastAck_closed seg (show (offered seg c).state = .lastack from hlast)
        refine ⟨hiff.trans ?_, fun _ => htimeouts⟩
        simp [hin.seq, hin.rst, hin.syn, hin.ack, hlast]
      | duplicate hne | beyond hne => exact absurd hlast hne
      | finwait2 hw | timewait hw | data hw => exact absurd hlast hw.state
    · have hstill := ha.open_of hlast hopen
      refine ⟨iff_of_false hstill ?_, fun h => absurd h hstill⟩
      simp [hin.rst, hin.syn, hlast]

theorem incoming_closed (hi : incoming cfg env seg c = some c') (hst : c.state ≠ .closed) :
    (c'.state = .closed ↔ closesOn seg c) ∧ (c'.state = .closed → c'.timeouts = c.timeouts) := by
  have hother (hne : ¬ synchronized c.state) (hsent : c.state ≠ .synsent)
      (hstill : c'.state ≠ .closed) : (c'.state = .closed ↔ closesOn seg c) ∧
        (c'.state = .closed → c'.timeouts = c.timeouts) :=
    ⟨iff_of_false hstill (by simp [closesOn, hne, hsent]), fun h => absurd h hstill⟩
  cases incoming_cases hi with
  | closed h => exact absurd h hst
  | listen h =>
    refine hother (by simp [h, synchronized]) (by simp [h]) ?_
    unfold incomingListen
    split
    · exact hst
    split
    · exact hst
    split
    · simp
    · exact hst
  | synsent h hg => exact hg.closed h
  | timewait h =>
    refine hother ?_ ?_ ?_
    · rcases h with h | h <;> simp [h, synchronized]
    · rcases h with h | h <;> simp [h]
    · unfold incomingTimewait
      split
      · simp
      · exact hst
  | synchronized h hs => exact hs.closed h

end Incoming

section TimeOut

def unsaid (x : Note) : Prop := ∀ y, x ≠ .sent y

theorem silent_of_adds (h : Adds unsaid c.log c'.log) (y : Sent) : .sent y ∉ fresh c c' :=
  fun hy => h.fresh _ hy y rfl

theorem lapse_unsaid : Adds unsaid c.log (lapse c).log := by
  unfold lapse expire
  dsimp only
  split
  · split <;> simp [unsaid]
  · simp

theorem lapse_closed (hst : c.state ≠ .closed) :
    (lapse c).state = .closed ↔ tcpMaxTimeout.sle (c.timeouts + 1) = true := by
  by_cases hmax : tcpMaxTimeout.sle (c.timeouts + 1) = true
  · refine iff_of_true ?_ hmax
    unfold lapse expire
    dsimp only
    rw [if_pos hmax]
    split <;> rfl
  · rw [lapse_state (Bool.eq_false_iff.mpr hmax)]
    exact iff_of_false hst hmax

theorem Resent.closed {t2 : Word} (hr : Resent t2 c c') (hst : c'.state = .closed) :
    c'.timeouts = 0 ∧ Adds unsaid c.log c'.log := by
  cases hr with
  | timewait => simp at hst
  | timewait0 => exact ⟨rfl, by dsimp only; split <;> simp [unsaid]⟩
  | syn hs => rcases hs with hs | hs <;> simp [hs] at hst
  | fin hs =>
    unfold finishing at hs
    simp_all
  | nothing => exact ⟨rfl, by simp⟩

theorem notAcknowledged_lapse : notAcknowledged cfg (lapse c) = notAcknowledged cfg c := by
  have htx : (lapse c).tx = c.tx := by
    unfold lapse expire
    dsimp only
    split
    · split <;> rfl
    · rfl
  rw [notAcknowledged, htx]
  rfl

theorem silent_ticked (ht : Ticked cfg env c c') (hst : c.state ≠ .closed) :
    Silent .timeOut c c' ↔ StopsTimer cfg .timeOut c := by
  have hopen {c' : TcpConnection} (hst' : c'.state ≠ .closed) : Silent .timeOut c c' :=
    ⟨fun h => absurd h hst, fun h => absurd h hst', fun h => absurd h hst'⟩
  cases ht with
  | stopped h => exact iff_of_true (hopen hst) fun hf => absurd h hf.1
  | counted _ hf => exact iff_of_true (hopen hst) fun hf' => absurd hf' hf
  | @again c₂ hf hn hload =>
    rw [notAcknowledged_lapse] at hn
    have hstate : c₂.state = (lapse c).state := (loadOutgoingData_aside hload).state
    by_cases hmax : tcpMaxTimeout.sle (c.timeouts + 1) = true
    · refine iff_of_false (fun h => ?_) fun h => h hf hmax hn
      have hzero : c.timeouts + 1 = 0 := h.stopped (hstate.trans ((lapse_closed hst).mpr hmax))
      rw [hzero] at hmax
      exact absurd hmax (by decide)
    · refine iff_of_true (hopen fun h => hmax ((lapse_closed hst).mp ?_)) fun _ h => absurd h hmax
      exact hstate.symm.trans h
  | rest hf hn =>
    rw [notAcknowledged_lapse] at hn
    refine iff_of_true ⟨fun h => absurd h hst, fun h _ => ?_, fun h => ?_⟩ fun _ _ => hn
    · exact silent_of_adds (lapse_unsaid.trans ((resend_cases _).closed h).2)
    · exact ((resend_cases _).closed h).1

end TimeOut

section Application

variable {app : Chanend} {r : Request}

theorem silent_closed_iff {a : Act} (ha : ¬ (a = .timeOut ∨ a = .prepare))
    (hst : c.state ≠ .closed) (hst' : c'.state = .closed) :
    Silent a c c' ↔ c'.timeouts = 0 :=
  ⟨fun h => h.stopped hst', fun h => ⟨fun hc => absurd hc hst, fun _ h => absurd h ha, fun _ => h⟩⟩

theorem silent_of_open {a : Act} (hst : c.state = .closed → opens a) (hst' : c'.state ≠ .closed) :
    Silent a c c' :=
  ⟨fun h hne => absurd (hst h) hne, fun h => absurd h hst', fun h => absurd h hst'⟩

-- A request that finds the connection closed, or leaves it open.
theorem silent_of_same {a : Act} (ha : ¬ (a = .timeOut ∨ a = .prepare))
    (hstate : c'.state = c.state) (htimeouts : c.state = .closed → c'.timeouts = 0) :
    Silent a c c' :=
  ⟨fun h _ => hstate.trans h, fun _ h => absurd h ha, fun h => htimeouts (hstate.symm.trans h)⟩

theorem silent_doClose (hclosed : c.state = .closed → c.timeouts = 0) :
    Silent (.request app .close) c (doClose app (c.note (.requested app))) ↔
      StopsTimer cfg (.request app .close) c := by
  have hact : ¬ (Act.request app .close = .timeOut ∨ Act.request app .close = .prepare) := by simp
  have hother {c' : TcpConnection} (h : ¬ (c.state = .synsent ∨ c.state = .listen))
      (hs : Silent (.request app .close) c c') :
      Silent (.request app .close) c c' ↔ StopsTimer cfg (.request app .close) c :=
    iff_of_true hs fun h' => absurd h' h
  unfold doClose
  split
  · next h => exact hother (by simp_all) (silent_of_same hact rfl hclosed)
  iterate 2
    · next h =>
      rw [silent_closed_iff hact (by simp_all) (by simp)]
      exact ⟨fun hz _ => hz, fun hz => hz (by simp_all)⟩
  iterate 2
    · next h => exact hother (by simp_all) (silent_of_open (by simp_all) (by simp))
  iterate 6
    · next h => exact hother (by simp_all) (silent_of_same hact rfl hclosed)
  · next h => exact hother (by simp_all) (silent_of_open (by simp_all) (by simp))

theorem doRead_state (h : doRead cfg env app c = some c') :
    c'.state = c.state ∧ c'.timeouts = c.timeouts := by
  unfold doRead at h
  split at h
  · split at h
    · obtain ⟨data, rx, -, rfl⟩ := copyDataForRead_frame h
      exact ⟨rfl, rfl⟩
    · obtain rfl := Option.some.inj h
      exact ⟨rfl, rfl⟩
  all_goals
    obtain rfl := Option.some.inj h
    exact ⟨rfl, rfl⟩

theorem doWrite_state (h : doWrite cfg env app c = some c') :
    c'.state = c.state ∧ (c.state = .closed → c'.timeouts = c.timeouts) := by
  unfold doWrite at h
  split at h
  · next hst =>
    refine ⟨?_, by simp [hst]⟩
    split at h
    · obtain ⟨c₂, hcopy, hload⟩ := Option.bind_eq_some_iff.mp h
      exact ((copyDataFromWrite_aside hcopy).trans (loadOutgoingData_aside hload)).state
    · exact Option.some.inj h ▸ rfl
  all_goals
    obtain rfl := Option.some.inj h
    exact ⟨rfl, fun _ => rfl⟩

theorem silent_request (hr : pipApplicationTCP cfg env app r c = some c')
    (hclosed : c.state = .closed → c.timeouts = 0) :
    Silent (.request app r) c c' ↔ StopsTimer cfg (.request app r) c := by
  cases r with
  | accept =>
    obtain rfl := Option.some.inj hr
    exact iff_of_true (silent_of_open (fun _ => trivial) (by simp [doAccept, initConnection])) trivial
  | connect =>
    obtain rfl := Option.some.inj hr
    exact iff_of_true (silent_of_open (fun _ => trivial) (by simp [doConnect, initConnection])) trivial
  | close => exact Option.some.inj hr ▸ silent_doClose hclosed
  | read =>
    obtain ⟨hstate, htimeouts⟩ := doRead_state hr
    exact iff_of_true (silent_of_same (by simp) hstate fun h => htimeouts.trans (hclosed h)) trivial
  | write =>
    obtain ⟨hstate, htimeouts⟩ := doWrite_state hr
    exact iff_of_true
      (silent_of_same (by simp) hstate fun h => (htimeouts h).trans (hclosed h)) trivial

end Application

-- Before a step the timer of a closed connection stands still.
theorem silent_act {a : Act} (hclosed : c.state = .closed → c.timeouts = 0) (hdue : due a c)
    (hact : act cfg env a c = some c') : Silent a c c' ↔ StopsTimer cfg a c := by
  cases a with
  | request => exact silent_request hact hclosed
  | segment seg =>
    have hst : c.state ≠ .closed := by
      rintro h
      simp [due, found, openStream, h] at hdue
    have hclaim : (c'.state = .closed ↔ closesOn seg c) ∧
        (c'.state = .closed → c'.timeouts = c.timeouts) := by
      obtain ⟨_, _, _, hsame⟩ := claim_same seg c
      rw [act, hsame] at hact
      have hi := incoming_closed hact hst
      exact hi
    by_cases hst' : c'.state = .closed
    · rw [silent_closed_iff (by simp) hst hst', hclaim.2 hst']
      exact ⟨fun h _ => h, fun h => h (hclaim.1.mp hst')⟩
    · exact iff_of_true (silent_of_open (fun h => absurd h hst) hst')
        fun h => absurd (hclaim.1.mpr h) hst'
  | timeOut =>
    by_cases hst : c.state = .closed
    · have hzero := hclosed hst
      obtain rfl : c = c' := by simpa [act, timeOut, hzero] using hact
      refine iff_of_true ⟨fun h _ => h, fun _ _ y => ?_, fun _ => hzero⟩
        fun hf => absurd hzero hf.1
      exact silent_of_adds adds_refl y
    · exact silent_ticked (timeOut_cases hact) hst
  | prepare =>
    have hst : c.state ≠ .closed := by
      rintro h
      simp [due, unsent, h] at hdue
    refine iff_of_true (silent_of_open (fun h => absurd h hst) ?_) trivial
    rwa [(loadOutgoingData_aside hact).state]

section Runs

variable {n : Nat} {s s' : Stack n}

theorem Run.stopped (h : Run cfg (Each fun _ => StopsTimer cfg) s) (i : Fin n) :
    (s.conns i).state = .closed → (s.conns i).timeouts = 0 :=
  h.invariant (I := fun c => c.state = .closed → c.timeouts = 0) (fun _ _ => rfl)
    (fun _ _ _ _ hc hok hdue hs => ((silent_act hc hdue hs).mpr hok).stopped) i

theorem silent_when_closed (h : Run cfg (Each fun _ => StopsTimer cfg) s) {e : Event n}
    (hs : step cfg s e = some s') {i : Fin n} {a : Act} (hc : concerns s e i = some (env, a)) :
    Silent a (s.conns i) (s'.conns i) ↔ StopsTimer cfg a (s.conns i) := by
  have hact := step_evolves hs i
  rw [hc] at hact
  exact silent_act (h.stopped i) (due_of_concerns hc) hact

-- A reset when the timer has run out.
theorem silent_when_reset : ∃ s s' : Stack 1, Run small (Each fun _ => StopsTimer small) s ∧
    (s.conns 0).state = .estab ∧ (s'.conns 0).state = .closed ∧
      Silent (.segment (packet 1001 101 { rst := true } [])) (s.conns 0) (s'.conns 0) := by
  obtain ⟨s, hrun, hfound, hst, hok, hs⟩ := exists_run small (C := fun _ => StopsTimer small)
    (P := fun s : Stack 1 =>
      ((List.finRange 1).find? fun j =>
        found (packet 1001 101 { rst := true } []) (s.conns j)) = some 0 ∧
      (s.conns 0).state = .estab ∧
      StopsTimer small (.segment (packet 1001 101 { rst := true } [])) (s.conns 0) ∧
      ((step small s (.segment (during 100 0) (packet 1001 101 { rst := true } []))).any fun s' =>
        (s'.conns 0).state == .closed) = true)
    [.request (during 100 0) 5 0 .accept,
      .segment (during 100 0) (packet 1000 0 { syn := true } []),
      .segment (during 100 0) (packet 1001 101 { ack := true } []),
      .timeOut fun _ => during 100 0, .timeOut fun _ => during 100 0,
      .timeOut fun _ => during 100 0, .timeOut fun _ => during 100 0] (by decide)
  obtain ⟨s', hs, hst'⟩ := (Option.any_eq_true _ _).mp hs
  have hc : concerns s (.segment (during 100 0) (packet 1001 101 { rst := true } [])) 0 =
      some (during 100 0, .segment (packet 1001 101 { rst := true } [])) := by
    simp only [concerns, hfound, if_true]
  exact ⟨s, s', hrun, hst, by simpa using hst', (silent_when_closed hrun hs hc).mpr hok⟩

def carries (data : List UInt8) : Note → Bool
  | .sent y => y.data == data
  | _ => false

theorem sent_of_carries {data : List UInt8} {x : Note} (h : carries data x = true) :
    ∃ y, x = .sent y := by
  cases x with
  | sent y => exact ⟨y, rfl⟩
  | _ => cases h

-- A reset comes while data is outstanding: the timer sends it again.
theorem sent_when_closed : ∃ s s' : Stack 1, Run small (Each fun _ _ _ => True) s ∧
    step small s (.timeOut fun _ => during 100 3) = some s' ∧
      (s.conns 0).state = .closed ∧ (s'.conns 0).state = .closed ∧
      ¬ Silent .timeOut (s.conns 0) (s'.conns 0) := by
  obtain ⟨s, hrun, hst, hs⟩ := exists_run small (C := fun _ _ _ => True)
    (P := fun s : Stack 1 => (s.conns 0).state = .closed ∧
      ((step small s (.timeOut fun _ => during 100 3)).any fun s' =>
        (s'.conns 0).state == .closed &&
          (fresh (s.conns 0) (s'.conns 0)).any (carries [0, 1, 2])) = true)
    [.request (during 100 3) 5 0 .accept,
      .segment (during 100 3) (packet 1000 0 { syn := true } []),
      .segment (during 100 3) (packet 1001 101 { ack := true } []),
      .request (during 100 3) 5 0 .write,
      .segment (during 100 3) (packet 1001 101 { rst := true } []),
      .timeOut fun _ => during 100 3, .timeOut fun _ => during 100 3,
      .timeOut fun _ => during 100 3] (by decide)
  obtain ⟨s', hs, hsent⟩ := (Option.any_eq_true _ _).mp hs
  rw [Bool.and_eq_true, beq_iff_eq, List.any_eq_true] at hsent
  obtain ⟨hst', x, hx, hdata⟩ := hsent
  obtain ⟨y, rfl⟩ := sent_of_carries hdata
  exact ⟨s, s', hrun, hs, hst, hst', fun h => h.silent hst' (Or.inl rfl) y hx⟩

end Runs

end Xtcp.Pip.Tcp
