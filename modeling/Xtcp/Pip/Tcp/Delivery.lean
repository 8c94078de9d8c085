import Xtcp.Pip.Tcp.Receive

namespace Xtcp.Pip.Tcp
open Xtcp.Segment Serial Prefix

variable {cfg : Config} {env : Env} {c c' : TcpConnection} {seg : Segment} {app : Chanend}

def reads : Act → TcpConnection → Prop
  | .request _ r, _ => r = .read
  | _, c => c.appStatus = .reading

instance (a : Act) (c : TcpConnection) : Decidable (reads a c) :=
  match a with
  | .request _ r => inferInstanceAs (Decidable (r = .read))
  | .segment _ | .timeOut | .prepare => inferInstanceAs (Decidable (c.appStatus = .reading))

def Asks (env : Env) (a : Act) (c : TcpConnection) : Prop := reads a c → 0 ≤ env.answer.count

instance (env : Env) (a : Act) (c : TcpConnection) : Decidable (Asks env a c) :=
  inferInstanceAs (Decidable (_ → _))

theorem Received.act {a : Act} (h : Received cfg c) (hask : Asks env a c) (hopens : ¬ opens a)
    (hact : act cfg env a c = some c') : Received cfg c' := by
  cases a with
  | request app r =>
    have hnoted : Received cfg (c.note (.requested app)) :=
      h.still (by simp [receiving, TcpConnection.story]) rfl rfl rfl id
    cases r with
    | accept => exact absurd trivial hopens
    | connect => exact absurd trivial hopens
    | close => exact Option.some.inj hact ▸ hnoted.doClose
    | read => exact hnoted.doRead (hask rfl) hact
    | write => exact hnoted.doWrite hact
  | segment seg =>
    have hstatus : (Tcp.claim seg c).appStatus = c.appStatus := by
      unfold Tcp.claim
      split <;> rfl
    exact h.claim.incoming (fun hr => hask (hstatus.symm.trans hr)) hact
  | timeOut => exact h.timeOut hact
  | prepare => exact h.aside (loadOutgoingData_aside hact)

section Ends

@[simp] def endOfStream : Note → Bool
  | .token _ request ct => request == .reading && ct == .closed
  | _ => false

-- A read is told that the stream has ended when all bytes before the FIN have been returned.
def endsAtEnd (s : Story) (x : Note) : Prop :=
  endOfStream x = true → s.returned = elements s.pieces

instance (s : Story) (x : Note) : Decidable (endsAtEnd s x) :=
  inferInstanceAs (Decidable (_ → _))

theorem endsAtEnd_outward (s : Story) (x : Note) (hx : outward x) : endsAtEnd s x := by
  cases x with
  | token => simp [endsAtEnd, hx.1]
  | _ => exact nofun

theorem endsAtEnd_inward (s : Story) (x : Note) (hx : inward x) : endsAtEnd s x := by
  cases x with
  | token => simp [endsAtEnd, hx.2]
  | _ => exact nofun

theorem ends_doClose (h : Tells endsAtEnd c.log) : Tells endsAtEnd (doClose app c).log := by
  unfold doClose
  split
  all_goals simp [h, Along, endsAtEnd]

theorem ends_doRead (hread : c.state = .closewait → c.story.returned = elements c.story.pieces)
    (h : Tells endsAtEnd c.log) (hact : doRead cfg env app c = some c') :
    Tells endsAtEnd c'.log := by
  unfold doRead at hact
  split at hact
  · split at hact
    · obtain ⟨data, rx, -, rfl⟩ := copyDataForRead_frame hact
      simp [h, Along, endsAtEnd]
    · exact Option.some.inj hact ▸ h
  · next hst =>
    obtain rfl := Option.some.inj hact
    simpa [h, Along, endsAtEnd, TcpConnection.story] using hread hst
  · obtain rfl := Option.some.inj hact
    simp [h, Along, endsAtEnd]

theorem ends_doWrite (h : Tells endsAtEnd c.log) (hact : doWrite cfg env app c = some c') :
    Tells endsAtEnd c'.log := by
  unfold doWrite at hact
  split at hact
  · split at hact
    · obtain ⟨c₂, hcopy, hload⟩ := Option.bind_eq_some_iff.mp hact
      exact ((copyDataFromWrite_aside hcopy).trans (loadOutgoingData_aside hload)).tells
        endsAtEnd_outward h
    · exact Option.some.inj hact ▸ h
  all_goals
    obtain rfl := Option.some.inj hact
    simp [h, Along, endsAtEnd]

theorem ends_incomingListen (h : Tells endsAtEnd c.log) :
    Tells endsAtEnd (incomingListen env seg c).log := by
  unfold incomingListen
  repeat' split
  all_goals simp [h, Along, endsAtEnd]

theorem ends_greeting (h : Tells endsAtEnd c.log) (hg : Greeting env seg c c') :
    Tells endsAtEnd c'.log := by
  have hheard : Tells endsAtEnd (heard seg c).log := by
    unfold heard
    repeat' split
    all_goals simp [h, Along, endsAtEnd]
  have hgreeted : Tells endsAtEnd (greeted seg (heard seg c)).log := by
    unfold greeted
    dsimp only
    split
    all_goals simp [hheard, Along, endsAtEnd]
  cases hg with
  | declined =>
    unfold declined
    dsimp only
    split
    all_goals simp [h, Along, endsAtEnd]
  | heard => exact hheard
  | estab => simp [hgreeted, Along, endsAtEnd]
  | synrcvd => simp [hgreeted, Along, endsAtEnd]

theorem ends_incomingRST (h : Tells endsAtEnd c.log) :
    Tells endsAtEnd (incomingRST c).log := by
  unfold incomingRST
  dsimp only
  split
  all_goals
    try split
    all_goals simp_all [Along, endsAtEnd]

theorem ends_incomingSYN (h : Tells endsAtEnd c.log) :
    Tells endsAtEnd (incomingSYN c).log := by
  unfold incomingSYN
  dsimp only
  split
  all_goals simp [h, Along, endsAtEnd]

theorem ends_establish (h : Tells endsAtEnd c.log) : Tells endsAtEnd (establish c).log := by
  unfold establish
  dsimp only
  split
  all_goals simp [h, Along, endsAtEnd]

theorem ends_incomingLastAck (h : Tells endsAtEnd c.log) :
    Tells endsAtEnd (incomingLastAck seg c).log := by
  unfold incomingLastAck
  dsimp only
  repeat' split
  all_goals simp [h, Along, endsAtEnd]

-- Nothing is left for a read that waits.
theorem Received.reading_all (h : Received cfg c) (hr : c.appStatus = .reading) :
    c.story.returned = elements c.story.pieces := by
  obtain ⟨hst, -, hfree⟩ := h.reading hr
  have hended := (h.taking (by simp [hst, Tcp.taking])).1
  have hlength := h.carries.free
  simp only [stored, h.late hended, hfree, elements_nil, List.append_nil] at hlength
  exact h.returned.eq_of_length (by omega)

theorem ends_incomingFIN (hread : c.appStatus = .reading → c.story.returned = elements c.story.pieces)
    (h : Tells endsAtEnd c.log) : Tells endsAtEnd (incomingFIN c).log := by
  simp only [TcpConnection.story] at hread
  unfold incomingFIN
  dsimp only
  split
  all_goals
    split
    all_goals simp_all [Along, endsAtEnd]

theorem ends_incomingData {b : Bool} (h : Tells endsAtEnd c.log)
    (hdata : incomingData cfg env seg c = some (b, c')) : Tells endsAtEnd c'.log := by
  unfold incomingData at hdata
  split at hdata
  · obtain ⟨⟨b', c₂⟩, hstore, heq⟩ := Option.map_eq_some_iff.mp hdata
    obtain ⟨-, rfl⟩ := Prod.mk.inj heq
    have hkept := (storeIncomingData_beside hstore).tells endsAtEnd_inward h
    exact (pipOutgoingTCP_aside _ _).tells endsAtEnd_outward hkept
  · obtain ⟨-, rfl⟩ := Prod.mk.inj (Option.some.inj hdata)
    exact h

theorem ends_acked (hr : Received cfg c)
    (hst : taking c.state ∨ c.state = .closewait ∨ c.state = .closing ∨ c.state = .lastack)
    (hseq : seg.seq = c.rcvNXT) (hcount : c.appStatus = .reading → 0 ≤ env.answer.count)
    (h : Tells endsAtEnd c.log) (ha : Acked cfg env seg c c') : Tells endsAtEnd c'.log := by
  cases ha with
  | lastAck => exact ends_incomingLastAck h
  | duplicate => exact h
  | beyond => exact (pipOutgoingTCP_aside _ _).tells endsAtEnd_outward h
  | finwait2 _ htake =>
    have hkept := (takeAck_aside htake).tells endsAtEnd_outward h
    simp [hkept, Along, endsAtEnd]
  | @timewait c₂ _ htake hst₂ =>
    have hkept := (takeAck_aside htake).tells endsAtEnd_outward h
    have hreading := (hr.aside (takeAck_aside htake)).reading
    split
    all_goals simp_all [Along, endsAtEnd]
  | data hw htake _ hst' hdata =>
    obtain ⟨hr₂, hst₂, hseq₂, hcount₂⟩ := hr.takeAck hst hseq hcount hw htake hst'
    obtain ⟨hr₃, -⟩ := hr₂.incomingData hst₂ hseq₂ hcount₂ hdata
    have hkept := ends_incomingData ((takeAck_aside htake).tells endsAtEnd_outward h) hdata
    split
    · exact ends_incomingFIN hr₃.reading_all hkept
    · exact hkept

theorem ends_synchronized (hr : Received cfg c)
    (hst : c.state = .synrcvd ∨ c.state = .estab ∨ c.state = .finwait1 ∨ c.state = .finwait2 ∨
      c.state = .closewait ∨ c.state = .closing ∨ c.state = .lastack)
    (hcount : c.appStatus = .reading → 0 ≤ env.answer.count) (h : Tells endsAtEnd c.log)
    (hs : Synchronized cfg env seg c c') : Tells endsAtEnd c'.log := by
  have hoffered : Received cfg (offered seg c) := hr.still rfl rfl rfl rfl id
  cases hs with
  | outOfOrder => exact (pipOutgoingTCP_aside _ _).tells endsAtEnd_outward h
  | reset => exact ends_incomingRST h
  | restart => exact ends_incomingSYN h
  | silent => exact h
  | refused => simp [h, Along, endsAtEnd]
  | opened hin hsyn _ ha =>
    obtain ⟨hkept, hst', hseq, hcount'⟩ := hoffered.opened (by exact hsyn) hin.seq hcount
    exact ends_acked hkept hst' hseq hcount' (ends_establish h) ha
  | acked hin hne ha =>
    refine ends_acked hoffered ?_ hin.seq hcount h ha
    rcases hst with hs | hs | hs | hs | hs | hs | hs
    all_goals simp_all [taking]

theorem ends_incoming (hr : Received cfg c)
    (hcount : c.appStatus = .reading → 0 ≤ env.answer.count) (h : Tells endsAtEnd c.log)
    (hs : incoming cfg env seg c = some c') : Tells endsAtEnd c'.log := by
  cases incoming_cases hs with
  | closed => exact h
  | listen => exact ends_incomingListen h
  | synsent _ hg => exact ends_greeting h hg
  | timewait =>
    unfold incomingTimewait
    split
    all_goals simp [h, Along, endsAtEnd]
  | synchronized hst hs => exact ends_synchronized hr hst hcount h hs

theorem ends_timeOut (hr : Received cfg c) (h : Tells endsAtEnd c.log)
    (hs : timeOut cfg env c = some c') : Tells endsAtEnd c'.log := by
  have hlapse : Tells endsAtEnd (lapse c).log := by
    unfold lapse expire
    dsimp only
    repeat' split
    all_goals simp [h, Along, endsAtEnd]
  cases timeOut_cases hs with
  | stopped => exact h
  | counted => exact h
  | again _ _ hload =>
    refine (loadOutgoingData_aside hload).tells endsAtEnd_outward ?_
    simpa [rewind] using hlapse
  | rest =>
    have hreading := hr.lapse.reading
    have hcases := resend_cases (c := lapse c) (c.timeouts + 1)
    generalize resend (c.timeouts + 1) (lapse c) = c' at hcases
    cases hcases with
    | timewait0 hst =>
      simp only
      split
      all_goals simp_all [Along, endsAtEnd]
    | nothing => exact hlapse
    | _ => simp [hlapse, Along, endsAtEnd]

theorem ends_request {r : Request}
    (hread : r = .read → c.state = .closewait → c.story.returned = elements c.story.pieces)
    (h : Tells endsAtEnd c.log) (hact : act cfg env (.request app r) c = some c') :
    Tells endsAtEnd c'.log := by
  have hnoted : Tells endsAtEnd (c.note (.requested app)).log := by simp [h, Along, endsAtEnd]
  cases r with
  | accept =>
    obtain rfl := Option.some.inj hact
    simp [doAccept, initConnection, h, Along, endsAtEnd]
  | connect =>
    obtain rfl := Option.some.inj hact
    simp [doConnect, initConnection, h, Along, endsAtEnd]
  | close => exact Option.some.inj hact ▸ ends_doClose hnoted
  | read =>
    refine ends_doRead (fun hst => ?_) hnoted hact
    simpa [TcpConnection.story] using hread rfl hst
  | write => exact ends_doWrite hnoted hact

theorem claim_aside (seg : Segment) (c : TcpConnection) : Aside c (claim seg c) := by
  unfold claim
  split
  all_goals constructor <;> simp [receiving, TcpConnection.story]

theorem ends_act {a : Act} (hr : Idle c ∨ Received cfg c) (hdue : due a c) (hask : Asks env a c)
    (hread : ∀ app, a = .request app .read → c.state = .closewait →
      c.story.returned = elements c.story.pieces)
    (h : Tells endsAtEnd c.log) (hact : act cfg env a c = some c') : Tells endsAtEnd c'.log := by
  cases a with
  | request app r => exact ends_request (fun hr => hread app (hr ▸ rfl)) h hact
  | segment seg =>
    rcases hr with hidle | hr
    · simp [due, found, openStream, hidle.state] at hdue
    · have hclaim := claim_aside seg c
      refine ends_incoming (hr.aside hclaim) (fun hs => hask ?_) ?_ hact
      · rcases hclaim.appStatus with heq | ⟨-, heq⟩
        · exact heq.symm.trans hs
        · rw [hs] at heq
          cases heq
      · exact hclaim.tells endsAtEnd_outward h
  | timeOut =>
    rcases hr with hidle | hr
    · rw [act, timeOut, if_pos hidle.timeouts] at hact
      exact Option.some.inj hact ▸ h
    · exact ends_timeOut hr h hact
  | prepare => exact (loadOutgoingData_aside hact).tells endsAtEnd_outward h

end Ends

section Stream

structure Stream (cfg : Config) (c : TcpConnection) : Prop where
  returned : c.story.returned <+: elements c.story.pieces
  gapless : Gapless (c.story.irs + 1) c.story.pieces
  free_nonneg : 0 ≤ c.rx.free
  free_le : c.rx.free ≤ cfg.bufsizeRx
  indices : ((c.rx.wr : Int) - c.rx.rd) % cfg.bufsizeRx =
    (cfg.bufsizeRx - c.rx.free) % cfg.bufsizeRx
  estab : c.state = .estab →
    ((elements c.story.pieces).length : Int) =
        c.story.returned.length + (cfg.bufsizeRx - c.rx.free) ∧
      c.rcvNXT = c.story.irs + 1 + BitVec.ofNat 32 c.story.returned.length +
        BitVec.ofInt 32 (cfg.bufsizeRx - c.rx.free)

theorem Idle.stream (h : Idle c) : Stream cfg c := by
  constructor
  all_goals simp [h.story, h.rx, h.state, Xqueue.zero, Gapless]

theorem Received.stream (h : Received cfg c) : Stream cfg c := by
  have hfree := h.carries.free
  refine ⟨h.returned, h.gapless, h.carries.nonneg, h.carries.free_le, ?_, fun hst => ?_⟩
  · rw [h.carries.wr, h.carries.rd, Int.natCast_mod, Int.natCast_mod, ← Int.sub_emod]
    congr 1
    omega
  · obtain ⟨hended, hnxt⟩ := h.taking (by simp [hst, Tcp.taking])
    simp only [stored, h.late hended, elements_nil, List.append_nil] at hfree
    have hlength : ((elements c.story.pieces).length : Int) =
        c.story.returned.length + (cfg.bufsizeRx - c.rx.free) := by omega
    refine ⟨hlength, ?_⟩
    have hle := h.carries.free_le
    obtain ⟨k, hk⟩ := Int.eq_ofNat_of_zero_le (show 0 ≤ cfg.bufsizeRx - c.rx.free by omega)
    rw [hk] at hlength ⊢
    rw [hnxt, BitVec.ofInt_natCast, ofNat_add_ofNat]
    congr 2
    omega

end Stream

section Served

-- What a read that waits gets from a segment, whatever else is in it.
structure Served (env : Env) (seg : Segment) (c c' : TcpConnection) : Prop where
  fitting : 0 < fitting seg c.rx
  returned : c'.story.returned =
    c.story.returned ++ slice seg.payload 0 (min (Tcp.fitting seg c.rx) env.answer.count.toNat)
  notes : ∃ new, c'.log = c.log ++ new ∧ .token c.appWaiting .reading .ack ∈ new ∧
    ∀ x ∈ new, endOfStream x = false

theorem outward_not_end {x : Note} (hx : outward x) : endOfStream x = false := by
  cases x with
  | token => simp [hx.1]
  | _ => rfl

theorem incomingFIN_after_served (hs : c.appStatus = .notWaiting) :
    (incomingFIN c).story.returned = c.story.returned ∧
      ∃ new, (incomingFIN c).log = c.log ++ new ∧ ∀ x ∈ new, endOfStream x = false := by
  unfold incomingFIN
  dsimp only
  split
  all_goals simp [hs, TcpConnection.story]

theorem Received.served_store (h : Received cfg c) (hr : c.appStatus = .reading)
    (hcount : 0 ≤ env.answer.count) (hlength : 0 < seg.length) {b : Bool}
    (hs : Tcp.storeIncomingData cfg env seg c = some (b, c')) :
    Served env seg c c' ∧ c'.appStatus = .notWaiting := by
  obtain ⟨hst, -, hfree⟩ := h.reading hr
  have hlt := bufsizeRx_lt cfg
  have hpos := bufsizeRx_pos cfg
  have hfit : 0 < fitting seg c.rx := by
    rw [fitting]
    omega
  have hq : Carries cfg (Tcp.extended cfg seg c.rx) _ _ := h.carries.extended
  have hqfree : (Tcp.extended cfg seg c.rx).free = cfg.bufsizeRx - fitting seg c.rx := by
    simp [Tcp.extended, hfree]
  have hall : (stored c).length = c.story.returned.length := by
    have := h.carries.free
    omega
  obtain ⟨-, ⟨hkeeps, -⟩ | ⟨-, -, rfl⟩⟩ := storeIncomingData_some h.carries.rd_lt
    h.carries.wr_lt h.carries.nonneg (by omega) hs
  · exact absurd ⟨hr, by omega⟩ hkeeps
  · have hgiven : (given cfg env (Tcp.extended cfg seg c.rx)).toNat =
        min (fitting seg c.rx) env.answer.count.toNat := by
      rw [hq.given_eq, hqfree]
      omega
    have hread := hq.read hcount
    rw [← hall, List.drop_left, hgiven, slice_take, Nat.min_eq_left (Nat.min_le_left _ _)] at hread
    have hended := (h.taking (by simp [hst, Tcp.taking])).1
    simp only [TcpConnection.story] at hended
    refine ⟨⟨hfit, ?_, _, rfl, ?_, ?_⟩, rfl⟩
    · simp [TcpConnection.story, hended, hgiven, hread]
    · simp
    · simp

-- More notes before it and behind it.
theorem Served.extend {c₀ c₁ : TcpConnection} (h : Served env seg c c')
    (hbefore : Aside c₀ c) (hreturned : c'.story.returned = c₁.story.returned)
    (hafter : ∃ new, c₁.log = c'.log ++ new ∧ ∀ x ∈ new, endOfStream x = false) :
    Served env seg c₀ c₁ := by
  obtain ⟨new, hlog, htoken, hnew⟩ := h.notes
  obtain ⟨new₀, hlog₀, hnew₀⟩ := hbefore.notes
  obtain ⟨new₁, hlog₁, hnew₁⟩ := hafter
  have hsame := hbefore.receiving
  simp only [receiving, Prod.mk.injEq] at hsame
  obtain ⟨hrx, -, -, -, -, hret⟩ := hsame
  refine ⟨hrx ▸ h.fitting, ?_, new₀ ++ new ++ new₁, by simp [hlog₁, hlog, hlog₀], ?_, ?_⟩
  · rw [← hreturned, h.returned, hret, hrx]
  · rw [← hbefore.appWaiting]
    simp [htoken]
  · intro x hx
    simp only [List.mem_append] at hx
    rcases hx with (hx | hx) | hx
    · exact outward_not_end (hnew₀ x hx)
    · exact hnew x hx
    · exact hnew₁ x hx

theorem incomingRST_rcvNXT : (incomingRST c).rcvNXT = c.rcvNXT := by
  unfold incomingRST
  dsimp only
  split
  all_goals
    first
    | rfl
    | split <;> rfl

theorem incomingSYN_rcvNXT : (incomingSYN c).rcvNXT = c.rcvNXT := by
  unfold incomingSYN
  dsimp only
  split <;> rfl

theorem Received.served (h : Received cfg c) (hr : c.appStatus = .reading)
    (hcount : 0 ≤ env.answer.count) (hlength : 0 < seg.length)
    (hs : Tcp.incoming cfg env seg c = some c') (hnxt : c'.rcvNXT ≠ c.rcvNXT) :
    Served env seg c c' := by
  have hst := (h.reading hr).1
  cases incoming_cases hs with
  | closed hst' => simp [hst] at hst'
  | listen hst' => simp [hst] at hst'
  | synsent hst' => simp [hst] at hst'
  | timewait hst' => simp [hst] at hst'
  | synchronized _ hs =>
  cases hs with
  | outOfOrder => exact absurd rfl hnxt
  | reset => exact absurd incomingRST_rcvNXT hnxt
  | restart => exact absurd incomingSYN_rcvNXT hnxt
  | silent => exact absurd rfl hnxt
  | refused => exact absurd rfl hnxt
  | opened _ hst' => simp [hst] at hst'
  | acked hin hne ha =>
  have hoffered : Aside c (offered seg c) := by
    constructor <;> simp [receiving, TcpConnection.story]
  have ho := h.aside hoffered
  cases ha with
  | lastAck hst' => simp [hst] at hst'
  | duplicate => exact absurd rfl hnxt
  | beyond => exact absurd rfl hnxt
  | finwait2 _ htake => exact absurd (takeAck_aside htake).rcvNXT hnxt
  | @timewait c₂ _ htake hst₂ =>
    simp [(takeAck_aside htake).state, hst] at hst₂
  | @data c₂ c₃ b hw htake _ hst' hdata =>
    have haside := hoffered.trans (takeAck_aside htake)
    have hr₂ : c₂.appStatus = .reading := by
      rcases haside.appStatus with hs | ⟨hs, -⟩
      · exact hs.trans hr
      · rw [hr] at hs
        cases hs
    unfold Tcp.incomingData at hdata
    rw [if_pos (by omega)] at hdata
    obtain ⟨⟨b', c₄⟩, hstore, heq⟩ := Option.map_eq_some_iff.mp hdata
    obtain ⟨-, rfl⟩ := Prod.mk.inj heq
    obtain ⟨hserved, hquiet⟩ := (h.aside haside).served_store hr₂ hcount hlength hstore
    obtain ⟨new, hlog, hnew⟩ := (pipOutgoingTCP_aside (c := c₄) [] { ack := true }).notes
    obtain ⟨hreturned, new', hlog', hnew'⟩ :=
      incomingFIN_after_served (c := pipOutgoingTCP [] { ack := true } c₄) hquiet
    have hsame : (pipOutgoingTCP [] { ack := true } c₄).story.returned = c₄.story.returned := by
      simp [TcpConnection.story]
    refine hserved.extend haside ?_ ?_
    · split
      · exact (hreturned.trans hsame).symm
      · exact hsame.symm
    · split
      · refine ⟨new ++ new', by rw [hlog', hlog, List.append_assoc], fun x hx => ?_⟩
        exact (List.mem_append.mp hx).elim (fun hx => outward_not_end (hnew x hx)) (hnew' x)
      · exact ⟨new, hlog, fun x hx => outward_not_end (hnew x hx)⟩

end Served

section Runs

variable {n : Nat} {s : Stack n}

theorem received_of_run (h : Run cfg (Each Asks) s) (i : Fin n) :
    Idle (s.conns i) ∨ Received cfg (s.conns i) :=
  h.opened (fun _ c => .doAccept c) (fun _ _ _ _ _ c => .doConnect c)
    (fun _ _ _ _ hc hask _ hopens hact => hc.act hask hopens hact) i

theorem receive_stream (h : Run cfg (Each Asks) s) (i : Fin n) : Stream cfg (s.conns i) :=
  (received_of_run h i).elim Idle.stream Received.stream

-- Three bytes arrive and a read asks for two.
theorem receive_stream_of_read : ∃ s : Stack 1, Run small (Each Asks) s ∧
    (s.conns 0).story.returned = [7, 8] ∧ Stream small (s.conns 0) := by
  obtain ⟨s, hrun, hreturned⟩ := exists_run small (C := Asks)
    (P := fun s : Stack 1 => (s.conns 0).story.returned = [7, 8])
    [.request (during 100 2) 5 0 .accept,
      .segment (during 100 2) (packet 1000 0 { syn := true } []),
      .segment (during 100 2) (packet 1001 101 { ack := true } [7, 8, 9]),
      .request (during 100 2) 5 0 .read] (by decide)
  exact ⟨s, hrun, hreturned, receive_stream hrun 0⟩

-- Reads that come in CLOSEWAIT find in the ring only what came behind the FIN.
def AsksInTime (cfg : Config) (env : Env) (a : Act) (c : TcpConnection) : Prop :=
  Asks env a c ∧ (a matches .request _ .read → c.state = .closewait →
    cfg.bufsizeRx - c.rx.free = ((elements c.story.late).length : Int))

instance (env : Env) (a : Act) (c : TcpConnection) : Decidable (AsksInTime cfg env a c) :=
  inferInstanceAs (Decidable (_ ∧ _))

theorem Received.returned_all (h : Received cfg c)
    (hring : cfg.bufsizeRx - c.rx.free = ((elements c.story.late).length : Int)) :
    c.story.returned = elements c.story.pieces := by
  have hfree := h.carries.free
  rw [stored, List.length_append] at hfree
  exact h.returned.eq_of_length (by omega)

theorem received_of_asks_in_time (h : Run cfg (Each (AsksInTime cfg)) s) (i : Fin n) :
    Idle (s.conns i) ∨ Received cfg (s.conns i) :=
  received_of_run (h.mono fun _ _ _ hc => hc.1) i

theorem ends_of_run (h : Run cfg (Each (AsksInTime cfg)) s) (i : Fin n) :
    Tells endsAtEnd (s.conns i).log := by
  refine h.invariant_of (I := fun c => Tells endsAtEnd c.log)
    (J := fun c => Idle c ∨ Received cfg c) received_of_asks_in_time (fun _ => trivial) ?_ i
  intro env a c c' hr hends hc hdue hact
  refine ends_act hr hdue hc.1 ?_ hends hact
  rintro app rfl hst
  rcases hr with hidle | hr
  · rw [hidle.state] at hst
    cases hst
  · exact hr.returned_all (hc.2 rfl hst)

theorem no_data_lost_at_close (h : Run cfg (Each (AsksInTime cfg)) s) (i : Fin n) :
    Tells endsAtEnd (s.conns i).log ∧
      ∀ env seg c', (s.conns i).appStatus = .reading → 0 ≤ env.answer.count → 0 < seg.length →
        act cfg env (.segment seg) (s.conns i) = some c' →
        c'.rcvNXT ≠ (s.conns i).rcvNXT → Served env seg (s.conns i) c' := by
  refine ⟨ends_of_run h i, fun env seg c' hr hcount hlength hact hnxt => ?_⟩
  rcases received_of_asks_in_time h i with hidle | hreceived
  · rw [hidle.appStatus] at hr
    cases hr
  · have hclaim := claim_aside seg (s.conns i)
    have hr' : (claim seg (s.conns i)).appStatus = .reading := by
      rcases hclaim.appStatus with heq | ⟨heq, -⟩
      · exact heq.trans hr
      · rw [hr] at heq
        cases heq
    have hserved := (hreceived.aside hclaim).served hr' hcount hlength hact
      (by rwa [hclaim.rcvNXT])
    exact hserved.extend hclaim rfl ⟨[], by simp, nofun⟩

-- A read that waits, and a segment with data and FIN.
theorem data_kept_at_close : ∃ s : Stack 1, Run small (Each (AsksInTime small)) s ∧
    (s.conns 0).state = .closewait ∧ (s.conns 0).story.returned = [7, 8, 9] ∧
    Tells endsAtEnd (s.conns 0).log := by
  obtain ⟨s, hrun, hstate, hreturned⟩ := exists_run small (C := AsksInTime small)
    (P := fun s : Stack 1 =>
      (s.conns 0).state = .closewait ∧ (s.conns 0).story.returned = [7, 8, 9])
    [.request (during 100 4) 5 0 .accept,
      .segment (during 100 4) (packet 1000 0 { syn := true } []),
      .segment (during 100 4) (packet 1001 101 { ack := true } []),
      .request (during 100 4) 5 0 .read,
      .segment (during 100 4) (packet 1001 101 { ack := true, fin := true } [7, 8, 9]),
      .request (during 100 4) 5 0 .read] (by decide)
  exact ⟨s, hrun, hstate, hreturned, (no_data_lost_at_close hrun 0).1⟩

-- The FIN overtakes the reads.
theorem data_lost_at_close : ∃ s : Stack 1, Run small (Each Asks) s ∧
    ¬ Tells endsAtEnd (s.conns 0).log :=
  exists_run small
    [.request (during 100 4) 5 0 .accept,
      .segment (during 100 4) (packet 1000 0 { syn := true } []),
      .segment (during 100 4) (packet 1001 101 { ack := true } [7, 8, 9]),
      .segment (during 100 4) (packet 1004 101 { ack := true, fin := true } []),
      .request (during 100 4) 5 0 .read] (by decide)

end Runs

end Xtcp.Pip.Tcp
