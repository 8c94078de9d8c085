import Xtcp.Sliding.Placement

namespace Xtcp.Sliding
open Uip Channel Segment

variable {cfg : Config} {stream : Nat → Byte} {w w' : Window} {client : Client}

theorem sync_establishedInput {seg : Arrival} (hbase : Base cfg stream w) (h : Steady w)
    (hfits : acknowledges seg w = true → ackFits cfg seg client w = true) :
    Sync cfg stream
      (establishedInput cfg stream seg client (acknowledges seg w) (ackOutstanding seg w)) := by
  have hsteady : Steady (ackOutstanding seg w) := h.ack fun hack => by
    have hf := hfits hack
    simp only [ackFits, Bool.and_eq_true] at hf
    exact hf.1
  obtain ⟨hb, hs⟩ := received_spec seg client (hbase.ack seg) hsteady
  unfold establishedInput
  dsimp only
  split
  next hack =>
    obtain ⟨buf, s, hsend, hbuf⟩ := doXtcpdSend_spec stream client hs.len
    rw [hsend]
    have hsum := given_le client (received seg client (ackOutstanding seg w))
    refine sync_appsend (base_serve s hb) (steady_serve s hs) hbuf hsum ?_
    have hf := hfits hack
    have hlen : (received seg client (ackOutstanding seg w)).conn.len = (ackDiff seg w).toNat := by
      rw [received_conn, ackOutstanding, if_pos hack]
      exact (ackConn_fields _ _ _).2.1
    have hmid : (received seg client (ackOutstanding seg w)).midpoint =
        BitVec.ofNat 8 (ackDiff seg w).toNat := by
      rw [received_midpoint, ackOutstanding, if_pos hack]
      exact (acknowledges_spec hack).2.2
    simp only [ackFits, Bool.and_eq_true, Bool.or_eq_true, beq_iff_eq, decide_eq_true_eq,
      bne_iff_ne] at hf
    rcases hf.2 with hzero | ⟨hlt, hhalf⟩
    · exact Or.inl hzero
    · by_cases hd : (ackDiff seg w).toNat = 0
      · exact Or.inr (Or.inr ⟨hlen.trans hd, hhalf.resolve_left (not_not_intro hd)⟩)
      · refine Or.inr (Or.inl ?_)
        show (received seg client (ackOutstanding seg w)).midpoint ≠ 0
        rw [hmid]
        intro heq
        have hnat := congrArg BitVec.toNat heq
        simp [Nat.mod_eq_of_lt hlt] at hnat
        exact hd (by omega)
  · split
    · exact sync_silent hb hs
    · exact hs.sync hb

theorem base_xtcpdRecv (len : Nat) (client : Client) (h : Base cfg stream w) :
    Base cfg stream (xtcpdRecv len client w) := by
  unfold xtcpdRecv
  split
  · exact base_serve _ h
  · exact h

theorem steady_xtcpdRecv (len : Nat) (client : Client) (h : Steady w) :
    Steady (xtcpdRecv len client w) := by
  unfold xtcpdRecv
  split
  · exact steady_serve _ h
  · exact h

-- Before the handshake is over nothing but the SYN is outstanding.
theorem opening_acked {seg : Arrival} (hlen : w.conn.len = 1)
    (hack : acknowledges seg w = true) : (ackOutstanding seg w).conn.len = 0 ∧
      (ackOutstanding seg w).midpoint = 0 := by
  obtain ⟨hlt, _, hmid⟩ := acknowledges_spec hack
  have hzero : (ackDiff seg w).toNat = 0 := by omega
  rw [ackOutstanding, if_pos hack]
  refine ⟨?_, ?_⟩
  · exact (ackConn_fields _ _ _).2.1.trans hzero
  · show BitVec.ofInt 8 (ackDiff seg w) = 0
    rw [hmid, hzero]
    rfl

theorem sync_synRcvdInput {seg : Arrival} (h : Sync cfg stream w) (hstate : w.state = .synRcvd) :
    Sync cfg stream
      (synRcvdInput cfg seg client (acknowledges seg w) (ackOutstanding seg w)) := by
  obtain ⟨hlen, hhanded⟩ := h.opening (Or.inl hstate)
  unfold synRcvdInput
  split
  next hack =>
    obtain ⟨hzero, hmid⟩ := opening_acked hlen hack
    have hbase := h.toBase.ack seg
    refine sync_silent (base_xtcpdRecv _ _ (base_serve _ ?_))
      (steady_xtcpdRecv _ _ (steady_serve _ ⟨rfl, Nat.zero_le _, Or.inl hmid⟩))
    exact hbase.same rfl hzero.symm hbase.mss hbase.initialmss rfl rfl rfl
  next hack =>
    rw [ackOutstanding, if_neg hack]
    exact h

theorem setMss_mss (mssOption : Option Nat) (h : Base cfg stream w) :
    (setMss cfg mssOption w).conn.mss ≤ cfg.tcpMss ∧
      (setMss cfg mssOption w).conn.initialmss ≤ cfg.tcpMss := by
  cases mssOption with
  | none => exact ⟨h.mss, h.initialmss⟩
  | some mss => exact ⟨Nat.min_le_right _ _, Nat.min_le_right _ _⟩

theorem setMss_fields (cfg : Config) (mssOption : Option Nat) (w : Window) :
    (setMss cfg mssOption w).conn.sndNxt = w.conn.sndNxt ∧
      (setMss cfg mssOption w).conn.len = w.conn.len ∧
      (setMss cfg mssOption w).midpoint = w.midpoint ∧ (setMss cfg mssOption w).iss = w.iss ∧
      (setMss cfg mssOption w).handed = w.handed ∧ (setMss cfg mssOption w).wire = w.wire ∧
      (setMss cfg mssOption w).state = w.state := by
  cases mssOption <;> exact ⟨rfl, rfl, rfl, rfl, rfl, rfl, rfl⟩

theorem sync_closed (h : Base cfg stream w) : Sync cfg stream (w.setState .closed) :=
  ⟨h.same rfl rfl h.mss h.initialmss rfl rfl rfl,
    fun hs => absurd hs nofun, fun hs => absurd hs (by rintro (hs | hs) <;> cases hs)⟩

theorem sync_synSentInput {seg : Arrival} (h : Sync cfg stream w) (hstate : w.state = .synSent) :
    Sync cfg stream
      (synSentInput cfg seg client (acknowledges seg w) (ackOutstanding seg w)) := by
  obtain ⟨hlen, hhanded⟩ := h.opening (Or.inr hstate)
  have hbase := h.toBase.ack seg
  unfold synSentInput
  split
  next hall =>
    simp only [Bool.and_eq_true] at hall
    obtain ⟨hzero, hmid⟩ := opening_acked hlen hall.1.1
    obtain ⟨hsnd, _, hmid', hiss, hhand, hwire, _⟩ :=
      setMss_fields cfg seg.mssOption (ackOutstanding seg w)
    obtain ⟨hmss, hinitialmss⟩ := setMss_mss seg.mssOption hbase
    refine sync_silent (base_serve _ ?_)
      (steady_serve _ ⟨rfl, Nat.zero_le _, Or.inl (hmid'.trans hmid)⟩)
    exact hbase.same hsnd hzero.symm hmss hinitialmss hiss hhand hwire
  next => exact sync_closed hbase

theorem sync_segmentInput {seg : Arrival} (h : Sync cfg stream w)
    (hfits : fits cfg w (.segment seg client) = true) :
    Sync cfg stream (segmentInput cfg stream seg client w) := by
  unfold segmentInput
  split
  next horder =>
    dsimp only
    have hbase := h.toBase.ack seg
    cases hstate : w.state with
    | synRcvd =>
      rw [state_ack, hstate]
      exact sync_synRcvdInput h hstate
    | synSent =>
      rw [state_ack, hstate]
      exact sync_synSentInput h hstate
    | established =>
      rw [state_ack, hstate]
      refine sync_establishedInput h.toBase (h.steady hstate) fun hack => ?_
      simpa [fits, hstate, horder, hack] using hfits
    | _ =>
      rw [state_ack, hstate]
      refine ⟨hbase, fun hs => ?_, fun hs => ?_⟩
      · rw [state_ack, hstate] at hs
        exact absurd hs (by decide)
      · rw [state_ack, hstate] at hs
        exact absurd hs (by decide)
  · exact h

theorem sync_poll (hbase : Base cfg stream w) (h : Steady w)
    (hfits : w.midpoint ≠ 0 ∨ w.conn.len = 0 ∧ pollFits cfg client w = true) :
    Sync cfg stream (poll cfg stream client w) := by
  unfold poll handlePoll
  by_cases hrequest : 0 < w.sendRequest
  · rw [if_pos hrequest]
    obtain ⟨buf, s, hsend, hbuf⟩ := doXtcpdSend_spec stream client h.len
    rw [hsend]
    refine sync_appsend (w := { serve s w with sendRequest := (serve s w).sendRequest - 1 })
      ((base_serve s hbase).same rfl rfl hbase.mss hbase.initialmss rfl rfl rfl)
      ⟨h.state, h.len, h.midpoint⟩ hbuf (given_le client w) ?_
    rcases hfits with hmid | ⟨hlen, hfits⟩
    · exact Or.inr (Or.inl hmid)
    · simp only [pollFits, Bool.or_eq_true, beq_iff_eq] at hfits
      exact Or.inr (Or.inr ⟨hlen, hfits.resolve_left (Nat.ne_of_gt hrequest)⟩)
  · rw [if_neg hrequest]
    exact sync_silent hbase h

theorem sync_pollConn (h : Sync cfg stream w)
    (hfits : fits cfg w (.checkConnectionPoll client) = true) :
    Sync cfg stream (pollConn cfg stream client w) := by
  unfold pollConn
  split
  next hpoll =>
    obtain ⟨hstate, hready⟩ := hpoll
    refine sync_poll h.toBase (h.steady hstate) ?_
    by_cases hmid : w.midpoint = 0
    · have hlen := hready.resolve_right (not_not_intro hmid)
      refine Or.inr ⟨hlen, ?_⟩
      simpa [fits, hstate, hlen] using hfits
    · exact Or.inl hmid
  · exact h

theorem sync_rexmit (hbase : Base cfg stream w) (h : Steady w)
    (hfits : rexmitFits client w = true) : Sync cfg stream (rexmit stream client w) := by
  have hb := base_serve client.send hbase
  have hs := steady_serve client.send h
  unfold rexmit apprexmit
  simp only [length_slice]
  split
  next hsome =>
    have hslen : min client.len w.conn.mss ≠ 0 := Nat.ne_of_gt hsome.1
    simp only [rexmitFits, Bool.or_eq_true, Bool.and_eq_true, beq_iff_eq, decide_eq_true_eq] at hfits
    obtain ⟨⟨hmid, hle⟩, hn⟩ := hfits.resolve_left hslen
    have hhanded := h.len
    have htcpMss := cfg.fits
    have hmss := hbase.mss
    refine sync_tcpSend (k := w.handed - w.conn.len) hb hs.state hs.len hslen ?_ ?_ ?_ ?_ ?_
    · have hmid' : (serve client.send w).midpoint = 0 := hmid
      rw [hmid']
      show w.conn.sndNxt + BitVec.ofNat 32 (0#8).toNat =
        w.iss + 1 + BitVec.ofNat 32 (w.handed - w.conn.len)
      have hp := hbase.place
      have hsplit : w.handed = w.handed - w.conn.len + w.conn.len := by omega
      rw [hsplit, BitVec.ofNat_add, ← BitVec.add_assoc] at hp
      simpa using (BitVec.add_left_inj _).mp hp
    · refine slice_congr fun j hj => ?_
      rw [Nat.zero_add]
      have hj' : j < w.conn.len := hj
      exact getD_slice _ _ (Nat.lt_of_lt_of_le hj' hle) _
    · show w.handed - w.conn.len + w.conn.len ≤ w.handed
      omega
    · show w.handed ≤ w.handed - w.conn.len + 65535
      omega
    · refine Or.inr (Or.inr ?_)
      rcases hn with hn | hn
      · exact Or.inl (BitVec.eq_of_toNat_eq (by simpa using hn))
      · refine Or.inr ?_
        rw [BitVec.toNat_ofNat]
        exact hn
  · exact hs.sync hb

theorem sync_outstandingTimer (h : Sync cfg stream w)
    (hfits : w.state = .established → w.conn.timer = 0 → w.conn.nrtx ≠ maxRtx →
      rexmitFits client w = true) :
    Sync cfg stream (outstandingTimer stream client w) := by
  have hsame (f : TcpConn → TcpConn) (hf : (f w.conn).sndNxt = w.conn.sndNxt ∧
      (f w.conn).len = w.conn.len ∧ (f w.conn).mss = w.conn.mss ∧
      (f w.conn).initialmss = w.conn.initialmss ∧
      (f w.conn).tcpstateflags = w.conn.tcpstateflags) :
      Sync cfg stream (w.setConn f) := by
    obtain ⟨hsnd, hl, hm, hi, ht⟩ := hf
    have hst : (w.setConn f).state = w.state := congrArg TcpFlags.state ht
    refine ⟨h.toBase.same hsnd hl (hm.le.trans h.mss) (hi.le.trans h.initialmss) rfl rfl rfl,
      fun hs => ?_, fun hs => ?_⟩
    · have hold := h.steady (hst ▸ hs)
      exact ⟨hs, hl.le.trans hold.len, hold.midpoint.imp id fun hmid => hmid.trans hl.symm⟩
    · rw [hst] at hs
      obtain ⟨ho, hh⟩ := h.opening hs
      exact ⟨hl.trans ho, hh⟩
  have htick := hsame (fun c => { c with timer := c.timer - 1 }) ⟨rfl, rfl, rfl, rfl, rfl⟩
  unfold outstandingTimer
  dsimp only
  split
  next htimer =>
    split
    · exact sync_closed htick.toBase
    next hmax =>
      have hnext := hsame
        (fun c => { c with timer := rexmitTimer c.nrtx, nrtx := c.nrtx + 1 })
        ⟨rfl, rfl, rfl, rfl, rfl⟩
      split
      next hstate =>
        refine sync_rexmit hnext.toBase (hnext.steady hstate) ?_
        exact hfits hstate htimer fun heq => hmax (Or.inl heq)
      · exact hnext
  · exact htick

theorem sync_periodic (h : Sync cfg stream w)
    (hfits : fits cfg w (.periodicTimer client) = true) :
    Sync cfg stream (periodic cfg stream client w) := by
  unfold periodic
  split
  · split
    next hlen =>
      refine sync_outstandingTimer h fun hstate htimer hnrtx => ?_
      simpa [fits, hstate, hlen, htimer, hnrtx] using hfits
    next hlen =>
      have hzero := not_not.mp hlen
      split
      next hstate =>
        refine sync_poll h.toBase (h.steady hstate) (Or.inr ⟨hzero, ?_⟩)
        simpa [fits, hstate, hzero] using hfits
      · exact h
  · exact h

theorem sync_step {input : Input} (h : Sync cfg stream w) (hfits : fits cfg w input = true) :
    Sync cfg stream (step cfg stream w input) := by
  cases input with
  | segment seg client => exact sync_segmentInput h hfits
  | checkConnectionPoll client => exact sync_pollConn h hfits
  | periodicTimer client => exact sync_periodic h hfits
  | commands s => exact sync_serve s h

theorem sync_run {inputs : List Input} (h : Sync cfg stream w)
    (hcareful : careful cfg stream w inputs = true) :
    Sync cfg stream (run cfg stream w inputs) := by
  induction inputs generalizing w with
  | nil => exact h
  | cons input inputs ih =>
    simp only [careful, Bool.and_eq_true] at hcareful
    exact ih (sync_step h hcareful.1) hcareful.2

-- What an entry of uip_conns can hold when a connection takes it.
inductive Slot (cfg : Config) : Window → Prop where
  | fresh {w : Window} : w.conn.mss = 0 → w.conn.initialmss = 0 → Slot cfg w
  | opened {w : Window} (opening : Opening) : Slot cfg w → Slot cfg (openSlot cfg w opening)
  | stepped {w : Window} (stream : Nat → Byte) (input : Input) :
      Slot cfg w → Slot cfg (step cfg stream w input)
  | closed {w : Window} (st : TcpState) : Slot cfg w → Slot cfg (w.setState st)

structure Clamped (cfg : Config) (w : Window) : Prop where
  mss : w.conn.mss ≤ cfg.tcpMss
  initialmss : w.conn.initialmss ≤ cfg.tcpMss

def Keeps (w w' : Window) : Prop :=
  w'.conn.mss = w.conn.mss ∧ w'.conn.initialmss = w.conn.initialmss

theorem Keeps.trans {w'' : Window} (h : Keeps w w') (h' : Keeps w' w'') : Keeps w w'' :=
  ⟨h'.1.trans h.1, h'.2.trans h.2⟩

theorem Keeps.clamped (h : Keeps w w') (hw : Clamped cfg w) : Clamped cfg w' :=
  ⟨h.1.le.trans hw.mss, h.2.le.trans hw.initialmss⟩

theorem keeps_tcpSend (doSplit : Bool) (slen len : Nat) (buf : Nat → Byte) (w : Window) :
    Keeps w (tcpSend doSplit slen len buf w) := by
  have hconn := (tcpSend_conn doSplit slen len buf w).1
  exact ⟨congrArg TcpConn.mss hconn, congrArg TcpConn.initialmss hconn⟩

theorem keeps_apprexmit (doSplit : Bool) (slen : Nat) (buf : Nat → Byte) (w : Window) :
    Keeps w (apprexmit doSplit slen buf w) := by
  unfold apprexmit
  split
  · exact keeps_tcpSend _ _ _ _ _
  · exact ⟨rfl, rfl⟩

theorem keeps_appsend (cfg : Config) (ackdata : Bool) (slen : Nat) (buf : Nat → Byte)
    (w : Window) : Keeps w (appsend cfg ackdata slen buf w) := by
  unfold appsend
  dsimp only
  split
  · split
    · exact Keeps.trans ⟨rfl, rfl⟩ (keeps_tcpSend _ _ _ _ _)
    · split <;> split <;> exact Keeps.trans ⟨rfl, rfl⟩ (keeps_apprexmit _ _ _ _)
  · exact Keeps.trans ⟨rfl, rfl⟩ (keeps_apprexmit _ _ _ _)

theorem keeps_doXtcpdSend (stream : Nat → Byte) (client : Client) (w : Window) :
    Keeps w (doXtcpdSend stream client w).2.2 := by
  unfold doXtcpdSend
  dsimp only
  split
  · exact ⟨rfl, rfl⟩
  · split
    · exact ⟨rfl, rfl⟩
    · split <;> exact ⟨rfl, rfl⟩

theorem keeps_poll (cfg : Config) (stream : Nat → Byte) (client : Client) (w : Window) :
    Keeps w (poll cfg stream client w) := by
  unfold poll handlePoll
  by_cases hrequest : 0 < w.sendRequest
  · rw [if_pos hrequest]
    refine (keeps_doXtcpdSend stream client w).trans ?_
    exact Keeps.trans ⟨rfl, rfl⟩ (keeps_appsend _ _ _ _ _)
  · rw [if_neg hrequest]
    exact keeps_appsend _ _ _ _ _

theorem keeps_outstandingTimer (stream : Nat → Byte) (client : Client) (w : Window) :
    Keeps w (outstandingTimer stream client w) := by
  unfold outstandingTimer
  dsimp only
  split
  · split
    · exact ⟨rfl, rfl⟩
    · split
      · exact Keeps.trans ⟨rfl, rfl⟩ (keeps_apprexmit _ _ _ _)
      · exact ⟨rfl, rfl⟩
  · exact ⟨rfl, rfl⟩

theorem keeps_ackOutstanding (seg : Arrival) (w : Window) : Keeps w (ackOutstanding seg w) := by
  unfold ackOutstanding
  split
  · obtain ⟨_, _, hmss, hinitialmss, _⟩ := ackConn_fields seg.ackno (ackDiff seg w).toNat w.conn
    exact ⟨hmss, hinitialmss⟩
  · exact ⟨rfl, rfl⟩

theorem keeps_xtcpdRecv (len : Nat) (client : Client) (w : Window) :
    Keeps w (xtcpdRecv len client w) := by
  unfold xtcpdRecv
  split <;> exact ⟨rfl, rfl⟩

theorem clamped_setMss (mssOption : Option Nat) (h : Clamped cfg w) :
    Clamped cfg (setMss cfg mssOption w) := by
  cases mssOption with
  | none => exact h
  | some mss => exact ⟨Nat.min_le_right _ _, Nat.min_le_right _ _⟩

theorem clamped_received (seg : Arrival) (client : Client) (h : Clamped cfg w) :
    Clamped cfg (received seg client w) := by
  have hinitialmss := h.initialmss
  refine (keeps_xtcpdRecv _ _ _).clamped ⟨?_, hinitialmss⟩
  show (if _ then _ else _) ≤ _
  split
  · exact hinitialmss
  next hwnd =>
    have hle : seg.wnd ≤ w.conn.initialmss := Nat.not_lt.mp fun hlt => hwnd (Or.inl hlt)
    exact hle.trans hinitialmss

theorem clamped_synRcvdInput (seg : Arrival) (client : Client) (acked : Bool)
    (h : Clamped cfg w) : Clamped cfg (synRcvdInput cfg seg client acked w) := by
  unfold synRcvdInput
  split
  · refine (keeps_appsend _ _ _ _ _).clamped ((keeps_xtcpdRecv _ _ _).clamped ?_)
    exact ⟨h.mss, h.initialmss⟩
  · exact h

theorem clamped_synSentInput (seg : Arrival) (client : Client) (acked : Bool)
    (h : Clamped cfg w) : Clamped cfg (synSentInput cfg seg client acked w) := by
  unfold synSentInput
  split
  · obtain ⟨hmss, hinitialmss⟩ := clamped_setMss seg.mssOption h
    refine (keeps_appsend _ _ _ _ _).clamped ?_
    exact ⟨hmss, hinitialmss⟩
  · exact ⟨h.mss, h.initialmss⟩

theorem clamped_establishedInput (seg : Arrival) (client : Client) (acked : Bool)
    (h : Clamped cfg w) : Clamped cfg (establishedInput cfg stream seg client acked w) := by
  have hreceived := clamped_received seg client h
  unfold establishedInput
  dsimp only
  split
  · obtain ⟨hmss, hinitialmss⟩ := (keeps_doXtcpdSend stream client _).clamped hreceived
    refine (keeps_appsend _ _ _ _ _).clamped ?_
    exact ⟨hmss, hinitialmss⟩
  · split
    · exact (keeps_appsend _ _ _ _ _).clamped hreceived
    · exact hreceived

theorem clamped_segmentInput (seg : Arrival) (client : Client) (h : Clamped cfg w) :
    Clamped cfg (segmentInput cfg stream seg client w) := by
  have hack := (keeps_ackOutstanding seg w).clamped h
  unfold segmentInput
  split
  · dsimp only
    split
    · exact clamped_synRcvdInput seg client _ hack
    · exact clamped_synSentInput seg client _ hack
    · exact clamped_establishedInput seg client _ hack
    · exact hack
  · exact h

theorem clamped_step (input : Input) (h : Clamped cfg w) :
    Clamped cfg (step cfg stream w input) := by
  cases input with
  | segment seg client => exact clamped_segmentInput seg client h
  | checkConnectionPoll client =>
    show Clamped cfg (pollConn cfg stream client w)
    unfold pollConn
    split
    · exact (keeps_poll _ _ _ _).clamped h
    · exact h
  | periodicTimer client =>
    show Clamped cfg (periodic cfg stream client w)
    unfold periodic
    split
    · split
      · exact (keeps_outstandingTimer _ _ _).clamped h
      · split
        · exact (keeps_poll _ _ _ _).clamped h
        · exact h
    · exact h
  | commands s => exact ⟨h.mss, h.initialmss⟩

theorem Slot.clamped (h : Slot cfg w) : Clamped cfg w := by
  induction h with
  | fresh hmss hinitialmss =>
    exact ⟨hmss ▸ Nat.zero_le _, hinitialmss ▸ Nat.zero_le _⟩
  | opened opening _ ih =>
    cases opening with
    | listen iss seg => exact clamped_setMss seg.mssOption ⟨ih.mss, ih.initialmss⟩
    | connect iss ripaddr lport rport => exact ⟨le_rfl, le_rfl⟩
  | stepped stream input _ ih => exact clamped_step input ih
  | closed st _ ih => exact ⟨ih.mss, ih.initialmss⟩

theorem sync_openSlot (stream : Nat → Byte) (opening : Opening) (h : Slot cfg w) :
    Sync cfg stream (openSlot cfg w opening) := by
  obtain ⟨hmss, hinitialmss⟩ := h.clamped
  have hone (iss : BitVec 32) : iss + BitVec.ofNat 32 1 = iss + 1 + BitVec.ofNat 32 0 :=
    (BitVec.add_zero _).symm
  cases opening with
  | listen iss seg =>
    cases hopt : seg.mssOption with
    | none =>
      simp only [openSlot, foundListen, setMss, hopt]
      exact ⟨⟨hone iss, fun s hs => absurd hs List.not_mem_nil, hmss, hinitialmss,
        Nat.le_add_left _ _⟩, fun hs => absurd hs nofun, fun _ => ⟨rfl, rfl⟩⟩
    | some mss =>
      simp only [openSlot, foundListen, setMss, hopt]
      exact ⟨⟨hone iss, fun s hs => absurd hs List.not_mem_nil, Nat.min_le_right _ _,
        Nat.min_le_right _ _, Nat.le_add_left _ _⟩, fun hs => absurd hs nofun,
        fun _ => ⟨rfl, rfl⟩⟩
  | connect iss ripaddr lport rport =>
    exact ⟨⟨hone iss, fun s hs => absurd hs List.not_mem_nil, le_rfl, le_rfl,
      Nat.le_add_left _ _⟩, fun hs => absurd hs nofun, fun _ => ⟨rfl, rfl⟩⟩

theorem stream_placed (cfg : Config) (stream : Nat → Byte) (w : Window) (opening : Opening)
    (inputs : List Input) (hslot : Slot cfg w)
    (hcareful : careful cfg stream (openSlot cfg w opening) inputs = true) :
    (∀ s ∈ (run cfg stream (openSlot cfg w opening) inputs).wire,
        Right stream (run cfg stream (openSlot cfg w opening) inputs).iss s) ∧
      (run cfg stream (openSlot cfg w opening) inputs).conn.sndNxt +
          BitVec.ofNat 32 (run cfg stream (openSlot cfg w opening) inputs).conn.len =
        (run cfg stream (openSlot cfg w opening) inputs).iss + 1 +
          BitVec.ofNat 32 (run cfg stream (openSlot cfg w opening) inputs).handed := by
  have h := sync_run (sync_openSlot stream opening hslot) hcareful
  exact ⟨h.sent, h.place⟩

def defaultBuild : Config := ⟨1472, 763, by decide⟩

def zeroSlot : Window :=
  ⟨⟨⟨0, 0, 0, 0⟩, 0, 0, 0, 0, 0, 0, 0, 0, 0, 0, ⟨.closed, false⟩, 0, 0⟩, 0, false, 0, 0, 0, []⟩

def passiveOpen : Opening :=
  .listen 1000 ⟨⟨10, 0, 0, 1⟩, 2000, 80, 500, 0, false, true, false, false, false, false, 4096,
    0, 0, some 1460⟩

def gives (len : Nat) : Client := ⟨⟨0, false⟩, ⟨0, false⟩, len, fun _ => 0⟩

def acks (ackno : BitVec 32) : Arrival := ⟨501, ackno, false, true, 0, 4096, none⟩

def halfPacket : List Input :=
  [.segment (acks 1001) (gives 0), .commands ⟨1, true⟩, .checkConnectionPoll (gives 10)]

def count : Nat → Byte := BitVec.ofNat 8

def ran (inputs : List Input) : Window :=
  run defaultBuild count (openSlot defaultBuild zeroSlot passiveOpen) (halfPacket ++ inputs)

-- The second half goes out, the first is acknowledged, and more follows with that.
def secondHalf : List Input :=
  [.checkConnectionPoll (gives 25), .segment (acks 1011) (gives 20), .segment (acks 1031) (gives 0)]

theorem stream_placed_second_half :
    (∀ s ∈ (ran secondHalf).wire, Right count (ran secondHalf).iss s) ∧
      (ran secondHalf).conn.sndNxt + BitVec.ofNat 32 (ran secondHalf).conn.len =
        (ran secondHalf).iss + 1 + BitVec.ofNat 32 (ran secondHalf).handed ∧
      (ran secondHalf).wire.map (fun s => (s.seqno, s.data.length)) =
        [(1001, 10), (1011, 15), (1026, 5)] := by
  have hcareful : careful defaultBuild count (openSlot defaultBuild zeroSlot passiveOpen)
      (halfPacket ++ secondHalf) = true := by decide +kernel
  obtain ⟨hsent, hplace⟩ := stream_placed defaultBuild count zeroSlot passiveOpen
    (halfPacket ++ secondHalf) (.fresh rfl rfl) hcareful
  exact ⟨hsent, hplace, by decide +kernel⟩

-- Nothing is acknowledged, and the client resends the half packet.
def resent : List Input := List.replicate 4 (.periodicTimer (gives 10))

theorem half_packet_resent_late :
    Slot defaultBuild zeroSlot ∧
      ∃ s ∈ (ran resent).wire, ¬ Right count (ran resent).iss s := by
  refine ⟨.fresh rfl rfl, ⟨1011, Segment.slice count 0 10, 10⟩, by decide +kernel, ?_⟩
  rintro ⟨k, hp, hle, _⟩
  have hk : k = 0 := by
    have hle' : k + 10 ≤ 10 := hle
    omega
  have hiss : (ran resent).iss = 1000 := by decide +kernel
  have hseqno : (1011 : BitVec 32) = (ran resent).iss + 1 + BitVec.ofNat 32 k := hp.seqno
  rw [hk, hiss] at hseqno
  exact absurd hseqno (by decide)

end Xtcp.Sliding
