import Xtcp.Sliding.Process

namespace Xtcp.Sliding
open Uip Channel Segment

-- What midpoint, a byte, can hold: the value itself or, for a multiple of 256, nothing.
def narrow (n : Nat) : Bool := n < 256 || n % 256 == 0

-- The bytes beyond the outstanding ones that the client gives when it is asked.
def given (client : Client) (w : Window) : Nat :=
  if refuses w then 0 else min client.len w.conn.mss - outstanding w

def halfFits (cfg : Config) (n : Nat) : Bool :=
  n == 0 || cfg.actualThreshold < n || narrow n

def ackFits (cfg : Config) (seg : Arrival) (client : Client) (w : Window) : Bool :=
  let diff := (ackDiff seg w).toNat
  let n := given client (received seg client (ackOutstanding seg w))
  narrow diff && (n == 0 || (diff < 256 && (diff != 0 || halfFits cfg n)))

def rexmitFits (client : Client) (w : Window) : Bool :=
  let n := min client.len w.conn.mss
  n == 0 || (w.midpoint == 0 && w.conn.len ≤ n && (n % 256 == 0 || n % 256 == w.conn.len))

def pollFits (cfg : Config) (client : Client) (w : Window) : Bool :=
  w.sendRequest == 0 || halfFits cfg (given client w)

def fits (cfg : Config) (w : Window) : Input → Bool
  | .segment seg client =>
      w.state != .established || !inOrder seg w || !acknowledges seg w || ackFits cfg seg client w
  | .checkConnectionPoll client =>
      w.state != .established || w.conn.len != 0 || pollFits cfg client w
  | .periodicTimer client =>
      w.state != .established ||
        if w.conn.len = 0 then pollFits cfg client w
        else w.conn.timer != 0 || w.conn.nrtx == maxRtx || rexmitFits client w
  | .commands _ => true

def careful (cfg : Config) (stream : Nat → Byte) : Window → List Input → Bool
  | _, [] => true
  | w, input :: inputs => fits cfg w input && careful cfg stream (step cfg stream w input) inputs

-- The segment carries at ISS + 1 + k the byte k of what was handed over, within the window.
def Right (stream : Nat → Byte) (iss : BitVec 32) (s : Sent) : Prop :=
  ∃ k, Placed stream (iss + 1) s.seqno s.data k ∧ k + s.data.length ≤ s.handed ∧
    s.handed ≤ k + 65535

structure Base (cfg : Config) (stream : Nat → Byte) (w : Window) : Prop where
  place : w.conn.sndNxt + BitVec.ofNat 32 w.conn.len = w.iss + 1 + BitVec.ofNat 32 w.handed
  sent : ∀ s ∈ w.wire, Right stream w.iss s
  mss : w.conn.mss ≤ cfg.tcpMss
  initialmss : w.conn.initialmss ≤ cfg.tcpMss
  len : w.conn.len ≤ cfg.tcpMss + 1

structure Steady (w : Window) : Prop where
  state : w.state = .established
  len : w.conn.len ≤ w.handed
  midpoint : w.midpoint = 0 ∨ w.midpoint.toNat = w.conn.len

structure Sync (cfg : Config) (stream : Nat → Byte) (w : Window) : Prop extends
    Base cfg stream w where
  steady : w.state = .established → Steady w
  opening : w.state = .synRcvd ∨ w.state = .synSent → w.conn.len = 1 ∧ w.handed = 0

variable {cfg : Config} {stream : Nat → Byte} {w w' : Window} {client : Client}

theorem Base.same (h : Base cfg stream w) (hsndNxt : w'.conn.sndNxt = w.conn.sndNxt)
    (hlen : w'.conn.len = w.conn.len) (hmss : w'.conn.mss ≤ cfg.tcpMss)
    (hinitialmss : w'.conn.initialmss ≤ cfg.tcpMss) (hiss : w'.iss = w.iss)
    (hhanded : w'.handed = w.handed) (hwire : w'.wire = w.wire) : Base cfg stream w' where
  place := by
    rw [hsndNxt, hlen, hiss, hhanded]
    exact h.place
  sent := by
    rw [hwire, hiss]
    exact h.sent
  mss := hmss
  initialmss := hinitialmss
  len := hlen ▸ h.len

theorem Steady.sync (h : Steady w) (hbase : Base cfg stream w) : Sync cfg stream w :=
  ⟨hbase, fun _ => h, fun hs => by simp [h.state] at hs⟩

theorem sync_serve (s : Served) (h : Sync cfg stream w) : Sync cfg stream (serve s w) :=
  ⟨h.toBase.same rfl rfl h.mss h.initialmss rfl rfl rfl,
    fun hs => ⟨hs, (h.steady hs).len, (h.steady hs).midpoint⟩, h.opening⟩

theorem doXtcpdSend_spec (stream : Nat → Byte) (client : Client) (hlen : w.conn.len ≤ w.handed) :
    ∃ buf s, doXtcpdSend stream client w = (given client w, buf, serve s w) ∧
      ∀ j, j < given client w → buf j = stream (w.handed + j) := by
  unfold doXtcpdSend given
  cases hr : refuses w with
  | true => exact ⟨client.buf, ⟨0, false⟩, by simp [serve], fun j hj => absurd hj (by simp)⟩
  | false =>
    have hout : outstanding w ≤ w.handed := by
      unfold outstanding
      split <;> omega
    have hchunk {j : Nat} (hj : j < min client.len w.conn.mss) :
        write client.buf (slice stream (w.handed - outstanding w) (min client.len w.conn.mss)) j =
          stream (w.handed - outstanding w + j) := getD_slice _ _ hj _
    simp only [Bool.false_eq_true, if_false, length_slice]
    generalize min client.len w.conn.mss = n at hchunk ⊢
    split
    · refine ⟨_, client.send, rfl, fun j hj => ?_⟩
      rw [memmove, if_pos hj, hchunk (by omega)]
      exact congrArg stream (by omega)
    · split
      · have hzero : n - outstanding w = 0 := by omega
        rw [hzero]
        exact ⟨_, client.send, rfl, fun j hj => absurd hj (Nat.not_lt_zero j)⟩
      · have hall : n - outstanding w = n := by omega
        rw [hall]
        refine ⟨_, client.send, rfl, fun j hj => ?_⟩
        rw [hchunk hj]
        exact congrArg stream (by omega)

theorem given_le (client : Client) (w : Window) (h : 0 < given client w) :
    given client w + w.conn.len ≤ w.conn.mss + 1 ∧ given client w ≤ w.conn.mss := by
  have hgiven : given client w ≤ min client.len w.conn.mss - outstanding w := by
    unfold given
    split
    · exact Nat.zero_le _
    · exact le_rfl
  by_cases hone : w.conn.len = 1
  · omega
  · have hout : outstanding w = w.conn.len := if_neg hone
    omega

theorem sent_splitOutput {doSplit : Bool} {seqno : BitVec 32} {data : List Byte} {k : Nat}
    (h : ∀ s ∈ w.wire, Right stream w.iss s) (hp : Placed stream (w.iss + 1) seqno data k)
    (hhanded : k + data.length ≤ w.handed) (hwindow : w.handed ≤ k + 65535) :
    ∀ s ∈ (splitOutput doSplit seqno data w).wire, Right stream w.iss s := by
  intro s hs
  unfold splitOutput at hs
  split at hs
  · rcases List.mem_append.mp hs with hs | hs
    · exact h s hs
    · have hlen : data.length / 2 / 4 * 4 ≤ data.length := by omega
      rcases List.mem_pair.mp hs with rfl | rfl
      · exact ⟨k, hp.take _, by simp only [List.length_take]; omega, hwindow⟩
      · refine ⟨_, hp.drop _, ?_, ?_⟩
        · simp only [List.length_drop]
          omega
        · show w.handed ≤ _
          omega
  · rcases List.mem_append.mp hs with hs | hs
    · exact h s hs
    · rw [List.mem_singleton] at hs
      subst hs
      exact ⟨k, hp, hhanded, hwindow⟩

theorem sent_tcpSend (doSplit : Bool) {slen len k : Nat} {buf : Nat → Byte}
    (h : ∀ s ∈ w.wire, Right stream w.iss s) (hslen : slen ≠ 0)
    (hseqno : w.conn.sndNxt + BitVec.ofNat 32 w.midpoint.toNat = w.iss + 1 + BitVec.ofNat 32 k)
    (hdata : slice buf 0 len = slice stream k len) (hhanded : k + len ≤ w.handed)
    (hwindow : w.handed ≤ k + 65535) :
    ∀ s ∈ (tcpSend doSplit slen len buf w).wire, Right stream w.iss s := by
  have hlen : k + (slice stream k len).length ≤ w.handed := by
    rw [length_slice]
    exact hhanded
  unfold tcpSend
  dsimp only
  rw [hdata]
  split
  · refine sent_splitOutput h (placed_slice ?_ len) hlen hwindow
    rw [← hseqno, BitVec.ofNat_toNat]
  next hmid =>
    have hzero : w.midpoint = 0 := by
      by_contra hne
      exact hmid ⟨hne, hslen⟩
    have hplaced : Placed stream (w.iss + 1) w.conn.sndNxt (slice stream k len) k := by
      refine placed_slice ?_ len
      rw [← hseqno, hzero]
      simp
    split <;> exact sent_splitOutput h hplaced hlen hwindow

theorem tcpSend_conn (doSplit : Bool) (slen len : Nat) (buf : Nat → Byte) (w : Window) :
    (tcpSend doSplit slen len buf w).conn = w.conn ∧ (tcpSend doSplit slen len buf w).iss = w.iss ∧
      (tcpSend doSplit slen len buf w).handed = w.handed := by
  unfold tcpSend splitOutput
  dsimp only
  split
  · split <;> exact ⟨rfl, rfl, rfl⟩
  · split <;> split <;> exact ⟨rfl, rfl, rfl⟩

theorem tcpSend_midpoint {doSplit : Bool} {slen len : Nat} {buf : Nat → Byte} (hslen : slen ≠ 0) :
    (tcpSend doSplit slen len buf w).midpoint =
      if w.midpoint ≠ 0 ∨ doSplit = true then 0 else BitVec.ofNat 8 slen := by
  unfold tcpSend splitOutput
  cases doSplit <;> by_cases hmid : w.midpoint = 0#8 <;> simp [hmid, hslen]

theorem narrow_midpoint {n : Nat} (h : narrow n = true) :
    BitVec.ofNat 8 n = 0 ∨ (BitVec.ofNat 8 n).toNat = n := by
  simp only [narrow, Bool.or_eq_true, decide_eq_true_eq, beq_iff_eq] at h
  rcases h with h | h
  · exact Or.inr (by simp [Nat.mod_eq_of_lt h])
  · exact Or.inl (BitVec.eq_of_toNat_eq (by simpa using h))

-- A segment goes out and with it the data up to handed is on its way.
theorem sync_tcpSend {doSplit : Bool} {slen len k : Nat} {buf : Nat → Byte}
    (hbase : Base cfg stream w) (hstate : w.state = .established) (hbehind : w.conn.len ≤ w.handed)
    (hslen : slen ≠ 0)
    (hseqno : w.conn.sndNxt + BitVec.ofNat 32 w.midpoint.toNat = w.iss + 1 + BitVec.ofNat 32 k)
    (hdata : slice buf 0 len = slice stream k len) (hhanded : k + len ≤ w.handed)
    (hwindow : w.handed ≤ k + 65535)
    (hmid : w.midpoint ≠ 0 ∨ doSplit = true ∨ BitVec.ofNat 8 slen = 0 ∨
      (BitVec.ofNat 8 slen).toNat = w.conn.len) :
    Sync cfg stream (tcpSend doSplit slen len buf w) := by
  obtain ⟨hconn, hiss, hh⟩ := tcpSend_conn doSplit slen len buf w
  have hsent := sent_tcpSend doSplit hbase.sent hslen hseqno hdata hhanded hwindow
  refine Steady.sync ⟨?_, ?_, ?_⟩ ⟨?_, ?_, ?_, ?_, ?_⟩
  · rw [Window.state, hconn]
    exact hstate
  · rw [hconn, hh]
    exact hbehind
  · rw [hconn, tcpSend_midpoint hslen]
    split
    · exact Or.inl rfl
    next hnot =>
      rw [not_or] at hnot
      exact (hmid.resolve_left hnot.1).resolve_left hnot.2
  · rw [hconn, hiss, hh]
    exact hbase.place
  · rw [hiss]
    exact hsent
  · rw [hconn]
    exact hbase.mss
  · rw [hconn]
    exact hbase.initialmss
  · rw [hconn]
    exact hbase.len

theorem sync_appsend {ackdata : Bool} {slen : Nat} {buf : Nat → Byte} (hbase : Base cfg stream w)
    (h : Steady w) (hbuf : ∀ j, j < slen → buf j = stream (w.handed + j))
    (hle : 0 < slen → slen + w.conn.len ≤ w.conn.mss + 1 ∧ slen ≤ w.conn.mss)
    (hfits : slen = 0 ∨ w.midpoint ≠ 0 ∨ w.conn.len = 0 ∧ halfFits cfg slen = true) :
    Sync cfg stream (appsend cfg ackdata slen buf (handOver slen w)) := by
  have htcpMss := cfg.fits
  have hmss := hbase.mss
  have hdata : slice buf 0 slen = slice stream w.handed slen :=
    slice_congr fun j hj => by rw [Nat.zero_add, hbuf j hj]
  by_cases hzero : slen = 0
  · subst hzero
    have hsame : appsend cfg ackdata 0 buf (handOver 0 w) =
        w.setConn fun c => { c with nrtx := 0 } := rfl
    rw [hsame]
    exact Steady.sync ⟨h.state, h.len, h.midpoint⟩
      (hbase.same rfl rfl hmss hbase.initialmss rfl rfl rfl)
  · obtain ⟨hlen, hslen⟩ := hle (by omega)
    have hpos : 0 < slen := by omega
    have hplace (len : Nat) (hl : len = w.conn.len) :
        w.conn.sndNxt + BitVec.ofNat 32 (len + slen) =
          w.iss + 1 + BitVec.ofNat 32 (w.handed + slen) := by
      rw [BitVec.ofNat_add, BitVec.ofNat_add, ← BitVec.add_assoc, ← BitVec.add_assoc, hl,
        hbase.place]
    by_cases hmid : w.midpoint = 0#8
    · obtain ⟨hnone, hhalf⟩ := (hfits.resolve_left hzero).resolve_left (by simpa using hmid)
      have hsend : appsend cfg ackdata slen buf (handOver slen w) =
          tcpSend (decide (cfg.actualThreshold < slen)) slen slen buf
            ((handOver slen w).setConn fun c => { c with nrtx := 0, len := slen }) := by
        have hmin : min slen w.conn.mss = slen := by omega
        cases ackdata <;>
          simp [appsend, handOver, Window.setConn, hpos, hmid, hnone, hmin, apprexmit]
      rw [hsend]
      refine sync_tcpSend (k := w.handed) ⟨?_, hbase.sent, hmss, hbase.initialmss, ?_⟩ h.state
        (Nat.le_add_left _ _) hzero ?_ hdata le_rfl ?_ (Or.inr ?_)
      · have hp := hplace 0 hnone.symm
        rwa [Nat.zero_add] at hp
      · show slen ≤ cfg.tcpMss + 1
        omega
      · have hp := hbase.place
        rw [hnone] at hp
        simpa [handOver, Window.setConn, hmid] using hp
      · show w.handed + slen ≤ w.handed + 65535
        omega
      · simp only [halfFits, Bool.or_eq_true, beq_iff_eq] at hhalf
        rcases hhalf with (hhalf | hhalf) | hhalf
        · exact absurd hhalf hzero
        · exact Or.inl hhalf
        · exact Or.inr (narrow_midpoint hhalf)
    · have hmidlen := h.midpoint.resolve_left hmid
      have hmod : (w.conn.len + slen) % 65536 = w.conn.len + slen := Nat.mod_eq_of_lt (by omega)
      have hsend : appsend cfg ackdata slen buf (handOver slen w) =
          tcpSend false slen slen buf
            ((handOver slen w).setConn fun c => { c with nrtx := 0, len := c.len + slen }) := by
        simp [appsend, handOver, Window.setConn, hpos, hmid, hmod]
      rw [hsend]
      refine sync_tcpSend (k := w.handed) ⟨hplace _ rfl, hbase.sent, hmss, hbase.initialmss, ?_⟩
        h.state (Nat.add_le_add_right h.len slen) hzero ?_ hdata le_rfl ?_ (Or.inl hmid)
      · show w.conn.len + slen ≤ cfg.tcpMss + 1
        omega
      · show w.conn.sndNxt + BitVec.ofNat 32 w.midpoint.toNat = _
        rw [hmidlen]
        exact hbase.place
      · show w.handed + slen ≤ w.handed + 65535
        omega

theorem sync_silent {buf : Nat → Byte} (hbase : Base cfg stream w) (h : Steady w) :
    Sync cfg stream (appsend cfg false 0 buf w) :=
  sync_appsend hbase h (fun j hj => absurd hj (Nat.not_lt_zero j))
    (fun hpos => absurd hpos (Nat.lt_irrefl 0)) (Or.inl rfl)

theorem ackConn_fields (ackno : BitVec 32) (diff : Nat) (c : TcpConn) :
    (ackConn ackno diff c).sndNxt = ackno ∧ (ackConn ackno diff c).len = diff ∧
      (ackConn ackno diff c).mss = c.mss ∧ (ackConn ackno diff c).initialmss = c.initialmss ∧
      (ackConn ackno diff c).tcpstateflags = c.tcpstateflags := by
  unfold ackConn
  dsimp only
  split <;> exact ⟨rfl, rfl, rfl, rfl, rfl⟩

theorem acknowledges_spec {seg : Arrival} (h : acknowledges seg w = true) :
    (ackDiff seg w).toNat < w.conn.len ∧
      seg.ackno + BitVec.ofNat 32 (ackDiff seg w).toNat =
        w.conn.sndNxt + BitVec.ofNat 32 w.conn.len ∧
      BitVec.ofInt 8 (ackDiff seg w) = BitVec.ofNat 8 (ackDiff seg w).toNat := by
  simp only [acknowledges, Bool.and_eq_true, decide_eq_true_eq] at h
  obtain ⟨⟨_, hpos⟩, hlt⟩ := h
  have hcast : ((ackDiff seg w).toNat : Int) = ackDiff seg w := Int.toNat_of_nonneg hpos
  refine ⟨by omega, ?_, ?_⟩
  · have hof : BitVec.ofNat 32 (ackDiff seg w).toNat =
        w.conn.sndNxt + BitVec.ofNat 32 w.conn.len - seg.ackno := by
      rw [← BitVec.ofInt_natCast, hcast]
      exact BitVec.ofInt_toInt
    rw [hof, BitVec.add_comm, BitVec.sub_add_cancel]
  · rw [← BitVec.ofInt_natCast, hcast]

theorem Base.ack (seg : Arrival) (h : Base cfg stream w) :
    Base cfg stream (ackOutstanding seg w) := by
  unfold ackOutstanding
  split
  next hack =>
    obtain ⟨hlt, hplace, _⟩ := acknowledges_spec hack
    obtain ⟨hsndNxt, hlen, hmss, hinitialmss, _⟩ :=
      ackConn_fields seg.ackno (ackDiff seg w).toNat w.conn
    refine ⟨?_, h.sent, ?_, ?_, ?_⟩
    · show (ackConn _ _ _).sndNxt + BitVec.ofNat 32 (ackConn _ _ _).len = _
      rw [hsndNxt, hlen, hplace]
      exact h.place
    · exact hmss.le.trans h.mss
    · exact hinitialmss.le.trans h.initialmss
    · have hl := h.len
      show (ackConn _ _ _).len ≤ _
      omega
  · exact h

theorem state_ack (seg : Arrival) (w : Window) : (ackOutstanding seg w).state = w.state := by
  unfold ackOutstanding
  split
  · exact congrArg TcpFlags.state (ackConn_fields seg.ackno (ackDiff seg w).toNat w.conn).2.2.2.2
  · rfl

theorem Steady.ack {seg : Arrival} (h : Steady w)
    (hnarrow : acknowledges seg w = true → narrow (ackDiff seg w).toNat = true) :
    Steady (ackOutstanding seg w) := by
  refine ⟨(state_ack seg w).trans h.state, ?_, ?_⟩
  · unfold ackOutstanding
    split
    next hack =>
      obtain ⟨hlt, _, _⟩ := acknowledges_spec hack
      have hl := h.len
      show (ackConn _ _ _).len ≤ w.handed
      rw [(ackConn_fields _ _ _).2.1]
      omega
    · exact h.len
  · unfold ackOutstanding
    split
    next hack =>
      obtain ⟨_, _, hmid⟩ := acknowledges_spec hack
      show BitVec.ofInt 8 (ackDiff seg w) = 0 ∨
        (BitVec.ofInt 8 (ackDiff seg w)).toNat = (ackConn _ _ _).len
      rw [hmid, (ackConn_fields _ _ _).2.1]
      exact narrow_midpoint (hnarrow hack)
    · exact h.midpoint

theorem received_conn (seg : Arrival) (client : Client) (w : Window) :
    (received seg client w).conn.len = w.conn.len := by
  unfold received xtcpdRecv
  split <;> rfl

theorem received_midpoint (seg : Arrival) (client : Client) (w : Window) :
    (received seg client w).midpoint = w.midpoint := by
  unfold received xtcpdRecv
  split <;> rfl

theorem received_spec (seg : Arrival) (client : Client) (hbase : Base cfg stream w)
    (h : Steady w) : Base cfg stream (received seg client w) ∧ Steady (received seg client w) := by
  have hmss : (takeWindow seg (addRcvNxt seg.len w)).conn.mss ≤ cfg.tcpMss := by
    have hinitialmss := hbase.initialmss
    show (if _ then _ else _) ≤ _
    split
    · exact hinitialmss
    · have := hbase.initialmss
      simp only [addRcvNxt, Window.setConn] at *
      omega
  unfold received xtcpdRecv
  split
  · exact ⟨hbase.same rfl rfl hmss hbase.initialmss rfl rfl rfl, h.state, h.len, h.midpoint⟩
  · exact ⟨hbase.same rfl rfl hmss hbase.initialmss rfl rfl rfl, h.state, h.len, h.midpoint⟩

theorem base_serve (s : Served) (h : Base cfg stream w) : Base cfg stream (serve s w) :=
  h.same rfl rfl h.mss h.initialmss rfl rfl rfl

theorem steady_serve (s : Served) (h : Steady w) : Steady (serve s w) :=
  ⟨h.state, h.len, h.midpoint⟩

end Xtcp.Sliding
