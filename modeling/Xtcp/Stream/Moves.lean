import Mathlib.Logic.Relation
import Xtcp.Library.Memory
import Xtcp.Stream.Process

namespace Xtcp.Stream
open Uip Channel Segment Relation

-- What the stream depends on is as it was.
structure Same (e e' : Endpoint) : Prop where
  state : e'.state = e.state
  sndNxt : e'.conn.sndNxt = e.conn.sndNxt
  rcvNxt : e'.conn.rcvNxt = e.conn.rcvNxt
  len : e'.conn.len = e.conn.len
  mss : e'.conn.mss = e.conn.mss
  handed : e'.handed = e.handed
  received : e'.received = e.received
  wire : e'.wire = e.wire

structure Numbered (e : Endpoint) (p : Packet) : Prop where
  seqno : p.seg.seqno = e.conn.sndNxt
  ackno : p.seg.ackno = e.conn.rcvNxt

def hand (n : Nat) (e : Endpoint) : Endpoint :=
  { e.setConn (fun c => { c with len := n }) with handed := e.handed + n }

def take (data : List Byte) (e : Endpoint) : Endpoint :=
  { addRcvNxt data.length e with received := e.received ++ data }

def settle (e : Endpoint) : Endpoint :=
  e.setConn fun c => { c with sndNxt := c.sndNxt + BitVec.ofNat 32 c.len, len := 0 }

-- What one call of the stack can do with what is at hand, p, one after the other.
inductive Move (stream : Nat → Byte) (p : Option Packet) : Endpoint → Endpoint → Prop where
  | quiet {e e' : Endpoint} : Same e e' → Move stream p e e'
  | window (e : Endpoint) (mss : Nat) : Move stream p e (e.setConn fun c => { c with mss := mss })
  | leave {e e' : Endpoint} : e'.state ≠ .established → Move stream p e e'
  | hand (e : Endpoint) (n : Nat) : e.conn.len = 0 → Move stream p e (hand n e)
  | send (e : Endpoint) (q : Packet) : Numbered e q →
      q.data = [] ∨ q.data = slice stream (e.handed - e.conn.len) e.conn.len →
      Move stream p e { e with wire := e.wire ++ [q] }
  | take (e : Endpoint) (q : Packet) : p = some q → q.data ≠ [] → q.seg.seqno = e.conn.rcvNxt →
      Move stream p e (take q.data e)
  | acked (e : Endpoint) (q : Packet) : p = some q → acknowledges q.seg e = true →
      Move stream p e (settle e)

abbrev Moves (stream : Nat → Byte) (p : Option Packet) : Endpoint → Endpoint → Prop :=
  ReflTransGen (Move stream p)

theorem Same.refl (e : Endpoint) : Same e e := ⟨rfl, rfl, rfl, rfl, rfl, rfl, rfl, rfl⟩

theorem Same.trans {e e' e'' : Endpoint} (h : Same e e') (h' : Same e' e'') : Same e e'' :=
  ⟨h'.state.trans h.state, h'.sndNxt.trans h.sndNxt, h'.rcvNxt.trans h.rcvNxt, h'.len.trans h.len,
    h'.mss.trans h.mss, h'.handed.trans h.handed, h'.received.trans h.received,
    h'.wire.trans h.wire⟩

section Same

variable {e : Endpoint}

theorem same_setStopped (e : Endpoint) (stopped : Bool) : Same e (e.setStopped stopped) :=
  ⟨rfl, rfl, rfl, rfl, rfl, rfl, rfl, rfl⟩

theorem same_request (e : Endpoint) (r : Request) : Same e (request e r) := by
  cases r <;> exact ⟨rfl, rfl, rfl, rfl, rfl, rfl, rfl, rfl⟩

theorem same_serve (rs : List Request) (e : Endpoint) : Same e (serve rs e) := by
  induction rs generalizing e with
  | nil => exact .refl e
  | cons r rs ih => exact (same_request e r).trans (ih (request e r))

theorem serve_handOver (rs : List Request) (n : Nat) (e : Endpoint) :
    serve rs (handOver n e) = handOver n (serve rs e) := by
  induction rs generalizing e with
  | nil => rfl
  | cons r rs ih =>
    have hrequest : request (handOver n e) r = handOver n (request e r) := by
      cases r <;> rfl
    rw [serve, List.foldl_cons, hrequest]
    exact ih (request e r)

end Same

section Calls

variable {stream : Nat → Byte} {p : Option Packet} {cfg : Config} {e e' : Endpoint}

theorem Same.moves (h : Same e e') : Moves stream p e e' := .single (.quiet h)

theorem moves_leave (h : e'.state ≠ .established) : Moves stream p e e' := .single (.leave h)

theorem moves_tcpSend (flags : Ctl) {data : List Byte}
    (hdata : data = [] ∨ data = slice stream (e.handed - e.conn.len) e.conn.len) :
    Moves stream p e (tcpSend cfg flags data e) :=
  .single (.send e ⟨sentSegment cfg e.conn flags data.length e.hostaddr, data⟩ ⟨rfl, rfl⟩ hdata)

theorem moves_apprexmit (newdata : Bool) {slen : Nat} {buf : Nat → Byte}
    (hbuf : 0 < slen → slice buf 0 e.conn.len = slice stream (e.handed - e.conn.len) e.conn.len) :
    Moves stream p e (apprexmit cfg newdata slen buf e) := by
  unfold apprexmit
  split_ifs with hslen
  · exact moves_tcpSend .ackPsh (.inr (hbuf hslen.1))
  · exact moves_tcpSend .ackOnly (.inl rfl)
  · exact .refl

theorem slice_write {buf : Nat → Byte} {data : List Byte} {n : Nat} (h : n = data.length) :
    slice (write buf data) 0 n = data := by
  subst h
  refine List.ext_getElem (length_slice _ _ _) fun j _ hj => ?_
  have hget : (slice (write buf data) 0 data.length).getD j 0 = data.getD j (buf j) := by
    rw [getD_slice _ _ hj, Nat.zero_add]
    rfl
  rwa [List.getD_eq_getElem _ _ (by rwa [length_slice]), List.getD_eq_getElem _ _ hj] at hget

-- The client's chunk has just been handed over, when nothing was on the way.
theorem moves_appsend (flags : Flags) {slen : Nat} {buf : Nat → Byte}
    (hlen : 0 < slen → e.conn.len = 0 ∧ slen ≤ e.conn.mss)
    (hbuf : slice buf 0 slen = slice stream e.handed slen) :
    Moves stream p e (appsend cfg flags slen buf (handOver slen e)) := by
  have hsend {e' : Endpoint} {n : Nat} (hslen : 0 < slen) (hn : n = slen)
      (hsame : Same (hand slen e) e') :
      Moves stream p e (apprexmit cfg flags.newdata n buf e') := by
    have hhand : Moves stream p e (hand slen e) := .single (.hand e slen (hlen hslen).1)
    refine hhand.trans (hsame.moves.trans (moves_apprexmit flags.newdata fun _ => ?_))
    rw [hsame.len, hsame.handed]
    change slice buf 0 slen = slice stream (e.handed + slen - slen) slen
    rw [Nat.add_sub_cancel]
    exact hbuf
  rw [appsend]
  by_cases habort : flags.abort = true
  · rw [if_pos habort]
    exact moves_leave (fun h => TcpState.noConfusion h)
  rw [if_neg habort]
  by_cases hclose : flags.close = true
  · rw [if_pos hclose]
    exact moves_leave (fun h => TcpState.noConfusion h)
  rw [if_neg hclose]
  by_cases hslen : 0 < slen
  · have hmin : min slen e.conn.mss = slen := Nat.min_eq_left (hlen hslen).2
    rw [if_pos hslen]
    cases flags.ackdata with
    | true =>
      rw [if_pos rfl]
      dsimp only
      split
      · exact hsend hslen hmin ⟨rfl, rfl, rfl, hmin, rfl, rfl, rfl, rfl⟩
      next hne => exact absurd rfl hne
    | false =>
      rw [if_neg Bool.false_ne_true]
      dsimp only
      split
      · exact hsend hslen hmin ⟨rfl, rfl, rfl, hmin, rfl, rfl, rfl, rfl⟩
      next hne => exact absurd (hlen hslen).1 hne
  · rw [if_neg hslen]
    have hzero : slen = 0 := by omega
    subst hzero
    have hsame : Same e ((handOver 0 e).setConn fun c => { c with nrtx := 0 }) :=
      ⟨rfl, rfl, rfl, rfl, rfl, rfl, rfl, rfl⟩
    exact hsame.moves.trans (moves_apprexmit _ fun h => absurd h (Nat.lt_irrefl 0))

-- The chunk that the client gives when it is asked.
theorem chunk_spec (stream : Nat → Byte) (client : Client) (e : Endpoint) :
    let r := doXtcpdSend stream client e
    r.1 ≤ e.conn.mss ∧ slice r.2.1 0 r.1 = slice stream e.handed r.1 ∧ Same e r.2.2 := by
  have hlength : (slice stream e.handed (min client.len e.conn.mss)).length =
      min client.len e.conn.mss := length_slice _ _ _
  refine ⟨?_, ?_, same_serve client.send e⟩
  · rw [doXtcpdSend, hlength]
    exact Nat.min_le_right _ _
  · rw [doXtcpdSend, slice_write rfl, hlength]

theorem same_xtcpdRecv (data : List Byte) (client : Client) (e : Endpoint) :
    Same { e with received := e.received ++ data } (xtcpdRecv data client e) := by
  have hserve := same_serve client.recv e
  have hreceived : Same { e with received := e.received ++ data }
      { serve client.recv e with received := (serve client.recv e).received ++ data } :=
    { hserve with received := congrArg (· ++ data) hserve.received }
  unfold xtcpdRecv
  dsimp only
  split_ifs
  · exact hreceived.trans (same_setStopped _ true)
  · exact hreceived

-- What the call of the application for a segment amounts to, up to the client's chunk.
structure Called (stream : Nat → Byte) (flags : Flags) (data : List Byte) (e : Endpoint)
    (r : Nat × (Nat → Byte) × Endpoint) : Prop where
  asked : flags.ackdata = false → r.1 = 0
  mss : r.1 ≤ e.conn.mss
  chunk : slice r.2.1 0 r.1 = slice stream e.handed r.1
  rest : ∃ e', r.2.2 = handOver r.1 e' ∧
    Same (if flags.newdata then { e with received := e.received ++ data } else e) e'

theorem called_appcall (q : Packet) (client : Client) (flags : Flags) (e : Endpoint) :
    Called stream flags q.data e (appcall cfg stream q client flags e) := by
  obtain ⟨e₁, he₁⟩ : ∃ e₁, e₁ = if flags.newdata then xtcpdRecv q.data client e else e := ⟨_, rfl⟩
  have hsame : Same (if flags.newdata then { e with received := e.received ++ q.data } else e)
      e₁ := by
    rw [he₁]
    cases flags.newdata with
    | true => exact same_xtcpdRecv q.data client e
    | false => exact .refl e
  have hmss : e₁.conn.mss = e.conn.mss := by
    rw [hsame.mss]
    cases flags.newdata <;> rfl
  have hhanded : e₁.handed = e.handed := by
    rw [hsame.handed]
    cases flags.newdata <;> rfl
  have hpush (b : Bool) (n : Nat) (e' : Endpoint) :
      ∃ e'', (if b then serve client.push (handOver n e') else handOver n e') = handOver n e'' ∧
        Same e' e'' := by
    cases b with
    | false => exact ⟨e', rfl, .refl e'⟩
    | true => exact ⟨serve client.push e', serve_handOver _ _ _, same_serve _ _⟩
  unfold appcall
  dsimp only
  rw [← he₁]
  cases hack : flags.ackdata with
  | false =>
    obtain ⟨e', heq, hsame'⟩ := hpush (cfg.pushNotification && flags.push) 0 e₁
    exact ⟨fun _ => rfl, Nat.zero_le _, rfl, e', heq, hsame.trans hsame'⟩
  | true =>
    obtain ⟨hle, hchunk, hsend⟩ := chunk_spec stream client e₁
    obtain ⟨e', heq, hsame'⟩ := hpush (cfg.pushNotification && flags.push)
      (doXtcpdSend stream client e₁).1 (doXtcpdSend stream client e₁).2.2
    exact ⟨fun h => Bool.noConfusion (hack.symm.trans h), hmss ▸ hle, hhanded ▸ hchunk, e', heq,
      (hsame.trans hsend).trans hsame'⟩

theorem moves_finInput (q : Packet) (client : Client) (acked : Bool) :
    Moves stream p e (finInput cfg stream q client acked e) := by
  unfold finInput
  split_ifs
  · exact .refl
  · exact moves_leave (fun h => TcpState.noConfusion h)

theorem moves_establishedInput {q : Packet} (client : Client) {acked : Bool}
    (hacked : acked = true → e.conn.len = 0)
    (hseqno : q.data ≠ [] → q.seg.seqno = e.conn.rcvNxt) :
    Moves stream (some q) e (establishedInput cfg stream q client acked e) := by
  unfold establishedInput
  split
  · exact moves_finInput q client acked
  dsimp only
  generalize hnew : (!q.data.isEmpty && (cfg.acceptAfterPause || !e.stopped)) = newdata
  generalize hflags : { Flags.none with
    ackdata := acked, newdata := newdata, push := q.seg.psh } = flags
  obtain ⟨f, hf⟩ : ∃ f, f = takeWindow q.seg
      (if newdata = true then addRcvNxt q.data.length e else e) := ⟨_, rfl⟩
  have htaken : Moves stream (some q) e
      (if newdata = true then { f with received := f.received ++ q.data } else f) := by
    cases newdata with
    | true =>
      have hdata : q.data ≠ [] := by
        rintro hnil
        rw [hnil] at hnew
        exact Bool.noConfusion hnew
      have htake : Move stream (some q) e (take q.data e) := .take e q rfl hdata (hseqno hdata)
      rw [hf]
      exact (ReflTransGen.single htake).tail (.window _ _)
    | false =>
      rw [hf]
      exact .single (.window _ _)
  have hlen : acked = true → f.conn.len = 0 := by
    intro h
    rw [hf, ← hacked h]
    cases newdata <;> rfl
  rw [← hf]
  split
  · have hcalled : Called stream flags q.data f (appcall cfg stream q client flags f) :=
      called_appcall q client flags f
    obtain ⟨e', heq, hsame⟩ := hcalled.rest
    have hnewdata : flags.newdata = newdata := by rw [← hflags]
    have hack : flags.ackdata = acked := by rw [← hflags]
    rw [hnewdata] at hsame
    have hfields : e'.conn.len = f.conn.len ∧ e'.conn.mss = f.conn.mss ∧ e'.handed = f.handed := by
      rw [hsame.len, hsame.mss, hsame.handed]
      cases newdata <;> exact ⟨rfl, rfl, rfl⟩
    rw [heq]
    refine htaken.trans (hsame.moves.trans (moves_appsend flags (fun hpos => ?_) ?_))
    · have hyes : acked = true := by
        by_contra hno
        rw [hcalled.asked (hack.trans (Bool.eq_false_of_not_eq_true hno))] at hpos
        exact Nat.lt_irrefl 0 hpos
      exact ⟨hfields.1.trans (hlen hyes), hfields.2.1 ▸ hcalled.mss⟩
    · rw [hfields.2.2]
      exact hcalled.chunk
  next hnot =>
    rw [Bool.or_eq_true, not_or] at hnot
    rwa [if_neg hnot.1] at htaken

theorem moves_segmentInput (q : Packet) (client : Client) :
    Moves stream (some q) e (segmentInput cfg stream q client e) := by
  unfold segmentInput
  split
  · exact moves_leave (fun h => TcpState.noConfusion h)
  split
  · exact moves_tcpSend .ackOnly (.inl rfl)
  next horder =>
    have hseqno : q.data ≠ [] → q.seg.seqno = e.conn.rcvNxt := fun hdata =>
      not_not.mp fun hne => horder ⟨.inl hdata, hne⟩
    cases hack : acknowledges q.seg e with
    | true =>
      have hsame : Same (settle e) (e.setConn ackConn) := by
        refine ⟨?_, ?_, ?_, rfl, ?_, rfl, rfl, rfl⟩
        all_goals
          simp only [Endpoint.state, Endpoint.setConn, settle, ackConn, rttUpdate]
          split_ifs <;> rfl
      have hsettle : Moves stream (some q) e (e.setConn ackConn) :=
        (ReflTransGen.single (.acked e q rfl hack)).trans hsame.moves
      refine hsettle.trans (moves_establishedInput client (fun _ => rfl) fun hdata => ?_)
      rw [hseqno hdata, hsame.rcvNxt]
      rfl
    | false => exact moves_establishedInput client (fun h => Bool.noConfusion h) hseqno

theorem moves_poll (client : Client) (hlen : e.conn.len = 0) :
    Moves stream p e (poll cfg stream client e) := by
  have hquiet : Same e { e with ackRequest := false } := ⟨rfl, rfl, rfl, rfl, rfl, rfl, rfl, rfl⟩
  unfold poll handlePoll
  dsimp only
  split
  · exact moves_leave (fun h => TcpState.noConfusion h)
  split
  · exact moves_leave (fun h => TcpState.noConfusion h)
  split
  · have hspec := chunk_spec stream client { e with ackRequest := false }
    generalize doXtcpdSend stream client { e with ackRequest := false } = r at hspec ⊢
    obtain ⟨hle, hchunk, hsend⟩ := hspec
    have hsame : Same e { r.2.2 with sendRequest := r.2.2.sendRequest - 1 } :=
      (hquiet.trans hsend).trans ⟨rfl, rfl, rfl, rfl, rfl, rfl, rfl, rfl⟩
    refine hsame.moves.trans (moves_appsend _ (fun _ => ⟨hsame.len.trans hlen, ?_⟩) ?_)
    · rw [hsame.mss]
      exact hle
    · rw [hsame.handed]
      exact hchunk
  · exact hquiet.moves.trans (moves_appsend _ (fun h => absurd h (Nat.lt_irrefl 0)) rfl)

theorem moves_rexmit (client : Client) : Moves stream p e (rexmit cfg stream client e) := by
  have hsame := same_serve client.send e
  refine hsame.moves.trans (moves_apprexmit _ fun hpos => ?_)
  rw [hsame.len, hsame.handed]
  cases hresend : client.resend with
  | true => exact slice_write (length_slice _ _ _).symm
  | false =>
    rw [hresend] at hpos
    exact absurd hpos (Nat.lt_irrefl 0)

theorem moves_periodic (client : Client) : Moves stream p e (periodic cfg stream client e) := by
  unfold periodic
  split
  · unfold outstandingTimer
    have hsame : Same e (e.setConn fun c => { c with timer := c.timer - 1 }) :=
      ⟨rfl, rfl, rfl, rfl, rfl, rfl, rfl, rfl⟩
    dsimp only
    split
    · split
      · have hstate := (same_serve client.closed
          ((e.setConn fun c => { c with timer := c.timer - 1 }).setState .closed)).state
        refine moves_leave fun h => TcpState.noConfusion (hstate.symm.trans h)
      · have hcounted : Same e (e.setConn fun c =>
            { c with timer := rexmitTimer c.nrtx, nrtx := c.nrtx + 1 }) :=
          ⟨rfl, rfl, rfl, rfl, rfl, rfl, rfl, rfl⟩
        exact hcounted.moves.trans (moves_rexmit client)
    · exact hsame.moves
  next hlen => exact moves_poll client (not_not.mp hlen)

-- Everything that a host does comes to such moves, with a piece of a packet that was sent.
theorem moves_act (sent : List Packet) (event : Event) : ∃ p : Option Packet,
    (∀ q, p = some q → ∃ q' ∈ sent, ∃ start len, q = q'.cut start len) ∧
      Moves stream p e (act cfg stream sent e event) := by
  have hnone : ∀ q, (none : Option Packet) = some q → ∃ q' ∈ sent, ∃ start len,
      q = q'.cut start len := fun q h => absurd h.symm (Option.some_ne_none q)
  unfold act
  split
  · exact ⟨none, hnone, .refl⟩
  cases event with
  | arrive k start len client =>
    dsimp only
    cases hk : sent[k]? with
    | none => exact ⟨none, hnone, .refl⟩
    | some q =>
      refine ⟨some (q.cut start len), fun q' hq' => ?_, moves_segmentInput _ client⟩
      exact ⟨q, List.mem_of_getElem? hk, start, len, (Option.some.inj hq').symm⟩
  | checkConnectionPoll client =>
    refine ⟨none, hnone, ?_⟩
    dsimp only
    unfold pollConn
    split
    next hlen => exact moves_poll client hlen
    next => exact .refl
  | periodicTimer client => exact ⟨none, hnone, moves_periodic client⟩
  | commands rs => exact ⟨none, hnone, (same_serve rs e).moves⟩

end Calls

end Xtcp.Stream
