import Xtcp.Library.Delivery
import Xtcp.Stream.Moves

namespace Xtcp.Stream
open Uip Channel Segment Relation Delivery

-- One way of the connection, from x to y, as the two hosts show it.
structure Shown (stream : Nat → Byte) (base : BitVec 32) (x y : Endpoint) (w : Way) : Prop where
  sndNxt : x.conn.sndNxt = base + BitVec.ofNat 32 w.acked
  len : x.conn.len = w.len
  handed : x.handed = w.acked + w.len
  rcvNxt : y.conn.rcvNxt = base + BitVec.ofNat 32 w.got
  received : y.received = slice stream 0 w.got
  chunks : ∀ p ∈ x.wire, p.data ≠ [] →
    ∃ c ∈ w.chunks, p.seg.seqno = base + BitVec.ofNat 32 c.1 ∧ p.data = slice stream c.1 c.2
  answers : ∀ p ∈ y.wire, p.seg.ack = true →
    ∃ r ∈ w.answers, p.seg.ackno = base + BitVec.ofNat 32 r

abbrev Steps : Way → Way → Prop := ReflTransGen Step

theorem Steps.safe {w w' : Way} (h : Steps w w') (hw : Safe w) : Safe w' := by
  induction h with
  | refl => exact hw
  | tail _ hs ih => exact ih.step hs

theorem append_right {α : Type} {P : α → Prop} {xs : List α} {x : α} (h : ∀ y ∈ xs, P y)
    (hx : P x) : ∀ y ∈ xs ++ [x], P y := by
  intro y hy
  rcases List.mem_append.mp hy with hy | hy
  · exact h y hy
  · rw [List.mem_singleton.mp hy]
    exact hx

section Move

variable {stream streamY : Nat → Byte} {base : BitVec 32} {x x' y y' : Endpoint} {w : Way}
  {p : Option Packet}

-- What comes in is a piece of what the peer has sent.
def Piece (wire : List Packet) (p : Option Packet) : Prop :=
  ∀ q, p = some q → ∃ q' ∈ wire, ∃ start len, q = q'.cut start len

theorem Move.back (h : Move stream p x x') (hopen : x'.state = .established) :
    x.state = .established ∧ x.handed ≤ x'.handed := by
  cases h with
  | quiet h => exact ⟨h.state ▸ hopen, h.handed.ge⟩
  | leave h => exact absurd hopen h
  | hand n => exact ⟨hopen, Nat.le_add_right _ _⟩
  | _ => exact ⟨hopen, le_rfl⟩

theorem Shown.quiet (h : Shown stream base x y w) (hsame : Same x x') :
    Shown stream base x' y w where
  sndNxt := hsame.sndNxt.trans h.sndNxt
  len := hsame.len.trans h.len
  handed := hsame.handed.trans h.handed
  rcvNxt := h.rcvNxt
  received := h.received
  chunks := hsame.wire ▸ h.chunks
  answers := h.answers

theorem Shown.quiet_receiver (h : Shown stream base x y w) (hsame : Same y y') :
    Shown stream base x y' w where
  sndNxt := h.sndNxt
  len := h.len
  handed := h.handed
  rcvNxt := hsame.rcvNxt.trans h.rcvNxt
  received := hsame.received.trans h.received
  chunks := h.chunks
  answers := hsame.wire ▸ h.answers

-- A move of the host that sends.
theorem Shown.sender (h : Shown stream base x y w) (hsafe : Safe w) (hbound : x.handed < 2 ^ 32)
    (hpiece : Piece y.wire p) (hm : Move stream p x x') (hopen : x'.state = .established) :
    ∃ w', Steps w w' ∧ Shown stream base x' y w' := by
  cases hm with
  | quiet hsame => exact ⟨w, .refl, h.quiet hsame⟩
  | window mss => exact ⟨w, .refl, { h with }⟩
  | leave hleave => exact absurd hopen hleave
  | hand n hlen =>
    have hzero : w.len = 0 := h.len.symm.trans hlen
    refine ⟨_, .single (.hand w n hzero), { h with len := rfl, handed := ?_ }⟩
    change x.handed + n = w.acked + n
    rw [h.handed, hzero, Nat.add_zero]
  | send q hnum hdata =>
    refine ⟨_, .single (.send w), { h with chunks := append_right (fun q' hq' hne => ?_) ?_ }⟩
    · obtain ⟨c, hc, hseqno, hslice⟩ := h.chunks q' hq' hne
      exact ⟨c, Set.mem_insert_of_mem _ hc, hseqno, hslice⟩
    · intro hne
      refine ⟨_, Set.mem_insert _ _, hnum.seqno.trans h.sndNxt, ?_⟩
      rw [hdata.resolve_left hne, h.handed, h.len, Nat.add_sub_cancel]
  | take q hq hne hseqno => exact ⟨w, .refl, { h with }⟩
  | acked q hq hack =>
    obtain ⟨q', hq', start, len, rfl⟩ := hpiece q hq
    rw [acknowledges, Bool.and_eq_true, Bool.and_eq_true, beq_iff_eq] at hack
    obtain ⟨r, hr, hackno⟩ := h.answers q' hq' hack.1.1
    have hnumber : base + BitVec.ofNat 32 r = base + BitVec.ofNat 32 (w.acked + w.len) := by
      rw [← hackno, BitVec.ofNat_add, ← BitVec.add_assoc, ← h.sndNxt, ← h.len]
      exact hack.2
    have hupper := hsafe.upper
    have hlast : r = w.acked + w.len :=
      number_inj (h.handed ▸ hbound) ((hsafe.answers r hr).trans hupper) le_rfl hnumber
    refine ⟨_, .single (.acked w (hlast ▸ hr)),
      { h with sndNxt := ?_, len := rfl, handed := h.handed }⟩
    change x.conn.sndNxt + BitVec.ofNat 32 x.conn.len = base + BitVec.ofNat 32 (w.acked + w.len)
    rw [h.sndNxt, h.len, BitVec.ofNat_add, BitVec.add_assoc]

-- A move of the host that receives.
theorem Shown.receiver (h : Shown stream base x y w) (hsafe : Safe w) (hbound : x.handed < 2 ^ 32)
    (hpiece : Piece x.wire p) (hm : Move streamY p y y') (hopen : y'.state = .established) :
    ∃ w', Steps w w' ∧ Shown stream base x y' w' := by
  cases hm with
  | quiet hsame => exact ⟨w, .refl, h.quiet_receiver hsame⟩
  | window mss => exact ⟨w, .refl, { h with }⟩
  | leave hleave => exact absurd hopen hleave
  | hand n hlen => exact ⟨w, .refl, { h with }⟩
  | send q hnum hdata =>
    refine ⟨_, .single (.answer w), { h with answers := append_right (fun q' hq' hack => ?_) ?_ }⟩
    · obtain ⟨r, hr, hackno⟩ := h.answers q' hq' hack
      exact ⟨r, Set.mem_insert_of_mem _ hr, hackno⟩
    · exact fun _ => ⟨_, Set.mem_insert _ _, hnum.ackno.trans h.rcvNxt⟩
  | take q hq hne hseqno =>
    obtain ⟨q', hq', start, len, rfl⟩ := hpiece q hq
    have hne' : q'.data ≠ [] := by
      intro hnil
      rw [Packet.cut, hnil, List.drop_nil, List.take_nil] at hne
      exact hne rfl
    obtain ⟨c, hc, hnumber, hslice⟩ := h.chunks q' hq' hne'
    obtain ⟨n, hn⟩ : ∃ n, n = min len (c.2 - start) := ⟨_, rfl⟩
    have hdata : (q'.cut start len).data = slice stream (c.1 + start) n := by
      rw [Packet.cut, hslice, slice_drop, slice_take, hn]
    have hpos : 0 < n := by
      rw [hdata] at hne
      exact Nat.pos_of_ne_zero fun hzero => hne (hzero ▸ rfl)
    have hchunk := hsafe.chunks c hc
    have hnumber' : base + BitVec.ofNat 32 (c.1 + start) = base + BitVec.ofNat 32 w.got := by
      rw [← h.rcvNxt, ← hseqno, BitVec.ofNat_add, ← BitVec.add_assoc, ← hnumber]
      rfl
    have hplace : c.1 + start = w.got :=
      number_inj (h.handed ▸ hbound) (by omega) hsafe.upper hnumber'
    rw [hplace] at hdata
    refine ⟨_, .single (.take w c n hc (by omega) (by omega)),
      { h with rcvNxt := ?_, received := ?_ }⟩
    · change y.conn.rcvNxt + BitVec.ofNat 32 _ = base + BitVec.ofNat 32 (w.got + n)
      rw [hdata, length_slice, h.rcvNxt, BitVec.ofNat_add, BitVec.add_assoc]
    · change y.received ++ _ = slice stream 0 (w.got + n)
      rw [hdata, h.received, Memory.slice_append, Nat.zero_add]
  | acked q hq hack => exact ⟨w, .refl, { h with }⟩

end Move

section Runs

variable {cfg : Config} {streams : Side → Nat → Byte} {bases : Side → BitVec 32} {s : Pair}

theorem Moves.back {stream : Nat → Byte} {x x' : Endpoint} {p : Option Packet}
    (h : Moves stream p x x') (hopen : x'.state = .established) :
    x.state = .established ∧ x.handed ≤ x'.handed := by
  induction h with
  | refl => exact ⟨hopen, le_rfl⟩
  | tail _ hm ih =>
    obtain ⟨hopen', hle⟩ := hm.back hopen
    exact ⟨(ih hopen').1, (ih hopen').2.trans hle⟩

-- A host moves: it sends on one way and receives on the other.
theorem both_ways {stream stream' : Nat → Byte} {base base' : BitVec 32} {x x' y : Endpoint}
    {w w' : Way} {p : Option Packet} (hy : y.handed < 2 ^ 32) (hpiece : Piece y.wire p)
    (hmoves : Moves stream p x x') (hopen : x'.state = .established) (hx : x'.handed < 2 ^ 32)
    (h : Shown stream base x y w) (h' : Shown stream' base' y x w') (hsafe : Safe w)
    (hsafe' : Safe w') :
    ∃ v v', Shown stream base x' y v ∧ Shown stream' base' y x' v' ∧ Safe v ∧ Safe v' := by
  induction hmoves with
  | refl => exact ⟨w, w', h, h', hsafe, hsafe'⟩
  | tail _ hm ih =>
    obtain ⟨hopen', hle⟩ := hm.back hopen
    obtain ⟨v, v', hv, hv', hs, hs'⟩ := ih hopen' (hle.trans_lt hx)
    obtain ⟨u, hu, hshown⟩ := hv.sender hs (hle.trans_lt hx) hpiece hm hopen
    obtain ⟨u', hu', hshown'⟩ := hv'.receiver hs' hy hpiece hm hopen
    exact ⟨u, u', hshown, hshown', Steps.safe hu hs, Steps.safe hu' hs'⟩

structure Open (s : Pair) : Prop where
  left : s.left.state = .established
  right : s.right.state = .established

-- Less has been handed over than there are numbers.
structure Small (s : Pair) : Prop where
  left : s.left.handed < 2 ^ 32
  right : s.right.handed < 2 ^ 32

def Linked (streams : Side → Nat → Byte) (bases : Side → BitVec 32) (s : Pair) : Prop :=
  ∃ w w', Shown (streams .left) (bases .left) s.left s.right w ∧
    Shown (streams .right) (bases .right) s.right s.left w' ∧ Safe w ∧ Safe w'

-- One host moves and the other is as it was.
theorem moves_step (cfg : Config) (streams : Side → Nat → Byte) (s : Pair)
    (event : Side × Event) :
    (∃ p, Piece s.right.wire p ∧
      Moves (streams .left) p s.left (step cfg streams s event).left ∧
      (step cfg streams s event).right = s.right) ∨
    (∃ p, Piece s.left.wire p ∧
      Moves (streams .right) p s.right (step cfg streams s event).right ∧
      (step cfg streams s event).left = s.left) := by
  obtain ⟨side, event⟩ := event
  cases side with
  | left =>
    obtain ⟨p, hpiece, hmoves⟩ := moves_act s.right.wire event
    exact .inl ⟨p, hpiece, hmoves, rfl⟩
  | right =>
    obtain ⟨p, hpiece, hmoves⟩ := moves_act s.left.wire event
    exact .inr ⟨p, hpiece, hmoves, rfl⟩

theorem step_back (event : Side × Event) (hopen : Open (step cfg streams s event))
    (hsmall : Small (step cfg streams s event)) : Open s ∧ Small s := by
  rcases moves_step cfg streams s event with
    ⟨p, -, hmoves, hsame⟩ | ⟨p, -, hmoves, hsame⟩
  · obtain ⟨hleft, hle⟩ := Moves.back hmoves hopen.left
    exact ⟨⟨hleft, hsame ▸ hopen.right⟩, ⟨hle.trans_lt hsmall.left, hsame ▸ hsmall.right⟩⟩
  · obtain ⟨hright, hle⟩ := Moves.back hmoves hopen.right
    exact ⟨⟨hsame ▸ hopen.left, hright⟩, ⟨hsame ▸ hsmall.left, hle.trans_lt hsmall.right⟩⟩

theorem linked_step (h : Linked streams bases s) (event : Side × Event)
    (hopen : Open (step cfg streams s event)) (hsmall : Small (step cfg streams s event)) :
    Linked streams bases (step cfg streams s event) := by
  obtain ⟨w, w', hw, hw', hsafe, hsafe'⟩ := h
  rcases moves_step cfg streams s event with
    ⟨p, hpiece, hmoves, hsame⟩ | ⟨p, hpiece, hmoves, hsame⟩
  · have hy : s.right.handed < 2 ^ 32 := hsame ▸ hsmall.right
    rw [Linked, hsame]
    exact both_ways hy hpiece hmoves hopen.left hsmall.left hw hw' hsafe hsafe'
  · have hy : s.left.handed < 2 ^ 32 := hsame ▸ hsmall.left
    obtain ⟨v', v, hv', hv, hs', hs⟩ := both_ways hy hpiece hmoves hopen.right hsmall.right hw' hw
      hsafe' hsafe
    rw [Linked, hsame]
    exact ⟨v, v', hv, hv', hs, hs'⟩

theorem linked_run (h : Linked streams bases s) (events : List (Side × Event))
    (hopen : Open (run cfg streams s events)) (hsmall : Small (run cfg streams s events)) :
    Linked streams bases (run cfg streams s events) := by
  induction events using List.reverseRecOn with
  | nil => exact h
  | append_singleton events event ih =>
    rw [run, List.foldl_concat] at hopen hsmall ⊢
    obtain ⟨hopen', hsmall'⟩ := step_back event hopen hsmall
    exact linked_step (ih hopen' hsmall') event hopen hsmall

-- One way as the connection has just been opened. What the opening sent may still be on its way.
structure Fresh (x y : Endpoint) : Prop where
  len : x.conn.len = 0
  handed : x.handed = 0
  received : y.received = []
  numbers : y.conn.rcvNxt = x.conn.sndNxt
  sent : ∀ p ∈ x.wire, p.data = []
  answers : ∀ p ∈ y.wire, p.seg.ack = true → p.seg.ackno = x.conn.sndNxt

theorem Fresh.shown {x y : Endpoint} (h : Fresh x y) (stream : Nat → Byte) :
    Shown stream x.conn.sndNxt x y ⟨0, 0, 0, ∅, {0}⟩ where
  sndNxt := (BitVec.add_zero _).symm
  len := h.len
  handed := h.handed
  rcvNxt := h.numbers.trans (BitVec.add_zero _).symm
  received := h.received
  chunks := fun p hp hne => absurd (h.sent p hp) hne
  answers := fun p hp hack => ⟨0, rfl, (h.answers p hp hack).trans (BitVec.add_zero _).symm⟩

theorem safe_fresh : Safe ⟨0, 0, 0, ∅, {0}⟩ :=
  ⟨le_rfl, le_rfl, fun _ hc => absurd hc (Set.notMem_empty _),
    fun _ hr => (Set.mem_singleton_iff.mp hr).le⟩

-- The client of y has been given the stream of x in order, each byte once, and nothing else, up
-- to what x still has on the way.
structure Carried (stream : Nat → Byte) (x y : Endpoint) : Prop where
  received : y.received = slice stream 0 y.received.length
  upper : y.received.length ≤ x.handed
  lower : x.handed ≤ y.received.length + x.conn.len

theorem Shown.carried {stream : Nat → Byte} {base : BitVec 32} {x y : Endpoint} {w : Way}
    (h : Shown stream base x y w) (hsafe : Safe w) : Carried stream x y := by
  have hlength : y.received.length = w.got := by rw [h.received, length_slice]
  have hlower := hsafe.lower
  have hupper := hsafe.upper
  have hhanded := h.handed
  refine ⟨?_, by omega, ?_⟩
  · rw [hlength]
    exact h.received
  · rw [h.len]
    omega

-- Whatever is lost, repeated, cut up or late, as long as both hosts keep the connection.
theorem stream_carried (cfg : Config) (streams : Side → Nat → Byte) (s : Pair)
    (hleft : Fresh s.left s.right) (hright : Fresh s.right s.left) (events : List (Side × Event))
    (hopen : Open (run cfg streams s events)) (hsmall : Small (run cfg streams s events)) :
    Carried (streams .left) (run cfg streams s events).left (run cfg streams s events).right ∧
      Carried (streams .right) (run cfg streams s events).right
        (run cfg streams s events).left := by
  obtain ⟨bases, hl, hr⟩ : ∃ bases : Side → BitVec 32,
      bases .left = s.left.conn.sndNxt ∧ bases .right = s.right.conn.sndNxt :=
    ⟨fun side => if side = .left then s.left.conn.sndNxt else s.right.conn.sndNxt, if_pos rfl,
      if_neg (fun h => Side.noConfusion h)⟩
  have hlinked : Linked streams bases s :=
    ⟨_, _, hl ▸ hleft.shown _, hr ▸ hright.shown _, safe_fresh, safe_fresh⟩
  obtain ⟨w, w', hw, hw', hsafe, hsafe'⟩ := linked_run hlinked events hopen hsmall
  exact ⟨hw.carried hsafe, hw'.carried hsafe'⟩

end Runs

section Lossy

def freshEnd (sndNxt rcvNxt : BitVec 32) : Endpoint where
  conn := { TcpConn.zero with
    sndNxt := sndNxt, rcvNxt := rcvNxt, mss := 1460, initialmss := 1460
    tcpstateflags := ⟨.established, false⟩ }
  hostaddr := zeroIpaddr
  sendRequest := 0
  ackRequest := false
  closeRequest := false
  abortRequest := false
  ackRecvMode := false
  handed := 0
  received := []
  wire := []

def givingThree : Client := ⟨[], [], [], [], 3, true, fun _ => 0⟩

-- The second half comes first and is lost, and the first comes twice.
def lossyEvents : List (Side × Event) :=
  [(.left, .commands [.initSend]), (.left, .checkConnectionPoll givingThree),
    (.right, .arrive 0 2 1 givingThree), (.right, .arrive 0 0 2 givingThree),
    (.right, .arrive 0 0 2 givingThree), (.right, .arrive 0 2 1 givingThree),
    (.left, .arrive 3 0 0 givingThree)]

def lossyPair : Pair :=
  run smallConfig (fun _ j => BitVec.ofNat 8 j) ⟨freshEnd 100 200, freshEnd 200 100⟩ lossyEvents

theorem stream_carried_lossy : lossyPair.right.received = [0, 1, 2] ∧
    lossyPair.left.conn.sndNxt = 103 ∧
    Carried (fun j => BitVec.ofNat 8 j) lossyPair.left lossyPair.right := by
  have hfresh (a b : BitVec 32) : Fresh (freshEnd a b) (freshEnd b a) :=
    ⟨rfl, rfl, rfl, rfl, fun _ h => absurd h List.not_mem_nil,
      fun _ h => absurd h List.not_mem_nil⟩
  exact ⟨by decide, by decide, (stream_carried smallConfig (fun _ j => BitVec.ofNat 8 j)
    ⟨freshEnd 100 200, freshEnd 200 100⟩ (hfresh 100 200) (hfresh 200 100) lossyEvents
    ⟨by decide, by decide⟩ ⟨by decide, by decide⟩).1⟩

end Lossy

end Xtcp.Stream
