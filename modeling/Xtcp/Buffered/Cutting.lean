import Xtcp.Buffered.Receive

namespace Xtcp.Buffered
open Segment Memory Incremental

def Client.held (w : Client) : List UInt8 :=
  slice w.mem w.bufinfo.rxRdptr (w.bufinfo.rxWrptr - w.bufinfo.rxRdptr)

structure Sound (buf last : Nat) (w : Client) : Prop where
  rxBuf : w.bufinfo.rxBuf = buf
  rxEnd : w.bufinfo.rxEnd = last
  low : buf ≤ w.bufinfo.rxRdptr
  ordered : w.bufinfo.rxRdptr ≤ w.bufinfo.rxWrptr
  high : w.bufinfo.rxWrptr ≤ last
  overflow : w.overflow = false
  writes : ∀ x ∈ w.writes, buf ≤ x.1 ∧ x.1 + x.2 ≤ last

-- Every record of the event has been taken, and there is room for another event.
structure Settled (clientBufSize : Nat) (w : Client) : Prop where
  newEvent : w.bufinfo.rxNewEvent = true
  front : w.bufinfo.rxRdptr = w.bufinfo.rxBuf
  space : w.bufinfo.rxWrptr + clientBufSize ≤ w.bufinfo.rxEnd

section Calls

variable {clientBufSize buf last : Nat} {w : Client} {c : Call} {r t data : List UInt8}

@[simp] theorem length_held (w : Client) :
    w.held.length = w.bufinfo.rxWrptr - w.bufinfo.rxRdptr := length_slice _ _ _

theorem findDelim_eq (mem : Nat → UInt8) (delim : UInt8) (p n : Nat) :
    findDelim mem delim p n = ((slice mem p n).findIdx? (· == delim)).map (p + ·) := by
  induction n generalizing p with
  | zero => rfl
  | succ n ih =>
    rw [findDelim, slice_cons, List.findIdx?_cons]
    by_cases h : mem p = delim
    · rw [if_pos h, if_pos (beq_of_eq h)]
      rfl
    · rw [if_neg h, if_neg (fun hb => h (eq_of_beq hb)), ih, Option.map_map]
      refine congrArg (fun f => Option.map f _) (funext fun j => ?_)
      show p + 1 + j = p + (j + 1)
      omega

theorem apply_eq (clientBufSize : Nat) (c : Call) (w : Client) :
    c.apply clientBufSize w = match c.next w.held with
      | none => endOfEvent clientBufSize w
      | some (r, _) => takeRecord r.length w := by
  cases c with
  | upto delim =>
    dsimp only [Call.apply, recvUpto, Call.next]
    rw [findDelim_eq]
    unfold Client.held
    cases hj : (slice w.mem w.bufinfo.rxRdptr
        (w.bufinfo.rxWrptr - w.bufinfo.rxRdptr)).findIdx? (· == delim) with
    | none => rfl
    | some j =>
      have hlt := (List.findIdx?_eq_some_iff_getElem.mp hj).1
      rw [length_slice] at hlt
      simp only [Option.map_some, List.length_take, length_slice]
      congr 1
      omega
  | recv len hlen =>
    dsimp only [Call.apply, recvLen, Call.next]
    rw [length_held]
    split
    · rfl
    · simp only [List.length_take, length_held]
      congr 1
      omega

theorem Sound.event (hs : Sound buf last w) (event : Option (List UInt8)) :
    Sound buf last { w with event := event } :=
  ⟨hs.rxBuf, hs.rxEnd, hs.low, hs.ordered, hs.high, hs.overflow, hs.writes⟩

def Client.fill (data : List UInt8) (w : Client) : Client :=
  { w with
    mem := write w.mem w.bufinfo.rxWrptr data
    event := none
    received := w.received ++ data
    writes := w.writes ++ [(w.bufinfo.rxWrptr, data.length)]
    bufinfo := { w.bufinfo with
      rxWrptr := w.bufinfo.rxWrptr + data.length, rxNewEvent := false } }

theorem receive_eq (ht : Settled clientBufSize w) (he : w.event = some data) :
    receiveNewEvent w = some (w.fill data) := by
  unfold receiveNewEvent xtcpRecv
  rw [if_pos ht.newEvent, he]
  rfl

theorem held_fill (hs : Sound buf last w) (data : List UInt8) :
    (w.fill data).held = w.held ++ data := by
  have hlen : w.bufinfo.rxWrptr + data.length - w.bufinfo.rxRdptr =
      w.bufinfo.rxWrptr - w.bufinfo.rxRdptr + data.length := by
    have hord := hs.ordered
    omega
  show slice (write w.mem w.bufinfo.rxWrptr data) w.bufinfo.rxRdptr
    (w.bufinfo.rxWrptr + data.length - w.bufinfo.rxRdptr) = _
  rw [hlen]
  exact slice_write_append w.mem hs.ordered data

theorem sound_fill (hs : Sound buf last w) (ht : Settled clientBufSize w)
    (hlen : data.length ≤ clientBufSize) : Sound buf last (w.fill data) := by
  have hspace : w.bufinfo.rxWrptr + clientBufSize ≤ last := hs.rxEnd ▸ ht.space
  have hbuf : buf ≤ w.bufinfo.rxWrptr := hs.low.trans hs.ordered
  refine ⟨hs.rxBuf, hs.rxEnd, hs.low, hs.ordered.trans (Nat.le_add_right _ _), ?_, hs.overflow, ?_⟩
  · exact (Nat.add_le_add_left hlen _).trans hspace
  · intro x hx
    rcases List.mem_append.mp hx with hx | hx
    · exact hs.writes x hx
    · obtain rfl := List.mem_singleton.mp hx
      exact ⟨hbuf, (Nat.add_le_add_left hlen _).trans hspace⟩

theorem held_takeRecord (n : Nat) (w : Client) : (takeRecord n w).2.held = w.held.drop n := by
  unfold Client.held
  rw [slice_drop]
  show slice w.mem (w.bufinfo.rxRdptr + n) (w.bufinfo.rxWrptr - (w.bufinfo.rxRdptr + n)) = _
  rw [Nat.sub_add_eq]

theorem apply_some (hs : Sound buf last w) (h : c.next w.held = some (r, t)) :
    c.apply clientBufSize w = takeRecord r.length w ∧
      slice w.mem w.bufinfo.rxRdptr r.length = r ∧ (takeRecord r.length w).2.held = t ∧
      Sound buf last (takeRecord r.length w).2 := by
  have hsplit : r ++ t = w.held := records.splits h
  have hr : r.length ≤ w.bufinfo.rxWrptr - w.bufinfo.rxRdptr := by
    have hlen := congrArg List.length hsplit
    rw [List.length_append, length_held] at hlen
    omega
  have hord := hs.ordered
  refine ⟨?_, ?_, ?_, ?_⟩
  · rw [apply_eq, h]
  · have htake := slice_take w.mem w.bufinfo.rxRdptr (w.bufinfo.rxWrptr - w.bufinfo.rxRdptr) r.length
    rw [Nat.min_eq_left hr] at htake
    rw [← htake]
    show w.held.take r.length = r
    rw [← hsplit, List.take_left]
  · rw [held_takeRecord, ← hsplit, List.drop_left]
  · exact ⟨hs.rxBuf, hs.rxEnd, hs.low.trans (Nat.le_add_right _ _),
      (by omega : w.bufinfo.rxRdptr + r.length ≤ w.bufinfo.rxWrptr), hs.high, hs.overflow, hs.writes⟩

def Client.settle (w : Client) : Client :=
  { w with
    mem := move w.mem w.bufinfo.rxBuf w.bufinfo.rxRdptr w.held.length
    bufinfo := { w.bufinfo with
      rxNewEvent := true
      rxRdptr := w.bufinfo.rxBuf
      rxWrptr := w.bufinfo.rxBuf + w.held.length } }

theorem held_settle (w : Client) : w.settle.held = w.held := by
  show slice (move w.mem _ _ _) w.bufinfo.rxBuf
    (w.bufinfo.rxBuf + w.held.length - w.bufinfo.rxBuf) = _
  rw [Nat.add_sub_cancel_left, slice_move, length_held]
  rfl

theorem apply_none (hs : Sound buf last w) (h : c.next w.held = none)
    (hfit : w.held.length + clientBufSize ≤ last - buf) :
    c.apply clientBufSize w = (0, w.settle) ∧ Sound buf last w.settle ∧
      Settled clientBufSize w.settle := by
  have hbuf : buf ≤ last := (hs.low.trans hs.ordered).trans hs.high
  have hspace : w.bufinfo.rxBuf + w.held.length + clientBufSize ≤ w.bufinfo.rxEnd := by
    rw [hs.rxBuf, hs.rxEnd]
    omega
  refine ⟨?_, ?_, rfl, rfl, hspace⟩
  · rw [apply_eq, h]
    show endOfEvent clientBufSize w = _
    unfold endOfEvent
    rw [length_held] at hspace
    dsimp only
    rw [if_neg (by omega)]
    simp only [Client.settle, length_held]
  · refine ⟨hs.rxBuf, hs.rxEnd, hs.rxBuf.ge, Nat.le_add_right _ _, ?_, hs.overflow, hs.writes⟩
    exact (Nat.le_add_right _ _).trans (hs.rxEnd ▸ hspace)

end Calls

-- A client that makes calls on each event until one of them returns 0.
structure Session where
  chunks : List (List UInt8)
  waiting : Bool
  recs : List (List UInt8)
  client : Client

section Session

variable (clientBufSize : Nat) (choose : List (List UInt8) → Call)

def Session.step (s : Session) : Option Session :=
  if s.waiting then
    match s.chunks with
    | [] => some s
    | data :: chunks => some { s with
        chunks := chunks, waiting := false, client := { s.client with event := some data } }
  else
    ((choose s.recs).perform clientBufSize s.client).map fun r =>
      if r.1 = 0 then { s with waiting := true, client := r.2 }
      else { s with recs := s.recs ++ [slice r.2.mem r.2.buf r.1], client := r.2 }

def Session.run : Nat → Session → Option Session
  | 0, s => some s
  | n + 1, s => (s.step clientBufSize choose).bind (Session.run n)

def Session.start (buf buflen : Nat) (mem : Nat → UInt8) (b : Bufinfo)
    (chunks : List (List UInt8)) : Session where
  chunks := chunks
  waiting := true
  recs := []
  client := ⟨mem, xtcpBufferedSetRxBuffer buf buflen b, 0, false, none, [], []⟩

-- The whole of a stream at once.
def parse (stream : List UInt8) : List (List UInt8) × List UInt8 := records.drain choose [] stream

def Fits (room : Nat) (stream : List UInt8) : Prop :=
  ∀ r, r ∈ (parse choose stream).1 ∨ r = (parse choose stream).2 → r.length + clientBufSize ≤ room

structure Session.Inv (buf last : Nat) (stream : List UInt8) (s : Session) : Prop where
  sound : Sound buf last s.client
  chunks : ∀ data ∈ s.chunks, data.length ≤ clientBufSize
  parse : records.drain choose s.recs s.client.held = parse choose s.client.received
  arrived : s.client.received ++ (s.client.event.getD [] ++ s.chunks.flatten) = stream
  idle : s.waiting = true → s.client.event = none ∧ Settled clientBufSize s.client ∧
    (choose s.recs).next s.client.held = none
  busy : s.waiting = false →
    (∃ data, s.client.event = some data ∧ data.length ≤ clientBufSize ∧
      Settled clientBufSize s.client) ∨
    (s.client.event = none ∧ s.client.bufinfo.rxNewEvent = false)

def Session.todo (s : Session) : Nat :=
  2 * s.chunks.length + (if s.waiting then 0 else 1) +
    (s.client.held.length + (s.client.event.getD []).length + s.chunks.flatten.length)

variable {clientBufSize choose} {buf last : Nat} {stream : List UInt8} {s : Session}

-- The state in which a call looks for its record, once the data of the event is in the buffer.
theorem Session.Inv.receive (h : s.Inv clientBufSize choose buf last stream)
    (hbusy : s.waiting = false) :
    ∃ w, receiveNewEvent s.client = some w ∧ Sound buf last w ∧ w.event = none ∧
      w.bufinfo.rxNewEvent = false ∧
      records.drain choose s.recs w.held = Buffered.parse choose w.received ∧
      w.received ++ s.chunks.flatten = stream ∧
      w.held.length = s.client.held.length + (s.client.event.getD []).length := by
  rcases h.busy hbusy with ⟨data, he, hlen, hsettled⟩ | ⟨he, hflag⟩
  · have hheld := held_fill h.sound data
    refine ⟨s.client.fill data, receive_eq hsettled he, sound_fill h.sound hsettled hlen, rfl, rfl,
      ?_, ?_, ?_⟩
    · rw [hheld]
      exact records.drain_append_congr choose h.parse data
    · have harr := h.arrived
      rw [he] at harr
      rw [← harr]
      exact List.append_assoc _ _ _
    · rw [hheld, he]
      exact List.length_append
  · refine ⟨s.client, ?_, h.sound, he, hflag, h.parse, ?_, ?_⟩
    · unfold receiveNewEvent
      rw [hflag]
      rfl
    · have harr := h.arrived
      rw [he] at harr
      exact harr
    · rw [he]
      rfl

-- The part of a record that is held when a call has to return 0.
theorem held_fits (hfits : Fits clientBufSize choose (last - buf) stream) {recs : List (List UInt8)}
    {held received rest : List UInt8} (hnone : (choose recs).next held = none)
    (hparse : records.drain choose recs held = parse choose received)
    (harr : received ++ rest = stream) : held.length + clientBufSize ≤ last - buf := by
  have hdrain : records.drain choose recs (held ++ rest) = parse choose stream := by
    rw [← harr]
    exact records.drain_append_congr choose hparse rest
  have hle := records.held_le choose hnone rest
  rw [hdrain] at hle
  rcases hle with hle | ⟨r, hr, hle⟩
  · have := hfits _ (Or.inr rfl)
    omega
  · have := hfits r (Or.inl hr)
    omega

theorem Session.Inv.step (h : s.Inv clientBufSize choose buf last stream)
    (hfits : Fits clientBufSize choose (last - buf) stream) :
    ∃ s', s.step clientBufSize choose = some s' ∧ s'.Inv clientBufSize choose buf last stream ∧
      ((s' = s ∧ s.waiting = true ∧ s.chunks = []) ∨ s'.todo < s.todo) := by
  cases hw : s.waiting with
  | true =>
    obtain ⟨he, hsettled, hnone⟩ := h.idle hw
    have harr := h.arrived
    cases hc : s.chunks with
    | nil =>
      refine ⟨s, ?_, h, Or.inl ⟨rfl, rfl, rfl⟩⟩
      unfold Session.step
      rw [if_pos hw, hc]
    | cons data chunks =>
      refine ⟨{ s with
        chunks := chunks, waiting := false, client := { s.client with event := some data } },
        ?_, ?_, ?_⟩
      · unfold Session.step
        rw [if_pos hw, hc]
      · have hlen := h.chunks
        rw [hc] at hlen
        refine ⟨h.sound.event _, fun x hx => hlen x (List.mem_cons_of_mem _ hx), h.parse, ?_, nofun,
          fun _ => Or.inl ⟨data, rfl, hlen data List.mem_cons_self, hsettled.newEvent,
            hsettled.front, hsettled.space⟩⟩
        rw [he, hc] at harr
        exact harr
      · refine Or.inr ?_
        unfold Session.todo
        rw [he, hc, hw]
        simp only [List.length_cons, List.flatten_cons, List.length_append, Option.getD_some,
          Option.getD_none, List.length_nil]
        show 2 * chunks.length + 1 + (s.client.held.length + _ + _) < _
        omega
  | false =>
    obtain ⟨w, hrecv, hsound, he, hflag, hparse, harr, hheld⟩ := h.receive hw
    have hstep : s.step clientBufSize choose = some
        (let r := (choose s.recs).apply clientBufSize w
         if r.1 = 0 then { s with waiting := true, client := r.2 }
         else { s with recs := s.recs ++ [slice r.2.mem r.2.buf r.1], client := r.2 }) := by
      unfold Session.step
      rw [hw, perform_eq, hrecv]
      rfl
    cases hnext : (choose s.recs).next w.held with
    | none =>
      obtain ⟨happly, hsound', hsettled⟩ :=
        apply_none hsound hnext (held_fits hfits hnext hparse harr)
      refine ⟨{ s with waiting := true, client := w.settle }, ?_, ?_, Or.inr ?_⟩
      · rw [hstep, happly]
        rfl
      · refine ⟨hsound', h.chunks, ?_, ?_, fun _ => ⟨he, hsettled, ?_⟩, nofun⟩
        · rw [held_settle]
          exact hparse
        · show w.received ++ (w.event.getD [] ++ _) = _
          rw [he]
          exact harr
        · show (choose s.recs).next w.settle.held = none
          rw [held_settle]
          exact hnext
      · unfold Session.todo
        rw [hw, held_settle]
        show _ + 0 + (w.held.length + (w.event.getD []).length + _) < _ + 1 + _
        rw [he, hheld]
        simp
    | some x =>
      obtain ⟨r, t⟩ := x
      obtain ⟨happly, hbytes, hrest, hsound'⟩ := apply_some hsound hnext
      have hpos : 0 < r.length := List.length_pos_iff.mpr (records.progress hnext)
      refine ⟨{ s with recs := s.recs ++ [r], client := (takeRecord r.length w).2 },
        ?_, ?_, Or.inr ?_⟩
      · rw [hstep, happly]
        show some (if r.length = 0 then _ else _) = _
        rw [if_neg (by omega)]
        show
          some { s with recs := s.recs ++ [slice w.mem w.bufinfo.rxRdptr r.length], client := _ } = _
        rw [hbytes]
      · refine ⟨hsound', h.chunks, ?_, ?_, fun hwait => ?_, fun _ => Or.inr ⟨he, hflag⟩⟩
        · rw [hrest]
          exact (records.drain_some choose hnext).symm.trans hparse
        · show w.received ++ (w.event.getD [] ++ _) = _
          rw [he]
          exact harr
        · cases hw.symm.trans hwait
      · unfold Session.todo
        have hshort := records.shorter hnext
        rw [hw, hrest]
        show _ + 1 + (t.length + (w.event.getD []).length + _) < _ + 1 + _
        rw [he]
        simp only [Option.getD_none, List.length_nil]
        omega

theorem Session.Inv.run (h : s.Inv clientBufSize choose buf last stream)
    (hfits : Fits clientBufSize choose (last - buf) stream) (n : Nat) :
    ∃ s', s.run clientBufSize choose n = some s' ∧ s'.Inv clientBufSize choose buf last stream ∧
      ((s'.waiting = true ∧ s'.chunks = []) ∨ s'.todo + n ≤ s.todo) := by
  induction n generalizing s with
  | zero => exact ⟨s, rfl, h, Or.inr le_rfl⟩
  | succ n ih =>
    obtain ⟨s₁, hs₁, hinv, hdone⟩ := h.step hfits
    obtain ⟨s', hs', hinv', hdone'⟩ := ih hinv
    refine ⟨s', by rw [Session.run, hs₁]; exact hs', hinv', ?_⟩
    rcases hdone' with hdone' | hlt'
    · exact Or.inl hdone'
    rcases hdone with ⟨rfl, hw, hc⟩ | hlt
    · refine Or.inl ?_
      have hstay : ∀ m, s₁.run clientBufSize choose m = some s₁ := by
        intro m
        induction m with
        | zero => rfl
        | succ m ihm => rw [Session.run, hs₁]; exact ihm
      obtain rfl := Option.some.inj ((hstay n).symm.trans hs')
      exact ⟨hw, hc⟩
    · exact Or.inr (by omega)

theorem Session.Inv.parsed (h : s.Inv clientBufSize choose buf last stream)
    (hw : s.waiting = true) : Buffered.parse choose s.client.received = (s.recs, s.client.held) :=
  h.parse.symm.trans (records.drain_none choose (h.idle hw).2.2)

theorem inv_start (mem : Nat → UInt8) (b : Bufinfo) {buflen : Nat} {chunks : List (List UInt8)}
    (hchunks : ∀ data ∈ chunks, data.length ≤ clientBufSize) (hlen : clientBufSize ≤ buflen) :
    (Session.start buf buflen mem b chunks).Inv clientBufSize choose buf (buf + buflen)
      chunks.flatten := by
  have hheld : (Session.start buf buflen mem b chunks).client.held = [] :=
    List.eq_nil_of_length_eq_zero ((length_held _).trans (Nat.sub_self buf))
  refine ⟨⟨rfl, rfl, le_rfl, le_rfl, Nat.le_add_right _ _, rfl, nofun⟩, hchunks, ?_, rfl,
    fun _ => ⟨rfl, ⟨rfl, rfl, Nat.add_le_add_left hlen buf⟩, ?_⟩, nofun⟩
  · rw [hheld]
    rfl
  · rw [hheld]
    exact records.next_nil _

end Session

-- However the stream is cut into events, the calls give the records of the whole stream.
theorem buffered_receive (clientBufSize : Nat) (choose : List (List UInt8) → Call)
    (buf buflen : Nat) (mem : Nat → UInt8) (b : Bufinfo) (chunks : List (List UInt8))
    (hchunks : ∀ data ∈ chunks, data.length ≤ clientBufSize)
    (hfits : Fits clientBufSize choose buflen chunks.flatten) :
    let start := Session.start buf buflen mem b chunks
    (∀ n, ∃ s, start.run clientBufSize choose n = some s ∧ Sound buf (buf + buflen) s.client ∧
      s.client.received ++ (s.client.event.getD [] ++ s.chunks.flatten) = chunks.flatten ∧
      s.recs.flatten ++ s.client.held = s.client.received ∧
      s.recs <+: (parse choose s.client.received).1 ∧
      (s.waiting = true → (s.recs, s.client.held) = parse choose s.client.received)) ∧
    ∃ N, ∀ n, N ≤ n → ∃ s, start.run clientBufSize choose n = some s ∧ s.waiting = true ∧
      (s.recs, s.client.held) = parse choose chunks.flatten := by
  intro start
  have hroom : buf + buflen - buf = buflen := Nat.add_sub_cancel_left _ _
  have hlen : clientBufSize ≤ buflen := by
    have := hfits _ (Or.inr rfl)
    omega
  have hinv : start.Inv clientBufSize choose buf (buf + buflen) chunks.flatten :=
    inv_start mem b hchunks hlen
  have hrun := hinv.run (by rw [hroom]; exact hfits)
  refine ⟨fun n => ?_, start.todo + 1, fun n hn => ?_⟩
  · obtain ⟨s, hs, hsinv, _⟩ := hrun n
    refine ⟨s, hs, hsinv.sound, hsinv.arrived, ?_, ?_, fun hw => (hsinv.parsed hw).symm⟩
    · have hflat := records.drain_flatten choose s.recs s.client.held
      rw [hsinv.parse] at hflat
      exact hflat.symm.trans (records.drain_flatten choose [] s.client.received)
    · rw [← hsinv.parse]
      exact records.drain_prefix choose s.recs s.client.held
  · obtain ⟨s, hs, hsinv, hdone⟩ := hrun n
    have hdone := hdone.resolve_right (by omega)
    refine ⟨s, hs, hdone.1, ?_⟩
    have harr := hsinv.arrived
    rw [(hsinv.idle hdone.1).1, hdone.2] at harr
    have hall : s.client.received = chunks.flatten := (List.append_nil _).symm.trans harr
    rw [← hall]
    exact (hsinv.parsed hdone.1).symm

-- A line, and then a record of three bytes.
def lineThenThree (recs : List (List UInt8)) : Call :=
  if recs.length % 2 = 0 then .upto 10 else .recv 3 (by decide)

def noBufinfo : Bufinfo := ⟨false, 0, 0, 0, 0, 0, 0, 0, 0, 0, 0⟩

def cutChunks : List (List UInt8) := [[72], [10, 1], [2, 3], [65]]

theorem buffered_receive_cut :
    (∀ data ∈ cutChunks, data.length ≤ 2) ∧ Fits 2 lineThenThree 5 cutChunks.flatten ∧
      ∃ N, ∀ n, N ≤ n → ∃ s, (Session.start 0 5 (fun _ => 0) noBufinfo cutChunks).run 2
        lineThenThree n = some s ∧ s.waiting = true ∧
        (s.recs, s.client.held) = ([[72, 10], [1, 2, 3]], [65]) := by
  have hparse : parse lineThenThree cutChunks.flatten = ([[72, 10], [1, 2, 3]], [65]) := by decide
  have hchunks : ∀ data ∈ cutChunks, data.length ≤ 2 := by decide
  have hfits : Fits 2 lineThenThree 5 cutChunks.flatten := by
    intro r hr
    rw [hparse] at hr
    have hall : ∀ r ∈ [[72, 10], [1, 2, 3], ([65] : List UInt8)], r.length + 2 ≤ 5 := by decide
    refine hall r ?_
    rcases hr with hr | rfl
    · exact List.mem_append_left [[65]] hr
    · simp
  refine ⟨hchunks, hfits, ?_⟩
  have h := (buffered_receive 2 lineThenThree 0 5 (fun _ => 0) noBufinfo cutChunks hchunks hfits).2
  rwa [hparse] at h

end Xtcp.Buffered
