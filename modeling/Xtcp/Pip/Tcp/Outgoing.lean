import Mathlib.Data.Nat.Init
import Xtcp.Pip.Tcp.Transmit

namespace Xtcp.Pip.Tcp
open Xtcp.Segment Serial Prefix

variable {cfg : Config} {env : Env} {c c' : TcpConnection} {seg : Segment} {k : Nat}

-- The number of the byte at k of the stream, with ISS + 1 for the first.
def Story.number (s : Story) (k : Nat) : Word := s.iss + 1 + BitVec.ofNat 32 k

-- Data has the numbers it was written under, and a FIN the one behind all that has been written.
def numbered (s : Story) : Note → Prop
  | .sent x =>
      (x.data = [] ∨ ∃ k ≤ s.written.length,
        x.seq = s.number k ∧ x.data = (s.written.drop k).take x.data.length) ∧
      (x.flags.fin = true → x.seq = s.number s.written.length)
  | _ => True

instance (s : Story) (x : Note) : Decidable (numbered s x) :=
  match x with
  | .sent x => inferInstanceAs (Decidable ((x.data = [] ∨ ∃ k ≤ _, _) ∧ (_ → _)))
  | .opened | .requested _ | .iss _ | .irs _ | .acked _ | .entered _ | .bounced _ | .token _ _ _
  | .accepted _ | .stored _ _ | .returned _ | .finished _ | .ready => isTrue trivial

-- The states in which the FIN has not been counted.
def uncounted (st : State) : Prop :=
  st = .synsent ∨ st = .synrcvd ∨ st = .estab ∨ st = .closewait ∨ st = .lastack

structure Streamed (cfg : Config) (c : TcpConnection) : Prop where
  wr : c.tx.wr = c.story.written.length % cfg.bufsizeTx
  rd : c.tx.rd = c.story.written.length % cfg.bufsizeTx
  length : c.tx.length = 0
  free : -2 ^ 31 ≤ c.tx.free ∧ c.tx.free < 2 ^ 31
  holds : Ring.Holds cfg.bufsizeTx c.tx.buffer c.story.written
  nxt : uncounted c.state → c.sndNXT = c.story.number c.story.written.length
  opening : c.state = .listen ∨ c.state = .synsent → c.story.written = []
  writing : c.appStatus = .writing → c.state = .estab ∧ c.tx.free = 0 ∧ c.appWaiting.isSome
  told : Tells numbered c.log

def numbers (c : TcpConnection) : Nat × Nat × Int × (Nat → UInt8) × Word × List UInt8 :=
  (c.tx.wr, c.tx.rd, c.tx.length, c.tx.buffer, c.story.iss, c.story.written)

theorem Streamed.keep (h : Streamed cfg c) (hsame : numbers c' = numbers c)
    (hnxt : uncounted c'.state → uncounted c.state ∧ c'.sndNXT = c.sndNXT)
    (hopening : c'.state = .listen ∨ c'.state = .synsent → c.state = .listen ∨ c.state = .synsent)
    (hfree : -2 ^ 31 ≤ c'.tx.free ∧ c'.tx.free < 2 ^ 31)
    (hwriting : c'.appStatus = .writing →
      c'.state = .estab ∧ c'.tx.free = 0 ∧ c'.appWaiting.isSome)
    (htold : Tells numbered c'.log) : Streamed cfg c' := by
  simp only [numbers, Prod.mk.injEq] at hsame
  obtain ⟨hwr, hrd, hlength, hbuffer, hiss, hwritten⟩ := hsame
  constructor
  · rw [hwr, hwritten]
    exact h.wr
  · rw [hrd, hwritten]
    exact h.rd
  · rw [hlength]
    exact h.length
  · exact hfree
  · rw [hbuffer, hwritten]
    exact h.holds
  · intro hu
    rw [(hnxt hu).2, Story.number, hiss, hwritten]
    exact h.nxt (hnxt hu).1
  · rw [hwritten]
    exact fun ho => h.opening (hopening ho)
  · exact hwriting
  · exact htold

theorem Streamed.still (h : Streamed cfg c) (hsame : numbers c' = numbers c)
    (hstate : c'.state = c.state) (hnxt : c'.sndNXT = c.sndNXT) (hfree : c'.tx.free = c.tx.free)
    (hwaiting : c'.appWaiting = c.appWaiting)
    (hstatus : c'.appStatus = .writing → c.appStatus = .writing)
    (htold : Tells numbered c'.log) : Streamed cfg c' := by
  refine h.keep hsame ?_ ?_ (hfree ▸ h.free) ?_ htold
  · rw [hstate]
    exact fun hu => ⟨hu, hnxt⟩
  · rw [hstate]
    exact id
  · rw [hstate, hfree, hwaiting]
    exact fun hw => h.writing (hstatus hw)

section Load

-- The queue holds what has been written from k on, to be sent next.
structure Due (cfg : Config) (c : TcpConnection) (k : Nat) : Prop where
  wr : c.tx.wr = c.story.written.length % cfg.bufsizeTx
  rd : c.tx.rd = k % cfg.bufsizeTx
  length : c.tx.length.toNat + k = c.story.written.length
  free : -2 ^ 31 ≤ c.tx.free ∧ c.tx.free < 2 ^ 31
  le : k ≤ c.story.written.length ∧ c.story.written.length ≤ k + cfg.bufsizeTx
  holds : Ring.Holds cfg.bufsizeTx c.tx.buffer c.story.written
  nxt : c.sndNXT = c.story.number k
  writing : c.appStatus = .writing → c.state = .estab ∧ c.tx.free = 0 ∧ c.appWaiting.isSome
  told : Tells numbered c.log

theorem Due.data (h : Due cfg c k) : unsentData cfg c.tx = c.story.written.drop k := by
  obtain ⟨hle, hsize⟩ := h.le
  have hlength := h.length
  have hn : c.tx.length.toNat = (c.story.written.drop k).length := by
    rw [List.length_drop]
    omega
  rw [unsentData, h.rd, hn, h.holds.read hsize (by rw [List.length_drop]; omega), List.take_length]

theorem Due.numbered (h : Due cfg c k) (flags : Flags) (hfin : flags.fin = false) :
    numbered c.story (.sent (header (unsentData cfg c.tx) flags c)) := by
  refine ⟨Or.inr ⟨k, h.le.1, h.nxt, ?_⟩, fun hf => ?_⟩
  · simp only [header, h.data]
    rw [List.take_length]
  · simp [header, hfin] at hf

theorem Due.next (h : Due cfg c k) : c.sndNXT + BitVec.ofNat 32 c.tx.length.toNat =
    c.story.number c.story.written.length := by
  have hlength := h.length
  have hle := h.le.1
  rw [h.nxt, Story.number, Story.number, ofNat_add_ofNat]
  congr 2
  omega

theorem Due.rd_next (h : Due cfg c k) : (c.tx.rd + c.tx.length.toNat) % cfg.bufsizeTx =
    c.story.written.length % cfg.bufsizeTx := by
  have hlength := h.length
  have hle := h.le.1
  rw [h.rd, Nat.mod_add_mod]
  congr 1
  omega

theorem readyNote_story (log : List Note) : (readyNote c).foldl Story.tell (story log) = story log ∧
    Along Story.tell numbered (story log) (readyNote c) := by
  unfold readyNote
  split
  all_goals simp [Along, Tcp.numbered]

theorem filled_none (q : Xqueue) (hwr : q.wr < cfg.bufsizeTx) (h : taken env q = 0) :
    filled cfg env q = { q with free := int q.free, length := int q.length } := by
  have hnone : slice env.answer.data 0 (taken env q).toNat = [] := by rw [h]; rfl
  rw [filled, hnone, h]
  simp [Ring.write, Nat.mod_eq_of_lt hwr]

theorem Due.load (h : Due cfg c k) (hcount : c.appStatus = .writing → 0 ≤ env.answer.count)
    (hopening : c.state = .listen ∨ c.state = .synsent → c.story.written = [])
    (hload : loadOutgoingData cfg env c = some c') : Streamed cfg c' := by
  have hpos := bufsizeTx_pos cfg
  have hwr := h.wr
  have hnext := h.next
  have hrd := h.rd_next
  have hholds := h.holds
  have hwriting := h.writing
  have hfree := h.free
  have htold := h.told
  have hnumbered := h.numbered { psh := true, ack := true } rfl
  obtain ⟨hready, hnotes⟩ := readyNote_story (c := c) c.log
  simp only [TcpConnection.story] at hwr hnext hrd hholds hopening hnumbered
  rcases loadOutgoingData_some (by rw [h.rd]; exact Nat.mod_lt _ hpos)
    (by rw [h.wr]; exact Nat.mod_lt _ hpos) hload with ⟨hs, rfl⟩ | ⟨hs, rfl⟩
  · constructor
    all_goals simp_all [TcpConnection.story, Story.number, drained, along_append, Along]
  · have hfree := (h.writing hs.1).2.1
    have hcount := hcount hs.1
    have htaken : taken env c.tx = 0 := by
      rw [taken]
      omega
    have hnone : slice env.answer.data 0 (taken env c.tx).toNat = [] := by rw [htaken]; rfl
    have hfilled : filled cfg env (drained cfg c.tx) = _ := filled_none _
      (by simp [drained, hwr, Nat.mod_lt _ hpos]) htaken
    have hint : int 0 = 0 := rfl
    rw [hnone, hfilled]
    constructor
    all_goals simp_all [TcpConnection.story, Story.number, drained, along_append, Along]
    exact ⟨trivial, trivial⟩

end Load

-- A write: what has been taken is due.
theorem Streamed.filled (h : Streamed cfg c) (hcount : 0 ≤ env.answer.count)
    (hnxt : c.sndNXT = c.story.number c.story.written.length)
    (ht : taken env c.tx ≤ cfg.bufsizeTx) (app : Option Chanend) (st : AppStatus)
    (hst : st ≠ .writing) :
    Due cfg { c with
      tx := Tcp.filled cfg env c.tx
      appStatus := st
      log := c.log ++ [.token app .writing .ack,
        .accepted (slice env.answer.data 0 (taken env c.tx).toNat)] } c.story.written.length := by
  have hfree := h.free
  have hlt := bufsizeTx_lt cfg
  have hlow : -2 ^ 31 ≤ taken env c.tx := by
    rw [taken]
    omega
  have hint : int (taken env c.tx) = taken env c.tx := int_eq hlow (by omega)
  have hholds := h.holds.write (slice env.answer.data 0 (taken env c.tx).toNat)
  refine ⟨?_, h.rd, ?_, int_range _, ?_, ?_, ?_, fun hw => absurd hw hst, ?_⟩
  · simp [Tcp.filled, TcpConnection.story, h.wr]
  · simp [Tcp.filled, TcpConnection.story, h.length, hint, Nat.add_comm]
  · simp only [TcpConnection.story, story_append, List.foldl, Story.tell, List.length_append,
      length_slice]
    omega
  · simpa [Tcp.filled, TcpConnection.story, h.wr] using hholds
  · simpa [TcpConnection.story, Story.number] using hnxt
  · simp [h.told, Along, Tcp.numbered]

section Application

variable {app : Chanend}

theorem Streamed.doAccept (c : TcpConnection) (h : Tells numbered c.log) :
    Streamed cfg (Tcp.doAccept cfg app (c.note (.requested app))) := by
  have hlt := bufsizeTx_lt cfg
  constructor
  all_goals
    simp [Tcp.doAccept, initConnection, TcpConnection.story, Ring.holds_nil, uncounted, h, Along,
      Tcp.numbered]
  omega

theorem Streamed.doConnect {ip port port' : Word} (c : TcpConnection) (h : Tells numbered c.log) :
    Streamed cfg (Tcp.doConnect cfg env app ip port port' (c.note (.requested app))) := by
  have hlt := bufsizeTx_lt cfg
  constructor
  all_goals
    simp [Tcp.doConnect, initConnection, TcpConnection.story, Ring.holds_nil, Story.number, h,
      Along, Tcp.numbered, header]
  omega

theorem Streamed.doClose (h : Streamed cfg c) : Streamed cfg (Tcp.doClose app c) := by
  have hnxt := h.nxt
  have hfree := h.free
  have htold := h.told
  have hwriting := h.writing
  simp only [TcpConnection.story] at hnxt
  unfold Tcp.doClose
  split
  all_goals
    next hst =>
    first
    | exact h
    | refine h.keep (by simp [numbers, TcpConnection.story]) ?_ ?_ ?_ ?_ ?_
      all_goals
        simp_all [uncounted, Along, Tcp.numbered, header, Story.number]

theorem Streamed.doRead (h : Streamed cfg c) (hread : Tcp.doRead cfg env app c = some c') :
    Streamed cfg c' := by
  have htold := h.told
  have hfree := h.free
  unfold Tcp.doRead at hread
  split at hread
  · split at hread
    · obtain ⟨data, rx, -, rfl⟩ := copyDataForRead_frame hread
      exact h.still (by simp [numbers, TcpConnection.story]) rfl rfl rfl rfl id
        (by simp [htold, Along, Tcp.numbered])
    · obtain rfl := Option.some.inj hread
      refine h.keep (by simp [numbers, TcpConnection.story]) ?_ ?_ ?_ ?_ ?_
      all_goals simp_all [uncounted]
  all_goals
    obtain rfl := Option.some.inj hread
    exact h.still (by simp [numbers, TcpConnection.story]) rfl rfl rfl rfl id
      (by simp [htold, Along, Tcp.numbered])

theorem Streamed.doWrite (h : Streamed cfg c) (hcount : 0 ≤ env.answer.count)
    (ht : c.state = .estab → taken env c.tx ≤ cfg.bufsizeTx)
    (hwrite : Tcp.doWrite cfg env app c = some c') : Streamed cfg c' := by
  have htold := h.told
  have hfree := h.free
  have hpos := bufsizeTx_pos cfg
  unfold Tcp.doWrite at hwrite
  split at hwrite
  · next hst =>
    split at hwrite
    · next hroom =>
      have hstatus : c.appStatus ≠ .writing := fun hw => hroom (h.writing hw).2.1
      obtain ⟨c₂, hcopy, hload⟩ := Option.bind_eq_some_iff.mp hwrite
      have hnxt := h.nxt (by simp [hst, uncounted])
      have hdue := h.filled hcount hnxt (ht hst) (some app) c.appStatus hstatus
      rw [copyDataFromWrite_some (by rw [h.wr]; exact Nat.mod_lt _ hpos) hcopy] at hload
      exact hdue.load (fun hw => absurd hw hstatus) (by simp [hst]) hload
    · obtain rfl := Option.some.inj hwrite
      refine h.keep (by simp [numbers, TcpConnection.story]) ?_ ?_ ?_ ?_ ?_
      all_goals simp_all [uncounted]
  all_goals
    obtain rfl := Option.some.inj hwrite
    exact h.still (by simp [numbers, TcpConnection.story]) rfl rfl rfl rfl id
      (by simp [htold, Along, Tcp.numbered])

end Application

section Incoming

theorem Streamed.incomingListen (h : Streamed cfg c) (hst : c.state = .listen) :
    Streamed cfg (Tcp.incomingListen env seg c) := by
  have htold := h.told
  have hwriting := h.writing
  have hwritten := h.opening (Or.inl hst)
  unfold Tcp.incomingListen
  split
  · exact h
  split
  · exact h.still (by simp [numbers, TcpConnection.story]) rfl rfl rfl rfl id
      (by simp [htold, Along, Tcp.numbered])
  split
  · have hwr := h.wr
    have hrd := h.rd
    have hlength := h.length
    simp only [TcpConnection.story] at hwritten hwr hrd
    constructor
    all_goals
      simp_all [TcpConnection.story, Ring.holds_nil, Story.number, Along, Tcp.numbered, header]
    exact int_range _
  · exact h

theorem Streamed.heard (h : Streamed cfg c) (seg : Segment) (hst : c.state = .synsent) :
    Streamed cfg (Tcp.heard seg c) ∧ (Tcp.heard seg c).sndNXT = c.sndNXT ∧
      (Tcp.heard seg c).story.iss = c.story.iss ∧
      (Tcp.heard seg c).story.written = c.story.written := by
  have htold := h.told
  have hfree := h.free
  have hwriting := h.writing
  have hwr := h.wr
  have hrd := h.rd
  have hlength := h.length
  have hholds := h.holds
  have hnxt := h.nxt
  have hopening := h.opening
  simp only [TcpConnection.story] at hwr hrd hholds hnxt hopening
  unfold Tcp.heard
  cases hack : seg.flags.ack
  all_goals cases hrst : seg.flags.rst
  all_goals
    refine ⟨⟨?_, ?_, ?_, ?_, ?_, ?_, ?_, ?_, ?_⟩, ?_, ?_, ?_⟩
    all_goals
      simp_all [TcpConnection.story, uncounted, Story.number, Along, Tcp.numbered]

theorem Streamed.greeted (h : Streamed cfg c)
    (hnxt : c.sndNXT = c.story.number c.story.written.length) {st : State}
    (hst : st = .synrcvd ∨ st = .estab) {flags : Flags} (hfin : flags.fin = false) :
    Streamed cfg ((pipOutgoingTCP [] flags (Tcp.greeted seg c)).enter st) := by
  have htold := h.told
  have hfree := h.free
  have hwr := h.wr
  have hrd := h.rd
  have hlength := h.length
  have hholds := h.holds
  simp only [TcpConnection.story] at hwr hrd hholds hnxt
  unfold Tcp.greeted
  cases hack : seg.flags.ack
  all_goals
    rcases hst with rfl | rfl
    all_goals
      constructor
      all_goals
        simp_all [TcpConnection.story, Story.number, Along, Tcp.numbered, header]

theorem Streamed.synsent (h : Streamed cfg c) (hst : c.state = .synsent)
    (hg : Greeting env seg c c') : Streamed cfg c' := by
  obtain ⟨hheard, hnxt, hiss, hwritten⟩ := h.heard seg hst
  have hnumber : (Tcp.heard seg c).sndNXT =
      (Tcp.heard seg c).story.number (Tcp.heard seg c).story.written.length := by
    rw [hnxt, Story.number, hiss, hwritten]
    exact h.nxt (Or.inl hst)
  cases hg with
  | declined =>
    have htold := h.told
    have hfree := h.free
    have hwriting := h.writing
    unfold declined
    dsimp only
    split
    all_goals
      refine h.keep (by simp [numbers, TcpConnection.story]) ?_ ?_ ?_ ?_ ?_
      all_goals simp_all [uncounted, Along, Tcp.numbered]
  | heard => exact hheard
  | estab => exact hheard.greeted hnumber (Or.inr rfl) rfl
  | synrcvd => exact hheard.greeted hnumber (Or.inl rfl) rfl

-- The connection is closed and the writer that waited has been answered.
theorem Streamed.closed (h : Streamed cfg c) (hsame : numbers c' = numbers c)
    (hstate : c'.state = .closed) (hfree : c'.tx.free = c.tx.free)
    (hstatus : c'.appStatus ≠ .writing) (htold : Tells numbered c'.log) : Streamed cfg c' := by
  refine h.keep hsame ?_ ?_ (hfree ▸ h.free) (fun hw => absurd hw hstatus) htold
  all_goals simp [hstate, uncounted]

theorem Streamed.incomingRST (h : Streamed cfg c) : Streamed cfg (Tcp.incomingRST c) := by
  have htold := h.told
  have hwriting := h.writing
  unfold Tcp.incomingRST
  dsimp only
  split
  all_goals
    first
    | split
      all_goals
        refine h.closed (by simp [numbers, TcpConnection.story]) rfl rfl ?_ ?_
        all_goals simp_all [Along, Tcp.numbered]
    | refine h.closed (by simp [numbers, TcpConnection.story]) rfl rfl ?_ ?_
      all_goals simp_all [Along, Tcp.numbered]

theorem Streamed.incomingSYN (h : Streamed cfg c) : Streamed cfg (Tcp.incomingSYN c) := by
  have htold := h.told
  have hwriting := h.writing
  unfold Tcp.incomingSYN
  dsimp only
  split
  all_goals
    refine h.closed (by simp [numbers, TcpConnection.story]) rfl rfl ?_ ?_
    all_goals simp_all [Along, Tcp.numbered]

theorem Streamed.establish (h : Streamed cfg c) (hst : c.state = .synrcvd) :
    Streamed cfg (Tcp.establish c) := by
  have htold := h.told
  have hfree := h.free
  have hwriting := h.writing
  unfold Tcp.establish
  dsimp only
  split
  all_goals
    refine h.keep (by simp [numbers, TcpConnection.story]) ?_ ?_ ?_ ?_ ?_
    all_goals simp_all [uncounted, Along, Tcp.numbered]

theorem Streamed.incomingLastAck (h : Streamed cfg c) (hst : c.state = .lastack) :
    Streamed cfg (Tcp.incomingLastAck seg c) := by
  have htold := h.told
  have hwriting := h.writing
  unfold Tcp.incomingLastAck
  dsimp only
  split
  · split
    all_goals
      refine h.closed (by simp [numbers, TcpConnection.story]) rfl rfl ?_ ?_
      all_goals simp_all [Along, Tcp.numbered]
  · exact h

theorem Streamed.credited (h : Streamed cfg c) (seg : Segment)
    (hstatus : c.appStatus ≠ .writing) :
    Streamed cfg (Tcp.credited seg c) := by
  have htold := h.told
  refine h.keep ?_ ?_ ?_ (int_range _) ?_ ?_
  all_goals simp_all [Tcp.credited, numbers, TcpConnection.story, Along, Tcp.numbered]

theorem Streamed.takeAck (h : Streamed cfg c)
    (hcount : c.appStatus = .writing → 0 ≤ env.answer.count)
    (ht : c.appStatus = .writing → taken env (Tcp.credited seg c).tx ≤ cfg.bufsizeTx)
    (htake : Tcp.takeAck cfg env seg c = some c') : Streamed cfg c' := by
  have hpos := bufsizeTx_pos cfg
  rcases takeAck_cases htake with ⟨hkeeps, rfl⟩ | ⟨-, hw, c₂, hcopy, hload⟩
  · refine h.credited seg fun hw => ?_
    have hfree := (h.writing hw).2.1
    rcases hkeeps with hne | hne
    · refine hne ?_
      have hlow := BitVec.le_toInt (seg.ack - c.sndUNA)
      have hhigh := BitVec.toInt_lt (x := seg.ack - c.sndUNA)
      simp only [Tcp.credited, TcpConnection.setTx, TcpConnection.acknowledge, TcpConnection.note,
        hfree, Int.zero_add]
      exact int_eq (by omega) (by omega)
    · exact hne hw
  · have hanswered : Streamed cfg { c with appStatus := .notWaiting } :=
      h.still rfl rfl rfl rfl rfl (by simp) h.told
    have hcredited := hanswered.credited seg (by simp)
    have hst := (h.writing hw).1
    have hnxt := hcredited.nxt (by simp [Tcp.credited, hst, uncounted])
    have hdue := hcredited.filled (hcount hw) hnxt (ht hw) c.appWaiting .notWaiting
      (by simp)
    rw [copyDataFromWrite_some (by
      simp only [Tcp.credited, TcpConnection.setTx, TcpConnection.acknowledge, TcpConnection.note]
      rw [h.wr]
      exact Nat.mod_lt _ hpos) hcopy] at hload
    exact hdue.load (by simp) (by simp [Tcp.credited, hst]) hload

theorem numbered_inward (s : Story) (x : Note) (hx : inward x) : numbered s x := by
  cases x with
  | sent => exact hx.elim
  | _ => trivial

theorem Streamed.beside (h : Streamed cfg c) (hb : Beside c c') : Streamed cfg c' := by
  have hsame := hb.sending
  simp only [sending, Prod.mk.injEq] at hsame
  obtain ⟨htx, hnxt, -, -, hiss, hwritten, -⟩ := hsame
  refine h.still (by simp only [numbers, htx, hiss, hwritten]) hb.state hnxt (by rw [htx])
    hb.appWaiting (fun hw => ?_) (hb.tells numbered_inward h.told)
  rcases hb.appStatus with hs | ⟨-, hs⟩
  · exact hs ▸ hw
  · rw [hw] at hs
    cases hs

theorem Streamed.pipOutgoingTCP (h : Streamed cfg c) {flags : Flags} (hfin : flags.fin = false) :
    Streamed cfg (Tcp.pipOutgoingTCP [] flags c) := by
  have htold := h.told
  exact h.still (by simp [numbers, TcpConnection.story]) rfl rfl rfl rfl id
    (by simp [htold, Along, Tcp.numbered, header, hfin])

theorem Streamed.incomingData (h : Streamed cfg c) {b : Bool}
    (hdata : Tcp.incomingData cfg env seg c = some (b, c')) : Streamed cfg c' := by
  unfold Tcp.incomingData at hdata
  split at hdata
  · obtain ⟨⟨b', c₂⟩, hstore, heq⟩ := Option.map_eq_some_iff.mp hdata
    obtain ⟨-, rfl⟩ := Prod.mk.inj heq
    exact (h.beside (storeIncomingData_beside hstore)).pipOutgoingTCP rfl
  · obtain ⟨-, rfl⟩ := Prod.mk.inj (Option.some.inj hdata)
    exact h

theorem Streamed.incomingFIN (h : Streamed cfg c) : Streamed cfg (Tcp.incomingFIN c) := by
  have htold := h.told
  have hfree := h.free
  have hwriting := h.writing
  unfold Tcp.incomingFIN
  dsimp only
  split
  all_goals
    split
    all_goals
      refine h.keep (by simp [numbers, TcpConnection.story]) ?_ ?_ ?_ ?_ ?_
      all_goals simp_all [uncounted, Along, Tcp.numbered, header]

theorem Streamed.acked (h : Streamed cfg c)
    (hcount : c.appStatus = .writing → 0 ≤ env.answer.count)
    (ht : InWindow seg c → c.appStatus = .writing →
      taken env (Tcp.credited seg c).tx ≤ cfg.bufsizeTx)
    (ha : Acked cfg env seg c c') : Streamed cfg c' := by
  cases ha with
  | lastAck hlast => exact h.incomingLastAck hlast
  | duplicate => exact h
  | beyond => exact h.pipOutgoingTCP rfl
  | @finwait2 c₂ hw htake hst₂ =>
    have hkept := h.takeAck hcount (ht hw) htake
    have htold := hkept.told
    have hfree := hkept.free
    have hwriting := hkept.writing
    refine hkept.keep (by simp [numbers, TcpConnection.story]) ?_ ?_ ?_ ?_ ?_
    all_goals simp_all [uncounted, Along, Tcp.numbered]
  | @timewait c₂ hw htake hst₂ =>
    have hkept := h.takeAck hcount (ht hw) htake
    have htold := hkept.told
    have hfree := hkept.free
    have hwriting := hkept.writing
    split
    all_goals
      refine hkept.keep (by simp [numbers, TcpConnection.story]) ?_ ?_ ?_ ?_ ?_
      all_goals simp_all [uncounted, Along, Tcp.numbered]
  | data hw htake _ _ hdata =>
    have hkept := (h.takeAck hcount (ht hw) htake).incomingData hdata
    split
    · exact hkept.incomingFIN
    · exact hkept

theorem Streamed.synchronized (h : Streamed cfg c)
    (hcount : c.appStatus = .writing → 0 ≤ env.answer.count)
    (ht : InOrder seg c → InWindow seg c → c.appStatus = .writing →
      taken env (Tcp.credited seg c).tx ≤ cfg.bufsizeTx)
    (hs : Synchronized cfg env seg c c') : Streamed cfg c' := by
  have htold := h.told
  have hoffered : Streamed cfg (offered seg c) := h.still rfl rfl rfl rfl rfl id htold
  cases hs with
  | outOfOrder => exact h.pipOutgoingTCP rfl
  | reset => exact h.incomingRST
  | restart => exact h.incomingSYN
  | silent => exact h
  | refused =>
    exact hoffered.still (by simp [numbers, TcpConnection.story]) rfl rfl rfl rfl id
      (by simp [htold, Along, Tcp.numbered])
  | opened hin hsyn ho ha =>
    have hstatus : (Tcp.establish (offered seg c)).appStatus ≠ .writing := by
      intro hw
      rcases establish_appStatus (c := offered seg c) with hs | hs
      · have hstate := (h.writing (hs.symm.trans hw)).1
        rw [hsyn] at hstate
        cases hstate
      · rw [hw] at hs
        cases hs
    exact (hoffered.establish (by exact hsyn)).acked (fun hw => absurd hw hstatus)
      (fun _ hw => absurd hw hstatus) ha
  | acked hin hne ha =>
    exact hoffered.acked hcount (fun hw => ht hin ⟨hw.state, hw.range⟩) ha

theorem Streamed.incomingTimewait (h : Streamed cfg c)
    (hst : c.state = .timewait ∨ c.state = .timewait0) :
    Streamed cfg (Tcp.incomingTimewait seg c) := by
  have htold := h.told
  have hfree := h.free
  have hwriting := h.writing
  unfold Tcp.incomingTimewait
  split
  · refine h.keep (by simp [numbers, TcpConnection.story]) ?_ ?_ ?_ ?_ ?_
    all_goals
      rcases hst with hs | hs
      all_goals simp_all [uncounted, Along, Tcp.numbered, header]
  · exact h

theorem Streamed.incoming (h : Streamed cfg c)
    (hcount : c.appStatus = .writing → 0 ≤ env.answer.count)
    (ht : InOrder seg c → InWindow seg c → c.appStatus = .writing →
      taken env (Tcp.credited seg c).tx ≤ cfg.bufsizeTx)
    (hs : Tcp.incoming cfg env seg c = some c') : Streamed cfg c' := by
  cases incoming_cases hs with
  | closed => exact h
  | listen hst => exact h.incomingListen hst
  | synsent hst hg => exact h.synsent hst hg
  | timewait hst => exact h.incomingTimewait hst
  | synchronized _ hs => exact h.synchronized hcount ht hs

end Incoming

section TimeOut

theorem Streamed.lapse (h : Streamed cfg c) : Streamed cfg (Tcp.lapse c) := by
  have htold := h.told
  have hwriting := h.writing
  unfold Tcp.lapse expire
  dsimp only
  split
  · split
    all_goals
      refine h.closed (by simp [numbers, TcpConnection.story]) rfl rfl ?_ ?_
      all_goals simp_all [Along, Tcp.numbered]
  · exact h.still rfl rfl rfl rfl rfl id htold

-- What the timer sends again, is what the application has written.
structure Again (cfg : Config) (c : TcpConnection) : Prop where
  nxt : c.sndNXT = c.story.number c.story.written.length
  written : notAcknowledged cfg c ≤ c.story.written.length
  size : notAcknowledged cfg c ≤ cfg.bufsizeTx

theorem Streamed.rewound (h : Streamed cfg c) (hagain : Again cfg c)
    (hn : 0 < notAcknowledged cfg c) : Due cfg (rewind cfg (notAcknowledged cfg c) c)
      (c.story.written.length - (notAcknowledged cfg c).toNat) := by
  obtain ⟨hnxt, hwritten, hsize⟩ := hagain
  obtain ⟨m, hm⟩ := Int.eq_ofNat_of_zero_le (Int.le_of_lt hn)
  rw [hm] at hwritten hsize ⊢
  have hlt := bufsizeTx_lt cfg
  have hint : int m = m := int_eq (by omega) (by omega)
  have hrd : ((c.tx.rd : Int) - m) % cfg.bufsizeTx =
      ((c.story.written.length - m : Nat) : Int) % cfg.bufsizeTx := by
    have hcast : ((c.story.written.length - m : Nat) : Int) = c.story.written.length - m := by
      omega
    rw [hcast, h.rd, Int.natCast_mod, Int.emod_sub_emod]
  have hsum : c.story.number c.story.written.length =
      c.story.number (c.story.written.length - m) + BitVec.ofNat 32 m := by
    rw [Story.number, Story.number, ofNat_add_ofNat, Nat.sub_add_cancel (by omega)]
  have hmask := mask_eq cfg.powerTx (c.tx.rd - m)
  rw [hrd, ← Int.natCast_mod] at hmask
  refine ⟨h.wr, ?_, ?_, h.free, ⟨?_, ?_⟩, h.holds, ?_, h.writing, h.told⟩
  · exact Int.ofNat.inj hmask
  · simp [rewind, h.length, hint, TcpConnection.story]
    simp only [TcpConnection.story] at hwritten
    omega
  · simp [rewind, TcpConnection.story]
  · simp only [rewind, TcpConnection.setTx, TcpConnection.story] at hwritten ⊢
    omega
  · simp only [rewind, TcpConnection.setTx, hnxt, hsum, BitVec.ofInt_natCast, Int.toNat_natCast]
    exact BitVec.add_sub_cancel _ _

-- The states in which the FIN has been counted and may be sent again.
def recounting (st : State) : Prop := st = .finwait1 ∨ st = .finwait2 ∨ st = .closing

theorem Streamed.resend (h : Streamed cfg c) (t2 : Word)
    (hfin : recounting c.state → after (c.sndNXT + 1) c.sndUNA = false) :
    Streamed cfg (Tcp.resend t2 c) := by
  have htold := h.told
  have hfree := h.free
  have hwriting := h.writing
  have hcases := resend_cases (c := c) t2
  generalize Tcp.resend t2 c = c' at hcases
  cases hcases with
  | timewait hst =>
    refine h.keep (by simp [numbers, TcpConnection.story]) ?_ ?_ ?_ ?_ ?_
    all_goals simp_all [uncounted, Along, Tcp.numbered]
  | timewait0 hst =>
    split
    all_goals
      refine h.closed (by simp [numbers, TcpConnection.story]) rfl rfl ?_ ?_
      all_goals simp_all [Along, Tcp.numbered]
  | syn =>
    have hflags : (synFlags c).fin = false := by
      unfold synFlags
      split <;> rfl
    exact h.still (by simp [numbers, TcpConnection.story]) rfl rfl rfl rfl id
      (by simp [htold, Along, Tcp.numbered, header, hflags])
  | fin hst hu =>
    have hcounted : uncounted c.state := by
      rcases hst with hs | hs | hs | hs | hs
      all_goals simp_all [uncounted, recounting]
    have hnxt := h.nxt hcounted
    simp only [TcpConnection.story] at hnxt
    exact h.still (by simp [numbers, TcpConnection.story]) rfl rfl rfl rfl id
      (by simp [htold, Along, Tcp.numbered, header, hnxt])
  | nothing => exact h.still rfl rfl rfl rfl rfl id htold

-- What the timer sends is what has been written, or a FIN that has not been counted.
def sendsAgain (cfg : Config) (c : TcpConnection) : Prop :=
  if 0 < notAcknowledged cfg c then Again cfg c
  else recounting c.state → after (c.sndNXT + 1) c.sndUNA = false

theorem Streamed.timeOut (h : Streamed cfg c)
    (hcount : c.appStatus = .writing → 0 ≤ env.answer.count)
    (hsends : fires c → sendsAgain cfg (Tcp.lapse c)) (hs : Tcp.timeOut cfg env c = some c') :
    Streamed cfg c' := by
  have hcount' : (Tcp.lapse c).appStatus = .writing → 0 ≤ env.answer.count := by
    unfold Tcp.lapse expire
    dsimp only
    split
    · split
      · simp
      · simp_all
    · exact hcount
  have hkept := h.lapse
  cases timeOut_cases hs with
  | stopped => exact h
  | counted => exact h.still rfl rfl rfl rfl rfl id h.told
  | again hf hn hload =>
    have hagain := hsends hf
    rw [sendsAgain, if_pos hn] at hagain
    have hloaded := (hkept.rewound hagain hn).load hcount' hkept.opening hload
    exact hloaded.still rfl rfl rfl rfl rfl id hloaded.told
  | rest hf hn =>
    have hfin := hsends hf
    rw [sendsAgain, if_neg hn] at hfin
    exact hkept.resend _ hfin

end TimeOut

section Runs

variable {n : Nat} {s : Stack n} {a : Act}

-- No write takes more than the ring has room for, and the timer repeats what has been written.
def RepeatsWhatIsWritten (cfg : Config) (env : Env) (a : Act) (c : TcpConnection) : Prop :=
  Offers env a c ∧ match a with
    | .request _ r => r = .write → c.state = .estab → taken env c.tx ≤ cfg.bufsizeTx
    | .segment seg => InOrder seg c → InWindow seg c → c.appStatus = .writing →
        taken env (credited seg c).tx ≤ cfg.bufsizeTx
    | .timeOut => fires c → sendsAgain cfg (lapse c)
    | .prepare => True

theorem Streamed.act (h : Streamed cfg c) (hc : RepeatsWhatIsWritten cfg env a c)
    (hdue : due a c) (hopens : ¬ opens a) (hact : Tcp.act cfg env a c = some c') :
    Streamed cfg c' := by
  obtain ⟨hoffers, hc⟩ := hc
  have htold := h.told
  cases a with
  | request app r =>
    have hnoted : Streamed cfg (c.note (.requested app)) :=
      h.still (by simp [numbers, TcpConnection.story]) rfl rfl rfl rfl id
        (by simp [htold, Along, Tcp.numbered])
    cases r with
    | accept => exact absurd trivial hopens
    | connect => exact absurd trivial hopens
    | close => exact Option.some.inj hact ▸ hnoted.doClose
    | read => exact hnoted.doRead hact
    | write => exact hnoted.doWrite (hoffers rfl).1 (hc rfl) hact
  | segment seg =>
    change Tcp.incoming cfg env seg (claim seg c) = some c' at hact
    unfold claim at hact
    split at hact
    · exact h.incoming hoffers hc hact
    · have hclaimed : Streamed cfg { c with
          remotePortRev := seg.srcPortRev, remoteIP := seg.srcIP, localIP := seg.dstIP } :=
        h.still rfl rfl rfl rfl rfl id htold
      exact hclaimed.incoming hoffers
        (fun hin hw => hc ⟨hin.seq, hin.rst, hin.syn, hin.ack⟩ ⟨hw.state, hw.range⟩) hact
  | timeOut => exact h.timeOut hoffers hc hact
  | prepare => simp [due, unsent, h.length] at hdue

theorem transmit_stream (h : Run cfg (Each (RepeatsWhatIsWritten cfg)) s) (i : Fin n) :
    Tells numbered (s.conns i).log := by
  have hrefusal (t : Story) (x : Note) (hx : refusal x) : numbered t x := by
    cases x with
    | sent => exact hx.elim
    | _ => trivial
  exact (h.opened_told (J := Streamed cfg) hrefusal (fun _ hs => hs.told) (fun _ c => .doAccept c)
    (fun _ _ _ _ _ c => .doConnect c)
    (fun _ _ _ _ hs hc hdue hopens hact => hs.act hc hdue hopens hact) i).elim (·.2) (·.told)

instance : Decidable (InWindow seg c) :=
  decidable_of_iff (c.state ≠ .lastack ∧ outside c.sndUNA c.sndNXT seg.ack = false)
    ⟨fun h => ⟨h.1, h.2⟩, fun h => ⟨h.state, h.range⟩⟩

instance : Decidable (Again cfg c) :=
  decidable_of_iff (c.sndNXT = c.story.number c.story.written.length ∧
      notAcknowledged cfg c ≤ c.story.written.length ∧ notAcknowledged cfg c ≤ cfg.bufsizeTx)
    ⟨fun h => ⟨h.1, h.2.1, h.2.2⟩, fun h => ⟨h.nxt, h.written, h.size⟩⟩

instance (st : State) : Decidable (recounting st) := inferInstanceAs (Decidable (_ ∨ _ ∨ _))

instance : Decidable (sendsAgain cfg c) := by
  unfold sendsAgain
  infer_instance

instance (env : Env) (a : Act) (c : TcpConnection) : Decidable (RepeatsWhatIsWritten cfg env a c) :=
  match a with
  | .request _ _ => inferInstanceAs (Decidable (_ ∧ (_ → _ → _)))
  | .segment _ => inferInstanceAs (Decidable (_ ∧ (_ → _ → _ → _)))
  | .timeOut => inferInstanceAs (Decidable (_ ∧ (_ → _)))
  | .prepare => inferInstanceAs (Decidable (_ ∧ True))

-- Five bytes are written, three acknowledged, and the last two sent again.
theorem transmit_stream_of_write : ∃ s : Stack 1, Run small (Each (RepeatsWhatIsWritten small)) s ∧
    (s.conns 0).story.sent.getLast?.map Sent.data = some [3, 4] ∧
    Tells numbered (s.conns 0).log := by
  obtain ⟨s, hrun, hsent⟩ := exists_run small (C := RepeatsWhatIsWritten small)
    (P := fun s : Stack 1 => (s.conns 0).story.sent.getLast?.map Sent.data = some [3, 4])
    [.request (during 100 2) 5 0 .accept,
      .segment (during 100 2) (packet 1000 0 { syn := true } []),
      .segment (during 100 2) (packet 1001 101 { ack := true } []),
      .request (during 100 5) 5 0 .write,
      .segment (during 100 2) (packet 1001 104 { ack := true } []),
      .timeOut fun _ => during 100 2, .timeOut fun _ => during 100 2,
      .timeOut fun _ => during 100 2, .timeOut fun _ => during 100 2] (by decide)
  exact ⟨s, hrun, hsent, transmit_stream hrun 0⟩

-- The acknowledgement of our SYN is late, and the timer takes the SYN for a byte.
theorem byte_sent_for_syn : ∃ s : Stack 1, Run small (Each Offers) s ∧
    ¬ Tells numbered (s.conns 0).log :=
  exists_run small
    [.request (during 100 2) 5 0 .accept,
      .segment (during 100 2) (packet 1000 0 { syn := true } []),
      .timeOut fun _ => during 100 2, .timeOut fun _ => during 100 2,
      .timeOut fun _ => during 100 2, .timeOut fun _ => during 100 2] (by decide)

end Runs

end Xtcp.Pip.Tcp
