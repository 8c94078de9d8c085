import Xtcp.Pip.Tcp.Opened

namespace Xtcp.Pip.Tcp
open Xtcp.Segment Serial

variable {cfg : Config} {env : Env} {c c' : TcpConnection} {seg : Segment}

theorem bufsizeRx_pos (cfg : Config) : 0 < cfg.bufsizeRx := by
  obtain ⟨k, -, hk⟩ := cfg.powerRx
  rw [hk]
  exact Nat.two_pow_pos k

theorem bufsizeRx_lt (cfg : Config) : cfg.bufsizeRx < 2 ^ 31 := by
  obtain ⟨k, hle, hk⟩ := cfg.powerRx
  rw [hk]
  exact Nat.pow_lt_pow_right (by decide) (by omega)

section Queue

variable {q : Xqueue} {input output : List UInt8}

-- The queue for reception: what went in and what came out.
structure Carries (cfg : Config) (q : Xqueue) (input output : List UInt8) : Prop where
  free : q.free + input.length = cfg.bufsizeRx + output.length
  nonneg : 0 ≤ q.free
  wr : q.wr = input.length % cfg.bufsizeRx
  rd : q.rd = output.length % cfg.bufsizeRx
  holds : Ring.Holds cfg.bufsizeRx q.buffer input
  output : output <+: input

theorem Carries.free_le (h : Carries cfg q input output) : q.free ≤ cfg.bufsizeRx := by
  have hle := h.output.length_le
  have hfree := h.free
  omega

theorem Carries.rd_lt (h : Carries cfg q input output) : q.rd < cfg.bufsizeRx :=
  h.rd ▸ Nat.mod_lt _ (bufsizeRx_pos cfg)

theorem Carries.wr_lt (h : Carries cfg q input output) : q.wr < cfg.bufsizeRx :=
  h.wr ▸ Nat.mod_lt _ (bufsizeRx_pos cfg)

theorem Carries.given_eq (h : Carries cfg q input output) :
    given cfg env q = min (cfg.bufsizeRx - q.free) env.answer.count := by
  have hlt := bufsizeRx_lt cfg
  have hle := h.free_le
  have hpos := h.nonneg
  rw [given, int_eq (by omega) (by omega)]

theorem Carries.given_nonneg (h : Carries cfg q input output) (hcount : 0 ≤ env.answer.count) :
    0 ≤ given cfg env q := by
  have hle := h.free_le
  have hgiven : given cfg env q = _ := h.given_eq
  omega

-- A read hands out what comes next.
theorem Carries.read (h : Carries cfg q input output) (hcount : 0 ≤ env.answer.count) :
    Ring.read cfg.bufsizeRx q.buffer q.rd (given cfg env q).toNat =
      (input.drop output.length).take (given cfg env q).toNat := by
  have hgiven : given cfg env q = _ := h.given_eq
  have hpos := h.nonneg
  have hfree := h.free
  have hnonneg := h.given_nonneg hcount
  rw [h.rd]
  exact h.holds.read (by omega) (by omega)

theorem Carries.emptied (h : Carries cfg q input output) (hcount : 0 ≤ env.answer.count) :
    Carries cfg (emptied cfg env q) input
      (output ++ Ring.read cfg.bufsizeRx q.buffer q.rd (given cfg env q).toNat) := by
  have hgiven : given cfg env q = _ := h.given_eq
  have hle := h.free_le
  have hpos := h.nonneg
  have hfree := h.free
  have hlt := bufsizeRx_lt cfg
  obtain ⟨g, hg⟩ := Int.eq_ofNat_of_zero_le (h.given_nonneg hcount)
  have hdata := h.read hcount
  have hq : Tcp.emptied cfg env q = { q with
      free := q.free + g, rd := (output.length + g) % cfg.bufsizeRx } := by
    rw [Tcp.emptied, hg, int_eq (by omega) (by omega), h.rd]
    simp
  rw [hg, Int.toNat_natCast] at hdata
  rw [hq, hg, Int.toNat_natCast]
  constructor
  · simp only [List.length_append, Ring.length_read]
    omega
  · exact Int.add_nonneg hpos (Int.natCast_nonneg g)
  · exact h.wr
  · simp only [List.length_append, Ring.length_read]
  · exact h.holds
  · obtain ⟨rest, rfl⟩ := h.output
    rw [hdata, List.drop_left]
    exact (List.prefix_append_right_inj _).mpr (List.take_prefix _ _)

theorem Carries.extended (h : Carries cfg q input output) :
    Carries cfg (extended cfg seg q)
      (input ++ slice seg.payload 0 (fitting seg q)) output := by
  have hpos := h.nonneg
  have hfree := h.free
  have hfit : (fitting seg q : Int) ≤ q.free := by
    rw [fitting]
    omega
  constructor
  · simp only [Tcp.extended, List.length_append, length_slice]
    omega
  · simp only [Tcp.extended]
    omega
  · simp only [Tcp.extended, List.length_append, length_slice, h.wr, Nat.mod_add_mod]
  · exact h.rd
  · simp only [Tcp.extended, h.wr]
    exact h.holds.write _
  · exact h.output.trans (List.prefix_append _ _)

end Queue

def taking (st : State) : Prop :=
  st = .synrcvd ∨ st = .estab ∨ st = .finwait1 ∨ st = .finwait2

def opening (st : State) : Prop := st = .listen ∨ st = .synsent

def stored (c : TcpConnection) : List UInt8 := elements c.story.pieces ++ elements c.story.late

structure Received (cfg : Config) (c : TcpConnection) : Prop where
  carries : Carries cfg c.rx (stored c) c.story.returned
  gapless : Gapless (c.story.irs + 1) c.story.pieces
  returned : c.story.returned <+: elements c.story.pieces
  late : c.story.ended = false → c.story.late = []
  taking : taking c.state → c.story.ended = false ∧
    c.rcvNXT = c.story.irs + 1 + BitVec.ofNat 32 (elements c.story.pieces).length
  opening : opening c.state → c.story.ended = false ∧ c.story.pieces = []
  closewait : c.state = .closewait → c.story.ended = true
  reading : c.appStatus = .reading →
    c.state = .estab ∧ c.appWaiting.isSome ∧ c.rx.free = cfg.bufsizeRx

theorem Received.keep (h : Received cfg c) (hsame : receiving c' = receiving c)
    (htaking : Tcp.taking c'.state → Tcp.taking c.state ∧ c'.rcvNXT = c.rcvNXT)
    (hopening : Tcp.opening c'.state → Tcp.opening c.state)
    (hclosewait : c'.state = .closewait → c.state = .closewait)
    (hreading : c'.appStatus = .reading →
      c'.state = .estab ∧ c'.appWaiting.isSome ∧ c'.rx.free = cfg.bufsizeRx) :
    Received cfg c' := by
  simp only [receiving, Prod.mk.injEq] at hsame
  obtain ⟨hrx, hirs, hpieces, hended, hlate, hreturned⟩ := hsame
  constructor
  · simp only [stored, hrx, hpieces, hlate, hreturned]
    exact h.carries
  · rw [hirs, hpieces]
    exact h.gapless
  · rw [hreturned, hpieces]
    exact h.returned
  · rw [hended, hlate]
    exact h.late
  · intro ht
    rw [hended, hirs, hpieces, (htaking ht).2]
    exact h.taking (htaking ht).1
  · intro ho
    rw [hended, hpieces]
    exact h.opening (hopening ho)
  · intro hw
    rw [hended]
    exact h.closewait (hclosewait hw)
  · exact hreading

theorem Received.still (h : Received cfg c) (hsame : receiving c' = receiving c)
    (hstate : c'.state = c.state) (hnxt : c'.rcvNXT = c.rcvNXT)
    (hwaiting : c'.appWaiting = c.appWaiting)
    (hstatus : c'.appStatus = .reading → c.appStatus = .reading) : Received cfg c' := by
  refine h.keep hsame ?_ ?_ ?_ ?_
  · rw [hstate]
    exact fun ht => ⟨ht, hnxt⟩
  · rw [hstate]
    exact id
  · rw [hstate]
    exact id
  · intro hr
    have hrx : c'.rx = c.rx := congrArg Prod.fst hsame
    rw [hstate, hwaiting, hrx]
    exact h.reading (hstatus hr)

theorem Received.aside (h : Received cfg c) (ha : Aside c c') : Received cfg c' := by
  refine h.still ha.receiving ha.state ha.rcvNXT ha.appWaiting fun hr => ?_
  rcases ha.appStatus with hs | ⟨-, hs⟩
  · exact hs ▸ hr
  · rw [hs] at hr
    cases hr

section Application

variable {app : Chanend}

theorem carries_nil : Carries cfg { c.rx with rd := 0, wr := 0, free := cfg.bufsizeRx, length := 0 }
    [] [] := by
  constructor <;> simp [Ring.holds_nil]

theorem Received.doAccept (c : TcpConnection) :
    Received cfg (Tcp.doAccept cfg app (c.note (.requested app))) := by
  constructor
  · simpa [Tcp.doAccept, initConnection, stored, TcpConnection.story] using carries_nil (c := c)
  all_goals simp [Tcp.doAccept, initConnection, TcpConnection.story, Gapless, Tcp.taking]

theorem Received.doConnect {ip port port' : Word} (c : TcpConnection) :
    Received cfg (Tcp.doConnect cfg env app ip port port' (c.note (.requested app))) := by
  constructor
  · simpa [Tcp.doConnect, initConnection, stored, TcpConnection.story] using carries_nil (c := c)
  all_goals simp [Tcp.doConnect, initConnection, TcpConnection.story, Gapless, Tcp.taking]

theorem Received.doClose (h : Received cfg c) : Received cfg (Tcp.doClose app c) := by
  have hreading := h.reading
  unfold Tcp.doClose
  split
  all_goals
    next hst =>
    refine h.keep (by simp [receiving, TcpConnection.story]) ?_ ?_ ?_ ?_
    all_goals simp_all [Tcp.taking, Tcp.opening]

theorem Received.emptied (h : Received cfg c) (hst : c.state = .estab)
    (hcount : 0 ≤ env.answer.count) (waiting : Option Chanend) :
    Received cfg { c with
      rx := Tcp.emptied cfg env c.rx
      appStatus := .notWaiting
      log := c.log ++ [.token waiting .reading .ack,
        .returned (Ring.read cfg.bufsizeRx c.rx.buffer c.rx.rd (given cfg env c.rx).toNat)] } := by
  have htaking := h.taking (by simp [hst, Tcp.taking])
  have hstored : stored c = elements c.story.pieces := by simp [stored, h.late htaking.1]
  have hcarries := h.carries.emptied hcount
  have hreturned := hstored ▸ hcarries.output
  refine ⟨?_, ?_, ?_, ?_, ?_, ?_, ?_, ?_⟩
  · simpa [stored, TcpConnection.story] using hcarries
  · simpa [TcpConnection.story] using h.gapless
  · simpa [TcpConnection.story] using hreturned
  · simpa [TcpConnection.story] using h.late
  · simpa [TcpConnection.story] using h.taking
  · simp [hst, Tcp.opening]
  · simp [hst]
  · simp

theorem Received.doRead (h : Received cfg c) (hcount : 0 ≤ env.answer.count)
    (hread : Tcp.doRead cfg env app c = some c') : Received cfg c' := by
  unfold Tcp.doRead at hread
  split at hread
  · next hst =>
    split at hread
    · next hfree =>
      have hc' := copyDataForRead_some h.carries.rd_lt hread
      have hstatus : c.appStatus ≠ .reading := fun hr => hfree (h.reading hr).2.2
      rw [hc']
      exact (h.emptied hst hcount _).still rfl rfl rfl rfl fun hr => absurd hr hstatus
    · next hfree =>
      obtain rfl := Option.some.inj hread
      refine h.keep (by simp [receiving, TcpConnection.story]) ?_ ?_ ?_ ?_
      all_goals simp_all [Tcp.taking, Tcp.opening]
  · obtain rfl := Option.some.inj hread
    exact h.still (by simp [receiving, TcpConnection.story]) rfl rfl rfl id
  · obtain rfl := Option.some.inj hread
    exact h.still (by simp [receiving, TcpConnection.story]) rfl rfl rfl id

theorem Received.doWrite (h : Received cfg c) (hwrite : Tcp.doWrite cfg env app c = some c') :
    Received cfg c' := by
  unfold Tcp.doWrite at hwrite
  split at hwrite
  · split at hwrite
    · obtain ⟨c₂, hcopy, hload⟩ := Option.bind_eq_some_iff.mp hwrite
      exact h.aside ((copyDataFromWrite_aside hcopy).trans (loadOutgoingData_aside hload))
    · next hst _ =>
      obtain rfl := Option.some.inj hwrite
      refine h.keep (by simp [receiving, TcpConnection.story]) ?_ ?_ ?_ ?_
      all_goals simp_all [Tcp.taking, Tcp.opening]
  · obtain rfl := Option.some.inj hwrite
    exact h.still (by simp [receiving, TcpConnection.story]) rfl rfl rfl id
  · obtain rfl := Option.some.inj hwrite
    exact h.still (by simp [receiving, TcpConnection.story]) rfl rfl rfl id

end Application

section Incoming

theorem Received.claim (h : Received cfg c) : Received cfg (Tcp.claim seg c) := by
  unfold Tcp.claim
  split
  · exact h
  · exact h.still rfl rfl rfl rfl id

theorem Received.incomingListen (h : Received cfg c) (hst : c.state = .listen) :
    Received cfg (Tcp.incomingListen env seg c) := by
  have hreading := h.reading
  obtain ⟨hended, hpieces⟩ := h.opening (Or.inl hst)
  unfold Tcp.incomingListen
  split
  · exact h
  split
  · exact h.still (by simp [receiving, TcpConnection.story]) rfl rfl rfl id
  split
  · constructor
    · simpa [stored, TcpConnection.story] using h.carries
    · simp_all [TcpConnection.story, Gapless]
    · simpa [TcpConnection.story] using h.returned
    · simpa [TcpConnection.story] using h.late
    · simp_all [TcpConnection.story]
    all_goals simp_all [TcpConnection.story, Tcp.opening]
  · exact h

theorem Received.heard (h : Received cfg c) (hst : c.state = .synsent) :
    Received cfg (Tcp.heard seg c) := by
  have hreading := h.reading
  refine h.keep ?_ ?_ ?_ ?_ ?_
  all_goals
    unfold Tcp.heard
    split
    all_goals
      split
      all_goals simp_all [receiving, TcpConnection.story, Tcp.taking, Tcp.opening]

theorem heard_story : (heard seg c).story.ended = c.story.ended ∧
    (heard seg c).story.pieces = c.story.pieces := by
  unfold heard
  split
  all_goals
    split
    all_goals simp [TcpConnection.story]

theorem Received.greeted (h : Received cfg c) (hended : c.story.ended = false)
    (hpieces : c.story.pieces = []) {st : State} (hst : st = .estab ∨ st = .synrcvd)
    (flags : Flags) :
    Received cfg ((pipOutgoingTCP [] flags (Tcp.greeted seg c)).enter st) := by
  have hcarries := h.carries
  have hreturned := h.returned
  have hlate := h.late hended
  unfold Tcp.greeted
  constructor
  all_goals
    dsimp only
    split
    all_goals rcases hst with rfl | rfl
    all_goals simp_all [TcpConnection.story, stored, Gapless, Tcp.opening]

theorem Received.synsent (h : Received cfg c) (hst : c.state = .synsent)
    (hg : Greeting env seg c c') : Received cfg c' := by
  have hreading := h.reading
  obtain ⟨hended, hpieces⟩ := h.opening (Or.inr hst)
  have hheard : Received cfg (Tcp.heard seg c) := h.heard hst
  cases hg with
  | declined =>
    refine h.keep ?_ ?_ ?_ ?_ ?_
    all_goals
      unfold declined
      dsimp only
      split
      all_goals simp_all [receiving, TcpConnection.story, Tcp.taking, Tcp.opening]
  | heard => exact hheard
  | estab =>
    exact hheard.greeted (heard_story.1.trans hended) (heard_story.2.trans hpieces) (Or.inl rfl) _
  | synrcvd =>
    exact hheard.greeted (heard_story.1.trans hended) (heard_story.2.trans hpieces) (Or.inr rfl) _

-- The connection is closed and who waits has been answered, unless it was not for a read.
theorem Received.closed (h : Received cfg c) (hsame : receiving c' = receiving c)
    (hstate : c'.state = .closed) (hstatus : c'.appStatus ≠ .reading) : Received cfg c' := by
  refine h.keep hsame ?_ ?_ ?_ ?_
  all_goals simp [hstate, hstatus, Tcp.taking, Tcp.opening]

theorem Received.incomingRST (h : Received cfg c) : Received cfg (Tcp.incomingRST c) := by
  have hreading := h.reading
  refine h.closed ?_ rfl ?_
  all_goals
    unfold Tcp.incomingRST
    dsimp only
    split
    all_goals
      first
      | split
        all_goals simp_all [receiving, TcpConnection.story]
      | simp_all [receiving, TcpConnection.story]

theorem Received.incomingSYN (h : Received cfg c) : Received cfg (Tcp.incomingSYN c) := by
  have hreading := h.reading
  refine h.closed ?_ rfl ?_
  all_goals
    unfold Tcp.incomingSYN
    dsimp only
    split
    all_goals simp_all [receiving, TcpConnection.story]

theorem Received.establish (h : Received cfg c) (hst : c.state = .synrcvd) :
    Received cfg (Tcp.establish c) := by
  have hreading := h.reading
  unfold Tcp.establish
  dsimp only
  refine h.keep ?_ ?_ ?_ ?_ ?_
  all_goals
    split
    all_goals simp_all [receiving, TcpConnection.story, Tcp.taking, Tcp.opening]

theorem Received.incomingLastAck (h : Received cfg c) (hst : c.state = .lastack) :
    Received cfg (Tcp.incomingLastAck seg c) := by
  have hreading := h.reading
  unfold Tcp.incomingLastAck
  dsimp only
  split
  · refine h.closed ?_ ?_ ?_
    all_goals
      split
      all_goals simp_all [receiving, TcpConnection.story]
  · exact h

theorem Received.extended (h : Received cfg c) (hst : Tcp.taking c.state ∨ c.state = .closewait)
    (hseq : seg.seq = c.rcvNXT)
    (hstatus : c.appStatus = .reading → (Tcp.extended cfg seg c.rx).free = cfg.bufsizeRx) :
    Received cfg { c with
      rx := Tcp.extended cfg seg c.rx
      rcvNXT := c.rcvNXT + BitVec.ofNat 32 (fitting seg c.rx)
      log := c.log ++ [.stored seg.seq (slice seg.payload 0 (fitting seg c.rx))] } := by
  have hcarries : Carries cfg (Tcp.extended cfg seg c.rx) _ _ := h.carries.extended
  have hreading := h.reading
  rcases hst with ht | hw
  · obtain ⟨hended, hnxt⟩ := h.taking ht
    have hlate := h.late hended
    have hopening : ¬ Tcp.opening c.state := by
      rcases ht with hs | hs | hs | hs
      all_goals simp [hs, Tcp.opening]
    have hclosewait : c.state ≠ .closewait := by
      rcases ht with hs | hs | hs | hs
      all_goals simp [hs]
    have hgapless := h.gapless.push (slice seg.payload 0 (fitting seg c.rx))
    rw [← hnxt, ← hseq] at hgapless
    have hreturned := h.returned.trans
      (List.prefix_append _ (slice seg.payload 0 (fitting seg c.rx)))
    simp only [TcpConnection.story, stored] at *
    constructor
    · simpa [TcpConnection.story, stored, hended, hlate] using hcarries
    · simpa [TcpConnection.story, hended] using hgapless
    · simpa [TcpConnection.story, hended] using hreturned
    · simp [TcpConnection.story, hended, hlate]
    · simp [TcpConnection.story, hended, hnxt, ofNat_add_ofNat, Nat.add_assoc]
    · exact fun ho => absurd ho hopening
    · exact fun hw => absurd hw hclosewait
    · exact fun hr => ⟨(hreading hr).1, (hreading hr).2.1, hstatus hr⟩
  · have hended := h.closewait hw
    have hgapless := h.gapless
    have hreturned := h.returned
    simp only [TcpConnection.story, stored] at *
    constructor
    · simpa [TcpConnection.story, stored, hended] using hcarries
    · simpa [TcpConnection.story, hended] using hgapless
    · simpa [TcpConnection.story, hended] using hreturned
    · simp [TcpConnection.story, hended]
    · simp [hw, Tcp.taking]
    · simp [hw, Tcp.opening]
    · simp [TcpConnection.story, hended]
    · exact fun hr => ⟨(hreading hr).1, (hreading hr).2.1, hstatus hr⟩

theorem Received.storeIncomingData (h : Received cfg c)
    (hst : Tcp.taking c.state ∨ c.state = .closewait) (hseq : seg.seq = c.rcvNXT)
    (hcount : c.appStatus = .reading → 0 ≤ env.answer.count) {b : Bool}
    (hs : Tcp.storeIncomingData cfg env seg c = some (b, c')) : Received cfg c' := by
  have hlt := bufsizeRx_lt cfg
  have hle := h.carries.free_le
  obtain ⟨-, ⟨hkeeps, rfl⟩ | ⟨hr, hfree, rfl⟩⟩ := storeIncomingData_some h.carries.rd_lt
    h.carries.wr_lt h.carries.nonneg (by omega) hs
  · exact h.extended hst hseq fun hr => not_not.mp fun hf => hkeeps ⟨hr, hf⟩
  · have hestab := (h.reading hr).1
    have hanswered : Received cfg { c with appStatus := .notWaiting } :=
      h.still rfl rfl rfl rfl nofun
    have hstored := hanswered.extended hst hseq nofun
    simpa using hstored.emptied hestab (hcount hr) c.appWaiting

theorem Received.incomingData (h : Received cfg c)
    (hst : Tcp.taking c.state ∨ c.state = .closewait) (hseq : seg.seq = c.rcvNXT)
    (hcount : c.appStatus = .reading → 0 ≤ env.answer.count) {b : Bool}
    (hs : Tcp.incomingData cfg env seg c = some (b, c')) :
    Received cfg c' ∧ c'.state = c.state := by
  unfold Tcp.incomingData at hs
  split at hs
  · obtain ⟨⟨b', c₂⟩, hstore, heq⟩ := Option.map_eq_some_iff.mp hs
    obtain ⟨-, rfl⟩ := Prod.mk.inj heq
    exact ⟨(h.storeIncomingData hst hseq hcount hstore).aside (pipOutgoingTCP_aside _ _),
      (storeIncomingData_beside hstore).state⟩
  · obtain ⟨-, rfl⟩ := Prod.mk.inj (Option.some.inj hs)
    exact ⟨h, rfl⟩

theorem Received.incomingFIN (h : Received cfg c)
    (hst : Tcp.taking c.state ∨ c.state = .closewait) : Received cfg (Tcp.incomingFIN c) := by
  have hcarries := h.carries
  have hgapless := h.gapless
  have hreturned := h.returned
  have hreading := h.reading
  have hended : (story c.log).ended = false → (story c.log).late = [] := h.late
  have hclosewait := h.closewait
  unfold Tcp.incomingFIN
  dsimp only
  split
  all_goals
    next hst =>
    constructor
    all_goals
      split
      all_goals simp_all [TcpConnection.story, stored, Tcp.taking, Tcp.opening]

theorem Received.takeAck (h : Received cfg c)
    (hst : Tcp.taking c.state ∨ c.state = .closewait ∨ c.state = .closing ∨ c.state = .lastack)
    (hseq : seg.seq = c.rcvNXT) (hcount : c.appStatus = .reading → 0 ≤ env.answer.count)
    (hw : InWindow seg c) (htake : Tcp.takeAck cfg env seg c = some c') (hst' : c'.state ≠ .closing) :
    Received cfg c' ∧ (Tcp.taking c'.state ∨ c'.state = .closewait) ∧ seg.seq = c'.rcvNXT ∧
      (c'.appStatus = .reading → 0 ≤ env.answer.count) := by
  have haside := takeAck_aside htake
  refine ⟨h.aside haside, ?_, hseq.trans haside.rcvNXT.symm, fun hr => ?_⟩
  · have hlast := hw.state
    rw [haside.state] at hst' ⊢
    simp_all
  · rcases haside.appStatus with hs | ⟨-, hs⟩
    · exact hcount (hs ▸ hr)
    · rw [hs] at hr
      cases hr

theorem Received.acked (h : Received cfg c)
    (hst : Tcp.taking c.state ∨ c.state = .closewait ∨ c.state = .closing ∨ c.state = .lastack)
    (hseq : seg.seq = c.rcvNXT) (hcount : c.appStatus = .reading → 0 ≤ env.answer.count)
    (ha : Acked cfg env seg c c') : Received cfg c' := by
  cases ha with
  | lastAck hst => exact h.incomingLastAck hst
  | duplicate => exact h
  | beyond => exact h.aside (pipOutgoingTCP_aside _ _)
  | @finwait2 c₂ _ htake hst₂ =>
    have hkept := h.aside (takeAck_aside htake)
    have hreading := hkept.reading
    refine hkept.keep ?_ ?_ ?_ ?_ ?_
    all_goals simp_all [receiving, TcpConnection.story, Tcp.taking, Tcp.opening]
  | @timewait c₂ _ htake hst₂ =>
    have hkept := h.aside (takeAck_aside htake)
    have hreading := hkept.reading
    refine hkept.keep ?_ ?_ ?_ ?_ ?_
    all_goals
      split
      all_goals simp_all [receiving, TcpConnection.story, Tcp.taking, Tcp.opening]
  | data hw htake _ hst' hdata =>
    obtain ⟨hkept, hst₂, hseq₂, hcount₂⟩ := h.takeAck hst hseq hcount hw htake hst'
    obtain ⟨hkept, hst₃⟩ := hkept.incomingData hst₂ hseq₂ hcount₂ hdata
    split
    · exact hkept.incomingFIN (hst₃ ▸ hst₂)
    · exact hkept

theorem Received.opened (h : Received cfg c) (hst : c.state = .synrcvd) (hseq : seg.seq = c.rcvNXT)
    (hcount : c.appStatus = .reading → 0 ≤ env.answer.count) :
    Received cfg (Tcp.establish c) ∧
      (Tcp.taking (Tcp.establish c).state ∨ (Tcp.establish c).state = .closewait ∨
        (Tcp.establish c).state = .closing ∨ (Tcp.establish c).state = .lastack) ∧
      seg.seq = (Tcp.establish c).rcvNXT ∧
      ((Tcp.establish c).appStatus = .reading → 0 ≤ env.answer.count) := by
  refine ⟨h.establish hst, ?_, ?_, ?_⟩
  all_goals
    unfold Tcp.establish
    dsimp only
    split
    all_goals simp_all [Tcp.taking]

theorem Received.synchronized (h : Received cfg c)
    (hst : c.state = .synrcvd ∨ c.state = .estab ∨ c.state = .finwait1 ∨ c.state = .finwait2 ∨
      c.state = .closewait ∨ c.state = .closing ∨ c.state = .lastack)
    (hcount : c.appStatus = .reading → 0 ≤ env.answer.count)
    (hs : Synchronized cfg env seg c c') : Received cfg c' := by
  have hoffered : Received cfg (offered seg c) := h.still rfl rfl rfl rfl id
  cases hs with
  | outOfOrder => exact h.aside (pipOutgoingTCP_aside _ _)
  | reset => exact h.incomingRST
  | restart => exact h.incomingSYN
  | silent => exact h
  | refused => exact hoffered.still (by simp [receiving, TcpConnection.story]) rfl rfl rfl id
  | opened hin hsyn _ ha =>
    obtain ⟨hkept, hst', hseq, hcount'⟩ := hoffered.opened (by exact hsyn) hin.seq hcount
    exact hkept.acked hst' hseq hcount' ha
  | acked hin hne ha =>
    refine hoffered.acked ?_ hin.seq hcount ha
    rcases hst with hs | hs | hs | hs | hs | hs | hs
    all_goals simp_all [Tcp.taking]

theorem Received.incomingTimewait (h : Received cfg c)
    (hst : c.state = .timewait ∨ c.state = .timewait0) :
    Received cfg (Tcp.incomingTimewait seg c) := by
  have hreading := h.reading
  unfold Tcp.incomingTimewait
  split
  · refine h.keep ?_ ?_ ?_ ?_ ?_
    all_goals
      rcases hst with hs | hs
      all_goals simp_all [receiving, TcpConnection.story, Tcp.taking, Tcp.opening]
  · exact h

theorem Received.incoming (h : Received cfg c)
    (hcount : c.appStatus = .reading → 0 ≤ env.answer.count)
    (hs : Tcp.incoming cfg env seg c = some c') : Received cfg c' := by
  cases incoming_cases hs with
  | closed => exact h
  | listen hst => exact h.incomingListen hst
  | synsent hst hg => exact h.synsent hst hg
  | timewait hst => exact h.incomingTimewait hst
  | synchronized hst hs => exact h.synchronized hst hcount hs

end Incoming

section TimeOut

theorem Received.lapse (h : Received cfg c) : Received cfg (Tcp.lapse c) := by
  unfold Tcp.lapse
  dsimp only
  split
  · refine h.closed ?_ ?_ ?_
    all_goals
      unfold expire
      dsimp only
      split
      all_goals simp_all [receiving, TcpConnection.story]
  · exact h.still rfl rfl rfl rfl id

theorem Received.resend (h : Received cfg c) (t2 : Word) : Received cfg (Tcp.resend t2 c) := by
  have hreading := h.reading
  have hcases := resend_cases (c := c) t2
  generalize Tcp.resend t2 c = c' at hcases
  cases hcases with
  | timewait hst =>
    refine h.keep ?_ ?_ ?_ ?_ ?_
    all_goals simp_all [receiving, TcpConnection.story, Tcp.taking, Tcp.opening]
  | timewait0 hst =>
    refine h.closed ?_ ?_ ?_
    all_goals
      split
      all_goals simp_all [receiving, TcpConnection.story]
  | syn => exact h.still (by simp [receiving, TcpConnection.story]) rfl rfl rfl id
  | fin => exact h.still (by simp [receiving, TcpConnection.story]) rfl rfl rfl id
  | nothing => exact h.still rfl rfl rfl rfl id

theorem Received.timeOut (h : Received cfg c) (hs : Tcp.timeOut cfg env c = some c') :
    Received cfg c' := by
  cases timeOut_cases hs with
  | stopped => exact h
  | counted => exact h.still rfl rfl rfl rfl id
  | again _ _ hload =>
    have hrewound : Received cfg (rewind cfg (notAcknowledged cfg (Tcp.lapse c)) (Tcp.lapse c)) :=
      h.lapse.still rfl rfl rfl rfl id
    exact (hrewound.aside (loadOutgoingData_aside hload)).still rfl rfl rfl rfl id
  | rest => exact h.lapse.resend _

end TimeOut

end Xtcp.Pip.Tcp
