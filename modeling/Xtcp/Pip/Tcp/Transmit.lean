import Xtcp.Pip.Tcp.Opened

namespace Xtcp.Pip.Tcp
open Serial

variable {cfg : Config} {env : Env} {c c' : TcpConnection} {seg : Segment}

theorem bufsizeTx_pos (cfg : Config) : 0 < cfg.bufsizeTx := by
  obtain ⟨k, -, hk⟩ := cfg.powerTx
  rw [hk]
  exact Nat.two_pow_pos k

theorem bufsizeTx_lt (cfg : Config) : cfg.bufsizeTx < 2 ^ 31 := by
  obtain ⟨k, hle, hk⟩ := cfg.powerTx
  rw [hk]
  exact Nat.pow_lt_pow_right (by decide) (by omega)

section Queue

variable {q : Xqueue}

-- The queue for transmission.
structure Counts (cfg : Config) (q : Xqueue) : Prop where
  rd : q.rd < cfg.bufsizeTx
  wr : q.wr < cfg.bufsizeTx
  length : 0 ≤ q.length
  free : 0 ≤ q.free
  sum : q.length + q.free ≤ cfg.bufsizeTx
  indices : ((q.wr : Int) - q.rd) % cfg.bufsizeTx = q.length % cfg.bufsizeTx

-- What has been sent and has not been acknowledged, as the queue counts it.
def pending (cfg : Config) (q : Xqueue) : Int := cfg.bufsizeTx - q.length - q.free

theorem Counts.pending_nonneg (h : Counts cfg q) : 0 ≤ pending cfg q := by
  have hsum := h.sum
  rw [pending]
  omega

theorem Counts.notAcknowledged (h : Counts cfg c.tx) :
    notAcknowledged cfg c = pending cfg c.tx := by
  have hlength := h.length
  have hfree := h.free
  have hsum := h.sum
  have hlt := bufsizeTx_lt cfg
  have hint : int (c.tx.length + c.tx.free) = c.tx.length + c.tx.free :=
    int_eq (by omega) (by omega)
  rw [Tcp.notAcknowledged, hint, int_eq (by omega) (by omega), pending]
  omega

theorem Counts.filled (h : Counts cfg q) (hcount : 0 ≤ env.answer.count) :
    Counts cfg (filled cfg env q) ∧ pending cfg (Tcp.filled cfg env q) = pending cfg q ∧
      (Tcp.filled cfg env q).length = q.length + taken env q := by
  have hlength := h.length
  have hfree := h.free
  have hsum := h.sum
  have hindices := h.indices
  have hlt := bufsizeTx_lt cfg
  obtain ⟨t, ht⟩ := Int.eq_ofNat_of_zero_le (show 0 ≤ taken env q by rw [taken]; omega)
  have hle : (t : Int) ≤ q.free := by
    rw [← ht, taken]
    omega
  have hq : Tcp.filled cfg env q = { q with
      free := q.free - t
      length := q.length + t
      buffer := Ring.write cfg.bufsizeTx q.buffer q.wr (Segment.slice env.answer.data 0 t)
      wr := (q.wr + t) % cfg.bufsizeTx } := by
    rw [Tcp.filled, ht, int_eq (by omega) (by omega), int_eq (by omega) (by omega)]
    rfl
  rw [hq, ht]
  refine ⟨⟨h.rd, Nat.mod_lt _ (bufsizeTx_pos cfg), ?_, ?_, ?_, ?_⟩, ?_, rfl⟩
  · simp only
    omega
  · simp only
    omega
  · simp only
    omega
  · simp only [Int.natCast_mod, Int.natCast_add]
    rw [Int.emod_sub_emod, show (q.wr : Int) + t - q.rd = q.wr - q.rd + t by omega, Int.add_emod,
      hindices, ← Int.add_emod]
  · simp only [pending]
    omega

theorem Counts.drained (h : Counts cfg q) :
    Counts cfg (drained cfg q) ∧ pending cfg (Tcp.drained cfg q) = pending cfg q + q.length := by
  have hlength := h.length
  have hfree := h.free
  have hsum := h.sum
  have hindices := h.indices
  refine ⟨⟨Nat.mod_lt _ (bufsizeTx_pos cfg), h.wr, ?_, hfree, ?_, ?_⟩, ?_⟩
  · simp [Tcp.drained]
  · simp only [Tcp.drained]
    omega
  · simp only [Tcp.drained, Int.natCast_mod, Int.natCast_add, Int.toNat_of_nonneg hlength]
    rw [Int.sub_emod_emod, show (q.wr : Int) - (q.rd + q.length) = q.wr - q.rd - q.length by omega,
      Int.sub_emod, hindices, Int.sub_self]
  · simp only [pending, Tcp.drained]
    omega

theorem Counts.rewound (h : Counts cfg c.tx) :
    let q := (rewind cfg (pending cfg c.tx) c).tx
    Counts cfg q ∧ pending cfg q = 0 ∧ q.length = c.tx.length + pending cfg c.tx := by
  have hlength := h.length
  have hfree := h.free
  have hsum := h.sum
  have hindices := h.indices
  have hlt := bufsizeTx_lt cfg
  have hmask := mask_eq cfg.powerTx (c.tx.rd - pending cfg c.tx)
  have hpos : (0 : Int) < cfg.bufsizeTx := by exact_mod_cast bufsizeTx_pos cfg
  have hq : (rewind cfg (pending cfg c.tx) c).tx = { c.tx with
      length := c.tx.length + pending cfg c.tx
      rd := mask cfg.bufsizeTx (c.tx.rd - pending cfg c.tx) } := by
    have hint : int (c.tx.length + pending cfg c.tx) = c.tx.length + pending cfg c.tx :=
      int_eq (by rw [pending]; omega) (by rw [pending]; omega)
    simp only [rewind, TcpConnection.setTx, hint]
  rw [hq]
  refine ⟨⟨?_, h.wr, ?_, hfree, ?_, ?_⟩, ?_, rfl⟩
  · have hbound := Int.emod_lt_of_pos (c.tx.rd - pending cfg c.tx) hpos
    simp only
    omega
  · simp only [pending]
    omega
  · simp only [pending]
    omega
  · simp only [hmask]
    rw [Int.sub_emod_emod, show (c.tx.wr : Int) - (c.tx.rd - pending cfg c.tx) =
      c.tx.wr - c.tx.rd + pending cfg c.tx by omega, Int.add_emod, hindices, ← Int.add_emod]
  · simp only [pending]
    omega

theorem Counts.credited (h : Counts cfg c.tx) {e : Int} (he : (seg.ack - c.sndUNA).toInt = e)
    (hpos : 0 ≤ e) (hle : e ≤ pending cfg c.tx) :
    Counts cfg (credited seg c).tx ∧ (Tcp.credited seg c).tx.length = c.tx.length ∧
      (Tcp.credited seg c).tx.free = c.tx.free + e ∧
      pending cfg (Tcp.credited seg c).tx = pending cfg c.tx - e := by
  have hlength := h.length
  have hfree := h.free
  have hlt := bufsizeTx_lt cfg
  rw [pending] at hle
  have hint : int (c.tx.free + e) = c.tx.free + e := int_eq (by omega) (by omega)
  have hq : (Tcp.credited seg c).tx = { c.tx with free := c.tx.free + e } := by
    simp only [Tcp.credited, TcpConnection.setTx, TcpConnection.acknowledge, TcpConnection.note, he,
      hint]
  rw [hq]
  refine ⟨⟨h.rd, h.wr, hlength, ?_, ?_, h.indices⟩, rfl, rfl, ?_⟩
  · exact Int.add_nonneg hfree hpos
  · simp only
    omega
  · simp only [pending]
    omega

-- What is sent is what was pending at the end of the queue.
theorem Counts.load (h : Counts cfg c.tx) (hcount : c.appStatus = .writing → 0 ≤ env.answer.count)
    (hload : loadOutgoingData cfg env c = some c') :
    Counts cfg c'.tx ∧ pending cfg c'.tx = pending cfg c.tx + c.tx.length ∧
      c'.sndNXT = c.sndNXT + BitVec.ofInt 32 c.tx.length ∧ c'.sndUNA = c.sndUNA ∧
      (c.appStatus ≠ .writing → c'.tx.length = 0) := by
  obtain ⟨hdrained, hpending⟩ := h.drained
  have hlength : BitVec.ofNat 32 c.tx.length.toNat = BitVec.ofInt 32 c.tx.length := by
    rw [← BitVec.ofInt_natCast, Int.toNat_of_nonneg h.length]
  rcases loadOutgoingData_some h.rd h.wr hload with ⟨hs, rfl⟩ | ⟨hs, rfl⟩
  · exact ⟨hdrained, hpending, by rw [hlength], rfl, fun _ => rfl⟩
  · obtain ⟨hfilled, hsame, -⟩ := hdrained.filled (hcount hs.1)
    exact ⟨hfilled, hsame.trans hpending, by rw [hlength], rfl, fun hw => absurd hs.1 hw⟩

end Queue

-- The states in which data flows, and those before them.
def flowing (st : State) : Prop := st = .estab ∨ st = .closewait

def booking (st : State) : Prop := st = .listen ∨ st = .synsent ∨ st = .synrcvd ∨ flowing st

structure Booked (cfg : Config) (c : TcpConnection) : Prop where
  counts : booking c.state → Counts cfg c.tx
  length : ¬ flowing c.state → booking c.state → c.tx.length = 0
  opening : c.state = .listen ∨ c.state = .synsent → pending cfg c.tx = 0
  window : flowing c.state → c.sndNXT - c.sndUNA = BitVec.ofInt 32 (pending cfg c.tx)
  writing : c.appStatus = .writing → c.state = .estab ∧ c.appWaiting.isSome

theorem Booked.still (h : Booked cfg c) (htx : c'.tx = c.tx) (hstate : c'.state = c.state)
    (hnxt : c'.sndNXT = c.sndNXT) (huna : c'.sndUNA = c.sndUNA)
    (hwaiting : c'.appWaiting = c.appWaiting)
    (hstatus : c'.appStatus = .writing → c.appStatus = .writing) : Booked cfg c' := by
  constructor
  · rw [htx, hstate]
    exact h.counts
  · rw [htx, hstate]
    exact h.length
  · rw [htx, hstate]
    exact h.opening
  · rw [htx, hstate, hnxt, huna]
    exact h.window
  · rw [hstate, hwaiting]
    exact fun hw => h.writing (hstatus hw)

theorem Booked.over (hstate : ¬ booking c.state) (hstatus : c.appStatus ≠ .writing) :
    Booked cfg c :=
  ⟨fun hb => absurd hb hstate, fun _ hb => absurd hb hstate,
    fun ho => absurd (ho.elim Or.inl fun hs => Or.inr (Or.inl hs)) hstate,
    fun hf => absurd (Or.inr (Or.inr (Or.inr hf))) hstate, fun hw => absurd hw hstatus⟩

theorem ofInt_sub (x y : Int) : BitVec.ofInt 32 (x - y) = BitVec.ofInt 32 x - BitVec.ofInt 32 y := by
  rw [Int.sub_eq_add_neg, BitVec.ofInt_add, BitVec.ofInt_neg, BitVec.sub_eq_add_neg]

theorem Booked.load (h : Booked cfg c) (hcount : c.appStatus = .writing → 0 ≤ env.answer.count)
    (hload : loadOutgoingData cfg env c = some c') : Booked cfg c' := by
  have haside := loadOutgoingData_aside hload
  have hwriting : c'.appStatus = .writing → c'.state = .estab ∧ c'.appWaiting.isSome := by
    intro hw
    rcases haside.appStatus with hs | ⟨-, hs⟩
    · rw [haside.state, haside.appWaiting]
      exact h.writing (hs ▸ hw)
    · rw [hw] at hs
      cases hs
  by_cases hb : booking c.state
  · obtain ⟨hcounts, hpending, hnxt, huna, hlength⟩ := (h.counts hb).load hcount hload
    refine ⟨fun _ => hcounts, ?_, ?_, ?_, hwriting⟩
    · rw [haside.state]
      intro hf _
      refine hlength fun hw => hf (Or.inl (h.writing hw).1)
    · rw [haside.state, hpending]
      intro ho
      have hf : ¬ flowing c.state := by
        rcases ho with hs | hs
        all_goals simp [hs, flowing]
      rw [h.opening ho, h.length hf hb]
      rfl
    · rw [haside.state, hnxt, huna, hpending, BitVec.ofInt_add]
      intro hf
      rw [← h.window hf, BitVec.sub_eq_add_neg, BitVec.sub_eq_add_neg, BitVec.add_assoc,
        BitVec.add_assoc, BitVec.add_comm (-c.sndUNA)]
  · rw [← haside.state] at hb
    refine .over hb fun hw => hb ?_
    rw [(hwriting hw).1]
    simp [booking, flowing]

theorem Booked.aside_over (h : Booked cfg c) (ha : Aside c c') (hstate : ¬ booking c.state) :
    Booked cfg c' := by
  refine .over (ha.state ▸ hstate) fun hw => hstate ?_
  rcases ha.appStatus with hs | ⟨-, hs⟩
  · rw [(h.writing (hs ▸ hw)).1]
    simp [booking, flowing]
  · rw [hw] at hs
    cases hs

theorem Booked.filled (h : Booked cfg c) (hcount : 0 ≤ env.answer.count) (hf : flowing c.state)
    (log : List Note) :
    Booked cfg { c with tx := Tcp.filled cfg env c.tx, log := log } := by
  obtain ⟨hfilled, hsame, -⟩ := (h.counts (Or.inr (Or.inr (Or.inr hf)))).filled hcount
  refine ⟨fun _ => hfilled, fun hn => absurd hf hn, ?_, fun hf => ?_, h.writing⟩
  · rintro (hs | hs)
    all_goals
      simp only at hs
      simp [hs, flowing] at hf
  · rw [hsame]
    exact h.window hf

-- The number half way round that the comparisons let through when nothing is outstanding.
def antipode (seg : Segment) (c : TcpConnection) : Prop :=
  c.sndNXT = c.sndUNA ∧ seg.ack - c.sndUNA = 0x80000000

instance (seg : Segment) (c : TcpConnection) : Decidable (antipode seg c) :=
  inferInstanceAs (Decidable (_ ∧ _))

theorem toNat_ofInt_pending (h : Counts cfg c.tx)
    (hwindow : c.sndNXT - c.sndUNA = BitVec.ofInt 32 (pending cfg c.tx)) :
    ((c.sndNXT - c.sndUNA).toNat : Int) = pending cfg c.tx := by
  have hpos := h.pending_nonneg
  have hlt := bufsizeTx_lt cfg
  have hlength := h.length
  have hfree := h.free
  obtain ⟨p, hp⟩ := Int.eq_ofNat_of_zero_le hpos
  have hle : p < 2 ^ 31 := by
    rw [pending] at hp
    omega
  rw [hwindow, hp, BitVec.ofInt_natCast, BitVec.toNat_ofNat, Nat.mod_eq_of_lt (by omega)]

theorem Counts.inWindow (h : Counts cfg c.tx)
    (hwindow : c.sndNXT - c.sndUNA = BitVec.ofInt 32 (pending cfg c.tx))
    (ho : outside c.sndUNA c.sndNXT seg.ack = false) (hanti : ¬ antipode seg c) :
    0 ≤ (seg.ack - c.sndUNA).toInt ∧ (seg.ack - c.sndUNA).toInt ≤ pending cfg c.tx ∧
      c.sndNXT - seg.ack = BitVec.ofInt 32 (pending cfg c.tx - (seg.ack - c.sndUNA).toInt) := by
  have hnat := toNat_ofInt_pending h hwindow
  have hlt := bufsizeTx_lt cfg
  have hlength := h.length
  have hfree := h.free
  have hsmall : (c.sndNXT - c.sndUNA).toNat < 2 ^ 31 := by
    rw [pending] at hnat
    omega
  have hle : (seg.ack - c.sndUNA).toNat ≤ (c.sndNXT - c.sndUNA).toNat := by
    rcases (outside_eq_false_iff hsmall).mp ho with hle | ⟨heq, hhalf⟩
    · exact hle
    · exact absurd ⟨heq, BitVec.eq_of_toNat_eq hhalf⟩ hanti
  have hint : (seg.ack - c.sndUNA).toInt = (seg.ack - c.sndUNA).toNat := by
    rw [BitVec.toInt_eq_toNat_cond, if_pos (by omega)]
  refine ⟨by omega, by omega, ?_⟩
  rw [ofInt_sub, ← hwindow, BitVec.ofInt_toInt]
  grind

theorem Booked.takeAck (h : Booked cfg c) (hst : booking c.state → flowing c.state)
    (hcount : c.appStatus = .writing → 0 ≤ env.answer.count)
    (ho : outside c.sndUNA c.sndNXT seg.ack = false)
    (hanti : flowing c.state → ¬ antipode seg c)
    (htake : Tcp.takeAck cfg env seg c = some c') : Booked cfg c' := by
  by_cases hb : booking c.state
  · have hf := hst hb
    have hcounts := h.counts hb
    obtain ⟨hpos, hle, hnxt⟩ := hcounts.inWindow (h.window hf) ho (hanti hf)
    obtain ⟨hcredited, -, -, hpending⟩ := hcounts.credited rfl hpos hle
    have hbooked : Booked cfg (credited seg c) := by
      refine ⟨fun _ => hcredited, fun hn => absurd hf hn, ?_, fun _ => ?_, h.writing⟩
      · intro hs
        rcases hs with hs | hs
        all_goals
          change c.state = _ at hs
          simp [hs, flowing] at hf
      · rw [hpending]
        exact hnxt
    rcases takeAck_cases htake with ⟨-, rfl⟩ | ⟨-, hwriting, c₂, hcopy, hload⟩
    · exact hbooked
    · have hc₂ := copyDataFromWrite_some hcredited.wr hcopy
      have hfilled := hbooked.filled (hcount hwriting) hf c₂.log
      have hanswered : Booked cfg { c₂ with appStatus := .notWaiting } := by
        refine hfilled.still ?_ ?_ ?_ ?_ ?_ nofun
        all_goals rw [hc₂]
      exact hanswered.load nofun hload
  · exact h.aside_over (takeAck_aside htake) hb

section Application

variable {app : Chanend}

theorem counts_nil : Counts cfg { c.tx with rd := 0, wr := 0, free := cfg.bufsizeTx, length := 0 } := by
  have hpos := bufsizeTx_pos cfg
  constructor <;> simp [hpos]

theorem Booked.doAccept (c : TcpConnection) :
    Booked cfg (Tcp.doAccept cfg app (c.note (.requested app))) :=
  ⟨fun _ => counts_nil, fun _ _ => rfl, fun _ => by simp [Tcp.doAccept, initConnection, pending],
    by simp [Tcp.doAccept, initConnection, flowing], nofun⟩

theorem Booked.doConnect {ip port port' : Word} (c : TcpConnection) :
    Booked cfg (Tcp.doConnect cfg env app ip port port' (c.note (.requested app))) :=
  ⟨fun _ => counts_nil, fun _ _ => rfl, fun _ => by simp [Tcp.doConnect, initConnection, pending],
    by simp [Tcp.doConnect, initConnection, flowing], nofun⟩

theorem Booked.doClose (h : Booked cfg c) : Booked cfg (Tcp.doClose app c) := by
  have hwriting := h.writing
  unfold Tcp.doClose
  split
  all_goals
    next hst =>
    first
    | exact h
    | exact h.still rfl rfl rfl rfl rfl id
    | exact .over (by simp [booking, flowing]) (by simp_all)

theorem Booked.doRead (h : Booked cfg c) (hread : Tcp.doRead cfg env app c = some c') :
    Booked cfg c' := by
  unfold Tcp.doRead at hread
  split at hread
  · split at hread
    · obtain ⟨data, rx, -, rfl⟩ := copyDataForRead_frame hread
      exact h.still rfl rfl rfl rfl rfl id
    · obtain rfl := Option.some.inj hread
      exact ⟨h.counts, h.length, h.opening, h.window, nofun⟩
  all_goals
    obtain rfl := Option.some.inj hread
    exact h.still rfl rfl rfl rfl rfl id

theorem Booked.doWrite (h : Booked cfg c) (hcount : 0 ≤ env.answer.count)
    (hother : c.appStatus = .writing → 0 ≤ env.other.count)
    (hwrite : Tcp.doWrite cfg env app c = some c') : Booked cfg c' := by
  unfold Tcp.doWrite at hwrite
  split at hwrite
  · next hst =>
    have hf : flowing c.state := Or.inl hst
    split at hwrite
    · obtain ⟨c₂, hcopy, hload⟩ := Option.bind_eq_some_iff.mp hwrite
      have hc₂ := copyDataFromWrite_some (h.counts (Or.inr (Or.inr (Or.inr hf)))).wr hcopy
      have hfilled := h.filled hcount hf c₂.log
      have hbooked : Booked cfg c₂ := by
        refine hfilled.still ?_ ?_ ?_ ?_ ?_ ?_
        all_goals
          rw [hc₂]
          try exact id
      refine hbooked.load ?_ hload
      rw [hc₂]
      exact hother
    · obtain rfl := Option.some.inj hwrite
      exact ⟨h.counts, h.length, h.opening, h.window, fun _ => ⟨hst, rfl⟩⟩
  all_goals
    obtain rfl := Option.some.inj hwrite
    exact h.still rfl rfl rfl rfl rfl id

end Application

section Incoming

theorem Booked.incomingListen (h : Booked cfg c) (hst : c.state = .listen) :
    Booked cfg (Tcp.incomingListen env seg c) := by
  unfold Tcp.incomingListen
  split
  · exact h
  split
  · exact h.still rfl rfl rfl rfl rfl id
  split
  · have hcounts := h.counts (Or.inl hst)
    have hlength := h.length (by simp [hst, flowing]) (Or.inl hst)
    have hopening := h.opening (Or.inl hst)
    have hpos := bufsizeTx_pos cfg
    have hlt := bufsizeTx_lt cfg
    rw [pending, hlength] at hopening
    have hint : int (c.tx.free - 1) = c.tx.free - 1 := int_eq (by omega) (by omega)
    refine ⟨fun _ => ⟨hcounts.rd, hcounts.wr, hcounts.length, ?_, ?_, hcounts.indices⟩,
      fun _ _ => hlength, ?_, ?_, ?_⟩
    · simp [hint]
      omega
    · simp [hint, hlength]
      omega
    · simp
    · simp [flowing]
    · intro hw
      have hstate := (h.writing hw).1
      rw [hst] at hstate
      cases hstate
  · exact h

theorem Booked.heard (h : Booked cfg c) (seg : Segment) (hst : c.state = .synsent) :
    Booked cfg (Tcp.heard seg c) ∧ (Tcp.heard seg c).tx = c.tx ∧
      (Tcp.heard seg c).sndNXT = c.sndNXT ∧
      (Tcp.heard seg c).sndUNA = if seg.flags.ack then seg.ack else c.sndUNA := by
  have hcounts := h.counts
  have hlength := h.length
  have hopening := h.opening
  have hwriting := h.writing
  unfold Tcp.heard
  cases hack : seg.flags.ack
  all_goals cases hrst : seg.flags.rst
  all_goals
    refine ⟨⟨?_, ?_, ?_, ?_, ?_⟩, ?_, ?_, ?_⟩
    all_goals simp_all [booking, flowing]

-- The number up to which the segment acknowledges.
def una (seg : Segment) (c : TcpConnection) : Word := if seg.flags.ack then seg.ack else c.sndUNA

theorem Booked.greeted (h : Counts cfg c.tx) (hlength : c.tx.length = 0) {st : State}
    (hst : st = .synrcvd ∨
      st = .estab ∧ c.sndNXT - una seg c = BitVec.ofInt 32 (pending cfg c.tx)) (flags : Flags) :
    Booked cfg ((pipOutgoingTCP [] flags (Tcp.greeted seg c)).enter st) := by
  unfold Tcp.greeted
  unfold una at hst
  cases hack : seg.flags.ack
  all_goals
    rcases hst with rfl | ⟨rfl, hwindow⟩
    all_goals
      constructor
      all_goals simp_all [flowing]

theorem Booked.synsent (h : Booked cfg c) (hst : c.state = .synsent) (hg : Greeting env seg c c')
    (hopen : seg.flags.syn = true → una seg c = seg.ack → c.sndNXT = una seg c) :
    Booked cfg c' := by
  have hcounts := h.counts (Or.inr (Or.inl hst))
  have hlength := h.length (by simp [hst, flowing]) (Or.inr (Or.inl hst))
  have hopening := h.opening (Or.inr hst)
  obtain ⟨hheard, htx, hnxt, huna⟩ := h.heard seg hst
  have hgreeted : (Tcp.greeted seg (Tcp.heard seg c)).sndUNA = una seg c := by
    unfold Tcp.greeted una
    cases hack : seg.flags.ack
    all_goals simp [huna, hack]
  have hsame : una seg (Tcp.heard seg c) = una seg c := by
    unfold una
    cases hack : seg.flags.ack
    all_goals simp [huna, hack]
  rw [← htx] at hcounts hlength hopening
  cases hg with
  | declined =>
    have hwriting := h.writing
    unfold declined
    dsimp only
    split
    all_goals exact .over (by simp [booking, flowing]) (by simp_all)
  | heard => exact hheard
  | estab _ hs hu =>
    refine Booked.greeted hcounts hlength (Or.inr ⟨rfl, ?_⟩) _
    rw [hopening, hnxt, hsame, hopen hs (hgreeted.symm.trans hu), BitVec.sub_self]
    rfl
  | synrcvd => exact Booked.greeted hcounts hlength (Or.inl rfl) _

theorem Booked.incomingRST (h : Booked cfg c) : Booked cfg (Tcp.incomingRST c) := by
  have hwriting := h.writing
  unfold Tcp.incomingRST
  dsimp only
  split
  all_goals
    refine .over (by simp [booking, flowing]) ?_
    first
    | split
      all_goals simp_all
    | simp_all

theorem Booked.incomingSYN (h : Booked cfg c) : Booked cfg (Tcp.incomingSYN c) := by
  have hwriting := h.writing
  unfold Tcp.incomingSYN
  dsimp only
  refine .over (by simp [booking, flowing]) ?_
  split
  all_goals simp_all

theorem Booked.establish (h : Booked cfg c) (hst : c.state = .synrcvd)
    (hopen : c.sndNXT - c.sndUNA = BitVec.ofInt 32 (pending cfg c.tx + 1)) :
    Booked cfg (Tcp.establish c) := by
  have hcounts := h.counts (by simp [hst, booking])
  have hwriting := h.writing
  have hwindow : c.sndNXT - (c.sndUNA + 1) = BitVec.ofInt 32 (pending cfg c.tx) := by
    rw [BitVec.ofInt_add] at hopen
    rw [← BitVec.add_left_inj 1#32]
    grind
  unfold Tcp.establish
  dsimp only
  split
  all_goals
    refine ⟨fun _ => hcounts, ?_, ?_, fun _ => hwindow, ?_⟩
    all_goals simp_all [flowing]

theorem Booked.incomingLastAck (h : Booked cfg c) (hst : c.state = .lastack) :
    Booked cfg (Tcp.incomingLastAck seg c) := by
  have hwriting := h.writing
  unfold Tcp.incomingLastAck
  dsimp only
  split
  · refine .over ?_ ?_
    all_goals
      split
      all_goals simp_all [booking, flowing]
  · exact h

theorem Booked.beside (h : Booked cfg c) (hb : Beside c c') : Booked cfg c' := by
  have hsame := hb.sending
  simp only [sending, Prod.mk.injEq] at hsame
  refine h.still hsame.1 hb.state hsame.2.1 hsame.2.2.1 hb.appWaiting fun hw => ?_
  rcases hb.appStatus with hs | ⟨-, hs⟩
  · exact hs ▸ hw
  · rw [hw] at hs
    cases hs

theorem Booked.pipOutgoingTCP (h : Booked cfg c) (data : List UInt8) (flags : Flags) :
    Booked cfg (Tcp.pipOutgoingTCP data flags c) :=
  h.still rfl rfl rfl rfl rfl id

theorem Booked.incomingData (h : Booked cfg c) {b : Bool}
    (hdata : Tcp.incomingData cfg env seg c = some (b, c')) : Booked cfg c' := by
  unfold Tcp.incomingData at hdata
  split at hdata
  · obtain ⟨⟨b', c₂⟩, hstore, heq⟩ := Option.map_eq_some_iff.mp hdata
    obtain ⟨-, rfl⟩ := Prod.mk.inj heq
    exact (h.beside (storeIncomingData_beside hstore)).pipOutgoingTCP _ _
  · obtain ⟨-, rfl⟩ := Prod.mk.inj (Option.some.inj hdata)
    exact h

theorem Booked.incomingFIN (h : Booked cfg c) (hst : c.state ≠ .synrcvd) :
    Booked cfg (Tcp.incomingFIN c) := by
  have hcounts := h.counts
  have hwindow := h.window
  have hwriting := h.writing
  have hlength := h.length
  have hopening := h.opening
  unfold Tcp.incomingFIN
  dsimp only
  split
  all_goals
    constructor
    all_goals
      split
      all_goals simp_all [booking, flowing]

theorem Booked.acked (h : Booked cfg c) (hst : booking c.state → flowing c.state)
    (hcount : c.appStatus = .writing → 0 ≤ env.answer.count)
    (hanti : flowing c.state → ¬ antipode seg c) (ha : Acked cfg env seg c c') :
    Booked cfg c' := by
  cases ha with
  | lastAck hlast => exact h.incomingLastAck hlast
  | duplicate => exact h
  | beyond => exact h.pipOutgoingTCP _ _
  | @finwait2 c₂ hw htake hst₂ =>
    have hkept := h.takeAck hst hcount hw.range hanti htake
    have hwriting := hkept.writing
    exact .over (by simp [booking, flowing]) (by simp_all)
  | @timewait c₂ hw htake hst₂ =>
    have hkept := h.takeAck hst hcount hw.range hanti htake
    have hwriting := hkept.writing
    split
    all_goals exact .over (by simp [booking, flowing]) (by simp_all)
  | @data c₂ c₃ b hw htake _ _ hdata =>
    have hkept := (h.takeAck hst hcount hw.range hanti htake).incomingData hdata
    split
    · refine hkept.incomingFIN fun hsyn => ?_
      have hstate : c₃.state = c.state :=
        (incomingData_state hdata).trans (takeAck_aside htake).state
      have hf := hst (by rw [← hstate, hsyn]; simp [booking])
      rw [← hstate, hsyn] at hf
      simp [flowing] at hf
    · exact hkept

-- An acknowledgement of our SYN settles what the queue counts.
def opensEven (cfg : Config) (seg : Segment) (c : TcpConnection) : Prop :=
  c.state = .synrcvd → InOrder seg c → outside c.sndUNA c.sndNXT seg.ack = false →
    c.sndNXT - c.sndUNA = BitVec.ofInt 32 (pending cfg c.tx + 1)

theorem Booked.synchronized (h : Booked cfg c)
    (hst : c.state = .synrcvd ∨ c.state = .estab ∨ c.state = .finwait1 ∨ c.state = .finwait2 ∨
      c.state = .closewait ∨ c.state = .closing ∨ c.state = .lastack)
    (hcount : c.appStatus = .writing → 0 ≤ env.answer.count) (hopen : opensEven cfg seg c)
    (hanti : flowing c.state → InOrder seg c → ¬ antipode seg c)
    (hs : Synchronized cfg env seg c c') : Booked cfg c' := by
  have hoffered : Booked cfg (offered seg c) := h.still rfl rfl rfl rfl rfl id
  cases hs with
  | outOfOrder => exact h.pipOutgoingTCP _ _
  | reset => exact h.incomingRST
  | restart => exact h.incomingSYN
  | silent => exact h
  | refused => exact hoffered.still rfl rfl rfl rfl rfl id
  | opened hin hsyn ho ha =>
    have heven := hopen hsyn hin ho
    have hkept := hoffered.establish (by exact hsyn) heven
    refine hkept.acked (fun _ => Or.inl establish_state) (fun hw => ?_) (fun _ hanti => ?_) ha
    · rcases establish_appStatus (c := offered seg c) with hs | hs
      · exact hcount (hs.symm.trans hw)
      · rw [hs] at hw
        cases hw
    · obtain ⟨hnxt, hack⟩ := hanti
      simp only [establish_sndNXT, establish_sndUNA, offered] at hnxt hack
      have hone : (c.sndNXT - c.sndUNA).toNat = 1 := by
        have hdiff : c.sndNXT - c.sndUNA = 1 := by
          rw [hnxt]
          grind
        rw [hdiff]
        rfl
      have hfar : (seg.ack - c.sndUNA).toNat = 2 ^ 31 + 1 := by
        have hsum : seg.ack - c.sndUNA = 0x80000000 + 1 := by
          rw [← hack]
          grind
        rw [hsum]
        rfl
      rcases (outside_eq_false_iff (by omega)).mp ho with hle | ⟨-, hhalf⟩
      all_goals omega
  | acked hin hne ha =>
    refine hoffered.acked ?_ hcount (fun hf => hanti hf hin) ha
    rcases hst with hs | hs | hs | hs | hs | hs | hs
    all_goals simp_all [booking, flowing]

theorem Booked.incomingTimewait (h : Booked cfg c)
    (hst : c.state = .timewait ∨ c.state = .timewait0) :
    Booked cfg (Tcp.incomingTimewait seg c) := by
  have hwriting := h.writing
  unfold Tcp.incomingTimewait
  split
  · refine .over (by simp [booking, flowing]) fun hw => ?_
    have hstate := (hwriting hw).1
    rcases hst with hs | hs
    all_goals simp [hs] at hstate
  · exact h

theorem Booked.incoming (h : Booked cfg c)
    (hcount : c.appStatus = .writing → 0 ≤ env.answer.count)
    (hsyn : c.state = .synsent → seg.flags.syn = true → una seg c = seg.ack → c.sndNXT = una seg c)
    (hopen : opensEven cfg seg c) (hanti : flowing c.state → InOrder seg c → ¬ antipode seg c)
    (hs : Tcp.incoming cfg env seg c = some c') : Booked cfg c' := by
  cases incoming_cases hs with
  | closed => exact h
  | listen hst => exact h.incomingListen hst
  | synsent hst hg => exact h.synsent hst hg (hsyn hst)
  | timewait hst => exact h.incomingTimewait hst
  | synchronized hst hs => exact h.synchronized hst hcount hopen hanti hs

end Incoming

section TimeOut

theorem Booked.lapse (h : Booked cfg c) : Booked cfg (Tcp.lapse c) := by
  unfold Tcp.lapse expire
  dsimp only
  split
  · refine .over ?_ ?_
    all_goals
      split
      all_goals simp_all [booking, flowing]
  · exact h.still rfl rfl rfl rfl rfl id

-- A retransmission: back to what has not been acknowledged, and on.
theorem Booked.again (h : Booked cfg c) (hcount : c.appStatus = .writing → 0 ≤ env.answer.count)
    (hload : loadOutgoingData cfg env (rewind cfg (notAcknowledged cfg c) c) = some c') :
    Booked cfg c' := by
  have haside := loadOutgoingData_aside hload
  by_cases hb : booking c.state
  · have hcounts := h.counts hb
    rw [hcounts.notAcknowledged] at hload
    obtain ⟨hrewound, hzero, hlength⟩ := hcounts.rewound
    obtain ⟨hloaded, hpending, hnxt, huna, hall⟩ := hrewound.load hcount hload
    refine ⟨fun _ => hloaded, ?_, ?_, ?_, ?_⟩
    · rw [haside.state]
      exact fun hf _ => hall fun hw => hf (Or.inl (h.writing hw).1)
    · rw [haside.state, hpending, hzero, hlength]
      intro ho
      have hf : ¬ flowing c.state := by
        have ho' : c.state = .listen ∨ c.state = .synsent := ho
        rcases ho' with hs | hs
        all_goals simp [hs, flowing]
      rw [h.opening ho, h.length hf hb]
      rfl
    · rw [haside.state, hnxt, huna, hpending, hzero, hlength]
      intro hf
      have hwindow := h.window hf
      simp only [rewind, TcpConnection.setTx]
      rw [BitVec.ofInt_add, Int.zero_add, BitVec.ofInt_add]
      grind
    · intro hw
      rcases haside.appStatus with hs | ⟨-, hs⟩
      · rw [haside.state, haside.appWaiting]
        exact h.writing (hs ▸ hw)
      · rw [hw] at hs
        cases hs
  · exact h.aside_over (by
      have hrewound : Aside c (rewind cfg (Tcp.notAcknowledged cfg c) c) := by
        constructor <;> simp [rewind, receiving, TcpConnection.story]
      exact hrewound.trans haside) hb

theorem Booked.resend (h : Booked cfg c) (t2 : Word) : Booked cfg (Tcp.resend t2 c) := by
  have hwriting := h.writing
  have hcases := resend_cases (c := c) t2
  generalize Tcp.resend t2 c = c' at hcases
  cases hcases with
  | timewait hst => exact .over (by simp [booking, flowing]) (by simp_all)
  | timewait0 hst =>
    refine .over ?_ ?_
    all_goals
      split
      all_goals simp_all [booking, flowing]
  | syn => exact h.still rfl rfl rfl rfl rfl id
  | fin => exact h.still rfl rfl rfl rfl rfl id
  | nothing => exact h.still rfl rfl rfl rfl rfl id

theorem Booked.timeOut (h : Booked cfg c) (hcount : c.appStatus = .writing → 0 ≤ env.answer.count)
    (hs : Tcp.timeOut cfg env c = some c') : Booked cfg c' := by
  have hcount' : (Tcp.lapse c).appStatus = .writing → 0 ≤ env.answer.count := by
    unfold Tcp.lapse expire
    dsimp only
    split
    · split
      · simp
      · simp_all
    · exact hcount
  cases timeOut_cases hs with
  | stopped => exact h
  | counted => exact h.still rfl rfl rfl rfl rfl id
  | again _ _ hload => exact (h.lapse.again hcount' hload).still rfl rfl rfl rfl rfl id
  | rest => exact h.lapse.resend _

end TimeOut

section Runs

variable {n : Nat} {s : Stack n} {a : Act}

-- The applications offer no negative number of bytes.
def Offers (env : Env) (a : Act) (c : TcpConnection) : Prop :=
  match a with
  | .request _ r =>
      r = .write → 0 ≤ env.answer.count ∧ (c.appStatus = .writing → 0 ≤ env.other.count)
  | _ => c.appStatus = .writing → 0 ≤ env.answer.count

-- The connection is opened by an acknowledgement that settles what the queue counts, and no
-- acknowledgement is half way round.
def opensAndAcks (cfg : Config) (seg : Segment) (c : TcpConnection) : Prop :=
  (c.state = .synsent → seg.flags.syn = true → una seg c = seg.ack → c.sndNXT = una seg c) ∧
    opensEven cfg seg c ∧ (flowing c.state → InOrder seg c → ¬ antipode seg c)

def KeepsBooks (cfg : Config) (env : Env) (a : Act) (c : TcpConnection) : Prop :=
  Offers env a c ∧ match a with
    | .segment seg => opensAndAcks cfg seg c
    | _ => True

theorem Booked.act (h : Booked cfg c) (hc : KeepsBooks cfg env a c) (hopens : ¬ opens a)
    (hact : Tcp.act cfg env a c = some c') : Booked cfg c' := by
  obtain ⟨hoffers, hseg⟩ := hc
  cases a with
  | request app r =>
    have hnoted : Booked cfg (c.note (.requested app)) := h.still rfl rfl rfl rfl rfl id
    cases r with
    | accept => exact absurd trivial hopens
    | connect => exact absurd trivial hopens
    | close => exact Option.some.inj hact ▸ hnoted.doClose
    | read => exact hnoted.doRead hact
    | write => exact hnoted.doWrite (hoffers rfl).1 (hoffers rfl).2 hact
  | segment seg =>
    obtain ⟨hsyn, hopen, hanti⟩ := hseg
    change Tcp.incoming cfg env seg (claim seg c) = some c' at hact
    unfold claim at hact
    split at hact
    · exact h.incoming hoffers hsyn hopen hanti hact
    · have hclaimed : Booked cfg { c with
          remotePortRev := seg.srcPortRev, remoteIP := seg.srcIP, localIP := seg.dstIP } :=
        h.still rfl rfl rfl rfl rfl id
      have horder (hin : InOrder seg { c with
          remotePortRev := seg.srcPortRev, remoteIP := seg.srcIP, localIP := seg.dstIP }) :
          InOrder seg c := ⟨hin.seq, hin.rst, hin.syn, hin.ack⟩
      exact hclaimed.incoming hoffers hsyn (fun hst hin ho => hopen hst (horder hin) ho)
        (fun hf hin => hanti hf (horder hin)) hact
  | timeOut => exact h.timeOut hoffers hact
  | prepare => exact h.load hoffers hact

theorem booked_of_run (h : Run cfg (Each (KeepsBooks cfg)) s) (i : Fin n) :
    Idle (s.conns i) ∨ Booked cfg (s.conns i) :=
  h.opened (fun _ c => .doAccept c) (fun _ _ _ _ _ c => .doConnect c)
    (fun _ _ _ _ hb hc _ hopens hact => hb.act hc hopens hact) i

-- kept: a write does not touch what has not been acknowledged, which lies before wr.
structure Accounted (cfg : Config) (c : TcpConnection) : Prop where
  length : 0 ≤ c.tx.length
  free : 0 ≤ c.tx.free
  sum : c.tx.length + c.tx.free ≤ cfg.bufsizeTx
  indices : ((c.tx.wr : Int) - c.tx.rd) % cfg.bufsizeTx = c.tx.length % cfg.bufsizeTx
  window : c.sndNXT - c.sndUNA = BitVec.ofInt 32 (cfg.bufsizeTx - c.tx.length - c.tx.free)
  kept : ∀ (env : Env) (j k : Nat), 0 < j → (j : Int) ≤ cfg.bufsizeTx - c.tx.free →
    k < (taken env c.tx).toNat →
    (c.tx.wr + k) % cfg.bufsizeTx ≠ (c.tx.wr + (cfg.bufsizeTx - j)) % cfg.bufsizeTx
  rewound : (rewind cfg (notAcknowledged cfg c) c).sndNXT = c.sndUNA

theorem Booked.accounted (h : Booked cfg c) (hf : flowing c.state) : Accounted cfg c := by
  have hcounts := h.counts (Or.inr (Or.inr (Or.inr hf)))
  have hwindow := h.window hf
  refine ⟨hcounts.length, hcounts.free, hcounts.sum, hcounts.indices, hwindow, ?_, ?_⟩
  · intro env j k hj hle hk
    rw [taken] at hk
    exact Ring.mod_ne_of_lt (by omega) (by omega)
  · rw [hcounts.notAcknowledged, rewind, TcpConnection.setTx]
    change c.sndNXT - BitVec.ofInt 32 (pending cfg c.tx) = c.sndUNA
    rw [← hwindow]
    grind

theorem transmit_accounting (h : Run cfg (Each (KeepsBooks cfg)) s) (i : Fin n)
    (hst : flowing (s.conns i).state) : Accounted cfg (s.conns i) := by
  rcases booked_of_run h i with hidle | hbooked
  · simp [hidle.state, flowing] at hst
  · exact hbooked.accounted hst

instance (env : Env) (a : Act) (c : TcpConnection) : Decidable (Offers env a c) :=
  match a with
  | .request _ _ => inferInstanceAs (Decidable (_ → _ ∧ (_ → _)))
  | .segment _ | .timeOut | .prepare => inferInstanceAs (Decidable (_ → _))

theorem inOrder_iff : InOrder seg c ↔ seg.seq = c.rcvNXT ∧ seg.flags.rst = false ∧
    seg.flags.syn = false ∧ seg.flags.ack = true :=
  ⟨fun h => ⟨h.seq, h.rst, h.syn, h.ack⟩, fun ⟨hseq, hr, hs, ha⟩ => ⟨hseq, hr, hs, ha⟩⟩

instance : Decidable (InOrder seg c) := decidable_of_iff _ inOrder_iff.symm

instance (st : State) : Decidable (flowing st) := inferInstanceAs (Decidable (_ ∨ _))

instance : Decidable (opensEven cfg seg c) := inferInstanceAs (Decidable (_ → _ → _ → _))

instance : Decidable (opensAndAcks cfg seg c) :=
  inferInstanceAs (Decidable ((_ → _ → _ → _) ∧ _ ∧ (_ → _ → ¬ _)))

instance (env : Env) (a : Act) (c : TcpConnection) : Decidable (KeepsBooks cfg env a c) :=
  match a with
  | .segment _ => inferInstanceAs (Decidable (_ ∧ opensAndAcks _ _ _))
  | .request _ _ | .timeOut | .prepare => inferInstanceAs (Decidable (_ ∧ True))

-- Twelve bytes are offered and eight taken; three of these are acknowledged, and the rest is sent
-- again.
theorem transmit_accounting_of_write : ∃ s : Stack 1, Run small (Each (KeepsBooks small)) s ∧
    (s.conns 0).tx.free = 3 ∧ Accounted small (s.conns 0) := by
  obtain ⟨s, hrun, hfree, hst⟩ := exists_run small (C := KeepsBooks small)
    (P := fun s : Stack 1 => (s.conns 0).tx.free = 3 ∧ flowing (s.conns 0).state)
    [.request (during 100 2) 5 0 .accept,
      .segment (during 100 2) (packet 1000 0 { syn := true } []),
      .segment (during 100 2) (packet 1001 101 { ack := true } []),
      .request (during 100 12) 5 0 .write,
      .segment (during 100 2) (packet 1001 104 { ack := true } []),
      .timeOut fun _ => during 100 2, .timeOut fun _ => during 100 2,
      .timeOut fun _ => during 100 2, .timeOut fun _ => during 100 2] (by decide)
  exact ⟨s, hrun, hfree, transmit_accounting hrun 0 hst⟩

-- Both sides open: the SYN is not counted when it is sent, but its acknowledgement is.
theorem accounting_lost_at_open : ∃ s : Stack 1, Run small (Each Offers) s ∧
    flowing (s.conns 0).state ∧ ¬ (s.conns 0).tx.length + (s.conns 0).tx.free ≤ small.bufsizeTx :=
  exists_run small
    [.request (during 100 2) 5 0 (.connect 2 256 23),
      .segment (during 100 2) (packet 1000 0 { syn := true } []),
      .segment (during 100 2) (packet 1001 101 { ack := true } [])] (by decide)

end Runs

end Xtcp.Pip.Tcp
