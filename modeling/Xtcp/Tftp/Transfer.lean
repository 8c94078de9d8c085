import Xtcp.Tftp.Event
import Xtcp.Library.Prefix

namespace Xtcp.Tftp

section Blocks

structure Block where
  number : Nat
  numBytes : Int
  result : Int
  deriving DecidableEq, Repr

def takeBlock (bs : List Block) : Call → List Block
  | .transferBegin _ => []
  | .processDataBlock block _ numBytes result => bs ++ [⟨block, numBytes, result⟩]
  | _ => bs

-- The blocks given to the application since the last transfer began.
def blocks (calls : List Call) : List Block := calls.foldl takeBlock []

def numbers (bs : List Block) : List Nat := bs.map Block.number

theorem blocks_append (calls new : List Call) :
    blocks (calls ++ new) = new.foldl takeBlock (blocks calls) := List.foldl_append

def ackOf : List UInt8 → Option Nat
  | [0, 4, high, low] => some (high.toNat * 256 + low.toNat)
  | _ => none

def InOrder (bs : List Block) : Prop := ∃ k, numbers bs = List.range' 1 k

-- Block 0 is the write request.
def Acknowledges (bs : List Block) : Call → Prop
  | .send pkt => ∀ n ∈ ackOf pkt, n = 0 ∨ n ∈ numbers bs
  | _ => True

-- Every block up to and including one shorter than the others has been accepted.
structure Genuine (bs : List Block) : Prop where
  order : InOrder bs
  accepted : ∀ b ∈ bs, b.result = 0
  final : ∃ b, bs.getLast? = some b ∧ 0 ≤ b.numBytes ∧ b.numBytes < tftpBlockSize

def Completes (bs : List Block) : Call → Prop
  | .transferComplete => Genuine bs
  | _ => True

abbrev Each (C : List Block → Call → Prop) : List Block → List Call → Prop :=
  Prefix.Along takeBlock C

end Blocks

section Packets

variable {n : Nat}

theorem ntoh16_lt (m : Memory) (i : Nat) : ntoh16 m i < 2 ^ 16 := by
  have h1 := (byteAt m i).toNat_lt
  have h2 := (byteAt m (i + 1)).toNat_lt
  simp only [ntoh16]
  omega

theorem ackOf_ackPkt (h : n < 2 ^ 16) : ackOf (ackPkt n) = some n := by
  have heq : ackOf (ackPkt n) =
      some ((UInt8.ofNat (n / 256)).toNat * 256 + (UInt8.ofNat n).toNat) := rfl
  rw [heq, UInt8.toNat_ofNat', UInt8.toNat_ofNat']
  congr 1
  omega

theorem ackOf_errorPkt (code : Nat) (msg : List UInt8) : ackOf (errorPkt code msg) = none := rfl

theorem take_write (g : Globals) (pkt : List UInt8) :
    (g.write pkt).txBuf.take pkt.length = pkt := List.take_left

theorem full_iff : tftpMaxFileSize ≤ n * tftpBlockSize ↔ 256 ≤ n := by
  simp only [tftpMaxFileSize, tftpBlockSize]
  omega

end Packets

section Order

-- A transfer begins with the block counter at zero, and no packet is early.
def InSequence (s : TftpState) : Event → Prop
  | .newConnection conn _ => Begins s conn → s.globals.prevBlockNum = 0
  | .recvData conn payload stale app =>
    let rxBuf := received payload stale
    OnPort s (.recvData conn payload stale app) → Processes s conn →
      ntoh16 rxBuf 0 = tftpOpcodeData → ntoh16 rxBuf 2 ≤ s.globals.prevBlockNum + 1
  | _ => True

structure Ordered (s : TftpState) (calls : List Call) : Prop where
  counter : s.globals.prevBlockNum ≤ 256
  order : numbers (blocks calls) = List.range' 1 (min s.globals.prevBlockNum 255)
  full : s.globals.prevBlockNum = 256 →
    s.connId = -1 ∨ (s.globals.error = true ∧ s.stage ≠ .waitingForData)
  held : s.stage = .sendingAck → 0 < s.numTxBytes →
    Acknowledges (blocks calls) (.send (s.globals.txBuf.take s.numTxBytes.toNat))
  sent : Each Acknowledges [] calls

variable {s s' : TftpState} {calls new : List Call}

theorem Ordered.keep (h : Ordered s calls)
    (hsame : new.foldl takeBlock (blocks calls) = blocks calls)
    (hsent : Each Acknowledges (blocks calls) new) (hle : s'.globals.prevBlockNum ≤ 256)
    (hmin : min s'.globals.prevBlockNum 255 = min s.globals.prevBlockNum 255)
    (hfull : s'.globals.prevBlockNum = 256 →
      s'.connId = -1 ∨ (s'.globals.error = true ∧ s'.stage ≠ .waitingForData))
    (hheld : s'.stage = .sendingAck → 0 < s'.numTxBytes →
      Acknowledges (blocks calls) (.send (s'.globals.txBuf.take s'.numTxBytes.toNat))) :
    Ordered s' (calls ++ new) := by
  have hblocks : blocks (calls ++ new) = blocks calls := (blocks_append _ _).trans hsame
  constructor
  · exact hle
  · rw [hmin, hblocks]
    exact h.order
  · exact hfull
  · rw [hblocks]
    exact hheld
  · exact (Prefix.along_append _ _ _).mpr ⟨h.sent, hsent⟩

theorem Ordered.closed (h : Ordered s calls)
    (hsame : new.foldl takeBlock (blocks calls) = blocks calls)
    (hsent : Each Acknowledges (blocks calls) new) (stage : Stage) :
    Ordered { tftpClose s with stage := stage } (calls ++ new) :=
  h.keep hsame hsent h.counter rfl (fun _ => Or.inl rfl) fun _ hn => absurd hn (Int.lt_irrefl 0)

theorem acknowledges_error (bs : List Block) (g : Globals) (code : Nat) (msg : List UInt8) :
    Acknowledges bs (.send ((g.write (errorPkt code msg)).txBuf.take
      ((errorPkt code msg).length : Int).toNat)) := by
  rw [Int.toNat_natCast, take_write]
  intro n hn
  rw [ackOf_errorPkt] at hn
  cases hn

theorem acknowledges_ack (bs : List Block) (g : Globals) {block : Nat} (hlt : block < 2 ^ 16)
    (h : block = 0 ∨ block ∈ numbers bs) :
    Acknowledges bs (.send ((g.write (ackPkt block)).txBuf.take (4 : Int).toNat)) := by
  have htake : (g.write (ackPkt block)).txBuf.take (4 : Int).toNat = ackPkt block :=
    take_write g (ackPkt block)
  rw [htake]
  intro n hn
  rw [ackOf_ackPkt hlt] at hn
  obtain rfl := Option.some.inj hn
  exact h

theorem Ordered.begins (h : Ordered s calls) {conn : Connection} {begin : Int} {rest : List Call}
    (hsame : rest.foldl takeBlock [] = []) (hsent : Each Acknowledges [] rest)
    (hprev : s'.globals.prevBlockNum = 0)
    (hheld : s'.stage = .sendingAck → 0 < s'.numTxBytes →
      Acknowledges [] (.send (s'.globals.txBuf.take s'.numTxBytes.toNat))) :
    Ordered s' (calls ++ (beginCalls s conn begin ++ rest)) := by
  have hblocks : blocks (calls ++ (beginCalls s conn begin ++ rest)) = [] := by
    rw [blocks_append]
    exact hsame
  have hsent : Each Acknowledges [] (calls ++ (beginCalls s conn begin ++ rest)) :=
    (Prefix.along_append _ _ _).mpr ⟨h.sent, trivial, trivial, hsent⟩
  constructor
  · rw [hprev]
    decide
  · rw [hprev, hblocks]
    rfl
  · intro hfull
    rw [hprev] at hfull
    cases hfull
  · rw [hblocks]
    exact hheld
  · exact hsent

theorem Ordered.gives (h : Ordered s calls) (hlt : s.globals.prevBlockNum + 1 < 256)
    {data : List UInt8} {numBytes result id : Int}
    (hprev : s'.globals.prevBlockNum = s.globals.prevBlockNum + 1)
    (hheld : ∀ bs, s.globals.prevBlockNum + 1 ∈ numbers bs →
      Acknowledges bs (.send (s'.globals.txBuf.take s'.numTxBytes.toNat))) :
    Ordered s' (calls ++ [.recv,
      .processDataBlock (s.globals.prevBlockNum + 1) data numBytes result, .initSend id]) := by
  have hblocks : blocks (calls ++ [.recv,
      .processDataBlock (s.globals.prevBlockNum + 1) data numBytes result, .initSend id]) =
      blocks calls ++ [⟨s.globals.prevBlockNum + 1, numBytes, result⟩] := blocks_append _ _
  have hnumbers : numbers (blocks calls ++ [⟨s.globals.prevBlockNum + 1, numBytes, result⟩]) =
      numbers (blocks calls) ++ [s.globals.prevBlockNum + 1] := List.map_append
  have hsent := (Prefix.along_append (C := Acknowledges) [] calls [.recv,
      .processDataBlock (s.globals.prevBlockNum + 1) data numBytes result, .initSend id]).mpr
    ⟨h.sent, trivial, trivial, trivial, trivial⟩
  constructor
  · omega
  · rw [hblocks, hnumbers, h.order, hprev, Nat.min_eq_left (by omega), Nat.min_eq_left (by omega),
      List.range'_concat, Nat.one_mul, Nat.add_comm]
  · intro hfull
    omega
  · intro _ _
    rw [hblocks]
    refine hheld _ ?_
    rw [hnumbers]
    exact List.mem_append_right _ (List.mem_singleton.mpr rfl)
  · exact hsent

theorem Ordered.processed (h : Ordered s calls) {conn : Connection} {rxBuf : Memory} {n : Nat}
    {r : Reply} (hp : Processes s conn) (hr : Handled rxBuf n s.globals r) (hpos : 0 < r.2.1)
    (hseq : ntoh16 rxBuf 0 = tftpOpcodeData → ntoh16 rxBuf 2 ≤ s.globals.prevBlockNum + 1) :
    Ordered { s with globals := r.1, numTxBytes := r.2.1, stage := .sendingAck }
      (calls ++ (.recv :: r.2.2 ++ [.initSend conn.id])) := by
  have hlt : s.globals.prevBlockNum < 256 := by
    refine lt_of_le_of_ne h.counter fun hfull => ?_
    rcases h.full hfull with hid | ⟨-, hst⟩
    · have hid := hp.2.trans hid
      omega
    · exact hst hp.1
  have hquiet : Each Acknowledges (blocks calls) [.recv, .initSend conn.id] :=
    ⟨trivial, trivial, trivial⟩
  cases hr with
  | errorReceived => simp at hpos
  | rejected code msg =>
    exact h.keep rfl hquiet h.counter rfl (fun hfull => absurd hfull hlt.ne) fun _ _ =>
      acknowledges_error _ _ code msg
  | writeRequest =>
    exact h.keep rfl hquiet h.counter rfl (fun hfull => absurd hfull hlt.ne) fun _ _ =>
      acknowledges_ack _ _ (by decide) (Or.inl rfl)
  | repeated hdata hne =>
    have hprev : (s.globals.noted rxBuf n).prevBlockNum = s.globals.prevBlockNum :=
      noted_prevBlockNum ..
    refine h.keep rfl hquiet (hprev ▸ h.counter) (congrArg (min · 255) hprev)
      (fun hfull => absurd (hprev.symm.trans hfull) hlt.ne) fun _ _ =>
        acknowledges_ack _ _ (ntoh16_lt rxBuf 2) ?_
    have hle := hseq hdata
    rw [h.order, List.mem_range'_1]
    omega
  | full pkt hdata hnext hfull hpkt =>
    have hge := full_iff.mp hfull
    subst hpkt
    refine h.keep rfl hquiet ?_ ?_ (fun _ => Or.inr ⟨rfl, by simp⟩) fun _ _ =>
      acknowledges_error _ _ tftpErrorDiskFull []
    · show ntoh16 rxBuf 2 ≤ 256
      omega
    · show min (ntoh16 rxBuf 2) 255 = _
      omega
  | refused pkt result hdata hnext hfull hresult hpkt =>
    have hsmall := not_le.mp (mt full_iff.mpr (not_le.mpr hfull))
    subst hpkt
    rw [hnext] at hsmall
    simp only [deliveredCall, hnext]
    exact h.gives hsmall hnext fun bs _ =>
      acknowledges_error bs _ tftpErrorAccessViolation []
  | accepted hdata hnext hfull =>
    have hsmall := not_le.mp (mt full_iff.mpr (not_le.mpr hfull))
    rw [hnext] at hsmall
    simp only [deliveredCall, hnext]
    refine h.gives hsmall hnext fun bs hm => ?_
    exact acknowledges_ack bs _ (by omega) (Or.inr hm)

theorem ordered_step (h : Ordered s calls) {e : Event} (hc : InSequence s e) :
    Ordered (tftpHandleEvent s e).1 (calls ++ (tftpHandleEvent s e).2) := by
  have heff := tftpHandleEvent_effect s e
  generalize tftpHandleEvent s e = r at heff ⊢
  obtain ⟨s', new⟩ := r
  simp only at heff ⊢
  cases heff with
  | ignored => rwa [List.append_nil]
  | up =>
    refine h.keep rfl trivial h.counter rfl (fun hfull => ?_) fun hst => by cases hst
    exact (h.full hfull).imp_right fun he => ⟨he.1, by simp⟩
  | down id _ => exact h.closed rfl (by simp [Prefix.Along, Acknowledges]) s.stage
  | begun conn hb =>
    exact h.begins rfl (by simp [Prefix.Along, Acknowledges]) (hc hb) fun hst => by cases hst
  | refused conn begin hb _ =>
    refine h.begins rfl (by simp [Prefix.Along, Acknowledges]) (hc hb) fun _ _ => ?_
    exact acknowledges_error _ _ tftpErrorNotDefined (chars "Application error")
  | dropped => exact h.keep rfl (by simp [Prefix.Along, Acknowledges]) h.counter rfl h.full h.held
  | processed conn payload stale app r hon hp hr hpos =>
    exact h.processed hp hr hpos (hc hon hp)
  | errorReceived => exact h.closed rfl (by simp [Prefix.Along, Acknowledges]) _
  | requested e hst hn =>
    exact h.keep rfl ⟨h.held hst hn, trivial⟩ h.counter rfl h.full h.held
  | failed => exact h.closed rfl (by simp [Prefix.Along, Acknowledges]) _
  | completed => exact h.closed rfl (by simp [Prefix.Along, Acknowledges]) _
  | acked conn he =>
    refine h.keep rfl (by simp [Prefix.Along, Acknowledges]) h.counter rfl
      (fun hfull => ?_) fun hst => by
      cases hst
    refine (h.full hfull).imp_right fun hf => ?_
    rw [he] at hf
    cases hf.1
  | timedOut => exact h.closed rfl (by simp [Prefix.Along, Acknowledges]) _
  | polled => exact h.keep rfl trivial h.counter rfl h.full h.held

theorem ordered_init (txBuf : List UInt8) : Ordered (tftpInit (powerOn txBuf)) [] where
  counter := Nat.zero_le _
  order := rfl
  full hfull := by cases hfull
  held hst := by cases hst
  sent := trivial

theorem upload_in_order {txBuf : List UInt8} {events : List Event}
    (h : ∀ pre e, pre ++ [e] <+: events → InSequence (run txBuf pre).1 e) :
    InOrder (blocks (run txBuf events).2) ∧ Each Acknowledges [] (run txBuf events).2 := by
  have hinv : Ordered (run txBuf events).1 (run txBuf events).2 :=
    Prefix.forall_prefix_of_step (I := fun pre => Ordered (run txBuf pre).1 (run txBuf pre).2)
      (ordered_init txBuf) (fun pre e hp hpre => by
        rw [run_concat]
        exact ordered_step hpre (h pre e hp)) events (List.prefix_refl events)
  exact ⟨⟨_, hinv.order⟩, hinv.sent⟩

end Order

section Genuineness

-- Both signals are down when a transfer begins, and a short packet is the next one.
def LastInSequence (s : TftpState) : Event → Prop
  | .newConnection conn _ =>
    Begins s conn → s.globals.prevBlockNum = 0 ∧ s.globals.complete = false
  | .recvData conn payload stale app =>
    let rxBuf := received payload stale
    OnPort s (.recvData conn payload stale app) → Processes s conn →
      ntoh16 rxBuf 0 = tftpOpcodeData → payload.length < tftpRxBufferSize →
        tftpMinPktSize ≤ payload.length ∧ ntoh16 rxBuf 2 = s.globals.prevBlockNum + 1
  | _ => True

structure Accepted (s : TftpState) (calls : List Call) : Prop where
  order : s.connId ≠ -1 → s.globals.error = false →
    numbers (blocks calls) = List.range' 1 s.globals.prevBlockNum ∧
      ∀ b ∈ blocks calls, b.result = 0
  final : s.globals.complete = true → s.connId ≠ -1 ∧ (s.globals.error = false →
    ∃ b, (blocks calls).getLast? = some b ∧ 0 ≤ b.numBytes ∧ b.numBytes < tftpBlockSize)
  waiting : s.stage = .waitingForData → s.globals.complete = false
  completed : Each Completes [] calls

variable {s s' : TftpState} {calls new : List Call}

theorem Accepted.keep (h : Accepted s calls)
    (hsame : new.foldl takeBlock (blocks calls) = blocks calls)
    (hcompletes : Each Completes (blocks calls) new)
    (hid : s'.connId ≠ -1 → s.connId ≠ -1)
    (herror : s'.globals.error = false → s.globals.error = false)
    (hprev : s'.globals.error = false →
      s'.globals.prevBlockNum = s.globals.prevBlockNum)
    (hcomplete : s'.globals.complete = true → s'.connId ≠ -1 ∧
      (s'.globals.error = false → s.globals.complete = true))
    (hwaiting : s'.stage = .waitingForData → s'.globals.complete = false) :
    Accepted s' (calls ++ new) := by
  have hblocks : blocks (calls ++ new) = blocks calls := (blocks_append _ _).trans hsame
  constructor
  · intro hi he
    rw [hblocks, hprev he]
    exact h.order (hid hi) (herror he)
  · intro hc
    obtain ⟨hi, hc⟩ := hcomplete hc
    refine ⟨hi, fun he => ?_⟩
    rw [hblocks]
    exact (h.final (hc he)).2 (herror he)
  · exact hwaiting
  · exact (Prefix.along_append _ _ _).mpr ⟨h.completed, hcompletes⟩

theorem Accepted.same (h : Accepted s calls)
    (hsame : new.foldl takeBlock (blocks calls) = blocks calls)
    (hcompletes : Each Completes (blocks calls) new) (hid : s'.connId = s.connId)
    (hglobals : s'.globals = s.globals)
    (hwaiting : s'.stage = .waitingForData → s.globals.complete = false) :
    Accepted s' (calls ++ new) := by
  refine h.keep hsame hcompletes ?_ ?_ ?_ ?_ ?_
  · rw [hid]
    exact id
  · rw [hglobals]
    exact id
  · intro _
    rw [hglobals]
  · rw [hglobals, hid]
    exact fun hc => ⟨(h.final hc).1, fun _ => hc⟩
  · rw [hglobals]
    exact hwaiting

theorem Accepted.closed (h : Accepted s calls)
    (hcompletes : Each Completes (blocks calls) new) (stage : Stage) :
    Accepted { tftpClose s with stage := stage } (calls ++ new) := by
  constructor
  · intro hid
    exact absurd rfl hid
  · intro hc
    cases hc
  · exact fun _ => rfl
  · exact (Prefix.along_append _ _ _).mpr ⟨h.completed, hcompletes⟩

theorem Accepted.genuine (h : Accepted s calls) (he : s.globals.error = false)
    (hc : s.globals.complete = true) : Genuine (blocks calls) := by
  obtain ⟨hid, hfinal⟩ := h.final hc
  obtain ⟨horder, hall⟩ := h.order hid he
  exact ⟨⟨_, horder⟩, hall, hfinal he⟩

theorem Accepted.begins (h : Accepted s calls) {conn : Connection} {begin : Int} {rest : List Call}
    (hsame : rest.foldl takeBlock [] = []) (hcompletes : Each Completes [] rest)
    (hprev : s'.globals.prevBlockNum = 0) (hcomplete : s'.globals.complete = false) :
    Accepted s' (calls ++ (beginCalls s conn begin ++ rest)) := by
  have hblocks : blocks (calls ++ (beginCalls s conn begin ++ rest)) = [] := by
    rw [blocks_append]
    exact hsame
  constructor
  · intro _ _
    rw [hblocks, hprev]
    exact ⟨rfl, by simp⟩
  · intro hc
    rw [hcomplete] at hc
    cases hc
  · exact fun _ => hcomplete
  · exact (Prefix.along_append _ _ _).mpr ⟨h.completed, trivial, trivial, hcompletes⟩

-- One more block: it has been accepted when no error is signalled, and a short one is the last.
theorem Accepted.gives (h : Accepted s calls) (hid : s.connId ≠ -1)
    {data : List UInt8} {numBytes result id : Int}
    (hsame : s'.connId = s.connId) (hst : s'.stage ≠ .waitingForData)
    (haccepted : s'.globals.error = false → s.globals.error = false ∧ result = 0 ∧
      s'.globals.prevBlockNum = s.globals.prevBlockNum + 1)
    (hshort : s'.globals.complete = true → 0 ≤ numBytes ∧ numBytes < tftpBlockSize) :
    Accepted s' (calls ++ [.recv,
      .processDataBlock (s.globals.prevBlockNum + 1) data numBytes result, .initSend id]) := by
  have hblocks : blocks (calls ++ [.recv,
      .processDataBlock (s.globals.prevBlockNum + 1) data numBytes result, .initSend id]) =
      blocks calls ++ [⟨s.globals.prevBlockNum + 1, numBytes, result⟩] := blocks_append _ _
  constructor
  · intro _ he
    obtain ⟨he, hresult, hprev⟩ := haccepted he
    obtain ⟨horder, hall⟩ := h.order hid he
    rw [hblocks]
    constructor
    · rw [numbers, List.map_append, ← numbers, horder, hprev, List.range'_concat, Nat.one_mul,
        Nat.add_comm]
      rfl
    · intro b hb
      rcases List.mem_append.mp hb with hb | hb
      · exact hall b hb
      · rw [List.mem_singleton.mp hb]
        exact hresult
  · intro hc
    refine ⟨hsame ▸ hid, fun _ => ?_⟩
    rw [hblocks, List.getLast?_concat]
    exact ⟨_, rfl, hshort hc⟩
  · exact fun hw => absurd hw hst
  · exact (Prefix.along_append _ _ _).mpr ⟨h.completed, trivial, trivial, trivial, trivial⟩

theorem Accepted.processed (h : Accepted s calls) {conn : Connection} {rxBuf : Memory} {n : Nat}
    {r : Reply} (hp : Processes s conn) (hr : Handled rxBuf n s.globals r) (hpos : 0 < r.2.1)
    (hlast : ntoh16 rxBuf 0 = tftpOpcodeData → n < tftpRxBufferSize →
      tftpMinPktSize ≤ n ∧ ntoh16 rxBuf 2 = s.globals.prevBlockNum + 1) :
    Accepted { s with globals := r.1, numTxBytes := r.2.1, stage := .sendingAck }
      (calls ++ (.recv :: r.2.2 ++ [.initSend conn.id])) := by
  have hid : s.connId ≠ -1 := by
    intro hid
    have := hp.2.trans hid
    omega
  have hcomplete := h.waiting hp.1
  have hquiet : Each Completes (blocks calls) [.recv, .initSend conn.id] :=
    ⟨trivial, trivial, trivial⟩
  have hshort : (s.globals.noted rxBuf n).complete = true → n < tftpRxBufferSize := by
    rw [noted_complete, hcomplete, Bool.false_or, decide_eq_true_iff]
    exact id
  have hlength (hdata : ntoh16 rxBuf 0 = tftpOpcodeData) (hn : n < tftpRxBufferSize) :
      0 ≤ dataLen n ∧ dataLen n < tftpBlockSize := by
    have hmin := (hlast hdata hn).1
    simp only [dataLen, tftpMinPktSize, tftpRxBufferSize, tftpBlockSize] at hn hmin ⊢
    omega
  cases hr with
  | errorReceived => simp at hpos
  | rejected code msg =>
    exact h.keep rfl hquiet id (fun he => by cases he) (fun _ => rfl)
      (fun _ => ⟨hid, fun he => by cases he⟩) fun hst => by cases hst
  | writeRequest =>
    exact h.keep rfl hquiet id id (fun _ => rfl) (fun hc => ⟨hid, fun _ => hc⟩)
      fun hst => by cases hst
  | repeated hdata hne =>
    refine h.keep rfl hquiet id (fun he => (noted_error rxBuf n s.globals).symm.trans he)
      (fun _ => noted_prevBlockNum rxBuf n s.globals) (fun hc => ?_) fun hst => by cases hst
    exact absurd (hlast hdata (hshort hc)).2 hne
  | full pkt hdata hnext hfull hpkt =>
    exact h.keep rfl hquiet id (fun he => by cases he) (fun he => by cases he)
      (fun _ => ⟨hid, fun he => by cases he⟩) fun hst => by cases hst
  | refused pkt result hdata hnext hfull hresult hpkt =>
    simp only [deliveredCall, hnext]
    exact h.gives hid rfl (by simp) (fun he => by cases he) fun hc =>
      hlength hdata (hshort hc)
  | accepted hdata hnext hfull =>
    simp only [deliveredCall, hnext]
    refine h.gives hid rfl (by simp) (fun he => ?_) fun hc => hlength hdata (hshort hc)
    exact ⟨(noted_error rxBuf n s.globals).symm.trans he, rfl, hnext⟩

theorem accepted_step (h : Accepted s calls) {e : Event} (hc : LastInSequence s e) :
    Accepted (tftpHandleEvent s e).1 (calls ++ (tftpHandleEvent s e).2) := by
  have heff := tftpHandleEvent_effect s e
  generalize tftpHandleEvent s e = r at heff ⊢
  obtain ⟨s', new⟩ := r
  simp only at heff ⊢
  cases heff with
  | ignored => rwa [List.append_nil]
  | up =>
    exact h.same rfl trivial rfl rfl fun hst => by cases hst
  | down id _ => exact h.closed (by simp [Prefix.Along, Completes]) s.stage
  | begun conn hb =>
    exact h.begins rfl (by simp [Prefix.Along, Completes]) (hc hb).1 (hc hb).2
  | refused conn begin hb _ =>
    exact h.begins rfl (by simp [Prefix.Along, Completes]) (hc hb).1 (hc hb).2
  | dropped =>
    exact h.same rfl (by simp [Prefix.Along, Completes]) rfl rfl h.waiting
  | processed conn payload stale app r hon hp hr hpos =>
    exact h.processed hp hr hpos (hc hon hp)
  | errorReceived => exact h.closed (by simp [Prefix.Along, Completes]) _
  | requested =>
    exact h.same rfl (by simp [Prefix.Along, Completes]) rfl rfl h.waiting
  | failed => exact h.closed (by simp [Prefix.Along, Completes]) _
  | completed conn he hcomplete =>
    have hcompletes : Each Completes (blocks calls)
        [.completeSend, .transferComplete, .close conn.id] :=
      ⟨trivial, h.genuine he hcomplete, trivial, trivial⟩
    exact h.closed hcompletes _
  | acked conn _ hcomplete =>
    exact h.same rfl (by simp [Prefix.Along, Completes]) rfl rfl fun _ => hcomplete
  | timedOut => exact h.closed (by simp [Prefix.Along, Completes]) _
  | polled =>
    exact h.same rfl trivial rfl rfl h.waiting

theorem accepted_init (txBuf : List UInt8) : Accepted (tftpInit (powerOn txBuf)) [] where
  order hid := absurd rfl hid
  final hc := by cases hc
  waiting _ := rfl
  completed := trivial

theorem completion_genuine {txBuf : List UInt8} {events : List Event}
    (h : ∀ pre e, pre ++ [e] <+: events → LastInSequence (run txBuf pre).1 e) :
    Each Completes [] (run txBuf events).2 := by
  have hinv : Accepted (run txBuf events).1 (run txBuf events).2 :=
    Prefix.forall_prefix_of_step (I := fun pre => Accepted (run txBuf pre).1 (run txBuf pre).2)
      (accepted_init txBuf) (fun pre e hp hpre => by
        rw [run_concat]
        exact accepted_step hpre (h pre e hp)) events (List.prefix_refl events)
  exact hinv.completed

end Genuineness

section Examples

def oneBlock : List Event := opened ++ exchange (dataPacket 1 [1, 2, 3])

theorem upload_in_order_one : InOrder (blocks (run [] oneBlock).2) ∧
    Each Acknowledges [] (run [] oneBlock).2 := by
  refine upload_in_order (Prefix.forall_step_take fun k hk => ?_)
  match k, hk with
  | 0, _ => trivial
  | 1, _ => exact fun _ => by decide +kernel
  | 2, _ => exact fun _ _ _ => by decide +kernel
  | 3, _ => trivial
  | 4, _ => trivial

def earlyBlock : List Event := opened ++ [packet (dataPacket 2 []), .requestData peer]

theorem early_block_acknowledged : ¬ (InOrder (blocks (run [] earlyBlock).2) ∧
    Each Acknowledges [] (run [] earlyBlock).2) := by
  rintro ⟨-, h⟩
  have hcalls : (run [] earlyBlock).2 =
      (run [] earlyBlock).2.dropLast ++ [.send (ackPkt 2)] := by decide +kernel
  rw [hcalls] at h
  have hsend := (Prefix.along_append _ _ _).mp h
  have hn := hsend.2.1 2 (by decide)
  revert hn
  decide +kernel

theorem completion_genuine_one : Each Completes [] (run [] oneBlock).2 := by
  refine completion_genuine (Prefix.forall_step_take fun k hk => ?_)
  match k, hk with
  | 0, _ => trivial
  | 1, _ => exact fun _ => by decide +kernel
  | 2, _ => exact fun _ _ _ _ => by decide +kernel
  | 3, _ => trivial
  | 4, _ => trivial

def earlyShort : List Event := opened ++ exchange (dataPacket 2 [])

theorem early_short_block_completes : ¬ Each Completes [] (run [] earlyShort).2 := by
  intro h
  have hcalls : (run [] earlyShort).2 =
      (run [] earlyShort).2.take 8 ++ [.transferComplete] ++ (run [] earlyShort).2.drop 9 := by
    decide +kernel
  rw [hcalls, List.append_assoc] at h
  have hcompletes := (Prefix.along_append _ _ _).mp h
  obtain ⟨b, hb, -⟩ := (hcompletes.2.1 : Genuine _).final
  revert hb
  have hnil : ((run [] earlyShort).2.take 8).foldl takeBlock [] = [] := by decide +kernel
  rw [hnil]
  simp

end Examples

end Xtcp.Tftp
