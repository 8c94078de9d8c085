import Xtcp.Library.Prefix
import Xtcp.Pip.Tcp.Process
import Xtcp.Pip.Tcp.Queue

namespace Xtcp.Pip.Tcp
open Xtcp.Segment Serial Prefix

-- What the log tells of the connection since it was last opened. late: what has been stored behind
-- the FIN.
structure Story where
  opened : Bool := false
  iss : Word := 0
  irs : Word := 0
  written : List UInt8 := []
  returned : List UInt8 := []
  pieces : List (Word × List UInt8) := []
  ended : Bool := false
  late : List (Word × List UInt8) := []
  sent : List Sent := []
  acks : List Word := []
  fin : Option Word := none

@[simp] def Story.tell (s : Story) : Note → Story
  | .opened => { opened := true }
  | .iss n => { s with iss := n }
  | .irs n => { s with irs := n }
  | .accepted data => { s with written := s.written ++ data }
  | .returned data => { s with returned := s.returned ++ data }
  | .stored seq data =>
      if s.ended then { s with late := s.late ++ [(seq, data)] }
      else { s with pieces := s.pieces ++ [(seq, data)] }
  | .entered st => { s with ended := s.ended || st == .closewait }
  | .sent x => { s with sent := s.sent ++ [x] }
  | .acked n => { s with acks := s.acks ++ [n] }
  | .finished n => { s with fin := some n }
  | _ => s

def story (log : List Note) : Story := log.foldl Story.tell {}

def TcpConnection.story (c : TcpConnection) : Story := Tcp.story c.log

@[simp] theorem story_append (log new : List Note) :
    story (log ++ new) = new.foldl Story.tell (story log) := by
  simp [story, List.foldl_append]

-- What holds of each note, given what had been told before it.
def Tells (C : Story → Note → Prop) (log : List Note) : Prop := Along Story.tell C {} log

instance {C : Story → Note → Prop} [∀ s x, Decidable (C s x)] (log : List Note) :
    Decidable (Tells C log) := inferInstanceAs (Decidable (Along _ _ _ _))

@[simp] theorem tells_append {C : Story → Note → Prop} (log new : List Note) :
    Tells C (log ++ new) ↔ Tells C log ∧ Along Story.tell C (story log) new :=
  along_append _ _ _

variable (cfg : Config) (env : Env)

section Copies

def taken (q : Xqueue) : Int := min env.answer.count q.free

def filled (q : Xqueue) : Xqueue :=
  { q with
    free := int (q.free - taken env q)
    length := int (q.length + taken env q)
    buffer := Ring.write cfg.bufsizeTx q.buffer q.wr (slice env.answer.data 0 (taken env q).toNat)
    wr := (q.wr + (taken env q).toNat) % cfg.bufsizeTx }

def drained (q : Xqueue) : Xqueue :=
  { q with length := 0, rd := (q.rd + q.length.toNat) % cfg.bufsizeTx }

def unsentData (q : Xqueue) : List UInt8 := Ring.read cfg.bufsizeTx q.buffer q.rd q.length.toNat

def given (q : Xqueue) : Int := min (int (cfg.bufsizeRx - q.free)) env.answer.count

def emptied (q : Xqueue) : Xqueue :=
  { q with
    free := int (q.free + given cfg env q)
    rd := (q.rd + (given cfg env q).toNat) % cfg.bufsizeRx }

variable {cfg env} {app : Option Chanend} {c c' : TcpConnection}

theorem int_sub_self (x : Int) : int (x - x) = 0 := by
  rw [Int.sub_self]
  rfl

theorem copyDataFromWrite_frame (h : copyDataFromWrite cfg env app c = some c') :
    ∃ tx, Xqueue.putAll cfg cfg.bufsizeTx (slice env.answer.data 0 (taken env c.tx).toNat)
        { c.tx with
          free := int (c.tx.free - taken env c.tx)
          length := int (c.tx.length + taken env c.tx) } = some tx ∧
      c' = { c with
        tx := tx
        log := c.log ++ [.token app .writing .ack,
          .accepted (slice env.answer.data 0 (taken env c.tx).toNat)] } := by
  obtain ⟨tx, htx, hc⟩ := Option.bind_eq_some_iff.mp h
  refine ⟨tx, htx, ?_⟩
  rw [← Option.some.inj hc]
  simp [taken]

theorem copyDataFromWrite_some (hwr : c.tx.wr < cfg.bufsizeTx)
    (h : copyDataFromWrite cfg env app c = some c') :
    c' = { c with
      tx := filled cfg env c.tx
      log := c.log ++ [.token app .writing .ack,
        .accepted (slice env.answer.data 0 (taken env c.tx).toNat)] } := by
  obtain ⟨tx, htx, rfl⟩ := copyDataFromWrite_frame h
  rw [Xqueue.putAll_some cfg.powerTx (by exact hwr) htx]
  simp [filled]

theorem copyDataForRead_frame (h : copyDataForRead cfg env app c = some c') :
    ∃ data rx, Xqueue.takeAll cfg cfg.bufsizeRx (given cfg env c.rx).toNat
        { c.rx with free := int (c.rx.free + given cfg env c.rx) } = some (data, rx) ∧
      c' = { c with
        rx := rx
        log := c.log ++ [.token app .reading .ack, .returned data] } := by
  obtain ⟨⟨data, rx⟩, hrx, hc⟩ := Option.bind_eq_some_iff.mp h
  refine ⟨data, rx, hrx, ?_⟩
  rw [← Option.some.inj hc]
  simp

theorem copyDataForRead_some (hrd : c.rx.rd < cfg.bufsizeRx)
    (h : copyDataForRead cfg env app c = some c') :
    c' = { c with
      rx := emptied cfg env c.rx
      log := c.log ++ [.token app .reading .ack,
        .returned (Ring.read cfg.bufsizeRx c.rx.buffer c.rx.rd (given cfg env c.rx).toNat)] } := by
  obtain ⟨data, rx, hrx, rfl⟩ := copyDataForRead_frame h
  obtain ⟨rfl, rfl⟩ := Xqueue.takeAll_some cfg.powerRx (by exact hrd) hrx
  simp [emptied]

def readyNote (c : TcpConnection) : List Note :=
  if c.sndWND < c.tx.length then [.ready] else []

variable (cfg) in
def serves (c : TcpConnection) : Prop := c.appStatus = .writing ∧ c.tx.free ≠ (cfg.bufsizeTx : Int)

theorem loadOutgoingData_frame (h : loadOutgoingData cfg env c = some c') :
    ∃ data tx, Xqueue.takeAll cfg cfg.bufsizeTx c.tx.length.toNat { c.tx with length := 0 } =
        some (data, tx) ∧
      let s := Note.sent (header data { psh := true, ack := true } c)
      ((¬ (c.appStatus = .writing ∧ tx.free ≠ (cfg.bufsizeTx : Int)) ∧
        c' = { c with
          tx := tx
          sndNXT := c.sndNXT + BitVec.ofNat 32 c.tx.length.toNat
          rcvWND := c.rx.free
          ackRequired := false
          timeouts := tcpMinTimeout
          log := c.log ++ (readyNote c ++ [s]) }) ∨
      (c.appStatus = .writing ∧ tx.free ≠ (cfg.bufsizeTx : Int) ∧ ∃ tx',
        Xqueue.putAll cfg cfg.bufsizeTx (slice env.answer.data 0 (taken env tx).toNat)
          { tx with
            free := int (tx.free - taken env tx)
            length := int (tx.length + taken env tx) } = some tx' ∧
        c' = { c with
          tx := tx'
          sndNXT := c.sndNXT + BitVec.ofNat 32 c.tx.length.toNat
          rcvWND := c.rx.free
          appStatus := .notWaiting
          ackRequired := false
          timeouts := tcpMinTimeout
          log := c.log ++ (readyNote c ++ [.token c.appWaiting .writing .ack,
            .accepted (slice env.answer.data 0 (taken env tx).toNat), s]) })) := by
  obtain ⟨⟨data, tx⟩, htx, h⟩ := Option.bind_eq_some_iff.mp h
  have hready : (if c.sndWND < c.tx.length then c.note .ready else c) =
      { c with log := c.log ++ readyNote c } := by
    unfold readyNote
    split <;> simp
  simp only [hready, int_sub_self] at htx h
  refine ⟨data, tx, htx, ?_⟩
  obtain ⟨c₂, hserved, hc⟩ := Option.bind_eq_some_iff.mp h
  rw [← Option.some.inj hc]
  unfold serveWriter at hserved
  split at hserved
  · next hs =>
    obtain ⟨c₃, hwrite, rfl⟩ := Option.map_eq_some_iff.mp hserved
    obtain ⟨tx', htx', rfl⟩ := copyDataFromWrite_frame hwrite
    refine Or.inr ⟨hs.1, hs.2, tx', htx', ?_⟩
    simp [header]
  · next hs =>
    refine Or.inl ⟨hs, ?_⟩
    rw [← Option.some.inj hserved]
    simp [header]

theorem loadOutgoingData_some (hrd : c.tx.rd < cfg.bufsizeTx) (hwr : c.tx.wr < cfg.bufsizeTx)
    (h : loadOutgoingData cfg env c = some c') :
    let s := Note.sent (header (unsentData cfg c.tx) { psh := true, ack := true } c)
    (¬ serves cfg c ∧
      c' = { c with
        tx := drained cfg c.tx
        sndNXT := c.sndNXT + BitVec.ofNat 32 c.tx.length.toNat
        rcvWND := c.rx.free
        ackRequired := false
        timeouts := tcpMinTimeout
        log := c.log ++ (readyNote c ++ [s]) }) ∨
    (serves cfg c ∧
      c' = { c with
        tx := filled cfg env (drained cfg c.tx)
        sndNXT := c.sndNXT + BitVec.ofNat 32 c.tx.length.toNat
        rcvWND := c.rx.free
        appStatus := .notWaiting
        ackRequired := false
        timeouts := tcpMinTimeout
        log := c.log ++ (readyNote c ++ [.token c.appWaiting .writing .ack,
          .accepted (slice env.answer.data 0 (taken env c.tx).toNat), s]) }) := by
  obtain ⟨data, tx, htx, h⟩ := loadOutgoingData_frame h
  obtain ⟨hdata, hq⟩ := Xqueue.takeAll_some cfg.powerTx (by exact hrd) htx
  subst hdata hq
  rcases h with ⟨hs, rfl⟩ | ⟨hst, hfree, tx', htx', rfl⟩
  · exact Or.inl ⟨hs, rfl⟩
  · refine Or.inr ⟨⟨hst, hfree⟩, ?_⟩
    have hput := Xqueue.putAll_some cfg.powerTx (by exact hwr) htx'
    rw [hput]
    simp [filled, drained, unsentData, taken]

-- How many bytes of the segment storeIncomingData takes.
def fitting (seg : Segment) (q : Xqueue) : Nat := min seg.length.toNat q.free.toNat

variable (cfg) in
def extended (seg : Segment) (q : Xqueue) : Xqueue :=
  { q with
    free := q.free - fitting seg q
    buffer := Ring.write cfg.bufsizeRx q.buffer q.wr (slice seg.payload 0 (fitting seg q))
    wr := (q.wr + fitting seg q) % cfg.bufsizeRx }

theorem storeIncomingData_frame {seg : Segment} {b : Bool}
    (h : storeIncomingData cfg env seg c = some (b, c')) :
    ∃ i rx, c.rx.store cfg cfg.bufsizeRx (slice seg.payload 0 seg.length.toNat) = some (i, rx) ∧
      b = ((i : Int) == seg.length) ∧
      let x := Note.stored seg.seq ((slice seg.payload 0 seg.length.toNat).take i)
      ((¬ (c.appStatus = .reading ∧ rx.free ≠ (cfg.bufsizeRx : Int)) ∧
        c' = { c with
          rx := rx
          rcvNXT := c.rcvNXT + BitVec.ofNat 32 i
          log := c.log ++ [x] }) ∨
      (c.appStatus = .reading ∧ rx.free ≠ (cfg.bufsizeRx : Int) ∧ ∃ data rx',
        Xqueue.takeAll cfg cfg.bufsizeRx (given cfg env rx).toNat
          { rx with free := int (rx.free + given cfg env rx) } = some (data, rx') ∧
        c' = { c with
          rx := rx'
          rcvNXT := c.rcvNXT + BitVec.ofNat 32 i
          appStatus := .notWaiting
          log := c.log ++ [x, .token c.appWaiting .reading .ack, .returned data] })) := by
  obtain ⟨⟨i, rx⟩, hrx, h⟩ := Option.bind_eq_some_iff.mp h
  refine ⟨i, rx, hrx, ?_⟩
  obtain ⟨c₂, hserved, hc⟩ := Option.bind_eq_some_iff.mp h
  obtain ⟨hb, hc⟩ := Prod.mk.inj (Option.some.inj hc)
  rw [← hc, ← hb]
  refine ⟨rfl, ?_⟩
  unfold serveReader at hserved
  split at hserved
  · next hs =>
    obtain ⟨c₃, hread, rfl⟩ := Option.map_eq_some_iff.mp hserved
    obtain ⟨data, rx', hrx', rfl⟩ := copyDataForRead_frame hread
    refine Or.inr ⟨hs.1, hs.2, data, rx', hrx', ?_⟩
    simp
  · next hs =>
    refine Or.inl ⟨hs, ?_⟩
    rw [← Option.some.inj hserved]
    simp

theorem storeIncomingData_some {seg : Segment} {b : Bool} (hrd : c.rx.rd < cfg.bufsizeRx)
    (hwr : c.rx.wr < cfg.bufsizeRx) (hfree : 0 ≤ c.rx.free) (hint : c.rx.free < 2 ^ 31)
    (h : storeIncomingData cfg env seg c = some (b, c')) :
    let q := extended cfg seg c.rx
    let x := Note.stored seg.seq (slice seg.payload 0 (fitting seg c.rx))
    b = ((fitting seg c.rx : Int) == seg.length) ∧
      ((¬ (c.appStatus = .reading ∧ q.free ≠ (cfg.bufsizeRx : Int)) ∧
        c' = { c with
          rx := q
          rcvNXT := c.rcvNXT + BitVec.ofNat 32 (fitting seg c.rx)
          log := c.log ++ [x] }) ∨
      (c.appStatus = .reading ∧ q.free ≠ (cfg.bufsizeRx : Int) ∧
        c' = { c with
          rx := emptied cfg env q
          rcvNXT := c.rcvNXT + BitVec.ofNat 32 (fitting seg c.rx)
          appStatus := .notWaiting
          log := c.log ++ [x, .token c.appWaiting .reading .ack,
            .returned (Ring.read cfg.bufsizeRx q.buffer q.rd (given cfg env q).toNat)] })) := by
  obtain ⟨i, rx, hrx, hb, h⟩ := storeIncomingData_frame h
  obtain ⟨hi, hq⟩ := Xqueue.store_some cfg.powerRx hwr hfree hint hrx
  rw [length_slice] at hi
  have hfit : fitting seg c.rx = i := hi.symm
  have htake : (slice seg.payload 0 seg.length.toNat).take i = slice seg.payload 0 i := by
    rw [slice_take, hi]
    congr 1
    omega
  rw [htake] at hq h
  have hq : extended cfg seg c.rx = rx := by rw [hq, extended, hfit]
  rw [hfit, hq]
  refine ⟨hb, ?_⟩
  rcases h with hs | ⟨hr, hs, data, rx', hrx', hc⟩
  · exact Or.inl hs
  · have hrd' : rx.rd < cfg.bufsizeRx := hq ▸ hrd
    obtain ⟨rfl, rfl⟩ := Xqueue.takeAll_some cfg.powerRx (by exact hrd') hrx'
    refine Or.inr ⟨hr, hs, ?_⟩
    rw [hc]
    simp [emptied]

end Copies

end Xtcp.Pip.Tcp
