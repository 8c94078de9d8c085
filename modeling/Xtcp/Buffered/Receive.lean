import Xtcp.Library.Memory
import Xtcp.Library.Incremental

namespace Xtcp.Buffered
open Segment Memory Incremental

structure Bufinfo where
  rxNewEvent : Bool
  rxBuf : Nat
  rxEnd : Nat
  rxWrptr : Nat
  rxRdptr : Nat
  txBuf : Nat
  txEnd : Nat
  txWrptr : Nat
  txRdptr : Nat
  txPrevRdptr : Nat
  txLowmark : Int
  deriving DecidableEq, Repr

-- event: the data of the RECV_DATA event that the client has not yet received. received: all the
-- data that it has. writes: the places and lengths of what xtcp_recv has written.
structure Client where
  mem : Nat → UInt8
  bufinfo : Bufinfo
  buf : Nat
  overflow : Bool
  event : Option (List UInt8)
  received : List UInt8
  writes : List (Nat × Nat)

def xtcpBufferedSetRxBuffer (buf buflen : Nat) (b : Bufinfo) : Bufinfo :=
  { b with rxNewEvent := true, rxBuf := buf, rxEnd := buf + buflen, rxWrptr := buf, rxRdptr := buf }

-- none: there is no event whose data could be received, and the call does not return.
def xtcpRecv (data : Nat) (w : Client) : Option (Nat × Client) :=
  w.event.map fun bytes =>
    (bytes.length, { w with
      mem := write w.mem data bytes
      event := none
      received := w.received ++ bytes
      writes := w.writes ++ [(data, bytes.length)] })

def receiveNewEvent (w : Client) : Option Client :=
  if w.bufinfo.rxNewEvent then
    (xtcpRecv w.bufinfo.rxWrptr w).map fun r =>
      { r.2 with bufinfo := { w.bufinfo with
        rxWrptr := w.bufinfo.rxWrptr + r.1
        rxNewEvent := false } }
  else some w

-- The end of the current recv event.
def endOfEvent (clientBufSize : Nat) (w : Client) : Nat × Client :=
  let b := w.bufinfo
  let remaining := b.rxWrptr - b.rxRdptr
  let mem := move w.mem b.rxBuf b.rxRdptr remaining
  let spaceLeft : Int := b.rxEnd - (b.rxBuf + remaining : Nat)
  if spaceLeft < clientBufSize then
    (remaining, { w with
      mem := mem
      bufinfo := { b with rxWrptr := b.rxBuf, rxRdptr := b.rxBuf }
      buf := b.rxBuf
      overflow := true })
  else
    (0, { w with
      mem := mem
      bufinfo := { b with
        rxNewEvent := true, rxRdptr := b.rxBuf, rxWrptr := b.rxBuf + remaining } })

def takeRecord (len : Nat) (w : Client) : Nat × Client :=
  (len, { w with
    buf := w.bufinfo.rxRdptr
    bufinfo := { w.bufinfo with rxRdptr := w.bufinfo.rxRdptr + len } })

def findDelim (mem : Nat → UInt8) (delim : UInt8) : Nat → Nat → Option Nat
  | _, 0 => none
  | p, n + 1 => if mem p = delim then some p else findDelim mem delim (p + 1) n

def recvUpto (clientBufSize : Nat) (delim : UInt8) (w : Client) : Nat × Client :=
  let b := w.bufinfo
  match findDelim w.mem delim b.rxRdptr (b.rxWrptr - b.rxRdptr) with
  | none => endOfEvent clientBufSize w
  | some p => takeRecord (p - b.rxRdptr + 1) w

def xtcpBufferedRecvUpto (clientBufSize : Nat) (delim : UInt8) (w : Client) :
    Option (Nat × Client) := (receiveNewEvent w).map (recvUpto clientBufSize delim)

def recvLen (clientBufSize len : Nat) (w : Client) : Nat × Client :=
  if w.bufinfo.rxWrptr - w.bufinfo.rxRdptr < len then endOfEvent clientBufSize w
  else takeRecord len w

def xtcpBufferedRecv (clientBufSize len : Nat) (w : Client) : Option (Nat × Client) :=
  (receiveNewEvent w).map (recvLen clientBufSize len)

inductive Call where
  | upto (delim : UInt8)
  | recv (len : Nat) (hlen : 0 < len)

def Call.apply (clientBufSize : Nat) (w : Client) : Call → Nat × Client
  | .upto delim => recvUpto clientBufSize delim w
  | .recv len _ => recvLen clientBufSize len w

def Call.perform (clientBufSize : Nat) (w : Client) : Call → Option (Nat × Client)
  | .upto delim => xtcpBufferedRecvUpto clientBufSize delim w
  | .recv len _ => xtcpBufferedRecv clientBufSize len w

theorem perform_eq (clientBufSize : Nat) (w : Client) (c : Call) :
    c.perform clientBufSize w = (receiveNewEvent w).map fun w => c.apply clientBufSize w := by
  cases c <;> rfl

-- The first record that is asked for, in a stream that is there at once.
def Call.next : Call → List UInt8 → Option (List UInt8 × List UInt8)
  | .upto delim, s => (s.findIdx? (· == delim)).map fun j => (s.take (j + 1), s.drop (j + 1))
  | .recv len _, s => if s.length < len then none else some (s.take len, s.drop len)

theorem next_upto {delim : UInt8} {s r t : List UInt8}
    (h : (Call.upto delim).next s = some (r, t)) :
    ∃ j, s.findIdx? (· == delim) = some j ∧ j < s.length ∧ r = s.take (j + 1) ∧
      t = s.drop (j + 1) := by
  obtain ⟨j, hj, he⟩ := Option.map_eq_some_iff.mp h
  obtain ⟨rfl, rfl⟩ := Prod.mk.inj he
  exact ⟨j, hj, (List.findIdx?_eq_some_iff_getElem.mp hj).1, rfl, rfl⟩

theorem next_recv {len : Nat} {hlen : 0 < len} {s r t : List UInt8}
    (h : (Call.recv len hlen).next s = some (r, t)) :
    len ≤ s.length ∧ r = s.take len ∧ t = s.drop len := by
  dsimp only [Call.next] at h
  split at h
  · cases h
  next hl =>
    obtain ⟨rfl, rfl⟩ := Prod.mk.inj (Option.some.inj h)
    exact ⟨Nat.le_of_not_lt hl, rfl, rfl⟩

def records : Parser UInt8 Call where
  next := Call.next
  splits {c s r t} h := by
    cases c with
    | upto delim =>
      obtain ⟨j, _, _, rfl, rfl⟩ := next_upto h
      exact List.take_append_drop _ _
    | recv len hlen =>
      obtain ⟨_, rfl, rfl⟩ := next_recv h
      exact List.take_append_drop _ _
  progress {c s r t} h := by
    cases c with
    | upto delim =>
      obtain ⟨j, _, hj, rfl, _⟩ := next_upto h
      refine List.ne_nil_of_length_pos ?_
      rw [List.length_take]
      omega
    | recv len hlen =>
      obtain ⟨hl, rfl, _⟩ := next_recv h
      refine List.ne_nil_of_length_pos ?_
      rw [List.length_take]
      omega
  stable {c s r t} h u := by
    cases c with
    | upto delim =>
      obtain ⟨j, hj, hlt, rfl, rfl⟩ := next_upto h
      dsimp only [Call.next]
      rw [List.findIdx?_append, hj, Option.some_or, Option.map_some,
        List.take_append_of_le_length hlt, List.drop_append_of_le_length hlt]
    | recv len hlen =>
      obtain ⟨hl, rfl, rfl⟩ := next_recv h
      dsimp only [Call.next]
      rw [if_neg (by rw [List.length_append]; omega), List.take_append_of_le_length hl,
        List.drop_append_of_le_length hl]
  whole {c s u r t} h hu := by
    cases c with
    | upto delim =>
      obtain ⟨j, hj, hlt, rfl, _⟩ := next_upto hu
      have hs : s.findIdx? (· == delim) = none := Option.map_eq_none_iff.mp h
      rw [List.findIdx?_append, hs, Option.none_or] at hj
      obtain ⟨k, _, rfl⟩ := Option.map_eq_some_iff.mp hj
      rw [List.length_take]
      omega
    | recv len hlen =>
      obtain ⟨hl, rfl, _⟩ := next_recv hu
      dsimp only [Call.next] at h
      split at h
      next hshort =>
        rw [List.length_take]
        omega
      · cases h

end Xtcp.Buffered
