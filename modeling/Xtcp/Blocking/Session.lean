import Xtcp.Blocking.Write

namespace Xtcp.Blocking
open Segment Memory

-- An event with the data that xtcp_recvi takes when it is RECV_DATA.
structure Arrival extends Event where
  data : List UInt8
  deriving DecidableEq, Repr

-- sends: the events that were answered with an empty send.
structure Reader where
  result : Option Int
  rlen : Nat
  buf : Nat → UInt8
  closes : List Nat
  sends : List Event

def Reader.start (buf : Nat → UInt8) : Reader := ⟨none, 0, buf, [], []⟩

section Read

variable (id : Nat) (minlen : Int)

def xtcpRecvi (data : List UInt8) (r : Reader) : Reader :=
  { r with buf := write r.buf r.rlen data, rlen := r.rlen + data.length }

def xtcpSend (e : Event) (r : Reader) : Reader := { r with sends := r.sends ++ [e] }

def Reader.fail (r : Reader) : Reader := { r with result := some (-1) }

def take (r : Reader) (e : Arrival) : Reader :=
  match e.kind with
  | .newConnection => { r with closes := r.closes ++ [e.id] }
  | .recvData => xtcpRecvi e.data r
  | .requestData => xtcpSend e.toEvent r
  | .sentData => xtcpSend e.toEvent r
  | .resendData => xtcpSend e.toEvent r
  | .timedOut => if e.id = id then r.fail else r
  | .aborted => if e.id = id then r.fail else r
  | .closed => if e.id = id then r.fail else r
  | .ifdown => r.fail
  | .other => r

-- The loop, with the events that it leaves.
def xtcpRead (r : Reader) : List Arrival → Reader × List Arrival
  | [] => (if minlen ≤ r.rlen then { r with result := some r.rlen } else r, [])
  | e :: es =>
    if minlen ≤ r.rlen then ({ r with result := some r.rlen }, e :: es)
    else
      let r := take id r e
      if r.result.isSome then (r, es) else xtcpRead r es

end Read

-- A RECV_DATA that is answered with a 0 comes again, at once and with the same data.
def xtcpWriteFrom (id : Nat) (buf : Nat → UInt8) (len : Nat) (w : Writer) :
    List Arrival → Writer × List Arrival
  | [] => (w, [])
  | e :: es =>
    let w := step id buf len w e.toEvent
    if w.finished then (w, if e.kind = .recvData then e :: es else es)
    else xtcpWriteFrom id buf len w es

inductive Call where
  | read (buf : Nat → UInt8) (minlen : Int)
  | write (buf : Nat → UInt8) (len : Nat)

inductive Outcome where
  | read (buf : Nat → UInt8) (minlen : Int) (r : Reader)
  | write (buf : Nat → UInt8) (len : Nat) (w : Writer)

-- A call that waits for an event ends the list of outcomes.
def session (id : Nat) : List Call → List Arrival → List Outcome × List Arrival
  | [], es => ([], es)
  | .read buf minlen :: calls, es =>
    let q := xtcpRead id minlen (.start buf) es
    if q.1.result.isSome then
      let s := session id calls q.2
      (.read buf minlen q.1 :: s.1, s.2)
    else ([.read buf minlen q.1], q.2)
  | .write buf len :: calls, es =>
    let q := xtcpWriteFrom id buf len .start es
    if q.1.finished then
      let s := session id calls q.2
      (.write buf len q.1 :: s.1, s.2)
    else ([.write buf len q.1], q.2)

section Stream

def Arrival.received (e : Arrival) : List UInt8 := if e.kind = .recvData then e.data else []

def received (es : List Arrival) : List UInt8 := es.flatMap Arrival.received

def Reader.data (r : Reader) : List UInt8 := slice r.buf 0 r.rlen

def Outcome.data : Outcome → List UInt8
  | .read _ _ r => r.data
  | .write _ _ _ => []

-- A read returns at least what it was asked for, goes beyond that by less than a packet, and
-- leaves the rest of its buffer. A write is a run of xtcp_write on some of the events.
def Outcome.Sound (id : Nat) (es : List Arrival) : Outcome → Prop
  | .read buf minlen r =>
    (∀ n, r.result = some n → n = -1 ∨ (n = r.rlen ∧ minlen ≤ n)) ∧
      (r.rlen = 0 ∨ ∃ e ∈ es, e.kind = .recvData ∧ r.rlen < minlen + e.data.length) ∧
      ∀ a, r.rlen ≤ a → r.buf a = buf a
  | .write buf len w => ∃ us, us <:+: es ∧ w = xtcpWrite id buf len (us.map Arrival.toEvent)

variable {id : Nat} {minlen : Int} {r : Reader} {e : Arrival}

theorem received_cons (e : Arrival) (es : List Arrival) :
    received (e :: es) = e.received ++ received es := List.flatMap_cons

theorem received_of_ne (h : e.kind ≠ .recvData) : e.received = [] := if_neg h

structure Taken (r : Reader) (e : Arrival) (r' : Reader) : Prop where
  data : r'.data = r.data ++ e.received
  rlen : r'.rlen = r.rlen + e.received.length
  buf : ∀ a, r'.rlen ≤ a → r'.buf a = r.buf a
  result : r'.result = none ∨ r'.result = some (-1)

theorem Taken.same {r' : Reader} (h : e.kind ≠ .recvData) (hrlen : r'.rlen = r.rlen)
    (hbuf : r'.buf = r.buf) (hresult : r'.result = none ∨ r'.result = some (-1)) :
    Taken r e r' where
  data := by
    rw [received_of_ne h, List.append_nil, Reader.data, Reader.data, hrlen, hbuf]
  rlen := by
    rw [received_of_ne h, hrlen]
    rfl
  buf _ _ := by rw [hbuf]
  result := hresult

theorem taken_take (id : Nat) (e : Arrival) (h : r.result = none) : Taken r e (take id r e) := by
  have hfail (hk : e.kind ≠ .recvData) : Taken r e (if e.id = id then r.fail else r) := by
    split_ifs
    · exact .same hk rfl rfl (.inr rfl)
    · exact .same hk rfl rfl (.inl h)
  rw [take]
  split
  next hk => exact .same (by rw [hk]; decide) rfl rfl (.inl h)
  next hk =>
    have hdata : e.received = e.data := if_pos hk
    refine ⟨?_, ?_, fun a ha => write_after e.data ha, .inl h⟩
    · rw [hdata]
      exact slice_write_append r.buf (Nat.zero_le r.rlen) e.data
    · rw [hdata]
      rfl
  next hk => exact .same (by rw [hk]; decide) rfl rfl (.inl h)
  next hk => exact .same (by rw [hk]; decide) rfl rfl (.inl h)
  next hk => exact .same (by rw [hk]; decide) rfl rfl (.inl h)
  next hk => exact hfail (by rw [hk]; decide)
  next hk => exact hfail (by rw [hk]; decide)
  next hk => exact hfail (by rw [hk]; decide)
  next hk => exact .same (by rw [hk]; decide) rfl rfl (.inr rfl)
  next hk => exact .same (by rw [hk]; decide) rfl rfl (.inl h)

structure Reads (minlen : Int) (r : Reader) (es : List Arrival) (q : Reader × List Arrival) :
    Prop where
  data : r.data ++ received es = q.1.data ++ received q.2
  result : ∀ n, q.1.result = some n → n = -1 ∨ (n = q.1.rlen ∧ minlen ≤ n)
  rlen : q.1.rlen = r.rlen ∨ ∃ e ∈ es, e.kind = .recvData ∧ q.1.rlen < minlen + e.data.length
  grows : r.rlen ≤ q.1.rlen
  buf : ∀ a, q.1.rlen ≤ a → q.1.buf a = r.buf a
  suffix : q.2 <:+ es

theorem Reads.enough (es : List Arrival) (h : minlen ≤ r.rlen) :
    Reads minlen r es ({ r with result := some r.rlen }, es) where
  data := rfl
  result _ hn := .inr ⟨(Option.some.inj hn).symm, (Option.some.inj hn) ▸ h⟩
  rlen := .inl rfl
  grows := Nat.le_refl _
  buf _ _ := rfl
  suffix := List.suffix_refl es

theorem Reads.take {r' : Reader} {es : List Arrival} {q : Reader × List Arrival}
    (ht : Taken r e r') (hless : r.rlen < minlen) (hq : Reads minlen r' es q) :
    Reads minlen r (e :: es) q where
  data := by
    rw [received_cons, ← List.append_assoc, ← ht.data]
    exact hq.data
  result := hq.result
  rlen := by
    rcases hq.rlen with hrlen | ⟨u, hu, hkind, hlt⟩
    · by_cases hk : e.kind = .recvData
      · refine .inr ⟨e, List.mem_cons_self, hk, ?_⟩
        have hdata : e.received = e.data := if_pos hk
        rw [hrlen, ht.rlen, hdata]
        omega
      · rw [hrlen, ht.rlen, received_of_ne hk]
        exact .inl rfl
    · exact .inr ⟨u, List.mem_cons_of_mem e hu, hkind, hlt⟩
  grows := by
    have hgrows := hq.grows
    have hrlen := ht.rlen
    omega
  buf a ha := (hq.buf a ha).trans (ht.buf a (hq.grows.trans ha))
  suffix := hq.suffix.trans (List.suffix_cons e es)

theorem reads_xtcpRead (id : Nat) (minlen : Int) (es : List Arrival) (h : r.result = none) :
    Reads minlen r es (xtcpRead id minlen r es) := by
  induction es generalizing r with
  | nil =>
    rw [xtcpRead]
    split_ifs with hle
    · exact .enough [] hle
    · exact ⟨rfl, fun n hn => absurd (h.symm.trans hn) (Option.some_ne_none n).symm, .inl rfl,
        Nat.le_refl _, fun _ _ => rfl, List.suffix_refl []⟩
  | cons e es ih =>
    have ht := taken_take id e h
    rw [xtcpRead]
    split_ifs with hle
    · exact .enough _ hle
    · dsimp only
      refine .take ht (Int.not_le.mp hle) ?_
      rcases ht.result with hnone | hfail
      · rw [hnone]
        exact ih hnone
      · rw [hfail]
        exact ⟨rfl, fun n hn => .inl (Option.some.inj (hn.symm.trans hfail)), .inl rfl,
          Nat.le_refl _, fun _ _ => rfl, List.suffix_refl es⟩

structure Writes (id : Nat) (buf : Nat → UInt8) (len : Nat) (w : Writer) (es : List Arrival)
    (q : Writer × List Arrival) : Prop where
  received : received es = received q.2
  suffix : q.2 <:+ es
  run : ∃ us, us <+: es ∧ q.1 = (us.map Arrival.toEvent).foldl (step id buf len) w

theorem writes_xtcpWriteFrom (id : Nat) (buf : Nat → UInt8) (len : Nat) {w : Writer}
    (es : List Arrival) (h : w.finished = false) :
    Writes id buf len w es (xtcpWriteFrom id buf len w es) := by
  induction es generalizing w with
  | nil => exact ⟨rfl, List.suffix_refl [], [], List.prefix_refl [], rfl⟩
  | cons e es ih =>
    have hrecv (hk : e.kind = .recvData) : (step id buf len w e.toEvent).finished = true := by
      rw [step, h, handle, hk]
      rfl
    rw [xtcpWriteFrom]
    cases hw : (step id buf len w e.toEvent).finished with
    | true =>
      rw [if_pos rfl]
      have hrun : ∃ us, us <+: e :: es ∧
          step id buf len w e.toEvent = (us.map Arrival.toEvent).foldl (step id buf len) w :=
        ⟨[e], List.prefix_cons_inj e |>.mpr (List.nil_prefix), rfl⟩
      by_cases hk : e.kind = .recvData
      · rw [if_pos hk]
        exact ⟨rfl, List.suffix_refl _, hrun⟩
      · rw [if_neg hk]
        refine ⟨?_, List.suffix_cons e es, hrun⟩
        rw [received_cons, received_of_ne hk]
        rfl
    | false =>
      rw [if_neg Bool.false_ne_true]
      have hk : e.kind ≠ .recvData := fun hk => Bool.false_ne_true (hw.symm.trans (hrecv hk))
      obtain ⟨hreceived, hsuffix, us, hus, hrun⟩ := ih hw
      refine ⟨?_, hsuffix.trans (List.suffix_cons e es), e :: us, ?_, hrun⟩
      · rw [received_cons, received_of_ne hk]
        exact hreceived
      · exact (List.prefix_cons_inj e).mpr hus

theorem Outcome.Sound.mono {o : Outcome} {es es' : List Arrival} (h : o.Sound id es)
    (hes : es <:+ es') : o.Sound id es' := by
  cases o with
  | read buf minlen r =>
    refine ⟨h.1, h.2.1.imp_right ?_, h.2.2⟩
    rintro ⟨e, he, hlt⟩
    exact ⟨e, hes.subset he, hlt⟩
  | write buf len w =>
    obtain ⟨us, hus, hw⟩ := h
    exact ⟨us, hus.trans hes.isInfix, hw⟩

theorem sound_read (id : Nat) (buf : Nat → UInt8) (minlen : Int) (es : List Arrival) :
    (Outcome.read buf minlen (xtcpRead id minlen (.start buf) es).1).Sound id es := by
  have hq := reads_xtcpRead id minlen es (r := .start buf) rfl
  exact ⟨hq.result, hq.rlen, hq.buf⟩

theorem sound_write (id : Nat) (buf : Nat → UInt8) (len : Nat) (es : List Arrival) :
    (Outcome.write buf len (xtcpWriteFrom id buf len .start es).1).Sound id es := by
  have hq := writes_xtcpWriteFrom id buf len (w := .start) es rfl
  obtain ⟨us, hus, hrun⟩ := hq.run
  exact ⟨us, hus.isInfix, hrun⟩

end Stream

end Xtcp.Blocking
