import Xtcp.Mdns.Receive

namespace Xtcp.Mdns

-- started: mdns_started
structure World where
  table : Table
  started : Nat
  deriving DecidableEq, Repr

-- A datagram as xtcp_recv leaves it in data, with whatever lies behind and beside it.
structure Datagram where
  len : Nat
  mem : Nat → UInt8
  addr : Nat → Addr

inductive EventType where
  | ifup (ipaddr : Addr)
  | ifdown
  | alreadyHandled
  | newConnection
  | poll
  | recvData (d : Datagram)
  | requestData
  | sentData
  | resendData
  | other

structure Conn where
  event : EventType
  localPort : Nat

def mdnsServerPort : Nat := 5353

-- timeafter(t, timeout)
def timeafter (t timeout : Nat) : Bool := 2 ^ 31 ≤ (timeout + (2 ^ 32 - t)) % 2 ^ 32

def mdnsStart (ipaddr : Addr) (w : World) : World :=
  ⟨w.table.map fun e => { e with ipaddr := ipaddr }, 1⟩

def startEntry (i : Nat) (e : Entry) : Entry × List Note :=
  if e.state ≠ .unused then (reprobe e, [.started i e.pending, .initSend]) else (e, [])

def mdnsStartEntries (w : World) : Option (World × List Note) :=
  (eachEntry (fun i e => some (startEntry i e)) 0 w.table).map fun r => (⟨r.1, 2⟩, r.2)

def periodicEntry (t i : Nat) (e : Entry) : Entry × List Note :=
  match e.state with
  | .probeSent =>
    if timeafter t e.timeout then
      if e.numSent < 3 then ({ e with state := .probeWait }, [.initSend])
      else ({ e with state := .announceWait, numSent := 0 }, [.initSend])
    else (e, [])
  | .announceSent =>
    if timeafter t e.timeout then
      if e.numSent < 3 then ({ e with state := .announceWait }, [.initSend])
      else ({ e with state := .active }, [.entryActive i])
    else (e, [])
  | _ => (e, [])

def startDue (w : World) : Option (World × List Note) :=
  if w.started = 1 then mdnsStartEntries w else some (w, [])

def mdnsPeriodic (t : Nat) (w : World) : Option (World × List Note) := do
  let s ← startDue w
  let r ← eachEntry (fun i e => some (periodicEntry t i e)) 0 s.1.table
  return (⟨r.1, s.1.started⟩, s.2 ++ r.2)

def sendEvent (t : Nat) (w : World) : Option (World × List Note) :=
  let r := mdnsSend t w.table
  match r.2 with
  | none => some (⟨r.1, w.started⟩, [])
  | some s => if s.whole then some (⟨r.1, w.started⟩, [.sent s]) else none

def recvEvent (fuel : Nat) (d : Datagram) (w : World) : Option (World × List Note) :=
  (mdnsRecv (fun p => some (d.mem p)) fuel d.len d.addr w.table).map fun r =>
    (⟨r.1, w.started⟩, r.2)

def mdnsHandleEvent (fuel : Nat) (conn : Conn) (t : Nat) (w : World) :
    Option (World × List Note) :=
  match conn.event with
  | .ifup ipaddr => some (mdnsStart ipaddr w, [])
  | .ifdown => some (w, [])
  | .alreadyHandled => some (w, [])
  | event =>
    if conn.localPort = mdnsServerPort then
      match event with
      | .poll => mdnsPeriodic t w
      | .recvData d => recvEvent fuel d w
      | .requestData => sendEvent t w
      | .sentData => sendEvent t w
      | .resendData => sendEvent t w
      | _ => some (w, [])
    else some (w, [])

abbrev Log := List (Nat × Note)

-- now counts the ticks of the clock that t is read from. An event that stops the program ends
-- the run.
inductive Run : World → Nat → Log → Prop where
  | init (now : Nat) : Run ⟨mdnsInit, 0⟩ now []
  | register {w : World} {now : Nat} {log : Log} (r : Registration) : Run w now log →
      Run { w with table := r.apply w.table } now log
  | event {w w' : World} {now : Nat} {log : Log} {notes : List Note} (later fuel : Nat)
      (conn : Conn) : Run w now log → now ≤ later →
      mdnsHandleEvent fuel conn (later % 2 ^ 32) w = some (w', notes) →
      Run w' later (log ++ notes.map fun n => (later, n))

-- A run as a function of the events and their times.
def execute (fuel : Nat) : List (Nat × Conn) → World → Nat → Option (World × Nat × Log)
  | [], w, now => some (w, now, [])
  | (later, conn) :: es, w, now =>
    if later < now then none
    else match mdnsHandleEvent fuel conn (later % 2 ^ 32) w with
      | none => none
      | some (w, notes) =>
        (execute fuel es w later).map fun r =>
          (r.1, r.2.1, notes.map (fun n => (later, n)) ++ r.2.2)

theorem Run.execute {fuel : Nat} {es : List (Nat × Conn)} {w : World} {now : Nat} {log : Log}
    (h : Run w now log) {r : World × Nat × Log} (hr : Mdns.execute fuel es w now = some r) :
    Run r.1 r.2.1 (log ++ r.2.2) := by
  induction es generalizing w now log r with
  | nil =>
    obtain rfl := Option.some.inj hr
    simpa using h
  | cons x es ih =>
    obtain ⟨later, conn⟩ := x
    unfold Mdns.execute at hr
    split at hr
    · cases hr
    · next hle =>
      split at hr
      · cases hr
      · next w' notes hstep =>
        obtain ⟨s, hs, rfl⟩ := Option.map_eq_some_iff.mp hr
        simpa using ih (h.event later fuel conn (Nat.le_of_not_lt hle) hstep) hs

def atServerPort (es : List (Nat × EventType)) : List (Nat × Conn) :=
  es.map fun x => (x.1, ⟨x.2, mdnsServerPort⟩)

-- One host, and the events by which it claims its name.
def oneHost : World := ⟨mdnsRegisterName (text "a") mdnsInit, 0⟩

def claimEvents : List (Nat × EventType) :=
  [(0, .ifup ⟨#[10, 0, 0, 1], rfl⟩), (0, .poll), (0, .requestData), (26000000, .poll),
    (26000000, .requestData), (52000000, .poll), (52000000, .requestData), (78000000, .poll),
    (78000000, .requestData), (179000000, .poll), (179000000, .requestData), (280000000, .poll),
    (280000000, .requestData), (381000000, .poll)]

theorem run_oneHost {fuel : Nat} {es : List (Nat × Conn)} {r : World × Nat × Log}
    (h : execute fuel es oneHost 0 = some r) : Run r.1 r.2.1 r.2.2 := by
  have hinit : Run oneHost 0 [] := (Run.init 0).register (.hostName (text "a"))
  simpa using hinit.execute h

end Xtcp.Mdns
