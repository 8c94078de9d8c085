import Xtcp.Mdns.Send

namespace Xtcp.Mdns

-- What an event does besides its changes to the table. conflict and started carry the answers
-- that are pending at that time.
inductive Note where
  | initSend
  | conflict (i : Nat) (pending : Pending)
  | tieBreakLost (i : Nat)
  | started (i : Nat) (pending : Pending)
  | entryLost (i : Nat)
  | entryActive (i : Nat)
  | sent (s : Sent)
  deriving DecidableEq, Repr

-- A loop over the table that leaves no entry out.
def eachEntry (f : Nat → Entry → Option (Entry × List Note)) :
    Nat → Table → Option (Table × List Note)
  | _, [] => some ([], [])
  | i, e :: es =>
    match f i e with
    | none => none
    | some r =>
      match eachEntry f (i + 1) es with
      | none => none
      | some rs => some (r.1 :: rs.1, r.2 ++ rs.2)

def keep (e : Entry) (r : Option (Table × List Note)) : Option (Table × List Note) :=
  r.map fun rs => (e :: rs.1, rs.2)

section Recv

variable (rd : Nat → Option UInt8) (fuel : Nat)

section Queries

def pendPtr (e : Entry) : Entry := { e with pending := { e.pending with ptr := true } }

def handleMdnsPtrQuery (queryName : Nat) : Addr → Table → Option (Table × List Note)
  | _, [] => some ([], [])
  | addr, e :: es =>
    if e.state = .active then
      if e.entryType = .srvEntry then
        match mdnsCompareName rd e.namePostfix queryName with
        | none => none
        | some c =>
          if c = 0 then some (pendPtr e :: es, [.initSend])
          else keep e (handleMdnsPtrQuery queryName addr es)
      else match mdnsParseRevIp rd fuel queryName addr with
        | none => none
        | some (res, addr) =>
          if res ∧ addr = e.ipaddr then some (pendPtr e :: es, [.initSend])
          else keep e (handleMdnsPtrQuery queryName addr es)
    else keep e (handleMdnsPtrQuery queryName addr es)

def pendName (qtype : Nat) (e : Entry) : Entry :=
  if e.entryType = .srvEntry then
    { e with pending := { e.pending with
        srv := e.pending.srv || qtype == rrtypeSrv || qtype == rrtypeAny
        txt := e.pending.txt || qtype == rrtypeTxt || qtype == rrtypeAny } }
  else
    { e with pending := { e.pending with
        host := e.pending.host || qtype == rrtypeA || qtype == rrtypeAny } }

def pendNotes (qtype : Nat) (e : Entry) : List Note :=
  if e.entryType = .srvEntry then
    (if qtype = rrtypeSrv ∨ qtype = rrtypeAny then [.initSend] else []) ++
      (if qtype = rrtypeTxt ∨ qtype = rrtypeAny then [.initSend] else [])
  else if qtype = rrtypeA ∨ qtype = rrtypeAny then [.initSend] else []

def handleNameQuery (queryName qtype : Nat) : Table → Option (Table × List Note)
  | [] => some ([], [])
  | e :: es =>
    if e.state = .active then
      match mdnsCompareName rd e.name queryName with
      | none => none
      | some c =>
        if c = 0 then some (pendName qtype e :: es, pendNotes qtype e)
        else keep e (handleNameQuery queryName qtype es)
    else keep e (handleNameQuery queryName qtype es)

def handleQuestion (addr : Addr) (dptr qry : Nat) (table : Table) :
    Option (Table × List Note) :=
  match rd16 rd (qry + 2) with
  | none => none
  | some cls =>
    if cls = rrclassIn then
      match rd16 rd qry with
      | none => none
      | some qtype =>
        if qtype = rrtypePtr then handleMdnsPtrQuery rd fuel dptr addr table
        else handleNameQuery rd dptr qtype table
    else some (table, [])

end Queries

section Answers

-- The loop over the data, and the comparison of the lengths behind it.
def compareBytes : Nat → Nat → List UInt8 → Option Int
  | _, 0, [] => some 0
  | _, 0, _ :: _ => some (-1)
  | _, _ + 1, [] => some 1
  | rdata, len + 1, c :: own =>
    match rd rdata with
    | none => none
    | some b => if c < b then some 1
      else if b < c then some (-1) else compareBytes (rdata + 1) len own

def mdnsCompareAnswer (rrtype : Nat) (own : List UInt8) (ans : Nat) : Option Int := do
  let cls ← rd16 rd (ans + 2)
  let type ← rd16 rd ans
  let len ← rd16 rd (ans + 8)
  if rrclassIn < cls % rrclassFlush then return 1
  else if cls % rrclassFlush < rrclassIn then return -1
  else if rrtype < type then return 1
  else if type < rrtype then return -1
  else compareBytes rd (ans + 10) len own

def mdnsCompareHostAnswer (ans : Nat) (e : Entry) : Option Int :=
  mdnsCompareAnswer rd rrtypeA e.ipaddr.toList ans

def mdnsCompareSrvAnswer (ans : Nat) (e : Entry) : Option Int :=
  mdnsCompareAnswer rd rrtypeSrv e.name ans

def mdnsCompareTxtAnswer (ans : Nat) (_ : Entry) : Option Int :=
  mdnsCompareAnswer rd rrtypeTxt [] ans

def mdnsAnswerConflict (ans : Nat) (e : Entry) : Option Bool :=
  if e.entryType = .srvEntry then do
    let type ← rd16 rd ans
    if type = rrtypeTxt then return (← mdnsCompareTxtAnswer rd ans e) != 0
    else if type = rrtypeSrv then return (← mdnsCompareSrvAnswer rd ans e) != 0
    else return false
  else do return (← mdnsCompareHostAnswer rd ans e) != 0

def rename (e : Entry) : Entry := updateName { e with counter := e.counter + 1 }

def reprobe (e : Entry) : Entry := { e with state := .probeWait, numSent := 0 }

def probing (e : Entry) : Bool := e.state == .probeWait || e.state == .probeSent

def revert (i : Nat) (e : Entry) : Entry × List Note :=
  (reprobe (if probing e then rename e else e),
    .conflict i e.pending ::
      (if e.state ≠ .probeWait ∨ e.state ≠ .announceWait then [.initSend] else []) ++
      if probing e then [.entryLost i] else [])

def respondEntry (queryName ans i : Nat) (e : Entry) : Option (Entry × List Note) :=
  if e.state ≠ .disabled ∧ e.state ≠ .unused then
    match mdnsCompareName rd e.name queryName with
    | none => none
    | some c =>
      if c = 0 then
        match mdnsAnswerConflict rd ans e with
        | none => none
        | some true => some (revert i e)
        | some false =>
          match rd32 rd (ans + 4) with
          | none => none
          | some ttl => some (if 255 / 2 < ttl then { e with pending := .none } else e, [])
      else some (e, [])
  else some (e, [])

def handleMdnsResponse (queryName ans : Nat) : Table → Option (Table × List Note) :=
  eachEntry (respondEntry rd queryName ans) 0

end Answers

section Authority

-- The loop over the data of both records, and the comparison of the lengths.
def dataIsLower : Nat → Nat → Nat → Nat → Option Bool
  | _, _, 0, len2 => some (0 < len2)
  | _, _, _ + 1, 0 => some false
  | rdata1, rdata2, len1 + 1, len2 + 1 =>
    match rd rdata1, rd rdata2 with
    | some a, some b => if a < b then some true else dataIsLower (rdata1 + 1) (rdata2 + 1) len1 len2
    | _, _ => none

def answerIsLower (ans1 ans2 : Nat) : Option Bool := do
  let len1 ← rd16 rd (ans1 + 8)
  let len2 ← rd16 rd (ans2 + 8)
  let cls1 ← rd16 rd (ans1 + 2)
  let cls2 ← rd16 rd (ans2 + 2)
  if cls1 < cls2 then return true
  let type1 ← rd16 rd ans1
  let type2 ← rd16 rd ans2
  if type1 < type2 then return true
  dataIsLower rd (ans1 + 10) (ans2 + 10) len1 len2

def lower (ans : Nat) (lowest : Option Nat) : Option Nat :=
  match lowest with
  | none => some ans
  | some l =>
    match answerIsLower rd ans l with
    | none => none
    | some b => some (if b then ans else l)

def findLowestMatchingAnswer (limit : Nat) (e : Entry) (ignore : Option Nat) :
    Nat → Nat → Option Nat → Option (Option Nat)
  | 0, _, lowest => some lowest
  | n + 1, dptr, lowest =>
    match mdnsParseName rd limit fuel dptr with
    | none => none
    -- NULL is used as a record.
    | some none => none
    | some (some ans) =>
      match rd16 rd (ans + 8), mdnsCompareName rd e.name dptr with
      | some len, some c =>
        if c = 0 ∧ some ans ≠ ignore then
          match lower rd ans lowest with
          | none => none
          | some l => findLowestMatchingAnswer limit e ignore n (ans + 10 + len) (some l)
        else findLowestMatchingAnswer limit e ignore n (ans + 10 + len) lowest
      | _, _ => none

def losesTieBreak (limit : Nat) (e : Entry) (auth n : Nat) : Option Bool :=
  match findLowestMatchingAnswer rd fuel limit e none n auth none with
  | none => none
  | some none => some false
  | some (some ans) =>
    if e.entryType = .srvEntry then
      match mdnsCompareTxtAnswer rd ans e with
      | none => none
      | some res =>
        if res < 0 then some false
        else if 0 < res then some true
        else match findLowestMatchingAnswer rd fuel limit e (some ans) n auth none with
          | none => none
          | some none => none
          | some (some ans) => (mdnsCompareSrvAnswer rd ans e).map (0 < ·)
    else (mdnsCompareHostAnswer rd ans e).map (0 < ·)

def authEntry (limit auth n i : Nat) (e : Entry) : Option (Entry × List Note) :=
  if probing e then
    match losesTieBreak rd fuel limit e auth n with
    | none => none
    | some true => some (reprobe (rename e), .tieBreakLost i ::
        (if e.state ≠ .probeWait then [.initSend] else []) ++ [.entryLost i])
    | some false => some (e, [])
  else some (e, [])

def handleMdnsAuth (limit auth n : Nat) : Table → Option (Table × List Note) :=
  eachEntry (authEntry rd fuel limit auth n) 0

end Authority

-- The address where a loop over records stops, the table and what was done.
structure Walk where
  dptr : Nat
  table : Table
  notes : List Note

def Walk.then (w : Walk) (dptr : Nat) (r : Table × List Note) : Walk :=
  ⟨dptr, r.1, w.notes ++ r.2⟩

-- addr: what the uninitialised address holds at a question.
def recvQuestions (limit : Nat) (addr : Nat → Addr) : Nat → Walk → Option Walk
  | 0, w => some w
  | n + 1, w =>
    match mdnsParseName rd limit fuel w.dptr with
    | none => none
    | some none => some w
    | some (some qry) =>
      match handleQuestion rd fuel (addr n) w.dptr qry w.table with
      | none => none
      | some r => recvQuestions limit addr n (w.then (qry + 4) r)

def recvAnswers (limit : Nat) : Nat → Walk → Option Walk
  | 0, w => some w
  | n + 1, w =>
    match mdnsParseName rd limit fuel w.dptr with
    | none => none
    | some none => some w
    | some (some ans) =>
      match handleMdnsResponse rd w.dptr ans w.table, rd16 rd (ans + 8) with
      | some r, some len => recvAnswers limit n (w.then (ans + 10 + len) r)
      | _, _ => none

-- Up to the authority records, whose count is the second component.
def recvRecords (len : Nat) (addr : Nat → Addr) (table : Table) : Option (Walk × Nat) := do
  let nquestions ← rd16 rd 4
  let nanswers ← rd16 rd 6
  let nauth ← rd16 rd 8
  let w ← recvQuestions rd fuel len addr nquestions ⟨hdrSize, table, []⟩
  let w ← recvAnswers rd fuel len nanswers w
  return (w, nauth)

def mdnsRecv (len : Nat) (addr : Nat → Addr) (table : Table) : Option (Table × List Note) := do
  let w ← recvRecords rd fuel len addr table
  let r ← handleMdnsAuth rd fuel len w.1.dptr w.2 w.1.table
  return (r.1, w.1.notes ++ r.2)

end Recv

end Xtcp.Mdns
