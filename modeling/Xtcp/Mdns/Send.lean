import Xtcp.Mdns.Table

namespace Xtcp.Mdns

def be16 (x : Nat) : List UInt8 := [UInt8.ofNat (x / 256), UInt8.ofNat x]

def be32 (x : Nat) : List UInt8 := be16 (x / 65536) ++ be16 x

-- label: the characters of the label that is being copied.
def encodeFrom (label : List UInt8) : List UInt8 → List UInt8
  | [] => UInt8.ofNat label.length :: label ++ [0]
  | c :: src =>
    if c = dot then
      UInt8.ofNat label.length :: label ++ (if src = [] then [0] else encodeFrom [] src)
    else encodeFrom (label ++ [c]) src

def mdnsEncodeName (src : List UInt8) : List UInt8 := encodeFrom [] src

def ipLabel (b : UInt8) : List UInt8 :=
  UInt8.ofNat (mdnsItoa b.toNat).length :: mdnsItoa b.toNat

def mdnsEncodeIp (addr : Addr) : List UInt8 :=
  addr.toList.reverse.flatMap ipLabel ++ 7 :: text "in-addr" ++ 4 :: text "arpa" ++ [0]

def rrtypeA : Nat := 1
def rrtypePtr : Nat := 12
def rrtypeTxt : Nat := 16
def rrtypeSrv : Nat := 33
def rrtypeAny : Nat := 255
def rrclassIn : Nat := 1
def rrclassFlush : Nat := 0x8000

-- struct mdns_answer
def answerHeader (type cls ttl len : Nat) : List UInt8 :=
  be16 type ++ be16 cls ++ be32 ttl ++ be16 len

inductive Section where
  | question
  | announcement
  | answer
  | authority
  deriving DecidableEq, Repr

inductive Kind where
  | any
  | host
  | ptr
  | srv
  | txt
  deriving DecidableEq, Repr

-- What is written for the entry at an index. whole is false where the program stops within it.
structure Part where
  entry : Nat
  part : Section
  kind : Kind
  data : List UInt8
  whole : Bool
  deriving DecidableEq, Repr

def mdnsSendProbe (e : Entry) : List UInt8 :=
  mdnsEncodeName e.name ++ be16 rrtypeAny ++ be16 rrclassIn

def mdnsSendHostResponse (e : Entry) : List UInt8 :=
  mdnsEncodeName e.name ++ answerHeader rrtypeA (rrclassIn ||| rrclassFlush) 255 4 ++
    e.ipaddr.toList

def ptrOwner (e : Entry) : List UInt8 :=
  if e.entryType = .srvEntry then mdnsEncodeName e.namePostfix else mdnsEncodeIp e.ipaddr

def mdnsSendPtrResponse (e : Entry) : List UInt8 :=
  ptrOwner e ++ answerHeader rrtypePtr rrclassIn 255 (mdnsEncodeName e.name).length ++
    mdnsEncodeName e.name

def mdnsGetCanonicalName (table : Table) : Option (List UInt8) :=
  (table.find? fun e => e.state != .probeWait && e.entryType == .canonicalNameEntry).map (·.name)

-- struct mdns_srv_hdr
def srvHeader (e : Entry) : List UInt8 := be16 0 ++ be16 0 ++ be16 (e.srvPort % 65536).toNat

def srvBody (e : Entry) (target : List UInt8) : List UInt8 :=
  mdnsEncodeName e.name ++ answerHeader rrtypeSrv rrclassIn 255 (6 + target.length) ++
    srvHeader e ++ target

def mdnsSendTxtResponse (e : Entry) : List UInt8 :=
  mdnsEncodeName e.name ++ answerHeader rrtypeTxt rrclassIn 255
    (mdnsEncodeName e.txtRecord).length ++ mdnsEncodeName e.txtRecord

section Parts

variable (canonical : Option (List UInt8)) (i : Nat) (part : Section) (e : Entry)

def questionPart : Part := ⟨i, .question, .any, mdnsSendProbe e, true⟩

def hostPart : Part := ⟨i, part, .host, mdnsSendHostResponse e, true⟩

def ptrPart : Part := ⟨i, part, .ptr, mdnsSendPtrResponse e, true⟩

-- Without a canonical name mdns_encode_name reads from NULL, where the target would start.
def srvPart : Part :=
  match canonical with
  | some name => ⟨i, part, .srv, srvBody e (mdnsEncodeName name), true⟩
  | none => ⟨i, part, .srv, srvBody e [], false⟩

def txtPart : Part := ⟨i, part, .txt, mdnsSendTxtResponse e, true⟩

def claimParts : List Part :=
  if e.entryType = .srvEntry then
    [ptrPart i part e, srvPart canonical i part e, txtPart i part e]
  else [hostPart i part e]

end Parts

def size (parts : List Part) : Nat := (parts.map fun p => p.data.length).sum

def xtcpClientBufSize : Nat := 1472

def hdrSize : Nat := 12

def probeSize (e : Entry) : Nat := 4 + e.name.length

section Probes

-- used: dptr - &data[0]
def askProbes (i used : Nat) : Table → Table × List Part
  | [] => ([], [])
  | e :: es =>
    if e.state = .probeWait ∧ used + probeSize e < xtcpClientBufSize then
      let r := askProbes (i + 1) (used + (mdnsSendProbe e).length) es
      ({ e with state := .probePartialSent } :: r.1, questionPart i e :: r.2)
    else
      let r := askProbes (i + 1) used es
      (e :: r.1, r.2)

def probeParts (canonical : Option (List UInt8)) (i : Nat) (e : Entry) : List Part :=
  if e.state = .probePartialSent then claimParts canonical i .authority e else []

def probeSent (t : Nat) (e : Entry) : Entry :=
  if e.state = .probePartialSent then
    { e with
      numSent := e.numSent + 1
      state := .probeSent
      timeout := (t + if e.counter < 15 then 250 * 1000 * 100 else 2500 * 1000 * 100) % 2 ^ 32 }
  else e

def authorities (canonical : Option (List UInt8)) (table : Table) : List Part :=
  (table.mapIdx (probeParts canonical)).flatten

-- The second loop turns no PROBE_WAIT on or off, so the canonical name is one for all its records.
def mdnsSendProbes (t : Nat) (table : Table) : Table × List Part :=
  let asked := askProbes 0 hdrSize table
  let canonical := mdnsGetCanonicalName asked.1
  (asked.1.map (probeSent t), asked.2 ++ authorities canonical asked.1)

end Probes

def mdnsResponseSize (e : Entry) : Nat := 10 + 2 * e.name.length + 4

section Responses

variable (canonical : Option (List UInt8)) (t i : Nat) (e : Entry)

def announceParts : List Part :=
  if e.state = .announceWait then claimParts canonical i .announcement e else []

def answerParts : List Part :=
  (if e.pending.host then [hostPart i .answer e] else []) ++
    (if e.pending.ptr then [ptrPart i .answer e] else []) ++
    (if e.pending.srv then [srvPart canonical i .answer e] else []) ++
    (if e.pending.txt then [txtPart i .answer e] else [])

def responseParts : List Part := announceParts canonical i e ++ answerParts canonical i e

def announced : Entry :=
  if e.state = .announceWait then
    { e with
      numSent := e.numSent + 1
      state := .announceSent
      timeout := (t + 1000 * 1000 * 100) % 2 ^ 32 }
  else e

def responded : Entry := { announced t e with pending := .none }

def respond (used : Nat) : Nat → Table → Table × List Part
  | _, [] => ([], [])
  | i, e :: es =>
    if e.state ≠ .unused ∧ used + mdnsResponseSize e < xtcpClientBufSize then
      let parts := responseParts canonical i e
      let r := respond (used + size parts) (i + 1) es
      (responded t e :: r.1, parts ++ r.2)
    else
      let r := respond used (i + 1) es
      (e :: r.1, r.2)

def mdnsSendResponses (table : Table) : Table × List Part :=
  respond (mdnsGetCanonicalName table) t hdrSize 0 table

end Responses

def count (part : Section) (parts : List Part) : Nat :=
  (parts.filter fun p => p.part == part).length

def numProbes (parts : List Part) : Nat := count .question parts

def numAuthRecords (parts : List Part) : Nat := count .authority parts

def numAnswers (parts : List Part) : Nat := count .announcement parts + count .answer parts

inductive Message where
  | probe
  | response
  deriving DecidableEq, Repr

structure Sent where
  message : Message
  parts : List Part
  deriving DecidableEq, Repr

def Sent.whole (s : Sent) : Bool := s.parts.all (·.whole)

def Sent.header (s : Sent) : List UInt8 :=
  match s.message with
  | .probe => be16 0 ++ [0, 0] ++ be16 (numProbes s.parts) ++ be16 0 ++
      be16 (numAuthRecords s.parts) ++ be16 0
  | .response => be16 0 ++ [0x84, 0] ++ be16 0 ++ be16 (numAnswers s.parts) ++ be16 0 ++ be16 0

def Sent.data (s : Sent) : List UInt8 := s.header ++ s.parts.flatMap (·.data)

-- none: nothing to send.
def mdnsSend (t : Nat) (table : Table) : Table × Option Sent :=
  let probes := mdnsSendProbes t table
  if 0 < numProbes probes.2 then (probes.1, some ⟨.probe, probes.2⟩)
  else
    let responses := mdnsSendResponses t probes.1
    if 0 < numAnswers responses.2 then (responses.1, some ⟨.response, responses.2⟩)
    else (responses.1, none)

end Xtcp.Mdns
