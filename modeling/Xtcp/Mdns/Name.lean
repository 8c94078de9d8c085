import Mathlib.Data.List.Basic
import Mathlib.Algebra.Ring.Nat

namespace Xtcp.Mdns

def text (s : String) : List UInt8 := s.toList.map fun c => UInt8.ofNat c.toNat

abbrev Addr := Vector UInt8 4

def Addr.zero : Addr := ⟨#[0, 0, 0, 0], rfl⟩

def compressed (n : UInt8) : Bool := n &&& 0xc0 == 0xc0

def offset (n low : UInt8) : Nat := (n &&& 0x3f).toNat * 256 + low.toNat

section Reading

-- Addresses count from &data[0]. A read that gives none stops the program, as a loop that never
-- ends does.
variable (rd : Nat → Option UInt8)

def rd16 (p : Nat) : Option Nat := do
  let high ← rd p
  let low ← rd (p + 1)
  return high.toNat * 256 + low.toNat

def rd32 (p : Nat) : Option Nat := do
  let high ← rd16 rd p
  let low ← rd16 rd (p + 2)
  return high * 65536 + low

section ParseName

variable (limit : Nat)

def skipLabel : Nat → Nat → Option Nat
  | query, 0 => some query
  | query, n + 1 => if limit < query + 1 then none else skipLabel (query + 1) n

-- One turn of the do loop: some none where the source returns NULL.
def parseTurn (query : Nat) (saved : Option Nat) : Option (Option (Nat × Option Nat)) := do
  let n ← rd query
  if limit < query + 1 then return none
  if compressed n then
    let low ← rd (query + 1)
    if limit < offset n low then return none
    return some (offset n low, some (saved.getD (query + 2)))
  return (skipLabel limit (query + 1) n.toNat).map (·, saved)

def parseLoop : Nat → Nat → Option Nat → Option (Option Nat)
  | 0, _, _ => none
  | fuel + 1, query, saved =>
    match parseTurn rd limit query saved with
    | none => none
    | some none => some none
    | some (some (query, saved)) =>
      match rd query with
      | none => none
      | some n => if n = 0 then some (some (saved.getD query + 1)) else parseLoop fuel query saved

def mdnsParseName (fuel query : Nat) : Option (Option Nat) :=
  if limit < query then some none else parseLoop rd limit fuel query none

end ParseName

-- The loop over one label: .error where the source returns.
def compareLabel : Nat → List UInt8 → Nat → Option (Except UInt8 (List UInt8 × Nat))
  | 0, query, response => some (.ok (query, response))
  | _ + 1, [], response => some (.ok ([], response))
  | n + 1, c :: query, response =>
    match rd response with
    | none => none
    | some b =>
      if b < c then some (.error 1)
      else if c < b then some (.error 255)
      else compareLabel n query (response + 1)

def compareEnd (query : List UInt8) (response : Nat) : Option UInt8 :=
  if query ≠ [] then some 1
  else match rd response with
    | none => none
    | some b => if b ≠ 0 then some 255 else some 0

def compareLoop : Nat → List UInt8 → Nat → Option UInt8
  | 0, _, _ => none
  | fuel + 1, query, response =>
    match rd response with
    | none => none
    | some n =>
      if compressed n then
        match rd (response + 1) with
        | none => none
        | some low => compareEnd rd query (offset n low)
      else match compareLabel rd n.toNat query (response + 1) with
        | none => none
        | some (.error v) => some v
        | some (.ok (query, response)) =>
          match rd response with
          | none => none
          | some b =>
            if b ≠ 0 ∧ query.tail ≠ [] then compareLoop fuel query.tail response
            else compareEnd rd query.tail response

-- A turn that is not the last one takes a character of the query.
def mdnsCompareName (query : List UInt8) (response : Nat) : Option UInt8 :=
  compareLoop rd (query.length + 1) query response

def revField : Nat → Nat → Nat → Bool × Nat → Option (Bool × Nat)
  | 0, _, _, acc => some acc
  | n + 1, query, base, (res, sum) =>
    match rd (query - 1) with
    | none => none
    | some c =>
      if c < 0x30 ∨ 0x39 < c then revField n (query - 1) (base * 10) (false, sum)
      else revField n (query - 1) (base * 10) (res, sum + (c.toNat - 0x30) * base)

structure RevIp where
  res : Bool
  curField : Nat
  addr : Addr

-- query: the address behind the label.
def revLabel (n : UInt8) (query : Nat) (r : RevIp) : Option RevIp :=
  if r.curField < 4 ∧ r.res then
    if n ≤ 3 then
      match revField rd n.toNat query 1 (r.res, 0) with
      | none => none
      | some (res, sum) =>
        if 255 < sum then some ⟨false, r.curField + 1, r.addr⟩
        else some ⟨res, r.curField + 1, r.addr.set! (3 - r.curField) (UInt8.ofNat sum)⟩
    else some ⟨false, r.curField + 1, r.addr⟩
  else some r

def revLoop : Nat → Nat → RevIp → Option (Nat × RevIp)
  | 0, _, _ => none
  | fuel + 1, query, r =>
    match rd query with
    | none => none
    | some n =>
      if compressed n then
        match rd (query + 1) with
        | none => none
        | some low => some (offset n low, r)
      else match revLabel rd n (query + 1 + n.toNat) r with
        | none => none
        | some r =>
          match rd (query + 1 + n.toNat) with
          | none => none
          | some b =>
            if b ≠ 0 ∧ r.curField < 4 then revLoop fuel (query + 1 + n.toNat) r
            else some (query + 1 + n.toNat, r)

def mdnsParseRevIp (fuel query : Nat) (addr : Addr) : Option (Bool × Addr) :=
  match revLoop rd fuel query ⟨true, 0, addr⟩ with
  | none => none
  | some (query, r) =>
    match mdnsCompareName rd (text "in-addr.arpa") query with
    | none => none
    | some c => some (r.res && c == 0, r.addr)

end Reading

end Xtcp.Mdns
