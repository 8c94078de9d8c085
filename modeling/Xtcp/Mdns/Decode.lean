import Xtcp.Mdns.Record
import Mathlib.Data.List.TakeWhile

namespace Xtcp.Mdns
open View

section Decoding

variable (rd : Nat → Option UInt8)

def readBytes : Nat → Nat → Option (List UInt8)
  | _, 0 => some []
  | p, n + 1 => do
    let b ← rd p
    let bs ← readBytes (p + 1) n
    return b :: bs

-- The labels that mdns_parse_name goes over: an empty first label is not the end of the name.
def readLabels : Nat → Nat → Option (List (List UInt8))
  | 0, _ => none
  | fuel + 1, p => do
    let n ← rd p
    if compressed n then none
    else
      let label ← readBytes rd (p + 1) n.toNat
      let b ← rd (p + 1 + n.toNat)
      if b = 0 then return [label]
      else
        let ls ← readLabels fuel (p + 1 + n.toNat)
        return label :: ls

-- The character strings of a TXT record, one behind the other.
def readStrings : Nat → Nat → Nat → Option (List UInt8)
  | 0, _, _ => none
  | fuel + 1, p, len =>
    if len = 0 then some []
    else do
      let n ← rd p
      if len < n.toNat + 1 then none
      else
        let s ← readBytes rd (p + 1) n.toNat
        let rest ← readStrings fuel (p + 1 + n.toNat) (len - (n.toNat + 1))
        return s ++ rest

inductive Data where
  | question
  | address (bytes : List UInt8)
  | target (labels : List (List UInt8))
  | service (port : Int) (labels : List (List UInt8))
  | strings (text : List UInt8)
  deriving DecidableEq, Repr

structure Resource where
  name : List (List UInt8)
  type : Nat
  cls : Nat
  data : Data
  deriving DecidableEq, Repr

variable (limit : Nat)

def readData (type p len : Nat) : Option Data :=
  if type = rrtypeA then (readBytes rd p len).map .address
  else if type = rrtypePtr then (readLabels rd (limit + 1) p).map .target
  else if type = rrtypeSrv then do
    let port ← rd16 rd (p + 4)
    let ls ← readLabels rd (limit + 1) (p + 6)
    return .service port ls
  else if type = rrtypeTxt then (readStrings rd (limit + 1) p len).map .strings
  else none

-- The walk of mdns_recv: a name, the fixed header and, but for a question, len bytes of data.
def walkQuestions : Nat → Nat → Option (List Resource × Nat)
  | 0, p => some ([], p)
  | n + 1, p => do
    let qry ← (mdnsParseName rd limit (limit + 1) p).join
    let name ← readLabels rd (limit + 1) p
    let type ← rd16 rd qry
    let cls ← rd16 rd (qry + 2)
    let (rs, p) ← walkQuestions n (qry + 4)
    return (⟨name, type, cls, .question⟩ :: rs, p)

def walkAnswers : Nat → Nat → Option (List Resource × Nat)
  | 0, p => some ([], p)
  | n + 1, p => do
    let ans ← (mdnsParseName rd limit (limit + 1) p).join
    let name ← readLabels rd (limit + 1) p
    let type ← rd16 rd ans
    let cls ← rd16 rd (ans + 2)
    let len ← rd16 rd (ans + 8)
    let data ← readData rd limit type (ans + 10) len
    let (rs, p) ← walkAnswers n (ans + 10 + len)
    return (⟨name, type, cls, data⟩ :: rs, p)

end Decoding

-- The records that the counts of the header announce, and where the walk over them ends.
def decode (data : List UInt8) : Option (List Resource × Nat) := do
  let rd := fun p => data[p]?
  let questions ← rd16 rd 4
  let answers ← rd16 rd 6
  let authorities ← rd16 rd 8
  let (qs, p) ← walkQuestions rd data.length questions hdrSize
  let (rs, p) ← walkAnswers rd data.length (answers + authorities) p
  return (qs ++ rs, p)

section Reading

variable {rd : Nat → Option UInt8}

theorem readBytes_shows {p : Nat} {bs : List UInt8} (h : Shows rd p bs) :
    readBytes rd p bs.length = some bs := by
  induction bs generalizing p with
  | nil => rfl
  | cons b bs ih =>
    rw [List.length_cons, readBytes, h.1, ih h.2]
    rfl

-- What is read of labels: those up to the first empty one behind the first.
def readable : List (List UInt8) → List (List UInt8)
  | [] => []
  | l :: ls => l :: ls.takeWhile (· != [])

theorem readable_eq_self {ls : List (List UInt8)} (h : ∀ l ∈ ls.tail, l ≠ []) :
    readable ls = ls := by
  cases ls with
  | nil => rfl
  | cons l ls =>
    rw [readable, List.takeWhile_eq_self_iff.mpr]
    intro x hx
    simpa using h x hx

theorem ne_nil_of_readable {ls : List (List UInt8)} (h : readable ls = ls) :
    ∀ l ∈ ls.tail, l ≠ [] := by
  cases ls with
  | nil => exact fun l hl => by cases hl
  | cons l ls =>
    have htake := (List.cons.inj h).2
    intro x hx
    simpa using List.takeWhile_eq_self_iff.mp htake x hx

theorem readLabels_wire {ls : List (List UInt8)} {p fuel : Nat} (hne : ls ≠ []) (hs : Short ls)
    (h : Shows rd p (wire ls)) (hf : ls.length ≤ fuel) :
    readLabels rd fuel p = some (readable ls) := by
  induction ls generalizing p fuel with
  | nil => exact absurd rfl hne
  | cons l ls ih =>
    obtain ⟨fuel, rfl⟩ : ∃ f, fuel = f + 1 := ⟨fuel - 1, by rw [List.length_cons] at hf; omega⟩
    have hl : l.length < 192 := hs l (List.mem_cons_self ..)
    rw [wire_cons, List.cons_append, shows_cons, shows_append] at h
    obtain ⟨hn, hlabel, hrest⟩ := h
    have hread := readBytes_shows hlabel
    cases ls with
    | nil =>
      have hz : rd (p + 1 + l.length) = some 0 := hrest.1
      simp [readLabels, hn, compressed_ofNat hl, toNat_ofNat hl, hread, hz, readable]
    | cons x ls =>
      have hx : x.length < 192 := hs x (by simp)
      have hb : rd (p + 1 + l.length) = some (UInt8.ofNat x.length) := by
        rw [wire_cons] at hrest
        exact hrest.1
      by_cases hnil : x = []
      · subst hnil
        simp [readLabels, hn, compressed_ofNat hl, toNat_ofNat hl, hread, hb, readable]
      · have hne' : UInt8.ofNat x.length ≠ 0 :=
          ofNat_ne_zero hx (by simpa using hnil)
        have hrec := ih (by simp) (fun y hy => hs y (List.mem_cons_of_mem _ hy)) hrest
          (Nat.le_of_succ_le_succ hf)
        simp [readLabels, hn, compressed_ofNat hl, toNat_ofNat hl, hread, hb, hne', hrec,
          readable, hnil]

theorem length_le_wire (ls : List (List UInt8)) : ls.length < (wire ls).length := by
  induction ls with
  | nil => decide
  | cons l ls ih =>
    rw [wire_cons, List.cons_append, List.length_cons, List.length_cons, List.length_append]
    omega

theorem parseName_readable {limit p : Nat} {ls : List (List UInt8)} (hne : ls ≠ [])
    (hs : Short ls) (h : Shows rd p (wire ls)) (hr : readable ls = ls)
    (hlim : p + (wire ls).length ≤ limit) :
    mdnsParseName rd limit (limit + 1) p = some (some (p + (wire ls).length)) := by
  have hlen := length_le_wire ls
  unfold mdnsParseName
  rw [if_neg (by omega)]
  exact parseLoop_wire hne hs (ne_nil_of_readable hr) h (by omega) (by omega)

-- The empty string at the end is there too.
theorem readStrings_wire {ls : List (List UInt8)} {p fuel : Nat} (hs : ∀ l ∈ ls, l.length < 256)
    (h : Shows rd p (wire ls)) (hf : ls.length + 1 < fuel) :
    readStrings rd fuel p (wire ls).length = some ls.flatten := by
  induction ls generalizing p fuel with
  | nil =>
    obtain ⟨fuel, rfl⟩ : ∃ f, fuel = f + 1 + 1 := ⟨fuel - 2, by simp at hf; omega⟩
    have hz : rd p = some 0 := h.1
    simp [readStrings, wire, hz, readBytes]
  | cons l ls ih =>
    obtain ⟨fuel, rfl⟩ : ∃ f, fuel = f + 1 := ⟨fuel - 1, by omega⟩
    have hl : (UInt8.ofNat l.length).toNat = l.length :=
      UInt8.toNat_ofNat_of_lt' (hs l (List.mem_cons_self ..))
    rw [wire_cons, List.cons_append, shows_cons, shows_append] at h
    obtain ⟨hn, hlabel, hrest⟩ := h
    have hfuel : ls.length + 1 < fuel := by
      rw [List.length_cons] at hf
      omega
    have hrec := ih (fun y hy => hs y (List.mem_cons_of_mem _ hy)) hrest hfuel
    have hlen : (wire (l :: ls)).length = l.length + 1 + (wire ls).length := by
      simp [wire_cons]
      omega
    have hsub : l.length + 1 + (wire ls).length - (l.length + 1) = (wire ls).length := by omega
    rw [hlen, readStrings, if_neg (show l.length + 1 + (wire ls).length ≠ 0 by omega), hn]
    simp only [Option.bind_eq_bind, Option.bind_some, hl, readBytes_shows hlabel, hsub, hrec]
    rw [if_neg (show ¬ l.length + 1 + (wire ls).length < l.length + 1 by omega)]
    rfl

end Reading

end Xtcp.Mdns
