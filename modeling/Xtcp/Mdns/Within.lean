import Xtcp.Mdns.Receive
import Xtcp.Mdns.Trail

namespace Xtcp.Mdns

variable (data : List UInt8)

def reads (p : Nat) : Option UInt8 := data[p]?

def word (p : Nat) : Nat := (byte data p).toNat * 256 + (byte data (p + 1)).toNat

section Reverse

variable (hops : Nat)

-- Where mdns_parse_rev_ip stops, the comparison with the domain stays inside.
def RevWithin (p : Nat) : Prop :=
  ∀ t r, revLoop (reads data) hops p ⟨true, 0, .zero⟩ = some (t, r) →
    Compares data (text "in-addr.arpa") t

-- mdns_parse_rev_ip is called: no service before the first active host has the type asked for.
def AsksHost (dptr : Nat) : Table → Prop
  | [] => False
  | e :: es =>
    if e.state = .active then
      e.entryType = .srvEntry →
        mdnsCompareName (reads data) e.namePostfix dptr ≠ some 0 ∧ AsksHost dptr es
    else AsksHost dptr es

variable (hops : Nat)

-- The fixed part of a question is inside.
def QuestionWithin (dptr qry : Nat) (table : Table) : Prop :=
  qry + 4 ≤ data.length ∧ (word data (qry + 2) = rrclassIn → word data qry = rrtypePtr →
    AsksHost data dptr table → RevWithin data hops dptr)

-- behind: what is asked of the address and the table behind the questions.
def QuestionsWithin (addr : Nat → Addr) (behind : Nat → Table → Prop) : Nat → Nat → Table → Prop
  | 0, dptr, table => behind dptr table
  | n + 1, dptr, table => ∃ r, Named data hops dptr r ∧ match r with
    | none => behind dptr table
    | some qry => QuestionWithin data hops dptr qry table ∧
        ∀ r, handleQuestion (reads data) hops (addr n) dptr qry table = some r →
          QuestionsWithin addr behind n (qry + 4) r.1

end Reverse

section Answers

-- The fixed part of a record is inside, and as much of its data as is compared with own.
def RdataWithin (rrtype : Nat) (own : List UInt8) (ans : Nat) : Prop :=
  word data (ans + 2) % rrclassFlush = rrclassIn → word data ans = rrtype →
    BytesWithin data (ans + 10) (word data (ans + 8)) own

def ConflictWithin (ans : Nat) (e : Entry) : Prop :=
  if e.entryType = .srvEntry then
    word data ans = rrtypeSrv → RdataWithin data rrtypeSrv e.name ans
  else RdataWithin data rrtypeA e.ipaddr.toList ans

def AnswerWithin (dptr ans : Nat) (table : Table) : Prop :=
  ans + 10 ≤ data.length ∧ ∀ e ∈ table, e.state ≠ .disabled → e.state ≠ .unused →
    mdnsCompareName (reads data) e.name dptr = some 0 → ConflictWithin data ans e

def AnswersWithin (hops : Nat) (behind : Nat → Table → Prop) : Nat → Nat → Table → Prop
  | 0, dptr, table => behind dptr table
  | n + 1, dptr, table => ∃ r, Named data hops dptr r ∧ match r with
    | none => behind dptr table
    | some ans => AnswerWithin data dptr ans table ∧
        ∀ r, handleMdnsResponse (reads data) dptr ans table = some r →
          AnswersWithin hops behind n (ans + 10 + word data (ans + 8)) r.1

end Answers

section Authority

variable (hops : Nat)

-- The bytes from p and q on are compared inside, up to the first that is lower.
def BytesLower (p q m n : Nat) : Prop :=
  ∀ i < m, i < n → (∀ j < i, ¬ byte data (p + j) < byte data (q + j)) →
    p + i < data.length ∧ q + i < data.length

def LowerWithin (ans l : Nat) : Prop :=
  ¬ word data (ans + 2) < word data (l + 2) → ¬ word data ans < word data l →
    BytesLower data (ans + 10) (l + 10) (word data (ans + 8)) (word data (l + 8))

def lowest (ans : Nat) : Option Nat → Nat
  | none => ans
  | some l => if answerIsLower (reads data) ans l = some true then ans else l

-- behind: what is asked of the record that is found.
def FindWithin (e : Entry) (ignore : Option Nat) (behind : Option Nat → Prop) :
    Nat → Nat → Option Nat → Prop
  | 0, _, found => behind found
  | n + 1, dptr, found => ∃ ans, Named data hops dptr (some ans) ∧ ans + 10 ≤ data.length ∧
    if mdnsCompareName (reads data) e.name dptr = some 0 ∧ some ans ≠ ignore then
      (∀ l ∈ found, LowerWithin data ans l) ∧
        FindWithin e ignore behind n (ans + 10 + word data (ans + 8))
          (some (lowest data ans found))
    else FindWithin e ignore behind n (ans + 10 + word data (ans + 8)) found

def TieWithin (n dptr : Nat) (e : Entry) : Prop :=
  FindWithin data hops e none (fun found => ∀ ans ∈ found,
    if e.entryType = .srvEntry then
      mdnsCompareTxtAnswer (reads data) ans e = some 0 →
        FindWithin data hops e (some ans) (fun found => ∃ ans ∈ found,
          RdataWithin data rrtypeSrv e.name ans) n dptr none
    else RdataWithin data rrtypeA e.ipaddr.toList ans) n dptr none

def AuthorityWithin (n dptr : Nat) (table : Table) : Prop :=
  ∀ e ∈ table, probing e → TieWithin data hops n dptr e

end Authority

def ReceptionWithin (hops : Nat) (addr : Nat → Addr) (table : Table) : Prop :=
  10 ≤ data.length ∧
    QuestionsWithin data hops addr
      (AnswersWithin data hops (AuthorityWithin data hops (word data 8)) (word data 6))
      (word data 4) hdrSize table

section Words

variable {data} {p : Nat}

theorem rd16_word (h : p + 2 ≤ data.length) : rd16 (reads data) p = some (word data p) := by
  have h0 : reads data p = some (byte data p) := read_of_lt (by omega)
  have h1 : reads data (p + 1) = some (byte data (p + 1)) := read_of_lt (by omega)
  simp only [rd16, h0, h1, Option.bind_eq_bind, Option.bind_some]
  rfl

theorem rd16_none (h : ¬ p + 2 ≤ data.length) : rd16 (reads data) p = none := by
  have h1 : reads data (p + 1) = none := read_of_le (by omega)
  simp only [rd16, h1, Option.bind_eq_bind, Option.bind_none, Option.bind_fun_none]

end Words

section Reverse

variable {data} {hops p : Nat}

theorem revField_isSome {n query base : Nat} {acc : Bool × Nat} (hn : n ≤ query)
    (hq : query ≤ data.length) : (revField (reads data) n query base acc).isSome := by
  induction n generalizing query base acc with
  | zero => rfl
  | succ n ih =>
    have hr : reads data (query - 1) = some (byte data (query - 1)) := read_of_lt (by omega)
    rw [revField, hr]
    simp only
    split <;> exact ih (by omega) (by omega)

theorem revLabel_isSome {n : UInt8} {query : Nat} (r : RevIp) (hn : n.toNat ≤ query)
    (hq : query ≤ data.length) : (revLabel (reads data) n query r).isSome := by
  unfold revLabel
  split
  · split
    · obtain ⟨x, hx⟩ := Option.isSome_iff_exists.mp
        (@revField_isSome data n.toNat query 1 (r.res, 0) hn hq)
      rw [hx]
      simp only
      split <;> rfl
    · rfl
  · rfl

-- What the label decides does not depend on the address that is filled in.
theorem revLabel_addr (n : UInt8) (query : Nat) (res : Bool) (curField : Nat) :
    ∃ (o : Option (Bool × Nat)) (f : Addr → Addr), ∀ a,
      revLabel (reads data) n query ⟨res, curField, a⟩ = o.map fun x => ⟨x.1, x.2, f a⟩ := by
  unfold revLabel
  by_cases hc : curField < 4 ∧ res
  · simp only [if_pos hc]
    by_cases hn : n ≤ 3
    · simp only [if_pos hn]
      cases revField (reads data) n.toNat query 1 (res, 0) with
      | none => exact ⟨none, id, fun _ => rfl⟩
      | some x =>
        by_cases hs : 255 < x.2
        · exact ⟨some (false, curField + 1), id, fun _ => by simp [hs]⟩
        · exact ⟨some (x.1, curField + 1), fun a => a.set! (3 - curField) (UInt8.ofNat x.2),
            fun _ => by simp [hs]⟩
    · simp only [if_neg hn]
      exact ⟨some (false, curField + 1), id, fun _ => rfl⟩
  · simp only [if_neg hc]
    exact ⟨some (res, curField), id, fun _ => rfl⟩

theorem revLoop_addr (res : Bool) (curField : Nat) (a b : Addr) :
    (revLoop (reads data) hops p ⟨res, curField, a⟩).map (·.1) =
      (revLoop (reads data) hops p ⟨res, curField, b⟩).map (·.1) := by
  induction hops generalizing p res curField a b with
  | zero => rfl
  | succ hops ih =>
    rw [revLoop, revLoop]
    cases reads data p with
    | none => rfl
    | some n =>
      simp only
      split
      · cases reads data (p + 1) <;> rfl
      · obtain ⟨o, f, hf⟩ := @revLabel_addr data n (p + 1 + n.toNat) res curField
        rw [hf a, hf b]
        cases o with
        | none => rfl
        | some x =>
          simp only [Option.map_some]
          cases reads data (p + 1 + n.toNat) with
          | none => rfl
          | some c =>
            simp only
            split
            · exact ih ..
            · rfl

theorem revLoop_step {x : RevIp} (hin : Inside data p) (hlt : next data p < data.length)
    (hrest : byte data (next data p) ≠ 0 → ∀ y,
      (revLoop (reads data) hops (next data p) y).isSome) :
    (revLoop (reads data) (hops + 1) p x).isSome := by
  have hp : reads data p = some (byte data p) := read_of_lt hin.1
  rw [revLoop, hp]
  by_cases hc : compressed (byte data p)
  · have hlow : reads data (p + 1) = some (byte data (p + 1)) := read_of_lt (hin.2 hc)
    simp only [if_pos hc, hlow, Option.isSome_some]
  · have hnext : p + 1 + (byte data p).toNat = next data p := (if_neg hc).symm
    have hread : reads data (next data p) = some (byte data (next data p)) := read_of_lt hlt
    obtain ⟨y, hy⟩ := Option.isSome_iff_exists.mp
      (@revLabel_isSome data (byte data p) (next data p) x (by omega) (Nat.le_of_lt hlt))
    simp only [if_neg hc, hnext, hy, hread]
    split
    · next h => exact hrest h.1 y
    · rfl

theorem revLoop_isSome {r : Option Nat} (ht : Trail data hops p r) (hr : r ≠ none) (x : RevIp) :
    (revLoop (reads data) hops p x).isSome := by
  induction ht generalizing x with
  | beyond _ _ => exact absurd rfl hr
  | ends hin hlt hz => exact revLoop_step hin hlt fun hne => absurd hz hne
  | more hin hlt hne _ ih =>
    refine revLoop_step hin hlt fun _ y => ih ?_ y
    rintro rfl
    exact hr rfl

theorem parseRevIp_isSome {e : Nat} (ht : Trail data hops p (some e)) (addr : Addr) :
    (mdnsParseRevIp (reads data) hops p addr).isSome ↔ RevWithin data hops p := by
  have hsome := revLoop_isSome ht (Option.some_ne_none e)
  obtain ⟨⟨t, x⟩, hx⟩ := Option.isSome_iff_exists.mp (hsome ⟨true, 0, addr⟩)
  obtain ⟨⟨t', y⟩, hy⟩ := Option.isSome_iff_exists.mp (hsome ⟨true, 0, .zero⟩)
  have ht' : t = t' := by
    have ha := @revLoop_addr data hops p true 0 addr .zero
    rw [hx, hy] at ha
    exact Option.some.inj ha
  have hwithin : RevWithin data hops p ↔ Compares data (text "in-addr.arpa") t := by
    unfold RevWithin
    rw [hy]
    simp [ht']
  rw [hwithin, ← compareName_isSome, mdnsParseRevIp, hx]
  change _ ↔ (mdnsCompareName (reads data) (text "in-addr.arpa") t).isSome = true
  cases hc : mdnsCompareName (reads data) (text "in-addr.arpa") t with
  | none => simp [hc]
  | some c => simp only [hc, Option.isSome_some]

theorem isSome_keep {e : Entry} {o : Option (Table × List Note)} :
    (keep e o).isSome ↔ o.isSome := by simp [keep]

theorem Trail.compared {e : Nat} (ht : Trail data hops p (some e)) (q : List UInt8) :
    ∃ c, mdnsCompareName (reads data) q p = some c :=
  Option.isSome_iff_exists.mp (compareName_isSome.mpr (ht.compares q))

theorem ptrQuery_isSome {e : Nat} (ht : Trail data hops p (some e)) (addr : Addr)
    (table : Table) : (handleMdnsPtrQuery (reads data) hops p addr table).isSome ↔
      (AsksHost data p table → RevWithin data hops p) := by
  induction table generalizing addr with
  | nil => simp [handleMdnsPtrQuery, AsksHost]
  | cons x es ih =>
    unfold handleMdnsPtrQuery AsksHost
    by_cases ha : x.state = .active
    · simp only [if_pos ha]
      by_cases hs : x.entryType = .srvEntry
      · obtain ⟨c, hc⟩ := ht.compared x.namePostfix
        simp only [if_pos hs, hc]
        by_cases hz : c = 0
        · simp [hz, hs]
        · simp [hz, hs, isSome_keep, ih]
      · have hasks : x.entryType = .srvEntry →
            mdnsCompareName (reads data) x.namePostfix p ≠ some 0 ∧ AsksHost data p es :=
          fun h => absurd h hs
        simp only [if_neg hs]
        rw [iff_true_intro hasks, true_imp_iff, ← parseRevIp_isSome ht addr]
        cases hr : mdnsParseRevIp (reads data) hops p addr with
        | none => simp
        | some r =>
          have hw := (parseRevIp_isSome ht addr).mp (by rw [hr]; rfl)
          simp only
          split
          · rfl
          · simp [isSome_keep, ih, hw]
    · simp only [if_neg ha, isSome_keep, ih]

theorem nameQuery_isSome {e : Nat} (ht : Trail data hops p (some e)) (qtype : Nat)
    (table : Table) : (handleNameQuery (reads data) p qtype table).isSome := by
  induction table with
  | nil => rfl
  | cons x es ih =>
    obtain ⟨c, hc⟩ := ht.compared x.name
    rw [handleNameQuery, hc]
    simp only
    split
    · split
      · rfl
      · rwa [isSome_keep]
    · rwa [isSome_keep]

theorem question_isSome {qry : Nat} (ht : Trail data hops p (some qry)) (addr : Addr)
    (table : Table) : (handleQuestion (reads data) hops addr p qry table).isSome ↔
      QuestionWithin data hops p qry table := by
  unfold handleQuestion QuestionWithin
  by_cases hq : qry + 4 ≤ data.length
  · have hcls : rd16 (reads data) (qry + 2) = some (word data (qry + 2)) := rd16_word (by omega)
    have htype : rd16 (reads data) qry = some (word data qry) := rd16_word (by omega)
    simp only [hcls, htype, hq, true_and]
    by_cases hc : word data (qry + 2) = rrclassIn
    · simp only [hc, true_imp_iff]
      by_cases hp : word data qry = rrtypePtr
      · simp only [hp, true_imp_iff]
        exact ptrQuery_isSome ht addr table
      · simp [hp, nameQuery_isSome ht]
    · simp [hc]
  · have hcls : rd16 (reads data) (qry + 2) = none := rd16_none (by omega)
    simp [hcls, hq]

theorem named_iff {r : Option Nat} : Named data hops p r ↔
    mdnsParseName (reads data) data.length hops p = some r := parseName_iff.symm

theorem Named.trail {e : Nat} (h : Named data hops p (some e)) : Trail data hops p (some e) := by
  rcases h with ⟨-, h⟩ | ⟨-, h⟩
  · cases h
  · exact h

theorem recvQuestions_iff {addr : Nat → Addr} {behind : Nat → Table → Prop} {n : Nat} {w : Walk} :
    (∃ w', recvQuestions (reads data) hops data.length addr n w = some w' ∧
      behind w'.dptr w'.table) ↔ QuestionsWithin data hops addr behind n w.dptr w.table := by
  induction n generalizing w with
  | zero => simp [recvQuestions, QuestionsWithin]
  | succ n ih =>
    unfold recvQuestions QuestionsWithin
    simp only [named_iff]
    cases hp : mdnsParseName (reads data) data.length hops w.dptr with
    | none => simp
    | some r =>
      cases r with
      | none => simp
      | some qry =>
        have ht := (named_iff.mpr hp).trail
        simp only [Option.some.injEq, exists_eq_left']
        rw [← question_isSome ht (addr n)]
        cases hh : handleQuestion (reads data) hops (addr n) w.dptr qry w.table with
        | none => simp
        | some x =>
          simp only [Option.isSome_some, true_and, Option.some.injEq, forall_eq']
          exact ih

end Reverse

section Answers

variable {data} {hops p n : Nat} {q : List UInt8}

theorem compareBytes_isSome : (compareBytes (reads data) p n q).isSome ↔
    BytesWithin data p n q := by
  induction n generalizing q p with
  | zero => cases q <;> simp [compareBytes, BytesWithin]
  | succ n ih =>
    cases q with
    | nil => simp [compareBytes, BytesWithin]
    | cons c q =>
      rw [bytesWithin_cons, compareBytes]
      by_cases hp : p < data.length
      · rw [show reads data p = some (byte data p) from read_of_lt hp]
        simp only [hp, true_and, ordered_isSome, ih]
      · rw [show reads data p = none from read_of_le (Nat.le_of_not_lt hp)]
        simp [hp]

theorem compareAnswer_isSome {rrtype ans : Nat} (h : ans + 10 ≤ data.length)
    (own : List UInt8) : (mdnsCompareAnswer (reads data) rrtype own ans).isSome ↔
      RdataWithin data rrtype own ans := by
  have hcls : rd16 (reads data) (ans + 2) = some (word data (ans + 2)) := rd16_word (by omega)
  have htype : rd16 (reads data) ans = some (word data ans) := rd16_word (by omega)
  have hlen : rd16 (reads data) (ans + 8) = some (word data (ans + 8)) := rd16_word (by omega)
  simp only [mdnsCompareAnswer, hcls, htype, hlen, Option.bind_eq_bind, Option.bind_some,
    Option.pure_def, RdataWithin, ← compareBytes_isSome]
  by_cases hc : word data (ans + 2) % rrclassFlush = rrclassIn
  · by_cases ht : word data ans = rrtype
    · simp [hc, ht]
    · have hlt := Nat.lt_or_gt_of_ne ht
      simp only [hc, ht, Nat.lt_irrefl, if_false]
      rcases hlt with hlt | hlt
      · simp [hlt, Nat.not_lt_of_lt hlt]
      · simp [hlt]
  · rcases Nat.lt_or_gt_of_ne hc with hlt | hlt
    · simp [hlt, Nat.not_lt_of_lt hlt, hc]
    · simp [hlt, hc]

theorem answerConflict_isSome {ans : Nat} (h : ans + 10 ≤ data.length) (e : Entry) :
    (mdnsAnswerConflict (reads data) ans e).isSome ↔ ConflictWithin data ans e := by
  have htype : rd16 (reads data) ans = some (word data ans) := rd16_word (by omega)
  have hne (o : Option Int) : (o.bind fun c => some (c != 0)).isSome ↔ o.isSome := by
    cases o <;> simp
  unfold mdnsAnswerConflict ConflictWithin
  by_cases hs : e.entryType = .srvEntry
  · simp only [if_pos hs, htype, Option.bind_eq_bind, Option.bind_some, Option.pure_def]
    by_cases ht : word data ans = rrtypeTxt
    · have htxt : RdataWithin data rrtypeTxt [] ans := fun _ _ i _ hi _ => by simp at hi
      have hsome := (compareAnswer_isSome h []).mpr htxt
      simp only [if_pos ht, hne]
      refine iff_of_true hsome fun hsrv => ?_
      rw [ht] at hsrv
      exact absurd hsrv (by decide)
    · simp only [if_neg ht]
      by_cases hv : word data ans = rrtypeSrv
      · simp only [hv, true_imp_iff, if_true, hne]
        exact compareAnswer_isSome h _
      · simp [hv]
  · simp only [if_neg hs, Option.bind_eq_bind, Option.pure_def, hne]
    exact compareAnswer_isSome h _

theorem respondEntry_isSome {dptr ans i : Nat} (ht : Trail data hops dptr (some ans))
    (h : ans + 10 ≤ data.length) (e : Entry) :
    (respondEntry (reads data) dptr ans i e).isSome ↔ (e.state ≠ .disabled → e.state ≠ .unused →
      mdnsCompareName (reads data) e.name dptr = some 0 → ConflictWithin data ans e) := by
  obtain ⟨c, hc⟩ := ht.compared e.name
  unfold respondEntry
  rw [hc]
  by_cases hs : e.state ≠ .disabled ∧ e.state ≠ .unused
  · simp only [hs.1, hs.2, ne_eq, not_false_eq_true, true_imp_iff, Option.some.injEq]
    by_cases hz : c = 0
    · simp only [hz, true_imp_iff, ← answerConflict_isSome h e]
      have httl : ∃ ttl, rd32 (reads data) (ans + 4) = some ttl := by
        have h1 : rd16 (reads data) (ans + 4) = some (word data (ans + 4)) := rd16_word (by omega)
        have h2 : rd16 (reads data) (ans + 4 + 2) = some (word data (ans + 4 + 2)) :=
          rd16_word (by omega)
        exact ⟨_, by simp only [rd32, h1, h2, Option.bind_eq_bind, Option.bind_some]; rfl⟩
      obtain ⟨ttl, httl⟩ := httl
      rw [httl]
      cases mdnsAnswerConflict (reads data) ans e with
      | none => rfl
      | some b => cases b <;> rfl
    · simp [hz]
  · simp only [if_neg hs, Option.isSome_some, true_iff]
    intro h1 h2
    exact absurd ⟨h1, h2⟩ hs

theorem eachEntry_isSome {f : Nat → Entry → Option (Entry × List Note)} {P : Entry → Prop}
    (hf : ∀ i e, (f i e).isSome ↔ P e) (i : Nat) (es : Table) :
    (eachEntry f i es).isSome ↔ ∀ e ∈ es, P e := by
  induction es generalizing i with
  | nil => simp [eachEntry]
  | cons e es ih =>
    rw [eachEntry, List.forall_mem_cons, ← hf i e, ← ih (i + 1)]
    cases f i e with
    | none => simp
    | some x => cases eachEntry f (i + 1) es <;> simp

theorem response_isSome {dptr ans : Nat} (ht : Trail data hops dptr (some ans))
    (h : ans + 10 ≤ data.length) (table : Table) :
    (handleMdnsResponse (reads data) dptr ans table).isSome ↔ AnswerWithin data dptr ans table := by
  unfold handleMdnsResponse AnswerWithin
  rw [eachEntry_isSome (fun i e => respondEntry_isSome ht h e), and_iff_right h]

theorem recvAnswers_iff {behind : Nat → Table → Prop} {w : Walk} :
    (∃ w', recvAnswers (reads data) hops data.length n w = some w' ∧
      behind w'.dptr w'.table) ↔ AnswersWithin data hops behind n w.dptr w.table := by
  induction n generalizing w with
  | zero => simp [recvAnswers, AnswersWithin]
  | succ n ih =>
    unfold recvAnswers AnswersWithin
    simp only [named_iff]
    cases hp : mdnsParseName (reads data) data.length hops w.dptr with
    | none => simp
    | some r =>
      cases r with
      | none => simp
      | some ans =>
        have ht := (named_iff.mpr hp).trail
        simp only [Option.some.injEq, exists_eq_left']
        by_cases h : ans + 10 ≤ data.length
        · have hlen : rd16 (reads data) (ans + 8) = some (word data (ans + 8)) :=
            rd16_word (by omega)
          rw [← response_isSome ht h, hlen]
          cases hh : handleMdnsResponse (reads data) w.dptr ans w.table with
          | none => simp
          | some x =>
            simp only [Option.isSome_some, true_and, Option.some.injEq, forall_eq']
            exact ih
        · have hlen : rd16 (reads data) (ans + 8) = none := rd16_none (by omega)
          rw [hlen]
          refine iff_of_false ?_ fun hw => h hw.1.1
          cases handleMdnsResponse (reads data) w.dptr ans w.table <;> simp

end Answers

section Authority

variable {data} {hops n : Nat}

theorem bytesLower_succ {p q m : Nat} : BytesLower data p q (m + 1) (n + 1) ↔
    (p < data.length ∧ q < data.length) ∧
      (¬ byte data p < byte data q → BytesLower data (p + 1) (q + 1) m n) := by
  constructor
  · intro h
    refine ⟨h 0 (Nat.succ_pos m) (Nat.succ_pos n) fun j hj => by omega, fun hge i hi hn hall => ?_⟩
    have := h (i + 1) (Nat.succ_lt_succ hi) (Nat.succ_lt_succ hn) fun j hj => by
      cases j with
      | zero => exact hge
      | succ j =>
        rw [Nat.add_comm j, ← Nat.add_assoc, ← Nat.add_assoc]
        exact hall j (Nat.lt_of_succ_lt_succ hj)
    omega
  · rintro ⟨hp, h⟩ i hi hn hall
    cases i with
    | zero => exact hp
    | succ i =>
      have := h (hall 0 (Nat.succ_pos i)) i (Nat.lt_of_succ_lt_succ hi)
        (Nat.lt_of_succ_lt_succ hn) fun j hj => by
          have := hall (j + 1) (Nat.succ_lt_succ hj)
          rwa [Nat.add_comm j, ← Nat.add_assoc, ← Nat.add_assoc] at this
      omega

theorem dataIsLower_isSome {p q m : Nat} :
    (dataIsLower (reads data) p q m n).isSome ↔ BytesLower data p q m n := by
  induction m generalizing p q n with
  | zero => simp [dataIsLower, BytesLower]
  | succ m ih =>
    cases n with
    | zero => simp [dataIsLower, BytesLower]
    | succ n =>
      rw [dataIsLower, bytesLower_succ]
      by_cases hp : p < data.length
      · have hrp : reads data p = some (byte data p) := read_of_lt hp
        by_cases hq : q < data.length
        · have hrq : reads data q = some (byte data q) := read_of_lt hq
          simp only [hrp, hrq, hp, hq, true_and]
          split
          · next h => simp [h]
          · next h => simp [h, ih]
        · have hrq : reads data q = none := read_of_le (Nat.le_of_not_lt hq)
          simp [hrp, hrq, hq]
      · have hrp : reads data p = none := read_of_le (Nat.le_of_not_lt hp)
        simp [hrp, hp]

theorem answerIsLower_isSome {ans l : Nat} (h : ans + 10 ≤ data.length)
    (hl : l + 10 ≤ data.length) :
    (answerIsLower (reads data) ans l).isSome ↔ LowerWithin data ans l := by
  have hword {p : Nat} (hp : p + 2 ≤ data.length) : rd16 (reads data) p = some (word data p) :=
    rd16_word hp
  have h1 := @hword (ans + 8) (by omega)
  have h2 := @hword (l + 8) (by omega)
  have h3 := @hword (ans + 2) (by omega)
  have h4 := @hword (l + 2) (by omega)
  have h5 := @hword ans (by omega)
  have h6 := @hword l (by omega)
  have hbytes := @dataIsLower_isSome data (word data (l + 8)) (ans + 10) (l + 10)
    (word data (ans + 8))
  simp only [answerIsLower, h1, h2, h3, h4, h5, h6, Option.bind_eq_bind, Option.bind_some,
    Option.pure_def]
  unfold LowerWithin
  by_cases hc : word data (ans + 2) < word data (l + 2)
  · simp [hc]
  · by_cases ht : word data ans < word data l
    · simp [hc, ht]
    · simp only [hc, ht, if_false, not_false_eq_true, true_imp_iff]
      exact hbytes

theorem lower_cases {ans : Nat} {found : Option Nat} (h : ans + 10 ≤ data.length)
    (hf : ∀ l ∈ found, l + 10 ≤ data.length) :
    (∀ l ∈ found, LowerWithin data ans l) ∧ lower (reads data) ans found =
        some (lowest data ans found) ∨
      ¬ (∀ l ∈ found, LowerWithin data ans l) ∧ lower (reads data) ans found = none := by
  cases found with
  | none =>
    refine Or.inl ⟨?_, rfl⟩
    rintro l ⟨⟩
  | some l =>
    have hiff := answerIsLower_isSome h (hf l rfl)
    unfold lower lowest
    cases hlow : answerIsLower (reads data) ans l with
    | none =>
      rw [hlow] at hiff
      refine Or.inr ⟨fun hall => ?_, by simp only [hlow]⟩
      have := hiff.mpr (hall l rfl)
      cases this
    | some b =>
      rw [hlow] at hiff
      refine Or.inl ⟨fun x hx => ?_, ?_⟩
      · obtain rfl := Option.some.inj hx
        exact hiff.mp rfl
      · simp only [hlow, Option.some.injEq]

theorem lowest_inside {ans : Nat} {found : Option Nat} (h : ans + 10 ≤ data.length)
    (hf : ∀ l ∈ found, l + 10 ≤ data.length) : lowest data ans found + 10 ≤ data.length := by
  cases found with
  | none => exact h
  | some l =>
    unfold lowest
    simp only
    split
    · exact h
    · exact hf l rfl

theorem findLowest_iff {e : Entry} {ignore : Option Nat} {dptr : Nat} {found : Option Nat}
    {behind rest : Option Nat → Prop} (hf : ∀ l ∈ found, l + 10 ≤ data.length)
    (hrest : ∀ found, (∀ l ∈ found, l + 10 ≤ data.length) → (rest found ↔ behind found)) :
    (∃ l, findLowestMatchingAnswer (reads data) hops data.length e ignore n dptr found = some l ∧
      rest l) ↔ FindWithin data hops e ignore behind n dptr found := by
  induction n generalizing dptr found with
  | zero => simp [findLowestMatchingAnswer, FindWithin, hrest found hf]
  | succ n ih =>
    unfold findLowestMatchingAnswer FindWithin
    simp only [named_iff]
    cases hp : mdnsParseName (reads data) data.length hops dptr with
    | none => simp
    | some r =>
      cases r with
      | none => simp
      | some ans =>
        obtain ⟨c, hc⟩ := (named_iff.mpr hp).trail.compared e.name
        simp only [Option.some.injEq, exists_eq_left', hc]
        by_cases h : ans + 10 ≤ data.length
        · have hlen : rd16 (reads data) (ans + 8) = some (word data (ans + 8)) :=
            rd16_word (by omega)
          simp only [hlen, h, true_and]
          by_cases hm : c = 0 ∧ some ans ≠ ignore
          · simp only [if_pos hm]
            rcases lower_cases h hf with ⟨hall, hl⟩ | ⟨hall, hl⟩
            · rw [and_iff_right hall, hl]
              refine ih fun l hl => ?_
              obtain rfl := Option.some.inj hl
              exact lowest_inside h hf
            · rw [hl]
              exact iff_of_false (by simp) fun hw => hall hw.1
          · simp only [if_neg hm]
            exact ih hf
        · have hlen : rd16 (reads data) (ans + 8) = none := rd16_none (by omega)
          simp [hlen, h]

theorem compareTxt_isSome {ans : Nat} (h : ans + 10 ≤ data.length) (e : Entry) :
    (mdnsCompareTxtAnswer (reads data) ans e).isSome :=
  (compareAnswer_isSome h []).mpr fun _ _ i _ hi _ => by simp at hi

theorem losesTieBreak_isSome (e : Entry) (dptr : Nat) :
    (losesTieBreak (reads data) hops data.length e dptr n).isSome ↔
      TieWithin data hops n dptr e := by
  let find := findLowestMatchingAnswer (reads data) hops data.length e
  have hinside : ∀ l ∈ (none : Option Nat), l + 10 ≤ data.length := fun l hl => by cases hl
  by_cases hs : e.entryType = .srvEntry
  · have hcode : (losesTieBreak (reads data) hops data.length e dptr n).isSome ↔
        ∃ found, find none n dptr none = some found ∧ ∀ ans ∈ found,
          (mdnsCompareTxtAnswer (reads data) ans e).isSome ∧
            (mdnsCompareTxtAnswer (reads data) ans e = some 0 →
              ∃ found, find (some ans) n dptr none = some found ∧
                ∃ ans ∈ found, (mdnsCompareSrvAnswer (reads data) ans e).isSome) := by
      unfold losesTieBreak
      simp only [if_pos hs, find]
      cases findLowestMatchingAnswer (reads data) hops data.length e none n dptr none with
      | none => simp
      | some found =>
        cases found with
        | none => simp
        | some ans =>
          simp only [Option.some.injEq, exists_eq_left', Option.mem_some_iff, forall_eq']
          cases mdnsCompareTxtAnswer (reads data) ans e with
          | none => simp
          | some res =>
            rcases Int.lt_trichotomy res 0 with hneg | rfl | hpos
            · simp [hneg, Int.ne_of_lt hneg]
            · cases findLowestMatchingAnswer (reads data) hops data.length e (some ans) n dptr
                none with
              | none => simp
              | some found => cases found <;> simp
            · have hneg : ¬ res < 0 := by omega
              have hne : res ≠ 0 := by omega
              simp [hpos, hneg, hne]
    rw [hcode]
    refine findLowest_iff hinside fun found hf => forall₂_congr fun ans hans => ?_
    rw [if_pos hs, and_iff_right (compareTxt_isSome (hf ans hans) e)]
    refine imp_congr_right fun _ => findLowest_iff hinside fun found hf => ?_
    refine exists_congr fun a => and_congr_right fun ha => ?_
    exact compareAnswer_isSome (hf a ha) _
  · have hcode : (losesTieBreak (reads data) hops data.length e dptr n).isSome ↔
        ∃ found, find none n dptr none = some found ∧ ∀ ans ∈ found,
          (mdnsCompareHostAnswer (reads data) ans e).isSome := by
      unfold losesTieBreak
      simp only [if_neg hs, find]
      cases findLowestMatchingAnswer (reads data) hops data.length e none n dptr none with
      | none => simp
      | some found => cases found <;> simp
    rw [hcode]
    refine findLowest_iff hinside fun found hf => forall₂_congr fun ans hans => ?_
    rw [if_neg hs]
    exact compareAnswer_isSome (hf ans hans) _

theorem authEntry_isSome (dptr i : Nat) (e : Entry) :
    (authEntry (reads data) hops data.length dptr n i e).isSome ↔
      (probing e → TieWithin data hops n dptr e) := by
  rw [← losesTieBreak_isSome]
  unfold authEntry
  by_cases hp : probing e
  · simp only [hp, true_imp_iff]
    cases losesTieBreak (reads data) hops data.length e dptr n with
    | none => rfl
    | some b => cases b <;> rfl
  · simp [hp]

end Authority

theorem mdnsRecv_isSome {data : List UInt8} {hops : Nat} {addr : Nat → Addr} {table : Table} :
    (mdnsRecv (reads data) hops data.length addr table).isSome ↔
      ReceptionWithin data hops addr table := by
  unfold ReceptionWithin
  by_cases h : 10 ≤ data.length
  · have hq : rd16 (reads data) 4 = some (word data 4) := rd16_word (by omega)
    have ha : rd16 (reads data) 6 = some (word data 6) := rd16_word (by omega)
    have hn : rd16 (reads data) 8 = some (word data 8) := rd16_word (by omega)
    have hauth (w : Walk) : (handleMdnsAuth (reads data) hops data.length w.dptr (word data 8)
        w.table).isSome ↔ AuthorityWithin data hops (word data 8) w.dptr w.table :=
      eachEntry_isSome (fun i e => authEntry_isSome w.dptr i e) 0 w.table
    rw [and_iff_right h, ← recvQuestions_iff (w := ⟨hdrSize, table, []⟩)]
    simp only [← recvAnswers_iff, ← hauth, mdnsRecv, recvRecords, hq, ha, hn,
      Option.bind_eq_bind, Option.bind_some, Option.pure_def]
    cases recvQuestions (reads data) hops data.length addr (word data 4)
      ⟨hdrSize, table, []⟩ with
    | none => simp
    | some w =>
      simp only [Option.bind_some, Option.some.injEq, exists_eq_left']
      cases recvAnswers (reads data) hops data.length (word data 6) w with
      | none => simp
      | some w =>
        simp only [Option.bind_some, Option.some.injEq, exists_eq_left']
        cases handleMdnsAuth (reads data) hops data.length w.dptr (word data 8) w.table <;> simp
  · have hn : rd16 (reads data) 8 = none := rd16_none (by omega)
    refine iff_of_false ?_ fun hw => h hw.1
    simp only [mdnsRecv, recvRecords, hn, Option.bind_eq_bind, Option.bind_none,
      Option.bind_fun_none, Option.isSome_none]
    decide

theorem reception_within (data : List UInt8) (addr : Nat → Addr) (table : Table) :
    (∃ fuel, (mdnsRecv (fun p => data[p]?) fuel data.length addr table).isSome) ↔
      ∃ hops, ReceptionWithin data hops addr table :=
  exists_congr fun _ => mdnsRecv_isSome

theorem question_beyond_datagram : ∃ (data : List UInt8) (addr : Nat → Addr) (table : Table),
    data.length ≤ xtcpClientBufSize ∧
      ¬ ∃ fuel, (mdnsRecv (fun p => data[p]?) fuel data.length addr table).isSome := by
  refine ⟨[0, 0, 0, 0, 0, 1, 0, 0, 0, 0, 0, 0], fun _ => .zero, mdnsInit, by decide, ?_⟩
  rintro ⟨fuel, h⟩
  obtain ⟨-, hq⟩ := mdnsRecv_isSome.mp h
  obtain ⟨r, hr | ⟨-, hr⟩, -⟩ := hq
  · exact absurd hr.1 (by decide)
  · have hin : ¬ Inside [0, 0, 0, 0, 0, 1, 0, 0, 0, 0, 0, 0] hdrSize := fun h => by
      exact absurd h.1 (by decide)
    cases hr with
    | beyond h _ => exact hin h
    | ends h _ _ => exact hin h
    | more h _ _ _ => exact hin h

end Xtcp.Mdns
