import Xtcp.Mdns.Receive
import Xtcp.Mdns.Wire
import Mathlib.Data.List.Lex

namespace Xtcp.Mdns
open View

structure Record where
  owner : List UInt8
  type : Nat
  cls : Nat
  rdata : List UInt8
  deriving DecidableEq

def Record.body (r : Record) : List UInt8 :=
  answerHeader r.type r.cls 255 r.rdata.length ++ r.rdata

def Record.bytes (r : Record) : List UInt8 := mdnsEncodeName r.owner ++ r.body

structure Record.Sound (r : Record) : Prop where
  proper : Proper r.owner
  short : r.owner.length < 192
  type : r.type < 65536
  cls : r.cls < 65536
  rdata : r.rdata.length < 65536

section Read

variable {rd : Nat → Option UInt8}

theorem rd16_be16 {p x : Nat} (hx : x < 65536) (h : Shows rd p (be16 x)) : rd16 rd p = some x := by
  obtain ⟨hhigh, hlow, -⟩ := h
  have h1 : (UInt8.ofNat (x / 256)).toNat = x / 256 :=
    UInt8.toNat_ofNat_of_lt' (Nat.div_lt_of_lt_mul hx)
  have h2 : (UInt8.ofNat x).toNat = x % 256 := UInt8.toNat_ofNat'
  simp only [rd16, hhigh, hlow, Option.bind_eq_bind, Option.bind_some, h1, h2, Option.pure_def]
  congr 1
  omega

-- What the fields of a record read as.
structure Answer (rd : Nat → Option UInt8) (ans : Nat) (r : Record) : Prop where
  type : rd16 rd ans = some r.type
  cls : rd16 rd (ans + 2) = some r.cls
  len : rd16 rd (ans + 8) = some r.rdata.length
  rdata : Shows rd (ans + 10) r.rdata

theorem answer_of_shows {ans : Nat} {r : Record} (hr : r.Sound) (h : Shows rd ans r.body) :
    Answer rd ans r := by
  unfold Record.body answerHeader at h
  simp only [shows_append, List.length_append] at h
  obtain ⟨⟨⟨⟨htype, hcls⟩, -⟩, hlen⟩, hdata⟩ := h
  exact ⟨rd16_be16 hr.type htype, rd16_be16 hr.cls hcls, rd16_be16 hr.rdata hlen, hdata⟩

end Read

section Order

def DataBelow : List UInt8 → List UInt8 → Prop
  | [], ys => ys ≠ []
  | _ :: _, [] => False
  | x :: xs, y :: ys => x < y ∨ DataBelow xs ys

instance : DecidableRel DataBelow := by
  intro xs ys
  induction xs generalizing ys with
  | nil => unfold DataBelow; infer_instance
  | cons x xs ih =>
    cases ys with
    | nil => exact isFalse id
    | cons y ys =>
      have := ih ys
      unfold DataBelow
      infer_instance

-- answer_is_lower
def Record.Below (x y : Record) : Prop :=
  x.cls < y.cls ∨ x.type < y.type ∨ DataBelow x.rdata y.rdata

instance : DecidableRel Record.Below := fun x y => by
  unfold Record.Below
  infer_instance

-- The lexicographic order of class, type and data.
def Record.Lex (x y : Record) : Prop :=
  x.cls < y.cls ∨ x.cls = y.cls ∧ (x.type < y.type ∨ x.type = y.type ∧ x.rdata < y.rdata)

def Record.Same (x y : Record) : Prop := x.cls = y.cls ∧ x.type = y.type ∧ x.rdata = y.rdata

def DataWithin : List UInt8 → List UInt8 → Prop
  | [], _ => True
  | _ :: _, [] => False
  | x :: xs, y :: ys => x ≤ y ∧ DataWithin xs ys

-- In no field, and at no place of the data, beyond the other.
structure Record.Within (x y : Record) : Prop where
  cls : x.cls ≤ y.cls
  type : x.type ≤ y.type
  rdata : DataWithin x.rdata y.rdata

def Record.Comparable (x y : Record) : Prop := x.Within y ∨ y.Within x

theorem dataBelow_irrefl (xs : List UInt8) : ¬ DataBelow xs xs := by
  induction xs with
  | nil => simp [DataBelow]
  | cons x xs ih =>
    rintro (h | h)
    · exact UInt8.lt_irrefl x h
    · exact ih h

theorem dataBelow_of_lt {xs ys : List UInt8} (h : xs < ys) : DataBelow xs ys := by
  induction xs generalizing ys with
  | nil =>
    rintro rfl
    exact List.not_lt_nil [] h
  | cons x xs ih =>
    cases ys with
    | nil => exact absurd h (List.not_lt_nil _)
    | cons y ys =>
      rcases List.cons_lt_cons_iff.mp h with h | ⟨-, h⟩
      · exact Or.inl h
      · exact Or.inr (ih h)

theorem Record.Lex.below {x y : Record} (h : x.Lex y) : x.Below y := by
  rcases h with h | ⟨-, h | ⟨-, h⟩⟩
  · exact Or.inl h
  · exact Or.inr (Or.inl h)
  · exact Or.inr (Or.inr (dataBelow_of_lt h))

theorem Record.Same.not_below {x y : Record} (h : x.Same y) : ¬ x.Below y := by
  obtain ⟨hc, ht, hd⟩ := h
  unfold Record.Below
  rw [hc, ht, hd]
  simp [dataBelow_irrefl]

theorem Record.lex_trichotomy (x y : Record) : x.Lex y ∨ x.Same y ∨ y.Lex x := by
  rcases Nat.lt_trichotomy x.cls y.cls with h | hc | h
  · exact Or.inl (Or.inl h)
  · rcases Nat.lt_trichotomy x.type y.type with h | ht | h
    · exact Or.inl (Or.inr ⟨hc, Or.inl h⟩)
    · by_cases h : x.rdata < y.rdata
      · exact Or.inl (Or.inr ⟨hc, Or.inr ⟨ht, h⟩⟩)
      · by_cases h' : y.rdata < x.rdata
        · exact Or.inr (Or.inr (Or.inr ⟨hc.symm, Or.inr ⟨ht.symm, h'⟩⟩))
        · exact Or.inr (Or.inl ⟨hc, ht, Std.Trichotomous.trichotomous _ _ h h'⟩)
    · exact Or.inr (Or.inr (Or.inr ⟨hc.symm, Or.inl h⟩))
  · exact Or.inr (Or.inr (Or.inl h))

theorem Record.Lex.asymm {x y : Record} (h : x.Lex y) : ¬ y.Lex x := by
  rintro h'
  rcases h with h | ⟨hc, h | ⟨ht, h⟩⟩
  · rcases h' with h' | ⟨hc', -⟩ <;> omega
  · rcases h' with h' | ⟨-, h' | ⟨ht', -⟩⟩ <;> omega
  · rcases h' with h' | ⟨-, h' | ⟨-, h'⟩⟩
    · omega
    · omega
    · exact List.lt_asymm h h'

theorem not_dataBelow_iff {xs ys : List UInt8} : ¬ DataBelow xs ys ↔ DataWithin ys xs := by
  induction xs generalizing ys with
  | nil => cases ys <;> simp [DataBelow, DataWithin]
  | cons x xs ih =>
    cases ys with
    | nil => simp [DataBelow, DataWithin]
    | cons y ys =>
      unfold DataBelow DataWithin
      rw [not_or, ih, UInt8.not_lt]

theorem DataWithin.antisymm {xs ys : List UInt8} (h : DataWithin xs ys) (h' : DataWithin ys xs) :
    xs = ys := by
  induction xs generalizing ys with
  | nil =>
    cases ys with
    | nil => rfl
    | cons y ys => cases h'
  | cons x xs ih =>
    cases ys with
    | nil => cases h
    | cons y ys => rw [UInt8.le_antisymm h.1 h'.1, ih h.2 h'.2]

theorem DataWithin.trans {xs ys zs : List UInt8} (h : DataWithin xs ys) (h' : DataWithin ys zs) :
    DataWithin xs zs := by
  induction xs generalizing ys zs with
  | nil => trivial
  | cons x xs ih =>
    cases ys with
    | nil => cases h
    | cons y ys =>
      cases zs with
      | nil => cases h'
      | cons z zs => exact ⟨UInt8.le_trans h.1 h'.1, ih h.2 h'.2⟩

theorem Record.not_below_iff {x y : Record} : ¬ x.Below y ↔ y.Within x := by
  unfold Record.Below
  rw [not_or, not_or, Nat.not_lt, Nat.not_lt, not_dataBelow_iff]
  exact ⟨fun ⟨hc, ht, hd⟩ => ⟨hc, ht, hd⟩, fun ⟨hc, ht, hd⟩ => ⟨hc, ht, hd⟩⟩

theorem Record.Within.refl (x : Record) : x.Within x :=
  not_below_iff.mp (Record.Same.not_below ⟨rfl, rfl, rfl⟩)

theorem Record.Within.trans {x y z : Record} (h : x.Within y) (h' : y.Within z) : x.Within z :=
  ⟨Nat.le_trans h.cls h'.cls, Nat.le_trans h.type h'.type, h.rdata.trans h'.rdata⟩

theorem Record.Within.same {x y : Record} (h : x.Within y) (h' : y.Within x) : x.Same y :=
  ⟨Nat.le_antisymm h.cls h'.cls, Nat.le_antisymm h.type h'.type, h.rdata.antisymm h'.rdata⟩

theorem Record.Within.eq {x y : Record} (ho : x.owner = y.owner) (h : x.Within y)
    (h' : y.Within x) : x = y := by
  obtain ⟨hc, ht, hd⟩ := h.same h'
  cases x
  cases y
  obtain rfl : _ = _ := ho
  obtain rfl : _ = _ := hc
  obtain rfl : _ = _ := ht
  obtain rfl : _ = _ := hd
  rfl

-- On two records the order of the code is the lexicographic one exactly if they are comparable.
theorem lex_iff_comparable (x y : Record) :
    ((x.Below y ↔ x.Lex y) ∧ (y.Below x ↔ y.Lex x)) ↔ x.Comparable y := by
  constructor
  · rintro ⟨hxy, hyx⟩
    by_cases h : x.Below y
    · exact Or.inl (Record.not_below_iff.mp fun h' => (hxy.mp h).asymm (hyx.mp h'))
    · exact Or.inr (Record.not_below_iff.mp h)
  · intro hc
    have hone {x y : Record} (hc : x.Comparable y) : x.Below y ↔ x.Lex y := by
      refine ⟨fun h => ?_, fun h => h.below⟩
      have hw : x.Within y := hc.resolve_right fun h' => Record.not_below_iff.mpr h' h
      rcases x.lex_trichotomy y with hl | hs | hl
      · exact hl
      · exact absurd h hs.not_below
      · exact absurd hl.below (Record.not_below_iff.mpr hw)
    exact ⟨hone hc, hone hc.symm⟩

-- The record that is kept of one that was kept before and the next one.
def pick (lowest : Option Record) (x : Record) : Option Record :=
  match lowest with
  | none => some x
  | some y => if x.Below y then some x else some y

theorem pick_least {z x : Record} (h : x.Comparable z) :
    ∃ m, pick (some z) x = some m ∧ (m = z ∨ m = x) ∧ m.Within z ∧ m.Within x := by
  unfold pick
  simp only
  split
  · next hb =>
    have hw : x.Within z := h.resolve_right fun h' => Record.not_below_iff.mpr h' hb
    exact ⟨x, rfl, Or.inr rfl, hw, Record.Within.refl x⟩
  · next hb => exact ⟨z, rfl, Or.inl rfl, Record.Within.refl z, Record.not_below_iff.mp hb⟩

theorem foldl_pick_least {rs : List Record} {z : Record}
    (h : ∀ x ∈ z :: rs, ∀ y ∈ z :: rs, x.Comparable y) :
    ∃ m, rs.foldl pick (some z) = some m ∧ m ∈ z :: rs ∧ ∀ y ∈ z :: rs, m.Within y := by
  induction rs generalizing z with
  | nil => exact ⟨z, rfl, List.mem_singleton_self z, by simp [Record.Within.refl]⟩
  | cons x rs ih =>
    obtain ⟨l, hl, hmem, hz, hx⟩ := pick_least (h x (by simp) z (by simp))
    have hsub : ∀ y ∈ l :: rs, y ∈ z :: x :: rs := by
      intro y hy
      rcases List.mem_cons.mp hy with rfl | hy
      · rcases hmem with rfl | rfl
        · simp
        · simp
      · simp [hy]
    obtain ⟨m, hm, hmem, hleast⟩ := ih (fun a ha b hb => h a (hsub a ha) b (hsub b hb))
    have hml : m.Within l := hleast l (List.mem_cons_self ..)
    refine ⟨m, by rw [List.foldl_cons, hl, hm], hsub m hmem, ?_⟩
    intro y hy
    rcases List.mem_cons.mp hy with rfl | hy
    · exact hml.trans hz
    · rcases List.mem_cons.mp hy with rfl | hy
      · exact hml.trans hx
      · exact hleast y (List.mem_cons_of_mem _ hy)

theorem foldl_pick_perm {rs rs' : List Record} (hp : rs.Perm rs')
    (ho : ∀ x ∈ rs, ∀ y ∈ rs, x.owner = y.owner) (hc : ∀ x ∈ rs, ∀ y ∈ rs, x.Comparable y) :
    rs.foldl pick none = rs'.foldl pick none := by
  cases rs with
  | nil => rw [hp.nil_eq]
  | cons z zs =>
    cases rs' with
    | nil => exact absurd hp.eq_nil (by simp)
    | cons z' zs' =>
      have hmem (x : Record) : x ∈ z' :: zs' → x ∈ z :: zs := hp.mem_iff.mpr
      obtain ⟨m, hm, hin, hleast⟩ := foldl_pick_least hc
      obtain ⟨m', hm', hin', hleast'⟩ :=
        foldl_pick_least fun x hx y hy => hc x (hmem x hx) y (hmem y hy)
      have heq : m = m' := Record.Within.eq (ho m hin m' (hmem m' hin')) (hleast m' (hmem m' hin'))
        (hleast' m (hp.mem_iff.mp hin))
      change zs.foldl pick (some z) = zs'.foldl pick (some z')
      rw [hm, hm', heq]

theorem pick_comm_iff {x y : Record} (h : x.owner = y.owner) :
    [x, y].foldl pick none = [y, x].foldl pick none ↔ x.Comparable y := by
  constructor
  · intro hp
    by_contra hc
    obtain ⟨hxy, hyx⟩ := not_or.mp hc
    have hyx : x.Below y := not_not.mp fun hb => hyx (Record.not_below_iff.mp hb)
    have hxy : y.Below x := not_not.mp fun hb => hxy (Record.not_below_iff.mp hb)
    simp only [List.foldl_cons, List.foldl_nil, pick, if_pos hxy, if_pos hyx] at hp
    obtain rfl := Option.some.inj hp
    exact Record.Same.not_below ⟨rfl, rfl, rfl⟩ hxy
  · intro hc
    refine foldl_pick_perm (List.Perm.swap y x []) ?_ ?_
    · simp [h]
    · have hx : x.Comparable x := Or.inl (Record.Within.refl x)
      have hy : y.Comparable y := Or.inl (Record.Within.refl y)
      have hc' : y.Comparable x := hc.symm
      simp only [List.mem_cons, List.not_mem_nil, or_false]
      rintro a (rfl | rfl) b (rfl | rfl)
      · exact hx
      · exact hc
      · exact hc'
      · exact hy

end Order

section Compare

variable {rd : Nat → Option UInt8}

def compareData : List UInt8 → List UInt8 → Int
  | [], [] => 0
  | [], _ :: _ => -1
  | _ :: _, [] => 1
  | b :: xs, c :: own => if c < b then 1 else if b < c then -1 else compareData xs own

theorem compareData_eq_zero {xs ys : List UInt8} : compareData xs ys = 0 ↔ xs = ys := by
  induction xs generalizing ys with
  | nil => cases ys <;> simp [compareData]
  | cons x xs ih =>
    cases ys with
    | nil => simp [compareData]
    | cons y ys =>
      rw [compareData, List.cons.injEq, ← ih]
      split
      · next h => simp [UInt8.ne_of_lt h |>.symm]
      · next h =>
        split
        · next h' => simp [UInt8.ne_of_lt h']
        · next h' => simp [UInt8.le_antisymm (UInt8.not_lt.mp h) (UInt8.not_lt.mp h')]

theorem compareData_neg (xs ys : List UInt8) : compareData ys xs = -compareData xs ys := by
  induction xs generalizing ys with
  | nil => cases ys <;> simp [compareData]
  | cons x xs ih =>
    cases ys with
    | nil => simp [compareData]
    | cons y ys =>
      rw [compareData, compareData, ih]
      by_cases h : x < y
      · simp [h, UInt8.lt_asymm h]
      · by_cases h' : y < x
        · simp [h, h']
        · simp [h, h']

theorem compareBytes_eq {p : Nat} {xs : List UInt8} (h : Shows rd p xs) (own : List UInt8) :
    compareBytes rd p xs.length own = some (compareData xs own) := by
  induction xs generalizing p own with
  | nil => cases own <;> rfl
  | cons b xs ih =>
    cases own with
    | nil => rfl
    | cons c own =>
      rw [List.length_cons, compareBytes, h.1, compareData]
      simp only [ih h.2]
      split
      · rfl
      · split <;> rfl

-- mdns_compare_answer on the fields of the record
def compareRecord (rrtype : Nat) (own : List UInt8) (r : Record) : Int :=
  if rrclassIn < r.cls % rrclassFlush then 1
  else if r.cls % rrclassFlush < rrclassIn then -1
  else if rrtype < r.type then 1
  else if r.type < rrtype then -1
  else compareData r.rdata own

theorem compareAnswer_eq {ans rrtype : Nat} {own : List UInt8} {r : Record}
    (h : Answer rd ans r) :
    mdnsCompareAnswer rd rrtype own ans = some (compareRecord rrtype own r) := by
  simp only [mdnsCompareAnswer, h.cls, h.type, h.len, Option.bind_eq_bind, Option.bind_some,
    Option.pure_def, compareBytes_eq h.rdata, compareRecord]
  split
  · rfl
  · split
    · rfl
    · split
      · rfl
      · split <;> rfl

theorem dataIsLower_eq {p q : Nat} {xs ys : List UInt8} (hx : Shows rd p xs) (hy : Shows rd q ys) :
    dataIsLower rd p q xs.length ys.length = some (decide (DataBelow xs ys)) := by
  induction xs generalizing p q ys with
  | nil => cases ys <;> simp [dataIsLower, DataBelow]
  | cons x xs ih =>
    cases ys with
    | nil =>
      have hn : ¬ DataBelow (x :: xs) [] := id
      rw [decide_eq_false hn]
      rfl
    | cons y ys =>
      rw [List.length_cons, List.length_cons, dataIsLower, hx.1, hy.1]
      simp only [ih hx.2 hy.2, DataBelow]
      split
      · next h => simp [h]
      · next h => simp [h]

theorem answerIsLower_eq {ans1 ans2 : Nat} {x y : Record} (hx : Answer rd ans1 x)
    (hy : Answer rd ans2 y) : answerIsLower rd ans1 ans2 = some (decide (x.Below y)) := by
  simp only [answerIsLower, hx.len, hy.len, hx.cls, hy.cls, hx.type, hy.type,
    Option.bind_eq_bind, Option.bind_some, Option.pure_def, Record.Below,
    dataIsLower_eq hx.rdata hy.rdata]
  by_cases hc : x.cls < y.cls
  · simp [hc]
  · by_cases ht : x.type < y.type
    · simp [hc, ht]
    · simp [hc, ht]

end Compare

section Lowest

variable {rd : Nat → Option UInt8} {fuel limit : Nat}

-- mdns_compare_name on the encoded name alone
def sameName (query name : List UInt8) : Bool :=
  mdnsCompareName (fun p => (mdnsEncodeName name)[p]?) query 0 == some 0

theorem sameName_eq {name : List UInt8} (h : name.length < 192) (query : List UInt8) :
    sameName query name = (matchLabels query (labels name) == 0) := by
  rw [sameName, compareName_wire h (shows_getElem? _)]
  rfl

theorem sameName_self {name : List UInt8} (hp : Proper name) (h : name.length < 192) :
    sameName name name = true := by
  rw [sameName, compareName_self hp h (shows_getElem? _)]
  rfl

-- The addresses of the records behind their names.
def answersAt : Nat → List Record → List (Nat × Record)
  | _, [] => []
  | p, r :: rs => (p + (mdnsEncodeName r.owner).length, r) :: answersAt (p + r.bytes.length) rs

def pickAt (lowest : Option (Nat × Record)) (x : Nat × Record) : Option (Nat × Record) :=
  match lowest with
  | none => some x
  | some y => if x.2.Below y.2 then some x else some y

def matching (e : Entry) (ignore : Option Nat) (x : Nat × Record) : Bool :=
  sameName e.name x.2.owner && some x.1 != ignore

theorem lower_eq {x : Nat × Record} {lowest : Option (Nat × Record)} (hx : Answer rd x.1 x.2)
    (hl : ∀ y ∈ lowest, Answer rd y.1 y.2) :
    lower rd x.1 (lowest.map (·.1)) = (pickAt lowest x).map (·.1) := by
  cases lowest with
  | none => rfl
  | some y =>
    rw [Option.map_some, lower, answerIsLower_eq hx (hl y rfl), pickAt]
    by_cases h : x.2.Below y.2 <;> simp [h]

theorem pickAt_answer {x : Nat × Record} {lowest : Option (Nat × Record)}
    (hx : Answer rd x.1 x.2) (hl : ∀ y ∈ lowest, Answer rd y.1 y.2) :
    ∀ y ∈ pickAt lowest x, Answer rd y.1 y.2 := by
  intro y hy
  unfold pickAt at hy
  split at hy
  · obtain rfl := Option.some.inj hy
    exact hx
  · next z =>
    split at hy
    · obtain rfl := Option.some.inj hy
      exact hx
    · obtain rfl := Option.some.inj hy
      exact hl z rfl

theorem findLowest_eq {e : Entry} {ignore : Option Nat} {rs : List Record} {p : Nat}
    {lowest : Option (Nat × Record)} (hs : ∀ r ∈ rs, r.Sound)
    (h : Shows rd p (rs.flatMap Record.bytes))
    (hlim : p + (rs.flatMap Record.bytes).length ≤ limit) (hf : 192 ≤ fuel)
    (hl : ∀ y ∈ lowest, Answer rd y.1 y.2) :
    findLowestMatchingAnswer rd fuel limit e ignore rs.length p (lowest.map (·.1)) =
      some ((((answersAt p rs).filter (matching e ignore)).foldl pickAt lowest).map (·.1)) := by
  induction rs generalizing p lowest with
  | nil => rfl
  | cons r rs ih =>
    have hr : r.Sound := hs r (List.mem_cons_self ..)
    rw [List.flatMap_cons, List.length_append] at hlim
    rw [List.flatMap_cons, shows_append] at h
    obtain ⟨hbytes, hrest⟩ := h
    have hlen : r.bytes.length = (mdnsEncodeName r.owner).length + 10 + r.rdata.length := by
      simp [Record.bytes, Record.body, answerHeader, be16, be32]
      omega
    have hsplit := shows_append.mp hbytes
    have hname : Shows rd p (mdnsEncodeName r.owner) := hsplit.1
    have hans : Answer rd (p + (mdnsEncodeName r.owner).length) r := answer_of_shows hr hsplit.2
    have hparse : mdnsParseName rd limit fuel p =
        some (some (p + (mdnsEncodeName r.owner).length)) :=
      parseName_wire hr.proper hr.short hname (by omega) (Nat.lt_of_lt_of_le hr.short hf)
    have hcmp := compareName_wire hr.short hname e.name
    have hnext : p + (mdnsEncodeName r.owner).length + 10 + r.rdata.length =
        p + r.bytes.length := by omega
    have hsame := sameName_eq hr.short e.name
    rw [List.length_cons, findLowestMatchingAnswer]
    simp only [hparse, hans.len, hcmp, hnext, answersAt, List.filter_cons]
    by_cases hm : matching e ignore (p + (mdnsEncodeName r.owner).length, r)
    · have hc : matchLabels e.name (labels r.owner) = 0 ∧
          some (p + (mdnsEncodeName r.owner).length) ≠ ignore := by
        simpa [matching, hsame] using hm
      rw [if_pos hc, if_pos hm, List.foldl_cons]
      have hlow := lower_eq (x := (_, r)) hans hl
      simp only at hlow
      have hpick := pickAt_answer (x := (_, r)) hans hl
      obtain ⟨y, hy⟩ : ∃ y, pickAt lowest (p + (mdnsEncodeName r.owner).length, r) = some y := by
        unfold pickAt
        split
        · exact ⟨_, rfl⟩
        · split
          · exact ⟨_, rfl⟩
          · exact ⟨_, rfl⟩
      rw [hlow]
      rw [hy] at hpick ⊢
      exact ih (fun x hx => hs x (List.mem_cons_of_mem _ hx)) hrest (by omega) hpick
    · have hc : ¬ (matchLabels e.name (labels r.owner) = 0 ∧
          some (p + (mdnsEncodeName r.owner).length) ≠ ignore) := by
        simpa [matching, hsame] using hm
      rw [if_neg hc, if_neg hm]
      exact ih (fun x hx => hs x (List.mem_cons_of_mem _ hx)) hrest (by omega) hl

-- The lowest record of the name, as the loop finds it.
def selected (e : Entry) (rs : List Record) : Option Record :=
  (rs.filter fun r => sameName e.name r.owner).foldl pick none

theorem map_answersAt (e : Entry) (p : Nat) (rs : List Record) :
    ((answersAt p rs).filter (matching e none)).map (·.2) =
      rs.filter fun r => sameName e.name r.owner := by
  induction rs generalizing p with
  | nil => rfl
  | cons r rs ih =>
    have hm (q : Nat) : matching e none (q, r) = sameName e.name r.owner := by simp [matching]
    rw [answersAt, List.filter_cons, List.filter_cons, hm, ← ih (p + r.bytes.length)]
    split
    · rfl
    · rfl

theorem map_pickAt (lowest : Option (Nat × Record)) (xs : List (Nat × Record)) :
    (xs.foldl pickAt lowest).map (·.2) = (xs.map (·.2)).foldl pick (lowest.map (·.2)) := by
  induction xs generalizing lowest with
  | nil => rfl
  | cons x xs ih =>
    have hx : (pickAt lowest x).map (·.2) = pick (lowest.map (·.2)) x.2 := by
      cases lowest with
      | none => rfl
      | some y =>
        simp only [pickAt, pick, Option.map_some]
        split
        · rfl
        · rfl
    rw [List.foldl_cons, ih, hx, List.map_cons, List.foldl_cons]

theorem answersAt_answer {rs : List Record} {p : Nat} (hs : ∀ r ∈ rs, r.Sound)
    (h : Shows rd p (rs.flatMap Record.bytes)) : ∀ x ∈ answersAt p rs, Answer rd x.1 x.2 := by
  induction rs generalizing p with
  | nil => simp [answersAt]
  | cons r rs ih =>
    rw [List.flatMap_cons, shows_append] at h
    intro x hx
    rcases List.mem_cons.mp hx with rfl | hx
    · exact answer_of_shows (hs r (List.mem_cons_self ..)) (shows_append.mp h.1).2
    · exact ih (fun r hr => hs r (List.mem_cons_of_mem _ hr)) h.2 x hx

theorem foldl_pickAt_answer {xs : List (Nat × Record)} {lowest : Option (Nat × Record)}
    (hx : ∀ x ∈ xs, Answer rd x.1 x.2) (hl : ∀ y ∈ lowest, Answer rd y.1 y.2) :
    ∀ y ∈ xs.foldl pickAt lowest, Answer rd y.1 y.2 := by
  induction xs generalizing lowest with
  | nil => exact hl
  | cons x xs ih =>
    exact ih (fun y hy => hx y (List.mem_cons_of_mem _ hy))
      (pickAt_answer (hx x (List.mem_cons_self ..)) hl)

theorem findLowest_selected {e : Entry} {rs : List Record} {p : Nat} (hs : ∀ r ∈ rs, r.Sound)
    (h : Shows rd p (rs.flatMap Record.bytes))
    (hlim : p + (rs.flatMap Record.bytes).length ≤ limit) (hf : 192 ≤ fuel) :
    ∃ found : Option (Nat × Record),
      findLowestMatchingAnswer rd fuel limit e none rs.length p none = some (found.map (·.1)) ∧
      found.map (·.2) = selected e rs ∧ ∀ y ∈ found, Answer rd y.1 y.2 := by
  refine ⟨((answersAt p rs).filter (matching e none)).foldl pickAt none, ?_, ?_, ?_⟩
  · have hnone : ∀ y ∈ (none : Option (Nat × Record)), Answer rd y.1 y.2 := nofun
    exact findLowest_eq hs h hlim hf hnone
  · rw [map_pickAt, map_answersAt]
    rfl
  · refine foldl_pickAt_answer (fun x hx => ?_) nofun
    exact answersAt_answer hs h x (List.mem_filter.mp hx).1

end Lowest

end Xtcp.Mdns
