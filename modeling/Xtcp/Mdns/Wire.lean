import Xtcp.Library.View
import Xtcp.Mdns.Send
import Mathlib.Data.List.Chain

namespace Xtcp.Mdns
open View

-- The labels of a dotted name, as mdns_encode_name takes them off it.
def labelsFrom (label : List UInt8) : List UInt8 → List (List UInt8)
  | [] => [label]
  | c :: src =>
    if c = dot then label :: (if src = [] then [] else labelsFrom [] src)
    else labelsFrom (label ++ [c]) src

def labels (s : List UInt8) : List (List UInt8) := labelsFrom [] s

def wire (ls : List (List UInt8)) : List UInt8 :=
  (ls.flatMap fun l => UInt8.ofNat l.length :: l) ++ [0]

theorem wire_cons (l : List UInt8) (ls : List (List UInt8)) :
    wire (l :: ls) = UInt8.ofNat l.length :: l ++ wire ls := by
  simp [wire]

theorem encodeFrom_eq (label src : List UInt8) :
    encodeFrom label src = wire (labelsFrom label src) := by
  induction src generalizing label with
  | nil => simp [encodeFrom, labelsFrom, wire]
  | cons c src ih =>
    unfold encodeFrom labelsFrom
    split
    · rw [wire_cons]
      split
      · rfl
      · rw [ih]
    · exact ih _

theorem encodeName_eq (s : List UInt8) : mdnsEncodeName s = wire (labels s) := encodeFrom_eq [] s

-- No label behind the first one is empty.
def Proper (s : List UInt8) : Prop := s.IsChain fun a b => ¬ (a = dot ∧ b = dot)

instance (s : List UInt8) : Decidable (Proper s) := by
  unfold Proper
  infer_instance

section Labels

variable {label src : List UInt8}

theorem labelsFrom_ne_nil (label src : List UInt8) : labelsFrom label src ≠ [] := by
  induction src generalizing label with
  | nil => simp [labelsFrom]
  | cons c src ih =>
    unfold labelsFrom
    split
    · simp
    · exact ih _

theorem length_labelsFrom (label src : List UInt8) :
    (labelsFrom label src).length ≤ src.length + 1 := by
  induction src generalizing label with
  | nil => simp [labelsFrom]
  | cons c src ih =>
    unfold labelsFrom
    rw [List.length_cons]
    split
    · split
      · simp
      · have := ih []
        rw [List.length_cons]
        omega
    · have := ih (label ++ [c])
      omega

theorem length_of_mem_labelsFrom {l : List UInt8} (h : l ∈ labelsFrom label src) :
    l.length ≤ label.length + src.length := by
  induction src generalizing label with
  | nil => rw [List.mem_singleton.mp h]; simp
  | cons c src ih =>
    unfold labelsFrom at h
    rw [List.length_cons]
    split at h
    · rcases List.mem_cons.mp h with rfl | h
      · omega
      · split at h
        · cases h
        · have := ih h
          rw [List.length_nil] at this
          omega
    · have := ih h
      rw [List.length_append, List.length_singleton] at this
      omega

theorem ne_nil_of_mem_labelsFrom {l : List UInt8} (hp : Proper src)
    (hs : label ≠ [] ∨ ∃ c, src.head? = some c ∧ c ≠ dot) (h : l ∈ labelsFrom label src) :
    l ≠ [] := by
  induction src generalizing label with
  | nil =>
    rw [List.mem_singleton.mp h]
    rcases hs with hs | ⟨c, hc, -⟩
    · exact hs
    · cases hc
  | cons c src ih =>
    have hp' : Proper src := List.IsChain.tail hp
    unfold labelsFrom at h
    split at h
    · next hc =>
      subst hc
      rcases List.mem_cons.mp h with rfl | h
      · rcases hs with hs | ⟨c, hc, hne⟩
        · exact hs
        · exact absurd (Option.some.inj hc).symm hne
      · split at h
        · cases h
        · next hne =>
          obtain ⟨d, ds, rfl⟩ := List.exists_cons_of_ne_nil hne
          have hd := (List.isChain_cons_cons.mp hp).1
          exact ih hp' (Or.inr ⟨d, rfl, fun he => hd ⟨rfl, he⟩⟩) h
    · exact ih hp' (Or.inl (by simp)) h

theorem ne_nil_of_mem_tail_labelsFrom {l : List UInt8} (hp : Proper src)
    (h : l ∈ (labelsFrom label src).tail) : l ≠ [] := by
  induction src generalizing label with
  | nil => cases h
  | cons c src ih =>
    have hp' : Proper src := List.IsChain.tail hp
    unfold labelsFrom at h
    split at h
    · next hc =>
      subst hc
      rw [List.tail_cons] at h
      split at h
      · cases h
      · next hne =>
        obtain ⟨d, ds, rfl⟩ := List.exists_cons_of_ne_nil hne
        have hd := (List.isChain_cons_cons.mp hp).1
        exact ne_nil_of_mem_labelsFrom hp' (Or.inr ⟨d, rfl, fun he => hd ⟨rfl, he⟩⟩) h
    · exact ih hp' h

end Labels

def Short (ls : List (List UInt8)) : Prop := ∀ l ∈ ls, l.length < 192

theorem short_labels {s : List UInt8} (h : s.length < 192) : Short (labels s) := by
  intro l hl
  have := length_of_mem_labelsFrom hl
  rw [List.length_nil] at this
  omega

theorem compressed_ofNat {n : Nat} (h : n < 192) : compressed (UInt8.ofNat n) = false := by
  have hall : ∀ m < 192, compressed (UInt8.ofNat m) = false := by decide +kernel
  exact hall n h

theorem toNat_ofNat {n : Nat} (h : n < 192) : (UInt8.ofNat n).toNat = n :=
  UInt8.toNat_ofNat_of_lt' (Nat.lt_trans h (by decide))

theorem ofNat_ne_zero {n : Nat} (h : n < 192) (h0 : n ≠ 0) : UInt8.ofNat n ≠ 0 := by
  intro he
  have := congrArg UInt8.toNat he
  rw [toNat_ofNat h] at this
  exact h0 this

section Parse

variable {rd : Nat → Option UInt8} {limit : Nat}

theorem skipLabel_eq {query n : Nat} (h : query + n ≤ limit) :
    skipLabel limit query n = some (query + n) := by
  induction n generalizing query with
  | zero => rfl
  | succ n ih =>
    unfold skipLabel
    rw [if_neg (by omega), ih (by omega), Nat.add_assoc, Nat.add_comm 1]

theorem parseTurn_label {p : Nat} {l : List UInt8} (hl : l.length < 192)
    (h : rd p = some (UInt8.ofNat l.length)) (hlim : p + 1 + l.length ≤ limit)
    (saved : Option Nat) :
    parseTurn rd limit p saved = some (some (p + 1 + l.length, saved)) := by
  simp [parseTurn, h, compressed_ofNat hl, toNat_ofNat hl, skipLabel_eq hlim]
  omega

theorem parseLoop_wire {ls : List (List UInt8)} {p fuel : Nat} (hne : ls ≠ []) (hs : Short ls)
    (ht : ∀ l ∈ ls.tail, l ≠ []) (h : Shows rd p (wire ls))
    (hlim : p + (wire ls).length ≤ limit + 1) (hf : ls.length ≤ fuel) :
    parseLoop rd limit fuel p none = some (some (p + (wire ls).length)) := by
  induction ls generalizing p fuel with
  | nil => exact absurd rfl hne
  | cons l ls ih =>
    obtain ⟨fuel, rfl⟩ : ∃ f, fuel = f + 1 := ⟨fuel - 1, by rw [List.length_cons] at hf; omega⟩
    have hl : l.length < 192 := hs l (List.mem_cons_self ..)
    rw [wire_cons, List.length_append, List.length_cons] at hlim
    rw [wire_cons, shows_append, shows_cons, List.length_cons] at h
    obtain ⟨⟨hn, -⟩, hrest⟩ := h
    have hpos : 1 ≤ (wire ls).length := by simp [wire]
    have hturn : parseTurn rd limit p none = some (some (p + 1 + l.length, none)) :=
      parseTurn_label hl hn (by omega) none
    have hlen : (wire (l :: ls)).length = l.length + 1 + (wire ls).length := by
      simp [wire_cons]
      omega
    have hp : p + (l.length + 1) = p + 1 + l.length := by omega
    rw [hp] at hrest
    unfold parseLoop
    rw [hturn, hlen]
    cases ls with
    | nil =>
      have hz : rd (p + 1 + l.length) = some 0 := hrest.1
      simp [hz, wire]
      omega
    | cons l' ls =>
      have hl' : l'.length < 192 := hs l' (by simp)
      have hb : rd (p + 1 + l.length) = some (UInt8.ofNat l'.length) := by
        rw [wire_cons] at hrest
        exact hrest.1
      have hne' : UInt8.ofNat l'.length ≠ 0 :=
        ofNat_ne_zero hl' (by simpa using ht l' (by simp))
      have hrec := @ih (p + 1 + l.length) fuel (by simp)
        (fun x hx => hs x (List.mem_cons_of_mem _ hx))
        (fun x hx => ht x (List.mem_of_mem_tail hx)) hrest (by omega)
        (by rw [List.length_cons] at hf; omega)
      simp only [hb, if_neg hne']
      rw [hrec]
      congr 2
      omega

end Parse

section Compare

variable {rd : Nat → Option UInt8}

def matchLabel : List UInt8 → List UInt8 → Except UInt8 (List UInt8 × List UInt8)
  | query, [] => .ok (query, [])
  | [], b :: l => .ok ([], b :: l)
  | c :: query, b :: l =>
    if b < c then .error 1 else if c < b then .error 255 else matchLabel query l

def matchEnd (query : List UInt8) (b : UInt8) : UInt8 :=
  if query ≠ [] then 1 else if b ≠ 0 then 255 else 0

-- mdns_compare_name on the labels themselves
def matchLabels : List UInt8 → List (List UInt8) → UInt8
  | query, [] => matchEnd query 0
  | query, l :: ls =>
    match matchLabel query l with
    | .error v => v
    | .ok (query, rest) =>
      if (rest ++ wire ls).headD 0 ≠ 0 ∧ query.tail ≠ [] then matchLabels query.tail ls
      else matchEnd query.tail ((rest ++ wire ls).headD 0)

theorem matchLabel_ok {query l query' rest : List UInt8}
    (h : matchLabel query l = .ok (query', rest)) :
    query'.length ≤ query.length ∧ (rest = [] ∨ query' = []) ∧ ∃ pre, l = pre ++ rest := by
  induction l generalizing query with
  | nil =>
    have hr : (query, []) = (query', rest) := by
      cases query <;> exact Except.ok.inj h
    obtain ⟨rfl, rfl⟩ := Prod.mk.inj hr
    exact ⟨Nat.le_refl _, Or.inl rfl, [], rfl⟩
  | cons b l ih =>
    cases query with
    | nil =>
      cases h
      exact ⟨Nat.le_refl _, Or.inr rfl, [], rfl⟩
    | cons c query =>
      unfold matchLabel at h
      split at h
      · cases h
      · split at h
        · cases h
        · obtain ⟨hq, hr, pre, rfl⟩ := ih h
          exact ⟨by rw [List.length_cons]; omega, hr, b :: pre, rfl⟩

theorem compareLabel_eq {p : Nat} {l : List UInt8} (h : Shows rd p l) (query : List UInt8) :
    compareLabel rd l.length query p =
      some ((matchLabel query l).map fun r => (r.1, p + (l.length - r.2.length))) := by
  induction l generalizing p query with
  | nil => cases query <;> rfl
  | cons b l ih =>
    cases query with
    | nil => simp [compareLabel, matchLabel, Except.map]
    | cons c query =>
      rw [List.length_cons, compareLabel, h.1, matchLabel]
      simp only
      split
      · rfl
      · split
        · rfl
        · rw [ih h.2]
          cases hm : matchLabel query l with
          | error v => rfl
          | ok r =>
            obtain ⟨-, -, pre, hpre⟩ := matchLabel_ok hm
            have hr : l.length = pre.length + r.2.length := by
              rw [hpre, List.length_append]
            simp only [Except.map]
            congr 3
            omega

theorem compareEnd_eq {query : List UInt8} {p : Nat} {b : UInt8} (h : rd p = some b) :
    compareEnd rd query p = some (matchEnd query b) := by
  unfold compareEnd matchEnd
  rw [h]
  split
  · rfl
  · simp only
    split <;> rfl

theorem compareLoop_wire {ls : List (List UInt8)} {query : List UInt8} {p fuel : Nat}
    (hne : ls ≠ []) (hs : Short ls) (h : Shows rd p (wire ls)) (hf : query.length < fuel) :
    compareLoop rd fuel query p = some (matchLabels query ls) := by
  induction ls generalizing query p fuel with
  | nil => exact absurd rfl hne
  | cons l ls ih =>
    obtain ⟨fuel, rfl⟩ : ∃ f, fuel = f + 1 := ⟨fuel - 1, by omega⟩
    have hl : l.length < 192 := hs l (List.mem_cons_self ..)
    rw [wire_cons, List.cons_append, shows_cons] at h
    obtain ⟨hn, hrest⟩ := h
    have hlabel := compareLabel_eq (shows_append.mp hrest).1 query
    rw [compareLoop, hn]
    simp only [compressed_ofNat hl, toNat_ofNat hl, hlabel, matchLabels]
    cases hm : matchLabel query l with
    | error v => rfl
    | ok r =>
      obtain ⟨query', rest⟩ := r
      obtain ⟨hq, hr, pre, rfl⟩ := matchLabel_ok hm
      rw [List.append_assoc, shows_append] at hrest
      obtain ⟨b, bs, hb⟩ : ∃ b bs, rest ++ wire ls = b :: bs :=
        List.exists_cons_of_ne_nil (by simp [wire])
      have hp : p + 1 + ((pre ++ rest).length - rest.length) = p + 1 + pre.length := by
        rw [List.length_append]
        omega
      have hrd : rd (p + 1 + pre.length) = some b := by
        rw [hb] at hrest
        exact hrest.2.1
      simp only [Except.map, hp, hrd, hb, List.headD_cons, Bool.false_eq_true, if_false]
      split
      · next hc =>
        obtain ⟨hb0, htail⟩ := hc
        have hq' : query' ≠ [] := by
          rintro rfl
          exact htail rfl
        obtain rfl := hr.resolve_right hq'
        have hls : ls ≠ [] := by
          rintro rfl
          obtain ⟨rfl, -⟩ := List.cons.inj hb
          exact hb0 rfl
        refine ih hls (fun x hx => hs x (List.mem_cons_of_mem _ hx)) hrest.2 ?_
        have := List.length_pos_of_ne_nil hq'
        rw [List.length_tail]
        omega
      · exact compareEnd_eq hrd

theorem compareName_wire {s : List UInt8} {p : Nat} (hs : s.length < 192)
    (h : Shows rd p (mdnsEncodeName s)) (query : List UInt8) :
    mdnsCompareName rd query p = some (matchLabels query (labels s)) := by
  rw [encodeName_eq] at h
  exact compareLoop_wire (labelsFrom_ne_nil [] s) (short_labels hs) h (Nat.lt_succ_self _)

theorem matchLabel_append (l query : List UInt8) : matchLabel (l ++ query) l = .ok (query, []) := by
  induction l with
  | nil => cases query <;> rfl
  | cons b l ih =>
    rw [List.cons_append, matchLabel, if_neg (UInt8.lt_irrefl b), if_neg (UInt8.lt_irrefl b), ih]

theorem matchLabels_from {label src : List UInt8} (hp : Proper src)
    (hl : label.length + src.length < 192) :
    matchLabels (label ++ src) (labelsFrom label src) = 0 := by
  induction src generalizing label with
  | nil =>
    have hm := matchLabel_append label []
    rw [labelsFrom, matchLabels, hm]
    rfl
  | cons c src ih =>
    rw [List.length_cons] at hl
    unfold labelsFrom
    split
    · next hc =>
      subst hc
      rw [matchLabels, matchLabel_append]
      by_cases hsrc : src = []
      · subst hsrc
        rfl
      · obtain ⟨d, ds, rfl⟩ := List.exists_cons_of_ne_nil hsrc
        have hd := (List.isChain_cons_cons.mp hp).1
        obtain ⟨x, xs, hx⟩ := List.exists_cons_of_ne_nil (labelsFrom_ne_nil [] (d :: ds))
        have hmem : x ∈ labelsFrom [] (d :: ds) := by simp [hx]
        have hx0 : x.length ≠ 0 := by
          have := ne_nil_of_mem_labelsFrom (List.IsChain.tail hp)
            (Or.inr ⟨d, rfl, fun he => hd ⟨rfl, he⟩⟩) hmem
          simpa using this
        have hxl := length_of_mem_labelsFrom hmem
        rw [List.length_nil] at hxl
        have hb : UInt8.ofNat x.length ≠ 0 := ofNat_ne_zero (by omega) hx0
        have ih := @ih [] (List.IsChain.tail hp) (by rw [List.length_nil]; omega)
        rw [List.nil_append] at ih
        simp only [reduceCtorEq, if_false, List.tail_cons, List.nil_append]
        rw [if_pos, ih]
        refine ⟨?_, by simp⟩
        rw [hx, wire_cons]
        exact hb
    · have ih := @ih (label ++ [c]) (List.IsChain.tail hp)
        (by rw [List.length_append, List.length_singleton]; omega)
      rwa [List.append_assoc, List.singleton_append] at ih

theorem compareName_self {s : List UInt8} {p : Nat} (hp : Proper s) (hs : s.length < 192)
    (h : Shows rd p (mdnsEncodeName s)) : mdnsCompareName rd s p = some 0 := by
  have hm := @matchLabels_from [] s hp (by simpa using hs)
  rw [compareName_wire hs h, labels]
  exact congrArg some hm

end Compare

theorem parseName_wire {rd : Nat → Option UInt8} {limit fuel p : Nat} {s : List UInt8}
    (hp : Proper s) (hs : s.length < 192) (h : Shows rd p (mdnsEncodeName s))
    (hlim : p + (mdnsEncodeName s).length ≤ limit) (hf : s.length < fuel) :
    mdnsParseName rd limit fuel p = some (some (p + (mdnsEncodeName s).length)) := by
  rw [encodeName_eq] at h hlim ⊢
  unfold mdnsParseName
  rw [if_neg (by omega)]
  refine parseLoop_wire (labelsFrom_ne_nil [] s) (short_labels hs)
    (fun l hl => ne_nil_of_mem_tail_labelsFrom hp hl) h (by omega) ?_
  exact (length_labelsFrom [] s).trans hf

end Xtcp.Mdns
