import Xtcp.Mdns.Wire
import Xtcp.Mdns.Trail

namespace Xtcp.Mdns
open View

-- A name of labels of 1 to 63 bytes stands at p, and e is the address behind its encoding.
inductive Encodes (rd : Nat → Option UInt8) : Nat → List (List UInt8) → Nat → Prop where
  | root {p : Nat} : rd p = some 0 → Encodes rd p [] (p + 1)
  | label {p e : Nat} {l : List UInt8} {ls : List (List UInt8)} : l ≠ [] → l.length ≤ 63 →
      Shows rd p (UInt8.ofNat l.length :: l) → Encodes rd (p + 1 + l.length) ls e →
      Encodes rd p (l :: ls) e
  | pointer {p e : Nat} {n low : UInt8} {ls : List (List UInt8)} : rd p = some n →
      rd (p + 1) = some low → compressed n → offset n low < p →
      Encodes rd (offset n low) ls e → Encodes rd p ls (p + 2)

section Encodes

variable {rd rd' : Nat → Option UInt8} {p e : Nat} {ls : List (List UInt8)}

theorem Shows.mono (hrd : ∀ i b, rd i = some b → rd' i = some b) {xs : List UInt8}
    (h : Shows rd p xs) : Shows rd' p xs := by
  induction xs generalizing p with
  | nil => trivial
  | cons x xs ih => exact ⟨hrd p x h.1, ih h.2⟩

theorem Encodes.mono (hrd : ∀ i b, rd i = some b → rd' i = some b) (h : Encodes rd p ls e) :
    Encodes rd' p ls e := by
  induction h with
  | root h0 => exact .root (hrd _ _ h0)
  | label hne hl hs _ ih => exact .label hne hl (Shows.mono hrd hs) ih
  | pointer hn hlow hc hlt _ ih => exact .pointer (hrd _ _ hn) (hrd _ _ hlow) hc hlt ih

theorem Encodes.bounds (h : Encodes rd p ls e) : ∀ l ∈ ls, l ≠ [] ∧ l.length ≤ 63 := by
  induction h with
  | root _ => simp
  | label hne hl _ _ ih =>
    intro x hx
    rcases List.mem_cons.mp hx with rfl | hx
    · exact ⟨hne, hl⟩
    · exact ih x hx
  | pointer _ _ _ _ _ ih => exact ih

theorem Encodes.short (h : Encodes rd p ls e) : Short ls := by
  intro l hl
  have := (h.bounds l hl).2
  omega

-- An encoding in the message ends in the message.
theorem Encodes.end_le {limit : Nat} (hrd : ∀ i b, rd i = some b → i < limit)
    (h : Encodes rd p ls e) : e ≤ limit := by
  induction h with
  | root h0 => exact hrd _ _ h0
  | label _ _ _ _ ih => exact ih
  | pointer _ hlow _ _ _ _ => exact hrd _ _ hlow

theorem Encodes.head (h : Encodes rd p ls e) : ∃ b, rd p = some b := by
  cases h with
  | root h0 => exact ⟨_, h0⟩
  | label _ _ hs _ => exact ⟨_, hs.1⟩
  | pointer hn _ _ _ _ => exact ⟨_, hn⟩

theorem Encodes.eq_root (h : Encodes rd p ls e) (h0 : rd p = some 0) : ls = [] ∧ e = p + 1 := by
  cases h with
  | root _ => exact ⟨rfl, rfl⟩
  | @label _ _ l _ hne hl hs _ =>
    have hne' : UInt8.ofNat l.length ≠ 0 := ofNat_ne_zero (by omega) (by simpa using hne)
    exact absurd (Option.some.inj (hs.1.symm.trans h0)) hne'
  | pointer hn _ hc _ _ =>
    obtain rfl := Option.some.inj (hn.symm.trans h0)
    cases hc

theorem plain_head {n : UInt8} (hshort : Short ls) (hs : Shows rd p (wire ls))
    (hn : rd p = some n) : ¬ compressed n := by
  cases ls with
  | nil =>
    obtain rfl := Option.some.inj (hn.symm.trans hs.1)
    decide
  | cons l ls =>
    rw [wire_cons] at hs
    obtain rfl := Option.some.inj (hn.symm.trans hs.1)
    simp [compressed_ofNat (hshort l (List.mem_cons_self ..))]

theorem shows_label {l : List UInt8} : Shows rd p (wire (l :: ls)) ↔
    Shows rd p (UInt8.ofNat l.length :: l) ∧ Shows rd (p + 1 + l.length) (wire ls) := by
  rw [wire_cons, shows_append, List.length_cons, Nat.add_assoc p, Nat.add_comm 1]

-- Without a pointer the address behind the encoding is found by its length.
theorem Encodes.end_eq (h : Encodes rd p ls e) (hs : Shows rd p (wire ls)) :
    e = p + (wire ls).length := by
  have hshort := h.short
  induction h with
  | root _ => rfl
  | @label p _ l ls _ _ _ _ ih =>
    have hend := ih (shows_label.mp hs).2 fun x hx => hshort x (List.mem_cons_of_mem _ hx)
    rw [hend, wire_cons, List.length_append, List.length_cons]
    omega
  | pointer hn _ hc _ _ _ => exact absurd hc (plain_head hshort hs hn)

end Encodes

section Parse

variable {rd : Nat → Option UInt8} {limit fuel p e x : Nat} {ls : List (List UInt8)}

theorem parseTurn_pointer {n : UInt8} {saved : Option Nat} {q : Nat} (hn : rd p = some n)
    (hc : compressed n) (h : parseTurn rd limit p none = some (some (q, saved))) :
    saved = some (p + 2) := by
  simp only [parseTurn, hn, hc, Option.bind_eq_bind, Option.bind_some, if_true] at h
  split at h
  · cases h
  · cases hlow : rd (p + 1) with
    | none => rw [hlow] at h; cases h
    | some low =>
      rw [hlow, Option.bind_some] at h
      split at h
      · cases h
      · cases h
        rfl

theorem parseTurn_saved {saved : Option Nat} {q s : Nat}
    (h : parseTurn rd limit p (some s) = some (some (q, saved))) : saved = some s := by
  simp only [parseTurn, Option.bind_eq_bind] at h
  cases hn : rd p with
  | none => rw [hn] at h; cases h
  | some n =>
    rw [hn, Option.bind_some] at h
    split at h
    · cases h
    · split at h
      · cases hlow : rd (p + 1) with
        | none => rw [hlow] at h; cases h
        | some low =>
          rw [hlow, Option.bind_some] at h
          split at h
          · cases h
          · cases h
            rfl
      · cases hskip : skipLabel limit (p + 1) n.toNat with
        | none => rw [hskip] at h; cases h
        | some q' =>
          rw [hskip] at h
          cases h
          rfl

theorem parseTurn_ahead {saved : Option Nat} {q : Nat} (h : parseTurn rd limit p none =
    some (some (q, saved))) : saved = none ∧ p < q ∨ saved = some (p + 2) := by
  simp only [parseTurn, Option.bind_eq_bind] at h
  cases hn : rd p with
  | none => rw [hn] at h; cases h
  | some n =>
    rw [hn, Option.bind_some] at h
    split at h
    · cases h
    · split at h
      · cases hlow : rd (p + 1) with
        | none => rw [hlow] at h; cases h
        | some low =>
          rw [hlow, Option.bind_some] at h
          split at h
          · cases h
          · cases h
            exact Or.inr rfl
      · next hlim _ =>
        rw [skipLabel_le (by omega)] at h
        split at h
        · cases h
        · cases h
          exact Or.inl ⟨rfl, by omega⟩

theorem parseLoop_saved {s : Nat} (h : parseLoop rd limit fuel p (some s) = some (some x)) :
    x = s + 1 := by
  induction fuel generalizing p with
  | zero => cases h
  | succ fuel ih =>
    rw [parseLoop] at h
    split at h
    · cases h
    · cases h
    · next q saved hturn =>
      obtain rfl : saved = some s := parseTurn_saved hturn
      split at h
      · cases h
      · split at h
        · cases h
          rfl
        · exact ih h

-- At least one byte is taken before the byte that ends the loop.
theorem parseLoop_ahead (h : parseLoop rd limit fuel p none = some (some x)) : p + 1 < x := by
  induction fuel generalizing p with
  | zero => cases h
  | succ fuel ih =>
    rw [parseLoop] at h
    split at h
    · cases h
    · cases h
    · next q saved hturn =>
      split at h
      · cases h
      · rcases parseTurn_ahead hturn with ⟨rfl, hq⟩ | rfl
        · split at h
          · cases h
            exact Nat.succ_lt_succ hq
          · have := ih h
            omega
        · split at h
          · cases h
            exact Nat.lt_succ_of_lt (Nat.lt_succ_self _)
          · have := parseLoop_saved h
            omega

theorem parseLoop_pointer {n : UInt8} (hn : rd p = some n) (hc : compressed n)
    (h : parseLoop rd limit fuel p none = some (some x)) : x = p + 3 := by
  cases fuel with
  | zero => cases h
  | succ fuel =>
    rw [parseLoop] at h
    split at h
    · cases h
    · cases h
    · next q saved hturn =>
      obtain rfl := parseTurn_pointer hn hc hturn
      split at h
      · cases h
      · split at h
        · cases h
          rfl
        · exact parseLoop_saved h

section Message

-- The message of limit bytes, and the memory that it is in.
variable {msg : Nat → Option UInt8} (hmsg : ∀ i b, msg i = some b → rd i = some b ∧ i < limit)
include hmsg

theorem parseLoop_plain (h : Encodes msg p ls e)
    (hp : parseLoop rd limit fuel p none = some (some e)) : ls ≠ [] ∧ Shows msg p (wire ls) := by
  induction h generalizing fuel with
  | root _ =>
    have := parseLoop_ahead hp
    omega
  | pointer hn _ hc _ _ _ =>
    have := parseLoop_pointer (hmsg _ _ hn).1 hc hp
    omega
  | @label p e l ls hne hl hs hrest ih =>
    refine ⟨List.cons_ne_nil _ _, shows_label.mpr ⟨hs, ?_⟩⟩
    obtain ⟨b, hb⟩ := hrest.head
    cases fuel with
    | zero => cases hp
    | succ fuel =>
      have hlim := (hmsg _ _ hb).2
      rw [parseLoop, parseTurn_label (by omega) (hmsg _ _ hs.1).1 (by omega) none] at hp
      simp only [(hmsg _ _ hb).1] at hp
      split at hp
      · next h0 =>
        subst h0
        obtain ⟨rfl, -⟩ := hrest.eq_root hb
        exact ⟨hb, trivial⟩
      · exact (ih hp).2

end Message

end Parse

-- The address behind the encoding is returned for the names without a pointer, but for the root.
theorem parse_name_exact (msg : List UInt8) {rd : Nat → Option UInt8} {p e : Nat}
    {ls : List (List UInt8)} (hrd : ∀ i < msg.length, rd i = msg[i]?)
    (h : Encodes (fun i => msg[i]?) p ls e) :
    (∃ fuel, mdnsParseName rd msg.length fuel p = some (some e)) ↔
      ls ≠ [] ∧ Shows (fun i => msg[i]?) p (wire ls) := by
  have hmsg : ∀ i b, msg[i]? = some b → rd i = some b ∧ i < msg.length := by
    intro i b hb
    have hi : i < msg.length := (List.getElem?_eq_some_iff.mp hb).1
    exact ⟨(hrd i hi).trans hb, hi⟩
  obtain ⟨b, hb⟩ := h.head
  have hp : ¬ msg.length < p := by
    have := (hmsg p b hb).2
    omega
  simp only [mdnsParseName, if_neg hp]
  constructor
  · rintro ⟨fuel, hf⟩
    exact parseLoop_plain hmsg h hf
  · rintro ⟨hne, hs⟩
    have hend := h.end_eq hs
    have hle := h.end_le fun i b hb => (hmsg i b hb).2
    refine ⟨ls.length, ?_⟩
    rw [hend]
    refine parseLoop_wire hne h.short (fun l hl => (h.bounds l (List.mem_of_mem_tail hl)).1)
      (Shows.mono (fun i b hb => (hmsg i b hb).1) hs) (by omega) (Nat.le_refl _)

theorem parse_name_a : ∃ fuel, mdnsParseName (fun i => [1, 97, 0][i]?) 3 fuel 0 = some (some 3) :=
  (parse_name_exact [1, 97, 0] (fun _ _ => rfl)
    (.label (by decide) (by decide) ⟨rfl, rfl, trivial⟩ (.root rfl) : Encodes _ 0 [[97]] 3)).mpr
    ⟨by decide, rfl, rfl, rfl, trivial⟩

-- The name at 3, a pointer to the one at 0, ends before 5.
theorem pointer_parsed_late : (∃ (msg : List UInt8) (p e : Nat) (ls : List (List UInt8)),
      Encodes (fun i => msg[i]?) p ls e ∧
        ∀ fuel, mdnsParseName (fun i => msg[i]?) msg.length fuel p ≠ some (some e)) ∧
    mdnsParseName (fun i => [1, 97, 0, 0xc0, 0, 0, 1][i]?) 7 2 3 = some (some 6) := by
  refine ⟨⟨[1, 97, 0, 0xc0, 0, 0, 1], 3, 5, [[97]], ?_, ?_⟩, by decide +kernel⟩
  · exact .pointer rfl rfl rfl (by decide)
      (.label (by decide) (by decide) ⟨rfl, rfl, trivial⟩ (.root rfl))
  · intro fuel hf
    have := parseLoop_pointer rfl rfl hf
    omega

-- What is taken for q: the labels at p with any character for each separator, and one more
-- character at the end or none; the labels up to a zero byte in one of them; and behind a pointer a
-- zero byte.
inductive Lookalike (rd : Nat → Option UInt8) : List UInt8 → Nat → Prop where
  | pointer {p : Nat} {n low : UInt8} : rd p = some n → compressed n → rd (p + 1) = some low →
      rd (offset n low) = some 0 → Lookalike rd [] p
  | last {p : Nat} {n : UInt8} {l tail : List UInt8} : rd p = some n → ¬ compressed n →
      n.toNat = l.length → Shows rd (p + 1) (l ++ [0]) → tail.length ≤ 1 →
      Lookalike rd (l ++ tail) p
  | cut {p : Nat} {n : UInt8} {l : List UInt8} : rd p = some n → ¬ compressed n →
      l.length < n.toNat → Shows rd (p + 1) (l ++ [0]) → Lookalike rd l p
  | more {p : Nat} {n b c : UInt8} {l rest : List UInt8} : rd p = some n → ¬ compressed n →
      n.toNat = l.length → Shows rd (p + 1) (l ++ [b]) → b ≠ 0 → rest ≠ [] →
      Lookalike rd rest (p + 1 + l.length) → Lookalike rd (l ++ c :: rest) p

section Compare

variable {rd : Nat → Option UInt8} {fuel n p e p' : Nat} {q q' : List UInt8}
  {ls : List (List UInt8)}

theorem compareEnd_zero : compareEnd rd q p = some 0 ↔ q = [] ∧ rd p = some 0 := by
  unfold compareEnd
  by_cases hq : q = []
  · cases hp : rd p with
    | none => simp [hq]
    | some b => by_cases hb : b = 0 <;> simp [hq, hb]
  · simp [hq]

theorem compareLabel_error {v : UInt8} (h : compareLabel rd n q p = some (.error v)) : v ≠ 0 := by
  induction n generalizing q p with
  | zero => cases h
  | succ n ih =>
    cases q with
    | nil => cases h
    | cons c q =>
      rw [compareLabel] at h
      split at h
      · cases h
      · split at h
        · cases h
          decide
        · split at h
          · cases h
            decide
          · exact ih h

theorem compareLabel_ok_iff : compareLabel rd n q p = some (.ok (q', p')) ↔
    ∃ l, q = l ++ q' ∧ Shows rd p l ∧ p' = p + l.length ∧
      (l.length = n ∨ l.length < n ∧ q' = []) := by
  induction n generalizing q p with
  | zero =>
    rw [compareLabel]
    constructor
    · rintro ⟨⟩
      exact ⟨[], rfl, trivial, rfl, Or.inl rfl⟩
    · rintro ⟨l, rfl, -, rfl, hl⟩
      obtain rfl : l = [] := List.length_eq_zero_iff.mp (by omega)
      rfl
  | succ n ih =>
    cases q with
    | nil =>
      rw [compareLabel]
      constructor
      · rintro ⟨⟩
        exact ⟨[], rfl, trivial, rfl, Or.inr ⟨Nat.succ_pos n, rfl⟩⟩
      · rintro ⟨l, hq, -, rfl, -⟩
        obtain ⟨rfl, rfl⟩ := List.append_eq_nil_iff.mp hq.symm
        rfl
    | cons c q =>
      rw [compareLabel]
      constructor
      · intro h
        split at h
        · cases h
        · next b hb =>
          split at h
          · cases h
          · next hgt =>
            split at h
            · cases h
            · next hlt =>
              rw [UInt8.not_lt] at hgt hlt
              obtain rfl := UInt8.le_antisymm hgt hlt
              obtain ⟨l, rfl, hs, rfl, hl⟩ := ih.mp h
              refine ⟨c :: l, rfl, ⟨hb, hs⟩, ?_, ?_⟩
              · rw [List.length_cons]
                omega
              · simpa using hl
      · rintro ⟨l, hq, hs, rfl, hl⟩
        cases l with
        | nil =>
          rcases hl with hl | ⟨-, rfl⟩
          · cases hl
          · cases hq
        | cons x l =>
          obtain ⟨rfl, rfl⟩ := List.cons.inj hq
          simp only [hs.1, UInt8.lt_irrefl, if_false]
          refine ih.mpr ⟨l, rfl, hs.2, ?_, by simpa using hl⟩
          rw [List.length_cons]
          omega

theorem shows_snoc {l : List UInt8} {b : UInt8} :
    Shows rd p (l ++ [b]) ↔ Shows rd p l ∧ rd (p + l.length) = some b := by
  simp [shows_append]

theorem compareLoop_zero (hf : q.length < fuel) :
    compareLoop rd fuel q p = some 0 ↔ Lookalike rd q p := by
  induction fuel generalizing q p with
  | zero => omega
  | succ fuel ih =>
    rw [compareLoop]
    constructor
    · intro h
      split at h
      · cases h
      · next n hn =>
        split at h
        · next hc =>
          split at h
          · cases h
          · next low hlow =>
            obtain ⟨rfl, h0⟩ := compareEnd_zero.mp h
            exact .pointer hn hc hlow h0
        · next hc =>
          split at h
          · cases h
          · next v hv => exact absurd (Option.some.inj h) (compareLabel_error hv)
          · next q' p' hok =>
            obtain ⟨l, rfl, hs, rfl, hl⟩ := compareLabel_ok_iff.mp hok
            split at h
            · cases h
            · next b hb =>
              split at h
              · next hmore =>
                obtain ⟨hb0, hrest⟩ := hmore
                obtain ⟨c, rest, rfl⟩ : ∃ c rest, q' = c :: rest :=
                  List.exists_cons_of_ne_nil fun hq => hrest (congrArg List.tail hq)
                rw [List.length_append, List.length_cons] at hf
                have hlen : l.length = n.toNat := hl.resolve_right fun hq => by cases hq.2
                rw [List.tail_cons] at h hrest
                exact .more hn hc hlen.symm (shows_snoc.mpr ⟨hs, hb⟩) hb0 hrest
                  ((ih (by omega)).mp h)
              · obtain ⟨htail, h0⟩ := compareEnd_zero.mp h
                have hs' := shows_snoc.mpr ⟨hs, h0⟩
                rcases hl with hl | ⟨hl, rfl⟩
                · have hq : q'.length ≤ 1 := by
                    have := congrArg List.length htail
                    rw [List.length_tail, List.length_nil] at this
                    omega
                  exact .last hn hc hl.symm hs' hq
                · rw [List.append_nil]
                  exact .cut hn hc hl hs'
    · intro h
      cases h with
      | pointer hn hc hlow h0 =>
        simp only [hn, hc, hlow, if_true]
        exact compareEnd_zero.mpr ⟨rfl, h0⟩
      | @last _ n l tail hn hc hlen hs htail =>
        obtain ⟨hs, h0⟩ := shows_snoc.mp hs
        have hok : compareLabel rd n.toNat (l ++ tail) (p + 1) =
            some (.ok (tail, p + 1 + l.length)) :=
          compareLabel_ok_iff.mpr ⟨l, rfl, hs, rfl, Or.inl hlen.symm⟩
        have htail' : tail.tail = [] := List.eq_nil_of_length_eq_zero (by
          rw [List.length_tail]
          omega)
        simp only [hn, if_neg hc, hok, h0, htail']
        exact compareEnd_zero.mpr ⟨rfl, h0⟩
      | @cut _ n _ hn hc hlen hs =>
        obtain ⟨hs, h0⟩ := shows_snoc.mp hs
        have hok : compareLabel rd n.toNat q (p + 1) = some (.ok ([], p + 1 + q.length)) :=
          compareLabel_ok_iff.mpr ⟨q, (List.append_nil q).symm, hs, rfl, Or.inr ⟨hlen, rfl⟩⟩
        simp only [hn, if_neg hc, hok, h0]
        exact compareEnd_zero.mpr ⟨rfl, h0⟩
      | @more _ n b c l rest hn hc hlen hs hb0 hrest hrec =>
        obtain ⟨hs, hb⟩ := shows_snoc.mp hs
        have hok : compareLabel rd n.toNat (l ++ c :: rest) (p + 1) =
            some (.ok (c :: rest, p + 1 + l.length)) :=
          compareLabel_ok_iff.mpr ⟨l, rfl, hs, rfl, Or.inl hlen.symm⟩
        rw [List.length_append, List.length_cons] at hf
        simp only [hn, if_neg hc, hok, hb, List.tail_cons, ne_eq, hb0, hrest, not_false_iff,
          and_self, if_true]
        exact (ih (by omega)).mpr hrec

theorem compareName_zero : mdnsCompareName rd q p = some 0 ↔ Lookalike rd q p :=
  compareLoop_zero (Nat.lt_succ_self _)

end Compare

def dotted : List (List UInt8) → List UInt8
  | [] => []
  | [l] => l
  | l :: ls => l ++ dot :: dotted ls

def PointsAtRoot (rd : Nat → Option UInt8) (p : Nat) : Prop :=
  ∃ n low, rd p = some n ∧ compressed n ∧ rd (p + 1) = some low ∧ rd (offset n low) = some 0

section Dotted

variable {rd : Nat → Option UInt8} {p e : Nat} {q l : List UInt8} {ls : List (List UInt8)}

theorem dotted_cons (hls : ls ≠ []) : dotted (l :: ls) = l ++ dot :: dotted ls := by
  rw [dotted]
  exact hls

theorem dotted_append (l : List UInt8) (ls : List (List UInt8)) :
    ∃ tail, dotted (l :: ls) = l ++ tail := by
  cases ls with
  | nil => exact ⟨[], (List.append_nil l).symm⟩
  | cons l' ls => exact ⟨_, dotted_cons (List.cons_ne_nil _ _)⟩

theorem dotted_ne_nil (h : Encodes rd p ls e) (hls : ls ≠ []) : dotted ls ≠ [] := by
  obtain ⟨l, ls, rfl⟩ := List.exists_cons_of_ne_nil hls
  obtain ⟨tail, ht⟩ := dotted_append l ls
  rw [ht]
  exact List.append_ne_nil_of_left_ne_nil (h.bounds l (List.mem_cons_self ..)).1 tail

theorem Shows.unique {xs ys : List UInt8} (hx : Shows rd p xs) (hy : Shows rd p ys)
    (hl : xs.length = ys.length) : xs = ys := by
  induction xs generalizing p ys with
  | nil => exact (List.eq_nil_of_length_eq_zero hl.symm).symm
  | cons x xs ih =>
    cases ys with
    | nil => cases hl
    | cons y ys =>
      rw [ih hx.2 hy.2 (Nat.succ.inj hl), Option.some.inj (hx.1.symm.trans hy.1)]

theorem Shows.cut {k : Nat} (h : Shows rd p l) (hq : Shows rd p (q ++ [0])) (hl : l.length = k)
    (hk : q.length < k) : ∃ tail, l = q ++ 0 :: tail := by
  subst hl
  have hlen : (l.take (q.length + 1)).length = (q ++ [0]).length := by
    rw [List.length_take, List.length_append, List.length_singleton]
    omega
  have htake : Shows rd p (l.take (q.length + 1)) := by
    rw [← List.take_append_drop (q.length + 1) l] at h
    exact (shows_append.mp h).1
  refine ⟨l.drop (q.length + 1), ?_⟩
  rw [← List.singleton_append, ← List.append_assoc, ← Shows.unique htake hq hlen,
    List.take_append_drop]

-- What is taken for a name that begins with the label l.
theorem lookalike_label (hl : l.length ≤ 63) (hs : Shows rd p (UInt8.ofNat l.length :: l)) :
    Lookalike rd q p ↔
      (∃ tail, q = l ++ tail ∧ tail.length ≤ 1 ∧ rd (p + 1 + l.length) = some 0) ∨
      (∃ tail, l = q ++ 0 :: tail) ∨
      ∃ b c rest, q = l ++ c :: rest ∧ rd (p + 1 + l.length) = some b ∧ b ≠ 0 ∧ rest ≠ [] ∧
        Lookalike rd rest (p + 1 + l.length) := by
  have hlen : (UInt8.ofNat l.length).toNat = l.length := toNat_ofNat (by omega)
  have hplain : ¬ compressed (UInt8.ofNat l.length) := by simp [compressed_ofNat (n := l.length)
    (by omega)]
  constructor
  · intro h
    cases h with
    | pointer hn hc _ _ =>
      obtain rfl := Option.some.inj (hn.symm.trans hs.1)
      exact absurd hc hplain
    | last hn _ hn' hs' htail =>
      obtain rfl := Option.some.inj (hn.symm.trans hs.1)
      obtain ⟨hs', h0⟩ := shows_snoc.mp hs'
      obtain rfl := Shows.unique hs.2 hs' (hlen.symm.trans hn')
      exact Or.inl ⟨_, rfl, htail, h0⟩
    | cut hn _ hn' hs' =>
      obtain rfl := Option.some.inj (hn.symm.trans hs.1)
      exact Or.inr (Or.inl (Shows.cut hs.2 hs' hlen.symm hn'))
    | more hn _ hn' hs' hb hrest h =>
      obtain rfl := Option.some.inj (hn.symm.trans hs.1)
      obtain ⟨hs', hb'⟩ := shows_snoc.mp hs'
      obtain rfl := Shows.unique hs.2 hs' (hlen.symm.trans hn')
      exact Or.inr (Or.inr ⟨_, _, _, rfl, hb', hb, hrest, h⟩)
  · rintro (⟨tail, rfl, htail, h0⟩ | ⟨tail, hq⟩ | ⟨b, c, rest, rfl, hb', hb, hrest, h⟩)
    · exact .last hs.1 hplain hlen (shows_snoc.mpr ⟨hs.2, h0⟩) htail
    · have hs' := hs.2
      rw [hq, ← List.singleton_append, ← List.append_assoc, shows_append] at hs'
      refine .cut hs.1 hplain ?_ hs'.1
      rw [hlen, hq, List.length_append, List.length_cons]
      omega
    · exact .more hs.1 hplain hlen (shows_snoc.mpr ⟨hs.2, hb'⟩) hb hrest h

theorem lookalike_pointer {n : UInt8} (hn : rd p = some n) (hc : compressed n) :
    Lookalike rd q p ↔ q = [] ∧ PointsAtRoot rd p := by
  constructor
  · intro h
    cases h with
    | pointer hn hc hlow h0 => exact ⟨rfl, _, _, hn, hc, hlow, h0⟩
    | last hn' hc' _ _ _ => exact absurd (Option.some.inj (hn.symm.trans hn') ▸ hc) hc'
    | cut hn' hc' _ _ => exact absurd (Option.some.inj (hn.symm.trans hn') ▸ hc) hc'
    | more hn' hc' _ _ _ _ _ => exact absurd (Option.some.inj (hn.symm.trans hn') ▸ hc) hc'
  · rintro ⟨rfl, _, _, hn, hc, hlow, h0⟩
    exact .pointer hn hc hlow h0

theorem lookalike_nil (h0 : rd p = some 0) : Lookalike rd [] p ↔ rd (p + 1) = some 0 := by
  rw [lookalike_label (l := []) (Nat.zero_le _) ⟨h0, trivial⟩]
  simp

-- The name itself is taken for it where no pointer is met, the root where a zero byte is behind it.
theorem lookalike_self (h : Encodes rd p ls e) : Lookalike rd (dotted ls) p ↔
    Shows rd p (wire ls) ∧ (ls = [] → rd (p + 1) = some 0) ∨ PointsAtRoot rd p := by
  induction h with
  | @root p h0 =>
    have hroot : ¬ PointsAtRoot rd p := by
      rintro ⟨n, _, hn, hc, -⟩
      obtain rfl := Option.some.inj (hn.symm.trans h0)
      cases hc
    rw [dotted, lookalike_nil h0]
    simp [wire, h0, hroot]
  | @pointer p e n low ls hn hlow hc _ h ih =>
    rw [lookalike_pointer hn hc]
    constructor
    · rintro ⟨-, hr⟩
      exact Or.inr hr
    · rintro (⟨hs, -⟩ | hr)
      · exact absurd hc (plain_head h.short hs hn)
      · refine ⟨?_, hr⟩
        obtain ⟨n', low', hn', -, hlow', h0⟩ := hr
        obtain rfl := Option.some.inj (hn'.symm.trans hn)
        obtain rfl := Option.some.inj (hlow'.symm.trans hlow)
        obtain ⟨rfl, -⟩ := h.eq_root h0
        rfl
  | @label p e l ls hne hl hs hrest ih =>
    have hroot : ¬ PointsAtRoot rd p := by
      rintro ⟨n, _, hn, hc, -⟩
      obtain rfl := Option.some.inj (hn.symm.trans hs.1)
      rw [compressed_ofNat (by omega)] at hc
      cases hc
    rw [lookalike_label hl hs, shows_label]
    obtain ⟨tail, htail⟩ := dotted_append l ls
    constructor
    · rintro (⟨_, -, -, h0⟩ | ⟨tail', hq⟩ | ⟨b, c, rest, hq, hb', hb, hnil, hlook⟩)
      · obtain ⟨rfl, -⟩ := hrest.eq_root h0
        exact Or.inl ⟨⟨hs, h0, trivial⟩, fun h => by cases h⟩
      · have := congrArg List.length hq
        rw [htail, List.length_append, List.length_append, List.length_cons] at this
        omega
      · have hls : ls ≠ [] := by
          rintro rfl
          have := congrArg List.length hq
          rw [dotted, List.length_append, List.length_cons] at this
          omega
        rw [dotted_cons hls] at hq
        obtain ⟨-, rfl⟩ := List.cons.inj (List.append_cancel_left hq)
        rcases ih.mp hlook with ⟨hs', -⟩ | hr
        · exact Or.inl ⟨⟨hs, hs'⟩, fun h => by cases h⟩
        · obtain ⟨n, low, hn, hc, hlow, h0⟩ := hr
          rw [lookalike_pointer hn hc] at hlook
          exact absurd hlook.1 hnil
    · rintro (⟨⟨-, hs'⟩, -⟩ | hr)
      · by_cases hls : ls = []
        · subst hls
          exact Or.inl ⟨[], (List.append_nil l).symm, Nat.zero_le _, hs'.1⟩
        · obtain ⟨b, hb⟩ := hrest.head
          have hb0 : b ≠ 0 := by
            rintro rfl
            exact hls (hrest.eq_root hb).1
          exact Or.inr (Or.inr ⟨b, dot, dotted ls, dotted_cons hls, hb, hb0,
            dotted_ne_nil hrest hls, ih.mpr (Or.inl ⟨hs', fun h => absurd h hls⟩)⟩)
      · exact absurd hr hroot

end Dotted

-- The name is found where it stands without a pointer, the root with a zero byte behind it; another
-- one is where the look alikes are.
theorem compare_name_exact {rd : Nat → Option UInt8} {p e : Nat} {ls : List (List UInt8)}
    (q : List UInt8) (h : Encodes rd p ls e) :
    (mdnsCompareName rd q p = some 0 ↔ q = dotted ls) ↔
      (q = dotted ls →
        Shows rd p (wire ls) ∧ (ls = [] → rd (p + 1) = some 0) ∨ PointsAtRoot rd p) ∧
      (q ≠ dotted ls → ¬ Lookalike rd q p) := by
  rw [compareName_zero]
  by_cases hq : q = dotted ls
  · subst hq
    simp [lookalike_self h]
  · simp [hq]

theorem compare_name_a_b :
    mdnsCompareName (fun i => [1, 97, 1, 98, 0][i]?) (text "a.b") 0 = some 0 ↔
      text "a.b" = dotted [[97], [98]] :=
  (compare_name_exact (text "a.b")
    (.label (by decide) (by decide) ⟨rfl, rfl, trivial⟩
      (.label (by decide) (by decide) ⟨rfl, rfl, trivial⟩ (.root rfl)) :
        Encodes (fun i => [1, 97, 1, 98, 0][i]?) 0 [[97], [98]] 5)).mpr
    ⟨fun _ => Or.inl ⟨⟨rfl, rfl, rfl, rfl, rfl, trivial⟩, fun h => by cases h⟩,
      fun h => absurd rfl h⟩

-- "axb" is taken for the name a.b at 0, "a.b" not for the same name at 5, which points to it.
theorem other_name_compared : ∃ (msg : List UInt8) (e e' : Nat) (ls : List (List UInt8)),
    Encodes (fun i => msg[i]?) 0 ls e ∧ Encodes (fun i => msg[i]?) 5 ls e' ∧
    dotted ls = text "a.b" ∧ text "axb" ≠ text "a.b" ∧
    mdnsCompareName (fun i => msg[i]?) (text "axb") 0 = some 0 ∧
    mdnsCompareName (fun i => msg[i]?) (text "a.b") 5 = some 1 := by
  have ha : Encodes (fun i => [1, 97, 1, 98, 0, 0xc0, 0][i]?) 0 [[97], [98]] 5 :=
    .label (by decide) (by decide) ⟨rfl, rfl, trivial⟩
      (.label (by decide) (by decide) ⟨rfl, rfl, trivial⟩ (.root rfl))
  exact ⟨[1, 97, 1, 98, 0, 0xc0, 0], 5, 7, [[97], [98]], ha,
    .pointer rfl rfl rfl (by decide) ha, by decide, by decide, by decide +kernel, by decide +kernel⟩

end Xtcp.Mdns
