import Xtcp.Library.Decimal
import Xtcp.Library.TextBuffer
import Xtcp.Mdns.Receive

namespace Xtcp.Mdns

open TextBuffer Decimal

-- The do loop of mdns_itoa, with the place behind the last digit.
def digitLoop (limit : Nat) : Nat → Buffer → Nat → Nat → Option (Buffer × Nat)
  | 0, _, _, _ => none
  | fuel + 1, buf, str, x => do
    let buf ← poke limit buf str (UInt8.ofNat (x % 10) + 48)
    if x / 10 ≠ 0 then digitLoop limit fuel buf (str + 1) (x / 10) else return (buf, str + 1)

def swapLoop (limit : Nat) : Nat → Buffer → Nat → Nat → Option Buffer
  | 0, _, _, _ => none
  | fuel + 1, buf, str0, str =>
    if str0 < str then do
      let tmp := buf str
      let buf ← poke limit buf str (buf str0)
      let buf ← poke limit buf str0 tmp
      swapLoop limit fuel buf (str0 + 1) (str - 1)
    else some buf

-- mdns_itoa, in a buffer of limit characters. The result points behind the last digit.
def itoa (limit : Nat) (buf : Buffer) (str x : Nat) : Option (Buffer × Nat) := do
  let (buf, stop) ← digitLoop limit (x + 1) buf str x
  let buf ← swapLoop limit (stop + 1) buf str (stop - 1)
  return (buf, stop)

def strcpy (limit : Nat) (buf : Buffer) (name : Nat) : List UInt8 → Option Buffer
  | [] => poke limit buf name 0
  | c :: s => (poke limit buf name c).bind fun buf => strcpy limit buf (name + 1) s

def mdnsSuffix (limit : Nat) (e : Entry) (buf : Buffer) (name : Nat) : Option (Buffer × Nat) :=
  if e.counter ≠ 0 then
    if e.entryType = .srvEntry then do
      let buf ← poke limit buf name 32
      let buf ← poke limit buf (name + 1) 40
      let (buf, name) ← itoa limit buf (name + 2) e.counter
      let buf ← poke limit buf name 41
      return (buf, name + 1)
    else do
      let buf ← poke limit buf name 45
      itoa limit buf (name + 1) e.counter
  else some (buf, name)

-- update_name, on the characters of e->name.
def writeName (e : Entry) (buf : Buffer) : Option Buffer := do
  let buf ← strcpy mdnsMaxNameLength buf 0 e.namePrefix
  let (buf, name) ← mdnsSuffix mdnsMaxNameLength e buf e.namePrefix.length
  let buf ← poke mdnsMaxNameLength buf name dot
  strcpy mdnsMaxNameLength buf (name + 1) e.namePostfix

section Loops

variable {limit : Nat} {buf : Buffer} {l : List UInt8}

theorem digitLoop_begins {fuel x : Nat} (hfuel : x < fuel) (h : Begins buf l)
    (hfit : l.length + (itoaLoop fuel x).length ≤ limit) :
    ∃ buf', digitLoop limit fuel buf l.length x =
        some (buf', (l ++ itoaLoop fuel x).length) ∧ Begins buf' (l ++ itoaLoop fuel x) := by
  induction fuel generalizing x buf l with
  | zero => exact absurd hfuel (Nat.not_lt_zero x)
  | succ fuel ih =>
    rw [itoaLoop, List.length_cons] at hfit
    obtain ⟨buf₁, hpoke, h₁⟩ :=
      poke_snoc limit h (by omega) (UInt8.ofNat (x % 10) + 48)
    rw [digitLoop, itoaLoop, hpoke]
    simp only [Option.bind_eq_bind, Option.bind_some]
    by_cases hx : x / 10 = 0
    · rw [if_neg (not_not_intro hx), if_neg (not_not_intro hx)]
      exact ⟨buf₁, by simp, h₁⟩
    · rw [if_pos hx] at hfit ⊢
      rw [if_pos hx]
      have hlen : (l ++ [UInt8.ofNat (x % 10) + 48]).length = l.length + 1 := by simp
      obtain ⟨buf₂, hrest, h₂⟩ := ih (by omega : x / 10 < fuel) h₁ (by omega)
      rw [hlen] at hrest
      rw [List.append_assoc, List.singleton_append] at hrest h₂
      exact ⟨buf₂, hrest, h₂⟩

-- The two pointers stand at the ends of what is still to be turned round.
theorem swapLoop_begins (limit fuel : Nat) (m : List UInt8) {r : List UInt8}
    (hfuel : m.length < fuel) (h : Begins buf (l ++ m ++ r))
    (hfit : l.length + m.length ≤ limit) :
    ∃ buf', swapLoop limit fuel buf l.length (l.length + m.length - 1) = some buf' ∧
      Begins buf' (l ++ m.reverse ++ r) := by
  induction m using List.bidirectionalRec generalizing fuel buf l r with
  | nil =>
    obtain ⟨fuel, rfl⟩ : ∃ k, fuel = k + 1 := ⟨fuel - 1, by omega⟩
    rw [swapLoop, if_neg (by simp)]
    exact ⟨buf, rfl, h⟩
  | singleton a =>
    obtain ⟨fuel, rfl⟩ : ∃ k, fuel = k + 1 := ⟨fuel - 1, by omega⟩
    rw [swapLoop, if_neg (by simp)]
    exact ⟨buf, rfl, h⟩
  | cons_append a m b ih =>
    obtain ⟨fuel, rfl⟩ : ∃ k, fuel = k + 1 := ⟨fuel - 1, by omega⟩
    have hlen : (a :: (m ++ [b])).length = m.length + 2 := by simp
    rw [hlen] at hfuel hfit ⊢
    have hstr : l.length + (m.length + 2) - 1 = (l ++ a :: m).length := by simp
    have ha : buf l.length = a := Begins.get (l := l) (r := a :: (m ++ [b]) ++ r) (by simpa using h) rfl
    have hb : buf (l ++ a :: m).length = b :=
      Begins.get (l := l ++ a :: m) (r := b :: r) (by simpa using h) rfl
    have h₁ : Begins (Function.update buf (l ++ a :: m).length a) (l ++ a :: (m ++ a :: r)) := by
      have := Begins.update (l := l ++ a :: m) (c := b) (d := a) (r := r) (by simpa using h)
      simpa using this
    have h₂ := h₁.update (d := b)
    rw [show l ++ b :: (m ++ a :: r) = l ++ [b] ++ m ++ a :: r by simp] at h₂
    rw [swapLoop, hstr, if_pos (by simp), ha, hb, poke_eq (by simp; omega)]
    simp only [Option.bind_eq_bind, Option.bind_some]
    rw [poke_eq (by omega)]
    simp only [Option.bind_some]
    obtain ⟨buf', hrest, h'⟩ := ih fuel (l := l ++ [b]) (r := a :: r) (by omega) h₂
      (by simp; omega)
    refine ⟨buf', ?_, by simpa using h'⟩
    have hl : (l ++ [b]).length = l.length + 1 := by simp
    have hstop : (l ++ a :: m).length - 1 = l.length + 1 + m.length - 1 := by
      rw [List.length_append, List.length_cons]
      omega
    rw [hstop, ← hl]
    exact hrest

theorem itoa_begins (limit x : Nat) (h : Begins buf l) (hfit : (l ++ mdnsItoa x).length ≤ limit) :
    ∃ buf', itoa limit buf l.length x = some (buf', (l ++ mdnsItoa x).length) ∧
      Begins buf' (l ++ mdnsItoa x) := by
  rw [mdnsItoa, List.length_append, List.length_reverse] at hfit
  obtain ⟨buf₁, hdigits, h₁⟩ := digitLoop_begins (Nat.lt_succ_self x) h hfit
  have hlen : (l ++ itoaLoop (x + 1) x).length = l.length + (itoaLoop (x + 1) x).length :=
    List.length_append
  obtain ⟨buf₂, hswap, h₂⟩ := swapLoop_begins limit
    ((l ++ itoaLoop (x + 1) x).length + 1) (itoaLoop (x + 1) x) (r := []) (by omega) (by simpa using h₁) hfit
  refine ⟨buf₂, ?_, by simpa [mdnsItoa] using h₂⟩
  rw [itoa, hdigits]
  simp only [Option.bind_eq_bind, Option.bind_some]
  rw [hlen] at hswap ⊢
  rw [hswap, mdnsItoa, List.length_append, List.length_reverse]
  rfl

theorem strcpy_begins (limit : Nat) (s : List UInt8) (h : Begins buf l)
    (hfit : l.length + s.length < limit) :
    ∃ buf', strcpy limit buf l.length s = some buf' ∧ Begins buf' (l ++ (s ++ [0])) := by
  induction s generalizing buf l with
  | nil => exact poke_snoc limit h hfit 0
  | cons c s ih =>
    rw [List.length_cons] at hfit
    obtain ⟨buf₁, hpoke, h₁⟩ := poke_snoc limit h (by omega) c
    have hlen : (l ++ [c]).length = l.length + 1 := List.length_append
    obtain ⟨buf₂, hrest, h₂⟩ := ih h₁ (by omega)
    rw [hlen] at hrest
    rw [List.append_assoc, List.singleton_append] at h₂
    rw [strcpy, hpoke, Option.bind_some]
    exact ⟨buf₂, hrest, h₂⟩

theorem mdnsSuffix_begins (limit : Nat) (e : Entry) (h : Begins buf l)
    (hfit : l.length + (nameSuffix e.entryType e.counter).length ≤ limit) :
    ∃ buf', mdnsSuffix limit e buf l.length =
        some (buf', (l ++ nameSuffix e.entryType e.counter).length) ∧
      Begins buf' (l ++ nameSuffix e.entryType e.counter) := by
  have hopen : text " (" = [32, 40] := rfl
  have hclose : text ")" = [41] := rfl
  have hdash : text "-" = [45] := rfl
  rw [mdnsSuffix]
  rw [nameSuffix] at hfit ⊢
  split_ifs at hfit ⊢ with hc ht
  · rw [hopen, hclose] at hfit ⊢
    simp only [List.length_append, List.length_cons, List.length_nil] at hfit
    obtain ⟨buf₁, hpoke₁, h₁⟩ := poke_snoc limit h (by omega) 32
    obtain ⟨buf₂, hpoke₂, h₂⟩ := poke_snoc limit h₁ (by simp; omega) 40
    obtain ⟨buf₃, hitoa, h₃⟩ := itoa_begins limit e.counter h₂ (by simp; omega)
    obtain ⟨buf₄, hpoke₄, h₄⟩ := poke_snoc limit h₃ (by simp; omega) 41
    have hlen₁ : (l ++ [32]).length = l.length + 1 := List.length_append
    have hlen₂ : (l ++ [32] ++ [40]).length = l.length + 2 := by simp
    rw [hlen₁] at hpoke₂
    rw [hlen₂] at hitoa
    rw [hpoke₁]
    simp only [Option.bind_eq_bind, Option.bind_some]
    rw [hpoke₂]
    simp only [Option.bind_some]
    rw [hitoa]
    simp only [Option.bind_some]
    rw [hpoke₄]
    exact ⟨buf₄, by simp; omega, by simpa using h₄⟩
  · rw [hdash] at hfit ⊢
    simp only [List.length_append, List.length_cons, List.length_nil] at hfit
    obtain ⟨buf₁, hpoke₁, h₁⟩ := poke_snoc limit h (by omega) 45
    obtain ⟨buf₂, hitoa, h₂⟩ := itoa_begins limit e.counter h₁ (by simp; omega)
    have hlen₁ : (l ++ [45]).length = l.length + 1 := List.length_append
    rw [hlen₁] at hitoa
    rw [hpoke₁]
    simp only [Option.bind_eq_bind, Option.bind_some]
    rw [hitoa, ← List.append_assoc]
    exact ⟨buf₂, rfl, h₂⟩
  · exact ⟨buf, by simp, by simpa using h⟩

theorem writeName_begins (e : Entry) (buf : Buffer)
    (hfit : (updateName e).name.length < mdnsMaxNameLength) :
    ∃ buf', writeName e buf = some buf' ∧ Begins buf' ((updateName e).name ++ [0]) := by
  simp only [updateName, List.length_append, List.length_cons] at hfit
  obtain ⟨buf₁, hcpy₁, h₁⟩ := strcpy_begins mdnsMaxNameLength e.namePrefix
    (begins_nil buf) (by rw [List.length_nil]; omega)
  -- The terminator of the first copy is overwritten.
  have h₁ : Begins buf₁ e.namePrefix := Begins.append_left h₁
  obtain ⟨buf₂, hsuffix, h₂⟩ := mdnsSuffix_begins mdnsMaxNameLength e h₁ (by omega)
  obtain ⟨buf₃, hpoke, h₃⟩ := poke_snoc mdnsMaxNameLength h₂
    (by rw [List.length_append]; omega) dot
  have hlen : (e.namePrefix ++ nameSuffix e.entryType e.counter ++ [dot]).length =
      (e.namePrefix ++ nameSuffix e.entryType e.counter).length + 1 := List.length_append
  obtain ⟨buf₄, hcpy₄, h₄⟩ := strcpy_begins mdnsMaxNameLength e.namePostfix h₃
    (by rw [hlen, List.length_append]; omega)
  rw [hlen] at hcpy₄
  rw [List.length_nil] at hcpy₁
  refine ⟨buf₄, ?_, by simpa [updateName] using h₄⟩
  rw [writeName, hcpy₁]
  simp only [Option.bind_eq_bind, Option.bind_some]
  rw [hsuffix]
  simp only [Option.bind_some]
  rw [hpoke]
  exact hcpy₄

end Loops

section Numerals

theorem represents_itoaLoop {fuel x : Nat} (h : x < fuel) :
    Represents (itoaLoop fuel x).reverse x := by
  induction fuel generalizing x with
  | zero => exact absurd h (Nat.not_lt_zero x)
  | succ fuel ih =>
    have hmod : x % 10 < 10 := Nat.mod_lt x (by decide)
    rw [itoaLoop]
    split_ifs with hx
    · have hsnoc := (ih (by omega : x / 10 < fuel)).snoc hx hmod
      rw [Nat.div_add_mod] at hsnoc
      rw [List.reverse_cons]
      exact hsnoc
    · have hone := Represents.singleton hmod
      rw [show x % 10 = x by omega] at hone ⊢
      exact hone

theorem represents_itoa (x : Nat) : Represents (mdnsItoa x) x :=
  represents_itoaLoop (Nat.lt_succ_self x)

theorem mdnsItoa_inj {x y : Nat} (h : mdnsItoa x = mdnsItoa y) : x = y :=
  (represents_itoa x).inj (h ▸ represents_itoa y)

theorem nameSuffix_ne_nil {entryType : EntryType} {c : Nat} (h : c ≠ 0) :
    nameSuffix entryType c ≠ [] := by
  rw [nameSuffix, if_pos h]
  split_ifs
  · exact List.append_ne_nil_of_right_ne_nil _ (List.cons_ne_nil _ _)
  · exact List.append_ne_nil_of_left_ne_nil (List.cons_ne_nil _ _) _

theorem nameSuffix_zero (entryType : EntryType) : nameSuffix entryType 0 = [] := rfl

-- The numeral stands between two texts that do not depend on the counter.
theorem nameSuffix_inj {entryType : EntryType} {c d : Nat}
    (h : nameSuffix entryType c = nameSuffix entryType d) : c = d := by
  by_cases hc : c = 0
  · by_contra hne
    rw [hc, nameSuffix_zero] at h
    exact nameSuffix_ne_nil (fun hd => hne (hc.trans hd.symm)) h.symm
  by_cases hd : d = 0
  · rw [hd, nameSuffix_zero] at h
    exact absurd h (nameSuffix_ne_nil hc)
  rw [nameSuffix, nameSuffix, if_pos hc, if_pos hd] at h
  split_ifs at h
  · exact mdnsItoa_inj (List.append_cancel_left (List.append_cancel_right h))
  · exact mdnsItoa_inj (List.append_cancel_left h)

theorem updateName_inj (e : Entry) {c d : Nat}
    (h : (updateName { e with counter := c }).name = (updateName { e with counter := d }).name) :
    c = d :=
  nameSuffix_inj (List.append_cancel_left (List.append_cancel_right h))

end Numerals

section Renaming

-- What each conflict of an entry makes of it.
def renamed (e : Entry) : Nat → Entry
  | 0 => e
  | n + 1 => rename (renamed e n)

theorem renamed_succ_eq (e : Entry) (n : Nat) :
    renamed e (n + 1) = updateName { e with counter := e.counter + (n + 1) } := by
  induction n with
  | zero => rfl
  | succ n ih =>
    rw [renamed, ih]
    rfl

theorem renamed_eq {e : Entry} (h : e.name = (updateName e).name) (n : Nat) :
    (renamed e n).name = (updateName { e with counter := e.counter + n }).name := by
  cases n with
  | zero => exact h
  | succ n => rw [renamed_succ_eq]

end Renaming

theorem conflict_names :
    (∀ (limit : Nat) (buf : Buffer) (l : List UInt8) (x : Nat), Begins buf l →
      (l ++ mdnsItoa x).length ≤ limit →
        Represents (mdnsItoa x) x ∧
          ∃ buf', itoa limit buf l.length x = some (buf', (l ++ mdnsItoa x).length) ∧
            Begins buf' (l ++ mdnsItoa x)) ∧
    (∀ (e : Entry) (buf : Buffer), (updateName e).name.length < mdnsMaxNameLength →
      ∃ buf', writeName e buf = some buf' ∧
        Begins buf' (e.namePrefix ++ nameSuffix e.entryType e.counter ++ dot :: e.namePostfix ++
          [0])) ∧
    (∀ (e : Entry) (c d : Nat), c ≠ d →
      (updateName { e with counter := c }).name ≠ (updateName { e with counter := d }).name) ∧
    ∀ (e : Entry) (m n : Nat), e.name = (updateName e).name → m ≠ n →
      (renamed e m).name ≠ (renamed e n).name := by
  refine ⟨fun limit buf l x h hfit => ⟨represents_itoa x, itoa_begins limit x h hfit⟩,
    fun e buf hfit => writeName_begins e buf hfit, fun e c d hne h => hne (updateName_inj e h), ?_⟩
  intro e m n he hne h
  rw [renamed_eq he, renamed_eq he] at h
  exact hne (Nat.add_left_cancel (updateName_inj e h))

def kitchen : Entry :=
  { updateName { Entry.zero with namePrefix := text "oven", namePostfix := text "local" } with
    entryType := .nameEntry }

theorem conflict_names_kitchen :
    (∃ buf', itoa 3 (fun _ => 0) 0 120 = some (buf', 3)) ∧
      (∃ buf', writeName kitchen (fun _ => 0) = some buf') ∧
      (renamed kitchen 1).name ≠ (renamed kitchen 11).name := by
  obtain ⟨_, buf₁, h₁, _⟩ := conflict_names.1 3 (fun _ => 0) [] 120 (begins_nil _) (by decide)
  obtain ⟨buf₂, h₂, _⟩ := conflict_names.2.1 kitchen (fun _ => 0) (by decide)
  exact ⟨⟨buf₁, h₁⟩, ⟨buf₂, h₂⟩, conflict_names.2.2.2 kitchen 1 11 rfl (by decide)⟩

end Xtcp.Mdns
