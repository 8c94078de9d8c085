import Xtcp.Mdns.Event
import Xtcp.Mdns.Sending
import Mathlib.Data.List.Forall2

namespace Xtcp.Mdns

def Note.foreign (k : Nat) : Note → Bool
  | .initSend => true
  | .conflict i _ => i != k
  | .tieBreakLost i => i != k
  | .started i _ => i != k
  | .entryLost i => i != k
  | .entryActive i => i != k
  | .sent _ => false

-- What an event that sends nothing can do to the entry at k.
inductive Change (t k : Nat) : Entry → Entry → List Note → Prop where
  | other (e : Entry) {notes : List Note} : (∀ n ∈ notes, n.foreign k) → Change t k e e notes
  | pend (e : Entry) (p : Pending) : e.state = .active → Change t k e { e with pending := p } []
  | calm (e : Entry) : Change t k e { e with pending := .none } []
  | readdress (e : Entry) (a : Addr) : Change t k e { e with ipaddr := a } []
  | conflict (e : Entry) : e.state ≠ .disabled → e.state ≠ .unused →
      Change t k e (revert k e).1 (revert k e).2
  | lost (e : Entry) {notes : List Note} : probing e → (∀ n ∈ notes, n = .initSend) →
      Change t k e (reprobe (rename e)) (.tieBreakLost k :: notes ++ [.entryLost k])
  | start (e : Entry) : e.state ≠ .unused →
      Change t k e (reprobe e) [.started k e.pending, .initSend]
  | tick (e : Entry) : Change t k e (periodicEntry t k e).1 (periodicEntry t k e).2
  | trans {e e' e'' : Entry} {ns ms : List Note} : Change t k e e' ns → Change t k e' e'' ms →
      Change t k e e'' (ns ++ ms)

theorem Change.refl (t k : Nat) (e : Entry) : Change t k e e [] :=
  .other e (by simp)

structure Changes (t : Nat) (table table' : Table) (notes : List Note) : Prop where
  length : table'.length = table.length
  get : ∀ k e, table[k]? = some e → ∃ e', table'[k]? = some e' ∧ Change t k e e' notes

section Changes

variable {t : Nat} {table table' table'' : Table} {ns ms : List Note}

theorem Changes.refl (t : Nat) (table : Table) : Changes t table table [] :=
  ⟨rfl, fun k e h => ⟨e, h, .refl t k e⟩⟩

theorem Changes.trans (h : Changes t table table' ns) (h' : Changes t table' table'' ms) :
    Changes t table table'' (ns ++ ms) := by
  refine ⟨h'.length.trans h.length, ?_⟩
  intro k e he
  obtain ⟨e', he', hc⟩ := h.get k e he
  obtain ⟨e'', he'', hc'⟩ := h'.get k e' he'
  exact ⟨e'', he'', hc.trans hc'⟩

end Changes

section EachEntry

variable {f : Nat → Entry → Option (Entry × List Note)}

theorem eachEntry_cons {i : Nat} {e : Entry} {es : Table} {r : Table × List Note}
    (h : eachEntry f i (e :: es) = some r) :
    ∃ x rs, f i e = some x ∧ eachEntry f (i + 1) es = some rs ∧ r = (x.1 :: rs.1, x.2 ++ rs.2) := by
  unfold eachEntry at h
  cases hx : f i e with
  | none => simp [hx] at h
  | some x =>
    cases hrs : eachEntry f (i + 1) es with
    | none => simp [hx, hrs] at h
    | some rs =>
      refine ⟨x, rs, rfl, rfl, ?_⟩
      simpa [hx, hrs] using h.symm

theorem eachEntry_length {i : Nat} {es : Table} {r : Table × List Note}
    (h : eachEntry f i es = some r) : r.1.length = es.length := by
  induction es generalizing i r with
  | nil =>
    obtain rfl : ([], []) = r := Option.some.inj h
    rfl
  | cons e es ih =>
    obtain ⟨x, rs, -, hrs, rfl⟩ := eachEntry_cons h
    simp [ih hrs]

theorem eachEntry_notes {i : Nat} {es : Table} {r : Table × List Note}
    (h : eachEntry f i es = some r) {n : Note} (hn : n ∈ r.2) :
    ∃ j e x, i ≤ j ∧ f j e = some x ∧ n ∈ x.2 := by
  induction es generalizing i r with
  | nil =>
    obtain rfl : ([], []) = r := Option.some.inj h
    cases hn
  | cons e es ih =>
    obtain ⟨x, rs, hx, hrs, rfl⟩ := eachEntry_cons h
    rcases List.mem_append.mp hn with hn | hn
    · exact ⟨i, e, x, Nat.le_refl i, hx, hn⟩
    · obtain ⟨j, e', x', hj, hx', hn'⟩ := ih hrs hn
      exact ⟨j, e', x', by omega, hx', hn'⟩

theorem eachEntry_get {i : Nat} {es : Table} {r : Table × List Note}
    (h : eachEntry f i es = some r) {k : Nat} {e : Entry} (he : es[k]? = some e) :
    ∃ x pre post, f (i + k) e = some x ∧ r.1[k]? = some x.1 ∧ r.2 = pre ++ x.2 ++ post ∧
      ∀ n ∈ pre ++ post, ∃ j e' y, j ≠ i + k ∧ f j e' = some y ∧ n ∈ y.2 := by
  induction es generalizing i k r with
  | nil => simp at he
  | cons e0 es ih =>
    obtain ⟨x0, rs, hx0, hrs, rfl⟩ := eachEntry_cons h
    cases k with
    | zero =>
      obtain rfl : e0 = e := by simpa using he
      refine ⟨x0, [], rs.2, hx0, by simp, by simp, ?_⟩
      intro n hn
      obtain ⟨j, e', y, hj, hy, hny⟩ := eachEntry_notes hrs (by simpa using hn)
      exact ⟨j, e', y, by omega, hy, hny⟩
    | succ k =>
      obtain ⟨x, pre, post, hx, hg, hr, hother⟩ := ih hrs (by simpa using he)
      have hi : i + 1 + k = i + (k + 1) := by omega
      rw [hi] at hx hother
      refine ⟨x, x0.2 ++ pre, post, hx, by simpa using hg, by simp [hr], ?_⟩
      intro n hn
      rw [List.append_assoc] at hn
      rcases List.mem_append.mp hn with hn | hn
      · exact ⟨i, e0, x0, by omega, hx0, hn⟩
      · exact hother n hn

theorem eachEntry_changes {t : Nat} {es : Table} {r : Table × List Note}
    (h : eachEntry f 0 es = some r)
    (hf : ∀ i e x, f i e = some x → Change t i e x.1 x.2 ∧ ∀ k ≠ i, ∀ n ∈ x.2, n.foreign k) :
    Changes t es r.1 r.2 := by
  refine ⟨eachEntry_length h, ?_⟩
  intro k e he
  obtain ⟨x, pre, post, hx, hg, hr, hother⟩ := eachEntry_get h he
  rw [Nat.zero_add] at hx hother
  have hforeign (n : Note) (hn : n ∈ pre ++ post) : n.foreign k := by
    obtain ⟨j, e', y, hj, hy, hny⟩ := hother n hn
    exact (hf j e' y hy).2 k hj.symm n hny
  refine ⟨x.1, hg, ?_⟩
  rw [hr]
  have hpre : Change t k e e pre := .other e fun n hn => hforeign n (List.mem_append_left _ hn)
  have hpost : Change t k x.1 x.1 post :=
    .other x.1 fun n hn => hforeign n (List.mem_append_right _ hn)
  exact (hpre.trans (hf k e x hx).1).trans hpost

end EachEntry

section Recv

variable {rd : Nat → Option UInt8} {fuel t : Nat}

def PendsTo (e e' : Entry) : Prop := e' = e ∨ e.state = .active ∧ ∃ p, e' = { e with pending := p }

theorem forall₂_pendsTo_refl (es : Table) : List.Forall₂ PendsTo es es := by
  induction es with
  | nil => exact .nil
  | cons e es ih => exact .cons (Or.inl rfl) ih

theorem pendName_pendsTo {e : Entry} (h : e.state = .active) (qtype : Nat) :
    PendsTo e (pendName qtype e) := by
  unfold pendName
  split
  · exact Or.inr ⟨h, _, rfl⟩
  · exact Or.inr ⟨h, _, rfl⟩

theorem mem_pendNotes {qtype : Nat} {e : Entry} {n : Note} (h : n ∈ pendNotes qtype e) :
    n = .initSend := by
  unfold pendNotes at h
  split at h
  · rcases List.mem_append.mp h with h | h
    · split at h <;> simp_all
    · split at h <;> simp_all
  · split at h <;> simp_all

theorem keep_eq_some {e : Entry} {o : Option (Table × List Note)} {r : Table × List Note}
    (h : keep e o = some r) : ∃ rs, o = some rs ∧ r = (e :: rs.1, rs.2) := by
  obtain ⟨rs, hrs, hr⟩ := Option.map_eq_some_iff.mp h
  exact ⟨rs, hrs, hr.symm⟩

def Pends (es : Table) (r : Table × List Note) : Prop :=
  List.Forall₂ PendsTo es r.1 ∧ ∀ n ∈ r.2, n = .initSend

theorem Pends.keep {es : Table} {r : Table × List Note} {e : Entry}
    {o : Option (Table × List Note)} (h : Mdns.keep e o = some r)
    (ih : ∀ rs, o = some rs → Pends es rs) : Pends (e :: es) r := by
  obtain ⟨rs, hrs, rfl⟩ := keep_eq_some h
  exact ⟨.cons (Or.inl rfl) (ih rs hrs).1, (ih rs hrs).2⟩

theorem ptrQuery_pends {queryName : Nat} {addr : Addr} {es : Table} {r : Table × List Note}
    (h : handleMdnsPtrQuery rd fuel queryName addr es = some r) : Pends es r := by
  induction es generalizing addr r with
  | nil =>
    obtain rfl : ([], []) = r := Option.some.inj h
    exact ⟨.nil, by simp⟩
  | cons e es ih =>
    have hpend (hs : e.state = .active) : Pends (e :: es) (pendPtr e :: es, [.initSend]) :=
      ⟨.cons (Or.inr ⟨hs, _, rfl⟩) (forall₂_pendsTo_refl es), by simp⟩
    unfold handleMdnsPtrQuery at h
    split at h
    · next hs =>
      split at h
      · split at h
        · cases h
        · split at h
          · obtain rfl := Option.some.inj h
            exact hpend hs
          · exact Pends.keep h fun rs => ih
      · split at h
        · cases h
        · split at h
          · obtain rfl := Option.some.inj h
            exact hpend hs
          · exact Pends.keep h fun rs => ih
    · exact Pends.keep h fun rs => ih

theorem nameQuery_pends {queryName qtype : Nat} {es : Table} {r : Table × List Note}
    (h : handleNameQuery rd queryName qtype es = some r) : Pends es r := by
  induction es generalizing r with
  | nil =>
    obtain rfl : ([], []) = r := Option.some.inj h
    exact ⟨.nil, by simp⟩
  | cons e es ih =>
    unfold handleNameQuery at h
    split at h
    · next hs =>
      split at h
      · cases h
      · split at h
        · obtain rfl := Option.some.inj h
          exact ⟨.cons (pendName_pendsTo hs qtype) (forall₂_pendsTo_refl es),
            fun n => mem_pendNotes⟩
        · exact Pends.keep h fun rs => ih
    · exact Pends.keep h fun rs => ih

theorem Pends.changes {es : Table} {r : Table × List Note} (h : Pends es r) (t : Nat) :
    Changes t es r.1 r.2 := by
  obtain ⟨hes, hn⟩ := h
  refine ⟨hes.length_eq.symm, ?_⟩
  intro k e he
  obtain ⟨hlt, rfl⟩ := List.getElem?_eq_some_iff.mp he
  have hlt' : k < r.1.length := hes.length_eq ▸ hlt
  refine ⟨r.1[k], List.getElem?_eq_getElem hlt', ?_⟩
  have hforeign (n : Note) (h : n ∈ r.2) : n.foreign k := by
    rw [hn n h]
    rfl
  rcases (List.forall₂_iff_get.mp hes).2 k hlt hlt' with heq | ⟨hs, p, heq⟩
  · simp only [List.get_eq_getElem] at heq
    rw [heq]
    exact .other _ hforeign
  · simp only [List.get_eq_getElem] at hs heq
    rw [heq]
    exact (Change.pend _ p hs).trans (.other _ hforeign)

theorem question_changes {addr : Addr} {dptr qry : Nat} {table : Table} {r : Table × List Note}
    (h : handleQuestion rd fuel addr dptr qry table = some r) : Changes t table r.1 r.2 := by
  unfold handleQuestion at h
  split at h
  · cases h
  · split at h
    · split at h
      · cases h
      · split at h
        · exact (ptrQuery_pends h).changes t
        · exact (nameQuery_pends h).changes t
    · obtain rfl := Option.some.inj h
      exact .refl t table

theorem revert_foreign {i k : Nat} (hk : k ≠ i) {e : Entry} {n : Note}
    (hn : n ∈ (revert i e).2) : n.foreign k := by
  have hne : (i != k) = true := by simpa using hk.symm
  unfold revert at hn
  rcases List.mem_append.mp hn with hn | hn
  · rcases List.mem_cons.mp hn with rfl | hn
    · exact hne
    · split at hn
      · rw [List.mem_singleton.mp hn]
        rfl
      · cases hn
  · split at hn
    · rw [List.mem_singleton.mp hn]
      exact hne
    · cases hn

theorem respondEntry_change {queryName ans i : Nat} {e : Entry} {x : Entry × List Note}
    (h : respondEntry rd queryName ans i e = some x) :
    Change t i e x.1 x.2 ∧ ∀ k ≠ i, ∀ n ∈ x.2, n.foreign k := by
  unfold respondEntry at h
  split at h
  · next hs =>
    split at h
    · cases h
    · split at h
      · split at h
        · cases h
        · obtain rfl := Option.some.inj h
          exact ⟨.conflict e hs.1 hs.2, fun k hk n hn => revert_foreign hk hn⟩
        · split at h
          · cases h
          · obtain rfl := Option.some.inj h
            refine ⟨?_, by simp⟩
            split
            · exact .calm e
            · exact .refl t i e
      · obtain rfl := Option.some.inj h
        exact ⟨.refl t i e, by simp⟩
  · obtain rfl := Option.some.inj h
    exact ⟨.refl t i e, by simp⟩

theorem authEntry_change {limit auth n i : Nat} {e : Entry} {x : Entry × List Note}
    (h : authEntry rd fuel limit auth n i e = some x) :
    Change t i e x.1 x.2 ∧ ∀ k ≠ i, ∀ n ∈ x.2, n.foreign k := by
  have hinit (m : Note) (hm : m ∈ if e.state ≠ .probeWait then [Note.initSend] else []) :
      m = .initSend := by
    split at hm
    · exact List.mem_singleton.mp hm
    · cases hm
  unfold authEntry at h
  split at h
  · next hp =>
    split at h
    · cases h
    · obtain rfl := Option.some.inj h
      refine ⟨.lost e hp hinit, ?_⟩
      intro k hk m hm
      have hne : (i != k) = true := by simpa using hk.symm
      rcases List.mem_append.mp hm with hm | hm
      · rcases List.mem_cons.mp hm with rfl | hm
        · exact hne
        · rw [hinit m hm]
          rfl
      · rw [List.mem_singleton.mp hm]
        exact hne
    · obtain rfl := Option.some.inj h
      exact ⟨.refl t i e, by simp⟩
  · obtain rfl := Option.some.inj h
    exact ⟨.refl t i e, by simp⟩

theorem questions_changes {limit n : Nat} {addr : Nat → Addr} {w w' : Walk}
    (h : recvQuestions rd fuel limit addr n w = some w') :
    ∃ ns, w'.notes = w.notes ++ ns ∧ Changes t w.table w'.table ns := by
  induction n generalizing w with
  | zero =>
    obtain rfl := Option.some.inj h
    exact ⟨[], by simp, .refl t _⟩
  | succ n ih =>
    unfold recvQuestions at h
    split at h
    · cases h
    · obtain rfl := Option.some.inj h
      exact ⟨[], by simp, .refl t _⟩
    · split at h
      · cases h
      · next r hr =>
        obtain ⟨ns, hns, hc⟩ := ih h
        refine ⟨r.2 ++ ns, ?_, (question_changes hr).trans hc⟩
        rw [hns]
        simp [Walk.then]

theorem answers_changes {limit n : Nat} {w w' : Walk}
    (h : recvAnswers rd fuel limit n w = some w') :
    ∃ ns, w'.notes = w.notes ++ ns ∧ Changes t w.table w'.table ns := by
  induction n generalizing w with
  | zero =>
    obtain rfl := Option.some.inj h
    exact ⟨[], by simp, .refl t _⟩
  | succ n ih =>
    unfold recvAnswers at h
    split at h
    · cases h
    · obtain rfl := Option.some.inj h
      exact ⟨[], by simp, .refl t _⟩
    · split at h
      · next r len hr _ =>
        obtain ⟨ns, hns, hc⟩ := ih h
        refine ⟨r.2 ++ ns, ?_, (eachEntry_changes hr fun i e x => respondEntry_change).trans hc⟩
        rw [hns]
        simp [Walk.then]
      · cases h

theorem recv_changes {len : Nat} {addr : Nat → Addr} {table : Table} {r : Table × List Note}
    (h : mdnsRecv rd fuel len addr table = some r) : Changes t table r.1 r.2 := by
  simp only [mdnsRecv, recvRecords, Option.bind_eq_bind, Option.bind_eq_some_iff,
    Option.pure_def, Option.some.injEq] at h
  obtain ⟨_, ⟨nq, -, na, -, nauth, -, w, hw, w', hw', rfl⟩, r', hr', rfl⟩ := h
  obtain ⟨ns, hns, hc⟩ := questions_changes hw
  obtain ⟨ms, hms, hc'⟩ := answers_changes hw'
  have ha : Changes t w'.table r'.1 r'.2 := eachEntry_changes hr' fun i e x => authEntry_change
  rw [hms, hns, List.nil_append]
  exact (hc.trans hc').trans ha

end Recv

theorem startEntries_changes {t : Nat} {w : World} {r : World × List Note}
    (h : mdnsStartEntries w = some r) : Changes t w.table r.1.table r.2 := by
  obtain ⟨r', hr', rfl⟩ := Option.map_eq_some_iff.mp h
  refine eachEntry_changes hr' ?_
  intro i e x hx
  obtain rfl := Option.some.inj hx
  unfold startEntry
  split
  · next hs =>
    refine ⟨.start e hs, ?_⟩
    intro k hk n hn
    rcases List.mem_cons.mp hn with rfl | hn
    · simpa [Note.foreign] using hk.symm
    · rw [List.mem_singleton.mp hn]
      rfl
  · exact ⟨.refl t i e, by simp⟩

theorem periodicEntry_foreign {t i k : Nat} (hk : k ≠ i) {e : Entry} {n : Note}
    (hn : n ∈ (periodicEntry t i e).2) : n.foreign k := by
  have hne : (i != k) = true := by simpa using hk.symm
  have hn' : n = .initSend ∨ n = .entryActive i := by
    unfold periodicEntry at hn
    split at hn
    · split at hn
      · split at hn <;> exact Or.inl (List.mem_singleton.mp hn)
      · cases hn
    · split at hn
      · split at hn
        · exact Or.inl (List.mem_singleton.mp hn)
        · exact Or.inr (List.mem_singleton.mp hn)
      · cases hn
    · cases hn
  rcases hn' with rfl | rfl
  · rfl
  · exact hne

theorem periodic_changes {t : Nat} {w : World} {r : World × List Note}
    (h : mdnsPeriodic t w = some r) : Changes t w.table r.1.table r.2 := by
  simp only [mdnsPeriodic, Option.bind_eq_bind, Option.bind_eq_some_iff, Option.pure_def,
    Option.some.injEq] at h
  obtain ⟨s, hs, r', hr', rfl⟩ := h
  have hstart : Changes t w.table s.1.table s.2 := by
    unfold startDue at hs
    split at hs
    · exact startEntries_changes hs
    · obtain rfl := Option.some.inj hs
      exact .refl t _
  refine hstart.trans (eachEntry_changes hr' ?_)
  intro i e x hx
  obtain rfl := Option.some.inj hx
  exact ⟨.tick e, fun k hk n hn => periodicEntry_foreign hk hn⟩

theorem start_changes (t : Nat) (ipaddr : Addr) (w : World) :
    Changes t w.table (mdnsStart ipaddr w).table [] := by
  refine ⟨by simp [mdnsStart], ?_⟩
  intro k e he
  refine ⟨{ e with ipaddr := ipaddr }, ?_, .readdress e ipaddr⟩
  simp [mdnsStart, he]

-- What an event does: a change of entries, or one call of mdns_send.
theorem handleEvent_cases {fuel t : Nat} {conn : Conn} {w w' : World} {notes : List Note}
    (h : mdnsHandleEvent fuel conn t w = some (w', notes)) :
    Changes t w.table w'.table notes ∨
    (w'.table = (mdnsSend t w.table).1 ∧ notes = ((mdnsSend t w.table).2.map Note.sent).toList) := by
  have hsend (h : sendEvent t w = some (w', notes)) : w'.table = (mdnsSend t w.table).1 ∧
      notes = ((mdnsSend t w.table).2.map Note.sent).toList := by
    unfold sendEvent at h
    simp only at h
    split at h
    · next hn =>
      obtain ⟨rfl, rfl⟩ := Prod.mk.inj (Option.some.inj h)
      exact ⟨rfl, by simp [hn]⟩
    · next s hs =>
      split at h
      · obtain ⟨rfl, rfl⟩ := Prod.mk.inj (Option.some.inj h)
        exact ⟨rfl, by simp [hs]⟩
      · cases h
  have hidle (h : some (w, ([] : List Note)) = some (w', notes)) :
      Changes t w.table w'.table notes := by
    obtain ⟨rfl, rfl⟩ := Prod.mk.inj (Option.some.inj h)
    exact .refl t _
  unfold mdnsHandleEvent at h
  split at h
  · obtain ⟨rfl, rfl⟩ := Prod.mk.inj (Option.some.inj h)
    exact Or.inl (start_changes t _ w)
  · exact Or.inl (hidle h)
  · exact Or.inl (hidle h)
  · split at h
    · split at h
      · exact Or.inl (periodic_changes h)
      · next d _ _ _ =>
        obtain ⟨r, hr, heq⟩ := Option.map_eq_some_iff.mp h
        obtain ⟨rfl, rfl⟩ := Prod.mk.inj heq
        exact Or.inl (recv_changes hr)
      · exact Or.inr (hsend h)
      · exact Or.inr (hsend h)
      · exact Or.inr (hsend h)
      · exact Or.inl (hidle h)
    · exact Or.inl (hidle h)

theorem handleEvent_get {fuel t k : Nat} {conn : Conn} {w w' : World} {notes : List Note}
    {e' : Entry} (h : mdnsHandleEvent fuel conn t w = some (w', notes))
    (hp : ∀ x ∈ w.table, x.state ≠ .probePartialSent) (he' : w'.table[k]? = some e') :
    ∃ e, w.table[k]? = some e ∧
      (Change t k e e' notes ∨ ∃ s, Sending t k e e' s ∧ notes = (s.map Note.sent).toList) := by
  obtain ⟨hlt, -⟩ := List.getElem?_eq_some_iff.mp he'
  rcases handleEvent_cases h with hc | ⟨ht, rfl⟩
  · rw [hc.length] at hlt
    have he := List.getElem?_eq_getElem hlt
    obtain ⟨x, hx, hch⟩ := hc.get k _ he
    obtain rfl : x = e' := Option.some.inj (hx.symm.trans he')
    exact ⟨_, he, Or.inl hch⟩
  · rw [ht, length_send] at hlt
    have he := List.getElem?_eq_getElem hlt
    obtain ⟨x, hx, hsend⟩ := send_get (t := t) he hp
    rw [← ht] at hx
    obtain rfl : x = e' := Option.some.inj (hx.symm.trans he')
    exact ⟨_, he, Or.inr ⟨_, hsend, rfl⟩⟩

end Xtcp.Mdns
