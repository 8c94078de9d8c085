import Xtcp.Mdns.Send

namespace Xtcp.Mdns

def about (k : Nat) (part : Section) (parts : List Part) : List Part :=
  parts.filter fun p => p.entry == k && p.part == part

@[simp] theorem about_nil (k : Nat) (part : Section) : about k part [] = [] := rfl

@[simp] theorem about_append (k : Nat) (part : Section) (ps qs : List Part) :
    about k part (ps ++ qs) = about k part ps ++ about k part qs := List.filter_append ..

theorem about_cons (k : Nat) (part : Section) (p : Part) (ps : List Part) :
    about k part (p :: ps) =
      if p.entry = k ∧ p.part = part then p :: about k part ps else about k part ps := by
  simp [about, List.filter_cons]

theorem about_eq_nil {k : Nat} {part : Section} {ps : List Part}
    (h : ∀ p ∈ ps, p.entry ≠ k ∨ p.part ≠ part) : about k part ps = [] := by
  refine List.filter_eq_nil_iff.mpr ?_
  intro p hp
  rcases h p hp with h | h <;> simp [h]

theorem about_eq_self {k : Nat} {part : Section} {ps : List Part}
    (h : ∀ p ∈ ps, p.entry = k ∧ p.part = part) : about k part ps = ps := by
  refine List.filter_eq_self.mpr ?_
  intro p hp
  obtain ⟨he, hs⟩ := h p hp
  simp [he, hs]

section Counts

variable {part other : Section} {ps : List Part}

theorem count_append (part : Section) (ps qs : List Part) :
    count part (ps ++ qs) = count part ps + count part qs := by
  rw [count, List.filter_append, List.length_append]
  rfl

theorem count_all (h : ∀ p ∈ ps, p.part = part) : count part ps = ps.length := by
  rw [count, List.filter_eq_self.mpr fun p hp => beq_iff_eq.mpr (h p hp)]

theorem count_none (h : ∀ p ∈ ps, p.part = part) (hne : part ≠ other) : count other ps = 0 := by
  rw [count, List.filter_eq_nil_iff.mpr fun p hp => by simp [h p hp, hne]]
  rfl

theorem numAnswers_all (h : ∀ p ∈ ps, p.part = .announcement ∨ p.part = .answer) :
    numAnswers ps = ps.length := by
  induction ps with
  | nil => rfl
  | cons p ps ih =>
    have ih := ih fun q hq => h q (List.mem_cons_of_mem _ hq)
    unfold numAnswers count at ih ⊢
    rw [List.length_cons, ← ih]
    rcases h p List.mem_cons_self with hp | hp <;> simp [hp] <;> omega

end Counts

section Parts

variable {canonical : Option (List UInt8)} {i : Nat} {part : Section} {e : Entry} {p : Part}

theorem srvPart_entry : (srvPart canonical i part e).entry = i := by
  cases canonical <;> rfl

theorem srvPart_part : (srvPart canonical i part e).part = part := by
  cases canonical <;> rfl

theorem mem_claimParts (h : p ∈ claimParts canonical i part e) : p.entry = i ∧ p.part = part := by
  unfold claimParts at h
  split at h
  · rcases List.mem_cons.mp h with rfl | h
    · exact ⟨rfl, rfl⟩
    · rcases List.mem_cons.mp h with rfl | h
      · exact ⟨srvPart_entry, srvPart_part⟩
      · rw [List.mem_singleton.mp h]
        exact ⟨rfl, rfl⟩
  · rw [List.mem_singleton.mp h]
    exact ⟨rfl, rfl⟩

theorem mem_announceParts (h : p ∈ announceParts canonical i e) :
    e.state = .announceWait ∧ p.entry = i ∧ p.part = .announcement := by
  unfold announceParts at h
  split at h
  · next hs => exact ⟨hs, mem_claimParts h⟩
  · cases h

theorem mem_answerParts (h : p ∈ answerParts canonical i e) :
    e.pending ≠ .none ∧ p.entry = i ∧ p.part = .answer := by
  have hpos {b : Bool} {q : Part} (h : p ∈ if b then [q] else []) : b = true ∧ p = q := by
    cases b
    · cases h
    · exact ⟨rfl, List.mem_singleton.mp h⟩
  unfold answerParts at h
  rcases List.mem_append.mp h with h | h
  · rcases List.mem_append.mp h with h | h
    · rcases List.mem_append.mp h with h | h
      · obtain ⟨hb, rfl⟩ := hpos h
        refine ⟨?_, rfl, rfl⟩
        intro hn
        simp [hn, Pending.none] at hb
      · obtain ⟨hb, rfl⟩ := hpos h
        refine ⟨?_, rfl, rfl⟩
        intro hn
        simp [hn, Pending.none] at hb
    · obtain ⟨hb, rfl⟩ := hpos h
      refine ⟨?_, srvPart_entry, srvPart_part⟩
      intro hn
      simp [hn, Pending.none] at hb
  · obtain ⟨hb, rfl⟩ := hpos h
    refine ⟨?_, rfl, rfl⟩
    intro hn
    simp [hn, Pending.none] at hb

theorem mem_responseParts (h : p ∈ responseParts canonical i e) :
    p.entry = i ∧ (p.part = .announcement ∨ p.part = .answer) := by
  rcases List.mem_append.mp h with h | h
  · exact ⟨(mem_announceParts h).2.1, Or.inl (mem_announceParts h).2.2⟩
  · exact ⟨(mem_answerParts h).2.1, Or.inr (mem_answerParts h).2.2⟩

theorem about_responseParts :
    about i .announcement (responseParts canonical i e) = announceParts canonical i e := by
  have ha : about i .announcement (answerParts canonical i e) = [] := by
    refine about_eq_nil ?_
    intro q hq
    simp [(mem_answerParts hq).2.2]
  rw [responseParts, about_append, ha, List.append_nil]
  exact about_eq_self fun q hq => (mem_announceParts hq).2

end Parts

section Probes

theorem mem_askProbes {i used : Nat} {es : Table} {p : Part} (h : p ∈ (askProbes i used es).2) :
    i ≤ p.entry ∧ p.part = .question := by
  induction es generalizing i used with
  | nil => cases h
  | cons e es ih =>
    unfold askProbes at h
    split at h
    · rcases List.mem_cons.mp h with rfl | h
      · exact ⟨Nat.le_refl i, rfl⟩
      · obtain ⟨hi, hp⟩ := ih h
        exact ⟨by omega, hp⟩
    · obtain ⟨hi, hp⟩ := ih h
      exact ⟨by omega, hp⟩

theorem about_askProbes_of_lt {i k used : Nat} {es : Table} (h : k < i) (part : Section) :
    about k part (askProbes i used es).2 = [] := by
  refine about_eq_nil ?_
  intro p hp
  have := (mem_askProbes hp).1
  exact Or.inl (by omega)

theorem askProbes_get (i used : Nat) {k : Nat} {es : Table} {e : Entry} (h : es[k]? = some e) :
    ((askProbes i used es).1[k]? = some e ∧
      about (i + k) .question (askProbes i used es).2 = []) ∨
    (e.state = .probeWait ∧
      (askProbes i used es).1[k]? = some { e with state := .probePartialSent } ∧
      about (i + k) .question (askProbes i used es).2 = [questionPart (i + k) e]) := by
  induction es generalizing i used k with
  | nil => simp at h
  | cons x es ih =>
    unfold askProbes
    cases k with
    | zero =>
      obtain rfl : x = e := by simpa using h
      split
      · next hw =>
        refine Or.inr ⟨hw.1, by simp, ?_⟩
        simp only [about_cons, Nat.add_zero]
        rw [if_pos ⟨rfl, rfl⟩, about_askProbes_of_lt (Nat.lt_succ_self i)]
      · exact Or.inl ⟨by simp, about_askProbes_of_lt (Nat.lt_succ_self i) _⟩
    | succ k =>
      have hk : es[k]? = some e := by simpa using h
      have hi : i + (k + 1) = i + 1 + k := by omega
      split
      · have hq : about (i + (k + 1)) .question (questionPart i x ::
            (askProbes (i + 1) (used + (mdnsSendProbe x).length) es).2) =
            about (i + 1 + k) .question
              (askProbes (i + 1) (used + (mdnsSendProbe x).length) es).2 := by
          rw [about_cons, if_neg, hi]
          simp [questionPart]
        simp only [List.getElem?_cons_succ, hq]
        rw [hi]
        exact ih _ _ hk
      · simp only [List.getElem?_cons_succ]
        rw [hi]
        exact ih _ _ hk

theorem length_askProbes (i used : Nat) (es : Table) :
    (askProbes i used es).1.length = es.length := by
  induction es generalizing i used with
  | nil => rfl
  | cons e es ih =>
    unfold askProbes
    split <;> simp [ih]

theorem mem_authorities {canonical : Option (List UInt8)} {table : Table} {p : Part}
    (h : p ∈ authorities canonical table) : p.part = .authority := by
  obtain ⟨ps, hps, hp⟩ := List.mem_flatten.mp h
  obtain ⟨i, hi, rfl⟩ := List.mem_mapIdx.mp hps
  unfold probeParts at hp
  split at hp
  · exact (mem_claimParts hp).2
  · cases hp

theorem count_probes (canonical : Option (List UInt8)) (es table : Table) (used : Nat) :
    numProbes ((askProbes 0 used es).2 ++ authorities canonical table) =
        (askProbes 0 used es).2.length ∧
      numAuthRecords ((askProbes 0 used es).2 ++ authorities canonical table) =
        (authorities canonical table).length := by
  have hasked : ∀ p ∈ (askProbes 0 used es).2, p.part = .question :=
    fun p hp => (mem_askProbes hp).2
  have hauth : ∀ p ∈ authorities canonical table, p.part = .authority :=
    fun p hp => mem_authorities hp
  unfold numProbes numAuthRecords
  rw [count_append, count_append, count_all hasked, count_none hauth (by decide),
    count_none hasked (by decide), count_all hauth]
  exact ⟨rfl, Nat.zero_add _⟩

theorem about_authorities (canonical : Option (List UInt8)) (table : Table) (k : Nat)
    {part : Section} (h : part ≠ .authority) : about k part (authorities canonical table) = [] := by
  refine about_eq_nil ?_
  intro p hp
  rw [mem_authorities hp]
  exact Or.inr h.symm

theorem probes_get {t k : Nat} {table : Table} {e : Entry} (h : table[k]? = some e)
    (hp : e.state ≠ .probePartialSent) :
    ((mdnsSendProbes t table).1[k]? = some e ∧
      about k .question (mdnsSendProbes t table).2 = []) ∨
    (e.state = .probeWait ∧
      (mdnsSendProbes t table).1[k]? = some (probeSent t { e with state := .probePartialSent }) ∧
      about k .question (mdnsSendProbes t table).2 = [questionPart k e]) := by
  have hq : about k .question (authorities (mdnsGetCanonicalName (askProbes 0 hdrSize table).1)
      (askProbes 0 hdrSize table).1) = [] := about_authorities _ _ _ (by simp)
  simp only [mdnsSendProbes, about_append, hq, List.append_nil, List.getElem?_map]
  rcases askProbes_get 0 hdrSize h with ⟨hg, ha⟩ | ⟨hw, hg, ha⟩
  · refine Or.inl ⟨?_, by simpa using ha⟩
    rw [hg]
    simp [probeSent, hp]
  · refine Or.inr ⟨hw, ?_, by simpa using ha⟩
    rw [hg]
    rfl

theorem length_probes (t : Nat) (table : Table) :
    (mdnsSendProbes t table).1.length = table.length := by
  simp [mdnsSendProbes, length_askProbes]

theorem about_probes_announcement (t k : Nat) (table : Table) :
    about k .announcement (mdnsSendProbes t table).2 = [] := by
  rw [mdnsSendProbes, about_append, about_authorities _ _ _ (by simp), List.append_nil]
  refine about_eq_nil ?_
  intro p hp
  simp [(mem_askProbes hp).2]

theorem probes_eq_self {t : Nat} {table : Table}
    (hp : ∀ e ∈ table, e.state ≠ .probePartialSent)
    (hn : ¬ 0 < numProbes (mdnsSendProbes t table).2) : (mdnsSendProbes t table).1 = table := by
  have hq (k : Nat) : about k .question (mdnsSendProbes t table).2 = [] := by
    refine about_eq_nil ?_
    intro p hm
    by_contra hc
    have hp : p.part = .question := by
      by_contra h
      exact hc (Or.inr h)
    refine hn (List.length_pos_of_mem (a := p) ?_)
    simp [hm, hp]
  refine List.ext_getElem? ?_
  intro k
  cases hk : table[k]? with
  | none =>
    rw [List.getElem?_eq_none_iff] at hk ⊢
    rwa [length_probes]
  | some e =>
    rcases probes_get hk (hp e (List.mem_of_getElem? hk)) with ⟨hg, -⟩ | ⟨-, -, ha⟩
    · exact hg
    · rw [hq k] at ha
      cases ha

end Probes

section Responses

variable {canonical : Option (List UInt8)} {t : Nat}

theorem mem_respond {i used : Nat} {es : Table} {p : Part}
    (h : p ∈ (respond canonical t used i es).2) :
    i ≤ p.entry ∧ (p.part = .announcement ∨ p.part = .answer) := by
  induction es generalizing i used with
  | nil => cases h
  | cons e es ih =>
    unfold respond at h
    split at h
    · rcases List.mem_append.mp h with h | h
      · obtain ⟨he, hp⟩ := mem_responseParts h
        exact ⟨by omega, hp⟩
      · obtain ⟨hi, hp⟩ := ih h
        exact ⟨by omega, hp⟩
    · obtain ⟨hi, hp⟩ := ih h
      exact ⟨by omega, hp⟩

def entryParts (k : Nat) (parts : List Part) : List Part := parts.filter fun p => p.entry == k

theorem entryParts_append (k : Nat) (ps qs : List Part) :
    entryParts k (ps ++ qs) = entryParts k ps ++ entryParts k qs := List.filter_append ..

theorem entryParts_eq_nil {k : Nat} {ps : List Part} (h : ∀ p ∈ ps, p.entry ≠ k) :
    entryParts k ps = [] := by
  refine List.filter_eq_nil_iff.mpr ?_
  intro p hp
  simpa using h p hp

theorem entryParts_responseParts (i : Nat) (e : Entry) :
    entryParts i (responseParts canonical i e) = responseParts canonical i e := by
  refine List.filter_eq_self.mpr ?_
  intro p hp
  simpa using (mem_responseParts hp).1

theorem about_eq_filter (k : Nat) (part : Section) (ps : List Part) :
    about k part ps = (entryParts k ps).filter fun p => p.part == part := by
  rw [about, entryParts, List.filter_filter]
  exact List.filter_congr fun p _ => Bool.and_comm ..

theorem entryParts_respond_of_lt {i k used : Nat} {es : Table} (h : k < i) :
    entryParts k (respond canonical t used i es).2 = [] := by
  refine entryParts_eq_nil ?_
  intro p hp
  have := (mem_respond hp).1
  omega

theorem respond_get (canonical : Option (List UInt8)) (t i used : Nat) {k : Nat} {es : Table}
    {e : Entry} (h : es[k]? = some e) :
    ((respond canonical t used i es).1[k]? = some e ∧
      entryParts (i + k) (respond canonical t used i es).2 = []) ∨
    (e.state ≠ .unused ∧ (respond canonical t used i es).1[k]? = some (responded t e) ∧
      entryParts (i + k) (respond canonical t used i es).2 =
        responseParts canonical (i + k) e) := by
  induction es generalizing i used k with
  | nil => simp at h
  | cons x es ih =>
    unfold respond
    cases k with
    | zero =>
      obtain rfl : x = e := by simpa using h
      split
      · next hw =>
        refine Or.inr ⟨hw.1, by simp, ?_⟩
        simp only [entryParts_append, Nat.add_zero]
        rw [entryParts_respond_of_lt (Nat.lt_succ_self i), List.append_nil,
          entryParts_responseParts]
      · exact Or.inl ⟨by simp, entryParts_respond_of_lt (Nat.lt_succ_self i)⟩
    | succ k =>
      have hk : es[k]? = some e := by simpa using h
      have hi : i + (k + 1) = i + 1 + k := by omega
      split
      · have hx : entryParts (i + (k + 1)) (responseParts canonical i x) = [] := by
          refine entryParts_eq_nil ?_
          intro p hp
          have := (mem_responseParts hp).1
          omega
        simp only [List.getElem?_cons_succ, entryParts_append, hx, List.nil_append]
        rw [hi]
        exact ih _ _ hk
      · simp only [List.getElem?_cons_succ]
        rw [hi]
        exact ih _ _ hk

theorem length_respond (used i : Nat) (es : Table) :
    (respond canonical t used i es).1.length = es.length := by
  induction es generalizing used i with
  | nil => rfl
  | cons e es ih =>
    unfold respond
    split <;> simp [ih]

end Responses

def partsOf (s : Option Sent) : List Part := s.elim [] (·.parts)

-- What one call of mdns_send does to an entry, and what the datagram says of it.
inductive Sending (t k : Nat) (e : Entry) : Entry → Option Sent → Prop where
  | rest {s : Option Sent} : about k .question (partsOf s) = [] →
      about k .announcement (partsOf s) = [] →
      (∀ parts, s = some ⟨.response, parts⟩ → entryParts k parts = []) → Sending t k e e s
  | asked {parts : List Part} : e.state = .probeWait →
      about k .question parts = [questionPart k e] → about k .announcement parts = [] →
      Sending t k e (probeSent t { e with state := .probePartialSent }) (some ⟨.probe, parts⟩)
  | responded {s : Option Sent} (canonical : Option (List UInt8)) : e.state ≠ .unused →
      (∀ m parts, s = some ⟨m, parts⟩ → m = .response) →
      entryParts k (partsOf s) = responseParts canonical k e → Sending t k e (responded t e) s

theorem length_send (t : Nat) (table : Table) : (mdnsSend t table).1.length = table.length := by
  unfold mdnsSend
  simp only
  split
  · exact length_probes t table
  · split <;> simp [mdnsSendResponses, length_respond, length_probes]

theorem parts_eq_nil_of_numAnswers {canonical : Option (List UInt8)} {t used i : Nat} {es : Table}
    (h : ¬ 0 < numAnswers (respond canonical t used i es).2) :
    (respond canonical t used i es).2 = [] := by
  refine List.eq_nil_iff_forall_not_mem.mpr ?_
  intro p hp
  refine h ?_
  unfold numAnswers count
  rcases (mem_respond hp).2 with hs | hs
  · refine Nat.add_pos_left (List.length_pos_of_mem (a := p) ?_) _
    simp [hp, hs]
  · refine Nat.add_pos_right _ (List.length_pos_of_mem (a := p) ?_)
    simp [hp, hs]

theorem send_cases (t : Nat) {table : Table} (hp : ∀ x ∈ table, x.state ≠ .probePartialSent) :
    mdnsSend t table = ((mdnsSendProbes t table).1, some ⟨.probe, (mdnsSendProbes t table).2⟩) ∨
    ∃ s, mdnsSend t table = ((mdnsSendResponses t table).1, s) ∧
      partsOf s = (mdnsSendResponses t table).2 ∧
      ∀ m parts, s = some ⟨m, parts⟩ → m = .response := by
  unfold mdnsSend
  simp only
  split
  · exact Or.inl rfl
  · next hn =>
    rw [probes_eq_self hp hn]
    right
    split
    · refine ⟨_, rfl, rfl, ?_⟩
      intro m parts h
      cases h
      rfl
    · next hnone =>
      refine ⟨none, rfl, (parts_eq_nil_of_numAnswers hnone).symm, ?_⟩
      intro m parts h
      cases h

theorem send_get {t k : Nat} {table : Table} {e : Entry} (h : table[k]? = some e)
    (hp : ∀ x ∈ table, x.state ≠ .probePartialSent) :
    ∃ e', (mdnsSend t table).1[k]? = some e' ∧ Sending t k e e' (mdnsSend t table).2 := by
  rcases send_cases t hp with hs | ⟨s, hs, hparts, hm⟩
  · rw [hs]
    have ha := about_probes_announcement t k table
    rcases probes_get (t := t) h (hp e (List.mem_of_getElem? h)) with ⟨hg, hq⟩ | ⟨hw, hg, hq⟩
    · refine ⟨e, hg, .rest hq ha ?_⟩
      intro parts h
      cases h
    · exact ⟨_, hg, .asked hw hq ha⟩
  · rw [hs]
    have hget := respond_get (mdnsGetCanonicalName table) t 0 hdrSize h
    rw [Nat.zero_add] at hget
    rcases hget with ⟨hg, ha⟩ | ⟨hu, hg, ha⟩
    · change entryParts k (mdnsSendResponses t table).2 = [] at ha
      rw [← hparts] at ha
      refine ⟨e, hg, .rest ?_ ?_ ?_⟩
      · rw [about_eq_filter, ha]
        rfl
      · rw [about_eq_filter, ha]
        rfl
      · rintro parts rfl
        exact ha
    · refine ⟨_, hg, .responded (mdnsGetCanonicalName table) hu hm ?_⟩
      rw [hparts]
      exact ha

end Xtcp.Mdns
