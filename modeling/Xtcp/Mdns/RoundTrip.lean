import Xtcp.Mdns.Probing
import Xtcp.Mdns.Survive
import Mathlib.Data.List.Forall2

namespace Xtcp.Mdns
open View

section Trip

variable (table : Table) (canonical : Option Entry)

-- r is the data of the entry that x was written for.
def Gives (x : Part) (r : Resource) : Prop :=
  ∃ e, table[x.entry]? = some e ∧ record canonical e x.kind = some r

-- The message is within its buffer, each record of it gives back its entry's data, and the last
-- one ends where the message does.
def RoundTrips (s : Sent) : Prop :=
  s.data.length ≤ xtcpClientBufSize ∧
  ∃ rs, decode s.data = some (rs, s.data.length) ∧ List.Forall₂ (Gives table canonical) s.parts rs

def Kept (x : Part) : Prop := ∃ e, table[x.entry]? = some e ∧ Survives canonical e x.kind

def body (name : Option (List UInt8)) (e : Entry) : Kind → List UInt8
  | .any => mdnsSendProbe e
  | .host => mdnsSendHostResponse e
  | .ptr => mdnsSendPtrResponse e
  | .srv => srvBody e (name.elim [] mdnsEncodeName)
  | .txt => mdnsSendTxtResponse e

structure Renders (name : Option (List UInt8)) (x : Part) (e : Entry) : Prop where
  get : table[x.entry]? = some e
  formed : e.Formed
  short : e.name.length < mdnsMaxNameLength
  text : e.txtRecord.length ≤ 255
  data : x.data = body name e x.kind

-- Where there is a canonical entry, name is its name.
structure Names (name : Option (List UInt8)) (c : Entry) : Prop where
  name : name = some c.name
  formed : c.Formed
  short : c.name.length < mdnsMaxNameLength

end Trip

section Step

variable {table : Table} {canonical : Option Entry} {name : Option (List UInt8)} {x : Part}
  {e : Entry} {rd : Nat → Option UInt8} {limit p p' : Nat} {rs : List Resource}

theorem Renders.gives (h : Renders table name x e) (r : Resource) :
    Gives table canonical x r ↔ record canonical e x.kind = some r := by
  constructor
  · rintro ⟨e', he, hr⟩
    obtain rfl := Option.some.inj (h.get.symm.trans he)
    exact hr
  · exact fun hr => ⟨e, h.get, hr⟩

theorem Renders.kept (h : Renders table name x e) :
    Kept table canonical x ↔ Survives canonical e x.kind := by
  constructor
  · rintro ⟨e', he, hs⟩
    obtain rfl := Option.some.inj (h.get.symm.trans he)
    exact hs
  · exact fun hs => ⟨e, h.get, hs⟩

theorem Renders.question (h : Renders table name x e) (hk : x.kind = .any) (n : Nat)
    (hs : Shows rd p x.data) (hlim : p + x.data.length ≤ limit) :
    (∃ r, Gives table canonical x r ∧ walkQuestions rd limit (n + 1) p = some (r :: rs, p')) ↔
      Kept table canonical x ∧
        walkQuestions rd limit n (p + x.data.length) = some (rs, p') := by
  have hdata := h.data
  rw [hk] at hdata
  rw [hdata] at hs hlim ⊢
  simp only [h.gives, h.kept, hk]
  exact question_step h.formed h.short hs hlim

theorem Renders.answer (h : Renders table name x e) (hk : x.kind ≠ .any)
    (hc : ∀ c ∈ canonical, Names name c) (n : Nat)
    (hs : Shows rd p x.data) (hlim : p + x.data.length ≤ limit) :
    (∃ r, Gives table canonical x r ∧ walkAnswers rd limit (n + 1) p = some (r :: rs, p')) ↔
      Kept table canonical x ∧ walkAnswers rd limit n (p + x.data.length) = some (rs, p') := by
  have hdata := h.data
  rw [hdata] at hs hlim ⊢
  simp only [h.gives, h.kept]
  cases hkind : x.kind with
  | any => exact absurd hkind hk
  | host =>
    rw [hkind] at hs hlim
    exact host_step h.formed h.short hs hlim
  | ptr =>
    rw [hkind] at hs hlim
    exact ptr_step h.formed h.short hs hlim
  | txt =>
    rw [hkind] at hs hlim
    exact txt_step h.formed h.short h.text hs hlim
  | srv =>
    rw [hkind] at hs hlim
    cases canonical with
    | none => simp [record, Survives]
    | some c =>
      have hname := hc c rfl
      simp only [body, hname.name, Option.elim] at hs hlim ⊢
      exact srv_step h.formed h.short hname.formed hname.short hs hlim

theorem walk_parts {walk : Nat → Nat → Option (List Resource × Nat)}
    (hnil : ∀ p, walk 0 p = some ([], p)) {ps : List Part}
    (hstep : ∀ x ∈ ps, ∀ n p rs, Shows rd p x.data → p + x.data.length ≤ limit →
      ((∃ r, Gives table canonical x r ∧ walk (n + 1) p = some (r :: rs, p')) ↔
        Kept table canonical x ∧ walk n (p + x.data.length) = some (rs, p')))
    (hs : Shows rd p (ps.flatMap (·.data))) (hlim : p + (ps.flatMap (·.data)).length ≤ limit) :
    (∃ rs, List.Forall₂ (Gives table canonical) ps rs ∧ walk ps.length p = some (rs, p')) ↔
      (∀ x ∈ ps, Kept table canonical x) ∧ p' = p + (ps.flatMap (·.data)).length := by
  induction ps generalizing p with
  | nil => simp [hnil, eq_comm]
  | cons x ps ih =>
    rw [List.flatMap_cons, shows_append] at hs
    rw [List.flatMap_cons, List.length_append, ← Nat.add_assoc] at hlim
    have hx := fun rs => hstep x List.mem_cons_self ps.length p rs hs.1 (by omega)
    have hps := ih (fun y hy => hstep y (List.mem_cons_of_mem _ hy)) hs.2 hlim
    have hsplit : (∃ rs, List.Forall₂ (Gives table canonical) (x :: ps) rs ∧
        walk (ps.length + 1) p = some (rs, p')) ↔
        ∃ rs, List.Forall₂ (Gives table canonical) ps rs ∧
          ∃ r, Gives table canonical x r ∧ walk (ps.length + 1) p = some (r :: rs, p') := by
      constructor
      · rintro ⟨_, hall, hw⟩
        obtain ⟨r, rs, hr, hrs, rfl⟩ := List.forall₂_cons_left_iff.mp hall
        exact ⟨rs, hrs, r, hr, hw⟩
      · rintro ⟨rs, hrs, r, hr, hw⟩
        exact ⟨r :: rs, .cons hr hrs, hw⟩
    rw [List.length_cons, hsplit, List.forall_mem_cons, List.flatMap_cons, List.length_append,
      ← Nat.add_assoc, and_assoc, ← hps]
    constructor
    · rintro ⟨rs, hrs, hw⟩
      obtain ⟨hkept, hw⟩ := (hx rs).mp hw
      exact ⟨hkept, rs, hrs, hw⟩
    · rintro ⟨hkept, rs, hrs, hw⟩
      exact ⟨rs, hrs, (hx rs).mpr ⟨hkept, hw⟩⟩

end Step

theorem length_walkQuestions {rd : Nat → Option UInt8} {limit n p p' : Nat} {rs : List Resource}
    (h : walkQuestions rd limit n p = some (rs, p')) : rs.length = n := by
  induction n generalizing p p' rs with
  | zero =>
    obtain ⟨rfl, -⟩ := Prod.mk.inj (Option.some.inj h)
    rfl
  | succ n ih =>
    simp only [walkQuestions, Option.bind_eq_bind, Option.bind_eq_some_iff] at h
    obtain ⟨_, _, _, _, _, _, _, _, ⟨rs', q⟩, hw, heq⟩ := h
    obtain ⟨rfl, -⟩ := Prod.mk.inj (Option.some.inj heq)
    rw [List.length_cons, ih hw]

section Whole

variable {table : Table} {canonical : Option Entry} {name : Option (List UInt8)} {s : Sent}

-- A message of questions and, behind them, of answers or authority records.
structure Layout (table : Table) (name : Option (List UInt8)) (s : Sent)
    (asked claimed : List Part) : Prop where
  parts : s.parts = asked ++ claimed
  header : ∃ flags a b, flags.length = 2 ∧ a + b = claimed.length ∧
    s.header = be16 0 ++ (flags ++ (be16 asked.length ++ (be16 a ++ (be16 b ++ be16 0))))
  question : ∀ x ∈ asked, x.kind = .any ∧ ∃ e, Renders table name x e
  answer : ∀ x ∈ claimed, x.kind ≠ .any ∧ ∃ e, Renders table name x e
  few : asked.length < 65536 ∧ claimed.length < 65536

theorem Layout.decode_eq {asked claimed : List Part} (h : Layout table name s asked claimed) :
    decode s.data = (do
      let rd := fun p => s.data[p]?
      let (qs, p) ← walkQuestions rd s.data.length asked.length hdrSize
      let (rs, p) ← walkAnswers rd s.data.length claimed.length p
      return (qs ++ rs, p)) := by
  obtain ⟨flags, a, b, hflags, hsum, hhdr⟩ := h.header
  obtain ⟨hasked, hclaimed⟩ := h.few
  have hs := shows_getElem? s.data
  rw [Sent.data, hhdr] at hs
  have hs := (shows_append.mp hs).1
  simp only [shows_append, length_be16, hflags] at hs
  obtain ⟨-, -, hq, ha, hb, -⟩ := hs
  have hq := rd16_be16 hasked hq
  have ha := rd16_be16 (show a < 65536 by omega) ha
  have hb := rd16_be16 (show b < 65536 by omega) hb
  simp only [Nat.zero_add, Nat.reduceAdd] at hq ha hb
  rw [← hhdr, ← Sent.data] at hq ha hb
  simp only [decode, hq, ha, hb, Option.bind_eq_bind, Option.bind_some, hsum]

theorem Layout.length_header {asked claimed : List Part} (h : Layout table name s asked claimed) :
    s.header.length = hdrSize := by
  obtain ⟨flags, a, b, hflags, -, hhdr⟩ := h.header
  simp [hhdr, hflags, hdrSize]

theorem Layout.length_data {asked claimed : List Part} (h : Layout table name s asked claimed) :
    s.data.length = hdrSize + size s.parts := by
  rw [Sent.data, List.length_append, h.length_header, List.length_flatMap, size]

theorem Layout.roundTrips {asked claimed : List Part} (h : Layout table name s asked claimed)
    (hc : ∀ c ∈ canonical, Names name c) :
    RoundTrips table canonical s ↔ hdrSize + size s.parts ≤ xtcpClientBufSize ∧
      ∀ x ∈ s.parts, Kept table canonical x := by
  have hdata : s.data = s.header ++ (asked.flatMap (·.data) ++ claimed.flatMap (·.data)) := by
    rw [Sent.data, h.parts, List.flatMap_append]
  have hhdr := h.length_header
  have hlen : s.data.length = hdrSize + (asked.flatMap (·.data)).length +
      (claimed.flatMap (·.data)).length := by
    rw [hdata, List.length_append, List.length_append, hhdr, Nat.add_assoc]
  have hs := shows_getElem? s.data
  generalize hrd : (fun p : Nat => s.data[p]?) = rd at hs
  rw [hdata, shows_append, shows_append, Nat.zero_add, hhdr] at hs
  obtain ⟨-, hasked, hclaimed⟩ := hs
  have hqs (p' : Nat) : (∃ rs, List.Forall₂ (Gives table canonical) asked rs ∧
      walkQuestions rd s.data.length asked.length hdrSize = some (rs, p')) ↔
      (∀ x ∈ asked, Kept table canonical x) ∧
        p' = hdrSize + (asked.flatMap (·.data)).length := by
    have hroom : hdrSize + (asked.flatMap (·.data)).length ≤ s.data.length := by omega
    refine walk_parts (fun _ => rfl) (fun x hx n p rs hs hlim => ?_) hasked hroom
    obtain ⟨hk, e, he⟩ := h.question x hx
    exact he.question hk n hs hlim
  have has (p' : Nat) : (∃ rs, List.Forall₂ (Gives table canonical) claimed rs ∧
      walkAnswers rd s.data.length claimed.length (hdrSize + (asked.flatMap (·.data)).length) =
        some (rs, p')) ↔
      (∀ x ∈ claimed, Kept table canonical x) ∧ p' =
        hdrSize + (asked.flatMap (·.data)).length + (claimed.flatMap (·.data)).length := by
    have hroom := Nat.le_of_eq hlen.symm
    refine walk_parts (fun _ => rfl) (fun x hx n p rs hs hlim => ?_) hclaimed hroom
    obtain ⟨hk, e, he⟩ := h.answer x hx
    exact he.answer hk hc n hs hlim
  have hdecode (rs : List Resource) : decode s.data = some (rs, s.data.length) ↔
      ∃ qs as p, walkQuestions rd s.data.length asked.length hdrSize = some (qs, p) ∧
        walkAnswers rd s.data.length claimed.length p = some (as, s.data.length) ∧
        rs = qs ++ as := by
    rw [h.decode_eq]
    simp only [hrd, Option.bind_eq_bind, Option.bind_eq_some_iff, Option.pure_def,
      Option.some.injEq, Prod.mk.injEq, Prod.exists]
    constructor
    · rintro ⟨qs, p, hq, as, p', ha, rfl, rfl⟩
      exact ⟨qs, as, p, hq, ha, rfl⟩
    · rintro ⟨qs, as, p, hq, ha, rfl⟩
      exact ⟨qs, p, hq, as, _, ha, rfl, rfl⟩
  rw [RoundTrips, h.length_data]
  refine and_congr_right' ?_
  rw [← h.length_data]
  nth_rewrite 2 [h.parts]
  rw [List.forall_mem_append]
  constructor
  · rintro ⟨rs, hrs, hall⟩
    obtain ⟨qs, as, p, hq, ha, rfl⟩ := (hdecode rs).mp hrs
    have hsize := length_walkQuestions hq
    rw [h.parts] at hall
    have hl := List.forall₂_take_append _ _ _ hall
    have hr := List.forall₂_drop_append _ _ _ hall
    rw [hsize, List.take_left] at hl
    rw [hsize, List.drop_left] at hr
    obtain ⟨hkept, rfl⟩ := (hqs p).mp ⟨qs, hl, hq⟩
    exact ⟨hkept, ((has _).mp ⟨as, hr, ha⟩).1⟩
  · rintro ⟨hl, hr⟩
    obtain ⟨qs, hql, hq⟩ := (hqs _).mpr ⟨hl, rfl⟩
    obtain ⟨as, har, ha⟩ := (has _).mpr ⟨hr, hlen⟩
    refine ⟨qs ++ as, (hdecode _).mpr ⟨qs, as, _, hq, ha, rfl⟩, ?_⟩
    rw [h.parts]
    exact List.rel_append hql har

end Whole

section Kinds

variable (name : Option (List UInt8)) (i : Nat) (part : Section) (e : Entry)

def claimKinds : List Kind := if e.entryType = .srvEntry then [.ptr, .srv, .txt] else [.host]

def answerKinds : List Kind :=
  (if e.pending.host then [.host] else []) ++ (if e.pending.ptr then [.ptr] else []) ++
    (if e.pending.srv then [.srv] else []) ++ (if e.pending.txt then [.txt] else [])

def responseKinds : List Kind :=
  (if e.state = .announceWait then claimKinds e else []) ++ answerKinds e

theorem srvPart_kind : (srvPart name i part e).kind = .srv := by
  cases name <;> rfl

theorem srvPart_data : (srvPart name i part e).data = body name e .srv := by
  cases name <;> rfl

theorem kinds_claimParts : (claimParts name i part e).map (·.kind) = claimKinds e := by
  unfold claimParts claimKinds
  split
  · simp only [List.map_cons, srvPart_kind]
    rfl
  · rfl

theorem kinds_responseParts : (responseParts name i e).map (·.kind) = responseKinds e := by
  have hone {b : Bool} {x : Part} {k : Kind} (h : x.kind = k) :
      (if b then [x] else []).map (·.kind) = if b then [k] else [] := by
    cases b
    · rfl
    · simp [h]
  unfold responseParts announceParts answerParts responseKinds answerKinds
  simp only [List.map_append, hone (show (hostPart i .answer e).kind = .host from rfl),
    hone (show (ptrPart i .answer e).kind = .ptr from rfl),
    hone (srvPart_kind name i .answer e), hone (show (txtPart i .answer e).kind = .txt from rfl)]
  split
  · rw [kinds_claimParts]
  · rfl

variable {name i part e} {x : Part}

theorem data_claimPart (h : x ∈ claimParts name i part e) : x.data = body name e x.kind := by
  unfold claimParts at h
  split at h
  · simp only [List.mem_cons, List.not_mem_nil, or_false] at h
    rcases h with rfl | rfl | rfl
    · rfl
    · rw [srvPart_kind, srvPart_data]
    · rfl
  · obtain rfl := List.mem_singleton.mp h
    rfl

theorem data_responsePart (h : x ∈ responseParts name i e) : x.data = body name e x.kind := by
  have hone {b : Bool} {y : Part} (hy : y.data = body name e y.kind)
      (h : x ∈ if b then [y] else []) : x.data = body name e x.kind := by
    cases b
    · cases h
    · rw [List.mem_singleton.mp h]
      exact hy
  rcases List.mem_append.mp h with h | h
  · unfold announceParts at h
    split at h
    · exact data_claimPart h
    · cases h
  · unfold answerParts at h
    simp only [List.mem_append] at h
    rcases h with ((h | h) | h) | h
    · exact hone rfl h
    · exact hone rfl h
    · exact hone (by rw [srvPart_kind, srvPart_data]) h
    · exact hone rfl h

theorem ne_any_of_mem_claimKinds {k : Kind} (h : k ∈ claimKinds e) : k ≠ .any := by
  unfold claimKinds at h
  rintro rfl
  split at h <;> simp at h

theorem exists_mem_claimKinds (e : Entry) : ∃ k, k ∈ claimKinds e := by
  unfold claimKinds
  split
  · exact ⟨.ptr, List.mem_cons_self⟩
  · exact ⟨.host, List.mem_cons_self⟩

theorem ne_any_of_mem_responseKinds {k : Kind} (h : k ∈ responseKinds e) : k ≠ .any := by
  rintro rfl
  unfold responseKinds answerKinds at h
  rcases List.mem_append.mp h with h | h
  · split at h
    · exact ne_any_of_mem_claimKinds h rfl
    · cases h
  · simp at h

end Kinds

structure WellFormed (table : Table) : Prop where
  slots : table.length = mdnsNumTableEntries
  short : ∀ e ∈ table, e.name.length < mdnsMaxNameLength
  text : ∀ e ∈ table, e.txtRecord.length ≤ 255
  formed : ∀ e ∈ table, e.state ≠ .unused → e.Formed

instance (table : Table) : Decidable (WellFormed table) :=
  decidable_of_iff (table.length = mdnsNumTableEntries ∧
      (∀ e ∈ table, e.name.length < mdnsMaxNameLength) ∧
      (∀ e ∈ table, e.txtRecord.length ≤ 255) ∧ ∀ e ∈ table, e.state ≠ .unused → e.Formed)
    ⟨fun ⟨hn, hs, ht, hf⟩ => ⟨hn, hs, ht, hf⟩, fun h => ⟨h.slots, h.short, h.text, h.formed⟩⟩

-- The host whose name mdns_get_canonical_name returns: a slot that no entry uses is none.
def canonicalEntry (table : Table) : Option Entry :=
  (table.find? fun e => e.state != .probeWait && e.entryType == .canonicalNameEntry).filter
    fun e => e.state != .unused

-- By the time that a probe names it, every entry has left PROBE_WAIT.
def firstCanonicalEntry (table : Table) : Option Entry :=
  (table.find? fun e => e.entryType == .canonicalNameEntry).filter fun e => e.state != .unused

theorem WellFormed.names {table : Table} (hw : WellFormed table) {p : Entry → Bool} {c : Entry}
    (hc : (table.find? p).filter (fun e => e.state != .unused) = some c) :
    Names ((table.find? p).map (·.name)) c := by
  obtain ⟨hfind, hused⟩ := Option.filter_eq_some_iff.mp hc
  have hmem := List.mem_of_find?_eq_some hfind
  exact ⟨by rw [hfind]; rfl, hw.formed c hmem (by simpa using hused), hw.short c hmem⟩

section Probes

variable {table : Table} {name : Option (List UInt8)} {x : Part}

theorem mem_asked {i used : Nat} {es : Table} (h : x ∈ (askProbes i used es).2) :
    ∃ k e, es[k]? = some e ∧ e.state = .probeWait ∧ x = questionPart (i + k) e := by
  induction es generalizing i used with
  | nil => cases h
  | cons e es ih =>
    have hlater {i' used : Nat} (hi : i' = i + 1) (h : x ∈ (askProbes i' used es).2) :
        ∃ k y, (e :: es)[k]? = some y ∧ y.state = .probeWait ∧ x = questionPart (i + k) y := by
      obtain ⟨k, y, hk, hs, rfl⟩ := ih h
      exact ⟨k + 1, y, by simpa using hk, hs, by rw [hi, Nat.add_assoc, Nat.add_comm 1]⟩
    unfold askProbes at h
    split at h
    · next hs =>
      rcases List.mem_cons.mp h with rfl | h
      · exact ⟨0, e, rfl, hs.1, rfl⟩
      · exact hlater rfl h
    · exact hlater rfl h

theorem length_asked (i used : Nat) (es : Table) : (askProbes i used es).2.length ≤ es.length := by
  induction es generalizing i used with
  | nil => exact Nat.le_refl _
  | cons e es ih =>
    unfold askProbes
    split
    · exact Nat.succ_le_succ (ih _ _)
    · exact Nat.le_succ_of_le (ih _ _)

theorem mem_authorities_wake : x ∈ authorities name (table.map wake) ↔
    ∃ k e, table[k]? = some e ∧ bidding e ∧ x ∈ claimParts name k .authority e := by
  unfold authorities
  rw [List.mem_flatten]
  constructor
  · rintro ⟨ps, hps, hx⟩
    obtain ⟨k, hk, rfl⟩ := List.mem_mapIdx.mp hps
    rw [List.getElem_map, probeParts_wake] at hx
    split at hx
    · next hb => exact ⟨k, _, List.getElem?_eq_getElem _, hb, hx⟩
    · cases hx
  · rintro ⟨k, e, hk, hb, hx⟩
    obtain ⟨hlt, rfl⟩ := List.getElem?_eq_some_iff.mp hk
    refine ⟨_, List.mem_mapIdx.mpr ⟨k, by rwa [List.length_map], rfl⟩, ?_⟩
    rwa [List.getElem_map, probeParts_wake, if_pos hb]

theorem length_authorities (name : Option (List UInt8)) (table : Table) :
    (authorities name (table.map wake)).length ≤ 3 * table.length := by
  have hclaim (e : Entry) : (claimKinds e).length ≤ 3 := by
    unfold claimKinds
    split <;> decide
  have hsum (es : Table) : (es.flatMap claimKinds).length ≤ 3 * es.length := by
    induction es with
    | nil => exact Nat.le_refl _
    | cons e es ih =>
      have := hclaim e
      rw [List.flatMap_cons, List.length_append, List.length_cons]
      omega
  have hlen := congrArg List.length
    (map_authorities (fun i e => kinds_claimParts name i .authority e) table)
  rw [List.length_map] at hlen
  have := hsum (table.filter bidding)
  have := List.length_filter_le bidding table
  omega

-- The probe fits, and each entry that it claims a name for has data that survives.
def ProbesSurvive (table : Table) : Prop :=
  hdrSize + ((probeShapes table).map (·.1)).sum ≤ xtcpClientBufSize ∧
  ∀ e ∈ table, bidding e → ∀ k ∈ claimKinds e, Survives (firstCanonicalEntry table) e k

instance (table : Table) : Decidable (ProbesSurvive table) := by
  unfold ProbesSurvive
  infer_instance

theorem WellFormed.renders (hw : WellFormed table) {k : Nat} {e : Entry} (hk : table[k]? = some e)
    (hu : e.state ≠ .unused) (hx : x.entry = k) (hd : x.data = body name e x.kind) :
    Renders table name x e :=
  have hmem := List.mem_of_getElem? hk
  ⟨hx ▸ hk, hw.formed e hmem hu, hw.short e hmem, hw.text e hmem, hd⟩

theorem used_of_bidding {e : Entry} (h : bidding e) : e.state ≠ .unused := by
  intro hu
  simp [bidding, hu] at h

theorem WellFormed.layout_probes (hw : WellFormed table) (t : Nat) :
    Layout table (firstCanonicalName table) ⟨.probe, (mdnsSendProbes t table).2⟩
      (askProbes 0 hdrSize table).2 (authorities (firstCanonicalName table) (table.map wake)) where
  parts := probes_parts hw.slots hw.short t
  header := by
    obtain ⟨hq, ha⟩ := count_probes (firstCanonicalName table) table (table.map wake) hdrSize
    refine ⟨[0, 0], 0, _, rfl, Nat.zero_add _, ?_⟩
    rw [Sent.header, probes_parts hw.slots hw.short, hq, ha]
    simp only [List.append_assoc]
  question x hx := by
    obtain ⟨k, e, hk, hs, rfl⟩ := mem_asked hx
    exact ⟨rfl, e, hw.renders hk (by simp [hs]) (Nat.zero_add k) rfl⟩
  answer x hx := by
    obtain ⟨k, e, hk, hb, hx⟩ := mem_authorities_wake.mp hx
    have hkind : x.kind ∈ claimKinds e := by
      rw [← kinds_claimParts]
      exact List.mem_map_of_mem hx
    exact ⟨ne_any_of_mem_claimKinds hkind, e, hw.renders hk (used_of_bidding hb)
      (mem_claimParts hx).1 (data_claimPart hx)⟩
  few := by
    have ha := length_asked 0 hdrSize table
    have hc := length_authorities (firstCanonicalName table) table
    have := hw.slots
    unfold mdnsNumTableEntries at this
    omega

theorem WellFormed.probes (hw : WellFormed table) (t : Nat) :
    RoundTrips table (firstCanonicalEntry table) ⟨.probe, (mdnsSendProbes t table).2⟩ ↔
      ProbesSurvive table := by
  have hlayout := hw.layout_probes t
  have hnames : ∀ c ∈ firstCanonicalEntry table, Names (firstCanonicalName table) c :=
    fun c hc => hw.names hc
  rw [hlayout.roundTrips hnames, size_eq_sum, shapes_probes hw.slots hw.short]
  refine and_congr_right' ?_
  rw [hlayout.parts, List.forall_mem_append]
  constructor
  · rintro ⟨-, hclaim⟩ e he hb k hk
    obtain ⟨i, hi⟩ := List.mem_iff_getElem?.mp he
    rw [← kinds_claimParts (firstCanonicalName table) i .authority] at hk
    obtain ⟨x, hx, rfl⟩ := List.mem_map.mp hk
    have hr := hw.renders hi (used_of_bidding hb) (mem_claimParts hx).1 (data_claimPart hx)
    exact hr.kept.mp (hclaim x (mem_authorities_wake.mpr ⟨i, e, hi, hb, hx⟩))
  · intro h
    have hclaim : ∀ x ∈ authorities (firstCanonicalName table) (table.map wake),
        Kept table (firstCanonicalEntry table) x := by
      intro x hx
      obtain ⟨i, e, hi, hb, hx⟩ := mem_authorities_wake.mp hx
      have hr := hw.renders hi (used_of_bidding hb) (mem_claimParts hx).1 (data_claimPart hx)
      refine hr.kept.mpr (h e (List.mem_of_getElem? hi) hb _ ?_)
      rw [← kinds_claimParts]
      exact List.mem_map_of_mem hx
    refine ⟨?_, hclaim⟩
    intro x hx
    obtain ⟨i, e, hi, hs, rfl⟩ := mem_asked hx
    have hb : bidding e := by simp [bidding, hs]
    obtain ⟨k, hk⟩ := exists_mem_claimKinds e
    exact ⟨e, by simpa [questionPart] using hi,
      clean_of_survives (h e (List.mem_of_getElem? hi) hb k hk)⟩

end Probes

section Responses

variable {table : Table} {name : Option (List UInt8)} {x : Part}

theorem mem_responses {t i used : Nat} {es : Table} (h : x ∈ (respond name t used i es).2) :
    ∃ k e, es[k]? = some e ∧ e.state ≠ .unused ∧ x ∈ responseParts name (i + k) e := by
  induction es generalizing i used with
  | nil => cases h
  | cons e es ih =>
    have hlater {used : Nat} (h : x ∈ (respond name t used (i + 1) es).2) :
        ∃ k y, (e :: es)[k]? = some y ∧ y.state ≠ .unused ∧
          x ∈ responseParts name (i + k) y := by
      obtain ⟨k, y, hk, hs, hx⟩ := ih h
      exact ⟨k + 1, y, by simpa using hk, hs, by rwa [Nat.add_comm k, ← Nat.add_assoc]⟩
    unfold respond at h
    split at h
    · next hs =>
      rcases List.mem_append.mp h with h | h
      · exact ⟨0, e, rfl, hs.1, h⟩
      · exact hlater h
    · exact hlater h

theorem length_responseKinds (e : Entry) : (responseKinds e).length ≤ 7 := by
  have hone {b : Bool} {k : Kind} : (if b then [k] else []).length ≤ 1 := by cases b <;> simp
  have hclaim : (if e.state = .announceWait then claimKinds e else []).length ≤ 3 := by
    unfold claimKinds
    split
    · split <;> decide
    · decide
  have h1 := @hone e.pending.host .host
  have h2 := @hone e.pending.ptr .ptr
  have h3 := @hone e.pending.srv .srv
  have h4 := @hone e.pending.txt .txt
  simp only [responseKinds, answerKinds, List.length_append]
  omega

theorem length_responses (name : Option (List UInt8)) (t i used : Nat) (es : Table) :
    (respond name t used i es).2.length ≤ 7 * es.length := by
  induction es generalizing i used with
  | nil => exact Nat.le_refl _
  | cons e es ih =>
    rw [List.length_cons]
    unfold respond
    split
    · have hlen := congrArg List.length (kinds_responseParts name i e)
      rw [List.length_map] at hlen
      have := length_responseKinds e
      have := ih (i + 1) (used + size (responseParts name i e))
      rw [List.length_append]
      omega
    · exact (ih (i + 1) used).trans (Nat.mul_le_mul_left 7 (Nat.le_succ _))

def responseSize (name : Option (List UInt8)) (e : Entry) : Nat :=
  ((responseShapes name e).map (·.1)).sum

-- The response fits, and each entry whose estimate is below the room that is left answers with
-- data that survives.
def ResponsesSurvive (canonical : Option Entry) (name : Option (List UInt8)) : Nat → Table → Prop
  | used, [] => used ≤ xtcpClientBufSize
  | used, e :: es =>
    if e.state ≠ .unused ∧ used + mdnsResponseSize e < xtcpClientBufSize then
      (∀ k ∈ responseKinds e, Survives canonical e k) ∧
        ResponsesSurvive canonical name (used + responseSize name e) es
    else ResponsesSurvive canonical name used es

instance decidableResponsesSurvive (canonical : Option Entry) (name : Option (List UInt8)) :
    (used : Nat) → (es : Table) → Decidable (ResponsesSurvive canonical name used es)
  | used, [] => inferInstanceAs (Decidable (used ≤ xtcpClientBufSize))
  | used, e :: es => by
    have h (used : Nat) : Decidable (ResponsesSurvive canonical name used es) :=
      decidableResponsesSurvive canonical name used es
    unfold ResponsesSurvive
    infer_instance

theorem WellFormed.layout_responses (hw : WellFormed table) (t : Nat) :
    Layout table (mdnsGetCanonicalName table) ⟨.response, (mdnsSendResponses t table).2⟩
      [] (mdnsSendResponses t table).2 where
  parts := rfl
  header := by
    have hn : numAnswers (mdnsSendResponses t table).2 = (mdnsSendResponses t table).2.length :=
      numAnswers_all fun _ hp => (mem_respond hp).2
    refine ⟨[0x84, 0], _, 0, rfl, Nat.add_zero _, ?_⟩
    rw [Sent.header, hn]
    simp only [List.append_assoc]
    rfl
  question x hx := by cases hx
  answer x hx := by
    obtain ⟨k, e, hk, hu, hx⟩ := mem_responses hx
    rw [Nat.zero_add] at hx
    have hkind : x.kind ∈ responseKinds e := by
      rw [← kinds_responseParts]
      exact List.mem_map_of_mem hx
    exact ⟨ne_any_of_mem_responseKinds hkind, e,
      hw.renders hk hu (mem_responseParts hx).1 (data_responsePart hx)⟩
  few := by
    have hl := length_responses (mdnsGetCanonicalName table) t 0 hdrSize table
    have := hw.slots
    unfold mdnsNumTableEntries at this
    unfold mdnsSendResponses
    rw [List.length_nil]
    omega

theorem WellFormed.kept_respond (hw : WellFormed table) {canonical : Option Entry}
    {t used : Nat} {pre es : Table} (ht : table = pre ++ es) :
    (used + size (respond name t used pre.length es).2 ≤ xtcpClientBufSize ∧
        ∀ x ∈ (respond name t used pre.length es).2, Kept table canonical x) ↔
      ResponsesSurvive canonical name used es := by
  induction es generalizing used pre with
  | nil => simp [respond, ResponsesSurvive, size]
  | cons e es ih =>
    have hget : table[pre.length]? = some e := by simp [ht]
    have ih (used : Nat) := @ih used (pre ++ [e]) (by simpa using ht)
    simp only [List.length_append, List.length_singleton] at ih
    unfold respond ResponsesSurvive
    split
    · next hs =>
      have hsize : size (responseParts name pre.length e) = responseSize name e := by
        rw [size_eq_sum, shapes_responseParts, responseSize]
      have hkept : (∀ x ∈ responseParts name pre.length e, Kept table canonical x) ↔
          ∀ k ∈ responseKinds e, Survives canonical e k := by
        rw [← kinds_responseParts name pre.length, List.forall_mem_map]
        refine forall₂_congr fun x hx => ?_
        exact (hw.renders hget hs.1 (mem_responseParts hx).1 (data_responsePart hx)).kept
      simp only [size_append, hsize, List.forall_mem_append, hkept]
      rw [← ih, ← Nat.add_assoc]
      exact and_left_comm
    · exact ih used

theorem WellFormed.responses (hw : WellFormed table) (t : Nat) :
    RoundTrips table (canonicalEntry table) ⟨.response, (mdnsSendResponses t table).2⟩ ↔
      ResponsesSurvive (canonicalEntry table) (mdnsGetCanonicalName table) hdrSize table := by
  have hnames : ∀ c ∈ canonicalEntry table, Names (mdnsGetCanonicalName table) c :=
    fun c hc => hw.names hc
  rw [(hw.layout_responses t).roundTrips hnames]
  exact hw.kept_respond (List.nil_append table).symm

end Responses

section Runs

variable {t k : Nat} {e e' : Entry}

theorem Entry.Formed.of_eq (h : e.Formed) (hname : e'.name = e.name)
    (hupdate : (updateName e').name = (updateName e).name)
    (hpost : e'.namePostfix = e.namePostfix) : e'.Formed :=
  ⟨by rw [hname, hupdate, h.name], hpost ▸ h.namePostfix⟩

theorem Entry.Formed.rename (h : e.Formed) : (rename e).Formed := ⟨rfl, h.namePostfix⟩

theorem Entry.Formed.reprobe (h : e.Formed) : (reprobe e).Formed := h.of_eq rfl rfl rfl

theorem Entry.Formed.periodic (h : e.Formed) : (periodicEntry t k e).1.Formed := by
  unfold periodicEntry
  split
  · split
    · split <;> exact h.of_eq rfl rfl rfl
    · exact h
  · split
    · split <;> exact h.of_eq rfl rfl rfl
    · exact h
  · exact h

theorem formed_fill (r : Registration) (x : Entry) : (r.fill x).Formed := by
  have hlocal : text "local" ≠ [] := by decide
  have htype : text ".local" ≠ [] := by decide
  cases r with
  | canonicalName name => exact ⟨rfl, hlocal⟩
  | hostName name => exact ⟨rfl, hlocal⟩
  | service name srvType srvPort txt => exact ⟨rfl, List.append_ne_nil_of_right_ne_nil _ htype⟩

theorem formed_change {notes : List Note} (hc : Change t k e e' notes)
    (h : e.state ≠ .unused → e.Formed) (hu : e'.state ≠ .unused) : e'.Formed := by
  induction hc with
  | other e _ => exact h hu
  | pend e p _ => exact (h hu).of_eq rfl rfl rfl
  | calm e => exact (h hu).of_eq rfl rfl rfl
  | readdress e a => exact (h hu).of_eq rfl rfl rfl
  | conflict e _ hused =>
    unfold revert
    split
    · exact (h hused).rename.reprobe
    · exact (h hused).reprobe
  | lost e hp _ =>
    have hused : e.state ≠ .unused := by
      intro hs
      simp [probing, hs] at hp
    exact (h hused).rename.reprobe
  | start e hused => exact (h hused).reprobe
  | tick e =>
    have hused : e.state ≠ .unused := by
      intro hs
      simp [periodicEntry, hs] at hu
    exact (h hused).periodic
  | trans _ _ ih ih' => exact ih' (ih h) hu

theorem formed_sending {s : Option Sent} (hs : Sending t k e e' s)
    (h : e.state ≠ .unused → e.Formed) (hu : e'.state ≠ .unused) : e'.Formed := by
  cases hs with
  | rest _ _ _ => exact h hu
  | asked hw _ _ => exact (h (by simp [hw])).of_eq rfl rfl rfl
  | responded _ hused _ _ =>
    have hf := h hused
    unfold responded announced
    split <;> exact hf.of_eq rfl rfl rfl

theorem run_formed {w : World} {now : Nat} {log : Log} (h : Run w now log)
    (he : w.table[k]? = some e) (hu : e.state ≠ .unused) : e.Formed := by
  induction h generalizing k e with
  | init now =>
    have : e = Entry.zero := List.eq_of_mem_replicate (List.mem_of_getElem? he)
    exact absurd (by rw [this]; rfl) hu
  | register r _ ih =>
    rcases register_get r he with he | ⟨x, rfl⟩
    · exact ih he hu
    · exact formed_fill r x
  | event later fuel conn hrun _ hstep ih =>
    obtain ⟨e0, he0, hc | ⟨s, hs, -⟩⟩ := handleEvent_get hstep (run_whole hrun) he
    · exact formed_change hc (ih he0) hu
    · exact formed_sending hs (ih he0) hu

theorem run_length {w : World} {now : Nat} {log : Log} (h : Run w now log) :
    w.table.length = mdnsNumTableEntries := by
  induction h with
  | init now => rfl
  | register r _ ih => rw [length_apply, ih]
  | event later fuel conn _ _ hstep ih =>
    rcases handleEvent_cases hstep with hc | ⟨ht, -⟩
    · rw [hc.length, ih]
    · rw [ht, length_send, ih]

theorem run_wellFormed {w : World} {now : Nat} {log : Log} (h : Run w now log)
    (hname : ∀ e ∈ w.table, e.name.length < mdnsMaxNameLength)
    (htext : ∀ e ∈ w.table, e.txtRecord.length ≤ 255) : WellFormed w.table where
  slots := run_length h
  short := hname
  text := htext
  formed e he hu := by
    obtain ⟨k, hk⟩ := List.getElem?_of_mem he
    exact run_formed h hk hu

end Runs

theorem round_trip {table : Table} (hw : WellFormed table) (t : Nat) :
    (RoundTrips table (firstCanonicalEntry table) ⟨.probe, (mdnsSendProbes t table).2⟩ ↔
      ProbesSurvive table) ∧
    (RoundTrips table (canonicalEntry table) ⟨.response, (mdnsSendResponses t table).2⟩ ↔
      ResponsesSurvive (canonicalEntry table) (mdnsGetCanonicalName table) hdrSize table) :=
  ⟨hw.probes t, hw.responses t⟩

def printer (name txt : List UInt8) (state : State) : Table :=
  (register [.canonicalName (text "xc"), .service name (text "_ipp._tcp") 631 txt]).map fun e =>
    if e.state = .unused then e else { e with state := state }

theorem round_trip_printer :
    RoundTrips (printer (text "Print") (text "rp=a") .probeWait)
      (firstCanonicalEntry (printer (text "Print") (text "rp=a") .probeWait))
      ⟨.probe, (mdnsSendProbes 0 (printer (text "Print") (text "rp=a") .probeWait)).2⟩ ∧
    RoundTrips (printer (text "Print") (text "rp=a") .announceWait)
      (canonicalEntry (printer (text "Print") (text "rp=a") .announceWait))
      ⟨.response, (mdnsSendResponses 0 (printer (text "Print") (text "rp=a") .announceWait)).2⟩ :=
  ⟨(round_trip (by decide +kernel) 0).1.mpr (by decide +kernel),
    (round_trip (by decide +kernel) 0).2.mpr (by decide +kernel)⟩

theorem text_without_dots : ∃ table, WellFormed table ∧
    ¬ RoundTrips table (canonicalEntry table) ⟨.response, (mdnsSendResponses 0 table).2⟩ := by
  refine ⟨printer (text "Print") (text "v=1.0") .announceWait, by decide +kernel, ?_⟩
  rw [WellFormed.responses (by decide +kernel) 0]
  decide +kernel

end Xtcp.Mdns
