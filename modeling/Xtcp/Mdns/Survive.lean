import Xtcp.Mdns.Decode
import Xtcp.Mdns.Fit

namespace Xtcp.Mdns
open View

section Labels

variable {label src x y : List UInt8}

theorem labelsFrom_append (hx : dot ∉ x) (hy : y ≠ []) (label : List UInt8) :
    labelsFrom label (x ++ dot :: y) = (label ++ x) :: labels y := by
  induction x generalizing label with
  | nil => simp [labelsFrom, hy, labels]
  | cons c x ih =>
    rw [List.mem_cons, not_or] at hx
    rw [List.cons_append, labelsFrom, if_neg (Ne.symm hx.1), ih hx.2]
    simp

theorem dot_not_mem_labelsFrom {l : List UInt8} (h : dot ∉ label) (hl : l ∈ labelsFrom label src) :
    dot ∉ l := by
  induction src generalizing label with
  | nil => rwa [List.mem_singleton.mp hl]
  | cons c src ih =>
    unfold labelsFrom at hl
    split at hl
    · rcases List.mem_cons.mp hl with rfl | hl
      · exact h
      · split at hl
        · cases hl
        · exact ih (by simp) hl
    · next hc =>
      refine ih ?_ hl
      rw [List.mem_append, List.mem_singleton, not_or]
      exact ⟨h, Ne.symm hc⟩

theorem flatten_labelsFrom (label src : List UInt8) :
    (labelsFrom label src).flatten = label ++ src.filter (· != dot) := by
  induction src generalizing label with
  | nil => simp [labelsFrom]
  | cons c src ih =>
    unfold labelsFrom
    split
    · next hc =>
      subst hc
      rw [List.flatten_cons, List.filter_cons_of_neg (by simp)]
      split
      · next hs => simp [hs]
      · rw [ih, List.nil_append]
    · next hc =>
      rw [ih, List.filter_cons_of_pos (by simpa using hc), List.append_assoc]
      rfl

theorem flatten_labels_iff (s : List UInt8) : (labels s).flatten = s ↔ dot ∉ s := by
  rw [labels, flatten_labelsFrom, List.nil_append, List.filter_eq_self]
  constructor
  · intro h hd
    simpa using h dot hd
  · intro h c hc
    simpa using ne_of_mem_of_not_mem hc h

end Labels

section Names

def Entry.instanceName (e : Entry) : List UInt8 := e.namePrefix ++ nameSuffix e.entryType e.counter

-- The instance name as one label, and the labels of the type.
def Entry.nameLabels (e : Entry) : List (List UInt8) := e.instanceName :: labels e.namePostfix

structure Entry.Formed (e : Entry) : Prop where
  name : e.name = (updateName e).name
  namePostfix : e.namePostfix ≠ []

-- No dot within the instance name, and no empty label in the type.
structure Entry.Clean (e : Entry) : Prop where
  namePrefix : dot ∉ e.namePrefix
  namePostfix : [] ∉ labels e.namePostfix

instance (e : Entry) : Decidable e.Formed :=
  decidable_of_iff (e.name = (updateName e).name ∧ e.namePostfix ≠ [])
    ⟨fun ⟨h, hp⟩ => ⟨h, hp⟩, fun h => ⟨h.name, h.namePostfix⟩⟩

instance (e : Entry) : Decidable e.Clean :=
  decidable_of_iff (dot ∉ e.namePrefix ∧ [] ∉ labels e.namePostfix)
    ⟨fun ⟨h, hp⟩ => ⟨h, hp⟩, fun h => ⟨h.namePrefix, h.namePostfix⟩⟩

theorem dot_not_mem_itoaLoop (fuel x : Nat) : dot ∉ itoaLoop fuel x := by
  induction fuel generalizing x with
  | zero => simp [itoaLoop]
  | succ fuel ih =>
    have hdigit : ∀ d < 10, dot ≠ UInt8.ofNat d + 48 := by decide
    have hd : dot ≠ UInt8.ofNat (x % 10) + 48 := hdigit _ (Nat.mod_lt _ (by decide))
    unfold itoaLoop
    split
    · simp [hd, ih]
    · simp [hd]

theorem dot_not_mem_suffix (entryType : EntryType) (counter : Nat) :
    dot ∉ nameSuffix entryType counter := by
  have hdigits : dot ∉ mdnsItoa counter := by
    rw [mdnsItoa, List.mem_reverse]
    exact dot_not_mem_itoaLoop _ _
  have h1 : dot ∉ text " (" := by decide
  have h2 : dot ∉ text ")" := by decide
  have h3 : dot ∉ text "-" := by decide
  unfold nameSuffix
  split
  · split
    · simp [hdigits, h1, h2]
    · simp [hdigits, h3]
  · simp

variable {e : Entry}

theorem dot_mem_instanceName : dot ∈ e.instanceName ↔ dot ∈ e.namePrefix := by
  rw [Entry.instanceName, List.mem_append, or_iff_left (dot_not_mem_suffix _ _)]

theorem Entry.Formed.name_eq (h : e.Formed) :
    e.name = e.instanceName ++ dot :: e.namePostfix := by
  rw [h.name, updateName, Entry.instanceName]

theorem Entry.Clean.labels_name (hc : e.Clean) (h : e.Formed) : labels e.name = e.nameLabels := by
  rw [h.name_eq, labels, labelsFrom_append (mt dot_mem_instanceName.mp hc.namePrefix) h.namePostfix]
  rfl

theorem Entry.Clean.readable (hc : e.Clean) : readable e.nameLabels = e.nameLabels :=
  readable_eq_self fun _ hl hnil => hc.namePostfix (hnil ▸ hl)

theorem readable_name_iff (h : e.Formed) : readable (labels e.name) = e.nameLabels ↔ e.Clean := by
  constructor
  · intro hr
    have hdot : dot ∉ e.instanceName := by
      have hmem : e.instanceName ∈ labels e.name := by
        obtain ⟨l, ls, hl⟩ := List.exists_cons_of_ne_nil (labelsFrom_ne_nil [] e.name)
        rw [labels, hl, Mdns.readable, Entry.nameLabels] at hr
        rw [labels, hl, ← (List.cons.inj hr).1]
        exact List.mem_cons_self
      exact dot_not_mem_labelsFrom (by simp) hmem
    have hpre := mt dot_mem_instanceName.mpr hdot
    have hlabels : labels e.name = e.nameLabels := by
      rw [h.name_eq, labels, labelsFrom_append hdot h.namePostfix]
      rfl
    rw [hlabels] at hr
    exact ⟨hpre, fun hnil => ne_nil_of_readable hr [] hnil rfl⟩
  · intro hc
    rw [hc.labels_name h, hc.readable]

end Names

section Walk

variable {rd : Nat → Option UInt8} {limit p n : Nat} {ls : List (List UInt8)}

theorem walkAnswers_name {p' : Nat} {x : List Resource} (hne : ls ≠ []) (hs : Short ls)
    (h : Shows rd p (wire ls)) (hlim : (wire ls).length ≤ limit)
    (hw : walkAnswers rd limit (n + 1) p = some (x, p')) :
    ∃ r rs, x = r :: rs ∧ r.name = readable ls := by
  have hlen := length_le_wire ls
  have hname := readLabels_wire hne hs h (show ls.length ≤ limit + 1 by omega)
  simp only [walkAnswers, hname, Option.bind_eq_bind, Option.bind_some,
    Option.bind_eq_some_iff] at hw
  obtain ⟨_, _, _, _, _, _, _, _, _, _, _, _, heq⟩ := hw
  obtain ⟨rfl, -⟩ := Prod.mk.inj (Option.some.inj heq)
  exact ⟨_, _, rfl, rfl⟩

theorem walkAnswers_cons {type cls : Nat} {rdata : List UInt8} {d : Data} (hne : ls ≠ [])
    (hs : Short ls) (hr : readable ls = ls) (htype : type < 65536) (hcls : cls < 65536)
    (hlen : rdata.length < 65536)
    (h : Shows rd p (wire ls ++ (answerHeader type cls 255 rdata.length ++ rdata)))
    (hlim : p + (wire ls).length ≤ limit)
    (hd : readData rd limit type (p + (wire ls).length + 10) rdata.length = some d) :
    walkAnswers rd limit (n + 1) p =
      (walkAnswers rd limit n (p + (wire ls).length + 10 + rdata.length)).map fun r =>
        (⟨ls, type, cls, d⟩ :: r.1, r.2) := by
  obtain ⟨hname, hbody⟩ := shows_append.mp h
  have hsize := length_le_wire ls
  have hparse := parseName_readable hne hs hname hr hlim
  have hread := readLabels_wire hne hs hname (show ls.length ≤ limit + 1 by omega)
  rw [hr] at hread
  simp only [answerHeader, shows_append, List.length_append] at hbody
  obtain ⟨⟨⟨⟨ht, hc⟩, -⟩, hl⟩, -⟩ := hbody
  have ht := rd16_be16 htype ht
  have hc : rd16 rd (p + (wire ls).length + 2) = some cls := rd16_be16 hcls hc
  have hl : rd16 rd (p + (wire ls).length + 8) = some rdata.length := rd16_be16 hlen hl
  simp only [walkAnswers, hparse, hread, ht, hc, hl, hd, Option.bind_eq_bind, Option.bind_some,
    Option.join_some, Option.pure_def]
  cases walkAnswers rd limit n (p + (wire ls).length + 10 + rdata.length) with
  | none => rfl
  | some r => rfl

theorem walkQuestions_name {p' : Nat} {x : List Resource} (hne : ls ≠ []) (hs : Short ls)
    (h : Shows rd p (wire ls)) (hlim : (wire ls).length ≤ limit)
    (hw : walkQuestions rd limit (n + 1) p = some (x, p')) :
    ∃ r rs, x = r :: rs ∧ r.name = readable ls := by
  have hlen := length_le_wire ls
  have hname := readLabels_wire hne hs h (show ls.length ≤ limit + 1 by omega)
  simp only [walkQuestions, hname, Option.bind_eq_bind, Option.bind_some,
    Option.bind_eq_some_iff] at hw
  obtain ⟨_, _, _, _, _, _, _, _, heq⟩ := hw
  obtain ⟨rfl, -⟩ := Prod.mk.inj (Option.some.inj heq)
  exact ⟨_, _, rfl, rfl⟩

theorem walkQuestions_cons {type cls : Nat} (hne : ls ≠ []) (hs : Short ls)
    (hr : readable ls = ls) (htype : type < 65536) (hcls : cls < 65536)
    (h : Shows rd p (wire ls ++ (be16 type ++ be16 cls)))
    (hlim : p + (wire ls).length ≤ limit) :
    walkQuestions rd limit (n + 1) p =
      (walkQuestions rd limit n (p + (wire ls).length + 4)).map fun r =>
        (⟨ls, type, cls, .question⟩ :: r.1, r.2) := by
  obtain ⟨hname, hbody⟩ := shows_append.mp h
  have hsize := length_le_wire ls
  have hparse := parseName_readable hne hs hname hr hlim
  have hread := readLabels_wire hne hs hname (show ls.length ≤ limit + 1 by omega)
  rw [hr] at hread
  obtain ⟨ht, hc⟩ := shows_append.mp hbody
  have ht := rd16_be16 htype ht
  have hc : rd16 rd (p + (wire ls).length + 2) = some cls := rd16_be16 hcls hc
  simp only [walkQuestions, hparse, hread, ht, hc, Option.bind_eq_bind, Option.bind_some,
    Option.join_some, Option.pure_def]
  cases walkQuestions rd limit n (p + (wire ls).length + 4) with
  | none => rfl
  | some r => rfl

-- One record: what it gives back is wanted, and the walk goes on behind it.
theorem answer_step {type cls : Nat} {rdata : List UInt8} {d : Data} {want : Option Resource}
    {ok : Prop} {rs : List Resource} {p' : Nat} (hne : ls ≠ [])
    (hs : Short ls) (htype : type < 65536) (hcls : cls < 65536) (hlen : rdata.length < 65536)
    (h : Shows rd p (wire ls ++ (answerHeader type cls 255 rdata.length ++ rdata)))
    (hlim : p + (wire ls).length ≤ limit)
    (hd : readData rd limit type (p + (wire ls).length + 10) rdata.length = some d)
    (hname : ∀ r ∈ want, r.name = readable ls → readable ls = ls) (hok : ok → readable ls = ls)
    (hwant : readable ls = ls → (want = some ⟨ls, type, cls, d⟩ ↔ ok)) :
    (∃ r, want = some r ∧ walkAnswers rd limit (n + 1) p = some (r :: rs, p')) ↔
      ok ∧ walkAnswers rd limit n (p + (wire ls).length + 10 + rdata.length) = some (rs, p') := by
  constructor
  · rintro ⟨r, hr, hw⟩
    obtain ⟨x, xs, heq, hx⟩ := walkAnswers_name hne hs (shows_append.mp h).1 (by omega) hw
    obtain ⟨rfl, rfl⟩ := List.cons.inj heq
    have hread := hname r hr hx
    rw [walkAnswers_cons hne hs hread htype hcls hlen h hlim hd, Option.map_eq_some_iff] at hw
    obtain ⟨⟨ys, q⟩, hw, hcons⟩ := hw
    obtain ⟨hrecords, rfl⟩ := Prod.mk.inj hcons
    obtain ⟨rfl, rfl⟩ := List.cons.inj hrecords
    exact ⟨(hwant hread).mp hr, hw⟩
  · rintro ⟨ho, hw⟩
    have hread := hok ho
    refine ⟨_, (hwant hread).mpr ho, ?_⟩
    rw [walkAnswers_cons hne hs hread htype hcls hlen h hlim hd, hw]
    rfl

end Walk

section Gives

variable (table : Table) (canonical : Option Entry)

def reverseLabels (addr : Addr) : List (List UInt8) :=
  addr.toList.reverse.map (fun b => mdnsItoa b.toNat) ++ [text "in-addr", text "arpa"]

def ptrLabels (e : Entry) : List (List UInt8) :=
  if e.entryType = .srvEntry then labels e.namePostfix else reverseLabels e.ipaddr

-- The entry's data.
def record (e : Entry) : Kind → Option Resource
  | .any => some ⟨e.nameLabels, rrtypeAny, rrclassIn, .question⟩
  | .host =>
    some ⟨e.nameLabels, rrtypeA, rrclassIn ||| rrclassFlush, .address e.ipaddr.toList⟩
  | .ptr => some ⟨ptrLabels e, rrtypePtr, rrclassIn, .target e.nameLabels⟩
  | .srv => canonical.map fun c =>
      ⟨e.nameLabels, rrtypeSrv, rrclassIn, .service e.srvPort c.nameLabels⟩
  | .txt => some ⟨e.nameLabels, rrtypeTxt, rrclassIn, .strings e.txtRecord⟩

-- What the entry's data must be like to survive.
def Survives (e : Entry) : Kind → Prop
  | .any | .host | .ptr => e.Clean
  | .srv => e.Clean ∧ 0 ≤ e.srvPort ∧ e.srvPort < 65536 ∧ ∃ c ∈ canonical, c.Clean
  | .txt => e.Clean ∧ dot ∉ e.txtRecord

instance (e : Entry) (k : Kind) : Decidable (Survives canonical e k) := by
  cases k <;> unfold Survives <;> infer_instance

variable {canonical}

theorem clean_of_survives {e : Entry} {k : Kind} (h : Survives canonical e k) : e.Clean := by
  cases k with
  | any | host | ptr => exact h
  | srv | txt => exact h.1

end Gives

section Parts

variable {rd : Nat → Option UInt8} {limit p n : Nat} {e : Entry} {canonical : Option Entry}
  {rs : List Resource} {p' : Nat}

theorem short_name (hl : e.name.length < mdnsMaxNameLength) : Short (labels e.name) :=
  short_labels (Nat.lt_trans hl (by decide))

theorem readLabels_name (hl : e.name.length < mdnsMaxNameLength)
    (h : Shows rd p (mdnsEncodeName e.name)) (hlim : (mdnsEncodeName e.name).length ≤ limit) :
    readLabels rd (limit + 1) p = some (readable (labels e.name)) := by
  rw [encodeName_eq] at h hlim
  have hlen := length_le_wire (labels e.name)
  exact readLabels_wire (labelsFrom_ne_nil [] _) (short_name hl) h (by omega)

-- A record that is owned by the entry's own name.
theorem named_step (h : e.Formed) (hl : e.name.length < mdnsMaxNameLength) (kind : Kind)
    {bytes rdata : List UInt8} {type cls : Nat} {d : Data}
    (hbytes : bytes = mdnsEncodeName e.name ++ (answerHeader type cls 255 rdata.length ++ rdata))
    (hs : Shows rd p bytes) (hlim : p + bytes.length ≤ limit)
    (htype : type < 65536) (hcls : cls < 65536) (hlen : rdata.length < 65536)
    (hd : Shows rd (p + (mdnsEncodeName e.name).length + 10) rdata → rdata.length ≤ limit →
      readData rd limit type (p + (mdnsEncodeName e.name).length + 10) rdata.length = some d)
    (hname : ∀ r ∈ record canonical e kind, r.name = e.nameLabels)
    (hclean : Survives canonical e kind → e.Clean)
    (hwant : e.Clean →
      (record canonical e kind = some ⟨e.nameLabels, type, cls, d⟩ ↔ Survives canonical e kind)) :
    (∃ r, record canonical e kind = some r ∧
      walkAnswers rd limit (n + 1) p = some (r :: rs, p')) ↔
      Survives canonical e kind ∧ walkAnswers rd limit n (p + bytes.length) = some (rs, p') := by
  subst hbytes
  have hdata := (shows_append.mp (shows_append.mp hs).2).2
  simp only [List.length_append, length_answerHeader] at hlim hdata
  have hread := hd hdata (by omega)
  rw [encodeName_eq] at hs hread hlim
  have heq : p + (mdnsEncodeName e.name ++
      (answerHeader type cls 255 rdata.length ++ rdata)).length =
      p + (wire (labels e.name)).length + 10 + rdata.length := by
    rw [encodeName_eq]
    simp
    omega
  have hkeep (hc : e.Clean) : readable (labels e.name) = labels e.name := by
    rw [hc.labels_name h, hc.readable]
  rw [heq]
  refine answer_step (labelsFrom_ne_nil [] _) (short_name hl) htype hcls hlen hs (by omega) hread
    (fun r hr hn => ?_) (fun ho => hkeep (hclean ho)) fun hr => ?_
  · exact hkeep ((readable_name_iff h).mp (hn.symm.trans (hname r hr)))
  · by_cases hc : e.Clean
    · rw [hc.labels_name h]
      exact hwant hc
    · refine iff_of_false (fun hrec => ?_) fun ho => hc (hclean ho)
      have hn := hname _ (Option.mem_def.mpr hrec)
      exact hc ((readable_name_iff h).mp (hr.trans hn))

theorem host_step (h : e.Formed) (hl : e.name.length < mdnsMaxNameLength)
    (hs : Shows rd p (mdnsSendHostResponse e))
    (hlim : p + (mdnsSendHostResponse e).length ≤ limit) :
    (∃ r, record canonical e .host = some r ∧ walkAnswers rd limit (n + 1) p = some (r :: rs, p')) ↔
      Survives canonical e .host ∧
        walkAnswers rd limit n (p + (mdnsSendHostResponse e).length) = some (rs, p') := by
  have hbytes : mdnsSendHostResponse e = mdnsEncodeName e.name ++
      (answerHeader rrtypeA (rrclassIn ||| rrclassFlush) 255 e.ipaddr.toList.length ++
        e.ipaddr.toList) := by
    rw [mdnsSendHostResponse, Vector.length_toList, List.append_assoc]
  refine named_step (d := .address e.ipaddr.toList) h hl .host
    hbytes hs hlim (by decide) (by decide) (by simp)
    (fun hshows _ => ?_) ?_ id fun hc => ?_
  · exact congrArg (Option.map Data.address) (readBytes_shows hshows)
  · rintro r ⟨⟩
    rfl
  · exact iff_of_true rfl hc

theorem txt_step (h : e.Formed) (hl : e.name.length < mdnsMaxNameLength)
    (htxt : e.txtRecord.length ≤ 255)
    (hs : Shows rd p (mdnsSendTxtResponse e))
    (hlim : p + (mdnsSendTxtResponse e).length ≤ limit) :
    (∃ r, record canonical e .txt = some r ∧ walkAnswers rd limit (n + 1) p = some (r :: rs, p')) ↔
      Survives canonical e .txt ∧
        walkAnswers rd limit n (p + (mdnsSendTxtResponse e).length) = some (rs, p') := by
  have hbytes : mdnsSendTxtResponse e = mdnsEncodeName e.name ++ (answerHeader rrtypeTxt rrclassIn
      255 (mdnsEncodeName e.txtRecord).length ++ mdnsEncodeName e.txtRecord) := by
    rw [mdnsSendTxtResponse, List.append_assoc]
  have hsize : (mdnsEncodeName e.txtRecord).length < 65536 := by
    rw [length_encodeName, nameSize]
    split <;> omega
  refine named_step (d := .strings (labels e.txtRecord).flatten) h hl .txt hbytes hs hlim
    (by decide) (by decide) hsize (fun hshows hroom => ?_) ?_ And.left fun hc => ?_
  · rw [encodeName_eq e.txtRecord] at hshows hroom ⊢
    have hlen := length_le_wire (labels e.txtRecord)
    have hshort : ∀ l ∈ labels e.txtRecord, l.length < 256 := by
      intro l hmem
      have := length_of_mem_labelsFrom hmem
      rw [List.length_nil] at this
      omega
    have hfuel : (labels e.txtRecord).length + 1 < limit + 1 := by omega
    exact congrArg (Option.map Data.strings) (readStrings_wire hshort hshows hfuel)
  · rintro r ⟨⟩
    rfl
  · rw [Survives, ← flatten_labels_iff, record]
    simp [hc, eq_comm]

theorem srv_step (h : e.Formed) (hl : e.name.length < mdnsMaxNameLength) {c : Entry}
    (hc : c.Formed) (hcl : c.name.length < mdnsMaxNameLength)
    (hs : Shows rd p (srvBody e (mdnsEncodeName c.name)))
    (hlim : p + (srvBody e (mdnsEncodeName c.name)).length ≤ limit) :
    (∃ r, record (some c) e .srv = some r ∧ walkAnswers rd limit (n + 1) p = some (r :: rs, p')) ↔
      Survives (some c) e .srv ∧
        walkAnswers rd limit n (p + (srvBody e (mdnsEncodeName c.name)).length) =
          some (rs, p') := by
  have hbytes : srvBody e (mdnsEncodeName c.name) = mdnsEncodeName e.name ++
      (answerHeader rrtypeSrv rrclassIn 255 (srvHeader e ++ mdnsEncodeName c.name).length ++
        (srvHeader e ++ mdnsEncodeName c.name)) := by
    rw [srvBody, List.length_append, length_srvHeader, List.append_assoc, List.append_assoc]
  have hsize : (srvHeader e ++ mdnsEncodeName c.name).length < 65536 := by
    rw [List.length_append, length_srvHeader, length_encodeName, nameSize]
    unfold mdnsMaxNameLength at hcl
    split <;> omega
  refine named_step (d := .service (e.srvPort % 65536) (readable (labels c.name))) h hl .srv hbytes
    hs hlim (by decide) (by decide) hsize (fun hshows hroom => ?_) ?_ And.left fun hclean => ?_
  · obtain ⟨hhdr, htarget⟩ := shows_append.mp hshows
    obtain ⟨-, hport⟩ := shows_append.mp hhdr
    have hmod : (e.srvPort % 65536).toNat < 65536 := by omega
    have hport := rd16_be16 hmod hport
    have hle : (mdnsEncodeName c.name).length ≤ limit := by
      rw [List.length_append] at hroom
      omega
    have htarget := readLabels_name hcl htarget hle
    have hcast : ((e.srvPort % 65536).toNat : Int) = e.srvPort % 65536 :=
      Int.toNat_of_nonneg (Int.emod_nonneg _ (by decide))
    simp only [length_srvHeader, List.length_append, length_be16] at hport htarget
    rw [← hcast]
    generalize p + (mdnsEncodeName e.name).length + 10 = q at hport htarget
    simp only [readData, rrtypeSrv, rrtypeA, rrtypePtr, htarget]
    simp [hport]
  · rintro r ⟨⟩
    rfl
  · have hport : e.srvPort = e.srvPort % 65536 ↔ 0 ≤ e.srvPort ∧ e.srvPort < 65536 := by omega
    have htarget : c.nameLabels = readable (labels c.name) ↔ c.Clean :=
      eq_comm.trans (readable_name_iff hc)
    simp [record, Survives, hclean, hport, htarget, and_assoc]

theorem encodeIp_eq (addr : Addr) : mdnsEncodeIp addr = wire (reverseLabels addr) := by
  simp only [mdnsEncodeIp, wire, reverseLabels, List.flatMap_append, List.flatMap_map,
    List.append_assoc]
  rfl

theorem ptrOwner_eq (e : Entry) : ptrOwner e = wire (ptrLabels e) := by
  unfold ptrOwner ptrLabels
  split
  · exact encodeName_eq _
  · exact encodeIp_eq _

theorem reverseLabels_short {addr : Addr} {l : List UInt8} (h : l ∈ reverseLabels addr) :
    l ≠ [] ∧ l.length < 192 := by
  have hdigits (b : UInt8) : 1 ≤ digits b ∧ digits b ≤ 3 := by
    unfold digits
    split
    · omega
    · split <;> omega
  rcases List.mem_append.mp h with h | h
  · obtain ⟨b, -, rfl⟩ := List.mem_map.mp h
    obtain ⟨hmin, hmax⟩ := hdigits b
    rw [← length_itoa] at hmin hmax
    exact ⟨List.ne_nil_of_length_pos hmin, by omega⟩
  · revert h
    have hall : ∀ x ∈ [text "in-addr", text "arpa"], x ≠ [] ∧ x.length < 192 := by decide
    exact hall l

theorem ptrLabels_ne_nil (e : Entry) : ptrLabels e ≠ [] := by
  unfold ptrLabels
  split
  · exact labelsFrom_ne_nil [] _
  · simp [reverseLabels]

theorem ptrLabels_short (h : e.Formed) (hl : e.name.length < mdnsMaxNameLength) :
    Short (ptrLabels e) := by
  unfold ptrLabels
  split
  · rw [h.name_eq, List.length_append, List.length_cons] at hl
    unfold mdnsMaxNameLength at hl
    exact short_labels (by omega)
  · exact fun l hmem => (reverseLabels_short hmem).2

theorem readable_ptrLabels (hc : e.Clean) : readable (ptrLabels e) = ptrLabels e := by
  refine readable_eq_self fun l hmem hnil => ?_
  have hmem := List.mem_of_mem_tail hmem
  subst hnil
  unfold ptrLabels at hmem
  split at hmem
  · exact hc.namePostfix hmem
  · exact (reverseLabels_short hmem).1 rfl

theorem ptr_step (h : e.Formed) (hl : e.name.length < mdnsMaxNameLength)
    (hs : Shows rd p (mdnsSendPtrResponse e))
    (hlim : p + (mdnsSendPtrResponse e).length ≤ limit) :
    (∃ r, record canonical e .ptr = some r ∧ walkAnswers rd limit (n + 1) p = some (r :: rs, p')) ↔
      Survives canonical e .ptr ∧
        walkAnswers rd limit n (p + (mdnsSendPtrResponse e).length) = some (rs, p') := by
  have hbytes : mdnsSendPtrResponse e = wire (ptrLabels e) ++
      (answerHeader rrtypePtr rrclassIn 255 (mdnsEncodeName e.name).length ++
        mdnsEncodeName e.name) := by
    rw [mdnsSendPtrResponse, ptrOwner_eq, List.append_assoc]
  have heq : p + (mdnsSendPtrResponse e).length =
      p + (wire (ptrLabels e)).length + 10 + (mdnsEncodeName e.name).length := by
    rw [hbytes]
    simp only [List.length_append, length_answerHeader]
    omega
  have hsize : (mdnsEncodeName e.name).length < 65536 := by
    unfold mdnsMaxNameLength at hl
    rw [length_encodeName, nameSize]
    split <;> omega
  rw [heq] at hlim ⊢
  rw [hbytes] at hs
  have htarget := (shows_append.mp (shows_append.mp hs).2).2
  have htarget := readLabels_name hl htarget (show _ ≤ limit by omega)
  refine answer_step (d := .target (readable (labels e.name))) (ptrLabels_ne_nil e)
    (ptrLabels_short h hl) (by decide) (by decide) hsize hs (by omega)
    (congrArg (Option.map Data.target) htarget) (fun r hr hn => ?_) readable_ptrLabels
    fun _ => ?_
  · obtain rfl := Option.some.inj hr
    exact hn.symm
  · rw [record, Survives, ← readable_name_iff h]
    simp [eq_comm]

theorem question_step (h : e.Formed) (hl : e.name.length < mdnsMaxNameLength)
    (hs : Shows rd p (mdnsSendProbe e)) (hlim : p + (mdnsSendProbe e).length ≤ limit) :
    (∃ r, record canonical e .any = some r ∧
      walkQuestions rd limit (n + 1) p = some (r :: rs, p')) ↔
      Survives canonical e .any ∧
        walkQuestions rd limit n (p + (mdnsSendProbe e).length) = some (rs, p') := by
  have hbytes : mdnsSendProbe e = wire (labels e.name) ++ (be16 rrtypeAny ++ be16 rrclassIn) := by
    rw [mdnsSendProbe, encodeName_eq, List.append_assoc]
  have heq : p + (mdnsSendProbe e).length = p + (wire (labels e.name)).length + 4 := by
    rw [hbytes]
    simp only [List.length_append, length_be16]
    omega
  have hne : labels e.name ≠ [] := labelsFrom_ne_nil [] e.name
  rw [heq] at hlim ⊢
  rw [hbytes] at hs
  constructor
  · rintro ⟨r, hr, hw⟩
    obtain ⟨x, xs, hcons, hx⟩ :=
      walkQuestions_name hne (short_name hl) (shows_append.mp hs).1 (by omega) hw
    obtain ⟨rfl, rfl⟩ := List.cons.inj hcons
    obtain rfl := Option.some.inj hr
    have hc := (readable_name_iff h).mp hx.symm
    have hkeep : readable (labels e.name) = labels e.name := by
      rw [hc.labels_name h, hc.readable]
    rw [walkQuestions_cons hne (short_name hl) hkeep (by decide) (by decide) hs (by omega),
      Option.map_eq_some_iff] at hw
    obtain ⟨⟨ys, q⟩, hw, hcons⟩ := hw
    obtain ⟨hrecords, rfl⟩ := Prod.mk.inj hcons
    obtain ⟨-, rfl⟩ := List.cons.inj hrecords
    exact ⟨hc, hw⟩
  · rintro ⟨hc, hw⟩
    have hlabels := hc.labels_name h
    have hkeep : readable (labels e.name) = labels e.name := by
      rw [hlabels, hc.readable]
    refine ⟨_, rfl, ?_⟩
    rw [walkQuestions_cons hne (short_name hl) hkeep (by decide) (by decide) hs (by omega), hw,
      hlabels]
    rfl

end Parts

end Xtcp.Mdns
