import Xtcp.Mdns.Event
import Xtcp.Mdns.Fit
import Xtcp.Mdns.Record

namespace Xtcp.Mdns
open View

section Claims

variable (canonical : Option (List UInt8)) (e : Entry)

def hostRecord : Record := ⟨e.name, rrtypeA, rrclassIn ||| rrclassFlush, e.ipaddr.toList⟩

def ptrRecord : Record := ⟨e.namePostfix, rrtypePtr, rrclassIn, mdnsEncodeName e.name⟩

def srvRecord : Record :=
  ⟨e.name, rrtypeSrv, rrclassIn, srvHeader e ++ canonical.elim [] mdnsEncodeName⟩

def txtRecord : Record := ⟨e.name, rrtypeTxt, rrclassIn, mdnsEncodeName e.txtRecord⟩

def claimRecords : List Record :=
  if e.entryType = .srvEntry then [ptrRecord e, srvRecord canonical e, txtRecord e]
  else [hostRecord e]

theorem claimRecords_small {r : Record} (h : r ∈ claimRecords canonical e) :
    r.type < 65536 ∧ r.cls < 65536 := by
  have hptr : rrtypePtr < 65536 ∧ rrclassIn < 65536 := by decide
  have hsrv : rrtypeSrv < 65536 ∧ rrclassIn < 65536 := by decide
  have htxt : rrtypeTxt < 65536 ∧ rrclassIn < 65536 := by decide
  have hhost : rrtypeA < 65536 ∧ rrclassIn ||| rrclassFlush < 65536 := by decide
  unfold claimRecords at h
  split at h
  · simp only [List.mem_cons, List.not_mem_nil, or_false] at h
    rcases h with rfl | rfl | rfl
    · exact hptr
    · exact hsrv
    · exact htxt
  · obtain rfl := List.mem_singleton.mp h
    exact hhost

theorem length_claimRecords : (claimRecords canonical e).length ≤ 3 := by
  unfold claimRecords
  split
  · exact Nat.le_refl 3
  · exact Nat.le_add_left 1 2

theorem data_claimParts (i : Nat) (part : Section) :
    (claimParts canonical i part e).map (·.data) = (claimRecords canonical e).map Record.bytes := by
  unfold claimParts claimRecords
  split
  · next hs =>
    have hptr : mdnsSendPtrResponse e = (ptrRecord e).bytes := by
      simp [mdnsSendPtrResponse, ptrOwner, hs, ptrRecord, Record.bytes, Record.body]
    have hsrv : (srvPart canonical i part e).data = (srvRecord canonical e).bytes := by
      cases canonical with
      | none => simp [srvPart, srvBody, srvRecord, Record.bytes, Record.body]
      | some name =>
        simp [srvPart, srvBody, srvRecord, Record.bytes, Record.body]
    have htxt : mdnsSendTxtResponse e = (txtRecord e).bytes := by
      simp [mdnsSendTxtResponse, txtRecord, Record.bytes, Record.body]
    simp [ptrPart, txtPart, hptr, hsrv, htxt]
  · simp [hostPart, mdnsSendHostResponse, hostRecord, Record.bytes, Record.body]

end Claims

section Walk

variable {rd : Nat → Option UInt8} {limit fuel : Nat}

def questionBytes (name : List UInt8) : List UInt8 :=
  mdnsEncodeName name ++ be16 rrtypeAny ++ be16 rrclassIn

-- What an entry stands for in a contest.
def Entry.claim (e : Entry) : List UInt8 × EntryType × Addr := (e.name, e.entryType, e.ipaddr)

theorem claim_pendName (qtype : Nat) (e : Entry) : (pendName qtype e).claim = e.claim := by
  unfold pendName
  split <;> rfl

theorem nameQuery_total {dptr qtype : Nat}
    (hc : ∀ query, ∃ c, mdnsCompareName rd query dptr = some c)
    (table : Table) : ∃ r, handleNameQuery rd dptr qtype table = some r ∧
      r.1.map Entry.claim = table.map Entry.claim := by
  induction table with
  | nil => exact ⟨_, rfl, rfl⟩
  | cons e es ih =>
    obtain ⟨rs, hrs, hclaim⟩ := ih
    obtain ⟨c, hc⟩ := hc e.name
    have hkeep : (e :: rs.1).map Entry.claim = (e :: es).map Entry.claim := by
      rw [List.map_cons, hclaim, List.map_cons]
    unfold handleNameQuery
    rw [hc, hrs]
    split
    · simp only
      split
      · refine ⟨_, rfl, ?_⟩
        rw [List.map_cons, claim_pendName, List.map_cons]
      · exact ⟨_, rfl, hkeep⟩
    · exact ⟨_, rfl, hkeep⟩

theorem questions_walk {names : List (List UInt8)} {addr : Nat → Addr} {w : Walk}
    (hs : ∀ s ∈ names, Proper s ∧ s.length < 192)
    (h : Shows rd w.dptr (names.flatMap questionBytes))
    (hlim : w.dptr + (names.flatMap questionBytes).length ≤ limit) (hf : 192 ≤ fuel) :
    ∃ w', recvQuestions rd fuel limit addr names.length w = some w' ∧
      w'.dptr = w.dptr + (names.flatMap questionBytes).length ∧
      w'.table.map Entry.claim = w.table.map Entry.claim := by
  induction names generalizing w with
  | nil => exact ⟨w, rfl, by simp, rfl⟩
  | cons s ss ih =>
    obtain ⟨hp, hl⟩ := hs s (List.mem_cons_self ..)
    rw [List.flatMap_cons, List.length_append] at hlim
    rw [List.flatMap_cons, shows_append] at h
    obtain ⟨hq, hrest⟩ := h
    have hlen : (questionBytes s).length = (mdnsEncodeName s).length + 4 := by
      simp [questionBytes, be16]
    unfold questionBytes at hq
    rw [shows_append, shows_append] at hq
    obtain ⟨⟨hname, htype⟩, hcls⟩ := hq
    have hparse : mdnsParseName rd limit fuel w.dptr =
        some (some (w.dptr + (mdnsEncodeName s).length)) :=
      parseName_wire hp hl hname (by omega) (Nat.lt_of_lt_of_le hl hf)
    have htype : rd16 rd (w.dptr + (mdnsEncodeName s).length) = some rrtypeAny :=
      rd16_be16 (by decide) htype
    have hcls : rd16 rd (w.dptr + (mdnsEncodeName s).length + 2) = some rrclassIn := by
      rw [List.length_append] at hcls
      exact rd16_be16 (by decide) hcls
    obtain ⟨r, hr, hclaim⟩ : ∃ r, handleNameQuery rd w.dptr rrtypeAny w.table = some r ∧
        r.1.map Entry.claim = w.table.map Entry.claim :=
      nameQuery_total (fun query => ⟨_, compareName_wire hl hname query⟩) w.table
    have hquestion : handleQuestion rd fuel (addr ss.length) w.dptr
        (w.dptr + (mdnsEncodeName s).length) w.table = some r := by
      unfold handleQuestion
      rw [hcls]
      simp only [if_true, htype]
      rw [if_neg (by decide)]
      exact hr
    have hnext : w.dptr + (questionBytes s).length = w.dptr + (mdnsEncodeName s).length + 4 := by
      omega
    rw [hnext] at hrest
    obtain ⟨w', hw', hd, hw⟩ := @ih (w.then (w.dptr + (mdnsEncodeName s).length + 4) r)
      (fun x hx => hs x (List.mem_cons_of_mem _ hx)) hrest
      (by simp only [Walk.then]; omega)
    refine ⟨w', ?_, ?_, hw.trans hclaim⟩
    · rw [List.length_cons, recvQuestions, hparse]
      simp only [hquestion]
      exact hw'
    · rw [hd, List.flatMap_cons, List.length_append]
      simp only [Walk.then]
      omega

end Walk

def probeMessage (t : Nat) (table : Table) : Sent := ⟨.probe, (mdnsSendProbes t table).2⟩

-- A host at the time it probes for the name of an entry, with what it sends.
structure Bid where
  table : Table
  clock : Nat
  index : Nat
  entry : Entry
  size : table.length = mdnsNumTableEntries
  fits : ∀ e ∈ table, e.Fits
  settled : ∀ e ∈ table, e.state ≠ .probePartialSent
  get : table[index]? = some entry
  waiting : entry.state = .probeWait
  proper : ∀ e ∈ table, e.state = .probeWait →
    Proper e.name ∧ (e.entryType = .srvEntry → Proper e.namePostfix)

namespace Bid

variable (b : Bid)

def message : Sent := probeMessage b.clock b.table

def canonical : Option (List UInt8) := firstCanonicalName b.table

def names : List (List UInt8) := (b.table.filter Mdns.waiting).map (·.name)

def records : List Record := (b.table.filter Mdns.waiting).flatMap (claimRecords b.canonical)

theorem message_parts : b.message.parts =
    (askProbes 0 hdrSize b.table).2 ++ authorities b.canonical (b.table.map wake) :=
  probes_parts b.size (fun e he => (b.fits e he).name) b.clock

theorem data_asked : (askProbes 0 hdrSize b.table).2.map (·.data) = b.names.map questionBytes := by
  have hu : hdrSize + 105 * b.table.length < xtcpClientBufSize := by
    rw [b.size]
    decide
  have hname : ∀ e ∈ b.table, e.name.length < mdnsMaxNameLength := fun e he => (b.fits e he).name
  have hd := congrArg (List.map (·.1)) (@askProbes_all 0 hdrSize b.table hname hu).2
  rw [List.map_map, List.map_map] at hd
  rw [names, List.map_map]
  exact hd

theorem filter_bidding : b.table.filter bidding = b.table.filter Mdns.waiting := by
  refine List.filter_congr ?_
  intro e he
  have := b.settled e he
  simp [bidding, Mdns.waiting, this]

theorem data_authorities : (authorities b.canonical (b.table.map wake)).map (·.data) =
    b.records.map Record.bytes := by
  rw [map_authorities fun i e => data_claimParts b.canonical e i .authority, filter_bidding,
    records, List.map_flatMap]

theorem mem_waiting {x : Entry} (h : x ∈ b.table.filter Mdns.waiting) :
    x ∈ b.table ∧ x.state = .probeWait := by
  obtain ⟨hx, hw⟩ := List.mem_filter.mp h
  exact ⟨hx, beq_iff_eq.mp hw⟩

theorem length_canonical {name : List UInt8} (h : b.canonical = some name) :
    name.length < mdnsMaxNameLength := by
  obtain ⟨x, hx, rfl⟩ := Option.map_eq_some_iff.mp h
  exact (b.fits x (List.mem_of_find?_eq_some hx)).name

theorem sound {r : Record} (h : r ∈ b.records) : r.Sound := by
  obtain ⟨x, hx, hr⟩ := List.mem_flatMap.mp h
  obtain ⟨hmem, hs⟩ := b.mem_waiting hx
  obtain ⟨hname, howner⟩ := b.proper x hmem hs
  have hf := b.fits x hmem
  have hn : x.name.length < 100 := hf.name
  have hpost : x.namePostfix.length < 100 := hf.namePostfix
  have htxt : x.txtRecord.length < 100 := hf.txtRecord
  have henc (s : List UInt8) : (mdnsEncodeName s).length ≤ s.length + 2 := by
    rw [length_encodeName, nameSize]
    split <;> omega
  obtain ⟨htype, hcls⟩ := claimRecords_small _ _ hr
  unfold claimRecords at hr
  split at hr
  · next hsrv =>
    simp only [List.mem_cons, List.not_mem_nil, or_false] at hr
    rcases hr with rfl | rfl | rfl
    · have := henc x.name
      exact ⟨howner hsrv, Nat.lt_trans hpost (by decide), htype, hcls,
        by simp only [ptrRecord]; omega⟩
    · refine ⟨hname, Nat.lt_trans hn (by decide), htype, hcls, ?_⟩
      cases hc : b.canonical with
      | none => simp [srvRecord]
      | some name =>
        have hl : name.length < 100 := b.length_canonical hc
        have := henc name
        simp only [srvRecord, Option.elim, List.length_append, length_srvHeader]
        omega
    · have := henc x.txtRecord
      exact ⟨hname, Nat.lt_trans hn (by decide), htype, hcls,
        by simp only [txtRecord]; omega⟩
  · obtain rfl := List.mem_singleton.mp hr
    exact ⟨hname, Nat.lt_trans hn (by decide), htype, hcls, by simp [hostRecord]⟩

theorem count_message : numProbes b.message.parts = b.names.length ∧
    numAuthRecords b.message.parts = b.records.length := by
  have hn := congrArg List.length b.data_asked
  have hr := congrArg List.length b.data_authorities
  rw [List.length_map, List.length_map] at hn hr
  rw [message_parts, ← hn, ← hr]
  exact count_probes ..

theorem data_message : b.message.data = b.message.header ++
    (b.names.flatMap questionBytes ++ b.records.flatMap Record.bytes) := by
  rw [Sent.data, message_parts, List.flatMap_append, List.flatMap_def, List.flatMap_def,
    b.data_asked, b.data_authorities]
  rfl

theorem few_records : b.names.length ≤ 5 ∧ b.records.length ≤ 15 := by
  have hw : (b.table.filter Mdns.waiting).length ≤ 5 := by
    refine (List.length_filter_le ..).trans ?_
    rw [b.size]
    decide
  have hc (es : Table) : (es.flatMap (claimRecords b.canonical)).length ≤ 3 * es.length := by
    induction es with
    | nil => exact Nat.le_refl _
    | cons e es ih =>
      have he := length_claimRecords b.canonical e
      rw [List.flatMap_cons, List.length_append, List.length_cons]
      omega
  have := hc (b.table.filter Mdns.waiting)
  refine ⟨by rwa [names, List.length_map], ?_⟩
  rw [records]
  omega

-- No other record of the message is of the name, and the PTR record of the service is not.
def Sole : Prop := ∀ k x, b.table[k]? = some x → x.state = .probeWait →
  ∀ r ∈ claimRecords b.canonical x, sameName b.entry.name r.owner →
    k = b.index ∧ r.type ≠ rrtypePtr

-- The record that the other host is to find.
def lowest : Record :=
  if b.entry.entryType = .srvEntry then txtRecord b.entry else hostRecord b.entry

theorem mem_table : b.entry ∈ b.table := List.mem_of_getElem? b.get

theorem filter_records (hs : b.Sole) :
    b.records.filter (fun r => sameName b.entry.name r.owner) =
      (claimRecords b.canonical b.entry).filter fun r => sameName b.entry.name r.owner := by
  obtain ⟨hi, he⟩ := List.getElem?_eq_some_iff.mp b.get
  have hsplit : b.table = b.table.take b.index ++ b.entry :: b.table.drop (b.index + 1) := by
    rw [← he, ← List.drop_eq_getElem_cons hi, List.take_append_drop]
  have hnone {es : Table} (h : ∀ x ∈ es, ∃ k, k ≠ b.index ∧ b.table[k]? = some x) :
      ((es.filter Mdns.waiting).flatMap (claimRecords b.canonical)).filter
        (fun r => sameName b.entry.name r.owner) = [] := by
    refine List.filter_eq_nil_iff.mpr ?_
    intro r hr hname
    obtain ⟨x, hx, hr⟩ := List.mem_flatMap.mp hr
    obtain ⟨hmem, hw⟩ := List.mem_filter.mp hx
    obtain ⟨k, hk, hget⟩ := h x hmem
    exact hk (hs k x hget (beq_iff_eq.mp hw) r hr hname).1
  have hbefore : ∀ x ∈ b.table.take b.index, ∃ k, k ≠ b.index ∧ b.table[k]? = some x := by
    intro x hx
    obtain ⟨k, hk, hget⟩ := List.mem_take_iff_getElem.mp hx
    exact ⟨k, by omega, List.getElem?_eq_some_iff.mpr ⟨_, hget⟩⟩
  have hafter : ∀ x ∈ b.table.drop (b.index + 1), ∃ k, k ≠ b.index ∧ b.table[k]? = some x := by
    intro x hx
    obtain ⟨k, hk, hget⟩ := List.mem_drop_iff_getElem.mp hx
    exact ⟨_, by omega, List.getElem?_eq_some_iff.mpr ⟨_, hget⟩⟩
  have hw : Mdns.waiting b.entry := beq_iff_eq.mpr b.waiting
  rw [records]
  conv_lhs => rw [hsplit]
  rw [List.filter_append, List.filter_cons_of_pos hw, List.flatMap_append, List.flatMap_cons,
    List.filter_append, List.filter_append, hnone hbefore, hnone hafter, List.nil_append,
    List.append_nil]

theorem selected_records (hs : b.Sole) {e : Entry} (he : e.name = b.entry.name) :
    selected e b.records = some b.lowest := by
  obtain ⟨hp, -⟩ := b.proper b.entry b.mem_table b.waiting
  have hl : b.entry.name.length < 192 :=
    Nat.lt_trans (b.fits b.entry b.mem_table).name (by decide)
  have hself := sameName_self hp hl
  have hown := hs b.index b.entry b.get b.waiting
  rw [selected, he, filter_records b hs]
  unfold lowest
  unfold claimRecords at hown ⊢
  split
  · next hsrv =>
    rw [if_pos hsrv] at hown
    have hptr : ¬ sameName b.entry.name (ptrRecord b.entry).owner := fun h =>
      (hown _ (List.mem_cons_self ..) h).2 rfl
    have hlow : (txtRecord b.entry).Below (srvRecord b.canonical b.entry) :=
      Or.inr (Or.inl (show rrtypeTxt < rrtypeSrv by decide))
    have hsrv : sameName b.entry.name (srvRecord b.canonical b.entry).owner := hself
    have htxt : sameName b.entry.name (txtRecord b.entry).owner := hself
    simp only [List.filter_cons, List.filter_nil, if_neg hptr, if_pos hsrv, if_pos htxt,
      List.foldl_cons, List.foldl_nil, pick, if_pos hlow]
  · have hhost : sameName b.entry.name (hostRecord b.entry).owner := hself
    simp only [List.filter_cons, List.filter_nil, if_pos hhost, List.foldl_cons, List.foldl_nil,
      pick]

end Bid

section Exchange

def Carries (d : Datagram) (s : Sent) : Prop :=
  d.len = s.data.length ∧ Shows (fun p => some (d.mem p)) 0 s.data

-- The call of loses_tie_break for the entry at an index.
def tieBreak (fuel : Nat) (d : Datagram) (table : Table) (index : Nat) : Option Bool := do
  let w ← recvRecords (fun p => some (d.mem p)) fuel d.len d.addr table
  let e ← w.1.table[index]?
  losesTieBreak (fun p => some (d.mem p)) fuel d.len e w.1.dptr w.2

variable {d : Datagram} {b : Bid} {fuel : Nat}

theorem records_walk (hd : Carries d b.message) (hf : 192 ≤ fuel) (table : Table) :
    ∃ w, recvRecords (fun p => some (d.mem p)) fuel d.len d.addr table =
        some (w, b.records.length) ∧ w.table.map Entry.claim = table.map Entry.claim ∧
      Shows (fun p => some (d.mem p)) w.dptr (b.records.flatMap Record.bytes) ∧
      w.dptr + (b.records.flatMap Record.bytes).length ≤ d.len := by
  obtain ⟨hlen, hshow⟩ := hd
  obtain ⟨hnames, hrecords⟩ := b.few_records
  obtain ⟨hcn, hcr⟩ := b.count_message
  rw [b.data_message] at hlen hshow
  have hheader : b.message.header = be16 0 ++ [0, 0] ++ be16 b.names.length ++ be16 0 ++
      be16 b.records.length ++ be16 0 := by
    rw [← hcn, ← hcr]
    rfl
  rw [hheader] at hlen hshow
  simp only [shows_append] at hshow
  obtain ⟨⟨⟨⟨⟨-, hquestions⟩, hanswers⟩, hauth⟩, -⟩, hasked, hrest⟩ := hshow
  have hq := rd16_be16 (by omega) hquestions
  have ha := rd16_be16 (by decide) hanswers
  have hn := rd16_be16 (by omega) hauth
  have hs : ∀ s ∈ b.names, Proper s ∧ s.length < 192 := by
    intro s hs
    obtain ⟨x, hx, rfl⟩ := List.mem_map.mp hs
    obtain ⟨hmem, hw⟩ := b.mem_waiting hx
    exact ⟨(b.proper x hmem hw).1, Nat.lt_trans (b.fits x hmem).name (by decide)⟩
  simp only [List.length_append, length_be16, List.length_cons, List.length_nil] at hlen
  obtain ⟨w, hw, hdptr, hclaim⟩ := @questions_walk _ d.len _ _ d.addr ⟨hdrSize, table, []⟩ hs
    hasked (by simp only [hdrSize]; omega) hf
  have hrecv : recvRecords (fun p => some (d.mem p)) fuel d.len d.addr table =
      some (w, b.records.length) := by
    unfold recvRecords
    rw [show rd16 (fun p => some (d.mem p)) 4 = some b.names.length from hq,
      show rd16 (fun p => some (d.mem p)) 6 = some 0 from ha,
      show rd16 (fun p => some (d.mem p)) 8 = some b.records.length from hn]
    simp only [Option.bind_eq_bind, Option.bind_some, hw, recvAnswers, Option.pure_def]
  refine ⟨w, hrecv, hclaim, ?_, ?_⟩
  · rw [hdptr]
    exact hrest
  · rw [hdptr]
    simp only [hdrSize]
    omega

section Outcome

variable {rd : Nat → Option UInt8} {ans : Nat} {e own other : Entry}

theorem compare_txt (h : Answer rd ans (txtRecord other)) :
    mdnsCompareTxtAnswer rd ans e = some 1 := by
  have hpos : mdnsEncodeName other.txtRecord ≠ [] := by
    have := length_encodeName other.txtRecord
    unfold nameSize at this
    rintro hnil
    rw [hnil] at this
    split at this <;> simp at this
  obtain ⟨x, xs, hx⟩ := List.exists_cons_of_ne_nil hpos
  have hdata : compareData (txtRecord other).rdata [] = 1 := by
    change compareData (mdnsEncodeName other.txtRecord) [] = 1
    rw [hx]
    rfl
  rw [mdnsCompareTxtAnswer, compareAnswer_eq h]
  exact congrArg some hdata

theorem compareRecord_host (rrtype : Nat) (own : List UInt8) :
    compareRecord rrtype own (hostRecord other) =
      if rrtype < rrtypeA then 1 else if rrtypeA < rrtype then -1
      else compareData other.ipaddr.toList own := by
  have hcls : (hostRecord other).cls % rrclassFlush = rrclassIn :=
    show (rrclassIn ||| rrclassFlush) % rrclassFlush = rrclassIn by decide
  rw [compareRecord, hcls, if_neg (Nat.lt_irrefl _), if_neg (Nat.lt_irrefl _)]
  rfl

theorem compare_txt_host (h : Answer rd ans (hostRecord other)) :
    mdnsCompareTxtAnswer rd ans e = some (-1) := by
  rw [mdnsCompareTxtAnswer, compareAnswer_eq h, compareRecord_host]
  rfl

theorem compare_host_txt (h : Answer rd ans (txtRecord other)) :
    mdnsCompareHostAnswer rd ans e = some 1 := by
  rw [mdnsCompareHostAnswer, compareAnswer_eq h]
  rfl

theorem compare_host (h : Answer rd ans (hostRecord other)) :
    mdnsCompareHostAnswer rd ans e =
      some (compareData other.ipaddr.toList e.ipaddr.toList) := by
  rw [mdnsCompareHostAnswer, compareAnswer_eq h, compareRecord_host]
  rfl

-- What the call reports of the records that the other host sends.
def outcome (own other : Entry) : Bool :=
  if other.entryType = .srvEntry then true
  else if own.entryType = .srvEntry then false
  else 0 < compareData other.ipaddr.toList own.ipaddr.toList

end Outcome

theorem tieBreak_eq {own : Entry} {table : Table} {index : Nat} (hd : Carries d b.message)
    (hf : 192 ≤ fuel) (hs : b.Sole) (hn : own.name = b.entry.name)
    (hown : ∃ e, table[index]? = some e ∧ e.claim = own.claim) :
    tieBreak fuel d table index = some (outcome own b.entry) := by
  obtain ⟨w, hw, hclaim, hshow, hlim⟩ := records_walk hd hf table
  obtain ⟨e, he, hc⟩ := hown
  obtain ⟨e', he', hc'⟩ : ∃ e', w.table[index]? = some e' ∧ e'.claim = e.claim := by
    have hget := congrArg (·[index]?) hclaim
    simp only [List.getElem?_map, he, Option.map_some] at hget
    exact Option.map_eq_some_iff.mp hget
  obtain ⟨hname, htype, hip⟩ : e'.name = own.name ∧ e'.entryType = own.entryType ∧
      e'.ipaddr = own.ipaddr := by
    simpa [Entry.claim] using hc'.trans hc
  obtain ⟨found, hfind, hsel, hans⟩ :=
    findLowest_selected (e := e') (fun r hr => b.sound hr) hshow hlim hf
  rw [b.selected_records hs (hname.trans hn)] at hsel
  obtain ⟨⟨ans, r⟩, rfl, hr⟩ := Option.map_eq_some_iff.mp hsel
  have hans : Answer (fun p => some (d.mem p)) ans b.lowest := by
    have := hans _ rfl
    rwa [show r = b.lowest from hr] at this
  unfold tieBreak
  rw [hw]
  simp only [Option.bind_eq_bind, Option.bind_some, he']
  unfold losesTieBreak outcome
  rw [hfind, htype]
  simp only [Option.map_some]
  unfold Bid.lowest at hans
  by_cases hb : b.entry.entryType = .srvEntry
  · rw [if_pos hb] at hans
    rw [if_pos hb, compare_txt hans, compare_host_txt hans]
    split
    · rfl
    · rfl
  · rw [if_neg hb] at hans
    rw [if_neg hb, compare_txt_host hans, compare_host hans, hip]
    split
    · rfl
    · rfl

-- The records that a host proposes for the name.
inductive Proposal where
  | address (ipaddr : Addr)
  | service (port : Nat) (target : Option (List UInt8)) (txt : List UInt8)
  deriving DecidableEq, Repr

def Bid.proposal (b : Bid) : Proposal :=
  if b.entry.entryType = .srvEntry then
    .service (b.entry.srvPort % 65536).toNat b.canonical b.entry.txtRecord
  else .address b.entry.ipaddr

-- The table of the host still has the entry that it probed for.
def Bid.Stands (b : Bid) (table : Table) : Prop :=
  ∃ e, table[b.index]? = some e ∧ e.claim = b.entry.claim

theorem Bid.stands_after (b : Bid) : b.Stands (mdnsSendProbes b.clock b.table).1 := by
  have hu : hdrSize + 105 * b.table.length < xtcpClientBufSize := by
    rw [b.size]
    decide
  have hname : ∀ e ∈ b.table, e.name.length < mdnsMaxNameLength := fun e he => (b.fits e he).name
  have ht := (@askProbes_all 0 hdrSize b.table hname hu).1
  refine ⟨probeSent b.clock (wake b.entry), ?_, ?_⟩
  · rw [mdnsSendProbes, ht]
    simp [b.get]
  · unfold probeSent wake
    split <;> split <;> rfl

structure Contest (a b : Bid) : Prop where
  name : a.entry.name = b.entry.name
  left : a.Sole
  right : b.Sole

-- A host loses if its proposal is another one and the other host does not lose.
def Agreement (a b : Bid) (lostA lostB : Bool) : Prop :=
  (a.proposal ≠ b.proposal → lostA ≠ lostB) ∧
    (a.proposal = b.proposal → lostA = false ∧ lostB = false)

theorem agreement_iff (a b : Bid) :
    Agreement a b (outcome a.entry b.entry) (outcome b.entry a.entry) ↔
      ¬ (a.entry.entryType = .srvEntry ∧ b.entry.entryType = .srvEntry) := by
  unfold Agreement outcome Bid.proposal
  by_cases ha : a.entry.entryType = .srvEntry
  · by_cases hb : b.entry.entryType = .srvEntry
    · simp only [ha, hb, if_true]
      simp
    · simp [ha, hb]
  · by_cases hb : b.entry.entryType = .srvEntry
    · simp [ha, hb]
    · simp only [ha, hb, if_false, false_and, not_false_eq_true, iff_true]
      have hneg := compareData_neg a.entry.ipaddr.toList b.entry.ipaddr.toList
      have hzero : compareData a.entry.ipaddr.toList b.entry.ipaddr.toList = 0 ↔
          a.entry.ipaddr = b.entry.ipaddr :=
        compareData_eq_zero.trans Vector.toList_inj
      rw [hneg]
      generalize compareData a.entry.ipaddr.toList b.entry.ipaddr.toList = c at hzero
      refine ⟨?_, ?_⟩
      · intro hne
        have hc : c ≠ 0 := fun h => hne (congrArg _ (hzero.mp h))
        rw [ne_eq, decide_eq_decide]
        omega
      · intro he
        have hc : c = 0 := hzero.mpr (Proposal.address.inj he)
        simp [hc]

theorem tie_break_agreement {a b : Bid} {fuel : Nat} {da db : Datagram} {ta tb : Table}
    (hc : Contest a b) (hf : 192 ≤ fuel) (hda : Carries da a.message)
    (hdb : Carries db b.message) (ha : a.Stands ta) (hb : b.Stands tb) :
    (∃ lostA lostB, tieBreak fuel db ta a.index = some lostA ∧
      tieBreak fuel da tb b.index = some lostB ∧
      (Agreement a b lostA lostB ↔
        ¬ (a.entry.entryType = .srvEntry ∧ b.entry.entryType = .srvEntry))) ∧
    (∀ {rd : Nat → Option UInt8} {ans1 ans2 : Nat} {x y : Record},
      Answer rd ans1 x → Answer rd ans2 y →
      ∃ below above, answerIsLower rd ans1 ans2 = some below ∧
        answerIsLower rd ans2 ans1 = some above ∧
        ((below = true ↔ x.Lex y) ∧ (above = true ↔ y.Lex x) ↔ x.Comparable y)) ∧
    (∀ {rd : Nat → Option UInt8} {limit fuel p : Nat} {rs : List Record} (e : Entry),
      (∀ r ∈ rs, r.Sound) → Shows rd p (rs.flatMap Record.bytes) →
      p + (rs.flatMap Record.bytes).length ≤ limit → 192 ≤ fuel →
      ∃ found : Option (Nat × Record),
        findLowestMatchingAnswer rd fuel limit e none rs.length p none =
          some (found.map (·.1)) ∧
        found.map (·.2) = selected e rs ∧ ∀ x ∈ found, Answer rd x.1 x.2) ∧
    (∀ {rs rs' : List Record} (e : Entry), rs.Perm rs' →
      (∀ x ∈ rs, ∀ y ∈ rs, x.owner = y.owner) → (∀ x ∈ rs, ∀ y ∈ rs, x.Comparable y) →
      selected e rs = selected e rs') ∧
    (∀ {e : Entry} {x y : Record}, sameName e.name x.owner → x.owner = y.owner →
      (selected e [x, y] = selected e [y, x] ↔ x.Comparable y)) := by
  refine ⟨?_, ?_, ?_, ?_, ?_⟩
  · exact ⟨_, _, tieBreak_eq hdb hf hc.right hc.name ha,
      tieBreak_eq hda hf hc.left hc.name.symm hb, agreement_iff a b⟩
  · intro rd ans1 ans2 x y hx hy
    refine ⟨_, _, answerIsLower_eq hx hy, answerIsLower_eq hy hx, ?_⟩
    rw [decide_eq_true_iff, decide_eq_true_iff]
    exact lex_iff_comparable x y
  · intro rd limit fuel p rs e hs h hlim hf
    exact findLowest_selected hs h hlim hf
  · intro rs rs' e hp ho hc
    have hmem {x : Record} (hx : x ∈ rs.filter fun r => sameName e.name r.owner) : x ∈ rs :=
      (List.mem_filter.mp hx).1
    exact foldl_pick_perm (hp.filter _) (fun x hx y hy => ho x (hmem hx) y (hmem hy))
      fun x hx y hy => hc x (hmem hx) y (hmem hy)
  · intro e x y hx ho
    have hy : sameName e.name y.owner := ho ▸ hx
    have hxy : [x, y].filter (fun r => sameName e.name r.owner) = [x, y] := by simp [hx, hy]
    have hyx : [y, x].filter (fun r => sameName e.name r.owner) = [y, x] := by simp [hx, hy]
    rw [selected, selected, hxy, hyx]
    exact pick_comm_iff ho

end Exchange

section Hosts

def started (ipaddr : Addr) (rs : List Registration) : Table :=
  ((mdnsStartEntries (mdnsStart ipaddr ⟨register rs, 0⟩)).map (·.1.table)).getD []

def hostTable (last : UInt8) : Table :=
  started ⟨#[10, 0, 0, last], rfl⟩ [.canonicalName (text "xc")]

def webTable (last : UInt8) : Table :=
  started ⟨#[10, 0, 0, last], rfl⟩
    [.canonicalName (text "xc"), .service (text "web") (text "_http._tcp") 80 []]

def hostEntry (last : UInt8) : Entry := (hostTable last).headD .zero

def webEntry : Entry := (webTable 1).getD 1 .zero

def firstHost : Bid where
  table := hostTable 1
  clock := 0
  index := 0
  entry := hostEntry 1
  size := by decide +kernel
  fits := by decide +kernel
  settled := by decide +kernel
  get := by decide +kernel
  waiting := by decide +kernel
  proper := by decide +kernel

def secondHost : Bid where
  table := hostTable 2
  clock := 0
  index := 0
  entry := hostEntry 2
  size := by decide +kernel
  fits := by decide +kernel
  settled := by decide +kernel
  get := by decide +kernel
  waiting := by decide +kernel
  proper := by decide +kernel

def webHost : Bid where
  table := webTable 1
  clock := 0
  index := 1
  entry := webEntry
  size := by decide +kernel
  fits := by decide +kernel
  settled := by decide +kernel
  get := by decide +kernel
  waiting := by decide +kernel
  proper := by decide +kernel

-- The message in data, with nothing behind it.
def Sent.datagram (s : Sent) : Datagram := ⟨s.data.length, fun p => s.data.getD p 0, fun _ => .zero⟩

theorem carries_datagram (s : Sent) : Carries s.datagram s := by
  refine ⟨rfl, shows_of_getElem? fun k x hx => ?_⟩
  simp [Sent.datagram, List.getD_eq_getElem?_getD, hx]

theorem Bid.sole_of_getElem {b : Bid}
    (h : ∀ k : Fin b.table.length, b.table[k].state = .probeWait →
      ∀ r ∈ claimRecords b.canonical b.table[k], sameName b.entry.name r.owner →
        k.val = b.index ∧ r.type ≠ rrtypePtr) : b.Sole := by
  intro k x hx
  obtain ⟨hk, rfl⟩ := List.getElem?_eq_some_iff.mp hx
  exact h ⟨k, hk⟩

theorem firstHost_contest : Contest firstHost secondHost := by
  refine ⟨by decide +kernel, Bid.sole_of_getElem ?_, Bid.sole_of_getElem ?_⟩
  · decide +kernel
  · decide +kernel

theorem webHost_contest : Contest webHost webHost := by
  have hs : webHost.Sole := Bid.sole_of_getElem (by decide +kernel)
  exact ⟨rfl, hs, hs⟩

theorem tie_break_agreement_hosts :
    (∃ lostA lostB,
      tieBreak 192 secondHost.message.datagram
        (mdnsSendProbes firstHost.clock firstHost.table).1 firstHost.index = some lostA ∧
      tieBreak 192 firstHost.message.datagram
        (mdnsSendProbes secondHost.clock secondHost.table).1 secondHost.index = some lostB ∧
      (Agreement firstHost secondHost lostA lostB ↔
        ¬ (firstHost.entry.entryType = .srvEntry ∧ secondHost.entry.entryType = .srvEntry))) ∧
    (∃ below above,
      answerIsLower (fun p => (hostRecord (hostEntry 1)).body[p]?) 0 0 = some below ∧
      answerIsLower (fun p => (hostRecord (hostEntry 1)).body[p]?) 0 0 = some above ∧
      ((below = true ↔ (hostRecord (hostEntry 1)).Lex (hostRecord (hostEntry 1))) ∧
        (above = true ↔ (hostRecord (hostEntry 1)).Lex (hostRecord (hostEntry 1))) ↔
        (hostRecord (hostEntry 1)).Comparable (hostRecord (hostEntry 1)))) ∧
    (∃ found : Option (Nat × Record),
      findLowestMatchingAnswer (fun p => (hostRecord (hostEntry 1)).bytes[p]?) 192 1472
        (hostEntry 1) none 1 0 none = some (found.map (·.1)) ∧
      found.map (·.2) = selected (hostEntry 1) [hostRecord (hostEntry 1)] ∧
      ∀ x ∈ found, Answer (fun p => (hostRecord (hostEntry 1)).bytes[p]?) x.1 x.2) ∧
    selected (hostEntry 1) [hostRecord (hostEntry 1)] =
      selected (hostEntry 1) [hostRecord (hostEntry 1)] ∧
    (selected (hostEntry 1) [hostRecord (hostEntry 1), hostRecord (hostEntry 2)] =
        selected (hostEntry 1) [hostRecord (hostEntry 2), hostRecord (hostEntry 1)] ↔
      (hostRecord (hostEntry 1)).Comparable (hostRecord (hostEntry 2))) := by
  have hs : (hostRecord (hostEntry 1)).Sound :=
    firstHost.sound (by decide +kernel)
  have ha : Answer (fun p => (hostRecord (hostEntry 1)).body[p]?) 0 (hostRecord (hostEntry 1)) :=
    answer_of_shows hs (shows_getElem? _)
  have hb : Shows (fun p => (hostRecord (hostEntry 1)).bytes[p]?) 0
      ([hostRecord (hostEntry 1)].flatMap Record.bytes) := by
    rw [List.flatMap_singleton]
    exact shows_getElem? _
  have ht := tie_break_agreement firstHost_contest (Nat.le_refl 192)
    (carries_datagram firstHost.message) (carries_datagram secondHost.message)
    firstHost.stands_after secondHost.stands_after
  refine ⟨ht.1, ht.2.1 ha ha, ?_, ?_, ?_⟩
  · exact ht.2.2.1 (hostEntry 1) (by simpa using hs) hb (by decide +kernel) (Nat.le_refl 192)
  · exact ht.2.2.2.1 (hostEntry 1) (List.Perm.refl _) (by simp)
      (by simp [Record.Comparable, Record.Within.refl])
  · exact ht.2.2.2.2 (by decide +kernel) (by decide +kernel)

-- Two hosts with one and the same service both give up its name.
theorem both_services_lose : Contest webHost webHost ∧ webHost.proposal = webHost.proposal ∧
    tieBreak 192 webHost.message.datagram (mdnsSendProbes webHost.clock webHost.table).1
      webHost.index = some true ∧
    ¬ Agreement webHost webHost true true := by
  have hlose := tieBreak_eq (carries_datagram webHost.message) (Nat.le_refl 192)
    webHost_contest.right webHost_contest.name webHost.stands_after
  have hout : outcome webHost.entry webHost.entry = true := by decide +kernel
  rw [hout] at hlose
  exact ⟨webHost_contest, rfl, hlose, fun h => Bool.noConfusion (h.2 rfl).1⟩

end Hosts

end Xtcp.Mdns
