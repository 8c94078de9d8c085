import Xtcp.Mdns.Receive
import Xtcp.Mdns.Sending
import Mathlib.Algebra.BigOperators.Group.List.Basic
import Mathlib.Data.List.Induction

namespace Xtcp.Mdns

section Sizes

def nameSize (s : List UInt8) : Nat := s.length + if s.getLast? = some dot then 1 else 2

theorem length_encodeFrom (label src : List UInt8) :
    (encodeFrom label src).length = label.length + nameSize src := by
  induction src generalizing label with
  | nil => simp [encodeFrom, nameSize]
  | cons c src ih =>
    unfold encodeFrom
    split
    · next hc =>
      subst hc
      split
      · next hs =>
        subst hs
        simp [nameSize]
      · next hs =>
        obtain ⟨x, xs, rfl⟩ := List.exists_cons_of_ne_nil hs
        simp only [List.length_cons, List.length_append, ih, nameSize, List.length_nil]
        rw [List.getLast?_cons_cons]
        omega
    · rw [ih, List.length_append]
      cases src with
      | nil =>
        next hc => simp [nameSize, hc]
      | cons x xs =>
        simp only [nameSize, List.length_cons, List.length_nil]
        rw [List.getLast?_cons_cons]
        omega

@[simp] theorem length_encodeName (s : List UInt8) : (mdnsEncodeName s).length = nameSize s := by
  simp [mdnsEncodeName, length_encodeFrom]

@[simp] theorem length_be16 (x : Nat) : (be16 x).length = 2 := rfl

@[simp] theorem length_be32 (x : Nat) : (be32 x).length = 4 := rfl

@[simp] theorem length_answerHeader (type cls ttl len : Nat) :
    (answerHeader type cls ttl len).length = 10 := rfl

@[simp] theorem length_srvHeader (e : Entry) : (srvHeader e).length = 6 := rfl

-- In decimal.
def digits (b : UInt8) : Nat := if b < 10 then 1 else if b < 100 then 2 else 3

theorem length_itoaLoop_last {fuel x : Nat} (h : x < 10) :
    (itoaLoop (fuel + 1) x).length = 1 := by
  have hx : x / 10 = 0 := by omega
  simp [itoaLoop, hx]

theorem length_itoaLoop_more {fuel x : Nat} (h : 10 ≤ x) :
    (itoaLoop (fuel + 1) x).length = (itoaLoop fuel (x / 10)).length + 1 := by
  have hx : x / 10 ≠ 0 := by omega
  simp [itoaLoop, hx]

theorem length_itoa (b : UInt8) : (mdnsItoa b.toNat).length = digits b := by
  have hb : b.toNat < 256 := b.toNat_lt
  have h10 : b < 10 ↔ b.toNat < 10 := UInt8.lt_iff_toNat_lt
  have h100 : b < 100 ↔ b.toNat < 100 := UInt8.lt_iff_toNat_lt
  rw [mdnsItoa, List.length_reverse, digits]
  simp only [h10, h100]
  generalize b.toNat = x at hb
  split
  · next h => exact length_itoaLoop_last h
  · next h =>
    obtain ⟨n, rfl⟩ : ∃ n, x = n + 1 + 1 := ⟨x - 2, by omega⟩
    rw [length_itoaLoop_more (by omega)]
    split
    · rw [length_itoaLoop_last (by omega)]
    · obtain ⟨m, rfl⟩ : ∃ m, n = m + 1 := ⟨n - 1, by omega⟩
      rw [length_itoaLoop_more (by omega), length_itoaLoop_last (by omega)]

def addrSize (addr : Addr) : Nat := (addr.toList.map fun b => digits b + 1).sum + 14

theorem length_encodeIp (addr : Addr) : (mdnsEncodeIp addr).length = addrSize addr := by
  have hl (bs : List UInt8) :
      (bs.flatMap ipLabel).length = (bs.map fun b => digits b + 1).sum := by
    simp [List.length_flatMap, ipLabel, length_itoa]
  have hr : (addr.toList.reverse.map fun b => digits b + 1).sum =
      (addr.toList.map fun b => digits b + 1).sum := by
    rw [List.map_reverse, List.sum_reverse]
  simp only [mdnsEncodeIp, List.length_append, hl, hr, addrSize]
  rfl

def ownerSize (e : Entry) : Nat :=
  if e.entryType = .srvEntry then nameSize e.namePostfix else addrSize e.ipaddr

def questionSize (e : Entry) : Nat := nameSize e.name + 4

def hostSize (e : Entry) : Nat := nameSize e.name + 14

def ptrSize (e : Entry) : Nat := ownerSize e + 10 + nameSize e.name

def srvSize (canonical : Option (List UInt8)) (e : Entry) : Nat :=
  nameSize e.name + 16 + canonical.elim 0 nameSize

def txtSize (e : Entry) : Nat := nameSize e.name + 10 + nameSize e.txtRecord

theorem length_probe (e : Entry) : (mdnsSendProbe e).length = questionSize e := by
  simp [mdnsSendProbe, questionSize]

theorem length_hostResponse (e : Entry) : (mdnsSendHostResponse e).length = hostSize e := by
  simp [mdnsSendHostResponse, hostSize]

theorem length_ptrResponse (e : Entry) : (mdnsSendPtrResponse e).length = ptrSize e := by
  unfold mdnsSendPtrResponse ptrOwner ptrSize ownerSize
  split <;> simp [length_encodeIp, Nat.add_assoc]

theorem length_txtResponse (e : Entry) : (mdnsSendTxtResponse e).length = txtSize e := by
  simp [mdnsSendTxtResponse, txtSize, Nat.add_assoc]

theorem length_srvPart (canonical : Option (List UInt8)) (i : Nat) (part : Section) (e : Entry) :
    (srvPart canonical i part e).data.length = srvSize canonical e := by
  cases canonical with
  | none => simp [srvPart, srvBody, srvSize]
  | some name =>
    simp [srvPart, srvBody, srvSize]
    omega

end Sizes

section Written

-- The bytes behind the header, up to the read that stops the program.
def written : List Part → List UInt8
  | [] => []
  | p :: ps => p.data ++ if p.whole then written ps else []

-- The indices of data that are written are those below it.
def reach (parts : List Part) : Nat := hdrSize + (written parts).length

-- The size of a record, and whether the program goes on behind it.
def Part.shape (p : Part) : Nat × Bool := (p.data.length, p.whole)

def extent : List (Nat × Bool) → Nat
  | [] => 0
  | s :: ss => s.1 + if s.2 then extent ss else 0

theorem reach_eq (parts : List Part) : reach parts = hdrSize + extent (parts.map Part.shape) := by
  have hw : (written parts).length = extent (parts.map Part.shape) := by
    induction parts with
    | nil => rfl
    | cons p ps ih =>
      rw [written, List.map_cons, extent, List.length_append, ← ih]
      by_cases h : p.whole
      · simp [Part.shape, h]
      · simp [Part.shape, h]
  rw [reach, hw]

theorem extent_append (ss ts : List (Nat × Bool)) :
    extent (ss ++ ts) = extent ss + if ss.all (·.2) then extent ts else 0 := by
  induction ss with
  | nil => simp [extent]
  | cons s ss ih =>
    rw [List.cons_append, extent, ih, extent, List.all_cons]
    cases s.2
    · simp
    · rw [Bool.true_and]
      simp only [if_true]
      omega

theorem extent_eq_sum {ss : List (Nat × Bool)} (h : ss.all (·.2)) :
    extent ss = (ss.map (·.1)).sum := by
  induction ss with
  | nil => rfl
  | cons s ss ih =>
    obtain ⟨hs, hss⟩ : s.2 = true ∧ ss.all (·.2) = true := by simpa using h
    simp [extent, hs, ih hss]

section Shapes

variable (canonical : Option (List UInt8)) (e : Entry)

def srvShape : Nat × Bool := (srvSize canonical e, canonical.isSome)

def claimShapes : List (Nat × Bool) :=
  if e.entryType = .srvEntry then
    [(ptrSize e, true), srvShape canonical e, (txtSize e, true)]
  else [(hostSize e, true)]

def answerShapes : List (Nat × Bool) :=
  (if e.pending.host then [(hostSize e, true)] else []) ++
    (if e.pending.ptr then [(ptrSize e, true)] else []) ++
    (if e.pending.srv then [srvShape canonical e] else []) ++
    (if e.pending.txt then [(txtSize e, true)] else [])

def responseShapes : List (Nat × Bool) :=
  (if e.state = .announceWait then claimShapes canonical e else []) ++ answerShapes canonical e

variable (i : Nat) (part : Section)

theorem shape_host : (hostPart i part e).shape = (hostSize e, true) :=
  Prod.ext (length_hostResponse e) rfl

theorem shape_ptr : (ptrPart i part e).shape = (ptrSize e, true) :=
  Prod.ext (length_ptrResponse e) rfl

theorem shape_txt : (txtPart i part e).shape = (txtSize e, true) :=
  Prod.ext (length_txtResponse e) rfl

theorem shape_srv : (srvPart canonical i part e).shape = srvShape canonical e := by
  refine Prod.ext (length_srvPart canonical i part e) ?_
  cases canonical <;> rfl

theorem shapes_claimParts :
    (claimParts canonical i part e).map Part.shape = claimShapes canonical e := by
  unfold claimParts claimShapes
  split
  · simp [shape_ptr, shape_srv, shape_txt]
  · simp [shape_host]

theorem shapes_responseParts :
    (responseParts canonical i e).map Part.shape = responseShapes canonical e := by
  have hone {b : Bool} {p : Part} {s : Nat × Bool} (h : p.shape = s) :
      (if b then [p] else []).map Part.shape = if b then [s] else [] := by
    cases b
    · rfl
    · simp [h]
  unfold responseParts announceParts answerParts responseShapes answerShapes
  simp only [List.map_append, hone (shape_host e i .answer), hone (shape_ptr e i .answer),
    hone (shape_srv canonical e i .answer), hone (shape_txt e i .answer)]
  split
  · rw [shapes_claimParts]
  · rfl

end Shapes

end Written

section Probes

-- The strings of an entry fit their fields in the table.
structure Entry.Fits (e : Entry) : Prop where
  name : e.name.length < mdnsMaxNameLength
  namePrefix : e.namePrefix.length < mdnsMaxNameLength
  namePostfix : e.namePostfix.length < mdnsMaxNameLength
  txtRecord : e.txtRecord.length < mdnsMaxTxtLength

theorem Entry.fits_iff (e : Entry) : e.Fits ↔
    e.name.length < mdnsMaxNameLength ∧ e.namePrefix.length < mdnsMaxNameLength ∧
      e.namePostfix.length < mdnsMaxNameLength ∧ e.txtRecord.length < mdnsMaxTxtLength :=
  ⟨fun h => ⟨h.name, h.namePrefix, h.namePostfix, h.txtRecord⟩,
    fun ⟨h, hpre, hpost, ht⟩ => ⟨h, hpre, hpost, ht⟩⟩

instance (e : Entry) : Decidable e.Fits := decidable_of_iff _ e.fits_iff.symm

def waiting (e : Entry) : Bool := e.state == .probeWait

def bidding (e : Entry) : Bool := e.state == .probeWait || e.state == .probePartialSent

def wake (e : Entry) : Entry := if waiting e then { e with state := .probePartialSent } else e

def firstCanonicalName (table : Table) : Option (List UInt8) :=
  (table.find? fun e => e.entryType == .canonicalNameEntry).map (·.name)

def probeShapes (table : Table) : List (Nat × Bool) :=
  ((table.filter waiting).map fun e => (questionSize e, true)) ++
    (table.filter bidding).flatMap (claimShapes (firstCanonicalName table))

theorem questionSize_le {e : Entry} (h : e.name.length < mdnsMaxNameLength) :
    questionSize e ≤ 105 := by
  unfold mdnsMaxNameLength at h
  unfold questionSize nameSize
  split <;> omega

theorem askProbes_all {i used : Nat} {es : Table}
    (hf : ∀ e ∈ es, e.name.length < mdnsMaxNameLength)
    (hu : used + 105 * es.length < xtcpClientBufSize) :
    (askProbes i used es).1 = es.map wake ∧
      (askProbes i used es).2.map (fun p => (p.data, p.whole)) =
        (es.filter waiting).map fun e => (mdnsSendProbe e, true) := by
  induction es generalizing i used with
  | nil => exact ⟨rfl, rfl⟩
  | cons e es ih =>
    have he := hf e (List.mem_cons_self ..)
    have hf' (x : Entry) (hx : x ∈ es) := hf x (List.mem_cons_of_mem _ hx)
    have hq := questionSize_le he
    have hn := he
    unfold mdnsMaxNameLength at hn
    rw [List.length_cons] at hu
    have hroom : used + probeSize e < xtcpClientBufSize := by
      unfold probeSize
      omega
    unfold askProbes
    by_cases hs : e.state = .probeWait
    · obtain ⟨ht, hp⟩ := @ih (i + 1) (used + (mdnsSendProbe e).length) hf' (by
        rw [length_probe]
        omega)
      have hw : waiting e := by simp [waiting, hs]
      rw [if_pos ⟨hs, hroom⟩]
      refine ⟨?_, ?_⟩
      · simp only [List.map_cons, ht]
        rw [wake, if_pos hw]
      · rw [List.map_cons, hp, List.filter_cons_of_pos hw, List.map_cons]
        rfl
    · obtain ⟨ht, hp⟩ := @ih (i + 1) used hf' (by omega)
      have hw : ¬ waiting e := by simp [waiting, hs]
      rw [if_neg (fun h => hs h.1)]
      refine ⟨?_, ?_⟩
      · simp only [List.map_cons, ht]
        rw [wake, if_neg hw]
      · rw [hp, List.filter_cons_of_neg hw]

theorem wake_name (e : Entry) : (wake e).name = e.name := by
  unfold wake
  split <;> rfl

theorem canonicalName_wake (table : Table) :
    mdnsGetCanonicalName (table.map wake) = firstCanonicalName table := by
  have hstate (e : Entry) : (wake e).state ≠ .probeWait := by
    unfold wake waiting
    split
    · simp
    · next h => simpa using h
  have htype (e : Entry) : (wake e).entryType = e.entryType := by
    unfold wake
    split <;> rfl
  unfold mdnsGetCanonicalName firstCanonicalName
  rw [List.find?_map, Option.map_map]
  congr 1
  · exact funext wake_name
  · congr 1
    funext e
    simp [hstate, htype]

theorem probeParts_wake (canonical : Option (List UInt8)) (i : Nat) (e : Entry) :
    probeParts canonical i (wake e) =
      if bidding e then claimParts canonical i .authority e else [] := by
  have hbid : (wake e).state = .probePartialSent ↔ bidding e := by
    unfold wake waiting bidding
    split
    · next h => simp [beq_iff_eq.mp h]
    · next h => simp [h]
  have hclaim : claimParts canonical i .authority (wake e) =
      claimParts canonical i .authority e := by
    unfold wake
    split <;> rfl
  unfold probeParts
  by_cases hb : bidding e
  · rw [if_pos (hbid.mpr hb), if_pos hb, hclaim]
  · rw [if_neg (fun h => hb (hbid.mp h)), if_neg hb]

theorem map_authorities {β : Type} {canonical : Option (List UInt8)} {f : Part → β}
    {g : Entry → List β} (hp : ∀ i e, (claimParts canonical i .authority e).map f = g e)
    (table : Table) :
    (authorities canonical (table.map wake)).map f = (table.filter bidding).flatMap g := by
  have hidx (h : Nat → Entry → List Part) (hh : ∀ i e, (h i (wake e)).map f =
      if bidding e then g e else []) :
      ((table.map wake).mapIdx h).flatten.map f = (table.filter bidding).flatMap g := by
    induction table generalizing h with
    | nil => rfl
    | cons e es ih =>
      rw [List.map_cons, List.mapIdx_cons, List.flatten_cons, List.map_append, hh,
        ih _ fun i => hh (i + 1)]
      by_cases hb : bidding e
      · rw [if_pos hb, List.filter_cons_of_pos hb, List.flatMap_cons]
      · rw [if_neg hb, List.filter_cons_of_neg hb, List.nil_append]
  refine hidx _ fun i e => ?_
  rw [probeParts_wake]
  split
  · exact hp i e
  · rfl

theorem shapes_authorities (canonical : Option (List UInt8)) (table : Table) :
    (authorities canonical (table.map wake)).map Part.shape =
      (table.filter bidding).flatMap (claimShapes canonical) :=
  map_authorities (fun i e => shapes_claimParts canonical e i .authority) table

theorem probes_parts {table : Table} (hn : table.length = mdnsNumTableEntries)
    (hf : ∀ e ∈ table, e.name.length < mdnsMaxNameLength) (t : Nat) :
    (mdnsSendProbes t table).2 = (askProbes 0 hdrSize table).2 ++
      authorities (firstCanonicalName table) (table.map wake) := by
  have hu : hdrSize + 105 * table.length < xtcpClientBufSize := by
    rw [hn]
    decide
  rw [mdnsSendProbes, (@askProbes_all 0 hdrSize table hf hu).1, canonicalName_wake]

theorem shapes_probes {table : Table} (hn : table.length = mdnsNumTableEntries)
    (hf : ∀ e ∈ table, e.name.length < mdnsMaxNameLength) (t : Nat) :
    (mdnsSendProbes t table).2.map Part.shape = probeShapes table := by
  have hu : hdrSize + 105 * table.length < xtcpClientBufSize := by
    rw [hn]
    decide
  have hp := (@askProbes_all 0 hdrSize table hf hu).2
  have hs : (askProbes 0 hdrSize table).2.map Part.shape =
      (table.filter waiting).map fun e => (questionSize e, true) := by
    have hm := congrArg (List.map fun x : List UInt8 × Bool => (x.1.length, x.2)) hp
    rw [List.map_map, List.map_map] at hm
    refine hm.trans (List.map_congr_left ?_)
    intro e _
    simp [length_probe]
  rw [probes_parts hn hf, List.map_append, hs, shapes_authorities]
  rfl

theorem reach_probes {t : Nat} {table : Table} (hn : table.length = mdnsNumTableEntries)
    (hf : ∀ e ∈ table, e.Fits) :
    reach (mdnsSendProbes t table).2 = hdrSize + extent (probeShapes table) := by
  rw [reach_eq, shapes_probes hn fun e he => (hf e he).name]

end Probes

section Responses

variable (canonical : Option (List UInt8))

-- Each entry whose estimate is below the room that is left has its records within that room.
def Roomy : Nat → Table → Prop
  | _, [] => True
  | used, e :: es =>
    if e.state ≠ .unused ∧ used + mdnsResponseSize e < xtcpClientBufSize then
      used + extent (responseShapes canonical e) ≤ xtcpClientBufSize ∧
        ((responseShapes canonical e).all (·.2) →
          Roomy (used + extent (responseShapes canonical e)) es)
    else Roomy used es

theorem size_append (ps qs : List Part) : size (ps ++ qs) = size ps + size qs := by
  simp [size]

theorem size_eq_sum (parts : List Part) : size parts = ((parts.map Part.shape).map (·.1)).sum := by
  rw [size, List.map_map]
  rfl

theorem roomy_iff {used i t : Nat} {es : Table} (hu : used ≤ xtcpClientBufSize) :
    used + extent ((respond canonical t used i es).2.map Part.shape) ≤ xtcpClientBufSize ↔
      Roomy canonical used es := by
  induction es generalizing used i with
  | nil => simpa [respond, extent, Roomy] using hu
  | cons e es ih =>
    unfold respond Roomy
    split
    · simp only [List.map_append, shapes_responseParts, extent_append]
      generalize hss : responseShapes canonical e = ss
      by_cases hall : ss.all (·.2)
      · have hsize : size (responseParts canonical i e) = extent ss := by
          rw [size_eq_sum, shapes_responseParts, hss, extent_eq_sum hall]
        rw [if_pos hall, hsize, ← Nat.add_assoc]
        constructor
        · intro h
          have hle : used + extent ss ≤ xtcpClientBufSize := by omega
          exact ⟨hle, fun _ => (ih hle).mp h⟩
        · rintro ⟨hle, h⟩
          exact (ih hle).mpr (h hall)
      · rw [if_neg hall]
        simp [hall]
    · exact ih hu

end Responses

theorem messages_fit {table : Table} (hn : table.length = mdnsNumTableEntries)
    (hf : ∀ e ∈ table, e.Fits) (t : Nat) :
    (reach (mdnsSendProbes t table).2 ≤ xtcpClientBufSize ↔
      hdrSize + extent (probeShapes table) ≤ xtcpClientBufSize) ∧
    (reach (mdnsSendResponses t table).2 ≤ xtcpClientBufSize ↔
      Roomy (mdnsGetCanonicalName table) hdrSize table) := by
  refine ⟨by rw [reach_probes hn hf], ?_⟩
  rw [reach_eq]
  exact roomy_iff _ (by decide)

theorem length_apply (r : Registration) (table : Table) :
    (r.apply table).length = table.length := by
  have hadd (namePrefix namePostfix txt : List UInt8) (srvPort : Int) (ty : EntryType) :
      (mdnsAddEntry namePrefix namePostfix txt srvPort ty table).length = table.length := by
    unfold mdnsAddEntry
    split
    · rfl
    · exact List.length_modify ..
  cases r <;> exact hadd ..

def register (rs : List Registration) : Table := rs.foldl (fun table r => r.apply table) mdnsInit

theorem length_register (rs : List Registration) : (register rs).length = mdnsNumTableEntries := by
  induction rs using List.reverseRecOn with
  | nil => rfl
  | append_singleton rs r ih => rw [register, List.foldl_concat, length_apply, ← register, ih]

-- A host and three services that are all about to be probed.
def webServer (c : UInt8) : Registration :=
  .service (List.replicate 70 c) (text "_http._tcp") 80 (List.replicate 99 c)

def webServers : Table :=
  (register [.canonicalName (text "xc"), webServer 97, webServer 98, webServer 99]).map fun e =>
    if e.state = .unused then e else reprobe e

theorem messages_fit_webServers : webServers.length = mdnsNumTableEntries ∧
    (∀ e ∈ webServers, e.Fits) ∧
    (reach (mdnsSendProbes 0 webServers).2 ≤ xtcpClientBufSize ↔
      hdrSize + extent (probeShapes webServers) ≤ xtcpClientBufSize) ∧
    (reach (mdnsSendResponses 0 webServers).2 ≤ xtcpClientBufSize ↔
      Roomy (mdnsGetCanonicalName webServers) hdrSize webServers) := by
  have hn : webServers.length = mdnsNumTableEntries := by
    rw [webServers, List.length_map, length_register]
  have hf : ∀ e ∈ webServers, e.Fits := by decide +kernel
  exact ⟨hn, hf, messages_fit hn hf 0⟩

theorem probe_beyond_data : ∃ rs table, table = (register rs).map (fun e =>
      if e.state = .unused then e else reprobe e) ∧ (∀ e ∈ table, e.Fits) ∧
    ¬ reach (mdnsSendProbes 0 table).2 ≤ xtcpClientBufSize := by
  have hf : ∀ e ∈ webServers, e.Fits := by decide +kernel
  have hr : ¬ reach (mdnsSendProbes 0 webServers).2 ≤ xtcpClientBufSize := by decide +kernel
  exact ⟨_, webServers, rfl, hf, hr⟩

end Xtcp.Mdns
