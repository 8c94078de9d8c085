import Xtcp.Dhcpc.Thread

namespace Xtcp.Dhcpc

open Channel Timer Segment View Fields

section Values

def fourOf (v : List UInt8) : Ipaddr := ⟨v.getD 0 0, v.getD 1 0, v.getD 2 0, v.getD 3 0⟩

def halfOf (v : List UInt8) (j : Nat) : BitVec 16 :=
  (v.getD j 0).toBitVec ++ (v.getD (j + 1) 0).toBitVec

def readField (l : Lease) (o : Field) : Lease :=
  if o.tag = optionSubnetMask then { l with netmask := fourOf o.value }
  else if o.tag = optionRouter then { l with defaultRouter := fourOf o.value }
  else if o.tag = optionDnsServer then { l with dnsaddr := fourOf o.value }
  else if o.tag = optionServerId then { l with serverid := fourOf o.value }
  else if o.tag = optionLeaseTime then
    { l with leaseTime0 := halfOf o.value 0, leaseTime1 := halfOf o.value 2 }
  else l

def typeField (type : UInt8) (o : Field) : UInt8 :=
  if o.tag = optionMsgType then o.value.getD 0 0 else type

def firstType (os : List Field) : Option UInt8 :=
  (os.find? fun o => o.tag = optionMsgType).map fun o => o.value.getD 0 0

-- The client copies without a look at the length.
structure Whole (o : Field) : Prop where
  proper : Proper optionEnd o
  type : o.tag = optionMsgType → 1 ≤ o.value.length
  four : o.tag ∈ [optionSubnetMask, optionRouter, optionDnsServer, optionServerId,
    optionLeaseTime] → 4 ≤ o.value.length

end Values

section Walk

variable {mem : Nat → UInt8} {stop fuel p : Nat} {type : UInt8} {l : Lease} {o : Field}

def typeAt (mem : Nat → UInt8) (type : UInt8) (p : Nat) : UInt8 :=
  if mem p = optionMsgType then mem (p + 2) else type

theorem readOption_msgType (h : mem p = optionMsgType) : readOption mem p l = l := by
  rw [readOption, h]
  rfl

theorem parseOptions_eq : parseOptions mem stop fuel p type l =
    ((places mem optionEnd stop fuel p).foldl (typeAt mem) type,
      (places mem optionEnd stop fuel p).foldl (fun l q => readOption mem q l) l) := by
  induction fuel generalizing p type l with
  | zero => rfl
  | succ fuel ih =>
    rw [parseOptions, places]
    by_cases hp : p < stop
    · by_cases hend : mem p = optionEnd
      · rw [if_pos hp, if_pos hend, if_neg fun h => h.2 hend]
        rfl
      · have hopen : p < stop ∧ mem p ≠ optionEnd := ⟨hp, hend⟩
        rw [if_pos hp, if_neg hend, if_pos hopen, List.foldl_cons, List.foldl_cons, typeAt]
        split_ifs with htype
        · rw [ih, readOption_msgType htype]
        · exact ih
    · rw [if_neg hp, if_neg fun h => hp h.1]
      rfl

theorem findMsgType_eq : findMsgType mem stop fuel p =
    ((places mem optionEnd stop fuel p).find? fun q => mem q = optionMsgType).map
      fun q => mem (q + 2) := by
  induction fuel generalizing p with
  | zero => rfl
  | succ fuel ih =>
    rw [findMsgType, places]
    by_cases hp : p < stop
    · by_cases htype : mem p = optionMsgType
      · have hend : mem p ≠ optionEnd := by
          rw [htype]
          decide
        have hopen : p < stop ∧ mem p ≠ optionEnd := ⟨hp, hend⟩
        rw [if_pos hp, if_pos htype, if_pos hopen, List.find?_cons, htype]
        rfl
      · by_cases hend : mem p = optionEnd
        · rw [if_pos hp, if_neg htype, if_pos hend, if_neg fun h => h.2 hend]
          rfl
        · have hopen : p < stop ∧ mem p ≠ optionEnd := ⟨hp, hend⟩
          rw [if_pos hp, if_neg htype, if_neg hend, if_pos hopen, List.find?_cons,
            decide_eq_false htype]
          exact ih
    · rw [if_neg hp, if_neg fun h => hp h.1]
      rfl

theorem four_at (h : At mem p o) (hlen : 4 ≤ o.value.length) :
    four mem (p + 2) = fourOf o.value := by
  have hbyte : ∀ j < 4, mem (p + 2 + j) = o.value.getD j 0 := fun j hj => h.getD (by omega)
  have h0 : mem (p + 2) = o.value.getD 0 0 := hbyte 0 (by decide)
  rw [four, fourOf, h0, hbyte 1 (by decide), hbyte 2 (by decide), hbyte 3 (by decide)]

theorem half0_at (h : At mem p o) (hlen : 4 ≤ o.value.length) :
    half mem (p + 2) = halfOf o.value 0 := by
  have h0 : mem (p + 2) = o.value.getD 0 0 := h.getD (j := 0) (by omega)
  have h1 : mem (p + 2 + 1) = o.value.getD 1 0 := h.getD (j := 1) (by omega)
  rw [half, halfOf, h0, h1]

theorem half1_at (h : At mem p o) (hlen : 4 ≤ o.value.length) :
    half mem (p + 4) = halfOf o.value 2 := by
  have h2 : mem (p + 4) = o.value.getD 2 0 := h.getD (j := 2) (by omega)
  have h3 : mem (p + 4 + 1) = o.value.getD 3 0 := h.getD (j := 3) (by omega)
  rw [half, halfOf, h2, h3]

theorem readOption_at (h : At mem p o) (ho : Whole o) : readOption mem p l = readField l o := by
  rw [readOption, readField, h.tag]
  split_ifs with h1 h2 h3 h4 h5
  · rw [four_at h (ho.four (by simp [h1]))]
  · rw [four_at h (ho.four (by simp [h2]))]
  · rw [four_at h (ho.four (by simp [h3]))]
  · rw [four_at h (ho.four (by simp [h4]))]
  · have hlen := ho.four (by simp [h5])
    rw [half0_at h hlen, half1_at h hlen]
  · rfl

theorem typeAt_at (h : At mem p o) (ho : Whole o) : typeAt mem type p = typeField type o := by
  rw [typeAt, typeField, h.tag]
  split_ifs with htype
  · exact h.getD (j := 0) (ho.type htype)
  · rfl

variable {ps : List Nat} {os : List Field}

-- What a walk over places does, a walk over the fields does that stand there.
theorem foldl_at {σ : Type} {f : σ → Nat → σ} {g : σ → Field → σ}
    (hfg : ∀ s p o, At mem p o → Whole o → f s p = g s o) (h : List.Forall₂ (At mem) ps os)
    (hos : ∀ o ∈ os, Whole o) (s : σ) : ps.foldl f s = os.foldl g s := by
  induction h generalizing s with
  | nil => rfl
  | cons hat _ ih =>
    obtain ⟨ho, hos⟩ := List.forall_mem_cons.mp hos
    rw [List.foldl_cons, List.foldl_cons, hfg s _ _ hat ho]
    exact ih hos _

theorem find_at (h : List.Forall₂ (At mem) ps os) (hos : ∀ o ∈ os, Whole o) :
    ((ps.find? fun q => mem q = optionMsgType).map fun q => mem (q + 2)) = firstType os := by
  induction h with
  | nil => rfl
  | @cons p o ps os hat _ ih =>
    obtain ⟨ho, hos⟩ := List.forall_mem_cons.mp hos
    rw [firstType, List.find?_cons, List.find?_cons, hat.tag]
    by_cases htype : o.tag = optionMsgType
    · rw [decide_eq_true htype]
      exact congrArg some (hat.getD (j := 0) (ho.type htype))
    · rw [decide_eq_false htype]
      exact ih hos

end Walk

section Reply

-- A server's message: the fields that the client does not look at may hold anything.
structure Reply where
  head : List UInt8
  yiaddr : Ipaddr
  middle : List UInt8
  tail : List UInt8
  options : List Field

structure Reply.Sound (m : Reply) : Prop where
  head : m.head.length = 8
  middle : m.middle.length = 8
  tail : m.tail.length = 206
  options : ∀ o ∈ m.options, Whole o

def Reply.bytes (macAddr : MacAddr) (m : Reply) : List UInt8 :=
  [dhcpReply, htypeEthernet, 6, 0] ++ xid macAddr ++ m.head ++ ipaddrBytes m.yiaddr ++ m.middle ++
    macaddrBytes macAddr ++ m.tail ++ encode optionEnd m.options

-- A datagram that is a reply, in a buffer that may hold anything behind it.
def Holds (macAddr : MacAddr) (m : Reply) (d : Datagram) : Prop :=
  d.datalen = (m.bytes macAddr).length ∧ Shows (fun q => some (d.appdata q)) 0 (m.bytes macAddr)

variable {macAddr : MacAddr} {m : Reply} {d : Datagram} {l : Lease}

theorem slice_of_shows {mem : Nat → UInt8} {p : Nat} {xs : List UInt8}
    (h : Shows (fun q => some (mem q)) p xs) : slice mem p xs.length = xs := by
  refine List.ext_getElem (length_slice ..) fun j h₁ h₂ => ?_
  have hj := shows_some h (List.getElem?_eq_getElem h₂)
  rw [← hj]
  simp [slice]

theorem Holds.shows (h : Holds macAddr m d) (hm : m.Sound) :
    ForMe d.appdata macAddr ∧ four d.appdata 16 = m.yiaddr ∧
      Shows (fun q => some (d.appdata q)) optionsStart (encode optionEnd m.options) := by
  have hshows := h.2
  simp only [Reply.bytes, List.append_assoc, shows_append] at hshows
  simp only [List.length_cons, List.length_nil, xid, ipaddrBytes, macaddrBytes,
    hm.head, hm.middle, hm.tail, Nat.zero_add, Nat.reduceAdd] at hshows
  obtain ⟨hop, hxid, -, hyiaddr, -, hmac, -, hoptions⟩ := hshows
  refine ⟨⟨Option.some.inj hop.1, slice_of_shows hxid, slice_of_shows hmac⟩, ?_, hoptions⟩
  simp only [shows_cons, Option.some.injEq, Nat.reduceAdd] at hyiaddr
  obtain ⟨h0, h1, h2, h3, -⟩ := hyiaddr
  rw [four, h0, h1, h2, h3]

theorem Holds.datalen (h : Holds macAddr m d) (hm : m.Sound) :
    d.datalen = optionsStart - 4 + 4 + (encode optionEnd m.options).length := by
  rw [h.1]
  simp only [Reply.bytes, List.length_append, List.length_cons, List.length_nil, xid, ipaddrBytes,
    macaddrBytes, hm.head, hm.middle, hm.tail, optionsStart]

theorem places_reply (h : Holds macAddr m d) (hm : m.Sound) {stop : Nat}
    (hstop : d.datalen ≤ stop) :
    List.Forall₂ (At d.appdata) (places d.appdata optionEnd stop d.datalen optionsStart)
      m.options := by
  have hlen := h.datalen hm
  have hos := @length_le_encode optionEnd m.options
  refine places_encode (fun o ho => (hm.options o ho).proper) (h.shows hm).2.2 ?_ (by omega)
  rw [optionsStart] at hlen ⊢
  omega

-- The type is the first of the message, and each value the last that it has of its kind.
theorem msgForMe_reply (h : Holds macAddr m d) (hm : m.Sound) :
    msgForMe macAddr d = firstType m.options := by
  rw [msgForMe, if_pos (h.shows hm).1, findMsgType_eq]
  exact find_at (places_reply h hm (Nat.le_refl _)) hm.options

theorem parseMsg_reply (h : Holds macAddr m d) (hm : m.Sound) :
    parseMsg macAddr d l =
      (m.options.foldl typeField 0, m.options.foldl readField { l with ipaddr := m.yiaddr }) := by
  obtain ⟨hforMe, hyiaddr, -⟩ := h.shows hm
  have hplaces := places_reply h hm (Nat.le_add_left d.datalen optionsStart)
  rw [parseMsg, if_pos hforMe, hyiaddr, parseOptions_eq]
  have hread : ∀ (l : Lease) (p : Nat) (o : Field), At d.appdata p o → Whole o →
      readOption d.appdata p l = readField l o := fun _ _ _ hat ho => readOption_at hat ho
  have htype : ∀ (type : UInt8) (p : Nat) (o : Field), At d.appdata p o → Whole o →
      typeAt d.appdata type p = typeField type o := fun _ _ _ hat ho => typeAt_at hat ho
  exact congrArg₂ Prod.mk (foldl_at htype hplaces hm.options _)
    (foldl_at hread hplaces hm.options _)

end Reply

end Xtcp.Dhcpc
