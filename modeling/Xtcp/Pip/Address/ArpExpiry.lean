import Mathlib.Data.List.Induction
import Xtcp.Pip.Address.ArpTable

namespace Xtcp.Pip.Address

def nextHop (cfg : Config) (s : Host) (ipDst : Word) : Word :=
  if cfg.gateway ∧ ipDst &&& s.mySubnetIP ≠ s.myIP &&& s.mySubnetIP ∧ s.myRouterIP ≠ 0 then
    s.myRouterIP
  else ipDst

theorem nextHop_direct {cfg : Config} (h : cfg.gateway = false) (s : Host) (ipDst : Word) :
    nextHop cfg s ipDst = ipDst := by
  rw [nextHop, if_neg]
  rw [h]
  exact fun hg => Bool.noConfusion hg.1

-- What becomes of a datagram: it is sent, or makes place for a request.
inductive Sent where
  | frame (macDest : Mac)
  | request (tpa : Word)
  deriving DecidableEq

def pipOutgoingIPv4 (cfg : Config) (ipDst : Word) (s : Host) : Sent :=
  match lookup s.pipArpTable (nextHop cfg s ipDst) with
  | some e => .frame e.macAddr
  | none => .request (nextHop cfg s ipDst)

inductive LinkEvent where
  | store (ipAddress : Word) (macAddress : Mac)
  | tick
  | datagram (ipDst : Word)
  deriving DecidableEq

def LinkEvent.apply (s : Host) : LinkEvent → Host
  | .store ipAddress macAddress => pipARPStoreEntry ipAddress macAddress s
  | .tick => pipTimeOutARP s
  | .datagram _ => s

def runLink (s : Host) (es : List LinkEvent) : Host := es.foldl LinkEvent.apply s

def ticks (es : List LinkEvent) : Nat := es.count .tick

def Recent (es : List LinkEvent) (a : Word) (m : Mac) : Prop :=
  ∃ before after, es = before ++ .store a m :: after ∧ ticks after < 255

def Unicast (a : Word) : Prop := a ≠ 0 ∧ a ≠ 0xFFFFFFFF

-- The datagram goes to a mapping that is at most so old, or a request goes out.
def Timely (cfg : Config) (s : Host) (es : List LinkEvent) (ipDst : Word) : Prop :=
  let hop := nextHop cfg (runLink s es) ipDst
  (∃ m, Recent es hop m ∧ pipOutgoingIPv4 cfg ipDst (runLink s es) = .frame m) ∨
    pipOutgoingIPv4 cfg ipDst (runLink s es) = .request hop

-- macAddr[6] of the entry that is used.
def Marked (cfg : Config) (s : Host) (es : List LinkEvent) (ipDst : Word) : Prop :=
  ∀ e, lookup (runLink s es).pipArpTable (nextHop cfg (runLink s es) ipDst) = some e → e.valid ≠ 0

section History

theorem runLink_cons (s : Host) (e : LinkEvent) (es : List LinkEvent) :
    runLink s (e :: es) = runLink (e.apply s) es := rfl

theorem runLink_snoc (s : Host) (es : List LinkEvent) (e : LinkEvent) :
    runLink s (es ++ [e]) = e.apply (runLink s es) := by
  rw [runLink, List.foldl_append]
  rfl

theorem ticks_snoc (es : List LinkEvent) (e : LinkEvent) :
    ticks (es ++ [e]) = ticks es + if e = .tick then 1 else 0 := by
  rw [ticks, ticks, List.count_append, List.count_singleton]
  simp only [beq_iff_eq]

-- The entry is what the last store of its address made of it, as old as the ticks since.
def Dated (es : List LinkEvent) (e : Entry) : Prop :=
  ∃ before after, es = before ++ .store e.ipAddress e.macAddr :: after ∧
    (∀ m, .store e.ipAddress m ∉ after) ∧
    (e.valid = 1 ∧ e.age.toNat + ticks after = 254 ∨
      e.valid = 0 ∧ e.age = 0 ∧ 255 ≤ ticks after)

variable {es : List LinkEvent} {e : Entry}

theorem Dated.stored (a : Word) (m : Mac) : Dated (es ++ [.store a m]) ⟨a, m, 1, 0xfe⟩ :=
  ⟨es, [], rfl, fun _ => List.not_mem_nil, Or.inl ⟨rfl, rfl⟩⟩

theorem Dated.pass (h : Dated es e) {x : LinkEvent} (hx : ∀ m, x ≠ .store e.ipAddress m)
    (ht : x ≠ .tick) : Dated (es ++ [x]) e := by
  obtain ⟨before, after, rfl, hlast, hage⟩ := h
  refine ⟨before, after ++ [x], by rw [List.append_assoc, List.cons_append], ?_, ?_⟩
  · intro m hm
    rcases List.mem_append.mp hm with hm | hm
    · exact hlast m hm
    · exact hx m (List.mem_singleton.mp hm).symm
  · rw [ticks_snoc, if_neg ht]
    exact hage

theorem Dated.tick (h : Dated es e) :
    Dated (es ++ [.tick])
      (if 0 < e.age then { e with age := e.age - 1 } else { e with valid := 0 }) := by
  obtain ⟨before, after, rfl, hlast, hage⟩ := h
  have hlast' : ∀ m, .store e.ipAddress m ∉ after ++ [.tick] := by
    intro m hm
    rcases List.mem_append.mp hm with hm | hm
    · exact hlast m hm
    · exact LinkEvent.noConfusion (List.mem_singleton.mp hm)
  have hsplit : before ++ .store e.ipAddress e.macAddr :: after ++ [.tick] =
      before ++ .store e.ipAddress e.macAddr :: (after ++ [.tick]) := by
    rw [List.append_assoc, List.cons_append]
  have hticks : ticks (after ++ [.tick]) = ticks after + 1 := ticks_snoc after .tick
  split_ifs with hpos
  · refine ⟨before, after ++ [.tick], hsplit, hlast', ?_⟩
    have hpos : 0 < e.age.toNat := hpos
    rcases hage with ⟨hvalid, hage⟩ | ⟨_, hzero, _⟩
    · refine Or.inl ⟨hvalid, ?_⟩
      have hsub : (e.age - 1).toNat = e.age.toNat - 1 := by
        have := e.age.isLt
        rw [BitVec.toNat_sub, show (1 : BitVec 8).toNat = 1 from rfl]
        omega
      rw [hticks]
      show (e.age - 1).toNat + _ = _
      omega
    · rw [hzero] at hpos
      exact absurd hpos (by decide)
  · refine ⟨before, after ++ [.tick], hsplit, hlast', Or.inr ⟨rfl, ?_, ?_⟩⟩
    · have hz : ¬0 < e.age.toNat := hpos
      exact BitVec.eq_of_toNat_eq (by simpa using Nat.eq_zero_of_not_pos hz)
    · have hz : ¬0 < e.age.toNat := hpos
      rw [hticks]
      omega

theorem Dated.recent (h : Dated es e) (hv : e.valid ≠ 0) : Recent es e.ipAddress e.macAddr := by
  obtain ⟨before, after, hes, _, hage⟩ := h
  rcases hage with ⟨_, hage⟩ | ⟨hzero, _⟩
  · exact ⟨before, after, hes, by omega⟩
  · exact absurd hzero hv

theorem Dated.not_recent (h : Dated es e) (hv : e.valid = 0) (m : Mac) :
    ¬Recent es e.ipAddress m := by
  obtain ⟨before, after, hes, hlast, hage⟩ := h
  rintro ⟨before', after', hes', hlt⟩
  have hold : 255 ≤ ticks after := by
    rcases hage with ⟨hone, _⟩ | ⟨_, _, hold⟩
    · rw [hv] at hone
      exact absurd hone (by decide)
    · exact hold
  -- The store of Recent cannot come after the last one.
  rw [hes] at hes'
  rcases List.append_eq_append_iff.mp hes' with ⟨l, _, hl⟩ | ⟨l, _, hl⟩
  · cases l with
    | nil =>
      rw [List.nil_append] at hl
      rw [(List.cons.inj hl).2] at hold
      omega
    | cons x l =>
      apply hlast m
      rw [(List.cons.inj hl).2]
      exact List.mem_append_right l List.mem_cons_self
  · cases l with
    | nil =>
      rw [List.nil_append] at hl
      rw [(List.cons.inj hl).2] at hlt
      omega
    | cons x l =>
      have htail : after' = l ++ .store e.ipAddress e.macAddr :: after := (List.cons.inj hl).2
      rw [htail, ticks, List.count_append, List.count_cons] at hlt
      have : ticks after = after.count .tick := rfl
      omega

end History

section Run

variable {s : Host} {es : List LinkEvent}

structure Clocked (es : List LinkEvent) (table : Nat → Entry) : Prop where
  mapped : Mapped table
  dated : ∀ i < arpEntries, Unicast (table i).ipAddress → Dated es (table i)

theorem Clocked.start : Clocked [] arpStart where
  mapped := Mapped.start
  dated := by
    intro i _ hu
    rw [arpStart] at hu
    split_ifs at hu
    · exact absurd rfl hu.2
    · exact absurd rfl hu.1

theorem Clocked.stored {table : Nat → Entry} (h : Clocked es table) (a : Word) (m : Mac) :
    Clocked (es ++ [.store a m]) (stored table a m) where
  mapped := h.mapped.stored
  dated := by
    intro i hi hu
    by_cases hslot : i = arpSlot table a
    · rw [hslot, stored_slot]
      exact Dated.stored a m
    · rw [stored_of_ne hslot] at hu ⊢
      refine (h.dated i hi hu).pass ?_ (fun h => LinkEvent.noConfusion h)
      intro m' heq
      have ha : a = (table i).ipAddress := (LinkEvent.store.inj heq).1
      exact hslot (h.mapped.slot_of_mem (ha ▸ hu.1) (ha ▸ hu.2) hi ha.symm)

theorem Clocked.aged {table : Nat → Entry} (h : Clocked es table) :
    Clocked (es ++ [.tick]) (aged table) where
  mapped := h.mapped.aged
  dated := by
    intro i hi hu
    rw [aged_ipAddress] at hu
    have hd := (h.dated i hi hu).tick
    rw [Address.aged]
    split_ifs with hrange hpos
    · rwa [if_pos hpos] at hd
    · rwa [if_neg hpos] at hd
    · have hzero : i = 0 := by omega
      rw [hzero, h.mapped.broadcast] at hu
      exact absurd rfl hu.2

theorem Clocked.run (hs : s.pipArpTable = arpStart) (es : List LinkEvent) :
    Clocked es (runLink s es).pipArpTable := by
  induction es using List.reverseRecOn with
  | nil =>
    rw [runLink, List.foldl_nil, hs]
    exact Clocked.start
  | append_singleton es x ih =>
    rw [runLink_snoc]
    cases x with
    | store a m => exact ih.stored a m
    | tick => exact ih.aged
    | datagram d =>
      refine ⟨ih.mapped, fun i hi hu => (ih.dated i hi hu).pass ?_ ?_⟩
      · exact fun m h => LinkEvent.noConfusion h
      · exact fun h => LinkEvent.noConfusion h

theorem timely_iff (cfg : Config) (hs : s.pipArpTable = arpStart) (ipDst : Word)
    (hu : Unicast (nextHop cfg (runLink s es) ipDst)) :
    Timely cfg s es ipDst ↔ Marked cfg s es ipDst := by
  have hclock := Clocked.run hs es
  rw [Timely, Marked, pipOutgoingIPv4]
  cases hl : lookup (runLink s es).pipArpTable (nextHop cfg (runLink s es) ipDst) with
  | none => exact ⟨fun _ e he => (Option.some_ne_none e he.symm).elim, fun _ => Or.inr rfl⟩
  | some e =>
    obtain ⟨i, hi, he, hip⟩ := lookup_eq_some hl
    have hdated : Dated es e := he ▸ hclock.dated i hi (he ▸ hip ▸ hu)
    constructor
    · rintro (⟨m, hrecent, _⟩ | hreq) e' he' hv
      · rw [← Option.some.inj he'] at hv
        exact hdated.not_recent hv m (hip ▸ hrecent)
      · exact Sent.noConfusion hreq
    · intro h
      refine Or.inl ⟨e.macAddr, ?_, rfl⟩
      rw [← hip]
      exact hdated.recent (h e rfl)

end Run

theorem arp_expiry (cfg : Config) (s : Host) (hs : s.pipArpTable = arpStart)
    (es : List LinkEvent) :
    (∀ before ipDst after, es = before ++ .datagram ipDst :: after →
        Unicast (nextHop cfg (runLink s before) ipDst) → Timely cfg s before ipDst) ↔
      ∀ before ipDst after, es = before ++ .datagram ipDst :: after →
        Unicast (nextHop cfg (runLink s before) ipDst) → Marked cfg s before ipDst :=
  ⟨fun h before ipDst after hes hu => (timely_iff cfg hs ipDst hu).mp (h before ipDst after hes hu),
    fun h before ipDst after hes hu => (timely_iff cfg hs ipDst hu).mpr (h before ipDst after hes hu)⟩

theorem arp_expiry_one :
    (∀ before ipDst after, [LinkEvent.datagram 0xC0A80102] = before ++ .datagram ipDst :: after →
        Unicast (nextHop linkLocalOnly (runLink (powerOn 0) before) ipDst) →
          Timely linkLocalOnly (powerOn 0) before ipDst) ↔
      ∀ before ipDst after, [LinkEvent.datagram 0xC0A80102] = before ++ .datagram ipDst :: after →
        Unicast (nextHop linkLocalOnly (runLink (powerOn 0) before) ipDst) →
          Marked linkLocalOnly (powerOn 0) before ipDst :=
  arp_expiry linkLocalOnly (powerOn 0) rfl [.datagram 0xC0A80102]

section Dead

theorem runLink_ticks (s : Host) (n i : Nat) :
    ((runLink s (List.replicate n .tick)).pipArpTable i).ipAddress = (s.pipArpTable i).ipAddress ∧
      ((runLink s (List.replicate n .tick)).pipArpTable i).macAddr =
        (s.pipArpTable i).macAddr := by
  induction n with
  | zero => exact ⟨rfl, rfl⟩
  | succ n ih =>
    rw [List.replicate_succ', runLink_snoc]
    exact ⟨(aged_ipAddress i).trans ih.1, (aged_macAddr i).trans ih.2⟩

def silent : List LinkEvent := .store 0xC0A80102 noMac :: List.replicate 255 .tick

theorem silent_entry :
    ((runLink (powerOn 0) silent).pipArpTable 1).ipAddress = 0xC0A80102 ∧
      ((runLink (powerOn 0) silent).pipArpTable 1).macAddr = noMac := by
  have hslot : arpSlot arpStart 0xC0A80102 = 1 := by decide
  have hfirst : (pipARPStoreEntry 0xC0A80102 noMac (powerOn 0)).pipArpTable 1 =
      ⟨0xC0A80102, noMac, 1, 0xfe⟩ := by
    have h := stored_slot arpStart 0xC0A80102 noMac
    rwa [hslot] at h
  have h := runLink_ticks (pipARPStoreEntry 0xC0A80102 noMac (powerOn 0)) 255 1
  rw [hfirst] at h
  rw [silent, runLink_cons, LinkEvent.apply]
  exact h

theorem silent_sent :
    pipOutgoingIPv4 linkLocalOnly 0xC0A80102 (runLink (powerOn 0) silent) = .frame noMac := by
  have hclock := Clocked.run (s := powerOn 0) rfl silent
  have hl := lookup_of_single (hclock.mapped.single 0xC0A80102 (by decide) (by decide))
    (by decide) silent_entry.1
  rw [pipOutgoingIPv4, nextHop_direct rfl, hl]
  exact congrArg Sent.frame silent_entry.2

theorem silent_not_recent (m : Mac) : ¬Recent silent 0xC0A80102 m := by
  rintro ⟨before, after, hes, hlt⟩
  cases before with
  | nil =>
    rw [← (List.cons.inj hes).2, ticks, List.count_replicate_self] at hlt
    exact absurd hlt (by decide)
  | cons x before =>
    have hmem : LinkEvent.store 0xC0A80102 m ∈ List.replicate 255 LinkEvent.tick := by
      rw [(List.cons.inj hes).2]
      exact List.mem_append_right before List.mem_cons_self
    exact LinkEvent.noConfusion (List.eq_of_mem_replicate hmem)

-- Nobody asks after the valid flag: the host is dead, and its entry is used.
theorem arp_never_expires :
    ¬∀ (cfg : Config) (s : Host), s.pipArpTable = arpStart → ∀ (es before : List LinkEvent)
      (ipDst : Word) (after : List LinkEvent), es = before ++ .datagram ipDst :: after →
        Unicast (nextHop cfg (runLink s before) ipDst) → Timely cfg s before ipDst := by
  intro h
  have hu : Unicast (nextHop linkLocalOnly (runLink (powerOn 0) silent) 0xC0A80102) := by
    rw [nextHop_direct rfl]
    exact ⟨by decide, by decide⟩
  rcases h linkLocalOnly (powerOn 0) rfl _ silent 0xC0A80102 [] rfl hu with ⟨m, hrecent, _⟩ | hreq
  · exact silent_not_recent m hrecent
  · rw [silent_sent] at hreq
    exact Sent.noConfusion hreq

end Dead

end Xtcp.Pip.Address
