import Xtcp.Mdns.Change
import Mathlib.Data.List.Chain

namespace Xtcp.Mdns

-- A datagram that asks for the name of an entry, or announces it.
structure Beat where
  part : Section
  time : Nat
  parts : List Part

def Beat.names (name : List UInt8) (b : Beat) : Prop :=
  ∃ p ∈ b.parts, (p.kind = .any ∨ p.kind = .host ∨ p.kind = .srv) ∧
    mdnsEncodeName name <+: p.data

def beat (part : Section) (time : Nat) (parts : List Part) : List Beat :=
  if parts = [] then [] else [⟨part, time, parts⟩]

def Note.beats (k time : Nat) : Note → List Beat
  | .sent s => beat .question time (about k .question s.parts) ++
      beat .announcement time (about k .announcement s.parts)
  | _ => []

def Note.resets (k : Nat) : Note → Bool
  | .conflict i _ => i == k
  | .tieBreakLost i => i == k
  | .started i _ => i == k
  | .entryLost i => i == k
  | _ => false

def tell (k : Nat) (bs : List Beat) (x : Nat × Note) : List Beat :=
  if x.2.resets k then [] else bs ++ x.2.beats k x.1

-- The datagrams for the entry at k since it was last reset.
def tale (k : Nat) (log : Log) : List Beat := log.foldl (tell k) []

-- 250 ms and 1 s, in ticks of the clock
def probeInterval : Nat := 250 * 1000 * 100

def announceInterval : Nat := 1000 * 1000 * 100

structure Series (part : Section) (interval : Nat) (name : List UInt8) (bs : List Beat) :
    Prop where
  part : ∀ b ∈ bs, b.part = part
  names : ∀ b ∈ bs, b.names name
  apart : bs.IsChain fun a b => a.time + interval ≤ b.time

def Ripe (interval now : Nat) (bs : List Beat) : Prop := ∀ b ∈ bs.getLast?, b.time + interval ≤ now

def Timed (interval now timeout : Nat) (bs : List Beat) : Prop :=
  ∃ b ∈ bs.getLast?, b.time ≤ now ∧
    ∃ d, interval ≤ d ∧ d < 2 ^ 31 ∧ timeout = (b.time + d) % 2 ^ 32

section Series

variable {part : Section} {interval now later timeout : Nat} {name : List UInt8} {bs : List Beat}

theorem Series.nil : Series part interval name [] :=
  ⟨by simp, by simp, .nil⟩

theorem Series.concat {b : Beat} (h : Series part interval name bs)
    (hr : Ripe interval b.time bs) (hp : b.part = part) (hn : b.names name) :
    Series part interval name (bs ++ [b]) := by
  refine ⟨?_, ?_, ?_⟩
  · intro c hc
    rcases List.mem_append.mp hc with hc | hc
    · exact h.part c hc
    · rwa [List.mem_singleton.mp hc]
  · intro c hc
    rcases List.mem_append.mp hc with hc | hc
    · exact h.names c hc
    · rwa [List.mem_singleton.mp hc]
  · refine h.apart.append (List.isChain_singleton b) ?_
    intro x hx y hy
    obtain rfl : b = y := by simpa using hy
    exact hr x hx

theorem Ripe.nil : Ripe interval now [] := by simp [Ripe]

theorem Ripe.mono (h : Ripe interval now bs) (hn : now ≤ later) : Ripe interval later bs :=
  fun b hb => (h b hb).trans hn

theorem Timed.mono (h : Timed interval now timeout bs) (hn : now ≤ later) :
    Timed interval later timeout bs := by
  obtain ⟨b, hb, ht, hd⟩ := h
  exact ⟨b, hb, ht.trans hn, hd⟩

theorem Timed.concat (b : Beat) {d : Nat} (hi : interval ≤ d) (hd : d < 2 ^ 31) :
    Timed interval b.time ((b.time % 2 ^ 32 + d) % 2 ^ 32) (bs ++ [b]) :=
  ⟨b, by simp, Nat.le_refl _, d, hi, hd, by rw [Nat.mod_add_mod]⟩

theorem Timed.ripe (h : Timed interval now timeout bs) (ht : timeafter (now % 2 ^ 32) timeout) :
    Ripe interval now bs := by
  obtain ⟨b, hb, hle, d, hi, hd, rfl⟩ := h
  have hafter : 2 ^ 31 ≤ ((b.time + d) % 2 ^ 32 + (2 ^ 32 - now % 2 ^ 32)) % 2 ^ 32 := by
    simpa [timeafter] using ht
  intro c hc
  obtain rfl : b = c := Option.mem_unique hb hc
  omega

end Series

-- What the datagrams since the last reset are, by the state of the entry.
def Stage (e : Entry) (now : Nat) (bs : List Beat) : Prop :=
  match e.state with
  | .unused => True
  | .disabled => True
  | .probeWait => Series .question probeInterval e.name bs ∧ bs.length = e.numSent ∧
      e.numSent < 3 ∧ Ripe probeInterval now bs
  | .probePartialSent => False
  | .probeSent => Series .question probeInterval e.name bs ∧ bs.length = e.numSent ∧
      e.numSent ≤ 3 ∧ Timed probeInterval now e.timeout bs
  | .announceWait => ∃ ps as, bs = ps ++ as ∧ Series .question probeInterval e.name ps ∧
      Series .announcement announceInterval e.name as ∧ 3 ≤ ps.length ∧ as.length = e.numSent ∧
      e.numSent < 3 ∧ Ripe announceInterval now as
  | .announceSent => ∃ ps as, bs = ps ++ as ∧ Series .question probeInterval e.name ps ∧
      Series .announcement announceInterval e.name as ∧ 3 ≤ ps.length ∧ as.length = e.numSent ∧
      e.numSent ≤ 3 ∧ Timed announceInterval now e.timeout as
  | .active => ∃ ps as, bs = ps ++ as ∧ Series .question probeInterval e.name ps ∧
      Series .announcement announceInterval e.name as ∧ 3 ≤ ps.length ∧ 3 ≤ as.length

section Stage

variable {e e' : Entry} {now later : Nat} {bs : List Beat}

theorem Stage.mono (h : Stage e now bs) (hn : now ≤ later) : Stage e later bs := by
  unfold Stage at h ⊢
  cases hs : e.state with
  | probeWait =>
    rw [hs] at h
    obtain ⟨hser, hl, h3, hr⟩ := h
    exact ⟨hser, hl, h3, hr.mono hn⟩
  | probeSent =>
    rw [hs] at h
    obtain ⟨hser, hl, h3, ht⟩ := h
    exact ⟨hser, hl, h3, ht.mono hn⟩
  | announceWait =>
    rw [hs] at h
    obtain ⟨ps, as, heq, hp, ha, h3, hl, hlt, hr⟩ := h
    exact ⟨ps, as, heq, hp, ha, h3, hl, hlt, hr.mono hn⟩
  | announceSent =>
    rw [hs] at h
    obtain ⟨ps, as, heq, hp, ha, h3, hl, hlt, ht⟩ := h
    exact ⟨ps, as, heq, hp, ha, h3, hl, hlt, ht.mono hn⟩
  | _ =>
    rw [hs] at h
    exact h

theorem Stage.congr (h : Stage e now bs) (hs : e'.state = e.state) (hn : e'.name = e.name)
    (hm : e'.numSent = e.numSent) (ht : e'.timeout = e.timeout) : Stage e' now bs := by
  unfold Stage at h ⊢
  rw [hs, hn, hm, ht]
  exact h

theorem Stage.reset (hs : e.state = .probeWait) (hn : e.numSent = 0) : Stage e now [] := by
  unfold Stage
  rw [hs, hn]
  exact ⟨.nil, rfl, by omega, .nil⟩

theorem Stage.tick (h : Stage e now bs) (k : Nat) :
    Stage (periodicEntry (now % 2 ^ 32) k e).1 now bs := by
  unfold periodicEntry
  split
  · next hs =>
    split
    · next ha =>
      unfold Stage at h
      rw [hs] at h
      obtain ⟨hser, hl, h3, ht⟩ := h
      split
      · next hlt => exact ⟨hser, hl, hlt, ht.ripe ha⟩
      · next hge =>
        refine ⟨bs, [], (List.append_nil bs).symm, hser, .nil, ?_, rfl, by simp, .nil⟩
        rw [hl]
        omega
    · exact h
  · next hs =>
    split
    · next ha =>
      unfold Stage at h
      rw [hs] at h
      obtain ⟨ps, as, heq, hp, hann, h3, hl, hle, ht⟩ := h
      split
      · next hlt => exact ⟨ps, as, heq, hp, hann, h3, hl, hlt, ht.ripe ha⟩
      · next hge =>
        refine ⟨ps, as, heq, hp, hann, h3, ?_⟩
        rw [hl]
        omega
    · exact h
  · exact h

end Stage

def tells (k now : Nat) (notes : List Note) (bs : List Beat) : List Beat :=
  notes.foldl (fun bs n => tell k bs (now, n)) bs

section Tells

variable {k now : Nat} {bs : List Beat}

theorem tells_append (ns ms : List Note) (bs : List Beat) :
    tells k now (ns ++ ms) bs = tells k now ms (tells k now ns bs) := List.foldl_append ..

theorem tale_append (log : Log) (notes : List Note) :
    tale k (log ++ notes.map fun n => (now, n)) = tells k now notes (tale k log) := by
  rw [tale, List.foldl_append, List.foldl_map]
  rfl

theorem tells_quiet {notes : List Note}
    (h : ∀ n ∈ notes, n.resets k = false ∧ n.beats k now = []) : tells k now notes bs = bs := by
  induction notes generalizing bs with
  | nil => rfl
  | cons n ns ih =>
    obtain ⟨hr, hb⟩ := h n (List.mem_cons_self ..)
    have hn : tell k bs (now, n) = bs := by simp [tell, hr, hb]
    rw [tells, List.foldl_cons, hn]
    exact ih fun m hm => h m (List.mem_cons_of_mem _ hm)

theorem foreign_quiet {n : Note} (h : n.foreign k) : n.resets k = false ∧ n.beats k now = [] := by
  cases n with
  | sent s => simp [Note.foreign] at h
  | _ => simp_all [Note.foreign, Note.resets, Note.beats]

theorem tells_reset {n : Note} {ns : List Note} (hn : n.resets k = true)
    (h : ∀ m ∈ ns, m.beats k now = []) : tells k now (n :: ns) bs = [] := by
  have hnil : tells k now ns [] = [] := by
    induction ns with
    | nil => rfl
    | cons m ms ih =>
      have hm : tell k [] (now, m) = [] := by simp [tell, h m (List.mem_cons_self ..)]
      rw [tells, List.foldl_cons, hm]
      exact ih fun m' hm' => h m' (List.mem_cons_of_mem _ hm')
  have hf : tell k bs (now, n) = [] := by simp [tell, hn]
  rw [tells, List.foldl_cons, hf]
  exact hnil

theorem Stage.change {e e' : Entry} {notes : List Note}
    (hc : Change (now % 2 ^ 32) k e e' notes) (h : Stage e now bs) :
    Stage e' now (tells k now notes bs) := by
  induction hc generalizing bs with
  | other e hf =>
    rw [tells_quiet fun n hn => foreign_quiet (hf n hn)]
    exact h
  | pend e p _ => exact h.congr rfl rfl rfl rfl
  | calm e => exact h.congr rfl rfl rfl rfl
  | readdress e a => exact h.congr rfl rfl rfl rfl
  | conflict e _ _ =>
    rw [revert, List.cons_append, tells_reset]
    · exact .reset rfl rfl
    · simp [Note.resets]
    · intro m hm
      rcases List.mem_append.mp hm with hm | hm
      · split at hm
        · rw [List.mem_singleton.mp hm]
          rfl
        · cases hm
      · split at hm
        · rw [List.mem_singleton.mp hm]
          rfl
        · cases hm
  | lost e _ hinit =>
    rw [List.cons_append, tells_reset]
    · exact .reset rfl rfl
    · simp [Note.resets]
    · intro m hm
      rcases List.mem_append.mp hm with hm | hm
      · rw [hinit m hm]
        rfl
      · rw [List.mem_singleton.mp hm]
        rfl
  | start e _ =>
    rw [tells_reset]
    · exact .reset rfl rfl
    · simp [Note.resets]
    · intro m hm
      rw [List.mem_singleton.mp hm]
      rfl
  | tick e =>
    rw [tells_quiet]
    · exact h.tick k
    · intro n hn
      unfold periodicEntry at hn
      split at hn
      · split at hn
        · split at hn
          · rw [List.mem_singleton.mp hn]
            exact ⟨rfl, rfl⟩
          · rw [List.mem_singleton.mp hn]
            exact ⟨rfl, rfl⟩
        · cases hn
      · split at hn
        · split at hn
          · rw [List.mem_singleton.mp hn]
            exact ⟨rfl, rfl⟩
          · rw [List.mem_singleton.mp hn]
            exact ⟨rfl, rfl⟩
        · cases hn
      · cases hn
  | trans _ _ ih ih' =>
    rw [tells_append]
    exact ih' (ih h)

end Tells

section Sending

variable {k now : Nat} {e e' : Entry} {s : Option Sent} {bs : List Beat}

theorem tells_sent (s : Option Sent) : tells k now (s.map Note.sent).toList bs =
    bs ++ (beat .question now (about k .question (partsOf s)) ++
      beat .announcement now (about k .announcement (partsOf s))) := by
  cases s with
  | none => simp [tells, partsOf, beat]
  | some s => simp [tells, tell, partsOf, Note.beats, Note.resets]

theorem claimParts_names (canonical : Option (List UInt8)) (k : Nat) (part : Section) (e : Entry)
    (now : Nat) : (⟨part, now, claimParts canonical k part e⟩ : Beat).names e.name := by
  unfold claimParts Beat.names
  split
  · refine ⟨srvPart canonical k part e, by simp, ?_⟩
    cases canonical with
    | none => exact ⟨by simp [srvPart], by simp [srvPart, srvBody]⟩
    | some name => exact ⟨by simp [srvPart], by simp [srvPart, srvBody]⟩
  · exact ⟨hostPart k part e, by simp, by simp [hostPart], by simp [hostPart, mdnsSendHostResponse]⟩

theorem claimParts_ne_nil (canonical : Option (List UInt8)) (k : Nat) (part : Section)
    (e : Entry) : claimParts canonical k part e ≠ [] := by
  unfold claimParts
  split <;> simp

theorem Stage.asked (h : Stage e now bs) (hs : e.state = .probeWait) :
    Stage (probeSent (now % 2 ^ 32) { e with state := .probePartialSent }) now
      (bs ++ [⟨.question, now, [questionPart k e]⟩]) := by
  unfold Stage at h
  rw [hs] at h
  obtain ⟨hser, hl, h3, hr⟩ := h
  refine ⟨hser.concat hr rfl ?_, by simp [probeSent, hl], by simp only [probeSent]; exact h3, ?_⟩
  · refine ⟨questionPart k e, by simp, Or.inl rfl, ?_⟩
    simp [questionPart, mdnsSendProbe]
  · refine Timed.concat _ ?_ ?_
    · simp only [probeInterval]
      split <;> omega
    · split <;> omega

theorem Stage.announced (h : Stage e now bs) (hs : e.state = .announceWait)
    (canonical : Option (List UInt8)) :
    Stage (responded (now % 2 ^ 32) e) now
      (bs ++ [⟨.announcement, now, claimParts canonical k .announcement e⟩]) := by
  unfold Stage at h
  rw [hs] at h
  obtain ⟨ps, as, rfl, hp, ha, h3, hl, hlt, hr⟩ := h
  have hresp : responded (now % 2 ^ 32) e = { e with
      numSent := e.numSent + 1
      state := .announceSent
      timeout := (now % 2 ^ 32 + 1000 * 1000 * 100) % 2 ^ 32
      pending := .none } := by simp [responded, Mdns.announced, hs]
  rw [hresp]
  refine ⟨ps, as ++ [⟨.announcement, now, claimParts canonical k .announcement e⟩],
    by simp, hp, ha.concat hr rfl (claimParts_names ..), h3, by simp [hl], ?_, ?_⟩
  · simp only
    omega
  · exact Timed.concat _ (by simp [announceInterval]) (by omega)

theorem Stage.sending (hs : Sending (now % 2 ^ 32) k e e' s) (h : Stage e now bs) :
    Stage e' now (tells k now (s.map Note.sent).toList bs) := by
  rw [tells_sent]
  cases hs with
  | rest hq ha _ =>
    rw [hq, ha]
    simpa [beat] using h
  | asked hw hq ha =>
    rw [partsOf, Option.elim_some, hq, ha]
    simpa [beat] using h.asked (k := k) hw
  | responded canonical _ _ hp =>
    have hq : about k .question (partsOf s) = [] := by
      rw [about_eq_filter, hp]
      refine List.filter_eq_nil_iff.mpr ?_
      intro p hm
      rcases (mem_responseParts hm).2 with hm | hm <;> simp [hm]
    have ha : about k .announcement (partsOf s) = announceParts canonical k e := by
      have hr := @about_responseParts canonical k e
      rw [about_eq_filter, entryParts_responseParts] at hr
      rw [about_eq_filter, hp]
      exact hr
    rw [hq, ha, announceParts]
    by_cases hw : e.state = .announceWait
    · simpa [hw, beat, claimParts_ne_nil] using h.announced (k := k) hw canonical
    · have hr : responded (now % 2 ^ 32) e = { e with pending := .none } := by
        simp [responded, Mdns.announced, hw]
      have hc : Stage { e with pending := .none } now bs := h.congr rfl rfl rfl rfl
      rw [hr]
      simpa [hw, beat] using hc

end Sending

def Registration.fill : Registration → Entry → Entry
  | .canonicalName name => fillEntry name (text "local") [] 0 .canonicalNameEntry
  | .hostName name => fillEntry name (text "local") [] 0 .nameEntry
  | .service name srvType srvPort txt => fillEntry name srvType txt srvPort .srvEntry

theorem register_get (r : Registration) {table : Table} {k : Nat} {e : Entry}
    (h : (r.apply table)[k]? = some e) : table[k]? = some e ∨ ∃ x, e = r.fill x := by
  have hadd (namePrefix namePostfix txt : List UInt8) (srvPort : Int) (ty : EntryType)
      (h : (mdnsAddEntry namePrefix namePostfix txt srvPort ty table)[k]? = some e) :
      table[k]? = some e ∨ ∃ x, e = fillEntry namePrefix namePostfix txt srvPort ty x := by
    unfold mdnsAddEntry at h
    split at h
    · exact Or.inl h
    · next i _ =>
      rw [List.getElem?_modify] at h
      split at h
      · obtain ⟨x, -, rfl⟩ := Option.map_eq_some_iff.mp h
        exact Or.inr ⟨x, rfl⟩
      · simpa using Or.inl h
  cases r with
  | canonicalName name => exact hadd _ _ _ _ _ h
  | hostName name => exact hadd _ _ _ _ _ h
  | service name srvType srvPort txt => exact hadd _ _ _ _ _ h

theorem fill_idle (r : Registration) (x : Entry) :
    (r.fill x).state = .disabled ∧ (r.fill x).pending = .none := by
  cases r <;> exact ⟨rfl, rfl⟩

theorem Stage.whole {e : Entry} {now : Nat} {bs : List Beat} (h : Stage e now bs) :
    e.state ≠ .probePartialSent := by
  intro hs
  unfold Stage at h
  rw [hs] at h
  exact h

theorem run_stage {w : World} {now : Nat} {log : Log} (h : Run w now log) {k : Nat} {e : Entry}
    (he : w.table[k]? = some e) : Stage e now (tale k log) := by
  induction h generalizing k e with
  | init now =>
    have : e = Entry.zero := List.eq_of_mem_replicate (List.mem_of_getElem? he)
    subst this
    exact trivial
  | register r _ ih =>
    rcases register_get r he with he | ⟨x, rfl⟩
    · exact ih he
    · unfold Stage
      rw [(fill_idle r x).1]
      exact trivial
  | event later fuel conn _ hle hstep ih =>
    rename_i w _ _ _ _ _
    have hp (x : Entry) (hx : x ∈ w.table) : x.state ≠ .probePartialSent := by
      obtain ⟨j, hj⟩ := List.getElem?_of_mem hx
      exact (ih hj).whole
    obtain ⟨e0, he0, hc | ⟨s, hs, rfl⟩⟩ := handleEvent_get hstep hp he
    · rw [tale_append]
      exact ((ih he0).mono hle).change hc
    · rw [tale_append]
      exact ((ih he0).mono hle).sending hs

theorem run_whole {w : World} {now : Nat} {log : Log} (h : Run w now log) :
    ∀ e ∈ w.table, e.state ≠ .probePartialSent := by
  intro e he
  obtain ⟨k, hk⟩ := List.getElem?_of_mem he
  exact (run_stage h hk).whole

end Xtcp.Mdns
