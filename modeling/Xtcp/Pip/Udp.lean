import Mathlib.Data.List.FinRange
import Mathlib.Data.Fintype.Card
import Mathlib.Logic.Function.Basic

namespace Xtcp.Pip.Udp

variable {n : Nat}

structure Config where
  dhcp : Bool
  tftp : Bool
  pipPortTFTP : Nat

-- data: what the total length leaves after the header. valid: the checksum is zero.
structure Datagram where
  remoteIP : Nat
  localIP : Nat
  remotePort : Nat
  localPort : Nat
  data : List UInt8
  valid : Bool
  deriving DecidableEq

structure Reader (n : Nat) where
  portNr : Nat
  channel : Fin n
  deriving DecidableEq

structure Answer where
  actualBytes : Nat
  remoteIP : Nat
  remotePort : Nat
  bytes : List UInt8
  deriving DecidableEq

inductive Note (n : Nat) where
  | asked (channel : Fin n) (localPort maxBytes : Nat)
  | answered (channel : Fin n) (localPort : Nat) (a : Answer)
  deriving DecidableEq

-- asking: the port and the maximum of the call of pipApplicationReadUDP that waits on a channel.
structure Host (n : Nat) where
  appUDP : Nat → Reader n
  nAppUDP : Nat
  asking : Fin n → Option (Nat × Nat)
  fault : Bool
  log : List (Note n)

def answer (d : Datagram) (maxBytes : Nat) : Answer :=
  let length := if d.data.length > maxBytes then maxBytes else d.data.length
  ⟨length, d.remoteIP, d.remotePort, d.data.take length⟩

def compact (i nAppUDP : Nat) (appUDP : Nat → Reader n) : Nat → Reader n :=
  (List.range' i (nAppUDP - i)).foldl (fun a j => Function.update a j (a (j + 1))) appUDP

-- A channel whose application is not in a read would not answer: the server would block.
def serveReader (d : Datagram) (i : Nat) (s : Host n) : Host n :=
  let channel := (s.appUDP i).channel
  match s.asking channel with
  | none => { s with fault := true }
  | some (_, maxBytes) =>
    { s with
      asking := Function.update s.asking channel none
      nAppUDP := s.nAppUDP - 1
      appUDP := compact i (s.nAppUDP - 1) s.appUDP
      log := s.log ++ [.answered channel d.localPort (answer d maxBytes)] }

def serveUDPChannels (d : Datagram) (s : Host n) : Host n :=
  match (List.range s.nAppUDP).find? fun i => d.localPort = (s.appUDP i).portNr with
  | none => s
  | some i => serveReader d i s

def Config.takes (cfg : Config) (d : Datagram) : Bool :=
  (cfg.dhcp && d.localPort == 0x44) || (cfg.tftp && d.localPort == cfg.pipPortTFTP)

def pipIncomingUDP (cfg : Config) (d : Datagram) (s : Host n) : Host n :=
  if !d.valid then s
  else if cfg.takes d then s
  else serveUDPChannels d s

def doReadUDP (app : Fin n) (remotePort : Nat) (s : Host n) : Host n :=
  if s.nAppUDP < n then
    { s with
      appUDP := Function.update s.appUDP s.nAppUDP ⟨remotePort, app⟩
      nAppUDP := s.nAppUDP + 1 }
  else { s with fault := true }

inductive Event (n : Nat) where
  | read (app : Fin n) (localPort maxBytes : Nat)
  | datagram (d : Datagram)
  deriving DecidableEq

-- An application that is in a read cannot begin another.
def step (cfg : Config) (s : Host n) : Event n → Host n
  | .read app localPort maxBytes =>
    if (s.asking app).isSome then s
    else
      doReadUDP app localPort { s with
        asking := Function.update s.asking app (some (localPort, maxBytes))
        log := s.log ++ [.asked app localPort maxBytes] }
  | .datagram d => pipIncomingUDP cfg d s

def run (cfg : Config) (s : Host n) (es : List (Event n)) : Host n := es.foldl (step cfg) s

def init (appUDP : Nat → Reader n) : Host n := ⟨appUDP, 0, fun _ => none, false, []⟩

def Host.table (s : Host n) : List (Reader n) := (List.range s.nAppUDP).map s.appUDP

-- What the reads are for: a queue of waiting readers for each port, first come first served.
structure Queues (n : Nat) where
  waiting : Nat → List (Fin n × Nat)
  busy : Fin n → Bool
  log : List (Note n)

def Queues.step (cfg : Config) (q : Queues n) : Event n → Queues n
  | .read app localPort maxBytes =>
    if q.busy app then q
    else
      { waiting := Function.update q.waiting localPort (q.waiting localPort ++ [(app, maxBytes)])
        busy := Function.update q.busy app true
        log := q.log ++ [.asked app localPort maxBytes] }
  | .datagram d =>
    if d.valid && !cfg.takes d then
      match q.waiting d.localPort with
      | [] => q
      | (app, maxBytes) :: rest =>
        { waiting := Function.update q.waiting d.localPort rest
          busy := Function.update q.busy app false
          log := q.log ++ [.answered app d.localPort ⟨min d.data.length maxBytes, d.remoteIP,
            d.remotePort, d.data.take maxBytes⟩] }
    else q

def Queues.run (cfg : Config) (q : Queues n) (es : List (Event n)) : Queues n :=
  es.foldl (Queues.step cfg) q

def Queues.empty : Queues n := ⟨fun _ => [], fun _ => false, []⟩

theorem compact_spec (i m : Nat) (appUDP : Nat → Reader n) (j : Nat) :
    compact i m appUDP j = if i ≤ j ∧ j < m then appUDP (j + 1) else appUDP j := by
  unfold compact
  obtain ⟨k, hk⟩ : ∃ k, k = m - i := ⟨_, rfl⟩
  rw [← hk]
  have h : ∀ k j, (List.range' i k).foldl (fun a j => Function.update a j (a (j + 1))) appUDP j =
      if i ≤ j ∧ j < i + k then appUDP (j + 1) else appUDP j := by
    intro k
    induction k with
    | zero =>
      intro j
      rw [if_neg (by omega)]
      rfl
    | succ k ih =>
      intro j
      rw [List.range'_concat, List.foldl_append, List.foldl_cons, List.foldl_nil, Nat.one_mul]
      by_cases hj : j = i + k
      · rw [hj, Function.update_self, ih, if_neg (by omega), if_pos (by omega)]
      · rw [Function.update_of_ne hj, ih]
        by_cases hin : i ≤ j ∧ j < i + k
        · rw [if_pos hin, if_pos (by omega)]
        · rw [if_neg hin, if_neg (by omega)]
  rw [h]
  by_cases hj : i ≤ j ∧ j < m
  · rw [if_pos (by omega), if_pos hj]
  · rw [if_neg (by omega), if_neg hj]

theorem table_compact (appUDP : Nat → Reader n) {i m : Nat} (hi : i ≤ m) :
    (List.range m).map (compact i m appUDP) = ((List.range (m + 1)).map appUDP).eraseIdx i := by
  refine List.ext_getElem ?_ fun j h₁ h₂ => ?_
  · rw [List.length_eraseIdx_of_lt (by simp; omega)]
    simp
  · rw [List.length_map, List.length_range] at h₁
    rw [List.getElem_map, List.getElem_range, compact_spec, List.getElem_eraseIdx]
    by_cases hj : j < i
    · rw [if_neg (by omega), dif_pos hj]
      simp
    · rw [if_pos (by omega), dif_neg hj]
      simp

-- The first reader on the port, at its place in the table.
structure First (table : List (Reader n)) (port i : Nat) (r : Reader n) : Prop where
  get : table[i]? = some r
  number : r.portNr = port
  before : ∀ r' ∈ table.take i, r'.portNr ≠ port

theorem First.split {table : List (Reader n)} {port i : Nat} {r : Reader n}
    (h : First table port i r) : table = table.take i ++ r :: table.drop (i + 1) := by
  obtain ⟨hlt, hget⟩ := List.getElem?_eq_some_iff.mp h.get
  rw [← hget, List.getElem_cons_drop, List.take_append_drop]

theorem filter_eraseIdx {table : List (Reader n)} {port i : Nat} {r : Reader n}
    (h : First table port i r) (p : Nat) :
    (table.filter fun r => r.portNr = p) =
      (if p = port then [r] else []) ++ (table.eraseIdx i).filter fun r => r.portNr = p := by
  rw [List.eraseIdx_eq_take_drop_succ]
  conv_lhs => rw [h.split]
  rw [List.filter_append, List.filter_append, List.filter_cons, h.number]
  by_cases hp : p = port
  · have hnone : (table.take i).filter (fun r => r.portNr = p) = [] := by
      rw [List.filter_eq_nil_iff]
      intro r hr hport
      exact h.before r hr ((of_decide_eq_true hport).trans hp)
    rw [hnone, if_pos hp, if_pos (decide_eq_true hp.symm)]
    rfl
  · rw [if_neg hp, if_neg fun hport => hp (of_decide_eq_true hport).symm]
    rfl

theorem find_first {s : Host n} {port i : Nat}
    (h : (List.range s.nAppUDP).find? (fun i => port = (s.appUDP i).portNr) = some i) :
    i < s.nAppUDP ∧ First s.table port i (s.appUDP i) := by
  obtain ⟨hport, hmem, hbefore⟩ := List.find?_range_eq_some.mp h
  have hlt := List.mem_range.mp hmem
  refine ⟨hlt, by simp [Host.table, hlt], (of_decide_eq_true hport).symm, ?_⟩
  intro r hr
  rw [Host.table, ← List.map_take, List.take_range, Nat.min_eq_left (Nat.le_of_lt hlt)] at hr
  obtain ⟨j, hj, rfl⟩ := List.mem_map.mp hr
  intro hnumber
  have hneg := hbefore j (List.mem_range.mp hj)
  rw [decide_eq_true hnumber.symm] at hneg
  exact nomatch hneg

theorem find_none {s : Host n} {port : Nat}
    (h : (List.range s.nAppUDP).find? (fun i => port = (s.appUDP i).portNr) = none) :
    s.table.filter (fun r => r.portNr = port) = [] := by
  rw [List.filter_eq_nil_iff]
  intro r hr hport
  obtain ⟨j, hj, rfl⟩ := List.mem_map.mp hr
  have hneg := List.find?_eq_none.mp h j hj
  exact hneg (decide_eq_true (of_decide_eq_true hport).symm)

def Host.maxBytes (s : Host n) (c : Fin n) : Nat := ((s.asking c).map Prod.snd).getD 0

structure Refines (s : Host n) (q : Queues n) : Prop where
  fault : s.fault = false
  nodup : (s.table.map Reader.channel).Nodup
  asked : ∀ r ∈ s.table, ∃ maxBytes, s.asking r.channel = some (r.portNr, maxBytes)
  waits : ∀ c, (s.asking c).isSome → ∃ r ∈ s.table, r.channel = c
  queues : ∀ p, q.waiting p =
    (s.table.filter fun r => r.portNr = p).map fun r => (r.channel, s.maxBytes r.channel)
  busy : ∀ c, q.busy c = (s.asking c).isSome
  log : q.log = s.log

theorem Refines.length_le {s : Host n} {q : Queues n} (h : Refines s q) : s.nAppUDP ≤ n := by
  have hle := h.nodup.length_le_card
  simpa [Host.table] using hle

theorem Refines.lt {s : Host n} {q : Queues n} (h : Refines s q) {c : Fin n}
    (hc : s.asking c = none) : s.nAppUDP < n := by
  have hnot : c ∉ s.table.map Reader.channel := by
    intro hmem
    obtain ⟨r, hr, rfl⟩ := List.mem_map.mp hmem
    obtain ⟨maxBytes, hasking⟩ := h.asked r hr
    rw [hc] at hasking
    exact nomatch hasking
  have hle := (List.nodup_cons.mpr ⟨hnot, h.nodup⟩).length_le_card
  simpa [Host.table, Nat.succ_le_iff] using hle

theorem table_push (appUDP : Nat → Reader n) (k : Nat) (r : Reader n) :
    (List.range (k + 1)).map (Function.update appUDP k r) = (List.range k).map appUDP ++ [r] := by
  rw [List.range_succ, List.map_append, List.map_singleton, Function.update_self]
  congr 1
  refine List.map_congr_left fun j hj => Function.update_of_ne ?_ _ _
  have hlt := List.mem_range.mp hj
  omega

theorem step_read {s : Host n} (cfg : Config) {app : Fin n} (localPort maxBytes : Nat)
    (hnone : s.asking app = none) (hlt : s.nAppUDP < n) :
    step cfg s (.read app localPort maxBytes) =
      { s with
        appUDP := Function.update s.appUDP s.nAppUDP ⟨localPort, app⟩
        nAppUDP := s.nAppUDP + 1
        asking := Function.update s.asking app (some (localPort, maxBytes))
        log := s.log ++ [.asked app localPort maxBytes] } := by
  simp only [step, hnone, doReadUDP, Option.isSome_none, Bool.false_eq_true, if_false, if_pos hlt]

theorem Refines.not_listed {s : Host n} {q : Queues n} (h : Refines s q) {app : Fin n}
    (hnone : s.asking app = none) : ∀ r ∈ s.table, r.channel ≠ app := by
  intro r hr heq
  obtain ⟨m, hm⟩ := h.asked r hr
  rw [heq, hnone] at hm
  exact nomatch hm

theorem Refines.read {s : Host n} {q : Queues n} (h : Refines s q) (cfg : Config) (app : Fin n)
    (localPort maxBytes : Nat) :
    Refines (step cfg s (.read app localPort maxBytes))
      (q.step cfg (.read app localPort maxBytes)) := by
  by_cases hbusy : (s.asking app).isSome
  · rw [step, if_pos hbusy, Queues.step, if_pos ((h.busy app).trans hbusy)]
    exact h
  have hnone : s.asking app = none := by simpa using hbusy
  have hother := h.not_listed hnone
  have hidle : q.busy app = false := by rw [h.busy, hnone]; rfl
  rw [step_read cfg localPort maxBytes hnone (h.lt hnone), Queues.step, if_neg (by simp [hidle])]
  obtain ⟨s', hs'⟩ : ∃ s' : Host n, s' = { s with
      appUDP := Function.update s.appUDP s.nAppUDP ⟨localPort, app⟩
      nAppUDP := s.nAppUDP + 1
      asking := Function.update s.asking app (some (localPort, maxBytes))
      log := s.log ++ [.asked app localPort maxBytes] } := ⟨_, rfl⟩
  rw [← hs']
  have htable : s'.table = s.table ++ [⟨localPort, app⟩] := by
    rw [hs']
    exact table_push _ _ _
  have hasking : s'.asking = Function.update s.asking app (some (localPort, maxBytes)) := by
    rw [hs']
  have hsame : ∀ r ∈ s.table, s'.asking r.channel = s.asking r.channel := fun r hr => by
    rw [hasking, Function.update_of_ne (hother r hr)]
  have hself : s'.asking app = some (localPort, maxBytes) := by
    rw [hasking, Function.update_self]
  refine ⟨by rw [hs']; exact h.fault, ?_, ?_, ?_, ?_, ?_, ?_⟩
  · rw [htable, List.map_append, List.nodup_append]
    refine ⟨h.nodup, by simp, ?_⟩
    rintro c hc d hd rfl
    obtain ⟨r, hr, rfl⟩ := List.mem_map.mp hc
    exact hother r hr (List.mem_singleton.mp hd)
  · intro r hr
    rw [htable] at hr
    rcases List.mem_append.mp hr with hr | hr
    · rw [hsame r hr]
      exact h.asked r hr
    · rw [List.mem_singleton.mp hr]
      exact ⟨maxBytes, hself⟩
  · intro c hc
    rw [htable]
    by_cases happ : c = app
    · exact ⟨⟨localPort, app⟩, by simp, happ.symm⟩
    · rw [hasking, Function.update_of_ne happ] at hc
      obtain ⟨r, hr, hrc⟩ := h.waits c hc
      exact ⟨r, List.mem_append_left _ hr, hrc⟩
  · intro p
    have hmap : (s.table.filter fun r => r.portNr = p).map
        (fun r => (r.channel, s'.maxBytes r.channel)) = q.waiting p := by
      rw [h.queues]
      refine List.map_congr_left fun r hr => ?_
      rw [Host.maxBytes, hsame r (List.mem_of_mem_filter hr), Host.maxBytes]
    rw [htable, List.filter_append, List.map_append, hmap]
    by_cases hp : p = localPort
    · subst hp
      simp [Host.maxBytes, hself]
    · simp [hp, Ne.symm hp]
  · intro c
    rw [hasking]
    by_cases hc : c = app
    · subst hc
      simp
    · rw [Function.update_of_ne hc]
      exact (Function.update_of_ne hc _ _).trans (h.busy c)
  · rw [hs', h.log]

theorem answer_eq (d : Datagram) (maxBytes : Nat) : answer d maxBytes =
    ⟨min d.data.length maxBytes, d.remoteIP, d.remotePort, d.data.take maxBytes⟩ := by
  unfold answer
  dsimp only
  split
  next h => rw [Nat.min_eq_right (by omega)]
  next h => rw [Nat.min_eq_left (by omega), List.take_of_length_le (by omega),
      List.take_of_length_le (by omega)]

theorem Refines.serve {s : Host n} {q : Queues n} (h : Refines s q) {d : Datagram} {i : Nat}
    (hi : i < s.nAppUDP) (hfirst : First s.table d.localPort i (s.appUDP i)) :
    ∃ maxBytes rest, q.waiting d.localPort = ((s.appUDP i).channel, maxBytes) :: rest ∧
      Refines (serveReader d i s)
        { waiting := Function.update q.waiting d.localPort rest
          busy := Function.update q.busy (s.appUDP i).channel false
          log := q.log ++ [.answered (s.appUDP i).channel d.localPort
            ⟨min d.data.length maxBytes, d.remoteIP, d.remotePort, d.data.take maxBytes⟩] } := by
  have hmem : s.appUDP i ∈ s.table := List.mem_of_getElem? hfirst.get
  obtain ⟨maxBytes, hasking⟩ := h.asked _ hmem
  obtain ⟨s', hs'⟩ : ∃ s' : Host n, s' = serveReader d i s := ⟨_, rfl⟩
  have hserve : s' = { s with
      asking := Function.update s.asking (s.appUDP i).channel none
      nAppUDP := s.nAppUDP - 1
      appUDP := compact i (s.nAppUDP - 1) s.appUDP
      log := s.log ++ [.answered (s.appUDP i).channel d.localPort (answer d maxBytes)] } := by
    rw [hs', serveReader, hasking]
  have htable : s'.table = s.table.eraseIdx i := by
    rw [hserve, Host.table, table_compact _ (by omega), Nat.sub_add_cancel (by omega)]
    rfl
  have hasking' : s'.asking = Function.update s.asking (s.appUDP i).channel none := by rw [hserve]
  have hsub : ∀ r ∈ s'.table, r ∈ s.table := fun r hr =>
    (List.eraseIdx_sublist s.table i).subset (htable ▸ hr)
  have hne : ∀ r ∈ s'.table, r.channel ≠ (s.appUDP i).channel := by
    have hnodup := h.nodup
    rw [hfirst.split, List.map_append, List.map_cons, List.nodup_middle, List.nodup_cons] at hnodup
    intro r hr heq
    rw [htable, List.eraseIdx_eq_take_drop_succ] at hr
    refine hnodup.1 (heq ▸ ?_)
    rw [← List.map_append]
    exact List.mem_map_of_mem hr
  have hsame : ∀ r ∈ s'.table, s'.asking r.channel = s.asking r.channel := fun r hr => by
    rw [hasking', Function.update_of_ne (hne r hr)]
  have hmap : ∀ p, (s'.table.filter fun r => r.portNr = p).map
      (fun r => (r.channel, s'.maxBytes r.channel)) =
      (s'.table.filter fun r => r.portNr = p).map
        fun r => (r.channel, s.maxBytes r.channel) := fun p =>
    List.map_congr_left fun r hr => by
      rw [Host.maxBytes, hsame r (List.mem_of_mem_filter hr), Host.maxBytes]
  have hqueues : ∀ p, q.waiting p = (if p = d.localPort then [((s.appUDP i).channel, maxBytes)]
      else []) ++ (s'.table.filter fun r => r.portNr = p).map
        fun r => (r.channel, s'.maxBytes r.channel) := by
    intro p
    rw [h.queues, filter_eraseIdx hfirst, hmap, htable, List.map_append]
    split
    · simp [Host.maxBytes, hasking]
    · rfl
  refine ⟨maxBytes, (s'.table.filter fun r => r.portNr = d.localPort).map
    fun r => (r.channel, s'.maxBytes r.channel), ?_, ?_⟩
  · rw [hqueues, if_pos rfl]
    rfl
  rw [← hs']
  refine ⟨by rw [hserve]; exact h.fault, ?_, ?_, ?_, ?_, ?_, ?_⟩
  · rw [htable]
    exact h.nodup.sublist ((List.eraseIdx_sublist s.table i).map _)
  · intro r hr
    rw [hsame r hr]
    exact h.asked r (hsub r hr)
  · intro c hc
    have hc' : c ≠ (s.appUDP i).channel := by
      rintro rfl
      rw [hasking', Function.update_self] at hc
      exact nomatch hc
    rw [hasking', Function.update_of_ne hc'] at hc
    obtain ⟨r, hr, rfl⟩ := h.waits c hc
    refine ⟨r, ?_, rfl⟩
    rw [htable, List.eraseIdx_eq_take_drop_succ]
    rw [hfirst.split] at hr
    simp only [List.mem_append, List.mem_cons] at hr ⊢
    rcases hr with hr | rfl | hr
    · exact Or.inl hr
    · exact absurd rfl hc'
    · exact Or.inr hr
  · intro p
    show Function.update q.waiting d.localPort _ p = _
    by_cases hp : p = d.localPort
    · subst hp
      rw [Function.update_self]
    · rw [Function.update_of_ne hp, hqueues, if_neg hp]
      rfl
  · intro c
    show Function.update q.busy (s.appUDP i).channel false c = _
    rw [hasking']
    by_cases hc : c = (s.appUDP i).channel
    · rw [hc, Function.update_self, Function.update_self]
      rfl
    · rw [Function.update_of_ne hc, Function.update_of_ne hc, h.busy]
  · rw [hserve, h.log, answer_eq]

theorem Refines.datagram {s : Host n} {q : Queues n} (h : Refines s q) (cfg : Config)
    (d : Datagram) : Refines (step cfg s (.datagram d)) (q.step cfg (.datagram d)) := by
  rw [step, Queues.step, pipIncomingUDP]
  by_cases hvalid : d.valid
  · by_cases htakes : cfg.takes d
    · simpa [hvalid, htakes] using h
    · rw [if_neg (by simp [hvalid]), if_neg htakes, if_pos (by simp [hvalid, htakes])]
      unfold serveUDPChannels
      split
      next hfind =>
        have hnil : q.waiting d.localPort = [] := by
          rw [h.queues, find_none hfind]
          rfl
        rw [hnil]
        exact h
      next i hfind =>
        obtain ⟨hi, hfirst⟩ := find_first hfind
        obtain ⟨maxBytes, rest, hqueue, hrefines⟩ := h.serve hi hfirst
        rw [hqueue]
        exact hrefines
  · simpa [hvalid] using h

theorem refines_run (cfg : Config) (es : List (Event n)) {s : Host n} {q : Queues n}
    (h : Refines s q) : Refines (run cfg s es) (q.run cfg es) := by
  induction es generalizing s q with
  | nil => exact h
  | cons e es ih =>
    cases e with
    | read app localPort maxBytes => exact ih (h.read cfg app localPort maxBytes)
    | datagram d => exact ih (h.datagram cfg d)

def Note.asks (c : Fin n) : Note n → Bool
  | .asked channel _ _ => channel == c
  | .answered _ _ _ => false

def Note.answers (c : Fin n) : Note n → Bool
  | .asked _ _ _ => false
  | .answered channel _ _ => channel == c

def pending (c : Fin n) (s : Host n) : Nat := (s.asking c).isSome.toNat

-- A channel has at most one read without its answer.
def Balanced (s : Host n) : Prop :=
  ∀ c, s.log.countP (Note.asks c) = s.log.countP (Note.answers c) + pending c s

theorem Balanced.read {s : Host n} {q : Queues n} (hb : Balanced s) (h : Refines s q)
    (cfg : Config) (app : Fin n) (localPort maxBytes : Nat) :
    Balanced (step cfg s (.read app localPort maxBytes)) := by
  by_cases hbusy : (s.asking app).isSome
  · rw [step, if_pos hbusy]
    exact hb
  have hnone : s.asking app = none := by simpa using hbusy
  rw [step_read cfg localPort maxBytes hnone (h.lt hnone)]
  intro c
  have hc := hb c
  unfold pending at hc ⊢
  dsimp only
  rw [List.countP_append, List.countP_append, List.countP_singleton, List.countP_singleton]
  by_cases happ : c = app
  · subst happ
    rw [hnone] at hc
    simp [Note.asks, Note.answers] at hc ⊢
    omega
  · rw [Function.update_of_ne happ]
    simp [Note.asks, Note.answers, Ne.symm happ] at hc ⊢
    omega

theorem Balanced.datagram {s : Host n} (hb : Balanced s) (cfg : Config) (d : Datagram) :
    Balanced (step cfg s (.datagram d)) := by
  rw [step, pipIncomingUDP]
  split
  · exact hb
  split
  · exact hb
  unfold serveUDPChannels
  split
  · exact hb
  next i _ =>
    unfold serveReader
    dsimp only
    split
    · exact hb
    next hasking =>
      intro c
      have hc := hb c
      unfold pending at hc ⊢
      dsimp only
      rw [List.countP_append, List.countP_append, List.countP_singleton, List.countP_singleton]
      by_cases happ : c = (s.appUDP i).channel
      · subst happ
        rw [hasking] at hc
        simp [Note.asks, Note.answers] at hc ⊢
        omega
      · rw [Function.update_of_ne happ]
        simp [Note.asks, Note.answers, Ne.symm happ] at hc ⊢
        omega

theorem balanced_run (cfg : Config) (es : List (Event n)) {s : Host n} {q : Queues n}
    (h : Refines s q) (hb : Balanced s) : Balanced (run cfg s es) := by
  induction es generalizing s q with
  | nil => exact hb
  | cons e es ih =>
    cases e with
    | read app localPort maxBytes =>
      exact ih (h.read cfg app localPort maxBytes) (hb.read h cfg app localPort maxBytes)
    | datagram d => exact ih (h.datagram cfg d) (hb.datagram cfg d)

theorem refines_init (appUDP : Nat → Reader n) : Refines (init appUDP) Queues.empty where
  fault := rfl
  nodup := List.nodup_nil
  asked _ hr := absurd hr List.not_mem_nil
  waits _ hc := nomatch hc
  queues _ := rfl
  busy _ := rfl
  log := rfl

-- PIP_UDP_CHANNELS is n; the array may hold anything at the start.
theorem udp_reads (n : Nat) (cfg : Config) (appUDP : Nat → Reader n) (es : List (Event n)) :
    let s := run cfg (init appUDP) es
    let q := Queues.empty.run cfg es
    s.log = q.log ∧ s.fault = false ∧ s.nAppUDP ≤ n ∧
      (∀ p, (s.table.filter fun r => r.portNr = p).map Reader.channel =
        (q.waiting p).map Prod.fst) ∧
      (∀ c, (s.asking c).isSome ↔ ∃ r ∈ s.table, r.channel = c) ∧
      ∀ c, s.log.countP (Note.asks c) = s.log.countP (Note.answers c) + pending c s := by
  intro s q
  have h : Refines s q := refines_run cfg es (refines_init appUDP)
  refine ⟨h.log.symm, h.fault, h.length_le, fun p => ?_, fun c => ⟨h.waits c, ?_⟩,
    balanced_run cfg es (refines_init appUDP) fun c => rfl⟩
  · rw [h.queues, List.map_map]
    rfl
  · rintro ⟨r, hr, rfl⟩
    obtain ⟨maxBytes, hasking⟩ := h.asked r hr
    rw [hasking]
    rfl

end Xtcp.Pip.Udp
