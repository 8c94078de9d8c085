import Xtcp.Mdns.Probing

namespace Xtcp.Mdns

def State.unclaimed (s : State) : Prop :=
  s = .disabled ∨ s = .probeWait ∨ s = .probePartialSent ∨ s = .probeSent

def Silent (table : Table) (s : Sent) : Prop :=
  s.message = .response → ∀ p ∈ s.parts, ∀ e, table[p.entry]? = some e → ¬ e.state.unclaimed

-- A conflict is detected, or the entry is started again, while an answer of it is pending.
def Note.drops : Note → Prop
  | .conflict _ p => p ≠ .none
  | .started _ p => p ≠ .none
  | _ => False

instance (n : Note) : Decidable n.drops := by
  cases n <;> unfold Note.drops <;> infer_instance

def Awaited (e : Entry) : Prop :=
  e.pending = .none ∨ e.state = .announceWait ∨ e.state = .announceSent ∨ e.state = .active

section Awaited

variable {t k : Nat} {e e' : Entry}

theorem Awaited.pending (h : Awaited e) (hs : probing e) : e.pending = .none := by
  rcases h with h | h | h | h
  · exact h
  · simp [probing, h] at hs
  · simp [probing, h] at hs
  · simp [probing, h] at hs

theorem Awaited.claimed (h : Awaited e) (hp : e.pending ≠ .none) : ¬ e.state.unclaimed := by
  rcases h with h | h | h | h
  · exact absurd h hp
  · simp [State.unclaimed, h]
  · simp [State.unclaimed, h]
  · simp [State.unclaimed, h]

theorem Awaited.tick (h : Awaited e) : Awaited (periodicEntry t k e).1 := by
  unfold periodicEntry
  split
  · next hs =>
    have hp : e.pending = .none := h.pending (by simp [probing, hs])
    split
    · split
      · exact Or.inl hp
      · exact Or.inl hp
    · exact h
  · split
    · split
      · exact Or.inr (Or.inl rfl)
      · exact Or.inr (Or.inr (Or.inr rfl))
    · exact h
  · exact h

theorem revert_pending (k : Nat) (e : Entry) : (revert k e).1.pending = e.pending := by
  unfold revert
  simp only
  split <;> rfl

theorem Awaited.change {notes : List Note} (hc : Change t k e e' notes)
    (hn : ∀ n ∈ notes, ¬ n.drops) (h : Awaited e) : Awaited e' := by
  induction hc with
  | other e _ => exact h
  | pend e p ha => exact Or.inr (Or.inr (Or.inr ha))
  | calm e => exact Or.inl rfl
  | readdress e a => exact h
  | conflict e _ _ =>
    refine Or.inl ?_
    have hd := hn (.conflict k e.pending) (by simp [revert])
    rw [revert_pending]
    exact not_not.mp hd
  | lost e hp _ => exact Or.inl (h.pending hp)
  | start e _ =>
    have hd := hn (.started k e.pending) (by simp)
    exact Or.inl (not_not.mp hd)
  | tick e => exact h.tick
  | trans _ _ ih ih' =>
    exact ih' (fun n hm => hn n (List.mem_append_right _ hm))
      (ih (fun n hm => hn n (List.mem_append_left _ hm)) h)

theorem Change.sends {notes : List Note} (hc : Change t k e e' notes) (s : Sent) :
    .sent s ∉ notes := by
  induction hc with
  | other e hf =>
    intro h
    simpa [Note.foreign] using hf _ h
  | conflict e _ _ =>
    intro h
    simp only [revert, List.cons_append, List.mem_cons, List.mem_append, reduceCtorEq,
      false_or] at h
    rcases h with h | h
    · split at h <;> simp at h
    · split at h <;> simp at h
  | lost e _ hi =>
    intro h
    simp only [List.cons_append, List.mem_cons, List.mem_append, reduceCtorEq, false_or] at h
    rcases h with h | h
    · cases hi _ h
    · simp at h
  | start e _ => simp
  | tick e =>
    unfold periodicEntry
    split
    · split
      · split <;> simp
      · simp
    · split
      · split <;> simp
      · simp
    · simp
  | trans _ _ ih ih' =>
    intro h
    rcases List.mem_append.mp h with h | h
    · exact ih h
    · exact ih' h
  | _ => simp

theorem Awaited.sending {s : Option Sent} (hs : Sending t k e e' s) (h : Awaited e) :
    Awaited e' := by
  cases hs with
  | rest _ _ _ => exact h
  | asked hw _ _ => exact Or.inl (h.pending (by simp [probing, hw]))
  | responded _ _ _ _ => exact Or.inl rfl

theorem responded_claimed {canonical : Option (List UInt8)} {p : Part} (h : Awaited e)
    (hp : p ∈ responseParts canonical k e) : ¬ (responded t e).state.unclaimed := by
  rcases List.mem_append.mp hp with hp | hp
  · have hw := (mem_announceParts hp).1
    simp [State.unclaimed, responded, Mdns.announced, hw]
  · have hc := h.claimed (mem_answerParts hp).1
    unfold responded Mdns.announced
    split
    · simp [State.unclaimed]
    · exact hc

end Awaited

section Runs

variable {w w' : World} {now : Nat} {log : Log}

theorem run_awaited (h : Run w now log) (hd : ∀ x ∈ log, ¬ x.2.drops) {k : Nat} {e : Entry}
    (he : w.table[k]? = some e) : Awaited e := by
  induction h generalizing k e with
  | init now =>
    have : e = Entry.zero := List.eq_of_mem_replicate (List.mem_of_getElem? he)
    subst this
    exact Or.inl rfl
  | register r _ ih =>
    rcases register_get r he with he | ⟨x, rfl⟩
    · exact ih hd he
    · exact Or.inl (fill_idle r x).2
  | event later fuel conn hrun hle hstep ih =>
    have ih {j : Nat} {x : Entry} := @ih (fun y hy => hd y (List.mem_append_left _ hy)) j x
    obtain ⟨e0, he0, hc | ⟨s, hs, rfl⟩⟩ := handleEvent_get hstep (run_whole hrun) he
    · refine (ih he0).change hc ?_
      intro n hn
      exact hd (later, n) (List.mem_append_right _ (List.mem_map_of_mem hn))
    · exact (ih he0).sending hs

theorem no_answers_while_probing (h : Run w now log) (hd : ∀ x ∈ log, ¬ x.2.drops)
    {fuel later : Nat} {conn : Conn} {notes : List Note}
    (hstep : mdnsHandleEvent fuel conn (later % 2 ^ 32) w = some (w', notes)) {s : Sent}
    (hs : .sent s ∈ notes) : Silent w'.table s := by
  intro hm p hp e he
  obtain ⟨e0, he0, hc⟩ := handleEvent_get hstep (run_whole h) he
  have ha : Awaited e0 := run_awaited h hd he0
  have hmem : p ∈ entryParts p.entry s.parts := by simpa [entryParts] using hp
  rcases hc with hc | ⟨o, hsend, rfl⟩
  · exact absurd hs (hc.sends s)
  · obtain rfl : o = some s := by simpa using hs
    cases hsend with
    | rest _ _ hn =>
      obtain ⟨m, parts⟩ := s
      obtain rfl : m = .response := hm
      rw [hn parts rfl] at hmem
      cases hmem
    | asked _ _ _ => cases hm
    | responded canonical _ _ hparts =>
      have hr : p ∈ responseParts canonical p.entry e0 := by
        rw [← hparts]
        exact hmem
      exact responded_claimed ha hr

-- A query and then a record of another host with the name, between two events of sending.
def queryForHost : List UInt8 :=
  [0, 0, 0, 0, 0, 1, 0, 0, 0, 0, 0, 0] ++ mdnsEncodeName (text "a.local") ++ be16 rrtypeA ++
    be16 rrclassIn

def recordOfOther : List UInt8 :=
  [0, 0, 0x84, 0, 0, 0, 0, 1, 0, 0, 0, 0] ++ mdnsEncodeName (text "a.local") ++
    answerHeader rrtypeA rrclassIn 255 4 ++ [10, 0, 0, 2]

def received (bytes : List UInt8) : EventType :=
  .recvData ⟨bytes.length, fun p => bytes.getD p 0, fun _ => .zero⟩

def answeredQuery : List (Nat × EventType) :=
  claimEvents ++ [(381000000, received queryForHost)]

def lostClaim : List (Nat × EventType) :=
  answeredQuery ++ [(381000000, received recordOfOther), (381000000, .requestData)]

def addressOfHost : Sent :=
  ⟨.response, [⟨0, .answer, .host, mdnsEncodeName (text "a.local") ++
    answerHeader rrtypeA (rrclassIn ||| rrclassFlush) 255 4 ++ [10, 0, 0, 1], true⟩]⟩

theorem no_answers_while_probing_host : ∃ w log later w' notes s,
    (∀ x ∈ log, ¬ Note.drops x.2) ∧ Run w later log ∧
    mdnsHandleEvent 0 ⟨.sentData, mdnsServerPort⟩ (later % 2 ^ 32) w = some (w', notes) ∧
    .sent s ∈ notes ∧ Silent w'.table s := by
  have hstate : (execute 20 (atServerPort answeredQuery) oneHost 0).bind (fun r =>
      (mdnsHandleEvent 0 ⟨.sentData, mdnsServerPort⟩ (r.2.1 % 2 ^ 32) r.1).map fun x =>
        (x.2, decide (∀ y ∈ r.2.2, ¬ y.2.drops))) = some ([.sent addressOfHost], true) := by
    decide +kernel
  obtain ⟨r, hr, hs⟩ := Option.bind_eq_some_iff.mp hstate
  obtain ⟨⟨w', notes⟩, hstep, hx⟩ := Option.map_eq_some_iff.mp hs
  obtain ⟨rfl, hd⟩ := Prod.mk.inj hx
  have hd := of_decide_eq_true hd
  have hmem : Note.sent addressOfHost ∈ [Note.sent addressOfHost] := List.mem_singleton_self _
  exact ⟨r.1, r.2.2, r.2.1, w', _, addressOfHost, hd, run_oneHost hr, hstep, hmem,
    no_answers_while_probing (run_oneHost hr) hd hstep hmem⟩

theorem answer_while_probing : ∃ w now log later w' notes s, Run w now log ∧ now ≤ later ∧
    mdnsHandleEvent 0 ⟨.sentData, mdnsServerPort⟩ (later % 2 ^ 32) w = some (w', notes) ∧
    .sent s ∈ notes ∧ ¬ Silent w'.table s := by
  have hstate : (execute 20 (atServerPort lostClaim) oneHost 0).bind (fun r =>
      (mdnsHandleEvent 0 ⟨.sentData, mdnsServerPort⟩ (r.2.1 % 2 ^ 32) r.1).map fun x =>
        (x.2, x.1.table[0]?.map (·.state))) = some ([.sent addressOfHost], some .probeSent) := by
    decide +kernel
  obtain ⟨r, hr, hs⟩ := Option.bind_eq_some_iff.mp hstate
  obtain ⟨⟨w', notes⟩, hstep, hx⟩ := Option.map_eq_some_iff.mp hs
  obtain ⟨rfl, he⟩ := Prod.mk.inj hx
  obtain ⟨e, he, hprobing⟩ := Option.map_eq_some_iff.mp he
  refine ⟨r.1, r.2.1, r.2.2, r.2.1, w', _, addressOfHost, run_oneHost hr, Nat.le_refl _, hstep,
    List.mem_singleton_self _, ?_⟩
  intro h
  refine h rfl _ (List.mem_singleton_self _) e he ?_
  exact Or.inr (Or.inr (Or.inr hprobing))

end Runs

end Xtcp.Mdns
