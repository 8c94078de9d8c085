import Xtcp.Channel.Invariant

namespace Xtcp.Channel
open Session Relation

variable {n : Nat}

def Ctl.busyOn (i : Fin n) : Ctl n → Bool
  | .exchange j _ => j == i
  | _ => false

def Ctl.plain : Ctl n → Bool
  | .exchange _ _ => false
  | .ready _ => false
  | _ => true

structure SysInv (s : Sys n) : Prop where
  links : ∀ i, Inv (s.ctl.waitsOn i) (s.ctl.busyOn i) (s.links i)
  ready : ∀ w, s.ctl = .ready w → (s.links w).notified = false
  next : ∀ i next, s.ctl = .exchange i next → next.plain = true

theorem busyOn_plain {c : Ctl n} (h : c.plain = true) (i : Fin n) : c.busyOn i = false := by
  cases c <;> first | rfl | cases h

theorem update_links {P : Fin n → Chan → Prop} {links : Fin n → Chan} (i : Fin n) (l : Chan)
    (hi : P i l) (h : ∀ j, j ≠ i → P j (links j)) (j : Fin n) :
    P j (Function.update links i l j) := by
  by_cases hj : j = i
  · subst hj
    simpa using hi
  · simpa [hj] using h j hj

theorem sysInv_link {s : Sys n} (h : SysInv s) (i : Fin n) (l : Chan)
    (hi : Inv (s.ctl.waitsOn i) (s.ctl.busyOn i) l)
    (hn : s.ctl = .ready i → l.notified = (s.links i).notified) : SysInv (s.setLink i l) := by
  refine ⟨update_links (P := fun j l => Inv (s.ctl.waitsOn j) (s.ctl.busyOn j) l) i l hi
    fun j _ => h.links j, ?_, h.next⟩
  intro w hw
  refine update_links (P := fun j l => s.ctl = .ready j → l.notified = false) i l ?_ ?_ w hw
  · intro hc
    rw [hn hc]
    exact h.ready i hc
  · intro j _ hc
    exact h.ready j hc

theorem sysInv_goto {s : Sys n} (h : SysInv s) (ctl : Ctl n)
    (hw : ∀ i, ctl.waitsOn i = s.ctl.waitsOn i) (hb : ∀ i, s.ctl.busyOn i = false)
    (hp : ctl.plain = true) : SysInv { s with ctl := ctl } := by
  refine ⟨?_, ?_, ?_⟩
  · intro i
    have hi := h.links i
    rw [hb i] at hi
    simpa [hw i, busyOn_plain hp i] using hi
  · intro w hc
    have hc : ctl = .ready w := hc
    simp [hc, Ctl.plain] at hp
  · intro i next hc
    have hc : ctl = .exchange i next := hc
    simp [hc, Ctl.plain] at hp

theorem sysInv_exchange {s : Sys n} (h : SysInv s) (i : Fin n) (l : Chan) (next : Ctl n)
    (hp : next.plain = true) (hb : ∀ j, s.ctl.busyOn j = false)
    (hi : Inv (next.waitsOn i) true l)
    (hw : ∀ j, j ≠ i → next.waitsOn j = s.ctl.waitsOn j) :
    SysInv { s.setLink i l with ctl := .exchange i next } := by
  refine ⟨update_links (P := fun j l => Inv (next.waitsOn j) (i == j) l) i l (by simpa using hi)
    ?_, by simp, ?_⟩
  · intro j hj
    have hl := h.links j
    have hij : (i == j) = false := by simpa using Ne.symm hj
    rw [hb j, ← hw j hj] at hl
    rwa [hij]
  · intro j next' hc
    cases hc
    exact hp

theorem sysInv_start : SysInv (start n) := by
  refine ⟨?_, by simp [start], by simp [start]⟩
  intro i
  exact ⟨.quiet, .idle, false, ⟨_, _, _, .idle .done, .refl⟩, fun _ => rfl, .quiet .idle rfl,
    traced_nil⟩

theorem sysInv_step {net : Net} {s s' : Sys n} (h : SysInv s) (hs : Step net s s') :
    SysInv s' := by
  cases hs with
  | call i c r hr => exact sysInv_link h i _ (inv_call c (h.links i) hr) fun _ => rfl
  | client i x hm =>
    exact sysInv_link h i _ (inv_move (h.links i) (.client hm) fun _ => clientMove_server hm)
      fun _ => rfl
  | queueEvent i event hc =>
    have hi := h.links i
    simp only [hc, Ctl.waitsOn, Ctl.busyOn] at hi
    refine sysInv_link h i _ ?_ (by simp [hc])
    simpa only [hc, Ctl.waitsOn, Ctl.busyOn] using inv_queueEvent event hi
  | serviceClients hc =>
    exact sysInv_goto h _ (by simp [hc, Ctl.waitsOn]) (by simp [hc, Ctl.busyOn]) rfl
  | service i activity hc =>
    have hi := h.links i
    simp only [hc, Ctl.waitsOn, Ctl.busyOn] at hi
    exact sysInv_exchange h i _ _ rfl (by simp [hc, Ctl.busyOn]) (inv_serviceClient0 net hi)
      (by simp [hc, Ctl.waitsOn])
  | again hc => exact sysInv_goto h _ (by simp [hc, Ctl.waitsOn]) (by simp [hc, Ctl.busyOn]) rfl
  | served hc => exact sysInv_goto h _ (by simp [hc, Ctl.waitsOn]) (by simp [hc, Ctl.busyOn]) rfl
  | untilReady w hc =>
    have hi := h.links w
    simp only [hc, Ctl.waitsOn, Ctl.busyOn] at hi
    refine ⟨update_links (P := fun j l => Inv (w == j) false l) w _ (by simpa using inv_notify hi)
      ?_, by simp, by simp⟩
    intro j hj
    have hwj : (w == j) = false := by simpa using Ne.symm hj
    simpa [hc, Ctl.waitsOn, Ctl.busyOn, hwj] using h.links j
  | wait w i hc =>
    have hi := h.links i
    simp only [hc, Ctl.waitsOn, Ctl.busyOn] at hi
    exact sysInv_exchange h i _ _ rfl (by simp [hc, Ctl.busyOn]) (inv_serviceClient0 net hi)
      (by simp [hc, Ctl.waitsOn])
  | waitAgain w hc _ =>
    exact sysInv_goto h _ (by simp [hc, Ctl.waitsOn]) (by simp [hc, Ctl.busyOn]) rfl
  | waitDone w hc hn =>
    refine ⟨?_, ?_, by simp⟩
    · intro i
      simpa [hc, Ctl.waitsOn, Ctl.busyOn] using h.links i
    · intro w' hw
      cases hw
      exact hn
  | sendEvent w conn hc =>
    have hi := h.links w
    simp only [hc, Ctl.waitsOn, Ctl.busyOn, beq_self_eq_true] at hi
    refine sysInv_exchange h w _ .main rfl (by simp [hc, Ctl.busyOn])
      (inv_sendEvent conn hi (h.ready w hc)) ?_
    intro j hj
    simp [hc, Ctl.waitsOn, Ne.symm hj]
  | server i next x hc hm =>
    refine sysInv_link h i _ (inv_move (h.links i) (.server hm) ?_) (by simp [hc])
    simp [hc, Ctl.busyOn]
  | finish i next v hc hr =>
    have hp := h.next i next hc
    have hi := h.links i
    simp only [hc, Ctl.waitsOn, Ctl.busyOn, beq_self_eq_true] at hi
    refine ⟨?_, ?_, ?_⟩
    · refine update_links (P := fun j l => Inv (next.waitsOn j) (next.busyOn j) l) i _ ?_ ?_
      · rw [busyOn_plain hp]
        exact inv_finish hi hr
      · intro j hj
        have hij : (i == j) = false := by simpa using Ne.symm hj
        rw [busyOn_plain hp]
        simpa only [hc, Ctl.waitsOn, Ctl.busyOn, hij] using h.links j
    · intro w hw
      have hw : next = .ready w := hw
      simp [hw, Ctl.plain] at hp
    · intro j next' hw
      have hw : next = .exchange j next' := hw
      simp [hw, Ctl.plain] at hp

theorem sysInv_reachable {net : Net} {s : Sys n} (h : Reachable net s) : SysInv s := by
  induction h with
  | refl => exact sysInv_start
  | tail _ hs ih => exact sysInv_step ih hs

def Chan.Unread (l : Chan) : Prop := ∃ r, Run l.pair ⟨.ret .idle,.ret r,[.endToken],[]⟩

def Chan.Swallowed (l : Chan) : Prop := ∃ c : Command,
  Run l.pair ⟨.ret .idle,c.swallowed,[],[.cmdToken]⟩

def Chan.Answered (l : Chan) : Prop := Run l.pair ⟨.ret .idle,afterAnswer,[],[.endToken]⟩

def Chan.Waiting (l : Chan) : Prop := Run l.pair ⟨.ret .idle,afterAnswer,[],[]⟩

theorem rests_unique {x : Link Served Reply} {p q : Place} {v : Served} {c : Code Reply}
    {a b : List Tok} (h : Rests x p v) (hq : At q c a b) (hr : Run x ⟨.ret v,c,a,b⟩) : p = q := by
  obtain ⟨c',a',b',hat,hrun⟩ := h
  have he := final_unique hr (at_final hq v) hrun (at_final hat v)
  cases he
  exact at_unique hat hq

theorem noted_iff {l : Chan} {p : Place} (h : Rests l.pair p .idle) :
    p = .noted ↔ l.Unread ∨ l.Swallowed ∨ l.Answered := by
  constructor
  · rintro rfl
    obtain ⟨c,a,b,hat,hrun⟩ := h
    cases hat with
    | unread r => exact Or.inl ⟨r,hrun⟩
    | swallowed c => exact Or.inr (Or.inl ⟨c,hrun⟩)
    | answered => exact Or.inr (Or.inr hrun)
  · rintro (⟨r,hr⟩ | ⟨c,hr⟩ | hr)
    · exact rests_unique h (.unread r) hr
    · exact rests_unique h (.swallowed c) hr
    · exact rests_unique h .answered hr

structure NotificationProtocol (net : Net) (s : Sys n) (i : Fin n) : Prop where
  notified : s.ctl.busyOn i = false → ((s.links i).notified = true ↔
    (s.links i).Unread ∨ (s.links i).Swallowed ∨ (s.links i).Answered)
  pending : s.ctl.busyOn i = false → s.ctl.waitsOn i = false →
    ((s.links i).pendingEvent.isSome = true ↔ (s.links i).notified = true)
  ordered : Ordered (ops (s.links i).hist)
  exact : Mailbox.Exact (mails (s.links i).hist) (s.links i).pendingEvent
  delivers : s.ctl.busyOn i = false → ∀ event bs, (s.links i).pendingEvent = some event →
    (s.links i).pair.toServer = .endToken :: bs →
    Run (xtcpdServiceClient0 net (s.links i)).pair
      ⟨.ret (.delivered event),.ret (.event (dummyConn event)),[],[]⟩
  ready : s.ctl = .ready i →
    (s.links i).notified = false ∧ (s.links i).pendingEvent = none ∧ (s.links i).Waiting

theorem flags_notified {waiting notified answered : Bool} {p : Place} {pending : Option Nat}
    (h : Flags waiting p .idle notified pending answered) : notified = true ↔ p = .noted := by
  cases h <;> simp

theorem flags_pending {notified answered : Bool} {p : Place} {pending : Option Nat}
    (h : Flags false p .idle notified pending answered) :
    pending.isSome = true ↔ notified = true := by
  cases h with
  | quiet _ _ => simp
  | noted _ _ _ _ hp => simp [hp rfl]

theorem flags_ready {waiting answered : Bool} {p : Place} {pending : Option Nat}
    (hw : waiting = true) (h : Flags waiting p .idle false pending answered) :
    p = .ready ∧ pending = none := by
  cases h with
  | quiet _ _ => cases hw
  | ready => exact ⟨rfl, rfl⟩

theorem notification_protocol {net : Net} {s : Sys n} (h : Reachable net s) (i : Fin n) :
    NotificationProtocol net s i := by
  have hinv := sysInv_reachable h
  obtain ⟨p, v, answered, hl⟩ := hinv.links i
  refine ⟨?_, ?_, hl.traced.ordered, Mailbox.exact_of_run hl.traced.mail, ?_, ?_⟩
  · intro hb
    rw [hb] at hl
    have hv := linked_idle hl
    subst hv
    rw [← noted_iff hl.rests]
    exact flags_notified hl.flags
  · intro hb hw
    rw [hb, hw] at hl
    have hv := linked_idle hl
    subst hv
    exact flags_pending hl.flags
  · intro hb event bs hp hbs
    rw [hb] at hl
    obtain ⟨_, hrun⟩ := rests_answer hl.rests (hl.idle rfl) hbs
    simp only [xtcpdServiceClient0, hbs, hp]
    refine (hrun (deliver event)).trans ?_
    exact server_sendConn (dummyConn event) (fun _ => .ret (Served.delivered event)) .ret
  · intro hc
    simp only [hc, Ctl.waitsOn, Ctl.busyOn, beq_self_eq_true] at hl
    have hv := linked_idle hl
    subst hv
    have hn := hinv.ready i hc
    have hf := hl.flags
    rw [hn] at hf
    obtain ⟨rfl, hp⟩ := flags_ready rfl hf
    refine ⟨hn, hp, ?_⟩
    obtain ⟨c, a, b, hat, hrun⟩ := hl.rests
    cases hat
    exact hrun

theorem notification_protocol_queued :
    NotificationProtocol emptyNet ((start 2).setLink 1 (xtcpdQueueEvent ((start 2).links 1) 10)) 1 :=
  notification_protocol (.tail .refl (.queueEvent 1 10 rfl)) 1

def answering : Chan :=
  ⟨⟨.ret .idle, afterAnswer, [], [.endToken]⟩, true, some 0, [.queued 0, .notification]⟩

theorem answering_reachable (net : Net) :
    ∃ s : Sys 1, Reachable net s ∧ s.ctl = .main ∧ s.links 0 = answering :=
  ⟨_, .tail (.tail (.tail (.tail .refl (.queueEvent 0 0 rfl)) (.call 0 .event .done rfl))
    (.client 0 _ (.inp _ _ Tok.endToken [] [])))
    (.client 0 _ (.out Tok.endToken _ afterAnswer [] [])),
    rfl, rfl⟩

theorem answer_in_flight :
    ¬ ∀ (net : Net) (n : Nat) (s : Sys n), Reachable net s → ∀ i, s.ctl.busyOn i = false →
      ((s.links i).notified = true ↔ (s.links i).Unread ∨ (s.links i).Swallowed) := by
  intro h
  obtain ⟨s, hs, hc, hl⟩ := answering_reachable emptyNet
  have hn := h emptyNet 1 s hs 0 (by simp [hc, Ctl.busyOn])
  rw [hl] at hn
  have hfinal : Final answering.pair := at_final .answered .idle
  rcases hn.mp rfl with ⟨r, hr⟩ | ⟨c, hr⟩
  · have ha := congrArg Pair.toServer (final_run hfinal hr)
    simp [answering] at ha
  · have ha := congrArg Pair.toServer (final_run hfinal hr)
    simp [answering] at ha

end Xtcp.Channel
