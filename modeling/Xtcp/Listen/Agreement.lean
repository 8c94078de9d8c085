import Xtcp.Library.Prefix
import Xtcp.Listen.Tables

namespace Xtcp.Listen
open SlotTable

abbrev Port := {p : Nat // 0 < p ∧ p < 65536}

def Port.net (p : Port) : Nat := htons p.val

theorem Port.net_ne_zero (p : Port) : p.net ≠ 0 := by
  intro h
  have hp := htons_htons p.property.2
  rw [show htons p.val = 0 from h] at hp
  have := p.property.1
  simp [htons] at hp
  omega

inductive Step where
  | listen (linknum : Nat) (port : Port)
  | unlisten (port : Port)
  | syn (port : Port)
  | drop (i : Nat)
  | established (i : Nat)
  deriving DecidableEq

structure State where
  tables : Tables
  synRcvd : List Nat
  owners : List (Option Nat)

def next (s : State) : Step → State
  | .listen linknum port => { s with tables := xtcpdListenTcp s.tables linknum port.val }
  | .unlisten port => { s with tables := xtcpdUnlisten s.tables port.val }
  -- the SYN is looked up in uip_listenports only
  | .syn port =>
      if port.net ∈ s.tables.listenports then { s with synRcvd := port.net :: s.synRcvd } else s
  | .drop i => { s with synRcvd := s.synRcvd.eraseIdx i }
  -- xtcpd_init_state looks the owner up in tcp_listeners when the handshake completes
  | .established i =>
      match s.synRcvd[i]? with
      | none => s
      | some lport =>
          { s with
            synRcvd := s.synRcvd.eraseIdx i
            owners := getListenerLinknum s.tables.tcpListeners lport :: s.owners }

def start (numTcp numUdp numPorts : Nat) : State := ⟨uipInit numTcp numUdp numPorts, [], []⟩

def run (s : State) (steps : List Step) : State := steps.foldl next s

theorem run_concat (s : State) (steps : List Step) (st : Step) :
    run s (steps ++ [st]) = next (run s steps) st := by
  simp [run]

def Agree (t : Tables) : Prop :=
  ∀ p, p ≠ 0 → (p ∈ t.listenports ↔ ∃ l ∈ t.tcpListeners, l.active = true ∧ l.portNumber = p)

def Owned (s : State) (steps : List Step) : Prop :=
  ∀ o ∈ s.owners, ∃ linknum port, o = some linknum ∧ Step.listen linknum port ∈ steps

def Clear (s : State) : Step → Prop
  | .listen _ port =>
      port.net ∈ s.tables.listenports ∨
        (hasFree Listener.key s.tables.tcpListeners ↔ hasFree portKey s.tables.listenports)
  | .unlisten port => s.tables.listenports.count port.net ≤ 1
  | .syn _ => True
  | .drop _ => True
  | .established i => ∀ lport, s.synRcvd[i]? = some lport → lport ∈ s.tables.listenports

def Sound (s : State) (steps : List Step) : Prop :=
  (∀ lport ∈ s.synRcvd, lport ≠ 0) ∧
  (∀ l ∈ s.tables.tcpListeners, l.active = true →
    l.portNumber ≠ 0 ∧ ∃ port, Step.listen l.linknum port ∈ steps)

theorem agree_iff_keys (t : Tables)
    (h : ∀ l ∈ t.tcpListeners, l.active = true → l.portNumber ≠ 0) :
    Agree t ↔ ∀ p, p ∈ keys Listener.key t.tcpListeners ↔ p ∈ keys portKey t.listenports := by
  simp only [Agree, mem_keys_listeners, mem_keys_ports]
  constructor
  · intro ha p
    constructor
    · rintro ⟨l, hl, hact, rfl⟩
      have hp := h l hl hact
      exact ⟨(ha l.portNumber hp).mpr ⟨l, hl, hact, rfl⟩, hp⟩
    · rintro ⟨hm, hp⟩
      exact (ha p hp).mp hm
  · intro hk p hp
    constructor
    · intro hm
      exact (hk p).mpr ⟨hm, hp⟩
    · intro hl
      exact ((hk p).mp hl).1

theorem mem_putFirst {α : Type} {key : α → Option Nat} {a x : α} {xs : List α}
    (h : x ∈ putFirst key a xs) : x = a ∨ x ∈ xs := by
  induction xs with
  | nil => exact Or.inr h
  | cons y ys ih =>
    simp only [putFirst] at h
    split at h
    · rcases List.mem_cons.mp h with rfl | h
      · exact Or.inl rfl
      · exact Or.inr (by simp [h])
    · rcases List.mem_cons.mp h with rfl | h
      · exact Or.inr (by simp)
      · rcases ih h with h | h
        · exact Or.inl h
        · exact Or.inr (by simp [h])

theorem sound_next (s : State) (steps : List Step) (st : Step) (h : Sound s steps) :
    Sound (next s st) (steps ++ [st]) := by
  obtain ⟨hsyn, hls⟩ := h
  have grow : ∀ l ∈ s.tables.tcpListeners, l.active = true →
      l.portNumber ≠ 0 ∧ ∃ port, Step.listen l.linknum port ∈ steps ++ [st] := by
    intro l hl ha
    obtain ⟨hp, port, hm⟩ := hls l hl ha
    exact ⟨hp, port, by simp [hm]⟩
  cases st with
  | listen linknum port =>
    refine ⟨hsyn, ?_⟩
    intro l hl ha
    rcases mem_putFirst hl with rfl | hl
    · exact ⟨port.net_ne_zero, port, by simp⟩
    · exact grow l hl ha
  | unlisten port =>
    refine ⟨hsyn, ?_⟩
    intro l hl ha
    obtain ⟨l0, hl0, rfl⟩ := List.mem_map.mp hl
    by_cases hk : l0.key = some (htons port.val)
    · simp [hk, Listener.stop] at ha
    · simp only [hk, if_false] at ha ⊢
      exact grow l0 hl0 ha
  | syn port =>
    simp only [next]
    split
    · refine ⟨?_, grow⟩
      intro lport hm
      rcases List.mem_cons.mp hm with rfl | hm
      · exact port.net_ne_zero
      · exact hsyn lport hm
    · exact ⟨hsyn, grow⟩
  | drop i => exact ⟨fun lport hm => hsyn lport (List.mem_of_mem_eraseIdx hm), grow⟩
  | established i =>
    simp only [next]
    split
    · exact ⟨hsyn, grow⟩
    · exact ⟨fun lport hm => hsyn lport (List.mem_of_mem_eraseIdx hm), grow⟩

theorem sound_run (numTcp numUdp numPorts : Nat) (steps : List Step) :
    Sound (run (start numTcp numUdp numPorts) steps) steps := by
  refine Prefix.foldl_invariant ?_ sound_next steps
  refine ⟨by simp [start], ?_⟩
  intro l hl ha
  have hl := List.eq_of_mem_replicate (show l ∈ List.replicate numTcp Listener.empty from hl)
  simp [hl, Listener.empty] at ha

theorem agree_listen_iff (t : Tables) (linknum : Nat) (port : Port)
    (hz : ∀ l ∈ t.tcpListeners, l.active = true → l.portNumber ≠ 0) (h : Agree t) :
    Agree (xtcpdListenTcp t linknum port.val) ↔
      (port.net ∈ t.listenports ∨
        (hasFree Listener.key t.tcpListeners ↔ hasFree portKey t.listenports)) := by
  have hz' : ∀ l ∈ (xtcpdListenTcp t linknum port.val).tcpListeners, l.active = true →
      l.portNumber ≠ 0 := by
    intro l hl ha
    rcases mem_putFirst hl with rfl | hl
    · exact port.net_ne_zero
    · exact hz l hl ha
  have hk : port.net ∈ keys portKey t.listenports ↔ port.net ∈ t.listenports := by
    simp [mem_keys_ports, port.net_ne_zero]
  rw [agree_iff_keys _ hz', ← hk]
  exact agree_put_iff Listener.key portKey _ _ port.net (by simp [Port.net])
    (portKey_eq_some.mpr ⟨rfl, port.net_ne_zero⟩) _ _ ((agree_iff_keys t hz).mp h)

theorem agree_unlisten_iff (t : Tables) (port : Port)
    (hz : ∀ l ∈ t.tcpListeners, l.active = true → l.portNumber ≠ 0) (h : Agree t) :
    Agree (xtcpdUnlisten t port.val) ↔ t.listenports.count port.net ≤ 1 := by
  have hz' : ∀ l ∈ (xtcpdUnlisten t port.val).tcpListeners, l.active = true →
      l.portNumber ≠ 0 := by
    intro l hl ha
    obtain ⟨l0, hl0, rfl⟩ := List.mem_map.mp hl
    by_cases hk : l0.key = some (htons port.val)
    · simp [hk, Listener.stop] at ha
    · simp only [hk, if_false] at ha ⊢
      exact hz l0 hl0 ha
  have hu : (xtcpdUnlisten t port.val).listenports =
      clearFirst portKey (fun _ => 0) port.net t.listenports := uipUnlisten_eq _ port.net_ne_zero
  rw [agree_iff_keys _ hz', ← count_keys_ports t.listenports port.net_ne_zero, hu]
  exact agree_clear_iff Listener.key portKey _ _ key_stop (fun _ => rfl) port.net _ _
    ((agree_iff_keys t hz).mp h)

theorem owner_iff (s : State) (steps : List Step) (lport : Nat) (hs : Sound s steps)
    (ha : Agree s.tables) (hp : lport ≠ 0) :
    (∃ linknum port, getListenerLinknum s.tables.tcpListeners lport = some linknum ∧
      Step.listen linknum port ∈ steps) ↔ lport ∈ s.tables.listenports := by
  have hk := (agree_iff_keys s.tables (fun l hl hact => (hs.2 l hl hact).1)).mp ha lport
  rw [mem_keys_ports, ← getListenerLinknum_isSome] at hk
  constructor
  · rintro ⟨linknum, port, he, _⟩
    exact (hk.mp (by simp [he])).1
  · intro hm
    obtain ⟨linknum, he⟩ := Option.isSome_iff_exists.mp (hk.mpr ⟨hm, hp⟩)
    obtain ⟨l, hl, hact, _, rfl⟩ := getListenerLinknum_mem he
    obtain ⟨_, port, hin⟩ := hs.2 l hl hact
    exact ⟨l.linknum, port, he, hin⟩

theorem owned_mono {s : State} {steps : List Step} (st : Step) (h : Owned s steps) :
    Owned s (steps ++ [st]) := by
  intro o ho
  obtain ⟨linknum, port, he, hm⟩ := h o ho
  exact ⟨linknum, port, he, by simp [hm]⟩

theorem step_iff (s : State) (steps : List Step) (st : Step) (hs : Sound s steps)
    (ha : Agree s.tables) (ho : Owned s steps) :
    (Agree (next s st).tables ∧ Owned (next s st) (steps ++ [st])) ↔ Clear s st := by
  have hz : ∀ l ∈ s.tables.tcpListeners, l.active = true → l.portNumber ≠ 0 :=
    fun l hl hact => (hs.2 l hl hact).1
  cases st with
  | listen linknum port =>
    rw [and_iff_left (show Owned (next s (.listen linknum port)) _ from owned_mono _ ho)]
    exact agree_listen_iff s.tables linknum port hz ha
  | unlisten port =>
    rw [and_iff_left (show Owned (next s (.unlisten port)) _ from owned_mono _ ho)]
    exact agree_unlisten_iff s.tables port hz ha
  | syn port =>
    simp only [next, Clear, iff_true]
    split <;> exact ⟨ha, owned_mono _ ho⟩
  | drop i => exact iff_of_true ⟨ha, owned_mono _ ho⟩ trivial
  | established i =>
    simp only [next, Clear]
    cases hi : s.synRcvd[i]? with
    | none => simpa using ⟨ha, owned_mono _ ho⟩
    | some lport =>
      have hown := owner_iff s steps lport hs ha (hs.1 lport (List.mem_of_getElem? hi))
      simp only [Option.some.injEq, forall_eq', ← hown]
      constructor
      · rintro ⟨_, h⟩
        obtain ⟨linknum, port, he, hm⟩ := h _ (List.mem_cons_self ..)
        exact ⟨linknum, port, he, by simpa using hm⟩
      · rintro ⟨linknum, port, he, hm⟩
        refine ⟨ha, ?_⟩
        intro o hmem
        rcases List.mem_cons.mp hmem with rfl | hmem
        · exact ⟨linknum, port, he, by simp [hm]⟩
        · exact owned_mono _ ho o hmem

theorem agree_start (numTcp numUdp numPorts : Nat) :
    Agree (start numTcp numUdp numPorts).tables := by
  intro p hp
  constructor
  · intro hm
    exact absurd (List.eq_of_mem_replicate (show p ∈ List.replicate numPorts 0 from hm)) hp
  · rintro ⟨l, hl, hact, _⟩
    have hl := List.eq_of_mem_replicate (show l ∈ List.replicate numTcp Listener.empty from hl)
    simp [hl, Listener.empty] at hact

theorem tables_agree_iff (numTcp numUdp numPorts : Nat) (steps : List Step) :
    (∀ pre, pre <+: steps →
      Agree (run (start numTcp numUdp numPorts) pre).tables ∧
      Owned (run (start numTcp numUdp numPorts) pre) pre) ↔
    ∀ pre st, pre ++ [st] <+: steps → Clear (run (start numTcp numUdp numPorts) pre) st := by
  refine Prefix.forall_prefix_iff _ _ ?_ ?_ steps
  · exact ⟨agree_start numTcp numUdp numPorts, by simp [run, start, Owned]⟩
  · rintro pre st ⟨ha, ho⟩
    rw [run_concat]
    exact step_iff _ pre st (sound_run numTcp numUdp numPorts pre) ha ho

theorem duplicate_listen_disagrees :
    ¬ ∀ steps : List Step, ∀ pre, pre <+: steps →
      Agree (run (start 10 10 10) pre).tables ∧ Owned (run (start 10 10 10) pre) pre := by
  intro h
  let port : Port := ⟨80, by decide⟩
  let steps : List Step := [.listen 0 port, .listen 1 port, .unlisten port]
  have ha := (h steps steps (List.prefix_refl _)).1 port.net port.net_ne_zero
  have hp : port.net ∈ (run (start 10 10 10) steps).tables.listenports := by decide
  obtain ⟨l, hl, hact, hport⟩ := ha.mp hp
  revert l
  decide

end Xtcp.Listen
