import Xtcp.Dhcpc.Acquire
import Xtcp.Dhcpc.Exchange
import Xtcp.Network.Assigned

namespace Xtcp.Network

open Channel Timer Labelled

def Note.toDhcp : Note → Option Dhcpc.Note
  | .dhcp n => some n
  | _ => none

def Note.toAutoip : Note → Option Autoip.Note
  | .autoip n => some n
  | _ => none

def dhcpNotes (notes : List Note) : List Dhcpc.Note := notes.filterMap Note.toDhcp

def autoipNotes (notes : List Note) : List Autoip.Note := notes.filterMap Note.toAutoip

section Projections

@[simp] theorem dhcpNotes_append (xs ys : List Note) :
    dhcpNotes (xs ++ ys) = dhcpNotes xs ++ dhcpNotes ys :=
  List.filterMap_append

@[simp] theorem autoipNotes_append (xs ys : List Note) :
    autoipNotes (xs ++ ys) = autoipNotes xs ++ autoipNotes ys :=
  List.filterMap_append

@[simp] theorem dhcpNotes_dhcp (ns : List Dhcpc.Note) : dhcpNotes (ns.map .dhcp) = ns := by
  rw [dhcpNotes, List.filterMap_map]
  exact List.filterMap_some

@[simp] theorem autoipNotes_dhcp (ns : List Dhcpc.Note) : autoipNotes (ns.map .dhcp) = [] := by
  rw [autoipNotes, List.filterMap_map]
  exact List.filterMap_eq_nil_iff.mpr fun _ _ => rfl

@[simp] theorem dhcpNotes_autoip (ns : List Autoip.Note) : dhcpNotes (ns.map .autoip) = [] := by
  rw [dhcpNotes, List.filterMap_map]
  exact List.filterMap_eq_nil_iff.mpr fun _ _ => rfl

@[simp] theorem autoipNotes_autoip (ns : List Autoip.Note) :
    autoipNotes (ns.map .autoip) = ns := by
  rw [autoipNotes, List.filterMap_map]
  exact List.filterMap_some

theorem checked_notes (s : NetState) : dhcpNotes (uipXtcpCheckstate s).2 = [] ∧
    autoipNotes (uipXtcpCheckstate s).2 = [] := by
  have hnone : ∀ n ∈ (uipXtcpCheckstate s).2, n.toDhcp = none ∧ n.toAutoip = none := by
    intro n hn
    rcases List.mem_cons.mp hn with rfl | hn
    · exact ⟨rfl, rfl⟩
    · obtain ⟨p, -, hp⟩ := List.mem_flatMap.mp hn
      rw [tell] at hp
      split_ifs at hp
      · obtain rfl := List.mem_singleton.mp hp
        exact ⟨rfl, rfl⟩
      · exact absurd hp List.not_mem_nil
  exact ⟨List.filterMap_eq_nil_iff.mpr fun n hn => (hnone n hn).1,
    List.filterMap_eq_nil_iff.mpr fun n hn => (hnone n hn).2⟩

end Projections

section Components

variable {b : Build} {s : NetState} {r : Result}

-- What the DHCP client and the address claim have seen of a step is a run of their own.
def DhcpRan (b : Build) (s : NetState) (r : Result) : Prop :=
  ∃ es, Dhcpc.run b.useAutoip s.dhcp es = (r.1.dhcp, dhcpNotes r.2)

def AutoipRan (b : Build) (s : NetState) (r : Result) : Prop :=
  ∀ z ns, Autoip.Run b.ethaddr z s.autoip ns →
    Autoip.Run b.ethaddr z r.1.autoip (ns ++ autoipNotes r.2)

structure Ran (b : Build) (s : NetState) (r : Result) : Prop where
  dhcp : DhcpRan b s r
  autoip : AutoipRan b s r

theorem DhcpRan.trans {s' : NetState} {new : List Note} (h : DhcpRan b s (s', new))
    (h' : DhcpRan b s' r) : DhcpRan b s (r.1, new ++ r.2) := by
  obtain ⟨es, hes⟩ := h
  obtain ⟨es', hes'⟩ := h'
  refine ⟨es ++ es', ?_⟩
  rw [Dhcpc.run_append, hes]
  dsimp only
  rw [hes', dhcpNotes_append]

theorem Ran.trans {s' : NetState} {new : List Note} (h : Ran b s (s', new)) (h' : Ran b s' r) :
    Ran b s (r.1, new ++ r.2) := by
  refine ⟨h.dhcp.trans h'.dhcp, fun z ns hrun => ?_⟩
  rw [autoipNotes_append, ← List.append_assoc]
  exact h'.autoip z _ (h.autoip z ns hrun)

theorem Ran.stay {s' : NetState} {new : List Note} (hd : s'.dhcp = s.dhcp)
    (ha : s'.autoip = s.autoip) (hnd : dhcpNotes new = []) (hna : autoipNotes new = []) :
    Ran b s (s', new) := by
  refine ⟨⟨[], ?_⟩, fun z ns hrun => ?_⟩
  · rw [hnd, hd]
    rfl
  · rw [hna, ha, List.append_nil]
    exact hrun

theorem Ran.autoipEvent {s' : NetState} (e : Autoip.Event) (hd : s'.dhcp = s.dhcp)
    (hstep : Autoip.step b.ethaddr e s.autoip = some (s'.autoip, [])) : Ran b s (s', []) := by
  refine ⟨⟨[], ?_⟩, fun z ns hrun => .concat hrun hstep⟩
  rw [hd]
  rfl

theorem Ran.dhcpEvent {s' : NetState} (ns : List Dhcpc.Note) (e : Dhcpc.Event)
    (ha : s'.autoip = s.autoip)
    (hstep : Dhcpc.step b.useAutoip s.dhcp e = (s'.dhcp, ns)) : Ran b s (s', ns.map .dhcp) := by
  refine ⟨⟨[e], ?_⟩, fun z as hrun => ?_⟩
  · rw [dhcpNotes_dhcp]
    exact hstep
  · rw [autoipNotes_dhcp, ha, List.append_nil]
    exact hrun

theorem ran_dhcpcStop : Ran b s (dhcpcStop b s) := by
  rw [dhcpcStop]
  split_ifs
  · exact .dhcpEvent [.stopped] .stop rfl rfl
  · exact .stay rfl rfl rfl rfl

theorem ran_dhcpcStart : Ran b s (dhcpcStart b s) := by
  rw [dhcpcStart]
  split_ifs
  · exact .dhcpEvent [.started] .start rfl rfl
  · exact .stay rfl rfl rfl rfl

theorem ran_autoipStop : Ran b s (autoipStop b s, []) := by
  rw [autoipStop]
  split_ifs
  · exact .autoipEvent .stop rfl rfl
  · exact .stay rfl rfl rfl rfl

theorem ran_autoipLinkup : Ran b s (autoipLinkup b s, []) := by
  rw [autoipLinkup]
  split_ifs
  · exact .autoipEvent .start rfl rfl
  · exact ran_autoipStop

theorem ran_set (s' : NetState) (hd : s'.dhcp = s.dhcp) (ha : s'.autoip = s.autoip) :
    Ran b s (s', []) :=
  .stay hd ha rfl rfl

theorem ran_linkdown : Ran b s (uipLinkdown b s) := by
  have hset : Ran b s ({ s with dhcpDone := false }, [.linkdown]) := .stay rfl rfl rfl rfl
  have hstop := hset.trans (ran_dhcpcStop (s := { s with dhcpDone := false }))
  have hautoip := hstop.trans ran_autoipStop
  have hdown := hautoip.trans (ran_set (uipXtcpDown _) rfl rfl)
  rw [List.append_nil, List.append_nil] at hdown
  exact hdown

theorem ran_linkup : Ran b s (uipLinkup b s) := by
  have hdown : Ran b s (if s.ifstate then uipXtcpDown s else s, []) := by
    split_ifs
    · exact ran_set _ rfl rfl
    · exact ran_set _ rfl rfl
  rw [uipLinkup]
  dsimp only
  generalize (if s.ifstate then uipXtcpDown s else s) = t at hdown ⊢
  split
  · next c _ =>
    have hset : Ran b t (uipXtcpUp (setAddresses c.ipaddr c.gateway c.netmask t), [.linkup]) :=
      .stay rfl rfl rfl rfl
    exact hdown.trans hset
  · have hset : Ran b t ({ t with dhcpDone := false }, [.linkup]) := .stay rfl rfl rfl rfl
    have hstop := (hdown.trans hset).trans (ran_dhcpcStop (s := { t with dhcpDone := false }))
    have hstart := (hstop.trans ran_autoipLinkup).trans ran_dhcpcStart
    rw [List.append_nil, List.append_assoc] at hstart
    exact hstart

theorem onDhcp_dhcp (n : Dhcpc.Note) : (onDhcp b s n).dhcp = s.dhcp := by
  cases n with
  | configured l =>
    rw [onDhcp, dhcpcConfigured]
    split_ifs <;> rfl
  | _ => rfl

theorem run_onDhcp {z : Autoip.AutoipState} {ns : List Autoip.Note} (n : Dhcpc.Note)
    (h : Autoip.Run b.ethaddr z s.autoip ns) :
    Autoip.Run b.ethaddr z (onDhcp b s n).autoip ns := by
  have hconcat (e : Autoip.Event) (s' : Autoip.AutoipState)
      (hs : Autoip.step b.ethaddr e s.autoip = some (s', [])) : Autoip.Run b.ethaddr z s' ns := by
    have hrun := Autoip.Run.concat h hs
    rwa [List.append_nil] at hrun
  cases n with
  | configured l =>
    rw [onDhcp, dhcpcConfigured]
    split_ifs
    · exact hconcat .stop _ rfl
    · exact h
  | autoipStart => exact hconcat .start _ rfl
  | _ => exact h

theorem foldl_onDhcp (ns : List Dhcpc.Note) :
    (ns.foldl (onDhcp b) s).dhcp = s.dhcp ∧
      ∀ z as, Autoip.Run b.ethaddr z s.autoip as →
        Autoip.Run b.ethaddr z (ns.foldl (onDhcp b) s).autoip as := by
  induction ns generalizing s with
  | nil => exact ⟨rfl, fun _ _ h => h⟩
  | cons n ns ih =>
    obtain ⟨hd, hrun⟩ := ih (s := onDhcp b s n)
    exact ⟨hd.trans (onDhcp_dhcp n), fun z as h => hrun z as (run_onDhcp n h)⟩

theorem ran_dhcp {i : Dhcpc.Input} : Ran b s (dhcpcAppcall b i s) := by
  rw [dhcpcAppcall]
  split_ifs
  · obtain ⟨hd, hrun⟩ := foldl_onDhcp (b := b)
      (s := { s with dhcp := (Dhcpc.handleDhcp b.useAutoip { i with hostaddr := s.hostaddr }
        s.dhcp).1 })
      (Dhcpc.handleDhcp b.useAutoip { i with hostaddr := s.hostaddr } s.dhcp).2
    refine ⟨⟨[.appcall { i with hostaddr := s.hostaddr }], ?_⟩, fun z as h => ?_⟩
    · dsimp only
      rw [dhcpNotes_dhcp, hd]
      rfl
    · dsimp only
      rw [autoipNotes_dhcp, List.append_nil]
      exact hrun z as h
  · exact .stay rfl rfl rfl rfl

theorem autoipConfigured_same (a : Ipaddr) :
    (autoipConfigured a s).dhcp = s.dhcp ∧ (autoipConfigured a s).autoip = s.autoip := by
  rw [autoipConfigured]
  split_ifs
  · exact ⟨rfl, rfl⟩
  · exact ⟨rfl, rfl⟩

theorem foldl_onAutoip (ns : List Autoip.Note) :
    (ns.foldl onAutoip s).dhcp = s.dhcp ∧ (ns.foldl onAutoip s).autoip = s.autoip := by
  induction ns generalizing s with
  | nil => exact ⟨rfl, rfl⟩
  | cons n ns ih =>
    have hn : (onAutoip s n).dhcp = s.dhcp ∧ (onAutoip s n).autoip = s.autoip := by
      cases n with
      | configured a => exact autoipConfigured_same a
      | _ => exact ⟨rfl, rfl⟩
    obtain ⟨hd, ha⟩ := ih (s := onAutoip s n)
    exact ⟨hd.trans hn.1, ha.trans hn.2⟩

theorem ran_autoip {e : Autoip.Event} {q : Autoip.AutoipState × List Autoip.Note}
    (hs : Autoip.step b.ethaddr e s.autoip = some q) : Ran b s (onAutoipResult s q) := by
  obtain ⟨hd, ha⟩ := foldl_onAutoip (s := { s with autoip := q.1 }) q.2
  refine ⟨⟨[], ?_⟩, fun z as h => ?_⟩
  · rw [onAutoipResult, dhcpNotes_autoip, hd]
    rfl
  · rw [onAutoipResult, autoipNotes_autoip, ha]
    exact .concat h hs

theorem ran_step {e : Event} (hs : step b s e = some r) : Ran b s r := by
  cases e with
  | linkup =>
    obtain rfl := Option.some.inj hs
    exact ran_linkup
  | linkdown =>
    obtain rfl := Option.some.inj hs
    exact ran_linkdown
  | dhcp i =>
    obtain rfl := Option.some.inj hs
    exact ran_dhcp
  | periodic now set =>
    rw [step, autoipPeriodic] at hs
    split_ifs at hs
    · obtain ⟨q, hq, rfl⟩ := Option.map_eq_some_iff.mp hs
      exact ran_autoip (e := .periodic now set) hq
    · obtain rfl := Option.some.inj hs
      exact .stay rfl rfl rfl rfl
  | arpIn a =>
    rw [step, autoipArpIn] at hs
    split_ifs at hs
    · obtain ⟨q, hq, rfl⟩ := Option.map_eq_some_iff.mp hs
      exact ran_autoip (e := .arpIn a) hq
    · obtain rfl := Option.some.inj hs
      exact .stay rfl rfl rfl rfl
  | check =>
    obtain rfl := Option.some.inj hs
    exact .stay rfl rfl (checked_notes s).1 (checked_notes s).2

end Components

section Provenance

variable {b : Build} {clients : Nat} {ipconfig : Option Ipconfig} {z s : NetState}
  {notes pre post : List Note}

theorem ran_run (h : Run b (uipServerInit b clients ipconfig z) s notes) :
    Ran b (uipServerInit b clients ipconfig z) (s, notes) := by
  induction h with
  | nil => exact .stay rfl rfl rfl rfl
  | concat _ hs ih => exact ih.trans (ran_step hs)

theorem init_dhcp : (uipServerInit b clients ipconfig z).dhcp =
    Dhcpc.dhcpcInit b.ethaddr z.dhcp := by
  cases ipconfig <;> rfl

theorem granted_of_run (h : Run b (uipServerInit b clients ipconfig z) s notes) {l : Dhcpc.Lease}
    (heq : notes = pre ++ .dhcp (.configured l) :: post) :
    Dhcpc.Granted b.ethaddr z.dhcp.toLease (dhcpNotes pre) l := by
  obtain ⟨es, hes⟩ := (ran_run h).dhcp
  obtain ⟨ms, hms, hpath⟩ :=
    (Dhcpc.leads_run b.useAutoip b.ethaddr z.dhcp es).path
  rw [init_dhcp] at hes
  have hsplit : ms.map Prod.fst = dhcpNotes pre ++ .configured l :: dhcpNotes post := by
    rw [hms, hes, heq, dhcpNotes_append]
    rfl
  exact Dhcpc.path_granted hpath hsplit

theorem claimed_of_run (h : Run b (uipServerInit b clients ipconfig z) s notes) {a : Ipaddr}
    (heq : notes = pre ++ .autoip (.configured a) :: post) :
    Autoip.Claimed b.ethaddr a (autoipNotes pre) := by
  have hrun := (ran_run h).autoip _ _ .nil
  refine (Autoip.inv_run hrun).claimed _ (.configured a) (autoipNotes post) ?_ a rfl
  rw [List.nil_append, heq, autoipNotes_append]
  rfl

def Undisturbed (notes : List Note) : Prop := .linkup ∉ notes ∧ .linkdown ∉ notes

def Unleased (notes : List Note) : Prop := ∀ l, .dhcp (.configured l) ∉ notes

variable {static : Option Ipconfig} {q q' : Source} {n : Note}

theorem Assign.undisturbed {c : Ipconfig} (h : Assign static q n q')
    (hstatic : ∀ c, q' ≠ .static c) (hconfig : q'.config = some c) :
    n ≠ .linkup ∧ n ≠ .linkdown := by
  refine ⟨?_, ?_⟩
  · rintro rfl
    cases h with
    | linkup hq' =>
      cases static with
      | some c => exact hstatic c hq'
      | none => exact Option.some_ne_none c (hconfig.symm.trans (congrArg Source.config hq'))
    | other hn => exact hn trivial
  · rintro rfl
    cases h with
    | linkdown => exact Option.some_ne_none _ hconfig.symm
    | other hn => exact hn trivial

theorem Assign.unleased {a : Ipaddr} {l : Dhcpc.Lease} (h : Assign static q n (.linkLocal a)) :
    n ≠ .dhcp (.configured l) := by
  rintro rfl
  cases h with
  | other hn => exact hn trivial

theorem Assign.enters_leased {l : Dhcpc.Lease} (h : Assign static q n (.leased l))
    (hq : q ≠ .leased l) : n = .dhcp (.configured l) := by
  cases h with
  | leased => rfl
  | linkup hq' => cases static <;> exact Source.noConfusion hq'
  | _ => exact absurd rfl hq

theorem Assign.enters_linkLocal {a : Ipaddr} (h : Assign static q n (.linkLocal a))
    (hq : q ≠ .linkLocal a) : n = .autoip (.configured a) := by
  cases h with
  | claimed => rfl
  | linkup hq' => cases static <;> exact Source.noConfusion hq'
  | _ => exact absurd rfl hq

theorem undisturbed_of_labels {ms : List (Note × Source)}
    (h : ∀ m ∈ ms, m.1 ≠ .linkup ∧ m.1 ≠ .linkdown) : Undisturbed (ms.map Prod.fst) := by
  refine ⟨fun hm => ?_, fun hm => ?_⟩
  · obtain ⟨m, hm, heq⟩ := List.mem_map.mp hm
    exact (h m hm).1 heq
  · obtain ⟨m, hm, heq⟩ := List.mem_map.mp hm
    exact (h m hm).2 heq

theorem path_leased {l : Dhcpc.Lease} {ms : List (Note × Source)}
    (h : Path (Assign static) .down ms (.leased l)) :
    ∃ pre post, ms.map Prod.fst = pre ++ .dhcp (.configured l) :: post ∧ Undisturbed post := by
  obtain ⟨pre, n, c, post, q, rfl, -, hq, hs, rfl, hpost, hall⟩ :=
    h.entered (Q := fun q => q = .leased l) (fun hdown => Source.noConfusion hdown) rfl
  obtain rfl := hs.enters_leased hq
  refine ⟨pre.map Prod.fst, post.map Prod.fst, List.map_append, undisturbed_of_labels ?_⟩
  refine hpost.forall_labels (Q := fun q => q = .leased l)
    (R := fun n => n ≠ .linkup ∧ n ≠ .linkdown) (fun hs hq => ?_) hall
  exact hs.undisturbed (fun c hc => Source.noConfusion (hq.symm.trans hc)) (by rw [hq]; rfl)

theorem path_linkLocal {a : Ipaddr} {ms : List (Note × Source)}
    (h : Path (Assign static) .down ms (.linkLocal a)) :
    ∃ pre post, ms.map Prod.fst = pre ++ .autoip (.configured a) :: post ∧ Undisturbed post ∧
      Unleased post := by
  obtain ⟨pre, n, c, post, q, rfl, -, hq, hs, rfl, hpost, hall⟩ :=
    h.entered (Q := fun q => q = .linkLocal a) (fun hdown => Source.noConfusion hdown) rfl
  obtain rfl := hs.enters_linkLocal hq
  refine ⟨pre.map Prod.fst, post.map Prod.fst, List.map_append, undisturbed_of_labels ?_, ?_⟩
  · refine hpost.forall_labels (Q := fun q => q = .linkLocal a)
      (R := fun n => n ≠ .linkup ∧ n ≠ .linkdown) (fun hs hq => ?_) hall
    exact hs.undisturbed (fun c hc => Source.noConfusion (hq.symm.trans hc)) (by rw [hq]; rfl)
  · intro l hm
    obtain ⟨m, hm, heq⟩ := List.mem_map.mp hm
    refine hpost.forall_labels (Q := fun q => q = .linkLocal a)
      (R := fun n => n ≠ .dhcp (.configured l)) (fun hs hq => ?_) hall m hm heq
    subst hq
    exact hs.unleased

theorem Assign.enters_static {c : Ipconfig} (h : Assign static q n (.static c))
    (hq : q ≠ .static c) : static = some c := by
  cases h with
  | linkup hq' =>
    cases static with
    | some c' => exact congrArg some (Source.static.inj hq').symm
    | none => exact Source.noConfusion hq'
  | _ => exact absurd rfl hq

-- Where the addresses of an interface that is up come from.
inductive Addressed (b : Build) (ipconfig : Option Ipconfig) (l0 : Dhcpc.Lease)
    (notes : List Note) : Ipconfig → Prop where
  | static {c : Ipconfig} (hc : asked ipconfig = some c) : Addressed b ipconfig l0 notes c
  | leased {pre post : List Note} {l : Dhcpc.Lease}
      (hnotes : notes = pre ++ .dhcp (.configured l) :: post)
      (hgranted : Dhcpc.Granted b.ethaddr l0 (dhcpNotes pre) l) (hpost : Undisturbed post) :
      Addressed b ipconfig l0 notes ⟨l.ipaddr, l.netmask, l.defaultRouter⟩
  | claimed {pre post : List Note} {a : Ipaddr}
      (hnotes : notes = pre ++ .autoip (.configured a) :: post)
      (hclaimed : Autoip.Claimed b.ethaddr a (autoipNotes pre)) (hpost : Undisturbed post)
      (hfree : Unleased post) :
      Addressed b ipconfig l0 notes ⟨a, ⟨255, 255, 0, 0⟩, ⟨0, 0, 0, 0⟩⟩

theorem addressing (h : Run b (uipServerInit b clients ipconfig z) s notes)
    (hup : s.ifstate = true) : Addressed b ipconfig z.dhcp.toLease notes s.ipconfig := by
  obtain ⟨ms, q, hms, hpath, hrep⟩ := rep_run h
  obtain rfl := hms
  have hq := hrep.up.symm.trans hup
  cases q with
  | down => exact Bool.noConfusion hq
  | pending => exact Bool.noConfusion hq
  | static c =>
    rw [hrep.config c rfl]
    obtain ⟨pre, n, c', post, q, -, -, hq, hs, rfl, -⟩ :=
      hpath.entered (Q := fun q => q = .static c) (fun hdown => Source.noConfusion hdown) rfl
    exact .static (hs.enters_static hq)
  | leased l =>
    rw [hrep.config _ rfl]
    obtain ⟨pre, post, heq, hpost⟩ := path_leased hpath
    exact .leased heq (granted_of_run h heq) hpost
  | linkLocal a =>
    rw [hrep.config _ rfl]
    obtain ⟨pre, post, heq, hpost, hfree⟩ := path_linkLocal hpath
    exact .claimed heq (claimed_of_run h heq) hpost hfree

-- The interface is up exactly while there is a source of its addresses.
theorem sourcing (h : Run b (uipServerInit b clients ipconfig z) s notes) :
    ∃ ms q, ms.map Prod.fst = notes ∧ Path (Assign (asked ipconfig)) .down ms q ∧
      s.ifstate = q.up ∧ s.dhcpDone = q.isLeased ∧ ∀ c, q.config = some c → s.ipconfig = c := by
  obtain ⟨ms, q, hms, hpath, hrep⟩ := rep_run h
  exact ⟨ms, q, hms, hpath, hrep.up, hrep.leased, hrep.config⟩

end Provenance

section Examples

def perform (b : Build) (r : Result) (e : Event) : Option Result :=
  (step b r.1 e).map fun r' => (r'.1, r.2 ++ r'.2)

theorem run_perform {b : Build} {s : NetState} {r r' : Result} (hr : Run b s r.1 r.2)
    {events : List Event} (h : events.foldlM (perform b) r = some r') : Run b s r'.1 r'.2 := by
  induction events generalizing r with
  | nil =>
    obtain rfl := Option.some.inj h
    exact hr
  | cons e es ih =>
    obtain ⟨r1, h1, h⟩ := Option.bind_eq_some_iff.mp h
    obtain ⟨⟨s1, new⟩, hs, rfl⟩ := Option.map_eq_some_iff.mp h1
    exact ih (.concat hr hs) h

def linkLocalBuild : Build := ⟨false, true, Autoip.ownEthaddr⟩

def zeroState : NetState :=
  { staticIpconfig := none, hostaddr := Dhcpc.zeroIpaddr, draddr := Dhcpc.zeroIpaddr,
    netmask := Dhcpc.zeroIpaddr, dhcpDone := false, ifstate := false, prevIfstate := [],
    dhcp := Dhcpc.discoveringState, autoip := Autoip.zeroState }

-- The link comes up, and the clock goes on by three seconds at each call.
def quietLink : List Event :=
  .linkup :: (List.range 8).flatMap fun k =>
    let t := BitVec.ofNat 32 (3000 * k)
    [.periodic t t, .check]

theorem quietLink_up :
    ((quietLink.foldlM (perform linkLocalBuild)
      (uipServerInit linkLocalBuild 2 none zeroState, [])).map fun r => r.1.ifstate) =
        some true := by
  decide +kernel

theorem addressing_quiet : ∃ notes c,
    Addressed linkLocalBuild none zeroState.dhcp.toLease notes c := by
  obtain ⟨r, hr, hup⟩ := Option.map_eq_some_iff.mp quietLink_up
  exact ⟨_, _, addressing (run_perform .nil hr) hup⟩

theorem sourcing_quiet : ∃ ms q, Path (Assign (asked none)) .down ms q ∧ q.up = true := by
  obtain ⟨r, hr, hup⟩ := Option.map_eq_some_iff.mp quietLink_up
  obtain ⟨ms, q, -, hpath, hq, -⟩ := sourcing (run_perform .nil hr)
  exact ⟨ms, q, hpath, hq ▸ hup⟩

end Examples

end Xtcp.Network
