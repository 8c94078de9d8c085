import Xtcp.Autoip.Claiming
import Xtcp.Library.Path
import Xtcp.Network.State

namespace Xtcp.Network

open Channel Timer Labelled

-- Where the host's addresses come from.
inductive Source where
  | down
  | pending
  | static (c : Ipconfig)
  | leased (l : Dhcpc.Lease)
  | linkLocal (a : Ipaddr)

namespace Source

def up : Source → Bool
  | .down => false
  | .pending => false
  | _ => true

def isLeased : Source → Bool
  | .leased _ => true
  | _ => false

-- Neither the DHCP client nor the address claim is at work.
def quiet : Source → Bool
  | .down => true
  | .static _ => true
  | _ => false

def config : Source → Option Ipconfig
  | .down => none
  | .pending => none
  | .static c => some c
  | .leased l => some ⟨l.ipaddr, l.netmask, l.defaultRouter⟩
  | .linkLocal a => some ⟨a, ⟨255, 255, 0, 0⟩, ⟨0, 0, 0, 0⟩⟩

def linkup : Option Ipconfig → Source
  | some c => .static c
  | none => .pending

end Source

def Note.Moves : Note → Prop
  | .linkup => True
  | .linkdown => True
  | .dhcp (.configured _) => True
  | .autoip (.configured _) => True
  | .checked _ => True
  | .told _ _ => True
  | _ => False

-- How the source may change: a lease replaces a claimed address and never the other way round.
inductive Assign (static : Option Ipconfig) : Source → Note → Source → Prop where
  | linkup {q q' : Source} (hq' : q' = .linkup static) : Assign static q .linkup q'
  | linkdown {q : Source} : Assign static q .linkdown .down
  | leased {q : Source} {l : Dhcpc.Lease} (hq : q.quiet = false) :
      Assign static q (.dhcp (.configured l)) (.leased l)
  | claimed {a : Ipaddr} : Assign static .pending (.autoip (.configured a)) (.linkLocal a)
  | refused {l : Dhcpc.Lease} {a : Ipaddr} :
      Assign static (.leased l) (.autoip (.configured a)) (.leased l)
  | checked {q : Source} : Assign static q (.checked q.up) q
  | told {q : Source} (linknum : Nat) : Assign static q (.told linknum q.up) q
  | other {q : Source} {n : Note} (hn : ¬ n.Moves) : Assign static q n q

def NetState.ipconfig (s : NetState) : Ipconfig := ⟨s.hostaddr, s.netmask, s.draddr⟩

def DhcpOff (s : Dhcpc.DhcpcState) : Prop := s.pt = .init ∧ s.state = .disabled

structure Rep (b : Build) (static : Option Ipconfig) (s : NetState) (q : Source) : Prop where
  given : s.staticIpconfig = static
  up : s.ifstate = q.up
  leased : s.dhcpDone = q.isLeased
  config : ∀ c, q.config = some c → s.ipconfig = c
  static : static.isSome = true → q.quiet = true
  dhcpOff : q.quiet = true → b.useDhcp = true → DhcpOff s.dhcp
  autoipOff : q.quiet = true → b.useAutoip = true → s.autoip.state = .disabled
  claimed : ∀ a, q = .linkLocal a → b.useAutoip = true → s.autoip.state = .configured

-- What a step leads to, as moves of the source.
def Moved (b : Build) (static : Option Ipconfig) (q : Source) (r : Result) : Prop :=
  ∃ ms q', ms.map Prod.fst = r.2 ∧ Path (Assign static) q ms q' ∧ Rep b static r.1 q'

section Autoip

variable {ethaddr : MacAddr} {now set : Word} {a : Ipaddr} {s s' : Autoip.AutoipState}
  {new : List Autoip.Note}

def Silent (new : List Autoip.Note) : Prop := ∀ a, .configured a ∉ new

-- The address is configured at the end of the call that makes the second announcement.
inductive Claims (s s' : Autoip.AutoipState) (new : List Autoip.Note) : Prop where
  | silent (hnew : Silent new) (hoff : s.state = .disabled → s'.state = .disabled)
      (hdone : s.state = .configured → s'.state = .configured) : Claims s s' new
  | configured {pre : List Autoip.Note} {a : Ipaddr} (hstate : s.state = .announcing)
      (hnew : new = pre ++ [.configured a]) (hpre : Silent pre)
      (hdone : s'.state = .configured) : Claims s s' new

theorem claims_of_state (hnew : Silent new) (hoff : s.state ≠ .disabled)
    (hdone : s.state ≠ .configured) : Claims s s' new :=
  .silent hnew (fun h => absurd h hoff) fun h => absurd h hdone

theorem claims_same (h : some (s, ([] : List Autoip.Note)) = some (s', new)) :
    Claims s s' new := by
  obtain ⟨rfl, rfl⟩ := Prod.mk.inj (Option.some.inj h)
  exact .silent (fun _ => List.not_mem_nil) id id

theorem claims_arpIn (h : Autoip.autoipArpIn a s = some (s', new)) : Claims s s' new := by
  unfold Autoip.autoipArpIn at h
  split at h
  · obtain ⟨n, -, heq⟩ := Option.map_eq_some_iff.mp h
    obtain ⟨rfl, rfl⟩ := Prod.mk.inj heq
    exact .silent (by simp [Silent]) id id
  · obtain ⟨rfl, rfl⟩ := Prod.mk.inj (Option.some.inj h)
    exact .silent (by simp [Silent]) id id

theorem claims_periodic (h : Autoip.autoipPeriodic ethaddr now set s = some (s', new)) :
    Claims s s' new := by
  unfold Autoip.autoipPeriodic at h
  cases hst : s.state with
  | disabled =>
    rw [hst] at h
    exact claims_same h
  | configured =>
    rw [hst] at h
    exact claims_same h
  | noAddress =>
    rw [hst] at h
    simp only at h
    split at h
    · obtain ⟨-, -, -, rfl⟩ := Autoip.chooseAddress_spec (Option.some.inj h)
      exact claims_of_state (by simp [Silent]) (by simp [hst]) (by simp [hst])
    · exact claims_same h
  | waitForProbe =>
    rw [hst] at h
    simp only at h
    split at h
    · obtain ⟨-, -, -, -, -, rfl⟩ := Autoip.sendProbe_spec h
      exact claims_of_state (by simp [Silent]) (by simp [hst]) (by simp [hst])
    · exact claims_same h
  | probing =>
    rw [hst] at h
    simp only at h
    split at h
    · split at h
      · obtain ⟨-, rfl⟩ := Prod.mk.inj (Option.some.inj h)
        exact claims_of_state (by simp [Silent]) (by simp [hst]) (by simp [hst])
      · obtain ⟨-, -, -, -, -, rfl⟩ := Autoip.sendProbe_spec h
        exact claims_of_state (by simp [Silent]) (by simp [hst]) (by simp [hst])
    · exact claims_same h
  | waitForAnnounce =>
    rw [hst] at h
    simp only at h
    split at h
    · split at h
      · obtain ⟨-, -, -, rfl⟩ := Autoip.sendAnnounce_spec h
        exact claims_of_state (by simp [Silent]) (by simp [hst]) (by simp [hst])
      · obtain ⟨-, rfl⟩ := Prod.mk.inj (Option.some.inj h)
        exact claims_of_state (by simp [Silent]) (by simp [hst]) (by simp [hst])
    · exact claims_same h
  | announcing =>
    rw [hst] at h
    obtain ⟨r, hr, h⟩ := Option.bind_eq_some_iff.mp h
    obtain ⟨-, -, -, hnew⟩ := Autoip.sendAnnounce_spec hr
    split at h
    · obtain ⟨rfl, rfl⟩ := Prod.mk.inj (Option.some.inj h)
      exact .configured hst rfl (by simp [Silent, hnew]) rfl
    · obtain ⟨-, rfl⟩ := Prod.mk.inj (Option.some.inj h)
      exact claims_of_state (by simp [Silent, hnew]) (by simp [hst]) (by simp [hst])

theorem foldl_onAutoip_silent {s : NetState} (h : Silent new) : new.foldl onAutoip s = s := by
  induction new with
  | nil => rfl
  | cons n ns ih =>
    have hn : onAutoip s n = s := by
      cases n with
      | configured a => exact absurd List.mem_cons_self (h a)
      | _ => rfl
    rw [List.foldl_cons, hn]
    exact ih fun a ha => h a (List.mem_cons_of_mem _ ha)

end Autoip

section Moves

variable {b : Build} {s : NetState} {q : Source} {static : Option Ipconfig}

@[simp] theorem map_fst_stay (q : Source) (ns : List Note) :
    (ns.map fun n => (n, q)).map Prod.fst = ns := by
  rw [List.map_map]
  exact List.map_id ns

theorem path_stay (q : Source) {ns : List Note} (h : ∀ n ∈ ns, ¬ n.Moves) :
    Path (Assign static) q (ns.map fun n => (n, q)) q := by
  induction ns with
  | nil => exact .nil
  | cons n ns ih =>
    exact .cons (.other (h n List.mem_cons_self)) (ih fun n hn => h n (List.mem_cons_of_mem _ hn))

theorem Moved.stay {ns : List Note} (h : Rep b static s q) (hns : ∀ n ∈ ns, ¬ n.Moves) :
    Moved b static q (s, ns) :=
  ⟨ns.map fun n => (n, q), q, map_fst_stay q ns, path_stay q hns, h⟩

theorem silent_moves {new : List Autoip.Note} (h : Silent new) :
    ∀ n ∈ new.map Note.autoip, ¬ n.Moves := by
  intro n hn
  obtain ⟨m, hm, rfl⟩ := List.mem_map.mp hn
  cases m with
  | configured a => exact absurd hm (h a)
  | _ => exact id

theorem Rep.withAutoip {s' : Autoip.AutoipState} (h : Rep b static s q)
    (hoff : s.autoip.state = .disabled → s'.state = .disabled)
    (hdone : s.autoip.state = .configured → s'.state = .configured) :
    Rep b static { s with autoip := s' } q :=
  { h with
    autoipOff := fun hq hu => hoff (h.autoipOff hq hu)
    claimed := fun a hq hu => hdone (h.claimed a hq hu) }

theorem rep_autoip {s' : Autoip.AutoipState} {new : List Autoip.Note} (h : Rep b static s q)
    (hu : b.useAutoip = true) (hc : Claims s.autoip s' new) :
    Moved b static q (onAutoipResult s (s', new)) := by
  cases hc with
  | silent hnew hoff hdone =>
    rw [onAutoipResult, foldl_onAutoip_silent hnew]
    exact .stay (h.withAutoip hoff hdone) (silent_moves hnew)
  | @configured pre a hstate hnew hpre hdone =>
    have hfold : (pre ++ [Autoip.Note.configured a]).foldl onAutoip { s with autoip := s' } =
        autoipConfigured a { s with autoip := s' } := by
      rw [List.foldl_concat, foldl_onAutoip_silent hpre]
      rfl
    subst hnew
    rw [onAutoipResult, hfold, List.map_append]
    have hquiet : q.quiet = false := by
      cases hq : q.quiet with
      | true => exact absurd (h.autoipOff hq hu) (by rw [hstate]; decide)
      | false => rfl
    have hmoves {q' : Source} (hmove : Assign static q (.autoip (.configured a)) q') :
        Path (Assign static) q
          ((pre.map Note.autoip).map (fun n => (n, q)) ++ [(.autoip (.configured a), q')]) q' :=
      (path_stay q (silent_moves hpre)).append (.single hmove)
    cases q with
    | down => cases hquiet
    | static c => cases hquiet
    | linkLocal a' => exact absurd (h.claimed a' rfl hu) (by rw [hstate]; decide)
    | pending =>
      have hfree : s.dhcpDone = false := h.leased
      rw [autoipConfigured, if_neg (by simp [hfree])]
      refine ⟨_, .linkLocal a, by simp, hmoves .claimed, ?_⟩
      exact
        { given := h.given
          up := rfl
          leased := hfree
          config := fun c hc => Option.some.inj hc
          static := h.static
          dhcpOff := fun hq => absurd hq Bool.false_ne_true
          autoipOff := fun hq => absurd hq Bool.false_ne_true
          claimed := fun _ _ _ => hdone }
    | leased l =>
      have hdhcp : s.dhcpDone = true := h.leased
      rw [autoipConfigured, if_pos hdhcp]
      refine ⟨_, .leased l, by simp, hmoves .refused, ?_⟩
      exact h.withAutoip (fun hd => absurd hd (by rw [hstate]; decide)) fun _ => hdone

theorem rep_onDhcp {n : Dhcpc.Note} (h : Rep b static s q) (hq : q.quiet = false) :
    ∃ q', q'.quiet = false ∧ Assign static q (.dhcp n) q' ∧ Rep b static (onDhcp b s n) q' := by
  cases n with
  | configured l =>
    refine ⟨.leased l, rfl, .leased hq, ?_⟩
    rw [onDhcp, dhcpcConfigured]
    have hstatic : static.isSome = true → Source.quiet (.leased l) = true :=
      fun hs => absurd (h.static hs) (by rw [hq]; decide)
    have hquiet (P : Prop) (hq : Source.quiet (.leased l) = true) : P :=
      absurd hq Bool.false_ne_true
    split_ifs
    · exact ⟨h.given, rfl, rfl, fun c hc => Option.some.inj hc, hstatic, hquiet _, hquiet _,
        fun _ ha => Source.noConfusion ha⟩
    · exact ⟨h.given, rfl, rfl, fun c hc => Option.some.inj hc, hstatic, hquiet _, hquiet _,
        fun _ ha => Source.noConfusion ha⟩
  | autoipStart =>
    refine ⟨q, hq, .other id, ?_⟩
    refine { h with autoipOff := fun hq' => ?_, claimed := fun a ha hu => ?_ }
    · exact absurd hq' (by rw [hq]; decide)
    · have hdone := h.claimed a ha hu
      rw [onDhcp, Autoip.autoipStart, if_neg (by rw [hdone]; decide)]
      exact hdone
  | _ => exact ⟨q, hq, .other id, h⟩

theorem rep_foldl {ns : List Dhcpc.Note} (h : Rep b static s q) (hq : q.quiet = false) :
    Moved b static q (ns.foldl (onDhcp b) s, ns.map .dhcp) := by
  induction ns generalizing s q with
  | nil => exact ⟨[], q, rfl, .nil, h⟩
  | cons n ns ih =>
    obtain ⟨q', hq', hmove, hrep⟩ := rep_onDhcp (n := n) h hq
    obtain ⟨ms, q'', hms, hpath, hrep'⟩ := ih hrep hq'
    refine ⟨(.dhcp n, q') :: ms, q'', ?_, .cons hmove hpath, hrep'⟩
    rw [List.map_cons, hms]
    rfl

theorem handleDhcp_off {useAutoip : Bool} {i : Dhcpc.Input} {s : Dhcpc.DhcpcState}
    (h : DhcpOff s) : Dhcpc.handleDhcp useAutoip i s = (s, []) := by
  rw [Dhcpc.handleDhcp, h.1]
  exact if_pos h.2

theorem rep_dhcp {i : Dhcpc.Input} (h : Rep b static s q) :
    Moved b static q (dhcpcAppcall b i s) := by
  rw [dhcpcAppcall]
  split_ifs with hu
  · cases hq : q.quiet with
    | true =>
      rw [handleDhcp_off (h.dhcpOff hq hu)]
      exact .stay h fun _ hn => absurd hn List.not_mem_nil
    | false =>
      have hrep (d : Dhcpc.DhcpcState) : Rep b static { s with dhcp := d } q :=
        { h with dhcpOff := fun hq' => absurd hq' (by rw [hq]; decide) }
      exact rep_foldl (hrep _) hq
  · exact .stay h fun _ hn => absurd hn List.not_mem_nil

theorem Moved.cons {r : Result} {n : Note} {q' : Source} (hn : Assign static q n q')
    (h : Moved b static q' r) : Moved b static q (r.1, n :: r.2) := by
  obtain ⟨ms, q'', hms, hpath, hrep⟩ := h
  exact ⟨(n, q') :: ms, q'', congrArg (n :: ·) hms, .cons hn hpath, hrep⟩

theorem dhcpcStop_spec (s : NetState) : ∃ d ns, dhcpcStop b s = ({ s with dhcp := d }, ns) ∧
    (b.useDhcp = true → DhcpOff d) ∧ ∀ n ∈ ns, ¬ n.Moves := by
  rw [dhcpcStop]
  split_ifs with hu
  · refine ⟨_, _, rfl, fun _ => ⟨rfl, rfl⟩, fun n hn => ?_⟩
    rw [List.mem_singleton.mp hn]
    exact id
  · exact ⟨s.dhcp, [], rfl, fun h => absurd h hu, fun _ hn => absurd hn List.not_mem_nil⟩

theorem dhcpcStart_spec (s : NetState) : ∃ d ns, dhcpcStart b s = ({ s with dhcp := d }, ns) ∧
    ∀ n ∈ ns, ¬ n.Moves := by
  rw [dhcpcStart]
  split_ifs
  · refine ⟨_, _, rfl, fun n hn => ?_⟩
    rw [List.mem_singleton.mp hn]
    exact id
  · exact ⟨s.dhcp, [], rfl, fun _ hn => absurd hn List.not_mem_nil⟩

theorem autoipStop_spec (s : NetState) : ∃ a, autoipStop b s = { s with autoip := a } ∧
    (b.useAutoip = true → a.state = .disabled) := by
  rw [autoipStop]
  split_ifs with hu
  · exact ⟨_, rfl, fun _ => rfl⟩
  · exact ⟨s.autoip, rfl, fun h => absurd h hu⟩

theorem autoipLinkup_spec (s : NetState) : ∃ a, autoipLinkup b s = { s with autoip := a } := by
  rw [autoipLinkup]
  split_ifs
  · exact ⟨_, rfl⟩
  · obtain ⟨a, h, -⟩ := autoipStop_spec (b := b) s
    exact ⟨a, h⟩

theorem rep_linkdown (h : Rep b static s q) : Moved b static q (uipLinkdown b s) := by
  obtain ⟨d, ns, hstop, hoff, hns⟩ := dhcpcStop_spec (b := b) { s with dhcpDone := false }
  obtain ⟨a, hautoip, haoff⟩ := autoipStop_spec (b := b) { s with dhcpDone := false, dhcp := d }
  rw [uipLinkdown, hstop]
  dsimp only
  rw [hautoip]
  refine .cons .linkdown (.stay (q := .down) ?_ hns)
  exact
    { given := h.given
      up := rfl
      leased := rfl
      config := fun _ hc => absurd hc.symm (Option.some_ne_none _)
      static := fun _ => rfl
      dhcpOff := fun _ => hoff
      autoipOff := fun _ => haoff
      claimed := fun _ ha => Source.noConfusion ha }

theorem rep_linkup (h : Rep b static s q) : Moved b static q (uipLinkup b s) := by
  have hdown : ∃ up, (if s.ifstate then uipXtcpDown s else s) = { s with ifstate := up } ∧
      up = false := by
    split_ifs with hup
    · exact ⟨false, rfl, rfl⟩
    · exact ⟨s.ifstate, rfl, eq_false_of_ne_true hup⟩
  obtain ⟨up, hs, hup⟩ := hdown
  rw [uipLinkup, hs]
  dsimp only
  cases hstatic : static with
  | some c =>
    have hquiet : q.quiet = true := h.static (by rw [hstatic]; rfl)
    have hnot : s.dhcpDone = false := by
      rw [h.leased]
      cases q with
      | leased l => exact Bool.noConfusion hquiet
      | _ => rfl
    rw [h.given, hstatic]
    refine ⟨[(.linkup, .static c)], .static c, rfl, .single (.linkup rfl), ?_⟩
    exact
      { given := rfl
        up := rfl
        leased := hnot
        config := fun _ hc => Option.some.inj hc
        static := fun _ => rfl
        dhcpOff := fun _ => h.dhcpOff hquiet
        autoipOff := fun _ => h.autoipOff hquiet
        claimed := fun _ ha => Source.noConfusion ha }
  | none =>
    rw [h.given, hstatic]
    dsimp only
    obtain ⟨d, ns, hstop, -, hns⟩ :=
      dhcpcStop_spec (b := b)
        { s with staticIpconfig := none, ifstate := up, dhcpDone := false }
    obtain ⟨a, hautoip⟩ :=
      autoipLinkup_spec (b := b)
        { s with staticIpconfig := none, ifstate := up, dhcpDone := false, dhcp := d }
    obtain ⟨d', ns', hstart, hns'⟩ :=
      dhcpcStart_spec (b := b)
        { s with
          staticIpconfig := none
          ifstate := up
          dhcpDone := false
          dhcp := d
          autoip := a }
    rw [hstop]
    dsimp only
    rw [hautoip, hstart]
    have hmove : Assign none q .linkup .pending := .linkup rfl
    refine .cons hmove (.stay ?_ ?_)
    · exact
        { given := rfl
          up := hup
          leased := rfl
          config := fun _ hc => absurd hc.symm (Option.some_ne_none _)
          static := fun hs => Bool.noConfusion hs
          dhcpOff := fun hq => Bool.noConfusion hq
          autoipOff := fun hq => Bool.noConfusion hq
          claimed := fun _ ha => Source.noConfusion ha }
    · exact fun n hn => (List.mem_append.mp hn).elim (hns n) (hns' n)

theorem rep_check (h : Rep b static s q) : Moved b static q (uipXtcpCheckstate s) := by
  have htold : ∀ ps : List (Option Bool × Nat),
      Path (Assign static) q ((ps.flatMap (tell q.up)).map fun n => (n, q)) q := by
    intro ps
    induction ps with
    | nil => exact .nil
    | cons p ps ih =>
      rw [List.flatMap_cons, List.map_append]
      refine .append ?_ ih
      rw [tell]
      split_ifs
      · exact .single (.told p.2)
      · exact .nil
  rw [uipXtcpCheckstate, h.up]
  have hrep : Rep b static (uipXtcpCheckstate s).1 q := { h with up := h.up }
  rw [uipXtcpCheckstate, h.up] at hrep
  have hmoved : Moved b static q (_, s.prevIfstate.zipIdx.flatMap (tell q.up)) :=
    ⟨_, q, map_fst_stay q _, htold _, hrep⟩
  exact .cons .checked hmoved

theorem rep_step {e : Event} {r : Result} (h : Rep b static s q) (hs : step b s e = some r) :
    Moved b static q r := by
  cases e with
  | linkup =>
    obtain rfl := Option.some.inj hs
    exact rep_linkup h
  | linkdown =>
    obtain rfl := Option.some.inj hs
    exact rep_linkdown h
  | dhcp i =>
    obtain rfl := Option.some.inj hs
    exact rep_dhcp h
  | periodic now set =>
    rw [step, autoipPeriodic] at hs
    split_ifs at hs with hu
    · obtain ⟨q', hq', rfl⟩ := Option.map_eq_some_iff.mp hs
      exact rep_autoip h hu (claims_periodic hq')
    · obtain rfl := Option.some.inj hs
      exact .stay h fun _ hn => absurd hn List.not_mem_nil
  | arpIn a =>
    rw [step, autoipArpIn] at hs
    split_ifs at hs with hu
    · obtain ⟨q', hq', rfl⟩ := Option.map_eq_some_iff.mp hs
      exact rep_autoip h hu (claims_arpIn hq')
    · obtain rfl := Option.some.inj hs
      exact .stay h fun _ hn => absurd hn List.not_mem_nil
  | check =>
    obtain rfl := Option.some.inj hs
    exact rep_check h

end Moves

section Runs

variable {b : Build} {clients : Nat} {ipconfig : Option Ipconfig} {z s : NetState}
  {notes : List Note}

-- The configuration that makes the addresses static: one whose address is not all zero.
def asked (ipconfig : Option Ipconfig) : Option Ipconfig :=
  ipconfig.filter fun c => c.ipaddr ≠ Dhcpc.zeroIpaddr

theorem rep_init :
    Rep b (asked ipconfig) (uipServerInit b clients ipconfig z) .down :=
  { given := rfl
    up := rfl
    leased := rfl
    config := fun _ hc => absurd hc.symm (Option.some_ne_none _)
    static := fun _ => rfl
    dhcpOff := fun _ _ => ⟨rfl, rfl⟩
    autoipOff := fun _ _ => rfl
    claimed := fun _ ha => Source.noConfusion ha }

theorem rep_run (h : Run b (uipServerInit b clients ipconfig z) s notes) :
    Moved b (asked ipconfig) .down (s, notes) := by
  induction h with
  | nil => exact ⟨[], .down, rfl, .nil, rep_init⟩
  | concat _ hs ih =>
    obtain ⟨ms, q, hms, hpath, hrep⟩ := ih
    obtain ⟨ms', q', hms', hpath', hrep'⟩ := rep_step hrep hs
    exact ⟨ms ++ ms', q', by rw [List.map_append, hms, hms'], hpath.append hpath', hrep'⟩

end Runs

end Xtcp.Network
