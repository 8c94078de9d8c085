import Xtcp.Uip.Ids

namespace Xtcp.Uip
open Channel Listen

variable {nT nU : Nat}

inductive Delivery where
  | event (kind : XtcpEvent)
  | send (kind : XtcpEvent) (mss : Nat)

def Delivery.kind : Delivery → XtcpEvent
  | .event kind => kind
  | .send kind _ => kind

def deliver (cfg : Config) (slot : Slot nT nU) (w : Stack nT nU) : Delivery → Stack nT nU
  | .event kind => xtcpdEvent cfg kind slot w
  | .send kind mss =>
      match (w.app slot).linknum with
      | none => w
      | some link => (doXtcpdSend cfg slot kind link mss w).2

def Entry.onReadyLink : Entry nT nU → Bool
  | .sent _ _ ready link _ _ _ _ => ready == link
  | _ => true

-- The record goes to the link made ready and is about the connection the slot held before.
def Faithful (slot : Slot nT nU) (event : XtcpEvent) (w w' : Stack nT nU) : Prop :=
  ∀ link, (w.app slot).linknum = some link → ∃ served conn request,
    w'.log = w.log ++ served ++ [.sent slot event (some link) (some link) conn (w.origin slot)
      (w.owner slot) request] ∧
    (∀ e ∈ served, e.opens slot = false) ∧ conn.id = (w.app slot).conn.id

def Allocates (cfg : Config) (slot : Slot nT nU) :
    Stack nT nU → List (Nat × Command) → Prop
  | _, [] => False
  | w, c :: cs => allocated w c.2 = some slot ∨ Allocates cfg slot (runCommand cfg w c) cs

def TakesSlot (cfg : Config) (slot : Slot nT nU) (w : Stack nT nU) (d : Delivery) : Prop :=
  ∃ link, (w.app slot).linknum = some link ∧
    Allocates cfg slot (w.wait slot d.kind (some link)) (w.env.waits.headD [])

namespace Life

variable {a b c : Life nT nU} {slot : Slot nT nU}

structure Served (slot : Slot nT nU) (a b : Life nT nU) : Prop where
  log : ∃ es, b.log = a.log ++ es ∧ ∀ e ∈ es, e.opens slot = false
  linknum : b.linknum slot = a.linknum slot
  id : b.id slot = a.id slot
  origin : b.origin slot = a.origin slot
  owner : b.owner slot = a.owner slot

theorem Served.refl : Served slot a a :=
  ⟨⟨[], by simp⟩, rfl, rfl, rfl, rfl⟩

theorem Served.trans (hab : Served slot a b) (hbc : Served slot b c) : Served slot a c := by
  obtain ⟨es, hes, hopens⟩ := hab.log
  obtain ⟨fs, hfs, hopens'⟩ := hbc.log
  refine ⟨⟨es ++ fs, by rw [hfs, hes, List.append_assoc], ?_⟩, hbc.linknum.trans hab.linknum,
    hbc.id.trans hab.id, hbc.origin.trans hab.origin, hbc.owner.trans hab.owner⟩
  intro e he
  rcases List.mem_append.mp he with he | he
  · exact hopens e he
  · exact hopens' e he

theorem served_adjust (h : Adjust a b) : Served slot a b := by
  cases h with
  | tables => exact ⟨⟨[], by simp⟩, rfl, rfl, rfl, rfl⟩
  | bind => exact ⟨⟨_, rfl, by simp [Entry.opens]⟩, rfl, rfl, rfl, rfl⟩
  | pause => exact ⟨⟨_, rfl, by simp [Entry.opens]⟩, rfl, rfl, rfl, rfl⟩

theorem served_adjusts (h : Adjusts a b) : Served slot a b := by
  induction h with
  | refl => exact .refl
  | tail _ h ih => exact ih.trans (served_adjust h)

theorem served_prepared (slot : Slot nT nU) {other : Slot nT nU} (h : Prepared a other b) :
    Served slot a b := by
  cases h with
  | tcp port => exact ⟨⟨[], by simp [setLport, setState]⟩, rfl, rfl, rfl, rfl⟩
  | udp port => exact ⟨⟨_, rfl, by simp [Entry.opens]⟩, rfl, rfl, rfl, rfl⟩

theorem served_connect {other : Slot nT nU} (link : Nat) (h : other ≠ slot) :
    Served slot a (a.connect other link) where
  log := ⟨_, rfl, by simp [Entry.opens, h]⟩
  linknum := Function.update_of_ne (Ne.symm h) _ _
  id := rfl
  origin := Function.update_of_ne (Ne.symm h) _ _
  owner := rfl

def Opened (slot : Slot nT nU) (a b : Life nT nU) : Prop :=
  ∃ es, b.log = a.log ++ es ∧ ∃ e ∈ es, e.opens slot = true

theorem Opened.of_log {es fs : List (Entry nT nU)} (hb : b.log = a.log ++ es)
    (hc : c.log = b.log ++ fs) (h : (∃ e ∈ es, e.opens slot = true) ∨ ∃ e ∈ fs, e.opens slot = true) :
    Opened slot a c := by
  refine ⟨es ++ fs, by rw [hc, hb, List.append_assoc], ?_⟩
  rcases h with ⟨e, he, ho⟩ | ⟨e, he, ho⟩
  · exact ⟨e, List.mem_append_left _ he, ho⟩
  · exact ⟨e, List.mem_append_right _ he, ho⟩

end Life

variable {cfg : Config} {slot : Slot nT nU} {p : Option (Fin nT)}

theorem served_runCommand (cfg : Config) (w : Stack nT nU) (c : Nat × Command)
    (h : allocated w c.2 ≠ some slot) :
    Life.Served slot (w.life p) ((runCommand cfg w c).life p) := by
  obtain ⟨linknum, c⟩ := c
  by_cases hc : ∃ portNumber addr protocol, c = .connect portNumber addr protocol
  · obtain ⟨portNumber, addr, protocol, rfl⟩ := hc
    rcases connect_cases w p cfg linknum portNumber addr protocol with
      ⟨_, hw⟩ | ⟨other, b, hother, hb, _, hw⟩
    · exact hw ▸ .refl
    · have hne : other ≠ slot := fun he => h (hother.trans (congrArg some he))
      exact hw ▸ (Life.served_prepared _ hb).trans (Life.served_connect linknum hne)
  · push Not at hc
    exact Life.served_adjusts (adjusts_runCommand w p cfg linknum c hc)

theorem opened_runCommand (cfg : Config) (w : Stack nT nU) (c : Nat × Command)
    (h : allocated w c.2 = some slot) :
    Life.Opened slot (w.life p) ((runCommand cfg w c).life p) := by
  obtain ⟨linknum, c⟩ := c
  cases c with
  | connect portNumber addr protocol =>
    rcases connect_cases w p cfg linknum portNumber addr protocol with
      ⟨hnone, _⟩ | ⟨other, b, hother, hb, _, hw⟩
    · rw [hnone] at h
      cases h
    · have hso : other = slot := Option.some.inj (hother.symm.trans h)
      obtain ⟨es, hes, _⟩ := (Life.served_prepared slot hb).log
      have hlog : ((runCommand cfg w (linknum, .connect portNumber addr protocol)).life p).log =
          b.log ++ [.opened other (.active linknum) (b.connectRequest other) b.raising] := by
        exact congrArg Life.log hw
      exact Life.Opened.of_log hes hlog (Or.inr ⟨_, List.mem_singleton_self _,
        by simp [Entry.opens, hso]⟩)
  | _ => cases h

theorem served_runCommands (w : Stack nT nU) (cs : List (Nat × Command))
    (h : ¬ Allocates cfg slot w cs) :
    Life.Served slot (w.life p) ((runCommands cfg w cs).life p) := by
  induction cs generalizing w with
  | nil => exact .refl
  | cons c cs ih =>
    rw [Allocates, not_or] at h
    exact (served_runCommand _ w c h.1).trans (ih (runCommand cfg w c) h.2)

theorem opened_runCommands (w : Stack nT nU) (cs : List (Nat × Command))
    (h : Allocates cfg slot w cs) :
    Life.Opened slot (w.life p) ((runCommands cfg w cs).life p) := by
  induction cs generalizing w with
  | nil => exact absurd h not_false
  | cons c cs ih =>
    obtain ⟨fs, hfs⟩ := Life.log_commands (commands_runCommands (runCommand cfg w c) p cfg cs)
    by_cases hc : allocated w c.2 = some slot
    · obtain ⟨es, hes, ho⟩ := opened_runCommand (p := p) cfg w c hc
      exact Life.Opened.of_log hes hfs (Or.inl ho)
    · obtain ⟨es, hes, _⟩ := (served_runCommand (p := p) cfg w c hc).log
      obtain ⟨gs, hgs, ho⟩ := ih (runCommand cfg w c) (h.resolve_left hc)
      exact Life.Opened.of_log hes hgs (Or.inr ho)

theorem deliver_log (cfg : Config) (w : Stack nT nU) (d : Delivery) {link : Nat}
    (hl : (w.app slot).linknum = some link) :
    ∃ sentOn conn request,
      let w' := untilReady cfg slot d.kind (some link) w
      (sentOn = some link ∨ sentOn = (w'.app slot).linknum) ∧
      conn.id = (w'.app slot).conn.id ∧
      (deliver cfg slot w d).log = w'.log ++ [.sent slot d.kind (some link) sentOn conn
        (w'.origin slot) (w'.owner slot) request] := by
  cases d with
  | event kind =>
    simp only [deliver, xtcpdEvent, hl, Delivery.kind]
    obtain ⟨conn, hid, _, hlife⟩ := life_sendEvent (p := none) slot cfg kind (some link)
      ((untilReady cfg slot kind (some link) w).app slot).linknum
      (untilReady cfg slot kind (some link) w)
    exact ⟨_, conn, _, Or.inr rfl, hid, congrArg Life.log hlife⟩
  | send kind mss =>
    simp only [deliver, doXtcpdSend, xtcpdSend, hl, Delivery.kind]
    have hmss := life_setConn_same (untilReady cfg slot kind (some link) w) none slot
      (fun c => { c with mss := mss }) rfl rfl
    obtain ⟨conn, hid, _, hlife⟩ := life_sendEvent (p := none) slot cfg kind (some link)
      (some link) ((untilReady cfg slot kind (some link) w).setConn slot
        fun c => { c with mss := mss })
    rw [hmss] at hid hlife
    exact ⟨_, conn, _, Or.inl rfl, hid, congrArg Life.log hlife⟩

theorem faithful_iff (cfg : Config) (w : Stack nT nU) (slot : Slot nT nU) (d : Delivery) :
    Faithful slot d.kind w (deliver cfg slot w d) ↔ ¬ TakesSlot cfg slot w d := by
  constructor
  · rintro h ⟨link, hl, hallocates⟩
    obtain ⟨served, conn, request, hlog, hserved, _⟩ := h link hl
    obtain ⟨sentOn, conn', request', _, _, hlog'⟩ := deliver_log cfg w d hl
    obtain ⟨es, hes, e, he, ho⟩ := opened_runCommands (p := none) _ _ hallocates
    have hwait : (untilReady cfg slot d.kind (some link) w).log = w.log ++ es := hes
    rw [hwait, hlog] at hlog'
    have htail := (List.append_inj' hlog' rfl).1
    have hsame : served = es := List.append_cancel_left htail
    subst hsame
    rw [hserved e he] at ho
    cases ho
  · intro h link hl
    have hnot : ¬ Allocates cfg slot (w.wait slot d.kind (some link)) (w.env.waits.headD []) :=
      fun ha => h ⟨link, hl, ha⟩
    have hs := served_runCommands (p := none) _ _ hnot
    obtain ⟨es, hes, hopens⟩ := hs.log
    obtain ⟨sentOn, conn, request, hsent, hid, hlog⟩ := deliver_log cfg w d hl
    have hlink : ((untilReady cfg slot d.kind (some link) w).app slot).linknum = some link :=
      hs.linknum.trans hl
    have hsent' : sentOn = some link := hsent.elim (fun h => h) fun h => h.trans hlink
    subst hsent'
    refine ⟨es, conn, request, ?_, hopens, hid.trans hs.id⟩
    have hwait : (untilReady cfg slot d.kind (some link) w).log = w.log ++ es := hes
    have horigin : (untilReady cfg slot d.kind (some link) w).origin slot = w.origin slot :=
      hs.origin
    have howner : (untilReady cfg slot d.kind (some link) w).owner slot = w.owner slot := hs.owner
    rw [hlog, hwait, horigin, howner]

namespace Life

variable {a b : Life nT nU}

def LinkInv (a : Life nT nU) : Prop := ∀ e ∈ a.log, e.onReadyLink = true ∨ a.Reopened

theorem LinkInv.extend (h : LinkInv a) {l : List (Entry nT nU)} (hlog : b.log = a.log ++ l)
    (hl : ∀ e ∈ l, e.onReadyLink = true ∨ b.Reopened) : LinkInv b := by
  intro e he
  rw [hlog] at he
  rcases List.mem_append.mp he with he | he
  · refine (h e he).imp_right (reopened_log fun f hf => ?_)
    rw [hlog]
    exact List.mem_append_left _ hf
  · exact hl e he

theorem LinkInv.same (h : LinkInv a) (hlog : b.log = a.log) : LinkInv b :=
  h.extend (l := []) (by rw [hlog, List.append_nil]) (by simp)

theorem LinkInv.note (h : LinkInv a) (e : Entry nT nU) (hlog : b.log = a.log ++ [e])
    (he : e.onReadyLink = true) : LinkInv b :=
  h.extend hlog (by simp [he])

theorem LinkInv.command (h : LinkInv a) (hc : Command a b) : LinkInv b := by
  cases hc with
  | adjust _ hc =>
    cases hc with
    | tables => exact h.same rfl
    | bind => exact h.note _ rfl rfl
    | pause => exact h.note _ rfl rfl
  | connectTcp => exact h.note _ rfl rfl
  | connectUdp i port =>
    have hclear : LinkInv (a.clear i port) := h.note _ rfl rfl
    exact hclear.note _ rfl rfl

theorem LinkInv.commands (h : LinkInv a) (hc : Commands a b) : LinkInv b := by
  induction hc with
  | refl => exact h
  | tail _ hc ih => exact ih.command hc

theorem link_delivers {event : XtcpEvent} (hd : Delivers a slot event b) (h : LinkInv a) :
    LinkInv b := by
  cases hd with
  | skip => exact h
  | send ready b link conn hready hserved hlink =>
    have hraise : LinkInv (a.raise slot event (some ready)) := h.same rfl
    refine (hraise.commands hserved).extend rfl ?_
    intro e he
    rw [List.mem_singleton] at he
    subst he
    have hsame : b.linknum slot = some ready ∨ b.Reopened := by
      rcases (linknum_commands rfl hserved).2 with hl | hre
      · rcases hready with hr | ⟨_, hr⟩
        · exact Or.inl (hl.trans hr)
        · exact Or.inr ((kept_commands slot hserved).reopened hr)
      · exact Or.inr hre
    rcases hsame with hl | hre
    · left
      rcases hlink with rfl | rfl
      · simp [Entry.onReadyLink]
      · simp [Entry.onReadyLink, hl]
    · exact Or.inr (reopened_log (fun f hf => List.mem_append_left _ hf) hre)

theorem link_act (h : LinkInv a) (hact : Act a b) : LinkInv b := by
  cases hact with
  | command _ hc => exact h.command hc
  | listen => exact h.note _ rfl rfl
  | establish _ i guid hstate hclosing hguid hb =>
    exact link_delivers hb (h.note _ rfl rfl)
  | kill _ i event st hclosing hevent hst hb => exact link_delivers hb (h.note _ rfl rfl)
  | close _ i hstate hclosing hclosed hb => exact link_delivers hb (h.same rfl)
  | lateClose _ i st hfin hst hclosing hclosed hb => exact link_delivers hb (h.same rfl)
  | accept _ i port guid hfree hguid hb =>
    have hclear : LinkInv (a.clear i port) := h.note _ rfl rfl
    have hopen : LinkInv ((a.clear i port).openAs (.udp i) (.passive port)) :=
      hclear.note _ rfl rfl
    exact link_delivers hb (hopen.note _ rfl rfl)
  | acceptDhcp i port =>
    have hclear : LinkInv (a.clear i port) := h.note _ rfl rfl
    exact hclear.note _ rfl rfl
  | announce b i guid ho hrequest hguid hb =>
    exact (link_delivers hb (h.note _ rfl rfl)).same rfl
  | data _ slot event ho hevent hb => exact link_delivers hb h
  | closeUdp _ i ho hdhcp hb => exact link_delivers hb (h.same rfl)
  | transmit => exact h.note _ rfl rfl
  | replace => exact h.note _ rfl rfl
  | ack _ i hsent ho hdhcp hb => exact link_delivers hb (h.same rfl)
  | arp _ i hpending ho hdhcp hb => exact link_delivers hb (h.same rfl)
  | _ => exact h.same rfl

end Life

theorem deliveries_faithful (hconns : nT + nU ≤ maxGuid) (cfg : Config) :
    (∀ (w : Stack nT nU) slot d,
      Faithful slot d.kind w (deliver cfg slot w d) ↔ ¬ TakesSlot cfg slot w d) ∧
    ∀ numTcp numUdp numPorts arptab dhcp (inputs : List (Env × Input)),
      let w : Stack nT nU := run cfg (uipInit nT nU numTcp numUdp numPorts arptab dhcp) inputs
      (∀ e ∈ w.log, e.reopens = false) → ∀ e ∈ w.log, e.onReadyLink = true := by
  refine ⟨faithful_iff cfg, ?_⟩
  intro numTcp numUdp numPorts arptab dhcp inputs w hnever e he
  have h : Life.LinkInv (w.life none) :=
    run_invariant hconns cfg Life.LinkInv (fun e he => absurd he List.not_mem_nil)
      (fun _ _ => Life.link_act) inputs
  rcases h e he with hlink | ⟨f, hf, hre⟩
  · exact hlink
  · rw [hnever f hf] at hre
    cases hre

-- A connection of link 0 is reset; link 1 connects while the server waits on link 0.
def abortedInputs : List (Env × Input) :=
  [(noEnv, .serviceClients [(0, .connect 80 host .tcp)]),
   (noEnv, .segment ⟨host, htons 80, htons 1025, 7, 1, false, true, false, false, true, false, 1000,
     0, 0, none⟩),
   ({ noEnv with waits := [[(1, .connect 81 host .tcp)]] },
     .segment ⟨host, htons 80, htons 1025, 8, 1, false, false, true, false, false, false, 1000, 0, 0,
       none⟩)]

theorem aborted_to_other_link :
    ¬ ∀ (cfg : Config) (inputs : List (Env × Input)),
      ∀ e ∈ (run cfg (uipInit 1 1 10 10 10 8 false : Stack 1 1) inputs).log,
        e.onReadyLink = true := by
  intro h
  have hall : (run smallConfig (uipInit 1 1 10 10 10 8 false : Stack 1 1)
      abortedInputs).log.all Entry.onReadyLink = false := by decide +kernel
  have htrue := List.all_eq_true.mpr (h smallConfig abortedInputs)
  rw [hall] at htrue
  cases htrue

theorem deliveries_faithful_connect :
    let w : Stack 1 1 := run smallConfig (uipInit 1 1 10 10 10 8 false) (abortedInputs.take 2)
    (1 + 1 ≤ maxGuid ∧ (∀ e ∈ w.log, e.reopens = false)) ∧
      (∀ e ∈ w.log, e.onReadyLink = true) ∧ w.log.length = 3 := by
  intro w
  have hlog : ∀ e ∈ w.log, e.reopens = false := by decide +kernel
  exact ⟨⟨by decide, hlog⟩,
    (deliveries_faithful (by decide) smallConfig).2 10 10 10 8 false (abortedInputs.take 2) hlog,
    by decide +kernel⟩

end Xtcp.Uip
