import Xtcp.Uip.FlowRuns
import Xtcp.Uip.Ids

namespace Xtcp.Uip
open Channel Listen Labelled

variable {nT nU : Nat} {win : Nat} {i : Fin nT}

-- From the moment the connection is stopped, until it is resumed or leaves ESTABLISHED.
def Held (ms : List (Moment × Flow nT nU)) : Prop :=
  ∀ pre m a mid rest, ms = pre ++ (m, a) :: (mid ++ rest) → m.stops = true → a.state = .established →
    (∀ x ∈ mid, x.1 ≠ .resume ∧ x.2.state = .established) →
    (∀ x ∈ mid, x.1 ≠ .accept ∧ x.2.stopped = true ∧ x.2.rcvNxt = a.rcvNxt ∧
      ∀ seg, x.1 = .output seg → seg.wnd = 0) ∧
    ∀ before seg b after, mid = before ++ (.arrive seg, b) :: after →
      ∀ x ∈ after, x.2.received = b.received

-- The connection has been resumed, and since then neither stopped again nor polled with success.
def Asked (ms : List (Moment × Flow nT nU)) : Prop :=
  ∃ pre a post, ms = pre ++ (.resume, a) :: post ∧ a.state = .established ∧
    ∀ x ∈ post, x.1 ≠ .answer ∧ x.1.stops = false ∧ x.2.state = .established

section Acts

variable {a b : Flow nT nU} {m : Moment}

theorem Act.stops (h : Act win i a m b) (hm : m.stops = true) : b.stopped = true := by
  cases h with
  | pause => rfl
  | round => cases hm
  | taken =>
    have hmode : a.ackRecvMode = true := hm
    show (a.stopped || a.ackRecvMode) = true
    rw [hmode, Bool.or_true]
  | _ => cases hm

structure Act.Closed (a : Flow nT nU) (m : Moment) (b : Flow nT nU) : Prop where
  shut : b.Shut
  rcvNxt : b.rcvNxt = a.rcvNxt
  accepts : m ≠ .accept
  data : a.data = false → b.data = false ∧ b.received = a.received
  window : ∀ seg, m = .output seg → seg.wnd = 0

theorem Act.shut (ha : a.Shut) (h : Act win i a m b) (hm : m ≠ .resume)
    (hb : b.state = .established) : Act.Closed a m b := by
  have hopened {st : TcpState} (hst : st ≠ .established) : a.state ≠ st :=
    fun h => hst (h.symm.trans ha.1)
  cases h with
  | pause => exact ⟨⟨ha.1, rfl⟩, rfl, nofun, fun hd => ⟨hd, rfl⟩, nofun⟩
  | resume => exact absurd rfl hm
  | connect link port addr rest hpending hstate =>
    cases hb
  | listen rcvNxt hstate => cases hb
  | establish rcvNxt conn data hstate =>
    rcases hstate with hs | hs
    · exact absurd hs (hopened (by decide))
    · exact absurd hs (hopened (by decide))
  | leave st hst => exact absurd hb hst
  | accept n hn => exact absurd ha hn
  | round hd => exact ⟨ha, rfl, nofun, fun h => Bool.noConfusion (h.symm.trans hd), nofun⟩
  | taken hd =>
    refine ⟨⟨ha.1, ?_⟩, rfl, nofun, fun h => Bool.noConfusion (h.symm.trans hd), nofun⟩
    show (a.stopped || a.ackRecvMode) = true
    rw [ha.2, Bool.true_or]
  | output seg hw =>
    refine ⟨ha, rfl, nofun, fun hd => ⟨hd, rfl⟩, fun seg' he => ?_⟩
    obtain rfl := Moment.output.inj he
    rw [hw, if_pos ha.2]
  | turn => exact ⟨ha, rfl, nofun, fun _ => ⟨rfl, rfl⟩, nofun⟩
  | arrive => exact ⟨ha, rfl, nofun, fun _ => ⟨rfl, rfl⟩, nofun⟩
  | _ => exact ⟨ha, rfl, nofun, fun hd => ⟨hd, rfl⟩, nofun⟩

theorem Act.asking (ha : a.state = .established ∧ a.ackRequest = true) (h : Act win i a m b)
    (hm : m ≠ .answer) (hb : b.state = .established) :
    b.state = .established ∧ b.ackRequest = true := by
  refine ⟨hb, ?_⟩
  cases h with
  | answer => exact absurd rfl hm
  | establish rcvNxt conn data hstate =>
    rcases hstate with hs | hs
    · cases hs.symm.trans ha.1
    · cases hs.symm.trans ha.1
  | resume => rfl
  | stray => rfl
  | _ => exact ha.2

theorem Act.running (ha : a.stopped = false) (h : Act win i a m b) (hm : m.stops = false) :
    b.stopped = false := by
  cases h with
  | pause => cases hm
  | taken =>
    have hmode : a.ackRecvMode = false := hm
    show (a.stopped || a.ackRecvMode) = false
    rw [ha, hmode]
    rfl
  | connect => rfl
  | listen => rfl
  | establish => rfl
  | leave => rfl
  | resume => rfl
  | _ => exact ha

end Acts

section Told

variable {a b : Flow nT nU} {ms : List (Moment × Flow nT nU)}

-- While the connection is shut, every move is one that keeps it shut.
theorem Told.closed (h : Told win i a ms b) (ha : a.Shut)
    (hms : ∀ x ∈ ms, x.1 ≠ .resume ∧ x.2.state = .established) :
    ∀ x ∈ ms, x.2.Shut ∧ x.2.rcvNxt = a.rcvNxt ∧ x.1 ≠ .accept ∧
      ∀ seg, x.1 = .output seg → seg.wnd = 0 := by
  induction h with
  | nil => exact fun x hx => absurd hx List.not_mem_nil
  | cons hs _ ih =>
    obtain ⟨hm, hst⟩ := hms _ List.mem_cons_self
    have hc := hs.shut ha hm hst
    intro x hx
    rcases List.mem_cons.mp hx with rfl | hx
    · exact ⟨hc.shut, hc.rcvNxt, hc.accepts, hc.window⟩
    · obtain ⟨hshut, hrcv, hrest⟩ := ih hc.shut (fun y hy => hms y (List.mem_cons_of_mem _ hy)) x hx
      exact ⟨hshut, hrcv.trans hc.rcvNxt, hrest⟩

theorem Told.undelivered (h : Told win i a ms b) (ha : a.Shut) (hd : a.data = false)
    (hms : ∀ x ∈ ms, x.1 ≠ .resume ∧ x.2.state = .established) :
    ∀ x ∈ ms, x.2.received = a.received := by
  have hkeep := h.keeps (Q := fun c => c.Shut ∧ c.data = false ∧ c.received = a.received)
    (fun m c => m ≠ .resume ∧ c.state = .established) (fun hq hs hok => by
      have hc := hs.shut hq.1 hok.1 hok.2
      obtain ⟨hdata, hrecv⟩ := hc.data hq.2.1
      exact ⟨hc.shut, hdata, hrecv.trans hq.2.2⟩) ⟨ha, hd, rfl⟩ hms
  exact fun x hx => (hkeep.1 x hx).2.2

theorem Told.held (h : Told win i a ms b) : Held ms := by
  rintro pre m c mid rest rfl hm hst hmid
  obtain ⟨c', _, hs, hpost⟩ := h.split_cons
  obtain ⟨b', hmids, _⟩ := hpost.split
  have hshut : c.Shut := ⟨hst, hs.stops hm⟩
  refine ⟨fun x hx => ?_, ?_⟩
  · obtain ⟨hx', hrcv, hacc, hwin⟩ := Told.closed hmids hshut hmid x hx
    exact ⟨hacc, hx'.2, hrcv, hwin⟩
  · rintro before seg e after rfl
    obtain ⟨e', _, he, hafter⟩ := hmids.split_cons
    obtain ⟨hshut', _⟩ := Told.closed hmids hshut hmid (.arrive seg, e)
      (List.mem_append_right _ List.mem_cons_self)
    have hdata : e.data = false := by
      cases he
      rfl
    exact Told.undelivered hafter hshut' hdata fun x hx =>
      hmid x (List.mem_append_right _ (List.mem_cons_of_mem _ hx))

theorem Told.asked (h : Told win i a ms b) (hasked : Asked ms) :
    b.state = .established ∧ b.ackRequest = true ∧ b.stopped = false := by
  obtain ⟨pre, c, post, rfl, hst, hpost⟩ := hasked
  obtain ⟨c', _, hs, hrest⟩ := h.split_cons
  have hc : c.ackRequest = true ∧ c.stopped = false := by
    cases hs
    exact ⟨rfl, rfl⟩
  obtain ⟨_, hreq⟩ := hrest.keeps (Q := fun e => e.state = .established ∧ e.ackRequest = true)
    (fun m e => m ≠ .answer ∧ e.state = .established)
    (fun hq hs hok => hs.asking hq hok.1 hok.2) ⟨hst, hc.1⟩
      fun x hx => ⟨(hpost x hx).1, (hpost x hx).2.2⟩
  obtain ⟨_, hrun⟩ := hrest.keeps (Q := fun e => e.stopped = false) (fun m _ => m.stops = false)
    (fun hq hs hok => hs.running hq hok) hc.2 fun x hx => (hpost x hx).2.1
  exact ⟨hreq.1, hreq.2, hrun⟩

-- The reply to a poll has the reopened window, unless the connection is stopped while the
-- poll is being served.
def Reopens (win : Nat) (i : Fin nT) (a b : Flow nT nU) : Prop :=
  ∃ c mid seg, Told win i a ((.answer, c) :: (mid ++ [(.output seg, b)])) b ∧ Calm mid ∧
    (seg.wnd = win ∨ ∃ x ∈ mid, x.1.stops = true)

theorem Answers.reopens (h : Answers win i a b) (ha : a.stopped = false) : Reopens win i a b := by
  obtain ⟨c, mid, seg, hms, hcalm⟩ := h
  refine ⟨c, mid, seg, hms, hcalm, ?_⟩
  by_cases hstop : ∃ x ∈ mid, x.1.stops = true
  · exact Or.inr hstop
  · refine Or.inl ?_
    cases hms with
    | cons hans hms =>
      obtain ⟨e, hmid, hout⟩ := hms.split
      have hc : c.stopped = false := hans.running ha rfl
      obtain ⟨_, he⟩ := hmid.keeps (Q := fun e => e.stopped = false) (fun m _ => m.stops = false)
        (fun hq hs hok => hs.running hq hok) hc fun x hx =>
          Bool.eq_false_iff.mpr fun hx' => hstop ⟨x, hx, hx'⟩
      cases hout with
      | cons hs _ =>
        cases hs with
        | output _ hw =>
          rw [hw, he]
          rfl

end Told

section Polls

variable (cfg : Config)

-- The stack when a loop over the connections comes to poll this one.
def beforePoll (i : Fin nT) (w : Stack nT nU) : Input → Option (Stack nT nU)
  | .checkConnectionPoll => some (((List.finRange nT).take i).foldl (pollTcp cfg) w)
  | .periodicTimer => some (((List.finRange nT).take i).foldl (fun w j => periodic cfg j w)
      ((List.finRange nU).foldl (fun w j => flush (udpPeriodic cfg j w)) w))
  | _ => none

def poll (i : Fin nT) (w : Stack nT nU) : Input → Stack nT nU
  | .periodicTimer => periodic cfg i w
  | _ => pollTcp cfg w i

def afterPoll (i : Fin nT) (w : Stack nT nU) : Input → Stack nT nU
  | .periodicTimer => ((List.finRange nT).drop (i + 1)).foldl (fun w j => periodic cfg j w) w
  | _ => (List.finRange nU).foldl (pollUdp cfg)
      (((List.finRange nT).drop (i + 1)).foldl (pollTcp cfg) w)

theorem foldl_finRange {α : Type} (i : Fin nT) (f : α → Fin nT → α) (a : α) :
    (List.finRange nT).foldl f a =
      ((List.finRange nT).drop (i + 1)).foldl f (f (((List.finRange nT).take i).foldl f a) i) := by
  have hi : i.val < (List.finRange nT).length := by simp
  have hsplit : List.finRange nT =
      (List.finRange nT).take i ++ i :: (List.finRange nT).drop (i + 1) := by
    have hdrop := List.drop_eq_getElem_cons hi
    rw [List.getElem_finRange, Fin.cast_mk, Fin.eta] at hdrop
    rw [← hdrop, List.take_append_drop]
  conv_lhs => rw [hsplit]
  rw [List.foldl_append, List.foldl_cons]

theorem perform_poll {w w' : Stack nT nU} {input : Input} (h : beforePoll cfg i w input = some w') :
    perform cfg w input = afterPoll cfg i (poll cfg i w' input) input := by
  unfold beforePoll at h
  split at h
  · obtain rfl := Option.some.inj h
    exact congrArg (fun w => (List.finRange nU).foldl (pollUdp cfg) w)
      (foldl_finRange i (pollTcp cfg) w)
  · obtain rfl := Option.some.inj h
    exact foldl_finRange i (fun w j => periodic cfg j w) _
  · cases h

theorem tale_beforePoll {d : Bool} {w w' : Stack nT nU} {input : Input}
    (h : beforePoll cfg i w input = some w') :
    Tale cfg.receiveWindow i (w.flow i d) [] (w'.flow i d) := by
  unfold beforePoll at h
  split at h
  · obtain rfl := Option.some.inj h
    exact tale_foldl _ (fun w j => tale_pollTcp d cfg i w j) _ w
  · obtain rfl := Option.some.inj h
    have hudp := @tale_foldl _ _ d i cfg.receiveWindow _ (fun w j => flush (udpPeriodic cfg j w))
      (fun w j => tale_flush (moves_udpPeriodic j w)) (List.finRange nU) w
    exact hudp.trans (tale_foldl (fun w j => periodic cfg j w)
      (fun w j => tale_periodic d cfg i w j) _ _)
  · cases h

theorem answers_poll {d : Bool} (w : Stack nT nU) (input : Input) (hown : (w.flow i d).Own)
    (hstate : w.state i = .established) (hlen : (w.tcp i).len = 0)
    (hreq : (w.app (.tcp i)).s.ackRequest = true) :
    Answers cfg.receiveWindow i (w.flow i d) ((poll cfg i w input).flow i d) := by
  unfold poll
  split
  · exact answers_periodic d cfg i w hown hstate hlen hreq
  · exact answers_pollTcp d cfg i w hown hstate hlen hreq

end Polls

theorem own_uipInit (i : Fin nT) (numTcp numUdp numPorts arptab : Nat) (dhcp d : Bool) :
    ((uipInit nT nU numTcp numUdp numPorts arptab dhcp).flow i d).Own := fun _ => Or.inl rfl

theorem resumed_unpause (w : Stack nT nU) (connId : Nat)
    (h : lookupXtcpdState w connId = some (.tcp i))
    (hconn : (w.app (.tcp i)).s.uipConn = some (.tcp i)) :
    (xtcpdUnpause w connId).state i = w.state i ∧
      ((xtcpdUnpause w connId).tcp i).tcpstateflags.stopped = false ∧
      ((xtcpdUnpause w connId).app (.tcp i)).s.ackRequest = true := by
  have hw : xtcpdUnpause w connId = (clearStopped w (some (.tcp i))).setS (.tcp i) fun s =>
      { s with ackRequest := true } := by
    unfold xtcpdUnpause onState
    rw [h]
    dsimp only
    rw [hconn]
  rw [hw]
  refine ⟨?_, ?_, ?_⟩
  · exact congrArg (·.tcpstateflags.state) (Function.update_self i _ w.tcp)
  · exact congrArg (·.tcpstateflags.stopped) (Function.update_self i _ w.tcp)
  · exact congrArg (·.s.ackRequest) (Function.update_self (Slot.tcp i) _ w.app)

def Resumed (cfg : Config) (i : Fin nT) (w : Stack nT nU) (connId : Nat) (c : Command) : Prop :=
  lookupXtcpdState w connId = some (.tcp i) → (w.app (.tcp i)).s.uipConn = some (.tcp i) →
    c = .unpause connId ∨ c = .ackRecv connId → ∀ linknum,
      (runCommand cfg w (linknum, c)).state i = w.state i ∧
      ((runCommand cfg w (linknum, c)).tcp i).tcpstateflags.stopped = false ∧
      ((runCommand cfg w (linknum, c)).app (.tcp i)).s.ackRequest = true

theorem resumed (cfg : Config) (i : Fin nT) (w : Stack nT nU) (connId : Nat) (c : Command) :
    Resumed cfg i w connId c := by
  rintro h hconn (rfl | rfl) linknum
  · exact resumed_unpause w connId h hconn
  · exact resumed_unpause w connId h hconn

-- Ten bytes are taken in ack_recv_mode; five more and a FIN come before the ack_recv.
def receiveInputs : List (Env × Input) :=
  [(noEnv, .serviceClients [(0, .connect 80 host .tcp)]),
   (noEnv, .segment ⟨host, htons 80, htons 1025, 7, 1, false, true, false, false, true, false, 1000,
     0, 0, none⟩),
   (noEnv, .serviceClients [(0, .ackRecvMode 1)]),
   (noEnv, .segment ⟨host, htons 80, htons 1025, 8, 1, false, false, false, false, true, false, 1000,
     0, 10, none⟩),
   (noEnv, .segment ⟨host, htons 80, htons 1025, 18, 1, true, false, false, false, true, false, 1000,
     0, 5, none⟩),
   (noEnv, .serviceClients [(0, .ackRecv 1)])]

end Xtcp.Uip
