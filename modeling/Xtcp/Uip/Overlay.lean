import Xtcp.Library.Layout
import Xtcp.Uip.StaleIds
import Xtcp.Uip.Ids

namespace Xtcp.Uip
open Channel Listen Layout

variable {nT nU : Nat}

inductive TcpMember where
  | ripaddr | lport | rport | rcvNxt | sndNxt | len | mss | initialmss | sa | sv | rto
  | tcpstateflags | timer | nrtx
  deriving DecidableEq

-- struct uip_conn up to its appstate
def tcpMembers : List (Member TcpMember) :=
  [⟨.ripaddr, 4, 2⟩, ⟨.lport, 2, 2⟩, ⟨.rport, 2, 2⟩, ⟨.rcvNxt, 4, 1⟩, ⟨.sndNxt, 4, 1⟩, ⟨.len, 2, 2⟩,
    ⟨.mss, 2, 2⟩, ⟨.initialmss, 2, 2⟩, ⟨.sa, 1, 1⟩, ⟨.sv, 1, 1⟩, ⟨.rto, 1, 1⟩,
    ⟨.tcpstateflags, 1, 1⟩, ⟨.timer, 1, 1⟩, ⟨.nrtx, 1, 1⟩]

inductive UdpMember where
  | ripaddr | lport | rport | ttl | udpflags | linknum
  | id | protocol | connectionType | event | appstate | remoteAddr | remotePort | localPort | mss
  | sendRequest | abortRequest | closeRequest | pollInterval | connectRequest | ackRequest | closed
  | tmrStart | tmrInterval | uipConn | ackRecvMode
  deriving DecidableEq

-- struct uip_udp_conn with its xtcpd_state_t
def udpMembers : List (Member UdpMember) :=
  [⟨.ripaddr, 4, 2⟩, ⟨.lport, 2, 2⟩, ⟨.rport, 2, 2⟩, ⟨.ttl, 1, 1⟩, ⟨.udpflags, 1, 1⟩] ++
    [.linknum, .id, .protocol, .connectionType, .event, .appstate].map (⟨·, 4, 4⟩) ++
    [⟨.remoteAddr, 4, 1⟩] ++
    [.remotePort, .localPort, .mss, .sendRequest, .abortRequest, .closeRequest, .pollInterval,
      .connectRequest, .ackRequest, .closed, .tmrStart, .tmrInterval, .uipConn,
      .ackRecvMode].map (⟨·, 4, 4⟩)

def uipStopped : BitVec 8 := 16

def tcpstateflagsOffset : Nat := (offsetOf tcpMembers .tcpstateflags).getD 0

def orStopped (slot : Nat) (mem : Nat → BitVec 8) : Nat → BitVec 8 :=
  Function.update mem (slot + tcpstateflagsOffset) (mem (slot + tcpstateflagsOffset) ||| uipStopped)

def andStopped (slot : Nat) (mem : Nat → BitVec 8) : Nat → BitVec 8 :=
  Function.update mem (slot + tcpstateflagsOffset)
    (mem (slot + tcpstateflagsOffset) &&& ~~~uipStopped)

theorem tcpstateflags_overlay :
    tcpstateflagsOffset = 25 ∧ offsetOf udpMembers .connectionType = some 24 := by decide

theorem apart_connectionType : ∀ m ∈ placed 0 udpMembers, m.1 ≠ .connectionType →
    tcpstateflagsOffset < m.2.1 ∨ m.2.1 + m.2.2 ≤ tcpstateflagsOffset := by decide

theorem read_update_member (slot : Nat) (mem : Nat → BitVec 8) (v : BitVec 8)
    {m : UdpMember × Nat × Nat} (hm : m ∈ placed 0 udpMembers) (hname : m.1 ≠ .connectionType) :
    read (Function.update mem (slot + tcpstateflagsOffset) v) (slot + m.2.1) m.2.2 =
      read mem (slot + m.2.1) m.2.2 :=
  read_update_other v ((apart_connectionType m hm hname).imp (by omega) (by omega))

theorem getLsbD_uipStopped : ∀ j < 8, uipStopped.getLsbD j = decide (12 = 8 + j) := by decide

theorem testBit_connectionType (slot : Nat) (mem : Nat → BitVec 8) {m : Nat} (h : m / 8 = 1) :
    (read mem (slot + 24) 4).testBit m = (mem (slot + 25)).getLsbD (m % 8) ∧
      uipStopped.getLsbD (m % 8) = decide (12 = m) := by
  refine ⟨?_, ?_⟩
  · rw [testBit_read, h, decide_eq_true (by omega), Bool.true_and]
  · rw [getLsbD_uipStopped _ (Nat.mod_lt m (by decide)), decide_eq_decide]
    omega

-- The bit that the handlers write is bit 12 of connection_type.
theorem read_orStopped (slot : Nat) (mem : Nat → BitVec 8) :
    read (orStopped slot mem) (slot + 24) 4 = read mem (slot + 24) 4 ||| 4096 := by
  refine Nat.eq_of_testBit_eq fun m => ?_
  have haddr : slot + tcpstateflagsOffset = slot + 24 + 1 := congrArg _ tcpstateflags_overlay.1
  rw [orStopped, haddr, testBit_read_update _ (by decide), Nat.testBit_or,
    show (4096 : Nat) = 2 ^ 12 from rfl, Nat.testBit_two_pow]
  split
  next h =>
    obtain ⟨hread, hstop⟩ := testBit_connectionType slot mem h
    rw [BitVec.getLsbD_or, hread, hstop]
  next h => rw [decide_eq_false (by omega), Bool.or_false]

theorem read_andStopped (slot : Nat) (mem : Nat → BitVec 8) :
    read (andStopped slot mem) (slot + 24) 4 =
      read mem (slot + 24) 4 ^^^ (read mem (slot + 24) 4 &&& 4096) := by
  refine Nat.eq_of_testBit_eq fun m => ?_
  have haddr : slot + tcpstateflagsOffset = slot + 24 + 1 := congrArg _ tcpstateflags_overlay.1
  rw [andStopped, haddr, testBit_read_update _ (by decide), Nat.testBit_xor, Nat.testBit_and,
    show (4096 : Nat) = 2 ^ 12 from rfl, Nat.testBit_two_pow]
  split
  next h =>
    obtain ⟨hread, hstop⟩ := testBit_connectionType slot mem h
    have hlt : m % 8 < 8 := Nat.mod_lt m (by decide)
    rw [BitVec.getLsbD_and, BitVec.getLsbD_not, hread, hstop, decide_eq_true hlt]
    cases (mem (slot + 25)).getLsbD (m % 8) <;> cases decide (12 = m) <;> rfl
  next h => rw [decide_eq_false (by omega), Bool.and_false, Bool.xor_false]

inductive FlowCommand where
  | pause
  | unpause
  | ackRecv
  | ackRecvMode
  deriving DecidableEq, Repr

def FlowCommand.on (connId : Nat) : FlowCommand → Command
  | .pause => .pause connId
  | .unpause => .unpause connId
  | .ackRecv => .ackRecv connId
  | .ackRecvMode => .ackRecvMode connId

def FlowCommand.bit (b : Bool) : FlowCommand → Bool
  | .pause => true
  | .unpause => false
  | .ackRecv => false
  | .ackRecvMode => b

def bitAfter (b : Bool) (cs : List FlowCommand) : Bool := cs.foldl FlowCommand.bit b

def FlowCommand.retype (t : Nat) : FlowCommand → Nat
  | .pause => t ||| 4096
  | .unpause => t ^^^ (t &&& 4096)
  | .ackRecv => t ^^^ (t &&& 4096)
  | .ackRecvMode => t

theorem testBit_retype (t : Nat) (c : FlowCommand) (j : Nat) :
    (c.retype t).testBit j = if j = 12 then c.bit (t.testBit 12) else t.testBit j := by
  have hbit : (4096 : Nat).testBit j = decide (12 = j) := by
    rw [show (4096 : Nat) = 2 ^ 12 from rfl, Nat.testBit_two_pow]
  have hcommon : (if j = 12 then t.testBit 12 else t.testBit j) = t.testBit j := by
    split
    next h => rw [h]
    · rfl
  cases c with
  | pause =>
    rw [FlowCommand.retype, Nat.testBit_or, hbit]
    split
    next h => simp [h, FlowCommand.bit]
    next h => simp [Ne.symm h]
  | unpause | ackRecv =>
    rw [FlowCommand.retype, Nat.testBit_xor, Nat.testBit_and, hbit]
    split
    next h => simp [h, FlowCommand.bit]
    next h => simp [Ne.symm h]
  | ackRecvMode => exact hcommon.symm

theorem retype_all_eq_iff (t : Nat) (cs : List FlowCommand) :
    cs.foldl FlowCommand.retype t = t ↔ bitAfter (t.testBit 12) cs = t.testBit 12 := by
  have h : ∀ cs : List FlowCommand, ∀ u : Nat, ∀ j, (cs.foldl FlowCommand.retype u).testBit j =
      if j = 12 then bitAfter (u.testBit 12) cs else u.testBit j := by
    intro cs
    induction cs with
    | nil =>
      intro u j
      by_cases hj : j = 12
      · rw [if_pos hj, hj]
        rfl
      · rw [if_neg hj]
        rfl
    | cons c cs ih =>
      intro u j
      rw [List.foldl_cons, ih, testBit_retype, if_pos rfl, testBit_retype]
      by_cases hj : j = 12
      · rw [if_pos hj, if_pos hj]
        rfl
      · rw [if_neg hj, if_neg hj, if_neg hj]
  constructor
  · intro hsame
    have hj := h cs t 12
    rw [hsame, if_pos rfl] at hj
    exact hj.symm
  · intro hbit
    refine Nat.eq_of_testBit_eq fun j => (h cs t j).trans ?_
    split
    next hj => rw [hbit, hj]
    · rfl

structure LiveUdp (w : Stack nT nU) (i : Fin nU) (connId : Nat) : Prop where
  known : lookupXtcpdState w connId = some (.udp i)
  own : (w.app (.udp i)).s.uipConn = some (.udp i)

-- All but the type of the connection and its two request flags.
structure Spared (i : Fin nU) (w w' : Stack nT nU) : Prop where
  udp : w'.udp = w.udp
  tcp : w'.tcp = w.tcp
  tables : w'.tables = w.tables
  others : ∀ slot, slot ≠ .udp i → w'.app slot = w.app slot
  linknum : (w'.app (.udp i)).linknum = (w.app (.udp i)).linknum
  s : ∃ ack mode, (w'.app (.udp i)).s =
    { (w.app (.udp i)).s with ackRequest := ack, ackRecvMode := mode }

structure Framed (i : Fin nU) (w w' : Stack nT nU) : Prop extends Spared i w w' where
  conn : (w'.app (.udp i)).conn = (w.app (.udp i)).conn

theorem Spared.refl (i : Fin nU) (w : Stack nT nU) : Spared i w w :=
  ⟨rfl, rfl, rfl, fun _ _ => rfl, rfl, ⟨_, _, rfl⟩⟩

theorem Spared.trans {i : Fin nU} {w₁ w₂ w₃ : Stack nT nU} (h : Spared i w₁ w₂)
    (h' : Spared i w₂ w₃) : Spared i w₁ w₃ where
  udp := h'.udp.trans h.udp
  tcp := h'.tcp.trans h.tcp
  tables := h'.tables.trans h.tables
  others slot hslot := (h'.others slot hslot).trans (h.others slot hslot)
  linknum := h'.linknum.trans h.linknum
  s := by
    obtain ⟨ack, mode, hs⟩ := h.s
    obtain ⟨ack', mode', hs'⟩ := h'.s
    exact ⟨ack', mode', by rw [hs', hs]⟩

def touched (w : Stack nT nU) (i : Fin nU) (x : Xtcpd nT nU) (log : List (Entry nT nU)) :
    Stack nT nU := { w with app := Function.update w.app (.udp i) x, log := log }

theorem spared_touched (w : Stack nT nU) (i : Fin nU) {x : Xtcpd nT nU}
    (log : List (Entry nT nU)) (hlink : x.linknum = (w.app (.udp i)).linknum)
    (hs : ∃ ack mode, x.s = { (w.app (.udp i)).s with ackRequest := ack, ackRecvMode := mode }) :
    Spared i w (touched w i x log) where
  udp := rfl
  tcp := rfl
  tables := rfl
  others slot hslot := Function.update_of_ne hslot _ _
  linknum := (congrArg _ (Function.update_self (Slot.udp i) x w.app)).trans hlink
  s := by
    rw [show (touched w i x log).app (.udp i) = x from Function.update_self _ _ _]
    exact hs

theorem runCommand_touched (cfg : Config) {w : Stack nT nU} {i : Fin nU} {connId : Nat}
    (h : LiveUdp w i connId) (linknum : Nat) (c : FlowCommand) :
    ∃ x log, runCommand cfg w (linknum, c.on connId) = touched w i x log ∧
      x.linknum = (w.app (.udp i)).linknum ∧
      (∃ ack mode, x.s = { (w.app (.udp i)).s with ackRequest := ack, ackRecvMode := mode }) ∧
      x.conn = { (w.app (.udp i)).conn with
        connectionType := c.retype (w.app (.udp i)).conn.connectionType } := by
  cases c with
  | pause =>
    refine ⟨{ (w.app (.udp i)) with
      conn := { (w.app (.udp i)).conn with
        connectionType := (w.app (.udp i)).conn.connectionType ||| 4096 } },
      w.log ++ [.paused (.udp i)], ?_, rfl, ⟨_, _, rfl⟩, rfl⟩
    simp only [runCommand, FlowCommand.on, xtcpdPause, onState, h.known, h.own, setStopped]
    rfl
  | unpause | ackRecv =>
    refine ⟨{ (w.app (.udp i)) with
      conn := { (w.app (.udp i)).conn with
        connectionType := FlowCommand.unpause.retype (w.app (.udp i)).conn.connectionType }
      s := { (w.app (.udp i)).s with ackRequest := true } }, w.log ++ [.paused (.udp i)], ?_, rfl,
      ⟨_, _, rfl⟩, rfl⟩
    simp only [runCommand, FlowCommand.on, xtcpdAckRecv, xtcpdUnpause, onState, h.known, h.own,
      clearStopped, Stack.setS, Stack.setApp, Stack.setConn, Stack.note, Function.update_self,
      Function.update_idem]
    rfl
  | ackRecvMode =>
    refine ⟨{ (w.app (.udp i)) with s := { (w.app (.udp i)).s with ackRecvMode := true } },
      w.log, ?_, rfl, ⟨_, _, rfl⟩, rfl⟩
    simp only [runCommand, FlowCommand.on, xtcpdAckRecvMode, onState, h.known]
    rfl

theorem runCommand_flow (cfg : Config) {w : Stack nT nU} {i : Fin nU} {connId : Nat}
    (h : LiveUdp w i connId) (linknum : Nat) (c : FlowCommand) :
    Spared i w (runCommand cfg w (linknum, c.on connId)) ∧
      LiveUdp (runCommand cfg w (linknum, c.on connId)) i connId ∧
      ((runCommand cfg w (linknum, c.on connId)).app (.udp i)).conn =
        { (w.app (.udp i)).conn with
          connectionType := c.retype (w.app (.udp i)).conn.connectionType } := by
  obtain ⟨x, log, hrun, hlink, hs, hconn⟩ := runCommand_touched cfg h linknum c
  have hx : (touched w i x log).app (.udp i) = x := Function.update_self _ _ _
  rw [hrun]
  refine ⟨spared_touched w i log hlink hs, ⟨?_, ?_⟩, by rw [hx, hconn]⟩
  · have hids : ∀ slot, ((touched w i x log).app slot).conn.id = (w.app slot).conn.id := by
      intro slot
      by_cases hslot : slot = .udp i
      · subst hslot
        rw [hx, hconn]
      · rw [(spared_touched w i log hlink hs).others slot hslot]
    rw [← h.known, lookupXtcpdState, lookupXtcpdState]
    exact congrArg (List.find? · _) (funext fun slot => by rw [hids])
  · obtain ⟨ack, mode, hxs⟩ := hs
    rw [hx, hxs, ← h.own]

theorem runCommands_flow (cfg : Config) {i : Fin nU} {connId : Nat}
    (cs : List (Nat × FlowCommand)) {w : Stack nT nU} (h : LiveUdp w i connId) :
    Spared i w (runCommands cfg w (cs.map fun c => (c.1, c.2.on connId))) ∧
      ((runCommands cfg w (cs.map fun c => (c.1, c.2.on connId))).app (.udp i)).conn =
        { (w.app (.udp i)).conn with
          connectionType := (cs.map Prod.snd).foldl FlowCommand.retype
            (w.app (.udp i)).conn.connectionType } := by
  induction cs generalizing w with
  | nil => exact ⟨.refl i w, rfl⟩
  | cons c cs ih =>
    obtain ⟨hspared, hlive, hconn⟩ := runCommand_flow cfg h c.1 c.2
    obtain ⟨hspared', hconn'⟩ := ih hlive
    refine ⟨hspared.trans hspared', ?_⟩
    rw [hconn] at hconn'
    exact hconn'

-- A connection is live from the issue of its id.
theorem live_issued (hconns : nT + nU ≤ maxGuid) (w : Stack nT nU) (i : Fin nU) :
    LiveUdp (xtcpdInitState w (.udp i)) i
      ((xtcpdInitState w (.udp i)).app (.udp i)).conn.id := by
  have hknown := lookup_issued w (.udp i) hconns
  refine ⟨hknown, ?_⟩
  have hsearch := searchGuid_ne_none hconns (w.setApp (.udp i) fun _ => .zero) (.udp i)
    (by simp [Stack.setApp, Xtcpd.zero, zeroConn]) w.guid
  unfold xtcpdInitState
  dsimp only
  split
  next h => exact absurd h hsearch
  next =>
    simp only [Stack.setApp, Function.update_self]

theorem udp_flow_commands_exact (cfg : Config) (w : Stack nT nU) (i : Fin nU) (connId : Nat)
    (h : LiveUdp w i connId) (cs : List (Nat × FlowCommand)) :
    Framed i w (runCommands cfg w (cs.map fun c => (c.1, c.2.on connId))) ↔
      bitAfter ((w.app (.udp i)).conn.connectionType.testBit 12) (cs.map Prod.snd) =
        (w.app (.udp i)).conn.connectionType.testBit 12 := by
  obtain ⟨hspared, hconn⟩ := runCommands_flow cfg cs h
  rw [← retype_all_eq_iff]
  constructor
  · intro hframed
    exact congrArg Conn.connectionType (hconn.symm.trans hframed.conn)
  · intro hsame
    exact ⟨hspared, by rw [hconn, hsame]⟩

def udpInputs : List (Env × Input) :=
  [(noEnv, .serviceClients [(0, .connect 7 host .udp)]), (noEnv, .checkConnectionPoll)]

theorem udp_flow_commands_unpaused :
    let w : Stack 1 1 := run smallConfig (uipInit 1 1 10 10 10 8 false) udpInputs
    LiveUdp w 0 1 ∧ Framed 0 w (runCommands smallConfig w
      ([(0, FlowCommand.pause), (0, .ackRecv)].map fun c => (c.1, c.2.on 1))) := by
  intro w
  have h : LiveUdp w 0 1 := ⟨by decide +kernel, by decide +kernel⟩
  exact ⟨h, (udp_flow_commands_exact smallConfig w 0 1 h _).mpr (by decide +kernel)⟩

theorem udp_pause_retypes :
    let w : Stack 1 1 := run smallConfig (uipInit 1 1 10 10 10 8 false) udpInputs
    LiveUdp w 0 1 ∧ ¬ Framed 0 w (runCommands smallConfig w [(0, .pause 1)]) ∧
      (w.app (.udp 0)).conn.connectionType = 0 ∧
      ((runCommands smallConfig w [(0, .pause 1)]).app (.udp 0)).conn.connectionType = 4096 := by
  intro w
  have hold : (w.app (.udp 0)).conn.connectionType = 0 := by decide +kernel
  have hnew : ((runCommands smallConfig w [(0, .pause 1)]).app
      (.udp 0)).conn.connectionType = 4096 := by decide +kernel
  refine ⟨⟨by decide +kernel, by decide +kernel⟩, fun h => ?_, hold, hnew⟩
  have hsame := congrArg Conn.connectionType h.conn
  rw [hold, hnew] at hsame
  exact absurd hsame (by decide)

end Xtcp.Uip
