import Xtcp.Uip.Server

namespace Xtcp.Uip
open Channel Listen

variable {nT nU : Nat}

structure Unchanged (w w' : Stack nT nU) : Prop where
  fault : w'.fault = false
  tcp : w'.tcp = w.tcp
  udp : w'.udp = w.udp
  app : w'.app = w.app

def isConnCommand : Command → Bool
  | .bindLocal _ _ => true
  | .bindRemote _ _ _ => true
  | .initSend _ => true
  | .setAppstate _ _ => true
  | .setPollInterval _ _ => true
  | .close _ => true
  | .abort _ => true
  | .pause _ => true
  | .unpause _ => true
  | .ackRecv _ => true
  | .ackRecvMode _ => true
  | _ => false

def ConnCommand := { c : Command // isConnCommand c = true }

def Harmless (cfg : Config) (w : Stack nT nU) (linknum : Nat) (c : Command) : Prop :=
  Unchanged w (runCommand cfg { w with fault := false } (linknum, c))

def liveSlot (w : Stack nT nU) : Slot nT nU → Bool
  | .tcp i => match w.state i with
      | .closed => false
      | .synRcvd => false
      | .synSent => false
      | .timeWait => false
      | _ => true
  | .udp i => (w.udp i).lport != 0 && !(w.app (.udp i)).s.connectRequest

def Live (w : Stack nT nU) (connId : Nat) : Prop :=
  ∃ slot, (w.app slot).conn.id = connId ∧ liveSlot w slot = true

def isStopped (w : Stack nT nU) : Slot nT nU → Bool
  | .tcp i => (w.tcp i).tcpstateflags.stopped
  | .udp i => (w.app (.udp i)).conn.connectionType.testBit 12

def AtSlot (w : Stack nT nU) (connId : Nat) (P : Slot nT nU → Prop) : Prop :=
  ∃ slot, lookupXtcpdState w connId = some slot ∧ P slot

def Unless (w : Stack nT nU) (connId : Nat) (P : Slot nT nU → Prop) : Prop :=
  ∀ slot, lookupXtcpdState w connId = some slot → P slot

def AtConn (w : Stack nT nU) (slot : Slot nT nU) (P : Slot nT nU → Prop) : Prop :=
  ∃ conn, (w.app slot).s.uipConn = some conn ∧ P conn

-- What each command would write is there already. The two binds need a state to write to, all
-- others do nothing when the lookup misses.
def Written (w : Stack nT nU) : Command → Prop
  | .bindLocal connId portNumber => AtSlot w connId fun slot =>
      (w.app slot).conn.localPort = portNumber ∧
        AtConn w slot fun conn => w.lport conn = htons portNumber
  | .bindRemote connId addr portNumber => AtSlot w connId fun slot =>
      Protocol.ofWord (w.app slot).conn.protocol = .udp →
        (w.app slot).conn.remotePort = portNumber ∧
        (w.app slot).conn.remoteAddr = ipaddrWord addr ∧
        AtConn w slot fun conn => w.rport conn = htons portNumber ∧ w.ripaddr conn = addr
  | .initSend connId => lookupXtcpdState w connId = none
  | .setAppstate connId appstate => Unless w connId fun slot =>
      (w.app slot).conn.appstate = appstate
  | .setPollInterval connId pollInterval => Unless w connId fun slot =>
      Protocol.ofWord (w.app slot).conn.protocol = .udp →
        (w.app slot).s.pollInterval = pollInterval
  | .close connId => Unless w connId fun slot => (w.app slot).s.closeRequest = true
  | .abort connId => Unless w connId fun slot => (w.app slot).s.abortRequest = true
  | .pause connId => Unless w connId fun slot => AtConn w slot fun conn => isStopped w conn = true
  | .unpause connId => Unless w connId fun slot =>
      (w.app slot).s.ackRequest = true ∧ AtConn w slot fun conn => isStopped w conn = false
  | .ackRecv connId => Unless w connId fun slot =>
      (w.app slot).s.ackRequest = true ∧ AtConn w slot fun conn => isStopped w conn = false
  | .ackRecvMode connId => Unless w connId fun slot => (w.app slot).s.ackRecvMode = true
  | _ => False

variable {w : Stack nT nU}

theorem unchanged_setApp (hf : w.fault = false) (slot : Slot nT nU)
    (f : Xtcpd nT nU → Xtcpd nT nU) :
    Unchanged w (w.setApp slot f) ↔ f (w.app slot) = w.app slot := by
  constructor
  · intro h
    have ha := congrFun h.app slot
    simpa [Stack.setApp] using ha
  · intro h
    refine ⟨hf, rfl, rfl, ?_⟩
    simp [Stack.setApp, h]

theorem unchanged_setS (hf : w.fault = false) (slot : Slot nT nU)
    (f : ServerState nT nU → ServerState nT nU) :
    Unchanged w (w.setS slot f) ↔ f (w.app slot).s = (w.app slot).s := by
  rw [Stack.setS, unchanged_setApp hf]
  constructor
  · intro h
    exact congrArg Xtcpd.s h
  · intro h
    rw [h]

theorem unchanged_setConn (hf : w.fault = false) (slot : Slot nT nU) (f : Conn → Conn) :
    Unchanged w (w.setConn slot f) ↔ f (w.app slot).conn = (w.app slot).conn := by
  rw [Stack.setConn, unchanged_setApp hf]
  constructor
  · intro h
    exact congrArg Xtcpd.conn h
  · intro h
    rw [h]

theorem unchanged_setTcp (hf : w.fault = false) (i : Fin nT) (f : TcpConn → TcpConn) :
    Unchanged w (w.setTcp i f) ↔ f (w.tcp i) = w.tcp i := by
  constructor
  · intro h
    have ha := congrFun h.tcp i
    simpa [Stack.setTcp] using ha
  · intro h
    refine ⟨hf, ?_, rfl, rfl⟩
    simp [Stack.setTcp, h]

theorem unchanged_onState (hf : w.fault = false) (connId : Nat)
    (f : Slot nT nU → Stack nT nU) :
    Unchanged w (onState w connId f) ↔ Unless w connId fun slot => Unchanged w (f slot) := by
  unfold onState Unless
  cases lookupXtcpdState w connId with
  | none => simpa using ⟨hf, rfl, rfl, rfl⟩
  | some slot => simp

theorem or_bit (n : Nat) : n ||| 4096 = n ↔ n.testBit 12 = true := by
  have hbit : ∀ j, (n ||| 2 ^ 12).testBit j = (n.testBit j || decide (12 = j)) := by
    intro j
    rw [Nat.testBit_or, Nat.testBit_two_pow]
  constructor
  · intro h
    have hj := hbit 12
    rw [show n ||| 2 ^ 12 = n from h] at hj
    simpa using hj
  · intro h
    refine Nat.eq_of_testBit_eq fun j => (hbit j).trans ?_
    by_cases hj : 12 = j
    · subst hj
      simp [h]
    · simp [hj]

theorem xor_bit (n : Nat) : n ^^^ (n &&& 4096) = n ↔ n.testBit 12 = false := by
  have hbit : ∀ j, (n &&& 2 ^ 12).testBit j = (n.testBit j && decide (12 = j)) := by
    intro j
    rw [Nat.testBit_and, Nat.testBit_two_pow]
  constructor
  · intro h
    have hj := congrArg (Nat.testBit · 12) h
    simp only [Nat.testBit_xor] at hj
    rw [show (n &&& 4096).testBit 12 = _ from hbit 12] at hj
    simpa using hj
  · intro h
    refine Nat.eq_of_testBit_eq fun j => ?_
    rw [Nat.testBit_xor, show (n &&& 4096).testBit j = _ from hbit j]
    by_cases hj : 12 = j
    · subst hj
      simp [h]
    · simp [hj]

theorem unchanged_conn_s (hf : w.fault = false) (a b : Slot nT nU) (f : Conn → Conn)
    (g : ServerState nT nU → ServerState nT nU) :
    Unchanged w ((w.setConn a f).setS b g) ↔
      f (w.app a).conn = (w.app a).conn ∧ g (w.app b).s = (w.app b).s := by
  constructor
  · intro h
    constructor
    · have ha := congrArg Xtcpd.conn (congrFun h.app a)
      by_cases hab : a = b
      · subst hab
        simpa [Stack.setConn, Stack.setS, Stack.setApp] using ha
      · simpa [Stack.setConn, Stack.setS, Stack.setApp, hab] using ha
    · have hb := congrArg Xtcpd.s (congrFun h.app b)
      by_cases hab : b = a
      · subst hab
        simpa [Stack.setConn, Stack.setS, Stack.setApp] using hb
      · simpa [Stack.setConn, Stack.setS, Stack.setApp, hab] using hb
  · rintro ⟨ha, hb⟩
    have hc : w.setConn a f = w := by simp [Stack.setConn, Stack.setApp, ha]
    rw [hc]
    exact (unchanged_setS hf b g).mpr hb

theorem unchanged_setUdp (hf : w.fault = false) (i : Fin nU) (f : UdpConn → UdpConn) :
    Unchanged w (w.setUdp i f) ↔ f (w.udp i) = w.udp i := by
  constructor
  · intro h
    have ha := congrFun h.udp i
    simpa [Stack.setUdp] using ha
  · intro h
    refine ⟨hf, rfl, ?_, rfl⟩
    simp [Stack.setUdp, h]

theorem unchanged_congr {a b : Stack nT nU} (hf : a.fault = b.fault) (ht : a.tcp = b.tcp)
    (hu : a.udp = b.udp) (ha : a.app = b.app) : Unchanged w a ↔ Unchanged w b := by
  constructor
  · intro h
    exact ⟨hf ▸ h.fault, ht ▸ h.tcp, hu ▸ h.udp, ha ▸ h.app⟩
  · intro h
    exact ⟨hf ▸ h.fault, ht ▸ h.tcp, hu ▸ h.udp, ha ▸ h.app⟩

theorem unchanged_conn_tcp (hf : w.fault = false) (slot : Slot nT nU) (f : Conn → Conn)
    (i : Fin nT) (g : TcpConn → TcpConn) :
    Unchanged w ((w.setConn slot f).setTcp i g) ↔
      f (w.app slot).conn = (w.app slot).conn ∧ g (w.tcp i) = w.tcp i := by
  rw [← unchanged_setConn hf, ← unchanged_setTcp hf]
  exact ⟨fun h => ⟨⟨hf, rfl, rfl, h.app⟩, ⟨hf, h.tcp, rfl, rfl⟩⟩,
    fun h => ⟨hf, h.2.tcp, rfl, h.1.app⟩⟩

theorem unchanged_conn_udp (hf : w.fault = false) (slot : Slot nT nU) (f : Conn → Conn)
    (i : Fin nU) (g : UdpConn → UdpConn) :
    Unchanged w ((w.setConn slot f).setUdp i g) ↔
      f (w.app slot).conn = (w.app slot).conn ∧ g (w.udp i) = w.udp i := by
  rw [← unchanged_setConn hf, ← unchanged_setUdp hf]
  exact ⟨fun h => ⟨⟨hf, rfl, rfl, h.app⟩, ⟨hf, rfl, h.udp, rfl⟩⟩,
    fun h => ⟨hf, rfl, h.2.udp, h.1.app⟩⟩

theorem unchanged_note_tcp (w' : Stack nT nU) (e : Entry nT nU) (i : Fin nT)
    (g : TcpConn → TcpConn) :
    Unchanged w ((w'.note e).setTcp i g) ↔ Unchanged w (w'.setTcp i g) :=
  unchanged_congr rfl rfl rfl rfl

theorem unchanged_note_udp (w' : Stack nT nU) (e : Entry nT nU) (i : Fin nU)
    (g : UdpConn → UdpConn) :
    Unchanged w ((w'.note e).setUdp i g) ↔ Unchanged w (w'.setUdp i g) :=
  unchanged_congr rfl rfl rfl rfl

theorem unchanged_note_conn (w' : Stack nT nU) (e : Entry nT nU) (slot : Slot nT nU)
    (f : Conn → Conn) :
    Unchanged w ((w'.note e).setConn slot f) ↔ Unchanged w (w'.setConn slot f) :=
  unchanged_congr rfl rfl rfl rfl

theorem unchanged_note_conn_s (w' : Stack nT nU) (e : Entry nT nU) (a b : Slot nT nU)
    (f : Conn → Conn) (g : ServerState nT nU → ServerState nT nU) :
    Unchanged w (((w'.note e).setConn a f).setS b g) ↔ Unchanged w ((w'.setConn a f).setS b g) :=
  unchanged_congr rfl rfl rfl rfl

theorem not_unchanged_deref (w' : Stack nT nU) : ¬ Unchanged w w'.deref := by
  intro h
  cases h.fault

theorem bindLocal_iff (hf : w.fault = false) (connId portNumber : Nat) :
    Unchanged w (xtcpdBindLocal w connId portNumber) ↔
      Written w (.bindLocal connId portNumber) := by
  unfold xtcpdBindLocal
  simp only [Written, AtSlot, AtConn]
  cases hl : lookupXtcpdState w connId with
  | none => simpa using not_unchanged_deref w
  | some slot =>
    have hconn : ((w.setConn slot fun c => { c with localPort := portNumber }).app slot).s.uipConn =
        (w.app slot).s.uipConn := by simp [Stack.setConn, Stack.setApp]
    have hport : ({ (w.app slot).conn with localPort := portNumber } : Conn) = (w.app slot).conn ↔
        (w.app slot).conn.localPort = portNumber :=
      ⟨fun h => (congrArg Conn.localPort h).symm, fun h => by rw [← h]⟩
    simp only [hconn, Option.some.injEq, exists_eq_left']
    cases hu : (w.app slot).s.uipConn with
    | none => simpa using not_unchanged_deref _
    | some conn =>
      simp only [Option.some.injEq, exists_eq_left']
      cases conn with
      | tcp i =>
        refine (unchanged_note_tcp _ _ i _).trans ?_
        refine (unchanged_conn_tcp hf slot _ i _).trans (and_congr hport ?_)
        exact ⟨fun h => (congrArg TcpConn.lport h).symm, fun h => by rw [← h]; rfl⟩
      | udp i =>
        refine (unchanged_note_udp _ _ i _).trans ?_
        refine (unchanged_conn_udp hf slot _ i _).trans (and_congr hport ?_)
        exact ⟨fun h => (congrArg UdpConn.lport h).symm, fun h => by rw [← h]; rfl⟩

theorem bindRemote_iff (hf : w.fault = false) (connId : Nat) (addr : Ipaddr) (portNumber : Nat) :
    Unchanged w (xtcpdBindRemote w connId addr portNumber) ↔
      Written w (.bindRemote connId addr portNumber) := by
  unfold xtcpdBindRemote
  simp only [Written, AtSlot, AtConn]
  cases hl : lookupXtcpdState w connId with
  | none => simpa using not_unchanged_deref w
  | some slot =>
    simp only [Option.some.injEq, exists_eq_left']
    by_cases hp : Protocol.ofWord (w.app slot).conn.protocol = .udp
    · have hconn : ((w.setConn slot fun c =>
          { c with remotePort := portNumber, remoteAddr := ipaddrWord addr }).app slot).s.uipConn =
          (w.app slot).s.uipConn := by simp [Stack.setConn, Stack.setApp]
      have hport : ({ (w.app slot).conn with
          remotePort := portNumber, remoteAddr := ipaddrWord addr } : Conn) = (w.app slot).conn ↔
          (w.app slot).conn.remotePort = portNumber ∧
            (w.app slot).conn.remoteAddr = ipaddrWord addr :=
        ⟨fun h => ⟨(congrArg Conn.remotePort h).symm, (congrArg Conn.remoteAddr h).symm⟩,
          fun h => by rw [← h.1, ← h.2]⟩
      simp only [hp, if_true, hconn, forall_const]
      cases hu : (w.app slot).s.uipConn with
      | none => simpa using not_unchanged_deref _
      | some conn =>
        simp only [Option.some.injEq, exists_eq_left']
        cases conn with
        | tcp i =>
          refine (unchanged_conn_tcp hf slot _ i _).trans
            ((and_congr hport ?_).trans and_assoc)
          exact ⟨fun h => ⟨(congrArg TcpConn.rport h).symm, (congrArg TcpConn.ripaddr h).symm⟩,
            fun h => by rw [← h.1, ← h.2]; rfl⟩
        | udp i =>
          refine (unchanged_conn_udp hf slot _ i _).trans
            ((and_congr hport ?_).trans and_assoc)
          exact ⟨fun h => ⟨(congrArg UdpConn.rport h).symm, (congrArg UdpConn.ripaddr h).symm⟩,
            fun h => by rw [← h.1, ← h.2]; rfl⟩
    · simpa [hp] using ⟨hf, rfl, rfl, rfl⟩

theorem setStopped_iff (hf : w.fault = false) (conn : Option (Slot nT nU)) :
    Unchanged w (setStopped w conn) ↔ ∃ c, conn = some c ∧ isStopped w c = true := by
  unfold setStopped
  rcases conn with _ | i | i
  · exact iff_of_false (not_unchanged_deref w) (by simp)
  · simp only [Option.some.injEq, exists_eq_left']
    refine (unchanged_setTcp hf i _).trans ?_
    exact ⟨fun h => (congrArg (fun c => c.tcpstateflags.stopped) h).symm,
      fun h => by rw [show true = (w.tcp i).tcpstateflags.stopped from h.symm]⟩
  · simp only [Option.some.injEq, exists_eq_left']
    refine (unchanged_note_conn _ _ (.udp i) _).trans ?_
    refine (unchanged_setConn hf (.udp i) _).trans (Iff.trans ?_ (or_bit _))
    exact ⟨fun h => congrArg Conn.connectionType h, fun h => by simp only [h]⟩

theorem pause_iff (hf : w.fault = false) (connId : Nat) :
    Unchanged w (xtcpdPause w connId) ↔ Written w (.pause connId) :=
  (unchanged_onState hf connId _).trans (forall₂_congr fun _ _ => setStopped_iff hf _)

theorem unchanged_tcp_s (hf : w.fault = false) (i : Fin nT) (g : TcpConn → TcpConn)
    (slot : Slot nT nU) (f : ServerState nT nU → ServerState nT nU) :
    Unchanged w ((w.setTcp i g).setS slot f) ↔
      g (w.tcp i) = w.tcp i ∧ f (w.app slot).s = (w.app slot).s := by
  rw [← unchanged_setS hf, ← unchanged_setTcp hf]
  exact ⟨fun h => ⟨⟨hf, h.tcp, rfl, rfl⟩, ⟨hf, rfl, rfl, h.app⟩⟩,
    fun h => ⟨hf, h.1.tcp, rfl, h.2.app⟩⟩

theorem clearStopped_iff (hf : w.fault = false) (conn : Option (Slot nT nU)) (slot : Slot nT nU)
    (f : ServerState nT nU → ServerState nT nU) :
    Unchanged w ((clearStopped w conn).setS slot f) ↔
      (∃ c, conn = some c ∧ isStopped w c = false) ∧ f (w.app slot).s = (w.app slot).s := by
  unfold clearStopped
  rcases conn with _ | i | i
  · refine iff_of_false ?_ (by simp)
    intro h
    cases h.fault
  · simp only [Option.some.injEq, exists_eq_left']
    refine (unchanged_tcp_s hf i _ slot f).trans (and_congr_left' ?_)
    exact ⟨fun h => (congrArg (fun c => c.tcpstateflags.stopped) h).symm,
      fun h => by rw [show false = (w.tcp i).tcpstateflags.stopped from h.symm]⟩
  · simp only [Option.some.injEq, exists_eq_left']
    refine (unchanged_note_conn_s _ _ (.udp i) slot _ f).trans ?_
    refine (unchanged_conn_s hf (.udp i) slot _ f).trans (and_congr_left' ?_)
    refine Iff.trans ?_ (xor_bit _)
    exact ⟨fun h => congrArg Conn.connectionType h, fun h => by simp only [h]⟩

theorem unpause_iff (hf : w.fault = false) (connId : Nat) :
    Unchanged w (xtcpdUnpause w connId) ↔ Written w (.unpause connId) := by
  refine (unchanged_onState hf connId _).trans (forall₂_congr fun slot _ => ?_)
  refine (clearStopped_iff hf _ slot _).trans (and_comm.trans (and_congr_left' ?_))
  exact ⟨fun h => (congrArg ServerState.ackRequest h).symm, fun h => by rw [← h]⟩

theorem setPollInterval_iff (hf : w.fault = false) (connId pollInterval : Nat) :
    Unchanged w (xtcpdSetPollInterval w connId pollInterval) ↔
      Written w (.setPollInterval connId pollInterval) := by
  refine (unchanged_onState hf connId _).trans (forall₂_congr fun slot _ => ?_)
  by_cases hp : Protocol.ofWord (w.app slot).conn.protocol = .udp
  · simp only [hp, if_true, forall_const]
    refine (unchanged_setS hf slot _).trans ?_
    exact ⟨fun h => (congrArg ServerState.pollInterval h).symm, fun h => by rw [← h]⟩
  · simpa [hp] using ⟨hf, rfl, rfl, rfl⟩

theorem initSend_iff (hf : w.fault = false) (connId : Nat) :
    Unchanged w (xtcpdInitSend w connId) ↔ Written w (.initSend connId) := by
  refine (unchanged_onState hf connId _).trans ?_
  simp only [Unless, Written, unchanged_setS hf]
  cases lookupXtcpdState w connId with
  | none => simp
  | some slot =>
    simp only [Option.some.injEq, forall_eq', reduceCtorEq, iff_false]
    intro h
    have hs := congrArg ServerState.sendRequest h
    simp at hs

theorem written_iff (hf : w.fault = false) (cfg : Config) (linknum : Nat) (c : ConnCommand) :
    Unchanged w (runCommand cfg w (linknum, c.val)) ↔ Written w c.val := by
  obtain ⟨c, hc⟩ := c
  cases c with
  | bindLocal connId portNumber => exact bindLocal_iff hf connId portNumber
  | bindRemote connId addr portNumber => exact bindRemote_iff hf connId addr portNumber
  | initSend connId => exact initSend_iff hf connId
  | setAppstate connId appstate =>
    refine (unchanged_onState hf connId _).trans (forall₂_congr fun slot _ => ?_)
    refine (unchanged_setConn hf slot _).trans ?_
    exact ⟨fun h => (congrArg Conn.appstate h).symm, fun h => by rw [← h]⟩
  | setPollInterval connId pollInterval => exact setPollInterval_iff hf connId pollInterval
  | close connId =>
    refine (unchanged_onState hf connId _).trans (forall₂_congr fun slot _ => ?_)
    refine (unchanged_setS hf slot _).trans ?_
    exact ⟨fun h => (congrArg ServerState.closeRequest h).symm, fun h => by rw [← h]⟩
  | abort connId =>
    refine (unchanged_onState hf connId _).trans (forall₂_congr fun slot _ => ?_)
    refine (unchanged_setS hf slot _).trans ?_
    exact ⟨fun h => (congrArg ServerState.abortRequest h).symm, fun h => by rw [← h]⟩
  | ackRecvMode connId =>
    refine (unchanged_onState hf connId _).trans (forall₂_congr fun slot _ => ?_)
    refine (unchanged_setS hf slot _).trans ?_
    exact ⟨fun h => (congrArg ServerState.ackRecvMode h).symm, fun h => by rw [← h]⟩
  | pause connId => exact pause_iff hf connId
  | unpause connId => exact unpause_iff hf connId
  | ackRecv connId => exact unpause_iff hf connId
  | _ => cases hc

end Xtcp.Uip
