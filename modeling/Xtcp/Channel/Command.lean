import Xtcp.Channel.Token

namespace Xtcp.Channel
open Session

structure Ipaddr where
  b0 : UInt8
  b1 : UInt8
  b2 : UInt8
  b3 : UInt8
  deriving DecidableEq, Repr

structure MacAddr where
  b0 : UInt8
  b1 : UInt8
  b2 : UInt8
  b3 : UInt8
  b4 : UInt8
  b5 : UInt8
  deriving DecidableEq, Repr

structure Ipconfig where
  ipaddr : Ipaddr
  netmask : Ipaddr
  gateway : Ipaddr
  deriving DecidableEq, Repr

inductive Protocol where
  | tcp
  | udp
  deriving DecidableEq, Repr

def Protocol.toWord : Protocol → Nat
  | .tcp => 0
  | .udp => 1

def Protocol.ofWord (n : Nat) : Protocol := if n = 0 then .tcp else .udp

@[simp] theorem Protocol.ofWord_toWord (p : Protocol) : ofWord p.toWord = p := by
  cases p <;> rfl

inductive XtcpCmd where
  | listen
  | unlisten
  | connect
  | bindLocal
  | bindRemote
  | initSend
  | setAppstate
  | close
  | abort
  | timedOut
  | setPollInterval
  | joinGroup
  | leaveGroup
  | getMacAddress
  | getIpconfig
  | ackRecv
  | ackRecvMode
  | pause
  | unpause
  | updateBufinfo
  | acceptPartialAck
  deriving DecidableEq, Repr

def XtcpCmd.all : List XtcpCmd :=
  [.listen, .unlisten, .connect, .bindLocal, .bindRemote, .initSend, .setAppstate, .close,
    .abort, .timedOut, .setPollInterval, .joinGroup, .leaveGroup, .getMacAddress, .getIpconfig,
    .ackRecv, .ackRecvMode, .pause, .unpause, .updateBufinfo, .acceptPartialAck]

def XtcpCmd.toWord (cmd : XtcpCmd) : Nat := all.idxOf cmd

def XtcpCmd.ofWord (n : Nat) : Option XtcpCmd := all[n]?

@[simp] theorem XtcpCmd.ofWord_toWord (cmd : XtcpCmd) : ofWord cmd.toWord = some cmd := by
  cases cmd <;> rfl

inductive Command where
  | listen (portNumber : Nat) (p : Protocol)
  | unlisten (portNumber : Nat)
  | connect (portNumber : Nat) (ipaddr : Ipaddr) (p : Protocol)
  | bindLocal (connId portNumber : Nat)
  | bindRemote (connId : Nat) (addr : Ipaddr) (portNumber : Nat)
  | initSend (connId : Nat)
  | setAppstate (connId appstate : Nat)
  | close (connId : Nat)
  | abort (connId : Nat)
  | setPollInterval (connId pollInterval : Nat)
  | joinGroup (addr : Ipaddr)
  | leaveGroup (addr : Ipaddr)
  | getMacAddress
  | getIpconfig
  | ackRecv (connId : Nat)
  | ackRecvMode (connId : Nat)
  | pause (connId : Nat)
  | unpause (connId : Nat)
  | acceptPartialAck (connId : Nat)
  deriving DecidableEq, Repr

structure Conn where
  id : Nat
  protocol : Nat
  connectionType : Nat
  event : Nat
  appstate : Nat
  remoteAddr : Nat
  remotePort : Nat
  localPort : Nat
  mss : Nat
  deriving DecidableEq, Repr

def Conn.words (c : Conn) : List Nat :=
  [c.id, c.protocol, c.connectionType, c.event, c.appstate, c.remoteAddr, c.remotePort,
    c.localPort, c.mss]

def Conn.ofWords (ws : List Nat) : Conn where
  id := ws.getD 0 0
  protocol := ws.getD 1 0
  connectionType := ws.getD 2 0
  event := ws.getD 3 0
  appstate := ws.getD 4 0
  remoteAddr := ws.getD 5 0
  remotePort := ws.getD 6 0
  localPort := ws.getD 7 0
  mss := ws.getD 8 0

@[simp] theorem Conn.ofWords_words (c : Conn) : ofWords c.words = c := rfl

inductive Reply where
  | done
  | mac (macAddr : MacAddr)
  | ipconfig (ipconfig : Ipconfig)
  | event (conn : Conn)
  deriving DecidableEq, Repr

def outIpaddr (a : Ipaddr) : Code Unit := do
  outuchar a.b0
  outuchar a.b1
  outuchar a.b2
  outuchar a.b3

def inIpaddr : Code Ipaddr := do
  let b0 ← inuchar
  let b1 ← inuchar
  let b2 ← inuchar
  let b3 ← inuchar
  return ⟨b0, b1, b2, b3⟩

-- The client waits for two ENDs: the answer to the token and either a second one or the
-- notification that crossed it. XS1_CT_PAUSE frees the route and reaches nobody.
def sendCmdRest (cmd : XtcpCmd) (connId : Nat) : Code Unit := do
  chkct .endToken
  chkct .endToken
  outuint cmd.toWord
  outuint connId
  outct .endToken
  chkct .endToken

def sendCmd (cmd : XtcpCmd) (connId : Nat) : Code Unit := do
  outct .cmdToken
  sendCmdRest cmd connId

def Command.cmd : Command → XtcpCmd
  | .listen _ _ => .listen
  | .unlisten _ => .unlisten
  | .connect _ _ _ => .connect
  | .bindLocal _ _ => .bindLocal
  | .bindRemote _ _ _ => .bindRemote
  | .initSend _ => .initSend
  | .setAppstate _ _ => .setAppstate
  | .close _ => .close
  | .abort _ => .abort
  | .setPollInterval _ _ => .setPollInterval
  | .joinGroup _ => .joinGroup
  | .leaveGroup _ => .leaveGroup
  | .getMacAddress => .getMacAddress
  | .getIpconfig => .getIpconfig
  | .ackRecv _ => .ackRecv
  | .ackRecvMode _ => .ackRecvMode
  | .pause _ => .pause
  | .unpause _ => .unpause
  | .acceptPartialAck _ => .acceptPartialAck

def Command.connId : Command → Nat
  | .bindLocal connId _ => connId
  | .bindRemote connId _ _ => connId
  | .initSend connId => connId
  | .setAppstate connId _ => connId
  | .close connId => connId
  | .abort connId => connId
  | .setPollInterval connId _ => connId
  | .ackRecv connId => connId
  | .ackRecvMode connId => connId
  | .pause connId => connId
  | .unpause connId => connId
  | .acceptPartialAck connId => connId
  | _ => 0

-- What each client function does on the channel after its send_cmd.
def Command.body : Command → Code Reply
  | .listen portNumber p => do
      master do
        outuint portNumber
        outuint p.toWord
      return .done
  | .unlisten portNumber => do
      master (outuint portNumber)
      return .done
  | .connect portNumber ipaddr p => do
      master do
        outuint portNumber
        outIpaddr ipaddr
        outuint p.toWord
      return .done
  | .bindLocal _ portNumber => do
      master (outuint portNumber)
      return .done
  | .bindRemote _ addr portNumber => do
      master do
        outIpaddr addr
        outuint portNumber
      return .done
  | .setAppstate _ appstate => do
      master (outuint appstate)
      return .done
  | .setPollInterval _ pollInterval => do
      master (outuint pollInterval)
      return .done
  | .joinGroup addr => do
      master (outIpaddr addr)
      return .done
  | .leaveGroup addr => do
      master (outIpaddr addr)
      return .done
  | .getMacAddress => do
      let b0 ← slave inuchar
      let b1 ← slave inuchar
      let b2 ← slave inuchar
      let b3 ← slave inuchar
      let b4 ← slave inuchar
      let b5 ← slave inuchar
      return .mac ⟨b0, b1, b2, b3, b4, b5⟩
  | .getIpconfig => do
      let r ← slave do
        let ipaddr ← inIpaddr
        let netmask ← inIpaddr
        let gateway ← inIpaddr
        return (⟨ipaddr, netmask, gateway⟩ : Ipconfig)
      return .ipconfig r
  | _ => return .done

def Command.afterToken (c : Command) : Code Reply := do
  sendCmdRest c.cmd c.connId
  c.body

def Command.call (c : Command) : Code Reply := do
  sendCmd c.cmd c.connId
  c.body

theorem Command.call_eq (c : Command) : c.call = .out .cmdToken c.afterToken := rfl

structure Net where
  ethaddr : MacAddr
  ipconfig : Ipconfig

def emptyNet : Net := ⟨⟨0, 0, 0, 0, 0, 0⟩, ⟨0, 0, 0, 0⟩, ⟨0, 0, 0, 0⟩, ⟨0, 0, 0, 0⟩⟩

def Command.reply (net : Net) : Command → Reply
  | .getMacAddress => .mac net.ethaddr
  | .getIpconfig => .ipconfig net.ipconfig
  | _ => .done

def handleXtcpCmd (net : Net) (cmd : Option XtcpCmd) (connId : Nat) : Code (Option Command) :=
  match cmd with
  | some .listen => slave do
      let portNumber ← inuint
      let protocol ← inuint
      return some (.listen portNumber (.ofWord protocol))
  | some .unlisten => slave do
      let portNumber ← inuint
      return some (.unlisten portNumber)
  | some .connect => slave do
      let portNumber ← inuint
      let ipaddr ← inIpaddr
      let protocol ← inuint
      return some (.connect portNumber ipaddr (.ofWord protocol))
  | some .bindRemote => slave do
      let ipaddr ← inIpaddr
      let portNumber ← inuint
      return some (.bindRemote connId ipaddr portNumber)
  | some .bindLocal => slave do
      let portNumber ← inuint
      return some (.bindLocal connId portNumber)
  | some .initSend => return some (.initSend connId)
  | some .setAppstate => slave do
      let appstate ← inuint
      return some (.setAppstate connId appstate)
  | some .abort => return some (.abort connId)
  | some .close => return some (.close connId)
  | some .setPollInterval => slave do
      let pollInterval ← inuint
      return some (.setPollInterval connId pollInterval)
  | some .joinGroup => slave do
      let ipaddr ← inIpaddr
      return some (.joinGroup ipaddr)
  | some .leaveGroup => slave do
      let ipaddr ← inIpaddr
      return some (.leaveGroup ipaddr)
  | some .getMacAddress => do
      master (outuchar net.ethaddr.b0)
      master (outuchar net.ethaddr.b1)
      master (outuchar net.ethaddr.b2)
      master (outuchar net.ethaddr.b3)
      master (outuchar net.ethaddr.b4)
      master (outuchar net.ethaddr.b5)
      return some .getMacAddress
  | some .getIpconfig => do
      master do
        outIpaddr net.ipconfig.ipaddr
        outIpaddr net.ipconfig.netmask
        outIpaddr net.ipconfig.gateway
      return some .getIpconfig
  | some .ackRecv => return some (.ackRecv connId)
  | some .ackRecvMode => return some (.ackRecvMode connId)
  | some .pause => return some (.pause connId)
  | some .unpause => return some (.unpause connId)
  | some .acceptPartialAck => return some (.acceptPartialAck connId)
  | some .timedOut => return none
  | some .updateBufinfo => return none
  | none => return none

def outEnd (send : Bool) : Code Unit := if send then outct .endToken else return ()

def serviceCmd (net : Net) (notified : Bool) : Code (Option Command) := do
  outct .endToken
  outEnd (!notified)
  let cmd ← inuint
  let connId ← inuint
  chkct .endToken
  outct .endToken
  let c ← handleXtcpCmd net (XtcpCmd.ofWord cmd) connId
  outEnd notified
  return c

def sendConnAndComplete (conn : Conn) : Code Unit := do
  Prog.outAll (conn.words.map .word)
  outct .endToken
  chkct .endToken

def inConn : Code Reply := do
  let ws ← Prog.inAll Tok.word? 9
  return .event (.ofWords ws)

def xtcpEvent : Code Reply := slave inConn

variable {R S U : Type}

theorem client_outIpaddr (a : Ipaddr) (p : Ipaddr → Code R) (q : Unit → Code S) (xs : List Tok) :
    Run (⟨inIpaddr >>= p,outIpaddr a >>= q,xs,[]⟩ : Link R S) ⟨p a,q (),xs,[]⟩ := by
  simp only [inIpaddr,outIpaddr,Prog.bind_assoc]
  refine (client_outuchar a.b0 _ _ _).trans ((client_outuchar a.b1 _ _ _).trans ?_)
  exact (client_outuchar a.b2 _ _ _).trans (client_outuchar a.b3 _ _ _)

theorem server_outIpaddr (a : Ipaddr) (p : Unit → Code R) (q : Ipaddr → Code S) (xs : List Tok) :
    Run (⟨outIpaddr a >>= p,inIpaddr >>= q,[],xs⟩ : Link R S) ⟨p (),q a,[],xs⟩ := by
  simp only [inIpaddr,outIpaddr,Prog.bind_assoc]
  refine (server_outuchar a.b0 _ _ _).trans ((server_outuchar a.b1 _ _ _).trans ?_)
  exact (server_outuchar a.b2 _ _ _).trans (server_outuchar a.b3 _ _ _)

theorem server_request {body : Code (Option Command)} {body' : Code Unit} {c : Command}
    (h : ∀ (p : Option Command → Code R) (q : Unit → Code S),
      Run (⟨body >>= p,body' >>= q,[],[]⟩ : Link R S) ⟨p (some c),q (),[],[]⟩)
    (p : Option Command → Code R) (q : Reply → Code S) :
    Run (⟨slave body >>= p,(master body' >>= fun _ => pure Reply.done) >>= q,[],[]⟩ : Link R S)
      ⟨p (some c),q .done,[],[]⟩ := by
  simpa only [Prog.bind_assoc,Prog.pure_eq,Prog.ret_bind] using
    server_slave h p fun _ => q .done

theorem server_outEthaddr (b : UInt8) (p : Unit → Code R) (q : UInt8 → Code S) :
    Run (⟨master (outuchar b) >>= p,slave inuchar >>= q,[],[]⟩ : Link R S) ⟨p (),q b,[],[]⟩ :=
  server_master (fun p q => server_outuchar b p q []) p q

theorem server_handle (net : Net) (c : Command) (p : Option Command → Code R)
    (q : Reply → Code S) :
    Run (⟨handleXtcpCmd net (some c.cmd) c.connId >>= p,c.body >>= q,[],[]⟩ : Link R S)
      ⟨p (some c),q (c.reply net),[],[]⟩ := by
  cases c with
  | listen portNumber protocol =>
    refine server_request ?_ p q
    intro p q
    simp only [Prog.bind_assoc]
    refine (client_outuint portNumber _ _ _).trans ?_
    simpa using client_outuint protocol.toWord
      (fun w => p (some (.listen portNumber (.ofWord w)))) q []
  | unlisten portNumber =>
    refine server_request ?_ p q
    intro p q
    simpa using client_outuint portNumber (fun w => p (some (.unlisten w))) q []
  | connect portNumber ipaddr protocol =>
    refine server_request ?_ p q
    intro p q
    simp only [Prog.bind_assoc]
    refine (client_outuint portNumber _ _ _).trans ((client_outIpaddr ipaddr _ _ _).trans ?_)
    simpa using client_outuint protocol.toWord
      (fun w => p (some (.connect portNumber ipaddr (.ofWord w)))) q []
  | bindLocal connId portNumber =>
    refine server_request ?_ p q
    intro p q
    simpa [Command.connId] using client_outuint portNumber
      (fun w => p (some (.bindLocal connId w))) q []
  | bindRemote connId addr portNumber =>
    refine server_request ?_ p q
    intro p q
    simp only [Prog.bind_assoc]
    refine (client_outIpaddr addr _ _ _).trans ?_
    simpa [Command.connId] using client_outuint portNumber
      (fun w => p (some (.bindRemote connId addr w))) q []
  | setAppstate connId appstate =>
    refine server_request ?_ p q
    intro p q
    simpa [Command.connId] using client_outuint appstate
      (fun w => p (some (.setAppstate connId w))) q []
  | setPollInterval connId pollInterval =>
    refine server_request ?_ p q
    intro p q
    simpa [Command.connId] using client_outuint pollInterval
      (fun w => p (some (.setPollInterval connId w))) q []
  | joinGroup addr =>
    refine server_request ?_ p q
    intro p q
    simpa using client_outIpaddr addr (fun a => p (some (.joinGroup a))) q []
  | leaveGroup addr =>
    refine server_request ?_ p q
    intro p q
    simpa using client_outIpaddr addr (fun a => p (some (.leaveGroup a))) q []
  | getMacAddress =>
    simp only [Command.cmd,Command.body,handleXtcpCmd,Prog.bind_assoc]
    refine (server_outEthaddr _ _ _).trans ((server_outEthaddr _ _ _).trans ?_)
    refine (server_outEthaddr _ _ _).trans ((server_outEthaddr _ _ _).trans ?_)
    exact (server_outEthaddr _ _ _).trans (server_outEthaddr _ _ _)
  | getIpconfig =>
    simp only [Command.cmd,Command.body,handleXtcpCmd,Prog.bind_assoc]
    refine server_master (r := ()) (s := net.ipconfig) ?_ _ _
    intro p q
    simp only [Prog.bind_assoc]
    refine (server_outIpaddr _ _ _ _).trans ((server_outIpaddr _ _ _ _).trans ?_)
    exact server_outIpaddr net.ipconfig.gateway _ _ _
  | _ => exact .refl

def ends (notified : Bool) : List Tok := if notified then [.endToken] else []

theorem server_serviceCmd (net : Net) (c : Command) (notified : Bool)
    (p : Option Command → Code R) (q : Reply → Code S) :
    Run (⟨serviceCmd net notified >>= p,c.afterToken >>= q,ends notified,[]⟩ : Link R S)
      ⟨p (some c),q (c.reply net),ends notified,[]⟩ := by
  simp only [serviceCmd,Command.afterToken,sendCmdRest,Prog.bind_assoc,Prog.pure_eq,
    Prog.ret_bind]
  have hrest : ∀ p : Option Command → Code R,
      Run (⟨inuint >>= fun cmd => inuint >>= fun connId => chkct .endToken >>= fun _ =>
          outct .endToken >>= fun _ => handleXtcpCmd net (XtcpCmd.ofWord cmd) connId >>= p,
        outuint c.cmd.toWord >>= fun _ => outuint c.connId >>= fun _ => outct .endToken >>=
          fun _ => chkct .endToken >>= fun _ => c.body >>= q,[],[]⟩ : Link R S)
      ⟨p (some c),q (c.reply net),[],[]⟩ := by
    intro p
    refine (client_outuint _ _ _ _).trans ((client_outuint _ _ _ _).trans ?_)
    refine (client_outct _ _ _ _).trans ((server_outct _ _ _ _).trans ?_)
    rw [XtcpCmd.ofWord_toWord]
    exact server_handle net c p q
  cases notified with
  | false =>
    refine (server_outct _ _ _ _).trans ((server_outct _ _ _ _).trans ?_)
    exact hrest fun c => outEnd false >>= fun _ => p c
  | true =>
    refine (client_chkct _ _ _ _ _).trans ((server_outct _ _ _ _).trans ?_)
    refine (hrest fun c => outEnd true >>= fun _ => p c).trans ?_
    exact server_sends _ _ _ _ _

theorem server_sendConn (conn : Conn) (p : Unit → Code R) (q : Reply → Code S) :
    Run (⟨sendConnAndComplete conn >>= p,
      (inConn >>= fun r => chkct .endToken >>= fun _ => outct .endToken >>= fun _ => q r),[],[]⟩ :
        Link R S) ⟨p (),q (.event conn),[],[]⟩ := by
  simp only [sendConnAndComplete,inConn,Prog.bind_assoc,Prog.pure_eq,Prog.ret_bind]
  refine (toClient_all Tok.word? .word (fun _ => rfl) conn.words _ _ []).trans ?_
  exact (server_outct _ _ _ _).trans (client_outct _ _ _ _)

end Xtcp.Channel
