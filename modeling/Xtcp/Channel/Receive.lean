import Mathlib.Logic.Function.Basic
import Xtcp.Channel.Position

namespace Xtcp.Channel
open Session Relation

def doRecv (data : List UInt8) : Code Bool := do
  let clientReady ← inuint
  if clientReady ≠ 0 then
    outuint data.length
    Prog.outAll (data.map .byte)
    return true
  else return false

-- xtcpd_service_clients_until_ready on the link itself, its notification already sent.
def untilAnswered (net : Net) : Nat → Code Unit
  | 0 => .trap
  | fuel + 1 => .inp fun t => match t with
      | .endToken => .ret ()
      | .cmdToken => serviceCmd net true >>= fun _ => untilAnswered net fuel
      | _ => .trap

def xtcpdRecv (net : Net) (conn : Nat → Conn) (data : List UInt8) : Nat → Code Unit
  | 0 => .trap
  | fuel + 1 => do
      sendConnAndComplete (conn fuel)
      let clientReady ← master (doRecv data)
      if clientReady then outct .endToken
      else
        outct .endToken
        untilAnswered net fuel
        xtcpdRecv net conn data fuel

def writeFrom (data : Nat → UInt8) (i : Nat) : List UInt8 → Nat → UInt8
  | [] => data
  | b :: bs => writeFrom (Function.update data i b) (i + 1) bs

def inData : Code (List UInt8) := do
  outuint 1
  let len ← inuint
  Prog.inAll Tok.byte? len

abbrev Received := (Nat → UInt8) × Nat

def xtcpRecvi (data : Nat → UInt8) (index : Nat) : Code Received := do
  let bs ← slave inData
  chkct .endToken
  return (writeFrom data index bs, bs.length)

def xtcpRecv (data : Nat → UInt8) : Code Received := xtcpRecvi data 0

def xtcpRecvCount (data : Nat → UInt8) (count : Int) : Code Received := do
  let bs ← slave inData
  let rxc := if count < bs.length then count else bs.length
  chkct .endToken
  return (writeFrom data 0 (bs.take rxc.toNat), bs.length)

def xtcpIgnoreRecv (data : Nat → UInt8) : Code Received := do
  let _ ← slave inData
  return (data, 0)

inductive RecvCall where
  | recv
  | recvi (index : Nat)
  | recvCount (count : Int)
  | ignoreRecv
  deriving DecidableEq, Repr

def RecvCall.code (data : Nat → UInt8) : RecvCall → Code Received
  | .recv => xtcpRecv data
  | .recvi index => xtcpRecvi data index
  | .recvCount count => xtcpRecvCount data count
  | .ignoreRecv => xtcpIgnoreRecv data

def RecvCall.result (data : Nat → UInt8) (payload : List UInt8) : RecvCall → Received
  | .recv => (writeFrom data 0 payload, payload.length)
  | .recvi index => (writeFrom data index payload, payload.length)
  | .recvCount count => (writeFrom data 0 (payload.take count.toNat), payload.length)
  | .ignoreRecv => (data, 0)

def calls : List Command → Code Unit
  | [] => .ret ()
  | c :: cs => c.call >>= fun _ => calls cs

-- Each round the client answers "not ready", issues commands and waits for the next event.
def delays : List (List Command) → Code Unit
  | [] => .ret ()
  | cs :: rounds => do
      slave (outuint 0)
      calls cs
      let _ ← xtcpEvent
      delays rounds

def receiver (rounds : List (List Command)) (data : Nat → UInt8) (call : RecvCall) :
    Code Received := do
  let _ ← afterAnswer
  delays rounds
  call.code data

def turns : List (List Command) → Nat
  | [] => 1
  | cs :: rounds => cs.length + 1 + turns rounds

theorem turns_pos (rounds : List (List Command)) : 0 < turns rounds := by
  cases rounds with
  | nil => exact Nat.one_pos
  | cons cs rounds => simp only [turns]; omega

variable {R S : Type}

theorem server_doRecv_delay (data : List UInt8) (p : Bool → Code R) (q : Unit → Code S) :
    Run (⟨master (doRecv data) >>= p,slave (outuint 0) >>= q,[],[]⟩ : Link R S)
      ⟨p false,q (),[],[]⟩ := by
  refine server_master (r := false) (s := ()) ?_ p q
  intro p q
  simp only [doRecv,Prog.bind_assoc]
  exact client_outuint 0 _ q []

theorem server_doRecv (data : List UInt8) (p : Bool → Code R) (q : List UInt8 → Code S) :
    Run (⟨master (doRecv data) >>= p,slave inData >>= q,[],[]⟩ : Link R S)
      ⟨p true,q data,[],[]⟩ := by
  refine server_master (r := true) (s := data) ?_ p q
  intro p q
  simp only [doRecv,inData,Prog.bind_assoc]
  refine (client_outuint 1 _ _ []).trans ?_
  rw [if_pos (by decide)]
  simp only [Prog.bind_assoc]
  refine (server_outuint data.length _ _ []).trans ?_
  exact toClient_all Tok.byte? .byte (fun _ => rfl) data _ _ []

theorem untilAnswered_bind (net : Net) (fuel : Nat) (p : Unit → Code R) :
    untilAnswered net (fuel + 1) >>= p = .inp fun t => match t with
      | .endToken => p ()
      | .cmdToken => serviceCmd net true >>= fun _ => untilAnswered net fuel >>= p
      | _ => .trap := by
  rw [untilAnswered,Prog.inp_bind]
  congr 1
  funext t
  cases t <;> simp

theorem server_untilAnswered (net : Net) (cs : List Command) (fuel : Nat)
    (hf : cs.length < fuel) (p : Unit → Code R) (q : Reply → Code S) :
    Run (⟨untilAnswered net fuel >>= p,calls cs >>= fun _ => xtcpEvent >>= q,[.endToken],[]⟩ :
      Link R S) ⟨p (),afterAnswer >>= q,[],[]⟩ := by
  induction cs generalizing fuel with
  | nil =>
    obtain ⟨fuel, rfl⟩ : ∃ m, fuel = m + 1 := ⟨fuel - 1, by simp at hf; omega⟩
    rw [xtcpEvent_eq,untilAnswered_bind]
    simp only [calls,Prog.ret_bind,Prog.bind_assoc]
    refine (client_chkct _ _ _ _ _).trans ?_
    exact toServer_sync Tok.endToken _ _ []
  | cons c cs ih =>
    obtain ⟨fuel, rfl⟩ : ∃ m, fuel = m + 1 := ⟨fuel - 1, by simp at hf; omega⟩
    simp only [calls,Prog.bind_assoc]
    rw [Command.call_eq,untilAnswered_bind]
    refine (toServer_sync Tok.cmdToken _ _ _).trans ?_
    refine (server_serviceCmd net c true _ _).trans ?_
    exact ih fuel (by simpa using hf)

theorem server_record (conn : Conn) (p : Unit → Code R) (q : Reply → Code S) :
    Run (⟨sendConnAndComplete conn >>= p,afterAnswer >>= q,[],[]⟩ : Link R S)
      ⟨p (),q (.event conn),[],[]⟩ := by
  simp only [afterAnswer,Prog.bind_assoc,Prog.pure_eq,Prog.ret_bind]
  exact server_sendConn conn p q

theorem server_xtcpdRecv (net : Net) (conn : Nat → Conn) (payload : List UInt8)
    (rounds : List (List Command)) (extra : Nat) (q : List UInt8 → Code S) :
    Run (⟨xtcpdRecv net conn payload (turns rounds + extra),
        (afterAnswer >>= fun _ => delays rounds >>= fun _ => slave inData >>= q),[],[]⟩ :
      Link Unit S) ⟨.ret (),q payload,[.endToken],[]⟩ := by
  induction rounds generalizing extra with
  | nil =>
    rw [turns, Nat.add_comm, xtcpdRecv]
    simp only [delays,Prog.ret_bind]
    refine (server_record _ _ _).trans ((server_doRecv payload _ _).trans ?_)
    exact .single (.server (.out Tok.endToken _ _ [] []))
  | cons cs rounds ih =>
    have hf : turns (cs :: rounds) + extra = (cs.length + turns rounds + extra) + 1 := by
      rw [turns]
      omega
    rw [hf, xtcpdRecv]
    simp only [delays,Prog.bind_assoc]
    refine (server_record _ _ _).trans ((server_doRecv_delay payload _ _).trans ?_)
    refine (server_sends Tok.endToken _ _ _ _).trans ?_
    refine (server_untilAnswered net cs _ ?_ _ _).trans ?_
    · have := turns_pos rounds
      omega
    · rw [show cs.length + turns rounds + extra = turns rounds + (cs.length + extra) by omega]
      exact ih (cs.length + extra)

def recvLink (net : Net) (conn : Nat → Conn) (payload : List UInt8)
    (rounds : List (List Command)) (extra : Nat) (data : Nat → UInt8) (call : RecvCall) :
    Link Unit Received :=
  ⟨xtcpdRecv net conn payload (turns rounds + extra),receiver rounds data call,[],[]⟩

def RecvCall.residue : RecvCall → List Tok
  | .ignoreRecv => [.endToken]
  | _ => []

theorem recv_final (net : Net) (conn : Nat → Conn) (payload : List UInt8)
    (rounds : List (List Command)) (extra : Nat) (data : Nat → UInt8) (call : RecvCall) :
    Run (recvLink net conn payload rounds extra data call)
      ⟨.ret (),.ret (call.result data payload),call.residue,[]⟩ := by
  have hrun := fun q : List UInt8 → Code Received =>
    server_xtcpdRecv net conn payload rounds extra q
  cases call with
  | recv => exact (hrun _).trans (client_chkct _ _ _ _ _)
  | recvi index => exact (hrun _).trans (client_chkct _ _ _ _ _)
  | recvCount count =>
    refine (hrun _).trans ((client_chkct _ _ _ _ _).trans ?_)
    have htake : payload.take (if count < payload.length then count else payload.length).toNat =
        payload.take count.toNat := by
      split
      · rfl
      · rw [List.take_of_length_le (by omega), List.take_of_length_le (by omega)]
    simp only [Prog.pure_eq, htake]
    exact .refl
  | ignoreRecv => exact hrun _

theorem recv_exact_iff (net : Net) (conn : Nat → Conn) (payload : List UInt8)
    (rounds : List (List Command)) (extra : Nat) (data : Nat → UInt8) (call : RecvCall) :
    (∀ x, Run (recvLink net conn payload rounds extra data call) x →
      Run x ⟨.ret (),.ret (call.result data payload),[],[]⟩) ↔ call ≠ .ignoreRecv := by
  have hfinal := recv_final net conn payload rounds extra data call
  constructor
  · rintro h rfl
    have hend := congrArg Pair.toClient (final_unique hfinal (final_ret _ _ _ _) (h _ .refl)
      (final_ret _ _ _ _))
    simp [RecvCall.residue] at hend
  · intro hc x hx
    have hr : call.residue = [] := by cases call <;> first | rfl | exact absurd rfl hc
    rw [hr] at hfinal
    exact run_to_final hfinal (final_ret _ _ _ _) hx

theorem ignore_recv_leaves_end :
    ¬ ∀ (payload : List UInt8) (call : RecvCall) (x : Link Unit Received),
      Run (recvLink emptyNet (fun _ => dummyConn 1) payload [] 0 (fun _ => 0) call) x →
        Run x ⟨.ret (),.ret (call.result (fun _ => 0) payload),[],[]⟩ := by
  intro h
  have hfinal := recv_final emptyNet (fun _ => dummyConn 1) [65] [] 0 (fun _ => 0) .ignoreRecv
  have hend := congrArg Pair.toClient (final_run (final_ret _ _ _ _) (h [65] .ignoreRecv _ hfinal))
  simp [RecvCall.residue] at hend

end Xtcp.Channel
