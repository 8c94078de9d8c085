import Mathlib.Tactic.Common
import Xtcp.Library.Session

namespace Xtcp.Channel
open Session

inductive Tok where
  | endToken
  | cmdToken
  | word (n : Nat)
  | byte (b : UInt8)
  deriving DecidableEq, Repr

abbrev Code := Prog Tok

abbrev Link := Pair Tok

def outct (t : Tok) : Code Unit := .out t (.ret ())

def chkct (t : Tok) : Code Unit := .inp fun u => if u = t then .ret () else .trap

def outuint (n : Nat) : Code Unit := outct (.word n)

def Tok.word? : Tok → Option Nat
  | .word n => some n
  | _ => none

def Tok.byte? : Tok → Option UInt8
  | .byte b => some b
  | _ => none

def inuint : Code Nat := .inp fun t => match t.word? with
  | some n => .ret n
  | none => .trap

def outuchar (b : UInt8) : Code Unit := outct (.byte b)

def inuchar : Code UInt8 := .inp fun t => match t.byte? with
  | some b => .ret b
  | none => .trap

variable {R S U V : Type}

-- Both ends of a transaction synchronise with an END each way, before the body and after it.
def master (body : Code R) : Code R := do
  outct .endToken
  chkct .endToken
  let r ← body
  outct .endToken
  chkct .endToken
  return r

def slave (body : Code R) : Code R := do
  chkct .endToken
  outct .endToken
  let r ← body
  chkct .endToken
  outct .endToken
  return r

theorem outct_bind (t : Tok) (p : Unit → Code R) : outct t >>= p = .out t (p ()) := rfl

theorem chkct_bind (t : Tok) (p : Unit → Code R) :
    chkct t >>= p = .inp fun u => if u = t then p () else .trap := by
  simp only [chkct,Prog.inp_bind]
  congr 1
  funext u
  split <;> rfl

theorem inuint_bind (p : Nat → Code R) :
    inuint >>= p = .inp fun t => match t.word? with
      | some n => p n
      | none => .trap := by
  simp only [inuint,Prog.inp_bind]
  congr 1
  funext t
  cases t.word? <;> rfl

theorem client_chkct (t : Tok) (p : Code R) (q : Unit → Code S) (a b : List Tok) :
    Run (⟨p,chkct t >>= q,t :: a,b⟩ : Link R S) ⟨p,q (),a,b⟩ := by
  rw [chkct_bind]
  refine .single (Move.client ?_)
  simpa using ClientMove.inp (fun u => if u = t then q () else .trap) p t a b

theorem server_sends (t : Tok) (p : Unit → Code R) (q : Code S) (a b : List Tok) :
    Run (⟨outct t >>= p,q,a,b⟩ : Link R S) ⟨p (),q,a ++ [t],b⟩ :=
  .single (Move.server (.out t (p ()) q a b))

theorem server_outct (t : Tok) (p : Unit → Code R) (q : Unit → Code S) (b : List Tok) :
    Run (⟨outct t >>= p,chkct t >>= q,[],b⟩ : Link R S) ⟨p (),q (),[],b⟩ := by
  rw [outct_bind,chkct_bind]
  simpa using toClient_sync t (p ()) (fun u => if u = t then q () else .trap) b

theorem client_outct (t : Tok) (p : Unit → Code R) (q : Unit → Code S) (a : List Tok) :
    Run (⟨chkct t >>= p,outct t >>= q,a,[]⟩ : Link R S) ⟨p (),q (),a,[]⟩ := by
  rw [outct_bind,chkct_bind]
  simpa using toServer_sync t (q ()) (fun u => if u = t then p () else .trap) a

theorem client_outuint (n : Nat) (p : Nat → Code R) (q : Unit → Code S) (a : List Tok) :
    Run (⟨inuint >>= p,outuint n >>= q,a,[]⟩ : Link R S) ⟨p n,q (),a,[]⟩ := by
  rw [inuint_bind]
  exact toServer_sync (.word n) (q ()) _ a

theorem server_outuint (n : Nat) (p : Unit → Code R) (q : Nat → Code S) (b : List Tok) :
    Run (⟨outuint n >>= p,inuint >>= q,[],b⟩ : Link R S) ⟨p (),q n,[],b⟩ := by
  rw [inuint_bind]
  exact toClient_sync (.word n) (p ()) _ b

theorem inuchar_bind (p : UInt8 → Code R) :
    inuchar >>= p = .inp fun t => match t.byte? with
      | some b => p b
      | none => .trap := by
  simp only [inuchar,Prog.inp_bind]
  congr 1
  funext t
  cases t.byte? <;> rfl

theorem client_outuchar (b : UInt8) (p : UInt8 → Code R) (q : Unit → Code S) (a : List Tok) :
    Run (⟨inuchar >>= p,outuchar b >>= q,a,[]⟩ : Link R S) ⟨p b,q (),a,[]⟩ := by
  rw [inuchar_bind]
  exact toServer_sync (.byte b) (q ()) _ a

theorem server_outuchar (b : UInt8) (p : Unit → Code R) (q : UInt8 → Code S) (a : List Tok) :
    Run (⟨outuchar b >>= p,inuchar >>= q,[],a⟩ : Link R S) ⟨p (),q b,[],a⟩ := by
  rw [inuchar_bind]
  exact toClient_sync (.byte b) (p ()) _ a

theorem server_slave {body : Code R} {body' : Code S} {r : R} {r' : S}
    (h : ∀ (p : R → Code U) (q : S → Code V),
      Run (⟨body >>= p,body' >>= q,[],[]⟩ : Link U V) ⟨p r,q r',[],[]⟩)
    (p : R → Code U) (q : S → Code V) :
    Run (⟨slave body >>= p,master body' >>= q,[],[]⟩ : Link U V) ⟨p r,q r',[],[]⟩ := by
  simp only [slave,master,Prog.bind_assoc,Prog.pure_eq,Prog.ret_bind]
  refine (client_outct _ _ _ _).trans ((server_outct _ _ _ _).trans ?_)
  refine (h _ _).trans ?_
  exact (client_outct _ _ _ _).trans (server_outct _ _ _ _)

theorem server_master {body : Code R} {body' : Code S} {r : R} {s : S}
    (h : ∀ (p : R → Code U) (q : S → Code V),
      Run (⟨body >>= p,body' >>= q,[],[]⟩ : Link U V) ⟨p r,q s,[],[]⟩)
    (p : R → Code U) (q : S → Code V) :
    Run (⟨master body >>= p,slave body' >>= q,[],[]⟩ : Link U V) ⟨p r,q s,[],[]⟩ := by
  simp only [slave,master,Prog.bind_assoc,Prog.pure_eq,Prog.ret_bind]
  refine (server_outct _ _ _ _).trans ((client_outct _ _ _ _).trans ?_)
  refine (h _ _).trans ?_
  exact (server_outct _ _ _ _).trans (client_outct _ _ _ _)

end Xtcp.Channel
