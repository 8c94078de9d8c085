import Mathlib.Logic.Function.Basic
import Xtcp.Library.Mailbox
import Xtcp.Channel.Command

namespace Xtcp.Channel
open Session Relation

inductive Call where
  | command (c : Command)
  | event
  deriving DecidableEq, Repr

def Call.code : Call → Code Reply
  | .command c => c.call
  | .event => xtcpEvent

inductive Served where
  | idle
  | delivered (event : Nat)
  | command (c : Option Command)
  | record (conn : Conn)
  deriving DecidableEq, Repr

inductive Mark where
  | queued (event : Nat)
  | notification
  | answered
  | delivered (event : Nat)
  | command (c : Option Command)
  | record (conn : Conn)
  deriving DecidableEq, Repr

structure Chan where
  pair : Link Served Reply
  notified : Bool
  pendingEvent : Option Nat
  hist : List Mark

inductive Ctl (n : Nat) where
  | main
  | serviceClients (k : Nat) (activity : Bool)
  | untilReady (w : Fin n) (k : Nat)
  | ready (w : Fin n)
  | exchange (i : Fin n) (next : Ctl n)

structure Sys (n : Nat) where
  links : Fin n → Chan
  ctl : Ctl n

def dummyConn (event : Nat) : Conn := ⟨0, 0, 0, event, 0, 0, 0, 0, 0⟩

def Chan.mark (l : Chan) (m : Mark) : Chan := { l with hist := l.hist ++ [m] }

def Chan.note (l : Chan) : Chan :=
  { l with
    pair := { l.pair with toClient := l.pair.toClient ++ [.endToken] }
    notified := true
    hist := l.hist ++ [.notification] }

def Chan.notify (l : Chan) : Chan := if l.notified then l else l.note

def xtcpdQueueEvent (l : Chan) (event : Nat) : Chan :=
  Chan.notify { l with pendingEvent := some event, hist := l.hist ++ [.queued event] }

def deliver (event : Nat) : Code Served := do
  sendConnAndComplete (dummyConn event)
  return .delivered event

def sendEvent (conn : Conn) : Code Served := do
  sendConnAndComplete conn
  return .record conn

def serve (net : Net) (notified : Bool) : Code Served := do
  let c ← serviceCmd net notified
  return .command c

def xtcpdServiceClient0 (net : Net) (l : Chan) : Chan :=
  match l.pair.toServer with
  | [] => l
  | .endToken :: rest =>
      { l with
        pair := { l.pair with
          server := match l.pendingEvent with
            | some event => deliver event
            | none => l.pair.server
          toServer := rest }
        notified := false
        hist := l.hist ++ [.answered] }
  | .cmdToken :: rest =>
      { l with pair := { l.pair with server := serve net l.notified, toServer := rest } }
  | _ :: rest => { l with pair := { l.pair with server := .trap, toServer := rest } }

def Chan.rest (l : Chan) : Chan := { l with pair := { l.pair with server := .ret .idle } }

def finish (waiting : Bool) (l : Chan) : Served → Chan
  | .idle => l
  | .delivered event =>
      let l := { l.rest with pendingEvent := none, hist := l.hist ++ [.delivered event] }
      if waiting then l.note else l
  | .command c => l.rest.mark (.command c)
  | .record conn => l.rest.mark (.record conn)

def Ctl.waitsOn {n : Nat} (i : Fin n) : Ctl n → Bool
  | .untilReady w _ => w == i
  | .ready w => w == i
  | .exchange _ next => waitsOn i next
  | _ => false

variable {n : Nat}

def Sys.setLink (s : Sys n) (i : Fin n) (l : Chan) : Sys n :=
  { s with links := Function.update s.links i l }

inductive Step (net : Net) (s : Sys n) : Sys n → Prop
  | call (i : Fin n) (c : Call) (r : Reply) (h : (s.links i).pair.client = .ret r) :
      Step net s (s.setLink i
        { s.links i with pair := { (s.links i).pair with client := c.code } })
  | client (i : Fin n) (x : Link Served Reply) (h : ClientMove (s.links i).pair x) :
      Step net s (s.setLink i { s.links i with pair := x })
  | queueEvent (i : Fin n) (event : Nat) (h : s.ctl = .main) :
      Step net s (s.setLink i (xtcpdQueueEvent (s.links i) event))
  | serviceClients (h : s.ctl = .main) :
      Step net s { s with ctl := .serviceClients 0 false }
  | service (i : Fin n) (activity : Bool) (h : s.ctl = .serviceClients i activity) :
      Step net s { s.setLink i (xtcpdServiceClient0 net (s.links i)) with
        ctl := .exchange i (.serviceClients (i + 1)
          (activity || !(s.links i).pair.toServer.isEmpty)) }
  | again (h : s.ctl = .serviceClients n true) :
      Step net s { s with ctl := .serviceClients 0 false }
  | served (h : s.ctl = .serviceClients n false) :
      Step net s { s with ctl := .main }
  | untilReady (w : Fin n) (h : s.ctl = .main) :
      Step net s { s.setLink w (s.links w).notify with ctl := .untilReady w 0 }
  | wait (w i : Fin n) (h : s.ctl = .untilReady w i) :
      Step net s { s.setLink i (xtcpdServiceClient0 net (s.links i)) with
        ctl := .exchange i (.untilReady w (i + 1)) }
  | waitAgain (w : Fin n) (h : s.ctl = .untilReady w n) (hn : (s.links w).notified = true) :
      Step net s { s with ctl := .untilReady w 0 }
  | waitDone (w : Fin n) (h : s.ctl = .untilReady w n) (hn : (s.links w).notified = false) :
      Step net s { s with ctl := .ready w }
  | sendEvent (w : Fin n) (conn : Conn) (h : s.ctl = .ready w) :
      Step net s { s.setLink w
        { s.links w with pair := { (s.links w).pair with server := sendEvent conn } } with
        ctl := .exchange w .main }
  | server (i : Fin n) (next : Ctl n) (x : Link Served Reply) (h : s.ctl = .exchange i next)
      (hm : ServerMove (s.links i).pair x) :
      Step net s (s.setLink i { s.links i with pair := x })
  | finish (i : Fin n) (next : Ctl n) (v : Served) (h : s.ctl = .exchange i next)
      (hr : (s.links i).pair.server = .ret v) :
      Step net s { s.setLink i (finish (next.waitsOn i) (s.links i) v) with ctl := next }

def start (n : Nat) : Sys n where
  links _ := ⟨⟨.ret .idle, .ret .done, [], []⟩, false, none, []⟩
  ctl := .main

def Reachable (net : Net) (s : Sys n) : Prop := ReflTransGen (Step net) (start n) s

end Xtcp.Channel
