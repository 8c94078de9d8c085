import Mathlib.Tactic.Common
import Xtcp.Library.SlotTable

namespace Xtcp.Listen
open SlotTable

def htons (n : Nat) : Nat := (n % 256) * 256 + n / 256 % 256

theorem htons_htons {n : Nat} (h : n < 65536) : htons (htons n) = n := by
  have hd : htons n / 256 = n % 256 := by unfold htons; omega
  have hm : htons n % 256 = n / 256 := by unfold htons; omega
  change htons n % 256 * 256 + htons n / 256 % 256 = n
  rw [hd, hm]
  omega

structure Listener where
  active : Bool
  portNumber : Nat
  linknum : Nat
  deriving DecidableEq, Repr

def Listener.empty : Listener := ⟨false, 0, 0⟩

def Listener.key (l : Listener) : Option Nat := if l.active then some l.portNumber else none

def Listener.stop (l : Listener) : Listener := { l with active := false }

def portKey (p : Nat) : Option Nat := if p = 0 then none else some p

structure Tables where
  tcpListeners : List Listener
  udpListeners : List Listener
  listenports : List Nat
  udpListenports : List Nat
  deriving DecidableEq, Repr

def getListenerLinknum (listeners : List Listener) (localPort : Nat) : Option Nat :=
  (listeners.find? fun l => l.active && localPort == l.portNumber).map Listener.linknum

def registerListener (listeners : List Listener) (linknum portNumber : Nat) : List Listener :=
  putFirst Listener.key ⟨true, htons portNumber, linknum⟩ listeners

def unregisterListener (listeners : List Listener) (portNumber : Nat) : List Listener :=
  clearAll Listener.key Listener.stop (htons portNumber) listeners

def uipListen (ports : List Nat) (port : Nat) : List Nat := putFirst portKey port ports

def uipUnlisten : List Nat → Nat → List Nat
  | [], _ => []
  | q :: ports, port => if q = port then 0 :: ports else q :: uipUnlisten ports port

def xtcpdUnlisten (t : Tables) (portNumber : Nat) : Tables :=
  { t with
    tcpListeners := unregisterListener t.tcpListeners portNumber
    listenports := uipUnlisten t.listenports (htons portNumber) }

def xtcpdListenTcp (t : Tables) (linknum portNumber : Nat) : Tables :=
  { t with
    tcpListeners := registerListener t.tcpListeners linknum portNumber
    listenports := uipListen t.listenports (htons portNumber) }

def xtcpdListenUdp (t : Tables) (linknum portNumber : Nat) : Tables :=
  { t with
    udpListeners := registerListener t.udpListeners linknum portNumber
    udpListenports := uipListen t.udpListenports (htons portNumber) }

def uipInit (numTcp numUdp numPorts : Nat) : Tables where
  tcpListeners := List.replicate numTcp Listener.empty
  udpListeners := List.replicate numUdp Listener.empty
  listenports := List.replicate numPorts 0
  udpListenports := List.replicate numPorts 0

@[simp] theorem key_stop (l : Listener) : l.stop.key = none := rfl

@[simp] theorem key_active (l : Listener) (h : l.active = true) : l.key = some l.portNumber := by
  simp [Listener.key, h]

theorem portKey_eq_some {p q : Nat} : portKey p = some q ↔ p = q ∧ q ≠ 0 := by
  by_cases h : p = 0
  · subst h
    simp only [portKey, if_true]
    constructor
    · intro h
      cases h
    · rintro ⟨rfl, h⟩
      exact absurd rfl h
  · simp only [portKey, h, if_false, Option.some.injEq]
    constructor
    · rintro rfl
      exact ⟨rfl, h⟩
    · exact And.left

theorem uipUnlisten_eq (ports : List Nat) {port : Nat} (h : port ≠ 0) :
    uipUnlisten ports port = clearFirst portKey (fun _ => 0) port ports := by
  induction ports with
  | nil => rfl
  | cons q ports ih =>
    by_cases hq : q = port
    · simp [uipUnlisten, clearFirst, portKey_eq_some, hq, h]
    · simp [uipUnlisten, clearFirst, portKey_eq_some, hq, ih]

theorem mem_keys_listeners (ls : List Listener) (p : Nat) :
    p ∈ keys Listener.key ls ↔ ∃ l ∈ ls, l.active = true ∧ l.portNumber = p := by
  simp [keys, Listener.key]

theorem mem_keys_ports (ports : List Nat) (p : Nat) :
    p ∈ keys portKey ports ↔ p ∈ ports ∧ p ≠ 0 := by
  simp [keys, portKey_eq_some]

theorem count_keys_ports (ports : List Nat) {p : Nat} (h : p ≠ 0) :
    (keys portKey ports).count p = ports.count p := by
  induction ports with
  | nil => rfl
  | cons q ports ih =>
    rw [keys_cons, List.count_append, ih, List.count_cons]
    by_cases hq : q = 0
    · have hqp : ¬ q = p := fun he => h (by omega)
      simp [portKey, hq, show ¬ (0 = p) by omega]
    · simp [portKey, hq, List.count_cons, Nat.add_comm]

theorem getListenerLinknum_isSome (ls : List Listener) (p : Nat) :
    (getListenerLinknum ls p).isSome = true ↔ p ∈ keys Listener.key ls := by
  rw [mem_keys_listeners]
  simp only [getListenerLinknum, Option.isSome_map, List.find?_isSome, Bool.and_eq_true,
    beq_iff_eq]
  constructor
  · rintro ⟨l, hl, ha, hp⟩
    exact ⟨l, hl, ha, hp.symm⟩
  · rintro ⟨l, hl, ha, hp⟩
    exact ⟨l, hl, ha, hp.symm⟩

theorem getListenerLinknum_mem {ls : List Listener} {p linknum : Nat}
    (h : getListenerLinknum ls p = some linknum) :
    ∃ l ∈ ls, l.active = true ∧ l.portNumber = p ∧ l.linknum = linknum := by
  simp only [getListenerLinknum, Option.map_eq_some_iff] at h
  obtain ⟨l, hl, rfl⟩ := h
  have hp := List.find?_some hl
  simp only [Bool.and_eq_true, beq_iff_eq] at hp
  exact ⟨l, List.mem_of_find?_eq_some hl, hp.1, hp.2.symm, rfl⟩

end Xtcp.Listen
