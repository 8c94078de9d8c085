import Xtcp.Mdns.Name

namespace Xtcp.Mdns

inductive EntryType where
  | canonicalNameEntry
  | nameEntry
  | srvEntry
  deriving DecidableEq, Repr

inductive State where
  | unused
  | disabled
  | probeWait
  | probePartialSent
  | probeSent
  | announceWait
  | announceSent
  | active
  deriving DecidableEq, Repr

-- The PENDING_*_RESPONSE bits.
structure Pending where
  host : Bool
  ptr : Bool
  srv : Bool
  txt : Bool
  deriving DecidableEq, Repr

def Pending.none : Pending := ⟨false, false, false, false⟩

structure Entry where
  state : State
  pending : Pending
  name : List UInt8
  namePrefix : List UInt8
  namePostfix : List UInt8
  txtRecord : List UInt8
  srvPort : Int
  ipaddr : Addr
  counter : Nat
  timeout : Nat
  numSent : Nat
  entryType : EntryType
  deriving DecidableEq, Repr

abbrev Table := List Entry

def mdnsNumTableEntries : Nat := 5

def mdnsMaxNameLength : Nat := 100

def mdnsMaxTxtLength : Nat := 100

def Entry.zero : Entry :=
  ⟨.unused, .none, [], [], [], [], 0, .zero, 0, 0, 0, .canonicalNameEntry⟩

-- mdns_init, on the table as the program is loaded.
def mdnsInit : Table := List.replicate mdnsNumTableEntries .zero

def itoaLoop : Nat → Nat → List UInt8
  | 0, _ => []
  | fuel + 1, x =>
    (UInt8.ofNat (x % 10) + 48) :: if x / 10 ≠ 0 then itoaLoop fuel (x / 10) else []

def mdnsItoa (x : Nat) : List UInt8 := (itoaLoop (x + 1) x).reverse

def dot : UInt8 := 46

def nameSuffix (entryType : EntryType) (counter : Nat) : List UInt8 :=
  if counter ≠ 0 then
    if entryType = .srvEntry then text " (" ++ mdnsItoa counter ++ text ")"
    else text "-" ++ mdnsItoa counter
  else []

def updateName (e : Entry) : Entry :=
  { e with
    name := e.namePrefix ++ nameSuffix e.entryType e.counter ++ dot :: e.namePostfix }

def Entry.registered (namePrefix namePostfix : List UInt8) (e : Entry) : Bool :=
  e.state != .unused && namePostfix == e.namePostfix && namePrefix == e.namePrefix

def findEntry (namePrefix namePostfix : List UInt8) (table : Table) : Option Nat :=
  (table.findIdx? (Entry.registered namePrefix namePostfix)).or
    (table.findIdx? fun e => e.state == .unused)

def fillEntry (namePrefix namePostfix txt : List UInt8) (srvPort : Int) (entryType : EntryType)
    (e : Entry) : Entry :=
  let e := { e with
    entryType := entryType
    state := .disabled
    pending := .none
    namePrefix := namePrefix
    namePostfix := if entryType = .srvEntry then namePostfix ++ text ".local" else namePostfix
    txtRecord := if entryType = .srvEntry then txt else e.txtRecord
    counter := 0 }
  { updateName e with srvPort := srvPort }

-- Every caller passes NULL for ipaddr.
def mdnsAddEntry (namePrefix namePostfix txt : List UInt8) (srvPort : Int)
    (entryType : EntryType) (table : Table) : Table :=
  match findEntry namePrefix namePostfix table with
  | none => table
  | some i => table.modify i (fillEntry namePrefix namePostfix txt srvPort entryType)

def mdnsRegisterCanonicalName (name : List UInt8) : Table → Table :=
  mdnsAddEntry name (text "local") [] 0 .canonicalNameEntry

def mdnsRegisterName (name : List UInt8) : Table → Table :=
  mdnsAddEntry name (text "local") [] 0 .nameEntry

def mdnsRegisterService (name srvType : List UInt8) (srvPort : Int) (txt : List UInt8) :
    Table → Table :=
  mdnsAddEntry name srvType txt srvPort .srvEntry

inductive Registration where
  | canonicalName (name : List UInt8)
  | hostName (name : List UInt8)
  | service (name srvType : List UInt8) (srvPort : Int) (txt : List UInt8)

def Registration.apply : Registration → Table → Table
  | .canonicalName name => mdnsRegisterCanonicalName name
  | .hostName name => mdnsRegisterName name
  | .service name srvType srvPort txt => mdnsRegisterService name srvType srvPort txt

end Xtcp.Mdns
