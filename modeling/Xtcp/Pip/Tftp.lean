import Xtcp.Library.Halfword
import Xtcp.Library.Prefix

namespace Xtcp.Pip.Tftp

open Halfword Prefix

def rrq : Nat := 1

def data : Nat := 3

def ack : Nat := 4

def tftpServerPort : Nat := 69

def blockSize : Int := 512

def ourBase : Int := 0x1C000

-- received: a DATA packet of the server with the bytes behind its block number.
inductive Note where
  | received (block : Nat) (bytes : List (BitVec 8))
  | stored (address : Int) (byte : BitVec 8)
  | sent (cmd block : Nat)
  | rebooting
  deriving DecidableEq

structure Loader where
  pipPortTFTP : Nat
  clientPort : Nat
  address : Int
  nextAck : Nat
  lastCmd : Nat
  reboot : Bool
  log : List Note

def init : Loader := ⟨0, 0, 0, 0, 0, false, []⟩

def Loader.note (s : Loader) (notes : List Note) : Loader := { s with log := s.log ++ notes }

def doSend (cmd block : Nat) (s : Loader) : Loader :=
  { s.note [.sent cmd block] with lastCmd := cmd }

def pipAcknowledgeTFTP (s : Loader) : Loader := doSend ack s.nextAck s

def pipReadTFTP (s : Loader) : Loader := doSend rrq 0 s

def pipInitTFTP (t : Nat) (s : Loader) : Loader :=
  pipReadTFTP { s with
    pipPortTFTP := t % 0xFFFF + 1
    nextAck := 1
    address := 0x1B000
    clientPort := tftpServerPort }

def pipTimeOutTFTP (s : Loader) : Loader :=
  if s.lastCmd = rrq then pipReadTFTP s
  else if s.lastCmd = ack then pipAcknowledgeTFTP s
  else s

-- byterev(packet[i]) >> 16
def half (packet : Bytes) (i : Nat) : Nat :=
  (byterev ((load packet (2 * i)).setWidth 32) >>> 16).toNat

def stores (packet : Bytes) (start : Nat) (base length : Int) : List Note :=
  if base < ourBase then
    (List.range length.toNat).map fun i : Nat => .stored (base + i) (packet (start + i))
  else []

-- Fewer than four bytes hold no block number: what is read as one lies behind them.
def arrived (packet : Bytes) (offset : Nat) (length : Int) : List Note :=
  if 4 ≤ length then
    [.received (half packet (offset + 1))
      ((List.range (length - 4).toNat).map fun j => packet (2 * offset + 4 + j))]
  else []

def incomingData (packet : Bytes) (offset : Nat) (length : Int) (s : Loader) : Loader :=
  let start := offset * 2 + 4
  let length' := length - start
  let base := s.address + ((s.nextAck : Int) - 1) * blockSize
  let s := pipAcknowledgeTFTP (s.note (arrived packet offset length ++
    stores packet start base length'))
  if length' ≠ blockSize then { s.note [.rebooting] with reboot := true } else s

def pipIncomingTFTP (packet : Bytes) (srcPort offset : Nat) (length : Int) (s : Loader) : Loader :=
  if srcPort ≠ s.clientPort ∧ s.clientPort ≠ tftpServerPort then s
  else
    let s := { s with clientPort := srcPort, nextAck := half packet (offset + 1) }
    if half packet offset = data then incomingData packet offset length s else s

-- A datagram whose checksum is zero; offset is the place of its UDP header, in shorts.
def pipIncomingUDP (packet : Bytes) (offset : Nat) (s : Loader) : Loader :=
  let remotePort := half packet offset
  let localPort := half packet (offset + 1)
  let totalLength := half packet (offset + 2)
  if localPort = 0x44 then s
  else if localPort = s.pipPortTFTP then
    pipIncomingTFTP packet remotePort (offset + 4) (totalLength - 8) s
  else s

-- start: the end of pipIncomingDHCP, at time t.
inductive Event where
  | start (t : Nat)
  | timeOut
  | datagram (packet : Bytes) (offset : Nat)

-- The loop of theServer ends at the turn that sets reboot.
def step (s : Loader) (e : Event) : Loader :=
  if s.reboot then s
  else
    match e with
    | .start t => pipInitTFTP t s
    | .timeOut => pipTimeOutTFTP s
    | .datagram packet offset => pipIncomingUDP packet offset s

def run (s : Loader) (es : List Event) : Loader := es.foldl step s

-- What a boot loader is for, told by its log.
def place (block j : Nat) : Int := 0x1B000 + ((block : Int) - 1) * 512 + j

def Loaded (log : List Note) (block : Nat) (bytes : List (BitVec 8)) : Prop :=
  .received block bytes ∈ log ∧ ∀ j b, bytes[j]? = some b → .stored (place block j) b ∈ log

structure Faithful (log : List Note) : Prop where
  placed : ∀ block bytes, .received block bytes ∈ log → Loaded log block bytes
  window : ∀ a b, .stored a b ∈ log → 0x1B000 ≤ a ∧ a < 0x1C000
  sound : ∀ a b, .stored a b ∈ log →
    ∃ block bytes j, .received block bytes ∈ log ∧ bytes[j]? = some b ∧ a = place block j
  acked : ∀ pre block post, log = pre ++ .sent ack block :: post → ∃ bytes, Loaded pre block bytes
  whole : ∀ pre post, log = pre ++ .rebooting :: post → ∃ m, 1 ≤ m ∧
    (∀ block, 1 ≤ block → block ≤ m → ∃ bytes, Loaded pre block bytes) ∧
    ∃ bytes, Loaded pre m bytes ∧ bytes.length < 512

-- The DATA packets that reach the switch.
structure Data (s : Loader) (packet : Bytes) (offset : Nat) : Prop where
  running : s.reboot = false
  dhcp : half packet (offset + 1) ≠ 0x44
  tftp : half packet (offset + 1) = s.pipPortTFTP
  source : half packet offset = s.clientPort ∨ s.clientPort = tftpServerPort
  opcode : half packet (offset + 4) = data

-- The empty file: block 1 without a byte, in a datagram of twelve.
def Meets (s : Loader) : Event → Prop
  | .datagram packet offset => Data s packet offset →
      half packet (offset + 5) = 1 ∧ half packet (offset + 2) = 12
  | _ => True

-- Nothing but requests.
def Quiet (log : List Note) : Prop := ∀ x ∈ log, x = .sent rrq 0

theorem faithful_quiet {log : List Note} (h : Quiet log) : Faithful log where
  placed _ _ hmem := nomatch h _ hmem
  window _ _ hmem := nomatch h _ hmem
  sound _ _ hmem := nomatch h _ hmem
  acked pre block post heq := by
    have hmem : Note.sent ack block ∈ log := by simp [heq]
    have hsent := h _ hmem
    simp [ack, rrq] at hsent
  whole pre post heq := by
    have hmem : Note.rebooting ∈ log := by simp [heq]
    exact nomatch h _ hmem

theorem Quiet.concat {log : List Note} (h : Quiet log) : Quiet (log ++ [.sent rrq 0]) := by
  intro x hx
  rcases List.mem_append.mp hx with hx | hx
  · exact h x hx
  · exact List.mem_singleton.mp hx

-- The notes of the datagram that ends a good run.
def emptyFile : List Note := [.received 1 [], .sent ack 1, .rebooting]

theorem loaded_emptyFile (log : List Note) : Loaded (log ++ [.received 1 []]) 1 [] :=
  ⟨by simp, fun _ _ hj => nomatch hj⟩

theorem split_emptyFile {log pre post : List Note} {x : Note} (hq : Quiet log)
    (hx : x ≠ .sent rrq 0) (h : log ++ emptyFile = pre ++ x :: post) :
    (x = .received 1 [] ∧ pre = log) ∨ (x = .sent ack 1 ∧ pre = log ++ [.received 1 []]) ∨
      (x = .rebooting ∧ pre = log ++ [.received 1 []] ++ [.sent ack 1]) := by
  have h' : ((log ++ [.received 1 []]) ++ [.sent ack 1]) ++ [.rebooting] = pre ++ x :: post := by
    simpa [emptyFile] using h
  rcases split_concat h' with ⟨post₁, h₁⟩ | ⟨hx₁, hp₁⟩
  · rcases split_concat h₁ with ⟨post₂, h₂⟩ | ⟨hx₂, hp₂⟩
    · rcases split_concat h₂ with ⟨post₃, h₃⟩ | ⟨hx₃, hp₃⟩
      · exact absurd (hq x (by simp [h₃])) hx
      · exact Or.inl ⟨hx₃, hp₃⟩
    · exact Or.inr (Or.inl ⟨hx₂, hp₂⟩)
  · exact Or.inr (Or.inr ⟨hx₁, hp₁⟩)

theorem faithful_emptyFile {log : List Note} (hq : Quiet log) : Faithful (log ++ emptyFile) where
  placed block bytes hmem := by
    rcases List.mem_append.mp hmem with hmem | hmem
    · exact nomatch hq _ hmem
    · obtain ⟨rfl, rfl⟩ : block = 1 ∧ bytes = [] := by simpa [emptyFile] using hmem
      exact ⟨by simp [emptyFile], fun _ _ hj => nomatch hj⟩
  window a b hmem := by
    rcases List.mem_append.mp hmem with hmem | hmem
    · exact nomatch hq _ hmem
    · simp [emptyFile] at hmem
  sound a b hmem := by
    rcases List.mem_append.mp hmem with hmem | hmem
    · exact nomatch hq _ hmem
    · simp [emptyFile] at hmem
  acked pre block post heq := by
    rcases split_emptyFile hq (by simp [ack, rrq]) heq with ⟨hx, -⟩ | ⟨hx, rfl⟩ | ⟨hx, -⟩
    · exact nomatch hx
    · obtain ⟨-, rfl⟩ := Note.sent.inj hx
      exact ⟨[], loaded_emptyFile log⟩
    · exact nomatch hx
  whole pre post heq := by
    rcases split_emptyFile hq (by simp) heq with ⟨hx, -⟩ | ⟨hx, -⟩ | ⟨-, rfl⟩
    · exact nomatch hx
    · exact nomatch hx
    · have hone : Loaded (log ++ [.received 1 []] ++ [.sent ack 1]) 1 [] :=
        ⟨by simp, fun _ _ hj => nomatch hj⟩
      refine ⟨1, Nat.le_refl 1, fun block h₁ h₂ => ?_, [], hone, by decide⟩
      rw [Nat.le_antisymm h₂ h₁]
      exact ⟨[], hone⟩

-- After the end of the loop nothing is added.
structure Sane (s : Loader) : Prop where
  faithful : Faithful s.log
  address : s.address ≤ 0x1B000
  quiet : s.reboot = false → Quiet s.log ∧ s.lastCmd ≠ ack

theorem sane_quiet {s : Loader} (hq : Quiet s.log) (haddress : s.address ≤ 0x1B000)
    (hcmd : s.lastCmd ≠ ack) : Sane s :=
  ⟨faithful_quiet hq, haddress, fun _ => ⟨hq, hcmd⟩⟩

theorem Quiet.read {s : Loader} (hq : Quiet s.log) (haddress : s.address ≤ 0x1B000) :
    Sane (pipReadTFTP s) :=
  sane_quiet (s := pipReadTFTP s) hq.concat haddress (by simp [pipReadTFTP, doSend, rrq, ack])

theorem Sane.timeOut {s : Loader} (h : Sane s) (hrun : s.reboot = false) :
    Sane (pipTimeOutTFTP s) := by
  obtain ⟨hq, hcmd⟩ := h.quiet hrun
  unfold pipTimeOutTFTP
  split
  · exact hq.read h.address
  · simpa [hcmd] using h

theorem incomingUDP_data {s : Loader} {packet : Bytes} {offset : Nat} (h : Data s packet offset) :
    pipIncomingUDP packet offset s = incomingData packet (offset + 4) (half packet (offset + 2) - 8)
      { s with clientPort := half packet offset, nextAck := half packet (offset + 5) } := by
  have hsource : ¬(half packet offset ≠ s.clientPort ∧ s.clientPort ≠ tftpServerPort) := by
    rintro ⟨hport, hfirst⟩
    rcases h.source with heq | heq
    · exact hport heq
    · exact hfirst heq
  rw [pipIncomingUDP, if_neg h.dhcp, if_pos h.tftp, pipIncomingTFTP, if_neg hsource]
  exact if_pos h.opcode

theorem Sane.other {s : Loader} {packet : Bytes} {offset : Nat} (hs : Sane s)
    (hrun : s.reboot = false) (h : ¬Data s packet offset) :
    Sane (pipIncomingUDP packet offset s) := by
  obtain ⟨hq, hcmd⟩ := hs.quiet hrun
  unfold pipIncomingUDP
  dsimp only
  split
  · exact hs
  next hdhcp =>
    split
    next htftp =>
      unfold pipIncomingTFTP
      split
      · exact hs
      next hsource =>
        dsimp only
        rw [if_neg fun hop => h ⟨hrun, hdhcp, htftp, ?_, hop⟩]
        · exact sane_quiet hq hs.address hcmd
        · by_contra hnot
          exact hsource ⟨fun heq => hnot (Or.inl heq), fun heq => hnot (Or.inr heq)⟩
    · exact hs

theorem mem_stores {packet : Bytes} {start : Nat} {base length a : Int} {b : BitVec 8}
    (h : .stored a b ∈ stores packet start base length) : a < base + length := by
  unfold stores at h
  split at h
  · obtain ⟨i, hi, heq⟩ := List.mem_map.mp h
    obtain ⟨rfl, -⟩ := Note.stored.inj heq
    have hlt := List.mem_range.mp hi
    omega
  · exact nomatch h

theorem not_received_stores {packet : Bytes} {start : Nat} {base length : Int} {block : Nat}
    {bytes : List (BitVec 8)} : .received block bytes ∉ stores packet start base length := by
  unfold stores
  split
  · intro h
    obtain ⟨i, -, heq⟩ := List.mem_map.mp h
    exact nomatch heq
  · exact List.not_mem_nil

theorem incomingData_log (packet : Bytes) (offset : Nat) (length : Int) (s : Loader) :
    (incomingData packet offset length s).log = s.log ++ (arrived packet offset length ++
      stores packet (offset * 2 + 4) (s.address + ((s.nextAck : Int) - 1) * blockSize)
        (length - (offset * 2 + 4 : Nat))) ++ [.sent ack s.nextAck] ++
      (if length - (offset * 2 + 4 : Nat) ≠ blockSize then [.rebooting] else []) := by
  unfold incomingData
  dsimp only
  split
  · rfl
  · rw [List.append_nil]
    rfl

theorem incomingData_empty {packet : Bytes} {offset : Nat} {s : Loader} (hblock : s.nextAck = 1)
    (hpacket : half packet (offset + 1) = 1) :
    incomingData packet offset 4 s = { s with
      lastCmd := ack, reboot := true, log := s.log ++ emptyFile } := by
  have hlength : (4 : Int) - (offset * 2 + 4 : Nat) ≠ blockSize := by
    unfold blockSize
    omega
  have hstores (base : Int) :
      stores packet (offset * 2 + 4) base (4 - (offset * 2 + 4 : Nat)) = [] := by
    have hnone : (4 - ((offset * 2 + 4 : Nat) : Int)).toNat = 0 := by omega
    unfold stores
    rw [hnone]
    split <;> rfl
  have harrived : arrived packet offset 4 = [.received 1 []] := by
    rw [arrived, if_pos (by decide), hpacket]
    rfl
  unfold incomingData
  dsimp only
  rw [if_pos hlength, hstores, harrived]
  simp [pipAcknowledgeTFTP, doSend, Loader.note, emptyFile, hblock]

theorem Sane.received {s : Loader} {packet : Bytes} {offset : Nat} (hs : Sane s)
    (h : Data s packet offset) (hblock : half packet (offset + 5) = 1)
    (htotal : half packet (offset + 2) = 12) : Sane (pipIncomingUDP packet offset s) := by
  obtain ⟨hq, -⟩ := hs.quiet h.running
  rw [incomingUDP_data h, htotal]
  have hempty : incomingData packet (offset + 4) 4
      { s with clientPort := half packet offset, nextAck := half packet (offset + 5) } =
        { s with clientPort := half packet offset, nextAck := half packet (offset + 5)
                 lastCmd := ack, reboot := true, log := s.log ++ emptyFile } :=
    incomingData_empty hblock hblock
  show Sane (incomingData packet (offset + 4) 4 _)
  rw [hempty]
  exact ⟨faithful_emptyFile hq, hs.address, fun hrun => nomatch hrun⟩

theorem mem_arrived {packet : Bytes} {offset block : Nat} {length : Int} {bytes : List (BitVec 8)}
    (h : .received block bytes ∈ arrived packet offset length) :
    4 ≤ length ∧ block = half packet (offset + 1) ∧ bytes.length = (length - 4).toNat := by
  unfold arrived at h
  split at h
  next hlength =>
    obtain ⟨rfl, rfl⟩ := Note.received.inj (List.mem_singleton.mp h)
    exact ⟨hlength, rfl, by simp⟩
  next => exact nomatch h

theorem meets_of_faithful {s : Loader} {packet : Bytes} {offset : Nat} (hs : Sane s)
    (h : Data s packet offset) (hf : Faithful (pipIncomingUDP packet offset s).log) :
    half packet (offset + 5) = 1 ∧ half packet (offset + 2) = 12 := by
  obtain ⟨hq, -⟩ := hs.quiet h.running
  have haddress := hs.address
  obtain ⟨length, hlength⟩ : ∃ length : Int, length = half packet (offset + 2) - 8 := ⟨_, rfl⟩
  rw [incomingUDP_data h, incomingData_log, ← hlength] at hf
  dsimp only at hf
  have hsize : blockSize = 512 := rfl
  obtain ⟨base, hbase⟩ : ∃ base : Int,
    base = s.address + ((half packet (offset + 5) : Int) - 1) * blockSize := ⟨_, rfl⟩
  rw [← hbase] at hf
  obtain ⟨log, hlog⟩ : ∃ log, log = s.log ++ (arrived packet (offset + 4) length ++
      stores packet ((offset + 4) * 2 + 4) base (length - ((offset + 4) * 2 + 4 : Nat))) ++
      [.sent ack (half packet (offset + 5))] ++
      if length - ((offset + 4) * 2 + 4 : Nat) ≠ blockSize then [.rebooting] else [] := ⟨_, rfl⟩
  rw [← hlog] at hf
  have hreceived {block : Nat} {bytes : List (BitVec 8)} (hmem : .received block bytes ∈ log) :
      .received block bytes ∈ arrived packet (offset + 4) length := by
    simp only [hlog, List.mem_append, List.mem_ite_nil_right, List.mem_singleton] at hmem
    rcases hmem with ((hmem | hmem | hmem) | hmem) | hmem
    · exact nomatch hq _ hmem
    · exact hmem
    · exact absurd hmem not_received_stores
    · exact nomatch hmem
    · exact nomatch hmem.2
  have hstored {a : Int} {b : BitVec 8} (hmem : .stored a b ∈ log) :
      a < base + (length - ((offset + 4) * 2 + 4 : Nat)) := by
    simp only [hlog, List.mem_append, List.mem_ite_nil_right, List.mem_singleton] at hmem
    rcases hmem with ((hmem | hmem | hmem) | hmem) | hmem
    · exact nomatch hq _ hmem
    · unfold arrived at hmem
      simp at hmem
    · exact mem_stores hmem
    · exact nomatch hmem
    · exact nomatch hmem.2
  obtain ⟨bytes, hloaded, -⟩ := hf.acked _ _ _ (hlog.trans (List.append_assoc _ _ _))
  have hmem : Note.received (half packet (offset + 5)) bytes ∈ log := by
    rw [hlog, List.append_assoc]
    exact List.mem_append_left _ hloaded
  obtain ⟨hfour, -, hbytes⟩ := mem_arrived (hreceived hmem)
  -- The last byte of a block that has one is not stored.
  have hempty : length = 4 := by
    by_contra hne
    have hlast : bytes.length - 1 < bytes.length := by omega
    have hplace := hstored ((hf.placed _ _ hmem).2 _ _ (List.getElem?_eq_getElem hlast))
    unfold place at hplace
    rw [hsize] at hbase
    omega
  refine ⟨?_, by omega⟩
  have hreboot : length - ((offset + 4) * 2 + 4 : Nat) ≠ blockSize := by omega
  rw [if_pos hreboot] at hlog
  obtain ⟨m, hm, hblocks, -⟩ := hf.whole _ _ hlog
  obtain ⟨first, hfirst, -⟩ := hblocks 1 (Nat.le_refl 1) hm
  have hone := mem_arrived (hreceived (hlog ▸ List.mem_append_left _ hfirst))
  exact hone.2.1.symm

theorem Sane.step {s : Loader} (h : Sane s) {e : Event} (he : Meets s e) :
    Sane (Tftp.step s e) := by
  unfold Tftp.step
  split
  · exact h
  next hrun =>
    have hrun' : s.reboot = false := by simpa using hrun
    cases e with
    | start t =>
      exact Quiet.read (s := { s with
        pipPortTFTP := t % 0xFFFF + 1
        nextAck := 1
        address := 0x1B000
        clientPort := tftpServerPort }) (h.quiet hrun').1 (Int.le_refl _)
    | timeOut => exact h.timeOut hrun'
    | datagram packet offset =>
      by_cases hdata : Data s packet offset
      · obtain ⟨hblock, htotal⟩ := he hdata
        exact h.received hdata hblock htotal
      · exact h.other hrun' hdata

theorem meets_of_step {s : Loader} (h : Sane s) {e : Event}
    (hf : Faithful (step s e).log) : Meets s e := by
  cases e with
  | start t => trivial
  | timeOut => trivial
  | datagram packet offset =>
    intro hdata
    rw [step, if_neg (by simp [hdata.running])] at hf
    exact meets_of_faithful h hdata hf

theorem boot_loader_exact (es : List Event) :
    (∀ pre, pre <+: es → Faithful (run init pre).log) ↔
      ∀ pre e, pre ++ [e] <+: es → Meets (run init pre) e := by
  refine forall_prefix_iff_of (I := fun pre => Sane (run init pre))
    (sane_quiet (s := init) (fun _ hx => nomatch hx) (by decide) (by decide))
    (fun pre h => h.faithful) fun pre e _ h => ?_
  have hstep : run init (pre ++ [e]) = step (run init pre) e := List.foldl_concat ..
  rw [hstep]
  exact ⟨h.step, meets_of_step h⟩

-- Behind a header of 42 bytes: block 1 of a file of four bytes.
def fourBytes : Bytes := fun i => ([0, 69, 0, 1, 0, 16, 0, 0, 0, 3, 0, 1, 7, 7, 7, 7] : List
  (BitVec 8)).getD (i - 34) 0

theorem boot_loader_drops_block : ¬∀ es, Faithful (run init es).log := by
  intro h
  have hplaced := (h [.start 0, .datagram fourBytes 17]).placed 1 [7, 7, 7, 7] (by decide)
  exact absurd (hplaced.2 0 7 rfl) (by decide)

end Xtcp.Pip.Tftp
