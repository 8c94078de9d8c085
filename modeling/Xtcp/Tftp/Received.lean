import Xtcp.Tftp.Event
import Mathlib.Data.List.GetD
import Mathlib.Data.List.Infix

namespace Xtcp.Tftp

section Strings

variable {a b t xs ys : List UInt8}

theorem prefix_append_iff (h : xs <+: t → xs = t) : t <+: xs ++ ys ↔ t <+: xs := by
  constructor
  · intro ht
    rcases List.prefix_or_prefix_of_prefix ht (List.prefix_append xs ys) with ht | hx
    · exact ht
    · rw [h hx]
  · exact fun ht => ht.trans (List.prefix_append xs ys)

theorem strncmp_eq_zero (h : 0 ∉ t) : strncmp a t t.length = 0 ↔ t <+: a := by
  induction t generalizing a with
  | nil => simp [strncmp]
  | cons x t ih =>
    rw [List.mem_cons, not_or] at h
    cases a with
    | nil =>
      have hne : (0 : UInt8) ≠ x := h.1
      have hx : x.toNat ≠ 0 := fun hx => hne (UInt8.toNat_inj.mp hx.symm)
      simp [strncmp, hne, hx]
    | cons y a =>
      have ih := ih (a := a) h.2
      by_cases hyx : y = x
      · subst hyx
        have hy : ¬ y = 0 := Ne.symm h.1
        simp [strncmp, hy, ih]
      · have hn : (y.toNat : Int) - x.toNat ≠ 0 := by
          intro hn
          have heq : y.toNat = x.toNat := by omega
          exact hyx (UInt8.toNat_inj.mp heq)
        simp [strncmp, hyx, hn, Ne.symm hyx]

theorem strlen_append (h : 0 ∈ xs) : strlen (xs ++ ys) = strlen xs := by
  induction xs with
  | nil => cases h
  | cons x xs ih =>
    by_cases hx : x = 0
    · simp [strlen, hx]
    · have h : 0 ∈ xs := (List.mem_cons.mp h).resolve_left (Ne.symm hx)
      simpa [strlen, hx] using ih h

theorem strlen_lt (h : 0 ∈ xs) : strlen xs < xs.length := by
  induction xs with
  | nil => cases h
  | cons x xs ih =>
    by_cases hx : x = 0
    · simp [strlen, hx]
    · have h : 0 ∈ xs := (List.mem_cons.mp h).resolve_left (Ne.symm hx)
      simpa [strlen, hx] using ih h

theorem strlen_ended (h : 0 ∉ xs) : strlen (xs ++ 0 :: ys) = xs.length := by
  have hall : ∀ x ∈ xs, (x != 0) = true := fun x hx => by
    simpa using ne_of_mem_of_not_mem hx h
  rw [strlen, List.takeWhile_append_of_pos hall]
  simp

theorem strlen_unended (h : 0 ∉ xs) : strlen xs = xs.length := by
  have hall : ∀ x ∈ xs, (x != 0) = true := fun x hx => by
    simpa using ne_of_mem_of_not_mem hx h
  rw [strlen, ← List.append_nil xs, List.takeWhile_append_of_pos hall]
  rfl

end Strings

section WriteRequests

def mode (filename : List UInt8) : List UInt8 := filename.drop (strlen filename + 1)

def Granted (filename : List UInt8) : Prop :=
  tftpImageFilename <+: filename ∧ octet <+: mode filename

theorem tftpImageFilename_chars : 0 ∉ tftpImageFilename := by decide +kernel

theorem octet_chars : 0 ∉ octet := by decide +kernel

theorem strncmp_octet (m : Memory) : strncmp m octet 5 = 0 ↔ octet <+: m :=
  strncmp_eq_zero octet_chars

theorem tftpWriteRequest_eq (b0 b1 : UInt8) (filename : List UInt8) (g : Globals) :
    tftpWriteRequest (b0 :: b1 :: filename) g =
      if ¬ tftpImageFilename <+: filename then
        tftpMakeErrorPkt tftpErrorNotDefined (chars "Invalid filename") g
      else if ¬ octet <+: mode filename then
        tftpMakeErrorPkt tftpErrorNotDefined (chars "Invalid transfer mode") g
      else tftpMakeAckPkt 0 g := by
  have hname : strncmp filename tftpImageFilename tftpImageFilename.length = 0 ↔
      tftpImageFilename <+: filename := strncmp_eq_zero tftpImageFilename_chars
  simp only [tftpWriteRequest, List.drop_succ_cons, List.drop_zero, ne_eq]
  refine if_congr (not_congr hname) rfl (if_congr (not_congr ?_) rfl rfl)
  exact strncmp_octet _

-- The part of the name that was received decides, and so does the part of the mode.
def WriteDecided (name : List UInt8) : Prop :=
  ¬ name <+: tftpImageFilename ∧
    (tftpImageFilename <+: name → 0 ∈ name ∧ (mode name <+: octet → mode name = octet))

theorem mode_append {name : List UInt8} (h : 0 ∈ name) (stale : List UInt8) :
    mode (name ++ stale) = mode name ++ stale := by
  rw [mode, strlen_append h, List.drop_append_of_le_length (strlen_lt h)]
  rfl

theorem mode_ended {name : List UInt8} (h : 0 ∉ name) (rest : List UInt8) :
    mode (name ++ 0 :: rest) = rest := by
  simp [mode, strlen_ended h]

theorem WriteDecided.granted {name : List UInt8} (h : WriteDecided name) (stale : List UInt8) :
    (tftpImageFilename <+: name ++ stale ↔ tftpImageFilename <+: name) ∧
      (tftpImageFilename <+: name → (octet <+: mode (name ++ stale) ↔ octet <+: mode name)) := by
  constructor
  · exact prefix_append_iff fun hp => absurd hp h.1
  · intro hname
    obtain ⟨hz, hmode⟩ := h.2 hname
    rw [mode_append hz]
    exact prefix_append_iff hmode

theorem mode_unended {name : List UInt8} (h : 0 ∉ name) : mode name = [] := by
  rw [mode, strlen_unended h]
  exact List.drop_of_length_le (Nat.le_succ _)

theorem granted_image : Granted (tftpImageFilename ++ 0 :: octet) := by
  refine ⟨List.prefix_append _ _, ?_⟩
  rw [mode_ended tftpImageFilename_chars]

theorem writeDecided_of_granted {name : List UInt8}
    (h : ∀ stale, Granted (name ++ stale) → Granted name) : WriteDecided name := by
  have hunended (hz : 0 ∉ name) : ¬ Granted name := by
    intro hg
    have := hg.2
    rw [mode_unended hz] at this
    exact absurd this (by decide +kernel)
  constructor
  · rintro ⟨rest, hrest⟩
    have hz : 0 ∉ name := fun hz => tftpImageFilename_chars (hrest ▸ List.mem_append_left _ hz)
    refine hunended hz (h (rest ++ 0 :: octet) ?_)
    rw [← List.append_assoc, hrest]
    exact granted_image
  · intro hname
    have hz : 0 ∈ name := by
      by_contra hz
      refine hunended hz (h (0 :: octet) ⟨hname.trans (List.prefix_append _ _), ?_⟩)
      rw [mode_ended hz]
    refine ⟨hz, ?_⟩
    rintro ⟨rest, hrest⟩
    have hg : Granted name := by
      refine h rest ⟨hname.trans (List.prefix_append _ _), ?_⟩
      rw [mode_append hz, hrest]
    have hm : mode name <+: octet := ⟨rest, hrest⟩
    exact hm.eq_of_length (Nat.le_antisymm hm.length_le hg.2.length_le)

end WriteRequests

section Datagrams

variable (d : List UInt8) (g : Globals)

-- The same from any two contents of the buffer that agree on what was received.
structure OnlyReceived : Prop where
  same : ∀ app stale stale',
    tftpProcessPacket app (received d stale) d.length g =
      tftpProcessPacket app (received d stale') d.length g
  bounded : ∀ app stale block data (len result : Int),
    .processDataBlock block data len result ∈
      (tftpProcessPacket app (received d stale) d.length g).2.2 → 0 ≤ len ∧ len ≤ tftpBlockSize

def DataDecided (rest : List UInt8) (prevBlockNum : Nat) : Prop :=
  2 ≤ rest.length ∧
    (ntoh16 rest 0 = prevBlockNum + 1 → ntoh16 rest 0 * tftpBlockSize < tftpMaxFileSize →
      rest.length + 2 ≤ tftpRxBufferSize)

-- What was received decides.
def Decided : List UInt8 → Nat → Prop
  | [], _ => False
  | [b], _ => b ≠ 0
  | b0 :: b1 :: rest, prevBlockNum =>
    (ntoh16 [b0, b1] 0 = tftpOpcodeWrq → WriteDecided (rest.take (tftpRxBufferSize - 2))) ∧
      (ntoh16 [b0, b1] 0 = tftpOpcodeData → DataDecided rest prevBlockNum)

end Datagrams

section Opcodes

variable {app : List UInt8 → Int → Int} {m m' : Memory} {n : Nat} {g : Globals}

theorem tftpProcessPacket_wrq (h : ntoh16 m 0 = tftpOpcodeWrq) :
    tftpProcessPacket app m n g = tftpWriteRequest m g := by
  simp [tftpProcessPacket, h, tftpOpcodeWrq, tftpOpcodeRrq]

theorem tftpProcessPacket_data (h : ntoh16 m 0 = tftpOpcodeData) :
    tftpProcessPacket app m n g = tftpData m n g app := by
  simp [tftpProcessPacket, h, tftpOpcodeWrq, tftpOpcodeRrq, tftpOpcodeData]

theorem tftpProcessPacket_opcode (h : ntoh16 m 0 = ntoh16 m' 0) (hw : ntoh16 m 0 ≠ tftpOpcodeWrq)
    (hd : ntoh16 m 0 ≠ tftpOpcodeData) :
    tftpProcessPacket app m n g = tftpProcessPacket app m' n g := by
  rw [h] at hw hd
  simp only [tftpProcessPacket, h, hw, hd, if_false]

theorem tftpProcessPacket_unknown (h : tftpOpcodeError < ntoh16 m 0) :
    tftpProcessPacket app m n g = tftpMakeErrorPkt tftpErrorIllegalOperation [] g := by
  have hne (k : Nat) (hk : k ≤ tftpOpcodeError) : ntoh16 m 0 ≠ k := by omega
  simp only [tftpProcessPacket]
  rw [if_neg (hne _ (by decide)), if_neg (hne _ (by decide)), if_neg (hne _ (by decide)),
    if_neg (hne _ (by decide)), if_neg (hne _ (by decide))]

theorem tftpProcessPacket_rrq (h : ntoh16 m 0 = tftpOpcodeRrq) :
    (tftpProcessPacket app m n g).2.1 = 23 := by
  simp only [tftpProcessPacket, h, if_true]
  rfl

theorem tftpProcessPacket_error (h : ntoh16 m 0 = tftpOpcodeError) :
    (tftpProcessPacket app m n g).2.1 = -1 := by
  simp [tftpProcessPacket, h, tftpOpcodeWrq, tftpOpcodeRrq, tftpOpcodeData, tftpOpcodeAck,
    tftpOpcodeError]

theorem tftpWriteRequest_len (b0 b1 : UInt8) (filename : List UInt8) :
    (tftpWriteRequest (b0 :: b1 :: filename) g).2.1 = 4 ↔ Granted filename := by
  rw [tftpWriteRequest_eq, Granted]
  split
  · rename_i hname
    simp only [hname, false_and, iff_false]
    exact (by decide +kernel :
      ((errorPkt tftpErrorNotDefined (chars "Invalid filename")).length : Int) ≠ 4)
  split
  · rename_i hname hmode
    simp only [hmode, and_false, iff_false]
    exact (by decide +kernel :
      ((errorPkt tftpErrorNotDefined (chars "Invalid transfer mode")).length : Int) ≠ 4)
  · rename_i hname hmode
    simp only [not_not.mp hname, not_not.mp hmode, and_self, iff_true]
    rfl

theorem tftpWriteRequest_same (b0 b1 : UInt8) {name : List UInt8} (h : WriteDecided name)
    (stale : List UInt8) :
    tftpWriteRequest (b0 :: b1 :: (name ++ stale)) g = tftpWriteRequest (b0 :: b1 :: name) g := by
  rw [tftpWriteRequest_eq, tftpWriteRequest_eq]
  obtain ⟨himage, hmode⟩ := h.granted stale
  by_cases hname : tftpImageFilename <+: name
  · simp only [himage.mpr hname, hname, not_true, if_false]
    exact if_congr (not_congr (hmode hname)) rfl rfl
  · rw [if_pos (mt himage.mp hname), if_pos hname]

theorem tftpData_congr (h : ntoh16 m 2 = ntoh16 m' 2)
    (hp : ntoh16 m 2 = g.prevBlockNum + 1 → ntoh16 m 2 * tftpBlockSize < tftpMaxFileSize →
      payload m n = payload m' n) : tftpData m n g app = tftpData m' n g app := by
  have hnoted : g.noted m n = g.noted m' n := by simp only [Globals.noted, h]
  have hcounted : g.counted m n = g.counted m' n := by simp only [Globals.counted, hnoted, h]
  rw [h] at hp
  simp only [tftpData, hnoted, hcounted, h, noted_prevBlockNum]
  split
  · rename_i hnext
    split
    · rfl
    · rename_i hfull
      rw [hp hnext (Nat.lt_of_not_le hfull)]
  · rfl

theorem tftpData_blockNum : (tftpData m n g app).1.blockNum = ntoh16 m 2 := by
  simp only [tftpData]
  split
  · split
    · rfl
    · split
      · rfl
      · rfl
  · rfl

theorem tftpData_calls (hnext : ntoh16 m 2 = g.prevBlockNum + 1)
    (hfull : ntoh16 m 2 * tftpBlockSize < tftpMaxFileSize) :
    (tftpData m n g app).2.2 =
      [deliveredCall m n (app (payload m n) (dataLen n))] := by
  have hfull : ¬ tftpMaxFileSize ≤ ntoh16 m 2 * tftpBlockSize := Nat.not_le_of_lt hfull
  simp only [tftpData, noted_prevBlockNum, hnext, if_true] at hfull ⊢
  rw [if_neg hfull]
  simp only [deliveredCall, hnext]

theorem handled_block {r : Reply} (h : Handled m n g r) {block : Nat} {data : List UInt8}
    {len result : Int} (hm : .processDataBlock block data len result ∈ r.2.2) :
    ntoh16 m 0 = tftpOpcodeData ∧ ntoh16 m 2 = g.prevBlockNum + 1 ∧
      ntoh16 m 2 * tftpBlockSize < tftpMaxFileSize ∧ len = dataLen n := by
  cases h with
  | refused pkt result hdata hnext hfull _ _ =>
    obtain ⟨-, -, rfl, -⟩ := Call.processDataBlock.inj (List.mem_singleton.mp hm)
    exact ⟨hdata, hnext, hfull, rfl⟩
  | accepted hdata hnext hfull =>
    obtain ⟨-, -, rfl, -⟩ := Call.processDataBlock.inj (List.mem_singleton.mp hm)
    exact ⟨hdata, hnext, hfull, rfl⟩
  | _ => cases hm

theorem payload_received {d : List UInt8} (h : d.length ≤ tftpRxBufferSize)
    (stale stale' : List UInt8) :
    payload (received d stale) d.length = payload (received d stale') d.length := by
  refine List.map_congr_left fun i hi => ?_
  have hi : i < (dataLen d.length).toNat := List.mem_range.mp hi
  have hlt : tftpMinPktSize + i < d.length := by
    simp only [dataLen, tftpMinPktSize] at hi ⊢
    omega
  simp only [received, byteAt, List.take_of_length_le h]
  rw [List.getD_append _ _ _ _ hlt, List.getD_append _ _ _ _ hlt]

end Opcodes

section Datagrams

variable {d : List UInt8} {g : Globals}

theorem onlyReceived_decided (h : OnlyReceived d g) : Decided d g.prevBlockNum := by
  match d, h with
  | [], h =>
    have := congrArg (·.2.1) (h.same (fun _ _ => 0) [0, 1] [0, 5])
    simp only [tftpProcessPacket_rrq (show ntoh16 (received [] [0, 1]) 0 = _ from rfl),
      tftpProcessPacket_error (show ntoh16 (received [] [0, 5]) 0 = _ from rfl)] at this
    cases this
  | [b], h =>
    rintro rfl
    have := congrArg (·.2.1) (h.same (fun _ _ => 0) [1] [5])
    simp only [tftpProcessPacket_rrq (show ntoh16 (received [0] [1]) 0 = _ from rfl),
      tftpProcessPacket_error (show ntoh16 (received [0] [5]) 0 = _ from rfl)] at this
    cases this
  | b0 :: b1 :: rest, h =>
    have hrec (stale : List UInt8) : received (b0 :: b1 :: rest) stale =
        b0 :: b1 :: (rest.take (tftpRxBufferSize - 2) ++ stale) := rfl
    constructor
    · intro hw
      have hlen (xs : List UInt8) (n : Nat) :
          (tftpProcessPacket (fun _ _ => 0) (b0 :: b1 :: xs) n g).2.1 = 4 ↔ Granted xs := by
        rw [tftpProcessPacket_wrq (m := b0 :: b1 :: xs) hw, tftpWriteRequest_len]
      refine writeDecided_of_granted fun stale hg => ?_
      have hsame := congrArg (·.2.1) (h.same (fun _ _ => 0) stale [])
      simp only [hrec, List.append_nil] at hsame
      rwa [← hlen, ← hsame, hlen]
    · intro hd
      have hdata (xs : List UInt8) (n : Nat) :
          tftpProcessPacket (fun _ _ => 0) (b0 :: b1 :: xs) n g =
            tftpData (b0 :: b1 :: xs) n g fun _ _ => 0 := tftpProcessPacket_data hd
      have hblock (stale stale' : List UInt8) := congrArg (·.1.blockNum)
        (h.same (fun _ _ => 0) stale stale')
      simp only [hrec, hdata, tftpData_blockNum] at hblock
      rcases rest with _ | ⟨b2, _ | ⟨b3, rest⟩⟩
      · have hx := hblock [0, 0] [0, 1]
        simp [ntoh16, byteAt] at hx
      · have hx := hblock [0] [1]
        simp [ntoh16, byteAt, tftpRxBufferSize, tftpMinPktSize, tftpBlockSize] at hx
      · refine ⟨by simp, fun hnext hfull => ?_⟩
        have hb := h.bounded (fun _ _ => 0) []
        rw [hrec, hdata] at hb
        have heq : ntoh16 (b0 :: b1 :: ((b2 :: b3 :: rest).take (tftpRxBufferSize - 2) ++ [])) 2 =
            ntoh16 (b2 :: b3 :: rest) 0 := by
          simp [ntoh16, byteAt, tftpRxBufferSize, tftpMinPktSize, tftpBlockSize]
        rw [tftpData_calls (by rw [heq]; exact hnext) (by rw [heq]; exact hfull)] at hb
        simp only [deliveredCall, List.mem_singleton] at hb
        have hle := (hb _ _ _ _ rfl).2
        simp only [dataLen, tftpMinPktSize, tftpRxBufferSize, List.length_cons] at hle ⊢
        omega

theorem onlyReceived_of_not_data (hd : ∀ stale, ntoh16 (received d stale) 0 ≠ tftpOpcodeData)
    (h : ∀ app stale stale', tftpProcessPacket app (received d stale) d.length g =
      tftpProcessPacket app (received d stale') d.length g) : OnlyReceived d g where
  same := h
  bounded app stale _ _ _ _ hm :=
    absurd (handled_block (tftpProcessPacket_handled app _ _ g) hm).1 (hd stale)

theorem decided_onlyReceived (h : Decided d g.prevBlockNum) : OnlyReceived d g := by
  match d, h with
  | [b], h =>
    have hb : b.toNat ≠ 0 := fun hb => h (UInt8.toNat_inj.mp hb)
    have hopcode (stale : List UInt8) : tftpOpcodeError < ntoh16 (received [b] stale) 0 := by
      have hle : b.toNat * 256 ≤ ntoh16 (received [b] stale) 0 := Nat.le_add_right _ _
      have h5 : tftpOpcodeError = 5 := rfl
      omega
    refine onlyReceived_of_not_data (fun stale hd => ?_) fun app stale stale' => ?_
    · have := hopcode stale
      rw [hd] at this
      exact absurd this (by decide)
    · rw [tftpProcessPacket_unknown (hopcode stale), tftpProcessPacket_unknown (hopcode stale')]
  | b0 :: b1 :: rest, h =>
    obtain ⟨hw, hd⟩ := h
    have hrec (stale : List UInt8) : received (b0 :: b1 :: rest) stale =
        b0 :: b1 :: (rest.take (tftpRxBufferSize - 2) ++ stale) := rfl
    have hopcode (stale : List UInt8) :
        ntoh16 (received (b0 :: b1 :: rest) stale) 0 = ntoh16 [b0, b1] 0 := rfl
    by_cases ho : ntoh16 [b0, b1] 0 = tftpOpcodeData
    · obtain ⟨hlen, hroom⟩ := hd ho
      have hblock (stale : List UInt8) :
          ntoh16 (received (b0 :: b1 :: rest) stale) 2 = ntoh16 rest 0 := by
        rcases rest with _ | ⟨b2, _ | ⟨b3, rest⟩⟩
        · cases hlen
        · exact absurd hlen (by simp)
        · simp [received, ntoh16, byteAt, tftpRxBufferSize, tftpMinPktSize, tftpBlockSize]
      constructor
      · intro app stale stale'
        rw [tftpProcessPacket_data (by rw [hopcode, ho]),
          tftpProcessPacket_data (by rw [hopcode, ho])]
        refine tftpData_congr ((hblock stale).trans (hblock stale').symm) fun hnext hfull => ?_
        rw [hblock] at hnext hfull
        have hle : (b0 :: b1 :: rest).length ≤ tftpRxBufferSize := hroom hnext hfull
        exact payload_received hle stale stale'
      · intro app stale block data len result hm
        obtain ⟨-, hnext, hfull, rfl⟩ :=
          handled_block (tftpProcessPacket_handled app _ _ g) hm
        rw [hblock] at hnext hfull
        have hle := hroom hnext hfull
        simp only [dataLen, tftpMinPktSize, tftpRxBufferSize, tftpBlockSize, List.length_cons]
          at hle ⊢
        omega
    · refine onlyReceived_of_not_data (fun stale => by rwa [hopcode]) fun app stale stale' => ?_
      by_cases hwrq : ntoh16 [b0, b1] 0 = tftpOpcodeWrq
      · rw [tftpProcessPacket_wrq (by rw [hopcode, hwrq]),
          tftpProcessPacket_wrq (by rw [hopcode, hwrq]), hrec, hrec,
          tftpWriteRequest_same _ _ (hw hwrq), tftpWriteRequest_same _ _ (hw hwrq)]
      · exact tftpProcessPacket_opcode ((hopcode stale).trans (hopcode stale').symm)
          (by rwa [hopcode]) (by rwa [hopcode])

theorem only_received_iff (d : List UInt8) (g : Globals) :
    OnlyReceived d g ↔ Decided d g.prevBlockNum :=
  ⟨onlyReceived_decided, decided_onlyReceived⟩

end Datagrams

section Examples

def firstGlobals : Globals := (tftpInit (powerOn [])).globals

-- Of two bytes received, the block number is whatever was in the buffer.
theorem stale_block_number : ¬ OnlyReceived (hton16 tftpOpcodeData) firstGlobals := by
  intro h
  have hd := onlyReceived_decided h
  exact absurd ((hd.2 (by decide)).1) (by decide)

end Examples

end Xtcp.Tftp
