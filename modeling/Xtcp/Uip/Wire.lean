import Xtcp.Uip.Echo
import Xtcp.Uip.Ids
import Xtcp.Uip.Options
import Xtcp.Uip.Split

namespace Xtcp.Uip
open Channel Halfword Igmp OnesSum Xtcp.Segment

section Format

-- TCP_FIN, TCP_SYN, TCP_RST, TCP_PSH and TCP_ACK
def Ctl.byte (flags : Ctl) : BitVec 8 :=
  (if flags.fin then 0x01 else 0) ||| (if flags.syn then 0x02 else 0) |||
    (if flags.rst then 0x04 else 0) ||| (if flags.psh then 0x08 else 0) |||
    (if flags.ack then 0x10 else 0)

def hasFlag (flag : BitVec 8) (buf : Bytes) : Bool := buf 47 &&& flag != 0

def wordHalves (x : BitVec 32) : Halves :=
  ⟨(byterev x).setWidth 16, (byterev x >>> 16).setWidth 16⟩

def ipHalves (ip : Ipaddr) : Halves :=
  ⟨ip.b1.toBitVec ++ ip.b0.toBitVec, ip.b3.toBitVec ++ ip.b2.toBitVec⟩

def tcpOut (cfg : Config) (c : TcpConn) (hostaddr : Ipaddr) : TcpOut where
  ackno := wordHalves c.rcvNxt
  seqno := wordHalves c.sndNxt
  lport := BitVec.ofNat 16 c.lport
  rport := BitVec.ofNat 16 c.rport
  hostaddr := ipHalves hostaddr
  ripaddr := ipHalves c.ripaddr
  wnd := if c.tcpstateflags.stopped then 0 else BitVec.ofNat 16 cfg.receiveWindow

-- A SYN has the option and no data.
def segmentLen (flags : Ctl) (len : Nat) : BitVec 16 :=
  BitVec.ofNat 16 (if flags.syn then 44 else len + 40)

def tcpSendBuf (cfg : Config) (c : TcpConn) (flags : Ctl) (len : Nat) (hostaddr : Ipaddr)
    (ipid : BitVec 16) (buf : Bytes) : Bytes :=
  let buf := setByte 47 flags.byte buf
  let buf := if flags.syn then synOptions (BitVec.ofNat 16 cfg.tcpMss) buf else setByte 46 0x50 buf
  tcpSendNoconn (segmentLen flags len) ipid (tcpSendHeader (tcpOut cfg c hostaddr) buf)

-- The answer to a packet in uip_buf, which starts at an even address.
def resetBuf (hostaddr : Ipaddr) (ipid : BitVec 16) (buf : Bytes) : Option Bytes :=
  (resetNumbers 0 (setByte 46 0x50 (setByte 47 Ctl.rstAck.byte buf))).map fun buf =>
    let tmp16 := load buf 34
    let buf := store (store buf 34 (load buf 36)) 36 tmp16
    let buf := setIpaddr 30 (ipaddrAt buf 26) buf
    tcpSendNoconn 40 ipid (setIpaddr 26 hostaddr buf)

-- What uip_process reads of a packet from tcp_input on.
def tcpSegment (uipLen : Nat) (buf : Bytes) : Segment where
  srcipaddr := ipaddrAt buf 26
  srcport := (load buf 34).toNat
  destport := (load buf 36).toNat
  seqno := word buf 38
  ackno := word buf 42
  fin := hasFlag 0x01 buf
  syn := hasFlag 0x02 buf
  rst := hasFlag 0x04 buf
  psh := hasFlag 0x08 buf
  ack := hasFlag 0x10 buf
  urg := hasFlag 0x20 buf
  wnd := be buf 48
  urgp := be buf 52
  len := (uipLen + 65536 - 4 * (buf 46 >>> 4).toNat - 20) % 65536
  mssOption := ((mssOption 41 buf).getD none).map BitVec.toNat

end Format

section Fields

variable {a x : Nat} {h : Halves} {t : TcpOut} {buf m m' : Bytes}

theorem setByte_same (a : Nat) (v : BitVec 8) (buf : Bytes) : setByte a v buf a = v := by
  rw [setByte, Function.update_self]

theorem copyHalves_other (hx : x < a ∨ a + 4 ≤ x) : copyHalves a h buf x = buf x := by
  rw [copyHalves, store_other _ (by omega), store_other _ (by omega)]

theorem load_of_store {v : BitVec 16} (h : ∀ k < 2, m (a + k) = store buf a v (a + k)) :
    load m a = v := by
  refine Eq.trans ?_ (load_store_same buf a v)
  rw [load, load, h 1 (by decide)]
  exact congrArg _ (h 0 (by decide))

theorem word_of_copyHalves {v : BitVec 32}
    (h : ∀ k < 4, m (a + k) = copyHalves a (wordHalves v) buf (a + k)) : word m a = v :=
  (word_congr h).trans ((word_storeWord buf a (byterev v)).trans (byterev_byterev v))

theorem ipaddrAt_of_copyHalves {ip : Ipaddr}
    (h : ∀ k < 4, m (a + k) = copyHalves a (ipHalves ip) buf (a + k)) : ipaddrAt m a = ip := by
  have hbytes (hi lo : BitVec 8) (m : Bytes) (b : Nat) :
      store m b (hi ++ lo) b = lo ∧ store m b (hi ++ lo) (b + 1) = hi := by
    have hload := congrArg BitVec.toNat (load_store_same m b (hi ++ lo))
    rw [toNat_load, toNat_append] at hload
    have hlo := lo.isLt
    have hb := (store m b (hi ++ lo) b).isLt
    exact ⟨BitVec.eq_of_toNat_eq (by omega), BitVec.eq_of_toNat_eq (by omega)⟩
  obtain ⟨h2, h3⟩ := hbytes ip.b3.toBitVec ip.b2.toBitVec
    (store buf a (ip.b1.toBitVec ++ ip.b0.toBitVec)) (a + 2)
  obtain ⟨h0, h1⟩ := hbytes ip.b1.toBitVec ip.b0.toBitVec buf a
  rw [ipaddrAt_congr h, ipaddrAt, copyHalves, ipHalves, store_other (x := a) _ (by omega),
    store_other (x := a + 1) _ (by omega), h0, h1, h2, h3]

theorem tcpSendHeader_other (hx : x < 23 ∨ 24 ≤ x ∧ x < 26 ∨ 46 ≤ x ∧ x < 48 ∨ 50 ≤ x) :
    tcpSendHeader t buf x = buf x := by
  rw [tcpSendHeader]
  rw [setByte_other _ _ (by omega), setByte_other _ _ (by omega), copyHalves_other (by omega),
    copyHalves_other (by omega), store_other _ (by omega), store_other _ (by omega),
    setByte_other _ _ (by omega), copyHalves_other (by omega), copyHalves_other (by omega)]

theorem tcpSendNoconn_other {uipLen ipid : BitVec 16} (hx : x = 23 ∨ 26 ≤ x ∧ x < 52 ∨ 54 ≤ x) :
    tcpSendNoconn uipLen ipid buf x = buf x := by
  rw [tcpSendNoconn]
  rw [ipSendNolen_other _ _ (by omega), setByte_other _ _ (by omega), setByte_other _ _ (by omega),
    setLen_other _ _ (by omega), setByte_other _ _ (by omega)]

theorem synOptions_other {mss : BitVec 16} (hx : x < 46 ∨ 46 < x ∧ x < 54 ∨ 58 ≤ x) :
    synOptions mss buf x = buf x := by
  rw [synOptions]
  rw [setByte_other _ _ (by omega), setByte_other _ _ (by omega), setByte_other _ _ (by omega),
    setByte_other _ _ (by omega), setByte_other _ _ (by omega)]

-- What the IP header of a segment has that a host looks at first.
structure Unfragmented (m : Bytes) : Prop where
  vhl : m 14 = 0x45
  whole : m 20 = 0 ∧ m 21 = 0
  proto : m 23 = 6

theorem unfragmented_tcpSendNoconn {uipLen ipid : BitVec 16} (hproto : buf 23 = 6) :
    Unfragmented (tcpSendNoconn uipLen ipid buf) := by
  refine ⟨?_, ⟨?_, ?_⟩, (tcpSendNoconn_proto uipLen ipid buf).trans hproto⟩
  all_goals
    rw [tcpSendNoconn, ipSendNolen, complemented_other _ (by omega), setByte_other _ _ (by omega),
      setByte_other _ _ (by omega)]
  · rw [setByte_other _ _ (by omega), setByte_other _ _ (by omega), setByte_other _ _ (by omega)]
    exact setByte_same _ _ _
  · exact Function.update_of_ne (by omega) _ _
  · exact setByte_same _ _ _

theorem urgp_tcpSendNoconn (uipLen ipid : BitVec 16) (buf : Bytes) :
    be (tcpSendNoconn uipLen ipid buf) 52 = 0 := by
  rw [be, tcpSendNoconn, ipSendNolen_other _ _ (by omega), ipSendNolen_other _ _ (by omega),
    setByte_other _ _ (by omega), setByte_same, setByte_same]
  rfl

-- What tcp_send writes of a connection.
structure Headed (cfg : Config) (c : TcpConn) (hostaddr : Ipaddr) (m : Bytes) : Prop where
  proto : m 23 = 6
  host : ipaddrAt m 26 = hostaddr
  rip : ipaddrAt m 30 = c.ripaddr
  lport : load m 34 = BitVec.ofNat 16 c.lport
  rport : load m 36 = BitVec.ofNat 16 c.rport
  seqno : word m 38 = c.sndNxt
  ackno : word m 42 = c.rcvNxt
  wnd : be m 48 = (tcpOut cfg c hostaddr).wnd.toNat

theorem headed_tcpSendHeader (cfg : Config) (c : TcpConn) (hostaddr : Ipaddr) (buf : Bytes) :
    Headed cfg c hostaddr (tcpSendHeader (tcpOut cfg c hostaddr) buf) where
  proto := by
    rw [tcpSendHeader]
    rw [setByte_other _ _ (by omega), setByte_other _ _ (by omega), copyHalves_other (by omega),
      copyHalves_other (by omega), store_other _ (by omega), store_other _ (by omega)]
    exact setByte_same _ _ _
  host := by
    rw [tcpSendHeader]
    apply ipaddrAt_of_copyHalves
    intro k hk
    rw [setByte_other _ _ (by omega), setByte_other _ _ (by omega), copyHalves_other (by omega)]
    rfl
  rip := by
    rw [tcpSendHeader]
    apply ipaddrAt_of_copyHalves
    intro k hk
    rw [setByte_other _ _ (by omega), setByte_other _ _ (by omega)]
    rfl
  lport := by
    rw [tcpSendHeader]
    apply load_of_store
    intro k hk
    rw [setByte_other _ _ (by omega), setByte_other _ _ (by omega), copyHalves_other (by omega),
      copyHalves_other (by omega), store_other _ (by omega)]
    rfl
  rport := by
    rw [tcpSendHeader]
    apply load_of_store
    intro k hk
    rw [setByte_other _ _ (by omega), setByte_other _ _ (by omega), copyHalves_other (by omega),
      copyHalves_other (by omega)]
    rfl
  seqno := by
    rw [tcpSendHeader]
    apply word_of_copyHalves
    intro k hk
    rw [setByte_other _ _ (by omega), setByte_other _ _ (by omega), copyHalves_other (by omega),
      copyHalves_other (by omega), store_other _ (by omega), store_other _ (by omega),
      setByte_other _ _ (by omega)]
    rfl
  ackno := by
    rw [tcpSendHeader]
    apply word_of_copyHalves
    intro k hk
    rw [setByte_other _ _ (by omega), setByte_other _ _ (by omega), copyHalves_other (by omega),
      copyHalves_other (by omega), store_other _ (by omega), store_other _ (by omega),
      setByte_other _ _ (by omega), copyHalves_other (by omega)]
    rfl
  wnd := by
    rw [tcpSendHeader, be]
    rw [setByte_other _ _ (by omega), setByte_same, setByte_same]
    exact toNat_bytes _

theorem Headed.congr {cfg : Config} {c : TcpConn} {hostaddr : Ipaddr} (h : Headed cfg c hostaddr m)
    (hm : ∀ x, x = 23 ∨ 26 ≤ x ∧ x < 50 → m' x = m x) : Headed cfg c hostaddr m' where
  proto := (hm 23 (by omega)).trans h.proto
  host := (ipaddrAt_congr fun k hk => hm (26 + k) (by omega)).trans h.host
  rip := (ipaddrAt_congr fun k hk => hm (30 + k) (by omega)).trans h.rip
  lport := by
    rw [load, hm 34 (by omega), hm 35 (by omega)]
    exact h.lport
  rport := by
    rw [load, hm 36 (by omega), hm 37 (by omega)]
    exact h.rport
  seqno := (word_congr fun k hk => hm (38 + k) (by omega)).trans h.seqno
  ackno := (word_congr fun k hk => hm (42 + k) (by omega)).trans h.ackno
  wnd := by
    rw [be, hm 48 (by omega), hm 49 (by omega)]
    exact h.wnd

end Fields

section Sent

variable {cfg : Config} {c : TcpConn} {flags : Ctl} {len : Nat} {hostaddr : Ipaddr}
  {ipid : BitVec 16} {buf m : Bytes}

-- The segment that tcpSend puts on the wire.
def sentSegment (cfg : Config) (c : TcpConn) (flags : Ctl) (len : Nat) (hostaddr : Ipaddr) :
    Segment where
  srcipaddr := hostaddr
  srcport := c.lport
  destport := c.rport
  seqno := c.sndNxt
  ackno := c.rcvNxt
  fin := flags.fin
  syn := flags.syn
  rst := flags.rst
  psh := flags.psh
  ack := flags.ack
  urg := false
  wnd := if c.tcpstateflags.stopped then 0 else cfg.receiveWindow
  urgp := 0
  len := len
  mssOption := if flags.syn then some cfg.tcpMss else none

theorem ctl_byte : ∀ fin syn rst psh ack : Bool,
    let b := (Ctl.mk fin syn rst psh ack).byte
    (b &&& 0x01 != 0) = fin ∧ (b &&& 0x02 != 0) = syn ∧ (b &&& 0x04 != 0) = rst ∧
      (b &&& 0x08 != 0) = psh ∧ (b &&& 0x10 != 0) = ack ∧ (b &&& 0x20 != 0) = false := by
  decide

theorem hasFlag_byte (h : m 47 = flags.byte) :
    hasFlag 0x01 m = flags.fin ∧ hasFlag 0x02 m = flags.syn ∧ hasFlag 0x04 m = flags.rst ∧
      hasFlag 0x08 m = flags.psh ∧ hasFlag 0x10 m = flags.ack ∧ hasFlag 0x20 m = false := by
  have hbyte := ctl_byte flags.fin flags.syn flags.rst flags.psh flags.ack
  rw [hasFlag, hasFlag, hasFlag, hasFlag, hasFlag, hasFlag, h]
  exact hbyte

theorem mssOption_none (h : m 46 = 0x50) : mssOption 41 m = some none := by
  have hnot : ¬ HasOptions m := by
    rw [HasOptions, h]
    decide
  rw [mssOption, if_neg hnot]

-- The flags and the options, once they are written.
structure Marked (cfg : Config) (flags : Ctl) (m : Bytes) : Prop where
  byte : m 47 = flags.byte
  offset : m 46 = if flags.syn then 0x60 else 0x50
  options : flags.syn → View.Shows (fun q => some (m q)) 54
    (TcpOption.mss (BitVec.ofNat 16 cfg.tcpMss)).bytes

theorem Marked.mss (h : Marked cfg flags m) (hmss : cfg.tcpMss < 65536) :
    ((mssOption 41 m).getD none).map BitVec.toNat =
      if flags.syn then some cfg.tcpMss else none := by
  cases hsyn : flags.syn with
  | true =>
    have hoffset := h.offset
    rw [hsyn] at hoffset
    rw [mssOption_syn hoffset (h.options hsyn)]
    exact congrArg some (Nat.mod_eq_of_lt hmss)
  | false =>
    have hoffset := h.offset
    rw [hsyn] at hoffset
    rw [mssOption_none hoffset]
    rfl

theorem Marked.segment (h : Marked cfg flags m) (hhead : Headed cfg c hostaddr m)
    (hmss : cfg.tcpMss < 65536) (hwindow : cfg.receiveWindow < 65536)
    (hports : c.lport < 65536 ∧ c.rport < 65536) (hlen : len + 40 < 65536)
    (hsyn : flags.syn → len = 0) (hurgp : be m 52 = 0) :
    tcpSegment (segmentLen flags len).toNat m = sentSegment cfg c flags len hostaddr := by
  obtain ⟨hfin, hsynFlag, hrst, hpsh, hack, hurg⟩ := hasFlag_byte h.byte
  have hwnd : (tcpOut cfg c hostaddr).wnd.toNat =
      if c.tcpstateflags.stopped then 0 else cfg.receiveWindow := by
    rw [tcpOut, apply_ite BitVec.toNat, BitVec.toNat_ofNat, Nat.mod_eq_of_lt hwindow]
    rfl
  have hdata : ((segmentLen flags len).toNat + 65536 - 4 * (m 46 >>> 4).toNat - 20) % 65536 =
      len := by
    rw [h.offset, segmentLen, BitVec.toNat_ofNat]
    cases hs : flags.syn with
    | true => rw [hsyn hs]; rfl
    | false =>
      change ((len + 40) % 65536 + 65536 - 4 * 5 - 20) % 65536 = len
      omega
  rw [tcpSegment, sentSegment, hhead.host, hhead.lport, hhead.rport, hhead.seqno, hhead.ackno,
    hfin, hsynFlag, hrst, hpsh, hack, hurg, hhead.wnd, hwnd, hurgp, hdata, h.mss hmss,
    BitVec.toNat_ofNat, BitVec.toNat_ofNat, Nat.mod_eq_of_lt hports.1, Nat.mod_eq_of_lt hports.2]

def Composed (cfg : Config) (c : TcpConn) (flags : Ctl) (hostaddr : Ipaddr) (m : Bytes) : Prop :=
  Unfragmented m ∧ Headed cfg c hostaddr m ∧ Marked cfg flags m ∧ be m 52 = 0

theorem composed_congr {m' : Bytes} (h : Composed cfg c flags hostaddr m)
    (hm : ∀ x, 14 ≤ x → m' x = m x) : Composed cfg c flags hostaddr m' := by
  obtain ⟨hopen, hhead, hmark, hurgp⟩ := h
  refine ⟨⟨?_, ⟨?_, ?_⟩, ?_⟩, hhead.congr fun x hx => hm x (by omega), ⟨?_, ?_, fun hsyn => ?_⟩, ?_⟩
  · exact (hm 14 (by omega)).trans hopen.vhl
  · exact (hm 20 (by omega)).trans hopen.whole.1
  · exact (hm 21 (by omega)).trans hopen.whole.2
  · exact (hm 23 (by omega)).trans hopen.proto
  · exact (hm 47 (by omega)).trans hmark.byte
  · exact (hm 46 (by omega)).trans hmark.offset
  · obtain ⟨h0, h1, h2, h3, -⟩ := hmark.options hsyn
    exact ⟨(congrArg some (hm 54 (by omega))).trans h0, (congrArg some (hm 55 (by omega))).trans h1,
      (congrArg some (hm 56 (by omega))).trans h2, (congrArg some (hm 57 (by omega))).trans h3,
      trivial⟩
  · rw [be, hm 52 (by omega), hm 53 (by omega)]
    exact hurgp

theorem prepared_tcpSendBuf (cfg : Config) (c : TcpConn) (hostaddr : Ipaddr) (ipid : BitVec 16)
    (eth buf : Bytes) (hlen : len + 54 < 65536) :
    Prepared (ethHeader eth (tcpSendBuf cfg c flags len hostaddr ipid buf))
      ((segmentLen flags len).toNat + 14) := by
  have hle : 40 ≤ (segmentLen flags len).toNat ∧ (segmentLen flags len).toNat + 14 < 65536 := by
    rw [segmentLen, BitVec.toNat_ofNat]
    split_ifs <;> omega
  exact prepared_tcpSendNoconn _ _ _ _ (headed_tcpSendHeader cfg c hostaddr _).proto hle.1 hle.2

theorem tcpSendBuf_data {x : Nat} (hsyn : flags.syn = false) (hx : 54 ≤ x) :
    tcpSendBuf cfg c flags len hostaddr ipid buf x = buf x := by
  rw [tcpSendBuf]
  rw [tcpSendNoconn_other (by omega), tcpSendHeader_other (by omega), hsyn]
  change setByte 46 0x50 (setByte 47 flags.byte buf) x = buf x
  rw [setByte_other _ _ (by omega), setByte_other _ _ (by omega)]

theorem composed_tcpSendBuf (cfg : Config) (c : TcpConn) (flags : Ctl) (len : Nat)
    (hostaddr : Ipaddr) (ipid : BitVec 16) (buf : Bytes) :
    Composed cfg c flags hostaddr (tcpSendBuf cfg c flags len hostaddr ipid buf) := by
  obtain ⟨b, hb⟩ : ∃ b, b = if flags.syn then
      synOptions (BitVec.ofNat 16 cfg.tcpMss) (setByte 47 flags.byte buf)
      else setByte 46 0x50 (setByte 47 flags.byte buf) := ⟨_, rfl⟩
  have hm : tcpSendBuf cfg c flags len hostaddr ipid buf =
      tcpSendNoconn (segmentLen flags len) ipid (tcpSendHeader (tcpOut cfg c hostaddr) b) := by
    rw [hb]
    rfl
  have hhead := headed_tcpSendHeader cfg c hostaddr b
  have hother (x : Nat) (hx : 46 ≤ x ∧ x < 48 ∨ 54 ≤ x) :
      tcpSendBuf cfg c flags len hostaddr ipid buf x = b x := by
    rw [hm, tcpSendNoconn_other (by omega), tcpSendHeader_other (by omega)]
  refine ⟨hm ▸ unfragmented_tcpSendNoconn hhead.proto, ?_, ⟨?_, ?_, fun hsyn => ?_⟩, ?_⟩
  · rw [hm]
    exact hhead.congr fun x hx => tcpSendNoconn_other (by omega)
  · rw [hother 47 (by omega), hb]
    split_ifs
    · rw [synOptions_other (by omega)]
      exact setByte_same _ _ _
    · rw [setByte_other _ _ (by omega)]
      exact setByte_same _ _ _
  · rw [hother 46 (by omega), hb]
    split_ifs <;> exact setByte_same _ _ _
  · rw [if_pos hsyn] at hb
    have hbyte (x : Nat) (hx : 54 ≤ x) : some (tcpSendBuf cfg c flags len hostaddr ipid buf x) =
        some (synOptions (BitVec.ofNat 16 cfg.tcpMss) (setByte 47 flags.byte buf) x) := by
      rw [hother x (by omega), hb]
    exact ⟨hbyte 54 (by omega), hbyte 55 (by omega), hbyte 56 (by omega), hbyte 57 (by omega),
      trivial⟩
  · rw [hm]
    exact urgp_tcpSendNoconn _ _ _

end Sent

section Frames

variable {buf E : Bytes} {uipLen clientBufSize : Nat} {f : Frame} {data : List (BitVec 8)}
  {seqno : BitVec 32} {ripaddr : Ipaddr}

theorem split_send_frame {len : Nat} (hlen : 40 ≤ len) {m : Bytes}
    (hf : f ∈ (uipSplitOutputSend len m).1) : 54 ≤ f.length ∧
      ∀ a, a < 34 → ¬ (24 ≤ a ∧ a < 26) → received f a = m a := by
  obtain ⟨g, hg, hlength, hbytes⟩ := xcoredevSend_frame (len + 14) (by omega)
    (complemented uipIpchksum 24 (complemented uipTcpchksum 50 m))
  rw [uipSplitOutputSend, hg, List.mem_singleton] at hf
  subst hf
  refine ⟨by omega, fun a ha hsum => ?_⟩
  rw [hbytes a (by omega), two_complements_other _ (by omega)]

-- Each frame has the IP header of the packet but for its length and its checksum.
theorem frames_header (h : Prepared buf uipLen)
    (hf : f ∈ uipSplitOutput clientBufSize uipLen buf) : 54 ≤ f.length ∧
      ∀ a, a < 34 → ¬ (16 ≤ a ∧ a < 18) → ¬ (24 ≤ a ∧ a < 26) → received f a = buf a := by
  have hlower := h.lower
  obtain ⟨len1, hlen1⟩ : ∃ n, n = (uipLen - 40 - 14) / 2 / 4 * 4 := ⟨_, rfl⟩
  unfold uipSplitOutput splitThreshold at hf
  rw [if_pos h.proto] at hf
  split at hf
  next hsplit =>
    dsimp only at hf
    rw [← hlen1, List.mem_append] at hf
    rcases hf with hf | hf
    · obtain ⟨hlength, hbytes⟩ := split_send_frame (by omega) hf
      refine ⟨hlength, fun a ha hlen hsum => ?_⟩
      rw [hbytes a ha hsum, setLen_other _ _ (by omega)]
    · obtain ⟨hlength, hbytes⟩ := split_send_frame (by omega) hf
      refine ⟨hlength, fun a ha hlen hsum => ?_⟩
      rw [hbytes a ha hsum, storeWord_other _ (by omega), copyDown_spec _ _ (by omega),
        if_neg (by omega), setLen_other _ _ (by omega), splitOutputSend_buf _ (by omega),
        two_complements_other _ (by omega), setLen_other _ _ (by omega)]
  next =>
    obtain ⟨g, hg, hlength, hbytes⟩ := xcoredevSend_frame uipLen (by omega)
      (complemented uipTcpchksum 50 buf)
    rw [hg, List.mem_singleton] at hf
    subst hf
    refine ⟨by omega, fun a ha hlen hsum => ?_⟩
    rw [hbytes a (by omega), complemented_other _ (by omega)]

theorem Carries.length (h : Carries f data seqno E) (hlength : 54 ≤ f.length) :
    ipTotalLen f ≤ f.length := by
  have hpayload := congrArg List.length h.payload
  rw [Uip.payload, List.length_take, List.length_drop, h.len] at hpayload
  rw [h.len]
  omega

theorem Carries.slice (h : Carries f data seqno E) : slice (received f) 54 data.length = data := by
  refine List.ext_getElem (length_slice _ _ _) fun j hj hj' => ?_
  have hget : (Uip.payload f).getD j 0 = received f (54 + j) := by
    rw [Uip.payload, received, List.getD_eq_getElem?_getD, List.getD_eq_getElem?_getD,
      List.getElem?_take_of_lt (by rw [h.len]; omega), List.getElem?_drop]
  rw [h.payload, List.getD_eq_getElem _ _ hj'] at hget
  rw [hget, ← getD_slice (received f) 54 hj' 0, List.getD_eq_getElem]

theorem ipInput_tcp {m : Bytes} {hostaddr : Ipaddr} (h : Unfragmented m)
    (hlen : 256 * (m 16).toNat + (m 17).toNat ≤ uipLen) (hsum : uipIpchksum m = 0xffff#16)
    (hdest : hostaddr = ipaddrAt m 30 ∨ hostaddr = zeroIpaddr) (useIgmp : Bool)
    (groups : Groups) : ipInput useIgmp groups hostaddr uipLen m =
      (.tcp, 256 * (m 16).toNat + (m 17).toNat) := by
  have hheader : ipHeader useIgmp m = .tcp := by
    rw [ipHeader, if_neg (not_not.mpr hsum), if_pos h.proto]
  have hto : ipDest useIgmp groups hostaddr m = .tcp := by
    rw [ipDest]
    split_ifs with hzero hudp hother
    · exact hheader
    · exact absurd (h.proto.symm.trans hudp.1) (by decide)
    · exact absurd (hdest.resolve_right hzero).symm hother.1
    · exact hheader
  have hfrag : ¬ (m 20 &&& 0x3f ≠ 0 ∨ m 21 ≠ 0) := by
    rw [h.whole.1, h.whole.2]
    decide
  rw [ipInput]
  rw [if_neg (not_not.mpr h.vhl), if_neg (Nat.not_lt.mpr hlen), if_neg hfrag, hto]

-- The host that a segment is for takes it, or one that has no address.
structure Arrives (ripaddr : Ipaddr) (f : Frame) (seg : Segment) (data : List (BitVec 8)) :
    Prop where
  input : ∀ useIgmp groups hostaddr, hostaddr = ripaddr ∨ hostaddr = zeroIpaddr →
    ipInput useIgmp groups hostaddr f.length (received f) = (.tcp, ipTotalLen f)
  chksum : uipTcpchksum (received f) = 0xffff#16
  segment : tcpSegment (ipTotalLen f) (received f) = seg
  data : slice (received f) 54 seg.len = data

theorem Carries.input (h : Carries f data seqno E) (hprep : Prepared E uipLen)
    (hopen : Unfragmented E)
    (hf : f ∈ uipSplitOutput clientBufSize uipLen E) (hrip : ipaddrAt E 30 = ripaddr)
    (useIgmp : Bool) (groups : Groups) (hostaddr : Ipaddr)
    (hhost : hostaddr = ripaddr ∨ hostaddr = zeroIpaddr) :
    ipInput useIgmp groups hostaddr f.length (received f) = (.tcp, ipTotalLen f) := by
  obtain ⟨hlength, hbytes⟩ := frames_header hprep hf
  have hrip' : ipaddrAt (received f) 30 = ripaddr := by
    rw [← hrip]
    exact ipaddrAt_congr fun k hk => hbytes (30 + k) (by omega) (by omega) (by omega)
  refine ipInput_tcp ⟨?_, ⟨?_, ?_⟩, ?_⟩ (h.length hlength) h.ip (hrip' ▸ hhost) useIgmp groups
  · exact (hbytes 14 (by omega) (by omega) (by omega)).trans hopen.vhl
  · exact (hbytes 20 (by omega) (by omega) (by omega)).trans hopen.whole.1
  · exact (hbytes 21 (by omega) (by omega) (by omega)).trans hopen.whole.2
  · exact (hbytes 23 (by omega) (by omega) (by omega)).trans hopen.proto

theorem Carries.segment (h : Carries f data seqno E) (hprep : Prepared E uipLen)
    (hf : f ∈ uipSplitOutput clientBufSize uipLen E)
    (hopt : mssOption 41 (received f) = mssOption 41 E) (n : Nat) :
    tcpSegment (ipTotalLen f) (received f) = { tcpSegment n E with
      seqno := seqno
      len := (ipTotalLen f + 65536 - 4 * (E 46 >>> 4).toNat - 20) % 65536 } := by
  obtain ⟨-, hbytes⟩ := frames_header hprep hf
  have hbyte (x : Nat) (hx : 34 ≤ x ∧ x < 38 ∨ 42 ≤ x ∧ x < 50 ∨ 52 ≤ x ∧ x < 54) :
      received f x = E x := h.header x (by omega) (by omega) (by omega) (by omega)
  have hsrc : ipaddrAt (received f) 26 = ipaddrAt E 26 :=
    ipaddrAt_congr fun k hk => hbytes (26 + k) (by omega) (by omega) (by omega)
  have hackno : word (received f) 42 = word E 42 := word_congr fun k hk => hbyte (42 + k) (by omega)
  rw [tcpSegment, hsrc, hackno, h.seqno, hopt, load, load, be, be, hbyte 34 (by omega),
    hbyte 35 (by omega), hbyte 36 (by omega), hbyte 37 (by omega), hbyte 48 (by omega),
    hbyte 49 (by omega), hbyte 52 (by omega), hbyte 53 (by omega), hbyte 46 (by omega),
    hasFlag, hasFlag, hasFlag, hasFlag, hasFlag, hasFlag, hbyte 47 (by omega)]
  rfl

end Frames

section Wire

variable {nT nU : Nat}

-- A segment goes out in one frame, or in two that carry the parts of its data.
def Crosses (ripaddr : Ipaddr) (frames : List Frame) (seg : Segment) (data : List (BitVec 8)) :
    Prop :=
  (∃ f, frames = [f] ∧ Arrives ripaddr f seg data) ∨
    ∃ f₁ f₂ data₁ data₂, frames = [f₁, f₂] ∧ data₁ ++ data₂ = data ∧
      Arrives ripaddr f₁ { seg with len := data₁.length } data₁ ∧
      Arrives ripaddr f₂ { seg with
        seqno := seg.seqno + BitVec.ofNat 32 data₁.length, len := data₂.length } data₂

-- A packet whose header has no options.
theorem crosses_plain {E : Bytes} {uipLen clientBufSize : Nat} {ripaddr : Ipaddr}
    (hprep : Prepared E uipLen) (hopen : Unfragmented E) (hrip : ipaddrAt E 30 = ripaddr)
    (hoffset : E 46 = 0x50) (hfit : uipLen - 54 ≤ clientBufSize) :
    Crosses ripaddr (uipSplitOutput clientBufSize uipLen E) (tcpSegment (uipLen - 14) E)
      (slice E 54 (uipLen - 54)) := by
  have hlower := hprep.lower
  have hupper := hprep.upper
  have harrives {f : Frame} {data : List (BitVec 8)} {seqno : BitVec 32}
      (hf : f ∈ uipSplitOutput clientBufSize uipLen E) (h : Carries f data seqno E)
      (hdata : data.length + 40 < 65536) :
      Arrives ripaddr f { tcpSegment (uipLen - 14) E with
        seqno := seqno, len := data.length } data := by
    have hopt : mssOption 41 (received f) = mssOption 41 E := by
      rw [mssOption_none hoffset, mssOption_none]
      exact (h.header 46 (by omega) (by omega) (by omega) (by omega)).trans hoffset
    have hlen : (ipTotalLen f + 65536 - 4 * (E 46 >>> 4).toNat - 20) % 65536 = data.length := by
      rw [hoffset, h.len]
      change (data.length + 40 + 65536 - 4 * 5 - 20) % 65536 = data.length
      omega
    refine ⟨h.input hprep hopen hf hrip, h.tcp, ?_, h.slice⟩
    rw [h.segment hprep hf hopt (uipLen - 14), hlen]
  rcases Nat.lt_or_ge (splitThreshold clientBufSize) (uipLen - 54) with hsplit | hwhole
  · obtain ⟨f₁, f₂, data₁, data₂, hframes, hdata, h₁, h₂⟩ := split_carries hprep hfit hsplit
    have hlength := congrArg List.length hdata
    rw [List.length_append, length_slice] at hlength
    refine .inr ⟨f₁, f₂, data₁, data₂, hframes, hdata, ?_, ?_⟩
    · exact harrives (hframes ▸ List.mem_cons_self) h₁ (by omega)
    · exact harrives (hframes ▸ List.mem_cons_of_mem _ List.mem_cons_self) h₂ (by omega)
  · obtain ⟨f, hframe, h⟩ := whole_carries hprep hwhole
    have harr := harrives (hframe ▸ List.mem_cons_self) h (by rw [length_slice]; omega)
    refine .inl ⟨f, hframe, ?_⟩
    have hseg : { tcpSegment (uipLen - 14) E with
        seqno := word E 38, len := (slice E 54 (uipLen - 54)).length } =
          tcpSegment (uipLen - 14) E := by
      have hlen : (uipLen - 14 + 65536 - 4 * (E 46 >>> 4).toNat - 20) % 65536 = uipLen - 54 := by
        rw [hoffset]
        change (uipLen - 14 + 65536 - 4 * 5 - 20) % 65536 = uipLen - 54
        omega
      rw [length_slice, tcpSegment, hlen]
    rwa [hseg] at harr

theorem crosses_syn {E : Bytes} {cfg : Config} {flags : Ctl} {ripaddr : Ipaddr}
    (hprep : Prepared E 58) (hopen : Unfragmented E) (hrip : ipaddrAt E 30 = ripaddr)
    (hmark : Marked cfg flags E) (hsyn : flags.syn) (clientBufSize : Nat) :
    Crosses ripaddr (uipSplitOutput clientBufSize 58 E) (tcpSegment 44 E) [] := by
  have hwhole : 58 - 54 ≤ splitThreshold clientBufSize := by
    unfold splitThreshold
    omega
  obtain ⟨f, hframe, h⟩ := whole_carries hprep hwhole
  have hf : f ∈ uipSplitOutput clientBufSize 58 E := hframe ▸ List.mem_cons_self
  have hoffset : E 46 = 0x60 := by
    rw [hmark.offset, if_pos hsyn]
  have hoffset' : received f 46 = 0x60 :=
    (h.header 46 (by omega) (by omega) (by omega) (by omega)).trans hoffset
  have hslice := h.slice
  rw [length_slice] at hslice
  have hbyte (j : Nat) (hj : j < 4) : some (received f (54 + j)) = some (E (54 + j)) := by
    rw [← getD_slice (received f) 54 hj 0, hslice, getD_slice E 54 hj 0]
  obtain ⟨h0, h1, h2, h3, -⟩ := hmark.options hsyn
  have hopt : mssOption 41 (received f) = mssOption 41 E := by
    rw [mssOption_syn hoffset (hmark.options hsyn), mssOption_syn hoffset']
    exact ⟨(hbyte 0 (by omega)).trans h0, (hbyte 1 (by omega)).trans h1,
      (hbyte 2 (by omega)).trans h2, (hbyte 3 (by omega)).trans h3, trivial⟩
  have hseg := h.segment hprep hf hopt 44
  have hlen : (ipTotalLen f + 65536 - 4 * (E 46 >>> 4).toNat - 20) % 65536 = 0 := by
    rw [hoffset, h.len, length_slice]
    rfl
  have hlen' : (44 + 65536 - 4 * (E 46 >>> 4).toNat - 20) % 65536 = 0 := by
    rw [hoffset]
    rfl
  refine .inl ⟨f, hframe, h.input hprep hopen hf hrip, h.tcp, ?_, ?_⟩
  · rw [hseg, hlen, tcpSegment, hlen']
  · rw [tcpSegment, hlen']
    rfl

theorem crosses_sentSegment (cfg : Config) (c : TcpConn) (flags : Ctl) (len : Nat)
    (hostaddr : Ipaddr) (ipid : BitVec 16) (eth buf : Bytes) (hmss : cfg.tcpMss < 65536)
    (hwindow : cfg.receiveWindow < 65536) (hports : c.lport < 65536 ∧ c.rport < 65536)
    (hlen : len + 54 < 65536) (hfit : len ≤ cfg.clientBufSize) (hsyn : flags.syn → len = 0) :
    Crosses c.ripaddr
      (uipSplitOutput cfg.clientBufSize ((segmentLen flags len).toNat + 14)
        (ethHeader eth (tcpSendBuf cfg c flags len hostaddr ipid buf)))
      (sentSegment cfg c flags len hostaddr) (slice buf 54 len) := by
  obtain ⟨E, hE⟩ : ∃ E, E = ethHeader eth
      (tcpSendBuf cfg c flags len hostaddr ipid buf) := ⟨_, rfl⟩
  have hbytes (x : Nat) (hx : 14 ≤ x) :
      E x = tcpSendBuf cfg c flags len hostaddr ipid buf x := by
    rw [hE, ethHeader, if_neg (by omega)]
  obtain ⟨hopen, hhead, hmark, hurgp⟩ :=
    composed_congr (composed_tcpSendBuf cfg c flags len hostaddr ipid buf) hbytes
  have hsegment := hmark.segment hhead hmss hwindow hports (by omega) hsyn hurgp
  have hprep : Prepared E ((segmentLen flags len).toNat + 14) :=
    hE ▸ prepared_tcpSendBuf cfg c hostaddr ipid eth buf hlen
  rw [← hE]
  cases hs : flags.syn with
  | true =>
    have hlen0 := hsyn hs
    have h44 : (segmentLen flags len).toNat = 44 := by
      rw [segmentLen, hs]
      rfl
    rw [h44] at hprep hsegment ⊢
    rw [← hsegment, hlen0]
    exact crosses_syn hprep hopen hhead.rip hmark hs _
  | false =>
    have hlen40 : (segmentLen flags len).toNat = len + 40 := by
      rw [segmentLen, hs]
      change (len + 40) % 65536 = len + 40
      exact Nat.mod_eq_of_lt (by omega)
    have hoffset : E 46 = 0x50 := by
      rw [hmark.offset, hs]
      rfl
    have hdata : slice E 54 len = slice buf 54 len := by
      refine slice_congr fun j hj => ?_
      rw [hbytes _ (by omega), tcpSendBuf_data hs (by omega)]
    have hpayload : (segmentLen flags len).toNat + 14 - 54 = len := by omega
    have hcrosses := crosses_plain hprep hopen hhead.rip hoffset (hpayload.trans_le hfit)
    rwa [Nat.add_sub_cancel, hsegment, hpayload, hdata] at hcrosses

theorem xtcpSwapWords_some (m : Bytes) : ∃ s, xtcpSwapWords 38 42 m = some s ∧
    word s 38 = word m 42 ∧ ∀ x, x < 38 ∨ 46 ≤ x → s x = m x := by
  obtain ⟨p, hp⟩ : ∃ p, p = store (store m 38 (load m 42)) 42 (load m 38) := ⟨_, rfl⟩
  obtain ⟨s, hs⟩ : ∃ s, s = store (store p 40 (load p 44)) 44 (load p 40) := ⟨_, rfl⟩
  have hlow : load s 38 = load m 42 := by
    rw [hs, load_store_other _ (by omega), load_store_other _ (by omega), hp,
      load_store_other _ (by omega), load_store_same]
  have hhigh : load s (38 + 2) = load m (42 + 2) := by
    rw [hs, load_store_other _ (by omega), load_store_same, hp, load_store_other _ (by omega),
      load_store_other _ (by omega)]
  refine ⟨s, ?_, ?_, fun x hx => ?_⟩
  · simp [xtcpSwapWords, load?, store?, hs, hp]
  · rw [word_eq, word_eq, hlow, hhigh]
  · rw [hs, store_other _ (by omega), store_other _ (by omega), hp, store_other _ (by omega),
      store_other _ (by omega)]

theorem resetNumbers_some (m : Bytes) : ∃ m', resetNumbers 0 m = some m' ∧
    word m' 38 = word m 42 ∧ word m' 42 = incremented (word m 38) ∧
    ∀ x, x < 38 ∨ 46 ≤ x → m' x = m x := by
  have hseqno : seqnoAddr 0 = 38 := rfl
  have hackno : acknoAddr 0 = 42 := rfl
  obtain ⟨s, hswap, hword, hother⟩ := xtcpSwapWords_some m
  have hreset : resetNumbers 0 m =
      some (storeWord s 42 (incrementHalves (load s (42 + 2)) (load s 42))) := by
    rw [resetNumbers, hseqno, hackno, hswap, ← hackno, Option.bind_eq_bind, Option.bind_some,
      xtcpIncrementWord_ackno]
    exact v6_xtcpIncrementWord_even rfl s
  have hincremented := word_resetNumbers hreset
  rw [hseqno, hackno] at hincremented
  refine ⟨_, hreset, ?_, hincremented, fun x hx => ?_⟩
  · rw [← hword]
    exact word_congr fun k hk => storeWord_other _ (by omega)
  · rw [storeWord_other _ (by omega), hother x hx]

-- What a reset has of the packet that it answers.
structure Answered (hostaddr : Ipaddr) (buf reply : Bytes) : Prop where
  unfragmented : Unfragmented reply
  src : ipaddrAt reply 26 = hostaddr
  dest : ipaddrAt reply 30 = ipaddrAt buf 26
  srcport : load reply 34 = load buf 36
  destport : load reply 36 = load buf 34
  seqno : word reply 38 = word buf 42
  ackno : word reply 42 = incremented (word buf 38)
  offset : reply 46 = 0x50
  byte : reply 47 = Ctl.rstAck.byte
  wnd : be reply 48 = be buf 48
  urgp : be reply 52 = 0

theorem resetBuf_some (hostaddr : Ipaddr) (ipid : BitVec 16) (eth : Bytes) {buf : Bytes}
    (hproto : buf 23 = 6) : ∃ reply, resetBuf hostaddr ipid buf = some reply ∧
      Prepared (ethHeader eth reply) 54 ∧ Answered hostaddr buf reply := by
  obtain ⟨m, hm, hseqno, hackno, hother⟩ :=
    resetNumbers_some (setByte 46 0x50 (setByte 47 Ctl.rstAck.byte buf))
  have hsame (x : Nat) (hx : x < 38 ∨ 48 ≤ x) : m x = buf x := by
    rw [hother x (by omega), setByte_other _ _ (by omega), setByte_other _ _ (by omega)]
  have hword (a : Nat) (ha : a + 4 ≤ 46) :
      word (setByte 46 0x50 (setByte 47 Ctl.rstAck.byte buf)) a = word buf a :=
    word_congr fun k hk => by rw [setByte_other _ _ (by omega), setByte_other _ _ (by omega)]
  obtain ⟨p, hp⟩ : ∃ p, p = store (store m 34 (load m 36)) 36 (load m 34) := ⟨_, rfl⟩
  obtain ⟨b, hb⟩ : ∃ b, b = setIpaddr 26 hostaddr (setIpaddr 30 (ipaddrAt p 26) p) := ⟨_, rfl⟩
  have hbp (x : Nat) (hx : x < 26 ∨ 34 ≤ x) : b x = p x := by
    rw [hb, setIpaddr_other (by omega), setIpaddr_other (by omega)]
  have hpm (x : Nat) (hx : x < 34 ∨ 38 ≤ x) : p x = m x := by
    rw [hp, store_other _ (by omega), store_other _ (by omega)]
  have hreply (x : Nat) (hx : x = 23 ∨ 26 ≤ x ∧ x < 52) : tcpSendNoconn 40 ipid b x = b x :=
    tcpSendNoconn_other (by omega)
  have hload (a : Nat) (ha : 34 ≤ a ∧ a + 2 ≤ 38) :
      load (tcpSendNoconn 40 ipid b) a = load p a := by
    rw [load, load, hreply _ (by omega), hreply _ (by omega), hbp _ (by omega), hbp _ (by omega)]
  have hreplyword (a : Nat) (ha : 38 ≤ a ∧ a + 4 ≤ 46) :
      word (tcpSendNoconn 40 ipid b) a = word m a :=
    word_congr fun k hk => by rw [hreply _ (by omega), hbp _ (by omega), hpm _ (by omega)]
  have hmload (a : Nat) (ha : a + 2 ≤ 38) : load m a = load buf a := by
    rw [load, load, hsame _ (by omega), hsame _ (by omega)]
  have hproto' : b 23 = 6 := by
    rw [hbp _ (by omega), hpm _ (by omega), hsame _ (by omega), hproto]
  refine ⟨tcpSendNoconn 40 ipid b, ?_, ?_, unfragmented_tcpSendNoconn hproto', ?_, ?_, ?_, ?_, ?_,
    ?_, ?_, ?_, ?_, urgp_tcpSendNoconn _ _ _⟩
  · rw [resetBuf, hm, hb, hp]
    rfl
  · exact prepared_tcpSendNoconn 40 ipid eth b hproto' (by decide) (by decide)
  · rw [ipaddrAt_congr fun k hk => hreply (26 + k) (by omega), hb, ipaddrAt_setIpaddr]
  · rw [ipaddrAt_congr fun k hk => hreply (30 + k) (by omega), hb,
      ipaddrAt_congr fun k hk => setIpaddr_other (by omega), ipaddrAt_setIpaddr]
    refine ipaddrAt_congr fun k hk => ?_
    rw [hpm _ (by omega), hsame _ (by omega)]
  · rw [hload 34 (by omega), hp, load_store_other _ (by omega), load_store_same,
      hmload 36 (by omega)]
  · rw [hload 36 (by omega), hp, load_store_same, hmload 34 (by omega)]
  · rw [hreplyword 38 (by omega), hseqno, hword 42 (by omega)]
  · rw [hreplyword 42 (by omega), hackno, hword 38 (by omega)]
  · rw [hreply 46 (by omega), hbp 46 (by omega), hpm 46 (by omega), hother 46 (by omega)]
    exact setByte_same _ _ _
  · rw [hreply 47 (by omega), hbp 47 (by omega), hpm 47 (by omega), hother 47 (by omega),
      setByte_other _ _ (by omega)]
    exact setByte_same _ _ _
  · rw [be, be, hreply 48 (by omega), hreply 49 (by omega), hbp 48 (by omega), hbp 49 (by omega),
      hpm 48 (by omega), hpm 49 (by omega), hsame 48 (by omega), hsame 49 (by omega)]

theorem crosses_reset (w : Stack nT nU) (uipLen clientBufSize : Nat) (ipid : BitVec 16)
    (eth : Bytes) {buf : Bytes} (hproto : buf 23 = 6)
    (hrst : (tcpSegment uipLen buf).rst = false) :
    ∃ reply seg, resetBuf w.arp.hostaddr ipid buf = some reply ∧
      (reset (tcpSegment uipLen buf) w).wire = w.wire ++ [seg] ∧
      Crosses (ipaddrAt buf 26) (uipSplitOutput clientBufSize 54 (ethHeader eth reply)) seg [] := by
  obtain ⟨reply, hreply, hprep, h⟩ := resetBuf_some w.arp.hostaddr ipid eth hproto
  have hsegment : tcpSegment 40 (ethHeader eth reply) =
      { tcpSegment uipLen buf with
        srcipaddr := w.arp.hostaddr
        srcport := (tcpSegment uipLen buf).destport
        destport := (tcpSegment uipLen buf).srcport
        seqno := (tcpSegment uipLen buf).ackno
        ackno := incremented (tcpSegment uipLen buf).seqno
        fin := false
        syn := false
        rst := true
        psh := false
        ack := true
        urg := false
        urgp := 0
        len := 0
        mssOption := none } := by
    obtain ⟨hfin, hsyn, hrst', hpsh, hack, hurg⟩ := hasFlag_byte h.byte
    have hoffset : (40 + 65536 - 4 * (reply 46 >>> 4).toNat - 20) % 65536 = 0 := by
      rw [h.offset]
      rfl
    have hmss : mssOption 41 (ethHeader eth reply) = some none := mssOption_none h.offset
    have hbytes : tcpSegment 40 (ethHeader eth reply) =
        { tcpSegment 40 reply with
          mssOption := ((mssOption 41 (ethHeader eth reply)).getD none).map BitVec.toNat } := rfl
    rw [hbytes, hmss, tcpSegment, h.src, h.srcport, h.destport, h.seqno, h.ackno, hfin, hsyn,
      hrst', hpsh, hack, hurg, h.wnd, h.urgp, hoffset]
    rfl
  have hcrosses := crosses_plain hprep
    ⟨h.unfragmented.vhl, h.unfragmented.whole, h.unfragmented.proto⟩ h.dest h.offset
    (Nat.zero_le clientBufSize)
  refine ⟨reply, _, hreply, ?_, hsegment ▸ hcrosses⟩
  rw [reset, hrst]
  rfl

-- Whatever goes on the wire reaches the other host as the segment that was meant.
theorem tcp_wire (cfg : Config) (w : Stack nT nU) (ipid : BitVec 16) (eth buf : Bytes)
    (hmss : cfg.tcpMss < 65536) (hwindow : cfg.receiveWindow < 65536) :
    (∀ i flags len, (w.tcp i).lport < 65536 ∧ (w.tcp i).rport < 65536 → len + 54 < 65536 →
      len ≤ cfg.clientBufSize → (flags.syn → len = 0) →
      ∃ seg, (tcpSend cfg i flags len w).wire = w.wire ++ [seg] ∧
        Crosses (w.tcp i).ripaddr
          (uipSplitOutput cfg.clientBufSize ((segmentLen flags len).toNat + 14)
            (ethHeader eth (tcpSendBuf cfg (w.tcp i) flags len w.arp.hostaddr ipid buf)))
          seg (slice buf 54 len)) ∧
    (∀ uipLen, buf 23 = 6 → (tcpSegment uipLen buf).rst = false →
      ∃ reply seg, resetBuf w.arp.hostaddr ipid buf = some reply ∧
        (reset (tcpSegment uipLen buf) w).wire = w.wire ++ [seg] ∧
        Crosses (ipaddrAt buf 26)
          (uipSplitOutput cfg.clientBufSize 54 (ethHeader eth reply)) seg []) :=
  ⟨fun i flags len hports hlen hfit hsyn =>
    ⟨sentSegment cfg (w.tcp i) flags len w.arp.hostaddr, rfl,
      crosses_sentSegment cfg (w.tcp i) flags len w.arp.hostaddr ipid eth buf hmss hwindow hports
        hlen hfit hsyn⟩,
    fun uipLen hproto hrst => crosses_reset w uipLen cfg.clientBufSize ipid eth hproto hrst⟩

def peer : TcpConn := { TcpConn.zero with ripaddr := ⟨10, 0, 0, 1⟩, lport := 80, rport := 1025 }

def peered : Stack 1 1 := { uipInit 1 1 10 10 10 8 false with tcp := fun _ => peer }

theorem tcp_wire_full :
    ∃ seg, (tcpSend smallConfig 0 .ackPsh 1460 peered).wire = peered.wire ++ [seg] ∧
      Crosses (peered.tcp 0).ripaddr
        (uipSplitOutput smallConfig.clientBufSize ((segmentLen .ackPsh 1460).toNat + 14)
          (ethHeader (fun _ => 0)
            (tcpSendBuf smallConfig (peered.tcp 0) .ackPsh 1460 peered.arp.hostaddr 7 fun _ => 1)))
        seg (slice (fun _ => 1) 54 1460) :=
  (tcp_wire smallConfig peered 7 (fun _ => 0) (fun _ => 1) (by decide) (by decide)).1 0 .ackPsh
    1460 (by decide) (by decide) (by decide) fun h => Bool.noConfusion h

end Wire

end Xtcp.Uip
