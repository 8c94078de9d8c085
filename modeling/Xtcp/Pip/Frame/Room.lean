import Xtcp.Pip.Frame.Bounds
import Xtcp.Pip.Frame.Transmit
import Xtcp.Pip.Tcp.Cargo

namespace Xtcp.Pip.Frame

open Halfword Reading Extents

variable {n m : Nat}

section Condition

variable (d : Defines) (h : Host n m)

-- What loadOutgoingData is to send on the connections that the event concerns has room.
def TcpFits (e : Tcp.Event n) : Prop :=
  d.tcp = true → (Tcp.step d.sizes h.stack e).isSome = true →
    ∀ i, ∀ x ∈ Tcp.concerns h.stack e i, ∀ L, Tcp.Loads (h.stack.conns i) d.sizes x.1 x.2 L →
      0 < L → 54 + L ≤ 4 * d.words

structure EchoFits (icmpOffset : Nat) (length : Int) : Prop where
  data : 0 < length → 34 + length ≤ 4 * d.words
  type : icmpOffset * 2 < 4 * d.words

structure PacketFits (mem : Bytes) (offset : Nat) : Prop where
  tcp : IsTcp d.config mem offset → TcpFits d h (.segment h.env (tcpSegment mem
    (contentOffset mem offset) (srcIP mem offset) (dstIP mem offset) (dataLength mem offset)))
  dhcp : Udp d.config mem offset → IsDhcp d.config mem (contentOffset mem offset) →
    Address.Answers mem (contentOffset mem offset + 4) h.address →
    (Address.dhcpOptions d.config.address mem (contentOffset mem offset + 4)
      (udpLength mem (contentOffset mem offset) - 8)).messageType = 2 → 298 ≤ 4 * d.words
  icmp : IsIcmp d.config mem offset → h.address.myIP ≠ 0 →
    mem (contentOffset mem offset * 2) = 8 →
    EchoFits d (contentOffset mem offset) (dataLength mem offset)

structure WriteFits (remoteIP : Word) (maxBytes : Nat) : Prop where
  data : 0 < maxBytes → 42 + maxBytes ≤ 4 * d.words
  header : 42 ≤ 4 * d.words
  arp : resolved d.config h.address remoteIP = false → 68 ≤ 4 * d.words

def HasRoom : Event n → Prop
  | .frame nBytes mem => ∀ v ≤ nBytes, Tagged mem 6 v → d.hasIPv4 = true →
    load mem (2 * (6 + v)) = 0x0008 → Accepted h mem (7 + v) → PacketFits d h mem (7 + v)
  | .applicationTCP env app i r => TcpFits d h (.request env app i r)
  | .writeUDP remoteIP maxBytes => 0 < d.udpChannels → WriteFits d h remoteIP maxBytes
  | .prepareTCP env => TcpFits d h (.prepare env)
  | .timeOutTCP env => TcpFits d h (.timeOut env)
  | .timeOut timer => d.hasDHCP = true → h.address.due timer = true →
    (timer = .dhcpT1 → 298 ≤ 4 * d.words) ∧ (timer = .dhcpT2 → 286 ≤ 4 * d.words)
  | .timeOutTFTP => True

end Condition

section Messages

variable {d : Defines} {cfg : Config} {s : Address.Host} {cap : Nat}

theorem words_of_arp (harp : d.hasARP = true) : 22 ≤ d.words := by
  unfold Defines.words
  simp only [harp, true_and]
  split_ifs <;> omega

theorem inside_arp {broadcast : Bool} : Inside cap (pipCreateARP broadcast) ↔ 68 ≤ cap := by
  cases broadcast <;>
    simp [pipCreateARP, pipOutgoingEthernet, txInt, txShort, txData, txShortZeroes] <;> omega

theorem inside_ipv4 {ipDst : Word} : Inside cap (pipOutgoingIPv4 cfg s ipDst) ↔
    34 ≤ cap ∧ (resolved cfg s ipDst = false → 68 ≤ cap) := by
  unfold pipOutgoingIPv4
  rw [inside_append]
  split
  next h => simp [h, pipOutgoingEthernet, txInt, txShort, txData]; omega
  next h =>
    rw [inside_arp]
    simp [h, txInt, txShort]
    omega

theorem inside_udp {remoteIP : Word} : Inside cap (pipOutgoingUDP cfg s remoteIP) ↔
    42 ≤ cap ∧ (resolved cfg s remoteIP = false → 68 ≤ cap) := by
  simp only [pipOutgoingUDP, inside_append, inside_cons, inside_nil, inside_ipv4, txShort, and_true]
  constructor
  · rintro ⟨hheader, -, harp⟩
    exact ⟨by omega, harp⟩
  · rintro ⟨hheader, harp⟩
    exact ⟨by omega, by omega, harp⟩

theorem inside_tftp {pipIpTFTP : Word} (hcap : 68 ≤ cap) :
    Inside cap (pipReadTFTP cfg s pipIpTFTP) ∧ Inside cap (pipAcknowledgeTFTP cfg s pipIpTFTP) := by
  simp only [pipReadTFTP, pipAcknowledgeTFTP, doSend, inside_cons, inside_udp, txShort, txData]
  omega

theorem inside_dhcp {firstMessage : Bool} : Inside cap (pipCreateDHCP cfg s firstMessage) ↔
    if firstMessage then 286 ≤ cap else 298 ≤ cap := by
  unfold pipCreateDHCP
  rw [inside_append, inside_append, inside_udp]
  cases firstMessage <;> simp [txInt, txShort, txData, txShortZeroes] <;> omega

theorem inside_write {remoteIP : Word} {maxBytes : Nat} :
    Inside cap (doWriteUDP cfg s remoteIP maxBytes) ↔ (0 < maxBytes → 42 + maxBytes ≤ cap) ∧
      42 ≤ cap ∧ (resolved cfg s remoteIP = false → 68 ≤ cap) := by
  rw [doWriteUDP, inside_append, inside_bytesFrom, inside_udp]

theorem inside_pong {icmpOffset length : Nat} {srcIP : Word} (hcap : 68 ≤ cap) :
    Inside cap (pong cfg s icmpOffset srcIP length) ↔
      (0 < length → 34 + length ≤ cap) ∧ icmpOffset * 2 < cap := by
  simp only [pong, inside_append, inside_cons, inside_nil, inside_ipv4, txShort, txData, txByte]
  constructor
  · rintro ⟨⟨hdata, htype, -⟩, -⟩
    exact ⟨by omega, by omega⟩
  · rintro ⟨hdata, htype⟩
    exact ⟨⟨by omega, by omega, by omega, by omega, trivial⟩, by omega, fun _ => hcap⟩

theorem inside_outgoingTCP {syn : Bool} {remoteIP : Word} (hcap : 68 ≤ cap) :
    Inside cap (pipOutgoingTCP cfg s syn remoteIP) := by
  unfold pipOutgoingTCP
  rw [inside_append, inside_append, inside_append, inside_ipv4]
  cases syn <;> simp [txInt, txShort] <;> omega

theorem inside_built {notes : List Tcp.Note} (hcap : 68 ≤ cap) :
    Inside cap (notes.flatMap (built cfg s)) ↔
      ∀ p, .sent p ∈ notes → (0 < p.data.length → 54 + p.data.length ≤ cap) := by
  rw [inside_flatMap]
  constructor
  · intro h p hp
    have hbuilt := h _ hp
    rw [built, inside_append, inside_bytesFrom] at hbuilt
    exact hbuilt.1
  · intro h x hx
    cases x with
    | sent p =>
      rw [built, inside_append, inside_bytesFrom]
      exact ⟨h p hx, inside_outgoingTCP hcap⟩
    | bounced p => exact inside_outgoingTCP hcap
    | _ => exact inside_nil

end Messages

section Events

variable {d : Defines} {h : Host n m} {pipIpTFTP : Word}

theorem room_of_arp (harp : d.hasARP = true) : 68 ≤ 4 * d.words := by
  have hwords := words_of_arp harp
  omega

theorem tcpFits_iff (e : Tcp.Event n) :
    Inside (4 * d.words) (tcpWrites d h e) ↔ TcpFits d h e := by
  unfold tcpWrites TcpFits
  cases htcp : d.tcp with
  | false => simp
  | true =>
    have hcap : 68 ≤ 4 * d.words :=
      room_of_arp (by simp [Defines.hasARP, Defines.hasIPv4, htcp])
    cases hs : Tcp.step d.sizes h.stack e with
    | none => simp
    | some s =>
      simp only [if_true, inside_built hcap, Option.isSome_some, forall_const]
      rw [Tcp.step_cargo (Q := fun k => 0 < k → 54 + k ≤ 4 * d.words) nofun hs]
      refine forall_congr' fun i => forall₂_congr fun x _ => forall₂_congr fun L _ => ?_
      omega

theorem take_option (cfg : Config) (mem : Bytes) (i : Nat) (o : Address.Options) :
    take o (mem i, (each (fun j => byte (i + 2 + j)) (optionWidth cfg (mem i))).value mem) =
      o.take cfg.address mem i := by
  have hone : (each (fun j => byte (i + 2 + j)) 1).value mem = [mem (i + 2)] := rfl
  have hfour : wordOf ((each (fun j => byte (i + 2 + j)) 4).value mem) = word mem (i + 2) := rfl
  have hsome : (each (fun j => byte (i + 2 + j)) 4).value mem ≠ [] := nofun
  unfold take Address.Options.take optionWidth
  by_cases h35 : mem i = 0x35
  · simp [h35, hone]
  by_cases h36 : mem i = 0x36
  · simp [h36, hfour]
  by_cases h33 : mem i = 0x33
  · simp [h33, hfour]
  by_cases h3A : mem i = 0x3A
  · simp [h3A, hfour]
  by_cases h3B : mem i = 0x3B
  · simp [h3B, hfour]
  by_cases h01 : mem i = 0x01
  · simp [h01, hfour]
  by_cases h03 : mem i = 0x03
  · cases hgateway : cfg.address.gateway with
    | false => simp [h03, each]
    | true => simp [h03, hfour, hsome]
  · simp only [h35, h36, h33, h3A, h3B, h01, h03, if_false, false_and]

theorem taking_options (cfg : Config) (mem : Bytes) (stop : Int) (fuel i : Nat)
    (o : Address.Options) : ((scanOptions cfg stop fuel i).value mem).foldl take o =
      Address.scanOptions cfg.address mem stop fuel i o := by
  induction fuel generalizing i o with
  | zero => rfl
  | succ fuel ih =>
    unfold scanOptions Address.scanOptions
    split
    next hstop =>
      by_cases hend : mem i = 255
      · have hvalue : (byte i).value mem = 255 := hend
        simp only [value_bind, if_pos hvalue, if_pos hend, value_pure, List.foldl_nil]
      · have hvalue : ¬(byte i).value mem = 255 := hend
        simp only [value_bind, if_neg hvalue, if_neg hend, value_pure, List.foldl_cons, ih]
        rw [value_byte, value_byte, take_option]
    next => rfl

theorem inside_lease (cfg : Config) (hd : d.hasARP = true) (mem : Bytes) (offset : Nat)
    (length : Int) (h' : Host n m) : Inside (4 * d.words)
      (replies d pipIpTFTP h' ((pipIncomingDHCP cfg h offset length).value mem)) ↔
    (Address.Answers mem offset h.address →
      (Address.dhcpOptions cfg.address mem offset length).messageType = 2 →
        298 ≤ 4 * d.words) := by
  have hlease (proposedIP : Word) : Inside (4 * d.words) (replies d pipIpTFTP h'
      [.lease proposedIP ((scanOptions cfg (offset * 2 + length) length.toNat
        (offset * 2 + 240)).value mem)]) ↔
      ((Address.dhcpOptions cfg.address mem offset length).messageType = 2 →
        298 ≤ 4 * d.words) := by
    rw [replies, replies, List.append_nil, reply, taking, taking_options]
    change Inside _ (if (Address.dhcpOptions cfg.address mem offset length).messageType = 2 then _
      else _) ↔ _
    split
    next htype =>
      rw [inside_dhcp]
      simp [htype]
    next htype =>
      simp only [htype, false_implies, iff_true]
      split
      · exact (inside_tftp (room_of_arp hd)).1
      · exact inside_nil
  unfold pipIncomingDHCP
  rw [value_bind, value_ite]
  split
  next hne => exact iff_of_true inside_nil fun hanswers => absurd hanswers.1 hne
  next hcookie =>
    rw [value_bind, value_ite]
    split
    next hne => exact iff_of_true inside_nil fun hanswers => absurd hanswers.2.1 hne
    next hcookie' =>
      rw [value_bind, value_bind, value_ite]
      split
      next hne => exact iff_of_true inside_nil fun hanswers => absurd hanswers.2.2 hne
      next hxid =>
        rw [value_bind, value_bind, value_pure, hlease]
        have hanswers : Address.Answers mem offset h.address :=
          ⟨not_not.mp hcookie, not_not.mp hcookie', not_not.mp hxid⟩
        exact ⟨fun hroom _ => hroom, fun hroom => hroom hanswers⟩

theorem inside_block (hd : d.hasARP = true) (mem : Bytes) (srcPort offset : Nat) (length : Int)
    (h' : Host n m) : Inside (4 * d.words)
      (replies d pipIpTFTP h' ((pipIncomingTFTP h srcPort offset length).value mem)) := by
  have hblock (opcode block : BitVec 16) (bytes : List (BitVec 8)) :
      Inside (4 * d.words) (replies d pipIpTFTP h' [.block opcode block bytes]) := by
    rw [replies, replies, List.append_nil, reply]
    split
    · exact (inside_tftp (room_of_arp hd)).2
    · exact inside_nil
  unfold pipIncomingTFTP
  rw [value_bind, value_ite]
  split
  · exact inside_nil
  · rw [value_bind, value_ite]
    split
    · exact hblock _ _ _
    · exact hblock _ _ _

theorem inside_served (mem : Bytes) (port offset : Nat) (length : Int) (h' : Host n m) :
    Inside (4 * d.words)
      (replies d pipIpTFTP h' ((serveUDPChannels h port offset length).value mem)) := by
  unfold serveUDPChannels
  split
  · exact inside_nil
  · split
    · exact inside_nil
    · exact inside_nil

theorem inside_datagram (hd : d.hasARP = true) (mem : Bytes) (srcIP dstIP : Word) (offset : Nat)
    (h' : Host n m) : Inside (4 * d.words)
      (replies d pipIpTFTP h' ((pipIncomingUDP d.config h offset srcIP dstIP).value mem)) ↔
    (UdpValid mem srcIP dstIP offset → IsDhcp d.config mem offset →
      Address.Answers mem (offset + 4) h.address →
      (Address.dhcpOptions d.config.address mem (offset + 4)
        (udpLength mem offset - 8)).messageType = 2 → 298 ≤ 4 * d.words) := by
  unfold pipIncomingUDP
  rw [value_bind, value_bind, value_bind, value_bind, value_ite]
  split
  next hne => exact iff_of_true inside_nil fun hvalid => absurd hvalid hne
  next hvalid =>
    have hvalid : UdpValid mem srcIP dstIP offset := not_not.mp hvalid
    rw [value_ite]
    split
    next hport =>
      have hport : IsDhcp d.config mem offset := hport
      rw [inside_lease _ hd]
      simp only [hvalid, hport, forall_const]
      rfl
    next hport =>
      have hport : ¬IsDhcp d.config mem offset := hport
      refine iff_of_true ?_ fun _ h => absurd h hport
      rw [value_ite]
      split
      · exact inside_block hd _ _ _ _ _
      · exact inside_served _ _ _ _ _

theorem inside_echo (hd : d.hasARP = true) (mem : Bytes) (icmpOffset : Nat) (srcIP : Word)
    (length : Int) (h' : Host n m) : Inside (4 * d.words)
      (replies d pipIpTFTP h' ((pipIncomingICMP h icmpOffset srcIP length).value mem)) ↔
    (h.address.myIP ≠ 0 → mem (icmpOffset * 2) = 8 → EchoFits d icmpOffset length) := by
  unfold pipIncomingICMP
  rw [value_bind, value_ite]
  split
  next hecho =>
    rw [value_bind, value_pure, replies, replies, List.append_nil, reply,
      inside_pong (room_of_arp hd), length_each]
    constructor
    · exact fun hroom _ _ => ⟨by omega, hroom.2⟩
    · intro hroom
      have hfits := hroom hecho.1 hecho.2
      exact ⟨by have := hfits.data; omega, hfits.type⟩
  next hno => exact iff_of_true inside_nil fun hip htype => absurd ⟨hip, htype⟩ hno

theorem arp_of_ipv4 (hd : d.hasIPv4 = true) : d.hasARP = true := by
  simp [Defines.hasARP, hd]

theorem inside_dispatch (hd : d.hasARP = true) (mem : Bytes) (offset : Nat) (h' : Host n m)
    (henv : h'.env = h.env) (hstack : h'.stack = h.stack) : Inside (4 * d.words)
      (replies d pipIpTFTP h' ((dispatch d.config h (mem (offset * 2 + 9))
        (contentOffset mem offset) (srcIP mem offset) (dstIP mem offset)
        (dataLength mem offset)).value mem)) ↔ PacketFits d h mem offset := by
  have hothers (hne : ¬IsTcp d.config mem offset) : Inside (4 * d.words)
      (replies d pipIpTFTP h' ((dispatch.others d.config h (mem (offset * 2 + 9))
        (contentOffset mem offset) (srcIP mem offset) (dstIP mem offset)
        (dataLength mem offset)).value mem)) ↔ PacketFits d h mem offset := by
    unfold dispatch.others
    rw [value_ite]
    split
    next hudp =>
      have hudp : IsUdp d.config mem offset := hudp
      have hicmp : ¬IsIcmp d.config mem offset :=
        fun hicmp => absurd (hudp.2.symm.trans hicmp.2) (by decide)
      rw [inside_datagram hd]
      constructor
      · exact fun hroom => ⟨fun h => absurd h hne, fun hu => hroom hu.valid,
          fun h => absurd h hicmp⟩
      · exact fun hfits hvalid => hfits.dhcp ⟨hudp, hvalid⟩
    next hudp =>
      have hudp : ¬IsUdp d.config mem offset := hudp
      rw [value_ite]
      split
      next hicmp =>
        rw [inside_echo hd]
        exact ⟨fun hroom => ⟨fun h => absurd h hne, fun hu => absurd hu.udp hudp, fun _ => hroom⟩,
          fun hfits => hfits.icmp hicmp⟩
      next hicmp =>
        exact iff_of_true inside_nil ⟨fun h => absurd h hne, fun hu => absurd hu.udp hudp,
          fun h => absurd h hicmp⟩
  have htcp : d.config.tcp = if d.tcp then some d.sizes else none := rfl
  unfold dispatch
  split
  next c hc =>
    by_cases htype : mem (offset * 2 + 9) = 6
    · have hudp : ¬IsUdp d.config mem offset :=
        fun hudp => absurd (htype.symm.trans hudp.2) (by decide)
      have hicmp : ¬IsIcmp d.config mem offset :=
        fun hicmp => absurd (htype.symm.trans hicmp.2) (by decide)
      have hsegment : (pipIncomingTCP h c (contentOffset mem offset) (srcIP mem offset)
          (dstIP mem offset) (dataLength mem offset)).value mem =
        [.segment (tcpSegment mem (contentOffset mem offset) (srcIP mem offset) (dstIP mem offset)
          (dataLength mem offset))] := rfl
      rw [if_pos htype, hsegment, replies, replies, List.append_nil, reply, tcpFits_iff, henv]
      unfold TcpFits
      rw [hstack]
      have hsome : d.config.tcp.isSome = true := by rw [hc]; rfl
      exact ⟨fun hroom => ⟨fun _ => hroom, fun hu => absurd hu.udp hudp, fun h => absurd h hicmp⟩,
        fun hfits => hfits.tcp ⟨hsome, htype⟩⟩
    · rw [if_neg htype]
      exact hothers fun h => htype h.2
  next hc => exact hothers fun h => by simp [IsTcp, hc] at h

theorem inside_packet (hd : d.hasIPv4 = true) (mem : Bytes) (offset : Nat) : Inside (4 * d.words)
      (replies d pipIpTFTP h ((pipIncomingIPv4 d.config h offset).value mem)) ↔
    (Accepted h mem offset → PacketFits d h mem offset) := by
  unfold pipIncomingIPv4
  iterate 6 rw [value_bind]
  rw [value_ite]
  split
  next hsum => exact iff_of_true inside_nil fun h => absurd h.1 hsum
  next hsum =>
    rw [value_ite]
    split
    next hforeign =>
      exact iff_of_true inside_nil fun h => Bool.noConfusion (h.2.symm.trans hforeign)
    next hforeign =>
      rw [value_bind, value_bind, value_pure, replies, reply, List.nil_append]
      have haccepted : Accepted h mem offset :=
        ⟨not_not.mp hsum, Bool.eq_false_iff.mpr hforeign⟩
      have hdispatch : Inside _ (replies d pipIpTFTP _ _) ↔ PacketFits d h mem offset :=
        inside_dispatch (arp_of_ipv4 hd) mem offset
          (h.stored (.store (srcIP mem offset) ((macCopy 6).value mem))) rfl rfl
      exact hdispatch.trans ⟨fun hfits _ => hfits, fun hfits => hfits haccepted⟩

theorem inside_answers (hd : d.hasARP = true) (mem : Bytes) (offset : Nat) :
    Inside (4 * d.words)
      (replies d pipIpTFTP h ((pipIncomingARP d.config h offset).value mem)) := by
  have hcap : Inside (4 * d.words) (pipCreateARP false) := inside_arp.mpr (room_of_arp hd)
  unfold pipIncomingARP
  rw [value_bind, value_bind, value_bind, value_ite]
  split
  · rw [value_ite]
    split
    · exact inside_nil
    · rw [value_ite]
      split
      · rw [value_bind, value_pure, replies, replies, replies, reply, reply, List.append_nil,
          List.nil_append]
        exact hcap
      · exact inside_nil
  · rw [value_ite]
    split
    · rw [value_ite]
      split
      · exact inside_nil
      · exact inside_nil
    · exact inside_nil

theorem etherType_none {fuel offset : Nat} {mem : Bytes}
    (htags : ∀ k < fuel, load mem (2 * (offset + k)) = 0x0081) :
    (etherType fuel offset).value mem = none := by
  induction fuel generalizing offset with
  | zero => rfl
  | succ fuel ih =>
    have htag : (short offset).value mem = 0x0081 := htags 0 (by omega)
    rw [etherType, value_bind, if_pos htag]
    refine ih fun k hk => ?_
    have hnext := htags (k + 1) (by omega)
    rwa [← Nat.add_assoc, Nat.add_right_comm] at hnext

theorem inside_frame (nBytes : Nat) (mem : Bytes) : Inside (4 * d.words)
      (replies d pipIpTFTP h ((pipIncomingEthernet d.config h nBytes).value mem)) ↔
    HasRoom d h (.frame nBytes mem) := by
  unfold pipIncomingEthernet HasRoom
  rw [value_bind]
  rcases tagged_or (nBytes + 1) 6 with ⟨v, hv, htagged⟩ | htags
  · obtain ⟨hvalue, -⟩ : _ ∧ (Within nBytes mem (etherType (nBytes + 1) 6) ↔ _) :=
      etherType_tagged htagged hv
    have hoffset : 6 + v + 1 = 7 + v := by omega
    rw [hvalue, hoffset]
    dsimp only
    split
    next h4 =>
      rw [inside_packet h4.1]
      constructor
      · intro hfits w hw hw' _ _
        obtain rfl := htagged.unique hw'
        exact hfits
      · exact fun hroom => hroom v (Nat.lt_succ_iff.mp hv) htagged h4.1 h4.2
    next h4 =>
      refine iff_of_true ?_ fun w hw hw' hipv4 htype => ?_
      · split
        next harp => exact inside_answers harp.1 _ _
        next => exact inside_nil
      · obtain rfl := htagged.unique hw'
        exact absurd ⟨hipv4, htype⟩ h4
  · rw [etherType_none htags]
    refine iff_of_true inside_nil fun w hw hw' => ?_
    exact absurd (htags w (Nat.lt_succ_of_le hw)) hw'.type

theorem inside_expired (timer : Address.Timer) (s : Address.Host) : Inside (4 * d.words)
      (expired d s timer) ↔ (d.hasDHCP = true →
        (timer = .dhcpT1 → 298 ≤ 4 * d.words) ∧ (timer = .dhcpT2 → 286 ≤ 4 * d.words)) := by
  cases timer with
  | dhcpT1 =>
    cases hdhcp : d.hasDHCP <;> simp [expired, hdhcp, inside_dhcp]
  | dhcpT2 =>
    cases hdhcp : d.hasDHCP <;> simp [expired, hdhcp, inside_dhcp]
  | arp => simp [expired]
  | linkLocal =>
    refine iff_of_true ?_ fun _ => ⟨nofun, nofun⟩
    rw [expired]
    split
    next hll => exact inside_arp.mpr (room_of_arp (by simp [Defines.hasARP, hll.1]))
    next => exact inside_nil

end Events

theorem transmit_bounds_exact (d : Defines) (h : Host n m) (pipIpTFTP : Word) (e : Event n) :
    Inside (4 * d.words) (writes d h pipIpTFTP e) ↔ HasRoom d h e := by
  cases e with
  | frame nBytes mem => exact inside_frame nBytes mem
  | applicationTCP env app i r => exact tcpFits_iff _
  | prepareTCP env => exact tcpFits_iff _
  | timeOutTCP env => exact tcpFits_iff _
  | writeUDP remoteIP maxBytes =>
    rw [writes, HasRoom]
    split
    next hnone =>
      exact iff_of_true inside_nil fun hpos => absurd hnone (Nat.pos_iff_ne_zero.mp hpos)
    next hsome =>
      rw [inside_write]
      exact ⟨fun h _ => ⟨h.1, h.2.1, h.2.2⟩, fun hfits =>
        have hfits := hfits (Nat.pos_iff_ne_zero.mpr hsome)
        ⟨hfits.data, hfits.header, hfits.arp⟩⟩
  | timeOut timer =>
    rw [writes, HasRoom]
    split
    next hdue => simp only [inside_expired, hdue, forall_const]
    next hdue => exact iff_of_true inside_nil fun _ h => absurd h hdue
  | timeOutTFTP =>
    refine iff_of_true ?_ trivial
    rw [writes]
    split
    next htftp =>
      have hcap : 68 ≤ 4 * d.words :=
        room_of_arp (by simp [Defines.hasARP, Defines.hasIPv4, Defines.hasUDP, htftp])
      split
      · exact (inside_tftp hcap).1
      · split
        · exact (inside_tftp hcap).2
        · exact inside_nil
    next => exact inside_nil

-- PIP_UDP and one channel, and nothing else.
def udpOnly : Defines :=
  ⟨false, false, false, false, false, false, true, false, false, false, false,
    ⟨512, 512, ⟨9, by decide, rfl⟩, ⟨9, by decide, rfl⟩⟩, 1, none, fun _ => 0⟩

theorem long_write_beyond : ¬∀ (n m : Nat) (d : Defines) (h : Host n m) (pipIpTFTP : Word)
    (e : Event n), Inside (4 * d.words) (writes d h pipIpTFTP e) := by
  intro hall
  have hinside := hall 0 1 udpOnly listening 0 (.writeUDP 0xC0A80001 800)
  have hbyte := hinside ⟨841, 1⟩ (by decide +kernel) 0 (by decide)
  exact absurd hbyte (by decide +kernel)

end Xtcp.Pip.Frame
