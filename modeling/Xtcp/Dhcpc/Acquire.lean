import Xtcp.Dhcpc.Options

namespace Xtcp.Dhcpc

open Channel Timer Fields

-- What the fields of a message make of a lease: a value stays where there is no field for it.
structure Filled (os : List Field) (l l' : Lease) : Prop where
  serverid : l'.serverid = ((latest optionServerId os).map fourOf).getD l.serverid
  leaseTime0 : l'.leaseTime0 = ((latest optionLeaseTime os).map (halfOf · 0)).getD l.leaseTime0
  leaseTime1 : l'.leaseTime1 = ((latest optionLeaseTime os).map (halfOf · 2)).getD l.leaseTime1
  ipaddr : l'.ipaddr = l.ipaddr
  netmask : l'.netmask = ((latest optionSubnetMask os).map fourOf).getD l.netmask
  dnsaddr : l'.dnsaddr = ((latest optionDnsServer os).map fourOf).getD l.dnsaddr
  defaultRouter : l'.defaultRouter = ((latest optionRouter os).map fourOf).getD l.defaultRouter

section Fold

variable {l : Lease} {o : Field}

theorem readField_view {β : Type} (view : Lease → β) {t : UInt8} {read : List UInt8 → β}
    (hmask : view { l with netmask := fourOf o.value } =
      if optionSubnetMask = t then read o.value else view l)
    (hrouter : view { l with defaultRouter := fourOf o.value } =
      if optionRouter = t then read o.value else view l)
    (hdns : view { l with dnsaddr := fourOf o.value } =
      if optionDnsServer = t then read o.value else view l)
    (hserver : view { l with serverid := fourOf o.value } =
      if optionServerId = t then read o.value else view l)
    (htime : view { l with leaseTime0 := halfOf o.value 0, leaseTime1 := halfOf o.value 2 } =
      if optionLeaseTime = t then read o.value else view l)
    (ht : t ∈ [optionSubnetMask, optionRouter, optionDnsServer, optionServerId,
      optionLeaseTime]) :
    view (readField l o) = if o.tag = t then read o.value else view l := by
  rw [readField]
  split_ifs with h1 h h2 h h3 h h4 h h5 h h
  all_goals simp_all

theorem filled_foldl (os : List Field) (l : Lease) : Filled os l (os.foldl readField l) where
  serverid := foldl_latest (fun _ _ =>
    readField_view Lease.serverid rfl rfl rfl rfl rfl (by decide)) os l
  leaseTime0 := foldl_latest (fun _ _ =>
    readField_view Lease.leaseTime0 rfl rfl rfl rfl rfl (by decide)) os l
  leaseTime1 := foldl_latest (fun _ _ =>
    readField_view Lease.leaseTime1 rfl rfl rfl rfl rfl (by decide)) os l
  ipaddr := by
    induction os generalizing l with
    | nil => rfl
    | cons o os ih =>
      rw [List.foldl_cons, ih, readField]
      split_ifs <;> rfl
  netmask := foldl_latest (fun _ _ =>
    readField_view Lease.netmask rfl rfl rfl rfl rfl (by decide)) os l
  dnsaddr := foldl_latest (fun _ _ =>
    readField_view Lease.dnsaddr rfl rfl rfl rfl rfl (by decide)) os l
  defaultRouter := foldl_latest (fun _ _ =>
    readField_view Lease.defaultRouter rfl rfl rfl rfl rfl (by decide)) os l

end Fold

section Acquire

def requestFields (l : Lease) : List Field :=
  [⟨optionMsgType, [dhcpRequestType]⟩, ⟨optionServerId, ipaddrBytes l.serverid⟩,
    ⟨optionReqIpaddr, ipaddrBytes l.ipaddr⟩]

theorem sendRequest_eq (macAddr : MacAddr) (a : Ipaddr) (l : Lease) :
    sendRequest macAddr a l = createMsg macAddr a ++ encode optionEnd (requestFields l) := by
  rw [sendRequest, List.append_assoc, List.append_assoc, List.append_assoc]
  rfl

variable {useAutoip : Bool} {i : Input} {s : DhcpcState} {m : Reply} {d : Datagram}

theorem news_reply (hd : Holds s.macAddr m d) (hm : m.Sound) {type : UInt8}
    (htype : firstType m.options = some type) (hi : i.newdata = some d) :
    news i s = some (type, d) := by
  rw [news, hi, Option.bind_some, msgForMe_reply hd hm, htype]
  rfl

theorem take_reply (hd : Holds s.macAddr m d) (hm : m.Sound) :
    Filled m.options { s.toLease with ipaddr := m.yiaddr } (parseMsg s.macAddr d s.toLease).2 := by
  rw [parseMsg_reply hd hm]
  exact filled_foldl _ _

theorem handleDhcp_offer (hpt : s.pt = .discovering) (hnews : news i s = some (dhcpOffer, d)) :
    handleDhcp useAutoip i s = offered i d s := by
  rw [handleDhcp, hpt, hnews]
  rfl

theorem handleDhcp_ack (hpt : s.pt = .selecting) (hnews : news i s = some (dhcpAck, d)) :
    handleDhcp useAutoip i s = acked i d s := by
  rw [handleDhcp, hpt, hnews]
  rfl

theorem boundWait_notes (i : Input) (s : DhcpcState) :
    (boundWait i s).2 = if 0 < s.ticks then []
      else [.request (sendRequest s.macAddr (ciaddr i s) s.toLease)] := by
  rw [boundWait]
  split_ifs <;> rfl

theorem boundWait_lease (i : Input) (s : DhcpcState) :
    (boundWait i s).1.toLease = s.toLease ∧ (boundWait i s).1.state = s.state := by
  rw [boundWait]
  split_ifs <;> exact ⟨rfl, rfl⟩

-- What the client asks for is what was offered, and what it configures is what was granted.
theorem acquire {offer ack : Reply} {d' : Datagram} {i' : Input} (hpt : s.pt = .discovering)
    (hoffer : offer.Sound) (hack : ack.Sound) (hd : Holds s.macAddr offer d)
    (hd' : Holds s.macAddr ack d') (htype : firstType offer.options = some dhcpOffer)
    (htype' : firstType ack.options = some dhcpAck) (hi : i.newdata = some d)
    (hi' : i'.newdata = some d') :
    ∃ l l' : Lease, Filled offer.options { s.toLease with ipaddr := offer.yiaddr } l ∧
      Filled ack.options { l with ipaddr := ack.yiaddr } l' ∧
      (run useAutoip s [.appcall i, .appcall i']).1.toLease = l' ∧
      (run useAutoip s [.appcall i, .appcall i']).1.state = .configReceived ∧
      (run useAutoip s [.appcall i, .appcall i']).2 =
        [.took dhcpOffer d,
          .request (createMsg s.macAddr zeroIpaddr ++ encode optionEnd (requestFields l)),
          .took dhcpAck d', .configured l'] ++
        if 0 < leaseTicks l' then [] else [.request (sendRequest s.macAddr l'.ipaddr l')] := by
  have hoffered : handleDhcp useAutoip i s = offered i d s :=
    handleDhcp_offer hpt (news_reply hd hoffer htype hi)
  have hnews' : news i' (offered i d s).1 = some (dhcpAck, d') := news_reply hd' hack htype' hi'
  have hacked : handleDhcp useAutoip i' (offered i d s).1 = acked i' d' (offered i d s).1 :=
    handleDhcp_ack rfl hnews'
  have hrun : run useAutoip s [.appcall i, .appcall i'] =
      ((acked i' d' (offered i d s).1).1,
        (offered i d s).2 ++ (acked i' d' (offered i d s).1).2) := by
    rw [← hacked, ← hoffered]
    rfl
  refine ⟨_, _, take_reply hd hoffer, take_reply (s := (offered i d s).1) hd' hack, ?_, ?_, ?_⟩
  · rw [hrun]
    exact (boundWait_lease _ _).1
  · rw [hrun]
    exact (boundWait_lease _ _).2
  · rw [hrun, ← sendRequest_eq]
    refine congrArg (fun notes : List Note => [_, _, _, _] ++ notes) (boundWait_notes _ _)

-- The datagram that has nothing behind it.
def Reply.datagram (macAddr : MacAddr) (m : Reply) : Datagram :=
  ⟨fun q => (m.bytes macAddr).getD q 0, (m.bytes macAddr).length⟩

theorem holds_datagram (macAddr : MacAddr) (m : Reply) :
    Holds macAddr m (m.datagram macAddr) := by
  refine ⟨rfl, View.shows_of_getElem? fun k x hx => ?_⟩
  have hbyte : (m.bytes macAddr).getD k 0 = x := by rw [List.getD_eq_getElem?_getD, hx, Option.getD]
  rw [Nat.zero_add]
  exact congrArg some hbyte

def routerReply (type : UInt8) : Reply :=
  ⟨List.replicate 8 0, ⟨192, 168, 1, 17⟩, List.replicate 8 0, List.replicate 206 0,
    [⟨optionMsgType, [type]⟩, ⟨optionServerId, [192, 168, 1, 1]⟩, ⟨optionLeaseTime, [0, 0, 14, 16]⟩,
      ⟨optionSubnetMask, [255, 255, 255, 0]⟩, ⟨optionRouter, [192, 168, 1, 1]⟩]⟩

theorem routerReply_sound (type : UInt8) : (routerReply type).Sound where
  head := rfl
  middle := rfl
  tail := rfl
  options := by
    intro o ho
    simp only [routerReply, List.mem_cons, List.not_mem_nil, or_false] at ho
    rcases ho with rfl | ho
    · have hend : optionMsgType ≠ optionEnd := by decide
      have hfour : optionMsgType ∉ [optionSubnetMask, optionRouter, optionDnsServer,
        optionServerId, optionLeaseTime] := by decide
      exact ⟨⟨hend, Nat.lt_of_sub_eq_succ rfl⟩, fun _ => Nat.le_refl 1, fun h => absurd h hfour⟩
    · rcases ho with rfl | rfl | rfl | rfl
      all_goals exact ⟨⟨by decide, by decide⟩, by decide, by decide⟩

def discoveringState : DhcpcState :=
  { serverid := zeroIpaddr, leaseTime0 := 0, leaseTime1 := 0, ipaddr := zeroIpaddr,
    netmask := zeroIpaddr, dnsaddr := zeroIpaddr, defaultRouter := zeroIpaddr, pt := .discovering,
    state := .sending, timer := ⟨0, 1000⟩, ticks := 1000, macAddr := ⟨0, 0x22, 0x97, 1, 2, 3⟩ }

def routerInput (type : UInt8) : Input :=
  ⟨0, 0, 0, some ((routerReply type).datagram discoveringState.macAddr), zeroIpaddr⟩

theorem acquire_hour : ∃ l l' : Lease,
    Filled (routerReply dhcpOffer).options
      { discoveringState.toLease with ipaddr := ⟨192, 168, 1, 17⟩ } l ∧
    Filled (routerReply dhcpAck).options { l with ipaddr := ⟨192, 168, 1, 17⟩ } l' ∧
    (run true discoveringState [.appcall (routerInput dhcpOffer),
      .appcall (routerInput dhcpAck)]).1.toLease = l' := by
  obtain ⟨l, l', hl, hl', hlease, -⟩ := @acquire true (routerInput dhcpOffer) discoveringState _ _ _
    _ (routerInput dhcpAck) rfl (routerReply_sound dhcpOffer) (routerReply_sound dhcpAck)
    (holds_datagram _ _) (holds_datagram _ _) (by decide) (by decide) rfl rfl
  exact ⟨l, l', hl, hl', hlease⟩

end Acquire

end Xtcp.Dhcpc
