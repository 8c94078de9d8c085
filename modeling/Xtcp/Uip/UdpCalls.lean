import Xtcp.Uip.TcpCalls

namespace Xtcp.Uip
open Channel Listen

variable {nT nU : Nat} {w w' : Stack nT nU} {i : Fin nU}

-- What a call for a UDP slot leaves behind: a run of the abstract machine, and nothing to send
-- but what a client or DHCP supplied.
structure Called (i : Fin nU) (a : Life nT nU) (w' : Stack nT nU) : Prop where
  acts : a.Acts (w'.life none)
  slen : 0 < w'.uipSlen →
    (w'.app (.udp i)).linknum ≠ none ∨ dhcpcPort (w'.udp i).lport = true

theorem Delivered.called {a : Life nT nU} (h : Delivered (.udp i) none a w w')
    (hslen : w.uipSlen = 0) : Called i a w' where
  acts := h.acts
  slen hs := by
    rcases h.slen hs with h0 | hl
    · omega
    · exact Or.inl hl

theorem rest_newdata (cfg : Config) (slot : Slot nT nU) {flags : Flags}
    (hflags : w.uipFlags = flags) (hackdata : flags.ackdata = false)
    (hrexmit : flags.rexmit = false) (hpoll : flags.poll = false) (hpush : flags.push = false)
    (hclose : flags.close = false) : appcallRest cfg slot w = w := by
  simp [appcallRest, onAcked, onRexmit, onPoll, onPush, onClosed, hflags, hackdata, hrexmit, hpoll,
    hpush, hclose]

theorem delivered_data_newdata (cfg : Config) (slot : Slot nT nU) {p : Option (Fin nT)}
    {flags : Flags} (ho : (w.life p).IsOpen slot) (hflags : w.uipFlags = flags)
    (habort : flags.abort = false) (htimedout : flags.timedout = false)
    (hackdata : flags.ackdata = false)
    (hrexmit : flags.rexmit = false) (hpoll : flags.poll = false) (hpush : flags.push = false)
    (hclose : flags.close = false) :
    Delivered slot p (w.life p) w (appcallData cfg slot w) := by
  unfold appcallData
  rw [hflags, habort, htimedout]
  split
  · have hf : (onNewdata cfg slot w).uipFlags = flags := (flags_newdata _ cfg w).trans hflags
    rw [rest_newdata cfg slot hf hackdata hrexmit hpoll hpush hclose]
    exact delivered_newdata cfg ho
  · simp only [Bool.false_eq_true, if_false]
    rw [rest_newdata cfg slot hflags hackdata hrexmit hpoll hpush hclose]
    exact .refl

theorem life_udpSource (slot : Slot nT nU) (p : Option (Fin nT)) (w : Stack nT nU) :
    (udpSource slot w).life p = w.life p := by
  unfold udpSource
  split
  · rfl
  · split
    · exact life_setConn_same w p _ _ rfl rfl
    · rfl

theorem regs_udpSource (slot : Slot nT nU) (w : Stack nT nU) :
    (udpSource slot w).regs = w.regs := by
  unfold udpSource
  split
  · rfl
  · split <;> rfl

theorem called_dhcpc (w : Stack nT nU) (h : isDhcpc w (.udp i) = true) :
    Called i (w.life none) (dhcpcAppcall w) := by
  have hlife : ∀ len (w : Stack nT nU), (uipSend len w).life none = w.life none ∧
      (uipSend len w).udp = w.udp := by
    intro len w
    unfold uipSend
    split <;> exact ⟨rfl, rfl⟩
  unfold dhcpcAppcall
  refine ⟨?_, fun _ => Or.inr ?_⟩
  · rw [(hlife _ _).1]
    exact .refl
  · rw [(hlife _ _).2]
    exact h

theorem called_dhcpcAppcall (cfg : Config) (w : Stack nT nU) (h : isDhcpc w (.udp i) = true) :
    Called i (w.life none) (xtcpdAppcall cfg (.udp i) w) := by
  rw [xtcpdAppcall, if_pos h]
  exact called_dhcpc w h

theorem open_udp (hl : (w.udp i).lport ≠ 0) (h : isDhcpc w (.udp i) = false) :
    (w.life none).IsOpen (.udp i) := Or.inl ⟨hl, h⟩

theorem called_newdata (cfg : Config) (hl : (w.udp i).lport ≠ 0) (hslen : w.uipSlen = 0)
    (hflags : w.uipFlags = { Flags.none with newdata := true }) :
    Called i (w.life none) (xtcpdAppcall cfg (.udp i) w) := by
  unfold xtcpdAppcall
  split
  next h => exact called_dhcpc w h
  next h =>
    rw [Bool.not_eq_true] at h
    have hlife := life_udpSource (.udp i) none w
    have hregs := regs_udpSource (.udp i) w
    generalize udpSource (.udp i) w = w₁ at hlife hregs ⊢
    have hf : w₁.uipFlags = { Flags.none with newdata := true } :=
      (congrArg Prod.fst hregs).trans hflags
    have hs : w₁.uipSlen = 0 := (congrArg Prod.snd hregs).trans hslen
    rw [onConnected, if_neg (by rw [hf]; exact Bool.false_ne_true), ← hlife]
    exact (delivered_data_newdata cfg (.udp i) (hlife.symm ▸ open_udp hl h) hf rfl rfl rfl rfl rfl
      rfl rfl).called hs

theorem called_accept (hconns : nT + nU ≤ maxGuid) (cfg : Config) {a : Life nT nU} {port : Nat}
    (hfree : a.free (.udp i))
    (hlife : w.life none = (a.clear i port).openAs (.udp i) (.passive port))
    (hslen : w.uipSlen = 0)
    (hflags : w.uipFlags = { Flags.none with connected := true, newdata := true }) :
    Called i a (xtcpdAppcall cfg (.udp i) w) := by
  have hport : (w.udp i).lport = port :=
    (congrFun (congrArg Life.lport hlife) (.udp i)).trans (Function.update_self _ _ _)
  unfold xtcpdAppcall
  split
  next h =>
    have hd := called_dhcpc w h
    rw [hlife] at hd
    have hdhcp : dhcpcPort port = true := hport ▸ h
    exact ⟨(Relation.ReflTransGen.single (.acceptDhcp a i port hfree hdhcp)).trans hd.acts, hd.slen⟩
  next h =>
    rw [Bool.not_eq_true] at h
    have hsource := life_udpSource (.udp i) none w
    have hregs := regs_udpSource (.udp i) w
    generalize udpSource (.udp i) w = w₁ at hsource hregs ⊢
    have hf : w₁.uipFlags = { Flags.none with connected := true, newdata := true } :=
      (congrArg Prod.fst hregs).trans hflags
    rw [onConnected, if_pos (by rw [hf])]
    obtain ⟨guid, hguid, hinit⟩ := life_initState hconns w₁ (.udp i) none
    rw [hsource, hlife] at hguid hinit
    have hri := regs_initState w₁ (.udp i)
    have hfi := (congrArg Prod.fst hri).trans hf
    have hsi := (congrArg Prod.snd (hri.trans hregs)).trans hslen
    generalize xtcpdInitState w₁ (.udp i) = w₂ at hinit hfi hsi ⊢
    have hs := sends_event (p := none) (.udp i) cfg .newConnection w₂
    have hfe := (flags_event (.udp i) cfg .newConnection w₂).trans hfi
    have ho : (w₂.life none).IsOpen (.udp i) := by
      by_cases hp : port = 0
      · refine Or.inr ⟨.opened (.udp i) (.passive port) ((a.clear i port).connectRequest (.udp i))
          (a.clear i port).raising, ?_, by simp [Entry.spoils, hp]⟩
        rw [hinit]
        exact List.mem_append_left _ (List.mem_append_right _ (List.mem_singleton_self _))
      · have hl : (w₂.life none).lport (.udp i) = port := by
          rw [hinit]
          exact Function.update_self _ _ _
        refine Or.inl ⟨hl ▸ hp, ?_⟩
        rw [hl, ← hport]
        exact h
    have hkept := Life.kept_delivers (.udp i) hs.delivers
    have hdelivers := hs.delivers
    rw [hinit] at hdelivers
    have hd := hs.delivered (.accept a _ i port guid hfree hguid hdelivers)
    have hdata := delivered_data_newdata (p := none) cfg (.udp i) (hkept.isOpen ho) hfe rfl rfl
      rfl rfl rfl rfl rfl
    exact (hd.trans hdata).called hsi

theorem appcall_udp (cfg : Config) (w : Stack nT nU) (h : isDhcpc w (.udp i) = false)
    (hnewdata : w.uipFlags.newdata = false) (hconnected : w.uipFlags.connected = false)
    (habort : w.uipFlags.abort = false) (htimedout : w.uipFlags.timedout = false) :
    xtcpdAppcall cfg (.udp i) w = appcallRest cfg (.udp i) w := by
  simp [xtcpdAppcall, h, udpSource, hnewdata, onConnected, hconnected, appcallData, habort,
    htimedout]

theorem Sends.called {a : Life nT nU} {event : XtcpEvent} (h : Sends (.udp i) none event w w')
    (hact : a.Act (w'.life none)) (hslen : w.uipSlen = 0) : Called i a w' :=
  (h.delivered hact).called hslen

theorem sends_ackdata (cfg : Config) (w : Stack nT nU) (h : isDhcpc w (.udp i) = false)
    (hflags : w.uipFlags = { Flags.none with ackdata := true }) :
    Sends (.udp i) none .sentData w (xtcpdAppcall cfg (.udp i) w) := by
  rw [appcall_udp cfg w h (by rw [hflags]; rfl) (by rw [hflags]; rfl) (by rw [hflags]; rfl)
    (by rw [hflags]; rfl)]
  have hf := (flags_acked (.udp i) cfg w).trans hflags
  have hrest : appcallRest cfg (.udp i) w = onAcked cfg (.udp i) w := by
    simp [appcallRest, onRexmit, onPoll, onPush, onClosed, hf, Flags.none]
  rw [hrest]
  exact sends_acked _ cfg w (by rw [hflags])

theorem sends_resend (cfg : Config) (w : Stack nT nU) (h : isDhcpc w (.udp i) = false)
    (hflags : w.uipFlags = { Flags.none with rexmit := true }) :
    Sends (.udp i) none .resendData w (xtcpdAppcall cfg (.udp i) w) := by
  rw [appcall_udp cfg w h (by rw [hflags]; rfl) (by rw [hflags]; rfl) (by rw [hflags]; rfl)
    (by rw [hflags]; rfl)]
  have hacked : onAcked cfg (.udp i) w = w := by simp [onAcked, hflags, Flags.none]
  have hf := (flags_rexmit (.udp i) cfg w).trans hflags
  have hrest : appcallRest cfg (.udp i) w = onRexmit cfg (.udp i) w := by
    simp [appcallRest, hacked, onPoll, onPush, onClosed, hf, Flags.none]
  rw [hrest]
  exact sends_rexmit _ cfg w (by rw [hflags])

theorem close_udp (cfg : Config) (tcpEnd : Stack nT nU → Stack nT nU)
    (ho : (w.life none).IsOpen (.udp i)) (hdhcp : isDhcpc w (.udp i) = false) :
    (w.life none).Acts ((endConnection cfg (.udp i) tcpEnd w).life none) ∧
      (endConnection cfg (.udp i) tcpEnd w).regs = w.regs := by
  have hs := (sends_event (p := none) (.udp i) cfg .closed
    (w.setUdp i fun c => { c with lport := 0 })).delivers
  rw [life_setUdp_lport w none i _ rfl rfl] at hs
  exact ⟨.single (.closeUdp _ _ i ho hdhcp hs), regs_event cfg .closed _⟩

theorem connect_udp (hconns : nT + nU ≤ maxGuid) (cfg : Config)
    (ho : (w.life none).IsOpen (.udp i)) (hrequest : (w.app (.udp i)).s.connectRequest = true) :
    (w.life none).Acts ((pollConnect cfg (.udp i) w).life none) ∧
      (pollConnect cfg (.udp i) w).regs = w.regs := by
  obtain ⟨guid, hguid, hinit⟩ := life_initState hconns w (.udp i) none
  have hs := (sends_event (p := none) (.udp i) cfg .newConnection
    (xtcpdInitState w (.udp i))).delivers
  rw [hinit] at hs
  unfold pollConnect
  constructor
  · rw [life_setS _ none (.udp i) _ rfl]
    exact .single (.announce _ _ i guid ho hrequest hguid hs)
  · exact (regs_event cfg .newConnection _).trans (regs_initState w (.udp i))

theorem isDhcpc_pollAck (w : Stack nT nU) : isDhcpc (pollAck (.udp i) w) (.udp i) =
    isDhcpc w (.udp i) := by
  unfold pollAck
  split <;> rfl

theorem poll_udp (hconns : nT + nU ≤ maxGuid) (cfg : Config) (ho : (w.life none).IsOpen (.udp i))
    (hdhcp : isDhcpc w (.udp i) = false) (hslen : w.uipSlen = 0) :
    Called i (w.life none) (uipXtcpdHandlePoll cfg (.udp i) w) ∧
      ∃ newdata, (uipXtcpdHandlePoll cfg (.udp i) w).uipFlags =
        { w.uipFlags with newdata := newdata } := by
  have hlife := life_pollAck (p := none) (.udp i) w
  have hf := flags_pollAck (.udp i) w
  have hs : (pollAck (.udp i) w).uipSlen = 0 := by
    have h := slen_pollAck (.udp i) w
    omega
  rw [← isDhcpc_pollAck w] at hdhcp
  unfold uipXtcpdHandlePoll
  rw [← hlife] at ho ⊢
  dsimp only
  generalize pollAck (.udp i) w = w₁ at hf hs ho hdhcp ⊢
  have hquiet {w₂ : Stack nT nU} (hacts : (w₁.life none).Acts (w₂.life none))
      (hregs : w₂.regs = w₁.regs) : Called i (w₁.life none) w₂ ∧
        ∃ newdata, w₂.uipFlags = { w.uipFlags with newdata := newdata } := by
    refine ⟨⟨hacts, fun h => ?_⟩, w₁.uipFlags.newdata, (congrArg Prod.fst hregs).trans hf⟩
    have hs₂ : w₂.uipSlen = 0 := (congrArg Prod.snd hregs).trans hs
    omega
  split
  · obtain ⟨hacts, hregs⟩ := close_udp cfg uipAbort ho hdhcp
    refine hquiet ?_ hregs
    rw [life_setS_same _ none _ _ rfl rfl]
    exact hacts
  split
  · obtain ⟨hacts, hregs⟩ := close_udp cfg uipClose ho hdhcp
    refine hquiet ?_ hregs
    rw [life_setS_same _ none _ _ rfl rfl]
    exact hacts
  split
  next hrequest =>
    obtain ⟨hacts, hregs⟩ := connect_udp hconns cfg ho hrequest
    exact hquiet hacts hregs
  split
  · exact ⟨(delivered_pollSend cfg ho).called hs, _, (flags_pollSend cfg w₁).trans hf⟩
  · exact ⟨(delivered_pollTimer cfg ho).called hs, _, (flags_pollTimer cfg w₁).trans hf⟩

theorem called_poll (hconns : nT + nU ≤ maxGuid) (cfg : Config) (hl : (w.udp i).lport ≠ 0)
    (hslen : w.uipSlen = 0) (hflags : w.uipFlags = { Flags.none with poll := true }) :
    Called i (w.life none) (xtcpdAppcall cfg (.udp i) w) := by
  cases h : isDhcpc w (.udp i) with
  | true => exact called_dhcpcAppcall cfg w h
  | false =>
    rw [appcall_udp cfg w h (by rw [hflags]; rfl) (by rw [hflags]; rfl) (by rw [hflags]; rfl)
      (by rw [hflags]; rfl)]
    obtain ⟨hcalled, newdata, hf⟩ := poll_udp hconns cfg (open_udp hl h) h hslen
    have hacked : onRexmit cfg (.udp i) (onAcked cfg (.udp i) w) = w := by
      simp [onRexmit, onAcked, hflags, Flags.none]
    have hrest : appcallRest cfg (.udp i) w = uipXtcpdHandlePoll cfg (.udp i) w := by
      rw [hflags] at hf
      simp [appcallRest, hacked, onPoll, onPush, onClosed, hf, hflags, Flags.none]
    rw [hrest]
    exact hcalled

end Xtcp.Uip
