import Xtcp.Uip.Refine

namespace Xtcp.Uip
open Channel Listen

variable {nT nU : Nat}

namespace Life

variable {a b : Life nT nU} {slot : Slot nT nU}

structure IdsInv (a : Life nT nU) : Prop where
  distinct : ∀ s t, a.id s ≠ 0 → a.id s = a.id t → s = t
  range : ∀ s, a.id s ≠ 0 → 1 ≤ a.id s ∧ a.id s ≤ maxGuid
  guid : 1 ≤ a.guid ∧ a.guid ≤ maxGuid

theorem IdsInv.same (h : IdsInv a) (hid : b.id = a.id) (hguid : b.guid = a.guid) : IdsInv b := by
  obtain ⟨hdistinct, hrange, hg⟩ := h
  refine ⟨?_, ?_, ?_⟩
  · rw [hid]
    exact hdistinct
  · rw [hid]
    exact hrange
  · rw [hguid]
    exact hg

theorem IdsInv.command (h : IdsInv a) (hc : Command a b) : IdsInv b := by
  cases hc with
  | adjust _ hc => cases hc <;> exact h.same rfl rfl
  | connectTcp => exact h.same rfl rfl
  | connectUdp => exact h.same rfl rfl

theorem ids_delivers {event : XtcpEvent} (hd : Delivers a slot event b) (h : IdsInv a) :
    IdsInv b :=
  delivers_invariant IdsInv (fun _ _ h => h.same rfl rfl) (fun _ _ h => h.command)
    (fun _ _ _ _ h => h.same rfl rfl) hd h

theorem IdsInv.issue (h : IdsInv a) {guid : Nat} (hguid : a.Issuable slot guid) :
    IdsInv (a.issue slot guid) := by
  obtain ⟨hother, hrange⟩ := hguid
  have hnew : 1 ≤ guid ∧ guid ≤ maxGuid := hrange h.guid
  have hid : ∀ s, (a.issue slot guid).id s = if s = slot then guid else a.id s :=
    fun s => Function.update_apply a.id slot guid s
  refine ⟨?_, ?_, hnew⟩
  · intro s t hs hst
    rw [hid] at hs
    rw [hid, hid] at hst
    by_cases h₁ : s = slot <;> by_cases h₂ : t = slot
    · rw [h₁, h₂]
    · rw [if_pos h₁, if_neg h₂] at hst
      exact absurd hst.symm (hother t h₂)
    · rw [if_neg h₁, if_pos h₂] at hst
      exact absurd hst (hother s h₁)
    · rw [if_neg h₁] at hs
      rw [if_neg h₁, if_neg h₂] at hst
      exact h.distinct s t hs hst
  · intro s hs
    rw [hid] at hs ⊢
    by_cases h₁ : s = slot
    · rw [if_pos h₁]
      exact hnew
    · rw [if_neg h₁] at hs ⊢
      exact h.range s hs

theorem ids_act (h : IdsInv a) (hact : Act a b) : IdsInv b := by
  cases hact with
  | command _ hc => exact h.command hc
  | establish _ i guid hstate hclosing hguid hb =>
    have hest : IdsInv (a.setState i .established) := h.same rfl rfl
    exact ids_delivers hb (hest.issue hguid)
  | accept _ i port guid hfree hguid hb =>
    have hopen : IdsInv ((a.clear i port).openAs (.udp i) (.passive port)) := h.same rfl rfl
    exact ids_delivers hb (hopen.issue hguid)
  | announce b i guid ho hrequest hguid hb =>
    exact (ids_delivers hb (h.issue hguid)).same rfl rfl
  | kill _ i event st hclosing hevent hst hb => exact ids_delivers hb (h.same rfl rfl)
  | close _ i hstate hclosing hclosed hb => exact ids_delivers hb (h.same rfl rfl)
  | lateClose _ i st hfin hst hclosing hclosed hb => exact ids_delivers hb (h.same rfl rfl)
  | data _ slot event ho hevent hb => exact ids_delivers hb h
  | closeUdp _ i ho hdhcp hb => exact ids_delivers hb (h.same rfl rfl)
  | ack _ i hsent ho hdhcp hb => exact ids_delivers hb (h.same rfl rfl)
  | arp _ i hpending ho hdhcp hb => exact ids_delivers hb (h.same rfl rfl)
  | _ => exact h.same rfl rfl

end Life

theorem lookup_issued (w : Stack nT nU) (slot : Slot nT nU)
    (hconns : nT + nU ≤ maxGuid) :
    lookupXtcpdState (xtcpdInitState w slot) ((xtcpdInitState w slot).app slot).conn.id =
      some slot := by
  obtain ⟨guid, hguid, hlife⟩ := life_initState hconns w slot none
  have hid (s : Slot nT nU) : ((xtcpdInitState w slot).app s).conn.id =
      if s = slot then guid else (w.app s).conn.id :=
    (congrFun (congrArg Life.id hlife) s).trans (Function.update_apply _ _ _ _)
  have hslot : ((xtcpdInitState w slot).app slot).conn.id = guid := by
    rw [hid, if_pos rfl]
  rw [hslot]
  have hsome := (lookup_isSome (xtcpdInitState w slot) guid).mpr ⟨slot, hslot⟩
  obtain ⟨found, hfound⟩ := Option.isSome_iff_exists.mp hsome
  rw [hfound]
  have hf := lookup_id hfound
  rw [hid] at hf
  by_cases h : found = slot
  · rw [h]
  · rw [if_neg h] at hf
    exact absurd hf (hguid.1 found h)

theorem conn_ids (hconns : nT + nU ≤ maxGuid) (cfg : Config) (numTcp numUdp numPorts arptab : Nat)
    (dhcp : Bool) (inputs : List (Env × Input)) :
    let w : Stack nT nU := run cfg (uipInit nT nU numTcp numUdp numPorts arptab dhcp) inputs
    (∀ s t, (w.app s).conn.id ≠ 0 → (w.app s).conn.id = (w.app t).conn.id → s = t) ∧
    (∀ s, (w.app s).conn.id ≠ 0 → 1 ≤ (w.app s).conn.id ∧ (w.app s).conn.id ≤ maxGuid) ∧
    ∀ slot,
      searchGuid (fun g => (lookupXtcpdState (w.setApp slot fun _ => .zero) g).isSome)
        (maxGuid + 1) w.guid ≠ none ∧
      lookupXtcpdState (xtcpdInitState w slot) ((xtcpdInitState w slot).app slot).conn.id =
        some slot := by
  intro w
  have h : Life.IdsInv (w.life none) := by
    refine run_invariant hconns cfg Life.IdsInv ⟨?_, ?_, ?_⟩ (fun _ _ => Life.ids_act) inputs
    · intro s t hs
      exact absurd rfl hs
    · intro s hs
      exact absurd rfl hs
    · exact ⟨le_rfl, (by decide : 1 ≤ maxGuid)⟩
  refine ⟨h.distinct, h.range, fun slot => ⟨?_, lookup_issued w slot hconns⟩⟩
  exact searchGuid_ne_none hconns _ slot (by simp [Stack.setApp, Xtcpd.zero, zeroConn]) w.guid

def noEnv : Env := ⟨[], [], [], []⟩

def smallConfig : Config := ⟨1460, 1472, 1460, false, false⟩

def host : Ipaddr := ⟨10, 0, 0, 2⟩

theorem conn_ids_connect :
    let w : Stack 1 1 := run smallConfig (uipInit 1 1 10 10 10 8 false)
      [(noEnv, .serviceClients [(0, .connect 80 host .udp)]), (noEnv, .checkConnectionPoll)]
    1 + 1 ≤ maxGuid ∧ (w.app (.udp 0)).conn.id = 1 ∧
      lookupXtcpdState (xtcpdInitState w (.tcp 0))
        ((xtcpdInitState w (.tcp 0)).app (.tcp 0)).conn.id = some (.tcp 0) := by
  intro w
  have h := @conn_ids 1 1 (by decide) smallConfig 10 10 10 8 false
    [(noEnv, .serviceClients [(0, .connect 80 host .udp)]), (noEnv, .checkConnectionPoll)]
  exact ⟨by decide, by decide +kernel, (h.2.2 (.tcp 0)).2⟩

end Xtcp.Uip
