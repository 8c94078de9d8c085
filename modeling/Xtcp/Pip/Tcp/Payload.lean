import Xtcp.Pip.Tcp.Log

namespace Xtcp.Pip.Tcp

variable {cfg : Config} {env : Env} {c c' : TcpConnection} {seg : Segment}

@[simp] theorem header_data (data : List UInt8) (flags : Flags) (c : TcpConnection) :
    (header data flags c).data = data := rfl

@[simp] theorem bounceRST_data (ack : Bool) : (bounceRST env seg ack).data = [] := by
  cases ack <;> rfl

-- What is put into the queue of a connection has at most k bytes.
@[simp] def sized (k : Nat) : Note → Prop
  | .stored _ data => data.length ≤ k
  | _ => True

@[simp] abbrev Sized (seg : Segment) (c c' : TcpConnection) : Prop :=
  Adds (sized seg.length.toNat) c.log c'.log

-- What neither puts bytes into the queue nor sends any.
@[simp] def bare : Note → Prop
  | .stored _ _ => False
  | .sent p => p.data = []
  | _ => True

@[simp] abbrev Bare (c c' : TcpConnection) : Prop := Adds bare c.log c'.log

theorem Plain.bare (h : Plain c c') : Bare c c' := by
  refine Adds.mono h fun x hx => ?_
  cases x with
  | sent => exact hx.1
  | entered | token => trivial
  | _ => exact hx.elim

theorem Bare.sized (h : Bare c c') : Sized seg c c' :=
  Adds.mono h fun x hx => by cases x <;> simp_all

theorem Aside.sized (h : Aside c c') : Sized seg c c' := by
  refine Adds.mono h.notes fun x hx => ?_
  cases x with
  | stored => exact hx.elim
  | _ => trivial

theorem storeIncomingData_sized {b : Bool} (h : storeIncomingData cfg env seg c = some (b, c')) :
    Sized seg c c' := by
  obtain ⟨i, rx, -, -, ⟨-, rfl⟩ | ⟨-, -, data, rx', -, rfl⟩⟩ := storeIncomingData_frame h
  · simp
  · simp

theorem incomingData_sized {b : Bool} (h : incomingData cfg env seg c = some (b, c')) :
    Sized seg c c' := by
  unfold incomingData at h
  split at h
  · obtain ⟨⟨b', c₂⟩, hstore, heq⟩ := Option.map_eq_some_iff.mp h
    obtain ⟨-, rfl⟩ := Prod.mk.inj heq
    exact (storeIncomingData_sized hstore).trans (by simp)
  · obtain ⟨-, rfl⟩ := Prod.mk.inj (Option.some.inj h)
    exact adds_refl

theorem Acked.sized (h : Acked cfg env seg c c') : Sized seg c c' :=
  h.adds (fun x hx => by cases x <;> simp_all [plain]) (fun hc => (takeAck_aside hc).sized)
    incomingData_sized

theorem establish_bare : Bare c (establish c) := by
  unfold establish
  dsimp only
  split <;> simp

theorem Synchronized.sized (h : Synchronized cfg env seg c c') : Sized seg c c' := by
  cases h with
  | outOfOrder | refused => simp
  | reset => exact incomingRST_plain.bare.sized
  | restart => exact incomingSYN_plain.bare.sized
  | silent => exact adds_refl
  | opened _ _ _ ha => exact (establish_bare (c := offered seg c)).sized.trans ha.sized
  | acked _ _ ha => exact ha.sized

theorem heard_bare : Bare c (heard seg c) := by
  unfold heard
  dsimp only
  split <;> split <;> simp

theorem greeted_bare : Bare c (greeted seg c) := by
  unfold greeted
  dsimp only
  split <;> simp

theorem declined_bare : Bare c (declined env seg c) := by
  unfold declined
  dsimp only
  split <;> simp

theorem Greeting.bare (h : Greeting env seg c c') : Bare c c' := by
  cases h with
  | declined => exact declined_bare
  | heard => exact heard_bare
  | estab | synrcvd =>
    have hlog : Bare c (greeted seg (Tcp.heard seg c)) := heard_bare.trans greeted_bare
    exact hlog.trans (by simp)

theorem incomingListen_bare : Bare c (incomingListen env seg c) := by
  unfold incomingListen
  split
  · simp
  split
  · simp
  split
  · simp
  · simp

theorem Arrival.sized (h : Arrival cfg env seg c c') : Sized seg c c' := by
  cases h with
  | closed => exact adds_refl
  | listen => exact incomingListen_bare.sized
  | synsent _ hg => exact hg.bare.sized
  | timewait => exact incomingTimewait_plain.bare.sized
  | synchronized _ hs => exact hs.sized

variable {n : Nat} {s s' : Stack n}

theorem pipIncomingTCP_sized (h : pipIncomingTCP cfg env seg s = some s') :
    Adds (sized seg.length.toNat) s.log s'.log := by
  unfold pipIncomingTCP at h
  split at h
  next i _ =>
    obtain ⟨c', hc', rfl⟩ := Option.map_eq_some_iff.mp h
    have hsized : Sized seg (s.conns i) c' := by
      have harrival := (incoming_cases hc').sized
      rwa [Sized, claim_log] at harrival
    exact adds_append.mpr hsized.fresh
  next =>
    split at h
    · exact Option.some.inj h ▸ adds_refl
    · rw [← Option.some.inj h]
      simp

end Xtcp.Pip.Tcp
