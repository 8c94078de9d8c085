import Xtcp.Pip.Tcp.Demux
import Xtcp.Pip.Tcp.Log

namespace Xtcp.Pip.Tcp
open Serial

variable {n : Nat} {cfg : Config} {env : Env} {seg : Segment} {c c' c₂ : TcpConnection}
  {s : Stack n}

def reset : Note → Option Sent
  | .bounced y => some y
  | .sent y => if y.flags.rst then some y else none
  | _ => none

-- The resets that a segment is answered with.
def resets (cfg : Config) (env : Env) (seg : Segment) (s : Stack n) : Option (List Sent) :=
  (pipIncomingTCP cfg env seg s).map fun s' => (s'.log.drop s.log.length).filterMap reset

def segLEN (seg : Segment) : Word :=
  BitVec.ofInt 32 (seg.length + (if seg.flags.syn then 1 else 0) + if seg.flags.fin then 1 else 0)

structure ResetFor (seg : Segment) (y : Sent) : Prop where
  srcPortRev : y.srcPortRev = seg.dstPortRev
  dstPortRev : y.dstPortRev = seg.srcPortRev
  dstIP : y.dstIP = seg.srcIP
  data : y.data = []
  numbers : if seg.flags.ack then y.flags = { rst := true } ∧ y.seq = seg.ack
    else y.flags = { rst := true, ack := true } ∧ y.seq = 0 ∧ y.ack = seg.seq + segLEN seg

-- Nothing but the SYN has been sent, so that its number is the one before SND.NXT.
def unacceptable (seg : Segment) (c : TcpConnection) : Prop :=
  match c.state with
  | .synsent => after seg.ack (c.sndNXT - 1) = false ∨ after seg.ack c.sndNXT = true
  | .synrcvd => outside (c.sndNXT - 1) c.sndNXT seg.ack = true
  | _ => False

-- What is to be answered with a reset: none is for a segment that no connection takes.
def rejected (seg : Segment) : Option TcpConnection → Prop
  | none => True
  | some c => seg.flags.ack = true ∧ (c.state = .listen ∨ unacceptable seg c)

structure ResetsFollow (cfg : Config) (env : Env) (seg : Segment) (s : Stack n) : Prop where
  answered : seg.flags.rst = false → rejected seg ((opened seg s).map s.conns) →
    ∃ y, resets cfg env seg s = some [y] ∧ ResetFor seg y
  silent : seg.flags.rst = true → resets cfg env seg s = some []

-- When bounceRST is called where it is to be, and the form that it takes is the right one.
def bounces (env : Env) (seg : Segment) : Option TcpConnection → Prop
  | none => seg.flags.rst = false → seg.flags.ack = false ∧ seg.ack = 0 ∧
      seg.seq + segLEN seg = 0 ∧ env.pseudo.ackRequired = true
  | some c => seg.flags.ack = true →
    match c.state with
    | .listen => seg.flags.rst = true
    | .synsent =>
        if seg.flags.rst then outside c.sndUNA c.sndNXT seg.ack = false else ¬ unacceptable seg c
    | .synrcvd => seg.flags.rst = false → unacceptable seg c → seg.seq = c.rcvNXT ∧
        seg.flags.syn = false ∧ outside c.sndUNA c.sndNXT seg.ack = true ∧
        env.pseudo.ackRequired = false
    | _ => True

section Form

theorem bounceRST_false (h : seg.flags.ack = true) : ¬ ResetFor seg (bounceRST env seg false) := by
  intro hr
  have hnumbers := hr.numbers
  rw [if_pos h] at hnumbers
  have hflags := congrArg Flags.ack hnumbers.1
  simp [bounceRST, header] at hflags

theorem bounceRST_ack (h : seg.flags.ack = true) :
    ResetFor seg (bounceRST env seg true) ↔ env.pseudo.ackRequired = false := by
  refine ⟨fun hr => ?_, fun hp => ?_⟩
  · have hnumbers := hr.numbers
    rw [if_pos h] at hnumbers
    simpa [bounceRST, header] using congrArg Flags.ack hnumbers.1
  · refine ⟨rfl, rfl, rfl, rfl, ?_⟩
    rw [if_pos h]
    simp [bounceRST, header, hp]

-- A right answer where the wrong form is taken: its numbers are 0 all the same.
theorem bounceRST_noAck (h : seg.flags.ack = false) : ResetFor seg (bounceRST env seg true) ↔
    seg.ack = 0 ∧ seg.seq + segLEN seg = 0 ∧ env.pseudo.ackRequired = true := by
  have hpick {p q : Prop} : (if seg.flags.ack then p else q) ↔ q := by simp [h]
  refine ⟨fun hr => ?_, fun ⟨hzero, hlen, hp⟩ => ⟨rfl, rfl, rfl, rfl, ?_⟩⟩
  · obtain ⟨hflags, hseq, hack⟩ := hpick.mp hr.numbers
    have hp : env.pseudo.ackRequired = true := by
      simpa [bounceRST, header] using congrArg Flags.ack hflags
    refine ⟨hseq, ?_, hp⟩
    rw [← hack]
    simp [bounceRST, header]
  · rw [hpick, hlen]
    simp [bounceRST, header, hp, hzero]

end Form

section Silent

def mild (x : Note) : Prop := reset x = none

@[simp] abbrev Mild (c c' : TcpConnection) : Prop := Adds mild c.log c'.log

theorem Mild.fresh (h : Mild c c') : (Tcp.fresh c c').filterMap reset = [] :=
  List.filterMap_eq_nil_iff.mpr (Adds.fresh h)

theorem loadOutgoingData_mild (h : loadOutgoingData cfg env c = some c') : Mild c c' := by
  obtain ⟨data, tx, -, ⟨-, rfl⟩ | ⟨-, -, tx', -, rfl⟩⟩ := loadOutgoingData_frame h
  all_goals
    unfold readyNote
    split <;> simp [mild, reset, header]

theorem takeAck_mild (h : takeAck cfg env seg c = some c') : Mild c c' := by
  have hcredited : Mild c (credited seg c) := by simp [credited, mild, reset]
  rcases takeAck_cases h with ⟨-, rfl⟩ | ⟨-, -, c₂, hwrite, hload⟩
  · exact hcredited
  · obtain ⟨tx, -, rfl⟩ := copyDataFromWrite_frame hwrite
    exact (hcredited.trans (by simp [mild, reset])).trans (loadOutgoingData_mild hload)

theorem Beside.mild (h : Beside c c') : Mild c c' := by
  refine Adds.mono h.notes fun x hx => ?_
  cases x with
  | sent | bounced => exact hx.elim
  | _ => rfl

theorem incomingData_mild {b : Bool} (h : incomingData cfg env seg c = some (b, c')) :
    Mild c c' := by
  unfold incomingData at h
  split at h
  · obtain ⟨⟨b', c₂⟩, hstore, heq⟩ := Option.map_eq_some_iff.mp h
    obtain ⟨-, rfl⟩ := Prod.mk.inj heq
    exact (storeIncomingData_beside hstore).mild.trans (by simp [Tcp.mild, reset, header])
  · obtain ⟨-, rfl⟩ := Prod.mk.inj (Option.some.inj h)
    exact adds_refl

theorem mild_of_plain (x : Note) (h : plain x) : mild x := by
  cases x with
  | sent p => simp [mild, reset, h.2]
  | entered | token => rfl
  | _ => exact h.elim

theorem Plain.mild (h : Plain c c') : Mild c c' := Adds.mono h mild_of_plain

theorem Acked.mild (h : Acked cfg env seg c c') : Mild c c' :=
  h.adds mild_of_plain takeAck_mild incomingData_mild

theorem establish_mild : Mild c (establish c) := by
  unfold establish
  dsimp only
  split <;> simp [mild, reset]

theorem Synchronized.mild (h : Synchronized cfg env seg c c') : Mild c c' ∨
    InOrder seg c ∧ c.state = .synrcvd ∧ outside c.sndUNA c.sndNXT seg.ack = true ∧
      c' = (offered seg c).note (.bounced (bounceRST env seg true)) := by
  cases h with
  | outOfOrder => exact Or.inl (by simp [Tcp.mild, Tcp.reset, header])
  | reset => exact Or.inl incomingRST_plain.mild
  | restart => exact Or.inl incomingSYN_plain.mild
  | silent => exact Or.inl adds_refl
  | refused h hst ho => exact Or.inr ⟨h, hst, ho, rfl⟩
  | opened _ _ _ ha => exact Or.inl ((establish_mild (c := offered seg c)).trans ha.mild)
  | acked _ _ ha => exact Or.inl ha.mild

theorem heard_mild : Mild c (heard seg c) := by
  unfold heard
  dsimp only
  split <;> split <;> simp [mild, reset]

theorem greeted_mild : Mild c (greeted seg c) := by
  unfold greeted
  dsimp only
  split <;> simp [mild, reset]

theorem Greeting.mild (h : Greeting env seg c c')
    (ho : ¬ (seg.flags.ack = true ∧ outside c.sndUNA c.sndNXT seg.ack = true)) : Mild c c' := by
  cases h with
  | declined hack hout => exact absurd ⟨hack, hout⟩ ho
  | heard => exact heard_mild
  | estab | synrcvd =>
    have hlog : Mild c (greeted seg (Tcp.heard seg c)) := heard_mild.trans greeted_mild
    exact hlog.trans (by simp [Tcp.mild, reset, header])

theorem declined_resets :
    (Tcp.fresh c (declined env seg c)).filterMap reset = [bounceRST env seg false] := by
  unfold declined
  dsimp only
  split <;> simp [Tcp.fresh, reset]

end Silent

section Reply

-- What one connection answers.
def reply (cfg : Config) (env : Env) (seg : Segment) (c : TcpConnection) : Option (List Sent) :=
  (incoming cfg env seg c).map fun c' => (fresh c c').filterMap reset

theorem resets_opened {i : Fin n} (h : opened seg s = some i) :
    resets cfg env seg s = reply cfg env seg (claim seg (s.conns i)) := by
  rw [resets, pipIncomingTCP_opened h, Option.map_map, reply]
  congr 1
  funext c'
  simp [Stack.put, fresh, claim_log]

theorem resets_none (h : opened seg s = none) : resets cfg env seg s =
    some (if seg.flags.rst then [] else [bounceRST env seg (!seg.flags.ack)]) := by
  have hfind : ((List.finRange n).find? fun i => found seg (s.conns i)) = none := h
  rw [resets, pipIncomingTCP, hfind]
  cases seg.flags.rst <;> simp [reset]

theorem reply_some (h : incoming cfg env seg c = some c') (hm : Mild c c') :
    reply cfg env seg c = some [] := by
  rw [reply, h, Option.map_some, hm.fresh]

theorem reply_rst (hrst : seg.flags.rst = true) (hst : c.state ≠ .synsent) :
    reply cfg env seg c = some [] := by
  cases hin : incoming cfg env seg c with
  | some c' =>
    refine reply_some hin ?_
    cases incoming_cases hin with
    | closed => exact adds_refl
    | listen => simp [incomingListen, hrst]
    | synsent hst' => exact absurd hst' hst
    | timewait => exact incomingTimewait_plain.mild
    | synchronized _ h =>
      refine h.mild.resolve_right fun hrefused => ?_
      simp [hrefused.1.rst] at hrst
  | none =>
    unfold incoming at hin
    split at hin
    iterate 5 cases hin
    unfold incomingSynchronized at hin
    split at hin
    · cases hin
    · cases hin

theorem reply_listen (hst : c.state = .listen) (hrst : seg.flags.rst = false)
    (hack : seg.flags.ack = true) :
    reply cfg env seg c = some [bounceRST env seg false] := by
  have hin : incoming cfg env seg c = some (c.note (.bounced (bounceRST env seg false))) := by
    simp [incoming, hst, incomingListen, hrst, hack]
  rw [reply, hin, Option.map_some, fresh_eq rfl]
  rfl

theorem reply_synsent (hst : c.state = .synsent) : reply cfg env seg c =
    some (if seg.flags.ack = true ∧ outside c.sndUNA c.sndNXT seg.ack = true then
      [bounceRST env seg false] else []) := by
  have hin : incoming cfg env seg c = some (incomingSynsent env seg c) := by
    rw [incoming, hst]
  split
  · next ho =>
    have hdeclined : incomingSynsent env seg c = declined env seg c := if_pos ho
    rw [reply, hin, Option.map_some, hdeclined, declined_resets]
  · next ho => exact reply_some hin (incomingSynsent_cases.mild ho)

-- The only reset of a connection that waits for the last acknowledgement of the handshake.
theorem reply_synrcvd (hst : c.state = .synrcvd) (h : InOrder seg c)
    (ho : outside c.sndUNA c.sndNXT seg.ack = true) :
    reply cfg env seg c = some [bounceRST env seg true] := by
  have hin : incoming cfg env seg c =
      some ((offered seg c).note (.bounced (bounceRST env seg true))) := by
    simp [incoming, hst, incomingSynchronized, h.seq, h.rst, h.syn, h.ack, ho]
  rw [reply, hin, Option.map_some, fresh_eq rfl]
  rfl

theorem reply_synrcvd_mild {l : List Sent} (hst : c.state = .synrcvd)
    (h : ¬ (InOrder seg c ∧ outside c.sndUNA c.sndNXT seg.ack = true))
    (hl : reply cfg env seg c = some l) : l = [] := by
  obtain ⟨c', hin, rfl⟩ := Option.map_eq_some_iff.mp hl
  have hsync : Synchronized cfg env seg c c' := by
    cases incoming_cases hin with
    | synchronized _ hs => exact hs
    | timewait hst' => simp [hst] at hst'
    | closed hst' | listen hst' | synsent hst' =>
      rw [hst] at hst'
      cases hst'
  rcases hsync.mild with hm | ⟨hin, -, ho, -⟩
  · exact hm.fresh
  · exact absurd ⟨hin, ho⟩ h

-- What is asked of the answer, whoever gives it.
def Right (seg : Segment) (o : Option TcpConnection) (r : Option (List Sent)) : Prop :=
  (seg.flags.rst = false → rejected seg o → ∃ y, r = some [y] ∧ ResetFor seg y) ∧
    (seg.flags.rst = true → r = some [])

theorem right_rst {o : Option TcpConnection} {r : Option (List Sent)} (h : seg.flags.rst = true) :
    Right seg o r ↔ r = some [] := by
  simp [Right, h]

theorem right_single {o : Option TcpConnection} {y : Sent} (h : seg.flags.rst = false) :
    Right seg o (some [y]) ↔ (rejected seg o → ResetFor seg y) := by
  simp [Right, h]

theorem right_nil {o : Option TcpConnection} {r : Option (List Sent)} (h : seg.flags.rst = false)
    (hr : ∀ l, r = some l → l = []) : Right seg o r ↔ ¬ rejected seg o := by
  refine ⟨fun hright ho => ?_, fun ho => ⟨fun _ ho' => absurd ho' ho, fun hrst => ?_⟩⟩
  · obtain ⟨y, hy, -⟩ := hright.1 h ho
    cases hr _ hy
  · rw [h] at hrst
    cases hrst

theorem right_none : Right seg none (some (if seg.flags.rst then [] else
    [bounceRST env seg (!seg.flags.ack)])) ↔ bounces env seg none := by
  cases hrst : seg.flags.rst with
  | true => simp [right_rst hrst, bounces, hrst]
  | false =>
    rw [if_neg Bool.false_ne_true, right_single hrst]
    cases hack : seg.flags.ack with
    | true =>
      have hwrong : ¬ ResetFor seg (bounceRST env seg false) := bounceRST_false hack
      simp [rejected, bounces, hrst, hack, hwrong]
    | false => simp [rejected, bounces, hrst, hack, bounceRST_noAck hack]

theorem right_listen (hst : c.state = .listen) :
    Right seg (some c) (reply cfg env seg c) ↔ bounces env seg (some c) := by
  cases hrst : seg.flags.rst with
  | true =>
    rw [right_rst hrst, reply_rst hrst (by simp [hst])]
    simp [bounces, hst, hrst]
  | false =>
    cases hack : seg.flags.ack with
    | true =>
      have hwrong : ¬ ResetFor seg (bounceRST env seg false) := bounceRST_false hack
      rw [reply_listen hst hrst hack, right_single hrst]
      simp [rejected, bounces, hst, hrst, hack, hwrong]
    | false => simp [Right, rejected, bounces, hrst, hack]

theorem right_synsent (hst : c.state = .synsent) :
    Right seg (some c) (reply cfg env seg c) ↔ bounces env seg (some c) := by
  rw [reply_synsent hst]
  cases hack : seg.flags.ack with
  | false => simp [Right, rejected, bounces, hack]
  | true =>
    cases hrst : seg.flags.rst with
    | true => simp [right_rst hrst, bounces, hst, hrst, hack]
    | false =>
      have hwrong : ¬ ResetFor seg (bounceRST env seg false) := bounceRST_false hack
      have hrejected : rejected seg (some c) ↔ unacceptable seg c := by
        simp [rejected, hst, hack]
      split
      · rw [right_single hrst, hrejected]
        simp [bounces, hst, hrst, hack, hwrong]
      · rw [right_nil hrst (by simp), hrejected]
        simp [bounces, hst, hrst, hack]

theorem right_synrcvd (hst : c.state = .synrcvd) :
    Right seg (some c) (reply cfg env seg c) ↔ bounces env seg (some c) := by
  cases hrst : seg.flags.rst with
  | true =>
    rw [right_rst hrst, reply_rst hrst (by simp [hst])]
    simp [bounces, hst, hrst]
  | false =>
    cases hack : seg.flags.ack with
    | false => simp [Right, rejected, bounces, hrst, hack]
    | true =>
      have hrejected : rejected seg (some c) ↔ unacceptable seg c := by
        simp [rejected, hst, hack]
      by_cases ho : InOrder seg c ∧ outside c.sndUNA c.sndNXT seg.ack = true
      · rw [reply_synrcvd hst ho.1 ho.2, right_single hrst, hrejected, bounceRST_ack hack]
        simp [bounces, hst, hrst, hack, ho.2, ho.1.seq, ho.1.syn]
      · rw [right_nil hrst fun l hl => reply_synrcvd_mild hst ho hl, hrejected]
        have hcond : ¬ (seg.seq = c.rcvNXT ∧ seg.flags.syn = false ∧
            outside c.sndUNA c.sndNXT seg.ack = true ∧ env.pseudo.ackRequired = false) :=
          fun ⟨hseq, hsyn, hout, _⟩ => ho ⟨⟨hseq, hrst, hsyn, hack⟩, hout⟩
        simp only [bounces, hst, hrst, hack, true_imp_iff, hcond, imp_false]

theorem right_connection :
    Right seg (some c) (reply cfg env seg c) ↔ bounces env seg (some c) := by
  by_cases hl : c.state = .listen
  · exact right_listen hl
  by_cases hs : c.state = .synsent
  · exact right_synsent hs
  by_cases hr : c.state = .synrcvd
  · exact right_synrcvd hr
  have hnot : ¬ rejected seg (some c) := by
    rintro ⟨-, hst | hu⟩
    · exact hl hst
    · unfold unacceptable at hu
      split at hu
      · next hst => exact hs hst
      · next hst => exact hr hst
      · exact hu
  have hbounces : bounces env seg (some c) := by
    intro _
    split <;> first | contradiction | trivial
  refine iff_of_true ⟨fun _ ho => absurd ho hnot, fun hrst => reply_rst hrst hs⟩ hbounces

end Reply

theorem follow_iff : ResetsFollow cfg env seg s ↔
    Right seg ((opened seg s).map s.conns) (resets cfg env seg s) :=
  ⟨fun h => ⟨h.answered, h.silent⟩, fun h => ⟨h.1, h.2⟩⟩

theorem resets_exact (cfg : Config) (env : Env) (seg : Segment) (s : Stack n) :
    ResetsFollow cfg env seg s ↔ bounces env seg ((opened seg s).map s.conns) := by
  rw [follow_iff]
  cases ho : opened seg s with
  | none =>
    rw [resets_none ho]
    exact right_none
  | some i =>
    obtain ⟨port, ip, ip', hsame⟩ := claim_same seg (s.conns i)
    have hright : Right seg (some (claim seg (s.conns i)))
        (reply cfg env seg (claim seg (s.conns i))) ↔ _ := right_connection
    rw [resets_opened ho]
    rw [hsame] at hright ⊢
    exact hright

-- A segment with ACK to a port that nobody has.
theorem wrong_form :
    ¬ ResetsFollow small (during 0 0) (packet 5 1 { ack := true } []) (.start 1) := by
  intro h
  have hnone : opened (packet 5 1 { ack := true } []) (Stack.start 1) = none := by decide
  obtain ⟨y, hy, hr⟩ := h.answered rfl (by rw [hnone]; trivial)
  rw [resets_none hnone] at hy
  have heq : [bounceRST (during 0 0) (packet 5 1 { ack := true } []) false] = [y] :=
    Option.some.inj hy
  exact bounceRST_false rfl (List.singleton_inj.mp heq ▸ hr)

end Xtcp.Pip.Tcp
