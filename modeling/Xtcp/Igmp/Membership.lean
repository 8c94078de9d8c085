import Xtcp.Igmp.Group
import Mathlib.Data.List.Infix

namespace Xtcp.Igmp
open Channel Timer

section History

-- A join of the address that no leave has followed.
def JoinOpen (notes : List Note) (a : Ipaddr) : Prop :=
  ∃ pre post, notes = pre ++ .joined a :: post ∧ .left a ∉ post

-- Its join has been processed, and it has not been left since.
def Member (notes : List Note) (a : Ipaddr) : Prop :=
  ∃ pre post, notes = pre ++ .processed a :: post ∧ JoinOpen pre a ∧ .left a ∉ post

variable {notes new : List Note} {a : Ipaddr}

theorem JoinOpen.append (h : JoinOpen notes a) (hnew : .left a ∉ new) :
    JoinOpen (notes ++ new) a := by
  obtain ⟨pre, post, rfl, hpost⟩ := h
  refine ⟨pre, post ++ new, by simp, ?_⟩
  exact fun hm => (List.mem_append.mp hm).elim hpost hnew

theorem joinOpen_joined (notes : List Note) (a : Ipaddr) : JoinOpen (notes ++ [.joined a]) a :=
  ⟨notes, [], rfl, by simp⟩

theorem Member.append (h : Member notes a) (hnew : .left a ∉ new) : Member (notes ++ new) a := by
  obtain ⟨pre, post, rfl, hpre, hpost⟩ := h
  refine ⟨pre, post ++ new, by simp, hpre, ?_⟩
  exact fun hm => (List.mem_append.mp hm).elim hpost hnew

theorem member_processed (h : JoinOpen notes a) (hleft : .left a ∉ new)
    (hp : .processed a ∈ new) : Member (notes ++ new) a := by
  obtain ⟨s, t, rfl⟩ := List.append_of_mem hp
  refine ⟨notes ++ s, t, by simp, h.append fun hm => hleft ?_, fun hm => hleft ?_⟩
  · exact List.mem_append_left _ hm
  · exact List.mem_append_right _ (List.mem_cons_of_mem _ hm)

theorem Member.of_append (h : Member (notes ++ new) a) (hp : .processed a ∉ new) :
    Member notes a ∧ .left a ∉ new := by
  obtain ⟨pre, post, heq, hpre, hpost⟩ := h
  rcases List.append_eq_append_iff.mp heq with ⟨s, rfl, hnew⟩ | ⟨t, hnotes, hpost'⟩
  · exact absurd (by rw [hnew]; simp) hp
  · cases t with
    | nil => exact absurd (by rw [← show _ = new from hpost']; exact List.mem_cons_self) hp
    | cons x t =>
      obtain ⟨rfl, rfl⟩ := List.cons.inj hpost'
      have hpost : .left a ∉ t ∧ .left a ∉ new :=
        not_or.mp fun hm => hpost (List.mem_append.mpr hm)
      exact ⟨⟨pre, t, hnotes, hpre, hpost.1⟩, hpost.2⟩

end History

section Entries

variable {gs gs' : Groups} {new : List Note} {a b : Ipaddr} {st : IgmpState} {g g' : IgmpGroupState}

def Holds (st : IgmpState) (gs : Groups) (a : Ipaddr) : Prop :=
  ∃ g ∈ gs, g.state = st ∧ g.addr = a

@[simp] theorem holds_nil : ¬ Holds st [] a := by simp [Holds]

@[simp] theorem holds_cons :
    Holds st (g :: gs) a ↔ (g.state = st ∧ g.addr = a) ∨ Holds st gs a := by
  simp [Holds]

-- A report is due: the entry turns to IDLE_MEMBER when it is met.
def expires (now : Word) (g : IgmpGroupState) : Bool :=
  g.state = .delayedMember && timerExpired now g.timer

def sends (g : IgmpGroupState) : Bool :=
  g.state = .pendingJoin || g.state = .pendingLeave && g.flag

-- No entry that igmp_periodic comes to is due.
def Quiet (clock : Nat → Word) : Nat → Nat → Groups → Prop
  | _, _, [] => True
  | i, uipLen, g :: gs =>
    expires (clock i) g = false ∧ (uipLen = 0 → sends g = false → Quiet clock (i + 1) 0 gs)

structure Passed (gs gs' : Groups) (new : List Note) : Prop where
  delayed : ∀ a, Holds .delayedMember gs' a ↔ Holds .delayedMember gs a ∨ .processed a ∈ new
  pending : ∀ a, Holds .pendingJoin gs' a → Holds .pendingJoin gs a
  processed : ∀ a, .processed a ∈ new → Holds .pendingJoin gs a
  idle : ∀ a, Holds .idleMember gs' a → Holds .idleMember gs a
  left : ∀ a, .left a ∉ new

theorem Passed.refl (gs : Groups) : Passed gs gs [] where
  delayed a := by simp
  pending a h := h
  processed a h := by simp at h
  idle a h := h
  left a h := by simp at h

theorem Passed.cons {more : List Note} (hg : Passed [g] [g'] new) (h : Passed gs gs' more) :
    Passed (g :: gs) (g' :: gs') (new ++ more) where
  delayed a := by
    have h1 := hg.delayed a
    have h2 := h.delayed a
    simp only [holds_cons, holds_nil, or_false] at h1
    rw [holds_cons, holds_cons, h1, h2, List.mem_append]
    tauto
  pending a hp := by
    rw [holds_cons] at hp ⊢
    exact hp.imp (fun hp => by simpa using hg.pending a (by simpa using hp)) (h.pending a)
  processed a hp := by
    rw [holds_cons]
    exact (List.mem_append.mp hp).imp (fun hp => by simpa using hg.processed a hp) (h.processed a)
  idle a hp := by
    rw [holds_cons] at hp ⊢
    exact hp.imp (fun hp => by simpa using hg.idle a (by simpa using hp)) (h.idle a)
  left a hp := (List.mem_append.mp hp).elim (hg.left a) (h.left a)

theorem igmpGroupPeriodic_passed {now : Word} {n : Nat} (h : expires now g = false) :
    Passed [g] [(igmpGroupPeriodic now n g).1] (igmpGroupPeriodic now n g).2.2 := by
  cases hst : g.state with
  | nonMember => simpa [igmpGroupPeriodic, hst] using Passed.refl [g]
  | idleMember => simpa [igmpGroupPeriodic, hst] using Passed.refl [g]
  | delayedMember =>
    have ht : timerExpired now g.timer = false := by simpa [expires, hst] using h
    simpa [igmpGroupPeriodic, hst, ht] using Passed.refl [g]
  | pendingJoin =>
    constructor <;> intro a <;> simp [igmpGroupPeriodic, hst, sendMembershipReport, eq_comm]
  | pendingLeave =>
    cases hf : g.flag <;> constructor <;> intro a <;>
      simp [igmpGroupPeriodic, hst, hf, sendLeaveGroup]

theorem igmpGroupPeriodic_len {now : Word} {n : Nat} (h : expires now g = false) :
    (igmpGroupPeriodic now n g).2.1 = if sends g then igmpMsgLen else n := by
  cases hst : g.state with
  | nonMember => simp [igmpGroupPeriodic, sends, hst]
  | idleMember => simp [igmpGroupPeriodic, sends, hst]
  | delayedMember =>
    have ht : timerExpired now g.timer = false := by simpa [expires, hst] using h
    simp [igmpGroupPeriodic, sends, hst, ht]
  | pendingJoin => simp [igmpGroupPeriodic, sends, hst]
  | pendingLeave => cases hf : g.flag <;> simp [igmpGroupPeriodic, sends, hst, hf]

theorem igmpPeriodic_passed (clock : Nat → Word) (i n : Nat) (gs : Groups)
    (h : Quiet clock i n gs) :
    Passed gs (igmpPeriodic clock i n gs).1 (igmpPeriodic clock i n gs).2 := by
  induction gs generalizing i n with
  | nil => exact .refl []
  | cons g gs ih =>
    obtain ⟨hg, hmore⟩ := h
    have hp := igmpGroupPeriodic_passed (n := n) hg
    have hlen := igmpGroupPeriodic_len (n := n) hg
    simp only [igmpPeriodic]
    split
    · have := hp.cons (Passed.refl gs)
      rwa [List.append_nil] at this
    · rename_i hpos
      have hs : sends g = false := by
        by_contra hs
        rw [Bool.not_eq_false] at hs
        rw [hlen, if_pos hs] at hpos
        exact hpos (by decide)
      rw [hlen, hs] at hpos ⊢
      obtain rfl : n = 0 := by simpa using hpos
      exact hp.cons (ih (i + 1) 0 (hmore rfl hs))

theorem igmpChecksumValid_eq (m : IgmpMsg) : igmpChecksumValid m = false := by
  simp only [igmpChecksumValid, beq_eq_false_iff_ne]
  omega

theorem igmpIn_eq (clock : Nat → Word) (m : IgmpMsg) (gs : Groups) : igmpIn clock m gs = gs := by
  simp [igmpIn, igmpChecksumValid_eq]

theorem igmpJoinGroup_holds : Holds st (igmpJoinGroup b gs) a →
    Holds st gs a ∨ (st = .pendingJoin ∧ a = b) := by
  induction gs with
  | nil => simp [igmpJoinGroup]
  | cons g gs ih =>
    simp only [igmpJoinGroup]
    split
    · simp only [holds_cons]
      rintro (⟨rfl, rfl⟩ | h)
      · exact Or.inr ⟨rfl, rfl⟩
      · exact Or.inl (Or.inr h)
    · simp only [holds_cons]
      rintro (h | h)
      · exact Or.inl (Or.inl h)
      · exact (ih h).imp_left Or.inr

theorem igmpJoinGroup_keeps (hst : st ≠ .nonMember) (h : Holds st gs a) :
    Holds st (igmpJoinGroup b gs) a := by
  induction gs with
  | nil => exact h
  | cons g gs ih =>
    simp only [igmpJoinGroup]
    rw [holds_cons] at h
    split
    · rename_i hn
      rw [holds_cons]
      exact h.elim (fun h => absurd (h.1.symm.trans hn) hst) Or.inr
    · rw [holds_cons]
      exact h.imp_right ih

theorem matched_iff (hidle : ∀ a, ¬ Holds .idleMember gs a) (hg : g ∈ gs) :
    matched a g = true ↔ g.state = .delayedMember ∧ g.addr = a := by
  have hn : g.state ≠ .idleMember := fun h => hidle g.addr ⟨g, hg, h, rfl⟩
  simp [matched, hn, eq_comm (a := a)]

theorem igmpCheckAddr_iff (hidle : ∀ a, ¬ Holds .idleMember gs a) :
    igmpCheckAddr a gs ≠ 0 ↔ Holds .delayedMember gs a := by
  have h : gs.any (matched a) = true ↔ Holds .delayedMember gs a := by
    rw [List.any_eq_true]
    exact exists_congr fun g => and_congr_right (matched_iff hidle)
  rw [← h]
  simp [igmpCheckAddr]

-- No entry of the address is a member or on its way to be, and no other entry has changed.
structure LeaveEnds (gs : Groups) (a : Ipaddr) : Prop where
  pending : ¬ Holds .pendingJoin (igmpLeaveGroup a gs) a
  delayed : ¬ Holds .delayedMember (igmpLeaveGroup a gs) a
  idle : ¬ Holds .idleMember (igmpLeaveGroup a gs) a
  others : ∀ (i : Nat) (g : IgmpGroupState), gs[i]? = some g → g.addr ≠ a →
    (igmpLeaveGroup a gs)[i]? = some g

theorem igmpLeaveGroup_holds (hidle : ∀ a, ¬ Holds .idleMember gs a) (hst : st ≠ .pendingLeave) :
    Holds st (igmpLeaveGroup b gs) a ↔ Holds st gs a ∧ ¬ (st = .delayedMember ∧ a = b) := by
  constructor
  · rintro ⟨x, hx, h⟩
    obtain ⟨g, hg, rfl⟩ := List.mem_map.mp hx
    by_cases hm : matched b g = true
    · rw [if_pos hm] at h
      exact absurd h.1.symm hst
    · rw [if_neg hm] at h
      obtain ⟨rfl, rfl⟩ := h
      exact ⟨⟨g, hg, rfl, rfl⟩, fun hd => hm ((matched_iff hidle hg).mpr hd)⟩
  · rintro ⟨⟨g, hg, rfl, rfl⟩, hne⟩
    have hm : ¬ matched b g = true := fun hm => hne ((matched_iff hidle hg).mp hm)
    exact ⟨g, List.mem_map.mpr ⟨g, hg, if_neg hm⟩, rfl, rfl⟩

theorem leaveEnds_iff (hidle : ∀ a, ¬ Holds .idleMember gs a) :
    LeaveEnds gs a ↔ ¬ Holds .pendingJoin gs a := by
  constructor
  · intro h hp
    exact h.pending ((igmpLeaveGroup_holds hidle (by decide)).mpr ⟨hp, by simp⟩)
  · intro hp
    constructor
    · exact fun h => hp ((igmpLeaveGroup_holds hidle (by decide)).mp h).1
    · exact fun h => ((igmpLeaveGroup_holds hidle (by decide)).mp h).2 ⟨rfl, rfl⟩
    · exact fun h => hidle a ((igmpLeaveGroup_holds hidle (by decide)).mp h).1
    · intro i g hi hne
      have hm : ¬ matched a g = true :=
        fun hm => hne ((matched_iff hidle (List.mem_of_getElem? hi)).mp hm).2
      rw [igmpLeaveGroup, List.getElem?_map, hi, Option.map_some, if_neg hm]

end Entries

section Runs

inductive Run (C : Groups → Event → Prop) (gs : Groups) : Groups → List Note → Prop where
  | nil : Run C gs gs []
  | concat {gs' : Groups} {notes : List Note} {e : Event} :
      Run C gs gs' notes → C gs' e → Run C gs (step gs' e).1 (notes ++ (step gs' e).2)

-- No report falls due, and no join is still pending when its group is left.
def Settled (gs : Groups) : Event → Prop
  | .joinGroup _ | .incoming _ _ => True
  | .leaveGroup a => ¬ Holds .pendingJoin gs a
  | .periodic clock uipLen => Quiet clock 0 uipLen gs

structure Inv (gs : Groups) (notes : List Note) : Prop where
  idle : ∀ a, ¬ Holds .idleMember gs a
  pending : ∀ a, Holds .pendingJoin gs a → JoinOpen notes a
  member : ∀ a, Holds .delayedMember gs a ↔ Member notes a

variable {gs gs' : Groups} {notes : List Note}

theorem inv_igmpInit (groups : Groups) : Inv (igmpInit groups) [] where
  idle a := by simp [Holds, igmpInit]
  pending a := by simp [Holds, igmpInit]
  member a := by simp [Holds, igmpInit, Member]

theorem inv_joinGroup (h : Inv gs notes) (a : Ipaddr) :
    Inv (igmpJoinGroup a gs) (notes ++ [.joined a]) where
  idle b hb := (igmpJoinGroup_holds hb).elim (h.idle b) (by simp)
  pending b hb := by
    rcases igmpJoinGroup_holds hb with hb | ⟨-, rfl⟩
    · exact (h.pending b hb).append (by simp)
    · exact joinOpen_joined notes b
  member b := by
    constructor
    · intro hb
      have hb := (igmpJoinGroup_holds hb).elim id (by simp)
      exact ((h.member b).mp hb).append (by simp)
    · intro hb
      exact igmpJoinGroup_keeps (by decide) ((h.member b).mpr (hb.of_append (by simp)).1)

theorem inv_leaveGroup (h : Inv gs notes) {a : Ipaddr} (hp : ¬ Holds .pendingJoin gs a) :
    Inv (igmpLeaveGroup a gs) (notes ++ [.left a]) where
  idle b hb := h.idle b ((igmpLeaveGroup_holds h.idle (by decide)).mp hb).1
  pending b hb := by
    have hb := ((igmpLeaveGroup_holds h.idle (by decide)).mp hb).1
    have hne : b ≠ a := fun heq => hp (heq ▸ hb)
    exact (h.pending b hb).append (by simpa using hne)
  member b := by
    rw [igmpLeaveGroup_holds h.idle (by decide), h.member b]
    constructor
    · rintro ⟨hb, hne⟩
      exact hb.append (by simpa using hne)
    · intro hb
      obtain ⟨hb, hne⟩ := hb.of_append (by simp)
      exact ⟨hb, by simpa using hne⟩

theorem Inv.passed {new : List Note} (h : Inv gs notes) (hp : Passed gs gs' new) :
    Inv gs' (notes ++ new) where
  idle a ha := h.idle a (hp.idle a ha)
  pending a ha := (h.pending a (hp.pending a ha)).append (hp.left a)
  member a := by
    rw [hp.delayed, h.member]
    constructor
    · rintro (hm | hm)
      · exact hm.append (hp.left a)
      · exact member_processed (h.pending a (hp.processed a hm)) (hp.left a) hm
    · intro hm
      by_cases hnew : .processed a ∈ new
      · exact Or.inr hnew
      · exact Or.inl (hm.of_append hnew).1

theorem inv_step (h : Inv gs notes) {e : Event} (he : Settled gs e) :
    Inv (step gs e).1 (notes ++ (step gs e).2) := by
  cases e with
  | joinGroup a => exact inv_joinGroup h a
  | leaveGroup a => exact inv_leaveGroup h he
  | incoming clock m =>
    simp only [step, igmpIn_eq, List.append_nil]
    exact h
  | periodic clock n => exact h.passed (igmpPeriodic_passed clock 0 n gs he)

theorem inv_run {groups : Groups} (h : Run Settled (igmpInit groups) gs notes) : Inv gs notes := by
  induction h with
  | nil => exact inv_igmpInit groups
  | concat _ he ih => exact inv_step ih he

theorem igmp_membership {groups : Groups} (h : Run Settled (igmpInit groups) gs notes) :
    (∀ a, igmpCheckAddr a gs ≠ 0 ↔ Member notes a) ∧
      ∀ a, LeaveEnds gs a ↔ ¬ Holds .pendingJoin gs a :=
  have hinv := inv_run h
  ⟨fun a => (igmpCheckAddr_iff hinv.idle).trans (hinv.member a), fun _ => leaveEnds_iff hinv.idle⟩

end Runs

section Examples

def zeroGroups : Groups :=
  List.replicate maxIgmpGroups ⟨.nonMember, ⟨0, 0, 0, 0⟩, false, ⟨0, 0⟩⟩

def mdnsGroup : Ipaddr := ⟨224, 0, 0, 251⟩

def otherGroup : Ipaddr := ⟨239, 1, 2, 3⟩

def joined : Groups := igmpJoinGroup mdnsGroup (igmpInit zeroGroups)

def announced : Groups := (igmpPeriodic (fun _ => 0) 0 0 joined).1

def reportedAgain : Groups := (igmpPeriodic (fun _ => 10000) 0 0 announced).1

theorem igmp_membership_one : (igmpCheckAddr mdnsGroup announced ≠ 0 ↔
      Member ([.joined mdnsGroup] ++ [.processed mdnsGroup,
        .built igmpMembershipReport mdnsGroup mdnsGroup]) mdnsGroup) ∧
    LeaveEnds announced mdnsGroup := by
  have h : Run Settled (igmpInit zeroGroups) announced
      ([] ++ [.joined mdnsGroup] ++ [.processed mdnsGroup,
        .built igmpMembershipReport mdnsGroup mdnsGroup]) :=
    .concat (e := .periodic (fun _ => 0) 0)
      (.concat (e := .joinGroup mdnsGroup) .nil trivial) ⟨by decide, fun _ hs => absurd hs (by decide)⟩
  obtain ⟨hcheck, hleave⟩ := igmp_membership h
  have hp : ¬ Holds .pendingJoin announced mdnsGroup := by unfold Holds; decide
  exact ⟨hcheck mdnsGroup, (hleave mdnsGroup).mpr hp⟩

-- Once the second report of one group has been sent, every address passes as joined.
theorem every_address_joined : ∃ gs notes, Run (fun _ _ => True) (igmpInit zeroGroups) gs notes ∧
    igmpCheckAddr otherGroup gs ≠ 0 ∧ ¬ Member notes otherGroup := by
  have h : Run (fun _ _ => True) (igmpInit zeroGroups) reportedAgain _ :=
    .concat (e := .periodic (fun _ => 10000) 0) (.concat (e := .periodic (fun _ => 0) 0)
      (.concat (e := .joinGroup mdnsGroup) .nil trivial) trivial) trivial
  refine ⟨_, _, h, by decide, ?_⟩
  rintro ⟨pre, post, heq, -⟩
  have hm : .processed otherGroup ∈ pre ++ .processed otherGroup :: post := by simp
  rw [← heq] at hm
  revert hm
  decide

end Examples

end Xtcp.Igmp
