import Xtcp.Library.Prefix
import Xtcp.Pip.Queue

namespace Xtcp.Pip
open Agenda Timers

inductive Call where
  | set (timerNumber : Int) (d : Delay) (now : Word)
  | reset (timerNumber : Int)

def Call.op : Call → Op
  | .set timerNumber d now => .set timerNumber d now
  | .reset timerNumber => .reset timerNumber

-- ran: the call of a handler, with the epoch and the time of it.
inductive Note where
  | set (timerNumber : Int) (w : Wake)
  | reset (timerNumber : Int)
  | ran (timerNumber : Int) (epoch now : Word)
  deriving DecidableEq

def Call.note (s : Timers) : Call → Note
  | .set timerNumber d now => .set timerNumber (wakeUp s.epoch now d)
  | .reset timerNumber => .reset timerNumber

def performCall (c : Call) (s : Timers) : Option (Timers × List Note) :=
  (perform c.op s).map (·, [c.note s])

def performCalls : List Call → Timers → Option (Timers × List Note)
  | [], s => some (s, [])
  | c :: cs, s => do
    let r ← performCall c s
    let rs ← performCalls cs r.1
    return (rs.1, r.2 ++ rs.2)

def timerafter (now value : Word) : Bool := (value - now).slt 0

-- calls: what the handler calls of this module.
def timedOut (now : Word) (calls : List Call) (s : Timers) : Option (Timers × List Note) :=
  if s.waitingForEpoch then some (s, [])
  else do
    let r ← numberZeroTimedOut s
    let rs ← performCalls calls r.2
    return (rs.1, .ran r.1 s.epoch now :: rs.2)

inductive Event where
  | call (c : Call)
  | select (now : Word) (calls : List Call)

def step : Event → Timers → Option (Timers × List Note)
  | .call c, s => performCall c s
  | .select now calls, s =>
    if timerafter now s.timeOutValue then
      (timedOut now calls s).map fun r =>
        (setTimeOutValue { r.1 with epoch := epochAt r.1.epoch now }, r.2)
    else none

section Conditions

def waitsFor (epoch : Word) (x : TimeOut) : Bool × Word :=
  if x.wake.epoch ≠ epoch then (true, (epoch + 1) <<< epochBit) else (false, x.wake.time)

-- The head of the queue may change if it is waited for in the same way.
def KeepsWait (s : Timers) (next : List TimeOut) : Prop :=
  ∀ x ∈ s.active.head?, ∀ y ∈ next.head?, waitsFor s.epoch y = waitsFor s.epoch x

-- Where the call returns before setTimeOutValue.
def Call.Settled (s : Timers) : Call → Prop
  | .set timerNumber d now =>
    Requeued s timerNumber (wakeUp s.epoch now d) →
      KeepsWait s (schedule Due TimeOut.timerNumber ⟨timerNumber, wakeUp s.epoch now d⟩ s.active)
  | .reset timerNumber =>
    (∃ y ∈ s.active, y.timerNumber = timerNumber) →
      KeepsWait s (remove TimeOut.timerNumber timerNumber s.active)

def MeetsAll : Timers → List Call → Prop
  | _, [] => True
  | s, c :: cs => Meets s c.op ∧ ∀ s', perform c.op s = some s' → MeetsAll s' cs

def MeetsEvent (s : Timers) : Event → Prop
  | .call c => Meets s c.op ∧ c.Settled s
  | .select _ calls => s.waitingForEpoch = false →
    s.active ≠ [] ∧ ∀ n s', numberZeroTimedOut s = some (n, s') → MeetsAll s' calls

inductive Served : Timers → List Note → Prop where
  | start : Served start []
  | step {s s' : Timers} {notes new : List Note} {e : Event} :
      Served s notes → MeetsEvent s e → step e s = some (s', new) → Served s' (notes ++ new)

end Conditions

section Armed

-- The wake-up time that was last set for a timer, until it is reset or runs.
def arm (a : Int → Option Wake) : Note → Int → Option Wake
  | .set timerNumber w => Function.update a timerNumber (some w)
  | .reset timerNumber => Function.update a timerNumber none
  | .ran timerNumber _ _ => Function.update a timerNumber none

def armed (notes : List Note) : Int → Option Wake := notes.foldl arm fun _ => none

-- The queue holds the timers that are armed.
def Holds (a : Int → Option Wake) (s : Timers) : Prop :=
  ∀ n w, a n = some w ↔ ⟨n, w⟩ ∈ s.active

variable {a : Int → Option Wake} {s s' : Timers}

theorem holds_set {timerNumber : Int} {w : Wake} (h : Holds a s)
    (hs : s'.active = schedule Due TimeOut.timerNumber ⟨timerNumber, w⟩ s.active) :
    Holds (arm a (.set timerNumber w)) s' := by
  intro n w'
  rw [hs, mem_schedule, ← h, arm]
  by_cases hn : n = timerNumber
  · subst hn
    simp [eq_comm]
  · simp [hn]

theorem holds_remove {timerNumber : Int} (h : Holds a s)
    (hs : s'.active = remove TimeOut.timerNumber timerNumber s.active) :
    Holds (Function.update a timerNumber none) s' := by
  intro n w
  rw [hs, mem_remove, ← h]
  by_cases hn : n = timerNumber
  · simp [hn]
  · simp [hn]

theorem holds_expired {x : TimeOut} (hg : s.Good) (h : Holds a s)
    (hs : s.active = x :: s'.active) : Holds (Function.update a x.timerNumber none) s' := by
  refine holds_remove h ?_
  have hsound := hg.sound
  rw [hs, ← List.nil_append (x :: s'.active)] at hsound
  have hgone := hsound.remove_split
  rw [List.nil_append, List.nil_append, ← hs] at hgone
  exact hgone.symm

end Armed

section Cached

variable {s s' : Timers}

theorem setTimeOutValue_eq (s : Timers) : setTimeOutValue s =
    { s with
      waitingForEpoch := (waitsFor s.epoch (s.timeOut 0)).1
      timeOutValue := (waitsFor s.epoch (s.timeOut 0)).2 } := by
  unfold setTimeOutValue waitsFor
  split <;> rfl

theorem cached_iff : s.Cached ↔
    (s.waitingForEpoch, s.timeOutValue) = waitsFor s.epoch (s.timeOut 0) := by
  rw [Cached, setTimeOutValue_eq]
  constructor
  · intro h
    exact (Prod.ext (congrArg Timers.waitingForEpoch h) (congrArg Timers.timeOutValue h)).symm
  · intro h
    rw [← h]

theorem head_active {x : TimeOut} (h : x ∈ s.active.head?) : x = s.timeOut 0 := by
  cases hn : s.timeOuts.toNat with
  | zero =>
    rw [active, hn] at h
    cases h
  | succ n =>
    rw [active, hn, Memory.slice_cons] at h
    exact (Option.some.inj h).symm

theorem cached_of_keepsWait {next : List TimeOut} (hc : s.active ≠ [] → s.Cached)
    (hne : s.active ≠ []) (hk : KeepsWait s next) (hnext : s'.active = next)
    (he : s'.epoch = s.epoch) (ht : s'.timeOutValue = s.timeOutValue)
    (hw : s'.waitingForEpoch = s.waitingForEpoch) (hne' : s'.active ≠ []) : s'.Cached := by
  obtain ⟨x, xs, hx⟩ := List.exists_cons_of_ne_nil hne
  obtain ⟨y, ys, hy⟩ := List.exists_cons_of_ne_nil hne'
  have hx0 : x = s.timeOut 0 := head_active (by rw [hx]; rfl)
  have hy0 : y = s'.timeOut 0 := head_active (by rw [hy]; rfl)
  have hwait := hk x (by rw [hx]; rfl) y (by rw [← hnext, hy]; rfl)
  rw [cached_iff, ht, hw, he, ← hy0, hwait, hx0]
  exact cached_iff.mp (hc hne)

theorem call_spec {a : Int → Option Wake} {c : Call} (hg : s.Good) (ha : Holds a s)
    (hm : Meets s c.op) : ∃ s', perform c.op s = some s' ∧ s'.Good ∧ s'.epoch = s.epoch ∧
      Holds (arm a (c.note s)) s' ∧
      ((s.active ≠ [] → s.Cached) → c.Settled s → s'.active ≠ [] → s'.Cached) := by
  cases c with
  | set timerNumber d now =>
    obtain ⟨s', hs', hg', he, hactive, hc⟩ := set_spec hg hm.1 hm.2
    refine ⟨s', hs', hg', he, holds_set ha hactive, ?_⟩
    intro hcached hsettled hne
    rcases hc with hc | ⟨hq, ht, hw⟩
    · exact hc
    · have hsome : s.active ≠ [] := by
        obtain ⟨y, hy, -⟩ := hq
        exact List.ne_nil_of_mem hy
      exact cached_of_keepsWait hcached hsome (hsettled hq) hactive he ht hw hne
  | reset timerNumber =>
    obtain ⟨s', hs', hg', he, hactive, hc⟩ := reset_spec hg timerNumber
    refine ⟨s', hs', hg', he, holds_remove ha hactive, ?_⟩
    intro hcached hsettled hne
    rcases hc with hc | ⟨hq, ht, hw⟩
    · exact hc
    · have hsome : s.active ≠ [] := by
        obtain ⟨y, hy, -⟩ := hq
        exact List.ne_nil_of_mem hy
      exact cached_of_keepsWait hcached hsome (hsettled hq) hactive he ht hw hne

end Cached

section Runs

variable {s s' : Timers}

theorem note_ne_ran (c : Call) (s : Timers) (n : Int) (e now : Word) :
    c.note s ≠ .ran n e now := by
  cases c <;> exact Note.noConfusion

theorem calls_spec {a : Int → Option Wake} {cs : List Call} (hg : s.Good) (ha : Holds a s)
    (hm : MeetsAll s cs) : ∃ s' notes, performCalls cs s = some (s', notes) ∧ s'.Good ∧
      s'.epoch = s.epoch ∧ Holds (notes.foldl arm a) s' ∧
      ∀ n e now, Note.ran n e now ∉ notes := by
  induction cs generalizing s a with
  | nil => exact ⟨s, [], rfl, hg, rfl, ha, fun _ _ _ => List.not_mem_nil⟩
  | cons c cs ih =>
    obtain ⟨hc, hrest⟩ := hm
    obtain ⟨s1, hs1, hg1, he1, ha1, -⟩ := call_spec hg ha hc
    obtain ⟨s2, notes, hs2, hg2, he2, ha2, hran⟩ := ih hg1 ha1 (hrest s1 hs1)
    refine ⟨s2, c.note s :: notes, ?_, hg2, he2.trans he1, ha2, ?_⟩
    · simp [performCalls, performCall, hs1, hs2]
    · intro n e now hmem
      rcases List.mem_cons.mp hmem with h | h
      · exact note_ne_ran c s n e now h.symm
      · exact hran n e now h

-- A handler runs at the wake-up time that is set for its timer, or after it.
def OnTime (notes : List Note) (n : Int) (e now : Word) : Prop :=
  ∃ w, armed notes n = some w ∧ w.epoch = e ∧ timerafter now w.time = true

def Timely (notes : List Note) : Prop :=
  ∀ pre x post, notes = pre ++ x :: post → ∀ n e now, x = .ran n e now → OnTime pre n e now

theorem timely_append {notes new : List Note} (h : Timely notes)
    (hnew : ∀ pre x post, new = pre ++ x :: post →
      ∀ n e now, x = .ran n e now → OnTime (notes ++ pre) n e now) :
    Timely (notes ++ new) :=
  Prefix.forall_split_append h hnew

structure Kept (s : Timers) (notes : List Note) : Prop where
  good : s.Good
  holds : Holds (armed notes) s
  timely : Timely notes

structure Inv (s : Timers) (notes : List Note) : Prop extends Kept s notes where
  cached : s.active ≠ [] → s.Cached

theorem Inv.call {notes new : List Note} {c : Call} (h : Inv s notes) (hm : Meets s c.op)
    (hsettled : c.Settled s) (hp : performCall c s = some (s', new)) : Inv s' (notes ++ new) := by
  obtain ⟨s1, hs1, hg, -, ha, hc⟩ := call_spec h.good h.holds hm
  rw [performCall, hs1, Option.map_some] at hp
  obtain ⟨rfl, rfl⟩ := Prod.mk.inj (Option.some.inj hp)
  refine ⟨⟨hg, ?_, timely_append h.timely ?_⟩, hc h.cached hsettled⟩
  · rw [armed, List.foldl_append]
    exact ha
  · rintro pre x post heq n e now rfl
    have hmem : Note.ran n e now ∈ [c.note s] := by
      rw [heq]
      simp
    exact absurd (List.mem_singleton.mp hmem).symm (note_ne_ran c s n e now)

theorem Kept.wait {notes : List Note} (h : Kept s notes) (epoch : Word) :
    Inv (setTimeOutValue { s with epoch := epoch }) notes := by
  have hg : ({ s with epoch := epoch } : Timers).Good := ⟨h.good.nonneg, h.good.room, h.good.sound⟩
  refine ⟨⟨hg.setTimeOutValue, ?_, h.timely⟩, fun _ => cached_setTimeOutValue _⟩
  intro n w
  rw [active_setTimeOutValue]
  exact h.holds n w

theorem Inv.select {notes new : List Note} {now : Word} {calls : List Call} (h : Inv s notes)
    (hm : MeetsEvent s (.select now calls)) (hs : step (.select now calls) s = some (s', new)) :
    Inv s' (notes ++ new) := by
  unfold step at hs
  simp only at hs
  split at hs
  · next hafter =>
    obtain ⟨r, hr, heq⟩ := Option.map_eq_some_iff.mp hs
    obtain ⟨rfl, rfl⟩ := Prod.mk.inj heq
    refine Kept.wait ?_ _
    unfold timedOut at hr
    split at hr
    · obtain rfl := Option.some.inj hr
      rw [List.append_nil]
      exact h.toKept
    · next hw =>
      obtain ⟨hne, hcalls⟩ := hm (by simpa using hw)
      obtain ⟨x, s1, hs1, hg1, he1, hactive, hhead⟩ := expire_spec h.good hne
      obtain ⟨s2, notes2, hs2, hg2, he2, ha2, hran⟩ :=
        calls_spec hg1 (holds_expired h.good h.holds hactive) (hcalls _ _ hs1)
      have hcache := cached_iff.mp (h.cached hne)
      rw [← hhead] at hcache
      have hdue : x.wake.epoch = s.epoch ∧ s.timeOutValue = x.wake.time := by
        unfold waitsFor at hcache
        split at hcache
        · exact absurd (congrArg Prod.fst hcache) (by simpa using hw)
        · next he => exact ⟨not_not.mp he, congrArg Prod.snd hcache⟩
      have harmed : armed notes x.timerNumber = some x.wake :=
        (h.holds _ _).mpr (by rw [hactive]; exact List.mem_cons_self ..)
      have hresult : r = (s2, .ran x.timerNumber s.epoch now :: notes2) := by
        simp only [hs1, hs2, Option.bind_eq_bind, Option.bind_some, Option.pure_def] at hr
        exact (Option.some.inj hr).symm
      subst hresult
      refine ⟨hg2, ?_, timely_append h.timely ?_⟩
      · rw [armed, List.foldl_append]
        exact ha2
      · rintro pre x' post heq n e t rfl
        cases pre with
        | nil =>
          obtain ⟨hnote, -⟩ := List.cons.inj heq
          obtain ⟨rfl, rfl, rfl⟩ := Note.ran.inj hnote
          rw [List.append_nil]
          exact ⟨x.wake, harmed, hdue.1, hdue.2 ▸ hafter⟩
        | cons b bs =>
          have hmem : Note.ran n e t ∈ notes2 := by
            rw [(List.cons.inj heq).2]
            simp
          exact absurd hmem (hran n e t)
  · exact absurd hs (by simp)

theorem served_inv {notes : List Note} (h : Served s notes) : Inv s notes := by
  induction h with
  | start =>
    refine ⟨⟨good_start, ?_, ?_⟩, fun hne => absurd rfl hne⟩
    · intro n w
      simp [armed, active, start, Segment.slice]
    · intro pre x post heq
      exact absurd heq (by simp)
  | @step s s' notes new e _ hm hs ih =>
    cases e with
    | call c => exact ih.call hm.1 hm.2 hs
    | select now calls => exact ih.select hm hs

theorem no_early_timeout {notes : List Note} (h : Served s notes) :
    (s.active ≠ [] → setTimeOutValue s = s) ∧
      ∀ pre n e now post, notes = pre ++ .ran n e now :: post →
        ∃ w, armed pre n = some w ∧ w.epoch = e ∧ timerafter now w.time = true := by
  have hi := served_inv h
  exact ⟨hi.cached, fun pre n e now post heq => hi.timely pre _ post heq n e now rfl⟩

end Runs

section Examples

def stepAll (events : List Event) : Option (Timers × List Note) :=
  events.foldlM (fun r e => (step e r.1).map fun r' => (r'.1, r.2 ++ r'.2)) (start, [])

def resetHead : List Event :=
  [.call (.set 0 (seconds 2) 0), .call (.set 1 (seconds 5) 0), .call (.reset 0),
    .select 200000001 []]

def oneTimer : Timers := (pipSetTimeOut 0 (seconds 2) 0 start).get (by decide +kernel)

def oneRan : Timers × List Note := (step (.select 200000001 []) oneTimer).get (by decide +kernel)

theorem no_early_timeout_one : (oneRan.1.active ≠ [] → setTimeOutValue oneRan.1 = oneRan.1) ∧
    ∀ pre n e now post,
      [Note.set 0 (wakeUp 0 0 (seconds 2))] ++ oneRan.2 = pre ++ .ran n e now :: post →
        ∃ w, armed pre n = some w ∧ w.epoch = e ∧ timerafter now w.time = true := by
  have hempty : start.active = [] := rfl
  have hm : MeetsEvent start (.call (.set 0 (seconds 2) 0)) := by
    refine ⟨⟨by rw [hempty]; decide, ?_⟩, ?_⟩
    · intro pre y post heq
      rw [hempty] at heq
      exact absurd heq (by simp)
    · rintro ⟨y, hy, -⟩
      rw [hempty] at hy
      exact absurd hy List.not_mem_nil
  have hset : step (.call (.set 0 (seconds 2) 0)) start =
      some (oneTimer, [.set 0 (wakeUp 0 0 (seconds 2))]) := by
    have hs : pipSetTimeOut 0 (seconds 2) 0 start = some oneTimer := (Option.some_get _).symm
    simp only [step, performCall, perform, Call.op, hs]
    rfl
  have hselect : step (.select 200000001 []) oneTimer = some oneRan := (Option.some_get _).symm
  have hne : oneTimer.active ≠ [] := by decide +kernel
  have hmeets : MeetsEvent oneTimer (.select 200000001 []) :=
    fun _ => ⟨hne, fun _ _ _ => trivial⟩
  have hfirst : Served oneTimer [.set 0 (wakeUp 0 0 (seconds 2))] := .step .start hm hset
  exact no_early_timeout (.step hfirst hmeets hselect)

-- The head is reset: its time is still waited for, and the next timer runs then.
theorem timer_runs_early : ∃ w, (stepAll resetHead).map (·.2) =
      some [.set 0 (wakeUp 0 0 (seconds 2)), .set 1 w, .reset 0, .ran 1 0 200000001] ∧
    timerafter 200000001 w.time = false := by
  refine ⟨wakeUp 0 0 (seconds 5), ?_, ?_⟩ <;> decide +kernel

end Examples

end Xtcp.Pip
