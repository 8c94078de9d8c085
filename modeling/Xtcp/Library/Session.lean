import Mathlib.Logic.Relation
import Mathlib.Data.List.Basic

namespace Xtcp.Session
open Relation

inductive Prog (T R : Type) where
  | ret (r : R)
  | out (t : T) (p : Prog T R)
  | inp (k : T → Prog T R)
  | trap

namespace Prog

variable {T R S U : Type}

def bind : Prog T R → (R → Prog T S) → Prog T S
  | .ret r, f => f r
  | .out t p, f => .out t (bind p f)
  | .inp k, f => .inp fun t => bind (k t) f
  | .trap, _ => .trap

instance : Monad (Prog T) where
  pure := .ret
  bind := bind

@[simp] theorem pure_eq (r : R) : (pure r : Prog T R) = .ret r := rfl
@[simp] theorem ret_bind (r : R) (f : R → Prog T S) : (.ret r : Prog T R) >>= f = f r := rfl
@[simp] theorem out_bind (t : T) (p : Prog T R) (f : R → Prog T S) :
    .out t p >>= f = .out t (p >>= f) := rfl
@[simp] theorem inp_bind (k : T → Prog T R) (f : R → Prog T S) :
    .inp k >>= f = .inp fun t => k t >>= f := rfl
@[simp] theorem trap_bind (f : R → Prog T S) : (.trap : Prog T R) >>= f = .trap := rfl

@[simp] theorem bind_assoc (p : Prog T R) (f : R → Prog T S) (g : S → Prog T U) :
    p >>= f >>= g = p >>= fun r => f r >>= g := by
  induction p with
  | ret r => rfl
  | out t p ih => simp [ih]
  | inp k ih => simp [ih]
  | trap => rfl

@[simp] theorem bind_ret (p : Prog T R) : p >>= .ret = p := by
  induction p with
  | ret r => rfl
  | out t p ih => simp [ih]
  | inp k ih => simp [ih]
  | trap => rfl

def outAll : List T → Prog T Unit
  | [] => .ret ()
  | t :: ts => .out t (outAll ts)

def inAll {α : Type} (accept : T → Option α) : Nat → Prog T (List α)
  | 0 => .ret []
  | n + 1 => .inp fun t =>
      match accept t with
      | none => .trap
      | some a => inAll accept n >>= fun as => .ret (a :: as)

@[simp] theorem outAll_nil_bind (f : Unit → Prog T R) : outAll [] >>= f = f () := rfl

@[simp] theorem outAll_cons_bind (t : T) (ts : List T) (f : Unit → Prog T R) :
    outAll (t :: ts) >>= f = .out t (outAll ts >>= f) := rfl

@[simp] theorem inAll_zero_bind {α : Type} (accept : T → Option α) (f : List α → Prog T R) :
    inAll accept 0 >>= f = f [] := rfl

theorem inAll_succ_bind {α : Type} (accept : T → Option α) (n : Nat) (f : List α → Prog T R) :
    inAll accept (n + 1) >>= f = .inp fun t =>
      match accept t with
      | none => .trap
      | some a => inAll accept n >>= fun as => f (a :: as) := by
  simp only [inAll, inp_bind]
  congr 1
  funext t
  cases accept t <;> simp

end Prog

structure Pair (T R S : Type) where
  server : Prog T R
  client : Prog T S
  toClient : List T
  toServer : List T

variable {T R S : Type}

inductive ServerMove : Pair T R S → Pair T R S → Prop
  | out (t : T) (p : Prog T R) (c : Prog T S) (a b : List T) :
      ServerMove ⟨.out t p, c, a, b⟩ ⟨p, c, a ++ [t], b⟩
  | inp (k : T → Prog T R) (c : Prog T S) (t : T) (a b : List T) :
      ServerMove ⟨.inp k, c, a, t :: b⟩ ⟨k t, c, a, b⟩

inductive ClientMove : Pair T R S → Pair T R S → Prop
  | out (t : T) (s : Prog T R) (p : Prog T S) (a b : List T) :
      ClientMove ⟨s, .out t p, a, b⟩ ⟨s, p, a, b ++ [t]⟩
  | inp (k : T → Prog T S) (s : Prog T R) (t : T) (a b : List T) :
      ClientMove ⟨s, .inp k, t :: a, b⟩ ⟨s, k t, a, b⟩

inductive Move (x y : Pair T R S) : Prop
  | server (h : ServerMove x y)
  | client (h : ClientMove x y)

abbrev Run : Pair T R S → Pair T R S → Prop := ReflTransGen Move

abbrev ClientRun : Pair T R S → Pair T R S → Prop := ReflTransGen ClientMove

theorem clientMove_server {x y : Pair T R S} (h : ClientMove x y) : y.server = x.server := by
  cases h <;> rfl

theorem serverMove_det {x y z : Pair T R S} (h : ServerMove x y) (h' : ServerMove x z) :
    y = z := by
  cases h <;> cases h' <;> rfl

theorem clientMove_det {x y z : Pair T R S} (h : ClientMove x y) (h' : ClientMove x z) :
    y = z := by
  cases h <;> cases h' <;> rfl

theorem moves_commute {x y z : Pair T R S} (h : ServerMove x y) (h' : ClientMove x z) :
    ∃ w, ClientMove y w ∧ ServerMove z w := by
  cases h with
  | out t p c a b =>
    cases h' with
    | out u _ q _ _ => exact ⟨_,.out u p q (a ++ [t]) b,.out t p q a (b ++ [u])⟩
    | inp k _ u a' _ => exact ⟨_,.inp k p u (a' ++ [t]) b,.out t p (k u) a' b⟩
  | inp k c t a b =>
    cases h' with
    | out u _ q _ _ => exact ⟨_,.out u (k t) q a b,.inp k q t a (b ++ [u])⟩
    | inp k' _ u a' _ => exact ⟨_,.inp k' (k t) u a' b,.inp k (k' u) t a' b⟩

theorem diamond {x y z : Pair T R S} (h : Move x y) (h' : Move x z) :
    y = z ∨ ∃ w, Move y w ∧ Move z w := by
  rcases h with h | h <;> rcases h' with h' | h'
  · exact Or.inl (serverMove_det h h')
  · obtain ⟨w,hy,hz⟩ := moves_commute h h'
    exact Or.inr ⟨w,.client hy,.server hz⟩
  · obtain ⟨w,hz,hy⟩ := moves_commute h' h
    exact Or.inr ⟨w,.server hy,.client hz⟩
  · exact Or.inl (clientMove_det h h')

theorem confluent {x y z : Pair T R S} (h : Run x y) (h' : Run x z) : Join Run y z := by
  refine church_rosser ?_ h h'
  intro a b c hb hc
  rcases diamond hb hc with rfl | ⟨w,hbw,hcw⟩
  · exact ⟨b,.refl,.refl⟩
  · exact ⟨w,.single hbw,.single hcw⟩

def Final (x : Pair T R S) : Prop := ∀ y, ¬ Move x y

theorem final_run {x y : Pair T R S} (hf : Final x) (h : Run x y) : y = x := by
  rcases h.cases_head with rfl | ⟨z,hz,_⟩
  · rfl
  · exact absurd hz (hf z)

theorem run_to_final {x y z : Pair T R S} (hz : Run x z) (hf : Final z) (hy : Run x y) :
    Run y z := by
  obtain ⟨w,hyw,hzw⟩ := confluent hy hz
  rwa [final_run hf hzw] at hyw

theorem final_unique {x y z : Pair T R S} (hz : Run x z) (hf : Final z) (hy : Run x y)
    (hyf : Final y) : y = z :=
  (final_run hyf (run_to_final hz hf hy)).symm

theorem final_ret (r : R) (s : S) (a b : List T) : Final (⟨.ret r,.ret s,a,b⟩ : Pair T R S) := by
  rintro y (h | h) <;> cases h

theorem clientRun_run {x y : Pair T R S} (h : ClientRun x y) : Run x y :=
  h.lift id fun _ _ hm => Move.client hm

theorem run_server_ret {x y : Pair T R S} {r : R} (hx : x.server = .ret r) (h : Run x y) :
    ClientRun x y ∧ y.server = .ret r := by
  induction h with
  | refl => exact ⟨.refl,hx⟩
  | tail _ hm ih =>
    obtain ⟨hrun,hs⟩ := ih
    rcases hm with hm | hm
    · cases hm <;> simp at hs
    · refine ⟨hrun.tail hm,?_⟩
      cases hm <;> exact hs

abbrev ServerRun : Pair T R S → Pair T R S → Prop := ReflTransGen ServerMove

theorem clientRun_frame {x y : Pair T R S} (h : ClientRun x y) :
    y.server = x.server ∧ ∃ ext, y.toServer = x.toServer ++ ext ∧
      ∀ {U : Type} (p : Prog T U) (as bs : List T),
        ClientRun ⟨p,x.client,x.toClient ++ as,bs⟩ ⟨p,y.client,y.toClient ++ as,bs ++ ext⟩ := by
  induction h with
  | refl =>
    refine ⟨rfl,[],by simp,?_⟩
    intro U p as bs
    rw [List.append_nil]
  | tail _ hm ih =>
    obtain ⟨hs,ext,hext,hrun⟩ := ih
    cases hm with
    | out t s p a b =>
      refine ⟨hs,ext ++ [t],?_,?_⟩
      · rw [show b = x.toServer ++ ext from hext,List.append_assoc]
      · intro U q as bs
        rw [← List.append_assoc]
        exact (hrun q as bs).tail (.out t q p (a ++ as) (bs ++ ext))
    | inp k s t a b =>
      refine ⟨hs,ext,hext,?_⟩
      intro U q as bs
      exact (hrun q as bs).tail (.inp k q t (a ++ as) (bs ++ ext))

theorem serverRun_frame {x y : Pair T R S} (h : ServerRun x y) :
    y.client = x.client ∧ ∀ {U : Type} (q : Prog T U),
      ServerRun ⟨x.server,q,x.toClient,x.toServer⟩ ⟨y.server,q,y.toClient,y.toServer⟩ := by
  induction h with
  | refl => exact ⟨rfl,fun _ => .refl⟩
  | tail _ hm ih =>
    obtain ⟨hc,hrun⟩ := ih
    cases hm with
    | out t p c a b => exact ⟨hc,fun q => (hrun q).tail (.out t p q a b)⟩
    | inp k c t a b => exact ⟨hc,fun q => (hrun q).tail (.inp k q t a b)⟩

theorem serverRun_run {x y : Pair T R S} (h : ServerRun x y) : Run x y :=
  h.lift id fun _ _ hm => Move.server hm

theorem run_client_ret {x y : Pair T R S} {s : S} (hx : x.client = .ret s) (h : Run x y) :
    ServerRun x y := by
  have aux : ServerRun x y ∧ y.client = .ret s := by
    induction h with
    | refl => exact ⟨.refl,hx⟩
    | tail _ hm ih =>
      obtain ⟨hrun,hc⟩ := ih
      rcases hm with hm | hm
      · refine ⟨hrun.tail hm,?_⟩
        cases hm <;> exact hc
      · cases hm <;> simp at hc
  exact aux.1

theorem toClient_sync (t : T) (p : Prog T R) (k : T → Prog T S) (b : List T) :
    Run (⟨.out t p,.inp k,[],b⟩ : Pair T R S) ⟨p,k t,[],b⟩ :=
  (ReflTransGen.single (Move.server (.out t p _ [] b))).tail (Move.client (.inp k p t [] b))

theorem toServer_sync (t : T) (p : Prog T S) (k : T → Prog T R) (a : List T) :
    Run (⟨.inp k,.out t p,a,[]⟩ : Pair T R S) ⟨k t,p,a,[]⟩ :=
  (ReflTransGen.single (Move.client (.out t _ p a []))).tail (Move.server (.inp k p t a []))

theorem toClient_all {α : Type} (accept : T → Option α) (wrap : α → T)
    (hw : ∀ a, accept (wrap a) = some a) (as : List α) (p : Prog T R)
    (k : List α → Prog T S) (b : List T) :
    Run (⟨Prog.outAll (as.map wrap) >>= fun _ => p,Prog.inAll accept as.length >>= k,[],b⟩ :
      Pair T R S) ⟨p,k as,[],b⟩ := by
  induction as generalizing k with
  | nil => exact .refl
  | cons a as ih =>
    rw [List.map_cons,Prog.outAll_cons_bind,List.length_cons,Prog.inAll_succ_bind]
    refine (toClient_sync (wrap a) _ _ b).trans ?_
    simpa only [hw] using ih fun as => k (a :: as)

end Xtcp.Session
