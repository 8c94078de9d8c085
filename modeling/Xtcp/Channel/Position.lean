import Xtcp.Channel.Notify

namespace Xtcp.Channel
open Session Relation

-- Where a client stands on its link once it cannot move without the server.
inductive Place where
  | quiet
  | noted
  | ready
  deriving DecidableEq, Repr

def afterAnswer : Code Reply := do
  let r ← inConn
  chkct .endToken
  outct .endToken
  return r

def Command.swallowed (c : Command) : Code Reply := do
  chkct .endToken
  outuint c.cmd.toWord
  outuint c.connId
  outct .endToken
  chkct .endToken
  c.body

inductive At : Place → Code Reply → List Tok → List Tok → Prop
  | idle (r : Reply) : At .quiet (.ret r) [] []
  | command (c : Command) : At .quiet c.afterToken [] [.cmdToken]
  | event : At .quiet xtcpEvent [] []
  | unread (r : Reply) : At .noted (.ret r) [.endToken] []
  | swallowed (c : Command) : At .noted c.swallowed [] [.cmdToken]
  | answered : At .noted afterAnswer [] [.endToken]
  | ready : At .ready afterAnswer [] []

def Rests (x : Link Served Reply) (p : Place) (v : Served) : Prop :=
  ∃ c a b, At p c a b ∧ Run x ⟨.ret v,c,a,b⟩

theorem afterToken_eq (c : Command) : c.afterToken = chkct .endToken >>= fun _ => c.swallowed := by
  simp only [Command.afterToken,sendCmdRest,Command.swallowed,Prog.bind_assoc]

theorem xtcpEvent_eq :
    xtcpEvent = chkct .endToken >>= fun _ => outct .endToken >>= fun _ => afterAnswer := rfl

theorem final_inp (v : Served) (k : Tok → Code Reply) (b : List Tok) :
    Final (⟨.ret v,.inp k,[],b⟩ : Link Served Reply) := by
  rintro y (h | h) <;> cases h

theorem at_final {p : Place} {c : Code Reply} {a b : List Tok} (h : At p c a b) (v : Served) :
    Final (⟨.ret v,c,a,b⟩ : Link Served Reply) := by
  cases h with
  | idle r => exact final_ret v r [] []
  | unread r => exact final_ret v r [Tok.endToken] []
  | command c =>
    rw [afterToken_eq,chkct_bind]
    exact final_inp v _ _
  | event =>
    rw [xtcpEvent_eq,chkct_bind]
    exact final_inp v _ _
  | swallowed c =>
    rw [Command.swallowed,chkct_bind]
    exact final_inp v _ _
  | answered => exact final_inp v _ _
  | ready => exact final_inp v _ _

def placeOf (c : Code Reply) (a b : List Tok) : Place :=
  match c, a, b with
  | .ret _, [], _ => .quiet
  | .ret _, _, _ => .noted
  | .inp _, _, [.endToken] => .noted
  | .inp k, _, [.cmdToken] => match k .endToken with
      | .inp _ => .quiet
      | _ => .noted
  | .inp k, _, _ => match k .endToken with
      | .out _ _ => .quiet
      | _ => .ready
  | _, _, _ => .quiet

theorem at_place {p : Place} {c : Code Reply} {a b : List Tok} (h : At p c a b) :
    placeOf c a b = p := by
  cases h with
  | command c =>
    rw [afterToken_eq,chkct_bind]
    rfl
  | _ => rfl

theorem at_unique {p q : Place} {c : Code Reply} {a b : List Tok} (hp : At p c a b)
    (hq : At q c a b) : p = q :=
  (at_place hp).symm.trans (at_place hq)

theorem rests_move {x y : Link Served Reply} {p : Place} {v : Served} (h : Rests x p v)
    (hm : Move x y) : Rests y p v := by
  obtain ⟨c,a,b,hat,hrun⟩ := h
  exact ⟨c,a,b,hat,run_to_final hrun (at_final hat v) (.single hm)⟩

theorem rests_result {x : Link Served Reply} {p : Place} {v w : Served} (h : Rests x p v)
    (hx : x.server = .ret w) : v = w := by
  obtain ⟨c,a,b,_,hrun⟩ := h
  have hs := (run_server_ret hx hrun).2
  simpa using hs

theorem client_run_code (v : Served) (call : Call) {p : Place} {r : Reply} {a b : List Tok}
    (h : At p (.ret r) a b) : Rests ⟨.ret v,call.code,a,b⟩ p v := by
  cases h with
  | idle r =>
    cases call with
    | command c => exact ⟨_,_,_,.command c,.single (.client (.out _ _ _ [] []))⟩
    | event => exact ⟨_,_,_,.event,.refl⟩
  | unread r =>
    cases call with
    | command c =>
      refine ⟨_,_,_,.swallowed c,?_⟩
      rw [Call.code,Command.call_eq,afterToken_eq]
      refine (ReflTransGen.single (.client (.out _ _ _ [Tok.endToken] []))).trans ?_
      exact client_chkct _ _ _ _ _
    | event =>
      refine ⟨_,_,_,.answered,?_⟩
      refine (client_chkct .endToken (.ret v) _ [] []).trans ?_
      exact .single (.client (.out _ _ _ [] []))

theorem rests_call {x : Link Served Reply} {p : Place} {v : Served} {r : Reply} (call : Call)
    (h : Rests x p v) (hx : x.client = .ret r) : Rests { x with client := call.code } p v := by
  obtain ⟨c,a,b,hat,hrun⟩ := h
  obtain ⟨hc,hframe⟩ := serverRun_frame (run_client_ret hx hrun)
  have hcr : c = .ret r := hc.trans hx
  subst hcr
  obtain ⟨c',a',b',hat',hrun'⟩ := client_run_code v call hat
  exact ⟨c',a',b',hat',(serverRun_run (hframe call.code)).trans hrun'⟩

theorem rests_end {x : Link Served Reply} {v w : Served} (h : Rests x .quiet v)
    (hx : x.server = .ret w) :
    Rests { x with toClient := x.toClient ++ [.endToken] } .noted v := by
  have hv := rests_result h hx
  subst hv
  obtain ⟨s,c₀,a₀,b₀⟩ := x
  subst hx
  obtain ⟨c,a,b,hat,hrun⟩ := h
  obtain ⟨_,ext,hext,hframe⟩ := clientRun_frame (run_server_ret rfl hrun).1
  have hb : b = b₀ ++ ext := hext
  have hend : Run (⟨.ret v,c₀,a₀ ++ [.endToken],b₀⟩ : Link Served Reply)
      ⟨.ret v,c,a ++ [.endToken],b⟩ := by
    rw [hb]
    exact clientRun_run (hframe (.ret v) [.endToken] b₀)
  cases hat with
  | idle r => exact ⟨_,_,_,.unread r,hend⟩
  | command c =>
    refine ⟨_,_,_,.swallowed c,hend.trans ?_⟩
    rw [afterToken_eq]
    exact client_chkct _ _ _ _ _
  | event =>
    refine ⟨_,_,_,.answered,hend.trans ?_⟩
    refine (client_chkct .endToken (.ret v) _ [] []).trans ?_
    exact .single (.client (.out _ _ _ [] []))

theorem server_serve (net : Net) (c : Command) (notified : Bool) :
    Run (⟨serve net notified,c.afterToken,ends notified,[]⟩ : Link Served Reply)
      ⟨.ret (.command (some c)),.ret (c.reply net),ends notified,[]⟩ := by
  have h := server_serviceCmd net c notified (fun c => .ret (Served.command c)) .ret
  rwa [Prog.bind_ret] at h

theorem rests_answer {x : Link Served Reply} {p : Place} {v w : Served} {bs : List Tok}
    (h : Rests x p v) (hx : x.server = .ret w) (hb : x.toServer = .endToken :: bs) :
    p = .noted ∧ ∀ s : Code Served,
      Run { x with server := s, toServer := bs } ⟨s,afterAnswer,[],[]⟩ := by
  obtain ⟨c,a,b,hat,hrun⟩ := h
  obtain ⟨_,ext,hext,hframe⟩ := clientRun_frame (run_server_ret hx hrun).1
  have hb' : b = .endToken :: (bs ++ ext) := by rw [← List.cons_append, ← hb]; exact hext
  cases hat with
  | answered =>
    obtain ⟨rfl,rfl⟩ : bs = [] ∧ ext = [] := by simpa using hb'
    refine ⟨rfl,?_⟩
    intro s
    simpa using clientRun_run (hframe s [] [])
  | _ => simp at hb'

theorem rests_token {x : Link Served Reply} {p : Place} {v w : Served} {bs : List Tok}
    (h : Rests x p v) (hx : x.server = .ret w) (hb : x.toServer = .cmdToken :: bs)
    (net : Net) :
    ∃ (notified : Bool) (c : Command), p = (if notified then .noted else .quiet) ∧
      Rests { x with server := serve net notified, toServer := bs } p (.command (some c)) := by
  obtain ⟨c,a,b,hat,hrun⟩ := h
  obtain ⟨_,ext,hext,hframe⟩ := clientRun_frame (run_server_ret hx hrun).1
  have hb' : b = .cmdToken :: (bs ++ ext) := by rw [← List.cons_append, ← hb]; exact hext
  cases hat with
  | command c =>
    obtain ⟨rfl,rfl⟩ : bs = [] ∧ ext = [] := by simpa using hb'
    refine ⟨false,c,rfl,_,_,_,.idle (c.reply net),?_⟩
    refine .trans (by simpa using clientRun_run (hframe (serve net false) [] [])) ?_
    exact server_serve net c false
  | swallowed c =>
    obtain ⟨rfl,rfl⟩ : bs = [] ∧ ext = [] := by simpa using hb'
    refine ⟨true,c,rfl,_,_,_,.unread (c.reply net),?_⟩
    refine .trans (by simpa using clientRun_run (hframe (serve net true) [] [])) ?_
    have hserve := server_serve net c true
    rw [afterToken_eq] at hserve
    exact run_to_final hserve (final_ret _ _ _ _) (client_chkct _ _ _ _ _)
  | _ => simp at hb'

theorem rests_send {x : Link Served Reply} {conn : Conn} {v : Served}
    (h : Run x ⟨sendConnAndComplete conn >>= fun _ => .ret v,afterAnswer,[],[]⟩) :
    Rests x .quiet v :=
  ⟨_,_,_,.idle (.event conn),h.trans (server_sendConn conn (fun _ => .ret v) .ret)⟩

theorem rests_head {x : Link Served Reply} {p : Place} {v w : Served} {t : Tok} {bs : List Tok}
    (h : Rests x p v) (hx : x.server = .ret w) (hb : x.toServer = t :: bs) :
    t = .endToken ∨ t = .cmdToken := by
  obtain ⟨c,a,b,hat,hrun⟩ := h
  obtain ⟨_,ext,hext,_⟩ := clientRun_frame (run_server_ret hx hrun).1
  have hb' : b = t :: (bs ++ ext) := by rw [← List.cons_append, ← hb]; exact hext
  cases hat <;> simp at hb' <;> simp [← hb'.1]

theorem rests_ready {x : Link Served Reply} {v : Served} (h : Rests x .ready v) {w : Served}
    (hx : x.server = .ret w) (s : Code Served) :
    Run { x with server := s } ⟨s,afterAnswer,[],[]⟩ := by
  obtain ⟨c,a,b,hat,hrun⟩ := h
  obtain ⟨_,ext,hext,hframe⟩ := clientRun_frame (run_server_ret hx hrun).1
  cases hat with
  | ready =>
    obtain ⟨hx,rfl⟩ : x.toServer = [] ∧ ext = [] := by simpa using hext.symm
    rw [hx]
    simpa using clientRun_run (hframe s [] [])

theorem rests_server {x : Link Served Reply} {p : Place} {v w : Served} (h : Rests x p v)
    (hx : x.server = .ret w) (u : Served) : Rests { x with server := .ret u } p u := by
  obtain ⟨c,a,b,hat,hrun⟩ := h
  obtain ⟨_,ext,hext,hframe⟩ := clientRun_frame (run_server_ret hx hrun).1
  refine ⟨c,a,b,hat,?_⟩
  rw [show b = x.toServer ++ ext from hext]
  simpa using clientRun_run (hframe (.ret u : Code Served) [] x.toServer)

end Xtcp.Channel
