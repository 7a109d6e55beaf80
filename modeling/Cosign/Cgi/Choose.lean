import Cosign.Filter.Choose
/-!
# Which server the CGI asks

`cosign_choose_conn`, over the command `fp` that is to be run. It goes through
its list as the filter does and takes the same answers for final, but leaves the
list in its order. What it writes to the error log is left out.
-/

namespace Cosign.Cgi

open Lib Lib.Pool Cosign.Filter

/-- `struct connlist` -/
structure Connlist where
  server : Nat
  isOpen : Bool
  deriving DecidableEq

section Choose
variable {Op : Type} {Ans : Op → Type} (connectSn : Nat → Prog Op Ans Bool) (close : Nat → Prog Op Ans Unit)
  (fp : Nat → Prog Op Ans Rc)

/-- Whether there is a connection: in the second loop after `connect_sn`. -/
def reach (again : Bool) (cur : Connlist) : Prog Op Ans Bool := if again then connectSn cur.server else pure true

/-- One of the two loops over the list. -/
def choosePass (again : Bool) (k : List Connlist → Prog Op Ans (Bool × List Connlist)) :
    List Connlist → (before : List Connlist) → Prog Op Ans (Bool × List Connlist)
  | [], before => k before
  | cur :: rest, before =>
    if cur.isOpen = again then choosePass again k rest (before ++ [cur])
    else do
      let ok ← reach connectSn again cur
      if !ok then choosePass again k rest (before ++ [cur])
      else
        let rc ← fp cur.server
        match rc with
        | .ok => return (true, before ++ { cur with isOpen := true } :: rest)
        | .loggedOut => return (false, before ++ { cur with isOpen := true } :: rest)
        | .retry => choosePass again k rest (before ++ [{ cur with isOpen := true }])
        | .error => do
          close cur.server
          choosePass again k rest (before ++ [{ cur with isOpen := false }])

/-- Whether it succeeds, and the list it leaves. -/
def cosignChooseConn (head : List Connlist) : Prog Op Ans (Bool × List Connlist) :=
  choosePass connectSn close fp false (fun cl => choosePass connectSn close fp true (fun cl => pure (false, cl)) cl []) head []

/-! ## The loops are the pool's -/

def askServer (again : Bool) (cur : Connlist) (_ : Unit) : Prog Op Ans (Option Rc × Connlist × Unit) := do
  let ok ← reach connectSn again cur
  if !ok then return (none, cur, ())
  else
    let rc ← fp cur.server
    if rc = .error then
      close cur.server
      return (some rc, { cur with isOpen := false }, ())
    else return (some rc, { cur with isOpen := true }, ())

def chosen (_ : Log Rc) (rc : Rc) (_ : Unit) (cur : Connlist) (front back : List Connlist) :
    Prog Op Ans (Bool × List Connlist) := pure (rc = .ok, front ++ cur :: back)

def unchosen (_ : Log Rc) (_ : Unit) (cl : List Connlist) : Prog Op Ans (Bool × List Connlist) := pure (false, cl)

theorem choosePass_pass (again : Bool) {k : Log Rc → Unit → List Connlist → Prog Op Ans (Bool × List Connlist)}
    {k' : List Connlist → Prog Op Ans (Bool × List Connlist)} (hk : ∀ log cl, k' cl = k log () cl)
    (rest before : List Connlist) (log : Log Rc) : choosePass connectSn close fp again k' rest before =
      pass Connlist.isOpen finalRc (askServer connectSn close fp) again chosen k rest before log () := by
  induction rest generalizing before log with
  | nil => exact hk log before
  | cons cur rest ih =>
    by_cases hskip : cur.isOpen = again
    · rw [choosePass, Pool.pass, if_pos hskip, if_pos hskip]
      exact ih _ _
    rw [pass_take _ _ _ hskip, choosePass, if_neg hskip, askServer, Prog.bind_assoc]
    refine congrArg (reach connectSn again cur >>= ·) (funext fun ok => ?_)
    cases ok with
    | false => exact ih _ _
    | true =>
      change (fp cur.server >>= fun rc => _) = (fp cur.server >>= fun rc => _) >>= _
      rw [Prog.bind_assoc]
      refine congrArg (fp cur.server >>= ·) (funext fun rc => ?_)
      cases rc with
      | ok => rfl
      | loggedOut => rfl
      | retry => exact ih _ _
      | error =>
        change (close cur.server >>= fun _ => _) = (close cur.server >>= fun _ => _) >>= _
        rw [Prog.bind_assoc]
        refine congrArg (close cur.server >>= ·) (funext fun _ => ?_)
        exact ih _ _

/-- `cosign_choose_conn`, with the log of the servers it asked. -/
def chooseConnLogged (head : List Connlist) : Prog Op Ans ((Bool × List Connlist) × Log Rc) :=
  chooseLogged Connlist.isOpen finalRc (askServer connectSn close fp) chosen unchosen head ()

theorem chooseConnLogged_fst (head : List Connlist) :
    (chooseConnLogged connectSn close fp head >>= fun x => pure x.1) = cosignChooseConn connectSn close fp head := by
  unfold chooseConnLogged
  rw [chooseLogged_fst]
  symm
  unfold cosignChooseConn choose
  refine choosePass_pass connectSn close fp false ?_ head [] []
  intro log cl
  exact choosePass_pass connectSn close fp true (fun _ _ => rfl) cl [] log

/-! ## The server that is chosen -/

theorem askServer_consults : Consults brokenRc Connlist.server Connlist.isOpen (askServer connectSn close fp) := by
  intro again cur _ hdue
  unfold askServer
  have hreach : ∀ {α : Type} {Φ : α → Prop} {f : Bool → Prog Op Ans α}, (∀ ok, (again = false → ok = true) →
      Prog.Returns Φ (f ok)) → Prog.Returns Φ (reach connectSn again cur >>= f) := by
    intro α Φ f hf
    cases again with
    | false => exact hf true fun _ => rfl
    | true => exact Prog.returns_bind _ fun ok => hf ok fun h => by cases h
  apply hreach
  intro ok hok
  cases ok with
  | false => exact ⟨rfl, fun h => by cases hok h⟩
  | true =>
    apply Prog.returns_bind
    intro rc
    split
    · rename_i hrc
      apply Prog.returns_bind
      intro _
      exact ⟨rfl, fun _ => by simp [brokenRc, hrc]⟩
    · rename_i hrc
      exact ⟨rfl, fun _ => by simp [brokenRc, hrc]⟩

/-- What the CGI's choice comes to for the answers `a`. -/
structure Chose (a : Visit → Option Rc) (head : List Connlist) (ok : Bool) (cl : List Connlist) (log : Log Rc) : Prop where
  asked : log = answered a (consulted a (head.map Connlist.isOpen))
  ok : ok = true ↔ outcome a (head.map Connlist.isOpen) = .ok
  order : cl.map Connlist.server = head.map Connlist.server

theorem chooseConn_chose (head : List Connlist) (a : Visit → Option Rc) :
    Prog.Returns (fun x => Follows a x.2 → Chose a head x.1.1 x.1.2 x.2) (chooseConnLogged connectSn close fp head) := by
  apply choose_returns (askServer_consults connectSn close fp) a
  · intro log rc _ cur front back h hlog
    obtain ⟨t, ht, hfind, hl, hidx, hkey⟩ := h hlog
    refine ⟨hl, ?_, hkey⟩
    rw [outcome, settling, hfind]
    dsimp only
    rw [ht]
    cases rc <;> simp
  · intro log _ left h hlog
    obtain ⟨hnone, hl, hkey⟩ := h hlog
    refine ⟨hl, ?_, hkey⟩
    rw [outcome, settling, hnone]
    dsimp only
    split <;> simp

end Choose

/-- The filter and the CGI ask the servers in the same order, and take the same
answers for a success. -/
theorem server_selection {Op : Type} {Ans : Op → Type} (connectSn : Nat → Prog Op Ans Bool)
    (close : Nat → Prog Op Ans Unit) (fp : Nat → Prog Op Ans Rc) (head : List Connlist) (rounds : Nat)
    (cfg : HostConfig) (scookie : Str) (rekey : Rekey) (si : Sinfo) (first : Bool) (cl : List Filter.Conn) :
    ((checkCookieLogged rounds cfg scookie rekey si first cl >>= fun x => pure x.1) =
        checkCookie rounds cfg scookie rekey si first cl ∧
      Prog.Returns (fun x => ∃ a, Follows a x.2) (checkCookieLogged rounds cfg scookie rekey si first cl) ∧
      ∀ a, Prog.Returns (fun x => Follows a x.2 → Selected a cl x.1 x.2)
        (checkCookieLogged rounds cfg scookie rekey si first cl)) ∧
    ((chooseConnLogged connectSn close fp head >>= fun x => pure x.1) = cosignChooseConn connectSn close fp head ∧
      Prog.Returns (fun x => ∃ a, Follows a x.2) (chooseConnLogged connectSn close fp head) ∧
      ∀ a, Prog.Returns (fun x => Follows a x.2 → Chose a head x.1.1 x.1.2 x.2)
        (chooseConnLogged connectSn close fp head)) ∧
    ∀ a c log ok left log', Selected a cl c log → Chose a head ok left log' →
      head.map Connlist.isOpen = cl.map Filter.Conn.isOpen → (ok = true ↔ c.rc = .ok) := by
  refine ⟨⟨checkCookieLogged_fst rounds cfg scookie rekey si first cl, choose_follows _ _,
      checkCookie_selected rounds cfg scookie rekey si first cl⟩,
    ⟨chooseConnLogged_fst connectSn close fp head, choose_follows _ _,
      chooseConn_chose connectSn close fp head⟩, ?_⟩
  intro a c log ok left log' hsel hchose hopen
  rw [hchose.ok, hopen, hsel.rc]

end Cosign.Cgi
