import Cosign.Lib.Pool
import Cosign.Filter.Connect
/-!
# Which server is asked

`cosign_check_cookie` is the choice from a pool: its nodes are the connections,
a turn is one question to a server, after connecting where that is due, and the
final verdicts are OK and LOGGED_OUT.
-/

namespace Cosign.Filter

open Lib Lib.Pool

/-! ## The verdicts -/

def finalRc (rc : Rc) : Bool := rc = .ok || rc = .loggedOut

/-- The connection is closed after it. -/
def brokenRc (rc : Rc) : Bool := rc = .error

/-- The turns of a list with these connections open, for these answers. -/
abbrev serverTurns (a : Visit → Option Rc) (isOpen : List Bool) : List Visit := turns brokenRc a isOpen

/-- The turns up to the first OK or LOGGED_OUT. -/
def consulted (a : Visit → Option Rc) (isOpen : List Bool) : List Visit :=
  upTo (decisive finalRc a) (serverTurns a isOpen)

/-- The turn of that answer. -/
def settling (a : Visit → Option Rc) (isOpen : List Bool) : Option Visit :=
  (serverTurns a isOpen).find? (decisive finalRc a)

/-- What the answers come to. -/
def outcome (a : Visit → Option Rc) (isOpen : List Bool) : Rc :=
  match settling a isOpen with
  | some t => if a t = some .ok then .ok else .retry
  | none => if (serverTurns a isOpen).any fun t => a t = some .retry then .retry else .error

/-- The server of that answer goes to the front. -/
def reordered {α : Type} (a : Visit → Option Rc) (isOpen : List Bool) (xs : List α) : List α :=
  match settling a isOpen with
  | some t => toFront t.idx xs
  | none => xs

/-! ## The loops of `cosign_check_cookie` -/

/-- The connection after `connect_sn`. -/
def connected (conn : Conn) : Option (Bool × UInt32) → Conn
  | none => conn
  | some (capa, proto) => { conn with isOpen := true, capaRekey := capa, proto }

/-- The question to an open connection, which is closed after an error. -/
def question (cfg : HostConfig) (scookie : Str) (conn : Conn) (s : Sinfo × Rekey) :
    FProg (Option Rc × Conn × Sinfo × Rekey) :=
  if conn.isOpen = false then pure (none, conn, s)
  else do
    let (rc, s) ← netcheckCookie cfg scookie s.2 conn s.1
    if rc = .error then
      let _ ← fCall (.close conn.server)
      return (some rc, { conn with isOpen := false }, s)
    else return (some rc, conn, s)

/-- A turn, in the second pass with connecting first. -/
def askConn (cfg : HostConfig) (scookie : Str) (again : Bool) (conn : Conn) (s : Sinfo × Rekey) :
    FProg (Option Rc × Conn × Sinfo × Rekey) :=
  if again then fCall (.connect conn.server) >>= fun r => question cfg scookie (connected conn r) s
  else question cfg scookie conn s

def settle (rounds : Nat) (cfg : HostConfig) (scookie : Str) (first : Bool) (_ : Log Rc) (rc : Rc) (s : Sinfo × Rekey)
    (conn : Conn) (front back : List Conn) : FProg Checked :=
  checkDone rounds cfg scookie first rc s.1 s.2 conn (front ++ back)

/-- Some server answered RETRY. -/
def retried (log : Log Rc) : Bool := log.any fun e => e.2 = some .retry

def unsettled (log : Log Rc) (s : Sinfo × Rekey) (cl : List Conn) : FProg Checked :=
  pure ⟨if retried log then .retry else .error, s.1, s.2, cl⟩

theorem retried_snoc (log : Log Rc) (t : Visit) (v : Option Rc) :
    retried (log ++ [(t, v)]) = (retried log || (v = some Rc.retry : Bool)) := by
  simp [retried]

/-- What a pass makes of the answer, once the connection is open or cannot be. -/
theorem question_bind {α : Type} (cfg : HostConfig) (scookie : Str) (conn : Conn) (s : Sinfo × Rekey)
    (F : Option Rc × Conn × Sinfo × Rekey → FProg α) : question cfg scookie conn s >>= F =
      if conn.isOpen = false then F (none, conn, s)
      else netcheckCookie cfg scookie s.2 conn s.1 >>= fun x =>
        if x.1 = .error then fCall (.close conn.server) >>= fun _ => F (some x.1, { conn with isOpen := false }, x.2)
        else F (some x.1, conn, x.2) := by
  unfold question
  split
  · rfl
  · rw [Prog.bind_assoc]
    refine congrArg (netcheckCookie cfg scookie s.2 conn s.1 >>= ·) (funext fun x => ?_)
    dsimp only
    split <;> rfl

section Pass
variable (rounds : Nat) (cfg : HostConfig) (scookie : Str) (first again : Bool)

/-- What a pass of `checkPass` makes of the answer. -/
def passAnswer (k' : Bool → Sinfo → Rekey → List Conn → FProg Checked) (rest before : List Conn) (retry : Bool)
    (conn : Conn) (x : Rc × Sinfo × Rekey) : FProg Checked :=
  match x.1 with
  | .ok => checkDone rounds cfg scookie first .ok x.2.1 x.2.2 conn (before ++ rest)
  | .loggedOut => checkDone rounds cfg scookie first .loggedOut x.2.1 x.2.2 conn (before ++ rest)
  | .retry => checkPass rounds cfg scookie first again k' rest (before ++ [conn]) true x.2.1 x.2.2
  | .error => fCall (.close conn.server) >>= fun _ =>
    checkPass rounds cfg scookie first again k' rest (before ++ [{ conn with isOpen := false }]) retry x.2.1 x.2.2

/-- Its turn for a connection, open or not. -/
def passTurn (k' : Bool → Sinfo → Rekey → List Conn → FProg Checked) (rest before : List Conn) (retry : Bool)
    (si : Sinfo) (rekey : Rekey) (conn : Conn) : FProg Checked :=
  if conn.isOpen = false then checkPass rounds cfg scookie first again k' rest (before ++ [conn]) retry si rekey
  else netcheckCookie cfg scookie rekey conn si >>= passAnswer rounds cfg scookie first again k' rest before retry conn

theorem checkPass_take {again : Bool} {conn : Conn} (h : conn.isOpen ≠ again)
    (k' : Bool → Sinfo → Rekey → List Conn → FProg Checked) (rest before : List Conn) (retry : Bool) (si : Sinfo)
    (rekey : Rekey) : checkPass rounds cfg scookie first again k' (conn :: rest) before retry si rekey =
      if again then fCall (.connect conn.server) >>= fun r =>
        passTurn rounds cfg scookie first again k' rest before retry si rekey (connected conn r)
      else passTurn rounds cfg scookie first again k' rest before retry si rekey conn := by
  have hanswer : ∀ {f : Rc × Sinfo × Rekey → FProg Checked} (conn : Conn),
      (∀ rc si rekey, f (rc, si, rekey) =
        passAnswer rounds cfg scookie first again k' rest before retry conn (rc, si, rekey)) →
      (if conn.isOpen = false then checkPass rounds cfg scookie first again k' rest (before ++ [conn]) retry si rekey
        else netcheckCookie cfg scookie rekey conn si >>= f) =
      passTurn rounds cfg scookie first again k' rest before retry si rekey conn := by
    intro f conn hf
    unfold passTurn
    rw [show f = _ from funext fun x => hf x.1 x.2.1 x.2.2]
  rw [checkPass, if_neg h]
  cases again with
  | false => exact hanswer conn fun rc _ _ => by cases rc <;> rfl
  | true =>
    refine congrArg (fCall (.connect conn.server) >>= ·) (funext fun r => ?_)
    cases r with
    | none => exact hanswer conn fun rc _ _ => by cases rc <;> rfl
    | some r => exact hanswer (connected conn (some r)) fun rc _ _ => by cases rc <;> rfl

/-- A pass of `checkPass` is the pool's. -/
theorem checkPass_pass {k : Log Rc → Sinfo × Rekey → List Conn → FProg Checked}
    {k' : Bool → Sinfo → Rekey → List Conn → FProg Checked}
    (hk : ∀ log si rekey cl, k' (retried log) si rekey cl = k log (si, rekey) cl) (rest before : List Conn)
    (log : Log Rc) (si : Sinfo) (rekey : Rekey) :
    checkPass rounds cfg scookie first again k' rest before (retried log) si rekey =
      pass Conn.isOpen finalRc (askConn cfg scookie) again (settle rounds cfg scookie first) k rest before log
        (si, rekey) := by
  induction rest generalizing before log si rekey with
  | nil => exact hk log si rekey before
  | cons conn rest ih =>
    by_cases hskip : conn.isOpen = again
    · rw [checkPass, Pool.pass, if_pos hskip, if_pos hskip]
      exact ih _ _ _ _
    rw [pass_take _ _ _ hskip, checkPass_take _ _ _ _ hskip]
    have hnext := fun v c si rekey => ih (before ++ [c]) (log ++ [(⟨again, before.length⟩, v)]) si rekey
    simp only [retried_snoc] at hnext
    have hturn : ∀ conn, passTurn rounds cfg scookie first again k' rest before (retried log) si rekey conn =
        question cfg scookie conn (si, rekey) >>= afterTurn Conn.isOpen finalRc (askConn cfg scookie) again
          (settle rounds cfg scookie first) k rest before log := by
      intro conn
      rw [question_bind, passTurn]
      split
      · simpa [afterTurn] using hnext none conn si rekey
      · refine congrArg (netcheckCookie cfg scookie rekey conn si >>= ·) (funext fun x => ?_)
        obtain ⟨rc, si', rekey'⟩ := x
        cases rc with
        | ok => rfl
        | loggedOut => rfl
        | retry =>
          have hn := hnext (some .retry) conn si' rekey'
          simp only [decide_true, Bool.or_true] at hn
          exact hn
        | error =>
          refine congrArg (fCall (.close conn.server) >>= ·) (funext fun _ => ?_)
          have hn := hnext (some .error) { conn with isOpen := false } si' rekey'
          simp only [reduceCtorEq, decide_false, Bool.or_false, Option.some.injEq] at hn
          exact hn
    rw [askConn]
    simp only [hturn]
    split
    · exact (Prog.bind_assoc _ _ _).symm
    · rfl

end Pass

theorem checkCookie_choose (rounds : Nat) (cfg : HostConfig) (scookie : Str) (rekey : Rekey) (si : Sinfo) (first : Bool)
    (cl : List Conn) : checkCookie rounds cfg scookie rekey si first cl =
      choose Conn.isOpen finalRc (askConn cfg scookie) (settle rounds cfg scookie first) unsettled cl (si, rekey) := by
  unfold checkCookie choose
  refine checkPass_pass rounds cfg scookie first false ?_ cl [] [] si rekey
  intro log si rekey cl
  exact checkPass_pass rounds cfg scookie first true (fun _ _ _ _ => rfl) cl [] log si rekey

/-- `cosign_check_cookie`, with the log of the servers it asked. -/
def checkCookieLogged (rounds : Nat) (cfg : HostConfig) (scookie : Str) (rekey : Rekey) (si : Sinfo) (first : Bool)
    (cl : List Conn) : FProg (Checked × Log Rc) :=
  chooseLogged Conn.isOpen finalRc (askConn cfg scookie) (settle rounds cfg scookie first) unsettled cl (si, rekey)

theorem checkCookieLogged_fst (rounds : Nat) (cfg : HostConfig) (scookie : Str) (rekey : Rekey) (si : Sinfo)
    (first : Bool) (cl : List Conn) : (checkCookieLogged rounds cfg scookie rekey si first cl >>= fun x => pure x.1) =
      checkCookie rounds cfg scookie rekey si first cl := by
  rw [checkCookie_choose]
  exact chooseLogged_fst _ _ _ _ _ _ _

/-! ## The server that is chosen -/

/-- The servers asked, the answer, and the list that is left. -/
structure Selected (a : Visit → Option Rc) (cl : List Conn) (c : Checked) (log : Log Rc) : Prop where
  asked : log = answered a (consulted a (cl.map Conn.isOpen))
  rc : c.rc = outcome a (cl.map Conn.isOpen)
  order : c.cl.map Conn.server = reordered a (cl.map Conn.isOpen) (cl.map Conn.server)
  perm : (c.cl.map Conn.server).Perm (cl.map Conn.server)

theorem askConn_consults (cfg : HostConfig) (scookie : Str) :
    Consults brokenRc Conn.server Conn.isOpen (askConn cfg scookie) := by
  have hquestion : ∀ (conn : Conn) (s : Sinfo × Rekey), Prog.Returns
      (fun x : Option Rc × Conn × Sinfo × Rekey => x.2.1.server = conn.server ∧
        (conn.isOpen = true → x.2.1.isOpen = !x.1.any brokenRc)) (question cfg scookie conn s) := by
    intro conn s
    unfold question
    by_cases hopen : conn.isOpen = false
    · rw [if_pos hopen]
      refine ⟨rfl, fun h => ?_⟩
      rw [hopen] at h
      cases h
    · rw [if_neg hopen]
      apply Prog.returns_bind
      rintro ⟨rc, s'⟩
      dsimp only
      split
      · rename_i hrc
        apply Prog.returns_bind
        intro _
        exact ⟨rfl, fun _ => by simp [brokenRc, hrc]⟩
      · rename_i hrc
        exact ⟨rfl, fun h => by simp [brokenRc, hrc, h]⟩
  intro again conn s hdue
  cases again with
  | false =>
    refine (hquestion conn s).mono fun x hx => ⟨hx.1, fun _ => hx.2 ?_⟩
    simpa using hdue
  | true =>
    apply Prog.returns_bind
    intro r
    refine (hquestion (connected conn r) s).mono fun x hx => ⟨hx.1.trans ?_, fun h => by cases h⟩
    cases r <;> rfl

theorem checkDone_returns (rounds : Nat) (cfg : HostConfig) (scookie : Str) (first : Bool) (rc : Rc) (si : Sinfo)
    (rekey : Rekey) (conn : Conn) (others : List Conn) :
    Prog.Returns (fun c : Checked => c.rc = (if rc = .loggedOut then .retry else .ok) ∧ c.cl = conn :: others)
      (checkDone rounds cfg scookie first rc si rekey conn others) := by
  unfold checkDone
  by_cases hrc : rc = .loggedOut
  · rw [if_pos hrc, if_pos hrc]
    exact ⟨rfl, rfl⟩
  rw [if_neg hrc, if_neg hrc]
  have htail : Prog.Returns (fun c : Checked => c.rc = .ok ∧ c.cl = conn :: others) (do
      if first && cfg.krbtkt then
        let r ← netretrTicket rounds cfg ((rekey.bind id).getD scookie) conn si
        return (⟨.ok, r.2, rekey, conn :: others⟩ : Checked)
      return ⟨.ok, si, rekey, conn :: others⟩) := by
    refine Prog.returns_ite ?_ ⟨rfl, rfl⟩
    exact Prog.returns_bind _ fun _ => ⟨rfl, rfl⟩
  exact Prog.returns_ite (Prog.returns_bind _ fun _ => htail) htail

theorem checkCookie_selected (rounds : Nat) (cfg : HostConfig) (scookie : Str) (rekey : Rekey) (si : Sinfo)
    (first : Bool) (cl : List Conn) (a : Visit → Option Rc) :
    Prog.Returns (fun x => Follows a x.2 → Selected a cl x.1 x.2)
      (checkCookieLogged rounds cfg scookie rekey si first cl) := by
  apply choose_returns (askConn_consults cfg scookie) a
  · intro log rc s conn front back h
    refine Prog.returns_seq (checkDone_returns rounds cfg scookie first rc s.1 s.2 conn (front ++ back)) ?_
    rintro c ⟨hrc, hcl⟩ hlog
    obtain ⟨t, ht, hfind, hl, hidx, hkey⟩ := h hlog
    have hfinal : finalRc rc = true := by
      have := List.find?_some hfind
      simpa [decisive, ht] using this
    have hfront : c.cl.map Conn.server = toFront t.idx (cl.map Conn.server) := by
      have := toFront_append (front.map Conn.server) conn.server (back.map Conn.server)
      rw [List.length_map, hidx] at this
      rw [← hkey, hcl]
      simpa using this.symm
    have hlen : t.idx < (cl.map Conn.server).length := by
      rw [← hkey, ← hidx]
      simp
    refine ⟨hl, ?_, ?_, ?_⟩
    · rw [outcome, settling, hfind, hrc]
      dsimp only
      rw [ht]
      cases rc with
      | ok => rfl
      | loggedOut => rfl
      | retry => cases hfinal
      | error => cases hfinal
    · rw [reordered, settling, hfind]
      exact hfront
    · rw [hfront]
      exact toFront_perm hlen
  · intro log s left h hlog
    obtain ⟨hnone, hl, hkey⟩ := h hlog
    refine ⟨hl, ?_, ?_, hkey ▸ List.Perm.refl _⟩
    · rw [outcome, settling, hnone]
      have hretried : retried log = (serverTurns a (cl.map Conn.isOpen)).any fun t => a t = some .retry := by
        rw [hl, upTo_of_none hnone, retried, answered, List.any_map]
        rfl
      rw [hretried]
    · rw [reordered, settling, hnone]
      exact hkey

end Cosign.Filter
