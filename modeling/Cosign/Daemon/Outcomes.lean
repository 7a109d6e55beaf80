import Cosign.Daemon.Steps
/-!
# How the other commands end

`CHECK`, `REGISTER` and `RETR` all look at a session in the same way before
they do anything: `session_cases` is that part once. Then one lemma for each
handler says which answers it can give and what the store is then.
-/

namespace Cosign

open Lib

/-- Nothing is answered 2xx and nothing is pushed. -/
def Done.Denied (d : Done) : Prop := ¬ d.ok ∧ d.push = []

theorem ok_line (ret : Ret) (code : Nat) (text : Str) (push : List Str) (rep : Bool) :
    Done.ok ⟨ret, [.line code text], push, rep⟩ ↔ 200 ≤ code ∧ code < 300 := by
  simp [Done.ok, Done.answers, Reply.code?]

theorem denied_reply {ret : Int} {code : Nat} {text : Str} {s t : Store} {d : Done} (hc : 300 ≤ code)
    (h : Prog.run exec (reply ret code text) s = some (d, t)) : t = s ∧ d.Denied := by
  cases h
  exact ⟨rfl, by rw [ok_line]; omega, rfl⟩

theorem denied_fatal {s t : Store} {d : Done} (h : Prog.run exec fatal s = some (d, t)) : t = s ∧ d.Denied := by
  cases h
  exact ⟨rfl, by simp [Done.ok, Done.answers], rfl⟩

/-! ## The session behind a cookie -/

/-- The store with the time of a file moved to `now`. -/
def Store.touched (s : Store) (path : Str) (now : Nat) : Store := (exec (.utime path now) s).2

/-- The store with a login cookie marked as logged out. -/
def Store.marked (s : Store) (path : Str) (f : File) (now : Nat) : Store :=
  s.put path (some { f with isgid := true, mtime := now })

/-- What `read_cookie` and the checks after it find of a session in use. -/
structure Live (cfg : Config) (env : Env) (s : Store) (path : Str) (ci : Cinfo) : Prop where
  read : s.opened env path = some (0, ci)
  state : ci.state ≠ 0
  fresh : (env.now : Int) - ci.itime < cfg.idleOutTime

/-- The session has been idle beyond the grey window. -/
structure Idle (cfg : Config) (env : Env) (s : Store) (path : Str) (f : File) : Prop where
  file : s.get path = some f
  read : ∃ ci, s.opened env path = some (0, ci) ∧ ci.state ≠ 0
  idle : (env.now : Int) - f.mtime ≥ cfg.idleOutTime + cfg.greyTime

/-- The store after a refusal: as before, or with the idle session marked. -/
def Refusal (cfg : Config) (env : Env) (s : Store) (path : Str) (t : Store) : Prop :=
  t = s ∨ ∃ f, Idle cfg env s path f ∧ t = s.marked path f env.now

/-- A record that was opened is a file. -/
theorem opened_file {s : Store} {env : Env} {path : Str} {ci : Cinfo} (h : s.opened env path = some (0, ci)) :
    env.fails .fopen 0 = false ∧ ∃ f, s.get path = some f ∧ parseCookie f = some (0, ci) := by
  unfold Store.opened Store.cookie at h
  split at h
  · cases h
  · rename_i hf
    split at h
    · cases h
    · rename_i f hg; exact ⟨by simpa using hf, f, hg, h⟩

theorem run_idleOut {cfg : Config} {env : Env} {ci : Cinfo} {path : Str} {grey idle : Nat} {x y : Str}
    {s t : Store} {d : Done} (hg : 300 ≤ grey) (hi : 300 ≤ idle) (hread : s.opened env path = some (0, ci))
    (hs : ci.state ≠ 0)
    (h : Prog.run exec (idleOut cfg env ci path (.line grey x) (.line idle y)) s = some (d, t)) :
    d.Denied ∧ Refusal cfg env s path t := by
  have hden : ∀ {r : Ret} {code : Nat} {z : Str}, 300 ≤ code → Done.Denied ⟨r, [.line code z], [], false⟩ :=
    fun hc => ⟨by rw [ok_line]; omega, rfl⟩
  unfold idleOut at h
  split at h
  · cases h
    exact ⟨hden hg, .inl rfl⟩
  · rename_i hidle
    simp only [Prog.run_bind, run_doLogout, Option.bind_some] at h
    cases h
    obtain ⟨-, f, hf, hp⟩ := opened_file hread
    refine ⟨hden hi, ?_⟩
    rw [hf]
    cases env.fails .chmod 0 with
    | true => exact .inl rfl
    | false =>
      refine .inr ⟨f, ⟨hf, ⟨ci, hread, hs⟩, ?_⟩, rfl⟩
      rw [← (parseCookie_fstat hp (by decide)).2]
      omega

/-- A handler that opens a cookie and goes on has read something. -/
theorem run_opened {α : Type} {env : Env} {path : Str} {f : Int × Cinfo → Handler α} {s t : Store} {a : α}
    (h : Prog.run exec (openCookie env path >>= f) s = some (a, t)) :
    ∃ rc ci, s.opened env path = some (rc, ci) ∧ Prog.run exec (f (rc, ci)) s = some (a, t) := by
  rw [Prog.run_bind, run_openCookie] at h
  cases hread : s.opened env path with
  | none => rw [hread] at h; cases h
  | some x =>
    rw [hread] at h
    exact ⟨x.1, x.2, rfl, h⟩

/-- The part `CHECK`, `REGISTER` and `RETR` share: a refusal, or a session in
use for which the handler goes on. -/
theorem session_cases {cfg : Config} {env : Env} {path : Str} {rc r : Int} {ci : Cinfo} {c1 c2 grey idle : Nat}
    {x1 x2 x y : Str} {p : Handler Done} {s t : Store} {d : Done} (hread : s.opened env path = some (rc, ci))
    (h : Prog.run exec (if rc ≠ 0 then reply r c1 x1
      else if ci.state = 0 then reply r c2 x2
      else if env.fails .gettimeofday 0 then fatal
      else if (env.now : Int) - ci.itime ≥ cfg.idleOutTime then
        idleOut cfg env ci path (.line grey x) (.line idle y)
      else p) s = some (d, t))
    (hc : 300 ≤ c1 ∧ 300 ≤ c2 ∧ 300 ≤ grey ∧ 300 ≤ idle) :
    (d.Denied ∧ Refusal cfg env s path t) ∨ (Live cfg env s path ci ∧ Prog.run exec p s = some (d, t)) := by
  split at h
  · obtain ⟨rfl, hd⟩ := denied_reply hc.1 h
    exact .inl ⟨hd, .inl rfl⟩
  rename_i hrc
  obtain rfl : rc = 0 := not_not.1 hrc
  split at h
  · obtain ⟨rfl, hd⟩ := denied_reply hc.2.1 h
    exact .inl ⟨hd, .inl rfl⟩
  rename_i hst
  split at h
  · obtain ⟨rfl, hd⟩ := denied_fatal h
    exact .inl ⟨hd, .inl rfl⟩
  split at h
  · exact .inl (run_idleOut hc.2.2.1 hc.2.2.2 hread hst h)
  · rename_i hid
    exact .inr ⟨⟨hread, hst, by omega⟩, h⟩

/-! ## `do_register` -/

/-- The store with a new service cookie for this login cookie. -/
def Store.bound (s : Store) (spath login : Str) (now : Nat) : Store :=
  s.put spath (some ⟨fieldLine 'l' login, false, now⟩)

/-- `do_register`: the cookie is there already, or nothing is stored, or it is
stored and then the login cookie is touched unless the temporary file stays. -/
theorem doRegister_cases {env : Env} {i : Nat} {login lpath spath : Str} {s t : Store} {rc : Int}
    (h : Prog.run exec (doRegister env i login lpath spath) s = some (rc, t)) :
    (rc = 1 ∧ t = s ∧ (s.get spath).isSome) ∨ (rc = -1 ∧ t = s) ∨
      (rc = -1 ∧ s.get spath = none ∧ s.hasDir spath = true ∧ env.fails .unlinkTmp i = true ∧
        t = s.bound spath login env.now) ∨
      (rc = 0 ∧ s.get spath = none ∧ s.hasDir spath = true ∧ env.fails .unlinkTmp i = false ∧
        t = (s.bound spath login env.now).touched lpath env.now) := by
  unfold doRegister at h
  split at h
  · cases h; exact .inr (.inl ⟨rfl, rfl⟩)
  simp only [Prog.run_bind, run_failing, run_fsLink] at h
  cases hl : env.fails .link i with
  | true => simp only [hl, if_true, Option.bind_some] at h; cases h; exact .inr (.inl ⟨rfl, rfl⟩)
  | false =>
    simp only [hl, Bool.false_eq_true, if_false, Option.bind_some, exec] at h
    cases hs : s.get spath with
    | some f =>
      simp only [hs] at h
      cases h
      exact .inl ⟨rfl, rfl, rfl⟩
    | none =>
      simp only [hs] at h
      cases hd : s.hasDir spath with
      | false =>
        simp only [hd, Bool.false_eq_true, if_false] at h
        cases h
        exact .inr (.inl ⟨rfl, rfl⟩)
      | true =>
        simp only [hd, if_true] at h
        cases hu : env.fails .unlinkTmp i with
        | true =>
          simp only [hu, if_true] at h
          cases h
          exact .inr (.inr (.inl ⟨rfl, rfl, rfl, rfl, rfl⟩))
        | false =>
          simp only [hu, Bool.false_eq_true, if_false, Prog.run_bind, run_fsUtime, Option.bind_some] at h
          cases h
          exact .inr (.inr (.inr ⟨rfl, rfl, rfl, rfl, rfl⟩))

/-! ## `LOGOUT` -/

theorem fLogout_cases {cfg : Config} {ses : Session} {env : Env} {av : List Str} {s t : Store} {d : Done}
    (h : Prog.run exec (fLogout cfg ses env av) s = some (d, t)) :
    (t = s ∧ d.Denied) ∨
      ∃ cmd cookie ip path f ci, av = [cmd, cookie, ip] ∧ mkcookiepath none cfg.hashlen cookie maxPathLen = some path ∧
        s.get path = some f ∧ s.opened env path = some (0, ci) ∧ ci.state ≠ 0 ∧ t = s.marked path f env.now ∧
        d = ⟨.ret 0, [.line 210 "LOGOUT successful: cookie no longer valid".toList],
          pushLine ses ["LOGOUT".toList, cookie, ip], false⟩ := by
  unfold fLogout at h
  split at h
  · exact .inl (denied_reply (by decide) h)
  split at h
  · rename_i cmd cookie ip
    split at h
    · exact .inl (denied_reply (by decide) h)
    rename_i path hpath
    obtain ⟨rc, ci, hread, h⟩ := run_opened h
    dsimp only at h
    split at h
    · exact .inl (denied_reply (by decide) h)
    rename_i hrc
    obtain rfl : rc = 0 := not_not.1 hrc
    split at h
    · exact .inl (denied_reply (by decide) h)
    rename_i hst
    obtain ⟨-, f, hf, -⟩ := opened_file hread
    simp only [Prog.run_bind, run_doLogout, Option.bind_some, hf] at h
    cases hm : env.fails .chmod 0 with
    | true =>
      simp only [hm, show (-1 : Int) < 0 by decide, if_true] at h
      exact .inl (denied_fatal h)
    | false =>
      simp only [hm, Int.lt_irrefl, if_false] at h
      cases h
      exact .inr ⟨cmd, cookie, ip, path, f, ci, rfl, hpath, hf, hread, hst, rfl, rfl⟩
  · exact .inl (denied_reply (by decide) h)

/-! ## `REGISTER` -/

/-- A `REGISTER` that found its session in use. -/
structure Registers (cfg : Config) (ses : Session) (env : Env) (av : List Str) (s : Store)
    (login lpath service spath : Str) (ci : Cinfo) : Prop where
  cgi : ses.al.key = .cgi
  args : ∃ cmd ip, av = [cmd, login, ip, service]
  lfile : mkcookiepath none cfg.hashlen login maxPathLen = some lpath
  sfile : mkcookiepath none cfg.hashlen service maxPathLen = some spath
  live : Live cfg env s lpath ci

theorem fRegister_cases {cfg : Config} {ses : Session} {env : Env} {av : List Str} {s t : Store} {d : Done}
    (h : Prog.run exec (fRegister cfg ses env av) s = some (d, t)) :
    (d.Denied ∧ (t = s ∨ ∃ cmd login ip service lpath, av = [cmd, login, ip, service] ∧
        mkcookiepath none cfg.hashlen login maxPathLen = some lpath ∧ Refusal cfg env s lpath t)) ∨
      ∃ login lpath service spath ci, Registers cfg ses env av s login lpath service spath ci ∧
        ((d.Denied ∧ (t = s ∨ s.get spath = none ∧ s.hasDir spath = true ∧ env.fails .unlinkTmp 0 = true ∧
            t = s.bound spath login env.now)) ∨
          (d = ⟨.ret 1, [.line 226 "REGISTER error: Cookie already exists".toList], [], false⟩ ∧ t = s ∧
            (s.get spath).isSome) ∨
          (s.get spath = none ∧ s.hasDir spath = true ∧ env.fails .unlinkTmp 0 = false ∧
            t = (s.bound spath login env.now).touched lpath env.now ∧
            d = ⟨.ret 0, [.line 220 "REGISTER successful: Cookie Stored.".toList],
              pushLine ses ["REGISTER".toList, login, av.getD 2 [], service], false⟩)) := by
  have hsame : ∀ {u : Store}, u = s ∧ d.Denied → d.Denied ∧ (u = s ∨ ∃ cmd login ip service lpath,
      av = [cmd, login, ip, service] ∧ mkcookiepath none cfg.hashlen login maxPathLen = some lpath ∧
        Refusal cfg env s lpath u) := fun hh => ⟨hh.2, .inl hh.1⟩
  unfold fRegister at h
  split at h
  · exact .inl (hsame (denied_reply (by decide) h))
  rename_i hkey
  split at h
  · rename_i cmd login ip service
    split at h
    · exact .inl (hsame (denied_reply (by decide) h))
    rename_i lpath hlpath
    split at h
    · exact .inl (hsame (denied_reply (by decide) h))
    rename_i spath hspath
    obtain ⟨rc, ci, hread, h⟩ := run_opened h
    rcases session_cases hread h (by decide) with ⟨hd, hr⟩ | ⟨hlive, h⟩
    · exact .inl ⟨hd, .inr ⟨cmd, login, ip, service, lpath, rfl, hlpath, hr⟩⟩
    · refine .inr ⟨login, lpath, service, spath, ci, ⟨not_not.1 hkey, ⟨cmd, ip, rfl⟩, hlpath, hspath, hlive⟩, ?_⟩
      rw [Prog.run_bind] at h
      obtain ⟨⟨rc, u⟩, hreg, hend⟩ := Option.bind_eq_some_iff.1 h
      rcases doRegister_cases hreg with ⟨rfl, rfl, hex⟩ | ⟨rfl, rfl⟩ | ⟨rfl, hn, hdir, hu, rfl⟩ | ⟨rfl, hn, hdir, hu, rfl⟩
      · cases hend
        exact .inr (.inl ⟨rfl, rfl, hex⟩)
      · obtain ⟨rfl, hd⟩ := denied_fatal (show Prog.run exec fatal _ = some (d, t) from hend)
        exact .inl ⟨hd, .inl rfl⟩
      · obtain ⟨rfl, hd⟩ := denied_fatal (show Prog.run exec fatal _ = some (d, t) from hend)
        exact .inl ⟨hd, .inr ⟨hn, hdir, hu, rfl⟩⟩
      · cases hend
        exact .inr (.inr ⟨hn, hdir, hu, rfl, rfl⟩)
  · exact .inl (hsame (denied_reply (by decide) h))

/-! ## `CHECK` and `REKEY` -/

/-- The login cookie a `CHECK` or `REKEY` is about, the reply's code, and the
service cookie to rekey. -/
inductive CheckTarget (cfg : Config) (ses : Session) (env : Env) (s : Store) (cmd cookie lpath : Str) :
    Nat → Option Str → Prop where
  | service {path login : Str} : hasPrefix "cosign-".toList cookie →
      (cfg.strictChecks = true → ∃ sl, serviceValid cfg ses cookie = some (some sl)) →
      mkcookiepath none cfg.hashlen cookie maxPathLen = some path → s.service env path = some login →
      mkcookiepath none cfg.hashlen login maxPathLen = some lpath →
      (protoMinRequired ses.protocol 3 && strcaseeq cmd "REKEY".toList) = false →
      CheckTarget cfg ses env s cmd cookie lpath 231 none
  | rekey {path login : Str} : hasPrefix "cosign-".toList cookie →
      (cfg.strictChecks = true → ∃ sl, serviceValid cfg ses cookie = some (some sl)) →
      mkcookiepath none cfg.hashlen cookie maxPathLen = some path → s.service env path = some login →
      mkcookiepath none cfg.hashlen login maxPathLen = some lpath →
      (protoMinRequired ses.protocol 3 && strcaseeq cmd "REKEY".toList) = true →
      CheckTarget cfg ses env s cmd cookie lpath 233 (some path)
  | login : ¬ hasPrefix "cosign-".toList cookie → hasPrefix "cosign=".toList cookie →
      mkcookiepath none cfg.hashlen cookie maxPathLen = some lpath →
      CheckTarget cfg ses env s cmd cookie lpath 232 none

theorem fCheck_cases {cfg : Config} {ses : Session} {env : Env} {av : List Str} {s t : Store} {d : Done}
    (h : Prog.run exec (fCheck cfg ses env av) s = some (d, t)) :
    (t = s ∧ d.Denied) ∨
      ∃ cmd cookie rest lpath status sc, av = cmd :: cookie :: rest ∧
        CheckTarget cfg ses env s cmd cookie lpath status sc ∧
        Prog.run exec (checkLogin cfg ses env cmd cookie lpath status sc) s = some (d, t) := by
  unfold fCheck at h
  split at h
  · cases h
  rename_i cmd args
  split at h
  · exact .inl (denied_reply (by decide) h)
  split at h
  · cases h
  rename_i cookie rest
  split at h
  · exact .inl (denied_reply (by decide) h)
  rename_i path hpath
  split at h
  · rename_i hc
    rw [Prog.run_bind] at h
    obtain ⟨⟨valid, u⟩, hv, hbody⟩ := Option.bind_eq_some_iff.1 h
    have hu : u = s ∧ (valid = true → cfg.strictChecks = true → ∃ sl, serviceValid cfg ses cookie = some (some sl)) := by
      unfold strictCheck at hv
      split at hv
      · rw [Prog.run_orUndef] at hv
        obtain ⟨x, hx, he⟩ := Option.map_eq_some_iff.1 hv
        obtain ⟨y, hy, rfl⟩ := Option.map_eq_some_iff.1 hx
        cases he
        exact ⟨rfl, fun hs _ => by obtain ⟨sl, rfl⟩ := Option.isSome_iff_exists.1 hs; exact ⟨sl, hy⟩⟩
      · rename_i hstrict
        cases hv
        exact ⟨rfl, fun _ hs => absurd hs hstrict⟩
    obtain ⟨rfl, hvalid⟩ := hu
    split at hbody
    · exact .inl (denied_reply (by decide) hbody)
    rename_i hv
    rw [Prog.run_bind, run_openService, Option.bind_some] at hbody
    cases hs : u.service env path with
    | none =>
      simp only [hs] at hbody
      exact .inl (denied_reply (by decide) hbody)
    | some login =>
      simp only [hs] at hbody
      split at hbody
      · exact .inl (denied_reply (by decide) hbody)
      · rename_i lpath hlpath
        have hok := hvalid (by simpa using hv)
        split at hbody
        · rename_i hr
          exact .inr ⟨cmd, cookie, rest, lpath, 233, some path, rfl, .rekey hc hok hpath hs hlpath hr, hbody⟩
        · rename_i hr
          exact .inr ⟨cmd, cookie, rest, lpath, 231, none, rfl,
            .service hc hok hpath hs hlpath (by simpa using hr), hbody⟩
  · rename_i hc
    split at h
    · rename_i hl
      exact .inr ⟨cmd, cookie, rest, path, 232, none, rfl, .login hc hl hpath, h⟩
    · exact .inl (denied_reply (by decide) h)

theorem checkReply_ok (ses : Session) (status : Nat) (ci : Cinfo) (r : Str) (hs : 200 ≤ status ∧ status < 300) :
    Done.ok ⟨.ret 0, [checkReply ses status ci r], [], false⟩ := by
  unfold checkReply
  split
  · exact (ok_line ..).2 hs
  · exact (ok_line ..).2 hs

/-- The store with a file under a new name. -/
def Store.moved (s : Store) (p q : Str) (f : File) : Store := (s.put p none).put q (some f)

/-- A rekeyed service cookie. -/
structure Rekeys (cfg : Config) (env : Env) (s : Store) (cookie scpath rcookie npath : Str) (f : File) : Prop where
  named : rekeyCookie cfg env cookie = .ok (rcookie, npath)
  rename : env.fails .rename 0 = false
  file : s.get scpath = some f
  dir : s.hasDir npath = true

theorem checkLogin_cases {cfg : Config} {ses : Session} {env : Env} {cmd cookie lpath : Str} {status : Nat}
    {sc : Option Str} {s t : Store} {d : Done}
    (h : Prog.run exec (checkLogin cfg ses env cmd cookie lpath status sc) s = some (d, t)) :
    (d.Denied ∧ Refusal cfg env s lpath t) ∨
      ∃ ci, Live cfg env s lpath ci ∧
        ((sc = none ∧ t = s.touched lpath env.now ∧ d = ⟨.ret 0, [checkReply ses status ci []], [], false⟩) ∨
          (sc.isSome ∧ d.Denied ∧ t = s.touched lpath env.now) ∨
          ∃ scpath rcookie npath f, sc = some scpath ∧
            Rekeys cfg env (s.touched lpath env.now) cookie scpath rcookie npath f ∧
            t = (s.touched lpath env.now).moved scpath npath f ∧
            d = ⟨.ret 0, [checkReply ses status ci rcookie], [], false⟩) := by
  unfold checkLogin at h
  obtain ⟨rc, ci, hread, h⟩ := run_opened h
  rcases session_cases hread h (by decide) with hd | ⟨hlive, h⟩
  · exact .inl hd
  refine .inr ⟨ci, hlive, ?_⟩
  rw [Prog.run_bind, run_fsUtime, Option.bind_some] at h
  cases sc with
  | none => cases h; exact .inl ⟨rfl, rfl, rfl⟩
  | some scpath =>
    dsimp only at h
    split at h
    · obtain ⟨ht, hd⟩ := denied_reply (by decide) h
      exact .inr (.inl ⟨rfl, hd, ht⟩)
    rename_i rcookie npath hname
    simp only [Prog.run_bind, run_failing, run_fsMove] at h
    cases hr : env.fails .rename 0 with
    | true =>
      simp only [hr, if_true, Option.bind_some] at h
      obtain ⟨ht, hd⟩ := denied_reply (by decide) h
      exact .inr (.inl ⟨rfl, hd, ht⟩)
    | false =>
      simp only [hr, Bool.false_eq_true, if_false, Option.bind_some] at h
      change Prog.run exec (if (exec (.move scpath npath) (s.touched lpath env.now)).1 = false then _ else _)
        (exec (.move scpath npath) (s.touched lpath env.now)).2 = _ at h
      cases hf : (s.touched lpath env.now).get scpath with
      | none =>
        simp only [exec, hf, if_true] at h
        obtain ⟨ht, hd⟩ := denied_reply (by decide) h
        exact .inr (.inl ⟨rfl, hd, ht⟩)
      | some f =>
        cases hdir : (s.touched lpath env.now).hasDir npath with
        | false =>
          simp only [exec, hf, hdir, Bool.false_eq_true, if_false, if_true] at h
          obtain ⟨ht, hd⟩ := denied_reply (by decide) h
          exact .inr (.inl ⟨rfl, hd, ht⟩)
        | true =>
          simp only [exec, hf, hdir, if_true, Bool.true_eq_false, if_false] at h
          cases h
          exact .inr (.inr ⟨scpath, rcookie, npath, f, rfl, ⟨hname, hr, hf, hdir⟩, rfl, rfl⟩)

/-! ## `RETR` -/

/-- A `RETR` that found its session in use. -/
structure Retrieves (cfg : Config) (ses : Session) (env : Env) (s : Store) (cookie spath login lpath : Str)
    (sl : ServiceList) (ci : Cinfo) : Prop where
  valid : serviceValid cfg ses cookie = some (some sl)
  sfile : mkcookiepath none cfg.hashlen cookie maxPathLen = some spath
  service : s.service env spath = some login
  lfile : mkcookiepath none cfg.hashlen login maxPathLen = some lpath
  live : Live cfg env s lpath ci

/-- A ticket is only read. -/
theorem retrTicket_cases {env : Env} {sl : ServiceList} {krbpath : Str} {s t : Store} {d : Done}
    (h : Prog.run exec (retrTicket env sl krbpath) s = some (d, t)) :
    t = s ∧ d.push = [] ∧ (d.ok → sl.ticket = true) := by
  unfold retrTicket at h
  split at h
  · obtain ⟨ht, hd⟩ := denied_reply (by decide) h
    exact ⟨ht, hd.2, fun hok => absurd hok hd.1⟩
  rename_i hsl
  have hsl : sl.ticket = true := by simpa using hsl
  split at h
  · obtain ⟨ht, hd⟩ := denied_reply (by decide) h
    exact ⟨ht, hd.2, fun _ => hsl⟩
  simp only [Prog.run_bind, run_fsRead, Option.bind_some] at h
  cases hk : s.get krbpath with
  | none =>
    simp only [hk] at h
    obtain ⟨ht, hd⟩ := denied_reply (by decide) h
    exact ⟨ht, hd.2, fun _ => hsl⟩
  | some f =>
    simp only [hk] at h
    split at h
    · obtain ⟨ht, hd⟩ := denied_reply (by decide) h
      exact ⟨ht, hd.2, fun _ => hsl⟩
    · split at h <;> cases h <;> exact ⟨rfl, rfl, fun _ => hsl⟩

/-- One more service cookie for this login cookie, as `do_register` makes it. -/
def RegisterStep (cfg : Config) (env : Env) (login : Str) (s t : Store) : Prop :=
  ∃ i service lpath spath rc, mkcookiepath none cfg.hashlen service maxPathLen = some spath ∧
    mkcookiepath none cfg.hashlen login maxPathLen = some lpath ∧
    Prog.run exec (doRegister env i login lpath spath) s = some (rc, t)

/-- The same for a name of this list. -/
def ProxyStep (cfg : Config) (env : Env) (proxies : List Proxies) (login : Str) (s t : Store) : Prop :=
  ∃ i proxy value lpath spath rc, proxy ∈ proxies ∧
    mkcookiepath none cfg.hashlen (proxy.cookie ++ '=' :: value) maxPathLen = some spath ∧
    mkcookiepath none cfg.hashlen login maxPathLen = some lpath ∧
    Prog.run exec (doRegister env i login lpath spath) s = some (rc, t)

theorem ProxyStep.weaken {cfg : Config} {env : Env} {ps qs : List Proxies} {login : Str} {s t : Store}
    (h : ProxyStep cfg env ps login s t) (hsub : ps ⊆ qs) : ProxyStep cfg env qs login s t := by
  obtain ⟨i, proxy, value, lpath, spath, rc, hp, hrest⟩ := h
  exact ⟨i, proxy, value, lpath, spath, rc, hsub hp, hrest⟩

theorem ProxyStep.registers {cfg : Config} {env : Env} {ps : List Proxies} {login : Str} {s t : Store}
    (h : ProxyStep cfg env ps login s t) : RegisterStep cfg env login s t := by
  obtain ⟨i, _, _, lpath, spath, rc, -, hrest⟩ := h
  exact ⟨i, _, lpath, spath, rc, hrest⟩

theorem retrProxies_run {cfg : Config} {ses : Session} {env : Env} {login : Str} {proxies : List Proxies} {i : Nat}
    {d0 d : Done} {s t : Store} (h : Prog.run exec (retrProxies cfg ses env login i proxies d0) s = some (d, t)) :
    Relation.ReflTransGen (ProxyStep cfg env proxies login) s t := by
  induction proxies generalizing i d0 s with
  | nil => cases h; exact .refl
  | cons proxy rest ih =>
    unfold retrProxies at h
    split at h
    · cases h; exact .refl
    dsimp only at h
    split at h
    · cases h; exact .refl
    split at h
    · cases h; exact .refl
    rename_i spath hspath
    split at h
    · cases h; exact .refl
    rename_i lpath hlpath
    rw [Prog.run_bind] at h
    obtain ⟨⟨rc, u⟩, hreg, hrest⟩ := Option.bind_eq_some_iff.1 h
    have hstep : ProxyStep cfg env (proxy :: rest) login s u :=
      ⟨i, proxy, _, lpath, spath, rc, List.mem_cons_self, hspath, hlpath, hreg⟩
    have hmono : ∀ {v w : Store}, Relation.ReflTransGen (ProxyStep cfg env rest login) v w →
        Relation.ReflTransGen (ProxyStep cfg env (proxy :: rest) login) v w := fun h =>
      Relation.ReflTransGen.mono (fun _ _ hs => ProxyStep.weaken hs (List.subset_cons_self _ _)) _ _ h
    dsimp only at hrest
    split at hrest
    · exact (hmono (ih hrest)).head hstep
    · exact (hmono (ih hrest)).head hstep

theorem fRetr_split {cfg : Config} {ses : Session} {env : Env} {av : List Str} {s t : Store} {d : Done}
    (h : Prog.run exec (fRetr cfg ses env av) s = some (d, t)) :
    (d.Denied ∧ (t = s ∨ ∃ cmd cookie kind spath login lpath, av = [cmd, cookie, kind] ∧
        mkcookiepath none cfg.hashlen cookie maxPathLen = some spath ∧ s.service env spath = some login ∧
        mkcookiepath none cfg.hashlen login maxPathLen = some lpath ∧ Refusal cfg env s lpath t)) ∨
      ∃ cmd cookie kind spath login lpath sl ci, av = [cmd, cookie, kind] ∧
        Retrieves cfg ses env s cookie spath login lpath sl ci ∧
        ((t = s ∧ d.push = [] ∧ (d.ok → kind = "tgt".toList ∧ sl.ticket = true)) ∨
          (kind = "cookies".toList ∧ Relation.ReflTransGen (ProxyStep cfg env ses.al.proxies login) s t)) := by
  have hsame : ∀ {u : Store}, u = s ∧ d.Denied → d.Denied ∧ (u = s ∨ ∃ cmd cookie kind spath login lpath,
      av = [cmd, cookie, kind] ∧ mkcookiepath none cfg.hashlen cookie maxPathLen = some spath ∧
        s.service env spath = some login ∧ mkcookiepath none cfg.hashlen login maxPathLen = some lpath ∧
        Refusal cfg env s lpath u) := fun hh => ⟨hh.2, .inl hh.1⟩
  unfold fRetr at h
  split at h
  · exact .inl (hsame (denied_reply (by decide) h))
  split at h
  · rename_i cmd cookie kind
    rw [Prog.run_bind, Prog.run_orUndef] at h
    cases hv : serviceValid cfg ses cookie with
    | none => rw [hv] at h; cases h
    | some o =>
      simp only [hv, Option.map_some, Option.bind_some] at h
      cases o with
      | none => exact .inl (hsame (denied_reply (by decide) h))
      | some sl =>
        dsimp only at h
        split at h
        · exact .inl (hsame (denied_reply (by decide) h))
        rename_i spath hspath
        rw [Prog.run_bind, run_openService, Option.bind_some] at h
        cases hs : s.service env spath with
        | none =>
          simp only [hs] at h
          exact .inl (hsame (denied_reply (by decide) h))
        | some login =>
          simp only [hs] at h
          split at h
          · exact .inl (hsame (denied_reply (by decide) h))
          rename_i lpath hlpath
          obtain ⟨rc, ci, hread, h⟩ := run_opened h
          rcases session_cases hread h (by decide) with ⟨hd, hr⟩ | ⟨hlive, h⟩
          · exact .inl ⟨hd, .inr ⟨cmd, cookie, kind, spath, login, lpath, rfl, hspath, hs, hlpath, hr⟩⟩
          refine .inr ⟨cmd, cookie, kind, spath, login, lpath, sl, ci, rfl, ⟨hv, hspath, hs, hlpath, hlive⟩, ?_⟩
          split at h
          · rename_i hk
            obtain ⟨ht, hp, hok⟩ := retrTicket_cases h
            exact .inl ⟨ht, hp, fun ho => ⟨hk, hok ho⟩⟩
          split at h
          · rename_i hk
            unfold retrProxy at h
            split at h
            · obtain ⟨ht, hd⟩ := denied_reply (by decide) h
              exact .inl ⟨ht, hd.2, fun ho => absurd ho hd.1⟩
            · exact .inr ⟨hk, retrProxies_run h⟩
          · obtain ⟨ht, hd⟩ := denied_reply (by decide) h
            exact .inl ⟨ht, hd.2, fun ho => absurd ho hd.1⟩
  · exact .inl (hsame (denied_reply (by decide) h))

theorem fRetr_cases {cfg : Config} {ses : Session} {env : Env} {av : List Str} {s t : Store} {d : Done}
    (h : Prog.run exec (fRetr cfg ses env av) s = some (d, t)) :
    (d.Denied ∧ (t = s ∨ ∃ cmd cookie kind spath login lpath, av = [cmd, cookie, kind] ∧
        mkcookiepath none cfg.hashlen cookie maxPathLen = some spath ∧ s.service env spath = some login ∧
        mkcookiepath none cfg.hashlen login maxPathLen = some lpath ∧ Refusal cfg env s lpath t)) ∨
      ∃ cmd cookie kind spath login lpath sl ci, av = [cmd, cookie, kind] ∧
        Retrieves cfg ses env s cookie spath login lpath sl ci ∧
        ((t = s ∧ d.push = [] ∧ (d.ok → kind = "tgt".toList ∧ sl.ticket = true)) ∨
          (kind = "cookies".toList ∧ Relation.ReflTransGen (RegisterStep cfg env login) s t)) := by
  rcases fRetr_split h with hd | ⟨cmd, cookie, kind, spath, login, lpath, sl, ci, hav, hr, hend⟩
  · exact .inl hd
  refine .inr ⟨cmd, cookie, kind, spath, login, lpath, sl, ci, hav, hr, ?_⟩
  rcases hend with hsame | ⟨hk, hsteps⟩
  · exact .inl hsame
  · exact .inr ⟨hk, Relation.ReflTransGen.mono (fun _ _ hs => ProxyStep.registers hs) _ _ hsteps⟩

end Cosign
