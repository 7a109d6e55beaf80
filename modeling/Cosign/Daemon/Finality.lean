import Cosign.Daemon.Lineage
/-!
# Sessions that are over

`CHECK`, `REKEY`, `REGISTER` and `RETR` look at the session before they answer:
they turn away one that is marked as logged out, and mark one that has been
idle for too long. `LOGIN` makes the first test and not the second, so a
session that nobody looked at in time comes back to life when it is extended.
-/

namespace Cosign

open Lib

/-- From `T` on, nothing takes the session for one in use. -/
def Shut (cfg : Config) (T : Nat) (f : File) : Prop := f.isgid = true ∨ (T : Int) - f.mtime ≥ cfg.idleOutTime

/-- What is left of a login cookie is shut. -/
def ShutAt (cfg : Config) (T : Nat) (s : Store) (path : Str) : Prop :=
  ∀ f, s.get path = some f → Shut cfg T f ∧ parseService f.text = none

/-- The command is about this login cookie, or about a service cookie that is
registered to it. -/
inductive Concerns (cfg : Config) (s : Store) (c : Str) : CommandName → List Str → Prop where
  | self {n : CommandName} {cmd : Str} {rest : List Str} : n = .check ∨ n = .rekey ∨ n = .register ∨ n = .retr →
      Concerns cfg s c n (cmd :: c :: rest)
  | service {n : CommandName} {cmd w p : Str} {rest : List Str} : n = .check ∨ n = .rekey ∨ n = .retr →
      mkcookiepath none cfg.hashlen w maxPathLen = some p → s.binding p = some c → Concerns cfg s c n (cmd :: w :: rest)
  | registered {cmd login ip w p : Str} : mkcookiepath none cfg.hashlen w maxPathLen = some p → s.binding p = some c →
      Concerns cfg s c .register [cmd, login, ip, w]

section
variable {cfg : Config} {env : Env} {s : Store} {T : Nat} {c path : Str}

theorem not_live {ci : Cinfo} (hshut : ShutAt cfg T s path) (hT : T ≤ env.now) : ¬ Live cfg env s path ci := by
  intro hlive
  obtain ⟨-, f, hf, hparse⟩ := opened_file hlive.read
  obtain ⟨hstate, htime⟩ := parseCookie_fstat hparse (by decide)
  rcases (hshut f hf).1 with hmark | hidle
  · refine hlive.state ?_
    rw [hstate, hmark]
    rfl
  · have hfresh := hlive.fresh
    rw [htime] at hfresh
    omega

/-- A session in use is another one. -/
theorem live_other {lpath : Str} {ci : Cinfo} (hshut : ShutAt cfg T s path) (hT : T ≤ env.now)
    (hlive : Live cfg env s lpath ci) : resolve path ≠ resolve lpath := by
  intro he
  have hl : ShutAt cfg T s lpath := fun f hf => hshut f ((get_congr he).trans hf)
  exact not_live hl hT hlive

/-- What is left of the login cookie is no service cookie. -/
theorem shut_unbound {login : Str} (hshut : ShutAt cfg T s path) : s.binding path ≠ some login := by
  intro hb
  obtain ⟨f, hf, hl⟩ := Option.bind_eq_some_iff.1 hb
  rw [(hshut f hf).2] at hl
  cases hl

theorem fRegister_shut {ses : Session} {cmd ip w : Str} {d : Done} {t : Store} (hpath : mkcookiepath none cfg.hashlen c maxPathLen = some path)
    (hshut : ShutAt cfg T s path) (hT : T ≤ env.now) (h : Prog.run exec (fRegister cfg ses env [cmd, c, ip, w]) s = some (d, t)) : ¬ d.ok := by
  rcases fRegister_cases h with ⟨hd, -⟩ | ⟨login, lpath, service, spath, ci, hreg, -⟩
  · exact hd.1
  obtain ⟨cmd', ip', hav⟩ := hreg.args
  cases hav
  cases hpath.symm.trans hreg.lfile
  exact absurd hreg.live (not_live hshut hT)

/-- The file of a shut session is as it was, or has been marked. -/
def StillShut (f : File) (t : Store) (path : Str) : Prop :=
  ∃ g, t.get path = some g ∧ (g = f ∨ (g.isgid = true ∧ g.text = f.text))

theorem touched_other {p : Str} {now : Nat} (h : resolve path ≠ resolve p) : (s.touched p now).get path = s.get path :=
  exec_frame _ s (by simpa [FsOp.targets] using h)

theorem marked_shut {p : Str} {f g : File} {now : Nat} (hf : s.get path = some f) (hg : s.get p = some g) :
    StillShut f (s.marked p g now) path := by
  by_cases he : resolve path = resolve p
  · have hfg : g = f := by
      rw [get_congr he, hg] at hf
      exact Option.some.inj hf
    refine ⟨{ g with isgid := true, mtime := now }, ?_, .inr ⟨rfl, by rw [hfg]⟩⟩
    rw [get_congr he]
    exact Store.put_get ..
  · exact ⟨f, by rw [Store.marked, Store.put_get_ne _ he, hf], .inl rfl⟩

theorem refusal_shut {p : Str} {f : File} {t : Store} (hf : s.get path = some f) (h : Refusal cfg env s p t) :
    StillShut f t path := by
  rcases h with rfl | ⟨g, hidle, rfl⟩
  · exact ⟨f, hf, .inl rfl⟩
  · exact marked_shut hf hidle.file

theorem doRegister_shut {i : Nat} {login lpath spath : Str} {t : Store} {rc : Int} {f : File}
    (hf : s.get path = some f) (hne : resolve path ≠ resolve lpath)
    (h : Prog.run exec (doRegister env i login lpath spath) s = some (rc, t)) : t.get path = some f := by
  rcases doRegister_cases h with ⟨-, rfl, -⟩ | ⟨-, rfl⟩ | ⟨-, hn, -, -, rfl⟩ | ⟨-, hn, -, -, rfl⟩
  · exact hf
  · exact hf
  · exact bound_get hf hn
  · rw [touched_other hne]
    exact bound_get hf hn

theorem registerSteps_shut {login lpath : Str} {t : Store} {f : File} (hf : s.get path = some f)
    (hl : mkcookiepath none cfg.hashlen login maxPathLen = some lpath) (hne : resolve path ≠ resolve lpath)
    (h : Relation.ReflTransGen (RegisterStep cfg env login) s t) : t.get path = some f := by
  induction h with
  | refl => exact hf
  | tail _ hstep ih =>
    obtain ⟨i, service, lpath', spath, rc, -, hl', hrun⟩ := hstep
    cases hl.symm.trans hl'
    exact doRegister_shut ih hne hrun

theorem stillShut_shutAt {f : File} {t : Store} (hshut : ShutAt cfg T s path) (hf : s.get path = some f)
    (h : StillShut f t path) : ShutAt cfg T t path := by
  obtain ⟨g, hg, hor⟩ := h
  intro g' hg'
  cases hg.symm.trans hg'
  obtain ⟨hs, htext⟩ := hshut f hf
  rcases hor with rfl | ⟨hmark, he⟩
  · exact ⟨hs, htext⟩
  · exact ⟨.inl hmark, by rw [he]; exact htext⟩

variable (hc : hasPrefix "cosign=".toList c) (hpath : mkcookiepath none cfg.hashlen c maxPathLen = some path)
include hc hpath

theorem fCheck_shut {ses : Session} {cmd w : Str} {rest : List Str} {d : Done} {t : Store}
    (hshut : ShutAt cfg T s path) (hT : T ≤ env.now)
    (hw : w = c ∨ ∃ p, mkcookiepath none cfg.hashlen w maxPathLen = some p ∧ s.binding p = some c)
    (h : Prog.run exec (fCheck cfg ses env (cmd :: w :: rest)) s = some (d, t)) : ¬ d.ok := by
  rcases fCheck_cases h with ⟨-, hd⟩ | ⟨cmd', cookie, rest', lpath, status, sc, hav, htarget, hrun⟩
  · exact hd.1
  cases hav
  rcases checkLogin_cases hrun with ⟨hd, -⟩ | ⟨ci, hlive, -⟩
  · exact hd.1
  have hservice : ∀ {p login : Str}, hasPrefix "cosign-".toList w → mkcookiepath none cfg.hashlen w maxPathLen = some p →
      s.service env p = some login → mkcookiepath none cfg.hashlen login maxPathLen = some lpath → False := by
    intro p login hpre hp hs hl
    rcases hw with rfl | ⟨p', hp', hb⟩
    · exact login_not_service hc hpre
    · cases hp.symm.trans hp'
      cases (binding_of_service hs).symm.trans hb
      cases hpath.symm.trans hl
      exact not_live hshut hT hlive
  cases htarget with
  | service hpre _ hp hs hl => exact absurd (hservice hpre hp hs hl) id
  | rekey hpre _ hp hs hl => exact absurd (hservice hpre hp hs hl) id
  | login _ _ hl =>
    rcases hw with rfl | ⟨p', hp', hb⟩
    · cases hpath.symm.trans hl
      exact absurd hlive (not_live hshut hT)
    · cases hl.symm.trans hp'
      obtain ⟨-, f, hf, hparse⟩ := opened_file hlive.read
      rw [Store.binding, hf] at hb
      exact absurd hparse (service_not_record hb ci)

theorem fRetr_shut {ses : Session} {cmd w : Str} {rest : List Str} {d : Done} {t : Store} (hshut : ShutAt cfg T s path)
    (hT : T ≤ env.now)
    (hw : w = c ∨ ∃ p, mkcookiepath none cfg.hashlen w maxPathLen = some p ∧ s.binding p = some c)
    (h : Prog.run exec (fRetr cfg ses env (cmd :: w :: rest)) s = some (d, t)) : ¬ d.ok := by
  rcases fRetr_cases h with ⟨hd, -⟩ | ⟨cmd', cookie, kind, spath, login, lpath, sl, ci, hav, hret, -⟩
  · exact hd.1
  cases hav
  rcases hw with rfl | ⟨p', hp', hb⟩
  · cases hpath.symm.trans hret.sfile
    exact absurd (binding_of_service hret.service) (shut_unbound hshut)
  · cases hret.sfile.symm.trans hp'
    cases (binding_of_service hret.service).symm.trans hb
    cases hpath.symm.trans hret.lfile
    exact absurd hret.live (not_live hshut hT)

/-- Every command about a session that is over is refused. -/
theorem shut_denies {ses : Session} {n : CommandName} {av : List Str} {d : Done} {t : Store}
    (hshut : ShutAt cfg T s path) (hT : T ≤ env.now) (hcon : Concerns cfg s c n av)
    (hcross : ∀ cmd login ip w p, n = .register → av = [cmd, login, ip, w] →
      mkcookiepath none cfg.hashlen w maxPathLen = some p → s.binding p = some c → login = c)
    (h : Prog.run exec (handle cfg ses env av n) s = some (d, t)) : ¬ d.ok := by
  cases hcon with
  | @self _ cmd rest hn =>
    have hcheck : Prog.run exec (fCheck cfg ses env (cmd :: c :: rest)) s = some (d, t) → ¬ d.ok :=
      fCheck_shut hc hpath hshut hT (.inl rfl)
    rcases hn with rfl | rfl | rfl | rfl
    · exact hcheck h
    · exact hcheck h
    · have h : Prog.run exec (fRegister cfg ses env (cmd :: c :: rest)) s = some (d, t) := h
      rcases fRegister_cases h with ⟨hd, -⟩ | ⟨login, lpath, service, spath, ci, hreg, -⟩
      · exact hd.1
      · obtain ⟨cmd', ip', hav⟩ := hreg.args
        cases hav
        exact fRegister_shut hpath hshut hT h
    · exact fRetr_shut hc hpath hshut hT (.inl rfl) h
  | @service _ cmd w p rest hn hp hb =>
    have hcheck : Prog.run exec (fCheck cfg ses env (cmd :: w :: rest)) s = some (d, t) → ¬ d.ok :=
      fCheck_shut hc hpath hshut hT (.inr ⟨p, hp, hb⟩)
    rcases hn with rfl | rfl | rfl
    · exact hcheck h
    · exact hcheck h
    · exact fRetr_shut hc hpath hshut hT (.inr ⟨p, hp, hb⟩) h
  | @registered cmd login ip w p hp hb =>
    cases hcross cmd login ip w p rfl rfl hp hb
    have h : Prog.run exec (fRegister cfg ses env [cmd, c, ip, w]) s = some (d, t) := h
    exact fRegister_shut hpath hshut hT h

/-! ## The session stays shut -/

theorem fCheck_stays {ses : Session} {av : List Str} {d : Done} {t : Store} {f : File} (hshut : ShutAt cfg T s path)
    (hT : T ≤ env.now) (hf : s.get path = some f) (h : Prog.run exec (fCheck cfg ses env av) s = some (d, t)) :
    StillShut f t path := by
  rcases fCheck_cases h with ⟨rfl, -⟩ | ⟨cmd, cookie, rest, lpath, status, sc, rfl, htarget, hrun⟩
  · exact ⟨f, hf, .inl rfl⟩
  rcases checkLogin_cases hrun with ⟨-, hr⟩ | ⟨ci, hlive, hend⟩
  · exact refusal_shut hf hr
  have hne := live_other hshut hT hlive
  rcases hend with ⟨-, rfl, -⟩ | ⟨-, -, rfl⟩ | ⟨scpath, rcookie, npath, g, rfl, hr, rfl, -⟩
  · exact ⟨f, by rw [touched_other hne, hf], .inl rfl⟩
  · exact ⟨f, by rw [touched_other hne, hf], .inl rfl⟩
  · -- only service cookies move
    cases htarget with
    | rekey hpre _ hp _ _ _ =>
      obtain ⟨hpre', hp'⟩ := rekeyCookie_spec cfg env hpre hr.named
      have h1 : resolve path ≠ resolve scpath := fun he => login_not_service (resolve_inj hpath hp he ▸ hc) hpre
      have h2 : resolve path ≠ resolve npath := fun he => login_not_service (resolve_inj hpath hp' he ▸ hc) hpre'
      refine ⟨f, ?_, .inl rfl⟩
      rw [Store.moved, Store.put_get_ne _ h2, Store.put_get_ne _ h1, touched_other hne, hf]

/-- A command other than `LOGIN` and `TIME` leaves a session that is over as it
is, or marks it. -/
theorem handle_stays {ses : Session} {n : CommandName} {av : List Str} {d : Done} {t : Store} {f : File}
    (hn : n ≠ .login ∧ n ≠ .time) (hshut : ShutAt cfg T s path) (hT : T ≤ env.now) (hf : s.get path = some f)
    (h : Prog.run exec (handle cfg ses env av n) s = some (d, t)) : StillShut f t path := by
  have hsame : t = s → StillShut f t path := by rintro rfl; exact ⟨f, hf, .inl rfl⟩
  cases n with
  | login => exact absurd rfl hn.1
  | time => exact absurd rfl hn.2
  | check => exact fCheck_stays hc hpath hshut hT hf h
  | rekey => exact fCheck_stays hc hpath hshut hT hf h
  | logout =>
    rcases fLogout_cases h with ⟨rfl, -⟩ | ⟨_, _, _, p, g, _, -, -, hg, -, -, rfl, -⟩
    · exact hsame rfl
    · exact marked_shut hf hg
  | register =>
    rcases fRegister_cases h with ⟨-, rfl | ⟨_, _, _, _, _, -, -, hr⟩⟩ | ⟨_, _, _, _, _, hreg, hend⟩
    · exact hsame rfl
    · exact refusal_shut hf hr
    · have hne := live_other hshut hT hreg.live
      rcases hend with ⟨-, rfl | ⟨hnone, -, -, rfl⟩⟩ | ⟨-, rfl, -⟩ | ⟨hnone, -, -, rfl, -⟩
      · exact hsame rfl
      · exact ⟨f, bound_get hf hnone, .inl rfl⟩
      · exact hsame rfl
      · exact ⟨f, by rw [touched_other hne]; exact bound_get hf hnone, .inl rfl⟩
  | retr =>
    rcases fRetr_cases h with ⟨-, rfl | ⟨_, _, _, _, _, _, -, -, -, -, hr⟩⟩ | ⟨_, _, _, _, _, _, _, _, -, hret, hend⟩
    · exact hsame rfl
    · exact refusal_shut hf hr
    · rcases hend with ⟨rfl, -, -⟩ | ⟨-, hsteps⟩
      · exact hsame rfl
      · exact ⟨f, registerSteps_shut hf hret.lfile (live_other hshut hT hret.live) hsteps, .inl rfl⟩
  | daemon => exact hsame (fDaemon_same h)
  | noop => cases h; exact hsame rfl
  | quit => cases h; exact hsame rfl
  | help => cases h; exact hsame rfl
  | starttls => cases h; exact hsame rfl

end

/-! ## Runs -/

/-- A command that gets to a handler, or is turned away before. -/
theorem command_cases {cfg : Config} {ses : Session} {env : Env} {line : Str} {s t : Store} {d : Done}
    (h : Prog.run exec (command cfg ses env line) s = some (d, t)) :
    (t = s ∧ d.Denied) ∨ ∃ cmd ws n, acavParse line = cmd :: ws ∧ findCommand cmd = some n ∧
      Prog.run exec (handle cfg ses env (cmd :: ws) n) s = some (d, t) := by
  unfold command at h
  split at h
  · exact .inl (denied_reply (by decide) h)
  rename_i cmd ws hline
  split at h
  · exact .inl (denied_reply (by decide) h)
  · rename_i n hn
    exact .inr ⟨cmd, ws, n, hline, hn, h⟩

def IsTime (line : Str) : Prop := ∃ w, (acavParse line).head? = some w ∧ findCommand w = some .time

/-- A `LOGIN` writes the cookie's record anew. -/
def Extends (cfg : Config) (path : Str) (x : Entry Store Event Outcome) : Prop :=
  ∃ ses env line a ci text already, x.ev = .command ses env line ∧ IsLogin line ∧
    Publishes cfg ses env (acavParse line) x.pre a path 0 ci text already

/-- A `REGISTER` for another login cookie names a service cookie of this one. -/
def Crosses (cfg : Config) (c : Str) (x : Entry Store Event Outcome) : Prop :=
  ∃ ses env line cmd login ip w p, x.ev = .command ses env line ∧ acavParse line = [cmd, login, ip, w] ∧
    findCommand cmd = some .register ∧ mkcookiepath none cfg.hashlen w maxPathLen = some p ∧
    x.pre.binding p = some c ∧ login ≠ c

/-- The file is made anew. -/
def Anew (path : Str) (x : Entry Store Event Outcome) : Prop := x.pre.get path = none ∧ (x.post.get path).isSome

/-- If the event is a command about the session, it is not answered 2xx. -/
def Denies (cfg : Config) (c : Str) (x : Entry Store Event Outcome) : Prop :=
  ∀ ses env line cmd ws n d, x.ev = .command ses env line → acavParse line = cmd :: ws → findCommand cmd = some n →
    Concerns cfg x.pre c n (cmd :: ws) → x.res = .answered d → ¬ d.ok

section
variable {cfg : Config} {T : Nat} {c path : Str} {x : Entry Store Event Outcome}

theorem shut_step (hc : hasPrefix "cosign=".toList c) (hpath : mkcookiepath none cfg.hashlen c maxPathLen = some path)
    (hstep : step cfg x.pre x.ev = some (x.res, x.post))
    (hclock : ∀ ses env line, x.ev = .command ses env line → T ≤ env.now ∧ ¬ IsTime line)
    (hanew : ¬ Anew path x) (hext : ¬ Extends cfg path x) (h : ShutAt cfg T x.pre path) : ShutAt cfg T x.post path := by
  have hsame : x.post.get path = x.pre.get path → ShutAt cfg T x.post path := fun he f hf => h f (he ▸ hf)
  have hnone : x.post.get path = none → ShutAt cfg T x.post path := fun he f hf => by rw [he] at hf; cases hf
  cases hpre : x.pre.get path with
  | none =>
    refine hnone (Option.not_isSome_iff_eq_none.1 fun hs => hanew ⟨hpre, hs⟩)
  | some f =>
    rcases step_cases hstep with ⟨ses, env, line, d, hev, -, hl, hrun⟩ | ⟨ses, env, line, d, hev, -, hl, hrun⟩ |
      ⟨now, ls, r, hev, -, hrun⟩
    · rcases fLogin_get hpath hrun with he | ⟨a, rc, ci, text, already, hp, -, -⟩ | ⟨-, he⟩
      · exact hsame he
      · by_cases hrc : rc = 0
        · subst hrc
          exact absurd ⟨ses, env, line, a, ci, text, already, hev, hl, hp⟩ hext
        · rw [hp.absent hrc] at hpre
          cases hpre
      · exact hnone he
    · rcases command_cases hrun with ⟨he, -⟩ | ⟨cmd, ws, n, hline, hn, hrun⟩
      · exact hsame (by rw [he])
      · obtain ⟨hT, htime⟩ := hclock ses env line hev
        have hne : n ≠ .login ∧ n ≠ .time := by
          constructor <;> rintro rfl
          · exact hl ⟨cmd, by rw [hline]; rfl, hn⟩
          · exact htime ⟨cmd, by rw [hline]; rfl, hn⟩
        exact stillShut_shutAt h hpre (handle_stays hc hpath hne h hT hpre hrun)
    · rcases swept_of_asks (asks_sweep cfg now ls) hrun path with he | he
      · exact hsame he
      · exact hnone he

theorem shut_entry (hc : hasPrefix "cosign=".toList c) (hpath : mkcookiepath none cfg.hashlen c maxPathLen = some path)
    (hstep : step cfg x.pre x.ev = some (x.res, x.post))
    (hclock : ∀ ses env line, x.ev = .command ses env line → T ≤ env.now) (hcross : ¬ Crosses cfg c x)
    (h : ShutAt cfg T x.pre path) : Denies cfg c x := by
  intro ses env line cmd ws n d hev hline hn hcon hres
  obtain ⟨d', hd', hrun⟩ := step_command hstep hev hline hn
  cases hres.symm.trans hd'
  refine shut_denies hc hpath h (hclock ses env line hev) hcon ?_ hrun
  rintro cmd' login ip w p rfl hav hp hb
  by_contra hne
  rw [hav] at hline
  cases hav
  exact hcross ⟨ses, env, line, cmd, login, ip, w, p, hev, hline, hn, hp, hb, hne⟩

end

/-- A session that was idle for too long is not heard of again, as long as no
`LOGIN` extends it before its file is gone. -/
theorem idle_session_stays_out {cfg : Config} {c path : Str} {s t : Store} {tr : List (Entry Store Event Outcome)}
    {T : Nat} {f : File} {ci : Cinfo} (hc : hasPrefix "cosign=".toList c)
    (hpath : mkcookiepath none cfg.hashlen c maxPathLen = some path) (hrun : Run cfg s tr t)
    (hf : s.get path = some f) (hread : parseCookie f = some (0, ci))
    (hidle : (T : Int) - f.mtime ≥ cfg.idleOutTime + cfg.greyTime) (hgrey : 0 ≤ cfg.greyTime)
    (hclock : ∀ y ∈ tr, ∀ ses env line, y.ev = .command ses env line → T ≤ env.now ∧ ¬ IsTime line)
    (hanew : ∀ y ∈ tr, ¬ Anew path y) (hext : ∀ y ∈ tr, ¬ Extends cfg path y) (hcross : ∀ y ∈ tr, ¬ Crosses cfg c y) :
    ∀ y ∈ tr, Denies cfg c y := by
  have hstart : ShutAt cfg T s path := by
    intro g hg
    cases hf.symm.trans hg
    refine ⟨.inr (by omega), ?_⟩
    by_contra hne
    obtain ⟨login, hl⟩ := Option.ne_none_iff_exists'.1 hne
    exact service_not_record hl ci hread
  have hinv := Trace.inv (fun u => ShutAt cfg T u path)
    (fun y => (∀ ses env line, y.ev = .command ses env line → T ≤ env.now ∧ ¬ IsTime line) ∧ ¬ Anew path y ∧
      ¬ Extends cfg path y)
    (fun y hstep hy h => shut_step hc hpath hstep hy.1 hy.2.1 hy.2.2 h) hrun hstart
    (fun y hy => ⟨hclock y hy, hanew y hy, hext y hy⟩)
  intro y hy
  exact shut_entry hc hpath (hrun.fired y hy) (fun ses env line hev => (hclock y hy ses env line hev).1)
    (hcross y hy) (hinv.2 y hy).1

/-! ## A session nobody looked at -/

/-- Two hours and a half after she was last seen, Ann adds a factor. -/
def annLate : Event := .command .cgi (.calm 9100) "LOGIN cosign=abc 10.0.0.1 ann token".toList

def annLateCheck (now : Nat) : Event := .command .cgi (.calm now) "CHECK cosign=abc".toList

theorem annLate_line {ses : Session} {env : Env} {line : Str} (h : annLate = .command ses env line) :
    env.now = 9100 ∧ (acavParse line).head? = some "LOGIN".toList := by
  obtain ⟨-, rfl, rfl⟩ := Event.command.inj h
  exact ⟨rfl, rfl⟩

theorem annLateCheck_line {ses : Session} {env : Env} {line : Str} {now : Nat}
    (h : annLateCheck now = .command ses env line) :
    env.now = now ∧ (acavParse line).head? = some "CHECK".toList := by
  obtain ⟨-, rfl, rfl⟩ := Event.command.inj h
  exact ⟨rfl, rfl⟩

theorem not_crosses {c : Str} {cfg : Config} {x : Entry Store Event Outcome} {w : Str}
    (h : ∀ ses env line, x.ev = .command ses env line → (acavParse line).head? = some w)
    (hn : findCommand w ≠ some .register) : ¬ Crosses cfg c x := by
  rintro ⟨ses, env, line, cmd, login, ip, w', p, hev, hline, hcmd, -⟩
  rw [head_word hline (h ses env line hev)] at hcmd
  exact hn hcmd

theorem not_time {line w : Str} (h : (acavParse line).head? = some w) (hn : findCommand w ≠ some .time) :
    ¬ IsTime line := by
  rintro ⟨w', hw, hn'⟩
  cases h.symm.trans hw
  exact hn hn'

theorem annThere_idle (now : Nat) (h : 9100 ≤ now) :
    (now : Int) - (100 : Nat) ≥ Config.default.idleOutTime + Config.default.greyTime := by
  have : Config.default.idleOutTime + Config.default.greyTime = 9000 := rfl
  omega

theorem annThere_reads : ∃ f ci, annThere.get "cosign=abc".toList = some f ∧ parseCookie f = some (0, ci) ∧
    f.mtime = 100 := ⟨_, _, rfl, rfl, rfl⟩

/-- The factor is stored, and the session answers again. -/
theorem annLate_run : ∃ o u d t, step .default annThere annLate = some (o, u) ∧
    step .default u (annLateCheck 9101) = some (.answered d, t) ∧ (u.get "cosign=abc".toList).isSome ∧ d.ok :=
  ⟨_, _, _, _, rfl, rfl, rfl, checkReply_ok _ _ _ _ (by decide)⟩

theorem login_revives_idle_session :
    ¬ ∀ (cfg : Config) (c path : Str) (s t : Store) (tr : List (Entry Store Event Outcome)) (T : Nat) (f : File)
      (ci : Cinfo), hasPrefix "cosign=".toList c → mkcookiepath none cfg.hashlen c maxPathLen = some path →
      Run cfg s tr t → s.get path = some f → parseCookie f = some (0, ci) →
      (T : Int) - f.mtime ≥ cfg.idleOutTime + cfg.greyTime → 0 ≤ cfg.greyTime →
      (∀ y ∈ tr, ∀ ses env line, y.ev = .command ses env line → T ≤ env.now ∧ ¬ IsTime line) →
      (∀ y ∈ tr, ¬ Anew path y) → (∀ y ∈ tr, ¬ Crosses cfg c y) → ∀ y ∈ tr, Denies cfg c y := by
  intro h
  obtain ⟨o, u, d, t, h1, h2, hu, hok⟩ := annLate_run
  obtain ⟨f, ci, hf, hread, htime⟩ := annThere_reads
  have hidle : (9100 : Int) - f.mtime ≥ Config.default.idleOutTime + Config.default.greyTime := by
    rw [htime]
    exact annThere_idle 9100 (Nat.le_refl _)
  have hcheck : acavParse "CHECK cosign=abc".toList = ["CHECK".toList, "cosign=abc".toList] := by decide
  refine h .default "cosign=abc".toList "cosign=abc".toList annThere t _ 9100 f ci (by decide) rfl
    (.cons h1 (.cons h2 (.nil _))) hf hread hidle (by decide) ?_ ?_ ?_ ⟨u, annLateCheck 9101, .answered d, t⟩
    (by simp) .cgi (.calm 9101) _ _ _ .check d rfl hcheck (by decide) (.self (.inl rfl)) rfl hok
  · simp only [List.forall_mem_cons]
    refine ⟨fun ses env line hev => ?_, fun ses env line hev => ?_, List.forall_mem_nil _⟩
    · obtain ⟨hnow, hline⟩ := annLate_line hev
      exact ⟨by omega, not_time hline (by decide)⟩
    · obtain ⟨hnow, hline⟩ := annLateCheck_line hev
      exact ⟨by omega, not_time hline (by decide)⟩
  · simp only [List.forall_mem_cons]
    refine ⟨fun ha => ?_, fun ha => ?_, List.forall_mem_nil _⟩
    · cases ha.1
    · have := ha.1
      dsimp only at this
      rw [this] at hu
      cases hu
  · simp only [List.forall_mem_cons]
    refine ⟨not_crosses (w := "LOGIN".toList) ?_ (by decide), not_crosses (w := "CHECK".toList) ?_ (by decide), List.forall_mem_nil _⟩
    · exact fun _ _ _ hev => (annLate_line hev).2
    · exact fun _ _ _ hev => (annLateCheck_line hev).2

/-- A `CHECK` that late is refused. -/
theorem annThere_stays_out : ∃ d t, step .default annThere (annLateCheck 9100) = some (.answered d, t) ∧ ¬ d.ok := by
  obtain ⟨d, t, h1⟩ : ∃ d t, step .default annThere (annLateCheck 9100) = some (.answered d, t) := ⟨_, _, rfl⟩
  obtain ⟨f, ci, hf, hread, htime⟩ := annThere_reads
  have hidle : ((9100 : Nat) : Int) - f.mtime ≥ Config.default.idleOutTime + Config.default.greyTime := by
    rw [htime]
    exact annThere_idle 9100 (Nat.le_refl _)
  have hcheck : acavParse "CHECK cosign=abc".toList = ["CHECK".toList, "cosign=abc".toList] := by decide
  refine ⟨d, t, h1, idle_session_stays_out (c := "cosign=abc".toList) (by decide) rfl (.cons h1 (.nil _)) hf hread hidle
    (by decide) ?_ ?_ ?_ ?_ _ List.mem_cons_self .cgi (.calm 9100) _ _ _ .check d rfl hcheck (by decide)
    (.self (.inl rfl)) rfl⟩
  · rw [List.forall_mem_singleton]
    intro ses env line hev
    obtain ⟨hnow, hline⟩ := annLateCheck_line hev
    exact ⟨Nat.le_of_eq hnow.symm, not_time hline (by decide)⟩
  · rw [List.forall_mem_singleton]
    rintro ⟨hnone, -⟩
    exact absurd (hf.symm.trans hnone) (Option.some_ne_none _)
  · rw [List.forall_mem_singleton]
    rintro ⟨ses, env, line, a, ci', text, already, hev, ⟨w, hw, hn⟩, -⟩
    cases (annLateCheck_line hev).2.symm.trans hw
    exact absurd hn (by decide)
  · rw [List.forall_mem_singleton]
    exact not_crosses (w := "CHECK".toList) (fun _ _ _ hev => (annLateCheck_line hev).2) (by decide)

end Cosign
