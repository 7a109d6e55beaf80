import Cosign.Daemon.Access
import Cosign.Daemon.Finality
/-!
# What a host of each role can change

Every handler tests the role of its client by hand. A host that is NOTAUTH is
refused by all that write; a SERVICE is let into `CHECK`, `REKEY` and `RETR`,
and `ServiceChange` lists what these do to the file under one path.
-/

namespace Cosign

open Lib Relation

/-- Every command of the run comes from a host of this role. -/
def KeyRun (key : Key) (tr : List (Entry Store Event Outcome)) : Prop :=
  ∀ x ∈ tr, ∃ ses env line, x.ev = .command ses env line ∧ ses.al.key = key

/-- A `REKEY` does not draw a name that is in use. -/
def DrawsFresh (cfg : Config) (x : Entry Store Event Outcome) : Prop :=
  ∀ ses env line cmd cookie rest rcookie npath, x.ev = .command ses env line →
    acavParse line = cmd :: cookie :: rest → findCommand cmd = some .rekey →
    rekeyCookie cfg env cookie = .ok (rcookie, npath) → x.pre.get npath = none

/-- What a command of a service does to the file at `p`. -/
inductive ServiceChange (cfg : Config) (ses : Session) (env : Env) (line : Str) (s t : Store) (p : Str) : Prop where
  | same : t.get p = s.get p → ServiceChange cfg ses env line s t p
  /-- A login cookie in use. -/
  | used {f : File} {ci : Cinfo} : s.get p = some f → parseCookie f = some (0, ci) →
      t.get p = some { f with mtime := env.now } → ServiceChange cfg ses env line s t p
  | idled {f : File} : Idle cfg env s p f → t.get p = some { f with isgid := true, mtime := env.now } →
      ServiceChange cfg ses env line s t p
  /-- The presented service cookie has a new name. -/
  | rekeyed {cookie scpath rcookie npath lpath : Str} {f : File} :
      MovesCookie cfg ses env line s t cookie scpath rcookie npath lpath f →
      resolve p = resolve scpath ∨ resolve p = resolve npath → ServiceChange cfg ses env line s t p
  /-- A service cookie for a name of the client's own proxy list, bound to the
  login cookie of the one it presented. -/
  | registered {cmd cookie spath login value path : Str} {proxy : Proxies} :
      acavParse line = [cmd, cookie, "cookies".toList] → findCommand cmd = some .retr →
      mkcookiepath none cfg.hashlen cookie maxPathLen = some spath → s.binding spath = some login →
      proxy ∈ ses.al.proxies →
      mkcookiepath none cfg.hashlen (proxy.cookie ++ '=' :: value) maxPathLen = some path → resolve p = resolve path →
      s.get p = none → t.get p = some ⟨fieldLine 'l' login, false, env.now⟩ → ServiceChange cfg ses env line s t p

/-! ## Refused commands -/

theorem handle_not_cgi {cfg : Config} {ses : Session} {env : Env} {av : List Str} {c : CommandName} {s t : Store}
    {d : Done} (hkey : ses.al.key ≠ .cgi) (hc : c ≠ .check ∧ c ≠ .rekey ∧ c ≠ .retr)
    (h : Prog.run exec (handle cfg ses env av c) s = some (d, t)) : t = s := by
  have hrefused : ∀ {code : Nat} {text : Str} {p : Handler Done},
      Prog.run exec (if ses.al.key ≠ .cgi then reply 1 code text else p) s = some (d, t) → t = s := by
    intro code text p h
    rw [if_pos hkey] at h
    cases h
    rfl
  cases c with
  | login =>
    rw [handle] at h
    unfold fLogin at h
    exact hrefused h
  | logout =>
    rw [handle] at h
    unfold fLogout at h
    exact hrefused h
  | register =>
    rw [handle] at h
    unfold fRegister at h
    exact hrefused h
  | time =>
    rw [handle] at h
    unfold fTime at h
    exact hrefused h
  | daemon =>
    rw [handle] at h
    unfold fDaemon at h
    exact hrefused h
  | check => exact absurd rfl hc.1
  | rekey => exact absurd rfl hc.2.1
  | retr => exact absurd rfl hc.2.2
  | noop => cases h; rfl
  | quit => cases h; rfl
  | help => cases h; rfl
  | starttls => cases h; rfl

theorem handle_no_role {cfg : Config} {ses : Session} {env : Env} {av : List Str} {c : CommandName} {s t : Store}
    {d : Done} (hkey : ses.al.key ≠ .cgi ∧ ses.al.key ≠ .service)
    (h : Prog.run exec (handle cfg ses env av c) s = some (d, t)) : t = s := by
  have hcheck : Prog.run exec (fCheck cfg ses env av) s = some (d, t) → t = s := by
    intro h
    unfold fCheck at h
    split at h
    · cases h
    · rw [if_pos hkey] at h
      cases h
      rfl
  by_cases hc : c ≠ .check ∧ c ≠ .rekey ∧ c ≠ .retr
  · exact handle_not_cgi hkey.1 hc h
  cases c with
  | check => exact hcheck h
  | rekey => exact hcheck h
  | retr =>
    rw [handle] at h
    unfold fRetr at h
    rw [if_pos hkey] at h
    cases h
    rfl
  | _ => exact absurd (by decide) hc

/-- A host that is neither a CGI nor a SERVICE changes nothing. -/
theorem command_no_role {cfg : Config} {ses : Session} {env : Env} {line : Str} {s t : Store} {d : Done}
    (hkey : ses.al.key ≠ .cgi ∧ ses.al.key ≠ .service)
    (h : Prog.run exec (command cfg ses env line) s = some (d, t)) : t = s := by
  unfold command at h
  split at h
  · cases h; rfl
  · split at h
    · cases h; rfl
    · exact handle_no_role hkey h

/-! ## `CHECK` and `REKEY` -/

section
variable {cfg : Config} {ses : Session} {env : Env} {line : Str} {s t : Store} {p : Str}

/-- Touching a session's file is the only change. -/
theorem touched_cases {lpath : Str} {ci : Cinfo} (hlive : Live cfg env s lpath ci) (p : Str) :
    (s.touched lpath env.now).get p = s.get p ∨ ∃ f, s.get p = some f ∧ parseCookie f = some (0, ci) ∧
      (s.touched lpath env.now).get p = some { f with mtime := env.now } := by
  obtain ⟨-, f, hf, hparse⟩ := opened_file hlive.read
  by_cases he : resolve p = resolve lpath
  · refine .inr ⟨f, ?_, hparse, ?_⟩
    · rw [get_congr he, hf]
    · rw [get_congr he, Store.touched]
      simp only [exec, hf, Store.put_get]
  · exact .inl (touched_other he)

theorem touched_change {lpath : Str} {ci : Cinfo} (hlive : Live cfg env s lpath ci) (p : Str) :
    ServiceChange cfg ses env line s (s.touched lpath env.now) p := by
  rcases touched_cases hlive p with hsame | ⟨f, hf, hparse, hnew⟩
  · exact .same hsame
  · exact .used hf hparse hnew

theorem refusal_change {lpath : Str} (h : Refusal cfg env s lpath t) (p : Str) : ServiceChange cfg ses env line s t p := by
  rcases h with rfl | ⟨f, hidle, rfl⟩
  · exact .same rfl
  by_cases he : resolve p = resolve lpath
  · refine .idled (f := f) ⟨?_, ?_, hidle.idle⟩ ?_
    · rw [get_congr he, hidle.file]
    · obtain ⟨ci, hread, hst⟩ := hidle.read
      refine ⟨ci, ?_, hst⟩
      rw [← hread]
      simp only [Store.opened, Store.cookie, get_congr he]
    · rw [get_congr he, Store.marked, Store.put_get]
  · exact .same (Store.put_get_ne s he _)

theorem moved_change {cookie scpath rcookie npath lpath : Str} {f : File} {ci : Cinfo}
    (hm : MovesCookie cfg ses env line s t cookie scpath rcookie npath lpath f) (hlive : Live cfg env s lpath ci)
    (p : Str) : ServiceChange cfg ses env line s t p := by
  by_cases hn : resolve p = resolve npath
  · exact .rekeyed hm (.inr hn)
  by_cases hs : resolve p = resolve scpath
  · exact .rekeyed hm (.inl hs)
  have hget : t.get p = (s.touched lpath env.now).get p := by
    rw [hm.post, moved_get, if_neg hn, if_neg hs]
  rcases touched_cases hlive p with hsame | ⟨g, hg, hparse, hnew⟩
  · exact .same (hget.trans hsame)
  · exact .used hg hparse (hget.trans hnew)

/-- What `CHECK` and `REKEY` do, for any client that is let in. -/
theorem fCheck_change {c : CommandName} {word : Str} {ws : List Str} {d : Done} (hline : acavParse line = word :: ws)
    (hcmd : findCommand word = some c) (hc : c = .check ∨ c = .rekey)
    (h : Prog.run exec (fCheck cfg ses env (word :: ws)) s = some (d, t)) (p : Str) :
    ServiceChange cfg ses env line s t p := by
  rcases fCheck_cases h with ⟨rfl, -⟩ | ⟨cmd, cookie, rest, lpath, status, sc, hav, htarget, hlogin⟩
  · exact .same rfl
  cases hav
  rcases checkLogin_cases hlogin with ⟨-, hr⟩ |
    ⟨ci, hlive, ⟨-, rfl, -⟩ | ⟨-, -, rfl⟩ | ⟨scpath, rcookie, npath, f, rfl, hr, rfl, -⟩⟩
  · exact refusal_change hr p
  · exact touched_change hlive p
  · exact touched_change hlive p
  · have hrekey : findCommand word = some .rekey := by
      rcases hc with rfl | rfl
      · cases htarget with
        | rekey _ _ _ _ _ hre => rw [check_not_rekey hcmd, Bool.and_false] at hre; cases hre
      · exact hcmd
    have hst : status = 233 := by cases htarget; rfl
    subst hst
    exact moved_change ⟨⟨word, rest, hline, hrekey, htarget⟩, hr, rfl⟩ hlive p

/-! ## `RETR` -/

/-- What registering for names of a list has done to the file at `p` so far. -/
def Proxied (cfg : Config) (env : Env) (proxies : List Proxies) (login lpath : Str) (s u : Store) (p : Str) : Prop :=
  u.get p = s.get p ∨
    (resolve p = resolve lpath ∧ ∃ f ci, s.get p = some f ∧ parseCookie f = some (0, ci) ∧
      u.get p = some { f with mtime := env.now }) ∨
    ∃ proxy value path, proxy ∈ proxies ∧ mkcookiepath none cfg.hashlen (proxy.cookie ++ '=' :: value) maxPathLen = some path ∧
      resolve p = resolve path ∧ s.get p = none ∧ u.get p = some ⟨fieldLine 'l' login, false, env.now⟩

theorem proxied_touched {proxies : List Proxies} {login lpath : Str} {u : Store} {f : File} {ci : Cinfo}
    (hf : s.get lpath = some f) (hparse : parseCookie f = some (0, ci))
    (h : ∀ p, Proxied cfg env proxies login lpath s u p) (p : Str) :
    Proxied cfg env proxies login lpath s (u.touched lpath env.now) p := by
  by_cases he : resolve p = resolve lpath
  · have hsp : s.get p = some f := (get_congr he).trans hf
    refine .inr (.inl ⟨he, f, ci, hsp, hparse, ?_⟩)
    have hu : ∃ m, u.get lpath = some { f with mtime := m } := by
      rcases h lpath with hs | ⟨-, g, ci', hg, -, hu⟩ | ⟨_, _, _, -, -, -, hn, -⟩
      · exact ⟨f.mtime, hs.trans hf⟩
      · cases hf.symm.trans hg
        exact ⟨env.now, hu⟩
      · rw [hf] at hn
        cases hn
    obtain ⟨m, hu⟩ := hu
    rw [get_congr he, Store.touched]
    simp only [exec, hu, Store.put_get]
  · have hget : (u.touched lpath env.now).get p = u.get p := touched_other he
    rcases h p with hs | ⟨hl, -⟩ | ⟨proxy, value, path, h1, h2, h3, h4, h5⟩
    · exact .inl (hget.trans hs)
    · exact absurd hl he
    · exact .inr (.inr ⟨proxy, value, path, h1, h2, h3, h4, hget.trans h5⟩)

theorem proxied_bound {proxies : List Proxies} {login lpath spath value : Str} {u : Store} {proxy : Proxies}
    (hp : proxy ∈ proxies) (hpath : mkcookiepath none cfg.hashlen (proxy.cookie ++ '=' :: value) maxPathLen = some spath)
    (hn : u.get spath = none) (h : ∀ p, Proxied cfg env proxies login lpath s u p) (p : Str) :
    Proxied cfg env proxies login lpath s (u.bound spath login env.now) p := by
  by_cases he : resolve p = resolve spath
  · refine .inr (.inr ⟨proxy, value, spath, hp, hpath, he, ?_, ?_⟩)
    · have hnp : u.get p = none := (get_congr he).trans hn
      rcases h p with hs | ⟨-, _, _, -, -, hu⟩ | ⟨_, _, _, -, -, -, -, hu⟩
      · exact hs.symm.trans hnp
      · rw [hnp] at hu
        cases hu
      · rw [hnp] at hu
        cases hu
    · rw [get_congr he, Store.bound, Store.put_get]
  · have hget : (u.bound spath login env.now).get p = u.get p := Store.put_get_ne u he _
    rcases h p with hs | ⟨hl, f, ci, hf, hc, hu⟩ | ⟨proxy', value', path, h1, h2, h3, h4, h5⟩
    · exact .inl (hget.trans hs)
    · exact .inr (.inl ⟨hl, f, ci, hf, hc, hget.trans hu⟩)
    · exact .inr (.inr ⟨proxy', value', path, h1, h2, h3, h4, hget.trans h5⟩)

theorem proxied_run {proxies : List Proxies} {login lpath : Str} {f : File} {ci : Cinfo}
    (hl : mkcookiepath none cfg.hashlen login maxPathLen = some lpath) (hf : s.get lpath = some f)
    (hparse : parseCookie f = some (0, ci)) (h : ReflTransGen (ProxyStep cfg env proxies login) s t) (p : Str) :
    Proxied cfg env proxies login lpath s t p := by
  induction h generalizing p with
  | refl => exact .inl rfl
  | tail _ hstep ih =>
    obtain ⟨i, proxy, value, lp, spath, rc, hp, hpath, hlp, hreg⟩ := hstep
    cases hl.symm.trans hlp
    rcases doRegister_cases hreg with ⟨-, rfl, -⟩ | ⟨-, rfl⟩ | ⟨-, hn, -, -, rfl⟩ | ⟨-, hn, -, -, rfl⟩
    · exact ih p
    · exact ih p
    · exact proxied_bound hp hpath hn ih p
    · exact proxied_touched hf hparse (proxied_bound hp hpath hn ih) p

theorem fRetr_change {word : Str} {ws : List Str} {d : Done} (hline : acavParse line = word :: ws)
    (hcmd : findCommand word = some .retr) (h : Prog.run exec (fRetr cfg ses env (word :: ws)) s = some (d, t)) (p : Str) :
    ServiceChange cfg ses env line s t p := by
  rcases fRetr_split h with ⟨-, rfl | ⟨_, _, _, _, _, _, -, -, -, -, hr⟩⟩ |
    ⟨cmd, cookie, kind, spath, login, lpath, sl, ci, hav, hret, hend⟩
  · exact .same rfl
  · exact refusal_change hr p
  rcases hend with ⟨rfl, -⟩ | ⟨rfl, hsteps⟩
  · exact .same rfl
  cases hav
  obtain ⟨-, f, hf, hparse⟩ := opened_file hret.live.read
  rcases proxied_run hret.lfile hf hparse hsteps p with hs | ⟨-, g, ci', hg, hp, ht⟩ | ⟨proxy, value, path, h1, h2, h3, h4, h5⟩
  · exact .same hs
  · exact .used hg hp ht
  · exact .registered hline hcmd hret.sfile (binding_of_service hret.service) h1 h2 h3 h4 h5

/-- What a command of a service does, whatever it is. -/
theorem command_change {d : Done} (hkey : ses.al.key = .service)
    (h : Prog.run exec (command cfg ses env line) s = some (d, t)) (p : Str) : ServiceChange cfg ses env line s t p := by
  have hcgi : ses.al.key ≠ .cgi := by rw [hkey]; decide
  unfold command at h
  split at h
  · cases h
    exact .same rfl
  rename_i word ws hline
  split at h
  · cases h
    exact .same rfl
  rename_i c hc
  by_cases hother : c ≠ .check ∧ c ≠ .rekey ∧ c ≠ .retr
  · exact .same (by rw [handle_not_cgi hcgi hother h])
  cases c with
  | check => exact fCheck_change hline hc (.inl rfl) h p
  | rekey => exact fCheck_change hline hc (.inr rfl) h p
  | retr => exact fRetr_change hline hc h p
  | _ => exact absurd (by decide) hother

/-! ## Login cookies -/

/-- The file is a login cookie's. -/
def IsRecord (f : File) : Prop := ∃ ci, parseCookie f = some (0, ci)

theorem isRecord_text {f g : File} (h : g.text = f.text) (hf : IsRecord f) : IsRecord g := by
  obtain ⟨text, i, m⟩ := f
  obtain ⟨text', i', m'⟩ := g
  cases h
  obtain ⟨ci, hci⟩ := hf
  exact ⟨_, parseCookie_ok_stat hci i' m'⟩

/-- What a `REKEY` moves is a service cookie. -/
theorem moves_binding {cookie scpath rcookie npath lpath : Str} {f : File}
    (hm : MovesCookie cfg ses env line s t cookie scpath rcookie npath lpath f) :
    ∃ login, s.binding scpath = some login ∧ parseService f.text = some login := by
  obtain ⟨cmd, rest, -, -, htarget⟩ := hm.line
  cases htarget with
  | @rekey _ login _ _ _ hs =>
    have hb := binding_of_service hs
    have htb := (touched_binding s lpath env.now scpath).trans hb
    rw [Store.binding, hm.moves.file, Option.bind_some] at htb
    exact ⟨login, hb, htb⟩

theorem binding_not_record {login : Str} {f : File} (hb : s.binding p = some login) (hf : s.get p = some f) :
    ¬ IsRecord f := by
  rintro ⟨ci, hci⟩
  rw [Store.binding, hf, Option.bind_some] at hb
  exact service_not_record hb ci hci

/-- A login cookie that is there after a command was there before. -/
theorem change_made (h : ServiceChange cfg ses env line s t p) {g : File} (hg : t.get p = some g) (hr : IsRecord g) :
    ∃ f, s.get p = some f ∧ g.text = f.text := by
  cases h with
  | same h => exact ⟨g, h.symm.trans hg, rfl⟩
  | used hf _ ht =>
    cases ht.symm.trans hg
    exact ⟨_, hf, rfl⟩
  | idled hidle ht =>
    cases ht.symm.trans hg
    exact ⟨_, hidle.file, rfl⟩
  | @rekeyed cookie scpath rcookie npath lpath f hm hp =>
    obtain ⟨login, -, hl⟩ := moves_binding hm
    obtain ⟨ci, hci⟩ := hr
    rw [hm.post, moved_get] at hg
    split at hg
    · cases hg
      exact absurd hci (service_not_record hl ci)
    · rename_i hn
      rw [if_pos (hp.resolve_right hn)] at hg
      cases hg
  | registered _ _ h3 _ _ _ _ _ ht =>
    cases ht.symm.trans hg
    obtain ⟨ci, hci⟩ := hr
    exact absurd hci (head_not_record rfl ci)

/-- A login cookie is kept by a command that draws no name in use. -/
theorem change_kept (hfresh : ∀ cmd cookie rest rcookie npath, acavParse line = cmd :: cookie :: rest →
      findCommand cmd = some .rekey → rekeyCookie cfg env cookie = .ok (rcookie, npath) → s.get npath = none)
    (h : ServiceChange cfg ses env line s t p) {f : File} (hf : s.get p = some f) (hr : IsRecord f) :
    ∃ g, t.get p = some g ∧ Kept f g := by
  cases h with
  | same h => exact ⟨f, h.trans hf, Kept.refl f⟩
  | used hf' _ ht =>
    cases hf.symm.trans hf'
    exact ⟨_, ht, rfl, id⟩
  | idled hidle ht =>
    cases hf.symm.trans hidle.file
    exact ⟨_, ht, rfl, fun _ => rfl⟩
  | @rekeyed cookie scpath rcookie npath lpath f' hm hp =>
    obtain ⟨login, hb, -⟩ := moves_binding hm
    rcases hp with hp | hp
    · rw [get_congr hp] at hf
      exact absurd hr (binding_not_record hb hf)
    · obtain ⟨cmd, rest, hline, hcmd, -⟩ := hm.line
      rw [get_congr hp, hfresh cmd cookie rest rcookie npath hline hcmd hm.moves.named] at hf
      cases hf
  | registered _ _ _ _ _ _ _ hn _ =>
    rw [hn] at hf
    cases hf

/-! ## Service cookies -/

/-- A service cookie stays as it is, or has a new name. -/
theorem change_binding (hfresh : ∀ cmd cookie rest rcookie npath, acavParse line = cmd :: cookie :: rest →
      findCommand cmd = some .rekey → rekeyCookie cfg env cookie = .ok (rcookie, npath) → s.get npath = none)
    (h : ServiceChange cfg ses env line s t p) {c login : Str}
    (hpath : mkcookiepath none cfg.hashlen c maxPathLen = some p) (hb : s.binding p = some login) :
    t.binding p = some login ∨ ∃ c' npath cookie rcookie lpath f,
      mkcookiepath none cfg.hashlen c' maxPathLen = some npath ∧
        MovesCookie cfg ses env line s t cookie p rcookie npath lpath f ∧ t.get p = none ∧
        t.binding npath = some login := by
  obtain ⟨f, hf, hl⟩ := Option.bind_eq_some_iff.1 hb
  have hkept : ∀ g : File, t.get p = some g → g.text = f.text → t.binding p = some login := by
    intro g hg ht
    rw [Store.binding, hg, Option.bind_some, ht, hl]
  cases h with
  | same h => exact .inl (hkept f (h.trans hf) rfl)
  | used hf' _ ht =>
    cases hf.symm.trans hf'
    exact .inl (hkept _ ht rfl)
  | idled hidle ht =>
    cases hf.symm.trans hidle.file
    exact .inl (hkept _ ht rfl)
  | @rekeyed cookie scpath rcookie npath lpath f' hm hp =>
    obtain ⟨cmd, rest, hline, hcmd, htarget⟩ := hm.line
    have hnone := hfresh cmd cookie rest rcookie npath hline hcmd hm.moves.named
    have hne : resolve p ≠ resolve npath := by
      intro he
      rw [get_congr he, hnone] at hf
      cases hf
    have he := hp.resolve_right hne
    have hsc : scpath = p := by
      cases htarget with
      | rekey _ _ hsc =>
        have hcc := resolve_inj hpath hsc he
        rw [← hcc, hpath] at hsc
        exact (Option.some.inj hsc).symm
    subst hsc
    obtain ⟨login', hb', hl'⟩ := moves_binding hm
    cases hb.symm.trans hb'
    refine .inr ⟨rcookie, npath, cookie, rcookie, lpath, f', (rekeyCookie_name hm.moves.named).2, hm, ?_, ?_⟩
    · rw [hm.post, moved_get, if_neg hne, if_pos rfl]
    · rw [hm.post, Store.binding, moved_get, if_pos rfl, Option.bind_some, hl']
  | registered _ _ _ _ _ _ _ hn _ =>
    rw [hn] at hf
    cases hf

end

/-! ## Runs -/

/-- What a run of a service's commands leaves of the cookies, if none of them
draws a name in use: every login cookie with its content, and every service
cookie with its binding, under the name its last `REKEY` gave it. -/
structure Spared (cfg : Config) (s t : Store) (tr : List (Entry Store Event Outcome)) : Prop where
  login : ∀ p f, s.get p = some f → IsRecord f → ∃ g, t.get p = some g ∧ Kept f g
  service : ∀ c path login, mkcookiepath none cfg.hashlen c maxPathLen = some path → s.binding path = some login →
    ∃ q, Fate cfg login path tr (some q) ∧ t.binding q = some login

theorem service_step {cfg : Config} {x : Entry Store Event Outcome} (hstep : step cfg x.pre x.ev = some (x.res, x.post))
    (hx : ∃ ses env line, x.ev = .command ses env line ∧ ses.al.key = .service) :
    ∃ ses env line, x.ev = .command ses env line ∧ ses.al.key = .service ∧
      ∀ p, ServiceChange cfg ses env line x.pre x.post p := by
  obtain ⟨ses, env, line, hev, hkey⟩ := hx
  rw [hev] at hstep
  obtain ⟨⟨d, u⟩, hrun, he⟩ := Option.map_eq_some_iff.1 hstep
  obtain ⟨-, rfl⟩ := Prod.mk.inj he
  exact ⟨ses, env, line, hev, hkey, command_change hkey hrun⟩

theorem service_made {cfg : Config} {s t : Store} {tr : List (Entry Store Event Outcome)} (hrun : Run cfg s tr t)
    (hkey : KeyRun .service tr) {p : Str} {g : File} (hg : t.get p = some g) (hr : IsRecord g) :
    ∃ f, s.get p = some f ∧ g.text = f.text := by
  induction hrun with
  | nil s => exact ⟨g, hg, rfl⟩
  | @cons s e r s' tr t he _ ih =>
    obtain ⟨f, hf, hgf⟩ := ih (fun y hy => hkey y (List.mem_cons_of_mem _ hy)) hg
    obtain ⟨_, _, _, -, -, hchange⟩ := service_step (x := ⟨s, e, r, s'⟩) he (hkey _ List.mem_cons_self)
    obtain ⟨f', hf', hff⟩ := change_made (hchange p) hf (isRecord_text hgf.symm hr)
    exact ⟨f', hf', hgf.trans hff⟩

theorem spared_run {cfg : Config} {s t : Store} {tr : List (Entry Store Event Outcome)} (hrun : Run cfg s tr t)
    (hkey : KeyRun .service tr) (hfresh : ∀ x ∈ tr, DrawsFresh cfg x) : Spared cfg s t tr := by
  induction hrun with
  | nil s =>
    refine ⟨fun p f hf _ => ⟨f, hf, Kept.refl f⟩, ?_⟩
    intro c path login _ hb
    exact ⟨path, .here path, hb⟩
  | @cons s e r s' tr t he _ ih =>
    have hrest := ih (fun y hy => hkey y (List.mem_cons_of_mem _ hy)) fun y hy => hfresh y (List.mem_cons_of_mem _ hy)
    obtain ⟨ses, env, line, hev, -, hchange⟩ := service_step (x := ⟨s, e, r, s'⟩) he (hkey _ List.mem_cons_self)
    have hnew : ∀ cmd cookie rest rcookie npath, acavParse line = cmd :: cookie :: rest →
        findCommand cmd = some .rekey → rekeyCookie cfg env cookie = .ok (rcookie, npath) → s.get npath = none :=
      fun cmd cookie rest rcookie npath => hfresh _ List.mem_cons_self ses env line cmd cookie rest rcookie npath hev
    constructor
    · intro p f hf hr
      obtain ⟨g, hg, hfg⟩ := change_kept hnew (hchange p) hf hr
      obtain ⟨k, hk, hgk⟩ := hrest.login p g hg (isRecord_text hfg.1 hr)
      exact ⟨k, hk, hfg.trans hgk⟩
    · intro c path login hpath hb
      rcases change_binding hnew (hchange path) hpath hb with
        hstay | ⟨c', npath, cookie, rcookie, lpath, f, hnpath, hm, hgone, hmoved⟩
      · obtain ⟨q, hq, htq⟩ := hrest.service c path login hpath hstay
        exact ⟨q, .stays hstay hq, htq⟩
      · obtain ⟨q, hq, htq⟩ := hrest.service c' npath login hnpath hmoved
        exact ⟨q, .moved ⟨ses, env, line, cookie, rcookie, lpath, f, hev, hm⟩ hgone hmoved hq, htq⟩

/-- A run of a host that is NOTAUTH changes nothing. A run of a service changes
files in the ways of `ServiceChange` only, makes no login cookie, and spares
those that are there, and the service cookies, unless a `REKEY` draws a name in
use. -/
theorem role_separation {cfg : Config} {s t : Store} {tr : List (Entry Store Event Outcome)} (hrun : Run cfg s tr t) :
    (KeyRun .notauth tr → t = s) ∧
      (KeyRun .service tr →
        (∀ x ∈ tr, ∃ ses env line, x.ev = .command ses env line ∧ ses.al.key = .service ∧
          ∀ p, ServiceChange cfg ses env line x.pre x.post p) ∧
        (∀ p g, t.get p = some g → IsRecord g → ∃ f, s.get p = some f ∧ g.text = f.text) ∧
        ((∀ x ∈ tr, DrawsFresh cfg x) → Spared cfg s t tr)) := by
  refine ⟨?_, fun hkey => ⟨fun x hx => service_step (hrun.fired x hx) (hkey x hx), ?_, spared_run hrun hkey⟩⟩
  · intro hkey
    have hstep : ∀ x : Entry Store Event Outcome, step cfg x.pre x.ev = some (x.res, x.post) →
        (∃ ses env line, x.ev = .command ses env line ∧ ses.al.key = .notauth) → x.pre = s → x.post = s := by
      rintro x hx ⟨ses, env, line, hev, hk⟩ hpre
      rw [hev] at hx
      obtain ⟨⟨d, u⟩, hr, he⟩ := Option.map_eq_some_iff.1 hx
      obtain ⟨-, rfl⟩ := Prod.mk.inj he
      exact (command_no_role (by rw [hk]; decide) hr).trans hpre
    exact (hrun.inv (fun u => u = s) _ hstep rfl hkey).1
  · intro p g hg hr
    exact service_made hrun hkey hg hr

/-! ## A name drawn twice -/

def drawnCookie : Str := "cosign-wiki=".toList ++ List.replicate 124 'A'

/-- Ann's session and service cookie, and Eve's under the name that `REKEY` will
draw. -/
def drawnStore : Store := .ofFiles [
  ("cosign=abc".toList, ⟨recordText "10.0.0.1".toList "10.0.0.1".toList "ann".toList ["umich".toList] 100 none, false, 100⟩),
  ("cosign-wiki=xyz".toList, ⟨fieldLine 'l' "cosign=abc".toList, false, 100⟩),
  (drawnCookie, ⟨fieldLine 'l' "cosign=eve".toList, false, 100⟩)]

def drawnRekey : Event := .command wikiSession (.calm 200) "REKEY cosign-wiki=xyz".toList

set_option maxRecDepth 4000 in
theorem drawn_step : ∃ out t, step wikiConfig drawnStore drawnRekey = some (out, t) ∧
    t.binding drawnCookie = some "cosign=abc".toList := ⟨_, _, rfl, rfl⟩

/-- Then Eve's service cookie is bound to Ann's login. -/
theorem drawn_rebound : ¬ ∀ (cfg : Config) (s t : Store) (tr : List (Entry Store Event Outcome)), Run cfg s tr t →
    KeyRun .service tr → Spared cfg s t tr := by
  intro h
  obtain ⟨out, t, hstep, hpost⟩ := drawn_step
  have hkey : KeyRun .service [⟨drawnStore, drawnRekey, out, t⟩] := by
    intro x hx
    rw [List.mem_singleton.1 hx]
    exact ⟨wikiSession, .calm 200, _, rfl, rfl⟩
  have hsp := h wikiConfig drawnStore t _ (.cons hstep (.nil t)) hkey
  have hpath : mkcookiepath none wikiConfig.hashlen drawnCookie maxPathLen = some drawnCookie := by decide +kernel
  have hbound : drawnStore.binding drawnCookie = some "cosign=eve".toList := by decide +kernel
  have hne : some "cosign=abc".toList ≠ some "cosign=eve".toList := by decide
  obtain ⟨q, hfate, -⟩ := hsp.service drawnCookie drawnCookie "cosign=eve".toList hpath hbound
  cases hfate with
  | stays hb _ => exact hne (hpost.symm.trans hb)
  | moved hm _ _ _ =>
    obtain ⟨ses, env, line, cookie, rcookie, lpath, f, hev, hm⟩ := hm
    cases hev
    obtain ⟨cmd, rest, hline, -, htarget⟩ := hm.line
    have hw : acavParse "REKEY cosign-wiki=xyz".toList = ["REKEY".toList, "cosign-wiki=xyz".toList] := by decide
    cases hw.symm.trans hline
    cases htarget with
    | rekey _ _ hsc =>
      have hc := (mkcookiepath_spec hsc).1
      exact absurd hc (by decide +kernel)

/-- The run of one `CHECK` by a service. -/
theorem wiki_separation : ∃ t out, (∀ p, ServiceChange wikiConfig wikiSession (.calm 200) "CHECK cosign-wiki=xyz".toList
    wikiStore t p) ∧ Spared wikiConfig wikiStore t
      [⟨wikiStore, .command wikiSession (.calm 200) "CHECK cosign-wiki=xyz".toList, out, t⟩] := by
  have hstep : step wikiConfig wikiStore (.command wikiSession (.calm 200) "CHECK cosign-wiki=xyz".toList) =
      some (.answered wikiChecked, wikiStore.touched "cosign=abc".toList 200) := by
    rw [step, wiki_checks]
    rfl
  refine ⟨wikiStore.touched "cosign=abc".toList 200, .answered wikiChecked, ?_⟩
  have hkey : KeyRun .service [⟨wikiStore, .command wikiSession (.calm 200) "CHECK cosign-wiki=xyz".toList,
      .answered wikiChecked, wikiStore.touched "cosign=abc".toList 200⟩] := by
    intro x hx
    rw [List.mem_singleton.1 hx]
    exact ⟨wikiSession, .calm 200, _, rfl, rfl⟩
  obtain ⟨hall, -, hsp⟩ := (role_separation (.cons hstep (.nil _))).2 hkey
  constructor
  · obtain ⟨ses, env, line, hev, -, hch⟩ := hall _ List.mem_cons_self
    cases hev
    exact hch
  · refine hsp ?_
    intro x hx ses env line cmd cookie rest rcookie npath hev hline hcmd
    rw [List.mem_singleton.1 hx] at hev
    cases hev
    have hw : acavParse "CHECK cosign-wiki=xyz".toList = ["CHECK".toList, "cosign-wiki=xyz".toList] := by decide
    cases hw.symm.trans hline
    exact absurd hcmd (by decide)

end Cosign
