import Cosign.Daemon.Collect
import Cosign.Daemon.Finality
/-!
# After a logout

A logout sets a mark that nothing takes off again, and a sweep that deletes
the marked cookie takes every service cookie that names it along. So no
service cookie from before the logout ever meets a login cookie of that name
that is made later.
-/

namespace Cosign

open Lib

/-- What is there of a login cookie is its marked record. -/
def MarkedAt (s : Store) (path : Str) : Prop := ∀ f, s.get path = some f → f.isgid = true ∧ parseService f.text = none

theorem MarkedAt.shut {cfg : Config} {s : Store} {path : Str} (h : MarkedAt s path) : ShutAt cfg 0 s path :=
  fun f hf => ⟨.inl (h f hf).1, (h f hf).2⟩

/-- A `LOGOUT` of the cookie is answered 210, or another event marks it. -/
def LogsOut (c path : Str) (x : Entry Store Event Outcome) : Prop :=
  (∃ ses env line cmd ws d, x.ev = .command ses env line ∧ acavParse line = cmd :: c :: ws ∧
      findCommand cmd = some .logout ∧ x.res = .answered d ∧ d.answers 210) ∨
    ∃ f g ci, x.pre.get path = some f ∧ f.isgid = false ∧ x.post.get path = some g ∧ g.isgid = true ∧
      parseCookie g = some (0, ci)

/-- The event is no `LOGIN` whose ticket ends with a wrong line when its buffer
holds the cookie's name. -/
def SparesLogin (path : Str) (x : Entry Store Event Outcome) : Prop :=
  ∀ ses env line words l, x.ev = .command ses env line → IsLogin line → env.lines.head? = some l → l ≠ ".".toList →
    env.overwritten = some words → resolve (words.getD 1 []) ≠ resolve path

/-- A sweep comes to its end over a store as `cosignd` keeps it. -/
def SweepsWell (cfg : Config) (x : Entry Store Event Outcome) : Prop :=
  ∀ now ls, x.ev = .sweep now ls → x.res = .swept true ∧ LoginsWellFormed cfg x.pre ∧ TicketsApart cfg now x.pre ∧
    InHashDirs cfg x.pre ∧ ListsAll cfg ls x.post

/-- A file of this name is made anew, or moved here. -/
def Renewed (cfg : Config) (path : Str) (x : Entry Store Event Outcome) : Prop :=
  Anew path x ∨ ∃ ses env line cookie scpath rcookie npath lpath f, x.ev = .command ses env line ∧
    MovesCookie cfg ses env line x.pre x.post cookie scpath rcookie npath lpath f ∧ resolve path = resolve npath

section
variable {cfg : Config} {c path : Str} {x : Entry Store Event Outcome}

/-! ## The mark stays -/

theorem marked_not_published {ses : Session} {env : Env} {line : Str} {s : Store} {f : File} {a : LoginArgs} {rc : Int}
    {ci : Cinfo} {text : Str} {already : Bool} (hf : s.get path = some f) (hm : f.isgid = true) :
    ¬ Publishes cfg ses env (acavParse line) s a path rc ci text already := by
  intro hp
  by_cases hrc : rc = 0
  · subst hrc
    obtain ⟨-, g, hg, hparse⟩ := opened_file hp.read
    cases hf.symm.trans hg
    refine (hp.live rfl).1 ?_
    rw [(parseCookie_fstat hparse (by decide)).1, hm]
    rfl
  · rw [hp.absent hrc] at hf
    cases hf

/-- A `REKEY` moves no login cookie. -/
theorem moves_login {ses : Session} {env : Env} {line : Str} {s t : Store} {cookie scpath rcookie npath lpath : Str}
    {g : File} (hc : hasPrefix "cosign=".toList c) (hpath : mkcookiepath none cfg.hashlen c maxPathLen = some path)
    (h : MovesCookie cfg ses env line s t cookie scpath rcookie npath lpath g) :
    t.get path = (s.touched lpath env.now).get path := by
  obtain ⟨cmd, rest, -, -, htarget⟩ := h.line
  cases htarget with
  | rekey hpre _ hp =>
    obtain ⟨hpre', hp'⟩ := rekeyCookie_spec cfg env hpre h.moves.named
    have h1 : resolve path ≠ resolve scpath := fun he => login_not_service (resolve_inj hpath hp he ▸ hc) hpre
    have h2 : resolve path ≠ resolve npath := fun he => login_not_service (resolve_inj hpath hp' he ▸ hc) hpre'
    rw [h.post, moved_get, if_neg h2, if_neg h1]

/-- A command keeps the marked record of a login cookie, where a `LOGIN` does
not find its name in the buffer. -/
theorem marked_command (hc : hasPrefix "cosign=".toList c)
    (hpath : mkcookiepath none cfg.hashlen c maxPathLen = some path) {ses : Session} {env : Env} {line : Str}
    (hev : x.ev = .command ses env line) (hstep : step cfg x.pre x.ev = some (x.res, x.post)) (hx : SparesLogin path x)
    {f : File} (hf : x.pre.get path = some f) (hm : f.isgid = true) :
    ∃ g, x.post.get path = some g ∧ Kept f g := by
  rcases step_cases hstep with ⟨ses', env', line', d, hev', -, hl, hrun⟩ | ⟨ses', env', line', d, hev', -, hl, hrun⟩ |
    ⟨now, ls, r, hev', -, -⟩
  · refine ⟨f, ?_, Kept.refl f⟩
    rw [fLogin_leaves hpath (marked_not_published hf hm)
      (fun words l => hx ses' env' line' words l hev' hl) hrun, hf]
  · rcases command_kept hl hrun with hk | ⟨cookie, scpath, rcookie, npath, lpath, g, hmv⟩
    · exact hk path f hf
    · obtain ⟨g', hg', hk⟩ := touched_kept x.pre lpath env'.now path f hf
      exact ⟨g', by rw [moves_login hc hpath hmv, hg'], hk⟩
  · rw [hev] at hev'
    cases hev'

theorem markedAt_kept {s t : Store} {f g : File} (h : MarkedAt s path) (hf : s.get path = some f)
    (hg : t.get path = some g) (hk : Kept f g) : MarkedAt t path := by
  intro g' hg'
  cases hg.symm.trans hg'
  obtain ⟨hm, hs⟩ := h f hf
  exact ⟨hk.2 hm, by rw [hk.1]; exact hs⟩

/-- One event, as long as it does not make the cookie anew. -/
theorem markedAt_step (hc : hasPrefix "cosign=".toList c)
    (hpath : mkcookiepath none cfg.hashlen c maxPathLen = some path)
    (hstep : step cfg x.pre x.ev = some (x.res, x.post)) (hanew : ¬ Anew path x) (h : MarkedAt x.pre path) :
    MarkedAt x.post path := by
  have hnone : x.post.get path = none → MarkedAt x.post path := fun he f hf => by rw [he] at hf; cases hf
  cases hpre : x.pre.get path with
  | none => exact hnone (Option.not_isSome_iff_eq_none.1 fun hs => hanew ⟨hpre, hs⟩)
  | some f =>
    rcases step_cases hstep with ⟨ses, env, line, d, hev, -, hl, hrun⟩ | ⟨ses, env, line, d, hev, -, hl, hrun⟩ |
      ⟨now, ls, r, hev, -, hrun⟩
    · rcases fLogin_get hpath hrun with he | ⟨a, rc, ci, text, already, hp, -, -⟩ | ⟨-, he⟩
      · exact markedAt_kept h hpre (he.trans hpre) (Kept.refl f)
      · exact absurd hp (marked_not_published hpre (h f hpre).1)
      · exact hnone he
    · rcases command_kept hl hrun with hk | ⟨cookie, scpath, rcookie, npath, lpath, g, hmv⟩
      · obtain ⟨g, hg, hfg⟩ := hk path f hpre
        exact markedAt_kept h hpre hg hfg
      · obtain ⟨g', hg', hk⟩ := touched_kept x.pre lpath env.now path f hpre
        exact markedAt_kept h hpre (by rw [moves_login hc hpath hmv, hg']) hk
    · rcases swept_of_asks (asks_sweep cfg now ls) hrun path with he | he
      · exact markedAt_kept h hpre (he.trans hpre) (Kept.refl f)
      · exact hnone he

/-! ## Service cookies of the session -/

/-- The file of a service cookie that is gone, or still names the login cookie
whose mark is there. -/
def DeadAt (c path p : Str) (s : Store) : Prop :=
  s.get p = none ∨ (s.binding p = some c ∧ MarkedAt s path ∧ (s.get path).isSome)

theorem deadAt_of_kept {p : Str} {s t : Store} {f : File} (hb : t.binding p = some c) (h : MarkedAt s path)
    (hf : s.get path = some f) (hg : ∃ g, t.get path = some g ∧ Kept f g) : DeadAt c path p t := by
  obtain ⟨g, hg, hk⟩ := hg
  exact .inr ⟨hb, markedAt_kept h hf hg hk, by rw [hg]; rfl⟩

theorem deadAt_step {w p : Str} (hc : hasPrefix "cosign=".toList c)
    (hpath : mkcookiepath none cfg.hashlen c maxPathLen = some path) (hw : hasPrefix "cosign-".toList w)
    (hp : mkcookiepath none cfg.hashlen w maxPathLen = some p)
    (hstep : step cfg x.pre x.ev = some (x.res, x.post)) (hsweep : SweepsWell cfg x) (hslip : SparesLogin path x)
    (hnew : ¬ Renewed cfg p x) (h : DeadAt c path p x.pre) : DeadAt c path p x.post := by
  rcases h with hnone | ⟨hb, hmark, hsome⟩
  · exact .inl (Option.not_isSome_iff_eq_none.1 fun hs => hnew (.inl ⟨hnone, hs⟩))
  obtain ⟨g, hg⟩ := Option.isSome_iff_exists.1 hsome
  obtain ⟨f, hf, hl⟩ := Option.bind_eq_some_iff.1 hb
  have hkept : ∀ {ses env line}, x.ev = .command ses env line → ∃ g', x.post.get path = some g' ∧ Kept g g' :=
    fun hev => marked_command hc hpath hev hstep hslip hg (hmark g hg).1
  rcases step_cases hstep with ⟨ses, env, line, d, hev, -, hlog, hrun⟩ | ⟨ses, env, line, d, hev, -, hlog, hrun⟩ |
    ⟨now, ls, r, hev, hres, hrun⟩
  · rcases fLogin_get hp hrun with he | ⟨a, rc, ci, text, already, hpub, -, -⟩ | ⟨-, he⟩
    · refine deadAt_of_kept ?_ hmark hg (hkept hev)
      rw [Store.binding, he]
      exact hb
    · by_cases hrc : rc = 0
      · subst hrc
        obtain ⟨-, f', hf', hparse⟩ := opened_file hpub.read
        cases hf.symm.trans hf'
        exact absurd hparse (service_not_record hl ci)
      · rw [hpub.absent hrc] at hf
        cases hf
    · exact .inl he
  · rcases command_kept hlog hrun with hk | ⟨cookie, scpath, rcookie, npath, lpath, k, hmv⟩
    · exact deadAt_of_kept (hk.binding hb) hmark hg (hkept hev)
    · have hne : resolve p ≠ resolve npath := fun he =>
        hnew (.inr ⟨ses, env, line, cookie, scpath, rcookie, npath, lpath, k, hev, hmv, he⟩)
      by_cases he : resolve p = resolve scpath
      · exact .inl (by rw [hmv.post, moved_get, if_neg hne, if_pos he])
      · refine deadAt_of_kept ?_ hmark hg (hkept hev)
        rw [Store.binding, hmv.post, moved_get, if_neg hne, if_neg he]
        exact (touched_binding _ _ _ _).trans hb
  · obtain ⟨hend, hwf, htkt, hdirs, hls⟩ := hsweep now ls hev
    obtain ⟨report, rfl⟩ : ∃ report, r = some report := by
      rw [hres] at hend
      exact Option.isSome_iff_exists.1 (Outcome.swept.inj hend)
    rcases swept_of_asks (asks_sweep cfg now ls) hrun p with he | he
    · have hb' : x.post.binding p = some c := by
        rw [Store.binding, he]
        exact hb
      -- a service cookie that is left has its login cookie
      have hleft := (sweep_collects hwf htkt hdirs hls hrun).bound p c path ⟨w, hw, hp⟩ hb' hpath
      obtain ⟨g', hg'⟩ := Option.isSome_iff_exists.1 hleft
      rcases swept_of_asks (asks_sweep cfg now ls) hrun path with hl' | hl'
      · exact deadAt_of_kept hb' hmark hg ⟨g, by rw [hl', hg], Kept.refl g⟩
      · rw [hl'] at hg'
        cases hg'
    · exact .inl he

/-! ## Answers -/

/-- No command of these about the cookie is answered 2xx by the event. -/
def Refuses (ns : List CommandName) (w : Str) (x : Entry Store Event Outcome) : Prop :=
  ∀ ses env line cmd rest n d, x.ev = .command ses env line → acavParse line = cmd :: w :: rest →
    findCommand cmd = some n → n ∈ ns → x.res = .answered d → ¬ d.ok

theorem marked_refuses (hc : hasPrefix "cosign=".toList c)
    (hpath : mkcookiepath none cfg.hashlen c maxPathLen = some path)
    (hstep : step cfg x.pre x.ev = some (x.res, x.post)) (h : MarkedAt x.pre path) :
    Refuses [.check, .rekey, .register, .retr] c x := by
  intro ses env line cmd rest n d hev hline hn hmem hres
  obtain ⟨d', hd', hrun⟩ := step_command hstep hev hline hn
  cases hres.symm.trans hd'
  refine shut_denies hc hpath h.shut (Nat.zero_le _) (.self (by simpa using hmem)) ?_ hrun
  rintro cmd' login ip w p - hav -
  cases hav
  exact fun _ => rfl

/-- A cookie without a file is refused. -/
theorem absent_denies {ses : Session} {env : Env} {s t : Store} {cmd w p : Str} {rest : List Str} {n : CommandName}
    {d : Done} (hn : n = .check ∨ n = .rekey ∨ n = .retr) (hp : mkcookiepath none cfg.hashlen w maxPathLen = some p)
    (hnone : s.get p = none) (h : Prog.run exec (handle cfg ses env (cmd :: w :: rest) n) s = some (d, t)) : ¬ d.ok := by
  have hservice : ∀ login, s.service env p ≠ some login := by
    intro login hs
    have := binding_of_service hs
    rw [Store.binding, hnone] at this
    cases this
  have hcheck : Prog.run exec (fCheck cfg ses env (cmd :: w :: rest)) s = some (d, t) → ¬ d.ok := by
    intro h
    rcases fCheck_cases h with ⟨-, hd⟩ | ⟨cmd', cookie, rest', lpath, status, sc, hav, htarget, hrun⟩
    · exact hd.1
    cases hav
    cases htarget with
    | service _ _ hp' hs _ _ => cases hp.symm.trans hp'; exact absurd hs (hservice _)
    | rekey _ _ hp' hs _ _ => cases hp.symm.trans hp'; exact absurd hs (hservice _)
    | login _ _ hl =>
      cases hp.symm.trans hl
      rcases checkLogin_cases hrun with ⟨hd, -⟩ | ⟨ci, hlive, -⟩
      · exact hd.1
      · obtain ⟨-, f, hf, -⟩ := opened_file hlive.read
        rw [hnone] at hf
        cases hf
  rcases hn with rfl | rfl | rfl
  · exact hcheck h
  · exact hcheck h
  · have h : Prog.run exec (fRetr cfg ses env (cmd :: w :: rest)) s = some (d, t) := h
    rcases fRetr_cases h with ⟨hd, -⟩ | ⟨cmd', cookie, kind, spath, login, lpath, sl, ci, hav, hret, -⟩
    · exact hd.1
    · cases hav
      cases hp.symm.trans hret.sfile
      exact absurd hret.service (hservice _)

theorem dead_refuses {w p : Str} (hc : hasPrefix "cosign=".toList c)
    (hpath : mkcookiepath none cfg.hashlen c maxPathLen = some path)
    (hp : mkcookiepath none cfg.hashlen w maxPathLen = some p)
    (hstep : step cfg x.pre x.ev = some (x.res, x.post)) (h : DeadAt c path p x.pre) :
    Refuses [.check, .rekey, .retr] w x := by
  intro ses env line cmd rest n d hev hline hn hmem hres
  obtain ⟨d', hd', hrun⟩ := step_command hstep hev hline hn
  cases hres.symm.trans hd'
  have hmem : n = .check ∨ n = .rekey ∨ n = .retr := by simpa using hmem
  rcases h with hnone | ⟨hb, hmark, -⟩
  · exact absent_denies hmem hp hnone hrun
  · refine shut_denies hc hpath hmark.shut (Nat.zero_le _) (.service hmem hp hb) ?_ hrun
    rintro cmd' login ip w' p' rfl
    rcases hmem with h1 | h1 | h1 <;> cases h1

/-! ## The event that logs out -/

theorem touched_mark {s : Store} {lpath : Str} {now : Nat} {f g : File} (hf : s.get path = some f)
    (hg : (s.touched lpath now).get path = some g) : g.isgid = f.isgid := by
  by_cases he : resolve path = resolve lpath
  · obtain ⟨g', hg', -, hm⟩ := (utime_keeps (get_congr he ▸ hf) now).get hf
    cases hg'.symm.trans hg
    exact hm
  · rw [touched_other he, hf] at hg
    cases hg
    rfl

/-- After it, the record is marked and the service cookies are as they were. -/
theorem logsOut_marks (hc : hasPrefix "cosign=".toList c)
    (hpath : mkcookiepath none cfg.hashlen c maxPathLen = some path)
    (hstep : step cfg x.pre x.ev = some (x.res, x.post)) (hx : LogsOut c path x) :
    MarkedAt x.post path ∧ (x.post.get path).isSome ∧ FilesKept x.pre x.post := by
  have hrecord : ∀ {g : File} {ci : Cinfo}, parseCookie g = some (0, ci) → parseService g.text = none := by
    intro g ci hparse
    by_contra hne
    obtain ⟨login, hl⟩ := Option.ne_none_iff_exists'.1 hne
    exact service_not_record hl ci hparse
  rcases hx with ⟨ses, env, line, cmd, ws, d, hev, hline, hn, hres, hans⟩ | ⟨f, g, ci, hf, hfm, hg, hgm, hparse⟩
  · obtain ⟨d', hd', hrun⟩ := step_command hstep hev hline hn
    cases hres.symm.trans hd'
    have hrun : Prog.run exec (fLogout cfg ses env (cmd :: c :: ws)) x.pre = some (d, x.post) := hrun
    rcases fLogout_cases hrun with ⟨-, hd⟩ | ⟨cmd', cookie, ip, path', f, ci, hav, hpath', hf, hread, -, ht, -⟩
    · exact absurd ⟨210, by decide, by decide, hans⟩ hd.1
    · cases hav
      cases hpath.symm.trans hpath'
      obtain ⟨-, f', hf', hparse⟩ := opened_file hread
      cases hf.symm.trans hf'
      have hpost : x.post.get path = some { f with isgid := true, mtime := env.now } := by
        rw [ht]
        exact Store.put_get ..
      refine ⟨?_, by rw [hpost]; rfl, ht ▸ marked_kept hf _⟩
      intro g hg
      cases hpost.symm.trans hg
      exact ⟨rfl, show parseService f.text = none from hrecord hparse⟩
  · refine ⟨?_, by rw [hg]; rfl, ?_⟩
    · intro g' hg'
      cases hg.symm.trans hg'
      exact ⟨hgm, hrecord hparse⟩
    · have hsame : x.post.get path = x.pre.get path → False := by
        intro he
        rw [hf, hg] at he
        cases he
        rw [hfm] at hgm
        cases hgm
      rcases step_cases hstep with ⟨ses, env, line, d, hev, -, hl, hrun⟩ | ⟨ses, env, line, d, hev, -, hl, hrun⟩ |
        ⟨now, ls, r, hev, -, hrun⟩
      · rcases fLogin_get hpath hrun with he | ⟨a, rc, ci', text, already, -, -, he⟩ | ⟨-, he⟩
        · exact absurd he hsame
        · rw [hg] at he
          cases he
          cases hgm
        · rw [hg] at he
          cases he
      · rcases command_kept hl hrun with hk | ⟨cookie, scpath, rcookie, npath, lpath, k, hmv⟩
        · exact hk
        · rw [moves_login hc hpath hmv] at hg
          rw [touched_mark hf hg, hfm] at hgm
          cases hgm
      · rcases swept_of_asks (asks_sweep cfg now ls) hrun path with he | he
        · exact absurd he hsame
        · rw [hg] at he
          cases he

/-! ## Runs -/

/-- A logout is final: until the login cookie is made anew nothing about it is
answered 2xx, and a service cookie that was registered to it is never heard of
again, unless its name is given to a new one. -/
theorem logout_final {s t : Store} {tr : List (Entry Store Event Outcome)} (hc : hasPrefix "cosign=".toList c)
    (hpath : mkcookiepath none cfg.hashlen c maxPathLen = some path) (hrun : Run cfg s (x :: tr) t)
    (hx : LogsOut c path x) (hsweeps : ∀ y ∈ tr, SweepsWell cfg y) (hslip : ∀ y ∈ tr, SparesLogin path y) :
    (∀ tr₁ y tr₂, tr = tr₁ ++ y :: tr₂ → (∀ z ∈ tr₁, ¬ Anew path z) →
      Refuses [.check, .rekey, .register, .retr] c y) ∧
    ∀ w p, hasPrefix "cosign-".toList w → mkcookiepath none cfg.hashlen w maxPathLen = some p →
      x.pre.binding p = some c → ∀ tr₁ y tr₂, tr = tr₁ ++ y :: tr₂ → (∀ z ∈ tr₁, ¬ Renewed cfg p z) →
      Refuses [.check, .rekey, .retr] w y := by
  obtain ⟨hmark, hsome, hkept⟩ := logsOut_marks hc hpath (hrun.fired x List.mem_cons_self) hx
  cases hrun with
  | cons hstep htail =>
  constructor
  · rintro tr₁ y tr₂ rfl hanew
    obtain ⟨u, h₁, h₂⟩ := htail.take
    have hu := (Trace.inv (fun v => MarkedAt v path) (fun z => ¬ Anew path z)
      (fun z hz hn h => markedAt_step hc hpath hz hn h) h₁ hmark hanew).1
    cases h₂ with
    | cons hy _ => exact marked_refuses hc hpath hy hu
  · rintro w p hw hp hb tr₁ y tr₂ rfl hnew
    obtain ⟨u, h₁, h₂⟩ := htail.take
    have hu := (Trace.inv (DeadAt c path p) (fun z => SweepsWell cfg z ∧ SparesLogin path z ∧ ¬ Renewed cfg p z)
      (fun z hz hn h => deadAt_step hc hpath hw hp hz hn.1 hn.2.1 hn.2.2 h) h₁
      (.inr ⟨hkept.binding hb, hmark, hsome⟩)
      (fun z hz => ⟨hsweeps z (List.mem_append_left _ hz), hslip z (List.mem_append_left _ hz), hnew z hz⟩)).1
    cases h₂ with
    | cons hy _ => exact dead_refuses hc hpath hp hy hu

end

/-! ## A name that is used again -/

def annLogout : Event := .command .cgi (.calm 110) "LOGOUT cosign=abc 10.0.0.1".toList

/-- Two hours later her cookie and her service cookie are swept away. -/
def wikiSweep : Event := .sweep 7400 fun _ => some [wikiCookie, "cosign=abc".toList]

def eveLogin : Event := .command .cgi (.calm 7401) "LOGIN cosign=def 10.0.0.2 eve umich".toList

/-- Eve's session takes the name of Ann's service cookie. -/
def eveRegister : Event := .command .cgi (.calm 7402) "REGISTER cosign=def 10.0.0.2 cosign-wiki=xyz".toList

def wikiCheck : Event := .command wikiSession (.calm 7403) "CHECK cosign-wiki=xyz".toList

/-- Ann's record with the mark, last written at `now`. -/
def annMarked (now : Nat) : File :=
  ⟨recordText "10.0.0.1".toList "10.0.0.1".toList "ann".toList ["umich".toList] 100 none, true, now⟩

def annGone : Store :=
  (wikiStore.put "cosign=abc".toList (some (annMarked 100))).put "cosign=abc".toList (some (annMarked 110))

theorem annGone_texts : SameTexts wikiStore annGone :=
  have hchmod : SameTexts wikiStore (wikiStore.put "cosign=abc".toList (some (annMarked 100))) :=
    sameTexts_put (f := { annMarked 100 with isgid := false }) rfl rfl
  hchmod.trans (sameTexts_put (f := annMarked 100) (g := annMarked 110) rfl rfl)

theorem annLogout_step : ∃ d, step wikiConfig wikiStore annLogout = some (.answered d, annGone) ∧ d.answers 210 := by
  refine ⟨_, rfl, .line 210 "LOGOUT successful: cookie no longer valid".toList, ?_, rfl⟩
  exact List.mem_cons_self

theorem annLogout_logsOut {d : Done} (hd : d.answers 210) :
    LogsOut "cosign=abc".toList "cosign=abc".toList ⟨wikiStore, annLogout, .answered d, annGone⟩ :=
  .inl ⟨.cgi, .calm 110, _, "LOGOUT".toList, ["10.0.0.1".toList], d, rfl, by decide, by decide, rfl, hd⟩

theorem sparesLogin_of_not_overwritten {path : Str} {x : Entry Store Event Outcome}
    (h : ∀ ses env line, x.ev = .command ses env line → env.overwritten = none) : SparesLogin path x := by
  intro ses env line words l hev _ _ _ hw
  rw [h ses env line hev] at hw
  cases hw

theorem wikiSweep_well {t : Store} (h : step wikiConfig annGone wikiSweep = some (.swept true, t)) :
    SweepsWell wikiConfig ⟨annGone, wikiSweep, .swept true, t⟩ := by
  intro now ls hev
  obtain ⟨rfl, rfl⟩ := Event.sweep.inj hev
  have hswept : ∃ r, r.isSome ∧ Prog.run exec (sweep wikiConfig 7400 fun _ => some [wikiCookie, "cosign=abc".toList]) annGone =
      some (r, t) := by
    have hmap : (Prog.run exec (sweep wikiConfig 7400 fun _ => some [wikiCookie, "cosign=abc".toList]) annGone).map
        (fun r => (Outcome.swept r.1.isSome, r.2)) = some (.swept true, t) := h
    obtain ⟨⟨r, u⟩, hrun, he⟩ := Option.map_eq_some_iff.1 hmap
    simp only [Prod.mk.injEq, Outcome.swept.injEq] at he
    exact ⟨r, he.1, by rw [hrun, he.2]⟩
  obtain ⟨r, -, hrun⟩ := hswept
  have hstays : ∀ p, (t.get p).isSome → (wikiStore.get p).isSome := by
    intro p hp
    have hout := (swept_of_asks (asks_sweep wikiConfig 7400 _) hrun).isSome p hp
    have htext := congrArg Option.isSome (annGone_texts p)
    simp only [Option.isSome_map] at htext
    exact htext ▸ hout
  refine ⟨rfl, ?_, (wikiStore_noTickets.congr annGone_texts).apart _ _, flat_inHashDirs rfl _,
    flat_listsAll rfl hstays (by decide)⟩
  intro path login hs hb
  exact wikiStore_loginsWellFormed path login hs ((binding_congr (annGone_texts path)) ▸ hb)

/-- The sweep comes to its end, and Eve's session then answers under the old
name. -/
theorem wiki_reused : ∃ t₂ o₃ t₃ o₄ t₄ d t₅, step wikiConfig annGone wikiSweep = some (.swept true, t₂) ∧
    step wikiConfig t₂ eveLogin = some (o₃, t₃) ∧ step wikiConfig t₃ eveRegister = some (o₄, t₄) ∧
    step wikiConfig t₄ wikiCheck = some (.answered d, t₅) ∧ d.ok :=
  ⟨_, _, _, _, _, _, _, rfl, rfl, rfl, rfl, checkReply_ok _ _ _ _ (by decide)⟩

theorem logout_not_final :
    ¬ ∀ (cfg : Config) (c path : Str) (s t : Store) (x : Entry Store Event Outcome)
      (tr : List (Entry Store Event Outcome)), hasPrefix "cosign=".toList c →
      mkcookiepath none cfg.hashlen c maxPathLen = some path → Run cfg s (x :: tr) t → LogsOut c path x →
      (∀ y ∈ tr, SweepsWell cfg y) → (∀ y ∈ tr, SparesLogin path y) → ∀ w p, hasPrefix "cosign-".toList w →
      mkcookiepath none cfg.hashlen w maxPathLen = some p → x.pre.binding p = some c → ∀ y ∈ tr,
      Refuses [.check, .rekey, .retr] w y := by
  intro h
  obtain ⟨d₁, h1, hout⟩ := annLogout_step
  obtain ⟨t₂, o₃, t₃, o₄, t₄, d, t₅, h2, h3, h4, h5, hok⟩ := wiki_reused
  have hcheck : acavParse "CHECK cosign-wiki=xyz".toList = ["CHECK".toList, wikiCookie] := by decide
  have hcommand : ∀ {ses env line s o t}, SweepsWell wikiConfig ⟨s, .command ses env line, o, t⟩ :=
    fun _ _ hev => by cases hev
  refine h wikiConfig "cosign=abc".toList "cosign=abc".toList wikiStore t₅ _ _ (by decide) rfl
    (.cons h1 (.cons h2 (.cons h3 (.cons h4 (.cons h5 (.nil _)))))) (annLogout_logsOut hout) ?_ ?_ wikiCookie wikiCookie
    (by decide) rfl rfl ⟨t₄, wikiCheck, .answered d, t₅⟩ (by simp) wikiSession (.calm 7403) _ _ _ .check d rfl hcheck
    (by decide) (by decide) rfl hok
  · simp only [List.forall_mem_cons]
    exact ⟨wikiSweep_well h2, hcommand, hcommand, hcommand, List.forall_mem_nil _⟩
  · simp only [List.forall_mem_cons]
    refine ⟨?_, ?_, ?_, ?_, List.forall_mem_nil _⟩
    · exact sparesLogin_of_not_overwritten fun _ _ _ hev => by cases hev
    · exact sparesLogin_of_not_overwritten fun _ _ _ hev => by obtain ⟨-, rfl, -⟩ := Event.command.inj hev; rfl
    · exact sparesLogin_of_not_overwritten fun _ _ _ hev => by obtain ⟨-, rfl, -⟩ := Event.command.inj hev; rfl
    · exact sparesLogin_of_not_overwritten fun _ _ _ hev => by obtain ⟨-, rfl, -⟩ := Event.command.inj hev; rfl

/-- Ann logs in again, and her browser still has the cookie it had. -/
def annAgain : Event := .command .cgi (.calm 7401) "LOGIN cosign=abc 10.0.0.1 ann umich".toList

/-- After the sweep and with the login cookie made anew, the service cookie is
refused. -/
theorem annWiki_refused : ∃ t₂ o₃ t₃ d t₄, step wikiConfig annGone wikiSweep = some (.swept true, t₂) ∧
    step wikiConfig t₂ annAgain = some (o₃, t₃) ∧ (t₃.get "cosign=abc".toList).map (·.isgid) = some false ∧
    step wikiConfig t₃ wikiCheck = some (.answered d, t₄) ∧ ¬ d.ok := by
  obtain ⟨d₁, h1, hout⟩ := annLogout_step
  obtain ⟨t₂, o₃, t₃, d, t₄, h2, h3, h4, hanew, hgone⟩ : ∃ t₂ o₃ t₃ d t₄,
      step wikiConfig annGone wikiSweep = some (.swept true, t₂) ∧ step wikiConfig t₂ annAgain = some (o₃, t₃) ∧
      step wikiConfig t₃ wikiCheck = some (.answered d, t₄) ∧
      (t₃.get "cosign=abc".toList).map (·.isgid) = some false ∧ t₂.get wikiCookie = none ∧ t₃.get wikiCookie = none :=
    ⟨_, _, _, _, _, rfl, rfl, rfl, rfl, rfl, rfl⟩
  have hcheck : acavParse "CHECK cosign-wiki=xyz".toList = ["CHECK".toList, wikiCookie] := by decide
  have hlogin : acavParse "LOGIN cosign=abc 10.0.0.1 ann umich".toList = "LOGIN".toList ::
      ["cosign=abc".toList, "10.0.0.1".toList, "ann".toList, "umich".toList] := by decide
  have hcommand : ∀ {ses env line s o t}, SweepsWell wikiConfig ⟨s, .command ses env line, o, t⟩ :=
    fun _ _ hev => by cases hev
  have hpath : mkcookiepath none wikiConfig.hashlen "cosign=abc".toList maxPathLen = some "cosign=abc".toList := rfl
  have hspares : ∀ {ses line s o t} (env : Env), env.overwritten = none →
      SparesLogin "cosign=abc".toList ⟨s, .command ses env line, o, t⟩ := fun _ henv =>
    sparesLogin_of_not_overwritten fun _ _ _ hev => by obtain ⟨-, rfl, -⟩ := Event.command.inj hev; exact henv
  refine ⟨t₂, o₃, t₃, d, t₄, h2, h3, hanew, h4, (logout_final (by decide) hpath
    (.cons h1 (.cons h2 (.cons h3 (.cons h4 (.nil _))))) (annLogout_logsOut hout) ?_ ?_).2
    wikiCookie wikiCookie (by decide) rfl rfl [_, _] _ [] rfl ?_ wikiSession (.calm 7403) _ _ _ .check d
    rfl hcheck (by decide) (by decide) rfl⟩
  · simp only [List.forall_mem_cons]
    exact ⟨wikiSweep_well h2, hcommand, hcommand, List.forall_mem_nil _⟩
  · simp only [List.forall_mem_cons]
    refine ⟨?_, hspares (.calm 7401) rfl, hspares (.calm 7403) rfl, List.forall_mem_nil _⟩
    exact sparesLogin_of_not_overwritten fun _ _ _ hev => by cases hev
  · simp only [List.forall_mem_cons]
    refine ⟨?_, ?_, List.forall_mem_nil _⟩
    · rintro (⟨-, hthere⟩ | ⟨ses, env, line, _, _, _, _, _, _, hev, -⟩)
      · rw [show t₂.get wikiCookie = none from hgone.1] at hthere
        cases hthere
      · cases hev
    · rintro (⟨-, hthere⟩ | ⟨ses, env, line, _, _, _, _, _, _, hev, hmoves, -⟩)
      · rw [show t₃.get wikiCookie = none from hgone.2] at hthere
        cases hthere
      · cases hev
        obtain ⟨cmd, rest, hline, hrekey, -⟩ := hmoves.line
        obtain ⟨rfl, -⟩ := List.cons.inj (hlogin.symm.trans hline)
        revert hrekey
        decide

end Cosign
