import Cosign.Daemon.Bindings
/-!
# What becomes of a service cookie

A service cookie keeps the login cookie it was made with. No command writes
over its file, so it stays until a sweep takes it away or a `REKEY` moves it
with what it holds. One thing breaks this: a `LOGIN` whose ticket does not end
as it should unlinks the file its first argument names, and reads that
argument from a buffer the transfer may have written over.
-/

namespace Cosign

open Lib

/-! ## Files that stay -/

/-- Every file that is there keeps its text, and its mark if it has one. -/
def FilesKept (s t : Store) : Prop := ∀ p f, s.get p = some f → ∃ g, t.get p = some g ∧ Kept f g

theorem FilesKept.refl (s : Store) : FilesKept s s := fun _ f hf => ⟨f, hf, Kept.refl f⟩

theorem FilesKept.trans {s t u : Store} (h : FilesKept s t) (h' : FilesKept t u) : FilesKept s u := by
  intro p f hf
  obtain ⟨g, hg, hfg⟩ := h p f hf
  obtain ⟨k, hk, hgk⟩ := h' p g hg
  exact ⟨k, hk, hfg.trans hgk⟩

theorem filesKept_put {s : Store} {path : Str} {f g : File} (hf : s.get path = some f) (hk : Kept f g) :
    FilesKept s (s.put path (some g)) := fun _ _ hp => put_kept hp hf hk

theorem touched_kept (s : Store) (path : Str) (now : Nat) : FilesKept s (s.touched path now) := by
  unfold Store.touched
  cases hf : s.get path with
  | none => simp only [exec, hf]; exact FilesKept.refl s
  | some f => simp only [exec, hf]; exact filesKept_put hf ⟨rfl, id⟩

theorem marked_kept {s : Store} {path : Str} {f : File} (hf : s.get path = some f) (now : Nat) :
    FilesKept s (s.marked path f now) := filesKept_put hf ⟨rfl, fun _ => rfl⟩

theorem refusal_kept {cfg : Config} {env : Env} {s t : Store} {path : Str} (h : Refusal cfg env s path t) :
    FilesKept s t := by
  rcases h with rfl | ⟨f, hidle, rfl⟩
  · exact FilesKept.refl _
  · exact marked_kept hidle.file _

theorem SameMarks.kept {s t : Store} (h : SameMarks s t) : FilesKept s t := by
  intro p f hf
  obtain ⟨g, hg, htext, hmark⟩ := h.get hf
  exact ⟨g, hg, htext, fun hm => hmark.trans hm⟩

theorem FilesKept.binding {s t : Store} (h : FilesKept s t) {p login : Str} (hb : s.binding p = some login) :
    t.binding p = some login := by
  obtain ⟨f, hf, hl⟩ := Option.bind_eq_some_iff.1 hb
  obtain ⟨g, hg, he⟩ := h p f hf
  rw [Store.binding, hg, Option.bind_some, he.1]
  exact hl

/-- A new file changes no other. -/
theorem bound_get {s : Store} {path spath login : Str} {now : Nat} {f : File} (hf : s.get path = some f)
    (hn : s.get spath = none) : (s.bound spath login now).get path = some f := by
  have hne : resolve path ≠ resolve spath := by
    intro he
    rw [get_congr he, hn] at hf
    cases hf
  rw [Store.bound, Store.put_get_ne _ hne, hf]

theorem bound_kept {s : Store} {spath login : Str} {now : Nat} (hn : s.get spath = none) :
    FilesKept s (s.bound spath login now) := fun _ f hf => ⟨f, bound_get hf hn, Kept.refl f⟩

theorem doRegister_kept {env : Env} {i : Nat} {login lpath spath : Str} {s t : Store} {rc : Int}
    (h : Prog.run exec (doRegister env i login lpath spath) s = some (rc, t)) : FilesKept s t := by
  rcases doRegister_cases h with ⟨-, rfl, -⟩ | ⟨-, rfl⟩ | ⟨-, hn, -, -, rfl⟩ | ⟨-, hn, -, -, rfl⟩
  · exact FilesKept.refl _
  · exact FilesKept.refl _
  · exact bound_kept hn
  · exact (bound_kept hn).trans (touched_kept _ _ _)

theorem registerSteps_kept {cfg : Config} {env : Env} {login : Str} {s t : Store}
    (h : Relation.ReflTransGen (RegisterStep cfg env login) s t) : FilesKept s t := by
  induction h with
  | refl => exact FilesKept.refl _
  | tail _ hstep ih =>
    obtain ⟨i, service, lpath, spath, rc, -, -, hrun⟩ := hstep
    exact ih.trans (doRegister_kept hrun)

/-! ## Every command -/

/-- A command word has one meaning. -/
theorem findCommand_word {cmd : Str} {c : CommandName} (h : findCommand cmd = some c) :
    ∃ w, (w, c) ∈ commandTable ∧ strcaseeq cmd w = true := by
  obtain ⟨⟨w, c'⟩, hfind, rfl⟩ := Option.map_eq_some_iff.1 h
  exact ⟨w, List.mem_of_find?_eq_some hfind, by simpa using List.find?_some hfind⟩

theorem check_not_rekey {cmd : Str} (h : findCommand cmd = some .check) : strcaseeq cmd "REKEY".toList = false := by
  obtain ⟨w, hw, heq⟩ := findCommand_word h
  have hw : w = "CHECK".toList := by simpa [commandTable] using hw
  subst hw
  have hlow : lower cmd = lower "CHECK".toList := by simpa [strcaseeq] using heq
  have hne : lower "CHECK".toList ≠ lower "REKEY".toList := by decide
  simpa [strcaseeq, hlow] using hne

theorem fDaemon_same {cfg : Config} {ses : Session} {env : Env} {av : List Str} {s t : Store} {d : Done}
    (h : Prog.run exec (fDaemon cfg ses env av) s = some (d, t)) : t = s := by
  unfold fDaemon at h
  split at h
  · cases h; rfl
  split at h
  · split at h
    · cases h; rfl
    · split at h <;> (cases h; rfl)
  · cases h; rfl

theorem fRegister_kept {cfg : Config} {ses : Session} {env : Env} {av : List Str} {s t : Store} {d : Done}
    (h : Prog.run exec (fRegister cfg ses env av) s = some (d, t)) : FilesKept s t := by
  rcases fRegister_cases h with ⟨-, rfl | ⟨_, _, _, _, _, -, -, hr⟩⟩ | ⟨_, _, _, _, _, -, hend⟩
  · exact FilesKept.refl _
  · exact refusal_kept hr
  · rcases hend with ⟨-, rfl | ⟨hn, -, -, rfl⟩⟩ | ⟨-, rfl, -⟩ | ⟨hn, -, -, rfl, -⟩
    · exact FilesKept.refl _
    · exact bound_kept hn
    · exact FilesKept.refl _
    · exact (bound_kept hn).trans (touched_kept _ _ _)

theorem fRetr_kept {cfg : Config} {ses : Session} {env : Env} {av : List Str} {s t : Store} {d : Done}
    (h : Prog.run exec (fRetr cfg ses env av) s = some (d, t)) : FilesKept s t := by
  rcases fRetr_cases h with ⟨-, rfl | ⟨_, _, _, _, _, _, -, -, -, -, hr⟩⟩ | ⟨_, _, _, _, _, _, _, _, -, -, hend⟩
  · exact FilesKept.refl _
  · exact refusal_kept hr
  · rcases hend with ⟨rfl, -, -⟩ | ⟨-, hsteps⟩
    · exact FilesKept.refl _
    · exact registerSteps_kept hsteps

/-- Commands that neither log in nor rekey keep every file. -/
theorem handle_kept {cfg : Config} {ses : Session} {env : Env} {av : List Str} {c : CommandName} {s t : Store}
    {d : Done} (hc : c ≠ .login ∧ c ≠ .check ∧ c ≠ .rekey)
    (h : Prog.run exec (handle cfg ses env av c) s = some (d, t)) : FilesKept s t := by
  have hsame : t = s → FilesKept s t := by rintro rfl; exact FilesKept.refl _
  cases c with
  | login => exact absurd rfl hc.1
  | check => exact absurd rfl hc.2.1
  | rekey => exact absurd rfl hc.2.2
  | logout =>
    rcases fLogout_cases h with ⟨rfl, -⟩ | ⟨_, _, _, path, f, _, -, -, hf, -, -, rfl, -⟩
    · exact FilesKept.refl _
    · exact marked_kept hf _
  | register => exact fRegister_kept h
  | retr => exact fRetr_kept h
  | time =>
    obtain ⟨d', t', hrun, hmarks⟩ := fTime_keeps cfg ses env av s
    rw [handle, hrun] at h
    cases h
    exact hmarks.kept
  | daemon => exact hsame (fDaemon_same h)
  | noop => cases h; exact FilesKept.refl _
  | quit => cases h; exact FilesKept.refl _
  | help => cases h; exact FilesKept.refl _
  | starttls => cases h; exact FilesKept.refl _

/-- A `REKEY` that moved a service cookie. -/
structure MovesCookie (cfg : Config) (ses : Session) (env : Env) (line : Str) (s t : Store)
    (cookie scpath rcookie npath lpath : Str) (f : File) : Prop where
  line : ∃ cmd rest, acavParse line = cmd :: cookie :: rest ∧ findCommand cmd = some .rekey ∧
    CheckTarget cfg ses env s cmd cookie lpath 233 (some scpath)
  moves : Rekeys cfg env (s.touched lpath env.now) cookie scpath rcookie npath f
  post : t = (s.touched lpath env.now).moved scpath npath f

/-- A command other than `LOGIN` keeps every file, or moves one service cookie. -/
theorem command_kept {cfg : Config} {ses : Session} {env : Env} {line : Str} {s t : Store} {d : Done}
    (hl : ¬ IsLogin line) (h : Prog.run exec (command cfg ses env line) s = some (d, t)) :
    FilesKept s t ∨ ∃ cookie scpath rcookie npath lpath f,
      MovesCookie cfg ses env line s t cookie scpath rcookie npath lpath f := by
  unfold command at h
  split at h
  · cases h; exact .inl (FilesKept.refl _)
  rename_i word ws hline
  split at h
  · cases h; exact .inl (FilesKept.refl _)
  rename_i c hc
  by_cases hother : c ≠ .login ∧ c ≠ .check ∧ c ≠ .rekey
  · exact .inl (handle_kept hother h)
  have hcheck : c = .check ∨ c = .rekey := by
    rcases eq_or_ne c .login with rfl | h1
    · exact absurd ⟨word, by rw [hline]; rfl, hc⟩ hl
    · by_contra hno
      exact hother ⟨h1, fun he => hno (.inl he), fun he => hno (.inr he)⟩
  have hf : Prog.run exec (fCheck cfg ses env (word :: ws)) s = some (d, t) := by
    rcases hcheck with rfl | rfl <;> exact h
  rcases fCheck_cases hf with ⟨rfl, -⟩ | ⟨cmd, cookie, rest, lpath, status, sc, hav, htarget, hlogin⟩
  · exact .inl (FilesKept.refl _)
  cases hav
  rcases checkLogin_cases hlogin with ⟨-, hr⟩ | ⟨ci, -, ⟨-, rfl, -⟩ | ⟨-, -, rfl⟩ | ⟨scpath, rcookie, npath, f, rfl, hr, rfl, -⟩⟩
  · exact .inl (refusal_kept hr)
  · exact .inl (touched_kept _ _ _)
  · exact .inl (touched_kept _ _ _)
  · have hrekey : findCommand word = some .rekey := by
      rcases hcheck with rfl | rfl
      · cases htarget with
        | rekey _ _ _ _ _ hre => rw [check_not_rekey hc, Bool.and_false] at hre; cases hre
      · exact hc
    cases htarget with
    | rekey h1 h2 h3 h4 h5 h6 =>
      exact .inr ⟨cookie, scpath, rcookie, npath, lpath, f, ⟨word, rest, hline, hrekey, .rekey h1 h2 h3 h4 h5 h6⟩, hr, rfl⟩

/-! ## Service cookies are no records -/

theorem fgets_head {n : Nat} {s l r p : Str} {k : Char} (h : fgets n s = (l, r)) (hl : l.dropLast = k :: p) :
    s.head? = some k := by
  cases n with
  | zero => cases h; cases hl
  | succ n =>
    cases s with
    | nil => cases h; cases hl
    | cons c s =>
      simp only [fgets] at h
      split at h
      · cases h; cases hl
      · cases h
        cases hx : (fgets n s).1 with
        | nil => rw [hx] at hl; cases hl
        | cons e x => rw [hx] at hl; cases hl; rfl

/-- A record starts with its version. -/
theorem head_not_record {f : File} (hl : f.text.head? = some 'l') (ci : Cinfo) : parseCookie f ≠ some (0, ci) := by
  intro hp
  unfold parseCookie at hp
  dsimp only at hp
  split at hp
  · cases hp
  · split at hp
    · rename_i p hd
      rw [fgets_head rfl hd] at hl
      cases hl
    · cases hp

theorem service_not_record {f : File} {login : Str} (h : parseService f.text = some login) (ci : Cinfo) :
    parseCookie f ≠ some (0, ci) := by
  refine head_not_record ?_ ci
  unfold parseService at h
  dsimp only at h
  split at h
  · cases h
  · split at h
    · rename_i p hd; exact fgets_head rfl hd
    · cases h

theorem parseService_no_newline {text login : Str} (h : parseService text = some login) : '\n' ∉ login := by
  unfold parseService at h
  dsimp only at h
  split at h
  · cases h
  · split at h
    · rename_i p hd
      cases h
      have := fgets_newline (maxCookieLen + 1) text
      rw [hd] at this
      exact fun hm => this (List.mem_cons_of_mem _ hm)
    · cases h

/-! ## One event -/

/-- What an event may not do: a `REKEY` draws a value in use, or a `LOGIN` whose
ticket ends with a wrong line finds a service cookie's name in its buffer. -/
structure Spares (cfg : Config) (x : Entry Store Event Outcome) : Prop where
  fresh : ∀ ses env line cmd cookie rest rcookie npath, x.ev = .command ses env line →
    acavParse line = cmd :: cookie :: rest → findCommand cmd = some .rekey →
    rekeyCookie cfg env cookie = .ok (rcookie, npath) → x.pre.get npath = none
  login : ∀ ses env line words l, x.ev = .command ses env line → IsLogin line → env.lines.head? = some l →
    l ≠ ".".toList → env.overwritten = some words → x.pre.binding (words.getD 1 []) = none

/-- The event moves the cookie at `path` to `npath`. -/
def MovedBy (cfg : Config) (path npath : Str) (x : Entry Store Event Outcome) : Prop :=
  ∃ ses env line cookie rcookie lpath f, x.ev = .command ses env line ∧
    MovesCookie cfg ses env line x.pre x.post cookie path rcookie npath lpath f

/-- A `LOGIN` leaves a file alone that it may not publish and whose name it
does not find in its buffer. -/
theorem fLogin_leaves {cfg : Config} {ses : Session} {env : Env} {line : Str} {s t : Store} {d : Done} {c path : Str}
    (hpath : mkcookiepath none cfg.hashlen c maxPathLen = some path)
    (hnopub : ∀ {a rc ci text already}, ¬ Publishes cfg ses env (acavParse line) s a path rc ci text already)
    (hover : ∀ words l, env.lines.head? = some l → l ≠ ".".toList → env.overwritten = some words →
      resolve (words.getD 1 []) ≠ resolve path)
    (h : Prog.run exec (fLogin cfg ses env (acavParse line)) s = some (d, t)) : t.get path = s.get path := by
  rcases fLogin_get hpath h with hsame | ⟨a, rc, ci, text, already, hp, -, -⟩ | ⟨⟨⟨l, hlast, hdot⟩, hun⟩, -⟩
  · exact hsame
  · exact absurd hp hnopub
  · -- the words as they were: the request's own cookie, which it may not publish
    cases hw : env.overwritten with
    | some words =>
      rw [hw, Option.getD_some] at hun
      exact absurd hun (hover words l hlast hdot hw)
    | none =>
      rcases fLogin_cases h with ⟨rfl, -⟩ | ⟨a, path', rc, ci, text, already, hp, -⟩
      · rfl
      · exfalso
        rw [hw, Option.getD_none] at hun
        have hword : (acavParse line).getD 1 [] = a.cookie := by
          have hargs := hp.args
          unfold loginArgs at hargs
          split at hargs
          · rename_i hav
            rw [hav]
            split at hargs
            · split at hargs
              · cases hargs
              · dsimp only at hargs
                split at hargs
                · cases hargs
                · cases hargs; rfl
            · cases hargs; rfl
          · cases hargs
        rw [hword] at hun
        have hslash := (mkcookiepath_spec hp.file).2.2.1
        have hca : a.cookie = c := by
          rw [← resolve_mkcookiepath hpath, ← hun, basename_resolve, basename_self _ hslash]
        have hpp : path' = path := by
          have hfile := hp.file
          rw [hca, hpath] at hfile
          exact (Option.some.inj hfile).symm
        exact hnopub (hpp ▸ hp)

/-- A `LOGIN` does not touch a service cookie. -/
theorem fLogin_binding {cfg : Config} {ses : Session} {env : Env} {line : Str} {s t : Store} {d : Done}
    {c path login : Str} (hpath : mkcookiepath none cfg.hashlen c maxPathLen = some path)
    (hb : s.binding path = some login)
    (hover : ∀ words l, env.lines.head? = some l → l ≠ ".".toList → env.overwritten = some words →
      s.binding (words.getD 1 []) = none)
    (h : Prog.run exec (fLogin cfg ses env (acavParse line)) s = some (d, t)) : t.get path = s.get path := by
  obtain ⟨f, hf, hl⟩ := Option.bind_eq_some_iff.1 hb
  refine fLogin_leaves hpath ?_ ?_ h
  · intro a rc ci text already hp
    by_cases hrc : rc = 0
    · subst hrc
      obtain ⟨-, f', hf', hparse⟩ := opened_file hp.read
      rw [hf] at hf'
      cases hf'
      exact service_not_record hl ci hparse
    · rw [hp.absent hrc] at hf
      cases hf
  · intro words l hlast hdot hw he
    have hno := hover words l hlast hdot hw
    rw [Store.binding, get_congr he] at hno
    exact absurd (hb.symm.trans hno) (Option.some_ne_none _)

/-- One event and the service cookie at `path`: it stays as it is, or a sweep
takes it away, or a `REKEY` moves it with its login cookie. -/
theorem binding_step {cfg : Config} {x : Entry Store Event Outcome} {c path login : Str}
    (hpath : mkcookiepath none cfg.hashlen c maxPathLen = some path)
    (hstep : step cfg x.pre x.ev = some (x.res, x.post)) (hx : Spares cfg x)
    (hb : x.pre.binding path = some login) :
    x.post.binding path = some login ∨
      ((∃ now ls, x.ev = .sweep now ls) ∧ x.post.get path = none) ∨
      ∃ c' npath, mkcookiepath none cfg.hashlen c' maxPathLen = some npath ∧ MovedBy cfg path npath x ∧
        x.post.get path = none ∧ x.post.binding npath = some login := by
  rcases step_cases hstep with ⟨ses, env, line, d, hev, -, hl, hrun⟩ | ⟨ses, env, line, d, hev, -, hl, hrun⟩ |
    ⟨now, ls, r, hev, -, hrun⟩
  · refine .inl ?_
    rw [Store.binding, fLogin_binding hpath hb (fun words l => hx.login ses env line words l hev hl) hrun]
    exact hb
  · rcases command_kept hl hrun with hk | ⟨cookie, scpath, rcookie, npath, lpath, f, hm⟩
    · exact .inl (hk.binding hb)
    have htb : (x.pre.touched lpath env.now).binding path = some login := (touched_binding _ _ _ _).trans hb
    obtain ⟨cmd, rest, hav, hcmd, htarget⟩ := hm.line
    have hfree := hx.fresh ses env line cmd cookie rest rcookie npath hev hav hcmd hm.moves.named
    have hne : resolve path ≠ resolve npath := by
      intro he
      have : x.pre.get path = x.pre.get npath := by simp only [Store.get, he]
      rw [Store.binding, this, hfree] at hb
      cases hb
    by_cases he : resolve path = resolve scpath
    · have hsc : scpath = path := by
        cases htarget with
        | rekey _ _ hsc =>
          have hcc := resolve_inj hpath hsc he
          rw [← hcc, hpath] at hsc
          exact (Option.some.inj hsc).symm
      subst hsc
      refine .inr (.inr ⟨rcookie, npath, (rekeyCookie_name hm.moves.named).2,
        ⟨ses, env, line, cookie, rcookie, lpath, f, hev, hm⟩, ?_, ?_⟩)
      · rw [hm.post, moved_get, if_neg hne, if_pos rfl]
      · rw [hm.post, ← htb]
        simp only [Store.binding, moved_get, if_true, hm.moves.file]
    · refine .inl ?_
      rw [hm.post, ← htb]
      simp only [Store.binding, moved_get, if_neg hne, if_neg he]
  · rcases swept_of_asks (asks_sweep cfg now ls) hrun path with hsame | hnone
    · exact .inl (by rw [Store.binding, hsame]; exact hb)
    · exact .inr (.inl ⟨⟨now, ls, hev⟩, hnone⟩)

/-! ## Runs -/

/-- What becomes of the service cookie made at `path` for `login` in a run, and
where it is in the end. -/
inductive Fate (cfg : Config) (login : Str) : Str → List (Entry Store Event Outcome) → Option Str → Prop
  | here (path : Str) : Fate cfg login path [] (some path)
  | stays {path x tr r} : x.post.binding path = some login → Fate cfg login path tr r →
      Fate cfg login path (x :: tr) r
  | swept {path x tr} : (∃ now ls, x.ev = .sweep now ls) → x.post.get path = none → Fate cfg login path (x :: tr) none
  | moved {path npath x tr r} : MovedBy cfg path npath x → x.post.get path = none →
      x.post.binding npath = some login → Fate cfg login npath tr r → Fate cfg login path (x :: tr) r

/-- A `REGISTER` for `login`, or a `RETR` through one of its service cookies,
made the file at `path`. -/
structure Creates (cfg : Config) (path login : Str) (x : Entry Store Event Outcome) : Prop where
  before : x.pre.get path = none
  after : (x.post.get path).isSome
  command : ∃ ses env line cmd, x.ev = .command ses env line ∧
    ((findCommand cmd = some .register ∧ ∃ ip service, acavParse line = [cmd, login, ip, service]) ∨
      (findCommand cmd = some .retr ∧ ∃ cookie kind spath, acavParse line = [cmd, cookie, kind] ∧
        mkcookiepath none cfg.hashlen cookie maxPathLen = some spath ∧ x.pre.binding spath = some login))

theorem step_command {cfg : Config} {ses : Session} {env : Env} {line cmd : Str} {ws : List Str} {c : CommandName}
    {x : Entry Store Event Outcome} (hstep : step cfg x.pre x.ev = some (x.res, x.post))
    (hev : x.ev = .command ses env line) (hline : acavParse line = cmd :: ws) (hcmd : findCommand cmd = some c) :
    ∃ d, x.res = .answered d ∧ Prog.run exec (handle cfg ses env (cmd :: ws) c) x.pre = some (d, x.post) := by
  rw [hev, step] at hstep
  obtain ⟨⟨d, t⟩, hrun, he⟩ := Option.map_eq_some_iff.1 hstep
  simp only [Prod.mk.injEq] at he
  obtain ⟨hd, rfl⟩ := he
  exact ⟨d, hd.symm, by simpa only [command, hline, hcmd] using hrun⟩

theorem refusal_none {cfg : Config} {env : Env} {s t : Store} {p path : Str} (h : Refusal cfg env s p t)
    (hn : s.get path = none) : t.get path = none := by
  have := sameTexts_refusal h path
  rw [hn] at this
  exact Option.map_eq_none_iff.1 this

theorem touched_none {s : Store} {p path : Str} {now : Nat} (hn : s.get path = none) :
    (s.touched p now).get path = none := by
  have := sameTexts_touched s p now path
  rw [hn] at this
  exact Option.map_eq_none_iff.1 this

theorem bound_new {s : Store} {spath path login : Str} {now : Nat} (hl : '\n' ∉ login)
    (hlen : login.length < maxCookieLen) (hn : s.get path = none) (hsome : ((s.bound spath login now).get path).isSome) :
    (s.bound spath login now).binding path = some login := by
  by_cases he : resolve path = resolve spath
  · have : (s.bound spath login now).binding path = (s.bound spath login now).binding spath := by
      simp only [Store.binding, Store.get, he]
    rw [this, bound_binding hl hlen]
  · rw [Store.bound, Store.put_get_ne _ he, hn] at hsome
    cases hsome

theorem doRegister_new {env : Env} {i : Nat} {login lpath spath path : Str} {s t : Store} {rc : Int}
    (hl : '\n' ∉ login) (hlen : login.length < maxCookieLen)
    (h : Prog.run exec (doRegister env i login lpath spath) s = some (rc, t)) (hn : s.get path = none)
    (hsome : (t.get path).isSome) : t.binding path = some login := by
  rcases doRegister_cases h with ⟨-, rfl, -⟩ | ⟨-, rfl⟩ | ⟨-, -, -, -, rfl⟩ | ⟨-, -, -, -, rfl⟩
  · rw [hn] at hsome; cases hsome
  · rw [hn] at hsome; cases hsome
  · exact bound_new hl hlen hn hsome
  · have hsame := sameTexts_touched (s.bound spath login env.now) lpath env.now
    rw [binding_congr (hsame path)]
    refine bound_new hl hlen hn ?_
    cases hb : (s.bound spath login env.now).get path with
    | some f => rfl
    | none => rw [touched_none hb] at hsome; cases hsome

/-- A file `do_register` makes decodes to the login cookie it was made with. -/
theorem creates_binding {cfg : Config} {path login : Str} {x : Entry Store Event Outcome}
    (hstep : step cfg x.pre x.ev = some (x.res, x.post)) (hx : Creates cfg path login x) :
    x.post.binding path = some login := by
  have habsurd : ∀ {P : Prop}, x.post.get path = none → P := fun hn => by
    have := hx.after
    rw [hn] at this
    cases this
  obtain ⟨ses, env, line, cmd, hev, ⟨hcmd, ip, service, hline⟩ | ⟨hcmd, cookie, kind, spath, hline, hspath, hb⟩⟩ :=
    hx.command
  · obtain ⟨d, -, hrun⟩ := step_command hstep hev hline hcmd
    have hrun : Prog.run exec (fRegister cfg ses env (acavParse line)) x.pre = some (d, x.post) := by
      rw [hline]; exact hrun
    rcases fRegister_cases hrun with ⟨-, hs | ⟨_, _, _, _, _, -, -, hr⟩⟩ | ⟨login', lpath, service', spath, ci, hreg, hend⟩
    · exact habsurd (hs ▸ hx.before)
    · exact habsurd (refusal_none hr hx.before)
    · obtain ⟨hnl, hlen⟩ := hreg.login_fits
      have hlog : login' = login := by
        obtain ⟨cmd', ip', hav⟩ := hreg.args
        rw [hline] at hav
        cases hav
        rfl
      subst hlog
      have hafter := hx.after
      rcases hend with ⟨-, hs | ⟨-, -, -, ht⟩⟩ | ⟨-, hs, -⟩ | ⟨-, -, -, ht, -⟩
      · exact habsurd (hs ▸ hx.before)
      · rw [ht] at hafter ⊢
        exact bound_new hnl hlen hx.before hafter
      · exact habsurd (hs ▸ hx.before)
      · rw [ht] at hafter ⊢
        rw [touched_binding]
        refine bound_new hnl hlen hx.before ?_
        cases hbd : (x.pre.bound spath login' env.now).get path with
        | some f => rfl
        | none => rw [touched_none hbd] at hafter; cases hafter
  · obtain ⟨d, -, hrun⟩ := step_command hstep hev hline hcmd
    have hrun : Prog.run exec (fRetr cfg ses env [cmd, cookie, kind]) x.pre = some (d, x.post) := hrun
    rcases fRetr_cases hrun with ⟨-, hs | ⟨_, _, _, _, _, _, -, -, -, -, hr⟩⟩ |
      ⟨cmd', cookie', kind', spath', login', lpath, sl, ci, hav, hret, hend⟩
    · exact habsurd (hs ▸ hx.before)
    · exact habsurd (refusal_none hr hx.before)
    · cases hav
      have hsp : spath' = spath := by
        have := hret.sfile
        rw [hspath] at this
        exact (Option.some.inj this).symm
      subst hsp
      have hlog : login' = login := by
        have := binding_of_service hret.service
        rw [hb] at this
        exact (Option.some.inj this).symm
      subst hlog
      obtain ⟨f, -, hl⟩ := Option.bind_eq_some_iff.1 hb
      have hnl := parseService_no_newline hl
      have hlen := (mkcookiepath_spec hret.lfile).2.2.2.1
      rcases hend with ⟨hs, -⟩ | ⟨-, hsteps⟩
      · exact habsurd (hs ▸ hx.before)
      · have hafter := hx.after
        have hfirst : ∀ {u : Store}, Relation.ReflTransGen (RegisterStep cfg env login') x.pre u →
            (u.get path).isSome → u.binding path = some login' := by
          intro u hu
          induction hu with
          | refl => intro hs; rw [hx.before] at hs; cases hs
          | @tail v w _ hvw ih =>
            intro hw
            obtain ⟨i, _, lp, sp, rc, -, -, hdo⟩ := hvw
            cases hv : v.get path with
            | none => exact doRegister_new hnl hlen hdo hv hw
            | some g => exact (doRegister_kept hdo).binding (ih (by rw [hv]; rfl))
        exact hfirst hsteps hafter

theorem fate_run {cfg : Config} {c path login : Str} {s t : Store} {tr : List (Entry Store Event Outcome)}
    (hpath : mkcookiepath none cfg.hashlen c maxPathLen = some path) (hrun : Run cfg s tr t)
    (hspare : ∀ y ∈ tr, Spares cfg y) (hb : s.binding path = some login) :
    ∃ r, Fate cfg login path tr r ∧ ∀ p, r = some p → t.binding p = some login := by
  induction hrun generalizing c path with
  | nil u => exact ⟨_, .here path, by rintro p ⟨⟩; exact hb⟩
  | @cons u e r v tr t hstep _ ih =>
    have hrest : ∀ y ∈ tr, Spares cfg y := fun y hy => hspare y (List.mem_cons_of_mem _ hy)
    have hfirst : Spares cfg ⟨u, e, r, v⟩ := hspare _ List.mem_cons_self
    have hstep : step cfg (⟨u, e, r, v⟩ : Entry Store Event Outcome).pre e = some (r, v) := hstep
    rcases binding_step hpath hstep hfirst hb with hkeep | ⟨hsw, hn⟩ | ⟨c', npath, hc', hmv, hn, hcarried⟩
    · obtain ⟨q, hq, hend⟩ := ih hpath hrest hkeep
      exact ⟨q, .stays hkeep hq, hend⟩
    · exact ⟨none, .swept hsw hn, by simp⟩
    · obtain ⟨q, hq, hend⟩ := ih hc' hrest hcarried
      exact ⟨q, .moved hmv hn hcarried hq, hend⟩

/-- From the event that made it, a service cookie keeps its login cookie until
a sweep takes it away, wherever `REKEY` moves it. -/
theorem service_binding_once {cfg : Config} {c path login : Str} {s t : Store} {x : Entry Store Event Outcome}
    {tr : List (Entry Store Event Outcome)} (hpath : mkcookiepath none cfg.hashlen c maxPathLen = some path)
    (hrun : Run cfg s (x :: tr) t) (hx : Creates cfg path login x) (hspare : ∀ y ∈ tr, Spares cfg y) :
    x.post.binding path = some login ∧ ∃ r, Fate cfg login path tr r ∧
      ∀ p, r = some p → t.binding p = some login := by
  have hmade := creates_binding (hrun.fired x List.mem_cons_self) hx
  refine ⟨hmade, ?_⟩
  cases hrun with
  | cons _ htail => exact fate_run hpath htail hspare hmade

/-! ## One service cookie -/

theorem head_word {line cmd w : Str} {ws : List Str} (hline : acavParse line = cmd :: ws)
    (hw : (acavParse line).head? = some w) : cmd = w := by
  rw [hline] at hw
  exact Option.some.inj hw

/-- Eve's ticket ends with a line that lies over her request in the buffer. -/
def eveTicket : Event := .command .cgi
  { Env.calm 103 with
    size := some "0".toList
    lines := ["123456cosign-wiki=xyz".toList]
    overwritten := some ["123456cosign-wiki=xyz".toList, wikiCookie, "=xyz".toList, "eve".toList, "umich".toList,
      "kerberos".toList] }
  "LOGIN cosign=ghi 10.0.0.2 eve umich kerberos".toList

/-- A store with a directory for tickets. -/
def withTickets (s : Store) : Store := { s with dirs := fun d => d = "tickets".toList }

theorem annWiki_creates (out : Outcome) :
    Creates .default wikiCookie "cosign=abc".toList ⟨withTickets bothThere, annWiki, out, withTickets annBound⟩ :=
  ⟨rfl, rfl, _, _, _, "REGISTER".toList, rfl, .inl ⟨by decide, "10.0.0.1".toList, wikiCookie, by decide⟩⟩

theorem annWiki_step : ∃ d, step .default (withTickets bothThere) annWiki = some (.answered d, withTickets annBound) :=
  ⟨_, rfl⟩

/-- Ann's service cookie is unlinked by a `LOGIN`. -/
theorem login_unlinks_service : ¬ ∀ (cfg : Config) (c path login : Str) (s t : Store) (x : Entry Store Event Outcome)
    (tr : List (Entry Store Event Outcome)), mkcookiepath none cfg.hashlen c maxPathLen = some path →
    Run cfg s (x :: tr) t → Creates cfg path login x →
    (∀ y ∈ tr, ∀ ses env line cmd cookie rest rcookie npath, y.ev = .command ses env line →
      acavParse line = cmd :: cookie :: rest → findCommand cmd = some .rekey →
      rekeyCookie cfg env cookie = .ok (rcookie, npath) → y.pre.get npath = none) →
    x.post.binding path = some login ∧ ∃ r, Fate cfg login path tr r ∧ ∀ p, r = some p → t.binding p = some login := by
  intro h
  obtain ⟨d, h1⟩ := annWiki_step
  have h2 : ∃ out t, step .default (withTickets annBound) eveTicket = some (out, t) ∧ t.binding wikiCookie = none :=
    ⟨_, _, rfl, rfl⟩
  obtain ⟨out, t, h2, hgone⟩ := h2
  have hlogin : findCommand "LOGIN".toList = some .login := by decide
  have hword : ∀ {cmd : Str} {ws : List Str}, acavParse "LOGIN cosign=ghi 10.0.0.2 eve umich kerberos".toList = cmd :: ws →
      findCommand cmd ≠ some .rekey := by
    intro cmd ws hline
    have hw : cmd = "LOGIN".toList := head_word hline rfl
    rw [hw, hlogin]
    decide
  obtain ⟨-, r, hfate, -⟩ := h .default wikiCookie wikiCookie "cosign=abc".toList _ _ _ _ rfl (.cons h1 (.cons h2 (.nil _)))
    (annWiki_creates _) (by
      intro y hy ses env line cmd cookie rest rcookie npath hev hline hcmd
      rw [List.mem_singleton] at hy
      subst hy
      cases hev
      exact absurd hcmd (hword hline))
  cases hfate with
  | stays hb => rw [hgone] at hb; cases hb
  | swept hsw => obtain ⟨_, _, hsw⟩ := hsw; cases hsw
  | moved hm =>
    obtain ⟨ses, env, line, cookie, rcookie, lpath, f, hev, hm⟩ := hm
    obtain ⟨cmd, rest, hline, hcmd, -⟩ := hm.line
    cases hev
    exact hword hline hcmd

/-- Ann logs out. -/
def annOut : Event := .command .cgi (.calm 104) "LOGOUT cosign=abc 10.0.0.1".toList

/-- Her service cookie still names her login cookie then. -/
theorem annWiki_stays : ∃ (t : Store) (r : Option Str), ∃ tr, Fate .default "cosign=abc".toList wikiCookie tr r ∧
    tr.length = 1 ∧ ∀ p, r = some p → t.binding p = some "cosign=abc".toList := by
  obtain ⟨d, h1⟩ := annWiki_step
  have h2 : ∃ out t, step .default (withTickets annBound) annOut = some (out, t) := ⟨_, _, rfl⟩
  obtain ⟨out, t, h2⟩ := h2
  have hlogout : findCommand "LOGOUT".toList = some .logout := by decide
  have hpath : mkcookiepath none 0 wikiCookie maxPathLen = some wikiCookie := rfl
  obtain ⟨-, r, hfate, hend⟩ := service_binding_once hpath (.cons h1 (.cons h2 (.nil _)))
    (annWiki_creates _) (by
      intro y hy
      rw [List.mem_singleton] at hy
      subst hy
      refine ⟨fun ses env line cmd cookie rest rcookie npath hev hline hcmd => ?_, fun ses env line words l hev _ _ _ hw => ?_⟩
      · cases hev
        have hw : cmd = "LOGOUT".toList := head_word hline rfl
        rw [hw, hlogout] at hcmd
        cases hcmd
      · cases hev
        cases hw)
  exact ⟨t, r, _, hfate, rfl, hend⟩

end Cosign
