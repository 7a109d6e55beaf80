import Cosign.Cgi.Check
import Cosign.Cgi.Network
import Cosign.Common.Readconf
import Cosign.Daemon.Finality
import Cosign.Daemon.Framing
import Cosign.Daemon.Identity
import Cosign.Daemon.Lifetime
/-!
# Factors of a POST

The CGI asks the daemon who a cookie belongs to, runs the factor programs whose
fields were posted, and sends a `LOGIN` for each new factor. A program with the
flag -2 is run only when somebody is logged in already. Other requests, other
connections and sweeps come between any two of these steps.
-/

namespace Cosign

open Lib

/-! ## The requests -/

inductive Phase where
  /-- before the first `cosign_check` -/
  | begins
  | factors
  /-- before the `cosign_check` after a login -/
  | again
  deriving DecidableEq

/-- A POST with its cookie. -/
structure Request where
  cookie : Str
  /-- It is a login cookie, and `cosign_check` sends it. -/
  valid : hasPrefix "cosign=".toList cookie ∧ validchars cookie = true
  ip : Str
  ui : UserInfo
  login : Str
  /-- The rest of `factorlist`. -/
  left : List Factorlist
  phase : Phase

/-- What `net_check` and `net_login` write. -/
def checkLine (cookie : Str) : Str := unwords (Message.check cookie).words

def loginLine (cookie ip user realm : Str) : Str := unwords (Message.login cookie ip user realm false).words

/-- After the reply to `CHECK`. Only the first decides whose login it is. -/
def Request.checked (r : Request) (protocol : Int) (line : Str) : Request := { r with
  ui := (netCheck protocol r.ui line).2
  login := if r.phase = .begins ∧ (netCheck protocol r.ui line).1 = .ok then (netCheck protocol r.ui line).2.login else r.login
  phase := .factors }

/-- The daemon's store, and the requests under way. -/
structure Site where
  store : Store
  posts : Nat → Option Request

def Site.post (w : Site) (t : Store) (i : Nat) (r : Option Request) : Site := ⟨t, Function.update w.posts i r⟩

abbrev Happening := Entry Store Event Outcome

/-- One step. An event of the daemon is listed, with whether it is the `LOGIN` for
a factor with the flag -2. -/
inductive Site.Step (cfg : Config) (protocol : Int) : Site → Option (Bool × Happening) → Site → Prop where
  | other {w : Site} {ev : Event} {out : Outcome} {t : Store} (h : step cfg w.store ev = some (out, t)) :
      Step cfg protocol w (some (false, ⟨w.store, ev, out, t⟩)) ⟨t, w.posts⟩
  | begins {w : Site} (i : Nat) (r : Request) (hui : r.ui = ⟨[], [], []⟩) (hp : r.phase = .begins) :
      Step cfg protocol w none (w.post w.store i (some r))
  | ends {w : Site} (i : Nat) : Step cfg protocol w none (w.post w.store i none)
  | check {w : Site} {i : Nat} {r : Request} {ses : Session} {env : Env} {d : Done} {t : Store} {reply : Reply}
      (hr : w.posts i = some r) (hp : r.phase ≠ .factors)
      (h : step cfg w.store (.command ses env (checkLine r.cookie)) = some (.answered d, t)) (hd : reply ∈ d.out) :
      Step cfg protocol w (some (false, ⟨w.store, .command ses env (checkLine r.cookie), .answered d, t⟩))
        (w.post t i (some (r.checked protocol reply.wire)))
  /-- `cosign_check` gets no reply. -/
  | lost {w : Site} {i : Nat} {r : Request} (hr : w.posts i = some r) (hp : r.phase ≠ .factors) :
      Step cfg protocol w none (w.post w.store i (some { r with phase := .factors }))
  /-- The password is good: its own `LOGIN` is one of the other events. -/
  | password {w : Site} {i : Nat} {r : Request} (hr : w.posts i = some r) (hp : r.phase = .factors) :
      Step cfg protocol w none (w.post w.store i (some { r with phase := .again }))
  /-- The factor's fields were not posted, or the session has the factor. -/
  | skip {w : Site} {i : Nat} {r : Request} {fl : Factorlist} {rest : List Factorlist} (hr : w.posts i = some r)
      (hp : r.phase = .factors) (hl : r.left = fl :: rest) :
      Step cfg protocol w none (w.post w.store i (some { r with left := rest }))
  /-- `execfactor` gives `msg`. -/
  | factor {w : Site} {i : Nat} {r : Request} {fl : Factorlist} {rest : List Factorlist} {msg : Str} {ses : Session}
      {env : Env} {out : Outcome} {t : Store} (hr : w.posts i = some r) (hp : r.phase = .factors) (hl : r.left = fl :: rest)
      (hflag : ¬ (fl.flag = 2 ∧ r.ui.login = [])) (hnew : msg ∉ r.ui.factors ∨ r.ui.ipaddr ≠ r.ip)
      (h : step cfg w.store (.command ses env (loginLine r.cookie r.ip r.login msg)) = some (out, t)) :
      Step cfg protocol w
        (some (fl.flag = 2, ⟨w.store, .command ses env (loginLine r.cookie r.ip r.login msg), out, t⟩))
        (w.post t i (some { r with left := rest, phase := .again }))

/-- Any steps, where each event of the daemon has `C`. The events are listed from
the first to the last. -/
inductive Site.Run (cfg : Config) (protocol : Int) (C : Site → Happening → Prop) (w₀ : Site) :
    List (Bool × Happening) → Site → Prop where
  | nil : Run cfg protocol C w₀ [] w₀
  | quiet {tr w w'} (hr : Run cfg protocol C w₀ tr w) (h : Site.Step cfg protocol w none w') :
      Run cfg protocol C w₀ tr w'
  | event {tr w w' y} (hr : Run cfg protocol C w₀ tr w) (h : Site.Step cfg protocol w (some y) w') (hy : C w y.2) :
      Run cfg protocol C w₀ (tr ++ [y]) w'

/-- The event does not take away the file of a cookie that a request under way has
found in use. -/
def SparesPosts (cfg : Config) (w : Site) (x : Happening) : Prop :=
  ∀ i r path, w.posts i = some r → r.ui.login ≠ [] → mkcookiepath none cfg.hashlen r.cookie maxPathLen = some path →
    (x.pre.get path).isSome → (x.post.get path).isSome

/-! ## Primary factors -/

instance (path : Str) (x : Happening) : Decidable (Anew path x) :=
  inferInstanceAs (Decidable (x.pre.get path = none ∧ (x.post.get path).isSome))

/-- The event that made the file that is there now. -/
def founder (path : Str) (tr : List (Bool × Happening)) : Option (Bool × Happening) :=
  (tr.filter fun y => Anew path y.2).getLast?

/-- The event is a `LOGIN` for `c` whose first factor is `factor`. -/
def LogsWith (cfg : Config) (c factor : Str) (x : Happening) : Prop :=
  ∃ ses env line a, x.ev = .command ses env line ∧ IsLogin line ∧ loginArgs cfg env (acavParse line) = .args a ∧
    a.cookie = c ∧ a.factor = factor

/-- The session's record begins with a factor that is not from a program with the
flag -2: that of the `LOGIN` that made it, or of the record of the beginning. -/
def Primary (cfg : Config) (s : Store) (tr : List (Bool × Happening)) (c path : Str) (ci : Cinfo) : Prop :=
  match founder path tr with
  | some (secondary, x) => secondary = false ∧ ∃ factor, LogsWith cfg c factor x ∧ (acavParse ci.realm).head? = some factor
  | none => ∃ ci₀, s.cookie path = some (0, ci₀) ∧ Grows ci₀ ci

/-! ## The lines -/

theorem acavParse_cons {w : Str} (hw : IsWord w) (s : Str) : acavParse (w ++ ' ' :: s) = w :: acavParse s := by
  rw [acavParse, acavScan_word hw]
  simp [acavScan, isBlank, acavParse]

theorem Request.word (r : Request) : IsWord r.cookie := by
  refine word_of_valid r.valid.2 ?_
  intro h
  have := r.valid.1
  rw [h] at this
  cases this

theorem checkLine_words (r : Request) : acavParse (checkLine r.cookie) = ["CHECK".toList, r.cookie] := by
  rw [checkLine]
  exact acavParse_unwords (List.forall_mem_cons.2 ⟨word_of_valid (by decide +kernel) (by decide),
    List.forall_mem_singleton.2 r.word⟩)

theorem loginLine_words (r : Request) (ip user realm : Str) :
    ∃ rest, acavParse (loginLine r.cookie ip user realm) = "LOGIN".toList :: r.cookie :: rest := by
  have hlogin : IsWord "LOGIN".toList := word_of_valid (by decide +kernel) (by decide)
  have hline : loginLine r.cookie ip user realm =
      "LOGIN".toList ++ ' ' :: (r.cookie ++ ' ' :: (ip ++ ' ' :: (user ++ ' ' :: realm))) := rfl
  rw [hline, acavParse_cons hlogin, acavParse_cons r.word]
  exact ⟨_, rfl⟩

/-! ## `CHECK` -/

/-- The codes of `f_check`. -/
def Reply.Checked (r : Reply) : Prop := ∃ code text, r = .line code text ∧ (200 ≤ code ∧ code < 300 ∨ 400 ≤ code ∧ code < 600)

theorem checked_reply {ret : Int} {code : Nat} {text : Str} (h : 200 ≤ code ∧ code < 300 ∨ 400 ≤ code ∧ code < 600) :
    Prog.Returns (fun d => ∀ r ∈ d.out, Reply.Checked r) (reply ret code text) := by
  intro r hr
  rw [List.mem_singleton.1 hr]
  exact ⟨code, text, rfl, h⟩

theorem checked_fatal : Prog.Returns (fun d => ∀ r ∈ d.out, Reply.Checked r) fatal := fun r hr => by cases hr

theorem checked_idleOut {cfg : Config} {env : Env} {ci : Cinfo} {path : Str} {grey idle : Nat} {x y : Str}
    (hg : 400 ≤ grey ∧ grey < 600) (hi : 400 ≤ idle ∧ idle < 600) :
    Prog.Returns (fun d => ∀ r ∈ d.out, Reply.Checked r) (idleOut cfg env ci path (.line grey x) (.line idle y)) := by
  unfold idleOut
  split
  · exact checked_reply (.inr hg)
  · refine Prog.returns_bind _ fun rc => ?_
    intro r hr
    rw [List.mem_singleton.1 hr]
    exact ⟨idle, y, rfl, .inr hi⟩

theorem checked_checkLogin {cfg : Config} {ses : Session} {env : Env} {cmd cookie path : Str} {status : Nat}
    {scpath : Option Str} (hs : 200 ≤ status ∧ status < 300) :
    Prog.Returns (fun d => ∀ r ∈ d.out, Reply.Checked r) (checkLogin cfg ses env cmd cookie path status scpath) := by
  have hreply : ∀ (ci : Cinfo) (rcookie : Str), Prog.Returns (fun d => ∀ r ∈ d.out, Reply.Checked r)
      (pure { ret := .ret 0, out := [checkReply ses status ci rcookie] } : Handler Done) := by
    intro ci rcookie r hr
    rw [List.mem_singleton.1 hr]
    obtain ⟨text, htext⟩ := checkReply_line ses status ci rcookie
    exact ⟨status, text, htext, .inl hs⟩
  refine Prog.returns_bind _ fun x => ?_
  dsimp only
  split
  · exact checked_reply (by decide)
  split
  · exact checked_reply (by decide)
  split
  · exact checked_fatal
  split
  · exact checked_idleOut (by decide) (by decide)
  refine Prog.returns_bind _ fun _ => ?_
  split
  · exact hreply _ _
  split
  · exact checked_reply (by decide)
  refine Prog.returns_bind _ fun moved => ?_
  split
  · exact checked_reply (by decide)
  · exact hreply _ _

theorem checked_fCheck (cfg : Config) (ses : Session) (env : Env) (av : List Str) :
    Prog.Returns (fun d => ∀ r ∈ d.out, Reply.Checked r) (fCheck cfg ses env av) := by
  unfold fCheck
  split
  · trivial
  split
  · exact checked_reply (by decide)
  split
  · trivial
  split
  · exact checked_reply (by decide)
  split
  · refine Prog.returns_bind _ fun valid => ?_
    split
    · exact checked_reply (by decide)
    refine Prog.returns_bind _ fun login => ?_
    split
    · exact checked_reply (by decide)
    dsimp only
    split
    · exact checked_reply (by decide)
    split
    · exact checked_checkLogin (by decide)
    · exact checked_checkLogin (by decide)
  split
  · exact checked_checkLogin (by decide)
  · exact checked_reply (by decide)

/-- The CGI takes a login name only from a reply 2xx. -/
theorem netCheck_login {protocol : Int} {ui : UserInfo} {r : Reply} (hr : r.Checked)
    (h : (netCheck protocol ui r.wire).2.login ≠ ui.login) : ∃ code, r.code? = some code ∧ 200 ≤ code ∧ code < 300 := by
  obtain ⟨code, text, rfl, hcode⟩ := hr
  rcases hcode with hcode | hcode
  · exact ⟨code, rfl, hcode⟩
  · exfalso
    have hall : ((List.range 200).all fun n => (dec (400 + n)).head? = some '4' ∨ (dec (400 + n)).head? = some '5') = true := by
      decide +kernel
    rw [List.all_eq_true] at hall
    have hhead : (dec code).head? = some '4' ∨ (dec code).head? = some '5' := by
      have := of_decide_eq_true (hall (code - 400) (List.mem_range.2 (by omega)))
      rwa [show 400 + (code - 400) = code by omega] at this
    refine h ?_
    rw [Reply.wire]
    cases hd : dec code with
    | nil => exact absurd hd (dec_ne_nil code)
    | cons c cs =>
      rw [hd, List.head?_cons, Option.some.injEq, Option.some.injEq] at hhead
      rcases hhead with rfl | rfl <;> rfl

/-- A `CHECK` that gives a login name has found the file, and leaves it. -/
theorem check_finds {cfg : Config} {ses : Session} {env : Env} {r : Request} {s t : Store} {d : Done} {reply : Reply}
    {protocol : Int} {path : Str} (hpath : mkcookiepath none cfg.hashlen r.cookie maxPathLen = some path)
    (h : step cfg s (.command ses env (checkLine r.cookie)) = some (.answered d, t)) (hd : reply ∈ d.out)
    (hlogin : (netCheck protocol r.ui reply.wire).2.login ≠ r.ui.login) : (t.get path).isSome := by
  obtain ⟨⟨d', t'⟩, hrun, he⟩ := Option.map_eq_some_iff.1 h
  cases he
  have hcmd : command cfg ses env (checkLine r.cookie) = fCheck cfg ses env ["CHECK".toList, r.cookie] := by
    have hfind : findCommand "CHECK".toList = some .check := by decide
    rw [command, checkLine_words]
    simp only [hfind]
    rfl
  rw [hcmd] at hrun
  -- a login name means a reply 2xx, and that leaves only the answer for a live record
  have hchecked := (checked_fCheck cfg ses env _).run hrun reply hd
  obtain ⟨code, hcode, hok⟩ := netCheck_login hchecked hlogin
  have hdone : d.ok := ⟨code, hok.1, hok.2, reply, hd, hcode⟩
  rcases fCheck_cases hrun with ⟨-, hdenied⟩ | ⟨cmd, cookie, rest, lpath, status, sc, hav, htarget, hlog⟩
  · exact absurd hdone hdenied.1
  cases hav
  cases htarget with
  | service hc => exact absurd hc (login_not_service r.valid.1)
  | rekey hc => exact absurd hc (login_not_service r.valid.1)
  | login hn hc hfile =>
    cases hpath.symm.trans hfile
    rcases checkLogin_cases hlog with ⟨hdenied, -⟩ | ⟨ci, hlive, hend⟩
    · exact absurd hdone hdenied.1
    · obtain ⟨-, f, hf, -⟩ := opened_file hlive.read
      rcases hend with ⟨-, rfl, -⟩ | ⟨hs, -⟩ | ⟨_, _, _, _, hs, -⟩
      · obtain ⟨g, hg, -⟩ := touched_kept s path env.now path f hf
        rw [hg]
        rfl
      · cases hs
      · cases hs

/-! ## Requests and files -/

/-- The file of a cookie that a request has found is there. -/
def Site.Present (cfg : Config) (w : Site) : Prop :=
  ∀ i r path, w.posts i = some r → r.ui.login ≠ [] → mkcookiepath none cfg.hashlen r.cookie maxPathLen = some path →
    (w.store.get path).isSome

theorem present_quiet {cfg : Config} {protocol : Int} {w w' : Site} (h : Site.Step cfg protocol w none w')
    (hw : w.Present cfg) : w'.Present cfg := by
  have hupdate : ∀ {i : Nat} {r : Option Request}, (∀ r', r = some r' → r'.ui.login ≠ [] →
      ∃ r₀, w.posts i = some r₀ ∧ r₀.ui = r'.ui ∧ r₀.cookie = r'.cookie) → (w.post w.store i r).Present cfg := by
    intro i r hr j r' path hj hlogin hpath
    by_cases hij : j = i
    · subst hij
      obtain ⟨r₀, hr₀, hui, hcookie⟩ := hr r' (by simpa [Site.post] using hj) hlogin
      exact hw j r₀ path hr₀ (by rwa [hui]) (by rwa [hcookie])
    · exact hw j r' path (by simpa [Site.post, hij] using hj) hlogin hpath
  -- no step but an event gives a request a login name
  cases h with
  | begins i r hui hp =>
    refine hupdate fun r' hr' hlogin => ?_
    cases hr'
    rw [hui] at hlogin
    exact absurd rfl hlogin
  | ends i => exact hupdate fun r' hr' => by cases hr'
  | lost hr hp => exact hupdate fun r' hr' _ => by cases hr'; exact ⟨_, hr, rfl, rfl⟩
  | password hr hp => exact hupdate fun r' hr' _ => by cases hr'; exact ⟨_, hr, rfl, rfl⟩
  | skip hr hp hl => exact hupdate fun r' hr' _ => by cases hr'; exact ⟨_, hr, rfl, rfl⟩

theorem present_event {cfg : Config} {protocol : Int} {w w' : Site} {y : Bool × Happening}
    (h : Site.Step cfg protocol w (some y) w') (hs : SparesPosts cfg w y.2) (hw : w.Present cfg) : w'.Present cfg := by
  cases h with
  | other h => exact fun i r path hr hlogin hpath => hs i r path hr hlogin hpath (hw i r path hr hlogin hpath)
  | check hr hp h hd =>
    rename_i i r ses env d t reply
    intro j r' path hj hlogin hpath
    by_cases hij : j = i
    · subst hij
      obtain rfl : r.checked protocol reply.wire = r' := by simpa [Site.post] using hj
      -- the request knew the name before, or this reply has told it
      by_cases hsame : (netCheck protocol r.ui reply.wire).2.login = r.ui.login
      · have hlogin' : r.ui.login ≠ [] := by rw [← hsame]; exact hlogin
        exact hs j r path hr hlogin' hpath (hw j r path hr hlogin' hpath)
      · exact check_finds (r := r) hpath h hd hsame
    · have hj : w.posts j = some r' := by simpa [Site.post, hij] using hj
      exact hs j r' path hj hlogin hpath (hw j r' path hj hlogin hpath)
  | factor hr hp hl hflag hnew h =>
    rename_i i r fl rest msg ses env out t
    intro j r' path hj hlogin hpath
    by_cases hij : j = i
    · subst hij
      obtain rfl : { r with left := rest, phase := .again } = r' := by simpa [Site.post] using hj
      exact hs j r path hr hlogin hpath (hw j r path hr hlogin hpath)
    · have hj : w.posts j = some r' := by simpa [Site.post, hij] using hj
      exact hs j r' path hj hlogin hpath (hw j r' path hj hlogin hpath)

/-! ## The `LOGIN` that makes a file -/

theorem Anew.fresh {path : Str} {x : Happening} (h : Anew path x) : x.post.get path ≠ x.pre.get path := by
  intro hsame
  have hsome := h.2
  rw [hsame, h.1] at hsome
  cases hsome

theorem loginArgs_cookie {cfg : Config} {env : Env} {cmd cookie : Str} {rest : List Str} {a : LoginArgs}
    (h : loginArgs cfg env (cmd :: cookie :: rest) = .args a) : a.cookie = cookie := by
  unfold loginArgs at h
  split at h
  · rename_i hav
    simp only [List.cons.injEq] at hav
    obtain ⟨-, rfl, -⟩ := hav
    split at h
    · split at h
      · cases h
      · dsimp only at h
        split at h
        · cases h
        · cases h; rfl
    · cases h; rfl
  · cases h

/-- The record of a file that a `LOGIN` makes begins with the factor of its line. -/
theorem published_first {cfg : Config} {ses : Session} {env : Env} {line : Str} {s : Store} {a : LoginArgs} {path : Str}
    {rc : Int} {ci ci' : Cinfo} {text : Str} {already : Bool} (hrc : rc ≠ 0)
    (hp : Publishes cfg ses env (acavParse line) s a path rc ci text already)
    (h : parseCookie ⟨text, false, env.now⟩ = some (0, ci')) : (acavParse ci'.realm).head? = some a.factor := by
  have hnew : decide (rc = 0) = false := decide_eq_false hrc
  obtain ⟨htext, -⟩ := loginRecord_full hp.record
  have hw := hp.written (acavParse_words line)
  rw [hnew] at htext hw
  subst htext
  simp only [loginText, Bool.false_eq_true, if_false] at h hw
  have hread := recordText_read hw h
  have hfactors : acavParse ci'.realm = loginFactors false ci a := by
    rw [hread]
    exact acavParse_unwords hw.factors
  rw [hfactors]
  rfl

/-- What another command leaves where no file was is a service cookie. -/
theorem otherOp_service {cfg : Config} {c path : Str} (hpath : mkcookiepath none cfg.hashlen c maxPathLen = some path)
    (hc : ¬ hasPrefix "cosign-".toList c) {o : FsOp} (ho : OtherOp cfg o) {s : Store}
    (h : ∀ f, s.get path = some f → f.text.head? = some 'l') :
    ∀ f, (exec o s).2.get path = some f → f.text.head? = some 'l' := by
  have hput : ∀ (p : Str) (g : File), (∀ f', s.get p = some f' → g.text = f'.text) → (s.get p).isSome →
      ∀ f, (s.put p (some g)).get path = some f → f.text.head? = some 'l' := by
    intro p g htext hp f hf
    by_cases he : resolve path = resolve p
    · obtain ⟨f', hf'⟩ := Option.isSome_iff_exists.1 hp
      rw [get_congr he, Store.put_get] at hf
      cases hf
      rw [htext f' hf']
      exact h f' (by rw [get_congr he, hf'])
    · rw [Store.put_get_ne _ he] at hf
      exact h f hf
  cases ho with
  | read p => exact h
  | utime p t =>
    simp only [exec]
    split
    · exact h
    · rename_i f' hp
      exact hput p _ (fun k hk => by rw [hp] at hk; cases hk; rfl) (by rw [hp]; rfl)
  | chmod p =>
    simp only [exec]
    split
    · exact h
    · rename_i f' hp
      exact hput p _ (fun k hk => by rw [hp] at hk; cases hk; rfl) (by rw [hp]; rfl)
  | @link service p login now hp =>
    simp only [exec]
    split
    · exact h
    split
    · intro f hf
      by_cases he : resolve path = resolve p
      · rw [get_congr he, Store.put_get] at hf
        cases hf
        rfl
      · rw [Store.put_get_ne _ he] at hf
        exact h f hf
    · exact h
  | @move service rcookie p q h1 h2 h3 h4 =>
    have hne : ∀ d x, hasPrefix "cosign-".toList d → mkcookiepath none cfg.hashlen d maxPathLen = some x →
        resolve path ≠ resolve x := fun d x hd hx he => hc (resolve_inj hpath hx he ▸ hd)
    rw [exec_frame _ s (by simp [FsOp.targets, hne _ _ h1 h3, hne _ _ h2 h4])]
    exact h

/-- An event that makes a session's file is a `LOGIN` for it. -/
theorem anew_logs {cfg : Config} {c path : Str} (hc : hasPrefix "cosign=".toList c)
    (hpath : mkcookiepath none cfg.hashlen c maxPathLen = some path) {x : Happening}
    (hstep : step cfg x.pre x.ev = some (x.res, x.post)) (ha : Anew path x) {ci : Cinfo}
    (hread : x.post.cookie path = some (0, ci)) :
    ∃ factor, LogsWith cfg c factor x ∧ (acavParse ci.realm).head? = some factor := by
  obtain ⟨g, hg, hparse⟩ := cookie_file hread
  rcases step_cases hstep with ⟨ses, env, line, d, hev, -, hl, hrun⟩ | ⟨ses, env, line, d, -, -, hl, hrun⟩ |
    ⟨now, ls, r, -, -, hrun⟩
  · rcases fLogin_get hpath hrun with hsame | ⟨a, rc, ci₀, text, already, hp, hcookie, hget⟩ | ⟨-, hn⟩
    · exact absurd hsame ha.fresh
    · -- there was no record to extend
      have hrc : rc ≠ 0 := by
        rintro rfl
        obtain ⟨-, f, hf, -⟩ := opened_file hp.read
        rw [ha.1] at hf
        cases hf
      rw [hg] at hget
      cases hget
      exact ⟨a.factor, ⟨ses, env, line, a, hev, hl, hp.args, hcookie, rfl⟩, published_first hrc hp hparse⟩
    · rw [hg] at hn
      cases hn
  · have hservice := (asks_command hl).inv (fun u => ∀ f, u.get path = some f → f.text.head? = some 'l')
      (fun o u ho hu => otherOp_service hpath (login_not_service hc) ho hu)
      (fun f hf => by rw [ha.1] at hf; cases hf) hrun
    exact absurd hparse (head_not_record (hservice g hg) ci)
  · rcases swept_of_asks (asks_sweep cfg now ls) hrun path with hsame | hn
    · exact absurd hsame ha.fresh
    · rw [hg] at hn
      cases hn

/-- While the file exists, the record was there before the event, and has grown. -/
theorem grows_back {cfg : Config} {c path : Str} (hpath : mkcookiepath none cfg.hashlen c maxPathLen = some path)
    {x : Happening} (hstep : step cfg x.pre x.ev = some (x.res, x.post)) (hpre : (x.pre.get path).isSome)
    {ci : Cinfo} (hread : x.post.cookie path = some (0, ci)) :
    ∃ ci₀, x.pre.cookie path = some (0, ci₀) ∧ Grows ci₀ ci := by
  obtain ⟨g, hg, -⟩ := cookie_file hread
  have hpost : (x.post.get path).isSome := by rw [hg]; rfl
  by_cases hold : ∃ ci₀, x.pre.cookie path = some (0, ci₀)
  · obtain ⟨ci₀, hold⟩ := hold
    refine ⟨ci₀, hold, grows_step hpath hstep hpre hpost ?_ ci hread⟩
    intro ci' hci'
    rw [hold] at hci'
    cases hci'
    exact Grows.refl ci₀
  · -- nothing could be read before, so the record would have grown from any other
    have hany : GrownFrom { ci with user := 'x' :: ci.user } path x.pre := fun ci' hci' => absurd ⟨ci', hci'⟩ hold
    have huser := (grows_step hpath hstep hpre hpost hany ci hread).user
    exact absurd huser.symm (List.cons_ne_self _ _)

/-! ## One event -/

theorem event_step {cfg : Config} {protocol : Int} {w w' : Site} {y : Bool × Happening}
    (h : Site.Step cfg protocol w (some y) w') :
    step cfg y.2.pre y.2.ev = some (y.2.res, y.2.post) ∧ y.2.pre = w.store ∧ y.2.post = w'.store := by
  cases h with
  | other h => exact ⟨h, rfl, rfl⟩
  | check hr hp h hd => exact ⟨h, rfl, rfl⟩
  | factor hr hp hl hflag hnew h => exact ⟨h, rfl, rfl⟩

theorem quiet_store {cfg : Config} {protocol : Int} {w w' : Site} (h : Site.Step cfg protocol w none w') :
    w'.store = w.store := by
  cases h <;> rfl

/-- The `LOGIN` of a secondary factor finds the file the request has read. -/
theorem secondary_extends {cfg : Config} {protocol : Int} {c path : Str}
    (hpath : mkcookiepath none cfg.hashlen c maxPathLen = some path) {w w' : Site} {x : Happening}
    (h : Site.Step cfg protocol w (some (true, x)) w') (hw : w.Present cfg) : ¬ Anew path x := by
  intro ha
  generalize hy : (true, x) = y at h
  cases h with
  | other h => cases hy
  | check hr hp h hd => cases hy
  | factor hr hp hl hflag hnew h =>
    rename_i i r fl rest msg ses env out t
    obtain ⟨hfl, rfl⟩ := Prod.mk.inj hy
    have hlogin : r.ui.login ≠ [] := fun hn => hflag ⟨of_decide_eq_true hfl.symm, hn⟩
    obtain ⟨ws, hwords⟩ := loginLine_words r r.ip r.login msg
    have hislogin : IsLogin (loginLine r.cookie r.ip r.login msg) :=
      ⟨"LOGIN".toList, by rw [hwords]; rfl, by decide⟩
    rcases step_cases h with ⟨ses', env', line, d, hev, -, hl, hrun⟩ | ⟨ses', env', line, d, hev, -, hl, hrun⟩ |
      ⟨now, ls, res, hev, -, hrun⟩
    · cases hev
      rcases fLogin_get hpath hrun with hsame | ⟨a, rc, ci₀, text, already, hp', hcookie, hget⟩ | ⟨-, hn⟩
      · exact ha.fresh hsame
      · have hargs := hp'.args
        rw [hwords] at hargs
        have hsame : r.cookie = c := (loginArgs_cookie hargs).symm.trans hcookie
        have hthere := hw i r path hr hlogin (by rw [hsame]; exact hpath)
        have hgone : w.store.get path = none := ha.1
        rw [hgone] at hthere
        cases hthere
      · have hsome : (t.get path).isSome := ha.2
        rw [hn] at hsome
        cases hsome
    · cases hev
      exact hl hislogin
    · cases hev

/-! ## Runs -/

theorem founder_append {path : Str} (tr : List (Bool × Happening)) (y : Bool × Happening) :
    founder path (tr ++ [y]) = if Anew path y.2 then some y else founder path tr := by
  rw [founder, List.filter_append]
  by_cases ha : Anew path y.2
  · rw [if_pos ha, List.filter_singleton, decide_eq_true ha]
    exact List.getLast?_concat
  · rw [if_neg ha, List.filter_singleton, decide_eq_false ha]
    exact congrArg List.getLast? (List.append_nil _)

theorem Primary.grows {cfg : Config} {s : Store} {tr : List (Bool × Happening)} {c path : Str} {ci ci' : Cinfo}
    (h : Primary cfg s tr c path ci) (hg : Grows ci ci') : Primary cfg s tr c path ci' := by
  unfold Primary at h ⊢
  split
  · rename_i secondary x hf
    rw [hf] at h
    obtain ⟨hsec, factor, hlogs, hhead⟩ := h
    exact ⟨hsec, factor, hlogs, hg.first.trans hhead⟩
  · rename_i hf
    rw [hf] at h
    obtain ⟨ci₀, hci₀, hg₀⟩ := h
    exact ⟨ci₀, hci₀, hg₀.trans hg⟩

/-- The step lemma: an event that spares the files of the requests under way. -/
theorem primary_event {cfg : Config} {protocol : Int} {s : Store} {tr : List (Bool × Happening)} {c path : Str}
    (hc : hasPrefix "cosign=".toList c) (hpath : mkcookiepath none cfg.hashlen c maxPathLen = some path) {w w' : Site}
    {y : Bool × Happening} (h : Site.Step cfg protocol w (some y) w') (hw : w.Present cfg)
    (hprimary : ∀ ci, w.store.cookie path = some (0, ci) → Primary cfg s tr c path ci) {ci : Cinfo}
    (hread : w'.store.cookie path = some (0, ci)) : Primary cfg s (tr ++ [y]) c path ci := by
  obtain ⟨hstep, hpre, hpost⟩ := event_step h
  rw [← hpost] at hread
  by_cases ha : Anew path y.2
  · -- the event is the file's founder, and that is never the LOGIN of a secondary factor
    obtain ⟨factor, hlogs, hhead⟩ := anew_logs hc hpath hstep ha hread
    have hsec : y.1 = false := by
      obtain ⟨secondary, x⟩ := y
      cases secondary with
      | false => rfl
      | true => exact absurd ha (secondary_extends hpath h hw)
    rw [Primary, founder_append, if_pos ha]
    exact ⟨hsec, factor, hlogs, hhead⟩
  · -- the founder is the one from before, whose factor the record still begins with
    have hthere : (y.2.pre.get path).isSome := by
      obtain ⟨g, hg, -⟩ := cookie_file hread
      rw [← Option.ne_none_iff_isSome]
      intro hn
      exact ha ⟨hn, by rw [hg]; rfl⟩
    obtain ⟨ci₀, hci₀, hgrows⟩ := grows_back hpath hstep hthere hread
    rw [hpre] at hci₀
    rw [Primary, founder_append, if_neg ha]
    exact (hprimary ci₀ hci₀).grows hgrows

theorem primary_run {cfg : Config} {protocol : Int} {w₀ w : Site} {tr : List (Bool × Happening)}
    (hstart : ∀ i, w₀.posts i = none) (hrun : Site.Run cfg protocol (SparesPosts cfg) w₀ tr w) {c path : Str}
    (hc : hasPrefix "cosign=".toList c) (hpath : mkcookiepath none cfg.hashlen c maxPathLen = some path) :
    w.Present cfg ∧ ∀ ci, w.store.cookie path = some (0, ci) → Primary cfg w₀.store tr c path ci := by
  induction hrun with
  | nil =>
    refine ⟨fun i r p hi => ?_, fun ci hci => ⟨ci, hci, Grows.refl ci⟩⟩
    rw [hstart i] at hi
    cases hi
  | quiet hr h ih => exact ⟨present_quiet h ih.1, by rw [quiet_store h]; exact ih.2⟩
  | event hr h hy ih => exact ⟨present_event h hy ih.1, fun ci hci => primary_event hc hpath h ih.1 ih.2 hci⟩

/-- As long as nobody takes away the file of a session that a POST has found, no
session begins with a secondary factor. -/
theorem no_secondary_session {cfg : Config} {protocol : Int} {w₀ w : Site} {tr : List (Bool × Happening)}
    (hstart : ∀ i, w₀.posts i = none) (hrun : Site.Run cfg protocol (SparesPosts cfg) w₀ tr w) {c path : Str}
    (hc : hasPrefix "cosign=".toList c) (hpath : mkcookiepath none cfg.hashlen c maxPathLen = some path) {ci : Cinfo}
    (hread : w.store.cookie path = some (0, ci)) : Primary cfg w₀.store tr c path ci :=
  (primary_run hstart hrun hc hpath).2 ci hread

/-! ## One session -/

/-- A token after the password. -/
def tokenFactor : Factorlist := ⟨"/usr/local/libexec/token".toList, 2, ["token".toList]⟩

/-- Ann posts her token a little before the hard timeout. -/
def annPost : Request where
  cookie := annCookie
  valid := ⟨by decide, by decide⟩
  ip := "10.0.0.1".toList
  ui := ⟨[], [], []⟩
  login := []
  left := [tokenFactor]
  phase := .begins

def cgiTwo : Session := { Session.cgi with protocol := 2 }

/-- What `CHECK` at 43290 answers. -/
def annUmich : Reply := .line 232 "10.0.0.1 ann umich ".toList

def noPosts : Site := ⟨.ofFiles [], fun _ => none⟩

def annFound : Store := ann2.touched annCookie 43290

/-- Her request has found her session. -/
def annPosted : Site :=
  ((⟨ann2, fun _ => none⟩ : Site).post ann2 0 (some annPost)).post annFound 0
    (some (annPost.checked 2 annUmich.wire))

def annLine : Str := loginLine annCookie "10.0.0.1".toList "ann".toList "token".toList

/-- The events up to there. -/
def annTrace : List (Bool × Happening) :=
  [(false, ⟨.ofFiles [], annLogin, .answered (loginStored .cgi
      ⟨annCookie, "10.0.0.1".toList, "ann".toList, "umich".toList, [], none⟩), ann1⟩),
   (false, ⟨ann1, annSeen, .answered timeDone, ann2⟩),
   (false, ⟨ann2, .command cgiTwo (.calm 43290) (checkLine annCookie), .answered ⟨.ret 0, [annUmich], [], false⟩, annFound⟩)]

theorem annPosted_run {C : Site → Happening → Prop} (h : ∀ w, (∀ i r, w.posts i = some r → r.ui.login = []) →
    ∀ x, C w x) : Site.Run .default 2 C noPosts annTrace annPosted := by
  have h1 : Site.Run .default 2 C noPosts _ _ := .event .nil (.other ann1_step) (h _ (fun i r hr => by cases hr) _)
  have h2 : step .default ann1 annSeen = some (.answered timeDone, ann2) := rfl
  have h3 := Site.Run.event h1 (.other h2) (h _ (fun i r hr => by cases hr) _)
  have h4 := Site.Run.quiet h3 (.begins 0 annPost rfl rfl)
  have h5 : step .default ann2 (.command cgiTwo (.calm 43290) (checkLine annCookie)) =
      some (.answered ⟨.ret 0, [annUmich], [], false⟩, annFound) := rfl
  refine h4.event (.check (r := annPost) rfl (by decide) h5 (List.mem_singleton.2 rfl)) (h _ ?_ _)
  intro i r hr
  by_cases hi : i = 0
  · subst hi
    cases hr
    rfl
  · rw [Site.post] at hr
    simp only [Function.update_of_ne hi] at hr
    cases hr

theorem annPosted_else {i : Nat} (hi : i ≠ 0) : annPosted.posts i = none := by
  simp only [annPosted, Site.post, Function.update_of_ne hi]

/-- The `LOGIN` for her token. -/
theorem annPosted_token {w : Site} (hw : w.posts = annPosted.posts) {now : Nat} {out : Outcome} {t : Store}
    (h : step .default w.store (.command .cgi (.calm now) annLine) = some (out, t)) :
    Site.Step .default 2 w (some (true, ⟨w.store, .command .cgi (.calm now) annLine, out, t⟩))
      (w.post t 0 (some { annPost.checked 2 annUmich.wire with left := [], phase := .again })) := by
  have hr : w.posts 0 = some (annPost.checked 2 annUmich.wire) := by rw [hw]; rfl
  exact .factor hr rfl rfl (by decide) (.inl (by decide)) h

/-- With her session still there, the token comes after the password. -/
theorem token_extends : ∃ tr w ci, Site.Run .default 2 (SparesPosts .default) noPosts tr w ∧
    w.store.cookie annCookie = some (0, ci) ∧ acavParse ci.realm = ["umich".toList, "token".toList] ∧
    Primary .default noPosts.store tr annCookie annCookie ci := by
  have hrun := annPosted_run (C := SparesPosts .default) fun w hw x i r path hr hlogin => absurd (hw i r hr) hlogin
  have hstep : ∃ out t, step .default annFound (.command .cgi (.calm 43291) annLine) = some (out, t) ∧
      ∃ ci, t.cookie annCookie = some (0, ci) ∧ acavParse ci.realm = ["umich".toList, "token".toList] ∧
        (t.get annCookie).isSome :=
    ⟨_, _, rfl, _, rfl, by decide, rfl⟩
  obtain ⟨out, t, hstep, ci, hread, hfactors, hthere⟩ := hstep
  have hspares : SparesPosts .default annPosted ⟨annFound, .command .cgi (.calm 43291) annLine, out, t⟩ := by
    intro i r path hr _ hpath _
    by_cases hi : i = 0
    · subst hi
      cases hr
      cases hpath
      exact hthere
    · rw [annPosted_else hi] at hr
      cases hr
  have hlast := hrun.event (annPosted_token rfl hstep) hspares
  refine ⟨_, _, ci, hlast, hread, hfactors, ?_⟩
  exact no_secondary_session (fun _ => rfl) hlast (by decide) (c := annCookie) rfl hread

/-- A sweep between the `CHECK` and the `LOGIN` takes the session away, and the
`LOGIN` makes one of the token alone. -/
theorem token_alone : ¬ ∀ (cfg : Config) (protocol : Int) (w₀ w : Site) (tr : List (Bool × Happening)),
    (∀ i, w₀.posts i = none) → Site.Run cfg protocol (fun _ _ => True) w₀ tr w → ∀ (c path : Str) (ci : Cinfo),
    hasPrefix "cosign=".toList c → mkcookiepath none cfg.hashlen c maxPathLen = some path →
    w.store.cookie path = some (0, ci) → Primary cfg w₀.store tr c path ci := by
  intro h
  have hrun := annPosted_run (C := fun _ _ => True) fun _ _ _ => trivial
  have hsweep : ∃ out t, step .default annFound lateSweep = some (out, t) ∧ t.get annCookie = none ∧
      ∃ out' u, step .default t (.command .cgi (.calm 43312) annLine) = some (out', u) ∧
        ∃ ci, u.cookie annCookie = some (0, ci) ∧ (u.get annCookie).isSome :=
    ⟨_, _, rfl, rfl, _, _, rfl, _, rfl, rfl⟩
  obtain ⟨out, t, hsweep, hgone, out', u, hlogin, ci, hread, hthere⟩ := hsweep
  have hswept := hrun.event (.other hsweep) trivial
  have hlast := hswept.event (annPosted_token (w := ⟨t, annPosted.posts⟩) rfl hlogin) trivial
  have hprimary := h .default 2 noPosts _ _ (fun _ => rfl) hlast annCookie annCookie ci (by decide) rfl hread
  rw [Primary, founder_append, if_pos ⟨hgone, hthere⟩] at hprimary
  cases hprimary.1

end Cosign
