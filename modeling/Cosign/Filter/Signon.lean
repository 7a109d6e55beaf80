import Cosign.Cgi.Post
import Cosign.Daemon.Epoch
import Cosign.Daemon.Identity
import Cosign.Daemon.Roles
import Cosign.Filter.Signout
/-!
# Single sign-on

Beside a `cosignd` that starts with an empty database, a site lets in only whom
a `LOGIN` has named, for a session that is live and a cookie that is bound to
it. The words of an answer are those of the record, since `f_login` writes
records of words only, and no other command writes any.
-/

namespace Cosign.Filter

open Lib

/-! ## New files -/

/-- A file that is new at `path` is a service cookie. -/
def NewBound (path : Str) (s t : Store) : Prop :=
  s.get path = none → (t.get path).isSome → ∃ login, t.binding path = some login

section
variable {cfg : Config} {env : Env} {path : Str} {s t : Store}

theorem newBound_texts (h : SameTexts s t) : NewBound path s t := by
  intro hn hsome
  have ht := h path
  rw [hn, Option.map_none, Option.map_eq_none_iff] at ht
  rw [ht] at hsome
  cases hsome

theorem newBound_bound {spath login : Str} {now : Nat} (hl : '\n' ∉ login) (hlen : login.length < maxCookieLen) :
    NewBound path s (s.bound spath login now) := fun hn hsome => ⟨login, bound_new hl hlen hn hsome⟩

theorem newBound_registered {spath lpath login : Str} {now : Nat} (hl : '\n' ∉ login) (hlen : login.length < maxCookieLen) :
    NewBound path s ((s.bound spath login now).touched lpath now) := by
  intro hn hsome
  rw [touched_binding]
  refine newBound_bound hl hlen hn ?_
  cases hb : (s.bound spath login now).get path with
  | some f => rfl
  | none =>
    rw [touched_none hb] at hsome
    cases hsome

theorem newBound_registers {login : Str} (hl : '\n' ∉ login) (hlen : login.length < maxCookieLen)
    (h : Relation.ReflTransGen (RegisterStep cfg env login) s t) : NewBound path s t := by
  intro hn
  induction h with
  | refl =>
    intro hsome
    rw [hn] at hsome
    cases hsome
  | @tail u t _ hstep ih =>
    obtain ⟨i, _, lpath, spath, rc, -, -, hrun⟩ := hstep
    intro hsome
    cases hu : u.get path with
    | none => exact ⟨login, doRegister_new hl hlen hrun hu hsome⟩
    | some g =>
      obtain ⟨login', hb⟩ := ih (by rw [hu]; rfl)
      exact ⟨login', (doRegister_kept hrun).binding hb⟩

theorem fRegister_newBound {ses : Session} {line : Str} {d : Done}
    (h : Prog.run exec (fRegister cfg ses env (acavParse line)) s = some (d, t)) : NewBound path s t := by
  rcases fRegister_cases h with ⟨-, rfl | ⟨_, _, _, _, _, -, -, hr⟩⟩ | ⟨login, lpath, service, spath, ci, hreg, hend⟩
  · exact newBound_texts (SameTexts.refl _)
  · exact newBound_texts (sameTexts_refusal hr)
  obtain ⟨hnl, hlen⟩ := hreg.login_fits
  rcases hend with ⟨-, rfl | ⟨-, -, -, rfl⟩⟩ | ⟨-, rfl, -⟩ | ⟨-, -, -, rfl, -⟩
  · exact newBound_texts (SameTexts.refl _)
  · exact newBound_bound hnl hlen
  · exact newBound_texts (SameTexts.refl _)
  · exact newBound_registered hnl hlen

theorem fRetr_newBound {ses : Session} {av : List Str} {d : Done}
    (h : Prog.run exec (fRetr cfg ses env av) s = some (d, t)) : NewBound path s t := by
  rcases fRetr_cases h with ⟨-, rfl | ⟨_, _, _, _, _, _, -, -, -, -, hr⟩⟩ | ⟨_, _, _, _, login, _, _, _, -, hret, hend⟩
  · exact newBound_texts (SameTexts.refl _)
  · exact newBound_texts (sameTexts_refusal hr)
  rcases hend with ⟨rfl, -⟩ | ⟨-, hsteps⟩
  · exact newBound_texts (SameTexts.refl _)
  · obtain ⟨f, -, hl⟩ := Option.bind_eq_some_iff.1 (binding_of_service hret.service)
    exact newBound_registers (parseService_no_newline hl) (mkcookiepath_spec hret.lfile).2.2.2.1 hsteps

theorem fCheck_newBound {ses : Session} {av : List Str} {d : Done}
    (h : Prog.run exec (fCheck cfg ses env av) s = some (d, t)) : NewBound path s t := by
  rcases fCheck_cases h with ⟨rfl, -⟩ | ⟨cmd, cookie, rest, lpath, status, sc, -, htarget, hlogin⟩
  · exact newBound_texts (SameTexts.refl _)
  rcases checkLogin_cases hlogin with ⟨-, hr⟩ | ⟨ci, -, ⟨-, rfl, -⟩ | ⟨-, -, rfl⟩ | ⟨scpath, rcookie, npath, f, rfl, hr, rfl, -⟩⟩
  · exact newBound_texts (sameTexts_refusal hr)
  · exact newBound_texts (sameTexts_touched _ _ _)
  · exact newBound_texts (sameTexts_touched _ _ _)
  · cases htarget with
    | @rekey _ login _ _ _ hs =>
      have hb := (touched_binding s lpath env.now scpath).trans (binding_of_service hs)
      intro hn hsome
      rw [moved_get] at hsome
      refine ⟨login, ?_⟩
      rw [Store.binding, moved_get]
      split
      · rw [← hb, Store.binding, hr.file]
      · rename_i hne
        rw [if_neg hne] at hsome
        split at hsome
        · cases hsome
        · rw [touched_none hn] at hsome
          cases hsome

/-- Commands other than `LOGIN` make service cookies only. -/
theorem command_newBound {ses : Session} {line : Str} {d : Done} (hl : ¬ IsLogin line)
    (h : Prog.run exec (command cfg ses env line) s = some (d, t)) : NewBound path s t := by
  unfold command at h
  split at h
  · cases h
    exact newBound_texts (SameTexts.refl _)
  rename_i word ws hline
  split at h
  · cases h
    exact newBound_texts (SameTexts.refl _)
  rename_i c hc
  cases c with
  | login => exact absurd ⟨word, by rw [hline]; rfl, hc⟩ hl
  | check =>
    rw [handle] at h
    exact fCheck_newBound h
  | rekey =>
    rw [handle] at h
    exact fCheck_newBound h
  | register =>
    rw [handle, ← hline] at h
    exact fRegister_newBound h
  | retr =>
    rw [handle] at h
    exact fRetr_newBound h
  | logout =>
    rcases fLogout_cases h with ⟨rfl, -⟩ | ⟨_, _, _, p, f, _, -, -, hf, -, -, rfl, -⟩
    · exact newBound_texts (SameTexts.refl _)
    · exact newBound_texts (sameTexts_put hf rfl)
  | time =>
    obtain ⟨d', t', hrun, hmarks⟩ := fTime_keeps cfg ses env (word :: ws) s
    rw [handle, hrun] at h
    cases h
    intro hn hsome
    have hp := hmarks path
    rw [hn, Option.map_none, Option.map_eq_none_iff] at hp
    rw [hp] at hsome
    cases hsome
  | daemon =>
    obtain rfl := fDaemon_same h
    exact newBound_texts (SameTexts.refl _)
  | noop => cases h; exact newBound_texts (SameTexts.refl _)
  | quit => cases h; exact newBound_texts (SameTexts.refl _)
  | help => cases h; exact newBound_texts (SameTexts.refl _)
  | starttls => cases h; exact newBound_texts (SameTexts.refl _)

end

/-! ## Records -/

/-- A `LOGIN` of the user has written the record. -/
def LogsIn (cfg : Config) (path user : Str) (x : Entry Store Event Outcome) : Prop :=
  ∃ ses env line a rc ci text already, x.ev = .command ses env line ∧ IsLogin line ∧
    Publishes cfg ses env (acavParse line) x.pre a path rc ci text already ∧ a.user = user ∧
    x.post.get path = some ⟨text, false, env.now⟩

/-- The user and the addresses of the record are words, and the user has logged in. -/
structure Recorded (cfg : Config) (past : List (Entry Store Event Outcome)) (path : Str) (ci : Cinfo) : Prop where
  user : IsWord ci.user
  ipaddr : IsWord ci.ipaddr
  ipaddrCur : IsWord ci.ipaddrCur
  login : ∃ x ∈ past, LogsIn cfg path ci.user x

def RecordOf (cfg : Config) (past : List (Entry Store Event Outcome)) (path : Str) (s : Store) : Prop :=
  ∀ ci, s.cookie path = some (0, ci) → Recorded cfg past path ci

section
variable {cfg : Config} {past : List (Entry Store Event Outcome)} {path : Str} {s t : Store}

theorem recordOf_none (h : t.get path = none) : RecordOf cfg past path t := by
  intro ci hread
  obtain ⟨g, hg, -⟩ := cookie_file hread
  rw [h] at hg
  cases hg

theorem recordOf_service {login : Str} (hb : t.binding path = some login) : RecordOf cfg past path t := by
  intro ci hread
  obtain ⟨f, hf, hl⟩ := Option.bind_eq_some_iff.1 hb
  obtain ⟨g, hg, hparse⟩ := cookie_file hread
  cases hf.symm.trans hg
  exact absurd hparse (service_not_record hl ci)

theorem recordOf_kept (h : RecordOf cfg past path s) {f g : File} (hf : s.get path = some f) (hg : t.get path = some g)
    (hk : Kept f g) : RecordOf cfg past path t := by
  intro ci hread
  obtain ⟨g', hg', hparse⟩ := cookie_file hread
  cases hg.symm.trans hg'
  obtain ⟨ftext, fg, fm⟩ := f
  obtain ⟨gtext, gg, gm⟩ := g
  obtain ⟨htext, -⟩ := hk
  dsimp only at htext
  subst htext
  have hback := parseCookie_ok_stat hparse fg fm
  obtain ⟨huser, hip, hcur, hlogin⟩ := h (ci.stat (if fg then 0 else 1) fm) (by rw [Store.cookie, hf]; exact hback)
  exact ⟨huser, hip, hcur, hlogin⟩

/-- What `f_login` writes. -/
theorem recordOf_published {ses : Session} {env : Env} {line : Str} {a : LoginArgs} {rc : Int} {ci : Cinfo} {text : Str}
    {already : Bool} (h : RecordOf cfg past path s) (hp : Publishes cfg ses env (acavParse line) s a path rc ci text already)
    (hget : t.get path = some ⟨text, false, env.now⟩) (hlogin : ∃ x ∈ past, LogsIn cfg path a.user x) :
    RecordOf cfg past path t := by
  intro ci' hread
  obtain ⟨g, hg, hparse⟩ := cookie_file hread
  cases hget.symm.trans hg
  have hargs := hp.clean (acavParse_words line)
  obtain ⟨rfl, -⟩ := loginRecord_full hp.record
  rw [recordText_read (hp.written (acavParse_words line)) hparse]
  refine ⟨hargs.user, ?_, hargs.ip, hlogin⟩
  by_cases hrc : rc = 0
  · subst hrc
    obtain ⟨-, f, hf, hold⟩ := opened_file hp.read
    have hwords := h ci (by rw [Store.cookie, hf]; exact hold)
    simpa using hwords.ipaddr
  · simpa [hrc] using hargs.ip

theorem recordOf_step {c : Str} (hpath : mkcookiepath none cfg.hashlen c maxPathLen = some path)
    {x : Entry Store Event Outcome} (hstep : step cfg x.pre x.ev = some (x.res, x.post)) (hx : x ∈ past)
    (h : RecordOf cfg past path x.pre) : RecordOf cfg past path x.post := by
  have hsame : x.post.get path = x.pre.get path → RecordOf cfg past path x.post := by
    intro he ci hread
    exact h ci (by rw [← cookie_congr he]; exact hread)
  rcases step_cases hstep with ⟨ses, env, line, d, hev, -, hl, hrun⟩ | ⟨ses, env, line, d, -, -, hl, hrun⟩ |
    ⟨now, ls, r, -, -, hrun⟩
  · rcases fLogin_get hpath hrun with he | ⟨a, rc, ci, text, already, hp, -, hget⟩ | ⟨-, hn⟩
    · exact hsame he
    · exact recordOf_published h hp hget ⟨x, hx, ses, env, line, a, rc, ci, text, already, hev, hl, hp, rfl, hget⟩
    · exact recordOf_none hn
  · rcases command_kept hl hrun with hk | ⟨cookie, scpath, rcookie, npath, lpath, f, hm⟩
    · cases hf : x.pre.get path with
      | some f =>
        obtain ⟨g, hg, hkg⟩ := hk path f hf
        exact recordOf_kept h hf hg hkg
      | none =>
        cases hg : x.post.get path with
        | none => exact recordOf_none hg
        | some g =>
          obtain ⟨login, hb⟩ := command_newBound hl hrun hf (by rw [hg]; rfl)
          exact recordOf_service hb
    · obtain ⟨login, -, hl⟩ := moves_binding hm
      have hget : x.post.get path = if resolve path = resolve npath then some f else if resolve path = resolve scpath
          then none else (x.pre.touched lpath env.now).get path := by rw [hm.post, moved_get]
      split at hget
      · have hb : x.post.binding path = some login := by rw [Store.binding, hget]; exact hl
        exact recordOf_service hb
      split at hget
      · exact recordOf_none hget
      cases hf : x.pre.get path with
      | none => exact recordOf_none (hget.trans (touched_none hf))
      | some f' =>
        obtain ⟨g, hg, hkg⟩ := touched_kept x.pre lpath env.now path f' hf
        exact recordOf_kept h hf (hget.trans hg) hkg
  · rcases swept_of_asks (asks_sweep cfg now ls) hrun path with he | hn
    · exact hsame he
    · exact recordOf_none hn

end

/-! ## The answer to a check -/

/-- The daemon has answered for the cookie from the record of a session that is
live, and the user has logged in before. -/
def SignedOn (cfg : Config) (k : Str) (past : List (Entry Store Event Outcome)) (x : Entry Store Event Outcome) (si : Sinfo) :
    Prop :=
  ∃ ses env line cmd lpath status sc ci, x.ev = .command ses env line ∧
    CheckTarget cfg ses env x.pre cmd k lpath status sc ∧ Live cfg env x.pre lpath ci ∧ si.user = ci.user ∧
    (si.ipaddr = ci.ipaddr ∨ si.ipaddr = ci.ipaddrCur) ∧ ∃ z ∈ past, LogsIn cfg lpath ci.user z

/-- The words of the answer are those of the record. -/
theorem checkReply_reads {ses : Session} {status code : Nat} {ci : Cinfo} {rcookie text : Str}
    (huser : IsWord ci.user) (hip : IsWord ci.ipaddr) (hcur : IsWord ci.ipaddrCur)
    (h : Reply.line code text = checkReply ses status ci rcookie) :
    ∃ ip rest, (ip = ci.ipaddr ∨ ip = ci.ipaddrCur) ∧ acavParse (dec code ++ ' ' :: text) = dec code :: ip :: ci.user :: rest := by
  have hreads : ∀ ip rest, IsWord ip → text = ip ++ ' ' :: ci.user ++ ' ' :: rest →
      acavParse (dec code ++ ' ' :: text) = dec code :: ip :: ci.user :: acavParse rest := by
    rintro ip rest hw rfl
    have hword : IsWord (dec code) := decInt_word (code : Int)
    rw [acavParse_cons hword, List.append_assoc, List.cons_append, acavParse_cons hw, acavParse_cons huser]
  unfold checkReply at h
  split at h
  · obtain ⟨-, rfl⟩ := Reply.line.inj h
    exact ⟨ci.ipaddrCur, _, .inr rfl, hreads _ (ci.realm ++ ' ' :: rcookie) hcur (by simp)⟩
  · obtain ⟨-, rfl⟩ := Reply.line.inj h
    exact ⟨ci.ipaddr, _, .inl rfl, hreads _ _ hip rfl⟩

/-- The words that the daemon takes from the command. -/
theorem check_words {k sent : Str} (hvalid : validchars k = true) (h : sent = "CHECK ".toList ++ k ∨ sent = "REKEY ".toList ++ k) :
    ∃ cmd n, findCommand cmd = some n ∧ (n = .check ∨ n = .rekey) ∧
      acavParse sent = cmd :: if k = [] then [] else [k] := by
  have hcmd : ∀ cmd, IsWord cmd → acavParse (cmd ++ ' ' :: k) = cmd :: if k = [] then [] else [k] := by
    intro cmd hw
    rw [acavParse_cons hw]
    split
    · rename_i hk
      rw [hk]
      rfl
    · rename_i hk
      have hword := word_of_valid hvalid hk
      have hall : ∀ w ∈ [k], IsWord w := fun w hw => by rw [List.mem_singleton.1 hw]; exact hword
      have hp : acavParse k = [k] := acavParse_unwords hall
      rw [hp]
  rcases h with rfl | rfl
  · exact ⟨"CHECK".toList, .check, rfl, .inl rfl, hcmd "CHECK".toList (word_of_valid (by decide +kernel) (by decide))⟩
  · exact ⟨"REKEY".toList, .rekey, rfl, .inr rfl, hcmd "REKEY".toList (word_of_valid (by decide +kernel) (by decide))⟩

/-- Behind an answer that a site accepts is a record. -/
theorem gives_signedOn {cfg : Config} {hcfg : HostConfig} {k : Str} {past : List (Entry Store Event Outcome)}
    {x : Entry Store Event Outcome} {a : Answer} {si : Sinfo}
    (hvalid : validchars k = true) (hstep : step cfg x.pre x.ev = some (x.res, x.post))
    (hrecords : ∀ c path, mkcookiepath none cfg.hashlen c maxPathLen = some path → RecordOf cfg past path x.pre)
    (hgives : Gives x a) (hacc : Accepts hcfg k a) (hsaid : Says a si) : SignedOn cfg k past x si := by
  obtain ⟨ses, env, d, code, text, hev, hres, hout, hline⟩ := hgives
  obtain ⟨hsent, htwo⟩ := accepts_two hacc
  obtain ⟨cmd, n, hcmd, hn, hparse⟩ := check_words hvalid hsent
  obtain ⟨d', hd', hrun⟩ := step_command hstep hev hparse hcmd
  cases hres.symm.trans hd'
  have hrun : Prog.run exec (fCheck cfg ses env (cmd :: if k = [] then [] else [k])) x.pre = some (d, x.post) := by
    rcases hn with rfl | rfl
    · exact hrun
    · exact hrun
  have hcode := (threeDigits_fCheck cfg ses env _).run hrun code ⟨_, hout, rfl⟩
  have hok : d.ok := by
    rw [hline] at htwo
    obtain ⟨h1, h2⟩ := dec_two hcode htwo
    exact ⟨code, h1, h2, ⟨_, hout, rfl⟩⟩
  rcases fCheck_cases hrun with ⟨-, hd⟩ | ⟨cmd', cookie, rest, lpath, status, sc, hav, htarget, hlogin⟩
  · exact absurd hok hd.1
  have hcookie : cookie = k := by
    split at hav
    · cases hav
    · cases hav
      rfl
  subst hcookie
  -- the file that was read
  have hlfile : ∃ c, mkcookiepath none cfg.hashlen c maxPathLen = some lpath := by
    cases htarget with
    | service _ _ _ _ hl _ => exact ⟨_, hl⟩
    | rekey _ _ _ _ hl _ => exact ⟨_, hl⟩
    | login _ _ hl => exact ⟨_, hl⟩
  obtain ⟨c, hlfile⟩ := hlfile
  have hanswered : ∀ {ci : Cinfo} {rcookie : Str}, Live cfg env x.pre lpath ci → Reply.line code text = checkReply ses status ci rcookie →
      SignedOn cfg cookie past x si := by
    intro ci rcookie hlive hreply
    obtain ⟨-, f, hf, hread⟩ := opened_file hlive.read
    obtain ⟨huser, hip, hcur, hlogin⟩ := hrecords c lpath hlfile ci (by rw [Store.cookie, hf]; exact hread)
    obtain ⟨ip, rest, hipor, hwords⟩ := checkReply_reads huser hip hcur hreply
    refine ⟨ses, env, a.sent, cmd', lpath, status, sc, ci, hev, htarget, hlive, ?_, ?_, hlogin⟩
    · rw [hsaid.2.1, Answer.user, hline, hwords]
      rfl
    · rw [hsaid.1, Answer.ipaddr, hline, hwords]
      exact hipor
  rcases checkLogin_cases hlogin with ⟨hd, -⟩ | ⟨ci, hlive, ⟨-, -, rfl⟩ | ⟨-, hd, -⟩ | ⟨scpath, rcookie, npath, f, -, -, -, rfl⟩⟩
  · exact absurd hok hd.1
  · exact hanswered hlive (List.mem_singleton.1 hout)
  · exact absurd hok hd.1
  · exact hanswered hlive (List.mem_singleton.1 hout)

/-! ## Who gets in -/

theorem visits_of_joint {cfg : Config} {apr : Apr} {s t : Store} {w u : World} {ms : List (Moment Store Event Outcome Visit)}
    (h : SideBySide cfg apr s w ms t u) : Visits apr w (ms.flatMap Moment.acts) u := by
  induction h with
  | nil s w => exact .nil w
  | event _ _ ih => exact ih
  | act _ hserves _ _ ih =>
    obtain ⟨hpasses, hmade, rfl⟩ := hserves
    exact .cons hpasses hmade ih

/-- A cookie that a server was asked about. -/
theorem heard_valid {apr : Apr} {v : Visit} {k : Str} {a : Answer} (hmade : v.Made apr) (hk : v.cookie apr = some k)
    (ha : a ∈ v.answers) : validchars k = true := by
  rcases hmade.cases with hun | ⟨x, hx⟩
  · rw [Visit.answers, hun.world, List.drop_length] at ha
    cases ha
  · cases hx.cookie.symm.trans hk
    exact hx.valid

/-- In every run from an empty database. -/
theorem recordOf_run {cfg : Config} {s t : Store} {past : List (Entry Store Event Outcome)} (hempty : ∀ p, s.get p = none)
    (hrun : Trace (step cfg) s past t) {c path : Str} (hpath : mkcookiepath none cfg.hashlen c maxPathLen = some path) :
    RecordOf cfg past path t :=
  (hrun.inv (RecordOf cfg past path) (· ∈ past) (fun _ hstep hx h => recordOf_step hpath hstep hx h)
    (recordOf_none (hempty path)) fun _ hx => hx).1

/-- A request that is let in has its user, and the address that is checked, from
the record of a session that was live when the daemon was asked, and that user
had logged in: for this request, or for one no longer than `IDLETIME` before
that had the same cookie or was given its name. -/
theorem signed_on {cfg : Config} {apr : Apr} {s t : Store} {w u : World} {ms₁ ms₂ : List (Moment Store Event Outcome Visit)}
    {v : Visit} {tr : List (Entry Store Event Outcome)} (hdaemon : ∀ p, s.get p = none) (hsite : ∀ p, w.files p = none)
    (hrun : SideBySide cfg apr s w (ms₁ ++ .act v tr :: ms₂) t u) (hin : ¬ v.Refused) :
    ∃ si, (∀ r, v.answer.user = some r → r = si) ∧ (v.cfg.common.checkip = .always → v.ipaddr = si.ipaddr) ∧
      ∃ before y a x b after, ms₁ ++ [.act v tr] = before ++ .act y (a ++ x :: b) :: after ∧
        v.pre.clock ≤ y.post.clock + idleTime ∧ (∃ name, v.Names apr name ∧ y.Names apr name) ∧
        ∃ k, y.cookie apr = some k ∧ SignedOn cfg k (before.flatMap Moment.entries ++ a) x si := by
  have hvisits := visits_of_joint hrun
  rw [List.flatMap_append, List.flatMap_cons, Moment.acts, List.singleton_append] at hvisits
  obtain ⟨si, huser, hip, y, hy, ⟨k, hk, ans, hans, hacc, hsaid⟩, htime, hnames⟩ := visit_heard hsite hvisits hin
  refine ⟨si, huser, hip, ?_⟩
  obtain ⟨tr', before, after, hms⟩ : ∃ tr' before after, ms₁ ++ [Moment.act v tr] = before ++ .act y tr' :: after := by
    rcases List.mem_append.1 hy with hy | hy
    · obtain ⟨m, hm, hym⟩ := List.mem_flatMap.1 hy
      cases m with
      | event x => cases hym
      | act y' tr' =>
        obtain rfl := List.mem_singleton.1 hym
        obtain ⟨before, after, hms⟩ := List.append_of_mem hm
        exact ⟨tr', before, after ++ [.act v tr], by rw [hms]; simp⟩
    · obtain rfl := List.mem_singleton.1 hy
      exact ⟨tr, ms₁, [], rfl⟩
  have hall : ms₁ ++ .act v tr :: ms₂ = before ++ .act y tr' :: (after ++ ms₂) := by
    rw [← List.singleton_append, ← List.append_assoc, hms, List.append_assoc, List.cons_append]
  -- what the request has heard is what the daemon has said
  rw [hall] at hrun
  obtain ⟨s₁, w₁, s₂, w₂, hbefore, htr, ⟨-, hmade, -⟩, hheard, -⟩ := hrun.split
  obtain ⟨x, hx, hgives⟩ := hheard ans hans
  obtain ⟨a, b, rfl⟩ := List.append_of_mem hx
  obtain ⟨u', ha, hrest⟩ := htr.take
  have hpast : Trace (step cfg) s (before.flatMap Moment.entries ++ a) u' := hbefore.trace.append ha
  refine ⟨before, y, a, x, b, after, hms, htime, hnames, k, hk, ?_⟩
  cases hrest with
  | cons hstep _ =>
    exact gives_signedOn (heard_valid hmade hk hans) hstep (fun _ _ hpath => recordOf_run hdaemon hpast hpath) hgives hacc hsaid

/-- The daemon's answer about Ann's service cookie. -/
def annChecked (_ : Nat) (_ : Str) : Option Str := some "231 10.0.0.1 ann umich ".toList

theorem annChecked_line : ∀ t sent line, annChecked t sent = some line → OneLine line := by
  intro t sent line h
  obtain rfl := Option.some.inj h
  exact oneLine_of_isOneLine (by decide)

def annVisit : Event := .command wikiSession (.calm 102) "CHECK cosign-wiki=xyz".toList

/-- She logs in, the wiki is registered, and she comes back to it. -/
theorem signed_on_ann : ∃ v : Visit, v.answer.setCookie ≠ none ∧ ∃ (y : Visit) (si : Sinfo), ∃ past x k,
    v.pre.clock ≤ y.post.clock + idleTime ∧ y.cookie apr = some k ∧ SignedOn wikiConfig k past x si := by
  obtain ⟨answer, post, hplay, hset, hheard⟩ : ∃ answer post,
      Prog.run (play annChecked) ((wikiVisit 102 .declined (emptyWorld 102)).prog apr) (emptyWorld 102) = some (answer, post) ∧
        answer.setCookie ≠ none ∧
        post.heard = [⟨⟨0, true, false, 3⟩, "CHECK cosign-wiki=xyz".toList, "231 10.0.0.1 ann umich ".toList, 102⟩] := by
    refine ⟨_, _, rfl, ?_, rfl⟩
    exact Option.some_ne_none _
  have hmade : (wikiVisit 102 answer post).Made apr := plays_visit annChecked_line hplay
  have hanswers : (wikiVisit 102 answer post).answers =
      [⟨⟨0, true, false, 3⟩, "CHECK cosign-wiki=xyz".toList, "231 10.0.0.1 ann umich ".toList, 102⟩] := hheard
  obtain ⟨d₁, s₁, d₂, s₂, d, t, hin, hwiki, hcheck, hout⟩ : ∃ d₁ s₁ d₂ s₂ d t,
      step wikiConfig (.ofFiles []) annIn = some (.answered d₁, s₁) ∧ step wikiConfig s₁ annWiki = some (.answered d₂, s₂) ∧
        step wikiConfig s₂ annVisit = some (.answered d, t) ∧ Reply.line 231 "10.0.0.1 ann umich ".toList ∈ d.out := by
    refine ⟨_, _, _, _, _, _, rfl, rfl, rfl, ?_⟩
    exact List.mem_cons_self
  have hgives : Heard (wikiVisit 102 answer post) [⟨s₂, annVisit, .answered d, t⟩] := by
    intro a ha
    rw [hanswers, List.mem_singleton] at ha
    subst ha
    exact ⟨_, List.mem_cons_self, wikiSession, .calm 102, d, 231, _, rfl, rfl, hout, rfl⟩
  have hrun : SideBySide wikiConfig apr (.ofFiles []) (emptyWorld 102)
      ([.event ⟨_, annIn, .answered d₁, s₁⟩, .event ⟨s₁, annWiki, .answered d₂, s₂⟩] ++
        .act (wikiVisit 102 answer post) [⟨s₂, annVisit, .answered d, t⟩] :: []) t post :=
    .event hin (.event hwiki (.act (.cons hcheck (.nil t)) ⟨Passes.refl _, hmade, rfl⟩ hgives (.nil t post)))
  obtain ⟨si, -, -, before, y, a, x, b, after, -, hclock, -, k, hk, hsigned⟩ :=
    signed_on (fun _ => rfl) (fun _ => rfl) hrun fun h => hset h.2
  exact ⟨wikiVisit 102 answer post, hset, y, si, _, x, k, hclock, hk, hsigned⟩

end Cosign.Filter
