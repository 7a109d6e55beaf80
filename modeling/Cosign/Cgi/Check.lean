import Cosign.Cgi.Network
import Cosign.Daemon.Steps
import Cosign.Daemon.Outcomes
import Cosign.Lib.Distinct
/-!
# Reading a session back

`net_check` decodes the reply to a CHECK into a table of fixed size. The record
it tells of is written by any number of LOGINs, and the daemon counts neither
their factors nor the characters of them all.
-/

namespace Cosign

open Lib

/-- `struct userinfo`. -/
structure UserInfo where
  login : Str
  ipaddr : Str
  factors : List Str
  deriving DecidableEq

inductive NetAns where
  | ok
  | loggedOut
  | retry
  | error
  deriving DecidableEq

/-- `net_check` on the line of the reply. -/
def netCheck (cosignProtocol : Int) (ui : UserInfo) (line : Str) : NetAns × UserInfo :=
  match line with
  | '2' :: _ =>
    match acavParse line with
    | _ :: ip :: user :: factor :: more =>
      if user.length ≥ 131 then (.error, ui)
      else if cosignProtocol = 0 then (.ok, { ui with login := user, factors := [] })
      else if ip.length ≥ 256 then (.error, { ui with login := user })
      else if (factor :: more).length > cosignMaxFactors - 1 then (.error, { ui with login := user, ipaddr := ip })
      else (.ok, ⟨user, ip, factor :: more⟩)
    | _ => (.error, ui)
  | '4' :: _ => (.loggedOut, ui)
  | '5' :: _ => (.retry, ui)
  | _ => (.error, ui)

/-- What `snet_writef` sends of a reply, without the end of its line. -/
def Reply.wire : Reply → Str
  | .line code text => dec code ++ ' ' :: text
  | .more code text => dec code ++ '-' :: text
  | .raw data => data

/-! ## The LOGINs -/

/-- The entry is a LOGIN for `c` with the arguments `a`, and was answered 2xx.
Its clock fits the record's eleven digits. -/
def Logs (cfg : Config) (c : Str) (x : Entry Store Event Outcome) (a : LoginArgs) : Prop :=
  ∃ ses env line d, x.ev = .command ses env line ∧ IsLogin line ∧ loginArgs cfg env (acavParse line) = .args a ∧
    a.cookie = c ∧ x.res = .answered d ∧ d.ok ∧ env.now < 100000000000

/-- The file of a session whose record tells of this user, address and
factors. -/
structure Stored (s : Store) (path user ip : Str) (factors : List Str) : Prop where
  file : ∃ ip₀ t tkt m, s.get path = some ⟨recordText ip₀ ip user factors t tkt, false, m⟩ ∧
    Written ip₀ ip user factors tkt ∧ t < 100000000000 ∧ m < 100000000000
  words : IsWord ip ∧ IsWord user
  nonempty : factors ≠ []

theorem dec_fits {n : Nat} (h : n < 100000000000) : (dec n).length < 12 ∧ (dec n).length < maxPathLen := by
  have h11 : (dec n).length ≤ 11 := (Nat.length_toDigits_le_iff (by decide) (by decide)).2 (by omega)
  have : 11 < maxPathLen := by decide
  omega

theorem Stored.cookie {s : Store} {path user ip : Str} {factors : List Str} (h : Stored s path user ip factors)
    {ci : Cinfo} (hci : s.cookie path = some (0, ci)) :
    ci.ipaddrCur = ip ∧ ci.user = user ∧ ci.realm = unwords factors ∧ ci.state ≠ 0 ∧ ci.itime < 100000000000 ∧
      acavParse ci.realm = factors := by
  obtain ⟨ip₀, t, tkt, m, hf, hw, ht, hm⟩ := h.file
  rw [Store.cookie, hf] at hci
  have := recordText_read hw hci
  subst this
  exact ⟨rfl, rfl, rfl, by simp, hm, acavParse_unwords hw.factors⟩

theorem same_record {acavFails : Bool} {now : Nat} {ci : Cinfo} {a : LoginArgs}
    (h : loginRecord acavFails now true ci a = some .same) :
    ci.ipaddrCur = a.ip ∧ a.factors.filter (· ∉ acavParse ci.realm) = [] := by
  simp only [loginRecord, if_true] at h
  split at h
  · cases h
  split at h
  · cases h
  split at h
  · cases h
  split at h
  · cases h
  split at h
  · cases h
  split at h
  · rename_i hs
    exact hs
  · cases h

theorem grow_str (held new : List Str) : grow held new = held ++ new.filter (· ∉ held) := by
  rw [grow]
  congr 1
  refine List.filter_congr ?_
  intro x _
  exact decide_eq_decide.2 Iff.rfl

/-- A ticket's transfer that ends with 201 leaves the cookie alone. -/
theorem answered_get {cfg : Config} {ses : Session} {env : Env} {line : Str} {s t u : Store} {a : LoginArgs} {d : Done}
    {path text : Str} {rc : Int} {ci : Cinfo} {already : Bool}
    (hp : Publishes cfg ses env (acavParse line) s a path rc ci text already)
    (h : Prog.run exec (loginAnswer ses env (acavParse line) a already) u = some (d, t)) (hok : d.ok) :
    t.get path = u.get path := by
  by_cases hk : ∃ k, a.krbpath = some k ∧ already = false
  · obtain ⟨k, hk, rfl⟩ := hk
    rw [loginAnswer_ticket hk] at h
    have hne := resolve_ne_krbpath hp.file ((hp.clean (acavParse_words line)).krbpath k hk).2.1
    have hbroken : ¬ d.Broken := by
      intro hb
      obtain ⟨code, -, hlt, hcode⟩ := hok
      have := hb.2 code hcode
      omega
    rcases loginReceive_cases h with ⟨-, hst, -⟩ | ⟨_, _, -, -, -, rfl, -⟩ | ⟨-, -, hb⟩
    · exact hst path hne
    · exact absurd transferMismatch_broken hbroken
    · exact absurd hb hbroken
  · rw [(loginAnswer_stored hk h).1]

/-- What a LOGIN answered 2xx makes of the session's file. -/
theorem logs_step {cfg : Config} {c path : Str} (hpath : mkcookiepath none cfg.hashlen c maxPathLen = some path)
    {x : Entry Store Event Outcome} (hstep : step cfg x.pre x.ev = some (x.res, x.post)) {a : LoginArgs}
    (hx : Logs cfg c x a) :
    (x.pre.get path = none → Stored x.post path a.user a.ip a.factors) ∧
      ∀ user ip held, Stored x.pre path user ip held → a.user = user ∧ Stored x.post path a.user a.ip (grow held a.factors) := by
  obtain ⟨ses, env, line, d, hev, hlogin, hargs, hc, hres, hok, hnow⟩ := hx
  rw [hev, hres] at hstep
  obtain ⟨⟨d', u⟩, hrun, he⟩ := Option.map_eq_some_iff.1 hstep
  cases he
  rw [command_login hlogin] at hrun
  have ha := loginArgs_clean (acavParse_words line) hargs
  rcases fLogin_split hrun with ⟨-, -, hno⟩ | ⟨ht, -, -, a', path', ci, hr⟩ | ⟨a', path', rc, ci, text, already, hp, hans⟩
  · exact absurd hok hno.1
  · cases hargs.symm.trans hr.args
    cases (hc ▸ hpath).symm.trans hr.file
    obtain ⟨-, f, hf, hparse⟩ := opened_file hr.read
    refine ⟨fun hn => (by rw [hn] at hf; cases hf), ?_⟩
    intro user ip held hst
    have hci : x.pre.cookie path = some (0, ci) := by rw [Store.cookie, hf]; exact hparse
    obtain ⟨hip, huser, -, -, -, hfs⟩ := hst.cookie hci
    obtain ⟨hsip, hsf⟩ := same_record hr.record
    rw [hfs] at hsf
    refine ⟨hr.live.2.trans huser, ?_⟩
    rw [ht, grow_str, hsf, List.append_nil, hr.live.2, huser, ← hsip, hip]
    exact hst
  · cases hargs.symm.trans hp.args
    cases (hc ▸ hpath).symm.trans hp.file
    obtain ⟨rfl, -⟩ := loginRecord_full hp.record
    have hfile : x.post.get path = some ⟨loginText env.now (rc = 0) ci a, false, env.now⟩ := by
      rw [answered_get hp hans hok, published, Store.put_get]
    have hw := hp.written (acavParse_words line)
    by_cases hrc : rc = 0
    · subst hrc
      obtain ⟨-, f, hf, hparse⟩ := opened_file hp.read
      refine ⟨fun hn => (by rw [hn] at hf; cases hf), ?_⟩
      intro user ip held hst
      have hci : x.pre.cookie path = some (0, ci) := by rw [Store.cookie, hf]; exact hparse
      obtain ⟨-, huser, -, -, hitime, hfs⟩ := hst.cookie hci
      have h0 : decide ((0 : Int) = 0) = true := rfl
      have hfac : loginFactors true ci a = grow held a.factors := by
        rw [grow_str, loginFactors, if_pos rfl, hfs]
      rw [h0, hfac] at hw
      refine ⟨(hp.live rfl).2.trans huser, ⟨⟨_, _, _, _, ?_, hw, hitime, hnow⟩, ⟨ha.ip, ha.user⟩, ?_⟩⟩
      · rw [hfile, h0, loginText, hfac]
        rfl
      · rw [grow_str]
        intro hnil
        exact hst.nonempty (List.append_eq_nil_iff.1 hnil).1
    · have hn := hp.absent hrc
      refine ⟨fun _ => ⟨⟨a.ip, env.now, (loginTicket false ci a.krbpath).1, env.now, ?_, ?_, hnow, hnow⟩,
        ⟨ha.ip, ha.user⟩, List.cons_ne_nil _ _⟩, ?_⟩
      · rw [hfile, decide_eq_false hrc]
        rfl
      · simpa [hrc, loginFactors] using hw
      · intro user ip held hst
        obtain ⟨_, _, _, _, hf, -⟩ := hst.file
        rw [hn] at hf
        cases hf

/-- What more LOGINs make of the session that `a` stored last. -/
theorem logs_run {cfg : Config} {c path : Str} (hpath : mkcookiepath none cfg.hashlen c maxPathLen = some path)
    {s t : Store} {tr : List (Entry Store Event Outcome)} (hrun : Run cfg s tr t) {a : LoginArgs} {as : List LoginArgs}
    (hlog : List.Forall₂ (Logs cfg c) tr as) {held : List Str} (hs : Stored s path a.user a.ip held) :
    Stored t path a.user ((a :: as).getLast (List.cons_ne_nil _ _)).ip ((as.map (·.factors)).foldl grow held) ∧
      ∀ b ∈ as, b.user = a.user := by
  induction hrun generalizing a as held with
  | nil s =>
    cases hlog
    exact ⟨hs, List.forall_mem_nil _⟩
  | @cons s e r s' tr t he _ ih =>
    cases hlog with
    | @cons _ b _ as hx hlog =>
      obtain ⟨hu, hst⟩ := (logs_step hpath (x := ⟨s, e, r, s'⟩) he hx).2 _ _ held hs
      obtain ⟨ht, has⟩ := ih hlog hst
      rw [hu] at ht has
      exact ⟨by simpa using ht, by simpa [hu] using has⟩

/-- What LOGINs leave of a session that was not there. -/
theorem logs_new {cfg : Config} {c path : Str} (hpath : mkcookiepath none cfg.hashlen c maxPathLen = some path)
    {s t : Store} {tr : List (Entry Store Event Outcome)} (hrun : Run cfg s tr t) {as : List LoginArgs}
    (hlog : List.Forall₂ (Logs cfg c) tr as) (hne : as ≠ []) (hs : s.get path = none) :
    Stored t path (as.getLast hne).user (as.getLast hne).ip (grown (as.map (·.factors))) ∧
      ∀ a ∈ as, a.user = (as.getLast hne).user := by
  cases hlog with
  | nil => exact absurd rfl hne
  | @cons x a tr as hx hlog =>
    cases hrun with
    | cons he htail =>
      have hst := (logs_step hpath he hx).1 hs
      obtain ⟨ht, has⟩ := logs_run hpath htail hlog hst
      have hall : ∀ b ∈ a :: as, b.user = a.user := List.forall_mem_cons.2 ⟨rfl, has⟩
      have hlast := hall _ (List.getLast_mem hne)
      rw [hlast]
      refine ⟨?_, hall⟩
      -- the first LOGIN's factors are taken as they are
      have hgrow : grow [] a.factors = a.factors := by simp [grow_str]
      rw [grown, List.map_cons, List.foldl_cons, hgrow]
      exact ht

/-! ## The CHECK -/

/-- A CHECK for `c` over protocol 2, for which no call fails, and which finds the
file of `path` in use. -/
structure Checks (cfg : Config) (ses : Session) (env : Env) (line : Str) (t : Store) (c path : Str) : Prop where
  line : ∃ cmd rest, acavParse line = cmd :: c :: rest ∧ findCommand cmd = some .check
  key : ses.al.key = .cgi
  protocol : ses.protocol = 2
  login : hasPrefix "cosign=".toList c
  calls : env.fails .fopen 0 = false ∧ env.fails .gettimeofday 0 = false
  used : ∀ f, t.get path = some f → (env.now : Int) - f.mtime < cfg.idleOutTime

/-- `net_check` takes the CHECK's reply for this session. -/
def ReadsBack (cfg : Config) (ses : Session) (env : Env) (line : Str) (t : Store) (ui session : UserInfo) : Prop :=
  ∃ d u r, Prog.run exec (command cfg ses env line) t = some (d, u) ∧ d.out = [r] ∧
    netCheck 2 ui r.wire = (.ok, session)

/-- The LOGINs name at most four factors, which fit their buffer with the blanks
between them, and none names a new factor twice. -/
structure Readable (fs : List (List Str)) : Prop where
  count : (distinct fs.flatten).length ≤ cosignMaxFactors - 1
  length : (unwords (distinct fs.flatten)).length < 256
  once : NoRepeat fs

/-- What a CHECK of a session in use does. -/
theorem checks_run {cfg : Config} {ses : Session} {env : Env} {line : Str} {t : Store} {c path : Str}
    (hpath : mkcookiepath none cfg.hashlen c maxPathLen = some path) (hc : Checks cfg ses env line t c path) :
    ∃ cmd rest, Prog.run exec (command cfg ses env line) t =
      Prog.run exec (checkLogin cfg ses env cmd c path 232 none) t ∧ acavParse line = cmd :: c :: rest := by
  obtain ⟨cmd, rest, hline, hcmd⟩ := hc.line
  have hserv : ¬ hasPrefix "cosign-".toList c := login_not_service hc.login
  refine ⟨cmd, rest, ?_, hline⟩
  have hcommand : command cfg ses env line = fCheck cfg ses env (cmd :: c :: rest) := by
    simp only [command, hline, hcmd, handle]
  have hkey : ¬ (ses.al.key ≠ .cgi ∧ ses.al.key ≠ .service) := fun h => h.1 hc.key
  rw [hcommand]
  simp only [fCheck, if_neg hkey, hpath, if_neg hserv, if_pos hc.login]

theorem wire_words {ip user : Str} {factors : List Str} (hw : ∀ w ∈ ip :: user :: factors, IsWord w) (hne : factors ≠ []) :
    acavParse (dec 232 ++ ' ' :: (ip ++ ' ' :: user ++ ' ' :: unwords factors ++ ' ' :: [])) =
      "232".toList :: ip :: user :: factors := by
  have htext : dec 232 ++ ' ' :: (ip ++ ' ' :: user ++ ' ' :: unwords factors ++ ' ' :: []) =
      unwords (("232".toList :: ip :: user :: factors) ++ [[]]) := by
    have hdec : dec 232 = "232".toList := by decide
    obtain ⟨f, fs, rfl⟩ := List.exists_cons_of_ne_nil hne
    rw [unwords_append _ _ (List.cons_ne_nil _ _), hdec]
    simp [unwords]
  have hall : ∀ w ∈ "232".toList :: ip :: user :: factors, IsWord w := by
    rw [List.forall_mem_cons]
    exact ⟨word_of_valid rfl (by decide), hw⟩
  rw [htext, acavParse_unwords_filter, List.filter_append, List.filter_eq_self.2]
  · simp
  · intro w hm
    exact decide_eq_true (hall w hm).1
  · intro w hm
    rcases List.mem_append.1 hm with hm | hm
    · exact (hall w hm).2
    · rw [List.mem_singleton.1 hm]
      exact List.forall_mem_nil _

/-- The reply tells of the record, or is 534 where it cannot be read. -/
theorem checks_reply {cfg : Config} {ses : Session} {env : Env} {line : Str} {t : Store} {c path user ip : Str}
    {factors : List Str} (hpath : mkcookiepath none cfg.hashlen c maxPathLen = some path)
    (hc : Checks cfg ses env line t c path) (hs : Stored t path user ip factors) :
    (∃ ci u, t.cookie path = some (0, ci) ∧ Prog.run exec (command cfg ses env line) t =
        some (⟨.ret 0, [checkReply ses 232 ci []], [], false⟩, u)) ∨
      (∀ ci, t.cookie path ≠ some (0, ci)) ∧ ∀ d u, Prog.run exec (command cfg ses env line) t = some (d, u) →
        ∃ text, d.out = [.line 534 text] := by
  obtain ⟨cmd, rest, hrun, -⟩ := checks_run hpath hc
  have hopen : t.opened env path = t.cookie path := by
    rw [Store.opened, hc.calls.1]
    rfl
  rw [hrun, checkLogin, Prog.run_bind, run_openCookie, hopen]
  cases hread : t.cookie path with
  | none =>
    refine .inr ⟨fun ci h => (by cases h), ?_⟩
    intro d u h
    cases h
  | some x =>
    obtain ⟨rc, ci⟩ := x
    by_cases hrc : rc = 0
    · subst hrc
      have hst := (hs.cookie hread).2.2.2.1
      obtain ⟨f, hf, hparse⟩ := cookie_file hread
      have hused : ¬ (env.now : Int) - ci.itime ≥ cfg.idleOutTime := by
        rw [(parseCookie_fstat hparse (by decide)).2]
        have := hc.used f hf
        omega
      refine .inl ⟨ci, (exec (.utime path env.now) t).2, rfl, ?_⟩
      have hclock : ¬ env.fails .gettimeofday 0 = true := by
        rw [hc.calls.2]
        exact Bool.false_ne_true
      have h0 : ¬ (0 : Int) ≠ 0 := fun h => h rfl
      dsimp only [Option.map_some, Option.bind_some]
      rw [if_neg h0, if_neg hst, if_neg hclock, if_neg hused]
      rfl
    · refine .inr ⟨by simp [hrc], ?_⟩
      intro d u h
      dsimp only [Option.map_some, Option.bind_some] at h
      rw [if_pos hrc] at h
      cases h
      exact ⟨_, rfl⟩

/-- The record can be read if its factors fit their buffer. -/
theorem stored_read {t : Store} {path user ip : Str} {factors : List Str} (hs : Stored t path user ip factors) :
    (∃ ci, t.cookie path = some (0, ci)) ↔ (unwords factors).length < 256 := by
  obtain ⟨ip₀, ti, tkt, m, hf, hw, ht, -⟩ := hs.file
  rw [Store.cookie, hf]
  dsimp only
  constructor
  · rintro ⟨ci, hci⟩
    obtain ⟨h1, h2⟩ := recordText_fits hw hci
    rw [parseCookie_recordText hw h1 h2] at hci
    split at hci
    · rename_i h
      exact h.1
    · cases hci
  · intro hlen
    have hmax : 256 < maxPathLen := by decide
    rw [parseCookie_recordText hw (by omega) (dec_fits ht).2, if_pos ⟨hlen, (dec_fits ht).1⟩]
    exact ⟨_, rfl⟩

/-- The table takes four factors. -/
theorem netCheck_reply {ses : Session} (hp : ses.protocol = 2) {ci : Cinfo} {user ip : Str} {factors : List Str}
    (hci : ci.ipaddrCur = ip ∧ ci.user = user ∧ ci.realm = unwords factors) (hw : ∀ w ∈ ip :: user :: factors, IsWord w)
    (hne : factors ≠ []) (hsize : ip.length < 256 ∧ user.length < 130) (ui : UserInfo) :
    netCheck 2 ui (checkReply ses 232 ci []).wire =
      if factors.length ≤ cosignMaxFactors - 1 then (.ok, ⟨user, ip, factors⟩)
      else (.error, { ui with login := user, ipaddr := ip }) := by
  have hwire : (checkReply ses 232 ci []).wire =
      dec 232 ++ ' ' :: (ip ++ ' ' :: user ++ ' ' :: unwords factors ++ ' ' :: []) := by
    simp [checkReply, hp, protoMinRequired, Reply.wire, hci]
  have hdec : dec 232 = "232".toList := by decide
  have hwords := wire_words hw hne
  obtain ⟨f, fs, rfl⟩ := List.exists_cons_of_ne_nil hne
  rw [hwire]
  rw [hdec] at hwords ⊢
  simp only [netCheck, String.reduceToList, List.cons_append] at hwords ⊢
  have huser : ¬ user.length ≥ 131 := by omega
  have hip : ¬ ip.length ≥ 256 := by omega
  have hproto : ¬ (2 : Int) = 0 := by decide
  rw [hwords]
  dsimp only
  rw [if_neg huser, if_neg hproto, if_neg hip]
  by_cases hn : (f :: fs).length ≤ cosignMaxFactors - 1
  · rw [if_pos hn, if_neg (Nat.not_lt.2 hn)]
  · rw [if_neg hn, if_pos (Nat.not_le.1 hn)]

/-- Of a session that LOGINs answered 2xx have made, a CHECK over protocol 2 tells
the CGI the user, the address and the factors in their order if and only if
they are no more than four distinct ones that fit their buffer. -/
theorem logins_read_back {cfg : Config} {c path : Str}
    (hpath : mkcookiepath none cfg.hashlen c maxPathLen = some path) {s t : Store}
    {tr : List (Entry Store Event Outcome)} (hrun : Run cfg s tr t) (hs : s.get path = none) {as : List LoginArgs}
    (hlog : List.Forall₂ (Logs cfg c) tr as) (hne : as ≠ []) {ses : Session} {env : Env} {line : Str}
    (hc : Checks cfg ses env line t c path) (ui : UserInfo) :
    ReadsBack cfg ses env line t ui
        ⟨(as.getLast hne).user, (as.getLast hne).ip, distinct (as.map (·.factors)).flatten⟩ ↔
      Readable (as.map (·.factors)) := by
  obtain ⟨hst, -⟩ := logs_new hpath hrun hlog hne hs
  obtain ⟨ip₀, ti, tkt, m, -, hw, -⟩ := hst.file
  have hwords : ∀ w ∈ (as.getLast hne).ip :: (as.getLast hne).user :: grown (as.map (·.factors)), IsWord w := by
    simp only [List.forall_mem_cons]
    exact ⟨hst.words.1, hst.words.2, hw.factors⟩
  rcases checks_reply hpath hc hst with ⟨ci, u, hread, hcheck⟩ | ⟨hbad, hcheck⟩
  · have hlen := (stored_read hst).1 ⟨ci, hread⟩
    obtain ⟨hip, huser, hrealm, -⟩ := hst.cookie hread
    have hnet := netCheck_reply hc.protocol ⟨hip, huser, hrealm⟩ hwords hst.nonempty ⟨hw.ipCur.2, hw.user.2⟩ ui
    constructor
    · rintro ⟨d, v, r, hr, hout, hok⟩
      rw [hcheck] at hr
      cases hr
      cases hout
      rw [hnet] at hok
      split at hok
      · rename_i hcount
        have heq : grown (as.map (·.factors)) = distinct (as.map (·.factors)).flatten :=
          congrArg (fun x => x.2.factors) hok
        refine ⟨?_, ?_, (grown_eq_distinct _).1 heq⟩
        · rw [← heq]
          exact hcount
        · rw [← heq]
          exact hlen
      · cases hok
    · rintro ⟨hcount, -, honce⟩
      have heq := (grown_eq_distinct _).2 honce
      refine ⟨_, u, _, hcheck, rfl, ?_⟩
      rw [hnet, heq, if_pos hcount]
  · constructor
    · rintro ⟨d, v, r, hr, hout, hok⟩
      obtain ⟨text, htext⟩ := hcheck d v hr
      rw [htext] at hout
      cases hout
      have hdec : dec 534 = "534".toList := by decide
      simp [Reply.wire, hdec, netCheck] at hok
    · rintro ⟨-, hlen, honce⟩
      rw [← (grown_eq_distinct _).2 honce] at hlen
      obtain ⟨ci, hci⟩ := (stored_read hst).2 hlen
      exact absurd hci (hbad ci)

/-! ## Four factors and five -/

/-- A LOGIN of a new session with these factors, at time 100. -/
def annFactors (line : Str) : Event := .command .cgi (.calm 100) line

def annCheck : Str := "CHECK cosign=abc".toList

/-- The store with Ann's record of these factors alone. -/
def annWith (factors : List Str) : Store :=
  (Store.ofFiles []).put "cosign=abc".toList
    (some ⟨recordText "10.0.0.1".toList "10.0.0.1".toList "ann".toList factors 100 none, false, 100⟩)

def annArgs (factor : Str) (more : List Str) : LoginArgs :=
  ⟨"cosign=abc".toList, "10.0.0.1".toList, "ann".toList, factor, more, none⟩

theorem annWith_checks (factors : List Str) :
    Checks .default { Session.cgi with protocol := 2 } (.calm 101) annCheck (annWith factors) "cosign=abc".toList
      "cosign=abc".toList where
  line := ⟨"CHECK".toList, [], by decide, by decide⟩
  key := rfl
  protocol := rfl
  login := by decide
  calls := ⟨rfl, rfl⟩
  used f hf := by
    rw [annWith, Store.put_get] at hf
    cases hf
    exact (by decide : (101 : Int) - 100 < 60 * 60 * 2)

theorem annFour_run : ∃ tr, Run .default (Store.ofFiles []) tr (annWith ["a".toList, "b".toList, "c".toList, "d".toList]) ∧
    List.Forall₂ (Logs .default "cosign=abc".toList) tr [annArgs "a".toList ["b".toList, "c".toList, "d".toList]] := by
  refine ⟨[⟨_, annFactors "LOGIN cosign=abc 10.0.0.1 ann a b c d".toList, .answered _, _⟩], .cons rfl (.nil _), .cons ?_ .nil⟩
  refine ⟨.cgi, .calm 100, _, _, rfl, ⟨"LOGIN".toList, by decide, by decide⟩, rfl, rfl, rfl, ?_, by decide⟩
  exact (ok_line ..).2 (by decide)

theorem annFive_run :
    ∃ tr, Run .default (Store.ofFiles []) tr (annWith ["a".toList, "b".toList, "c".toList, "d".toList, "e".toList]) ∧
      List.Forall₂ (Logs .default "cosign=abc".toList) tr
        [annArgs "a".toList ["b".toList, "c".toList, "d".toList, "e".toList]] := by
  refine ⟨[⟨_, annFactors "LOGIN cosign=abc 10.0.0.1 ann a b c d e".toList, .answered _, _⟩], .cons rfl (.nil _), .cons ?_ .nil⟩
  refine ⟨.cgi, .calm 100, _, _, rfl, ⟨"LOGIN".toList, by decide, by decide⟩, rfl, rfl, rfl, ?_, by decide⟩
  exact (ok_line ..).2 (by decide)

theorem four_read_back : ReadsBack .default { Session.cgi with protocol := 2 } (.calm 101) annCheck
    (annWith ["a".toList, "b".toList, "c".toList, "d".toList]) ⟨[], [], []⟩
    ⟨"ann".toList, "10.0.0.1".toList, ["a".toList, "b".toList, "c".toList, "d".toList]⟩ := by
  obtain ⟨tr, hrun, hlog⟩ := annFour_run
  refine (logins_read_back (by decide) hrun rfl hlog (List.cons_ne_nil _ _) (annWith_checks _) _).2 ⟨by decide, by decide, ?_⟩
  rw [← grown_nodup]
  decide

/-- Five factors are what the banner offers, and one more than the table takes. -/
theorem five_unread : ¬ ∀ (cfg : Config) (c path : Str) (s t : Store) (tr : List (Entry Store Event Outcome))
    (as : List LoginArgs) (hne : as ≠ []) (ses : Session) (env : Env) (line : Str) (ui : UserInfo),
    mkcookiepath none cfg.hashlen c maxPathLen = some path → Run cfg s tr t → s.get path = none →
    List.Forall₂ (Logs cfg c) tr as → Checks cfg ses env line t c path →
    (as.flatMap (·.factors)).Nodup → (as.flatMap (·.factors)).length ≤ cosignMaxFactors →
    ReadsBack cfg ses env line t ui
      ⟨(as.getLast hne).user, (as.getLast hne).ip, distinct (as.map (·.factors)).flatten⟩ := by
  intro h
  obtain ⟨tr, hrun, hlog⟩ := annFive_run
  have hpath : mkcookiepath none Config.default.hashlen "cosign=abc".toList maxPathLen = some "cosign=abc".toList := by
    decide
  have hread := h .default _ _ _ _ tr _ (List.cons_ne_nil _ _) _ _ _ ⟨[], [], []⟩ hpath hrun rfl hlog (annWith_checks _)
    (by decide) (by decide)
  exact absurd ((logins_read_back hpath hrun rfl hlog _ (annWith_checks _) _).1 hread).count (by decide)

end Cosign
