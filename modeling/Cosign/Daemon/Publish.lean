import Cosign.Daemon.Effects
/-!
# What `LOGIN` publishes

`Publishes` lists the checks a `LOGIN` has passed once its record has its
name. `fLogin_cases` splits every run of the handler there: before, the store
is as it was; after, it is the store with the new record, and only a ticket's
transfer is left.
-/

namespace Cosign

open Lib

/-- `link` or `rename` gives the record its name. -/
def Store.Names (s : Store) (env : Env) (path : Str) (addinfo : Bool) : Prop :=
  s.hasDir path = true ∧ if addinfo then env.fails .rename 0 = false else env.fails .link 0 = false ∧ s.get path = none

structure Publishes (cfg : Config) (ses : Session) (env : Env) (av : List Str) (s : Store) (a : LoginArgs) (path : Str)
    (rc : Int) (ci : Cinfo) (text : Str) (already : Bool) : Prop where
  cgi : ses.al.key = .cgi
  args : loginArgs cfg env av = .args a
  file : mkcookiepath none cfg.hashlen a.cookie maxPathLen = some path
  read : s.opened env path = some (rc, ci)
  live : rc = 0 → ci.state ≠ 0 ∧ a.user = ci.user
  calls : ¬ (env.fails .gettimeofday 0 ∨ env.fails .openTmp 0 ∨ env.fails .fdopen 0) ∧ env.fails .fclose 0 = false
  record : loginRecord (env.fails .acav 0) env.now (rc = 0) ci a = some (.full text already)
  names : s.Names env path (rc = 0)

/-- The store with the record under its name. -/
def published (env : Env) (s : Store) (path text : Str) : Store := s.put path (some ⟨text, false, env.now⟩)

theorem run_loginName (env : Env) (path : Str) (addinfo : Bool) (text : Str) (s : Store) :
    (s.Names env path addinfo ∧ Prog.run exec (loginName env path addinfo text) s =
        some (true, published env s path text)) ∨
      (¬ s.Names env path addinfo ∧ Prog.run exec (loginName env path addinfo text) s = some (false, s)) := by
  unfold loginName Store.Names published
  cases addinfo with
  | true =>
    simp only [if_true, run_failing, run_fsRename, exec]
    cases env.fails .rename 0 <;> cases s.hasDir path <;> simp
  | false =>
    simp only [Bool.false_eq_true, if_false, run_failing, Prog.run_bind, run_fsLink, Option.bind_some, exec]
    cases env.fails .link 0 <;> cases s.get path <;> cases s.hasDir path <;> simp

/-- A `LOGIN` that did not publish: nothing for the pusher, and neither 200 nor
201. -/
def Done.Refused (d : Done) : Prop := d.push = [] ∧ ¬ d.answers 200 ∧ ¬ d.answers 201

theorem refused_reply (ret : Int) (code : Nat) (text : Str) (h : code ≠ 200 ∧ code ≠ 201) :
    Done.Refused ⟨.ret ret, [.line code text], [], false⟩ := by
  simp [Done.Refused, Done.answers, Reply.code?, h]

theorem refused_fatal : Done.Refused ⟨.ret (-1), [], [], false⟩ := by
  simp [Done.Refused, Done.answers]

/-- Only the record of a session is compared with what `LOGIN` would write. -/
theorem loginRecord_same {acavFails : Bool} {now : Nat} {rc : Int} {ci : Cinfo} {a : LoginArgs}
    (h : loginRecord acavFails now (rc = 0) ci a = some .same) :
    rc = 0 ∧ loginRecord acavFails now true ci a = some .same := by
  by_cases hrc : rc = 0
  · exact ⟨hrc, by simpa [hrc] using h⟩
  · simp only [loginRecord, hrc, decide_false, Bool.false_eq_true, if_false] at h
    split at h
    · cases h
    split at h
    · cases h
    split at h <;> cases h

/-- A `LOGIN` that has nothing to add to its record. -/
structure Repeats (cfg : Config) (env : Env) (av : List Str) (s : Store) (a : LoginArgs) (path : Str) (ci : Cinfo) :
    Prop where
  args : loginArgs cfg env av = .args a
  file : mkcookiepath none cfg.hashlen a.cookie maxPathLen = some path
  read : s.opened env path = some (0, ci)
  live : ci.state ≠ 0 ∧ a.user = ci.user
  record : loginRecord (env.fails .acav 0) env.now true ci a = some .same

/-- Every run of `f_login` is refused, finds its record as it would write it, or
publishes it. -/
theorem fLogin_split {cfg : Config} {ses : Session} {env : Env} {av : List Str} {s t : Store} {d : Done}
    (h : Prog.run exec (fLogin cfg ses env av) s = some (d, t)) :
    (t = s ∧ d.Refused ∧ ¬ d.ok ∧ ¬ d.answers 300) ∨
      (t = s ∧ d.Refused ∧ ¬ d.answers 300 ∧ ∃ a path ci, Repeats cfg env av s a path ci) ∨
      ∃ a path rc ci text already, Publishes cfg ses env av s a path rc ci text already ∧
        Prog.run exec (loginAnswer ses env av a already) (published env s path text) = some (d, t) := by
  have hreply : ∀ {ret : Int} {code : Nat} {x : Str}, 400 ≤ code →
      Prog.run exec (reply ret code x) s = some (d, t) → t = s ∧ d.Refused ∧ ¬ d.ok ∧ ¬ d.answers 300 := by
    rintro ret code x hc h
    cases h
    refine ⟨rfl, refused_reply _ _ _ ⟨by omega, by omega⟩, ?_, ?_⟩
    · simp only [Done.ok, Done.answers, List.mem_singleton, exists_eq_left, Reply.code?, Option.some.injEq]
      rintro ⟨c, -, hlt, rfl⟩
      omega
    · simp only [Done.answers, List.mem_singleton, exists_eq_left, Reply.code?, Option.some.injEq]
      omega
  have hfatal : Prog.run exec fatal s = some (d, t) → t = s ∧ d.Refused ∧ ¬ d.ok ∧ ¬ d.answers 300 := by
    intro h
    cases h
    exact ⟨rfl, refused_fatal, by simp [Done.ok, Done.answers], by simp [Done.answers]⟩
  unfold fLogin at h
  split at h
  · exact .inl (hreply (by decide) h)
  rename_i hkey
  split at h
  · exact .inl (hreply (by decide) h)
  · exact .inl (hfatal h)
  rename_i a hargs
  split at h
  · exact .inl (hreply (by decide) h)
  rename_i path hpath
  simp only [loginAt, Prog.run_bind, run_openCookie] at h
  cases hread : s.opened env path with
  | none => rw [hread] at h; cases h
  | some x =>
    obtain ⟨rc, ci⟩ := x
    simp only [hread, Option.map_some, Option.bind_some] at h
    split at h
    · exact .inl (hreply (by decide) h)
    rename_i hstate
    split at h
    · exact .inl (hreply (by decide) h)
    rename_i huser
    split at h
    · exact .inl (hfatal h)
    rename_i hcalls
    simp only [Prog.run_bind, Prog.run_orUndef] at h
    have hlive : rc = 0 → ci.state ≠ 0 ∧ a.user = ci.user := fun h0 =>
      ⟨fun hs => hstate ⟨h0, hs⟩, by_contra fun hu => huser ⟨h0, hu⟩⟩
    cases hrec : loginRecord (env.fails .acav 0) env.now (rc = 0) ci a with
    | none => rw [hrec] at h; cases h
    | some r =>
      simp only [hrec, Option.map_some, Option.bind_some] at h
      cases r with
      | bad => exact .inl (hreply (by decide) h)
      | same =>
        cases h
        obtain ⟨rfl, hsame⟩ := loginRecord_same hrec
        exact .inr (.inl ⟨rfl, refused_reply _ _ _ (by decide), by simp [Done.answers, Reply.code?], a, path, ci, hargs,
          hpath, hread, hlive rfl, hsame⟩)
      | full text already =>
        dsimp only at h
        split at h
        · exact .inl (hfatal h)
        rename_i hclose
        simp only [loginPublish, Prog.run_bind] at h
        rcases run_loginName env path (rc = 0) text s with ⟨hn, hr⟩ | ⟨-, hr⟩
        · rw [hr] at h
          exact .inr (.inr ⟨a, path, rc, ci, text, already,
            ⟨not_not.1 hkey, hargs, hpath, hread, hlive, ⟨hcalls, by simpa using hclose⟩, hrec, hn⟩, h⟩)
        · rw [hr] at h
          exact .inl (hfatal h)

/-- Every run of `f_login` either stops before it publishes, or publishes. -/
theorem fLogin_cases {cfg : Config} {ses : Session} {env : Env} {av : List Str} {s t : Store} {d : Done}
    (h : Prog.run exec (fLogin cfg ses env av) s = some (d, t)) :
    (t = s ∧ d.Refused) ∨
      ∃ a path rc ci text already, Publishes cfg ses env av s a path rc ci text already ∧
        Prog.run exec (loginAnswer ses env av a already) (published env s path text) = some (d, t) := by
  rcases fLogin_split h with ⟨ht, hd, -⟩ | ⟨ht, hd, -⟩ | hp
  · exact .inl ⟨ht, hd⟩
  · exact .inl ⟨ht, hd⟩
  · exact .inr hp

/-- A `LOGIN` that passes the checks publishes. -/
theorem fLogin_publishes {cfg : Config} {ses : Session} {env : Env} {av : List Str} {s : Store} {a : LoginArgs}
    {path : Str} {rc : Int} {ci : Cinfo} {text : Str} {already : Bool}
    (h : Publishes cfg ses env av s a path rc ci text already) :
    Prog.run exec (fLogin cfg ses env av) s =
      Prog.run exec (loginAnswer ses env av a already) (published env s path text) := by
  have hstate : ¬ (rc = 0 ∧ ci.state = 0) := fun hc => (h.live hc.1).1 hc.2
  have huser : ¬ (rc = 0 ∧ a.user ≠ ci.user) := fun hc => hc.2 (h.live hc.1).2
  have hname : Prog.run exec (loginName env path (rc = 0) text) s = some (true, published env s path text) := by
    rcases run_loginName env path (rc = 0) text s with ⟨-, hr⟩ | ⟨hn, -⟩
    · exact hr
    · exact absurd h.names hn
  simp only [fLogin, h.cgi, ne_eq, not_true_eq_false, if_false, h.args, h.file, loginAt, Prog.run_bind, run_openCookie,
    h.read, Option.map_some, Option.bind_some, hstate, huser, h.calls.1, Prog.run_orUndef, h.record, h.calls.2,
    Bool.false_eq_true, loginPublish, hname]
  rfl

section
variable {cfg : Config} {ses : Session} {env : Env} {av : List Str} {s : Store} {a : LoginArgs} {path : Str}
  {rc : Int} {ci : Cinfo} {text : Str} {already : Bool}

/-- The record it extends is there. -/
theorem Publishes.exists_file (h : Publishes cfg ses env av s a path 0 ci text already) :
    ∃ f, s.get path = some f := by
  have hread := h.read
  unfold Store.opened Store.cookie at hread
  split at hread
  · cases hread
  · split at hread
    · cases hread
    · rename_i f hf; exact ⟨f, hf⟩

/-- A new record's name was free. -/
theorem Publishes.absent (h : Publishes cfg ses env av s a path rc ci text already) (hrc : rc ≠ 0) :
    s.get path = none := by
  have hn := h.names.2
  simp only [hrc, decide_false, Bool.false_eq_true, if_false] at hn
  exact hn.2

end

/-! ## The record -/

/-- The factors of the new record: those of the old one first. -/
def loginFactors (addinfo : Bool) (ci : Cinfo) (a : LoginArgs) : List Str :=
  if addinfo then acavParse ci.realm ++ a.factors.filter (· ∉ acavParse ci.realm) else a.factors

/-- The record `f_login` publishes. -/
def loginText (now : Nat) (addinfo : Bool) (ci : Cinfo) (a : LoginArgs) : Str :=
  recordText (if addinfo then ci.ipaddr else a.ip) a.ip a.user (loginFactors addinfo ci a)
    (if addinfo then ci.itime else now) (loginTicket addinfo ci a.krbpath).1

theorem loginRecord_full {acavFails addinfo : Bool} {now : Nat} {ci : Cinfo} {a : LoginArgs} {text : Str}
    {already : Bool} (h : loginRecord acavFails now addinfo ci a = some (.full text already)) :
    text = loginText now addinfo ci a ∧ already = (loginTicket addinfo ci a.krbpath).2 ∧
      a.ip.length < 256 ∧ a.user.length < 130 ∧
      (addinfo = true → acavParse ci.realm ≠ [] ∧
        ¬ (ci.ipaddrCur = a.ip ∧ a.factors.filter (· ∉ acavParse ci.realm) = [])) := by
  unfold loginRecord at h
  split at h
  · cases h
  split at h
  · cases h
  split at h
  · cases h
  rename_i hip huser _
  cases addinfo with
  | false =>
    cases h
    exact ⟨rfl, rfl, by omega, by omega, by simp⟩
  | true =>
    simp only [if_true] at h
    split at h
    · cases h
    · split at h
      · cases h
      · rename_i hne
        split at h
        · cases h
        · rename_i hsame
          cases h
          exact ⟨by simp [loginText, loginFactors], rfl, by omega, by omega, fun _ => ⟨hne, hsame⟩⟩

/-- The words of a command line, and the path of its ticket. -/
structure ArgsClean (a : LoginArgs) : Prop where
  cookie : IsWord a.cookie
  ip : IsWord a.ip
  user : IsWord a.user
  factors : ∀ w ∈ a.factors, IsWord w
  krbpath : ∀ k, a.krbpath = some k → '\n' ∉ k ∧ '=' ∉ basename k ∧ k.length < maxPathLen

theorem loginArgs_clean {cfg : Config} {env : Env} {av : List Str} {a : LoginArgs} (hav : ∀ w ∈ av, IsWord w)
    (h : loginArgs cfg env av = .args a) : ArgsClean a := by
  unfold loginArgs at h
  split at h
  · rename_i cmd cookie ip user factor more
    have hmore : ∀ w ∈ more, IsWord w := fun w hw => hav w (by simp [hw])
    have hwords : IsWord cookie ∧ IsWord ip ∧ IsWord user ∧ IsWord factor :=
      ⟨hav _ (by simp), hav _ (by simp), hav _ (by simp), hav _ (by simp)⟩
    split at h
    · split at h
      · cases h
      · rename_i tmpkrb hk
        dsimp only at h
        split at h
        · cases h
        · rename_i hl
          cases h
          have hmem := mkcookie_mem (by decide) hk
          have hno : ∀ c : Char, c ∉ fbase64Alphabet → c ∉ tmpkrb := fun c hc hm => hc (hmem c hm)
          refine ⟨hwords.1, hwords.2.1, hwords.2.2.1, ?_, ?_⟩
          · intro w hw
            rcases List.mem_cons.1 hw with rfl | hw
            · exact hwords.2.2.2
            · exact hmore w (List.dropLast_subset more hw)
          · rintro k ⟨⟩
            refine ⟨?_, ?_, by omega⟩
            · simp [cfg.tickets_line, hno '\n' (by decide)]
            · rw [basename_append _ _ (hno '/' (by decide))]
              exact hno '=' (by decide)
    · cases h
      refine ⟨hwords.1, hwords.2.1, hwords.2.2.1, ?_, by simp⟩
      intro w hw
      rcases List.mem_cons.1 hw with rfl | hw
      · exact hwords.2.2.2
      · exact hmore w hw
  · cases h

theorem Publishes.clean {cfg : Config} {ses : Session} {env : Env} {av : List Str} {s : Store} {a : LoginArgs}
    {path : Str} {rc : Int} {ci : Cinfo} {text : Str} {already : Bool}
    (h : Publishes cfg ses env av s a path rc ci text already) (hav : ∀ w ∈ av, IsWord w) : ArgsClean a :=
  loginArgs_clean hav h.args

/-- A file that was read held the fields. -/
theorem opened_clean {s : Store} {env : Env} {path : Str} {rc : Int} {ci : Cinfo} (h : s.opened env path = some (rc, ci)) :
    ci.Clean := by
  have hz : Cinfo.zero.Clean := by
    intro f; cases f <;> simp [Field.get, Cinfo.zero, Field.size, maxPathLen]
  unfold Store.opened Store.cookie at h
  split at h
  · cases h; exact hz
  · split at h
    · cases h; exact hz
    · exact parseCookie_clean h

/-- The record `f_login` publishes has the sizes its reader expects. -/
theorem Publishes.written {cfg : Config} {ses : Session} {env : Env} {av : List Str} {s : Store} {a : LoginArgs}
    {path : Str} {rc : Int} {ci : Cinfo} {text : Str} {already : Bool}
    (h : Publishes cfg ses env av s a path rc ci text already) (hav : ∀ w ∈ av, IsWord w) :
    Written (if (rc = 0 : Bool) then ci.ipaddr else a.ip) a.ip a.user (loginFactors (rc = 0) ci a)
      (loginTicket (rc = 0) ci a.krbpath).1 := by
  obtain ⟨-, -, hip, huser, -⟩ := loginRecord_full h.record
  have ha := h.clean hav
  have hci := opened_clean h.read
  refine ⟨?_, ⟨ha.ip.no_newline, hip⟩, ⟨ha.user.no_newline, huser⟩, ?_, ?_⟩
  · split
    · exact hci .ipaddr
    · exact ⟨ha.ip.no_newline, hip⟩
  · intro w hw
    unfold loginFactors at hw
    split at hw
    · rcases List.mem_append.1 hw with hw | hw
      · exact acavParse_words _ w hw
      · exact ha.factors w (List.mem_filter.1 hw).1
    · exact ha.factors w hw
  · intro k hk
    unfold loginTicket at hk
    split at hk
    · rename_i krbpath hkrb
      split at hk
      · cases hk; exact hci .krbtkt
      · cases hk; exact ⟨(ha.krbpath k hkrb).1, (ha.krbpath k hkrb).2.2⟩
    · split at hk
      · cases hk; exact hci .krbtkt
      · cases hk

end Cosign
