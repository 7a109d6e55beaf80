import Cosign.Daemon.LoginFailure
import Cosign.Daemon.Identity
/-!
# `LOGIN` over `LOGIN`

What `LOGIN` makes of a session that is there: nothing when its address and its
factors are known, and otherwise the record with the new ones. So the factors of
a session grow like a set, whatever the order of the commands.
-/

namespace Cosign

open Lib

/-- A `LOGIN` for a session that can be read and is logged in, with arguments
that fit. -/
structure Extending (cfg : Config) (ses : Session) (env : Env) (line : Str) (s : Store) (a : LoginArgs) (path : Str)
    (ci : Cinfo) : Prop where
  cgi : ses.al.key = .cgi
  args : loginArgs cfg env (acavParse line) = .args a
  file : mkcookiepath none cfg.hashlen a.cookie maxPathLen = some path
  read : s.opened env path = some (0, ci)
  live : ci.state ≠ 0
  user : a.user = ci.user
  ip_fits : a.ip.length < 256
  user_fits : a.user.length < 130
  factor_fits : a.factor.length < 256

/-- A call fails before the record is compared. -/
def Env.Stops (env : Env) : Prop :=
  (env.fails .gettimeofday 0 ∨ env.fails .openTmp 0 ∨ env.fails .fdopen 0) ∨ env.fails .acav 0

/-- The address is the current one and the factors are all there. -/
def Known (ci : Cinfo) (a : LoginArgs) : Prop := ci.ipaddrCur = a.ip ∧ ∀ f ∈ a.factors, f ∈ acavParse ci.realm

instance (ci : Cinfo) (a : LoginArgs) : Decidable (Known ci a) :=
  inferInstanceAs (Decidable (ci.ipaddrCur = a.ip ∧ ∀ f ∈ a.factors, f ∈ acavParse ci.realm))

/-- The factors that are new. -/
def newFactors (ci : Cinfo) (a : LoginArgs) : List Str := a.factors.filter (· ∉ acavParse ci.realm)

theorem newFactors_nil {ci : Cinfo} {a : LoginArgs} :
    newFactors ci a = [] ↔ ∀ f ∈ a.factors, f ∈ acavParse ci.realm := by
  simp [newFactors, List.filter_eq_nil_iff]

theorem known_iff {ci : Cinfo} {a : LoginArgs} : Known ci a ↔ ci.ipaddrCur = a.ip ∧ newFactors ci a = [] := by
  rw [newFactors_nil]
  rfl

/-! ## One command -/

/-- Neither 200 nor 202. -/
def Done.Other (d : Done) : Prop := ¬ d.answers 200 ∧ ¬ d.answers 202

theorem other_reply (ret : Int) (code : Nat) (text : Str) (h : code ≠ 200 ∧ code ≠ 202) :
    Done.Other ⟨.ret ret, [.line code text], [], false⟩ := by
  simp [Done.Other, Done.answers, Reply.code?, h]

theorem other_of_not_ok {d : Done} (h : ¬ d.ok) : d.Other :=
  ⟨fun ha => h ⟨200, by omega, by omega, ha⟩, fun ha => h ⟨202, by omega, by omega, ha⟩⟩

/-- `LOGIN Cookie Already Stored.` -/
def loginSame : Done where
  ret := .ret 0
  out := [.line 202 "LOGIN Cookie Already Stored.".toList]

theorem loginSame_answers : loginSame.answers 202 ∧ ¬ loginSame.answers 200 := by
  simp [loginSame, Done.answers, Reply.code?]

theorem loginAnswer_cases {ses : Session} {env : Env} {av : List Str} {a : LoginArgs} {already : Bool} {s t : Store}
    {d : Done} (h : Prog.run exec (loginAnswer ses env av a already) s = some (d, t)) :
    (d.answers 200 ∧ ¬ d.answers 202 ∧ t = s) ∨ d.Other := by
  unfold loginAnswer at h
  split at h
  · refine .inr ?_
    rcases loginReceive_cases h with ⟨-, -, rfl⟩ | ⟨_, _, -, -, -, rfl, -⟩ | ⟨-, -, hb⟩
    · simp [Done.Other, Done.answers, transferDone, sendFile, Reply.code?]
    · simp [Done.Other, Done.answers, transferMismatch, sendFile, Reply.code?]
    · exact ⟨fun ha => absurd (hb.2 _ ha) (by decide), fun ha => absurd (hb.2 _ ha) (by decide)⟩
  · cases h
    refine .inl ⟨?_, ?_, rfl⟩
    · simp [Done.answers, loginStored, Reply.code?]
    · simp [Done.answers, loginStored, Reply.code?]

section
variable {cfg : Config} {ses : Session} {env : Env} {line : Str} {s t : Store} {a : LoginArgs} {path : Str} {ci : Cinfo}
  {d : Done}

/-- None of the sizes `f_login` checks is exceeded. -/
theorem Extending.sizes (hx : Extending cfg ses env line s a path ci) :
    ¬ a.ip.length ≥ 256 ∧ ¬ a.user.length ≥ 130 ∧ ¬ a.factor.length ≥ 256 := by
  have hip := hx.ip_fits
  have huser := hx.user_fits
  have hfactor := hx.factor_fits
  refine ⟨?_, ?_, ?_⟩ <;> omega

/-- The arguments, the path and the record are those of the request. -/
theorem Extending.same (hx : Extending cfg ses env line s a path ci) {a' : LoginArgs} {path' : Str} {rc : Int}
    {ci' : Cinfo} (ha : loginArgs cfg env (acavParse line) = .args a')
    (hp : mkcookiepath none cfg.hashlen a'.cookie maxPathLen = some path') (hr : s.opened env path' = some (rc, ci')) :
    a' = a ∧ path' = path ∧ rc = 0 ∧ ci' = ci := by
  obtain rfl : a' = a := ArgsAns.args.inj (ha.symm.trans hx.args)
  obtain rfl : path' = path := Option.some.inj (hp.symm.trans hx.file)
  have hread := Option.some.inj (hr.symm.trans hx.read)
  exact ⟨rfl, rfl, congrArg Prod.fst hread, congrArg Prod.snd hread⟩

/-- The record that is compared, and what is made of it. -/
theorem loginRecord_extends (hx : Extending cfg ses env line s a path ci) (hacav : env.fails .acav 0 = false) :
    loginRecord (env.fails .acav 0) env.now true ci a =
      if acavParse ci.realm = [] then none
      else if Known ci a then some .same
      else some (.full (loginText env.now true ci a) (loginTicket true ci a.krbpath).2) := by
  obtain ⟨hip, huser, hfactor⟩ := hx.sizes
  unfold loginRecord
  rw [if_neg hip, if_neg huser, if_neg hfactor, hacav]
  dsimp only
  rw [if_pos rfl, if_neg Bool.false_ne_true]
  split
  · rename_i hfv
    rw [if_pos hfv]
  · rename_i hfv
    rw [if_neg hfv]
    by_cases hk : Known ci a
    · have hsame := known_iff.1 hk
      unfold newFactors at hsame
      rw [if_pos hk, if_pos hsame]
    · have hdiff := fun h => hk (known_iff.2 h)
      unfold newFactors at hdiff
      rw [if_neg hk, if_neg hdiff]
      simp [loginText, loginFactors]

theorem Extending.run (hx : Extending cfg ses env line s a path ci) :
    Prog.run exec (fLogin cfg ses env (acavParse line)) s =
      if env.fails .gettimeofday 0 ∨ env.fails .openTmp 0 ∨ env.fails .fdopen 0 then
        some (⟨.ret (-1), [], [], false⟩, s)
      else (loginRecord (env.fails .acav 0) env.now true ci a).bind fun r => match r with
        | .bad => some (⟨.ret 1, [.line 504 "LOGIN Syntax Error: Bad File Format".toList], [], false⟩, s)
        | .same => some (loginSame, s)
        | .full text already => if env.fails .fclose 0 then some (⟨.ret (-1), [], [], false⟩, s)
          else Prog.run exec (loginPublish ses env (acavParse line) a path true text already) s := by
  simp only [fLogin, hx.cgi, ne_eq, not_true_eq_false, if_false, hx.args, hx.file, loginAt, Prog.run_bind,
    run_openCookie, hx.read, Option.map_some, Option.bind_some, hx.live, hx.user, and_false]
  split
  · rfl
  · simp only [Prog.run_bind, Prog.run_orUndef, decide_true]
    cases loginRecord (env.fails .acav 0) env.now true ci a with
    | none => rfl
    | some r =>
      cases r with
      | bad => rfl
      | same => rfl
      | full text already =>
        simp only [Option.map_some, Option.bind_some]
        split <;> rfl

theorem Extending.stopped (hx : Extending cfg ses env line s a path ci) (hs : env.Stops)
    (hrun : Prog.run exec (fLogin cfg ses env (acavParse line)) s = some (d, t)) : d.Other := by
  rw [hx.run] at hrun
  split at hrun
  · cases hrun
    simp [Done.Other, Done.answers]
  rename_i hcalls
  have hacav := hs.resolve_left hcalls
  obtain ⟨hip, huser, hfactor⟩ := hx.sizes
  have hbad : loginRecord (env.fails .acav 0) env.now true ci a = some .bad := by
    simp [loginRecord, hip, huser, hfactor, hacav]
  rw [hbad] at hrun
  cases hrun
  exact other_reply _ _ _ (by decide)

/-- Nothing new is answered 202. -/
theorem Extending.known (hx : Extending cfg ses env line s a path ci) (hs : ¬ env.Stops) (hk : Known ci a) :
    Prog.run exec (fLogin cfg ses env (acavParse line)) s = some (loginSame, s) := by
  have hacav : env.fails .acav 0 = false := by
    simpa using fun h => hs (.inr h)
  have hfv : acavParse ci.realm ≠ [] := by
    have := hk.2 a.factor List.mem_cons_self
    intro hnil
    rw [hnil] at this
    cases this
  rw [hx.run, if_neg fun h => hs (.inl h), loginRecord_extends hx hacav, if_neg hfv, if_pos hk]
  rfl

/-- A record with something new is published, or an error is answered. -/
theorem Extending.published (hx : Extending cfg ses env line s a path ci) (hs : ¬ env.Stops) (hk : ¬ Known ci a)
    (hrun : Prog.run exec (fLogin cfg ses env (acavParse line)) s = some (d, t)) :
    d.Other ∨ d.answers 200 ∧ ¬ d.answers 202 ∧ t = published env s path (loginText env.now true ci a) ∧
      Publishes cfg ses env (acavParse line) s a path 0 ci (loginText env.now true ci a)
        (loginTicket true ci a.krbpath).2 := by
  have hacav : env.fails .acav 0 = false := by
    simpa using fun h => hs (.inr h)
  -- a run that answers 202 has compared the record, and found it the same
  rcases fLogin_split hrun with ⟨-, -, hno, -⟩ | ⟨-, -, -, a', path', ci', hr⟩ | ⟨a', path', rc, ci', text, already, hp, hans⟩
  · exact .inl (other_of_not_ok hno)
  · obtain ⟨rfl, rfl, -, rfl⟩ := hx.same hr.args hr.file hr.read
    have hrec := hr.record
    rw [loginRecord_extends hx hacav] at hrec
    split at hrec
    · cases hrec
    · cases hrec
  · obtain ⟨rfl, rfl, rfl, rfl⟩ := hx.same hp.args hp.file hp.read
    obtain ⟨rfl, rfl, -⟩ := loginRecord_full hp.record
    rcases loginAnswer_cases hans with ⟨h200, h202, rfl⟩ | ho
    · exact .inr ⟨h200, h202, rfl, hp⟩
    · exact .inl ho

/-! ## The record it makes -/

/-- What `read_cookie` gives of the new record. -/
structure Merged (ci : Cinfo) (a : LoginArgs) (ci' : Cinfo) : Prop where
  user : ci'.user = ci.user
  ipaddr : ci'.ipaddr = ci.ipaddr
  ipaddrCur : ci'.ipaddrCur = a.ip
  factors : acavParse ci'.realm = acavParse ci.realm ++ newFactors ci a
  ticket : ci.krbtkt ≠ [] → ci'.krbtkt = ci.krbtkt
  live : ci'.state ≠ 0

/-- The lines it writes fit. -/
structure Roomy (ci : Cinfo) (a : LoginArgs) : Prop where
  realm : (unwords (acavParse ci.realm ++ newFactors ci a)).length < 256
  ctime : (dec ci.itime).length < 12

theorem published_cookie (env : Env) (s : Store) (path text : Str) :
    (published env s path text).cookie path = parseCookie ⟨text, false, env.now⟩ := by
  rw [Store.cookie, published_get]

/-- The new record read back. -/
theorem Publishes.merged {text : Str} {already : Bool}
    (hp : Publishes cfg ses env (acavParse line) s a path 0 ci text already) (hfits : Roomy ci a) :
    ∃ ci', (published env s path text).cookie path = some (0, ci') ∧ Merged ci a ci' := by
  obtain ⟨rfl, -⟩ := loginRecord_full hp.record
  have hw := hp.written (acavParse_words line)
  have hnew : loginFactors true ci a = acavParse ci.realm ++ newFactors ci a := by simp [loginFactors, newFactors]
  simp only [decide_true, if_true] at hw
  have hrealm : (unwords (loginFactors true ci a)).length < 256 := by rw [hnew]; exact hfits.realm
  have htime := hfits.ctime
  have hread := parseCookie_recordText hw (Nat.lt_trans hrealm (by decide)) (Nat.lt_trans htime (by decide)) false env.now
  rw [if_pos ⟨hrealm, htime⟩] at hread
  refine ⟨_, (published_cookie env s path _).trans hread, (hp.live rfl).2, rfl, rfl, ?_, fun ht => ?_, by simp⟩
  · rw [← hnew]
    exact acavParse_unwords hw.factors
  · cases a.krbpath <;> simp [loginTicket, ht]

/-- What a `LOGIN` does to a session. -/
structure Merges (cfg : Config) (ses : Session) (env : Env) (line : Str) (s : Store) (a : LoginArgs) (path : Str)
    (ci : Cinfo) (d : Done) (t : Store) : Prop where
  already : d.answers 202 ↔ ¬ env.Stops ∧ Known ci a
  untouched : d.answers 202 → t = s
  stored : d.answers 200 → ∃ ci', t.cookie path = some (0, ci') ∧ Merged ci a ci'

theorem Extending.merges (hx : Extending cfg ses env line s a path ci) (hfits : Roomy ci a)
    (hrun : Prog.run exec (fLogin cfg ses env (acavParse line)) s = some (d, t)) :
    Merges cfg ses env line s a path ci d t := by
  by_cases hs : env.Stops
  · obtain ⟨h200, h202⟩ := hx.stopped hs hrun
    exact ⟨⟨fun h => absurd h h202, fun h => absurd hs h.1⟩, fun h => absurd h h202, fun h => absurd h h200⟩
  by_cases hk : Known ci a
  · rw [hx.known hs hk] at hrun
    cases hrun
    have ⟨h202, h200⟩ := loginSame_answers
    exact ⟨⟨fun _ => ⟨hs, hk⟩, fun _ => h202⟩, fun _ => rfl, fun h => absurd h h200⟩
  rcases hx.published hs hk hrun with ⟨h200, h202⟩ | ⟨-, h202, rfl, hp⟩
  · exact ⟨⟨fun h => absurd h h202, fun h => absurd h.2 hk⟩, fun h => absurd h h202, fun h => absurd h h200⟩
  · exact ⟨⟨fun h => absurd h h202, fun h => absurd h.2 hk⟩, fun h => absurd h h202, fun _ => hp.merged hfits⟩

end

/-! ## Commands one after the other -/

/-- `LOGIN`s for one session, each answered 200 or 202, with the factors of
each. -/
inductive Logins (cfg : Config) (path : Str) : Store → List (List Str) → Store → Prop
  | nil (s : Store) : Logins cfg path s [] s
  | cons {ses : Session} {env : Env} {line : Str} {s u t : Store} {a : LoginArgs} {ci : Cinfo} {d : Done}
      {Gs : List (List Str)} (hx : Extending cfg ses env line s a path ci) (hfits : Roomy ci a)
      (hrun : Prog.run exec (fLogin cfg ses env (acavParse line)) s = some (d, u))
      (hd : d.answers 200 ∨ d.answers 202) (rest : Logins cfg path u Gs t) : Logins cfg path s (a.factors :: Gs) t

theorem opened_cookie {s : Store} {env : Env} {path : Str} {ci : Cinfo} (h : s.opened env path = some (0, ci)) :
    s.cookie path = some (0, ci) := by
  obtain ⟨-, f, hf, hparse⟩ := opened_file h
  rw [Store.cookie, hf]
  exact hparse

section
variable {cfg : Config} {ses : Session} {env : Env} {line : Str} {s t : Store} {a : LoginArgs} {path : Str} {ci : Cinfo}
  {d : Done}

/-- The session after a `LOGIN` that is answered 200 or 202. -/
theorem Merges.after (h : Merges cfg ses env line s a path ci d t) (hread : s.cookie path = some (0, ci))
    (hd : d.answers 200 ∨ d.answers 202) : ∃ ci', t.cookie path = some (0, ci') ∧ ci'.ipaddrCur = a.ip ∧
      ∀ f, f ∈ acavParse ci'.realm ↔ f ∈ acavParse ci.realm ∨ f ∈ a.factors := by
  rcases hd with h200 | h202
  · obtain ⟨ci', hread', hm⟩ := h.stored h200
    refine ⟨ci', hread', hm.ipaddrCur, fun f => ?_⟩
    rw [hm.factors, List.mem_append, newFactors, List.mem_filter]
    by_cases hf : f ∈ acavParse ci.realm <;> simp [hf]
  · obtain ⟨-, hip, hall⟩ := h.already.1 h202
    obtain rfl := h.untouched h202
    exact ⟨ci, hread, hip, fun f => ⟨.inl, fun hf => hf.elim id (hall f)⟩⟩

/-- A second `LOGIN` with nothing new changes nothing. -/
theorem Merges.again (h : Merges cfg ses env line s a path ci d t) (hread : s.cookie path = some (0, ci))
    (hd : d.answers 200 ∨ d.answers 202) {ses' : Session} {env' : Env} {line' : Str} {a' : LoginArgs} {ci' : Cinfo}
    (hx : Extending cfg ses' env' line' t a' path ci') (hs : ¬ env'.Stops) (hip : a'.ip = a.ip)
    (hfactors : ∀ f ∈ a'.factors, f ∈ a.factors) :
    Prog.run exec (fLogin cfg ses' env' (acavParse line')) t = some (loginSame, t) := by
  obtain ⟨ci₀, hread₀, hcur, hmem⟩ := h.after hread hd
  obtain rfl : ci₀ = ci' := congrArg Prod.snd (Option.some.inj (hread₀.symm.trans (opened_cookie hx.read)))
  -- the record has the address and the factors by now, whether it was 200 or 202
  apply hx.known hs
  exact ⟨hcur.trans hip.symm, fun f hf => (hmem f).2 (.inr (hfactors f hf))⟩

/-- The factors of a session after some `LOGIN`s: those it had and those of the
commands. -/
theorem Logins.factors {Gs : List (List Str)} (h : Logins cfg path s Gs t) (hread : s.cookie path = some (0, ci)) :
    ∃ ci', t.cookie path = some (0, ci') ∧
      ∀ f, f ∈ acavParse ci'.realm ↔ f ∈ acavParse ci.realm ∨ ∃ G ∈ Gs, f ∈ G := by
  induction h generalizing ci with
  | nil s => exact ⟨ci, hread, by simp⟩
  | cons hx hfits hrun hd rest ih =>
    have hci := hread.symm.trans (opened_cookie hx.read)
    cases hci
    obtain ⟨ci₁, hread₁, -, hmem₁⟩ := (hx.merges hfits hrun).after hread hd
    obtain ⟨ci', hread', hmem⟩ := ih hread₁
    refine ⟨ci', hread', fun f => ?_⟩
    rw [hmem, hmem₁]
    simp [or_assoc]

/-- So their order does not matter. -/
theorem Logins.order {Gs Gs' : List (List Str)} {t' : Store} (h : Logins cfg path s Gs t)
    (h' : Logins cfg path s Gs' t') (hperm : Gs.Perm Gs') (hread : s.cookie path = some (0, ci)) {c c' : Cinfo}
    (hc : t.cookie path = some (0, c)) (hc' : t'.cookie path = some (0, c')) (f : Str) :
    f ∈ acavParse c.realm ↔ f ∈ acavParse c'.realm := by
  obtain ⟨c₁, hc₁, hmem⟩ := h.factors hread
  obtain ⟨c₂, hc₂, hmem'⟩ := h'.factors hread
  obtain rfl : c₁ = c := by have := hc₁.symm.trans hc; cases this; rfl
  obtain rfl : c₂ = c' := by have := hc₂.symm.trans hc'; cases this; rfl
  rw [hmem, hmem']
  simp only [hperm.mem_iff]

end

/-- `LOGIN` on a session merges. -/
theorem login_merges {cfg : Config} {ses : Session} {env : Env} {line : Str} {s : Store} {a : LoginArgs} {path : Str}
    {ci : Cinfo} (hx : Extending cfg ses env line s a path ci) (hfits : Roomy ci a) :
    (¬ env.Stops ∧ Known ci a →
      Prog.run exec (fLogin cfg ses env (acavParse line)) s = some (loginSame, s)) ∧
    (∀ d t, Prog.run exec (fLogin cfg ses env (acavParse line)) s = some (d, t) →
      Merges cfg ses env line s a path ci d t ∧
      (d.answers 200 ∨ d.answers 202 → ∀ ses' env' line' a' ci', Extending cfg ses' env' line' t a' path ci' →
        ¬ env'.Stops → a'.ip = a.ip → a'.factors = a.factors →
          Prog.run exec (fLogin cfg ses' env' (acavParse line')) t = some (loginSame, t))) ∧
    ∀ Gs Gs' t t' c c', Logins cfg path s Gs t → Logins cfg path s Gs' t' → Gs.Perm Gs' →
      t.cookie path = some (0, c) → t'.cookie path = some (0, c') →
        ∀ f, f ∈ acavParse c.realm ↔ f ∈ acavParse c'.realm := by
  have hread := opened_cookie hx.read
  refine ⟨fun h => hx.known h.1 h.2, fun d t hrun => ⟨hx.merges hfits hrun, ?_⟩, ?_⟩
  · intro hd ses' env' line' a' ci' hx' hs hip hfactors
    refine (hx.merges hfits hrun).again hread hd hx' hs hip fun f hf => ?_
    rwa [← hfactors]
  · intro Gs Gs' t t' c c' h h' hperm hc hc' f
    exact h.order h' hperm hread hc hc' f

/-! ## One session -/

def annTokenLine : Str := "LOGIN cosign=abc 10.0.0.9 ann umich token".toList

def annTokenArgs : LoginArgs :=
  ⟨"cosign=abc".toList, "10.0.0.9".toList, "ann".toList, "umich".toList, ["token".toList], none⟩

theorem annToken_extends : Extending .default .cgi (.calm 110) annTokenLine annThere annTokenArgs "cosign=abc".toList
    (annInfo "10.0.0.1".toList "umich".toList 100) :=
  ⟨rfl, rfl, rfl, rfl, by decide, rfl, by decide, by decide, by decide⟩

theorem login_merges_token : ∃ d t, d.answers 200 ∧ Merges .default .cgi (.calm 110) annTokenLine annThere annTokenArgs
    "cosign=abc".toList (annInfo "10.0.0.1".toList "umich".toList 100) d t := by
  have hrun : ∃ d t, Prog.run exec (fLogin .default .cgi (.calm 110) (acavParse annTokenLine)) annThere = some (d, t) ∧
      d.answers 200 := ⟨_, _, rfl, _, List.mem_singleton.2 rfl, rfl⟩
  obtain ⟨d, t, hrun, hd⟩ := hrun
  exact ⟨d, t, hd, ((login_merges annToken_extends ⟨by decide, by decide⟩).2.1 d t hrun).1⟩

/-- Its file is from a time of twelve digits. -/
def farThere : Store :=
  published (.calm (10 ^ 11)) (.ofFiles []) "cosign=abc".toList (userRecord "10.0.0.1".toList "ann".toList)

/-- Such a time overruns its field. -/
theorem far_overrun : ∃ ci d t, Extending .default .cgi (.calm 110) annTokenLine farThere annTokenArgs "cosign=abc".toList ci ∧
    (unwords (acavParse ci.realm ++ newFactors ci annTokenArgs)).length < 256 ∧
    Prog.run exec (fLogin .default .cgi (.calm 110) (acavParse annTokenLine)) farThere = some (d, t) ∧ d.answers 200 ∧
    t.cookie "cosign=abc".toList = none :=
  ⟨annInfo "10.0.0.1".toList "umich".toList (10 ^ 11), _, _,
    ⟨rfl, rfl, rfl, rfl, by decide, rfl, by decide, by decide, by decide⟩, by decide, rfl,
    ⟨_, List.mem_singleton.2 rfl, rfl⟩, rfl⟩

end Cosign
