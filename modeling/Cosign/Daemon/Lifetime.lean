import Cosign.Daemon.Steps
import Cosign.Daemon.Time
/-!
# How long a session can live

The time a login cookie was made is the `t` line of its record, and `monster`
deletes a cookie `hard_timeout` after it. A `LOGIN` that extends a record
writes the line anew, from `ci_itime`: the file's modification time, which
every `CHECK`, `REGISTER` and `TIME` moves on. So the bound is kept as long as
each `LOGIN` that extends the cookie finds a file no younger than the cookie.
-/

namespace Cosign

open Lib

/-! ## The time in the record -/

/-- If the record can be read at all, it says that the cookie was made by `T0`. -/
def MadeBy (T0 : Nat) (s : Store) (path : Str) : Prop :=
  ∀ f, s.get path = some f → ∀ rc ci, parseCookie f = some (rc, ci) → rc = 0 ∧ atoi ci.ctime ≤ T0

theorem madeBy_kept {T0 : Nat} {s t : Store} {path : Str} {f g : File} (h : MadeBy T0 s path)
    (hf : s.get path = some f) (hg : t.get path = some g) (ht : g.text = f.text) : MadeBy T0 t path := by
  intro g' hg' rc ci hci
  rw [hg] at hg'
  cases hg'
  obtain ⟨text, isgid, mtime⟩ := g
  obtain ⟨text', isgid', mtime'⟩ := f
  subst ht
  have hstat := parseCookie_stat text isgid isgid' mtime mtime'
  rw [hci] at hstat
  obtain ⟨⟨rc', ci'⟩, hci', he⟩ := Option.map_eq_some_iff.1 hstat.symm
  obtain ⟨hrc, hct⟩ := h _ hf rc' ci' hci'
  have h1 : rc' = rc := congrArg Prod.fst he
  have h2 : ci'.ctime = ci.ctime := congrArg (fun x => x.2.ctime) he
  exact ⟨h1 ▸ hrc, h2 ▸ hct⟩

theorem dec_length {n : Nat} (h : n < 2 ^ 63) : (dec n).length < maxPathLen := by
  have h19 : (dec n).length ≤ 19 := (Nat.length_toDigits_le_iff (by decide) (by decide)).2 (by omega)
  have : 19 < maxPathLen := by decide
  omega

theorem madeBy_record {T0 : Nat} {s : Store} {path : Str} {ip ipCur user : Str} {factors : List Str} {t : Nat}
    {tkt : Option Str} {g : Bool} {m : Nat} (hw : Written ip ipCur user factors tkt)
    (hf : (unwords factors).length < maxPathLen) (ht : t ≤ T0) (hT : T0 < 2 ^ 63)
    (hs : s.get path = some ⟨recordText ip ipCur user factors t tkt, g, m⟩) : MadeBy T0 s path := by
  intro f hf' rc ci hci
  rw [hs] at hf'
  cases hf'
  rw [parseCookie_recordText hw hf (dec_length (by omega))] at hci
  split at hci
  · cases hci
    exact ⟨rfl, Int.le_trans (atoi_dec_le t) (by exact_mod_cast ht)⟩
  · cases hci

/-! ## Runs -/

/-- The event is a `LOGIN` at time `T0` that makes the cookie. -/
def MadeAt (path : Str) (T0 : Nat) (x : Entry Store Event Outcome) : Prop :=
  ∃ ses env line, x.ev = .command ses env line ∧ IsLogin line ∧ env.now = T0 ∧
    x.pre.get path = none ∧ (x.post.get path).isSome

/-- A `LOGIN` that publishes the cookie's record has factors that fit a line,
and the file it extends was not touched after `T0`. -/
def ExtendsUntouched (cfg : Config) (path : Str) (T0 : Nat) (x : Entry Store Event Outcome) : Prop :=
  ∀ ses env line a rc ci text already, x.ev = .command ses env line → IsLogin line →
    Publishes cfg ses env (acavParse line) x.pre a path rc ci text already →
      (unwords (loginFactors (rc = 0) ci a)).length < maxPathLen ∧ ∀ f, x.pre.get path = some f → f.mtime ≤ T0

/-- The directory a cookie's file is in. -/
def dirOf (path : Str) : Str := if '/' ∈ path then dirname path else ".".toList

/-- The sweep looks into the cookie's directory. -/
def Scanned (cfg : Config) (path : Str) : Prop := ∃ dirs, hashDirs cfg.hashlen = some dirs ∧ dirOf path ∈ dirs

/-- `readdir` lists every cookie of every directory the sweep looks into. -/
def ListsAll (cfg : Config) (ls : Str → Option (List Str)) (s : Store) : Prop :=
  ∀ c path, mkcookiepath none cfg.hashlen c maxPathLen = some path → (s.get path).isSome → Scanned cfg path →
    ∃ names, ls (dirOf path) = some names ∧ c ∈ names

theorem listed {cfg : Config} {ls : Str → Option (List Str)} {s : Store} {c path : Str}
    (hpath : mkcookiepath none cfg.hashlen c maxPathLen = some path) (hs : Scanned cfg path)
    (hl : ListsAll cfg ls s) (hex : (s.get path).isSome) : Listed cfg ls c := by
  obtain ⟨names, hls, hmem⟩ := hl c path hpath hex hs
  obtain ⟨dirs, hdirs, hdir⟩ := hs
  exact ⟨dirs, dirOf path, names, hdirs, hdir, hls, hmem⟩

section
variable {cfg : Config} {c path : Str} {T0 : Nat}

/-- A `LOGIN` that publishes the cookie says that it was made by `T0`. -/
theorem madeBy_published {ses : Session} {env : Env} {line : Str} {s t : Store} {a : LoginArgs} {rc : Int} {ci : Cinfo}
    {text : Str} {already : Bool} (hT : T0 < 2 ^ 63)
    (hp : Publishes cfg ses env (acavParse line) s a path rc ci text already)
    (hf : (unwords (loginFactors (rc = 0) ci a)).length < maxPathLen)
    (htime : if rc = 0 then ∀ f, s.get path = some f → f.mtime ≤ T0 else env.now ≤ T0)
    (ht : t.get path = some ⟨text, false, env.now⟩) : MadeBy T0 t path := by
  obtain ⟨rfl, -⟩ := loginRecord_full hp.record
  refine madeBy_record (hp.written (acavParse_words line)) hf ?_ hT ht
  by_cases hrc : rc = 0
  · subst hrc
    obtain ⟨f, hfile⟩ := hp.exists_file
    have hread := hp.read
    simp only [Store.opened, Store.cookie, hfile] at hread
    split at hread
    · cases hread
    · have := (parseCookie_fstat hread (by decide)).2
      simpa [this] using htime f hfile
  · simpa [hrc] using htime

/-- One event after the cookie was made. -/
theorem madeBy_step (hpath : mkcookiepath none cfg.hashlen c maxPathLen = some path)
    (hc : hasPrefix "cosign=".toList c) (hT : T0 < 2 ^ 63) {x : Entry Store Event Outcome}
    (hstep : step cfg x.pre x.ev = some (x.res, x.post)) (hx : ExtendsUntouched cfg path T0 x)
    (hpre : (x.pre.get path).isSome) (hpost : (x.post.get path).isSome) (h : MadeBy T0 x.pre path) :
    MadeBy T0 x.post path := by
  obtain ⟨f, hf⟩ := Option.isSome_iff_exists.1 hpre
  obtain ⟨g, hg⟩ := Option.isSome_iff_exists.1 hpost
  rcases step_cases hstep with ⟨ses, env, line, d, hev, -, hl, hrun⟩ | ⟨ses, env, line, d, hev, -, hl, hrun⟩ |
    ⟨now, ls, r, hev, -, hrun⟩
  · rcases fLogin_get hpath hrun with hsame | ⟨a, rc, ci, text, already, hp, -, hget⟩ | ⟨-, hnone⟩
    · exact madeBy_kept h hf (hsame.trans hf) rfl
    · obtain ⟨hfit, htime⟩ := hx ses env line a rc ci text already hev hl hp
      refine madeBy_published hT hp hfit ?_ hget
      split
      · exact htime
      · rename_i hrc
        rw [hp.absent hrc] at hf
        cases hf
    · rw [hnone] at hg; cases hg
  · have hno := login_not_service hc
    obtain ⟨g', hg', hk⟩ := other_kept (asks_command hl) hrun hpath hno hf
    exact madeBy_kept h hf hg' hk.1
  · rcases swept_of_asks (asks_sweep cfg now ls) hrun path with hsame | hnone
    · exact madeBy_kept h hf (hsame.trans hf) rfl
    · rw [hnone] at hg; cases hg

/-- The `LOGIN` that makes the cookie. -/
theorem madeBy_made (hpath : mkcookiepath none cfg.hashlen c maxPathLen = some path) (hT : T0 < 2 ^ 63)
    {x : Entry Store Event Outcome} (hstep : step cfg x.pre x.ev = some (x.res, x.post))
    (hx : ExtendsUntouched cfg path T0 x) (hmade : MadeAt path T0 x) : MadeBy T0 x.post path := by
  obtain ⟨ses, env, line, hev, hl, hnow, hnone, hsome⟩ := hmade
  obtain ⟨g, hg⟩ := Option.isSome_iff_exists.1 hsome
  have hrun : ∃ d, Prog.run exec (fLogin cfg ses env (acavParse line)) x.pre = some (d, x.post) := by
    rcases step_cases hstep with ⟨ses', env', line', d, hev', -, -, hrun⟩ | ⟨ses', env', line', d, hev', -, hl', -⟩ |
      ⟨now, ls, r, hev', -, -⟩
    · rw [hev] at hev'
      cases hev'
      exact ⟨d, hrun⟩
    · rw [hev] at hev'
      cases hev'
      exact absurd hl hl'
    · rw [hev] at hev'
      cases hev'
  obtain ⟨d, hrun⟩ := hrun
  rcases fLogin_get hpath hrun with hsame | ⟨a, rc, ci, text, already, hp, -, hget⟩ | ⟨-, hgone⟩
  · rw [hsame, hnone] at hg; cases hg
  · refine madeBy_published hT hp (hx ses env line a rc ci text already hev hl hp).1 ?_ hget
    split
    · intro f hf; rw [hnone] at hf; cases hf
    · exact Nat.le_of_eq hnow
  · rw [hgone] at hg; cases hg

/-- From the `LOGIN` that makes the cookie on, while it exists, its record
says that it was made by then. -/
theorem madeBy_run (hpath : mkcookiepath none cfg.hashlen c maxPathLen = some path)
    (hc : hasPrefix "cosign=".toList c) (hT : T0 < 2 ^ 63) {s t : Store} {x : Entry Store Event Outcome}
    {tr : List (Entry Store Event Outcome)} (hrun : Run cfg s (x :: tr) t) (hmade : MadeAt path T0 x)
    (hlives : ∀ y ∈ tr, (y.post.get path).isSome) (hcond : ∀ y ∈ x :: tr, ExtendsUntouched cfg path T0 y) :
    (t.get path).isSome ∧ MadeBy T0 t path := by
  cases hrun with
  | cons hstep htail =>
    have hbase := madeBy_made hpath hT hstep (hcond _ List.mem_cons_self) hmade
    obtain ⟨-, -, -, -, -, -, -, hsome⟩ := hmade
    refine (htail.inv (fun u => (u.get path).isSome ∧ MadeBy T0 u path)
      (fun y => (y.post.get path).isSome ∧ ExtendsUntouched cfg path T0 y) ?_ ⟨hsome, hbase⟩ ?_).1
    · rintro y hy ⟨hpost, hcy⟩ ⟨hpre, hm⟩
      exact ⟨hpost, madeBy_step hpath hc hT hy hcy hpre hpost hm⟩
    · exact fun y hy => ⟨hlives y hy, hcond y (List.mem_cons_of_mem _ hy)⟩

/-- A cookie made at `T0` is gone after a sweep later than `T0` and the hard
timeout, if every `LOGIN` that extended it found it untouched. -/
theorem hard_timeout_deletes (hpath : mkcookiepath none cfg.hashlen c maxPathLen = some path)
    (hc : hasPrefix "cosign=".toList c) (hs : Scanned cfg path) (hT : T0 < 2 ^ 63) {s t u : Store}
    {x : Entry Store Event Outcome} {tr : List (Entry Store Event Outcome)} (hrun : Run cfg s (x :: tr) t)
    (hmade : MadeAt path T0 x) (hlives : ∀ y ∈ tr, (y.post.get path).isSome)
    (hcond : ∀ y ∈ x :: tr, ExtendsUntouched cfg path T0 y) {now : Nat} {ls : Str → Option (List Str)}
    (hls : ListsAll cfg ls t) (hnow : (now : Int) > T0 + cfg.hardTimeout)
    (hsweep : step cfg t (.sweep now ls) = some (.swept true, u)) : u.get path = none := by
  obtain ⟨hex, hm⟩ := madeBy_run hpath hc hT hrun hmade hlives hcond
  rcases step_cases hsweep with ⟨_, _, _, _, hev, -⟩ | ⟨_, _, _, _, hev, -⟩ | ⟨now', ls', r, hev, hout, hsw⟩
  · cases hev
  · cases hev
  · cases hev
    cases r with
    | none => cases hout
    | some report =>
      refine sweep_deletes hc hpath (listed hpath hs hls hex) ?_ hsw
      intro f hf rc ci hci
      obtain ⟨hrc, hct⟩ := hm f hf rc ci hci
      exact ⟨hrc, .inr (.inr (by omega))⟩

end

/-! ## One session -/

def annCookie : Str := "cosign=abc".toList

def annRecord (factors : List Str) (t : Nat) : Str :=
  recordText "10.0.0.1".toList "10.0.0.1".toList "ann".toList factors t none

/-- Ann logs in at 100. -/
def annLogin : Event := .command .cgi (.calm 100) "LOGIN cosign=abc 10.0.0.1 ann umich".toList

/-- A peer says that she was seen at 40000. -/
def annSeen : Event :=
  .command .cgi { Env.calm 40005 with lines := ["cosign=abc 40000 1".toList] } "TIME".toList

/-- She adds a factor at 40010. -/
def annFactor : Event := .command .cgi (.calm 40010) "LOGIN cosign=abc 10.0.0.1 ann umich token".toList

/-- A sweep of the one directory. -/
def lateSweep : Event := .sweep 43311 fun _ => some [annCookie]

def ann1 : Store := published (.calm 100) (.ofFiles []) annCookie (annRecord ["umich".toList] 100)
def ann2 : Store := ann1.put annCookie (some ⟨annRecord ["umich".toList] 100, false, 40000⟩)
def ann3 : Store := published (.calm 40010) ann2 annCookie (annRecord ["umich".toList, "token".toList] 40000)

theorem annLogin_made (out : Outcome) : MadeAt annCookie 100 ⟨.ofFiles [], annLogin, out, ann1⟩ :=
  ⟨_, _, _, rfl, ⟨"LOGIN".toList, by decide, by decide⟩, rfl, rfl, rfl⟩

theorem annCookie_scanned : Scanned .default annCookie := ⟨[".".toList], rfl, by decide⟩

/-- A listing of the one cookie is complete while it is the only one. -/
theorem annCookie_listed {s : Store} (h : ∀ p, resolve p ≠ annCookie → s.get p = none) :
    ListsAll .default (fun _ => some [annCookie]) s := by
  intro c path hpath hex _
  have hres : resolve path = annCookie := by
    by_contra hne
    rw [h path hne] at hex
    cases hex
  have hc : c = annCookie := by rw [← resolve_mkcookiepath hpath, hres]; decide
  exact ⟨[annCookie], rfl, by rw [hc]; decide⟩

theorem ann1_only (p : Str) (h : resolve p ≠ annCookie) : ann1.get p = none := Store.put_get_ne _ h _

theorem ann3_only (p : Str) (h : resolve p ≠ annCookie) : ann3.get p = none := by
  rw [ann3, published, Store.put_get_ne _ h, ann2, Store.put_get_ne _ h]
  exact ann1_only p h

theorem ann1_step : step .default (.ofFiles []) annLogin = some (.answered (loginStored .cgi
    ⟨annCookie, "10.0.0.1".toList, "ann".toList, "umich".toList, [], none⟩), ann1) := rfl

/-- Seen and extended, the session outlives the hard timeout. -/
theorem session_outlives_hard_timeout :
    ¬ ∀ (cfg : Config) (c path : Str) (T0 : Nat) (s t u : Store) (x : Entry Store Event Outcome)
      (tr : List (Entry Store Event Outcome)) (now : Nat) (ls : Str → Option (List Str)),
      mkcookiepath none cfg.hashlen c maxPathLen = some path → hasPrefix "cosign=".toList c → Scanned cfg path →
      T0 < 2 ^ 63 → Run cfg s (x :: tr) t → MadeAt path T0 x → (∀ y ∈ tr, (y.post.get path).isSome) →
      ListsAll cfg ls t → (now : Int) > T0 + cfg.hardTimeout →
      step cfg t (.sweep now ls) = some (.swept true, u) → u.get path = none := by
  intro h
  have h2 : step .default ann1 annSeen = some (.answered timeDone, ann2) := rfl
  have h3 : step .default ann2 annFactor = some (.answered (loginStored .cgi
      ⟨annCookie, "10.0.0.1".toList, "ann".toList, "umich".toList, ["token".toList], none⟩), ann3) := rfl
  have h4 : step .default ann3 lateSweep = some (.swept true, ann3) := rfl
  have hgone := h .default annCookie annCookie 100 _ ann3 ann3 _ _ 43311 _ rfl (by decide) annCookie_scanned (by decide)
    (.cons ann1_step (.cons h2 (.cons h3 (.nil _)))) (annLogin_made _)
    (by rintro y hy; simp only [List.mem_cons, List.not_mem_nil, or_false] at hy; rcases hy with rfl | rfl <;> rfl)
    (annCookie_listed ann3_only) (by decide) h4
  cases hgone

/-- She adds the factor at 140 already. -/
def annSoon : Event := .command .cgi (.calm 140) "LOGIN cosign=abc 10.0.0.1 ann umich token".toList

def ann4 : Store := published (.calm 140) ann1 annCookie (annRecord ["umich".toList, "token".toList] 100)
def ann5 : Store := ann4.put annCookie (some ⟨annRecord ["umich".toList, "token".toList] 100, false, 40000⟩)

theorem ann5_only (p : Str) (h : resolve p ≠ annCookie) : ann5.get p = none := by
  rw [ann5, Store.put_get_ne _ h, ann4, published, Store.put_get_ne _ h]
  exact ann1_only p h

theorem annLogin_untouched (out : Outcome) (t : Store) :
    ExtendsUntouched .default annCookie 100 ⟨.ofFiles [], annLogin, out, t⟩ := by
  intro ses env line a rc ci text already hev _ hp
  have hnone : ∀ f, (Store.ofFiles []).get annCookie ≠ some f := by intro f hf; cases hf
  refine ⟨?_, fun f hf => absurd hf (hnone f)⟩
  have hrc : rc ≠ 0 := by
    rintro rfl
    obtain ⟨f, hf⟩ := hp.exists_file
    exact hnone f hf
  cases hev
  have ha : a = ⟨annCookie, "10.0.0.1".toList, "ann".toList, "umich".toList, [], none⟩ :=
    (ArgsAns.args.inj (hp.args.symm.trans rfl))
  rw [loginFactors, decide_eq_false hrc, if_neg Bool.false_ne_true, ha]
  decide

theorem annSoon_untouched (out : Outcome) (t : Store) :
    ExtendsUntouched .default annCookie 100 ⟨ann1, annSoon, out, t⟩ := by
  intro ses env line a rc ci text already hev _ hp
  cases hev
  have ha : a = ⟨annCookie, "10.0.0.1".toList, "ann".toList, "umich".toList, ["token".toList], none⟩ :=
    (ArgsAns.args.inj (hp.args.symm.trans rfl))
  obtain ⟨rfl, hrealm⟩ : rc = 0 ∧ ci.realm = "umich".toList := by
    have hread : (ann1.opened (.calm 140) annCookie).map (fun x => (x.1, x.2.realm)) = some (0, "umich".toList) := rfl
    rw [show ann1.opened (.calm 140) annCookie = some (rc, ci) from hp.read] at hread
    exact Prod.mk.inj (Option.some.inj hread)
  refine ⟨?_, fun f hf => ?_⟩
  · rw [loginFactors, ha, hrealm]
    decide
  · cases hf
    exact Nat.le_refl 100

/-- Extended at once and seen much later, it is gone with the first sweep after
that time. -/
theorem session_ends_untouched : ∃ tr, Run .default (.ofFiles []) tr ann5 ∧ tr.map (·.ev) = [annLogin, annSoon, annSeen] ∧
    ∃ u, step .default ann5 lateSweep = some (.swept true, u) ∧ u.get annCookie = none := by
  have h2 : step .default ann1 annSoon = some (.answered (loginStored .cgi
      ⟨annCookie, "10.0.0.1".toList, "ann".toList, "umich".toList, ["token".toList], none⟩), ann4) := rfl
  have h3 : step .default ann4 annSeen = some (.answered timeDone, ann5) := rfl
  have hrun : Run .default (.ofFiles []) _ ann5 := .cons ann1_step (.cons h2 (.cons h3 (.nil _)))
  have hfin : (step .default ann5 lateSweep).map (fun x => match x.1 with | .swept b => b | _ => false) = some true :=
    rfl
  refine ⟨_, hrun, rfl, ?_⟩
  obtain ⟨⟨out, u⟩, hstep, hout⟩ := Option.map_eq_some_iff.1 hfin
  cases out with
  | answered d => cases hout
  | swept b =>
    cases hout
    refine ⟨u, hstep, hard_timeout_deletes (c := annCookie) rfl (by decide) annCookie_scanned (by decide) hrun
      (annLogin_made _) ?_ ?_ (annCookie_listed ann5_only) (by decide) hstep⟩
    · rw [List.forall_mem_cons, List.forall_mem_singleton]
      exact ⟨rfl, rfl⟩
    · rw [List.forall_mem_cons, List.forall_mem_cons, List.forall_mem_singleton]
      refine ⟨annLogin_untouched _ _, annSoon_untouched _ _, ?_⟩
      rintro ses env line a rc ci text already hev ⟨word, hw, hc⟩ -
      cases hev
      obtain rfl : word = "TIME".toList := Option.some.inj (hw.symm.trans rfl)
      exact absurd hc (by decide)

end Cosign
