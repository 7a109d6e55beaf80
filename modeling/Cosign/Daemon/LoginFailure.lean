import Cosign.Daemon.Transfer
import Cosign.Daemon.Sweeps
/-!
# `LOGIN` that fails

A `LOGIN` that stops before its record is published changes nothing. After
that the record stays, whatever becomes of the ticket: only a wrong last line
takes a cookie back, and it unlinks the name the client sent, which is the
cookie's file where no hash directory comes before it.
-/

namespace Cosign

open Lib

/-- The request's cookie has the content and state it had, and its new ticket
path is empty. -/
def LoginUndone (cfg : Config) (env : Env) (av : List Str) (s t : Store) : Prop :=
  ∀ a path, loginArgs cfg env av = .args a → mkcookiepath none cfg.hashlen a.cookie maxPathLen = some path →
    (t.get path).map (fun f => (f.text, f.isgid)) = (s.get path).map (fun f => (f.text, f.isgid)) ∧
    ∀ k, a.krbpath = some k → s.get k = none → t.get k = none

/-- None of the replies that say a login is stored. -/
def Done.Failed (d : Done) : Prop := ¬ d.answers 200 ∧ ¬ d.answers 201 ∧ ¬ d.answers 202

/-- A record published before its ticket is followed by the whole ticket, or
it is new and the wrong last line takes it back: the word then read as the
cookie's name must name its file. -/
def TransferSafe (cfg : Config) (ses : Session) (env : Env) (av : List Str) (s : Store) : Prop :=
  ∀ a path rc ci text k, Publishes cfg ses env av s a path rc ci text false → a.krbpath = some k →
    Arrives env s k ".".toList ∨
      rc ≠ 0 ∧ (∃ line, line ≠ ".".toList ∧ Arrives env s k line) ∧
        resolve ((env.overwritten.getD av).getD 1 []) = resolve path

/-! ## The record that is replaced -/

/-- An extended record never reads as the one it replaces. -/
theorem Publishes.text_ne {cfg : Config} {ses : Session} {env : Env} {av : List Str} {s : Store} {a : LoginArgs}
    {path : Str} {ci : Cinfo} {text : Str} {already : Bool}
    (h : Publishes cfg ses env av s a path 0 ci text already) (hav : ∀ w ∈ av, IsWord w) {f : File}
    (hf : s.get path = some f) : f.text ≠ text := by
  rintro rfl
  obtain ⟨htext, -, -, -, hnew⟩ := loginRecord_full h.record
  have hread := h.read
  simp only [Store.opened, Store.cookie, hf] at hread
  split at hread
  · simp at hread
  · obtain ⟨text, g, m⟩ := f
    dsimp only at htext
    have hw := h.written hav
    subst htext
    have hci := recordText_read hw hread
    obtain ⟨-, hne⟩ := hnew (by decide)
    refine hne ⟨congrArg Cinfo.ipaddrCur hci, ?_⟩
    have hrealm : acavParse ci.realm = loginFactors true ci a := by
      have := congrArg Cinfo.realm hci
      rw [this]
      exact acavParse_unwords hw.factors
    simpa [loginFactors] using hrealm

theorem Publishes.krbpath_ne {cfg : Config} {ses : Session} {env : Env} {av : List Str} {s : Store} {a : LoginArgs}
    {path : Str} {rc : Int} {ci : Cinfo} {text : Str} {already : Bool}
    (h : Publishes cfg ses env av s a path rc ci text already) (hav : ∀ w ∈ av, IsWord w) {k : Str}
    (hk : a.krbpath = some k) : resolve path ≠ resolve k := by
  intro he
  have hb : basename k = basename path := by rw [← basename_resolve k, ← basename_resolve path, he]
  have hp := mkcookiepath_spec h.file
  refine ((h.clean hav).krbpath k hk).2.1 ?_
  rw [hb, hp.1]
  exact hp.2.1

/-! ## Undone or not -/

theorem published_get (env : Env) (s : Store) (path text : Str) :
    (published env s path text).get path = some ⟨text, false, env.now⟩ := Store.put_get ..

/-- The ticket's path is not the cookie's, so the ticket arrives as it would
have before the record. -/
theorem arrives_published {env : Env} {s : Store} {path text k line : Str} (hk : resolve path ≠ resolve k) :
    Arrives env (published env s path text) k line ↔ Arrives env s k line := by
  have hget : (published env s path text).get k = s.get k := Store.put_get_ne s hk.symm _
  constructor <;> rintro ⟨⟨h1, h2, h3⟩, hdata, hclosed, hlast⟩
  · exact ⟨⟨h1, hget ▸ h2, h3⟩, hdata, hclosed, hlast⟩
  · exact ⟨⟨h1, hget.trans h2, h3⟩, hdata, hclosed, hlast⟩

/-- Where the ticket does not arrive whole, what is left of the cookie. -/
theorem receive_undone {ses : Session} {env : Env} {av : List Str} {s t : Store} {d : Done} {path text k : Str}
    (hk : resolve path ≠ resolve k)
    (h : Prog.run exec (loginReceive ses env av k) (published env s path text) = some (d, t)) :
    (Arrives env s k ".".toList ∧ d.answers 201) ∨
      (d.Failed ∧ t.get k = none ∧ (∃ line, line ≠ ".".toList ∧ Arrives env s k line) ∧
        t.get path = if resolve ((env.overwritten.getD av).getD 1 []) = resolve path then none
          else some ⟨text, false, env.now⟩) ∨
      (d.Failed ∧ (∀ line, ¬ Arrives env s k line) ∧ t.get path = some ⟨text, false, env.now⟩) := by
  have hfailed : d.Broken → d.Failed := fun hb =>
    ⟨fun ha => absurd (hb.2 _ ha) (by decide), fun ha => absurd (hb.2 _ ha) (by decide),
      fun ha => absurd (hb.2 _ ha) (by decide)⟩
  rcases loginReceive_cases h with ⟨ha, -, rfl⟩ | ⟨line, u, hline, ha, hu, rfl, rfl⟩ | ⟨hn, ht, hb⟩
  · refine .inl ⟨(arrives_published hk).1 ha, .line 201 "LOGIN successful: Cookie & Ticket Stored.".toList, ?_, rfl⟩
    simp [transferDone]
  · refine .inr (.inl ⟨hfailed transferMismatch_broken, ?_, ⟨line, hline, (arrives_published hk).1 ha⟩, ?_⟩)
    · rw [unlink_get, unlink_get]
      split <;> simp
    · rw [unlink_get, unlink_get, if_neg hk, hu path hk, published_get]
      simp only [eq_comm]
  · exact .inr (.inr ⟨hfailed hb, fun line ha => hn line ((arrives_published hk).2 ha), by rw [ht path hk, published_get]⟩)

/-- A failed `LOGIN` changes nothing exactly where its transfer is safe. -/
theorem fLogin_undone_iff {cfg : Config} {ses : Session} {env : Env} {line : Str} {s t : Store} {d : Done}
    (h : Prog.run exec (fLogin cfg ses env (acavParse line)) s = some (d, t)) :
    (d.Failed → LoginUndone cfg env (acavParse line) s t) ↔ TransferSafe cfg ses env (acavParse line) s := by
  have hav := acavParse_words line
  constructor
  · intro hundone a path rc ci text k hp hk
    rw [fLogin_publishes hp, loginAnswer_ticket hk] at h
    -- an old record differs from the new one, so it cannot be what is left
    have hold : rc = 0 → (t.get path).map (fun f => (f.text, f.isgid)) =
        (s.get path).map (fun f => (f.text, f.isgid)) → (∀ f, t.get path = some f → f.text = text) → False := by
      rintro rfl hmarks hleft
      obtain ⟨f, hf⟩ := hp.exists_file
      rw [hf] at hmarks
      obtain ⟨g, hg, he⟩ := Option.map_eq_some_iff.1 hmarks
      exact hp.text_ne hav hf ((congrArg Prod.fst he).symm.trans (hleft g hg))
    rcases receive_undone (hp.krbpath_ne hav hk) h with ⟨ha, -⟩ | ⟨hfail, -, hline, hget⟩ | ⟨hfail, -, hget⟩
    · exact .inl ha
    · obtain ⟨hmarks, -⟩ := hundone hfail a path hp.args hp.file
      have hleft : ∀ f, t.get path = some f → f.text = text := by
        intro f hf
        rw [hget] at hf
        split at hf
        · cases hf
        · cases hf; rfl
      have hnew : rc ≠ 0 := fun hrc => hold hrc hmarks hleft
      refine .inr ⟨hnew, hline, ?_⟩
      by_contra hne
      rw [hget, if_neg hne, hp.absent hnew] at hmarks
      cases hmarks
    · obtain ⟨hmarks, -⟩ := hundone hfail a path hp.args hp.file
      have hleft : ∀ f, t.get path = some f → f.text = text := by
        intro f hf
        rw [hget] at hf
        cases hf; rfl
      rw [hget, hp.absent fun hrc => hold hrc (hget ▸ hmarks) (hget ▸ hleft)] at hmarks
      cases hmarks
  · intro hsafe hfail
    rcases fLogin_cases h with ⟨rfl, -⟩ | ⟨a, path, rc, ci, text, already, hp, hrun⟩
    · exact fun a path _ _ => ⟨rfl, fun _ _ => id⟩
    · by_cases hk : ∃ k, a.krbpath = some k ∧ already = false
      · obtain ⟨k, hk, rfl⟩ := hk
        rw [loginAnswer_ticket hk] at hrun
        have hcond := hsafe a path rc ci text k hp hk
        rcases receive_undone (hp.krbpath_ne hav hk) hrun with ⟨-, h201⟩ | ⟨-, htk, ⟨l, hl, ha⟩, hget⟩ | ⟨-, hn, -⟩
        · exact absurd h201 hfail.2.1
        · rcases hcond with hdot | ⟨hrc, -, hname⟩
          · exact absurd (Option.some.inj (ha.last.symm.trans hdot.last)) hl
          · intro a' path' hargs hfile
            rw [hp.args] at hargs
            cases hargs
            rw [hp.file] at hfile
            cases hfile
            refine ⟨by rw [hget, if_pos hname, hp.absent hrc], fun k' hk' _ => ?_⟩
            rw [hk] at hk'
            cases hk'
            exact htk
        · rcases hcond with hdot | ⟨-, ⟨l, -, ha⟩, -⟩
          · exact absurd hdot (hn _)
          · exact absurd ha (hn _)
      · obtain ⟨-, rfl⟩ := loginAnswer_stored hk hrun
        exact absurd (by simp [loginStored, Done.answers, Reply.code?]) hfail.1

/-! ## One request -/

/-- A new cookie with a ticket. -/
def ticketLogin : Str := "LOGIN cosign=abc 10.0.0.1 ann umich kerberos".toList

def ticketArgs : LoginArgs :=
  ⟨"cosign=abc".toList, "10.0.0.1".toList, "ann".toList, "umich".toList, [], some "tickets/AAAAAAAAAAAA".toList⟩

/-- No cookies, and a directory for tickets. -/
def noCookies : Store := { file := fun _ => none, dirs := fun d => d = "tickets".toList }

/-- The client goes away after the reply 300, and its cookie stays. -/
theorem fLogin_not_undone :
    ¬ ∀ (cfg : Config) (ses : Session) (env : Env) (line : Str) (s t : Store) (d : Done),
      Prog.run exec (fLogin cfg ses env (acavParse line)) s = some (d, t) → d.Failed →
        LoginUndone cfg env (acavParse line) s t := by
  intro h
  let s1 := published (.calm 200) noCookies "cosign=abc".toList (loginText 200 false .zero ticketArgs)
  have hrun : Prog.run exec (fLogin .default .cgi (.calm 200) (acavParse ticketLogin)) noCookies =
      some (transferBroken, (exec (.creat "tickets/AAAAAAAAAAAA".toList 200) s1).2) := rfl
  have hfail : transferBroken.Failed := by unfold Done.Failed; decide
  have hmarks := (h _ _ _ _ _ _ _ hrun hfail ticketArgs "cosign=abc".toList rfl rfl).1
  cases hmarks

/-- The client sends an empty ticket and a wrong last line. -/
def mismatchEnv : Env := { Env.calm 200 with size := some "0".toList, lines := ["x".toList] }

theorem mismatch_arrives : Arrives mismatchEnv noCookies "tickets/AAAAAAAAAAAA".toList "x".toList where
  made := ⟨rfl, rfl, by decide⟩
  data := ⟨"0".toList, rfl, trivial⟩
  closed := rfl
  last := rfl

/-- With no hash directories the wrong last line takes the cookie back. -/
theorem fLogin_undone_flat :
    ∃ d t, Prog.run exec (fLogin .default .cgi mismatchEnv (acavParse ticketLogin)) noCookies = some (d, t) ∧
      (d.Failed → LoginUndone .default mismatchEnv (acavParse ticketLogin) noCookies t) := by
  have hsome : (Prog.run exec (fLogin .default .cgi mismatchEnv (acavParse ticketLogin)) noCookies).isSome := rfl
  obtain ⟨⟨d, t⟩, h⟩ := Option.isSome_iff_exists.1 hsome
  refine ⟨d, t, h, (fLogin_undone_iff h).2 fun a path rc ci text k hp hk => .inr ?_⟩
  have hargs : loginArgs .default mismatchEnv (acavParse ticketLogin) = .args ticketArgs := rfl
  rw [hp.args] at hargs
  cases hargs
  cases hk
  have hfile : mkcookiepath none Config.default.hashlen ticketArgs.cookie maxPathLen = some "cosign=abc".toList := rfl
  rw [hp.file] at hfile
  cases hfile
  refine ⟨?_, ⟨"x".toList, by decide, mismatch_arrives⟩, rfl⟩
  rintro rfl
  obtain ⟨f, hf⟩ := hp.exists_file
  cases hf

end Cosign
