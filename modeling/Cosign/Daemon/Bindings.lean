import Cosign.Daemon.Access
import Cosign.Daemon.Time
/-!
# Which login cookie a service cookie belongs to

A service cookie's file names its login cookie. `REGISTER` and `RETR` make
such files, `REKEY` moves one to a new name, and a sweep takes them away.
-/

namespace Cosign

open Lib

/-- What `service_to_login` makes of a path. -/
def Store.binding (s : Store) (path : Str) : Option Str := (s.get path).bind fun f => parseService f.text

theorem binding_of_service {s : Store} {env : Env} {path login : Str} (h : s.service env path = some login) :
    s.binding path = some login := by
  unfold Store.service at h
  split at h
  · cases h
  · exact h

theorem binding_congr {s t : Store} {path : Str} (h : (t.get path).map (·.text) = (s.get path).map (·.text)) :
    t.binding path = s.binding path := by
  unfold Store.binding
  cases ht : t.get path <;> cases hs : s.get path <;> simp_all

/-- Every file holds the same text as before. -/
def SameTexts (s t : Store) : Prop := ∀ p, (t.get p).map (·.text) = (s.get p).map (·.text)

theorem SameTexts.refl (s : Store) : SameTexts s s := fun _ => rfl

theorem SameTexts.trans {s t u : Store} (h : SameTexts s t) (h' : SameTexts t u) : SameTexts s u :=
  fun p => (h' p).trans (h p)

theorem sameTexts_put {s : Store} {path : Str} {f g : File} (hf : s.get path = some f) (hg : g.text = f.text) :
    SameTexts s (s.put path (some g)) := by
  intro p
  by_cases he : resolve p = resolve path
  · have hsame : ∀ u : Store, u.get p = u.get path := fun u => by simp only [Store.get, he]
    rw [hsame, hsame, Store.put_get, hf]
    exact congrArg some hg
  · rw [Store.put_get_ne s he]

theorem sameTexts_touched (s : Store) (path : Str) (now : Nat) : SameTexts s (s.touched path now) := by
  unfold Store.touched
  cases hf : s.get path with
  | none => simp only [exec, hf]; exact SameTexts.refl s
  | some f => simp only [exec, hf]; exact sameTexts_put hf rfl

theorem sameTexts_refusal {cfg : Config} {env : Env} {s t : Store} {path : Str} (h : Refusal cfg env s path t) :
    SameTexts s t := by
  rcases h with rfl | ⟨f, hidle, rfl⟩
  · exact SameTexts.refl _
  · exact sameTexts_put hidle.file rfl

theorem moved_get {s : Store} {p q x : Str} {f : File} :
    (s.moved p q f).get x = if resolve x = resolve q then some f else if resolve x = resolve p then none else s.get x := by
  have hsame : ∀ (u : Store) {y z : Str}, resolve y = resolve z → u.get y = u.get z := fun u y z he => by
    simp only [Store.get, he]
  unfold Store.moved
  split
  · rename_i hq; rw [hsame _ hq, Store.put_get]
  · rename_i hq
    rw [Store.put_get_ne _ hq]
    split
    · rename_i hp; rw [hsame _ hp, Store.put_get]
    · rename_i hp; rw [Store.put_get_ne _ hp]

/-! ## `REKEY` -/

/-- The name a `REKEY` gives is the old one up to its `=`. -/
theorem rekeyCookie_name {cfg : Config} {env : Env} {cookie rcookie path : Str}
    (h : rekeyCookie cfg env cookie = .ok (rcookie, path)) :
    rcookie.takeWhile (· ≠ '=') = cookie.takeWhile (· ≠ '=') ∧
      mkcookiepath none cfg.hashlen rcookie maxPathLen = some path := by
  unfold rekeyCookie at h
  split at h
  · cases h
  split at h
  · cases h
  dsimp only at h
  split at h
  · cases h
  split at h
  · cases h
  rename_i hpath
  cases h
  refine ⟨?_, hpath⟩
  have hpos : ∀ c ∈ cookie.takeWhile (· ≠ '='), (fun x : Char => decide (x ≠ '=')) c = true := fun c hc =>
    List.all_eq_true.1 List.all_takeWhile c hc
  rw [List.takeWhile_append_of_pos hpos]
  simp

/-- How a `REKEY` that is answered 233 changes the store. -/
structure Rekeyed (cfg : Config) (s t : Store) (cookie rcookie path npath login : Str) : Prop where
  old : mkcookiepath none cfg.hashlen cookie maxPathLen = some path
  new : mkcookiepath none cfg.hashlen rcookie maxPathLen = some npath
  name : rcookie.takeWhile (· ≠ '=') = cookie.takeWhile (· ≠ '=')
  bound : s.binding path = some login
  gone : t.get path = none
  carried : t.binding npath = some login
  others : ∀ p, resolve p ≠ resolve path → resolve p ≠ resolve npath → t.binding p = s.binding p

theorem denied_not_233 {d : Done} (h : d.Denied) : ¬ d.answers 233 := fun ha => h.1 ⟨233, by decide, by decide, ha⟩

/-- A `REKEY` moves the binding to a new name, or changes none. -/
theorem rekey_conserves {cfg : Config} {ses : Session} {env : Env} {line cmd cookie : Str} {rest : List Str}
    {s t : Store} {d : Done} (hline : acavParse line = cmd :: cookie :: rest) (hcmd : findCommand cmd = some .rekey)
    (hfresh : ∀ rcookie npath, rekeyCookie cfg env cookie = .ok (rcookie, npath) → s.get npath = none)
    (hrun : Prog.run exec (command cfg ses env line) s = some (d, t)) :
    (∃ rcookie path npath login ci, Rekeyed cfg s t cookie rcookie path npath login ∧
        d.out = [checkReply ses 233 ci rcookie]) ∨
      (¬ d.answers 233 ∧ ∀ p, t.binding p = s.binding p) := by
  have hsame : ∀ {u : Store}, SameTexts s u → ∀ p, u.binding p = s.binding p := fun h p => binding_congr (h p)
  have h : Prog.run exec (fCheck cfg ses env (cmd :: cookie :: rest)) s = some (d, t) := by
    simpa only [command, hline, hcmd, handle] using hrun
  rcases fCheck_cases h with ⟨rfl, hd⟩ | ⟨cmd', cookie', rest', lpath, status, sc, hav, htarget, hlogin⟩
  · exact .inr ⟨denied_not_233 hd, fun _ => rfl⟩
  cases hav
  rcases checkLogin_cases hlogin with ⟨hd, hr⟩ | ⟨ci, -, ⟨hsc, rfl, rfl⟩ | ⟨-, hd, rfl⟩ | ⟨scpath, rcookie, npath, f, hsc, hr, rfl, rfl⟩⟩
  · exact .inr ⟨denied_not_233 hd, hsame (sameTexts_refusal hr)⟩
  · refine .inr ⟨?_, hsame (sameTexts_touched _ _ _)⟩
    have hst : status = 231 ∨ status = 232 := by
      cases htarget with
      | service => exact .inl rfl
      | login => exact .inr rfl
      | rekey => cases hsc
    unfold checkReply
    split <;> rcases hst with rfl | rfl <;> simp [Done.answers, Reply.code?]
  · exact .inr ⟨denied_not_233 hd, hsame (sameTexts_touched _ _ _)⟩
  · cases htarget with
    | service => cases hsc
    | login => cases hsc
    | @rekey path login hc _ hpath hservice _ _ =>
      cases hsc
      obtain ⟨hname, hnpath⟩ := rekeyCookie_name hr.named
      have htouch := sameTexts_touched s lpath env.now
      have hbound := binding_of_service hservice
      have hnone := hfresh _ _ hr.named
      have hne : resolve npath ≠ resolve scpath := by
        intro he
        have : s.get npath = s.get scpath := by simp only [Store.get, he]
        rw [this] at hnone
        rw [Store.binding, hnone] at hbound
        cases hbound
      refine .inl ⟨rcookie, scpath, npath, login, ci, ⟨hpath, hnpath, hname, hbound, ?_, ?_, fun p hp hq => ?_⟩, rfl⟩
      · rw [moved_get, if_neg (Ne.symm hne), if_pos rfl]
      · rw [← hbound, ← hsame htouch scpath]
        simp only [Store.binding, moved_get, if_true, hr.file]
      · rw [← hsame htouch p]
        simp only [Store.binding, moved_get, if_neg hp, if_neg hq]

/-! ## `REGISTER` -/

theorem touched_binding (s : Store) (lpath : Str) (now : Nat) (p : Str) :
    (s.touched lpath now).binding p = s.binding p := binding_congr (sameTexts_touched s lpath now p)

theorem bound_binding {s : Store} {spath login : Str} {now : Nat} (hl : '\n' ∉ login)
    (hlen : login.length < maxCookieLen) : (s.bound spath login now).binding spath = some login := by
  simp only [Store.binding, Store.bound, Store.put_get, Option.bind_some]
  exact parseService_fieldLine hl hlen

/-- The login cookie of a `REGISTER` is a word that has a file. -/
theorem Registers.login_fits {cfg : Config} {ses : Session} {env : Env} {line login lpath service spath : Str}
    {s : Store} {ci : Cinfo} (h : Registers cfg ses env (acavParse line) s login lpath service spath ci) :
    '\n' ∉ login ∧ login.length < maxCookieLen := by
  obtain ⟨cmd, ip, hav⟩ := h.args
  have hw : IsWord login := acavParse_words line login (by simp [hav])
  exact ⟨hw.no_newline, (mkcookiepath_spec h.lfile).2.2.2.1⟩

/-- A `REGISTER` that is answered 2xx leaves the service cookie with this login
cookie exactly if it was free, or had this login cookie already. -/
theorem register_binds_iff {cfg : Config} {ses : Session} {env : Env} {line cmd login ip service : Str}
    {s t : Store} {d : Done} (hline : acavParse line = [cmd, login, ip, service])
    (hcmd : findCommand cmd = some .register) (hrun : Prog.run exec (command cfg ses env line) s = some (d, t))
    (hok : d.ok) : ∃ spath, mkcookiepath none cfg.hashlen service maxPathLen = some spath ∧
      (t.binding spath = some login ↔ s.get spath = none ∨ s.binding spath = some login) := by
  have h : Prog.run exec (fRegister cfg ses env (acavParse line)) s = some (d, t) := by
    simpa only [command, hline, hcmd, handle] using hrun
  rcases fRegister_cases h with ⟨hd, -⟩ | ⟨login', lpath, service', spath, ci, hreg, hend⟩
  · exact absurd hok hd.1
  have hargs := hreg.args
  obtain ⟨cmd', ip', hav⟩ := hargs
  rw [hline] at hav
  cases hav
  refine ⟨spath, hreg.sfile, ?_⟩
  rcases hend with ⟨hd, -⟩ | ⟨-, rfl, hex⟩ | ⟨hnone, -, -, rfl, -⟩
  · exact absurd hok hd.1
  · constructor
    · exact .inr
    · rintro (hn | hb)
      · rw [hn] at hex; cases hex
      · exact hb
  · obtain ⟨hnl, hlen⟩ := hreg.login_fits
    exact ⟨fun _ => .inl hnone, fun _ => by rw [touched_binding, bound_binding hnl hlen]⟩

/-! ## Two users and one service cookie -/

/-- A store that events make out of one without files. -/
def Reachable (cfg : Config) (s : Store) : Prop := ∃ s₀ tr, (∀ p, s₀.get p = none) ∧ Run cfg s₀ tr s

def wikiCookie : Str := "cosign-wiki=xyz".toList

def userRecord (ip user : Str) : Str := recordText ip ip user ["umich".toList] 100 none

def annIn : Event := .command .cgi (.calm 100) "LOGIN cosign=abc 10.0.0.1 ann umich".toList
def eveIn : Event := .command .cgi (.calm 100) "LOGIN cosign=def 10.0.0.2 eve umich".toList
def annWiki : Event := .command .cgi (.calm 101) "REGISTER cosign=abc 10.0.0.1 cosign-wiki=xyz".toList

def annThere : Store := published (.calm 100) (.ofFiles []) "cosign=abc".toList (userRecord "10.0.0.1".toList "ann".toList)
def bothThere : Store := published (.calm 100) annThere "cosign=def".toList (userRecord "10.0.0.2".toList "eve".toList)
def annBound : Store := (bothThere.bound wikiCookie "cosign=abc".toList 101).touched "cosign=abc".toList 101

theorem annBound_reachable : Reachable .default annBound := by
  have h1 : step .default (.ofFiles []) annIn = some (.answered (loginStored .cgi
      ⟨"cosign=abc".toList, "10.0.0.1".toList, "ann".toList, "umich".toList, [], none⟩), annThere) := rfl
  have h2 : step .default annThere eveIn = some (.answered (loginStored .cgi
      ⟨"cosign=def".toList, "10.0.0.2".toList, "eve".toList, "umich".toList, [], none⟩), bothThere) := rfl
  have h3 : ∃ d, step .default bothThere annWiki = some (.answered d, annBound) := ⟨_, rfl⟩
  obtain ⟨d, h3⟩ := h3
  exact ⟨_, _, fun _ => rfl, .cons h1 (.cons h2 (.cons h3 (.nil _)))⟩

def eveWiki : Str := "REGISTER cosign=def 10.0.0.2 cosign-wiki=xyz".toList

theorem eveWiki_words :
    acavParse eveWiki = ["REGISTER".toList, "cosign=def".toList, "10.0.0.2".toList, wikiCookie] := by decide

def alreadyThere : Done := ⟨.ret 1, [.line 226 "REGISTER error: Cookie already exists".toList], [], false⟩

/-- Eve's request is answered 226 for a cookie that stays Ann's. -/
theorem register_answers_for_another : ¬ ∀ (cfg : Config) (ses : Session) (env : Env)
    (line cmd login ip service spath : Str) (s t : Store) (d : Done), Reachable cfg s →
    acavParse line = [cmd, login, ip, service] → findCommand cmd = some .register →
    Prog.run exec (command cfg ses env line) s = some (d, t) → d.ok →
    mkcookiepath none cfg.hashlen service maxPathLen = some spath → t.binding spath = some login := by
  intro h
  have hrun : Prog.run exec (command .default .cgi (.calm 102) eveWiki) annBound = some (alreadyThere, annBound) := rfl
  have hok : alreadyThere.ok := (ok_line ..).2 (by decide)
  have hbound := h .default .cgi (.calm 102) eveWiki _ _ _ _ wikiCookie annBound annBound alreadyThere annBound_reachable
    eveWiki_words (by decide) hrun hok rfl
  have hann : annBound.binding wikiCookie = some "cosign=abc".toList := rfl
  rw [hann] at hbound
  exact absurd hbound (by decide)

/-- Ann's own request leaves the cookie hers. -/
theorem register_binds_ann : ∃ (spath : Str) (t : Store), mkcookiepath none 0 wikiCookie maxPathLen = some spath ∧
    t.binding spath = some "cosign=abc".toList := by
  have hline : acavParse "REGISTER cosign=abc 10.0.0.1 cosign-wiki=xyz".toList =
      ["REGISTER".toList, "cosign=abc".toList, "10.0.0.1".toList, wikiCookie] := by decide
  have hrun : Prog.run exec (command .default .cgi (.calm 101) "REGISTER cosign=abc 10.0.0.1 cosign-wiki=xyz".toList)
      bothThere = some (⟨.ret 0, [.line 220 "REGISTER successful: Cookie Stored.".toList],
        ["REGISTER cosign=abc 10.0.0.1 cosign-wiki=xyz".toList], false⟩, annBound) := rfl
  obtain ⟨spath, hpath, hiff⟩ := register_binds_iff hline (by decide) hrun ((ok_line ..).2 (by decide))
  refine ⟨spath, annBound, hpath, hiff.2 (.inl ?_)⟩
  cases hpath
  rfl

/-! ## One service cookie renamed -/

def wikiRekey : Str := "REKEY cosign-wiki=xyz".toList

set_option maxRecDepth 20000 in
theorem wiki_rekeys : (∃ d t, Prog.run exec (command wikiConfig wikiSession (.calm 200) wikiRekey) wikiStore =
      some (d, t) ∧ d.answers 233) ∧
    ∃ rcookie npath, rekeyCookie wikiConfig (.calm 200) wikiCookie = .ok (rcookie, npath) ∧
      wikiStore.get npath = none :=
  ⟨⟨_, _, rfl, by decide⟩, ⟨_, _, rfl, rfl⟩⟩

theorem rekey_moves_wiki : ∃ rcookie path npath login t,
    Rekeyed wikiConfig wikiStore t wikiCookie rcookie path npath login := by
  obtain ⟨⟨d, t, hrun, h233⟩, rcookie, npath, hname, hfree⟩ := wiki_rekeys
  have hline : acavParse wikiRekey = ["REKEY".toList, wikiCookie] := by decide
  have hfresh : ∀ r n, rekeyCookie wikiConfig (.calm 200) wikiCookie = .ok (r, n) → wikiStore.get n = none := by
    intro r n h
    rw [hname] at h
    cases h
    exact hfree
  rcases rekey_conserves hline (by decide) hfresh hrun with ⟨r, path, n, login, ci, hr, -⟩ | ⟨hno, -⟩
  · exact ⟨r, path, n, login, t, hr⟩
  · exact absurd h233 hno

end Cosign
