import Cosign.Daemon.Outcomes
/-!
# Which host may use a service cookie

With `strict_checks` a host may use a service cookie if the first service
whose pattern matches the cookie's name belongs to it: the service's host
pattern matches the common name in its certificate, and what the service
substitutes that name into, if anything, is the cookie's name.
-/

namespace Cosign

open Lib

/-- `regexec` matches the whole subject. -/
def WholeMatch (re : Regex) (pattern subject : Str) : Prop :=
  ∃ rm, re.exec false pattern subject = .found rm ∧ rm 0 = (0, (subject.length : Int))

/-- The first service whose pattern matches the whole name. -/
def FirstService (re : Regex) (services : List ServiceList) (name : Str) (sl : ServiceList) : Prop :=
  ∃ before after, services = before ++ sl :: after ∧ WholeMatch re sl.cookie name ∧
    ∀ other ∈ before, ¬ WholeMatch re other.cookie name

/-- The host with the common name `cn` may use cookies of this name through
the service `sl`. -/
structure Entitled (cfg : Config) (cn name : Str) (sl : ServiceList) : Prop where
  first : FirstService cfg.regex cfg.servicelist name sl
  host : ∃ rm, cfg.regex.exec false sl.auth.hostname cn = .found rm ∧
    ∀ pattern, sl.cookiesub = some pattern → matchSubstitute 1024 2 rm cn pattern [] = some (some name)

/-- The name part of a cookie. -/
def cookieName (cookie : Str) : Str := cookie.takeWhile (· ≠ '=')

theorem serviceFind_first {re : Regex} {services : List ServiceList} {name : Str} {sl : ServiceList}
    (h : serviceFind re services name = some sl) : FirstService re services name sl := by
  induction services with
  | nil => cases h
  | cons cur rest ih =>
    have hskip : ¬ WholeMatch re cur.cookie name → serviceFind re rest name = some sl →
        FirstService re (cur :: rest) name sl := by
      intro hno hrest
      obtain ⟨before, after, rfl, hm, hbefore⟩ := ih hrest
      refine ⟨cur :: before, after, rfl, hm, fun other ho => ?_⟩
      rcases List.mem_cons.1 ho with rfl | ho
      · exact hno
      · exact hbefore other ho
    rw [serviceFind] at h
    split at h
    · rename_i rm hrm
      split at h
      · rename_i hwhole
        cases h
        exact ⟨[], rest, rfl, ⟨rm, hrm, hwhole⟩, by simp⟩
      · rename_i hwhole
        refine hskip ?_ h
        rintro ⟨rm', hrm', hw⟩
        rw [hrm] at hrm'
        cases hrm'
        exact hwhole hw
    · rename_i hne
      refine hskip ?_ h
      rintro ⟨rm, hrm, -⟩
      exact hne rm hrm

theorem serviceValid_entitled {cfg : Config} {ses : Session} {cookie : Str} {sl : ServiceList}
    (h : serviceValid cfg ses cookie = some (some sl)) : Entitled cfg ses.remoteCn (cookieName cookie) sl := by
  unfold serviceValid at h
  split at h
  · cases h
  dsimp only at h
  split at h
  · cases h
  rename_i sl' hfind
  have hfirst := serviceFind_first hfind
  split at h
  · rename_i rm hrm
    split at h
    · rename_i hsub
      cases h
      exact ⟨hfirst, rm, hrm, fun pattern hp => by rw [hsub] at hp; cases hp⟩
    · rename_i pattern hsub
      obtain ⟨r, hr, he⟩ := Option.map_eq_some_iff.1 h
      cases r with
      | none => cases he
      | some buf =>
        dsimp only at he
        split at he
        · rename_i hbuf
          cases he
          refine ⟨hfirst, rm, hrm, fun pattern' hp => ?_⟩
          rw [hsub] at hp
          cases hp
          rw [hr, ← hbuf]
          rfl
        · cases he
  · cases h

/-- A `CHECK`, `REKEY` or `RETR` of a service cookie that is answered 2xx
comes from a host entitled to cookies of that name, and a ticket is handed out
only through a service with `SL_TICKET`. -/
theorem service_cookie_access {cfg : Config} {ses : Session} {env : Env} {line cmd cookie : Str} {rest : List Str}
    {c : CommandName} {s t : Store} {d : Done} (hstrict : cfg.strictChecks = true)
    (hline : acavParse line = cmd :: cookie :: rest) (hcmd : findCommand cmd = some c)
    (hc : c = .check ∨ c = .rekey ∨ c = .retr) (hcookie : hasPrefix "cosign-".toList cookie)
    (hrun : Prog.run exec (command cfg ses env line) s = some (d, t)) (hok : d.ok) :
    ∃ sl, Entitled cfg ses.remoteCn (cookieName cookie) sl ∧
      (c = .retr → rest = ["tgt".toList] → sl.ticket = true) := by
  have hhandle : Prog.run exec (handle cfg ses env (cmd :: cookie :: rest) c) s = some (d, t) := by
    simpa only [command, hline, hcmd] using hrun
  have hcheck : c ≠ .retr → Prog.run exec (fCheck cfg ses env (cmd :: cookie :: rest)) s = some (d, t) →
      ∃ sl, Entitled cfg ses.remoteCn (cookieName cookie) sl ∧
        (c = .retr → rest = ["tgt".toList] → sl.ticket = true) := by
    intro hne h
    rcases fCheck_cases h with ⟨-, hd⟩ | ⟨cmd', cookie', rest', lpath, status, sc, hav, htarget, -⟩
    · exact absurd hok hd.1
    · cases hav
      have hsl : ∃ sl, serviceValid cfg ses cookie = some (some sl) := by
        cases htarget with
        | service _ hsl => exact hsl hstrict
        | rekey _ hsl => exact hsl hstrict
        | login hno => exact absurd hcookie hno
      obtain ⟨sl, hsl⟩ := hsl
      exact ⟨sl, serviceValid_entitled hsl, fun he => absurd he hne⟩
  rcases hc with rfl | rfl | rfl
  · exact hcheck (by decide) hhandle
  · exact hcheck (by decide) hhandle
  · rcases fRetr_cases hhandle with ⟨hd, -⟩ | ⟨cmd', cookie', kind, spath, login, lpath, sl, ci, hav, hr, hend⟩
    · exact absurd hok hd.1
    · cases hav
      refine ⟨sl, serviceValid_entitled hr.valid, fun _ hrest => ?_⟩
      cases hrest
      rcases hend with ⟨-, -, hk⟩ | ⟨hk, -⟩
      · exact (hk hok).2
      · exact absurd hk (by decide)

/-! ## One service -/

/-- Patterns without special characters. -/
def plainRegex : Regex := ⟨fun _ pattern subject =>
  if pattern = subject then .found fun _ => (0, subject.length) else .nomatch⟩

def wikiHost : AuthList :=
  { hostname := "wiki.umich.edu".toList, key := .service, proxy := false, proxies := [] }

def wikiService : ServiceList :=
  { cookie := "cosign-wiki".toList, cookiesub := none, ticket := true, reauth := false, factors := [], auth := wikiHost }

def wikiConfig : Config := { Config.default with servicelist := [wikiService], regex := plainRegex }

def wikiSession : Session := { al := wikiHost, remoteCn := "wiki.umich.edu".toList, protocol := 3, replicated := false, pusher := true }

/-- Ann's session, with one registered service cookie. -/
def wikiStore : Store := .ofFiles [
  ("cosign=abc".toList, ⟨recordText "10.0.0.1".toList "10.0.0.1".toList "ann".toList ["umich".toList] 100 none, false, 100⟩),
  ("cosign-wiki=xyz".toList, ⟨fieldLine 'l' "cosign=abc".toList, false, 100⟩)]

def wikiInfo : Cinfo :=
  ⟨2, 1, "10.0.0.1".toList, "10.0.0.1".toList, "ann".toList, "umich".toList, "100".toList, [], 100⟩

def wikiChecked : Done := ⟨.ret 0, [checkReply wikiSession 231 wikiInfo []], [], false⟩

theorem wiki_checks : Prog.run exec (command wikiConfig wikiSession (.calm 200) "CHECK cosign-wiki=xyz".toList) wikiStore =
    some (wikiChecked, wikiStore.touched "cosign=abc".toList 200) := rfl

theorem wiki_may_check : ∃ sl, Entitled wikiConfig wikiSession.remoteCn "cosign-wiki".toList sl := by
  have hline : acavParse "CHECK cosign-wiki=xyz".toList = ["CHECK".toList, "cosign-wiki=xyz".toList] := by decide
  have hcmd : findCommand "CHECK".toList = some .check := by decide
  obtain ⟨sl, h, -⟩ := service_cookie_access rfl hline hcmd (.inl rfl) (by decide) wiki_checks
    (checkReply_ok _ _ _ _ (by decide))
  exact ⟨sl, h⟩

end Cosign
