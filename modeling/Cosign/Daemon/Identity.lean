import Cosign.Daemon.Lineage
/-!
# Who a session belongs to

Every `LOGIN` that extends a record writes it anew from the fields it has
read. Who the session belongs to, where it began and its ticket come out the
same, the new factors come after the old ones, and a session that is logged
out is refused. The other commands only mark and touch the file.
-/

namespace Cosign

open Lib

/-- What may become of a session's record while its file exists. -/
structure Grows (ci ci' : Cinfo) : Prop where
  user : ci'.user = ci.user
  ipaddr : ci'.ipaddr = ci.ipaddr
  factors : acavParse ci.realm <+: acavParse ci'.realm
  first : (acavParse ci'.realm).head? = (acavParse ci.realm).head?
  ticket : ci.krbtkt ≠ [] → ci'.krbtkt = ci.krbtkt
  state : ci.state = 0 → ci'.state = 0

theorem Grows.refl (ci : Cinfo) : Grows ci ci := ⟨rfl, rfl, List.prefix_refl _, rfl, fun _ => rfl, id⟩

theorem Grows.trans {a b c : Cinfo} (h : Grows a b) (h' : Grows b c) : Grows a c where
  user := h'.user.trans h.user
  ipaddr := h'.ipaddr.trans h.ipaddr
  factors := h.factors.trans h'.factors
  first := h'.first.trans h.first
  ticket := fun ht => by
    have hb := h.ticket ht
    rw [h'.ticket (by rw [hb]; exact ht), hb]
  state := fun hs => h'.state (h.state hs)

/-- If the record can be read, it has grown from `ci`. -/
def GrownFrom (ci : Cinfo) (path : Str) (s : Store) : Prop := ∀ ci', s.cookie path = some (0, ci') → Grows ci ci'

/-! ## Marks and times -/

/-- A record whose file was only marked and touched. -/
theorem kept_grows {f g : File} (hk : Kept f g) {ci : Cinfo} (hg : parseCookie g = some (0, ci)) :
    ∃ ci₀, parseCookie f = some (0, ci₀) ∧ Grows ci₀ ci := by
  obtain ⟨ftext, fg, fm⟩ := f
  obtain ⟨gtext, gg, gm⟩ := g
  obtain ⟨htext, hmark⟩ := hk
  dsimp only at htext hmark
  subst htext
  have hback := parseCookie_ok_stat hg fg fm
  refine ⟨_, hback, ⟨rfl, rfl, List.prefix_refl _, rfl, fun _ => rfl, fun hs => ?_⟩⟩
  have hfg : fg = true := by
    cases fg with
    | true => rfl
    | false => simp [Cinfo.stat] at hs
  rw [(parseCookie_fstat hg (by decide)).1, hmark hfg, if_pos rfl]

theorem kept_grownFrom {ci : Cinfo} {path : Str} {s t : Store} (h : GrownFrom ci path s) {f g : File}
    (hf : s.get path = some f) (hg : t.get path = some g) (hk : Kept f g) : GrownFrom ci path t := by
  intro ci' hread
  obtain ⟨g', hg', hparse⟩ := cookie_file hread
  rw [hg] at hg'
  cases hg'
  obtain ⟨ci₀, hparse₀, hgrow⟩ := kept_grows hk hparse
  refine (h ci₀ ?_).trans hgrow
  rw [Store.cookie, hf]
  exact hparse₀

theorem service_grownFrom {ci : Cinfo} {path login : Str} {t : Store} (hb : t.binding path = some login) :
    GrownFrom ci path t := by
  intro ci' hread
  obtain ⟨f, hf, hl⟩ := Option.bind_eq_some_iff.1 hb
  obtain ⟨g, hg, hparse⟩ := cookie_file hread
  rw [hf] at hg
  cases hg
  exact absurd hparse (service_not_record hl ci')

/-! ## `LOGIN` -/

/-- The record a `LOGIN` writes over the one it has read. -/
theorem published_grows {cfg : Config} {ses : Session} {env : Env} {line : Str} {s : Store} {a : LoginArgs} {path : Str}
    {ci ci' : Cinfo} {text : Str} {already : Bool}
    (hp : Publishes cfg ses env (acavParse line) s a path 0 ci text already)
    (h : parseCookie ⟨text, false, env.now⟩ = some (0, ci')) : Grows ci ci' := by
  obtain ⟨rfl, -, -, -, hadd⟩ := loginRecord_full hp.record
  have hw := hp.written (acavParse_words line)
  obtain ⟨hstate, huser⟩ := hp.live rfl
  have hne := (hadd (by decide)).1
  simp only [loginText, decide_true, if_true] at h hw
  have hread := recordText_read hw h
  have hfactors : acavParse ci'.realm = loginFactors true ci a := by
    rw [hread]
    exact acavParse_unwords hw.factors
  have hpre : acavParse ci.realm <+: acavParse ci'.realm := by
    rw [hfactors, loginFactors, if_pos rfl]
    exact List.prefix_append _ _
  refine ⟨by rw [hread]; exact huser, by rw [hread], hpre, ?_, fun ht => ?_, fun hs => absurd hs hstate⟩
  · obtain ⟨w, ws, hcons⟩ := List.exists_cons_of_ne_nil hne
    obtain ⟨rest, hrest⟩ := hpre
    rw [← hrest, hcons]
    rfl
  · have hticket : (loginTicket true ci a.krbpath).1.getD [] = ci.krbtkt := by
      cases a.krbpath <;> simp [loginTicket, ht]
    rw [hread]
    exact hticket

/-! ## Runs -/

/-- One event while the file exists. -/
theorem grows_step {cfg : Config} {c path : Str} (hpath : mkcookiepath none cfg.hashlen c maxPathLen = some path)
    {x : Entry Store Event Outcome} (hstep : step cfg x.pre x.ev = some (x.res, x.post)) {ci : Cinfo}
    (hpre : (x.pre.get path).isSome) (hpost : (x.post.get path).isSome) (h : GrownFrom ci path x.pre) :
    GrownFrom ci path x.post := by
  obtain ⟨f, hf⟩ := Option.isSome_iff_exists.1 hpre
  have hkeep : x.post.get path = x.pre.get path → GrownFrom ci path x.post := fun hsame =>
    kept_grownFrom h hf (hsame.trans hf) (Kept.refl f)
  have hgone : ∀ {P : Prop}, x.post.get path = none → P := fun hn => by rw [hn] at hpost; cases hpost
  rcases step_cases hstep with ⟨ses, env, line, d, -, -, -, hrun⟩ | ⟨ses, env, line, d, -, -, hl, hrun⟩ |
    ⟨now, ls, r, -, -, hrun⟩
  · rcases fLogin_get hpath hrun with hsame | ⟨a, rc, ci₀, text, already, hp, -, hget⟩ | ⟨-, hn⟩
    · exact hkeep hsame
    · by_cases hrc : rc = 0
      · subst hrc
        obtain ⟨-, f', hf', hparse⟩ := opened_file hp.read
        intro ci' hread
        obtain ⟨g, hg, hparse'⟩ := cookie_file hread
        rw [hget] at hg
        cases hg
        refine (h ci₀ ?_).trans (published_grows hp hparse')
        rw [Store.cookie, hf']
        exact hparse
      · rw [hp.absent hrc] at hf
        cases hf
    · exact hgone hn
  · rcases command_kept hl hrun with hk | ⟨cookie, scpath, rcookie, npath, lpath, f', hm⟩
    · obtain ⟨g, hg, hkg⟩ := hk path f hf
      exact kept_grownFrom h hf hg hkg
    · obtain ⟨g, hg, hkg⟩ := touched_kept x.pre lpath env.now path f hf
      obtain ⟨cmd, rest, -, -, htarget⟩ := hm.line
      have hservice : ∃ login, parseService f'.text = some login := by
        cases htarget with
        | @rekey _ login _ _ _ hs =>
          have hb := (touched_binding x.pre lpath env.now scpath).trans (binding_of_service hs)
          rw [Store.binding, hm.moves.file] at hb
          exact ⟨login, hb⟩
      obtain ⟨login, hl⟩ := hservice
      have hget : x.post.get path = if resolve path = resolve npath then some f' else if resolve path = resolve scpath
          then none else (x.pre.touched lpath env.now).get path := by rw [hm.post, moved_get]
      split at hget
      · have hb : x.post.binding path = some login := by rw [Store.binding, hget]; exact hl
        exact service_grownFrom hb
      · split at hget
        · exact hgone hget
        · exact kept_grownFrom h hf (hget.trans hg) hkg
  · rcases swept_of_asks (asks_sweep cfg now ls) hrun path with hsame | hn
    · exact hkeep hsame
    · exact hgone hn

/-- While a login cookie's file exists, its record only grows. -/
theorem session_identity {cfg : Config} {c path : Str} (hpath : mkcookiepath none cfg.hashlen c maxPathLen = some path)
    {s t : Store} {tr : List (Entry Store Event Outcome)} (hrun : Run cfg s tr t)
    (hlives : ∀ y ∈ tr, (y.post.get path).isSome) {ci ci' : Cinfo} (hs : s.cookie path = some (0, ci))
    (ht : t.cookie path = some (0, ci')) : Grows ci ci' := by
  obtain ⟨f, hf, -⟩ := cookie_file hs
  have hbase : GrownFrom ci path s := by
    intro ci₀ hread
    rw [hs] at hread
    cases hread
    exact Grows.refl ci
  have hinv := hrun.inv (fun u => (u.get path).isSome ∧ GrownFrom ci path u) (fun y => (y.post.get path).isSome)
    (fun x hx hpost hpre => ⟨hpost, grows_step hpath hx hpre.1 hpost hpre.2⟩)
    ⟨by rw [hf]; rfl, hbase⟩ hlives
  exact hinv.1.2 ci' ht

/-! ## One session -/

/-- Ann adds a factor. -/
def annToken : Event := .command .cgi (.calm 110) "LOGIN cosign=abc 10.0.0.9 ann umich token".toList

def annInfo (ipCur : Str) (factors : Str) (m : Nat) : Cinfo :=
  ⟨2, 1, "10.0.0.1".toList, ipCur, "ann".toList, factors, "100".toList, [], m⟩

theorem annToken_grows :
    Grows (annInfo "10.0.0.1".toList "umich".toList 100) (annInfo "10.0.0.9".toList "umich token".toList 110) := by
  have hstep : ∃ out t, step .default annThere annToken = some (out, t) ∧ (t.get "cosign=abc".toList).isSome ∧
      t.cookie "cosign=abc".toList = some (0, annInfo "10.0.0.9".toList "umich token".toList 110) :=
    ⟨_, _, rfl, rfl, rfl⟩
  obtain ⟨out, t, hstep, hthere, hread⟩ := hstep
  have hpath : mkcookiepath none 0 "cosign=abc".toList maxPathLen = some "cosign=abc".toList := rfl
  refine session_identity hpath (.cons hstep (.nil _)) ?_ rfl hread
  intro y hy
  rw [List.mem_singleton] at hy
  subst hy
  exact hthere

end Cosign
