import Cosign.Daemon.Transfer
import Cosign.Daemon.Sweeps
/-!
# What an event does to one cookie

`step_cases` says which of three an event is: a `LOGIN`, another command, or
a sweep. `fLogin_get` and `otherOp_get` are what the first two do to the file
of one cookie.
-/

namespace Cosign

open Lib

/-- The line is a `LOGIN`. -/
def IsLogin (line : Str) : Prop := ∃ word, (acavParse line).head? = some word ∧ findCommand word = some .login

theorem command_login {cfg : Config} {ses : Session} {env : Env} {line : Str} (h : IsLogin line) :
    command cfg ses env line = fLogin cfg ses env (acavParse line) := by
  obtain ⟨word, hw, hc⟩ := h
  unfold command
  split
  · rename_i hnil; rw [hnil] at hw; cases hw
  · rename_i w ws hcons
    rw [hcons] at hw
    cases hw
    rw [hc, hcons]
    rfl

theorem asks_command {cfg : Config} {ses : Session} {env : Env} {line : Str} (h : ¬ IsLogin line) :
    Prog.Asks (OtherOp cfg) (command cfg ses env line) := by
  unfold command
  split
  · trivial
  · rename_i w ws hcons
    split
    · trivial
    · rename_i c hc
      refine asks_handle cfg ses env _ fun hl => h ⟨w, by rw [hcons]; rfl, by rw [hc, hl]⟩

theorem step_cases {cfg : Config} {s t : Store} {ev : Event} {out : Outcome} (h : step cfg s ev = some (out, t)) :
    (∃ ses env line d, ev = .command ses env line ∧ out = .answered d ∧ IsLogin line ∧
      Prog.run exec (fLogin cfg ses env (acavParse line)) s = some (d, t)) ∨
    (∃ ses env line d, ev = .command ses env line ∧ out = .answered d ∧ ¬ IsLogin line ∧
      Prog.run exec (command cfg ses env line) s = some (d, t)) ∨
    ∃ now ls r, ev = .sweep now ls ∧ out = .swept r.isSome ∧ Prog.run exec (sweep cfg now ls) s = some (r, t) := by
  cases ev with
  | command ses env line =>
    obtain ⟨⟨d, u⟩, hrun, he⟩ := Option.map_eq_some_iff.1 h
    cases he
    by_cases hl : IsLogin line
    · exact .inl ⟨ses, env, line, d, rfl, rfl, hl, by rw [← command_login hl]; exact hrun⟩
    · exact .inr (.inl ⟨ses, env, line, d, rfl, rfl, hl, hrun⟩)
  | sweep now ls =>
    obtain ⟨⟨r, u⟩, hrun, he⟩ := Option.map_eq_some_iff.1 h
    cases he
    exact .inr (.inr ⟨now, ls, r, rfl, rfl, hrun⟩)

/-! ## `LOGIN` and one cookie -/

/-- Cookie files and ticket files never coincide. -/
theorem resolve_ne_krbpath {cfg : Config} {c path k : Str} {n : Nat}
    (hpath : mkcookiepath none cfg.hashlen c n = some path) (hk : '=' ∉ basename k) : resolve path ≠ resolve k := by
  intro he
  refine hk ?_
  rw [← basename_resolve k, ← he, basename_resolve, (mkcookiepath_spec hpath).1]
  exact (mkcookiepath_spec hpath).2.1

/-- The ticket's transfer ends with a wrong last line, and the file is the one
the request's cookie word names by then. -/
def Unlinks (env : Env) (line path : Str) : Prop :=
  (∃ l, env.lines.head? = some l ∧ l ≠ ".".toList) ∧
    resolve ((env.overwritten.getD (acavParse line)).getD 1 []) = resolve path

/-- A `LOGIN` leaves a cookie's file as it was, publishes it, or takes away the
file it finds under the request's name. -/
theorem fLogin_get {cfg : Config} {ses : Session} {env : Env} {line : Str} {s t : Store} {d : Done} {c path : Str}
    (hpath : mkcookiepath none cfg.hashlen c maxPathLen = some path)
    (h : Prog.run exec (fLogin cfg ses env (acavParse line)) s = some (d, t)) :
    t.get path = s.get path ∨
      (∃ a rc ci text already, Publishes cfg ses env (acavParse line) s a path rc ci text already ∧ a.cookie = c ∧
        t.get path = some ⟨text, false, env.now⟩) ∨
      (Unlinks env line path ∧ t.get path = none) := by
  rcases fLogin_cases h with ⟨rfl, -⟩ | ⟨a, path', rc, ci, text, already, hp, hrun⟩
  · exact .inl rfl
  have hpub : (published env s path' text).get path = s.get path ∨
      (a.cookie = c ∧ path' = path ∧ (published env s path' text).get path = some ⟨text, false, env.now⟩) := by
    by_cases he : resolve path = resolve path'
    · have hc := resolve_inj hpath hp.file he
      have hpp : path' = path := by
        have := hp.file
        rw [← hc, hpath] at this
        exact (Option.some.inj this).symm
      subst hpp
      exact .inr ⟨hc.symm, rfl, Store.put_get ..⟩
    · exact .inl (Store.put_get_ne s he _)
  have hkeep : t.get path = (published env s path' text).get path ∨
      (Unlinks env line path ∧ t.get path = none) := by
    by_cases hk : ∃ k, a.krbpath = some k ∧ already = false
    · obtain ⟨k, hk, rfl⟩ := hk
      rw [loginAnswer_ticket hk] at hrun
      have hne := resolve_ne_krbpath hpath ((hp.clean (acavParse_words line)).krbpath k hk).2.1
      rcases loginReceive_cases hrun with ⟨-, hst, -⟩ | ⟨l, u, hl, harr, hu, -, rfl⟩ | ⟨-, hst, -⟩
      · exact .inl (hst path hne)
      · rw [unlink_get, unlink_get, if_neg hne, hu path hne]
        split
        · rename_i he; exact .inr ⟨⟨⟨l, harr.last, hl⟩, he.symm⟩, rfl⟩
        · exact .inl rfl
      · exact .inl (hst path hne)
    · exact .inl (by rw [(loginAnswer_stored hk hrun).1])
  rcases hkeep with hkeep | hkeep
  · rcases hpub with hpub | ⟨hc, rfl, hpub⟩
    · exact .inl (hkeep.trans hpub)
    · exact .inr (.inl ⟨a, rc, ci, text, already, hp, hc, hkeep.trans hpub⟩)
  · exact .inr (.inr hkeep)

/-! ## Other commands and one cookie -/

/-- No name is a login cookie's and a service cookie's. -/
theorem login_not_service {c : Str} (h : hasPrefix "cosign=".toList c) : ¬ hasPrefix "cosign-".toList c := by
  intro h'
  have h1 : "cosign=".toList <+: c := List.isPrefixOf_iff_prefix.1 h
  have h2 : "cosign-".toList <+: c := List.isPrefixOf_iff_prefix.1 h'
  have he := (List.prefix_of_prefix_length_le h1 h2 (by decide)).eq_of_length (by decide)
  exact absurd he (by decide)

/-- The same text, and the mark if it was there. -/
def Kept (f g : File) : Prop := g.text = f.text ∧ (f.isgid = true → g.isgid = true)

theorem Kept.refl (f : File) : Kept f f := ⟨rfl, id⟩

theorem Kept.trans {f g k : File} (h : Kept f g) (h' : Kept g k) : Kept f k :=
  ⟨h'.1.trans h.1, fun hf => h'.2 (h.2 hf)⟩

/-- What is left of a file when one that is there is only marked or touched. -/
theorem put_kept {s : Store} {p path : Str} {f f' g : File} (hf : s.get path = some f) (hp : s.get p = some f')
    (hk : Kept f' g) : ∃ k, (s.put p (some g)).get path = some k ∧ Kept f k := by
  by_cases he : resolve path = resolve p
  · have hsame : ∀ u : Store, u.get path = u.get p := fun u => by simp only [Store.get, he]
    rw [hsame, hp] at hf
    cases hf
    exact ⟨g, by rw [hsame, Store.put_get], hk⟩
  · exact ⟨f, by rw [Store.put_get_ne _ he, hf], Kept.refl f⟩

/-- Commands other than `LOGIN` keep the text and the mark of a cookie that is
not a service cookie. -/
theorem otherOp_kept {cfg : Config} {o : FsOp} (ho : OtherOp cfg o) {s : Store} {c path : Str} {f : File}
    (hpath : mkcookiepath none cfg.hashlen c maxPathLen = some path) (hc : ¬ hasPrefix "cosign-".toList c)
    (hf : s.get path = some f) : ∃ g, (exec o s).2.get path = some g ∧ Kept f g := by
  cases ho with
  | read p => exact ⟨f, hf, Kept.refl f⟩
  | utime p t =>
    simp only [exec]
    split
    · exact ⟨f, hf, Kept.refl f⟩
    · rename_i f' hp; exact put_kept hf hp ⟨rfl, id⟩
  | chmod p =>
    simp only [exec]
    split
    · exact ⟨f, hf, Kept.refl f⟩
    · rename_i f' hp; exact put_kept hf hp ⟨rfl, fun _ => rfl⟩
  | @link service p login now hp =>
    simp only [exec]
    split
    · exact ⟨f, hf, Kept.refl f⟩
    · rename_i hnone
      have hne : resolve path ≠ resolve p := by
        intro he
        have : s.get path = s.get p := by simp only [Store.get, he]
        rw [hf, hnone] at this
        cases this
      split
      · exact ⟨f, by rw [Store.put_get_ne _ hne, hf], Kept.refl f⟩
      · exact ⟨f, hf, Kept.refl f⟩
  | @move service rcookie p q h1 h2 h3 h4 =>
    have hne : ∀ d x, hasPrefix "cosign-".toList d → mkcookiepath none cfg.hashlen d maxPathLen = some x →
        resolve path ≠ resolve x := fun d x hd hx he => hc (resolve_inj hpath hx he ▸ hd)
    refine ⟨f, ?_, Kept.refl f⟩
    rw [exec_frame _ s, hf]
    simp [FsOp.targets, hne _ _ h1 h3, hne _ _ h2 h4]

theorem other_kept {cfg : Config} {α : Type} {p : Handler α} (hp : Prog.Asks (OtherOp cfg) p) {s t : Store} {a : α}
    (h : Prog.run exec p s = some (a, t)) {c path : Str} {f : File}
    (hpath : mkcookiepath none cfg.hashlen c maxPathLen = some path) (hc : ¬ hasPrefix "cosign-".toList c)
    (hf : s.get path = some f) : ∃ g, t.get path = some g ∧ Kept f g := by
  refine hp.inv (fun u => ∃ g, u.get path = some g ∧ Kept f g) ?_ ⟨f, hf, Kept.refl f⟩ h
  rintro o u ho ⟨g, hg, hfg⟩
  obtain ⟨k, hk, hgk⟩ := otherOp_kept ho hpath hc hg
  exact ⟨k, hk, hfg.trans hgk⟩

end Cosign
