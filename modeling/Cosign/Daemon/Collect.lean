import Cosign.Daemon.Access
import Cosign.Daemon.Bindings
import Cosign.Daemon.Lifetime
/-!
# What a sweep collects

A login cookie may go when its own entry is read or when one of its service
cookies' is, whichever `readdir` delivers first. Either way the sweep takes the
cookies that had to go when it started, their tickets and their service
cookies, and nothing else. This rests on two things `cosignd` takes care of: no
ticket is itself a login cookie, and every cookie is in a directory that the
sweep reads.
-/

namespace Cosign

open Lib

/-- The file of a login cookie. -/
def LoginFile (cfg : Config) (path : Str) : Prop :=
  ∃ c, hasPrefix "cosign=".toList c ∧ mkcookiepath none cfg.hashlen c maxPathLen = some path

/-- The file of a service cookie. -/
def ServiceFile (cfg : Config) (path : Str) : Prop :=
  ∃ c, hasPrefix "cosign-".toList c ∧ mkcookiepath none cfg.hashlen c maxPathLen = some path

/-- A login cookie that can be read and must go. -/
structure Expired (cfg : Config) (now : Nat) (s : Store) (path : Str) (ci : Cinfo) : Prop where
  file : LoginFile cfg path
  read : s.cookie path = some (0, ci)
  old : expired cfg now ci

/-- What a sweep that starts at `s` takes away. -/
inductive Collected (cfg : Config) (now : Nat) (s : Store) (p : Str) : Prop
  | login {path : Str} {ci : Cinfo} (h : Expired cfg now s path ci) (hp : resolve p = resolve path)
  | ticket {path : Str} {ci : Cinfo} (h : Expired cfg now s path ci) (hk : ci.krbtkt ≠ [])
      (hp : resolve p = resolve ci.krbtkt)
  | service {path login lpath : Str} (hs : ServiceFile cfg path) (hb : s.binding path = some login)
      (hl : mkcookiepath none cfg.hashlen login maxPathLen = some lpath)
      (hg : s.get lpath = none ∨ ∃ ci, Expired cfg now s lpath ci) (hp : resolve p = resolve path)

/-- The sweep from `s` to `t` took what it had to and no more, and left no
service cookie without its login cookie. -/
structure Collects (cfg : Config) (now : Nat) (s t : Store) : Prop where
  gone : ∀ p, Collected cfg now s p → t.get p = none
  kept : ∀ p, ¬ Collected cfg now s p → t.get p = s.get p
  bound : ∀ path login lpath, ServiceFile cfg path → t.binding path = some login →
    mkcookiepath none cfg.hashlen login maxPathLen = some lpath → (t.get lpath).isSome

/-- Every service cookie that can be read names a login cookie. -/
def LoginsWellFormed (cfg : Config) (s : Store) : Prop :=
  ∀ path login, ServiceFile cfg path → s.binding path = some login → hasPrefix "cosign=".toList login ∧
    ∃ lpath, mkcookiepath none cfg.hashlen login maxPathLen = some lpath

/-- No ticket of a cookie that must go is a login cookie. -/
def TicketsApart (cfg : Config) (now : Nat) (s : Store) : Prop :=
  ∀ path ci, Expired cfg now s path ci → ci.krbtkt ≠ [] → ∀ q, LoginFile cfg q → resolve q ≠ resolve ci.krbtkt

/-- Every cookie is in a directory that the sweep reads. -/
def InHashDirs (cfg : Config) (s : Store) : Prop :=
  ∀ c path, mkcookiepath none cfg.hashlen c maxPathLen = some path → (s.get path).isSome → Scanned cfg path

/-! ## One step of the sweep -/

theorem cookie_missing {s : Store} {path : Str} {ci : Cinfo} (h : s.cookie path = some (1, ci)) :
    s.get path = none := by
  unfold Store.cookie at h
  split at h
  · assumption
  · rcases parseCookie_codes h with h1 | h1 <;> cases h1

/-- No login cookie's file is a service cookie's. -/
theorem login_ne_service {cfg : Config} {p q : Str} (hp : LoginFile cfg p) (hq : ServiceFile cfg q) :
    resolve p ≠ resolve q := by
  obtain ⟨c, hc, hcp⟩ := hp
  obtain ⟨d, hd, hdq⟩ := hq
  intro he
  rw [resolve_inj hcp hdq he] at hc
  exact login_not_service hc hd

theorem eaten_get (s : Store) (path : Str) (ci : Cinfo) (q : Str) :
    (eaten s path ci).get q =
      if resolve q = resolve path ∨ (ci.krbtkt ≠ [] ∧ resolve q = resolve ci.krbtkt) then none else s.get q := by
  rw [eaten, unlink_get]
  by_cases hq : resolve q = resolve path
  · simp [hq]
  by_cases hk : ci.krbtkt = []
  · simp [hq, hk]
  · simp only [hk, ne_eq, not_false_eq_true, if_true, hq, if_false, false_or, true_and]
    exact unlink_get ..

/-- What holds of the store while the sweep that started at `s` goes on. A
ticket goes with its cookie, so a cookie that is gone has left none behind. -/
structure Collecting (cfg : Config) (now : Nat) (s u : Store) : Prop where
  swept : Swept s u
  only : ∀ p, u.get p = none → s.get p = none ∨ Collected cfg now s p
  tickets : ∀ path ci, Expired cfg now s path ci → u.get path = none → ci.krbtkt ≠ [] → u.get ci.krbtkt = none

theorem Collecting.refl (cfg : Config) (now : Nat) (s : Store) : Collecting cfg now s s where
  swept := Swept.refl s
  only := fun _ h => .inl h
  tickets := by
    intro path ci h hgone
    obtain ⟨f, hf, -⟩ := cookie_file h.read
    rw [hgone] at hf
    cases hf

section
variable {cfg : Config} {now : Nat} {s u v : Store}

/-- A login cookie that is still there reads as it did. -/
theorem Collecting.cookie (h : Collecting cfg now s u) {path : Str} (hf : (u.get path).isSome) :
    u.cookie path = s.cookie path := by
  rcases h.swept path with h1 | h1
  · exact cookie_congr h1
  · rw [h1] at hf; cases hf

/-- `eat_cookie` finds the cookie gone only if it was absent or had to go, and
then it is gone. -/
theorem Collecting.eat (h : Collecting cfg now s u) (htkt : TicketsApart cfg now s) {path : Str}
    (hfile : LoginFile cfg path) {r : Eaten} (hrun : Prog.run exec (eatCookie cfg now path) u = some (r, v)) :
    Collecting cfg now s v ∧ (r = .gone → s.get path = none ∨ ∃ ci, Expired cfg now s path ci) := by
  rw [run_eatCookie] at hrun
  obtain ⟨⟨rc, ci⟩, hread, hrun⟩ := Option.map_eq_some_iff.1 hrun
  have hmissing : u.get path = none → s.get path = none ∨ ∃ ci, Expired cfg now s path ci := by
    intro hnone
    rcases h.only path hnone with h1 | h1
    · exact .inl h1
    · cases h1 with
      | login h1 hp =>
        refine .inr ⟨_, hfile, ?_, h1.old⟩
        rw [Store.cookie, get_congr hp]
        exact h1.read
      | ticket h1 hk hp => exact absurd hp (htkt _ _ h1 hk path hfile)
      | service hs _ _ _ hp => exact absurd hp (login_ne_service hfile hs)
  dsimp only at hrun
  split at hrun
  · cases hrun
    exact ⟨h, fun hr => by cases hr⟩
  · rename_i hneg
    split at hrun
    · rename_i hone
      cases hrun
      exact ⟨h, fun _ => hmissing (cookie_missing (hone ▸ hread))⟩
    · rename_i hone
      split at hrun
      · rename_i hold
        cases hrun
        have hsome : (u.get path).isSome := by
          by_contra hnone
          rw [Option.not_isSome_iff_eq_none] at hnone
          rw [Store.cookie, hnone] at hread
          cases hread
          exact hone rfl
        have hzero : rc = 0 := by
          rw [Store.cookie] at hread
          split at hread
          · cases hread; exact absurd rfl hone
          · rcases parseCookie_codes hread with h1 | h1
            · exact h1
            · rw [h1] at hneg; exact absurd (by decide) hneg
        subst hzero
        have hexp : Expired cfg now s path ci := ⟨hfile, h.cookie hsome ▸ hread, hold⟩
        refine ⟨⟨?_, ?_, ?_⟩, fun _ => .inr ⟨ci, hexp⟩⟩
        · refine h.swept.trans fun q => ?_
          rw [eaten_get]
          split
          · exact .inr rfl
          · exact .inl rfl
        · intro q hq
          rw [eaten_get] at hq
          split at hq
          · rename_i hor
            rcases hor with hor | ⟨hk, hor⟩
            · exact .inr (.login hexp hor)
            · exact .inr (.ticket hexp hk hor)
          · exact h.only q hq
        · intro path' ci' hexp' hgone hk'
          rw [eaten_get] at hgone ⊢
          split at hgone
          · rename_i hor
            rcases hor with hor | ⟨hk, hor⟩
            · -- the cookie just taken, under this name or another
              have : ci' = ci := by
                have h1 := hexp'.read
                rw [Store.cookie, get_congr hor] at h1
                exact congrArg Prod.snd (Option.some.inj (h1.symm.trans hexp.read))
              rw [if_pos (.inr ⟨this ▸ hk', by rw [this]⟩)]
            · exact absurd hor (htkt _ _ hexp hk path' hexp'.file)
          · split
            · rfl
            · exact h.tickets path' ci' hexp' hgone hk'
      · cases hrun
        exact ⟨h, fun hr => by cases hr⟩

/-- What `eat_cookie` finds where the cookie was absent or had to go. -/
theorem Collecting.eat_gone (h : Collecting cfg now s u) {path : Str}
    (hgone : s.get path = none ∨ ∃ ci, Expired cfg now s path ci) {r : Eaten}
    (hrun : Prog.run exec (eatCookie cfg now path) u = some (r, v)) : r = .gone := by
  rw [run_eatCookie] at hrun
  have hread : u.cookie path = some (1, .zero) ∨ ∃ ci, u.cookie path = some (0, ci) ∧ expired cfg now ci := by
    cases hu : u.get path with
    | none => exact .inl (by rw [Store.cookie, hu])
    | some f =>
      rcases hgone with h1 | ⟨ci, h1⟩
      · rw [h.swept.none h1] at hu
        cases hu
      · exact .inr ⟨ci, (h.cookie (by rw [hu]; rfl)).trans h1.read, h1.old⟩
  rcases hread with h1 | ⟨ci, h1, hold⟩
  · rw [h1] at hrun
    cases hrun
    rfl
  · simp only [h1, Option.map_some, Int.lt_irrefl, if_false, Int.zero_ne_one, hold, if_true] at hrun
    cases hrun
    rfl

theorem run_serviceToLogin (path : Str) (s : Store) :
    Prog.run exec (serviceToLogin path) s = some (s.binding path, s) := by
  simp only [serviceToLogin, Prog.run_bind, run_fsRead, Option.bind_some, Store.binding]
  cases s.get path <;> rfl

/-- A service cookie that is still there names the login cookie it did. -/
theorem Collecting.binding (h : Collecting cfg now s u) {path login : Str} (hb : u.binding path = some login) :
    s.binding path = some login := by
  rcases h.swept path with h1 | h1
  · rw [Store.binding, h1] at hb
    exact hb
  · rw [Store.binding, h1] at hb
    cases hb

/-- A service cookie's file goes. -/
theorem Collecting.unlink (h : Collecting cfg now s u) {path : Str} (hs : ServiceFile cfg path)
    (hc : Collected cfg now s path) : Collecting cfg now s (exec (.unlink path) u).2 where
  swept := h.swept.trans (sweepOp_swept (.unlink path) u)
  only := by
    intro p hp
    rw [unlink_get] at hp
    split at hp
    · rename_i he
      refine .inr ?_
      cases hc with
      | login h1 hq => exact .login h1 (he.trans hq)
      | ticket h1 hk hq => exact .ticket h1 hk (he.trans hq)
      | service hs hb hl hg hq => exact .service hs hb hl hg (he.trans hq)
    · exact h.only p hp
  tickets := by
    intro path' ci hexp hgone hk
    rw [unlink_get] at hgone ⊢
    split
    · rfl
    · rw [if_neg (login_ne_service hexp.file hs)] at hgone
      exact h.tickets path' ci hexp hgone hk

/-- A run of the branch for service cookies, from the login cookie on. -/
theorem doEntry_service {w w' : Sweep} {name path : Str}
    (hn : hasPrefix "cosign-".toList name)
    (hpath : mkcookiepath none cfg.hashlen name maxPathLen = some path)
    (hrun : Prog.run exec (doEntry cfg now w name) u = some (some w', v)) :
    (u.binding path = none ∧ v = u) ∨
      ∃ login lpath r v', u.binding path = some login ∧
        mkcookiepath none cfg.hashlen login maxPathLen = some lpath ∧
        Prog.run exec (eatCookie cfg now lpath) u = some (r, v') ∧
        v = if r = .gone then (exec (.unlink path) v').2 else v' := by
  have hnot : ¬ hasPrefix "cosign=".toList name := fun h => login_not_service h hn
  rw [doEntry, hpath] at hrun
  simp only [hnot, hn, if_true, Bool.false_eq_true, if_false, Prog.run_bind, run_serviceToLogin, Option.bind_some] at hrun
  cases hb : u.binding path with
  | none =>
    rw [hb] at hrun
    cases hrun
    exact .inl ⟨rfl, rfl⟩
  | some login =>
    rw [hb] at hrun
    dsimp only at hrun
    cases hl : mkcookiepath none cfg.hashlen login maxPathLen with
    | none =>
      rw [hl] at hrun
      cases hrun
    | some lpath =>
      rw [hl] at hrun
      dsimp only at hrun
      rw [Prog.run_bind] at hrun
      obtain ⟨⟨r, v'⟩, hr, hrest⟩ := Option.bind_eq_some_iff.1 hrun
      refine .inr ⟨login, lpath, r, v', rfl, hl, hr, ?_⟩
      cases r <;> cases hrest <;> rfl

/-- One entry keeps what holds while the sweep goes on. -/
theorem Collecting.doEntry (h : Collecting cfg now s u) (hwf : LoginsWellFormed cfg s)
    (htkt : TicketsApart cfg now s) {w w' : Sweep} {name : Str}
    (hrun : Prog.run exec (doEntry cfg now w name) u = some (some w', v)) : Collecting cfg now s v := by
  by_cases hn : hasPrefix "cosign-".toList name = true
  · cases hpath : mkcookiepath none cfg.hashlen name maxPathLen with
    | none =>
      rw [Cosign.doEntry, hpath] at hrun
      cases hrun
      exact h
    | some path =>
      have hs : ServiceFile cfg path := ⟨name, hn, hpath⟩
      rcases doEntry_service hn hpath hrun with ⟨-, rfl⟩ | ⟨login, lpath, r, v', hb, hl, hr, rfl⟩
      · exact h
      · have hb' := h.binding hb
        obtain ⟨hlogin, -⟩ := hwf path login hs hb'
        obtain ⟨hv', hgone⟩ := h.eat htkt ⟨login, hlogin, hl⟩ hr
        split
        · rename_i hg
          exact hv'.unlink hs (.service hs hb' hl (hgone hg) rfl)
        · exact hv'
  · rw [Cosign.doEntry] at hrun
    split at hrun
    · cases hrun
      exact h
    · rename_i path hpath
      split at hrun
      · rename_i hc
        rw [Prog.run_bind] at hrun
        obtain ⟨⟨r, v'⟩, hr, hrest⟩ := Option.bind_eq_some_iff.1 hrun
        cases hrest
        exact (h.eat htkt ⟨name, hc, hpath⟩ hr).1
      · cases hrun
        exact h

/-- A service cookie that had to go is gone once its entry was read. -/
theorem Collecting.service_gone (h : Collecting cfg now s u) {w w' : Sweep} {name path login lpath : Str}
    (hn : hasPrefix "cosign-".toList name)
    (hpath : mkcookiepath none cfg.hashlen name maxPathLen = some path) (hb : s.binding path = some login)
    (hl : mkcookiepath none cfg.hashlen login maxPathLen = some lpath)
    (hg : s.get lpath = none ∨ ∃ ci, Expired cfg now s lpath ci)
    (hrun : Prog.run exec (Cosign.doEntry cfg now w name) u = some (some w', v)) : v.get path = none := by
  rcases doEntry_service hn hpath hrun with ⟨hnone, rfl⟩ | ⟨login', lpath', r, v', hb', hl', hr, rfl⟩
  · rcases h.swept path with h1 | h1
    · rw [Store.binding, h1] at hnone
      exact absurd (hb.symm.trans hnone) (by simp)
    · exact h1
  · cases hb.symm.trans (h.binding hb')
    cases hl.symm.trans hl'
    rw [if_pos (h.eat_gone hg hr), unlink_get, if_pos rfl]

end

/-! ## The whole sweep -/

section
variable {cfg : Config} {now : Nat} {ls : Str → Option (List Str)} {s t : Store} {report : List (Str × Nat × Nat)}

/-- A sweep takes what it has to and no more, in whatever order the entries
come. -/
theorem sweep_collects (hwf : LoginsWellFormed cfg s) (htkt : TicketsApart cfg now s) (hdirs : InHashDirs cfg s)
    (hls : ListsAll cfg ls t) (h : Prog.run exec (sweep cfg now ls) s = some (some report, t)) :
    Collects cfg now s t := by
  obtain ⟨ht, hvisit⟩ := sweep_keeps (I := Collecting cfg now s)
    (fun w name u w' v hu hrun => hu.doEntry hwf htkt hrun) (Collecting.refl cfg now s) h
  have hlisted : ∀ c path, mkcookiepath none cfg.hashlen c maxPathLen = some path → (t.get path).isSome →
      Listed cfg ls c := by
    intro c path hpath hex
    refine listed hpath (hdirs c path hpath ?_) hls hex
    rcases ht.swept path with h1 | h1
    · exact h1 ▸ hex
    · rw [h1] at hex; cases hex
  have hlogin : ∀ path ci, Expired cfg now s path ci → t.get path = none := by
    intro path ci hexp
    by_contra hne
    obtain ⟨c, hc, hpath⟩ := hexp.file
    have hl := hlisted c path hpath (Option.isSome_iff_ne_none.2 hne)
    refine hne (sweep_deletes hc hpath hl ?_ h)
    intro f hf rc ci' hparse
    have hread := hexp.read
    rw [Store.cookie, hf] at hread
    cases hread.symm.trans hparse
    exact ⟨rfl, hexp.old⟩
  have hgone : ∀ p, Collected cfg now s p → t.get p = none := by
    intro p hp
    cases hp with
    | login hexp he => rw [get_congr he]; exact hlogin _ _ hexp
    | ticket hexp hk he => rw [get_congr he]; exact ht.tickets _ _ hexp (hlogin _ _ hexp) hk
    | service hs hb hl hg he =>
      rw [get_congr he]
      by_contra hne
      obtain ⟨c, hc, hpath⟩ := hs
      obtain ⟨w1, w2, u, v, hu, hrun, hvt⟩ := hvisit c (hlisted c _ hpath (Option.isSome_iff_ne_none.2 hne))
      exact hne (hvt.none (hu.service_gone hc hpath hb hl hg hrun))
  refine ⟨hgone, ?_, ?_⟩
  · intro p hp
    rcases ht.swept p with h1 | h1
    · exact h1
    · rcases ht.only p h1 with h2 | h2
      · rw [h1, h2]
      · exact absurd h2 hp
  · intro path login lpath hs hb hl
    by_contra hne
    rw [Option.not_isSome_iff_eq_none] at hne
    have hb' := ht.binding hb
    have hfile : LoginFile cfg lpath := ⟨login, (hwf path login hs hb').1, hl⟩
    have hdead : s.get lpath = none ∨ ∃ ci, Expired cfg now s lpath ci := by
      rcases ht.only lpath hne with h1 | h1
      · exact .inl h1
      · cases h1 with
        | login h1 hp => exact .inr ⟨_, hfile, by rw [Store.cookie, get_congr hp]; exact h1.read, h1.old⟩
        | ticket h1 hk hp => exact absurd hp (htkt _ _ h1 hk lpath hfile)
        | service hs _ _ _ hp => exact absurd hp (login_ne_service hfile hs)
    rw [Store.binding, hgone path (.service hs hb' hl hdead rfl)] at hb
    cases hb

/-- What is left does not depend on how `readdir` orders the entries. -/
theorem Collects.agree {t' : Store} (h : Collects cfg now s t) (h' : Collects cfg now s t') (p : Str) :
    t'.get p = t.get p := by
  by_cases hp : Collected cfg now s p
  · rw [h.gone p hp, h'.gone p hp]
  · rw [h.kept p hp, h'.kept p hp]

theorem sweep_exact (hwf : LoginsWellFormed cfg s) (htkt : TicketsApart cfg now s) (hdirs : InHashDirs cfg s)
    (hls : ListsAll cfg ls t) (h : Prog.run exec (sweep cfg now ls) s = some (some report, t)) :
    Collects cfg now s t ∧ ∀ ls' report' t', ListsAll cfg ls' t' →
      Prog.run exec (sweep cfg now ls') s = some (some report', t') → ∀ p, t'.get p = t.get p := by
  have ht := sweep_collects hwf htkt hdirs hls h
  exact ⟨ht, fun ls' report' t' hls' h' p => ht.agree (sweep_collects hwf htkt hdirs hls' h') p⟩

end

/-! ## Stores of one directory -/

theorem flat_path {c path : Str} {n : Nat} (h : mkcookiepath none 0 c n = some path) : path = c ∧ '/' ∉ c := by
  refine ⟨?_, (mkcookiepath_spec h).2.2.1⟩
  simp only [mkcookiepath, List.nil_append] at h
  repeat' split at h
  all_goals first | cases h; done | exact (Option.some.inj h).symm

theorem resolve_flat {c : Str} (h : '/' ∉ c) : resolve c = c := by
  unfold resolve
  split
  · simp at h
  · rfl

theorem ofFiles_mem {files : List (Str × File)} {p : Str} {f : File} (h : (Store.ofFiles files).get p = some f) :
    (resolve p, f) ∈ files := by
  obtain ⟨l₁, l₂, rfl, -⟩ := List.lookup_eq_some_iff.1 h
  simp

section
variable {cfg : Config} {files : List (Str × File)} (h0 : cfg.hashlen = 0)
include h0

theorem flat_inHashDirs (s : Store) : InHashDirs cfg s := by
  intro c path hpath _
  rw [h0] at hpath
  obtain ⟨rfl, hs⟩ := flat_path hpath
  exact ⟨[".".toList], by rw [h0]; rfl, by simp [dirOf, hs]⟩

/-- A listing of all files is complete as long as no other is there. -/
theorem flat_listsAll {t : Store} (ht : ∀ p, (t.get p).isSome → ((Store.ofFiles files).get p).isSome)
    {names : List Str} (hn : ∀ x ∈ files, x.1 ∈ names) : ListsAll cfg (fun _ => some names) t := by
  intro c path hpath hex _
  rw [h0] at hpath
  obtain ⟨rfl, hs⟩ := flat_path hpath
  obtain ⟨f, hf⟩ := Option.isSome_iff_exists.1 (ht _ hex)
  have := hn _ (ofFiles_mem hf)
  rw [resolve_flat hs] at this
  exact ⟨names, rfl, this⟩

/-- It is enough to look at each file of the store. -/
theorem flat_loginsWellFormed
    (h : ∀ x ∈ files, hasPrefix "cosign-".toList x.1 → ∀ login, parseService x.2.text = some login →
      hasPrefix "cosign=".toList login ∧ (mkcookiepath none 0 login maxPathLen).isSome) :
    LoginsWellFormed cfg (.ofFiles files) := by
  rintro path login ⟨c, hc, hpath⟩ hb
  rw [h0] at hpath ⊢
  obtain ⟨rfl, hs⟩ := flat_path hpath
  obtain ⟨f, hf, hp⟩ := Option.bind_eq_some_iff.1 hb
  have hmem := ofFiles_mem hf
  rw [resolve_flat hs] at hmem
  obtain ⟨hlogin, hlp⟩ := h _ hmem hc login hp
  exact ⟨hlogin, Option.isSome_iff_exists.1 hlp⟩

end

theorem wikiStore_loginsWellFormed : LoginsWellFormed wikiConfig wikiStore := by
  refine flat_loginsWellFormed rfl ?_
  intro x hx hc login hp
  simp only [List.mem_cons, List.not_mem_nil, or_false] at hx
  rcases hx with rfl | rfl
  · cases hc
  · cases hp
    decide

/-- No record names a ticket. -/
def NoTickets (s : Store) : Prop := ∀ p f ci, s.get p = some f → parseCookie f = some (0, ci) → ci.krbtkt = []

theorem NoTickets.apart {s : Store} (h : NoTickets s) (cfg : Config) (now : Nat) : TicketsApart cfg now s := by
  intro path ci hexp hk
  obtain ⟨f, hf, hparse⟩ := cookie_file hexp.read
  exact absurd (h path f ci hf hparse) hk

theorem NoTickets.congr {s t : Store} (h : NoTickets s) (ht : SameTexts s t) : NoTickets t := by
  rintro p ⟨text, g, m⟩ ci hf hparse
  have htext := ht p
  rw [hf] at htext
  obtain ⟨⟨text', g', m'⟩, hf', rfl⟩ := Option.map_eq_some_iff.1 htext.symm
  exact h p _ (ci.stat (if g' then 0 else 1) m') hf' (parseCookie_ok_stat hparse g' m')

theorem wikiStore_noTickets : NoTickets wikiStore := by
  intro path f ci hf hparse
  have hmem := ofFiles_mem hf
  simp only [List.mem_cons, List.not_mem_nil, or_false, Prod.mk.injEq] at hmem
  rcases hmem with ⟨-, rfl⟩ | ⟨-, rfl⟩
  · cases hparse.symm.trans rfl
    rfl
  · cases hparse.symm.trans rfl

/-- The next day, Ann's cookie and the service cookie that names it are gone. -/
theorem wikiStore_swept : ∃ report t,
    Prog.run exec (sweep wikiConfig 100000 fun _ => some ["cosign-wiki=xyz".toList, "cosign=abc".toList]) wikiStore =
      some (some report, t) ∧ Collects wikiConfig 100000 wikiStore t := by
  have hend : ∃ report t, Prog.run exec (sweep wikiConfig 100000
      fun _ => some ["cosign-wiki=xyz".toList, "cosign=abc".toList]) wikiStore = some (some report, t) := ⟨_, _, rfl⟩
  obtain ⟨report, t, hrun⟩ := hend
  refine ⟨report, t, hrun, (sweep_exact wikiStore_loginsWellFormed (wikiStore_noTickets.apart _ _) (flat_inHashDirs rfl _)
    (flat_listsAll rfl (swept_of_asks (asks_sweep wikiConfig 100000 _) hrun).isSome ?_) hrun).1⟩
  decide

/-! ## Tickets that are cookies, and directories no sweep reads -/

/-- Ann's ticket is Eve's cookie, and a service cookie names Eve's. -/
def ticketStore : Store := .ofFiles [
  ("cosign=abc".toList,
    ⟨recordText "10.0.0.1".toList "10.0.0.1".toList "ann".toList ["umich".toList] 100 (some "cosign=def".toList), false, 100⟩),
  ("cosign=def".toList,
    ⟨recordText "10.0.0.2".toList "10.0.0.2".toList "eve".toList ["umich".toList] 99000 none, false, 99000⟩),
  ("cosign-wiki=xyz".toList, ⟨fieldLine 'l' "cosign=def".toList, false, 99000⟩)]

def hashedConfig : Config := { Config.default with hashlen := 1 }

/-- A cookie whose directory is `.`. -/
def dotStore : Store := .ofFiles [
  ("cosign=.abc".toList,
    ⟨recordText "10.0.0.1".toList "10.0.0.1".toList "ann".toList ["umich".toList] 100 none, false, 100⟩)]

/-- The service cookie is looked at first, while Eve's cookie is still there. -/
theorem ticketStore_swept : ∃ report t,
    Prog.run exec (sweep .default 100000
      fun _ => some ["cosign-wiki=xyz".toList, "cosign=abc".toList, "cosign=def".toList]) ticketStore =
        some (some report, t) ∧
    t.get "cosign=def".toList = none ∧ t.binding "cosign-wiki=xyz".toList = some "cosign=def".toList :=
  ⟨_, _, rfl, rfl, rfl⟩

theorem sweep_not_exact :
    (¬ ∀ (cfg : Config) (now : Nat) (ls : Str → Option (List Str)) (s t : Store) (report : List (Str × Nat × Nat)),
      LoginsWellFormed cfg s → InHashDirs cfg s → ListsAll cfg ls t →
      Prog.run exec (sweep cfg now ls) s = some (some report, t) → Collects cfg now s t) ∧
    ¬ ∀ (cfg : Config) (now : Nat) (ls : Str → Option (List Str)) (s t : Store) (report : List (Str × Nat × Nat)),
      LoginsWellFormed cfg s → TicketsApart cfg now s → ListsAll cfg ls t →
      Prog.run exec (sweep cfg now ls) s = some (some report, t) → Collects cfg now s t := by
  constructor
  · intro h
    obtain ⟨report, t, hrun, hdef, hwiki⟩ := ticketStore_swept
    have hbound := (h .default 100000 _ ticketStore t report (flat_loginsWellFormed rfl ?_) (flat_inHashDirs rfl _)
      (flat_listsAll rfl (swept_of_asks (asks_sweep .default 100000 _) hrun).isSome ?_) hrun).bound
      "cosign-wiki=xyz".toList "cosign=def".toList "cosign=def".toList ⟨"cosign-wiki=xyz".toList, by decide, rfl⟩ hwiki rfl
    · rw [hdef] at hbound
      cases hbound
    · intro x hx hc login hp
      simp only [List.mem_cons, List.not_mem_nil, or_false] at hx
      rcases hx with rfl | rfl | rfl
      · cases hc
      · cases hc
      · cases hp
        decide
    · decide
  · intro h
    have hfile : ∀ p f, dotStore.get p = some f → resolve p = "cosign=.abc".toList := by
      intro p f hf
      have := ofFiles_mem hf
      simp only [List.mem_singleton, Prod.mk.injEq] at this
      exact this.1
    have hgone := (h hashedConfig 100000 (fun _ => some []) dotStore dotStore [] ?_ ?_ ?_ rfl).gone
      "./cosign=.abc".toList (.login ⟨⟨"cosign=.abc".toList, by decide, rfl⟩, rfl, by decide⟩ rfl)
    · cases hgone
    · rintro path login ⟨c, hc, hpath⟩ hb
      obtain ⟨f, hf, -⟩ := Option.bind_eq_some_iff.1 hb
      rw [← resolve_mkcookiepath hpath, hfile path f hf] at hc
      cases hc
    · intro path ci hexp hk
      obtain ⟨f, hf, hparse⟩ := cookie_file hexp.read
      have hmem := ofFiles_mem hf
      simp only [List.mem_singleton, Prod.mk.injEq] at hmem
      obtain ⟨-, rfl⟩ := hmem
      cases hparse.symm.trans rfl
      exact absurd rfl hk
    · intro c path hpath hex hscan
      obtain ⟨f, hf⟩ := Option.isSome_iff_exists.1 hex
      have hc : c = "cosign=.abc".toList := by
        rw [← resolve_mkcookiepath hpath, hfile path f hf]
        decide
      subst hc
      cases hpath.symm.trans rfl
      obtain ⟨dirs, hdirs, hdir⟩ := hscan
      cases hdirs.symm.trans rfl
      exact absurd hdir (by decide)

end Cosign
