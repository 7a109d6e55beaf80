import Cosign.Daemon.Footprint
/-!
# What a sweep leaves

A sweep only takes files away, and it looks at every entry of every directory
it lists. So a cookie that must go when the sweep starts is gone when it ends.
-/

namespace Cosign

open Lib

/-- Every file is the same or gone. -/
def Swept (s t : Store) : Prop := ∀ p, t.get p = s.get p ∨ t.get p = none

theorem Swept.refl (s : Store) : Swept s s := fun _ => .inl rfl

theorem Swept.trans {s t u : Store} (h : Swept s t) (h' : Swept t u) : Swept s u := fun p => by
  rcases h' p with h1 | h1
  · rw [h1]; exact h p
  · exact .inr h1

theorem Swept.isSome {s t : Store} (h : Swept s t) (p : Str) (hp : (t.get p).isSome) : (s.get p).isSome := by
  rcases h p with h1 | h1
  · rwa [h1] at hp
  · rw [h1] at hp
    cases hp

theorem Swept.none {s t : Store} (h : Swept s t) {p : Str} (hp : s.get p = none) : t.get p = none := by
  rcases h p with h1 | h1
  · rw [h1, hp]
  · exact h1

theorem unlink_get (s : Store) (p q : Str) :
    (exec (.unlink p) s).2.get q = if resolve q = resolve p then none else s.get q := by
  by_cases he : resolve q = resolve p
  · have hsame : ∀ u : Store, u.get q = u.get p := fun u => by simp only [Store.get, he]
    rw [if_pos he, hsame]
    cases hp : s.get p <;> simp [exec, hp]
  · rw [if_neg he]
    exact exec_frame _ s (by simp [FsOp.targets, he])

theorem sweepOp_swept {o : FsOp} (h : SweepOp o) (s : Store) : Swept s (exec o s).2 := by
  cases h with
  | read p => exact Swept.refl s
  | unlink p =>
    intro q
    rw [unlink_get]
    split
    · exact .inr rfl
    · exact .inl rfl

theorem swept_of_asks {α : Type} {p : Handler α} (hp : Prog.Asks SweepOp p) {s t : Store} {a : α}
    (h : Prog.run exec p s = some (a, t)) : Swept s t :=
  hp.inv (Swept s) (fun _ u ho hu => hu.trans (sweepOp_swept ho u)) (Swept.refl s) h

/-! ## Every entry is looked at -/

section
variable {cfg : Config} {now : Nat} {I : Store → Prop}

/-- What every entry keeps holds when each entry is read, and at the end. -/
theorem doEntries_keeps
    (hstep : ∀ w name u w' v, I u → Prog.run exec (doEntry cfg now w name) u = some (some w', v) → I v)
    {names : List Str} {w w' : Sweep} {s t : Store} (hs : I s)
    (h : Prog.run exec (doEntries cfg now w names) s = some (some w', t)) :
    I t ∧ ∀ name ∈ names, ∃ w1 w2 u v, I u ∧ Prog.run exec (doEntry cfg now w1 name) u = some (some w2, v) ∧
      Swept v t := by
  induction names generalizing w s with
  | nil => cases h; exact ⟨hs, nofun⟩
  | cons n rest ih =>
    rw [doEntries, Prog.run_bind] at h
    obtain ⟨⟨r, v⟩, hr, hrest⟩ := Option.bind_eq_some_iff.1 h
    cases r with
    | none => cases hrest
    | some w1 =>
      obtain ⟨ht, hall⟩ := ih (hstep _ _ _ _ _ hs hr) hrest
      refine ⟨ht, fun name hname => ?_⟩
      rcases List.mem_cons.1 hname with rfl | hmem
      · exact ⟨w, w1, s, v, hs, hr, swept_of_asks (asks_doEntries cfg now rest w1) hrest⟩
      · exact hall name hmem

theorem doDirs_keeps
    (hstep : ∀ w name u w' v, I u → Prog.run exec (doEntry cfg now w name) u = some (some w', v) → I v)
    {ls : Str → Option (List Str)} {dirs : List Str} {report report' : List (Str × Nat × Nat)} {s t : Store} (hs : I s)
    (h : Prog.run exec (doDirs cfg now ls report dirs) s = some (some report', t)) :
    I t ∧ ∀ dir ∈ dirs, ∀ names, ls dir = some names → ∀ name ∈ names,
      ∃ w1 w2 u v, I u ∧ Prog.run exec (doEntry cfg now w1 name) u = some (some w2, v) ∧ Swept v t := by
  induction dirs generalizing report s with
  | nil => cases h; exact ⟨hs, nofun⟩
  | cons d rest ih =>
    rw [doDirs] at h
    cases hd : ls d with
    | none => rw [hd] at h; cases h
    | some ns =>
      rw [hd] at h
      simp only [Prog.run_bind] at h
      obtain ⟨⟨r, v⟩, hr, hrest⟩ := Option.bind_eq_some_iff.1 h
      cases r with
      | none => cases hrest
      | some w =>
        obtain ⟨hv, hnames⟩ := doEntries_keeps hstep hs hr
        obtain ⟨ht, hall⟩ := ih hv hrest
        refine ⟨ht, fun dir hdir names hls name hname => ?_⟩
        rcases List.mem_cons.1 hdir with rfl | hmem
        · cases hls.symm.trans hd
          obtain ⟨w1, w2, u, v', h1, h2, h3⟩ := hnames name hname
          exact ⟨w1, w2, u, v', h1, h2, h3.trans (swept_of_asks (asks_doDirs cfg now ls rest _) hrest)⟩
        · exact hall dir hmem names hls name hname

end

/-- The sweep lists this cookie's directory, and the cookie in it. -/
def Listed (cfg : Config) (ls : Str → Option (List Str)) (name : Str) : Prop :=
  ∃ dirs dir names, hashDirs cfg.hashlen = some dirs ∧ dir ∈ dirs ∧ ls dir = some names ∧ name ∈ names

/-- What every entry keeps holds when each listed entry is read, and at the end. -/
theorem sweep_keeps {cfg : Config} {now : Nat} {I : Store → Prop}
    (hstep : ∀ w name u w' v, I u → Prog.run exec (doEntry cfg now w name) u = some (some w', v) → I v)
    {ls : Str → Option (List Str)} {report : List (Str × Nat × Nat)} {s t : Store} (hs : I s)
    (h : Prog.run exec (sweep cfg now ls) s = some (some report, t)) :
    I t ∧ ∀ name, Listed cfg ls name →
      ∃ w1 w2 u v, I u ∧ Prog.run exec (doEntry cfg now w1 name) u = some (some w2, v) ∧ Swept v t := by
  rw [sweep] at h
  cases hdirs : hashDirs cfg.hashlen with
  | none => rw [hdirs] at h; cases h
  | some dirs =>
    rw [hdirs] at h
    obtain ⟨ht, hall⟩ := doDirs_keeps hstep hs h
    refine ⟨ht, ?_⟩
    rintro name ⟨dirs', dir, names, hdirs', hdir, hls, hname⟩
    cases hdirs.symm.trans hdirs'
    exact hall dir hdir names hls name hname

theorem sweep_visits {cfg : Config} {now : Nat} {ls : Str → Option (List Str)} {name : Str} {s t : Store}
    {report : List (Str × Nat × Nat)} (hl : Listed cfg ls name)
    (h : Prog.run exec (sweep cfg now ls) s = some (some report, t)) :
    ∃ w1 w2 u v, Swept s u ∧ Prog.run exec (doEntry cfg now w1 name) u = some (some w2, v) ∧ Swept v t := by
  obtain ⟨-, hvisit⟩ := sweep_keeps (I := Swept s)
    (fun w name u w' v hu hrun => hu.trans (swept_of_asks (asks_doEntry cfg now w name) hrun)) (Swept.refl s) h
  exact hvisit name hl

/-! ## What is looked at and must go, goes -/

/-- The cookie is gone, or can be read and must go. -/
def Doomed (cfg : Config) (now : Nat) (s : Store) (path : Str) : Prop :=
  ∀ f, s.get path = some f → ∀ rc ci, parseCookie f = some (rc, ci) → rc = 0 ∧ expired cfg now ci

theorem Doomed.swept {cfg : Config} {now : Nat} {s t : Store} {path : Str} (h : Doomed cfg now s path)
    (hst : Swept s t) : Doomed cfg now t path := by
  intro f hf
  rcases hst path with h1 | h1
  · exact h f (h1 ▸ hf)
  · rw [h1] at hf; cases hf

/-- The store without the cookie and its ticket. -/
def eaten (s : Store) (path : Str) (ci : Cinfo) : Store :=
  (exec (.unlink path) (if ci.krbtkt ≠ [] then (exec (.unlink ci.krbtkt) s).2 else s)).2

theorem run_eatCookie (cfg : Config) (now : Nat) (path : Str) (s : Store) :
    Prog.run exec (eatCookie cfg now path) s = (s.cookie path).map fun x =>
      if x.1 < 0 then (.failed, s)
      else if x.1 = 1 then (.gone, s)
      else if expired cfg now x.2 then (.gone, eaten s path x.2)
      else (.good x.2.itime x.2.state, s) := by
  rw [eatCookie, Prog.run_bind, run_readCookie]
  cases s.cookie path with
  | none => rfl
  | some x =>
    obtain ⟨rc, ci⟩ := x
    simp only [Option.map_some, Option.bind_some]
    by_cases h1 : rc < 0
    · simp [h1]
    by_cases h2 : rc = 1
    · simp [h2]
    by_cases h3 : expired cfg now ci
    · by_cases h4 : ci.krbtkt = [] <;> simp [h1, h2, h3, h4, eaten]
    · simp [h1, h2, h3]

theorem eatCookie_doomed {cfg : Config} {now : Nat} {s t : Store} {path : Str} {r : Eaten}
    (hd : Doomed cfg now s path) (h : Prog.run exec (eatCookie cfg now path) s = some (r, t)) : t.get path = none := by
  rw [run_eatCookie] at h
  obtain ⟨⟨rc, ci⟩, hread, h⟩ := Option.map_eq_some_iff.1 h
  unfold Store.cookie at hread
  split at hread
  · rename_i hf
    cases hread
    cases h
    exact hf
  · rename_i f hf
    obtain ⟨rfl, hexp⟩ := hd f hf rc ci hread
    simp only [Int.lt_irrefl, if_false, Int.zero_ne_one, hexp, if_true] at h
    cases h
    rw [eaten, unlink_get, if_pos rfl]

/-- A listed login cookie that must go is gone after the sweep. -/
theorem sweep_deletes {cfg : Config} {now : Nat} {ls : Str → Option (List Str)} {name path : Str} {s t : Store}
    {report : List (Str × Nat × Nat)} (hc : hasPrefix "cosign=".toList name)
    (hpath : mkcookiepath none cfg.hashlen name maxPathLen = some path) (hl : Listed cfg ls name)
    (hd : Doomed cfg now s path) (h : Prog.run exec (sweep cfg now ls) s = some (some report, t)) :
    t.get path = none := by
  obtain ⟨w1, w2, u, v, hsu, hv, hvt⟩ := sweep_visits hl h
  refine hvt.none ?_
  rw [doEntry, hpath] at hv
  simp only [hc, if_true, Prog.run_bind] at hv
  obtain ⟨⟨r, v'⟩, hr, hret⟩ := Option.bind_eq_some_iff.1 hv
  cases hret
  exact eatCookie_doomed (hd.swept hsu) hr

end Cosign
