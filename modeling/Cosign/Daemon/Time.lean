import Cosign.Daemon.Effects
/-!
# `TIME`

`monster` sends its peers the time and state of every login cookie, and
`f_time` is where they arrive. It sets the times of the files, but it never
marks a file as logged out: `do_logout` is only called for a file that has the
mark. So a logout reaches this daemon exactly where it had already happened.
-/

namespace Cosign

open Lib

/-- Only the times of files differ. -/
def SameMarks (s t : Store) : Prop :=
  ∀ p, (t.get p).map (fun f => (f.text, f.isgid)) = (s.get p).map fun f => (f.text, f.isgid)

theorem SameMarks.refl (s : Store) : SameMarks s s := fun _ => rfl

theorem SameMarks.trans {s t u : Store} (h : SameMarks s t) (h' : SameMarks t u) : SameMarks s u :=
  fun p => (h' p).trans (h p)

/-- Replacing a file by one with its text and mark. -/
theorem sameMarks_put {s : Store} {p : Str} {f g : File} (hf : s.get p = some f) (ht : g.text = f.text)
    (hg : g.isgid = f.isgid) : SameMarks s (s.put p (some g)) := by
  intro q
  by_cases hq : resolve q = resolve p
  · have hp : ∀ u : Store, u.get q = u.get p := fun u => by simp only [Store.get, hq]
    rw [hp, hp, Store.put_get, hf]
    simp [ht, hg]
  · rw [Store.put_get_ne _ hq]

theorem SameMarks.get {s t : Store} (h : SameMarks s t) {p : Str} {f : File} (hf : s.get p = some f) :
    ∃ g, t.get p = some g ∧ g.text = f.text ∧ g.isgid = f.isgid := by
  have hp := h p
  rw [hf] at hp
  obtain ⟨g, hg, he⟩ := Option.map_eq_some_iff.1 hp
  exact ⟨g, hg, congrArg Prod.fst he, congrArg Prod.snd he⟩

/-! ## What the loop does -/

theorem utime_keeps {s : Store} {path : Str} {f : File} (hf : s.get path = some f) (now : Nat) :
    SameMarks s (exec (.utime path now) s).2 := by
  simp only [exec, hf]
  exact sameMarks_put hf rfl rfl

/-- Logging out a cookie that is logged out only sets its time. -/
theorem doLogout_keeps {s : Store} {path : Str} {f : File} (hf : s.get path = some f) (hg : f.isgid = true)
    (fails : Bool) (now : Nat) :
    ∃ rc t, Prog.run exec (doLogout fails now path) s = some (rc, t) ∧ SameMarks s t := by
  rw [run_doLogout, hf]
  cases fails with
  | true => exact ⟨-1, s, rfl, SameMarks.refl s⟩
  | false => exact ⟨0, _, rfl, sameMarks_put hf rfl hg.symm⟩

theorem timeCookie_keeps (env : Env) (i : Nat) (path timestamp state : Str) (s : Store) :
    ∃ t, Prog.run exec (timeCookie env i path timestamp state) s = some ((), t) ∧ SameMarks s t := by
  cases hf : s.get path with
  | none => exact ⟨s, by simp [timeCookie, hf], SameMarks.refl s⟩
  | some f =>
    have h1 : ∃ b u, Prog.run exec (timeUtime path timestamp f) s = some (b, u) ∧ SameMarks s u := by
      unfold timeUtime
      split
      · exact ⟨_, _, rfl, utime_keeps hf _⟩
      · exact ⟨_, _, rfl, SameMarks.refl s⟩
    obtain ⟨b, u, hu, hsu⟩ := h1
    obtain ⟨g, hg, -, hgid⟩ := hsu.get hf
    have h2 : ∃ rc t, Prog.run exec (timeLogout env i path state f) u = some (rc, t) ∧ SameMarks u t := by
      unfold timeLogout
      split
      · exact doLogout_keeps hg (hgid.trans (by tauto)) _ _
      · exact ⟨_, _, rfl, SameMarks.refl u⟩
    obtain ⟨rc, t, ht, hut⟩ := h2
    exact ⟨t, by simp [timeCookie, hf, hu, ht], hsu.trans hut⟩

/-- The file that a line names, its time and its state. -/
def timeNamed (cfg : Config) (line : Str) : Option (Str × Str × Str) :=
  match acavParse line with
  | [cookie, timestamp, state] =>
    if hasPrefix "cosign=".toList cookie then
      (mkcookiepath none cfg.hashlen cookie maxPathLen).map fun path => (path, timestamp, state)
    else none
  | _ => none

/-- The loop passes by the lines that name no cookie. -/
theorem timeLines_cons (cfg : Config) (env : Env) (i : Nat) {line : Str} (h : lineLeft line ≠ ".".toList)
    (rest : List Str) : timeLines cfg env i (line :: rest) =
      match timeNamed cfg line with
      | some (path, timestamp, state) => do
        timeCookie env i path timestamp state
        timeLines cfg env (i + 1) rest
      | none => timeLines cfg env (i + 1) rest := by
  rw [timeLines, if_neg h, timeNamed]
  generalize acavParse line = ws
  match ws with
  | [] | [_] | [_, _] | _ :: _ :: _ :: _ :: _ => rfl
  | [cookie, timestamp, state] =>
    by_cases hprefix : hasPrefix "cosign=".toList cookie
    · simp only [if_pos hprefix]
      cases mkcookiepath none cfg.hashlen cookie maxPathLen <;> rfl
    · simp only [if_neg hprefix]

theorem timeLines_keeps (cfg : Config) (env : Env) (lines : List Str) (i : Nat) (s : Store) :
    ∃ t, Prog.run exec (timeLines cfg env i lines) s = some ((), t) ∧ SameMarks s t := by
  induction lines generalizing i s with
  | nil => exact ⟨s, rfl, SameMarks.refl s⟩
  | cons line rest ih =>
    by_cases hend : lineLeft line = ".".toList
    · rw [timeLines, if_pos hend]
      exact ⟨s, rfl, SameMarks.refl s⟩
    rw [timeLines_cons cfg env i hend]
    cases timeNamed cfg line with
    | none => exact ih (i + 1) s
    | some x =>
      obtain ⟨path, timestamp, state⟩ := x
      obtain ⟨u, hu, hsu⟩ := timeCookie_keeps env i path timestamp state s
      obtain ⟨t, ht, hut⟩ := ih (i + 1) u
      exact ⟨t, by simp [hu, ht], hsu.trans hut⟩

/-- Every `TIME` is answered, and only the times of files change. -/
theorem fTime_keeps (cfg : Config) (ses : Session) (env : Env) (av : List Str) (s : Store) :
    ∃ d t, Prog.run exec (fTime cfg ses env av) s = some (d, t) ∧ SameMarks s t := by
  unfold fTime
  split
  · exact ⟨_, s, rfl, SameMarks.refl s⟩
  · split
    · exact ⟨_, s, rfl, SameMarks.refl s⟩
    · obtain ⟨t, ht, hst⟩ := timeLines_keeps cfg env env.lines 0 s
      exact ⟨_, t, by simp [ht]; rfl, hst⟩

/-! ## Logouts that arrive -/

/-- The lines the loop reads. -/
def timeRead (lines : List Str) : List Str := lines.takeWhile fun line => lineLeft line ≠ ".".toList

/-- A line `cosign=... timestamp state` for the cookie in `path`. -/
def TimeLine (cfg : Config) (line path state : Str) : Prop :=
  ∃ cookie timestamp, acavParse line = [cookie, timestamp, state] ∧ hasPrefix "cosign=".toList cookie ∧
    mkcookiepath none cfg.hashlen cookie maxPathLen = some path

/-- The file has the mark, so its record reads as logged out. -/
def Store.LoggedOut (s : Store) (path : Str) : Prop :=
  ∃ f, s.get path = some f ∧ f.isgid = true ∧ ∀ ci, parseCookie f = some (0, ci) → ci.state = 0

theorem loggedOut_of_isgid {s : Store} {path : Str} {f : File} (hf : s.get path = some f) (hg : f.isgid = true) :
    s.LoggedOut path :=
  ⟨f, hf, hg, fun ci hci => by rw [(parseCookie_fstat hci (by decide)).1, hg]; rfl⟩

/-- Existing cookies that a line with state 0 names are logged out, and those
that only lines with state 1 name stay logged in. -/
structure TimePropagates (cfg : Config) (lines : List Str) (s t : Store) : Prop where
  out : ∀ line ∈ timeRead lines, ∀ path state, TimeLine cfg line path state → atoi state = 0 →
    (s.get path).isSome → t.LoggedOut path
  kept : ∀ path f, s.get path = some f → f.isgid = false →
    (∀ line ∈ timeRead lines, ∀ state, TimeLine cfg line path state → atoi state = 1) →
    ∃ g, t.get path = some g ∧ g.isgid = false

/-- Logouts arrive exactly for the cookies that were logged out before. -/
theorem fTime_propagates_iff {cfg : Config} {ses : Session} {env : Env} {av : List Str} {s t : Store} {d : Done}
    (h : Prog.run exec (fTime cfg ses env av) s = some (d, t)) (_ : d.answers 260) :
    TimePropagates cfg env.lines s t ↔
      ∀ line ∈ timeRead env.lines, ∀ path state, TimeLine cfg line path state → atoi state = 0 →
        ∀ f, s.get path = some f → f.isgid = true := by
  have hst : SameMarks s t := by
    obtain ⟨d', t', h', hst⟩ := fTime_keeps cfg ses env av s
    rw [h] at h'
    cases h'
    exact hst
  constructor
  · intro hp line hl path state hn h0 f hf
    obtain ⟨g, hg, -, hgid⟩ := hst.get hf
    obtain ⟨g', hg', hg1, -⟩ := hp.out line hl path state hn h0 (by simp [hf])
    rw [hg] at hg'
    cases hg'
    rw [← hgid, hg1]
  · intro hc
    refine ⟨fun line hl path state hn h0 hs => ?_, fun path f hf hg _ => ?_⟩
    · obtain ⟨f, hf⟩ := Option.isSome_iff_exists.1 hs
      obtain ⟨g, hg, -, hgid⟩ := hst.get hf
      exact loggedOut_of_isgid hg (hgid.trans (hc line hl path state hn h0 f hf))
    · obtain ⟨g, hgt, -, hgid⟩ := hst.get hf
      exact ⟨g, hgt, hgid.trans hg⟩

/-- A store with one login cookie, logged in or out. -/
def oneCookie (isgid : Bool) : Store :=
  .ofFiles [("cosign=abc".toList,
    ⟨recordText "10.0.0.1".toList "10.0.0.1".toList "ann".toList ["umich".toList] 100 none, isgid, 100⟩)]

/-- A peer says that the cookie is logged out. -/
def timeEnv : Env := { Env.calm 200 with lines := ["cosign=abc 100 0".toList, ".".toList] }

theorem oneCookie_isgid {b : Bool} {path : Str} {f : File} (h : (oneCookie b).get path = some f) : f.isgid = b := by
  simp only [oneCookie, Store.ofFiles, Store.get, List.lookup] at h
  split at h
  · cases h; rfl
  · cases h

theorem timeEnv_line : "cosign=abc 100 0".toList ∈ timeRead timeEnv.lines ∧
    TimeLine .default "cosign=abc 100 0".toList "cosign=abc".toList "0".toList :=
  ⟨by decide, "cosign=abc".toList, "100".toList, by decide, by decide, by decide⟩

/-- What `f_time` answers to the login server. -/
def timeDone : Done where
  ret := .ret 0
  out := [.line 360 "TIME: Send timestamps.".toList, .line 260 "TIME successful: we are now up-to-date".toList]

/-- The peer's logout is answered 260, and the cookie is still logged in. -/
theorem fTime_loses_logout :
    ¬ ∀ (cfg : Config) (ses : Session) (env : Env) (av : List Str) (s t : Store) (d : Done),
      Prog.run exec (fTime cfg ses env av) s = some (d, t) → d.answers 260 →
        TimePropagates cfg env.lines s t := by
  intro h
  have hrun : Prog.run exec (fTime .default .cgi timeEnv ["TIME".toList]) (oneCookie false) =
      some (timeDone, oneCookie false) := rfl
  obtain ⟨f, hf, hg, -⟩ := (h _ _ _ _ _ _ _ hrun (by decide)).out _ timeEnv_line.1 _ _ timeEnv_line.2
    (by decide) rfl
  rw [oneCookie_isgid hf] at hg
  cases hg

/-- Where the cookie was logged out already, the logout arrives. -/
theorem fTime_propagates_loggedOut :
    ∃ t, Prog.run exec (fTime .default .cgi timeEnv ["TIME".toList]) (oneCookie true) = some (timeDone, t) ∧
      TimePropagates .default timeEnv.lines (oneCookie true) t := by
  obtain ⟨d, t, h, -⟩ := fTime_keeps .default .cgi timeEnv ["TIME".toList] (oneCookie true)
  have hd : (Prog.run exec (fTime .default .cgi timeEnv ["TIME".toList]) (oneCookie true)).map Prod.fst =
      some timeDone := rfl
  rw [h] at hd
  cases hd
  exact ⟨t, h, (fTime_propagates_iff h (by decide)).2 fun _ _ _ _ _ _ _ hf => oneCookie_isgid hf⟩

end Cosign
