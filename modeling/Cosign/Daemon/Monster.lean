import Cosign.Daemon.Session
/-!
# `monster`

The sweeper reads every cookie's directory, deletes the login cookies that
are logged out, idle or too old, and deletes a service cookie once its login
cookie is gone. For its peers it reports each login cookie's time and state.
-/

namespace Cosign

open Lib

/-- `eat_cookie`: -1, 0 for a cookie that is gone, or 1 with its time and
state. -/
inductive Eaten where
  | failed
  | gone
  | good (itime state : Nat)
  deriving DecidableEq

/-- The three rules for a cookie that must go. -/
def expired (cfg : Config) (now : Nat) (ci : Cinfo) : Prop :=
  (ci.state = 0 ∧ (now : Int) - ci.itime > cfg.loggedoutCache) ∨
    (now : Int) - ci.itime > cfg.idleCache ∨ (now : Int) - atoi ci.ctime > cfg.hardTimeout

instance (cfg : Config) (now : Nat) (ci : Cinfo) : Decidable (expired cfg now ci) := by
  unfold expired; infer_instance

def eatCookie (cfg : Config) (now : Nat) (name : Str) : Handler Eaten := do
  let (rc, ci) ← readCookie name
  if rc < 0 then return .failed
  else if rc = 1 then return .gone
  else if expired cfg now ci then
    if ci.krbtkt ≠ [] then
      let _ ← fsUnlink ci.krbtkt
    let _ ← fsUnlink name
    return .gone
  else return .good ci.itime ci.state

/-- What a sweep has for its peers so far, and the time and state
`eat_cookie` last wrote, which the next report repeats when its own cookie is
gone. -/
structure Sweep where
  itime : Nat := 0
  state : Nat := 0
  report : List (Str × Nat × Nat) := []

def Sweep.told (w : Sweep) (name : Str) : Eaten → Sweep
  | .failed => w
  | .gone => { w with report := w.report ++ [(name, w.itime, w.state)] }
  | .good itime state => { itime, state, report := w.report ++ [(name, itime, state)] }

/-- One directory entry. `none` is `exit(1)`. -/
def doEntry (cfg : Config) (now : Nat) (w : Sweep) (name : Str) : Handler (Option Sweep) :=
  match mkcookiepath none cfg.hashlen name maxPathLen with
  | none => pure (some w)
  | some path =>
    if hasPrefix "cosign=".toList name then do
      let r ← eatCookie cfg now path
      return some (w.told name r)
    else if hasPrefix "cosign-".toList name then do
      match ← serviceToLogin path with
      | none => return some w
      | some login =>
        match mkcookiepath none cfg.hashlen login maxPathLen with
        | none => return none
        | some lpath =>
          match ← eatCookie cfg now lpath with
          | .failed => return some w
          | .gone => do
            let _ ← fsUnlink path
            return some w
          | .good itime state => return some { w with itime, state }
    else pure (some w)

def doEntries (cfg : Config) (now : Nat) : Sweep → List Str → Handler (Option Sweep)
  | w, [] => pure (some w)
  | w, name :: rest => do
    match ← doEntry cfg now w name with
    | none => return none
    | some w => doEntries cfg now w rest

/-- The directories of a sweep. -/
def hashDirs (hashlen : Int) : Option (List Str) :=
  let chars := "abcdefghijklmnopqrstuvwxyzABCDEFGHIJKLMNOPQRSTUVWXYZ0123456789+-".toList
  match hashlen with
  | 0 => some [".".toList]
  | 1 => some (chars.map fun p => [p])
  | 2 => some (chars.flatMap fun p => chars.map fun q => [p, q])
  | _ => none

/-- `do_dir` on each directory in turn. `ls` is what `readdir` lists, `none`
where `opendir` fails. `report` goes on from one directory to the next. -/
def doDirs (cfg : Config) (now : Nat) (ls : Str → Option (List Str)) :
    List (Str × Nat × Nat) → List Str → Handler (Option (List (Str × Nat × Nat)))
  | report, [] => pure (some report)
  | report, dir :: rest =>
    match ls dir with
    | none => pure none
    | some names => do
      match ← doEntries cfg now { report } names with
      | none => return none
      | some w => doDirs cfg now ls w.report rest

/-- A sweep at time `now`. `none` is `exit(1)`. -/
def sweep (cfg : Config) (now : Nat) (ls : Str → Option (List Str)) :
    Handler (Option (List (Str × Nat × Nat))) :=
  match hashDirs cfg.hashlen with
  | none => pure none
  | some dirs => doDirs cfg now ls [] dirs

end Cosign
