import Cosign.Daemon.Command
import Cosign.Daemon.Record
/-!
# What a handler does to the store

Each part of a handler as one equation on `run`, so that no later proof
unfolds it.
-/

namespace Cosign

open Lib

@[simp] theorem run_fsRead (p : Str) (s : Store) : Prog.run exec (fsRead p) s = some (s.get p, s) := rfl
@[simp] theorem run_fsUtime (p : Str) (t : Nat) (s : Store) :
    Prog.run exec (fsUtime p t) s = some (exec (.utime p t) s) := rfl
@[simp] theorem run_fsChmod (p : Str) (s : Store) : Prog.run exec (fsChmod p) s = some (exec (.chmod p) s) := rfl
@[simp] theorem run_fsUnlink (p : Str) (s : Store) : Prog.run exec (fsUnlink p) s = some (exec (.unlink p) s) := rfl
@[simp] theorem run_fsLink (p x : Str) (t : Nat) (s : Store) :
    Prog.run exec (fsLink p x t) s = some (exec (.link p x t) s) := rfl
@[simp] theorem run_fsRename (p x : Str) (t : Nat) (s : Store) :
    Prog.run exec (fsRename p x t) s = some (exec (.rename p x t) s) := rfl
@[simp] theorem run_fsMove (p q : Str) (s : Store) : Prog.run exec (fsMove p q) s = some (exec (.move p q) s) := rfl
@[simp] theorem run_fsCreat (p : Str) (t : Nat) (s : Store) :
    Prog.run exec (fsCreat p t) s = some (exec (.creat p t) s) := rfl
@[simp] theorem run_fsAppend (p x : Str) (t : Nat) (s : Store) :
    Prog.run exec (fsAppend p x t) s = some (exec (.append p x t) s) := rfl

theorem run_failing {α : Type} (fails : Bool) (err : α) (p : Handler α) (s : Store) :
    Prog.run exec (failing fails err p) s = if fails then some (err, s) else Prog.run exec p s := by
  unfold failing
  split <;> rfl

/-! ## Reading cookies -/

/-- `read_cookie` in a store. -/
def Store.cookie (s : Store) (path : Str) : Option (Int × Cinfo) :=
  match s.get path with
  | none => some (1, .zero)
  | some f => parseCookie f

theorem cookie_congr {s t : Store} {p : Str} (h : t.get p = s.get p) : t.cookie p = s.cookie p := by
  simp only [Store.cookie, h]

theorem cookie_file {s : Store} {path : Str} {ci : Cinfo} (h : s.cookie path = some (0, ci)) :
    ∃ f, s.get path = some f ∧ parseCookie f = some (0, ci) := by
  unfold Store.cookie at h
  split at h
  · cases h
  · rename_i f hf; exact ⟨f, hf, h⟩

/-- The same where `fopen` may fail. -/
def Store.opened (s : Store) (env : Env) (path : Str) : Option (Int × Cinfo) :=
  if env.fails .fopen 0 then some (-1, .zero) else s.cookie path

def Store.service (s : Store) (env : Env) (path : Str) : Option Str :=
  if env.fails .fopen 1 then none else (s.get path).bind fun f => parseService f.text

@[simp] theorem run_readCookie (path : Str) (s : Store) :
    Prog.run exec (readCookie path) s = (s.cookie path).map fun x => (x, s) := by
  simp only [readCookie, Prog.run_bind, run_fsRead, Option.bind_some, Store.cookie]
  cases s.get path with
  | none => rfl
  | some f => exact Prog.run_orUndef ..

@[simp] theorem run_openCookie (env : Env) (path : Str) (s : Store) :
    Prog.run exec (openCookie env path) s = (s.opened env path).map fun x => (x, s) := by
  rw [openCookie, run_failing, Store.opened]
  split
  · rfl
  · exact run_readCookie path s

@[simp] theorem run_openService (env : Env) (path : Str) (s : Store) :
    Prog.run exec (openService env path) s = some (s.service env path, s) := by
  rw [openService, run_failing, Store.service]
  split
  · rfl
  · simp only [serviceToLogin, Prog.run_bind, run_fsRead, Option.bind_some]
    cases s.get path <;> rfl

/-! ## Logging out and registering -/

@[simp] theorem run_doLogout (fails : Bool) (now : Nat) (path : Str) (s : Store) :
    Prog.run exec (doLogout fails now path) s =
      some (match fails, s.get path with
        | false, some f => (0, s.put path (some { f with isgid := true, mtime := now }))
        | _, _ => (-1, s)) := by
  cases fails with
  | true => rfl
  | false =>
    simp only [doLogout, Bool.false_eq_true, if_false, Prog.run_bind, run_fsChmod, Option.bind_some, exec]
    cases h : s.get path with
    | none => rfl
    | some f => simp [exec]

end Cosign
