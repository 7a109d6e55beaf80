import Cosign.Lib.Prog
import Cosign.Common.Mkcookie
/-!
# The cookie store

`cosignd` and `monster` keep one file per cookie and share them through the
file system alone. A handler writes a record to a temporary file and then
gives it its name with `link` or `rename`, so here those two calls carry the
text. A login cookie is logged out by the set-gid bit of its file.
-/

namespace Cosign

open Lib

structure File where
  text : Str
  isgid : Bool
  mtime : Nat
  deriving DecidableEq

structure Store where
  file : Str → Option File
  dirs : Str → Bool

/-- A leading `./` is the directory the daemon runs in. -/
def resolve : Str → Str
  | '.' :: '/' :: p => p
  | p => p

def dirname (p : Str) : Str := ((p.reverse.dropWhile (· ≠ '/')).drop 1).reverse

/-- A file can be made at `p`. -/
def Store.hasDir (s : Store) (p : Str) : Bool := '/' ∉ resolve p || s.dirs (dirname (resolve p))

def Store.get (s : Store) (p : Str) : Option File := s.file (resolve p)

/-- The file under a name becomes `f`. -/
def Store.put (s : Store) (p : Str) (f : Option File) : Store :=
  { s with file := Function.update s.file (resolve p) f }

/-- A store of these files, in one directory. -/
def Store.ofFiles (files : List (Str × File)) : Store where
  file p := files.lookup p
  dirs _ := false

inductive LinkAns where
  | ok
  | eexist
  | failed
  deriving DecidableEq

inductive FsOp where
  | read (p : Str)
  | link (p text : Str) (now : Nat)
  | rename (p text : Str) (now : Nat)
  | move (p q : Str)
  | chmod (p : Str)
  | utime (p : Str) (t : Nat)
  | unlink (p : Str)
  | creat (p : Str) (now : Nat)
  | append (p data : Str) (now : Nat)
  deriving DecidableEq

abbrev FsAns : FsOp → Type
  | .read _ => Option File
  | .link .. => LinkAns
  | _ => Bool

/-- The path an operation changes, and for `move` the one it takes away. -/
def FsOp.targets : FsOp → List Str
  | .read _ => []
  | .link p _ _ | .rename p _ _ | .chmod p | .utime p _ | .unlink p | .creat p _ | .append p _ _ => [resolve p]
  | .move p q => [resolve p, resolve q]

/-- One system call. -/
def exec : (o : FsOp) → Store → FsAns o × Store
  | .read p, s => (s.get p, s)
  | .link p text now, s =>
    match s.get p with
    | some _ => (.eexist, s)
    | none => if s.hasDir p then (.ok, s.put p (some ⟨text, false, now⟩)) else (.failed, s)
  | .rename p text now, s =>
    if s.hasDir p then (true, s.put p (some ⟨text, false, now⟩)) else (false, s)
  | .move p q, s =>
    match s.get p with
    | none => (false, s)
    | some f =>
      if s.hasDir q then (true, (s.put p none).put q (some f)) else (false, s)
  | .chmod p, s =>
    match s.get p with
    | none => (false, s)
    | some f => (true, s.put p (some { f with isgid := true }))
  | .utime p t, s =>
    match s.get p with
    | none => (false, s)
    | some f => (true, s.put p (some { f with mtime := t }))
  | .unlink p, s =>
    match s.get p with
    | none => (false, s)
    | some _ => (true, s.put p none)
  | .creat p now, s =>
    match s.get p with
    | some _ => (false, s)
    | none => if s.hasDir p then (true, s.put p (some ⟨[], false, now⟩)) else (false, s)
  | .append p data now, s =>
    match s.get p with
    | none => (true, s)
    | some f => (true, s.put p (some { f with text := f.text ++ data, mtime := now }))

/-- A command handler, or the part of one. -/
abbrev Handler := Prog FsOp FsAns

def fsRead (p : Str) : Handler (Option File) := Prog.call (FsOp.read p)
def fsLink (p text : Str) (now : Nat) : Handler LinkAns := Prog.call (FsOp.link p text now)
def fsRename (p text : Str) (now : Nat) : Handler Bool := Prog.call (FsOp.rename p text now)
def fsMove (p q : Str) : Handler Bool := Prog.call (FsOp.move p q)
def fsChmod (p : Str) : Handler Bool := Prog.call (FsOp.chmod p)
def fsUtime (p : Str) (t : Nat) : Handler Bool := Prog.call (FsOp.utime p t)
def fsUnlink (p : Str) : Handler Bool := Prog.call (FsOp.unlink p)
def fsCreat (p : Str) (now : Nat) : Handler Bool := Prog.call (FsOp.creat p now)
def fsAppend (p data : Str) (now : Nat) : Handler Bool := Prog.call (FsOp.append p data now)

/-! ## Reading back -/

@[simp] theorem Store.put_get (s : Store) (p : Str) (f : Option File) : (s.put p f).get p = f := by
  simp [Store.put, Store.get]

theorem get_congr {s : Store} {p q : Str} (h : resolve p = resolve q) : s.get p = s.get q := by
  simp only [Store.get, h]

theorem Store.put_get_ne (s : Store) {p q : Str} (h : resolve q ≠ resolve p) (f : Option File) :
    (s.put p f).get q = s.get q := by
  simp [Store.put, Store.get, h]

@[simp] theorem Store.put_dirs (s : Store) (p : Str) (f : Option File) : (s.put p f).dirs = s.dirs := rfl

@[simp] theorem Store.put_hasDir (s : Store) (p q : Str) (f : Option File) :
    (s.put p f).hasDir q = s.hasDir q := rfl

@[simp] theorem Store.put_put (s : Store) (p : Str) (f g : Option File) : (s.put p f).put p g = s.put p g := by
  simp [Store.put]

/-- Every file an operation does not target stays as it is. -/
theorem exec_frame (o : FsOp) (s : Store) {q : Str} (h : resolve q ∉ o.targets) : (exec o s).2.get q = s.get q := by
  cases o <;> simp only [exec, FsOp.targets, List.mem_cons, List.not_mem_nil, or_false, not_or] at h ⊢ <;>
    (repeat' split) <;> first
      | rfl
      | rw [Store.put_get_ne _ h]
      | rw [Store.put_get_ne _ h.2, Store.put_get_ne _ h.1]

theorem basename_cons {q : Str} (h : '/' ∈ q) (c : Char) : basename (c :: q) = basename q := by
  obtain ⟨a, b, hq, hn⟩ := List.eq_append_cons_of_mem (List.mem_reverse.2 h)
  have hq : q = b.reverse ++ '/' :: a.reverse := by rw [← List.reverse_reverse q, hq]; simp
  have hn : '/' ∉ a.reverse := fun hm => hn (List.mem_reverse.1 hm)
  rw [hq, basename_append _ _ hn, ← List.cons_append, basename_append _ _ hn]

theorem basename_resolve (p : Str) : basename (resolve p) = basename p := by
  unfold resolve
  split
  · rename_i q
    rw [basename_cons (by simp)]
    by_cases hq : '/' ∈ q
    · rw [basename_cons hq]
    · rw [basename_self q hq]
      exact (basename_append [] q hq).symm
  · rfl

/-- The file of a cookie. -/
theorem resolve_mkcookiepath {h : Int} {c p : Str} {n : Nat} (hp : mkcookiepath none h c n = some p) :
    basename (resolve p) = c := by
  rw [basename_resolve, (mkcookiepath_spec hp).1]

theorem resolve_inj {h : Int} {c d p q : Str} {n m : Nat} (hc : mkcookiepath none h c n = some p)
    (hd : mkcookiepath none h d m = some q) (he : resolve p = resolve q) : c = d := by
  rw [← resolve_mkcookiepath hc, he, resolve_mkcookiepath hd]

end Cosign
