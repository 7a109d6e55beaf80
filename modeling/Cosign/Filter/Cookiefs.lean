import Cosign.Filter.Connect
/-!
# Is a cookie valid

`cosign_cookie_valid`: the record of the service cookie if it is young enough,
and a server otherwise. `World` is what such calls run in: the records, the
clock, and what the servers have said so far.
-/

namespace Cosign.Filter

open Lib

def idleTime : Nat := 60

structure Valid where
  rc : Rc
  rekey : Rekey
  si : Sinfo
  cl : List Conn

/-! ## `cosign_cookie_valid` -/

/-- The record is young enough to be used. -/
def fresh (tv : Nat) (lsi : Sinfo) : Bool := (tv : Int) - lsi.itime ≤ idleTime

/-- The decision over a young record: nothing where a server is to be asked.
The first part is what it leaves in `*si` either way. -/
def cached (cfg : HostConfig) (ipaddr : Str) (si lsi : Sinfo) : Sinfo × Option Sinfo :=
  if cfg.checkip = .always ∧ ipaddr ≠ lsi.ipaddr then (si, none)
  else
    let si := { si with factor := lsi.factor, protocol := lsi.protocol }
    if cfg.reqfv ≠ [] ∧ supportsFactors si.protocol ∧ ¬ cfg.reqfv.all (· ∈ acavParse lsi.factor) then (si, none)
    else
      (si, some { si with
        ipaddr := lsi.ipaddr
        user := lsi.user
        realm := lsi.realm
        krb5tkt := if cfg.krbtkt then lsi.krb5tkt else si.krb5tkt })

/-- What is left of a young record that does not decide: `acav_parse` has cut its
factors where they lie, if it came to them. -/
def recordLeft (cfg : HostConfig) (ipaddr : Str) (lsi : Sinfo) : Sinfo :=
  if cfg.checkip = .always ∧ ipaddr ≠ lsi.ipaddr then lsi
  else if cfg.reqfv ≠ [] ∧ supportsFactors lsi.protocol then { lsi with factor := lineLeft lsi.factor }
  else lsi

/-- The path of the new record. -/
def storePath (cfg : HostConfig) (path : Str) : Rekey → Option Str
  | some (some name) => mkcookiepath (some cfg.filterdb) cfg.hashlen name maxPathLen
  | _ => some path

/-- From `storecookie` on, `again` being the jump to `retry`. -/
def storeCookie (cfg : HostConfig) (path : Str) (newfile : Bool) (v : Valid)
    (again : Str → FProg Valid) : FProg Valid :=
  match storePath cfg path v.rekey with
  | none => pure { v with rc := .error }
  | some path => do
    let ok ← fCall (.mktmp cfg.filterdb)
    if !ok then return { v with rc := .error }
    if !newfile then
      let ok ← fCall (.rename path (recordText v.si))
      return { v with rc := if ok then .ok else .error }
    let ok ← fCall (.link path (recordText v.si))
    if ok then return { v with rc := .ok } else again path

/-- From `netcheck` on. -/
def netcheck (rounds : Nat) (cfg : HostConfig) (cookie ipaddr path : Str) (newfile : Bool) (lsi : Sinfo) (rekey : Rekey)
    (si : Sinfo) (cl : List Conn) (again : Str → Valid → FProg Valid) : FProg Valid := do
  let c ← checkCookie rounds cfg cookie rekey si newfile cl
  let v : Valid := ⟨c.rc, c.rekey, c.si, c.cl⟩
  if v.rc ≠ .ok then return v
  if cfg.checkip = .always ∧ ipaddr ≠ v.si.ipaddr then return { v with rc := .retry }
  if !newfile then
    let v := { v with si := { v.si with krb5tkt := if cfg.krbtkt then lsi.krb5tkt else v.si.krb5tkt } }
    if v.si.user ≠ lsi.user then return { v with rc := .error }
    if v.si.realm ≠ lsi.realm then return { v with rc := .error }
    if v.si.ipaddr ≠ lsi.ipaddr ∨ supportsFactors v.si.protocol ∧ v.si.factor ≠ lsi.factor then
      storeCookie cfg path false v fun path => again path v
    else
      fCall (.utime path)
      return { v with rc := .ok }
  else if cfg.checkip = .initial ∧ ipaddr ≠ v.si.ipaddr then return { v with rc := .retry }
  else storeCookie cfg path true v fun path => again path v

/-- From `retry` on, `rounds` being how often it can be gone through. -/
def retry (cfg : HostConfig) (cookie ipaddr : Str) (tv : Nat) : (rounds : Nat) → Str → Valid → FProg Valid
  | 0, _, _ => .undef
  | n + 1, path, v => do
    let file ← fCall (.read path)
    let (newfile, lsi) ← Prog.orUndef (readScookie file)
    if newfile < 0 then return { v with rc := .error }
    if newfile = 0 ∧ fresh tv lsi then
      match cached cfg ipaddr v.si lsi with
      | (_, some si) => return { v with rc := .ok, si }
      | (si, none) =>
        netcheck n cfg cookie ipaddr path false (recordLeft cfg ipaddr lsi) v.rekey si v.cl (retry cfg cookie ipaddr tv n)
    else netcheck n cfg cookie ipaddr path (newfile ≠ 0) lsi v.rekey v.si v.cl (retry cfg cookie ipaddr tv n)

def cookieValid (rounds : Nat) (cfg : HostConfig) (cookie : Str) (rekey : Rekey) (ipaddr : Str) (cl : List Conn) :
    FProg Valid := do
  let v : Valid := ⟨.error, rekey, .zero, cl⟩
  let ok ← fCall (.access cfg.filterdb)
  if !ok then return v
  match mkcookiepath (some cfg.filterdb) cfg.hashlen cookie maxPathLen with
  | none => return v
  | some path =>
    match ← fCall .gettimeofday with
    | none => return v
    | some tv => retry cfg cookie ipaddr tv rounds path v

/-! ## The world -/

/-- A record of the filter. -/
structure SFile where
  text : Str
  mtime : Nat
  deriving DecidableEq

/-- An answer, with the command it followed. -/
structure Answer where
  conn : Conn
  sent : Str
  line : Str
  time : Nat

structure World where
  files : Str → Option SFile
  clock : Nat
  /-- What was written last to each server. -/
  sent : Nat → Str
  heard : List Answer

/-- The clock may go on. -/
def World.Later (w w' : World) : Prop := w.clock ≤ w'.clock ∧ w'.files = w.files ∧ w'.sent = w.sent ∧ w'.heard = w.heard

/-- A record is written, in the time the call takes. -/
def World.Writes (w w' : World) (path text : Str) : Prop :=
  ∃ m, w.clock ≤ m ∧ m ≤ w'.clock ∧ w'.files = Function.update w.files path (some ⟨text, m⟩) ∧ w'.sent = w.sent ∧
    w'.heard = w.heard

/-- What an operation may answer, and the world it leaves. -/
def filterStep : (o : FilterOp) → World → FilterAns o → World → Prop
  | .gettimeofday, w, r, w' => w.Later w' ∧ ∀ t, r = some t → t = w'.clock
  | .read path, w, r, w' =>
    w.Later w' ∧ (r = .missing ∨ r = .failed ∨ ∃ f, w.files path = some f ∧ r = .file f.text f.mtime)
  | .rename path text, w, r, w' => if r then w.Writes w' path text else w.Later w'
  | .link path text, w, r, w' => if r then w.files path = none ∧ w.Writes w' path text else w.Later w'
  | .utime path, w, _, w' =>
    w.Later w' ∨ ∃ f, w.files path = some f ∧ w.clock ≤ w'.clock ∧ w'.sent = w.sent ∧ w'.heard = w.heard ∧
      w'.files = Function.update w.files path (some { f with mtime := w'.clock })
  | .writef server line, w, r, w' =>
    w.clock ≤ w'.clock ∧ w'.files = w.files ∧ w'.heard = w.heard ∧
      w'.sent = if r then Function.update w.sent server line else w.sent
  | .getlineMulti conn, w, r, w' =>
    w.clock ≤ w'.clock ∧ w'.files = w.files ∧ w'.sent = w.sent ∧
      w'.heard = w.heard ++ (r.map fun line => ⟨conn, w.sent conn.server, line, w'.clock⟩).toList ∧
      ∀ line, r = some line → OneLine line
  | _, w, _, w' => w.Later w'

end Cosign.Filter
