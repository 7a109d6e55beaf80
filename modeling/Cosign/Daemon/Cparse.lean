import Cosign.Daemon.Store
import Cosign.Common.Argcargv
/-!
# Cookie records

A login cookie's record has one line per field, each with a letter in front.
`read_cookie` reads them in any order after the version and state lines and
copies each into a buffer of fixed size. Where the copy would overrun the
buffer the source is undefined, and so is the handler here. A service cookie
holds the name of its login cookie.
-/

namespace Cosign

open Lib

/-- `struct cinfo`. -/
structure Cinfo where
  version : Int
  state : Nat
  ipaddr : Str
  ipaddrCur : Str
  user : Str
  realm : Str
  ctime : Str
  krbtkt : Str
  itime : Nat
  deriving DecidableEq

/-- `memset(ci, 0, sizeof(struct cinfo))` -/
def Cinfo.zero : Cinfo := ⟨0, 0, [], [], [], [], [], [], 0⟩

/-- The fields a line of the record can fill. -/
inductive Field where
  | ipaddr
  | ipaddrCur
  | user
  | realm
  | ctime
  | krbtkt
  deriving DecidableEq

namespace Field

/-- The `switch` on the first letter of a line. -/
def ofKey (c : Char) : Option Field :=
  if c = 'i' then some ipaddr
  else if c = 'j' then some ipaddrCur
  else if c = 'p' then some user
  else if c = 'r' then some realm
  else if c = 't' then some ctime
  else if c = 'k' then some krbtkt
  else none

/-- The size of its buffer. -/
def size : Field → Nat
  | ipaddr | ipaddrCur | realm => 256
  | user => 130
  | ctime => 12
  | krbtkt => maxPathLen

def get (ci : Cinfo) : Field → Str
  | ipaddr => ci.ipaddr
  | ipaddrCur => ci.ipaddrCur
  | user => ci.user
  | realm => ci.realm
  | ctime => ci.ctime
  | krbtkt => ci.krbtkt

def put (ci : Cinfo) (v : Str) : Field → Cinfo
  | ipaddr => { ci with ipaddr := v }
  | ipaddrCur => { ci with ipaddrCur := v }
  | user => { ci with user := v }
  | realm => { ci with realm := v }
  | ctime => { ci with ctime := v }
  | krbtkt => { ci with krbtkt := v }

theorem get_put (ci : Cinfo) (v : Str) (f g : Field) : g.get (f.put ci v) = if g = f then v else g.get ci := by
  cases f <;> cases g <;> rfl

end Field

inductive FieldAns where
  | unknown
  | overrun
  | stored (ci : Cinfo)

/-- One line, without its newline. The copy is a `strcpy`. -/
def storeField (ci : Cinfo) : Str → FieldAns
  | [] => .unknown
  | k :: p =>
    match Field.ofKey k with
    | none => .unknown
    | some f => if p.length < f.size then .stored (f.put ci p) else .overrun

/-- The lines after version and state. `none` is an overrun. -/
def cookieFields (ci : Cinfo) : List Str → Option (Int × Cinfo)
  | [] => some (0, ci)
  | l :: ls =>
    if l.getLast? ≠ some '\n' then some (-1, ci)
    else match storeField ci l.dropLast with
      | .unknown => some (-1, ci)
      | .overrun => none
      | .stored ci => cookieFields ci ls

/-- `read_cookie` on the text of a file. -/
def parseCookie (f : File) : Option (Int × Cinfo) :=
  let ci := { Cinfo.zero with itime := f.mtime }
  let (v, rest) := fgets 3 f.text
  if v.getLast? ≠ some '\n' then some (-1, ci)
  else match v.dropLast with
    | 'v' :: p =>
      let ci := { ci with version := atoi p }
      if ci.version ≠ 2 then some (-1, ci)
      else
        let (st, rest) := fgets 3 rest
        if st = [] then some (-1, ci)
        else
          let ci := { ci with state := if f.isgid then 0 else 1 }
          cookieFields ci (fgetsAll (maxPathLen + 1) (rest.length + 1) rest)
    | _ => some (-1, ci)

/-- `read_cookie`: 0, 1 for a missing file, -1 for a bad one. -/
def readCookie (path : Str) : Handler (Int × Cinfo) := do
  match ← fsRead path with
  | none => pure (1, .zero)
  | some f => Prog.orUndef (parseCookie f)

/-- The login cookie a service cookie's text names. -/
def parseService (text : Str) : Option Str :=
  let (l, _) := fgets (maxCookieLen + 1) text
  if l.getLast? ≠ some '\n' then none
  else match l.dropLast with
    | 'l' :: p => some p
    | _ => none

/-- `service_to_login` -/
def serviceToLogin (service : Str) : Handler (Option Str) := do
  match ← fsRead service with
  | none => pure none
  | some f => pure (parseService f.text)

/-- `do_logout` at time `now`, with `chmodFails` for an error of `chmod`. -/
def doLogout (chmodFails : Bool) (now : Nat) (path : Str) : Handler Int := do
  if chmodFails then return -1
  let ok ← fsChmod path
  if ok = false then return -1
  let _ ← fsUtime path now
  return 0

end Cosign
