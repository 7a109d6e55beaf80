import Cosign.Common.Text
/-!
# Services and hosts of `cosign.conf`

The two lists `read_config` builds and the searches over them. The regular
expressions are the C library's, so `regexec` is a parameter.
-/

namespace Cosign

inductive Key where
  | notauth
  | cgi
  | service
  | daemon
  deriving DecidableEq

structure Proxies where
  hostname : Str
  cookie : Str

structure AuthList where
  hostname : Str
  key : Key
  /-- `AL_PROXY` -/
  proxy : Bool
  proxies : List Proxies

/-- `COSIGN_MAXFACTORS`, which the banner advertises. -/
def cosignMaxFactors : Nat := 5

structure ServiceList where
  cookie : Str
  cookiesub : Option Str
  /-- `SL_TICKET` -/
  ticket : Bool
  /-- `SL_REAUTH` -/
  reauth : Bool
  factors : List Str
  auth : AuthList

/-- `regcomp` and `regexec`: an error, no match, or the offsets `rm_so` and
`rm_eo` of each group (`-1` for a group that took no part). -/
inductive RegResult where
  | error
  | nomatch
  | found (rm : Nat → Int × Int)

structure Regex where
  exec : (icase : Bool) → (pattern subject : Str) → RegResult

variable (re : Regex)

/-- The first service whose pattern matches the whole name. -/
def serviceFind : List ServiceList → Str → Option ServiceList
  | [], _ => none
  | cur :: rest, cookie =>
    match re.exec false cur.cookie cookie with
    | .found rm => if rm 0 = (0, (cookie.length : Int)) then some cur else serviceFind rest cookie
    | _ => serviceFind rest cookie

def authlistFind : List AuthList → Str → Option AuthList
  | [], _ => none
  | cur :: rest, hostname =>
    match re.exec true cur.hostname hostname with
    | .error => none
    | .nomatch => authlistFind rest hostname
    | .found _ => some cur

/-- How many characters `strtol(p, &numend, 10)` takes. -/
def numLength (p : Str) : Nat :=
  let sp := (p.takeWhile isspace).length
  let sign := match p.drop sp with
    | '-' :: _ => 1
    | '+' :: _ => 1
    | _ => 0
  let ds := ((p.drop (sp + sign)).takeWhile Char.isDigit).length
  if ds = 0 then 0 else sp + sign + ds

/-- `match_substitute` into a buffer of `len` characters. The outer `none` is a
read before `matches[0]`, the inner one the result `-1`. -/
def matchSubstitute (len nmatch : Nat) (rm : Nat → Int × Int) (source : Str) :
    (pattern out : Str) → Option (Option Str)
  | [], out => some (if out.length + 1 ≥ len then none else some out)
  | [c], out =>
    if c = '$' then some none
    else if out.length + 1 ≥ len then some none
    else matchSubstitute len nmatch rm source [] (out ++ [c])
  | c :: d :: p, out =>
    if c ≠ '$' then
      if out.length + 1 ≥ len then some none else matchSubstitute len nmatch rm source (d :: p) (out ++ [c])
    else if d = '$' ∨ numLength (d :: p) = 0 then
      if out.length + 1 ≥ len then some none else matchSubstitute len nmatch rm source p (out ++ ['$'])
    else
      let n := numLength (d :: p)
      let i := atoi (d :: p)
      if i ≥ nmatch then
        if out.length + 1 + n ≥ len then some none
        -- the loop goes on after one character, so the rest of the number is copied again
        else matchSubstitute len nmatch rm source p (out ++ '$' :: (d :: p).take n)
      else if i < 0 then none
      else
        let (so, eo) := rm i.toNat
        if out.length + (eo - so).toNat ≥ len then some none
        else matchSubstitute len nmatch rm source p (out ++ (source.drop so.toNat).take (eo - so).toNat)

end Cosign
