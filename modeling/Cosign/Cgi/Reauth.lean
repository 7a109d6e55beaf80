import Cosign.Lib.Wp
import Cosign.Cgi.Check
import Cosign.Cgi.Cookies
import Cosign.Common.Readconf
import Cosign.Filter.Connect
/-!
# Services that ask for the password again

From a well-formed cookie on, `cosign.cgi` registers a service in one of two
places: over a query string, and after a POST. Both know services with
`SL_REAUTH`, and each has its own way to make sure of it.
-/

namespace Cosign.Cgi

open Lib

/-! ## The request -/

/-- A request with its cookie, once the query string has been read. -/
structure Query where
  post : Bool
  /-- The login cookie, cut before its time. -/
  cookie : Str
  ip : Str
  remoteUser : Option Str
  realm : Str
  krbtkt : Option Str
  /-- The query string begins with the word basic. -/
  rebasic : Bool
  rebasic_user : rebasic = true → remoteUser.isSome
  /-- `service` and `ref` of the query string. -/
  service : Option Str
  /-- `factors=` -/
  factor : Option Str
  /-- What was posted under a name. -/
  fields : Str → Option Str

/-- What the CGI takes from its configuration, and how it was built. -/
structure Setup where
  /-- It was built with `SQL_FRIEND`. -/
  sqlFriend : Bool
  /-- It was built with `KRB`. -/
  krb : Bool
  /-- `krb5_get_default_realm` -/
  defaultRealm : Str
  services : List Service
  authenticators : List Matchlist
  factors : List Factorlist
  suffix : Option Str

inductive Page where
  | login
  | error
  | menu
  | service
  deriving DecidableEq

/-! ## What the CGI asks of the world -/

inductive CgiOp where
  /-- `cosign_check` -/
  | check (cookie : Str)
  /-- `cosign_login` -/
  | login (cookie ip user realm : Str) (krbtkt : Option Str)
  /-- `cosign_login_mysql` or `cosign_login_krb5` -/
  | password (type id realm : Str)
  | execfactor (fl : Factorlist)
  /-- `RAND_bytes` -/
  | random
  /-- `cosign_register` -/
  | register (cookie ip service : Str)

inductive PasswordAns where
  | ok
  | error
  | expired
  /-- It has shown a page of its own. -/
  | exit
  deriving DecidableEq

inductive FactorAns where
  | ok (msg : Str)
  | error
  | expired
  | exit

abbrev CgiAns : CgiOp → Type
  | .check _ => Bool × UserInfo
  | .login .. | .register .. => Bool
  | .password .. => PasswordAns
  | .execfactor _ => FactorAns
  | .random => Rand

abbrev CgiProg := Prog CgiOp CgiAns

def cgiCall (o : CgiOp) : CgiProg (CgiAns o) := Prog.call o

/-! ## Services and factors -/

variable (re : Regex)

/-- `service_find`, with the offsets of the match. -/
def serviceFind : List Service → Str → Option (Service × (Nat → Int × Int))
  | [], _ => none
  | cur :: rest, cookie =>
    match re.exec false cur.cookie cookie with
    | .found rm => if rm 0 = (0, (cookie.length : Int)) then some (cur, rm) else serviceFind rest cookie
    | _ => serviceFind rest cookie

/-- The part of a service that `service_find` is given. -/
def serviceName (service : Str) : Str := service.takeWhile (· ≠ '=')

def matchFactor (required satisfied : Str) (suffix : Option Str) : Bool :=
  required = satisfied || Filter.suffixed suffix required satisfied

/-- `strtok` with a comma. -/
def commaWords (s : Str) : List Str := (s.splitOn ',').filter (· ≠ [])

/-- `new_factors` with one more. -/
def addFactor (new : List Str) (f : Str) : List Str :=
  if f ∈ new then new else if new.length < cosignMaxFactors - 1 then new ++ [f] else new

/-- The service's entry, if its page can be made and it may use the scheme. -/
def lookup (setup : Setup) (service : Str) : CgiProg (Option Service) :=
  match serviceFind re setup.services (serviceName service) with
  | none => pure none
  | some (s, rm) => do
    let buf ← Prog.orUndef (matchSubstitute 1024 2 rm service s.wkurl [])
    if buf.isNone then return none
    if '=' ∈ service ∧ s.schemeV2 = false then return none
    return some s

/-- Scheme 3 makes a new service cookie. -/
def registerService (q : Query) (service : Str) : CgiProg Page := do
  if '=' ∈ service then
    let ok ← cgiCall (.register q.cookie q.ip service)
    return if ok then .service else .error
  let rand ← cgiCall .random
  match mkscookie service 255 rand with
  | none => return .error
  | some newScookie =>
    let ok ← cgiCall (.register q.cookie q.ip newScookie)
    return if ok then .service else .error

/-! ## A service in the query string -/

/-- The implicit login of basic. -/
def basicLogin (q : Query) : CgiProg Bool :=
  if q.rebasic then cgiCall (.login q.cookie q.ip (q.remoteUser.getD []) q.realm q.krbtkt) else pure true

/-- After that login. -/
def getRegister (setup : Setup) (q : Query) (service : Str) : CgiProg Page := do
  match ← lookup re setup service with
  | none => return .error
  | some s =>
    if q.rebasic = false ∧ s.reauth then
      let _ ← cgiCall (.check q.cookie)
      return .login
    let (ok, ui) ← cgiCall (.check q.cookie)
    if !ok then return .login
    if ui.ipaddr ≠ q.ip then return .login
    if !((commaWords (q.factor.getD [])).all fun r => ui.factors.any fun f => matchFactor r f setup.suffix) then
      return .login
    registerService q service

def getPath (setup : Setup) (q : Query) (service : Str) : CgiProg Page := do
  let ok ← basicLogin q
  if !ok then return .error
  getRegister re setup q service

/-! ## A POST -/

/-- What a password authenticator adds to `new_factors`. -/
def passwordFactor (setup : Setup) (type realm : Str) : Str :=
  if type = "mysql".toList then "friend".toList else if realm = [] then setup.defaultRealm else realm

/-- The CGI was built with the authenticator. -/
def Setup.has (setup : Setup) (type : Str) : Bool :=
  (setup.sqlFriend && type = "mysql".toList) || (setup.krb && type = "kerberos".toList)

/-- The authenticators that want the login, one after another: the new factors,
or the page. -/
def passwordLoop (setup : Setup) (login : Str) :
    (rounds : Nat) → (pos : Option Nat) → (expired : Bool) → CgiProg (Page ⊕ List Str)
  | 0, _, _ => .undef
  | n + 1, pos, expired => do
    match ← Prog.orUndef (pickAuthenticator re setup.authenticators login pos) with
    | none => return .inl (if expired then .error else .login)
    | some (i, type, id, realm) =>
      let type := type.getD []
      if setup.has type then
        match ← cgiCall (.password type id realm) with
        | .ok => return .inr (addFactor [] (passwordFactor setup type realm))
        | .exit => return .inl .error
        | .expired => passwordLoop setup login n (some i) true
        | .error => passwordLoop setup login n (some i) false
      else passwordLoop setup login n (some i) false

/-- The session's login stands for the one that was posted. -/
def Query.logged (q : Query) (login : Str) : Query := { q with fields := Function.update q.fields "login".toList (some login) }

/-- Every field of the factor was posted. -/
def Query.posts (q : Query) (fl : Factorlist) : Bool := fl.formfield.all fun ff => (q.fields ff).isSome

/-- The factors whose fields were posted: the session and the new factors, or
the page. Without a login of its own the loop takes what `ui` holds at the time. -/
def factorLoop (q : Query) (login : Option Str) :
    List Factorlist → UserInfo → List Str → CgiProg (Page ⊕ UserInfo × List Str)
  | [], ui, new => pure (.inr (ui, new))
  | fl :: rest, ui, new =>
    if q.posts fl = false then factorLoop q login rest ui new
    else if fl.flag = 2 ∧ ui.login = [] then pure (.inl .login)
    else do
      match ← cgiCall (.execfactor fl) with
      | .ok msg =>
        if msg ∈ ui.factors ∧ ui.ipaddr = q.ip then factorLoop q login rest ui (addFactor new msg)
        else
          let ok ← cgiCall (.login q.cookie q.ip (login.getD ui.login) msg none)
          if !ok then return .inl .error
          let (_, ui) ← cgiCall (.check q.cookie)
          factorLoop q login rest ui (addFactor new msg)
      | .exit => return .inl .error
      | .expired => return .inl .error
      | .error => return .inl .login

/-- Every factor of the service's reauth line was just satisfied. -/
def reauthed (setup : Setup) (s : Service) (new : List Str) : Bool :=
  s.factors.all fun f => new.any fun g => matchFactor f g setup.suffix

/-- After the authenticators. -/
def postEnd (setup : Setup) (q : Query) (ui : UserInfo) (new : List Str) : CgiProg Page := do
  if ui.login = [] then return .login
  match q.fields "service".toList with
  | none => return .menu
  | some service =>
    match ← lookup re setup service with
    | none => return .error
    | some s =>
      if s.reauth && !reauthed setup s new then return .login
      if ui.ipaddr ≠ q.ip then return .login
      registerService q service

/-- The names that `cl` begins with, and how many more it has room for. -/
def baseFields : List Str :=
  ["login".toList, "password".toList, "ref".toList, "service".toList, "reauth".toList, "required".toList]

def moreFields : Nat := 6

def tooManyFields (setup : Setup) : Bool :=
  moreFields < ((setup.factors.flatMap (·.formfield)).dedup.filter (· ∉ baseFields)).length

def postPath (rounds : Nat) (setup : Setup) (q : Query) : CgiProg Page := do
  if tooManyFields setup then return .error
  let (ok, ui) ← cgiCall (.check q.cookie)
  match if ok then some ui.login else q.fields "login".toList with
  | none => return .login
  | some login =>
    let q := q.logged login
    -- with a session `login` points into `ui`, which every CHECK fills in again
    let factorLogin := if ok then none else some login
    match if setup.sqlFriend || setup.krb then q.fields "password".toList else none with
    | none =>
      match ← factorLoop q factorLogin setup.factors ui [] with
      | .inl page => return page
      | .inr (ui, new) => postEnd re setup q ui new
    | some _ =>
      match ← passwordLoop re setup login rounds none false with
      | .inl page => return page
      | .inr new =>
        let (_, ui) ← cgiCall (.check q.cookie)
        match ← factorLoop q factorLogin setup.factors ui new with
        | .inl page => return page
        | .inr (ui, new) => postEnd re setup q ui new

/-- `main`, from a well-formed cookie on. -/
def main (rounds : Nat) (setup : Setup) (q : Query) : CgiProg Page :=
  match q.service with
  | some service => getPath re setup q service
  | none =>
    if q.post then postPath re rounds setup q
    else do
      let (ok, _) ← cgiCall (.check q.cookie)
      if ok then return .menu
      if q.rebasic then
        let ok ← cgiCall (.login q.cookie q.ip (q.remoteUser.getD []) q.realm q.krbtkt)
        return if ok then .menu else .error
      return .login

/-! ## The guard -/

/-- What an operation may answer. The state is the factors that were satisfied
in this request. -/
def cgiStep (setup : Setup) : (o : CgiOp) → List Str → CgiAns o → List Str → Prop
  | .check _, sat, r, sat' => r.2.factors.length ≤ cosignMaxFactors - 1 ∧ sat' = sat
  | .login _ _ _ realm _, sat, ok, sat' => sat' = if ok then sat ++ [realm] else sat
  | .password type _ realm, sat, r, sat' => sat' = if r = .ok then sat ++ [passwordFactor setup type realm] else sat
  | .execfactor _, sat, r, sat' =>
    match r with
    | .ok msg => sat' = sat ++ [msg]
    | _ => sat' = sat
  | _, sat, _, sat' => sat' = sat

abbrev CgiEvent := Prog.Event CgiOp CgiAns (List Str)

variable {re}

theorem mkscookie_some {service newScookie : Str} {n : Nat} {rand : Rand}
    (h : mkscookie service n rand = some newScookie) :
    ∃ tmp : Str, tmp.length = 124 ∧ newScookie.length < n ∧ newScookie = service ++ '=' :: tmp := by
  unfold mkscookie at h
  split at h
  · cases h
  · rename_i tmp htmp
    dsimp only at h
    split at h
    · cases h
    · rename_i hlen
      cases h
      exact ⟨tmp, mkcookie_length htmp, by omega, rfl⟩

/-- The service's name leaves room for a cookie, or it has one. -/
def Fits (service : Str) : Prop := '=' ∈ service ∨ service.length + 125 < 255

theorem mem_addFactor {new : List Str} {f g : Str} (h : g ∈ addFactor new f) : g ∈ new ∨ g = f := by
  unfold addFactor at h
  split at h
  · exact .inl h
  split at h
  · rcases List.mem_append.1 h with h | h
    · exact .inl h
    · exact .inr (List.mem_singleton.1 h)
  · exact .inl h

/-- What was satisfied so far goes into `new_factors`, as far as there is room. -/
def Backed (new sat : List Str) : Prop := ∀ g ∈ new, g ∈ sat

theorem Backed.add {new sat : List Str} (h : Backed new sat) (f : Str) : Backed (addFactor new f) (sat ++ [f]) := by
  intro g hg
  rcases mem_addFactor hg with hg | rfl
  · exact List.mem_append_left _ (h g hg)
  · exact List.mem_append_right _ (List.mem_singleton_self g)

theorem Backed.mono {new sat sat' : List Str} (h : Backed new sat) (hs : ∀ g ∈ sat, g ∈ sat') : Backed new sat' :=
  fun g hg => hs g (h g hg)

/-- Patterns without operators. -/
def plainRegex : Regex where
  exec := fun _ pattern subject => if pattern = subject then .found fun _ => (0, (subject.length : Int)) else .nomatch

end Cosign.Cgi
