import Cosign.Common.Argcargv
import Cosign.Common.Conf
/-!
# Reading `cosign.conf`

`read_config` builds three lists anew, which `cosign_config` puts in the place
of the old ones at the end. The lines cert, negotiate, passwd, factor and suffix
have no such list: they change the settings in place.
-/

namespace Cosign

/-! ## The settings -/

structure Matchlist where
  key : Option Str
  regexp : Str
  login : Str
  realm : Str
  deriving DecidableEq

structure Factorlist where
  path : Str
  flag : Nat
  formfield : List Str
  deriving DecidableEq

/-- The globals that a line changes in place. -/
structure Settings where
  certlist : List Matchlist
  negotiatemap : Option Matchlist
  authenticatorlist : List Matchlist
  factorlist : List Factorlist
  suffix : Option Str
  deriving DecidableEq

structure Cosigncfg where
  key : Str
  value : List Str
  deriving DecidableEq

structure Service where
  cookie : Str
  cookiesub : Option Str
  wkurl : Str
  ticket : Bool
  /-- `SL_SCHEME_V2` -/
  schemeV2 : Bool
  reauth : Bool
  factors : List Str
  /-- The place of `sl_auth` in the list of hosts. -/
  auth : Nat

/-- `new_authlist`, `new_servicelist` and `new_cfg`. -/
structure Lists where
  authlist : List AuthList
  servicelist : List Service
  cfg : List Cosigncfg

/-- What a line or a file does to a state. -/
inductive Read (α : Type) where
  | ok (a : α)
  /-- `return(-1)` -/
  | failed
  | fault

/-! ## Lines that change a setting -/

inductive Setting where
  | cert (ml : Matchlist)
  | negotiate (ml : Matchlist)
  | passwd (ml : Matchlist)
  | factor (fl : Factorlist)
  | suffix (s : Str)
  deriving DecidableEq

def flMaxFormFields : Nat := 6

/-- The flags of a factor, and the words after them. With no word that is not a
flag the loop reads the null pointer behind the last. -/
def factorFlags (flag : Nat) : List Str → Read (Nat × List Str)
  | [] => .fault
  | w :: ws =>
    if w.head? = some '-' then
      if w = "-2".toList then factorFlags 2 ws else .failed
    else .ok (flag, w :: ws)

/-- What the line sets, if its first word is of this kind. -/
def parseSetting (word : Str) (args : List Str) : Option (Read Setting) :=
  if word = "cert".toList then some <| match args with
    | [key, regexp, login, realm] => .ok (.cert ⟨some key, regexp, login, realm⟩)
    | _ => .failed
  else if word = "negotiate".toList then some <| match args with
    | [regexp, login, realm] => .ok (.negotiate ⟨none, regexp, login, realm⟩)
    | _ => .failed
  else if word = "passwd".toList then some <| match args with
    | [key, regexp, login, realm] => .ok (.passwd ⟨some key, regexp, login, realm⟩)
    | _ => .failed
  else if word = "factor".toList then some <| match args with
    | path :: w :: ws =>
      match factorFlags 0 (w :: ws) with
      | .ok (flag, fields) =>
        if fields.length > flMaxFormFields - 1 then .failed else .ok (.factor ⟨path, flag, fields⟩)
      | .failed => .failed
      | .fault => .fault
    | _ => .failed
  else if word = "suffix".toList then some <| match args with
    | [s] => .ok (.suffix s)
    | _ => .failed
  else none

/-- The setting takes effect at once. Two of them may be used only once. -/
def Settings.set (g : Settings) : Setting → Option Settings
  | .cert ml => some { g with certlist := g.certlist ++ [ml] }
  | .negotiate ml => if g.negotiatemap = none then some { g with negotiatemap := some ml } else none
  | .passwd ml => some { g with authenticatorlist := g.authenticatorlist ++ [ml] }
  | .factor fl => some { g with factorlist := g.factorlist ++ [fl] }
  | .suffix s => if g.suffix = none then some { g with suffix := some s } else none

/-! ## Lines that build the new lists -/

/-- Changes the first element that satisfies `p`. -/
def updateFirst {α : Type} (p : α → Bool) (f : α → α) : List α → Option (List α)
  | [] => none
  | a :: l => if p a then some (f a :: l) else (updateFirst p f l).map (a :: ·)

/-- The lines of each file that can be opened. -/
abbrev Files := Str → Option (List Str)

/-- The rest of a proxy file, before the hosts that are there. -/
def proxyLines : List Str → List Proxies → Option (List Proxies)
  | [], ps => some ps
  | line :: rest, ps =>
    match acavParse line with
    | [] => proxyLines rest ps
    | word :: args =>
      if word.head? = some '#' then proxyLines rest ps
      else match args with
        | [cookie] => proxyLines rest (⟨word, cookie⟩ :: ps)
        | _ => none

/-- `proxy_read`, with `fds` more files to open. -/
def proxyRead (files : Files) (fds : Nat) (path : Str) (ps : List Proxies) : Option (List Proxies) :=
  if fds = 0 then none else (files path).bind fun lines => proxyLines lines ps

/-- The host of a line, unless the last service line has found its own. -/
def Lists.insert (new : Lists) (insert : Bool) (al : AuthList) : Lists :=
  if insert then { new with authlist := new.authlist ++ [al] } else new

def readService (new : Lists) (cookie wkurl flags host : Str) (cookiesub : Option Str) : Bool × Lists :=
  let sl (i : Nat) : Service := ⟨cookie, cookiesub, wkurl, 'T' ∈ flags, '2' ∈ flags, false, [], i⟩
  match new.authlist.findIdx? fun al => al.key = .service ∧ al.hostname = host with
  | some i => (false, { new with servicelist := new.servicelist ++ [sl i] })
  | none => (true, { new with
      authlist := new.authlist ++ [⟨host, .service, false, []⟩]
      servicelist := new.servicelist ++ [sl new.authlist.length] })

/-- A line of another kind. `insert` is the loop's variable, which only a service
line sets. -/
def readListing (files : Files) (fds : Nat) (insert : Bool) (new : Lists) (word : Str) (args : List Str) :
    Read (Bool × Lists) :=
  if word = "set".toList then match args with
    | key :: v :: vs => .ok (insert, { new with cfg := new.cfg ++ [⟨key, v :: vs⟩] })
    | _ => .failed
  else if word = "reauth".toList then match args with
    | [] => .failed
    | cookie :: factors =>
      match updateFirst (fun sl => sl.cookie = cookie) (fun sl => { sl with reauth := true, factors := factors })
          new.servicelist with
      | none => .failed
      | some servicelist =>
        if factors.length ≥ cosignMaxFactors then .failed else .ok (insert, { new with servicelist := servicelist })
  else if word = "proxy".toList then match args with
    | [host, path] =>
      match new.authlist.find? fun al => al.hostname = host with
      | none => .failed
      | some al =>
        if al.key ≠ .service then .failed
        else match proxyRead files fds path al.proxies with
          | none => .failed
          | some ps =>
            match updateFirst (fun al => al.hostname = host) (fun al => { al with proxy := true, proxies := ps })
                new.authlist with
            | none => .failed
            | some authlist => .ok (insert, { new with authlist := authlist })
    | _ => .failed
  else if word = "cgi".toList then match args with
    | [host] => .ok (insert, new.insert insert ⟨host, .cgi, false, []⟩)
    | _ => .failed
  else if word = "service".toList then match args with
    | [cookie, wkurl, flags, host] => .ok (readService new cookie wkurl flags host none)
    | [cookie, wkurl, flags, host, sub] => .ok (readService new cookie wkurl flags host (some sub))
    | _ => .failed
  else if word = "notauth".toList then match args with
    | [host] => .ok (insert, new.insert insert ⟨host, .notauth, false, []⟩)
    | _ => .failed
  else .failed

/-! ## The file -/

/-- How a file is read: the new lists and the settings, or the settings that are
left when a line fails. -/
inductive Loaded where
  | ok (new : Lists) (g : Settings)
  | failed (g : Settings)
  | fault

/-- The loop over the lines. `incl` reads another file. -/
def configLines (files : Files) (fds : Nat) (incl : Str → Lists → Settings → Loaded) :
    (insert : Bool) → List Str → Lists → Settings → Loaded
  | _, [], new, g => .ok new g
  | insert, line :: rest, new, g =>
    match acavParse line with
    | [] => configLines files fds incl insert rest new g
    | word :: args =>
      if word.head? = some '#' then configLines files fds incl insert rest new g
      else if word = "include".toList then
        match args with
        | [path] =>
          match incl path new g with
          | .ok new g => configLines files fds incl insert rest new g
          | r => r
        -- the wrong number of words is reported, and the line left out
        | _ => configLines files fds incl insert rest new g
      else match parseSetting word args with
        | some (.ok s) =>
          match g.set s with
          | some g => configLines files fds incl insert rest new g
          | none => .failed g
        | some .failed => .failed g
        | some .fault => .fault
        | none =>
          match readListing files fds insert new word args with
          | .ok (insert, new) => configLines files fds incl insert rest new g
          | .failed => .failed g
          | .fault => .fault

/-- `read_config`, with `fds` more files to open: a file that includes itself
comes to the end of them. -/
def readConfig (files : Files) : (fds : Nat) → (path : Str) → Lists → Settings → Loaded
  | 0, _, _, g => .failed g
  | fds + 1, path, new, g =>
    match files path with
    | none => .failed g
    | some lines => configLines files fds (readConfig files fds) true lines new g

/-! ## The configuration -/

/-- The globals of a process. -/
structure Conf where
  lists : Lists
  settings : Settings

def Lists.empty : Lists := ⟨[], [], []⟩

def Settings.empty : Settings := ⟨[], none, [], [], none⟩

/-- A fresh process. -/
def Conf.empty : Conf := ⟨.empty, .empty⟩

/-- What `cosign_config` returns: 0 or -1. -/
inductive Loading where
  | loaded (g : Conf)
  | rejected (g : Conf)
  | fault

def cosignConfig (files : Files) (fds : Nat) (path : Str) (g : Conf) : Loading :=
  match readConfig files fds path .empty g.settings with
  | .ok new settings => .loaded ⟨new, settings⟩
  | .failed settings => .rejected { g with settings := settings }
  | .fault => .fault

/-! ## Lookups -/

variable (re : Regex)

/-- The services with their hosts. -/
def Lists.services (l : Lists) : List ServiceList :=
  l.servicelist.filterMap fun sl => l.authlist[sl.auth]?.map fun al =>
    ⟨sl.cookie, sl.cookiesub, sl.ticket, sl.reauth, sl.factors, al⟩

def cosignConfigGet (cfg : List Cosigncfg) (key : Str) : Option Str :=
  (cfg.find? fun c => c.key = key ∧ c.value ≠ []).bind fun c => c.value.head?

/-- `matchlist_process`: the login and the realm. The outer `none` is a read
before `matches[0]`. -/
def matchlistProcess (ml : Matchlist) (userstring : Str) : Option (Option (Str × Str)) :=
  match re.exec false ml.regexp userstring with
  | .found rm =>
    if rm 0 ≠ (0, (userstring.length : Int)) then some none
    else match matchSubstitute 130 3 rm userstring ml.login [] with
      | none => none
      | some none => some none
      | some (some login) => (matchSubstitute 256 3 rm userstring ml.realm []).map fun
        | none => none
        | some realm => some (login, realm)
  | _ => some none

/-- The first entry that gives a result. -/
def firstMatch {α β : Type} (f : α → Option (Option β)) : List α → Option (Option β)
  | [] => some none
  | a :: l =>
    match f a with
    | some none => firstMatch f l
    | r => r

def x509Translate (certlist : List Matchlist) (subject issuer : Str) : Option (Option (Str × Str)) :=
  firstMatch (fun ml => matchlistProcess re ml subject) (certlist.filter fun ml => ml.key = some issuer)

def negotiateTranslate (negotiatemap : Option Matchlist) (remoteUser : Str) : Option (Option (Str × Str)) :=
  match negotiatemap with
  | some ml => matchlistProcess re ml remoteUser
  | none => some none

/-- `defmysqlauthenticator` and `defkerberosauthenticator`. -/
def defAuthenticators : List Matchlist :=
  [⟨some "mysql".toList, "(.+@.+)".toList, "$1".toList, "friend".toList⟩,
    ⟨some "kerberos".toList, "([^@]+)".toList, "$1".toList, []⟩]

/-- `pick_authenticator`: the next entry after `pos`, its place, and what it
makes of the login. -/
def pickAuthenticator (authenticatorlist : List Matchlist) (login : Str) (pos : Option Nat) :
    Option (Option (Nat × Option Str × Str × Str)) :=
  let list := if authenticatorlist = [] then defAuthenticators else authenticatorlist
  let start := match pos with
    | none => 0
    | some i => i + 1
  firstMatch (fun e => (matchlistProcess re e.1 login).map fun r => r.map fun (l, realm) => (e.2, e.1.key, l, realm))
    (list.zipIdx.drop start)

end Cosign
