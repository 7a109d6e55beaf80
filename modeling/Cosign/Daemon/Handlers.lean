import Cosign.Daemon.Login
/-!
# The other command handlers

`LOGOUT`, `REGISTER`, `CHECK` and `REKEY`, `RETR`, `TIME` and `DAEMON`, each
with its checks in the source's order.
-/

namespace Cosign

open Lib

/-- `COSIGN_PROTO_MIN_REQUIRED` -/
def protoMinRequired (p v : Int) : Bool := p ≥ v && p ≤ 3

/-! ## `LOGOUT` -/

def fLogout (cfg : Config) (ses : Session) (env : Env) (av : List Str) : Handler Done :=
  if ses.al.key ≠ .cgi then
    reply 1 410 ("LOGOUT: ".toList ++ ses.al.hostname ++ " not allowed to logout.".toList)
  else match av with
    | [_, cookie, ip] =>
      match mkcookiepath none cfg.hashlen cookie maxPathLen with
      | none => reply 1 511 "LOGIN: Invalid cookie path.".toList
      | some path => do
        let (rc, ci) ← openCookie env path
        if rc ≠ 0 then reply 1 513 "LOGOUT error: Sorry".toList
        else if ci.state = 0 then reply 1 411 "LOGOUT: Already logged out".toList
        else
          let rc ← doLogout (env.fails .chmod 0) env.now path
          if rc < 0 then fatal
          else pure {
            ret := .ret 0
            out := [.line 210 "LOGOUT successful: cookie no longer valid".toList]
            push := pushLine ses ["LOGOUT".toList, cookie, ip] }
    | _ => reply 1 510 "LOGOUT: Wrong number of args.".toList

/-! ## `REGISTER` -/

/-- `do_register` in round `i`: 0, 1 when the service cookie exists, or -1. -/
def doRegister (env : Env) (i : Nat) (login loginP scookieP : Str) : Handler Int := do
  if env.fails .gettimeofday (i + 1) ∨ env.fails .openTmp i ∨ env.fails .fdopen i ∨ env.fails .fclose i then
    return -1
  let r ← failing (env.fails .link i) .failed (fsLink scookieP (fieldLine 'l' login) env.now)
  match r with
  | .eexist => return 1
  | .failed => return -1
  | .ok =>
    if env.fails .unlinkTmp i then return -1
    let _ ← fsUtime loginP env.now
    return 0

/-- An idle session is answered, and logged out after the grey window. The
replies are those of the handler. -/
def idleOut (cfg : Config) (env : Env) (ci : Cinfo) (path : Str) (grey idle : Reply) : Handler Done := do
  if (env.now : Int) - ci.itime < cfg.idleOutTime + cfg.greyTime then
    return { ret := .ret 1, out := [grey] }
  let rc ← doLogout (env.fails .chmod 0) env.now path
  return { ret := .ret (if rc < 0 then -1 else 1), out := [idle] }

def fRegister (cfg : Config) (ses : Session) (env : Env) (av : List Str) : Handler Done :=
  if ses.al.key ≠ .cgi then
    reply 1 420 ("REGISTER: ".toList ++ ses.al.hostname ++ " not allowed to register.".toList)
  else match av with
    | [_, login, ip, service] =>
      match mkcookiepath none cfg.hashlen login maxPathLen with
      | none => reply 1 521 "REGISTER: Invalid cookie path.".toList
      | some lpath =>
        match mkcookiepath none cfg.hashlen service maxPathLen with
        | none => reply 1 522 "REGISTER: Invalid cookie path.".toList
        | some spath => do
          let (rc, ci) ← openCookie env lpath
          if rc ≠ 0 then reply 1 523 "REGISTER error: Sorry".toList
          else if ci.state = 0 then reply 1 421 "REGISTER: Already logged out".toList
          else if env.fails .gettimeofday 0 then fatal
          else if (env.now : Int) - ci.itime ≥ cfg.idleOutTime then
            idleOut cfg env ci lpath (.line 521 "REGISTER: Idle Grey Window".toList)
              (.line 422 "REGISTER: Idle logged out".toList)
          else
            let rc ← doRegister env 0 login lpath spath
            if rc < 0 then fatal
            else if rc > 0 then reply rc 226 "REGISTER error: Cookie already exists".toList
            else pure {
              ret := .ret 0
              out := [.line 220 "REGISTER successful: Cookie Stored.".toList]
              push := pushLine ses ["REGISTER".toList, login, ip, service] }
    | _ => reply 1 520 "REGISTER: Wrong number of args.".toList

/-! ## `CHECK` and `REKEY` -/

/-- `service_valid`: the service a cookie belongs to, if the client's
certificate may use it. The outer `none` is a read out of bounds. -/
def serviceValid (cfg : Config) (ses : Session) (cookie : Str) : Option (Option ServiceList) :=
  if '=' ∉ cookie then some none
  else
    let service := cookie.takeWhile (· ≠ '=')
    match serviceFind cfg.regex cfg.servicelist service with
    | none => some none
    | some sl =>
      match cfg.regex.exec false sl.auth.hostname ses.remoteCn with
      | .found rm =>
        match sl.cookiesub with
        | none => some (some sl)
        | some pattern =>
          (matchSubstitute 1024 2 rm ses.remoteCn pattern []).map fun
            | some buf => if service = buf then some sl else none
            | none => none
      | _ => some none

/-- The reply's words for a client of this protocol. -/
def checkReply (ses : Session) (status : Nat) (ci : Cinfo) (rcookie : Str) : Reply :=
  if protoMinRequired ses.protocol 2 then
    .line status (ci.ipaddrCur ++ ' ' :: ci.user ++ ' ' :: ci.realm ++ ' ' :: rcookie)
  else
    let p := (ci.realm.dropWhile (· = ' ')).takeWhile (· ≠ ' ')
    .line status (ci.ipaddr ++ ' ' :: ci.user ++ ' ' :: if p = [] then ci.realm else p)

/-- The new name of a service cookie, and its file. -/
def rekeyCookie (cfg : Config) (env : Env) (cookie : Str) : Except Str (Str × Str) :=
  match mkcookie 128 (env.rand 0) with
  | none => .error ": rekey failed.".toList
  | some rekeybuf =>
    match strchr cookie '=' with
    | none => .error " rekey failed.".toList
    | some _ =>
      let rcookie := cookie.takeWhile (· ≠ '=') ++ '=' :: rekeybuf
      if rcookie.length ≥ 256 then .error " rekey failed.".toList
      else match mkcookiepath none cfg.hashlen rcookie maxPathLen with
        | none => .error ": rekey failed.".toList
        | some path => .ok (rcookie, path)

/-- From `read_cookie` on. `scpath` is the service cookie to rekey. -/
def checkLogin (cfg : Config) (ses : Session) (env : Env) (cmd cookie path : Str) (status : Nat)
    (scpath : Option Str) : Handler Done := do
  let (rc, ci) ← openCookie env path
  if rc ≠ 0 then reply 1 534 (cmd ++ ": Who me? Dunno.".toList)
  else if ci.state = 0 then reply 1 430 (cmd ++ ": Already logged out".toList)
  else if env.fails .gettimeofday 0 then fatal
  else if (env.now : Int) - ci.itime ≥ cfg.idleOutTime then
    idleOut cfg env ci path (.line 531 (cmd ++ ": Idle Grey Window".toList))
      (.line 431 (cmd ++ ": Idle logged out".toList))
  else
    let _ ← fsUtime path env.now
    match scpath with
    | none => pure { ret := .ret 0, out := [checkReply ses status ci []] }
    | some scpath =>
      match rekeyCookie cfg env cookie with
      | .error text => reply 1 536 (cmd ++ text)
      | .ok (rcookie, npath) =>
        let moved ← failing (env.fails .rename 0) false (fsMove scpath npath)
        if moved = false then reply 1 536 (cmd ++ ": rekey failed.".toList)
        else pure { ret := .ret 0, out := [checkReply ses status ci rcookie] }

/-- `!strict_checks || service_valid(cookie) != NULL` -/
def strictCheck (cfg : Config) (ses : Session) (cookie : Str) : Handler Bool :=
  if cfg.strictChecks then Prog.orUndef ((serviceValid cfg ses cookie).map Option.isSome) else pure true

def fCheck (cfg : Config) (ses : Session) (env : Env) (av : List Str) : Handler Done :=
  match av with
  | [] => .undef
  | cmd :: args =>
    if ses.al.key ≠ .cgi ∧ ses.al.key ≠ .service then
      reply 1 430 (cmd ++ ": ".toList ++ ses.al.hostname ++ " not allowed to check.".toList)
    -- `ac < 2 && ac > 3` holds of no number, so any number of words goes on
    else match args with
      | [] => .undef
      | cookie :: _ =>
        match mkcookiepath none cfg.hashlen cookie maxPathLen with
        | none => reply 1 531 (cmd ++ ": Invalid cookie name.".toList)
        | some path =>
          if hasPrefix "cosign-".toList cookie then do
            let valid ← strictCheck cfg ses cookie
            if valid = false then reply 1 534 (cmd ++ ": Invalid cookie".toList)
            else
              match ← openService env path with
              | none => reply 1 533 (cmd ++ ": cookie not in db!".toList)
              | some login =>
                let rekey := protoMinRequired ses.protocol 3 && strcaseeq cmd "REKEY".toList
                match mkcookiepath none cfg.hashlen login maxPathLen with
                | none => reply 1 532 (cmd ++ ": Invalid cookie name.".toList)
                | some lpath =>
                  if rekey then checkLogin cfg ses env cmd cookie lpath 233 (some path)
                  else checkLogin cfg ses env cmd cookie lpath 231 none
          else if hasPrefix "cosign=".toList cookie then checkLogin cfg ses env cmd cookie path 232 none
          else reply 1 432 (cmd ++ ": unknown cookie prefix!".toList)

/-! ## `RETR` -/

/-- The rest of `retr_proxy`'s list from round `i` on, with what was written
and pushed so far. -/
def retrProxies (cfg : Config) (ses : Session) (env : Env) (login : Str) :
    (i : Nat) → List Proxies → Done → Handler Done
  | _, [], d => pure { d with out := d.out ++ [.line 241 "Cookies registered and sent".toList] }
  | i, proxy :: rest, d =>
    match mkcookie 128 (env.rand i) with
    | none => pure { d with ret := .ret (-1) }
    | some cookiebuf =>
      let cbuf := proxy.cookie ++ '=' :: cookiebuf
      if cbuf.length ≥ maxCookieLen then pure { d with ret := .ret (-1) }
      else match mkcookiepath none cfg.hashlen cbuf maxPathLen with
        | none => pure { d with ret := .ret 1 }
        | some spath =>
          match mkcookiepath none cfg.hashlen login maxPathLen with
          | none => pure { d with ret := .ret 1 }
          | some lpath => do
            let rc ← doRegister env i login lpath spath
            if rc < 0 then retrProxies cfg ses env login (i + 1) rest d
            else retrProxies cfg ses env login (i + 1) rest { d with
              out := d.out ++ [.more 241 (cbuf ++ ' ' :: proxy.hostname)]
              push := d.push ++ pushLine ses ["REGISTER".toList, login, "-".toList, cbuf] }

def retrProxy (cfg : Config) (ses : Session) (env : Env) (login : Str) : Handler Done :=
  if ses.al.proxy = false then
    reply 1 443 ("RETR: ".toList ++ ses.al.hostname ++ " cannot retrieve cookies.".toList)
  else retrProxies cfg ses env login 0 ses.al.proxies { ret := .ret 0, out := [] }

def retrTicket (env : Env) (sl : ServiceList) (krbpath : Str) : Handler Done :=
  if sl.ticket = false then
    reply 1 441 ("RETR: ".toList ++ sl.auth.hostname ++ " not allowed to retrieve tkts.".toList)
  else if env.fails .openTicket 0 then reply 1 547 ("Unable to access ".toList ++ krbpath ++ ".".toList)
  else do
    match ← fsRead krbpath with
    | none => reply 1 547 ("Unable to access ".toList ++ krbpath ++ ".".toList)
    | some f =>
      if env.fails .fstat 0 then
        reply (if env.fails .close 0 then -1 else 1) 548 ("Access Error: ".toList ++ krbpath)
      else
        let start := [Reply.line 240 "Retrieving file".toList, .raw (dec f.text.length ++ "\r\n".toList)]
        if env.fails .readTicket 0 ∨ env.fails .write 0 ∨ env.fails .close 0 then
          pure { ret := .ret (-1), out := start }
        else pure { ret := .ret 0, out := start ++ [.raw f.text, .raw ".\r\n".toList] }

def fRetr (cfg : Config) (ses : Session) (env : Env) (av : List Str) : Handler Done :=
  if ses.al.key ≠ .cgi ∧ ses.al.key ≠ .service then
    reply 1 442 ("RETR: ".toList ++ ses.al.hostname ++ " not allowed to retrieve.".toList)
  else match av with
    | [_, cookie, kind] => do
      match ← Prog.orUndef (serviceValid cfg ses cookie) with
      | none => reply 1 545 "RETR: Invalid cookie".toList
      | some sl =>
        match mkcookiepath none cfg.hashlen cookie maxPathLen with
        | none => reply 1 541 "RETR: Invalid cookie name.".toList
        | some spath =>
          match ← openService env spath with
          | none => reply 1 543 "RETR: cookie not in db!".toList
          | some login =>
            match mkcookiepath none cfg.hashlen login maxPathLen with
            | none => reply 1 541 "RETR: Invalid cookie name.".toList
            | some lpath =>
              let (rc, ci) ← openCookie env lpath
              if rc ≠ 0 then reply 1 544 "RETR: Who me? Dunno.".toList
              else if ci.state = 0 then reply 1 440 "RETR: Already logged out".toList
              else if env.fails .gettimeofday 0 then fatal
              else if (env.now : Int) - ci.itime ≥ cfg.idleOutTime then
                idleOut cfg env ci lpath (.line 541 "RETR: Idle Grey Window".toList)
                  (.line 441 "RETR: Idle logged out".toList)
              else if kind = "tgt".toList then retrTicket env sl ci.krbtkt
              else if kind = "cookies".toList then retrProxy cfg ses env login
              else reply 1 441 "RETR: No such retrieve type.".toList
    | _ => reply 1 540 "RETR: Wrong number of args.".toList

/-! ## `TIME` -/

def timeUtime (path timestamp : Str) (st : File) : Handler Bool :=
  if atoi timestamp > st.mtime then fsUtime path (atoi timestamp).toNat else pure false

def timeLogout (env : Env) (i : Nat) (path state : Str) (st : File) : Handler Int :=
  if atoi state = 0 ∧ st.isgid = true then doLogout (env.fails .chmod i) env.now path else pure 0

/-- One line that names a cookie. -/
def timeCookie (env : Env) (i : Nat) (path timestamp state : Str) : Handler Unit := do
  match ← fsRead path with
  | none => pure ()
  | some st =>
    let _ ← timeUtime path timestamp st
    let _ ← timeLogout env i path state st
    pure ()

/-- The loop over the lines, from line `i` on. -/
def timeLines (cfg : Config) (env : Env) : (i : Nat) → List Str → Handler Unit
  | _, [] => pure ()
  | i, line :: rest =>
    if lineLeft line = ".".toList then pure ()
    else match acavParse line with
      | [cookie, timestamp, state] =>
        if hasPrefix "cosign=".toList cookie then
          match mkcookiepath none cfg.hashlen cookie maxPathLen with
          | none => timeLines cfg env (i + 1) rest
          | some path => do
            timeCookie env i path timestamp state
            timeLines cfg env (i + 1) rest
        else timeLines cfg env (i + 1) rest
      | _ => timeLines cfg env (i + 1) rest

def fTime (cfg : Config) (ses : Session) (env : Env) (av : List Str) : Handler Done :=
  if ses.al.key ≠ .cgi then
    reply 1 460 ("TIME: ".toList ++ ses.al.hostname ++ " not allowed to propogate time.".toList)
  else if av.length ≠ 1 then reply 1 560 "TIME: Wrong number of args.".toList
  else do
    timeLines cfg env 0 env.lines
    return {
      ret := .ret 0
      out := [.line 360 "TIME: Send timestamps.".toList, .line 260 "TIME successful: we are now up-to-date".toList] }

/-! ## `DAEMON` -/

def fDaemon (cfg : Config) (ses : Session) (env : Env) (av : List Str) : Handler Done :=
  if ses.al.key ≠ .cgi then
    reply 1 470 ("DAEMON: ".toList ++ ses.al.hostname ++ " not a daemon.".toList)
  else match av with
    | [_, host] =>
      if env.fails .gethostname 0 then reply 1 572 "DAEMON error. Sorry!".toList
      else if strcaseeq cfg.hostname host then reply 1 471 "Schizophrenia!".toList
      else pure { ret := .ret 0, out := [.line 271 "Daemon flag set".toList], replicated := true }
    | _ => reply 1 571 "Syntax error".toList

end Cosign
