import Cosign.Daemon.Command
import Cosign.Lib.Via
/-!
# The words a handler reads

The handlers once more, with each `av[i]` an operation of its own. The other
operations are those of the handlers in `Handlers`: with the words filled in they
are the same programs.
-/

namespace Cosign

open Lib

/-! ## Reading `av` -/

inductive AvOp where
  /-- `av[i]`, where `av` has the words of a line. -/
  | av (av : List Str) (i : Nat)
  | fs (o : FsOp)

abbrev AvAns : AvOp → Type
  | .av .. => Str
  | .fs o => FsAns o

abbrev AvProg := Prog AvOp AvAns

def arg (av : List Str) (i : Nat) : AvProg Str := Prog.call (AvOp.av av i)

/-- A part that reads no words. -/
def noArgs {α : Type} (p : Handler α) : AvProg α := p.via fun o => Prog.call (AvOp.fs o)

def args (av : List Str) : List Nat → AvProg (List Str)
  | [] => pure []
  | i :: is => do
    let w ← arg av i
    let ws ← args av is
    return w :: ws

/-- The line for the pusher, if there is one. -/
def pushArgs (ses : Session) (command : Str) (av : List Str) (is : List Nat) : AvProg (List Str) :=
  if ses.pusher ∧ ¬ ses.replicated then do
    let ws ← args av is
    return [unwords (command :: ws)]
  else return []

/-- The line for the log. -/
def logArgs (ses : Session) (av : List Str) (is : List Nat) : AvProg Unit :=
  if ses.replicated then pure () else do
    let _ ← args av is
    return ()

/-! ## `STARTTLS`, `DAEMON` and `TIME` -/

/-- What `f_starttls` reads. -/
def starttlsArgs (av : List Str) : AvProg Unit :=
  if av.length ≥ 2 then do
    let version ← arg av 1
    if protoMinRequired (atoi version) 2 then return ()
    else
      let _ ← arg av 1
      return ()
  else pure ()

def fDaemonArgs (cfg : Config) (ses : Session) (env : Env) (av : List Str) : AvProg Done :=
  if ses.al.key ≠ .cgi then
    noArgs (reply 1 470 ("DAEMON: ".toList ++ ses.al.hostname ++ " not a daemon.".toList))
  else if av.length ≠ 2 then noArgs (reply 1 571 "Syntax error".toList)
  else if env.fails .gethostname 0 then noArgs (reply 1 572 "DAEMON error. Sorry!".toList)
  else do
    let host ← arg av 1
    if strcaseeq cfg.hostname host then noArgs (reply 1 471 "Schizophrenia!".toList)
    else pure { ret := .ret 0, out := [.line 271 "Daemon flag set".toList], replicated := true }

/-- One line of a `TIME` that names a cookie. -/
def timeCookieArgs (env : Env) (i : Nat) (path : Str) (av : List Str) : AvProg Unit := do
  match ← noArgs (fsRead path) with
  | none => pure ()
  | some st =>
    let timestamp ← arg av 1
    let _ ← noArgs (timeUtime path timestamp st)
    let state ← arg av 2
    let _ ← noArgs (timeLogout env i path state st)
    pure ()

/-- `av` and `ac` are now those of the line. -/
def timeLinesArgs (cfg : Config) (env : Env) : (i : Nat) → List Str → AvProg Unit
  | _, [] => pure ()
  | i, line :: rest =>
    if lineLeft line = ".".toList then pure ()
    else if (acavParse line).length ≠ 3 then timeLinesArgs cfg env (i + 1) rest
    else do
      let name ← arg (acavParse line) 0
      if hasPrefix "cosign=".toList name then
        let cookie ← arg (acavParse line) 0
        match mkcookiepath none cfg.hashlen cookie maxPathLen with
        | none => timeLinesArgs cfg env (i + 1) rest
        | some path => do
          timeCookieArgs env i path (acavParse line)
          timeLinesArgs cfg env (i + 1) rest
      else timeLinesArgs cfg env (i + 1) rest

def fTimeArgs (cfg : Config) (ses : Session) (env : Env) (av : List Str) : AvProg Done :=
  if ses.al.key ≠ .cgi then
    noArgs (reply 1 460 ("TIME: ".toList ++ ses.al.hostname ++ " not allowed to propogate time.".toList))
  else if av.length ≠ 1 then noArgs (reply 1 560 "TIME: Wrong number of args.".toList)
  else do
    timeLinesArgs cfg env 0 env.lines
    return {
      ret := .ret 0
      out := [.line 360 "TIME: Send timestamps.".toList, .line 260 "TIME successful: we are now up-to-date".toList] }

/-! ## `LOGOUT` and `REGISTER` -/

def fLogoutArgs (cfg : Config) (ses : Session) (env : Env) (av : List Str) : AvProg Done :=
  if ses.al.key ≠ .cgi then
    noArgs (reply 1 410 ("LOGOUT: ".toList ++ ses.al.hostname ++ " not allowed to logout.".toList))
  else if av.length ≠ 3 then noArgs (reply 1 510 "LOGOUT: Wrong number of args.".toList)
  else do
    let cookie ← arg av 1
    match mkcookiepath none cfg.hashlen cookie maxPathLen with
    | none => noArgs (reply 1 511 "LOGIN: Invalid cookie path.".toList)
    | some path => do
      let (rc, ci) ← noArgs (openCookie env path)
      if rc ≠ 0 then noArgs (reply 1 513 "LOGOUT error: Sorry".toList)
      else if ci.state = 0 then do
        let _ ← arg av 1
        noArgs (reply 1 411 "LOGOUT: Already logged out".toList)
      else
        let rc ← noArgs (doLogout (env.fails .chmod 0) env.now path)
        if rc < 0 then noArgs fatal
        else
          let push ← pushArgs ses "LOGOUT".toList av [1, 2]
          logArgs ses av [2]
          return { ret := .ret 0, out := [.line 210 "LOGOUT successful: cookie no longer valid".toList], push }

def fRegisterArgs (cfg : Config) (ses : Session) (env : Env) (av : List Str) : AvProg Done :=
  if ses.al.key ≠ .cgi then
    noArgs (reply 1 420 ("REGISTER: ".toList ++ ses.al.hostname ++ " not allowed to register.".toList))
  else if av.length ≠ 4 then noArgs (reply 1 520 "REGISTER: Wrong number of args.".toList)
  else do
    let login ← arg av 1
    match mkcookiepath none cfg.hashlen login maxPathLen with
    | none => noArgs (reply 1 521 "REGISTER: Invalid cookie path.".toList)
    | some lpath => do
      let service ← arg av 3
      match mkcookiepath none cfg.hashlen service maxPathLen with
      | none => noArgs (reply 1 522 "REGISTER: Invalid cookie path.".toList)
      | some spath => do
        let (rc, ci) ← noArgs (openCookie env lpath)
        if rc ≠ 0 then noArgs (reply 1 523 "REGISTER error: Sorry".toList)
        else if ci.state = 0 then noArgs (reply 1 421 "REGISTER: Already logged out".toList)
        else if env.fails .gettimeofday 0 then noArgs fatal
        else if (env.now : Int) - ci.itime ≥ cfg.idleOutTime then
          noArgs (idleOut cfg env ci lpath (.line 521 "REGISTER: Idle Grey Window".toList)
            (.line 422 "REGISTER: Idle logged out".toList))
        else
          let login ← arg av 1
          let rc ← noArgs (doRegister env 0 login lpath spath)
          if rc < 0 then noArgs fatal
          else if rc > 0 then noArgs (reply rc 226 "REGISTER error: Cookie already exists".toList)
          else
            let push ← pushArgs ses "REGISTER".toList av [1, 2, 3]
            -- the service's name is cut off, and logged
            logArgs ses av [3, 3]
            return { ret := .ret 0, out := [.line 220 "REGISTER successful: Cookie Stored.".toList], push }

/-! ## `CHECK`, `REKEY` and `RETR` -/

/-- A reply that names the command. -/
def replyArg (av : List Str) (ret : Int) (code : Nat) (text : Str) : AvProg Done := do
  let cmd ← arg av 0
  noArgs (reply ret code (cmd ++ text))

/-- The new name of a service cookie, and its file, or the text of the error. -/
def rekeyArgs (cfg : Config) (env : Env) (av : List Str) : AvProg (Except Str (Str × Str)) :=
  if (mkcookie 128 (env.rand 0)).isNone then pure (.error ": rekey failed.".toList)
  else do
    let cookie ← arg av 1
    -- the name is printed, or logged where it has no `=`
    let _ ← arg av 1
    return rekeyCookie cfg env cookie

def checkLoginArgs (cfg : Config) (ses : Session) (env : Env) (av : List Str) (path : Str) (status : Nat)
    (scpath : Option Str) : AvProg Done := do
  let (rc, ci) ← noArgs (openCookie env path)
  if rc ≠ 0 then replyArg av 1 534 ": Who me? Dunno.".toList
  else if ci.state = 0 then replyArg av 1 430 ": Already logged out".toList
  else if env.fails .gettimeofday 0 then noArgs fatal
  else if (env.now : Int) - ci.itime ≥ cfg.idleOutTime then
    let cmd ← arg av 0
    noArgs (idleOut cfg env ci path (.line 531 (cmd ++ ": Idle Grey Window".toList))
      (.line 431 (cmd ++ ": Idle logged out".toList)))
  else
    let _ ← noArgs (fsUtime path env.now)
    match scpath with
    | none => pure { ret := .ret 0, out := [checkReply ses status ci []] }
    | some scpath =>
      match ← rekeyArgs cfg env av with
      | .error text => replyArg av 1 536 text
      | .ok (rcookie, npath) =>
        let moved ← noArgs (failing (env.fails .rename 0) false (fsMove scpath npath))
        if moved = false then replyArg av 1 536 ": rekey failed.".toList
        else pure { ret := .ret 0, out := [checkReply ses status ci rcookie] }

/-- `strict_checks && service_valid( av[ 1 ] ) == NULL` -/
def strictArgs (cfg : Config) (ses : Session) (av : List Str) : AvProg Bool :=
  if cfg.strictChecks then do
    let cookie ← arg av 1
    Prog.orUndef ((serviceValid cfg ses cookie).map Option.isSome)
  else pure true

/-- Whether the cookie is to be rekeyed. -/
def isRekey (ses : Session) (av : List Str) : AvProg Bool :=
  if protoMinRequired ses.protocol 3 then do
    let cmd ← arg av 0
    return strcaseeq cmd "REKEY".toList
  else pure false

def fCheckArgs (cfg : Config) (ses : Session) (env : Env) (av : List Str) : AvProg Done :=
  if ses.al.key ≠ .cgi ∧ ses.al.key ≠ .service then
    replyArg av 1 430 (": ".toList ++ ses.al.hostname ++ " not allowed to check.".toList)
  else if av.length < 2 ∧ av.length > 3 then replyArg av 1 530 ": Wrong number of args.".toList
  else do
    let name ← arg av 1
    match mkcookiepath none cfg.hashlen name maxPathLen with
    | none => replyArg av 1 531 ": Invalid cookie name.".toList
    | some path => do
      let cookie ← arg av 1
      if hasPrefix "cosign-".toList cookie then
        let valid ← strictArgs cfg ses av
        if valid = false then replyArg av 1 534 ": Invalid cookie".toList
        else
          match ← noArgs (openService env path) with
          | none => replyArg av 1 533 ": cookie not in db!".toList
          | some login =>
            let rekey ← isRekey ses av
            match mkcookiepath none cfg.hashlen login maxPathLen with
            | none => replyArg av 1 532 ": Invalid cookie name.".toList
            | some lpath =>
              if rekey then checkLoginArgs cfg ses env av lpath 233 (some path)
              else checkLoginArgs cfg ses env av lpath 231 none
      else
        let cookie ← arg av 1
        if hasPrefix "cosign=".toList cookie then checkLoginArgs cfg ses env av path 232 none
        else replyArg av 1 432 ": unknown cookie prefix!".toList

/-- What `f_retr` sends for the type. -/
def retrType (cfg : Config) (ses : Session) (env : Env) (sl : ServiceList) (login : Str) (ci : Cinfo) (av : List Str) :
    AvProg Done := do
  let kind ← arg av 2
  if kind = "tgt".toList then noArgs (retrTicket env sl ci.krbtkt)
  else
    let kind ← arg av 2
    if kind = "cookies".toList then noArgs (retrProxy cfg ses env login)
    else
      let _ ← arg av 1
      noArgs (reply 1 441 "RETR: No such retrieve type.".toList)

def fRetrArgs (cfg : Config) (ses : Session) (env : Env) (av : List Str) : AvProg Done :=
  if ses.al.key ≠ .cgi ∧ ses.al.key ≠ .service then
    noArgs (reply 1 442 ("RETR: ".toList ++ ses.al.hostname ++ " not allowed to retrieve.".toList))
  else if av.length ≠ 3 then noArgs (reply 1 540 "RETR: Wrong number of args.".toList)
  else do
    let service ← arg av 1
    match ← Prog.orUndef (serviceValid cfg ses service) with
    | none => noArgs (reply 1 545 "RETR: Invalid cookie".toList)
    | some sl => do
      let cookie ← arg av 1
      match mkcookiepath none cfg.hashlen cookie maxPathLen with
      | none => noArgs (reply 1 541 "RETR: Invalid cookie name.".toList)
      | some spath =>
        match ← noArgs (openService env spath) with
        | none => noArgs (reply 1 543 "RETR: cookie not in db!".toList)
        | some login =>
          match mkcookiepath none cfg.hashlen login maxPathLen with
          | none => noArgs (reply 1 541 "RETR: Invalid cookie name.".toList)
          | some lpath => do
            let (rc, ci) ← noArgs (openCookie env lpath)
            if rc ≠ 0 then noArgs (reply 1 544 "RETR: Who me? Dunno.".toList)
            else if ci.state = 0 then noArgs (reply 1 440 "RETR: Already logged out".toList)
            else if env.fails .gettimeofday 0 then noArgs fatal
            else if (env.now : Int) - ci.itime ≥ cfg.idleOutTime then
              noArgs (idleOut cfg env ci lpath (.line 541 "RETR: Idle Grey Window".toList)
                (.line 441 "RETR: Idle logged out".toList))
            else retrType cfg ses env sl login ci av

/-! ## `LOGIN` -/

/-- Whether `kerberos` is the last word, and the ticket's path. `none` is
`return(-1)`. -/
def krbArgs (cfg : Config) (env : Env) (av : List Str) : AvProg (Option (Option Str)) :=
  if av.length ≥ 6 then do
    let last ← arg av (av.length - 1)
    if last = "kerberos".toList then
      match mkcookie 16 (env.rand 0) with
      | none => return none
      | some tmpkrb =>
        let krbpath := cfg.cosignTickets ++ '/' :: tmpkrb
        if krbpath.length ≥ maxPathLen then return none else return some (some krbpath)
    else return some none
  else return some none

/-- The words that go into the record, up to `ac`. -/
def recordArgs (acavFails : Bool) (now : Nat) (addinfo : Bool) (ci : Cinfo) (av : List Str) (ac : Nat) (cookie : Str)
    (krbpath : Option Str) : AvProg Record := do
  let ip ← arg av 2
  if ip.length ≥ 256 then return .bad
  else
    -- the address is compared with the record's or printed, measured again, and printed
    let _ ← args av [2, 2, 2]
    let user ← arg av 3
    if user.length ≥ 130 then return .bad
    else
      let _ ← arg av 3
      let factor ← arg av 4
      if factor.length ≥ 256 then return .bad
      else if addinfo ∧ acavFails then return .bad
      else
        let factor' ← arg av 4
        let more ← args av (List.range' 5 (ac - 5))
        Prog.orUndef (loginRecord acavFails now addinfo ci ⟨cookie, ip, user, factor', more, krbpath⟩)

/-- From the last `snet_getline` on. The words lie where they lay, with whatever
has overwritten them. -/
def lastArgs (ses : Session) (env : Env) (av : List Str) (krbpath : Str) : AvProg Done :=
  match env.lines with
  | [] => pure transferBroken
  | line :: _ =>
    if line ≠ ".".toList then do
      let _ ← noArgs (fsUnlink krbpath)
      let _ ← arg av 1
      let _ ← noArgs (fsUnlink ((env.overwritten.getD av).getD 1 []))
      return transferMismatch
    else do
      let _ ← pushArgs ses "LOGIN".toList av [1, 2, 3, 4, 5]
      logArgs ses av [3, 4, 2]
      return transferDone ses (env.overwritten.getD av)

/-- From the reply 300 on. -/
def receiveArgs (ses : Session) (env : Env) (av : List Str) (krbpath : Str) : AvProg Done := do
  let made ← noArgs (failing (env.fails .creat 0) false (fsCreat krbpath env.now))
  if made = false then return transferBroken
  else
    match env.size with
    | none => return transferBroken
    | some sizebuf =>
      match ← noArgs (recvTicket env krbpath 0 (atoi sizebuf % 2 ^ 32).toNat env.reads) with
      | .broken => return transferBroken
      | .unwritten => return transferUnwritten env krbpath
      | .done =>
        if env.fails .close 0 then return transferUnwritten env krbpath
        else lastArgs ses env av krbpath

/-- After the record is published. -/
def answerArgs (ses : Session) (env : Env) (av : List Str) (krbpath : Option Str) (alreadyKrb : Bool) : AvProg Done :=
  match krbpath, alreadyKrb with
  | some krbpath, false => receiveArgs ses env av krbpath
  | _, _ => do
    let push ← pushArgs ses "LOGIN".toList av [1, 2, 3, 4]
    logArgs ses av [3, 4, 2]
    return { ret := .ret 0, out := [.line 200 "LOGIN successful: Cookie Stored.".toList], push }

/-- Whether the user may be the record's, where there is one. -/
def sameUser (rc : Int) (ci : Cinfo) (av : List Str) : AvProg Bool :=
  if rc = 0 then do
    let user ← arg av 3
    return user = ci.user
  else pure true

/-- From `read_cookie` on. -/
def loginAtArgs (ses : Session) (env : Env) (av : List Str) (ac : Nat) (cookie : Str) (krbpath : Option Str) (path : Str) :
    AvProg Done := do
  let (rc, ci) ← noArgs (openCookie env path)
  if rc = 0 ∧ ci.state = 0 then
    let _ ← arg av 1
    noArgs (reply 1 505 "LOGIN: Already logged out".toList)
  else
    let same ← sameUser rc ci av
    if same = false then
      let _ ← args av [1, 3]
      noArgs (reply 1 402 "user name given does not match cookie".toList)
    else if env.fails .gettimeofday 0 ∨ env.fails .openTmp 0 ∨ env.fails .fdopen 0 then noArgs fatal
    else
      match ← recordArgs (env.fails .acav 0) env.now (rc = 0) ci av ac cookie krbpath with
      | .bad => noArgs (reply 1 504 "LOGIN Syntax Error: Bad File Format".toList)
      | .same => noArgs (reply 0 202 "LOGIN Cookie Already Stored.".toList)
      | .full text alreadyKrb =>
        if env.fails .fclose 0 then noArgs fatal
        else
          let stored ← noArgs (loginName env path (rc = 0) text)
          if stored = false then noArgs fatal else answerArgs ses env av krbpath alreadyKrb

def fLoginArgs (cfg : Config) (ses : Session) (env : Env) (av : List Str) : AvProg Done :=
  if ses.al.key ≠ .cgi then
    noArgs (reply 1 400 ("LOGIN: ".toList ++ ses.al.hostname ++ " not allowed to login.".toList))
  else if av.length < 5 then noArgs (reply 1 500 "LOGIN: Wrong number of args.".toList)
  else do
    match ← krbArgs cfg env av with
    | none => noArgs fatal
    | some krbpath => do
      let cookie ← arg av 1
      match mkcookiepath none cfg.hashlen cookie maxPathLen with
      | none => noArgs (reply 1 501 "LOGIN: Invalid cookie path.".toList)
      | some path => loginAtArgs ses env av (if krbpath.isSome then av.length - 1 else av.length) cookie krbpath path

/-! ## The dispatch -/

def handleArgs (cfg : Config) (ses : Session) (env : Env) (av : List Str) : CommandName → AvProg Done
  | .noop => noArgs (handle cfg ses env av .noop)
  | .quit => noArgs (handle cfg ses env av .quit)
  | .help => noArgs (handle cfg ses env av .help)
  | .starttls => do
    starttlsArgs av
    noArgs (handle cfg ses env av .starttls)
  | .login => fLoginArgs cfg ses env av
  | .logout => fLogoutArgs cfg ses env av
  | .register => fRegisterArgs cfg ses env av
  | .check => fCheckArgs cfg ses env av
  | .rekey => fCheckArgs cfg ses env av
  | .retr => fRetrArgs cfg ses env av
  | .time => fTimeArgs cfg ses env av
  | .daemon => fDaemonArgs cfg ses env av

def dispatchArgs (cfg : Config) (ses : Session) (env : Env) (av : List Str) (word : Str) : AvProg Done :=
  match findCommand word with
  | none => do
    let word ← arg av 0
    noArgs (reply 0 500 ("Command ".toList ++ word ++ " unregcognized".toList))
  | some c => handleArgs cfg ses env av c

/-- One round of `command`. -/
def commandArgs (cfg : Config) (ses : Session) (env : Env) (line : Str) : AvProg Done :=
  if (acavParse line).length = 0 then noArgs (reply 0 501 "Command unrecognized".toList)
  else do
    let word ← arg (acavParse line) 0
    dispatchArgs cfg ses env (acavParse line) word

/-! ## Filling in the words -/

/-- The program with its words. Past the end of `av` the source is undefined. -/
def fill {α : Type} (p : AvProg α) : Handler α :=
  p.via fun
    | .av av i => Prog.orUndef av[i]?
    | .fs o => Prog.call o

section
variable {α β : Type}

@[simp] theorem fill_pure (a : α) : fill (pure a) = pure a := rfl
@[simp] theorem fill_orUndef (x : Option α) : fill (Prog.orUndef x) = Prog.orUndef x := Prog.via_orUndef _ x
@[simp] theorem orUndef_some (a : α) : (Prog.orUndef (some a) : Handler α) = pure a := rfl

@[simp] theorem fill_bind (p : AvProg α) (f : α → AvProg β) : fill (p >>= f) = fill p >>= fun a => fill (f a) :=
  Prog.via_bind _ p f

@[simp] theorem fill_arg (av : List Str) (i : Nat) : fill (arg av i) = Prog.orUndef av[i]? := Prog.via_call _ _

theorem fill_arg_bind {av : List Str} {i : Nat} {w : Str} (h : av[i]? = some w) (f : Str → AvProg α) :
    fill (arg av i >>= f) = fill (f w) := by
  rw [fill_bind, fill_arg, h, orUndef_some, Prog.pure_bind']

@[simp] theorem fill_noArgs (p : Handler α) : fill (noArgs p) = p := by
  unfold fill noArgs
  apply Prog.via_via
  intro o
  exact Prog.via_call _ _

theorem fill_noArgs_bind (p : Handler α) (f : α → AvProg β) : fill (noArgs p >>= f) = p >>= fun a => fill (f a) := by
  rw [fill_bind, fill_noArgs]

theorem fill_skip {p : AvProg Unit} (h : fill p = pure ()) (f : Unit → AvProg β) : fill (p >>= f) = fill (f ()) := by
  rw [fill_bind, h, Prog.pure_bind']

theorem fill_known {p : AvProg α} {a : α} (h : fill p = pure a) (f : α → AvProg β) : fill (p >>= f) = fill (f a) := by
  rw [fill_bind, h, Prog.pure_bind']

@[simp] theorem fill_ite {c : Prop} [Decidable c] (p q : AvProg α) : fill (if c then p else q) = if c then fill p else fill q :=
  apply_ite fill c p q

theorem fill_args {av : List Str} {is : List Nat} (h : ∀ i ∈ is, i < av.length) :
    fill (args av is) = pure (is.map fun i => av.getD i []) := by
  induction is with
  | nil => rfl
  | cons i is ih =>
    obtain ⟨hi, his⟩ := List.forall_mem_cons.1 h
    simp [args, ih his, List.getElem?_eq_getElem hi]

theorem fill_pushArgs (ses : Session) (command : Str) {av : List Str} {is : List Nat} (h : ∀ i ∈ is, i < av.length) :
    fill (pushArgs ses command av is) = pure (pushLine ses (command :: is.map fun i => av.getD i [])) := by
  unfold pushArgs pushLine
  split
  · simp [fill_args h]
  · rfl

theorem fill_logArgs (ses : Session) {av : List Str} {is : List Nat} (h : ∀ i ∈ is, i < av.length) :
    fill (logArgs ses av is) = pure () := by
  unfold logArgs
  split
  · rfl
  · simp [fill_args h]

end

section
variable (cfg : Config) (ses : Session) (env : Env)

theorem fill_fDaemon (av : List Str) : fill (fDaemonArgs cfg ses env av) = fDaemon cfg ses env av := by
  unfold fDaemonArgs fDaemon
  rw [fill_ite, fill_noArgs]
  refine if_congr Iff.rfl rfl ?_
  match av with
  | [w, host] =>
    have h1 : [w, host][1]? = some host := rfl
    rw [if_neg (by simp), fill_ite, fill_noArgs, fill_arg_bind h1, fill_ite, fill_noArgs, fill_pure]
  | [] => rfl
  | [_] => rfl
  | _ :: _ :: _ :: _ => rw [if_pos (by simp), fill_noArgs]

theorem fill_fLogout (av : List Str) : fill (fLogoutArgs cfg ses env av) = fLogout cfg ses env av := by
  unfold fLogoutArgs fLogout
  rw [fill_ite, fill_noArgs]
  refine if_congr Iff.rfl rfl ?_
  match av with
  | [w, cookie, ip] =>
    have h1 : [w, cookie, ip][1]? = some cookie := rfl
    rw [if_neg (by simp), fill_arg_bind h1]
    dsimp only
    cases mkcookiepath none cfg.hashlen cookie maxPathLen with
    | none => exact fill_noArgs _
    | some path =>
      refine (fill_noArgs_bind _ _).trans (congrArg (openCookie env path >>= ·) (funext fun x => ?_))
      obtain ⟨rc, ci⟩ := x
      dsimp only
      rw [fill_ite, fill_noArgs, fill_ite, fill_arg_bind h1, fill_noArgs, fill_noArgs_bind]
      refine if_congr Iff.rfl rfl (if_congr Iff.rfl rfl (congrArg (doLogout _ _ path >>= ·) (funext fun rc => ?_)))
      rw [fill_ite, fill_noArgs, fill_known (fill_pushArgs ses _ (by simp)), fill_skip (fill_logArgs ses (by simp)), fill_pure]
      rfl
  | [] => rfl
  | [_] => rfl
  | [_, _] => rfl
  | _ :: _ :: _ :: _ :: _ => rw [if_pos (by simp), fill_noArgs]

theorem fill_fRegister (av : List Str) : fill (fRegisterArgs cfg ses env av) = fRegister cfg ses env av := by
  unfold fRegisterArgs fRegister
  rw [fill_ite, fill_noArgs]
  refine if_congr Iff.rfl rfl ?_
  match av with
  | [w, login, ip, service] =>
    have h1 : [w, login, ip, service][1]? = some login := rfl
    have h3 : [w, login, ip, service][3]? = some service := rfl
    rw [if_neg (by simp), fill_arg_bind h1]
    dsimp only
    cases mkcookiepath none cfg.hashlen login maxPathLen with
    | none => exact fill_noArgs _
    | some lpath =>
      dsimp only
      rw [fill_arg_bind h3]
      cases mkcookiepath none cfg.hashlen service maxPathLen with
      | none => exact fill_noArgs _
      | some spath =>
        refine (fill_noArgs_bind _ _).trans (congrArg (openCookie env lpath >>= ·) (funext fun x => ?_))
        obtain ⟨rc, ci⟩ := x
        dsimp only
        simp only [fill_ite, fill_noArgs]
        rw [fill_arg_bind h1, fill_noArgs_bind]
        refine if_congr Iff.rfl rfl (if_congr Iff.rfl rfl (if_congr Iff.rfl rfl (if_congr Iff.rfl rfl
          (congrArg (doRegister env 0 login lpath spath >>= ·) (funext fun rc => ?_)))))
        simp only [fill_ite, fill_noArgs]
        rw [fill_known (fill_pushArgs ses _ (by simp)), fill_skip (fill_logArgs ses (by simp)), fill_pure]
        rfl
  | [] => rfl
  | [_] => rfl
  | [_, _] => rfl
  | [_, _, _] => rfl
  | _ :: _ :: _ :: _ :: _ :: _ => rw [if_pos (by simp), fill_noArgs]

theorem fill_timeCookie (i : Nat) (path w timestamp state : Str) :
    fill (timeCookieArgs env i path [w, timestamp, state]) = timeCookie env i path timestamp state := by
  have h1 : [w, timestamp, state][1]? = some timestamp := rfl
  have h2 : [w, timestamp, state][2]? = some state := rfl
  unfold timeCookieArgs timeCookie
  refine (fill_noArgs_bind _ _).trans (congrArg (fsRead path >>= ·) (funext fun x => ?_))
  cases x with
  | none => rfl
  | some st =>
    dsimp only
    rw [fill_arg_bind h1, fill_noArgs_bind]
    refine congrArg (timeUtime path timestamp st >>= ·) (funext fun _ => ?_)
    rw [fill_arg_bind h2, fill_noArgs_bind]
    rfl

theorem fill_timeLines (i : Nat) (lines : List Str) : fill (timeLinesArgs cfg env i lines) = timeLines cfg env i lines := by
  induction lines generalizing i with
  | nil => rfl
  | cons line rest ih =>
    unfold timeLinesArgs timeLines
    rw [fill_ite]
    refine if_congr Iff.rfl rfl ?_
    match acavParse line with
    | [cookie, timestamp, state] =>
      have h0 : [cookie, timestamp, state][0]? = some cookie := rfl
      rw [if_neg (by simp), fill_arg_bind h0, fill_ite, fill_arg_bind h0, ih]
      refine if_congr Iff.rfl ?_ rfl
      cases mkcookiepath none cfg.hashlen cookie maxPathLen with
      | none => exact ih (i + 1)
      | some path =>
        dsimp only
        rw [fill_bind, fill_timeCookie, ih]
    | [] => exact ih (i + 1)
    | [_] => exact ih (i + 1)
    | [_, _] => exact ih (i + 1)
    | _ :: _ :: _ :: _ :: _ => rw [if_pos (by simp), ih]

theorem fill_fTime (av : List Str) : fill (fTimeArgs cfg ses env av) = fTime cfg ses env av := by
  unfold fTimeArgs fTime
  rw [fill_ite, fill_ite, fill_noArgs, fill_noArgs, fill_bind, fill_timeLines]
  rfl

theorem fill_replyArg (cmd : Str) (rest : List Str) (ret : Int) (code : Nat) (text : Str) :
    fill (replyArg (cmd :: rest) ret code text) = reply ret code (cmd ++ text) := by
  have h0 : (cmd :: rest)[0]? = some cmd := rfl
  rw [replyArg, fill_arg_bind h0, fill_noArgs]

theorem fill_rekeyArgs (cmd cookie : Str) (rest : List Str) :
    fill (rekeyArgs cfg env (cmd :: cookie :: rest)) = pure (rekeyCookie cfg env cookie) := by
  have h1 : (cmd :: cookie :: rest)[1]? = some cookie := rfl
  unfold rekeyArgs
  rw [fill_ite, fill_arg_bind h1, fill_arg_bind h1, fill_pure, fill_pure]
  split
  · next hnone =>
    rw [rekeyCookie, Option.isNone_iff_eq_none.1 hnone]
  · rfl

theorem fill_checkLogin (cmd cookie : Str) (rest : List Str) (path : Str) (status : Nat) (scpath : Option Str) :
    fill (checkLoginArgs cfg ses env (cmd :: cookie :: rest) path status scpath) =
      checkLogin cfg ses env cmd cookie path status scpath := by
  have h0 : (cmd :: cookie :: rest)[0]? = some cmd := rfl
  unfold checkLoginArgs checkLogin
  refine (fill_noArgs_bind _ _).trans (congrArg (openCookie env path >>= ·) (funext fun x => ?_))
  obtain ⟨rc, ci⟩ := x
  dsimp only
  rw [fill_ite, fill_replyArg, fill_ite, fill_replyArg, fill_ite, fill_noArgs, fill_ite, fill_arg_bind h0, fill_noArgs,
    fill_noArgs_bind]
  refine if_congr Iff.rfl rfl (if_congr Iff.rfl rfl (if_congr Iff.rfl rfl (if_congr Iff.rfl rfl
    (congrArg (fsUtime path env.now >>= ·) (funext fun _ => ?_)))))
  cases scpath with
  | none => rfl
  | some scpath =>
    dsimp only
    rw [fill_known (fill_rekeyArgs cfg env cmd cookie rest)]
    cases rekeyCookie cfg env cookie with
    | error text => exact fill_replyArg _ _ _ _ _
    | ok new =>
      refine (fill_noArgs_bind _ _).trans (congrArg (_ >>= ·) (funext fun moved => ?_))
      rw [fill_ite, fill_replyArg, fill_pure]

theorem fill_fCheck (av : List Str) (hav : av ≠ []) : fill (fCheckArgs cfg ses env av) = fCheck cfg ses env av := by
  unfold fCheckArgs
  match av with
  | [] => exact absurd rfl hav
  | [cmd] =>
    rw [fCheck, fill_ite, fill_replyArg, if_neg (show ¬ ([cmd].length < 2 ∧ [cmd].length > 3) by simp), fill_bind, fill_arg]
    refine if_congr Iff.rfl ?_ rfl
    simp only [List.append_assoc]
  | cmd :: cookie :: rest =>
    have h0 : (cmd :: cookie :: rest)[0]? = some cmd := rfl
    have h1 : (cmd :: cookie :: rest)[1]? = some cookie := rfl
    have hstrict : fill (strictArgs cfg ses (cmd :: cookie :: rest)) = strictCheck cfg ses cookie := by
      unfold strictArgs strictCheck
      rw [fill_ite, fill_arg_bind h1, fill_orUndef, fill_pure]
    have hrekey : fill (isRekey ses (cmd :: cookie :: rest)) =
        pure (protoMinRequired ses.protocol 3 && strcaseeq cmd "REKEY".toList) := by
      unfold isRekey
      rw [fill_ite, fill_arg_bind h0, fill_pure, fill_pure]
      cases protoMinRequired ses.protocol 3 with
      | true => rfl
      | false => rfl
    rw [fCheck, fill_ite, fill_replyArg]
    refine if_congr Iff.rfl (by simp only [List.append_assoc]) ?_
    rw [if_neg (by omega), fill_arg_bind h1]
    dsimp only
    cases mkcookiepath none cfg.hashlen cookie maxPathLen with
    | none => exact fill_replyArg _ _ _ _ _
    | some path =>
      dsimp only
      rw [fill_arg_bind h1, fill_ite, fill_bind, hstrict, fill_arg_bind h1, fill_ite, fill_checkLogin, fill_replyArg]
      refine if_congr Iff.rfl (congrArg (strictCheck cfg ses cookie >>= ·) (funext fun valid => ?_)) rfl
      rw [fill_ite, fill_replyArg]
      refine if_congr Iff.rfl rfl ((fill_noArgs_bind _ _).trans (congrArg (openService env path >>= ·) (funext fun login => ?_)))
      cases login with
      | none => exact fill_replyArg _ _ _ _ _
      | some login =>
        dsimp only
        rw [fill_known hrekey]
        cases mkcookiepath none cfg.hashlen login maxPathLen with
        | none => exact fill_replyArg _ _ _ _ _
        | some lpath =>
          dsimp only
          rw [fill_ite, fill_checkLogin, fill_checkLogin]

theorem fill_fRetr (av : List Str) : fill (fRetrArgs cfg ses env av) = fRetr cfg ses env av := by
  unfold fRetrArgs fRetr
  rw [fill_ite, fill_noArgs]
  refine if_congr Iff.rfl rfl ?_
  match av with
  | [w, cookie, kind] =>
    have h1 : [w, cookie, kind][1]? = some cookie := rfl
    have h2 : [w, cookie, kind][2]? = some kind := rfl
    rw [if_neg (by simp), fill_arg_bind h1]
    dsimp only
    rw [fill_bind, fill_orUndef]
    refine congrArg (_ >>= ·) (funext fun sl => ?_)
    cases sl with
    | none => exact fill_noArgs _
    | some sl =>
      dsimp only
      rw [fill_arg_bind h1]
      cases mkcookiepath none cfg.hashlen cookie maxPathLen with
      | none => exact fill_noArgs _
      | some spath =>
        refine (fill_noArgs_bind _ _).trans (congrArg (openService env spath >>= ·) (funext fun login => ?_))
        cases login with
        | none => exact fill_noArgs _
        | some login =>
          dsimp only
          cases mkcookiepath none cfg.hashlen login maxPathLen with
          | none => exact fill_noArgs _
          | some lpath =>
            refine (fill_noArgs_bind _ _).trans (congrArg (openCookie env lpath >>= ·) (funext fun x => ?_))
            obtain ⟨rc, ci⟩ := x
            dsimp only
            rw [retrType, fill_ite, fill_noArgs, fill_ite, fill_noArgs, fill_ite, fill_noArgs, fill_ite, fill_noArgs,
              fill_arg_bind h2, fill_ite, fill_noArgs, fill_arg_bind h2, fill_ite, fill_noArgs, fill_arg_bind h1, fill_noArgs]
  | [] => rfl
  | [_] => rfl
  | [_, _] => rfl
  | _ :: _ :: _ :: _ :: _ => rw [if_pos (by simp), fill_noArgs]

/-! ### `LOGIN` -/

theorem map_range_getD (w cookie ip user factor : Str) (more : List Str) {n : Nat} (h : n ≤ more.length) :
    (List.range' 5 n).map (fun i => (w :: cookie :: ip :: user :: factor :: more).getD i []) = more.take n := by
  apply List.ext_getElem
  · simp [h]
  · intro i h1 h2
    have hi : i < more.length := by simp at h2; omega
    simp [Nat.add_comm 5 i, hi]

/-- The last word, where `kerberos` is looked for. -/
theorem fill_krbArgs (w cookie ip user factor : Str) (more : List Str) :
    (fill (krbArgs cfg env (w :: cookie :: ip :: user :: factor :: more)) = pure none ∧
        loginArgs cfg env (w :: cookie :: ip :: user :: factor :: more) = .failed) ∨
      ∃ krbpath : Option Str,
        fill (krbArgs cfg env (w :: cookie :: ip :: user :: factor :: more)) = pure (some krbpath) ∧
        loginArgs cfg env (w :: cookie :: ip :: user :: factor :: more) =
          .args ⟨cookie, ip, user, factor, if krbpath.isSome then more.dropLast else more, krbpath⟩ ∧
        (krbpath.isSome → more ≠ []) := by
  unfold krbArgs loginArgs
  cases hmore : more.getLast? with
  | none =>
    obtain rfl := List.getLast?_eq_none_iff.1 hmore
    exact .inr ⟨none, rfl, rfl, fun h => by cases h⟩
  | some last =>
    have hlen : 0 < more.length := by
      cases more with
      | nil => cases hmore
      | cons a l => exact Nat.succ_pos _
    have hlast : (w :: cookie :: ip :: user :: factor :: more)[(w :: cookie :: ip :: user :: factor :: more).length - 1]? =
        some last := by
      rw [← List.getLast?_eq_getElem?]
      simp [List.getLast?_cons, hmore]
    rw [if_pos (by simp only [List.length_cons]; omega), fill_arg_bind hlast, fill_ite, fill_pure]
    dsimp only
    by_cases hkrb : last = "kerberos".toList
    · rw [if_pos hkrb, if_pos (by rw [hmore, hkrb])]
      cases mkcookie 16 (env.rand 0) with
      | none => exact .inl ⟨rfl, rfl⟩
      | some tmpkrb =>
        dsimp only
        rw [fill_ite, fill_pure, fill_pure]
        split
        · exact .inl ⟨rfl, rfl⟩
        · exact .inr ⟨_, rfl, rfl, fun _ => List.length_pos_iff.1 hlen⟩
    · rw [if_neg hkrb, if_neg (by rw [hmore]; exact fun h => hkrb (Option.some.inj h))]
      exact .inr ⟨none, rfl, rfl, fun h => by cases h⟩

theorem fill_recordArgs (acavFails : Bool) (now : Nat) (addinfo : Bool) (ci : Cinfo) (w cookie ip user factor : Str)
    (more : List Str) {n : Nat} (h : n ≤ more.length) (krbpath : Option Str) :
    fill (recordArgs acavFails now addinfo ci (w :: cookie :: ip :: user :: factor :: more) (n + 5) cookie krbpath) =
      Prog.orUndef (loginRecord acavFails now addinfo ci ⟨cookie, ip, user, factor, more.take n, krbpath⟩) := by
  have h2 : (w :: cookie :: ip :: user :: factor :: more)[2]? = some ip := rfl
  have h3 : (w :: cookie :: ip :: user :: factor :: more)[3]? = some user := rfl
  have h4 : (w :: cookie :: ip :: user :: factor :: more)[4]? = some factor := rfl
  have hmore : fill (args (w :: cookie :: ip :: user :: factor :: more) (List.range' 5 (n + 5 - 5))) = pure (more.take n) := by
    rw [Nat.add_sub_cancel, fill_args, map_range_getD w cookie ip user factor more h]
    intro i hi
    rw [List.mem_range'_1] at hi
    simp only [List.length_cons]
    omega
  unfold recordArgs
  rw [fill_arg_bind h2, fill_ite, fill_pure, fill_known (fill_args (by simp)), fill_arg_bind h3, fill_ite, fill_pure,
    fill_arg_bind h3, fill_arg_bind h4, fill_ite, fill_pure, fill_ite, fill_pure, fill_arg_bind h4, fill_known hmore,
    fill_orUndef]
  unfold loginRecord
  dsimp only
  split
  · rfl
  split
  · rfl
  split
  · rfl
  split
  · next hfail => rw [if_pos hfail.1, if_pos hfail.2]; rfl
  · rfl

theorem fill_lastArgs (w cookie ip user factor : Str) {more : List Str} (hmore : more ≠ []) (krbpath : Str) :
    fill (lastArgs ses env (w :: cookie :: ip :: user :: factor :: more) krbpath) =
      loginLast ses env (env.overwritten.getD (w :: cookie :: ip :: user :: factor :: more)) krbpath := by
  have h1 : (w :: cookie :: ip :: user :: factor :: more)[1]? = some cookie := rfl
  have hlen := List.length_pos_iff.2 hmore
  unfold lastArgs loginLast
  cases env.lines with
  | nil => rfl
  | cons line rest =>
    dsimp only
    rw [fill_ite, fill_noArgs_bind, fill_known (fill_pushArgs ses _ (by simp; omega)), fill_skip (fill_logArgs ses (by simp)),
      fill_pure]
    -- the word that is read may be overwritten by now
    refine if_congr Iff.rfl (congrArg (_ >>= ·) (funext fun _ => ?_)) rfl
    rw [fill_arg_bind h1, fill_noArgs_bind]
    rfl

theorem fill_receiveArgs (w cookie ip user factor : Str) {more : List Str} (hmore : more ≠ []) (krbpath : Str) :
    fill (receiveArgs ses env (w :: cookie :: ip :: user :: factor :: more) krbpath) =
      loginReceive ses env (w :: cookie :: ip :: user :: factor :: more) krbpath := by
  unfold receiveArgs loginReceive
  refine (fill_noArgs_bind _ _).trans (congrArg (_ >>= ·) (funext fun made => ?_))
  rw [fill_ite, fill_pure]
  split
  · rfl
  · cases env.size with
    | none => rfl
    | some sizebuf =>
      refine (fill_noArgs_bind _ _).trans (congrArg (_ >>= ·) (funext fun t => ?_))
      cases t with
      | broken => rfl
      | unwritten => rfl
      | done =>
        dsimp only
        rw [fill_ite, fill_pure, fill_lastArgs ses env w cookie ip user factor hmore]

theorem fill_answerArgs (w cookie ip user factor : Str) (more : List Str) {krbpath : Option Str}
    (hkrb : krbpath.isSome → more ≠ []) (alreadyKrb : Bool) (used : List Str) :
    fill (answerArgs ses env (w :: cookie :: ip :: user :: factor :: more) krbpath alreadyKrb) =
      loginAnswer ses env (w :: cookie :: ip :: user :: factor :: more) ⟨cookie, ip, user, factor, used, krbpath⟩ alreadyKrb := by
  have hstored : fill (do
      let push ← pushArgs ses "LOGIN".toList (w :: cookie :: ip :: user :: factor :: more) [1, 2, 3, 4]
      logArgs ses (w :: cookie :: ip :: user :: factor :: more) [3, 4, 2]
      return { ret := .ret 0, out := [.line 200 "LOGIN successful: Cookie Stored.".toList], push }) =
      pure (loginStored ses ⟨cookie, ip, user, factor, used, krbpath⟩) := by
    rw [fill_known (fill_pushArgs ses _ (by simp)), fill_skip (fill_logArgs ses (by simp)), fill_pure]
    rfl
  unfold answerArgs loginAnswer
  cases krbpath with
  | none => exact hstored
  | some krbpath =>
    cases alreadyKrb with
    | true => exact hstored
    | false => exact fill_receiveArgs ses env w cookie ip user factor (hkrb rfl) krbpath

theorem fill_loginAt (w cookie ip user factor : Str) (more : List Str) {n : Nat} (h : n ≤ more.length) {krbpath : Option Str}
    (hkrb : krbpath.isSome → more ≠ []) (path : Str) :
    fill (loginAtArgs ses env (w :: cookie :: ip :: user :: factor :: more) (n + 5) cookie krbpath path) =
      loginAt ses env (w :: cookie :: ip :: user :: factor :: more) ⟨cookie, ip, user, factor, more.take n, krbpath⟩ path := by
  have h1 : (w :: cookie :: ip :: user :: factor :: more)[1]? = some cookie := rfl
  have h3 : (w :: cookie :: ip :: user :: factor :: more)[3]? = some user := rfl
  unfold loginAtArgs loginAt
  refine (fill_noArgs_bind _ _).trans (congrArg (openCookie env path >>= ·) (funext fun x => ?_))
  obtain ⟨rc, ci⟩ := x
  have hsame : fill (sameUser rc ci (w :: cookie :: ip :: user :: factor :: more)) =
      pure (if rc = 0 then decide (user = ci.user) else true) := by
    rw [sameUser, fill_ite, fill_arg_bind h3, fill_pure, fill_pure]
    split
    · rfl
    · rfl
  dsimp only
  rw [fill_ite, fill_arg_bind h1, fill_noArgs, fill_known hsame, fill_ite, fill_known (fill_args (by simp)), fill_noArgs, fill_ite,
    fill_noArgs, fill_bind, fill_recordArgs _ _ _ _ _ _ _ _ _ _ h]
  refine if_congr Iff.rfl rfl (if_congr ?_ rfl (if_congr Iff.rfl rfl (congrArg (_ >>= ·) (funext fun r => ?_))))
  · by_cases hrc : rc = 0
    · simp [hrc]
    · simp [hrc]
  · cases r with
    | bad => exact fill_noArgs _
    | same => exact fill_noArgs _
    | full text alreadyKrb =>
      dsimp only
      rw [fill_ite, fill_noArgs, fill_noArgs_bind]
      refine if_congr Iff.rfl rfl (congrArg (_ >>= ·) (funext fun stored => ?_))
      rw [fill_ite, fill_noArgs, fill_answerArgs ses env w cookie ip user factor more hkrb]

theorem fill_fLogin (av : List Str) : fill (fLoginArgs cfg ses env av) = fLogin cfg ses env av := by
  unfold fLoginArgs fLogin
  rw [fill_ite, fill_noArgs]
  refine if_congr Iff.rfl rfl ?_
  match av with
  | w :: cookie :: ip :: user :: factor :: more =>
    have h1 : (w :: cookie :: ip :: user :: factor :: more)[1]? = some cookie := rfl
    rw [if_neg (by simp only [List.length_cons]; omega)]
    rcases fill_krbArgs cfg env w cookie ip user factor more with ⟨hnone, hargs⟩ | ⟨krbpath, hsome, hargs, hmore⟩
    · rw [fill_known hnone, hargs]
      exact fill_noArgs _
    · rw [fill_known hsome, hargs]
      dsimp only
      rw [fill_arg_bind h1]
      cases mkcookiepath none cfg.hashlen cookie maxPathLen with
      | none => exact fill_noArgs _
      | some path =>
        have hlogin := fun n (hn : n ≤ more.length) => fill_loginAt ses env w cookie ip user factor more hn hmore path
        cases krbpath with
        | none =>
          have hwhole := hlogin more.length (Nat.le_refl _)
          rw [List.take_length] at hwhole
          exact hwhole
        | some krbpath =>
          -- one word less, `kerberos`
          have hlen := List.length_pos_iff.2 (hmore rfl)
          have hac : (w :: cookie :: ip :: user :: factor :: more).length - 1 = (more.length - 1) + 5 := by
            simp only [List.length_cons]
            omega
          have hless := hlogin (more.length - 1) (Nat.sub_le _ _)
          rw [← List.dropLast_eq_take] at hless
          dsimp only [Option.isSome]
          rw [if_pos rfl, if_pos rfl, hac]
          exact hless
  | [] => rfl
  | [_] => rfl
  | [_, _] => rfl
  | [_, _, _] => rfl
  | [_, _, _, _] => rfl

theorem fill_starttlsArgs (av : List Str) : fill (starttlsArgs av) = pure () := by
  unfold starttlsArgs
  match av with
  | [] => rfl
  | [_] => rfl
  | w :: version :: rest =>
    have h1 : (w :: version :: rest)[1]? = some version := rfl
    rw [if_pos (by simp), fill_arg_bind h1, fill_ite, fill_arg_bind h1, fill_pure, ite_self]

theorem fill_handle {av : List Str} (hav : av ≠ []) (c : CommandName) :
    fill (handleArgs cfg ses env av c) = handle cfg ses env av c := by
  cases c with
  | noop => exact fill_noArgs _
  | quit => exact fill_noArgs _
  | help => exact fill_noArgs _
  | starttls =>
    unfold handleArgs
    rw [fill_skip (fill_starttlsArgs av), fill_noArgs]
  | login => exact fill_fLogin cfg ses env av
  | logout => exact fill_fLogout cfg ses env av
  | register => exact fill_fRegister cfg ses env av
  | check => exact fill_fCheck cfg ses env av hav
  | rekey => exact fill_fCheck cfg ses env av hav
  | retr => exact fill_fRetr cfg ses env av
  | time => exact fill_fTime cfg ses env av
  | daemon => exact fill_fDaemon cfg ses env av

/-- The reads left in are all of the model: with the words filled in it is
`command`. -/
theorem fill_command (line : Str) : fill (commandArgs cfg ses env line) = command cfg ses env line := by
  unfold commandArgs command
  cases acavParse line with
  | nil => exact fill_noArgs _
  | cons word rest =>
    have h0 : (word :: rest)[0]? = some word := rfl
    rw [if_neg (by simp), fill_arg_bind h0]
    unfold dispatchArgs
    dsimp only
    cases findCommand word with
    | none => exact (fill_arg_bind h0 _).trans (fill_noArgs _)
    | some c => exact fill_handle cfg ses env (List.cons_ne_nil _ _) c

end

/-! ## Words that were sent -/

/-- Every `av[i]` is a word of its line, whatever the other calls answer. `Φ` holds
of the result. -/
def ReadsSent {α : Type} (Φ : α → Prop) : AvProg α → Prop
  | .ret a => Φ a
  | .undef => True
  | .ask (.av av i) k => ∃ h : i < av.length, ReadsSent Φ (k (av.get ⟨i, h⟩))
  | .ask (.fs _) k => ∀ r, ReadsSent Φ (k r)

/-- Nothing is asked of the result. -/
abbrev Safe {α : Type} (p : AvProg α) : Prop := ReadsSent (fun _ => True) p

section
variable {α β : Type} {Φ : α → Prop} {Ψ : β → Prop}

theorem reads_bind {p : AvProg α} {f : α → AvProg β} (hp : ReadsSent Φ p) (hf : ∀ a, Φ a → ReadsSent Ψ (f a)) :
    ReadsSent Ψ (p >>= f) := by
  induction p with
  | ret a => exact hf a hp
  | undef => trivial
  | ask o k ih =>
    cases o with
    | av av i =>
      obtain ⟨hi, hk⟩ := hp
      exact ⟨hi, ih _ hk⟩
    | fs o => exact fun r => ih r (hp r)

theorem safe_bind {p : AvProg α} {f : α → AvProg β} (hp : Safe p) (hf : ∀ a, ReadsSent Ψ (f a)) : ReadsSent Ψ (p >>= f) :=
  reads_bind hp fun a _ => hf a

theorem reads_ite {c : Prop} [Decidable c] {p q : AvProg α} (hp : c → ReadsSent Φ p) (hq : ¬ c → ReadsSent Φ q) :
    ReadsSent Φ (if c then p else q) := by
  split
  · next h => exact hp h
  · next h => exact hq h

theorem safe_noArgs (p : Handler α) : Safe (noArgs p) := by
  induction p with
  | ret a => trivial
  | undef => trivial
  | ask o k ih => exact ih

theorem safe_orUndef (x : Option α) : Safe (Prog.orUndef x : AvProg α) := by
  cases x <;> trivial

theorem reads_arg {av : List Str} {i : Nat} (h : i < av.length) : ReadsSent (· = av.get ⟨i, h⟩) (arg av i) := ⟨h, rfl⟩

theorem safe_arg {av : List Str} {i : Nat} (h : i < av.length) : Safe (arg av i) := ⟨h, trivial⟩

theorem safe_args {av : List Str} {is : List Nat} (h : ∀ i ∈ is, i < av.length) : Safe (args av is) := by
  induction is with
  | nil => trivial
  | cons i is ih =>
    obtain ⟨hi, his⟩ := List.forall_mem_cons.1 h
    exact safe_bind (safe_arg hi) fun _ => safe_bind (ih his) fun _ => trivial

theorem safe_pushArgs (ses : Session) (command : Str) {av : List Str} {is : List Nat} (h : ∀ i ∈ is, i < av.length) :
    Safe (pushArgs ses command av is) :=
  reads_ite (fun _ => safe_bind (safe_args h) fun _ => trivial) fun _ => trivial

theorem safe_logArgs (ses : Session) {av : List Str} {is : List Nat} (h : ∀ i ∈ is, i < av.length) :
    Safe (logArgs ses av is) :=
  reads_ite (fun _ => trivial) fun _ => safe_bind (safe_args h) fun _ => trivial

theorem safe_replyArg {av : List Str} (h : 0 < av.length) (ret : Int) (code : Nat) (text : Str) :
    Safe (replyArg av ret code text) :=
  safe_bind (safe_arg h) fun _ => safe_noArgs _

end

section
variable (cfg : Config) (ses : Session) (env : Env)

theorem safe_starttls (av : List Str) : Safe (starttlsArgs av) := by
  refine reads_ite (fun h => ?_) fun _ => trivial
  refine safe_bind (safe_arg h) fun _ => ?_
  exact reads_ite (fun _ => trivial) fun _ => safe_bind (safe_arg h) fun _ => trivial

theorem safe_fDaemon (av : List Str) : Safe (fDaemonArgs cfg ses env av) := by
  refine reads_ite (fun _ => safe_noArgs _) fun _ => reads_ite (fun _ => safe_noArgs _) fun hac => ?_
  refine reads_ite (fun _ => safe_noArgs _) fun _ => safe_bind (safe_arg (by omega)) fun _ => ?_
  exact reads_ite (fun _ => safe_noArgs _) fun _ => trivial

theorem safe_timeCookie (i : Nat) (path : Str) {av : List Str} (h : av.length = 3) : Safe (timeCookieArgs env i path av) := by
  refine safe_bind (safe_noArgs _) fun x => ?_
  cases x with
  | none => trivial
  | some st =>
    refine safe_bind (safe_arg (by omega)) fun _ => safe_bind (safe_noArgs _) fun _ => ?_
    exact safe_bind (safe_arg (by omega)) fun _ => safe_bind (safe_noArgs _) fun _ => trivial

theorem safe_timeLines (i : Nat) (lines : List Str) : Safe (timeLinesArgs cfg env i lines) := by
  induction lines generalizing i with
  | nil => trivial
  | cons line rest ih =>
    refine reads_ite (fun _ => trivial) fun _ => reads_ite (fun _ => ih (i + 1)) fun hac => ?_
    have hlen : (acavParse line).length = 3 := by omega
    refine safe_bind (safe_arg (by omega)) fun _ => reads_ite (fun _ => ?_) fun _ => ih (i + 1)
    refine safe_bind (safe_arg (by omega)) fun cookie => ?_
    cases mkcookiepath none cfg.hashlen cookie maxPathLen with
    | none => exact ih (i + 1)
    | some path => exact safe_bind (safe_timeCookie env i path hlen) fun _ => ih (i + 1)

theorem safe_fTime (av : List Str) : Safe (fTimeArgs cfg ses env av) := by
  refine reads_ite (fun _ => safe_noArgs _) fun _ => reads_ite (fun _ => safe_noArgs _) fun _ => ?_
  exact safe_bind (safe_timeLines cfg env 0 env.lines) fun _ => trivial

theorem safe_fLogout (av : List Str) : Safe (fLogoutArgs cfg ses env av) := by
  refine reads_ite (fun _ => safe_noArgs _) fun _ => reads_ite (fun _ => safe_noArgs _) fun hac => ?_
  have hlen : av.length = 3 := by omega
  refine safe_bind (safe_arg (by omega)) fun cookie => ?_
  cases mkcookiepath none cfg.hashlen cookie maxPathLen with
  | none => exact safe_noArgs _
  | some path =>
    refine safe_bind (safe_noArgs _) fun x => ?_
    obtain ⟨rc, ci⟩ := x
    refine reads_ite (fun _ => safe_noArgs _) fun _ => reads_ite (fun _ => ?_) fun _ => ?_
    · exact safe_bind (safe_arg (by omega)) fun _ => safe_noArgs _
    · refine safe_bind (safe_noArgs _) fun _ => reads_ite (fun _ => safe_noArgs _) fun _ => ?_
      refine safe_bind (safe_pushArgs ses _ (by simp [hlen])) fun _ => ?_
      exact safe_bind (safe_logArgs ses (by simp [hlen])) fun _ => trivial

theorem safe_fRegister (av : List Str) : Safe (fRegisterArgs cfg ses env av) := by
  refine reads_ite (fun _ => safe_noArgs _) fun _ => reads_ite (fun _ => safe_noArgs _) fun hac => ?_
  have hlen : av.length = 4 := by omega
  refine safe_bind (safe_arg (by omega)) fun login => ?_
  cases mkcookiepath none cfg.hashlen login maxPathLen with
  | none => exact safe_noArgs _
  | some lpath =>
    refine safe_bind (safe_arg (by omega)) fun service => ?_
    cases mkcookiepath none cfg.hashlen service maxPathLen with
    | none => exact safe_noArgs _
    | some spath =>
      refine safe_bind (safe_noArgs _) fun x => ?_
      obtain ⟨rc, ci⟩ := x
      refine reads_ite (fun _ => safe_noArgs _) fun _ => reads_ite (fun _ => safe_noArgs _) fun _ => ?_
      refine reads_ite (fun _ => safe_noArgs _) fun _ => reads_ite (fun _ => safe_noArgs _) fun _ => ?_
      refine safe_bind (safe_arg (by omega)) fun _ => safe_bind (safe_noArgs _) fun _ => ?_
      refine reads_ite (fun _ => safe_noArgs _) fun _ => reads_ite (fun _ => safe_noArgs _) fun _ => ?_
      refine safe_bind (safe_pushArgs ses _ (by simp [hlen])) fun _ => ?_
      exact safe_bind (safe_logArgs ses (by simp [hlen])) fun _ => trivial

theorem safe_fRetr (av : List Str) : Safe (fRetrArgs cfg ses env av) := by
  refine reads_ite (fun _ => safe_noArgs _) fun _ => reads_ite (fun _ => safe_noArgs _) fun hac => ?_
  have hlen : av.length = 3 := by omega
  refine safe_bind (safe_arg (by omega)) fun _ => safe_bind (safe_orUndef _) fun sl => ?_
  cases sl with
  | none => exact safe_noArgs _
  | some sl =>
    refine safe_bind (safe_arg (by omega)) fun cookie => ?_
    cases mkcookiepath none cfg.hashlen cookie maxPathLen with
    | none => exact safe_noArgs _
    | some spath =>
      refine safe_bind (safe_noArgs _) fun login => ?_
      cases login with
      | none => exact safe_noArgs _
      | some login =>
        dsimp only
        cases mkcookiepath none cfg.hashlen login maxPathLen with
        | none => exact safe_noArgs _
        | some lpath =>
          refine safe_bind (safe_noArgs _) fun x => ?_
          obtain ⟨rc, ci⟩ := x
          refine reads_ite (fun _ => safe_noArgs _) fun _ => reads_ite (fun _ => safe_noArgs _) fun _ => ?_
          refine reads_ite (fun _ => safe_noArgs _) fun _ => reads_ite (fun _ => safe_noArgs _) fun _ => ?_
          refine safe_bind (safe_arg (by omega)) fun _ => reads_ite (fun _ => safe_noArgs _) fun _ => ?_
          refine safe_bind (safe_arg (by omega)) fun _ => reads_ite (fun _ => safe_noArgs _) fun _ => ?_
          exact safe_bind (safe_arg (by omega)) fun _ => safe_noArgs _

theorem safe_checkLogin {av : List Str} (h : 2 ≤ av.length) (path : Str) (status : Nat) (scpath : Option Str) :
    Safe (checkLoginArgs cfg ses env av path status scpath) := by
  have h0 : 0 < av.length := by omega
  refine safe_bind (safe_noArgs _) fun x => ?_
  obtain ⟨rc, ci⟩ := x
  refine reads_ite (fun _ => safe_replyArg h0 _ _ _) fun _ => reads_ite (fun _ => safe_replyArg h0 _ _ _) fun _ => ?_
  refine reads_ite (fun _ => safe_noArgs _) fun _ => reads_ite (fun _ => ?_) fun _ => ?_
  · exact safe_bind (safe_arg h0) fun _ => safe_noArgs _
  · refine safe_bind (safe_noArgs _) fun _ => ?_
    cases scpath with
    | none => trivial
    | some scpath =>
      have hrekey : Safe (rekeyArgs cfg env av) := by
        refine reads_ite (fun _ => trivial) fun _ => ?_
        exact safe_bind (safe_arg (by omega)) fun _ => safe_bind (safe_arg (by omega)) fun _ => trivial
      refine safe_bind hrekey fun new => ?_
      cases new with
      | error text => exact safe_replyArg h0 _ _ _
      | ok new =>
        exact safe_bind (safe_noArgs _) fun _ => reads_ite (fun _ => safe_replyArg h0 _ _ _) fun _ => trivial

/-- `ac < 2 && ac > 3` holds of no line, so the word has to be there by itself. -/
theorem safe_fCheck {av : List Str} (h0 : 0 < av.length) (h : ses.al.key = .cgi ∨ ses.al.key = .service → 2 ≤ av.length) :
    Safe (fCheckArgs cfg ses env av) := by
  refine reads_ite (fun _ => safe_replyArg h0 _ _ _) fun hkey => reads_ite (fun _ => safe_replyArg h0 _ _ _) fun _ => ?_
  -- the second test has let any number of words through
  have hlen : 2 ≤ av.length := by
    apply h
    by_cases hcgi : ses.al.key = .cgi
    · exact .inl hcgi
    · exact .inr (not_not.1 fun hservice => hkey ⟨hcgi, hservice⟩)
  refine safe_bind (safe_arg (by omega)) fun name => ?_
  cases mkcookiepath none cfg.hashlen name maxPathLen with
  | none => exact safe_replyArg h0 _ _ _
  | some path =>
    refine safe_bind (safe_arg (by omega)) fun _ => reads_ite (fun _ => ?_) fun _ => ?_
    · have hstrict : Safe (strictArgs cfg ses av) :=
        reads_ite (fun _ => safe_bind (safe_arg (by omega)) fun _ => safe_orUndef _) fun _ => trivial
      have hrekey : Safe (isRekey ses av) :=
        reads_ite (fun _ => safe_bind (safe_arg h0) fun _ => trivial) fun _ => trivial
      refine safe_bind hstrict fun _ => reads_ite (fun _ => safe_replyArg h0 _ _ _) fun _ => ?_
      refine safe_bind (safe_noArgs _) fun login => ?_
      cases login with
      | none => exact safe_replyArg h0 _ _ _
      | some login =>
        refine safe_bind hrekey fun _ => ?_
        cases mkcookiepath none cfg.hashlen login maxPathLen with
        | none => exact safe_replyArg h0 _ _ _
        | some lpath => exact reads_ite (fun _ => safe_checkLogin cfg ses env hlen _ _ _) fun _ => safe_checkLogin cfg ses env hlen _ _ _
    · refine safe_bind (safe_arg (by omega)) fun _ => reads_ite (fun _ => safe_checkLogin cfg ses env hlen _ _ _) fun _ => ?_
      exact safe_replyArg h0 _ _ _

/-- `kerberos` is a sixth word or later. -/
theorem reads_krbArgs (av : List Str) :
    ReadsSent (fun r => ∀ krbpath, r = some krbpath → krbpath.isSome → 6 ≤ av.length) (krbArgs cfg env av) := by
  refine reads_ite (fun hac => ?_) fun _ => ?_
  · refine safe_bind (safe_arg (by omega)) fun last => reads_ite (fun _ => ?_) fun _ _ _ _ => hac
    cases mkcookie 16 (env.rand 0) with
    | none => exact fun _ _ _ => hac
    | some tmpkrb => exact reads_ite (fun _ _ _ _ => hac) fun _ _ _ _ => hac
  · intro krbpath h hsome
    cases h
    cases hsome

theorem safe_record (acavFails : Bool) (now : Nat) (addinfo : Bool) (ci : Cinfo) {av : List Str} {ac : Nat}
    (h5 : 5 ≤ av.length) (hac : ac ≤ av.length) (cookie : Str) (krbpath : Option Str) :
    Safe (recordArgs acavFails now addinfo ci av ac cookie krbpath) := by
  refine safe_bind (safe_arg (by omega)) fun _ => reads_ite (fun _ => trivial) fun _ => ?_
  refine safe_bind (safe_args (by simp; omega)) fun _ => ?_
  refine safe_bind (safe_arg (by omega)) fun _ => reads_ite (fun _ => trivial) fun _ => ?_
  refine safe_bind (safe_arg (by omega)) fun _ => safe_bind (safe_arg (by omega)) fun _ => ?_
  refine reads_ite (fun _ => trivial) fun _ => reads_ite (fun _ => trivial) fun _ => ?_
  refine safe_bind (safe_arg (by omega)) fun _ => safe_bind (safe_args ?_) fun _ => safe_orUndef _
  intro i hi
  rw [List.mem_range'_1] at hi
  omega

theorem safe_receive {av : List Str} (h : 6 ≤ av.length) (krbpath : Str) : Safe (receiveArgs ses env av krbpath) := by
  have hlast : Safe (lastArgs ses env av krbpath) := by
    unfold lastArgs
    cases env.lines with
    | nil => trivial
    | cons line rest =>
      refine reads_ite (fun _ => ?_) fun _ => ?_
      · refine safe_bind (safe_noArgs _) fun _ => safe_bind (safe_arg (by omega)) fun _ => ?_
        exact safe_bind (safe_noArgs _) fun _ => trivial
      · refine safe_bind (safe_pushArgs ses _ (by simp; omega)) fun _ => ?_
        exact safe_bind (safe_logArgs ses (by simp; omega)) fun _ => trivial
  refine safe_bind (safe_noArgs _) fun _ => reads_ite (fun _ => trivial) fun _ => ?_
  cases env.size with
  | none => trivial
  | some sizebuf =>
    refine safe_bind (safe_noArgs _) fun t => ?_
    cases t with
    | broken => trivial
    | unwritten => trivial
    | done => exact reads_ite (fun _ => trivial) fun _ => hlast

theorem safe_answer {av : List Str} (h5 : 5 ≤ av.length) {krbpath : Option Str} (hkrb : krbpath.isSome → 6 ≤ av.length)
    (alreadyKrb : Bool) : Safe (answerArgs ses env av krbpath alreadyKrb) := by
  unfold answerArgs
  split
  · exact safe_receive ses env (hkrb rfl) _
  · refine safe_bind (safe_pushArgs ses _ (by simp; omega)) fun _ => ?_
    exact safe_bind (safe_logArgs ses (by simp; omega)) fun _ => trivial

theorem safe_loginAt {av : List Str} {ac : Nat} (h5 : 5 ≤ av.length) (hac : ac ≤ av.length) (cookie : Str)
    {krbpath : Option Str} (hkrb : krbpath.isSome → 6 ≤ av.length) (path : Str) :
    Safe (loginAtArgs ses env av ac cookie krbpath path) := by
  refine safe_bind (safe_noArgs _) fun x => ?_
  obtain ⟨rc, ci⟩ := x
  have hsame : Safe (sameUser rc ci av) :=
    reads_ite (fun _ => safe_bind (safe_arg (by omega)) fun _ => trivial) fun _ => trivial
  refine reads_ite (fun _ => safe_bind (safe_arg (by omega)) fun _ => safe_noArgs _) fun _ => ?_
  refine safe_bind hsame fun _ => reads_ite (fun _ => ?_) fun _ => reads_ite (fun _ => safe_noArgs _) fun _ => ?_
  · exact safe_bind (safe_args (by simp; omega)) fun _ => safe_noArgs _
  · refine safe_bind (safe_record _ _ _ _ h5 hac _ _) fun r => ?_
    cases r with
    | bad => exact safe_noArgs _
    | same => exact safe_noArgs _
    | full text alreadyKrb =>
      refine reads_ite (fun _ => safe_noArgs _) fun _ => safe_bind (safe_noArgs _) fun _ => ?_
      exact reads_ite (fun _ => safe_noArgs _) fun _ => safe_answer ses env h5 hkrb _

theorem safe_fLogin (av : List Str) : Safe (fLoginArgs cfg ses env av) := by
  refine reads_ite (fun _ => safe_noArgs _) fun _ => reads_ite (fun _ => safe_noArgs _) fun hac => ?_
  -- the ticket's push line has `av[5]` in it, so `kerberos` has to be that word or a later one
  refine reads_bind (reads_krbArgs cfg env av) fun r hr => ?_
  cases r with
  | none => exact safe_noArgs _
  | some krbpath =>
    refine safe_bind (safe_arg (by omega)) fun cookie => ?_
    cases mkcookiepath none cfg.hashlen cookie maxPathLen with
    | none => exact safe_noArgs _
    | some path =>
      refine safe_loginAt ses env (by omega) ?_ cookie (hr krbpath rfl) path
      split
      · exact Nat.sub_le _ _
      · exact Nat.le_refl _

/-! ## One line -/

/-- The line is `CHECK` or `REKEY` and no other word, from a host that may ask. -/
def BareCheck (line : Str) : Prop :=
  ∃ word, acavParse line = [word] ∧ (findCommand word = some .check ∨ findCommand word = some .rekey) ∧
    (ses.al.key = .cgi ∨ ses.al.key = .service)

theorem safe_handle {av : List Str} (h0 : 0 < av.length) (c : CommandName)
    (hc : c = .check ∨ c = .rekey → ses.al.key = .cgi ∨ ses.al.key = .service → 2 ≤ av.length) :
    Safe (handleArgs cfg ses env av c) := by
  cases c with
  | noop => exact safe_noArgs _
  | quit => exact safe_noArgs _
  | help => exact safe_noArgs _
  | starttls => exact safe_bind (safe_starttls av) fun _ => safe_noArgs _
  | login => exact safe_fLogin cfg ses env av
  | logout => exact safe_fLogout cfg ses env av
  | register => exact safe_fRegister cfg ses env av
  | check => exact safe_fCheck cfg ses env h0 (hc (.inl rfl))
  | rekey => exact safe_fCheck cfg ses env h0 (hc (.inr rfl))
  | retr => exact safe_fRetr cfg ses env av
  | time => exact safe_fTime cfg ses env av
  | daemon => exact safe_fDaemon cfg ses env av

/-- The one word is read, then the one after it. -/
theorem bare_unsafe {word : Str} (hkey : ses.al.key = .cgi ∨ ses.al.key = .service) :
    ¬ Safe (fCheckArgs cfg ses env [word]) := by
  have hpast : ¬ (ses.al.key ≠ .cgi ∧ ses.al.key ≠ .service) := by
    rintro ⟨hcgi, hservice⟩
    rcases hkey with h | h
    · exact hcgi h
    · exact hservice h
  unfold fCheckArgs
  rw [if_neg hpast, if_neg (by simp)]
  rintro ⟨h1, -⟩
  exact absurd h1 (by simp)

theorem bareCheck_unsafe {line : Str} (h : BareCheck ses line) : ¬ Safe (commandArgs cfg ses env line) := by
  obtain ⟨word, hav, hfind, hkey⟩ := h
  have hcheck : dispatchArgs cfg ses env [word] word = fCheckArgs cfg ses env [word] := by
    unfold dispatchArgs
    rcases hfind with hfind | hfind
    · rw [hfind]
      rfl
    · rw [hfind]
      rfl
  unfold commandArgs
  rw [hav, if_neg (by simp)]
  -- `av[0]` is there, and dispatched
  rintro ⟨_, hsafe⟩
  have hsafe' : Safe (dispatchArgs cfg ses env [word] word) := hsafe
  rw [hcheck] at hsafe'
  exact bare_unsafe cfg ses env hkey hsafe'

theorem safe_command {line : Str} (hbare : ¬ BareCheck ses line) : Safe (commandArgs cfg ses env line) := by
  unfold commandArgs
  refine reads_ite (fun _ => safe_noArgs _) fun hac => ?_
  have h0 : 0 < (acavParse line).length := Nat.pos_of_ne_zero hac
  refine reads_bind (reads_arg h0) fun word hword => ?_
  have hfirst : (acavParse line)[0]? = some word := by rw [hword]; exact List.getElem?_eq_getElem h0
  unfold dispatchArgs
  cases hfind : findCommand word with
  | none => exact safe_bind (safe_arg h0) fun _ => safe_noArgs _
  | some c =>
    refine safe_handle cfg ses env h0 c fun hc hkey => ?_
    match hav : acavParse line with
    | [] => simp [hav] at h0
    | [only] =>
      rw [hav] at hfirst
      obtain rfl : only = word := Option.some.inj hfirst
      have hcheck : findCommand only = some .check ∨ findCommand only = some .rekey := by
        rw [hfind]
        exact hc.imp (congrArg some) (congrArg some)
      exact absurd ⟨only, hav, hcheck, hkey⟩ hbare
    -- any second word will do
    | _ :: _ :: rest => exact Nat.le_add_left 2 rest.length

/-- Every word a handler reads is one of those that were sent, unless the line is a
bare `CHECK` or `REKEY`. -/
theorem reads_sent_iff (line : Str) : Safe (commandArgs cfg ses env line) ↔ ¬ BareCheck ses line :=
  ⟨fun hsafe hbare => bareCheck_unsafe cfg ses env hbare hsafe, fun hbare => safe_command cfg ses env hbare⟩

end

/-- `CHECK` alone has `av[1]` read, which is NULL. -/
theorem check_alone_unsafe : ¬ Safe (commandArgs Config.default Session.cgi (Env.calm 0) "CHECK".toList) := by
  refine bareCheck_unsafe _ _ _ ⟨"CHECK".toList, ?_, .inl ?_, .inl rfl⟩
  · decide
  · decide

end Cosign
