import Cosign.Daemon.Session
/-!
# `LOGIN`

`f_login` writes a record to a temporary file and then publishes it: with
`link` for a new login cookie, with `rename` over the record it has read for
one that adds factors or a new address. With `kerberos` as the last word a
ticket follows, and it is received after the record is published.
-/

namespace Cosign

open Lib

structure LoginArgs where
  cookie : Str
  ip : Str
  user : Str
  factor : Str
  more : List Str
  /-- The ticket's path, with `kerberos`. -/
  krbpath : Option Str

def LoginArgs.factors (a : LoginArgs) : List Str := a.factor :: a.more

/-! ## The record -/

def fieldLine (k : Char) (v : Str) : Str := k :: (v ++ ['\n'])

def ticketLine : Option Str → Str
  | some k => fieldLine 'k' k
  | none => []

def recordText (ip ipCur user : Str) (factors : List Str) (ctime : Nat) (tkt : Option Str) : Str :=
  fieldLine 'v' ['2'] ++ fieldLine 's' ['1'] ++ fieldLine 'i' ip ++ fieldLine 'j' ipCur ++ fieldLine 'p' user ++
    fieldLine 'r' (unwords factors) ++ fieldLine 't' (dec ctime) ++ ticketLine tkt

/-- The `k` line, and `already_krb`. -/
def loginTicket (addinfo : Bool) (ci : Cinfo) : Option Str → Option Str × Bool
  | some krbpath => if addinfo ∧ ci.krbtkt ≠ [] then (some ci.krbtkt, true) else (some krbpath, false)
  | none => if ci.krbtkt ≠ [] then (some ci.krbtkt, true) else (none, false)

inductive Record where
  /-- `file_err` -/
  | bad
  /-- Neither the address nor the factors are new. -/
  | same
  | full (text : Str) (alreadyKrb : Bool)

/-- The temporary file. `none` is the `%s` of a missing first factor. -/
def loginRecord (acavFails : Bool) (now : Nat) (addinfo : Bool) (ci : Cinfo) (a : LoginArgs) : Option Record :=
  if a.ip.length ≥ 256 then some .bad
  else if a.user.length ≥ 130 then some .bad
  else if a.factor.length ≥ 256 then some .bad
  else
    let (tkt, already) := loginTicket addinfo ci a.krbpath
    if addinfo then
      if acavFails then some .bad
      else match acavParse ci.realm with
        | [] => none
        | fv =>
          let new := a.factors.filter (· ∉ fv)
          if ci.ipaddrCur = a.ip ∧ new = [] then some .same
          else some (.full (recordText ci.ipaddr a.ip a.user (fv ++ new) ci.itime tkt) already)
    else some (.full (recordText a.ip a.ip a.user a.factors now tkt) already)

/-! ## The ticket -/

inductive Transfer where
  /-- `return(-1)` -/
  | broken
  /-- 504 -/
  | unwritten
  | done

/-- The loop of `snet_read` and `write`: `len` more characters, the results
of the reads, and the round. -/
def recvTicket (env : Env) (krbpath : Str) : (round len : Nat) → List (Option Str) → Handler Transfer
  | _, 0, _ => pure .done
  | _, _ + 1, [] => pure .broken
  -- an `unsigned` -1 is not `<= 0`, and no `write` takes that many characters
  | _, _ + 1, none :: _ => do
    let _ ← fsAppend krbpath env.stray env.now
    return .unwritten
  | i, len + 1, some d :: rest => do
    let d := d.take (min (len + 1) 8192)
    if d = [] then return .broken
    if env.fails .write i then return .unwritten
    let _ ← fsAppend krbpath d env.now
    recvTicket env krbpath (i + 1) (len + 1 - d.length) rest

/-- The reply before the ticket. -/
def sendFile : Reply := .line 300 "LOGIN: Send length then file.".toList

/-! The four ways a transfer ends. The third is both ways out of the loop that
drains the client, and `words` is the command line as it reads by then. -/

def transferBroken : Done := { ret := .ret (-1), out := [sendFile] }

def transferUnwritten (env : Env) (krbpath : Str) : Done where
  ret := .ret 1
  out := [sendFile, .line 504 (krbpath ++ ": ".toList ++ env.strerror)]

def transferMismatch : Done where
  ret := .exit 1
  out := [sendFile, .line 505 "Length doesn't match sent data".toList]

def transferDone (ses : Session) (words : List Str) : Done where
  ret := .ret 0
  out := [sendFile, .line 201 "LOGIN successful: Cookie & Ticket Stored.".toList]
  push := pushLine ses ("LOGIN".toList :: (List.range 5).map fun i => words.getD (i + 1) [])

/-- From the last `snet_getline` on. -/
def loginLast (ses : Session) (env : Env) (words : List Str) (krbpath : Str) : Handler Done :=
  match env.lines with
  | [] => pure transferBroken
  | line :: _ =>
    if line ≠ ".".toList then do
      let _ ← fsUnlink krbpath
      let _ ← fsUnlink (words.getD 1 [])
      return transferMismatch
    else pure (transferDone ses words)

/-- From the reply 300 on. `av` is the command line's words. -/
def loginReceive (ses : Session) (env : Env) (av : List Str) (krbpath : Str) : Handler Done := do
  let made ← failing (env.fails .creat 0) false (fsCreat krbpath env.now)
  if made = false then return transferBroken
  match env.size with
  | none => return transferBroken
  | some sizebuf =>
    match ← recvTicket env krbpath 0 (atoi sizebuf % 2 ^ 32).toNat env.reads with
    | .broken => return transferBroken
    | .unwritten => return transferUnwritten env krbpath
    | .done =>
      if env.fails .close 0 then return transferUnwritten env krbpath
      else loginLast ses env (env.overwritten.getD av) krbpath

/-! ## The handler -/

/-- `link`, or `rename` over the record that was read. -/
def loginName (env : Env) (path : Str) (addinfo : Bool) (text : Str) : Handler Bool :=
  if addinfo then failing (env.fails .rename 0) false (fsRename path text env.now)
  else failing (env.fails .link 0) false do
    let r ← fsLink path text env.now
    return r = .ok

def loginStored (ses : Session) (a : LoginArgs) : Done where
  ret := .ret 0
  out := [.line 200 "LOGIN successful: Cookie Stored.".toList]
  push := pushLine ses ["LOGIN".toList, a.cookie, a.ip, a.user, a.factor]

/-- After the record is published. -/
def loginAnswer (ses : Session) (env : Env) (av : List Str) (a : LoginArgs) (alreadyKrb : Bool) : Handler Done :=
  match a.krbpath, alreadyKrb with
  | some krbpath, false => loginReceive ses env av krbpath
  | _, _ => pure (loginStored ses a)

/-- From the complete record on. -/
def loginPublish (ses : Session) (env : Env) (av : List Str) (a : LoginArgs) (path : Str) (addinfo : Bool)
    (text : Str) (alreadyKrb : Bool) : Handler Done := do
  let stored ← loginName env path addinfo text
  if stored = false then fatal else loginAnswer ses env av a alreadyKrb

/-- From `read_cookie` on. -/
def loginAt (ses : Session) (env : Env) (av : List Str) (a : LoginArgs) (path : Str) : Handler Done := do
  let (rc, ci) ← openCookie env path
  if rc = 0 ∧ ci.state = 0 then reply 1 505 "LOGIN: Already logged out".toList
  else if rc = 0 ∧ a.user ≠ ci.user then reply 1 402 "user name given does not match cookie".toList
  else if env.fails .gettimeofday 0 ∨ env.fails .openTmp 0 ∨ env.fails .fdopen 0 then fatal
  else
    match ← Prog.orUndef (loginRecord (env.fails .acav 0) env.now (rc = 0) ci a) with
    | .bad => reply 1 504 "LOGIN Syntax Error: Bad File Format".toList
    | .same => reply 0 202 "LOGIN Cookie Already Stored.".toList
    | .full text alreadyKrb =>
      if env.fails .fclose 0 then fatal
      else loginPublish ses env av a path (rc = 0) text alreadyKrb

inductive ArgsAns where
  | wrong
  | failed
  | args (a : LoginArgs)

/-- The words of the command line, with `kerberos` taken off the end. -/
def loginArgs (cfg : Config) (env : Env) : List Str → ArgsAns
  | _ :: cookie :: ip :: user :: factor :: more =>
    if more.getLast? = some "kerberos".toList then
      match mkcookie 16 (env.rand 0) with
      | none => .failed
      | some tmpkrb =>
        let krbpath := cfg.cosignTickets ++ '/' :: tmpkrb
        if krbpath.length ≥ maxPathLen then .failed
        else .args ⟨cookie, ip, user, factor, more.dropLast, some krbpath⟩
    else .args ⟨cookie, ip, user, factor, more, none⟩
  | _ => .wrong

def fLogin (cfg : Config) (ses : Session) (env : Env) (av : List Str) : Handler Done :=
  if ses.al.key ≠ .cgi then
    reply 1 400 ("LOGIN: ".toList ++ ses.al.hostname ++ " not allowed to login.".toList)
  else match loginArgs cfg env av with
    | .wrong => reply 1 500 "LOGIN: Wrong number of args.".toList
    | .failed => fatal
    | .args a =>
      match mkcookiepath none cfg.hashlen a.cookie maxPathLen with
      | none => reply 1 501 "LOGIN: Invalid cookie path.".toList
      | some path => loginAt ses env av a path

end Cosign
