import Cosign.Lib.Wp
import Cosign.Common.Mkcookie
import Cosign.Filter.Scookie
/-!
# Asking a server

`connect.c`: the filter's connections to the servers, `CHECK` and `REKEY` over
one of them, and the two retrievals that follow a first answer. What a server
answers, and what the file system does, is the world's choice.
-/

namespace Cosign.Filter

open Lib

/-! ## Configuration and connections -/

inductive CheckIp where
  | never
  | initial
  | always
  deriving DecidableEq

/-- The fields of `cosign_host_config` that are used here. A directive is one
line of the server's configuration. -/
structure HostConfig where
  reqfv : List Str
  suffix : Option Str
  fake : Bool
  checkip : CheckIp
  filterdb : Str
  hashlen : Int
  proxydb : Str
  tktPrefix : Str
  tktPrefix_line : OneLine tktPrefix
  proxy : Bool
  krbtkt : Bool

structure Conn where
  /-- Which node of a list it is. The address is `conn_sin`. -/
  server : Nat
  /-- `conn_sn` is not `NULL`. -/
  isOpen : Bool
  capaRekey : Bool
  proto : UInt32
  deriving DecidableEq

inductive Rc where
  /-- `COSIGN_ERROR` -/
  | error
  /-- `COSIGN_OK` -/
  | ok
  /-- `COSIGN_RETRY` -/
  | retry
  /-- `COSIGN_LOGGED_OUT` -/
  | loggedOut
  deriving DecidableEq

/-- The argument `rekey`: `NULL`, or what it points to. -/
abbrev Rekey := Option (Option Str)

/-! ## What the filter asks of the world -/

inductive FilterOp where
  | access (dir : Str)
  | gettimeofday
  /-- The file of a service cookie is opened, read and closed. -/
  | read (path : Str)
  /-- A temporary file is named, made and written, in `filterdb` or `proxydb`. -/
  | mktmp (dir : Str)
  | rename (path text : Str)
  | link (path text : Str)
  | utime (path : Str)
  /-- `connect_sn`, with the capability and the protocol of the banner. -/
  | connect (server : Nat)
  | close (server : Nat)
  | writef (server : Nat) (line : Str)
  | getline (server : Nat)
  /-- `snet_getline_multi`: the last line of an answer. -/
  | getlineMulti (conn : Conn)
  | snetRead (server n : Nat)
  /-- `RAND_bytes` -/
  | random
  /-- The proxy cookies get their name in `proxydb`. -/
  | linkProxy (path : Str) (lines : List Str)
  /-- The ticket file: made, written, closed, removed. -/
  | openTkt (path : Str)
  | writeTkt (path data : Str)
  | closeTkt (path : Str)
  | unlinkTkt (path : Str)

abbrev FilterAns : FilterOp → Type
  | .access _ | .mktmp _ | .rename .. | .link .. | .close _ | .writef .. => Bool
  | .linkProxy .. | .openTkt _ | .writeTkt .. | .closeTkt _ => Bool
  | .gettimeofday => Option Nat
  | .read _ => Opened
  | .utime _ | .unlinkTkt _ => Unit
  | .connect _ => Option (Bool × UInt32)
  | .getline _ | .getlineMulti _ | .snetRead .. => Option Str
  | .random => Rand

abbrev FProg := Prog FilterOp FilterAns

def fCall (o : FilterOp) : FProg (FilterAns o) := Prog.call o

theorem run_fCall {σ α : Type} (exec : (o : FilterOp) → σ → FilterAns o × σ) (o : FilterOp) (f : FilterAns o → FProg α)
    (s : σ) : Prog.run exec (fCall o >>= f) s = Prog.run exec (f (exec o s).1) (exec o s).2 := rfl

/-! ## `netcheck_cookie` -/

/-- `strstr`. -/
def strstr (s t : Str) : Option Str := s.tails.find? fun r => t.isPrefixOf r

/-- The word is `f` with the configured suffix. -/
def suffixed (suffix : Option Str) (f w : Str) : Bool :=
  match suffix with
  | none => false
  | some x =>
    match strstr w x with
    | none => false
    | some p => p.length = x.length && f = w.take (w.length - p.length)

/-- The inner loop: 0 when a word matches, -1 when one matches through the
suffix and that is off, 1 at the end of the line. -/
def findFactor (cfg : HostConfig) (f : Str) : List Str → Int
  | [] => 1
  | w :: ws =>
    if f = w then 0
    else if suffixed cfg.suffix f w then if cfg.fake then 0 else -1
    else findFactor cfg f ws

/-- The outer loop: 1 at the first required factor that is not there. -/
def checkFactors (cfg : HostConfig) (ws : List Str) : List Str → Int
  | [] => 0
  | f :: fv => if findFactor cfg f ws = 0 then checkFactors cfg ws fv else findFactor cfg f ws

/-- `strcat` of each word and a blank before it. What was copied stays there if
a word is too long. -/
def catFactors : Str → List Str → Rc × Str
  | acc, [] => (.ok, acc)
  | acc, w :: ws => if w.length + 1 + 1 > factorSize - acc.length then (.error, acc) else catFactors (acc ++ ' ' :: w) ws

/-- Whether the `REKEY` command is used. -/
def rekeys (rekey : Rekey) (conn : Conn) : Bool := rekey.isSome && conn.capaRekey

/-- An `unsigned int` as an `int`. -/
def protoInt (p : UInt32) : Int := (p.toNat : Int).bmod (2 ^ 32)

theorem protoInt_eq (p : UInt32) : protoInt p = (p.toNat : Int).bmod (2 ^ 32) := rfl

theorem bmod_bounds (n : Nat) : -2147483648 ≤ (n : Int).bmod (2 ^ 32) ∧ (n : Int).bmod (2 ^ 32) < 2147483648 := by
  rw [Int.bmod_def]
  split <;> omega

theorem protoInt_bounds (p : UInt32) : -2147483648 ≤ protoInt p ∧ protoInt p < 2147483648 := bmod_bounds p.toNat

theorem supportsFactors_protoInt {p : UInt32} (h : supportsFactors (protoInt p)) : supportsFactors p.toNat := by
  have hp := p.toNat_lt
  rw [protoInt_eq] at h
  generalize p.toNat = n at h hp ⊢
  simp only [supportsFactors, Bool.and_eq_true, decide_eq_true_eq] at h ⊢
  rw [Int.bmod_def] at h
  split at h <;> omega

/-- The fourth word, and the words from there to the last factor. -/
def takeFactors (cfg : HostConfig) (si : Sinfo) (w : Str) (ws : List Str) : Rc × Sinfo :=
  match checkFactors cfg ws cfg.reqfv with
  | 0 =>
    if w.length + 1 > factorSize then (.error, si)
    else
      let r := catFactors w (ws.drop 1)
      (r.1, { si with factor := r.2 })
  | 1 => (.retry, si)
  | _ => (.error, si)

/-- The last word, where it is the cookie's new name. -/
def takeName (rekey : Rekey) (conn : Conn) (si : Sinfo) (name : Str) : Rc × Sinfo × Rekey :=
  if rekeys rekey conn then
    if !hasPrefix "cosign-".toList name then (.error, si, rekey) else (.ok, si, some (some name))
  else (.ok, si, rekey)

/-- What `netcheck_cookie` makes of the words of a 2xx answer. -/
def checkWords (cfg : HostConfig) (rekey : Rekey) (conn : Conn) (si : Sinfo) (av : List Str) : Rc × Sinfo × Rekey :=
  if av.length < 4 then (.error, si, rekey)
  else if (av.getD 1 []).length ≥ ipaddrSize then (.error, si, rekey)
  else if (av.getD 2 []).length ≥ userSize then (.error, { si with ipaddr := av.getD 1 [] }, rekey)
  else
    let si := { si with ipaddr := av.getD 1 [], user := av.getD 2 [], protocol := protoInt conn.proto }
    -- with a new name, the last factor is the word before it
    let mf := if rekeys rekey conn then av.length - 1 else av.length
    match if supportsFactors conn.proto.toNat then takeFactors cfg si (av.getD 3 []) ((av.take mf).drop 3) else (.ok, si) with
    | (.ok, si) =>
      if (av.getD 3 []).length ≥ realmSize then (.error, si, rekey)
      else takeName rekey conn { si with realm := av.getD 3 [], krb5tkt := [] } (av.getD (av.length - 1) [])
    | (rc, si) => (rc, si, rekey)

/-- What it makes of the line. -/
def checkLine (cfg : HostConfig) (rekey : Rekey) (conn : Conn) (si : Sinfo) (line : Str) : Rc × Sinfo × Rekey :=
  match line.head? with
  | some '2' => checkWords cfg rekey conn si (acavParse line)
  | some '4' => (.loggedOut, si, rekey)
  | some '5' => (.retry, si, rekey)
  | _ => (.error, si, rekey)

/-- The command that is written. -/
def checkCommand (rekey : Rekey) (conn : Conn) (scookie : Str) : Str :=
  (if rekeys rekey conn then "REKEY ".toList else "CHECK ".toList) ++ scookie

def netcheckCookie (cfg : HostConfig) (scookie : Str) (rekey : Rekey) (conn : Conn) (si : Sinfo) :
    FProg (Rc × Sinfo × Rekey) := do
  let ok ← fCall (.writef conn.server (checkCommand rekey conn scookie))
  if !ok then return (.error, si, rekey)
  match ← fCall (.getlineMulti conn) with
  | none => return (.error, si, rekey)
  | some line => return checkLine cfg rekey conn si line

/-! ## `netretr_proxy` and `netretr_ticket` -/

/-- The test of a line's first four characters, with the class of its code. -/
def replyClass (line : Str) : Rc :=
  match line with
  | '2' :: a :: b :: rest =>
    if !a.isDigit || !b.isDigit then .error
    else match rest with
      | [] => .ok
      | c :: _ => if c = ' ' || c = '-' then .ok else .error
  | '4' :: _ => .loggedOut
  | '5' :: _ => .retry
  | _ => .error

/-- Whether a line of the answer is followed by another. -/
def continues (line : Str) : Bool := line.getD 3 '\x00' = '-'

/-- The loop over the lines of the answer, `rounds` being how many there can
be. -/
def proxyLines (server : Nat) : (rounds : Nat) → List Str → FProg (Rc × List Str)
  | 0, _ => .undef
  | n + 1, got => do
    match ← fCall (.getline server) with
    | none => return (.error, got)
    | some line =>
      if replyClass line ≠ .ok then return (replyClass line, got)
      else if continues line then proxyLines server n (got ++ [line.drop 4])
      else return (.ok, got)

def netretrProxy (rounds : Nat) (cfg : HostConfig) (scookie : Str) (conn : Conn) : FProg Rc := do
  let ok ← fCall (.writef conn.server ("RETR ".toList ++ scookie ++ " cookies".toList))
  if !ok then return .error
  let path := cfg.proxydb ++ '/' :: scookie
  if path.length ≥ maxPathLen then return .error
  let tv ← fCall .gettimeofday
  if tv.isNone then return .error
  let ok ← fCall (.mktmp cfg.proxydb)
  if !ok then return .error
  let (rc, lines) ← proxyLines conn.server rounds []
  if rc ≠ .ok then return rc
  let ok ← fCall (.linkProxy path lines)
  return if ok then .ok else .error

/-- The loop that copies the ticket. -/
def ticketBytes (server : Nat) (path : Str) : (rounds size : Nat) → FProg Bool
  | _, 0 => pure true
  | 0, _ => .undef
  | n + 1, size => do
    match ← fCall (.snetRead server (min 8192 size)) with
    | none => return false
    | some data =>
      if data = [] then return false
      let ok ← fCall (.writeTkt path data)
      if !ok then return false
      ticketBytes server path n (size - data.length)

def netretrTicket (rounds : Nat) (cfg : HostConfig) (scookie : Str) (conn : Conn) (si : Sinfo) :
    FProg (Rc × Sinfo) := do
  let si := { si with krb5tkt := [] }
  let ok ← fCall (.writef conn.server ("RETR ".toList ++ scookie ++ " tgt".toList))
  if !ok then return (.error, si)
  match ← fCall (.getlineMulti conn) with
  | none => return (.error, si)
  | some line =>
    match line.head? with
    | some '2' =>
      let rand ← fCall .random
      match mkcookie 16 rand with
      | none => return (.error, si)
      | some name =>
        let krbpath := cfg.tktPrefix ++ '/' :: name
        if krbpath.length ≥ krb5tktSize then return (.error, si)
        match ← fCall (.getline conn.server) with
        | none => return (.error, si)
        | some size =>
          let ok ← fCall (.openTkt krbpath)
          if !ok then return (.error, si)
          let ok ← ticketBytes conn.server krbpath rounds (((atoi size) % 2 ^ 64).toNat)
          if !ok then
            let _ ← fCall (.closeTkt krbpath)
            fCall (.unlinkTkt krbpath)
            return (.error, si)
          let ok ← fCall (.closeTkt krbpath)
          if !ok then
            fCall (.unlinkTkt krbpath)
            return (.error, si)
          match ← fCall (.getline conn.server) with
          | some ['.'] => return (.ok, { si with krb5tkt := krbpath })
          | _ =>
            fCall (.unlinkTkt krbpath)
            return (.error, si)
    | some '4' => return (.loggedOut, si)
    | some '5' => return (.retry, si)
    | _ => return (.error, si)

/-! ## `cosign_check_cookie` -/

structure Checked where
  rc : Rc
  si : Sinfo
  rekey : Rekey
  /-- The list of connections, as it is left. -/
  cl : List Conn

/-- After an answer: the connection moves to the front, and what the cookie is
good for is fetched over it. -/
def checkDone (rounds : Nat) (cfg : HostConfig) (scookie : Str) (first : Bool) (rc : Rc) (si : Sinfo) (rekey : Rekey)
    (conn : Conn) (others : List Conn) : FProg Checked := do
  let cl := conn :: others
  let scookie := (rekey.bind id).getD scookie
  if rc = .loggedOut then return ⟨.retry, si, rekey, cl⟩
  if first && cfg.proxy then
    let _ ← netretrProxy rounds cfg scookie conn
  if first && cfg.krbtkt then
    let (_, si) ← netretrTicket rounds cfg scookie conn si
    return ⟨.ok, si, rekey, cl⟩
  return ⟨.ok, si, rekey, cl⟩

/-- One pass over the list: with `fresh`, over those that are closed, which are
opened first. `before` are the ones it is done with, and `k` goes on when no
answer settled it. -/
def checkPass (rounds : Nat) (cfg : HostConfig) (scookie : Str) (first fresh : Bool)
    (k : Bool → Sinfo → Rekey → List Conn → FProg Checked) :
    List Conn → (before : List Conn) → Bool → Sinfo → Rekey → FProg Checked
  | [], before, retry, si, rekey => k retry si rekey before
  | conn :: rest, before, retry, si, rekey =>
    if conn.isOpen = fresh then checkPass rounds cfg scookie first fresh k rest (before ++ [conn]) retry si rekey
    else do
      let conn ← if fresh then do
          match ← fCall (.connect conn.server) with
          | none => pure conn
          | some (capa, proto) => pure { conn with isOpen := true, capaRekey := capa, proto }
        else pure conn
      if conn.isOpen = false then checkPass rounds cfg scookie first fresh k rest (before ++ [conn]) retry si rekey
      else
        let (rc, si, rekey) ← netcheckCookie cfg scookie rekey conn si
        match rc with
        | .ok => checkDone rounds cfg scookie first .ok si rekey conn (before ++ rest)
        | .loggedOut => checkDone rounds cfg scookie first .loggedOut si rekey conn (before ++ rest)
        | .retry => checkPass rounds cfg scookie first fresh k rest (before ++ [conn]) true si rekey
        | .error => do
          let _ ← fCall (.close conn.server)
          checkPass rounds cfg scookie first fresh k rest (before ++ [{ conn with isOpen := false }]) retry si rekey

def checkCookie (rounds : Nat) (cfg : HostConfig) (scookie : Str) (rekey : Rekey) (si : Sinfo) (first : Bool)
    (cl : List Conn) : FProg Checked :=
  checkPass rounds cfg scookie first false
    (fun retry si rekey cl => checkPass rounds cfg scookie first true
      (fun retry si rekey cl => pure ⟨if retry then .retry else .error, si, rekey, cl⟩) cl [] retry si rekey)
    cl [] false si rekey

end Cosign.Filter
