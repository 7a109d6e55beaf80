import Cosign.Daemon.Command
import Cosign.Lib.Wp
import Cosign.Libsnet.Snet
/-!
# A connection and its upgrade

`command`'s loop over the read buffer of its connection, with the two command
tables and `f_starttls` between them. What the network does is not known:
`readread` brings any bytes in any pieces, in the clear or through TLS, or an
error, or the end of the connection, and OpenSSL only takes bytes that are
still in the socket.

The handlers of the commands that need an upgrade are a parameter, as programs
that read the connection through `snet_getline` and `snet_read`.
-/

namespace Cosign

open Lib

structure Conn where
  /-- A character's mark says whether it was read through TLS. -/
  sn : Snet Bool
  /-- `SNET_TLS` -/
  tls : Bool
  /-- `SNET_EOF` -/
  eof : Bool
  deriving DecidableEq

/-- What `snet_readread` brings. -/
inductive Input where
  | err
  | eof
  | data (c : Char) (cs : Str)
  deriving DecidableEq

inductive ConnOp where
  /-- The scan of `snet_getline`. -/
  | scan
  /-- `snet_readread` behind `sn_rend`. -/
  | readread
  /-- `snet_getline` at the end of the connection. -/
  | cutOff
  | hasdata (n : Nat)
  /-- `snet_readread` into the caller's own buffer. -/
  | recv (n : Nat)
  /-- `snet_read` leaves `SNET_FUZZY`, if the reader is in it. -/
  | unfuzz
  /-- `snet_starttls` with `SSL_accept`. -/
  | accept
  /-- The common name in the peer's certificate. -/
  | certificate
  | writef (code : Nat) (text : Str)
  /-- The handler of a command of `auth_commands` is called. -/
  | enter (c : CommandName)

abbrev ConnAns : ConnOp → Type
  | .scan | .cutOff | .hasdata _ | .certificate => Option Str
  | .readread | .recv _ => Input
  | .accept | .unfuzz => Bool
  | .writef .. | .enter _ => Unit

/-- How a read changes the flags. At the end of the connection `SNET_EOF`
takes the place of all of them. -/
def Conn.after (s : Conn) : Input → Conn
  | .eof => { s with tls := false, eof := true }
  | _ => s

/-- One operation on the connection. The bytes of a read get the mark of the
connection as it is then. -/
inductive Conn.Step : (o : ConnOp) → Conn → ConnAns o → Conn → Prop
  | scan (s : Conn) : Step .scan s s.sn.scan.1 { s with sn := s.sn.scan.2 }
  | data (s : Conn) (c : Char) (cs : Str) (h : s.sn.past = false) :
      Step .readread s (.data c cs) { s with sn := s.sn.fill ((c :: cs).map (·, s.tls)) }
  | nodata (s : Conn) (i : Input) (h : i = .err ∨ i = .eof) : Step .readread s i (s.after i)
  | cutOff (s : Conn) : Step .cutOff s s.sn.cutOff.1 { s with sn := s.sn.cutOff.2 }
  | hasdata (s : Conn) (n : Nat) : Step (.hasdata n) s (s.sn.hasdata n).1 { s with sn := (s.sn.hasdata n).2 }
  | recv (s : Conn) (n : Nat) (i : Input) : Step (.recv n) s i (s.after i)
  | unfuzz (s : Conn) : Step .unfuzz s (s.sn.rstate = .fuzzy) { s with sn := s.sn.unfuzz }
  | accept (s : Conn) (ok : Bool) : Step .accept s ok { s with tls := s.tls || ok }
  | certificate (s : Conn) (cn : Option Str) : Step .certificate s cn s
  | writef (s : Conn) (code : Nat) (text : Str) : Step (.writef code text) s () s
  | enter (s : Conn) (c : CommandName) : Step (.enter c) s () s

abbrev Reader := Prog ConnOp ConnAns

abbrev ask (o : ConnOp) : Reader (ConnAns o) := Prog.call o

/-! ## The reader -/

/-- `snet_getline`, with as many reads as `n`. -/
def snetGetline : Nat → Reader (Option Str)
  | 0 => .undef
  | n + 1 => do
    match ← ask .scan with
    | some line => return some line
    | none =>
      match ← ask .readread with
      | .err => return none
      | .eof => ask .cutOff
      | .data .. => snetGetline n

def Input.result : Input → Option Str
  | .err => none
  | .eof => some []
  | .data c cs => some (c :: cs)

/-- `snet_read` of up to `n` characters. `none` is its error. -/
def snetRead (n : Nat) : Reader (Option Str) := do
  match ← ask (.hasdata n) with
  | some d => return some d
  | none =>
    match ← ask (.recv n) with
    | .data c cs =>
      let fuzzy ← ask .unfuzz
      if fuzzy ∧ c = '\n' then
        if cs = [] then
          let i ← ask (.recv n)
          return i.result
        else return some cs
      else return some (c :: cs)
    | i => return i.result

/-- What a handler may do with its connection. -/
inductive ClientOp where
  | getline
  | read (n : Nat)
  | writef (code : Nat) (text : Str)

abbrev ClientAns : ClientOp → Type
  | .getline | .read _ => Option Str
  | .writef .. => Unit

def clientOp (fuel : Nat) : (o : ClientOp) → Reader (ClientAns o)
  | .getline => snetGetline fuel
  | .read n => snetRead n
  | .writef code text => ask (.writef code text)

abbrev Client := Prog ClientOp ClientAns

def Client.serve {α : Type} (fuel : Nat) : Client α → Reader α
  | .ret a => pure a
  | .undef => .undef
  | .ask o k => clientOp fuel o >>= fun r => serve fuel (k r)

/-! ## `command.c` -/

/-- The globals of the process that `f_starttls` sets. -/
structure Proc where
  /-- `commands` is `auth_commands`. -/
  auth : Bool
  protocol : Int
  al : Option AuthList
  remoteCn : Option Str

def banner : Reader Unit :=
  ask (.writef 220 "2 Collaborative Web Single Sign-On [COSIGNv3 FACTORS=5 REKEY]".toList)

/-- The settings the loop reads, and the handlers behind the upgrade. -/
structure Server where
  regex : Regex
  authlist : List AuthList
  version : Str
  body : CommandName → Proc → List Str → Client Ret

variable (srv : Server)

/-- From `SSL_get_peer_certificate` on. -/
def starttlsPeer (p : Proc) : Reader (Ret × Proc) := do
  match ← ask .certificate with
  | none => return (.ret (-1), p)
  | some buf =>
    match authlistFind srv.regex srv.authlist buf with
    | none =>
      ask (.writef 401 ("No access for ".toList ++ buf))
      return (.exit 1, p)
    | some al => do
      if protoMinRequired p.protocol 2 then banner
      return (.ret 0, { p with auth := true, al := some al, remoteCn := some buf })

/-- From the reply 220 on. -/
def starttlsBegin (p : Proc) : Reader (Ret × Proc) := do
  ask (.writef 220 "Ready to start TLS".toList)
  if ← ask .accept then starttlsPeer srv p
  else
    ask (.writef 501 "SSL didn't work error!".toList)
    return (.ret 1, p)

def fStarttls (p : Proc) (av : List Str) : Reader (Ret × Proc) :=
  match av with
  | _ :: version :: _ => do
    if protoMinRequired (atoi version) 2 then starttlsBegin srv { p with protocol := atoi version }
    else
      ask (.writef 502 ("Protocol version ".toList ++ version ++ " unrecognized".toList))
      return (.ret 1, { p with protocol := 0 })
  | _ => starttlsBegin srv p

/-- The entry of the table in force. -/
def callCommand (fuel : Nat) (p : Proc) (av : List Str) : CommandName → Reader (Ret × Proc)
  | .noop => do
    ask (.writef 250 ("cosign v".toList ++ srv.version))
    return (.ret 0, p)
  | .quit => do
    ask (.writef 221 "Service closing transmission channel".toList)
    return (.exit 0, p)
  | .help => do
    ask (.writef 203 "Slainte Mhath! http://weblogin.org".toList)
    return (.ret 0, p)
  | .starttls => fStarttls srv p av
  | c => do
    if p.auth then
      ask (.enter c)
      let r ← (srv.body c p av).serve fuel
      return (r, p)
    else
      ask (.writef 550 "You must call STARTTLS first!".toList)
      return (.ret 0, p)

/-- One line of `command`'s loop. -/
def commandLine (fuel : Nat) (p : Proc) (line : Str) : Reader (Ret × Proc) :=
  match acavParse line with
  | [] => do
    ask (.writef 501 "Command unrecognized".toList)
    return (.ret 0, p)
  | av@(word :: _) =>
    match findCommand word with
    | none => do
      ask (.writef 500 ("Command ".toList ++ word ++ " unregcognized".toList))
      return (.ret 0, p)
    | some c => callCommand srv fuel p av c

/-- The loop. Out of fuel, it is still going. -/
def commandLoop : Nat → Proc → Reader Unit
  | 0, _ => .undef
  | fuel + 1, p => do
    match ← snetGetline fuel with
    | none => return
    | some line =>
      let (ret, p) ← commandLine srv fuel p line
      match ret with
      | .exit _ => return
      | .ret r => if r < 0 then return else commandLoop fuel p

/-- `command`, from the choice of the table on. -/
def commandMain (tlsopt : Bool) (fuel : Nat) : Reader Unit := do
  if tlsopt then
    match authlistFind srv.regex srv.authlist "NOTLS".toList with
    | none => ask (.writef 508 "No NOTLS access".toList)
    | some al => do
      banner
      commandLoop srv fuel { auth := true, protocol := 0, al := some al, remoteCn := none }
  else do
    banner
    commandLoop srv fuel { auth := false, protocol := 0, al := none, remoteCn := none }

/-- A connection just accepted. -/
def Conn.accepted : Conn := { sn := .attach, tls := false, eof := false }

end Cosign
