import Cosign.Common.Conf
import Cosign.Daemon.Cparse
/-!
# What a handler reads and answers

The configuration, the globals of one connection's process, and what the
world gives a single request: its clock, its random bytes, the system calls
that fail, and the lines and data that follow the command line.
-/

namespace Cosign

structure Config where
  hashlen : Int
  idleOutTime : Int
  greyTime : Int
  strictChecks : Bool
  cosignTickets : Str
  /-- It is a word of the configuration file. -/
  tickets_line : '\n' ∉ cosignTickets
  servicelist : List ServiceList
  regex : Regex
  hostname : Str
  version : Str
  /-- `monster`'s own settings. -/
  idleCache : Int
  loggedoutCache : Int
  hardTimeout : Int

/-- The globals of the process that serves a connection. -/
structure Session where
  al : AuthList
  remoteCn : Str
  protocol : Int
  replicated : Bool
  /-- `pushersn != NULL` -/
  pusher : Bool

/-- Calls that can fail for reasons outside the store. -/
inductive Call where
  | gettimeofday
  | fopen
  | openTmp
  | fdopen
  | acav
  | fclose
  | link
  | unlinkTmp
  | rename
  | chmod
  | creat
  | write
  | close
  | gethostname
  | openTicket
  | fstat
  | readTicket
  deriving DecidableEq

structure Env where
  now : Nat
  /-- What `RAND_bytes` gives each `mkcookie` of the request. -/
  rand : Nat → Rand
  /-- Calls that fail, with the round of the loop they are in. -/
  fails : Call → Nat → Bool
  /-- The lines `snet_getline` returns after the command line. -/
  lines : List Str
  strerror : Str
  /-- The length line of a ticket, and what each `snet_read` returns for its
  data: `none` is its error, the empty string the end of the connection. -/
  size : Option Str
  reads : List (Option Str)
  /-- What a `write` that is too long leaves behind. -/
  stray : Str
  /-- The words of the command line as they read after the transfer, if it
  has overwritten them: they lie in the buffer `snet_getline` fills. -/
  overwritten : Option (List Str)

inductive Reply where
  | line (code : Nat) (text : Str)
  /-- `%d-%s`: more lines of the same reply follow. -/
  | more (code : Nat) (text : Str)
  | raw (data : Str)
  deriving DecidableEq

def Reply.code? : Reply → Option Nat
  | .line c _ => some c
  | .more c _ => some c
  | .raw _ => none

inductive Ret where
  | ret (n : Int)
  | exit (n : Nat)
  deriving DecidableEq

/-- How a handler ends: its result, what it wrote to the client, the lines it
handed to the pusher, and whether it set `replicated`. -/
structure Done where
  ret : Ret
  out : List Reply
  push : List Str := []
  replicated : Bool := false
  deriving DecidableEq

/-- The request is answered with this code. -/
def Done.answers (d : Done) (code : Nat) : Prop := ∃ r ∈ d.out, r.code? = some code

/-- The request is answered 2xx. -/
def Done.ok (d : Done) : Prop := ∃ c, 200 ≤ c ∧ c < 300 ∧ d.answers c

instance (d : Done) (code : Nat) : Decidable (d.answers code) :=
  inferInstanceAs (Decidable (∃ r ∈ d.out, r.code? = some code))

/-- A call that returns `err` when it fails from outside. -/
def failing {α : Type} (fails : Bool) (err : α) (p : Handler α) : Handler α := if fails then pure err else p

/-- `read_cookie`, where `fopen` itself may fail. -/
def openCookie (env : Env) (path : Str) : Handler (Int × Cinfo) :=
  failing (env.fails .fopen 0) (-1, .zero) (readCookie path)

/-- `service_to_login`, the same. -/
def openService (env : Env) (path : Str) : Handler (Option Str) :=
  failing (env.fails .fopen 1) none (serviceToLogin path)

/-- One reply line, and the result. -/
def reply (ret : Int) (code : Nat) (text : Str) : Handler Done := pure ⟨.ret ret, [.line code text], [], false⟩

/-- `return(-1)` with nothing written. -/
def fatal : Handler Done := pure ⟨.ret (-1), [], [], false⟩

/-- A line for the pusher, when there is one and this is not a replicated
command. -/
def pushLine (ses : Session) (words : List Str) : List Str :=
  if ses.pusher ∧ ¬ ses.replicated then [unwords words] else []

/-! ## The defaults -/

/-- The settings `cosignd` and `monster` start with, and no services. -/
def Config.default : Config where
  hashlen := 0
  idleOutTime := 60 * 60 * 2
  greyTime := 60 * 30
  strictChecks := true
  cosignTickets := "tickets".toList
  tickets_line := by decide
  servicelist := []
  regex := ⟨fun _ _ _ => .nomatch⟩
  hostname := "weblogin".toList
  version := "3".toList
  idleCache := 60 * 30 + 60 * 60 * 2 + 60 * 60 * 2
  loggedoutCache := 60 * 60 * 2
  hardTimeout := 60 * 60 * 12

/-- A connection of the login server, at the current protocol and with a
pusher. -/
def Session.cgi : Session where
  al := { hostname := "weblogin".toList, key := .cgi, proxy := false, proxies := [] }
  remoteCn := "weblogin".toList
  protocol := 3
  replicated := false
  pusher := true

/-- A request at time `now` for which no call fails and which no line
follows. -/
def Env.calm (now : Nat) : Env where
  now := now
  rand := fun _ => some fun _ => 0
  fails := fun _ _ => false
  lines := []
  strerror := []
  size := none
  reads := []
  stray := []
  overwritten := none

end Cosign
