import Cosign.Daemon.Handlers
import Cosign.Daemon.Monster
import Cosign.Lib.Runs
/-!
# One daemon

A run of one daemon over its store: command lines, each on some connection's
session, and sweeps, one at a time in any order.
-/

namespace Cosign

open Lib

inductive CommandName where
  | noop | quit | help | starttls | login | logout | register | check | rekey | retr | time | daemon
  deriving DecidableEq

/-- `auth_commands`, and `unauth_commands` under the same names. -/
def commandTable : List (Str × CommandName) := [
  ("NOOP".toList, .noop), ("QUIT".toList, .quit), ("HELP".toList, .help), ("STARTTLS".toList, .starttls),
  ("LOGIN".toList, .login), ("LOGOUT".toList, .logout), ("REGISTER".toList, .register),
  ("CHECK".toList, .check), ("REKEY".toList, .rekey), ("RETR".toList, .retr), ("TIME".toList, .time),
  ("DAEMON".toList, .daemon)]

def findCommand (word : Str) : Option CommandName :=
  (commandTable.find? fun c => strcaseeq word c.1).map (·.2)

/-- A command of `auth_commands`. -/
def handle (cfg : Config) (ses : Session) (env : Env) (av : List Str) : CommandName → Handler Done
  | .noop => reply 0 250 ("cosign v".toList ++ cfg.version)
  | .quit => pure { ret := .exit 0, out := [.line 221 "Service closing transmission channel".toList] }
  | .help => reply 0 203 "Slainte Mhath! http://weblogin.org".toList
  -- it changes the connection, not the store
  | .starttls => pure { ret := .ret 0, out := [] }
  | .login => fLogin cfg ses env av
  | .logout => fLogout cfg ses env av
  | .register => fRegister cfg ses env av
  | .check => fCheck cfg ses env av
  | .rekey => fCheck cfg ses env av
  | .retr => fRetr cfg ses env av
  | .time => fTime cfg ses env av
  | .daemon => fDaemon cfg ses env av

/-- One round of `command`'s loop after `STARTTLS`. -/
def command (cfg : Config) (ses : Session) (env : Env) (line : Str) : Handler Done :=
  match acavParse line with
  | [] => reply 0 501 "Command unrecognized".toList
  | av@(word :: _) =>
    match findCommand word with
    | none => reply 0 500 ("Command ".toList ++ word ++ " unregcognized".toList)
    | some c => handle cfg ses env av c

inductive Event where
  | command (ses : Session) (env : Env) (line : Str)
  | sweep (now : Nat) (ls : Str → Option (List Str))

/-- What an event gives back: a handler's answer, or whether the sweep came to
its end. -/
inductive Outcome where
  | answered (d : Done)
  | swept (finished : Bool)

/-- One event. It has no outcome where the source is undefined. -/
def step (cfg : Config) (s : Store) : Event → Option (Outcome × Store)
  | .command ses env line => ((command cfg ses env line).run exec s).map fun (d, t) => (.answered d, t)
  | .sweep now ls => ((sweep cfg now ls).run exec s).map fun (r, t) => (.swept r.isSome, t)

abbrev Run (cfg : Config) := Trace (step cfg)

end Cosign
