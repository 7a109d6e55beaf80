import Cosign.Daemon.Framing
/-!
# The pusher and its peer

`pusher` takes lines from its queue and sends them as commands to another
daemon, which answers each. A `LOGIN` with a ticket is a conversation: after the
reply 300 the peer reads a length, that many characters and an end mark, and
reads them from whatever the pusher sends next.

The peer runs its handlers on a store of its own, which other connections change
as they like, and every call of it may fail.
-/

namespace Cosign

open Lib

/-! ## The connection -/

/-- What the pusher has sent: a line, which may be a command line, or a character
of a ticket. -/
inductive Sent where
  | line (command : Bool) (text : Str)
  | char (c : Char)

/-- `snet_getline`. A ticket may hold line breaks of its own. -/
inductive GetLine : List Sent → (command : Bool) → (text : Str) → List Sent → Prop where
  | line {b t rest} : GetLine (.line b t :: rest) b t rest
  | newline {rest} : GetLine (.char '\n' :: rest) false [] rest
  | char {c items b t rest} (hc : c ≠ '\n') (h : GetLine items b t rest) : GetLine (.char c :: items) b (c :: t) rest

/-- Where `pusher` is in its loop. -/
inductive PusherAt where
  | idle
  /-- for the reply to a command line; `krb`, and the cookie -/
  | waits (krb : Bool) (cookie : Str)
  /-- `size`: the characters of the ticket that are left -/
  | sends (size : Int)
  /-- for the reply after the end mark -/
  | ends
  | gone

/-- Where the peer is in `command` and `f_login`. The handler's own run says what
it reads and how it ends. -/
inductive PeerAt where
  | reads
  /-- for the lines of a `TIME` -/
  | list (d : Done)
  | size (env : Env) (d : Done)
  | data (left : Nat) (env : Env) (d : Done)
  | mark (d : Done)
  | gone

/-- What the pusher has sent since the last 3xx. -/
inductive Ticket where
  | none
  | asked
  | sent (announced : Nat) (chars : Nat)
  deriving DecidableEq

structure Link where
  pusher : PusherAt
  peer : PeerAt
  /-- on the way to the peer -/
  items : List Sent
  /-- the codes on the way to the pusher -/
  replies : List Nat
  ticket : Ticket
  /-- The peer's `f_login` has read from a command line. -/
  misread : Bool

/-- The connection after `pusherdaemon`. -/
def Link.start : Link := ⟨.idle, .reads, [], [], .none, false⟩

/-- The command line for a line of the queue: `krb`, the cookie and the text. -/
def pushCommand : List Str → Option (Bool × Str × Str)
  | [w, a, b, c, d, _] =>
    if strcaseeq w "login".toList then some (true, a, unwords ["LOGIN".toList, a, b, c, d, "kerberos".toList]) else none
  | [w, a, b, c, d] => if strcaseeq w "login".toList then some (false, a, unwords ["LOGIN".toList, a, b, c, d]) else none
  | [w, a, b, c] => if strcaseeq w "register".toList then some (false, a, unwords ["REGISTER".toList, a, b, c]) else none
  | [w, a, b] => if strcaseeq w "logout".toList then some (false, a, unwords ["LOGOUT".toList, a, b]) else none
  | _ => none

/-- `"%d", (int)st_size` -/
def lengthLine (size : Nat) : Str := decInt ((size : Int).bmod (2 ^ 32))

/-- The codes of the final replies. -/
def Done.finals (d : Done) : List Nat := (d.out.filter Reply.isFinal).filterMap Reply.code?

/-- `command` reads on. -/
def Done.next (d : Done) : PeerAt :=
  match d.ret with
  | .ret n => if 0 ≤ n then .reads else .gone
  | .exit _ => .gone

/-- The handler ends. -/
def Link.finish (l : Link) (d : Done) : Link := { l with peer := d.next, replies := l.replies ++ d.finals }

def Ticket.more : Ticket → Nat → Ticket
  | .sent n k, m => .sent n (k + m)
  | t, _ => t

/-- At the end mark the ticket is whole, or it is not. -/
def Ticket.mark : Ticket → Ticket
  | .sent n k => if n = k then .none else .sent n k
  | t => t

/-- What decides a step: the local lookup after a 3xx, or a command of the peer. -/
inductive Turn where
  | other
  | lookup (s : Store) (env : Env) (path : Str) (size : Nat)
  | command (cfg : Config) (ses : Session) (env : Env) (line : Str) (s : Store)

inductive Link.Step (hashlen : Int) : Turn → Link → Link → Prop where
  /-- a line of the queue -/
  | take {l : Link} (queued : Str) {krb : Bool} {cookie text : Str} (hp : l.pusher = .idle)
      (hq : pushCommand (acavParse queued) = some (krb, cookie, text)) :
      Step hashlen .other l { l with pusher := .waits krb cookie, items := l.items ++ [.line true text] }
  /-- every `exit`, and every `goto error` -/
  | stop (l : Link) : Step hashlen .other l { l with pusher := .gone }
  /-- `goto done` -/
  | answered {l : Link} {krb : Bool} {cookie : Str} {c : Nat} {rest : List Nat} (hp : l.pusher = .waits krb cookie)
      (hr : l.replies = c :: rest) (hc : krb = false ∨ 200 ≤ c ∧ c < 300) (hd : 200 ≤ c ∧ c < 300 ∨ 500 ≤ c ∧ c < 600) :
      Step hashlen .other l { l with pusher := .idle, replies := rest }
  /-- `read_cookie` fails: `continue` -/
  | unread {l : Link} {cookie path : Str} {c : Nat} {rest : List Nat} {s : Store} {env : Env} {size : Nat} {rc : Int}
      {ci : Cinfo} (hp : l.pusher = .waits true cookie) (hr : l.replies = c :: rest) (hc : 300 ≤ c ∧ c < 400)
      (hpath : mkcookiepath none hashlen cookie maxPathLen = some path) (hread : s.opened env path = some (rc, ci))
      (hrc : rc ≠ 0) : Step hashlen (.lookup s env path size) l { l with pusher := .idle, replies := rest, ticket := .asked }
  /-- the length of the ticket's file -/
  | length {l : Link} {cookie path : Str} {c : Nat} {rest : List Nat} {s : Store} {env : Env} {ci : Cinfo} {f : File}
      (hp : l.pusher = .waits true cookie) (hr : l.replies = c :: rest) (hc : 300 ≤ c ∧ c < 400)
      (hpath : mkcookiepath none hashlen cookie maxPathLen = some path) (hread : s.opened env path = some (0, ci))
      (hf : s.get ci.krbtkt = some f) :
      Step hashlen (.lookup s env path f.text.length) l { l with
        pusher := .sends f.text.length
        items := l.items ++ [.line false (lengthLine f.text.length)]
        replies := rest
        ticket := .sent f.text.length 0 }
  /-- what `read` gives, whatever has become of the file -/
  | piece {l : Link} {size : Int} {buf : Str} (hp : l.pusher = .sends size) (hbuf : buf ≠ []) : Step hashlen .other l { l with
        pusher := .sends (size - buf.length)
        items := l.items ++ buf.map .char
        ticket := l.ticket.more buf.length }
  | mark {l : Link} (hp : l.pusher = .sends 0) : Step hashlen .other l { l with
        pusher := .ends
        items := l.items ++ [.line false ".".toList]
        ticket := l.ticket.mark }
  | done {l : Link} {c : Nat} {rest : List Nat} (hp : l.pusher = .ends) (hr : l.replies = c :: rest)
      (hd : 200 ≤ c ∧ c < 300 ∨ 500 ≤ c ∧ c < 600) : Step hashlen .other l { l with pusher := .idle, replies := rest }
  /-- the peer runs a command that asks for nothing -/
  | handles {l : Link} {b : Bool} {text : Str} {rest : List Sent} {cfg : Config} {ses : Session} {env : Env} {s t : Store}
      {d : Done} (hp : l.peer = .reads) (hline : GetLine l.items b text rest)
      (hrun : Prog.run exec (Cosign.command cfg ses env text) s = some (d, t)) (h300 : ¬ d.answers 300)
      (h360 : ¬ d.answers 360) :
      Step hashlen (.command cfg ses env text s) l ({ l with items := rest }.finish d)
  | prompts {l : Link} {b : Bool} {text : Str} {rest : List Sent} {cfg : Config} {ses : Session} {env : Env} {s t : Store}
      {d : Done} (hp : l.peer = .reads) (hline : GetLine l.items b text rest)
      (hrun : Prog.run exec (Cosign.command cfg ses env text) s = some (d, t)) (h300 : d.answers 300) :
      Step hashlen (.command cfg ses env text s) l { l with
        peer := .size env d, items := rest, replies := l.replies ++ [300] }
  | lists {l : Link} {b : Bool} {text : Str} {rest : List Sent} {cfg : Config} {ses : Session} {env : Env} {s t : Store}
      {d : Done} (hp : l.peer = .reads) (hline : GetLine l.items b text rest)
      (hrun : Prog.run exec (Cosign.command cfg ses env text) s = some (d, t)) (htime : IsCommand .time text)
      (h360 : d.answers 360) :
      Step hashlen (.command cfg ses env text s) l { l with
        peer := .list d, items := rest, replies := l.replies ++ [360] }
  | listed {l : Link} {b : Bool} {text : Str} {rest : List Sent} {d : Done} (hp : l.peer = .list d)
      (hline : GetLine l.items b text rest) (hends : endsTime text = false) :
      Step hashlen .other l { l with items := rest }
  | listEnds {l : Link} {b : Bool} {text : Str} {rest : List Sent} {d : Done} (hp : l.peer = .list d)
      (hline : GetLine l.items b text rest) (hends : endsTime text = true) :
      Step hashlen .other l ({ l with items := rest }.finish d)
  | size {l : Link} {b : Bool} {text : Str} {rest : List Sent} {env : Env} {d : Done} (hp : l.peer = .size env d)
      (hline : GetLine l.items b text rest) (hsize : env.size = some text) :
      Step hashlen .other l { l with
        peer := .data (intake env d).data env d, items := rest, misread := l.misread || b }
  | char {l : Link} {c : Char} {rest : List Sent} {left : Nat} {env : Env} {d : Done} (hp : l.peer = .data (left + 1) env d)
      (hi : l.items = .char c :: rest) : Step hashlen .other l { l with peer := .data left env d, items := rest }
  /-- a character of a line is read as a ticket's -/
  | lineChar {l : Link} {b : Bool} {text : Str} {rest : List Sent} {left : Nat} {env : Env} {d : Done}
      (hp : l.peer = .data (left + 1) env d) (hi : l.items = .line b text :: rest) : Step hashlen .other l { l with
        peer := .data left env d
        items := if text = [] then rest else .line b (text.drop 1) :: rest
        misread := l.misread || b }
  | whole {l : Link} {env : Env} {d : Done} (hp : l.peer = .data 0 env d) (hlast : (intake env d).lines = 2) :
      Step hashlen .other l { l with peer := .mark d }
  | cut {l : Link} {env : Env} {d : Done} (hp : l.peer = .data 0 env d) (hlast : (intake env d).lines ≠ 2) :
      Step hashlen .other l (l.finish d)
  | last {l : Link} {b : Bool} {text : Str} {rest : List Sent} {d : Done} (hp : l.peer = .mark d)
      (hline : GetLine l.items b text rest) :
      Step hashlen .other l ({ l with items := rest, misread := l.misread || b }.finish d)
  /-- the peer's process or its connection ends -/
  | leaves (l : Link) : Step hashlen .other l { l with peer := .gone }

/-- The local record is there and its ticket has a length the peer can read; the
peer's transfer is not cut. -/
def Turn.Fine : Turn → Prop
  | .other => True
  | .lookup s env path size => (∃ ci, s.opened env path = some (0, ci)) ∧ size < 2 ^ 32
  | .command cfg ses env line s => ¬ TransferCut cfg ses env line s

/-- No command line was read as part of a ticket, and no command line is sent
before a ticket that was asked for is whole. -/
structure Link.InStep (l : Link) : Prop where
  read : l.misread = false
  whole : (l.pusher = .idle ∨ ∃ krb cookie, l.pusher = .waits krb cookie) → l.ticket = .none

/-! ## The pusher alone -/

/-- The pusher knows what it has sent of a ticket. -/
def Link.Counts (l : Link) : Prop :=
  match l.pusher with
  | .idle | .waits .. | .ends => l.ticket = .none
  | .sends size => ∃ n k : Nat, l.ticket = .sent n k ∧ size = n - k
  | .gone => True

theorem counts_step {hashlen : Int} {a : Turn} {l l' : Link} (h : Link.Step hashlen a l l') (ha : a.Fine)
    (hl : l.Counts) : l'.Counts := by
  cases h with
  | take queued hp hq =>
    rw [Link.Counts, hp] at hl
    exact hl
  | stop => trivial
  | answered hp =>
    rw [Link.Counts, hp] at hl
    exact hl
  | unread hp hr hc hpath hread hrc =>
    -- the step that leaves a ticket asked for and never sent
    obtain ⟨⟨ci, hci⟩, -⟩ := ha
    rw [hread] at hci
    cases hci
    exact absurd rfl hrc
  | length => exact ⟨_, 0, rfl, by simp⟩
  | piece hp hbuf =>
    rename_i size buf
    rw [Link.Counts, hp] at hl
    obtain ⟨n, k, ht, hs⟩ := hl
    refine ⟨n, k + buf.length, by rw [ht]; rfl, ?_⟩
    rw [hs]
    push_cast
    omega
  | mark hp =>
    rw [Link.Counts, hp] at hl
    obtain ⟨n, k, ht, hs⟩ := hl
    change l.ticket.mark = .none
    rw [ht, Ticket.mark, if_pos (by omega)]
  | done hp =>
    rw [Link.Counts, hp] at hl
    exact hl
  | handles | prompts | lists | listed | listEnds | size | char | lineChar | whole | cut | last | leaves => exact hl

/-! ## The peer -/

def Sent.isCommand : Sent → Bool
  | .line b _ => b
  | .char _ => false

def NoCommand (items : List Sent) : Prop := ∀ i ∈ items, i.isCommand = false

theorem noCommand_chars (s : Str) : NoCommand (s.map .char) := by
  intro i hi
  obtain ⟨c, -, rfl⟩ := List.mem_map.1 hi
  rfl

theorem NoCommand.append {xs ys : List Sent} (hx : NoCommand xs) (hy : NoCommand ys) : NoCommand (xs ++ ys) := by
  intro i hi
  rcases List.mem_append.1 hi with h | h
  · exact hx i h
  · exact hy i h

theorem GetLine.noCommand {items rest : List Sent} {b : Bool} {text : Str} (h : GetLine items b text rest)
    (hn : NoCommand items) : b = false ∧ NoCommand rest := by
  induction h with
  | line => exact ⟨hn _ List.mem_cons_self, fun i hi => hn i (List.mem_cons_of_mem _ hi)⟩
  | newline => exact ⟨rfl, fun i hi => hn i (List.mem_cons_of_mem _ hi)⟩
  | char hc h ih => exact ih fun i hi => hn i (List.mem_cons_of_mem _ hi)

/-- The handler reads the whole ticket, has one reply, and `command` reads on. -/
structure Whole (env : Env) (d : Done) : Prop where
  read : intake env d = ⟨2, (env.size.map ticketLen).getD 0⟩
  reply : ∃ c, d.finals = [c] ∧ ¬ (300 ≤ c ∧ c < 400)
  next : d.next = .reads

theorem next_of_stops {d : Done} (h : d.Stops) : d.next = .gone := by
  unfold Done.next
  split
  · rename_i n hn
    exact if_neg (Int.not_le.2 (h n hn))
  · rfl

/-- The peer's handler ends the connection. -/
inductive PeerAt.Doomed : PeerAt → Prop where
  | size {env d} (h : d.Stops) : Doomed (.size env d)
  | data {n env d} (h : d.Stops) : Doomed (.data n env d)
  | mark {d} (h : d.Stops) : Doomed (.mark d)

/-- What is on its way is what the peer's handler still reads, but for `left`
characters. -/
inductive Fits (left : Int) (tail : List Sent) : PeerAt → List Sent → Prop where
  | doomed {peer items} (h : peer.Doomed) (hn : NoCommand items) : Fits left tail peer items
  | size {env d} {n : Nat} (s : Str) (h : Whole env d) (hn : n < 2 ^ 32) (hs : (s.length : Int) + left = n) :
      Fits left tail (.size env d) (.line false (lengthLine n) :: (s.map .char ++ tail))
  | data {env d} {m : Nat} (s : Str) (h : Whole env d) (hs : (s.length : Int) + left = m) :
      Fits left tail (.data m env d) (s.map .char ++ tail)
  | mark {d} (h : (∃ c, d.finals = [c] ∧ ¬ (300 ≤ c ∧ c < 400)) ∧ d.next = .reads) (hl : left = 0) :
      Fits left tail (.mark d) tail

theorem Fits.noCommand {left : Int} {tail items : List Sent} {peer : PeerAt} (h : Fits left tail peer items)
    (ht : NoCommand tail) : NoCommand items := by
  cases h with
  | doomed h hn => exact hn
  | size s =>
    intro i hi
    rcases List.mem_cons.1 hi with rfl | hi
    · rfl
    · exact (noCommand_chars s).append ht i hi
  | data s => exact (noCommand_chars s).append ht
  | mark => exact ht

theorem Fits.piece {left : Int} {items : List Sent} {peer : PeerAt} (h : Fits left [] peer items) (hne : ∀ d, peer ≠ .mark d)
    (buf : Str) : Fits (left - buf.length) [] peer (items ++ buf.map .char) := by
  have hchars : ∀ s : Str, s.map Sent.char ++ [] ++ buf.map Sent.char = (s ++ buf).map Sent.char ++ [] := by simp
  have hlen : ∀ {s : Str} {n : Nat}, (s.length : Int) + left = n → ((s ++ buf).length : Int) + (left - buf.length) = n := by
    intro s n hs
    rw [List.length_append]
    push_cast
    omega
  cases h with
  | doomed h hn => exact .doomed h (hn.append (noCommand_chars buf))
  | size s h hn hs =>
    rw [List.cons_append, hchars]
    exact .size (s ++ buf) h hn (hlen hs)
  | data s h hs =>
    rw [hchars]
    exact .data (s ++ buf) h (hlen hs)
  | mark => exact absurd rfl (hne _)

theorem noCommand_mark : NoCommand [.line false ".".toList] := by
  intro i hi
  rw [List.mem_singleton.1 hi]
  rfl

theorem Fits.marked {items : List Sent} {peer : PeerAt} (h : Fits 0 [] peer items) :
    Fits 0 [.line false ".".toList] peer (items ++ [.line false ".".toList]) := by
  cases h with
  | doomed h hn => exact .doomed h (hn.append noCommand_mark)
  | size s h hn hs =>
    rw [List.append_nil, List.cons_append]
    exact .size s h hn hs
  | data s h hs =>
    rw [List.append_nil]
    exact .data s h hs
  | mark h hl => exact .mark h hl

/-! ## Both -/

/-- A command line of the pusher. -/
def IsPush (text : Str) : Prop := IsCommand .login text ∨ IsCommand .register text ∨ IsCommand .logout text

/-- What is on its way in both directions, for every place of the two. -/
inductive Sync : PusherAt → PeerAt → List Sent → List Nat → Prop where
  | idle : Sync .idle .reads [] []
  | asked {krb cookie text} (h : IsPush text) : Sync (.waits krb cookie) .reads [.line true text] []
  | answered {krb cookie c} (hc : ¬ (300 ≤ c ∧ c < 400)) : Sync (.waits krb cookie) .reads [] [c]
  | prompted {krb cookie env d} (h : d.Stops ∨ Whole env d) : Sync (.waits krb cookie) (.size env d) [] [300]
  | sends {size peer items} (h : Fits size [] peer items) : Sync (.sends size) peer items []
  /-- more than was announced: the pusher will give up -/
  | exceeds {size : Int} {peer items replies} (h : size < 0) (hn : NoCommand items) : Sync (.sends size) peer items replies
  | ends {peer items} (h : Fits 0 [.line false ".".toList] peer items) : Sync .ends peer items []
  | finished {c} (hc : ¬ (300 ≤ c ∧ c < 400)) : Sync .ends .reads [] [c]
  | stopped {peer items replies} (hn : NoCommand items) : Sync .gone peer items replies
  | stoppedAsked {text replies} : Sync .gone .reads [.line true text] replies
  | gone {pusher items replies} : Sync pusher .gone items replies

theorem noCommand_nil : NoCommand [] := fun i hi => by cases hi

/-- A handler that reads of the pusher's items reads no command line. -/
theorem Sync.noCommand {pusher : PusherAt} {peer : PeerAt} {items : List Sent} {replies : List Nat}
    (h : Sync pusher peer items replies) (hr : peer ≠ .reads) (hg : peer ≠ .gone) : NoCommand items := by
  cases h with
  | idle => exact absurd rfl hr
  | asked => exact absurd rfl hr
  | answered => exact absurd rfl hr
  | prompted => exact noCommand_nil
  | sends h => exact h.noCommand noCommand_nil
  | exceeds h hn => exact hn
  | ends h => exact h.noCommand noCommand_mark
  | finished => exact absurd rfl hr
  | stopped hn => exact hn
  | stoppedAsked => exact absurd rfl hr
  | gone => exact absurd rfl hg

theorem not_getLine_nil {b : Bool} {text : Str} {rest : List Sent} : ¬ GetLine [] b text rest := fun h => by cases h

theorem isWord_of {w : Str} (h : (w ≠ [] && w.all fun c => !isBlank c) = true) : IsWord w := by
  rw [Bool.and_eq_true, List.all_eq_true] at h
  refine ⟨of_decide_eq_true h.1, fun c hc => ?_⟩
  have := h.2 c hc
  simpa using this

theorem isCommand_unwords {word : Str} {ws : List Str} {c : CommandName} (hword : IsWord word) (hws : ∀ w ∈ ws, IsWord w)
    (hc : findCommand word = some c) : IsCommand c (unwords (word :: ws)) := by
  refine ⟨word, ?_, hc⟩
  rw [acavParse_unwords (List.forall_mem_cons.2 ⟨hword, hws⟩)]
  rfl

theorem pushCommand_isPush {queued cookie text : Str} {krb : Bool}
    (h : pushCommand (acavParse queued) = some (krb, cookie, text)) : IsPush text := by
  have hws := acavParse_words queued
  unfold pushCommand at h
  split at h
  · rename_i w a b c d e hav
    rw [hav] at hws
    simp only [List.forall_mem_cons] at hws
    obtain ⟨-, ha, hb, hc, hd, -⟩ := hws
    split at h
    · cases h
      refine .inl (isCommand_unwords (isWord_of rfl) ?_ (by decide))
      simp only [List.forall_mem_cons]
      exact ⟨ha, hb, hc, hd, isWord_of rfl, List.forall_mem_nil _⟩
    · cases h
  · rename_i w a b c d hav
    rw [hav] at hws
    split at h
    · cases h
      exact .inl (isCommand_unwords (isWord_of rfl) (List.forall_mem_cons.1 hws).2 (by decide))
    · cases h
  · rename_i w a b c hav
    rw [hav] at hws
    split at h
    · cases h
      exact .inr (.inl (isCommand_unwords (isWord_of rfl) (List.forall_mem_cons.1 hws).2 (by decide)))
    · cases h
  · rename_i w a b hav
    rw [hav] at hws
    split at h
    · cases h
      exact .inr (.inr (isCommand_unwords (isWord_of rfl) (List.forall_mem_cons.1 hws).2 (by decide)))
    · cases h
  · cases h

theorem finals_of_one {d : Done} (h : (d.out.filter Reply.isFinal).length = 1) :
    ∃ c, d.finals = [c] ∧ ¬ (300 ≤ c ∧ c < 400) := by
  obtain ⟨r, hr⟩ := List.length_eq_one_iff.1 h
  have hfinal : r.isFinal = true := (List.mem_filter.1 (hr ▸ List.mem_singleton_self r)).2
  cases r with
  | line code text =>
    refine ⟨code, by rw [Done.finals, hr]; rfl, ?_⟩
    simp [Reply.isFinal] at hfinal
    omega
  | more code text => cases hfinal
  | raw data => cases hfinal

/-- A command of the pusher is answered, or asks for its ticket, or ends the
connection. -/
theorem push_handled {cfg : Config} {ses : Session} {env : Env} {text : Str} {s t : Store} {d : Done} (hpush : IsPush text)
    (hrun : Prog.run exec (command cfg ses env text) s = some (d, t)) (hcut : ¬ TransferCut cfg ses env text s) :
    d.Stops ∨ (∃ c, d.finals = [c] ∧ ¬ (300 ≤ c ∧ c < 400)) ∧ d.next = .reads ∧ (d.answers 300 → Whole env d) := by
  have hlogin : ∀ {c}, IsCommand c text → c = .login ∨ c = .register ∨ c = .logout := by
    intro c hc
    rcases hpush with h | h | h
    · exact .inl (hc.unique h)
    · exact .inr (.inl (hc.unique h))
    · exact .inr (.inr (hc.unique h))
  have hnot : ∀ {c}, c ≠ .login ∧ c ≠ .register ∧ c ≠ .logout → ¬ IsCommand c text := by
    rintro c ⟨h1, h2, h3⟩ hc
    rcases hlogin hc with h | h | h
    · exact h1 h
    · exact h2 h
    · exact h3 h
  rcases plain_or_handled true (hnot (by decide)) hrun with ⟨-, hnone⟩ | ⟨-, word, c, hw, hc, hstarttls, hhandle⟩
  · exfalso
    rcases hnone with h | h
    · cases h
    · rcases hpush with hp | hp | hp <;> exact h _ hp
  by_cases hstops : d.Stops
  · exact .inl hstops
  obtain ⟨n, hret, hn⟩ : ∃ n, d.ret = .ret n ∧ 0 ≤ n := by
    by_contra hno
    refine hstops fun n hret => ?_
    by_contra hn
    exact hno ⟨n, hret, by omega⟩
  have hreads : ReadsWhole cfg ses env env.lines text s :=
    ⟨hcut, fun h => hnot (by decide) h.retr, fun h => absurd h.time (hnot (by decide))⟩
  obtain ⟨hreply, hread⟩ := (handle_framed hw hc hstarttls (List.prefix_refl _) hhandle hret hn).2 hreads
  have hnext : d.next = .reads := by
    rw [Done.next, hret]
    exact if_pos hn
  refine .inr ⟨finals_of_one hreply, hnext, fun h300 => ⟨?_, finals_of_one hreply, hnext⟩⟩
  rw [hread, payload, if_pos h300]

theorem ticketLen_lengthLine {n : Nat} (h : n < 2 ^ 32) : ticketLen (lengthLine n) = n := by
  have hlow := Int.le_bmod (x := (n : Int)) (m := 2 ^ 32) (by decide)
  have hhigh := Int.bmod_lt (x := (n : Int)) (m := 2 ^ 32) (by decide)
  rw [ticketLen, lengthLine, atoi_decInt ⟨by omega, by omega⟩]
  have hmod : ((n : Int).bmod (2 ^ 32)) % (2 ^ 32) = n := by
    rw [Int.bmod_def]
    split <;> omega
  rw [hmod]
  exact Int.toNat_natCast n

/-- The peer goes on, and so does what is on its way. -/
theorem fits_size {left : Int} {tail items rest : List Sent} {env : Env} {d : Done} {b : Bool} {text : Str}
    (h : Fits left tail (.size env d) items) (hline : GetLine items b text rest) (hsize : env.size = some text) :
    Fits left tail (.data (intake env d).data env d) rest := by
  cases h with
  | doomed h hn =>
    cases h with
    | size h => exact .doomed (.data h) (hline.noCommand hn).2
  | size s h hn hs =>
    rename_i n
    cases hline
    have hdata : (intake env d).data = n := by
      simp only [h.read, hsize, Option.map_some, Option.getD_some, ticketLen_lengthLine hn]
    rw [hdata]
    exact .data s h hs

theorem fits_char {left : Int} {tail rest : List Sent} {env : Env} {d : Done} {n : Nat} {c : Char}
    (htail : ∀ c' r, tail ≠ .char c' :: r) (h : Fits left tail (.data (n + 1) env d) (.char c :: rest)) :
    Fits left tail (.data n env d) rest := by
  generalize hitems : Sent.char c :: rest = items at h
  cases h with
  | doomed h hn =>
    cases h with
    | data h =>
      rw [← hitems] at hn
      exact .doomed (.data h) fun i hi => hn i (List.mem_cons_of_mem _ hi)
  | data s h hs =>
    cases s with
    | nil => exact absurd hitems.symm (htail c rest)
    | cons c' s =>
      obtain ⟨-, rfl⟩ := List.cons.inj hitems
      refine .data s h ?_
      rw [List.length_cons] at hs
      push_cast at hs
      omega

/-- The end mark is read when the ticket is whole, unless more was sent. -/
theorem fits_whole {left : Int} {tail items : List Sent} {env : Env} {d : Done}
    (h : Fits left tail (.data 0 env d) items) : left < 0 ∨ Fits left tail (.mark d) items := by
  cases h with
  | doomed h hn =>
    cases h with
    | data h => exact .inr (.doomed (.mark h) hn)
  | data s h hs =>
    cases s with
    | nil => exact .inr (.mark ⟨h.reply, h.next⟩ (by simpa using hs))
    | cons c s =>
      refine .inl ?_
      rw [List.length_cons] at hs
      push_cast at hs
      omega

/-- Only a handler that ends the connection reads a line's characters as data. -/
theorem fits_lineChar {left : Int} {tail items rest : List Sent} {env : Env} {d : Done} {n : Nat} {b : Bool} {text : Str}
    (h : Fits left tail (.data (n + 1) env d) (.line b text :: rest)) (htail : tail = [] ∨ left = 0)
    (hitems : NoCommand (.line b text :: rest) → NoCommand items) : Fits left tail (.data n env d) items := by
  generalize hfits : Sent.line b text :: rest = seen at h
  cases h with
  | doomed h hn =>
    cases h with
    | data h =>
      rw [← hfits] at hn
      exact .doomed (.data h) (hitems hn)
  | data s h hs =>
    exfalso
    cases s with
    | nil =>
      rcases htail with rfl | rfl
      · cases hfits
      · simp at hs
        omega
    | cons c s => cases hfits

/-- The pusher gives up. -/
theorem Sync.stop {pusher : PusherAt} {peer : PeerAt} {items : List Sent} {replies : List Nat}
    (h : Sync pusher peer items replies) (hne : peer = .reads → ∀ text, items ≠ [.line true text]) :
    Sync .gone peer items replies := by
  cases h with
  | idle => exact .stopped noCommand_nil
  | asked => exact absurd rfl (hne rfl _)
  | answered => exact .stopped noCommand_nil
  | prompted => exact .stopped noCommand_nil
  | sends h => exact .stopped (h.noCommand noCommand_nil)
  | exceeds h hn => exact .stopped hn
  | ends h => exact .stopped (h.noCommand noCommand_mark)
  | finished => exact .stopped noCommand_nil
  | stopped hn => exact .stopped hn
  | stoppedAsked => exact .stoppedAsked
  | gone => exact .gone

theorem sync_step {hashlen : Int} {a : Turn} {l l' : Link} (hstep : Link.Step hashlen a l l') (ha : a.Fine)
    (hs : Sync l.pusher l.peer l.items l.replies) : Sync l'.pusher l'.peer l'.items l'.replies := by
  obtain ⟨pusher, peer, items, replies, ticket, misread⟩ := l
  cases hstep with
  | take queued hp hq =>
    dsimp only at hp hs
    subst hp
    cases hs with
    | idle => exact .asked (pushCommand_isPush hq)
    | gone => exact .gone
  | stop =>
    dsimp only at hs ⊢
    by_cases hpeer : peer = .reads ∧ ∃ text, items = [.line true text]
    · obtain ⟨rfl, text, rfl⟩ := hpeer
      exact .stoppedAsked
    · refine hs.stop ?_
      rintro rfl text rfl
      exact hpeer ⟨rfl, text, rfl⟩
  | answered hp hr hc hd =>
    dsimp only at hp hr hs
    subst hp hr
    cases hs with
    | answered => exact .idle
    | prompted => omega
    | gone => exact .gone
  | unread hp hr hc hpath hread hrc =>
    obtain ⟨⟨ci, hci⟩, -⟩ := ha
    rw [hread] at hci
    cases hci
    exact absurd rfl hrc
  | length hp hr hc hpath hread hf =>
    dsimp only at hp hr hs
    subst hp hr
    cases hs with
    | answered hno => exact absurd hc hno
    | prompted h =>
      refine .sends ?_
      rcases h with hstops | hwhole
      · refine .doomed (.size hstops) fun i hi => ?_
        rw [List.mem_singleton.1 hi]
        rfl
      · exact .size [] hwhole ha.2 (by simp)
    | gone => exact .gone
  | piece hp hbuf =>
    rename_i size buf
    dsimp only at hp hs
    subst hp
    have hpos : 0 < buf.length := List.length_pos_iff.2 hbuf
    cases hs with
    | sends h =>
      by_cases hmark : ∃ d, peer = .mark d
      · obtain ⟨d, rfl⟩ := hmark
        cases h with
        | doomed h hn => exact .sends (.doomed h (hn.append (noCommand_chars buf)))
        | mark h hl => exact .exceeds (by omega) (noCommand_nil.append (noCommand_chars buf))
      · exact .sends (h.piece (fun d hd => hmark ⟨d, hd⟩) buf)
    | exceeds h hn => exact .exceeds (by omega) (hn.append (noCommand_chars buf))
    | gone => exact .gone
  | mark hp =>
    dsimp only at hp hs
    subst hp
    cases hs with
    | sends h => exact .ends h.marked
    | exceeds h => exact absurd h (Int.lt_irrefl 0)
    | gone => exact .gone
  | done hp hr hd =>
    dsimp only at hp hr hs
    subst hp hr
    cases hs with
    | finished => exact .idle
    | gone => exact .gone
  | handles hp hline hrun h300 h360 =>
    rename_i b text rest cfg ses env s t d
    dsimp only at hp hline hs
    subst hp
    cases hs with
    | idle => exact absurd hline not_getLine_nil
    | asked h =>
      cases hline
      rcases push_handled h hrun ha with hstops | ⟨⟨c, hc, hno⟩, hnext, -⟩
      · rw [Link.finish, next_of_stops hstops]
        exact .gone
      · rw [Link.finish, hnext, hc]
        exact .answered hno
    | answered => exact absurd hline not_getLine_nil
    | sends h => cases h with | doomed h => cases h
    | exceeds h hn => exact .exceeds h (hline.noCommand hn).2
    | ends h => cases h with | doomed h => cases h
    | finished => exact absurd hline not_getLine_nil
    | stopped hn => exact .stopped (hline.noCommand hn).2
    | stoppedAsked =>
      cases hline
      exact .stopped noCommand_nil
  | prompts hp hline hrun h300 =>
    rename_i b text rest cfg ses env s t d
    dsimp only at hp hline hs
    subst hp
    cases hs with
    | idle => exact absurd hline not_getLine_nil
    | asked h =>
      cases hline
      refine .prompted ((push_handled h hrun ha).imp id fun h => h.2.2 h300)
    | answered => exact absurd hline not_getLine_nil
    | sends h => cases h with | doomed h => cases h
    | exceeds h hn => exact .exceeds h (hline.noCommand hn).2
    | ends h => cases h with | doomed h => cases h
    | finished => exact absurd hline not_getLine_nil
    | stopped hn => exact .stopped (hline.noCommand hn).2
    | stoppedAsked =>
      cases hline
      exact .stopped noCommand_nil
  | lists hp hline hrun htime h360 =>
    rename_i b text rest cfg ses env s t d
    dsimp only at hp hline hs
    subst hp
    cases hs with
    | idle => exact absurd hline not_getLine_nil
    | asked h =>
      cases hline
      rcases h with h | h | h
      · cases htime.unique h
      · cases htime.unique h
      · cases htime.unique h
    | answered => exact absurd hline not_getLine_nil
    | sends h => cases h with | doomed h => cases h
    | exceeds h hn => exact .exceeds h (hline.noCommand hn).2
    | ends h => cases h with | doomed h => cases h
    | finished => exact absurd hline not_getLine_nil
    | stopped hn => exact .stopped (hline.noCommand hn).2
    | stoppedAsked =>
      cases hline
      exact .stopped noCommand_nil
  | listed hp hline hends =>
    dsimp only at hp hline hs
    subst hp
    cases hs with
    | sends h => cases h with | doomed h => cases h
    | exceeds h hn => exact .exceeds h (hline.noCommand hn).2
    | ends h => cases h with | doomed h => cases h
    | stopped hn => exact .stopped (hline.noCommand hn).2
  | listEnds hp hline hends =>
    dsimp only at hp hline hs
    subst hp
    cases hs with
    | sends h => cases h with | doomed h => cases h
    | exceeds h hn => exact .exceeds h (hline.noCommand hn).2
    | ends h => cases h with | doomed h => cases h
    | stopped hn => exact .stopped (hline.noCommand hn).2
  | size hp hline hsize =>
    dsimp only at hp hline hs
    subst hp
    cases hs with
    | prompted => exact absurd hline not_getLine_nil
    | sends h => exact .sends (fits_size h hline hsize)
    | exceeds h hn => exact .exceeds h (hline.noCommand hn).2
    | ends h => exact .ends (fits_size h hline hsize)
    | stopped hn => exact .stopped (hline.noCommand hn).2
  | char hp hi =>
    dsimp only at hp hi hs
    subst hp hi
    cases hs with
    | sends h => exact .sends (fits_char (fun _ _ h => by cases h) h)
    | exceeds h hn => exact .exceeds h fun i hi => hn i (List.mem_cons_of_mem _ hi)
    | ends h => exact .ends (fits_char (fun _ _ h => by cases h) h)
    | stopped hn => exact .stopped fun i hi => hn i (List.mem_cons_of_mem _ hi)
  | lineChar hp hi =>
    rename_i b text rest left env d
    dsimp only at hp hi hs
    subst hp hi
    have hrest : NoCommand (.line b text :: rest) →
        NoCommand (if text = [] then rest else .line b (text.drop 1) :: rest) := by
      intro hn
      split
      · exact fun i hi => hn i (List.mem_cons_of_mem _ hi)
      · intro i hi
        rcases List.mem_cons.1 hi with rfl | hi
        · exact hn (.line b text) List.mem_cons_self
        · exact hn i (List.mem_cons_of_mem _ hi)
    cases hs with
    | sends h => exact .sends (fits_lineChar h (.inl rfl) hrest)
    | exceeds h hn => exact .exceeds h (hrest hn)
    | ends h => exact .ends (fits_lineChar h (.inr rfl) hrest)
    | stopped hn => exact .stopped (hrest hn)
  | whole hp hlast =>
    dsimp only at hp hs
    subst hp
    cases hs with
    | sends h =>
      rcases fits_whole h with hlt | h'
      · exact .exceeds hlt (h.noCommand noCommand_nil)
      · exact .sends h'
    | exceeds h hn => exact .exceeds h hn
    | ends h => exact .ends ((fits_whole h).resolve_left (Int.lt_irrefl 0))
    | stopped hn => exact .stopped hn
  | cut hp hlast =>
    rename_i env d
    dsimp only at hp hs
    subst hp
    have hdoomed : ∀ {size tail}, Fits size tail (.data 0 env d) items → d.next = .gone := by
      intro size tail h
      cases h with
      | doomed h =>
        cases h with
        | data h => exact next_of_stops h
      | data s h =>
        rw [h.read] at hlast
        exact absurd rfl hlast
    cases hs with
    | sends h =>
      rw [Link.finish, hdoomed h]
      exact .gone
    | exceeds h hn => exact .exceeds h hn
    | ends h =>
      rw [Link.finish, hdoomed h]
      exact .gone
    | stopped hn => exact .stopped hn
  | last hp hline =>
    rename_i b text rest d
    dsimp only at hp hline hs
    subst hp
    cases hs with
    | sends h =>
      cases h with
      | doomed h =>
        cases h with
        | mark h =>
          rw [Link.finish, next_of_stops h]
          exact .gone
      | mark h => exact absurd hline not_getLine_nil
    | exceeds h hn => exact .exceeds h (hline.noCommand hn).2
    | ends h =>
      cases h with
      | doomed h =>
        cases h with
        | mark h =>
          rw [Link.finish, next_of_stops h]
          exact .gone
      | mark h =>
        obtain ⟨⟨c, hc, hno⟩, hnext⟩ := h
        cases hline
        rw [Link.finish, hnext, hc]
        exact .finished hno
    | stopped hn => exact .stopped (hline.noCommand hn).2
  | leaves => exact .gone

/-! ## Runs -/

/-- Nothing is misread in a connection that is in step. -/
theorem misread_step {hashlen : Int} {a : Turn} {l l' : Link} (hstep : Link.Step hashlen a l l')
    (hs : Sync l.pusher l.peer l.items l.replies) (hm : l.misread = false) : l'.misread = false := by
  cases hstep with
  | size hp hline =>
    have hn := hs.noCommand (by rw [hp]; exact PeerAt.noConfusion) (by rw [hp]; exact PeerAt.noConfusion)
    rw [hm, (hline.noCommand hn).1]
    rfl
  | lineChar hp hi =>
    have hn := hs.noCommand (by rw [hp]; exact PeerAt.noConfusion) (by rw [hp]; exact PeerAt.noConfusion)
    rw [hi] at hn
    rw [hm, Bool.false_or]
    exact hn _ List.mem_cons_self
  | last hp hline =>
    have hn := hs.noCommand (by rw [hp]; exact PeerAt.noConfusion) (by rw [hp]; exact PeerAt.noConfusion)
    change (l.misread || _) = false
    rw [hm, (hline.noCommand hn).1]
    rfl
  | take | stop | answered | unread | length | piece | mark | done | handles | prompts | lists | listed | listEnds | char |
    whole | cut | leaves => exact hm

/-- Any steps of the two, one at a time in any order. -/
inductive Link.Runs (hashlen : Int) (C : Turn → Prop) : Link → Link → Prop where
  | nil (l : Link) : Runs hashlen C l l
  | cons {l l' l'' : Link} {a : Turn} (h : Link.Step hashlen a l l') (ha : C a) (hr : Runs hashlen C l' l'') :
      Runs hashlen C l l''

theorem Link.Runs.trans {hashlen : Int} {C : Turn → Prop} {l l' l'' : Link} (h : Runs hashlen C l l')
    (h' : Runs hashlen C l' l'') : Runs hashlen C l l'' := by
  induction h with
  | nil => exact h'
  | cons hstep ha _ ih => exact .cons hstep ha (ih h')

/-- When every local record is there, no ticket is too long and no transfer of the
peer is cut, the pusher and the peer stay in step. -/
theorem pusher_in_step {hashlen : Int} {l : Link} (h : Link.Runs hashlen Turn.Fine Link.start l) : l.InStep := by
  have hinv : ∀ {l l' : Link}, Link.Runs hashlen Turn.Fine l l' → l.Counts → Sync l.pusher l.peer l.items l.replies →
      l.misread = false → l'.Counts ∧ l'.misread = false := by
    intro l l' hr
    induction hr with
    | nil l => exact fun hc _ hm => ⟨hc, hm⟩
    | cons hstep ha _ ih =>
      exact fun hc hs hm => ih (counts_step hstep ha hc) (sync_step hstep ha hs) (misread_step hstep hs hm)
  obtain ⟨hcounts, hmisread⟩ := hinv h rfl .idle rfl
  refine ⟨hmisread, ?_⟩
  rintro (hp | ⟨krb, cookie, hp⟩)
  · rw [Link.Counts, hp] at hcounts
    exact hcounts
  · rw [Link.Counts, hp] at hcounts
    exact hcounts

/-- The peer takes the next command line for the ticket's length. -/
def lengthIsLogout : Env := { Env.calm 200 with size := some "LOGOUT cosign=abc 10.0.0.1".toList }

/-- The local record is not there, and the next line of the queue is a logout. -/
theorem pusher_out_of_step : ¬ ∀ (hashlen : Int) (l : Link), Link.Runs hashlen (fun _ => True) Link.start l → l.InStep := by
  intro h
  have hprompt : ∃ d t, Prog.run exec (command .default .cgi lengthIsLogout ticketLogin) noCookies = some (d, t) ∧
      d.answers 300 := ⟨_, _, rfl, ⟨sendFile, List.mem_cons_self, rfl⟩⟩
  obtain ⟨d, t, hrun, h300⟩ := hprompt
  have hmissing : ∃ rc ci, noCookies.opened (.calm 200) "cosign=abc".toList = some (rc, ci) ∧ rc ≠ 0 :=
    ⟨_, _, rfl, by decide⟩
  obtain ⟨rc, ci, hread, hrc⟩ := hmissing
  have hunread : ∀ {l : Link} {rest : List Nat}, l.pusher = .waits true "cosign=abc".toList → l.replies = 300 :: rest →
      Link.Step 0 (.lookup noCookies (.calm 200) "cosign=abc".toList 0) l
        { l with pusher := .idle, replies := rest, ticket := .asked } := fun hp hr =>
    .unread hp hr (by decide) rfl hread hrc
  have hlogin : pushCommand (acavParse "login cosign=abc 10.0.0.1 ann umich kerberos".toList) =
      some (true, "cosign=abc".toList, ticketLogin) := rfl
  have hlogout : pushCommand (acavParse "logout cosign=abc 10.0.0.1".toList) =
      some (false, "cosign=abc".toList, "LOGOUT cosign=abc 10.0.0.1".toList) := rfl
  have hrun : ∃ l, Link.Runs 0 (fun _ => True) Link.start l ∧ l.misread = true :=
    ⟨_, .cons (.take _ rfl hlogin) trivial <|
      .cons (.prompts rfl .line hrun h300) trivial <|
      .cons (hunread rfl rfl) trivial <|
      .cons (.take _ rfl hlogout) trivial <|
      .cons (.size rfl .line rfl) trivial (.nil _), rfl⟩
  obtain ⟨l, hruns, hmisread⟩ := hrun
  rw [(h 0 l hruns).read] at hmisread
  cases hmisread

/-- The peer is sent a ticket of two characters. -/
def twoChars : Env := { Env.calm 200 with size := some ['2'], reads := [some ['t', 'g']], lines := [['.']] }

/-- The record the pusher finds, and the ticket it names. -/
def annTicket : Store := .ofFiles [("cosign=abc".toList,
    ⟨recordText "10.0.0.1".toList "10.0.0.1".toList "ann".toList ["umich".toList] 100 (some "tgt".toList), false, 100⟩),
  ("tgt".toList, ⟨['t', 'g'], false, 100⟩)]

theorem twoChars_fine : Turn.Fine (.command .default .cgi twoChars ticketLogin noCookies) := by
  rintro ⟨-, _, _, _, _, _, -, -, sizebuf, hsize, hcut⟩
  cases hsize
  rw [show ticketLen ['2'] = 2 from rfl] at hcut
  rcases hcut with ⟨-, hwrite | hclose⟩
  · cases hwrite
  · cases hclose

/-- A ticket goes over whole, the logout behind it is answered, and the pusher
takes its next line. -/
theorem logout_in_step : ∃ m l, Link.Runs 0 Turn.Fine Link.start m ∧ m.ticket = .sent 2 2 ∧ m.InStep ∧
    Link.Runs 0 Turn.Fine m l ∧ l.pusher = .idle ∧ l.ticket = .none ∧ l.InStep := by
  have hlogin : pushCommand (acavParse "login cosign=abc 10.0.0.1 ann umich kerberos".toList) =
      some (true, "cosign=abc".toList, ticketLogin) := rfl
  have hlogout : pushCommand (acavParse "logout cosign=abc 10.0.0.1".toList) =
      some (false, "cosign=abc".toList, "LOGOUT cosign=abc 10.0.0.1".toList) := rfl
  have hcommand : IsCommand .logout "LOGOUT cosign=abc 10.0.0.1".toList := ⟨"LOGOUT".toList, rfl, rfl⟩
  have hanswers : ∃ d t d' t', Prog.run exec (command .default .cgi twoChars ticketLogin) noCookies = some (d, t) ∧
      Prog.run exec (command .default .cgi (.calm 200) "LOGOUT cosign=abc 10.0.0.1".toList) t = some (d', t') ∧
      (d.answers 300 ∧ intake twoChars d = ⟨2, 2⟩ ∧ d.finals = [201] ∧ d.next = .reads) ∧
      ¬ d'.answers 300 ∧ ¬ d'.answers 360 ∧ d'.finals = [210] :=
    ⟨_, _, _, _, rfl, rfl, ⟨by decide, by decide, by decide, rfl⟩, by decide, by decide, by decide⟩
  obtain ⟨d, t, d', t', hrun, hrun', ⟨h300, hintake, hfinals, hnext⟩, h300', h360', hfinals'⟩ := hanswers
  have hopened : ∃ ci, annTicket.opened (.calm 200) "cosign=abc".toList = some (0, ci) ∧ ci.krbtkt = "tgt".toList :=
    ⟨_, rfl, rfl⟩
  obtain ⟨ci, hread, hkrbtkt⟩ := hopened
  have hticket : annTicket.get ci.krbtkt = some ⟨['t', 'g'], false, 100⟩ := by rw [hkrbtkt]; rfl
  have hdata : PeerAt.data (intake twoChars d).data twoChars d = .data 2 twoChars d := by rw [hintake]
  have hfine : Turn.Fine (.command .default .cgi (.calm 200) "LOGOUT cosign=abc 10.0.0.1".toList t) := by
    rintro ⟨hlogin, -⟩
    cases hcommand.unique hlogin
  have hsent : ∃ m, Link.Runs 0 Turn.Fine Link.start m ∧ m.pusher = .sends 0 ∧ m.peer = .size twoChars d ∧
      m.items = [.line false (lengthLine 2), .char 't', .char 'g'] ∧ m.replies = [] ∧ m.ticket = .sent 2 2 :=
    ⟨_, .cons (.take _ rfl hlogin) trivial <|
      .cons (.prompts rfl .line hrun h300) twoChars_fine <|
      .cons (.length rfl rfl (by decide) rfl hread hticket) ⟨⟨ci, hread⟩, by decide⟩ <|
      .cons (.piece rfl (List.cons_ne_nil 't' ['g'])) trivial (.nil _), rfl, rfl, rfl, rfl, rfl⟩
  obtain ⟨m, hstart, hsends, hpeer, hitems, hreplies, hticket⟩ := hsent
  have hrest : ∃ l, Link.Runs 0 Turn.Fine m l ∧ l.pusher = .idle := by
    obtain ⟨pusher, peer, items, replies, ticket, misread⟩ := m
    cases hsends
    cases hpeer
    cases hitems
    cases hreplies
    exact ⟨_, .cons (.size rfl .line rfl) trivial <|
      .cons (.mark rfl) trivial <|
      .cons (.char hdata rfl) trivial <|
      .cons (.char rfl rfl) trivial <|
      .cons (.whole rfl (congrArg Intake.lines hintake)) trivial <|
      .cons (.last rfl .line) trivial <|
      .cons (.done rfl hfinals (.inl (by decide))) trivial <|
      .cons (.take _ rfl hlogout) trivial <|
      .cons (.handles hnext .line hrun' h300' h360') hfine <|
      .cons (.answered rfl hfinals' (.inl rfl) (.inl (by decide))) trivial (.nil _), rfl⟩
  obtain ⟨l, hl, hidle⟩ := hrest
  have hinStep := pusher_in_step (hstart.trans hl)
  exact ⟨m, l, hstart, hticket, pusher_in_step hstart, hl, hidle, hinStep.whole (.inl hidle), hinStep⟩

end Cosign
