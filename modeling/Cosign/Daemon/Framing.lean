import Cosign.Daemon.LoginFailure
import Cosign.Daemon.Outcomes
import Cosign.Daemon.Paths
import Cosign.Daemon.Steps
/-!
# One reply for one command

After a prompt, 300 or 360, the client sends a payload: a ticket with its length
line and its end mark, or a list of lines that ends with a dot. A handler that
lets `command` read on should have read that payload and nothing else, and have
written one reply that is not a prompt.
-/

namespace Cosign

open Lib Prog

/-- A whole reply line, and not a prompt. -/
def Reply.isFinal : Reply → Bool
  | .line code _ => !(300 ≤ code && code < 400)
  | _ => false

/-- What was read of the connection: lines, and characters of data. -/
structure Intake where
  lines : Nat
  data : Nat
  deriving DecidableEq

/-! ## What is read -/

/-- The rounds of `recvTicket`: how they end, and the characters they have read. -/
def recvRounds (env : Env) : (i len : Nat) → List (Option Str) → Transfer × Nat
  | _, 0, _ => (.done, 0)
  | _, _ + 1, [] => (.broken, 0)
  | _, _ + 1, none :: _ => (.unwritten, 0)
  | i, len + 1, some d :: rest =>
    let d := d.take (min (len + 1) 8192)
    if d = [] then (.broken, 0)
    else if env.fails .write i then (.unwritten, d.length)
    else
      let (r, n) := recvRounds env (i + 1) (len + 1 - d.length) rest
      (r, d.length + n)

/-- The length a ticket's first line gives, in an `unsigned int`. -/
def ticketLen (sizebuf : Str) : Nat := (atoi sizebuf % 2 ^ 32).toNat

/-- What `f_login` reads once the ticket's file is open. -/
def loginIntake (env : Env) : Intake :=
  match env.size with
  | none => ⟨0, 0⟩
  | some sizebuf =>
    match recvRounds env 0 (ticketLen sizebuf) env.reads with
    | (.done, n) => if env.fails .close 0 then ⟨1, n⟩ else ⟨1 + (env.lines.take 1).length, n⟩
    | (_, n) => ⟨1, n⟩

/-- The lines up to the first that ends the list, and that one. -/
def through (ends : Str → Bool) : List Str → Nat
  | [] => 0
  | l :: rest => if ends l then 1 else 1 + through ends rest

/-- The line's first word is a dot, which is how `f_time` finds the end. -/
def endsTime (line : Str) : Bool := lineLeft line = ".".toList

def isDot (line : Str) : Bool := line = ".".toList

def intake (env : Env) (d : Done) : Intake :=
  if d.answers 300 then loginIntake env
  else if d.answers 360 then ⟨through endsTime env.lines, 0⟩
  else ⟨0, 0⟩

/-- What the client sends for the command; `sent` are its lines from here on. -/
def payload (env : Env) (sent : List Str) (d : Done) : Intake :=
  if d.answers 300 then ⟨2, ((env.size.map ticketLen).getD 0)⟩
  else if d.answers 360 then ⟨through isDot sent, 0⟩
  else ⟨0, 0⟩

/-- The command has one reply, and its payload is what was read. -/
structure Framed (env : Env) (sent : List Str) (d : Done) : Prop where
  reply : (d.out.filter Reply.isFinal).length = 1
  read : intake env d = payload env sent d

/-! ## Where it fails -/

/-- Reading the ticket's data fails with an error, or a `write` or the `close` of
its file does, before the end mark is read. -/
def Cut (env : Env) : (i len : Nat) → List (Option Str) → Prop
  | _, 0, _ => env.fails .close 0 = true
  | _, _ + 1, [] => False
  | _, _ + 1, none :: _ => True
  | i, len + 1, some d :: rest =>
    let d := d.take (min (len + 1) 8192)
    d ≠ [] ∧ (env.fails .write i = true ∨ Cut env (i + 1) (len + 1 - d.length) rest)

/-- A LOGIN publishes a record that waits for a ticket, and the transfer is cut. -/
def TransferCut (cfg : Config) (ses : Session) (env : Env) (line : Str) (s : Store) : Prop :=
  IsLogin line ∧ ∃ a path rc ci text, Publishes cfg ses env (acavParse line) s a path rc ci text false ∧
    a.krbpath.isSome ∧ ∃ sizebuf, env.size = some sizebuf ∧ Cut env 0 (ticketLen sizebuf) env.reads

/-- What `f_retr` has checked when it comes to the proxy list. -/
structure AsksCookies (cfg : Config) (ses : Session) (env : Env) (av : List Str) (s : Store)
    (cmd cookie spath login lpath : Str) (sl : ServiceList) (ci : Cinfo) : Prop where
  words : av = [cmd, cookie, "cookies".toList]
  key : ses.al.key = .cgi ∨ ses.al.key = .service
  retrieves : Retrieves cfg ses env s cookie spath login lpath sl ci
  proxy : ses.al.proxy = true

/-- A RETR of cookies comes to a name of the proxy list that has no path. -/
def ProxyCut (cfg : Config) (ses : Session) (env : Env) (line : Str) (s : Store) : Prop :=
  ∃ cmd cookie spath login lpath sl ci, findCommand cmd = some .retr ∧
    AsksCookies cfg ses env (acavParse line) s cmd cookie spath login lpath sl ci ∧
    ∃ proxy ∈ ses.al.proxies, '/' ∈ proxy.cookie

/-- The line is a TIME whose list is read. -/
def ReadsTimes (ses : Session) (line : Str) : Prop :=
  ses.al.key = .cgi ∧ ∃ cmd, acavParse line = [cmd] ∧ findCommand cmd = some .time

/-- The first line that looks like a dot is one, or the lines are all the client
sends and none looks like one before the last. -/
def TimesWhole (env : Env) (sent : List Str) : Prop :=
  (∃ pre post, env.lines = pre ++ ".".toList :: post ∧ ∀ l ∈ pre, endsTime l = false) ∨
    (sent = env.lines ∧ ∀ l ∈ env.lines.dropLast, endsTime l = false)

/-! ## Lines -/

theorem endsTime_of_isDot {l : Str} (h : isDot l = true) : endsTime l = true := by
  rw [of_decide_eq_true h]
  decide

theorem through_pos (ends : Str → Bool) (l : Str) (ls : List Str) : 0 < through ends (l :: ls) := by
  rw [through]
  split <;> omega

/-- Up to where it reads, it reads what the client sends if and only if no line
but the last looks like the end and is not. -/
theorem through_eq {lines sent : List Str} (hsent : lines <+: sent) :
    through endsTime lines = through isDot sent ↔
      (∃ pre post, lines = pre ++ ".".toList :: post ∧ ∀ l ∈ pre, endsTime l = false) ∨
        (sent = lines ∧ ∀ l ∈ lines.dropLast, endsTime l = false) := by
  induction lines generalizing sent with
  | nil =>
    cases sent with
    | nil => simp [through]
    | cons l rest =>
      have := through_pos isDot l rest
      constructor
      · intro h
        rw [← h] at this
        simp [through] at this
      · rintro (⟨pre, post, h, -⟩ | ⟨h, -⟩)
        · simp at h
        · cases h
  | cons l lines ih =>
    obtain ⟨rest, rfl⟩ := hsent
    simp only [List.cons_append, through]
    by_cases hends : endsTime l = true
    · rw [if_pos hends]
      by_cases hdot : isDot l = true
      · rw [if_pos hdot]
        refine iff_of_true rfl (.inl ⟨[], lines, ?_, fun _ h => by cases h⟩)
        rw [List.nil_append, of_decide_eq_true hdot]
      · rw [if_neg hdot]
        constructor
        · -- the line looks like the end, so it has to be the last
          intro h
          have hnil : lines ++ rest = [] := by
            cases hl : lines ++ rest with
            | nil => rfl
            | cons l' ls' =>
              have := through_pos isDot l' ls'
              rw [hl] at h
              omega
          obtain ⟨rfl, rfl⟩ := List.append_eq_nil_iff.mp hnil
          exact .inr ⟨rfl, fun _ h => by cases h⟩
        · rintro (⟨pre, post, h, hpre⟩ | ⟨h, hlast⟩)
          · cases pre with
            | nil =>
              obtain ⟨rfl, -⟩ := List.cons.inj h
              exact absurd (by decide) hdot
            | cons l' pre =>
              obtain ⟨rfl, -⟩ := List.cons.inj h
              rw [hpre l (List.mem_cons_self ..)] at hends
              cases hends
          · cases lines with
            | nil =>
              have : rest = [] := by simpa using h
              subst this
              rfl
            | cons l' ls' =>
              rw [hlast l (by simp)] at hends
              cases hends
    · have hdot : ¬isDot l = true := fun h => hends (endsTime_of_isDot h)
      have hends : endsTime l = false := by simpa using hends
      rw [hends, if_neg hdot, if_neg Bool.false_ne_true, Nat.add_left_cancel_iff,
        ih (List.prefix_append ..)]
      refine or_congr ?_ ?_
      · constructor
        · rintro ⟨pre, post, rfl, hpre⟩
          exact ⟨l :: pre, post, rfl, List.forall_mem_cons.mpr ⟨hends, hpre⟩⟩
        · rintro ⟨pre, post, h, hpre⟩
          cases pre with
          | nil =>
            obtain ⟨rfl, -⟩ := List.cons.inj h
            exact absurd (by decide) hdot
          | cons l' pre =>
            obtain ⟨-, rfl⟩ := List.cons.inj h
            exact ⟨pre, post, rfl, fun x hx => hpre x (List.mem_cons_of_mem _ hx)⟩
      · have hcons : l :: (lines ++ rest) = l :: lines ↔ lines ++ rest = lines := by simp
        rw [hcons]
        refine and_congr_right fun _ => ?_
        cases lines with
        | nil => simp
        | cons l' ls' => simp [hends]

/-! ## The ticket -/

theorem recvTicket_rounds (env : Env) (k : Str) (reads : List (Option Str)) (i len : Nat) :
    Returns (fun r => r = (recvRounds env i len reads).1) (recvTicket env k i len reads) := by
  induction reads generalizing i len with
  | nil => cases len <;> rfl
  | cons x rest ih =>
    cases len with
    | zero => rfl
    | succ len =>
      cases x with
      | none => exact returns_bind _ fun _ => rfl
      | some d =>
        rw [recvTicket, recvRounds]
        dsimp only
        split
        · rfl
        split
        · rfl
        · exact returns_bind _ fun _ => ih _ _

/-- A transfer that is done has read as many characters as the length says. -/
theorem recvRounds_done {env : Env} {reads : List (Option Str)} {i len n : Nat}
    (h : recvRounds env i len reads = (.done, n)) : n = len := by
  induction reads generalizing i len n with
  | nil =>
    cases len with
    | zero => cases h; rfl
    | succ len => cases h
  | cons x rest ih =>
    cases len with
    | zero => cases h; rfl
    | succ len =>
      cases x with
      | none => cases h
      | some d =>
        rw [recvRounds] at h
        dsimp only at h
        split at h
        · cases h
        split at h
        · cases h
        · have hle : (d.take (min (len + 1) 8192)).length ≤ len + 1 := by
            rw [List.length_take]
            omega
          obtain ⟨⟨r, m⟩, hrest⟩ : ∃ x, recvRounds env (i + 1) (len + 1 - (d.take (min (len + 1) 8192)).length) rest = x :=
            ⟨_, rfl⟩
          rw [hrest] at h
          obtain ⟨rfl, rfl⟩ := Prod.mk.inj h
          rw [ih hrest]
          omega

theorem cut_iff (env : Env) (reads : List (Option Str)) (i len : Nat) :
    Cut env i len reads ↔ (recvRounds env i len reads).1 = .unwritten ∨
      (recvRounds env i len reads).1 = .done ∧ env.fails .close 0 = true := by
  induction reads generalizing i len with
  | nil => cases len <;> simp [Cut, recvRounds]
  | cons x rest ih =>
    cases len with
    | zero => simp [Cut, recvRounds]
    | succ len =>
      cases x with
      | none => simp [Cut, recvRounds]
      | some d =>
        rw [Cut, recvRounds]
        dsimp only
        by_cases hd : d.take (min (len + 1) 8192) = []
        · simp [hd]
        · by_cases hw : env.fails .write i = true
          · simp [hd, hw]
          · rw [if_neg hd, if_neg hw, ← ih]
            simp [hd, hw]

/-! ## Handlers that read nothing -/

/-- The process ends or its connection does. -/
def Done.Stops (d : Done) : Prop := ∀ n, d.ret = .ret n → n < 0

/-- Without a prompt, one reply or the end. -/
def Done.Plain (d : Done) : Prop :=
  d.Stops ∨ (d.out.filter Reply.isFinal).length = 1 ∧ ¬ d.answers 300 ∧ ¬ d.answers 360

theorem plain_line {d : Done} {code : Nat} {text : Str} (hout : d.out = [.line code text])
    (hc : ¬ (300 ≤ code ∧ code < 400)) : d.Plain := by
  have hfinal : (Reply.line code text).isFinal = true := by
    simp [Reply.isFinal]
    omega
  refine .inr ⟨?_, ?_, ?_⟩
  · rw [hout, List.filter_cons_of_pos hfinal]
    rfl
  · simp only [Done.answers, hout, List.mem_singleton, exists_eq_left, Reply.code?, Option.some.injEq]
    omega
  · simp only [Done.answers, hout, List.mem_singleton, exists_eq_left, Reply.code?, Option.some.injEq]
    omega

theorem plain_reply {ret : Int} {code : Nat} {text : Str} (hc : ¬ (300 ≤ code ∧ code < 400)) :
    Returns Done.Plain (reply ret code text) := plain_line rfl hc

theorem plain_fatal : Returns Done.Plain fatal := by
  refine .inl fun n h => ?_
  cases h
  decide

theorem Done.Plain.framed {env : Env} {sent : List Str} {d : Done} {n : Int} (h : d.Plain) (hret : d.ret = .ret n)
    (hn : 0 ≤ n) : Framed env sent d := by
  rcases h with h | ⟨hout, h300, h360⟩
  · have := h n hret
    omega
  · refine ⟨hout, ?_⟩
    simp only [intake, payload, h300, h360, if_false]

theorem idleOut_plain {cfg : Config} {env : Env} {ci : Cinfo} {path : Str} {grey idle : Nat} {x y : Str}
    (hg : ¬ (300 ≤ grey ∧ grey < 400)) (hi : ¬ (300 ≤ idle ∧ idle < 400)) :
    Returns Done.Plain (idleOut cfg env ci path (.line grey x) (.line idle y)) := by
  unfold idleOut
  split
  · exact plain_line rfl hg
  · exact returns_bind _ fun rc => plain_line rfl hi

theorem fLogout_plain (cfg : Config) (ses : Session) (env : Env) (av : List Str) :
    Returns Done.Plain (fLogout cfg ses env av) := by
  unfold fLogout
  split
  · exact plain_reply (by decide)
  split
  · split
    · exact plain_reply (by decide)
    refine returns_bind _ fun x => ?_
    dsimp only
    split
    · exact plain_reply (by decide)
    split
    · exact plain_reply (by decide)
    refine returns_bind _ fun rc => ?_
    split
    · exact plain_fatal
    · exact plain_line rfl (by decide)
  · exact plain_reply (by decide)

theorem fRegister_plain (cfg : Config) (ses : Session) (env : Env) (av : List Str) :
    Returns Done.Plain (fRegister cfg ses env av) := by
  unfold fRegister
  split
  · exact plain_reply (by decide)
  split
  · split
    · exact plain_reply (by decide)
    split
    · exact plain_reply (by decide)
    refine returns_bind _ fun x => ?_
    dsimp only
    split
    · exact plain_reply (by decide)
    split
    · exact plain_reply (by decide)
    split
    · exact plain_fatal
    split
    · exact idleOut_plain (by decide) (by decide)
    refine returns_bind _ fun rc => ?_
    split
    · exact plain_fatal
    split
    · exact plain_reply (by decide)
    · exact plain_line rfl (by decide)
  · exact plain_reply (by decide)

theorem checkReply_line (ses : Session) (status : Nat) (ci : Cinfo) (rcookie : Str) :
    ∃ text, checkReply ses status ci rcookie = .line status text := by
  unfold checkReply
  split <;> exact ⟨_, rfl⟩

theorem checkLogin_plain {cfg : Config} {ses : Session} {env : Env} {cmd cookie path : Str} {status : Nat}
    {scpath : Option Str} (hs : ¬ (300 ≤ status ∧ status < 400)) :
    Returns Done.Plain (checkLogin cfg ses env cmd cookie path status scpath) := by
  have hreply : ∀ (ci : Cinfo) (r : Str), Returns Done.Plain
      (pure { ret := .ret 0, out := [checkReply ses status ci r] } : Handler Done) := by
    intro ci r
    obtain ⟨text, htext⟩ := checkReply_line ses status ci r
    exact plain_line (congrArg (fun x => [x]) htext) hs
  refine returns_bind _ fun x => ?_
  dsimp only
  split
  · exact plain_reply (by decide)
  split
  · exact plain_reply (by decide)
  split
  · exact plain_fatal
  split
  · exact idleOut_plain (by decide) (by decide)
  refine returns_bind _ fun _ => ?_
  split
  · exact hreply ..
  split
  · exact plain_reply (by decide)
  refine returns_bind _ fun moved => ?_
  split
  · exact plain_reply (by decide)
  · exact hreply ..

theorem fCheck_plain (cfg : Config) (ses : Session) (env : Env) (av : List Str) :
    Returns Done.Plain (fCheck cfg ses env av) := by
  unfold fCheck
  split
  · trivial
  split
  · exact plain_reply (by decide)
  split
  · trivial
  split
  · exact plain_reply (by decide)
  split
  · refine returns_bind _ fun valid => ?_
    split
    · exact plain_reply (by decide)
    refine returns_bind _ fun login => ?_
    split
    · exact plain_reply (by decide)
    dsimp only
    split
    · exact plain_reply (by decide)
    split
    · exact checkLogin_plain (by decide)
    · exact checkLogin_plain (by decide)
  split
  · exact checkLogin_plain (by decide)
  · exact plain_reply (by decide)

theorem fDaemon_plain (cfg : Config) (ses : Session) (env : Env) (av : List Str) :
    Returns Done.Plain (fDaemon cfg ses env av) := by
  unfold fDaemon
  split
  · exact plain_reply (by decide)
  split
  · split
    · exact plain_reply (by decide)
    split
    · exact plain_reply (by decide)
    · exact plain_line rfl (by decide)
  · exact plain_reply (by decide)

theorem retrTicket_plain (env : Env) (sl : ServiceList) (krbpath : Str) :
    Returns Done.Plain (retrTicket env sl krbpath) := by
  unfold retrTicket
  split
  · exact plain_reply (by decide)
  split
  · exact plain_reply (by decide)
  refine returns_bind _ fun f => ?_
  split
  · exact plain_reply (by decide)
  split
  · exact plain_reply (by decide)
  split
  · refine .inl fun n h => ?_
    cases h
    decide
  · -- the length, the ticket and its end belong to the reply
    refine .inr ⟨rfl, ?_, ?_⟩ <;> simp [Done.answers, Reply.code?]

/-! ## `RETR` of cookies -/

theorem length_dropWhile_name (name value : Str) :
    value.length < ((name ++ '=' :: value).dropWhile (· ≠ '=')).length := by
  induction name with
  | nil => exact Nat.lt_succ_self _
  | cons c name ih =>
    rw [List.cons_append, List.dropWhile_cons]
    split
    · exact ih
    · simp only [List.length_cons, List.length_append]
      omega

/-- A name that is short enough has a path, unless it holds a slash. -/
theorem proxy_path {hashlen : Int} (hh : hashlen = 0 ∨ hashlen = 1 ∨ hashlen = 2) {rand : Rand} {name value : Str}
    (hv : mkcookie 128 rand = some value) (hlen : (name ++ '=' :: value).length < maxCookieLen) :
    mkcookiepath none hashlen (name ++ '=' :: value) maxPathLen = none ↔ '/' ∈ name := by
  have hslash : '/' ∉ value := fun hm => absurd (mkcookie_mem rfl hv _ hm) (by decide)
  have hdrop : 2 < ((name ++ '=' :: value).dropWhile (· ≠ '=')).length := by
    have := length_dropWhile_name name value
    have := mkcookie_length hv
    omega
  have hfile : (under none (cookieFile hashlen (name ++ '=' :: value))).length < maxPathLen := by
    have hchars : (hashChars hashlen (name ++ '=' :: value)).length ≤ 2 := by
      rw [hashChars, List.length_take]
      omega
    have hmax : maxCookieLen + 3 < maxPathLen := by decide
    simp only [under, cookieFile]
    split
    · exact Nat.lt_trans hlen (by decide)
    · rw [List.length_append, List.length_cons]
      omega
  rw [mkcookiepath_eq none hh]
  by_cases hs : '/' ∈ name
  · refine iff_of_true (if_neg fun h => h.1 (List.mem_append_left _ hs)) hs
  · have hc : '/' ∉ name ++ '=' :: value := by
      rw [List.mem_append, List.mem_cons]
      rintro (h | h | h)
      · exact hs h
      · cases h
      · exact hslash h
    rw [if_pos ⟨hc, hlen, hdrop, hfile⟩]
    exact iff_of_false (Option.some_ne_none _) hs

/-- The list's own lines are no reply yet. -/
def Continues (out : List Reply) : Prop := ∀ r ∈ out, r.isFinal = false ∧ r.code? = some 241

theorem Continues.count {out : List Reply} (h : Continues out) : (out.filter Reply.isFinal).length = 0 := by
  rw [List.length_eq_zero_iff, List.filter_eq_nil_iff]
  intro r hr
  rw [(h r hr).1]
  exact Bool.false_ne_true

theorem Continues.code {d : Done} {code : Nat} (h : ∀ r ∈ d.out, r.code? = some 241) (hc : code ≠ 241) :
    ¬ d.answers code := by
  rintro ⟨r, hr, hcode⟩
  rw [h r hr] at hcode
  exact hc (Option.some.inj hcode).symm

/-- Unless a call ends it, the list has its reply if and only if no name holds a
slash. -/
def ListReply (proxies : List Proxies) (d : Done) : Prop :=
  d.Stops ∨ (∀ r ∈ d.out, r.code? = some 241) ∧
    (d.out.filter Reply.isFinal).length = if ∃ proxy ∈ proxies, '/' ∈ proxy.cookie then 0 else 1

theorem retrProxies_reply {cfg : Config} (ses : Session) (env : Env) {login lpath : Str}
    (hh : cfg.hashlen = 0 ∨ cfg.hashlen = 1 ∨ cfg.hashlen = 2)
    (hl : mkcookiepath none cfg.hashlen login maxPathLen = some lpath) (proxies : List Proxies) (i : Nat) {d : Done}
    (hout : Continues d.out) :
    Returns (ListReply proxies) (retrProxies cfg ses env login i proxies d) := by
  have hstop : ∀ d' : Done, d'.ret = .ret (-1) → d'.Stops := by
    intro d' hret n hn
    rw [hret] at hn
    cases hn
    decide
  induction proxies generalizing i d with
  | nil =>
    refine .inr ⟨?_, ?_⟩
    · intro r hr
      rcases List.mem_append.1 hr with hr | hr
      · exact (hout r hr).2
      · rw [List.mem_singleton.1 hr]
        rfl
    · rw [List.filter_append, List.length_append, hout.count]
      simp [Reply.isFinal]
  | cons proxy rest ih =>
    unfold retrProxies
    split
    · exact .inl (hstop _ rfl)
    rename_i value hvalue
    dsimp only
    split
    · exact .inl (hstop _ rfl)
    rename_i hlen
    have hpath := proxy_path hh hvalue (Nat.lt_of_not_le hlen)
    split
    · rename_i hnone
      have hex : ∃ p ∈ proxy :: rest, '/' ∈ p.cookie := ⟨proxy, List.mem_cons_self, hpath.1 hnone⟩
      refine .inr ⟨fun r hr => (hout r hr).2, ?_⟩
      rw [if_pos hex]
      exact hout.count
    rename_i spath hspath
    have hfine : '/' ∉ proxy.cookie := fun hs => by
      rw [hpath.2 hs] at hspath
      cases hspath
    have hiff : (∃ p ∈ proxy :: rest, '/' ∈ p.cookie) ↔ ∃ p ∈ rest, '/' ∈ p.cookie := by
      simp [hfine]
    have hlist : ListReply (proxy :: rest) = ListReply rest := by
      funext d'
      simp only [ListReply, hiff]
    simp only [hl]
    rw [hlist]
    refine returns_bind _ fun rc => ?_
    split
    · exact ih _ hout
    · refine ih _ ?_
      intro r hr
      rcases List.mem_append.1 hr with hr | hr
      · exact hout r hr
      · rw [List.mem_singleton.1 hr]
        exact ⟨rfl, rfl⟩

theorem hashlen_of_path {pre : Option Str} {h : Int} {c p : Str} {n : Nat} (hp : mkcookiepath pre h c n = some p) :
    h = 0 ∨ h = 1 ∨ h = 2 := by
  unfold mkcookiepath at hp
  split at hp
  · cases hp
  split at hp
  · cases hp
  split at hp
  · cases hp
  split at hp
  · cases hp
  dsimp only at hp
  split at hp
  · exact .inl rfl
  · exact .inr (.inl rfl)
  · exact .inr (.inr rfl)
  · cases hp

theorem AsksCookies.reply {cfg : Config} {ses : Session} {env : Env} {av : List Str} {s t : Store} {d : Done}
    {cmd cookie spath login lpath : Str} {sl : ServiceList} {ci : Cinfo}
    (h : AsksCookies cfg ses env av s cmd cookie spath login lpath sl ci)
    (hrun : Prog.run exec (fRetr cfg ses env av) s = some (d, t)) : ListReply ses.al.proxies d := by
  obtain ⟨rfl, hkey, ⟨hvalid, hsfile, hservice, hlfile, hread, hstate, hfresh⟩, hproxy⟩ := h
  have hk : ¬ (ses.al.key ≠ .cgi ∧ ses.al.key ≠ .service) := by
    rintro ⟨h1, h2⟩
    exact hkey.elim h1 h2
  unfold fRetr at hrun
  rw [if_neg hk] at hrun
  simp only [Prog.run_bind, Prog.run_orUndef, hvalid, Option.map_some, Option.bind_some, hsfile, run_openService,
    hservice, hlfile, run_openCookie, hread] at hrun
  rw [if_neg (not_not.2 rfl), if_neg hstate] at hrun
  split at hrun
  · cases hrun
    refine .inl fun n hn => ?_
    cases hn
    decide
  have hp : ¬ ses.al.proxy = false := by simp [hproxy]
  rw [if_neg (Int.not_le.2 hfresh), if_pos trivial, retrProxy, if_neg hp] at hrun
  exact (retrProxies_reply ses env (hashlen_of_path hlfile) hlfile ses.al.proxies 0
    (d := { ret := .ret 0, out := [] }) fun r hr => by cases hr).run hrun

theorem fRetr_framing {cfg : Config} {ses : Session} {env : Env} {av : List Str} {s t : Store} {d : Done}
    (h : Prog.run exec (fRetr cfg ses env av) s = some (d, t)) :
    d.Plain ∨ ∃ cmd cookie spath login lpath sl ci,
      AsksCookies cfg ses env av s cmd cookie spath login lpath sl ci := by
  unfold fRetr at h
  split at h
  · exact .inl ((plain_reply (by decide)).run h)
  rename_i hkey
  split at h
  · rename_i cmd cookie kind
    rw [Prog.run_bind, Prog.run_orUndef] at h
    cases hv : serviceValid cfg ses cookie with
    | none => rw [hv] at h; cases h
    | some o =>
      simp only [hv, Option.map_some, Option.bind_some] at h
      cases o with
      | none => exact .inl ((plain_reply (by decide)).run h)
      | some sl =>
        dsimp only at h
        split at h
        · exact .inl ((plain_reply (by decide)).run h)
        rename_i spath hspath
        rw [Prog.run_bind, run_openService, Option.bind_some] at h
        cases hs : s.service env spath with
        | none =>
          simp only [hs] at h
          exact .inl ((plain_reply (by decide)).run h)
        | some login =>
          simp only [hs] at h
          split at h
          · exact .inl ((plain_reply (by decide)).run h)
          rename_i lpath hlpath
          obtain ⟨rc, ci, hread, hend⟩ := run_opened h
          dsimp only at hend
          split at hend
          · exact .inl ((plain_reply (by decide)).run hend)
          rename_i hrc
          split at hend
          · exact .inl ((plain_reply (by decide)).run hend)
          rename_i hstate
          split at hend
          · exact .inl (plain_fatal.run hend)
          split at hend
          · exact .inl ((idleOut_plain (by decide) (by decide)).run hend)
          rename_i hidle
          split at hend
          · exact .inl ((retrTicket_plain ..).run hend)
          split at hend
          · rename_i hkind
            unfold retrProxy at hend
            split at hend
            · exact .inl ((plain_reply (by decide)).run hend)
            rename_i hproxy
            obtain rfl : rc = 0 := not_not.1 hrc
            have hk : ses.al.key = .cgi ∨ ses.al.key = .service := by
              by_contra hn
              exact hkey ⟨fun h1 => hn (.inl h1), fun h2 => hn (.inr h2)⟩
            exact .inr ⟨cmd, cookie, spath, login, lpath, sl, ci, by rw [hkind], hk,
              ⟨hv, hspath, hs, hlpath, hread, hstate, Int.not_le.1 hidle⟩, by simpa using hproxy⟩
          · exact .inl ((plain_reply (by decide)).run hend)
  · exact .inl ((plain_reply (by decide)).run h)

/-! ## `LOGIN` with a ticket -/

/-- A transfer that is cut is answered with the end mark unread, any other that
goes on has read it. -/
theorem loginReceive_framing (ses : Session) (env : Env) (av : List Str) (k : Str) :
    Returns (fun d => d.Stops ∨ d.answers 300 ∧ ∃ sizebuf, env.size = some sizebuf ∧
        (d.out.filter Reply.isFinal).length = 1 ∧
        (loginIntake env = ⟨2, ticketLen sizebuf⟩ ↔ ¬ Cut env 0 (ticketLen sizebuf) env.reads))
      (loginReceive ses env av k) := by
  have hbroken : transferBroken.Stops := by
    intro n hn
    cases hn
    decide
  refine returns_bind _ fun made => ?_
  split
  · exact .inl hbroken
  split
  · exact .inl hbroken
  rename_i sizebuf hsize
  refine returns_seq (recvTicket_rounds env k env.reads 0 (ticketLen sizebuf)) fun r hr => ?_
  obtain ⟨⟨r', m⟩, hrounds⟩ : ∃ x, recvRounds env 0 (ticketLen sizebuf) env.reads = x := ⟨_, rfl⟩
  have hcut := cut_iff env env.reads 0 (ticketLen sizebuf)
  rw [hrounds] at hr hcut
  obtain rfl : r = r' := hr
  have hunwritten : (transferUnwritten env k).answers 300 ∧
      ((transferUnwritten env k).out.filter Reply.isFinal).length = 1 := by
    refine ⟨⟨sendFile, List.mem_cons_self, rfl⟩, rfl⟩
  cases r with
  | broken => exact .inl hbroken
  | unwritten =>
    refine .inr ⟨hunwritten.1, sizebuf, hsize, hunwritten.2, ?_⟩
    refine iff_of_false ?_ (not_not.2 (hcut.2 (.inl rfl)))
    simp [loginIntake, hsize, hrounds]
  | done =>
    obtain rfl := recvRounds_done hrounds
    dsimp only
    split
    · rename_i hclose
      refine .inr ⟨hunwritten.1, sizebuf, hsize, hunwritten.2, ?_⟩
      refine iff_of_false ?_ (not_not.2 (hcut.2 (.inr ⟨rfl, hclose⟩)))
      simp [loginIntake, hsize, hrounds, hclose]
    rename_i hclose
    unfold loginLast
    split
    · exact .inl hbroken
    rename_i line rest hlines
    split
    · refine returns_bind _ fun _ => returns_bind _ fun _ => .inl fun n hn => ?_
      cases hn
    · refine .inr ⟨⟨sendFile, List.mem_cons_self, rfl⟩, sizebuf, hsize, rfl, ?_⟩
      refine iff_of_true ?_ ?_
      · simp [loginIntake, hsize, hrounds, hclose, hlines]
      · rw [hcut]
        rintro (h | ⟨-, h⟩)
        · cases h
        · exact hclose h

theorem fLogin_other (cfg : Config) (ses : Session) (env : Env) (av : List Str) :
    Returns (fun d => d.Plain ∨ d.answers 300) (fLogin cfg ses env av) := by
  have hreply : ∀ {ret : Int} {code : Nat} {x : Str}, ¬ (300 ≤ code ∧ code < 400) →
      Returns (fun d => d.Plain ∨ d.answers 300) (reply ret code x) := fun hc => .inl (plain_line rfl hc)
  have hfatal : Returns (fun d => d.Plain ∨ d.answers 300) fatal := .inl plain_fatal
  unfold fLogin
  split
  · exact hreply (by decide)
  split
  · exact hreply (by decide)
  · exact hfatal
  split
  · exact hreply (by decide)
  refine returns_bind _ fun x => ?_
  dsimp only
  split
  · exact hreply (by decide)
  split
  · exact hreply (by decide)
  split
  · exact hfatal
  refine returns_bind _ fun record => ?_
  split
  · exact hreply (by decide)
  · exact hreply (by decide)
  split
  · exact hfatal
  refine returns_bind _ fun stored => ?_
  split
  · exact hfatal
  unfold loginAnswer
  split
  · refine (loginReceive_framing ses env av _).mono fun d hd => ?_
    exact hd.imp .inl fun h => h.1
  · exact .inl (plain_line rfl (by decide))

/-! ## The loop -/

/-- A command of `unauth_commands`. -/
def unauthHandle (cfg : Config) (ses : Session) (env : Env) (av : List Str) (c : CommandName) : Handler Done :=
  match c with
  | .noop | .quit | .help | .starttls => handle cfg ses env av c
  -- `f_notauth`
  | _ => reply 0 550 "You must call STARTTLS first!".toList

/-- One round of `command`'s loop, before or after the upgrade. -/
def commandRound (upgraded : Bool) (cfg : Config) (ses : Session) (env : Env) (line : Str) : Handler Done :=
  if upgraded then command cfg ses env line
  else match acavParse line with
    | [] => reply 0 501 "Command unrecognized".toList
    | av@(word :: _) =>
      match findCommand word with
      | none => reply 0 500 ("Command ".toList ++ word ++ " unregcognized".toList)
      | some c => unauthHandle cfg ses env av c

/-- The line's first word is the command's. -/
def IsCommand (c : CommandName) (line : Str) : Prop :=
  ∃ word, (acavParse line).head? = some word ∧ findCommand word = some c

theorem IsCommand.unique {c c' : CommandName} {line : Str} (h : IsCommand c line) (h' : IsCommand c' line) : c = c' := by
  obtain ⟨word, hw, hc⟩ := h
  obtain ⟨word', hw', hc'⟩ := h'
  rw [hw] at hw'
  cases hw'
  exact Option.some.inj (hc.symm.trans hc')

/-- The handler reads the whole payload of its command. -/
def ReadsWhole (cfg : Config) (ses : Session) (env : Env) (sent : List Str) (line : Str) (s : Store) : Prop :=
  ¬ TransferCut cfg ses env line s ∧ ¬ ProxyCut cfg ses env line s ∧ (ReadsTimes ses line → TimesWhole env sent)

theorem ProxyCut.retr {cfg : Config} {ses : Session} {env : Env} {line : Str} {s : Store}
    (h : ProxyCut cfg ses env line s) : IsCommand .retr line := by
  obtain ⟨cmd, _, _, _, _, _, _, hc, hasks, -⟩ := h
  exact ⟨cmd, by rw [hasks.words]; rfl, hc⟩

theorem ReadsTimes.time {ses : Session} {line : Str} (h : ReadsTimes ses line) : IsCommand .time line := by
  obtain ⟨-, cmd, hav, hc⟩ := h
  exact ⟨cmd, by rw [hav]; rfl, hc⟩

/-- No other command has a payload. -/
theorem readsWhole_other {cfg : Config} {ses : Session} {env : Env} {sent : List Str} {line : Str} {s : Store}
    (h : ∀ c, IsCommand c line → c ≠ .login ∧ c ≠ .retr ∧ c ≠ .time) : ReadsWhole cfg ses env sent line s := by
  refine ⟨?_, ?_, ?_⟩
  · intro hcut
    exact (h .login hcut.1).1 rfl
  · intro hcut
    exact (h .retr hcut.retr).2.1 rfl
  · intro hreads
    exact absurd rfl (h .time hreads.time).2.2

theorem fLogin_framed {cfg : Config} {ses : Session} {env : Env} {sent : List Str} {line : Str} {s t : Store} {d : Done}
    {n : Int} (hlogin : IsLogin line) (hrun : Prog.run exec (fLogin cfg ses env (acavParse line)) s = some (d, t))
    (hret : d.ret = .ret n) (hn : 0 ≤ n) : Framed env sent d ↔ ¬ TransferCut cfg ses env line s := by
  have hstops : ¬ d.Stops := fun h => Int.not_lt.2 hn (h n hret)
  have hreceive : ∀ {av k u}, Prog.run exec (loginReceive ses env av k) u = some (d, t) →
      d.answers 300 ∧ ∃ sizebuf, env.size = some sizebuf ∧ (Framed env sent d ↔ ¬ Cut env 0 (ticketLen sizebuf) env.reads) := by
    intro av k u hu
    rcases (loginReceive_framing ses env av k).run hu with h | ⟨h300, sizebuf, hsize, hout, hcut⟩
    · exact absurd h hstops
    refine ⟨h300, sizebuf, hsize, ?_⟩
    rw [← hcut]
    constructor
    · rintro ⟨-, hread⟩
      simpa [intake, payload, h300, hsize] using hread
    · intro hread
      refine ⟨hout, ?_⟩
      simp only [intake, payload, h300, if_true, hread, hsize, Option.map_some, Option.getD_some]
  by_cases h300 : d.answers 300
  · rcases fLogin_split hrun with ⟨-, -, -, hno⟩ | ⟨-, -, hno, -⟩ | ⟨a, path, rc, ci, text, already, hpub, hanswer⟩
    · exact absurd h300 hno
    · exact absurd h300 hno
    obtain ⟨k, hk, rfl⟩ : ∃ k, a.krbpath = some k ∧ already = false := by
      unfold loginAnswer at hanswer
      split at hanswer
      · rename_i k hk
        exact ⟨k, hk, rfl⟩
      · cases hanswer
        simp [loginStored, Done.answers, Reply.code?] at h300
    simp only [loginAnswer, hk] at hanswer
    obtain ⟨-, sizebuf, hsize, hframed⟩ := hreceive hanswer
    rw [hframed]
    refine not_congr ⟨fun hcut => ?_, ?_⟩
    · exact ⟨hlogin, a, path, rc, ci, text, hpub, by rw [hk]; rfl, sizebuf, hsize, hcut⟩
    · rintro ⟨-, _, _, _, _, _, -, -, sizebuf', hsize', hcut⟩
      rw [hsize] at hsize'
      cases hsize'
      exact hcut
  · have hplain := ((fLogin_other cfg ses env (acavParse line)).run hrun).resolve_right h300
    refine iff_of_true (hplain.framed hret hn) ?_
    rintro ⟨-, a, path, rc, ci, text, hpub, hk, -⟩
    obtain ⟨k, hk⟩ := Option.isSome_iff_exists.1 hk
    rw [fLogin_publishes hpub] at hrun
    simp only [loginAnswer, hk] at hrun
    exact h300 (hreceive hrun).1

theorem fRetr_framed {cfg : Config} {ses : Session} {env : Env} {sent : List Str} {line word : Str} {s t : Store}
    {d : Done} {n : Int} (hw : (acavParse line).head? = some word) (hc : findCommand word = some .retr)
    (hrun : Prog.run exec (fRetr cfg ses env (acavParse line)) s = some (d, t)) (hret : d.ret = .ret n) (hn : 0 ≤ n) :
    Framed env sent d ↔ ¬ ProxyCut cfg ses env line s := by
  have hstops : ¬ d.Stops := fun h => Int.not_lt.2 hn (h n hret)
  have hlist : ListReply ses.al.proxies d → (Framed env sent d ↔ ¬ ∃ proxy ∈ ses.al.proxies, '/' ∈ proxy.cookie) := by
    rintro (h | ⟨hcode, hcount⟩)
    · exact absurd h hstops
    by_cases hex : ∃ proxy ∈ ses.al.proxies, '/' ∈ proxy.cookie
    · refine iff_of_false ?_ (not_not.2 hex)
      rintro ⟨hreply, -⟩
      rw [hcount, if_pos hex] at hreply
      cases hreply
    · rw [if_neg hex] at hcount
      refine iff_of_true ?_ hex
      exact Done.Plain.framed (.inr ⟨hcount, Continues.code hcode (by decide), Continues.code hcode (by decide)⟩) hret hn
  rcases fRetr_framing hrun with hplain | ⟨cmd, cookie, spath, login, lpath, sl, ci, hasks⟩
  · refine iff_of_true (hplain.framed hret hn) ?_
    rintro ⟨cmd, cookie, spath, login, lpath, sl, ci, -, hasks, hex⟩
    exact (hlist (hasks.reply hrun)).1 (hplain.framed hret hn) hex
  · rw [hlist (hasks.reply hrun)]
    refine not_congr ⟨fun hex => ?_, ?_⟩
    · have hcmd : findCommand cmd = some .retr := by
        rw [hasks.words] at hw
        cases hw
        exact hc
      exact ⟨cmd, cookie, spath, login, lpath, sl, ci, hcmd, hasks, hex⟩
    · rintro ⟨_, _, _, _, _, _, _, -, -, hex⟩
      exact hex

theorem fTime_framed {cfg : Config} {ses : Session} {env : Env} {sent : List Str} {line word : Str} {s t : Store}
    {d : Done} {n : Int} (hw : (acavParse line).head? = some word) (hc : findCommand word = some .time)
    (hrun : Prog.run exec (fTime cfg ses env (acavParse line)) s = some (d, t)) (hret : d.ret = .ret n) (hn : 0 ≤ n)
    (hsent : env.lines <+: sent) : Framed env sent d ↔ (ReadsTimes ses line → TimesWhole env sent) := by
  unfold fTime at hrun
  split at hrun
  · rename_i hkey
    have hplain : d.Plain := (plain_reply (by decide)).run hrun
    exact iff_of_true (hplain.framed hret hn) fun h => absurd h.1 hkey
  rename_i hkey
  split at hrun
  · rename_i hlen
    have hplain : d.Plain := (plain_reply (by decide)).run hrun
    refine iff_of_true (hplain.framed hret hn) ?_
    rintro ⟨-, cmd, hav, -⟩
    rw [hav] at hlen
    exact absurd rfl hlen
  rename_i hlen
  have hreads : ReadsTimes ses line := by
    obtain ⟨cmd, hav⟩ := List.length_eq_one_iff.1 (not_not.1 hlen)
    rw [hav] at hw
    cases hw
    exact ⟨not_not.1 hkey, word, hav, hc⟩
  rw [Prog.run_bind] at hrun
  obtain ⟨⟨_, u⟩, -, hrun⟩ := Option.bind_eq_some_iff.1 hrun
  cases hrun
  rw [imp_iff_right hreads, TimesWhole, ← through_eq hsent]
  constructor
  · rintro ⟨-, hread⟩
    simpa [intake, payload, Done.answers, Reply.code?] using hread
  · intro hread
    refine ⟨rfl, ?_⟩
    simp [intake, payload, Done.answers, Reply.code?, hread]

theorem readsWhole_nil {cfg : Config} {ses : Session} {env : Env} {sent : List Str} {line : Str} {s : Store}
    (h : ∀ c, ¬ IsCommand c line) : ReadsWhole cfg ses env sent line s :=
  readsWhole_other fun c hc => absurd hc (h c)

/-- A line without a command is answered, and so is any other before the upgrade. -/
theorem plain_or_handled (upgraded : Bool) {cfg : Config} {ses : Session} {env : Env} {line : Str} {s t : Store} {d : Done}
    (hline : ¬ IsCommand .starttls line)
    (hrun : Prog.run exec (commandRound upgraded cfg ses env line) s = some (d, t)) :
    d.Plain ∧ (upgraded = false ∨ ∀ c, ¬ IsCommand c line) ∨
      upgraded = true ∧ ∃ word c, (acavParse line).head? = some word ∧ findCommand word = some c ∧ c ≠ .starttls ∧
        Prog.run exec (handle cfg ses env (acavParse line) c) s = some (d, t) := by
  cases hav : acavParse line with
  | nil =>
    refine .inl ⟨?_, .inr ?_⟩
    · simp only [commandRound, command, hav, ite_self] at hrun
      exact (plain_reply (by decide)).run hrun
    · rintro c ⟨word, hw, -⟩
      rw [hav] at hw
      cases hw
  | cons word args =>
    have hw : (acavParse line).head? = some word := by rw [hav]; rfl
    cases hc : findCommand word with
    | none =>
      refine .inl ⟨?_, .inr ?_⟩
      · simp only [commandRound, command, hav, hc, ite_self] at hrun
        exact (plain_reply (by decide)).run hrun
      · rintro c ⟨word', hw', hc'⟩
        rw [hw] at hw'
        cases hw'
        rw [hc] at hc'
        cases hc'
    | some c =>
      have hstarttls : c ≠ .starttls := by
        rintro rfl
        exact hline ⟨word, hw, hc⟩
      cases upgraded with
      | false =>
        refine .inl ⟨?_, .inl rfl⟩
        simp only [commandRound, Bool.false_eq_true, if_false, hav, hc] at hrun
        cases c with
        | starttls => exact absurd rfl hstarttls
        | quit => cases hrun; exact .inl fun n hn => by cases hn
        | noop | help | login | logout | register | check | rekey | retr | time | daemon =>
          exact (plain_reply (by decide)).run hrun
      | true =>
        simp only [commandRound, if_true, command, hav, hc] at hrun
        exact .inr ⟨rfl, word, c, rfl, hc, hstarttls, hrun⟩

theorem handle_framed {cfg : Config} {ses : Session} {env : Env} {sent : List Str} {line word : Str} {c : CommandName}
    {s t : Store} {d : Done} {n : Int} (hw : (acavParse line).head? = some word) (hc : findCommand word = some c)
    (hstarttls : c ≠ .starttls) (hsent : env.lines <+: sent)
    (hrun : Prog.run exec (handle cfg ses env (acavParse line) c) s = some (d, t)) (hret : d.ret = .ret n) (hn : 0 ≤ n) :
    Framed env sent d ↔ ReadsWhole cfg ses env sent line s := by
  have his : IsCommand c line := ⟨word, hw, hc⟩
  have hplain : d.Plain → (c ≠ .login ∧ c ≠ .retr ∧ c ≠ .time) →
      (Framed env sent d ↔ ReadsWhole cfg ses env sent line s) := by
    intro hd hother
    refine iff_of_true (hd.framed hret hn) (readsWhole_other fun c' hc' => ?_)
    rwa [← his.unique hc']
  have hunique : ∀ {c₀}, c ≠ c₀ → ¬ IsCommand c₀ line := fun hne h => hne (his.unique h)
  cases c with
  | starttls => exact absurd rfl hstarttls
  | quit => cases hrun; cases hret
  | login =>
    rw [fLogin_framed his hrun hret hn]
    refine ⟨fun h => ⟨h, ?_, ?_⟩, fun h => h.1⟩
    · exact fun hcut => hunique (by decide) hcut.retr
    · exact fun hreads => absurd hreads.time (hunique (by decide))
  | retr =>
    rw [fRetr_framed hw hc hrun hret hn]
    refine ⟨fun h => ⟨?_, h, ?_⟩, fun h => h.2.1⟩
    · exact fun hcut => hunique (by decide) hcut.1
    · exact fun hreads => absurd hreads.time (hunique (by decide))
  | time =>
    rw [fTime_framed hw hc hrun hret hn hsent]
    refine ⟨fun h => ⟨?_, ?_, h⟩, fun h => h.2.2⟩
    · exact fun hcut => hunique (by decide) hcut.1
    · exact fun hcut => hunique (by decide) hcut.retr
  | noop => exact hplain ((plain_reply (by decide)).run hrun) (by decide)
  | help => exact hplain ((plain_reply (by decide)).run hrun) (by decide)
  | logout => exact hplain ((fLogout_plain ..).run hrun) (by decide)
  | register => exact hplain ((fRegister_plain ..).run hrun) (by decide)
  | check => exact hplain ((fCheck_plain ..).run hrun) (by decide)
  | rekey => exact hplain ((fCheck_plain ..).run hrun) (by decide)
  | daemon => exact hplain ((fDaemon_plain ..).run hrun) (by decide)

/-- A command that goes on has one reply and has read its payload if and only if
no ticket's transfer is cut, no name of a proxy list holds a slash, and no line
of a list but its end looks like the end. -/
theorem framed_iff (upgraded : Bool) {cfg : Config} {ses : Session} {env : Env} {sent : List Str} {line : Str}
    {s t : Store} {d : Done} {n : Int} (hline : ¬ IsCommand .starttls line) (hsent : env.lines <+: sent)
    (hrun : Prog.run exec (commandRound upgraded cfg ses env line) s = some (d, t)) (hret : d.ret = .ret n) (hn : 0 ≤ n) :
    Framed env sent d ↔ (upgraded = true → ReadsWhole cfg ses env sent line s) := by
  rcases plain_or_handled upgraded hline hrun with ⟨hplain, hnone⟩ | ⟨rfl, word, c, hw, hc, hstarttls, hhandle⟩
  · refine iff_of_true (hplain.framed hret hn) fun hup => ?_
    refine readsWhole_nil (hnone.resolve_left ?_)
    rw [hup]
    decide
  · rw [imp_iff_right rfl]
    exact handle_framed hw hc hstarttls hsent hhandle hret hn

/-- An empty ticket and its end mark; `closes` is whether its file closes. -/
def emptyTicket (closes : Bool) : Env :=
  { Env.calm 200 with
    fails := fun c _ => c = .close ∧ closes = false
    size := some "0".toList
    lines := [".".toList] }

theorem emptyTicket_run (closes : Bool) : ∃ t, Prog.run exec (commandRound true .default .cgi (emptyTicket closes) ticketLogin)
    noCookies = some (if closes then transferDone .cgi (acavParse ticketLogin)
      else transferUnwritten (emptyTicket closes) "tickets/AAAAAAAAAAAA".toList, t) := by
  cases closes <;> exact ⟨_, rfl⟩

theorem ticketLogin_command : ¬ IsCommand .starttls ticketLogin := by
  have hlogin : IsCommand .login ticketLogin := ⟨"LOGIN".toList, by decide +kernel, by decide⟩
  intro h
  cases hlogin.unique h

/-- The ticket's file cannot be closed, and its end mark is read as a command. -/
theorem ticket_end_unread : ¬ ∀ (upgraded : Bool) (cfg : Config) (ses : Session) (env : Env) (sent : List Str) (line : Str)
    (s t : Store) (d : Done) (n : Int), ¬ IsCommand .starttls line → env.lines <+: sent →
    Prog.run exec (commandRound upgraded cfg ses env line) s = some (d, t) → d.ret = .ret n → 0 ≤ n → Framed env sent d := by
  intro h
  obtain ⟨t, hrun⟩ := emptyTicket_run false
  have hread := (h _ _ _ _ _ _ _ _ _ _ ticketLogin_command (List.prefix_refl _) hrun rfl (by decide)).read
  revert hread
  decide +kernel

/-- A ticket whose file closes is read to its end. -/
theorem empty_ticket_whole :
    ReadsWhole .default .cgi (emptyTicket true) (emptyTicket true).lines ticketLogin noCookies := by
  obtain ⟨t, hrun⟩ := emptyTicket_run true
  refine (framed_iff true ticketLogin_command (List.prefix_refl _) hrun rfl (Int.le_refl 0)).1 ⟨rfl, ?_⟩ rfl
  decide +kernel

end Cosign
