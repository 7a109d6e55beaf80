import Cosign.Filter.Connect
/-!
# The files of a retrieval

`netretr_proxy` makes a temporary file before it hears from the server, and only
the exits behind its loop remove it. `netretr_ticket` makes its file late and
removes it wherever it fails.
-/

namespace Cosign.Filter

open Lib

abbrev Files := Str → Option Str

def Files.put (fs : Files) (path text : Str) : Files := Function.update fs path (some text)

def Files.unlink (fs : Files) (path : Str) : Files := Function.update fs path none

theorem Files.unlink_put (fs : Files) {path : Str} (text : Str) (h : fs path = none) :
    (fs.put path text).unlink path = fs := by
  rw [Files.unlink, Files.put, Function.update_idem, ← h, Function.update_eq_self]

theorem Files.put_ne (fs : Files) {path : Str} (text : Str) (h : fs path = none) : fs.put path text ≠ fs := by
  intro he
  have := congrFun he path
  rw [Files.put, Function.update_self, h] at this
  cases this

/-! ## `netretr_proxy` -/

/-- What the system and the server do in `netretr_proxy`: whether each call is let
through, and the lines before `snet_getline` fails. -/
structure ProxyEnv where
  writef : Bool
  tv : Option (Nat × Nat)
  pid : Nat
  opens : Bool
  fdopens : Bool
  lines : List Str
  fcloses : Bool
  links : Bool

/-- `%x` of an `int`. -/
def hex (n : Nat) : Str := Nat.toDigits 16 (n % 2 ^ 32)

def tmpPath (proxydb : Str) (tv : Nat × Nat) (pid : Nat) : Str := proxydb ++ '/' :: hex tv.1 ++ hex tv.2 ++ '.' :: dec pid

/-- The loop over the answer's lines, with what is written into the temporary file. -/
def answerLines : List Str → (text : Str) → Rc × Str
  | [], text => (.error, text)
  | line :: lines, text =>
    if replyClass line ≠ .ok then (replyClass line, text)
    else if continues line then answerLines lines (text ++ 'x' :: line.drop 4 ++ ['\n'])
    else (.ok, text)

def proxyFiles (env : ProxyEnv) (scookie proxydb : Str) (fs : Files) : Rc × Files :=
  let path := proxydb ++ '/' :: scookie
  if !env.writef then (.error, fs)
  else if path.length ≥ maxPathLen then (.error, fs)
  else match env.tv with
    | none => (.error, fs)
    | some tv =>
      let tmppath := tmpPath proxydb tv env.pid
      if tmppath.length ≥ maxPathLen then (.error, fs)
      -- `O_EXCL`
      else if !env.opens || (fs tmppath).isSome then (.error, fs)
      else if !env.fdopens then (.error, (fs.put tmppath []).unlink tmppath)
      else match answerLines env.lines [] with
        | (.ok, text) =>
          if !env.fcloses then (.error, (fs.put tmppath text).unlink tmppath)
          else if !env.links || (fs.put tmppath text path).isSome then (.error, (fs.put tmppath text).unlink tmppath)
          else (.ok, ((fs.put tmppath text).put path text).unlink tmppath)
        -- the exits inside the loop
        | (rc, text) => (rc, fs.put tmppath text)

/-! ## `netretr_ticket` -/

structure TicketEnv where
  writef : Bool
  /-- What `snet_getline_multi` gives. -/
  answer : Option Str
  rand : Rand
  size : Option Str
  opens : Bool
  /-- What each `snet_read` has, before one fails. -/
  reads : List Str
  writes : Nat → Bool
  closes : Bool
  last : Option Str

/-- The loop over what is left of the ticket, or `none` for `error2`. -/
def ticketText (writes : Nat → Bool) : (i size : Nat) → List Str → (text : Str) → Option Str
  | _, 0, _, text => some text
  | _, _ + 1, [], _ => none
  | i, size + 1, data :: reads, text =>
    let data := data.take (min 8192 (size + 1))
    if data = [] then none
    else if !writes i then none
    else ticketText writes (i + 1) (size + 1 - data.length) reads (text ++ data)

def ticketFiles (env : TicketEnv) (tktPrefix : Str) (si : Sinfo) (fs : Files) : Rc × Sinfo × Files :=
  let si := { si with krb5tkt := [] }
  if !env.writef then (.error, si, fs)
  else match env.answer with
    | none => (.error, si, fs)
    | some line => match line.head? with
      | some '2' => match mkcookie 16 env.rand with
        | none => (.error, si, fs)
        | some name =>
          let krbpath := tktPrefix ++ '/' :: name
          if krbpath.length ≥ maxPathLen then (.error, si, fs)
          else match env.size with
            | none => (.error, si, fs)
            | some size =>
              if !env.opens || (fs krbpath).isSome then (.error, si, fs)
              else match ticketText env.writes 0 (atoi size % 2 ^ 64).toNat env.reads [] with
                | none => (.error, si, (fs.put krbpath []).unlink krbpath)
                | some text =>
                  let failed := (Rc.error, si, (fs.put krbpath text).unlink krbpath)
                  if !env.closes then failed
                  else match env.last with
                    | none => failed
                    | some line =>
                      if line ≠ ['.'] then failed
                      else if krbpath.length ≥ krb5tktSize then failed
                      else (.ok, { si with krb5tkt := krbpath }, fs.put krbpath text)
      | some '4' => (.loggedOut, si, fs)
      | some '5' => (.retry, si, fs)
      | _ => (.error, si, fs)

/-! ## The conversation of `netretr_proxy` -/

section

/-- The operations of `netretr_proxy` are answered as the system and the server
do. The state is what the server has still to send. -/
structure ProxyEnv.Answers (env : ProxyEnv) (path proxydb : Str) (fs : Files)
    (exec : (o : FilterOp) → List Str → FilterAns o × List Str) : Prop where
  writef : ∀ server line ls, exec (.writef server line) ls = (env.writef, ls)
  gettimeofday : ∀ ls, exec .gettimeofday ls = (env.tv.map Prod.fst, ls)
  mktmp : ∀ ls tv, env.tv = some tv → exec (.mktmp proxydb) ls =
    (decide ((tmpPath proxydb tv env.pid).length < maxPathLen) && env.opens &&
      (fs (tmpPath proxydb tv env.pid)).isNone && env.fdopens, ls)
  getline : ∀ server ls, exec (.getline server) ls = (ls.head?, ls.tail)
  linkProxy : ∀ lines ls tv, env.tv = some tv → exec (.linkProxy path lines) ls =
    (env.fcloses && env.links && decide (path ≠ tmpPath proxydb tv env.pid) && (fs path).isNone, ls)

variable {env : ProxyEnv} {path proxydb : Str} {fs : Files} {exec : (o : FilterOp) → List Str → FilterAns o × List Str}

theorem Files.put_isSome (fs : Files) (path text path' : Str) :
    (fs.put path text path').isSome = !(decide (path' ≠ path) && (fs path').isNone) := by
  by_cases h : path' = path
  · subst h
    rw [Files.put, Function.update_self, decide_eq_false (not_not.2 rfl)]
    rfl
  · rw [Files.put, Function.update_of_ne h, decide_eq_true h, Bool.true_and, Option.not_isNone]

theorem proxyLines_answers (h : env.Answers path proxydb fs exec) (server : Nat) {lines : List Str} {n : Nat}
    (hn : lines.length < n) (got : List Str) (text : Str) :
    ∃ got' rest, Prog.run exec (proxyLines server n got) lines = some (((answerLines lines text).1, got'), rest) := by
  induction lines generalizing n got text with
  | nil =>
    cases n with
    | zero => cases hn
    | succ n =>
    refine ⟨got, [], ?_⟩
    rw [proxyLines, run_fCall, h.getline]
    rfl
  | cons line lines ih =>
    cases n with
    | zero => cases hn
    | succ n =>
    rw [proxyLines, run_fCall, h.getline]
    dsimp only [List.head?_cons, List.tail_cons]
    rw [answerLines]
    split
    · exact ⟨got, lines, rfl⟩
    · split
      · exact ih (Nat.lt_of_succ_lt_succ hn) _ _
      · exact ⟨got, lines, rfl⟩

/-- The program returns what `proxyFiles` says. -/
theorem netretrProxy_files {cfg : HostConfig} {scookie : Str}
    (h : env.Answers (cfg.proxydb ++ '/' :: scookie) cfg.proxydb fs exec) {rounds : Nat}
    (hr : env.lines.length < rounds) (conn : Conn) :
    ∃ rest, Prog.run exec (netretrProxy rounds cfg scookie conn) env.lines =
      some ((proxyFiles env scookie cfg.proxydb fs).1, rest) := by
  unfold netretrProxy proxyFiles
  rw [run_fCall, h.writef]
  dsimp only
  by_cases hw : env.writef = true
  swap
  · rw [Bool.eq_false_iff.2 hw]
    exact ⟨_, rfl⟩
  rw [hw]
  by_cases hlen : (cfg.proxydb ++ '/' :: scookie).length ≥ maxPathLen
  · simp only [Bool.not_true, Bool.false_eq_true, if_false, if_pos hlen]
    exact ⟨_, rfl⟩
  simp only [Bool.not_true, Bool.false_eq_true, if_false, if_neg hlen]
  rw [run_fCall, h.gettimeofday]
  cases htv : env.tv with
  | none => exact ⟨_, rfl⟩
  | some tv =>
    simp only [Option.map_some, Option.isNone_some, Bool.false_eq_true, if_false]
    rw [run_fCall, h.mktmp _ tv htv]
    by_cases htmp : (tmpPath cfg.proxydb tv env.pid).length ≥ maxPathLen
    · rw [if_pos htmp, decide_eq_false (Nat.not_lt.2 htmp)]
      exact ⟨_, rfl⟩
    rw [if_neg htmp, decide_eq_true (Nat.not_le.1 htmp), Bool.true_and]
    by_cases hopen : env.opens = true ∧ fs (tmpPath cfg.proxydb tv env.pid) = none
    swap
    · have h1 : (env.opens && (fs (tmpPath cfg.proxydb tv env.pid)).isNone) = false := by
        rw [Bool.eq_false_iff]
        simpa using hopen
      have h2 : (!env.opens || (fs (tmpPath cfg.proxydb tv env.pid)).isSome) = true := by
        rw [← Option.not_isNone, ← Bool.not_and, h1]
        rfl
      rw [h1, h2]
      exact ⟨_, rfl⟩
    rw [hopen.1, hopen.2]
    by_cases hfd : env.fdopens = true
    swap
    · rw [Bool.eq_false_iff.2 hfd]
      exact ⟨_, rfl⟩
    rw [hfd]
    obtain ⟨got, rest, hrun⟩ := proxyLines_answers h conn.server hr [] []
    simp only [Option.isNone_none, Option.isSome_none, Bool.and_self, Bool.not_true, Bool.or_self,
      Bool.false_eq_true, if_false]
    rw [Prog.run_bind, hrun, Option.bind_some]
    cases answerLines env.lines [] with
    | mk rc text =>
      cases rc with
      | ok =>
        simp only [ne_eq, not_true_eq_false, if_false]
        rw [run_fCall, h.linkProxy _ _ tv htv,
          Files.put_isSome]
        refine ⟨rest, ?_⟩
        rw [Bool.and_assoc]
        cases env.fcloses with
        | false => rfl
        | true =>
          cases env.links with
          | false => rfl
          | true =>
            cases decide (cfg.proxydb ++ '/' :: scookie ≠ tmpPath cfg.proxydb tv env.pid) &&
              (fs (cfg.proxydb ++ '/' :: scookie)).isNone with
            | false => rfl
            | true => rfl
      | error => exact ⟨_, rfl⟩
      | retry => exact ⟨_, rfl⟩
      | loggedOut => exact ⟨_, rfl⟩

end

/-! ## The conversation of `netretr_ticket` -/

section

/-- The files, what the server has still to send, and how often the ticket's file
was written to. -/
structure TicketLeft where
  files : Files
  lines : List (Option Str)
  reads : List Str
  written : Nat

/-- The operations of `netretr_ticket` are answered as the system and the server
do. -/
structure TicketEnv.Answers (env : TicketEnv) (exec : (o : FilterOp) → TicketLeft → FilterAns o × TicketLeft) : Prop where
  writef : ∀ server line t, exec (.writef server line) t = (env.writef, t)
  getlineMulti : ∀ conn t, exec (.getlineMulti conn) t = (env.answer, t)
  random : ∀ t, exec .random t = (env.rand, t)
  getline : ∀ server t, exec (.getline server) t = (t.lines.head?.join, { t with lines := t.lines.tail })
  openTkt : ∀ path t, exec (.openTkt path) t =
    if !env.opens || (t.files path).isSome then (false, t) else (true, { t with files := t.files.put path [] })
  snetRead : ∀ server n t, exec (.snetRead server n) t =
    (t.reads.head?.map (List.take n), { t with reads := t.reads.tail })
  writeTkt : ∀ path data t, exec (.writeTkt path data) t =
    if env.writes t.written then
      (true, { t with written := t.written + 1, files := t.files.put path ((t.files path).getD [] ++ data) })
    else (false, t)
  closeTkt : ∀ path t, exec (.closeTkt path) t = (env.closes, t)
  unlinkTkt : ∀ path t, exec (.unlinkTkt path) t = ((), { t with files := t.files.unlink path })

variable {env : TicketEnv} {exec : (o : FilterOp) → TicketLeft → FilterAns o × TicketLeft}

theorem Files.put_put (fs : Files) (path text text' : Str) : (fs.put path text).put path text' = fs.put path text' :=
  Function.update_idem ..

theorem Files.unlink_after_put (fs : Files) (path text text' : Str) :
    (fs.put path text).unlink path = (fs.put path text').unlink path := by
  simp only [Files.unlink, Files.put, Function.update_idem]

/-- The loop has the ticket in its file, or some of it where it fails. -/
theorem ticketBytes_answers (h : env.Answers exec) (server : Nat) (fs : Files) (path : Str) {reads : List Str} {n : Nat}
    (hn : reads.length < n) (size : Nat) (text : Str) (lines : List (Option Str)) (i : Nat) :
    ∃ got, (∃ rest i', Prog.run exec (ticketBytes server path n size) ⟨fs.put path text, lines, reads, i⟩ =
        some ((ticketText env.writes i size reads text).isSome, ⟨fs.put path got, lines, rest, i'⟩)) ∧
      ∀ whole, ticketText env.writes i size reads text = some whole → whole = got := by
  induction reads generalizing n size text i with
  | nil =>
    cases size with
    | zero =>
      cases n with
      | zero => cases hn
      | succ n => exact ⟨text, ⟨[], i, rfl⟩, fun whole hw => (Option.some.inj hw).symm⟩
    | succ size =>
      cases n with
      | zero => cases hn
      | succ n =>
      refine ⟨text, ⟨[], i, ?_⟩, fun whole hw => by cases hw⟩
      rw [ticketBytes, run_fCall, h.snetRead]
      · rfl
      · simp
  | cons data reads ih =>
    cases n with
    | zero => cases hn
    | succ n =>
    cases size with
    | zero => exact ⟨text, ⟨data :: reads, i, rfl⟩, fun whole hw => (Option.some.inj hw).symm⟩
    | succ size =>
    rw [ticketBytes, run_fCall, h.snetRead, ticketText]
    swap
    · simp
    dsimp only [List.head?_cons, List.tail_cons, Option.map_some]
    by_cases hdata : data.take (min 8192 (size + 1)) = []
    · rw [if_pos hdata, if_pos hdata]
      exact ⟨text, ⟨reads, i, rfl⟩, fun whole hw => by cases hw⟩
    rw [if_neg hdata, if_neg hdata, run_fCall, h.writeTkt]
    by_cases hwrite : env.writes i = true
    swap
    · rw [if_neg hwrite, Bool.eq_false_iff.2 hwrite]
      exact ⟨text, ⟨reads, i, rfl⟩, fun whole hw => by cases hw⟩
    rw [if_pos hwrite, hwrite]
    have hput : (fs.put path text).put path (((fs.put path text) path).getD [] ++ data.take (min 8192 (size + 1))) =
        fs.put path (text ++ data.take (min 8192 (size + 1))) := by
      have htext : (fs.put path text) path = some text := Function.update_self ..
      rw [Files.put_put, htext, Option.getD_some]
    simp only [hput, Bool.not_true, Bool.false_eq_true, if_false]
    exact ih (Nat.lt_of_succ_lt_succ hn) _ _ _

/-- The program returns what `ticketFiles` says, and leaves the files so. -/
theorem netretrTicket_files (h : env.Answers exec) {cfg : HostConfig} (scookie : Str) (conn : Conn) (si : Sinfo) (fs : Files)
    {rounds : Nat} (hr : env.reads.length < rounds) :
    ∃ t, Prog.run exec (netretrTicket rounds cfg scookie conn si) ⟨fs, [env.size, env.last], env.reads, 0⟩ =
      some (((ticketFiles env cfg.tktPrefix si fs).1, (ticketFiles env cfg.tktPrefix si fs).2.1), t) ∧
        t.files = (ticketFiles env cfg.tktPrefix si fs).2.2 := by
  unfold netretrTicket ticketFiles
  dsimp only
  rw [run_fCall, h.writef]
  by_cases hw : env.writef = true
  swap
  · rw [Bool.eq_false_iff.2 hw]
    exact ⟨_, rfl, rfl⟩
  rw [hw]
  simp only [Bool.not_true, Bool.false_eq_true, if_false]
  rw [run_fCall, h.getlineMulti]
  cases env.answer with
  | none => exact ⟨_, rfl, rfl⟩
  | some line =>
  dsimp only
  by_cases htwo : line.head? = some '2'
  · simp only [htwo]
    rw [run_fCall, h.random]
    dsimp only
    cases mkcookie 16 env.rand with
    | none => exact ⟨_, rfl, rfl⟩
    | some name =>
    dsimp only
    generalize cfg.tktPrefix ++ '/' :: name = krbpath
    by_cases hlen : krbpath.length ≥ maxPathLen
    · rw [if_pos hlen, if_pos (show krbpath.length ≥ krb5tktSize from hlen)]
      exact ⟨_, rfl, rfl⟩
    rw [if_neg hlen, if_neg (show ¬ krbpath.length ≥ krb5tktSize from hlen), run_fCall, h.getline]
    cases env.size with
    | none => exact ⟨_, rfl, rfl⟩
    | some size =>
    dsimp only [List.head?_cons, List.tail_cons, Option.join_some]
    rw [run_fCall, h.openTkt]
    by_cases hopen : (!env.opens || (fs krbpath).isSome) = true
    · rw [if_pos hopen, if_pos hopen]
      exact ⟨_, rfl, rfl⟩
    rw [if_neg hopen, if_neg hopen]
    simp only [Bool.not_true, Bool.false_eq_true, if_false]
    obtain ⟨got, ⟨rest, i', hrun⟩, hwhole⟩ :=
      ticketBytes_answers h conn.server fs krbpath hr (atoi size % 2 ^ 64).toNat [] [env.last] 0
    rw [Prog.run_bind, hrun, Option.bind_some]
    cases htext : ticketText env.writes 0 (atoi size % 2 ^ 64).toNat env.reads [] with
    | none =>
      simp only [Option.isSome_none, Bool.not_false, if_true]
      rw [run_fCall, h.closeTkt, run_fCall, h.unlinkTkt]
      exact ⟨_, rfl, Files.unlink_after_put ..⟩
    | some text =>
      obtain rfl := hwhole text htext
      simp only [Option.isSome_some, Bool.not_true, Bool.false_eq_true, if_false]
      rw [run_fCall, h.closeTkt]
      dsimp only
      by_cases hclose : env.closes = true
      swap
      · rw [Bool.eq_false_iff.2 hclose]
        simp only [Bool.not_false, if_true]
        rw [run_fCall, h.unlinkTkt]
        exact ⟨_, rfl, rfl⟩
      rw [hclose]
      simp only [Bool.not_true, Bool.false_eq_true, if_false]
      rw [run_fCall, h.getline]
      dsimp only [List.head?_cons, List.tail_cons, Option.join_some]
      have hfit : ¬ krbpath.length ≥ krb5tktSize := hlen
      split
      · rename_i hlast
        rw [hlast]
        simp only [ne_eq, not_true_eq_false, if_false, if_neg hfit]
        exact ⟨_, rfl, rfl⟩
      · rename_i hlast
        rw [run_fCall, h.unlinkTkt]
        cases hline : env.last with
        | none => exact ⟨_, rfl, rfl⟩
        | some line =>
          have hdot : line ≠ ['.'] := fun he => hlast (by rw [hline, he])
          simp only [if_pos hdot]
          exact ⟨_, rfl, rfl⟩
  by_cases hfour : line.head? = some '4'
  · rw [hfour]
    exact ⟨_, rfl, rfl⟩
  by_cases hfive : line.head? = some '5'
  · rw [hfive]
    exact ⟨_, rfl, rfl⟩
  simp only
  exact ⟨_, rfl, rfl⟩

end

/-! ## What a failure leaves -/

/-- The temporary file is made and opened. -/
def Opens (env : ProxyEnv) (scookie proxydb : Str) (fs : Files) : Prop :=
  env.writef = true ∧ (proxydb ++ '/' :: scookie).length < maxPathLen ∧ env.opens = true ∧ env.fdopens = true ∧
    ∃ tv, env.tv = some tv ∧ (tmpPath proxydb tv env.pid).length < maxPathLen ∧ fs (tmpPath proxydb tv env.pid) = none

/-- The lines hold a whole good answer: lines that are continued, and one that is not. -/
def Answered (lines : List Str) : Prop :=
  ∃ more line rest, lines = more ++ line :: rest ∧ (∀ l ∈ more, replyClass l = .ok ∧ continues l = true) ∧
    replyClass line = .ok ∧ continues line = false

/-- The answer breaks off, or turns bad, once the temporary file is there. -/
def BreaksOff (env : ProxyEnv) (scookie proxydb : Str) (fs : Files) : Prop :=
  Opens env scookie proxydb fs ∧ ¬ Answered env.lines

theorem answerLines_ok_iff (lines : List Str) (text : Str) : (answerLines lines text).1 = .ok ↔ Answered lines := by
  induction lines generalizing text with
  | nil =>
    refine iff_of_false (by simp [answerLines]) ?_
    rintro ⟨more, line, rest, he, -⟩
    cases more <;> cases he
  | cons line lines ih =>
    rw [answerLines]
    by_cases hok : replyClass line = .ok
    · rw [if_neg (not_not.2 hok)]
      by_cases hc : continues line = true
      · rw [if_pos hc, ih]
        constructor
        · rintro ⟨more, l, rest, rfl, hmore, hl⟩
          exact ⟨line :: more, l, rest, rfl, List.forall_mem_cons.2 ⟨⟨hok, hc⟩, hmore⟩, hl⟩
        · rintro ⟨more, l, rest, he, hmore, hl⟩
          cases more with
          | nil =>
            obtain rfl := (List.cons.inj he).1
            rw [hc] at hl
            cases hl.2
          | cons a more =>
            exact ⟨more, l, rest, (List.cons.inj he).2, fun x hx => hmore x (List.mem_cons_of_mem _ hx), hl⟩
      · rw [if_neg hc]
        exact iff_of_true rfl ⟨[], line, lines, rfl, by simp, hok, by simpa using hc⟩
    · rw [if_pos hok]
      refine iff_of_false hok ?_
      rintro ⟨more, l, rest, he, hmore, hl⟩
      cases more with
      | nil =>
        obtain rfl := (List.cons.inj he).1
        exact hok hl.1
      | cons a more =>
        obtain rfl := (List.cons.inj he).1
        exact hok (hmore _ List.mem_cons_self).1

/-- What a failed `netretr_proxy` leaves is the temporary file of an answer that breaks off. -/
theorem proxyFiles_kept_iff (env : ProxyEnv) (scookie proxydb : Str) (fs : Files) :
    ((proxyFiles env scookie proxydb fs).1 ≠ .ok → (proxyFiles env scookie proxydb fs).2 = fs) ↔
      ¬ BreaksOff env scookie proxydb fs := by
  have hshut : ∀ {rc : Rc}, ¬ Opens env scookie proxydb fs →
      ((rc ≠ .ok → fs = fs) ↔ ¬ BreaksOff env scookie proxydb fs) := fun h =>
    iff_of_true (fun _ => rfl) fun hb => h hb.1
  unfold proxyFiles
  dsimp only
  by_cases hw : env.writef = true
  swap
  · rw [if_pos (by simpa using hw)]
    exact hshut fun h => hw h.1
  rw [if_neg (by simp [hw])]
  by_cases hp : (proxydb ++ '/' :: scookie).length ≥ maxPathLen
  · rw [if_pos hp]
    exact hshut fun h => by have := h.2.1; omega
  rw [if_neg hp]
  cases htv : env.tv with
  | none => exact hshut fun ⟨_, _, _, _, tv, he, _⟩ => by rw [htv] at he; cases he
  | some tv =>
    dsimp only
    by_cases ht : (tmpPath proxydb tv env.pid).length ≥ maxPathLen
    · rw [if_pos ht]
      refine hshut fun ⟨_, _, _, _, tv', he, hlt, _⟩ => ?_
      rw [htv] at he
      cases he
      omega
    rw [if_neg ht]
    by_cases ho : (!env.opens || (fs (tmpPath proxydb tv env.pid)).isSome) = true
    · rw [if_pos ho]
      refine hshut fun ⟨_, _, hopen, _, tv', he, _, hnone⟩ => ?_
      rw [htv] at he
      cases he
      rw [hopen, hnone] at ho
      cases ho
    rw [if_neg ho]
    simp only [Bool.or_eq_true, Bool.not_eq_true', not_or, Bool.not_eq_false, Bool.not_eq_true, Option.isSome_eq_false_iff,
      Option.isNone_iff_eq_none] at ho
    by_cases hf : env.fdopens = true
    swap
    · rw [if_pos (by simpa using hf)]
      exact iff_of_true (fun _ => Files.unlink_put fs [] ho.2) fun hb => hf hb.1.2.2.2.1
    rw [if_neg (by simp [hf])]
    have hopens : Opens env scookie proxydb fs := ⟨hw, by omega, ho.1, hf, tv, htv, by omega, ho.2⟩
    have hiff := answerLines_ok_iff env.lines []
    generalize answerLines env.lines [] = ans at hiff ⊢
    obtain ⟨rc, text⟩ := ans
    by_cases hrc : rc = .ok
    · subst hrc
      have hnot : ¬ BreaksOff env scookie proxydb fs := fun hb => hb.2 (hiff.1 rfl)
      refine iff_of_true ?_ hnot
      dsimp only
      split
      · exact fun _ => Files.unlink_put fs text ho.2
      · split
        · exact fun _ => Files.unlink_put fs text ho.2
        · exact fun h => absurd rfl h
    · have hb : BreaksOff env scookie proxydb fs := ⟨hopens, fun h => hrc (hiff.2 h)⟩
      have hne := Files.put_ne fs text ho.2
      cases rc with
      | ok => exact absurd rfl hrc
      | error => exact iff_of_false (fun h => hne (h (by simp))) (not_not.2 hb)
      | retry => exact iff_of_false (fun h => hne (h (by simp))) (not_not.2 hb)
      | loggedOut => exact iff_of_false (fun h => hne (h (by simp))) (not_not.2 hb)

/-- No file is left, and no name of one. -/
def Cleared (fs : Files) (x : Rc × Sinfo × Files) : Prop := x.1 ≠ .ok → x.2.2 = fs ∧ x.2.1.krb5tkt = []

/-- `netretr_ticket` clears up wherever it fails. -/
theorem ticketFiles_cleared (env : TicketEnv) (tktPrefix : Str) (si : Sinfo) (fs : Files) :
    Cleared fs (ticketFiles env tktPrefix si fs) := by
  have hearly : ∀ rc, Cleared fs (rc, { si with krb5tkt := [] }, fs) := fun rc _ => ⟨rfl, rfl⟩
  unfold ticketFiles
  dsimp only
  split
  · exact hearly _
  split
  · exact hearly _
  split
  · split
    · exact hearly _
    split
    · exact hearly _
    split
    · exact hearly _
    split
    · exact hearly _
    · rename_i hopen
      simp only [Bool.or_eq_true, not_or, Bool.not_eq_true, Option.isSome_eq_false_iff, Option.isNone_iff_eq_none] at hopen
      -- behind `open`, each failure unlinks the file
      have hlate : ∀ rc text, Cleared fs (rc, { si with krb5tkt := [] }, (fs.put _ text).unlink _) :=
        fun rc text _ => ⟨Files.unlink_put fs text hopen.2, rfl⟩
      split
      · exact hlate _ _
      split
      · exact hlate _ _
      split
      · exact hlate _ _
      split
      · exact hlate _ _
      split
      · exact hlate _ _
      · exact fun h => absurd rfl h
  · exact hearly _
  · exact hearly _
  · exact hearly _

/-- Failed retrievals leave no files, unless the answer of `netretr_proxy` breaks off. -/
theorem retr_kept_iff (env : ProxyEnv) (env' : TicketEnv) (scookie proxydb tktPrefix : Str) (si : Sinfo) (fs : Files) :
    (((proxyFiles env scookie proxydb fs).1 ≠ .ok → (proxyFiles env scookie proxydb fs).2 = fs) ∧
      Cleared fs (ticketFiles env' tktPrefix si fs)) ↔ ¬ BreaksOff env scookie proxydb fs := by
  rw [proxyFiles_kept_iff]
  exact and_iff_left (ticketFiles_cleared env' tktPrefix si fs)

/-- The server refuses. -/
def refusedEnv : ProxyEnv :=
  ⟨true, some (1, 2), 3, true, true, ["442 RETR: Cookie not in db.".toList], true, true⟩

theorem retr_leaves_file : ¬ ∀ (env : ProxyEnv) (env' : TicketEnv) (scookie proxydb tktPrefix : Str) (si : Sinfo) (fs : Files),
    ((proxyFiles env scookie proxydb fs).1 ≠ .ok → (proxyFiles env scookie proxydb fs).2 = fs) ∧
      Cleared fs (ticketFiles env' tktPrefix si fs) := by
  intro h
  have hproxy := (h refusedEnv ⟨false, none, none, none, false, [], fun _ => false, false, none⟩ "cosign-www=abc".toList
    "/proxy".toList "/ticket".toList .zero fun _ => none).1
  have hleft := congrFun (hproxy (by decide)) "/proxy/12.3".toList
  revert hleft
  decide

end Cosign.Filter
