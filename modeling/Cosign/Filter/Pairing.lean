import Cosign.Filter.Choose
import Cosign.Filter.Latency
/-!
# Replies still unread

A persistent connection carries one exchange after another. What a server
sends waits on the connection until it is read, and the next reader takes what
is there. `cosign_check_cookie` closes a connection whose `CHECK` went wrong,
but keeps it when a retrieval does.
-/

namespace Cosign.Filter

open Lib

/-! ## What is on the wire -/

inductive Piece where
  | line (l : Str)
  | data (b : Str)

structure Wire where
  /-- What has come over each connection and nobody has read. -/
  unread : Nat → List Piece
  /-- What was written last over each connection. -/
  sent : Nat → Str

def Wire.put (w : Wire) (server : Nat) (ps : List Piece) : Wire := { w with unread := Function.update w.unread server ps }

/-- The first answer among the pieces, up to its last line. -/
def Parses (ps : List Piece) (ls : List Str) (l : Str) (rest : List Piece) : Prop :=
  ps = ls.map .line ++ .line l :: rest ∧ (∀ x ∈ ls, continues x = true) ∧ continues l = false

def dataPieces (b : Str) : List Piece := if b = [] then [] else [.data b]

/-- What an operation may answer. A command that is written is answered in any
way. -/
def wireStep : (o : FilterOp) → Wire → FilterAns o → Wire → Prop
  | .connect server, w, r, w' => w' = if r.isSome then w.put server [] else w
  | .close server, w, _, w' => w' = w.put server []
  | .writef server line, w, r, w' =>
    if r then ∃ ps, w' = ⟨Function.update w.unread server (w.unread server ++ ps), Function.update w.sent server line⟩
    else w' = w
  | .getline server, w, r, w' =>
    match r with
    | some l => ∃ rest, w.unread server = .line l :: rest ∧ w' = w.put server rest
    | none => w' = w
  | .getlineMulti conn, w, r, w' =>
    match r with
    | some l => ∃ ls rest, Parses (w.unread conn.server) ls l rest ∧ w' = w.put conn.server rest
    | none => ∃ ps, w' = w.put conn.server ps
  | .snetRead server n, w, r, w' =>
    match r with
    | some d => if d = [] then w' = w else d.length ≤ n ∧
        ∃ more rest, w.unread server = .data (d ++ more) :: rest ∧ w' = w.put server (dataPieces more ++ rest)
    | none => w' = w
  | _, w, _, w' => w' = w

/-! ## WholeReply exchanges -/

/-- A line after which the retrieval of the proxy cookies reads another. -/
def goesOn (l : Str) : Bool := replyClass l = .ok && continues l

/-- The answer to `CHECK` and `REKEY`: nothing comes after it. -/
def LinesReply (ps : List Piece) : Prop := ∀ ls l rest, Parses ps ls l rest → rest = []

def CookiesReply (ps : List Piece) : Prop :=
  ∃ (ls : List Str) (l : Str), ps = ls.map .line ++ [.line l] ∧ (∀ x ∈ ls, goesOn x = true) ∧ goesOn l = false

/-- After a 2xx come the size, as many bytes and a line with a dot. -/
def TicketReply (ps : List Piece) : Prop :=
  ∀ ls l rest, Parses ps ls l rest →
    if l.head? = some '2' then ∃ size bytes, rest = .line size :: (dataPieces bytes ++ [.line ['.']]) ∧
      bytes.length = (atoi size % 2 ^ 64).toNat
    else rest = []

def isRetr (line : Str) : Bool := "RETR ".toList.isPrefixOf line
def isTgt (line : Str) : Bool := " tgt".toList.isSuffixOf line

def WholeReply (line : Str) (ps : List Piece) : Prop :=
  if isRetr line then if isTgt line then TicketReply ps else CookiesReply ps else LinesReply ps

/-- No local failure after a retrieval is written, and its reply arrives whole. -/
def Handled (cfg : HostConfig) : (o : FilterOp) → Wire → FilterAns o → Wire → Prop
  | .writef server line, w, r, w' => r = true →
    (∀ ps, w'.unread server = w.unread server ++ ps → WholeReply line ps) ∧
      ∀ cookie, line = "RETR ".toList ++ cookie ++ " cookies".toList → (cfg.proxydb ++ '/' :: cookie).length < maxPathLen
  | .gettimeofday, _, r, _ => r.isSome
  | .mktmp _, _, r, _ => r = true
  | .getline _, _, r, _ => r.isSome
  | .getlineMulti conn, w, r, _ => isRetr (w.sent conn.server) = true → r.isSome
  | .random, _, r, _ => ∃ name, mkcookie 16 r = some name ∧ (cfg.tktPrefix ++ '/' :: name).length < krb5tktSize
  | .openTkt _, _, r, _ => r = true
  | .snetRead .., _, r, _ => ∃ d, r = some d ∧ d ≠ []
  | .writeTkt .., _, r, _ => r = true
  | .closeTkt _, _, r, _ => r = true
  | _, _, _, _ => True

abbrev WireEvent := Prog.Event FilterOp FilterAns Wire

def Meets (cfg : HostConfig) (e : WireEvent) : Prop := Handled cfg e.op e.pre e.ans e.post

/-- A command is written only where nothing is unread: the next answer is its own. -/
def Paired (e : WireEvent) : Prop := ∀ server line, e.op = .writef server line → e.pre.unread server = []

/-- Every open connection has been read to its end. -/
def InStep (cl : List Conn) (w : Wire) : Prop :=
  (cl.map (·.server)).Nodup ∧ ∀ conn ∈ cl, conn.isOpen = true → w.unread conn.server = []

/-- Calls of `cosign_check_cookie` one after another, each with the configuration
of its request, over one of the connection lists of the process; and what each
did. -/
inductive Conversation : List (List Conn) → Wire → List (HostConfig × WireEvent) → List (List Conn) → Wire → Prop where
  | nil (cls : List (List Conn)) (w : Wire) : Conversation cls w [] cls w
  | call {cls cls₁ cls₂ cl w w' w'' tr tr' n cfg cookie rekey si first c}
      (h : Conversation cls w tr (cls₁ ++ cl :: cls₂) w')
      (hcall : Prog.Goes wireStep (checkCookie n cfg cookie rekey si first cl) w' tr' (some c) w'') :
      Conversation cls w (tr ++ tr'.map (Prod.mk cfg)) (cls₁ ++ c.cl :: cls₂) w''

/-! ## One connection -/

def pwp {α : Type} (cfg : HostConfig) (p : FProg α) (Q : α → Wire → Prop) (w : Wire) : Prop :=
  Prog.wp wireStep (Meets cfg) Paired p Q w

/-- The other connections are as they were. -/
def Elsewhere (server : Nat) (w w' : Wire) : Prop := ∀ s, s ≠ server → w'.unread s = w.unread s

theorem Elsewhere.refl (server : Nat) (w : Wire) : Elsewhere server w w := fun _ _ => rfl

theorem Elsewhere.trans {server : Nat} {w w' w'' : Wire} (h : Elsewhere server w w') (h' : Elsewhere server w' w'') :
    Elsewhere server w w'' := fun s hs => (h' s hs).trans (h s hs)

theorem elsewhere_put (w : Wire) (server : Nat) (ps : List Piece) : Elsewhere server w (w.put server ps) :=
  fun _ hs => Function.update_of_ne hs _ _

@[simp] theorem put_unread (w : Wire) (server : Nat) (ps : List Piece) : (w.put server ps).unread server = ps :=
  Function.update_self ..

@[simp] theorem put_sent (w : Wire) (server : Nat) (ps : List Piece) : (w.put server ps).sent = w.sent := rfl

/-- The post-condition of whatever reads its own reply to the end. -/
def ReadsAll (server : Nat) (w w' : Wire) : Prop := Elsewhere server w w' ∧ w'.unread server = []

theorem pwp_bind {α β : Type} {cfg : HostConfig} {p : FProg α} {f : α → FProg β} {Q : β → Wire → Prop} {w : Wire} :
    pwp cfg (p >>= f) Q w ↔ pwp cfg p (fun a => pwp cfg (f a) Q) w := Prog.wp_bind ..

theorem pwp_mono {α : Type} {cfg : HostConfig} {p : FProg α} {Q R : α → Wire → Prop} (h : ∀ a s, Q a s → R a s)
    {w : Wire} (hp : pwp cfg p Q w) : pwp cfg p R w := Prog.wp_mono h hp

/-- An operation that is not a command. -/
theorem pwp_call {α : Type} {cfg : HostConfig} {o : FilterOp} {f : FilterAns o → FProg α} {Q : α → Wire → Prop}
    {w : Wire}
    (ho : ∀ server line, o ≠ .writef server line)
    (h : ∀ r w', wireStep o w r w' → Handled cfg o w r w' → pwp cfg (f r) Q w') : pwp cfg (fCall o >>= f) Q w :=
  fun r w' hs hC => ⟨fun server line he => absurd he (ho server line), h r w' hs hC⟩

/-- A command, with the reply that is all there is to read then. -/
theorem pwp_writef {α : Type} {cfg : HostConfig} {server : Nat} {line : Str} {f : Bool → FProg α} {Q : α → Wire → Prop}
    {w : Wire} (hw : w.unread server = []) (hfail : pwp cfg (f false) Q w)
    (h : ∀ w', Elsewhere server w w' → w'.sent server = line → WholeReply line (w'.unread server) →
      (∀ cookie, line = "RETR ".toList ++ cookie ++ " cookies".toList → (cfg.proxydb ++ '/' :: cookie).length < maxPathLen) →
      pwp cfg (f true) Q w') : pwp cfg (fCall (.writef server line) >>= f) Q w := by
  intro r w' hs hC
  refine ⟨fun s l he => by cases he; exact hw, ?_⟩
  cases r with
  | false =>
    obtain rfl : w' = w := hs
    exact hfail
  | true =>
    obtain ⟨ps, rfl⟩ : ∃ ps, w' = _ := hs
    obtain ⟨hwhole, hfits⟩ := hC rfl
    refine h _ (fun s hs => Function.update_of_ne hs _ _) (Function.update_self ..) ?_ hfits
    refine hwhole _ ?_
    dsimp only
    rw [hw]
    rfl

/-! ## `CHECK` and `REKEY` -/

theorem checkCommand_not_retr (rekey : Rekey) (conn : Conn) (cookie : Str) :
    isRetr (checkCommand rekey conn cookie) = false := by
  unfold checkCommand
  split <;> rfl

theorem netcheckCookie_reads (cfg : HostConfig) (cookie : Str) (rekey : Rekey) (conn : Conn) (si : Sinfo) {w : Wire}
    (hw : w.unread conn.server = []) : pwp cfg (netcheckCookie cfg cookie rekey conn si)
      (fun r w' => Elsewhere conn.server w w' ∧ (r.1 ≠ .error → w'.unread conn.server = [])) w := by
  unfold netcheckCookie
  refine pwp_writef hw ⟨Elsewhere.refl _ w, fun h => absurd rfl h⟩ ?_
  intro w₁ hother hsent hwhole _
  rw [if_neg (by decide)]
  rw [WholeReply, checkCommand_not_retr, if_neg (by decide)] at hwhole
  refine pwp_call (fun _ _ h => by cases h) fun r w₂ hread _ => ?_
  cases r with
  | none =>
    obtain ⟨ps, rfl⟩ : ∃ ps, w₂ = _ := hread
    exact ⟨hother.trans (elsewhere_put _ _ _), fun h => absurd rfl h⟩
  | some line =>
    obtain ⟨ls, rest, hparse, rfl⟩ : ∃ ls rest, _ ∧ w₂ = _ := hread
    obtain rfl := hwhole ls line rest hparse
    exact ⟨hother.trans (elsewhere_put _ _ _), fun _ => put_unread ..⟩

/-! ## The retrievals -/

theorem retr_cookies (cookie : Str) : isRetr ("RETR ".toList ++ cookie ++ " cookies".toList) = true ∧
    isTgt ("RETR ".toList ++ cookie ++ " cookies".toList) = false := by
  refine ⟨rfl, ?_⟩
  rw [isTgt, ← Bool.not_eq_true, List.isSuffixOf_iff_suffix]
  rintro ⟨pre, hpre⟩
  have hlast := congrArg List.getLast? hpre
  rw [List.getLast?_append, List.getLast?_append] at hlast
  change (some 't').or _ = (some 's').or _ at hlast
  cases hlast

theorem retr_tgt (cookie : Str) : isRetr ("RETR ".toList ++ cookie ++ " tgt".toList) = true ∧
    isTgt ("RETR ".toList ++ cookie ++ " tgt".toList) = true := by
  refine ⟨rfl, ?_⟩
  rw [isTgt, List.isSuffixOf_iff_suffix]
  exact List.suffix_append _ _

/-- The loop stops at the last line of the answer. -/
theorem proxyLines_reads (cfg : HostConfig) (server : Nat) (n : Nat) (got : List Str) (ls : List Str) (l : Str)
    (hls : ∀ x ∈ ls, goesOn x = true) (hl : goesOn l = false) {w : Wire}
    (hw : w.unread server = ls.map .line ++ [.line l]) :
    pwp cfg (proxyLines server n got) (fun _ w' => ReadsAll server w w') w := by
  induction n generalizing ls got w with
  | zero => trivial
  | succ n ih =>
    rw [proxyLines]
    refine pwp_call (fun _ _ h => by cases h) fun r w₁ hread hgot => ?_
    cases r with
    | none => cases hgot
    | some line =>
      obtain ⟨rest, hrest, rfl⟩ : ∃ rest, _ ∧ w₁ = _ := hread
      rw [hw] at hrest
      -- the line that is read is the last of the answer, or one that goes on
      cases ls with
      | nil =>
        cases hrest
        have hdone : ReadsAll server w (w.put server []) := ⟨elsewhere_put _ _ _, put_unread _ _ _⟩
        dsimp only
        split
        · exact hdone
        split
        · rename_i hok hgo
          rw [goesOn, not_not.1 hok, hgo] at hl
          cases hl
        · exact hdone
      | cons x xs =>
        cases hrest
        have hx := hls line List.mem_cons_self
        rw [goesOn, Bool.and_eq_true, decide_eq_true_eq] at hx
        dsimp only
        rw [if_neg (not_not.2 hx.1), if_pos hx.2]
        refine pwp_mono ?_ (ih (got ++ [line.drop 4]) xs (fun y hy => hls y (List.mem_cons_of_mem _ hy)) (put_unread _ _ _))
        intro _ w' h
        exact ⟨(elsewhere_put _ _ _).trans h.1, h.2⟩

theorem netretrProxy_reads (n : Nat) (cfg : HostConfig) (cookie : Str) (conn : Conn) {w : Wire}
    (hw : w.unread conn.server = []) :
    pwp cfg (netretrProxy n cfg cookie conn) (fun _ w' => ReadsAll conn.server w w') w := by
  unfold netretrProxy
  refine pwp_writef hw ⟨Elsewhere.refl _ w, hw⟩ ?_
  intro w₁ hother _ hwhole hfits
  obtain ⟨hretr, htgt⟩ := retr_cookies cookie
  rw [WholeReply, hretr, if_pos rfl, htgt, if_neg (by decide)] at hwhole
  obtain ⟨ls, l, hreply, hls, hl⟩ := hwhole
  have hpath := hfits cookie rfl
  rw [if_neg (by decide)]
  dsimp only
  rw [if_neg (Nat.not_le.2 hpath)]
  refine pwp_call (fun _ _ h => by cases h) fun tv w₂ hs htv => ?_
  obtain rfl : w₂ = w₁ := hs
  cases tv with
  | none => cases htv
  | some tv =>
    rw [if_neg (by simp)]
    refine pwp_call (fun _ _ h => by cases h) fun ok w₃ hs hok => ?_
    obtain rfl : w₃ = w₂ := hs
    obtain rfl : ok = true := hok
    rw [if_neg (by decide)]
    rw [pwp_bind]
    refine pwp_mono ?_ (proxyLines_reads cfg conn.server n [] ls l hls hl hreply)
    rintro ⟨rc, lines⟩ w₄ ⟨helse, hend⟩
    have hdone : ReadsAll conn.server w w₄ := ⟨hother.trans helse, hend⟩
    dsimp only
    split
    · exact hdone
    refine pwp_call (fun _ _ h => by cases h) fun ok w₅ hs _ => ?_
    obtain rfl : w₅ = w₄ := hs
    exact hdone

/-- The loop takes the ticket's bytes, and no more. -/
theorem ticketBytes_reads (cfg : HostConfig) (server : Nat) (path : Str) (tail : List Piece) (n : Nat) (bytes : Str)
    {w : Wire} (hw : w.unread server = dataPieces bytes ++ tail) :
    pwp cfg (ticketBytes server path n bytes.length)
      (fun ok w' => ok = true ∧ Elsewhere server w w' ∧ w'.unread server = tail) w := by
  induction n generalizing bytes w with
  | zero =>
    cases bytes with
    | nil => exact ⟨rfl, Elsewhere.refl _ w, hw⟩
    | cons b bs => trivial
  | succ n ih =>
    cases bytes with
    | nil => exact ⟨rfl, Elsewhere.refl _ w, hw⟩
    | cons b bs =>
      rw [List.length_cons, ticketBytes]
      case x_2 => exact fun h => Nat.succ_ne_zero _ h
      refine pwp_call (fun _ _ h => by cases h) fun r w₁ hread hgot => ?_
      obtain ⟨d, rfl, hd⟩ := hgot
      have hread : if d = [] then w₁ = w else _ ∧ ∃ more rest, _ ∧ w₁ = _ := hread
      rw [if_neg hd] at hread
      obtain ⟨-, more, rest, hpiece, rfl⟩ := hread
      rw [hw, dataPieces, if_neg (List.cons_ne_nil _ _)] at hpiece
      obtain ⟨hbytes, rfl⟩ : b :: bs = d ++ more ∧ tail = rest := by
        simpa using hpiece
      dsimp only
      rw [if_neg hd]
      refine pwp_call (fun _ _ h => by cases h) fun ok w₂ hs hok => ?_
      obtain rfl : w₂ = _ := hs
      obtain rfl : ok = true := hok
      rw [if_neg (by decide)]
      -- what was read comes off the size and off the ticket alike
      have hleft : bs.length + 1 - d.length = more.length := by
        have := congrArg List.length hbytes
        rw [List.length_cons, List.length_append] at this
        omega
      rw [hleft]
      refine pwp_mono ?_ (ih more (put_unread _ _ _))
      rintro ok w' ⟨hok, helse, htail⟩
      exact ⟨hok, (elsewhere_put _ _ _).trans helse, htail⟩

theorem netretrTicket_reads (n : Nat) (cfg : HostConfig) (cookie : Str) (conn : Conn) (si : Sinfo) {w : Wire}
    (hw : w.unread conn.server = []) :
    pwp cfg (netretrTicket n cfg cookie conn si) (fun _ w' => ReadsAll conn.server w w') w := by
  unfold netretrTicket
  refine pwp_writef hw ⟨Elsewhere.refl _ w, hw⟩ ?_
  intro w₁ hother hsent hwhole _
  obtain ⟨hretr, htgt⟩ := retr_tgt cookie
  rw [WholeReply, hretr, if_pos rfl, htgt, if_pos rfl] at hwhole
  rw [if_neg (by decide)]
  refine pwp_call (fun _ _ h => by cases h) fun r w₂ hread hgot => ?_
  cases r with
  | none =>
    have hsome : (none : Option Str).isSome := hgot (by rw [hsent]; exact hretr)
    cases hsome
  | some line =>
    obtain ⟨ls, rest, hparse, rfl⟩ : ∃ ls rest, _ ∧ w₂ = _ := hread
    have hrest := hwhole ls line rest hparse
    have helse := hother.trans (elsewhere_put w₁ conn.server rest)
    have hrefused : line.head? ≠ some '2' → ReadsAll conn.server w (w₁.put conn.server rest) := by
      intro hne
      rw [if_neg hne] at hrest
      subst hrest
      exact ⟨helse, put_unread _ _ _⟩
    dsimp only
    -- only after a 2xx is there more to read
    split
    · rename_i htwo
      rw [if_pos htwo] at hrest
      obtain ⟨size, bytes, rfl, hsize⟩ := hrest
      refine pwp_call (fun _ _ h => by cases h) fun rand w₃ hs hrand => ?_
      obtain rfl : w₃ = _ := hs
      obtain ⟨name, hname, hfits⟩ := hrand
      rw [hname]
      dsimp only
      rw [if_neg (Nat.not_le.2 hfits)]
      refine pwp_call (fun _ _ h => by cases h) fun r w₄ hread hgot => ?_
      cases r with
      | none => cases hgot
      | some line' =>
        obtain ⟨rest, hrest, rfl⟩ : ∃ rest, _ ∧ w₄ = _ := hread
        rw [put_unread] at hrest
        cases hrest
        refine pwp_call (fun _ _ h => by cases h) fun ok w₅ hs hok => ?_
        obtain rfl : w₅ = _ := hs
        obtain rfl : ok = true := hok
        rw [if_neg (by decide), ← hsize, pwp_bind]
        refine pwp_mono ?_ (ticketBytes_reads cfg conn.server _ [.line ['.']] n bytes (put_unread _ _ _))
        rintro ok w₆ ⟨rfl, helse', htail⟩
        rw [if_neg (by decide)]
        refine pwp_call (fun _ _ h => by cases h) fun ok w₇ hs hok => ?_
        obtain rfl : w₇ = _ := hs
        obtain rfl : ok = true := hok
        rw [if_neg (by decide)]
        refine pwp_call (fun _ _ h => by cases h) fun r w₈ hread hgot => ?_
        cases r with
        | none => cases hgot
        | some dot =>
          obtain ⟨rest, hrest, rfl⟩ : ∃ rest, _ ∧ w₈ = _ := hread
          rw [htail] at hrest
          cases hrest
          exact ⟨((helse.trans (elsewhere_put _ _ _)).trans helse').trans (elsewhere_put _ _ _), put_unread _ _ _⟩
    · rename_i hfour
      exact hrefused (by rw [hfour]; decide)
    · rename_i hfive
      exact hrefused (by rw [hfive]; decide)
    · rename_i hne _ _
      exact hrefused hne

/-! ## `cosign_check_cookie` -/

theorem checkDone_reads (n : Nat) (cfg : HostConfig) (cookie : Str) (first : Bool) (rc : Rc) (si : Sinfo) (rekey : Rekey)
    (conn : Conn) (others : List Conn) {w : Wire} (hw : w.unread conn.server = []) :
    pwp cfg (checkDone n cfg cookie first rc si rekey conn others)
      (fun c w' => c.cl = conn :: others ∧ ReadsAll conn.server w w') w := by
  unfold checkDone
  dsimp only
  have hrefl : ReadsAll conn.server w w := ⟨Elsewhere.refl _ w, hw⟩
  have hticket : ∀ w₁, ReadsAll conn.server w w₁ → pwp cfg ((if (first && cfg.krbtkt) = true then do
      let r ← netretrTicket n cfg ((rekey.bind id).getD cookie) conn si
      return ⟨.ok, r.2, rekey, conn :: others⟩
      else return ⟨.ok, si, rekey, conn :: others⟩) : FProg Checked)
      (fun c w' => c.cl = conn :: others ∧ ReadsAll conn.server w w') w₁ := by
    intro w₁ h₁
    split
    · rw [pwp_bind]
      refine pwp_mono ?_ (netretrTicket_reads n cfg _ conn si h₁.2)
      rintro ⟨_, si'⟩ w₂ h₂
      exact ⟨rfl, h₁.1.trans h₂.1, h₂.2⟩
    · exact ⟨rfl, h₁⟩
  split
  · exact ⟨rfl, hrefl⟩
  split
  · rw [pwp_bind]
    refine pwp_mono ?_ (netretrProxy_reads n cfg _ conn hw)
    intro _ w₁ h₁
    exact hticket w₁ h₁
  · exact hticket w hrefl

theorem InStep.perm {cl cl' : List Conn} {w : Wire} (h : InStep cl w) (hp : cl.Perm cl') : InStep cl' w :=
  ⟨(hp.map _).nodup_iff.1 h.1, fun conn hc => h.2 conn (hp.mem_iff.2 hc)⟩

/-- An exchange over one connection leaves the others in step. -/
theorem InStep.exchange {others before rest : List Conn} {conn conn' : Conn} {w w' : Wire}
    (h : InStep (others ++ (before ++ conn :: rest)) w) (hserver : conn'.server = conn.server)
    (helse : Elsewhere conn.server w w') (hopen : conn'.isOpen = true → w'.unread conn.server = []) :
    InStep (others ++ (before ++ conn' :: rest)) w' := by
  have hmiddle : ∀ d : Conn, (others ++ (before ++ d :: rest)).Perm (d :: (others ++ (before ++ rest))) := fun d =>
    (List.perm_middle.append_left others).trans List.perm_middle
  have h' := h.perm (hmiddle conn)
  refine InStep.perm ?_ (hmiddle conn').symm
  obtain ⟨hnodup, hread⟩ := h'
  refine ⟨by simpa only [List.map_cons, hserver] using hnodup, fun d hd hdopen => ?_⟩
  rcases List.mem_cons.1 hd with rfl | hd
  · rw [hserver]
    exact hopen hdopen
  · have hne : d.server ≠ conn.server := fun he =>
      (List.nodup_cons.1 hnodup).1 (List.mem_map.2 ⟨d, hd, he⟩)
    rw [helse _ hne]
    exact hread d (List.mem_cons_of_mem _ hd) hdopen

/-- One pass over the connections, if what comes after it starts in step. -/
theorem checkPass_reads {n : Nat} {cfg : HostConfig} {cookie : Str} {first fresh : Bool}
    {k : Bool → Sinfo → Rekey → List Conn → FProg Checked} {Q : Checked → Wire → Prop}
    (others : List Conn) (hQ : ∀ c w, InStep (others ++ c.cl) w → Q c w)
    (hk : ∀ retry si rekey cl w, InStep (others ++ cl) w → pwp cfg (k retry si rekey cl) Q w) (cl before : List Conn)
    (retry : Bool) (si : Sinfo) (rekey : Rekey) {w : Wire} (hw : InStep (others ++ (before ++ cl)) w) :
    pwp cfg (checkPass n cfg cookie first fresh k cl before retry si rekey) Q w := by
  induction cl generalizing before retry si rekey w with
  | nil => exact hk retry si rekey before w (by rwa [List.append_nil] at hw)
  | cons conn rest ih =>
    have hnext : ∀ conn' retry si rekey w₁, InStep (others ++ (before ++ conn' :: rest)) w₁ →
        pwp cfg (checkPass n cfg cookie first fresh k rest (before ++ [conn']) retry si rekey) Q w₁ :=
      fun conn' retry si rekey w₁ h => ih (before ++ [conn']) retry si rekey (by rwa [List.append_assoc])
    by_cases hpass : conn.isOpen = fresh
    · rw [checkPass, if_pos hpass]
      exact hnext conn retry si rekey w hw
    rw [checkPass_take _ _ _ _ hpass]
    -- the connection is open, or it is opened
    have hask : ∀ conn' w₁, InStep (others ++ (before ++ conn' :: rest)) w₁ →
        pwp cfg (passTurn n cfg cookie first fresh k rest before retry si rekey conn') Q w₁ := by
      intro conn' w₁ h₁
      unfold passTurn
      split
      · exact hnext conn' retry si rekey w₁ h₁
      rename_i hopen
      have hread := h₁.2 conn' (List.mem_append_right _ (List.mem_append_right _ List.mem_cons_self)) (Bool.not_eq_false _ ▸ hopen)
      rw [pwp_bind]
      refine pwp_mono ?_ (netcheckCookie_reads cfg cookie rekey conn' si hread)
      rintro ⟨rc, si', rekey'⟩ w₂ ⟨helse, hend⟩
      have hdone : ∀ rc', w₂.unread conn'.server = [] →
          pwp cfg (checkDone n cfg cookie first rc' si' rekey' conn' (before ++ rest)) Q w₂ := by
        intro rc' h₂
        refine pwp_mono ?_ (checkDone_reads n cfg cookie first rc' si' rekey' conn' (before ++ rest) h₂)
        rintro c w₃ ⟨hcl, helse₃, hend₃⟩
        refine hQ c w₃ ?_
        rw [hcl]
        exact (h₁.exchange rfl (helse.trans helse₃) fun _ => hend₃).perm (List.perm_middle.append_left _)
      -- after an error part of the reply may be left, but the connection is closed
      cases rc with
      | error =>
        refine pwp_call (fun _ _ h => by cases h) fun _ w₃ hs _ => ?_
        obtain rfl : w₃ = w₂.put conn'.server [] := hs
        exact hnext _ retry si' rekey' _
          (h₁.exchange rfl (helse.trans (elsewhere_put _ _ _)) fun h => by cases h)
      | retry => exact hnext conn' true si' rekey' w₂ (h₁.exchange rfl helse fun _ => hend fun h => by cases h)
      | loggedOut => exact hdone .loggedOut (hend fun h => by cases h)
      | ok => exact hdone .ok (hend fun h => by cases h)
    by_cases hfresh : fresh = true
    · subst hfresh
      rw [if_pos rfl, pwp_bind]
      refine pwp_call (fun _ _ h => by cases h) fun r w₁ hs _ => ?_
      cases r with
      | none =>
        obtain rfl : w₁ = w := hs
        exact hask conn w₁ hw
      | some r =>
        obtain rfl : w₁ = w.put conn.server [] := hs
        exact hask { conn with isOpen := true, capaRekey := r.1, proto := r.2 } _
          (hw.exchange rfl (elsewhere_put _ _ _) fun _ => put_unread _ _ _)
    · rw [if_neg hfresh]
      exact hask conn w hw

theorem checkCookie_reads (n : Nat) (cfg : HostConfig) (cookie : Str) (rekey : Rekey) (si : Sinfo) (first : Bool)
    (others : List Conn) {cl : List Conn} {w : Wire} (hw : InStep (others ++ cl) w) :
    pwp cfg (checkCookie n cfg cookie rekey si first cl) (fun c w' => InStep (others ++ c.cl) w') w := by
  refine checkPass_reads others (fun _ _ h => h) (fun retry si rekey cl w h => ?_) cl [] false si rekey hw
  refine checkPass_reads others (fun _ _ h => h) ?_ cl [] retry si rekey h
  intro retry si rekey cl w h
  exact h

/-- The list of the call put last. -/
theorem perm_list (cls₁ cls₂ : List (List Conn)) (cl : List Conn) :
    (cls₁ ++ cl :: cls₂).flatten.Perm ((cls₁ ++ cls₂).flatten ++ cl) := by
  rw [List.flatten_append, List.flatten_cons, List.flatten_append, List.append_assoc]
  exact List.perm_append_comm.append_left _

/-- The run lemma. -/
theorem conversation_reads {cls cls' : List (List Conn)} {w w' : Wire} {tr : List (HostConfig × WireEvent)}
    (h : Conversation cls w tr cls' w') (hmeets : ∀ x ∈ tr, Meets x.1 x.2) (hw : InStep cls.flatten w) :
    (∀ x ∈ tr, Paired x.2) ∧ InStep cls'.flatten w' := by
  induction h with
  | nil => exact ⟨fun e he => absurd he List.not_mem_nil, hw⟩
  | call h hcall ih =>
    obtain ⟨hpaired, hstep⟩ := ih (fun x hx => hmeets x (List.mem_append_left _ hx)) hw
    have hstep' := hstep.perm (perm_list ..)
    obtain ⟨hpaired', hend⟩ := Prog.wp_sound (checkCookie_reads _ _ _ _ _ _ _ hstep') hcall
      fun e he => hmeets _ (List.mem_append_right _ (List.mem_map_of_mem he))
    refine ⟨fun x hx => ?_, (hend _ rfl).perm (perm_list ..).symm⟩
    rcases List.mem_append.1 hx with hx | hx
    · exact hpaired x hx
    · obtain ⟨e, he, rfl⟩ := List.mem_map.1 hx
      exact hpaired' e he

/-- As long as nothing fails here after a retrieval is written, every command of
the filter is answered by its own reply, and no call leaves one half read on an
open connection. -/
theorem replies_paired {cls cls' : List (List Conn)} {w w' : Wire} {tr : List (HostConfig × WireEvent)}
    (hservers : (cls.flatten.map (·.server)).Nodup) (hclosed : ∀ conn ∈ cls.flatten, conn.isOpen = false)
    (h : Conversation cls w tr cls' w') (hmeets : ∀ x ∈ tr, Meets x.1 x.2) :
    (∀ x ∈ tr, Paired x.2) ∧ ∀ conn ∈ cls'.flatten, conn.isOpen = true → w'.unread conn.server = [] := by
  have hw : InStep cls.flatten w := ⟨hservers, fun conn hc ho => by rw [hclosed conn hc] at ho; cases ho⟩
  obtain ⟨hpaired, hend⟩ := conversation_reads h hmeets hw
  exact ⟨hpaired, hend.2⟩

/-! ## One service -/

theorem linesReply_one {l : Str} (hl : continues l = false) : LinesReply [.line l] := by
  rintro ls l' rest ⟨hps, hgo, -⟩
  cases ls with
  | nil => cases hps; rfl
  | cons x xs =>
    obtain ⟨hx, -⟩ := List.cons.inj hps
    cases hx
    rw [hgo l List.mem_cons_self] at hl
    cases hl

/-- A service that fetches proxy cookies, of one server. -/
def portalFilter : HostConfig := { wikiFilter with proxy := true }

def portalServers : List Conn := [⟨0, false, false, 0⟩]

def portalCookie : Str := "cosign-portal=xyz".toList

/-- What the server sends after a command. -/
def annReplies (line : Str) : List Piece :=
  if isRetr line then [.line "241-cosign-mail=abc mail".toList, .line "241 Cookies registered and sent".toList]
  else [.line "231 10.0.0.1 ann umich".toList]

/-- One server, and a directory of proxy cookies that can be written or not. -/
def portal (writable : Bool) : (o : FilterOp) → Wire → FilterAns o × Wire
  | .connect server, w => (some (false, 0), w.put server [])
  | .close server, w => (true, w.put server [])
  | .writef server line, w =>
    (true, ⟨Function.update w.unread server (w.unread server ++ annReplies line), Function.update w.sent server line⟩)
  | .getline server, w =>
    match w.unread server with
    | .line l :: rest => (some l, w.put server rest)
    | _ => (none, w)
  | .getlineMulti conn, w =>
    match w.unread conn.server with
    | .line l :: rest => if continues l then (none, w.put conn.server rest) else (some l, w.put conn.server rest)
    | ps => (none, w.put conn.server ps)
  | .gettimeofday, w => (some 100, w)
  | .mktmp _, w => (writable, w)
  | .access _, w | .rename .., w | .link .., w | .linkProxy .., w | .openTkt _, w | .writeTkt .., w | .closeTkt _, w =>
    (true, w)
  | .read _, w => (.missing, w)
  | .utime _, w | .unlinkTkt _, w => ((), w)
  | .snetRead .., w => (none, w)
  | .random, w => (none, w)

theorem portal_wire (writable : Bool) (o : FilterOp) (w : Wire) :
    wireStep o w (portal writable o w).1 (portal writable o w).2 := by
  cases o with
  | writef server line => exact ⟨_, rfl⟩
  | getline server =>
    simp only [portal]
    split
    · rename_i l rest h; exact ⟨rest, h, rfl⟩
    · rfl
  | getlineMulti conn =>
    simp only [portal]
    split
    · rename_i l rest h
      split
      · exact ⟨rest, rfl⟩
      · rename_i hc
        exact ⟨[], rest, ⟨h, fun x hx => absurd hx List.not_mem_nil, Bool.not_eq_true _ ▸ hc⟩, rfl⟩
    · exact ⟨_, rfl⟩
  | _ => rfl

def noWire : Wire := ⟨fun _ => [], fun _ => []⟩

/-- The directory cannot be written: the connection is kept, and the proxy cookies
are what the next `CHECK` reads. -/
theorem proxies_unread : ¬ ∀ (cls cls' : List (List Conn)) (w w' : Wire) (tr : List (HostConfig × WireEvent)),
    (cls.flatten.map (·.server)).Nodup → (∀ conn ∈ cls.flatten, conn.isOpen = false) → Conversation cls w tr cls' w' →
    ∀ conn ∈ cls'.flatten, conn.isOpen = true → w'.unread conn.server = [] := by
  intro h
  have hrun : ∃ c w', Prog.run (portal false) (checkCookie 9 portalFilter portalCookie none .zero true portalServers)
      noWire = some (c, w') ∧ c.cl = [⟨0, true, false, 0⟩] ∧ w'.unread 0 ≠ [] :=
    ⟨_, _, rfl, rfl, by decide⟩
  obtain ⟨c, w', hrun, hcl, hunread⟩ := hrun
  obtain ⟨tr, hgoes⟩ := Prog.goes_of_run wireStep (portal_wire false) hrun
  refine hunread ?_
  have hnil : Conversation [portalServers] noWire [] ([] ++ portalServers :: []) noWire := .nil _ _
  have hcall : Conversation [portalServers] noWire ([] ++ tr.map (Prod.mk portalFilter)) ([] ++ c.cl :: []) w' :=
    .call hnil hgoes
  exact h [portalServers] [c.cl] noWire w' _ (by decide) (by decide) hcall ⟨0, true, false, 0⟩ (by rw [hcl]; decide) rfl

/-- With a directory that can be written the next answer is the next command's: a
request for the wiki over the connection of one for the portal. -/
theorem portal_paired : ∃ tr w', Conversation [portalServers] noWire tr [[⟨0, true, false, 0⟩]] w' ∧
    (∃ x ∈ tr, x.1.proxy = true) ∧ (∃ x ∈ tr, x.1.proxy = false) ∧ (∀ x ∈ tr, Paired x.2) ∧ w'.unread 0 = [] := by
  have hcheck : ∀ {ps : List Piece} {cmd : Str}, [Piece.line "231 10.0.0.1 ann umich".toList] = [] ++ ps →
      isRetr cmd = false → WholeReply cmd ps := by
    intro ps cmd hps hcmd
    obtain rfl : ps = [.line "231 10.0.0.1 ann umich".toList] := hps.symm
    rw [WholeReply, hcmd, if_neg (by decide)]
    exact linesReply_one rfl
  have hcookies : CookiesReply
      [.line "241-cosign-mail=abc mail".toList, .line "241 Cookies registered and sent".toList] :=
    ⟨["241-cosign-mail=abc mail".toList], _, rfl, by decide, by decide⟩
  obtain ⟨tr, c, w, tr₂, c₂, w₂, hgoes, hgoes₂, hcl, hcl₂, hmeets, hmeets₂, hsome, hsome₂⟩ : ∃ tr c w tr₂ c₂ w₂,
      Prog.Goes wireStep (checkCookie 9 portalFilter portalCookie none .zero true portalServers) noWire tr (some c) w ∧
        Prog.Goes wireStep (checkCookie 9 wikiFilter "cosign-wiki=xyz".toList none .zero true c.cl) w tr₂ (some c₂) w₂ ∧
          c.cl = [⟨0, true, false, 0⟩] ∧ c₂.cl = [⟨0, true, false, 0⟩] ∧ (∀ e ∈ tr, Meets portalFilter e) ∧
            (∀ e ∈ tr₂, Meets wikiFilter e) ∧ (∃ e, e ∈ tr) ∧ ∃ e, e ∈ tr₂ := by
    have hw := portal_wire true
    refine ⟨_, _, _, _, _, _, .ask (hw _ _) (.ask (hw _ _) (.ask (hw _ _) (.ask (hw _ _) (.ask (hw _ _) (.ask (hw _ _)
      (.ask (hw _ _) (.ask (hw _ _) (.ask (hw _ _) (.ret _ _))))))))), .ask (hw _ _) (.ask (hw _ _) (.ret _ _)), rfl, rfl, ?_, ?_,
      ⟨_, List.mem_cons_self⟩, ⟨_, List.mem_cons_self⟩⟩
    · simp only [List.forall_mem_cons]
      refine ⟨trivial, fun _ => ⟨fun ps hps => hcheck hps rfl, fun cookie h => ?_⟩, fun _ => rfl,
        fun _ => ⟨fun ps hps => ?_, fun cookie h => ?_⟩, rfl, rfl, rfl, rfl, trivial, fun e he => absurd he List.not_mem_nil⟩
      · cases congrArg List.head? h
      · obtain rfl : ps = [.line "241-cosign-mail=abc mail".toList, .line "241 Cookies registered and sent".toList] := hps.symm
        exact hcookies
      · have hcookie : portalCookie = cookie := List.append_cancel_left (List.append_cancel_right h)
        subst hcookie
        decide
    · simp only [List.forall_mem_cons]
      refine ⟨fun _ => ⟨fun ps hps => hcheck hps rfl, fun cookie h => ?_⟩, fun _ => rfl, fun e he => absurd he List.not_mem_nil⟩
      cases congrArg List.head? h
  have hnil : Conversation [portalServers] noWire [] ([] ++ portalServers :: []) noWire := .nil _ _
  have hone : Conversation [portalServers] noWire ([] ++ tr.map (Prod.mk portalFilter)) ([] ++ c.cl :: []) w := .call hnil hgoes
  have hrun : Conversation [portalServers] noWire (([] ++ tr.map (Prod.mk portalFilter)) ++ tr₂.map (Prod.mk wikiFilter))
      ([] ++ c₂.cl :: []) w₂ := .call hone hgoes₂
  rw [hcl₂] at hrun
  obtain ⟨e, he⟩ := hsome
  obtain ⟨e₂, he₂⟩ := hsome₂
  obtain ⟨hpaired, hread⟩ := replies_paired (by decide) (by decide) hrun fun x hx => by
    rcases List.mem_append.1 hx with hx | hx
    · obtain ⟨e, he, rfl⟩ := List.mem_map.1 hx
      exact hmeets e he
    · obtain ⟨e, he, rfl⟩ := List.mem_map.1 hx
      exact hmeets₂ e he
  refine ⟨_, w₂, hrun, ⟨(portalFilter, e), ?_, rfl⟩, ⟨(wikiFilter, e₂), ?_, rfl⟩, hpaired,
    hread ⟨0, true, false, 0⟩ (by decide) rfl⟩
  · exact List.mem_append_left _ (List.mem_map_of_mem he)
  · exact List.mem_append_right _ (List.mem_map_of_mem he₂)

end Cosign.Filter
