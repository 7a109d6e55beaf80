import Cosign.Daemon.Starttls
/-!
# What an upgraded connection was told in the clear

`f_starttls` switches the command table and leaves the read buffer as it is.
So what the client sent in the clear behind its `STARTTLS` line is read as
commands of the upgraded connection, unless nothing of it was in the buffer
yet. The other way in is the end of the TLS stream: `snet_readread` forgets
`SNET_TLS` there, and whatever still comes is read in the clear.
-/

namespace Cosign

open Lib

abbrev ConnEvent := Prog.Event ConnOp ConnAns Conn

/-- At an upgrade the buffer holds nothing that came in the clear, beyond the
newline of the `STARTTLS` line, and nothing is read after the end of the
connection. -/
def CleanStep : ConnEvent → Prop
  | ⟨s, .accept, ok, _⟩ => ok = true → ∀ c ∈ s.sn.unread, c.2 = true
  | ⟨s, .readread, i, _⟩ => (∃ c cs, i = .data c cs) → s.eof = false
  | _ => True

/-- A handler behind the upgrade is called for a line whose every byte was
read through TLS. -/
def ThroughTls : ConnEvent → Prop
  | ⟨s, .enter _, _, _⟩ => ∀ c ∈ s.sn.line, c.2 = true
  | _ => True

abbrev connWp {α : Type} (p : Reader α) (Q : α → Conn → Prop) (s : Conn) : Prop :=
  Prog.wp Conn.Step CleanStep ThroughTls p Q s

/-- What holds of a connection under `auth_commands`. -/
def Sealed (auth : Bool) (s : Conn) : Prop :=
  auth = true → (∀ c ∈ s.sn.unread, c.2 = true) ∧ (s.eof = false → s.tls = true)

def SealedLine (auth : Bool) (s : Conn) : Prop := auth = true → ∀ c ∈ s.sn.line, c.2 = true

theorem sealed_after {auth : Bool} {s : Conn} (h : Sealed auth s) (i : Input) : Sealed auth (s.after i) := by
  intro ha
  obtain ⟨hu, ht⟩ := h ha
  cases i with
  | eof => exact ⟨hu, by simp [Conn.after]⟩
  | err => exact ⟨hu, ht⟩
  | data c cs => exact ⟨hu, ht⟩

/-! ## The reader -/

theorem snetGetline_wp (auth : Bool) (n : Nat) {s : Conn} (h : Sealed auth s) :
    connWp (snetGetline n) (fun r t => Sealed auth t ∧ (r.isSome → SealedLine auth t)) s := by
  induction n generalizing s with
  | zero => trivial
  | succ n ih =>
    simp only [connWp, snetGetline, Prog.wp_bind, Prog.wp_call]
    rintro r s₁ ⟨⟩ -
    refine ⟨trivial, ?_⟩
    have hscan : Sealed auth { s with sn := s.sn.scan.2 } := fun ha =>
      ⟨(Snet.scan_marks (h ha).1).1, (h ha).2⟩
    cases hr : s.sn.scan.1 with
    | some line =>
      refine ⟨hscan, fun _ ha => ?_⟩
      have := (Snet.scan_marks (h ha).1).2
      rwa [hr] at this
    | none =>
      simp only [Prog.wp_bind, Prog.wp_call]
      intro i s₂ hstep hC
      refine ⟨trivial, ?_⟩
      cases hstep with
      | data _ c cs hpast =>
        refine ih fun ha => ⟨fun d hd => ?_, (hscan ha).2⟩
        rcases Snet.mem_unread_fill hd with hd | hd
        · exact (hscan ha).1 d hd
        · obtain ⟨e, -, rfl⟩ := List.mem_map.1 hd
          exact (hscan ha).2 (hC ⟨c, cs, rfl⟩)
      | nodata _ i hi =>
        rcases hi with rfl | rfl
        · exact ⟨hscan, by simp⟩
        · simp only [Prog.wp_call]
          rintro r s₃ ⟨⟩ -
          have hbuf : auth = true → ∀ c ∈ s.sn.scan.2.rbuf, c.2 = true := by
            intro ha
            have := (Snet.scan_marks (h ha).1).2
            rwa [hr] at this
          refine ⟨trivial, fun ha => ⟨(Snet.cutOff_marks (hbuf ha)).1, by simp [Conn.after]⟩, fun hs ha => ?_⟩
          exact (Snet.cutOff_marks (hbuf ha)).2 hs

theorem snetRead_wp (auth : Bool) (n : Nat) {s : Conn} (h : Sealed auth s) :
    connWp (snetRead n) (fun _ t => Sealed auth t) s := by
  simp only [connWp, snetRead, Prog.wp_bind, Prog.wp_call]
  rintro r s₁ ⟨⟩ -
  refine ⟨trivial, ?_⟩
  have hdata : Sealed auth { s with sn := (s.sn.hasdata n).2 } := fun ha =>
    ⟨Snet.hasdata_marks n (h ha).1, (h ha).2⟩
  cases hr : (s.sn.hasdata n).1 with
  | some d => exact hdata
  | none =>
    have hempty := Snet.hasdata_empty hr
    simp only [Prog.wp_bind, Prog.wp_call]
    rintro i s₂ ⟨⟩ -
    refine ⟨trivial, ?_⟩
    cases i with
    | err => exact hdata
    | eof => exact sealed_after hdata .eof
    | data c cs =>
      simp only [Prog.wp_bind, Prog.wp_call]
      rintro b s₃ ⟨⟩ -
      refine ⟨trivial, ?_⟩
      -- nothing is in the buffer, so nothing becomes readable by leaving `SNET_FUZZY`
      have hun : Sealed auth { s with sn := (s.sn.hasdata n).2.unfuzz } := by
        intro ha
        refine ⟨fun d hd => ?_, (h ha).2⟩
        have := Snet.unreadIn_subset _ _ hd
        simp [Snet.unfuzz, hempty] at this
      split
      · split
        · simp only [Prog.wp_bind, Prog.wp_call]
          rintro i s₄ ⟨⟩ -
          exact ⟨trivial, sealed_after hun i⟩
        · exact hun
      · exact hun

theorem serve_wp {α : Type} (fuel : Nat) (p : Client α) {s : Conn} (h : Sealed true s) :
    connWp (p.serve fuel) (fun _ t => Sealed true t) s := by
  induction p generalizing s with
  | ret a => exact h
  | undef => trivial
  | ask o k ih =>
    simp only [connWp, Client.serve, Prog.wp_bind]
    refine Prog.wp_mono (fun r t ht => ih r ht) ?_
    cases o with
    | getline => exact Prog.wp_mono (fun _ _ ht => ht.1) (snetGetline_wp true fuel h)
    | read n => exact snetRead_wp true n h
    | writef code text =>
      simp only [clientOp, Prog.wp_call]
      rintro r t ⟨⟩ -
      exact ⟨trivial, h⟩

/-! ## The loop -/

/-- The end of a command: the loop goes on from `p` unless the result ends it. -/
def Sound (r : Ret × Proc) (s : Conn) : Prop := ∀ n, r.1 = .ret n → 0 ≤ n → Sealed r.2.auth s

theorem writef_wp {α : Type} (code : Nat) (text : Str) {p : Reader α} {Q : α → Conn → Prop} {s : Conn}
    (h : connWp p Q s) : connWp (ask (.writef code text) >>= fun _ => p) Q s := by
  simp only [connWp, Prog.wp_bind, Prog.wp_call]
  rintro r t ⟨⟩ -
  exact ⟨trivial, h⟩

theorem reply_wp {r : Ret × Proc} (code : Nat) (text : Str) {s : Conn} (h : Sealed r.2.auth s) :
    connWp (ask (.writef code text) >>= fun _ => pure r) Sound s :=
  writef_wp code text fun _ _ _ => h

section
variable (srv : Server)

/-- The upgrade seals a connection whose buffer is clean. -/
theorem starttlsBegin_wp (p : Proc) {s : Conn} (h : Sealed p.auth s) :
    connWp (starttlsBegin srv p) Sound s := by
  refine writef_wp _ _ ?_
  simp only [connWp, Prog.wp_bind, Prog.wp_call]
  rintro ok s₁ ⟨⟩ hC
  refine ⟨trivial, ?_⟩
  cases ok with
  | false =>
    refine reply_wp 501 _ fun ha => ⟨(h ha).1, ?_⟩
    simpa using (h ha).2
  | true =>
    have hs : ∀ auth, Sealed auth { s with tls := s.tls || true } := fun _ _ => ⟨hC rfl, by simp⟩
    simp only [if_true, starttlsPeer, Prog.wp_bind, Prog.wp_call]
    rintro cn s₂ ⟨⟩ -
    refine ⟨trivial, ?_⟩
    cases cn with
    | none => intro n hn h0; cases hn; omega
    | some buf =>
      dsimp only
      cases authlistFind srv.regex srv.authlist buf with
      | none => exact writef_wp 401 _ fun n hn => by cases hn
      | some al =>
        dsimp only
        split
        · exact writef_wp 220 _ fun _ _ _ => hs _
        · exact fun _ _ _ => hs _

theorem fStarttls_wp (p : Proc) (av : List Str) {s : Conn} (h : Sealed p.auth s) :
    connWp (fStarttls srv p av) Sound s := by
  unfold fStarttls
  split
  · split
    · exact starttlsBegin_wp srv _ h
    · exact reply_wp 502 _ h
  · exact starttlsBegin_wp srv p h

theorem callCommand_wp (fuel : Nat) (p : Proc) (av : List Str) (c : CommandName) {s : Conn}
    (h : Sealed p.auth s) (hline : SealedLine p.auth s) : connWp (callCommand srv fuel p av c) Sound s := by
  have hbody : connWp (do
      if p.auth then
        ask (.enter c)
        let r ← (srv.body c p av).serve fuel
        return (r, p)
      else
        ask (.writef 550 "You must call STARTTLS first!".toList)
        return (.ret 0, p) : Reader (Ret × Proc)) Sound s := by
    split
    · rename_i ha
      simp only [connWp, Prog.wp_bind, Prog.wp_call]
      rintro r t ⟨⟩ -
      refine ⟨hline ha, ?_⟩
      rw [ha] at h
      exact Prog.wp_mono (fun r t ht n _ _ => by simpa [ha] using ht) (serve_wp fuel _ h)
    · exact reply_wp 550 _ h
  cases c
  case noop => exact reply_wp 250 _ h
  case quit => exact reply_wp 221 _ h
  case help => exact reply_wp 203 _ h
  case starttls => exact fStarttls_wp srv p av h
  all_goals exact hbody

theorem commandLine_wp (fuel : Nat) (p : Proc) (line : Str) {s : Conn} (h : Sealed p.auth s)
    (hline : SealedLine p.auth s) : connWp (commandLine srv fuel p line) Sound s := by
  unfold commandLine
  split
  · exact reply_wp 501 _ h
  · split
    · exact reply_wp 500 _ h
    · exact callCommand_wp srv fuel p _ _ h hline

theorem commandLoop_wp (fuel : Nat) (p : Proc) {s : Conn} (h : Sealed p.auth s) :
    connWp (commandLoop srv fuel p) (fun _ _ => True) s := by
  induction fuel generalizing p s with
  | zero => trivial
  | succ fuel ih =>
    simp only [connWp, commandLoop, Prog.wp_bind]
    refine Prog.wp_mono (fun r t ht => ?_) (snetGetline_wp p.auth fuel h)
    cases r with
    | none => trivial
    | some line =>
      simp only [Prog.wp_bind]
      refine Prog.wp_mono (fun r t ht => ?_) (commandLine_wp srv fuel p line ht.1 (ht.2 rfl))
      obtain ⟨ret, p'⟩ := r
      cases ret with
      | exit n => trivial
      | ret n =>
        dsimp only
        split
        · trivial
        · exact ih p' (ht n rfl (by omega))

/-- On a connection that starts in the clear and keeps to `CleanStep`, no
handler behind the upgrade is called for a line that did not come through it. -/
theorem handlers_through_tls (fuel : Nat) {tr : List ConnEvent} {a : Option Unit} {t : Conn}
    (h : Prog.Goes Conn.Step (commandMain srv false fuel) .accepted tr a t) (hC : ∀ e ∈ tr, CleanStep e) :
    ∀ e ∈ tr, ThroughTls e := by
  refine (Prog.wp_sound (Q := fun _ _ => True) ?_ h hC).1
  exact writef_wp 220 _ (commandLoop_wp srv fuel _ (by intro ha; cases ha))

end

/-! ## One client -/

/-- A server that knows every host, and answers nothing behind the upgrade. -/
def openServer : Server where
  regex := ⟨fun _ _ _ => .found fun _ => (0, 0)⟩
  authlist := [Session.cgi.al]
  version := "3".toList
  body := fun _ _ _ => .ret (.ret 0)

def logoutLine : Str := "LOGOUT cosign=abc 10.0.0.1\r\n".toList

/-- One read in the clear brings the `STARTTLS` line and a `LOGOUT`. -/
theorem handler_in_the_clear : ¬ ∀ (srv : Server) (fuel : Nat) (tr : List ConnEvent) (a : Option Unit) (t : Conn),
    Prog.Goes Conn.Step (commandMain srv false fuel) .accepted tr a t → ∀ e ∈ tr, ThroughTls e := by
  intro h
  have hrun : ∃ tr a t, Prog.Goes Conn.Step (commandMain openServer false 3) .accepted tr a t ∧
      ∃ e ∈ tr, ¬ ThroughTls e :=
    ⟨_, _, _, .ask (.writef ..) <| .ask (.scan _) <| .ask (.data _ 'S' ("TARTTLS 2\r\n".toList ++ logoutLine) rfl) <|
      .ask (.scan _) <| .ask (.writef ..) <| .ask (.accept _ true) <| .ask (.certificate _ (some [])) <|
      .ask (.writef ..) <| .ask (.scan _) <| .ask (.enter _ .logout) <| .stop _ _,
      _, List.mem_of_getElem? (i := 9) rfl, by unfold ThroughTls; decide⟩
  obtain ⟨tr, a, t, hgoes, e, he, hne⟩ := hrun
  exact hne (h openServer 3 tr a t hgoes e he)

/-- The same two lines in two reads: the second comes through TLS. -/
theorem handler_behind_the_upgrade : ∃ tr a t,
    Prog.Goes Conn.Step (commandMain openServer false 5) .accepted tr a t ∧
      (∃ e ∈ tr, e.op = .enter .logout) ∧ ∀ e ∈ tr, ThroughTls e := by
  have hrun : ∃ tr a t, Prog.Goes Conn.Step (commandMain openServer false 5) .accepted tr a t ∧
      (∃ e ∈ tr, e.op = .enter .logout) ∧ ∀ e ∈ tr, CleanStep e := by
    refine ⟨_, _, _, .ask (.writef ..) <| .ask (.scan _) <| .ask (.data _ 'S' "TARTTLS 2\r\n".toList rfl) <|
      .ask (.scan _) <| .ask (.writef ..) <| .ask (.accept _ true) <| .ask (.certificate _ (some [])) <|
      .ask (.writef ..) <| .ask (.scan _) <| .ask (.data _ 'L' "OGOUT cosign=abc 10.0.0.1\r\n".toList rfl) <|
      .ask (.scan _) <| .ask (.enter _ .logout) <| .stop _ _, ⟨_, List.mem_of_getElem? (i := 11) rfl, rfl⟩, ?_⟩
    simp only [List.forall_mem_cons]
    refine ⟨trivial, trivial, fun _ => rfl, trivial, trivial, fun _ => ?_, trivial, trivial, trivial, fun _ => rfl,
      trivial, trivial, by simp⟩
    decide
  obtain ⟨tr, a, t, hgoes, henter, hclean⟩ := hrun
  exact ⟨tr, a, t, hgoes, henter, handlers_through_tls openServer 5 hgoes hclean⟩

end Cosign
