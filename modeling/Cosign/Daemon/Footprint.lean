import Cosign.Daemon.Effects
/-!
# Which operations a command may make

Every command other than `LOGIN` only reads, sets times and marks, makes
service cookies, and renames service cookies. A sweep only reads and unlinks.
What such operations keep, the commands keep.
-/

namespace Cosign

open Lib Prog

/-- An operation of a command other than `LOGIN`. -/
inductive OtherOp (cfg : Config) : FsOp → Prop where
  | read (p : Str) : OtherOp cfg (.read p)
  | utime (p : Str) (t : Nat) : OtherOp cfg (.utime p t)
  | chmod (p : Str) : OtherOp cfg (.chmod p)
  | link {service p : Str} (login : Str) (now : Nat) : mkcookiepath none cfg.hashlen service maxPathLen = some p →
      OtherOp cfg (.link p (fieldLine 'l' login) now)
  | move {service rcookie p q : Str} : hasPrefix "cosign-".toList service → hasPrefix "cosign-".toList rcookie →
      mkcookiepath none cfg.hashlen service maxPathLen = some p →
      mkcookiepath none cfg.hashlen rcookie maxPathLen = some q → OtherOp cfg (.move p q)

/-! ## The parts -/

theorem asks_failing {C : FsOp → Prop} {α : Type} {fails : Bool} {err : α} {p : Handler α} (hp : Asks C p) :
    Asks C (failing fails err p) := by
  unfold failing
  split
  · trivial
  · exact hp

section
variable (cfg : Config) (ses : Session) (env : Env)

theorem asks_openCookie (path : Str) : Asks (OtherOp cfg) (openCookie env path) := by
  refine asks_failing (asks_bind ((asks_call _ _).2 (.read path)) fun f => ?_)
  cases f with
  | none => trivial
  | some f => exact asks_orUndef _ _

theorem asks_openService (path : Str) : Asks (OtherOp cfg) (openService env path) := by
  refine asks_failing (asks_bind ((asks_call _ _).2 (.read path)) fun f => ?_)
  cases f <;> trivial

theorem asks_doLogout (fails : Bool) (now : Nat) (path : Str) : Asks (OtherOp cfg) (doLogout fails now path) := by
  unfold doLogout
  refine asks_ite trivial (asks_bind ((asks_call _ _).2 (.chmod path)) fun ok => asks_ite trivial ?_)
  exact asks_bind ((asks_call _ _).2 (.utime path now)) fun _ => trivial

theorem asks_idleOut (ci : Cinfo) (path : Str) (grey idle : Reply) :
    Asks (OtherOp cfg) (idleOut cfg env ci path grey idle) := by
  unfold idleOut
  exact asks_ite trivial (asks_bind (asks_doLogout cfg _ _ _) fun _ => trivial)

theorem asks_doRegister {i : Nat} {login loginP service scookieP : Str}
    (h : mkcookiepath none cfg.hashlen service maxPathLen = some scookieP) :
    Asks (OtherOp cfg) (doRegister env i login loginP scookieP) := by
  unfold doRegister
  refine asks_ite trivial (asks_bind (asks_failing ((asks_call _ _).2 (.link login env.now h))) fun r => ?_)
  cases r with
  | ok => exact asks_ite trivial (asks_bind ((asks_call _ _).2 (.utime loginP env.now)) fun _ => trivial)
  | eexist => trivial
  | failed => trivial

/-! ## The handlers -/

theorem asks_fLogout (av : List Str) : Asks (OtherOp cfg) (fLogout cfg ses env av) := by
  unfold fLogout
  refine asks_ite trivial ?_
  split
  · split
    · trivial
    · refine asks_bind (asks_openCookie cfg env _) fun x => asks_ite trivial (asks_ite trivial ?_)
      exact asks_bind (asks_doLogout cfg _ _ _) fun _ => asks_ite trivial trivial
  · trivial

theorem asks_fRegister (av : List Str) : Asks (OtherOp cfg) (fRegister cfg ses env av) := by
  unfold fRegister
  refine asks_ite trivial ?_
  split
  · split
    · trivial
    · split
      · trivial
      · rename_i hspath
        refine asks_bind (asks_openCookie cfg env _) fun x => ?_
        refine asks_ite trivial (asks_ite trivial (asks_ite trivial (asks_ite (asks_idleOut cfg env _ _ _ _) ?_)))
        exact asks_bind (asks_doRegister cfg env hspath) fun _ => asks_ite trivial (asks_ite trivial trivial)
  · trivial

/-- A rekeyed name begins as the old one does, up to its `=`. -/
theorem rekeyCookie_spec {cookie rcookie path : Str} (hc : hasPrefix "cosign-".toList cookie)
    (h : rekeyCookie cfg env cookie = .ok (rcookie, path)) :
    hasPrefix "cosign-".toList rcookie ∧ mkcookiepath none cfg.hashlen rcookie maxPathLen = some path := by
  unfold rekeyCookie at h
  split at h
  · cases h
  split at h
  · cases h
  dsimp only at h
  split at h
  · cases h
  split at h
  · cases h
  · rename_i hpath
    cases h
    refine ⟨?_, hpath⟩
    obtain ⟨rest, rfl⟩ := List.isPrefixOf_iff_prefix.1 hc
    refine List.isPrefixOf_iff_prefix.2 ?_
    simp

theorem asks_checkLogin {cmd cookie path : Str} {status : Nat} {scpath : Option Str}
    (hs : ∀ p, scpath = some p → hasPrefix "cosign-".toList cookie ∧
      mkcookiepath none cfg.hashlen cookie maxPathLen = some p) :
    Asks (OtherOp cfg) (checkLogin cfg ses env cmd cookie path status scpath) := by
  unfold checkLogin
  refine asks_bind (asks_openCookie cfg env _) fun x => ?_
  refine asks_ite trivial (asks_ite trivial (asks_ite trivial (asks_ite (asks_idleOut cfg env _ _ _ _) ?_)))
  refine asks_bind ((asks_call _ _).2 (.utime path env.now)) fun _ => ?_
  split
  · trivial
  · rename_i p
    obtain ⟨hc, hp⟩ := hs p rfl
    split
    · trivial
    · rename_i rcookie npath hr
      obtain ⟨hr1, hr2⟩ := rekeyCookie_spec cfg env hc hr
      refine asks_bind (asks_failing ((asks_call _ _).2 (.move hc hr1 hp hr2))) fun _ => ?_
      exact asks_ite trivial trivial

theorem asks_fCheck (av : List Str) : Asks (OtherOp cfg) (fCheck cfg ses env av) := by
  unfold fCheck
  split
  · trivial
  refine asks_ite trivial ?_
  split
  · trivial
  split
  · trivial
  rename_i path hpath
  split
  · rename_i hc
    refine asks_bind ?_ fun valid => asks_ite trivial (asks_bind (asks_openService cfg env path) fun login => ?_)
    · unfold strictCheck
      exact asks_ite (asks_orUndef _ _) trivial
    · split
      · trivial
      · split
        · trivial
        · dsimp only
          split
          · exact asks_checkLogin cfg ses env (by rintro p ⟨⟩; exact ⟨hc, hpath⟩)
          · exact asks_checkLogin cfg ses env (by simp)
  · split
    · exact asks_checkLogin cfg ses env (by simp)
    · trivial

theorem asks_retrProxies (login : Str) (proxies : List Proxies) (i : Nat) (d : Done) :
    Asks (OtherOp cfg) (retrProxies cfg ses env login i proxies d) := by
  induction proxies generalizing i d with
  | nil => trivial
  | cons proxy rest ih =>
    unfold retrProxies
    split
    · trivial
    · dsimp only
      split
      · trivial
      · split
        · trivial
        · rename_i hspath
          split
          · trivial
          · exact asks_bind (asks_doRegister cfg env hspath) fun rc => asks_ite (ih _ _) (ih _ _)

theorem asks_retrTicket (sl : ServiceList) (krbpath : Str) : Asks (OtherOp cfg) (retrTicket env sl krbpath) := by
  unfold retrTicket
  refine asks_ite trivial (asks_ite trivial (asks_bind ((asks_call _ _).2 (.read krbpath)) fun f => ?_))
  split
  · trivial
  · exact asks_ite trivial (asks_ite trivial trivial)

theorem asks_fRetr (av : List Str) : Asks (OtherOp cfg) (fRetr cfg ses env av) := by
  unfold fRetr
  refine asks_ite trivial ?_
  split
  · refine asks_bind (asks_orUndef _ _) fun sl => ?_
    split
    · trivial
    split
    · trivial
    refine asks_bind (asks_openService cfg env _) fun login => ?_
    split
    · trivial
    split
    · trivial
    refine asks_bind (asks_openCookie cfg env _) fun x => ?_
    refine asks_ite trivial (asks_ite trivial (asks_ite trivial (asks_ite (asks_idleOut cfg env _ _ _ _) ?_)))
    refine asks_ite (asks_retrTicket cfg env _ _) (asks_ite ?_ trivial)
    exact asks_ite trivial (asks_retrProxies cfg ses env _ _ _ _)
  · trivial

theorem asks_timeLines (lines : List Str) (i : Nat) : Asks (OtherOp cfg) (timeLines cfg env i lines) := by
  induction lines generalizing i with
  | nil => trivial
  | cons line rest ih =>
    unfold timeLines
    split
    · trivial
    split
    · split
      · split
        · exact ih _
        · refine asks_bind ?_ fun _ => ih _
          unfold timeCookie timeUtime timeLogout
          refine asks_bind ((asks_call _ _).2 (.read _)) fun st => ?_
          split
          · trivial
          · refine asks_bind (asks_ite ((asks_call _ _).2 (.utime _ _)) trivial) fun _ => ?_
            exact asks_bind (asks_ite (asks_doLogout cfg _ _ _) trivial) fun _ => trivial
      · exact ih _
    · exact ih _

theorem asks_fTime (av : List Str) : Asks (OtherOp cfg) (fTime cfg ses env av) := by
  unfold fTime
  exact asks_ite trivial (asks_ite trivial (asks_bind (asks_timeLines cfg env _ _) fun _ => trivial))

theorem asks_fDaemon (av : List Str) : Asks (OtherOp cfg) (fDaemon cfg ses env av) := by
  unfold fDaemon
  refine asks_ite trivial ?_
  split
  · exact asks_ite trivial (asks_ite trivial trivial)
  · trivial

/-- Only `LOGIN` makes other operations. -/
theorem asks_handle (av : List Str) {c : CommandName} (hc : c ≠ .login) :
    Asks (OtherOp cfg) (handle cfg ses env av c) := by
  cases c with
  | login => exact absurd rfl hc
  | logout => exact asks_fLogout cfg ses env av
  | register => exact asks_fRegister cfg ses env av
  | check => exact asks_fCheck cfg ses env av
  | rekey => exact asks_fCheck cfg ses env av
  | retr => exact asks_fRetr cfg ses env av
  | time => exact asks_fTime cfg ses env av
  | daemon => exact asks_fDaemon cfg ses env av
  | noop => trivial
  | quit => trivial
  | help => trivial
  | starttls => trivial

end

/-! ## Sweeps -/

/-- An operation of a sweep. -/
inductive SweepOp : FsOp → Prop where
  | read (p : Str) : SweepOp (.read p)
  | unlink (p : Str) : SweepOp (.unlink p)

section
variable (cfg : Config) (now : Nat)

theorem asks_eatCookie (name : Str) : Asks SweepOp (eatCookie cfg now name) := by
  unfold eatCookie readCookie
  refine asks_bind (asks_bind ((asks_call _ _).2 (.read name)) fun f => ?_) fun x => ?_
  · split
    · trivial
    · exact asks_orUndef _ _
  · refine asks_ite trivial (asks_ite trivial (asks_ite ?_ trivial))
    refine asks_ite (asks_bind ((asks_call _ _).2 (.unlink _)) fun _ => ?_) ?_
    · exact asks_bind ((asks_call _ _).2 (.unlink _)) fun _ => trivial
    · exact asks_bind ((asks_call _ _).2 (.unlink _)) fun _ => trivial

theorem asks_doEntry (w : Sweep) (name : Str) : Asks SweepOp (doEntry cfg now w name) := by
  unfold doEntry
  split
  · trivial
  refine asks_ite (asks_bind (asks_eatCookie cfg now _) fun _ => trivial) (asks_ite ?_ trivial)
  refine asks_bind (asks_bind ((asks_call _ _).2 (.read _)) fun f => by split <;> trivial) fun login => ?_
  split
  · trivial
  split
  · trivial
  refine asks_bind (asks_eatCookie cfg now _) fun r => ?_
  split
  · trivial
  · exact asks_bind ((asks_call _ _).2 (.unlink _)) fun _ => trivial
  · trivial

theorem asks_doEntries (names : List Str) (w : Sweep) : Asks SweepOp (doEntries cfg now w names) := by
  induction names generalizing w with
  | nil => trivial
  | cons name rest ih =>
    unfold doEntries
    refine asks_bind (asks_doEntry cfg now w name) fun r => ?_
    split
    · trivial
    · exact ih _

theorem asks_doDirs (ls : Str → Option (List Str)) (dirs : List Str) (report : List (Str × Nat × Nat)) :
    Asks SweepOp (doDirs cfg now ls report dirs) := by
  induction dirs generalizing report with
  | nil => trivial
  | cons dir rest ih =>
    unfold doDirs
    split
    · trivial
    · refine asks_bind (asks_doEntries cfg now _ _) fun r => ?_
      split
      · trivial
      · exact ih _

theorem asks_sweep (ls : Str → Option (List Str)) : Asks SweepOp (sweep cfg now ls) := by
  unfold sweep
  split
  · trivial
  · exact asks_doDirs cfg now ls _ _

end

end Cosign
