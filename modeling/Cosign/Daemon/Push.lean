import Cosign.Daemon.Tellings
import Cosign.Lib.Wp
/-!
# What a peer is told

`monster` tells each peer the time of every login cookie that was touched
since the last pass: it sends the cookies whose time is later than
`cl_last_time`, which it then sets to the second the pass began in. Here a
pass runs call by call, with the commands of `cosignd` between any two calls.
-/

namespace Cosign

open Lib

/-- One entry of the list of peers, with its connection up: `cl_last_time`,
and the time last written to it for each cookie. -/
structure Peer where
  last : Nat
  told : Str → Option Int

/-- The peer's cookies after the lines of a report that are newer than the
last pass. -/
def Peer.tell (p : Peer) (report : List (Str × Nat × Nat)) : Str → Option Int :=
  report.foldl (fun told (name, itime, _) =>
    if p.last < itime then Function.update told name (some (printed itime)) else told) p.told

/-- The modification time of a login cookie that can be read. -/
def Store.time (s : Store) (path : Str) : Option Nat :=
  match s.cookie path with
  | some (0, ci) => some ci.itime
  | _ => none

/-- A pass under way: its `now`, what `readdir` delivers, the directories and
the entries still to come, and the rest of the entry it is at. `before` and
`lost` are for the theorems: the store the pass began with, and the cookies
that could not be read at some time since. -/
structure Pass where
  start : Nat
  ls : Str → Option (List Str)
  dirs : List (List Str)
  names : List Str
  sweep : Sweep
  entry : Option (Handler (Option Sweep))
  before : Store
  lost : Str → Bool

structure World where
  store : Store
  peer : Peer
  pass : Option Pass

inductive Act where
  /-- `cosignd` runs a whole command. -/
  | command (ses : Session) (env : Env) (line : Str)
  /-- One call of a command that goes on while `monster` runs. -/
  | call (o : FsOp)
  | begin (now : Nat) (ls : Str → Option (List Str))
  /-- `monster` makes its next call, or ends the pass. -/
  | monster

def Pass.see (p : Pass) (s : Store) : Pass := { p with lost := fun path => p.lost path || (s.time path).isNone }

/-- The world with this store. -/
def World.see (w : World) (s : Store) : World := { w with store := s, pass := w.pass.map (·.see s) }

/-- The entry under way makes its next call. `none` is `exit(1)`. -/
def World.advance (w : World) (p : Pass) : Handler (Option Sweep) → Option World
  | .ask o k =>
    let (r, s) := exec o w.store
    some (World.see { w with pass := some { p with entry := some (k r) } } s)
  | .ret (some sweep) => some { w with pass := some { p with sweep, entry := none } }
  | .ret none => none
  | .undef => none

def monsterStep (cfg : Config) (w : World) (p : Pass) : Option World :=
  match p.entry with
  | some q => w.advance p q
  | none =>
    match p.names, p.dirs with
    | name :: names, _ => w.advance { p with names } (doEntry cfg p.start p.sweep name)
    | [], names :: dirs => some { w with pass := some { p with names, dirs, sweep := { report := p.sweep.report } } }
    | [], [] => some { w with peer := ⟨p.start, w.peer.tell p.sweep.report⟩, pass := none }

def worldStep (cfg : Config) (w : World) : Act → Option (Unit × World)
  | .command ses env line => (Prog.run exec (command cfg ses env line) w.store).map fun x => ((), w.see x.2)
  | .call o => some ((), w.see (exec o w.store).2)
  | .begin now ls =>
    match w.pass, (hashDirs cfg.hashlen).bind (·.mapM ls) with
    | none, some dirs =>
      some ((), { w with pass := some {
        start := now, ls, dirs, names := [], sweep := {}, entry := none
        before := w.store, lost := fun path => (w.store.time path).isNone } })
    | _, _ => none
  | .monster => w.pass.bind fun p => (monsterStep cfg w p).map fun w => ((), w)

abbrev PushRun (cfg : Config) := Trace (worldStep cfg)

/-! ## What a pass owes its peer, and what it takes -/

/-- If the step ends a pass, every login cookie that was there and could be
read all along has been told to the peer, with a time no earlier than the one
it had when the pass began. -/
def UpToDate (cfg : Config) (x : Entry World Act Unit) : Prop :=
  ∀ p, x.pre.pass = some p → x.post.pass = none → ∀ c path m, hasPrefix "cosign=".toList c →
    mkcookiepath none cfg.hashlen c maxPathLen = some path → p.before.time path = some m → p.lost path = false →
    ∃ t, x.post.peer.told c = some t ∧ (m : Int) ≤ t

/-- The pass has still to look at this name. -/
def Pass.pending (p : Pass) (c : Str) : Prop := c ∈ p.names ∨ c ∈ p.dirs.flatten

instance (p : Pass) (c : Str) : Decidable (p.pending c) := inferInstanceAs (Decidable (_ ∨ _))

/-- The next look at the cookie sends it if it is later than this. -/
def Pass.mark (p : Pass) (peer : Peer) (c : Str) : Nat := if p.pending c then peer.last else p.start

def World.mark (w : World) (c : Str) : Nat :=
  match w.pass with
  | none => w.peer.last
  | some p => p.mark w.peer c

/-- When `cosignd` gives a login cookie a time, it is one that `%d` can print, and
later than the start of the last pass that looked at it, or will not look at it
again. While a pass has still to look at it, the time does not go back. -/
def Timely (cfg : Config) (x : Entry World Act Unit) : Prop :=
  x.ev ≠ .monster → ∀ c path m', hasPrefix "cosign=".toList c →
    mkcookiepath none cfg.hashlen c maxPathLen = some path → x.post.store.time path = some m' →
    x.pre.store.time path = some m' ∨ (x.pre.mark c < m' ∧ m' < 2 ^ 31 ∧
      ∀ p, x.pre.pass = some p → p.pending c → ∀ m, x.pre.store.time path = some m → m ≤ m')

/-- Every cookie that is there all along is in a directory that the pass reads,
and `readdir` delivers it. -/
def Enumerates (cfg : Config) (x : Entry World Act Unit) : Prop :=
  ∀ p, x.pre.pass = some p → x.post.pass = none → ∀ c path, hasPrefix "cosign=".toList c →
    mkcookiepath none cfg.hashlen c maxPathLen = some path → p.lost path = false → Listed cfg p.ls c

/-! ## The lines of a report -/

def Covers (told : Option Int) (m : Nat) : Prop := ∃ t, told = some t ∧ (m : Int) ≤ t

theorem tell_append (peer : Peer) (report : List (Str × Nat × Nat)) (name c : Str) (itime state : Nat) :
    peer.tell (report ++ [(name, itime, state)]) c =
      if name = c ∧ peer.last < itime then some (printed itime) else peer.tell report c := by
  simp only [Peer.tell, List.foldl_append, List.foldl_cons, List.foldl_nil]
  by_cases hlast : peer.last < itime
  · by_cases hname : name = c
    · subst hname
      simp [hlast]
    · simp [hlast, hname, Function.update_of_ne (Ne.symm hname)]
  · simp [hlast]

/-- A report with at most one more line, for `name`. -/
theorem told_report (w : Sweep) (name : Str) (r : Eaten) :
    (w.told name r).report = w.report ∨ ∃ itime state, (w.told name r).report = w.report ++ [(name, itime, state)] := by
  cases r with
  | failed => exact .inl rfl
  | gone => exact .inr ⟨_, _, rfl⟩
  | good itime state => exact .inr ⟨_, _, rfl⟩

/-! ## One cookie -/

theorem time_none {s : Store} {path : Str} (h : s.get path = none) : s.time path = none := by
  simp [Store.time, Store.cookie, h]

theorem time_eq {s : Store} {path : Str} {f : File} (hf : s.get path = some f) :
    s.time path = match parseCookie f with | some (0, ci) => some ci.itime | _ => none := by
  simp only [Store.time, Store.cookie, hf]

/-- Nothing to send: what the peer was told covers the cookie's time, or the
next look will find it late enough. -/
def Fresh (mark : Nat) (told : Option Int) (s : Store) (path : Str) : Prop :=
  ∀ m, s.time path = some m → mark < m ∨ Covers told m

/-- The cookie's time can be printed. -/
def Printable (s : Store) (path : Str) : Prop := ∀ m, s.time path = some m → m < 2 ^ 31

/-- The store, and whether the cookie was missing at some time of the pass. -/
structure Watch where
  store : Store
  lost : Bool

def Watch.see (σ : Watch) (path : Str) (s : Store) : Watch := ⟨s, σ.lost || (s.time path).isNone⟩

/-- A timely change of the store, or a call of the pass itself. -/
def Moves (mark : Nat) (pending : Prop) (path : Str) (σ σ' : Watch) : Prop :=
  σ' = σ.see path σ'.store ∧ ∀ m', σ'.store.time path = some m' →
    σ.store.time path = some m' ∨ (mark < m' ∧ m' < 2 ^ 31 ∧ (pending → ∀ m, σ.store.time path = some m → m ≤ m'))

/-- A call of the pass, after any number of changes by others. -/
def PassCall (mark : Nat) (pending : Prop) (path : Str) (o : FsOp) (σ : Watch) (r : FsAns o) (σ' : Watch) : Prop :=
  ∃ σ₁, Relation.ReflTransGen (Moves mark pending path) σ σ₁ ∧ (exec o σ₁.store).1 = r ∧
    σ' = σ₁.see path (exec o σ₁.store).2

/-- What holds for a cookie while a pass goes on, from the time it had at the
start and the time the peer was told. Before the last look at it, its time has
only grown; after it, that look has sent what it found. -/
structure Owed (pending listed : Prop) (mark : Nat) (began : Option Nat) (told : Option Int) (path : Str) (σ : Watch) :
    Prop where
  printable : Printable σ.store path
  there : σ.lost = false → (σ.store.time path).isSome
  fresh : pending ∨ σ.lost = true ∨ listed → Fresh mark told σ.store path
  grown : pending → σ.lost = false → ∀ m₀ m, began = some m₀ → σ.store.time path = some m → m₀ ≤ m
  sent : ¬ pending → listed → σ.lost = false → ∀ m₀, began = some m₀ → Covers told m₀

section
variable {pending listed : Prop} {mark : Nat} {began : Option Nat} {told : Option Int} {path : Str} {σ σ' : Watch}

theorem see_lost {s : Store} (h : (σ.see path s).lost = false) : σ.lost = false ∧ (s.time path).isSome := by
  simp only [Watch.see, Bool.or_eq_false_iff] at h
  exact ⟨h.1, by simpa using h.2⟩

theorem Owed.moves (h : Owed pending listed mark began told path σ) (hm : Moves mark pending path σ σ') :
    Owed pending listed mark began told path σ' := by
  obtain ⟨hsee, htimely⟩ := hm
  have hlost : σ'.lost = false → σ.lost = false ∧ (σ'.store.time path).isSome := fun hl => see_lost (hsee ▸ hl)
  refine ⟨?_, fun hl => (hlost hl).2, ?_, ?_, fun hp hlist hl => h.sent hp hlist (hlost hl).1⟩
  · intro m' hm'
    rcases htimely m' hm' with hsame | ⟨-, hlt, -⟩
    · exact h.printable m' hsame
    · exact hlt
  · intro hor m' hm'
    rcases htimely m' hm' with hsame | ⟨hlate, -⟩
    · refine h.fresh ?_ m' hsame
      rcases hor with hp | hl | hlist
      · exact .inl hp
      · -- the cookie is there now, so it was missing before
        rw [hsee] at hl
        simp only [Watch.see, hm', Option.isNone_some, Bool.or_false] at hl
        exact .inr (.inl hl)
      · exact .inr (.inr hlist)
    · exact .inl hlate
  · intro hp hl m₀ m' hm₀ hm'
    obtain ⟨hl', -⟩ := hlost hl
    rcases htimely m' hm' with hsame | ⟨-, -, hgrow⟩
    · exact h.grown hp hl' m₀ m' hm₀ hsame
    · obtain ⟨m, hm⟩ := Option.isSome_iff_exists.1 (h.there hl')
      have h1 := h.grown hp hl' m₀ m hm₀ hm
      have h2 := hgrow hp m hm
      omega

theorem Owed.movesStar (h : Owed pending listed mark began told path σ)
    (hm : Relation.ReflTransGen (Moves mark pending path) σ σ') : Owed pending listed mark began told path σ' := by
  induction hm with
  | refl => exact h
  | tail _ hstep ih => exact ih.moves hstep

/-- A cookie that is not there has nothing to send. -/
theorem Owed.absent (hnone : σ.store.time path = none) (hlost : σ.lost = true) :
    Owed pending listed mark began told path σ where
  printable := fun m hm => by rw [hnone] at hm; cases hm
  there := fun h => by rw [hlost] at h; cases h
  fresh := fun _ m hm => by rw [hnone] at hm; cases hm
  grown := fun _ h => by rw [hlost] at h; cases h
  sent := fun _ _ h => by rw [hlost] at h; cases h

theorem sweepOp_time {o : FsOp} (ho : SweepOp o) {s : Store} {m : Nat} (h : (exec o s).2.time path = some m) :
    s.time path = some m := by
  rcases sweepOp_swept ho s path with h1 | h1
  · simpa only [Store.time, cookie_congr h1] using h
  · rw [time_none h1] at h
    cases h

theorem sweepOp_moves {o : FsOp} (ho : SweepOp o) (σ : Watch) :
    Moves mark pending path σ (σ.see path (exec o σ.store).2) :=
  ⟨rfl, fun _ hm => .inl (sweepOp_time ho hm)⟩

theorem passCall_moves {o : FsOp} (ho : SweepOp o) {r : FsAns o} (h : PassCall mark pending path o σ r σ') :
    Relation.ReflTransGen (Moves mark pending path) σ σ' := by
  obtain ⟨σ₁, hmoves, -, rfl⟩ := h
  exact hmoves.tail (sweepOp_moves ho σ₁)

/-! ## One entry -/

/-- From here the rest of an entry ends in `Q`, whatever others do meanwhile. -/
abbrev passWp (mark : Nat) (pending : Prop) (path : Str) (q : Handler (Option Sweep))
    (Q : Option Sweep → Watch → Prop) (σ : Watch) : Prop :=
  Prog.wp (PassCall mark pending path) (fun _ => True) (fun _ => True) q Q σ

theorem passWp_moves {q : Handler (Option Sweep)} {Q : Option Sweep → Watch → Prop}
    (hQ : ∀ r σ σ', Q r σ → Moves mark pending path σ σ' → Q r σ') (h : passWp mark pending path q Q σ)
    (hm : Moves mark pending path σ σ') : passWp mark pending path q Q σ' := by
  cases q with
  | ret r => exact hQ r σ σ' h hm
  | undef => trivial
  | ask o k =>
    rintro r s' ⟨σ₁, hmoves, hr, hs⟩ -
    exact h r s' ⟨σ₁, .head hm hmoves, hr, hs⟩ trivial

/-- After an entry, the cookie is owed nothing more than the report says. -/
def Settles (pending listed : Prop) (mark : Nat) (began : Option Nat) (peer : Peer) (c path : Str)
    (r : Option Sweep) (σ : Watch) : Prop :=
  ∀ w, r = some w → Owed pending listed mark began (peer.tell w.report c) path σ

theorem settles_moves {peer : Peer} {c : Str} (r : Option Sweep) (σ σ' : Watch)
    (h : Settles pending listed mark began peer c path r σ) (hm : Moves mark pending path σ σ') :
    Settles pending listed mark began peer c path r σ' := fun w hw => (h w hw).moves hm

end

section
variable {cfg : Config} {now : Nat}

theorem returns_doEntry (w : Sweep) (name : Str) :
    Prog.Returns (fun r => ∀ w', r = some w' → w'.report = w.report ∨ ∃ itime state,
      w'.report = w.report ++ [(name, itime, state)]) (doEntry cfg now w name) := by
  unfold doEntry
  split
  · rintro w' ⟨⟩
    exact .inl rfl
  refine Prog.returns_ite ?_ (Prog.returns_ite ?_ ?_)
  · refine Prog.returns_bind _ fun r => ?_
    rintro w' ⟨⟩
    exact told_report w name r
  · refine Prog.returns_bind _ fun login => ?_
    split
    · rintro w' ⟨⟩
      exact .inl rfl
    split
    · rintro w' ⟨⟩
    refine Prog.returns_bind _ fun r => ?_
    split
    · rintro w' ⟨⟩
      exact .inl rfl
    · refine Prog.returns_bind _ fun _ => ?_
      rintro w' ⟨⟩
      exact .inl rfl
    · rintro w' ⟨⟩
      exact .inl rfl
  · rintro w' ⟨⟩
    exact .inl rfl

variable {pending listed : Prop} {mark : Nat} {began : Option Nat} {peer : Peer} {c path : Str} {σ : Watch}

/-- An entry of another name. -/
theorem entry_other {w : Sweep} {name : Str} (hname : name ≠ c)
    (h : Owed pending listed mark began (peer.tell w.report c) path σ) :
    passWp mark pending path (doEntry cfg now w name) (Settles pending listed mark began peer c path) σ := by
  refine Prog.wp_mono ?_ (Prog.wp_of_asks (I := Owed pending listed mark began (peer.tell w.report c) path)
    (asks_doEntry cfg now w name) (returns_doEntry w name) (fun _ => trivial) ?_ h)
  · rintro r σ' ⟨hr, howed⟩ w' hw'
    have hsame : peer.tell w'.report c = peer.tell w.report c := by
      rcases hr w' hw' with h1 | ⟨itime, state, h1⟩
      · rw [h1]
      · rw [h1, tell_append, if_neg (fun h => hname h.1)]
    rw [hsame]
    exact howed
  · intro o σ₁ r σ₂ ho hI hstep
    exact hI.movesStar (passCall_moves ho hstep)

/-- `read_cookie` once the file was opened. -/
def fileRead : Option File → Handler (Int × Cinfo)
  | none => pure (1, .zero)
  | some f => Prog.orUndef (parseCookie f)

/-- `eat_cookie` once the record was read. -/
def eatRead (cfg : Config) (now : Nat) (path : Str) (x : Int × Cinfo) : Handler Eaten := do
  if x.1 < 0 then return .failed
  else if x.1 = 1 then return .gone
  else if expired cfg now x.2 then
    if x.2.krbtkt ≠ [] then
      let _ ← fsUnlink x.2.krbtkt
    let _ ← fsUnlink path
    return .gone
  else return .good x.2.itime x.2.state

theorem eatCookie_read : eatCookie cfg now path = readCookie path >>= eatRead cfg now path := by
  unfold eatCookie eatRead
  refine congrArg _ (funext fun x => ?_)
  obtain ⟨rc, ci⟩ := x
  rfl

theorem doEntry_login (w : Sweep) (hc : hasPrefix "cosign=".toList c)
    (hpath : mkcookiepath none cfg.hashlen c maxPathLen = some path) :
    doEntry cfg now w c = Prog.ask (.read path) fun a =>
      (fileRead a >>= eatRead cfg now path) >>= fun r => pure (some (w.told c r)) := by
  rw [doEntry, hpath]
  simp only [hc, if_true, eatCookie_read]
  refine congrArg (Prog.ask (FsOp.read path)) (funext fun a => ?_)
  cases a <;> rfl

theorem see_absent {s : Store} (h : s.time path = none) : (σ.see path s).lost = true := by
  simp [Watch.see, h]

/-- A call of the pass that takes the cookie away. -/
theorem passCall_unlink {r : Bool} {σ' : Watch} (h : PassCall mark pending path (.unlink path) σ r σ') :
    σ'.store.time path = none ∧ σ'.lost = true := by
  obtain ⟨σ₁, -, -, rfl⟩ := h
  have hnone : (exec (.unlink path) σ₁.store).2.time path = none := by
    exact time_none (by rw [unlink_get, if_pos rfl])
  exact ⟨hnone, see_absent hnone⟩

/-- The cookie's own entry, once its record was read. -/
theorem entry_self {w : Sweep}
    (h : Owed True listed peer.last began (peer.tell w.report c) path σ) (a : Option File) :
    a = σ.store.get path → passWp mark pending path
      ((fileRead a >>= eatRead cfg now path) >>= fun r => pure (some (w.told c r)))
      (Settles pending listed mark began peer c path) (σ.see path σ.store) := by
  intro ha
  have habsent : ∀ r, σ.store.time path = none →
      Settles pending listed mark began peer c path (some (w.told c r)) (σ.see path σ.store) := by
    rintro r hnone w' -
    exact .absent hnone (see_absent hnone)
  cases a with
  | none =>
    have hnone : σ.store.time path = none := time_none ha.symm
    exact habsent .gone hnone
  | some f =>
    have htime := time_eq ha.symm
    change passWp mark pending path ((Prog.orUndef (parseCookie f) >>= eatRead cfg now path) >>= fun r =>
      pure (some (w.told c r))) _ _
    cases hparse : parseCookie f with
    | none => trivial
    | some x =>
      obtain ⟨rc, ci⟩ := x
      rw [hparse] at htime
      rcases parseCookie_codes hparse with rfl | rfl
      · change passWp mark pending path ((eatRead cfg now path (0, ci)) >>= _) _ _
        simp only [eatRead, Int.lt_irrefl, if_false, Int.zero_ne_one, Prog.wp_bind]
        show Prog.wp _ _ _ (if expired cfg now ci then _ else _) _ _
        by_cases hold : expired cfg now ci
        · rw [if_pos hold]
          have hend : ∀ (r : Bool) (σ₁ σ₂ : Watch), PassCall mark pending path (.unlink path) σ₁ r σ₂ →
              Settles pending listed mark began peer c path (some (w.told c .gone)) σ₂ := by
            rintro r σ₁ σ₂ hcall w' -
            exact .absent (passCall_unlink hcall).1 (passCall_unlink hcall).2
          by_cases hk : ci.krbtkt = []
          · rw [if_neg (not_not.2 hk)]
            exact fun r σ₁ hcall _ => ⟨trivial, hend r _ σ₁ hcall⟩
          · rw [if_pos hk]
            exact fun _ σ₁ _ _ => ⟨trivial, fun r σ₂ hcall _ => ⟨trivial, hend r σ₁ σ₂ hcall⟩⟩
        · rw [if_neg hold]
          rintro w' ⟨⟩
          have hlost : (σ.see path σ.store).lost = σ.lost := by simp [Watch.see, htime]
          have hfresh := h.fresh (.inl trivial) _ htime
          have hcover : ¬ peer.last < ci.itime → Covers (peer.tell w.report c) ci.itime := fun hlate =>
            hfresh.resolve_left hlate
          have htold : peer.tell (w.told c (.good ci.itime ci.state)).report c =
              if peer.last < ci.itime then some (printed ci.itime) else peer.tell w.report c := by
            simp [Sweep.told, tell_append]
          have hnow : Covers (peer.tell (w.told c (.good ci.itime ci.state)).report c) ci.itime := by
            rw [htold]
            split
            · exact ⟨_, rfl, by rw [printed_eq.2 (h.printable _ htime)]⟩
            · rename_i hlate
              exact hcover hlate
          refine ⟨h.printable, ?_, ?_, ?_, ?_⟩
          · intro _
            change (σ.store.time path).isSome = true
            rw [htime]
            rfl
          · intro _ m hm
            cases htime.symm.trans hm
            exact .inr hnow
          · intro _ hl m₀ m hm₀ hm
            exact h.grown trivial (hlost ▸ hl) m₀ m hm₀ hm
          · intro _ _ hl m₀ hm₀
            have hle := h.grown trivial (hlost ▸ hl) m₀ _ hm₀ htime
            obtain ⟨t, ht, hmt⟩ := hnow
            exact ⟨t, ht, Int.le_trans (Int.ofNat_le.2 hle) hmt⟩
      · exact habsent .failed htime

end

/-! ## One step -/

/-- What is owed for a cookie in a pass, with this report so far. -/
def Pass.owes (cfg : Config) (p : Pass) (peer : Peer) (c path : Str) (report : List (Str × Nat × Nat)) (σ : Watch) :
    Prop :=
  Owed (p.pending c) (Listed cfg p.ls c) (p.mark peer c) (p.before.time path) (peer.tell report c) path σ

/-- The rest of the entry under way leaves what is owed. -/
def Pass.works (cfg : Config) (p : Pass) (peer : Peer) (c path : Str) (q : Handler (Option Sweep)) (σ : Watch) : Prop :=
  passWp (p.mark peer c) (p.pending c) path q
    (Settles (p.pending c) (Listed cfg p.ls c) (p.mark peer c) (p.before.time path) peer c path) σ

/-- The invariant of a run, for one cookie. -/
def Accounts (cfg : Config) (c path : Str) (w : World) : Prop :=
  match w.pass with
  | none => Fresh w.peer.last (w.peer.told c) w.store path ∧ Printable w.store path
  | some p =>
    match p.entry with
    | none => p.owes cfg w.peer c path p.sweep.report ⟨w.store, p.lost path⟩
    | some q => p.works cfg w.peer c path q ⟨w.store, p.lost path⟩

theorem mem_mapM {α β : Type} {f : α → Option β} {xs : List α} {ys : List β} (h : xs.mapM f = some ys) {x : α} {y : β}
    (hx : x ∈ xs) (hy : f x = some y) : y ∈ ys := by
  induction xs generalizing ys with
  | nil => cases hx
  | cons a xs ih =>
    rw [List.mapM_cons] at h
    obtain ⟨b, hb, h⟩ := Option.bind_eq_some_iff.1 h
    obtain ⟨bs, hbs, h⟩ := Option.bind_eq_some_iff.1 h
    cases h
    rcases List.mem_cons.1 hx with rfl | hx
    · cases hb.symm.trans hy
      exact List.mem_cons_self
    · exact List.mem_cons_of_mem _ (ih hbs hx)

section
variable {cfg : Config} {c path : Str} {w w' : World} {p : Pass}

/-- A timely change of the store. -/
theorem accounts_see (h : Accounts cfg c path w) {s : Store}
    (ht : ∀ m', s.time path = some m' → w.store.time path = some m' ∨ (w.mark c < m' ∧ m' < 2 ^ 31 ∧
      ∀ p, w.pass = some p → p.pending c → ∀ m, w.store.time path = some m → m ≤ m')) :
    Accounts cfg c path (w.see s) := by
  obtain ⟨store, peer, pass⟩ := w
  cases pass with
  | none =>
    refine ⟨fun m' hm' => ?_, fun m' hm' => ?_⟩
    · rcases ht m' hm' with hsame | ⟨hlate, -⟩
      · exact h.1 m' hsame
      · exact .inl hlate
    · rcases ht m' hm' with hsame | ⟨-, hlt, -⟩
      · exact h.2 m' hsame
      · exact hlt
  | some p =>
    have hmoves : Moves (p.mark peer c) (p.pending c) path ⟨store, p.lost path⟩ ⟨s, (p.see s).lost path⟩ := by
      refine ⟨rfl, fun m' hm' => ?_⟩
      rcases ht m' hm' with hsame | ⟨hlate, hlt, hgrow⟩
      · exact .inl hsame
      · exact .inr ⟨hlate, hlt, fun hp => hgrow p rfl hp⟩
    obtain ⟨start, ls, dirs, names, sweep, entry, before, lost⟩ := p
    cases entry with
    | none => exact Owed.moves h hmoves
    | some q => exact passWp_moves settles_moves h hmoves

theorem accounts_advance {q : Handler (Option Sweep)} (hq : p.works cfg w.peer c path q ⟨w.store, p.lost path⟩)
    (h : w.advance p q = some w') : Accounts cfg c path w' := by
  cases q with
  | ret r =>
    cases r with
    | none => cases h
    | some sweep =>
      cases h
      exact hq sweep rfl
  | undef => cases h
  | ask o k =>
    cases h
    exact (hq _ _ ⟨_, .refl, rfl, rfl⟩ trivial).2

/-- The next look at the cookie is the same as before. -/
theorem owes_congr {p' : Pass} {report : List (Str × Nat × Nat)} {peer : Peer} {σ : Watch}
    (h : p.owes cfg peer c path report σ) (hp : p'.pending c ↔ p.pending c) (hstart : p'.start = p.start)
    (hls : p'.ls = p.ls) (hbefore : p'.before = p.before) : p'.owes cfg peer c path report σ := by
  have hmark : p'.mark peer c = p.mark peer c := by
    unfold Pass.mark
    rw [hstart]
    exact if_congr hp rfl rfl
  unfold Pass.owes
  rw [propext hp, hls, hmark, hbefore]
  exact h

theorem accounts_entry {name : Str} {names : List Str} (hc : hasPrefix "cosign=".toList c)
    (hpath : mkcookiepath none cfg.hashlen c maxPathLen = some path) (hnames : p.names = name :: names)
    (h : p.owes cfg w.peer c path p.sweep.report ⟨w.store, p.lost path⟩)
    (hrun : w.advance { p with names } (doEntry cfg p.start p.sweep name) = some w') : Accounts cfg c path w' := by
  by_cases hname : name = c
  · subst hname
    have hpend : p.pending name := .inl (by rw [hnames]; exact List.mem_cons_self)
    have howed : Owed True (Listed cfg p.ls name) w.peer.last (p.before.time path)
        (w.peer.tell p.sweep.report name) path ⟨w.store, p.lost path⟩ := by
      have hmark : p.mark w.peer name = w.peer.last := if_pos hpend
      rw [Pass.owes, hmark, eq_true hpend] at h
      exact h
    rw [doEntry_login _ hc hpath] at hrun
    cases hrun
    let p' : Pass := { p with names }
    exact @entry_self cfg p.start (p'.pending name) _ (p'.mark w.peer name) _ w.peer name path _ p.sweep
      howed _ rfl
  · refine accounts_advance (p := { p with names }) (entry_other hname ?_) hrun
    refine owes_congr h ?_ rfl rfl rfl
    simp only [Pass.pending, hnames, List.mem_cons, Ne.symm hname, false_or]

theorem accounts_monster (hc : hasPrefix "cosign=".toList c)
    (hpath : mkcookiepath none cfg.hashlen c maxPathLen = some path) (hw : w.pass = some p)
    (h : Accounts cfg c path w) (hlist : w'.pass = none → p.lost path = false → Listed cfg p.ls c)
    (hrun : monsterStep cfg w p = some w') : Accounts cfg c path w' := by
  rw [Accounts, hw] at h
  dsimp only at h
  unfold monsterStep at hrun
  cases hentry : p.entry with
  | some q =>
    rw [hentry] at hrun h
    exact accounts_advance h hrun
  | none =>
    rw [hentry] at hrun h
    dsimp only at hrun h
    split at hrun
    · rename_i name names _ hnames
      exact accounts_entry hc hpath hnames h hrun
    · rename_i names dirs hnames hdirs
      cases hrun
      refine owes_congr (p := p) h ?_ rfl rfl rfl
      simp [Pass.pending, hnames, hdirs]
    · rename_i hnames hdirs
      cases hrun
      have hpend : ¬ p.pending c := by simp [Pass.pending, hnames, hdirs]
      have hmark : p.mark w.peer c = p.start := if_neg hpend
      have hfresh : Fresh (p.mark w.peer c) (w.peer.tell p.sweep.report c) w.store path := by
        refine Owed.fresh h (.inr ?_)
        cases hl : p.lost path with
        | true => exact .inl rfl
        | false => exact .inr (hlist rfl hl)
      rw [hmark] at hfresh
      exact ⟨hfresh, Owed.printable h⟩

theorem accounts_begin {now : Nat} {ls : Str → Option (List Str)} (h : Accounts cfg c path w)
    (hrun : worldStep cfg w (.begin now ls) = some ((), w')) : Accounts cfg c path w' := by
  obtain ⟨store, peer, pass⟩ := w
  cases pass with
  | some p => cases hrun
  | none =>
  cases hdirs : (hashDirs cfg.hashlen).bind (·.mapM ls) with
  | none =>
    simp only [worldStep, hdirs] at hrun
    cases hrun
  | some dirs =>
    simp only [worldStep, hdirs] at hrun
    cases hrun
    have hlisted : Listed cfg ls c → c ∈ dirs.flatten := by
      rintro ⟨ds, dir, names, hds, hdir, hls, hname⟩
      rw [hds, Option.bind_some] at hdirs
      exact List.mem_flatten.2 ⟨names, mem_mapM hdirs hdir hls, hname⟩
    refine ⟨h.2, fun hl => by simpa using hl, ?_, ?_, ?_⟩
    · intro hor m hm
      have hpend : c ∈ dirs.flatten := by
        rcases hor with (hp | hp) | hl | hl
        · cases hp
        · exact hp
        · simp [hm] at hl
        · exact hlisted hl
      have hmark : Pass.mark ⟨now, ls, dirs, [], {}, none, store, fun path => (store.time path).isNone⟩ peer c =
          peer.last := if_pos (.inr hpend)
      rw [hmark]
      exact h.1 m hm
    · intro _ _ m₀ m hm₀ hm
      cases hm₀.symm.trans hm
      exact Nat.le_refl _
    · intro hp hl _ _ _
      exact absurd (.inr (hlisted hl)) hp

end

/-! ## Runs -/

section
variable {cfg : Config}

/-- A pass ends once nothing is left to look at. -/
theorem monster_ends {w w' : World} {p : Pass} (h : monsterStep cfg w p = some w') (hend : w'.pass = none) :
    p.entry = none ∧ p.names = [] ∧ p.dirs = [] ∧ w' = { w with peer := ⟨p.start, w.peer.tell p.sweep.report⟩, pass := none } := by
  have hadvance : ∀ p q, w.advance p q = some w' → False := by
    intro p q hq
    cases q with
    | ret r =>
      cases r with
      | none => cases hq
      | some sweep => cases hq; cases hend
    | undef => cases hq
    | ask o k => cases hq; cases hend
  unfold monsterStep at h
  cases hentry : p.entry with
  | some q =>
    rw [hentry] at h
    exact absurd h (hadvance _ _)
  | none =>
    rw [hentry] at h
    dsimp only at h
    split at h
    · exact absurd h (hadvance _ _)
    · cases h
      cases hend
    · rename_i hnames hdirs
      cases h
      exact ⟨rfl, hnames, hdirs, rfl⟩

theorem accounts_step {c path : Str} {x : Entry World Act Unit} (hc : hasPrefix "cosign=".toList c)
    (hpath : mkcookiepath none cfg.hashlen c maxPathLen = some path) (ht : Timely cfg x) (hl : Enumerates cfg x)
    (hstep : worldStep cfg x.pre x.ev = some (x.res, x.post)) (h : Accounts cfg c path x.pre) :
    Accounts cfg c path x.post := by
  obtain ⟨pre, ev, res, post⟩ := x
  dsimp only at hstep h ⊢
  cases ev with
  | command ses env line =>
    obtain ⟨⟨d, s⟩, -, hx⟩ := Option.map_eq_some_iff.1 hstep
    cases hx
    exact accounts_see h fun m' hm' => ht nofun c path m' hc hpath hm'
  | call o =>
    cases hstep
    exact accounts_see h fun m' hm' => ht nofun c path m' hc hpath hm'
  | begin now ls => exact accounts_begin h hstep
  | monster =>
    obtain ⟨p, hp, hrun⟩ := Option.bind_eq_some_iff.1 hstep
    obtain ⟨w', hrun, hx⟩ := Option.map_eq_some_iff.1 hrun
    cases hx
    exact accounts_monster hc hpath hp h (fun hend hlost => hl p hp hend c path hc hpath hlost) hrun

theorem accounts_upToDate {x : Entry World Act Unit} (hl : Enumerates cfg x)
    (hstep : worldStep cfg x.pre x.ev = some (x.res, x.post))
    (h : ∀ c path, hasPrefix "cosign=".toList c → mkcookiepath none cfg.hashlen c maxPathLen = some path →
      Accounts cfg c path x.pre) : UpToDate cfg x := by
  intro p hp hend c path m hc hpath hbefore hlost
  obtain ⟨pre, ev, res, post⟩ := x
  obtain ⟨store, peer, pass⟩ := pre
  dsimp only at hp hend hstep ⊢
  subst hp
  cases ev with
  | command ses env line =>
    obtain ⟨⟨d, s⟩, -, hx⟩ := Option.map_eq_some_iff.1 hstep
    cases hx
    cases hend
  | call o =>
    cases hstep
    cases hend
  | begin now ls => cases hstep
  | monster =>
    obtain ⟨w', hrun, hx⟩ := Option.map_eq_some_iff.1 hstep
    cases hx
    obtain ⟨hentry, hnames, hdirs, rfl⟩ := monster_ends hrun hend
    have howed := h c path hc hpath
    simp only [Accounts, hentry] at howed
    have hpend : ¬ p.pending c := by simp [Pass.pending, hnames, hdirs]
    exact howed.sent hpend (hl p rfl rfl c path hc hpath hlost) hlost m hbefore

/-- Nothing is lost as long as no touch falls into the second a pass began in
once that pass has looked. -/
theorem push_up_to_date {w w' : World} {tr : List (Entry World Act Unit)} (h : PushRun cfg w tr w')
    (hpass : w.pass = none) (hlast : w.peer.last = 0)
    (hold : ∀ c path m, hasPrefix "cosign=".toList c → mkcookiepath none cfg.hashlen c maxPathLen = some path →
      w.store.time path = some m → 0 < m ∧ m < 2 ^ 31)
    (htimely : ∀ x ∈ tr, Timely cfg x) (hlist : ∀ x ∈ tr, Enumerates cfg x) : ∀ x ∈ tr, UpToDate cfg x := by
  have hinv := Trace.inv
    (fun w => ∀ c path, hasPrefix "cosign=".toList c → mkcookiepath none cfg.hashlen c maxPathLen = some path →
      Accounts cfg c path w)
    (fun x => Timely cfg x ∧ Enumerates cfg x)
    (fun x hstep hx hI c path hc hpath => accounts_step hc hpath hx.1 hx.2 hstep (hI c path hc hpath))
    h ?_ (fun x hx => ⟨htimely x hx, hlist x hx⟩)
  · intro x hx
    exact accounts_upToDate (hlist x hx) (h.fired x hx) (hinv.2 x hx).1
  · intro c path hc hpath
    rw [Accounts, hpass, hlast]
    exact ⟨fun m hm => .inl (hold c path m hc hpath hm).1, fun m hm => (hold c path m hc hpath hm).2⟩

end

/-! ## Two passes over one cookie -/

def annFile (t : Nat) : File := ⟨annRecord ["umich".toList] 100, false, t⟩

def annOnly : Store := .ofFiles [(annCookie, annFile 100)]

def annNames : Str → Option (List Str) := fun _ => some [annCookie]

/-- `monster` has just found its peer. -/
def annWorld : World := ⟨annOnly, ⟨0, fun _ => none⟩, none⟩

/-- A pass at 200 that is overtaken by a `CHECK` once it has looked at the
cookie, and a pass at 260. -/
def annActs (t : Nat) : List Act :=
  [.begin 200 annNames, .monster, .monster, .monster, .command .cgi (.calm t) "CHECK cosign=abc".toList, .monster,
    .begin 260 annNames, .monster, .monster, .monster, .monster]

theorem annOnly_time {path : Str} (h : (annOnly.time path).isNone = false) : resolve path = annCookie := by
  cases hf : annOnly.get path with
  | none => rw [time_none hf] at h; cases h
  | some f =>
    have := ofFiles_mem hf
    simp only [List.mem_singleton, Prod.mk.injEq] at this
    exact this.1

theorem annOnly_time_eq {path : Str} {m : Nat} (h : annOnly.time path = some m) : m = 100 := by
  have hres : resolve path = resolve annCookie := (annOnly_time (by rw [h]; rfl)).trans (by decide)
  have hann : annOnly.time annCookie = some 100 := rfl
  rw [Store.time, Store.cookie, get_congr hres] at h
  exact Option.some.inj (h.symm.trans hann)

theorem annAt_time {t : Nat} {path : Str} (h : ((annOnly.put annCookie (some (annFile t))).time path).isNone = false) :
    resolve path = annCookie := by
  by_contra hne
  have hget : (annOnly.put annCookie (some (annFile t))).get path = annOnly.get path := Store.put_get_ne _ hne _
  refine hne (annOnly_time ?_)
  rwa [Store.time, cookie_congr hget] at h

theorem ann_listed {c path : Str} (hpath : mkcookiepath none Config.default.hashlen c maxPathLen = some path)
    (h : resolve path = annCookie) : Listed .default annNames c := by
  have hc : c = annCookie := by rw [← resolve_mkcookiepath hpath, h]; decide
  exact ⟨[".".toList], ".".toList, [annCookie], rfl, by decide, rfl, by simp [hc]⟩

/-- A step that ends no pass. -/
theorem enumerates_going {cfg : Config} {x : Entry World Act Unit} {p : Pass} (h : x.post.pass = some p) :
    Enumerates cfg x := fun _ _ hend => absurd (h.symm.trans hend) (Option.some_ne_none p)

/-- No command runs in the step. -/
def Act.quiet : Act → Bool
  | .command .. => false
  | .call _ => false
  | _ => true

theorem timely_quiet {cfg : Config} {x : Entry World Act Unit} (hstep : worldStep cfg x.pre x.ev = some (x.res, x.post))
    (h : x.ev.quiet) : Timely cfg x := by
  obtain ⟨⟨store, peer, pass⟩, ev, res, post⟩ := x
  dsimp only at hstep h
  cases ev with
  | command ses env line => cases h
  | call o => cases h
  | monster => exact fun hne => absurd rfl hne
  | begin now ls =>
    cases pass with
    | some p => cases hstep
    | none =>
    cases hdirs : (hashDirs cfg.hashlen).bind (·.mapM ls) with
    | none =>
      simp only [worldStep, hdirs] at hstep
      cases hstep
    | some dirs =>
      simp only [worldStep, hdirs] at hstep
      cases hstep
      exact fun _ _ _ _ _ _ hm => .inl hm

/-- Seen in the second the first pass began in, the cookie is at 200 and the
peer is left at 100. -/
theorem ann_overtaken : ∃ tr w, PushRun .default annWorld tr w ∧ tr.map (·.ev) = annActs 200 ∧
    (∀ x ∈ tr, Enumerates .default x) ∧ ∃ x ∈ tr, ¬ UpToDate .default x := by
  refine ⟨_, _, .cons rfl (.cons rfl (.cons rfl (.cons rfl (.cons rfl (.cons rfl (.cons rfl (.cons rfl (.cons rfl
    (.cons rfl (.cons rfl (.nil _))))))))))), rfl, ?_, ?_⟩
  · simp only [List.forall_mem_cons]
    refine ⟨enumerates_going rfl, enumerates_going rfl, enumerates_going rfl, enumerates_going rfl, enumerates_going rfl, ?_,
      enumerates_going rfl, enumerates_going rfl, enumerates_going rfl, enumerates_going rfl, ?_, List.forall_mem_nil _⟩
    all_goals
      rintro p ⟨⟩ - c path - hpath hlost
      exact ann_listed hpath (annAt_time (Bool.or_eq_false_iff.1 hlost).2)
  · refine ⟨_, List.mem_of_getElem? (rfl : _[10]? = some _), ?_⟩
    intro h
    obtain ⟨t, ht, hle⟩ := h _ rfl rfl annCookie annCookie 200 (by decide) rfl rfl rfl
    have ht : some (printed 100) = some t := ht
    rw [← Option.some.inj ht, printed_eq.2 (by decide)] at hle
    exact absurd hle (by decide)

theorem push_loses_touch :
    ¬ ∀ (cfg : Config) (w w' : World) (tr : List (Entry World Act Unit)), PushRun cfg w tr w' → w.pass = none →
      w.peer.last = 0 → (∀ c path m, hasPrefix "cosign=".toList c →
        mkcookiepath none cfg.hashlen c maxPathLen = some path → w.store.time path = some m → 0 < m ∧ m < 2 ^ 31) →
      (∀ x ∈ tr, Enumerates cfg x) → ∀ x ∈ tr, UpToDate cfg x := by
  intro h
  obtain ⟨tr, w, hrun, -, hlist, x, hx, hbad⟩ := ann_overtaken
  refine hbad (h _ _ _ _ hrun rfl rfl ?_ hlist x hx)
  intro c path m _ _ hm
  rw [annOnly_time_eq hm]
  decide

/-- The store and the pass a `CHECK` a second later finds, and the store it leaves. -/
theorem ann_in_time_run : ∃ tr₁ x tr₂ w, PushRun .default annWorld (tr₁ ++ x :: tr₂) w ∧
    (tr₁ ++ x :: tr₂).map (·.ev) = annActs 201 ∧ w.peer.told annCookie = some (printed 201) ∧
    (∀ y ∈ tr₁ ++ x :: tr₂, Enumerates .default y) ∧ (tr₁ ++ tr₂).all (·.ev.quiet) = true ∧
    x.post.store = annOnly.put annCookie (some (annFile 201)) ∧
    ∃ p, x.pre.pass = some p ∧ p.start = 200 ∧ p.names = [] ∧ p.dirs = [] := by
  refine ⟨[_, _, _, _], _, [_, _, _, _, _, _], _, .cons rfl (.cons rfl (.cons rfl (.cons rfl (.cons rfl (.cons rfl
    (.cons rfl (.cons rfl (.cons rfl (.cons rfl (.cons rfl (.nil _))))))))))), rfl, rfl, ?_, rfl, rfl, _, rfl, rfl,
    rfl, rfl⟩
  simp only [List.cons_append, List.nil_append, List.forall_mem_cons]
  refine ⟨enumerates_going rfl, enumerates_going rfl, enumerates_going rfl, enumerates_going rfl, enumerates_going rfl, ?_,
    enumerates_going rfl, enumerates_going rfl, enumerates_going rfl, enumerates_going rfl, ?_, List.forall_mem_nil _⟩
  all_goals
    rintro p ⟨⟩ - c path - hpath hlost
    exact ann_listed hpath (annAt_time (Bool.or_eq_false_iff.1 hlost).2)

/-- No other cookie is there, and this one is then at 201. -/
theorem annAt_201 {path : Str} {m : Nat} (h : (annOnly.put annCookie (some (annFile 201))).time path = some m) :
    m = 201 := by
  have hres : resolve path = resolve annCookie := (annAt_time (by rw [h]; rfl)).trans (by decide)
  have hseen : (annOnly.put annCookie (some (annFile 201))).time annCookie = some 201 := rfl
  rw [Store.time, Store.cookie, get_congr hres] at h
  exact Option.some.inj (h.symm.trans hseen)

/-- Seen a second later, it is sent with the next pass. -/
theorem ann_in_time : ∃ tr w, PushRun .default annWorld tr w ∧ tr.map (·.ev) = annActs 201 ∧
    (∀ x ∈ tr, UpToDate .default x) ∧ w.peer.told annCookie = some 201 := by
  obtain ⟨tr₁, x, tr₂, w, hrun, hevs, htold, hlist, hquiet, hpost, p, hp, hstart, hnames, hdirs⟩ := ann_in_time_run
  rw [printed_eq.2 (by decide)] at htold
  refine ⟨_, w, hrun, hevs, push_up_to_date hrun rfl rfl (fun _ _ _ _ _ h => by rw [annOnly_time_eq h]; decide) ?_ hlist, htold⟩
  intro y hy
  by_cases hyx : y = x
  · subst hyx
    intro _ c path m' _ _ hm'
    have hpend : ¬ p.pending c := by simp [Pass.pending, hnames, hdirs]
    rw [hpost] at hm'
    cases annAt_201 hm'
    refine .inr ⟨?_, by decide, ?_⟩
    · rw [World.mark, hp]
      change p.mark _ c < 201
      rw [Pass.mark, if_neg hpend, hstart]
      decide
    · intro p' hp' hpend'
      cases hp.symm.trans hp'
      exact absurd hpend' hpend
  · refine timely_quiet (hrun.fired y hy) (List.all_eq_true.1 hquiet y ?_)
    simpa [hyx] using hy

end Cosign
