import Cosign.Daemon.Collect
/-!
# What the peers are told

`do_dir` with the connections it writes to. The time and the state it prints are
kept from one entry to the next, and it does not ask whether `eat_cookie` has
just written them: the line for a cookie that is gone has those of another.
-/

namespace Cosign

open Lib

/-- `struct connlist`: `cl_last_time`, and whether `cl_sn` is there. -/
structure MonsterPeer where
  last : Nat
  up : Bool

/-- A line that was written, and to which peer. -/
structure PeerLine where
  peer : Nat
  name : Str
  time : Int
  state : Nat

/-- `%d` prints the low 32 bits of a `time_t`. -/
def printed (itime : Nat) : Int := (itime : Int).bmod (2 ^ 32)

/-- The loop over the peers, from peer `i` on. `fails` are the peers that
`snet_writef` cannot write to. -/
def tellPeers (fails : Nat → Bool) (name : Str) (itime state : Nat) :
    (i : Nat) → List MonsterPeer → List MonsterPeer × List PeerLine
  | _, [] => ([], [])
  | i, yacur :: rest =>
    let (rest', lines) := tellPeers fails name itime state (i + 1) rest
    if itime > yacur.last ∧ yacur.up = true then
      -- the connection is closed, and the line is lost
      if fails i then ({ yacur with up := false } :: rest', lines)
      else (yacur :: rest', ⟨i, name, printed itime, state⟩ :: lines)
    else (yacur :: rest', lines)

/-- What one `do_dir` keeps from entry to entry. -/
structure Telling where
  sweep : Sweep
  peers : List MonsterPeer

/-- After `eat_cookie` on a login cookie. -/
def Telling.visit (w : Telling) (fails : Nat → Bool) (name : Str) (r : Eaten) : Telling × List PeerLine :=
  match r with
  | .failed => (w, [])
  -- deleted or alive, the peers are told
  | r =>
    let sweep := w.sweep.told name r
    let told := tellPeers fails name sweep.itime sweep.state 0 w.peers
    (⟨sweep, told.1⟩, told.2)

/-- One directory entry, as `doEntry`, with the lines it writes. -/
def tellEntry (cfg : Config) (now : Nat) (fails : Str → Nat → Bool) (w : Telling) (name : Str) :
    Handler (Option (Telling × List PeerLine)) :=
  match mkcookiepath none cfg.hashlen name maxPathLen with
  | none => pure (some (w, []))
  | some path =>
    if hasPrefix "cosign=".toList name then do
      let r ← eatCookie cfg now path
      return some (w.visit (fails name) name r)
    else if hasPrefix "cosign-".toList name then do
      match ← serviceToLogin path with
      | none => return some (w, [])
      | some login =>
        match mkcookiepath none cfg.hashlen login maxPathLen with
        | none => return none
        | some lpath =>
          match ← eatCookie cfg now lpath with
          | .failed => return some (w, [])
          | .gone => do
            let _ ← fsUnlink path
            return some (w, [])
          | .good itime state => return some ({ w with sweep := { w.sweep with itime, state } }, [])
    else pure (some (w, []))

/-- The loop over the directory. -/
def tellEntries (cfg : Config) (now : Nat) (fails : Str → Nat → Bool) :
    Telling → List Str → Handler (Option (Telling × List PeerLine))
  | w, [] => pure (some (w, []))
  | w, name :: rest => do
    match ← tellEntry cfg now fails w name with
    | none => return none
    | some (w, lines) =>
      match ← tellEntries cfg now fails w rest with
      | none => return none
      | some (w, lines') => return some (w, lines ++ lines')

/-- Without the peers it is `doEntry`. -/
theorem tellEntry_sweep (cfg : Config) (now : Nat) (fails : Str → Nat → Bool) (w : Telling) (name : Str) (s : Store) :
    (Prog.run exec (tellEntry cfg now fails w name) s).map (fun x => (x.1.map (·.1.sweep), x.2)) =
      Prog.run exec (doEntry cfg now w.sweep name) s := by
  unfold tellEntry doEntry
  cases mkcookiepath none cfg.hashlen name maxPathLen with
  | none => rfl
  | some path =>
    dsimp only
    split
    · rw [Prog.run_bind, Prog.run_bind]
      cases Prog.run exec (eatCookie cfg now path) s with
      | none => rfl
      | some x => obtain ⟨r, t⟩ := x; cases r <;> rfl
    split
    · simp only [Prog.run_bind, run_serviceToLogin, Option.bind_some]
      cases s.binding path with
      | none => rfl
      | some login =>
        dsimp only
        cases mkcookiepath none cfg.hashlen login maxPathLen with
        | none => rfl
        | some lpath =>
          simp only [Prog.run_bind]
          cases Prog.run exec (eatCookie cfg now lpath) s with
          | none => rfl
          | some x => obtain ⟨r, t⟩ := x; cases r <;> rfl
    · rfl

/-! ## The lines for one entry -/

/-- A line comes through to some peer. -/
def Reaches (fails : Nat → Bool) (itime i : Nat) (peers : List MonsterPeer) : Prop :=
  ∃ x ∈ peers.zipIdx i, x.1.up = true ∧ x.1.last < itime ∧ fails x.2 = false

theorem tellPeers_lines {fails : Nat → Bool} {name : Str} {itime state i : Nat} {peers : List MonsterPeer} {l : PeerLine}
    (h : l ∈ (tellPeers fails name itime state i peers).2) :
    l.name = name ∧ l.time = printed itime ∧ l.state = state := by
  induction peers generalizing i with
  | nil => cases h
  | cons yacur rest ih =>
    simp only [tellPeers] at h
    split at h
    · split at h
      · exact ih h
      · rcases List.mem_cons.1 h with rfl | h
        · simp only [and_self]
        · exact ih h
    · exact ih h

theorem tellPeers_reaches {fails : Nat → Bool} {name : Str} {itime state i : Nat} {peers : List MonsterPeer} :
    (∃ l, l ∈ (tellPeers fails name itime state i peers).2) ↔ Reaches fails itime i peers := by
  induction peers generalizing i with
  | nil => simp [tellPeers, Reaches]
  | cons yacur rest ih =>
    have hrest := ih (i := i + 1)
    unfold Reaches at hrest ⊢
    rw [List.zipIdx_cons]
    simp only [List.mem_cons, exists_eq_or_imp]
    rw [← hrest]
    simp only [tellPeers]
    by_cases hnew : itime > yacur.last ∧ yacur.up = true
    · by_cases hfail : fails i = true
      · simp [hnew, hfail]
      · simp only [if_pos hnew, if_neg hfail]
        refine ⟨fun _ => .inl ⟨hnew.2, hnew.1, by simpa using hfail⟩, fun _ => ⟨_, List.mem_cons_self⟩⟩
    · rw [if_neg hnew]
      constructor
      · exact .inr
      · rintro (⟨hup, hlt, -⟩ | h)
        · exact absurd ⟨hlt, hup⟩ hnew
        · exact h

/-! ## The visits -/

/-- The time and the state of a login cookie that may stay. -/
def alive (cfg : Config) (now : Nat) (s : Store) (path : Str) : Option (Nat × Nat) :=
  match s.cookie path with
  | some (rc, ci) => if rc = 0 ∧ ¬ expired cfg now ci then some (ci.itime, ci.state) else none
  | none => none

/-- The cookie is missing, or can be read and must go. -/
def Gone (cfg : Config) (now : Nat) (s : Store) (path : Str) : Prop :=
  s.get path = none ∨ ∃ ci, s.cookie path = some (0, ci) ∧ expired cfg now ci

theorem alive_file {cfg : Config} {now : Nat} {s : Store} {path : Str} {m st : Nat}
    (h : alive cfg now s path = some (m, st)) :
    ∃ f, s.get path = some f ∧ m = f.mtime ∧ st = if f.isgid then 0 else 1 := by
  unfold alive at h
  split at h
  · rename_i rc ci hread
    split at h
    · rename_i hrc
      obtain ⟨rfl, -⟩ := hrc
      cases h
      obtain ⟨f, hf, hparse⟩ := cookie_file hread
      obtain ⟨hst, hm⟩ := parseCookie_fstat hparse (by decide)
      exact ⟨f, hf, hm, hst⟩
    · cases h
  · cases h

/-- What a visit of `eat_cookie` comes to. -/
theorem eat_cases {cfg : Config} {now : Nat} {s t : Store} {path : Str} {r : Eaten}
    (h : Prog.run exec (eatCookie cfg now path) s = some (r, t)) :
    (r = .failed ∧ ¬ Gone cfg now s path ∧ alive cfg now s path = none) ∨
      (r = .gone ∧ Gone cfg now s path ∧ alive cfg now s path = none) ∨
      ∃ m st, r = .good m st ∧ t = s ∧ ¬ Gone cfg now s path ∧ alive cfg now s path = some (m, st) := by
  rw [run_eatCookie] at h
  obtain ⟨⟨rc, ci⟩, hread, h⟩ := Option.map_eq_some_iff.1 h
  have hgone : Gone cfg now s path ↔ rc = 1 ∨ rc = 0 ∧ expired cfg now ci := by
    unfold Gone
    rw [hread]
    unfold Store.cookie at hread
    split at hread
    · rename_i hf
      cases hread
      simp [hf]
    · rename_i f hf
      rcases parseCookie_codes hread with rfl | rfl <;> simp [hf]
  have hcodes : rc = 0 ∨ rc = 1 ∨ rc = -1 := by
    unfold Store.cookie at hread
    split at hread
    · cases hread
      exact .inr (.inl rfl)
    · rcases parseCookie_codes hread with rfl | rfl
      · exact .inl rfl
      · exact .inr (.inr rfl)
  have halive : alive cfg now s path = if rc = 0 ∧ ¬ expired cfg now ci then some (ci.itime, ci.state) else none := by
    unfold alive
    rw [hread]
  rw [hgone, halive]
  rcases hcodes with rfl | rfl | rfl
  · by_cases hexp : expired cfg now ci
    · simp only [Int.lt_irrefl, if_false, Int.zero_ne_one, hexp, if_true] at h
      cases h
      exact .inr (.inl ⟨rfl, .inr ⟨rfl, hexp⟩, by simp [hexp]⟩)
    · simp only [Int.lt_irrefl, if_false, Int.zero_ne_one, hexp] at h
      cases h
      exact .inr (.inr ⟨_, _, rfl, rfl, by simp [hexp], by simp [hexp]⟩)
  · cases h
    exact .inr (.inl ⟨rfl, .inl rfl, by simp⟩)
  · cases h
    exact .inl ⟨rfl, by simp, by simp⟩

/-- The login cookie's file that an entry leads to. -/
def entryLogin (cfg : Config) (s : Store) (name : Str) : Option Str :=
  (mkcookiepath none cfg.hashlen name maxPathLen).bind fun path =>
    if hasPrefix "cosign=".toList name then some path
    else if hasPrefix "cosign-".toList name then
      (s.binding path).bind fun login => mkcookiepath none cfg.hashlen login maxPathLen
    else none

/-- What the visit of an entry finds alive. -/
def found (cfg : Config) (now : Nat) (s : Store) (name : Str) : Option (Nat × Nat) :=
  (entryLogin cfg s name).bind (alive cfg now s)

/-- The loop as a system: its state is the store and what `do_dir` keeps, its
events are the entries, and its results the lines. -/
def dirStep (cfg : Config) (now : Nat) (fails : Str → Nat → Bool) (σ : Store × Telling) (name : Str) :
    Option (List PeerLine × (Store × Telling)) :=
  match Prog.run exec (tellEntry cfg now fails σ.2 name) σ.1 with
  | some (some (w, lines), t) => some (lines, (t, w))
  | _ => none

abbrev DirRun (cfg : Config) (now : Nat) (fails : Str → Nat → Bool) := Trace (dirStep cfg now fails)

abbrev DirEntry := Entry (Store × Telling) Str (List PeerLine)

/-- What one entry does. -/
inductive Visited (cfg : Config) (now : Nat) (fails : Nat → Bool) (s : Store) (w : Telling) (name : Str) (lines : List PeerLine)
    (t : Store) (w' : Telling) : Prop
  | /-- Nothing is written, and the time is that of the last cookie found. -/
    silent (hlines : lines = []) (hquiet : hasPrefix "cosign=".toList name → ∀ path,
        mkcookiepath none cfg.hashlen name maxPathLen = some path →
          ¬ Gone cfg now s path ∧ alive cfg now s path = none)
      (htime : (w'.sweep.itime, w'.sweep.state) = (found cfg now s name).getD (w.sweep.itime, w.sweep.state))
  | /-- A login cookie that is alive. -/
    live (path : Str) (m st : Nat) (hname : hasPrefix "cosign=".toList name)
      (hpath : mkcookiepath none cfg.hashlen name maxPathLen = some path) (halive : alive cfg now s path = some (m, st))
      (hgone : ¬ Gone cfg now s path) (hstore : t = s) (hlines : lines = (tellPeers fails name m st 0 w.peers).2)
      (htime : (w'.sweep.itime, w'.sweep.state) = (found cfg now s name).getD (w.sweep.itime, w.sweep.state))
  | /-- A login cookie that is gone. -/
    gone (path : Str) (hname : hasPrefix "cosign=".toList name)
      (hpath : mkcookiepath none cfg.hashlen name maxPathLen = some path) (hgone : Gone cfg now s path)
      (halive : alive cfg now s path = none)
      (hlines : lines = (tellPeers fails name w.sweep.itime w.sweep.state 0 w.peers).2)
      (htime : (w'.sweep.itime, w'.sweep.state) = (found cfg now s name).getD (w.sweep.itime, w.sweep.state))

theorem tellEntry_visited {cfg : Config} {now : Nat} {fails : Str → Nat → Bool} {s t : Store} {w w' : Telling}
    {name : Str} {lines : List PeerLine}
    (h : Prog.run exec (tellEntry cfg now fails w name) s = some (some (w', lines), t)) :
    Visited cfg now (fails name) s w name lines t w' := by
  unfold tellEntry at h
  cases hpath : mkcookiepath none cfg.hashlen name maxPathLen with
  | none =>
    rw [hpath] at h
    cases h
    exact .silent rfl (fun _ path hp => by cases hpath.symm.trans hp) (by rw [found, entryLogin, hpath]; rfl)
  | some path =>
    rw [hpath] at h
    dsimp only at h
    split at h
    · rename_i hname
      have hfound : found cfg now s name = alive cfg now s path := by
        simp only [found, entryLogin, hpath, Option.bind_some, if_pos hname]
      rw [Prog.run_bind] at h
      obtain ⟨⟨r, u⟩, heat, hret⟩ := Option.bind_eq_some_iff.1 h
      rcases eat_cases heat with ⟨rfl, hgone, halive⟩ | ⟨rfl, hgone, halive⟩ | ⟨m, st, rfl, rfl, hgone, halive⟩
      · cases hret
        exact .silent rfl (fun _ p hp => by cases hpath.symm.trans hp; exact ⟨hgone, halive⟩) (by rw [hfound, halive]; rfl)
      · cases hret
        exact .gone path hname hpath hgone halive rfl (by rw [hfound, halive]; rfl)
      · cases hret
        exact .live path m st hname hpath halive hgone rfl rfl (by rw [hfound, halive]; rfl)
    rename_i hname
    have hquiet : hasPrefix "cosign=".toList name → ∀ path, mkcookiepath none cfg.hashlen name maxPathLen = some path →
        ¬ Gone cfg now s path ∧ alive cfg now s path = none := fun hc => absurd hc hname
    split at h
    · rename_i hservice
      simp only [Prog.run_bind, run_serviceToLogin, Option.bind_some] at h
      cases hbind : s.binding path with
      | none =>
        rw [hbind] at h
        cases h
        exact .silent rfl hquiet (by
          rw [found, entryLogin, hpath, Option.bind_some, if_neg hname, if_pos hservice, hbind]
          rfl)
      | some login =>
        rw [hbind] at h
        dsimp only at h
        cases hlpath : mkcookiepath none cfg.hashlen login maxPathLen with
        | none => rw [hlpath] at h; cases h
        | some lpath =>
          rw [hlpath] at h
          have hfound : found cfg now s name = alive cfg now s lpath := by
            simp only [found, entryLogin, hpath, Option.bind_some, if_neg hname, if_pos hservice, hbind, hlpath]
          simp only [Prog.run_bind] at h
          obtain ⟨⟨r, u⟩, heat, hret⟩ := Option.bind_eq_some_iff.1 h
          rcases eat_cases heat with ⟨rfl, -, halive⟩ | ⟨rfl, -, halive⟩ | ⟨m, st, rfl, rfl, -, halive⟩
          · cases hret
            exact .silent rfl hquiet (by rw [hfound, halive]; rfl)
          · cases hret
            exact .silent rfl hquiet (by rw [hfound, halive]; rfl)
          · cases hret
            exact .silent rfl hquiet (by rw [hfound, halive]; rfl)
    · rename_i hservice
      cases h
      exact .silent rfl hquiet (by
        rw [found, entryLogin, hpath, Option.bind_some, if_neg hname, if_neg hservice]
        rfl)

/-! ## Lines that are true -/

/-- The line is about the entry's own cookie, which the visit found alive and
left in place. -/
def Truthful (cfg : Config) (now : Nat) (y : DirEntry) (l : PeerLine) : Prop :=
  hasPrefix "cosign=".toList y.ev ∧ l.name = y.ev ∧ ∃ path f, mkcookiepath none cfg.hashlen y.ev maxPathLen = some path ∧
    y.pre.1.get path = some f ∧ (alive cfg now y.pre.1 path).isSome ∧ y.post.1.get path = some f ∧
    l.time = f.mtime ∧ l.state = if f.isgid then 0 else 1

/-- No line comes through for a cookie that is gone while `last` is the time
that is kept, and none with a time of more than 31 bits. -/
def Steady (cfg : Config) (now : Nat) (fails : Str → Nat → Bool) (last : Nat) (y : DirEntry) : Prop :=
  hasPrefix "cosign=".toList y.ev → ∀ path, mkcookiepath none cfg.hashlen y.ev maxPathLen = some path →
    (Gone cfg now y.pre.1 path → ¬ Reaches (fails y.ev) last 0 y.pre.2.peers) ∧
    ∀ m st, alive cfg now y.pre.1 path = some (m, st) → Reaches (fails y.ev) m 0 y.pre.2.peers → m < 2 ^ 31

theorem printed_eq {m : Nat} : printed m = m ↔ m < 2 ^ 31 := by
  unfold printed
  constructor
  · intro h
    have := Int.bmod_lt (x := (m : Int)) (m := 2 ^ 32) (by decide)
    omega
  · intro h
    exact Int.bmod_eq_of_le (by omega) (by omega)

/-- One entry's lines. -/
theorem truthful_entry {cfg : Config} {now : Nat} {fails : Str → Nat → Bool} {y : DirEntry}
    (hstep : dirStep cfg now fails y.pre y.ev = some (y.res, y.post)) :
    (∀ l ∈ y.res, Truthful cfg now y l) ↔ Steady cfg now fails y.pre.2.sweep.itime y := by
  obtain ⟨⟨s, w⟩, name, lines, t, w'⟩ := y
  have hrun : Prog.run exec (tellEntry cfg now fails w name) s = some (some (w', lines), t) := by
    unfold dirStep at hstep
    split at hstep
    · rename_i heq
      cases hstep
      exact heq
    · cases hstep
  unfold Steady
  dsimp only
  cases tellEntry_visited hrun with
  | silent hlines hquiet _ =>
    subst hlines
    constructor
    · intro _ hname path hpath
      obtain ⟨hgone, halive⟩ := hquiet hname path hpath
      exact ⟨fun h => absurd h hgone, fun m st h => by rw [halive] at h; cases h⟩
    · intro _ l hl
      cases hl
  | gone path hname hpath hgone halive hlines _ =>
    -- any line that comes through is about a cookie that is not there
    subst hlines
    constructor
    · intro h _ p hp
      cases hpath.symm.trans hp
      refine ⟨fun _ hreach => ?_, fun m st h => by rw [halive] at h; cases h⟩
      obtain ⟨l, hl⟩ := tellPeers_reaches.2 hreach
      obtain ⟨-, -, p, f, hp, -, hsome, -⟩ := h l hl
      cases hpath.symm.trans hp
      dsimp only at hsome
      rw [halive] at hsome
      cases hsome
    · intro h l hl
      exact absurd (tellPeers_reaches.1 ⟨l, hl⟩) ((h hname path hpath).1 hgone)
  | live path m st hname hpath halive hgone hstore hlines _ =>
    -- the line is the cookie's own, up to the 32 bits of its time
    subst hlines hstore
    obtain ⟨f, hf, hm, hst⟩ := alive_file halive
    constructor
    · intro h _ p hp
      cases hpath.symm.trans hp
      refine ⟨fun hg => absurd hg hgone, fun m' st' ha hreach => ?_⟩
      rw [halive] at ha
      cases ha
      obtain ⟨l, hl⟩ := tellPeers_reaches.2 hreach
      obtain ⟨-, -, p, g, hp, hg, -, -, htime, -⟩ := h l hl
      cases hpath.symm.trans hp
      cases hf.symm.trans hg
      rw [(tellPeers_lines hl).2.1, ← hm] at htime
      exact printed_eq.1 htime
    · intro h l hl
      obtain ⟨hn, ht, hs⟩ := tellPeers_lines hl
      have hlt := (h hname path hpath).2 m st halive (tellPeers_reaches.1 ⟨l, hl⟩)
      refine ⟨hname, hn, path, f, hpath, hf, by simp [halive], hf, ?_, ?_⟩
      · rw [ht, printed_eq.2 hlt, hm]
      · rw [hs, hst]

/-! ## The time that is kept -/

/-- The last cookie found alive in these visits. -/
def lastFound (cfg : Config) (now : Nat) (first : Nat × Nat) (tr : List DirEntry) : Nat × Nat :=
  tr.foldl (fun last y => (found cfg now y.pre.1 y.ev).getD last) first

theorem kept_lastFound {cfg : Config} {now : Nat} {fails : Str → Nat → Bool} {σ τ : Store × Telling} {tr : List DirEntry}
    (h : DirRun cfg now fails σ tr τ) :
    (τ.2.sweep.itime, τ.2.sweep.state) = lastFound cfg now (σ.2.sweep.itime, σ.2.sweep.state) tr := by
  induction h with
  | nil => rfl
  | @cons σ name lines τ' tr τ hstep _ ih =>
    have htime : (τ'.2.sweep.itime, τ'.2.sweep.state) =
        (found cfg now σ.1 name).getD (σ.2.sweep.itime, σ.2.sweep.state) := by
      unfold dirStep at hstep
      split at hstep
      · rename_i heq
        cases hstep
        cases tellEntry_visited heq <;> assumption
      · cases hstep
    rw [ih, htime]
    rfl

/-- The lines of a scan are true just when it is steady at every entry. -/
theorem scan_truthful_iff {cfg : Config} {now : Nat} {fails : Str → Nat → Bool} {s : Store} {peers : List MonsterPeer}
    {τ : Store × Telling} {tr : List DirEntry} (h : DirRun cfg now fails (s, ⟨{}, peers⟩) tr τ) :
    (∀ y ∈ tr, ∀ l ∈ y.res, Truthful cfg now y l) ↔
      ∀ tr₁ y tr₂, tr = tr₁ ++ y :: tr₂ → Steady cfg now fails (lastFound cfg now (0, 0) tr₁).1 y := by
  have hlast : ∀ tr₁ y tr₂, tr = tr₁ ++ y :: tr₂ → y.pre.2.sweep.itime = (lastFound cfg now (0, 0) tr₁).1 ∧
      dirStep cfg now fails y.pre y.ev = some (y.res, y.post) := by
    rintro tr₁ y tr₂ rfl
    obtain ⟨u, h₁, h₂⟩ := h.take
    cases h₂ with
    | cons hstep _ => exact ⟨congrArg Prod.fst (kept_lastFound h₁), hstep⟩
  constructor
  · intro hall tr₁ y tr₂ he
    obtain ⟨htime, hstep⟩ := hlast tr₁ y tr₂ he
    rw [← htime]
    exact (truthful_entry hstep).1 (hall y (by rw [he]; simp))
  · intro hall y hy
    obtain ⟨tr₁, tr₂, he⟩ := List.append_of_mem hy
    obtain ⟨htime, hstep⟩ := hlast tr₁ y tr₂ he
    apply (truthful_entry hstep).2
    rw [htime]
    exact hall tr₁ y tr₂ he

/-- A scan that comes to its end is a run of its entries. -/
theorem tellEntries_run {cfg : Config} {now : Nat} {fails : Str → Nat → Bool} {names : List Str} {s t : Store}
    {w w' : Telling} {lines : List PeerLine}
    (h : Prog.run exec (tellEntries cfg now fails w names) s = some (some (w', lines), t)) :
    ∃ tr, DirRun cfg now fails (s, w) tr (t, w') ∧ tr.map (·.ev) = names ∧ lines = tr.flatMap (·.res) := by
  induction names generalizing s w lines with
  | nil =>
    cases h
    exact ⟨[], .nil _, rfl, rfl⟩
  | cons name rest ih =>
    rw [tellEntries, Prog.run_bind] at h
    obtain ⟨⟨o, u⟩, hentry, h1⟩ := Option.bind_eq_some_iff.1 h
    cases o with
    | none => cases h1
    | some x =>
      obtain ⟨w₁, lines₁⟩ := x
      dsimp only at h1
      rw [Prog.run_bind] at h1
      obtain ⟨⟨o, v⟩, hrest, h2⟩ := Option.bind_eq_some_iff.1 h1
      cases o with
      | none => cases h2
      | some x =>
        obtain ⟨w₂, lines₂⟩ := x
        cases h2
        obtain ⟨tr, hrun, hnames, hlines⟩ := ih hrest
        have hstep : dirStep cfg now fails (s, w) name = some (lines₁, (u, w₁)) := by
          simp only [dirStep, hentry]
        exact ⟨_, .cons hstep hrun, by simp [hnames], by simp [hlines]⟩

/-- What `do_dir` writes to its peers is true just when the scan is steady. -/
theorem told_truthful_iff (cfg : Config) (now : Nat) (fails : Str → Nat → Bool) (s : Store) (peers : List MonsterPeer) :
    (∀ names w lines t, Prog.run exec (tellEntries cfg now fails ⟨{}, peers⟩ names) s = some (some (w, lines), t) →
      ∃ tr, DirRun cfg now fails (s, ⟨{}, peers⟩) tr (t, w) ∧ tr.map (·.ev) = names ∧
        lines = tr.flatMap (·.res)) ∧
    ∀ tr τ, DirRun cfg now fails (s, ⟨{}, peers⟩) tr τ →
      ((∀ y ∈ tr, ∀ l ∈ y.res, Truthful cfg now y l) ↔
        ∀ tr₁ y tr₂, tr = tr₁ ++ y :: tr₂ → Steady cfg now fails (lastFound cfg now (0, 0) tr₁).1 y) :=
  ⟨fun _ _ _ _ h => tellEntries_run h, fun _ _ h => scan_truthful_iff h⟩

/-! ## Two cookies -/

/-- One in use, and one that has been idle. -/
def usedAndIdle : Store :=
  .ofFiles [("cosign=abc".toList, ⟨userRecord "10.0.0.1".toList "ann".toList, false, 20000⟩),
    ("cosign=def".toList, ⟨userRecord "10.0.0.2".toList "eve".toList, false, 100⟩)]

/-- The idle cookie is deleted, and the peer is told that it is in use. -/
theorem gone_told : ∃ tr τ, DirRun .default 20000 (fun _ _ => false) (usedAndIdle, ⟨{}, [⟨0, true⟩]⟩) tr τ ∧
    ¬ ∀ y ∈ tr, ∀ l ∈ y.res, Truthful .default 20000 y l := by
  have hrun : DirRun .default 20000 (fun _ _ => false) (usedAndIdle, ⟨{}, [⟨0, true⟩]⟩) _ _ :=
    .cons (rfl : dirStep _ _ _ _ "cosign=abc".toList = some _) (.cons (rfl : dirStep _ _ _ _ "cosign=def".toList = some _)
      (.nil _))
  refine ⟨_, _, hrun, fun h => ?_⟩
  obtain ⟨-, -, path, f, hpath, -, -, hpost, -⟩ := h _ (.tail _ (.head _)) _ (.head _)
  cases (show some "cosign=def".toList = some path from hpath)
  cases hpost

theorem told_truthful_ann : ∃ tr τ, DirRun .default 20000 (fun _ _ => false) (usedAndIdle, ⟨{}, [⟨0, true⟩]⟩) tr τ ∧
    tr.map (·.ev) = ["cosign=abc".toList] ∧
    ((∀ y ∈ tr, ∀ l ∈ y.res, Truthful .default 20000 y l) ↔ ∀ tr₁ y tr₂, tr = tr₁ ++ y :: tr₂ →
      Steady .default 20000 (fun _ _ => false) (lastFound .default 20000 (0, 0) tr₁).1 y) := by
  have hrun : DirRun .default 20000 (fun _ _ => false) (usedAndIdle, ⟨{}, [⟨0, true⟩]⟩) _ _ :=
    .cons (rfl : dirStep _ _ _ _ "cosign=abc".toList = some _) (.nil _)
  exact ⟨_, _, hrun, rfl, (told_truthful_iff _ _ _ _ _).2 _ _ hrun⟩

end Cosign
