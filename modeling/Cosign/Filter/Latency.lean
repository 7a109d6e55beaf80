import Cosign.Filter.Validity
/-!
# How old an answer may be

A run of the filter is one call after the other, with any configuration each.
The invariant ties every record to the last call that wrote it: the record
holds what a server said in that call. So what a call returns was said in the
call itself, or it was kept in a record no older than `IDLETIME`.
-/

namespace Cosign.Filter

open Lib

/-! ## Runs -/

structure Call where
  cfg : HostConfig
  cookie : Str
  /-- `rekey` is not `NULL`. -/
  wants : Bool
  ipaddr : Str
  pre : World
  res : Valid
  post : World

/-- What the servers answered during the call. -/
def Call.answers (x : Call) : List Answer := x.post.heard.drop x.pre.heard.length

/-- The call is one of the runs of `cosign_cookie_valid`, with the connections
it finds. -/
def Call.Made (x : Call) : Prop :=
  ∃ n cl ev, Prog.Goes filterStep (cookieValid n x.cfg x.cookie (if x.wants then some none else none) x.ipaddr cl) x.pre ev
    (some x.res) x.post

/-- Time goes by between two calls, and records may be cleared away. -/
structure Passes (w w' : World) : Prop where
  clock : w.clock ≤ w'.clock
  files : ∀ p f, w'.files p = some f → w.files p = some f
  heard : w'.heard = w.heard

inductive Calls : World → List Call → World → Prop
  | nil (w : World) : Calls w [] w
  | cons {w tr t} {x : Call} : Passes w x.pre → x.Made → Calls x.post tr t → Calls w (x :: tr) t

theorem Call.Made.spec {x : Call} (h : x.Made) :
    ∃ tv, x.pre.clock ≤ tv ∧ ValidPost x.cfg x.cookie x.ipaddr tv x.pre x.res x.post x.answers := by
  obtain ⟨n, cl, ev, h⟩ := h
  obtain ⟨tv, new, htv, hpost⟩ := (Prog.wp_sound (cookieValid_spec n x.cfg x.cookie x.wants x.ipaddr cl x.pre) h
    (fun _ _ => trivial)).2 x.res rfl
  have hnew : x.answers = new := by rw [Call.answers, hpost.heard, List.drop_left]
  exact ⟨tv, htv, by rw [hnew]; exact hpost⟩

/-! ## Who wrote a record -/

/-- The call ends well and leaves in the record what it was told. -/
structure Keeps (x : Call) (path : Str) (a : Answer) (f : SFile) : Prop where
  ok : x.res.rc = .ok
  told : Told x.cfg x.cookie x.answers x.res.si a
  about : About x.cfg x.cookie x.answers path
  files : x.post.files = Function.update x.pre.files path (some f)
  holds : Holds f a
  time : a.time ≤ f.mtime ∧ f.mtime ≤ x.post.clock

/-- A call writes nothing, or it keeps what it was told. -/
theorem made_keeps {x : Call} (h : x.Made) : x.post.files = x.pre.files ∨ ∃ path a f, Keeps x path a f := by
  obtain ⟨tv, -, hpost⟩ := h.spec
  rcases hpost.effect with ⟨hfiles, -⟩ | ⟨hok, hfits, a, path, f, htold, habout, hfiles, hwritten⟩
  · exact .inl hfiles
  refine .inr ⟨path, a, f, hok, htold, habout, hfiles, ?_, ?_⟩
  · cases hwritten with
    | refreshed hf hinfo _ hsame =>
      refine ⟨_, readScookie_at hinfo _, ?_⟩
      obtain ⟨h₁, h₂, h₃⟩ := htold.said
      exact ⟨hsame.1.symm.trans h₁, hsame.2.1.symm.trans h₂, hsame.2.2.symm.trans h₃⟩
    | stored =>
      rename_i m _ _ _
      refine ⟨_, readScookie_recordText hfits m, ?_⟩
      exact htold.said
  · cases hwritten with
    | refreshed => exact ⟨(hpost.times a htold.mem).2, Nat.le_refl _⟩
    | stored h₁ h₂ => exact ⟨h₁, h₂⟩

/-- The record is as the call `y` left it, and no call after it has written to
it. -/
structure KeptBy (tr : List Call) (y : Call) (path : Str) (a : Answer) (f : SFile) : Prop where
  keeps : Keeps y path a f
  last : ∃ tr₁ tr₂, tr = tr₁ ++ y :: tr₂ ∧ ∀ z ∈ tr₂, z.post.files path = z.pre.files path

/-- Every record has such a call behind it. -/
def AllKept (tr : List Call) (w : World) : Prop := ∀ p f, w.files p = some f → ∃ y a, KeptBy tr y p a f

theorem allKept_call {tr : List Call} {x : Call} (hx : x.Made) (h : AllKept tr x.pre) : AllKept (tr ++ [x]) x.post := by
  have hold : ∀ p f, x.pre.files p = some f → x.post.files p = x.pre.files p → ∃ y a, KeptBy (tr ++ [x]) y p a f := by
    intro p f hf hsame
    obtain ⟨y, a, hkeeps, tr₁, tr₂, rfl, hlast⟩ := h p f hf
    refine ⟨y, a, hkeeps, tr₁, tr₂ ++ [x], by simp, fun z hz => ?_⟩
    rcases List.mem_append.1 hz with hz | hz
    · exact hlast z hz
    · exact List.mem_singleton.1 hz ▸ hsame
  intro p f hf
  rcases made_keeps hx with hfiles | ⟨path, a, g, hkeeps⟩
  · rw [hfiles] at hf
    exact hold p f hf (by rw [hfiles])
  · by_cases hp : p = path
    · subst hp
      rw [hkeeps.files, Function.update_self] at hf
      cases hf
      exact ⟨x, a, hkeeps, tr, [], rfl, by simp⟩
    · have hsame : x.post.files p = x.pre.files p := by rw [hkeeps.files, Function.update_of_ne hp]
      exact hold p f (hsame ▸ hf) hsame

theorem allKept_run {w t : World} {tr : List Call} (hrun : Calls w tr t) {tr₀ : List Call} (h : AllKept tr₀ w) :
    AllKept (tr₀ ++ tr) t := by
  induction hrun generalizing tr₀ with
  | nil => simpa using h
  | @cons w tr t x hpasses hmade _ ih =>
    have hpre : AllKept tr₀ x.pre := fun p f hf => h p f (hpasses.files p f hf)
    have := ih (allKept_call hmade hpre)
    simpa using this

theorem Calls.split {w t : World} {tr₁ tr₂ : List Call} {x : Call} (h : Calls w (tr₁ ++ x :: tr₂) t) :
    ∃ u, Calls w tr₁ u ∧ Passes u x.pre ∧ x.Made ∧ Calls x.post tr₂ t := by
  induction tr₁ generalizing w with
  | nil =>
    cases h with
    | cons hp hx htail => exact ⟨w, .nil w, hp, hx, htail⟩
  | cons y tr₁ ih =>
    cases h with
    | cons hp hy htail =>
      obtain ⟨u, hu, h⟩ := ih htail
      exact ⟨u, .cons hp hy hu, h⟩

/-! ## What is returned -/

/-- The cookie of the call, or a name it is given in the call. -/
def Call.Names (x : Call) (name : Str) : Prop :=
  name = x.cookie ∨ ∃ a ∈ x.answers, Accepts x.cfg x.cookie a ∧ Renames x.cookie a name

theorem about_names {x : Call} {path : Str} (h : About x.cfg x.cookie x.answers path) :
    ∃ name, x.Names name ∧ pathOf x.cfg name = some path := by
  rcases h with h | ⟨a, ha, name, hacc, hren, h⟩
  · exact ⟨x.cookie, .inl rfl, h⟩
  · exact ⟨name, .inr ⟨a, ha, hacc, hren⟩, h⟩

/-- What a call returns was said to that call, or is in a record no older than
`IDLETIME` that holds what the last call to write it was told, for the same
cookie or for one that was given its name. -/
theorem filter_sound {w t : World} {tr₁ tr₂ : List Call} {x : Call} (hempty : ∀ p, w.files p = none)
    (hrun : Calls w (tr₁ ++ x :: tr₂) t) (hok : x.res.rc = .ok) :
    (x.cfg.checkip = .always → x.ipaddr = x.res.si.ipaddr) ∧
      ((∃ a, Told x.cfg x.cookie x.answers x.res.si a) ∨
        ∃ y path a f name, KeptBy tr₁ y path a f ∧ Says a x.res.si ∧ x.pre.clock ≤ f.mtime + idleTime ∧
          x.Names name ∧ y.Names name) := by
  obtain ⟨u, hbefore, hpasses, hmade, -⟩ := hrun.split
  have hkept : AllKept tr₁ x.pre := by
    have hnone : AllKept [] w := fun p f hf => by rw [hempty] at hf; cases hf
    have h := allKept_run hbefore hnone
    exact fun p f hf => h p f (hpasses.files p f hf)
  obtain ⟨tv, htv, hpost⟩ := hmade.spec
  refine ⟨hpost.checkip hok, ?_⟩
  rcases hpost.effect with ⟨-, heffect⟩ | ⟨-, -, a, path, f, htold, -⟩
  · rcases heffect hok with ⟨path, f, lsi, habout, hf, hinfo, hyoung, hsame, -⟩ | htold
    · obtain ⟨y, a, hkeptBy⟩ := hkept path f hf
      obtain ⟨name, hname, hpath⟩ := about_names habout
      obtain ⟨name', hname', hpath'⟩ := about_names hkeptBy.keeps.about
      obtain rfl := mkcookiepath_inj hpath hpath'
      refine .inr ⟨y, path, a, f, name, hkeptBy, ?_, Nat.le_trans htv hyoung, hname, hname'⟩
      obtain ⟨lsi', hinfo', hsaid⟩ := hkeptBy.keeps.holds
      cases hinfo.symm.trans hinfo'
      exact ⟨hsame.1.trans hsaid.1, hsame.2.1.trans hsaid.2.1, hsame.2.2.trans hsaid.2.2⟩
    · exact .inl htold
  · exact .inl ⟨a, htold⟩

/-! ## A world that answers from a script -/

/-- Everything works and no time goes by; a server's answer depends on the time
and on the command. -/
def play (script : Nat → Str → Option Str) : (o : FilterOp) → World → FilterAns o × World
  | .access _, w | .mktmp _, w | .close _, w => (true, w)
  | .linkProxy .., w | .openTkt _, w | .writeTkt .., w | .closeTkt _, w => (true, w)
  | .gettimeofday, w => (some w.clock, w)
  | .read path, w =>
    (match w.files path with
      | none => .missing
      | some f => .file f.text f.mtime, w)
  | .rename path text, w => (true, { w with files := Function.update w.files path (some ⟨text, w.clock⟩) })
  | .link path text, w =>
    if w.files path = none then (true, { w with files := Function.update w.files path (some ⟨text, w.clock⟩) })
    else (false, w)
  | .utime path, w =>
    ((), match w.files path with
      | none => w
      | some f => { w with files := Function.update w.files path (some { f with mtime := w.clock }) })
  | .connect _, w => (some (true, 3), w)
  | .writef server line, w => (true, { w with sent := Function.update w.sent server line })
  | .getlineMulti conn, w =>
    (script w.clock (w.sent conn.server),
      { w with heard := w.heard ++
          ((script w.clock (w.sent conn.server)).map fun line => ⟨conn, w.sent conn.server, line, w.clock⟩).toList })
  | .getline _, w | .snetRead .., w => (none, w)
  | .random, w => (none, w)
  | .unlinkTkt _, w => ((), w)

theorem play_step {script : Nat → Str → Option Str} (hscript : ∀ t sent line, script t sent = some line → OneLine line)
    (o : FilterOp) (w : World) : filterStep o w (play script o w).1 (play script o w).2 := by
  have hlater : w.Later w := ⟨Nat.le_refl _, rfl, rfl, rfl⟩
  cases o with
  | gettimeofday => exact ⟨hlater, fun t ht => by cases ht; rfl⟩
  | read path =>
    refine ⟨hlater, ?_⟩
    dsimp only [play]
    cases hf : w.files path with
    | none => exact .inl rfl
    | some f => exact .inr (.inr ⟨f, rfl, rfl⟩)
  | rename path text => exact ⟨w.clock, Nat.le_refl _, Nat.le_refl _, rfl, rfl, rfl⟩
  | link path text =>
    dsimp only [play]
    by_cases hf : w.files path = none
    · rw [if_pos hf]
      exact ⟨hf, w.clock, Nat.le_refl _, Nat.le_refl _, rfl, rfl, rfl⟩
    · rw [if_neg hf]
      exact hlater
  | utime path =>
    dsimp only [play]
    cases hf : w.files path with
    | none => exact .inl hlater
    | some f => exact .inr ⟨f, hf, Nat.le_refl _, rfl, rfl, rfl⟩
  | writef server line => exact ⟨Nat.le_refl _, rfl, rfl, rfl⟩
  | getlineMulti conn => exact ⟨Nat.le_refl _, rfl, rfl, rfl, fun line h => hscript _ _ line h⟩
  | access | mktmp | connect | close | getline | snetRead | random | linkProxy | openTkt | writeTkt | closeTkt | unlinkTkt =>
    exact hlater

/-- A call in such a world. -/
def plays (script : Nat → Str → Option Str) (cfg : HostConfig) (cookie : Str) (wants : Bool) (ipaddr : Str) (cl : List Conn)
    (w : World) : Option (Valid × World) :=
  Prog.run (play script) (cookieValid 8 cfg cookie (if wants then some none else none) ipaddr cl) w

theorem plays_made {script : Nat → Str → Option Str} (hscript : ∀ t sent line, script t sent = some line → OneLine line)
    {cfg : HostConfig} {cookie ipaddr : Str} {wants : Bool} {cl : List Conn} {w w' : World} {v : Valid}
    (h : plays script cfg cookie wants ipaddr cl w = some (v, w')) : Call.Made ⟨cfg, cookie, wants, ipaddr, w, v, w'⟩ := by
  obtain ⟨ev, h⟩ := Prog.goes_of_run filterStep (play_step hscript) h
  exact ⟨8, cl, ev, h⟩

/-! ## An answer that is not kept -/

theorem oneLine_t : OneLine "/t".toList := oneLine_of_isOneLine (by decide)

def wikiFilter : HostConfig where
  reqfv := []
  suffix := none
  fake := false
  checkip := .always
  filterdb := "/f".toList
  hashlen := 0
  proxydb := "/p".toList
  tktPrefix := "/t".toList
  tktPrefix_line := oneLine_t
  proxy := false
  krbtkt := false

def wikiServers : List Conn := [⟨0, true, true, 3⟩]

def scookie : Str := "cosign-wiki=xyz".toList

/-- Ann comes back from another address at 120. -/
def annMoves (t : Nat) (_ : Str) : Option Str :=
  some (if t < 120 then "231 10.0.0.1 ann umich".toList else "231 10.0.0.2 ann umich".toList)

theorem annMoves_line : ∀ t sent line, annMoves t sent = some line → OneLine line := by
  intro t sent line h
  simp only [annMoves, Option.some.injEq] at h
  split at h
  · subst h
    exact oneLine_of_isOneLine (by decide)
  · subst h
    exact oneLine_of_isOneLine (by decide)

def emptyWorld (t : Nat) : World := ⟨fun _ => none, t, fun _ => [], []⟩

/-- What the server answers before and after she has moved. -/
def annAnswer (t : Nat) (line : Str) : Answer := ⟨⟨0, true, true, 3⟩, "CHECK cosign-wiki=xyz".toList, line, t⟩

def annFirst : Answer := annAnswer 100 "231 10.0.0.1 ann umich".toList
def annSecond : Answer := annAnswer 130 "231 10.0.0.2 ann umich".toList

def annPlays (ipaddr : Str) (w : World) : Option (Valid × World) :=
  plays annMoves wikiFilter scookie false ipaddr wikiServers w

def annCall (ipaddr : Str) (w : World) (v : Valid) (w' : World) : Call := ⟨wikiFilter, scookie, false, ipaddr, w, v, w'⟩

/-- The record is made at 100. At 130 another browser has the server asked,
and is refused. -/
def annBefore (v₁ : Valid) (w₁ : World) (v₂ : Valid) (w₂ : World) : List Call :=
  [annCall "10.0.0.1".toList (emptyWorld 100) v₁ w₁, annCall "10.0.0.9".toList { w₁ with clock := 130 } v₂ w₂]

/-- At 140 the record is still good. -/
def annLast (w₂ : World) (v₃ : Valid) (w₃ : World) : Call := annCall "10.0.0.1".toList { w₂ with clock := 140 } v₃ w₃

theorem ann_plays : ∃ v₁ w₁ v₂ w₂ v₃ w₃, annPlays "10.0.0.1".toList (emptyWorld 100) = some (v₁, w₁) ∧
    annPlays "10.0.0.9".toList { w₁ with clock := 130 } = some (v₂, w₂) ∧
    annPlays "10.0.0.1".toList { w₂ with clock := 140 } = some (v₃, w₃) ∧ v₃.rc = .ok ∧
    v₃.si.ipaddr = "10.0.0.1".toList ∧ w₁.heard = [annFirst] ∧ w₂.heard = [annFirst, annSecond] ∧
    w₃.heard = [annFirst, annSecond] ∧ w₁.clock = 100 ∧ w₂.clock = 130 := by
  refine ⟨_, _, _, _, _, _, rfl, rfl, rfl, ?_⟩
  exact ⟨rfl, rfl, rfl, rfl, rfl, rfl, rfl⟩

theorem passes_clock {w : World} {t : Nat} (h : w.clock ≤ t) : Passes w { w with clock := t } := ⟨h, fun _ _ h => h, rfl⟩

theorem ann_run : ∃ v₁ w₁ v₂ w₂ v₃ w₃, Calls (emptyWorld 100) (annBefore v₁ w₁ v₂ w₂ ++ annLast w₂ v₃ w₃ :: []) w₃ ∧
    v₃.rc = .ok ∧ v₃.si.ipaddr = "10.0.0.1".toList ∧ w₁.heard = [annFirst] ∧ w₂.heard = [annFirst, annSecond] ∧
    w₃.heard = [annFirst, annSecond] := by
  obtain ⟨v₁, w₁, v₂, w₂, v₃, w₃, h₁, h₂, h₃, hok, hip, hw₁, hw₂, hw₃, hc₁, hc₂⟩ := ann_plays
  have hle₁ : w₁.clock ≤ 130 := by omega
  have hle₂ : w₂.clock ≤ 140 := by omega
  exact ⟨v₁, w₁, v₂, w₂, v₃, w₃, .cons (passes_clock (Nat.le_refl 100)) (plays_made annMoves_line h₁)
    (.cons (passes_clock hle₁) (plays_made annMoves_line h₂)
      (.cons (passes_clock hle₂) (plays_made annMoves_line h₃) (.nil _))), hok, hip, hw₁, hw₂, hw₃⟩

/-- A 2xx answer for the cookie, or for one that it is the new name of. -/
def ReplyFor (tr : List Call) (c : Str) (a : Answer) : Prop :=
  ∃ y ∈ tr, a ∈ y.answers ∧ Accepts y.cfg y.cookie a ∧ (y.cookie = c ∨ Renames y.cookie a c)

/-- Each line of a retrieval takes 70 seconds, and does not come. -/
def playSlow (script : Nat → Str → Option Str) : (o : FilterOp) → World → FilterAns o × World
  | .getline _, w => (none, { w with clock := w.clock + 70 })
  | o, w => play script o w

theorem playSlow_step {script : Nat → Str → Option Str} (hscript : ∀ t sent line, script t sent = some line → OneLine line)
    (o : FilterOp) (w : World) : filterStep o w (playSlow script o w).1 (playSlow script o w).2 := by
  cases o with
  | getline server => exact ⟨Nat.le_add_right _ _, rfl, rfl, rfl⟩
  | _ => exact play_step hscript _ w

/-- The service fetches proxy cookies. -/
def slowFilter : HostConfig := { wikiFilter with proxy := true }

def slowPlays (w : World) : Option (Valid × World) :=
  Prog.run (playSlow annMoves) (cookieValid 8 slowFilter scookie none "10.0.0.1".toList wikiServers) w

def slowCall (w : World) (v : Valid) (w' : World) : Call := ⟨slowFilter, scookie, false, "10.0.0.1".toList, w, v, w'⟩

theorem slowPlays_made {w w' : World} {v : Valid} (h : slowPlays w = some (v, w')) : (slowCall w v w').Made := by
  obtain ⟨ev, h⟩ := Prog.goes_of_run filterStep (playSlow_step annMoves_line) h
  exact ⟨8, wikiServers, ev, h⟩

/-- She is named at 100, and the record is written at 170. -/
theorem slow_plays : ∃ v₁ w₁ v₂ w₂, slowPlays (emptyWorld 100) = some (v₁, w₁) ∧
    slowPlays { w₁ with clock := 225 } = some (v₂, w₂) ∧ v₂.rc = .ok ∧ w₁.heard = [annFirst] ∧ w₂.heard = [annFirst] ∧
    w₁.clock = 170 := by
  refine ⟨_, _, _, _, rfl, rfl, ?_⟩
  exact ⟨rfl, rfl, rfl, rfl⟩

theorem reply_not_in_time :
    ¬ ∀ (w t : World) (tr₁ tr₂ : List Call) (x : Call), (∀ p, w.files p = none) → Calls w (tr₁ ++ x :: tr₂) t →
      x.res.rc = .ok → ∃ a, ReplyFor (tr₁ ++ [x]) x.cookie a ∧ x.pre.clock ≤ a.time + idleTime := by
  intro h
  obtain ⟨v₁, w₁, v₂, w₂, h₁, h₂, hok, hw₁, hw₂, hc₁⟩ := slow_plays
  have hle : w₁.clock ≤ 225 := by omega
  have hrun : Calls (emptyWorld 100) ([slowCall (emptyWorld 100) v₁ w₁] ++ slowCall { w₁ with clock := 225 } v₂ w₂ :: []) w₂ :=
    .cons (passes_clock (Nat.le_refl 100)) (slowPlays_made h₁)
      (.cons (passes_clock hle) (slowPlays_made h₂) (.nil _))
  obtain ⟨a, ⟨y, hy, ha, -⟩, htime⟩ := h _ _ _ _ _ (fun _ => rfl) hrun hok
  have hfirst : a = annFirst := by
    have hpost := List.mem_of_mem_drop ha
    simp only [List.cons_append, List.nil_append, List.mem_cons, List.not_mem_nil, or_false] at hy
    rcases hy with rfl | rfl
    · simpa only [slowCall, hw₁, List.mem_singleton] using hpost
    · simpa only [slowCall, hw₂, List.mem_singleton] using hpost
  subst hfirst
  exact absurd (show 225 ≤ 100 + idleTime from htime) (by decide)

theorem reply_not_latest :
    ¬ ∀ (w t : World) (tr₁ tr₂ : List Call) (x : Call), (∀ p, w.files p = none) → Calls w (tr₁ ++ x :: tr₂) t →
      x.res.rc = .ok → (x.cfg.checkip = .always → x.ipaddr = x.res.si.ipaddr) ∧
        ∃ a, ReplyFor (tr₁ ++ [x]) x.cookie a ∧ (∀ b, ReplyFor (tr₁ ++ [x]) x.cookie b → b.time ≤ a.time) ∧
          Says a x.res.si := by
  intro h
  obtain ⟨v₁, w₁, v₂, w₂, v₃, w₃, hrun, hok, hip, hw₁, hw₂, hw₃⟩ := ann_run
  obtain ⟨-, a, ⟨y, hy, ha, -⟩, hlatest, hsaid⟩ := h _ _ _ _ _ (fun _ => rfl) hrun hok
  have hsecond : ReplyFor (annBefore v₁ w₁ v₂ w₂ ++ [annLast w₂ v₃ w₃]) scookie annSecond := by
    refine ⟨annCall "10.0.0.9".toList { w₁ with clock := 130 } v₂ w₂, by simp [annBefore], ?_,
      ⟨none, .zero, _, _, rfl, rfl⟩, .inl rfl⟩
    simp only [Call.answers, annCall, hw₁, hw₂]
    exact List.mem_cons_self
  have htime : 130 ≤ a.time := hlatest _ hsecond
  -- only the second answer is late enough, and it names the new address
  have hmem : a ∈ [annFirst, annSecond] := by
    simp only [annBefore, List.cons_append, List.nil_append, List.mem_cons, List.not_mem_nil, or_false] at hy
    have hpost := List.mem_of_mem_drop ha
    rcases hy with rfl | rfl | rfl
    · simp only [annCall, hw₁, List.mem_singleton] at hpost
      exact hpost ▸ List.mem_cons_self
    · simpa only [annCall, hw₂] using hpost
    · simpa only [annLast, annCall, hw₃] using hpost
  rcases List.mem_cons.1 hmem with rfl | hmem
  · exact absurd htime (by decide)
  · obtain rfl := List.mem_singleton.1 hmem
    exact absurd (hip.symm.trans hsaid.1) (by decide)

/-- What is returned need not be what the latest answer said, and no answer need
have come within `IDLETIME`: a record is as old as its writing. -/
theorem filter_not_latest :
    (¬ ∀ (w t : World) (tr₁ tr₂ : List Call) (x : Call), (∀ p, w.files p = none) → Calls w (tr₁ ++ x :: tr₂) t →
      x.res.rc = .ok → (x.cfg.checkip = .always → x.ipaddr = x.res.si.ipaddr) ∧
        ∃ a, ReplyFor (tr₁ ++ [x]) x.cookie a ∧ (∀ b, ReplyFor (tr₁ ++ [x]) x.cookie b → b.time ≤ a.time) ∧
          Says a x.res.si) ∧
    ¬ ∀ (w t : World) (tr₁ tr₂ : List Call) (x : Call), (∀ p, w.files p = none) → Calls w (tr₁ ++ x :: tr₂) t →
      x.res.rc = .ok → ∃ a, ReplyFor (tr₁ ++ [x]) x.cookie a ∧ x.pre.clock ≤ a.time + idleTime :=
  ⟨reply_not_latest, reply_not_in_time⟩

/-- The last call of that run asks no server. It has its browser's address, from a
record that was kept. -/
theorem ann_returns : ∃ tr x t, Calls (emptyWorld 100) (tr ++ [x]) t ∧ x.res.rc = .ok ∧ x.answers = [] ∧
    x.ipaddr = x.res.si.ipaddr ∧ ∃ y path a f name, KeptBy tr y path a f ∧ Says a x.res.si ∧
      x.pre.clock ≤ f.mtime + idleTime ∧ x.Names name ∧ y.Names name := by
  obtain ⟨v₁, w₁, v₂, w₂, v₃, w₃, hrun, hok, -, -, hw₂, hw₃⟩ := ann_run
  have hquiet : (annLast w₂ v₃ w₃).answers = [] := by
    simp only [Call.answers, annLast, annCall, hw₂, hw₃]
    rfl
  obtain ⟨hip, ⟨a, htold⟩ | hkept⟩ := filter_sound (fun _ => rfl) hrun hok
  · have hmem := htold.mem
    rw [hquiet] at hmem
    cases hmem
  · exact ⟨_, _, _, hrun, hok, hquiet, hip rfl, hkept⟩

end Cosign.Filter
