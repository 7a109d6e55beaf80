import Cosign.Daemon.Framing
import Cosign.Daemon.Logout
import Cosign.Filter.Rekeyed
import Cosign.Filter.Site
import Cosign.Libsnet.Multi
/-!
# Single sign-out

One `cosignd` and one site run side by side. Each answer the site hears was
given by the daemon while the request was served, and whatever else the daemon
does in that time it does in any order. A logout at the daemon is then final at
the site too, as soon as the site's own record of the cookie is too old.
-/

namespace Cosign.Filter

open Lib

/-! ## Answers about a lost cookie -/

/-- No server accepts the cookie, and none gives its name to another. -/
def Call.Denies (x : Call) (k : Str) : Prop :=
  ∀ a ∈ x.answers, (a.sent = "CHECK ".toList ++ k ∨ a.sent = "REKEY ".toList ++ k → a.line.head? ≠ some '2') ∧
    ¬ (Accepts x.cfg x.cookie a ∧ Renames x.cookie a k)

/-- The site's record of the cookie is from `t` at the latest. -/
def RecordedBy (t : Nat) (path : Str) (w : World) : Prop := ∀ f, w.files path = some f → f.mtime ≤ t

/-- An accepted answer is a 2xx to a check of the cookie. -/
theorem accepts_two {cfg : HostConfig} {k : Str} {a : Answer} (h : Accepts cfg k a) :
    (a.sent = "CHECK ".toList ++ k ∨ a.sent = "REKEY ".toList ++ k) ∧ a.line.head? = some '2' := by
  obtain ⟨rekey, si, si', rekey', hsent, hcheck⟩ := h
  refine ⟨?_, ?_⟩
  · rw [hsent, checkCommand]
    split
    · exact .inr rfl
    · exact .inl rfl
  · unfold checkLine at hcheck
    split at hcheck
    · assumption
    · cases hcheck
    · cases hcheck
    · cases hcheck

section
variable {x : Call} {k path : Str} {t : Nat}

theorem denied_not_accepts (h : x.Denies x.cookie) {a : Answer} (ha : a ∈ x.answers) : ¬ Accepts x.cfg x.cookie a := by
  intro hacc
  obtain ⟨hsent, htwo⟩ := accepts_two hacc
  exact (h a ha).1 hsent htwo

/-- Such a call writes no record of the cookie. -/
theorem denied_frame {cfg : HostConfig} (hx : x.Made) (hpath : pathOf cfg k = some path) (h : x.Denies k) :
    x.post.files path = x.pre.files path := by
  rcases made_keeps hx with hfiles | ⟨q, a, f, hkeeps⟩
  · rw [hfiles]
  rw [hkeeps.files, Function.update_of_ne]
  rintro rfl
  rcases hkeeps.about with hq | ⟨b, hb, name, hacc, hren, hq⟩
  · obtain rfl := mkcookiepath_inj hpath hq
    exact denied_not_accepts h hkeeps.told.mem hkeeps.told.accepts
  · obtain rfl := mkcookiepath_inj hpath hq
    exact (h b hb).2 ⟨hacc, hren⟩

/-- And with an old record it is of no use. -/
theorem denied_refused (hx : x.Made) (h : x.Denies x.cookie) (hpath : pathOf x.cfg x.cookie = some path)
    (hrec : RecordedBy t path x.pre) (hlate : t + idleTime < x.pre.clock) : x.res.rc ≠ .ok := by
  intro hok
  obtain ⟨tv, htv, hpost⟩ := hx.spec
  rcases hpost.effect with ⟨-, heffect⟩ | ⟨-, -, a, p, f, htold, -⟩
  · rcases heffect hok with ⟨p, f, lsi, habout, hf, -, hyoung, -⟩ | ⟨a, htold⟩
    · rcases habout with hp | ⟨a, ha, name, hacc, -⟩
      · cases hpath.symm.trans hp
        have hold := hrec f hf
        omega
      · exact denied_not_accepts h ha hacc
    · exact denied_not_accepts h htold.mem htold.accepts
  · exact denied_not_accepts h htold.mem htold.accepts

/-- A call that has no path for its cookie ends badly. -/
theorem pathless_refused (hx : x.Made) (h : x.Denies x.cookie) (hpath : pathOf x.cfg x.cookie = none) : x.res.rc ≠ .ok := by
  intro hok
  obtain ⟨tv, htv, hpost⟩ := hx.spec
  rcases hpost.effect with ⟨-, heffect⟩ | ⟨-, -, a, p, f, htold, -⟩
  · rcases heffect hok with ⟨p, f, lsi, habout, -⟩ | ⟨a, htold⟩
    · rcases habout with hp | ⟨a, ha, name, hacc, -⟩
      · rw [hpath] at hp
        cases hp
      · exact denied_not_accepts h ha hacc
    · exact denied_not_accepts h htold.mem htold.accepts
  · exact denied_not_accepts h htold.mem htold.accepts

end

/-! ## What the daemon says -/

/-- The codes of its replies have three digits. -/
def ThreeDigits (d : Done) : Prop := ∀ code, d.answers code → 100 ≤ code ∧ code < 1000

theorem threeDigits_line {ret : Ret} {code : Nat} {text : Str} {push : List Str} {rep : Bool} (h : 100 ≤ code ∧ code < 1000) :
    ThreeDigits ⟨ret, [.line code text], push, rep⟩ := by
  rintro c ⟨r, hr, hc⟩
  rw [List.mem_singleton.1 hr] at hc
  cases hc
  exact h

theorem threeDigits_reply {ret : Int} {code : Nat} {text : Str} (h : 100 ≤ code ∧ code < 1000) :
    Prog.Returns ThreeDigits (reply ret code text) := threeDigits_line h

theorem threeDigits_checkLogin {cfg : Config} {ses : Session} {env : Env} {cmd cookie path : Str} {status : Nat}
    {scpath : Option Str} (hs : 100 ≤ status ∧ status < 1000) :
    Prog.Returns ThreeDigits (checkLogin cfg ses env cmd cookie path status scpath) := by
  have hreply : ∀ (ci : Cinfo) (r : Str), Prog.Returns ThreeDigits
      (pure { ret := .ret 0, out := [checkReply ses status ci r] } : Handler Done) := by
    intro ci r
    obtain ⟨text, htext⟩ := checkReply_line ses status ci r
    rw [htext]
    exact threeDigits_line hs
  refine Prog.returns_bind _ fun x => ?_
  dsimp only
  split
  · exact threeDigits_reply (by decide)
  split
  · exact threeDigits_reply (by decide)
  split
  · rintro code ⟨r, hr, -⟩
    cases hr
  split
  · unfold idleOut
    split
    · exact threeDigits_line (by decide)
    · exact Prog.returns_bind _ fun rc => threeDigits_line (by decide)
  refine Prog.returns_bind _ fun _ => ?_
  split
  · exact hreply _ _
  split
  · exact threeDigits_reply (by decide)
  refine Prog.returns_bind _ fun moved => ?_
  split
  · exact threeDigits_reply (by decide)
  · exact hreply _ _

theorem threeDigits_fCheck (cfg : Config) (ses : Session) (env : Env) (av : List Str) :
    Prog.Returns ThreeDigits (fCheck cfg ses env av) := by
  unfold fCheck
  split
  · trivial
  split
  · exact threeDigits_reply (by decide)
  split
  · trivial
  split
  · exact threeDigits_reply (by decide)
  split
  · refine Prog.returns_bind _ fun valid => ?_
    split
    · exact threeDigits_reply (by decide)
    refine Prog.returns_bind _ fun login => ?_
    split
    · exact threeDigits_reply (by decide)
    dsimp only
    split
    · exact threeDigits_reply (by decide)
    split
    · exact threeDigits_checkLogin (by decide)
    · exact threeDigits_checkLogin (by decide)
  split
  · exact threeDigits_checkLogin (by decide)
  · exact threeDigits_reply (by decide)

/-- A code of three digits that begins with a 2. -/
theorem dec_two {n : Nat} (h : 100 ≤ n ∧ n < 1000) {t : Str} (h2 : (dec n ++ t).head? = some '2') : 200 ≤ n ∧ n < 300 := by
  have htwo : ∀ d < 10, Nat.digitChar d = '2' → d = 2 := by decide
  rw [dec_three h] at h2
  have hd := htwo (n / 10 / 10) (by omega) (Option.some.inj h2)
  omega

/-! ## Side by side -/

/-- The daemon's entry is the answer to what the site sent. -/
def Gives (x : Entry Store Event Outcome) (a : Answer) : Prop :=
  ∃ ses env d code text, x.ev = .command ses env a.sent ∧ x.res = .answered d ∧ Reply.line code text ∈ d.out ∧
    a.line = dec code ++ ' ' :: text

/-- All that the request hears, the daemon says in that time. -/
def Heard (v : Visit) (tr : List (Entry Store Event Outcome)) : Prop := ∀ a ∈ v.answers, ∃ x ∈ tr, Gives x a

def Serves (apr : Apr) (w : World) (v : Visit) (w' : World) : Prop := Passes w v.pre ∧ v.Made apr ∧ v.post = w'

/-- A daemon and a site that asks it. -/
abbrev SideBySide (cfg : Config) (apr : Apr) := Joint (step cfg) (Serves apr) Heard

/-- The name is not given to another cookie. -/
def Visit.Spares (apr : Apr) (v : Visit) (k : Str) : Prop :=
  ∀ a ∈ v.answers, ∀ c, v.cookie apr = some c → Accepts v.cfg.common c a → ¬ Renames c a k

section
variable {cfg : Config} {apr : Apr} {c k path p : Str}

/-- The daemon does not answer 2xx about a service cookie of a session that is
over. -/
theorem gives_denied {x : Entry Store Event Outcome} {a : Answer} (hc : hasPrefix "cosign=".toList c)
    (hpath : mkcookiepath none cfg.hashlen c maxPathLen = some path) (hword : IsWord k)
    (hp : mkcookiepath none cfg.hashlen k maxPathLen = some p) (hstep : step cfg x.pre x.ev = some (x.res, x.post))
    (hdead : DeadAt c path p x.pre) (hgives : Gives x a) (hsent : a.sent = "CHECK ".toList ++ k ∨ a.sent = "REKEY ".toList ++ k) :
    a.line.head? ≠ some '2' := by
  obtain ⟨ses, env, d, code, text, hev, hres, hout, hline⟩ := hgives
  have hwords : ∀ cmd, IsWord cmd → acavParse (cmd ++ ' ' :: k) = [cmd, k] := by
    intro cmd hcmd
    have hall : ∀ w ∈ [cmd, k], IsWord w := by
      intro w hw
      rcases List.mem_cons.1 hw with rfl | hw
      · exact hcmd
      · rw [List.mem_singleton.1 hw]
        exact hword
    exact acavParse_unwords hall
  have hcheck : ∃ cmd n, acavParse a.sent = [cmd, k] ∧ findCommand cmd = some n ∧ (n = .check ∨ n = .rekey) := by
    rcases hsent with hs | hs
    · refine ⟨"CHECK".toList, .check, ?_, rfl, .inl rfl⟩
      rw [hs]
      exact hwords "CHECK".toList (word_of_valid (by decide +kernel) (by decide))
    · refine ⟨"REKEY".toList, .rekey, ?_, rfl, .inr rfl⟩
      rw [hs]
      exact hwords "REKEY".toList (word_of_valid (by decide +kernel) (by decide))
  obtain ⟨cmd, n, hparse, hcmd, hn⟩ := hcheck
  have hnot : ¬ d.ok := dead_refuses hc hpath hp hstep hdead ses env a.sent cmd [] n d hev hparse hcmd
    (by rcases hn with rfl | rfl <;> simp) hres
  obtain ⟨d', hd', hrun⟩ := step_command hstep hev hparse hcmd
  cases hres.symm.trans hd'
  have hcodes : ThreeDigits d := by
    have hrun' : Prog.run exec (fCheck cfg ses env [cmd, k]) x.pre = some (d, x.post) := by
      rcases hn with rfl | rfl
      · exact hrun
      · exact hrun
    exact (threeDigits_fCheck cfg ses env _).run hrun'
  have hans : d.answers code := ⟨_, hout, rfl⟩
  intro htwo
  rw [hline] at htwo
  obtain ⟨h1, h2⟩ := dec_two (hcodes code hans) htwo
  exact hnot ⟨code, h1, h2, hans⟩

/-- So a request that asks about it is denied it. -/
theorem visit_denies {v : Visit} {tr : List (Entry Store Event Outcome)} {x : Call} (hc : hasPrefix "cosign=".toList c)
    (hpath : mkcookiepath none cfg.hashlen c maxPathLen = some path) (hword : IsWord k)
    (hp : mkcookiepath none cfg.hashlen k maxPathLen = some p)
    (hdead : ∀ y ∈ tr, step cfg y.pre y.ev = some (y.res, y.post) ∧ DeadAt c path p y.pre) (hheard : Heard v tr)
    (hspares : v.Spares apr k) (hx : v.Asks apr x) : x.Denies k := by
  intro a ha
  rw [hx.answers] at ha
  obtain ⟨y, hy, hgives⟩ := hheard a ha
  refine ⟨fun hsent => gives_denied hc hpath hword hp (hdead y hy).1 (hdead y hy).2 hgives hsent, ?_⟩
  rintro ⟨hacc, hren⟩
  rw [hx.cfg] at hacc
  exact hspares a ha x.cookie hx.cookie hacc hren

/-- No record is newer than the clock. -/
theorem serves_recorded {w w' : World} {v : Visit} (h : Serves apr w v w') (hw : ∀ q, RecordedBy w.clock q w) :
    ∀ q, RecordedBy w'.clock q w' := by
  obtain ⟨hpasses, hmade, rfl⟩ := h
  have hpre : ∀ q, RecordedBy v.pre.clock q v.pre := fun q f hf =>
    Nat.le_trans (hw q f (hpasses.files q f hf)) hpasses.clock
  rcases hmade.cases with hun | ⟨x, hx⟩
  · rw [hun.world]
    exact hpre
  · intro q f hf
    have hclock := hx.made.clock
    rw [hx.pre, hx.post] at hclock
    rcases made_keeps hx.made with hfiles | ⟨path, a, g, hkeeps⟩
    · rw [hx.pre, hx.post] at hfiles
      rw [hfiles] at hf
      exact Nat.le_trans (hpre q f hf) hclock
    · have hfiles := hkeeps.files
      rw [hx.pre, hx.post] at hfiles
      by_cases hq : q = path
      · subst hq
        rw [hfiles, Function.update_self] at hf
        cases hf
        rw [← hx.post]
        exact hkeeps.time.2
      · rw [hfiles, Function.update_of_ne hq] at hf
        exact Nat.le_trans (hpre q f hf) hclock

/-- A request that is denied the cookie leaves the record of it as it is. -/
theorem serves_frame {w w' : World} {v : Visit} {cfg : HostConfig} {t : Nat} (hpath : pathOf cfg k = some path)
    (hdenies : ∀ x, v.Asks apr x → x.Denies k) (h : Serves apr w v w') (hw : RecordedBy t path w) : RecordedBy t path w' := by
  obtain ⟨hpasses, hmade, rfl⟩ := h
  rcases hmade.cases with hun | ⟨x, hx⟩
  · rw [hun.world]
    exact fun f hf => hw f (hpasses.files path f hf)
  · intro f hf
    have hframe := denied_frame hx.made hpath (hdenies x hx)
    rw [hx.pre, hx.post] at hframe
    rw [hframe] at hf
    exact hw f (hpasses.files path f hf)

/-! ## A logout at the site -/

/-- Once the daemon has logged the session out, a service cookie that was
registered to it gets nobody in any more when `IDLETIME` has passed, whatever
the daemon and the site do until then. -/
theorem signed_out {s₀ s₁ s₂ : Store} {w₀ w₁ w₂ : World} {ms₀ ms₁ ms₂ : List (Moment Store Event Outcome Visit)}
    {a b tr : List (Entry Store Event Outcome)} {x : Entry Store Event Outcome} {v : Visit} (hempty : ∀ q, w₀.files q = none)
    (hc : hasPrefix "cosign=".toList c) (hpath : mkcookiepath none cfg.hashlen c maxPathLen = some path)
    (hk : hasPrefix "cosign-".toList k) (hvalid : validchars k = true)
    (hp : mkcookiepath none cfg.hashlen k maxPathLen = some p) (hbefore : SideBySide cfg apr s₀ w₀ ms₀ s₁ w₁)
    (hlog : ms₀.flatMap Moment.entries = a ++ x :: b) (hx : LogsOut c path x) (hbound : x.pre.binding p = some c)
    (hafter : SideBySide cfg apr s₁ w₁ (ms₁ ++ .act v tr :: ms₂) s₂ w₂) (hcookie : v.cookie apr = some k)
    (hlate : w₁.clock + idleTime < v.pre.clock)
    (hdaemon : ∀ y ∈ b ++ (ms₁ ++ [Moment.act v tr]).flatMap Moment.entries,
      SweepsWell cfg y ∧ SparesLogin path y ∧ ¬ Renewed cfg p y)
    (hsite : ∀ m ∈ ms₁ ++ [Moment.act v tr], ∀ z ∈ m.acts, z.Spares apr k) : v.Refused := by
  have hword : IsWord k := word_of_valid hvalid (by rintro rfl; cases hk)
  have hkeep : ∀ y : Entry Store Event Outcome, step cfg y.pre y.ev = some (y.res, y.post) →
      SweepsWell cfg y ∧ SparesLogin path y ∧ ¬ Renewed cfg p y → DeadAt c path p y.pre → DeadAt c path p y.post :=
    fun y hy h => deadAt_step hc hpath hk hp hy h.1 h.2.1 h.2.2
  -- the daemon up to the end of the first run
  have hdead : DeadAt c path p s₁ := by
    have htrace := hbefore.trace
    rw [hlog] at htrace
    obtain ⟨u, -, hrest⟩ := htrace.take
    cases hrest with
    | cons hstep htail =>
      obtain ⟨hmark, hsome, hkept⟩ := logsOut_marks hc hpath hstep hx
      exact (htail.inv _ _ hkeep (.inr ⟨hkept.binding hbound, hmark, hsome⟩)
        fun y hy => hdaemon y (List.mem_append_left _ hy)).1
  -- the site's records at that time
  have hrecords : ∀ q, RecordedBy w₁.clock q w₁ := by
    have hnone : ∀ q, RecordedBy w₀.clock q w₀ := fun q f hf => by rw [hempty] at hf; cases hf
    exact (hbefore.inv (I := fun _ => True) (C := fun _ => True) (J := fun w => ∀ q, RecordedBy w.clock q w)
      (D := fun _ => True) (fun _ _ _ _ => trivial) (fun w v w' tr h _ _ _ hw => serves_recorded h hw)
      (fun _ _ _ _ => trivial) (fun _ _ _ _ => trivial) trivial hnone).2
  obtain ⟨s', w', s'', w'', hrun, htr, hserves, hheard, -⟩ := hafter.split
  have hmem : ∀ m ∈ ms₁, ∀ y ∈ m.entries, y ∈ b ++ (ms₁ ++ [Moment.act v tr]).flatMap Moment.entries := fun m hm y hy =>
    List.mem_append_right _ (List.mem_flatMap.2 ⟨m, List.mem_append_left _ hm, hy⟩)
  have hmemtr : ∀ y ∈ tr, y ∈ b ++ (ms₁ ++ [Moment.act v tr]).flatMap Moment.entries := fun y hy =>
    List.mem_append_right _ (List.mem_flatMap.2 ⟨Moment.act v tr, by simp, hy⟩)
  have hdead' : DeadAt c path p s' := (hrun.inv (J := fun _ => True) (D := fun _ => True) hkeep
    (fun _ _ _ _ _ _ _ _ _ => trivial) (fun m hm y hy => hdaemon y (hmem m hm y hy)) (fun _ _ _ _ => trivial) hdead trivial).1
  have hspares : v.Spares apr k := hsite (Moment.act v tr) (by simp) v List.mem_cons_self
  have hdeadtr := (htr.inv _ _ hkeep hdead' fun y hy => hdaemon y (hmemtr y hy)).2
  rcases hserves.2.1.cases with hun | ⟨y, hy⟩
  · exact hun.refused
  have hsame : y.cookie = k := Option.some.inj (hy.cookie.symm.trans hcookie)
  have hdenies : y.Denies k := visit_denies hc hpath hword hp (fun z hz => ⟨htr.fired z hz, (hdeadtr z hz).1⟩) hheard hspares hy
  refine hy.refused ?_
  rw [← hsame] at hdenies
  cases hq : pathOf y.cfg y.cookie with
  | none => exact pathless_refused hy.made hdenies hq
  | some q =>
    have hrec : RecordedBy w₁.clock q w' := by
      rw [hsame] at hq
      refine (hrun.inv (D := fun z => z.Spares apr k) hkeep (fun w z w' tr' hz hheard hspares htr' hw => ?_)
        (fun m hm y hy => hdaemon y (hmem m hm y hy)) (fun m hm z hz => hsite m (List.mem_append_left _ hm) z hz) hdead
        (hrecords q)).2
      exact serves_frame hq (fun x hx => visit_denies hc hpath hword hp htr' hheard hspares hx) hz hw
    have hpre : RecordedBy w₁.clock q y.pre := by
      rw [hy.pre]
      exact fun f hf => hrec f (hserves.1.files q f hf)
    exact denied_refused hy.made hdenies hq hpre (by rw [hy.pre]; exact hlate)

end

/-- The daemon's answer two hours after Ann's logout. -/
def annDenied (_ : Nat) (_ : Str) : Option Str := some "430 CHECK: Already logged out".toList

theorem annDenied_line : ∀ t sent line, annDenied t sent = some line → OneLine line := by
  intro t sent line h
  obtain rfl := Option.some.inj h
  exact oneLine_of_isOneLine (by decide)

def annLoggedOut (d : Done) : Entry Store Event Outcome := ⟨wikiStore, annLogout, .answered d, annGone⟩

theorem signed_out_ann : ∃ v : Visit, v.cookie apr = some wikiCookie ∧ v.Made apr ∧ v.Refused := by
  obtain ⟨answer, post, hrun, hheard⟩ : ∃ answer post,
      Prog.run (play annDenied) ((wikiVisit 7403 .declined (emptyWorld 7403)).prog apr) (emptyWorld 7403) = some (answer, post) ∧
        post.heard = [⟨⟨0, true, false, 3⟩, "CHECK cosign-wiki=xyz".toList, "430 CHECK: Already logged out".toList, 7403⟩] := by
    refine ⟨_, _, rfl, ?_⟩
    rfl
  have hmade : (wikiVisit 7403 answer post).Made apr := plays_visit annDenied_line hrun
  have hanswers : (wikiVisit 7403 answer post).answers =
      [⟨⟨0, true, false, 3⟩, "CHECK cosign-wiki=xyz".toList, "430 CHECK: Already logged out".toList, 7403⟩] := hheard
  obtain ⟨d₁, hlogout, hd₁⟩ := annLogout_step
  obtain ⟨d, t, hcheck, hout⟩ : ∃ d t, step wikiConfig annGone wikiCheck = some (.answered d, t) ∧
      Reply.line 430 "CHECK: Already logged out".toList ∈ d.out := by
    refine ⟨_, _, rfl, ?_⟩
    exact List.mem_cons_self
  have hgives : Heard (wikiVisit 7403 answer post) [⟨annGone, wikiCheck, .answered d, t⟩] := by
    intro a ha
    rw [hanswers, List.mem_singleton] at ha
    subst ha
    exact ⟨_, List.mem_cons_self, wikiSession, .calm 7403, d, 430, _, rfl, rfl, hout, rfl⟩
  refine ⟨wikiVisit 7403 answer post, rfl, hmade, ?_⟩
  have hbefore : SideBySide wikiConfig apr wikiStore (emptyWorld 110) [.event (annLoggedOut d₁)] annGone (emptyWorld 110) :=
    .event hlogout (.nil _ _)
  have hlog : ([.event (annLoggedOut d₁)] : List (Moment Store Event Outcome Visit)).flatMap Moment.entries =
      [] ++ annLoggedOut d₁ :: [] := rfl
  have hafter : SideBySide wikiConfig apr annGone (emptyWorld 110)
      ([] ++ .act (wikiVisit 7403 answer post) [⟨annGone, wikiCheck, .answered d, t⟩] :: []) t post :=
    .act (.cons hcheck (.nil t)) ⟨⟨show (110 : Nat) ≤ 7403 by decide, fun _ _ h => h, rfl⟩, hmade, rfl⟩ hgives (.nil t post)
  have hpath : mkcookiepath none wikiConfig.hashlen "cosign=abc".toList maxPathLen = some "cosign=abc".toList := rfl
  have hp : mkcookiepath none wikiConfig.hashlen wikiCookie maxPathLen = some wikiCookie := rfl
  refine signed_out (fun _ => rfl) (by decide) hpath (by decide) (by decide +kernel) hp hbefore hlog
    (annLogout_logsOut hd₁) rfl hafter rfl (show (110 : Nat) + 60 < 7403 by decide) ?_ ?_
  · intro y hy
    obtain rfl : y = ⟨annGone, wikiCheck, .answered d, t⟩ := by simpa [Moment.entries] using hy
    refine ⟨fun now ls hev => (by cases hev), sparesLogin_of_not_overwritten fun _ _ _ hev => ?_, ?_⟩
    · obtain ⟨-, rfl, -⟩ := Event.command.inj hev
      rfl
    · rintro (⟨hnone, -⟩ | ⟨ses, env, line, cookie, scpath, rcookie, npath, lpath, f, hev, hmv, -⟩)
      · cases hnone
      · obtain ⟨-, -, rfl⟩ := Event.command.inj hev
        obtain ⟨cmd, rest, hparse, hcmd, -⟩ := hmv.line
        have hwords : acavParse "CHECK cosign-wiki=xyz".toList = ["CHECK".toList, wikiCookie] := by decide
        obtain ⟨rfl, -⟩ := List.cons.inj (hwords.symm.trans hparse)
        exact absurd hcmd (by decide)
  · intro m hm z hz
    obtain rfl : m = .act (wikiVisit 7403 answer post) [⟨annGone, wikiCheck, .answered d, t⟩] := by simpa using hm
    obtain rfl : z = wikiVisit 7403 answer post := by simpa [Moment.acts] using hz
    rintro a ha c - - ⟨hsent, -⟩
    rw [hanswers, List.mem_singleton] at ha
    subst ha
    cases hsent

end Cosign.Filter
