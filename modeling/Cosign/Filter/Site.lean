import Cosign.Filter.Apache
import Cosign.Filter.Latency
import Cosign.Lib.Joint
/-!
# A site over many requests

Each request asks `cosign_cookie_valid` at most once, so a run of the Apache
module is a run of the filter's calls. A request gets a user only from the call
it makes, and a browser its cookie.
-/

namespace Cosign.Filter

open Lib

/-! ## Requests -/

inductive Hook where
  | auth
  | handler
  deriving DecidableEq

/-- One request as it meets the module, with the connections it finds. -/
structure Visit where
  hook : Hook
  dir : ApacheConfig
  server : ApacheConfig
  regex : ApRegex
  req : ApacheRequest
  ipaddr : Str
  rounds : Nat
  cl : List Conn
  pre : World
  answer : ApacheAnswer
  post : World

namespace Visit

/-- The configuration the hook goes by. -/
def cfg (v : Visit) : ApacheConfig :=
  match v.hook with
  | .auth => if v.dir.configured then v.dir else v.server
  | .handler => v.server

def prog (apr : Apr) (v : Visit) : FProg ApacheAnswer :=
  let valid (cfg : HostConfig) (cookie : Str) (rekey : Rekey) := cookieValid v.rounds cfg cookie rekey v.ipaddr v.cl
  match v.hook with
  | .auth => cosignAuth apr valid v.dir v.server v.req
  | .handler => cosignHandler apr valid v.regex v.server v.req

def Made (apr : Apr) (v : Visit) : Prop := ∃ ev, Prog.Goes filterStep (v.prog apr) v.pre ev (some v.answer) v.post

/-- What the servers answered meanwhile. -/
def answers (v : Visit) : List Answer := v.post.heard.drop v.pre.heard.length

/-- The cookie of the request: from its header, or from its query string. -/
def cookie (apr : Apr) (v : Visit) : Option Str :=
  match v.hook with
  | .auth => v.cfg.service.bind fun service => authCookie apr v.cfg.expiretime service v.req
  | .handler => v.req.args.map fun args => (apr.getword args '&').1

/-- The request gets no user, and the browser no cookie. -/
def Refused (v : Visit) : Prop := v.answer.user = none ∧ v.answer.setCookie = none

/-- The call a request makes, and what it has from it. -/
structure Asks (apr : Apr) (v : Visit) (x : Call) : Prop where
  made : x.Made
  pre : x.pre = v.pre
  post : x.post = v.post
  cfg : x.cfg = v.cfg.common
  ipaddr : x.ipaddr = v.ipaddr
  cookie : v.cookie apr = some x.cookie
  valid : validchars x.cookie = true
  refused : x.res.rc ≠ .ok → v.Refused
  user : ∀ si, v.answer.user = some si → si = x.res.si

/-- A request that asks nobody is refused. -/
structure Unasked (v : Visit) : Prop where
  refused : v.Refused
  world : v.post = v.pre

end Visit

/-! ## One call at most -/

section
variable {apr : Apr} {v : Visit}

/-- A request that is answered at once. -/
theorem unasked_of_pure {b : ApacheAnswer} {ev : List (Prog.Event FilterOp FilterAns World)}
    (h : Prog.Goes filterStep (pure b : FProg ApacheAnswer) v.pre ev (some v.answer) v.post) (hb : b.user = none)
    (hc : b.setCookie = none) : v.Unasked := by
  obtain ⟨hanswer, hworld⟩ := h.of_pure
  exact ⟨⟨by rw [hanswer, hb], by rw [hanswer, hc]⟩, hworld⟩

/-- A request that makes a call. -/
theorem asks_of_bind (wants : Bool) {cfg : HostConfig} {cookie : Str} {f : Valid → ApacheAnswer}
    {ev : List (Prog.Event FilterOp FilterAns World)}
    (h : Prog.Goes filterStep (cookieValid v.rounds cfg cookie (if wants then some none else none) v.ipaddr v.cl >>= fun r =>
      pure (f r)) v.pre ev (some v.answer) v.post)
    (hcfg : v.cfg.common = cfg) (hcookie : v.cookie apr = some cookie) (hvalid : validchars cookie = true)
    (hrefused : ∀ r : Valid, r.rc ≠ .ok → (f r).user = none ∧ (f r).setCookie = none)
    (huser : ∀ (r : Valid) si, (f r).user = some si → si = r.si) : ∃ x, v.Asks apr x := by
  obtain ⟨res, hres, hanswer⟩ := h.of_map
  refine ⟨⟨cfg, cookie, wants, v.ipaddr, v.pre, res, v.post⟩, ⟨v.rounds, v.cl, ev, hres⟩, rfl, rfl, hcfg.symm, rfl, hcookie,
    hvalid, ?_, ?_⟩
  · intro hrc
    rw [Visit.Refused, hanswer]
    exact hrefused res hrc
  · intro si hsi
    rw [hanswer] at hsi
    exact huser res si hsi

theorem authAnswer_refused {again : ApacheAnswer} (hu : again.user = none) (hc : again.setCookie = none) (r : Valid) :
    (r.rc ≠ .ok → (authAnswer again r).user = none ∧ (authAnswer again r).setCookie = none) ∧
      ∀ si, (authAnswer again r).user = some si → si = r.si := by
  unfold authAnswer
  cases hrc : r.rc with
  | error => exact ⟨fun _ => ⟨rfl, rfl⟩, fun si h => by cases h⟩
  | ok => exact ⟨fun h => absurd rfl h, fun si h => by cases h; rfl⟩
  | retry => exact ⟨fun _ => ⟨hu, hc⟩, fun si h => by rw [hu] at h; cases h⟩
  | loggedOut => exact ⟨fun _ => ⟨hu, hc⟩, fun si h => by rw [hu] at h; cases h⟩

theorem handled_refused (pair dest : Str) (now : Nat) (r : Valid) :
    (r.rc ≠ .ok → (handled pair dest now r).user = none ∧ (handled pair dest now r).setCookie = none) ∧
      ∀ si, (handled pair dest now r).user = some si → si = r.si := by
  unfold handled
  cases hrc : r.rc with
  | error => exact ⟨fun _ => ⟨rfl, rfl⟩, fun si h => by cases h⟩
  | ok => exact ⟨fun h => absurd rfl h, fun si h => by cases h⟩
  | retry => exact ⟨fun _ => ⟨rfl, rfl⟩, fun si h => by cases h⟩
  | loggedOut => exact ⟨fun _ => ⟨rfl, rfl⟩, fun si h => by cases h⟩

theorem authCookie_valid {expiretime : Int} {service c : Str} {req : ApacheRequest}
    (h : authCookie apr expiretime service req = some c) : validchars c = true := by
  unfold authCookie at h
  split at h
  · cases h
  split at h
  · cases h
  dsimp only at h
  split at h
  · cases h
  split at h
  · cases h
  split at h
  · cases h
    assumption
  · cases h

theorem auth_asks {ev : List (Prog.Event FilterOp FilterAns World)} (hook : v.hook = .auth)
    (h : Prog.Goes filterStep (v.prog apr) v.pre ev (some v.answer) v.post) : v.Unasked ∨ ∃ x, v.Asks apr x := by
  have hcfg : v.cfg = if v.dir.configured then v.dir else v.server := by rw [Visit.cfg, hook]
  have hcookie : v.cookie apr = v.cfg.service.bind fun service => authCookie apr v.cfg.expiretime service v.req := by
    rw [Visit.cookie, hook]
  rw [Visit.prog, hook] at h
  dsimp only at h
  unfold cosignAuth at h
  rw [← hcfg] at h
  dsimp only at h
  split at h
  · exact .inl (unasked_of_pure h rfl rfl)
  split at h
  · rename_i host redirect service posterror hhost hredirect hservice hposterror
    rw [hservice, Option.bind_some] at hcookie
    have hagain : ∀ b : ApacheAnswer, (b = if v.cfg.isPublic then ApacheAnswer.declined
        else if v.req.authRequired then { ApacheAnswer.declined with note := true }
        else { ApacheAnswer.of 302 with location := some (cosignRedirect v.cfg redirect service posterror v.req) }) →
        b.user = none ∧ b.setCookie = none := by
      rintro b rfl
      split
      · exact ⟨rfl, rfl⟩
      · split
        · exact ⟨rfl, rfl⟩
        · exact ⟨rfl, rfl⟩
    split at h
    · exact .inl (unasked_of_pure h (hagain _ rfl).1 (hagain _ rfl).2)
    · rename_i c hc
      exact .inr (asks_of_bind false h rfl (hcookie.trans hc) (authCookie_valid hc)
        (fun r => (authAnswer_refused (hagain _ rfl).1 (hagain _ rfl).2 r).1)
        fun r => (authAnswer_refused (hagain _ rfl).1 (hagain _ rfl).2 r).2)
  · exact .inl (unasked_of_pure h rfl rfl)

theorem handler_asks {ev : List (Prog.Event FilterOp FilterAns World)} (hook : v.hook = .handler)
    (h : Prog.Goes filterStep (v.prog apr) v.pre ev (some v.answer) v.post) : v.Unasked ∨ ∃ x, v.Asks apr x := by
  have hcfg : v.cfg = v.server := by rw [Visit.cfg, hook]
  have hcookie : v.cookie apr = v.req.args.map fun args => (apr.getword args '&').1 := by rw [Visit.cookie, hook]
  rw [Visit.prog, hook] at h
  dsimp only at h
  unfold cosignHandler at h
  split at h
  · exact .inl (unasked_of_pure h rfl rfl)
  split at h
  · exact .inl (unasked_of_pure h rfl rfl)
  split at h
  · exact .inl (unasked_of_pure h rfl rfl)
  split at h
  · rename_i validref referr args hvalidref hreferr hargs
    rw [hargs, Option.map_some] at hcookie
    unfold handleArgs at h
    dsimp only at h
    split at h
    · exact .inl (unasked_of_pure h rfl rfl)
    split at h
    · split at h
      · exact .inl (unasked_of_pure h rfl rfl)
      · exact .inl (unasked_of_pure h rfl rfl)
    split at h
    · exact .inl (unasked_of_pure h rfl rfl)
    · rename_i hvalid
      exact .inr (asks_of_bind true h (by rw [hcfg]) hcookie (Bool.not_eq_false _ ▸ hvalid) (fun r => (handled_refused _ _ _ r).1)
        fun r => (handled_refused _ _ _ r).2)
  · exact .inl (unasked_of_pure h rfl rfl)
  · exact .inl (unasked_of_pure h rfl rfl)

theorem Visit.Made.cases (h : v.Made apr) : v.Unasked ∨ ∃ x, v.Asks apr x := by
  obtain ⟨ev, h⟩ := h
  cases hook : v.hook with
  | auth => exact auth_asks hook h
  | handler => exact handler_asks hook h

end

/-! ## Runs -/

/-- Requests one after the other, with time between them. -/
inductive Visits (apr : Apr) : World → List Visit → World → Prop
  | nil (w : World) : Visits apr w [] w
  | cons {w vs t} {v : Visit} : Passes w v.pre → v.Made apr → Visits apr v.post vs t → Visits apr w (v :: vs) t

theorem Passes.refl (w : World) : Passes w w := ⟨Nat.le_refl _, fun _ _ h => h, rfl⟩

theorem Passes.trans {w u t : World} (h : Passes w u) (h' : Passes u t) : Passes w t :=
  ⟨Nat.le_trans h.clock h'.clock, fun p f hf => h.files p f (h'.files p f hf), h'.heard.trans h.heard⟩

/-- The calls that are behind a run of requests, up to the time after the last. -/
structure AsCalls (apr : Apr) (w : World) (vs : List Visit) (t : World) (tr : List Call) (u : World) : Prop where
  calls : Calls w tr u
  passes : Passes u t
  asked : ∀ x ∈ tr, ∃ v ∈ vs, v.Asks apr x

theorem AsCalls.later {apr : Apr} {w w' t u : World} {vs : List Visit} {tr : List Call} (hp : Passes w w')
    (h : AsCalls apr w' vs t tr u) : ∃ u, AsCalls apr w vs t tr u := by
  obtain ⟨hrun, hpasses, hasked⟩ := h
  cases hrun with
  | nil => exact ⟨w, .nil w, hp.trans hpasses, hasked⟩
  | cons hq hx htail => exact ⟨u, .cons (hp.trans hq) hx htail, hpasses, hasked⟩

/-- A run of requests is a run of calls. -/
theorem visits_calls {apr : Apr} {w t : World} {vs : List Visit} (h : Visits apr w vs t) : ∃ tr u, AsCalls apr w vs t tr u := by
  induction h with
  | nil w => exact ⟨[], w, .nil w, Passes.refl w, by simp⟩
  | @cons w vs t v hpasses hmade _ ih =>
    obtain ⟨tr, u, hcalls⟩ := ih
    have hmore : ∀ x ∈ tr, ∃ y ∈ v :: vs, y.Asks apr x := by
      intro x hx
      obtain ⟨y, hy, hasks⟩ := hcalls.asked x hx
      exact ⟨y, List.mem_cons_of_mem _ hy, hasks⟩
    rcases hmade.cases with hun | ⟨x, hx⟩
    · rw [hun.world] at hcalls
      obtain ⟨u', h'⟩ := hcalls.later hpasses
      exact ⟨tr, u', h'.calls, h'.passes, hmore⟩
    · refine ⟨x :: tr, u, .cons (by rw [hx.pre]; exact hpasses) hx.made (by rw [hx.post]; exact hcalls.calls),
        hcalls.passes, ?_⟩
      intro y hy
      rcases List.mem_cons.1 hy with rfl | hy
      · exact ⟨v, List.mem_cons_self, hx⟩
      · exact hmore y hy

theorem Visits.split {apr : Apr} {w t : World} {vs₁ vs₂ : List Visit} {v : Visit} (h : Visits apr w (vs₁ ++ v :: vs₂) t) :
    ∃ u, Visits apr w vs₁ u ∧ Passes u v.pre ∧ v.Made apr := by
  induction vs₁ generalizing w with
  | nil =>
    cases h with
    | cons hp hv _ => exact ⟨w, .nil w, hp, hv⟩
  | cons y vs₁ ih =>
    cases h with
    | cons hp hy htail =>
      obtain ⟨u, hu, h⟩ := ih htail
      exact ⟨u, .cons hp hy hu, h⟩

/-! ## Who gets in -/

/-- The cookie of the request, or a name it is given meanwhile. -/
def Visit.Names (apr : Apr) (v : Visit) (name : Str) : Prop :=
  ∃ c, v.cookie apr = some c ∧ (name = c ∨ ∃ a ∈ v.answers, Accepts v.cfg.common c a ∧ Renames c a name)

/-- A server was asked about the request's cookie, and said that it is the user's. -/
def Visit.Hears (apr : Apr) (v : Visit) (si : Sinfo) : Prop :=
  ∃ c, v.cookie apr = some c ∧ ∃ a ∈ v.answers, Accepts v.cfg.common c a ∧ Says a si

theorem Visit.Asks.answers {apr : Apr} {v : Visit} {x : Call} (h : v.Asks apr x) : x.answers = v.answers := by
  rw [Call.answers, Visit.answers, h.pre, h.post]

theorem Visit.Asks.names {apr : Apr} {v : Visit} {x : Call} (h : v.Asks apr x) {name : Str} (hname : x.Names name) :
    v.Names apr name := by
  refine ⟨x.cookie, h.cookie, ?_⟩
  rw [Call.Names, h.answers, h.cfg] at hname
  exact hname

theorem Visit.Asks.hears {apr : Apr} {v : Visit} {x : Call} (h : v.Asks apr x) {si : Sinfo} {a : Answer}
    (ha : a ∈ x.answers) (hacc : Accepts x.cfg x.cookie a) (hsaid : Says a si) : v.Hears apr si := by
  rw [h.answers] at ha
  rw [h.cfg] at hacc
  exact ⟨x.cookie, h.cookie, a, ha, hacc, hsaid⟩

/-- Behind a request that is not refused is an answer that it or an earlier one
has heard. -/
theorem visit_heard {apr : Apr} {w t : World} {vs₁ vs₂ : List Visit} {v : Visit} (hempty : ∀ p, w.files p = none)
    (hrun : Visits apr w (vs₁ ++ v :: vs₂) t) (hin : ¬ v.Refused) :
    ∃ si, (∀ u, v.answer.user = some u → u = si) ∧ (v.cfg.common.checkip = .always → v.ipaddr = si.ipaddr) ∧
      ∃ y ∈ vs₁ ++ [v], y.Hears apr si ∧ v.pre.clock ≤ y.post.clock + idleTime ∧ ∃ name, v.Names apr name ∧ y.Names apr name := by
  obtain ⟨u, hbefore, hpasses, hmade⟩ := hrun.split
  rcases hmade.cases with hun | ⟨x, hx⟩
  · exact absurd hun.refused hin
  have hok : x.res.rc = .ok := by
    by_contra hne
    exact hin (hx.refused hne)
  obtain ⟨tr, u', hcalls⟩ := visits_calls hbefore
  have hkept : AllKept tr x.pre := by
    have hnone : AllKept [] w := fun p f hf => by rw [hempty] at hf; cases hf
    have h := allKept_run hcalls.calls hnone
    rw [hx.pre]
    exact fun p f hf => h p f ((hcalls.passes.trans hpasses).files p f hf)
  obtain ⟨tv, htv, hpost⟩ := hx.made.spec
  have hip := hpost.checkip hok
  rw [hx.cfg, hx.ipaddr] at hip
  refine ⟨x.res.si, fun s hs => hx.user s hs, hip, ?_⟩
  have htold : ∀ a, Told x.cfg x.cookie x.answers x.res.si a → ∃ y ∈ vs₁ ++ [v], y.Hears apr x.res.si ∧
      v.pre.clock ≤ y.post.clock + idleTime ∧ ∃ name, v.Names apr name ∧ y.Names apr name := by
    intro a ha
    have hclock := hpost.clock
    rw [hx.pre, hx.post] at hclock
    have hname : v.Names apr x.cookie := hx.names (.inl rfl)
    exact ⟨v, by simp, hx.hears ha.mem ha.accepts ha.said, Nat.le_add_right_of_le hclock, x.cookie, hname, hname⟩
  rcases hpost.effect with ⟨-, heffect⟩ | ⟨-, -, a, path, f, ha, -⟩
  · rcases heffect hok with ⟨path, f, lsi, habout, hf, hinfo, hyoung, hsame, -⟩ | ⟨a, ha⟩
    · -- the record is the last call's to write it
      obtain ⟨y, a, hkeptBy⟩ := hkept path f hf
      obtain ⟨tr₁, tr₂, htr, -⟩ := hkeptBy.last
      obtain ⟨b, hb, hasks⟩ := hcalls.asked y (by rw [htr]; simp)
      obtain ⟨name, hname, hpath⟩ := about_names habout
      obtain ⟨name', hname', hpath'⟩ := about_names hkeptBy.keeps.about
      obtain rfl := mkcookiepath_inj hpath hpath'
      have hsaid : Says a x.res.si := by
        obtain ⟨lsi', hinfo', hholds⟩ := hkeptBy.keeps.holds
        cases hinfo.symm.trans hinfo'
        exact ⟨hsame.1.trans hholds.1, hsame.2.1.trans hholds.2.1, hsame.2.2.trans hholds.2.2⟩
      have htime : v.pre.clock ≤ b.post.clock + idleTime := by
        have hlate := hkeptBy.keeps.time.2
        rw [hasks.post] at hlate
        rw [hx.pre] at htv
        omega
      exact ⟨b, List.mem_append_left _ hb, hasks.hears hkeptBy.keeps.told.mem hkeptBy.keeps.told.accepts hsaid, htime, name,
        hx.names hname, hasks.names hname'⟩
    · exact htold a ha
  · exact htold a ha

/-- Nobody gets in whom no server has named: to this request, or to one that ended
no longer than `IDLETIME` ago and had the same cookie, or one that was given
its name. -/
theorem visitor_known {apr : Apr} {w t : World} {vs₁ vs₂ : List Visit} {v : Visit} (hempty : ∀ p, w.files p = none)
    (hrun : Visits apr w (vs₁ ++ v :: vs₂) t) (hin : ¬ v.Refused) :
    ∃ si, (∀ u, v.answer.user = some u → u = si) ∧ (v.cfg.common.checkip = .always → v.ipaddr = si.ipaddr) ∧
      (v.Hears apr si ∨
        ∃ y ∈ vs₁, y.Hears apr si ∧ v.pre.clock ≤ y.post.clock + idleTime ∧ ∃ name, v.Names apr name ∧ y.Names apr name) := by
  obtain ⟨si, huser, hip, y, hy, hhears, htime, hnames⟩ := visit_heard hempty hrun hin
  refine ⟨si, huser, hip, ?_⟩
  rcases List.mem_append.1 hy with hy | hy
  · exact .inr ⟨y, hy, hhears, htime, hnames⟩
  · rw [List.mem_singleton.1 hy] at hhears
    exact .inl hhears

/-! ## A browser that comes back from the login page -/

/-- The visit at `t`, over a connection that does not rekey. -/
def wikiVisit (t : Nat) (answer : ApacheAnswer) (post : World) : Visit :=
  ⟨.handler, wikiSite, wikiSite, anyDest, wikiBack t (some "cosign-wiki=xyz&https://wiki.umich.edu/".toList),
    "10.0.0.1".toList, 8, [⟨0, true, false, 3⟩], emptyWorld t, answer, post⟩

theorem plays_visit {script : Nat → Str → Option Str} (hscript : ∀ t sent line, script t sent = some line → OneLine line)
    {v : Visit} (h : Prog.run (play script) (v.prog apr) v.pre = some (v.answer, v.post)) : v.Made apr := by
  obtain ⟨ev, h⟩ := Prog.goes_of_run filterStep (play_step hscript) h
  exact ⟨ev, h⟩

def annStays (_ : Nat) (_ : Str) : Option Str := some "231 10.0.0.1 ann umich".toList

theorem annStays_line : ∀ t sent line, annStays t sent = some line → OneLine line := by
  intro t sent line h
  obtain rfl := Option.some.inj h
  exact oneLine_of_isOneLine (by decide)

/-- Ann comes back from the login page at 100. -/
def annEnters (answer : ApacheAnswer) (post : World) : Visit :=
  ⟨.handler, wikiSite, wikiSite, anyDest, wikiBack 100 (some (wikiScookie ++ "&https://wiki.umich.edu/".toList)),
    "10.0.0.1".toList, 8, [⟨0, true, false, 3⟩], emptyWorld 100, answer, post⟩

/-- She goes on at 130, with the cookie she was given. -/
def annGoesOn (pre : World) (answer : ApacheAnswer) (post : World) : Visit :=
  ⟨.auth, wikiSite, wikiSite, anyDest, wikiAsk 130 (some (wikiScookie ++ "/100".toList)), "10.0.0.1".toList, 8,
    [⟨0, true, false, 3⟩], pre, answer, post⟩

def annVisits : Option ((ApacheAnswer × World) × ApacheAnswer × World) :=
  (Prog.run (play annStays) ((annEnters .declined (emptyWorld 100)).prog apr) (emptyWorld 100)).bind fun r =>
    (Prog.run (play annStays) ((annGoesOn r.2 .declined r.2).prog apr) { r.2 with clock := 130 }).map fun r' => (r, r')

theorem ann_visits : ∃ answer post answer' post',
    Prog.run (play annStays) ((annEnters answer post).prog apr) (emptyWorld 100) = some (answer, post) ∧
    Prog.run (play annStays) ((annGoesOn { post with clock := 130 } answer' post').prog apr) { post with clock := 130 } =
      some (answer', post') ∧
    answer.setCookie.isSome ∧ answer'.user.isSome ∧ post.clock = 100 ∧ post'.heard.length = post.heard.length := by
  have hvisits : annVisits.map (fun r => (r.1.1.setCookie.isSome, r.2.1.user.isSome, r.1.2.clock, r.2.2.heard.length,
      r.1.2.heard.length)) = some (true, true, 100, 1, 1) := by decide +kernel
  obtain ⟨⟨⟨answer, post⟩, answer', post'⟩, hruns, hfacts⟩ := Option.map_eq_some_iff.1 hvisits
  obtain ⟨r, hrun, hrest⟩ := Option.bind_eq_some_iff.1 hruns
  obtain ⟨r', hrun', hr⟩ := Option.map_eq_some_iff.1 hrest
  obtain ⟨rfl, rfl⟩ := Prod.mk.inj hr
  simp only [Prod.mk.injEq] at hfacts
  obtain ⟨hset, huser, hclock, hlength', hlength⟩ := hfacts
  exact ⟨answer, post, answer', post', hrun, hrun', hset, huser, hclock, hlength'.trans hlength.symm⟩

/-- She gets a cookie, and later with it a page, for which no server is asked: the
one that was asked before has named her. -/
theorem visitor_known_ann : ∃ y v : Visit, (∃ t, Visits apr (emptyWorld 100) [y, v] t) ∧ y.answer.setCookie ≠ none ∧
    v.answers = [] ∧ ∃ si, v.answer.user = some si ∧ v.ipaddr = si.ipaddr ∧ y.Hears apr si ∧
      v.pre.clock ≤ y.post.clock + idleTime ∧ ∃ name, v.Names apr name ∧ y.Names apr name := by
  obtain ⟨answer, post, answer', post', hrun, hrun', hset, huser, hclock, hheard⟩ := ann_visits
  have hle : post.clock ≤ 130 := by omega
  have hvisits : Visits apr (emptyWorld 100)
      ([annEnters answer post] ++ annGoesOn { post with clock := 130 } answer' post' :: []) post' :=
    .cons (Passes.refl (emptyWorld 100)) (plays_visit annStays_line hrun)
      (.cons (passes_clock hle) (plays_visit annStays_line hrun') (.nil post'))
  have hquiet : (annGoesOn { post with clock := 130 } answer' post').answers = [] := by
    exact List.drop_eq_nil_of_le hheard.le
  obtain ⟨u, hu⟩ := Option.isSome_iff_exists.1 huser
  obtain ⟨si, hsi, hip, hhears | ⟨y, hy, hhears, htime, hnames⟩⟩ := visitor_known (fun _ => rfl) hvisits
    fun h => Option.some_ne_none u (hu.symm.trans h.1)
  · obtain ⟨-, -, a, ha, -⟩ := hhears
    rw [hquiet] at ha
    cases ha
  · obtain rfl := List.mem_singleton.1 hy
    obtain rfl := hsi u hu
    exact ⟨_, _, ⟨_, hvisits⟩, Option.isSome_iff_ne_none.1 hset, hquiet, u, hu, hip rfl, hhears, htime, hnames⟩

end Cosign.Filter
