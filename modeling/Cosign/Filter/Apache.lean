import Cosign.Cgi.Logout
import Cosign.Filter.Cookiefs
import Cosign.Filter.Cookies
import Cosign.Filter.Latency
/-!
# The Apache filter

`cosign_auth` lets a request through or sends it to the login page, and
`cosign_handler` takes the service cookie that the login page hands back. What
`cosign_cookie_valid` is to them is a parameter here.

Between them a login goes round: from the filter to `cosign.cgi`, back to the
filter's handler, and from there to where it began.
-/

namespace Cosign.Filter

open Lib

/-! ## The module -/

/-- What `mod_cosign` uses of `cosign_host_config`, and `cosign_cookie_valid`. -/
structure ApacheConfig where
  common : HostConfig
  configured : Bool
  protect : Bool
  isPublic : Bool
  host : Option Str
  redirect : Option Str
  service : Option Str
  posterror : Option Str
  siteentry : Option Str
  http : Bool
  noappendport : Bool
  validref : Option Str
  referr : Option Str
  expiretime : Int

inductive HttpMethod where
  | get
  | post
  | other
  deriving DecidableEq

/-- The regular expressions of httpd: what `ap_regexec` returns for a destination,
and `AP_REG_NOMATCH`. -/
structure ApRegex where
  regexec : Str → Int
  regNomatch : Int

structure ApacheRequest where
  handler : Option Str
  method : HttpMethod
  args : Option Str
  cookie : Option Str
  serverName : Str
  port : Nat
  unparsedUri : Str
  now : Nat
  /-- `ap_some_auth_required` -/
  authRequired : Bool

structure ApacheAnswer where
  /-- `none` is `DECLINED`. -/
  status : Option Nat
  location : Option Str
  setCookie : Option Str
  /-- The user, the realm and the factors the request gets. -/
  user : Option Sinfo
  /-- The note `cosign-redirect`. -/
  note : Bool

namespace ApacheAnswer

def declined : ApacheAnswer := ⟨none, none, none, none, false⟩
def of (status : Nat) : ApacheAnswer := { declined with status := some status }
def movedPermanently (dest : Str) : ApacheAnswer := { of 301 with location := some dest }

end ApacheAnswer

/-- `ref` of `cosign_redirect`: the address that was asked for, or the site's own. -/
def refOf (cfg : ApacheConfig) (req : ApacheRequest) : Str :=
  let own : Str :=
    if cfg.http then
      if req.port = 80 ∨ cfg.noappendport then "http://".toList ++ req.serverName ++ req.unparsedUri
      else "http://".toList ++ req.serverName ++ ':' :: dec req.port ++ req.unparsedUri
    else
      if req.port = 443 ∨ cfg.noappendport then "https://".toList ++ req.serverName ++ req.unparsedUri
      else "https://".toList ++ req.serverName ++ ':' :: dec req.port ++ req.unparsedUri
  match cfg.siteentry with
  | some entry => if strcaseeq entry "none".toList then own else entry
  | none => own

def joinCommas : List Str → Str
  | [] => []
  | [f] => f
  | f :: fs => f ++ ',' :: joinCommas fs

/-- Where `cosign_redirect` sends the browser. -/
def cosignRedirect (cfg : ApacheConfig) (redirect service posterror : Str) (req : ApacheRequest) : Str :=
  if req.method = .post then posterror
  else if cfg.common.reqfv = [] then redirect ++ '?' :: service ++ '&' :: refOf cfg req
  else redirect ++ '?' :: "factors=".toList ++ joinCommas cfg.common.reqfv ++ '&' :: service ++ '&' :: refOf cfg req

/-- `strtok(s, "/")`: what it makes of the string itself. -/
def cutAtSlash (s : Str) : Str := s.takeWhile (· = '/') ++ (s.dropWhile (· = '/')).takeWhile (· ≠ '/')

/-- The cookie of the service, if the request has one that can be asked about. -/
def authCookie (apr : Apr) (expiretime : Int) (service : Str) (req : ApacheRequest) : Option Str :=
  match req.cookie with
  | none => none
  | some data =>
    match (apacheScan apr service (data.length + 1) data).join with
    | none => none
    | some pair =>
      let (name, value) := apr.getword pair '='
      if value.length < 120 then none
      else
        let cookie := name ++ '=' :: value
        let misc := (Cgi.strtok '/' cookie).bind fun x => Cgi.strtok '/' x.2
        let cookietime : Int := (misc.map fun x => atoi x.1).getD 0
        if 0 < cookietime ∧ (req.now : Int) - cookietime > expiretime then none
        else if validchars (cutAtSlash cookie) then some (cutAtSlash cookie)
        else none

/-- What `cosign_auth` answers after `cosign_cookie_valid`. -/
def authAnswer (again : ApacheAnswer) (v : Valid) : ApacheAnswer :=
  match v.rc with
  | .error => .of 503
  | .ok => { ApacheAnswer.declined with user := some v.si }
  | _ => again

/-- What `cosign_handler` answers after `cosign_cookie_valid` of the cookie `pair`. -/
def handled (pair dest : Str) (now : Nat) (v : Valid) : ApacheAnswer :=
  match v.rc with
  | .retry => .movedPermanently dest
  | .ok =>
    let full := (v.rekey.getD none).getD pair ++ '/' :: dec now ++ "; path=/".toList
    { ApacheAnswer.movedPermanently dest with
      setCookie := some (if hasPrefix "http://".toList dest then full else full ++ "; secure".toList) }
  | _ => .of 503

section
variable {m : Type → Type} [Monad m]

/-- `cosign_auth`. `valid` is `cosign_cookie_valid`. -/
def cosignAuth (apr : Apr) (valid : HostConfig → Str → Rekey → m Valid) (dir server : ApacheConfig) (req : ApacheRequest) :
    m ApacheAnswer :=
  let cfg := if dir.configured then dir else server
  if !cfg.configured || !cfg.protect then pure .declined
  else match cfg.host, cfg.redirect, cfg.service, cfg.posterror with
    | some _, some redirect, some service, some posterror =>
      let again : ApacheAnswer :=
        if cfg.isPublic then .declined
        else if req.authRequired then { ApacheAnswer.declined with note := true }
        else { ApacheAnswer.of 302 with location := some (cosignRedirect cfg redirect service posterror req) }
      match authCookie apr cfg.expiretime service req with
      | none => pure again
      | some cookie => valid cfg.common cookie none >>= fun v => pure (authAnswer again v)
    | _, _, _, _ => pure (.of 503)

/-- `cosign_handler` from the query string on. It asks for the rekeyed cookie. -/
def handleArgs (apr : Apr) (check : Str → m Valid) (regex : ApRegex) (referr : Str) (now : Nat) (args : Str) :
    m ApacheAnswer :=
  let (pair, dest) := apr.getword args '&'
  if strcaseeq (pair.take 7) "cosign-".toList = false then pure (.movedPermanently referr)
  else if regex.regexec dest ≠ 0 then
    if regex.regexec dest ≠ regex.regNomatch then pure (.of 500) else pure (.movedPermanently referr)
  else if validchars pair = false then pure (.movedPermanently referr)
  else check pair >>= fun v => pure (handled pair dest now v)

/-- `cosign_handler` -/
def cosignHandler (apr : Apr) (valid : HostConfig → Str → Rekey → m Valid) (regex : ApRegex) (cfg : ApacheConfig)
    (req : ApacheRequest) : m ApacheAnswer :=
  if req.handler ≠ some "cosign".toList then pure .declined
  else if req.method ≠ .get then pure (.of 405)
  else if !cfg.configured then pure (.of 503)
  else match cfg.validref, cfg.referr, req.args with
    | some _, some referr, some args =>
      handleArgs apr (fun cookie => valid cfg.common cookie (some none)) regex referr req.now args
    | some _, some _, none => pure (.of 403)
    | _, _, _ => pure (.of 503)

end

/-- The last line of `cosign.cgi` after it has registered a cookie it made. -/
def cgiLocation (wkurl scookie ref : Str) : Str := wkurl ++ '?' :: scookie ++ '&' :: ref

/-! ## The browser -/

/-- The query of an address, as the server that is asked gets it. -/
def queryOf (url : Str) : Option Str :=
  match (url.takeWhile (· ≠ '#')).dropWhile (· ≠ '?') with
  | [] => none
  | _ :: q => some q

/-- The cookie that a browser keeps. -/
def jarEntry (setCookie : Str) : Str × Str :=
  let p := setCookie.takeWhile (· ≠ ';')
  (p.takeWhile (· ≠ '='), (p.dropWhile (· ≠ '=')).tail)

/-! ## Small facts -/

theorem takeWhile_cut {d : Char} {a : Str} (ha : d ∉ a) (r : Str) :
    (a ++ d :: r).takeWhile (· ≠ d) = a ∧ (a ++ d :: r).dropWhile (· ≠ d) = d :: r := by
  have hall : ∀ c ∈ a, decide (c ≠ d) = true := fun c hc => decide_eq_true fun he => ha (he ▸ hc)
  constructor
  · rw [List.takeWhile_append_of_pos hall]; simp
  · rw [List.dropWhile_append_of_pos hall]; simp

theorem takeWhile_all {d : Char} {a : Str} (ha : d ∉ a) : a.takeWhile (· ≠ d) = a ∧ a.dropWhile (· ≠ d) = [] := by
  have hall : ∀ c ∈ a, decide (c ≠ d) = true := fun c hc => decide_eq_true fun he => ha (he ▸ hc)
  exact ⟨List.takeWhile_eq_self_iff.2 hall, List.dropWhile_eq_nil_iff.2 hall⟩

theorem dropWhile_head {d a : Char} {s : Str} (h : a ≠ d) : (a :: s).dropWhile (· = d) = a :: s := by
  simp [h]

/-- A token and what is behind its delimiter. -/
theorem strtok_cut {d a : Char} {s : Str} (ha : a ≠ d) (hs : d ∉ s) (r : Str) :
    Cgi.strtok d (a :: s ++ d :: r) = some (a :: s, r) := by
  have hmem : d ∉ a :: s := by
    intro h
    exact (List.mem_cons.1 h).elim (fun h => ha h.symm) hs
  obtain ⟨htake, hdrop⟩ := takeWhile_cut hmem r
  have hskip : (a :: s ++ d :: r).dropWhile (· = d) = a :: s ++ d :: r := dropWhile_head ha
  rw [Cgi.strtok, hskip]
  simp only [List.cons_append] at htake hdrop ⊢
  rw [htake, hdrop]
  rfl

theorem queryOf_cut {a q : Str} (ha : '?' ∉ a ∧ '#' ∉ a) (hq : '#' ∉ q) : queryOf (a ++ '?' :: q) = some q := by
  have hno : '#' ∉ a ++ '?' :: q := by
    intro h
    rcases List.mem_append.1 h with h | h
    · exact ha.2 h
    · rcases List.mem_cons.1 h with h | h
      · cases h
      · exact hq h
  rw [queryOf, (takeWhile_all hno).1, (takeWhile_cut ha.1 q).2]

/-! ## To the login page -/

/-- A site's directives as they have to be for the addresses to come apart again. -/
structure SsoSite (cfg : ApacheConfig) (redirect service : Str) : Prop where
  redirect : '?' ∉ redirect ∧ '#' ∉ redirect
  named : ∃ r, service = "cosign-".toList ++ r
  service : '&' ∉ service ∧ '#' ∉ service ∧ '=' ∉ service ∧ ';' ∉ service
  factors : ∀ f ∈ cfg.common.reqfv, '&' ∉ f ∧ '#' ∉ f

theorem joinCommas_mem {fs : List Str} {c : Char} (h : c ∈ joinCommas fs) : c = ',' ∨ ∃ f ∈ fs, c ∈ f := by
  induction fs using joinCommas.induct with
  | case1 => cases h
  | case2 f => exact .inr ⟨f, List.mem_cons_self, h⟩
  | case3 f fs hne ih =>
    rw [joinCommas] at h
    · rcases List.mem_append.1 h with h | h
      · exact .inr ⟨f, List.mem_cons_self, h⟩
      · rcases List.mem_cons.1 h with rfl | h
        · exact .inl rfl
        · rcases ih h with h | ⟨g, hg, hc⟩
          · exact .inl h
          · exact .inr ⟨g, List.mem_cons_of_mem _ hg, hc⟩
    · exact hne

/-- A service and an address behind it are found by `cosign.cgi`. -/
theorem parse_service {service : Str} (ref : Str) {cfg : ApacheConfig} {redirect : Str} (h : SsoSite cfg redirect service) :
    Cgi.strtok '&' (service ++ '&' :: ref) = some (service, ref) ∧ hasPrefix "cosign-".toList service = true ∧
      Cgi.cutSemicolon service = service ∧ service ≠ "basic".toList ∧ hasPrefix "factors=".toList service = false := by
  obtain ⟨r, rfl⟩ := h.named
  refine ⟨?_, List.isPrefixOf_iff_prefix.2 ⟨r, rfl⟩, ?_, ?_, rfl⟩
  · exact strtok_cut (a := 'c') (s := "osign-".toList ++ r) (by decide) (fun hm => h.service.1 (List.mem_cons_of_mem _ hm)) ref
  · rw [Cgi.cutSemicolon, if_neg]
    intro hlast
    exact h.service.2.2.2 (List.mem_of_getLast? hlast)
  · intro he
    exact absurd (congrArg List.head? he) (by simp)

/-- The login page reads from its query string what the filter put there. -/
theorem redirect_parsed {cfg : ApacheConfig} {redirect service posterror : Str} (h : SsoSite cfg redirect service)
    {req : ApacheRequest} (hget : req.method ≠ .post) (href : refOf cfg req ≠ [] ∧ '#' ∉ refOf cfg req) (creq : Cgi.Request)
    (hqs : creq.qs = queryOf (cosignRedirect cfg redirect service posterror req)) :
    Cgi.parseQuery creq =
      some ⟨creq.basicArg, if cfg.common.reqfv = [] then none else some (joinCommas cfg.common.reqfv), some service, some (refOf cfg req)⟩ := by
  obtain ⟨hstr, hpre, hsemi, hbasic, hnofactor⟩ := parse_service (refOf cfg req) h
  have hsharp : '#' ∉ service ++ '&' :: refOf cfg req := by
    intro hm
    rcases List.mem_append.1 hm with hm | hm
    · exact h.service.2.1 hm
    · rcases List.mem_cons.1 hm with hm | hm
      · cases hm
      · exact href.2 hm
  rw [cosignRedirect, if_neg hget] at hqs
  by_cases hf : cfg.common.reqfv = []
  · rw [if_pos hf] at hqs
    have hq : creq.qs = some (service ++ '&' :: refOf cfg req) := by
      rw [hqs, show redirect ++ '?' :: service ++ '&' :: refOf cfg req = redirect ++ '?' :: (service ++ '&' :: refOf cfg req) by simp]
      exact queryOf_cut h.redirect hsharp
    have hne : service ++ '&' :: refOf cfg req ≠ [] := by simp
    rw [if_pos hf, Cgi.parseQuery, hq]
    obtain ⟨c, q, hcq⟩ := List.exists_cons_of_ne_nil hne
    rw [hcq] at hstr ⊢
    simp only [hstr, hbasic, decide_false, Bool.and_false, Bool.false_or, Bool.false_eq_true, if_false, hnofactor, hsemi, hpre,
      Bool.not_true, href.1]
  · rw [if_neg hf] at hqs
    have hjoin : '&' ∉ joinCommas cfg.common.reqfv ∧ '#' ∉ joinCommas cfg.common.reqfv := by
      constructor
      · intro hm
        rcases joinCommas_mem hm with hm | ⟨f, hfm, hm⟩
        · cases hm
        · exact (h.factors f hfm).1 hm
      · intro hm
        rcases joinCommas_mem hm with hm | ⟨f, hfm, hm⟩
        · cases hm
        · exact (h.factors f hfm).2 hm
    have hq : creq.qs = some ("factors=".toList ++ joinCommas cfg.common.reqfv ++ '&' :: (service ++ '&' :: refOf cfg req)) := by
      rw [hqs]
      have hshape : redirect ++ '?' :: "factors=".toList ++ joinCommas cfg.common.reqfv ++ '&' :: service ++ '&' :: refOf cfg req =
          redirect ++ '?' :: ("factors=".toList ++ joinCommas cfg.common.reqfv ++ '&' :: (service ++ '&' :: refOf cfg req)) := by simp
      rw [hshape]
      refine queryOf_cut h.redirect fun hm => ?_
      rcases List.mem_append.1 hm with hm | hm
      · rcases List.mem_append.1 hm with hm | hm
        · exact absurd hm (by decide)
        · exact hjoin.2 hm
      · rcases List.mem_cons.1 hm with hm | hm
        · cases hm
        · exact hsharp hm
    have hfirst : Cgi.strtok '&' ("factors=".toList ++ joinCommas cfg.common.reqfv ++ '&' :: (service ++ '&' :: refOf cfg req)) =
        some ("factors=".toList ++ joinCommas cfg.common.reqfv, service ++ '&' :: refOf cfg req) := by
      refine strtok_cut (a := 'f') (s := "actors=".toList ++ joinCommas cfg.common.reqfv) (by decide) (fun hm => ?_) _
      rcases List.mem_append.1 hm with hm | hm
      · exact absurd hm (by decide)
      · exact hjoin.1 hm
    have hfp : hasPrefix "factors=".toList ("factors=".toList ++ joinCommas cfg.common.reqfv) = true :=
      List.isPrefixOf_iff_prefix.2 ⟨_, rfl⟩
    have hnb : "factors=".toList ++ joinCommas cfg.common.reqfv ≠ "basic".toList := by
      intro he
      exact absurd (congrArg List.head? he) (by simp)
    have hdrop : ("factors=".toList ++ joinCommas cfg.common.reqfv).drop 8 = joinCommas cfg.common.reqfv := rfl
    rw [if_neg hf, Cgi.parseQuery, hq]
    have hcons : "factors=".toList ++ joinCommas cfg.common.reqfv ++ '&' :: (service ++ '&' :: refOf cfg req) =
      'f' :: ("actors=".toList ++ joinCommas cfg.common.reqfv ++ '&' :: (service ++ '&' :: refOf cfg req)) := rfl
    rw [hcons] at hfirst ⊢
    simp only [hfirst, hnb, decide_false, Bool.and_false, Bool.false_or, Bool.false_eq_true, if_false, hfp, if_true, hdrop, hstr,
      hsemi, hpre, Bool.not_true, href.1]

/-! ## Back to the filter -/

/-- A cookie as `mkscookie` makes it for the service, or the daemon on a rekey. -/
structure ServiceCookie (service c : Str) : Prop where
  value : ∃ v, c = service ++ '=' :: v ∧ '=' ∉ v ∧ 120 ≤ v.length
  valid : validchars c = true

theorem serviceCookie_of_made {service c : Str} {r : Nat → UInt8} (hs : validchars service = true)
    (h : mkscookie service scookieLen (some r) = some c) : ServiceCookie service c := by
  obtain ⟨v, hmk, hlen, hv⟩ := mkcookie_value r
  rw [mkscookie, hmk] at h
  dsimp only at h
  split at h
  · cases h
  · cases h
    refine ⟨⟨v, rfl, fun hm => absurd (hv _ hm) (by decide), by omega⟩, ?_⟩
    exact validchars_append.2 ⟨hs, validchars_append (s := ['=']).2 ⟨rfl, valid_of_alphabet hv⟩⟩

variable {m : Type → Type} [Monad m]

/-- The handler takes the cookie and the address apart again, and asks about the
cookie. -/
theorem handler_parsed (apr : Apr) (check : Str → m Valid) {regex : ApRegex} (referr : Str) (now : Nat)
    {wkurl service c ref : Str} (hwk : '?' ∉ wkurl ∧ '#' ∉ wkurl) (hnamed : ∃ r, service = "cosign-".toList ++ r)
    (hc : ServiceCookie service c) (href : (∃ a r, ref = a :: r ∧ a ≠ '&') ∧ '#' ∉ ref) (hre : regex.regexec ref = 0) :
    (queryOf (cgiLocation wkurl c ref)).map (handleArgs apr check regex referr now) =
      some (check c >>= fun v => pure (handled c ref now v)) := by
  obtain ⟨⟨a, r, hr, ha⟩, hsharp⟩ := href
  have hamp : '&' ∉ c := not_mem_of_valid hc.valid rfl
  have hcs : '#' ∉ c := not_mem_of_valid hc.valid rfl
  have hq : queryOf (cgiLocation wkurl c ref) = some (c ++ '&' :: ref) := by
    rw [cgiLocation, show wkurl ++ '?' :: c ++ '&' :: ref = wkurl ++ '?' :: (c ++ '&' :: ref) by simp]
    refine queryOf_cut hwk fun hm => ?_
    rcases List.mem_append.1 hm with hm | hm
    · exact hcs hm
    · rcases List.mem_cons.1 hm with hm | hm
      · cases hm
      · exact hsharp hm
  have hword : apr.getword (c ++ '&' :: ref) '&' = (c, ref) := by
    rw [apr.getword_eq, (takeWhile_cut hamp ref).1, (takeWhile_cut hamp ref).2, List.dropWhile_cons_of_pos (by simp), hr,
      dropWhile_head ha]
  have hpre : strcaseeq (c.take 7) "cosign-".toList = true := by
    obtain ⟨v, rfl, -, -⟩ := hc.value
    obtain ⟨r, rfl⟩ := hnamed
    rfl
  rw [hq, Option.map_some, handleArgs, hword]
  simp only [hpre, hre, hc.valid, Bool.true_eq_false, if_false, ne_eq, not_true_eq_false]

/-- What a browser keeps of the handler's `Set-Cookie`. -/
theorem jar_handled {service c ref : Str} (hservice : '=' ∉ service) (hc : ServiceCookie service c) (now : Nat) {v : Valid}
    {sc : Str} (hno : v.rekey.getD none = none ∨ v.rekey.getD none = some c) {c₀ : Str} (h₀ : v.rekey.getD none = none → c₀ = c)
    (h : (handled c₀ ref now v).setCookie = some sc) : ∃ x, c = service ++ '=' :: x ∧ jarEntry sc = (service, x ++ '/' :: dec now) := by
  obtain ⟨x, hx, -, -⟩ := hc.value
  refine ⟨x, hx, ?_⟩
  have hcookie : (v.rekey.getD none).getD c₀ = c := by
    rcases hno with hn | hn
    · rw [hn, Option.getD_none, h₀ hn]
    · rw [hn, Option.getD_some]
  unfold handled at h
  rw [hcookie] at h
  have hsemi : ';' ∉ c ++ '/' :: dec now := by
    intro hm
    rcases List.mem_append.1 hm with hm | hm
    · exact not_mem_of_valid hc.valid rfl hm
    · rcases List.mem_cons.1 hm with hm | hm
      · cases hm
      · exact absurd (dec_isDigit now _ hm) (by decide)
  have hjar : ∀ t, jarEntry (c ++ '/' :: dec now ++ ';' :: t) = (service, x ++ '/' :: dec now) := by
    intro t
    have hcut : c ++ '/' :: dec now = service ++ '=' :: (x ++ '/' :: dec now) := by rw [hx]; simp
    rw [jarEntry, (takeWhile_cut hsemi t).1, hcut]
    rw [(takeWhile_cut hservice _).1, (takeWhile_cut hservice _).2]
    rfl
  cases hrc : v.rc with
  | ok =>
    rw [hrc] at h
    have := Option.some.inj h
    rw [← this]
    split
    · exact hjar _
    · rw [List.append_assoc]; exact hjar _
  | error => rw [hrc] at h; cases h
  | retry => rw [hrc] at h; cases h
  | loggedOut => rw [hrc] at h; cases h

/-! ## The cookie of the next request -/

/-- The scan of a browser's header stops at the first cookie of the service. -/
theorem scan_header (apr : Apr) (service : Str) {ps : List (Str × Str)} (h : ∀ p ∈ ps, Cgi.IsCookie p) {n : Nat}
    (hn : ps.length < n) :
    apacheScan apr service n (Cgi.cookieHeader ps) =
      some ((ps.find? fun p => strcaseeq p.1 service).map Cgi.cookiePair) := by
  induction ps generalizing n with
  | nil =>
    obtain ⟨k, rfl⟩ := Nat.exists_eq_add_of_lt hn
    rw [show ([] : List (Str × Str)).length + k + 1 = k + 1 by simp, apacheScan]
    rfl
  | cons p ps ih =>
    obtain ⟨k, rfl⟩ : ∃ k, n = k + 1 := ⟨n - 1, by simp only [List.length_cons] at hn; omega⟩
    have hp := h p List.mem_cons_self
    have hsemi := (Cgi.cookiePair_spec hp).1
    have hpair : ∀ t, (apr.getword (Cgi.cookiePair p) '=').1 = p.1 ∧ Cgi.cookiePair p ++ t ≠ [] := by
      intro t
      have hno : '=' ∉ p.1 := fun hm => (hp.2.1 _ hm).1 rfl
      exact ⟨by rw [apr.getword_eq, Cgi.cookiePair, (takeWhile_cut hno _).1], by rw [Cgi.cookiePair]; simp⟩
    have hnext : k ≥ ps.length + 1 := by simp only [List.length_cons] at hn; omega
    have hrec := ih (fun q hq => h q (List.mem_cons_of_mem _ hq)) (n := k) hnext
    rw [apacheScan, List.find?_cons]
    cases ps with
    | nil =>
      have hne := (hpair []).2
      rw [List.append_nil] at hne
      have hword : apr.getword (Cgi.cookiePair p) ';' = (Cgi.cookiePair p, []) := by
        rw [apr.getword_eq, (takeWhile_all hsemi).1, (takeWhile_all hsemi).2]
        rfl
      rw [Cgi.cookieHeader, if_neg hne, hword]
      simp only [(hpair []).1]
      cases strcaseeq p.1 service with
      | true => rfl
      | false => exact hrec
    | cons q ps =>
      have hne := (hpair (';' :: ' ' :: Cgi.cookieHeader (q :: ps))).2
      have hhead : Cgi.cookieHeader (p :: q :: ps) = Cgi.cookiePair p ++ ';' :: ' ' :: Cgi.cookieHeader (q :: ps) := rfl
      have hword : apr.getword (Cgi.cookieHeader (p :: q :: ps)) ';' =
          (Cgi.cookiePair p, ' ' :: Cgi.cookieHeader (q :: ps)) := by
        rw [apr.getword_eq, hhead, (takeWhile_cut hsemi _).1, (takeWhile_cut hsemi _).2]
        simp
      have hskip : skipBlanks (' ' :: Cgi.cookieHeader (q :: ps)) = Cgi.cookieHeader (q :: ps) := by
        obtain ⟨a, r, ha, hblank⟩ : ∃ a r, Cgi.cookieHeader (q :: ps) = a :: r ∧ a ≠ ' ' := by
          obtain ⟨a, r, ha, hb⟩ := (Cgi.cookiePair_spec (h q (by simp))).2.1
          cases ps with
          | nil => exact ⟨a, r, ha, hb⟩
          | cons p' ps =>
            refine ⟨a, r ++ ';' :: ' ' :: Cgi.cookieHeader (p' :: ps), ?_, hb⟩
            rw [show Cgi.cookieHeader (q :: p' :: ps) = Cgi.cookiePair q ++ ';' :: ' ' :: Cgi.cookieHeader (p' :: ps) from rfl, ha]
            rfl
        rw [ha, skipBlanks, List.dropWhile_cons_of_pos (by simp), dropWhile_head hblank]
      rw [if_neg (by rw [hhead]; exact hne), hword]
      simp only [(hpair []).1, hskip]
      cases strcaseeq p.1 service with
      | true => rfl
      | false => exact hrec

theorem header_length (ps : List (Str × Str)) : ps.length ≤ (Cgi.cookieHeader ps).length := by
  induction ps using Cgi.cookieHeader.induct with
  | case1 => exact Nat.le_refl _
  | case2 p =>
    simp only [Cgi.cookieHeader, Cgi.cookiePair, List.length_append, List.length_cons, List.length_nil]
    omega
  | case3 p ps hne ih =>
    rw [Cgi.cookieHeader]
    · simp only [List.length_append, List.length_cons]
      omega
    · exact hne

/-- The filter finds the cookie that its handler has set, until it is stale. -/
theorem authCookie_kept (apr : Apr) {service c x : Str} {expiretime : Int} {t : Nat} {req : ApacheRequest}
    {ps : List (Str × Str)} (hps : ∀ p ∈ ps, Cgi.IsCookie p) (hheader : req.cookie = some (Cgi.cookieHeader ps))
    (hfind : (ps.find? fun p => strcaseeq p.1 service) = some (service, x ++ '/' :: dec t))
    (hc : ServiceCookie service c) (hx : c = service ++ '=' :: x) (hservice : '=' ∉ service)
    (hfresh : (req.now : Int) - atoi (dec t) ≤ expiretime) : authCookie apr expiretime service req = some c := by
  obtain ⟨v, hv, hveq, hvlen⟩ := hc.value
  have hxv : x = v := by simpa using hx.symm.trans hv
  have hslash : '/' ∉ c := not_mem_of_valid hc.valid rfl
  have hscan := scan_header apr service hps (Nat.lt_succ_of_le (header_length ps))
  rw [hfind] at hscan
  have hpair : Cgi.cookiePair (service, x ++ '/' :: dec t) = service ++ '=' :: (x ++ '/' :: dec t) := rfl
  obtain ⟨b, xs, hb⟩ : ∃ b xs, x = b :: xs := List.exists_cons_of_ne_nil (by rw [hxv]; intro h0; rw [h0] at hvlen; simp at hvlen)
  have hbne : b ≠ '=' := by
    rintro rfl
    rw [← hxv, hb] at hveq
    exact hveq List.mem_cons_self
  have hword : apr.getword (service ++ '=' :: (x ++ '/' :: dec t)) '=' = (service, x ++ '/' :: dec t) := by
    rw [apr.getword_eq, (takeWhile_cut hservice _).1, (takeWhile_cut hservice _).2, List.dropWhile_cons_of_pos (by simp), hb,
      List.cons_append, dropWhile_head hbne]
  have hlen : ¬ (x ++ '/' :: dec t).length < 120 := by
    rw [List.length_append, hxv]
    omega
  have hcookie : service ++ '=' :: (x ++ '/' :: dec t) = c ++ '/' :: dec t := by rw [hx]; simp
  obtain ⟨a, r, har⟩ : ∃ a r, c = a :: r := List.exists_cons_of_ne_nil (by rw [hx]; simp)
  have ha : a ≠ '/' := by rintro rfl; rw [har] at hslash; exact hslash List.mem_cons_self
  have hr : '/' ∉ r := fun hm => hslash (har ▸ List.mem_cons_of_mem _ hm)
  have hcut : cutAtSlash (c ++ '/' :: dec t) = c := by
    rw [cutAtSlash, har, List.cons_append, List.takeWhile_cons_of_neg (by simpa using ha), dropWhile_head ha, List.nil_append,
      ← List.cons_append, ← har, (takeWhile_cut hslash _).1]
  have hmisc : ((Cgi.strtok '/' (c ++ '/' :: dec t)).bind fun x => Cgi.strtok '/' x.2) = some (dec t, []) := by
    have hfirst : Cgi.strtok '/' (c ++ '/' :: dec t) = some (c, dec t) := by rw [har]; exact strtok_cut ha hr _
    obtain ⟨d, ds, hds⟩ := List.exists_cons_of_ne_nil (dec_ne_nil t)
    have hno : '/' ∉ dec t := fun hm => absurd (dec_isDigit t _ hm) (by decide)
    have hd : d ≠ '/' := by rintro rfl; rw [hds] at hno; exact hno List.mem_cons_self
    have hskip : (dec t).dropWhile (· = '/') = d :: ds := by rw [hds]; exact dropWhile_head hd
    rw [hfirst, Option.bind_some, Cgi.strtok, hskip]
    simp only []
    rw [← hds, (takeWhile_all hno).1, (takeWhile_all hno).2]
    rfl
  unfold authCookie
  rw [hheader]
  simp only [hscan, Option.map_some, Option.join_some, hpair, hword]
  rw [if_neg hlen, hcookie, hmisc, hcut, Option.map_some, Option.getD_some, if_neg fun h => absurd h.2 (not_lt.2 hfresh),
    if_pos hc.valid]

/-! ## The whole round -/

/-- The directives of a protected site. -/
structure Protects (cfg : ApacheConfig) (redirect service posterror : Str) : Prop where
  on : cfg.configured = true ∧ cfg.protect = true ∧ cfg.isPublic = false
  host : cfg.host.isSome
  set : cfg.redirect = some redirect ∧ cfg.service = some service ∧ cfg.posterror = some posterror

/-- Where the filter sends a request without a cookie. -/
def toLogin (cfg : ApacheConfig) (redirect service posterror : Str) (req : ApacheRequest) : ApacheAnswer :=
  { ApacheAnswer.of 302 with location := some (cosignRedirect cfg redirect service posterror req) }

section
variable {cfg : ApacheConfig} {redirect service posterror : Str} (valid : HostConfig → Str → Rekey → m Valid)

/-- A request at a protected site, up to the cookie. -/
theorem cosignAuth_eq (apr : Apr) (h : Protects cfg redirect service posterror) (server : ApacheConfig)
    {req : ApacheRequest} (hreq : req.authRequired = false) :
    (authCookie apr cfg.expiretime service req = none →
      cosignAuth apr valid cfg server req = pure (toLogin cfg redirect service posterror req)) ∧
    ∀ c, authCookie apr cfg.expiretime service req = some c →
      cosignAuth apr valid cfg server req = (valid cfg.common c none >>= fun v => pure (authAnswer (toLogin cfg redirect service posterror req) v)) := by
  obtain ⟨host, hhost⟩ := Option.isSome_iff_exists.1 h.host
  constructor
  · intro hnone
    unfold cosignAuth
    simp only [h.on.1, h.on.2.1, h.on.2.2, hhost, h.set.1, h.set.2.1, h.set.2.2, hreq, hnone, if_true, Bool.not_true, Bool.or_self,
      Bool.false_eq_true, if_false]
    rfl
  · intro c hc
    unfold cosignAuth
    simp only [h.on.1, h.on.2.1, h.on.2.2, hhost, h.set.1, h.set.2.1, h.set.2.2, hreq, hc, if_true, Bool.not_true, Bool.or_self,
      Bool.false_eq_true, if_false]
    rfl

/-- The handler's directives, and that they let the address through. -/
structure Returns (server : ApacheConfig) (regex : ApRegex) (ref : Str) : Prop where
  configured : server.configured = true
  validref : server.validref.isSome
  referr : server.referr.isSome
  allowed : regex.regexec ref = 0

/-- The browser follows `url` to the handler. -/
structure Follows (url : Str) (back : ApacheRequest) : Prop where
  handler : back.handler = some "cosign".toList
  method : back.method = .get
  args : back.args = queryOf url

/-- The browser sends what it has kept under `entry`'s name, before any other
cookie that the filter takes for it. -/
structure Sends (entry : Str × Str) (next : ApacheRequest) : Prop where
  authRequired : next.authRequired = false
  header : ∃ ps, next.cookie = some (Cgi.cookieHeader ps) ∧ (∀ p ∈ ps, Cgi.IsCookie p) ∧
    ps.find? (fun p => strcaseeq p.1 entry.1) = some entry

theorem cosignHandler_eq (apr : Apr) {server : ApacheConfig} {regex : ApRegex} {ref : Str}
    (h : Returns server regex ref) {wkurl c : Str} (hwk : '?' ∉ wkurl ∧ '#' ∉ wkurl)
    (hnamed : ∃ r, service = "cosign-".toList ++ r) (hc : ServiceCookie service c) (href : (∃ a r, ref = a :: r ∧ a ≠ '&') ∧ '#' ∉ ref)
    {back : ApacheRequest} (hback : Follows (cgiLocation wkurl c ref) back) :
    cosignHandler apr valid regex server back = (valid server.common c (some none) >>= fun v => pure (handled c ref back.now v)) := by
  obtain ⟨validref, hvalid⟩ := Option.isSome_iff_exists.1 h.validref
  obtain ⟨referr, hreferr⟩ := Option.isSome_iff_exists.1 h.referr
  have hparsed := handler_parsed apr (fun cookie => valid server.common cookie (some none)) referr back.now hwk hnamed hc href h.allowed
  obtain ⟨args, hargs, heq⟩ := Option.map_eq_some_iff.1 hparsed
  unfold cosignHandler
  simp only [hback.handler, hback.method, hback.args, hargs, h.configured, hvalid, hreferr, ne_eq, not_true_eq_false, if_false,
    Bool.not_true, Bool.false_eq_true, heq]

/-- The cookie a valid answer leaves with the browser is the one the next request is
decided by, until it is stale. -/
theorem kept_until_stale (apr : Apr) (h : Protects cfg redirect service posterror)
    (hservice : '=' ∉ service) (server : ApacheConfig) {c ref : Str} (hc : ServiceCookie service c) {now : Nat} (hnow : now < 2 ^ 31)
    {v : Valid} (hok : v.rc = .ok) (hrekey : ∀ c', v.rekey.getD none = some c' → ServiceCookie service c') :
    ∃ sc, handled c ref now v = { ApacheAnswer.movedPermanently ref with setCookie := some sc } ∧
      ∀ next, Sends (jarEntry sc) next → (next.now : Int) - now ≤ cfg.expiretime →
        cosignAuth apr valid cfg server next =
          (valid cfg.common ((v.rekey.getD none).getD c) none >>= fun v' => pure (authAnswer (toLogin cfg redirect service posterror next) v')) := by
  obtain ⟨kept, hkept, hgood, hwas⟩ : ∃ kept, (v.rekey.getD none).getD c = kept ∧ ServiceCookie service kept ∧
      (v.rekey.getD none = none ∨ v.rekey.getD none = some kept) := by
    cases hr : v.rekey.getD none with
    | none => exact ⟨c, rfl, hc, .inl rfl⟩
    | some c' => exact ⟨c', rfl, hrekey c' hr, .inr rfl⟩
  obtain ⟨sc, hsc⟩ : ∃ sc, handled c ref now v = { ApacheAnswer.movedPermanently ref with setCookie := some sc } := by
    unfold handled
    rw [hok]
    exact ⟨_, rfl⟩
  refine ⟨sc, hsc, fun next hnext hfresh => ?_⟩
  have hset : (handled c ref now v).setCookie = some sc := by rw [hsc]
  have hsame : v.rekey.getD none = none → c = kept := fun hn => by rw [← hkept, hn, Option.getD_none]
  obtain ⟨x, hx, hjar⟩ := jar_handled hservice hgood now hwas hsame hset
  obtain ⟨ps, hheader, hcookies, hfirst⟩ := hnext.header
  rw [hjar] at hfirst
  rw [← atoi_dec_of_lt hnow] at hfresh
  have hauth := authCookie_kept apr hcookies hheader hfirst hgood hx hservice hfresh
  rw [hkept]
  exact (cosignAuth_eq valid apr h server hnext.authRequired).2 kept hauth

/-- Single sign-on goes round. A request without a cookie is sent to `cosign.cgi`,
which reads from the address what the filter asks for. The cookie that it then
makes is what the handler asks about, and the browser is sent where it wanted to
go first, with the cookie that its next requests are decided by. -/
theorem login_goes_round (apr : Apr) (h : Protects cfg redirect service posterror)
    (hsite : SsoSite cfg redirect service) (hchars : validchars service = true) {server : ApacheConfig} {req : ApacheRequest}
    (hget : req.method ≠ .post) (hauth : req.authRequired = false) (hnone : authCookie apr cfg.expiretime service req = none)
    (href : (∃ a r, refOf cfg req = a :: r ∧ a ≠ '&') ∧ '#' ∉ refOf cfg req) {regex : ApRegex}
    (hreturns : Returns server regex (refOf cfg req)) {wkurl : Str} (hwk : '?' ∉ wkurl ∧ '#' ∉ wkurl) :
    cosignAuth apr valid cfg server req = pure (toLogin cfg redirect service posterror req) ∧
    (∀ creq : Cgi.Request, creq.qs = (toLogin cfg redirect service posterror req).location.bind queryOf →
      Cgi.parseQuery creq =
        some ⟨creq.basicArg, if cfg.common.reqfv = [] then none else some (joinCommas cfg.common.reqfv), some service, some (refOf cfg req)⟩) ∧
    ∀ c r, mkscookie service scookieLen (some r) = some c → ∀ back, Follows (cgiLocation wkurl c (refOf cfg req)) back →
      cosignHandler apr valid regex server back = (valid server.common c (some none) >>= fun v => pure (handled c (refOf cfg req) back.now v)) ∧
      ∀ v : Valid, v.rc = .ok → (∀ c', v.rekey.getD none = some c' → ServiceCookie service c') → back.now < 2 ^ 31 →
        ∃ sc, handled c (refOf cfg req) back.now v = { ApacheAnswer.movedPermanently (refOf cfg req) with setCookie := some sc } ∧
          ∀ next, Sends (jarEntry sc) next → (next.now : Int) - back.now ≤ cfg.expiretime →
            cosignAuth apr valid cfg server next = (valid cfg.common ((v.rekey.getD none).getD c) none >>= fun v' =>
              pure (authAnswer (toLogin cfg redirect service posterror next) v')) := by
  obtain ⟨a, t, hat, -⟩ := href.1
  have hne : refOf cfg req ≠ [] := by rw [hat]; exact List.cons_ne_nil a t
  refine ⟨(cosignAuth_eq valid apr h server hauth).1 hnone, ?_, ?_⟩
  · intro creq hqs
    exact redirect_parsed hsite hget ⟨hne, href.2⟩ creq hqs
  · intro c r hmade back hback
    have hc := serviceCookie_of_made hchars hmade
    refine ⟨cosignHandler_eq valid apr hreturns hwk hsite.named hc href hback, ?_⟩
    intro v hok hrekey hnow
    exact kept_until_stale valid apr h hsite.service.2.2.1 server hc hnow hok hrekey

end

/-! ## Ann at the wiki -/

def wikiSite : ApacheConfig where
  common := wikiFilter
  configured := true
  protect := true
  isPublic := false
  host := some "weblogin.umich.edu".toList
  redirect := some "https://weblogin.umich.edu/".toList
  service := some "cosign-wiki".toList
  posterror := some "https://weblogin.umich.edu/post_error.html".toList
  siteentry := none
  http := false
  noappendport := false
  validref := some "^https://wiki".toList
  referr := some "https://weblogin.umich.edu/validation_error.html".toList
  expiretime := 86400

def wikiAsk (now : Nat) (cookie : Option Str) : ApacheRequest where
  handler := none
  method := .get
  args := none
  cookie := cookie
  serverName := "wiki.umich.edu".toList
  port := 443
  unparsedUri := "/page".toList
  now := now
  authRequired := false

def wikiPage : Str := "https://wiki.umich.edu/page".toList

def wikiValid : Str := "https://wiki.umich.edu/cosign/valid".toList

def wikiBack (now : Nat) (args : Option Str) : ApacheRequest :=
  { wikiAsk now none with handler := some "cosign".toList, args := args, unparsedUri := "/cosign/valid".toList }

def annKnown : Sinfo := { Sinfo.zero with ipaddr := "10.0.0.1".toList, user := "ann".toList, realm := "umich".toList }

/-- The daemon knows her. -/
def annValid (_ : HostConfig) (_ : Str) (_ : Rekey) : Id Valid := ⟨.ok, none, annKnown, []⟩

/-- An expression that every destination matches. -/
def anyDest : ApRegex := ⟨fun _ => 0, 1⟩

def wikiScookie : Str := "cosign-wiki=".toList ++ List.replicate 124 'A'

theorem wiki_protects : Protects wikiSite "https://weblogin.umich.edu/".toList "cosign-wiki".toList
    "https://weblogin.umich.edu/post_error.html".toList :=
  ⟨⟨rfl, rfl, rfl⟩, rfl, ⟨rfl, rfl, rfl⟩⟩

theorem wiki_sso : SsoSite wikiSite "https://weblogin.umich.edu/".toList "cosign-wiki".toList where
  redirect := by decide +kernel
  named := ⟨"wiki".toList, rfl⟩
  service := by decide +kernel
  factors := by rintro f hf; cases hf

/-- Ann is sent to log in, comes back with the cookie, and is let in with it. -/
theorem login_goes_round_wiki : ∃ sc,
    cosignAuth apr annValid wikiSite wikiSite (wikiAsk 100 none) =
      pure (toLogin wikiSite "https://weblogin.umich.edu/".toList "cosign-wiki".toList
        "https://weblogin.umich.edu/post_error.html".toList (wikiAsk 100 none)) ∧
    cosignHandler apr annValid anyDest wikiSite (wikiBack 200 (queryOf (cgiLocation wikiValid wikiScookie wikiPage))) =
      pure { ApacheAnswer.movedPermanently wikiPage with setCookie := some sc } ∧
    cosignAuth apr annValid wikiSite wikiSite (wikiAsk 300 (some (Cgi.cookieHeader [("theme".toList, "dark".toList), jarEntry sc]))) =
      pure { ApacheAnswer.declined with user := some annKnown } := by
  have hget : (wikiAsk 100 none).method ≠ .post := by decide
  have href : (∃ a r, refOf wikiSite (wikiAsk 100 none) = a :: r ∧ a ≠ '&') ∧ '#' ∉ refOf wikiSite (wikiAsk 100 none) :=
    ⟨⟨'h', _, rfl, by decide⟩, by decide +kernel⟩
  have hreturns : Returns wikiSite anyDest (refOf wikiSite (wikiAsk 100 none)) := ⟨rfl, rfl, rfl, rfl⟩
  have hwk : '?' ∉ wikiValid ∧ '#' ∉ wikiValid := by decide +kernel
  obtain ⟨hlogin, -, hround⟩ := login_goes_round (m := Id) annValid apr wiki_protects wiki_sso (by decide +kernel) hget rfl rfl
    href hreturns hwk
  obtain ⟨hhandler, hkept⟩ := hround wikiScookie (fun _ => 0) (by decide +kernel)
    (wikiBack 200 (queryOf (cgiLocation wikiValid wikiScookie wikiPage))) ⟨rfl, rfl, rfl⟩
  obtain ⟨sc, hsc, hnext⟩ := hkept (annValid wikiFilter wikiScookie none) rfl (by rintro c' hc; cases hc) (by decide)
  refine ⟨sc, hlogin, hhandler.trans (congrArg pure hsc), ?_⟩
  have hset : (handled wikiScookie wikiPage 200 (annValid wikiFilter wikiScookie none)).setCookie = some sc := congrArg _ hsc
  have hentry : jarEntry sc = ("cosign-wiki".toList, List.replicate 124 'A' ++ "/200".toList) := by
    have hfull : (handled wikiScookie wikiPage 200 (annValid wikiFilter wikiScookie none)).setCookie =
        some (wikiScookie ++ "/200; path=/; secure".toList) := by decide +kernel
    obtain rfl := Option.some.inj (hfull.symm.trans hset)
    decide +kernel
  refine (hnext (wikiAsk 300 (some (Cgi.cookieHeader [("theme".toList, "dark".toList), jarEntry sc]))) ⟨rfl, _, rfl, ?_, ?_⟩ ?_)
  · intro p hp
    rcases List.mem_cons.1 hp with rfl | hp
    · exact ⟨by decide, by simp, by decide +kernel⟩
    · rw [List.mem_singleton.1 hp, hentry]
      exact ⟨by decide, by simp, by decide +kernel⟩
  · rw [hentry]
    decide +kernel
  · show (300 : Int) - 200 ≤ 86400
    decide

end Cosign.Filter
