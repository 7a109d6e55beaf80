import Cosign.Cgi.GetPath
import Cosign.Daemon.Logout
import Cosign.Libcgi.Form
/-!
# The logout page

`logout.cgi` shows a page to confirm the logout, and logs out when its form is
posted. Whatever the request, it sends nobody to an address that the site did
not allow, and asks the daemon for nothing unless the form was posted. What a
browser posts logs out the session that `cosign.cgi` would have used.
-/

namespace Cosign.Cgi

open Lib

/-! ## The page -/

/-- `regcomp` of the pattern of the configuration, and `regexec` with it. -/
structure LogoutRegex where
  comp : Int
  exec : Str → Int

def regNomatch : Int := 1

/-- `logout_url_check`. `rc` is whether `regexec` returned something else than 0. -/
def logoutUrlCheck (re : LogoutRegex) (url : Str) : Int :=
  if re.comp ≠ 0 then -1
  else
    let rc : Int := if re.exec url ≠ 0 then 1 else 0
    if rc ≠ 0 then (if rc ≠ regNomatch then -1 else 1) else 0

/-- The configuration, and whether the servers' names and the certificates are there. -/
structure LogoutSite where
  re : LogoutRegex
  /-- `sl[ SL_URL ]` after `logout_configure`. -/
  url : Str
  hosts : Bool
  ssl : Bool

structure LogoutRequest where
  remoteAddr : Option Str
  scriptName : Option Str
  requestMethod : Option Str
  queryString : Option Str
  httpCookie : Option Str
  contentType : Option Str
  body : Str

inductive LogoutOut where
  /-- `subfile` of a template with what stands for `u`, `t` and `r`. -/
  | page (tmpl : Str) (url : Str) (title : Str) (error : Option Str)
  | location (url : Str)
  /-- `exit( 1 )` -/
  | failed

structure LogoutResult where
  out : LogoutOut
  /-- The browser's login cookie is overwritten. -/
  clobbered : Bool
  /-- The cookie and the address `cosign_logout` is called with. -/
  asked : Option (Str × Str)

/-- `cosign_logout`: what it sends, if it sends anything. -/
def cosignLogout (cookie ip : Str) : Option Message :=
  if (Message.logout cookie ip).guarded then some (.logout cookie ip) else none

/-- The command the daemons get. -/
def LogoutResult.sent (r : LogoutResult) : Option Message := r.asked.bind fun (cookie, ip) => cosignLogout cookie ip

def verifyLogout : Str := "verify-logout.html".toList
def errorHtml : Str := "error.html".toList

def logoutKeys : CgiList := [("verify".toList, none), ("url".toList, none)]

def fieldOf (cl : CgiList) (key : Str) : Option Str := (cl.find? (·.1 = key)).bind (·.2)

/-- Where the browser is to go: the address of the request if it is allowed. -/
def logoutUrl (site : LogoutSite) : Option Str → Str
  | some u => if hasPrefix "http".toList u ∧ logoutUrlCheck site.re u = 0 then u else site.url
  | none => site.url

/-- The `while` loop over the cookies after the first. One blank is passed over. -/
def laterCookie : List Str → Option Str
  | [] => none
  | t :: ts =>
    let cookie := if t.head? = some ' ' then t.tail else t
    if hasPrefix "cosign=".toList cookie then some cookie else laterCookie ts

/-- The cookie to be logged out, cut at its `/`. -/
def logoutCookie (httpCookie : Option Str) : Option Str :=
  match httpCookie with
  | none => none
  | some data =>
    match strtokAll ';' data with
    | [] => none
    | t :: ts => (if hasPrefix "cosign=".toList t then some t else laterCookie ts).map (·.takeWhile (· ≠ '/'))

def LogoutResult.error (url error : Str) : LogoutResult :=
  ⟨.page errorHtml url "Error: Server Error".toList (some error), false, none⟩

/-- `main`, once the configuration is read. -/
def logoutMain (site : LogoutSite) (req : LogoutRequest) : LogoutResult :=
  match req.remoteAddr with
  | none => .error site.url "REMOTE_ADDR not set".toList
  | some ip =>
    if req.scriptName = none then .error site.url "SCRIPT_NAME not set".toList
    else match req.requestMethod with
      | none => .error site.url "REQUEST_METHOD not set".toList
      | some method =>
        if method = "GET".toList then
          ⟨.page verifyLogout (logoutUrl site req.queryString) "Logout Requested".toList none, false, none⟩
        else
          let p := cgiPost ⟨some method, req.contentType, req.body⟩ logoutKeys
          if p.1 = false then ⟨.failed, false, none⟩
          else
            let url := logoutUrl site (fieldOf p.2 "url".toList)
            if fieldOf p.2 "verify".toList = none then
              ⟨.page verifyLogout url "Logout Requested (again?)".toList none, false, none⟩
            else if site.hosts = false then
              ⟨.page errorHtml url "Server Configuration Error".toList (some ("We were unable to contact the ".toList ++
                "authentication server.  Please quit your web browser to complete logout.".toList)), true, none⟩
            else if site.ssl = false then
              ⟨.page errorHtml url "Server Configuration Error".toList (some ("Failed to initialise connections to ".toList ++
                "the authentication server. Please quit your browser to complete logout.".toList)), true, none⟩
            else ⟨.location url, true, (logoutCookie req.httpCookie).map (·, ip)⟩

/-! ## What it never does -/

/-- The address a result shows or sends the browser to. -/
def LogoutOut.url : LogoutOut → Option Str
  | .page _ url _ _ => some url
  | .location url => some url
  | .failed => none

/-- An address of the site's own, or one the site allows. -/
def AllowedUrl (site : LogoutSite) (u : Str) : Prop :=
  u = site.url ∨ hasPrefix "http".toList u = true ∧ site.re.comp = 0 ∧ site.re.exec u = 0

/-- The form was posted with its field. -/
def Verified (req : LogoutRequest) : Prop :=
  (∃ m, req.requestMethod = some m ∧ m ≠ "GET".toList ∧ strcaseeq m "POST".toList = true) ∧
    req.contentType = some formType ∧
    ∃ cl v, cgiPost ⟨req.requestMethod, req.contentType, req.body⟩ logoutKeys = (true, cl) ∧ fieldOf cl "verify".toList = some v

theorem logoutUrl_allowed (site : LogoutSite) (q : Option Str) : AllowedUrl site (logoutUrl site q) := by
  cases q with
  | none => exact .inl rfl
  | some u =>
    rw [logoutUrl]
    split
    · rename_i h
      refine .inr ⟨h.1, ?_⟩
      have hcheck := h.2
      unfold logoutUrlCheck at hcheck
      split at hcheck
      · cases hcheck
      · rename_i hcomp
        refine ⟨not_not.1 hcomp, ?_⟩
        by_contra hne
        simp [hne, regNomatch] at hcheck
    · exact .inl rfl

theorem cgiPost_ok {env : PostEnv} {cl cl' : CgiList} (h : cgiPost env cl = (true, cl')) :
    (∃ m, env.requestMethod = some m ∧ strcaseeq m "POST".toList = true) ∧ env.contentType = some formType := by
  unfold cgiPost at h
  split at h
  · rename_i method type x hm ht hx
    split at h
    · rename_i hc
      rw [Bool.and_eq_true, decide_eq_true_eq] at hc
      exact ⟨⟨method, hm, hc.1⟩, by rw [ht, hc.2]⟩
    · cases h
  · cases h

/-- What is taken from the header is one of its login cookies, up to a `/`. -/
theorem logoutCookie_mem {h : Option Str} {c : Str} (hc : logoutCookie h = some c) :
    ∃ data t, h = some data ∧ t ∈ strtokAll ';' data ∧ hasPrefix "cosign=".toList (t.dropWhile (· = ' ')) = true ∧
      c = (t.dropWhile (· = ' ')).takeWhile (· ≠ '/') := by
  have hfirst : ∀ {t : Str}, hasPrefix "cosign=".toList t = true → t.dropWhile (· = ' ') = t := by
    intro t ht
    obtain ⟨r, rfl⟩ := List.isPrefixOf_iff_prefix.1 ht
    rfl
  have hlater : ∀ (ts : List Str) (x : Str), laterCookie ts = some x →
      ∃ t ∈ ts, hasPrefix "cosign=".toList (t.dropWhile (· = ' ')) = true ∧ x = t.dropWhile (· = ' ') := by
    intro ts
    induction ts with
    | nil => intro x hx; cases hx
    | cons t ts ih =>
      intro x hx
      simp only [laterCookie] at hx
      by_cases hb : t.head? = some ' '
      · obtain ⟨r, rfl⟩ : ∃ r, t = ' ' :: r := by
          cases t with
          | nil => cases hb
          | cons a r => cases hb; exact ⟨r, rfl⟩
        have hdrop : (' ' :: r).dropWhile (· = ' ') = r.dropWhile (· = ' ') := by simp
        rw [if_pos hb, List.tail_cons] at hx
        split at hx
        · rename_i hp
          cases hx
          exact ⟨_, List.mem_cons_self, by rw [hdrop, hfirst hp]; exact hp, by rw [hdrop, hfirst hp]⟩
        · obtain ⟨u, hu, h1, h2⟩ := ih x hx
          exact ⟨u, List.mem_cons_of_mem _ hu, h1, h2⟩
      · rw [if_neg hb] at hx
        split at hx
        · rename_i hp
          cases hx
          exact ⟨_, List.mem_cons_self, by rw [hfirst hp]; exact hp, (hfirst hp).symm⟩
        · obtain ⟨u, hu, h1, h2⟩ := ih x hx
          exact ⟨u, List.mem_cons_of_mem _ hu, h1, h2⟩
  unfold logoutCookie at hc
  cases h with
  | none => cases hc
  | some data =>
    simp only [] at hc
    cases htok : strtokAll ';' data with
    | nil => rw [htok] at hc; cases hc
    | cons t ts =>
      rw [htok] at hc
      obtain ⟨x, hx, rfl⟩ := Option.map_eq_some_iff.1 hc
      split at hx
      · rename_i hp
        cases hx
        exact ⟨data, t, rfl, by rw [htok]; exact List.mem_cons_self, by rw [hfirst hp]; exact hp, by rw [hfirst hp]⟩
      · obtain ⟨u, hu, h1, rfl⟩ := hlater ts x hx
        exact ⟨data, u, rfl, by rw [htok]; exact List.mem_cons_of_mem _ hu, h1, rfl⟩

/-- What the page does with a request: it shows or names an address that the site
allows, and takes the login cookie from the browser, or asks for its logout, only
when its form was posted. -/
theorem logoutMain_cases (site : LogoutSite) (req : LogoutRequest) :
    (∀ u, (logoutMain site req).out.url = some u → AllowedUrl site u) ∧
      ((logoutMain site req).clobbered = true → Verified req) ∧
      ∀ c ip, (logoutMain site req).asked = some (c, ip) →
        (logoutMain site req).clobbered = true ∧ req.remoteAddr = some ip ∧
          ∃ data t, req.httpCookie = some data ∧ t ∈ strtokAll ';' data ∧
            hasPrefix "cosign=".toList (t.dropWhile (· = ' ')) = true ∧ c = (t.dropWhile (· = ' ')).takeWhile (· ≠ '/') := by
  have hown : AllowedUrl site site.url := .inl rfl
  unfold logoutMain
  cases hip : req.remoteAddr with
  | none => exact ⟨by rintro u ⟨⟩; exact hown, by rintro ⟨⟩, by rintro c ip ⟨⟩⟩
  | some ip =>
    simp only []
    split
    · exact ⟨by rintro u ⟨⟩; exact hown, by rintro ⟨⟩, by rintro c ip ⟨⟩⟩
    · cases hm : req.requestMethod with
      | none => exact ⟨by rintro u ⟨⟩; exact hown, by rintro ⟨⟩, by rintro c ip ⟨⟩⟩
      | some method =>
        simp only []
        split
        · exact ⟨by rintro u ⟨⟩; exact logoutUrl_allowed site _, by rintro ⟨⟩, by rintro c ip ⟨⟩⟩
        · rename_i hget
          generalize hp : cgiPost ⟨some method, req.contentType, req.body⟩ logoutKeys = p
          split
          · exact ⟨by rintro u ⟨⟩, by rintro ⟨⟩, by rintro c ip ⟨⟩⟩
          · rename_i hok
            have hp' : cgiPost ⟨some method, req.contentType, req.body⟩ logoutKeys = (true, p.2) := by
              rw [hp]; exact Prod.ext (by simpa using hok) rfl
            obtain ⟨⟨m, hme, hpost⟩, htype⟩ := cgiPost_ok hp'
            cases hme
            split
            · exact ⟨by rintro u ⟨⟩; exact logoutUrl_allowed site _, by rintro ⟨⟩, by rintro c ip ⟨⟩⟩
            · rename_i hv
              obtain ⟨v, hv⟩ := Option.ne_none_iff_exists'.1 hv
              have hver : Verified req := ⟨⟨method, hm, hget, hpost⟩, htype, p.2, v, by rw [hm]; exact hp', hv⟩
              split
              · exact ⟨by rintro u ⟨⟩; exact logoutUrl_allowed site _, fun _ => hver, by rintro c ip ⟨⟩⟩
              · split
                · exact ⟨by rintro u ⟨⟩; exact logoutUrl_allowed site _, fun _ => hver, by rintro c ip ⟨⟩⟩
                · refine ⟨by rintro u ⟨⟩; exact logoutUrl_allowed site _, fun _ => hver, ?_⟩
                  intro c ip' hc
                  obtain ⟨x, hx, heq⟩ := Option.map_eq_some_iff.1 hc
                  cases heq
                  exact ⟨rfl, rfl, logoutCookie_mem hx⟩

theorem cosignLogout_valid {cookie ip : Str} {m : Message} (h : cosignLogout cookie ip = some m) :
    m = .logout cookie ip ∧ validchars cookie = true := by
  unfold cosignLogout at h
  split at h
  · rename_i hg
    exact ⟨(Option.some.inj h).symm, hg⟩
  · cases h

/-- Whatever is asked of it, the page sends the browser only where the site
allows. It asks for a logout only when its own form was posted, for a login
cookie the browser sent and with the address it came from, and it takes the
cookie from the browser with it. What the daemons get is that `LOGOUT`, and its
cookie is of valid characters. -/
theorem logout_guarded (site : LogoutSite) (req : LogoutRequest) :
    (∀ u, (logoutMain site req).out.url = some u → AllowedUrl site u) ∧
      ((logoutMain site req).clobbered = true → Verified req) ∧
      (∀ c ip, (logoutMain site req).asked = some (c, ip) →
        (logoutMain site req).clobbered = true ∧ req.remoteAddr = some ip ∧
          ∃ data t, req.httpCookie = some data ∧ t ∈ strtokAll ';' data ∧
            hasPrefix "cosign=".toList (t.dropWhile (· = ' ')) = true ∧ c = (t.dropWhile (· = ' ')).takeWhile (· ≠ '/')) ∧
      ∀ m, (logoutMain site req).sent = some m →
        ∃ c ip, m = .logout c ip ∧ (logoutMain site req).asked = some (c, ip) ∧ validchars c = true := by
  obtain ⟨hurl, hclobbered, hasked⟩ := logoutMain_cases site req
  refine ⟨hurl, hclobbered, hasked, fun m hm => ?_⟩
  obtain ⟨⟨c, ip⟩, hcall, hsent⟩ := Option.bind_eq_some_iff.1 hm
  obtain ⟨hmessage, hvalid⟩ := cosignLogout_valid hsent
  exact ⟨c, ip, hmessage, hcall, hvalid⟩

/-! ## What a browser sends -/

def cookiePair (p : Str × Str) : Str := p.1 ++ '=' :: p.2

/-- The header of a browser with these cookies. -/
def cookieHeader : List (Str × Str) → Str
  | [] => []
  | [p] => cookiePair p
  | p :: ps => cookiePair p ++ ';' :: ' ' :: cookieHeader ps

/-- A name and a value as a cookie may have them. -/
def IsCookie (p : Str × Str) : Prop := p.1 ≠ [] ∧ (∀ c ∈ p.1, c ≠ '=' ∧ c ≠ ';' ∧ c ≠ ' ') ∧ ';' ∉ p.2

theorem cookiePair_spec {p : Str × Str} (h : IsCookie p) :
    ';' ∉ cookiePair p ∧ (∃ a r, cookiePair p = a :: r ∧ a ≠ ' ') ∧
      (hasPrefix "cosign=".toList (cookiePair p) = true ↔ p.1 = "cosign".toList) := by
  obtain ⟨hne, hname, hvalue⟩ := h
  refine ⟨?_, ?_, ?_⟩
  · intro hm
    rcases List.mem_append.1 hm with hm | hm
    · exact (hname _ hm).2.1 rfl
    · rcases List.mem_cons.1 hm with hm | hm
      · cases hm
      · exact hvalue hm
  · obtain ⟨a, r, ha⟩ := List.exists_cons_of_ne_nil hne
    exact ⟨a, r ++ '=' :: p.2, by rw [cookiePair, ha]; rfl, (hname a (by rw [ha]; exact List.mem_cons_self)).2.2⟩
  · have hcut : ∀ {n v : Str}, '=' ∉ n → (n ++ '=' :: v).takeWhile (· ≠ '=') = n := by
      intro n v hn
      have hall : ∀ c ∈ n, decide (c ≠ '=') = true := fun c hc => decide_eq_true fun he => hn (he ▸ hc)
      rw [List.takeWhile_append_of_pos hall]
      simp
    have hno : '=' ∉ p.1 := fun hm => (hname _ hm).1 rfl
    constructor
    · intro hp
      obtain ⟨r, hr⟩ := List.isPrefixOf_iff_prefix.1 hp
      have hr' : "cosign".toList ++ '=' :: r = p.1 ++ '=' :: p.2 := hr
      have := congrArg (List.takeWhile (· ≠ '=')) hr'
      rw [hcut (by decide), hcut hno] at this
      exact this.symm
    · intro he
      rw [cookiePair, he]
      exact List.isPrefixOf_iff_prefix.2 ⟨p.2, rfl⟩

/-- The header comes apart into the cookies, each but the first behind a blank. -/
theorem strtok_header {p : Str × Str} {ps : List (Str × Str)} (h : ∀ q ∈ p :: ps, IsCookie q) :
    strtokAll ';' (cookieHeader (p :: ps)) = cookiePair p :: ps.map fun q => ' ' :: cookiePair q := by
  have hsplit : ∀ (b : Str), ';' ∉ b → (b ++ cookieHeader (p :: ps)).splitOn ';' =
      (b ++ cookiePair p) :: ps.map fun q => ' ' :: cookiePair q := by
    induction ps generalizing p with
    | nil =>
      intro b hb
      rw [cookieHeader, List.splitOn_eq_singleton fun hm => (List.mem_append.1 hm).elim hb (cookiePair_spec (h p (by simp))).1]
      rfl
    | cons q ps ih =>
      intro b hb
      have hp : ';' ∉ b ++ cookiePair p := fun hm =>
        (List.mem_append.1 hm).elim hb (cookiePair_spec (h p (by simp))).1
      have hhead : cookieHeader (p :: q :: ps) = cookiePair p ++ ';' :: ' ' :: cookieHeader (q :: ps) := rfl
      rw [hhead, ← List.append_assoc, List.splitOn_append_cons_self_of_not_mem hp]
      have := ih (fun x hx => h x (List.mem_cons_of_mem _ hx)) [' '] (by decide)
      rw [List.singleton_append, List.singleton_append] at this
      rw [this]
      rfl
  have hne : cookiePair p ≠ [] := by rw [cookiePair]; simp
  have := hsplit [] (by simp)
  rw [List.nil_append, List.nil_append] at this
  rw [strtokAll, this, List.filter_eq_self.2]
  intro t ht
  rcases List.mem_cons.1 ht with rfl | ht
  · exact decide_eq_true hne
  · obtain ⟨q, -, rfl⟩ := List.mem_map.1 ht
    exact decide_eq_true (by simp)

/-- Both pages find the cookie named cosign, and it is the same. -/
theorem header_cookie {p : Str × Str} {ps : List (Str × Str)} (h : ∀ q ∈ p :: ps, IsCookie q) :
    loginCookie (some (cookieHeader (p :: ps))) = ((p :: ps).find? (·.1 = "cosign".toList)).map cookiePair ∧
      logoutCookie (some (cookieHeader (p :: ps))) =
        (((p :: ps).find? (·.1 = "cosign".toList)).map cookiePair).map (·.takeWhile (· ≠ '/')) := by
  have htok := strtok_header h
  have hdrop : ∀ q ∈ p :: ps, (cookiePair q).dropWhile (· = ' ') = cookiePair q := by
    intro q hq
    obtain ⟨a, r, hqe, ha⟩ := (cookiePair_spec (h q hq)).2.1
    rw [hqe]
    simp [ha]
  have hfind : ∀ qs : List (Str × Str), (∀ q ∈ qs, IsCookie q) →
      (qs.map cookiePair).find? (hasPrefix "cosign=".toList) = (qs.find? (·.1 = "cosign".toList)).map cookiePair := by
    intro qs hqs
    rw [List.find?_map]
    refine congrArg _ (List.find?_congr fun q hq => ?_)
    rw [Bool.eq_iff_iff]
    simpa using (cookiePair_spec (hqs q hq)).2.2
  have hlater : ∀ qs : List (Str × Str), (∀ q ∈ qs, IsCookie q) →
      laterCookie (qs.map fun q => ' ' :: cookiePair q) = (qs.map cookiePair).find? (hasPrefix "cosign=".toList) := by
    intro qs
    induction qs with
    | nil => exact fun _ => rfl
    | cons q qs ih =>
      intro hqs
      have := ih fun x hx => hqs x (List.mem_cons_of_mem _ hx)
      simp only [List.map_cons, laterCookie, List.head?_cons, if_true, List.tail_cons, List.find?_cons, this]
      cases hasPrefix "cosign=".toList (cookiePair q) <;> rfl
  constructor
  · have hmap : ((cookiePair p :: ps.map fun q => ' ' :: cookiePair q).map (·.dropWhile (· = ' '))) =
        (p :: ps).map cookiePair := by
      rw [List.map_cons, List.map_cons, hdrop p List.mem_cons_self, List.map_map]
      refine congrArg _ (List.map_congr_left fun q hq => ?_)
      have := hdrop q (List.mem_cons_of_mem _ hq)
      simpa using this
    have htok' : ((cookieHeader (p :: ps)).splitOn ';').filter (· ≠ []) =
        cookiePair p :: ps.map fun q => ' ' :: cookiePair q := htok
    rw [loginCookie, Option.getD_some, htok', hmap, hfind _ h]
  · simp only [logoutCookie, htok]
    rw [← hfind _ h, List.map_cons, List.find?_cons, hlater ps fun q hq => h q (List.mem_cons_of_mem _ hq)]
    cases hasPrefix "cosign=".toList (cookiePair p) <;> rfl

/-! ## A form that was posted -/

theorem fieldOf_put (cl : CgiList) (key k : Str) (d : Option Str) (hk : cl.knows key = true) :
    fieldOf (cl.put key d) k = if k = key then d else fieldOf cl k := by
  induction cl with
  | nil => cases hk
  | cons e cl ih =>
    simp only [CgiList.put]
    by_cases he : e.1 = key
    · rw [if_pos he]
      by_cases hkk : k = key
      · subst hkk
        have hfind : ((e.1, d) :: cl).find? (·.1 = k) = some (e.1, d) := List.find?_cons_of_pos (by simpa using he)
        rw [fieldOf, hfind, if_pos rfl]
        rfl
      · have h1 : ¬ key = k := fun h => hkk h.symm
        simp [fieldOf, he, h1, hkk]
    · rw [if_neg he]
      have hk' : CgiList.knows cl key = true := by simpa [CgiList.knows, he] using hk
      have := ih hk'
      by_cases hek : e.1 = k
      · have hkk : ¬ k = key := fun h => he (hek.trans h)
        simp [fieldOf, hek, hkk]
      · simp only [fieldOf, List.find?_cons, hek, decide_false] at this ⊢
        exact this

theorem put_knows (cl : CgiList) (key k : Str) (d : Option Str) : (cl.put key d).knows k = cl.knows k := by
  induction cl with
  | nil => rfl
  | cons e cl ih =>
    simp only [CgiList.put]
    split
    · simp [CgiList.knows]
    · simp only [CgiList.knows, List.any_cons] at ih ⊢
      rw [ih]

/-- A field that is in the form with data, every time it is, is set. -/
theorem field_set {key : Str} {fs : List (Str × Str)} (hdata : ∀ f ∈ fs, f.1 = key → f.2 ≠ []) (cl : CgiList)
    (hk : cl.knows key = true) (h : (∃ f ∈ fs, f.1 = key) ∨ (fieldOf cl key).isSome) :
    (fieldOf (fs.foldl CgiList.set cl) key).isSome := by
  induction fs generalizing cl with
  | nil => exact h.resolve_left (by simp)
  | cons f fs ih =>
    have hset : (cl.set f).knows key = true := by
      rw [CgiList.set]
      split
      · rw [put_knows]; exact hk
      · exact hk
    refine ih (fun g hg => hdata g (List.mem_cons_of_mem _ hg)) _ hset ?_
    by_cases hf : f.1 = key
    · refine .inr ?_
      rw [CgiList.set, hf, if_pos hk, if_neg (hdata f List.mem_cons_self hf), fieldOf_put _ _ _ _ hk, if_pos rfl]
      rfl
    · rcases h with ⟨g, hg, hgk⟩ | h
      · refine .inl ⟨g, (List.mem_cons.1 hg).resolve_left ?_, hgk⟩
        rintro rfl
        exact hf hgk
      · refine .inr ?_
        rw [CgiList.set]
        split
        · rename_i hkf
          rw [fieldOf_put _ _ _ _ hkf, if_neg fun he => hf he.symm]
          exact h
        · exact h

/-- What a browser that has these cookies posts, with the form filled in. -/
structure Posts (req : LogoutRequest) (ip : Str) (p : Str × Str) (ps fs : List (Str × Str)) : Prop where
  addr : req.remoteAddr = some ip
  script : req.scriptName ≠ none
  method : req.requestMethod = some "POST".toList
  type : req.contentType = some formType
  cookie : req.httpCookie = some (cookieHeader (p :: ps))
  cookies : ∀ q ∈ p :: ps, IsCookie q
  body : ∃ ts, List.Forall₂ EscapedField fs ts ∧ req.body = joinFields ts
  verify : (∃ f ∈ fs, f.1 = "verify".toList) ∧ ∀ f ∈ fs, f.1 = "verify".toList → f.2 ≠ []

/-- The form logs out the cookie that `cosign.cgi` would have used: the page asks
for it, the daemon reads one line with it, and once the daemon has said 210 the
login is marked. -/
theorem posted_logout {site : LogoutSite} (hh : site.hosts = true) (hs : site.ssl = true) {req : LogoutRequest} {ip : Str}
    {p : Str × Str} {ps fs : List (Str × Str)} (hpost : Posts req ip p ps fs) {q : Str × Str}
    (hq : (p :: ps).find? (·.1 = "cosign".toList) = some q) {c : Str} (hc : c = (cookiePair q).takeWhile (· ≠ '/'))
    (hvalid : validchars c = true) (hip : Unblank ip) {sn : Snet Unit} (hsn : sn.rbuf = []) :
    (loginCookie req.httpCookie).map (·.takeWhile (· ≠ '/')) = some c ∧
      (logoutMain site req).asked = some (c, ip) ∧
      ∃ line, (sn.fill ((Message.logout c ip).bytes.map fun c => (c, ()))).scan.1 = some line ∧
        ∀ cfg path ses env s d t, mkcookiepath none cfg.hashlen c maxPathLen = some path →
          step cfg s (.command ses env line) = some (.answered d, t) → d.answers 210 →
          MarkedAt t path ∧ (t.get path).isSome := by
  obtain ⟨hlogin, hlogout⟩ := header_cookie hpost.cookies
  rw [hq, Option.map_some] at hlogin hlogout
  rw [Option.map_some, ← hc] at hlogout
  refine ⟨?_, ?_, ?_⟩
  · rw [hpost.cookie, hlogin, Option.map_some, hc]
  · obtain ⟨ts, hts, hbody⟩ := hpost.body
    obtain ⟨⟨f, hf, hfk⟩, hdata⟩ := hpost.verify
    have hne : fs ≠ [] := List.ne_nil_of_mem hf
    have hform := form_read_back hts hne "POST".toList [] (by decide) (.inl rfl) logoutKeys
    rw [List.append_nil] at hform
    have hset : (fieldOf (fs.foldl CgiList.set logoutKeys) "verify".toList).isSome :=
      field_set hdata logoutKeys (by decide) (.inl ⟨f, hf, hfk⟩)
    have hverify : fieldOf (fs.foldl CgiList.set logoutKeys) "verify".toList ≠ none := by
      intro h0
      rw [h0] at hset
      cases hset
    have hpostne : "POST".toList ≠ "GET".toList := by decide
    unfold logoutMain
    simp only [hpost.addr, hpost.script, hpost.method, hpost.type, hbody, hform, hpost.cookie, hlogout, hverify, hh, hs,
      if_false, hpostne, Bool.true_eq_false, Option.map_some]
  · have hguard : (Message.logout c ip).guarded = true := hvalid
    have hun : ∀ x ∈ (Message.logout c ip).unguarded, Unblank x := by
      intro x hx
      rw [Message.unguarded, List.mem_singleton] at hx
      exact hx ▸ hip
    obtain ⟨hline, hwords⟩ := Message.received hguard hun hsn
    have hpre : hasPrefix "cosign=".toList c = true := by
      obtain ⟨hqn, -, -⟩ := hpost.cookies q (List.mem_of_find?_eq_some hq)
      have hname : q.1 = "cosign".toList := by simpa using List.find?_some hq
      rw [hc, cookiePair, hname]
      exact List.isPrefixOf_iff_prefix.2 ⟨q.2.takeWhile (· ≠ '/'), rfl⟩
    have hcne : c ≠ [] := by rintro rfl; cases hpre
    have hav : acavParse (unwords (Message.logout c ip).words) = "LOGOUT".toList :: c :: [ip] := by
      rw [hwords, Message.words, List.filter_eq_self.2]
      intro w hw
      simp only [List.mem_cons, List.not_mem_nil, or_false] at hw
      rcases hw with rfl | rfl | rfl
      · rfl
      · exact decide_eq_true hcne
      · exact decide_eq_true hip.1
    refine ⟨_, hline, ?_⟩
    intro cfg path ses env s d t hpath hstep hans
    obtain ⟨hmark, hsome, -⟩ := logsOut_marks
      (x := ⟨s, .command ses env (unwords (Message.logout c ip).words), .answered d, t⟩) hpre hpath hstep
      (.inl ⟨ses, env, _, _, _, d, rfl, hav, rfl, rfl, hans⟩)
    exact ⟨hmark, hsome⟩

def annPost : LogoutRequest :=
  { remoteAddr := some "10.0.0.1".toList
    scriptName := some "/logout".toList
    requestMethod := some "POST".toList
    queryString := none
    httpCookie := some "lang=en; cosign=abc/100".toList
    contentType := some formType
    body := "%76erify=Log+O%75t".toList }

theorem annPost_posts : Posts annPost "10.0.0.1".toList ("lang".toList, "en".toList) [("cosign".toList, "abc/100".toList)]
    [("verify".toList, "Log Out".toList)] where
  addr := rfl
  script := by decide
  method := rfl
  type := rfl
  cookie := by decide
  cookies := by
    have hlang : IsCookie ("lang".toList, "en".toList) := ⟨by decide, by simp, by decide⟩
    have hcosign : IsCookie ("cosign".toList, "abc/100".toList) := ⟨by decide, by simp, by decide⟩
    simp only [List.mem_cons, List.not_mem_nil, or_false]
    rintro q (rfl | rfl)
    · exact hlang
    · exact hcosign
  body := ⟨_, .cons verify_escaped .nil, rfl⟩
  verify := by decide

theorem annPost_logout :
    (loginCookie annPost.httpCookie).map (·.takeWhile (· ≠ '/')) = some "cosign=abc".toList ∧
      (logoutMain ⟨⟨0, fun _ => 1⟩, "https://weblogin/".toList, true, true⟩ annPost).asked =
        some ("cosign=abc".toList, "10.0.0.1".toList) ∧
      ∃ line, (Snet.attach.fill ((Message.logout "cosign=abc".toList "10.0.0.1".toList).bytes.map fun c => (c, ()))).scan.1 = some line ∧
        ∀ cfg path ses env s d t, mkcookiepath none cfg.hashlen "cosign=abc".toList maxPathLen = some path →
          step cfg s (.command ses env line) = some (.answered d, t) → d.answers 210 →
          MarkedAt t path ∧ (t.get path).isSome :=
  posted_logout rfl rfl annPost_posts (q := ("cosign".toList, "abc/100".toList)) (by decide) (by decide) (by decide)
    (unblank_of (by decide)) rfl

end Cosign.Cgi
