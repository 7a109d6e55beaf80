import Cosign.Cgi.Suffix
/-!
# Registering over a query string

From the environment of the CGI to `cosign_register`, where the service is in
the query string. A CHECK is answered by the servers one after another, each
under the protocol it speaks, and they all fill in the one `ui`.
-/

namespace Cosign.Cgi

open Lib

/-! ## The environment -/

/-- The environment of the CGI, and what it gets from outside of it: the time, and
whether the servers' names and the certificates are there. -/
structure Request where
  post : Bool
  ip : Str
  remoteUser : Option Str
  realm : Str
  krbtkt : Option Str
  /-- The argument of the command line begins with basic. -/
  basicArg : Bool
  qs : Option Str
  httpCookie : Option Str
  fields : Str → Option Str
  now : Option Int
  ready : Bool

/-- `strtok(s, c)`: the token, and where the next one is looked for. -/
def strtok (c : Char) (s : Str) : Option (Str × Str) :=
  match s.dropWhile (· = c) with
  | [] => none
  | s => some (s.takeWhile (· ≠ c), (s.dropWhile (· ≠ c)).drop 1)

/-- What is read from the query string. -/
structure Parsed where
  rebasic : Bool
  factor : Option Str
  service : Option Str
  ref : Option Str
  deriving DecidableEq

/-- A `;` at the end is cut off. -/
def cutSemicolon (service : Str) : Str := if service.getLast? = some ';' then service.dropLast else service

/-- The query string. `none` is an error page. -/
def parseQuery (req : Request) : Option Parsed :=
  match req.qs with
  | none => some ⟨req.basicArg, none, none, none⟩
  | some [] => some ⟨req.basicArg, none, none, none⟩
  | some qs =>
    match strtok '&' qs with
    | none => none
    | some (p, rest) =>
      let basic := req.remoteUser.isSome && p = "basic".toList
      let rebasic := basic || req.basicArg
      let p := if basic then strtok '&' rest else some (p, rest)
      let (factor, p) := match p with
        | some (p, rest) => if hasPrefix "factors=".toList p then (some (p.drop 8), strtok '&' rest) else (none, some (p, rest))
        | none => (none, none)
      match p with
      | none => some ⟨rebasic, factor, none, none⟩
      | some (service, ref) =>
        let service := cutSemicolon service
        if !hasPrefix "cosign-".toList service then none
        else if ref = [] then none
        else some ⟨rebasic, factor, some service, some ref⟩

/-- The login cookie among those of the header. -/
def loginCookie (httpCookie : Option Str) : Option Str :=
  (((httpCookie.getD []).splitOn ';').filter (· ≠ [])).map (·.dropWhile (· = ' ')) |>.find? (hasPrefix "cosign=".toList)

def maxCookieTime : Int := 86400

/-- The cookie's own time, and the page where it ends the request. -/
def cookieTooOld (now : Option Int) (cookie : Str) : Option Page :=
  match (strtok '/' cookie).bind fun (_, rest) => strtok '/' rest with
  | none => none
  | some (misc, _) =>
    match now with
    | none => some .error
    | some now => if now - atoi misc > maxCookieTime then some .login else none

variable (re : Regex)

/-- `main` -/
def cgi (rounds : Nat) (setup : Setup) (req : Request) : CgiProg Page :=
  match parseQuery req with
  | none => pure .error
  | some ⟨rebasic, factor, service, _⟩ =>
    match loginCookie req.httpCookie with
    | none => pure (if req.post || rebasic then .error else .login)
    | some cookie =>
      if cookie.length < 120 ∨ cookie.length > 1024 then pure .login
      else match cookieTooOld req.now cookie with
        | some page => pure page
        | none =>
          if req.ready = false then pure .error
          else if h : rebasic = true → req.remoteUser.isSome then
            main re rounds setup
              ⟨req.post, cookie.takeWhile (· ≠ '/'), req.ip, req.remoteUser, req.realm, req.krbtkt, rebasic, h, service,
                factor, req.fields⟩
          -- the login of nobody: `snet_writef` reads its name through NULL
          else Prog.orUndef none

/-! ## The factors that are required -/

/-- The search for one factor. Each `match_factor` cuts a factor of the session
and puts back what it cut. -/
def satisfyLoop (suffix : Option Str) (r : Str) : List Str → Bool × List Str
  | [] => (false, [])
  | f :: fs =>
    let (found, f) := matchFactorIn r f suffix
    if found then (true, f :: fs) else ((satisfyLoop suffix r fs).1, f :: (satisfyLoop suffix r fs).2)

/-- The loop over the words of `factor`, until one is not found. -/
def requiredLoop (suffix : Option Str) : List Str → List Str → Bool × List Str
  | [], fs => (true, fs)
  | r :: rs, fs =>
    let (found, fs) := satisfyLoop suffix r fs
    if found then requiredLoop suffix rs fs else (false, fs)

theorem matchFactorIn_unchanged (r s : Str) (suffix : Option Str) : (matchFactorIn r s suffix).2 = s := by
  cases suffix with
  | none =>
    unfold matchFactorIn
    split
    · rfl
    · rfl
  | some x =>
    cases x with
    | cons c x => exact matchFactorIn_snd r s (List.cons_ne_nil c x)
    | nil =>
      unfold matchFactorIn
      split
      · rfl
      · dsimp only
        split
        · rfl
        · next p hp =>
          split
          · next hlen =>
            -- the end of the string is cut at its own NUL
            have hp' : p = [] := List.length_eq_zero_iff.1 (by simpa using hlen)
            subst hp'
            rw [List.length_nil, Nat.sub_zero, List.set_eq_of_length_le (Nat.le_refl _),
              List.set_eq_of_length_le (Nat.le_refl _)]
          · rfl

theorem satisfyLoop_eq (suffix : Option Str) (r : Str) (fs : List Str) :
    satisfyLoop suffix r fs = (fs.any fun f => matchFactor r f suffix, fs) := by
  induction fs with
  | nil => rfl
  | cons f fs ih =>
    have hmatch : matchFactorIn r f suffix = (matchFactor r f suffix, f) :=
      Prod.ext (matchFactorIn_fst r f suffix) (matchFactorIn_unchanged r f suffix)
    rw [satisfyLoop, hmatch, ih]
    cases h : matchFactor r f suffix with
    | true => simp [h]
    | false => simp [h]

/-- The loop decides what `getRegister` asks, and leaves the factors as they were. -/
theorem requiredLoop_eq (suffix : Option Str) (rs fs : List Str) :
    requiredLoop suffix rs fs = (rs.all fun r => fs.any fun f => matchFactor r f suffix, fs) := by
  induction rs with
  | nil => rfl
  | cons r rs ih =>
    rw [requiredLoop, satisfyLoop_eq]
    cases h : fs.any fun f => matchFactor r f suffix with
    | true => simp [h, ih]
    | false => simp [h]

/-! ## A CHECK -/

/-- A server that is asked: the protocol, and the line of its reply if there is
one. -/
abbrev CheckReply := Int × Option Str

/-- `cosign_choose_conn` with `net_check`, from `ui` on. -/
def checkReplies : List CheckReply → UserInfo → Bool × UserInfo
  | [], ui => (false, ui)
  | (protocol, line) :: rest, ui =>
    match line.elim (NetAns.error, ui) (netCheck protocol ui) with
    | (.ok, ui) => (true, ui)
    | (.loggedOut, ui) => (false, ui)
    | (_, ui) => checkReplies rest ui

/-- `cosign_check` -/
def cosignCheck (cookie : Str) (replies : List CheckReply) (ui : UserInfo) : Bool × UserInfo :=
  if validchars cookie then checkReplies replies ui else (false, ui)

/-- A server has replied 2xx with the address `ip` of the session. -/
def Reported (replies : List CheckReply) (ip : Str) : Prop :=
  ∃ protocol line, (protocol, some line) ∈ replies ∧ protocol ≠ 0 ∧ line.head? = some '2' ∧ (acavParse line)[1]? = some ip

theorem netCheck_ipaddr {protocol : Int} {ui : UserInfo} {line : Str} :
    (netCheck protocol ui line).2.ipaddr = ui.ipaddr ∨
      (protocol ≠ 0 ∧ line.head? = some '2' ∧ (acavParse line)[1]? = some (netCheck protocol ui line).2.ipaddr) := by
  unfold netCheck
  split
  · split
    · next w ip user factor more hwords =>
      split
      · exact .inl rfl
      split
      · exact .inl rfl
      · next hprotocol =>
        split
        · exact .inl rfl
        split
        · exact .inr ⟨hprotocol, rfl, by rw [hwords]; rfl⟩
        · exact .inr ⟨hprotocol, rfl, by rw [hwords]; rfl⟩
    · exact .inl rfl
  · exact .inl rfl
  · exact .inl rfl
  · exact .inl rfl

theorem Reported.cons {replies : List CheckReply} {ip : Str} (h : Reported replies ip) (x : CheckReply) :
    Reported (x :: replies) ip := by
  obtain ⟨protocol, line, hmem, hrest⟩ := h
  exact ⟨protocol, line, List.mem_cons_of_mem _ hmem, hrest⟩

/-- The address in `ui` was there before, or a server has reported it. -/
theorem checkReplies_ipaddr (replies : List CheckReply) (ui : UserInfo) :
    (checkReplies replies ui).2.ipaddr = ui.ipaddr ∨ Reported replies (checkReplies replies ui).2.ipaddr := by
  induction replies generalizing ui with
  | nil => exact .inl rfl
  | cons x replies ih =>
    obtain ⟨protocol, line⟩ := x
    have hone : (line.elim (NetAns.error, ui) (netCheck protocol ui)).2.ipaddr = ui.ipaddr ∨
        Reported ((protocol, line) :: replies) (line.elim (NetAns.error, ui) (netCheck protocol ui)).2.ipaddr := by
      cases line with
      | none => exact .inl rfl
      | some line =>
        rcases @netCheck_ipaddr protocol ui line with h | ⟨hprotocol, h2, hip⟩
        · exact .inl h
        · exact .inr ⟨protocol, line, List.mem_cons_self, hprotocol, h2, hip⟩
    have hlater : ∀ ui', (ui'.ipaddr = ui.ipaddr ∨ Reported ((protocol, line) :: replies) ui'.ipaddr) →
        (checkReplies replies ui').2.ipaddr = ui.ipaddr ∨
          Reported ((protocol, line) :: replies) (checkReplies replies ui').2.ipaddr := by
      intro ui' hui'
      rcases ih ui' with h | h
      · rw [h]; exact hui'
      · exact .inr (h.cons _)
    rw [checkReplies]
    generalize line.elim (NetAns.error, ui) (netCheck protocol ui) = r at hone ⊢
    obtain ⟨ans, ui'⟩ := r
    cases ans with
    | ok => exact hone
    | loggedOut => exact hone
    | retry => exact hlater ui' hone
    | error => exact hlater ui' hone

theorem cosignCheck_ipaddr (cookie : Str) (replies : List CheckReply) (ui : UserInfo) :
    (cosignCheck cookie replies ui).2.ipaddr = ui.ipaddr ∨ Reported replies (cosignCheck cookie replies ui).2.ipaddr := by
  unfold cosignCheck
  split
  · exact checkReplies_ipaddr replies ui
  · exact .inl rfl

/-! ## The guard -/

/-- A CHECK of this request: its cookie, `ui` before it, the replies, its answer,
and `ui` after it. -/
structure CheckRun where
  cookie : Str
  before : UserInfo
  replies : List CheckReply
  ok : Bool
  after : UserInfo

/-- `ui`, and the CHECKs so far. -/
structure Checked where
  ui : UserInfo
  runs : List CheckRun

def Checked.start : Checked := ⟨⟨[], [], []⟩, []⟩

/-- What an operation may answer. A CHECK is answered by its servers. -/
def getStep : (o : CgiOp) → Checked → CgiAns o → Checked → Prop
  | .check cookie, t, r, t' =>
    ∃ replies, r = cosignCheck cookie replies t.ui ∧ t' = ⟨r.2, t.runs ++ [⟨cookie, t.ui, replies, r.1, r.2⟩]⟩
  | _, t, _, t' => t' = t

abbrev GetEvent := Prog.Event CgiOp CgiAns Checked

/-- What has to be so when `name` is registered for `service`. -/
structure Allowed (setup : Setup) (req : Request) (rebasic : Bool) (factor : Option Str) (service name : Str)
    (run : CheckRun) : Prop where
  succeeded : cosignCheck run.cookie run.replies run.before = (true, run.after) ∧ run.before = Checked.start.ui
  ip : run.after.ipaddr = req.ip
  reported : req.ip ≠ [] → Reported run.replies req.ip
  factors : ∀ r ∈ commaWords (factor.getD []), ∃ f ∈ run.after.factors, matchFactor r f setup.suffix = true
  unchanged : requiredLoop setup.suffix (commaWords (factor.getD [])) run.after.factors = (true, run.after.factors)
  entry : ∃ s rm, serviceFind re setup.services (serviceName service) = some (s, rm) ∧
    ('=' ∈ service → s.schemeV2 = true) ∧ (s.reauth = true → rebasic = true)
  name : name = service ∨ '=' ∉ service ∧ ∃ tmp, name = service ++ '=' :: tmp

/-- The cookie of the request: the login cookie of its header, cut before its time. -/
def Presented (req : Request) (cookie : Str) : Prop :=
  (loginCookie req.httpCookie).map (·.takeWhile (· ≠ '/')) = some cookie

/-- A service is registered for the cookie and the address of the request, once a
CHECK of that cookie has allowed it. -/
def RegisterAllowed (setup : Setup) (req : Request) (rebasic : Bool) (factor : Option Str) (service : Str) (e : GetEvent) :
    Prop :=
  ∀ cookie ip name, e.op = .register cookie ip name → Presented req cookie ∧ ip = req.ip ∧
    ∃ run ∈ e.pre.runs, run.cookie = cookie ∧ Allowed re setup req rebasic factor service name run

/-- The CGI registers a service of the query string only where it may. -/
def GetGuarded (rounds : Nat) (setup : Setup) (req : Request) : Prop :=
  ∀ rebasic factor service ref, parseQuery req = some ⟨rebasic, factor, some service, ref⟩ →
    ∀ tr page t, Prog.Goes getStep (cgi re rounds setup req) .start tr page t →
      ∀ e ∈ tr, RegisterAllowed re setup req rebasic factor service e

variable {re} {setup : Setup} {req : Request} {rebasic : Bool} {factor : Option Str} {service : Str}

def rwp {α : Type} (re : Regex) (setup : Setup) (req : Request) (rebasic : Bool) (factor : Option Str) (service : Str)
    (p : CgiProg α) (Q : α → Checked → Prop) (t : Checked) : Prop :=
  Prog.wp getStep (fun _ => True) (RegisterAllowed re setup req rebasic factor service) p Q t

theorem rwp_bind {α β : Type} {p : CgiProg α} {f : α → CgiProg β} {Q : β → Checked → Prop} {t : Checked} :
    rwp re setup req rebasic factor service (p >>= f) Q t ↔
      rwp re setup req rebasic factor service p (fun a => rwp re setup req rebasic factor service (f a) Q) t := Prog.wp_bind ..

theorem rwp_mono {α : Type} {p : CgiProg α} {Q R : α → Checked → Prop} (h : ∀ a t, Q a t → R a t) {t : Checked}
    (hp : rwp re setup req rebasic factor service p Q t) : rwp re setup req rebasic factor service p R t := Prog.wp_mono h hp

/-- An operation that registers nothing. -/
theorem rwp_call {α : Type} {o : CgiOp} {f : CgiAns o → CgiProg α} {Q : α → Checked → Prop} {t : Checked}
    (ho : ∀ cookie ip name, o ≠ .register cookie ip name)
    (h : ∀ r t', getStep o t r t' → rwp re setup req rebasic factor service (f r) Q t') :
    rwp re setup req rebasic factor service (cgiCall o >>= f) Q t :=
  fun r t' hs _ => ⟨fun cookie ip name he => absurd he (ho cookie ip name), h r t' hs⟩

theorem registerService_allowed {q : Query} {t : Checked} (hcookie : Presented req q.cookie) (hip : q.ip = req.ip)
    (h : ∀ name, (name = service ∨ '=' ∉ service ∧ ∃ tmp, name = service ++ '=' :: tmp) →
      ∃ run ∈ t.runs, run.cookie = q.cookie ∧ Allowed re setup req rebasic factor service name run) :
    rwp re setup req rebasic factor service (registerService q service) (fun _ _ => True) t := by
  have hreg : ∀ name, (name = service ∨ '=' ∉ service ∧ ∃ tmp, name = service ++ '=' :: tmp) →
      rwp re setup req rebasic factor service (do
        let ok ← cgiCall (.register q.cookie q.ip name)
        return if ok then Page.service else .error) (fun _ _ => True) t := by
    intro name hname ok t' _ _
    refine ⟨fun cookie ip name' he => ?_, trivial⟩
    cases he
    exact ⟨hcookie, hip, h name hname⟩
  unfold registerService
  split
  · exact hreg service (.inl rfl)
  · rename_i hscheme
    refine rwp_call (fun _ _ _ h => by cases h) fun rand t' ht => ?_
    obtain rfl : t' = t := ht
    split
    · trivial
    · rename_i newScookie hnew
      obtain ⟨tmp, -, -, rfl⟩ := mkscookie_some hnew
      exact hreg _ (.inr ⟨hscheme, tmp, rfl⟩)

/-- The service has an entry, and may use its scheme. -/
theorem lookup_allowed {t : Checked} : rwp re setup req rebasic factor service (lookup re setup service)
    (fun r t' => t' = t ∧ ∀ s, r = some s → ∃ rm, serviceFind re setup.services (serviceName service) = some (s, rm) ∧
      ('=' ∈ service → s.schemeV2 = true)) t := by
  unfold lookup
  split
  · exact ⟨rfl, fun s hs => by cases hs⟩
  · rename_i s rm hfind
    rw [rwp_bind]
    cases matchSubstitute 1024 2 rm service s.wkurl [] with
    | none => trivial
    | some buf =>
      show rwp re setup req rebasic factor service (if buf.isNone then pure none
        else if '=' ∈ service ∧ s.schemeV2 = false then pure none else pure (some s)) _ t
      split
      · exact ⟨rfl, fun s hs => by cases hs⟩
      split
      · exact ⟨rfl, fun s hs => by cases hs⟩
      rename_i hscheme
      refine ⟨rfl, fun s' hs' => ?_⟩
      cases hs'
      exact ⟨rm, hfind, fun heq => Bool.not_eq_false _ ▸ fun h => hscheme ⟨heq, h⟩⟩

theorem getRegister_allowed {q : Query} (hcookie : Presented req q.cookie) (hip : q.ip = req.ip)
    (hbasic : q.rebasic = rebasic) (hfactor : q.factor = factor) :
    rwp re setup req rebasic factor service (getRegister re setup q service) (fun _ _ => True) .start := by
  unfold getRegister
  rw [rwp_bind]
  refine rwp_mono ?_ lookup_allowed
  rintro r t ⟨rfl, hr⟩
  cases r with
  | none => trivial
  | some s =>
    obtain ⟨rm, hfind, hscheme⟩ := hr s rfl
    dsimp only
    -- a service with `reauth` is checked for its page only
    split
    · exact rwp_call (fun _ _ _ h => by cases h) fun _ _ _ => trivial
    rename_i hre
    refine rwp_call (fun _ _ _ h => by cases h) fun r t hs => ?_
    obtain ⟨replies, rfl, rfl⟩ := hs
    split
    · trivial
    rename_i hok
    split
    · trivial
    rename_i haddr
    split
    · trivial
    rename_i hall
    rw [Bool.not_eq_true, Bool.not_eq_false'] at hok
    rw [Bool.not_eq_true, Bool.not_eq_false'] at hall
    rw [ne_eq, not_not, hip] at haddr
    rw [hfactor] at hall
    refine registerService_allowed hcookie hip fun name hname => ⟨_, List.mem_append_right _ List.mem_cons_self, rfl, ?_⟩
    refine ⟨⟨Prod.ext hok rfl, rfl⟩, haddr, fun hne => ?_, ?_, ?_, ⟨s, rm, hfind, hscheme, fun hreauth => ?_⟩, hname⟩
    · have hip' := cosignCheck_ipaddr q.cookie replies Checked.start.ui
      rw [haddr] at hip'
      exact hip'.resolve_left hne
    · simpa using hall
    · rw [requiredLoop_eq]
      exact Prod.ext hall rfl
    · by_contra hno
      exact hre ⟨by rw [hbasic]; exact Bool.eq_false_iff.2 hno, hreauth⟩

theorem getPath_allowed {q : Query} (hcookie : Presented req q.cookie) (hip : q.ip = req.ip)
    (hbasic : q.rebasic = rebasic) (hfactor : q.factor = factor) :
    rwp re setup req rebasic factor service (getPath re setup q service) (fun _ _ => True) .start := by
  have hrest : ∀ ok, rwp re setup req rebasic factor service
      (if (!ok) = true then pure Page.error else getRegister re setup q service) (fun _ _ => True) .start := by
    intro ok
    split
    · trivial
    · exact getRegister_allowed hcookie hip hbasic hfactor
  unfold getPath basicLogin
  rw [rwp_bind]
  cases q.rebasic with
  | true =>
    rw [if_pos rfl]
    intro ok t ht _
    obtain rfl : t = .start := ht
    exact ⟨fun _ _ _ he => (by cases he), hrest ok⟩
  | false =>
    rw [if_neg (by decide)]
    exact hrest true

theorem cgi_allowed {rounds : Nat} {ref : Option Str} (hparse : parseQuery req = some ⟨rebasic, factor, some service, ref⟩) :
    rwp re setup req rebasic factor service (cgi re rounds setup req) (fun _ _ => True) .start := by
  unfold cgi
  rw [hparse]
  dsimp only
  split
  · trivial
  rename_i cookie hcookie
  split
  · trivial
  split
  · trivial
  split
  · trivial
  split
  · exact getPath_allowed (by rw [Presented, hcookie]; rfl) rfl rfl rfl
  · trivial

/-- For a service of the query string the CGI sends a REGISTER only after a CHECK of
the cookie of the request has succeeded for the address it comes from, with every factor
that is required, and as the entry of the service allows. -/
theorem get_guarded (re : Regex) (rounds : Nat) (setup : Setup) (req : Request) : GetGuarded re rounds setup req :=
  fun _ _ _ _ hparse _ _ _ hgoes e he => (Prog.wp_sound (cgi_allowed hparse) hgoes (fun _ _ => trivial)).1 e he

end Cosign.Cgi
