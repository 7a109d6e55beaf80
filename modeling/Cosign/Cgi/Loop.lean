import Cosign.Lib.Runs
import Cosign.Cgi.GetPath
/-!
# The loop breaker

A login cookie carries a time and a count. `loop_checker` counts up in it the
visits it lets through, and starts over when the time is more than LOOPWINDOW
seconds ago. What it bounds are the windows between two starts, and 30 seconds
can meet two of them.
-/

namespace Cosign.Cgi

open Lib

def loopWindow : Int := 30
def maxLoopCount : Int := 10

/-! ## The cookie -/

/-- What `main` cuts a cookie into: its name and value, its time and its count. -/
structure CookieParts where
  base : Str
  time : Int
  count : Int

def cookieParts (cookie : Str) : CookieParts :=
  match strtok '/' cookie with
  | none => ⟨cookie, 0, 0⟩
  | some (base, rest) =>
    match strtok '/' rest with
    | none => ⟨base, 0, 0⟩
    | some (misc, rest) =>
      match strtok '/' rest with
      | none => ⟨base, atoi misc, 0⟩
      | some (misc', _) => ⟨base, atoi misc, atoi misc'⟩

/-- `snprintf(new_cookie, sizeof(new_cookie), "%s/%d/%d", ..)`, where it fits. -/
def countedCookie (cookie : Str) (time count : Int) : Option Str :=
  let s := cookie ++ '/' :: decInt time ++ '/' :: decInt count
  if s.length ≥ 255 then none else some s

/-! ## A visit -/

/-- What comes of a visit. Two of the pages set a login cookie. -/
inductive Visited where
  | page (p : Page)
  /-- The login screen of somebody unknown. -/
  | newLogin (cookie : Str)
  | through (cookie : Str)
  | loopPage
  | exit
  deriving DecidableEq

def loopChecker (tv : Option Int) (time count : Int) (cookie : Str) : Visited :=
  match tv with
  | none => .page .error
  | some now =>
    if now - time > loopWindow then
      -- the time is an `int` from here on
      match countedCookie cookie (now.bmod (2 ^ 32)) 1 with
      | none => .page .error
      | some newCookie => .through newCookie
    else if count ≥ maxLoopCount then
      -- a cookie that starts over is made, and not sent
      match countedCookie cookie (now.bmod (2 ^ 32)) 1 with
      | none => .page .error
      | some _ => .loopPage
    else
      match countedCookie cookie time (count + 1) with
      | none => .page .error
      | some newCookie => .through newCookie

/-- The label `loginscreen`. -/
def loginscreen (known : Bool) (tv : Option Int) (rand : Rand) : Visited :=
  if known then .page .login
  else match mkcookie 128 rand with
    | none => .exit
    | some buf =>
      match tv with
      | none => .page .error
      -- `%lu`; 255 bytes always hold it
      | some now => .newLogin ("cosign=".toList ++ buf ++ '/' :: dec (now % 2 ^ 64).toNat)

/-- The page of a request that ends before a server is asked. -/
def earlyPage (req : Request) : Option Page :=
  match parseQuery req with
  | none => some .error
  | some q =>
    match loginCookie req.httpCookie with
    | none => some (if req.post || q.rebasic then .error else .login)
    | some cookie => if cookie.length < 120 ∨ cookie.length > 1024 then some .login else cookieTooOld req.now cookie

/-- A request, the page that the servers' answers bring `main` to, and what it
gets from outside on its way out. -/
structure CgiVisit where
  req : Request
  page : Page
  /-- A CHECK has filled in `ui`. -/
  known : Bool
  tv : Option Int
  rand : Rand

/-- `loop_checker` is called: before the page of a service, and before the menu after a POST. -/
def CgiVisit.checks (v : CgiVisit) : Bool :=
  earlyPage v.req = none && (v.page = .service || v.page = .menu && v.req.post)

def visit (v : CgiVisit) : Visited :=
  if v.checks then
    let p := cookieParts ((loginCookie v.req.httpCookie).getD [])
    loopChecker v.tv p.time p.count p.base
  else match (earlyPage v.req).getD v.page with
    | .login => loginscreen (earlyPage v.req = none && v.known) v.tv v.rand
    | p => .page p

def Visited.setCookie : Visited → Option Str
  | .newLogin cookie | .through cookie => some cookie
  | _ => none

/-- A browser that sends back the login cookie it was last given. -/
def browse (cookie : Option Str) (v : CgiVisit) : Option (Visited × Option Str) :=
  if loginCookie v.req.httpCookie = cookie then some (visit v, (visit v).setCookie <|> cookie) else none

/-- `earlyPage` is where the whole request ends, and otherwise `main` decides. -/
theorem cgi_page {re : Regex} {rounds : Nat} {setup : Setup} {req : Request} {sat sat' : List Str}
    {tr : List CgiEvent} {page : Page} (h : Prog.Goes (cgiStep setup) (cgi re rounds setup req) sat tr (some page) sat') :
    (earlyPage req).getD page = page := by
  cases hearly : earlyPage req with
  | none => rfl
  | some p =>
    have hcgi : cgi re rounds setup req = Prog.ret p := by
      unfold earlyPage at hearly
      split at hearly
      · next hq =>
        cases hearly
        simp only [cgi, hq]
        rfl
      · next q hq =>
        split at hearly
        · next hc =>
          cases hearly
          simp only [cgi, hq, hc]
          rfl
        · next c hc =>
          split at hearly
          · next hlen =>
            cases hearly
            simp only [cgi, hq, hc, if_pos hlen]
            rfl
          · next hlen =>
            simp only [cgi, hq, hc, if_neg hlen, hearly]
            rfl
    rw [hcgi] at h
    cases h
    rfl

/-! ## Reading a cookie back -/

theorem strtok_append {c : Char} {b r : Str} (hne : b ≠ []) (hb : c ∉ b) : strtok c (b ++ c :: r) = some (b, r) := by
  have hne' : ∀ x ∈ b, x ≠ c := fun x hx h => hb (h ▸ hx)
  have hall : ∀ x ∈ b, decide (x ≠ c) = true := fun x hx => decide_eq_true (hne' x hx)
  have hskip : (b ++ c :: r).dropWhile (· = c) = b ++ c :: r := by
    obtain ⟨d, b, rfl⟩ := List.exists_cons_of_ne_nil hne
    simp [hne' d List.mem_cons_self]
  have htake : (b ++ c :: r).takeWhile (· ≠ c) = b := by
    rw [List.takeWhile_append_of_pos hall, List.takeWhile_cons_of_neg (by simp), List.append_nil]
  have hdrop : (b ++ c :: r).dropWhile (· ≠ c) = c :: r := by
    rw [List.dropWhile_append_of_pos hall, List.dropWhile_cons_of_neg (by simp)]
  unfold strtok
  rw [hskip]
  split
  · next h => simp at h
  · rw [htake, hdrop]
    rfl

theorem strtok_whole {c : Char} {b : Str} (hne : b ≠ []) (hb : c ∉ b) : strtok c b = some (b, []) := by
  have hne' : ∀ x ∈ b, x ≠ c := fun x hx h => hb (h ▸ hx)
  have hall : ∀ x ∈ b, decide (x ≠ c) = true := fun x hx => decide_eq_true (hne' x hx)
  have hskip : b.dropWhile (· = c) = b := by
    obtain ⟨d, b, rfl⟩ := List.exists_cons_of_ne_nil hne
    simp [hne' d List.mem_cons_self]
  have htake : b.takeWhile (· ≠ c) = b := List.takeWhile_eq_self_iff.2 hall
  have hdrop : b.dropWhile (· ≠ c) = [] := List.dropWhile_eq_nil_iff.2 hall
  unfold strtok
  rw [hskip]
  split
  · exact absurd rfl hne
  · rw [htake, hdrop]
    rfl

theorem slash_notMem_dec (n : Nat) : '/' ∉ dec n := fun h => by
  have := dec_isDigit n _ h
  simp at this

theorem decInt_token (p : Int) : decInt p ≠ [] ∧ '/' ∉ decInt p := by
  cases p with
  | ofNat n => exact ⟨dec_ne_nil n, slash_notMem_dec n⟩
  | negSucc n => exact ⟨List.cons_ne_nil _ _, by simp [decInt, slash_notMem_dec]⟩

/-- What a cookie is cut into, and that its time is looked at. -/
structure ReadAs (cookie : Str) (p : CookieParts) : Prop where
  parts : cookieParts cookie = p
  age : ∀ now, cookieTooOld now cookie = none → ∃ m, now = some m ∧ m - p.time ≤ maxCookieTime

/-- A login cookie as the CGI makes them. -/
structure LoginCookie (cookie : Str) : Prop where
  reads : ReadAs cookie (cookieParts cookie)
  base : (cookieParts cookie).base ≠ [] ∧ '/' ∉ (cookieParts cookie).base
  length : (cookieParts cookie).base.length ≤ 131
  time : -2147483648 ≤ (cookieParts cookie).time ∧ (cookieParts cookie).time < 2147483648
  count : 0 ≤ (cookieParts cookie).count ∧ (cookieParts cookie).count ≤ maxLoopCount

theorem cookieTooOld_age {now : Option Int} {cookie base rest misc rest' : Str}
    (h1 : strtok '/' cookie = some (base, rest)) (h2 : strtok '/' rest = some (misc, rest'))
    (h : cookieTooOld now cookie = none) : ∃ m, now = some m ∧ m - atoi misc ≤ maxCookieTime := by
  simp only [cookieTooOld, h1, Option.bind_some, h2] at h
  cases now with
  | none => cases h
  | some m =>
    simp only at h
    split at h
    · cases h
    · next hle => exact ⟨m, rfl, Int.not_lt.1 hle⟩

theorem readAs_counted {base : Str} {time count : Int} (hb : base ≠ [] ∧ '/' ∉ base)
    (ht : -2147483648 ≤ time ∧ time < 2147483648) (hc : -2147483648 ≤ count ∧ count < 2147483648) :
    ReadAs (base ++ '/' :: decInt time ++ '/' :: decInt count) ⟨base, time, count⟩ := by
  obtain ⟨htne, hts⟩ := decInt_token time
  obtain ⟨hcne, hcs⟩ := decInt_token count
  have h1 : strtok '/' (base ++ '/' :: decInt time ++ '/' :: decInt count) =
      some (base, decInt time ++ '/' :: decInt count) := by
    rw [List.append_assoc, List.cons_append]
    exact strtok_append hb.1 hb.2
  have h2 := strtok_append (r := decInt count) htne hts
  constructor
  · simp only [cookieParts, h1, h2, strtok_whole hcne hcs, atoi_decInt ht, atoi_decInt hc]
  · intro now h
    have hage := cookieTooOld_age h1 h2 h
    rwa [atoi_decInt ht] at hage

theorem readAs_new {base : Str} {n : Nat} (hb : base ≠ [] ∧ '/' ∉ base) :
    ReadAs (base ++ '/' :: dec n) ⟨base, atoi (dec n), 0⟩ := by
  have h1 := strtok_append (r := dec n) hb.1 hb.2
  have h2 := strtok_whole (dec_ne_nil n) (slash_notMem_dec n)
  constructor
  · simp only [cookieParts, h1, h2]
    rfl
  · intro now h
    exact cookieTooOld_age h1 h2 h

/-! ## What a visit does -/

theorem decInt_length {p : Int} (h : -2147483648 ≤ p ∧ p < 2147483648) : (decInt p).length ≤ 12 := by
  cases p with
  | ofNat n =>
    have hn : n < 100000000000 := by
      have := h.2
      rw [Int.ofNat_eq_natCast] at this
      omega
    exact Nat.le_of_lt (dec_fits hn).1
  | negSucc n =>
    have hn : n + 1 < 100000000000 := by omega
    exact (dec_fits hn).1

theorem countedCookie_some {base : Str} {time count : Int} (hb : base ≠ [] ∧ '/' ∉ base) (hl : base.length ≤ 131)
    (ht : -2147483648 ≤ time ∧ time < 2147483648) (hc : -2147483648 ≤ count ∧ count < 2147483648) :
    ∃ c, countedCookie base time count = some c ∧ ReadAs c ⟨base, time, count⟩ := by
  refine ⟨_, if_neg ?_, readAs_counted hb ht hc⟩
  have h1 := decInt_length ht
  have h2 := decInt_length hc
  simp only [List.length_append, List.length_cons]
  omega

theorem bmod_int (x : Int) : -2147483648 ≤ x.bmod (2 ^ 32) ∧ x.bmod (2 ^ 32) < 2147483648 := by
  rw [Int.bmod_def]
  split <;> omega

theorem one_int : -2147483648 ≤ (1 : Int) ∧ (1 : Int) < 2147483648 := by decide

/-- One visit of a browser whose cookie is `jar`, case by case. -/
inductive Goes (jar : Option Str) (v : CgiVisit) : Visited → Option Str → Prop
  | start {cookie c : Str} {now : Int} : jar = some cookie → v.checks = true → v.tv = some now →
      now - (cookieParts cookie).time > loopWindow →
      ReadAs c ⟨(cookieParts cookie).base, now.bmod (2 ^ 32), 1⟩ → Goes jar v (.through c) (some c)
  | count {cookie c : Str} {now : Int} : jar = some cookie → v.checks = true → v.tv = some now →
      now - (cookieParts cookie).time ≤ loopWindow → (cookieParts cookie).count < maxLoopCount →
      ReadAs c ⟨(cookieParts cookie).base, (cookieParts cookie).time, (cookieParts cookie).count + 1⟩ →
      Goes jar v (.through c) (some c)
  | loop {cookie : Str} {now : Int} : jar = some cookie → v.checks = true → v.tv = some now →
      now - (cookieParts cookie).time ≤ loopWindow → maxLoopCount ≤ (cookieParts cookie).count →
      Goes jar v .loopPage jar
  | newLogin {c : Str} {now : Int} : v.checks = false → v.tv = some now → LoginCookie c → (cookieParts c).count = 0 →
      Goes jar v (.newLogin c) (some c)
  | page {r : Visited} : (∀ c, r ≠ .through c) → (∀ c, r ≠ .newLogin c) → (v.checks = true → v.tv = none) →
      Goes jar v r jar

theorem goes_loopChecker {v : CgiVisit} {cookie : Str} (h : LoginCookie cookie) (hv : v.checks = true) :
    let r := loopChecker v.tv (cookieParts cookie).time (cookieParts cookie).count (cookieParts cookie).base
    Goes (some cookie) v r (r.setCookie <|> some cookie) := by
  intro r
  cases htv : v.tv with
  | none =>
    have hr : r = .page .error := by simp only [r, htv, loopChecker]
    rw [hr]
    exact .page (by simp) (by simp) fun _ => htv
  | some now =>
    obtain ⟨fresh, hfresh, hfp⟩ := countedCookie_some h.base h.length (bmod_int now) one_int
    by_cases hlate : now - (cookieParts cookie).time > loopWindow
    · have hr : r = .through fresh := by simp only [r, htv, loopChecker, if_pos hlate, hfresh]
      rw [hr]
      exact .start rfl hv htv hlate hfp
    · by_cases hcount : (cookieParts cookie).count ≥ maxLoopCount
      · have hr : r = .loopPage := by simp only [r, htv, loopChecker, if_neg hlate, if_pos hcount, hfresh]
        rw [hr]
        exact .loop rfl hv htv (Int.not_lt.1 hlate) hcount
      · have hrange : -2147483648 ≤ (cookieParts cookie).count + 1 ∧ (cookieParts cookie).count + 1 < 2147483648 := by
          have := h.count
          simp only [maxLoopCount] at this
          omega
        obtain ⟨c, hc, hcp⟩ := countedCookie_some h.base h.length h.time hrange
        have hr : r = .through c := by simp only [r, htv, loopChecker, if_neg hlate, if_neg hcount, hc]
        rw [hr]
        exact .count rfl hv htv (Int.not_lt.1 hlate) (Int.not_le.1 hcount) hcp

theorem newLogin_cookie {buf : Str} {rand : Rand} {n : Nat} (h : mkcookie 128 rand = some buf) :
    LoginCookie ("cosign=".toList ++ buf ++ '/' :: dec n) ∧
      (cookieParts ("cosign=".toList ++ buf ++ '/' :: dec n)).count = 0 := by
  have hlen := mkcookie_length h
  have hs : '/' ∉ buf := fun hm => absurd (mkcookie_mem (by decide) h _ hm) (by decide)
  have hb : "cosign=".toList ++ buf ≠ [] ∧ '/' ∉ "cosign=".toList ++ buf := ⟨by simp, by simp [hs]⟩
  have hp := readAs_new (n := n) hb
  refine ⟨⟨?_, ?_, ?_, ?_, ?_⟩, ?_⟩ <;> rw [hp.parts]
  · exact hp
  · exact hb
  · simp [hlen]
  · exact atoi_bounds _
  · exact ⟨Int.le_refl 0, show (0 : Int) ≤ maxLoopCount by decide⟩

/-- A CHECK comes from a cookie, and one that is not too old. -/
theorem checks_cookie {v : CgiVisit} (h : v.checks = true) :
    ∃ cookie, loginCookie v.req.httpCookie = some cookie ∧ cookieTooOld v.req.now cookie = none := by
  have hearly : earlyPage v.req = none := of_decide_eq_true (Bool.and_eq_true_iff.1 h).1
  unfold earlyPage at hearly
  split at hearly
  · cases hearly
  · split at hearly
    · cases hearly
    · next cookie hc =>
      split at hearly
      · cases hearly
      · exact ⟨cookie, hc, hearly⟩

theorem browse_goes {jar jar' : Option Str} {v : CgiVisit} {r : Visited} (h : browse jar v = some (r, jar'))
    (hjar : ∀ c, jar = some c → LoginCookie c) : Goes jar v r jar' := by
  unfold browse at h
  split at h
  swap
  · cases h
  rename_i hsent
  cases h
  by_cases hv : v.checks = true
  · obtain ⟨cookie, hcookie, -⟩ := checks_cookie hv
    have hvisit : visit v =
        loopChecker v.tv (cookieParts cookie).time (cookieParts cookie).count (cookieParts cookie).base := by
      simp only [visit, if_pos hv, hcookie, Option.getD_some]
    subst hsent
    rw [hvisit, hcookie]
    exact goes_loopChecker (hjar cookie hcookie) hv
  · have hother : ∀ p, Goes jar v (.page p) jar := fun p => .page (by simp) (by simp) fun h => absurd h hv
    simp only [visit, if_neg hv]
    cases (earlyPage v.req).getD v.page with
    | error => exact hother .error
    | menu => exact hother .menu
    | service => exact hother .service
    | login =>
      simp only [loginscreen]
      split
      · exact hother .login
      · split
        · exact .page (by simp) (by simp) fun h => absurd h hv
        · next buf hbuf =>
          split
          · exact hother .error
          · next now htv =>
            obtain ⟨hc, h0⟩ := newLogin_cookie (n := (now % 2 ^ 64).toNat) hbuf
            exact .newLogin (by simpa using hv) htv hc h0

/-- The browser's cookie is always one the CGI made. -/
theorem browse_cookie {jar jar' : Option Str} {v : CgiVisit} {r : Visited} (h : browse jar v = some (r, jar'))
    (hjar : ∀ c, jar = some c → LoginCookie c) : ∀ c, jar' = some c → LoginCookie c := by
  intro d hd
  cases browse_goes h hjar with
  | @start cookie c now hj _ _ _ hp =>
    cases hd
    have hk := hjar cookie hj
    refine ⟨?_, ?_, ?_, ?_, ?_⟩ <;> rw [hp.parts]
    · exact hp
    · exact hk.base
    · exact hk.length
    · exact bmod_int now
    · exact ⟨show (0 : Int) ≤ 1 by decide, show (1 : Int) ≤ maxLoopCount by decide⟩
  | @count cookie c now hj _ _ _ hlt hp =>
    cases hd
    have hk := hjar cookie hj
    refine ⟨?_, ?_, ?_, ?_, ?_⟩ <;> rw [hp.parts]
    · exact hp
    · exact hk.base
    · exact hk.length
    · exact hk.time
    · exact ⟨Int.le_trans hk.count.1 (Int.le_add_one (Int.le_refl _)), hlt⟩
  | loop => exact hjar d hd
  | newLogin _ _ hc => cases hd; exact hc
  | page => exact hjar d hd

/-! ## Runs of visits -/

abbrev Visits := List (Entry (Option Str) CgiVisit Visited)

def Visited.isThrough : Visited → Bool
  | .through _ => true
  | _ => false

def Visited.isLogin : Visited → Bool
  | .newLogin _ => true
  | _ => false

@[simp] theorem isThrough_through (c : Str) : (Visited.through c).isThrough = true := rfl

/-- A visit is on its way out between two times. -/
def CgiVisit.within (a b : Int) (v : CgiVisit) : Bool := v.tv.any fun now => a ≤ now && now ≤ b

def passed (tr : Visits) : Nat := tr.countP (·.res.isThrough)

def passedIn (a b : Int) (tr : Visits) : Nat := tr.countP fun x => x.res.isThrough && x.ev.within a b

def CgiVisit.clocks (v : CgiVisit) : List Int := v.req.now.toList ++ v.tv.toList

/-- One visit comes after the other. -/
def InOrder (tr : Visits) : Prop := tr.Pairwise fun x y => ∀ t ∈ x.ev.clocks, ∀ u ∈ y.ev.clocks, t ≤ u

/-- The visit is more than LOOPWINDOW seconds after the time in its cookie. -/
def CgiVisit.starts (v : CgiVisit) (cookie : Option Str) : Bool :=
  v.checks && v.tv.any fun now => now - (cookieParts (cookie.getD [])).time > loopWindow

/-- Visits that count on from each other: there is no new login among them, and
only the first may start over. -/
structure OneWindow (w : Visits) : Prop where
  login : ∀ x ∈ w, x.res.isLogin = false
  start : ∀ x ∈ w.tail, x.ev.starts x.pre = false

/-! ## A window -/

/-- What every browser holds that began with no cookie. -/
def Jar (jar : Option Str) : Prop := ∀ c, jar = some c → LoginCookie c

def jarCount (jar : Option Str) : Int := (cookieParts (jar.getD [])).count

theorem jarCount_range {jar : Option Str} (h : Jar jar) : 0 ≤ jarCount jar ∧ jarCount jar ≤ maxLoopCount := by
  cases jar with
  | none => decide
  | some c => exact (h c rfl).count

theorem Trace.jar {s t : Option Str} {tr : Visits} (h : Trace browse s tr t) (hs : Jar s) :
    Jar t ∧ ∀ x ∈ tr, Jar x.pre ∧ Jar x.post :=
  h.inv Jar (fun _ => True) (fun _ hx _ hpre => browse_cookie hx hpre) hs fun _ _ => trivial

theorem starts_eq {v : CgiVisit} {cookie : Str} {now : Int} (hv : v.checks = true) (htv : v.tv = some now) :
    v.starts (some cookie) = decide (now - (cookieParts cookie).time > loopWindow) := by
  simp only [CgiVisit.starts, hv, htv, Option.any_some, Option.getD_some, Bool.true_and]

/-- A visit that does not start over is let through where it can still count. -/
theorem passed_step {x : Entry (Option Str) CgiVisit Visited} (h : browse x.pre x.ev = some (x.res, x.post))
    (hpre : Jar x.pre) (hl : x.res.isLogin = false) :
    jarCount x.post =
      if x.res.isThrough then (if x.ev.starts x.pre then 1 else jarCount x.pre + 1) else jarCount x.pre := by
  obtain ⟨pre, ev, res, post⟩ := x
  dsimp only at h hpre hl ⊢
  cases browse_goes h hpre with
  | start hj hv htv hlate hp =>
    subst hj
    rw [isThrough_through, if_pos rfl, starts_eq hv htv, if_pos (decide_eq_true hlate)]
    simp only [jarCount, Option.getD_some, hp.parts]
  | count hj hv htv hle hlt hp =>
    subst hj
    rw [isThrough_through, if_pos rfl, starts_eq hv htv, if_neg (by simpa using hle)]
    simp only [jarCount, Option.getD_some, hp.parts]
  | loop => rfl
  | newLogin => cases hl
  | page hr hn _ =>
    cases res with
    | through c => exact absurd rfl (hr c)
    | _ => rfl

theorem passed_cons (x : Entry (Option Str) CgiVisit Visited) (tr : Visits) :
    (passed (x :: tr) : Int) = passed tr + if x.res.isThrough then 1 else 0 := by
  unfold passed
  rw [List.countP_cons]
  split <;> simp

/-- Without a start, the count in the cookie goes up with every visit let through. -/
theorem passed_count {s t : Option Str} {w : Visits} (h : Trace browse s w t) (hs : Jar s)
    (hl : ∀ x ∈ w, x.res.isLogin = false) (hw : ∀ x ∈ w, x.ev.starts x.pre = false) :
    (passed w : Int) + jarCount s = jarCount t := by
  induction h with
  | nil s => simp [passed]
  | @cons s e r s' w t he _ ih =>
    have hx := passed_step (x := ⟨s, e, r, s'⟩) he hs (hl _ List.mem_cons_self)
    rw [hw _ List.mem_cons_self] at hx
    have hrest := ih (browse_cookie he hs) (fun x hx => hl x (List.mem_cons_of_mem _ hx))
      fun x hx => hw x (List.mem_cons_of_mem _ hx)
    rw [passed_cons]
    dsimp only at hx ⊢
    split at hx
    · next hr => rw [if_pos hr]; simp only [Bool.false_eq_true, if_false] at hx; omega
    · next hr => rw [if_neg hr]; omega

theorem oneWindow_passed {s t : Option Str} {w : Visits} (h : Trace browse s w t) (hs : Jar s) (hw : OneWindow w) :
    (passed w : Int) ≤ maxLoopCount := by
  cases h with
  | nil => decide
  | @cons _ e r s' w _ he htail =>
    have hs' := browse_cookie he hs
    have hrest := passed_count htail hs' (fun x hx => hw.login x (List.mem_cons_of_mem _ hx)) hw.start
    have hx := passed_step (x := ⟨s, e, r, s'⟩) he hs (hw.login _ List.mem_cons_self)
    have hpre := jarCount_range hs
    have hend := jarCount_range (Trace.jar htail hs').1
    rw [passed_cons]
    dsimp only at hx ⊢
    split at hx
    · next hr => rw [if_pos hr]; split at hx <;> omega
    · next hr => rw [if_neg hr]; omega

/-! ## An interval -/

/-- An `int` that was made of a time after `b - loopWindow` starts nothing up to `b`: where
it is cut off, it is too old or still to come. -/
theorem not_starts {v : CgiVisit} {cookie : Str} {at' b : Int} (hc : LoginCookie cookie)
    (ht : (cookieParts cookie).time = at'.bmod (2 ^ 32)) (hsent : loginCookie v.req.httpCookie = some cookie)
    (hafter : ∀ u ∈ v.clocks, at' ≤ u) (hb : b ≤ at' + loopWindow) (hv : ∀ now, v.tv = some now → now ≤ b) :
    v.starts (some cookie) = false := by
  rw [Bool.eq_false_iff]
  intro hstart
  simp only [CgiVisit.starts, Bool.and_eq_true, Option.any_eq_true, decide_eq_true_eq, Option.getD_some] at hstart
  obtain ⟨hchecks, now, htv, hlate⟩ := hstart
  obtain ⟨cookie', hsent', hold⟩ := checks_cookie hchecks
  rw [hsent] at hsent'
  cases hsent'
  obtain ⟨m, hm, hage⟩ := hc.reads.age _ hold
  have hm' : at' ≤ m := hafter m (List.mem_append_left _ (by simp [hm]))
  have hnow := hv now htv
  have hcut : at'.bmod (2 ^ 32) + 4294967296 * at'.bdiv (2 ^ 32) = at' := Int.bmod_add_bdiv at' (2 ^ 32)
  rw [ht] at hlate hage
  simp only [loopWindow, maxCookieTime] at *
  omega

theorem browse_sent {jar jar' : Option Str} {v : CgiVisit} {r : Visited} (h : browse jar v = some (r, jar')) :
    loginCookie v.req.httpCookie = jar := by
  unfold browse at h
  split at h
  · assumption
  · cases h

/-- After a start nothing else starts for LOOPWINDOW seconds. -/
theorem no_second_start {s t : Option Str} {w : Visits} {cookie : Str} {at' b : Int} (h : Trace browse s w t) (hs : Jar s)
    (hcookie : s = some cookie) (ht : (cookieParts cookie).time = at'.bmod (2 ^ 32))
    (hl : ∀ x ∈ w, x.res.isLogin = false) (hafter : ∀ x ∈ w, ∀ u ∈ x.ev.clocks, at' ≤ u)
    (hb : b ≤ at' + loopWindow) (hw : ∀ x ∈ w, ∀ now, x.ev.tv = some now → now ≤ b) :
    ∀ x ∈ w, x.ev.starts x.pre = false := by
  induction h generalizing cookie with
  | nil => simp
  | @cons s e r s' w t he _ ih =>
    subst hcookie
    have hfirst : e.starts (some cookie) = false :=
      not_starts (hs cookie rfl) ht (browse_sent he) (hafter _ List.mem_cons_self) hb (hw _ List.mem_cons_self)
    have hnext : ∃ cookie', s' = some cookie' ∧ (cookieParts cookie').time = at'.bmod (2 ^ 32) := by
      cases browse_goes he hs with
      | start hj hv htv hlate _ =>
        cases hj
        rw [starts_eq hv htv, decide_eq_true hlate] at hfirst
        cases hfirst
      | count hj _ _ _ _ hp =>
        cases hj
        exact ⟨_, rfl, by rw [hp.parts]; exact ht⟩
      | loop => exact ⟨cookie, rfl, ht⟩
      | newLogin => cases hl _ List.mem_cons_self
      | page => exact ⟨cookie, rfl, ht⟩
    obtain ⟨cookie', hs', ht'⟩ := hnext
    have hrest := ih (browse_cookie he hs) hs' ht' (fun x hx => hl x (List.mem_cons_of_mem _ hx))
      (fun x hx => hafter x (List.mem_cons_of_mem _ hx)) fun x hx => hw x (List.mem_cons_of_mem _ hx)
    intro x hx
    rcases List.mem_cons.1 hx with rfl | hx
    · exact hfirst
    · exact hrest x hx

/-- The first of a list with a property, if there is one. -/
theorem split_first {α : Type} (p : α → Bool) (l : List α) :
    (∀ x ∈ l, p x = false) ∨
      ∃ l₁ x l₂, l = l₁ ++ x :: l₂ ∧ (∀ y ∈ l₁, p y = false) ∧ p x = true := by
  cases h : l.find? p with
  | none => exact .inl fun x hx => by simpa using List.find?_eq_none.1 h x hx
  | some x =>
    obtain ⟨hx, l₁, l₂, hl, hno⟩ := List.find?_eq_some_iff_append.1 h
    exact .inr ⟨l₁, x, l₂, hl, fun y hy => by simpa using hno y hy, hx⟩

/-- A visit that starts over leaves its own time in the cookie. -/
theorem Goes.of_starts {jar jar' : Option Str} {v : CgiVisit} {r : Visited} (h : Goes jar v r jar')
    (hs : v.starts jar = true) :
    ∃ c now, v.tv = some now ∧ jar' = some c ∧ (cookieParts c).time = now.bmod (2 ^ 32) := by
  cases h with
  | @start cookie c now hj hv htv hlate hp => exact ⟨c, now, htv, rfl, by rw [hp.parts]⟩
  | count hj hv htv hle _ _ =>
    subst hj
    rw [starts_eq hv htv, decide_eq_false (Int.not_lt.2 hle)] at hs
    cases hs
  | loop hj hv htv hle _ =>
    subst hj
    rw [starts_eq hv htv, decide_eq_false (Int.not_lt.2 hle)] at hs
    cases hs
  | newLogin hv => rw [CgiVisit.starts, hv] at hs; cases hs
  | page _ _ hv =>
    simp only [CgiVisit.starts, Bool.and_eq_true] at hs
    rw [hv hs.1] at hs
    cases hs.2

theorem passed_append (tr tr' : Visits) : passed (tr ++ tr') = passed tr + passed tr' := List.countP_append

theorem passed_short {s t : Option Str} {w : Visits} {a b : Int} (h : Trace browse s w t) (hs : Jar s) (hord : InOrder w)
    (hl : ∀ x ∈ w, x.res.isLogin = false) (hb : b ≤ a + loopWindow)
    (hw : ∀ x ∈ w, ∀ now, x.ev.tv = some now → a ≤ now ∧ now ≤ b) : (passed w : Int) ≤ 2 * maxLoopCount := by
  rcases split_first (fun x => x.ev.starts x.pre) w with hno | ⟨w₁, x, w₂, rfl, hno, hx⟩
  · have hone := oneWindow_passed h hs ⟨hl, fun x hx => hno x (List.mem_of_mem_tail hx)⟩
    have : maxLoopCount ≤ 2 * maxLoopCount := by decide
    omega
  · obtain ⟨u, h₁, h₂⟩ := h.take
    have hu := (Trace.jar h₁ hs).1
    have hfirst := oneWindow_passed h₁ hs
      ⟨fun y hy => hl y (List.mem_append_left _ hy), fun y hy => hno y (List.mem_of_mem_tail hy)⟩
    have hsecond : (passed (x :: w₂) : Int) ≤ maxLoopCount := by
      refine oneWindow_passed h₂ hu ⟨fun y hy => hl y (List.mem_append_right _ hy), ?_⟩
      cases h₂ with
      | @cons _ e r s' _ _ he htail =>
        have hord₂ : InOrder (⟨u, e, r, s'⟩ :: w₂) := (List.pairwise_append.1 hord).2.1
        obtain ⟨c, now, htv, hc, htime⟩ := (browse_goes he hu).of_starts hx
        have hat := hw _ (List.mem_append_right _ List.mem_cons_self) now htv
        exact no_second_start htail (browse_cookie he hu) hc htime
          (fun y hy => hl y (List.mem_append_right _ (List.mem_cons_of_mem _ hy)))
          (fun y hy => (List.pairwise_cons.1 hord₂).1 y hy now (List.mem_append_right _ (by simp [htv])))
          (show b ≤ now + loopWindow by omega)
          fun y hy m hm => (hw y (List.mem_append_right _ (List.mem_cons_of_mem _ hy)) m hm).2
    rw [passed_append]
    omega

theorem passedIn_append (a b : Int) (tr tr' : Visits) : passedIn a b (tr ++ tr') = passedIn a b tr + passedIn a b tr' :=
  List.countP_append

theorem passedIn_le_passed (a b : Int) (tr : Visits) : passedIn a b tr ≤ passed tr :=
  List.countP_mono_left fun _ _ h => (Bool.and_eq_true_iff.1 h).1

theorem passedIn_outside {a b : Int} {tr : Visits} (h : ∀ x ∈ tr, x.ev.within a b = false) : passedIn a b tr = 0 :=
  List.countP_eq_zero.2 fun x hx => by simp [h x hx]

theorem within_eq {v : CgiVisit} {now : Int} (h : v.tv = some now) (a b : Int) :
    v.within a b = (decide (a ≤ now) && decide (now ≤ b)) := by
  rw [CgiVisit.within, h, Option.any_some]

theorem outside_before {a : Int} {v : CgiVisit} (h : (v.tv.any fun now => decide (a ≤ now)) = false) (b : Int) :
    v.within a b = false := by
  cases htv : v.tv with
  | none => rw [CgiVisit.within, htv, Option.any_none]
  | some now =>
    rw [htv, Option.any_some] at h
    rw [within_eq htv, h, Bool.false_and]

theorem outside_after {a b : Int} {v : CgiVisit} (h : ∀ now, v.tv = some now → b < now) : v.within a b = false := by
  cases htv : v.tv with
  | none => rw [CgiVisit.within, htv, Option.any_none]
  | some now => rw [within_eq htv, decide_eq_false (Int.not_le.2 (h now htv)), Bool.and_false]

/-- Nothing comes before the first of some visits. -/
theorem InOrder.head_le {x : Entry (Option Str) CgiVisit Visited} {tr : Visits} {first : Int} (h : InOrder (x :: tr))
    (hx : x.ev.tv = some first) : ∀ y ∈ x :: tr, ∀ now, y.ev.tv = some now → first ≤ now := by
  intro y hy now htv
  rcases List.mem_cons.1 hy with rfl | hy
  · rw [hx] at htv
    cases htv
    exact Int.le_refl first
  · exact (List.pairwise_cons.1 h).1 y hy first (List.mem_append_right _ (by simp [hx])) now
      (List.mem_append_right _ (by simp [htv]))

/-- The visits between two times stand together in the run. -/
theorem interval_split (a b : Int) {tr : Visits} (hord : InOrder tr) :
    ∃ before w after, tr = before ++ w ++ after ∧ passedIn a b before = 0 ∧ passedIn a b after = 0 ∧
      ∀ x ∈ w, ∀ now, x.ev.tv = some now → a ≤ now ∧ now ≤ b := by
  -- from the first one on that is not before `a` ..
  rcases split_first (fun x => x.ev.tv.any fun now => a ≤ now) tr with hno | ⟨before, x, rest, rfl, hno, hx⟩
  · exact ⟨tr, [], [], by simp, passedIn_outside fun x hx => outside_before (hno x hx) b, rfl, by simp⟩
  · have hbefore : passedIn a b before = 0 := passedIn_outside fun y hy => outside_before (hno y hy) b
    have hrest : InOrder (x :: rest) := (List.pairwise_append.1 hord).2.1
    obtain ⟨first, hfirst, ha⟩ : ∃ now, x.ev.tv = some now ∧ a ≤ now := by simpa [Option.any_eq_true] using hx
    have hafter : ∀ y ∈ x :: rest, ∀ now, y.ev.tv = some now → a ≤ now :=
      fun y hy now htv => Int.le_trans ha (hrest.head_le hfirst y hy now htv)
    have hle : ∀ y : Entry (Option Str) CgiVisit Visited, (y.ev.tv.any fun now => decide (b < now)) = false →
        ∀ now, y.ev.tv = some now → now ≤ b := by
      intro y hy now htv
      rw [htv, Option.any_some] at hy
      exact Int.not_lt.1 (of_decide_eq_false hy)
    -- .. to the first one after `b`
    rcases split_first (fun y => y.ev.tv.any fun now => b < now) (x :: rest) with hin | ⟨w, z, after, hw, hin, hz⟩
    · refine ⟨before, x :: rest, [], by simp, hbefore, rfl, fun y hy now htv => ?_⟩
      exact ⟨hafter y hy now htv, hle y (hin y hy) now htv⟩
    · rw [hw] at hrest hafter ⊢
      obtain ⟨last, hlast, hlt⟩ : ∃ now, z.ev.tv = some now ∧ b < now := by simpa [Option.any_eq_true] using hz
      have hz' : InOrder (z :: after) := (List.pairwise_append.1 hrest).2.1
      have hout : passedIn a b (z :: after) = 0 := by
        refine passedIn_outside fun y hy => outside_after fun now htv => ?_
        exact Int.lt_of_lt_of_le hlt (hz'.head_le hlast y hy now htv)
      refine ⟨before, w, z :: after, by simp, hbefore, hout, fun y hy now htv => ?_⟩
      exact ⟨hafter y (List.mem_append_left _ hy) now htv, hle y (hin y hy) now htv⟩

/-- A login cookie comes with a time. -/
theorem newLogin_tv {jar jar' : Option Str} {v : CgiVisit} {r : Visited} (h : browse jar v = some (r, jar')) (hjar : Jar jar)
    (hr : r.isLogin = true) : ∃ now, v.tv = some now := by
  cases browse_goes h hjar with
  | newLogin _ htv => exact ⟨_, htv⟩
  | page _ hn _ =>
    cases r with
    | newLogin c => exact absurd rfl (hn c)
    | _ => cases hr
  | _ => cases hr

theorem passedIn_le {s t : Option Str} {tr : Visits} {a b : Int} (h : Trace browse s tr t) (hs : Jar s) (hord : InOrder tr)
    (hb : b ≤ a + loopWindow) (hl : ∀ x ∈ tr, x.res.isLogin = true → x.ev.within a b = false) :
    (passedIn a b tr : Int) ≤ 2 * maxLoopCount := by
  obtain ⟨before, w, after, rfl, hbefore, hafter, hw⟩ := interval_split a b hord
  obtain ⟨u, hbw, -⟩ := h.take
  obtain ⟨v, h₁, h₂⟩ := hbw.take
  have hordw : InOrder w := (List.pairwise_append.1 (List.pairwise_append.1 hord).1).2.1
  have hv := (Trace.jar h₁ hs).1
  have hlw : ∀ x ∈ w, x.res.isLogin = false := by
    intro x hx
    rw [Bool.eq_false_iff]
    intro hr
    obtain ⟨now, htv⟩ := newLogin_tv (h₂.fired x hx) ((Trace.jar h₂ hv).2 x hx).1 hr
    have hout := hl x (List.mem_append_left _ (List.mem_append_right _ hx)) hr
    have hin := hw x hx now htv
    rw [within_eq htv, decide_eq_true hin.1, decide_eq_true hin.2] at hout
    cases hout
  have hle := passed_short h₂ hv hordw hlw hb hw
  have hmono := passedIn_le_passed a b w
  rw [passedIn_append, passedIn_append, hbefore, hafter]
  omega

/-- `loop_checker` lets a visit through or sends it to the loop page. -/
theorem checks_through_or_loop {jar jar' : Option Str} {v : CgiVisit} {r : Visited} {now : Int}
    (h : browse jar v = some (r, jar')) (hjar : Jar jar) (hv : v.checks = true) (htv : v.tv = some now) :
    r.isThrough = true ∨ r = .loopPage := by
  cases browse_goes h hjar with
  | start => exact .inl rfl
  | count => exact .inl rfl
  | loop => exact .inr rfl
  | newLogin hno => rw [hno] at hv; cases hv
  | page _ _ hnone => rw [hnone hv] at htv; cases htv

/-! ## The bound -/

/-- The visits of one window are at most MAXLOOPCOUNT, those of LOOPWINDOW
seconds without a new login at most twice as many, and what comes after them in
the window or in these seconds gets the loop page. -/
theorem loop_windows {t : Option Str} {tr : Visits} (h : Trace browse none tr t) (hord : InOrder tr) :
    (∀ w₁ w w₂, tr = w₁ ++ w ++ w₂ → OneWindow w → (passed w : Int) ≤ maxLoopCount ∧
      ∀ x w₃, w₂ = x :: w₃ → OneWindow (w ++ [x]) → (passed w : Int) = maxLoopCount → x.ev.checks = true →
        x.ev.tv ≠ none → x.res = .loopPage) ∧
    ∀ a, (∀ x ∈ tr, x.res.isLogin = true → x.ev.within a (a + loopWindow) = false) →
      (passedIn a (a + loopWindow) tr : Int) ≤ 2 * maxLoopCount ∧
      ∀ tr₁ x tr₂, tr = tr₁ ++ x :: tr₂ → (passedIn a (a + loopWindow) tr₁ : Int) = 2 * maxLoopCount →
        x.ev.checks = true → x.ev.within a (a + loopWindow) = true → x.res = .loopPage := by
  have hnone : Jar none := fun c hc => by cases hc
  refine ⟨fun w₁ w w₂ htr hw => ?_, fun a hl => ⟨passedIn_le h hnone hord (Int.le_refl _) hl, ?_⟩⟩
  · rw [htr] at h
    obtain ⟨u, hleft, hright⟩ := h.take
    obtain ⟨v, h₁, h₂⟩ := hleft.take
    have hv := (Trace.jar h₁ hnone).1
    refine ⟨oneWindow_passed h₂ hv hw, fun x w₃ hx hone hfull hchecks htv => ?_⟩
    subst hx
    obtain ⟨now, htv⟩ := Option.ne_none_iff_exists'.1 htv
    have hu := (Trace.jar h₂ hv).1
    cases hright with
    | @cons _ e r s' _ _ he _ =>
      rcases checks_through_or_loop he hu hchecks htv with hr | hr
      · -- one more would be one too many for the window
        have hmore := oneWindow_passed (h₂.append (.cons he (.nil s'))) hv hone
        rw [passed_append, Int.natCast_add, passed_cons, if_pos hr] at hmore
        simp only [passed, List.countP_nil] at hmore hfull
        omega
      · exact hr
  · intro tr₁ x tr₂ htr hfull hchecks hin
    subst htr
    obtain ⟨u, h₁, h₂⟩ := h.take
    have hu := (Trace.jar h₁ hnone).1
    obtain ⟨now, htv⟩ : ∃ now, x.ev.tv = some now := by
      obtain ⟨now, htv, -⟩ := (Option.any_eq_true _ _).1 hin
      exact ⟨now, htv⟩
    cases h₂ with
    | @cons _ e r s' _ _ he _ =>
      rcases checks_through_or_loop he hu hchecks htv with hr | hr
      · have hord' : InOrder (tr₁ ++ [⟨u, e, r, s'⟩]) := by
          rw [List.append_cons] at hord
          exact (List.pairwise_append.1 hord).1
        have hmore := passedIn_le (h₁.append (.cons he (.nil s'))) hnone hord' (Int.le_refl (a + loopWindow)) fun y hy => by
          refine hl y ?_
          rcases List.mem_append.1 hy with hy | hy
          · exact List.mem_append_left _ hy
          · exact List.mem_append_right _ (List.mem_singleton.1 hy ▸ List.mem_cons_self)
        have hone : passedIn a (a + loopWindow) [⟨u, e, r, s'⟩] = 1 := by
          have htrue : (r.isThrough && e.within a (a + loopWindow)) = true := by rw [hr]; exact hin
          simp only [passedIn, List.countP_singleton, htrue, if_true]
        rw [passedIn_append, hone] at hmore
        omega
      · exact hr

/-! A browser that logs in at 1000 and visits a service ten times at 1030 and
ten times at 1031, and after another login screen ten times more. -/

def sampleVisit (cookie : Option Str) (page : Page) (now : Int) : CgiVisit where
  req := ⟨false, "10.0.0.1".toList, none, [], none, false, some "cosign-x&http://x/".toList, cookie, fun _ => none,
    some now, true⟩
  page := page
  known := false
  tv := some now
  rand := some fun _ => 0

def sampleRun : Option Str → List (Page × Int) → Visits
  | _, [] => []
  | cookie, (page, now) :: rest =>
    let v := sampleVisit cookie page now
    ⟨cookie, v, visit v, (visit v).setCookie <|> cookie⟩ :: sampleRun ((visit v).setCookie <|> cookie) rest

def straddling : List (Page × Int) :=
  (.login, 1000) :: List.replicate 10 (.service, 1030) ++ List.replicate 10 (.service, 1031)

/-- Ten visits more, after another login screen. -/
def loggingInAgain : List (Page × Int) :=
  straddling ++ (.login, 1031) :: List.replicate 10 (.service, 1031)

theorem sampleRun_trace {cookie : Option Str} {l : List (Page × Int)}
    (h : ∀ x ∈ sampleRun cookie l, loginCookie x.pre = x.pre) : ∃ t, Trace browse cookie (sampleRun cookie l) t := by
  induction l generalizing cookie with
  | nil => exact ⟨cookie, .nil cookie⟩
  | cons p rest ih =>
    obtain ⟨page, now⟩ := p
    have hsent : loginCookie cookie = cookie := h _ List.mem_cons_self
    obtain ⟨t, ht⟩ := ih fun x hx => h x (List.mem_cons_of_mem _ hx)
    exact ⟨t, .cons (if_pos hsent) ht⟩

theorem straddling_trace : ∃ t, Trace browse none (sampleRun none straddling) t := sampleRun_trace (by decide +kernel)

theorem straddling_inOrder : InOrder (sampleRun none straddling) := by
  unfold InOrder
  decide +kernel

/-- Two windows meet twenty visits within two seconds; with a login screen
between them there is no bound. -/
theorem loop_straddles :
    (∃ t, Trace browse none (sampleRun none straddling) t) ∧ InOrder (sampleRun none straddling) ∧
    (passedIn 1030 1031 (sampleRun none straddling) : Int) = 2 * maxLoopCount ∧
    (∃ t, Trace browse none (sampleRun none loggingInAgain) t) ∧ InOrder (sampleRun none loggingInAgain) ∧
    (passedIn 1030 1031 (sampleRun none loggingInAgain) : Int) = 3 * maxLoopCount := by
  refine ⟨straddling_trace, straddling_inOrder, ?_, sampleRun_trace (by decide +kernel), ?_, ?_⟩
  · decide +kernel
  · unfold InOrder
    decide +kernel
  · decide +kernel

/-- An eleventh visit at 1031. -/
def overrun : List (Page × Int) := straddling ++ [(.service, 1031)]

/-- The second window has its ten, and one more gets the loop page; the two together
are not more than twenty. -/
theorem loop_windows_straddling :
    (∃ x, (sampleRun none overrun).drop 21 = [x] ∧ x.res = .loopPage) ∧
    (passedIn 1030 (1030 + loopWindow) (sampleRun none overrun) : Int) ≤ 2 * maxLoopCount := by
  obtain ⟨t, ht⟩ : ∃ t, Trace browse none (sampleRun none overrun) t := sampleRun_trace (by decide +kernel)
  have hord : InOrder (sampleRun none overrun) := by
    unfold InOrder
    decide +kernel
  have hsplit : ∀ tr : Visits, tr = tr.take 11 ++ (tr.drop 11).take 10 ++ tr.drop 21 := fun tr => by
    rw [← List.take_add, List.take_append_drop]
  have hwindow : OneWindow ((sampleRun none overrun).drop 11) := ⟨by decide +kernel, by decide +kernel⟩
  have hfirst : OneWindow (((sampleRun none overrun).drop 11).take 10) := ⟨by decide +kernel, by decide +kernel⟩
  have hfull : (passed (((sampleRun none overrun).drop 11).take 10) : Int) = maxLoopCount := by decide +kernel
  have hlast : ∀ x ∈ (sampleRun none overrun).drop 21, x.ev.checks = true ∧ x.ev.tv ≠ none := by decide +kernel
  obtain ⟨x, hx⟩ : ∃ x, (sampleRun none overrun).drop 21 = [x] := List.length_eq_one_iff.1 (by decide +kernel)
  obtain ⟨hone, hall⟩ := loop_windows ht hord
  refine ⟨⟨x, hx, ?_⟩, (hall 1030 (by decide +kernel)).1⟩
  obtain ⟨hchecks, htv⟩ := hlast x (by rw [hx]; exact List.mem_cons_self)
  refine (hone _ _ _ (hsplit _) hfirst).2 x [] hx ?_ hfull hchecks htv
  rw [← hx, show (sampleRun none overrun).drop 21 = ((sampleRun none overrun).drop 11).drop 10 by
    rw [List.drop_drop], List.take_append_drop]
  exact hwindow

end Cosign.Cgi
