import Cosign.Common.Text
/-!
# Finding the service's cookie

How `cosign_auth` looks for its cookie in the `Cookie` header, in the lighttpd
filter and in the Apache filters. The lighttpd loop compares no more of the
service's name than the pair's name is long, and stays where it is when no `=`
follows.
-/

namespace Cosign.Filter

/-! ## lighttpd -/

/-- `strncasecmp(s, t, n) == 0` -/
def strncaseeq : Nat → Str → Str → Bool
  | 0, _, _ => true
  | _ + 1, [], [] => true
  | n + 1, c :: s, d :: t => c.toLower = d.toLower && strncaseeq n s t
  | _ + 1, _, _ => false

def skipBlanks (s : Str) : Str := s.dropWhile (· = ' ')

/-- How a round of the loop ends: with `my_cookie`, or at `data`. -/
inductive ScanRound where
  | stop (cookie : Option Str)
  | go (data : Str)
  deriving DecidableEq

/-- What stands before a `=`. -/
def nameOf (s : Str) : Str := s.takeWhile (· ≠ '=')

/-- The text up to the next `;`, and what follows it. -/
def pairOf (s : Str) : Str := s.takeWhile (· ≠ ';')
def afterPair (s : Str) : Str := (s.dropWhile (· ≠ ';')).drop 1

def scanRound (service data : Str) : ScanRound :=
  let data := skipBlanks data
  if ';' ∉ data ∧ data = [] then .stop none
  else if '=' ∉ data then .go data
  else if strncaseeq (nameOf data).length data service then .stop (some (pairOf data))
  else if ';' ∉ data then .stop none
  else .go (afterPair data)

/-- The loop, in so many rounds. -/
def cookieScan (service : Str) : Nat → Str → Option (Option Str)
  | 0, _ => none
  | n + 1, data =>
    if data = [] then some none
    else match scanRound service data with
      | .stop cookie => some cookie
      | .go data => cookieScan service n data

/-! ## Apache -/

/-- What the Apache filters use of APR: `ap_getword` takes what comes before a
character, and leaves what follows it and its repetitions. -/
structure Apr where
  getword : Str → Char → Str × Str
  getword_eq : ∀ s c, getword s c = (s.takeWhile (· ≠ c), (s.dropWhile (· ≠ c)).dropWhile (· = c))

/-- The loop of the Apache filters, in so many rounds: the pair it stops at. -/
def apacheScan (apr : Apr) (service : Str) : Nat → Str → Option (Option Str)
  | 0, _ => none
  | n + 1, data =>
    if data = [] then some none
    else
      let (pair, data) := apr.getword data ';'
      let (cookiename, _) := apr.getword pair '='
      if strcaseeq cookiename service then some (some pair)
      else apacheScan apr service n (skipBlanks data)

/-! ## What they look for -/

theorem afterPair_lt {s : Str} (h : ';' ∈ s) : (afterPair s).length < s.length := by
  have hlen := congrArg List.length (List.takeWhile_append_dropWhile (p := (· ≠ ';')) (l := s))
  have hne : s.dropWhile (· ≠ ';') ≠ [] := by
    intro hnil
    have := List.dropWhile_eq_nil_iff.1 hnil ';' h
    simp at this
  have hpos := List.length_pos_iff.2 hne
  rw [List.length_append] at hlen
  rw [afterPair, List.length_drop]
  omega

theorem skipBlanks_le (s : Str) : (skipBlanks s).length ≤ s.length := (List.dropWhile_suffix _).length_le

/-- What follows each `;`, blanks left out. -/
def restsAfter : Str → List Str
  | [] => []
  | c :: s => if c = ';' then skipBlanks s :: restsAfter s else restsAfter s

/-- The rest of the header from each pair on, blanks before it left out. -/
def rests (s : Str) : List Str := skipBlanks s :: restsAfter s

/-- The text is a pair of the service, by its whole name. -/
def OfService (service pair : Str) : Prop := '=' ∈ pair ∧ strcaseeq (nameOf pair) service = true

instance (service pair : Str) : Decidable (OfService service pair) :=
  inferInstanceAs (Decidable ('=' ∈ pair ∧ strcaseeq (nameOf pair) service = true))

/-- The first pair of the service. -/
def wanted (service header : Str) : Option Str := ((rests header).map pairOf).find? fun p => OfService service p

/-- The rests of the header before the service's pair, or all of them where
there is none. -/
def before (service header : Str) : List Str := (rests header).takeWhile fun r => ¬ OfService service (pairOf r)

/-- Up to the service's pair, an `=` follows every pair's start, and no text
before one is the beginning of the service's name. -/
def Plain (service header : Str) : Prop :=
  ∀ r ∈ before service header, r = [] ∨ '=' ∈ r ∧ strncaseeq (nameOf r).length r service = false

instance (service header : Str) : Decidable (Plain service header) :=
  inferInstanceAs (Decidable (∀ r ∈ before service header, r = [] ∨ '=' ∈ r ∧ strncaseeq (nameOf r).length r service = false))

/-- Up to the service's pair, its name does not stand alone. -/
def NoBare (service header : Str) : Prop :=
  ∀ r ∈ before service header, strcaseeq (nameOf (pairOf r)) service = false

instance (service header : Str) : Decidable (NoBare service header) :=
  inferInstanceAs (Decidable (∀ r ∈ before service header, strcaseeq (nameOf (pairOf r)) service = false))

/-! ## The pairs, one by one -/

theorem skipBlanks_idem (s : Str) : skipBlanks (skipBlanks s) = skipBlanks s := List.dropWhile_idempotent _ _

theorem restsAfter_eq (s : Str) : restsAfter s = if ';' ∈ s then rests (afterPair s) else [] := by
  induction s with
  | nil => rfl
  | cons c s ih =>
    by_cases hc : c = ';'
    · subst hc
      simp [restsAfter, rests, afterPair]
    · have hafter : afterPair (c :: s) = afterPair s := by simp [afterPair, hc]
      simp only [restsAfter, hc, if_false, ih, hafter, List.mem_cons, Ne.symm hc, false_or]

theorem restsAfter_skipBlanks (s : Str) : restsAfter (skipBlanks s) = restsAfter s := by
  induction s with
  | nil => rfl
  | cons c s ih =>
    by_cases hc : c = ' '
    · subst hc
      simpa [skipBlanks, restsAfter] using ih
    · simp [skipBlanks, hc]

/-- The first pair, and the pairs after it. -/
theorem rests_eq (s : Str) :
    rests s = skipBlanks s :: if ';' ∈ skipBlanks s then rests (afterPair (skipBlanks s)) else [] := by
  rw [← restsAfter_eq, restsAfter_skipBlanks, rests]

theorem rests_skipBlanks (s : Str) : rests (skipBlanks s) = rests s := by
  rw [rests_eq, skipBlanks_idem, ← rests_eq]

theorem nameOf_pairOf {r : Str} (h : '=' ∈ pairOf r) : nameOf (pairOf r) = nameOf r := by
  induction r with
  | nil => rfl
  | cons c r ih =>
    by_cases hc : c = ';'
    · subst hc
      simp [pairOf] at h
    · simp only [pairOf, nameOf, List.takeWhile_cons, ne_eq, hc, not_false_eq_true, decide_true, if_true] at h ⊢
      by_cases he : c = '='
      · subst he
        simp
      · simp only [he, not_false_eq_true, decide_true, if_true, List.cons.injEq, true_and]
        exact ih (List.mem_of_ne_of_mem (Ne.symm he) h)

/-- A whole name is found by comparing as much as it is long. -/
theorem strncaseeq_of_strcaseeq {a b : Str} (t : Str) (h : strcaseeq a b = true) : strncaseeq a.length (a ++ t) b = true := by
  induction a generalizing b with
  | nil => rfl
  | cons c a ih =>
    cases b with
    | nil => simp [strcaseeq, lower] at h
    | cons d b =>
      simp only [strcaseeq, lower, List.map_cons, List.cons.injEq, decide_eq_true_eq] at h
      simp only [List.cons_append, List.length_cons, strncaseeq, Bool.and_eq_true, decide_eq_true_eq]
      exact ⟨h.1, ih (decide_eq_true h.2)⟩

theorem OfService.hit {service r : Str} (h : OfService service (pairOf r)) : strncaseeq (nameOf r).length r service = true := by
  have hname := h.2
  rw [nameOf_pairOf h.1] at hname
  have := strncaseeq_of_strcaseeq (r.dropWhile (· ≠ '=')) hname
  rwa [nameOf, List.takeWhile_append_dropWhile] at this

theorem not_ofService_nil (service : Str) : ¬ OfService service (pairOf []) := by simp [OfService, pairOf]

theorem mem_of_mem_pairOf {c : Char} {r : Str} (h : c ∈ pairOf r) : c ∈ r := (List.takeWhile_prefix _).subset h

/-- The pair that was looked for, and nothing before it. -/
theorem rests_named {service s : Str} (h : OfService service (pairOf (skipBlanks s))) :
    wanted service s = some (pairOf (skipBlanks s)) ∧ before service s = [] := by
  rw [wanted, before, rests_eq]
  simp [h]

theorem rests_last {service s : Str} (h : ¬ OfService service (pairOf (skipBlanks s))) (hlast : ';' ∉ skipBlanks s) :
    wanted service s = none ∧ before service s = [skipBlanks s] := by
  rw [wanted, before, rests_eq]
  simp [h, hlast]

theorem rests_next {service s : Str} (h : ¬ OfService service (pairOf (skipBlanks s))) (hnext : ';' ∈ skipBlanks s) :
    wanted service s = wanted service (afterPair (skipBlanks s)) ∧
      before service s = skipBlanks s :: before service (afterPair (skipBlanks s)) := by
  rw [wanted, before, rests_eq]
  simp [h, hnext, wanted, before]

theorem wanted_named {service s p : Str} (h : wanted service s = some p) : OfService service p := by
  simpa using List.find?_some h

theorem mem_before (service s : Str) (h : ¬ OfService service (pairOf (skipBlanks s))) :
    skipBlanks s ∈ before service s := by
  rw [before, rests_eq, List.takeWhile_cons, if_pos (by simpa using h)]
  exact List.mem_cons_self

/-! ## The lighttpd loop -/

/-- Where no `=` follows, the loop stays. -/
theorem cookieScan_stays {service r : Str} (hblank : skipBlanks r = r) (hne : r ≠ []) (hno : '=' ∉ r) (n : Nat) :
    cookieScan service n r = none := by
  induction n with
  | zero => rfl
  | succ n ih =>
    rw [cookieScan, if_neg hne]
    simp only [scanRound, hblank, hne, and_false, if_false, hno, not_false_eq_true, if_true]
    exact ih

/-- One more round. -/
theorem cookieScan_ends {service data : Str} {w : Option Str} (hne : data ≠ []) :
    (∃ n, cookieScan service n data = some w) ↔
      (match scanRound service data with
        | .stop cookie => some cookie = some w
        | .go data => ∃ n, cookieScan service n data = some w) := by
  constructor
  · rintro ⟨n, hn⟩
    cases n with
    | zero => cases hn
    | succ n =>
      rw [cookieScan, if_neg hne] at hn
      cases hround : scanRound service data with
      | stop cookie => simpa [hround] using hn
      | go data => exact ⟨n, by simpa [hround] using hn⟩
  · intro h
    cases hround : scanRound service data with
    | stop cookie => exact ⟨1, by rw [cookieScan, if_neg hne, hround]; simpa [hround] using h⟩
    | go data' =>
      rw [hround] at h
      obtain ⟨n, hn⟩ := h
      exact ⟨n + 1, by rw [cookieScan, if_neg hne, hround]; exact hn⟩

theorem cookieScan_iff (service header : Str) :
    (∃ n, cookieScan service n header = some (wanted service header)) ↔ Plain service header := by
  induction hlen : header.length using Nat.strong_induction_on generalizing header with
  | _ len ih =>
  by_cases hne : header = []
  -- nothing is left
  · subst hne
    have hlast := @rests_last service [] (not_ofService_nil service) (by simp [skipBlanks])
    refine iff_of_true ⟨1, by rw [hlast.1]; rfl⟩ fun r hr => ?_
    rw [hlast.2] at hr
    exact .inl (by simpa [skipBlanks] using hr)
  rw [cookieScan_ends hne]
  by_cases hnil : skipBlanks header = []
  · have hlast := @rests_last service header (by rw [hnil]; exact not_ofService_nil service) (by simp [hnil])
    refine iff_of_true (by simp [scanRound, hnil, hlast.1]) fun r hr => ?_
    rw [hlast.2, hnil] at hr
    exact .inl (List.mem_singleton.1 hr)
  by_cases heq : '=' ∉ skipBlanks header
  -- no `=` follows, and the next round is this one again
  · have hround : scanRound service header = .go (skipBlanks header) := by
      simp [scanRound, hnil, heq]
    have hnot : ¬ OfService service (pairOf (skipBlanks header)) := fun h => heq (mem_of_mem_pairOf h.1)
    rw [hround]
    refine iff_of_false ?_ fun hplain => ?_
    · rintro ⟨n, hn⟩
      rw [cookieScan_stays (skipBlanks_idem header) hnil heq] at hn
      cases hn
    · rcases hplain _ (mem_before service header hnot) with h | h
      · exact hnil h
      · exact heq h.1
  rw [not_not] at heq
  by_cases hnamed : OfService service (pairOf (skipBlanks header))
  · have hround : scanRound service header = .stop (some (pairOf (skipBlanks header))) := by
      have hhit := hnamed.hit
      simp [scanRound, hnil, heq, hhit]
    obtain ⟨hwanted, hbefore⟩ := rests_named hnamed
    rw [hround, hwanted]
    exact iff_of_true rfl fun r hr => by rw [hbefore] at hr; cases hr
  by_cases hhit : strncaseeq (nameOf (skipBlanks header)).length (skipBlanks header) service = true
  -- a beginning of the service's name is taken for it
  · have hround : scanRound service header = .stop (some (pairOf (skipBlanks header))) := by
      simp [scanRound, hnil, heq, hhit]
    rw [hround]
    refine iff_of_false (fun h => ?_) fun hplain => ?_
    · exact hnamed (wanted_named (Option.some.inj h).symm)
    · rcases hplain _ (mem_before service header hnamed) with h | h
      · exact hnil h
      · rw [hhit] at h
        cases h.2
  rw [Bool.not_eq_true] at hhit
  by_cases hnext : ';' ∈ skipBlanks header
  -- another name's pair, with more after it
  · have hround : scanRound service header = .go (afterPair (skipBlanks header)) := by
      simp [scanRound, hnil, heq, hhit, hnext]
    obtain ⟨hwanted, hbefore⟩ := rests_next hnamed hnext
    have hlt := Nat.lt_of_lt_of_le (afterPair_lt hnext) (skipBlanks_le header)
    rw [hround, hwanted, Plain, hbefore, List.forall_mem_cons]
    refine (ih _ (hlen ▸ hlt) _ rfl).trans ⟨fun h => ⟨.inr ⟨heq, hhit⟩, h⟩, fun h => h.2⟩
  · have hround : scanRound service header = .stop none := by
      simp [scanRound, hnil, heq, hhit, hnext]
    obtain ⟨hwanted, hbefore⟩ := rests_last hnamed hnext
    rw [hround, hwanted, Plain, hbefore, List.forall_mem_cons]
    exact iff_of_true rfl ⟨.inr ⟨heq, hhit⟩, by simp⟩

/-! ## The Apache loop -/

theorem skipBlanks_eq {s : Str} (h : s.head? ≠ some ' ') : skipBlanks s = s := by
  cases s with
  | nil => rfl
  | cons c s => simpa [skipBlanks] using h

/-- A run of `;` only has empty pairs in it. -/
theorem find_rests_run (f : Str → Bool) (hf : f [] = false) (t : Str) :
    ((rests t).map pairOf).find? f = ((rests (t.dropWhile (· = ';'))).map pairOf).find? f := by
  induction t with
  | nil => rfl
  | cons c t ih =>
    by_cases hc : c = ';'
    · subst hc
      have hpair : pairOf (';' :: t) = [] := by simp [pairOf]
      have hafter : afterPair (';' :: t) = t := by simp [afterPair]
      have hskip : skipBlanks (';' :: t) = ';' :: t := by simp [skipBlanks]
      rw [rests_eq, hskip, if_pos List.mem_cons_self, hafter, List.map_cons, hpair, List.find?_cons, hf, ih]
      simp
    · simp [hc]

/-- The Apache loop stops at the first pair by that name, or bare name. -/
theorem apacheScan_find (apr : Apr) {service header : Str} (hservice : service ≠ []) (hblank : skipBlanks header = header) :
    ∃ n, apacheScan apr service n header =
      some (((rests header).map pairOf).find? fun p => strcaseeq (nameOf p) service) := by
  have hempty : strcaseeq (nameOf []) service = false := by
    cases service with
    | nil => exact absurd rfl hservice
    | cons c s => simp [strcaseeq, nameOf, lower]
  induction hlen : header.length using Nat.strong_induction_on generalizing header with
  | _ len ih =>
  by_cases hne : header = []
  · subst hne
    refine ⟨1, ?_⟩
    rw [rests_eq, hblank]
    simp [apacheScan, pairOf, hempty]
  by_cases hname : strcaseeq (nameOf (pairOf header)) service = true
  · refine ⟨1, ?_⟩
    rw [rests_eq, hblank, List.map_cons, List.find?_cons, hname]
    rw [nameOf, pairOf] at hname
    simp only [apacheScan, hne, if_false, apr.getword_eq, hname, if_true]
    rfl
  rw [Bool.not_eq_true] at hname
  have hname' := hname
  rw [nameOf, pairOf] at hname'
  by_cases hnext : ';' ∈ header
  · obtain ⟨t, ht⟩ : ∃ t, header.dropWhile (· ≠ ';') = ';' :: t := by
      cases hdrop : header.dropWhile (· ≠ ';') with
      | nil => exact absurd (List.dropWhile_eq_nil_iff.1 hdrop ';' hnext) (by simp)
      | cons c t =>
        have := List.head?_dropWhile_not (· ≠ ';') header
        rw [hdrop] at this
        exact ⟨t, by simp at this; rw [this]⟩
    have hafter : afterPair header = t := by rw [afterPair, ht]; rfl
    have hlt : (skipBlanks (t.dropWhile (· = ';'))).length < header.length := by
      have h1 := skipBlanks_le (t.dropWhile (· = ';'))
      have h2 := (List.dropWhile_suffix (· = ';') (l := t)).length_le
      have h3 := afterPair_lt hnext
      rw [hafter] at h3
      omega
    obtain ⟨n, hn⟩ := ih _ (hlen ▸ hlt) (skipBlanks_idem _) rfl
    refine ⟨n + 1, ?_⟩
    rw [rests_eq, hblank, if_pos hnext, hafter, List.map_cons, List.find?_cons, hname, find_rests_run _ hempty,
      ← rests_skipBlanks, ← hn]
    simp only [apacheScan, hne, if_false, apr.getword_eq, hname', ht]
    simp
  · refine ⟨2, ?_⟩
    have hdrop : header.dropWhile (· ≠ ';') = [] :=
      List.dropWhile_eq_nil_iff.2 fun c hc => by simpa using fun he : c = ';' => hnext (he ▸ hc)
    rw [rests_eq, hblank, if_neg hnext, List.map_cons, List.find?_cons, hname]
    simp only [apacheScan, hne, if_false, apr.getword_eq, hname', hdrop]
    simp [skipBlanks]

theorem apacheScan_mono (apr : Apr) (service : Str) {n m : Nat} (header : Str) {w : Option Str}
    (h : apacheScan apr service n header = some w) (hle : n ≤ m) : apacheScan apr service m header = some w := by
  induction n generalizing m header with
  | zero => cases h
  | succ n ih =>
    obtain ⟨m, rfl⟩ : ∃ k, m = k + 1 := ⟨m - 1, by omega⟩
    rw [apacheScan] at h ⊢
    split at h
    · next hnil => rw [if_pos hnil]; exact h
    · next hnil =>
      rw [if_neg hnil]
      simp only at h ⊢
      split at h
      · next hname => rw [if_pos hname]; exact h
      · next hname => rw [if_neg hname]; exact ih _ h (by omega)

theorem find_named (service : Str) (rs : List Str) :
    (rs.map pairOf).find? (fun p => strcaseeq (nameOf p) service) = (rs.map pairOf).find? (fun p => OfService service p) ↔
      ∀ r ∈ rs.takeWhile fun r => ¬ OfService service (pairOf r), strcaseeq (nameOf (pairOf r)) service = false := by
  induction rs with
  | nil => simp
  | cons r rs ih =>
    by_cases hnamed : OfService service (pairOf r)
    · simp [hnamed, hnamed.2]
    · cases hname : strcaseeq (nameOf (pairOf r)) service with
      | false =>
        simp only [List.map_cons, List.find?_cons, hname, hnamed, decide_false, not_false_eq_true, decide_true,
          List.takeWhile_cons, if_true, List.forall_mem_cons, true_and]
        exact ih
      | true =>
        -- the bare name stops the Apache loop, and is no pair
        refine iff_of_false (fun heq => ?_) fun h => ?_
        · rw [List.map_cons, List.find?_cons, hname, List.find?_cons, decide_eq_false hnamed] at heq
          exact hnamed (by simpa using List.find?_some heq.symm)
        · have := h r (by simp [hnamed])
          rw [hname] at this
          cases this

theorem apacheScan_iff (apr : Apr) {service header : Str} (hservice : service ≠ []) (hblank : header.head? ≠ some ' ') :
    (∃ n, apacheScan apr service n header = some (wanted service header)) ↔ NoBare service header := by
  obtain ⟨n, hn⟩ := apacheScan_find apr hservice (skipBlanks_eq hblank)
  rw [NoBare, before, ← find_named]
  constructor
  · rintro ⟨m, hm⟩
    have hmax := apacheScan_mono apr service header hn (Nat.le_max_left n m)
    rw [apacheScan_mono apr service header hm (Nat.le_max_right n m)] at hmax
    exact (Option.some.inj hmax).symm
  · intro h
    exact ⟨n, hn.trans (congrArg some h)⟩

/-! ## The pair of the service -/

/-- The loop ends, with the service's first pair or none. Where the header does
not begin with a blank, which no value of a header does, the Apache filters
stop at the same pair. -/
structure CookieRight (apr : Apr) (service header : Str) : Prop where
  picks : ∃ n, cookieScan service n header = some (wanted service header)
  apache : header.head? ≠ some ' ' → ∃ n, apacheScan apr service n header = some (wanted service header)

theorem cookie_right_iff (apr : Apr) {service : Str} (hservice : service ≠ []) (header : Str) :
    CookieRight apr service header ↔
      Plain service header ∧ (header.head? ≠ some ' ' → NoBare service header) := by
  constructor
  · intro h
    exact ⟨(cookieScan_iff service header).1 h.picks, fun hblank => (apacheScan_iff apr hservice hblank).1 (h.apache hblank)⟩
  · intro h
    exact ⟨(cookieScan_iff service header).2 h.1, fun hblank => (apacheScan_iff apr hservice hblank).2 (h.2 hblank)⟩

/-- The repository's `ap_getword`, as the Apache filters rely on it. -/
def apr : Apr := ⟨fun s c => (s.takeWhile (· ≠ c), (s.dropWhile (· ≠ c)).dropWhile (· = c)), fun _ _ => rfl⟩

theorem second_cookie_right : "cosign-wiki".toList ≠ [] ∧
    CookieRight apr "cosign-wiki".toList "lang=de; cosign-wiki=s; x=y".toList :=
  ⟨by decide, (cookie_right_iff apr (by decide) _).2 (by decide)⟩

/-- A browser that sends a flag along never gets an answer. -/
theorem flag_loops : ¬ ∀ (apr : Apr) (service header : Str), service ≠ [] → CookieRight apr service header := by
  intro h
  obtain ⟨n, hn⟩ := (h apr "cosign-wiki".toList "flag".toList (by decide)).picks
  rw [cookieScan_stays (by decide) (by decide) (by decide)] at hn
  cases hn

end Cosign.Filter
