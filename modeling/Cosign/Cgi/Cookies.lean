import Cosign.Common.Argcargv
import Cosign.Daemon.Paths
/-!
# The cookies the CGI makes

`mkcookie` fills a buffer of 128 characters, and the CGI hands its value out as
a login cookie or behind a service's name. Every reader of a cookie has a test
of its own: the CGI's `validchars`, the daemon's parser and paths, the length
the CGI and the filters ask for.
-/

namespace Cosign

/-- `sizeof( tmp )`, and `sizeof( new_cookiebuf )`. -/
def cookieBuf : Nat := 128

/-- `sizeof( new_scookie )`. -/
def scookieLen : Nat := 255

/-- What the CGI and the filters ask of a cookie's length. -/
def minCookieLen : Nat := 120

def mkscookie (serviceName : Str) (len : Nat) (rand : Rand) : Option Str :=
  match mkcookie cookieBuf rand with
  | none => none
  | some tmp =>
    let newScookie := serviceName ++ '=' :: tmp
    if newScookie.length ≥ len then none else some newScookie

/-- Cookie `c` of value `v` passes every test made of it. -/
structure Accepted (c v : Str) : Prop where
  valid : validchars c = true
  token : ∀ before after : List Str, (∀ w ∈ before, IsWord w) → (∀ w ∈ after, IsWord w) →
    acavParse (unwords (before ++ c :: after)) = before ++ c :: after
  delimiters : '/' ∉ c ∧ '&' ∉ c ∧ ';' ∉ c
  flat : mkcookiepath none 0 c maxPathLen = some c
  hashed : ∀ h, h = 1 ∨ h = 2 → ∃ p d, mkcookiepath none h c maxPathLen = some p ∧ InDatabase none h c p d
  long : minCookieLen ≤ v.length

/-! ## Valid characters -/

theorem validchars_iff {s : Str} : validchars s = true ↔ ∀ c ∈ s, validTab.getD c.toNat 0 ≠ 0 := by
  simp [validchars]

theorem validchars_append {s t : Str} : validchars (s ++ t) = true ↔ validchars s = true ∧ validchars t = true := by
  simp [validchars]

theorem not_mem_of_valid {s : Str} (h : validchars s = true) {c : Char} (hc : validTab.getD c.toNat 0 = 0) : c ∉ s :=
  fun hm => validchars_iff.1 h c hm hc

/-- No valid character is a blank. -/
theorem word_of_valid {s : Str} (h : validchars s = true) (hne : s ≠ []) : IsWord s := by
  refine ⟨hne, ?_⟩
  intro c hc
  rw [isBlank, Bool.or_eq_false_iff, Bool.or_eq_false_iff]
  refine ⟨⟨decide_eq_false ?_, decide_eq_false ?_⟩, decide_eq_false ?_⟩
  · rintro rfl
    exact not_mem_of_valid h rfl hc
  · rintro rfl
    exact not_mem_of_valid h rfl hc
  · rintro rfl
    exact not_mem_of_valid h rfl hc

theorem valid_of_alphabet {v : Str} (hv : ∀ c ∈ v, c ∈ fbase64Alphabet) : validchars v = true := by
  have hall : validchars fbase64Alphabet = true := by decide +kernel
  rw [validchars_iff] at hall ⊢
  intro c hc
  exact hall c (hv c hc)

/-! ## The value -/

/-- 93 random bytes are 124 characters. -/
theorem mkcookie_value (r : Nat → UInt8) :
    ∃ v, mkcookie cookieBuf (some r) = some v ∧ v.length = 124 ∧ ∀ c ∈ v, c ∈ fbase64Alphabet := by
  refine ⟨fbase64e ((List.range 93).map r), rfl, mkcookie_length (r := some r) rfl, ?_⟩
  exact fbase64e_mem _ (by rw [List.length_map, List.length_range])

/-! ## The cookie -/

theorem dropWhile_name {s v : Str} (hs : '=' ∉ s) : (s ++ '=' :: v).dropWhile (· ≠ '=') = '=' :: v := by
  have hall : ∀ c ∈ s, decide (c ≠ '=') = true := by
    intro c hc
    refine decide_eq_true ?_
    rintro rfl
    exact hs hc
  rw [List.dropWhile_append_of_pos hall]
  rfl

/-- A name without `=` before a value of the alphabet is good for everyone. -/
theorem accepted_of {s v : Str} (hs : validchars s = true) (he : '=' ∉ s) (hv : ∀ c ∈ v, c ∈ fbase64Alphabet)
    (hlen : v.length = 124) (hc : (s ++ '=' :: v).length < maxCookieLen) : Accepted (s ++ '=' :: v) v := by
  have hvalid : validchars (s ++ '=' :: v) = true :=
    validchars_append.2 ⟨hs, validchars_append (s := ['=']).2 ⟨rfl, valid_of_alphabet hv⟩⟩
  have hword : IsWord (s ++ '=' :: v) := word_of_valid hvalid (by simp)
  have hslash : '/' ∉ s ++ '=' :: v := not_mem_of_valid hvalid rfl
  have hvalue : 2 < ((s ++ '=' :: v).dropWhile (· ≠ '=')).length := by
    rw [dropWhile_name he, List.length_cons]
    omega
  -- the file of a cookie that short fits the daemon's buffers
  have hpath : ∀ h : Int, h = 0 ∨ h = 1 ∨ h = 2 →
      mkcookiepath none h (s ++ '=' :: v) maxPathLen = some (cookieFile h (s ++ '=' :: v)) := by
    intro h hh
    rw [mkcookiepath_eq none hh, if_pos, under]
    refine ⟨hslash, hc, hvalue, ?_⟩
    have hfile : (cookieFile h (s ++ '=' :: v)).length ≤ (s ++ '=' :: v).length + 3 := by
      unfold cookieFile hashChars
      split
      · omega
      · simp only [List.length_append, List.length_cons, List.length_take]
        omega
    rw [under]
    simp only [maxPathLen, maxCookieLen] at hc ⊢
    omega
  refine ⟨hvalid, ?_, ⟨hslash, not_mem_of_valid hvalid rfl, not_mem_of_valid hvalid rfl⟩, hpath 0 (.inl rfl), ?_, ?_⟩
  · intro before after hb ha
    refine acavParse_unwords ?_
    intro w hw
    rcases List.mem_append.1 hw with hw | hw
    · exact hb w hw
    rcases List.mem_cons.1 hw with rfl | hw
    · exact hword
    · exact ha w hw
  · intro h hh
    refine ⟨_, _, hpath h (.inr hh), inDatabase_of hh (hpath h (.inr hh)) ?_⟩
    intro x hx
    rw [hashChars, dropWhile_name he] at hx
    exact hv x (List.mem_of_mem_take hx)
  · rw [hlen, minCookieLen]
    omega

/-- Whatever the random generator gives, the value and every cookie made of it
are good for the CGI, the daemon, the sweeper and the filters. -/
theorem cookies_accepted (r : Nat → UInt8) :
    ∃ v, mkcookie cookieBuf (some r) = some v ∧ v.length = 124 ∧ (∀ c ∈ v, c ∈ fbase64Alphabet) ∧
      (∀ s c, validchars s = true → '=' ∉ s → mkscookie s scookieLen (some r) = some c →
        c = s ++ '=' :: v ∧ Accepted c v) ∧
      Accepted ("cosign".toList ++ '=' :: v) v := by
  obtain ⟨v, hmk, hlen, hv⟩ := mkcookie_value r
  refine ⟨v, hmk, hlen, hv, ?_, ?_⟩
  · intro s c hs he hc
    rw [mkscookie, hmk] at hc
    dsimp only at hc
    split at hc
    · cases hc
    rename_i hl
    cases hc
    refine ⟨rfl, accepted_of hs he hv hlen ?_⟩
    simp only [scookieLen] at hl
    simp only [maxCookieLen]
    omega
  · refine accepted_of (by decide) (by decide) hv hlen ?_
    rw [List.length_append, List.length_cons, hlen]
    decide

end Cosign
