import Cosign.Cgi.Reauth
import Cosign.Filter.Factors
/-!
# Factors with the suffix

`match_factor` looks for the suffix from the left and wants it to reach to the
end of the word. Where the suffix also begins further left, that place is the
one it finds, and a factor with the suffix is not taken for the factor. The
filter's loop has the same test.
-/

namespace Cosign.Cgi

open Cosign.Filter (strstr strstr_some suffixed suffixed_iff Early findFactor findFactor_fake checkFactors checkFactors_iff
  HostConfig)

/-- `match_factor`, with `satisfied` as it leaves it: the suffix is cut off with
a NUL at `p`, and its first character put back there. -/
def matchFactorIn (required satisfied : Str) (suffix : Option Str) : Bool × Str :=
  if required = satisfied then (true, satisfied)
  else match suffix with
    | none => (false, satisfied)
    | some x =>
      match strstr satisfied x with
      | none => (false, satisfied)
      | some p =>
        if p.length = x.length then
          let i := satisfied.length - p.length
          (required = satisfied.take i, (satisfied.set i '\x00').set i (x.headD '\x00'))
        else (false, satisfied)

theorem matchFactorIn_fst (r s : Str) (suffix : Option Str) : (matchFactorIn r s suffix).1 = matchFactor r s suffix := by
  unfold matchFactorIn matchFactor
  by_cases heq : r = s
  · simp [heq]
  rw [if_neg heq]
  cases suffix with
  | none => simp [suffixed, heq]
  | some x =>
    unfold suffixed
    dsimp only
    cases strstr s x with
    | none => simp [heq]
    | some p =>
      by_cases hlen : p.length = x.length
      · simp [heq, hlen]
      · simp [heq, hlen]

/-- What was cut is put back. -/
theorem matchFactorIn_snd (r s : Str) {x : Str} (hx : x ≠ []) : (matchFactorIn r s (some x)).2 = s := by
  unfold matchFactorIn
  split
  · rfl
  dsimp only
  cases hp : strstr s x with
  | none => rfl
  | some p =>
    dsimp only
    split
    swap
    · rfl
    rename_i hlen
    obtain ⟨k, hk, rfl, hpre, -⟩ := strstr_some hp
    have hdrop : x = s.drop k := hpre.eq_of_length hlen.symm
    have hcut : s.length - (s.drop k).length = k := by rw [List.length_drop]; omega
    have hlt : k < s.length := by
      by_contra hge
      exact hx (by rw [hdrop, List.drop_eq_nil_of_le (by omega)])
    have hhead : x.headD '\x00' = s[k] := by
      rw [hdrop, List.drop_eq_getElem_cons hlt]
      rfl
    dsimp only
    rw [hcut, hhead, List.set_set, List.set_getElem_self]

theorem matchFactor_iff {r s x : Str} : matchFactor r s (some x) = true ↔ s = r ∨ (s = r ++ x ∧ ¬ Early x r) := by
  unfold matchFactor
  rw [Bool.or_eq_true, suffixed_iff, decide_eq_true_eq, eq_comm]

/-- The filter's test of one word is the CGI's. -/
theorem findFactor_match {cfg : HostConfig} (hfake : cfg.fake = true) (r : Str) (ws : List Str) :
    findFactor cfg r ws = 0 ↔ ∃ s ∈ ws, matchFactor r s cfg.suffix = true := by
  rw [findFactor_fake hfake]
  simp only [matchFactor, Bool.or_eq_true, decide_eq_true_eq]

/-- What the manual promises of the suffix, for one pair of factors. -/
structure Exact (cfg : HostConfig) (r s x : Str) : Prop where
  result : (matchFactorIn r s (some x)).1 = true ↔ s = r ∨ s = r ++ x
  unchanged : (matchFactorIn r s (some x)).2 = s
  filter : findFactor cfg r [s] = 0 ↔ s = r ∨ s = r ++ x

/-- The CGI's and the filter's answer to whether all of `fv` are satisfied. -/
def Agree (cfg : HostConfig) (x : Str) : Prop :=
  ∀ fv ws : List Str, checkFactors cfg ws fv = 0 ↔ ∀ r ∈ fv, ∃ s ∈ ws, (matchFactorIn r s (some x)).1 = true

theorem agree {cfg : HostConfig} {x : Str} (hfake : cfg.fake = true) (hsuffix : cfg.suffix = some x) : Agree cfg x := by
  intro fv ws
  rw [checkFactors_iff]
  simp only [findFactor_match hfake, hsuffix, matchFactorIn_fst]

/-- A factor with the suffix counts unless the suffix begins in it earlier too. -/
theorem match_factor_iff {cfg : HostConfig} {r s x : Str} (hx : x ≠ []) (hfake : cfg.fake = true)
    (hsuffix : cfg.suffix = some x) : (Exact cfg r s x ∧ Agree cfg x) ↔ ¬ (s = r ++ x ∧ Early x r) := by
  have hmatch : (matchFactorIn r s (some x)).1 = true ↔ s = r ∨ (s = r ++ x ∧ ¬ Early x r) := by
    rw [matchFactorIn_fst, matchFactor_iff]
  have hfilter : findFactor cfg r [s] = 0 ↔ s = r ∨ (s = r ++ x ∧ ¬ Early x r) := by
    rw [findFactor_match hfake, hsuffix, ← matchFactor_iff]
    simp
  constructor
  · rintro ⟨hexact, -⟩ ⟨rfl, hearly⟩
    rcases hmatch.1 (hexact.result.2 (.inr rfl)) with heq | ⟨-, hne⟩
    · exact hx (by simpa using heq)
    · exact hne hearly
  · intro hno
    have hsame : (s = r ∨ (s = r ++ x ∧ ¬ Early x r)) ↔ s = r ∨ s = r ++ x := by
      constructor
      · rintro (h | ⟨h, -⟩)
        · exact .inl h
        · exact .inr h
      · rintro (h | h)
        · exact .inl h
        · exact .inr ⟨h, fun hearly => hno ⟨h, hearly⟩⟩
    exact ⟨⟨hmatch.trans hsame, matchFactorIn_snd r s hx, hfilter.trans hsame⟩, agree hfake hsuffix⟩

/-- `CosignFactorSuffix -junk`, with `CosignFactorSuffixIgnore on`. -/
def junkFilter : HostConfig := { Filter.otpFilter with fake := true }

theorem match_factor_junk : (Exact junkFilter "otp".toList "otp-junk".toList "-junk".toList ∧
    Agree junkFilter "-junk".toList) ↔ ¬ ("otp-junk".toList = "otp".toList ++ "-junk".toList ∧ Early "-junk".toList "otp".toList) :=
  match_factor_iff (by decide) rfl rfl

/-- `otp-junk-junk` is `otp-junk` with the suffix, and is not taken for it. -/
theorem junk_twice : ¬ ∀ (cfg : HostConfig) (r s x : Str), x ≠ [] → cfg.fake = true → cfg.suffix = some x →
    Exact cfg r s x ∧ Agree cfg x := by
  intro h
  have := (h junkFilter "otp-junk".toList "otp-junk-junk".toList "-junk".toList (by decide) rfl rfl).1.result.2 (.inr rfl)
  exact absurd this (by decide)

end Cosign.Cgi
