import Cosign.Filter.Replies
/-!
# Required factors

`netcheck_cookie` looks for each required factor among the words of the reply,
from the left. With a suffix configured and `fake` off, a word that is the
factor with the suffix ends the whole check with an error, also when the factor
itself is a word further right. So the order in which the server lists the
factors can decide.
-/

namespace Cosign.Filter

/-! ## Where a suffix is found -/

/-- `x` begins in `f ++ x` before the end of `f`. -/
def Early (x f : Str) : Prop := ∃ k < f.length, x <+: (f ++ x).drop k

instance (x f : Str) : Decidable (Early x f) := by
  unfold Early
  infer_instance

theorem strstr_cons (c : Char) (s t : Str) :
    strstr (c :: s) t = if t <+: c :: s then some (c :: s) else strstr s t := by
  by_cases h : t <+: c :: s
  · simp [strstr, h]
  · simp [strstr, h]

/-- The first place where `t` begins. -/
theorem strstr_some {s t p : Str} (h : strstr s t = some p) :
    ∃ k ≤ s.length, p = s.drop k ∧ t <+: p ∧ ∀ j < k, ¬ t <+: s.drop j := by
  induction s with
  | nil =>
    have hp := List.find?_some h
    have hm := List.mem_of_find?_eq_some h
    simp only [List.tails, List.mem_singleton] at hm
    subst hm
    exact ⟨0, by simp, rfl, List.isPrefixOf_iff_prefix.1 hp, by simp⟩
  | cons c s ih =>
    rw [strstr_cons] at h
    split at h
    · rename_i hpre
      cases h
      exact ⟨0, by simp, rfl, hpre, by simp⟩
    · rename_i hpre
      obtain ⟨k, hk, rfl, ht, hmin⟩ := ih h
      refine ⟨k + 1, by simpa using hk, rfl, ht, ?_⟩
      intro j hj
      cases j with
      | zero => exact hpre
      | succ j => exact hmin j (by omega)

theorem strstr_of_prefix {s t : Str} {k : Nat} (h : t <+: s.drop k) : ∃ p, strstr s t = some p := by
  have hmem : s.drop k ∈ s.tails := (List.mem_tails _ _).2 (List.drop_suffix k s)
  have hsome : (strstr s t).isSome := by
    unfold strstr
    rw [List.find?_isSome]
    exact ⟨s.drop k, hmem, List.isPrefixOf_iff_prefix.2 h⟩
  exact Option.isSome_iff_exists.1 hsome

theorem suffixed_eq {x f w : Str} (h : suffixed (some x) f w = true) : w = f ++ x ∧ ¬ Early x f := by
  unfold suffixed at h
  dsimp only at h
  split at h
  · cases h
  rename_i p hp
  rw [Bool.and_eq_true, decide_eq_true_eq, decide_eq_true_eq] at h
  obtain ⟨hlen, rfl⟩ := h
  obtain ⟨k, hk, rfl, hpre, hmin⟩ := strstr_some hp
  have hx : x = w.drop k := hpre.eq_of_length hlen.symm
  have hw : w.take k ++ x = w := by rw [hx, List.take_append_drop]
  have hcut : w.length - (w.drop k).length = k := by rw [List.length_drop]; omega
  rw [hcut]
  refine ⟨hw.symm, ?_⟩
  rintro ⟨j, hj, hearly⟩
  rw [hw] at hearly
  rw [List.length_take] at hj
  exact hmin j (by omega) hearly

theorem suffixed_append {x f : Str} (h : ¬ Early x f) : suffixed (some x) f (f ++ x) = true := by
  have hend : x <+: (f ++ x).drop f.length := by simp
  obtain ⟨p, hp⟩ := strstr_of_prefix hend
  obtain ⟨k, hk, rfl, hpre, hmin⟩ := strstr_some hp
  have hle : k ≤ f.length := by
    by_contra hlt
    exact hmin f.length (by omega) hend
  have hge : ¬ k < f.length := fun hlt => h ⟨k, hlt, hpre⟩
  obtain rfl : k = f.length := by omega
  simp [suffixed, hp]

theorem suffixed_iff {x f w : Str} : suffixed (some x) f w = true ↔ w = f ++ x ∧ ¬ Early x f := by
  constructor
  · exact suffixed_eq
  · rintro ⟨rfl, h⟩
    exact suffixed_append h

/-- Another word that has the factor in it is longer. -/
theorem suffixed_longer {suffix : Option Str} {f w : Str} (h : suffixed suffix f w = true) (hne : f ≠ w) :
    f.length < w.length := by
  cases suffix with
  | none => cases h
  | some x =>
    obtain ⟨rfl, -⟩ := suffixed_eq h
    have hx : x ≠ [] := by
      rintro rfl
      simp at hne
    have := List.length_pos_iff.2 hx
    rw [List.length_append]
    omega

/-! ## The two loops -/

theorem findFactor_fake {cfg : HostConfig} (hfake : cfg.fake = true) (f : Str) (ws : List Str) :
    findFactor cfg f ws = 0 ↔ ∃ w ∈ ws, f = w ∨ suffixed cfg.suffix f w = true := by
  induction ws with
  | nil => simp [findFactor]
  | cons w ws ih =>
    unfold findFactor
    by_cases heq : f = w
    · simp [heq]
    by_cases hs : suffixed cfg.suffix f w = true
    · simp [heq, hs, hfake]
    · simp [heq, hs, ih]

/-- With `fake` off, only the factor itself counts. -/
theorem findFactor_mem {cfg : HostConfig} (hfake : cfg.fake = false) {f : Str} {ws : List Str}
    (h : findFactor cfg f ws = 0) : f ∈ ws := by
  induction ws with
  | nil => simp [findFactor] at h
  | cons w ws ih =>
    unfold findFactor at h
    split at h
    · rename_i heq
      rw [heq]
      exact List.mem_cons_self
    · split at h
      · simp [hfake] at h
      · exact List.mem_cons_of_mem _ (ih h)

/-- The factor is found where no word before it has it with the suffix. -/
theorem findFactor_clear {cfg : HostConfig} {f : Str} {ws : List Str} (hf : f ∈ ws)
    (h : ∀ w vs, w :: vs <:+ ws → f ≠ w → suffixed cfg.suffix f w = true → f ∉ vs) : findFactor cfg f ws = 0 := by
  induction ws with
  | nil => cases hf
  | cons w ws ih =>
    unfold findFactor
    by_cases heq : f = w
    · simp [heq]
    have htail : f ∈ ws := (List.mem_cons.1 hf).resolve_left heq
    have hs : suffixed cfg.suffix f w = false := by
      by_contra hs
      exact h w ws (List.suffix_refl _) heq (by simpa using hs) htail
    rw [if_neg heq, hs, if_neg (by simp)]
    exact ih htail fun v vs hv => h v vs (hv.trans (List.suffix_cons w ws))

theorem findFactor_hidden {cfg : HostConfig} (hfake : cfg.fake = false) {f w : Str} (ws : List Str)
    (hne : f ≠ w) (h : suffixed cfg.suffix f w = true) : findFactor cfg f (w :: ws) ≠ 0 := by
  simp [findFactor, hne, h, hfake]

theorem checkFactors_iff (cfg : HostConfig) (ws fv : List Str) :
    checkFactors cfg ws fv = 0 ↔ ∀ f ∈ fv, findFactor cfg f ws = 0 := by
  induction fv with
  | nil => simp [checkFactors]
  | cons f fv ih =>
    unfold checkFactors
    by_cases h : findFactor cfg f ws = 0
    · simp [h, ih]
    · simp [h]

/-! ## A reply and its factors -/

/-- `mf`: the place after the last factor. -/
def lastFactor (rekey : Rekey) (conn : Conn) (av : List Str) : Nat :=
  if rekeys rekey conn then av.length - 1 else av.length

/-- The words the outer loop looks at. -/
def factorWords (rekey : Rekey) (conn : Conn) (av : List Str) : List Str := (av.take (lastFactor rekey conn av)).drop 3

/-- A reply that passes all that `netcheck_cookie` checks, the required factors
aside. -/
structure Acceptable (rekey : Rekey) (conn : Conn) (line : Str) (av : List Str) : Prop where
  code : line.head? = some '2'
  args : 4 ≤ av.length
  ipaddr : (av.getD 1 []).length < ipaddrSize
  user : (av.getD 2 []).length < userSize
  factor : supportsFactors conn.proto.toNat = true →
    (unwords (av.getD 3 [] :: (factorWords rekey conn av).drop 1)).length < factorSize
  realm : (av.getD 3 []).length < realmSize
  name : rekeys rekey conn = true → hasPrefix "cosign-".toList (av.getD (av.length - 1) []) = true

theorem unwords_length (w : Str) (ws : List Str) :
    (unwords (w :: ws)).length = w.length + (ws.map fun v => v.length + 1).sum := by
  induction ws generalizing w with
  | nil => simp [unwords]
  | cons v ws ih =>
    rw [unwords, List.length_append, List.length_cons, ih v, List.map_cons, List.sum_cons]
    omega

theorem catFactors_iff (acc : Str) (ws : List Str) (hacc : acc.length < factorSize) :
    (catFactors acc ws).1 = .ok ↔ (unwords (acc :: ws)).length < factorSize := by
  rw [unwords_length]
  induction ws generalizing acc with
  | nil => simpa [catFactors] using hacc
  | cons w ws ih =>
    unfold catFactors
    simp only [List.map_cons, List.sum_cons]
    by_cases h : w.length + 1 + 1 > factorSize - acc.length
    · rw [if_pos h]
      constructor
      · intro hf
        cases hf
      · intro hlt
        omega
    · have hlen : (acc ++ ' ' :: w).length = acc.length + (w.length + 1) := by simp
      rw [if_neg h, ih _ (by omega), hlen]
      omega

theorem takeFactors_iff (cfg : HostConfig) (si : Sinfo) (w : Str) (ws : List Str) :
    (takeFactors cfg si w ws).1 = .ok ↔
      checkFactors cfg ws cfg.reqfv = 0 ∧ (unwords (w :: ws.drop 1)).length < factorSize := by
  unfold takeFactors
  split
  · rename_i hreq
    by_cases hw : w.length + 1 > factorSize
    · have : ¬ (unwords (w :: ws.drop 1)).length < factorSize := by
        rw [unwords_length]
        omega
      rw [if_pos hw]
      exact ⟨(fun h => by cases h), fun h => absurd h.2 this⟩
    rw [if_neg hw, ← catFactors_iff w (ws.drop 1) (by omega)]
    exact ⟨fun h => ⟨hreq, h⟩, fun h => h.2⟩
  · rename_i hreq
    exact ⟨(fun h => by cases h), fun h => by simp [hreq] at h⟩
  · rename_i hreq _
    exact ⟨(fun h => by cases h), fun h => absurd h.1 hreq⟩

theorem takeName_iff (rekey : Rekey) (conn : Conn) (si : Sinfo) (name : Str) :
    (takeName rekey conn si name).1 = .ok ↔ (rekeys rekey conn = true → hasPrefix "cosign-".toList name = true) := by
  unfold takeName
  by_cases hr : rekeys rekey conn = true
  · rw [if_pos hr]
    generalize hasPrefix "cosign-".toList name = b
    cases b <;> simp [hr]
  · simp [hr]

theorem checkWords_iff {cfg : HostConfig} {rekey : Rekey} {conn : Conn} {si : Sinfo} {line : Str} {av : List Str}
    (hcode : line.head? = some '2') : (checkWords cfg rekey conn si av).1 = .ok ↔ Acceptable rekey conn line av ∧
      (supportsFactors conn.proto.toNat = true → checkFactors cfg (factorWords rekey conn av) cfg.reqfv = 0) := by
  unfold checkWords
  by_cases hargs : av.length < 4
  · rw [if_pos hargs]
    exact ⟨(fun h => by cases h), fun h => absurd h.1.args (by omega)⟩
  by_cases hip : (av.getD 1 []).length ≥ ipaddrSize
  · rw [if_neg hargs, if_pos hip]
    exact ⟨(fun h => by cases h), fun h => absurd h.1.ipaddr (by omega)⟩
  by_cases huser : (av.getD 2 []).length ≥ userSize
  · rw [if_neg hargs, if_neg hip, if_pos huser]
    exact ⟨(fun h => by cases h), fun h => absurd h.1.user (by omega)⟩
  rw [if_neg hargs, if_neg hip, if_neg huser]
  dsimp only
  generalize hsi : ({ si with ipaddr := av.getD 1 [], user := av.getD 2 [], protocol := protoInt conn.proto } : Sinfo) = si₁
  have hwords : (av.take (if rekeys rekey conn then av.length - 1 else av.length)).drop 3 = factorWords rekey conn av := rfl
  rw [hwords]
  have hend : ∀ si₂ : Sinfo, (supportsFactors conn.proto.toNat = true →
      (unwords (av.getD 3 [] :: (factorWords rekey conn av).drop 1)).length < factorSize) →
      ((if (av.getD 3 []).length ≥ realmSize then (Rc.error, si₂, rekey)
        else takeName rekey conn { si₂ with realm := av.getD 3 [], krb5tkt := [] } (av.getD (av.length - 1) [])).1 = .ok ↔
          Acceptable rekey conn line av) := by
    intro si₂ hfactor
    by_cases hrealm : (av.getD 3 []).length ≥ realmSize
    · rw [if_pos hrealm]
      exact ⟨(fun h => by cases h), fun h => absurd h.realm (by omega)⟩
    · rw [if_neg hrealm, takeName_iff]
      exact ⟨fun h => ⟨hcode, by omega, by omega, by omega, hfactor, by omega, h⟩, fun h => h.name⟩
  by_cases hs : supportsFactors conn.proto.toNat = true
  · rw [if_pos hs]
    have htake := takeFactors_iff cfg si₁ (av.getD 3 []) (factorWords rekey conn av)
    generalize takeFactors cfg si₁ (av.getD 3 []) (factorWords rekey conn av) = took at htake ⊢
    obtain ⟨rc, si₂⟩ := took
    by_cases hrc : rc = .ok
    · subst hrc
      obtain ⟨hreq, hfits⟩ := htake.1 rfl
      refine (hend si₂ fun _ => hfits).trans ⟨fun h => ⟨h, fun _ => hreq⟩, fun h => h.1⟩
    · have hno : ¬ (checkFactors cfg (factorWords rekey conn av) cfg.reqfv = 0 ∧
          (unwords (av.getD 3 [] :: (factorWords rekey conn av).drop 1)).length < factorSize) := fun h => hrc (htake.2 h)
      constructor
      · intro h
        cases rc with
        | ok => exact absurd rfl hrc
        | error => cases h
        | retry => cases h
        | loggedOut => cases h
      · rintro ⟨hacc, hreq⟩
        exact absurd ⟨hreq hs, hacc.factor hs⟩ hno
  · rw [if_neg hs]
    refine (hend si₁ fun h => absurd h hs).trans ⟨fun h => ⟨h, fun h' => absurd h' hs⟩, fun h => h.1⟩

/-- When the reply is accepted. -/
theorem checkLine_iff (cfg : HostConfig) (rekey : Rekey) (conn : Conn) (si : Sinfo) (line : Str) :
    (checkLine cfg rekey conn si line).1 = .ok ↔ Acceptable rekey conn line (acavParse line) ∧
      (supportsFactors conn.proto.toNat = true →
        checkFactors cfg (factorWords rekey conn (acavParse line)) cfg.reqfv = 0) := by
  unfold checkLine
  split
  · rename_i hcode
    exact checkWords_iff hcode
  · rename_i hcode
    exact ⟨(fun h => by cases h), fun h => by simpa [hcode] using h.1.code⟩
  · rename_i hcode
    exact ⟨(fun h => by cases h), fun h => by simpa [hcode] using h.1.code⟩
  · rename_i hne _ _
    exact ⟨(fun h => by cases h), fun h => absurd h.1.code hne⟩

/-! ## Replies in another order -/

/-- The two replies differ by a permutation of their factors. -/
structure Permuted (rekey : Rekey) (conn : Conn) (line line' : Str) : Prop where
  code : line'.head? = line.head?
  count : (acavParse line').length = (acavParse line).length
  front : (acavParse line').take 3 = (acavParse line).take 3
  factors : (factorWords rekey conn (acavParse line')).Perm (factorWords rekey conn (acavParse line))
  back : (acavParse line').drop (lastFactor rekey conn (acavParse line')) =
    (acavParse line).drop (lastFactor rekey conn (acavParse line))

/-- Some word is a required factor with the suffix, `fake` is off, and nothing
else is wrong with the reply: the factor itself is there too. -/
structure Hides (cfg : HostConfig) (rekey : Rekey) (conn : Conn) (line : Str) : Prop where
  acceptable : Acceptable rekey conn line (acavParse line)
  off : cfg.fake = false
  there : ∀ f ∈ cfg.reqfv, f ∈ factorWords rekey conn (acavParse line)
  hidden : ∃ f ∈ cfg.reqfv, ∃ w ∈ factorWords rekey conn (acavParse line), f ≠ w ∧ suffixed cfg.suffix f w = true

theorem lastFactor_bounds (rekey : Rekey) (conn : Conn) {av : List Str} (h : 4 ≤ av.length) :
    3 ≤ lastFactor rekey conn av ∧ lastFactor rekey conn av ≤ av.length := by
  unfold lastFactor
  split <;> omega

/-- The words are those before the factors, the factors, and those after. -/
theorem words_split (rekey : Rekey) (conn : Conn) {av : List Str} (h : 4 ≤ av.length) :
    av = av.take 3 ++ factorWords rekey conn av ++ av.drop (lastFactor rekey conn av) := by
  have hb := lastFactor_bounds rekey conn h
  have htake : (av.take (lastFactor rekey conn av)).take 3 = av.take 3 := by
    rw [List.take_take, Nat.min_eq_left hb.1]
  rw [factorWords, ← htake, List.take_append_drop, List.take_append_drop]

theorem factorWords_length {rekey : Rekey} {conn : Conn} {av : List Str} :
    (factorWords rekey conn av).length = lastFactor rekey conn av - 3 := by
  have : lastFactor rekey conn av ≤ av.length := by
    unfold lastFactor
    split <;> omega
  rw [factorWords, List.length_drop, List.length_take]
  omega

/-- The words with other factors in the place of theirs. -/
theorem words_put {rekey : Rekey} {conn : Conn} {av av' ws : List Str} (h : 4 ≤ av.length)
    (hlen : ws.length = (factorWords rekey conn av).length)
    (hav : av' = av.take 3 ++ ws ++ av.drop (lastFactor rekey conn av)) :
    av'.length = av.length ∧ av'.take 3 = av.take 3 ∧ factorWords rekey conn av' = ws ∧
      av'.drop (lastFactor rekey conn av') = av.drop (lastFactor rekey conn av) := by
  have hb := lastFactor_bounds rekey conn h
  rw [factorWords_length] at hlen
  have hfront : (av.take 3).length = 3 := by rw [List.length_take]; omega
  have hfit : (av.take 3 ++ ws).length = lastFactor rekey conn av := by
    rw [List.length_append, hfront, hlen]
    omega
  have hcount : av'.length = av.length := by
    rw [hav, List.length_append, hfit, List.length_drop]
    omega
  have hlast : lastFactor rekey conn av' = lastFactor rekey conn av := by
    unfold lastFactor
    rw [hcount]
  refine ⟨hcount, ?_, ?_, ?_⟩
  · rw [hav, List.append_assoc]
    exact List.take_left' hfront
  · rw [factorWords, hlast, hav, List.take_left' hfit]
    exact List.drop_left' hfront
  · rw [hlast]
    nth_rewrite 1 [hav]
    exact List.drop_left' hfit

theorem unwords_perm {ws ws' : List Str} (h : ws'.Perm ws) : (unwords ws').length = (unwords ws).length := by
  cases ws with
  | nil => rw [List.perm_nil.1 h]
  | cons w ws =>
    cases ws' with
    | nil => cases List.nil_perm.1 h
    | cons v vs =>
      have hsum := (h.map fun u => u.length + 1).sum_nat
      simp only [List.map_cons, List.sum_cons] at hsum
      rw [unwords_length, unwords_length]
      omega

theorem unwords_mem_length {w : Str} {ws : List Str} (h : w ∈ ws) : w.length ≤ (unwords ws).length := by
  rw [unwords_perm (List.perm_cons_erase h), unwords_length]
  omega

theorem realm_cons {rekey : Rekey} {conn : Conn} {av : List Str} (h : factorWords rekey conn av ≠ []) :
    av.getD 3 [] :: (factorWords rekey conn av).drop 1 = factorWords rekey conn av := by
  have hlen : 0 < (factorWords rekey conn av).length := List.length_pos_iff.2 h
  unfold factorWords at hlen ⊢
  rw [List.length_drop] at hlen
  have hmf : 3 < (av.take (lastFactor rekey conn av)).length := by omega
  have hget : (av.take (lastFactor rekey conn av))[3] = av.getD 3 [] := by
    rw [List.length_take] at hmf
    rw [List.getElem_take, List.getD_eq_getElem?_getD, List.getElem?_eq_getElem (by omega), Option.getD_some]
  rw [List.drop_drop, ← hget]
  exact (List.drop_eq_getElem_cons hmf).symm

theorem Permuted.symm {rekey : Rekey} {conn : Conn} {line line' : Str} (h : Permuted rekey conn line line') :
    Permuted rekey conn line' line :=
  ⟨h.code.symm, h.count.symm, h.front.symm, h.factors.symm, h.back.symm⟩

theorem getD_of_take {av av' : List Str} {n : Nat} (h : av'.take n = av.take n) {i : Nat} (hi : i < n) :
    av'.getD i [] = av.getD i [] := by
  have hget := congrArg (fun l : List Str => l[i]?) h
  simp only [List.getElem?_take, if_pos hi] at hget
  rw [List.getD_eq_getElem?_getD, List.getD_eq_getElem?_getD, hget]

/-- The order of the factors does not matter to the other checks. -/
theorem Acceptable.permuted {rekey : Rekey} {conn : Conn} {line line' : Str} (hs : supportsFactors conn.proto.toNat = true)
    (hp : Permuted rekey conn line line') (h : Acceptable rekey conn line (acavParse line)) :
    Acceptable rekey conn line' (acavParse line') := by
  have hargs := h.args
  have hargs' : 4 ≤ (acavParse line').length := by rw [hp.count]; exact hargs
  by_cases hfw : factorWords rekey conn (acavParse line) = []
  · have hfw' : factorWords rekey conn (acavParse line') = [] := List.perm_nil.1 (hfw ▸ hp.factors)
    have hav : acavParse line' = acavParse line := by
      rw [words_split rekey conn hargs', words_split rekey conn hargs,
        hp.front, hp.back, hfw, hfw']
    rw [hav]
    exact { h with code := hp.code.trans h.code }
  have hfw' : factorWords rekey conn (acavParse line') ≠ [] := fun hnil => hfw (List.nil_perm.1 (hnil ▸ hp.factors))
  have hfits := h.factor hs
  rw [realm_cons hfw, ← unwords_perm hp.factors] at hfits
  have hrealm : (acavParse line').getD 3 [] ∈ factorWords rekey conn (acavParse line') := by
    rw [← realm_cons hfw']
    exact List.mem_cons_self
  refine ⟨hp.code.trans h.code, hargs', ?_, ?_, fun _ => ?_, ?_, fun hr => ?_⟩
  · rw [getD_of_take hp.front (by omega)]
    exact h.ipaddr
  · rw [getD_of_take hp.front (by omega)]
    exact h.user
  · rw [realm_cons hfw']
    exact hfits
  · exact Nat.lt_of_le_of_lt (unwords_mem_length hrealm) hfits
  · have hback := congrArg (fun l : List Str => l.getD 0 []) hp.back
    simp only [lastFactor, if_pos hr, List.getD_eq_getElem?_getD, List.getElem?_drop, Nat.add_zero] at hback
    have hname := h.name hr
    rw [List.getD_eq_getElem?_getD] at hname ⊢
    rw [hback]
    exact hname

/-- Where nothing is hidden, an order is as good as another. -/
theorem checkFactors_permuted {cfg : HostConfig} {ws ws' : List Str} (hp : ws'.Perm ws)
    (hhide : cfg.fake = false → (∀ f ∈ cfg.reqfv, f ∈ ws) →
      ∀ f ∈ cfg.reqfv, ∀ w ∈ ws, f ≠ w → suffixed cfg.suffix f w = false)
    (h : checkFactors cfg ws cfg.reqfv = 0) : checkFactors cfg ws' cfg.reqfv = 0 := by
  rw [checkFactors_iff] at h ⊢
  intro f hf
  cases hfake : cfg.fake with
  | true =>
    obtain ⟨w, hw, hm⟩ := (findFactor_fake hfake f ws).1 (h f hf)
    exact (findFactor_fake hfake f ws').2 ⟨w, hp.mem_iff.2 hw, hm⟩
  | false =>
    have hthere : ∀ g ∈ cfg.reqfv, g ∈ ws := fun g hg => findFactor_mem hfake (h g hg)
    apply findFactor_clear (hp.mem_iff.2 (hthere f hf))
    intro w vs hsuf hne hw
    have hmem : w ∈ ws := hp.mem_iff.1 (hsuf.subset List.mem_cons_self)
    rw [hhide hfake hthere f hf w hmem hne] at hw
    cases hw

/-- With the shorter words first, no factor is hidden. -/
theorem checkFactors_sorted {cfg : HostConfig} {ws : List Str} (hsort : ws.Pairwise fun v w => v.length ≤ w.length)
    (hthere : ∀ f ∈ cfg.reqfv, f ∈ ws) : checkFactors cfg ws cfg.reqfv = 0 := by
  rw [checkFactors_iff]
  intro f hf
  apply findFactor_clear (hthere f hf)
  intro w vs hsuf hne hw hmem
  have hlong := suffixed_longer hw hne
  have hshort := List.rel_of_pairwise_cons (hsort.sublist hsuf.sublist) hmem
  omega

theorem shorter_first (ws : List Str) :
    ∃ good : List Str, good.Perm ws ∧ good.Pairwise fun v w => v.length ≤ w.length := by
  have hsort : (ws.mergeSort fun v w => v.length ≤ w.length).Pairwise
      fun v w => decide (v.length ≤ w.length) = true := by
    apply List.pairwise_mergeSort
    · intro a b c hab hbc
      simp only [decide_eq_true_eq] at *
      omega
    · intro a b
      simp only [Bool.or_eq_true, decide_eq_true_eq]
      omega
  exact ⟨_, List.mergeSort_perm _ _, hsort.imp of_decide_eq_true⟩

theorem acavScan_head (v s : Str) : ∃ w ws, acavScan (some v) s = (v ++ w) :: ws := by
  induction s generalizing v with
  | nil => exact ⟨[], [], by simp [acavScan]⟩
  | cons c s ih =>
    unfold acavScan
    split
    · exact ⟨[], acavScan none s, by simp⟩
    · obtain ⟨w, ws, h⟩ := ih (v ++ [c])
      exact ⟨c :: w, ws, by rw [h]; simp⟩

theorem acavParse_head {line : Str} {c : Char} (hc : isBlank c = false) (h : line.head? = some c) :
    ∃ w ws, acavParse line = (c :: w) :: ws := by
  cases line with
  | nil => cases h
  | cons d s =>
    cases h
    obtain ⟨w, ws, hw⟩ := acavScan_head [c] s
    refine ⟨w, ws, ?_⟩
    rw [acavParse, acavScan, hc, if_neg (by simp), hw]
    rfl

theorem unwords_head (c : Char) (w : Str) (ws : List Str) : (unwords ((c :: w) :: ws)).head? = some c := by
  cases ws <;> rfl

/-- A reply with its factors in another order. -/
theorem permuted_line {rekey : Rekey} {conn : Conn} {line : Str} {ws : List Str}
    (h : Acceptable rekey conn line (acavParse line)) (hp : ws.Perm (factorWords rekey conn (acavParse line))) :
    ∃ line', Permuted rekey conn line line' ∧ factorWords rekey conn (acavParse line') = ws := by
  have hwords : ∀ w ∈ (acavParse line).take 3 ++ ws ++ (acavParse line).drop (lastFactor rekey conn (acavParse line)),
      IsWord w := by
    intro w hw
    apply acavParse_words line w
    rcases List.mem_append.1 hw with hw | hw
    · rcases List.mem_append.1 hw with hw | hw
      · exact List.mem_of_mem_take hw
      · exact List.mem_of_mem_take (List.mem_of_mem_drop (hp.mem_iff.1 hw))
    · exact List.mem_of_mem_drop hw
  obtain ⟨hcount, hfront, hfactors, hback⟩ := words_put h.args hp.length_eq (acavParse_unwords hwords)
  refine ⟨_, ⟨?_, hcount, hfront, by rw [hfactors]; exact hp, hback⟩, hfactors⟩
  obtain ⟨w, rest, hw⟩ := acavParse_head (by decide) h.code
  rw [h.code, hw]
  exact unwords_head _ _ _

/-! ## The order of the factors -/

/-- A server that speaks of factors accepts the reply in every order of its
factors or in none, unless a required factor is hidden in one. -/
theorem factor_order_iff {cfg : HostConfig} {rekey : Rekey} {conn : Conn} {si : Sinfo} {line : Str}
    (hs : supportsFactors conn.proto.toNat = true) :
    (∀ line₁ line₂, Permuted rekey conn line line₁ → Permuted rekey conn line line₂ →
      ((checkLine cfg rekey conn si line₁).1 = .ok ↔ (checkLine cfg rekey conn si line₂).1 = .ok)) ↔
      ¬ Hides cfg rekey conn line := by
  constructor
  · rintro hsame ⟨hacc, hoff, hthere, f, hf, w, hw, hne, hsuf⟩
    -- the shorter words first, and the hiding word first
    obtain ⟨good, hgood, hsort⟩ := shorter_first (factorWords rekey conn (acavParse line))
    obtain ⟨line₁, hp₁, hfw₁⟩ := permuted_line hacc hgood
    obtain ⟨line₂, hp₂, hfw₂⟩ := permuted_line hacc (List.perm_cons_erase hw).symm
    have hok : (checkLine cfg rekey conn si line₁).1 = .ok := by
      rw [checkLine_iff, hfw₁]
      refine ⟨hacc.permuted hs hp₁, fun _ => checkFactors_sorted hsort ?_⟩
      intro g hg
      exact hgood.mem_iff.2 (hthere g hg)
    have hbad := ((checkLine_iff cfg rekey conn si line₂).1 ((hsame line₁ line₂ hp₁ hp₂).1 hok)).2 hs
    rw [hfw₂, checkFactors_iff] at hbad
    exact findFactor_hidden hoff _ hne hsuf (hbad f hf)
  · intro hhide line₁ line₂ hp₁ hp₂
    have hone : ∀ {l l' : Str}, Permuted rekey conn line l → Permuted rekey conn line l' →
        (checkLine cfg rekey conn si l).1 = .ok → (checkLine cfg rekey conn si l').1 = .ok := by
      intro l l' hl hl' hok
      rw [checkLine_iff] at hok ⊢
      have hacc := hok.1.permuted hs hl.symm
      have hperm := hl'.factors.trans hl.factors.symm
      refine ⟨hacc.permuted hs hl', fun _ => checkFactors_permuted hperm ?_ (hok.2 hs)⟩
      intro hoff hthere f hf w hw hne
      by_contra hsuf
      refine hhide ⟨hacc, hoff, fun g hg => hl.factors.mem_iff.1 (hthere g hg), f, hf, w, hl.factors.mem_iff.1 hw, hne, ?_⟩
      simpa using hsuf
    exact ⟨hone hp₁ hp₂, hone hp₂ hp₁⟩

/-- A filter that requires `otp`, with a suffix and `fake` off. -/
def otpFilter : HostConfig where
  reqfv := ["otp".toList]
  suffix := some "-junk".toList
  fake := false
  checkip := .never
  filterdb := "/f".toList
  hashlen := 0
  proxydb := "/p".toList
  tktPrefix := "/t".toList
  tktPrefix_line := oneLine_of_isOneLine (by decide)
  proxy := false
  krbtkt := false

def otpConn : Conn := ⟨0, true, false, 2⟩

def otpLast : Str := "231 10.0.0.1 ann otp-junk otp".toList

def otpFirst : Str := "231 10.0.0.1 ann otp otp-junk".toList

theorem factor_order_otp :
    (∀ line₁ line₂, Permuted none otpConn otpLast line₁ → Permuted none otpConn otpLast line₂ →
      ((checkLine otpFilter none otpConn Sinfo.zero line₁).1 = .ok ↔
        (checkLine otpFilter none otpConn Sinfo.zero line₂).1 = .ok)) ↔ ¬ Hides otpFilter none otpConn otpLast :=
  factor_order_iff (by decide)

theorem otp_hidden : ¬ ∀ (cfg : HostConfig) (rekey : Rekey) (conn : Conn) (si : Sinfo) (line line' : Str),
    supportsFactors conn.proto.toNat = true → Permuted rekey conn line line' →
      ((checkLine cfg rekey conn si line).1 = .ok ↔ (checkLine cfg rekey conn si line').1 = .ok) := by
  intro h
  have hperm : Permuted none otpConn otpFirst otpLast := by
    refine ⟨by decide, by decide, by decide, ?_, by decide⟩
    exact List.Perm.swap "otp".toList "otp-junk".toList []
  have := (h otpFilter none otpConn Sinfo.zero otpFirst otpLast (by decide) hperm).1 (by decide)
  exact absurd this (by decide)

end Cosign.Filter
