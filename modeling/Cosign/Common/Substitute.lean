import Cosign.Common.Conf
/-!
# Substituting matches

`match_substitute` against its definition: `$$` is a dollar, `$n` the text of
group `n`, and everything else stands for itself. `expansion` is that
definition, and `copied` what the code makes of a pattern when there is room.
-/

namespace Cosign

/-- The text of group `i`, empty for a group that took no part. -/
def groupText (rm : Nat → Int × Int) (source : Str) (i : Nat) : Str :=
  (source.drop (rm i).1.toNat).take ((rm i).2 - (rm i).1).toNat

/-- What a pattern stands for: nothing when it ends in a lone `$`. -/
def expansion (nmatch : Nat) (rm : Nat → Int × Int) (source : Str) : Str → Option Str
  | [] => some []
  | c :: p =>
    if c ≠ '$' then (expansion nmatch rm source p).map (c :: ·)
    else if p = [] then none
    else if p.head? = some '$' then (expansion nmatch rm source (p.drop 1)).map ('$' :: ·)
    else
      let ds := p.takeWhile Char.isDigit
      if ds = [] then (expansion nmatch rm source p).map ('$' :: ·)
      else if Nat.ofDigitChars 10 ds 0 < nmatch then
        (expansion nmatch rm source (p.drop ds.length)).map (groupText rm source (Nat.ofDigitChars 10 ds 0) ++ ·)
      else (expansion nmatch rm source (p.drop ds.length)).map ('$' :: ds ++ ·)
termination_by p => p.length
decreasing_by all_goals simp_wf; try omega

/-- `t` goes before what is copied. -/
def before (t : Str) (x : Option (Option Str)) : Option (Option Str) := x.map fun y => y.map (t ++ ·)

/-- The run of `match_substitute` with room for everything. -/
def copied (nmatch : Nat) (rm : Nat → Int × Int) (source : Str) : Str → Option (Option Str)
  | [] => some (some [])
  | [c] => if c = '$' then some none else some (some [c])
  | c :: d :: p =>
    if c ≠ '$' then before [c] (copied nmatch rm source (d :: p))
    else if d = '$' ∨ numLength (d :: p) = 0 then before ['$'] (copied nmatch rm source p)
    else if atoi (d :: p) ≥ nmatch then before ('$' :: (d :: p).take (numLength (d :: p))) (copied nmatch rm source p)
    else if atoi (d :: p) < 0 then none
    else before (groupText rm source (atoi (d :: p)).toNat) (copied nmatch rm source p)

theorem before_some {t r : Str} {x : Option (Option Str)} (h : before t x = some (some r)) :
    ∃ r', x = some (some r') ∧ r = t ++ r' := by
  cases x with
  | none => cases h
  | some y =>
    cases y with
    | none => cases h
    | some r' => cases h; exact ⟨r', rfl, rfl⟩

theorem before_reject {t : Str} {x : Option (Option Str)} (h : before t x = some none) : x = some none := by
  cases x with
  | none => cases h
  | some y =>
    cases y with
    | none => rfl
    | some r' => cases h

theorem before_none {t : Str} {x : Option (Option Str)} : before t x = none ↔ x = none := Option.map_eq_none_iff

/-- What `regexec` leaves in the array: groups within the source, or -1 twice
for a group that took no part. -/
def Matches (nmatch : Nat) (rm : Nat → Int × Int) (source : Str) : Prop :=
  ∀ i < nmatch, rm i = (-1, -1) ∨ 0 ≤ (rm i).1 ∧ (rm i).1 ≤ (rm i).2 ∧ (rm i).2 ≤ source.length

theorem Matches.length {nmatch i : Nat} {rm : Nat → Int × Int} {source : Str} (h : Matches nmatch rm source)
    (hi : i < nmatch) : (groupText rm source i).length = ((rm i).2 - (rm i).1).toNat := by
  rw [groupText, List.length_take, List.length_drop]
  rcases h i hi with h | h
  · simp [h]
  · omega

/-- Blanks, a sign and the rest: what `strtol` takes. -/
theorem numLength_split (s : Str) : ∃ v q, s = s.takeWhile isspace ++ v ++ q ∧ '$' ∉ v ∧
    (∀ c ∈ v, c = '-' ∨ c = '+') ∧ numLength s = if (q.takeWhile Char.isDigit).length = 0 then 0
      else (s.takeWhile isspace).length + v.length + (q.takeWhile Char.isDigit).length := by
  have hs : s.takeWhile isspace ++ s.dropWhile isspace = s := List.takeWhile_append_dropWhile
  have hleft : ∀ w r : Str, w ++ r = s → s.drop w.length = r := by
    rintro w r rfl
    exact List.drop_left
  have hdrop := hleft _ _ hs
  obtain ⟨n, hn⟩ : ∃ n, n = numLength s := ⟨_, rfl⟩
  rw [← hn]
  rw [numLength, hdrop] at hn
  generalize s.takeWhile isspace = w at hs hdrop hn ⊢
  split at hn
  · rename_i q hq
    rw [hq] at hs
    exact ⟨['-'], q, by rw [← hs]; simp, by decide, by simp, by rw [hn, ← List.drop_drop, hdrop, hq]; rfl⟩
  · rename_i q hq
    rw [hq] at hs
    exact ⟨['+'], q, by rw [← hs]; simp, by decide, by simp, by rw [hn, ← List.drop_drop, hdrop, hq]; rfl⟩
  · exact ⟨[], s.dropWhile isspace, by simp [hs], by simp, by simp, by rw [hn, Nat.add_zero, hdrop]; rfl⟩

theorem numLength_le (s : Str) : numLength s ≤ s.length := by
  obtain ⟨v, q, hs, -, -, hnum⟩ := numLength_split s
  have hq := (List.takeWhile_prefix Char.isDigit (l := q)).length_le
  have hlen := congrArg List.length hs
  simp only [List.length_append] at hlen
  rw [hnum]
  split <;> omega

/-! ## The buffer -/

section
variable {nmatch : Nat} {rm : Nat → Int × Int} {source : Str} (hm : Matches nmatch rm source)
include hm

omit hm in
/-- One token: the test for room before `t` is stored says no more than the one
at the end. -/
theorem room_step {len : Nat} {out t p r : Str} {n : Nat} {x : Option (Option Str)} (hx : before t x = some (some r))
    (hn : n ≤ t.length + 1)
    (ih : ∀ r', x = some (some r') → matchSubstitute len nmatch rm source p (out ++ t) =
      some (if (out ++ t).length + r'.length + 1 ≥ len then none else some ((out ++ t) ++ r'))) :
    (if out.length + n ≥ len then some none else matchSubstitute len nmatch rm source p (out ++ t)) =
      some (if out.length + r.length + 1 ≥ len then none else some (out ++ r)) := by
  obtain ⟨r', hr', rfl⟩ := before_some hx
  rw [ih r' hr', List.append_assoc]
  simp only [List.length_append]
  split
  · rw [if_pos (by omega)]
  · rw [Nat.add_assoc out.length]

/-- `match_substitute` copies the pattern's text if that leaves a character of
the buffer besides the NUL. -/
theorem matchSubstitute_some (len : Nat) {p r : Str} (out : Str) (h : copied nmatch rm source p = some (some r)) :
    matchSubstitute len nmatch rm source p out =
      some (if out.length + r.length + 1 ≥ len then none else some (out ++ r)) := by
  induction p using copied.induct nmatch generalizing out r with
  | case1 => cases h; simp [matchSubstitute]
  | case2 => rw [copied, if_pos rfl] at h; cases h
  | case3 c hc =>
    rw [copied, if_neg hc] at h
    cases h
    rw [matchSubstitute, if_neg hc, matchSubstitute]
    simp only [List.length_append, List.length_singleton]
    split
    · rw [if_pos (by omega)]
    · rfl
  | case4 c d p hc ih =>
    rw [copied, if_pos hc] at h
    rw [matchSubstitute, if_pos hc]
    exact room_step h (by simp) fun r' hr' => ih (out ++ [c]) hr'
  | case5 c d p hc hd ih =>
    rw [copied, if_neg hc, if_pos hd] at h
    rw [matchSubstitute, if_neg hc, if_pos hd]
    exact room_step h (by simp) fun r' hr' => ih _ hr'
  | case6 c d p hc hd hi ih =>
    rw [copied, if_neg hc, if_neg hd, if_pos hi] at h
    rw [matchSubstitute, if_neg hc, if_neg hd]
    dsimp only
    rw [if_pos hi, Nat.add_assoc]
    refine room_step h ?_ fun r' hr' => ih _ hr'
    have hle := numLength_le (d :: p)
    rw [List.length_cons, List.length_take, Nat.min_eq_left hle]
    omega
  | case7 c d p hc hd hi hneg =>
    rw [copied, if_neg hc, if_neg hd, if_neg hi, if_pos hneg] at h
    cases h
  | case8 c d p hc hd hi hneg ih =>
    rw [copied, if_neg hc, if_neg hd, if_neg hi, if_neg hneg] at h
    rw [matchSubstitute, if_neg hc, if_neg hd]
    dsimp only
    rw [if_neg hi, if_neg hneg]
    refine room_step h ?_ fun r' hr' => ih _ hr'
    have hlen := hm.length (i := (atoi (d :: p)).toNat) (by omega)
    rw [groupText] at hlen
    omega

omit hm in
theorem reject_step {len : Nat} {out t p : Str} {n : Nat} {x : Option (Option Str)} (hx : before t x = some none)
    (ih : x = some none → matchSubstitute len nmatch rm source p (out ++ t) = some none) :
    (if out.length + n ≥ len then some none else matchSubstitute len nmatch rm source p (out ++ t)) = some none := by
  rw [ih (before_reject hx), ite_self]

omit hm in
/-- A pattern that is not copied is rejected whatever the buffer. -/
theorem matchSubstitute_reject (len : Nat) {p : Str} (out : Str) (h : copied nmatch rm source p = some none) :
    matchSubstitute len nmatch rm source p out = some none := by
  induction p using copied.induct nmatch generalizing out with
  | case1 => cases h
  | case2 => rfl
  | case3 c hc => rw [copied, if_neg hc] at h; cases h
  | case4 c d p hc ih =>
    rw [copied, if_pos hc] at h
    rw [matchSubstitute, if_pos hc]
    exact reject_step h fun hx => ih (out ++ [c]) hx
  | case5 c d p hc hd ih =>
    rw [copied, if_neg hc, if_pos hd] at h
    rw [matchSubstitute, if_neg hc, if_pos hd]
    exact reject_step h fun hx => ih _ hx
  | case6 c d p hc hd hi ih =>
    rw [copied, if_neg hc, if_neg hd, if_pos hi] at h
    rw [matchSubstitute, if_neg hc, if_neg hd]
    dsimp only
    rw [if_pos hi, Nat.add_assoc]
    exact reject_step h fun hx => ih _ hx
  | case7 c d p hc hd hi hneg =>
    rw [copied, if_neg hc, if_neg hd, if_neg hi, if_pos hneg] at h
    cases h
  | case8 c d p hc hd hi hneg ih =>
    rw [copied, if_neg hc, if_neg hd, if_neg hi, if_neg hneg] at h
    rw [matchSubstitute, if_neg hc, if_neg hd]
    dsimp only
    rw [if_neg hi, if_neg hneg]
    exact reject_step h fun hx => ih _ hx

omit hm in
theorem undef_step {out t p : Str} {n : Nat} {x : Option (Option Str)} (hx : before t x = none)
    (ih : x = none → ∃ m, ∀ len ≥ m, matchSubstitute len nmatch rm source p (out ++ t) = none) :
    ∃ m, ∀ len ≥ m, (if out.length + n ≥ len then some none
      else matchSubstitute len nmatch rm source p (out ++ t)) = none := by
  obtain ⟨m, hrun⟩ := ih (before_none.1 hx)
  refine ⟨m + (out.length + n + 1), fun len hlen => ?_⟩
  rw [if_neg (by omega)]
  exact hrun len (by omega)

omit hm in
/-- With enough room, a negative number is read. -/
theorem matchSubstitute_undef {p : Str} (out : Str) (h : copied nmatch rm source p = none) :
    ∃ m, ∀ len ≥ m, matchSubstitute len nmatch rm source p out = none := by
  induction p using copied.induct nmatch generalizing out with
  | case1 => cases h
  | case2 => rw [copied, if_pos rfl] at h; cases h
  | case3 c hc => rw [copied, if_neg hc] at h; cases h
  | case4 c d p hc ih =>
    rw [copied, if_pos hc] at h
    simp only [matchSubstitute, if_pos hc]
    exact undef_step h fun hx => ih (out ++ [c]) hx
  | case5 c d p hc hd ih =>
    rw [copied, if_neg hc, if_pos hd] at h
    simp only [matchSubstitute, if_neg hc, if_pos hd]
    exact undef_step h fun hx => ih _ hx
  | case6 c d p hc hd hi ih =>
    rw [copied, if_neg hc, if_neg hd, if_pos hi] at h
    simp only [matchSubstitute, if_neg hc, if_neg hd, if_pos hi, Nat.add_assoc]
    exact undef_step h fun hx => ih _ hx
  | case7 c d p hc hd hi hneg => exact ⟨0, fun len _ => by simp only [matchSubstitute, if_neg hc, if_neg hd, if_neg hi, if_pos hneg]⟩
  | case8 c d p hc hd hi hneg ih =>
    rw [copied, if_neg hc, if_neg hd, if_neg hi, if_neg hneg] at h
    simp only [matchSubstitute, if_neg hc, if_neg hd, if_neg hi, if_neg hneg]
    exact undef_step h fun hx => ih _ hx

end

/-! ## Numbers after a `$` -/

theorem isspace_digit {d : Char} (h : d.isDigit = true) : isspace d = false := by
  simp only [Char.isDigit, Bool.and_eq_true, decide_eq_true_eq] at h
  have h48 : 48 ≤ d.toNat := h.1
  have hne : d ≠ ' ' := by rintro rfl; simp at h48
  simp [isspace, hne]
  omega

/-- The digits after a `$` are taken as they are. -/
theorem numLength_digits {d : Char} {t q : Str} (hd : d.isDigit = true) (ht : ∀ c ∈ t, c.isDigit = true)
    (hq : ∀ c, q.head? = some c → c.isDigit = false) : numLength (d :: (t ++ q)) = t.length + 1 := by
  obtain ⟨v, r, hs, -, hv, hnum⟩ := numLength_split (d :: (t ++ q))
  rw [List.takeWhile_cons_of_neg (by simp [isspace_digit hd])] at hs hnum
  have hnil : v = [] := by
    cases v with
    | nil => rfl
    | cons c v =>
      obtain ⟨rfl, -⟩ := List.cons_eq_cons.1 hs
      rcases hv _ List.mem_cons_self with rfl | rfl <;> simp at hd
  subst hnil
  obtain rfl : d :: (t ++ q) = r := hs
  have htake : (d :: (t ++ q)).takeWhile Char.isDigit = d :: t := by
    have hall : ∀ c ∈ d :: t, c.isDigit = true := List.forall_mem_cons.2 ⟨hd, ht⟩
    rw [← List.cons_append, List.takeWhile_append_of_pos hall]
    cases q with
    | nil => simp
    | cons c q => rw [List.takeWhile_cons_of_neg (by simp [hq c rfl]), List.append_nil]
  rw [hnum, htake]
  simp

/-- A number that does not start with a digit starts with blanks or a sign. -/
theorem numLength_signed {d : Char} {s : Str} (hd : d.isDigit = false) (hn : numLength (d :: s) ≠ 0) :
    ∃ t q, s = t ++ q ∧ numLength (d :: s) = t.length + 1 ∧ '$' ∉ t ∧ ∃ c ∈ t, c.isDigit = true := by
  obtain ⟨v, q, hs, hv, hsign, hnum⟩ := numLength_split (d :: s)
  generalize hw : (d :: s).takeWhile isspace = w at hs hnum
  have hwd : '$' ∉ w := fun hm => by
    have := List.mem_takeWhile_imp (hw ▸ hm)
    simp [isspace] at this
  have hq : q = q.takeWhile Char.isDigit ++ q.dropWhile Char.isDigit := List.takeWhile_append_dropWhile.symm
  have hdig : ∀ c ∈ q.takeWhile Char.isDigit, c.isDigit = true := fun c hc => List.mem_takeWhile_imp hc
  generalize q.takeWhile Char.isDigit = ds at hq hdig hnum
  have hds : ds ≠ [] := by rintro rfl; simp [hnum] at hn
  have hlen : ds.length ≠ 0 := fun h => hds (List.length_eq_zero_iff.1 h)
  rw [if_neg hlen] at hnum
  cases hwv : w ++ v with
  | nil =>
    obtain ⟨c, ds', rfl⟩ := List.exists_cons_of_ne_nil hds
    rw [hwv, hq] at hs
    obtain ⟨rfl, -⟩ := List.cons_eq_cons.1 hs
    rw [hdig d List.mem_cons_self] at hd
    cases hd
  | cons c u =>
    rw [hwv, hq] at hs
    obtain ⟨rfl, htail⟩ := List.cons_eq_cons.1 hs
    have hlen' := congrArg List.length hwv
    simp only [List.length_append, List.length_cons] at hlen'
    refine ⟨u ++ ds, q.dropWhile Char.isDigit, by rw [htail, List.append_assoc]; rfl, by rw [hnum, List.length_append]; omega, ?_, ?_⟩
    · intro hm
      rcases List.mem_append.1 hm with hm | hm
      · have hmem : '$' ∈ w ++ v := hwv ▸ List.mem_cons_of_mem _ hm
        exact (List.mem_append.1 hmem).elim hwd hv
      · have := hdig _ hm
        simp at this
    · obtain ⟨c, hc⟩ := List.exists_mem_of_ne_nil ds hds
      exact ⟨c, List.mem_append_right _ hc, hdig c hc⟩

/-! ## One token -/

/-- What a pattern starts with, as both readings see it. -/
inductive Token : Str → Prop
  | nil : Token []
  | lone : Token ['$']
  | char {c p} : c ≠ '$' → Token (c :: p)
  | dollar {p} : Token ('$' :: '$' :: p)
  | other {d p} : d ≠ '$' → d.isDigit = false → numLength (d :: p) = 0 → Token ('$' :: d :: p)
  | digits {d t q} : d.isDigit = true → (∀ c ∈ t, c.isDigit = true) → (∀ c, q.head? = some c → c.isDigit = false) →
      Token ('$' :: d :: (t ++ q))
  | signed {d t q} : d ≠ '$' → d.isDigit = false → '$' ∉ t → (∃ c ∈ t, c.isDigit = true) →
      numLength (d :: (t ++ q)) = t.length + 1 → Token ('$' :: d :: (t ++ q))

theorem after_two (c d : Char) (p : Str) : p.length < (c :: d :: p).length :=
  Nat.lt_succ_of_lt (Nat.lt_succ_self _)

theorem after_number (c d : Char) (t q : Str) : q.length < (c :: d :: (t ++ q)).length := by
  simp only [List.length_cons, List.length_append]
  omega

theorem head_dropWhile (p : Str) : ∀ c, (p.dropWhile Char.isDigit).head? = some c → c.isDigit = false := by
  induction p with
  | nil => intro c hc; cases hc
  | cons d p ih =>
    intro c hc
    by_cases hd : d.isDigit = true
    · rw [List.dropWhile_cons_of_pos hd] at hc
      exact ih c hc
    · rw [List.dropWhile_cons_of_neg hd] at hc
      cases hc
      simpa using hd

theorem token (p : Str) : Token p := by
  match p with
  | [] => exact .nil
  | [c] =>
    by_cases hc : c = '$'
    · rw [hc]; exact .lone
    · exact .char hc
  | c :: d :: p =>
    by_cases hc : c = '$'
    swap
    · exact .char hc
    rw [hc]
    by_cases hd : d = '$'
    · rw [hd]; exact .dollar
    by_cases hdig : d.isDigit = true
    · rw [← List.takeWhile_append_dropWhile (p := Char.isDigit) (l := p)]
      exact .digits hdig (fun c hc => List.mem_takeWhile_imp hc) (head_dropWhile p)
    · have hdig : d.isDigit = false := by simpa using hdig
      by_cases hn : numLength (d :: p) = 0
      · exact .other hd hdig hn
      · obtain ⟨t, q, rfl, hlen, ht, hmem⟩ := numLength_signed hdig hn
        exact .signed hd hdig ht hmem hlen

section
variable {nmatch : Nat} {rm : Nat → Int × Int} {source : Str}

theorem before_before (t u : Str) (x : Option (Option Str)) : before t (before u x) = before (t ++ u) x := by
  cases x with
  | none => rfl
  | some y =>
    cases y with
    | none => rfl
    | some r => simp [before]

theorem before_nil (x : Option (Option Str)) : before [] x = x := by
  cases x with
  | none => rfl
  | some y => cases y <;> rfl

theorem copied_char {c : Char} (hc : c ≠ '$') (p : Str) :
    copied nmatch rm source (c :: p) = before [c] (copied nmatch rm source p) := by
  cases p with
  | nil => simp [copied, hc, before]
  | cons d p => rw [copied, if_pos hc]

theorem copied_text {t : Str} (ht : '$' ∉ t) (p : Str) :
    copied nmatch rm source (t ++ p) = before t (copied nmatch rm source p) := by
  induction t with
  | nil => rw [List.nil_append, before_nil]
  | cons c t ih =>
    have hc : c ≠ '$' := fun h => ht (h ▸ List.mem_cons_self)
    rw [List.cons_append, copied_char hc, ih fun h => ht (List.mem_cons_of_mem _ h), before_before]
    rfl

theorem copied_other {d : Char} {p : Str} (h : d = '$' ∨ numLength (d :: p) = 0) :
    copied nmatch rm source ('$' :: d :: p) = before ['$'] (copied nmatch rm source p) := by
  rw [copied, if_neg (by simp), if_pos h]

/-- After a number the loop goes on at its second character. -/
theorem copied_number {d : Char} {t q : Str} (hd : d ≠ '$') (ht : '$' ∉ t) (hn : numLength (d :: (t ++ q)) = t.length + 1) :
    copied nmatch rm source ('$' :: d :: (t ++ q)) =
      if atoi (d :: (t ++ q)) ≥ nmatch then before ('$' :: d :: (t ++ t)) (copied nmatch rm source q)
      else if atoi (d :: (t ++ q)) < 0 then none
      else before (groupText rm source (atoi (d :: (t ++ q))).toNat ++ t) (copied nmatch rm source q) := by
  rw [copied, if_neg (by simp), if_neg (by simp [hd, hn]), hn, copied_text ht, before_before, before_before]
  simp

theorem expansion_char {c : Char} (hc : c ≠ '$') (p : Str) :
    expansion nmatch rm source (c :: p) = (expansion nmatch rm source p).map (c :: ·) := by
  rw [expansion, if_pos hc]

theorem expansion_text {t : Str} (ht : '$' ∉ t) (p : Str) :
    expansion nmatch rm source (t ++ p) = (expansion nmatch rm source p).map (t ++ ·) := by
  induction t with
  | nil => simp
  | cons c t ih =>
    have hc : c ≠ '$' := fun h => ht (h ▸ List.mem_cons_self)
    rw [List.cons_append, expansion_char hc, ih fun h => ht (List.mem_cons_of_mem _ h), Option.map_map]
    rfl

theorem expansion_dollar (p : Str) :
    expansion nmatch rm source ('$' :: '$' :: p) = (expansion nmatch rm source p).map ('$' :: ·) := by
  rw [expansion, if_neg (by simp), if_neg (by simp), if_pos (by simp)]
  rfl

/-- A `$` before anything but a digit or another `$` stands for itself. -/
theorem expansion_other {d : Char} (hd : d ≠ '$') (hdig : d.isDigit = false) {t : Str} (ht : '$' ∉ t) (q : Str) :
    expansion nmatch rm source ('$' :: d :: (t ++ q)) = (expansion nmatch rm source q).map ('$' :: d :: t ++ ·) := by
  have hne : '$' ∉ d :: t := by
    rw [List.mem_cons, not_or]
    exact ⟨Ne.symm hd, ht⟩
  rw [expansion, if_neg (by simp), if_neg (by simp), if_neg (by simpa using hd)]
  dsimp only
  rw [List.takeWhile_cons_of_neg (by simp [hdig]), if_pos rfl, ← List.cons_append, expansion_text hne, Option.map_map]
  rfl

theorem takeWhile_digits {d : Char} {t q : Str} (hd : d.isDigit = true) (ht : ∀ c ∈ t, c.isDigit = true)
    (hq : ∀ c, q.head? = some c → c.isDigit = false) : (d :: (t ++ q)).takeWhile Char.isDigit = d :: t := by
  rw [← List.cons_append, List.takeWhile_append_of_pos (List.forall_mem_cons.2 ⟨hd, ht⟩)]
  cases q with
  | nil => simp
  | cons c q => rw [List.takeWhile_cons_of_neg (by simp [hq c rfl]), List.append_nil]

theorem expansion_digits {d : Char} {t q : Str} (hd : d.isDigit = true) (ht : ∀ c ∈ t, c.isDigit = true)
    (hq : ∀ c, q.head? = some c → c.isDigit = false) : expansion nmatch rm source ('$' :: d :: (t ++ q)) =
      if digits (d :: t) < nmatch then (expansion nmatch rm source q).map (groupText rm source (digits (d :: t)) ++ ·)
      else (expansion nmatch rm source q).map ('$' :: d :: t ++ ·) := by
  have hne : d ≠ '$' := by rintro rfl; simp at hd
  have hall := takeWhile_digits hd ht (q := []) (by simp)
  rw [List.append_nil] at hall
  rw [expansion, if_neg (by simp), if_neg (by simp), if_neg (by simpa using hne)]
  dsimp only
  rw [takeWhile_digits hd ht hq, if_neg (by simp), digits, hall]
  simp

/-- What the code makes of the digits, in an `int`. -/
theorem atoi_digits {d : Char} {t q : Str} (hd : d.isDigit = true) (ht : ∀ c ∈ t, c.isDigit = true)
    (hq : ∀ c, q.head? = some c → c.isDigit = false) :
    atoi (d :: (t ++ q)) = (min (2 ^ 63 - 1) (digits (d :: t) : Int)).bmod (2 ^ 32) := by
  have hall := takeWhile_digits hd ht (q := []) (by simp)
  rw [List.append_nil] at hall
  have hdrop : (d :: (t ++ q)).dropWhile isspace = d :: (t ++ q) := List.dropWhile_cons_of_neg (by simp [isspace_digit hd])
  have hval : digits (d :: t) = digits (d :: (t ++ q)) := by rw [digits, hall, digits, takeWhile_digits hd ht hq]
  rw [atoi, strtol, hdrop, hval]
  split
  · rename_i heq; cases heq; simp at hd
  · rename_i heq; cases heq; simp at hd
  · rfl

theorem atoi_digits_small {d : Char} {t q : Str} (hd : d.isDigit = true) (ht : ∀ c ∈ t, c.isDigit = true)
    (hq : ∀ c, q.head? = some c → c.isDigit = false) (hlt : digits (d :: t) < 2 ^ 31) :
    atoi (d :: (t ++ q)) = digits (d :: t) := by
  rw [atoi_digits hd ht hq, show min (2 ^ 63 - 1) (digits (d :: t) : Int) = digits (d :: t) by omega]
  exact Int.bmod_eq_of_le (by omega) (by omega)

end

/-! ## Patterns that are copied right -/

/-- Each `$` goes before another or before a single digit. -/
def clean : Str → Bool
  | [] => true
  | [_] => true
  | c :: d :: p =>
    if c ≠ '$' then clean (d :: p)
    else if d = '$' then clean p
    else d.isDigit && !p.head?.any Char.isDigit && clean p

/-- A number read after a `$` is negative. -/
def negative : Str → Bool
  | [] => false
  | [_] => false
  | c :: d :: p =>
    if c ≠ '$' then negative (d :: p)
    else if d = '$' ∨ numLength (d :: p) = 0 then negative p
    else atoi (d :: p) < 0 || negative p

section
variable {nmatch : Nat} {rm : Nat → Int × Int} {source : Str}

theorem copied_none (p : Str) : copied nmatch rm source p = none ↔ negative p = true := by
  induction p using copied.induct nmatch with
  | case1 => simp [copied, negative]
  | case2 => simp [copied, negative]
  | case3 c hc => simp [copied, negative, hc]
  | case4 c d p hc ih => rw [copied, if_pos hc, before_none, negative, if_pos hc, ih]
  | case5 c d p hc hd ih => rw [copied, if_neg hc, if_pos hd, before_none, negative, if_neg hc, if_pos hd, ih]
  | case6 c d p hc hd hi ih =>
    have hpos : ¬ atoi (d :: p) < 0 := by omega
    rw [copied, if_neg hc, if_neg hd, if_pos hi, before_none, negative, if_neg hc, if_neg hd, ih]
    simp [hpos]
  | case7 c d p hc hd hi hneg =>
    rw [copied, if_neg hc, if_neg hd, if_neg hi, if_pos hneg, negative, if_neg hc, if_neg hd]
    simp [hneg]
  | case8 c d p hc hd hi hneg ih =>
    rw [copied, if_neg hc, if_neg hd, if_neg hi, if_neg hneg, before_none, negative, if_neg hc, if_neg hd, ih]
    simp [hneg]

theorem clean_char {c : Char} (hc : c ≠ '$') (p : Str) : clean (c :: p) = clean p := by
  cases p with
  | nil => rfl
  | cons d p => rw [clean, if_pos hc]

theorem clean_other {d : Char} (hd : d ≠ '$') (hdig : d.isDigit = false) (p : Str) : clean ('$' :: d :: p) = false := by
  rw [clean, if_neg (by simp), if_neg hd, hdig]
  rfl

theorem digits_single {d : Char} (hd : d.isDigit = true) : digits [d] < 2 ^ 31 := by
  have hbound : d.toNat ≤ 57 := by
    simp only [Char.isDigit, Bool.and_eq_true, decide_eq_true_eq] at hd
    exact hd.2
  simp only [digits, List.takeWhile_cons_of_pos hd, List.takeWhile_nil, Nat.ofDigitChars_cons, Nat.ofDigitChars_nil]
  omega

theorem clean_digit {d : Char} {q : Str} (hd : d.isDigit = true) (hq : ∀ c, q.head? = some c → c.isDigit = false) :
    clean ('$' :: d :: q) = clean q := by
  have hne : d ≠ '$' := by rintro rfl; simp at hd
  rw [clean, if_neg (by simp), if_neg hne, hd]
  cases q with
  | nil => rfl
  | cons c q => simp [hq c rfl]

theorem copied_digit {d : Char} {q : Str} (hd : d.isDigit = true) (hq : ∀ c, q.head? = some c → c.isDigit = false) :
    copied nmatch rm source ('$' :: d :: q) =
      before (if digits [d] < nmatch then groupText rm source (digits [d]) else ['$', d]) (copied nmatch rm source q) := by
  have hne : d ≠ '$' := by rintro rfl; simp at hd
  have hnil : ∀ c ∈ ([] : Str), c.isDigit = true := by simp
  have hnumber := @copied_number nmatch rm source d [] q hne (by simp) (numLength_digits hd hnil hq)
  rw [List.nil_append] at hnumber
  have hatoi := @atoi_digits_small d [] q hd hnil hq (digits_single hd)
  rw [List.nil_append] at hatoi
  rw [hnumber, hatoi]
  split
  · next hge => rw [if_neg (by omega), List.append_nil]
  · next hlt => rw [if_neg (by omega), if_pos (by omega), Int.toNat_natCast, List.append_nil]

theorem expansion_digit {d : Char} {q : Str} (hd : d.isDigit = true) (hq : ∀ c, q.head? = some c → c.isDigit = false) :
    expansion nmatch rm source ('$' :: d :: q) = (expansion nmatch rm source q).map
      ((if digits [d] < nmatch then groupText rm source (digits [d]) else ['$', d]) ++ ·) := by
  have hdigits := @expansion_digits nmatch rm source d [] q hd (by simp) hq
  rw [List.nil_append] at hdigits
  rw [hdigits]
  split
  · rfl
  · rfl

/-- A clean pattern is copied as it should be. -/
theorem copied_clean {p : Str} (h : clean p = true) :
    copied nmatch rm source p = some (expansion nmatch rm source p) := by
  induction hl : p.length using Nat.strong_induction_on generalizing p with
  | _ n ih =>
    subst hl
    cases token p with
    | nil => simp [copied, expansion]
    | lone => simp [copied, expansion]
    | char hc =>
      rw [clean_char hc] at h
      rw [copied_char hc, expansion_char hc, ih _ (by simp) h rfl]
      rfl
    | dollar =>
      rw [clean, if_neg (by simp), if_pos rfl] at h
      rw [copied_other (.inl rfl), expansion_dollar, ih _ (after_two ..) h rfl]
      rfl
    | other hd hdig => rw [clean_other hd hdig] at h; cases h
    | signed hd hdig => rw [clean_other hd hdig] at h; cases h
    | @digits d t q hd ht hq =>
      have hne : d ≠ '$' := by rintro rfl; simp at hd
      rw [clean, if_neg (by simp), if_neg hne, hd, Bool.true_and, Bool.and_eq_true] at h
      -- a second digit would be another token
      have hnil : t = [] := by
        cases t with
        | nil => rfl
        | cons c t => simp [ht c List.mem_cons_self] at h
      subst hnil
      rw [List.nil_append] at h ⊢
      rw [copied_digit hd hq, expansion_digit hd hq, ih _ (after_two ..) h.2 rfl]
      rfl

theorem copied_number_before {d : Char} {t q : Str} (hd : d ≠ '$') (ht : '$' ∉ t)
    (hn : numLength (d :: (t ++ q)) = t.length + 1) (h : copied nmatch rm source ('$' :: d :: (t ++ q)) ≠ none) :
    ∃ u, copied nmatch rm source ('$' :: d :: (t ++ q)) = before u (copied nmatch rm source q) := by
  rw [copied_number hd ht hn] at h ⊢
  split
  · exact ⟨_, rfl⟩
  · split
    · rename_i hi hneg
      rw [if_neg hi, if_pos hneg] at h
      exact absurd rfl h
    · exact ⟨_, rfl⟩

/-- Both readings find the same lone `$`. -/
theorem copied_reject {p : Str} (h : copied nmatch rm source p ≠ none) :
    copied nmatch rm source p = some none ↔ expansion nmatch rm source p = none := by
  have hbefore : ∀ {t u : Str} {x : Option (Option Str)} {y : Option Str}, before t x ≠ none →
      (x ≠ none → (x = some none ↔ y = none)) → (before t x = some none ↔ y.map (u ++ ·) = none) := by
    intro t u x y hx hxy
    rw [Option.map_eq_none_iff, ← hxy fun hn => hx (before_none.2 hn)]
    cases x with
    | none => simp [before]
    | some z => cases z <;> simp [before]
  induction hl : p.length using Nat.strong_induction_on generalizing p with
  | _ n ih =>
    subst hl
    cases token p with
    | nil => simp [copied, expansion]
    | lone => simp [copied, expansion]
    | @char c p hc =>
      rw [copied_char hc] at h ⊢
      rw [expansion_char hc]
      exact hbefore (u := [c]) h fun hx => ih _ (by simp) hx rfl
    | dollar =>
      rw [copied_other (.inl rfl)] at h ⊢
      rw [expansion_dollar]
      exact hbefore (u := ['$']) h fun hx => ih _ (after_two ..) hx rfl
    | @other d p hd hdig hn =>
      rw [copied_other (.inr hn)] at h ⊢
      rw [← List.nil_append p, expansion_other hd hdig (by simp)]
      exact hbefore h fun hx => ih _ (after_two ..) hx rfl
    | @digits d t q hd ht hq =>
      have hne : d ≠ '$' := by rintro rfl; simp at hd
      have htd : '$' ∉ t := fun hm => by simpa using ht _ hm
      have hrec := fun hx => ih q.length (after_number ..) (p := q) hx rfl
      obtain ⟨u, hu⟩ := copied_number_before hne htd (numLength_digits hd ht hq) h
      rw [hu] at h ⊢
      rw [expansion_digits hd ht hq]
      split
      · exact hbefore h hrec
      · exact hbefore h hrec
    | @signed d t q hd hdig htd hmem hn =>
      have hrec := fun hx => ih q.length (after_number ..) (p := q) hx rfl
      obtain ⟨u, hu⟩ := copied_number_before hd htd hn h
      rw [hu] at h ⊢
      rw [expansion_other hd hdig htd]
      exact hbefore h hrec

end

/-! ## Patterns that are not -/

/-- A match in which no group has any text. -/
def noGroups : Nat → Int × Int := fun _ => (-1, -1)

theorem groupText_noGroups (i : Nat) : groupText noGroups [] i = [] := by simp [groupText]

theorem matches_noGroups (nmatch : Nat) : Matches nmatch noGroups [] := fun _ _ => .inl rfl

/-- How the code's text `c` and the right text `s` of a pattern compare when no
group has text: dollars can only get lost, then digits only be gained, then
characters only get lost. -/
structure Drift (p c s : Str) : Prop where
  dollars : c.count '$' ≤ s.count '$'
  digits : c.count '$' = s.count '$' → s.countP Char.isDigit ≤ c.countP Char.isDigit
  length : c.count '$' = s.count '$' → s.countP Char.isDigit = c.countP Char.isDigit → c.length ≤ s.length
  clean : c = s → clean p = true

/-- A token that both read alike. -/
theorem Drift.same {p q c s : Str} (h : Drift q c s) (t : Str) (hp : Cosign.clean p = Cosign.clean q) :
    Drift p (t ++ c) (t ++ s) := by
  refine ⟨?_, ?_, ?_, fun he => hp ▸ h.clean (List.append_cancel_left he)⟩
  · simpa using h.dollars
  · simpa using h.digits
  · simpa using h.length

/-- A dollar got lost. -/
theorem Drift.lost {p q c s t u : Str} (h : Drift q c s) (htu : t.count '$' < u.count '$') : Drift p (t ++ c) (u ++ s) := by
  have hd := h.dollars
  have hne : (t ++ c).count '$' < (u ++ s).count '$' := by simp only [List.count_append]; omega
  exact ⟨Nat.le_of_lt hne, fun he => by omega, fun he => by omega, fun he => by rw [he] at hne; omega⟩

/-- A digit was copied twice. -/
theorem Drift.twice {p q c s t u : Str} (h : Drift q c s) (htu : t.count '$' = u.count '$')
    (hdig : u.countP Char.isDigit < t.countP Char.isDigit) : Drift p (t ++ c) (u ++ s) := by
  have hd := h.dollars
  have hcount : (t ++ c).count '$' = (u ++ s).count '$' → c.count '$' = s.count '$' := by
    simp only [List.count_append]; omega
  have hne : (t ++ c).count '$' = (u ++ s).count '$' → (u ++ s).countP Char.isDigit < (t ++ c).countP Char.isDigit := by
    intro he
    have := h.digits (hcount he)
    simp only [List.countP_append]
    omega
  refine ⟨by simp only [List.count_append]; omega, fun he => Nat.le_of_lt (hne he), fun he hd => ?_, fun he => ?_⟩
  · have := hne he; omega
  · have := hne (by rw [he]); rw [he] at this; omega

/-- Another character got lost. -/
theorem Drift.shorter {p q c s : Str} {d : Char} (h : Drift q c s) (hd : d ≠ '$') (hdig : d.isDigit = false) :
    Drift p ('$' :: c) ('$' :: d :: s) := by
  have h1 := h.dollars
  have h2 := h.digits
  have h3 := h.length
  have hcount : ('$' :: d :: s).count '$' = s.count '$' + 1 := by simp [hd]
  have hcount' : ('$' :: c).count '$' = c.count '$' + 1 := by simp
  have hpdig : ('$' :: d :: s).countP Char.isDigit = s.countP Char.isDigit := by
    rw [List.countP_cons_of_neg (by simp), List.countP_cons_of_neg (by simp [hdig])]
  have hpdig' : ('$' :: c).countP Char.isDigit = c.countP Char.isDigit := List.countP_cons_of_neg (by simp)
  refine ⟨by omega, fun he => by have := h2 (by omega); omega, fun he hd => ?_, fun he => ?_⟩
  · have := h3 (by omega) (by omega)
    simp only [List.length_cons]
    omega
  · rw [← he] at hcount hpdig
    have := h3 (by omega) (by omega)
    have hlen := congrArg List.length he
    simp only [List.length_cons] at hlen
    omega

theorem count_dollar {t : Str} (h : '$' ∉ t) : t.count '$' = 0 := List.count_eq_zero.2 h

theorem countP_pos {t : Str} (h : ∃ c ∈ t, c.isDigit = true) : 0 < t.countP Char.isDigit := List.countP_pos_iff.2 h

/-- A number of more than one character. What the code makes of it is longer, or lost
its `$`. -/
theorem drift_number {nmatch : Nat} {d : Char} {t p q c s u : Str} (hd : d ≠ '$') (ht : '$' ∉ t)
    (hdig : ∃ c ∈ t, c.isDigit = true) (hn : numLength (d :: (t ++ q)) = t.length + 1)
    (hc : copied nmatch noGroups [] ('$' :: d :: (t ++ q)) = some (some c))
    (hu : u = '$' :: d :: t ∨ u = [] ∧ atoi (d :: (t ++ q)) < nmatch)
    (ih : ∀ c, copied nmatch noGroups [] q = some (some c) → Drift q c s) : Drift p c (u ++ s) := by
  have hdc : ∀ w : Str, ('$' :: d :: w).count '$' = w.count '$' + 1 := fun w => by simp [hd]
  have hcount := count_dollar ht
  have hpos := countP_pos hdig
  rw [copied_number hd ht hn] at hc
  split at hc
  -- not below `nmatch`, so the code copies the number, and `t` once more
  · next hi =>
    obtain ⟨c, hc', rfl⟩ := before_some hc
    rcases hu with rfl | ⟨-, hlt⟩
    · refine (ih c hc').twice (by rw [hdc, hdc, List.count_append]; omega) ?_
      rw [← List.cons_append, ← List.cons_append, List.countP_append]
      omega
    · omega
  split at hc
  · cases hc
  · obtain ⟨c, hc', rfl⟩ := before_some hc
    rw [groupText_noGroups, List.nil_append]
    rcases hu with rfl | ⟨rfl, -⟩
    · exact (ih c hc').lost (by rw [hdc]; omega)
    · exact (ih c hc').twice (by rw [hcount]; rfl) (by simpa using hpos)

/-- What is right for a number: nothing, if the code finds it below `nmatch` too. -/
theorem expansion_number {nmatch : Nat} {d : Char} {t q s : Str} (hdig : d.isDigit = true) (ht : ∀ c ∈ t, c.isDigit = true)
    (hq : ∀ c, q.head? = some c → c.isDigit = false) (hs : expansion nmatch noGroups [] ('$' :: d :: (t ++ q)) = some s) :
    ∃ u s', expansion nmatch noGroups [] q = some s' ∧ s = u ++ s' ∧
      (u = '$' :: d :: t ∨ u = [] ∧ atoi (d :: (t ++ q)) < nmatch) := by
  rw [expansion_digits hdig ht hq] at hs
  split at hs
  · next hlt =>
    obtain ⟨s, hs', rfl⟩ := Option.map_eq_some_iff.1 hs
    refine ⟨[], s, hs', by rw [groupText_noGroups], .inr ⟨rfl, ?_⟩⟩
    have hbound := atoi_bounds (d :: (t ++ q))
    by_contra hge
    have heq := atoi_digits_small hdig ht hq (by omega)
    omega
  · obtain ⟨s, hs', rfl⟩ := Option.map_eq_some_iff.1 hs
    exact ⟨_, s, hs', rfl, .inl rfl⟩

theorem drift {nmatch : Nat} {p c s : Str} (hc : copied nmatch noGroups [] p = some (some c))
    (hs : expansion nmatch noGroups [] p = some s) : Drift p c s := by
  induction hl : p.length using Nat.strong_induction_on generalizing p c s with
  | _ n ih =>
    subst hl
    cases token p with
    | nil =>
      simp only [copied, Option.some.injEq] at hc
      simp only [expansion, Option.some.injEq] at hs
      subst hc hs
      exact ⟨Nat.le_refl _, fun _ => Nat.le_refl _, fun _ _ => Nat.le_refl _, fun _ => rfl⟩
    | lone => simp [copied] at hc
    | @char d p hd =>
      rw [copied_char hd] at hc
      rw [expansion_char hd] at hs
      obtain ⟨c, hc', rfl⟩ := before_some hc
      obtain ⟨s, hs', rfl⟩ := Option.map_eq_some_iff.1 hs
      exact (ih _ (by simp) hc' hs' rfl).same [d] (clean_char hd p)
    | @dollar p =>
      rw [copied_other (.inl rfl)] at hc
      rw [expansion_dollar] at hs
      obtain ⟨c, hc', rfl⟩ := before_some hc
      obtain ⟨s, hs', rfl⟩ := Option.map_eq_some_iff.1 hs
      exact (ih _ (after_two ..) hc' hs' rfl).same ['$'] (by rw [clean, if_neg (by simp), if_pos rfl])
    | @other d p hd hdig hn =>
      rw [copied_other (.inr hn)] at hc
      rw [← List.nil_append p, expansion_other hd hdig (by simp)] at hs
      obtain ⟨c, hc', rfl⟩ := before_some hc
      obtain ⟨s, hs', rfl⟩ := Option.map_eq_some_iff.1 hs
      -- `d` is skipped
      exact (ih _ (after_two ..) hc' hs' rfl).shorter hd hdig
    | @signed d t q hd hdig htd hmem hn =>
      rw [expansion_other hd hdig htd] at hs
      obtain ⟨s, hs', rfl⟩ := Option.map_eq_some_iff.1 hs
      exact drift_number hd htd hmem hn hc (.inl rfl) fun c hc' => ih _ (after_number ..) hc' hs' rfl
    | @digits d t q hdig ht hq =>
      cases t with
      | nil =>
        rw [List.nil_append] at hc hs ⊢
        rw [copied_digit hdig hq] at hc
        rw [expansion_digit hdig hq] at hs
        obtain ⟨c, hc', rfl⟩ := before_some hc
        obtain ⟨s, hs', rfl⟩ := Option.map_eq_some_iff.1 hs
        exact (ih _ (after_two ..) hc' hs' rfl).same _ (clean_digit hdig hq)
      | cons e t =>
        have hd : d ≠ '$' := by rintro rfl; simp at hdig
        have htd : '$' ∉ e :: t := fun hm => by simpa using ht _ hm
        obtain ⟨u, s, hs', rfl, hu⟩ := expansion_number hdig ht hq hs
        have hmem : ∃ c ∈ e :: t, c.isDigit = true := ⟨e, List.mem_cons_self, ht e List.mem_cons_self⟩
        exact drift_number hd htd hmem (numLength_digits hdig ht hq) hc hu fun c hc' => ih _ (after_number ..) hc' hs' rfl

/-! ## Whole patterns -/

/-- The pattern ends in a lone `$`. -/
def lone : Str → Bool
  | [] => false
  | [c] => c = '$'
  | c :: d :: p => if c = '$' ∧ d = '$' then lone p else lone (d :: p)

theorem lone_char {c : Char} (hc : c ≠ '$') (p : Str) : lone (c :: p) = lone p := by
  cases p with
  | nil => simp [lone, hc]
  | cons d p => rw [lone, if_neg fun h => hc h.1]

theorem lone_text {t : Str} (ht : '$' ∉ t) (p : Str) : lone (t ++ p) = lone p := by
  induction t with
  | nil => rfl
  | cons c t ih =>
    rw [List.cons_append, lone_char fun h => ht (h ▸ List.mem_cons_self), ih fun h => ht (List.mem_cons_of_mem _ h)]

theorem lone_other {d : Char} {t : Str} (hd : d ≠ '$') (ht : '$' ∉ t) (p : Str) : lone ('$' :: d :: (t ++ p)) = lone p := by
  rw [lone, if_neg fun h => hd h.2, lone_char hd, lone_text ht]

theorem expansion_none {nmatch : Nat} {rm : Nat → Int × Int} {source : Str} (p : Str) :
    expansion nmatch rm source p = none ↔ lone p = true := by
  induction hl : p.length using Nat.strong_induction_on generalizing p with
  | _ n ih =>
    subst hl
    cases token p with
    | nil => simp [expansion, lone]
    | lone => simp [expansion, lone]
    | @char c p hc => rw [expansion_char hc, Option.map_eq_none_iff, lone_char hc, ih _ (by simp) p rfl]
    | @dollar p => rw [expansion_dollar, Option.map_eq_none_iff, ih _ (after_two ..) p rfl, lone, if_pos ⟨rfl, rfl⟩]
    | @other d p hd hdig =>
      rw [← List.nil_append p, expansion_other hd hdig (by simp), Option.map_eq_none_iff, lone_other hd (by simp),
        ih _ (after_two ..) p rfl]
    | @signed d t q hd hdig ht =>
      rw [expansion_other hd hdig ht, Option.map_eq_none_iff, lone_other hd ht, ih _ (by simp; omega) q rfl]
    | @digits d t q hdig ht hq =>
      have hd : d ≠ '$' := by rintro rfl; simp at hdig
      have htd : '$' ∉ t := fun hm => by simpa using ht _ hm
      rw [lone_other hd htd, ← ih q.length (by simp; omega) q rfl, expansion_digits hdig ht hq]
      split
      · rw [Option.map_eq_none_iff]
      · rw [Option.map_eq_none_iff]

/-- `match_substitute` writes the expansion if it fits with its NUL, and rejects
a pattern that has none. -/
def SubstituteRight (len nmatch : Nat) (rm : Nat → Int × Int) (source pattern : Str) : Prop :=
  (∀ out, expansion nmatch rm source pattern = some out → out.length < len →
    matchSubstitute len nmatch rm source pattern [] = some (some out)) ∧
  (expansion nmatch rm source pattern = none → matchSubstitute len nmatch rm source pattern [] = some none)

/-- The patterns that are copied right, whatever they are matched with and
unless the result leaves no room but for the NUL. -/
theorem substitute_right_iff (nmatch : Nat) (pattern : Str) :
    (∀ len rm source, Matches nmatch rm source → (SubstituteRight len nmatch rm source pattern ↔
      ∀ out, expansion nmatch rm source pattern = some out → out.length + 1 ≠ len)) ↔
    clean pattern = true ∨ lone pattern = true ∧ negative pattern = false := by
  constructor
  · intro h
    have hmatch := matches_noGroups nmatch
    cases hs : expansion nmatch noGroups [] pattern with
    | none =>
      refine .inr ⟨(expansion_none pattern).1 hs, Bool.eq_false_iff.2 fun hneg => ?_⟩
      have hc : copied nmatch noGroups [] pattern = none := (copied_none pattern).2 hneg
      obtain ⟨m, hm⟩ := matchSubstitute_undef [] hc
      have hright := (h m noGroups [] hmatch).2 fun out ho => by rw [hs] at ho; cases ho
      have hreject := hright.2 hs
      rw [hm m (Nat.le_refl m)] at hreject
      cases hreject
    | some s =>
      left
      have hout : ∀ len, s.length + 1 < len → matchSubstitute len nmatch noGroups [] pattern [] = some (some s) := by
        intro len hlen
        have hright := (h len noGroups [] hmatch).2 fun out ho => by rw [hs] at ho; cases ho; omega
        exact hright.1 s hs (by omega)
      cases hc : copied nmatch noGroups [] pattern with
      | none =>
        obtain ⟨m, hm⟩ := matchSubstitute_undef [] hc
        have hrun := hout (m + s.length + 2) (by omega)
        rw [hm _ (by omega)] at hrun
        cases hrun
      | some y =>
        cases y with
        | none =>
          have hrun := hout (s.length + 2) (by omega)
          rw [matchSubstitute_reject _ [] hc] at hrun
          cases hrun
        | some c =>
          have hrun := hout (s.length + c.length + 2) (by omega)
          rw [matchSubstitute_some hmatch _ [] hc, if_neg (by rw [List.length_nil]; omega)] at hrun
          obtain rfl : c = s := by simpa using hrun
          exact (drift hc hs).clean rfl
  · intro h len rm source hmatch
    rcases h with hclean | ⟨hlone, hneg⟩
    · have hc : copied nmatch rm source pattern = some (expansion nmatch rm source pattern) := copied_clean hclean
      cases hs : expansion nmatch rm source pattern with
      | none =>
        rw [hs] at hc
        exact iff_of_true ⟨fun out ho => (by rw [hs] at ho; cases ho), fun _ => matchSubstitute_reject len [] hc⟩
          fun out ho => by cases ho
      | some s =>
        rw [hs] at hc
        have hrun := matchSubstitute_some hmatch len [] hc
        rw [SubstituteRight, hs, hrun]
        simp only [Option.some.injEq, forall_eq', List.length_nil, List.nil_append, reduceCtorEq, false_implies, and_true]
        split
        · simp; omega
        · simp; omega
    · have hs : expansion nmatch rm source pattern = none := (expansion_none pattern).2 hlone
      have hdefined : copied nmatch rm source pattern ≠ none := by
        rw [Ne, copied_none]
        simp [hneg]
      have hc := (copied_reject hdefined).2 hs
      exact iff_of_true ⟨fun out ho => (by rw [hs] at ho; cases ho), fun _ => matchSubstitute_reject len [] hc⟩
        fun out ho => by rw [hs] at ho; cases ho

/-- The letter after a `$` is not copied. -/
theorem letter_lost : ¬ ∀ (len nmatch : Nat) (rm : Nat → Int × Int) (source pattern : Str), Matches nmatch rm source →
    SubstituteRight len nmatch rm source pattern := by
  intro h
  have hright := (h 130 3 noGroups [] "a$x".toList (matches_noGroups 3)).1 "a$x".toList
  have hs : expansion 3 noGroups [] "a$x".toList = some "a$x".toList := by
    simp [expansion]
  have hrun := hright hs (by decide)
  exact absurd hrun (by decide)

end Cosign
