import Cosign.Daemon.Monster
/-!
# Where a cookie's file lies

A hashed database has one directory for every character, or pair of
characters, of an alphabet of 64. `mkhashdirs` makes them, a sweep scans them,
and `mkcookiepath` names one by the characters that follow the cookie's `=`,
whatever they are: a cookie is kept inside the database exactly when they are
of the alphabet.
-/

namespace Cosign

def scriptChars : Str := "abcdefghijklmnopqrstuvwxyzABCDEFGHIJKLMNOPQRSTUVWXYZ0123456789+-".toList

/-- The directories that `mkhashdirs 1` and `mkhashdirs 2` make. -/
def mkhashdirs : Int → List Str
  | 1 => scriptChars.map fun i => [i]
  | 2 => scriptChars.flatMap fun i => scriptChars.map fun j => [i, j]
  | _ => []

/-- The `hashlen` characters after the first `=`. -/
def hashChars (hashlen : Int) (cookie : Str) : Str :=
  ((cookie.dropWhile (· ≠ '=')).drop 1).take hashlen.toNat

/-- A file of the database that `prefix` names. -/
def under (pre : Option Str) (file : Str) : Str :=
  match pre with
  | none => file
  | some d => d ++ '/' :: file

def cookieFile (hashlen : Int) (cookie : Str) : Str :=
  if hashlen = 0 then cookie else hashChars hashlen cookie ++ '/' :: cookie

/-- Cookie `cookie` has the file `p` in the database: in a directory that is
made and scanned, where a sweep takes it for the file of that cookie. -/
structure InDatabase (pre : Option Str) (hashlen : Int) (cookie p d : Str) : Prop where
  path : p = under pre (d ++ '/' :: cookie)
  length : d.length = hashlen
  alphabet : ∀ c ∈ d, c ∈ fbase64Alphabet
  made : d ∈ mkhashdirs hashlen
  scanned : ∃ dirs, hashDirs hashlen = some dirs ∧ d ∈ dirs
  swept : mkcookiepath none hashlen cookie maxPathLen = some (d ++ '/' :: cookie)
  dots : d ≠ ".".toList ∧ d ≠ "..".toList

/-! ## The path -/

/-- What `mkcookiepath` takes, and what it makes of it. -/
theorem mkcookiepath_eq (pre : Option Str) {h : Int} (hh : h = 0 ∨ h = 1 ∨ h = 2) (c : Str) (n : Nat) :
    mkcookiepath pre h c n =
      if '/' ∉ c ∧ c.length < maxCookieLen ∧ 2 < (c.dropWhile (· ≠ '=')).length ∧ (under pre (cookieFile h c)).length < n
      then some (under pre (cookieFile h c)) else none := by
  unfold mkcookiepath strchr
  have hif : ∀ file : Str, (if file.length ≥ n then none else some file) = if file.length < n then some file else none := by
    intro file
    by_cases hf : file.length < n
    · rw [if_pos hf, if_neg (by omega)]
    · rw [if_neg hf, if_pos (by omega)]
  obtain ⟨q, hq⟩ : ∃ q, c.dropWhile (· ≠ '=') = q := ⟨_, rfl⟩
  simp only [hif, cookieFile, hashChars, hq]
  by_cases hs : '/' ∈ c
  · simp [hs]
  by_cases hl : c.length ≥ maxCookieLen
  · simp [hl, Nat.not_lt.2 hl]
  simp only [hs, hl, if_false, not_false_eq_true, true_and, Nat.not_le.1 hl]
  -- a value of less than two characters is refused, and any other names its directory
  match q with
  | [] => rfl
  | [_] => rfl
  | [_, _] => rfl
  | _ :: a :: b :: r => rcases hh with rfl | rfl | rfl <;> cases pre <;> simp [under]

/-- A hashed cookie's file is in the directory of its hash characters. -/
theorem mkcookiepath_hashed {pre : Option Str} {h : Int} {c p : Str} {n : Nat} (hh : h = 1 ∨ h = 2)
    (hp : mkcookiepath pre h c n = some p) :
    p = under pre (hashChars h c ++ '/' :: c) ∧ (hashChars h c).length = h ∧
      mkcookiepath none h c maxPathLen = some (hashChars h c ++ '/' :: c) := by
  rw [mkcookiepath_eq pre (.inr hh)] at hp
  split at hp
  swap
  · cases hp
  rename_i hc
  obtain ⟨hs, hl, hq, -⟩ := hc
  have hfile : cookieFile h c = hashChars h c ++ '/' :: c := if_neg (by omega)
  have hlen : (hashChars h c).length = h := by
    simp only [hashChars, List.length_take, List.length_drop]
    omega
  refine ⟨?_, hlen, ?_⟩
  · rw [← hfile]
    exact (Option.some.inj hp).symm
  · rw [mkcookiepath_eq none (.inr hh), if_pos, under, hfile]
    refine ⟨hs, hl, hq, ?_⟩
    simp only [under, hfile, List.length_append, List.length_cons]
    simp only [maxPathLen, maxCookieLen] at hl ⊢
    omega

/-! ## The directories -/

theorem scriptChars_mem (c : Char) : c ∈ scriptChars ↔ c ∈ fbase64Alphabet := by
  have hto : scriptChars.all fbase64Alphabet.contains = true := by decide +kernel
  have hfrom : fbase64Alphabet.all scriptChars.contains = true := by decide +kernel
  constructor
  · intro hc
    simpa using List.all_eq_true.1 hto c hc
  · intro hc
    simpa using List.all_eq_true.1 hfrom c hc

/-- The directories that are made are the words of the alphabet. -/
theorem mem_mkhashdirs {h : Int} (hh : h = 1 ∨ h = 2) (d : Str) :
    d ∈ mkhashdirs h ↔ d.length = h ∧ ∀ c ∈ d, c ∈ fbase64Alphabet := by
  rcases hh with rfl | rfl
  · simp only [mkhashdirs, List.mem_map, scriptChars_mem]
    constructor
    · rintro ⟨i, hi, rfl⟩
      exact ⟨rfl, by simpa using hi⟩
    · rintro ⟨hl, hd⟩
      obtain ⟨i, rfl⟩ := List.length_eq_one_iff.1 (by omega : d.length = 1)
      exact ⟨i, hd i List.mem_cons_self, rfl⟩
  · simp only [mkhashdirs, List.mem_flatMap, List.mem_map, scriptChars_mem]
    constructor
    · rintro ⟨i, hi, j, hj, rfl⟩
      exact ⟨rfl, by simp [hi, hj]⟩
    · rintro ⟨hl, hd⟩
      obtain ⟨i, j, rfl⟩ := List.length_eq_two.1 (by omega : d.length = 2)
      exact ⟨i, hd i (by simp), j, hd j (by simp), rfl⟩

/-- What `mkhashdirs` makes, a sweep scans. -/
theorem hashDirs_eq {h : Int} (hh : h = 1 ∨ h = 2) : hashDirs h = some (mkhashdirs h) := by
  rcases hh with rfl | rfl <;> rfl

theorem inDatabase_of {pre : Option Str} {h : Int} {c p : Str} {n : Nat} (hh : h = 1 ∨ h = 2)
    (hp : mkcookiepath pre h c n = some p) (hc : ∀ x ∈ hashChars h c, x ∈ fbase64Alphabet) :
    InDatabase pre h c p (hashChars h c) := by
  obtain ⟨hpath, hlen, hswept⟩ := mkcookiepath_hashed hh hp
  have hmade : hashChars h c ∈ mkhashdirs h := (mem_mkhashdirs hh _).2 ⟨hlen, hc⟩
  have hdot : '.' ∉ fbase64Alphabet := by decide
  refine ⟨hpath, hlen, hc, hmade, ⟨_, hashDirs_eq hh, hmade⟩, hswept, ?_, ?_⟩
  · intro he
    exact hdot (hc _ (by simp [he]))
  · intro he
    exact hdot (hc _ (by simp [he]))

/-- The directory of a path is the cookie's hash characters. -/
theorem InDatabase.dir {pre : Option Str} {h : Int} {c p d : Str} (hi : InDatabase pre h c p d)
    (hh : h = 1 ∨ h = 2) : d = hashChars h c := by
  have hswept := (mkcookiepath_hashed hh hi.swept).2.2
  rw [hi.swept] at hswept
  exact List.append_cancel_right (Option.some.inj hswept)

/-- A cookie that has a path is kept in the database if and only if its hash
characters are of the alphabet. -/
theorem path_in_database {pre : Option Str} {h : Int} {c p : Str} {n : Nat} (hh : h = 1 ∨ h = 2)
    (hp : mkcookiepath pre h c n = some p) :
    (∃ d, InDatabase pre h c p d) ↔ ∀ x ∈ hashChars h c, x ∈ fbase64Alphabet := by
  constructor
  · rintro ⟨d, hd⟩
    rw [← hd.dir hh]
    exact hd.alphabet
  · intro hc
    exact ⟨_, inDatabase_of hh hp hc⟩

theorem path_in_database_ab :
    ∃ d, InDatabase (some "db".toList) 2 "cosign=abc".toList "db/ab/cosign=abc".toList d := by
  have hall : (hashChars 2 "cosign=abc".toList).all fbase64Alphabet.contains = true := by decide
  refine (path_in_database (.inr rfl) (by decide : mkcookiepath _ _ _ 64 = _)).2 ?_
  intro c hc
  simpa using List.all_eq_true.1 hall c hc

/-- Dots pass `validchars`, and two of them lead out of the database. -/
theorem path_leaves_database : ¬ ∀ (pre : Option Str) (h : Int) (c p : Str) (n : Nat), h = 1 ∨ h = 2 →
    mkcookiepath pre h c n = some p → validchars c = true → ∃ d, InDatabase pre h c p d := by
  intro hall
  have hp : mkcookiepath none 2 "cosign=..x".toList maxPathLen = some "../cosign=..x".toList := by decide
  obtain ⟨d, hd⟩ := hall none 2 "cosign=..x".toList _ maxPathLen (.inr rfl) hp (by decide)
  have hdir := hd.dir (.inr rfl)
  exact hd.dots.2 (hdir.trans (by decide))

end Cosign
