import Cosign.Common.Text
/-!
# Cookie names and their files

`mkcookie` turns random bytes into a cookie value and `mkcookiepath` turns a
cookie name into the file that holds it: the name itself, or the name under a
directory of its value's first one or two characters.
-/

namespace Cosign

def maxPathLen : Nat := 4096
def maxCookieLen : Nat := 1024

/-! ## `fbase64` -/

/-- The tables of `fbase64.c` index this alphabet. -/
def fbase64Alphabet : Str :=
  "ABCDEFGHIJKLMNOPQRSTUVWXYZabcdefghijklmnopqrstuvwxyz0123456789+-".toList

def al64 (n : Nat) : Char := fbase64Alphabet.get ⟨n % 64, Nat.mod_lt _ (by decide)⟩

def etabHigh6 (a : UInt8) : Char := al64 (a.toNat / 4)
def etabHigh24 (a b : UInt8) : Char := al64 (a.toNat % 4 * 16 + b.toNat / 16)
def etabLow42 (b c : UInt8) : Char := al64 (b.toNat % 16 * 4 + c.toNat / 64)
def etabLow6 (c : UInt8) : Char := al64 (c.toNat % 64)

def fbase64e : List UInt8 → Str
  | a :: b :: c :: d => etabHigh6 a :: etabHigh24 a b :: etabLow42 b c :: etabLow6 c :: fbase64e d
  | [a, b] => [etabHigh6 a, etabHigh24 a b, etabLow42 b 0, '=']
  | [a] => [etabHigh6 a, etabHigh24 a 0, '=', '=']
  | [] => []

/-! ## `validchars` -/

/-- `valid_tab`, whose upper half is all 0. -/
def validTab : List Nat :=
  [0, 0, 0, 0, 0, 0, 0, 0, 0, 0, 0, 0, 0, 0, 0, 0,
   0, 0, 0, 0, 0, 0, 0, 0, 0, 0, 0, 0, 0, 0, 0, 0,
   0, 0, 0, 0, 0, 0, 0, 0, 0, 0, 0, 1, 0, 1, 1, 0,
   1, 1, 1, 1, 1, 1, 1, 1, 1, 1, 0, 0, 0, 1, 0, 0,
   1, 1, 1, 1, 1, 1, 1, 1, 1, 1, 1, 1, 1, 1, 1, 1,
   1, 1, 1, 1, 1, 1, 1, 1, 1, 1, 1, 0, 0, 0, 0, 1,
   0, 1, 1, 1, 1, 1, 1, 1, 1, 1, 1, 1, 1, 1, 1, 1,
   1, 1, 1, 1, 1, 1, 1, 1, 1, 1, 1, 0, 0, 0, 0, 0]

def validchars (s : Str) : Bool := s.all fun c => validTab.getD c.toNat 0 ≠ 0

/-! ## `mkcookie` -/

/-- What `RAND_bytes` writes, or its failure. -/
abbrev Rand := Option (Nat → UInt8)

/-- A cookie value for a buffer of `len` characters. -/
def mkcookie (len : Nat) (rand : Rand) : Option Str :=
  let randbytes := (len - 3) * 3 / 4
  if randbytes = 0 ∨ randbytes > 1024 then none
  else rand.map fun r => fbase64e ((List.range randbytes).map r)

/-! ## `mkcookiepath` -/

/-- `strchr(s, c)`. -/
def strchr (s : Str) (c : Char) : Option Str :=
  match s.dropWhile (· ≠ c) with
  | [] => none
  | p => some p

def mkcookiepath (pre : Option Str) (hashlen : Int) (cookie : Str) (len : Nat) : Option Str :=
  if '/' ∈ cookie then none
  else if cookie.length ≥ maxCookieLen then none
  else match strchr cookie '=' with
    | none => none
    | some p =>
      if p.length ≤ 2 then none
      else
        let under (dir : Str) : Option Str :=
          let file := match pre with
            | none => dir ++ cookie
            | some d => d ++ '/' :: dir ++ cookie
          if file.length ≥ len then none else some file
        match hashlen with
        | 0 => under []
        | 1 => under [p.getD 1 '/', '/']
        | 2 => under [p.getD 1 '/', p.getD 2 '/', '/']
        | _ => none

/-- The last component of a path. -/
def basename (p : Str) : Str := (p.reverse.takeWhile (· ≠ '/')).reverse

/-! ## The value -/

theorem al64_mem (n : Nat) : al64 n ∈ fbase64Alphabet := List.get_mem _ _

/-- Whole groups of three bytes need no padding. -/
theorem fbase64e_mem (d : List UInt8) (h : d.length % 3 = 0) : ∀ c ∈ fbase64e d, c ∈ fbase64Alphabet := by
  induction d using fbase64e.induct with
  | case1 x y z d ih =>
    intro c hc
    simp only [fbase64e, List.mem_cons] at hc
    rcases hc with rfl | rfl | rfl | rfl | hc
    iterate 4 exact al64_mem _
    exact ih (by simp only [List.length_cons] at h; omega) c hc
  | case2 => simp at h
  | case3 => simp at h
  | case4 => simp [fbase64e]

theorem fbase64e_length (d : List UInt8) (h : d.length % 3 = 0) : (fbase64e d).length = d.length / 3 * 4 := by
  induction d using fbase64e.induct with
  | case1 x y z d ih =>
    simp only [List.length_cons] at h
    have hd := ih (by omega)
    simp only [fbase64e, List.length_cons, hd]
    omega
  | case2 => simp at h
  | case3 => simp at h
  | case4 => simp [fbase64e]

theorem mkcookie_length {r : Rand} {v : Str} (h : mkcookie 128 r = some v) : v.length = 124 := by
  obtain ⟨f, -, rfl⟩ := Option.map_eq_some_iff.1 (show r.map _ = some v from h)
  rw [fbase64e_length _ (by rw [List.length_map, List.length_range]), List.length_map, List.length_range]

theorem mkcookie_mem {len : Nat} {r : Rand} {v : Str} (h3 : (len - 3) * 3 / 4 % 3 = 0) (h : mkcookie len r = some v) :
    ∀ c ∈ v, c ∈ fbase64Alphabet := by
  simp only [mkcookie] at h
  split at h
  · cases h
  · obtain ⟨f, -, rfl⟩ := Option.map_eq_some_iff.1 h
    exact fbase64e_mem _ (by simpa using h3)

/-! ## The file -/

theorem strchr_some {s p : Str} {c : Char} (h : strchr s c = some p) : c ∈ s := by
  induction s with
  | nil => cases h
  | cons d s ih =>
    by_cases hd : d = c
    · exact hd ▸ List.mem_cons_self
    · refine List.mem_cons_of_mem _ (ih ?_)
      simpa [strchr, List.dropWhile_cons, hd] using h

theorem takeWhile_slash {s : Str} (hs : '/' ∉ s) (r : Str) :
    (s.reverse ++ r).takeWhile (· ≠ '/') = s.reverse ++ r.takeWhile (· ≠ '/') := by
  refine List.takeWhile_append_of_pos fun c hc => ?_
  have : c ≠ '/' := fun he => hs (he ▸ List.mem_reverse.1 hc)
  simpa using this

theorem basename_append (d s : Str) (hs : '/' ∉ s) : basename (d ++ '/' :: s) = s := by
  have h := takeWhile_slash hs ('/' :: d.reverse)
  simp only [basename, List.reverse_append, List.reverse_cons, List.append_assoc, List.singleton_append]
  rw [h]
  simp

theorem basename_self (s : Str) (hs : '/' ∉ s) : basename s = s := by
  have h := takeWhile_slash hs []
  rw [List.append_nil] at h
  rw [basename, h]
  simp

/-- A cookie's file is named after the cookie, and names that have a file
hold an `=` and no slash. -/
theorem mkcookiepath_spec {pre : Option Str} {h : Int} {c p : Str} {n : Nat} (hp : mkcookiepath pre h c n = some p) :
    basename p = c ∧ '=' ∈ c ∧ '/' ∉ c ∧ c.length < maxCookieLen ∧ p.length < n := by
  unfold mkcookiepath at hp
  split at hp
  · cases hp
  rename_i hs
  split at hp
  · cases hp
  rename_i hl
  split at hp
  · cases hp
  rename_i q hq
  split at hp
  · cases hp
  have hbase : ∀ d : Str, (d = [] ∨ ∃ e, d = e ++ ['/']) → basename (d ++ c) = c := by
    rintro d (rfl | ⟨e, rfl⟩)
    · simpa using basename_self c hs
    · simpa using basename_append e c hs
  have hunder : ∀ d : Str, (d = [] ∨ ∃ e, d = e ++ ['/']) → ∀ file : Str, (file = d ++ c ∨ ∃ x, file = x ++ '/' :: d ++ c) →
      (if file.length ≥ n then none else some file) = some p →
      basename p = c ∧ '=' ∈ c ∧ '/' ∉ c ∧ c.length < maxCookieLen ∧ p.length < n := by
    intro d hd file hfile hp
    split at hp
    · cases hp
    cases hp
    refine ⟨?_, strchr_some hq, hs, by omega, by omega⟩
    rcases hfile with rfl | ⟨x, rfl⟩
    · exact hbase d hd
    · refine hbase (x ++ '/' :: d) (.inr ?_)
      rcases hd with rfl | ⟨e, rfl⟩
      · exact ⟨x, rfl⟩
      · exact ⟨x ++ '/' :: e, by simp⟩
  dsimp only at hp
  cases pre with
  | none =>
    split at hp
    · exact hunder [] (.inl rfl) _ (.inl rfl) hp
    · exact hunder _ (.inr ⟨[q.getD 1 '/'], rfl⟩) _ (.inl rfl) hp
    · exact hunder _ (.inr ⟨[q.getD 1 '/', q.getD 2 '/'], rfl⟩) _ (.inl rfl) hp
    · cases hp
  | some x =>
    split at hp
    · exact hunder [] (.inl rfl) _ (.inr ⟨x, rfl⟩) hp
    · exact hunder _ (.inr ⟨[q.getD 1 '/'], rfl⟩) _ (.inr ⟨x, rfl⟩) hp
    · exact hunder _ (.inr ⟨[q.getD 1 '/', q.getD 2 '/'], rfl⟩) _ (.inr ⟨x, rfl⟩) hp
    · cases hp

/-- Two cookies never share a file. -/
theorem mkcookiepath_inj {pre pre' : Option Str} {h h' : Int} {c d p : Str} {n m : Nat}
    (hc : mkcookiepath pre h c n = some p) (hd : mkcookiepath pre' h' d m = some p) : c = d :=
  (mkcookiepath_spec hc).1.symm.trans (mkcookiepath_spec hd).1

example : mkcookiepath none 2 "cosign=abcd".toList 4096 = some "ab/cosign=abcd".toList := by decide

end Cosign
