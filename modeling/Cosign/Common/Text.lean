import Mathlib
/-!
# C strings

A C string is the list of its characters before the NUL. Here are the library
functions the daemons use on them: numbers in decimal (`atoi`, `%d`, `%lu`),
`strcasecmp`, and `fgets` over the text of a file.
-/

namespace Cosign

abbrev Str := List Char

/-- What tells whether a string is in a list. -/
instance instLawfulBEqStr : LawfulBEq Str := inferInstance

/-! ## Numbers -/

/-- `%lu`, and `%d` of a number that is not negative. -/
def dec (n : Nat) : Str := Nat.toDigits 10 n

/-- `%d`. -/
def decInt : Int → Str
  | .ofNat n => dec n
  | .negSucc n => '-' :: dec (n + 1)

def nul : Char := '\x00'

def isspace (c : Char) : Bool := c = ' ' || (9 ≤ c.toNat && c.toNat ≤ 13)

def digits (s : Str) : Nat := Nat.ofDigitChars 10 (s.takeWhile Char.isDigit) 0

/-- `strtol(s, NULL, 10)` for a 64-bit `long`, which stops at its bounds. -/
def strtol (s : Str) : Int :=
  match s.dropWhile isspace with
  | '-' :: r => max (-2 ^ 63) (-(digits r : Int))
  | '+' :: r => min (2 ^ 63 - 1) (digits r : Int)
  | r => min (2 ^ 63 - 1) (digits r : Int)

/-- `atoi` is `strtol` cut down to a 32-bit `int`. -/
def atoi (s : Str) : Int := (strtol s).bmod (2 ^ 32)

theorem dec_isDigit (n : Nat) : ∀ c ∈ dec n, c.isDigit = true := fun _ hc =>
  Nat.isDigit_of_mem_toDigits (by decide) (by decide) hc

theorem dec_ne_nil (n : Nat) : dec n ≠ [] := by
  rw [dec, Nat.toDigits_eq_if (by decide)]
  split <;> simp

theorem digits_dec (n : Nat) : digits (dec n) = n := by
  have h : (dec n ++ []).takeWhile Char.isDigit = dec n ++ [].takeWhile Char.isDigit :=
    List.takeWhile_append_of_pos (dec_isDigit n)
  rw [List.append_nil, List.takeWhile_nil, List.append_nil] at h
  rw [digits, h]
  exact Nat.ofDigitChars_ten_toDigits

/-- Digits start with neither blank nor sign, so `strtol` reads them as they are. -/
theorem strtol_of_digits {s : Str} (hne : s ≠ []) (h : ∀ c ∈ s, c.isDigit = true) :
    strtol s = min (2 ^ 63 - 1) (digits s : Int) := by
  obtain ⟨c, r, rfl⟩ := List.exists_cons_of_ne_nil hne
  have hc := h c List.mem_cons_self
  have hsp : isspace c = false := by
    simp only [Char.isDigit, Bool.and_eq_true, decide_eq_true_eq] at hc
    have h48 : 48 ≤ c.toNat := hc.1
    have hne : c ≠ ' ' := by rintro rfl; simp at h48
    simp [isspace, hne]
    omega
  have hdrop : (c :: r).dropWhile isspace = c :: r := by simp [hsp]
  rw [strtol, hdrop]
  split
  · rename_i heq; cases heq; simp at hc
  · rename_i heq; cases heq; simp at hc
  · rfl

theorem atoi_dec (n : Nat) : atoi (dec n) = (min (2 ^ 63 - 1) (n : Int)).bmod (2 ^ 32) := by
  rw [atoi, strtol_of_digits (dec_ne_nil n) (dec_isDigit n), digits_dec]

theorem bmod_le (x : Int) (hx : 0 ≤ x) : x.bmod (2 ^ 32) ≤ x := by
  rw [Int.bmod_def]
  split <;> omega

theorem atoi_bounds (s : Str) : -2 ^ 31 ≤ atoi s ∧ atoi s < 2 ^ 31 := by
  rw [atoi, Int.bmod_def]
  split <;> omega

/-- Reading a number back never gives more than was printed. -/
theorem atoi_dec_le (n : Nat) : atoi (dec n) ≤ n := by
  rw [atoi_dec]
  have := bmod_le (min (2 ^ 63 - 1) (n : Int)) (by omega)
  omega

/-- Up to 31 bits a number is read back as it was printed. -/
theorem atoi_dec_of_lt {n : Nat} (h : n < 2 ^ 31) : atoi (dec n) = n := by
  rw [atoi_dec, show min (2 ^ 63 - 1) (n : Int) = n by omega]
  exact Int.bmod_eq_of_le (by omega) (by omega)

/-! ## Comparisons -/

def lower (s : Str) : Str := s.map Char.toLower

/-- `strcasecmp(a, b) == 0`. -/
def strcaseeq (a b : Str) : Bool := lower a = lower b

/-- `strncmp(s, p, strlen(p)) == 0`. -/
def hasPrefix (p s : Str) : Bool := p.isPrefixOf s

/-! ## `fgets` -/

/-- One call of `fgets` with room for `n` characters: the line it stores, and
what is left of the file. At the end of the file the line is empty, where
`fgets` returns `NULL`. -/
def fgets : Nat → Str → Str × Str
  | 0, s => ([], s)
  | _ + 1, [] => ([], [])
  | n + 1, c :: s => if c = '\n' then (['\n'], s) else ((fgets n s).1.cons c, (fgets n s).2)

theorem fgets_length (n : Nat) (s : Str) : (fgets n s).2.length ≤ s.length := by
  induction n, s using fgets.induct with
  | case1 s => simp [fgets]
  | case2 n => simp [fgets]
  | case3 n s => simp [fgets]
  | case4 n c s hc ih => simp only [fgets, hc, if_false, List.length_cons]; omega

/-- A line that fits comes back whole. -/
theorem fgets_line {n : Nat} {l : Str} (s : Str) (hl : '\n' ∉ l) (hn : l.length < n) :
    fgets n (l ++ '\n' :: s) = (l ++ ['\n'], s) := by
  induction l generalizing n with
  | nil => obtain ⟨k, rfl⟩ := Nat.exists_eq_add_of_lt hn; simp [fgets]
  | cons c l ih =>
    obtain ⟨k, rfl⟩ : ∃ k, n = k + 1 := ⟨n - 1, by simp at hn; omega⟩
    have hc : c ≠ '\n' := fun he => hl (he ▸ List.mem_cons_self)
    have := ih (n := k) (fun h => hl (List.mem_cons_of_mem _ h)) (by simpa using hn)
    simp [fgets, hc, this]

/-- The lines a loop of `fgets` reads, up to `k` of them. -/
def fgetsAll (n : Nat) : Nat → Str → List Str
  | 0, _ => []
  | k + 1, s => match fgets n s with
    | ([], _) => []
    | (l, r) => l :: fgetsAll n k r

theorem atoi_decInt {p : Int} (hp : -2147483648 ≤ p ∧ p < 2147483648) : atoi (decInt p) = p := by
  cases p with
  | ofNat n =>
    have hn : n < 2147483648 := by have := hp.2; simp only [Int.ofNat_eq_natCast] at this; omega
    exact atoi_dec_of_lt hn
  | negSucc n =>
    have hlow : -2147483648 ≤ -((n + 1 : Nat) : Int) := hp.1
    have hstrtol : strtol ('-' :: dec (n + 1)) = max (-2 ^ 63) (-((n + 1 : Nat) : Int)) := by
      have hdrop : ('-' :: dec (n + 1)).dropWhile isspace = '-' :: dec (n + 1) := by simp [isspace]
      rw [strtol, hdrop]
      simp only [digits_dec]
    have hmax : max (-2 ^ 63) (-((n + 1 : Nat) : Int)) = -((n + 1 : Nat) : Int) := by omega
    rw [decInt, atoi, hstrtol, hmax, Int.bmod_eq_of_le (by omega) (by omega)]
    rfl

end Cosign
