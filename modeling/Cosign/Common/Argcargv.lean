import Cosign.Common.Text
/-!
# Words of a line

`acavParse` is `acav_parse` with the default flags: neither quotes nor
backslashes are special, and the words are split at blanks, tabs and newlines.
It writes a NUL over the blank after each word, so `lineLeft` is what the line
buffer itself reads as afterwards.
-/

namespace Cosign

def isBlank (c : Char) : Bool := c = ' ' || c = '\t' || c = '\n'

/-- The scan, with the word it is in (`ACV_WORD`) or none (`ACV_WHITE`). -/
def acavScan : Option Str → Str → List Str
  | none, [] => []
  | some w, [] => [w]
  | none, c :: s => if isBlank c then acavScan none s else acavScan (some [c]) s
  | some w, c :: s => if isBlank c then w :: acavScan none s else acavScan (some (w ++ [c])) s

def acavParse (line : Str) : List Str := acavScan none line

def lineLeft (line : Str) : Str :=
  line.takeWhile isBlank ++ (line.dropWhile isBlank).takeWhile fun c => !isBlank c

/-- `fprintf(" %s")` for every word after the first. -/
def unwords : List Str → Str
  | [] => []
  | [w] => w
  | w :: v :: ws => w ++ ' ' :: unwords (v :: ws)

/-- What the parser may return as a word. -/
def IsWord (w : Str) : Prop := w ≠ [] ∧ ∀ c ∈ w, isBlank c = false

/-! ## The words it returns -/

theorem acavScan_words (o : Option Str) (s : Str) (ho : ∀ w, o = some w → IsWord w) :
    ∀ w ∈ acavScan o s, IsWord w := by
  induction o, s using acavScan.induct with
  | case1 => simp [acavScan]
  | case2 w => simpa [acavScan] using ho
  | case3 c s hc ih => simpa [acavScan, hc] using ih (by simp)
  | case4 c s hc ih =>
    have h1 : IsWord [c] := ⟨by simp, by simpa using hc⟩
    simpa [acavScan, hc] using ih (by rintro _ ⟨⟩; exact h1)
  | case5 w c s hc ih =>
    intro v hv
    simp only [acavScan, hc, if_true, List.mem_cons] at hv
    rcases hv with rfl | hv
    · exact ho _ rfl
    · exact ih (by simp) v hv
  | case6 w c s hc ih =>
    have hw := ho w rfl
    have h1 : IsWord (w ++ [c]) := by
      refine ⟨by simp, fun d hd => ?_⟩
      rcases List.mem_append.1 hd with hd | hd
      · exact hw.2 d hd
      · simpa [List.mem_singleton.1 hd] using hc
    simpa [acavScan, hc] using ih (by rintro _ ⟨⟩; exact h1)

theorem acavParse_words (s : Str) : ∀ w ∈ acavParse s, IsWord w :=
  acavScan_words none s (by simp)

theorem IsWord.no_newline {w : Str} (h : IsWord w) : '\n' ∉ w := fun hc => by
  simpa [isBlank] using h.2 _ hc

/-! ## Words read back -/

theorem acavScan_append (w v s : Str) (hv : ∀ c ∈ v, isBlank c = false) :
    acavScan (some w) (v ++ s) = acavScan (some (w ++ v)) s := by
  induction v generalizing w with
  | nil => simp
  | cons c v ih =>
    have hc := hv c List.mem_cons_self
    simp only [List.cons_append, acavScan, hc]
    simpa using ih (w ++ [c]) fun d hd => hv d (List.mem_cons_of_mem _ hd)

theorem acavScan_word {w : Str} (hw : IsWord w) (s : Str) :
    acavScan none (w ++ s) = acavScan (some w) s := by
  obtain ⟨c, v, rfl⟩ := List.exists_cons_of_ne_nil hw.1
  have hc := hw.2 c List.mem_cons_self
  simp only [List.cons_append, acavScan, hc]
  simpa using acavScan_append [c] v s fun d hd => hw.2 d (List.mem_cons_of_mem _ hd)

/-- Of words printed with one blank between them, the empty ones are lost. -/
theorem acavParse_unwords_filter {ws : List Str} (h : ∀ w ∈ ws, ∀ c ∈ w, isBlank c = false) :
    acavParse (unwords ws) = ws.filter (· ≠ []) := by
  induction ws using unwords.induct with
  | case1 => rfl
  | case2 w =>
    by_cases hw : w = []
    · subst hw
      rfl
    · have := acavScan_word ⟨hw, h w (by simp)⟩ []
      simpa [acavParse, unwords, acavScan, hw] using this
  | case3 w v ws ih =>
    have htail : acavScan none (unwords (v :: ws)) = (v :: ws).filter (· ≠ []) :=
      ih fun x hx => h x (List.mem_cons_of_mem _ hx)
    by_cases hw : w = []
    · subst hw
      simpa [acavParse, unwords, acavScan, isBlank] using htail
    · rw [acavParse, unwords, acavScan_word ⟨hw, h w (by simp)⟩, List.filter_cons_of_pos (by simpa using hw), ← htail]
      simp [acavScan, isBlank]

/-- Words printed with one blank between them are read back as they were. -/
theorem acavParse_unwords {ws : List Str} (h : ∀ w ∈ ws, IsWord w) : acavParse (unwords ws) = ws := by
  rw [acavParse_unwords_filter fun w hw => (h w hw).2, List.filter_eq_self]
  intro w hw
  exact decide_eq_true (h w hw).1

theorem unwords_append (ws : List Str) (v : Str) (hne : ws ≠ []) :
    unwords (ws ++ [v]) = unwords ws ++ ' ' :: v := by
  induction ws using unwords.induct with
  | case1 => exact absurd rfl hne
  | case2 w => simp [unwords]
  | case3 w x ws ih => simpa [unwords] using ih (by simp)

theorem unwords_no_newline {ws : List Str} (h : ∀ w ∈ ws, IsWord w) : '\n' ∉ unwords ws := by
  induction ws using unwords.induct with
  | case1 => simp [unwords]
  | case2 w => exact (h w (by simp)).no_newline
  | case3 w v ws ih =>
    have h1 := (h w (by simp)).no_newline
    have h2 := ih fun x hx => h x (List.mem_cons_of_mem _ hx)
    simp [unwords, h1, h2]

end Cosign
