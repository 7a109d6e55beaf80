import Mathlib.Data.List.TakeDrop
import Mathlib.Tactic.Common
/-!
# Lines of a text

A text whose lines end at a newline or at another character that ends a line.
After such a character one newline that comes next belongs to the end, not to
the next line. `cutLine` takes the first line off a text; what is left of the
text without its end counts as a line. `linesOf` takes them all.
-/

namespace Cosign.Lib

structure LineEnds (α : Type) where
  /-- The newline. -/
  lf : α
  /-- The other characters that end a line. -/
  cr : α → Bool
  cr_lf : cr lf = false

namespace LineEnds
variable {α : Type} [DecidableEq α] (e : LineEnds α)

def isEnd (c : α) : Prop := e.cr c = true ∨ c = e.lf

instance (c : α) : Decidable (e.isEnd c) := inferInstanceAs (Decidable (_ ∨ _))

/-- The newline that belongs to the end before it is not read. -/
def skip : Bool → List α → List α
  | true, c :: r => if c = e.lf then r else c :: r
  | _, r => r

@[simp] theorem skip_false (r : List α) : e.skip false r = r := by cases r <;> rfl
@[simp] theorem skip_nil (b : Bool) : e.skip b [] = [] := by cases b <;> rfl

theorem skip_lf (r : List α) : e.skip true (e.lf :: r) = r := if_pos rfl

theorem skip_other {c : α} (h : c ≠ e.lf) (b : Bool) (r : List α) : e.skip b (c :: r) = c :: r := by
  cases b
  · rfl
  · exact if_neg h

theorem skip_length (b : Bool) (r : List α) : (e.skip b r).length ≤ r.length := by
  cases b
  · simp
  · cases r with
    | nil => simp
    | cons c r => simp only [skip]; split <;> simp

def cutFrom (seen : List α) : List α → Option (List α × List α)
  | [] => if seen = [] then none else some (seen, [])
  | c :: r =>
    if e.cr c then some (seen, e.skip true r)
    else if c = e.lf then some (seen, r)
    else cutFrom (seen ++ [c]) r

/-- The first line of a text and what comes after it. -/
def cutLine (t : List α) : Option (List α × List α) := e.cutFrom [] t

theorem cutFrom_append {l : List α} (h : ∀ c ∈ l, ¬ e.isEnd c) (seen r : List α) :
    e.cutFrom seen (l ++ r) = e.cutFrom (seen ++ l) r := by
  induction l generalizing seen with
  | nil => simp
  | cons c l ih =>
    have hc := h c List.mem_cons_self
    simp only [isEnd, not_or, Bool.not_eq_true] at hc
    simp only [List.cons_append, cutFrom, hc.1, hc.2, if_false, Bool.false_eq_true]
    rw [ih (fun d hd => h d (List.mem_cons_of_mem _ hd)), List.append_assoc, List.singleton_append]

theorem cutLine_cr {l : List α} (h : ∀ c ∈ l, ¬ e.isEnd c) {c : α} (hc : e.cr c = true) (r : List α) :
    e.cutLine (l ++ c :: r) = some (l, e.skip true r) := by
  rw [cutLine, e.cutFrom_append h, cutFrom, if_pos hc, List.nil_append]

theorem cutLine_lf {l : List α} (h : ∀ c ∈ l, ¬ e.isEnd c) (r : List α) :
    e.cutLine (l ++ e.lf :: r) = some (l, r) := by
  have hlf : ¬ e.cr e.lf = true := by rw [e.cr_lf]; exact Bool.false_ne_true
  rw [cutLine, e.cutFrom_append h, cutFrom, if_neg hlf, if_pos rfl, List.nil_append]

theorem cutLine_rest {l : List α} (h : ∀ c ∈ l, ¬ e.isEnd c) (hne : l ≠ []) : e.cutLine l = some (l, []) := by
  have := e.cutFrom_append h [] []
  rwa [List.append_nil, List.nil_append, cutFrom, if_neg hne] at this

@[simp] theorem cutLine_nil : e.cutLine [] = none := rfl

theorem cutFrom_isSome (seen r : List α) (h : seen ++ r ≠ []) : (e.cutFrom seen r).isSome := by
  induction r generalizing seen with
  | nil =>
    have hs : seen ≠ [] := by simpa using h
    simp [cutFrom, hs]
  | cons c r ih =>
    simp only [cutFrom]
    split
    · rfl
    · split
      · rfl
      · exact ih _ (by simp)

theorem cutLine_eq_none {t : List α} : e.cutLine t = none ↔ t = [] := by
  constructor
  · intro h
    by_contra hne
    have := e.cutFrom_isSome [] t (by simpa using hne)
    rw [cutLine] at h
    simp [h] at this
  · rintro rfl; rfl

theorem cutFrom_length {seen r l t : List α} (h : e.cutFrom seen r = some (l, t)) :
    t.length ≤ r.length ∧ (r ≠ [] → t.length < r.length) := by
  induction r generalizing seen with
  | nil =>
    simp only [cutFrom] at h
    split at h
    · cases h
    · cases h; simp
  | cons c r ih =>
    simp only [cutFrom] at h
    split at h
    · cases h
      have := e.skip_length true r
      simp only [List.length_cons]
      exact ⟨by omega, fun _ => by omega⟩
    · split at h
      · cases h; simp
      · have := (ih h).1
        simp only [List.length_cons]
        exact ⟨by omega, fun _ => by omega⟩

/-- A line is shorter than the text it is taken off, unless the text is all of it. -/
theorem cutLine_length {t l r : List α} (h : e.cutLine t = some (l, r)) : r.length < t.length := by
  have hne : t ≠ [] := by rintro rfl; cases h
  exact (e.cutFrom_length h).2 hne

/-- All lines of a text. -/
def linesOf (t : List α) : List (List α) :=
  match h : e.cutLine t with
  | none => []
  | some (l, r) => l :: linesOf r
termination_by t.length
decreasing_by exact e.cutLine_length h

theorem linesOf_none {t : List α} (h : e.cutLine t = none) : e.linesOf t = [] := by
  rw [linesOf]
  split
  · rfl
  · rename_i h'; rw [h] at h'; cases h'

theorem linesOf_some {t l r : List α} (h : e.cutLine t = some (l, r)) : e.linesOf t = l :: e.linesOf r := by
  rw [linesOf]
  split
  · rename_i h'; rw [h] at h'; cases h'
  · rename_i h'; rw [h] at h'; cases h'; rfl

@[simp] theorem linesOf_nil : e.linesOf [] = [] := e.linesOf_none rfl

/-- Lines that end in a character of `cr` and a newline, as they are written. -/
def written (c : α) (ls : List (List α)) : List α := (ls.map (· ++ [c, e.lf])).flatten

/-- Lines written one after another are read back as they were. -/
theorem linesOf_written {c : α} (hc : e.cr c = true) {ls : List (List α)} (h : ∀ l ∈ ls, ∀ d ∈ l, ¬ e.isEnd d) :
    e.linesOf (e.written c ls) = ls := by
  induction ls with
  | nil => exact e.linesOf_nil
  | cons l ls ih =>
    have hcut : e.cutLine (e.written c (l :: ls)) = some (l, e.written c ls) := by
      have := e.cutLine_cr (h l List.mem_cons_self) hc (e.lf :: e.written c ls)
      rw [e.skip_lf] at this
      simpa [written] using this
    rw [e.linesOf_some hcut, ih fun m hm => h m (List.mem_cons_of_mem _ hm)]

/-- Of a text that breaks off the lines come back up to the break, and with
them what there is of the next one. -/
theorem linesOf_prefix {c : α} (hc : e.cr c = true) {ls : List (List α)} (h : ∀ l ∈ ls, ∀ d ∈ l, ¬ e.isEnd d)
    {b : List α} (hb : b <+: e.written c ls) :
    ∃ k cut, e.linesOf b = ls.take k ++ cut ∧
      (cut = [] ∨ ∃ p l, cut = [p] ∧ p ≠ [] ∧ ls[k]? = some l ∧ p <+: l) := by
  induction ls generalizing b with
  | nil => exact ⟨0, [], by simp [List.prefix_nil.1 hb], .inl rfl⟩
  | cons l ls ih =>
    have hl := h l List.mem_cons_self
    have hw : e.written c (l :: ls) = l ++ c :: e.lf :: e.written c ls := by simp [written]
    rw [hw] at hb
    rcases List.prefix_or_prefix_of_prefix hb (List.prefix_append l _) with hpre | ⟨b₁, rfl⟩
    · by_cases hnil : b = []
      · exact ⟨0, [], by simp [hnil], .inl rfl⟩
      · refine ⟨0, [b], ?_, .inr ⟨b, l, rfl, hnil, rfl, hpre⟩⟩
        rw [e.linesOf_some (e.cutLine_rest (fun d hd => hl d (hpre.subset hd)) hnil)]
        simp
    · -- the line has come whole; its end may be missing, in part or all of it
      have hb₁ : b₁ <+: c :: e.lf :: e.written c ls := (List.prefix_append_right_inj l).1 hb
      rcases List.prefix_cons_iff.1 hb₁ with rfl | ⟨b₂, rfl, hb₂⟩
      · by_cases hnil : l = []
        · exact ⟨0, [], by simp [hnil], .inl rfl⟩
        · refine ⟨0, [l], ?_, .inr ⟨l, l, rfl, hnil, rfl, List.prefix_refl l⟩⟩
          rw [List.append_nil, e.linesOf_some (e.cutLine_rest hl hnil)]
          simp
      · have hrest : e.skip true b₂ <+: e.written c ls := by
          rcases List.prefix_cons_iff.1 hb₂ with rfl | ⟨b₃, rfl, hb₃⟩
          · exact List.nil_prefix
          · rwa [e.skip_lf]
        obtain ⟨k, cut, hlines, hcut⟩ := ih (fun m hm => h m (List.mem_cons_of_mem _ hm)) hrest
        refine ⟨k + 1, cut, ?_, hcut⟩
        rw [e.linesOf_some (e.cutLine_cr hl hc b₂), hlines]
        rfl

end LineEnds
end Cosign.Lib
