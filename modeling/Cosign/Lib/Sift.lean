import Mathlib.Data.List.Basic
/-!
# Lists sifted by what came before

Each element is kept or dropped by a test that sees all the elements before it,
the dropped ones too.
-/

namespace Cosign.Lib

variable {α β : Type} (keep keep' : List α → α → Bool)

def siftFrom : (before : List α) → List α → List α
  | _, [] => []
  | before, x :: xs =>
    if keep before x then x :: siftFrom (before ++ [x]) xs else siftFrom (before ++ [x]) xs

def sift (xs : List α) : List α := siftFrom keep [] xs

theorem siftFrom_append (before xs ys : List α) :
    siftFrom keep before (xs ++ ys) = siftFrom keep before xs ++ siftFrom keep (before ++ xs) ys := by
  induction xs generalizing before with
  | nil => simp [siftFrom]
  | cons x xs ih =>
    simp only [List.cons_append, siftFrom, ih]
    split <;> simp

/-- One more element. -/
theorem sift_concat (xs : List α) (x : α) : sift keep (xs ++ [x]) = sift keep xs ++ if keep xs x then [x] else [] := by
  unfold sift
  rw [siftFrom_append]
  simp [siftFrom]

variable {keep keep'}

theorem siftFrom_sublist (h : ∀ before x, keep before x = true → keep' before x = true) (before xs : List α) :
    (siftFrom keep before xs).Sublist (siftFrom keep' before xs) := by
  induction xs generalizing before with
  | nil => exact List.Sublist.refl _
  | cons x xs ih =>
    unfold siftFrom
    by_cases hk : keep before x = true
    · rw [if_pos hk, if_pos (h before x hk)]
      exact (ih _).cons_cons x
    · rw [if_neg hk]
      split
      · exact (ih _).cons x
      · exact ih _

/-- The stricter of two tests keeps as many just when it drops nothing that the
other keeps. -/
theorem siftFrom_length_iff (h : ∀ before x, keep before x = true → keep' before x = true) (before xs : List α) :
    (siftFrom keep before xs).length = (siftFrom keep' before xs).length ↔
      ∀ ys x zs, xs = ys ++ x :: zs → keep' (before ++ ys) x = true → keep (before ++ ys) x = true := by
  induction xs generalizing before with
  | nil => simp [siftFrom]
  | cons x xs ih =>
    have hrest := ih (before ++ [x])
    have hle := (siftFrom_sublist h (before ++ [x]) xs).length_le
    constructor
    · intro hlen ys y zs he hk'
      unfold siftFrom at hlen
      cases ys with
      | nil =>
        cases he
        simp only [List.append_nil] at hk' ⊢
        by_contra hk
        rw [if_neg hk, if_pos hk', List.length_cons] at hlen
        omega
      | cons y' ys =>
        cases he
        have hlen' : (siftFrom keep (before ++ [x]) (ys ++ y :: zs)).length =
            (siftFrom keep' (before ++ [x]) (ys ++ y :: zs)).length := by
          by_cases hk : keep before x = true
          · rw [if_pos hk, if_pos (h before x hk)] at hlen
            simpa using hlen
          · rw [if_neg hk] at hlen
            split at hlen
            · rw [List.length_cons] at hlen
              omega
            · exact hlen
        have := hrest.1 hlen' ys y zs rfl
        simp only [List.append_assoc, List.singleton_append] at this
        exact this hk'
    · intro hall
      have hx := hall [] x xs rfl
      simp only [List.append_nil] at hx
      have htail : (siftFrom keep (before ++ [x]) xs).length = (siftFrom keep' (before ++ [x]) xs).length := by
        refine hrest.2 fun ys y zs he hk' => ?_
        have := hall (x :: ys) y zs (by rw [he]; rfl)
        simp only [List.append_assoc, List.singleton_append] at hk' ⊢
        exact this hk'
      unfold siftFrom
      by_cases hk' : keep' before x = true
      · rw [if_pos (hx hk'), if_pos hk', List.length_cons, List.length_cons, htail]
      · rw [if_neg hk', if_neg fun hk => hk' (h before x hk)]
        exact htail

/-- Two tests, one stricter than the other, give the same images just when they
agree along the list. -/
theorem sift_map_eq_iff (f : α → β) (h : ∀ before x, keep before x = true → keep' before x = true) (xs : List α) :
    (sift keep xs).map f = (sift keep' xs).map f ↔
      ∀ ys x zs, xs = ys ++ x :: zs → keep' ys x = true → keep ys x = true := by
  have hlen := siftFrom_length_iff h [] xs
  simp only [List.nil_append] at hlen
  rw [← hlen]
  constructor
  · intro he
    simpa [sift] using congrArg List.length he
  · intro he
    have := (siftFrom_sublist h [] xs).eq_of_length he
    unfold sift
    rw [this]

end Cosign.Lib
