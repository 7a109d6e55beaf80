import Mathlib.Order.MinMax
import Mathlib.Tactic.Tauto
/-!
# The latest of some values

A register that takes a value only when it is later than its own. What it holds
in the end is the join of all it was given, so it does not matter in which order
or how often they came.
-/

namespace Cosign.Lib

variable {α : Type} [LinearOrder α]

/-- `m` and the members of `l`, the latest of them. -/
def latest (m : α) (l : List α) : α := l.foldr max m

@[simp] theorem latest_nil (m : α) : latest m [] = m := rfl

@[simp] theorem latest_cons (m x : α) (l : List α) : latest m (x :: l) = max x (latest m l) := rfl

theorem latest_le {m n : α} {l : List α} : latest m l ≤ n ↔ m ≤ n ∧ ∀ x ∈ l, x ≤ n := by
  induction l with
  | nil => simp
  | cons x l ih =>
    rw [latest_cons, max_le_iff, ih]
    simp only [List.mem_cons, forall_eq_or_imp]
    tauto

theorem le_latest {m n : α} {l : List α} : n ≤ latest m l ↔ n ≤ m ∨ ∃ x ∈ l, n ≤ x := by
  induction l with
  | nil => simp
  | cons x l ih =>
    rw [latest_cons, le_max_iff, ih]
    simp only [List.mem_cons, exists_eq_or_imp]
    tauto

theorem le_latest_self (m : α) (l : List α) : m ≤ latest m l := le_latest.2 (.inl (le_refl m))

theorem le_latest_of_mem {m x : α} {l : List α} (h : x ∈ l) : x ≤ latest m l := le_latest.2 (.inr ⟨x, h, le_refl x⟩)

/-- One value after the other. -/
theorem latest_append (m : α) (l l' : List α) : latest (latest m l) l' = latest m (l ++ l') := by
  apply le_antisymm
  · refine latest_le.2 ⟨latest_le.2 ⟨le_latest_self .., fun x hx => ?_⟩, fun x hx => ?_⟩
    · exact le_latest_of_mem (List.mem_append_left _ hx)
    · exact le_latest_of_mem (List.mem_append_right _ hx)
  · refine latest_le.2 ⟨(le_latest_self m l).trans (le_latest_self _ _), fun x hx => ?_⟩
    rcases List.mem_append.1 hx with hx | hx
    · exact (le_latest_of_mem hx).trans (le_latest_self _ _)
    · exact le_latest_of_mem hx

/-- Values that are dominated do not count. -/
theorem latest_le_latest {m : α} {l l' : List α} :
    latest m l ≤ latest m l' ↔ ∀ x ∈ l, x ≤ m ∨ ∃ y ∈ l', x ≤ y := by
  rw [latest_le]
  constructor
  · exact fun h x hx => le_latest.1 (h.2 x hx)
  · exact fun h => ⟨le_latest_self m l', fun x hx => le_latest.2 (h x hx)⟩

/-- Order and repetitions do not matter. -/
theorem latest_congr {m : α} {l l' : List α} (h : ∀ x, x ∈ l ↔ x ∈ l') : latest m l = latest m l' := by
  apply le_antisymm
  · exact latest_le_latest.2 fun x hx => .inr ⟨x, (h x).1 hx, le_refl x⟩
  · exact latest_le_latest.2 fun x hx => .inr ⟨x, (h x).2 hx, le_refl x⟩

end Cosign.Lib
