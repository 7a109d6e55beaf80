import Mathlib.Data.List.Basic
/-!
# Walks that delete

A walk over a linked list through a pointer to a link. At each node the node is
put back changed, and the pointer moves to the next link, or it is unlinked, and
the pointer stays.
-/

namespace Cosign.Lib

variable {α : Type}

/-- The walk in so many rounds, from the round `i` and the link `cur`: the nodes
it was at, and the list it leaves. -/
def walk (f : Nat → α → Option α) : (rounds i cur : Nat) → List α → Option (List α × List α)
  | 0, _, _, _ => none
  | n + 1, i, cur, l =>
    match l[cur]? with
    | none => some ([], l)
    | some x =>
      let rest := match f i x with
        | none => walk f n (i + 1) cur (l.eraseIdx cur)
        | some y => walk f n (i + 1) (cur + 1) (l.set cur y)
      rest.map fun (met, l) => (x :: met, l)

/-- What is left of the nodes that were met from the round `i` on. -/
def kept (f : Nat → α → Option α) (i : Nat) : List α → List α
  | [] => []
  | x :: xs => (f i x).toList ++ kept f (i + 1) xs

/-- The walk is at each node once, in order. -/
theorem walk_from (f : Nat → α → Option α) (before rest : List α) (i : Nat) :
    walk f (rest.length + 1) i before.length (before ++ rest) = some (rest, before ++ kept f i rest) := by
  induction rest generalizing before i with
  | nil => simp [walk, kept]
  | cons x rest ih =>
    have hx : (before ++ x :: rest)[before.length]? = some x := by simp
    rw [List.length_cons, walk, hx]
    cases hf : f i x with
    | none =>
      have herase : (before ++ x :: rest).eraseIdx before.length = before ++ rest := by
        rw [List.eraseIdx_append_of_length_le (Nat.le_refl _), Nat.sub_self, List.eraseIdx_cons_zero]
      simp [herase, ih, kept, hf]
    | some y =>
      have hset : (before ++ x :: rest).set before.length y = (before ++ [y]) ++ rest := by simp
      have hnext := ih (before ++ [y]) (i + 1)
      rw [List.length_append, List.length_singleton] at hnext
      simp only [hf]
      rw [hset, hnext]
      simp [kept, hf]

theorem walk_all (f : Nat → α → Option α) (l : List α) : walk f (l.length + 1) 0 0 l = some (l, kept f 0 l) :=
  walk_from f [] l 0

end Cosign.Lib
