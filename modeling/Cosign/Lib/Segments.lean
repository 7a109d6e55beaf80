import Mathlib.Data.List.Basic
import Mathlib.Tactic.Common
/-!
# Segments of a memory

What lies in a memory from an index on. A store of several values, and a move
of a segment to the front, in the terms of what can be read afterwards.
-/

namespace Cosign.Lib

variable {β : Type}

/-- The `n` values from `i` on. -/
def segment (m : Nat → β) (i : Nat) : Nat → List β
  | 0 => []
  | n + 1 => m i :: segment m (i + 1) n

@[simp] theorem segment_zero (m : Nat → β) (i : Nat) : segment m i 0 = [] := rfl

@[simp] theorem segment_length (m : Nat → β) (i n : Nat) : (segment m i n).length = n := by
  induction n generalizing i with
  | zero => rfl
  | succ n ih => simp [segment, ih]

theorem segment_add (m : Nat → β) (i a b : Nat) : segment m i (a + b) = segment m i a ++ segment m (i + a) b := by
  induction a generalizing i with
  | zero => simp
  | succ a ih =>
    rw [Nat.succ_add, segment, ih, segment, List.cons_append, Nat.add_assoc, Nat.add_comm 1 a]

theorem segment_succ (m : Nat → β) (i n : Nat) : segment m i (n + 1) = segment m i n ++ [m (i + n)] :=
  segment_add m i n 1

theorem segment_congr {m m' : Nat → β} {i j n : Nat} (h : ∀ k < n, m (i + k) = m' (j + k)) :
    segment m i n = segment m' j n := by
  induction n generalizing i j with
  | zero => rfl
  | succ n ih =>
    have h0 : m i = m' j := h 0 (Nat.succ_pos n)
    have htail : segment m (i + 1) n = segment m' (j + 1) n := by
      refine ih fun k hk => ?_
      have := h (k + 1) (Nat.succ_lt_succ hk)
      rwa [← Nat.add_assoc, ← Nat.add_assoc, Nat.add_right_comm, Nat.add_right_comm j] at this
    rw [segment, segment, h0, htail]

/-- `memmove` of `n` values from `i` to the front. -/
def moveToFront (m : Nat → β) (i n : Nat) : Nat → β := fun k => if k < n then m (i + k) else m k

theorem segment_moveToFront (m : Nat → β) (i n : Nat) : segment (moveToFront m i n) 0 n = segment m i n := by
  refine segment_congr fun k hk => ?_
  rw [Nat.zero_add, moveToFront, if_pos hk]

/-- The values of a list stored from `i` on. -/
def storeList (m : Nat → β) (i : Nat) (d : List β) : Nat → β := fun k => if i ≤ k then d.getD (k - i) (m k) else m k

theorem storeList_below {m : Nat → β} {i k : Nat} (d : List β) (h : k < i) : storeList m i d k = m k :=
  if_neg (Nat.not_le.2 h)

theorem segment_storeList (m : Nat → β) (i : Nat) (d : List β) : segment (storeList m i d) i d.length = d := by
  induction d generalizing i m with
  | nil => rfl
  | cons b d ih =>
    have htail : segment (storeList m i (b :: d)) (i + 1) d.length = segment (storeList m (i + 1) d) (i + 1) d.length := by
      refine segment_congr fun k hk => ?_
      have h : i + 1 + k - i = (i + 1 + k - (i + 1)) + 1 := by omega
      simp only [storeList, if_pos (show i ≤ i + 1 + k by omega), if_pos (show i + 1 ≤ i + 1 + k by omega), h]
      rfl
    have hhead : storeList m i (b :: d) i = b := by simp [storeList]
    rw [List.length_cons, segment, hhead, htail, ih]

/-- A store behind a segment makes it longer. -/
theorem segment_storeList_append (m : Nat → β) (i n : Nat) (d : List β) :
    segment (storeList m (i + n) d) i (n + d.length) = segment m i n ++ d := by
  rw [segment_add, segment_storeList]
  refine congrArg (· ++ d) (segment_congr fun k hk => storeList_below d (by omega))

end Cosign.Lib
