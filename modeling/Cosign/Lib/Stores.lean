import Mathlib.Logic.Function.Basic
import Mathlib.Data.List.Basic
/-!
# Stores through a pointer

What a loop writes is the list of its stores, each the index it stores at and
the value. `storeAll` is the memory they leave behind, and `storesFrom` the stores of
a pointer that moves up by one each time.
-/

namespace Cosign.Lib

variable {β : Type}

def storeAll (m : Nat → β) : List (Nat × β) → Nat → β
  | [] => m
  | (i, b) :: ss => storeAll (Function.update m i b) ss

def storesFrom (i : Nat) : List β → List (Nat × β)
  | [] => []
  | b :: bs => (i, b) :: storesFrom (i + 1) bs

theorem storeAll_snoc (mem : Nat → β) (ss : List (Nat × β)) (i : Nat) (x : β) :
    storeAll mem (ss ++ [(i, x)]) i = x := by
  induction ss generalizing mem with
  | nil => exact Function.update_self i x mem
  | cons s ss ih => exact ih _

@[simp] theorem storesFrom_nil (i : Nat) : storesFrom i ([] : List β) = [] := rfl

@[simp] theorem storesFrom_cons (i : Nat) (b : β) (bs : List β) :
    storesFrom i (b :: bs) = (i, b) :: storesFrom (i + 1) bs := rfl

theorem storesFrom_append (i : Nat) (bs cs : List β) :
    storesFrom i (bs ++ cs) = storesFrom i bs ++ storesFrom (i + bs.length) cs := by
  induction bs generalizing i with
  | nil => rfl
  | cons b bs ih =>
    rw [List.cons_append, storesFrom_cons, ih, storesFrom_cons, List.cons_append, List.length_cons,
      Nat.add_right_comm, ← Nat.add_assoc]

@[simp] theorem storesFrom_length (i : Nat) (bs : List β) : (storesFrom i bs).length = bs.length := by
  induction bs generalizing i with
  | nil => rfl
  | cons b bs ih => rw [storesFrom_cons, List.length_cons, ih, List.length_cons]

theorem storesFrom_inj {i : Nat} {bs cs : List β} (h : storesFrom i bs = storesFrom i cs) : bs = cs := by
  induction bs generalizing i cs with
  | nil => cases cs with
    | nil => rfl
    | cons c cs => cases h
  | cons b bs ih => cases cs with
    | nil => cases h
    | cons c cs =>
      simp only [storesFrom_cons, List.cons.injEq, Prod.mk.injEq, true_and] at h
      rw [h.1, ih h.2]

theorem mem_storesFrom {i j : Nat} {b : β} {bs : List β} (h : (j, b) ∈ storesFrom i bs) :
    i ≤ j ∧ j < i + bs.length := by
  induction bs generalizing i with
  | nil => cases h
  | cons c bs ih =>
    rw [storesFrom_cons, List.mem_cons, Prod.mk.injEq] at h
    rw [List.length_cons]
    obtain ⟨rfl, -⟩ | h := h
    · exact ⟨Nat.le_refl j, by omega⟩
    · have := ih h
      omega

end Cosign.Lib
