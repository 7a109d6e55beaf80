import Mathlib.Data.List.Basic
/-!
# Runs of a system

A system takes an event, answers it and changes its state; `step` is `none`
where the event has no defined outcome. A `Trace` is one run with everything
that happened in it: each entry holds the state before, the event, its answer
and the state after. `Trace.inv` is the induction every theorem about runs
uses: what each step keeps, the run keeps.
-/

namespace Cosign.Lib

/-- One step of a run. -/
structure Entry (σ ε ρ : Type) where
  pre : σ
  ev : ε
  res : ρ
  post : σ

variable {σ ε ρ : Type}

inductive Trace (step : σ → ε → Option (ρ × σ)) : σ → List (Entry σ ε ρ) → σ → Prop
  | nil (s : σ) : Trace step s [] s
  | cons {s e r s' tr t} : step s e = some (r, s') → Trace step s' tr t →
      Trace step s (⟨s, e, r, s'⟩ :: tr) t

variable {step : σ → ε → Option (ρ × σ)}

/-- An invariant that every step with `C` keeps holds before and after every
step of a run whose steps all have `C`. -/
theorem Trace.inv (I : σ → Prop) (C : Entry σ ε ρ → Prop)
    (hstep : ∀ x : Entry σ ε ρ, step x.pre x.ev = some (x.res, x.post) → C x → I x.pre → I x.post)
    {s t : σ} {tr : List (Entry σ ε ρ)} (h : Trace step s tr t) (hs : I s) (hC : ∀ x ∈ tr, C x) :
    I t ∧ ∀ x ∈ tr, I x.pre ∧ I x.post := by
  induction h with
  | nil s => exact ⟨hs, by simp⟩
  | @cons s e r s' tr t he _ ih =>
    have hs' : I s' := hstep ⟨s, e, r, s'⟩ he (hC _ List.mem_cons_self) hs
    obtain ⟨ht, hmem⟩ := ih hs' fun x hx => hC x (List.mem_cons_of_mem _ hx)
    refine ⟨ht, fun x hx => ?_⟩
    rcases List.mem_cons.1 hx with rfl | hx
    · exact ⟨hs, hs'⟩
    · exact hmem x hx

/-- Every entry of a run is a step of the system. -/
theorem Trace.fired {s t : σ} {tr : List (Entry σ ε ρ)} (h : Trace step s tr t) :
    ∀ x ∈ tr, step x.pre x.ev = some (x.res, x.post) := by
  induction h with
  | nil => simp
  | cons he _ ih =>
    intro x hx
    rcases List.mem_cons.1 hx with rfl | hx
    · exact he
    · exact ih x hx

/-- The first part of a run is a run. -/
theorem Trace.take {s t : σ} {tr₁ tr₂ : List (Entry σ ε ρ)} (h : Trace step s (tr₁ ++ tr₂) t) :
    ∃ u, Trace step s tr₁ u ∧ Trace step u tr₂ t := by
  induction tr₁ generalizing s with
  | nil => exact ⟨s, .nil s, h⟩
  | cons x tr₁ ih =>
    cases h with
    | cons he htail =>
      obtain ⟨u, h₁, h₂⟩ := ih htail
      exact ⟨u, .cons he h₁, h₂⟩

theorem Trace.append {s u t : σ} {tr₁ tr₂ : List (Entry σ ε ρ)} (h₁ : Trace step s tr₁ u) (h₂ : Trace step u tr₂ t) :
    Trace step s (tr₁ ++ tr₂) t := by
  induction h₁ with
  | nil => exact h₂
  | cons he _ ih => exact .cons he (ih h₂)

end Cosign.Lib
