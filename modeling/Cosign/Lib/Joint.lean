import Cosign.Lib.Runs
import Cosign.Lib.Wp
/-!
# Two systems side by side

One system runs as a `Trace`, and the other acts on a state of its own. What it
does takes time in which the first goes on, and `link` says what it has from
the steps that were made meanwhile. `Joint.inv` keeps an invariant of each: the
second's may rest on what the first's says of those steps.
-/

namespace Cosign.Lib

/-- An event of the first system, or an act of the second with the first's
entries in that time. -/
inductive Moment (σ ε ρ ν : Type) where
  | event (x : Entry σ ε ρ)
  | act (v : ν) (tr : List (Entry σ ε ρ))

variable {σ ε ρ ν τ : Type}

namespace Moment

def entries : Moment σ ε ρ ν → List (Entry σ ε ρ)
  | event x => [x]
  | act _ tr => tr

def acts : Moment σ ε ρ ν → List ν
  | event _ => []
  | act v _ => [v]

end Moment

section
variable (step : σ → ε → Option (ρ × σ)) (acts : τ → ν → τ → Prop) (link : ν → List (Entry σ ε ρ) → Prop)

inductive Joint : σ → τ → List (Moment σ ε ρ ν) → σ → τ → Prop
  | nil (s : σ) (w : τ) : Joint s w [] s w
  | event {s e r s' w ms t u} : step s e = some (r, s') → Joint s' w ms t u →
      Joint s w (.event ⟨s, e, r, s'⟩ :: ms) t u
  | act {s tr s' w v w' ms t u} : Trace step s tr s' → acts w v w' → link v tr → Joint s' w' ms t u →
      Joint s w (.act v tr :: ms) t u

variable {step acts link}

/-- The run up to an act, the act, and the run after it. -/
theorem Joint.split {s t : σ} {w u : τ} {ms₁ ms₂ : List (Moment σ ε ρ ν)} {v : ν} {tr : List (Entry σ ε ρ)}
    (h : Joint step acts link s w (ms₁ ++ .act v tr :: ms₂) t u) :
    ∃ s₁ w₁ s₂ w₂, Joint step acts link s w ms₁ s₁ w₁ ∧ Trace step s₁ tr s₂ ∧ acts w₁ v w₂ ∧ link v tr ∧
      Joint step acts link s₂ w₂ ms₂ t u := by
  induction ms₁ generalizing s w with
  | nil =>
    cases h with
    | act htr hact hlink htail => exact ⟨s, w, _, _, .nil s w, htr, hact, hlink, htail⟩
  | cons m ms₁ ih =>
    cases h with
    | event he htail =>
      obtain ⟨s₁, w₁, s₂, w₂, h₁, h⟩ := ih htail
      exact ⟨s₁, w₁, s₂, w₂, .event he h₁, h⟩
    | act htr hact hlink htail =>
      obtain ⟨s₁, w₁, s₂, w₂, h₁, h⟩ := ih htail
      exact ⟨s₁, w₁, s₂, w₂, .act htr hact hlink h₁, h⟩

/-- The first system runs as if it were alone. -/
theorem Joint.trace {s t : σ} {w u : τ} {ms : List (Moment σ ε ρ ν)} (h : Joint step acts link s w ms t u) :
    Trace step s (ms.flatMap Moment.entries) t := by
  induction h with
  | nil s w => exact .nil s
  | event he _ ih => exact .cons he ih
  | act htr _ _ _ ih => exact htr.append ih

/-- An invariant of the first system, and one of the second that rests on it. -/
theorem Joint.inv {I : σ → Prop} {C : Entry σ ε ρ → Prop} {J : τ → Prop} {D : ν → Prop}
    (hI : ∀ x : Entry σ ε ρ, step x.pre x.ev = some (x.res, x.post) → C x → I x.pre → I x.post)
    (hJ : ∀ w v w' tr, acts w v w' → link v tr → D v →
      (∀ x ∈ tr, step x.pre x.ev = some (x.res, x.post) ∧ I x.pre) → J w → J w')
    {s t : σ} {w u : τ} {ms : List (Moment σ ε ρ ν)} (h : Joint step acts link s w ms t u)
    (hC : ∀ m ∈ ms, ∀ x ∈ m.entries, C x) (hD : ∀ m ∈ ms, ∀ v ∈ m.acts, D v) (hs : I s) (hw : J w) : I t ∧ J u := by
  induction h with
  | nil => exact ⟨hs, hw⟩
  | @event s e r s' w ms t u he _ ih =>
    refine ih (fun m hm => hC m (List.mem_cons_of_mem _ hm)) (fun m hm => hD m (List.mem_cons_of_mem _ hm)) ?_ hw
    exact hI ⟨s, e, r, s'⟩ he (hC _ List.mem_cons_self _ List.mem_cons_self) hs
  | @act s tr s' w v w' ms t u htr hact hlink _ ih =>
    obtain ⟨hs', hmem⟩ := htr.inv I C hI hs (hC _ List.mem_cons_self)
    refine ih (fun m hm => hC m (List.mem_cons_of_mem _ hm)) (fun m hm => hD m (List.mem_cons_of_mem _ hm)) hs' ?_
    exact hJ w v w' tr hact hlink (hD _ List.mem_cons_self v List.mem_cons_self)
      (fun x hx => ⟨htr.fired x hx, (hmem x hx).1⟩) hw

end

/-! ## A program that only reshapes a result -/

/-- What a program ends with, when it goes on with a value computed from another's
result. -/
theorem Prog.Goes.of_map {Op : Type} {Ans : Op → Type} {α β : Type} {next : (o : Op) → σ → Ans o → σ → Prop}
    {p : Prog Op Ans α} {f : α → β} {s t : σ} {tr : List (Prog.Event Op Ans σ)} {b : β}
    (h : Prog.Goes next (p >>= fun a => pure (f a)) s tr (some b) t) : ∃ a, Prog.Goes next p s tr (some a) t ∧ b = f a := by
  induction p generalizing s tr with
  | ret a =>
    cases h with
    | ret => exact ⟨a, .ret a _, rfl⟩
  | undef => cases h
  | ask o k ih =>
    cases h with
    | ask hstep htail =>
      obtain ⟨a, ha, hb⟩ := ih _ htail
      exact ⟨a, .ask hstep ha, hb⟩

/-- A program that asks nothing changes nothing. -/
theorem Prog.Goes.of_pure {Op : Type} {Ans : Op → Type} {α : Type} {next : (o : Op) → σ → Ans o → σ → Prop} {a b : α}
    {s t : σ} {tr : List (Prog.Event Op Ans σ)} (h : Prog.Goes next (pure a : Prog Op Ans α) s tr (some b) t) :
    b = a ∧ t = s := by
  cases h with
  | ret => exact ⟨rfl, rfl⟩

end Cosign.Lib
